import MolIpc.Ipc.Commands

/-!
What the calls and the handlers put into the queues of the sender proxies.

A descriptor in such a queue carries a command. It is *sendable* when `mm_get2rmt` has a case for
the command in the switch that it takes for the descriptor, and `mm_put2lcl` has one too. All that
a call does keeps the descriptors sendable, and what it links to a queue is sendable: the relation
`Feeds`, which is closed under composition and holds of every edit.
-/

namespace MolIpc

variable {p q : Proc}

/-! ### Sendable descriptors -/

/-- `mm_get2rmt` has a case for the command in its switch, and `mm_put2lcl` has one. -/
def Proc.Sendable (p : Proc) : Prop :=
  p.rmtcmd.cmd.hasCase = true ∧ p.rts.remote = p.rmtcmd.cmd.byRemote

instance (p : Proc) : Decidable p.Sendable := by unfold Proc.Sendable; infer_instance

theorem Proc.sendable_congr (h : p.load = q.load) : p.Sendable ↔ q.Sendable := by
  simp only [load, Prod.mk.injEq] at h
  unfold Sendable
  rw [h.1, h.2]

theorem Proc.calm_of_outer (h : p.outer = q.outer) :
    p.load = q.load ∧ p.rts.signaled = q.rts.signaled :=
  ⟨congrArg (fun o => o.2.1) h, congrArg (fun o => o.2.2.1) h⟩

theorem Proc.upIfReady_load (p : Proc) (code : ℤ) : (p.upIfReady code).load = p.load :=
  (calm_of_outer (p.upIfReady_outer code)).1

namespace Node

/-- The queues get sendable descriptors only, what is sendable stays so, and no process changes
sides. -/
structure Feeds (n n' : Node) : Prop where
  queue (px x : ℤ) : x ∈ (n'.sproxy px).list → x ∈ (n.sproxy px).list ∨ (n'.proc x).Sendable
  desc (x : ℤ) : (n.proc x).Sendable → (n'.proc x).Sendable
  side (x : ℤ) : (n'.proc x).rts.remote = (n.proc x).rts.remote

section Basic

variable {n m n' : Node} {x c : ℤ} {f : Proc → Proc} {ack : Cmd}

theorem Feeds.refl (n : Node) : Feeds n n := ⟨fun _ _ => .inl, fun _ => id, fun _ => rfl⟩

theorem Feeds.trans (h : Feeds n m) (h' : Feeds m n') : Feeds n n' where
  queue px x hx := (h'.queue px x hx).elim
    (fun hm => (h.queue px x hm).imp_right (h'.desc x)) .inr
  desc x := h'.desc x ∘ h.desc x
  side x := (h'.side x).trans (h.side x)

theorem feeds_modProc (i : ℤ) (n : Node) (hf : ∀ p, (f p).load = p.load) :
    Feeds n (n.modProc i f) := by
  have hload : ∀ q, ((n.modProc i f).proc q).load = (n.proc q).load := fun q =>
    modProc_field i q Proc.load hf
  exact ⟨fun _ _ => .inl, fun q => (Proc.sendable_congr (hload q)).mpr,
    fun q => congrArg Prod.snd (hload q)⟩

theorem Feeds.modProc (h : Feeds n m) (i : ℤ) (hf : ∀ p, (f p).load = p.load) :
    Feeds n (m.modProc i f) := h.trans (feeds_modProc i m hf)

theorem feeds_unlink (x : ℤ) (n : Node) : Feeds n (n.unlink x) :=
  ⟨fun _ _ h => .inl (List.mem_filter.mp h).1, fun _ => id, fun _ => rfl⟩

theorem feeds_sproxyEnqueue (h : (n.proc x).Sendable) : Feeds n (n.sproxyEnqueue x).1 := by
  have hload : ∀ q, ((n.sproxyEnqueue x).1.proc q).load = (n.proc q).load :=
    sproxyEnqueue_field Proc.load fun _ _ => rfl
  refine ⟨fun px q hq => ?_, fun q => (Proc.sendable_congr (hload q)).mpr,
    fun q => congrArg Prod.snd (hload q)⟩
  by_cases hfree : (n.sproxy (n.conf.nProxies (n.proc x).rmtcmd.dnode)).rts = Rts.onlyFree
  · rw [sproxyEnqueue_of_free n x hfree] at hq
    exact .inl hq
  · rw [sproxyEnqueue_list hfree] at hq
    split at hq
    · rcases List.mem_append.mp hq with hq | hq
      · exact .inl hq
      · rw [List.mem_singleton.mp hq]
        exact .inr ((Proc.sendable_congr (hload x)).mpr h)
    · exact .inl hq

theorem feeds_ask {c : Cmd} (hcase : c.hasCase = true)
    (hside : (n.proc x).rts.remote = c.byRemote)
    (hf : ∀ p, (f p).load = (c, p.rts.remote)) : Feeds n ((n.modProc x f).sproxyEnqueue x).1 := by
  have hx : ((n.modProc x f).proc x).Sendable := by
    rw [modProc_same]
    have hl := hf (n.proc x)
    simp only [Proc.load, Prod.mk.injEq] at hl
    exact ⟨by rw [hl.1, hcase], by rw [hl.1, hl.2, hside]⟩
  have hload : Feeds n (n.modProc x f) := by
    refine ⟨fun _ _ => .inl, fun q hq => ?_, fun q => ?_⟩
    · by_cases h : q = x
      · exact h ▸ hx
      · rw [modProc_of_ne _ _ h]
        exact hq
    · by_cases h : q = x
      · subst h
        rw [modProc_same]
        exact congrArg Prod.snd (hf (n.proc q))
      · rw [modProc_of_ne _ _ h]
  exact hload.trans (feeds_sproxyEnqueue hx)

theorem feeds_genericAck (hcase : ack.hasCase = true) (hby : ack.byRemote = true)
    (hx : (n.proc x).rts.remote = true) (lcl code : ℤ) :
    Feeds n (n.genericAckLcl2rmt ack x lcl code).1 := by
  refine feeds_ask hcase (hx.trans hby.symm) ?_
  exact fun _ => rfl

theorem feeds_errorLcl2rmt (hcase : ack.hasCase = true) (hby : ack.byRemote = true)
    (hx : (n.proc x).rts.remote = true) (h : Hdr) (code : ℤ) :
    Feeds n (n.errorLcl2rmt ack x h code).1 := by
  refine feeds_ask hcase (hx.trans hby.symm) ?_
  exact fun _ => rfl

end Basic

/-! ### Calls, copies and commands -/

section Edits

variable {a : Actor} {A : Set (ℤ × Kind)} {n n' : Node} {op : Op}

theorem Edits.feeds (h : Edits a A n n') (hside : ∀ x ∈ a.who, (n.proc x).rts.remote = a.remote)
    (hsig : a.copier = true → ∀ x ∈ a.who, (n.proc x).rts.signaled = false) :
    Feeds n n' ∧ ∀ q, (n'.proc q).rts.signaled = (n.proc q).rts.signaled := by
  have hmod : ∀ {m : Node} {f : Proc → Proc} (i : ℤ),
      (∀ p, (f p).load = p.load ∧ (f p).rts.signaled = p.rts.signaled) →
      Feeds m (m.modProc i f) ∧
        ∀ q, ((m.modProc i f).proc q).rts.signaled = (m.proc q).rts.signaled := fun {m f} i hf =>
    ⟨feeds_modProc i m fun p => (hf p).1,
      fun q => modProc_field i q (·.rts.signaled) fun p => (hf p).2⟩
  have htrans : ∀ {n m n' : Node},
      (Feeds n m ∧ ∀ q, (m.proc q).rts.signaled = (n.proc q).rts.signaled) →
      (Feeds m n' ∧ ∀ q, (n'.proc q).rts.signaled = (m.proc q).rts.signaled) →
      Feeds n n' ∧ ∀ q, (n'.proc q).rts.signaled = (n.proc q).rts.signaled := fun h h' =>
    ⟨h.1.trans h'.1, fun q => (h'.2 q).trans (h.2 q)⟩
  induction h with
  | refl n => exact ⟨.refl n, fun _ => rfl⟩
  | mod _ i hf _ ih => exact htrans (ih hside hsig) (hmod i fun p => Proc.calm_of_outer (hf p))
  | @around A n m v i k f g _ hf hg _ _ _ _ _ ih ihv =>
    have hm := htrans (ih hside hsig) (hmod i fun p => Proc.calm_of_outer (hf p))
    refine htrans (htrans hm (ihv (fun x hx => ?_) fun ha x hx => ?_))
      (hmod i fun p => Proc.calm_of_outer (hg p))
    · exact (hm.1.side x).trans (hside x hx)
    · exact (hm.2 x).trans (hsig ha x hx)
  | unlink _ x ih => exact htrans (ih hside hsig) ⟨feeds_unlink x _, fun _ => rfl⟩
  | link _ _ d ih => exact htrans (ih hside hsig) (hmod d fun _ => ⟨by rfl, by rfl⟩)
  | @ask A n m x cmd f _ hx hcase hf ih =>
    have hm := ih hside hsig
    have hby : (m.proc x).rts.remote = cmd.byRemote := by
      rcases hx with ⟨hx, hby⟩ | ⟨hr, hby⟩
      · rw [hm.1.side, hside x hx, hby]
      · rw [hr, hby]
    refine htrans hm ⟨feeds_ask hcase hby fun p => (Proc.calm_of_outer (hf p)).1, fun q => ?_⟩
    rw [sproxyEnqueue_field (·.rts.signaled) fun _ _ => rfl]
    exact modProc_field x q (·.rts.signaled) fun p => (Proc.calm_of_outer (hf p)).2.trans rfl
  | wait _ _ _ d hf ih =>
    refine htrans (htrans (ih hside hsig) (hmod _ fun p => ?_)) (hmod d fun _ => ⟨by rfl, by rfl⟩)
    obtain ⟨hl, hs⟩ := Proc.calm_of_outer (hf p)
    exact ⟨hl, hs⟩
  | init _ ha hx hs _ ih =>
    simp [(ih hside hsig).2, hsig ha _ hx] at hs

theorem Part.feeds {q : ℤ} {r : Node × Next} (h : Part q op A n r)
    (hq : (n.proc q).rts.remote = false) : Feeds n r.1 := by
  have hfeeds : ∀ {m : Node}, Edits (.call q) A n m → Feeds n m := fun h =>
    (h.feeds (fun x hx => hx ▸ hq) nofun).1
  cases h with
  | done h | sleeps h => exact hfeeds h
  | waits h =>
    dsimp only
    exact ((hfeeds h).modProc q fun _ => by rfl).modProc _ fun _ => by rfl

variable {c timeout cp : ℤ} {r : Node × Next}

theorem feeds_call {msg : Message} (hc : (n.proc c).rts.remote = false)
    (h : n.call c op msg timeout cp = some r) : Feeds n r.1 := (part_call h).feeds hc

theorem feeds_wake {wait : Wait} {w : ℤ} (hc : (n.proc c).rts.remote = false)
    (h : n.wake c op wait timeout w cp = some r) : Feeds n r.1 := by
  rcases part_wake h with ⟨m, hm, rfl⟩ | hp
  · exact (hm.feeds (fun x hx => hx ▸ hc) nofun).1
  · exact hp.feeds hc

theorem Edits.feeds_copy (h : Edits (.copy c) A n n') (hc : (n.proc c).rts.remote = false)
    (hsig : (n.proc c).rts.signaled = false) : Feeds n n' :=
  (h.feeds (fun _ hx => hx ▸ hc) fun _ _ hx => hx ▸ hsig).1

/-- The source of the command is a remote process, and so is the requester of a copy between two
other nodes. -/
structure FromRemote (n : Node) (h : Hdr) : Prop where
  src : (n.proc (endpointP h.src)).rts.remote = true
  rqtr : h.cmd = .copyinRqst → (n.proc (endpointP h.vcopy.rqtr)).rts.remote = true

theorem feeds_put2lcl {h : Hdr} {pay : Mem} {px : ℤ} {r : Node × ℤ} (hf : FromRemote n h)
    (heq : n.put2lcl px h pay cp = some r) : Feeds n r.1 := by
  refine ((edits_put2lcl heq).feeds ?_ nofun).1
  rintro x (rfl | ⟨hcmd, rfl⟩)
  · exact hf.src
  · exact hf.rqtr hcmd

end Edits

end Node

end MolIpc
