import MolIpc.Ipc.Migrate

/-!
The loops of `mm_migrate` over the waiters and the senders of a process, and what becomes of the
senders of a process that leaves the node.
-/

namespace MolIpc

open Sections

@[simp] theorem Proc.replay_waitmigr (p : Proc) : p.replay.waitmigr = p.waitmigr := by
  simp [Proc.replay]

theorem Proc.upIfReady_woken (p : Proc) (code : ℤ) :
    ((p.upIfReady code).rcode = code ∧ p.pseudosem < (p.upIfReady code).pseudosem) ↔
      p.rts = Rts.running := by
  unfold upIfReady
  split
  · rename_i h
    exact iff_of_true ⟨rfl, Int.lt_succ _⟩ h
  · rename_i h
    exact iff_of_false (fun h' => Int.lt_irrefl _ h'.2) h

theorem Proc.upIfReady_endWaitmigr_woken (p : Proc) :
    ((p.upIfReady EMol.migrate).endWaitmigr.rcode = EMol.migrate ∧
        p.pseudosem < (p.upIfReady EMol.migrate).endWaitmigr.pseudosem) ↔
      { p.rts with waitmigr := false } = Rts.running := by
  by_cases h : p.rts = Rts.running
  · have hw : { p.rts with waitmigr := false } = Rts.running := by rw [h]; rfl
    have hup : p.upIfReady EMol.migrate = p.up EMol.migrate := if_pos h
    rw [hup]
    have h2 := (upIfReady_woken { p.up EMol.migrate with
      rts := { p.rts with waitmigr := false }, waitmigr := noneEp } EMol.migrate).2 hw
    exact iff_of_true ⟨h2.1, Int.lt_trans (Int.lt_succ p.pseudosem) h2.2⟩ hw
  · have hup : p.upIfReady EMol.migrate = p := if_neg h
    rw [hup]
    exact upIfReady_woken _ _

theorem Cmd.orAck_eq_sendAck {cmd : Cmd} (h : cmd.isAck = false) :
    cmd.orAck = .sendAck ↔ cmd = .sendMsg := by
  cases cmd with
  | bad ack => exact iff_of_false nofun nofun
  | _ => revert h; decide

def Proc.priv (p : Proc) : ℤ × (ℕ → Bool) × ℤ × ℤ × ℤ :=
  (p.sId, p.notifyPending, p.intPending, p.sigPending, p.updtPending)

@[simp] theorem Proc.upIfReady_priv (p : Proc) (code : ℤ) : (p.upIfReady code).priv = p.priv := by
  unfold Proc.upIfReady
  split <;> rfl

@[simp] theorem Proc.upIfReady_standing (p : Proc) (code : ℤ) :
    (p.upIfReady code).standing = p.standing := by
  unfold Proc.upIfReady
  split <;> rfl

namespace Node

variable {p q r : Proc} {f : Proc → Proc}

/-! ### What the flushes leave alone -/

/-- A descriptor after a turn of somebody: no mark and no wait is new, and nothing is linked. -/
structure CalmDesc (p p' : Proc) : Prop where
  waits : p'.rts.waitmigr = true → p.rts.waitmigr = true ∧ p'.waitmigr = p.waitmigr
  marked : p'.rts.migrate = true → p.rts.migrate = true
  asked : p'.misc.needmigr = true → p.misc.needmigr = true
  remote : p.rts.remote = true → p'.rts.remote = true
  list : p'.list ⊆ p.list
  mlist : p'.mlist ⊆ p.mlist
  endpoint : p'.endpoint = p.endpoint

def Calm (n n' : Node) : Prop := ∀ q, CalmDesc (n.proc q) (n'.proc q)

section Calm

variable {n n' n'' : Node}

theorem CalmDesc.refl (p : Proc) : CalmDesc p p :=
  ⟨fun h => ⟨h, rfl⟩, id, id, id, List.Subset.refl _, List.Subset.refl _, rfl⟩

theorem CalmDesc.trans (h : CalmDesc p q) (h' : CalmDesc q r) : CalmDesc p r where
  waits := fun hr => ⟨(h.waits (h'.waits hr).1).1, (h'.waits hr).2.trans (h.waits (h'.waits hr).1).2⟩
  marked := h.marked ∘ h'.marked
  asked := h.asked ∘ h'.asked
  remote := h'.remote ∘ h.remote
  list := List.Subset.trans h'.list h.list
  mlist := List.Subset.trans h'.mlist h.mlist
  endpoint := h'.endpoint.trans h.endpoint

theorem Calm.refl (n : Node) : Calm n n := fun _ => .refl _

theorem Calm.trans (h : Calm n n') (h' : Calm n' n'') : Calm n n'' := fun q => (h q).trans (h' q)

theorem calm_modProc (hf : ∀ p, CalmDesc p (f p)) (i : ℤ) (n : Node) : Calm n (n.modProc i f) := by
  intro q
  by_cases hq : q = i
  · rw [hq, modProc_same]
    exact hf _
  · rw [modProc_of_ne _ _ hq]
    exact .refl _

theorem calmDesc_upIfReady (p : Proc) (code : ℤ) : CalmDesc p (p.upIfReady code) := by
  unfold Proc.upIfReady
  split
  · exact ⟨fun h => ⟨h, rfl⟩, id, id, id, List.Subset.refl _, List.Subset.refl _, rfl⟩
  · exact .refl p

theorem calmDesc_unmark (p : Proc) : CalmDesc p p.unmark :=
  ⟨fun h => ⟨h, rfl⟩, nofun, nofun, id, List.Subset.refl _, List.Subset.refl _, rfl⟩

theorem calmDesc_endWaitmigr (p : Proc) : CalmDesc p p.endWaitmigr := by
  refine CalmDesc.trans ?_ (calmDesc_upIfReady _ _)
  exact ⟨(fun h => by cases h), id, id, id, List.Subset.refl _, List.Subset.refl _, rfl⟩

theorem calmDesc_replay (p : Proc) : CalmDesc p p.replay := by
  refine CalmDesc.trans ?_ (calmDesc_upIfReady _ _)
  exact ⟨fun h => ⟨h, rfl⟩, id, id, id, List.Subset.refl _, List.Subset.refl _, rfl⟩

theorem calm_sproxyEnqueue (x : ℤ) (n : Node) : Calm n (n.sproxyEnqueue x).1 := by
  unfold sproxyEnqueue
  dsimp only
  split
  · exact .refl n
  · show Calm n (n.modProc x fun p => { p with proxy := n.conf.nProxies (n.proc x).rmtcmd.dnode })
    refine calm_modProc ?_ x n
    exact fun _ => ⟨fun h => ⟨h, rfl⟩, id, id, id, List.Subset.refl _, List.Subset.refl _, rfl⟩

/-- What the flushes of the queues and a rollback leave of every process. -/
structure Stirs (n n' : Node) : Prop where
  conf : n'.conf = n.conf
  calm : Calm n n'
  priv (q : ℤ) : (n'.proc q).priv = (n.proc q).priv
  standing (q : ℤ) : (n'.proc q).standing = (n.proc q).standing

theorem Stirs.refl (n : Node) : Stirs n n := ⟨rfl, .refl n, fun _ => rfl, fun _ => rfl⟩

theorem Stirs.trans (h : Stirs n n') (h' : Stirs n' n'') : Stirs n n'' where
  conf := h'.conf.trans h.conf
  calm := h.calm.trans h'.calm
  priv q := (h'.priv q).trans (h.priv q)
  standing q := (h'.standing q).trans (h.standing q)

theorem stirs_modProc (i : ℤ) (n : Node) (hc : ∀ p, CalmDesc p (f p))
    (hp : ∀ p, (f p).priv = p.priv) (hs : ∀ p, (f p).standing = p.standing) :
    Stirs n (n.modProc i f) :=
  ⟨rfl, calm_modProc hc i n, fun q => modProc_field i q Proc.priv hp,
    fun q => modProc_field i q Proc.standing hs⟩

theorem stirs_upIfReady (i code : ℤ) (n : Node) : Stirs n (n.modProc i (·.upIfReady code)) :=
  stirs_modProc i n (calmDesc_upIfReady · code) (Proc.upIfReady_priv · code)
    (Proc.upIfReady_standing · code)

theorem stirs_errorLcl2rmt (ack : Cmd) (x : ℤ) (h : Hdr) (code : ℤ) (n : Node) :
    Stirs n (n.errorLcl2rmt ack x h code).1 := by
  refine Stirs.trans (stirs_modProc x n (fun _ => ?_) (fun _ => ?_) fun _ => ?_)
    ⟨sproxyEnqueue_conf _ x, calm_sproxyEnqueue x _,
      fun q => sproxyEnqueue_field Proc.priv (fun _ _ => rfl) q,
      fun q => sproxyEnqueue_field Proc.standing (fun _ _ => rfl) q⟩
  · exact ⟨fun h => ⟨h, rfl⟩, id, id, id, List.Subset.refl _, List.Subset.refl _, rfl⟩
  · rfl
  · rfl

theorem stirs_flushMigr (i x : ℤ) (n : Node) : Stirs n (n.flushMigr i x) := by
  have hunlink : Stirs n (n.unlinkM x) := ⟨rfl, fun _ => ⟨fun h => ⟨h, rfl⟩, id, id, id,
    List.Subset.refl _, List.filter_subset_self _, rfl⟩, fun _ => rfl, fun _ => rfl⟩
  refine hunlink.trans ?_
  unfold flushMigr
  dsimp only
  split
  · exact stirs_modProc x _ calmDesc_endWaitmigr (fun _ => Proc.upIfReady_priv _ _)
      fun _ => Proc.upIfReady_standing _ _
  · exact .refl _

theorem stirs_flushSender (x : ℤ) (n : Node) : Stirs n (n.flushSender x) := by
  have hunlink : Stirs n (n.unlink x) := ⟨rfl, fun _ => ⟨fun h => ⟨h, rfl⟩, id, id, id,
    List.filter_subset_self _, List.Subset.refl _, rfl⟩, fun _ => rfl, fun _ => rfl⟩
  refine hunlink.trans ?_
  unfold flushSender
  dsimp only
  split
  · exact stirs_modProc x _ calmDesc_replay (fun _ => Proc.upIfReady_priv _ _)
      fun _ => Proc.upIfReady_standing _ _
  · split
    · exact .refl _
    · exact stirs_errorLcl2rmt _ x _ _ _

theorem stirs_flushMigrList (i : ℤ) (n : Node) : Stirs n (n.flushMigrList i) :=
  foldl_related (R := Stirs) .refl .trans (fun x _ n => stirs_flushMigr i x n) n

theorem stirs_flushSendingList (i : ℤ) (n : Node) : Stirs n (n.flushSendingList i) :=
  foldl_related (R := Stirs) .refl .trans (fun x _ n => stirs_flushSender x n) n

theorem stirs_rollbackThread (t : ℤ) (n : Node) : Stirs n (n.rollbackThread t) := by
  have hmark : Stirs n (n.modProc t Proc.unmark) :=
    stirs_modProc t n calmDesc_unmark (fun _ => rfl) fun _ => rfl
  exact (hmark.trans (stirs_flushMigrList t _)).trans (stirs_upIfReady t _ _)

end Calm

/-! ### One turn -/

def FreeAlone (n : Node) : Prop :=
  ∀ px, (n.sproxy px).rts.slotFree = true → (n.sproxy px).rts = Rts.onlyFree

def SameDesc (p q : Proc) : Prop := ∃ l m, q = { p with list := l, mlist := m }

/-- What the turns of the other processes keep about the descriptor `x`. -/
structure KeptFor (x : ℤ) (n n' : Node) : Prop where
  conf : n'.conf = n.conf
  desc : SameDesc (n.proc x) (n'.proc x)
  count : ∀ px, (n'.sproxy px).list.count x = (n.sproxy px).list.count x
  free : ∀ px, (n'.sproxy px).rts.slotFree = (n.sproxy px).rts.slotFree
  alone : n.FreeAlone → n'.FreeAlone
  endpoint : ∀ q, (n'.proc q).endpoint = (n.proc q).endpoint

section Turns

variable {n : Node} {i x y : ℤ} {α : Type*}

theorem SameDesc.refl (p : Proc) : SameDesc p p := ⟨_, _, rfl⟩

section

variable (h : SameDesc p q)

include h

theorem SameDesc.trans (h' : SameDesc q r) : SameDesc p r := by
  obtain ⟨l, m, rfl⟩ := h
  obtain ⟨l', m', rfl⟩ := h'
  exact ⟨l', m', rfl⟩

theorem SameDesc.endWaitmigr : SameDesc p.endWaitmigr q.endWaitmigr := by
  obtain ⟨l, m, rfl⟩ := h
  refine ⟨l, m, ?_⟩
  unfold Proc.endWaitmigr Proc.upIfReady
  split <;> rfl

theorem SameDesc.replay : SameDesc p.replay q.replay := by
  obtain ⟨l, m, rfl⟩ := h
  refine ⟨l, m, ?_⟩
  unfold Proc.replay Proc.upIfReady
  split <;> rfl

theorem SameDesc.rts : q.rts = p.rts := by
  obtain ⟨l, m, rfl⟩ := h
  rfl

theorem SameDesc.waitmigr : q.waitmigr = p.waitmigr := by
  obtain ⟨l, m, rfl⟩ := h
  rfl

theorem SameDesc.rmtcmd : q.rmtcmd = p.rmtcmd := by
  obtain ⟨l, m, rfl⟩ := h
  rfl

theorem SameDesc.nodeid : q.nodeid = p.nodeid := by
  obtain ⟨l, m, rfl⟩ := h
  rfl

theorem SameDesc.endpoint : q.endpoint = p.endpoint := by
  obtain ⟨l, m, rfl⟩ := h
  rfl

end

theorem FreeAlone.iff (h : n.FreeAlone) (px : ℤ) :
    (n.sproxy px).rts.slotFree = true ↔ (n.sproxy px).rts = Rts.onlyFree :=
  ⟨h px, fun h => by rw [h]; rfl⟩

theorem KeptFor.refl (x : ℤ) (n : Node) : KeptFor x n n :=
  ⟨rfl, .refl _, fun _ => rfl, fun _ => rfl, id, fun _ => rfl⟩

theorem KeptFor.trans {n' n'' : Node} (h : KeptFor x n n') (h' : KeptFor x n' n'') :
    KeptFor x n n'' where
  conf := h'.conf.trans h.conf
  desc := h.desc.trans h'.desc
  count := fun px => (h'.count px).trans (h.count px)
  free := fun px => (h'.free px).trans (h.free px)
  alone := h'.alone ∘ h.alone
  endpoint := fun q => (h'.endpoint q).trans (h.endpoint q)

theorem keptFor_modProc (hxy : x ≠ y) (hf : ∀ p, (f p).endpoint = p.endpoint) :
    KeptFor x n (n.modProc y f) where
  conf := rfl
  desc := ⟨_, _, modProc_of_ne _ _ hxy⟩
  count := fun _ => rfl
  free := fun _ => rfl
  alone := id
  endpoint := fun q => modProc_endpoint y q hf

theorem keptFor_unlinkM (y : ℤ) : KeptFor x n (n.unlinkM y) :=
  ⟨rfl, ⟨_, _, rfl⟩, fun _ => rfl, fun _ => rfl, id, fun _ => rfl⟩

theorem keptFor_unlink (hxy : x ≠ y) : KeptFor x n (n.unlink y) where
  conf := rfl
  desc := ⟨_, _, rfl⟩
  count := fun _ => List.count_filter (decide_eq_true hxy)
  free := fun _ => rfl
  alone := id
  endpoint := fun _ => rfl

theorem keptFor_enqueueCaller (hxy : x ≠ y) {px : ℤ} (hpx : (n.sproxy px).rts ≠ Rts.onlyFree) :
    KeptFor x n (n.modSproxy px fun sp => sp.enqueueCaller y) where
  conf := rfl
  desc := ⟨_, _, rfl⟩
  count := fun q => by
    by_cases h : q = px
    · rw [h, modSproxy_same, Proc.enqueueCaller_list, List.count_append,
        List.count_eq_zero.2 fun hx => hxy (List.mem_singleton.1 hx), Nat.add_zero]
    · rw [modSproxy_of_ne _ _ h]
  free := fun q => by
    by_cases h : q = px
    · rw [h, modSproxy_same, Proc.enqueueCaller_slotFree]
    · rw [modSproxy_of_ne _ _ h]
  alone := fun ha q hq => by
    by_cases h : q = px
    · rw [h, modSproxy_same, Proc.enqueueCaller_slotFree] at hq
      exact absurd (ha px hq) hpx
    · rw [modSproxy_of_ne _ _ h] at hq ⊢
      exact ha q hq
  endpoint := fun _ => rfl

theorem keptFor_sproxyEnqueue (hxy : x ≠ y) : KeptFor x n (n.sproxyEnqueue y).1 := by
  unfold sproxyEnqueue
  dsimp only
  split
  · exact .refl x n
  · rename_i h
    exact (keptFor_modProc hxy fun _ => by rfl).trans (keptFor_enqueueCaller hxy h)

theorem keptFor_flushSender (hxy : x ≠ y) : KeptFor x n (n.flushSender y) := by
  refine (keptFor_unlink hxy).trans ?_
  unfold flushSender
  dsimp only
  split
  · exact keptFor_modProc hxy fun _ => by simp [Proc.replay]
  · split
    · exact .refl x _
    · exact (keptFor_modProc hxy fun _ => by rfl).trans (keptFor_sproxyEnqueue hxy)

theorem keptFor_flushMigr (hxy : x ≠ y) : KeptFor x n (n.flushMigr i y) := by
  refine (keptFor_unlinkM y).trans ?_
  unfold flushMigr
  dsimp only
  split
  · exact keptFor_modProc hxy fun _ => by simp [Proc.endWaitmigr]
  · exact .refl x _

theorem flushSender_field (g : Proc → α) (hr : ∀ p, g p.replay = g p)
    (hc : ∀ p rts cmd, g { p with rts := rts, rmtcmd := cmd } = g p)
    (hp : ∀ p px, g { p with proxy := px } = g p) (x q : ℤ) :
    g ((n.flushSender x).proc q) = g ((n.unlink x).proc q) := by
  unfold flushSender
  dsimp only
  split
  · exact modProc_field x q g hr
  · split
    · rfl
    · exact (sproxyEnqueue_field g hp q).trans (modProc_field x q g fun _ => hc _ _ _)

theorem flushSender_list (x q : ℤ) :
    ((n.flushSender x).proc q).list = (n.proc q).list.filter (· ≠ x) :=
  flushSender_field Proc.list (fun _ => by simp [Proc.replay]) (fun _ _ _ => rfl) (fun _ _ => rfl)
    x q

theorem flushSender_mlist (x q : ℤ) : ((n.flushSender x).proc q).mlist = (n.proc q).mlist :=
  flushSender_field Proc.mlist (fun _ => by simp [Proc.replay]) (fun _ _ _ => rfl) (fun _ _ => rfl)
    x q

theorem flushMigr_field (g : Proc → α) (hg : ∀ p, g p.endWaitmigr = g p) (x q : ℤ) :
    g ((n.flushMigr i x).proc q) = g ((n.unlinkM x).proc q) := by
  unfold flushMigr
  dsimp only
  split
  · exact modProc_field x q g hg
  · rfl

theorem flushMigr_mlist (x q : ℤ) :
    ((n.flushMigr i x).proc q).mlist = (n.proc q).mlist.filter (· ≠ x) :=
  flushMigr_field Proc.mlist (fun _ => by simp [Proc.endWaitmigr]) x q

theorem flushMigr_list (x q : ℤ) : ((n.flushMigr i x).proc q).list = (n.proc q).list :=
  flushMigr_field Proc.list (fun _ => by simp [Proc.endWaitmigr]) x q

theorem flushSendingList_list (i : ℤ) (n : Node) : ((n.flushSendingList i).proc i).list = [] :=
  foldl_eq_nil (fun n : Node => (n.proc i).list) (fun x _ => flushSender_list x i) n

theorem flushMigrList_mlist (i : ℤ) (n : Node) : ((n.flushMigrList i).proc i).mlist = [] :=
  foldl_eq_nil (fun n : Node => (n.proc i).mlist) (fun x _ => flushMigr_mlist x i) n

theorem flushMigr_self (x : ℤ) :
    SameDesc (if (n.proc x).waitmigr = (n.proc i).endpoint then (n.proc x).endWaitmigr
      else n.proc x) ((n.flushMigr i x).proc x) := by
  have hm : SameDesc (n.proc x) ((n.unlinkM x).proc x) := ⟨_, _, rfl⟩
  unfold flushMigr
  by_cases hw : (n.proc x).waitmigr = (n.proc i).endpoint
  · rw [if_pos hw,
      if_pos (show ((n.unlinkM x).proc x).waitmigr = ((n.unlinkM x).proc i).endpoint from hw),
      modProc_same]
    exact hm.endWaitmigr
  · rw [if_neg hw,
      if_neg (show ¬ ((n.unlinkM x).proc x).waitmigr = ((n.unlinkM x).proc i).endpoint from hw)]
    exact hm

theorem flushSender_self_local (hx : (n.proc x).rts.remote = false) :
    SameDesc (n.proc x).replay ((n.flushSender x).proc x) := by
  have hm : SameDesc (n.proc x) ((n.unlink x).proc x) := ⟨_, _, rfl⟩
  have hl : ((n.unlink x).proc x).rts.remote = false := hx
  unfold flushSender
  rw [if_pos (by rw [hl]; decide), modProc_same]
  exact hm.replay

theorem count_unlink (x px : ℤ) : ((n.unlink x).sproxy px).list.count x = 0 :=
  List.count_eq_zero.2 fun h => of_decide_eq_true (List.mem_filter.1 h).2 rfl

theorem flushSender_self_ack (hx : (n.proc x).rts.remote = true)
    (ha : (n.proc x).rmtcmd.cmd.isAck = true) (px : ℤ) :
    ((n.flushSender x).sproxy px).list.count x = 0 := by
  have hr : ((n.unlink x).proc x).rts.remote = true := hx
  have hc : ((n.unlink x).proc x).rmtcmd.cmd.isAck = true := ha
  unfold flushSender
  rw [if_neg (not_not_intro hr), if_pos hc]
  exact count_unlink x px

theorem flushSender_self_cmd (hx : (n.proc x).rts.remote = true)
    (ha : (n.proc x).rmtcmd.cmd.isAck = false) :
    ((n.flushSender x).proc x).rmtcmd =
        { (n.proc x).rmtcmd with
          cmd := (n.proc x).rmtcmd.cmd.orAck, src := (n.proc x).rmtcmd.dst
          dst := (n.proc x).endpoint, snode := n.conf.localNodeid, dnode := (n.proc x).nodeid
          len := 0, rcode := EMol.migrate } ∧
      ∀ px, ((n.flushSender x).sproxy px).list.count x =
        if px = n.conf.nProxies (n.proc x).nodeid ∧ (n.sproxy px).rts ≠ Rts.onlyFree then 1
        else 0 := by
  have hr : ((n.unlink x).proc x).rts.remote = true := hx
  have hc : ¬ ((n.unlink x).proc x).rmtcmd.cmd.isAck = true := by
    rw [show ((n.unlink x).proc x).rmtcmd = (n.proc x).rmtcmd from rfl, ha]
    decide
  unfold flushSender
  rw [if_neg (not_not_intro hr), if_neg hc]
  unfold errorLcl2rmt
  constructor
  · rw [sproxyEnqueue_field Proc.rmtcmd (fun _ _ => rfl), modProc_same]
    rfl
  · intro px
    generalize hm : ((n.unlink x).modProc x _) = m
    have hd : (m.proc x).rmtcmd.dnode = (n.proc x).nodeid := by
      rw [← hm, modProc_same]
      rfl
    have hq : m.conf.nProxies = n.conf.nProxies := by rw [← hm]; rfl
    have hs : m.sproxy = (n.unlink x).sproxy := by rw [← hm]; rfl
    by_cases hf : (m.sproxy (m.conf.nProxies (m.proc x).rmtcmd.dnode)).rts = Rts.onlyFree
    · rw [sproxyEnqueue_of_free _ _ hf, hs, count_unlink, if_neg]
      rintro ⟨rfl, h⟩
      rw [hd, hq, hs] at hf
      exact h hf
    · rw [sproxyEnqueue_list hf]
      rw [hd, hq, hs] at *
      split
      · rename_i h
        rw [List.count_append, count_unlink, if_pos ⟨h, h ▸ hf⟩]
        simp
      · rename_i h
        rw [count_unlink, if_neg fun h' => h h'.1]

end Turns

/-! ### The loops -/

section Loops

variable {n : Node} {i x : ℤ}

theorem keptFor_flushMigrList (hx : x ∉ (n.proc i).mlist) : KeptFor x n (n.flushMigrList i) :=
  foldl_related (R := KeptFor x) (.refl x) .trans
    (fun _ hy _ => keptFor_flushMigr fun h => hx (h ▸ hy)) n

theorem keptFor_flushSendingList (hx : x ∉ (n.proc i).list) : KeptFor x n (n.flushSendingList i) :=
  foldl_related (R := KeptFor x) (.refl x) .trans
    (fun _ hy _ => keptFor_flushSender fun h => hx (h ▸ hy)) n

theorem exists_turn_flushMigrList (hx : x ∈ (n.proc i).mlist) (hl : (n.proc i).mlist.Nodup) :
    ∃ m, KeptFor x n m ∧ KeptFor x (m.flushMigr i x) (n.flushMigrList i) :=
  exists_turn (R := KeptFor x) (.refl x) .trans hx hl (fun _ _ hne _ => keptFor_flushMigr hne.symm) n

theorem exists_turn_flushSendingList (hx : x ∈ (n.proc i).list) (hl : (n.proc i).list.Nodup) :
    ∃ m, KeptFor x n m ∧ KeptFor x (m.flushSender x) (n.flushSendingList i) :=
  exists_turn (R := KeptFor x) (.refl x) .trans hx hl (fun _ _ hne _ => keptFor_flushSender hne.symm) n

theorem flushMigrList_desc (hl : (n.proc i).mlist.Nodup) (x : ℤ) :
    SameDesc
      (if x ∈ (n.proc i).mlist ∧ (n.proc x).waitmigr = (n.proc i).endpoint then
        (n.proc x).endWaitmigr else n.proc x)
      ((n.flushMigrList i).proc x) := by
  by_cases hx : x ∈ (n.proc i).mlist
  · obtain ⟨m, hm, ht⟩ := exists_turn_flushMigrList hx hl
    refine SameDesc.trans ?_ ht.desc
    refine SameDesc.trans ?_ (flushMigr_self x)
    obtain ⟨l, l', hd⟩ := hm.desc
    have hw : (m.proc x).waitmigr = (n.proc x).waitmigr := by rw [hd]
    rw [hw, hm.endpoint]
    simp only [hx, true_and]
    split
    · exact hm.desc.endWaitmigr
    · exact hm.desc
  · rw [if_neg fun h => hx h.1]
    exact (keptFor_flushMigrList hx).desc

theorem flushMigrList_sproxy (i : ℤ) (n : Node) : (n.flushMigrList i).sproxy = n.sproxy := by
  refine foldl_related (R := fun n n' : Node => n'.sproxy = n.sproxy) (fun _ => rfl)
    (fun h h' => h'.trans h) (fun x _ n => ?_) n
  unfold flushMigr
  dsimp only
  split <;> rfl

theorem flushMigrList_list (i q : ℤ) (n : Node) :
    ((n.flushMigrList i).proc q).list = (n.proc q).list :=
  foldl_related (R := fun n n' : Node => (n'.proc q).list = (n.proc q).list) (fun _ => rfl)
    (fun h h' => h'.trans h) (fun x _ _ => flushMigr_list x q) n

theorem flushMigrList_rmtcmd (i q : ℤ) (n : Node) :
    ((n.flushMigrList i).proc q).rmtcmd = (n.proc q).rmtcmd :=
  foldl_related (R := fun n n' : Node => (n'.proc q).rmtcmd = (n.proc q).rmtcmd) (fun _ => rfl)
    (fun h h' => h'.trans h)
    (fun x _ _ => flushMigr_field Proc.rmtcmd (fun _ => by simp [Proc.endWaitmigr]) x q) n

theorem flushSendingList_mlist (i q : ℤ) (n : Node) :
    ((n.flushSendingList i).proc q).mlist = (n.proc q).mlist :=
  foldl_related (R := fun n n' : Node => (n'.proc q).mlist = (n.proc q).mlist) (fun _ => rfl)
    (fun h h' => h'.trans h) (fun x _ _ => flushSender_mlist x q) n

end Loops

/-! ### The senders of a process that leaves -/

/-- Each local sender is woken up to replay, and each remote one gets one acknowledge, of the type
that `mm_put2lcl` takes. -/
structure Replayed (n n' : Node) (i : ℤ) : Prop where
  removed : (n'.proc i).list = []
  woken : ∀ x ∈ (n.proc i).list, (n.proc x).rts.remote = false →
    (n'.proc x).rcode = EMol.migrate ∧ (n.proc x).pseudosem < (n'.proc x).pseudosem
  acked : ∀ x ∈ (n.proc i).list, (n.proc x).rts.remote = true →
    (n'.proc x).rmtcmd.cmd = .sendAck ∧ (n'.proc x).rmtcmd.rcode = EMol.migrate ∧
      (n'.proc x).rmtcmd.dst = (n.proc x).endpoint ∧
      (n'.proc x).rmtcmd.dnode = (n.proc x).nodeid ∧
      ∀ px, (n'.sproxy px).list.count x = if px = n.conf.nProxies (n.proc x).nodeid then 1 else 0

structure Linked (n : Node) (i : ℤ) : Prop where
  list : (n.proc i).list.Nodup
  mlist : (n.proc i).mlist.Nodup
  self : i ∉ (n.proc i).list
  alone : n.FreeAlone

def restOf (n : Node) (i x : ℤ) : Rts :=
  let r := { (n.proc x).rts with sending := false, receiving := false }
  if x ∈ (n.proc i).mlist ∧ (n.proc x).waitmigr = (n.proc i).endpoint then
    { r with waitmigr := false }
  else r

/-- A local sender waits for nothing else, and the descriptor of a remote one has carried a
`CMD_SEND_MSG` last, to a node with a proxy. -/
def Tellable (n : Node) (i : ℤ) : Prop :=
  ∀ x ∈ (n.proc i).list,
    if (n.proc x).rts.remote then
      (n.proc x).rmtcmd.cmd = .sendMsg ∧
        (n.sproxy (n.conf.nProxies (n.proc x).nodeid)).rts ≠ Rts.onlyFree
    else n.restOf i x = Rts.running

section Leaving

variable {n : Node} {i x new : ℤ}

@[simp] theorem leave_list (p : Proc) (new : ℤ) : (p.leave new).list = p.list := by
  unfold Proc.leave
  dsimp only
  split <;> rfl

@[simp] theorem leave_mlist (p : Proc) (new : ℤ) : (p.leave new).mlist = p.mlist := by
  unfold Proc.leave
  dsimp only
  split <;> rfl

@[simp] theorem leave_endpoint (p : Proc) (new : ℤ) : (p.leave new).endpoint = p.endpoint := by
  unfold Proc.leave
  dsimp only
  split <;> rfl

theorem Linked.exists_turn (h : n.Linked i) (hx : x ∈ (n.proc i).list) (new : ℤ) :
    ∃ m, KeptFor x n m ∧
      KeptFor x (m.flushSender x) ((n.modProc i (·.leave new)).flushSendingList i) ∧
      (((n.modProc i (·.leave new)).flushSendingList i).proc i).endpoint = (n.proc i).endpoint ∧
      (((n.modProc i (·.leave new)).flushSendingList i).proc i).mlist = (n.proc i).mlist := by
  have hxi : x ≠ i := fun e => h.self (e ▸ hx)
  have hleave : KeptFor x n (n.modProc i (·.leave new)) :=
    keptFor_modProc hxi fun _ => leave_endpoint ..
  have hlist : ((n.modProc i (·.leave new)).proc i).list = (n.proc i).list := by simp
  obtain ⟨m, hm, ht⟩ := exists_turn_flushSendingList (hlist ▸ hx) (hlist ▸ h.list)
  refine ⟨m, hleave.trans hm, ht, ?_, ?_⟩
  · have he := keptFor_flushSendingList (n := n.modProc i (·.leave new)) (hlist ▸ h.self)
    rw [he.endpoint i, modProc_same, leave_endpoint]
  · rw [flushSendingList_mlist, modProc_same, leave_mlist]

theorem oldThread_list (new i : ℤ) (n : Node) : ((n.oldThread new i).proc i).list = [] := by
  unfold oldThread
  rw [flushMigrList_list, flushSendingList_list]

theorem oldThread_local (new : ℤ) (h : n.Linked i) (hx : x ∈ (n.proc i).list)
    (hr : (n.proc x).rts.remote = false) :
    SameDesc
      (if x ∈ (n.proc i).mlist ∧ (n.proc x).waitmigr = (n.proc i).endpoint then
        (n.proc x).replay.endWaitmigr else (n.proc x).replay)
      ((n.oldThread new i).proc x) := by
  obtain ⟨m, hm, ht, he, hml⟩ := h.exists_turn hx new
  have hrm : (m.proc x).rts.remote = false := by rw [hm.desc.rts, hr]
  have hd := (hm.desc.replay.trans (flushSender_self_local hrm)).trans ht.desc
  refine SameDesc.trans ?_ (flushMigrList_desc (by rw [hml]; exact h.mlist) x)
  rw [hml, he, hd.waitmigr, Proc.replay_waitmigr]
  split
  · exact hd.endWaitmigr
  · exact hd

theorem woken_iff (h : n.Linked i) (hx : x ∈ (n.proc i).list) (hr : (n.proc x).rts.remote = false) :
    (((n.oldThread new i).proc x).rcode = EMol.migrate ∧
        (n.proc x).pseudosem < ((n.oldThread new i).proc x).pseudosem) ↔
      n.restOf i x = Rts.running := by
  obtain ⟨l, m, hd⟩ := oldThread_local new h hx hr
  rw [hd]
  unfold restOf
  by_cases hw : x ∈ (n.proc i).mlist ∧ (n.proc x).waitmigr = (n.proc i).endpoint
  · rw [if_pos hw, if_pos hw]
    exact Proc.upIfReady_endWaitmigr_woken _
  · rw [if_neg hw, if_neg hw]
    exact Proc.upIfReady_woken _ _

theorem acked_iff (h : n.Linked i) (hx : x ∈ (n.proc i).list) (hr : (n.proc x).rts.remote = true) :
    (((n.oldThread new i).proc x).rmtcmd.cmd = .sendAck ∧
        ((n.oldThread new i).proc x).rmtcmd.rcode = EMol.migrate ∧
        ((n.oldThread new i).proc x).rmtcmd.dst = (n.proc x).endpoint ∧
        ((n.oldThread new i).proc x).rmtcmd.dnode = (n.proc x).nodeid ∧
        ∀ px, ((n.oldThread new i).sproxy px).list.count x =
          if px = n.conf.nProxies (n.proc x).nodeid then 1 else 0) ↔
      (n.proc x).rmtcmd.cmd = .sendMsg ∧
        (n.sproxy (n.conf.nProxies (n.proc x).nodeid)).rts ≠ Rts.onlyFree := by
  obtain ⟨m, hm, ht, -, hml⟩ := h.exists_turn hx new
  -- the command and the queues of the proxies are those after the turn of `x`
  have hcmd : ((n.oldThread new i).proc x).rmtcmd = ((m.flushSender x).proc x).rmtcmd := by
    refine (flushMigrList_rmtcmd i x _).trans ht.desc.rmtcmd
  have hcount : ∀ px, ((n.oldThread new i).sproxy px).list.count x =
      ((m.flushSender x).sproxy px).list.count x := by
    intro px
    unfold oldThread
    rw [flushMigrList_sproxy, ht.count]
  have hmr : (m.proc x).rts.remote = true := by rw [hm.desc.rts, hr]
  have hmc : (m.proc x).rmtcmd = (n.proc x).rmtcmd := hm.desc.rmtcmd
  have hfree : ∀ px, (m.sproxy px).rts = Rts.onlyFree ↔ (n.sproxy px).rts = Rts.onlyFree := by
    intro px
    rw [← (hm.alone h.alone).iff px, ← h.alone.iff px, hm.free]
  rw [hcmd]
  simp only [hcount]
  cases ha : (n.proc x).rmtcmd.cmd.isAck with
  | true =>
    refine iff_of_false (fun hl => ?_) fun hs => ?_
    · have h1 := hl.2.2.2.2 (n.conf.nProxies (n.proc x).nodeid)
      rw [flushSender_self_ack hmr (by rw [hmc, ha]), if_pos rfl] at h1
      cases h1
    · rw [hs.1] at ha
      cases ha
  | false =>
    obtain ⟨h1, h2⟩ := flushSender_self_cmd hmr (by rw [hmc, ha])
    rw [h1]
    simp only [h2, hm.desc.nodeid, hm.desc.endpoint, hm.conf, hmc, true_and]
    refine and_congr (Cmd.orAck_eq_sendAck ha) ⟨fun hq => ?_, fun hp px => ?_⟩
    · have h3 := hq (n.conf.nProxies (n.proc x).nodeid)
      intro hf
      rw [if_neg fun h' => h'.2 ((hfree _).2 hf), if_pos rfl] at h3
      cases h3
    · by_cases hpx : px = n.conf.nProxies (n.proc x).nodeid
      · rw [if_pos hpx, if_pos ⟨hpx, fun hf => hp (hpx ▸ (hfree px).1 hf)⟩]
      · rw [if_neg hpx, if_neg fun h' => hpx h'.1]

/-- **The senders of a process that leaves replay their operations** iff all can be told to. -/
theorem replayed_iff_tellable (h : n.Linked i) :
    Replayed n (n.oldThread new i) i ↔ n.Tellable i := by
  constructor
  · intro hr x hx
    split
    · rename_i hrem
      exact (acked_iff h hx hrem).1 (hr.acked x hx hrem)
    · rename_i hrem
      have hrem : (n.proc x).rts.remote = false := by simpa using hrem
      exact (woken_iff h hx hrem).1 (hr.woken x hx hrem)
  · intro ht
    refine ⟨oldThread_list new i n, fun x hx hrem => ?_, fun x hx hrem => ?_⟩
    · have htx := ht x hx
      rw [if_neg (by rw [hrem]; decide)] at htx
      exact (woken_iff h hx hrem).2 htx
    · have htx := ht x hx
      rw [if_pos hrem] at htx
      exact (acked_iff h hx hrem).2 htx

end Leaving

/-! ### A server that leaves -/

def leaving (cmd : Cmd) : Node where
  conf := Conf.sample 0
  proc := fun nr =>
    if nr = 5 then { Proc.sample 0 5 {} with misc := { needmigr := true, grpleader := true } }
    else if nr = 6 then { Proc.sample 0 6 {} with ubuf := { type := 3 } }
    else if nr = 7 then { Proc.sample 1 7 { remote := true } with rmtcmd := { cmd := cmd } }
    else { endpoint := nr }
  sproxy := Proc.sampleProxy
  rproxy := Proc.sampleProxy

def leavingAsked (cmd : Cmd) : Node :=
  ((((leaving cmd).sendLocal 6 5 timeoutForever 0).1.sendRmt2lcl
    { cmd := .sendMsg, src := 7, dst := 5, msg := { type := 4 } } 7 5 0).1).modProc 5 Proc.wakeMigr

theorem leavingAsked_linked (cmd : Cmd) : (leavingAsked cmd).Linked 5 where
  list := (by decide : [(6 : ℤ), 7].Nodup)
  mlist := (List.nodup_nil : ([] : List ℤ).Nodup)
  self := (by decide : (5 : ℤ) ∉ [(6 : ℤ), 7])
  alone := fun px h => by cases h

/-- The client of the other node was a process of this one, and has sent a message itself. -/
theorem leavingAsked_replayed :
    Replayed (leavingAsked .sendMsg) ((leavingAsked .sendMsg).oldThread 1 5) 5 := by
  refine (replayed_iff_tellable (leavingAsked_linked .sendMsg)).2 fun x hx => ?_
  have hx : x ∈ [(6 : ℤ), 7] := hx
  simp only [List.mem_cons, List.not_mem_nil, or_false] at hx
  rcases hx with rfl | rfl <;> decide

/-- The client of the other node gets an acknowledge that no node understands. -/
theorem leavingAsked_stranded :
    ((leavingAsked .none).migrate {} .commit 0 5 1).2 = EMol.ok ∧
      ((leavingAsked .none).proc 5).list = [6, 7] ∧
      (((leavingAsked .none).migrate {} .commit 0 5 1).1.proc 7).rmtcmd.cmd = .bad true ∧
      (((leavingAsked .none).migrate {} .commit 0 5 1).1.sproxy 1).list = [7] ∧
      ¬ Replayed (leavingAsked .none) ((leavingAsked .none).migrate {} .commit 0 5 1).1 5 := by
  refine ⟨by decide, by decide, by decide, by decide, fun h => ?_⟩
  have h7 := (h.acked 7 (by decide) (by decide)).1
  revert h7
  decide

end Node

end MolIpc
