import MolIpc.Ipc.Unbind

/-!
What `do_unbind` leaves of a process: its slot is free, nobody waits for it any more without
having been told, and no queue or map of the node mentions it.

When the process itself sends or waits for a migration or an unbinding, the function locks a
descriptor that has nothing to do with it, unless the DC has no tasks. Between the sections others
may do anything, except with the process and with those that wait for it.
-/

namespace MolIpc

open Sections

namespace Node

variable {ack : Cmd} {x : ℤ} {f : Proc → Proc}

/-! ### Who waits, and what others may do -/

/-- The process `x` is `i`, or waits for it in one of its queues or in a receive. -/
def Waiter (n : Node) (i x : ℤ) : Prop :=
  x = i ∨ x ∈ (n.proc i).list ∨ x ∈ (n.proc i).mlist ∨ x ∈ (n.proc i).ulist ∨
    (n.proc x).receivesFrom (n.proc i).endpoint

/-- The descriptor `q` is bound and has the bit of `i` in its map of pending notifications. -/
def HasBit (n₀ : Node) (i : ℤ) (n : Node) (q : ℤ) : Prop :=
  (n.proc q).rts.slotFree = false ∧ (n.proc q).notifyPending (n₀.proc i).sId.toNat = true

/-- Others may do anything while `i` is being unbound, except with the descriptors of `i` and of
those that wait for it, start waiting for `i` or notify in its name. -/
structure Others (n₀ : Node) (i : ℤ) (n n' : Node) : Prop where
  conf : n'.conf = n.conf
  proc : ∀ x, Waiter n₀ i x → n'.proc x = n.proc x
  queued : ∀ x, Waiter n₀ i x → ∀ px, x ∈ (n'.sproxy px).list ↔ x ∈ (n.sproxy px).list
  up : ∀ px, (n.sproxy px).rts.slotFree = false → (n'.sproxy px).rts.slotFree = false
  list : ∀ q, i ∈ (n'.proc q).list →
    i ∈ (n.proc q).list ∧ (n'.proc q).rts.remote = (n.proc q).rts.remote
  mlist : ∀ q, i ∈ (n'.proc q).mlist → i ∈ (n.proc q).mlist
  ulist : ∀ q, i ∈ (n'.proc q).ulist → i ∈ (n.proc q).ulist
  bit : ∀ q, HasBit n₀ i n' q → HasBit n₀ i n q
  receives : ∀ q, (n'.proc q).receivesFrom (n₀.proc i).endpoint →
    (n.proc q).receivesFrom (n₀.proc i).endpoint

/-- `i` waits for nothing itself or the DC has no tasks. The marks of `i` tell in which queues it
is, and those that wait for it are bound processes of the table. -/
structure Leaving (n : Node) (i : ℤ) : Prop where
  tasks : (n.proc i).rts.sending = true ∨ (n.proc i).rts.waitmigr = true ∨
    (n.proc i).rts.waitunbind = true → n.conf.dcNrTasks = 0
  list : ∀ q, i ∈ (n.proc q).list → q ≠ i ∧ (n.proc i).rts.sending = true ∧
    endpointP (n.proc i).sendto = q ∧ (n.proc q).rts.remote = false
  mlist : ∀ q, i ∈ (n.proc q).mlist → q ≠ i ∧ (n.proc i).rts.waitmigr = true
  ulist : ∀ q, i ∈ (n.proc q).ulist → q ≠ i ∧ (n.proc i).rts.waitunbind = true
  queued : ∀ px, i ∈ (n.sproxy px).list → (n.proc i).rts.rmtoper = true ∧ (n.proc i).proxy ≠ noneEp
  inTable : ∀ x, Waiter n i x → n.conf.inRange x ∧ (n.proc x).rts.slotFree = false
  up : ∀ x, Waiter n i x → (n.proc x).rts.remote = true →
    (n.sproxy (n.conf.nProxies (n.proc x).nodeid)).rts.slotFree = false
  unbinding : ∀ x ∈ (n.proc i).ulist, x ∉ (n.proc i).list ∧ x ∉ (n.proc i).mlist ∧
    (n.proc x).rts.receiving = false

/-! ### Telling -/

/-- The process `x` has been told `code` since `n₀`: woken up with it, or, on another node, by an
acknowledge in the queue of a proxy. -/
def Told (n₀ n : Node) (x code : ℤ) : Prop :=
  if (n₀.proc x).rts.remote then
    (n.proc x).rmtcmd.cmd.isAck = true ∧ (n.proc x).rmtcmd.rcode = code ∧
      (n.proc x).rmtcmd.dst = (n.proc x).endpoint ∧
      x ∈ (n.sproxy (n.conf.nProxies (n.proc x).nodeid)).list
  else (n.proc x).rcode = code ∧ (n₀.proc x).pseudosem < (n.proc x).pseudosem

def ToldError (n₀ n : Node) (x : ℤ) : Prop := ∃ code < 0, Told n₀ n x code

structure Tame (p p' : Proc) : Prop where
  endpoint : p'.endpoint = p.endpoint
  standing : p'.standing = p.standing
  getfrom : p'.getfrom = p.getfrom
  sId : p'.sId = p.sId
  bits : ∀ s, p'.notifyPending s = true → p.notifyPending s = true
  receiving : p'.rts.receiving = true → p.rts.receiving = true
  list : ∀ y, y ∈ p'.list → y ∈ p.list
  mlist : ∀ y, y ∈ p'.mlist → y ∈ p.mlist
  ulist : ∀ y, y ∈ p'.ulist → y ∈ p.ulist
  pseudosem : p.pseudosem ≤ p'.pseudosem

structure Turn (y : ℤ) (n n' : Node) : Prop where
  conf : n'.conf = n.conf
  self : Tame (n.proc y) (n'.proc y)
  other : ∀ q, q ≠ y → n'.proc q =
    { n.proc q with
      list := (n'.proc q).list, mlist := (n'.proc q).mlist, ulist := (n'.proc q).ulist }
  lists : ∀ q, q ≠ y → Tame (n.proc q) (n'.proc q)
  queued : ∀ px q, q ≠ y → (q ∈ (n'.sproxy px).list ↔ q ∈ (n.sproxy px).list)
  up : ∀ px, (n.sproxy px).rts.slotFree = false → (n'.sproxy px).rts.slotFree = false

section Tame

variable {p p' p'' : Proc}

theorem Tame.refl (p : Proc) : Tame p p :=
  ⟨rfl, rfl, rfl, rfl, fun _ h => h, id, fun _ h => h, fun _ h => h, fun _ h => h, Int.le_refl _⟩

theorem Tame.nodeid (h : Tame p p') : p'.nodeid = p.nodeid := congrArg (·.2.2.2) h.standing

theorem Tame.remote (h : Tame p p') : p'.rts.remote = p.rts.remote :=
  congrArg (·.1.remote) h.standing

theorem Tame.slotFree (h : Tame p p') : p'.rts.slotFree = p.rts.slotFree :=
  congrArg (·.1.slotFree) h.standing

theorem Tame.trans (h : Tame p p') (h' : Tame p' p'') : Tame p p'' where
  endpoint := h'.endpoint.trans h.endpoint
  standing := h'.standing.trans h.standing
  getfrom := h'.getfrom.trans h.getfrom
  sId := h'.sId.trans h.sId
  bits := fun s hs => h.bits s (h'.bits s hs)
  receiving := fun hr => h.receiving (h'.receiving hr)
  list := fun y hy => h.list y (h'.list y hy)
  mlist := fun y hy => h.mlist y (h'.mlist y hy)
  ulist := fun y hy => h.ulist y (h'.ulist y hy)
  pseudosem := Int.le_trans h.pseudosem h'.pseudosem

theorem tame_of (h : p' = { p with
      rts := p'.rts, sendto := p'.sendto, waitmigr := p'.waitmigr, waitunbind := p'.waitunbind
      proxy := p'.proxy, rmtcmd := p'.rmtcmd })
    (hstanding : p'.standing = p.standing)
    (hrecv : p'.rts.receiving = true → p.rts.receiving = true) : Tame p p' := by
  have hsem : p'.pseudosem = p.pseudosem := by rw [h]
  refine ⟨?_, hstanding, ?_, ?_, fun s => ?_, hrecv, fun y => ?_, fun y => ?_, fun y => ?_,
    Int.le_of_eq hsem.symm⟩ <;> rw [h]
  exacts [id, id, id, id]

end Tame

section Turn

variable {y : ℤ} {n n' n'' : Node}

theorem Turn.refl (y : ℤ) (n : Node) : Turn y n n :=
  ⟨rfl, .refl _, fun _ _ => rfl, fun _ _ => .refl _, fun _ _ _ => Iff.rfl, fun _ h => h⟩

theorem Turn.trans (h : Turn y n n') (h' : Turn y n' n'') : Turn y n n'' where
  conf := h'.conf.trans h.conf
  self := h.self.trans h'.self
  other := fun q hq => by rw [h'.other q hq, h.other q hq]
  lists := fun q hq => (h.lists q hq).trans (h'.lists q hq)
  queued := fun px q hq => (h'.queued px q hq).trans (h.queued px q hq)
  up := fun px hp => h'.up px (h.up px hp)

theorem Turn.tame (h : Turn y n n') (q : ℤ) : Tame (n.proc q) (n'.proc q) := by
  by_cases hq : q = y
  · rw [hq]
    exact h.self
  · exact h.lists q hq

theorem turn_ite {P : Prop} [Decidable P] (h : Turn y n n') (h' : Turn y n n'') :
    Turn y n (if P then n' else n'') := by
  split
  exacts [h, h']

theorem turn_modProc (hf : Tame (n.proc y) (f (n.proc y))) :
    Turn y n (n.modProc y f) where
  conf := rfl
  self := by rw [modProc_same]; exact hf
  other := fun q hq => by rw [modProc_of_ne _ _ hq]
  lists := fun q hq => by rw [modProc_of_ne _ _ hq]; exact .refl _
  queued := fun _ _ _ => Iff.rfl
  up := fun _ h => h

theorem turn_unlink (y : ℤ) (n : Node) : Turn y n (n.unlink y) := by
  have ht : ∀ q, Tame (n.proc q) ((n.unlink y).proc q) := fun q =>
    ⟨rfl, rfl, rfl, rfl, fun _ h => h, id, fun _ h => (List.mem_filter.1 h).1,
      fun _ h => h, fun _ h => h, Int.le_refl _⟩
  refine ⟨rfl, ht y, fun q _ => rfl, fun q _ => ht q, fun px q hq => ?_, fun _ h => h⟩
  simp [unlink, hq]

theorem turn_unlinkM (y : ℤ) (n : Node) : Turn y n (n.unlinkM y) := by
  have ht : ∀ q, Tame (n.proc q) ((n.unlinkM y).proc q) := fun q =>
    ⟨rfl, rfl, rfl, rfl, fun _ h => h, id, fun _ h => h,
      fun _ h => (List.mem_filter.1 h).1, fun _ h => h, Int.le_refl _⟩
  exact ⟨rfl, ht y, fun q _ => rfl, fun q _ => ht q, fun _ _ _ => Iff.rfl, fun _ h => h⟩

theorem turn_unlinkU (y : ℤ) (n : Node) : Turn y n (n.unlinkU y) := by
  have ht : ∀ q, Tame (n.proc q) ((n.unlinkU y).proc q) := fun q =>
    ⟨rfl, rfl, rfl, rfl, fun _ h => h, id, fun _ h => h, fun _ h => h,
      fun _ h => (List.mem_filter.1 h).1, Int.le_refl _⟩
  exact ⟨rfl, ht y, fun q _ => rfl, fun q _ => ht q, fun _ _ _ => Iff.rfl, fun _ h => h⟩

theorem turn_sproxyEnqueue (y : ℤ) (n : Node) : Turn y n (n.sproxyEnqueue y).1 := by
  unfold sproxyEnqueue
  dsimp only
  split
  · exact .refl y n
  · have hq : ∀ px q, q ≠ y → ∀ m : Node, m.sproxy = n.sproxy →
        (q ∈ ((m.modSproxy px fun sp => sp.enqueueCaller y).sproxy px).list ↔
          q ∈ (n.sproxy px).list) := by
      intro px q hq m hm
      simp [hm, hq]
    refine (turn_modProc (f := fun p =>
      { p with proxy := n.conf.nProxies (n.proc y).rmtcmd.dnode }) (tame_of rfl rfl id)).trans ?_
    · refine ⟨rfl, .refl _, fun _ _ => rfl, fun _ _ => .refl _, fun px q hne => ?_, fun px h => ?_⟩
      · by_cases hpx : px = n.conf.nProxies (n.proc y).rmtcmd.dnode
        · subst hpx
          exact hq _ q hne _ rfl
        · rw [modSproxy_of_ne _ _ hpx]
      · by_cases hpx : px = n.conf.nProxies (n.proc y).rmtcmd.dnode
        · subst hpx
          rw [modSproxy_same, Proc.enqueueCaller_slotFree]
          exact h
        · rw [modSproxy_of_ne _ _ hpx]
          exact h

theorem turn_genericAck (ack : Cmd) (y i code : ℤ) (n : Node) :
    Turn y n (n.genericAckLcl2rmt ack y i code).1 := by
  exact .trans (turn_modProc (tame_of rfl rfl id)) (turn_sproxyEnqueue y _)

theorem tame_up (p : Proc) (code : ℤ) : Tame p (p.up code) :=
  ⟨rfl, rfl, rfl, rfl, fun _ h => h, id, fun _ h => h, fun _ h => h, fun _ h => h,
    Int.le_add_one (Int.le_refl _)⟩

theorem turn_tell (ack : Cmd) (y i code : ℤ) (n : Node) : Turn y n (n.tell ack y i code) :=
  turn_ite (turn_genericAck ..) (turn_modProc (tame_up _ _))

end Turn

/-! ### The sections -/

section Sections

variable (i x : ℤ) (n : Node)

theorem turn_unbindSender : Turn x n (unbindSender i x n) := by
  exact (turn_unlink x n).trans (.trans (turn_modProc (tame_of rfl rfl id)) (turn_tell ..))

theorem turn_unbindMigr : Turn x n (unbindMigr i x n) := by
  exact (turn_unlinkM x n).trans (.trans (turn_modProc (tame_of rfl rfl id)) (turn_tell ..))

theorem turn_unbindWaiter : Turn x n (unbindWaiter i x n) := by
  exact (turn_unlinkU x n).trans (.trans (turn_modProc (tame_of rfl rfl id)) (turn_tell ..))

theorem tame_clearBit (p : Proc) (s : ℕ) :
    Tame p { p with notifyPending := Function.update p.notifyPending s false } := by
  refine ⟨rfl, rfl, rfl, rfl, fun k hk => ?_, id, fun _ h => h, fun _ h => h,
    fun _ h => h, Int.le_refl _⟩
  by_cases hks : k = s
  · subst hks
    simp at hk
  · simpa [hks] using hk

theorem turn_unbindBit : Turn x n (unbindBit i x n) :=
  turn_ite (turn_modProc (tame_clearBit _ _)) (.refl x n)

theorem turn_unbindReceiver : Turn x n (unbindReceiver i x n) := by
  refine turn_ite (turn_ite ?_ (turn_modProc (tame_up _ _))) (.refl x n)
  exact .trans (turn_modProc (tame_of rfl rfl fun h => absurd h Bool.false_ne_true))
    (turn_genericAck ..)

theorem turn_unbindScan : Turn x n (unbindScan i x n) :=
  turn_ite (.refl x n) ((turn_unbindBit i x n).trans (turn_unbindReceiver i x _))

theorem turn_unbindProxy : Turn i n (unbindProxy i n) := by
  refine turn_ite ?_ (.refl i n)
  exact .trans (turn_ite (turn_unlink i n) (.refl i n)) (turn_modProc (tame_of rfl rfl id))

theorem turn_unbindSending : Turn i n (unbindSending i n) := by
  refine turn_ite ?_ (.refl i n)
  exact .trans (turn_ite (.refl i n) (turn_unlink i n)) (turn_modProc (tame_of rfl rfl id))

theorem turn_unbindWaitmigr : Turn i n (unbindWaitmigr i n) := by
  refine turn_ite ?_ (.refl i n)
  exact (turn_unlinkM i n).trans (turn_modProc (tame_of rfl rfl id))

theorem turn_unbindWaitunbind : Turn i n (unbindWaitunbind i n) := by
  refine turn_ite ?_ (.refl i n)
  exact (turn_unlinkU i n).trans (turn_modProc (tame_of rfl rfl id))

end Sections

theorem unbindBody_keeps {I : Node → Prop} (h : ∀ {m m' : Node} {y : ℤ}, Turn y m m' → I m → I m')
    (i : ℤ) {n : Node} (hn : I n) : I (Sections.run (unbindBody i).dropLast n) := by
  refine Runs.keeps (R := Eq) (fun s t h hs => h ▸ hs) ?_ (runs_run (fun _ => rfl) _ n) hn
  simp only [unbindBody, List.dropLast_cons_cons, List.dropLast_singleton, List.forall_mem_cons,
    List.not_mem_nil, false_implies, implies_true, and_true, Block.Keeps]
  exact ⟨fun x m => h (turn_unbindSender i x m), fun x m => h (turn_unbindScan i x m),
    fun m => h (turn_unbindProxy i m), fun m => h (turn_unbindSending i m),
    fun m => h (turn_unbindWaitmigr i m), fun x m => h (turn_unbindMigr i x m),
    fun m => h (turn_unbindWaitunbind i m), fun x m => h (turn_unbindWaiter i x m)⟩

theorem doUnbind_endpoint (n : Node) (caller : Caller) (i sig q : ℤ) :
    ((n.doUnbind caller i sig).1.proc q).endpoint = (n.proc q).endpoint := by
  have hinit : ∀ m : Node, ((unbindInit i m).proc q).endpoint = (m.proc q).endpoint := fun m =>
    modProc_endpoint i q fun _ => by rfl
  have hbody : ((Sections.run (unbindBody i) n).proc q).endpoint = (n.proc q).endpoint :=
    (hinit _).trans (unbindBody_keeps (I := fun m => (m.proc q).endpoint = (n.proc q).endpoint)
      (fun ht h => (ht.tame q).endpoint.trans h) i rfl)
  have hother : ((n.unbindOther i sig).1.proc q).endpoint = (n.proc q).endpoint := by
    unfold unbindOther
    dsimp only
    split_ifs <;> dsimp only
    · exact modProc_endpoint i q fun _ => by rfl
    · exact modProc_endpoint i q fun _ => by rfl
  unfold doUnbind
  split_ifs <;> first | rfl | exact hinit n | exact hbody | exact hother

/-! ### Who has been told -/

section ToldLemmas

variable {n₀ n n' : Node} {i x y code : ℤ}

theorem Told.turn (h : Told n₀ n x code) (ht : Turn y n n') (hne : x ≠ y) :
    Told n₀ n' x code := by
  unfold Told at h ⊢
  have hx := ht.other x hne
  rw [ht.conf, hx]
  split_ifs at h ⊢ with hr
  · exact ⟨h.1, h.2.1, h.2.2.1, (ht.queued _ x hne).2 h.2.2.2⟩
  · exact h

theorem Told.others (h : Told n₀ n x code) (ho : Others n₀ i n n') (hx : Waiter n₀ i x) :
    Told n₀ n' x code := by
  unfold Told at h ⊢
  rw [ho.conf, ho.proc x hx]
  split_ifs at h ⊢ with hr
  · exact ⟨h.1, h.2.1, h.2.2.1, (ho.queued x hx _).2 h.2.2.2⟩
  · exact h

theorem ToldError.turn (h : ToldError n₀ n x) (ht : Turn y n n') (hne : x ≠ y) :
    ToldError n₀ n' x := by
  obtain ⟨code, hc, h⟩ := h
  exact ⟨code, hc, h.turn ht hne⟩

theorem ToldError.others (h : ToldError n₀ n x) (ho : Others n₀ i n n') (hx : Waiter n₀ i x) :
    ToldError n₀ n' x := by
  obtain ⟨code, hc, h⟩ := h
  exact ⟨code, hc, h.others ho hx⟩

theorem told_genericAck (hr : (n₀.proc x).rts.remote = true) (hack : ack.isAck = true)
    (hup : (n.sproxy (n.conf.nProxies (n.proc x).nodeid)).rts.slotFree = false) :
    Told n₀ (n.genericAckLcl2rmt ack x i code).1 x code := by
  have hf : (n.sproxy (n.conf.nProxies (n.proc x).nodeid)).rts ≠ Rts.onlyFree := by
    intro h
    rw [h] at hup
    exact absurd hup (by decide)
  unfold Told
  rw [if_pos hr]
  simp [genericAckLcl2rmt, sproxyEnqueue, hf, hack]

theorem told_tell (hr : (n.proc x).rts.remote = (n₀.proc x).rts.remote)
    (hs : (n₀.proc x).pseudosem ≤ (n.proc x).pseudosem) (hack : ack.isAck = true)
    (hup : (n₀.proc x).rts.remote = true →
      (n.sproxy (n.conf.nProxies (n.proc x).nodeid)).rts.slotFree = false) :
    Told n₀ (n.tell ack x i code) x code := by
  unfold tell
  split_ifs with h
  · exact told_genericAck (hr ▸ h) hack (hup (hr ▸ h))
  · have h' : (n₀.proc x).rts.remote = false := by simpa [hr] using h
    unfold Told
    rw [h', if_neg Bool.false_ne_true, modProc_same]
    exact ⟨rfl, Int.lt_add_one_of_le hs⟩

end ToldLemmas

/-! ### What holds until the slot is free -/

structure Mid (n₀ : Node) (i : ℤ) (n : Node) : Prop where
  conf : n.conf = n₀.conf
  tame : ∀ x, Waiter n₀ i x → Tame (n₀.proc x) (n.proc x)
  list : ∀ q, i ∈ (n.proc q).list → i ∈ (n₀.proc q).list ∧ (n.proc q).rts.remote = false
  mlist : ∀ q, i ∈ (n.proc q).mlist → i ∈ (n₀.proc q).mlist
  ulist : ∀ q, i ∈ (n.proc q).ulist → i ∈ (n₀.proc q).ulist
  up : ∀ x, Waiter n₀ i x → (n₀.proc x).rts.remote = true →
    (n.sproxy (n₀.conf.nProxies (n₀.proc x).nodeid)).rts.slotFree = false
  receives : ∀ q, (n.proc q).receivesFrom (n₀.proc i).endpoint → Waiter n₀ i q

section Mid

variable {n₀ n n' : Node} {i x y code : ℤ}

theorem Leaving.mid (h : Leaving n₀ i) : Mid n₀ i n₀ :=
  ⟨rfl, fun _ _ => .refl _, fun q hq => ⟨hq, (h.list q hq).2.2.2⟩, fun _ hq => hq, fun _ hq => hq,
    h.up, fun _ hq => .inr (.inr (.inr (.inr hq)))⟩

theorem Leaving.ne_of_mem (h : Leaving n₀ i) (hx : x ∈ (n₀.proc i).list ∨ x ∈ (n₀.proc i).mlist ∨
    x ∈ (n₀.proc i).ulist) : x ≠ i := by
  rintro rfl
  rcases hx with hx | hx | hx
  · exact (h.list x hx).1 rfl
  · exact (h.mlist x hx).1 rfl
  · exact (h.ulist x hx).1 rfl

section

variable (h : Mid n₀ i n)

include h

theorem Mid.others (ho : Others n₀ i n n') : Mid n₀ i n' where
  conf := ho.conf.trans h.conf
  tame := fun x hx => by rw [ho.proc x hx]; exact h.tame x hx
  list := fun q hq => by
    obtain ⟨hold, hsame⟩ := ho.list q hq
    rw [hsame]
    exact h.list q hold
  mlist := fun q hq => h.mlist q (ho.mlist q hq)
  ulist := fun q hq => h.ulist q (ho.ulist q hq)
  up := fun x hx hr => ho.up _ (h.up x hx hr)
  receives := fun q hq => h.receives q (ho.receives q hq)

theorem Mid.turn (ht : Turn y n n')
    (hy : Waiter n₀ i y ∨ ∀ e, (n'.proc y).receivesFrom e → (n.proc y).receivesFrom e) :
    Mid n₀ i n' where
  conf := ht.conf.trans h.conf
  tame := fun x hx => (h.tame x hx).trans (ht.tame x)
  list := fun q hq => by
    rw [(ht.tame q).remote]
    exact h.list q ((ht.tame q).list i hq)
  mlist := fun q hq => h.mlist q ((ht.tame q).mlist i hq)
  ulist := fun q hq => h.ulist q ((ht.tame q).ulist i hq)
  up := fun x hx hr => ht.up _ (h.up x hx hr)
  receives := fun q hq => by
    by_cases hqy : q = y
    · subst hqy
      exact hy.elim id fun hy => h.receives q (hy _ hq)
    · rw [ht.other q hqy] at hq
      exact h.receives q hq

theorem Mid.told_tell (hx : Waiter n₀ i x) (hack : ack.isAck = true) :
    Told n₀ (n.tell ack x i code) x code := by
  have ht := h.tame x hx
  refine Node.told_tell ht.remote ht.pseudosem hack fun hr => ?_
  rw [h.conf, ht.nodeid]
  exact h.up x hx hr

theorem Mid.told_turn {m : Node} (ht : Turn x n m) (hx : Waiter n₀ i x) (hack : ack.isAck = true) :
    Told n₀ (m.tell ack x i code) x code := (h.turn ht (.inl hx)).told_tell hx hack

theorem Mid.told_unbindSender (hx : Waiter n₀ i x) : ToldError n₀ (unbindSender i x n) x := by
  refine ⟨EMol.dstdied, by decide, h.told_turn ?_ hx rfl⟩
  exact (turn_unlink x n).trans (turn_modProc (tame_of rfl rfl id))

theorem Mid.told_unbindMigr (hx : Waiter n₀ i x) : ToldError n₀ (unbindMigr i x n) x := by
  refine ⟨EMol.notbind, by decide, h.told_turn ?_ hx rfl⟩
  exact (turn_unlinkM x n).trans (turn_modProc (tame_of rfl rfl id))

theorem Mid.told_unbindWaiter (hx : Waiter n₀ i x) : Told n₀ (unbindWaiter i x n) x EMol.ok := by
  refine h.told_turn ?_ hx rfl
  exact (turn_unlinkU x n).trans (turn_modProc (tame_of rfl rfl id))

end

end Mid

/-! ### The scan of the table -/

section Scan

variable {n₀ n : Node} {i q e : ℤ}

theorem unbindBit_proc : (unbindBit i q n).proc q =
    { n.proc q with notifyPending := ((unbindBit i q n).proc q).notifyPending } := by
  unfold unbindBit
  split
  · rw [modProc_same]
  · rfl

theorem unbindReceiver_notifyPending (s : ℕ) :
    ((unbindReceiver i q n).proc q).notifyPending s = (n.proc q).notifyPending s := by
  unfold unbindReceiver genericAckLcl2rmt sproxyEnqueue
  dsimp only
  split_ifs <;> simp [Proc.up]

theorem unbindReceiver_receives (h : ((unbindReceiver i q n).proc q).receivesFrom e) :
    (n.proc q).receivesFrom e := by
  have ht := turn_unbindReceiver i q n
  refine ⟨?_, ht.self.receiving h.2.1, ht.self.getfrom ▸ h.2.2⟩
  have hs : ((unbindReceiver i q n).proc q).rts.sending = (n.proc q).rts.sending := by
    unfold unbindReceiver genericAckLcl2rmt sproxyEnqueue
    dsimp only
    split_ifs <;> simp
  exact hs ▸ h.1

theorem unbindScan_receives (h : ((unbindScan i q n).proc q).receivesFrom e) :
    (n.proc q).receivesFrom e := by
  unfold unbindScan at h
  split_ifs at h with hif
  · exact h
  · have hb := unbindReceiver_receives h
    rw [unbindBit_proc] at hb
    exact hb

theorem unbindScan_bit (h : Mid n₀ i n) (hq : q ≠ i)
    (hs : (n₀.proc i).sId < n₀.conf.dcNrSysprocs) : ¬ HasBit n₀ i (unbindScan i q n) q := by
  rintro ⟨hfree, hbit⟩
  have hsid : (n.proc i).sId = (n₀.proc i).sId := (h.tame i (.inl rfl)).sId
  unfold unbindScan at hfree hbit
  split_ifs at hfree hbit with hif
  · rcases hif with hif | hif
    · exact hq hif
    · rw [hif] at hfree
      exact absurd hfree (by decide)
  · rw [unbindReceiver_notifyPending, unbindBit, if_pos (by rw [hsid, h.conf]; exact hs),
      modProc_same, hsid] at hbit
    simp at hbit

theorem told_unbindReceiver (h : Mid n₀ i n) (hw : Waiter n₀ i q)
    (hr : (n.proc q).receivesFrom (n.proc i).endpoint) :
    ToldError n₀ (unbindReceiver i q n) q := by
  have ht := h.tame q hw
  refine ⟨EMol.srcdied, by decide, ?_⟩
  unfold unbindReceiver
  rw [if_pos hr]
  split_ifs with hrem
  · refine told_genericAck (ht.remote ▸ hrem) rfl ?_
    rw [modProc_same, modProc_conf, modProc_sproxy, h.conf, ht.nodeid]
    exact h.up q hw (ht.remote ▸ hrem)
  · have h' : (n₀.proc q).rts.remote = false := by simpa [ht.remote] using hrem
    unfold Told
    rw [h', if_neg Bool.false_ne_true, modProc_same]
    exact ⟨rfl, Int.lt_add_one_of_le ht.pseudosem⟩

theorem unbindScan_told (h : Mid n₀ i n) (hl : Leaving n₀ i) (hq : q ≠ i)
    (hr : ((unbindScan i q n).proc q).receivesFrom (n₀.proc i).endpoint) :
    ToldError n₀ (unbindScan i q n) q := by
  have hw : Waiter n₀ i q := h.receives q (unbindScan_receives hr)
  have hbound : (n.proc q).rts.slotFree = false :=
    (h.tame q hw).slotFree.trans (hl.inTable q hw).2
  have hif : ¬ (q = i ∨ (n.proc q).rts.slotFree = true) := by simp [hq, hbound]
  have hm : Mid n₀ i (unbindBit i q n) := h.turn (turn_unbindBit i q n) (.inl hw)
  unfold unbindScan at hr ⊢
  rw [if_neg hif] at hr ⊢
  refine told_unbindReceiver hm hw ?_
  rw [(hm.tame i (.inl rfl)).endpoint]
  exact unbindReceiver_receives hr

theorem unbindScan_kept (h : Mid n₀ i n) (hw : Waiter n₀ i q) (ht : ToldError n₀ n q) :
    ToldError n₀ (unbindScan i q n) q := by
  unfold unbindScan
  split_ifs with hif
  · exact ht
  · have hm : Mid n₀ i (unbindBit i q n) := h.turn (turn_unbindBit i q n) (.inl hw)
    by_cases hr : ((unbindBit i q n).proc q).receivesFrom ((unbindBit i q n).proc i).endpoint
    · exact told_unbindReceiver hm hw hr
    · have hsp : (unbindBit i q n).sproxy = n.sproxy := by
        unfold unbindBit
        split <;> rfl
      obtain ⟨code, hc, ht⟩ := ht
      refine ⟨code, hc, ?_⟩
      unfold Told at ht ⊢
      rw [unbindReceiver, if_neg hr, hm.conf, hsp, unbindBit_proc]
      rw [h.conf] at ht
      exact ht

end Scan

/-! ### The queues of the process itself -/

def waiting (p : Proc) : List ℤ × List ℤ := (p.mlist, p.ulist)

section Queues

variable (n : Node) (i x q : ℤ) (ack : Cmd) (code : ℤ)

theorem genericAck_waiting :
    waiting ((n.genericAckLcl2rmt ack x i code).1.proc q) = waiting (n.proc q) := by
  unfold genericAckLcl2rmt sproxyEnqueue
  dsimp only
  split
  · rw [modProc_field _ _ waiting fun _ => by rfl]
  · rw [modSproxy_proc, modProc_field _ _ waiting fun _ => by rfl,
      modProc_field _ _ waiting fun _ => by rfl]

theorem tell_waiting : waiting ((n.tell ack x i code).proc q) = waiting (n.proc q) := by
  unfold tell
  split
  · rw [genericAck_waiting]
  · rw [modProc_field _ _ waiting fun _ => by rfl]

theorem unbindSender_waiting : waiting ((unbindSender i x n).proc q) = waiting (n.proc q) := by
  rw [unbindSender, tell_waiting, modProc_field _ _ waiting fun _ => by rfl]
  rfl

theorem unbindBit_waiting : waiting ((unbindBit i x n).proc q) = waiting (n.proc q) := by
  unfold unbindBit
  split
  · rw [modProc_field _ _ waiting fun _ => by rfl]
  · rfl

theorem unbindReceiver_waiting : waiting ((unbindReceiver i x n).proc q) = waiting (n.proc q) := by
  unfold unbindReceiver
  split
  · split
    · rw [genericAck_waiting, modProc_field _ _ waiting fun _ => by rfl]
    · rw [modProc_field _ _ waiting fun _ => by rfl]
  · rfl

theorem unbindScan_waiting : waiting ((unbindScan i x n).proc q) = waiting (n.proc q) := by
  unfold unbindScan
  split
  · rfl
  · rw [unbindReceiver_waiting, unbindBit_waiting]

theorem unbindMigr_ulist : ((unbindMigr i x n).proc q).ulist = (n.proc q).ulist := by
  have h := tell_waiting ((n.unlinkM x).modProc x fun p =>
    { p with rts := { p.rts with waitmigr := false }, waitmigr := noneEp })
    i x q .sendAck EMol.notbind
  rw [modProc_field _ _ waiting fun _ => by rfl] at h
  exact (Prod.mk.inj h).2

end Queues

/-! ### From section to section -/

/-- The process is in no queue of a process. -/
def OffQueues (i : ℤ) (n : Node) : Prop :=
  ∀ q, i ∉ (n.proc q).list ∧ i ∉ (n.proc q).mlist ∧ i ∉ (n.proc q).ulist

structure Own (n₀ : Node) (i : ℤ) (n : Node) : Prop where
  rts : (n.proc i).rts = (n₀.proc i).rts
  sendto : (n.proc i).sendto = (n₀.proc i).sendto
  proxy : (n.proc i).proxy = (n₀.proc i).proxy
  waiting : waiting (n.proc i) = waiting (n₀.proc i)
  queued : ∀ px, i ∈ (n.sproxy px).list → i ∈ (n₀.sproxy px).list

/-- The process has left the queues of the proxies and, as `list` and `mlist` tell, those of other
processes. -/
structure Gone (n₀ : Node) (i : ℤ) (list mlist : Bool) (n : Node) : Prop where
  queued : ∀ px, i ∉ (n.sproxy px).list
  sending : list = false → (n.proc i).rts.sending = (n₀.proc i).rts.sending ∧
    (n.proc i).sendto = (n₀.proc i).sendto
  waitmigr : mlist = false → (n.proc i).rts.waitmigr = (n₀.proc i).rts.waitmigr
  waitunbind : (n.proc i).rts.waitunbind = (n₀.proc i).rts.waitunbind
  list : list = true → ∀ q, i ∉ (n.proc q).list
  mlist : mlist = true → ∀ q, i ∉ (n.proc q).mlist

structure Scanned (n₀ : Node) (i : ℤ) (n : Node) : Prop where
  senders : ∀ x ∈ (n₀.proc i).list, ToldError n₀ n x
  bits : (n₀.proc i).sId < n₀.conf.dcNrSysprocs →
    ∀ q, n₀.conf.inRange q → q ≠ i → ¬ HasBit n₀ i n q
  receivers : ∀ q, n₀.conf.inRange q → q ≠ i → (n.proc q).receivesFrom (n₀.proc i).endpoint →
    ToldError n₀ n q

section Run

variable {n₀ n n' : Node} {i x y : ℤ} {list mlist : Bool}

theorem Own.turn (h : Own n₀ i n) (ht : Turn y n n') (hy : y ≠ i)
    (hw : Node.waiting (n'.proc i) = Node.waiting (n.proc i)) : Own n₀ i n' := by
  have hi := ht.other i hy.symm
  exact ⟨by rw [hi]; exact h.rts, by rw [hi]; exact h.sendto, by rw [hi]; exact h.proxy,
    hw.trans h.waiting, fun px hq => h.queued px ((ht.queued px i hy.symm).1 hq)⟩

theorem Own.others (h : Own n₀ i n) (ho : Others n₀ i n n') : Own n₀ i n' := by
  have hi := ho.proc i (.inl rfl)
  exact ⟨by rw [hi]; exact h.rts, by rw [hi]; exact h.sendto, by rw [hi]; exact h.proxy,
    by rw [hi]; exact h.waiting, fun px hq => h.queued px ((ho.queued i (.inl rfl) px).1 hq)⟩

theorem Gone.turn (h : Gone n₀ i list mlist n) (ht : Turn y n n') (hy : y ≠ i) :
    Gone n₀ i list mlist n' := by
  have hi := ht.other i hy.symm
  exact ⟨fun px hq => h.queued px ((ht.queued px i hy.symm).1 hq), by rw [hi]; exact h.sending,
    by rw [hi]; exact h.waitmigr, by rw [hi]; exact h.waitunbind,
    fun hl q hq => h.list hl q ((ht.tame q).list i hq),
    fun hl q hq => h.mlist hl q ((ht.tame q).mlist i hq)⟩

theorem Gone.others (h : Gone n₀ i list mlist n) (ho : Others n₀ i n n') :
    Gone n₀ i list mlist n' := by
  have hi := ho.proc i (.inl rfl)
  exact ⟨fun px hq => h.queued px ((ho.queued i (.inl rfl) px).1 hq), by rw [hi]; exact h.sending,
    by rw [hi]; exact h.waitmigr, by rw [hi]; exact h.waitunbind,
    fun hl q hq => h.list hl q (ho.list q hq).1, fun hl q hq => h.mlist hl q (ho.mlist q hq)⟩

theorem OffQueues.turn (h : OffQueues i n) (ht : Turn y n n') : OffQueues i n' := fun q =>
  ⟨fun hq => (h q).1 ((ht.tame q).list i hq), fun hq => (h q).2.1 ((ht.tame q).mlist i hq),
    fun hq => (h q).2.2 ((ht.tame q).ulist i hq)⟩

theorem OffQueues.others (h : OffQueues i n) (ho : Others n₀ i n n') : OffQueues i n' := fun q =>
  ⟨fun hq => (h q).1 (ho.list q hq).1, fun hq => (h q).2.1 (ho.mlist q hq),
    fun hq => (h q).2.2 (ho.ulist q hq)⟩

theorem HasBit.of_turn (ht : Turn y n n') (h : HasBit n₀ i n' x) : HasBit n₀ i n x :=
  ⟨(ht.tame x).slotFree ▸ h.1, (ht.tame x).bits _ h.2⟩

theorem Scanned.turn (h : Scanned n₀ i n) (ht : Turn y n n')
    (hy : (y ∈ (n₀.proc i).list ∨ y ≠ i ∧ (n'.proc y).receivesFrom (n₀.proc i).endpoint) →
      ToldError n₀ n' y) : Scanned n₀ i n' := by
  refine ⟨fun x hx => ?_, fun hs q hq hqi hb => h.bits hs q hq hqi (hb.of_turn ht),
    fun q hq hqi hr => ?_⟩
  · by_cases hxy : x = y
    · subst hxy
      exact hy (.inl hx)
    · exact (h.senders x hx).turn ht hxy
  · by_cases hqy : q = y
    · subst hqy
      exact hy (.inr ⟨hqi, hr⟩)
    · rw [ht.other q hqy] at hr
      exact (h.receivers q hq hqi hr).turn ht hqy

theorem Scanned.turn_self (h : Scanned n₀ i n) (hl : Leaving n₀ i) (ht : Turn i n n') :
    Scanned n₀ i n' := by
  refine h.turn ht ?_
  rintro (hi | ⟨hi, -⟩)
  · exact absurd rfl (hl.ne_of_mem (.inl hi))
  · exact absurd rfl hi

theorem Scanned.others (h : Scanned n₀ i n) (hm : Mid n₀ i n) (ho : Others n₀ i n n') :
    Scanned n₀ i n' := by
  refine ⟨fun x hx => (h.senders x hx).others ho (.inr (.inl hx)),
    fun hs q hq hqi hb => h.bits hs q hq hqi (ho.bit q hb), fun q hq hqi hr => ?_⟩
  have hr' := ho.receives q hr
  exact (h.receivers q hq hqi hr').others ho (hm.receives q hr')

theorem waiters_told {body : ℤ → Node → Node} {l : List ℤ} {I : Node → Prop} {P : ℤ → Prop}
    (hw : ∀ x ∈ l, Waiter n₀ i x) (hturn : ∀ x s, Turn x s (body x s))
    (hR : ∀ s t, Others n₀ i s t → I s → I t) (hb : ∀ x ∈ l, ∀ s, I s → I (body x s))
    (htell : ∀ x s, I s → Waiter n₀ i x → ∃ code, P code ∧ Told n₀ (body x s) x code)
    (ht : Turns (Others n₀ i) body l n n') (hI : I n) :
    I n' ∧ ∀ x ∈ l, ∃ code, P code ∧ Told n₀ n' x code := by
  refine ⟨ht.keeps hR hb hI, fun x hx => ?_⟩
  refine (Turns.establishes (Q := fun x s => Waiter n₀ i x ∧ ∃ code, P code ∧ Told n₀ s x code) hR
    ?_ hb (fun x hx s hs => ⟨hw x hx, htell x s hs (hw x hx)⟩) ?_ ht hI x hx).2
  · rintro x s t h - ⟨hx, code, hc, hq⟩
    exact ⟨hx, code, hc, hq.others h hx⟩
  · rintro x y s hs ⟨hx, code, hc, hq⟩
    refine ⟨hx, ?_⟩
    by_cases hxy : x = y
    · subst hxy
      exact htell x s hs hx
    · exact ⟨code, hc, hq.turn (hturn y s) hxy⟩

theorem senders_told (hl : Leaving n₀ i)
    (ht : Turns (Others n₀ i) (unbindSender i) (n₀.proc i).list n n') (hm : Mid n₀ i n)
    (ho : Own n₀ i n) :
    (Mid n₀ i n' ∧ Own n₀ i n') ∧ ∀ x ∈ (n₀.proc i).list, ToldError n₀ n' x := by
  have hw : ∀ x ∈ (n₀.proc i).list, Waiter n₀ i x := fun x hx => .inr (.inl hx)
  refine waiters_told (I := fun s => Mid n₀ i s ∧ Own n₀ i s) (P := (· < 0)) hw
    (turn_unbindSender i) (fun s t h hs => ⟨hs.1.others h, hs.2.others h⟩) (fun x hx s hs => ?_)
    (fun x s hs hx => hs.1.told_unbindSender hx) ht ⟨hm, ho⟩
  have hturn := turn_unbindSender i x s
  exact ⟨hs.1.turn hturn (.inl (hw x hx)),
    hs.2.turn hturn (hl.ne_of_mem (.inl hx)) (unbindSender_waiting ..)⟩

theorem table_scanned (hl : Leaving n₀ i) (ht : Turns (Others n₀ i) (unbindScan i) n₀.table n n')
    (hm : Mid n₀ i n) (ho : Own n₀ i n) (hs : ∀ x ∈ (n₀.proc i).list, ToldError n₀ n x) :
    Mid n₀ i n' ∧ Own n₀ i n' ∧ Scanned n₀ i n' := by
  have hself : ∀ s, unbindScan i i s = s := fun s => if_pos (.inl rfl)
  let I : Node → Prop := fun s =>
    Mid n₀ i s ∧ Own n₀ i s ∧ ∀ x ∈ (n₀.proc i).list, ToldError n₀ s x
  have hR : ∀ s t, Others n₀ i s t → I s → I t := fun s t h hs =>
    ⟨hs.1.others h, hs.2.1.others h, fun x hx => (hs.2.2 x hx).others h (.inr (.inl hx))⟩
  have hb : ∀ q ∈ n₀.table, ∀ s, I s → I (unbindScan i q s) := by
    rintro q - s ⟨h1, h2, h3⟩
    refine ⟨h1.turn (turn_unbindScan i q s) (.inr fun e => unbindScan_receives), ?_, fun x hx => ?_⟩
    · by_cases hq : q = i
      · rw [hq, hself]
        exact h2
      · exact h2.turn (turn_unbindScan i q s) hq (unbindScan_waiting ..)
    · by_cases hxq : x = q
      · rw [← hxq]
        exact unbindScan_kept h1 (.inr (.inl hx)) (h3 x hx)
      · exact (h3 x hx).turn (turn_unbindScan i q s) hxq
  obtain ⟨h1, h2, h3⟩ := ht.keeps hR hb ⟨hm, ho, hs⟩
  have hq := Turns.establishes (Q := fun q s =>
    ((n₀.proc i).sId < n₀.conf.dcNrSysprocs → q ≠ i → ¬ HasBit n₀ i s q) ∧
      (q ≠ i → (s.proc q).receivesFrom (n₀.proc i).endpoint → ToldError n₀ s q))
    hR ?_ hb ?_ ?_ ht ⟨hm, ho, hs⟩
  · exact ⟨h1, h2, h3, fun hsid q hr => (hq q (mem_table.2 hr)).1 hsid,
      fun q hr => (hq q (mem_table.2 hr)).2⟩
  · rintro q s t h hi ⟨hbit, hrec⟩
    refine ⟨fun hsid hqi hb => hbit hsid hqi (h.bit q hb), fun hqi hr => ?_⟩
    have hr' := h.receives q hr
    exact (hrec hqi hr').others h (hi.1.receives q hr')
  · exact fun q _ s hi => ⟨fun hsid hqi => unbindScan_bit hi.1 hqi hsid,
      fun hqi hr => unbindScan_told hi.1 hl hqi hr⟩
  · rintro q y s hi ⟨hbit, hrec⟩
    have hturn := turn_unbindScan i y s
    refine ⟨fun hsid hqi hb => hbit hsid hqi (hb.of_turn hturn), fun hqi hr => ?_⟩
    by_cases hqy : q = y
    · subst hqy
      exact unbindScan_told hi.1 hl hqi hr
    · rw [hturn.other q hqy] at hr
      exact (hrec hqi hr).turn hturn hqy

theorem unbindProxy_waiting : waiting ((unbindProxy i n).proc i) = waiting (n.proc i) := by
  unfold unbindProxy
  split_ifs
  · rw [modProc_field _ _ waiting fun _ => by rfl]
    rfl
  · rw [modProc_field _ _ waiting fun _ => by rfl]
  · rfl

theorem unbindProxy_rts : ((unbindProxy i n).proc i).rts =
    { (n.proc i).rts with rmtoper := false } := by
  unfold unbindProxy
  split_ifs with h
  · rw [modProc_same]
    rfl
  · rw [modProc_same]
  · rw [← eq_false_of_ne_true h]

theorem unbindProxy_sendto : ((unbindProxy i n).proc i).sendto = (n.proc i).sendto := by
  unfold unbindProxy
  split_ifs <;> simp [unlink]

theorem unbindProxy_queued (hl : Leaving n₀ i) (ho : Own n₀ i n) (px : ℤ) :
    i ∉ ((unbindProxy i n).sproxy px).list := by
  intro hmem
  have hq : i ∈ (n.sproxy px).list := by
    unfold unbindProxy at hmem
    split_ifs at hmem
    · exact (List.mem_filter.1 hmem).1
    · exact hmem
    · exact hmem
  obtain ⟨hoper, hproxy⟩ := hl.queued px (ho.queued px hq)
  rw [← ho.rts] at hoper
  rw [← ho.proxy] at hproxy
  rw [unbindProxy, if_pos hoper, if_pos hproxy] at hmem
  exact absurd (List.mem_filter.1 hmem).2 (by simp)

theorem proxy_left (hl : Leaving n₀ i) (hm : Mid n₀ i n) (ho : Own n₀ i n)
    (hs : Scanned n₀ i n) :
    Mid n₀ i (unbindProxy i n) ∧ Scanned n₀ i (unbindProxy i n) ∧
      Gone n₀ i false false (unbindProxy i n) ∧
      waiting ((unbindProxy i n).proc i) = waiting (n₀.proc i) := by
  have ht := turn_unbindProxy i n
  refine ⟨hm.turn ht (.inl (.inl rfl)), hs.turn_self hl ht,
    ⟨unbindProxy_queued hl ho, fun _ => ⟨?_, ?_⟩, fun _ => ?_, ?_, nofun, nofun⟩,
    unbindProxy_waiting.trans ho.waiting⟩
  · rw [unbindProxy_rts, ho.rts]
  · rw [unbindProxy_sendto, ho.sendto]
  · rw [unbindProxy_rts, ho.rts]
  · rw [unbindProxy_rts, ho.rts]

/-! #### The queues of other processes -/

theorem unbindSending_self : waiting ((unbindSending i n).proc i) = waiting (n.proc i) ∧
    ((unbindSending i n).proc i).rts.waitmigr = (n.proc i).rts.waitmigr ∧
    ((unbindSending i n).proc i).rts.waitunbind = (n.proc i).rts.waitunbind := by
  unfold unbindSending
  split_ifs <;> simp [waiting, Proc.endSend, unlink]

/-- The process leaves the queue it sends to: without tasks the descriptor that is locked is the one
with this queue, which is local. -/
theorem unbindSending_list (hl : Leaving n₀ i) (hm : Mid n₀ i n) (hg : Gone n₀ i false false n) :
    ∀ q, i ∉ ((unbindSending i n).proc q).list := by
  intro q hq
  obtain ⟨hold, hloc⟩ := hm.list q ((turn_unbindSending i n).tame q |>.list i hq)
  obtain ⟨-, hsend, hto, -⟩ := hl.list q hold
  obtain ⟨hs, ht⟩ := hg.sending rfl
  have hback : n.backReference (n.proc i).sendto = q := by
    unfold backReference
    rw [hm.conf, hl.tasks (.inl hsend), ht, hto, Int.mul_zero, Int.sub_zero]
  rw [unbindSending, if_pos (hs.trans hsend), hback, if_neg (by simp [hloc]),
    modProc_field i q Proc.list fun _ => by rfl] at hq
  exact absurd (List.mem_filter.1 hq).2 (by simp)

theorem sending_left (hl : Leaving n₀ i) (hm : Mid n₀ i n) (hs : Scanned n₀ i n)
    (hg : Gone n₀ i false false n) :
    Mid n₀ i (unbindSending i n) ∧ Scanned n₀ i (unbindSending i n) ∧
      Gone n₀ i true false (unbindSending i n) := by
  have ht := turn_unbindSending i n
  obtain ⟨-, hmig, hunb⟩ := unbindSending_self (n := n) (i := i)
  refine ⟨hm.turn ht (.inl (.inl rfl)), hs.turn_self hl ht, fun px hq => hg.queued px ?_, nofun,
    fun _ => hmig.trans (hg.waitmigr rfl), hunb.trans hg.waitunbind,
    fun _ => unbindSending_list hl hm hg, nofun⟩
  unfold unbindSending at hq
  split_ifs at hq
  · exact hq
  · exact (List.mem_filter.1 hq).1
  · exact hq

theorem unbindWaitmigr_self (hi : i ∉ (n.proc i).mlist) :
    waiting ((unbindWaitmigr i n).proc i) = waiting (n.proc i) ∧
      ((unbindWaitmigr i n).proc i).rts.waitunbind = (n.proc i).rts.waitunbind := by
  unfold unbindWaitmigr
  split_ifs
  · have hself : ∀ y ∈ (n.proc i).mlist, ¬ y = i := fun y hy h => hi (h ▸ hy)
    simpa [unlinkM, waiting] using hself
  · exact ⟨rfl, rfl⟩

theorem waitmigr_left (hl : Leaving n₀ i) (hm : Mid n₀ i n) (hs : Scanned n₀ i n)
    (hg : Gone n₀ i true false n) :
    Mid n₀ i (unbindWaitmigr i n) ∧ Scanned n₀ i (unbindWaitmigr i n) ∧
      Gone n₀ i true true (unbindWaitmigr i n) ∧
      waiting ((unbindWaitmigr i n).proc i) = waiting (n.proc i) := by
  have ht := turn_unbindWaitmigr i n
  obtain ⟨hwait, hunb⟩ := unbindWaitmigr_self fun h => (hl.mlist i (hm.mlist i h)).1 rfl
  refine ⟨hm.turn ht (.inl (.inl rfl)), hs.turn_self hl ht, ⟨fun px hq => hg.queued px ?_, nofun,
    nofun, hunb.trans hg.waitunbind, fun _ q hq => hg.list rfl q ((ht.tame q).list i hq),
    fun _ q hq => ?_⟩, hwait⟩
  · unfold unbindWaitmigr at hq
    split_ifs at hq <;> exact hq
  · have hmark := (hl.mlist q (hm.mlist q ((ht.tame q).mlist i hq))).2
    rw [unbindWaitmigr, if_pos ((hg.waitmigr rfl).trans hmark),
      modProc_field i q Proc.mlist fun _ => by rfl] at hq
    exact absurd (List.mem_filter.1 hq).2 (by simp)

theorem waitunbind_left (hl : Leaving n₀ i) (hm : Mid n₀ i n) (hs : Scanned n₀ i n)
    (hg : Gone n₀ i true true n) :
    Mid n₀ i (unbindWaitunbind i n) ∧ Scanned n₀ i (unbindWaitunbind i n) ∧
      (∀ px, i ∉ ((unbindWaitunbind i n).sproxy px).list) ∧ OffQueues i (unbindWaitunbind i n) ∧
      ((unbindWaitunbind i n).proc i).ulist = (n.proc i).ulist := by
  have ht := turn_unbindWaitunbind i n
  refine ⟨hm.turn ht (.inl (.inl rfl)), hs.turn_self hl ht, fun px hq => hg.queued px ?_,
    fun q => ⟨fun hq => hg.list rfl q ((ht.tame q).list i hq),
      fun hq => hg.mlist rfl q ((ht.tame q).mlist i hq), fun hq => ?_⟩, ?_⟩
  · unfold unbindWaitunbind at hq
    split_ifs at hq <;> exact hq
  · have hmark := (hl.ulist q (hm.ulist q ((ht.tame q).ulist i hq))).2
    rw [unbindWaitunbind, if_pos (hg.waitunbind.trans hmark),
      modProc_field i q Proc.ulist fun _ => by rfl] at hq
    exact absurd (List.mem_filter.1 hq).2 (by simp)
  · have hself : i ∉ (n.proc i).ulist := fun h => (hl.ulist i (hm.ulist i h)).1 rfl
    unfold unbindWaitunbind
    split_ifs
    · rw [modProc_same]
      exact List.filter_eq_self.2 fun y hy => by simpa using fun h : y = i => hself (h ▸ hy)
    · rfl

theorem migration_told (hl : Leaving n₀ i)
    (ht : Turns (Others n₀ i) (unbindMigr i) (n₀.proc i).mlist n n') (hm : Mid n₀ i n)
    (hs : Scanned n₀ i n) (hg : Gone n₀ i true true n)
    (hu : (n.proc i).ulist = (n₀.proc i).ulist) :
    (Mid n₀ i n' ∧ Scanned n₀ i n' ∧ Gone n₀ i true true n' ∧
        (n'.proc i).ulist = (n₀.proc i).ulist) ∧
      ∀ x ∈ (n₀.proc i).mlist, ToldError n₀ n' x := by
  have hw : ∀ x ∈ (n₀.proc i).mlist, Waiter n₀ i x := fun x hx => .inr (.inr (.inl hx))
  refine waiters_told (I := fun s => Mid n₀ i s ∧ Scanned n₀ i s ∧ Gone n₀ i true true s ∧
    (s.proc i).ulist = (n₀.proc i).ulist) (P := (· < 0)) hw (turn_unbindMigr i) ?_ ?_
    (fun x s hs hx => hs.1.told_unbindMigr hx) ht ⟨hm, hs, hg, hu⟩
  · rintro s t h ⟨h1, h2, h3, h4⟩
    exact ⟨h1.others h, h2.others h1 h, h3.others h, by rwa [h.proc i (.inl rfl)]⟩
  · rintro x hx s ⟨h1, h2, h3, h4⟩
    have hturn := turn_unbindMigr i x s
    exact ⟨h1.turn hturn (.inl (hw x hx)),
      h2.turn hturn fun _ => h1.told_unbindMigr (hw x hx),
      h3.turn hturn (hl.ne_of_mem (.inr (.inl hx))), (unbindMigr_ulist ..).trans h4⟩

theorem unbinding_told (hl : Leaving n₀ i)
    (ht : Turns (Others n₀ i) (unbindWaiter i) (n₀.proc i).ulist n n') (hm : Mid n₀ i n)
    (hs : Scanned n₀ i n) (hg : ∀ px, i ∉ (n.sproxy px).list) (hu : OffQueues i n)
    (hmg : ∀ x ∈ (n₀.proc i).mlist, ToldError n₀ n x) :
    (Mid n₀ i n' ∧ Scanned n₀ i n' ∧ (∀ px, i ∉ (n'.sproxy px).list) ∧ OffQueues i n' ∧
        ∀ x ∈ (n₀.proc i).mlist, ToldError n₀ n' x) ∧
      ∀ x ∈ (n₀.proc i).ulist, ∃ code, code = EMol.ok ∧ Told n₀ n' x code := by
  have hw : ∀ x ∈ (n₀.proc i).ulist, Waiter n₀ i x := fun x hx => .inr (.inr (.inr (.inl hx)))
  refine waiters_told (I := fun s => Mid n₀ i s ∧ Scanned n₀ i s ∧ (∀ px, i ∉ (s.sproxy px).list) ∧
    OffQueues i s ∧ ∀ x ∈ (n₀.proc i).mlist, ToldError n₀ s x) (P := (· = EMol.ok)) hw
    (turn_unbindWaiter i) ?_ ?_ (fun x s hs hx => ⟨_, rfl, hs.1.told_unbindWaiter hx⟩) ht
    ⟨hm, hs, hg, hu, hmg⟩
  · rintro s t h ⟨h1, h2, h3, h3', h4⟩
    exact ⟨h1.others h, h2.others h1 h, fun px hq => h3 px ((h.queued i (.inl rfl) px).1 hq),
      h3'.others h, fun x hx => (h4 x hx).others h (.inr (.inr (.inl hx)))⟩
  · rintro x hx s ⟨h1, h2, h3, h3', h4⟩
    obtain ⟨hx1, hx2, hx3⟩ := hl.unbinding x hx
    have hturn := turn_unbindWaiter i x s
    have htame := (h1.tame x (hw x hx)).trans hturn.self
    have hne : i ≠ x := (hl.ne_of_mem (.inr (.inr hx))).symm
    refine ⟨h1.turn hturn (.inl (hw x hx)), h2.turn hturn ?_,
      fun px hq => h3 px ((hturn.queued px i hne).1 hq), h3'.turn hturn,
      fun y hy => (h4 y hy).turn hturn fun h => hx2 (h ▸ hy)⟩
    -- who waits for the unbinding neither sends to the process nor receives from it
    rintro (h | ⟨-, h⟩)
    · exact absurd h hx1
    · exact absurd (htame.receiving h.2.1) (by rw [hx3]; decide)

end Run

/-! ### The result -/

/-- The descriptor locked for a back reference is the one with the endpoint. -/
def Locks (n : Node) (ep : ℤ) : Prop := n.backReference ep = endpointP ep

structure NoTrace (n : Node) (i : ℤ) (n' : Node) : Prop where
  free : (n'.proc i).rts = Rts.onlyFree
  own : (n'.proc i).list = [] ∧ (n'.proc i).mlist = [] ∧ (n'.proc i).ulist = []
  linked : OffQueues i n'
  queued : ∀ px, i ∉ (n'.sproxy px).list
  senders : ∀ x ∈ (n.proc i).list, ToldError n n' x
  migrating : ∀ x ∈ (n.proc i).mlist, ToldError n n' x
  unbinding : ∀ x ∈ (n.proc i).ulist, Told n n' x EMol.ok
  bits : (n.proc i).sId < n.conf.dcNrSysprocs → ∀ q, n.conf.inRange q → q ≠ i → ¬ HasBit n i n' q
  receivers : ∀ q, n.conf.inRange q → q ≠ i → (n'.proc q).receivesFrom (n.proc i).endpoint →
    ToldError n n' q
  locked : ((n.proc i).rts.sending = true → n.Locks (n.proc i).sendto) ∧
    ((n.proc i).rts.waitmigr = true → n.Locks (n.proc i).waitmigr) ∧
    ((n.proc i).rts.waitunbind = true → n.Locks (n.proc i).waitunbind)

section Result

variable {n n' : Node} {i : ℤ}

theorem Told.init {code : ℤ} (h : Told n n' x code) (hx : x ≠ i) :
    Told n (unbindInit i n') x code := by
  unfold Told at h ⊢
  rw [unbindInit, modProc_of_ne _ _ hx]
  exact h

theorem ToldError.init (h : ToldError n n' x) (hx : x ≠ i) : ToldError n (unbindInit i n') x := by
  obtain ⟨code, hc, h⟩ := h
  exact ⟨code, hc, h.init hx⟩

theorem Leaving.locks (hl : Leaving n i) (ep : ℤ) (h : (n.proc i).rts.sending = true ∨
    (n.proc i).rts.waitmigr = true ∨ (n.proc i).rts.waitunbind = true) : n.Locks ep := by
  unfold Locks backReference
  rw [hl.tasks h]
  omega

theorem noTrace_init (hl : Leaving n i) (hs : Scanned n i n')
    (hg : ∀ px, i ∉ (n'.sproxy px).list) (hu : OffQueues i n')
    (h1 : ∀ x ∈ (n.proc i).mlist, ToldError n n' x)
    (h2 : ∀ x ∈ (n.proc i).ulist, Told n n' x EMol.ok) : NoTrace n i (unbindInit i n') := by
  have hi : (unbindInit i n').proc i = (n'.proc i).initDesc n'.conf.dcid := modProc_same ..
  have hq : ∀ q, q ≠ i → (unbindInit i n').proc q = n'.proc q := fun q h => modProc_of_ne _ _ h
  constructor
  · rw [hi]
    rfl
  · rw [hi]
    exact ⟨rfl, rfl, rfl⟩
  · intro q
    by_cases hqi : q = i
    · rw [hqi, hi]
      exact ⟨List.not_mem_nil, List.not_mem_nil, List.not_mem_nil⟩
    · rw [hq q hqi]
      exact hu q
  · exact hg
  · exact fun x hx => (hs.senders x hx).init (hl.ne_of_mem (.inl hx))
  · exact fun x hx => (h1 x hx).init (hl.ne_of_mem (.inr (.inl hx)))
  · exact fun x hx => (h2 x hx).init (hl.ne_of_mem (.inr (.inr hx)))
  · intro hsid q hr hqi hb
    refine hs.bits hsid q hr hqi ?_
    unfold HasBit at hb ⊢
    rwa [hq q hqi] at hb
  · intro q hr hqi hrec
    rw [hq q hqi] at hrec
    exact (hs.receivers q hr hqi hrec).init hqi
  · exact ⟨fun h => hl.locks _ (.inl h), fun h => hl.locks _ (.inr (.inl h)),
      fun h => hl.locks _ (.inr (.inr h))⟩

theorem table_congr (h : n'.conf = n.conf) : n'.table = n.table := by
  unfold table
  rw [h]

theorem unbind_noTrace (hl : Leaving n i) (hrun : Runs (Others n i) (unbindBody i) n n') :
    NoTrace n i n' := by
  simp only [unbindBody, runs_cons_iff, runs_nil_iff, Block.runs_sec_iff, Block.runs_each_iff] at hrun
  obtain ⟨a, ⟨a₀, ha₀, ha⟩, b, ⟨b₀, hb₀, hb⟩, _, ⟨c, hc, rfl⟩, _, ⟨d, hd, rfl⟩, _, ⟨e, he, rfl⟩,
    f, ⟨f₀, hf₀, hf⟩, _, ⟨g, hg, rfl⟩, k, ⟨k₀, hk₀, hk⟩, _, ⟨z, hz, rfl⟩, rfl⟩ := hrun
  have hw : Waiter n i i := .inl rfl
  have own : Own n i n := ⟨rfl, rfl, rfl, rfl, fun _ h => h⟩
  -- the senders
  rw [ha₀.proc i hw] at ha
  obtain ⟨⟨am, ao⟩, as⟩ := senders_told hl ha (hl.mid.others ha₀) (own.others ha₀)
  -- the table
  have bm₀ := am.others hb₀
  rw [table_congr bm₀.conf] at hb
  obtain ⟨bm, bo, bs⟩ := table_scanned hl hb bm₀ (ao.others hb₀) fun x hx =>
    (as x hx).others hb₀ (.inr (.inl hx))
  -- the proxy
  obtain ⟨cm, cs, cg, cw⟩ := proxy_left hl (bm.others hc) (bo.others hc) (bs.others bm hc)
  -- the process that it sends to, and the one whose migration it waits for
  obtain ⟨dm, ds, dg⟩ := sending_left hl (cm.others hd) (cs.others cm hd) (cg.others hd)
  obtain ⟨em, es, eg, ew⟩ := waitmigr_left hl (dm.others he) (ds.others dm he) (dg.others he)
  -- those that wait for its migration
  have fw : Node.waiting (f₀.proc i) = Node.waiting (n.proc i) := by
    rw [hf₀.proc i hw, ew, he.proc i hw, unbindSending_self.1, hd.proc i hw]
    exact cw
  have hml : (f₀.proc i).mlist = (n.proc i).mlist := (Prod.mk.inj fw).1
  rw [hml] at hf
  obtain ⟨⟨fm, fs, fg, fu⟩, ft⟩ := migration_told hl hf (em.others hf₀) (es.others em hf₀)
    (eg.others hf₀) (Prod.mk.inj fw).2
  -- the process whose unbinding it waits for
  obtain ⟨gm, gs, gq, gl, gu⟩ := waitunbind_left hl (fm.others hg) (fs.others fm hg) (fg.others hg)
  have gt : ∀ x ∈ (n.proc i).mlist, ToldError n (unbindWaitunbind i g) x := fun x hx =>
    ((ft x hx).others hg (.inr (.inr (.inl hx)))).turn (turn_unbindWaitunbind i g)
      (hl.ne_of_mem (.inr (.inl hx)))
  -- those that wait for its unbinding
  have hul : (k₀.proc i).ulist = (n.proc i).ulist := by rw [hk₀.proc i hw, gu, hg.proc i hw, fu]
  rw [hul] at hk
  obtain ⟨⟨km, ks, kq, kl, kt⟩, ku⟩ := unbinding_told hl hk (gm.others hk₀) (gs.others gm hk₀)
    (fun px hq => gq px ((hk₀.queued i hw px).1 hq)) (gl.others hk₀) fun x hx =>
      (gt x hx).others hk₀ (.inr (.inr (.inl hx)))
  refine noTrace_init hl (ks.others km hz) (fun px hq => kq px ((hz.queued i hw px).1 hq))
    (kl.others hz) (fun x hx => (kt x hx).others hz (.inr (.inr (.inl hx)))) fun x hx => ?_
  obtain ⟨_, rfl, hku⟩ := ku x hx
  exact hku.others hz (.inr (.inr (.inr (.inl hx))))

end Result

/-! ### A process with two waiters -/

def twoWaiters : Node where
  conf := { Conf.sample 0 with dcNrTasks := 2, dcNrProcs := 8, dcNrSysprocs := 10 }
  proc := fun nr =>
    if nr = 5 then { Proc.sample 0 5 {} with sId := 7, list := [6], ulist := [7] }
    else if nr = 6 then
      { Proc.sample 0 6 { sending := true } with sId := 8, sendto := 5, pseudosem := -1 }
    else if nr = 7 then
      { Proc.sample 0 7 { waitunbind := true } with sId := 9, waitunbind := 5, pseudosem := -1 }
    else { endpoint := nr }
  sproxy := Proc.sampleProxy
  rproxy := Proc.sampleProxy

theorem twoWaiters_cases {P : Proc → Prop} (h5 : P (twoWaiters.proc 5)) (h6 : P (twoWaiters.proc 6))
    (h7 : P (twoWaiters.proc 7)) (hq : ∀ q : ℤ, P { endpoint := q }) (q : ℤ) :
    P (twoWaiters.proc q) := by
  by_cases e5 : q = 5
  · rwa [e5]
  by_cases e6 : q = 6
  · rwa [e6]
  by_cases e7 : q = 7
  · rwa [e7]
  have h : twoWaiters.proc q = { endpoint := q } := by simp [twoWaiters, e5, e6, e7]
  rw [h]
  exact hq q

theorem twoWaiters_waiter (h : Waiter twoWaiters 5 x) : x = 5 ∨ x = 6 ∨ x = 7 := by
  have hrec : ∀ q, (twoWaiters.proc q).rts.receiving = false :=
    twoWaiters_cases (P := fun p => p.rts.receiving = false) rfl rfl rfl fun _ => rfl
  rcases h with h | h | h | h | h
  · exact .inl h
  · exact .inr (.inl (List.mem_singleton.1 h))
  · exact absurd h List.not_mem_nil
  · exact .inr (.inr (List.mem_singleton.1 h))
  · rw [Proc.receivesFrom, hrec] at h
    exact absurd h.2.1 Bool.false_ne_true

theorem twoWaiters_leaving : Leaving twoWaiters 5 where
  tasks := by decide
  list q h := absurd h (twoWaiters_cases (P := fun p => 5 ∉ p.list) (by decide) (by decide)
    (by decide) (fun _ => List.not_mem_nil) q)
  mlist q h := absurd h (twoWaiters_cases (P := fun p => 5 ∉ p.mlist) (by decide) (by decide)
    (by decide) (fun _ => List.not_mem_nil) q)
  ulist q h := absurd h (twoWaiters_cases (P := fun p => 5 ∉ p.ulist) (by decide) (by decide)
    (by decide) (fun _ => List.not_mem_nil) q)
  queued := fun _ h => absurd h List.not_mem_nil
  inTable := fun x h => by rcases twoWaiters_waiter h with rfl | rfl | rfl <;> decide
  up := fun x h => by rcases twoWaiters_waiter h with rfl | rfl | rfl <;> decide
  unbinding := by
    intro x hx
    rw [List.mem_singleton.1 hx]
    decide

theorem Others.refl (n₀ : Node) (i : ℤ) (n : Node) : Others n₀ i n n :=
  ⟨rfl, fun _ _ => rfl, fun _ _ _ => Iff.rfl, fun _ h => h, fun _ h => ⟨h, rfl⟩, fun _ h => h,
    fun _ h => h, fun _ h => h, fun _ h => h⟩

/-- The process 5 of node 1 sends to 7; process 3 is on node 1, too. -/
def remoteSender : Node where
  conf := { Conf.sample 0 with dcNrTasks := 2, dcNrProcs := 8, dcNrSysprocs := 10 }
  proc := fun nr =>
    if nr = 3 then Proc.sample 1 3 { remote := true }
    else if nr = 5 then
      { Proc.sample 1 5 { remote := true, sending := true } with sId := 7, sendto := 7 }
    else if nr = 7 then { Proc.sample 0 7 {} with sId := 9, list := [5] }
    else { endpoint := nr }
  sproxy := Proc.sampleProxy
  rproxy := Proc.sampleProxy

end Node

end MolIpc
