import MolIpc.Ipc.Disturb
import MolIpc.Ipc.Priv
import MolIpc.Ipc.SlotUse
import MolIpc.Lib.Reach

/-!
The privilege identifiers. The identifier of a system process is the index of its slot, and the one
of all the others is `dc_nr_sysprocs`: with it a process sets its bit in the map of the pending
notifications of another one, and from this bit a receive gets the number of the notifier.

The binds write the identifier of the slot. `mm_setpriv` copies the whole structure from its
caller, the identifier with it and without a check.
-/

namespace MolIpc

open Reach

namespace Node

/-- `mm_setpriv` after the check on the DC; `sId` is the identifier in the structure of the caller.
-/
def setpriv (n : Node) (ep sId : ℤ) : Node × ℤ :=
  let i := endpointP ep
  if n.dcCheck ≠ EMol.ok then (n, n.dcCheck)
  else if ¬ n.conf.inRange i then (n, EMol.badproc)
  else if (n.proc i).rts.slotFree then (n, EMol.dstdied)
  else (n.modProc i fun p => { p with sId := sId }, EMol.ok)

end Node

/-- The calls that bind, unbind, move and set privileges. `mm_bind` and `do_unbind` are cut where
they release their locks. -/
inductive PrivOp
  | bindOpen (oper : BindOper) (ep nodeid : ℤ) (env : BindEnv)
  | bindClose (oper : BindOper) (pid ep : ℤ) (env : BindEnv) (node : ℤ)
  | autobind (ep nodeid lock : ℤ) (pairFree : Bool)
  | setpriv (ep sId : ℤ)
  | unbindOther (i sig : ℤ)
  | unbindSec (i : ℤ) (sec : UnbindSec)
  | migrate (env : MigrEnv) (oper : MigrOper) (pid ep new : ℤ)

namespace Node

/-- One of these steps. What a migration finds in the Linux kernel fits the table. -/
def privStep (n : Node) : PrivOp → Option Node
  | .bindOpen oper ep nodeid env => some (n.bindOpen oper ep nodeid env).1
  | .bindClose oper pid ep env node => some (n.bindClose oper pid ep env node).1
  | .autobind ep nodeid lock pairFree => some (n.autobind ep nodeid lock pairFree).1
  | .setpriv ep sId => some (n.setpriv ep sId).1
  | .unbindOther i sig => some (n.unbindOther i sig).1
  | .unbindSec i sec => some (unbindSec i sec n)
  | .migrate env oper pid ep new =>
    if n.MigrFits (endpointP ep) env then some (n.migrate env oper pid ep new).1 else none

/-- A caller of `mm_setpriv` leaves the identifier of the slot as it is. -/
def KeepsId (n : Node) : PrivOp → Prop
  | .setpriv ep sId => sId = n.slotSid (endpointP ep)
  | _ => True

instance (n : Node) (a : PrivOp) : Decidable (n.KeepsId a) :=
  match a with
  | .setpriv ep sId => inferInstanceAs (Decidable (sId = n.slotSid (endpointP ep)))
  | .bindOpen .. | .bindClose .. | .autobind .. | .unbindOther .. | .unbindSec .. | .migrate .. =>
    inferInstanceAs (Decidable True)

def AllFree (n : Node) : Prop := ∀ q, n.conf.inRange q → (n.proc q).rts = Rts.onlyFree

/-- The process `c` is bound. -/
def Bound (n : Node) (c : ℤ) : Prop := n.conf.inRange c ∧ (n.proc c).rts.slotFree = false

/-- `c` is a system process by its identifier, as the check of `mm_mini_notify` has it. -/
def IsSysproc (n : Node) (c : ℤ) : Prop := (n.proc c).sId < n.conf.dcNrSysprocs

/-- **The identifiers identify their slots**: every bound slot has that of its index, a bit gives
back the number of the notifier, and no two system processes share a bit. -/
structure Identified (n : Node) : Prop where
  sId : ∀ q, n.Bound q → (n.proc q).sId = n.slotSid q
  decoded : ∀ c, n.Bound c → n.IsSysproc c → ∀ srcNr dst upd, endpointP dst ≠ c →
    ∀ q s, (n.proc q).notifyPending s = false →
      ((n.notifyReplay c srcNr dst upd).1.proc q).notifyPending s = true →
      (s : ℤ) < n.conf.dcNrSysprocs ∧
        ∀ m : Node, m.conf = n.conf → ∀ cp,
          ((m.receivePending q s cp).1.proc q).message.source = c ∧
          ((m.receivePending q s cp).1.proc q).message.type = notifyFrom c
  distinct : ∀ c c', n.Bound c → n.Bound c' → n.IsSysproc c → n.IsSysproc c' →
    (n.proc c).sId = (n.proc c').sId → c = c'

/-! ### What a notification leaves pending -/

section Notify

variable {n : Node} {c srcNr dst upd q : ℤ} {s : ℕ}

theorem buildNotify_notifyPending (p : Proc) (self : Bool) (ep nr : ℤ) :
    (p.buildNotify self ep nr).notifyPending = p.notifyPending := by
  unfold Proc.buildNotify
  split_ifs <;> rfl

theorem deliverNotify_notifyPending (p : Proc) (self : Bool) (ep nr : ℤ) :
    (p.deliverNotify self ep nr).notifyPending = p.notifyPending := by
  unfold Proc.deliverNotify
  refine (Proc.notifyPending_eq (Proc.upIfReady_priv _ _)).trans ?_
  exact buildNotify_notifyPending p self ep nr

theorem notifyRemote_notifyPending (q : ℤ) :
    ((n.notifyRemote c srcNr dst upd).1.proc q).notifyPending = (n.proc q).notifyPending := by
  unfold notifyRemote
  dsimp only
  split
  · rfl
  · generalize hu : (n.stopRemote c (endpointP dst)).modProc (endpointP dst) _ = u
    have hpend : (u.proc q).notifyPending = (n.proc q).notifyPending := by
      rw [← hu]
      refine (modProc_field _ q Proc.notifyPending fun p => buildNotify_notifyPending p _ _ _).trans
        ?_
      exact Proc.notifyPending_eq ((samePriv_stopRemote c _ n).priv q)
    have hask := samePriv_askRemote c .ntfyMsg dst (if 0 ≤ upd ∧ upd < 32 then upd else -1)
      (u.proc (endpointP dst)).message u
    refine (Proc.notifyPending_eq ((hask.trans ?_).priv q)).trans hpend
    exact samePriv_sleepOr fun u _ => samePriv_leaveProxy c u

theorem setPending_inv {p : Proc} {id : ℤ} (h0 : p.notifyPending s = false)
    (h1 : (p.setPending id).notifyPending s = true) : s = id.toNat := by
  by_contra hne
  unfold Proc.setPending at h1
  dsimp only at h1
  rw [Function.update_of_ne hne] at h1
  exact absurd (h0.symm.trans h1) (by decide)

theorem notifyReplay_inv (h0 : (n.proc q).notifyPending s = false)
    (h1 : ((n.notifyReplay c srcNr dst upd).1.proc q).notifyPending s = true) :
    q = endpointP dst ∧ s = (n.proc c).sId.toNat := by
  have hfalse : ∀ {m : Node}, (m.proc q).notifyPending = (n.proc q).notifyPending →
      (m.proc q).notifyPending s = true → False := by
    intro m hm ht
    rw [hm, h0] at ht
    exact Bool.false_ne_true ht
  -- the bit of the caller on the descriptor of the destination
  have hset : ∀ {m : Node} {d : ℤ}, (m.proc q).notifyPending = (n.proc q).notifyPending →
      ((m.modProc d (·.setPending (n.proc c).sId)).proc q).notifyPending s = true →
      q = d ∧ s = (n.proc c).sId.toNat := by
    intro m d hm ht
    by_cases hq : q = d
    · subst hq
      rw [modProc_same] at ht
      exact ⟨rfl, setPending_inv (hm ▸ h0) ht⟩
    · rw [modProc_of_ne _ _ hq] at ht
      exact (hfalse hm ht).elim
  unfold notifyReplay at h1
  split at h1
  · exact (hfalse rfl h1).elim
  · unfold notifyMigrating at h1
    dsimp only at h1
    split at h1
    · exact (hfalse rfl h1).elim
    · exact hset rfl h1
  · have hu : SamePriv n (n.modProc c fun p => { p with rcode := EMol.ok }) :=
      samePriv_modProc c n fun _ => by rfl
    dsimp only at h1
    generalize n.modProc c (fun p => { p with rcode := EMol.ok }) = u at hu h1
    have hpend := Proc.notifyPending_eq (hu.priv q)
    split at h1
    · exact (hfalse ((notifyRemote_notifyPending q).trans hpend) h1).elim
    · unfold notifyLocal at h1
      dsimp only at h1
      split at h1
      · refine (hfalse ?_ h1).elim
        refine (modProc_field _ q Proc.notifyPending fun p =>
          deliverNotify_notifyPending p _ _ _).trans ?_
        exact (modProc_field c q Proc.notifyPending fun _ => by rfl).trans hpend
      split at h1
      · exact (hfalse hpend h1).elim
      · rw [modProc_field c q Proc.notifyPending fun _ => by rfl, Proc.sId_eq (hu.priv c)] at h1
        exact hset hpend h1

theorem receivePending_message (m : Node) (hs : (s : ℤ) - m.conf.dcNrTasks ≠ q) (cp : ℤ) :
    ((m.receivePending q s cp).1.proc q).message.source = s - m.conf.dcNrTasks ∧
      ((m.receivePending q s cp).1.proc q).message.type = notifyFrom (s - m.conf.dcNrTasks) := by
  have hbuild : ∀ p : Proc, ∀ nr : ℤ, (p.buildNotify false nr nr).message.source = nr ∧
      (p.buildNotify false nr nr).message.type = notifyFrom nr := by
    intro p nr
    unfold Proc.buildNotify
    simp only [Bool.false_eq_true, if_false]
    split_ifs <;> exact ⟨rfl, rfl⟩
  unfold receivePending
  dsimp only
  rw [decide_eq_false hs]
  split
  · rw [modProc_same]
    exact hbuild _ _
  · rw [modProc_same, modProc_same]
    exact hbuild _ _

end Notify

/-! ### Identifiers of the slots -/

/-- A bound slot has the identifier of its index, and a free one is not remote. -/
structure SlotIds (n : Node) : Prop where
  sId : ∀ q, n.Bound q → (n.proc q).sId = n.slotSid q
  free : ∀ q, n.conf.inRange q → (n.proc q).rts.slotFree = true → (n.proc q).rts.remote = false

section SlotIds

variable {n n' : Node}

theorem SlotIds.index (h : n.SlotIds) {c : ℤ} (hc : n.Bound c) (hs : n.IsSysproc c) :
    (n.proc c).sId = c + n.conf.dcNrTasks ∧ 0 ≤ (n.proc c).sId := by
  have hid := h.sId c hc
  have hlow := hc.1.1
  unfold IsSysproc at hs
  unfold slotSid at hid
  split_ifs at hid with hlt
  · omega
  · omega

theorem SlotIds.identified (h : n.SlotIds) : n.Identified where
  sId := h.sId
  decoded := by
    intro c hc hs srcNr dst upd hd q s h0 h1
    obtain ⟨hq, hs'⟩ := notifyReplay_inv h0 h1
    obtain ⟨hid, hpos⟩ := h.index hc hs
    unfold IsSysproc at hs
    have hcast : (s : ℤ) = (n.proc c).sId := by omega
    refine ⟨by omega, fun m hm cp => ?_⟩
    have hnr : (s : ℤ) - m.conf.dcNrTasks = c := by rw [hm]; omega
    have hmsg := receivePending_message m (q := q) (s := s) (by rw [hnr, hq]; exact hd.symm) cp
    rwa [hnr] at hmsg
  distinct := by
    intro c c' hc hc' hs hs' heq
    have h1 := (h.index hc hs).1
    have h2 := (h.index hc' hs').1
    omega

theorem AllFree.slotIds (h : n.AllFree) : n.SlotIds where
  sId := by
    intro q hq
    have hf := hq.2
    rw [h q hq.1] at hf
    exact absurd hf (by decide)
  free := by
    intro q hq _
    rw [h q hq]
    rfl

theorem SlotIds.sameUse (h : n.SlotIds) (hu : SameUse n n')
    (hid : ∀ q, (n'.proc q).sId = (n.proc q).sId) : n'.SlotIds where
  sId := by
    rintro q ⟨hr, hf⟩
    rw [hu.conf] at hr
    rw [hu.free] at hf
    unfold slotSid
    rw [hid, hu.conf]
    exact h.sId q ⟨hr, hf⟩
  free := by
    intro q hr hf
    rw [hu.conf] at hr
    rw [hu.free] at hf
    by_contra hno
    have hrem := hu.remote q hf (Bool.not_eq_false _ ▸ hno)
    exact absurd (hrem.symm.trans (h.free q hr hf)) (by decide)

theorem SlotIds.modProc (h : n.SlotIds) (i : ℤ) {f : Proc → Proc}
    (hf : (f (n.proc i)).rts = Rts.onlyFree ∨
      (f (n.proc i)).rts.slotFree = false ∧ (f (n.proc i)).sId = n.slotSid i) :
    (n.modProc i f).SlotIds where
  sId := by
    rintro q ⟨hr, hfree⟩
    by_cases hq : q = i
    · subst hq
      rw [modProc_same] at hfree ⊢
      rcases hf with hf | ⟨-, hf⟩
      · rw [hf] at hfree
        exact absurd hfree (by decide)
      · exact hf
    · rw [modProc_of_ne _ _ hq] at hfree ⊢
      exact h.sId q ⟨hr, hfree⟩
  free := by
    intro q hr hfree
    by_cases hq : q = i
    · subst hq
      rw [modProc_same] at hfree ⊢
      rcases hf with hf | ⟨hf, -⟩
      · rw [hf]
        rfl
      · exact absurd (hf.symm.trans hfree) (by decide)
    · rw [modProc_of_ne _ _ hq] at hfree ⊢
      exact h.free q hr hfree

theorem SlotIds.turn (h : n.SlotIds) {y : ℤ} (ht : Turn y n n') : n'.SlotIds :=
  h.sameUse ht.sameUse fun q => (ht.tame q).sId

theorem SlotIds.init (h : n.SlotIds) (i dcid : ℤ) : (n.modProc i (·.initDesc dcid)).SlotIds :=
  h.modProc i (.inl rfl)

end SlotIds

/-! ### Steps -/

section Steps

variable {n n' : Node}

section

variable (h : n.SlotIds)

include h

theorem SlotIds.bindOpen (oper : BindOper) (ep nodeid : ℤ) (env : BindEnv) :
    (n.bindOpen oper ep nodeid env).1.SlotIds := by
  rcases bindOpen_cases n oper ep nodeid env with ⟨code, ho⟩ | ⟨-, -, r, ho⟩
  · rw [ho]
    exact h
  · rw [ho]
    exact h.init _ _

theorem SlotIds.bindClose (oper : BindOper) (pid ep : ℤ) (env : BindEnv) (node : ℤ) :
    (n.bindClose oper pid ep env node).1.SlotIds := by
  rcases bindClose_cases n oper pid ep env node with ⟨code, hc⟩ | ⟨r, hc⟩
  · rw [hc]
    exact h
  · rw [hc]
    refine h.modProc _ (.inr ⟨bindFill_slotFree node _, ?_⟩)
    cases oper <;> rfl

theorem SlotIds.autobind (ep nodeid lock : ℤ) (pairFree : Bool) :
    (n.autobind ep nodeid lock pairFree).1.SlotIds := by
  have hinit := h.init (endpointP ep) n.conf.dcid
  unfold Node.autobind
  dsimp only
  split_ifs <;> dsimp only <;>
    first | exact h | exact hinit | exact hinit.modProc _ (.inr ⟨by rfl, by rfl⟩)

theorem SlotIds.setpriv {ep sId : ℤ} (hid : sId = n.slotSid (endpointP ep)) :
    (n.setpriv ep sId).1.SlotIds := by
  unfold Node.setpriv
  dsimp only
  split
  · exact h
  split
  · exact h
  split
  · exact h
  · rename_i hfree
    dsimp only
    exact h.modProc _ (.inr ⟨Bool.eq_false_iff.mpr hfree, hid⟩)

theorem SlotIds.unbindOther (i sig : ℤ) : (n.unbindOther i sig).1.SlotIds := by
  refine h.sameUse (sameUse_unbindOther n i sig) fun q => ?_
  unfold Node.unbindOther
  dsimp only
  split_ifs <;> dsimp only <;> first | rfl | exact modProc_field i q Proc.sId fun _ => by rfl

theorem SlotIds.unbindSec (i : ℤ) (sec : UnbindSec) : (Node.unbindSec i sec n).SlotIds := by
  cases sec with
  | sender x => exact h.turn (turn_unbindSender i x n)
  | scan x => exact h.turn (turn_unbindScan i x n)
  | proxy => exact h.turn (turn_unbindProxy i n)
  | sending => exact h.turn (turn_unbindSending i n)
  | waitmigr => exact h.turn (turn_unbindWaitmigr i n)
  | migr x => exact h.turn (turn_unbindMigr i x n)
  | waitunbind => exact h.turn (turn_unbindWaitunbind i n)
  | waiter x => exact h.turn (turn_unbindWaiter i x n)
  | init => exact h.init i _

theorem SlotIds.privStep {a : PrivOp} (ha : n.KeepsId a) (hs : n.privStep a = some n') :
    n'.SlotIds := by
  cases a with
  | bindOpen oper ep nodeid env =>
    rw [← Option.some.inj hs]
    exact h.bindOpen oper ep nodeid env
  | bindClose oper pid ep env node =>
    rw [← Option.some.inj hs]
    exact h.bindClose oper pid ep env node
  | autobind ep nodeid lock pairFree =>
    rw [← Option.some.inj hs]
    exact h.autobind ep nodeid lock pairFree
  | setpriv ep sId =>
    rw [← Option.some.inj hs]
    exact h.setpriv ha
  | unbindOther i sig =>
    rw [← Option.some.inj hs]
    exact h.unbindOther i sig
  | unbindSec i sec =>
    rw [← Option.some.inj hs]
    exact h.unbindSec i sec
  | migrate env oper pid ep new =>
    unfold Node.privStep at hs
    dsimp only at hs
    split at hs
    · rename_i hfits
      rw [← Option.some.inj hs]
      exact h.sameUse (sameUse_migrate hfits (h.free _)) fun q =>
        Proc.sId_eq ((samePriv_migrate n env oper pid ep new).priv q)
    · exact nomatch hs

end

end Steps

/-! ### Runs -/

/-- **In every run in which `mm_setpriv` keeps the identifiers**, they identify their slots in every
state reached. -/
theorem identified_of_keepsId {n₀ n : Node} (h0 : n₀.AllFree)
    (h : Reachable privStep KeepsId n₀ n) : n.Identified :=
  (h.invariant (I := SlotIds) h0.slotIds fun _ _ _ hs ha ht => hs.privStep ha ht).identified

def newDc : Node where
  conf := Conf.sample 0
  proc := fun _ => { rts := Rts.onlyFree }
  sproxy := Proc.sampleProxy
  rproxy := Proc.sampleProxy

def grant (sId : ℤ) : List PrivOp :=
  [.bindOpen .selfBind 5 localNode { current := true, leader := true },
    .bindClose .selfBind 1005 5 { current := true, leader := true } 0,
    .bindOpen .rmtBind 6 1 {},
    .bindClose .rmtBind 0 6 {} 1,
    .setpriv 5 sId]

theorem grant_identified :
    ∃ n, Reachable privStep KeepsId newDc n ∧ (n.proc 5).rts.slotFree = false ∧
      (n.proc 5).sId = 40 ∧ n.Identified := by
  obtain ⟨n, hn, ht⟩ := exists_reachable_of_exec privStep KeepsId newDc
    (fun n => (n.proc 5).rts.slotFree = false ∧ (n.proc 5).sId = 40) (grant 40)
    (by decide +kernel)
  obtain ⟨hb, hid⟩ := of_decide_eq_true ht
  exact ⟨n, hn, hb, hid, identified_of_keepsId (fun _ _ => rfl) hn⟩

/-- With the identifier 41 the process 5 has the bit of the process 6. -/
theorem grant_shares_bit :
    ∃ n, Reachable privStep (fun _ _ => True) newDc n ∧ n.Bound 5 ∧ n.Bound 6 ∧ n.IsSysproc 5 ∧
      (n.proc 5).sId = (n.proc 6).sId ∧ ¬ n.Identified := by
  obtain ⟨n, hn, ht⟩ := exists_reachable_of_exec privStep (fun _ _ => True) newDc
    (fun n => n.conf.inRange 5 ∧ n.conf.inRange 6 ∧ (n.proc 5).rts.slotFree = false ∧
      (n.proc 6).rts.slotFree = false ∧ (n.proc 5).sId < n.conf.dcNrSysprocs ∧
      (n.proc 5).sId = (n.proc 6).sId) (grant 41) (by decide +kernel)
  obtain ⟨hr, hr', hb, hb', hs, heq⟩ := of_decide_eq_true ht
  refine ⟨n, hn, ⟨hr, hb⟩, ⟨hr', hb'⟩, hs, heq, fun h => ?_⟩
  have h6 : n.IsSysproc 6 := by
    unfold IsSysproc
    omega
  exact absurd (h.distinct 5 6 ⟨hr, hb⟩ ⟨hr', hb'⟩ hs h6 heq) (by decide)

end Node

end MolIpc
