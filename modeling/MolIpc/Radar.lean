import MolIpc.Lib.Reach
import Mathlib.Data.Finset.Card

/-!
# RADAR

RADAR (`tasks/radar/radar.c`) listens to the group of a replicated service from a node without an
instance of it, and keeps the endpoint of the service bound to the node of the primary. It takes the
primary from every `MC_STATUS_INFO`, but tells the kernel only while it waits for a primary, and a
network change does not make it look at the members: it follows the primary as long as a
synchronized RADAR hears of no other one and no network change takes the primary away.

The calls of the kernel succeed. A RADAR that exits has no next state; one that is not connected
any more starts anew.
-/

namespace MolIpc

namespace Radar

open Reach

/-- `FSM_state`. -/
inductive Fsm
  | new | wait4primary | synchronized
  deriving DecidableEq, Repr

/-- RADAR, the node that the kernel has for `svr_ep`, and the members of the group. -/
structure State where
  localNodeid : ℕ
  fsm : Fsm
  primaryMbr : Option ℕ
  synchronized : Bool
  nrNodes : ℤ
  nrSync : ℤ
  bmNodes : Finset ℕ
  bmSync : Finset ℕ
  kernel : Option ℕ
  group : Finset ℕ

/-- A join or a leave with the number of members after it, a network change, or a message of a
member. -/
inductive Event
  | join (mbr : ℕ) (num : ℤ)
  | disconnect (mbr : ℕ) (num : ℤ)
  | network (members : Finset ℕ)
  | statusInfo (source : ℕ) (nrNodes nrSync : ℤ) (bmNodes bmSync : Finset ℕ)
  | synchronized (source : ℕ)

namespace State

variable (r : State)

/-- `init_radar`. -/
def initRadar : State :=
  { r with
    fsm := .new, primaryMbr := none, synchronized := false
    bmNodes := ∅, bmSync := ∅, nrNodes := 0, nrSync := 0 }

/-- `sp_join`. -/
def spJoin (mbr : ℕ) : Option State :=
  if mbr = r.localNodeid then
    if r.nrNodes = 1 then some r.initRadar
    else if r.fsm = .new then some { r with fsm := .wait4primary }
    else none
  else if r.fsm = .wait4primary then some r.initRadar
  else some r

/-- The member leaves the bitmaps. -/
def forget (mbr : ℕ) : State :=
  { r with
    bmNodes := r.bmNodes.erase mbr
    nrSync := if mbr ∈ r.bmSync then r.nrSync - 1 else r.nrSync
    bmSync := r.bmSync.erase mbr }

/-- `sp_disconnect`. -/
def spDisconnect (mbr : ℕ) : Option State :=
  if mbr = r.localNodeid then none
  else if r.fsm ≠ .synchronized then some r
  else if r.primaryMbr = some mbr then
    if (r.forget mbr).bmSync = ∅ then some { (r.forget mbr).initRadar with kernel := none }
    else some { r.forget mbr with fsm := .wait4primary, primaryMbr := none }
  else some (r.forget mbr)

/-- `mc_status_info`. The server is bound or its migration committed: the kernel has the new node.
-/
def mcStatusInfo (source : ℕ) (nrNodes nrSync : ℤ) (bmNodes bmSync : Finset ℕ) : Option State :=
  if r.fsm ≠ .wait4primary then some { r with primaryMbr := some source }
  else if r.nrNodes ≠ nrNodes then none
  else if source = r.localNodeid then none
  else some { r with
    primaryMbr := some source, fsm := .synchronized, synchronized := true
    nrSync := nrSync, bmNodes := bmNodes, bmSync := bmSync, kernel := some source }

/-- `mc_synchronized`. -/
def mcSynchronized (source : ℕ) : State :=
  if r.fsm ≠ .synchronized then r
  else { r with nrSync := r.nrSync + 1, bmSync := insert source r.bmSync }

/-- `radar_loop`. The handlers of partitions and merges are empty. -/
def step : Event → Option State
  | .join mbr num => { r with group := insert mbr r.group, nrNodes := num }.spJoin mbr
  | .disconnect mbr num => { r with group := r.group.erase mbr, nrNodes := num }.spDisconnect mbr
  | .network members =>
    some { r with group := members, bmNodes := members, nrNodes := members.card }
  | .statusInfo source nrNodes nrSync bmNodes bmSync =>
    if source ∈ r.group then r.mcStatusInfo source nrNodes nrSync bmNodes bmSync else none
  | .synchronized source => if source ∈ r.group then some (r.mcSynchronized source) else none

/-- **RADAR follows the primary**: when it is synchronized, its primary is a member and the one that
the kernel has. -/
def FollowsPrimary : Prop :=
  r.fsm = .synchronized → ∃ p ∈ r.group, r.primaryMbr = some p ∧ r.kernel = some p

/-- A synchronized RADAR hears of its primary only, and a network change keeps the primary. -/
def Steady : Event → Prop
  | .statusInfo source .. => r.fsm = .synchronized → r.primaryMbr = some source
  | .network members => r.fsm = .synchronized → ∃ p ∈ members, r.primaryMbr = some p
  | _ => True

instance (e : Event) : Decidable (r.Steady e) := by
  unfold Steady
  split <;> infer_instance

variable {r} {r' : State}

theorem FollowsPrimary.step (h : r.FollowsPrimary) {e : Event} (hok : r.Steady e)
    (hst : r.step e = some r') : r'.FollowsPrimary := by
  cases e with
  | join mbr num =>
    simp only [State.step, spJoin] at hst
    split_ifs at hst <;> obtain rfl := Option.some.inj hst <;> intro hs
    · cases hs
    · cases hs
    · cases hs
    · obtain ⟨p, hp, hpm, hk⟩ := h hs
      exact ⟨p, Finset.mem_insert_of_mem hp, hpm, hk⟩
  | disconnect mbr num =>
    simp only [State.step, spDisconnect] at hst
    split_ifs at hst with hl hf hp hb <;> obtain rfl := Option.some.inj hst <;> intro hs
    · exact absurd hs hf
    · cases hs
    · cases hs
    · -- the primary is another member
      obtain ⟨p, hpg, hpm, hk⟩ := h hs
      refine ⟨p, Finset.mem_erase.2 ⟨?_, hpg⟩, hpm, hk⟩
      rintro rfl
      exact hp hpm
  | network members =>
    cases hst
    intro hs
    obtain ⟨p, hpm, hp⟩ := hok hs
    obtain ⟨p', -, hp', hk⟩ := h hs
    obtain rfl : p' = p := Option.some.inj (hp'.symm.trans hp)
    exact ⟨p', hpm, hp, hk⟩
  | statusInfo source nrNodes nrSync bmNodes bmSync =>
    simp only [State.step, mcStatusInfo] at hst
    split_ifs at hst with hg hf <;> obtain rfl := Option.some.inj hst <;> intro hs
    · obtain ⟨p, -, hp, hk⟩ := h hs
      obtain rfl : source = p := Option.some.inj ((hok hs).symm.trans hp)
      exact ⟨source, hg, rfl, hk⟩
    · exact ⟨source, hg, rfl, rfl⟩
  | synchronized source =>
    simp only [State.step, mcSynchronized] at hst
    split_ifs at hst <;> obtain rfl := Option.some.inj hst <;> exact h

/-- RADAR before its first event, with what it finds in the kernel. -/
def start (localNodeid : ℕ) (kernel : Option ℕ) (group : Finset ℕ) : State :=
  initRadar ⟨localNodeid, .new, none, false, 0, 0, ∅, ∅, kernel, group⟩

/-- **RADAR follows the primary** in every run in which, when synchronized, it hears of its primary
only and no network change takes the primary away. -/
theorem follows_primary (localNodeid : ℕ) (kernel : Option ℕ) (group : Finset ℕ)
    (h : Reachable State.step Steady (start localNodeid kernel group) r) : r.FollowsPrimary :=
  h.invariant (I := FollowsPrimary) (fun hs => nomatch hs) fun _ _ _ hi hok hst => hi.step hok hst

theorem follows_primary_one : ∃ r : State,
    Reachable State.step Steady (start 0 none {1, 2}) r ∧
      (r.fsm = .synchronized ∧ r.kernel = some 1) ∧ r.FollowsPrimary := by
  obtain ⟨r, hr, hp⟩ := exists_reachable_of_exec State.step Steady (start 0 none {1, 2})
    (fun r => decide (r.fsm = .synchronized ∧ r.kernel = some 1))
    [.join 0 3, .statusInfo 1 3 2 {1, 2} {1, 2}] (by decide)
  exact ⟨r, hr, of_decide_eq_true hp, follows_primary 0 none {1, 2} hr⟩

/-- A status of node 2 when RADAR is synchronized with node 1 leaves the kernel with node 1, and a
network change that takes node 1 away goes unnoticed. -/
theorem primary_not_followed :
    (∃ r : State, Reachable State.step (fun _ _ => True) (start 0 none {1, 2}) r ∧
      r.primaryMbr = some 2 ∧ r.kernel = some 1 ∧ ¬r.FollowsPrimary) ∧
    ∃ r : State, Reachable State.step (fun _ _ => True) (start 0 none {1, 2}) r ∧
      r.group = {0, 2} ∧ ¬r.FollowsPrimary := by
  constructor
  · obtain ⟨r, hr, hp⟩ := exists_reachable_of_exec State.step (fun _ _ => True)
      (start 0 none {1, 2})
      (fun r => decide (r.fsm = .synchronized ∧ r.primaryMbr = some 2 ∧ r.kernel = some 1))
      [.join 0 3, .statusInfo 1 3 2 {1, 2} {1, 2}, .statusInfo 2 3 2 {1, 2} {1, 2}] (by decide)
    obtain ⟨hs, hp, hk⟩ := of_decide_eq_true hp
    refine ⟨r, hr, hp, hk, fun h => ?_⟩
    obtain ⟨p, -, hp', hk'⟩ := h hs
    rw [hp, Option.some.injEq] at hp'
    rw [hk, Option.some.injEq] at hk'
    omega
  · obtain ⟨r, hr, hp⟩ := exists_reachable_of_exec State.step (fun _ _ => True)
      (start 0 none {1, 2})
      (fun r => decide (r.fsm = .synchronized ∧ r.primaryMbr = some 1 ∧ r.group = {0, 2}))
      [.join 0 3, .statusInfo 1 3 2 {1, 2} {1, 2}, .network {0, 2}] (by decide)
    obtain ⟨hs, hp, hg⟩ := of_decide_eq_true hp
    refine ⟨r, hr, hg, fun h => ?_⟩
    obtain ⟨p, hpg, hp', -⟩ := h hs
    rw [hp, Option.some.injEq] at hp'
    rw [hg, ← hp'] at hpg
    exact absurd hpg (by decide)

end State

end Radar

end MolIpc
