import Mathlib.Algebra.Order.BigOperators.Group.Finset
import MolIpc.Slots.Members

/-!
# Network partitions

What a network change does to one node. `slots_loop` compares the old and the new bitmap of the
active members as numbers and runs `sp_net_partition` or `sp_net_merge`, or none of them. The node
should go on with the initialized members of its partition; it does so when the old primary is
among them, and leaves the group otherwise.
-/

namespace MolIpc.Slots

open Slots.Node

variable {c : Conf} {n : Node} {members s t : Finset ℕ}

/-! ### Each side goes on -/

/-- **The node `n` goes on as `n'`**: it stays in the group, the primary is the old one or the
smallest member, its donations in flight are taken back, the slots of the other side are marked and
those of this side counted. -/
structure GoesOn (c : Conf) (n n' : Node) : Prop where
  stays : n'.life = n.life ∧ n'.fsm.isInitialized = true
  survivors : n'.bmInit = n.bmInit ∩ n.bmActive
  primary : ∀ p, n.primaryMbr = some p → p ∈ n'.bmInit → n'.primaryMbr = some p
  elected : (∀ p, n.primaryMbr = some p → p ∉ n'.bmInit) →
    ∃ p, n'.primaryMbr = some p ∧ IsLeast (n'.bmInit : Set ℕ) p
  owner : ∀ i ∈ c.shared, (n'.slot i).owner =
    if (n.slot i).donating then some n.localNodeid else (n.slot i).owner
  donating : ∀ i ∈ c.shared, (n'.slot i).donating = false
  counted : n'.freeSlots = n.freeSlots + (n.donatingSlots c).card ∧
    n'.ownedSlots = n.ownedSlots + (n.donatingSlots c).card
  marked : ∀ i ∈ c.shared, (n'.slot i).partition = true ↔
    (n.slot i).partition = true ∨ ∃ k, (n'.slot i).owner = some k ∧ k ∉ n'.bmInit
  total : n'.totalSlots =
    (c.shared.filter fun i => ∃ k ∈ n'.bmInit, (n'.slot i).owner = some k).card

/-- A shared slot that no node owns is in flight or marked already. -/
def Node.OwnersKnown (c : Conf) (n : Node) : Prop :=
  ∀ i ∈ c.shared, (n.slot i).owner = none → (n.slot i).donating = true ∨ (n.slot i).partition = true

section Recount

variable (c n)

theorem owner_markPartition (i : ℕ) :
    ((n.markPartition c).slot i).owner = (n.slot i).owner := by
  simp only [markPartition]
  split_ifs <;> rfl

theorem owner_recount (i : ℕ) (hi : i ∈ c.shared) : ((n.recount c).slot i).owner =
    if (n.slot i).donating then some n.localNodeid else (n.slot i).owner := by
  have hr : ((n.recount c).slot i).owner = ((n.restore c).slot i).owner := owner_markPartition c _ i
  rw [hr]
  by_cases hd : (n.slot i).donating = true <;> simp [restore, donatingSlots, hi, hd]

theorem donating_recount (i : ℕ) (hi : i ∈ c.shared) :
    ((n.recount c).slot i).donating = false := by
  by_cases hd : (n.slot i).donating = true <;>
    simp only [recount, setMax, markPartition, restore, donatingSlots, Finset.mem_filter, hi, hd,
      true_and] <;> split_ifs <;> simp_all

theorem partition_recount (i : ℕ) (hi : i ∈ c.shared) : ((n.recount c).slot i).partition = true ↔
    (n.slot i).partition = true ∨ ownerIn (n.recount c).slot n.bmInit i = false := by
  have ho : ownerIn (n.recount c).slot n.bmInit i = ownerIn (n.restore c).slot n.bmInit i :=
    congrArg (fun o => Option.any (· ∈ n.bmInit) o) (owner_markPartition c (n.restore c) i)
  rw [ho]
  by_cases hd : (n.slot i).donating = true <;>
    by_cases hm : ownerIn (n.restore c).slot n.bmInit i = false <;>
      simp_all [recount, setMax, markPartition, restore, donatingSlots]

theorem total_recount : (n.recount c).totalSlots =
    (c.shared.filter fun i => ∃ k ∈ n.bmInit, ((n.recount c).slot i).owner = some k).card := by
  have hr : (n.recount c).totalSlots = (slotsOf c (n.restore c).slot n.bmInit).card := rfl
  have hs : slotsOf c (n.restore c).slot n.bmInit =
      c.shared.filter fun i => ∃ k ∈ n.bmInit, ((n.recount c).slot i).owner = some k := by
    ext i
    have ho : ((n.recount c).slot i).owner = ((n.restore c).slot i).owner :=
      owner_markPartition c _ i
    simp [slotsOf, ho, ownerIn, Option.any_eq_true, and_comm]
  rw [hr, hs]

theorem ownerIn_eq_false_iff (t : ℕ → Slot) (bm : Finset ℕ) (i : ℕ) :
    ownerIn t bm i = false ↔ (t i).owner = none ∨ ∃ k, (t i).owner = some k ∧ k ∉ bm := by
  cases h : (t i).owner <;> simp [ownerIn, h]

end Recount

theorem goesOn_goOn (hi : n.fsm.isInitialized = true) (hk : n.KeepsPrimary)
    (ho : n.OwnersKnown c) : GoesOn c n (n.mask.goOn c).1 := by
  obtain ⟨w, f, d, hf, he⟩ := goOn_eq c n.mask
  rw [he]
  have howner := owner_recount c n.mask
  refine ⟨⟨rfl, hf hi⟩, rfl, fun p hp _ => hp, fun hno => ?_, howner, donating_recount c n.mask,
    ⟨rfl, rfl⟩, fun i hmem => ?_, ?_⟩
  · obtain ⟨p, hp, hpp⟩ := hk
    exact absurd hp (hno p hpp)
  · refine (partition_recount c n.mask i hmem).trans ?_
    rw [ownerIn_eq_false_iff]
    constructor
    · rintro (hm | hnone | hout)
      · exact .inl hm
      · -- a slot that no node owns has not been taken back
        rw [howner i hmem] at hnone
        split_ifs at hnone with hd
        exact .inl ((ho i hmem hnone).resolve_left hd)
      · exact .inr hout
    · rintro (hm | hout)
      · exact .inl hm
      · exact .inr (.inr hout)
  · exact total_recount c n.mask

/-- **Exactly the side of the old primary goes on**: every other one finds a primary among its
members and leaves the group. A shared slot that no node owns is marked, too. -/
theorem goesOn_spNetPartition_iff (c : Conf) (n : Node) (hi : n.fsm.isInitialized = true) :
    GoesOn c n (n.spNetPartition c).1 ↔ n.KeepsPrimary ∧ n.OwnersKnown c := by
  have hw := initialized_ne_waitStatus hi
  rcases spNetPartition_cases (c := c) hw with ⟨hk, he⟩ | ⟨hk, -, he⟩ | ⟨hk, -, he⟩
  · rw [he]
    refine ⟨fun h => ⟨hk, fun i hmem hnone => ?_⟩, fun h => goesOn_goOn hi hk h.2⟩
    by_contra hcon
    have hd : ¬(n.slot i).donating = true := fun hd => hcon (.inl hd)
    have hn' := h.owner i hmem
    rw [if_neg hd, hnone] at hn'
    obtain ⟨w, f, d, -, hg⟩ := goOn_eq c n.mask
    have hm : (((n.mask.goOn c).1).slot i).partition = true := by
      rw [hg] at hn' ⊢
      exact (partition_recount c n.mask i hmem).2 (.inr ((ownerIn_eq_false_iff _ _ i).2 (.inl hn')))
    rcases (h.marked i hmem).1 hm with hp | ⟨k, hk', -⟩
    · exact hcon (.inr hp)
    · rw [hn'] at hk'
      exact absurd hk' (by simp)
  · refine ⟨fun h => ?_, fun h => absurd h.1 hk⟩
    rw [he] at h
    exact absurd h.stays.2 Bool.false_ne_true
  · refine ⟨fun h => ?_, fun h => absurd h.1 hk⟩
    rw [he] at h
    obtain ⟨w, f, d, -, hg⟩ := goOn_eq c (n.mask.setPrimary none)
    rw [hg] at h
    obtain ⟨p, hp, -⟩ := h.elected fun p hp hmem => hk ⟨p, hmem, hp⟩
    exact absurd hp (by simp [recount, setMax, markPartition, restore, setPrimary])

def Node.parted (init active : Finset ℕ) : Node :=
  { Node.init Conf.sample 1 with
    fsm := .running
    primaryMbr := some 0
    bmInit := init
    bmActive := active
    slot := fun i => { Node.init Conf.sample 1 |>.slot i with owner := some (i % 3) } }

theorem goesOn_parted : ({0, 1, 2} : Finset ℕ) ≠ {0, 1} ∧ GoesOn Conf.sample
    (parted {0, 1, 2} {0, 1}) ((parted {0, 1, 2} {0, 1}).spNetPartition Conf.sample).1 :=
  ⟨by decide, (goesOn_spNetPartition_iff _ _ rfl).2 ⟨⟨0, by decide, rfl⟩, fun _ _ h => nomatch h⟩⟩

/-- The nodes 1 and 2 have lost the primary 0: node 1 leaves the group. -/
theorem parted_leaves : (parted {0, 1, 2} {1, 2}).fsm.isInitialized = true ∧
    (parted {0, 1, 2} {1, 2}).localNodeid ∈ ({0, 1, 2} : Finset ℕ) ∩ {1, 2} ∧
    ((parted {0, 1, 2} {1, 2}).spNetPartition Conf.sample).1.life = .gone ∧
    ¬GoesOn Conf.sample (parted {0, 1, 2} {1, 2})
      ((parted {0, 1, 2} {1, 2}).spNetPartition Conf.sample).1 :=
  ⟨rfl, by decide, by decide, fun h => absurd h.stays.2 (by decide)⟩

/-! ### The change of the view -/

inductive NetHandler
  | partition
  | merge
  deriving DecidableEq, Repr

/-- The handler that the comparison of the bitmaps selects. -/
def netHandler (old new : Finset ℕ) : Option NetHandler :=
  if bmWord new < bmWord old then some .partition
  else if bmWord old < bmWord new then some .merge
  else none

theorem networkChange_eq (c : Conf) (n : Node) (env : Env) (members : Finset ℕ) :
    n.networkChange c env members =
      match netHandler n.bmActive members with
      | some .partition => (n.setView members).spNetPartition c
      | some .merge => (n.setView members).spNetMerge c env
      | none => (n, []) := by
  unfold networkChange netHandler
  split_ifs <;> rfl

theorem bmWord_lt (h : s ⊂ t) : bmWord s < bmWord t := by
  obtain ⟨i, hi, his⟩ := Finset.exists_of_ssubset h
  exact Finset.sum_lt_sum_of_subset h.1 hi his (Nat.two_pow_pos i) fun _ _ _ => Nat.zero_le _

theorem netHandler_of_ssubset (h : s ⊂ t) :
    netHandler t s = some .partition ∧ netHandler s t = some .merge := by
  have hlt := bmWord_lt h
  simp [netHandler, hlt, hlt.le]

/-- **The change is classified** by inclusion: the partition runs iff a member is missing, the merge
iff there is a new one, with the new view. -/
structure Classified (c : Conf) (env : Env) (n : Node) (members : Finset ℕ) : Prop where
  partition : netHandler n.bmActive members = some .partition ↔ ¬n.bmActive ⊆ members
  merge : netHandler n.bmActive members = some .merge ↔ ¬members ⊆ n.bmActive
  active : (n.networkChange c env members).1.bmActive = members
  count : (n.networkChange c env members).1.activeNodes = members.card
  init : (n.networkChange c env members).1.bmInit ⊆ members

/-- The node waits for its status, the old primary is on its side, or no member is. -/
def Node.Stays (c : Conf) (n : Node) (members : Finset ℕ) : Prop :=
  n.fsm = .waitStatus ∨ (∃ p ∈ n.bmInit ∩ members, n.primaryMbr = some p) ∨
    getPrimaryMbr c (n.bmInit ∩ members) = none

theorem view_spNetPartition (c : Conf) (n : Node) (members : Finset ℕ) :
    let n' := ((n.setView members).spNetPartition c).1
    (n.Stays c members ∧ n'.bmActive = members ∧ n'.activeNodes = members.card ∧
      n'.bmInit = n.bmInit ∩ members) ∨
    (¬n.Stays c members ∧ n'.bmActive = ∅ ∧ members.Nonempty) := by
  intro n'
  by_cases hw : n.fsm = .waitStatus
  · have he : n' = (n.setView members).mask := by
      simp only [n', spNetPartition]
      rw [if_pos (show (n.setView members).mask.fsm = .waitStatus from hw)]
    exact .inl ⟨.inl hw, by rw [he]; rfl, by rw [he]; rfl, by rw [he]; rfl⟩
  · rcases spNetPartition_cases (c := c) (n := n.setView members) hw with
      ⟨hk, he⟩ | ⟨hk, ⟨p, hp⟩, he⟩ | ⟨hk, hp, he⟩
    · obtain ⟨w, f, d, -, hg⟩ := goOn_eq c (n.setView members).mask
      simp only [n', he, hg]
      exact .inl ⟨.inr (.inl hk), rfl, rfl, rfl⟩
    · have hmem : p ∈ n.bmInit ∩ members := getPrimaryMbr_mem hp
      refine .inr ⟨?_, ?_, ⟨p, (Finset.mem_inter.1 hmem).2⟩⟩
      · rintro (h | h | h)
        · exact hw h
        · exact hk h
        · exact absurd (hp.symm.trans h) (by simp)
      · simp only [n', he]
        rfl
    · obtain ⟨w, f, d, -, hg⟩ := goOn_eq c ((n.setView members).mask.setPrimary none)
      simp only [n', he, hg]
      exact .inl ⟨.inr (.inr hp), rfl, rfl, rfl⟩

theorem view_spNetMerge (c : Conf) (n : Node) (env : Env) :
    (n.spNetMerge c env).1.bmActive = n.bmActive ∧
      (n.spNetMerge c env).1.activeNodes = n.activeNodes ∧
        (n.spNetMerge c env).1.bmInit = n.bmInit := by
  simp only [spNetMerge]
  split_ifs <;> exact ⟨rfl, rfl, rfl⟩

/-- **When a network change is classified by inclusion**: one set contains the other, a node that
loses members stays, and otherwise no initialized member is outside of the new set; without a
change, the number of the members is right already. -/
theorem classified_networkChange_iff (c : Conf) (env : Env) (n : Node) (members : Finset ℕ) :
    Classified c env n members ↔
      (members ⊂ n.bmActive ∧ n.Stays c members) ∨
      (n.bmActive ⊆ members ∧ n.bmInit ⊆ members ∧
        (members = n.bmActive → n.activeNodes = members.card)) := by
  by_cases hle : members ⊆ n.bmActive
  · by_cases hge : n.bmActive ⊆ members
    · have heq : members = n.bmActive := hle.antisymm hge
      have hnone : netHandler n.bmActive members = none := by simp [netHandler, heq]
      have hch : n.networkChange c env members = (n, []) := by rw [networkChange_eq, hnone]
      constructor
      · intro h
        have hcount := h.count
        have hinit := h.init
        rw [hch] at hcount hinit
        exact .inr ⟨hge, hinit, fun _ => hcount⟩
      · rintro (⟨hlt, -⟩ | ⟨-, hinit, hcount⟩)
        · exact absurd hge hlt.2
        · refine ⟨?_, ?_, ?_, ?_, ?_⟩ <;> simp_all
    · have hlt : members ⊂ n.bmActive := ⟨hle, hge⟩
      have hpart := (netHandler_of_ssubset hlt).1
      have hch : n.networkChange c env members = (n.setView members).spNetPartition c := by
        rw [networkChange_eq, hpart]
      have hview := view_spNetPartition c n members
      rw [← hch] at hview
      rcases hview with ⟨hs, ha, hc, hb⟩ | ⟨hs, ha, hne⟩
      · refine ⟨fun _ => .inl ⟨hlt, hs⟩, fun _ => ?_⟩
        refine ⟨by simp [hpart, hge], by simp [hpart, hle], ha, hc, ?_⟩
        rw [hb]
        exact Finset.inter_subset_right
      · refine ⟨fun h => ?_, ?_⟩
        · exact absurd (ha.symm.trans h.active) hne.ne_empty.symm
        · rintro (⟨-, hs'⟩ | ⟨hge', -⟩)
          · exact absurd hs' hs
          · exact absurd hge' hge
  · by_cases hge : n.bmActive ⊆ members
    · have hmerge := (netHandler_of_ssubset ⟨hge, hle⟩).2
      have hch : n.networkChange c env members = (n.setView members).spNetMerge c env := by
        rw [networkChange_eq, hmerge]
      obtain ⟨ha, hc, hb⟩ := view_spNetMerge c (n.setView members) env
      rw [← hch] at ha hc hb
      constructor
      · intro h
        exact .inr ⟨hge, hb ▸ h.init, fun heq => absurd heq.le hle⟩
      · rintro (⟨hlt, -⟩ | ⟨-, hinit, -⟩)
        · exact absurd hlt.1 hle
        · exact ⟨by simp [hmerge, hge], by simp [hmerge, hle], ha, hc, hb ▸ hinit⟩
    · -- both handlers should run
      refine ⟨fun h => ?_, ?_⟩
      · have hp := h.partition.2 hge
        rw [h.merge.2 hle] at hp
        exact absurd hp (by simp)
      · rintro (⟨hlt, -⟩ | ⟨hge', -⟩)
        · exact absurd hlt.1 hle
        · exact absurd hge' hge

/-- Node 2 leaves and node 3 comes: only the merge runs, and node 2 stays initialized. -/
theorem not_classified_exchange :
    netHandler {0, 1, 2} {0, 1, 3} = some .merge ∧ 2 ∉ ({0, 1, 3} : Finset ℕ) ∧
    2 ∈ ((parted {0, 1, 2} {0, 1, 2}).networkChange .sample .sample {0, 1, 3}).1.bmInit ∧
    ¬Classified .sample .sample (parted {0, 1, 2} {0, 1, 2}) {0, 1, 3} :=
  ⟨by decide, by decide, by decide, fun h => absurd (h.partition.2 (by decide)) (by decide)⟩

end MolIpc.Slots
