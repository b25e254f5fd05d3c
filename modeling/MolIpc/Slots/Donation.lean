import MolIpc.Slots.Accounting
import Mathlib.Data.Rat.Floor

/-!
What a member donates (`sp_req_slots`).

The quantity is a minimum of what a message can carry, the share of the member in the request and
what it has above `free_slots_low`; the slots are the first free ones that it owns. The counter
`free_slots` alone decides how many slots are promised, so that the search finds as many as were
promised only because it counts right.
-/

namespace MolIpc

namespace Slots

theorem ceiling_eq_ceil {x y : ℤ} (hx : 0 ≤ x) (hy : 0 < y) : ceiling x y = ⌈(x : ℚ) / y⌉ := by
  have hyq : (0 : ℚ) < y := by exact_mod_cast hy
  have hceil : ∀ z : ℤ, (z - 1) * y < x → x ≤ z * y → z = ⌈(x : ℚ) / y⌉ := by
    intro z hlt hle
    symm
    rw [Int.ceil_eq_iff, div_le_iff₀ hyq, lt_div_iff₀ hyq]
    exact ⟨by exact_mod_cast hlt, by exact_mod_cast hle⟩
  have hdiv := Int.mul_ediv_add_emod x y
  have hlt := Int.emod_lt_of_pos x hy
  have hnn := Int.emod_nonneg x hy.ne'
  rw [ceiling, Int.tdiv_eq_ediv_of_nonneg hx, Int.tmod_eq_emod_of_nonneg hx]
  split
  · rename_i hr
    have hpos : 0 < x % y := lt_of_le_of_ne hnn (Ne.symm hr)
    refine hceil _ ?_ ?_ <;> linarith
  · rename_i hr
    rw [not_not] at hr
    refine hceil _ ?_ ?_ <;> linarith

namespace Node

variable {c : Conf} {n : Node} {requester : ℕ} {needed nr : ℤ}

/-- `free_slots` counts the free shared slots that the node owns. -/
def FreeCounted (c : Conf) (n : Node) : Prop := n.freeSlots = (c.shared.filter n.Avail).card

instance (c : Conf) (n : Node) : Decidable (n.FreeCounted c) :=
  inferInstanceAs (Decidable (_ = _))

/-- What is promised to a request: nothing by a member that waits for donations itself. -/
def promised (c : Conf) (n : Node) (needed : ℤ) : ℤ :=
  if n.bmDonors ≠ ∅ then 0
  else min slotsByMsg (min ⌈(needed : ℚ) / (n.initNodes - 1 : ℤ)⌉
    (max 0 (n.freeSlots - c.freeSlotsLow)))

/-- The slots `given` go from the node to `requester`, and the node becomes `n'`. -/
structure HandsOver (c : Conf) (requester : ℕ) (given : List ℕ) (n n' : Node) : Prop where
  nodup : given.Nodup
  avail (i : ℕ) : i ∈ given → c.dcNrSysprocs ≤ i ∧ i < c.nrSlots ∧ n.Avail i
  slot (i : ℕ) : n'.slot i =
    if i ∈ given then { n.slot i with owner := some requester, donating := true } else n.slot i
  free : n'.freeSlots = n.freeSlots - given.length
  owned : n'.ownedSlots = n.ownedSlots - given.length
  low : min n.freeSlots c.freeSlotsLow ≤ n'.freeSlots
  counted : n'.FreeCounted c

structure SameSlots (n n' : Node) : Prop where
  slot : n'.slot = n.slot
  free : n'.freeSlots = n.freeSlots
  owned : n'.ownedSlots = n.ownedSlots

/-- Nothing is multicast and nothing given, or a donation with the promised number of slots. -/
def Donates (c : Conf) (n : Node) (requester : ℕ) (needed : ℤ) (r : Node × List Msg) : Prop :=
  r.2 = [] ∧ SameSlots n r.1 ∨
    ∃ ia : List ℕ, r.2 = [.donSlots requester (n.promised c needed) ia] ∧
      (ia.take (n.promised c needed).toNat).length = n.promised c needed ∧
      HandsOver c requester (ia.take (n.promised c needed).toNat) n r.1

theorem freeSlotsLow_nonneg (c : Conf) : 0 ≤ c.freeSlotsLow := by
  have := c.sysprocs_lt
  unfold Conf.freeSlotsLow Conf.minOwnedSlots Conf.allSlots Conf.nrSlots
  exact Int.ediv_nonneg (Int.ediv_nonneg (by omega) (by omega)) (by decide)

theorem length_freeOwned (h : n.FreeCounted c) : ((n.freeOwned c).length : ℤ) = n.freeSlots := by
  have hset : (n.freeOwned c).toFinset = c.shared.filter n.Avail := by
    ext i
    rw [List.mem_toFinset, mem_freeOwned, Finset.mem_filter]
  rw [h, ← hset, List.toFinset_card_of_nodup nodup_freeOwned]

theorem FreeCounted.give {given : List ℕ} (h : n.FreeCounted c) (hnd : given.Nodup)
    (hg : ∀ i ∈ given, i ∈ n.freeOwned c) : (n.give requester given).FreeCounted c := by
  have hfree : ∀ i ∈ given, i ∈ c.shared ∧ n.Avail i := fun i hi => mem_freeOwned.1 (hg i hi)
  have hcard : (c.shared.filter n.Avail).card =
      (c.shared.filter (n.give requester given).Avail).card + given.toFinset.card := by
    refine card_filter_gain (fun i hi => (hfree i (List.mem_toFinset.1 hi)).1) (fun i hi => ?_)
      fun i _ => ?_
    · simp [Avail, Node.give, List.mem_toFinset.1 hi]
    · rw [List.mem_toFinset]
      by_cases hi : i ∈ given
      · simp [hi, (hfree i hi).2]
      · simp [Avail, Owns, Node.give, hi]
  rw [List.toFinset_card_of_nodup hnd] at hcard
  have := h
  unfold FreeCounted at this ⊢
  change n.freeSlots - given.length = _
  omega

theorem handsOver_give (requester : ℕ) (h : n.FreeCounted c) (h0 : 0 ≤ nr)
    (hs : nr ≤ max 0 (n.freeSlots - c.freeSlotsLow)) :
    ((n.freeOwned c).take nr.toNat).length = nr ∧
      HandsOver c requester ((n.freeOwned c).take nr.toNat) n
        (n.give requester ((n.freeOwned c).take nr.toNat)) := by
  have hlow := freeSlotsLow_nonneg c
  have hall := length_freeOwned h
  have hlen : (((n.freeOwned c).take nr.toNat).length : ℤ) = nr := by
    rw [List.length_take]
    omega
  have hnd : ((n.freeOwned c).take nr.toNat).Nodup :=
    nodup_freeOwned.sublist (List.take_sublist _ _)
  have hmem : ∀ i ∈ (n.freeOwned c).take nr.toNat, i ∈ n.freeOwned c := fun _ hi =>
    List.mem_of_mem_take hi
  refine ⟨hlen, hnd, fun i hi => ?_, fun _ => rfl, rfl, rfl, ?_, h.give hnd hmem⟩
  · obtain ⟨hshared, havail⟩ := mem_freeOwned.1 (hmem i hi)
    obtain ⟨hge, hlt⟩ := Finset.mem_Ico.1 hshared
    exact ⟨hge, hlt, havail⟩
  · change _ ≤ n.freeSlots - _
    rw [hlen]
    omega

theorem reply_donates {donated : ℤ} (h : n.FreeCounted c) (h0 : 0 ≤ donated)
    (hs : donated ≤ max 0 (n.freeSlots - c.freeSlotsLow))
    (hp : (if slotsByMsg < donated then (slotsByMsg : ℤ) else donated) = n.promised c needed) :
    Donates c n requester needed (n.reply c requester donated) := by
  unfold reply
  split
  · exact .inl ⟨rfl, rfl, rfl, rfl⟩
  rw [hp]
  have hbound : 0 ≤ n.promised c needed ∧
      n.promised c needed ≤ max 0 (n.freeSlots - c.freeSlotsLow) := by
    rw [← hp]
    split <;> omega
  obtain ⟨hlen, hover⟩ := handsOver_give requester h hbound.1 hbound.2
  refine .inr ⟨_, rfl, ?_⟩
  have htake : ((n.freeOwned c).take (n.promised c needed).toNat ++ List.replicate
      (slotsByMsg - ((n.freeOwned c).take (n.promised c needed).toNat).length) 0).take
        (n.promised c needed).toNat = (n.freeOwned c).take (n.promised c needed).toNat :=
    List.take_left' (by omega)
  rw [htake]
  exact ⟨hlen, hover⟩

/-- **Donations are well formed and bounded.** -/
theorem spReqSlots_donates (c : Conf) (n : Node) (requester : ℕ) (needed : ℤ)
    (hcount : n.FreeCounted c) (hneed : 0 < needed) :
    Donates c n requester needed (n.spReqSlots c requester needed) := by
  have hnone : ∀ {m : Node}, SameSlots n m → Donates c n requester needed (m, []) := fun h =>
    .inl ⟨rfl, h⟩
  unfold spReqSlots
  split
  · exact hnone ⟨rfl, rfl, rfl⟩
  split
  · exact hnone ⟨rfl, rfl, rfl⟩
  split
  · exact hnone ⟨rfl, rfl, rfl⟩
  split
  · rename_i hdonors
    split
    · exact hnone ⟨rfl, rfl, rfl⟩
    · refine reply_donates hcount le_rfl (le_max_left _ _) ?_
      rw [promised, if_pos hdonors]
      rfl
  split
  · exact hnone ⟨rfl, rfl, rfl⟩
  rename_i hdonors hnodes
  rw [not_le] at hnodes
  have hceil := ceiling_eq_ceil hneed.le hnodes
  have hpos : 0 < ceiling needed (n.initNodes - 1) := by
    rw [hceil, Int.ceil_pos]
    exact div_pos (by exact_mod_cast hneed) (by exact_mod_cast hnodes)
  have hdon : n.donation c needed = min (ceiling needed (n.initNodes - 1))
      (max 0 (n.freeSlots - c.freeSlotsLow)) := by
    unfold donation
    dsimp only
    split_ifs <;> omega
  refine reply_donates hcount ?_ ?_ ?_
  · rw [hdon]
    omega
  · rw [hdon]
    exact min_le_right _ _
  · rw [promised, if_neg hdonors, ← hceil, hdon]
    split <;> omega

def rich : Node :=
  { init .sample 0 with
    fsm := .running
    initNodes := 2
    bmInit := {0, 1}
    slot := fun _ => ⟨noneEp, false, false, some 0⟩
    freeSlots := 8
    ownedSlots := 8 }

theorem spReqSlots_donates_rich :
    rich.FreeCounted .sample ∧
      (rich.spReqSlots .sample 1 5).2 = [.donSlots 1 4 [2, 3, 4, 5]] ∧
      Donates .sample rich 1 5 (rich.spReqSlots .sample 1 5) :=
  have hcount : rich.FreeCounted .sample := by decide
  ⟨hcount, rfl, spReqSlots_donates .sample rich 1 5 hcount (by decide)⟩

end Node

end Slots

end MolIpc
