import MolIpc.Slots.Node
import MolIpc.Lib.Ring

/-!
The ring of the members (`get_next_mbr`), which says who must answer a request for slots. The loop
is the one of the source, for any number of nodes.
-/

namespace MolIpc

namespace Slots

/-- The loop of `get_next_mbr`, with `i` turns to go. -/
def nextMbrLoop (dcNrNodes : ℕ) (bm : Finset ℕ) : ℕ → ℕ → Option ℕ
  | 0, _ => none
  | i + 1, nxMbr =>
    let nxMbr := (nxMbr + 1) % dcNrNodes
    if nxMbr ∈ bm then some nxMbr else nextMbrLoop dcNrNodes bm i nxMbr

/-- `get_next_mbr`; `none` is `NO_NEXT_MBR`. -/
def nextMbr (dcNrNodes : ℕ) (node : Option ℕ) (bm : Finset ℕ) : Option ℕ :=
  if bm = ∅ then none else nextMbrLoop dcNrNodes bm dcNrNodes (node.getD 0)

variable {dcNrNodes n b : ℕ} {bm : Finset ℕ}

theorem turn_mod (nxMbr u : ℕ) :
    ((nxMbr + 1) % dcNrNodes + u) % dcNrNodes = (nxMbr + (u + 1)) % dcNrNodes := by
  rw [Nat.mod_add_mod, Nat.add_assoc, Nat.add_comm 1]

theorem nextMbrLoop_eq_find (i nxMbr : ℕ) :
    nextMbrLoop dcNrNodes bm i nxMbr =
      ((List.range i).map fun k => (nxMbr + k + 1) % dcNrNodes).find? (· ∈ bm) := by
  induction i generalizing nxMbr with
  | zero => rfl
  | succ i ih =>
    simp only [nextMbrLoop, ih, List.range_succ_eq_map, List.map_cons, List.map_map,
      List.find?_cons, Function.comp_def, Nat.add_assoc, turn_mod]
    by_cases h : (nxMbr + 1) % dcNrNodes ∈ bm
    · simp [h]
    · simp [h]

theorem getNextMbr_eq (c : Conf) (node : Option ℕ) :
    getNextMbr c node bm = nextMbr c.dcNrNodes node bm := by
  rw [getNextMbr, nextMbr, nextMbrLoop_eq_find]

theorem nextMbrLoop_eq_some (i nxMbr : ℕ) :
    nextMbrLoop dcNrNodes bm i nxMbr = some b ↔
      ∃ t, 0 < t ∧ t ≤ i ∧ b = (nxMbr + t) % dcNrNodes ∧ b ∈ bm ∧
        ∀ u, 0 < u → u < t → (nxMbr + u) % dcNrNodes ∉ bm := by
  induction i generalizing nxMbr with
  | zero =>
    constructor
    · intro h
      cases h
    · rintro ⟨t, h0, ht, -⟩
      omega
  | succ i ih =>
    by_cases h : (nxMbr + 1) % dcNrNodes ∈ bm
    · rw [nextMbrLoop, if_pos h, Option.some.injEq]
      constructor
      · rintro rfl
        exact ⟨1, by omega, by omega, rfl, h, fun u h0 hu => by omega⟩
      · rintro ⟨t, h0, -, rfl, -, hfirst⟩
        have ht : t = 1 := by
          by_contra ht
          exact hfirst 1 (by omega) (by omega) h
        rw [ht]
    · rw [nextMbrLoop, if_neg h, ih]
      constructor
      · rintro ⟨t, h0, ht, hb, hmem, hfirst⟩
        refine ⟨t + 1, by omega, by omega, hb.trans (turn_mod nxMbr t), hmem, fun u hu0 hu => ?_⟩
        obtain ⟨v, rfl⟩ := Nat.exists_eq_add_of_le' hu0
        rcases Nat.eq_zero_or_pos v with rfl | hv
        · exact h
        · rw [← turn_mod]
          exact hfirst v hv (by omega)
      · rintro ⟨t, h0, ht, hb, hmem, hfirst⟩
        obtain ⟨v, rfl⟩ := Nat.exists_eq_add_of_le' h0
        rcases Nat.eq_zero_or_pos v with rfl | hv
        · exact absurd (hb ▸ hmem) h
        · refine ⟨v, hv, by omega, hb.trans (turn_mod nxMbr v).symm, hmem, fun u hu0 hu => ?_⟩
          rw [turn_mod]
          exact hfirst (u + 1) (by omega) (by omega)

theorem nextMbr_eq_some {node : Option ℕ} (h0 : 0 < dcNrNodes) :
    nextMbr dcNrNodes node bm = some b ↔
      RingWalk.Next dcNrNodes (· ∈ bm) (node.getD 0 % dcNrNodes) b := by
  simp only [RingWalk.next_iff (Nat.mod_lt _ h0), Nat.mod_add_mod]
  rw [← nextMbrLoop_eq_some, nextMbr]
  split
  · rename_i he
    simp [he, nextMbrLoop_eq_find]
  · rfl

theorem nextMbr_eq_none (hn : n < dcNrNodes) :
    nextMbr dcNrNodes (some n) bm = none ↔ ∀ i ∈ bm, ¬ i < dcNrNodes := by
  have h0 : 0 < dcNrNodes := by omega
  constructor
  · intro h i hi hlt
    obtain ⟨j, hj⟩ := RingWalk.exists_next (Nat.mod_lt n h0) hi hlt
    have hnext : nextMbr dcNrNodes (some n) bm = some j := (nextMbr_eq_some h0).2 hj
    rw [h] at hnext
    cases hnext
  · intro h
    cases hnext : nextMbr dcNrNodes (some n) bm with
    | none => rfl
    | some j =>
      have hj := (nextMbr_eq_some h0).1 hnext
      exact absurd hj.lt (h j hj.mem)

/-- **The ring of the members.** The next member is the first one after the node in the ring of the
nodes, the node itself if there is no other, and there is none if no node is a member; repeated
calls from a member go round through all of them, and all nodes with the bitmap agree. -/
theorem nextMbr_successor (bm : Finset ℕ) (hn : n < dcNrNodes) :
    (∀ j, nextMbr dcNrNodes (some n) bm = some j ↔ RingWalk.Next dcNrNodes (· ∈ bm) n j) ∧
    (nextMbr dcNrNodes (some n) bm = some n → ∀ i ∈ bm, i < dcNrNodes → i = n) ∧
    (nextMbr dcNrNodes (some n) bm = none ↔ ∀ i ∈ bm, ¬ i < dcNrNodes) ∧
    (n ∈ bm → ∃ m, 0 < m ∧
      RingWalk.walk (fun k => nextMbr dcNrNodes (some k) bm) n m = some n ∧
      (∀ k, ∃ i, RingWalk.walk (fun k => nextMbr dcNrNodes (some k) bm) n k = some i ∧
        i ∈ bm ∧ i < dcNrNodes) ∧
      ∀ i ∈ bm, i < dcNrNodes →
        ∃! k, k < m ∧ RingWalk.walk (fun k => nextMbr dcNrNodes (some k) bm) n k = some i) ∧
    ∀ (c : Conf) (x : Node), c.dcNrNodes = dcNrNodes → x.bmInit = bm →
      getNextMbr c (some n) x.bmInit = nextMbr dcNrNodes (some n) bm := by
  have hnext : ∀ {k j}, k < dcNrNodes →
      (nextMbr dcNrNodes (some k) bm = some j ↔ RingWalk.Next dcNrNodes (· ∈ bm) k j) := by
    intro k j hk
    rw [nextMbr_eq_some (by omega), Option.getD_some, Nat.mod_eq_of_lt hk]
  refine ⟨fun j => hnext hn, fun h i hi hlt => ?_, nextMbr_eq_none hn, fun hmem => ?_, ?_⟩
  · exact ((hnext hn).1 h).only hn hi hlt
  · exact RingWalk.walk_round hmem hn fun ha => (hnext ha).2
  · rintro c x rfl rfl
    exact getNextMbr_eq c (some n)

theorem nextMbr_successor_sample :
    (1 < 4) ∧ RingWalk.Next 4 (· ∈ ({0, 1} : Finset ℕ)) 1 0 :=
  ⟨by decide, ((nextMbr_successor {0, 1} (by decide)).1 0).1 (by decide)⟩

end Slots

end MolIpc
