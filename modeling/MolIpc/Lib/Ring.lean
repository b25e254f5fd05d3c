import Mathlib.Data.Nat.Nth

/-!
Rings of numbers.

The numbers below `N` form a ring, in which 0 follows `N - 1`. A walk that goes from a member of a
set to the next member in the ring, again and again, comes to every member once before it is back.
-/

namespace RingWalk

/-- How far it is up to `b` from `a` in the ring of the numbers below `N`: all the way round if they
are the same. -/
def gap (N a b : ℕ) : ℕ := if a < b then b - a else b + N - a

/-- `b` is the first number with `p` after `a` in the ring. -/
structure Next (N : ℕ) (p : ℕ → Prop) (a b : ℕ) : Prop where
  mem : p b
  lt : b < N
  first : ∀ i, p i → i < N → gap N a b ≤ gap N a i

def walk {α : Type*} (next : α → Option α) (s : α) : ℕ → Option α
  | 0 => some s
  | k + 1 => (walk next s k).bind next

variable {N a b s t : ℕ} {p : ℕ → Prop}

/-! ### The way to a number -/

theorem gap_pos (ha : a < N) : 0 < gap N a b := by
  unfold gap
  split <;> omega

theorem gap_le (hb : b < N) : gap N a b ≤ N := by
  unfold gap
  split <;> omega

theorem add_gap (ha : a < N) (hb : b < N) : (a + gap N a b) % N = b := by
  unfold gap
  split
  · rw [Nat.add_sub_cancel' (by omega), Nat.mod_eq_of_lt hb]
  · rw [Nat.add_sub_cancel' (by omega), Nat.add_mod_right, Nat.mod_eq_of_lt hb]

theorem gap_add (ha : a < N) (h0 : 0 < t) (ht : t ≤ N) : gap N a ((a + t) % N) = t := by
  rcases Nat.lt_or_ge (a + t) N with h | h
  · rw [Nat.mod_eq_of_lt h, gap, if_pos (by omega)]
    omega
  · rw [Nat.mod_eq_sub_mod h, Nat.mod_eq_of_lt (by omega), gap, if_neg (by omega)]
    omega

theorem next_iff (ha : a < N) :
    Next N p a b ↔ ∃ t, 0 < t ∧ t ≤ N ∧ b = (a + t) % N ∧ p b ∧
      ∀ u, 0 < u → u < t → ¬ p ((a + u) % N) := by
  constructor
  · intro h
    refine ⟨gap N a b, gap_pos ha, gap_le h.lt, (add_gap ha h.lt).symm, h.mem, ?_⟩
    intro u h0 hu hp
    have hle := h.first _ hp (Nat.mod_lt _ (by omega))
    have hN := gap_le (a := a) h.lt
    rw [gap_add ha h0 (by omega)] at hle
    omega
  · rintro ⟨t, h0, ht, rfl, hp, hfirst⟩
    refine ⟨hp, Nat.mod_lt _ (by omega), fun i hi hlt => ?_⟩
    rw [gap_add ha h0 ht]
    by_contra hgap
    refine hfirst _ (gap_pos ha) (Nat.lt_of_not_le hgap) ?_
    rwa [add_gap ha hlt]

theorem exists_next (ha : a < N) (hp : p b) (hb : b < N) : ∃ b', Next N p a b' := by
  classical
  have h : ∃ t, 0 < t ∧ t ≤ N ∧ p ((a + t) % N) :=
    ⟨gap N a b, gap_pos ha, gap_le hb, by rwa [add_gap ha hb]⟩
  obtain ⟨h0, hN, hp'⟩ := Nat.find_spec h
  refine ⟨_, (next_iff ha).2 ⟨Nat.find h, h0, hN, rfl, hp', fun u hu0 hu hpu => ?_⟩⟩
  exact Nat.find_min h hu ⟨hu0, by omega, hpu⟩

theorem Next.only (ha : a < N) (h : Next N p a a) {i : ℕ} (hi : p i) (hlt : i < N) : i = a := by
  have hle := h.first i hi hlt
  unfold gap at hle
  split_ifs at hle <;> omega

/-! ### The walk -/

/-- There is a member at the distance `x` from `s`, rounds counted. -/
def At (N s : ℕ) (p : ℕ → Prop) (x : ℕ) : Prop := p ((s + x) % N)

theorem exists_distance (hs : s < N) (hb : b < N) : ∃ x < N, ∀ y < N, (s + y) % N = b ↔ y = x := by
  refine ⟨if s ≤ b then b - s else b + N - s, by split <;> omega, fun y hy => ?_⟩
  rcases Nat.lt_or_ge (s + y) N with h | h
  · rw [Nat.mod_eq_of_lt h]
    split <;> omega
  · rw [Nat.mod_eq_sub_mod h, Nat.mod_eq_of_lt (by omega)]
    split <;> omega

section Walk

variable (hs : p s) (hlt : s < N)

include hs hlt

theorem infinite_at : (Set.ofPred (At N s p)).Infinite := by
  refine Set.infinite_of_not_bddAbove fun ⟨B, hB⟩ => ?_
  have hround : At N s p (N * (B + 1)) := by
    rwa [At, Nat.add_mul_mod_self_left, Nat.mod_eq_of_lt hlt]
  have hle : N * (B + 1) ≤ B := hB hround
  have hge : 1 * (B + 1) ≤ N * (B + 1) := Nat.mul_le_mul_right _ (by omega)
  omega

theorem next_nth (k : ℕ) :
    Next N p ((s + Nat.nth (At N s p) k) % N) ((s + Nat.nth (At N s p) (k + 1)) % N) := by
  have hinf := infinite_at hs hlt
  have hk : At N s p (Nat.nth (At N s p) k) := Nat.nth_mem_of_infinite hinf k
  have hk' : At N s p (Nat.nth (At N s p) (k + 1)) := Nat.nth_mem_of_infinite hinf (k + 1)
  have hmono := Nat.nth_strictMono hinf (Nat.lt_succ_self k)
  have hbetween : ∀ x, x < Nat.nth (At N s p) (k + 1) → At N s p x → x ≤ Nat.nth (At N s p) k :=
    fun x => Nat.le_nth_of_lt_nth_succ
  generalize Nat.nth (At N s p) k = x at *
  generalize Nat.nth (At N s p) (k + 1) = y at *
  have hsum : ∀ u, ((s + x) % N + u) % N = (s + (x + u)) % N := fun u => by
    rw [Nat.mod_add_mod, Nat.add_assoc]
  -- the member at `x` itself comes again after one round
  have hround : y ≤ x + N := by
    by_contra h
    have hle := hbetween (x + N) (by omega) (by rwa [At, ← Nat.add_assoc, Nat.add_mod_right])
    omega
  refine (next_iff (Nat.mod_lt _ (by omega))).2 ⟨y - x, by omega, by omega, ?_, hk', ?_⟩
  · rw [hsum, Nat.add_sub_cancel' (by omega)]
  · intro u h0 hu hp
    rw [hsum] at hp
    have hle := hbetween (x + u) (by omega) hp
    omega

variable {next : ℕ → Option ℕ} (hnext : ∀ {a b}, a < N → Next N p a b → next a = some b)

include hnext

theorem walk_eq (k : ℕ) : walk next s k = some ((s + Nat.nth (At N s p) k) % N) := by
  induction k with
  | zero =>
    have h0 : At N s p 0 := by rwa [At, Nat.add_zero, Nat.mod_eq_of_lt hlt]
    rw [walk, Nat.nth_zero_of_zero h0, Nat.add_zero, Nat.mod_eq_of_lt hlt]
  | succ k ih =>
    rw [walk, ih, Option.bind_some]
    exact hnext (Nat.mod_lt _ (by omega)) (next_nth hs hlt k)

/-- **The walk from a member goes through the members, each of them once, and is back.** -/
theorem walk_round :
    ∃ m, 0 < m ∧ walk next s m = some s ∧ (∀ k, ∃ i, walk next s k = some i ∧ p i ∧ i < N) ∧
      ∀ i, p i → i < N → ∃! k, k < m ∧ walk next s k = some i := by
  classical
  have hinf := infinite_at hs hlt
  have h0 : At N s p 0 := by rwa [At, Nat.add_zero, Nat.mod_eq_of_lt hlt]
  have hN : At N s p N := by rwa [At, Nat.add_mod_right, Nat.mod_eq_of_lt hlt]
  refine ⟨Nat.count (At N s p) N, ?_, ?_, fun k => ?_, fun i hi hlti => ?_⟩
  · exact Nat.count_strict_mono h0 (by omega)
  · rw [walk_eq hs hlt hnext, Nat.nth_count hN, Nat.add_mod_right, Nat.mod_eq_of_lt hlt]
  · exact ⟨_, walk_eq hs hlt hnext k, Nat.nth_mem_of_infinite hinf k, Nat.mod_lt _ (by omega)⟩
  · obtain ⟨x, hxN, hx⟩ := exists_distance hlt hlti
    have hat : At N s p x := by rwa [At, (hx x hxN).2 rfl]
    refine ⟨Nat.count (At N s p) x, ⟨Nat.count_strict_mono hat hxN, ?_⟩, ?_⟩
    · rw [walk_eq hs hlt hnext, Nat.nth_count hat, (hx x hxN).2 rfl]
    · rintro k ⟨hk, hw⟩
      rw [walk_eq hs hlt hnext, Option.some.injEq] at hw
      have hkx := (hx _ (Nat.nth_lt_of_lt_count hk)).1 hw
      rw [← hkx, Nat.count_nth_of_infinite hinf]

end Walk

end RingWalk
