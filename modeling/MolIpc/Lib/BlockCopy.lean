import Mathlib.Tactic.Common

/-!
Copies of blocks of memory. A memory gives a content to each address; the bytes of a block are
numbered, and their addresses need not follow each other. A copy in pieces is a copy
(`Copied.append`) if the two blocks have no address in common.
-/

namespace BlockCopy

variable {α β : Type*}

/-- The first `n` bytes of the block `d` have got those of the block `s`, and nothing else has
changed. -/
structure Copied (s d : ℕ → α) (n : ℕ) (m m' : α → β) : Prop where
  copied (k : ℕ) : k < n → m' (d k) = m (s k)
  frame (a : α) : (∀ k < n, a ≠ d k) → m' a = m a

structure Apart (s d : ℕ → α) (n : ℕ) : Prop where
  disjoint (i j : ℕ) : i < n → j < n → s i ≠ d j
  inj (i j : ℕ) : i < n → j < n → d i = d j → i = j

section Copied

variable {s d : ℕ → α} {m m' m'' : α → β} {n p : ℕ}

theorem Copied.zero (s d : ℕ → α) (m : α → β) : Copied s d 0 m m := ⟨nofun, fun _ _ => rfl⟩

theorem Apart.mono (h : Apart s d n) (hp : p ≤ n) : Apart s d p :=
  ⟨fun i j hi hj => h.disjoint i j (by omega) (by omega),
    fun i j hi hj => h.inj i j (by omega) (by omega)⟩

theorem Apart.shift (h : Apart s d (p + n)) : Apart (fun k => s (p + k)) (fun k => d (p + k)) n := by
  refine ⟨fun i j hi hj => h.disjoint _ _ (by omega) (by omega), fun i j hi hj hd => ?_⟩
  have := h.inj _ _ (by omega) (by omega) hd
  omega

theorem Copied.append (h : Copied s d p m m') (ha : Apart s d (p + n))
    (h' : Copied (fun k => s (p + k)) (fun k => d (p + k)) n m' m'') : Copied s d (p + n) m m'' := by
  constructor
  · intro k hk
    by_cases hp : k < p
    · -- the second piece is elsewhere
      rw [h'.frame, h.copied k hp]
      intro j hj hd
      have := ha.inj _ _ hk (by omega) hd
      omega
    · -- its source has not been written by the first piece
      have hsrc : m' (s k) = m (s k) :=
        h.frame _ fun j hj => ha.disjoint k j hk (by omega)
      have hcopy := h'.copied (k - p) (by omega)
      rw [show p + (k - p) = k by omega] at hcopy
      rw [hcopy, hsrc]
  · intro a hout
    rw [h'.frame a fun k hk => hout _ (by omega), h.frame a fun k hk => hout _ (by omega)]

end Copied

/-! ### Contiguous pieces -/

/-- `memcpy`: `len` bytes from `src` on go to `dst` and behind. -/
def memcpy (dst src len : ℕ) (m : ℕ → β) : ℕ → β := fun a =>
  if dst ≤ a ∧ a < dst + len then m (src + (a - dst)) else m a

variable {dst src len : ℕ} {m : ℕ → β}

theorem memcpy_of_lt {a : ℕ} (h : a < dst) : memcpy dst src len m a = m a := by
  unfold memcpy
  rw [if_neg (by omega)]

theorem copied_memcpy {s d : ℕ → ℕ} (hs : ∀ k < len, s k = src + k) (hd : ∀ k < len, d k = dst + k) :
    Copied s d len m (memcpy dst src len m) := by
  constructor
  · intro k hk
    unfold memcpy
    rw [hs k hk, hd k hk, if_pos (by omega), Nat.add_sub_cancel_left]
  · intro a ha
    refine if_neg fun h => ha (a - dst) (by omega) ?_
    rw [hd _ (by omega)]
    omega

end BlockCopy
