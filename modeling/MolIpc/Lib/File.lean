import Mathlib.Data.List.Basic
import Mathlib.Algebra.Notation.Defs
import Mathlib.Order.Lattice

/-!
Files as `pwrite` sees them: a size and the bytes below it. A sequence of writes leaves at each
address the byte of the last write that covers it (`File.byte_writeAll`).
-/

namespace Disk

variable {β : Type*}

structure Write (β : Type*) where
  off : ℕ
  data : List β
  deriving DecidableEq

namespace Write

def at? (w : Write β) (x : ℕ) : Option β := if w.off ≤ x then w.data[x - w.off]? else none

def stop (w : Write β) : ℕ := w.off + w.data.length

theorem at?_eq_none_of_stop_le {w : Write β} {x : ℕ} (h : w.stop ≤ x) : w.at? x = none := by
  unfold stop at h
  unfold at?
  rw [if_pos (by omega), List.getElem?_eq_none_iff]
  omega

theorem at?_eq_none_of_lt {w : Write β} {x : ℕ} (h : x < w.off) : w.at? x = none :=
  if_neg (by omega)

theorem at?_off_ne_none {w : Write β} (h : w.data ≠ []) : w.at? w.off ≠ none := by
  have := List.length_pos_of_ne_nil h
  simp only [at?, le_refl, if_true, Nat.sub_self, ne_eq, List.getElem?_eq_none_iff]
  omega

@[simp] theorem at?_nil (off x : ℕ) : (⟨off, []⟩ : Write β).at? x = none := by simp [at?]

end Write

def lastAt? (ws : List (Write β)) (x : ℕ) : Option β := ws.reverse.findSome? (·.at? x)

theorem lastAt?_append (ws us : List (Write β)) (x : ℕ) :
    lastAt? (ws ++ us) x = (lastAt? us x).or (lastAt? ws x) := by
  simp [lastAt?, List.findSome?_append]

@[simp] theorem lastAt?_singleton (w : Write β) (x : ℕ) : lastAt? [w] x = w.at? x := by
  simp [lastAt?]

theorem lastAt?_eq_none_iff {ws : List (Write β)} {x : ℕ} :
    lastAt? ws x = none ↔ ∀ w ∈ ws, w.at? x = none := by
  simp [lastAt?]

variable [Zero β]

/-- The contents of a file: its size, and its bytes with zeros from its end on. -/
@[ext] structure File (β : Type*) [Zero β] where
  size : ℕ
  byte : ℕ → β
  zero_of_size_le : ∀ x, size ≤ x → byte x = 0

namespace File

/-- `pwrite`: the file grows if the data end behind it; nothing happens if there are no data. -/
def pwrite (f : File β) (w : Write β) : File β where
  size := if w.data = [] then f.size else max f.size w.stop
  byte x := (w.at? x).getD (f.byte x)
  zero_of_size_le x h := by
    have hle : f.size ≤ x ∧ w.stop ≤ x ∨ w.data = [] ∧ f.size ≤ x := by
      split at h <;> rename_i hd
      · exact .inr ⟨hd, h⟩
      · exact .inl ⟨by omega, by omega⟩
    rcases hle with ⟨hf, hw⟩ | ⟨hd, hf⟩
    · rw [Write.at?_eq_none_of_stop_le hw]
      exact f.zero_of_size_le x hf
    · obtain ⟨off, data⟩ := w
      cases hd
      rw [Write.at?_nil]
      exact f.zero_of_size_le x hf

def writeAll (f : File β) (ws : List (Write β)) : File β := ws.foldl pwrite f

variable (f : File β) (ws us : List (Write β))

@[simp] theorem writeAll_nil : f.writeAll [] = f := rfl

@[simp] theorem writeAll_cons (w : Write β) : f.writeAll (w :: ws) = (f.pwrite w).writeAll ws := rfl

theorem writeAll_append : f.writeAll (ws ++ us) = (f.writeAll ws).writeAll us :=
  List.foldl_append

@[simp] theorem pwrite_nil (off : ℕ) : f.pwrite ⟨off, []⟩ = f := by
  ext
  · simp [pwrite]
  · simp [pwrite]

variable {ws} in
theorem writeAll_of_empty (h : ∀ w ∈ ws, w.data = []) : f.writeAll ws = f := by
  induction ws with
  | nil => rfl
  | cons w ws ih =>
    obtain ⟨off, data⟩ := w
    obtain ⟨hd, hws⟩ := List.forall_mem_cons.1 h
    cases hd
    rw [writeAll_cons, pwrite_nil, ih hws]

theorem byte_writeAll (x : ℕ) : (f.writeAll ws).byte x = (lastAt? ws x).getD (f.byte x) := by
  induction ws generalizing f with
  | nil => rfl
  | cons w ws ih =>
    rw [writeAll_cons, ih, ← List.singleton_append, lastAt?_append, lastAt?_singleton]
    cases lastAt? ws x with
    | none | some => rfl

end File

end Disk
