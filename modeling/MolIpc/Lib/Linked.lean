import Mathlib.Data.List.Sort
import Mathlib.Logic.Function.Basic

/-!
Lists whose entries are linked through a field of their own: the head pointer and the link of every
entry (`Links`), the entries that they link (`Links.Holds`), and the two loops over a pointer to a
pointer that take an entry out (`Links.unlink`) and put one in (`Links.link`).
-/

namespace Linked

/-- A head pointer and the link of every entry, in the list or not. -/
structure Links (ι : Type*) where
  head : Option ι
  next : ι → Option ι

/-- The places where a link is kept. -/
inductive Ref (ι : Type*)
  | head
  | next (i : ι)

variable {ι : Type*}

/-! ### Chains -/

/-- `l` is linked from `p` on, and the link of its last entry is `q`. -/
def Seg (next : ι → Option ι) : Option ι → List ι → Option ι → Prop
  | p, [], q => p = q
  | p, i :: l, q => p = some i ∧ Seg next (next i) l q

def Links.Holds (h : Links ι) (l : List ι) : Prop := Seg h.next h.head l none

section Seg

variable {next next' : ι → Option ι} {p q : Option ι} {l l' : List ι} {i : ι}

theorem Seg.append_iff : Seg next p (l ++ l') q ↔ ∃ m, Seg next p l m ∧ Seg next m l' q := by
  induction l generalizing p with
  | nil => simp [Seg]
  | cons i l ih =>
    simp only [List.cons_append, Seg, ih]
    constructor
    · rintro ⟨hp, m, h1, h2⟩
      exact ⟨m, ⟨hp, h1⟩, h2⟩
    · rintro ⟨m, ⟨hp, h1⟩, h2⟩
      exact ⟨hp, m, h1, h2⟩

theorem Seg.congr (h : Seg next p l q) (hn : ∀ i ∈ l, next' i = next i) : Seg next' p l q := by
  induction l generalizing p with
  | nil => exact h
  | cons i l ih =>
    refine ⟨h.1, ?_⟩
    rw [hn i (by simp)]
    exact ih h.2 fun j hj => hn j (by simp [hj])

theorem Seg.unique (h : Seg next p l none) (h' : Seg next p l' none) : l = l' := by
  induction l generalizing p l' with
  | nil =>
    cases l' with
    | nil => rfl
    | cons j l' =>
      have : p = some j := h'.1
      simp [show p = none from h] at this
  | cons i l ih =>
    cases l' with
    | nil =>
      have : p = some i := h.1
      simp [show p = none from h'] at this
    | cons j l' =>
      obtain rfl : i = j := Option.some.inj (h.1.symm.trans h'.1)
      rw [ih h.2 h'.2]

theorem Seg.nodup (h : Seg next p l none) : l.Nodup := by
  induction l generalizing p with
  | nil => exact List.nodup_nil
  | cons i l ih =>
    refine List.nodup_cons.mpr ⟨fun hi => ?_, ih h.2⟩
    -- from a second `i` on the list would be what it is from the first one on
    obtain ⟨a, b, rfl⟩ := List.append_of_mem hi
    obtain ⟨m, -, hb⟩ := Seg.append_iff.mp h.2
    have hlen := congrArg List.length (Seg.unique h.2 hb.2)
    simp only [List.length_append, List.length_cons] at hlen
    omega

end Seg

/-! ### Following and changing the links -/

section Loops

variable [DecidableEq ι] {h : Links ι} {l l₁ l₂ l₃ : List ι} {p : Option ι} {x : ι} {fuel : ℕ}

def Links.load (h : Links ι) : Ref ι → Option ι
  | .head => h.head
  | .next i => h.next i

def Links.store (h : Links ι) : Ref ι → Option ι → Links ι
  | .head, p => { h with head := p }
  | .next i, p => { h with next := Function.update h.next i p }

def Ref.behind (l : List ι) : Ref ι :=
  match l.getLast? with
  | none => .head
  | some i => .next i

omit [DecidableEq ι] in
@[simp] theorem Ref.behind_nil : Ref.behind ([] : List ι) = .head := rfl

omit [DecidableEq ι] in
@[simp] theorem Ref.behind_concat (l : List ι) (i : ι) : Ref.behind (l ++ [i]) = .next i := by
  simp [Ref.behind]

omit [DecidableEq ι] in
theorem Links.Holds.load_behind (hl : h.Holds (l₁ ++ l₂)) : h.load (.behind l₁) = l₂.head? := by
  obtain ⟨m, h1, h2⟩ := Seg.append_iff.mp hl
  have hm : m = l₂.head? := by
    cases l₂ with
    | nil => exact h2
    | cons j l₂ => exact h2.1
  rcases l₁.eq_nil_or_concat' with rfl | ⟨l, i, rfl⟩
  · exact (show h.head = m from h1).trans hm
  · obtain ⟨_, -, -, h1'⟩ := Seg.append_iff.mp h1
    simpa [load, hm, Seg] using h1'

theorem Links.Holds.store_behind (hl : h.Holds (l₁ ++ l₂)) (hp : Seg h.next p l₃ none)
    (hd : ∀ i ∈ l₃, i ∉ l₁) : (h.store (.behind l₁) p).Holds (l₁ ++ l₃) := by
  rcases l₁.eq_nil_or_concat' with rfl | ⟨l, i, rfl⟩
  · exact hp
  · have hnd := Seg.nodup hl
    obtain ⟨m, h1, h2⟩ := Seg.append_iff.mp hl
    obtain ⟨m', h1, hi, -⟩ := Seg.append_iff.mp h1
    have hil : i ∉ l := fun hi' => by
      simp only [List.append_assoc] at hnd
      exact (List.nodup_append.mp hnd).2.2 i hi' i (by simp) rfl
    have hne : ∀ j, j ≠ i → Function.update h.next i p j = h.next j := fun j hj =>
      Function.update_of_ne hj _ _
    simp only [Ref.behind_concat, store, Holds]
    refine Seg.append_iff.mpr ⟨p, Seg.append_iff.mpr ⟨some i, ?_, rfl, ?_⟩, ?_⟩
    · rw [← hi]
      exact h1.congr fun j hj => hne j fun hji => hil (hji ▸ hj)
    · simp [Seg]
    · exact hp.congr fun j hj => hne j fun hji => hd j hj (by simp [hji])

/-- The loop that looks for an entry and takes it out, for at most `fuel` turns. -/
def Links.unlink (h : Links ι) (x : ι) : ℕ → Ref ι → Option (Links ι)
  | 0, _ => none
  | fuel + 1, r =>
    match h.load r with
    | none => some h
    | some i => if i = x then some (h.store r (h.next x)) else h.unlink x fuel (.next i)

/-- The loop puts `x` before the first entry before which it belongs, for at most `fuel` turns. -/
def Links.link (h : Links ι) (r : ι → ι → Prop) [DecidableRel r] (x : ι) :
    ℕ → Ref ι → Option (Links ι)
  | 0, _ => none
  | fuel + 1, s =>
    match h.load s with
    | none => some ((h.store (.next x) none).store s (some x))
    | some i =>
      if r x i then some ((h.store (.next x) (some i)).store s (some x))
      else h.link r x fuel (.next i)

theorem Links.Holds.unlink (hl : h.Holds (l₁ ++ l₂)) (hf : l₂.length < fuel) (hx : x ∉ l₁) :
    ∃ h', h.unlink x fuel (.behind l₁) = some h' ∧ h'.Holds (l₁ ++ l₂.erase x) := by
  induction l₂ generalizing l₁ fuel with
  | nil =>
    obtain ⟨fuel, rfl⟩ := Nat.exists_eq_add_one_of_ne_zero (Nat.ne_of_gt hf)
    refine ⟨h, ?_, hl⟩
    rw [Links.unlink, hl.load_behind]
    rfl
  | cons i l₂ ih =>
    obtain ⟨fuel, rfl⟩ := Nat.exists_eq_add_one_of_ne_zero (Nat.ne_of_gt (Nat.zero_lt_of_lt hf))
    rw [Links.unlink, hl.load_behind]
    dsimp only [List.head?_cons]
    by_cases hi : i = x
    · subst hi
      rw [if_pos rfl, List.erase_cons_head]
      obtain ⟨m, -, hm⟩ := Seg.append_iff.mp hl
      refine ⟨_, rfl, hl.store_behind hm.2 fun j hj hj' => ?_⟩
      exact (List.nodup_append.mp (Seg.nodup hl)).2.2 j hj' j (by simp [hj]) rfl
    · rw [if_neg hi, List.erase_cons_tail (by simpa using hi)]
      have hl' : h.Holds ((l₁ ++ [i]) ++ l₂) := by simpa using hl
      obtain ⟨h', hu, hh⟩ := ih hl' (by simpa using hf) (by simpa [hx] using Ne.symm hi)
      rw [Ref.behind_concat] at hu
      exact ⟨h', hu, by simpa using hh⟩

theorem Links.Holds.insert (hl : h.Holds (l₁ ++ l₂)) (hx : x ∉ l₁ ++ l₂) :
    ((h.store (.next x) l₂.head?).store (.behind l₁) (some x)).Holds (l₁ ++ x :: l₂) := by
  have hne : ∀ j ∈ l₁ ++ l₂, Function.update h.next x l₂.head? j = h.next j := by
    rintro j hj
    exact Function.update_of_ne (fun hji : j = x => hx (hji ▸ hj)) _ _
  have hl' : (h.store (.next x) l₂.head?).Holds (l₁ ++ l₂) := Seg.congr hl hne
  refine hl'.store_behind ⟨rfl, ?_⟩ fun j hj => ?_
  · obtain ⟨m, -, hm⟩ := Seg.append_iff.mp hl'
    have hm' : m = l₂.head? := by
      cases l₂ with
      | nil => exact hm
      | cons j l₂ => exact hm.1
    simpa [store, ← hm'] using hm
  · rcases List.mem_cons.mp hj with rfl | hj
    · exact fun h1 => hx (List.mem_append_left _ h1)
    · exact fun h1 => (List.nodup_append.mp (Seg.nodup hl)).2.2 j h1 j hj rfl

theorem Links.Holds.link {r : ι → ι → Prop} [DecidableRel r] (hl : h.Holds (l₁ ++ l₂))
    (hf : l₂.length < fuel) (hx : x ∉ l₁ ++ l₂) :
    ∃ h', h.link r x fuel (.behind l₁) = some h' ∧ h'.Holds (l₁ ++ l₂.orderedInsert r x) := by
  induction l₂ generalizing l₁ fuel with
  | nil =>
    obtain ⟨fuel, rfl⟩ := Nat.exists_eq_add_one_of_ne_zero (Nat.ne_of_gt hf)
    rw [Links.link, hl.load_behind]
    exact ⟨_, rfl, hl.insert hx⟩
  | cons i l₂ ih =>
    obtain ⟨fuel, rfl⟩ := Nat.exists_eq_add_one_of_ne_zero (Nat.ne_of_gt (Nat.zero_lt_of_lt hf))
    rw [Links.link, hl.load_behind]
    dsimp only [List.head?_cons]
    by_cases hr : r x i
    · rw [if_pos hr, List.orderedInsert_cons_of_le r _ hr]
      exact ⟨_, rfl, hl.insert hx⟩
    · rw [if_neg hr, List.orderedInsert_cons, if_neg hr]
      have hl' : h.Holds ((l₁ ++ [i]) ++ l₂) := by simpa using hl
      obtain ⟨h', hu, hh⟩ := ih hl' (by simpa using hf) (by simpa using hx)
      rw [Ref.behind_concat] at hu
      exact ⟨h', hu, by simpa using hh⟩

end Loops

/-! ### Keys -/

theorem pairwise_orderedInsert_key (key : ι → ℕ) {r : ι → ι → Prop} [DecidableRel r] {x : ι}
    {l : List ι} (hr : ∀ i ∈ l, r x i ↔ key x < key i)
    (hl : l.Pairwise fun a b => key a ≤ key b) :
    (l.orderedInsert r x).Pairwise fun a b => key a ≤ key b := by
  induction l with
  | nil => simp
  | cons i l ih =>
    rw [List.pairwise_cons] at hl
    rw [List.orderedInsert_cons]
    split
    · next hlt =>
      have hlt := (hr i (by simp)).mp hlt
      refine List.pairwise_cons.mpr ⟨fun j hj => ?_, List.pairwise_cons.mpr hl⟩
      rcases List.mem_cons.mp hj with rfl | hj
      · exact hlt.le
      · exact hlt.le.trans (hl.1 j hj)
    · next hlt =>
      refine List.pairwise_cons.mpr
        ⟨fun j hj => ?_, ih (fun j hj => hr j (by simp [hj])) hl.2⟩
      rcases (List.mem_orderedInsert _).mp hj with rfl | hj
      · exact not_lt.mp fun h => hlt ((hr i (by simp)).mpr h)
      · exact hl.1 j hj

section Sorted

variable {key : ι → ℕ} {l : List ι} {n : ℕ} {i : ι}

theorem mem_takeWhile_key (hl : l.Pairwise fun a b => key a ≤ key b) :
    i ∈ l.takeWhile (fun a => decide (key a ≤ n)) ↔ i ∈ l ∧ key i ≤ n := by
  induction l with
  | nil => simp
  | cons j l ih =>
    rw [List.pairwise_cons] at hl
    by_cases hj : key j ≤ n
    · simp only [List.takeWhile_cons, hj, decide_true, if_true, List.mem_cons, ih hl.2]
      constructor
      · rintro (rfl | h)
        · exact ⟨.inl rfl, hj⟩
        · exact ⟨.inr h.1, h.2⟩
      · rintro ⟨rfl | h, hi⟩
        · exact .inl rfl
        · exact .inr ⟨h, hi⟩
    · simp only [List.takeWhile_cons, hj, decide_false, Bool.false_eq_true, if_false,
        List.not_mem_nil, false_iff, List.mem_cons, not_and, not_le]
      rintro (rfl | h)
      · omega
      · have := hl.1 i h
        omega

theorem mem_dropWhile_key (hl : l.Pairwise fun a b => key a ≤ key b) :
    i ∈ l.dropWhile (fun a => decide (key a ≤ n)) ↔ i ∈ l ∧ n < key i := by
  induction l with
  | nil => simp
  | cons j l ih =>
    rw [List.pairwise_cons] at hl
    by_cases hj : key j ≤ n
    · simp only [List.dropWhile_cons, hj, decide_true, if_true, List.mem_cons, ih hl.2]
      constructor
      · exact fun h => ⟨.inr h.1, h.2⟩
      · rintro ⟨rfl | h, hi⟩
        · omega
        · exact ⟨h, hi⟩
    · simp only [List.dropWhile_cons, hj, decide_false, Bool.false_eq_true, if_false, List.mem_cons,
        iff_self_and]
      rintro (rfl | h)
      · omega
      · have := hl.1 i h
        omega

end Sorted

end Linked
