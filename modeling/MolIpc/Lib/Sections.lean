import Mathlib.Data.List.Basic

/-!
Programs that give up their locks between two sections. In between, others may change the state
as far as a relation `R` allows. A block of such a program is one section, or a loop with one
section for each item of a list that is read when the loop is entered.
-/

namespace Sections

variable {σ ι : Type*}

/-- One block of a program. -/
inductive Block (σ ι : Type*)
  | sec (f : σ → σ)
  | each (items : σ → List ι) (body : ι → σ → σ)

def Block.run : Block σ ι → σ → σ
  | .sec f, s => f s
  | .each items body, s => (items s).foldl (fun s x => body x s) s

def run (p : List (Block σ ι)) (s : σ) : σ := p.foldl (fun s b => b.run s) s

/-! ### Runs with others -/

/-- The turns of a loop, each after a move of the others. -/
inductive Turns (R : σ → σ → Prop) (body : ι → σ → σ) : List ι → σ → σ → Prop
  | nil {s : σ} : Turns R body [] s s
  | cons {x : ι} {xs : List ι} {s s₁ t : σ} :
      R s s₁ → Turns R body xs (body x s₁) t → Turns R body (x :: xs) s t

/-- A block that runs with others. -/
inductive Block.Runs (R : σ → σ → Prop) : Block σ ι → σ → σ → Prop
  | sec {f : σ → σ} {s s₁ : σ} : R s s₁ → Block.Runs R (.sec f) s (f s₁)
  | each {items : σ → List ι} {body : ι → σ → σ} {s s₁ t : σ} :
      R s s₁ → Turns R body (items s₁) s₁ t → Block.Runs R (.each items body) s t

inductive Runs (R : σ → σ → Prop) : List (Block σ ι) → σ → σ → Prop
  | nil {s : σ} : Runs R [] s s
  | cons {b : Block σ ι} {p : List (Block σ ι)} {s s₁ t : σ} :
      b.Runs R s s₁ → Runs R p s₁ t → Runs R (b :: p) s t

section Inversion

variable {R : σ → σ → Prop} {s t : σ}

theorem runs_nil_iff : Runs R ([] : List (Block σ ι)) s t ↔ t = s :=
  ⟨fun h => by cases h; rfl, fun h => h ▸ .nil⟩

theorem runs_cons_iff {b : Block σ ι} {p : List (Block σ ι)} :
    Runs R (b :: p) s t ↔ ∃ s₁, b.Runs R s s₁ ∧ Runs R p s₁ t :=
  ⟨fun h => by cases h with | cons hb hp => exact ⟨_, hb, hp⟩, fun ⟨_, hb, hp⟩ => .cons hb hp⟩

theorem Block.runs_sec_iff {f : σ → σ} :
    (Block.sec f : Block σ ι).Runs R s t ↔ ∃ s₁, R s s₁ ∧ t = f s₁ :=
  ⟨fun h => by cases h with | sec hr => exact ⟨_, hr, rfl⟩, fun ⟨_, hr, ht⟩ => ht ▸ .sec hr⟩

theorem Block.runs_each_iff {items : σ → List ι} {body : ι → σ → σ} :
    (Block.each items body).Runs R s t ↔ ∃ s₁, R s s₁ ∧ Turns R body (items s₁) s₁ t :=
  ⟨fun h => by cases h with | each hr ht => exact ⟨_, hr, ht⟩, fun ⟨_, hr, ht⟩ => .each hr ht⟩

end Inversion

section Alone

variable {R : σ → σ → Prop} (hR : ∀ s, R s s)

include hR

theorem turns_foldl (body : ι → σ → σ) (xs : List ι) (s : σ) :
    Turns R body xs s (xs.foldl (fun s x => body x s) s) := by
  induction xs generalizing s with
  | nil => exact .nil
  | cons x xs ih => exact .cons (hR s) (ih _)

theorem runs_run (p : List (Block σ ι)) (s : σ) : Runs R p s (run p s) := by
  induction p generalizing s with
  | nil => exact .nil
  | cons b p ih =>
    refine .cons ?_ (ih _)
    cases b with
    | sec f => exact .sec (hR s)
    | each items body => exact .each (hR s) (turns_foldl hR body _ s)

end Alone

/-! ### Loops that run alone -/

section Loops

variable {R : σ → σ → Prop} (refl : ∀ s, R s s) (trans : ∀ {s t u}, R s t → R t u → R s u)
  {body : ι → σ → σ} {xs : List ι}

include refl trans

theorem foldl_related (h : ∀ x ∈ xs, ∀ s, R s (body x s)) (s : σ) :
    R s (xs.foldl (fun s x => body x s) s) := by
  induction xs generalizing s with
  | nil => exact refl s
  | cons x xs ih =>
    have hrest := ih (fun y hy => h y (List.mem_cons_of_mem _ hy)) (body x s)
    exact trans (h x List.mem_cons_self s) hrest

theorem exists_turn {x : ι} (hx : x ∈ xs) (hxs : xs.Nodup)
    (h : ∀ y ∈ xs, y ≠ x → ∀ s, R s (body y s)) (s : σ) :
    ∃ m, R s m ∧ R (body x m) (xs.foldl (fun s x => body x s) s) := by
  induction xs generalizing s with
  | nil => exact absurd hx List.not_mem_nil
  | cons y xs ih =>
    obtain ⟨hy, hxs⟩ := List.nodup_cons.1 hxs
    have hrest : ∀ z ∈ xs, z ≠ x → ∀ s, R s (body z s) :=
      fun z hz => h z (List.mem_cons_of_mem _ hz)
    rcases List.mem_cons.1 hx with rfl | hx
    · refine ⟨s, refl s, foldl_related refl trans (fun z hz => hrest z hz ?_) (body x s)⟩
      rintro rfl
      exact hy hz
    · obtain ⟨m, hm, ht⟩ := ih hx hxs hrest (body y s)
      refine ⟨m, trans (h y List.mem_cons_self ?_ s) hm, ht⟩
      rintro rfl
      exact hy hx

omit refl trans in
theorem foldl_eq_nil [DecidableEq ι] (list : σ → List ι)
    (h : ∀ x s, list (body x s) = (list s).filter (· ≠ x)) (s : σ) :
    list ((list s).foldl (fun s x => body x s) s) = [] := by
  have key : ∀ (xs : List ι) (s : σ) (z : ι),
      z ∈ list (xs.foldl (fun s x => body x s) s) → z ∈ list s ∧ z ∉ xs := by
    intro xs
    induction xs with
    | nil => exact fun s z hz => ⟨hz, List.not_mem_nil⟩
    | cons x xs ih =>
      intro s z hz
      obtain ⟨h1, h2⟩ := ih (body x s) z hz
      rw [h, List.mem_filter] at h1
      have hne : z ≠ x := by simpa using h1.2
      exact ⟨h1.1, fun hz => (List.mem_cons.1 hz).elim hne h2⟩
  exact List.eq_nil_iff_forall_not_mem.2 fun z hz => (key _ s z hz).2 (key _ s z hz).1

end Loops

/-! ### Rules -/

def Block.Keeps (I : σ → Prop) : Block σ ι → Prop
  | .sec f => ∀ s, I s → I (f s)
  | .each _ body => ∀ x s, I s → I (body x s)

section Rules

variable {R : σ → σ → Prop} {I : σ → Prop} {body : ι → σ → σ} {xs : List ι} {s t : σ}
  (hR : ∀ s t, R s t → I s → I t)

include hR

theorem Turns.keeps (hb : ∀ x ∈ xs, ∀ s, I s → I (body x s)) (h : Turns R body xs s t)
    (hI : I s) : I t := by
  induction h with
  | nil => exact hI
  | cons hr _ ih =>
    refine ih (fun y hy => hb y (List.mem_cons_of_mem _ hy)) ?_
    exact hb _ List.mem_cons_self _ (hR _ _ hr hI)

/-- What the turn of an item establishes, and the others and the other turns keep, holds for every
item after the loop. -/
theorem Turns.establishes {Q : ι → σ → Prop}
    (hQR : ∀ x s t, R s t → I s → Q x s → Q x t)
    (hb : ∀ x ∈ xs, ∀ s, I s → I (body x s))
    (hQ : ∀ x ∈ xs, ∀ s, I s → Q x (body x s))
    (hkeep : ∀ x y s, I s → Q x s → Q x (body y s))
    (h : Turns R body xs s t) (hI : I s) : ∀ x ∈ xs, Q x t := by
  induction h with
  | nil => exact fun x hx => absurd hx List.not_mem_nil
  | @cons x xs s s₁ t hr hrest ih =>
    have hI₁ : I s₁ := hR _ _ hr hI
    have hb' : ∀ y ∈ xs, ∀ s, I s → I (body y s) := fun y hy => hb y (List.mem_cons_of_mem _ hy)
    have hI₂ : I (body x s₁) := hb x List.mem_cons_self s₁ hI₁
    intro y hy
    rcases List.mem_cons.1 hy with rfl | hy
    · -- the turn of `y` itself: the rest of the loop keeps what it has established
      have hkept : ∀ z ∈ xs, ∀ s, I s ∧ Q y s → I (body z s) ∧ Q y (body z s) :=
        fun z hz s hs => ⟨hb' z hz s hs.1, hkeep y z s hs.1 hs.2⟩
      exact (Turns.keeps (fun s t hr hs => ⟨hR s t hr hs.1, hQR y s t hr hs.1 hs.2⟩) hkept hrest
        ⟨hI₂, hQ y List.mem_cons_self s₁ hI₁⟩).2
    · exact ih hb' (fun z hz => hQ z (List.mem_cons_of_mem _ hz)) hI₂ y hy

/-- **The rule of invariants**: what the others and each section keep is kept by the program. -/
theorem Runs.keeps {p : List (Block σ ι)} (hp : ∀ b ∈ p, b.Keeps I) (h : Runs R p s t)
    (hI : I s) : I t := by
  induction h with
  | nil => exact hI
  | @cons b p s s₁ t hb _ ih =>
    refine ih (fun c hc => hp c (List.mem_cons_of_mem _ hc)) ?_
    have hk := hp b List.mem_cons_self
    cases hb with
    | sec hr => exact hk _ (hR _ _ hr hI)
    | each hr ht => exact ht.keeps hR (fun x _ => hk x) (hR _ _ hr hI)

end Rules

end Sections
