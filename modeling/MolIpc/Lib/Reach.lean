import Mathlib.Data.List.Basic

/-!
Systems that take labelled steps: the states reached by runs whose steps all meet a condition,
the rule of invariants for them, and runs of a given list of labels, which can be executed.
-/

namespace Reach

variable {σ α : Type*}

/-- The states reached from `s₀` by steps that meet `ok`. A label that is not enabled in a state
has no step there. -/
inductive Reachable (step : σ → α → Option σ) (ok : σ → α → Prop) (s₀ : σ) : σ → Prop
  | init : Reachable step ok s₀ s₀
  | step {s t : σ} {a : α} (hs : Reachable step ok s₀ s) (ha : ok s a)
      (ht : step s a = some t) : Reachable step ok s₀ t

section Invariants

variable {step : σ → α → Option σ} {ok : σ → α → Prop} {s₀ s : σ}

/-- **The rule of invariants**: what holds at the start and is kept by every step that meets the
condition holds in every state reached. -/
theorem Reachable.invariant {I : σ → Prop} (hs : Reachable step ok s₀ s) (h0 : I s₀)
    (hstep : ∀ s a t, I s → ok s a → step s a = some t → I t) : I s := by
  induction hs with
  | init => exact h0
  | step _ ha ht ih => exact hstep _ _ _ ih ha ht

end Invariants

/-! ### Runs that end -/

section Ends

variable (step : σ → α → Option σ) (ok : σ → α → Prop) (s₀ : σ) (P : σ → Prop)

def Stuck (s : σ) : Prop := ∀ a t, ok s a → step s a ≠ some t

/-- No run from `s₀` goes on for ever, and where one stops, `P` holds. -/
structure Ends : Prop where
  acc : Acc (fun t s => ∃ a, ok s a ∧ step s a = some t) s₀
  last (s : σ) : Reachable step ok s₀ s → Stuck step ok s → P s

variable {step ok s₀ P}

/-- **The rule of variants**: a number that gets smaller with every step that meets the condition,
as long as an invariant holds. -/
theorem ends_of_variant {I : σ → Prop} (μ : σ → ℕ) (h0 : I s₀)
    (hstep : ∀ s a t, I s → ok s a → step s a = some t → I t ∧ μ t < μ s)
    (hlast : ∀ s, I s → Stuck step ok s → P s) : Ends step ok s₀ P := by
  have hinv : ∀ {s}, Reachable step ok s₀ s → I s := fun hs =>
    hs.invariant h0 fun s a t hi ha ht => (hstep s a t hi ha ht).1
  refine ⟨?_, fun s hs => hlast s (hinv hs)⟩
  have hacc : ∀ k s, I s → μ s ≤ k → Acc (fun t s => ∃ a, ok s a ∧ step s a = some t) s := by
    intro k
    induction k with
    | zero =>
      refine fun s hi hk => ⟨s, fun t ⟨a, ha, ht⟩ => ?_⟩
      have := (hstep s a t hi ha ht).2
      omega
    | succ k ih =>
      refine fun s hi hk => ⟨s, fun t ⟨a, ha, ht⟩ => ?_⟩
      obtain ⟨hit, hlt⟩ := hstep s a t hi ha ht
      exact ih t hit (by omega)
  exact hacc (μ s₀) s₀ h0 (Nat.le_refl _)

theorem Ends.exists_last (h : Ends step ok s₀ P) : ∃ s, Reachable step ok s₀ s ∧ P s := by
  have hstop : ∀ s, Acc (fun t s => ∃ a, ok s a ∧ step s a = some t) s → Reachable step ok s₀ s →
      ∃ t, Reachable step ok s₀ t ∧ Stuck step ok t := by
    intro s hacc
    induction hacc with
    | intro s _ ih =>
      intro hs
      by_cases hstuck : Stuck step ok s
      · exact ⟨s, hs, hstuck⟩
      · simp only [Stuck, ne_eq, not_forall, not_not, exists_prop] at hstuck
        obtain ⟨a, t, ha, ht⟩ := hstuck
        exact ih t ⟨a, ha, ht⟩ (hs.step ha ht)
  obtain ⟨t, ht, hstuck⟩ := hstop s₀ h.acc .init
  exact ⟨t, ht, h.last t ht hstuck⟩

end Ends

/-! ### Executing a run -/

section Exec

variable (step : σ → α → Option σ) (ok : σ → α → Prop) [∀ s a, Decidable (ok s a)]

/-- The state after the steps of a list of labels, if each is enabled and meets the condition. -/
def exec : σ → List α → Option σ
  | s, [] => some s
  | s, a :: as => if ok s a then (step s a).bind fun t => exec t as else none

variable {step ok}

theorem reachable_of_exec {s₀ s t : σ} {as : List α} (hs : Reachable step ok s₀ s)
    (h : exec step ok s as = some t) : Reachable step ok s₀ t := by
  induction as generalizing s with
  | nil =>
    rw [← Option.some.inj h]
    exact hs
  | cons a as ih =>
    unfold exec at h
    by_cases ha : ok s a
    · rw [if_pos ha, Option.bind_eq_some_iff] at h
      obtain ⟨u, hu, ht⟩ := h
      exact ih (hs.step ha hu) ht
    · simp [ha] at h

variable (step ok) in
theorem exists_reachable_of_exec (s₀ : σ) (p : σ → Bool) (as : List α)
    (h : (exec step ok s₀ as).any p = true) : ∃ s, Reachable step ok s₀ s ∧ p s = true := by
  cases hr : exec step ok s₀ as with
  | none => simp [hr] at h
  | some s =>
    rw [hr] at h
    exact ⟨s, reachable_of_exec .init hr, h⟩

end Exec

end Reach
