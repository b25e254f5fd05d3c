import Mathlib.Logic.Function.Basic

/-!
Two partial functions that are kept inverse to each other: the references between two kinds of
objects, of which those of the second kind can die. What a dead object refers to does not count.
-/

namespace References

variable {α β : Type*}

/-- `f` refers from `a` to `b` if `b` is live and `g` refers back. -/
structure Paired (f : α → Option β) (g : β → Option α) (live : β → Prop) : Prop where
  iff (a : α) (b : β) : f a = some b ↔ live b ∧ g b = some a

namespace Paired

variable {f : α → Option β} {g : β → Option α} {live live' : β → Prop} {a a' : α} {b : β}

theorem inj (h : Paired f g live) (ha : f a = some b) (ha' : f a' = some b) : a = a' := by
  have hb := ((h.iff a b).1 ha).2
  have hb' := ((h.iff a' b).1 ha').2
  exact Option.some.inj (hb.symm.trans hb')

theorem ne_some (h : Paired f g live) (hb : g b = none) (a : α) : f a ≠ some b := by
  intro ha
  have hg := ((h.iff a b).1 ha).2
  simp [hb] at hg

theorem retire (h : Paired f g live) (hb : ∀ a, f a ≠ some b)
    (hl : ∀ x, live' x ↔ live x ∧ x ≠ b) : Paired f g live' := by
  refine ⟨fun a x => ?_⟩
  rw [h.iff, hl]
  constructor
  · rintro ⟨hx, hg⟩
    refine ⟨⟨hx, ?_⟩, hg⟩
    rintro rfl
    exact hb a ((h.iff a x).2 ⟨hx, hg⟩)
  · rintro ⟨⟨hx, _⟩, hg⟩
    exact ⟨hx, hg⟩

variable [DecidableEq α]

theorem drop (h : Paired f g live) (ha : f a = some b) (hl : ∀ x, live' x ↔ live x ∧ x ≠ b) :
    Paired (Function.update f a none) g live' := by
  refine ⟨fun c x => ?_⟩
  rw [hl]
  by_cases hc : c = a
  · subst hc
    rw [Function.update_self]
    constructor
    · nofun
    · rintro ⟨⟨hx, hne⟩, hg⟩
      have hcx := (h.iff c x).2 ⟨hx, hg⟩
      exact absurd (Option.some.inj (hcx.symm.trans ha)) hne
  · rw [Function.update_of_ne hc, h.iff]
    constructor
    · rintro ⟨hx, hg⟩
      refine ⟨⟨hx, ?_⟩, hg⟩
      rintro rfl
      exact hc (h.inj ((h.iff c x).2 ⟨hx, hg⟩) ha)
    · rintro ⟨⟨hx, _⟩, hg⟩
      exact ⟨hx, hg⟩

variable [DecidableEq β]

theorem update {v : Option β} {w : Option α} (h : Paired f g live)
    (hab : v = some b ↔ live b ∧ w = some a) (hx : ∀ x ≠ b, v = some x ↔ f a = some x)
    (hc : ∀ c ≠ a, f c = some b ↔ live b ∧ w = some c) :
    Paired (Function.update f a v) (Function.update g b w) live := by
  refine ⟨fun c x => ?_⟩
  by_cases hca : c = a <;> by_cases hxb : x = b
  · subst hca hxb
    simpa using hab
  · subst hca
    rw [Function.update_self, Function.update_of_ne hxb, ← h.iff]
    exact hx x hxb
  · subst hxb
    rw [Function.update_of_ne hca, Function.update_self]
    exact hc c hca
  · rw [Function.update_of_ne hca, Function.update_of_ne hxb]
    exact h.iff c x

theorem link (h : Paired f g live) (ha : f a = none) (hb : g b = none) (hl : live b) :
    Paired (Function.update f a (some b)) (Function.update g b (some a)) live :=
  h.update (by simp [hl]) (fun x hx => by simp [ha, hx.symm])
    fun c hc => by simp [h.ne_some hb c, hc.symm]

theorem unlink (h : Paired f g live) (ha : f a = some b) :
    Paired (Function.update f a none) (Function.update g b none) live :=
  h.update (by simp) (fun x hx => by simp [ha, hx.symm])
    fun c hc => by simpa using fun hcx => hc (h.inj hcx ha)

end Paired

end References
