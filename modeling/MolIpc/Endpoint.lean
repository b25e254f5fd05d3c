import MolIpc.Proc

/-!
# Endpoint arithmetic

The macros of `endpoint.h` compute in 32-bit integers, with the quotient and the remainder of C.
Every endpoint of a generation and a process number gives both back, and every `int` is the
endpoint of its generation and its process number, so that it names one slot at most.
-/

namespace MolIpc

/-- `INT_MAX`. -/
def intMax : ℤ := 2147483647

/-- `NR_PROCS`. -/
def nrProcs : ℤ := 256 - nrTasks

/-- `_ENDPOINT_MAX_GENERATION`. -/
def maxGeneration : ℤ := intMax / generationSize - 1

/-- The result of an operation on `int`; `none` is an overflow. -/
def int? (x : ℤ) : Option ℤ := if -intMax - 1 ≤ x ∧ x ≤ intMax then some x else none

/-- `_ENDPOINT(g, p)`, step by step. -/
def endpoint? (g p : ℤ) : Option ℤ := (int? (g * generationSize)).bind fun a => int? (a + p)

/-- `_ENDPOINT_G(e)`. -/
def endpointG? (e : ℤ) : Option ℤ := (int? (e + nrTasks)).map (·.tdiv generationSize)

/-- `_ENDPOINT_P(e)`. -/
def endpointP? (e : ℤ) : Option ℤ :=
  (int? (e + nrTasks)).bind fun a => int? (a.tmod generationSize - nrTasks)

/-- A generation and a process number that an endpoint can be made of. -/
structure Endpoint (g p : ℤ) : Prop where
  gen_nonneg : 0 ≤ g
  gen_le : g ≤ maxGeneration
  nr_ge : -nrTasks ≤ p
  nr_lt : p < nrProcs

theorem int?_of_le {x : ℤ} (h0 : -2147483648 ≤ x) (h1 : x ≤ 2147483647) : int? x = some x :=
  if_pos ⟨h0, h1⟩

theorem generationSize_eq : generationSize = 35570 := rfl

variable {g p e : ℤ}

theorem Endpoint.bounds (h : Endpoint g p) : 0 ≤ g ∧ g ≤ 60372 ∧ -35 ≤ p ∧ p < 221 :=
  ⟨h.1, h.2, h.3, h.4⟩

theorem Endpoint.endpoint?_eq (h : Endpoint g p) : endpoint? g p = some (endpointOf g p) := by
  obtain ⟨h0, h1, h2, h3⟩ := h.bounds
  unfold endpoint? endpointOf
  rw [generationSize_eq, int?_of_le (by omega) (by omega)]
  exact int?_of_le (by omega) (by omega)

theorem Endpoint.split (h : Endpoint g p) :
    endpointP? (endpointOf g p) = some p ∧ endpointG? (endpointOf g p) = some g := by
  obtain ⟨h0, h1, h2, h3⟩ := h.bounds
  unfold endpointP? endpointG? endpointOf nrTasks
  rw [generationSize_eq, int?_of_le (by omega) (by omega)]
  have hpos : 0 ≤ g * 35570 + p + 35 := by omega
  constructor
  · rw [Option.bind_some, Int.tmod_eq_emod_of_nonneg hpos, int?_of_le (by omega) (by omega)]
    congr 1
    omega
  · rw [Option.map_some, Int.tdiv_eq_ediv_of_nonneg hpos]
    congr 1
    omega

theorem Endpoint.ne_magic (h : Endpoint g p) :
    endpointOf g p ≠ anyEp ∧ endpointOf g p ≠ noneEp ∧ endpointOf g p ≠ selfEp := by
  obtain ⟨h0, h1, h2, h3⟩ := h.bounds
  unfold endpointOf anyEp noneEp selfEp
  rw [generationSize_eq]
  refine ⟨?_, ?_, ?_⟩ <;> omega

theorem tmod_between (a : ℤ) :
    a - a.tmod 35570 ≤ max a 0 ∧ min a 0 ≤ a - a.tmod 35570 ∧
      -35570 < a.tmod 35570 ∧ a.tmod 35570 < 35570 := by
  have hl := Int.lt_tmod_of_pos a (show (0 : ℤ) < 35570 by decide)
  have hu := Int.tmod_lt_of_pos a (show (0 : ℤ) < 35570 by decide)
  rcases Int.le_total 0 a with ha | ha
  · rw [Int.tmod_eq_emod_of_nonneg ha] at *
    omega
  · have hn : a.tmod 35570 = -((-a) % 35570) := by
      rw [← Int.tmod_eq_emod_of_nonneg (show 0 ≤ -a by omega), Int.neg_tmod, Int.neg_neg]
    rw [hn] at *
    omega

theorem endpoint?_of_int (he : int? e ≠ none) (hs : int? (e + nrTasks) ≠ none) :
    ∃ g, endpointG? e = some g ∧ endpointP? e = some (endpointP e) ∧
      endpoint? g (endpointP e) = some e ∧ e = endpointOf g (endpointP e) := by
  have hb : ∀ {x}, int? x ≠ none → -2147483648 ≤ x ∧ x ≤ 2147483647 := fun h =>
    by_contra fun hcon => h (if_neg hcon)
  obtain ⟨h0, h1⟩ := hb he
  obtain ⟨h2, h3⟩ := hb hs
  obtain ⟨b0, b1, b2, b3⟩ := tmod_between (e + nrTasks)
  have hdiv := Int.mul_tdiv_add_tmod (e + nrTasks) 35570
  unfold endpointG? endpointP? endpoint? endpointOf endpointP
  unfold nrTasks at *
  rw [generationSize_eq, int?_of_le h2 h3]
  refine ⟨(e + 35).tdiv 35570, rfl, int?_of_le (by omega) (by omega), ?_, by omega⟩
  rw [int?_of_le (by omega) (by omega)]
  show int? _ = some e
  rw [int?_of_le (by omega) (by omega)]
  congr 1
  omega

/-- **Endpoint arithmetic**: an endpoint is computed without overflow, is no magic number and gives
back its generation and its process number; any `int` belongs to the slot of its process number. -/
theorem endpoint_arithmetic :
    (∀ g p, Endpoint g p → ∃ e, endpoint? g p = some e ∧ endpointP? e = some p ∧
      endpointG? e = some g ∧ e ≠ anyEp ∧ e ≠ noneEp ∧ e ≠ selfEp) ∧
    (∀ g p g' p', Endpoint g p → Endpoint g' p' → endpoint? g p = endpoint? g' p' →
      g = g' ∧ p = p') ∧
    ∀ e, int? e ≠ none → int? (e + nrTasks) ≠ none →
      ∃ g, endpointG? e = some g ∧ endpointP? e = some (endpointP e) ∧
        endpoint? g (endpointP e) = some e ∧ ∀ p, endpointP e = p → e = endpointOf g p := by
  refine ⟨fun g p h => ?_, fun g p g' p' h h' heq => ?_, fun e he hs => ?_⟩
  · exact ⟨_, h.endpoint?_eq, h.split.1, h.split.2, h.ne_magic⟩
  · rw [h.endpoint?_eq, h'.endpoint?_eq, Option.some.injEq] at heq
    have hp := h'.split
    rw [← heq, h.split.1, h.split.2] at hp
    exact ⟨Option.some.inj hp.2, Option.some.inj hp.1⟩
  · obtain ⟨g, hg, hp, hgp, heq⟩ := endpoint?_of_int he hs
    refine ⟨g, hg, hp, hgp, fun p hep => ?_⟩
    rw [← hep]
    exact heq

end MolIpc
