import Mathlib.Data.Finset.Basic
import Mathlib.Logic.Function.Basic

/-!
Process groups over a totally ordered multicast.

All members take the same sequence of events: joins, leaves and multicasts. What one member does
on an event depends on its own state and on the event alone, so the states that the members have
after the same prefix of the sequence are those of a group in which each event is taken by all the
members at once. What a member multicasts waits in flight until it gets its place in the sequence;
multicasts of one sender keep their order, those of different senders come in any order. What a
member has in flight when it leaves is lost.
-/

namespace Groups

/-- A group: its members, the state of each process, and its multicasts that are not delivered yet,
the oldest first. -/
structure Group (S M : Type*) where
  members : Finset ℕ
  node : ℕ → S
  flight : ℕ → List M

namespace Group

variable {S M : Type*} (g : Group S M)

def all (f : S → S × List M) : Group S M where
  members := g.members
  node i := if i ∈ g.members then (f (g.node i)).1 else g.node i
  flight i := if i ∈ g.members then g.flight i ++ (f (g.node i)).2 else g.flight i

def enter (i : ℕ) (s : S) : Group S M where
  members := insert i g.members
  node := Function.update g.node i s
  flight := Function.update g.flight i []

def quit (i : ℕ) : Group S M :=
  { g with members := g.members.erase i, flight := Function.update g.flight i [] }

def act (i : ℕ) (r : S × List M) : Group S M :=
  { g with
    node := Function.update g.node i r.1
    flight := Function.update g.flight i (g.flight i ++ r.2) }

/-- The oldest multicast of `i` has got its place in the sequence; `rest` are the others. -/
def pop (i : ℕ) (rest : List M) : Group S M :=
  { g with flight := Function.update g.flight i rest }

section Lemmas

variable {g} {i j : ℕ} {f : S → S × List M} {s : S} {r : S × List M} {rest : List M}

theorem node_all (h : j ∈ g.members) : (g.all f).node j = (f (g.node j)).1 := if_pos h

theorem flight_all (h : j ∈ g.members) : (g.all f).flight j = g.flight j ++ (f (g.node j)).2 :=
  if_pos h

/-! All take the entry of `i`, the leave of `i`, or a multicast of `i`. -/

theorem all_enter_self :
    ((g.enter i s).all f).node i = (f s).1 ∧ ((g.enter i s).all f).flight i = (f s).2 := by
  simp [all, enter]

theorem all_enter (hi : i ∉ g.members) (hj : j ∈ g.members) :
    ((g.enter i s).all f).node j = (f (g.node j)).1 ∧
      ((g.enter i s).all f).flight j = g.flight j ++ (f (g.node j)).2 := by
  have hne : j ≠ i := fun h => hi (h ▸ hj)
  simp [all, enter, hne, hj]

theorem all_quit (hj : j ∈ g.members.erase i) :
    ((g.quit i).all f).node j = (f (g.node j)).1 ∧
      ((g.quit i).all f).flight j = g.flight j ++ (f (g.node j)).2 := by
  obtain ⟨hne, hj⟩ := Finset.mem_erase.1 hj
  simp [all, quit, hne, hj]

theorem all_pop (hj : j ∈ g.members) :
    ((g.pop i rest).all f).node j = (f (g.node j)).1 ∧
      ((g.pop i rest).all f).flight j =
        (if j = i then rest else g.flight j) ++ (f (g.node j)).2 := by
  by_cases h : j = i <;> simp_all [all, pop]

theorem mem_of_flight {m : M} (hf : g.flight i = m :: rest) : m ∈ g.flight i := by
  rw [hf]
  exact List.mem_cons_self

theorem mem_of_mem_pop {m m' : M} (hf : g.flight i = m :: rest)
    (hm : m' ∈ if j = i then rest else g.flight j) : m' ∈ g.flight j := by
  split_ifs at hm with hji
  · rw [hji, hf]
    exact List.mem_cons_of_mem _ hm
  · exact hm

@[simp] theorem node_act_self : (g.act i r).node i = r.1 := by simp [act]

@[simp] theorem node_act_of_ne (h : j ≠ i) : (g.act i r).node j = g.node j := by simp [act, h]

@[simp] theorem flight_act_self : (g.act i r).flight i = g.flight i ++ r.2 := by simp [act]

@[simp] theorem flight_act_of_ne (h : j ≠ i) : (g.act i r).flight j = g.flight j := by
  simp [act, h]

end Lemmas

end Group

end Groups
