import MolIpc.Lib.Group
import MolIpc.Lib.Reach
import MolIpc.Slots.Handlers

/-!
The group of the nodes of a DC: nodes that join and leave, the multicasts of the slot protocol in
their total order, and what the SYSTASK threads do. The network does not partition here.
-/

namespace MolIpc

namespace Slots

open Groups

abbrev Net := Group Node Msg

/-- What can happen in the group; `env j` is what the handler of `j` finds. -/
inductive Label
  /-- The node `i` starts and joins the group. -/
  | join (i : ℕ)
  /-- The member `k` leaves or is disconnected. -/
  | leave (k : ℕ)
  /-- The oldest multicast of `i` is delivered. -/
  | deliver (i : ℕ) (env : ℕ → Env)
  /-- The SYSTASK of `i` takes a step. -/
  | call (i : ℕ) (k : Call)

namespace Net

def start (c : Conf) : Net where
  members := ∅
  node i := .init c i
  flight _ := []

def Live (g : Net) (i : ℕ) : Prop := i ∈ g.members ∧ (g.node i).life = .alive

instance (g : Net) (i : ℕ) : Decidable (g.Live i) := inferInstanceAs (Decidable (_ ∧ _))

def joined (c : Conf) (g : Net) (i : ℕ) : Net :=
  (g.enter i (.init c i)).all fun n => n.handle c .sample (.join i (insert i g.members))

/-- The group after a leave. Without merges the handler finds nothing outside of the variables of a
node. -/
def left (c : Conf) (g : Net) (k : ℕ) : Net :=
  (g.quit k).all fun n => n.handle c .sample (.disconnect k (g.members.erase k))

/-- The group after a message of `i` has been delivered; `rest` is what `i` has still in flight. -/
def delivered (c : Conf) (g : Net) (i : ℕ) (msg : Msg) (rest : List Msg) (env : ℕ → Env) : Net :=
  (g.pop i rest).all fun n => n.handle c (env n.localNodeid) (.message i msg)

def step (c : Conf) (g : Net) : Label → Option Net
  | .join i => if i ∈ g.members ∨ c.dcNrNodes ≤ i then none else some (g.joined c i)
  | .leave k => if k ∈ g.members then some (g.left c k) else none
  | .deliver i env =>
    if i ∈ g.members then
      match g.flight i with
      | [] => none
      | msg :: rest => some (g.delivered c i msg rest env)
    else none
  | .call i k => if i ∈ g.members then ((g.node i).call c k).map (g.act i) else none

section Events

variable {c : Conf} {g g' : Net} {i j k : ℕ} {msg : Msg} {rest : List Msg} {env : ℕ → Env}

@[simp] theorem members_joined : (g.joined c i).members = insert i g.members := rfl

theorem node_joined_self : (g.joined c i).node i = Node.start c i (insert i g.members) := by
  rw [joined, Group.all_enter_self.1]
  rfl

theorem flight_joined_self : (g.joined c i).flight i = [] := by
  rw [joined, Group.all_enter_self.2]
  have hown : i = ((Node.init c i).setView (insert i g.members)).localNodeid := rfl
  change (((Node.init c i).setView (insert i g.members)).spJoin c i).2 = []
  rw [Node.spJoin, if_pos hown]
  split_ifs <;> rfl

theorem node_joined (hi : i ∉ g.members) (hj : j ∈ g.members) : (g.joined c i).node j =
    ((g.node j).handle c .sample (.join i (insert i g.members))).1 :=
  (Group.all_enter hi hj).1

theorem flight_joined (hi : i ∉ g.members) (hj : j ∈ g.members) : (g.joined c i).flight j =
    g.flight j ++ ((g.node j).handle c .sample (.join i (insert i g.members))).2 :=
  (Group.all_enter hi hj).2

theorem mem_left : j ∈ (g.left c k).members ↔ j ≠ k ∧ j ∈ g.members := Finset.mem_erase

theorem node_left (hj : j ∈ (g.left c k).members) : (g.left c k).node j =
    ((g.node j).handle c .sample (.disconnect k (g.members.erase k))).1 :=
  (Group.all_quit hj).1

theorem flight_left (hj : j ∈ (g.left c k).members) : (g.left c k).flight j =
    g.flight j ++ ((g.node j).handle c .sample (.disconnect k (g.members.erase k))).2 :=
  (Group.all_quit hj).2

theorem node_delivered (hj : j ∈ g.members) : (g.delivered c i msg rest env).node j =
    ((g.node j).handle c (env (g.node j).localNodeid) (.message i msg)).1 :=
  (Group.all_pop hj).1

theorem flight_delivered (hj : j ∈ g.members) : (g.delivered c i msg rest env).flight j =
    (if j = i then rest else g.flight j) ++
      ((g.node j).handle c (env (g.node j).localNodeid) (.message i msg)).2 :=
  (Group.all_pop hj).2

theorem step_cases {a : Label} (h : g.step c a = some g') :
    (∃ i, a = .join i ∧ i ∉ g.members ∧ i < c.dcNrNodes ∧ g' = g.joined c i) ∨
    (∃ k, a = .leave k ∧ k ∈ g.members ∧ g' = g.left c k) ∨
    (∃ i env msg rest, a = .deliver i env ∧ i ∈ g.members ∧ g.flight i = msg :: rest ∧
      g' = g.delivered c i msg rest env) ∨
    (∃ i k r, a = .call i k ∧ g.Live i ∧ (g.node i).call c k = some r ∧ g' = g.act i r) := by
  cases a with
  | join i =>
    simp only [step] at h
    split_ifs at h with hi
    rw [not_or, not_le] at hi
    exact .inl ⟨i, rfl, hi.1, hi.2, (Option.some.inj h).symm⟩
  | leave k =>
    obtain ⟨hk, heq⟩ := Option.ite_none_right_eq_some.1 h
    exact .inr (.inl ⟨k, rfl, hk, (Option.some.inj heq).symm⟩)
  | deliver i env =>
    simp only [step] at h
    split_ifs at h with hi
    cases hf : g.flight i with
    | nil => simp [hf] at h
    | cons msg rest =>
      simp only [hf] at h
      exact .inr (.inr (.inl ⟨i, env, msg, rest, rfl, hi, hf, (Option.some.inj h).symm⟩))
  | call i k =>
    simp only [step] at h
    split_ifs at h with hi
    obtain ⟨r, hr, rfl⟩ := Option.map_eq_some_iff.1 h
    exact .inr (.inr (.inr ⟨i, k, r, rfl, ⟨hi, Node.alive_of_call hr⟩, hr, rfl⟩))

/-! ### Processes that run -/

theorem handle_of_not_alive {n : Node} {env : Env} {e : Event} (h : n.life ≠ .alive) :
    n.handle c env e = (n, []) := if_pos h

theorem alive_of_handle {n : Node} {env : Env} {e : Event}
    (h : (n.handle c env e).1.life = .alive) : n.life = .alive := by
  by_contra hne
  rw [handle_of_not_alive hne] at h
  exact hne h

theorem live_joined (hi : i ∉ g.members) (hne : j ≠ i) (h : Live (g.joined c i) j) : g.Live j := by
  have hj : j ∈ g.members := Finset.mem_of_mem_insert_of_ne h.1 hne
  have hl := h.2
  rw [node_joined hi hj] at hl
  exact ⟨hj, alive_of_handle hl⟩

theorem live_left (h : Live (g.left c k) j) : j ≠ k ∧ g.Live j := by
  have hl := h.2
  rw [node_left h.1] at hl
  exact ⟨(mem_left.1 h.1).1, (mem_left.1 h.1).2, alive_of_handle hl⟩

theorem live_delivered (h : Live (g.delivered c i msg rest env) j) : g.Live j := by
  have hj : j ∈ g.members := h.1
  have hl := h.2
  rw [node_delivered hj] at hl
  exact ⟨hj, alive_of_handle hl⟩

end Events

end Net

end Slots

end MolIpc
