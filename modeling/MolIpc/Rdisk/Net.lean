import MolIpc.Lib.Group
import MolIpc.Lib.Reach
import MolIpc.Rdisk.Member

/-!
The replication group of RDISK: members that join and leave, the multicasts of `replicate.c` in
their total order, network changes, and the requests that the driver threads serve.
-/

namespace MolIpc

namespace Rdisk

open Groups Disk

abbrev Net := Group Member Msg

/-- What can happen in the group. -/
inductive Label
  /-- The process of node `i` starts and joins the group. -/
  | join (i : ℕ) (dev : Fin nrDevs → Dev) (errno : ℤ)
  /-- The member `i` leaves or is disconnected. -/
  | leave (i : ℕ)
  /-- A network change leaves the group with these members. Those that were not in it bring the
  states they have. -/
  | network (members : Finset ℕ) (node : ℕ → Member)
  /-- The oldest multicast of `i` is delivered; `stale j` is what the buffer of `j` holds. -/
  | deliver (i : ℕ) (stale : ℕ → List UInt8)
  /-- A write request comes to the driver of `i`. -/
  | write (i : ℕ) (procNr device position : ℤ) (iov : List (ℕ × ℕ))
      (vcopy : ℕ → ℕ → Option (List UInt8))
  /-- The driver of `i` takes the next turn of `m_transfer`. -/
  | turn (i : ℕ)
  /-- An open request comes to the driver of `i`. -/
  | openDev (i : ℕ) (device : Fin nrDevs)
  /-- The driver of `i` takes the mutex in `m_do_open` and multicasts the request. -/
  | sendOpen (i : ℕ)
  /-- The driver of `i` wakes up after a signal on `update_barrier`. -/
  | wake (i : ℕ)
  /-- The driver of `i` wakes up without a signal, as `pthread_cond_wait` may. -/
  | spurious (i : ℕ)

/-- The events of the membership protocol: joins, leaves and deliveries. -/
def Label.isMembership : Label → Bool
  | .join .. | .leave _ | .deliver .. => true
  | _ => false

def Label.driver? : Label → Option ℕ
  | .write i .. | .turn i | .openDev i _ | .sendOpen i | .wake i | .spurious i => some i
  | _ => none

namespace Net

def Live (g : Net) (i : ℕ) : Prop := i ∈ g.members ∧ (g.node i).exited = false

instance (g : Net) (i : ℕ) : Decidable (g.Live i) := inferInstanceAs (Decidable (_ ∧ _))

def start (dcNrNodes : ℤ) (dev : Fin nrDevs → Dev) : Net where
  members := ∅
  node i := .init i dcNrNodes dev 0
  flight _ := []

/-- The driver of `i` serves requests: `i` is live and takes itself for the primary. -/
def Serving (g : Net) (i : ℕ) : Prop := g.Live i ∧ (g.node i).IsPrimary

instance (g : Net) (i : ℕ) : Decidable (g.Serving i) := inferInstanceAs (Decidable (_ ∧ _))

def driverStep (env : Env) (m : Member) : Label → Option (Member × List Msg)
  | .write _ procNr device position iov vcopy =>
    match m.thread with
    | .idle => some (m.startWrite procNr device position iov vcopy, [])
    | _ => none
  | .turn _ =>
    match m.thread with
    | .transfer c => some (m.turn env c)
    | _ => none
  | .openDev _ d =>
    match m.thread with
    | .idle => some (m.startOpen d, [])
    | _ => none
  | .sendOpen _ =>
    match m.thread with
    | .opening d => some (m.sendOpen d)
    | _ => none
  | .wake _ =>
    match m.thread with
    | .blocked next true => some (m.wakeUp next, [])
    | _ => none
  | .spurious _ =>
    match m.thread with
    | .blocked next _ => some (m.wakeUp next, [])
    | _ => none
  | _ => none

def drive (env : Env) (g : Net) (i : ℕ) (a : Label) : Option Net :=
  if g.Serving i then (driverStep env (g.node i) a).map (g.act i) else none

def joined (env : Env) (dcNrNodes : ℤ) (g : Net) (i : ℕ) (dev : Fin nrDevs → Dev) (errno : ℤ) : Net :=
  (g.enter i (.init i dcNrNodes dev errno)).all
    fun m => m.handle env (.join i (g.members.card + 1))

def left (env : Env) (g : Net) (k : ℕ) : Net :=
  (g.quit k).all fun m => m.handle env (.disconnect k (g.members.card - 1))

/-- The group after a message of `i` has been delivered; `rest` is what `i` has still in flight. -/
def delivered (env : Env) (g : Net) (i : ℕ) (msg : Msg) (rest : List Msg)
    (stale : ℕ → List UInt8) : Net :=
  (g.pop i rest).all fun m => m.handle env (.message i msg (stale m.localNodeid))

def changed (env : Env) (g : Net) (members : Finset ℕ) (node : ℕ → Member) : Net :=
  ({ members := members
     node := fun i => if i ∈ g.members then g.node i else node i
     flight := fun i => if i ∈ g.members ∧ i ∈ members then g.flight i else [] } : Net).all
    fun m => m.handle env (.network members)

def step (env : Env) (dcNrNodes : ℤ) (g : Net) (a : Label) : Option Net :=
  match a with
  | .join i dev errno =>
    if i ∈ g.members ∨ nrNodesMax ≤ i then none else some (g.joined env dcNrNodes i dev errno)
  | .leave k => if k ∈ g.members then some (g.left env k) else none
  | .network members node =>
    if ∀ i ∈ members, i < nrNodesMax ∧ (i ∉ g.members → (node i).localNodeid = i) then
      some (g.changed env members node)
    else none
  | .deliver i stale =>
    if i ∈ g.members then
      match g.flight i with
      | [] => none
      | msg :: rest => some (g.delivered env i msg rest stale)
    else none
  | .write i .. => g.drive env i a
  | .turn i => g.drive env i a
  | .openDev i _ => g.drive env i a
  | .sendOpen i => g.drive env i a
  | .wake i => g.drive env i a
  | .spurious i => g.drive env i a

/-! ### The members after an event -/

section Events

variable {env : Env} {dcNrNodes : ℤ} {g g' : Net} {i j k : ℕ} {dev : Fin nrDevs → Dev} {errno : ℤ}
  {msg : Msg} {rest : List Msg} {stale : ℕ → List UInt8} {members : Finset ℕ} {node : ℕ → Member}

@[simp] theorem members_joined :
    (g.joined env dcNrNodes i dev errno).members = insert i g.members := rfl

theorem node_joined_self : (g.joined env dcNrNodes i dev errno).node i =
    ((Member.init i dcNrNodes dev errno).handle env (.join i (g.members.card + 1))).1 :=
  Group.all_enter_self.1

theorem flight_joined_self : (g.joined env dcNrNodes i dev errno).flight i =
    ((Member.init i dcNrNodes dev errno).handle env (.join i (g.members.card + 1))).2 :=
  Group.all_enter_self.2

theorem node_joined (hi : i ∉ g.members) (hj : j ∈ g.members) :
    (g.joined env dcNrNodes i dev errno).node j =
      ((g.node j).handle env (.join i (g.members.card + 1))).1 :=
  (Group.all_enter hi hj).1

theorem flight_joined (hi : i ∉ g.members) (hj : j ∈ g.members) :
    (g.joined env dcNrNodes i dev errno).flight j =
      g.flight j ++ ((g.node j).handle env (.join i (g.members.card + 1))).2 :=
  (Group.all_enter hi hj).2

theorem mem_left : j ∈ (g.left env k).members ↔ j ≠ k ∧ j ∈ g.members := Finset.mem_erase

theorem node_left (hj : j ∈ (g.left env k).members) : (g.left env k).node j =
    ((g.node j).handle env (.disconnect k (g.members.card - 1))).1 := (Group.all_quit hj).1

theorem flight_left (hj : j ∈ (g.left env k).members) : (g.left env k).flight j =
    g.flight j ++ ((g.node j).handle env (.disconnect k (g.members.card - 1))).2 :=
  (Group.all_quit hj).2

@[simp] theorem members_delivered : (g.delivered env i msg rest stale).members = g.members := rfl

theorem node_delivered (hj : j ∈ g.members) (hid : (g.node j).localNodeid = j) :
    (g.delivered env i msg rest stale).node j =
      ((g.node j).handle env (.message i msg (stale j))).1 := by
  rw [delivered, (Group.all_pop hj).1, hid]

theorem flight_delivered (hj : j ∈ g.members) (hid : (g.node j).localNodeid = j) :
    (g.delivered env i msg rest stale).flight j =
      (if j = i then rest else g.flight j) ++
        ((g.node j).handle env (.message i msg (stale j))).2 := by
  rw [delivered, (Group.all_pop hj).2, hid]

theorem node_changed (hj : j ∈ members) :
    (g.changed env members node).node j =
      ((if j ∈ g.members then g.node j else node j).handle env (.network members)).1 := by
  rw [changed, Group.node_all hj]

theorem flight_changed (hj : j ∈ members) :
    (g.changed env members node).flight j = (if j ∈ g.members then g.flight j else []) ++
      ((if j ∈ g.members then g.node j else node j).handle env (.network members)).2 := by
  rw [changed, Group.flight_all hj]
  simp [hj]

theorem step_cases {a : Label} (h : step env dcNrNodes g a = some g') :
    (∃ i dev errno, a = .join i dev errno ∧ i ∉ g.members ∧ i < nrNodesMax ∧
      g' = g.joined env dcNrNodes i dev errno) ∨
    (∃ k, a = .leave k ∧ k ∈ g.members ∧ g' = g.left env k) ∨
    (∃ members node, a = .network members node ∧
      (∀ i ∈ members, i < nrNodesMax ∧ (i ∉ g.members → (node i).localNodeid = i)) ∧
      g' = g.changed env members node) ∨
    (∃ i stale msg rest, a = .deliver i stale ∧ i ∈ g.members ∧ g.flight i = msg :: rest ∧
      g' = g.delivered env i msg rest stale) ∨
    ∃ i r, a.driver? = some i ∧ g.Serving i ∧ driverStep env (g.node i) a = some r ∧
      g' = g.act i r := by
  have hdrive : ∀ i, a.driver? = some i → g.drive env i a = some g' →
      ∃ i r, a.driver? = some i ∧ g.Serving i ∧ driverStep env (g.node i) a = some r ∧
        g' = g.act i r := by
    intro i ha hd
    unfold drive at hd
    split at hd
    · rename_i hserv
      obtain ⟨r, hr, rfl⟩ := Option.map_eq_some_iff.1 hd
      exact ⟨i, r, ha, hserv, hr, rfl⟩
    · cases hd
  cases a with
  | join i dev errno =>
    obtain ⟨hno, heq⟩ := Option.ite_none_left_eq_some.1 h
    obtain ⟨hi, hlt⟩ := not_or.1 hno
    exact .inl ⟨i, dev, errno, rfl, hi, Nat.not_le.1 hlt, (Option.some.inj heq).symm⟩
  | leave k =>
    obtain ⟨hk, heq⟩ := Option.ite_none_right_eq_some.1 h
    exact .inr (.inl ⟨k, rfl, hk, (Option.some.inj heq).symm⟩)
  | network members node =>
    obtain ⟨hm, heq⟩ := Option.ite_none_right_eq_some.1 h
    exact .inr (.inr (.inl ⟨members, node, rfl, hm, (Option.some.inj heq).symm⟩))
  | deliver i stale =>
    obtain ⟨hi, heq⟩ := Option.ite_none_right_eq_some.1 h
    split at heq
    · cases heq
    · rename_i msg rest hf
      exact .inr (.inr (.inr (.inl ⟨i, stale, msg, rest, rfl, hi, hf, (Option.some.inj heq).symm⟩)))
  | write i _ _ _ _ _ | turn i | openDev i _ | sendOpen i | wake i | spurious i =>
    exact .inr (.inr (.inr (.inr (hdrive i rfl h))))

end Events

end Net

end Rdisk

end MolIpc
