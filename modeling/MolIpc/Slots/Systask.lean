import MolIpc.Slots.Node

/-!
The SYSTASK thread of a node: the end of `init_systask`, and the calls that take slots and give
them back (`do_fork`, `do_exit`, `do_bindproc`, `do_unbind`). With the events of `slots_loop` they
are the steps of a node on its own, whatever the other nodes send.

The kernel calls succeed, except that `mnx_unbind` does nothing to a free descriptor. The
multicasts about system processes (`SYS_SYSCALL`) and the endpoints of these are left out.
-/

namespace MolIpc

namespace Slots

/-- What `get_free_proc` returns: a slot, `EMOLNOSPC`, or nothing after `assert(0)`. -/
inductive FreeProc
  | slot (i : ℕ)
  | noSpace
  | fails
  deriving DecidableEq

/-- SYSTASK wakes up at `sys_barrier`, or serves a call. With `sysBind` a system process of the node
`k` is bound to the slot `i`, by the kernel alone. -/
inductive Call
  | wake
  | sysBind (i k : ℕ)
  | fork (paused : Bool)
  | exit (i : ℕ) (garbage : Bool)
  | bindproc (i : ℕ) (rmtBind : Option ℕ)
  | unbind (i : ℕ)

/-- A step of a node: an event of `slots_loop`, or one of SYSTASK. -/
inductive Act
  | event (env : Env) (e : Event)
  | call (k : Call)

namespace Node

variable {c : Conf} {k : ℕ} {members : Finset ℕ}

/-- SYSTASK asks for slots again as long as it has none, or ends `init_systask`. -/
def wake (c : Conf) (n : Node) : Node × List Msg :=
  if n.retries = 0 then ({ n with life := .gone }, [])
  else if n.fsm = .reqSlots ∧ n.ownedSlots = 0 then
    { n with systask := .asleep, retries := n.retries - 1 }.mcastRqstSlots c.freeSlotsLow
  else (setMax c { n with systask := .up, freeSlots := n.ownedSlots }, [])

/-- The first half of `get_free_proc`: a node with few free slots asks for more, once in
`SLOTS_PAUSE` seconds. -/
def askForSlots (c : Conf) (n : Node) (paused : Bool) : Node × List Msg :=
  if n.freeSlots < c.freeSlotsLow ∧ n.ownedSlots < n.maxOwnedSlots ∧ n.bmDonors = ∅ ∧
      n.bmWaitsts = ∅ ∧ paused = true then
    let fair := ceiling n.maxOwnedSlots n.initNodes
    n.mcastRqstSlots (if n.ownedSlots < fair then fair - n.ownedSlots else
      c.freeSlotsLow - n.freeSlots)
  else (n, [])

/-- The second half of `get_free_proc`. -/
def getFreeProc (c : Conf) (n : Node) : FreeProc :=
  if n.freeSlots = 0 then .noSpace
  else
    match (n.freeOwned c).head? with
    | some i => .slot i
    | none => .fails

/-- `do_fork`, called by PM. It asks `mnx_lclbind` for the endpoint of the next generation, but
`mm_bind` never changes the endpoint of a slot and returns the old one: `do_fork` gives up with the
process bound, before it counts `free_slots` down. -/
def doFork (c : Conf) (n : Node) (paused : Bool) : Node × List Msg :=
  andThen (n.askForSlots c paused) fun n =>
    match n.getFreeProc c with
    | .slot i => ({ n with desc := Function.update n.desc i (.bound n.localNodeid) }, [])
    | .noSpace => (n, [])
    | .fails => ({ n with life := .gone }, [])

/-- `mnx_unbind`: a descriptor that is free already stays as it is. -/
def unbindDesc (n : Node) (i : ℕ) : Node :=
  match n.desc i with
  | .free _ => n
  | .bound _ => { n with desc := Function.update n.desc i (.free false) }

def clearSysSlot (c : Conf) (n : Node) (i : ℕ) : Node :=
  if i < c.dcNrSysprocs then
    { n with slot := Function.update n.slot i ⟨noneEp, false, false, none⟩ }
  else n

/-- `do_exit`. For a user process `flags` is not initialised: `garbage` is the bit `REMOTE` of what
it holds. -/
def doExit (c : Conf) (n : Node) (i : ℕ) (garbage : Bool) : Node :=
  let remote :=
    if i < c.dcNrSysprocs then decide ((n.slot i).owner ≠ some n.localNodeid) else garbage
  let n := (n.clearSysSlot c i).unbindDesc i
  if remote then n else { n with freeSlots := n.freeSlots + 1 }

/-- `do_unbind` of the process in slot `i`. -/
def doUnbind (c : Conf) (n : Node) (i : ℕ) : Node :=
  match n.desc i with
  | .free false => n
  | .free true => n.clearSysSlot c i
  | .bound k =>
    let n := (n.clearSysSlot c i).unbindDesc i
    if k ≠ n.localNodeid then n else { n with freeSlots := n.freeSlots + 1 }

/-- The slot of a system process gets the node of the process as its owner. -/
def bindSys (n : Node) (i : ℕ) : Node :=
  match n.desc i with
  | .free _ => n
  | .bound k =>
    { n with slot := Function.update n.slot i ⟨(n.slot i).endpoint, false, false, some k⟩ }

/-- `do_bindproc` of a process in slot `i`, with `RMT_BIND` for the node `nodeid` or with another
operation. -/
def doBindproc (c : Conf) (n : Node) (i : ℕ) (rmtBind : Option ℕ) : Node :=
  match rmtBind with
  | some nodeid =>
    if (n.slot i).owner ≠ some nodeid then n
    else if c.dcNrSysprocs ≤ i then
      if nodeid = n.localNodeid then n
      else
        match n.desc i with
        | .free _ => { n with desc := Function.update n.desc i (.bound nodeid) }
        | .bound _ => n
    else n.bindSys i
  | none =>
    if (n.slot i).owner ≠ none ∧ (n.slot i).owner ≠ some n.localNodeid then n
    else if c.dcNrSysprocs ≤ i then n
    else n.bindSys i

/-- A step of SYSTASK. Calls are served from the end of `init_systask` on. -/
def call (c : Conf) (n : Node) (k : Call) : Option (Node × List Msg) :=
  if n.life ≠ .alive then none
  else
    match k with
    | .wake => if n.systask = .signalled then some (n.wake c) else none
    | .sysBind i k =>
      if i < c.dcNrSysprocs then some ({ n with desc := Function.update n.desc i (.bound k) }, [])
      else none
    | .fork paused => if n.systask = .up then some (n.doFork c paused) else none
    | .exit i garbage => if n.systask = .up then some (n.doExit c i garbage, []) else none
    | .bindproc i rmtBind => if n.systask = .up then some (n.doBindproc c i rmtBind, []) else none
    | .unbind i => if n.systask = .up then some (n.doUnbind c i, []) else none

/-- A node after its own join, with the members of the group then. -/
def start (c : Conf) (localNodeid : ℕ) (members : Finset ℕ) : Node :=
  (((init c localNodeid).setView members).spJoin c localNodeid).1

theorem start_of_card_eq_one (h : members.card = 1) :
    start c k members = ((init c k).setView members).lonelyJoin c := by
  simp [start, spJoin, setView, init, h]

theorem start_of_card_ne_one (h : members.card ≠ 1) :
    start c k members = ((init c k).setView members).awaitStatus := by
  simp [start, spJoin, setView, init, h]

def ownJoin (n : Node) : Event → Bool
  | .join mbr _ => mbr = n.localNodeid
  | _ => false

def step (c : Conf) (n : Node) : Act → Option Node
  | .event env e =>
    if n.life = .alive ∧ n.ownJoin e = false then some (n.handle c env e).1 else none
  | .call k => (n.call c k).map Prod.fst

end Node

end Slots

end MolIpc
