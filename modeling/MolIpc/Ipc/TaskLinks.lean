import MolIpc.Ipc.Holding
import MolIpc.Lib.Paired
import MolIpc.Lib.Reach

/-!
The references between the slots of the DCs of a node and its Linux tasks: `p_task` of a
descriptor and `task_proc` of a task.

`mm_bind`, `do_unbind` and `mm_migrate` have the lock of the DC from their checks to their end.
`mm_bind` releases the descriptor in between to take the lock of the task, and `mm_exit_unbind`
reads `task_proc` before it takes the lock of the DC: these two are made of two steps each. What
the calls find in the Linux kernel is here part of the state.
-/

namespace MolIpc

open References Reach

/-- How far a task is in `mm_exit_unbind`: it has read `task_proc`, or it is through. -/
inductive ExitPc
  | no
  | unbinding (s : ℤ × ℤ)
  | done
  deriving DecidableEq, Repr

/-- A bind between its two parts: what it was called with, and the node of the process. -/
structure BindCall where
  oper : BindOper
  caller : ℤ
  pid : ℤ
  ep : ℤ
  node : ℤ
  pairFree : Bool
  deriving DecidableEq, Repr

/-- The tables of the DCs and the tasks. `hashed` are the identifiers that `find_vpid` finds,
`binding` the binds that have the lock of their DC, and `taken` counts the calls that have given a
task to a slot since it lost the last one. -/
structure Kernel where
  node : ℤ → Node
  pTask : ℤ × ℤ → Option ℤ
  taskProc : ℤ → Option (ℤ × ℤ)
  hashed : ℤ → Bool
  tgid : ℤ → ℤ
  exit : ℤ → ExitPc
  binding : ℤ → Option BindCall
  taken : ℤ × ℤ → ℕ

def Proc.keepHolding (p : Proc) (h : Holding) : Proc :=
  { p with
    rts := { p.rts with slotFree := h.slotFree, remote := h.remote }
    misc := { p.misc with rmtbackup := h.rmtbackup } }

namespace Kernel

variable (c : Kernel)

/-- Who holds the slot `s`. -/
def holding (s : ℤ × ℤ) : Holding := ((c.node s.1).proc s.2).holding

def setNode (d : ℤ) (n : Node) : Kernel := { c with node := Function.update c.node d n }

def link (s : ℤ × ℤ) (task : ℤ) : Kernel :=
  { c with
    pTask := Function.update c.pTask s (some task)
    taskProc := Function.update c.taskProc task (some s)
    taken := Function.update c.taken s (c.taken s + 1) }

def clear (s : ℤ × ℤ) : Kernel :=
  { c with
    pTask := Function.update c.pTask s none
    taken := Function.update c.taken s 0 }

/-- A thread, given as its task and its process number, leaves its slot in the DC `d`. -/
def detach (d : ℤ) (t : ℤ × ℤ) : Kernel :=
  { c with
    pTask := Function.update c.pTask (d, t.2) none
    taskProc := Function.update c.taskProc t.1 none
    taken := Function.update c.taken (d, t.2) 0 }

/-! ### Binding -/

/-- What `mm_bind` finds. -/
def bindEnv (caller pid : ℤ) (pairFree : Bool) : BindEnv where
  current := decide (pid = caller)
  ownGroup := decide (c.tgid caller = pid)
  found := c.hashed pid
  tgid := c.tgid pid
  leader := decide (c.tgid pid = pid)
  leaderDcid := (c.taskProc (c.tgid pid)).map fun s => (c.node s.1).conf.dcid
  pairFree := pairFree

/-- The first part of `mm_bind`. The descriptor is cleared before the task is looked for. -/
def bindOpen (d caller : ℤ) (oper : BindOper) (pid ep nodeid : ℤ) (pairFree : Bool) : Kernel :=
  let n := c.node d
  let (n', ret) := n.bindOpen oper ep nodeid (c.bindEnv caller pid pairFree)
  let c' := c.setNode d n'
  let c' :=
    if n.bindClears oper ep nodeid then
      { c' with pTask := Function.update c.pTask (d, endpointP ep) none }
    else c'
  match ret with
  | .error _ => c'
  | .ok node =>
    { c' with binding := Function.update c.binding d (some ⟨oper, caller, pid, ep, node, pairFree⟩) }

/-- The second part of `mm_bind`, that ends with the release of the lock of the DC. -/
def bindClose (d : ℤ) (b : BindCall) : Kernel :=
  let (n', ret) := (c.node d).bindClose b.oper b.pid b.ep (c.bindEnv b.caller b.pid b.pairFree) b.node
  let c' := { c.setNode d n' with binding := Function.update c.binding d none }
  match ret with
  | .error _ => c'
  | .ok _ => if b.oper = .rmtBind then c' else c'.link (d, endpointP b.ep) b.pid

/-! ### Unbinding -/

def callerIn (task d : ℤ) : Caller :=
  match c.taskProc task with
  | none => .unbound
  | some s => if s.1 = d then .proc s.2 else .foreign

/-- `do_unbind` of the slot `s`, called by the task `task`, clears the slot. -/
def clears (task : ℤ) (s : ℤ × ℤ) : Prop := (c.node s.1).clearsSlot (c.callerIn task s.1) s.2

instance (task : ℤ) (s : ℤ × ℤ) : Decidable (c.clears task s) := by unfold clears; infer_instance

/-- `do_unbind` of the slot `s`, called by the task `task`. -/
def unbind (task : ℤ) (s : ℤ × ℤ) (sig : ℤ) : Kernel :=
  let c' := c.setNode s.1 ((c.node s.1).doUnbind (c.callerIn task s.1) s.2 sig).1
  if c.clears task s then c'.clear s else c'

/-- `mm_exit_unbind` finds a running DC and a slot in use. -/
def exitUnbinds (s : ℤ × ℤ) : Prop :=
  0 ≤ (c.node s.1).conf.dcid ∧ (c.node s.1).conf.dcid < (c.node s.1).conf.dNrDcs ∧
    (c.node s.1).conf.dcFlags = 0 ∧ ((c.node s.1).proc s.2).rts ≠ Rts.onlyFree

instance (s : ℤ × ℤ) : Decidable (c.exitUnbinds s) := by unfold exitUnbinds; infer_instance

/-- The end of `mm_exit_unbind`. The task exits whatever `do_unbind` returns. -/
def exitEnd (task : ℤ) (s : ℤ × ℤ) (sig : ℤ) : Kernel :=
  let c' := if c.exitUnbinds s then c.unbind task s sig else c
  { c' with exit := Function.update c.exit task .done }

/-! ### Migrating -/

/-- What `mm_migrate` finds. -/
def migrEnv (s : ℤ × ℤ) (pid : ℤ) (nodeFree : Bool) (threads : List (ℤ × ℤ)) : MigrEnv where
  task := (c.pTask s).isSome
  others := threads.map Prod.snd
  nodeFree := nodeFree
  found := c.hashed pid

/-- The threads that `old_migrate` meets: the task of the slot and the others of its group. -/
def group (s : ℤ × ℤ) (threads : List (ℤ × ℤ)) : List (ℤ × ℤ) :=
  ((c.pTask s).map fun task => (task, s.2)).toList ++ threads

/-- The threads of a process are bound to slots of the DC of the process. -/
def GroupFits (s : ℤ × ℤ) (threads : List (ℤ × ℤ)) : Prop :=
  ((c.group s threads).map Prod.fst).Nodup ∧
    ∀ t ∈ c.group s threads, c.taskProc t.1 = some (s.1, t.2)

instance (s : ℤ × ℤ) (threads : List (ℤ × ℤ)) : Decidable (c.GroupFits s threads) := by
  unfold GroupFits; infer_instance

/-- `mm_migrate`. There is no step if `old_migrate` follows a `p_task` that is not there. -/
def migrate (d : ℤ) (oper : MigrOper) (pid ep new : ℤ) (nodeFree : Bool)
    (threads : List (ℤ × ℤ)) : Option Kernel :=
  let n := c.node d
  let s := (d, endpointP ep)
  let env := c.migrEnv s pid nodeFree threads
  let c' := c.setNode d (n.migrate env oper pid ep new).1
  if n.migrLeaves env oper pid ep new then
    if (c.pTask s).isSome then some ((c.group s threads).foldl (fun c t => c.detach d t) c') else none
  else if n.migrArrives env oper pid ep new ∧ (n.proc s.2).misc.rmtbackup = false then
    some (c'.link s pid)
  else some c'

/-! ### Steps -/

/-- `reap` is the end of a task that has exited, and `ipc` what the IPC calls and the proxies do in
a descriptor. -/
inductive Label
  | bindOpen (d caller : ℤ) (oper : BindOper) (pid ep nodeid : ℤ) (pairFree : Bool)
  | bindClose (d : ℤ)
  | unbind (task : ℤ) (s : ℤ × ℤ) (sig : ℤ)
  | exitBegin (task : ℤ)
  | exitEnd (task sig : ℤ)
  | reap (task : ℤ)
  | migrate (d : ℤ) (oper : MigrOper) (pid ep new : ℤ) (nodeFree : Bool) (threads : List (ℤ × ℤ))
  | ipc (d q : ℤ) (p : Proc)

/-- One step. The calls wait for the lock of the DC, and a task that exits makes no other call. -/
def step : Label → Option Kernel
  | .bindOpen d caller oper pid ep nodeid pairFree =>
    if c.binding d = none ∧ c.exit caller = .no then
      some (c.bindOpen d caller oper pid ep nodeid pairFree)
    else none
  | .bindClose d => (c.binding d).map fun b => c.bindClose d b
  | .unbind task s sig =>
    if c.binding s.1 = none ∧ c.exit task = .no then some (c.unbind task s sig) else none
  | .exitBegin task =>
    if c.exit task = .no then
      some { c with
        exit := Function.update c.exit task ((c.taskProc task).elim .done .unbinding) }
    else none
  | .exitEnd task sig =>
    match c.exit task with
    | .unbinding s => if c.binding s.1 = none then some (c.exitEnd task s sig) else none
    | _ => none
  | .reap task =>
    if c.exit task = .done then some { c with hashed := Function.update c.hashed task false }
    else none
  | .migrate d oper pid ep new nodeFree threads =>
    if c.binding d = none ∧ c.GroupFits (d, endpointP ep) threads then
      c.migrate d oper pid ep new nodeFree threads
    else none
  | .ipc d q p =>
    some (c.setNode d ((c.node d).modProc q fun old => p.keepHolding old.holding))

end Kernel

end MolIpc
