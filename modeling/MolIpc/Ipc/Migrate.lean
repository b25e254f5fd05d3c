import MolIpc.Ipc.Unbind

/-!
`mm_migrate`: a process moves to another node.

A migration is started, and then rolled back or committed, on each node on its own. The nodes
where the process is remote only mark its descriptor; on the old node all the threads of the
process that are bound take part, on the new one the descriptor gets its task. What the call finds
in the Linux kernel and in the table of the nodes is part of its input.
-/

namespace MolIpc

open Sections

inductive MigrOper
  | start
  | rollback
  | commit
  deriving DecidableEq, Repr

/-- What `mm_migrate` finds: whether the process has a task, its other bound threads, whether the
new node is free, and whether a task has the process identifier. -/
structure MigrEnv where
  task : Bool := true
  others : List ℤ := []
  nodeFree : Bool := false
  found : Bool := true
  deriving DecidableEq, Repr

namespace Proc

/-- The state that a process must have to start a migration (`marked` is false), or to roll it
back. -/
def migrCheck (p : Proc) (marked : Bool) : ℤ :=
  if p.rts.slotFree then EMol.notbind
  else if p.rts.oncopy then EMol.oncopy
  else if p.rts.rmtoper then EMol.busy
  else if p.rts.noEndpoint then EMol.endpoint
  else if p.rts.migrate ≠ marked then EMol.migrate
  else EMol.ok

/-- `clear_bit(MIS_BIT_NEEDMIGR)` and `clear_bit(BIT_MIGRATE)`. -/
def unmark (p : Proc) : Proc :=
  { p with rts := { p.rts with migrate := false }, misc := { p.misc with needmigr := false } }

def endWaitmigr (p : Proc) : Proc :=
  { p with rts := { p.rts with waitmigr := false }, waitmigr := noneEp }.upIfReady EMol.migrate

def replay (p : Proc) : Proc :=
  { p with
    rts := { p.rts with sending := false, receiving := false }
    getfrom := noneEp, sendto := noneEp }.upIfReady EMol.migrate

/-- The local descriptor of a process that is now at the node `new`, woken up with an error if it
was in a call. -/
def leave (p : Proc) (new : ℤ) : Proc :=
  let p := { p with
    misc := { p.misc with grpleader := false }, lpid := procNoPid, nodeid := new
    rts := { p.rts with migrate := false } }
  let left := { p with rts := { p.rts with remote := true } }
  if p.rts ≠ Rts.running then left.up EMol.rmtproc else left

end Proc

namespace Node

/-! ### Waiters and senders -/

/-- The process `x` in the queue of those that wait for the end of the migration of `i`. -/
def flushMigr (i x : ℤ) (n : Node) : Node :=
  let n := n.unlinkM x
  if (n.proc x).waitmigr = (n.proc i).endpoint then n.modProc x Proc.endWaitmigr else n

/-- `flush_migr_list`. -/
def flushMigrList (i : ℤ) (n : Node) : Node :=
  (n.proc i).mlist.foldl (fun n x => n.flushMigr i x) n

/-- The process `x` in the queue of senders. The acknowledge for a remote one is made of the command
that its descriptor has carried last. -/
def flushSender (x : ℤ) (n : Node) : Node :=
  let n := n.unlink x
  let cmd := (n.proc x).rmtcmd
  if ¬ (n.proc x).rts.remote then n.modProc x Proc.replay
  else if cmd.cmd.isAck then n
  else (n.errorLcl2rmt cmd.cmd.orAck x cmd EMol.migrate).1

/-- `flush_sending_list`. -/
def flushSendingList (i : ℤ) (n : Node) : Node :=
  (n.proc i).list.foldl (fun n x => n.flushSender x) n

/-! ### The operations -/

variable (n : Node) (i : ℤ) (env : MigrEnv)

def threadsError (check : Proc → ℤ) (ts : List ℤ) : ℤ :=
  ((ts.map fun t => check (n.proc t)).find? (· ≠ EMol.ok)).getD EMol.ok

/-- The turn of the thread `t` in `migr_rollback`. -/
def rollbackThread (t : ℤ) (n : Node) : Node :=
  ((n.modProc t Proc.unmark).flushMigrList t).modProc t (·.upIfReady EMol.ok)

/-- `migr_rollback`. -/
def migrRollback : Node × ℤ :=
  if (n.proc i).rts.remote then
    if (n.proc i).migrCheck true ≠ EMol.ok then (n, (n.proc i).migrCheck true)
    else (n.modProc i Proc.unmark, EMol.ok)
  else if ¬ (n.proc i).misc.grpleader then (n, EMol.grpleader)
  else
    let ret := n.threadsError (·.migrCheck true) (i :: env.others)
    if ret ≠ EMol.ok then (n, ret)
    else ((i :: env.others).foldl (fun n t => n.rollbackThread t) n, EMol.ok)

/-- `migr_start`. A local process gets the bit `BIT_MIGRATE` when it sleeps next. -/
def migrStart : Node × ℤ :=
  if (n.proc i).rts.remote then
    if (n.proc i).migrCheck false ≠ EMol.ok then (n, (n.proc i).migrCheck false)
    else (n.modProc i fun p => { p with rts := { p.rts with migrate := true } }, EMol.ok)
  else if ¬ (n.proc i).misc.grpleader then (n, EMol.grpleader)
  else
    let ret := n.threadsError (·.migrCheck false) (i :: env.others)
    if ret ≠ EMol.ok then (n, ret)
    else
      ((i :: env.others).foldl (fun n t => n.modProc t fun p =>
        { p with misc := { p.misc with needmigr := true } }) n, EMol.ok)

/-- The turn of the thread `t` in `old_migrate`: a local process becomes a remote one. -/
def oldThread (new t : ℤ) (n : Node) : Node :=
  ((n.modProc t (·.leave new)).flushSendingList t).flushMigrList t

/-- `old_migrate`. -/
def oldMigrate (new : ℤ) : Node × ℤ :=
  let ret := n.threadsError (fun p => if p.rts.migrate then EMol.ok else EMol.migrate)
    (i :: env.others)
  if ret ≠ EMol.ok then (n, ret)
  else if ¬ (n.proc i).misc.grpleader then (n, EMol.grpleader)
  else ((i :: env.others).foldl (fun n t => n.oldThread new t) n, EMol.ok)

/-- `new_migrate`. The waiters are left alone. -/
def newMigrate (pid : ℤ) : Node × ℤ :=
  if ¬ (n.proc i).misc.rmtbackup ∧ ¬ env.found then (n, EMol.badproc)
  else if (n.proc i).misc.rmtbackup ∧ (n.proc i).lpid ≠ pid then (n, EMol.badpid)
  else
    (n.modProc i fun p =>
      { p with lpid := pid, nodeid := n.conf.localNodeid, rts := Rts.running }, EMol.ok)

/-- The checks on the new node. The DC whose bit is looked for is the first one of the table. -/
def newNodeCheck (new : ℤ) : ℤ :=
  if ¬ (0 ≤ new ∧ new < n.conf.dNrNodes) then EMol.noproxy
  else if env.nodeFree then EMol.noproxy
  else if ¬ n.conf.dcNodes new then EMol.dcnode
  else if ¬ n.conf.nDcs new 0 then EMol.dcnode
  else EMol.ok

/-- `migr_commit` on the old node, the new one or another. -/
def migrMove (pid new : ℤ) : Node × ℤ :=
  if n.conf.localNodeid = (n.proc i).nodeid then n.oldMigrate i env new
  else if n.conf.localNodeid = new then n.newMigrate i env pid
  else ((n.modProc i fun p => { p with nodeid := new }).flushMigrList i, EMol.ok)

/-- `migr_commit`. -/
def migrCommit (pid new : ℤ) : Node × ℤ :=
  if n.newNodeCheck env new ≠ EMol.ok then (n, n.newNodeCheck env new)
  else
    let (m, ret) := n.migrMove i env pid new
    if ret ≠ EMol.ok then (m, ret)
    else
      (m.modProc i fun p =>
        { p with nodemap := Function.update p.nodemap new true }.unmark, EMol.ok)

def migrOp (oper : MigrOper) (pid new : ℤ) : Node × ℤ :=
  match oper with
  | .start => n.migrStart i env
  | .rollback => n.migrRollback i env
  | .commit => n.migrCommit i env pid new

/-- `mm_migrate`. -/
def migrate (oper : MigrOper) (pid ep new : ℤ) : Node × ℤ :=
  let i := endpointP ep
  if ¬ (0 ≤ n.conf.dcid ∧ n.conf.dcid < n.conf.dNrDcs) then (n, EMol.baddcid)
  else if ¬ n.conf.inRange i then (n, EMol.range)
  else if ¬ (n.proc i).rts.remote ∧ ¬ env.task then (n, EMol.badproc)
  else n.migrOp i env oper pid new

/-! ### What a migration leaves -/

inductive Migrated (n : Node) (i : ℤ) (env : MigrEnv) (pid new : ℤ) : MigrOper → Node → Prop
  | startRemote : (n.proc i).rts.remote = true →
      Migrated n i env pid new .start
        (n.modProc i fun p => { p with rts := { p.rts with migrate := true } })
  | start : (n.proc i).rts.remote = false →
      Migrated n i env pid new .start ((i :: env.others).foldl (fun n t => n.modProc t fun p =>
        { p with misc := { p.misc with needmigr := true } }) n)
  | rollbackRemote : (n.proc i).rts.remote = true →
      Migrated n i env pid new .rollback (n.modProc i Proc.unmark)
  | rollback : (n.proc i).rts.remote = false →
      Migrated n i env pid new .rollback
        ((i :: env.others).foldl (fun n t => n.rollbackThread t) n)
  | old : n.conf.localNodeid = (n.proc i).nodeid →
      Migrated n i env pid new .commit
        (((i :: env.others).foldl (fun n t => n.oldThread new t) n).modProc i fun p =>
          { p with nodemap := Function.update p.nodemap new true }.unmark)
  | new : n.conf.localNodeid ≠ (n.proc i).nodeid → n.conf.localNodeid = new →
      Migrated n i env pid new .commit
        ((n.modProc i fun p =>
          { p with lpid := pid, nodeid := n.conf.localNodeid, rts := Rts.running }).modProc i
          fun p => { p with nodemap := Function.update p.nodemap new true }.unmark)
  | other : n.conf.localNodeid ≠ (n.proc i).nodeid → n.conf.localNodeid ≠ new →
      Migrated n i env pid new .commit
        (((n.modProc i fun p => { p with nodeid := new }).flushMigrList i).modProc i fun p =>
          { p with nodemap := Function.update p.nodemap new true }.unmark)

/-- It is refused and changes nothing, or succeeds with a node that satisfies `P`. -/
def Tries (P : Node → Prop) (n : Node) (r : Node × ℤ) : Prop :=
  r.2 ≠ EMol.ok ∧ r.1 = n ∨ r.2 = EMol.ok ∧ P r.1

variable {n i env} {pid ep new : ℤ}

theorem Tries.refused {P : Node → Prop} {code : ℤ} (h : code ≠ EMol.ok) : Tries P n (n, code) :=
  .inl ⟨h, rfl⟩

theorem migrStart_tries : Tries (n.Migrated i env pid new .start) n (n.migrStart i env) := by
  unfold migrStart
  dsimp only
  split
  · rename_i hr
    split
    · exact .refused ‹_›
    · exact .inr ⟨rfl, .startRemote hr⟩
  rename_i hr
  split
  · exact .refused (by decide)
  split
  · exact .refused ‹_›
  · exact .inr ⟨rfl, .start (Bool.eq_false_iff.mpr hr)⟩

theorem migrRollback_tries :
    Tries (n.Migrated i env pid new .rollback) n (n.migrRollback i env) := by
  unfold migrRollback
  dsimp only
  split
  · rename_i hr
    split
    · exact .refused ‹_›
    · exact .inr ⟨rfl, .rollbackRemote hr⟩
  rename_i hr
  split
  · exact .refused (by decide)
  split
  · exact .refused ‹_›
  · exact .inr ⟨rfl, .rollback (Bool.eq_false_iff.mpr hr)⟩

variable (n i env pid new) in
theorem migrMove_tries : Tries (fun m => n.Migrated i env pid new .commit (m.modProc i fun p =>
    { p with nodemap := Function.update p.nodemap new true }.unmark)) n
    (n.migrMove i env pid new) := by
  unfold migrMove
  split
  · rename_i hold
    unfold oldMigrate
    dsimp only
    split
    · exact .refused ‹_›
    split
    · exact .refused (by decide)
    · exact .inr ⟨rfl, .old hold⟩
  rename_i hold
  split
  · rename_i hnew
    unfold newMigrate
    split
    · exact .refused (by decide)
    split
    · exact .refused (by decide)
    · exact .inr ⟨rfl, .new hold hnew⟩
  · exact .inr ⟨rfl, .other hold ‹_›⟩

theorem migrCommit_tries :
    Tries (n.Migrated i env pid new .commit) n (n.migrCommit i env pid new) := by
  unfold migrCommit
  split
  · exact .refused ‹_›
  rcases migrMove_tries n i env pid new with ⟨hne, hn⟩ | ⟨hok, hm⟩
  · exact .inl ⟨by simp [hne], by simpa [hne] using hn⟩
  · exact .inr ⟨by simp [hok], by simpa [hok] using hm⟩

theorem migrate_tries (n : Node) (env : MigrEnv) (oper : MigrOper) (pid ep new : ℤ) :
    Tries (fun m => n.conf.inRange (endpointP ep) ∧
      ((n.proc (endpointP ep)).rts.remote = true ∨ env.task = true) ∧
      n.Migrated (endpointP ep) env pid new oper m) n (n.migrate env oper pid ep new) := by
  unfold migrate
  dsimp only
  split
  · exact .refused (by decide)
  split
  · exact .refused (by decide)
  rename_i hr
  split
  · exact .refused (by decide)
  rename_i ht
  have hop : Tries (n.Migrated (endpointP ep) env pid new oper) n
      (n.migrOp (endpointP ep) env oper pid new) := by
    cases oper with
    | start => exact migrStart_tries
    | rollback => exact migrRollback_tries
    | commit => exact migrCommit_tries
  refine hop.imp_right (.imp_right fun hm => ⟨not_not.mp hr, ?_, hm⟩)
  by_contra hno
  rw [not_or, Bool.not_eq_true] at hno
  exact ht ⟨by simp [hno.1], hno.2⟩

end Node

end MolIpc
