import MolIpc.Ipc.Unbind

/-!
`mm_bind`: a process takes a slot of the table of its DC.

What the call finds in the Linux kernel (the task of the process identifier, its thread group) and
in the table of the proxies is part of its input. The descriptor is released once, between the
search of the task and its own lock: `bindOpen` is the part before, `bindClose` the part after.
-/

namespace MolIpc

/-- The bind types. -/
inductive BindOper
  | selfBind
  | lclBind
  | rmtBind
  | bkupBind
  | replicaBind
  deriving DecidableEq, Repr

/-- What `mm_bind` finds: whose process identifier it is, the thread group of the task with its
leader, and whether the proxy pair of the node is free. -/
structure BindEnv where
  current : Bool := false
  ownGroup : Bool := false
  found : Bool := false
  tgid : ℤ := 0
  leader : Bool := false
  leaderDcid : Option ℤ := none
  pairFree : Bool := false
  deriving DecidableEq, Repr

namespace Node

variable (n : Node) (oper : BindOper) (pid ep nodeid : ℤ) (env : BindEnv)

/-! ### Checks -/

def bindNode : Option ℤ :=
  match oper with
  | .selfBind | .lclBind | .replicaBind =>
    if nodeid ≠ localNode then none else some n.conf.localNodeid
  | .rmtBind | .bkupBind =>
    if ¬ (0 ≤ nodeid ∧ nodeid < n.conf.dNrNodes) then none
    else if nodeid = n.conf.localNodeid then none
    else some nodeid

/-- The checks on the DC and the slot. A backup or a replica may take a slot that is in use. -/
def bindCheck (node : ℤ) : ℤ :=
  if ¬ (0 ≤ n.conf.dcid ∧ n.conf.dcid < n.conf.dNrDcs) then EMol.baddcid
  else if n.conf.dcFlags ≠ 0 then EMol.dcnotrun
  else if ¬ n.conf.inRange (endpointP ep) then EMol.baddcid
  else if ¬ n.conf.dcNodes node then EMol.nodcnode
  else if ¬ (n.proc (endpointP ep)).rts.slotFree ∧ oper ≠ .bkupBind ∧ oper ≠ .replicaBind then
    EMol.slotused
  else EMol.ok

def bindTask : ℤ :=
  match oper with
  | .rmtBind => EMol.ok
  | .selfBind => if env.current ∨ env.ownGroup ∧ env.found then EMol.ok else EMol.badproc
  | _ => if env.current ∨ env.found then EMol.ok else EMol.badproc

/-- The checks on the thread group of the task, and on the proxies of a remote process. -/
def bindGroup : ℤ :=
  if oper = .rmtBind then if env.pairFree then EMol.noproxy else EMol.ok
  else if env.leader then EMol.ok
  else
    match env.leaderDcid with
    | none => EMol.grpleader
    | some d => if d ≠ n.conf.dcid then EMol.badproc else EMol.ok

/-! ### The call -/

/-- `s_id` of the slot `i`. -/
def slotSid (i : ℤ) : ℤ :=
  if i + n.conf.dcNrTasks < n.conf.dcNrSysprocs then i + n.conf.dcNrTasks else n.conf.dcNrSysprocs

/-- The descriptor of a process that is bound. The endpoint is not written. -/
def bindFill (node : ℤ) (p : Proc) : Proc :=
  let p := { p with
    sId := n.slotSid (endpointP ep), nodeid := node
    nodemap := Function.update p.nodemap node true }
  match oper with
  | .rmtBind => { p with rts := { remote := true } }
  | .bkupBind =>
    { p with
      rts := { remote := true }, misc := { grpleader := env.leader, rmtbackup := true }
      lpid := pid, tgid := env.tgid }
  | oper =>
    { p with
      rts := Rts.running
      misc := { grpleader := env.leader, replicated := decide (oper = .replicaBind) }
      lpid := pid, tgid := env.tgid }

/-- `mm_bind` up to the lock of the task, with the node of the process. -/
def bindOpen : Node × Except ℤ ℤ :=
  match n.bindNode oper nodeid with
  | none => (n, .error EMol.badnodeid)
  | some node =>
    if n.bindCheck oper ep node ≠ EMol.ok then (n, .error (n.bindCheck oper ep node))
    else
      let n := n.modProc (endpointP ep) (·.initDesc n.conf.dcid)
      if bindTask oper env ≠ EMol.ok then (n, .error (bindTask oper env)) else (n, .ok node)

/-- The rest of `mm_bind`. What is returned is the endpoint of the descriptor. -/
def bindClose (node : ℤ) : Node × Except ℤ ℤ :=
  if n.bindGroup oper env ≠ EMol.ok then (n, .error (n.bindGroup oper env))
  else
    (n.modProc (endpointP ep) (n.bindFill oper pid ep env node),
      .ok (n.proc (endpointP ep)).endpoint)

/-- `mm_bind`, undisturbed. -/
def bind : Node × Except ℤ ℤ :=
  match n.bindOpen oper ep nodeid env with
  | (n, .error code) => (n, .error code)
  | (n, .ok node) => n.bindClose oper pid ep env node

/-- `do_autobind`: the slot of a process of which a message comes in; `lock` is the result of
locking the proxies. -/
def autobind (lock : ℤ) (pairFree : Bool) : Node × Except ℤ ℤ :=
  let i := endpointP ep
  if ¬ (0 ≤ n.conf.dcid ∧ n.conf.dcid < n.conf.dNrDcs) then (n, .error EMol.baddcid)
  else if ¬ n.conf.inRange i then (n, .error EMol.baddcid)
  else if ¬ (0 ≤ nodeid ∧ nodeid < n.conf.dNrNodes) then (n, .error EMol.badnodeid)
  else if ¬ n.conf.dcNodes nodeid then (n, .error EMol.nodcnode)
  else if ¬ (n.proc i).rts.slotFree then (n, .error EMol.slotused)
  else
    let n := n.modProc i (·.initDesc n.conf.dcid)
    if nodeid = n.conf.localNodeid then (n, .error EMol.badnodeid)
    else if lock ≠ EMol.ok then (n, .error lock)
    else if pairFree then (n, .error EMol.noproxy)
    else
      (n.modProc i fun p =>
        { p with
          rts := { remote := true }, endpoint := ep, nodeid := nodeid, sId := n.slotSid i
          nodemap := Function.update p.nodemap nodeid true }, .ok ep)

/-! ### Endpoints -/

theorem bindOpen_endpoint (q : ℤ) :
    ((n.bindOpen oper ep nodeid env).1.proc q).endpoint = (n.proc q).endpoint := by
  have hinit : ((n.modProc (endpointP ep) (·.initDesc n.conf.dcid)).proc q).endpoint =
      (n.proc q).endpoint := modProc_endpoint _ q fun _ => by rfl
  unfold bindOpen
  split
  · rfl
  · split
    · rfl
    · split <;> exact hinit

theorem bindFill_endpoint (node : ℤ) (p : Proc) :
    (n.bindFill oper pid ep env node p).endpoint = p.endpoint := by
  cases oper <;> rfl

theorem bindClose_endpoint (node q : ℤ) :
    ((n.bindClose oper pid ep env node).1.proc q).endpoint = (n.proc q).endpoint := by
  unfold bindClose
  split
  · rfl
  · exact modProc_endpoint _ q fun p => bindFill_endpoint n oper pid ep env node p

theorem bind_endpoint (q : ℤ) :
    ((n.bind oper pid ep nodeid env).1.proc q).endpoint = (n.proc q).endpoint := by
  have ho := bindOpen_endpoint n oper ep nodeid env q
  unfold bind
  split
  · rename_i h
    rw [h] at ho
    exact ho
  · rename_i h
    rw [h] at ho
    exact (bindClose_endpoint _ oper pid ep env _ q).trans ho

variable {n oper pid ep nodeid env}

theorem bind_eq_ok {r : ℤ} (h : (n.bind oper pid ep nodeid env).2 = .ok r) :
    r = (n.proc (endpointP ep)).endpoint := by
  have ho := bindOpen_endpoint n oper ep nodeid env (endpointP ep)
  unfold bind at h
  split at h
  · cases h
  · rename_i m node hopen
    rw [hopen] at ho
    unfold bindClose at h
    split at h
    · cases h
    · cases h
      exact ho

end Node

end MolIpc
