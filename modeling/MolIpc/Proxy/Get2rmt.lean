import MolIpc.Proxy.Put2lcl

/-!
The sender side of the proxies (`mm_get2rmt` of `mm_sproxy.c`): what a sender proxy takes from
its queue and hands to its user program, to be sent to another node.

The call works on one descriptor at a time, in two sections between which no lock is held: the
first takes the descriptor off the queue and checks it, the second fills the header and the
payload. Both take the result `cp` of the one user-memory copy they may make.
-/

namespace MolIpc

/-- What a turn of `mm_get2rmt` comes to: a header or an error for the user program, or the next
descriptor. -/
inductive Got
  | hdr (h : Hdr)
  | fail (ret : ℤ)
  | again
  deriving DecidableEq, Repr

namespace Node

/-! ### Taking a descriptor off the queue -/

def get2rmtEntry (n : Node) (px : ℤ) : ℤ :=
  let sp := n.sproxy px
  if ¬ sp.misc.proxy then EMol.noproxy
  else if ¬ sp.misc.connected then EMol.notconn
  else EMol.ok

/-- The checks on the descriptor `x` taken off the queue of proxy `px`. -/
def get2rmtCheck (n : Node) (px x : ℤ) : ℤ :=
  let p := n.proc x
  if p.rts.slotFree then EMol.notbind
  else if ¬ n.conf.nDcs p.rmtcmd.dnode n.conf.dcid then EMol.nodcnode
  else if ¬ (0 ≤ n.conf.dcid ∧ n.conf.dcid < n.conf.dNrDcs) then EMol.baddcid
  else if p.rts.migrate then EMol.migrate
  else if ¬ (n.sproxy px).nodemap p.rmtcmd.dnode then EMol.nonode
  else if n.conf.dcFlags ≠ 0 then EMol.dcnotrun
  else EMol.ok

/-- First section: the head of the queue is unlinked and checked. -/
def get2rmtDequeue (n : Node) (px : ℤ) : Option (Node × ℤ × ℤ) :=
  match (n.sproxy px).list with
  | [] => none
  | x :: _ => some (n.unlink x, x, n.get2rmtCheck px x)

/-! ### Filling the header -/

/-- The copy of `v_bytes` bytes of the process `s` to the payload buffer. -/
def copyPayload (n : Node) (s : ℤ) (v : Vcopy) (pay : Mem) (cp : ℤ) : Mem :=
  if cp = 0 then pay.blit 0 (n.proc s).mem v.saddr v.bytes.toNat else pay

/-- The switch for descriptors of remote processes, which carry acknowledges and data. -/
def get2rmtAck (n : Node) (x : ℤ) (pay : Mem) (cp : ℤ) : Option (Node × Mem × ℤ) :=
  let c := (n.proc x).rmtcmd
  let s := endpointP c.vcopy.src
  let d := endpointP c.vcopy.dst
  let big := if n.conf.maxbytes c.dnode < c.vcopy.bytes then EMol.tooBig else EMol.ok
  match c.cmd with
  | .sendAck | .sndrecAck => some (n, pay, EMol.ok)
  | .copyinAck =>
    -- the source of the acknowledge was the destination of the copy
    if d = x then none
    else if (n.proc d).endpoint = c.src then some (n.clearOncopy d, pay, EMol.ok)
    else some (n, pay, EMol.badproc)
  | .copyoutData =>
    if s = x then none
    else if (n.proc s).endpoint = c.src then
      if c.rcode = EMol.ok then some (n.clearOncopy s, n.copyPayload s c.vcopy pay cp, cp)
      else some (n.clearOncopy s, pay, big)
    else some (n, pay, EMol.badproc)
  | .copyinRqst =>
    if s = x then none
    else if (n.proc s).endpoint = c.src then
      if c.rcode = EMol.ok then
        some ((n.clearOncopy s).clearOncopy x, n.copyPayload s c.vcopy pay cp, cp)
      else some ((n.clearOncopy s).clearOncopy x, pay, big)
    else some (n, pay, EMol.badproc)
  | .copylclAck =>
    if s = x then none
    else if (n.proc s).endpoint = c.src then
      some ((n.clearOncopy s).clearOncopy x, pay, EMol.ok)
    else some (n, pay, EMol.badproc)
  | .copyrmtAck =>
    if s = x ∨ d = x ∨ s = d then none
    else if (n.proc d).endpoint = c.src ∧ (n.proc x).endpoint = c.vcopy.rqtr then
      some (((n.clearOncopy s).clearOncopy d).clearOncopy x, pay, EMol.ok)
    else some (n, pay, EMol.badproc)
  | _ => some (n, pay, EMol.inval)

/-- The switch for descriptors of local processes, which carry messages and requests. -/
def get2rmtRequest (n : Node) (x : ℤ) (pay : Mem) (cp : ℤ) : Node × Mem × ℤ :=
  let n := n.modProc x fun p => { p with rts := { p.rts with rmtoper := false } }
  let c := (n.proc x).rmtcmd
  let fromCaller := fun p : Proc =>
    { p with rmtcmd := { p.rmtcmd with msg := { p.rmtcmd.msg with source := p.endpoint } } }
  match c.cmd with
  | .copyinData =>
    if n.conf.maxbytes c.dnode < c.vcopy.bytes then (n, pay, EMol.tooBig)
    else (n, n.copyPayload (endpointP c.vcopy.src) c.vcopy pay cp, cp)
  | .copyoutRqst | .copylclRqst | .copyrmtRqst => (n, pay, EMol.ok)
  | .sndrecMsg => (n.modProc x fun p => fromCaller p.endSend, pay, EMol.ok)
  | .sendMsg | .replyMsg => (n.modProc x fromCaller, pay, EMol.ok)
  | .ntfyMsg => (n.modProc x fun p => (fromCaller p.endSend).upIfReady EMol.ok, pay, EMol.ok)
  | _ => (n, pay, EMol.inval)

/-- A command is given up: a local caller is made runnable and gets the error, a remote descriptor
stays remote. -/
def get2rmtGiveUp (n : Node) (x ret : ℤ) : Node :=
  if (n.proc x).rts.remote then n.modProc x fun p => { p with rts := { remote := true } }
  else n.modProc x fun p => { p with rts := Rts.running }.up ret

/-- The header has left with the user program: the descriptor carries no command any more. -/
def get2rmtDone (n : Node) (x : ℤ) : Node :=
  n.modProc x fun p => { p with rmtcmd := { p.rmtcmd with cmd := .none }, proxy := noneEp }

/-- The end of the turn: an error for the user program, or the header. -/
def get2rmtClose (x : ℤ) (r : Node × Mem × ℤ) : Node × Mem × Got :=
  if r.2.2 ≠ EMol.ok then (r.1.get2rmtGiveUp x r.2.2, r.2.1, .fail r.2.2)
  else (r.1.get2rmtDone x, r.2.1, .hdr (r.1.proc x).rmtcmd)

@[simp] theorem get2rmtClose_ok (x : ℤ) (n : Node) (pay : Mem) :
    get2rmtClose x (n, pay, EMol.ok) = (n.get2rmtDone x, pay, .hdr (n.proc x).rmtcmd) := rfl

/-- The check of the descriptor `x` failed with `ret`. For acknowledges the error is ignored. -/
def get2rmtRefuse (n : Node) (x ret : ℤ) (pay : Mem) : Node × Mem × Got :=
  ((n.modProc x fun p => { p with proxy := noneEp }).get2rmtGiveUp x ret, pay,
    if (n.proc x).rts.remote then .again else .fail ret)

def get2rmtSendAck (n : Node) (x : ℤ) (pay : Mem) (cp : ℤ) : Option (Node × Mem × Got) :=
  (n.get2rmtAck x pay cp).map fun r =>
    get2rmtClose x
      (if r.2.2 ≠ EMol.ok then r
      else (r.1.modProc x fun p =>
        { p.endSend with rts := { p.endSend.rts with rmtoper := false } }, r.2))

/-- The turn for a local descriptor. A caller whose destination has migrated replays the
operation. -/
def get2rmtSendRequest (n : Node) (x : ℤ) (pay : Mem) (cp : ℤ) : Option (Node × Mem × Got) :=
  let d := endpointP (n.proc x).rmtcmd.dst
  if d = x then none
  else if (n.proc x).rmtcmd.dnode ≠ (n.proc d).nodeid then
    some (n.modProc x fun p =>
      { p with sendto := noneEp, proxy := noneEp, rts := Rts.running }.up EMol.migrate,
      pay, .again)
  else
    let r := n.get2rmtRequest x pay cp
    some (get2rmtClose x (r.1.modProc x fun p => { p with proxy := noneEp }, r.2))

/-- Second section: what the proxy does with the descriptor `x` whose check gave `ret`. -/
def get2rmtSend (n : Node) (x ret : ℤ) (pay : Mem) (cp : ℤ) : Option (Node × Mem × Got) :=
  if ret ≠ EMol.ok then some (n.get2rmtRefuse x ret pay)
  else if (n.proc x).rts.remote then n.get2rmtSendAck x pay cp
  else n.get2rmtSendRequest x pay cp

/-! ### Commands that leave -/

section Leaves

variable {n n' : Node} {x cp : ℤ} {pay pay' : Mem}

theorem get2rmtSend_request (hloc : (n.proc x).rts.remote = false)
    (hne : endpointP (n.proc x).rmtcmd.dst ≠ x)
    (hnode : (n.proc x).rmtcmd.dnode = (n.proc (endpointP (n.proc x).rmtcmd.dst)).nodeid)
    (hreq : n.get2rmtRequest x pay cp =
      (n.modProc x fun p => { p with rts := { p.rts with rmtoper := false } }, pay', EMol.ok)) :
    n.get2rmtSend x EMol.ok pay cp = some (n.modProc x fun p =>
      { p with
        rts := { p.rts with rmtoper := false }
        rmtcmd := { p.rmtcmd with cmd := .none }
        proxy := noneEp }, pay', .hdr (n.proc x).rmtcmd) := by
  simp only [get2rmtSend, hloc, get2rmtSendRequest, hreq, hne, hnode, ne_eq, not_true, if_false,
    Bool.false_eq_true, get2rmtClose_ok]
  simp [get2rmtDone, modProc]

theorem get2rmtSend_ack (hrem : (n.proc x).rts.remote = true)
    (hack : n.get2rmtAck x pay cp = some (n', pay', EMol.ok)) :
    n.get2rmtSend x EMol.ok pay cp = some (n'.modProc x fun p =>
      { p.endSend with
        rts := { p.endSend.rts with rmtoper := false }
        rmtcmd := { p.rmtcmd with cmd := .none }
        proxy := noneEp }, pay', .hdr (n'.proc x).rmtcmd) := by
  simp only [get2rmtSend, hrem, get2rmtSendAck, hack, ne_eq, not_true, if_false, if_true,
    Option.map_some, get2rmtClose_ok]
  simp [get2rmtDone, modProc, Proc.endSend]

end Leaves

/-! ### What the second section leaves alone -/

structure SameProxies (n n' : Node) : Prop where
  conf : n'.conf = n.conf
  sproxy : n'.sproxy = n.sproxy
  rproxy : n'.rproxy = n.rproxy

section Frame

variable {n n' : Node} {x ret cp : ℤ} {pay pay' : Mem} {got : Got}

theorem SameProxies.trans {n'' : Node} (h₁ : SameProxies n n') (h₂ : SameProxies n' n'') :
    SameProxies n n'' :=
  ⟨h₂.conf.trans h₁.conf, h₂.sproxy.trans h₁.sproxy, h₂.rproxy.trans h₁.rproxy⟩

theorem SameProxies.modProc (i : ℤ) (f : Proc → Proc) : SameProxies n (n.modProc i f) :=
  ⟨rfl, rfl, rfl⟩

theorem sameProxies_giveUp : SameProxies n (n.get2rmtGiveUp x ret) := by
  unfold get2rmtGiveUp
  split <;> exact .modProc ..

theorem sameProxies_close (r : Node × Mem × ℤ) : SameProxies r.1 (get2rmtClose x r).1 := by
  unfold get2rmtClose
  split
  · exact sameProxies_giveUp
  · exact ⟨rfl, rfl, rfl⟩

theorem get2rmtAck_keeps {r : Node × Mem × ℤ} {P : Node → Prop}
    (h : n.get2rmtAck x pay cp = some r) (hn : P n)
    (hc : ∀ {m : Node} (i : ℤ), P m → P (m.clearOncopy i)) : P r.1 := by
  unfold get2rmtAck at h
  dsimp only at h
  split at h
  all_goals repeat' split at h
  all_goals
    simp only [reduceCtorEq, Option.some.injEq] at h
    try subst h
    try first
      | exact hn
      | exact hc _ hn
      | exact hc _ (hc _ hn)
      | exact hc _ (hc _ (hc _ hn))

theorem sameProxies_ack {r : Node × Mem × ℤ} (h : n.get2rmtAck x pay cp = some r) :
    SameProxies n r.1 :=
  get2rmtAck_keeps h ⟨rfl, rfl, rfl⟩ fun _ hm => hm.trans (.modProc ..)

theorem sameProxies_request : SameProxies n (n.get2rmtRequest x pay cp).1 := by
  unfold get2rmtRequest
  dsimp only
  split
  · split <;> exact ⟨rfl, rfl, rfl⟩
  all_goals exact ⟨rfl, rfl, rfl⟩

theorem sameProxies_send {r : Node × Mem × Got} (h : n.get2rmtSend x ret pay cp = some r) :
    SameProxies n r.1 := by
  unfold get2rmtSend at h
  split at h
  · cases h
    exact (SameProxies.modProc x _).trans sameProxies_giveUp
  split at h
  · obtain ⟨a, ha, rfl⟩ := Option.map_eq_some_iff.1 h
    refine (sameProxies_ack ha).trans (.trans ?_ (sameProxies_close _))
    split <;> exact ⟨rfl, rfl, rfl⟩
  · unfold get2rmtSendRequest at h
    dsimp only at h
    split at h
    · exact absurd h.symm (Option.some_ne_none _)
    split at h
    · cases h
      exact ⟨rfl, rfl, rfl⟩
    · cases h
      have hs : SameProxies n (n.get2rmtRequest x pay cp).1 := sameProxies_request
      refine hs.trans (.trans ?_ (sameProxies_close _))
      exact ⟨rfl, rfl, rfl⟩

end Frame

end Node

end MolIpc
