import MolIpc.Ipc.Vcopy
import MolIpc.Proxy.Put2lcl

/-!
The message calls of `mm_ipc.c`: send, sendrec, receive, receive-request, notify and reply.

A call is made by the process number `c`, bound and running. It is cut where it sleeps: the first
part runs up to the sleep or to the return, and `wake` goes on from there with the result of the
wait. User-memory copies give `cp` (`0` when they succeed). A call that locks one descriptor
twice, or that spins on a migrating process because it may not wait, never returns and gives
`none`.
-/

namespace MolIpc

/-! ### Calls and sleeps -/

inductive Op
  | send (dst : ℤ)
  | sendrec (srcdst : ℤ)
  | reply (dst : ℤ)
  | receive (src : ℤ)
  | rcvrqst
  | notify (srcNr dst upd : ℤ)
  deriving DecidableEq, Repr

/-- What a sleeping call waits for: the migration of its destination, its sender proxy, its turn in
the queue, the answer to a delivered message, or a message. -/
inductive Wait
  | migr
  | remote
  | queued
  | answer
  | message
  deriving DecidableEq, Repr

/-- Where a call stops. -/
inductive Next
  | ret (code : ℤ)
  | sleep (op : Op) (wait : Wait)
  deriving DecidableEq, Repr

/-- `sleep_proc` and `sleep_proc2` before the wait. -/
def Proc.fallAsleep (p : Proc) : Proc := { p with pseudosem := -1, rcode := EMol.ok }

/-- What `sleep_proc` and `sleep_proc2` make of the result `w` of a wait. -/
def Proc.sleepResult (p : Proc) (timeout w : ℤ) : ℤ :=
  if p.rcode < 0 then p.rcode
  else if w < 0 then w
  else if w = 0 ∧ 0 ≤ timeout then EMol.timedout
  else EMol.ok

/-- `BUILD_NOTIFY_MSG`, without the time. The case of `SYSTEM` falls through to that of `SLOTS`. -/
def Proc.buildNotify (p : Proc) (self : Bool) (sEp sNr : ℤ) : Proc :=
  let m := { p.message with
    source := if self then hardwareNr else sEp, type := notifyFrom sNr }
  if sNr = hardwareNr then { p with message := { m with arg := p.intPending }, intPending := 0 }
  else if sNr = systemNr then
    { p with message := { m with arg := p.updtPending }, sigPending := 0, updtPending := 0 }
  else if sNr = slotsNr then
    { p with message := { m with arg := p.updtPending }, updtPending := 0 }
  else { p with message := m }

/-- The update bit of a notification, kept with `p`. -/
def Proc.setUpdt (p : Proc) (upd : ℤ) : Proc :=
  { p with updtPending := Node.setUpdate p.updtPending upd }

/-- `set_sys_bit(p->p_priv.s_notify_pending, id)`. -/
def Proc.setPending (p : Proc) (id : ℤ) : Proc :=
  { p with notifyPending := Function.update p.notifyPending id.toNat true }

/-- A message in the buffer of the receiver, which then has nothing more to wait for. -/
def Proc.deliver (p : Proc) (m : Message) : Proc :=
  ({ p with ubuf := m }.endReceive).upIfReady EMol.ok

/-- A notification in the kernel buffer of the receiver, marked with `MIS_BIT_NOTIFY`. -/
def Proc.deliverNotify (p : Proc) (self : Bool) (sEp sNr : ℤ) : Proc :=
  let p := p.buildNotify self sEp sNr
  ({ p with misc := { p.misc with notify := true } }.endReceive).upIfReady EMol.ok

namespace Node

/-! ### What the calls share -/

def dcCheck (n : Node) : ℤ :=
  if ¬ (0 ≤ n.conf.dcid ∧ n.conf.dcid < n.conf.dNrDcs) then EMol.baddcid
  else if n.conf.dcFlags ≠ 0 then EMol.dcnotrun
  else EMol.ok

/-- The checks on the destination of a message, with `died` for a process that is not bound. -/
def sendDst (n : Node) (ep died : ℤ) : PartyCheck :=
  let p := n.proc (endpointP ep)
  if p.endpoint ≠ ep then .err EMol.endpoint
  else if p.rts.slotFree then .err died
  else if p.rts.migrate then .migrating
  else if ¬ (0 ≤ p.nodeid ∧ p.nodeid < n.conf.dNrNodes) then .err EMol.badnodeid
  else if ¬ n.conf.dcNodes p.nodeid then .err EMol.nodcnode
  else .ok

/-- Sleep with the given timeout, and go on with `k` and the result when there is no waiting. -/
def sleepOr (n : Node) (c timeout : ℤ) (next : Next) (k : Node → ℤ → Node × Next) : Node × Next :=
  if timeout = timeoutNowait then
    k (n.modProc c fun p => { p.wakeMigr with rcode := EMol.again }) EMol.again
  else (n.modProc c Proc.fallAsleep, next)

/-- The caller waits until its destination has migrated. Without waiting, the loop never ends. -/
def waitMigr (n : Node) (c ep timeout : ℤ) (op : Op) : Option (Node × Next) :=
  if timeout = timeoutNowait then none
  else
    let n := n.modProc c fun p =>
      { p with rts := { p.rts with waitmigr := true }, waitmigr := ep }.fallAsleep
    some (n.modProc (endpointP ep) fun p => { p with mlist := p.mlist ++ [c] }, .sleep op .migr)

/-- The caller queues a command on its own descriptor. The result of `sproxy_enqueue` is not looked
at. -/
def askRemote (n : Node) (c : ℤ) (cmd : Cmd) (ep rcode : ℤ) (msg : Message) : Node :=
  (n.modProc c fun p =>
    { p with
      rmtcmd := { p.rmtcmd with
        cmd := cmd, dcid := n.conf.dcid, src := p.endpoint, dst := ep
        snode := n.conf.localNodeid, dnode := (n.proc (endpointP ep)).nodeid
        rcode := rcode, len := 0, msg := msg }
      rts := { p.rts with sending := true, rmtoper := true }
      sendto := ep }).sproxyEnqueue c |>.1

/-- The command of a caller that gives it up: off the queue if it is still there. -/
def leaveProxy (n : Node) (c : ℤ) : Node :=
  let n := if (n.proc c).rts.sending then n.unlink c else n
  n.modProc c fun p =>
    { p.endSend with rts := { p.endSend.rts with rmtoper := false }, proxy := noneEp }

/-- The message of a caller that gives it up: off the queue of the destination if it is still
there. -/
def leaveQueue (n : Node) (c : ℤ) : Node :=
  let n := if (n.proc c).rts.sending then n.unlink c else n
  n.modProc c Proc.endSend

/-- The descriptor that the calls keep of a remote destination does not receive any more. -/
def stopRemote (n : Node) (c d : ℤ) : Node :=
  n.modProc d fun p =>
    { p with
      rts := { p.rts with receiving := false }
      getfrom := if p.getfrom = (n.proc c).endpoint then noneEp else p.getfrom }

/-- The checks that send, sendrec and reply make before they look at the destination. -/
def sendEntry (n : Node) (c ep : ℤ) : ℤ :=
  if n.dcCheck ≠ EMol.ok then n.dcCheck
  else if ¬ n.conf.inRange (endpointP ep) then EMol.range
  else if (n.proc c).endpoint = ep then EMol.endpoint
  else EMol.ok

def sentBy (n : Node) (c : ℤ) : Message := { (n.proc c).ubuf with source := (n.proc c).endpoint }

def handed (n : Node) (c cp : ℤ) : Message :=
  if cp = 0 then (n.proc c).ubuf else (n.proc c).rmtcmd.msg

/-! ### `mm_mini_send` -/

def sendRemote (n : Node) (c dst timeout cp : ℤ) : Node × Next :=
  let ret := n.vcopyProxy (n.proc (endpointP dst)).nodeid
  if ret ≠ EMol.ok then (n, .ret ret)
  else
    ((n.stopRemote c (endpointP dst)).askRemote c .sendMsg dst EMol.ok (n.handed c cp)).sleepOr
      c timeout (.sleep (.send dst) .remote) fun n code => (n.leaveProxy c, .ret code)

def sendLocal (n : Node) (c dst timeout cp : ℤ) : Node × Next :=
  let d := endpointP dst
  if (n.proc d).waitsFor (n.proc c).endpoint then
    if cp ≠ 0 then (n, .ret cp)
    else (n.modProc d fun p => p.deliver (n.sentBy c), .ret EMol.ok)
  else
    let n := n.modProc c fun p => { p with rts := { p.rts with sending := true }, sendto := dst }
    (n.addTail c d).sleepOr c timeout (.sleep (.send dst) .queued)
      fun n code => (n.leaveQueue c, .ret code)

/-- From the label `send_replay` on. -/
def sendReplay (n : Node) (c dst timeout cp : ℤ) : Option (Node × Next) :=
  match n.sendDst dst EMol.dstdied with
  | .err code => some (n, .ret code)
  | .migrating => n.waitMigr c dst timeout (.send dst)
  | .ok =>
    let n := n.modProc c fun p => { p with rcode := EMol.ok }
    if (n.proc (endpointP dst)).rts.remote then some (n.sendRemote c dst timeout cp)
    else some (n.sendLocal c dst timeout cp)

/-- `mm_mini_send`. -/
def miniSend (n : Node) (c dst : ℤ) (m : Message) (timeout cp : ℤ) : Option (Node × Next) :=
  if n.sendEntry c dst ≠ EMol.ok then some (n, .ret (n.sendEntry c dst))
  else if endpointP dst = c then none
  else (n.modProc c fun p => { p with ubuf := m }).sendReplay c dst timeout cp

/-! ### `mm_mini_sendrec` -/

def endSendrec (p : Proc) : Proc := p.endSend.endReceive

def sendrecRemote (n : Node) (c ep timeout cp : ℤ) : Node × Next :=
  let ret := n.vcopyProxy (n.proc (endpointP ep)).nodeid
  if ret ≠ EMol.ok then (n, .ret ret)
  else
    let n := n.modProc c fun p => { p with rts := { p.rts with receiving := true } }
    (n.askRemote c .sndrecMsg ep EMol.ok (n.handed c cp)).sleepOr c timeout
      (.sleep (.sendrec ep) .remote)
      fun n code => ((n.leaveProxy c).modProc c Proc.endReceive, .ret code)

def sendrecLocal (n : Node) (c ep timeout cp : ℤ) : Node × Next :=
  let d := endpointP ep
  if (n.proc d).waitsFor (n.proc c).endpoint then
    let n := n.modProc d fun p =>
      ({ p with ubuf := if cp = 0 then n.sentBy c else p.ubuf }.endReceive).upIfReady cp
    if cp ≠ 0 then (n.modProc c fun p => { p with getfrom := noneEp, sendto := noneEp }, .ret cp)
    else
      (n.modProc c fun p => { p with rts := { p.rts with receiving := true } }).sleepOr c timeout
        (.sleep (.sendrec ep) .answer) fun n code => (n.modProc c endSendrec, .ret code)
  else
    let n := n.modProc c fun p =>
      { p with
        message := { p.message with source := p.endpoint }
        rts := { p.rts with receiving := true, sending := true }, sendto := ep }
    (n.addTail c d).sleepOr c timeout (.sleep (.sendrec ep) .queued)
      fun n code => ((n.leaveQueue c).modProc c Proc.endReceive, .ret code)

/-- From the label `sendrec_replay` on. -/
def sendrecReplay (n : Node) (c ep timeout cp : ℤ) : Option (Node × Next) :=
  match n.sendDst ep EMol.deadsrcdst with
  | .err code => some (n, .ret code)
  | .migrating => n.waitMigr c ep timeout (.sendrec ep)
  | .ok =>
    let n := n.modProc c fun p => { p with rcode := EMol.ok, getfrom := ep }
    if (n.proc (endpointP ep)).rts.remote then some (n.sendrecRemote c ep timeout cp)
    else some (n.sendrecLocal c ep timeout cp)

/-- `mm_mini_sendrec`. -/
def miniSendrec (n : Node) (c ep : ℤ) (m : Message) (timeout cp : ℤ) : Option (Node × Next) :=
  if n.sendEntry c ep ≠ EMol.ok then some (n, .ret (n.sendEntry c ep))
  else if endpointP ep = c then none
  else (n.modProc c fun p => { p with ubuf := m }).sendrecReplay c ep timeout cp

/-! ### `mm_mini_reply` -/

def replyRemote (n : Node) (c dst timeout cp : ℤ) : Node × Next :=
  let ret := n.vcopyProxy (n.proc (endpointP dst)).nodeid
  if ret ≠ EMol.ok then (n, .ret ret)
  else
    ((n.stopRemote c (endpointP dst)).askRemote c .replyMsg dst EMol.ok (n.handed c cp)).sleepOr
      c timeout (.sleep (.reply dst) .remote) fun n code => (n.leaveProxy c, .ret code)

/-- A reply to a process of this node, which must wait for this very caller. -/
def replyLocal (n : Node) (c dst cp : ℤ) : Node × Next :=
  let d := endpointP dst
  if (n.proc d).rts.receiving ∧ ¬ (n.proc d).rts.sending ∧
      (n.proc d).getfrom = (n.proc c).endpoint then
    if cp ≠ 0 then (n, .ret cp)
    else (n.modProc d fun p => p.deliver (n.sentBy c), .ret EMol.ok)
  else (n, .ret EMol.procsts)

/-- From the label `reply_replay` on. -/
def replyReplay (n : Node) (c dst timeout cp : ℤ) : Option (Node × Next) :=
  match n.sendDst dst EMol.dstdied with
  | .err code => some (n, .ret code)
  | .migrating => n.waitMigr c dst timeout (.reply dst)
  | .ok =>
    let n := n.modProc c fun p => { p with rcode := EMol.ok }
    if (n.proc (endpointP dst)).rts.remote then some (n.replyRemote c dst timeout cp)
    else some (n.replyLocal c dst cp)

/-- `mm_mini_reply`. -/
def miniReply (n : Node) (c dst : ℤ) (m : Message) (timeout cp : ℤ) : Option (Node × Next) :=
  if n.sendEntry c dst ≠ EMol.ok then some (n, .ret (n.sendEntry c dst))
  else if endpointP dst = c then none
  else (n.modProc c fun p => { p with ubuf := m }).replyReplay c dst timeout cp

/-! ### `mm_mini_receive` and `mm_mini_rcvrqst` -/

/-- The checks on the receiver proxy of the node of a remote source. -/
def rproxyCheck (n : Node) (node : ℤ) : ℤ :=
  let rp := n.rproxy (n.conf.nProxies node)
  if ¬ n.conf.dcNodes node then EMol.nodcnode
  else if rp.lpid = procNoPid then EMol.noproxy
  else if rp.rts.slotFree then EMol.noproxy
  else if ¬ rp.misc.proxy then EMol.noproxy
  else if ¬ rp.misc.connected then EMol.notconn
  else EMol.ok

/-- The checks on the source, when the caller names one. The range is not that of the other
calls. -/
def receiveEntry (n : Node) (c src : ℤ) : ℤ :=
  let s := n.proc (endpointP src)
  if n.dcCheck ≠ EMol.ok then n.dcCheck
  else if src = anyEp then EMol.ok
  else if ¬ (-n.conf.dcNrTasks ≤ endpointP src ∧
      endpointP src < n.conf.dcNrProcs - n.conf.dcNrTasks) then EMol.range
  else if (n.proc c).endpoint = src then EMol.endpoint
  else if s.rts.slotFree then EMol.srcdied
  else if s.endpoint ≠ src then EMol.endpoint
  else if ¬ (0 ≤ s.nodeid ∧ s.nodeid < n.conf.dNrNodes) then EMol.badnodeid
  else if s.rts.remote then n.rproxyCheck s.nodeid
  else EMol.ok

/-- The first source with a notification pending for `c`. -/
def pendingBit (n : Node) (c : ℤ) : Option ℕ :=
  (List.range n.conf.dcNrSysprocs.toNat).find? (n.proc c).notifyPending

/-- The loop over `s_notify_pending` delivers a notification whatever source the caller has named.
-/
def receivePending (n : Node) (c : ℤ) (id : ℕ) (cp : ℤ) : Node × Next :=
  let nr := id - n.conf.dcNrTasks
  let n := n.modProc c fun p =>
    { p with notifyPending := Function.update p.notifyPending id false }.buildNotify
      (nr = c) nr nr
  if cp ≠ 0 then (n, .ret EMol.msgsize)
  else (n.modProc c fun p => { p with ubuf := p.message }, .ret EMol.ok)

def senderCheck (n : Node) (c x : ℤ) : ℤ :=
  if (n.proc x).rts.slotFree then EMol.srcdied
  else if ¬ (n.proc x).rts.sending then EMol.procsts
  else if (n.proc x).sendto ≠ (n.proc c).endpoint then EMol.procsts
  else EMol.ok

/-- The message of the sender `x` in the queue of the caller. -/
def receiveFrom (n : Node) (c x cp : ℤ) : Node × Next :=
  let ret := n.senderCheck c x
  let n := n.unlink x
  if ret ≠ EMol.ok then (n, .ret ret)
  else
    let m := if (n.proc x).rts.remote then (n.proc x).message else n.sentBy x
    let n := if cp = 0 then n.modProc c fun p => { p with ubuf := m } else n
    let n :=
      if (n.proc x).rts.remote ∧ ¬ (n.proc x).rts.receiving then
        (n.genericAckLcl2rmt .sendAck x c cp).1
      else n
    (n.modProc x fun p => p.endSend.upIfReady cp, .ret cp)

/-- The first sender in the queue of `c` that is acceptable when it receives from `src`. -/
def firstSender (n : Node) (c src : ℤ) : Option ℤ :=
  (n.proc c).list.find? fun x => decide ((n.proc x).endpoint = src ∨ src = anyEp)

/-- The end of a receive: a notification that came meanwhile is copied to the user's buffer. -/
def receiveEnd (n : Node) (c code cp : ℤ) : Node × Next :=
  if code ≠ EMol.ok then
    ((n.modProc c Proc.endReceive).modProc c fun p =>
      { p with misc := { p.misc with notify := false } }, .ret code)
  else
    let copied := (n.proc c).misc.notify
    (n.modProc c fun p =>
      { p with
        ubuf := if p.misc.notify ∧ cp = 0 then p.message else p.ubuf
        misc := { p.misc with notify := false } }, .ret (if copied then cp else EMol.ok))

/-- The caller blocks in `BIT_RECEIVING`. -/
def blockReceiving (n : Node) (c src : ℤ) : Node :=
  n.modProc c fun p =>
    { p with
      rts := { p.rts with receiving := true }, misc := { p.misc with notify := false }
      getfrom := src, rcode := EMol.ok }

/-- `mm_mini_receive`. -/
def miniReceive (n : Node) (c src timeout cp : ℤ) : Node × Next :=
  if n.receiveEntry c src ≠ EMol.ok then (n, .ret (n.receiveEntry c src))
  else if (n.proc c).misc.wokenup ∧ src = anyEp then
    (n.modProc c fun p => { p with misc := { p.misc with wokenup := false } }, .ret EMol.wokenup)
  else
    match n.pendingBit c with
    | some id => n.receivePending c id cp
    | none =>
      match n.firstSender c src with
      | some x => n.receiveFrom c x cp
      | none =>
        (n.blockReceiving c src).sleepOr c timeout (.sleep (.receive src) .message)
          fun n code => n.receiveEnd c code cp

/-- The end of a receive-request, which looks at no notification. -/
def rcvrqstEnd (n : Node) (c code : ℤ) : Node × Next := (n.modProc c Proc.endReceive, .ret code)

/-- `mm_mini_rcvrqst`. -/
def miniRcvrqst (n : Node) (c timeout cp : ℤ) : Node × Next :=
  if n.dcCheck ≠ EMol.ok then (n, .ret n.dcCheck)
  else if (n.proc c).misc.wokenup then
    (n.modProc c fun p => { p with misc := { p.misc with wokenup := false } }, .ret EMol.wokenup)
  else
    match (n.proc c).list.head? with
    | some x => n.receiveFrom c x cp
    | none =>
      (n.blockReceiving c anyEp).sleepOr c timeout (.sleep .rcvrqst .message)
        fun n code => n.rcvrqstEnd c code

/-! ### `mm_mini_notify` -/

/-- `mm_hdw_notify`. Only the process number of the destination is used, and the pending bit is the
destination's own. -/
def hdwNotify (n : Node) (dst : ℤ) : Node × Next :=
  let d := endpointP dst
  let p := n.proc d
  if n.dcCheck ≠ EMol.ok then (n, .ret n.dcCheck)
  else if ¬ n.conf.inRange d then (n, .ret EMol.range)
  else if dst = hardwareNr then (n, .ret EMol.endpoint)
  else if p.rts.slotFree then (n, .ret EMol.dstdied)
  else if ¬ (0 ≤ p.nodeid ∧ p.nodeid < n.conf.dNrNodes) then (n, .ret EMol.badnodeid)
  else if ¬ n.conf.dcNodes p.nodeid then (n, .ret EMol.nodcnode)
  else if p.rts.migrate then (n, .ret EMol.migrate)
  else if n.conf.dcNrSysprocs ≤ p.sId then (n, .ret EMol.privileges)
  else if p.rts.remote then (n, .ret EMol.rmtproc)
  else if p.waitsFor hardwareNr then (n.modProc d (·.deliverNotify true dst d), .ret EMol.ok)
  else
    (n.modProc d (·.setPending p.sId),
      .ret (if p.notifyPending p.sId.toNat then EMol.overrun else EMol.ok))

/-- The number and the endpoint in whose name the caller notifies. -/
def notifySource (n : Node) (c srcNr : ℤ) : ℤ × ℤ :=
  if srcNr = selfEp then (c, (n.proc c).endpoint) else (srcNr, (n.proc srcNr).endpoint)

/-- The checks on the destination of a notification, in their own order. -/
def notifyDst (n : Node) (dst : ℤ) : PartyCheck :=
  let p := n.proc (endpointP dst)
  if p.endpoint ≠ dst then .err EMol.endpoint
  else if p.rts.slotFree then .err EMol.dstdied
  else if ¬ (0 ≤ p.nodeid ∧ p.nodeid < n.conf.dNrNodes) then .err EMol.badnodeid
  else if ¬ n.conf.dcNodes p.nodeid then .err EMol.nodcnode
  else if p.rts.migrate then .migrating
  else .ok

/-- A notification for a migrating process is left on its descriptor. -/
def notifyMigrating (n : Node) (c dst : ℤ) : Node × Next :=
  let d := endpointP dst
  let id := (n.proc c).sId
  if (n.proc d).notifyPending id.toNat then (n, .ret EMol.overrun)
  else (n.modProc d (·.setPending id), .ret EMol.ok)

/-- A notification for a process of another node, built in the descriptor kept of it here. -/
def notifyRemote (n : Node) (c srcNr dst upd : ℤ) : Node × Next :=
  let d := endpointP dst
  let src := n.notifySource c srcNr
  let ret := n.vcopyProxy (n.proc d).nodeid
  if ret ≠ EMol.ok then (n, .ret ret)
  else
    let n := (n.stopRemote c d).modProc d (·.buildNotify (d = c) src.2 src.1)
    let code := if 0 ≤ upd ∧ upd < 32 then upd else -1
    (n.askRemote c .ntfyMsg dst code (n.proc d).message).sleepOr c timeoutForever
      (.sleep (.notify srcNr dst upd) .remote) fun n code => (n.leaveProxy c, .ret code)

/-- A notification for a process of this node. A pending one is kept under the identifier of the
caller, and the update bit with the caller. -/
def notifyLocal (n : Node) (c srcNr dst upd : ℤ) : Node × Next :=
  let d := endpointP dst
  let src := n.notifySource c srcNr
  if (n.proc d).waitsFor src.2 then
    ((n.modProc c (·.setUpdt upd)).modProc d (·.deliverNotify (d = c) src.2 src.1), .ret EMol.ok)
  else if n.conf.dcNrSysprocs ≤ (n.proc d).sId then (n, .ret EMol.privileges)
  else
    ((n.modProc d (·.setPending (n.proc c).sId)).modProc c (·.setUpdt upd), .ret EMol.ok)

/-- From the label `notify_replay` on. -/
def notifyReplay (n : Node) (c srcNr dst upd : ℤ) : Node × Next :=
  match n.notifyDst dst with
  | .err code => (n, .ret code)
  | .migrating => n.notifyMigrating c dst
  | .ok =>
    let n := n.modProc c fun p => { p with rcode := EMol.ok }
    if (n.proc (endpointP dst)).rts.remote then n.notifyRemote c srcNr dst upd
    else n.notifyLocal c srcNr dst upd

/-- `mm_mini_notify`. In the name of `HARDWARE` the third argument is the DC. -/
def miniNotify (n : Node) (c srcNr dst upd : ℤ) : Option (Node × Next) :=
  if srcNr = hardwareNr then some (n.hdwNotify dst)
  else if n.sendEntry c dst ≠ EMol.ok then some (n, .ret (n.sendEntry c dst))
  else if n.conf.dcNrSysprocs ≤ (n.proc c).sId then some (n, .ret EMol.privileges)
  else if endpointP dst = c then none
  else some (n.notifyReplay c srcNr dst upd)

/-! ### Calls and wake-ups -/

/-- A message call of the process `c`; `m` is the message in its buffer. -/
def call (n : Node) (c : ℤ) (op : Op) (m : Message) (timeout cp : ℤ) : Option (Node × Next) :=
  match op with
  | .send dst => n.miniSend c dst m timeout cp
  | .sendrec ep => n.miniSendrec c ep m timeout cp
  | .reply dst => n.miniReply c dst m timeout cp
  | .receive src => some (n.miniReceive c src timeout cp)
  | .rcvrqst => some (n.miniRcvrqst c timeout cp)
  | .notify srcNr dst upd => n.miniNotify c srcNr dst upd

/-- What follows a sleep with result `code`. An operation whose destination has migrated is
replayed. -/
def resume (n : Node) (c : ℤ) (op : Op) (wait : Wait) (timeout code cp : ℤ) :
    Option (Node × Next) :=
  match op, wait with
  | .send dst, .migr => n.sendReplay c dst timeout cp
  | .sendrec ep, .migr => n.sendrecReplay c ep timeout cp
  | .reply dst, .migr => n.replyReplay c dst timeout cp
  | .send dst, .remote =>
    if code = EMol.ok then some (n, .ret code)
    else if code = EMol.migrate then (n.leaveProxy c).sendReplay c dst timeout cp
    else some (n.leaveProxy c, .ret code)
  | .send dst, .queued =>
    if code = EMol.ok then some (n, .ret code)
    else if code = EMol.migrate then (n.leaveQueue c).sendReplay c dst timeout cp
    else some (n.leaveQueue c, .ret code)
  | .reply dst, .remote =>
    if code = EMol.ok then some (n, .ret code)
    else if code = EMol.migrate then (n.leaveProxy c).replyReplay c dst timeout cp
    else some (n.leaveProxy c, .ret code)
  | .sendrec ep, .remote =>
    let left := (n.leaveProxy c).modProc c Proc.endReceive
    if code = EMol.ok then some (n, .ret code)
    else if code = EMol.migrate then left.sendrecReplay c ep timeout cp
    else some (left, .ret code)
  | .sendrec ep, .queued =>
    let left := (n.leaveQueue c).modProc c Proc.endReceive
    if code = EMol.ok then some (n, .ret code)
    else if code = EMol.migrate then left.sendrecReplay c ep timeout cp
    else some (left, .ret code)
  | .sendrec _, .answer =>
    if code = EMol.ok then some (n, .ret code) else some (n.modProc c endSendrec, .ret code)
  | .receive _, .message => some (n.receiveEnd c code cp)
  | .rcvrqst, .message => some (n.rcvrqstEnd c code)
  | .notify srcNr dst upd, .remote =>
    if code = EMol.ok then some (n, .ret code)
    else if code = EMol.migrate then some ((n.leaveProxy c).notifyReplay c srcNr dst upd)
    else some (n.leaveProxy c, .ret code)
  | _, _ => none

/-- A sleep ends with the result `w`. One that failed without a timeout goes on as long as the
caller is in a copy. -/
def wake (n : Node) (c : ℤ) (op : Op) (wait : Wait) (timeout w cp : ℤ) : Option (Node × Next) :=
  let code := (n.proc c).sleepResult timeout w
  let n := n.modProc c fun p =>
    { p with
      rcode := code
      pseudosem := if code ≠ EMol.ok ∧ p.pseudosem < 0 then p.pseudosem + 1 else p.pseudosem }
  if code ≠ EMol.ok ∧ timeout < 0 ∧ (n.proc c).rts.oncopy then some (n, .sleep op wait)
  else (n.modProc c Proc.wakeMigr).resume c op wait timeout code cp

end Node

/-- The descriptor of the caller after a wait that came to `code`. -/
def Proc.roused (code : ℤ) (p : Proc) : Proc :=
  { p with
    rcode := code
    pseudosem := if code ≠ EMol.ok ∧ p.pseudosem < 0 then p.pseudosem + 1 else p.pseudosem }

theorem Node.wake_inv {n : Node} {c timeout w cp : ℤ} {op : Op} {wait : Wait} {r : Node × Next}
    (h : n.wake c op wait timeout w cp = some r) :
    ∃ code, (n.proc c).sleepResult timeout w = code ∧
      (code ≠ EMol.ok ∧ r = (n.modProc c (Proc.roused code), .sleep op wait) ∨
        ((n.modProc c (Proc.roused code)).modProc c Proc.wakeMigr).resume c op wait timeout code cp =
          some r) := by
  refine ⟨_, rfl, ?_⟩
  unfold wake at h
  dsimp only at h
  split at h
  · rename_i hgo
    exact .inl ⟨hgo.1, (Option.some.inj h).symm⟩
  · exact .inr h

end MolIpc
