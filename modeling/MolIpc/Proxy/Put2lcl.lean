import MolIpc.Proxy.Acks
import Mathlib.Algebra.Group.Nat.Defs

/-!
The receiver side of the proxies (`mm_rproxy.c` and the second half of `mm_acks.c`): what a node
does with a command that arrives from another node.

Every handler gets the numbers of the two descriptors that `mm_put2lcl` has locked, the header
and the payload, and `cp`, the result of the one user-memory copy it may make (`0` when the copy
succeeds). A handler that would lock one descriptor twice never returns; the result is then
`none`. The proxies are processes: the copies of a kernel-thread proxy are left out, here and in
`Get2rmt`.
-/

namespace MolIpc

/-- The process, one of another node, has no operation in progress here. -/
def Proc.Unused (p : Proc) : Prop := p.rts.rmtoper = false ∧ p.rts.sending = false

instance (p : Proc) : Decidable p.Unused := by unfold Proc.Unused; infer_instance

namespace Node

/-! ### Messages -/

/-- `send_rmt2lcl`: a message of the remote process `s` for the local process `d`. -/
def sendRmt2lcl (n : Node) (h : Hdr) (s d : ℤ) (cp : ℤ) : Node × ℤ :=
  if (n.proc d).waitsFor (n.proc s).endpoint then
    if cp ≠ 0 then (n, cp)
    else
      let n := n.modProc d fun p => { p with ubuf := h.msg }
      let n :=
        if h.cmd = .sndrecMsg then
          n.modProc s fun p =>
            { p with rts := { p.rts with receiving := true }, getfrom := (n.proc d).endpoint }
        else
          ((n.modProc s fun p => { p with rcode := EMol.ok }).genericAckLcl2rmt
            .sendAck s d EMol.ok).1
      (n.modProc d fun p => p.endReceive.upIfReady EMol.ok, EMol.ok)
  else
    let n := n.modProc s fun p =>
      { p with
        message := h.msg
        rts := { p.rts with
          sending := true, receiving := p.rts.receiving || decide (h.cmd = .sndrecMsg) }
        getfrom := if h.cmd = .sndrecMsg then (n.proc d).endpoint else p.getfrom
        sendto := (n.proc d).endpoint }
    (n.addTail s d, EMol.ok)

/-- `update_proc >= 0 && update_proc < sizeof(update_t)*8`, then `set_bit`. -/
def setUpdate (w upd : ℤ) : ℤ :=
  if 0 ≤ upd ∧ upd < 32 then (BitVec.ofInt 32 w ||| BitVec.ofNat 32 (2 ^ upd.toNat)).toInt else w

/-- `notify_rmt2lcl`: the source is the number in the message type; for the number of a task, which
is negative, the bit that is set lies outside of the map. -/
def notifyRmt2lcl (n : Node) (h : Hdr) (s d : ℤ) (upd : ℤ) (cp : ℤ) : Node × ℤ :=
  let nr := (BitVec.ofInt 32 h.msg.type &&& ~~~ BitVec.ofInt 32 0x1000).toInt
  let sid := endpointP nr + n.conf.dcNrTasks
  if n.conf.dcNrSysprocs ≤ sid then (n, EMol.privileges)
  else if (n.proc d).waitsFor (n.proc s).endpoint then
    (n.modProc d fun p =>
      ({ p with
          updtPending := setUpdate p.updtPending upd
          ubuf := if cp = 0 then h.msg else p.ubuf }.endReceive).upIfReady EMol.ok, EMol.ok)
  else
    (n.modProc d fun p =>
      { p with
        misc := { p.misc with notify := true }
        notifyPending :=
          if 0 ≤ sid then Function.update p.notifyPending sid.toNat true else p.notifyPending
        updtPending := setUpdate p.updtPending upd }, EMol.ok)

/-! ### Copies asked by a remote process -/

def bytesOk (h : Hdr) (max : ℤ) : Prop := 0 < h.vcopy.bytes ∧ h.vcopy.bytes ≤ max

instance (h : Hdr) (max : ℤ) : Decidable (bytesOk h max) := by unfold bytesOk; infer_instance

/-- The checks made before the destination of the copy is locked. -/
def copyRqstCheck (n : Node) (h : Hdr) (lcl : ℤ) : ℤ :=
  if ¬ bytesOk h maxCopyLen then EMol.range
  else if (n.proc lcl).rts.oncopy then EMol.oncopy
  else if (n.proc lcl).endpoint ≠ h.vcopy.src then EMol.badproc
  else if ¬ n.conf.inRange (endpointP h.vcopy.dst) then EMol.range
  else EMol.ok

/-- What `copyrmt_rqst_rmt2lcl` asks of the remote destination `d` of the copy. -/
def copyrmtDstCheck (n : Node) (h : Hdr) (d : ℤ) : ℤ :=
  let p := n.proc d
  if ¬ p.rts.remote then EMol.lclproc
  else if p.rts.slotFree then EMol.dstdied
  else if p.endpoint ≠ h.vcopy.dst then EMol.endpoint
  else if p.rts.oncopy then EMol.oncopy
  else if p.rts.rmtoper then EMol.enqueued
  else if p.rts.sending then EMol.enqueued
  else EMol.ok

/-- `copyrmt_rqst_rmt2lcl`: `rmt` asks that data of `lcl` go to a process of a third node. -/
def copyrmtRqstRmt2lcl (n : Node) (h : Hdr) (rmt lcl : ℤ) : Option (Node × ℤ) :=
  if copyRqstCheck n h lcl ≠ EMol.ok then some (n, copyRqstCheck n h lcl)
  else
    let d := endpointP h.vcopy.dst
    if d = lcl ∨ d = rmt then none
    else
      -- the bits set while the locks are exchanged are cleared again under the three locks
      let n := (n.clearOncopy lcl).clearOncopy rmt
      let ret := copyrmtDstCheck n h d
      if ret = EMol.ok then
        let n := n.modProc d fun p =>
          { p with
            rmtcmd := { p.rmtcmd with vcopy := h.vcopy }
            rts := { p.rts with oncopy := true } }
        some (n.copyinRqstLcl2rmt d lcl)
      else if ret = EMol.enqueued then some (n, ret)
      else some (n.genericAckLcl2rmt .copyrmtAck rmt lcl ret)

/-- What `copylcl_rqst_rmt2lcl` asks of the local destination `d` of the copy. -/
def copylclDstCheck (n : Node) (h : Hdr) (d : ℤ) : ℤ :=
  let p := n.proc d
  if p.rts.remote then EMol.rmtproc
  else if p.rts.slotFree then EMol.dstdied
  else if p.endpoint ≠ h.vcopy.dst then EMol.endpoint
  else if p.rts.oncopy then EMol.oncopy
  else if p.rts.sending then EMol.enqueued
  else EMol.ok

/-- `copylcl_rqst_rmt2lcl`: the remote process `rmt` asks for a copy between two processes of
this node. -/
def copylclRqstRmt2lcl (n : Node) (h : Hdr) (rmt lcl : ℤ) (cp : ℤ) : Option (Node × ℤ) :=
  if copyRqstCheck n h lcl ≠ EMol.ok then some (n, copyRqstCheck n h lcl)
  else
    let d := endpointP h.vcopy.dst
    if d = lcl ∨ d = rmt then none
    else
      let n := (n.clearOncopy lcl).clearOncopy rmt
      let ret := copylclDstCheck n h d
      if ret = EMol.ok then
        let src := (n.proc lcl).mem
        let n := if cp = 0 then
            n.modProc d fun p =>
              { p with mem := p.mem.blit h.vcopy.daddr src h.vcopy.saddr h.vcopy.bytes.toNat }
          else n
        let n := n.modProc rmt fun p => { p with rmtcmd := { p.rmtcmd with vcopy := h.vcopy } }
        some (n.genericAckLcl2rmt .copylclAck rmt lcl cp)
      else some (n.genericAckLcl2rmt .copylclAck rmt lcl ret)

/-- `copyin_data_rmt2lcl`: data for the local process `lcl`. -/
def copyinDataRmt2lcl (n : Node) (h : Hdr) (pay : Mem) (rmt lcl : ℤ) (cp : ℤ) : Node × ℤ :=
  let p := n.proc lcl
  let ret :=
    if ¬ bytesOk h (n.conf.maxbytes h.snode) then EMol.range
    else if p.rts.oncopy then EMol.oncopy
    else if p.rts.sending then EMol.enqueued
    else if p.endpoint ≠ h.vcopy.dst then EMol.badproc
    else cp
  let n := if ret = EMol.ok then
      n.modProc lcl fun p =>
        { p with mem := p.mem.blit h.vcopy.daddr pay 0 h.vcopy.bytes.toNat }
    else n
  let n := n.modProc rmt fun p => { p with rmtcmd := { p.rmtcmd with vcopy := h.vcopy } }
  n.genericAckLcl2rmt .copyinAck rmt lcl ret

/-- `copyin_rqst_rmt2lcl`: data for `lcl` of a copy that a process of a third node has requested;
the requester gets the acknowledge. -/
def copyinRqstRmt2lcl (n : Node) (h : Hdr) (pay : Mem) (rmt lcl : ℤ) (cp : ℤ) :
    Option (Node × ℤ) :=
  let rq := endpointP h.vcopy.rqtr
  if rq = lcl ∨ rq = rmt then none
  else
    let n := (n.clearOncopy lcl).clearOncopy rmt
    let q := n.proc rq
    let ret :=
      if ¬ q.rts.remote then EMol.lclproc
      else if ¬ bytesOk h (n.conf.maxbytes h.snode) then EMol.range
      else if q.rts.oncopy then EMol.oncopy
      else if q.rts.rmtoper then EMol.enqueued
      else if q.rts.sending then EMol.enqueued
      else cp
    let n := if ret = EMol.ok then
        n.modProc lcl fun p =>
          { p with mem := p.mem.blit h.vcopy.daddr pay 0 h.vcopy.bytes.toNat }
      else n
    let n := n.modProc rq fun p => { p with rmtcmd := { p.rmtcmd with vcopy := h.vcopy } }
    let n := if ret ≠ EMol.enqueued then (n.genericAckLcl2rmt .copyrmtAck rq lcl ret).1 else n
    some (n, ret)

/-- `copyout_rqst_rmt2lcl`: the remote process `rmt` asks for data of the local process `lcl`. -/
def copyoutRqstRmt2lcl (n : Node) (h : Hdr) (rmt lcl : ℤ) : Node × ℤ :=
  let p := n.proc lcl
  let ret :=
    if ¬ bytesOk h (n.conf.maxbytes h.snode) then EMol.range
    else if p.rts = Rts.running then EMol.procsts
    else if p.rts.oncopy then EMol.oncopy
    else if p.endpoint ≠ h.vcopy.src then EMol.badproc
    else EMol.ok
  let n := if ret = EMol.ok then
      n.modProc rmt fun p => { p with rmtcmd := { p.rmtcmd with vcopy := h.vcopy } }
    else n
  n.copyoutDataLcl2rmt rmt lcl ret

/-- `copyout_data_rmt2lcl`: the data that the local process `lcl` had asked for. -/
def copyoutDataRmt2lcl (n : Node) (h : Hdr) (pay : Mem) (rmt lcl : ℤ) (cp : ℤ) :
    Option (Node × ℤ) :=
  if ¬ bytesOk h (n.conf.maxbytes h.snode) then some (n, EMol.range)
  else
    let d := endpointP h.vcopy.dst
    -- the two locks are dropped and the three are taken when the destination is a third process
    if (n.proc d).endpoint ≠ (n.proc lcl).endpoint ∧ (d = lcl ∨ d = rmt) then none
    else
      let ret :=
        if (n.proc lcl).rts = Rts.running then EMol.procrun
        else if (n.proc d).rts = Rts.running then EMol.procrun
        else if ¬ (n.proc lcl).rts.oncopy then EMol.procsts
        else if ¬ (n.proc d).rts.oncopy then EMol.procsts
        else if ¬ (n.proc rmt).rts.oncopy then EMol.procsts
        else EMol.ok
      if ret ≠ EMol.ok then some (n, ret)
      else
        let ret := if h.rcode = EMol.ok then cp else EMol.ok
        let n := if h.rcode = EMol.ok ∧ cp = 0 then
            n.modProc d fun p =>
              { p with mem := p.mem.blit h.vcopy.daddr pay 0 h.vcopy.bytes.toNat }
          else n
        let n := n.modProc lcl fun p =>
          if p.rts = Rts.onlyOncopy then p.up h.rcode else p
        some (n, ret)

/-! ### Acknowledges for a local process -/

/-- `send_ack_rmt2lcl`. -/
def sendAckRmt2lcl (n : Node) (rmt lcl : ℤ) (rcode : ℤ) : Node × ℤ :=
  if (n.proc rmt).rts.sending then (n, EMol.procsts)
  else if ¬ (n.proc lcl).rts.sending then (n, EMol.ackdst)
  else if (n.proc lcl).sendto ≠ (n.proc rmt).endpoint then (n, EMol.acksrc)
  else (n.modProc lcl fun p => p.endSend.upIfReady rcode, EMol.ok)

/-- `generic_ack_rmt2lcl`, the acknowledges of copies. -/
def genericAckRmt2lcl (n : Node) (rmt lcl : ℤ) (rcode : ℤ) : Node × ℤ :=
  if ¬ (n.proc rmt).rts.remote then (n, EMol.lclproc)
  else if (n.proc lcl).rts = Rts.running then (n, EMol.procrun)
  else if ¬ (n.proc lcl).rts.oncopy then (n, EMol.procsts)
  else if ¬ (n.proc rmt).rts.oncopy then (n, EMol.procsts)
  else (n.modProc lcl fun p => if p.rts = Rts.onlyOncopy then p.up rcode else p, EMol.ok)

/-! ### `mm_put2lcl` -/

/-- The checks made before any descriptor is looked at; a header that fails one of them is dropped.
-/
def put2lclEntry (n : Node) (px : ℤ) (h : Hdr) : ℤ :=
  let rp := n.rproxy px
  if rp.rts.slotFree then EMol.procsts
  else if ¬ rp.misc.proxy then EMol.noproxy
  else if ¬ rp.misc.connected then EMol.notconn
  else if ¬ (0 ≤ h.dcid ∧ h.dcid < n.conf.dNrDcs) then EMol.baddcid
  else if n.conf.dcFlags ≠ 0 then EMol.dcnotrun
  else if ¬ n.conf.inRange (endpointP h.src) then EMol.range
  else if ¬ n.conf.inRange (endpointP h.dst) then EMol.range
  else if ¬ n.conf.dcNodes h.snode then EMol.nodcnode
  else if h.dnode ≠ n.conf.localNodeid then EMol.badnodeid
  else EMol.ok

def put2lclCheck (n : Node) (h : Hdr) : ℤ :=
  let r := n.proc (endpointP h.src)
  let l := n.proc (endpointP h.dst)
  if r.rts.slotFree then EMol.notbind
  else if r.rts.remote ∧ r.endpoint ≠ h.src then EMol.endpoint
  else if r.rts.remote ∧ r.nodeid ≠ h.snode then EMol.nonode
  else if ¬ r.rts.remote ∧ ¬ r.misc.replicated then EMol.lclproc
  else if r.rts.rmtoper then EMol.enqueued
  else if r.rts.sending then EMol.enqueued
  else if l.rts.remote then EMol.rmtproc
  else if l.rts.slotFree then EMol.notbind
  else if l.endpoint ≠ h.dst then EMol.endpoint
  else if l.rts.migrate then EMol.migrate
  else if l.nodeid ≠ n.conf.localNodeid then EMol.migrate
  else EMol.ok

/-- The acknowledge that carries the refusal of a command to its sender. -/
def errorAck : Cmd → Cmd
  | .sndrecMsg | .sendMsg | .replyMsg => .sendAck
  | .copyinData => .copyinAck
  | .copyoutRqst => .copyoutData
  | .copylclRqst => .copylclAck
  | .copyrmtRqst => .copyrmtAck
  | _ => .none

/-- What `mm_put2lcl` does with a header whose descriptors fail a check with `ret`. -/
def put2lclReject (n : Node) (h : Hdr) (ret : ℤ) : Node × ℤ :=
  -- acknowledge with error to the remote is not necessary
  if ret = EMol.notbind ∨ ret = EMol.nonode ∨ ret = EMol.lclproc ∨ ret = EMol.enqueued then
    (n, ret)
  else if ¬ (n.sproxy (n.conf.nProxies h.snode)).misc.connected then (n, ret)
  else if h.cmd = .copyinRqst then
    -- reply to requester, not to sender
    let rq := endpointP h.vcopy.rqtr
    if ¬ (n.proc rq).rts.remote then (n, EMol.lclproc)
    else ((n.errorLcl2rmt .copyrmtAck rq h ret).1, ret)
  else if errorAck h.cmd = .none then (n, ret)
  else ((n.errorLcl2rmt (errorAck h.cmd) (endpointP h.src) h ret).1, ret)

/-- The switch on `c_cmd`. -/
def put2lclCmd (n : Node) (h : Hdr) (pay : Mem) (cp : ℤ) : Option (Node × ℤ) :=
  let rmt := endpointP h.src
  let lcl := endpointP h.dst
  match h.cmd with
  | .sndrecMsg | .sendMsg | .replyMsg => some (n.sendRmt2lcl h rmt lcl cp)
  | .ntfyMsg => some (n.notifyRmt2lcl h rmt lcl h.rcode cp)
  | .copyinData => some (n.copyinDataRmt2lcl h pay rmt lcl cp)
  | .copyinRqst => n.copyinRqstRmt2lcl h pay rmt lcl cp
  | .copyoutRqst => some (n.copyoutRqstRmt2lcl h rmt lcl)
  | .copylclRqst => n.copylclRqstRmt2lcl h rmt lcl cp
  | .copyrmtRqst => n.copyrmtRqstRmt2lcl h rmt lcl
  | .sendAck => some (n.sendAckRmt2lcl rmt lcl h.rcode)
  | .copyinAck | .copylclAck | .copyrmtAck => some (n.genericAckRmt2lcl rmt lcl h.rcode)
  | .copyoutData => n.copyoutDataRmt2lcl h pay rmt lcl cp
  | _ => some (n, EMol.badrequest)

/-- `mm_put2lcl`, up to where both descriptors are released. The unbinding after an acknowledge for
a process that does not exist is a separate step. -/
def put2lcl (n : Node) (px : ℤ) (h : Hdr) (pay : Mem) (cp : ℤ) : Option (Node × ℤ) :=
  let e := n.put2lclEntry px h
  if e ≠ EMol.ok then some (n, e)
  -- `WLOCK_PROC2` of one descriptor with itself never returns
  else if endpointP h.src = endpointP h.dst then none
  else
    let ret := n.put2lclCheck h
    if ret ≠ EMol.ok then some (n.put2lclReject h ret)
    else n.put2lclCmd h pay cp

/-- The end of `mm_put2lcl`: an acknowledge with a code that says that the remote process does not
exist has it unbound. -/
def unbinds (n : Node) (px : ℤ) (h : Hdr) : Bool :=
  decide (n.put2lclEntry px h = EMol.ok ∧ n.put2lclCheck h = EMol.ok) && h.cmd.isAck &&
    decide (h.rcode = EMol.rmtproc ∨ h.rcode = EMol.dstdied ∨ h.rcode = EMol.endpoint)

/-! ### Commands that reach their handler -/

/-- The receiver proxy may deliver commands, and the header names a running DC, processes in range,
a node of the DC and this node. -/
structure Admitted (n : Node) (px : ℤ) (h : Hdr) : Prop where
  bound : (n.rproxy px).rts.slotFree = false
  proxy : (n.rproxy px).misc.proxy = true
  connected : (n.rproxy px).misc.connected = true
  dcid : 0 ≤ h.dcid ∧ h.dcid < n.conf.dNrDcs
  running : n.conf.dcFlags = 0
  src : n.conf.inRange (endpointP h.src)
  dst : n.conf.inRange (endpointP h.dst)
  snode : n.conf.dcNodes h.snode = true
  dnode : h.dnode = n.conf.localNodeid

/-- The destination is a bound local process of this node with the endpoint of the header. -/
structure DstReady (n : Node) (h : Hdr) : Prop where
  isLocal : (n.proc (endpointP h.dst)).rts.remote = false
  bound : (n.proc (endpointP h.dst)).rts.slotFree = false
  endpoint : (n.proc (endpointP h.dst)).endpoint = h.dst
  settled : (n.proc (endpointP h.dst)).rts.migrate = false
  node : (n.proc (endpointP h.dst)).nodeid = n.conf.localNodeid

/-- The source is a remote process known under the endpoint and the node of the header, with no
operation in progress. -/
structure SrcReady (n : Node) (h : Hdr) : Prop where
  remote : (n.proc (endpointP h.src)).rts.remote = true
  bound : (n.proc (endpointP h.src)).rts.slotFree = false
  endpoint : (n.proc (endpointP h.src)).endpoint = h.src
  node : (n.proc (endpointP h.src)).nodeid = h.snode
  rmtoper : (n.proc (endpointP h.src)).rts.rmtoper = false
  sending : (n.proc (endpointP h.src)).rts.sending = false

section Reach

variable {n : Node} {h : Hdr}

theorem put2lclEntry_eq_ok {px : ℤ} : n.put2lclEntry px h = EMol.ok ↔ Admitted n px h := by
  constructor
  · intro he
    unfold put2lclEntry at he
    dsimp only at he
    repeat' split at he
    all_goals first | exact absurd he (by decide) | skip
    constructor <;> simp_all
  · rintro ⟨h1, h2, h3, h4, h5, h6, h7, h8, h9⟩
    simp [put2lclEntry, h1, h2, h3, h4, h5, h6, h7, h8, h9]

theorem put2lclCheck_of_ready (hs : SrcReady n h) (hd : DstReady n h) :
    n.put2lclCheck h = EMol.ok := by
  simp [put2lclCheck, hs.bound, hs.remote, hs.endpoint, hs.node, hs.rmtoper, hs.sending, hd.isLocal,
    hd.bound, hd.endpoint, hd.settled, hd.node]

theorem put2lcl_eq_cmd {px cp : ℤ} {pay : Mem} (ha : Admitted n px h)
    (hne : endpointP h.src ≠ endpointP h.dst) (hs : SrcReady n h) (hd : DstReady n h) :
    n.put2lcl px h pay cp = n.put2lclCmd h pay cp := by
  simp [put2lcl, put2lclEntry_eq_ok.2 ha, hne, put2lclCheck_of_ready hs hd]

section Busy

variable (hr : (n.proc (endpointP h.src)).rts.remote = true)
  (hb : (n.proc (endpointP h.src)).rts.slotFree = false)
  (he : (n.proc (endpointP h.src)).endpoint = h.src)
  (hn : (n.proc (endpointP h.src)).nodeid = h.snode)
  (ho : ¬ (n.proc (endpointP h.src)).Unused)

include hr hb he hn ho

theorem put2lclCheck_busy : n.put2lclCheck h = EMol.enqueued := by
  rw [Proc.Unused, not_and_or, Bool.not_eq_false, Bool.not_eq_false] at ho
  rcases ho with ho | ho <;> simp [put2lclCheck, hr, hb, he, hn, ho]

/-- A command of a remote process with an operation in progress is dropped. -/
theorem put2lcl_busy {px cp : ℤ} {pay : Mem} (ha : Admitted n px h)
    (hne : endpointP h.src ≠ endpointP h.dst) :
    n.put2lcl px h pay cp = some (n, EMol.enqueued) := by
  simp [put2lcl, put2lclEntry_eq_ok.2 ha, hne, put2lclCheck_busy hr hb he hn ho, put2lclReject,
    EMol.enqueued, EMol.ok]

end Busy

theorem unbinds_of_ok {px : ℤ} (hr : h.rcode = EMol.ok) : n.unbinds px h = false := by
  have hcodes : ¬ (h.rcode = EMol.rmtproc ∨ h.rcode = EMol.dstdied ∨ h.rcode = EMol.endpoint) := by
    rw [hr]
    decide
  simp [unbinds, hcodes]

end Reach

end Node

end MolIpc
