import MolIpc.Proc

/-!
The sender side of the proxies: queueing a descriptor on a sender proxy (`mm_sproxy.c`) and the
commands that a node queues in answer to another node (`mm_acks.c`).
-/

namespace MolIpc

/-- A sender proxy gets the descriptor `x` at the tail of its queue, and is woken up if it waits
for one. -/
def Proc.enqueueCaller (sp : Proc) (x : ℤ) : Proc :=
  let sp := { sp with list := sp.list ++ [x] }
  if sp.rts.receiving then
    Proc.upIfReady { sp with rts := { sp.rts with receiving := false } } EMol.ok
  else sp

@[simp] theorem Proc.enqueueCaller_list (sp : Proc) (x : ℤ) :
    (sp.enqueueCaller x).list = sp.list ++ [x] := by
  by_cases hr : sp.rts.receiving = true <;> simp [enqueueCaller, hr]

@[simp] theorem Proc.enqueueCaller_slotFree (sp : Proc) (x : ℤ) :
    (sp.enqueueCaller x).rts.slotFree = sp.rts.slotFree := by
  unfold Proc.enqueueCaller
  dsimp only
  split
  · rw [Proc.upIfReady_rts]
  · rfl

namespace Node

/-- `sproxy_enqueue`: the descriptor `x` goes to the tail of the queue of the sender proxy of its
node, which is woken up. -/
def sproxyEnqueue (n : Node) (x : ℤ) : Node × ℤ :=
  let px := n.conf.nProxies (n.proc x).rmtcmd.dnode
  if (n.sproxy px).rts = Rts.onlyFree then (n, EMol.noproxy)
  else
    let n := n.modProc x fun p => { p with proxy := px }
    (n.modSproxy px fun sp => sp.enqueueCaller x, EMol.ok)

section Enqueue

variable (n : Node) (x : ℤ)

@[simp] theorem sproxyEnqueue_conf : (n.sproxyEnqueue x).1.conf = n.conf := by
  unfold sproxyEnqueue; dsimp only; split <;> rfl

theorem sproxyEnqueue_of_free
    (h : (n.sproxy (n.conf.nProxies (n.proc x).rmtcmd.dnode)).rts = Rts.onlyFree) :
    n.sproxyEnqueue x = (n, EMol.noproxy) := by
  simp [sproxyEnqueue, h]

variable {n x}

section

variable (h : (n.sproxy (n.conf.nProxies (n.proc x).rmtcmd.dnode)).rts ≠ Rts.onlyFree)

include h

theorem sproxyEnqueue_proc :
    (n.sproxyEnqueue x).1.proc =
      (n.modProc x fun p => { p with proxy := n.conf.nProxies (n.proc x).rmtcmd.dnode }).proc := by
  simp [sproxyEnqueue, h]

theorem sproxyEnqueue_list (q : ℤ) :
    ((n.sproxyEnqueue x).1.sproxy q).list =
      if q = n.conf.nProxies (n.proc x).rmtcmd.dnode then (n.sproxy q).list ++ [x]
      else (n.sproxy q).list := by
  simp only [sproxyEnqueue, h, if_false]
  by_cases hq : q = n.conf.nProxies (n.proc x).rmtcmd.dnode
  · simp [hq]
  · simp [hq]

end

theorem sproxyEnqueue_field {α : Type*} (g : Proc → α) (hg : ∀ p px, g { p with proxy := px } = g p)
    (q : ℤ) : g ((n.sproxyEnqueue x).1.proc q) = g (n.proc q) := by
  unfold sproxyEnqueue
  dsimp only
  split
  · rfl
  · exact modProc_field x q g fun p => hg p _

@[simp] theorem sproxyEnqueue_proc_of_ne {j : ℤ} (hj : j ≠ x) :
    (n.sproxyEnqueue x).1.proc j = n.proc j := by
  unfold sproxyEnqueue
  dsimp only
  split
  · rfl
  · simp [hj]

end Enqueue

/-- `generic_ack_lcl2rmt`: the descriptor of `rmt` carries an acknowledge of `lcl` to it. -/
def genericAckLcl2rmt (n : Node) (ack : Cmd) (rmt lcl : ℤ) (rcode : ℤ) : Node × ℤ :=
  (n.modProc rmt fun r =>
    { r with
      rts := { r.rts with rmtoper := true }
      rmtcmd := { r.rmtcmd with
        cmd := ack, dcid := n.conf.dcid, src := (n.proc lcl).endpoint, dst := r.endpoint
        snode := n.conf.localNodeid, dnode := r.nodeid, len := 0, rcode := rcode } }).sproxyEnqueue rmt

/-- `error_lcl2rmt`: an acknowledge with an error, made of the header that was received. -/
def errorLcl2rmt (n : Node) (ack : Cmd) (rmt : ℤ) (h : Hdr) (rcode : ℤ) : Node × ℤ :=
  (n.modProc rmt fun r =>
    { r with
      rts := { r.rts with rmtoper := true }
      rmtcmd := { r.rmtcmd with
        cmd := ack, dcid := h.dcid, src := h.dst, dst := r.endpoint
        snode := n.conf.localNodeid, dnode := r.nodeid, len := 0, rcode := rcode } }).sproxyEnqueue rmt

/-- `copyin_rqst_lcl2rmt`: the source `lcl` asks the node of the destination `rmt` to take the data.
As in the source, `c_dst` is the node of `rmt`, not its endpoint. -/
def copyinRqstLcl2rmt (n : Node) (rmt lcl : ℤ) : Node × ℤ :=
  (n.modProc rmt fun r =>
    { r with
      rts := { r.rts with rmtoper := true }
      rmtcmd := { r.rmtcmd with
        cmd := .copyinRqst, dcid := n.conf.dcid, src := (n.proc lcl).endpoint, dst := r.nodeid
        snode := n.conf.localNodeid, dnode := r.nodeid
        len := r.rmtcmd.vcopy.bytes, rcode := EMol.ok } }).sproxyEnqueue rmt

/-- `copyout_data_lcl2rmt`: the data (or the refusal) that answers a `CMD_COPYOUT_RQST`. -/
def copyoutDataLcl2rmt (n : Node) (rmt lcl : ℤ) (rcode : ℤ) : Node × ℤ :=
  (n.modProc rmt fun r =>
    { r with
      rts := { r.rts with rmtoper := true }
      rmtcmd := { r.rmtcmd with
        cmd := .copyoutData, dcid := n.conf.dcid, src := (n.proc lcl).endpoint, dst := r.endpoint
        snode := n.conf.localNodeid, dnode := r.nodeid
        len := r.rmtcmd.vcopy.bytes, rcode := rcode } }).sproxyEnqueue rmt

section Frame

variable (n : Node) {rmt j : ℤ} (hj : j ≠ rmt)

include hj

@[simp] theorem genericAckLcl2rmt_proc_of_ne (ack : Cmd) (lcl rcode : ℤ) :
    (n.genericAckLcl2rmt ack rmt lcl rcode).1.proc j = n.proc j := by
  simp [genericAckLcl2rmt, hj]

end Frame

end Node

end MolIpc
