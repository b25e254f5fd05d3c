import MolIpc.Proxy.Get2rmt

/-!
Which requests of a remote process `mm_put2lcl` answers.

A process that asks another node for something sleeps until the answer comes. Its request is
*handled* when the node performs it, queues its sender on the destination, or queues one
acknowledge with an error code; `put2lcl_handled_iff` says for which headers and in which states
of the node that is so.
-/

namespace MolIpc

def Cmd.isRequest : Cmd → Bool
  | .sendMsg | .sndrecMsg | .replyMsg => true
  | .copyinData | .copyoutRqst | .copylclRqst | .copyrmtRqst => true
  | _ => false

namespace Node

/-! ### What it means to handle a request -/

/-- The queue of the sender proxy `px` gets the descriptor `x`; the other queues stay. -/
def Enqueued (n n' : Node) (px x : ℤ) : Prop :=
  ∀ q, (n'.sproxy q).list = if q = px then (n.sproxy q).list ++ [x] else (n.sproxy q).list

/-- One acknowledge with code `rcode` is queued for the process that sent the header `h`. -/
structure AckQueued (n : Node) (h : Hdr) (n' : Node) (rcode : ℤ) : Prop where
  queue : Enqueued n n' (n.conf.nProxies h.snode) (endpointP h.src)
  isAck : (n'.proc (endpointP h.src)).rmtcmd.cmd.isAck = true
  dst : (n'.proc (endpointP h.src)).rmtcmd.dst = h.src
  dnode : (n'.proc (endpointP h.src)).rmtcmd.dnode = h.snode
  rcode : (n'.proc (endpointP h.src)).rmtcmd.rcode = rcode

/-- The data of a `CMD_COPYOUT_RQST` are read when the answer leaves, and a `CMD_COPYRMT_RQST` is
passed on to the node of the destination. -/
def Performed (n : Node) (h : Hdr) (pay : Mem) (n' : Node) : Prop :=
  let l := endpointP h.dst
  let d := endpointP h.vcopy.dst
  match h.cmd with
  | .sendMsg | .sndrecMsg | .replyMsg =>
    (n.proc l).rts.receiving = true ∧ (n'.proc l).rts.receiving = false ∧
      (n'.proc l).ubuf = h.msg
  | .copyinData =>
    AckQueued n h n' EMol.ok ∧
      (n'.proc l).mem = (n.proc l).mem.blit h.vcopy.daddr pay 0 h.vcopy.bytes.toNat
  | .copyoutRqst =>
    AckQueued n h n' EMol.ok ∧ (n'.proc (endpointP h.src)).rmtcmd.vcopy = h.vcopy
  | .copylclRqst =>
    AckQueued n h n' EMol.ok ∧
      (n'.proc d).mem =
        (n.proc d).mem.blit h.vcopy.daddr (n.proc l).mem h.vcopy.saddr h.vcopy.bytes.toNat
  | .copyrmtRqst =>
    Enqueued n n' (n.conf.nProxies (n.proc d).nodeid) d ∧
      (n'.proc d).rmtcmd.cmd = .copyinRqst ∧ (n'.proc d).rmtcmd.vcopy = h.vcopy
  | _ => False

/-- The sender waits in the queue of the destination, with its message. -/
structure SenderQueued (n : Node) (h : Hdr) (n' : Node) : Prop where
  queue : (n'.proc (endpointP h.dst)).list = (n.proc (endpointP h.dst)).list ++ [endpointP h.src]
  message : (n'.proc (endpointP h.src)).message = h.msg

/-- The request is performed, its sender is queued, or it is refused with one acknowledge. -/
def Handled (n : Node) (h : Hdr) (pay : Mem) (n' : Node) : Prop :=
  Performed n h pay n' ∨ SenderQueued n h n' ∨ ∃ rcode < 0, AckQueued n h n' rcode

/-! ### When a request is handled -/

/-- The source descriptor is bound as remote with the endpoint and the node of the header, and the
proxy to that node is connected. -/
structure KnownSource (n : Node) (h : Hdr) : Prop where
  request : h.cmd.isRequest = true
  remote : (n.proc (endpointP h.src)).rts.remote = true
  bound : (n.proc (endpointP h.src)).rts.slotFree = false
  endpoint : (n.proc (endpointP h.src)).endpoint = h.src
  node : (n.proc (endpointP h.src)).nodeid = h.snode
  proxy : (n.sproxy (n.conf.nProxies h.snode)).rts ≠ Rts.onlyFree
  connected : (n.sproxy (n.conf.nProxies h.snode)).misc.connected = true

/-- The destination is remote, another process or a migrating one. A free slot is not among these.
-/
def DstRefused (n : Node) (h : Hdr) : Prop :=
  let l := n.proc (endpointP h.dst)
  l.rts.remote = true ∨
    (l.rts.slotFree = false ∧
      (l.endpoint ≠ h.dst ∨ l.rts.migrate = true ∨ l.nodeid ≠ n.conf.localNodeid))

/-- The checks of a request for a copy whose failure is only returned to the proxy. -/
structure CopyAccepted (n : Node) (h : Hdr) : Prop where
  bytes : bytesOk h maxCopyLen
  idle : (n.proc (endpointP h.dst)).rts.oncopy = false
  src : (n.proc (endpointP h.dst)).endpoint = h.vcopy.src
  range : n.conf.inRange (endpointP h.vcopy.dst)
  ne_dst : endpointP h.vcopy.dst ≠ endpointP h.dst
  ne_src : endpointP h.vcopy.dst ≠ endpointP h.src

/-- The destination of a copy is refused with an acknowledge, or can carry the request. -/
def RmtDstAnswered (n : Node) (h : Hdr) : Prop :=
  let d := n.proc (endpointP h.vcopy.dst)
  d.rts.remote = false ∨ d.rts.slotFree = true ∨ d.endpoint ≠ h.vcopy.dst ∨ d.rts.oncopy = true ∨
    (d.rts.rmtoper = false ∧ d.rts.sending = false ∧
      (n.sproxy (n.conf.nProxies d.nodeid)).rts ≠ Rts.onlyFree)

def HandlerAnswers (n : Node) (h : Hdr) (cp : ℤ) : Prop :=
  match h.cmd with
  | .sendMsg | .sndrecMsg | .replyMsg => (n.proc (endpointP h.dst)).waitsFor h.src → cp = 0
  | .copylclRqst => CopyAccepted n h
  | .copyrmtRqst => CopyAccepted n h ∧ RmtDstAnswered n h
  | _ => True

structure Answered (n : Node) (px : ℤ) (h : Hdr) (cp : ℤ) : Prop where
  admitted : Admitted n px h
  distinct : endpointP h.src ≠ endpointP h.dst
  rmtoper : (n.proc (endpointP h.src)).rts.rmtoper = false
  sending : (n.proc (endpointP h.src)).rts.sending = false
  dst : DstRefused n h ∨ (DstReady n h ∧ HandlerAnswers n h cp)

/-! ### Acknowledges and silence -/

section Outcomes

variable {n n' n₁ : Node} {h : Hdr} {pay : Mem} {cp : ℤ} {ack : Cmd}

theorem Enqueued.ne_self {px x : ℤ} (hq : Enqueued n n' px x)
    (hsame : ∀ q, (n'.sproxy q).list = (n.sproxy q).list) : False := by
  have hpx := hq px
  rw [hsame px, if_pos rfl] at hpx
  simpa using congrArg List.length hpx

theorem not_handled_of_same (hsproxy : ∀ q, (n'.sproxy q).list = (n.sproxy q).list)
    (hlist : (n'.proc (endpointP h.dst)).list = (n.proc (endpointP h.dst)).list)
    (hrecv : (n'.proc (endpointP h.dst)).rts.receiving =
      (n.proc (endpointP h.dst)).rts.receiving) : ¬ Handled n h pay n' := by
  rintro (hp | hs | ⟨rc, -, ha⟩)
  · unfold Performed at hp
    cases hc : h.cmd <;> simp only [hc] at hp
    case sendMsg | sndrecMsg | replyMsg => simp [hrecv, hp.1] at hp
    case copyinData | copyoutRqst | copylclRqst => exact hp.1.queue.ne_self hsproxy
    case copyrmtRqst => exact hp.1.ne_self hsproxy
  · have hq := hs.queue
    rw [hlist] at hq
    simpa using congrArg List.length hq
  · exact ha.queue.ne_self hsproxy

theorem not_handled_self : ¬ Handled n h pay n :=
  not_handled_of_same (fun _ => rfl) rfl rfl

theorem AckQueued.of_sproxyEnqueue (hk : KnownSource n h) {rcode : ℤ}
    (hf : (n₁.conf, n₁.sproxy) = (n.conf, n.sproxy))
    (hack : (n₁.proc (endpointP h.src)).rmtcmd.cmd.isAck = true)
    (hdst : (n₁.proc (endpointP h.src)).rmtcmd.dst = h.src)
    (hdnode : (n₁.proc (endpointP h.src)).rmtcmd.dnode = h.snode)
    (hrcode : (n₁.proc (endpointP h.src)).rmtcmd.rcode = rcode) :
    AckQueued n h (n₁.sproxyEnqueue (endpointP h.src)).1 rcode := by
  obtain ⟨hconf, hsproxy⟩ := Prod.mk.inj hf
  have hpx : (n₁.sproxy (n₁.conf.nProxies (n₁.proc (endpointP h.src)).rmtcmd.dnode)).rts ≠
      Rts.onlyFree := by
    rw [hdnode, hconf, hsproxy]
    exact hk.proxy
  have hproc : ((n₁.sproxyEnqueue (endpointP h.src)).1.proc (endpointP h.src)).rmtcmd =
      (n₁.proc (endpointP h.src)).rmtcmd := by
    rw [sproxyEnqueue_proc hpx, modProc_same]
  refine ⟨fun q => ?_, ?_, ?_, ?_, ?_⟩
  · rw [sproxyEnqueue_list hpx, hdnode, hconf, hsproxy]
  all_goals rw [hproc]; assumption

variable (hk : KnownSource n h) (hf : (n₁.conf, n₁.sproxy) = (n.conf, n.sproxy))
  (hp : (n₁.proc (endpointP h.src)).endpoint = (n.proc (endpointP h.src)).endpoint ∧
    (n₁.proc (endpointP h.src)).nodeid = (n.proc (endpointP h.src)).nodeid)

include hk

theorem ackQueued_error (rcode : ℤ) (hack : ack.isAck = true) :
    AckQueued n h (n.errorLcl2rmt ack (endpointP h.src) h rcode).1 rcode :=
  .of_sproxyEnqueue hk rfl (by simpa using hack) (by simp [hk.endpoint])
    (by simp [hk.node]) (by simp)

include hf hp

theorem ackQueued_generic (lcl rcode : ℤ) (hack : ack.isAck = true) :
    AckQueued n h (n₁.genericAckLcl2rmt ack (endpointP h.src) lcl rcode).1 rcode :=
  .of_sproxyEnqueue hk hf (by simpa using hack) (by simp [hp.1, hk.endpoint])
    (by simp [hp.2, hk.node]) (by simp)

theorem ackQueued_copyoutData (lcl rcode : ℤ) :
    AckQueued n h (n₁.copyoutDataLcl2rmt (endpointP h.src) lcl rcode).1 rcode :=
  .of_sproxyEnqueue hk hf (by simp [Cmd.isAck]) (by simp [hp.1, hk.endpoint])
    (by simp [hp.2, hk.node]) (by simp)

end Outcomes

/-! ### The checks of `mm_put2lcl` -/

section Checks

variable {n : Node} {h : Hdr} {pay : Mem} {cp : ℤ}

theorem copyRqstCheck_eq_ok :
    copyRqstCheck n h (endpointP h.dst) = EMol.ok ↔
      bytesOk h maxCopyLen ∧ (n.proc (endpointP h.dst)).rts.oncopy = false ∧
        (n.proc (endpointP h.dst)).endpoint = h.vcopy.src ∧
        n.conf.inRange (endpointP h.vcopy.dst) := by
  unfold copyRqstCheck
  split_ifs <;> simp_all [EMol.ok, EMol.range, EMol.oncopy, EMol.badproc]

theorem copyAccepted_iff :
    CopyAccepted n h ↔ copyRqstCheck n h (endpointP h.dst) = EMol.ok ∧
      ¬ (endpointP h.vcopy.dst = endpointP h.dst ∨ endpointP h.vcopy.dst = endpointP h.src) := by
  rw [copyRqstCheck_eq_ok, not_or]
  constructor
  · intro ha
    exact ⟨⟨ha.bytes, ha.idle, ha.src, ha.range⟩, ha.ne_dst, ha.ne_src⟩
  · rintro ⟨⟨h1, h2, h3, h4⟩, h5, h6⟩
    exact ⟨h1, h2, h3, h4, h5, h6⟩

theorem DstReady.not_refused (hd : DstReady n h) : ¬ DstRefused n h := by
  simp [DstRefused, hd.isLocal, hd.endpoint, hd.settled, hd.node]

theorem put2lclCheck_cases (hs : SrcReady n h) :
    (DstRefused n h ∧ (n.put2lclCheck h = EMol.rmtproc ∨ n.put2lclCheck h = EMol.endpoint ∨
        n.put2lclCheck h = EMol.migrate)) ∨
      (DstReady n h ∧ n.put2lclCheck h = EMol.ok) ∨
      (¬ DstRefused n h ∧ ¬ DstReady n h ∧ n.put2lclCheck h = EMol.notbind) := by
  simp only [put2lclCheck, hs.bound, hs.remote, hs.endpoint, hs.node, hs.rmtoper, hs.sending, ne_eq,
    not_true, and_false, false_and, if_false, Bool.false_eq_true]
  split_ifs with h1 h2 h3 h4 h5
  · exact .inl ⟨.inl h1, .inl rfl⟩
  · refine .inr (.inr ⟨?_, fun hd => ?_, rfl⟩)
    · simp [DstRefused, h1, h2]
    · simp [hd.bound] at h2
  · exact .inl ⟨.inr ⟨by simpa using h2, .inr (.inl h4)⟩, .inr (.inr rfl)⟩
  · simp only [Bool.not_eq_true] at h1 h2 h4
    exact .inr (.inl ⟨⟨h1, h2, h3, h4, h5⟩, rfl⟩)
  · exact .inl ⟨.inr ⟨by simpa using h2, .inr (.inr h5)⟩, .inr (.inr rfl)⟩
  · exact .inl ⟨.inr ⟨by simpa using h2, .inl h3⟩, .inr (.inl rfl)⟩

end Checks

section Reject

variable {n : Node} {h : Hdr} {pay : Mem}

theorem isAck_errorAck (hr : h.cmd.isRequest = true) : (errorAck h.cmd).isAck = true := by
  revert hr
  cases h.cmd <;> simp [Cmd.isRequest, errorAck, Cmd.isAck]

theorem put2lclReject_handled (hk : KnownSource n h) {ret : ℤ}
    (hret : ret = EMol.rmtproc ∨ ret = EMol.endpoint ∨ ret = EMol.migrate) :
    Handled n h pay (n.put2lclReject h ret).1 := by
  have hack := isAck_errorAck hk.request
  have hneg : ret < 0 := by rcases hret with rfl | rfl | rfl <;> decide
  have hloud : ¬ (ret = EMol.notbind ∨ ret = EMol.nonode ∨ ret = EMol.lclproc ∨
      ret = EMol.enqueued) := by
    rcases hret with rfl | rfl | rfl <;> decide
  have hcmd : h.cmd ≠ .copyinRqst := by
    intro hc
    simpa [hc, Cmd.isRequest] using hk.request
  have hnone : errorAck h.cmd ≠ .none := by
    intro hc
    simp [hc, Cmd.isAck] at hack
  simp only [put2lclReject, hloud, hk.connected, hcmd, hnone, if_false, not_true]
  exact .inr (.inr ⟨ret, hneg, ackQueued_error hk ret hack⟩)

end Reject

/-! ### The handlers -/

theorem copylclDstCheck_neg {n : Node} {h : Hdr} {d : ℤ} (hne : copylclDstCheck n h d ≠ EMol.ok) :
    copylclDstCheck n h d < 0 := by
  unfold copylclDstCheck at hne ⊢
  dsimp only at hne ⊢
  split_ifs at hne ⊢ <;> first | decide | exact absurd rfl hne

theorem copyrmtDstCheck_cases (n : Node) (h : Hdr) (d : ℤ) :
    (copyrmtDstCheck n h d = EMol.ok ∧ (n.proc d).rts.remote = true ∧
        (n.proc d).rts.slotFree = false ∧ (n.proc d).endpoint = h.vcopy.dst ∧
        (n.proc d).rts.oncopy = false ∧ (n.proc d).rts.rmtoper = false ∧
        (n.proc d).rts.sending = false) ∨
      (copyrmtDstCheck n h d = EMol.enqueued ∧ (n.proc d).rts.remote = true ∧
        (n.proc d).rts.slotFree = false ∧ (n.proc d).endpoint = h.vcopy.dst ∧
        (n.proc d).rts.oncopy = false ∧
        ((n.proc d).rts.rmtoper = true ∨ (n.proc d).rts.sending = true)) ∨
      (copyrmtDstCheck n h d < 0 ∧ copyrmtDstCheck n h d ≠ EMol.enqueued ∧
        ((n.proc d).rts.remote = false ∨ (n.proc d).rts.slotFree = true ∨
          (n.proc d).endpoint ≠ h.vcopy.dst ∨ (n.proc d).rts.oncopy = true)) := by
  unfold copyrmtDstCheck
  dsimp only
  split_ifs <;> simp_all +decide

section Handlers

variable {n : Node} {h : Hdr} {pay : Mem} {cp : ℤ}

variable (hk : KnownSource n h) (hne : endpointP h.src ≠ endpointP h.dst)

include hk hne

theorem sendRmt2lcl_handled_iff
    (hcmd : h.cmd = .sendMsg ∨ h.cmd = .sndrecMsg ∨ h.cmd = .replyMsg) :
    Handled n h pay (n.sendRmt2lcl h (endpointP h.src) (endpointP h.dst) cp).1 ↔
      ((n.proc (endpointP h.dst)).waitsFor h.src → cp = 0) := by
  by_cases hw : (n.proc (endpointP h.dst)).waitsFor h.src
  · have hw' : (n.proc (endpointP h.dst)).waitsFor (n.proc (endpointP h.src)).endpoint := by
      rwa [hk.endpoint]
    by_cases hcp : cp = 0
    · refine iff_of_true (.inl ?_) fun _ => hcp
      have hrecv := hw.1
      have hdst : (n.sendRmt2lcl h (endpointP h.src) (endpointP h.dst) cp).1.proc
          (endpointP h.dst) =
          ({ n.proc (endpointP h.dst) with ubuf := h.msg }.endReceive).upIfReady EMol.ok := by
        simp only [sendRmt2lcl, hw', hcp, if_true, ne_eq, not_true, if_false, modProc_same]
        split <;> simp [hne.symm]
      rcases hcmd with hc | hc | hc <;>
        simp only [Performed, hc] <;> simp [hdst, hrecv, Proc.endReceive]
    · refine iff_of_false ?_ fun hc => hcp (hc hw)
      simp only [sendRmt2lcl, hw', hcp, if_true, ne_eq, not_false_eq_true]
      exact not_handled_self
  · refine iff_of_true (.inr (.inl ?_)) fun hc => absurd hc hw
    have hw' : ¬ (n.proc (endpointP h.dst)).waitsFor (n.proc (endpointP h.src)).endpoint := by
      rwa [hk.endpoint]
    simp only [sendRmt2lcl, hw', if_false]
    exact ⟨by simp [addTail, hne.symm], by simp [addTail, hne]⟩

theorem copyinDataRmt2lcl_handled (hcmd : h.cmd = .copyinData) (hcp : cp ≤ 0) :
    Handled n h pay
      (n.copyinDataRmt2lcl h pay (endpointP h.src) (endpointP h.dst) cp).1 := by
  simp only [copyinDataRmt2lcl]
  generalize hret : (if ¬ bytesOk h (n.conf.maxbytes h.snode) then EMol.range
    else if (n.proc (endpointP h.dst)).rts.oncopy then EMol.oncopy
    else if (n.proc (endpointP h.dst)).rts.sending then EMol.enqueued
    else if (n.proc (endpointP h.dst)).endpoint ≠ h.vcopy.dst then EMol.badproc
    else cp) = ret
  by_cases hok : ret = EMol.ok
  · simp only [hok, if_true]
    refine .inl ?_
    simp only [Performed, hcmd]
    exact ⟨ackQueued_generic hk (by rfl) (by simp [hne]) _ _ rfl, by simp [hne.symm]⟩
  · have hneg : ret < 0 := by
      have hle : ret ≤ 0 := by
        rw [← hret]
        split_ifs <;> first | decide | exact hcp
      have hok' : ret ≠ 0 := hok
      omega
    simp only [hok, if_false]
    exact .inr (.inr ⟨ret, hneg, ackQueued_generic hk (by rfl) (by simp) _ _ rfl⟩)

omit hne in
theorem copyoutRqstRmt2lcl_handled (hcmd : h.cmd = .copyoutRqst) :
    Handled n h pay (n.copyoutRqstRmt2lcl h (endpointP h.src) (endpointP h.dst)).1 := by
  simp only [copyoutRqstRmt2lcl]
  generalize hret : (if ¬ bytesOk h (n.conf.maxbytes h.snode) then EMol.range
    else if (n.proc (endpointP h.dst)).rts = Rts.running then EMol.procsts
    else if (n.proc (endpointP h.dst)).rts.oncopy then EMol.oncopy
    else if (n.proc (endpointP h.dst)).endpoint ≠ h.vcopy.src then EMol.badproc
    else EMol.ok) = ret
  by_cases hok : ret = EMol.ok
  · simp only [hok, if_true]
    refine .inl ?_
    simp only [Performed, hcmd]
    refine ⟨ackQueued_copyoutData hk (by rfl) (by simp) _ _, ?_⟩
    rw [copyoutDataLcl2rmt, sproxyEnqueue_proc (by simpa [hk.node] using hk.proxy)]
    simp
  · have hneg : ret < 0 := by
      rw [← hret] at hok ⊢
      split_ifs at hok ⊢ <;> first | decide | exact absurd rfl hok
    simp only [hok, if_false]
    exact .inr (.inr ⟨ret, hneg, ackQueued_copyoutData hk (by rfl) ⟨rfl, rfl⟩ _ _⟩)

omit hk hne in
theorem copyRqst_handled_iff {rest : Option (Node × ℤ)} {P : Prop}
    (hrest : CopyAccepted n h → ((∃ r ∈ rest, Handled n h pay r.1) ↔ P)) :
    (∃ r ∈ if copyRqstCheck n h (endpointP h.dst) ≠ EMol.ok then
          some (n, copyRqstCheck n h (endpointP h.dst))
        else if endpointP h.vcopy.dst = endpointP h.dst ∨
          endpointP h.vcopy.dst = endpointP h.src then none
        else rest, Handled n h pay r.1) ↔ CopyAccepted n h ∧ P := by
  rw [copyAccepted_iff] at hrest ⊢
  split_ifs with hc hd
  · refine iff_of_false ?_ fun ha => hc ha.1.1
    simpa using not_handled_self
  · exact iff_of_false (by simp) fun ha => ha.1.2 hd
  · have ha := And.intro (not_not.1 hc) hd
    rw [hrest ha, and_iff_right ha]

omit hne in
theorem copylclRqstRmt2lcl_handled_iff (hcmd : h.cmd = .copylclRqst) (hcp : cp ≤ 0) :
    (∃ r ∈ n.copylclRqstRmt2lcl h (endpointP h.src) (endpointP h.dst) cp,
      Handled n h pay r.1) ↔ CopyAccepted n h := by
  refine (copyRqst_handled_iff fun ha => iff_of_true ?_ trivial).trans (and_iff_left trivial)
  by_cases hok : copylclDstCheck
      ((n.clearOncopy (endpointP h.dst)).clearOncopy (endpointP h.src)) h
      (endpointP h.vcopy.dst) = EMol.ok
  · simp only [hok, if_true, Option.mem_def, Option.some.injEq, exists_eq_left']
    by_cases hcp0 : cp = 0
    · simp only [hcp0, if_true]
      refine .inl ?_
      simp only [Performed, hcmd]
      exact ⟨ackQueued_generic hk (by rfl) (by simp [ha.ne_src.symm, clearOncopy_proc]) _ _ rfl,
        by simp [ha.ne_src, clearOncopy_proc]⟩
    · simp only [hcp0, if_false]
      exact .inr (.inr ⟨cp, by omega,
        ackQueued_generic hk (by rfl) (by simp [clearOncopy_proc]) _ _ rfl⟩)
  · simp only [hok, if_false, Option.mem_def, Option.some.injEq, exists_eq_left']
    exact .inr (.inr ⟨_, copylclDstCheck_neg hok,
      ackQueued_generic hk (by rfl) (by simp [clearOncopy_proc]) _ _ rfl⟩)

omit hne in
theorem copyrmtRqstRmt2lcl_handled_iff (hcmd : h.cmd = .copyrmtRqst) :
    (∃ r ∈ n.copyrmtRqstRmt2lcl h (endpointP h.src) (endpointP h.dst),
      Handled n h pay r.1) ↔ CopyAccepted n h ∧ RmtDstAnswered n h := by
  refine copyRqst_handled_iff fun ha => ?_
  generalize hn₁ : (n.clearOncopy (endpointP h.dst)).clearOncopy (endpointP h.src) = n₁
  -- clearing the bits of the two parties leaves the destination of the copy as it was
  have hproc : n₁.proc (endpointP h.vcopy.dst) = n.proc (endpointP h.vcopy.dst) := by
    rw [← hn₁]
    simp [clearOncopy, ha.ne_dst, ha.ne_src]
  have hf : (n₁.conf, n₁.sproxy) = (n.conf, n.sproxy) := by rw [← hn₁]; rfl
  obtain ⟨hconf, hsp⟩ := Prod.mk.inj hf
  have hlcl : (n₁.proc (endpointP h.dst)).list = (n.proc (endpointP h.dst)).list ∧
      (n₁.proc (endpointP h.dst)).rts.receiving =
        (n.proc (endpointP h.dst)).rts.receiving := by
    rw [← hn₁]
    simp [clearOncopy_proc]
  have hcases := copyrmtDstCheck_cases n₁ h (endpointP h.vcopy.dst)
  rw [hproc] at hcases
  obtain ⟨hret, hrem, hfree, hep, honc, hop, hsnd⟩ | ⟨hret, hrem, hfree, hep, honc, hbusy⟩ |
    ⟨hneg, hloud, herr⟩ := hcases
  · simp only [hret, if_true, Option.mem_def, Option.some.injEq, exists_eq_left',
      copyinRqstLcl2rmt]
    by_cases hpx : (n.sproxy (n.conf.nProxies (n.proc (endpointP h.vcopy.dst)).nodeid)).rts =
        Rts.onlyFree
    · refine iff_of_false ?_ (by simp [RmtDstAnswered, hrem, hfree, hep, honc, hpx])
      rw [sproxyEnqueue_of_free _ _ (by simpa [hproc, hsp, hconf] using hpx)]
      exact not_handled_of_same (by simp [hsp]) (by simp [ha.ne_dst.symm, hlcl.1])
        (by simp [ha.ne_dst.symm, hlcl.2])
    · refine iff_of_true (.inl ?_) (by simp [RmtDstAnswered, hop, hsnd, hpx])
      simp only [Performed, hcmd]
      refine ⟨fun q => ?_, ?_⟩
      · rw [sproxyEnqueue_list (by simpa [hproc, hsp, hconf] using hpx)]
        simp [hproc, hsp, hconf]
      · rw [sproxyEnqueue_proc (by simpa [hproc, hsp, hconf] using hpx)]
        simp
  · have hne0 : EMol.enqueued ≠ EMol.ok := by decide
    simp only [hret, hne0, if_false, if_true, Option.mem_def, Option.some.injEq, exists_eq_left']
    refine iff_of_false (not_handled_of_same (by simp [hsp]) hlcl.1 hlcl.2) ?_
    rcases hbusy with hb | hb <;> simp [RmtDstAnswered, hrem, hfree, hep, honc, hb]
  · have hne0 : copyrmtDstCheck n₁ h (endpointP h.vcopy.dst) ≠ EMol.ok := by
      intro hc
      rw [hc] at hneg
      exact absurd hneg (by decide)
    simp only [hne0, hloud, if_false, Option.mem_def, Option.some.injEq, exists_eq_left']
    refine iff_of_true (.inr (.inr ⟨_, hneg, ackQueued_generic hk hf ?_ _ _ rfl⟩)) ?_
    · rw [← hn₁]
      simp [clearOncopy_proc]
    · unfold RmtDstAnswered
      tauto

end Handlers

/-! ### The result -/

section Main

variable {n : Node} {h : Hdr} {pay : Mem} {cp : ℤ}

theorem put2lclCmd_handled_iff (hk : KnownSource n h) (hne : endpointP h.src ≠ endpointP h.dst)
    (hcp : cp ≤ 0) :
    (∃ r ∈ n.put2lclCmd h pay cp, Handled n h pay r.1) ↔ HandlerAnswers n h cp := by
  have hreq := hk.request
  unfold put2lclCmd HandlerAnswers
  cases hc : h.cmd <;> simp only [hc, Cmd.isRequest, Bool.false_eq_true] at hreq ⊢
  case sendMsg | sndrecMsg | replyMsg =>
    simpa using sendRmt2lcl_handled_iff hk hne (by simp [hc])
  case copyinData => simpa using copyinDataRmt2lcl_handled hk hne hc hcp
  case copyoutRqst => simpa using copyoutRqstRmt2lcl_handled hk hc
  case copylclRqst => exact copylclRqstRmt2lcl_handled_iff hk hc hcp
  case copyrmtRqst => exact copyrmtRqstRmt2lcl_handled_iff hk hc

end Main

/-- **A request is answered iff its source is idle, its destination slot is bound, and the
handler has nothing to refuse in silence.** -/
theorem put2lcl_handled_iff (n : Node) (px : ℤ) (h : Hdr) (pay : Mem) (cp : ℤ)
    (hk : KnownSource n h) (hcp : cp ≤ 0) :
    (∃ r ∈ n.put2lcl px h pay cp, Handled n h pay r.1) ↔ Answered n px h cp := by
  unfold put2lcl
  by_cases hadm : Admitted n px h
  swap
  · have he : n.put2lclEntry px h ≠ EMol.ok := fun he => hadm (put2lclEntry_eq_ok.1 he)
    refine iff_of_false ?_ fun ha => hadm ha.admitted
    simpa [he] using not_handled_self
  rw [if_neg (not_not.2 (put2lclEntry_eq_ok.2 hadm))]
  by_cases hne : endpointP h.src = endpointP h.dst
  · exact iff_of_false (by simp [hne]) fun ha => ha.distinct hne
  rw [if_neg hne]
  by_cases hidle : (n.proc (endpointP h.src)).Unused
  swap
  · have hret := put2lclCheck_busy hk.remote hk.bound hk.endpoint hk.node hidle
    refine iff_of_false ?_ fun ha => hidle ⟨ha.rmtoper, ha.sending⟩
    simpa [hret, put2lclReject, EMol.enqueued, EMol.ok] using not_handled_self
  obtain ⟨hrmt, hsend⟩ := hidle
  obtain ⟨href, hret⟩ | ⟨hready, hret⟩ | ⟨href, hready, hret⟩ :=
    put2lclCheck_cases ⟨hk.remote, hk.bound, hk.endpoint, hk.node, hrmt, hsend⟩
  · refine iff_of_true ?_ ⟨hadm, hne, hrmt, hsend, .inl href⟩
    have hne0 : n.put2lclCheck h ≠ EMol.ok := by
      rcases hret with hr | hr | hr <;> rw [hr] <;> decide
    simpa [hne0] using put2lclReject_handled hk hret
  · rw [hret, if_neg (not_not.2 rfl), put2lclCmd_handled_iff hk hne hcp]
    exact ⟨fun ha => ⟨hadm, hne, hrmt, hsend, .inr ⟨hready, ha⟩⟩,
      fun ha => (ha.dst.resolve_left hready.not_refused).2⟩
  · refine iff_of_false ?_ fun ha => ?_
    · simpa [hret, put2lclReject, EMol.notbind, EMol.ok] using not_handled_self
    · rcases ha.dst with hd | hd
      · exact href hd
      · exact hready hd.1

/-- `mm_get2rmt` on node `n` hands the header `h` to the user program of proxy `px`. -/
def Emits (n : Node) (px : ℤ) (h : Hdr) : Prop :=
  ∃ n₁ x ret n₂ pay', n.get2rmtDequeue px = some (n₁, x, ret) ∧
    n₁.get2rmtSend x ret (fun _ => 0) 0 = some (n₂, pay', .hdr h)

def sampleHdr : Hdr :=
  { cmd := .sendMsg, dcid := 0, src := 1, dst := 2, snode := 0, dnode := 1
    msg := { source := 1, type := 7 } }

def sampleSender : Node where
  conf := Conf.sample 0
  proc := fun i =>
    if i = 1 then
      { Proc.sample 0 1 { sending := true, rmtoper := true } with
        sendto := 2, proxy := 1, rmtcmd := { sampleHdr with msg := { type := 7 } } }
    else if i = 2 then Proc.sample 1 2 { remote := true }
    else {}
  sproxy := fun k => { Proc.sampleProxy k with list := if k = 1 then [1] else [] }
  rproxy := Proc.sampleProxy

def sampleReceiver (p : Proc) : Node where
  conf := Conf.sample 1
  proc := fun i => if i = 1 then Proc.sample 0 1 { remote := true } else if i = 2 then p else {}
  sproxy := Proc.sampleProxy
  rproxy := Proc.sampleProxy

theorem put2lcl_handled_iff_receiving :
    KnownSource (sampleReceiver (Proc.sample 1 2 { receiving := true })) sampleHdr ∧
      ((∃ r ∈ (sampleReceiver (Proc.sample 1 2 { receiving := true })).put2lcl 0 sampleHdr
          (fun _ => 0) 0,
        Handled (sampleReceiver (Proc.sample 1 2 { receiving := true })) sampleHdr (fun _ => 0)
          r.1) ↔
        Answered (sampleReceiver (Proc.sample 1 2 { receiving := true })) 0 sampleHdr 0) :=
  have hk : KnownSource (sampleReceiver (Proc.sample 1 2 { receiving := true })) sampleHdr :=
    ⟨rfl, rfl, rfl, rfl, rfl, by decide, rfl⟩
  ⟨hk, put2lcl_handled_iff _ 0 sampleHdr (fun _ => 0) 0 hk (Int.le_refl 0)⟩

/-- A message for a slot that is free is dropped: its sender gets no answer. -/
theorem put2lcl_drops_free_destination :
    Emits sampleSender 1 sampleHdr ∧ KnownSource (sampleReceiver {}) sampleHdr ∧
      ¬ ∃ r ∈ (sampleReceiver {}).put2lcl 0 sampleHdr (fun _ => 0) 0,
        Handled (sampleReceiver {}) sampleHdr (fun _ => 0) r.1 := by
  refine ⟨⟨_, _, _, _, _, rfl, rfl⟩, ⟨rfl, rfl, rfl, rfl, rfl, by decide, rfl⟩, ?_⟩
  have hput : (sampleReceiver {}).put2lcl 0 sampleHdr (fun _ => 0) 0 =
      some (sampleReceiver {}, EMol.notbind) := rfl
  rintro ⟨r, hr, hh⟩
  rw [hput, Option.mem_def, Option.some.injEq] at hr
  subst hr
  exact not_handled_self hh

end Node

end MolIpc
