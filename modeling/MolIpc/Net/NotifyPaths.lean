import MolIpc.Ipc.Calls
import MolIpc.Net.Cluster

/-!
The four ways of a notification: to a process of the same node or of another one, which waits in
a receive from anybody or receives later. What the destination gets, and when all four agree.
-/

namespace MolIpc

variable {nr : ℤ}

/-- `NOTIFY_ARG` of a notification of `nr`, built for the process `p`. -/
def Proc.notifyArg (p : Proc) (nr : ℤ) : ℤ :=
  if nr = hardwareNr then p.intPending
  else if nr = systemNr ∨ nr = slotsNr then p.updtPending
  else p.message.arg

theorem Proc.notifyArg_of_nonneg (p : Proc) (h : 0 ≤ nr) : p.notifyArg nr = p.message.arg := by
  have h1 : nr ≠ hardwareNr := by unfold hardwareNr; omega
  have h2 : ¬ (nr = systemNr ∨ nr = slotsNr) := by unfold slotsNr systemNr; omega
  rw [notifyArg, if_neg h1, if_neg h2]

/-- What a notification says: `m_source`, `m_type` and `NOTIFY_ARG`. -/
def Message.notice (m : Message) : ℤ × ℤ × ℤ := (m.source, m.type, m.arg)

theorem Proc.buildNotify_notice (p : Proc) (self : Bool) (sEp sNr : ℤ) :
    (p.buildNotify self sEp sNr).message.notice =
      (if self then hardwareNr else sEp, notifyFrom sNr, p.notifyArg sNr) := by
  unfold Proc.buildNotify Proc.notifyArg
  split_ifs with h1 h2 h3 <;> simp_all [Message.notice]

namespace Node

variable {p : Proc} {c : ℤ}

/-! ### The four ways -/

def blocked (n : Node) (d : ℤ) : Node := (n.blockReceiving d anyEp).modProc d Proc.fallAsleep

/-- What the process `d` finds in its buffer when its receive has returned `OK`. -/
def received (d : ℤ) : Option (Node × Next) → Option (ℤ × ℤ × ℤ)
  | some (n, .ret code) => if code = EMol.ok then some (n.proc d).ubuf.notice else none
  | _ => none

def wokenReceive (n : Node) (d : ℤ) : Option (Node × Next) :=
  if 0 ≤ (n.proc d).pseudosem then n.wake d (.receive anyEp) .message timeoutForever 1 0 else none

/-- A receive of `d` from anybody. -/
def laterReceive (n : Node) (d : ℤ) : Option (Node × Next) :=
  some (n.miniReceive d anyEp timeoutForever 0)

/-- The next header that the sender proxy `px` takes from its queue. -/
def nextHdr (n : Node) (px : ℤ) : Option Hdr :=
  (n.get2rmtDequeue px).bind fun r =>
    (r.1.get2rmtSend r.2.1 r.2.2 (fun _ => 0) 0).bind fun o =>
      match o.2.2 with
      | .hdr h => some h
      | _ => none

section Ways

variable (n a b : Node) (c srcNr dst upd px px' : ℤ)

def directNotice : Option (ℤ × ℤ × ℤ) :=
  received (endpointP dst) (((n.blocked (endpointP dst)).miniNotify c srcNr dst upd).bind fun r =>
    r.1.wokenReceive (endpointP dst))

def pendingNotice : Option (ℤ × ℤ × ℤ) :=
  received (endpointP dst) ((n.miniNotify c srcNr dst upd).bind fun r =>
    r.1.laterReceive (endpointP dst))

/-- The header that carries the notification from node `a`, by the proxy `px`. -/
def notifyHdr : Option Hdr := (a.miniNotify c srcNr dst upd).bind fun r => r.1.nextHdr px

/-- Two nodes, the destination waits on node `b`; the header comes by the proxy `px'`. -/
def directNoticeRmt : Option (ℤ × ℤ × ℤ) :=
  received (endpointP dst) ((a.notifyHdr c srcNr dst upd px).bind fun h =>
    ((b.blocked (endpointP dst)).put2lcl px' h (fun _ => 0) 0).bind fun r =>
      r.1.wokenReceive (endpointP dst))

def pendingNoticeRmt : Option (ℤ × ℤ × ℤ) :=
  received (endpointP dst) ((a.notifyHdr c srcNr dst upd px).bind fun h =>
    (b.put2lcl px' h (fun _ => 0) 0).bind fun r => r.1.laterReceive (endpointP dst))

end Ways

/-! ### Calls that are accepted -/

/-- `c` may notify `dst`: a system process, whose identifier is a bit of the map, and another bound
process. -/
structure Notifies (n : Node) (c dst : ℤ) : Prop where
  entry : n.sendEntry c dst = EMol.ok
  ne : endpointP dst ≠ c
  bit : 0 ≤ (n.proc c).sId
  priv : (n.proc c).sId < n.conf.dcNrSysprocs
  dst : n.notifyDst dst = .ok

structure Idle (n : Node) (d : ℤ) : Prop where
  running : (n.proc d).rts = Rts.running
  wokenup : (n.proc d).misc.wokenup = false
  quiet : (n.proc d).list = []
  pending : ∀ i, (n.proc d).notifyPending i = false

section Accepted

variable {n : Node} {c srcNr dst upd d : ℤ}

@[simp] theorem blocked_proc_of_ne (n : Node) {i : ℤ} (h : i ≠ d) :
    (n.blocked d).proc i = n.proc i := by
  simp [blocked, blockReceiving, h]

theorem blocked_proc_same (n : Node) (d : ℤ) :
    (n.blocked d).proc d =
      { n.proc d with
        rts := { (n.proc d).rts with receiving := true }
        misc := { (n.proc d).misc with notify := false }
        getfrom := anyEp, rcode := EMol.ok, pseudosem := -1 } := by
  simp [blocked, blockReceiving, Proc.fallAsleep]

theorem Idle.blocked (hi : Idle n d) : (n.blocked d).proc d = { n.proc d with
    rts := { receiving := true }, misc := { (n.proc d).misc with notify := false }
    getfrom := anyEp, rcode := EMol.ok, pseudosem := -1 } := by
  rw [blocked_proc_same, hi.running]
  rfl

theorem Idle.waitsFor (hi : Idle n d) (ep : ℤ) : ((n.blocked d).proc d).waitsFor ep := by
  rw [hi.blocked]
  exact ⟨rfl, rfl, .inl rfl⟩

theorem Notifies.blocked (h : Notifies n c dst) : Notifies (n.blocked (endpointP dst)) c dst := by
  have hc : (n.blocked (endpointP dst)).proc c = n.proc c := blocked_proc_of_ne n h.ne.symm
  refine ⟨?_, h.ne, by rw [hc]; exact h.bit, by rw [hc]; exact h.priv, ?_⟩
  · have := h.entry
    unfold sendEntry dcCheck at this ⊢
    rw [hc]
    exact this
  · have := h.dst
    unfold notifyDst at this ⊢
    rw [blocked_proc_same]
    exact this

theorem Notifies.miniNotify (h : Notifies n c dst) (hs : srcNr ≠ hardwareNr) :
    n.miniNotify c srcNr dst upd =
      some (if (n.proc (endpointP dst)).rts.remote then
          (n.modProc c fun p => { p with rcode := EMol.ok }).notifyRemote c srcNr dst upd
        else (n.modProc c fun p => { p with rcode := EMol.ok }).notifyLocal c srcNr dst upd) := by
  have hp : ¬ n.conf.dcNrSysprocs ≤ (n.proc c).sId := Int.not_le.2 h.priv
  simp only [Node.miniNotify, hs, if_false, h.entry, ne_eq, not_true, hp, h.ne, notifyReplay, h.dst,
    modProc_of_ne _ _ h.ne]

end Accepted

/-! ### The end of a receive -/

section Receives

variable {n : Node} {d : ℤ} {m : ℕ → Bool}

@[simp] theorem wakeMigr_message (p : Proc) : p.wakeMigr.message = p.message := by
  unfold Proc.wakeMigr; split <;> rfl

@[simp] theorem wakeMigr_ubuf (p : Proc) : p.wakeMigr.ubuf = p.ubuf := by
  unfold Proc.wakeMigr; split <;> rfl

@[simp] theorem wakeMigr_notify (p : Proc) : p.wakeMigr.misc.notify = p.misc.notify := by
  unfold Proc.wakeMigr; split <;> rfl

theorem received_wokenReceive (hr : (n.proc d).rcode = EMol.ok) (hw : 0 ≤ (n.proc d).pseudosem) :
    received d (n.wokenReceive d) =
      some (if (n.proc d).misc.notify then (n.proc d).message.notice
        else (n.proc d).ubuf.notice) := by
  have hcode : (n.proc d).sleepResult timeoutForever 1 = EMol.ok := by
    simp [Proc.sleepResult, hr, EMol.ok]
  simp only [wokenReceive, hw, if_true, wake, hcode, ne_eq, not_true, false_and, if_false, resume,
    receiveEnd, received, modProc_same]
  cases hn : (n.proc d).misc.notify <;> simp [hn, EMol.ok]

theorem pendingBit_update {s : ℕ} (hm : ∀ i, m i = false)
    (hp : (n.proc d).notifyPending = Function.update m s true)
    (hs : (s : ℤ) < n.conf.dcNrSysprocs) :
    n.pendingBit d = some s := by
  have hs' : s < n.conf.dcNrSysprocs.toNat := by omega
  unfold pendingBit
  rw [hp, List.find?_range_eq_some]
  refine ⟨by simp, by simpa using hs', fun j hj => ?_⟩
  have hne : j ≠ s := by omega
  simp [Function.update_of_ne hne, hm]

theorem pendingBit_none (hp : ∀ i, (n.proc d).notifyPending i = false) :
    n.pendingBit d = none := by
  unfold pendingBit
  rw [List.find?_eq_none]
  intro i _
  simp [hp]

theorem received_laterReceive (hdc : n.dcCheck = EMol.ok) (hw : (n.proc d).misc.wokenup = false)
    (hm : ∀ i, m i = false)
    (hp : (n.proc d).notifyPending = Function.update m (nr + n.conf.dcNrTasks).toNat true)
    (h0 : 0 ≤ nr + n.conf.dcNrTasks) (h1 : nr + n.conf.dcNrTasks < n.conf.dcNrSysprocs) :
    received d (n.laterReceive d) =
      some (if nr = d then hardwareNr else nr, notifyFrom nr, (n.proc d).notifyArg nr) := by
  have he : n.receiveEntry d anyEp = EMol.ok := by simp [receiveEntry, hdc]
  have hid : (((nr + n.conf.dcNrTasks).toNat : ℕ) : ℤ) - n.conf.dcNrTasks = nr := by omega
  have hbit : n.pendingBit d = some (nr + n.conf.dcNrTasks).toNat :=
    pendingBit_update hm hp (by omega)
  simp only [laterReceive, miniReceive, he, ne_eq, not_true, if_false, hw, Bool.false_eq_true,
    false_and, hbit, receivePending, received, if_true, modProc_same, Proc.buildNotify_notice, hid,
    decide_eq_true_eq]
  rfl

theorem received_laterReceive_none (hdc : n.dcCheck = EMol.ok)
    (hw : (n.proc d).misc.wokenup = false) (hp : n.pendingBit d = none)
    (hl : (n.proc d).list = []) : received d (n.laterReceive d) = none := by
  have he : n.receiveEntry d anyEp = EMol.ok := by simp [receiveEntry, hdc]
  have hs : n.firstSender d anyEp = none := by simp [firstSender, hl]
  have ht : timeoutForever ≠ timeoutNowait := by decide
  simp [laterReceive, miniReceive, he, hw, hp, hs, sleepOr, ht, received]

end Receives

/-! ### One node -/

section Local

variable {n : Node} {c srcNr dst upd : ℤ}

theorem dcCheck_eq_ok :
    n.dcCheck = EMol.ok ↔ (0 ≤ n.conf.dcid ∧ n.conf.dcid < n.conf.dNrDcs) ∧ n.conf.dcFlags = 0 := by
  have h1 : EMol.baddcid ≠ EMol.ok := by decide
  have h2 : EMol.dcnotrun ≠ EMol.ok := by decide
  unfold dcCheck
  by_cases hid : 0 ≤ n.conf.dcid ∧ n.conf.dcid < n.conf.dNrDcs
  · by_cases hfl : n.conf.dcFlags = 0 <;> simp [hid, hfl, h2]
  · rw [if_pos hid]
    exact iff_of_false h1 fun h => hid h.1

theorem sendEntry_dcCheck (h : n.sendEntry c dst = EMol.ok) : n.dcCheck = EMol.ok := by
  unfold sendEntry at h
  by_contra hne
  rw [if_pos hne] at h
  exact hne h

theorem notifySource_congr {m : Node} (h : ∀ i, (m.proc i).endpoint = (n.proc i).endpoint) :
    m.notifySource c srcNr = n.notifySource c srcNr := by
  unfold notifySource
  rw [h c, h srcNr]

theorem blocked_endpoint (d i : ℤ) :
    ((n.blocked d).proc i).endpoint = (n.proc i).endpoint := by
  by_cases hi : i = d
  · rw [hi, blocked_proc_same]
  · rw [blocked_proc_of_ne n hi]

@[simp] theorem buildNotify_rts (p : Proc) (self : Bool) (sEp sNr : ℤ) :
    (p.buildNotify self sEp sNr).rts = p.rts := by
  unfold Proc.buildNotify; dsimp only; split_ifs <;> rfl

@[simp] theorem buildNotify_pseudosem (p : Proc) (self : Bool) (sEp sNr : ℤ) :
    (p.buildNotify self sEp sNr).pseudosem = p.pseudosem := by
  unfold Proc.buildNotify; dsimp only; split_ifs <;> rfl

@[simp] theorem buildNotify_nodeid (p : Proc) (self : Bool) (sEp sNr : ℤ) :
    (p.buildNotify self sEp sNr).nodeid = p.nodeid := by
  unfold Proc.buildNotify; dsimp only; split_ifs <;> rfl

theorem deliverNotify_eq (hp : p.rts = { receiving := true }) (self : Bool) (sEp sNr : ℤ) :
    (p.deliverNotify self sEp sNr).rcode = EMol.ok ∧
      (p.deliverNotify self sEp sNr).pseudosem = p.pseudosem + 1 ∧
      (p.deliverNotify self sEp sNr).misc.notify = true ∧
      (p.deliverNotify self sEp sNr).message = (p.buildNotify self sEp sNr).message := by
  have hr : ∀ q : Proc, q.rts = { receiving := true } →
      q.endReceive.upIfReady EMol.ok = q.endReceive.up EMol.ok := by
    intro q hq
    refine if_pos ?_
    simp [Proc.endReceive, hq, Rts.running]
  unfold Proc.deliverNotify
  rw [hr _ (by simpa using hp)]
  exact ⟨rfl, by simp [Proc.up, Proc.endReceive], rfl, rfl⟩

theorem directNotice_eq (h : Notifies n c dst) (hi : Idle n (endpointP dst))
    (hs : srcNr ≠ hardwareNr) :
    n.directNotice c srcNr dst upd =
      some ((n.notifySource c srcNr).2, notifyFrom (n.notifySource c srcNr).1,
        (n.proc (endpointP dst)).notifyArg (n.notifySource c srcNr).1) := by
  have hne := h.ne
  set d := endpointP dst with hd
  have hp := hi.blocked
  have hsrc : ((n.blocked d).modProc c fun p => { p with rcode := EMol.ok }).notifySource c srcNr =
      n.notifySource c srcNr := by
    refine notifySource_congr fun i => ?_
    rw [modProc_endpoint c i fun _ => by rfl, blocked_endpoint]
  obtain ⟨h1, h2, h3, h4⟩ := deliverNotify_eq (p := (n.blocked d).proc d) (by rw [hp])
    (decide (d = c)) (n.notifySource c srcNr).2 (n.notifySource c srcNr).1
  have hrem : ((n.blocked d).proc d).rts.remote = false := by rw [hp]
  have hself : decide (d = c) = false := by simpa using hne
  unfold directNotice
  rw [← hd, h.blocked.miniNotify hs, ← hd, hrem, if_neg Bool.false_ne_true, Option.bind_some]
  unfold notifyLocal
  dsimp only
  rw [← hd, modProc_of_ne _ _ hne, hsrc, if_pos (hi.waitsFor _)]
  rw [received_wokenReceive]
  · rw [modProc_same, modProc_of_ne _ _ hne, modProc_of_ne _ _ hne, h3, if_pos rfl, h4,
      Proc.buildNotify_notice, hself, hp]
    rfl
  · rw [modProc_same, modProc_of_ne _ _ hne, modProc_of_ne _ _ hne, h1]
  · rw [modProc_same, modProc_of_ne _ _ hne, modProc_of_ne _ _ hne, h2, hp]
    show (0 : ℤ) ≤ -1 + 1
    decide

theorem notifyLocal_idle (hi : (n.proc (endpointP dst)).rts = Rts.running) :
    n.notifyLocal c srcNr dst upd =
      if n.conf.dcNrSysprocs ≤ (n.proc (endpointP dst)).sId then (n, .ret EMol.privileges)
      else ((n.modProc (endpointP dst) (·.setPending (n.proc c).sId)).modProc c (·.setUpdt upd),
        .ret EMol.ok) := by
  refine if_neg ?_
  rintro ⟨hr, _⟩
  rw [hi] at hr
  exact absurd hr (by decide)

theorem Notifies.idle_dst (h : Notifies n c dst) (hi : Idle n (endpointP dst))
    (hs : srcNr ≠ hardwareNr) (upd : ℤ) :
    ∃ r, n.miniNotify c srcNr dst upd = some r ∧ r.1.conf = n.conf ∧ r.1.dcCheck = EMol.ok ∧
      r.1.proc (endpointP dst) =
        if n.conf.dcNrSysprocs ≤ (n.proc (endpointP dst)).sId then n.proc (endpointP dst)
        else (n.proc (endpointP dst)).setPending (n.proc c).sId := by
  have hrem : (n.proc (endpointP dst)).rts.remote = false := by rw [hi.running]; rfl
  have hdc := sendEntry_dcCheck h.entry
  refine ⟨_, h.miniNotify hs, ?_⟩
  rw [hrem, if_neg Bool.false_ne_true, notifyLocal_idle (by rw [modProc_of_ne _ _ h.ne, hi.running]),
    modProc_of_ne _ _ h.ne, modProc_conf]
  split_ifs with hd
  · refine ⟨rfl, hdc, ?_⟩
    rw [modProc_of_ne _ _ h.ne]
  · refine ⟨rfl, hdc, ?_⟩
    rw [modProc_of_ne _ _ h.ne, modProc_same, modProc_of_ne _ _ h.ne, modProc_same]

theorem pendingNotice_eq (h : Notifies n c dst) (hi : Idle n (endpointP dst))
    (hs : srcNr ≠ hardwareNr) (hd : (n.proc (endpointP dst)).sId < n.conf.dcNrSysprocs)
    (hnr : (n.proc c).sId = nr + n.conf.dcNrTasks) :
    n.pendingNotice c srcNr dst upd =
      some (if nr = endpointP dst then hardwareNr else nr, notifyFrom nr,
        (n.proc (endpointP dst)).notifyArg nr) := by
  obtain ⟨r, hr, hconf, hdc, hproc⟩ := h.idle_dst hi hs upd
  rw [if_neg (by omega)] at hproc
  have harg : (r.1.proc (endpointP dst)).notifyArg nr = (n.proc (endpointP dst)).notifyArg nr := by
    rw [hproc]
    rfl
  unfold pendingNotice
  rw [hr, Option.bind_some, received_laterReceive hdc ?_ hi.pending ?_ ?_ ?_, harg]
  · rw [hproc]
    exact hi.wokenup
  · rw [hproc, hconf, ← hnr]
    rfl
  · rw [hconf, ← hnr]
    exact h.bit
  · rw [hconf, ← hnr]
    exact h.priv

theorem pendingNotice_none (h : Notifies n c dst) (hi : Idle n (endpointP dst))
    (hs : srcNr ≠ hardwareNr) (hd : n.conf.dcNrSysprocs ≤ (n.proc (endpointP dst)).sId) :
    n.pendingNotice c srcNr dst upd = none := by
  obtain ⟨r, hr, -, hdc, hproc⟩ := h.idle_dst hi hs upd
  rw [if_pos hd] at hproc
  unfold pendingNotice
  rw [hr, Option.bind_some]
  refine received_laterReceive_none hdc ?_ (pendingBit_none ?_) ?_ <;> rw [hproc]
  exacts [hi.wokenup, hi.pending, hi.quiet]

end Local

/-! ### Two nodes -/

def noticeHdr (a : Node) (c srcNr dst upd : ℤ) : Hdr :=
  let p := a.proc (endpointP dst)
  let src := a.notifySource c srcNr
  { (a.proc c).rmtcmd with
    cmd := .ntfyMsg
    dcid := a.conf.dcid
    src := (a.proc c).endpoint
    dst := dst
    snode := a.conf.localNodeid
    dnode := p.nodeid
    rcode := if 0 ≤ upd ∧ upd < 32 then upd else -1
    len := 0
    msg := { (p.buildNotify false src.2 src.1).message with source := (a.proc c).endpoint } }

/-- The proxy `px` of node `a` serves the node of the destination and has nothing else to do. -/
structure Carries (a : Node) (c dst px : ℤ) : Prop where
  remote : (a.proc (endpointP dst)).rts.remote = true
  caller : (a.proc c).rts = Rts.running
  up : Cluster.ProxyUp a px (a.proc (endpointP dst)).nodeid
  serves : a.conf.nProxies (a.proc (endpointP dst)).nodeid = px
  empty : (a.sproxy px).list = []
  member : a.conf.nDcs (a.proc (endpointP dst)).nodeid a.conf.dcid = true

section Remote

variable {a b : Node} {c srcNr dst upd px px' : ℤ}

theorem nextHdr_notify (hl : (a.sproxy px).list = [c]) (hchk : a.get2rmtCheck px c = EMol.ok)
    (hrem : (a.proc c).rts.remote = false) (hcmd : (a.proc c).rmtcmd.cmd = .ntfyMsg)
    (hne : endpointP (a.proc c).rmtcmd.dst ≠ c)
    (hnode : (a.proc c).rmtcmd.dnode = (a.proc (endpointP (a.proc c).rmtcmd.dst)).nodeid) :
    a.nextHdr px = some { (a.proc c).rmtcmd with
      msg := { (a.proc c).rmtcmd.msg with source := (a.proc c).endpoint } } := by
  have hdeq : a.get2rmtDequeue px = some (a.unlink c, c, EMol.ok) := by
    simp [get2rmtDequeue, hl, hchk]
  have hp : ∀ i, (a.unlink c).proc i =
      { a.proc i with list := (a.proc i).list.filter (· ≠ c) } := fun _ => rfl
  simp only [nextHdr, hdeq, Option.bind_some, get2rmtSend, ne_eq, not_true, if_false, hp, hrem,
    Bool.false_eq_true, get2rmtSendRequest, hne, hnode, get2rmtRequest, modProc_same, hcmd,
    get2rmtClose_ok]
  simp [Proc.endSend, hcmd, hnode]

theorem buildNotify_message_congr {q : Proc} (hm : q.message = p.message)
    (hi : q.intPending = p.intPending) (hu : q.updtPending = p.updtPending) (self : Bool)
    (sEp sNr : ℤ) :
    (q.buildNotify self sEp sNr).message = (p.buildNotify self sEp sNr).message := by
  unfold Proc.buildNotify
  split_ifs <;> simp [hm, hi, hu]

theorem askRemote_up {cmd : Cmd} {ep rcode : ℤ} {msg : Message} (px : ℤ)
    (hf : (a.sproxy px).rts ≠ Rts.onlyFree)
    (hpx : a.conf.nProxies (a.proc (endpointP ep)).nodeid = px) :
    a.askRemote c cmd ep rcode msg =
      (a.modProc c fun p =>
        { p with
          rmtcmd := { p.rmtcmd with
            cmd := cmd, dcid := a.conf.dcid, src := p.endpoint, dst := ep
            snode := a.conf.localNodeid, dnode := (a.proc (endpointP ep)).nodeid
            rcode := rcode, len := 0, msg := msg }
          rts := { p.rts with sending := true, rmtoper := true }
          sendto := ep, proxy := px }).modSproxy px (·.enqueueCaller c) := by
  simp only [askRemote, sproxyEnqueue, modProc_same, modProc_conf, hpx, modProc_sproxy, hf, if_false]
  simp [modProc, modSproxy]

@[simp] theorem enqueueCaller_nodemap (sp : Proc) (x : ℤ) :
    (sp.enqueueCaller x).nodemap = sp.nodemap := by
  unfold Proc.enqueueCaller Proc.upIfReady
  dsimp only
  split_ifs <;> rfl

theorem Notifies.asks (h : Notifies a c dst) (hc : Carries a c dst px) (hs : srcNr ≠ hardwareNr)
    (upd : ℤ) :
    ∃ r, a.miniNotify c srcNr dst upd = some r ∧ r.1.conf = a.conf ∧
      (r.1.sproxy px).list = [c] ∧
      (r.1.sproxy px).nodemap = (a.sproxy px).nodemap ∧
      (r.1.proc c).rts = { sending := true, rmtoper := true } ∧
      (r.1.proc c).endpoint = (a.proc c).endpoint ∧
      (r.1.proc (endpointP dst)).nodeid = (a.proc (endpointP dst)).nodeid ∧
      (r.1.proc c).rmtcmd.dst = dst ∧
      { (r.1.proc c).rmtcmd with
        msg := { (r.1.proc c).rmtcmd.msg with source := (a.proc c).endpoint } } =
        a.noticeHdr c srcNr dst upd := by
  have hne := h.ne
  have hself : decide (endpointP dst = c) = false := by simpa using hne
  have hproxy : (a.modProc c fun p => { p with rcode := EMol.ok }).vcopyProxy
      (a.proc (endpointP dst)).nodeid = EMol.ok := by
    simp [vcopyProxy, hc.serves, hc.up.lpid, hc.up.bound, hc.up.proxy, hc.up.connected]
  have hsrc : (a.modProc c fun p => { p with rcode := EMol.ok }).notifySource c srcNr =
      a.notifySource c srcNr :=
    notifySource_congr fun i => modProc_endpoint c i fun _ => by rfl
  refine ⟨_, h.miniNotify hs, ?_⟩
  rw [if_pos hc.remote]
  unfold notifyRemote
  dsimp only
  rw [modProc_of_ne _ _ hne, hproxy, if_neg (not_not_intro rfl), hsrc, hself]
  -- only these facts about the node with the notification built are used
  generalize hm : ((a.modProc c fun p => { p with rcode := EMol.ok }).stopRemote c
    (endpointP dst)).modProc (endpointP dst)
      (·.buildNotify false (a.notifySource c srcNr).2 (a.notifySource c srcNr).1) = m
  have hconf : m.conf = a.conf := by rw [← hm]; rfl
  have hsp : m.sproxy = a.sproxy := by rw [← hm]; rfl
  have hpc : m.proc c = { a.proc c with rcode := EMol.ok } := by
    rw [← hm, modProc_of_ne _ _ hne.symm, stopRemote, modProc_of_ne _ _ hne.symm, modProc_same]
  have hnode : (m.proc (endpointP dst)).nodeid = (a.proc (endpointP dst)).nodeid := by
    rw [← hm, modProc_same, buildNotify_nodeid, stopRemote, modProc_same, modProc_of_ne _ _ hne]
  have hmsg : (m.proc (endpointP dst)).message = ((a.proc (endpointP dst)).buildNotify false
      (a.notifySource c srcNr).2 (a.notifySource c srcNr).1).message := by
    rw [← hm, modProc_same, stopRemote, modProc_same, modProc_of_ne _ _ hne]
    refine buildNotify_message_congr ?_ ?_ ?_ .. <;> rfl
  have hfor : timeoutForever ≠ timeoutNowait := by decide
  rw [askRemote_up px (by rw [hsp]; exact hc.up.sproxy_ne_free)
    (by rw [hnode, hconf, hc.serves]), sleepOr, if_neg hfor]
  simp [hconf, hsp, hpc, hnode, hmsg, hc.empty, hc.caller, Rts.running, Proc.fallAsleep, noticeHdr,
    hne]

theorem Notifies.hdr (h : Notifies a c dst) (hc : Carries a c dst px) (hs : srcNr ≠ hardwareNr) :
    a.notifyHdr c srcNr dst upd px = some (a.noticeHdr c srcNr dst upd) := by
  obtain ⟨r, hr, hconf, hl, hmap, hrts, hep, hnode, hdst, hhdr⟩ := h.asks hc hs upd
  have hcmd : (r.1.proc c).rmtcmd.cmd = .ntfyMsg := congrArg Hdr.cmd hhdr
  have hdn : (r.1.proc c).rmtcmd.dnode = (a.proc (endpointP dst)).nodeid := congrArg Hdr.dnode hhdr
  have hchk : r.1.get2rmtCheck px c = EMol.ok := by
    obtain ⟨hid, hfl⟩ := dcCheck_eq_ok.1 (sendEntry_dcCheck h.entry)
    simp [get2rmtCheck, hrts, hconf, hdn, hmap, hc.member, hc.up.nodemap, hid, hfl]
  unfold notifyHdr
  rw [hr, Option.bind_some, nextHdr_notify hl hchk (by rw [hrts]) hcmd (by rw [hdst]; exact h.ne)
    (by rw [hdst, hnode, hdn]), hep, hhdr]

end Remote

/-- The identifier of the source that `notify_rmt2lcl` reads off the type of the message. -/
def typeSid (b : Node) (h : Hdr) : ℤ :=
  endpointP (BitVec.ofInt 32 h.msg.type &&& ~~~ BitVec.ofInt 32 0x1000).toInt + b.conf.dcNrTasks

/-- Node `b` takes the notification of the header for a process that runs and has nothing to
receive. -/
structure Takes (b : Node) (px : ℤ) (h : Hdr) : Prop where
  cmd : h.cmd = .ntfyMsg
  admitted : Admitted b px h
  ne : endpointP h.src ≠ endpointP h.dst
  src : SrcReady b h
  dst : DstReady b h
  idle : Idle b (endpointP h.dst)

section Delivery

variable {b : Node} {px : ℤ} {h : Hdr}

section

variable (ht : Takes b px h)

include ht

theorem Takes.put2lcl :
    b.put2lcl px h (fun _ => 0) 0 =
      some (b.notifyRmt2lcl h (endpointP h.src) (endpointP h.dst) h.rcode 0) := by
  rw [put2lcl_eq_cmd ht.admitted ht.ne ht.src ht.dst]
  simp [put2lclCmd, ht.cmd]

theorem Takes.put2lcl_blocked :
    (b.blocked (endpointP h.dst)).put2lcl px h (fun _ => 0) 0 =
      some ((b.blocked (endpointP h.dst)).notifyRmt2lcl h (endpointP h.src) (endpointP h.dst)
        h.rcode 0) := by
  have hs : (b.blocked (endpointP h.dst)).proc (endpointP h.src) = b.proc (endpointP h.src) :=
    blocked_proc_of_ne b ht.ne
  obtain ⟨a1, a2, a3, a4, a5, a6, a7, a8, a9⟩ := ht.admitted
  obtain ⟨s1, s2, s3, s4, s5, s6⟩ := ht.src
  obtain ⟨d1, d2, d3, d4, d5⟩ := ht.dst
  have ha : Admitted (b.blocked (endpointP h.dst)) px h := ⟨a1, a2, a3, a4, a5, a6, a7, a8, a9⟩
  rw [put2lcl_eq_cmd ha ht.ne (by constructor <;> rwa [hs])
    (by constructor <;> rwa [blocked_proc_same])]
  simp [put2lclCmd, ht.cmd]

theorem Takes.direct (hsid : b.typeSid h < b.conf.dcNrSysprocs) :
    received (endpointP h.dst) (((b.blocked (endpointP h.dst)).put2lcl px h (fun _ => 0) 0).bind
      fun r => r.1.wokenReceive (endpointP h.dst)) = some h.msg.notice := by
  have hlt : ¬ (b.blocked (endpointP h.dst)).conf.dcNrSysprocs ≤
      (b.blocked (endpointP h.dst)).typeSid h := Int.not_le.2 hsid
  unfold typeSid at hlt
  rw [ht.put2lcl_blocked, Option.bind_some]
  unfold notifyRmt2lcl
  rw [if_neg hlt, if_pos (ht.idle.waitsFor _)]
  rw [received_wokenReceive] <;> rw [modProc_same, ht.idle.blocked]
  · rfl
  · rfl
  · show (0 : ℤ) ≤ -1 + 1
    decide

theorem Takes.direct_none (hsid : ¬ b.typeSid h < b.conf.dcNrSysprocs) :
    received (endpointP h.dst) (((b.blocked (endpointP h.dst)).put2lcl px h (fun _ => 0) 0).bind
      fun r => r.1.wokenReceive (endpointP h.dst)) = none := by
  have hle : (b.blocked (endpointP h.dst)).conf.dcNrSysprocs ≤
      (b.blocked (endpointP h.dst)).typeSid h := Int.not_lt.1 hsid
  unfold typeSid at hle
  have hsem : ¬ 0 ≤ ((b.blocked (endpointP h.dst)).proc (endpointP h.dst)).pseudosem := by
    rw [ht.idle.blocked]
    exact (by decide : ¬ (0 : ℤ) ≤ -1)
  rw [ht.put2lcl_blocked, Option.bind_some, notifyRmt2lcl, if_pos hle, wokenReceive, if_neg hsem]
  rfl

theorem Takes.kept (hsid : b.typeSid h < b.conf.dcNrSysprocs) :
    ∃ r, b.put2lcl px h (fun _ => 0) 0 = some r ∧ r.1.conf = b.conf ∧
      r.1.proc (endpointP h.dst) =
        { b.proc (endpointP h.dst) with
          misc := { (b.proc (endpointP h.dst)).misc with notify := true }
          notifyPending :=
            if 0 ≤ b.typeSid h then
              Function.update (b.proc (endpointP h.dst)).notifyPending (b.typeSid h).toNat true
            else (b.proc (endpointP h.dst)).notifyPending
          updtPending := setUpdate (b.proc (endpointP h.dst)).updtPending h.rcode } := by
  refine ⟨_, ht.put2lcl, ?_⟩
  have hw : ¬ (b.proc (endpointP h.dst)).waitsFor (b.proc (endpointP h.src)).endpoint := by
    rintro ⟨hr, _⟩
    rw [ht.idle.running] at hr
    exact absurd hr (by decide)
  have hlt : ¬ b.conf.dcNrSysprocs ≤ b.typeSid h := Int.not_le.2 hsid
  unfold typeSid at hlt
  unfold notifyRmt2lcl
  rw [if_neg hlt, if_neg hw]
  refine ⟨rfl, ?_⟩
  rw [modProc_same]
  rfl

theorem Takes.dcCheck {m : Node} (hm : m.conf = b.conf) (hid : b.conf.dcid = h.dcid) :
    m.dcCheck = EMol.ok := by
  rw [dcCheck_eq_ok, hm, hid]
  exact ⟨ht.admitted.dcid, ht.admitted.running⟩

theorem Takes.pending (hid : b.conf.dcid = h.dcid) (hsid : b.typeSid h = nr + b.conf.dcNrTasks)
    (h0 : 0 ≤ nr + b.conf.dcNrTasks) (h1 : nr + b.conf.dcNrTasks < b.conf.dcNrSysprocs)
    (hne : nr ≠ endpointP h.dst) (hnr : 0 ≤ nr) :
    received (endpointP h.dst) ((b.put2lcl px h (fun _ => 0) 0).bind
      fun r => r.1.laterReceive (endpointP h.dst)) =
        some (nr, notifyFrom nr, (b.proc (endpointP h.dst)).message.arg) := by
  obtain ⟨r, hr, hconf, hproc⟩ := ht.kept (by omega)
  rw [if_pos (by omega)] at hproc
  have harg : (r.1.proc (endpointP h.dst)).notifyArg nr =
      (b.proc (endpointP h.dst)).message.arg := by
    rw [Proc.notifyArg_of_nonneg _ hnr, hproc]
  rw [hr, Option.bind_some, received_laterReceive (ht.dcCheck hconf hid) ?_ ht.idle.pending ?_ ?_ ?_,
    if_neg hne, harg]
  · rw [hproc]
    exact ht.idle.wokenup
  · rw [hproc, hconf, hsid]
  · rwa [hconf]
  · rwa [hconf]

theorem Takes.pending_none (hid : b.conf.dcid = h.dcid) (hsid : b.typeSid h < 0)
    (hsys : 0 ≤ b.conf.dcNrSysprocs) :
    received (endpointP h.dst) ((b.put2lcl px h (fun _ => 0) 0).bind
      fun r => r.1.laterReceive (endpointP h.dst)) = none := by
  obtain ⟨r, hr, hconf, hproc⟩ := ht.kept (by omega)
  rw [if_neg (by omega)] at hproc
  rw [hr, Option.bind_some]
  refine received_laterReceive_none (ht.dcCheck hconf hid) ?_ (pendingBit_none ?_) ?_ <;> rw [hproc]
  exacts [ht.idle.wokenup, ht.idle.pending, ht.idle.quiet]

end

end Delivery

/-! ### When the four ways agree -/

theorem number_notifyFrom (h0 : 0 ≤ c) (h1 : c < nrSysProcs) :
    endpointP (BitVec.ofInt 32 (notifyFrom c) &&& ~~~ BitVec.ofInt 32 0x1000).toInt = c := by
  have hall : ∀ i : Fin 64, endpointP
      (BitVec.ofInt 32 (notifyFrom (i.val : ℤ)) &&& ~~~ BitVec.ofInt 32 0x1000).toInt = (i.val : ℤ) := by
    decide
  unfold nrSysProcs at h1
  have hc := hall ⟨c.toNat, by omega⟩
  rwa [show ((c.toNat : ℕ) : ℤ) = c by omega] at hc

theorem number_notifyFrom_neg (h0 : -nrTasks ≤ c) (h1 : c < 0) :
    endpointP (BitVec.ofInt 32 (notifyFrom c) &&& ~~~ BitVec.ofInt 32 0x1000).toInt < -nrTasks := by
  have hall : ∀ i : Fin 35, endpointP (BitVec.ofInt 32 (notifyFrom ((i.val : ℤ) - 35)) &&&
      ~~~ BitVec.ofInt 32 0x1000).toInt < -nrTasks := by
    decide
  unfold nrTasks at h0
  have hc := hall ⟨(c + 35).toNat, by omega⟩
  rwa [show (((c + 35).toNat : ℕ) : ℤ) - 35 = c by omega] at hc

/-- The same call on node `n` with both processes, and on node `a` with the destination on node `b`,
which is not waiting and has no other notification. -/
structure Settings (n a b : Node) (c srcNr dst upd px px' : ℤ) : Prop where
  one : Notifies n c dst
  idle : Idle n (endpointP dst)
  caller : n.conf.inRange c
  numbered : ∀ i, n.conf.inRange i → endpointP (n.proc i).endpoint = i
  nrTasks : n.conf.dcNrTasks ≤ nrTasks
  tasks_nonneg : 0 ≤ n.conf.dcNrTasks
  nrSysprocs : n.conf.dcNrSysprocs ≤ nrSysProcs
  away : Notifies a c dst
  carries : Carries a c dst px
  endpoint : ∀ i, (a.proc i).endpoint = (n.proc i).endpoint
  takes : Takes b px' (a.noticeHdr c srcNr dst upd)
  dcid : b.conf.dcid = a.conf.dcid
  tasks : b.conf.dcNrTasks = n.conf.dcNrTasks
  sysprocs : b.conf.dcNrSysprocs = n.conf.dcNrSysprocs
  message : (b.proc (endpointP dst)).message = (n.proc (endpointP dst)).message

section Agreement

variable {n a b : Node} {c srcNr dst upd px px' : ℤ}

theorem noticeHdr_notice (a : Node) (c srcNr dst upd : ℤ) :
    (a.noticeHdr c srcNr dst upd).msg.notice =
    ((a.proc c).endpoint, notifyFrom (a.notifySource c srcNr).1,
      (a.proc (endpointP dst)).notifyArg (a.notifySource c srcNr).1) := by
  have h := (a.proc (endpointP dst)).buildNotify_notice false (a.notifySource c srcNr).2
    (a.notifySource c srcNr).1
  simp only [Message.notice, Prod.mk.injEq] at h
  simp only [Message.notice, noticeHdr, h.2.1, h.2.2]

theorem notifyHdr_hardware (hc : Carries a c dst px) : a.notifyHdr c hardwareNr dst upd px = none := by
  have hsame : (a.hdwNotify dst).1 = a := by
    simp only [hdwNotify, hc.remote, if_true, apply_ite Prod.fst, ite_self]
  simp [notifyHdr, miniNotify, hsame, nextHdr, get2rmtDequeue, hc.empty]

section

variable (h : Settings n a b c srcNr dst upd px px')

include h

theorem Settings.notifySource :
    a.notifySource c srcNr = n.notifySource c srcNr := notifySource_congr h.endpoint

theorem Settings.typeSid (hnr : (n.notifySource c srcNr).1 = c) :
    b.typeSid (a.noticeHdr c srcNr dst upd) =
      endpointP (BitVec.ofInt 32 (notifyFrom c) &&& ~~~ BitVec.ofInt 32 0x1000).toInt +
        n.conf.dcNrTasks := by
  have htype : (a.noticeHdr c srcNr dst upd).msg.type = notifyFrom c := by
    have ht := congrArg (fun m => m.2.1) (noticeHdr_notice a c srcNr dst upd)
    rwa [h.notifySource, hnr] at ht
  rw [Node.typeSid, htype, h.tasks]

theorem Settings.lt (hid : (n.proc c).sId = c + n.conf.dcNrTasks) : c < nrSysProcs := by
  have h2 := h.one.priv
  have h4 := h.nrSysprocs
  have h5 := h.tasks_nonneg
  omega

theorem Settings.directNoticeRmt_source (hs : srcNr ≠ hardwareNr) {m : ℤ × ℤ × ℤ}
    (hm : directNoticeRmt a b c srcNr dst upd px px' = some m) : m.1 = (n.proc c).endpoint := by
  unfold directNoticeRmt at hm
  rw [h.away.hdr h.carries hs, Option.bind_some] at hm
  by_cases hsid : b.typeSid (a.noticeHdr c srcNr dst upd) < b.conf.dcNrSysprocs
  · have heq := (h.takes.direct hsid).symm.trans hm
    rw [noticeHdr_notice, h.endpoint] at heq
    rw [← Option.some.inj heq]
  · exact nomatch (h.takes.direct_none hsid).symm.trans hm

section Own

variable (hs : srcNr ≠ hardwareNr) (hnr : (n.notifySource c srcNr).1 = c) (h0 : 0 ≤ c)
  (hid : (n.proc c).sId = c + n.conf.dcNrTasks)

include hs hnr h0 hid

theorem Settings.directNoticeRmt_eq :
    directNoticeRmt a b c srcNr dst upd px px' =
      some ((n.proc c).endpoint, notifyFrom c, (a.proc (endpointP dst)).notifyArg c) := by
  have hsid : b.typeSid (a.noticeHdr c srcNr dst upd) < b.conf.dcNrSysprocs := by
    rw [h.typeSid hnr, h.sysprocs, number_notifyFrom h0 (h.lt hid), ← hid]
    exact h.one.priv
  unfold directNoticeRmt
  rw [h.away.hdr h.carries hs, Option.bind_some]
  refine (h.takes.direct hsid).trans ?_
  rw [noticeHdr_notice, h.notifySource, hnr, h.endpoint]

theorem Settings.pendingNoticeRmt_eq :
    pendingNoticeRmt a b c srcNr dst upd px px' =
      some (c, notifyFrom c, (n.proc (endpointP dst)).message.arg) := by
  have hsid := h.typeSid hnr
  rw [number_notifyFrom h0 (h.lt hid), ← h.tasks] at hsid
  unfold pendingNoticeRmt
  rw [h.away.hdr h.carries hs, Option.bind_some]
  refine (h.takes.pending h.dcid hsid ?_ ?_ h.one.ne.symm h0).trans ?_
  · rw [h.tasks, ← hid]
    exact h.one.bit
  · rw [h.tasks, h.sysprocs, ← hid]
    exact h.one.priv
  · show some (c, notifyFrom c, (b.proc (endpointP dst)).message.arg) = _
    rw [h.message]

end Own

theorem Settings.pendingNoticeRmt_none (hs : srcNr ≠ hardwareNr)
    (hnr : (n.notifySource c srcNr).1 = c) (h0 : c < 0) :
    pendingNoticeRmt a b c srcNr dst upd px px' = none := by
  have h1 := h.one.bit
  have h2 := h.one.priv
  have h3 := h.nrTasks
  have h4 := h.caller.1
  have hsid := h.typeSid hnr
  have hneg := number_notifyFrom_neg (c := c) (by omega) h0
  unfold pendingNoticeRmt
  rw [h.away.hdr h.carries hs, Option.bind_some]
  refine h.takes.pending_none h.dcid (by omega) ?_
  rw [h.sysprocs]
  omega

theorem Settings.source (hsrc : srcNr = selfEp ∨ n.conf.inRange srcNr)
    (he : (n.notifySource c srcNr).2 = (n.proc c).endpoint) : srcNr = selfEp ∨ srcNr = c := by
  unfold Node.notifySource at he
  split_ifs at he with hself
  · exact .inl hself
  · have hnum := h.numbered srcNr (hsrc.resolve_left hself)
    change (n.proc srcNr).endpoint = _ at he
    rw [he, h.numbered c h.caller] at hnum
    exact .inr hnum.symm

/-- The number that a pending notification is decoded to is the caller's, if the message names the
caller. -/
theorem Settings.decoded (h0 : 0 ≤ c) (hnr : (n.proc c).sId = nr + n.conf.dcNrTasks)
    (he : (if nr = endpointP dst then hardwareNr else nr) = (n.proc c).endpoint) : nr = c := by
  have hc := h.numbered c h.caller
  have h1 := h.one.bit
  have h2 := h.one.priv
  have h3 := h.nrTasks
  have h4 := h.nrSysprocs
  have h5 := h.tasks_nonneg
  split_ifs at he
  · rw [← he] at hc
    have : endpointP hardwareNr < 0 := by decide
    omega
  · rw [← he] at hc
    rw [← hc]
    refine (endpointP_of_lt (by omega) ?_).symm
    unfold selfEp
    unfold nrSysProcs at h4
    omega

end

end Agreement

/-! ### The sample DC -/

/-- The process `c` and the server 6 as node `k` knows them when they run on the nodes `i` and `j`;
every other slot is free and has its number as its endpoint. -/
def twoProcs (c k i j : ℤ) : Node where
  conf := Conf.sample k
  proc := fun nr =>
    if nr = c then { Proc.sample i c { remote := decide (i ≠ k) } with sId := c + 35 }
    else if nr = 6 then { Proc.sample j 6 { remote := decide (j ≠ k) } with sId := 41 }
    else { endpoint := nr }
  sproxy := Proc.sampleProxy
  rproxy := Proc.sampleProxy

theorem twoProcs_endpoint (c k i j nr : ℤ) : ((twoProcs c k i j).proc nr).endpoint = nr := by
  unfold twoProcs
  dsimp only
  split_ifs with h1 h2
  exacts [h1.symm, h2.symm, rfl]

theorem twoProcs_settings (srcNr upd : ℤ) :
    Settings (twoProcs 5 0 0 0) (twoProcs 5 0 0 1) (twoProcs 5 1 0 1) 5 srcNr 6 upd 1 0 where
  one := ⟨by decide, by decide, by decide, by decide, by decide⟩
  idle := ⟨rfl, rfl, rfl, fun _ => rfl⟩
  caller := by decide
  numbered := by
    intro i hi
    have h1 : -35 ≤ i := hi.1
    have h2 : i < 221 := hi.2
    rw [twoProcs_endpoint]
    exact endpointP_of_lt h1 (by unfold selfEp; omega)
  nrTasks := by decide
  tasks_nonneg := by decide
  nrSysprocs := by decide
  away := ⟨by decide, by decide, by decide, by decide, by decide⟩
  carries := ⟨rfl, rfl, ⟨by decide, rfl, rfl, rfl, rfl, rfl, rfl, rfl⟩, rfl, rfl, rfl⟩
  endpoint := fun i => by rw [twoProcs_endpoint, twoProcs_endpoint]
  takes := by
    have hid : (0 : ℤ) ≤ 0 ∧ (0 : ℤ) < 4 := by decide
    have h5 : (Conf.sample 1).inRange (endpointP 5) := by decide
    have h6 : (Conf.sample 1).inRange (endpointP 6) := by decide
    have hne : endpointP 5 ≠ endpointP 6 := by decide
    exact ⟨rfl, ⟨rfl, rfl, rfl, hid, rfl, h5, h6, rfl, rfl⟩, hne, ⟨rfl, rfl, rfl, rfl, rfl, rfl⟩,
      ⟨rfl, rfl, rfl, rfl, rfl⟩, ⟨rfl, rfl, rfl, fun _ => rfl⟩⟩
  dcid := rfl
  tasks := rfl
  sysprocs := rfl
  message := rfl

end Node

end MolIpc
