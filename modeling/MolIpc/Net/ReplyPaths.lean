import MolIpc.Net.NotifyPaths

/-!
A reply to a process of this node and to a process of another node.

Here `mm_mini_reply` looks itself whether the destination waits for this very caller. For another
node it sends a command that `mm_put2lcl` handles like an ordinary message: a destination that
receives from anybody takes it, and one that does not wait gets it in its queue, with the caller
asleep.
-/

namespace MolIpc

/-- The process waits for a message of `ep` and of nobody else. -/
def Proc.waitsExactly (p : Proc) (ep : ℤ) : Prop :=
  p.rts.receiving = true ∧ p.rts.sending = false ∧ p.getfrom = ep

instance (p : Proc) (ep : ℤ) : Decidable (p.waitsExactly ep) := by
  unfold Proc.waitsExactly; infer_instance

namespace Node

/-! ### The two ways -/

/-- One turn of the sender proxy `px`: the node after it, and the header. -/
def nextSent (n : Node) (px : ℤ) : Option (Node × Hdr) :=
  (n.get2rmtDequeue px).bind fun r =>
    (r.1.get2rmtSend r.2.1 r.2.2 (fun _ => 0) 0).bind fun o =>
      match o.2.2 with
      | .hdr h => some (o.1, h)
      | _ => none

def code : Option (Node × Next) → Option ℤ
  | some (_, .ret code) => some code
  | _ => none

/-- A reply of `c` to `dst` on one node: its result, and the node after it. -/
def replyHere (n : Node) (c dst : ℤ) (m : Message) (timeout : ℤ) : Option ℤ × Option Node :=
  (code (n.call c (.reply dst) m timeout 0), (n.call c (.reply dst) m timeout 0).map (·.1))

/-- The caller `c` sleeps until node `b` answers by its proxy `pb` to the proxy `pa` of node `a`. -/
def replyAnswer (a b : Node) (c dst pa pb : ℤ) : Option ℤ :=
  (b.nextSent pb).bind fun r =>
    (a.put2lcl pa r.2 (fun _ => 0) 0).bind fun o =>
      if 0 ≤ (o.1.proc c).pseudosem then
        code (o.1.wake c (.reply dst) .remote timeoutForever 1 0)
      else none

/-- A reply of `c` on node `a` to `dst` on node `b` over the proxies: its result, if there is one,
and node `b` after the command has been handled. -/
def replyOver (a b : Node) (c dst : ℤ) (m : Message) (pa pb : ℤ) : Option ℤ × Option Node :=
  match a.call c (.reply dst) m timeoutForever 0 with
  | some (a₁, .sleep _ _) =>
    match a₁.nextSent pa with
    | some (a₂, h) =>
      match b.put2lcl pb h (fun _ => 0) 0 with
      | some (b₁, _) => (replyAnswer a₂ b₁ c dst pa pb, some b₁)
      | none => (none, none)
    | none => (none, some b)
  | r => (code r, some b)

/-- What a reply is to do with the destination `q`, for the result and the descriptor `q'` after
it. -/
def RepliesRight (m : Message) (waits : Prop) (q : Proc) (code : Option ℤ) (q' : Option Proc) :
    Prop :=
  (waits → code = some EMol.ok ∧ q' = some (q.deliver m)) ∧
    (¬ waits → (∃ e < 0, code = some e) ∧ q' = some q)

structure Near (n : Node) (c dst : ℤ) : Prop where
  entry : n.sendEntry c dst = EMol.ok
  ne : endpointP dst ≠ c
  settled : n.sendDst dst EMol.dstdied = .ok
  isLocal : (n.proc (endpointP dst)).rts.remote = false

/-- `c` of node `a` may reply to `dst` of node `b`: each node knows the process of the other, and has
an idle proxy pair. -/
structure Far (a b : Node) (c dst pa pb : ℤ) : Prop where
  entry : a.sendEntry c dst = EMol.ok
  ne : endpointP dst ≠ c
  settled : a.sendDst dst EMol.dstdied = .ok
  carries : Carries a c dst pa
  number : endpointP (a.proc c).endpoint = c
  home : (a.proc c).nodeid = a.conf.localNodeid
  bound : (a.proc (endpointP dst)).rts.slotFree = false
  known : (a.proc (endpointP dst)).endpoint = dst
  range : a.conf.inRange c ∧ a.conf.inRange (endpointP dst)
  nodes : a.conf.dcNodes (a.proc (endpointP dst)).nodeid = true
  place : b.conf.localNodeid = (a.proc (endpointP dst)).nodeid
  dcid : b.conf.dcid = a.conf.dcid
  dc : b.dcCheck = EMol.ok
  up : Cluster.ProxyUp b pb a.conf.localNodeid
  serves : b.conf.nProxies a.conf.localNodeid = pb
  empty : (b.sproxy pb).list = []
  member : b.conf.nDcs a.conf.localNodeid b.conf.dcid = true ∧
    b.conf.dcNodes a.conf.localNodeid = true
  rangeB : b.conf.inRange c ∧ b.conf.inRange (endpointP dst)
  caller : (b.proc c).rts.remote = true ∧ (b.proc c).rts.slotFree = false ∧
    (b.proc c).rts.migrate = false
  callerEp : (b.proc c).endpoint = (a.proc c).endpoint
  callerNode : (b.proc c).nodeid = a.conf.localNodeid
  server : (b.proc (endpointP dst)).rts.remote = false ∧
    (b.proc (endpointP dst)).rts.slotFree = false ∧ (b.proc (endpointP dst)).rts.migrate = false
  serverEp : (b.proc (endpointP dst)).endpoint = dst
  serverNode : (b.proc (endpointP dst)).nodeid = b.conf.localNodeid

def replied (n : Node) (c : ℤ) (m : Message) : Message := { m with source := (n.proc c).endpoint }

/-! ### One node -/

section Here

variable {n : Node} {c dst : ℤ}

theorem sendDst_congr {n n' : Node} {ep died : ℤ} (hc : n'.conf = n.conf)
    (hp : n'.proc (endpointP ep) = n.proc (endpointP ep)) : n'.sendDst ep died = n.sendDst ep died := by
  unfold sendDst
  rw [hc, hp]

def asks (n : Node) (c : ℤ) (m : Message) : Node :=
  (n.modProc c fun p => { p with ubuf := m }).modProc c fun p => { p with rcode := EMol.ok }

theorem asks_proc_same (m : Message) :
    (n.asks c m).proc c = { n.proc c with ubuf := m, rcode := EMol.ok } := by
  simp [asks]

theorem asks_proc_of_ne (m : Message) {q : ℤ} (hq : q ≠ c) : (n.asks c m).proc q = n.proc q := by
  simp [asks, hq]

theorem call_reply (hentry : n.sendEntry c dst = EMol.ok) (hne : endpointP dst ≠ c)
    (hdst : n.sendDst dst EMol.dstdied = .ok) (m : Message) (timeout : ℤ) :
    n.call c (.reply dst) m timeout 0 =
      if (n.proc (endpointP dst)).rts.remote then some ((n.asks c m).replyRemote c dst timeout 0)
      else some ((n.asks c m).replyLocal c dst 0) := by
  have hd : (n.modProc c fun p => { p with ubuf := m }).sendDst dst EMol.dstdied = .ok := by
    rw [← hdst]
    exact sendDst_congr rfl (modProc_of_ne _ _ hne)
  change n.miniReply c dst m timeout 0 = _
  unfold miniReply
  rw [if_neg (not_not_intro hentry), if_neg hne]
  unfold replyReplay
  rw [hd]
  change (if ((n.asks c m).proc (endpointP dst)).rts.remote = true then _ else _) = _
  rw [asks_proc_of_ne m hne]
  rfl

theorem repliesRight_here (h : Near n c dst) (m : Message) (timeout : ℤ) :
    RepliesRight (n.replied c m) ((n.proc (endpointP dst)).waitsExactly (n.proc c).endpoint)
      (n.proc (endpointP dst)) (n.replyHere c dst m timeout).1
      ((n.replyHere c dst m timeout).2.map (·.proc (endpointP dst))) := by
  have hcall := call_reply h.entry h.ne h.settled m timeout
  rw [h.isLocal, if_neg Bool.false_ne_true] at hcall
  have hep : ((n.asks c m).proc c).endpoint = (n.proc c).endpoint := by rw [asks_proc_same]
  have hmsg : (n.asks c m).sentBy c = n.replied c m := by
    simp only [sentBy, asks_proc_same, replied]
  unfold replyHere
  rw [hcall]
  unfold replyLocal
  dsimp only
  rw [asks_proc_of_ne m h.ne, hep, hmsg]
  constructor
  · rintro ⟨h1, h2, h3⟩
    rw [if_pos ⟨h1, by simp [h2], h3⟩, if_neg (not_not_intro rfl)]
    refine ⟨rfl, ?_⟩
    simp [asks_proc_of_ne m h.ne]
  · intro hw
    rw [if_neg fun h' => hw ⟨h'.1, by simpa using h'.2.1, h'.2.2⟩]
    refine ⟨⟨EMol.procsts, by decide, rfl⟩, ?_⟩
    simp [asks_proc_of_ne m h.ne]

end Here

/-! ### Two nodes -/

def replyHdr (a : Node) (c dst : ℤ) (m : Message) : Hdr :=
  { (a.proc c).rmtcmd with
    cmd := .replyMsg, dcid := a.conf.dcid, src := (a.proc c).endpoint, dst := dst
    snode := a.conf.localNodeid, dnode := (a.proc (endpointP dst)).nodeid
    rcode := EMol.ok, len := 0, msg := a.replied c m }

section Over

variable {a b : Node} {c dst pa pb : ℤ}

theorem Far.asks (h : Far a b c dst pa pb) (m : Message) :
    ∃ a₁, a.call c (.reply dst) m timeoutForever 0 = some (a₁, .sleep (.reply dst) .remote) ∧
      a₁.conf = a.conf ∧ a₁.rproxy = a.rproxy ∧ (a₁.sproxy pa).list = [c] ∧
      (a₁.sproxy pa).nodemap = (a.sproxy pa).nodemap ∧
      a₁.proc c = { a.proc c with
        ubuf := m, rcode := EMol.ok, pseudosem := -1, sendto := dst, proxy := pa
        rts := { sending := true, rmtoper := true }
        rmtcmd := { a.replyHdr c dst m with msg := m } } ∧
      ∃ g, a₁.proc (endpointP dst) = { a.proc (endpointP dst) with
        rts := { (a.proc (endpointP dst)).rts with receiving := false }, getfrom := g } := by
  have hne := h.ne
  have hcall := call_reply h.entry hne h.settled m timeoutForever
  rw [h.carries.remote, if_pos rfl] at hcall
  have hproxy : (a.asks c m).vcopyProxy (a.proc (endpointP dst)).nodeid = EMol.ok := by
    have hc := h.carries
    change a.vcopyProxy _ = _
    simp [vcopyProxy, hc.serves, hc.up.lpid, hc.up.bound, hc.up.proxy, hc.up.connected]
  unfold replyRemote at hcall
  rw [asks_proc_of_ne m hne, hproxy, if_neg (not_not_intro rfl)] at hcall
  generalize hu : (a.asks c m).stopRemote c (endpointP dst) = u at hcall
  have hconf : u.conf = a.conf := by rw [← hu]; rfl
  have hrp : u.rproxy = a.rproxy := by rw [← hu]; rfl
  have hsp : u.sproxy = a.sproxy := by rw [← hu]; rfl
  have hpc : u.proc c = { a.proc c with ubuf := m, rcode := EMol.ok } := by
    rw [← hu, stopRemote, modProc_of_ne _ _ hne.symm, asks_proc_same]
  have hpd : u.proc (endpointP dst) = { a.proc (endpointP dst) with
      rts := { (a.proc (endpointP dst)).rts with receiving := false }
      getfrom := if (a.proc (endpointP dst)).getfrom = ((a.asks c m).proc c).endpoint then noneEp
        else (a.proc (endpointP dst)).getfrom } := by
    rw [← hu, stopRemote, modProc_same, asks_proc_of_ne m hne]
  rw [askRemote_up pa (by rw [hsp]; exact h.carries.up.sproxy_ne_free)
    (by rw [hpd, hconf, h.carries.serves]), sleepOr,
    if_neg (by decide : timeoutForever ≠ timeoutNowait)] at hcall
  refine ⟨_, hcall, ?_⟩
  simp [hconf, hsp, hrp, hpc, hpd, h.carries.empty, h.carries.caller, Rts.running,
    Proc.fallAsleep, replyHdr, hne, handed, asks_proc_same]

def messageOut (n : Node) (c : ℤ) : Node :=
  (n.unlink c).modProc c fun p => { p with
    rts := { p.rts with rmtoper := false }, proxy := noneEp
    rmtcmd := { p.rmtcmd with cmd := .none, msg := { p.rmtcmd.msg with source := p.endpoint } } }

theorem nextSent_reply (hl : (a.sproxy pa).list = [c]) (hchk : a.get2rmtCheck pa c = EMol.ok)
    (hrem : (a.proc c).rts.remote = false) (hcmd : (a.proc c).rmtcmd.cmd = .replyMsg)
    (hne : endpointP (a.proc c).rmtcmd.dst ≠ c)
    (hnode : (a.proc c).rmtcmd.dnode = (a.proc (endpointP (a.proc c).rmtcmd.dst)).nodeid) :
    a.nextSent pa = some (a.messageOut c, { (a.proc c).rmtcmd with
      msg := { (a.proc c).rmtcmd.msg with source := (a.proc c).endpoint } }) := by
  have hdeq : a.get2rmtDequeue pa = some (a.unlink c, c, EMol.ok) := by
    simp [get2rmtDequeue, hl, hchk]
  have hp : ∀ i, (a.unlink c).proc i =
      { a.proc i with list := (a.proc i).list.filter (· ≠ c) } := fun _ => rfl
  simp only [nextSent, hdeq, Option.bind_some, get2rmtSend, ne_eq, not_true, if_false, hp, hrem,
    Bool.false_eq_true, get2rmtSendRequest, hne, hnode, get2rmtRequest, modProc_same, hcmd,
    get2rmtClose_ok]
  simp [hcmd, hnode, messageOut, get2rmtDone, modProc, hp]

/-- Node `a` after its proxy has taken the command, as `a₂`: the caller `c` sleeps. -/
structure Sent (a a₂ : Node) (c dst : ℤ) : Prop where
  conf : a₂.conf = a.conf
  rproxy : a₂.rproxy = a.rproxy
  rts : (a₂.proc c).rts = { sending := true }
  sendto : (a₂.proc c).sendto = dst
  endpoint : (a₂.proc c).endpoint = (a.proc c).endpoint
  nodeid : (a₂.proc c).nodeid = (a.proc c).nodeid
  sem : (a₂.proc c).pseudosem = -1
  dstRts : (a₂.proc (endpointP dst)).rts = { (a.proc (endpointP dst)).rts with receiving := false }
  dstEp : (a₂.proc (endpointP dst)).endpoint = (a.proc (endpointP dst)).endpoint
  dstNode : (a₂.proc (endpointP dst)).nodeid = (a.proc (endpointP dst)).nodeid

theorem Far.sent (h : Far a b c dst pa pb) (m : Message) :
    ∃ a₁ a₂, a.call c (.reply dst) m timeoutForever 0 = some (a₁, .sleep (.reply dst) .remote) ∧
      a₁.nextSent pa = some (a₂, a.replyHdr c dst m) ∧ Sent a a₂ c dst := by
  obtain ⟨a₁, hcall, hconf, hrp, hl, hmap, hpc, g, hpd⟩ := h.asks m
  have hne := h.ne
  have hchk : a₁.get2rmtCheck pa c = EMol.ok := by
    obtain ⟨hid, hfl⟩ := dcCheck_eq_ok.1 (sendEntry_dcCheck h.entry)
    simp [get2rmtCheck, hpc, hconf, hmap, h.carries.member, h.carries.up.nodemap, hid, hfl,
      replyHdr]
  have hsent := nextSent_reply hl hchk (by rw [hpc]) (by rw [hpc]; rfl)
    (by rw [hpc]; exact hne) (by rw [hpc, replyHdr]; dsimp only; rw [hpd])
  have hhdr : { (a₁.proc c).rmtcmd with
      msg := { (a₁.proc c).rmtcmd.msg with source := (a₁.proc c).endpoint } } =
      a.replyHdr c dst m := by
    rw [hpc]
    rfl
  rw [hhdr] at hsent
  have hpc' : (a₁.unlink c).proc c = { a₁.proc c with
      list := (a₁.proc c).list.filter (· ≠ c) } := rfl
  have hpd' : (a₁.unlink c).proc (endpointP dst) = { a₁.proc (endpointP dst) with
      list := (a₁.proc (endpointP dst)).list.filter (· ≠ c) } := rfl
  refine ⟨a₁, _, hcall, hsent, hconf, hrp, ?_, ?_, ?_, ?_, ?_, ?_, ?_, ?_⟩
  all_goals simp [messageOut, hpc', hpd', hpc, hpd, hne]

theorem Far.put2lcl (h : Far a b c dst pa pb) (m : Message) :
    b.put2lcl pb (a.replyHdr c dst m) (fun _ => 0) 0 =
      if (b.proc c).Unused then some (b.sendRmt2lcl (a.replyHdr c dst m) c (endpointP dst) 0)
      else some (b, EMol.enqueued) := by
  have hsrc : endpointP (a.replyHdr c dst m).src = c := h.number
  have hdst : endpointP (a.replyHdr c dst m).dst = endpointP dst := rfl
  obtain ⟨hid, hfl⟩ := dcCheck_eq_ok.1 h.dc
  obtain ⟨c1, c2, -⟩ := h.caller
  obtain ⟨s1, s2, s3⟩ := h.server
  have hne : endpointP (a.replyHdr c dst m).src ≠ endpointP (a.replyHdr c dst m).dst := by
    rw [hsrc, hdst]
    exact h.ne.symm
  have ha : Admitted b pb (a.replyHdr c dst m) := by
    refine ⟨h.up.rbound, h.up.rproxy, h.up.rconnected, ?_, hfl, ?_, ?_, h.member.2, h.place.symm⟩
    · change 0 ≤ a.conf.dcid ∧ a.conf.dcid < _
      rw [← h.dcid]
      exact hid
    · rw [hsrc]
      exact h.rangeB.1
    · exact h.rangeB.2
  by_cases hu : (b.proc c).Unused
  swap
  · rw [if_neg hu]
    refine put2lcl_busy ?_ ?_ ?_ ?_ ?_ ha hne <;> rw [hsrc]
    exacts [c1, c2, h.callerEp, h.callerNode, hu]
  have hs : SrcReady b (a.replyHdr c dst m) := by
    constructor <;> rw [hsrc]
    exacts [c1, c2, h.callerEp, h.callerNode, hu.1, hu.2]
  have hd : DstReady b (a.replyHdr c dst m) := ⟨s1, s2, h.serverEp, s3, h.serverNode⟩
  rw [if_pos hu, put2lcl_eq_cmd ha hne hs hd, put2lclCmd, hsrc]
  rfl

/-- Node `b` after it has handled the command, as `b₁`, with an acknowledge for the caller. -/
structure Acked (a b b₁ : Node) (c dst pb : ℤ) : Prop where
  conf : b₁.conf = b.conf
  list : (b₁.sproxy pb).list = [c]
  nodemap : (b₁.sproxy pb).nodemap = (b.sproxy pb).nodemap
  rts : (b₁.proc c).rts = { (b.proc c).rts with rmtoper := true }
  rmtcmd : (b₁.proc c).rmtcmd = { (b.proc c).rmtcmd with
    cmd := .sendAck, dcid := b.conf.dcid, src := dst, dst := (a.proc c).endpoint
    snode := b.conf.localNodeid, dnode := a.conf.localNodeid, len := 0, rcode := EMol.ok }

section

variable (h : Far a b c dst pa pb)

include h

theorem Far.taken (m : Message) (hw : (b.proc (endpointP dst)).waitsFor (a.proc c).endpoint) :
    ∃ b₁ r, b.sendRmt2lcl (a.replyHdr c dst m) c (endpointP dst) 0 = (b₁, r) ∧
      b₁.proc (endpointP dst) = (b.proc (endpointP dst)).deliver (a.replied c m) ∧
      Acked a b b₁ c dst pb := by
  have hne := h.ne
  have hcmd : ¬ (a.replyHdr c dst m).cmd = Cmd.sndrecMsg := by
    simp [replyHdr]
  unfold sendRmt2lcl
  rw [h.callerEp, if_pos hw, if_neg (not_not_intro rfl)]
  dsimp only
  rw [if_neg hcmd]
  refine ⟨_, _, rfl, ?_, ?_, ?_, ?_, ?_, ?_⟩
  all_goals simp [genericAckLcl2rmt, sproxyEnqueue, hne, hne.symm, h.serves, h.up.sproxy_ne_free, h.empty,
    h.callerEp, h.callerNode, h.serverEp, Proc.deliver, replyHdr]

theorem Far.answered {a₂ b₁ : Node} (hs : Sent a a₂ c dst) (ht : Acked a b b₁ c dst pb) :
    replyAnswer a₂ b₁ c dst pa pb =
      if (a.proc (endpointP dst)).Unused then some EMol.ok else none := by
  obtain ⟨hac, har, hrts, hto, hep, hnode, hsem, hdrts, hdep, hdnode⟩ := hs
  obtain ⟨hbc, hl, hmap, hbrts, hcmd⟩ := ht
  obtain ⟨hid, hfl⟩ := dcCheck_eq_ok.1 h.dc
  obtain ⟨hida, hfla⟩ := dcCheck_eq_ok.1 (sendEntry_dcCheck h.entry)
  obtain ⟨c1, c2, c5⟩ := h.caller
  -- the proxy of node `b` gives out the acknowledge
  have hchk : b₁.get2rmtCheck pb c = EMol.ok := by
    simp [get2rmtCheck, hbrts, hcmd, hbc, hmap, c2, c5, h.member.1, hid, hfl, h.up.nodemap]
  have hdeq : b₁.get2rmtDequeue pb = some (b₁.unlink c, c, EMol.ok) := by
    simp [get2rmtDequeue, hl, hchk]
  have hp : (b₁.unlink c).proc c = { b₁.proc c with
      list := (b₁.proc c).list.filter (· ≠ c) } := rfl
  have hsent : ∃ u, b₁.nextSent pb = some (u, (b₁.proc c).rmtcmd) := by
    simp only [nextSent, hdeq, Option.bind_some, get2rmtSend, ne_eq, not_true, if_false, hp, hbrts,
      c1, if_true, get2rmtSendAck, get2rmtAck, hcmd, Option.map_some, get2rmtClose_ok, modProc_same]
    exact ⟨_, rfl⟩
  obtain ⟨u, hu⟩ := hsent
  -- node `a` takes it
  generalize hk : (b₁.proc c).rmtcmd = k at hu
  rw [hk] at hcmd
  have ks : k.src = dst := by rw [hcmd]
  have kd : k.dst = (a.proc c).endpoint := by rw [hcmd]
  have hadm : Admitted a₂ pa k := by
    refine ⟨?_, ?_, ?_, ?_, ?_, ?_, ?_, ?_, ?_⟩
    · rw [har]; exact h.carries.up.rbound
    · rw [har]; exact h.carries.up.rproxy
    · rw [har]; exact h.carries.up.rconnected
    · rw [hcmd, hac]; dsimp only; rw [h.dcid]; exact hida
    · rw [hac]; exact hfla
    · rw [ks, hac]; exact h.range.2
    · rw [kd, hac, h.number]; exact h.range.1
    · rw [hcmd, hac]; dsimp only; rw [h.place]; exact h.nodes
    · rw [hcmd, hac]
  have hne : endpointP k.src ≠ endpointP k.dst := by
    rw [ks, kd, h.number]
    exact h.ne
  have kremote : (a₂.proc (endpointP k.src)).rts.remote = true := by
    rw [ks, hdrts]
    exact h.carries.remote
  have kbound : (a₂.proc (endpointP k.src)).rts.slotFree = false := by
    rw [ks, hdrts]
    exact h.bound
  have kep : (a₂.proc (endpointP k.src)).endpoint = k.src := by
    rw [ks, hdep]
    exact h.known
  have knode : (a₂.proc (endpointP k.src)).nodeid = k.snode := by
    rw [ks, hdnode, hcmd]
    exact h.place.symm
  have kunused : (a₂.proc (endpointP k.src)).Unused ↔ (a.proc (endpointP dst)).Unused := by
    rw [ks]
    unfold Proc.Unused
    rw [hdrts]
  unfold replyAnswer
  rw [hu, Option.bind_some]
  by_cases hidle : (a.proc (endpointP dst)).Unused
  swap
  · rw [if_neg hidle, put2lcl_busy kremote kbound kep knode (mt kunused.1 hidle) hadm hne,
      Option.bind_some]
    exact if_neg (by rw [hsem]; decide)
  have hsrc : SrcReady a₂ k :=
    ⟨kremote, kbound, kep, knode, (kunused.2 hidle).1, (kunused.2 hidle).2⟩
  have hdst : DstReady a₂ k := by
    constructor <;> rw [kd, h.number]
    · rw [hrts]
    · rw [hrts]
    · exact hep
    · rw [hrts]
    · rw [hnode, hac]; exact h.home
  have hput : a₂.put2lcl pa k (fun _ => 0) 0 =
      some (a₂.modProc c fun p => p.endSend.upIfReady EMol.ok, EMol.ok) := by
    rw [put2lcl_eq_cmd hadm hne hsrc hdst]
    simp [put2lclCmd, hcmd, sendAckRmt2lcl, h.number, hdrts, hidle.2, hrts, hto, hdep, h.known]
  have hwoken : (a₂.modProc c fun p => p.endSend.upIfReady EMol.ok).proc c =
      (a₂.proc c).endSend.up EMol.ok := by
    rw [modProc_same, Proc.upIfReady, if_pos]
    simp [Proc.endSend, hrts, Rts.running]
  have hresult : ((a₂.modProc c fun p => p.endSend.upIfReady EMol.ok).proc c).sleepResult
      timeoutForever 1 = EMol.ok := by
    rw [hwoken]
    rfl
  rw [if_pos hidle, hput, Option.bind_some]
  rw [if_pos (by rw [hwoken]; simp [Proc.up, Proc.endSend, hsem])]
  unfold wake
  rw [hresult, if_neg (fun h => h.1 rfl), resume, if_pos rfl]
  rfl

theorem Far.queued (m : Message) (hw : ¬ (b.proc (endpointP dst)).waitsFor (a.proc c).endpoint) :
    ∃ b₁ r, b.sendRmt2lcl (a.replyHdr c dst m) c (endpointP dst) 0 = (b₁, r) ∧
      (b₁.proc (endpointP dst)).list = (b.proc (endpointP dst)).list ++ [c] := by
  have hne := h.ne
  unfold sendRmt2lcl
  rw [h.callerEp, if_neg hw]
  refine ⟨_, _, rfl, ?_⟩
  simp [addTail, hne]

theorem repliesRight_over_iff (m : Message) :
    RepliesRight (a.replied c m)
        ((b.proc (endpointP dst)).waitsExactly (a.proc c).endpoint) (b.proc (endpointP dst))
        (replyOver a b c dst m pa pb).1
        ((replyOver a b c dst m pa pb).2.map (·.proc (endpointP dst))) ↔
      (b.proc (endpointP dst)).waitsExactly (a.proc c).endpoint ∧
        (a.proc (endpointP dst)).Unused ∧ (b.proc c).Unused := by
  obtain ⟨a₁, a₂, hcall, hsent, hs⟩ := h.sent m
  have hput := h.put2lcl m
  -- a reply without a result is not right
  have hnone : (replyOver a b c dst m pa pb).1 = none →
      ¬ RepliesRight (a.replied c m)
        ((b.proc (endpointP dst)).waitsExactly (a.proc c).endpoint) (b.proc (endpointP dst))
        (replyOver a b c dst m pa pb).1
        ((replyOver a b c dst m pa pb).2.map (·.proc (endpointP dst))) := by
    rintro hno ⟨hyes, hnot⟩
    rw [hno] at hyes hnot
    by_cases hx : (b.proc (endpointP dst)).waitsExactly (a.proc c).endpoint
    · exact nomatch (hyes hx).1
    · obtain ⟨⟨e, -, he⟩, -⟩ := hnot hx
      exact nomatch he
  by_cases hu : (b.proc c).Unused
  swap
  · refine iff_of_false (hnone ?_) fun hx => hu hx.2.2
    have hempty : b.nextSent pb = none := by simp [nextSent, get2rmtDequeue, h.empty]
    simp only [replyOver, hcall, hsent, hput, if_neg hu, replyAnswer, hempty, Option.bind_none]
  rw [if_pos hu] at hput
  by_cases hw : (b.proc (endpointP dst)).waitsFor (a.proc c).endpoint
  · obtain ⟨b₁, r, hb, hq, ht⟩ := h.taken m hw
    have hans := h.answered hs ht
    by_cases hidle : (a.proc (endpointP dst)).Unused
    swap
    · refine iff_of_false (hnone ?_) fun hx => hidle hx.2.1
      simp only [replyOver, hcall, hsent, hput, hb, hans, if_neg hidle]
    have hover : replyOver a b c dst m pa pb = (some EMol.ok, some b₁) := by
      simp only [replyOver, hcall, hsent, hput, hb, hans, if_pos hidle]
    rw [hover]
    constructor
    · rintro ⟨-, hno⟩
      refine ⟨?_, hidle, hu⟩
      by_contra hx
      obtain ⟨⟨e, he, hcode⟩, -⟩ := hno hx
      rw [← Option.some.inj hcode] at he
      exact absurd he (by decide)
    · rintro ⟨hx, -⟩
      exact ⟨fun _ => ⟨rfl, congrArg some hq⟩, fun hno => absurd hx hno⟩
  · have hx : ¬ (b.proc (endpointP dst)).waitsExactly (a.proc c).endpoint := fun hx =>
      hw ⟨hx.1, hx.2.1, .inr hx.2.2⟩
    obtain ⟨b₁, r, hb, hl⟩ := h.queued m hw
    have hover : (replyOver a b c dst m pa pb).2 = some b₁ := by
      simp only [replyOver, hcall, hsent, hput, hb]
    refine ⟨fun hr => ?_, fun h' => absurd h'.1 hx⟩
    have hq := (hr.2 hx).2
    rw [hover] at hq
    have := congrArg Proc.list (Option.some.inj hq)
    rw [hl] at this
    simpa using congrArg List.length this

end

end Over

def replySample (k src : ℤ) : Node where
  conf := Conf.sample k
  proc := fun q =>
    if q = 5 then Proc.sample 0 5 { remote := decide (k = 1) }
    else if q = 6 then
      { Proc.sample 1 6 { receiving := decide (k = 1), remote := decide (k = 0) } with
        getfrom := src, pseudosem := -1 }
    else {}
  sproxy := Proc.sampleProxy
  rproxy := Proc.sampleProxy

theorem replySample_far (src : ℤ) : Far (replySample 0 src) (replySample 1 src) 5 6 1 0 := by
  have hpid : ∀ k : ℤ, k = 0 ∨ k = 1 → (Proc.sampleProxy k).lpid ≠ procNoPid := by
    rintro k (rfl | rfl) <;> decide
  have hrange : ∀ k, (replySample k src).conf.inRange 5 ∧
      (replySample k src).conf.inRange (endpointP 6) := fun _ =>
    (by decide : (Conf.sample 0).inRange 5 ∧ (Conf.sample 0).inRange (endpointP 6))
  have hnumber : endpointP 5 = 5 := by decide
  exact ⟨rfl, by decide, rfl, ⟨rfl, rfl, ⟨hpid 1 (.inr rfl), rfl, rfl, rfl, rfl, rfl, rfl, rfl⟩, rfl,
    rfl, rfl⟩, hnumber, rfl, rfl, rfl, hrange 0, rfl, rfl, rfl, rfl,
    ⟨hpid 0 (.inl rfl), rfl, rfl, rfl, rfl, rfl, rfl, rfl⟩, rfl, rfl, ⟨rfl, rfl⟩, hrange 1,
    ⟨rfl, rfl, rfl⟩, rfl, rfl, ⟨rfl, rfl, rfl⟩, rfl, rfl⟩

end Node

end MolIpc
