import MolIpc.Net.Copying

/-!
Remote copies between two nodes.

The requester `r` of node `a` copies between the process `l` of its node (which may be `r` itself)
and the process `q` of node `b`. Each chunk makes a round trip: with its data
(`CMD_COPYIN_DATA`, acknowledged by `CMD_COPYIN_ACK`) or for them (`CMD_COPYOUT_RQST`, answered by
`CMD_COPYOUT_DATA`).
-/

namespace MolIpc

/-- The direction of the copy: to node `b` or from it. -/
inductive Dir
  | copyin
  | copyout
  deriving DecidableEq, Repr

/-- Two nodes and the processes of a copy between them, with the flags and the memory that the
parties have before it. -/
structure Duo where
  a : ℤ
  b : ℤ
  ca : Conf
  cb : Conf
  r : ℤ
  l : ℤ
  q : ℤ
  er : ℤ
  el : ℤ
  eq : ℤ
  flagsL : Rts
  flagsQ : Rts
  flagsRb : Rts
  flagsQb : Rts
  memL : Mem
  memQ : Mem

namespace Duo

variable {node : ℤ}

def ours (X : Duo) (i : ℤ) : Bool := decide (i = X.r ∨ i = X.l ∨ i = X.q)

def pa (X : Duo) : ℤ := X.ca.nProxies X.b

def pb (X : Duo) : ℤ := X.cb.nProxies X.a

structure Free (f : Rts) : Prop where
  bound : f.slotFree = false
  oncopy : f.oncopy = false
  rmtoper : f.rmtoper = false
  settled : f.migrate = false

/-- The two nodes belong to one running DC with blocks of one size: `l` is receiving if it is not
the requester, `q` is in the receive half of a `sendrec`, and the descriptors of remote processes
have no operation in progress. -/
structure Wf (X : Duo) : Prop where
  ne_ab : X.a ≠ X.b
  localA : X.ca.localNodeid = X.a
  localB : X.cb.localNodeid = X.b
  endR : endpointP X.er = X.r
  endL : endpointP X.el = X.l
  endQ : endpointP X.eq = X.q
  ne_rq : X.r ≠ X.q
  ne_lq : X.l ≠ X.q
  self : X.l = X.r → X.el = X.er
  special : ∀ e, e = X.el ∨ e = X.eq → e ≠ anyEp ∧ e ≠ noneEp ∧ e ≠ selfEp
  blocks : X.ca.maxbytes X.b = X.cb.maxbytes X.a
  pos : 0 < X.ca.maxbytes X.b
  dcid : X.ca.dcid = X.cb.dcid
  dcidA : 0 ≤ X.ca.dcid ∧ X.ca.dcid < X.ca.dNrDcs
  dcidB : 0 ≤ X.cb.dcid ∧ X.cb.dcid < X.cb.dNrDcs
  runA : X.ca.dcFlags = 0
  runB : X.cb.dcFlags = 0
  rangeA : X.ca.inRange X.r ∧ X.ca.inRange X.l ∧ X.ca.inRange X.q
  rangeB : X.cb.inRange X.r ∧ X.cb.inRange X.q
  nodesA : 0 ≤ X.a ∧ X.a < X.ca.dNrNodes ∧ 0 ≤ X.b ∧ X.b < X.ca.dNrNodes
  dcNodesA : X.ca.dcNodes X.a = true ∧ X.ca.dcNodes X.b = true
  dcNodesB : X.cb.dcNodes X.a = true
  nDcs : X.ca.nDcs X.b X.ca.dcid = true ∧ X.cb.nDcs X.a X.cb.dcid = true
  freeL : X.l ≠ X.r → Free X.flagsL ∧ X.flagsL.remote = false ∧ X.flagsL.receiving = true
  freeQ : Free X.flagsQ ∧ X.flagsQ.remote = true
  freeRb : Free X.flagsRb ∧ X.flagsRb.remote = true ∧ X.flagsRb.sending = false
  freeQb : Free X.flagsQb ∧ X.flagsQb.remote = false ∧ X.flagsQb.receiving = true ∧
    X.flagsQb.sending = false

structure Desc (p : Proc) (ep node : ℤ) (flags : Rts) : Prop where
  endpoint : p.endpoint = ep
  nodeid : p.nodeid = node
  rts : p.rts = flags

/-- Node `a`, with the flags of the requester, the bit `ONCOPY` of the others and the memory of
`l`. -/
structure NodeA (X : Duo) (rr : Rts) (busy : Bool) (ml : Mem) (n : Node) : Prop where
  conf : n.conf = X.ca
  up : Cluster.ProxyUp n X.pa X.b
  descR : Desc (n.proc X.r) X.er X.a rr
  stay : (n.proc X.r).misc.needmigr = false
  descL : X.l ≠ X.r → Desc (n.proc X.l) X.el X.a { X.flagsL with oncopy := busy }
  descQ : Desc (n.proc X.q) X.eq X.b { X.flagsQ with oncopy := busy }
  mem : (n.proc X.l).mem = ml

/-- Node `b`, with the flags of the descriptor of `r` and the memory of `q`. -/
structure NodeB (X : Duo) (rb : Rts) (mq : Mem) (n : Node) : Prop where
  conf : n.conf = X.cb
  up : Cluster.ProxyUp n X.pb X.a
  descR : Desc (n.proc X.r) X.er X.a rb
  descQ : Desc (n.proc X.q) X.eq X.b X.flagsQb
  mem : (n.proc X.q).mem = mq

/-- The memory of `l` when `left` bytes of the copy `v₀` are still to come. -/
def memL' (X : Duo) (v₀ : VcopyCall) (left : ℤ) : Dir → Mem
  | .copyin => X.memL
  | .copyout => X.memL.blit v₀.daddr X.memQ v₀.saddr (v₀.bytes - left).toNat

/-- The memory of `q` when `left` bytes of the copy `v₀` are still to come. -/
def memQ' (X : Duo) (v₀ : VcopyCall) (left : ℤ) : Dir → Mem
  | .copyin => X.memQ.blit v₀.daddr X.memL v₀.saddr (v₀.bytes - left).toNat
  | .copyout => X.memQ

/-! ### Chunks -/

def ends (X : Duo) : Dir → ℤ × ℤ
  | .copyin => (X.el, X.eq)
  | .copyout => (X.eq, X.el)

def Along (X : Duo) (dir : Dir) (v : VcopyCall) : Prop :=
  v.src = (X.ends dir).1 ∧ v.dst = (X.ends dir).2

structure Rest (X : Duo) (dir : Dir) (v₀ v : VcopyCall) : Prop where
  src : v.src = (X.ends dir).1
  dst : v.dst = (X.ends dir).2
  saddr : v.saddr = v₀.saddr + (v₀.bytes - v.bytes).toNat
  daddr : v.daddr = v₀.daddr + (v₀.bytes - v.bytes).toNat
  nonneg : 0 ≤ v.bytes
  le : v.bytes ≤ v₀.bytes

structure IsHdr (X : Duo) (v : VcopyCall) (len : ℤ) (cmd : Cmd) (src dst snode dnode : ℤ)
    (h : Hdr) : Prop where
  cmd : h.cmd = cmd
  dcid : h.dcid = X.ca.dcid
  src : h.src = src
  dst : h.dst = dst
  snode : h.snode = snode
  dnode : h.dnode = dnode
  rcode : h.rcode = EMol.ok
  vsrc : h.vcopy.src = v.src
  vdst : h.vcopy.dst = v.dst
  saddr : h.vcopy.saddr = v.saddr
  daddr : h.vcopy.daddr = v.daddr
  bytes : h.vcopy.bytes = len

def reqCmd : Dir → Cmd
  | .copyin => .copyinData
  | .copyout => .copyoutRqst

def ackCmd : Dir → Cmd
  | .copyin => .copyinAck
  | .copyout => .copyoutData

def IsReq (X : Duo) (dir : Dir) (v : VcopyCall) (len : ℤ) : Hdr → Prop :=
  X.IsHdr v len (reqCmd dir) X.er X.eq X.a X.b

def IsAck (X : Duo) (dir : Dir) (v : VcopyCall) (len : ℤ) : Hdr → Prop :=
  X.IsHdr v len (ackCmd dir) X.eq X.er X.b X.a

/-- The payload holds `len` bytes of `m` from `saddr` on. -/
def Carries (pay m : Mem) (saddr : ℕ) (len : ℤ) : Prop :=
  ∃ old : Mem, pay = old.blit 0 m saddr len.toNat

structure Sleeps (X : Duo) (sem : ℤ) (n : Node) : Prop where
  sem : (n.proc X.r).pseudosem = sem
  rcode : (n.proc X.r).rcode = EMol.ok

def queuedFlags : Rts := { oncopy := true, rmtoper := true }

/-! ### What keeps the two nodes as they are -/

structure KeepDesc (p p' : Proc) : Prop where
  endpoint : p'.endpoint = p.endpoint
  nodeid : p'.nodeid = p.nodeid
  misc : p'.misc = p.misc
  mem : p'.mem = p.mem

section Keep

variable {X : Duo} {n : Node} {rr rr' rb rb' : Rts} {busy : Bool} {ml mq : Mem} {f : Proc → Proc}

theorem NodeA.modR (hX : X.Wf) (hn : X.NodeA rr busy ml n)
    (hkeep : KeepDesc (n.proc X.r) (f (n.proc X.r))) (hrts : (f (n.proc X.r)).rts = rr') :
    X.NodeA rr' busy ml (n.modProc X.r f) := by
  refine ⟨hn.conf, hn.up.modProc _ _, ⟨?_, ?_, ?_⟩, ?_, fun hl => ?_, ?_, ?_⟩
  · rw [Node.modProc_same, hkeep.endpoint, hn.descR.endpoint]
  · rw [Node.modProc_same, hkeep.nodeid, hn.descR.nodeid]
  · rw [Node.modProc_same, hrts]
  · rw [Node.modProc_same, hkeep.misc, hn.stay]
  · rw [Node.modProc_of_ne _ _ hl]
    exact hn.descL hl
  · rw [Node.modProc_of_ne _ _ hX.ne_rq.symm]
    exact hn.descQ
  · by_cases hl : X.l = X.r
    · rw [hl, Node.modProc_same, hkeep.mem, ← hl, hn.mem]
    · rw [Node.modProc_of_ne _ _ hl, hn.mem]

theorem Desc.modMem {i ep : ℤ} {flags : Rts} (h : Desc (n.proc i) ep node flags) (j : ℤ)
    (g : Mem → Mem) :
    Desc ((n.modProc j fun p => { p with mem := g p.mem }).proc i) ep node flags :=
  ⟨(Node.modProc_field j i Proc.endpoint fun _ => by rfl).trans h.endpoint,
    (Node.modProc_field j i Proc.nodeid fun _ => by rfl).trans h.nodeid,
    (Node.modProc_field j i Proc.rts fun _ => by rfl).trans h.rts⟩

theorem Desc.mark {p q : Proc} {ep : ℤ} {flags : Rts} (h : Desc p ep node flags)
    (hq : q = { p with rts := { p.rts with oncopy := busy } }) :
    Desc q ep node { flags with oncopy := busy } := by
  rw [hq]
  exact ⟨h.endpoint, h.nodeid, by rw [h.rts]⟩

theorem NodeA.modL (hn : X.NodeA rr busy ml n) (g : Mem → Mem) :
    X.NodeA rr busy (g ml) (n.modProc X.l fun p => { p with mem := g p.mem }) := by
  refine ⟨hn.conf, hn.up.modProc _ _, hn.descR.modMem _ g, ?_, fun hl => (hn.descL hl).modMem _ g,
    hn.descQ.modMem _ g, ?_⟩
  · exact (Node.modProc_field X.l X.r (·.misc.needmigr) fun _ => by rfl).trans hn.stay
  · rw [Node.modProc_same, hn.mem]

theorem NodeA.unlink (hn : X.NodeA rr busy ml n) (i : ℤ) : X.NodeA rr busy ml (n.unlink i) :=
  ⟨hn.conf, hn.up.unlink i, ⟨hn.descR.1, hn.descR.2, hn.descR.3⟩, hn.stay,
    fun hl => ⟨(hn.descL hl).1, (hn.descL hl).2, (hn.descL hl).3⟩,
    ⟨hn.descQ.1, hn.descQ.2, hn.descQ.3⟩, hn.mem⟩

theorem NodeA.enqueue (hn : X.NodeA rr busy ml n) (px x : ℤ) :
    X.NodeA rr busy ml (n.modSproxy px fun sp => sp.enqueueCaller x) :=
  ⟨hn.conf, hn.up.enqueue px x, hn.descR, hn.stay, hn.descL, hn.descQ, hn.mem⟩

theorem NodeB.modR (hX : X.Wf) (hn : X.NodeB rb mq n)
    (hkeep : KeepDesc (n.proc X.r) (f (n.proc X.r))) (hrts : (f (n.proc X.r)).rts = rb') :
    X.NodeB rb' mq (n.modProc X.r f) := by
  refine ⟨hn.conf, hn.up.modProc _ _, ⟨?_, ?_, ?_⟩, ?_, ?_⟩
  · rw [Node.modProc_same, hkeep.endpoint, hn.descR.endpoint]
  · rw [Node.modProc_same, hkeep.nodeid, hn.descR.nodeid]
  · rw [Node.modProc_same, hrts]
  · rw [Node.modProc_of_ne _ _ hX.ne_rq.symm]
    exact hn.descQ
  · rw [Node.modProc_of_ne _ _ hX.ne_rq.symm, hn.mem]

theorem NodeB.modQ (hn : X.NodeB rb mq n) (g : Mem → Mem) :
    X.NodeB rb (g mq) (n.modProc X.q fun p => { p with mem := g p.mem }) :=
  ⟨hn.conf, hn.up.modProc _ _, hn.descR.modMem _ g, hn.descQ.modMem _ g,
    by rw [Node.modProc_same, hn.mem]⟩

theorem NodeB.unlink (hn : X.NodeB rb mq n) (i : ℤ) : X.NodeB rb mq (n.unlink i) :=
  ⟨hn.conf, hn.up.unlink i, ⟨hn.descR.1, hn.descR.2, hn.descR.3⟩,
    ⟨hn.descQ.1, hn.descQ.2, hn.descQ.3⟩, hn.mem⟩

theorem NodeB.enqueue (hn : X.NodeB rb mq n) (px x : ℤ) :
    X.NodeB rb mq (n.modSproxy px fun sp => sp.enqueueCaller x) :=
  ⟨hn.conf, hn.up.enqueue px x, hn.descR, hn.descQ, hn.mem⟩

end Keep

/-! ### The request leaves -/

section Steps

variable {X : Duo} {dir : Dir} {v : VcopyCall} {len k srcEp dstEp : ℤ} {n : Node} {ml mq pay : Mem}
  {h : Hdr} {f rr : Rts} {busy : Bool}

theorem check_of_up {cf : Conf} {px m i : ℤ} (hup : Cluster.ProxyUp n px m) (hc : n.conf = cf)
    (hdc : 0 ≤ cf.dcid ∧ cf.dcid < cf.dNrDcs) (hrun : cf.dcFlags = 0)
    (hnd : cf.nDcs m cf.dcid = true) (hd : (n.proc i).rmtcmd.dnode = m) (hf : (n.proc i).rts = f)
    (hb : f.slotFree = false) (hm : f.migrate = false) : n.get2rmtCheck px i = EMol.ok := by
  simp [Node.get2rmtCheck, hf, hc, hd, hnd, hdc, hup.nodemap, hrun, hb, hm]

theorem put_of_up {cf : Conf} {px m i j : ℤ} {fs fd : Rts} (hup : Cluster.ProxyUp n px m)
    (hc : n.conf = cf) (hdc : h.dcid = cf.dcid ∧ 0 ≤ cf.dcid ∧ cf.dcid < cf.dNrDcs)
    (hrun : cf.dcFlags = 0) (hi : endpointP h.src = i ∧ cf.inRange i)
    (hj : endpointP h.dst = j ∧ cf.inRange j) (hne : i ≠ j) (hnd : cf.dcNodes h.snode = true)
    (hl : h.dnode = cf.localNodeid) (hs : Desc (n.proc i) h.src h.snode fs)
    (hfs : fs.slotFree = false ∧ fs.rmtoper = false ∧ fs.remote = true)
    (hd : Desc (n.proc j) h.dst cf.localNodeid fd)
    (hfd : fd.slotFree = false ∧ fd.migrate = false ∧ fd.remote = false) :
    n.put2lcl px h pay 0 =
      if fs.sending then some (n, EMol.enqueued) else n.put2lclCmd h pay 0 := by
  subst hc
  obtain ⟨rfl, hri⟩ := hi
  obtain ⟨rfl, hrj⟩ := hj
  have hentry : n.put2lclEntry px h = EMol.ok := Node.put2lclEntry_eq_ok.2
    ⟨hup.rbound, hup.rproxy, hup.rconnected, hdc.1 ▸ hdc.2, hrun, hri, hrj, hnd, hl⟩
  have hcheck : n.put2lclCheck h = if fs.sending then EMol.enqueued else EMol.ok := by
    simp [Node.put2lclCheck, hs.endpoint, hs.nodeid, hs.rts, hfs, hd.endpoint, hd.nodeid, hd.rts,
      hfd]
  cases hsend : fs.sending with
  | false => simp [Node.put2lcl, hentry, hne, hcheck, hsend]
  | true =>
    simp [Node.put2lcl, hentry, hne, hcheck, hsend, Node.put2lclReject, EMol.enqueued, EMol.ok]

theorem check_req (hX : X.Wf) (hn : X.NodeA queuedFlags true ml n)
    (hh : X.IsReq dir v len (n.proc X.r).rmtcmd) : n.get2rmtCheck X.pa X.r = EMol.ok :=
  check_of_up hn.up hn.conf hX.dcidA hX.runA hX.nDcs.1 hh.dnode hn.descR.rts rfl rfl

theorem request_req (hX : X.Wf) (hn : X.NodeA queuedFlags true ml n)
    (hv : v.src = (X.ends dir).1) (hlen : len ≤ X.ca.maxbytes X.b)
    (hh : X.IsReq dir v len (n.proc X.r).rmtcmd) (pay : Mem) :
    ∃ pay', n.get2rmtRequest X.r pay 0 =
        (n.modProc X.r fun p => { p with rts := { p.rts with rmtoper := false } }, pay', EMol.ok) ∧
      (dir = .copyin → Carries pay' ml v.saddr len) := by
  cases dir with
  | copyin =>
    refine ⟨_, ?_, fun _ => ⟨pay, rfl⟩⟩
    have hcmd : (n.proc X.r).rmtcmd.cmd = .copyinData := hh.cmd
    have hsrc : endpointP v.src = X.l := by rw [hv]; exact hX.endL
    have hmem : ((n.modProc X.r fun p => { p with rts := { p.rts with rmtoper := false } }).proc
        X.l).mem = ml := by
      by_cases hl : X.l = X.r
      · rw [hl, Node.modProc_same, ← hl]
        exact hn.mem
      · rw [Node.modProc_of_ne _ _ hl, hn.mem]
    have hbytes : ¬ X.ca.maxbytes X.b < len := by omega
    simp [Node.get2rmtRequest, hcmd, hn.conf, hh.dnode, hh.bytes, hbytes, Node.copyPayload,
      hh.vsrc, hsrc, hmem, hh.saddr, EMol.ok]
  | copyout =>
    refine ⟨pay, ?_, fun h => by cases h⟩
    have hcmd : (n.proc X.r).rmtcmd.cmd = .copyoutRqst := hh.cmd
    simp [Node.get2rmtRequest, hcmd]

theorem send_req (hX : X.Wf) (hn : X.NodeA queuedFlags true ml n) (hs : X.Sleeps (-1) n)
    (hv : v.src = (X.ends dir).1) (hlen : len ≤ X.ca.maxbytes X.b)
    (hh : X.IsReq dir v len (n.proc X.r).rmtcmd) (pay : Mem) :
    ∃ n' pay' h, n.get2rmtSend X.r EMol.ok pay 0 = some (n', pay', .hdr h) ∧
      X.NodeA Rts.onlyOncopy true ml n' ∧ X.Sleeps (-1) n' ∧ X.IsReq dir v len h ∧
      (dir = .copyin → Carries pay' ml v.saddr len) := by
  have hdst : endpointP (n.proc X.r).rmtcmd.dst = X.q := by rw [hh.dst, hX.endQ]
  obtain ⟨pay', hreq, hpay⟩ := request_req hX hn hv hlen hh pay
  refine ⟨_, _, _, Node.get2rmtSend_request ?_ ?_ ?_ hreq,
    hn.modR hX ⟨rfl, rfl, rfl, rfl⟩ ?_, ⟨?_, ?_⟩, hh, hpay⟩
  · rw [hn.descR.rts]
    rfl
  · rw [hdst]
    exact hX.ne_rq.symm
  · rw [hdst, hh.dnode, hn.descQ.nodeid]
  · rw [hn.descR.rts]
    rfl
  · rw [Node.modProc_same, hs.sem]
  · rw [Node.modProc_same, hs.rcode]

/-! ### The request arrives -/

/-- The flags of the descriptor of `r` on node `b` while it carries the answer. -/
def ackFlags (X : Duo) : Rts := { X.flagsRb with rmtoper := true }

theorem IsReq.numbers (hX : X.Wf) (hh : X.IsReq dir v len h) :
    endpointP h.src = X.r ∧ endpointP h.dst = X.q :=
  ⟨by rw [hh.src, hX.endR], by rw [hh.dst, hX.endQ]⟩

theorem put_req_cmd (hX : X.Wf) (hn : X.NodeB X.flagsRb mq n) (hh : X.IsReq dir v len h) :
    n.put2lcl X.pb h pay 0 = n.put2lclCmd h pay 0 := by
  obtain ⟨hsrc, hdst⟩ := hh.numbers hX
  obtain ⟨⟨hb, -, ho, -⟩, hrem, hsend⟩ := hX.freeRb
  obtain ⟨⟨hb', -, -, hm⟩, hloc, -⟩ := hX.freeQb
  have hs : Desc (n.proc X.r) h.src h.snode X.flagsRb := by
    rw [hh.src, hh.snode]
    exact hn.descR
  have hd : Desc (n.proc X.q) h.dst X.cb.localNodeid X.flagsQb := by
    rw [hh.dst, hX.localB]
    exact hn.descQ
  rw [put_of_up hn.up hn.conf ⟨hh.dcid.trans hX.dcid, hX.dcidB⟩ hX.runB ⟨hsrc, hX.rangeB.1⟩
    ⟨hdst, hX.rangeB.2⟩ hX.ne_rq (hh.snode ▸ hX.dcNodesB) (hh.dnode.trans hX.localB.symm) hs
    ⟨hb, ho, hrem⟩ hd ⟨hb', hm, hloc⟩, hsend]
  rfl

theorem NodeB.queueAck (hX : X.Wf) (hn : X.NodeB X.flagsRb mq n) {f : Proc → Proc}
    (hkeep : KeepDesc (n.proc X.r) (f (n.proc X.r)))
    (hrts : (f (n.proc X.r)).rts = { (n.proc X.r).rts with rmtoper := true })
    (hdnode : (f (n.proc X.r)).rmtcmd.dnode = X.a) :
    ∃ n', (n.modProc X.r f).sproxyEnqueue X.r = (n', EMol.ok) ∧ X.NodeB X.ackFlags mq n' ∧
      (n'.proc X.r).rmtcmd = (f (n.proc X.r)).rmtcmd ∧
      ∀ px, (n'.sproxy px).list =
        if px = X.pb then (n.sproxy px).list ++ [X.r] else (n.sproxy px).list := by
  have hn₁ : X.NodeB X.ackFlags mq (n.modProc X.r f) :=
    hn.modR hX hkeep (by rw [hrts, hn.descR.rts]; rfl)
  have hpx : (n.modProc X.r f).conf.nProxies ((n.modProc X.r f).proc X.r).rmtcmd.dnode = X.pb := by
    rw [Node.modProc_same, hdnode, hn₁.conf]
    rfl
  refine ⟨_, hn₁.up.sproxyEnqueue hpx, (hn₁.modR hX (f := fun p => { p with proxy := X.pb })
    ⟨rfl, rfl, rfl, rfl⟩ hn₁.descR.rts).enqueue X.pb X.r, ?_, fun px => ?_⟩
  · simp
  · by_cases hq : px = X.pb
    · simp [hq]
    · simp [hq]

/-- Node `b` has accepted a request: the memory of `q` is `m`, and the answer is queued. -/
structure Served (X : Duo) (dir : Dir) (v : VcopyCall) (len : ℤ) (m : Mem) (n n' : Node) :
    Prop where
  node : X.NodeB X.ackFlags m n'
  hdr : X.IsAck dir v len (n'.proc X.r).rmtcmd
  queue : ∀ px, (n'.sproxy px).list =
    if px = X.pb then (n.sproxy px).list ++ [X.r] else (n.sproxy px).list

theorem NodeB.answer (hX : X.Wf) (hn : X.NodeB X.flagsRb mq n) (hh : X.IsReq dir v len h)
    (clen : Proc → ℤ) :
    let n₂ := n.modProc X.r fun p => { p with rmtcmd := { p.rmtcmd with vcopy := h.vcopy } }
    ∃ n', (n₂.modProc X.r fun p =>
        { p with
          rts := { p.rts with rmtoper := true }
          rmtcmd := { p.rmtcmd with
            cmd := ackCmd dir, dcid := n₂.conf.dcid, src := (n₂.proc X.q).endpoint
            dst := p.endpoint, snode := n₂.conf.localNodeid, dnode := p.nodeid
            len := clen p, rcode := EMol.ok } }).sproxyEnqueue X.r = (n', EMol.ok) ∧
      X.Served dir v len mq n n' := by
  intro n₂
  have hn₂ : X.NodeB X.flagsRb mq n₂ := hn.modR hX ⟨rfl, rfl, rfl, rfl⟩ hn.descR.rts
  obtain ⟨n', henq, hn', hcmd, hlist⟩ := hn₂.queueAck hX
    (f := fun p => { p with
      rts := { p.rts with rmtoper := true }
      rmtcmd := { p.rmtcmd with
        cmd := ackCmd dir, dcid := n₂.conf.dcid, src := (n₂.proc X.q).endpoint
        dst := p.endpoint, snode := n₂.conf.localNodeid, dnode := p.nodeid
        len := clen p, rcode := EMol.ok } })
    ⟨rfl, rfl, rfl, rfl⟩ rfl hn₂.descR.nodeid
  refine ⟨n', henq, hn', ?_, hlist⟩
  rw [hcmd]
  exact ⟨rfl, by rw [hX.dcid, ← hn₂.conf], hn₂.descQ.endpoint, hn₂.descR.endpoint,
    by rw [← hX.localB, ← hn₂.conf], hn₂.descR.nodeid, rfl, by simpa [n₂] using hh.vsrc,
    by simpa [n₂] using hh.vdst, by simpa [n₂] using hh.saddr, by simpa [n₂] using hh.daddr,
    by simpa [n₂] using hh.bytes⟩

theorem Carries.blit {m : Mem} {saddr : ℕ} (h : Carries pay m saddr len) (m' : Mem) (daddr : ℕ) :
    m'.blit daddr pay 0 len.toNat = m'.blit daddr m saddr len.toNat := by
  obtain ⟨old, rfl⟩ := h
  rw [Mem.blit_payload]

theorem bytesOk_of_hdr (hb : h.vcopy.bytes = len) (hlen : 0 < len ∧ len ≤ X.ca.maxbytes X.b)
    (hk : n.conf.maxbytes h.snode = k) (hX : k = X.ca.maxbytes X.b) :
    Node.bytesOk h (n.conf.maxbytes h.snode) := by
  rw [Node.bytesOk, hb, hk, hX]
  exact hlen

theorem put_copyinData (hX : X.Wf) (hn : X.NodeB X.flagsRb mq n) (hh : X.IsReq .copyin v len h)
    (hv : v.dst = X.eq) (hlen : 0 < len ∧ len ≤ X.ca.maxbytes X.b)
    (hpay : Carries pay ml v.saddr len) :
    ∃ n', n.put2lcl X.pb h pay 0 = some (n', EMol.ok) ∧
      X.Served .copyin v len (mq.blit v.daddr ml v.saddr len.toNat) n n' := by
  obtain ⟨hsrc, hdst⟩ := hh.numbers hX
  have hcmd : h.cmd = .copyinData := hh.cmd
  have hbytes : Node.bytesOk h (n.conf.maxbytes h.snode) :=
    bytesOk_of_hdr hh.bytes hlen (by rw [hn.conf, hh.snode]) hX.blocks.symm
  have hQ : (n.proc X.q).endpoint = h.vcopy.dst := by rw [hn.descQ.endpoint, hh.vdst, hv]
  have hmem : mq.blit h.vcopy.daddr pay 0 h.vcopy.bytes.toNat =
      mq.blit v.daddr ml v.saddr len.toNat := by
    rw [hh.bytes, hh.daddr, hpay.blit]
  let n₁ := n.modProc X.q fun p =>
    { p with mem := p.mem.blit h.vcopy.daddr pay 0 h.vcopy.bytes.toNat }
  have hn₁ : X.NodeB X.flagsRb (mq.blit v.daddr ml v.saddr len.toNat) n₁ :=
    hmem ▸ hn.modQ fun m => m.blit h.vcopy.daddr pay 0 h.vcopy.bytes.toNat
  have hput : n.put2lclCmd h pay 0 = some ((n₁.modProc X.r fun p =>
      { p with rmtcmd := { p.rmtcmd with vcopy := h.vcopy } }).genericAckLcl2rmt .copyinAck X.r X.q
        EMol.ok) := by
    simp [Node.put2lclCmd, hcmd, Node.copyinDataRmt2lcl, hsrc, hdst, hbytes, hn.descQ.rts,
      hX.freeQb.1.oncopy, hX.freeQb.2.2.2, hQ, n₁, EMol.ok]
  obtain ⟨n', henq, hserved⟩ := hn₁.answer hX hh fun _ => 0
  refine ⟨n', ?_, hserved.node, hserved.hdr, hserved.queue⟩
  rw [put_req_cmd hX hn hh, hput]
  exact congrArg some henq

theorem put_copyoutRqst (hX : X.Wf) (hn : X.NodeB X.flagsRb mq n) (hh : X.IsReq .copyout v len h)
    (hv : v.src = X.eq) (hlen : 0 < len ∧ len ≤ X.ca.maxbytes X.b) :
    ∃ n', n.put2lcl X.pb h pay 0 = some (n', EMol.ok) ∧ X.Served .copyout v len mq n n' := by
  obtain ⟨hsrc, hdst⟩ := hh.numbers hX
  have hcmd : h.cmd = .copyoutRqst := hh.cmd
  have hbytes : Node.bytesOk h (n.conf.maxbytes h.snode) :=
    bytesOk_of_hdr hh.bytes hlen (by rw [hn.conf, hh.snode]) hX.blocks.symm
  have hQ : (n.proc X.q).endpoint = h.vcopy.src := by rw [hn.descQ.endpoint, hh.vsrc, hv]
  have hblocked : X.flagsQb ≠ Rts.running := by
    intro hf
    have hr := hX.freeQb.2.2.1
    rw [hf] at hr
    exact absurd hr (by decide)
  have hput : n.put2lclCmd h pay 0 = some ((n.modProc X.r fun p =>
      { p with rmtcmd := { p.rmtcmd with vcopy := h.vcopy } }).copyoutDataLcl2rmt X.r X.q
        EMol.ok) := by
    simp [Node.put2lclCmd, hcmd, Node.copyoutRqstRmt2lcl, hsrc, hdst, hbytes, hn.descQ.rts,
      hX.freeQb.1.oncopy, hblocked, hQ]
  obtain ⟨n', henq, hserved⟩ := hn.answer hX hh fun p => p.rmtcmd.vcopy.bytes
  refine ⟨n', ?_, hserved⟩
  rw [put_req_cmd hX hn hh, hput]
  exact congrArg some henq

/-! ### The answer leaves -/

theorem flags_done (hf : Free f) (hs : f.sending = false) (b : Bool) (hb : b = false) :
    ({ f with oncopy := b, rmtoper := false, sending := false } : Rts) = f := by
  obtain ⟨-, h1, h2, -⟩ := hf
  subst hb
  cases f
  cases h1
  cases h2
  cases hs
  rfl

theorem check_ack (hX : X.Wf) (hn : X.NodeB X.ackFlags mq n)
    (hh : X.IsAck dir v len (n.proc X.r).rmtcmd) : n.get2rmtCheck X.pb X.r = EMol.ok :=
  check_of_up hn.up hn.conf hX.dcidB hX.runB hX.nDcs.2 hh.dnode hn.descR.rts hX.freeRb.1.bound
    hX.freeRb.1.settled

theorem NodeB.clearOncopyQ (hX : X.Wf) {rb : Rts} (hn : X.NodeB rb mq n) :
    X.NodeB rb mq (n.clearOncopy X.q) := by
  have hflags : { X.flagsQb with oncopy := false } = X.flagsQb := by
    have ho := hX.freeQb.1.oncopy
    revert ho
    cases X.flagsQb
    rintro ⟨⟩
    rfl
  refine ⟨hn.conf, hn.up.modProc _ _, ?_, ⟨?_, ?_, ?_⟩, ?_⟩
  · rw [Node.clearOncopy, Node.modProc_of_ne _ _ hX.ne_rq]
    exact hn.descR
  all_goals rw [Node.clearOncopy, Node.modProc_same]
  exacts [hn.descQ.endpoint, hn.descQ.nodeid, by rw [hn.descQ.rts]; exact hflags, hn.mem]

theorem ack_ack (hX : X.Wf) (hn : X.NodeB X.ackFlags mq n)
    (hv : X.Along dir v)
    (hh : X.IsAck dir v len (n.proc X.r).rmtcmd) (pay : Mem) :
    ∃ pay', n.get2rmtAck X.r pay 0 = some (n.clearOncopy X.q, pay', EMol.ok) ∧
      (dir = .copyout → Carries pay' mq v.saddr len) := by
  have hsrc : (n.proc X.q).endpoint = (n.proc X.r).rmtcmd.src := by rw [hn.descQ.endpoint, hh.src]
  cases dir with
  | copyin =>
    refine ⟨pay, ?_, fun h => by cases h⟩
    have hcmd : (n.proc X.r).rmtcmd.cmd = .copyinAck := hh.cmd
    have hd : endpointP (n.proc X.r).rmtcmd.vcopy.dst = X.q := by
      rw [hh.vdst, hv.2]
      exact hX.endQ
    simp [Node.get2rmtAck, hcmd, hd, hX.ne_rq.symm, hsrc]
  | copyout =>
    refine ⟨_, ?_, fun _ => ⟨pay, rfl⟩⟩
    have hcmd : (n.proc X.r).rmtcmd.cmd = .copyoutData := hh.cmd
    have hs : endpointP (n.proc X.r).rmtcmd.vcopy.src = X.q := by
      rw [hh.vsrc, hv.1]
      exact hX.endQ
    simp [Node.get2rmtAck, hcmd, hs, hX.ne_rq.symm, hsrc, hh.rcode, Node.copyPayload, hn.mem,
      hh.saddr, hh.bytes, EMol.ok]

theorem send_ack (hX : X.Wf) (hn : X.NodeB X.ackFlags mq n)
    (hv : X.Along dir v)
    (hh : X.IsAck dir v len (n.proc X.r).rmtcmd) (pay : Mem) :
    ∃ n' pay' h, n.get2rmtSend X.r EMol.ok pay 0 = some (n', pay', .hdr h) ∧
      X.NodeB X.flagsRb mq n' ∧ X.IsAck dir v len h ∧
      (dir = .copyout → Carries pay' mq v.saddr len) := by
  have hrem : (n.proc X.r).rts.remote = true := by
    rw [hn.descR.rts]
    exact hX.freeRb.2.1
  obtain ⟨pay', hack, hpay⟩ := ack_ack hX hn hv hh pay
  have hn₁ := hn.clearOncopyQ hX
  refine ⟨_, _, _, Node.get2rmtSend_ack hrem hack, hn₁.modR hX ⟨rfl, rfl, rfl, rfl⟩ ?_, ?_, hpay⟩
  · simp only [Proc.endSend, hn₁.descR.rts]
    exact flags_done hX.freeRb.1 hX.freeRb.2.2 X.flagsRb.oncopy hX.freeRb.1.oncopy
  · rwa [Node.clearOncopy, Node.modProc_of_ne _ _ hX.ne_rq]

/-! ### The answer arrives -/

theorem IsAck.numbers (hX : X.Wf) (hh : X.IsAck dir v len h) :
    endpointP h.src = X.q ∧ endpointP h.dst = X.r :=
  ⟨by rw [hh.src, hX.endQ], by rw [hh.dst, hX.endR]⟩

theorem put_ack_cmd (hX : X.Wf) (hn : X.NodeA Rts.onlyOncopy true ml n) (hh : X.IsAck dir v len h) :
    n.put2lcl X.pa h pay 0 =
      if X.flagsQ.sending then some (n, EMol.enqueued) else n.put2lclCmd h pay 0 := by
  obtain ⟨hsrc, hdst⟩ := hh.numbers hX
  obtain ⟨⟨hb, -, ho, -⟩, hrem⟩ := hX.freeQ
  have hs : Desc (n.proc X.q) h.src h.snode { X.flagsQ with oncopy := true } := by
    rw [hh.src, hh.snode]
    exact hn.descQ
  have hd : Desc (n.proc X.r) h.dst X.ca.localNodeid Rts.onlyOncopy := by
    rw [hh.dst, hX.localA]
    exact hn.descR
  rw [put_of_up hn.up hn.conf ⟨hh.dcid, hX.dcidA⟩ hX.runA ⟨hsrc, hX.rangeA.2.2⟩
    ⟨hdst, hX.rangeA.1⟩ hX.ne_rq.symm (hh.snode ▸ hX.dcNodesA.2) (hh.dnode.trans hX.localA.symm) hs
    ⟨hb, ho, hrem⟩ hd ⟨rfl, rfl, rfl⟩]

/-- Node `a` has accepted the answer: the memory of `l` is `m`, and the requester is woken up. -/
structure Woken (X : Duo) (m : Mem) (n n' : Node) : Prop where
  node : X.NodeA Rts.onlyOncopy true m n'
  wakes : X.Sleeps 0 n'
  sproxy : n'.sproxy = n.sproxy

section

variable (hX : X.Wf)

include hX

theorem NodeA.wake (hn : X.NodeA Rts.onlyOncopy true ml n) (hs : X.Sleeps (-1) n) :
    X.Woken ml n (n.modProc X.r fun p => if p.rts = Rts.onlyOncopy then p.up EMol.ok else p) := by
  have hup : (if (n.proc X.r).rts = Rts.onlyOncopy then (n.proc X.r).up EMol.ok
      else n.proc X.r) = (n.proc X.r).up EMol.ok := if_pos hn.descR.rts
  refine ⟨hn.modR hX ?_ ?_, ⟨?_, ?_⟩, rfl⟩
  · rw [hup]
    exact ⟨rfl, rfl, rfl, rfl⟩
  · rw [hup]
    exact hn.descR.rts
  · rw [Node.modProc_same, hup, Proc.up, hs.sem]
    rfl
  · rw [Node.modProc_same, hup]
    rfl

theorem put_copyinAck (hsend : X.flagsQ.sending = false) (hn : X.NodeA Rts.onlyOncopy true ml n)
    (hs : X.Sleeps (-1) n) (hh : X.IsAck .copyin v len h) :
    ∃ n', n.put2lcl X.pa h pay 0 = some (n', EMol.ok) ∧ X.Woken ml n n' := by
  obtain ⟨hsrc, hdst⟩ := hh.numbers hX
  have hcmd : h.cmd = .copyinAck := hh.cmd
  refine ⟨_, ?_, hn.wake hX hs⟩
  rw [put_ack_cmd hX hn hh, hsend]
  simp [Node.put2lclCmd, hcmd, hsrc, hdst, Node.genericAckRmt2lcl, hn.descQ.rts, hn.descR.rts,
    hX.freeQ.2, hh.rcode]

theorem put_copyoutData (hsend : X.flagsQ.sending = false) (hn : X.NodeA Rts.onlyOncopy true ml n)
    (hs : X.Sleeps (-1) n) (hh : X.IsAck .copyout v len h) (hv : v.dst = X.el)
    (hlen : 0 < len ∧ len ≤ X.ca.maxbytes X.b) (hpay : Carries pay mq v.saddr len) :
    ∃ n', n.put2lcl X.pa h pay 0 = some (n', EMol.ok) ∧
      X.Woken (ml.blit v.daddr mq v.saddr len.toNat) n n' := by
  obtain ⟨hsrc, hdst⟩ := hh.numbers hX
  have hL : endpointP h.vcopy.dst = X.l := by rw [hh.vdst, hv, hX.endL]
  have hcmd : h.cmd = .copyoutData := hh.cmd
  have hbytes : Node.bytesOk h (n.conf.maxbytes h.snode) :=
    bytesOk_of_hdr hh.bytes hlen (by rw [hn.conf, hh.snode]) rfl
  have hlock : ¬ ((n.proc X.l).endpoint ≠ (n.proc X.r).endpoint ∧ (X.l = X.r ∨ X.l = X.q)) := by
    rintro ⟨hne', hl | hl⟩
    · exact hne' (by rw [hl])
    · exact hX.ne_lq hl
  have hrtsL : (n.proc X.l).rts.oncopy = true := by
    by_cases hl : X.l = X.r
    · rw [hl, hn.descR.rts]
      rfl
    · rw [(hn.descL hl).rts]
  have hrunL : (n.proc X.l).rts ≠ Rts.running := by
    intro hf
    rw [hf] at hrtsL
    exact absurd hrtsL (by decide)
  have hn₁ := hn.modL fun m => m.blit h.vcopy.daddr pay 0 h.vcopy.bytes.toNat
  have hmem : ml.blit h.vcopy.daddr pay 0 h.vcopy.bytes.toNat =
      ml.blit v.daddr mq v.saddr len.toNat := by
    rw [hh.bytes, hh.daddr, hpay.blit]
  rw [hmem] at hn₁
  obtain ⟨hw₁, hw₂, hw₃⟩ := hn₁.wake hX
    ⟨(Node.modProc_field X.l X.r Proc.pseudosem fun _ => by rfl).trans hs.sem,
      (Node.modProc_field X.l X.r Proc.rcode fun _ => by rfl).trans hs.rcode⟩
  refine ⟨_, ?_, hw₁, hw₂, hw₃⟩
  rw [put_ack_cmd hX hn hh, hsend]
  simp only [Node.put2lclCmd, hcmd, hsrc, hdst, Node.copyoutDataRmt2lcl, hbytes, hL, hlock]
  simp [hn.descQ.rts, hn.descR.rts, hh.rcode, hrtsL, hrunL, EMol.ok]

/-! ### The requester -/

theorem ends_nr (hv : X.Along dir v) :
    (dir = .copyin ∧ v.srcNr = X.l ∧ v.dstNr = X.q) ∨
      (dir = .copyout ∧ v.srcNr = X.q ∧ v.dstNr = X.l) := by
  cases dir with
  | copyin =>
    refine .inl ⟨rfl, ?_, ?_⟩
    · rw [VcopyCall.srcNr, hv.1]; exact hX.endL
    · rw [VcopyCall.dstNr, hv.2]; exact hX.endQ
  | copyout =>
    refine .inr ⟨rfl, ?_, ?_⟩
    · rw [VcopyCall.srcNr, hv.1]; exact hX.endQ
    · rw [VcopyCall.dstNr, hv.2]; exact hX.endL

theorem ends_nr' (hv : X.Along dir v) :
    (v.srcNr = X.l ∧ v.dstNr = X.q) ∨ (v.srcNr = X.q ∧ v.dstNr = X.l) := by
  obtain ⟨-, h⟩ | ⟨-, h⟩ := ends_nr hX hv
  · exact .inl h
  · exact .inr h

theorem NodeA.remoteL (hn : X.NodeA rr busy ml n) (hr : rr.remote = false) :
    (n.proc X.l).rts.remote = false ∧ (n.proc X.l).endpoint = X.el := by
  by_cases hl : X.l = X.r
  · rw [hl, hn.descR.rts, hn.descR.endpoint, hX.self hl]
    exact ⟨hr, rfl⟩
  · rw [(hn.descL hl).rts, (hn.descL hl).endpoint]
    exact ⟨(hX.freeL hl).2.1, rfl⟩

theorem NodeA.remoteQ (hn : X.NodeA rr busy ml n) : (n.proc X.q).rts.remote = true := by
  rw [hn.descQ.rts]
  exact hX.freeQ.2

end

theorem ite_lt_eq_min (k j : ℤ) : (if k < j then k else j) = min k j := by
  split <;> omega

theorem vcopyLen_eq (hX : X.Wf) (hn : X.NodeA Rts.onlyOncopy true ml n)
    (hv : X.Along dir v) :
    n.vcopyLen v = min (X.ca.maxbytes X.b) v.bytes := by
  have hL := (hn.remoteL hX rfl).1
  have hQ := hn.remoteQ hX
  obtain ⟨-, h1, h2⟩ | ⟨-, h1, h2⟩ := ends_nr hX hv <;>
    simp [Node.vcopyLen, h1, h2, hL, hQ, hn.conf, hn.descQ.nodeid, ite_lt_eq_min]

theorem vcopyHdr_isReq (hX : X.Wf) (hn : X.NodeA Rts.onlyOncopy true ml n)
    (hv : X.Along dir v) :
    X.IsReq dir v len (n.vcopyHdr X.r v len) := by
  have hL := hn.remoteL hX rfl
  have hQ := hn.remoteQ hX
  obtain ⟨rfl, h1, h2⟩ | ⟨rfl, h1, h2⟩ := ends_nr hX hv
  · constructor <;>
      simp [Node.vcopyHdr, h1, h2, hL.1, hL.2, hn.conf, hn.descQ.endpoint, hn.descQ.nodeid,
        hn.descR.endpoint, reqCmd, hX.localA, hv.1, hv.2, ends]
  · constructor <;>
      simp [Node.vcopyHdr, h1, h2, hL.1, hL.2, hQ, hn.conf, hn.descQ.endpoint, hn.descQ.nodeid,
        hn.descR.endpoint, reqCmd, hX.localA, hv.1, hv.2, ends]

/-- What the requester leaves on node `a` when it sleeps for a chunk. -/
structure Issued (X : Duo) (dir : Dir) (v : VcopyCall) (len : ℤ) (m : Mem) (n n' : Node) :
    Prop where
  node : X.NodeA queuedFlags true m n'
  sleeps : X.Sleeps (-1) n'
  hdr : X.IsReq dir v len (n'.proc X.r).rmtcmd
  queue : ∀ px, (n'.sproxy px).list =
    if px = X.pa then (n.sproxy px).list ++ [X.r] else (n.sproxy px).list

theorem vcopyIssue_pos (hX : X.Wf) (hn : X.NodeA Rts.onlyOncopy true ml n)
    (hv : X.Along dir v) (hpos : 0 < v.bytes) :
    ∃ n', n.vcopyIssue X.r v = (n', .sleep v (min (X.ca.maxbytes X.b) v.bytes)) ∧
      X.Issued dir v (min (X.ca.maxbytes X.b) v.bytes) ml n n' := by
  have hreq : X.IsReq dir v (n.vcopyLen v) (n.vcopyHdr X.r v (n.vcopyLen v)) :=
    vcopyHdr_isReq hX hn hv
  have hpx : n.conf.nProxies (n.vcopyHdr X.r v (n.vcopyLen v)).dnode = X.pa := by
    rw [hn.conf, hreq.dnode]
    rfl
  have hissue := Node.vcopyIssue_of_up hpos hpx hn.up.sproxy_ne_free
  rw [vcopyLen_eq hX hn hv] at hissue hreq
  refine ⟨_, hissue, (hn.modR hX ⟨rfl, rfl, rfl, rfl⟩ ?_).enqueue _ _, ⟨?_, ?_⟩, ?_, fun px => ?_⟩
  · rw [hn.descR.rts]
    rfl
  · simp
  · simp
  · simpa using hreq
  · by_cases hq : px = X.pa
    · simp [hq]
    · simp [hq]

theorem NodeA.mark {busy' : Bool} (hn : X.NodeA rr busy ml n) {n' : Node} (hconf : n'.conf = n.conf)
    (hup : Cluster.ProxyUp n' X.pa X.b) (hproc : ∀ i, X.ours i = true →
      n'.proc i = { n.proc i with rts := { (n.proc i).rts with oncopy := busy' } }) :
    X.NodeA { rr with oncopy := busy' } busy' ml n' := by
  have hr := hproc X.r (by simp [ours])
  have hl := hproc X.l (by simp [ours])
  refine ⟨hconf.trans hn.conf, hup, hn.descR.mark hr, ?_, fun hne => (hn.descL hne).mark hl,
    hn.descQ.mark (hproc X.q (by simp [ours])), ?_⟩
  · rw [hr]
    exact hn.stay
  · rw [hl]
    exact hn.mem

theorem vcopyFinish_ok (hX : X.Wf) (hn : X.NodeA Rts.onlyOncopy true ml n)
    (hcode : (n.proc X.r).rcode = EMol.ok)
    (hv : X.Along dir v) :
    ∃ n', n.vcopyFinish X.r v EMol.ok = (n', .ret EMol.ok) ∧ X.NodeA Rts.running false ml n' ∧
      n'.sproxy = n.sproxy := by
  have hnr := ends_nr' hX hv
  set n₁ := ((n.clearOncopy v.srcNr).clearOncopy v.dstNr).clearOncopy X.r with hn₁
  have hleave : X.NodeA Rts.running false ml n₁ := by
    refine hn.mark rfl (((hn.up.modProc _ _).modProc _ _).modProc _ _) fun i hi => ?_
    simp only [ours, decide_eq_true_eq] at hi
    simp only [hn₁, Node.clearOncopy_proc]
    rcases hi with rfl | rfl | rfl <;> rcases hnr with ⟨h1, h2⟩ | ⟨h1, h2⟩ <;> simp [h1, h2]
  -- the parties are blocked for another reason
  have hstill : ∀ {x : ℤ}, (n₁.proc x).rts ≠ Rts.running →
      n₁.modProc x (fun p => p.upIfReady EMol.ok) = n₁ := fun hx =>
    Node.modProc_eq_self _ _ _ (if_neg hx)
  have hL : X.l ≠ X.r → n₁.modProc X.l (fun p => p.upIfReady EMol.ok) = n₁ := fun hl =>
    hstill fun hf => by
      rw [(hleave.descL hl).rts] at hf
      exact absurd ((congrArg Rts.receiving hf).symm.trans (hX.freeL hl).2.2) (by decide)
  have hQ : n₁.modProc X.q (fun p => p.upIfReady EMol.ok) = n₁ :=
    hstill fun hf => by
      rw [hleave.descQ.rts] at hf
      exact absurd ((congrArg Rts.remote hf).symm.trans hX.freeQ.2) (by decide)
  refine ⟨n₁, ?_, hleave, rfl⟩
  have hsig : (n₁.proc X.r).rts.signaled = false := by rw [hleave.descR.rts]; rfl
  simp only [Node.vcopyFinish, if_true, hcode, ← hn₁, hsig, Bool.false_eq_true, if_false]
  rcases hnr with ⟨h1, h2⟩ | ⟨h1, h2⟩ <;> by_cases hl : X.l = X.r
  · simp [h1, h2, hl, hX.ne_rq.symm, hQ]
  · simp [h1, h2, hl, hX.ne_rq.symm, hQ, hL hl]
  · simp [h1, h2, hl, hX.ne_rq.symm, hQ]
  · simp [h1, h2, hl, hX.ne_rq.symm, hQ, hL hl]

theorem vcopyWake_ok (hX : X.Wf) (hn : X.NodeA Rts.onlyOncopy true ml n) (hs : X.Sleeps 0 n)
    (hv : X.Along dir v) {w : ℤ} (hw : 0 < w) (cp : ℕ → ℤ) :
    ∃ n' pc, n.vcopyWake X.r (.sleep v len) w cp = (n', pc) ∧
      (len < v.bytes ∧ pc = .sleep (v.advance len) (min (X.ca.maxbytes X.b) (v.bytes - len)) ∧
          X.Issued dir (v.advance len) (min (X.ca.maxbytes X.b) (v.bytes - len)) ml n n' ∨
        v.bytes ≤ len ∧ pc = .ret EMol.ok ∧ X.NodeA Rts.running false ml n' ∧
          n'.sproxy = n.sproxy) := by
  rw [Node.vcopyWake_of_ok hs.rcode hn.stay hw]
  have hv' : X.Along dir (v.advance len) := hv
  by_cases hpos : len < v.bytes
  · obtain ⟨n', hissue, hi⟩ := vcopyIssue_pos hX hn hv' (by simp [VcopyCall.advance]; omega)
    exact ⟨n', _, hissue, .inl ⟨hpos, rfl, hi⟩⟩
  · obtain ⟨n', hfin, hn', hsp⟩ := vcopyFinish_ok hX hn hs.rcode hv'
    have hb : (v.advance len).bytes ≤ 0 := by simp [VcopyCall.advance]; omega
    refine ⟨n', .ret EMol.ok, ?_, .inr ⟨by omega, rfl, hn', hsp⟩⟩
    simp only [Node.vcopyIssue, hb, if_true]
    exact hfin

/-- The arguments of a call; the process `l` may be named `SELF` when it is the requester. -/
def Args (X : Duo) (srcEp dstEp : ℤ) : Dir → Prop
  | .copyin => (srcEp = X.el ∨ srcEp = selfEp ∧ X.l = X.r) ∧ dstEp = X.eq
  | .copyout => srcEp = X.eq ∧ (dstEp = X.el ∨ dstEp = selfEp ∧ X.l = X.r)

theorem vcopyParty_ok (hX : X.Wf) (hn : X.NodeA Rts.running false ml n) (died : ℤ) :
    n.vcopyParty X.r X.l X.el died = .ok ∧ n.vcopyParty X.r X.q X.eq died = .ok := by
  have hA := hX.nodesA
  have hD := hX.dcNodesA
  constructor
  · by_cases hl : X.l = X.r
    · have he := hX.self hl
      simp [Node.vcopyParty, hl, he, hn.descR.endpoint, hn.descR.rts, hn.descR.nodeid, hn.conf,
        Rts.running, hA.1, hA.2.1, hD.1]
    · have hd := hn.descL hl
      obtain ⟨hf, hloc, hrec⟩ := hX.freeL hl
      simp [Node.vcopyParty, hd.endpoint, hd.rts, hd.nodeid, hn.conf, hf.bound, hf.settled, hloc,
        hrec, hA.1, hA.2.1, hD.1]
  · obtain ⟨hf, hrem⟩ := hX.freeQ
    simp [Node.vcopyParty, hn.descQ.endpoint, hn.descQ.rts, hn.descQ.nodeid, hn.conf, hf.bound,
      hf.settled, hf.rmtoper, hrem, hA.2.2.1, hA.2.2.2, hD.2]

theorem vcopyProxy_ok (hup : Cluster.ProxyUp n (n.conf.nProxies node) node) :
    n.vcopyProxy node = EMol.ok := by
  simp [Node.vcopyProxy, hup.lpid, hup.bound, hup.proxy, hup.connected]

theorem vcopyBody_ok (hX : X.Wf) (hn : X.NodeA Rts.running false ml n)
    (hv : X.Along dir v) (hpos : 0 < v.bytes) (cp : ℕ → ℤ) :
    ∃ n', (n.vcopyEnter X.r v).vcopyBody X.r v cp =
        (n', .sleep v (min (X.ca.maxbytes X.b) v.bytes)) ∧
      X.Issued dir v (min (X.ca.maxbytes X.b) v.bytes) ml n n' := by
  have hnr := ends_nr' hX hv
  have hmark : X.NodeA Rts.onlyOncopy true ml
      (((n.setOncopy X.r).setOncopy v.srcNr).setOncopy v.dstNr) := by
    refine hn.mark rfl (((hn.up.modProc _ _).modProc _ _).modProc _ _) fun i hi => ?_
    simp only [ours, decide_eq_true_eq] at hi
    simp only [Node.setOncopy_proc]
    rcases hi with rfl | rfl | rfl <;> rcases hnr with ⟨h1, h2⟩ | ⟨h1, h2⟩ <;> simp [h1, h2]
  have hn₁ : X.NodeA Rts.onlyOncopy true ml (n.vcopyEnter X.r v) :=
    hmark.modR hX ⟨rfl, rfl, rfl, rfl⟩ hmark.descR.rts
  obtain ⟨n', hissue, hi⟩ := vcopyIssue_pos hX hn₁ hv hpos
  refine ⟨n', ?_, ⟨hi.node, hi.sleeps, hi.hdr, hi.queue⟩⟩
  rw [← hissue]
  have hL := (hn₁.remoteL hX rfl).1
  have hQ := hn₁.remoteQ hX
  have hpx : (n.vcopyEnter X.r v).vcopyProxy X.b = EMol.ok := by
    refine vcopyProxy_ok ?_
    rw [hn₁.conf]
    exact hn₁.up
  rcases hnr with ⟨h1, h2⟩ | ⟨h1, h2⟩
  · simp [Node.vcopyBody, h1, h2, hL, hQ, hn₁.descQ.nodeid, hpx]
  · simp [Node.vcopyBody, h1, h2, hL, hQ, hn₁.descQ.nodeid, hpx]

theorem args_resolve (hX : X.Wf) (hn : X.NodeA Rts.running false ml n)
    (hargs : X.Args srcEp dstEp dir) :
    (if srcEp = selfEp then (n.proc X.r).endpoint else srcEp) = (X.ends dir).1 ∧
      (if srcEp ≠ selfEp ∧ dstEp = selfEp then (n.proc X.r).endpoint else dstEp) =
        (X.ends dir).2 := by
  have hL := (hX.special X.el (.inl rfl)).2.2
  have hQ := (hX.special X.eq (.inr rfl)).2.2
  cases dir with
  | copyin =>
    obtain ⟨rfl | ⟨rfl, hl⟩, rfl⟩ := hargs
    · simp [hL, hQ, ends]
    · simp [hQ, ends, hn.descR.endpoint, hX.self hl]
  | copyout =>
    obtain ⟨rfl, rfl | ⟨rfl, hl⟩⟩ := hargs
    · simp [hL, hQ, ends]
    · simp [hQ, ends, hn.descR.endpoint, hX.self hl]

theorem ends_valid (hX : X.Wf) (dir : Dir) :
    ¬ ((X.ends dir).1 = (X.ends dir).2 ∨ (X.ends dir).1 = anyEp ∨ (X.ends dir).2 = anyEp ∨
      (X.ends dir).1 = noneEp ∨ (X.ends dir).2 = noneEp) := by
  have hL := hX.special X.el (.inl rfl)
  have hQ := hX.special X.eq (.inr rfl)
  have hne : X.el ≠ X.eq := by
    intro he
    exact hX.ne_lq (by rw [← hX.endL, ← hX.endQ, he])
  cases dir with
  | copyin => simp [ends, hne, hL, hQ]
  | copyout => simp [ends, hne.symm, hL, hQ]

theorem vcopyChecked_eq (hX : X.Wf) (hn : X.NodeA Rts.running false ml n) (hv : X.Along dir v)
    (cp : ℕ → ℤ) :
    X.ca.inRange v.srcNr ∧ X.ca.inRange v.dstNr ∧ v.srcNr ≠ v.dstNr ∧
      n.vcopyChecked X.r v cp = (n.vcopyEnter X.r v).vcopyBody X.r v cp := by
  obtain ⟨-, hL, hQ⟩ := hX.rangeA
  obtain ⟨hsrc, hdst⟩ := hv
  obtain ⟨rfl, h1, h2⟩ | ⟨rfl, h1, h2⟩ := ends_nr hX ⟨hsrc, hdst⟩
  · refine ⟨h1 ▸ hL, h2 ▸ hQ, by rw [h1, h2]; exact hX.ne_lq, Node.vcopyChecked_of_ok ?_ ?_⟩
    · rw [h1, hsrc]; exact (vcopyParty_ok hX hn _).1
    · rw [h2, hdst]; exact (vcopyParty_ok hX hn _).2
  · refine ⟨h1 ▸ hQ, h2 ▸ hL, by rw [h1, h2]; exact hX.ne_lq.symm, Node.vcopyChecked_of_ok ?_ ?_⟩
    · rw [h1, hsrc]; exact (vcopyParty_ok hX hn _).2
    · rw [h2, hdst]; exact (vcopyParty_ok hX hn _).1

theorem vcopyStart_ok (hX : X.Wf) (hn : X.NodeA Rts.running false ml n)
    (hargs : X.Args srcEp dstEp dir) (saddr daddr : ℕ) {bytes : ℤ} (hpos : 0 < bytes)
    (hmax : bytes ≤ X.ca.dMaxCopylen) (cp : ℕ → ℤ) :
    let v : VcopyCall := ⟨(X.ends dir).1, (X.ends dir).2, saddr, daddr, bytes⟩
    ∃ n', n.vcopyStart X.r srcEp saddr dstEp daddr bytes cp =
        some (n', .sleep v (min (X.ca.maxbytes X.b) bytes)) ∧
      X.Issued dir v (min (X.ca.maxbytes X.b) bytes) ml n n' := by
  intro v
  obtain ⟨n', hbody, hi⟩ := vcopyBody_ok (v := v) hX hn ⟨rfl, rfl⟩ hpos cp
  refine ⟨n', ?_, hi⟩
  obtain ⟨hsrc, hdst⟩ := args_resolve hX hn hargs
  have hb : ¬ (bytes < 0 ∨ n.conf.dMaxCopylen < bytes) := by
    rw [hn.conf]
    omega
  have hdcid := hX.dcidA
  obtain ⟨hrs, hrd, hne, hcheck⟩ := vcopyChecked_eq (v := v) hX hn ⟨rfl, rfl⟩ cp
  simp only [Node.vcopyStart, hb, hsrc, hdst, ends_valid hX dir, if_false]
  change (if ¬ (0 ≤ n.conf.dcid ∧ n.conf.dcid < n.conf.dNrDcs) then _
    else if n.conf.dcFlags ≠ 0 then _ else if ¬ n.conf.inRange v.srcNr then _
    else if ¬ n.conf.inRange v.dstNr then _ else if v.srcNr = v.dstNr then _
    else some (n.vcopyChecked X.r v cp)) = _
  simp only [hn.conf, hdcid, hX.runA, hrs, hrd, hne, hcheck, hbody,
    ne_eq, not_true, and_self, if_false]
  rfl

end Steps

end Duo

end MolIpc
