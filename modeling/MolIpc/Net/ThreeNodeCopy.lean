import MolIpc.Net.TwoNodeCopy

/-!
Remote copies between three nodes.

The requester `r` of node `a` copies from the process `s` of node `b` to the process `d` of node
`k`. Each chunk goes round: node `a` asks node `b` (`CMD_COPYRMT_RQST`), which sends the data to
node `k` (`CMD_COPYIN_RQST`), which acknowledges to node `a` (`CMD_COPYRMT_ACK`).
-/

namespace MolIpc

/-- Three nodes and the processes of a copy between them, with the flags that the other descriptors
have before it, and the memory of the two ends. -/
structure Trio where
  a : ℤ
  b : ℤ
  k : ℤ
  ca : Conf
  cb : Conf
  ck : Conf
  r : ℤ
  s : ℤ
  d : ℤ
  er : ℤ
  es : ℤ
  ed : ℤ
  flagsSa : Rts
  flagsDa : Rts
  flagsRb : Rts
  flagsSb : Rts
  flagsDb : Rts
  flagsRk : Rts
  flagsSk : Rts
  flagsDk : Rts
  memS : Mem
  memD : Mem

namespace Trio

open Cluster
open Duo (Desc Free Carries flags_done ite_lt_eq_min check_of_up put_of_up)

variable {n' : Node}

def ours (X : Trio) (i : ℤ) : Bool := decide (i = X.r ∨ i = X.s ∨ i = X.d)

/-- The three nodes belong to one running DC, with limits that `mm_dvs_init` lets pass, and know the
three processes, which have no other operation in progress. -/
structure Wf (X : Trio) : Prop where
  ne_ab : X.a ≠ X.b
  ne_ak : X.a ≠ X.k
  ne_bk : X.b ≠ X.k
  localA : X.ca.localNodeid = X.a
  localB : X.cb.localNodeid = X.b
  localK : X.ck.localNodeid = X.k
  endR : endpointP X.er = X.r
  endS : endpointP X.es = X.s
  endD : endpointP X.ed = X.d
  ne_rs : X.r ≠ X.s
  ne_rd : X.r ≠ X.d
  ne_sd : X.s ≠ X.d
  special : ∀ e, e = X.es ∨ e = X.ed → e ≠ anyEp ∧ e ≠ noneEp ∧ e ≠ selfEp
  buf : 0 < X.ca.dMaxCopybuf ∧ X.ca.dMaxCopybuf ≤ maxCopyLen
  dcidB : X.ca.dcid = X.cb.dcid
  dcidK : X.ca.dcid = X.ck.dcid
  dcids : ∀ cf, cf = X.ca ∨ cf = X.cb ∨ cf = X.ck → 0 ≤ cf.dcid ∧ cf.dcid < cf.dNrDcs
  run : ∀ cf, cf = X.ca ∨ cf = X.cb ∨ cf = X.ck → cf.dcFlags = 0
  range : ∀ cf, cf = X.ca ∨ cf = X.cb ∨ cf = X.ck →
    cf.inRange X.r ∧ cf.inRange X.s ∧ cf.inRange X.d
  nodes : 0 ≤ X.b ∧ X.b < X.ca.dNrNodes ∧ 0 ≤ X.k ∧ X.k < X.ca.dNrNodes
  dcNodes : X.ca.dcNodes X.b = true ∧ X.ca.dcNodes X.k = true ∧ X.cb.dcNodes X.a = true ∧
    X.ck.dcNodes X.b = true
  nDcs : X.ca.nDcs X.b X.ca.dcid = true ∧ X.cb.nDcs X.k X.cb.dcid = true ∧
    X.ck.nDcs X.a X.ck.dcid = true
  remote : ∀ f, f = X.flagsSa ∨ f = X.flagsDa ∨ f = X.flagsRb ∨ f = X.flagsDb ∨ f = X.flagsRk ∨
    f = X.flagsSk → Free f ∧ f.remote = true
  isLocal : ∀ f, f = X.flagsSb ∨ f = X.flagsDk → Free f ∧ f.remote = false

section Wf

variable {X : Trio} (hX : X.Wf)

include hX

theorem Wf.flagsSa : Free X.flagsSa ∧ X.flagsSa.remote = true := hX.remote _ (.inl rfl)
theorem Wf.flagsDa : Free X.flagsDa ∧ X.flagsDa.remote = true := hX.remote _ (.inr (.inl rfl))

theorem Wf.flagsRb : Free X.flagsRb ∧ X.flagsRb.remote = true :=
  hX.remote _ (.inr (.inr (.inl rfl)))

theorem Wf.flagsDb : Free X.flagsDb ∧ X.flagsDb.remote = true :=
  hX.remote _ (.inr (.inr (.inr (.inl rfl))))

theorem Wf.flagsRk : Free X.flagsRk ∧ X.flagsRk.remote = true :=
  hX.remote _ (.inr (.inr (.inr (.inr (.inl rfl)))))

theorem Wf.flagsSk : Free X.flagsSk ∧ X.flagsSk.remote = true :=
  hX.remote _ (.inr (.inr (.inr (.inr (.inr rfl)))))

theorem Wf.flagsSb : Free X.flagsSb ∧ X.flagsSb.remote = false := hX.isLocal _ (.inl rfl)
theorem Wf.flagsDk : Free X.flagsDk ∧ X.flagsDk.remote = false := hX.isLocal _ (.inr rfl)

end Wf

/-! ### What a node knows of the copy -/

/-- A node with the configuration `cf`, proxies to the nodes `i` and `j`, and its flags of the three
processes. -/
structure Sees (X : Trio) (cf : Conf) (i j : ℤ) (fr fs fd : Rts) (n : Node) : Prop where
  conf : n.conf = cf
  up₁ : ProxyUp n (cf.nProxies i) i
  up₂ : ProxyUp n (cf.nProxies j) j
  descR : Desc (n.proc X.r) X.er X.a fr
  descS : Desc (n.proc X.s) X.es X.b fs
  descD : Desc (n.proc X.d) X.ed X.k fd

/-- Node `a`, with the flags of the requester and the bit `ONCOPY` of the others. -/
structure NodeA (X : Trio) (rr : Rts) (busy : Bool) (n : Node) : Prop extends
    X.Sees X.ca X.b X.k rr { X.flagsSa with oncopy := busy } { X.flagsDa with oncopy := busy } n
  where
  stay : (n.proc X.r).misc.needmigr = false

structure NodeB (X : Trio) (fd : Rts) (n : Node) : Prop extends
    X.Sees X.cb X.a X.k X.flagsRb X.flagsSb fd n where
  mem : (n.proc X.s).mem = X.memS

/-- Node `k`, with the flags of its descriptor of `r` and the memory of `d`. -/
structure NodeK (X : Trio) (fr : Rts) (md : Mem) (n : Node) : Prop extends
    X.Sees X.ck X.a X.b fr X.flagsSk X.flagsDk n where
  mem : (n.proc X.d).mem = md

def KeepDesc (p p' : Proc) : Prop := p'.endpoint = p.endpoint ∧ p'.nodeid = p.nodeid

section Keep

variable {X : Trio} {cf : Conf} {i j : ℤ} {fr fs fd fr' fd' : Rts} {n : Node} {f : Proc → Proc}

theorem Sees.modR (hX : X.Wf) (h : X.Sees cf i j fr fs fd n)
    (hkeep : KeepDesc (n.proc X.r) (f (n.proc X.r))) (hrts : (f (n.proc X.r)).rts = fr') :
    X.Sees cf i j fr' fs fd (n.modProc X.r f) := by
  refine ⟨h.conf, h.up₁.modProc _ _, h.up₂.modProc _ _, ?_, ?_, ?_⟩
  · rw [Node.modProc_same]
    exact ⟨hkeep.1.trans h.descR.1, hkeep.2.trans h.descR.2, hrts⟩
  · rw [Node.modProc_of_ne _ _ hX.ne_rs.symm]
    exact h.descS
  · rw [Node.modProc_of_ne _ _ hX.ne_rd.symm]
    exact h.descD

theorem Sees.modD (hX : X.Wf) (h : X.Sees cf i j fr fs fd n)
    (hkeep : KeepDesc (n.proc X.d) (f (n.proc X.d))) (hrts : (f (n.proc X.d)).rts = fd') :
    X.Sees cf i j fr fs fd' (n.modProc X.d f) := by
  refine ⟨h.conf, h.up₁.modProc _ _, h.up₂.modProc _ _, ?_, ?_, ?_⟩
  · rw [Node.modProc_of_ne _ _ hX.ne_rd]
    exact h.descR
  · rw [Node.modProc_of_ne _ _ hX.ne_sd]
    exact h.descS
  · rw [Node.modProc_same]
    exact ⟨hkeep.1.trans h.descD.1, hkeep.2.trans h.descD.2, hrts⟩

section

variable (h : X.Sees cf i j fr fs fd n)

include h

theorem Sees.unlink (x : ℤ) : X.Sees cf i j fr fs fd (n.unlink x) :=
  ⟨h.conf, h.up₁.unlink x, h.up₂.unlink x, ⟨h.descR.1, h.descR.2, h.descR.3⟩,
    ⟨h.descS.1, h.descS.2, h.descS.3⟩, ⟨h.descD.1, h.descD.2, h.descD.3⟩⟩

theorem Sees.enqueue (px x : ℤ) :
    X.Sees cf i j fr fs fd (n.modSproxy px fun sp => sp.enqueueCaller x) :=
  ⟨h.conf, h.up₁.enqueue px x, h.up₂.enqueue px x, h.descR, h.descS, h.descD⟩

theorem Sees.congr (hconf : n'.conf = n.conf) (hup : ∀ px m, ProxyUp n px m → ProxyUp n' px m)
    (hproc : ∀ y, KeepDesc (n.proc y) (n'.proc y) ∧
      (X.ours y = true → (n'.proc y).rts = (n.proc y).rts)) : X.Sees cf i j fr fs fd n' := by
  have hdesc : ∀ {y ep node f}, X.ours y = true → Desc (n.proc y) ep node f →
      Desc (n'.proc y) ep node f := fun {y} _ _ _ hy hd =>
    ⟨(hproc y).1.1.trans hd.1, (hproc y).1.2.trans hd.2, ((hproc y).2 hy).trans hd.3⟩
  exact ⟨hconf.trans h.conf, hup _ _ h.up₁, hup _ _ h.up₂, hdesc (by simp [ours]) h.descR,
    hdesc (by simp [ours]) h.descS, hdesc (by simp [ours]) h.descD⟩

theorem Sees.clearOncopy (hf : fr.oncopy = false ∧ fs.oncopy = false ∧ fd.oncopy = false) (x : ℤ) :
    X.Sees cf i j fr fs fd (n.clearOncopy x) := by
  refine h.congr rfl (fun _ _ hp => hp.modProc _ _) fun y => ⟨?_, fun hy => ?_⟩
  · rw [Node.clearOncopy_proc]
    exact ⟨rfl, rfl⟩
  · have ho : (n.proc y).rts.oncopy = false := by
      simp only [ours, decide_eq_true_eq] at hy
      rcases hy with rfl | rfl | rfl
      · rw [h.descR.rts, hf.1]
      · rw [h.descS.rts, hf.2.1]
      · rw [h.descD.rts, hf.2.2]
    rw [Node.clearOncopy_proc]
    simp only [ho, Bool.false_and]
    rw [← ho]

theorem Sees.modMem (x : ℤ) (g : Mem → Mem) :
    X.Sees cf i j fr fs fd (n.modProc x fun p => { p with mem := g p.mem }) := by
  have hproc : ∀ y, KeepDesc (n.proc y) ((n.modProc x fun p => { p with mem := g p.mem }).proc y) ∧
      ((n.modProc x fun p => { p with mem := g p.mem }).proc y).rts = (n.proc y).rts := by
    intro y
    by_cases hy : y = x
    · subst hy
      rw [Node.modProc_same]
      exact ⟨⟨rfl, rfl⟩, rfl⟩
    · rw [Node.modProc_of_ne _ _ hy]
      exact ⟨⟨rfl, rfl⟩, rfl⟩
  exact h.congr rfl (fun _ _ hp => hp.modProc _ _) fun y => ⟨(hproc y).1, fun _ => (hproc y).2⟩

end

end Keep

/-! ### Headers -/

def block (X : Trio) (v : VcopyCall) (len : ℤ) : Vcopy where
  src := X.es
  dst := X.ed
  rqtr := X.er
  saddr := v.saddr
  daddr := v.daddr
  bytes := len

structure IsHdr (X : Trio) (v : VcopyCall) (len : ℤ) (cmd : Cmd) (src dst snode dnode : ℤ)
    (h : Hdr) : Prop where
  cmd : h.cmd = cmd
  dcid : h.dcid = X.ca.dcid
  src : h.src = src
  dst : h.dst = dst
  snode : h.snode = snode
  dnode : h.dnode = dnode
  rcode : h.rcode = EMol.ok
  vcopy : h.vcopy = X.block v len

def IsReq (X : Trio) (v : VcopyCall) (len : ℤ) : Hdr → Prop :=
  X.IsHdr v len .copyrmtRqst X.er X.es X.a X.b

/-- The data of a chunk go to the endpoint that is the number of the destination node. -/
def IsData (X : Trio) (v : VcopyCall) (len : ℤ) : Hdr → Prop :=
  X.IsHdr v len .copyinRqst X.es X.k X.b X.k

/-- The acknowledge of a chunk by the process with the endpoint `e`. -/
def IsAck (X : Trio) (v : VcopyCall) (len e : ℤ) : Hdr → Prop :=
  X.IsHdr v len .copyrmtAck e X.er X.k X.a

structure Sleeps (X : Trio) (sem : ℤ) (n : Node) : Prop where
  sem : (n.proc X.r).pseudosem = sem
  rcode : (n.proc X.r).rcode = EMol.ok

def queuedFlags : Rts := { oncopy := true, rmtoper := true }

/-- The flags of the descriptor of `d` on node `b` while it carries the data. -/
def dataFlags (X : Trio) : Rts := { X.flagsDb with oncopy := true, rmtoper := true }

/-- The flags of the descriptor of `r` on node `k` while it carries the acknowledge. -/
def ackFlags (X : Trio) : Rts := { X.flagsRk with rmtoper := true }

section Steps

variable {X : Trio} {v : VcopyCall} {len e : ℤ} {n : Node} {md pay : Mem} {h : Hdr}

def Appended (n n' : Node) (px x : ℤ) : Prop :=
  ∀ px', (n'.sproxy px').list =
    if px' = px then (n.sproxy px').list ++ [x] else (n.sproxy px').list

theorem appended_enqueue (n : Node) (f : Proc → Proc) (y px x : ℤ) :
    Appended n ((n.modProc y f).modSproxy px fun sp => sp.enqueueCaller x) px x := by
  intro px'
  by_cases hpx : px' = px
  · simp [hpx]
  · simp [hpx]

/-! ### The request leaves node `a` -/

section

variable (hX : X.Wf)

include hX

theorem check_req (hn : X.NodeA queuedFlags true n) (hh : X.IsReq v len (n.proc X.r).rmtcmd) :
    n.get2rmtCheck (X.ca.nProxies X.b) X.r = EMol.ok :=
  check_of_up hn.up₁ hn.conf (hX.dcids _ (.inl rfl)) (hX.run _ (.inl rfl)) hX.nDcs.1 hh.dnode
    hn.descR.rts rfl rfl

theorem send_req (hn : X.NodeA queuedFlags true n) (hs : X.Sleeps (-1) n)
    (hh : X.IsReq v len (n.proc X.r).rmtcmd) (pay : Mem) :
    ∃ n' h, n.get2rmtSend X.r EMol.ok pay 0 = some (n', pay, .hdr h) ∧
      X.NodeA Rts.onlyOncopy true n' ∧ X.Sleeps (-1) n' ∧ X.IsReq v len h := by
  have hdst : endpointP (n.proc X.r).rmtcmd.dst = X.s := by rw [hh.dst, hX.endS]
  have hcmd : (n.proc X.r).rmtcmd.cmd = .copyrmtRqst := hh.cmd
  refine ⟨_, _, Node.get2rmtSend_request ?_ ?_ ?_ (by simp [Node.get2rmtRequest, hcmd]),
    ⟨hn.toSees.modR hX ⟨rfl, rfl⟩ ?_, ?_⟩, ⟨?_, ?_⟩, hh⟩
  · rw [hn.descR.rts]
    rfl
  · rw [hdst]
    exact hX.ne_rs.symm
  · rw [hdst, hh.dnode, hn.descS.nodeid]
  · rw [hn.descR.rts]
    rfl
  · rw [Node.modProc_same, hn.stay]
  · rw [Node.modProc_same, hs.sem]
  · rw [Node.modProc_same, hs.rcode]

/-! ### The request reaches node `b` -/

theorem put_req_cmd (hn : X.NodeB X.flagsDb n) (hh : X.IsReq v len h) :
    n.put2lcl (X.cb.nProxies X.a) h pay 0 =
      if X.flagsRb.sending then some (n, EMol.enqueued) else n.put2lclCmd h pay 0 := by
  have hB : X.cb = X.ca ∨ X.cb = X.cb ∨ X.cb = X.ck := .inr (.inl rfl)
  obtain ⟨hr, hs, -⟩ := hX.range _ hB
  obtain ⟨⟨hb, -, ho, -⟩, hrem⟩ := hX.flagsRb
  obtain ⟨⟨hb', -, -, hm⟩, hloc⟩ := hX.flagsSb
  have hR : Desc (n.proc X.r) h.src h.snode X.flagsRb := by
    rw [hh.src, hh.snode]
    exact hn.descR
  have hS : Desc (n.proc X.s) h.dst X.cb.localNodeid X.flagsSb := by
    rw [hh.dst, hX.localB]
    exact hn.descS
  exact put_of_up hn.up₁ hn.conf ⟨hh.dcid.trans hX.dcidB, hX.dcids _ hB⟩ (hX.run _ hB)
    ⟨hh.src ▸ hX.endR, hr⟩ ⟨hh.dst ▸ hX.endS, hs⟩ hX.ne_rs (hh.snode ▸ hX.dcNodes.2.2.1)
    (hh.dnode.trans hX.localB.symm) hR ⟨hb, ho, hrem⟩ hS ⟨hb', hm, hloc⟩

theorem copyrmtRqst_req (hn : X.NodeB X.flagsDb n) (hh : X.IsReq v len h)
    (hlen : 0 < len ∧ len ≤ maxCopyLen) :
    n.put2lclCmd h pay 0 =
      if X.flagsDb.sending then some (n, EMol.enqueued)
      else some ((n.modProc X.d fun p =>
        { p with
          rmtcmd := { p.rmtcmd with vcopy := h.vcopy }
          rts := { p.rts with oncopy := true } }).copyinRqstLcl2rmt X.d X.s) := by
  have hsrc : endpointP h.src = X.r := by rw [hh.src, hX.endR]
  have hdst : endpointP h.dst = X.s := by rw [hh.dst, hX.endS]
  have hD : endpointP h.vcopy.dst = X.d := by rw [hh.vcopy]; exact hX.endD
  have hcmd : h.cmd = .copyrmtRqst := hh.cmd
  have hcheck : n.copyRqstCheck h X.s = EMol.ok := by
    have hbytes : Node.bytesOk h maxCopyLen := by
      rw [Node.bytesOk, hh.vcopy]
      exact hlen
    have hvsrc : h.vcopy.src = X.es := by rw [hh.vcopy]; rfl
    have hrange := (hX.range X.cb (.inr (.inl rfl))).2.2
    simp [Node.copyRqstCheck, hbytes, hn.descS.rts, hX.flagsSb.1.oncopy, hn.descS.endpoint, hvsrc,
      hD, hn.conf, hrange]
  have hclear : (n.clearOncopy X.s).clearOncopy X.r = n := by
    rw [Node.clearOncopy_eq_self, Node.clearOncopy_eq_self]
    · rw [hn.descS.rts, hX.flagsSb.1.oncopy]
    · rw [Node.clearOncopy_eq_self]
      · rw [hn.descR.rts, hX.flagsRb.1.oncopy]
      · rw [hn.descS.rts, hX.flagsSb.1.oncopy]
  have hdcheck : n.copyrmtDstCheck h X.d =
      if X.flagsDb.sending then EMol.enqueued else EMol.ok := by
    have hvdst : h.vcopy.dst = X.ed := by rw [hh.vcopy]; rfl
    simp [Node.copyrmtDstCheck, hn.descD.rts, hX.flagsDb.2, hX.flagsDb.1.bound, hn.descD.endpoint,
      hvdst, hX.flagsDb.1.oncopy, hX.flagsDb.1.rmtoper]
  simp only [Node.put2lclCmd, hcmd, hsrc, hdst, Node.copyrmtRqstRmt2lcl, hcheck, hD, hclear, hdcheck,
    hX.ne_sd.symm, hX.ne_rd.symm, ne_eq, not_true, or_self, if_false]
  cases X.flagsDb.sending
  · simp
  · simp [EMol.enqueued, EMol.ok]

theorem put_req (hn : X.NodeB X.flagsDb n) (hh : X.IsReq v len h)
    (hlen : 0 < len ∧ len ≤ maxCopyLen) (hR : X.flagsRb.sending = false)
    (hD : X.flagsDb.sending = false) :
    ∃ n', n.put2lcl (X.cb.nProxies X.a) h pay 0 = some (n', EMol.ok) ∧
      X.NodeB X.dataFlags n' ∧ X.IsData v len (n'.proc X.d).rmtcmd ∧
      Appended n n' (X.cb.nProxies X.k) X.d := by
  have hput : n.put2lcl (X.cb.nProxies X.a) h pay 0 = n.put2lclCmd h pay 0 := by
    rw [put_req_cmd hX hn hh, hR]
    rfl
  let f : Proc → Proc := fun p =>
    { p with
      rmtcmd := { p.rmtcmd with
        cmd := .copyinRqst, dcid := n.conf.dcid, src := X.es, dst := p.nodeid
        snode := n.conf.localNodeid, dnode := p.nodeid, len := h.vcopy.bytes, rcode := EMol.ok
        vcopy := h.vcopy }
      rts := { p.rts with oncopy := true, rmtoper := true } }
  have hf : ((n.modProc X.d fun p =>
      { p with
        rmtcmd := { p.rmtcmd with vcopy := h.vcopy }
        rts := { p.rts with oncopy := true } }).copyinRqstLcl2rmt X.d X.s) =
      (n.modProc X.d f).sproxyEnqueue X.d := by
    simp only [Node.copyinRqstLcl2rmt, Node.modProc_of_ne _ _ hX.ne_sd, hn.descS.endpoint, f]
    simp [Node.modProc]
  have hn₁ : X.Sees X.cb X.a X.k X.flagsRb X.flagsSb X.dataFlags (n.modProc X.d f) :=
    hn.toSees.modD hX ⟨rfl, rfl⟩ (by simp only [f, hn.descD.rts]; rfl)
  have hpx : (n.modProc X.d f).conf.nProxies ((n.modProc X.d f).proc X.d).rmtcmd.dnode =
      X.cb.nProxies X.k := by
    rw [hn₁.conf, Node.modProc_same]
    exact congrArg _ hn.descD.nodeid
  have henq := hn₁.up₂.sproxyEnqueue hpx
  have hn₂ := hn₁.modD hX (f := fun p => { p with proxy := X.cb.nProxies X.k }) ⟨rfl, rfl⟩
    hn₁.descD.rts
  refine ⟨_, ?_, ⟨hn₂.enqueue (X.cb.nProxies X.k) X.d, ?_⟩, ?_, ?_⟩
  · rw [hput, copyrmtRqst_req hX hn hh hlen, hD, hf, henq]
    simp
  · simpa [hX.ne_sd] using hn.mem
  · simp only [Node.modSproxy_proc, Node.modProc_same, f]
    exact ⟨rfl, by rw [hn.conf, ← hX.dcidB], rfl, hn.descD.nodeid, by rw [hn.conf, hX.localB],
      hn.descD.nodeid, rfl, hh.vcopy⟩
  · exact appended_enqueue (n.modProc X.d f) _ _ _ _

theorem put_req_enqueued (hn : X.NodeB X.flagsDb n) (hh : X.IsReq v len h)
    (hlen : 0 < len ∧ len ≤ maxCopyLen)
    (hsend : ¬ (X.flagsRb.sending = false ∧ X.flagsDb.sending = false)) :
    n.put2lcl (X.cb.nProxies X.a) h pay 0 = some (n, EMol.enqueued) := by
  rw [put_req_cmd hX hn hh, copyrmtRqst_req hX hn hh hlen]
  cases hR : X.flagsRb.sending with
  | true => rfl
  | false =>
    cases hD : X.flagsDb.sending with
    | true => rfl
    | false => exact absurd ⟨hR, hD⟩ hsend

/-! ### The data leave node `b` -/

theorem check_data (hn : X.NodeB X.dataFlags n) (hh : X.IsData v len (n.proc X.d).rmtcmd) :
    n.get2rmtCheck (X.cb.nProxies X.k) X.d = EMol.ok :=
  check_of_up hn.up₂ hn.conf (hX.dcids _ (.inr (.inl rfl))) (hX.run _ (.inr (.inl rfl)))
    hX.nDcs.2.1 hh.dnode hn.descD.rts hX.flagsDb.1.bound hX.flagsDb.1.settled

theorem send_data (hn : X.NodeB X.dataFlags n) (hD : X.flagsDb.sending = false)
    (hh : X.IsData v len (n.proc X.d).rmtcmd) (pay : Mem) :
    ∃ n' pay' h, n.get2rmtSend X.d EMol.ok pay 0 = some (n', pay', .hdr h) ∧
      X.NodeB X.flagsDb n' ∧ X.IsData v len h ∧ Carries pay' X.memS v.saddr len := by
  have hrem : (n.proc X.d).rts.remote = true := by
    rw [hn.descD.rts]
    exact hX.flagsDb.2
  have hsrc : (n.proc X.s).endpoint = (n.proc X.d).rmtcmd.src := by rw [hn.descS.endpoint, hh.src]
  have hcmd : (n.proc X.d).rmtcmd.cmd = .copyinRqst := hh.cmd
  have hclear : n.clearOncopy X.s = n := by
    rw [Node.clearOncopy_eq_self]
    rw [hn.descS.rts, hX.flagsSb.1.oncopy]
  have hack : n.get2rmtAck X.d pay 0 =
      some (n.clearOncopy X.d, pay.blit 0 X.memS v.saddr len.toNat, EMol.ok) := by
    simp [Node.get2rmtAck, hcmd, hh.vcopy, block, hX.endS, hX.ne_sd, hsrc, hh.rcode,
      Node.copyPayload, hn.mem, EMol.ok, hclear]
  have hn₁ : X.Sees X.cb X.a X.k X.flagsRb X.flagsSb { X.dataFlags with oncopy := false }
      (n.clearOncopy X.d) := hn.toSees.modD hX ⟨rfl, rfl⟩ (by rw [hn.descD.rts])
  refine ⟨_, _, _, Node.get2rmtSend_ack hrem hack, ⟨hn₁.modD hX ⟨rfl, rfl⟩ ?_, ?_⟩, ?_, ⟨pay, rfl⟩⟩
  · simp only [Proc.endSend, hn₁.descD.rts]
    exact flags_done hX.flagsDb.1 hD false rfl
  · simpa [Node.clearOncopy, hX.ne_sd] using hn.mem
  · simpa [Node.clearOncopy] using hh

end

/-! ### The data reach node `k` -/

def served (X : Trio) (n : Node) (h : Hdr) (pay : Mem) (x : ℤ) : Node :=
  ((((n.clearOncopy x).clearOncopy X.s).modProc x fun p =>
      { p with mem := p.mem.blit h.vcopy.daddr pay 0 h.vcopy.bytes.toNat }).modProc X.r fun p =>
      { p with rmtcmd := { p.rmtcmd with vcopy := h.vcopy } }).genericAckLcl2rmt .copyrmtAck X.r x
    EMol.ok |>.1

theorem served_spec (hX : X.Wf) (hn : X.NodeK X.flagsRk md n) (hh : X.IsData v len h)
    (hpay : Carries pay X.memS v.saddr len) {x : ℤ} (hx : x ≠ X.r) (he : (n.proc x).endpoint = e) :
    X.NodeK X.ackFlags
        (if x = X.d then md.blit v.daddr X.memS v.saddr len.toNat else md) (X.served n h pay x) ∧
      X.IsAck v len e ((X.served n h pay x).proc X.r).rmtcmd ∧
      Appended n (X.served n h pay x) (X.ck.nProxies X.a) X.r := by
  have hfree : X.flagsRk.oncopy = false ∧ X.flagsSk.oncopy = false ∧ X.flagsDk.oncopy = false :=
    ⟨hX.flagsRk.1.oncopy, hX.flagsSk.1.oncopy, hX.flagsDk.1.oncopy⟩
  let n₁ := ((n.clearOncopy x).clearOncopy X.s).modProc x fun p =>
    { p with mem := p.mem.blit h.vcopy.daddr pay 0 h.vcopy.bytes.toNat }
  have hn₁ : X.Sees X.ck X.a X.b X.flagsRk X.flagsSk X.flagsDk n₁ :=
    ((hn.toSees.clearOncopy hfree x).clearOncopy hfree X.s).modMem x
      fun m => m.blit h.vcopy.daddr pay 0 h.vcopy.bytes.toNat
  have hend : (n₁.proc x).endpoint = e := by
    simpa [n₁, Node.clearOncopy_proc] using he
  let f : Proc → Proc := fun p =>
    { p with
      rts := { p.rts with rmtoper := true }
      rmtcmd := { p.rmtcmd with
        cmd := .copyrmtAck, dcid := n₁.conf.dcid, src := e, dst := p.endpoint
        snode := n₁.conf.localNodeid, dnode := p.nodeid, len := 0, rcode := EMol.ok
        vcopy := h.vcopy } }
  have hf : X.served n h pay x = ((n₁.modProc X.r f).sproxyEnqueue X.r).1 := by
    simp only [served, Node.genericAckLcl2rmt, Node.modProc_of_ne _ _ hx, f]
    rw [show (((n.clearOncopy x).clearOncopy X.s).modProc x fun p =>
      { p with mem := p.mem.blit h.vcopy.daddr pay 0 h.vcopy.bytes.toNat }) = n₁ from rfl, hend]
    simp [Node.modProc]
  have hn₂ : X.Sees X.ck X.a X.b X.ackFlags X.flagsSk X.flagsDk (n₁.modProc X.r f) :=
    hn₁.modR hX ⟨rfl, rfl⟩ (by simp only [f, hn₁.descR.rts]; rfl)
  have hpx : (n₁.modProc X.r f).conf.nProxies ((n₁.modProc X.r f).proc X.r).rmtcmd.dnode =
      X.ck.nProxies X.a := by
    rw [hn₂.conf, Node.modProc_same]
    exact congrArg _ hn₁.descR.nodeid
  have hn₃ := hn₂.modR hX (f := fun p => { p with proxy := X.ck.nProxies X.a }) ⟨rfl, rfl⟩
    hn₂.descR.rts
  rw [hf, hn₂.up₁.sproxyEnqueue hpx]
  refine ⟨⟨hn₃.enqueue (X.ck.nProxies X.a) X.r, ?_⟩, ?_, ?_⟩
  · have hbytes : h.vcopy.bytes = len := by rw [hh.vcopy]; rfl
    have hdaddr : h.vcopy.daddr = v.daddr := by rw [hh.vcopy]; rfl
    obtain ⟨old, rfl⟩ := hpay
    by_cases hxd : x = X.d
    · subst hxd
      simp [n₁, hX.ne_rd.symm, Node.clearOncopy_proc, hn.mem, hbytes, hdaddr, Mem.blit_payload]
    · simp [n₁, hX.ne_rd.symm, Node.clearOncopy_proc, hn.mem, hxd, Ne.symm hxd]
  · simp only [Node.modSproxy_proc, Node.modProc_same, f]
    exact ⟨rfl, by rw [hn₁.conf, hX.dcidK], rfl, hn₁.descR.endpoint, by rw [hn₁.conf, hX.localK],
      hn₁.descR.nodeid, rfl, hh.vcopy⟩
  · exact appended_enqueue (n₁.modProc X.r f) _ _ _ _

/-- What stands between the data and the process `x` that their header names. -/
def dataCode (X : Trio) (len : ℤ) : ℤ :=
  if ¬ (0 < len ∧ len ≤ X.ck.maxbytes X.b) then EMol.range
  else if X.flagsRk.sending then EMol.enqueued
  else EMol.ok

section Handler

variable (hX : X.Wf) (hn : X.NodeK X.flagsRk md n) {h : Hdr} (hh : X.IsData v len h)
  (hx : endpointP X.k ≠ X.r) (pay : Mem)

include hX hn hh hx

theorem copyinRqst_code : (n.put2lclCmd h pay 0).map Prod.snd = some (X.dataCode len) := by
  have hfree : X.flagsRk.oncopy = false ∧ X.flagsSk.oncopy = false ∧ X.flagsDk.oncopy = false :=
    ⟨hX.flagsRk.1.oncopy, hX.flagsSk.1.oncopy, hX.flagsDk.1.oncopy⟩
  have hn₀ : X.Sees X.ck X.a X.b X.flagsRk X.flagsSk X.flagsDk
      ((n.clearOncopy (endpointP X.k)).clearOncopy X.s) :=
    (hn.toSees.clearOncopy hfree _).clearOncopy hfree X.s
  have hrq : endpointP h.vcopy.rqtr = X.r := by rw [hh.vcopy]; exact hX.endR
  have hcmd : h.cmd = .copyinRqst := hh.cmd
  have hbytes : Node.bytesOk h (X.ck.maxbytes X.b) ↔ 0 < len ∧ len ≤ X.ck.maxbytes X.b := by
    rw [Node.bytesOk, hh.vcopy]
    rfl
  simp [Node.put2lclCmd, hcmd, hh.src, hX.endS, hh.dst, Node.copyinRqstRmt2lcl, hrq, hx.symm,
    hX.ne_rs, hn₀.descR.rts, hn.conf, hh.snode, hbytes, hX.flagsRk.2, hX.flagsRk.1.oncopy,
    hX.flagsRk.1.rmtoper, dataCode, EMol.ok]

theorem copyinRqst_served (hcode : X.dataCode len = EMol.ok) :
    n.put2lclCmd h pay 0 = some (X.served n h pay (endpointP X.k), EMol.ok) := by
  have hrq : endpointP h.vcopy.rqtr = X.r := by rw [hh.vcopy]; exact hX.endR
  have hcmd : h.cmd = .copyinRqst := hh.cmd
  have hret := copyinRqst_code hX hn hh hx pay
  simp only [Node.put2lclCmd, hcmd, hh.src, hX.endS, hh.dst, Node.copyinRqstRmt2lcl, hrq, hx.symm,
    hX.ne_rs, or_self, if_false, hcode, Option.map_some, Option.some.injEq] at hret ⊢
  simp only [hret, if_true, ne_eq, show EMol.ok ≠ EMol.enqueued by decide, not_false_eq_true]
  rfl

end Handler

theorem put2lclReject_ne_ok {ret : ℤ} (hret : ret ≠ EMol.ok) :
    (n.put2lclReject h ret).2 ≠ EMol.ok := by
  unfold Node.put2lclReject
  dsimp only
  split
  · exact hret
  split
  · exact hret
  split
  · split
    · exact (by decide : EMol.lclproc ≠ EMol.ok)
    · exact hret
  split <;> exact hret

section

variable (hX : X.Wf)

include hX

theorem put_data (hn : X.NodeK X.flagsRk md n) (hh : X.IsData v len h)
    (hpay : Carries pay X.memS v.saddr len) (hname : X.ed = X.k) (hcode : X.dataCode len = EMol.ok)
    (hS : X.flagsSk.sending = false) :
    ∃ n', n.put2lcl (X.ck.nProxies X.b) h pay 0 = some (n', EMol.ok) ∧
      X.NodeK X.ackFlags (md.blit v.daddr X.memS v.saddr len.toNat) n' ∧
      X.IsAck v len X.ed (n'.proc X.r).rmtcmd ∧ Appended n n' (X.ck.nProxies X.a) X.r := by
  have hd : endpointP X.k = X.d := by rw [← hname, hX.endD]
  have hK : X.ck = X.ca ∨ X.ck = X.cb ∨ X.ck = X.ck := .inr (.inr rfl)
  obtain ⟨-, hrs, hrd⟩ := hX.range _ hK
  obtain ⟨⟨hb, -, ho, -⟩, hrem⟩ := hX.flagsSk
  obtain ⟨⟨hb', -, -, hm⟩, hloc⟩ := hX.flagsDk
  have hdS : Desc (n.proc X.s) h.src h.snode X.flagsSk := by
    rw [hh.src, hh.snode]
    exact hn.descS
  have hdD : Desc (n.proc X.d) h.dst X.ck.localNodeid X.flagsDk := by
    rw [hh.dst, ← hname, hX.localK]
    exact hn.descD
  have hput : n.put2lcl (X.ck.nProxies X.b) h pay 0 = _ := put_of_up hn.up₂ hn.conf
    ⟨hh.dcid.trans hX.dcidK, hX.dcids _ hK⟩ (hX.run _ hK) ⟨hh.src ▸ hX.endS, hrs⟩
    ⟨hh.dst ▸ hd, hrd⟩ hX.ne_sd (hh.snode ▸ hX.dcNodes.2.2.2) (hh.dnode.trans hX.localK.symm) hdS
    ⟨hb, ho, hrem⟩ hdD ⟨hb', hm, hloc⟩
  have hx : endpointP X.k ≠ X.r := by
    rw [hd]
    exact hX.ne_rd.symm
  have hspec := served_spec hX hn hh hpay hx (hd ▸ hn.descD.endpoint)
  rw [if_pos hd] at hspec
  refine ⟨_, ?_, hspec⟩
  rw [hput, hS]
  exact copyinRqst_served hX hn hh hx pay hcode

theorem put_data_inv (hn : X.NodeK X.flagsRk md n) (hh : X.IsData v len h)
    (hpay : Carries pay X.memS v.saddr len)
    (hput : n.put2lcl (X.ck.nProxies X.b) h pay 0 = some (n', EMol.ok)) :
    X.dataCode len = EMol.ok ∧ X.flagsSk.sending = false ∧
      (∃ md', X.NodeK X.ackFlags md' n') ∧ X.IsAck v len X.k (n'.proc X.r).rmtcmd ∧
      Appended n n' (X.ck.nProxies X.a) X.r := by
  unfold Node.put2lcl at hput
  dsimp only at hput
  split at hput
  · rename_i he
    simp only [Option.some.injEq, Prod.mk.injEq] at hput
    exact absurd hput.2 he
  split at hput
  · exact absurd hput.symm (Option.some_ne_none _)
  split at hput
  · rename_i hc
    exact absurd (congrArg Prod.snd (Option.some.inj hput)) (put2lclReject_ne_ok hc)
  rename_i hcheck
  have hcheck : n.put2lclCheck h = EMol.ok := not_not.1 hcheck
  -- the checks on the two descriptors
  have hends : X.flagsSk.sending = false ∧ (n.proc (endpointP X.k)).rts.remote = false ∧
      (n.proc (endpointP X.k)).endpoint = X.k := by
    have hS := hX.flagsSk
    simp only [Node.put2lclCheck, hh.src, hh.dst, hh.snode, hX.endS, hn.descS.rts,
      hn.descS.endpoint, hn.descS.nodeid, hS.1.bound, hS.2, hS.1.rmtoper] at hcheck
    cases hsend : X.flagsSk.sending with
    | true =>
      rw [hsend] at hcheck
      simp [EMol.enqueued, EMol.ok] at hcheck
    | false =>
      refine ⟨rfl, ?_⟩
      rw [hsend] at hcheck
      repeat' split at hcheck
      all_goals first | exact absurd hcheck (by decide) | simp_all
  obtain ⟨hsend, hloc, hend⟩ := hends
  have hx : endpointP X.k ≠ X.r := by
    intro hx
    rw [hx, hn.descR.rts, hX.flagsRk.2] at hloc
    exact absurd hloc (by decide)
  have hcode : X.dataCode len = EMol.ok := by
    have hmap := copyinRqst_code hX hn hh hx pay
    rw [hput] at hmap
    exact (Option.some.inj hmap).symm
  rw [copyinRqst_served hX hn hh hx pay hcode, Option.some.injEq, Prod.mk.injEq] at hput
  obtain ⟨hK, hack, happ⟩ := served_spec hX hn hh hpay hx hend
  rw [← hput.1]
  exact ⟨hcode, hsend, ⟨_, hK⟩, hack, happ⟩

/-! ### The acknowledge leaves node `k` -/

theorem check_ack (hn : X.NodeK X.ackFlags md n) (hh : X.IsAck v len e (n.proc X.r).rmtcmd) :
    n.get2rmtCheck (X.ck.nProxies X.a) X.r = EMol.ok :=
  check_of_up hn.up₁ hn.conf (hX.dcids _ (.inr (.inr rfl))) (hX.run _ (.inr (.inr rfl)))
    hX.nDcs.2.2 hh.dnode hn.descR.rts hX.flagsRk.1.bound hX.flagsRk.1.settled

theorem NodeK.clear (hn : X.NodeK X.ackFlags md n) :
    ((n.clearOncopy X.s).clearOncopy X.d).clearOncopy X.r = n := by
  have hs : n.clearOncopy X.s = n := by
    rw [Node.clearOncopy_eq_self]
    rw [hn.descS.rts, hX.flagsSk.1.oncopy]
  have hd : n.clearOncopy X.d = n := by
    rw [Node.clearOncopy_eq_self]
    rw [hn.descD.rts, hX.flagsDk.1.oncopy]
  have hr : n.clearOncopy X.r = n := by
    rw [Node.clearOncopy_eq_self]
    rw [hn.descR.rts]
    exact hX.flagsRk.1.oncopy
  rw [hs, hd, hr]

theorem ack_ack (hn : X.NodeK X.ackFlags md n) (hh : X.IsAck v len e (n.proc X.r).rmtcmd)
    (pay : Mem) :
    n.get2rmtAck X.r pay 0 =
      some (n, pay, if X.ed = e then EMol.ok else EMol.badproc) := by
  have hcmd : (n.proc X.r).rmtcmd.cmd = .copyrmtAck := hh.cmd
  have hclear := hn.clear hX
  by_cases he : X.ed = e
  · subst he
    simp [Node.get2rmtAck, hcmd, hh.vcopy, block, hX.endS, hX.endD, hX.ne_rs.symm,
      hX.ne_rd.symm, hX.ne_sd, hn.descD.endpoint, hn.descR.endpoint, hh.src, hclear]
  · simp [Node.get2rmtAck, hcmd, hh.vcopy, block, hX.endS, hX.endD, hX.ne_rs.symm,
      hX.ne_rd.symm, hX.ne_sd, hn.descD.endpoint, hn.descR.endpoint, hh.src, he]

theorem send_ack (hn : X.NodeK X.ackFlags md n) (hR : X.flagsRk.sending = false)
    (hh : X.IsAck v len X.ed (n.proc X.r).rmtcmd) (pay : Mem) :
    ∃ n' h, n.get2rmtSend X.r EMol.ok pay 0 = some (n', pay, .hdr h) ∧
      X.NodeK X.flagsRk md n' ∧ X.IsAck v len X.ed h := by
  have hrem : (n.proc X.r).rts.remote = true := by
    rw [hn.descR.rts]
    exact hX.flagsRk.2
  have hack := ack_ack hX hn hh pay
  rw [if_pos rfl] at hack
  refine ⟨_, _, Node.get2rmtSend_ack hrem hack, ⟨hn.toSees.modR hX ⟨rfl, rfl⟩ ?_, ?_⟩, hh⟩
  · simp only [Proc.endSend, hn.descR.rts]
    exact flags_done hX.flagsRk.1 hR X.flagsRk.oncopy hX.flagsRk.1.oncopy
  · simpa [hX.ne_rd.symm] using hn.mem

theorem send_ack_other (hn : X.NodeK X.ackFlags md n) (he : X.ed ≠ e)
    (hh : X.IsAck v len e (n.proc X.r).rmtcmd) (pay : Mem) :
    ∃ n', n.get2rmtSend X.r EMol.ok pay 0 = some (n', pay, .fail EMol.badproc) := by
  have hrem : (n.proc X.r).rts.remote = true := by
    rw [hn.descR.rts]
    exact hX.flagsRk.2
  have hack := ack_ack hX hn hh pay
  rw [if_neg he] at hack
  refine ⟨n.get2rmtGiveUp X.r EMol.badproc, ?_⟩
  simp [Node.get2rmtSend, hrem, Node.get2rmtSendAck, hack, Node.get2rmtClose, EMol.badproc,
    EMol.ok]

/-! ### The acknowledge reaches node `a` -/

theorem put_ack_eq (hn : X.NodeA Rts.onlyOncopy true n) (hh : X.IsAck v len X.ed h) :
    n.put2lcl (X.ca.nProxies X.k) h pay 0 =
      if X.flagsDa.sending then some (n, EMol.enqueued)
      else some (n.modProc X.r fun p => if p.rts = Rts.onlyOncopy then p.up EMol.ok else p,
        EMol.ok) := by
  have hsrc : endpointP h.src = X.d := by rw [hh.src, hX.endD]
  have hdst : endpointP h.dst = X.r := by rw [hh.dst, hX.endR]
  have hA : X.ca = X.ca ∨ X.ca = X.cb ∨ X.ca = X.ck := .inl rfl
  obtain ⟨hrr, -, hrd⟩ := hX.range _ hA
  obtain ⟨⟨hb, -, ho, -⟩, hrem⟩ := hX.flagsDa
  have hD : Desc (n.proc X.d) h.src h.snode { X.flagsDa with oncopy := true } := by
    rw [hh.src, hh.snode]
    exact hn.descD
  have hR : Desc (n.proc X.r) h.dst X.ca.localNodeid Rts.onlyOncopy := by
    rw [hh.dst, hX.localA]
    exact hn.descR
  rw [put_of_up hn.up₂ hn.conf ⟨hh.dcid, hX.dcids _ hA⟩ (hX.run _ hA) ⟨hsrc, hrd⟩ ⟨hdst, hrr⟩
    hX.ne_rd.symm (hh.snode ▸ hX.dcNodes.2.1) (hh.dnode.trans hX.localA.symm) hD ⟨hb, ho, hrem⟩ hR
    ⟨rfl, rfl, rfl⟩]
  have hcmd : h.cmd = .copyrmtAck := hh.cmd
  simp [Node.put2lclCmd, hcmd, hsrc, hdst, Node.genericAckRmt2lcl, hn.descD.rts, hX.flagsDa.2,
    hn.descR.rts, hh.rcode]

theorem put_ack (hn : X.NodeA Rts.onlyOncopy true n) (hs : X.Sleeps (-1) n)
    (hh : X.IsAck v len X.ed h) (hD : X.flagsDa.sending = false) :
    ∃ n', n.put2lcl (X.ca.nProxies X.k) h pay 0 = some (n', EMol.ok) ∧
      X.NodeA Rts.onlyOncopy true n' ∧ X.Sleeps 0 n' ∧ n'.sproxy = n.sproxy := by
  have hput : n.put2lcl (X.ca.nProxies X.k) h pay 0 = _ := put_ack_eq hX hn hh
  rw [hD] at hput
  have hup : (if (n.proc X.r).rts = Rts.onlyOncopy then (n.proc X.r).up EMol.ok
      else n.proc X.r) = (n.proc X.r).up EMol.ok := if_pos hn.descR.rts
  refine ⟨_, hput, ⟨hn.toSees.modR hX ?_ ?_, ?_⟩, ⟨?_, ?_⟩, rfl⟩
  · rw [hup]
    exact ⟨rfl, rfl⟩
  · rw [hup]
    exact hn.descR.rts
  · rw [Node.modProc_same, hup]
    exact hn.stay
  · rw [Node.modProc_same, hup, Proc.up, hs.sem]
    rfl
  · rw [Node.modProc_same, hup]
    rfl

end

/-! ### The requester -/

/-- `v` is a copy from `s` to `d`. -/
def Between (X : Trio) (v : VcopyCall) : Prop := v.src = X.es ∧ v.dst = X.ed

theorem Between.srcNr (hX : X.Wf) (hv : X.Between v) : v.srcNr = X.s := by
  rw [VcopyCall.srcNr, hv.1, hX.endS]

theorem Between.dstNr (hX : X.Wf) (hv : X.Between v) : v.dstNr = X.d := by
  rw [VcopyCall.dstNr, hv.2, hX.endD]

theorem vcopyLen_eq (hX : X.Wf) (hn : X.NodeA Rts.onlyOncopy true n) (hv : X.Between v) :
    n.vcopyLen v = min X.ca.dMaxCopybuf v.bytes := by
  simp [Node.vcopyLen, hv.srcNr hX, hv.dstNr hX, hn.descS.rts, hn.descD.rts, hX.flagsSa.2,
    hX.flagsDa.2, hn.conf, ite_lt_eq_min]

theorem vcopyHdr_isReq (hX : X.Wf) (hn : X.NodeA Rts.onlyOncopy true n) (hv : X.Between v) :
    X.IsReq v len (n.vcopyHdr X.r v len) := by
  constructor <;>
    simp [Node.vcopyHdr, hv.srcNr hX, hv.dstNr hX, hn.descS.rts, hn.descD.rts, hX.flagsSa.2,
      hX.flagsDa.2, hn.descS.nodeid, hn.descD.nodeid, hX.ne_bk, hn.descS.endpoint,
      hn.descD.endpoint, hn.descR.endpoint, hn.conf, hX.localA, block]

/-- What the requester leaves on node `a` when it sleeps for a chunk. -/
structure Issued (X : Trio) (v : VcopyCall) (len : ℤ) (n n' : Node) : Prop where
  node : X.NodeA queuedFlags true n'
  sleeps : X.Sleeps (-1) n'
  hdr : X.IsReq v len (n'.proc X.r).rmtcmd
  queue : Appended n n' (X.ca.nProxies X.b) X.r

theorem vcopyIssue_pos (hX : X.Wf) (hn : X.NodeA Rts.onlyOncopy true n) (hv : X.Between v)
    (hpos : 0 < v.bytes) :
    ∃ n', n.vcopyIssue X.r v = (n', .sleep v (min X.ca.dMaxCopybuf v.bytes)) ∧
      X.Issued v (min X.ca.dMaxCopybuf v.bytes) n n' := by
  have hreq : X.IsReq v (n.vcopyLen v) (n.vcopyHdr X.r v (n.vcopyLen v)) :=
    vcopyHdr_isReq hX hn hv
  have hpx : n.conf.nProxies (n.vcopyHdr X.r v (n.vcopyLen v)).dnode = X.ca.nProxies X.b := by
    rw [hn.conf, hreq.dnode]
  have hissue := Node.vcopyIssue_of_up hpos hpx hn.up₁.sproxy_ne_free
  rw [vcopyLen_eq hX hn hv] at hissue hreq
  refine ⟨_, hissue, ⟨⟨(hn.toSees.modR hX ⟨rfl, rfl⟩ ?_).enqueue _ _, ?_⟩, ⟨?_, ?_⟩, ?_, ?_⟩⟩
  · rw [hn.descR.rts]
    rfl
  · simpa using hn.stay
  · simp
  · simp
  · simpa using hreq
  · exact appended_enqueue _ _ _ _ _

theorem NodeA.mark {busy busy' : Bool} {rr : Rts} (hn : X.NodeA rr busy n)
    (hconf : n'.conf = n.conf) (hup : ∀ px m, ProxyUp n px m → ProxyUp n' px m)
    (hproc : ∀ i, X.ours i = true →
      n'.proc i = { n.proc i with rts := { (n.proc i).rts with oncopy := busy' } }) :
    X.NodeA { rr with oncopy := busy' } busy' n' := by
  have hr := hproc X.r (by simp [ours])
  refine ⟨⟨hconf.trans hn.conf, hup _ _ hn.up₁, hup _ _ hn.up₂, hn.descR.mark hr,
    hn.descS.mark (hproc X.s (by simp [ours])), hn.descD.mark (hproc X.d (by simp [ours]))⟩, ?_⟩
  rw [hr]
  exact hn.stay

theorem vcopyFinish_ok (hX : X.Wf) (hn : X.NodeA Rts.onlyOncopy true n)
    (hcode : (n.proc X.r).rcode = EMol.ok) (hv : X.Between v) :
    ∃ n', n.vcopyFinish X.r v EMol.ok = (n', .ret EMol.ok) ∧ X.NodeA Rts.running false n' ∧
      n'.sproxy = n.sproxy := by
  let n₁ := ((n.clearOncopy X.s).clearOncopy X.d).clearOncopy X.r
  have hleave : X.NodeA Rts.running false n₁ := by
    refine hn.mark rfl (fun _ _ hp => ((hp.modProc _ _).modProc _ _).modProc _ _) fun i hi => ?_
    simp only [n₁, Node.clearOncopy_proc]
    simp only [ours, decide_eq_true_eq] at hi
    rcases hi with rfl | rfl | rfl <;> simp
  have hremote : ∀ {x : ℤ}, (n₁.proc x).rts.remote = true →
      n₁.modProc x (fun p => p.upIfReady EMol.ok) = n₁ := fun {x} hrem =>
    Node.modProc_eq_self _ _ _ (if_neg fun hf => by
      rw [hf] at hrem
      exact absurd hrem (by decide))
  have hS := hremote (x := X.s) (by rw [hleave.descS.rts]; exact hX.flagsSa.2)
  have hD := hremote (x := X.d) (by rw [hleave.descD.rts]; exact hX.flagsDa.2)
  have hsig : (n₁.proc X.r).rts.signaled = false := by rw [hleave.descR.rts]; rfl
  refine ⟨n₁, ?_, hleave, rfl⟩
  simp only [Node.vcopyFinish, hcode, if_true, hv.srcNr hX, hv.dstNr hX,
    show ((n.clearOncopy X.s).clearOncopy X.d).clearOncopy X.r = n₁ from rfl, hsig,
    Bool.false_eq_true, if_false, hX.ne_rs.symm, hX.ne_rd.symm, hS, hD]

theorem vcopyWake_ok (hX : X.Wf) (hn : X.NodeA Rts.onlyOncopy true n) (hs : X.Sleeps 0 n)
    (hv : X.Between v) {w : ℤ} (hw : 0 < w) (cp : ℕ → ℤ) :
    ∃ n' pc, n.vcopyWake X.r (.sleep v len) w cp = (n', pc) ∧
      (len < v.bytes ∧ pc = .sleep (v.advance len) (min X.ca.dMaxCopybuf (v.bytes - len)) ∧
          X.Issued (v.advance len) (min X.ca.dMaxCopybuf (v.bytes - len)) n n' ∨
        v.bytes ≤ len ∧ pc = .ret EMol.ok ∧ X.NodeA Rts.running false n' ∧
          n'.sproxy = n.sproxy) := by
  rw [Node.vcopyWake_of_ok hs.rcode hn.stay hw]
  have hv' : X.Between (v.advance len) := hv
  by_cases hlt : len < v.bytes
  · obtain ⟨n', hissue, hi⟩ := vcopyIssue_pos hX hn hv' (by simp [VcopyCall.advance]; omega)
    exact ⟨n', _, hissue, .inl ⟨hlt, rfl, hi⟩⟩
  · obtain ⟨n', hfin, hn', hsp⟩ := vcopyFinish_ok hX hn hs.rcode hv'
    have hb : (v.advance len).bytes ≤ 0 := by simp [VcopyCall.advance]; omega
    refine ⟨n', .ret EMol.ok, ?_, .inr ⟨by omega, rfl, hn', hsp⟩⟩
    simp only [Node.vcopyIssue, hb, if_true]
    exact hfin

theorem vcopyParty_ok (hX : X.Wf) (hn : X.NodeA Rts.running false n) (died : ℤ) :
    n.vcopyParty X.r X.s X.es died = .ok ∧ n.vcopyParty X.r X.d X.ed died = .ok := by
  have hN := hX.nodes
  have hS := hX.flagsSa
  have hD := hX.flagsDa
  constructor
  · simp [Node.vcopyParty, hn.descS.endpoint, hn.descS.rts, hn.descS.nodeid, hn.conf, hS.1.bound,
      hS.1.settled, hS.1.rmtoper, hS.2, hN.1, hN.2.1, hX.dcNodes.1]
  · simp [Node.vcopyParty, hn.descD.endpoint, hn.descD.rts, hn.descD.nodeid, hn.conf, hD.1.bound,
      hD.1.settled, hD.1.rmtoper, hD.2, hN.2.2.1, hN.2.2.2, hX.dcNodes.2.1]

theorem vcopyBody_ok (hX : X.Wf) (hn : X.NodeA Rts.running false n) (hv : X.Between v)
    (hpos : 0 < v.bytes) (cp : ℕ → ℤ) :
    ∃ n', (n.vcopyEnter X.r v).vcopyBody X.r v cp =
        (n', .sleep v (min X.ca.dMaxCopybuf v.bytes)) ∧
      X.Issued v (min X.ca.dMaxCopybuf v.bytes) n n' := by
  have hmark : X.NodeA Rts.onlyOncopy true (((n.setOncopy X.r).setOncopy X.s).setOncopy X.d) := by
    refine hn.mark rfl (fun _ _ hp => ((hp.modProc _ _).modProc _ _).modProc _ _) fun i hi => ?_
    simp only [Node.setOncopy_proc]
    simp only [ours, decide_eq_true_eq] at hi
    rcases hi with rfl | rfl | rfl <;> simp
  have hn₁ : X.NodeA Rts.onlyOncopy true (n.vcopyEnter X.r v) := by
    rw [Node.vcopyEnter, hv.srcNr hX, hv.dstNr hX]
    exact ⟨hmark.toSees.modR hX ⟨rfl, rfl⟩ hmark.descR.rts, by simpa using hmark.stay⟩
  obtain ⟨n', hissue, hi⟩ := vcopyIssue_pos hX hn₁ hv hpos
  have hpx : ∀ {m : ℤ}, ProxyUp (n.vcopyEnter X.r v) (X.ca.nProxies m) m →
      (n.vcopyEnter X.r v).vcopyProxy m = EMol.ok := fun hup => by
    simp [Node.vcopyProxy, hn₁.conf, hup.lpid, hup.bound, hup.proxy, hup.connected]
  refine ⟨n', ?_, ⟨hi.node, hi.sleeps, hi.hdr, hi.queue⟩⟩
  rw [← hissue]
  simp [Node.vcopyBody, hv.srcNr hX, hv.dstNr hX, hn₁.descS.rts, hn₁.descD.rts, hX.flagsSa.2,
    hX.flagsDa.2, hn₁.descS.nodeid, hn₁.descD.nodeid, hpx hn₁.up₁, hpx hn₁.up₂]

theorem vcopyStart_ok (hX : X.Wf) (hn : X.NodeA Rts.running false n) (saddr daddr : ℕ) {bytes : ℤ}
    (hpos : 0 < bytes) (hmax : bytes ≤ X.ca.dMaxCopylen) (cp : ℕ → ℤ) :
    ∃ n', n.vcopyStart X.r X.es saddr X.ed daddr bytes cp =
        some (n', .sleep ⟨X.es, X.ed, saddr, daddr, bytes⟩ (min X.ca.dMaxCopybuf bytes)) ∧
      X.Issued ⟨X.es, X.ed, saddr, daddr, bytes⟩ (min X.ca.dMaxCopybuf bytes) n n' := by
  have hv : X.Between ⟨X.es, X.ed, saddr, daddr, bytes⟩ := ⟨rfl, rfl⟩
  obtain ⟨n', hbody, hi⟩ := vcopyBody_ok hX hn hv hpos cp
  refine ⟨n', ?_, hi⟩
  have hS := hX.special X.es (.inl rfl)
  have hD := hX.special X.ed (.inr rfl)
  have hne : X.es ≠ X.ed := fun he => hX.ne_sd (by rw [← hX.endS, ← hX.endD, he])
  have hb0 : ¬ bytes < 0 := by omega
  have hb1 : ¬ X.ca.dMaxCopylen < bytes := by omega
  have hrange := hX.range X.ca (.inl rfl)
  have hparty := vcopyParty_ok hX hn
  have hcheck : n.vcopyChecked X.r ⟨X.es, X.ed, saddr, daddr, bytes⟩ cp =
      (n.vcopyEnter X.r ⟨X.es, X.ed, saddr, daddr, bytes⟩).vcopyBody X.r
        ⟨X.es, X.ed, saddr, daddr, bytes⟩ cp := by
    refine Node.vcopyChecked_of_ok ?_ ?_
    · rw [hv.srcNr hX]
      exact (hparty _).1
    · rw [hv.dstNr hX]
      exact (hparty _).2
  simp [Node.vcopyStart, hb0, hb1, hS, hD, hne, hn.conf, hX.dcids X.ca (.inl rfl),
    hX.run X.ca (.inl rfl),
    hv.srcNr hX, hv.dstNr hX, hrange.2.1, hrange.2.2, hX.ne_sd, hcheck, hbody]

end Steps

end Trio

end MolIpc
