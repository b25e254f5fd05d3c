import MolIpc.Proc

/-!
The tables of the DVS on one node: the nodes of the cluster, the DCs, and the proxy pairs, with the
administrative calls of `mm_hyper.c` that change them.

Two relations are kept twice. The nodes of a DC are the bitmap `dc_nodes` of the DC, and the bit of
the DC in the bitmap `n_dcs` of each node; the proxy pair of a node is its field `n_proxies`, and
the bit of the node in the maps of the two proxies. What the calls do to the processes of a DC is
left out here.
-/

namespace MolIpc

/-- `NO_PROXIES`. -/
def noProxies : ℤ := -1

/-- The bits of an `unsigned long`. -/
def longBits : ℕ := 32

/-- `MAXDCNAME`. -/
def maxDcName : ℕ := 16

/-! ### Descriptors -/

/-- `n_flags`; the node is free when no bit is set. -/
structure NodeFlags where
  attached : Bool := false
  sconnected : Bool := false
  rconnected : Bool := false
  deriving DecidableEq, Repr

/-- `cluster_node_t`. The default is what `clear_node` leaves. -/
structure ClusterNode where
  flags : NodeFlags := {}
  dcs : ℤ → Bool := fun _ => false
  proxies : ℤ := noProxies

/-- `dc_desc_t`, without its processes; `free` is `DC_FREE`. -/
structure DcDesc where
  free : Bool := true
  name : String := ""
  nrNodes : ℤ := 0
  nodes : ℤ → Bool := fun _ => false

/-- `px_flags`; the pair is free when no bit is set. -/
structure PxFlags where
  inuse : Bool := false
  sconnected : Bool := false
  rconnected : Bool := false
  deriving DecidableEq, Repr

/-- `proxies_t`: a pair of proxies. -/
structure Proxies where
  flags : PxFlags := {}
  sproxy : Proc := {}
  rproxy : Proc := {}

inductive Side
  | sender
  | receiver
  deriving DecidableEq, Repr

structure Dvs where
  localNodeid : ℤ
  nrNodes : ℕ
  nrDcs : ℕ
  node : ℤ → ClusterNode
  dc : ℤ → DcDesc
  px : ℤ → Proxies

namespace Proxies

def proxy (x : Proxies) : Side → Proc
  | .sender => x.sproxy
  | .receiver => x.rproxy

def modProxy (x : Proxies) (side : Side) (f : Proc → Proc) : Proxies :=
  match side with
  | .sender => { x with sproxy := f x.sproxy }
  | .receiver => { x with rproxy := f x.rproxy }

def setMaps (x : Proxies) (i : ℤ) (b : Bool) : Proxies :=
  { x with
    sproxy := { x.sproxy with nodemap := Function.update x.sproxy.nodemap i b }
    rproxy := { x.rproxy with nodemap := Function.update x.rproxy.nodemap i b } }

end Proxies

namespace Side

def other : Side → Side
  | .sender => .receiver
  | .receiver => .sender

def connected (side : Side) (f : NodeFlags) : Bool :=
  match side with
  | .sender => f.sconnected
  | .receiver => f.rconnected

def setConnected (side : Side) (b : Bool) (f : NodeFlags) : NodeFlags :=
  match side with
  | .sender => { f with sconnected := b }
  | .receiver => { f with rconnected := b }

def setPx (side : Side) (b : Bool) (f : PxFlags) : PxFlags :=
  match side with
  | .sender => { f with sconnected := b }
  | .receiver => { f with rconnected := b }

end Side

namespace Dvs

def modNode (s : Dvs) (i : ℤ) (f : ClusterNode → ClusterNode) : Dvs :=
  { s with node := Function.update s.node i (f (s.node i)) }

def modDc (s : Dvs) (d : ℤ) (f : DcDesc → DcDesc) : Dvs :=
  { s with dc := Function.update s.dc d (f (s.dc d)) }

def modPx (s : Dvs) (p : ℤ) (f : Proxies → Proxies) : Dvs :=
  { s with px := Function.update s.px p (f (s.px p)) }

section Updates

variable (s : Dvs) (i : ℤ) (f : ClusterNode → ClusterNode) (g : DcDesc → DcDesc)
  (h : Proxies → Proxies)

@[simp] theorem modNode_dc : (s.modNode i f).dc = s.dc := rfl
@[simp] theorem modNode_px : (s.modNode i f).px = s.px := rfl

@[simp] theorem modDc_node : (s.modDc i g).node = s.node := rfl
@[simp] theorem modDc_px : (s.modDc i g).px = s.px := rfl

@[simp] theorem modPx_node : (s.modPx i h).node = s.node := rfl
@[simp] theorem modPx_dc : (s.modPx i h).dc = s.dc := rfl

theorem modNode_node (j : ℤ) :
    (s.modNode i f).node j = if j = i then f (s.node i) else s.node j :=
  Function.update_apply ..

theorem modDc_dc (j : ℤ) : (s.modDc i g).dc j = if j = i then g (s.dc i) else s.dc j :=
  Function.update_apply ..

theorem modPx_px (j : ℤ) : (s.modPx i h).px j = if j = i then h (s.px i) else s.px j :=
  Function.update_apply ..

end Updates

def NodeRange (s : Dvs) (i : ℤ) : Prop := 0 ≤ i ∧ i < s.nrNodes

instance (s : Dvs) (i : ℤ) : Decidable (s.NodeRange i) := by unfold NodeRange; infer_instance

/-- `d` is the identifier of a DC. -/
def DcRange (s : Dvs) (d : ℤ) : Prop := 0 ≤ d ∧ d < s.nrDcs

instance (s : Dvs) (d : ℤ) : Decidable (s.DcRange d) := by unfold DcRange; infer_instance

def nodes (s : Dvs) : List ℤ := (List.range s.nrNodes).map fun k : ℕ => (k : ℤ)

/-- `mm_dvs_init`: nothing but the local node is there. -/
def init (localNodeid : ℤ) (nrNodes nrDcs : ℕ) : Dvs where
  localNodeid := localNodeid
  nrNodes := nrNodes
  nrDcs := nrDcs
  node := fun i =>
    if i = localNodeid then { flags := { attached := true, sconnected := true } } else {}
  dc := fun _ => {}
  px := fun _ => {}

/-! ### Nodes of a DC -/

variable (s : Dvs)

def countNodes (d : ℤ) : ℤ := (List.range longBits).countP fun i : ℕ => (s.dc d).nodes i

/-- The node `nodeid` is or is not one of the DC `dcid`, in both bitmaps. -/
def setMember (dcid nodeid : ℤ) (b : Bool) : Dvs :=
  (s.modDc dcid fun d => { d with nodes := Function.update d.nodes nodeid b }).modNode nodeid
    fun n => { n with dcs := Function.update n.dcs dcid b }

/-- The checks that `mm_add_node` and `mm_del_node` begin with. -/
def memberCheck (dcid nodeid : ℤ) : ℤ :=
  if ¬ s.NodeRange nodeid then EMol.badnodeid
  else if nodeid = s.localNodeid then EMol.badnodeid
  else if (s.node nodeid).flags = {} then EMol.nodefree
  else if ¬ s.DcRange dcid then EMol.baddcid
  else if (s.dc dcid).free then EMol.dcnotrun
  else EMol.ok

/-- `mm_add_node`. -/
def addNode (dcid nodeid : ℤ) : Dvs × ℤ :=
  if s.memberCheck dcid nodeid ≠ EMol.ok then (s, s.memberCheck dcid nodeid)
  else if (s.dc dcid).nodes nodeid then (s, EMol.dcnode)
  else if (s.node nodeid).dcs dcid then (s, EMol.dcnode)
  else if (s.dc dcid).nrNodes ≤ s.countNodes dcid then (s, EMol.rscbusy)
  else (s.setMember dcid nodeid true, EMol.ok)

/-- `mm_del_node`. -/
def delNode (dcid nodeid : ℤ) : Dvs × ℤ :=
  if s.memberCheck dcid nodeid ≠ EMol.ok then (s, s.memberCheck dcid nodeid)
  else if ¬ (s.dc dcid).nodes nodeid then (s, EMol.dcnode)
  else if ¬ (s.node nodeid).dcs dcid then (s, EMol.dcnode)
  else (s.setMember dcid nodeid false, EMol.ok)

/-! ### DCs -/

/-- `dc_release`. The bit of the DC stays in a node that is free. -/
def dcRelease (d : ℤ) : Dvs :=
  { s with
    dc := Function.update s.dc d { s.dc d with nodes := fun _ => false, free := true }
    node := fun i =>
      if s.NodeRange i ∧ (s.node i).flags ≠ {} then
        { s.node i with dcs := Function.update (s.node i).dcs d false }
      else s.node i }

/-- What `mm_dc_init` may lack: memory for the tables of the DC, or entries in `/proc`. -/
inductive DcInitFail
  | memory
  | entries
  deriving DecidableEq, Repr

def dcTaken (dcid : ℤ) (name : String) : Prop :=
  ∃ i ∈ List.range s.nrDcs,
    (s.dc (i : ℤ)).free = false ∧ ((s.dc (i : ℤ)).name = name ∨ (i : ℤ) = dcid)

instance (dcid : ℤ) (name : String) : Decidable (s.dcTaken dcid name) := by
  unfold dcTaken; infer_instance

def dcStart (dcid nrNodes : ℤ) (name : String) : Dvs :=
  (s.modDc dcid fun _ =>
    { free := false, name := name, nrNodes := nrNodes, nodes := (· = s.localNodeid) }).modNode
    s.localNodeid fun n => { n with dcs := Function.update n.dcs dcid true }

/-- `mm_dc_init`. The check of the ranges never fails. A DC that gets no memory is left as it is,
one that gets no entries is released. -/
def dcInit (dcid nrNodes : ℤ) (name : String) (fail : Option DcInitFail) : Dvs × ℤ :=
  if maxDcName ≤ name.length then (s, EMol.namesize)
  else if s.dcTaken dcid name then (s, EMol.rscbusy)
  else
    let s := s.dcStart dcid nrNodes name
    match fail with
    | none => (s, s.localNodeid)
    | some .memory => (s, EMol.allocmem)
    | some .entries => (s.dcRelease dcid, EMol.badfile)

/-- `mm_dc_end`, when all the processes are gone; `last` says that its reference is the last one. -/
def dcEnd (dcid : ℤ) (last : Bool) : Dvs × ℤ :=
  if ¬ s.DcRange dcid then (s, EMol.baddcid)
  else if (s.dc dcid).free then (s, EMol.dcnotrun)
  else (if last then s.dcRelease dcid else s, EMol.ok)

/-! ### Nodes and proxies -/

/-- `do_node_end`. -/
def nodeEnd (i : ℤ) : Dvs :=
  { s with
    dc := fun d =>
      if s.DcRange d ∧ (s.dc d).free = false then
        { s.dc d with nodes := Function.update (s.dc d).nodes i false }
      else s.dc d
    node := Function.update s.node i {} }

/-- `lock_sr_proxies`. -/
def lockProxies (p : ℤ) : ℤ :=
  if ¬ s.NodeRange p then EMol.proxyid
  else if (s.px p).flags = {} then EMol.proxyfree
  else EMol.ok

/-- `mm_node_up`. -/
def nodeUp (nodeid p : ℤ) : Dvs × ℤ :=
  if ¬ s.NodeRange nodeid then (s, EMol.badnodeid)
  else if s.lockProxies p ≠ EMol.ok then (s, s.lockProxies p)
  else
    let f := (s.px p).flags
    ((s.modPx p (·.setMaps nodeid true)).modNode nodeid fun n =>
      { n with
        flags := { attached := true, sconnected := f.sconnected, rconnected := f.rconnected }
        proxies := p }, EMol.ok)

/-- `mm_node_down`. The test of the map is the wrong way round: a node in the map of its proxies
stays there. -/
def nodeDown (nodeid : ℤ) : Dvs × ℤ :=
  if ¬ s.NodeRange nodeid then (s, EMol.badnodeid)
  else
    let p := (s.node nodeid).proxies
    if s.lockProxies p ≠ EMol.ok then (s, s.lockProxies p)
    else if ¬ (s.px p).sproxy.nodemap nodeid then
      ((s.modPx p (·.setMaps nodeid false)).modNode nodeid fun _ => {}, EMol.ok)
    else (s, EMol.ok)

def proxyDesc (p : Proc) (pid node : ℤ) : Proc :=
  { p.initDesc (-1) with
    rts := Rts.running, misc := { proxy := true }, endpoint := noneEp, lpid := pid, nodeid := node }

/-- `mm_proxies_bind`; `found` says that both process identifiers are those of tasks. -/
def proxiesBind (p spid rpid maxbytes : ℤ) (found : Bool) : Dvs × ℤ :=
  if ¬ s.NodeRange p then (s, EMol.badnodeid)
  else if ¬ found then (s, EMol.badpid)
  else if (s.px p).flags ≠ {} then (s, EMol.rscbusy)
  else if 65536 < maxbytes then (s, EMol.tooBig)
  else
    (s.modPx p fun x =>
      { flags := { inuse := true }
        sproxy := proxyDesc x.sproxy spid s.localNodeid
        rproxy := proxyDesc x.rproxy rpid s.localNodeid }, EMol.ok)

/-- `mm_proxy_conn`: a proxy says that it is connected, or that it is not. -/
def proxyConn (p : ℤ) (side : Side) (b : Bool) : Dvs × ℤ :=
  if s.lockProxies p ≠ EMol.ok then (s, s.lockProxies p)
  else if (s.px p).sproxy.rts = Rts.onlyFree ∨ (s.px p).rproxy.rts = Rts.onlyFree then
    (s, EMol.noproxy)
  else
    let map := ((s.px p).proxy side).nodemap
    let s := s.modPx p fun x =>
      { x with flags := side.setPx b x.flags }.modProxy side fun q =>
        { q with misc := { q.misc with connected := b } }
    ({ s with node := fun i =>
        if s.NodeRange i ∧ map i then
          { s.node i with flags := side.setConnected b (s.node i).flags }
        else s.node i }, EMol.ok)

/-- A node in the loop of `do_proxies_unbind`: it is ended when the other proxy is not connected to
it. -/
def unbindNode (p : ℤ) (side : Side) (s : Dvs) (i : ℤ) : Dvs :=
  if ((s.px p).proxy side).nodemap i then
    let s := (s.modPx p (·.setMaps i false)).modNode i fun n =>
      { n with flags := side.setConnected false n.flags }
    if side.other.connected (s.node i).flags then s else s.nodeEnd i
  else s

/-- `do_proxies_unbind`. The call waits until the other proxy is unbound and holds the lock that
this would need: it returns only if there is no other proxy. -/
def proxiesUnbind (p : ℤ) (side : Side) : Dvs :=
  if s.lockProxies p ≠ EMol.ok then s
  else
    let s := s.nodes.foldl (unbindNode p side) s
    let s := s.modPx p (·.modProxy side (·.initDesc (-1)))
    if ((s.px p).proxy side.other).lpid ≠ procNoPid then
      s.modPx p (·.modProxy side.other fun q =>
        if q.rts ≠ Rts.running then { q with rts := Rts.running }.up EMol.shutdown else q)
    else s.modPx p fun x => { x with flags := {} }

end Dvs

/-! ### Runs -/

/-- The administrative calls. -/
inductive AdminOp
  | addNode (dcid nodeid : ℤ)
  | delNode (dcid nodeid : ℤ)
  | dcInit (dcid nrNodes : ℤ) (name : String) (fail : Option Dvs.DcInitFail)
  | dcEnd (dcid : ℤ) (last : Bool)
  | nodeUp (nodeid p : ℤ)
  | nodeDown (nodeid : ℤ)
  | nodeEnd (nodeid : ℤ)
  | proxiesBind (p spid rpid maxbytes : ℤ) (found : Bool)
  | proxyConn (p : ℤ) (side : Side) (b : Bool)
  | proxiesUnbind (p : ℤ) (side : Side)

def Dvs.step (s : Dvs) : AdminOp → Option Dvs
  | .addNode dcid nodeid => some (s.addNode dcid nodeid).1
  | .delNode dcid nodeid => some (s.delNode dcid nodeid).1
  | .dcInit dcid nrNodes name fail => some (s.dcInit dcid nrNodes name fail).1
  | .dcEnd dcid last => some (s.dcEnd dcid last).1
  | .nodeUp nodeid p => some (s.nodeUp nodeid p).1
  | .nodeDown nodeid => some (s.nodeDown nodeid).1
  | .nodeEnd nodeid => some (s.nodeEnd nodeid)
  | .proxiesBind p spid rpid maxbytes found => some (s.proxiesBind p spid rpid maxbytes found).1
  | .proxyConn p side b => some (s.proxyConn p side b).1
  | .proxiesUnbind p side => some (s.proxiesUnbind p side)

end MolIpc
