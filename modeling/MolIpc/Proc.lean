import MolIpc.Const
import Mathlib.Logic.Function.Basic
import Mathlib.Data.List.Basic

/-!
Process descriptors and the tables of one node: the flag words `p_rts_flags` and `p_misc_flags`,
messages and command headers, the descriptor `struct proc`, and the descriptors of one DC
together with those of the proxies.

A descriptor is named by its process number. A queue of descriptors (`p_list`, `p_mlist`,
`p_ulist`) is the list of the numbers linked in it, in queue order, so that `LIST_DEL_INIT` of a
descriptor removes its number from whatever `p_list` holds it.
-/

namespace MolIpc

/-! ### Flag words -/

/-- The bits of `p_rts_flags` that the module uses. A process is runnable iff none is set. -/
structure Rts where
  slotFree : Bool := false
  noMap : Bool := false
  sending : Bool := false
  receiving : Bool := false
  signaled : Bool := false
  noEndpoint : Bool := false
  oncopy : Bool := false
  migrate : Bool := false
  remote : Bool := false
  rmtoper : Bool := false
  waitmigr : Bool := false
  waitunbind : Bool := false
  deriving DecidableEq, Repr

/-- The bits of `p_misc_flags` that the module uses. -/
structure Misc where
  proxy : Bool := false
  connected : Bool := false
  notify : Bool := false
  needmigr : Bool := false
  rmtbackup : Bool := false
  grpleader : Bool := false
  kthread : Bool := false
  replicated : Bool := false
  killed : Bool := false
  wokenup : Bool := false
  deriving DecidableEq, Repr

/-- `PROC_RUNNING`: no bit of `p_rts_flags` is set. -/
def Rts.running : Rts := {}

/-- The word `SLOT_FREE`, with no other bit. -/
def Rts.onlyFree : Rts := { slotFree := true }

/-- The word `ONCOPY`, with no other bit. -/
def Rts.onlyOncopy : Rts := { oncopy := true }

@[simp] theorem Rts.onlyOncopy_oncopy : Rts.onlyOncopy.oncopy = true := rfl

@[simp] theorem Rts.onlyOncopy_ne_running : Rts.onlyOncopy ≠ Rts.running := by decide

/-! ### Messages and commands -/

/-- A message: its source, its type, the word `m9_l1` (`NOTIFY_ARG`), and the rest of its bytes. -/
structure Message where
  source : ℤ := 0
  type : ℤ := 0
  arg : ℤ := 0
  data : ℕ := 0
  deriving DecidableEq, Repr

/-- `vcopy_t`: one chunk of a remote copy. -/
structure Vcopy where
  src : ℤ := noneEp
  dst : ℤ := noneEp
  rqtr : ℤ := noneEp
  saddr : ℕ := 0
  daddr : ℕ := 0
  bytes : ℤ := 0
  deriving DecidableEq, Repr

/-- `cmd_t`, the header that travels between proxies. The two views of the union `c_u` are kept
apart. -/
structure Hdr where
  cmd : Cmd := .none
  dcid : ℤ := 0
  src : ℤ := noneEp
  dst : ℤ := noneEp
  snode : ℤ := -1
  dnode : ℤ := -1
  rcode : ℤ := 0
  len : ℤ := 0
  msg : Message := {}
  vcopy : Vcopy := {}
  deriving DecidableEq, Repr

abbrev Mem := ℕ → UInt8

/-- `len` bytes of `src` from `saddr` on, copied to `daddr` on. -/
def Mem.blit (dst : Mem) (daddr : ℕ) (src : Mem) (saddr len : ℕ) : Mem := fun a =>
  if daddr ≤ a ∧ a < daddr + len then src (saddr + (a - daddr)) else dst a

/-! ### Descriptors -/

/-- `struct proc`. `ubuf` is the message at `p_umsg` in user memory, and `mem` the rest of its user
memory. -/
structure Proc where
  endpoint : ℤ := noneEp
  lpid : ℤ := procNoPid
  tgid : ℤ := 0
  rts : Rts := Rts.onlyFree
  misc : Misc := {}
  nodeid : ℤ := -1
  nodemap : ℤ → Bool := fun _ => false
  getfrom : ℤ := noneEp
  sendto : ℤ := noneEp
  waitmigr : ℤ := noneEp
  waitunbind : ℤ := noneEp
  proxy : ℤ := noneEp
  rcode : ℤ := 0
  pseudosem : ℤ := 0
  message : Message := {}
  ubuf : Message := {}
  mem : Mem := fun _ => 0
  rmtcmd : Hdr := {}
  list : List ℤ := []
  mlist : List ℤ := []
  ulist : List ℤ := []
  sId : ℤ := 0
  notifyPending : ℕ → Bool := fun _ => false
  intPending : ℤ := 0
  sigPending : ℤ := 0
  updtPending : ℤ := 0

namespace Proc

/-- `LOCAL_PROC_UP` and `READY_UP_RCODE`: wake up a sleeper with a result. -/
def up (p : Proc) (rcode : ℤ) : Proc := { p with rcode := rcode, pseudosem := p.pseudosem + 1 }

def upIfReady (p : Proc) (rcode : ℤ) : Proc := if p.rts = Rts.running then p.up rcode else p

section

variable (p : Proc)

@[simp] theorem up_list (rcode : ℤ) : (p.up rcode).list = p.list := rfl
@[simp] theorem up_rts (rcode : ℤ) : (p.up rcode).rts = p.rts := rfl
@[simp] theorem up_ubuf (rcode : ℤ) : (p.up rcode).ubuf = p.ubuf := rfl

@[simp] theorem upIfReady_list (rcode : ℤ) : (p.upIfReady rcode).list = p.list := by
  unfold upIfReady; split <;> rfl

@[simp] theorem upIfReady_rts (rcode : ℤ) : (p.upIfReady rcode).rts = p.rts := by
  unfold upIfReady; split <;> rfl

@[simp] theorem upIfReady_endpoint (rcode : ℤ) : (p.upIfReady rcode).endpoint = p.endpoint := by
  unfold upIfReady; split <;> rfl

@[simp] theorem upIfReady_mlist (rcode : ℤ) : (p.upIfReady rcode).mlist = p.mlist := by
  unfold upIfReady; split <;> rfl

@[simp] theorem upIfReady_waitmigr (rcode : ℤ) : (p.upIfReady rcode).waitmigr = p.waitmigr := by
  unfold upIfReady; split <;> rfl

@[simp] theorem upIfReady_rmtcmd (rcode : ℤ) : (p.upIfReady rcode).rmtcmd = p.rmtcmd := by
  unfold upIfReady; split <;> rfl

@[simp] theorem upIfReady_ubuf (rcode : ℤ) : (p.upIfReady rcode).ubuf = p.ubuf := by
  unfold upIfReady; split <;> rfl

end

/-- `init_proc_desc`: the descriptor of a free slot. The endpoint and `s_updt_pending` stay. -/
def initDesc (p : Proc) (dcid : ℤ) : Proc :=
  { p with
    lpid := procNoPid, rts := Rts.onlyFree, misc := {}, nodeid := -1, nodemap := fun _ => false
    getfrom := noneEp, sendto := noneEp, waitmigr := noneEp, waitunbind := noneEp
    proxy := noneEp, rcode := EMol.ok, pseudosem := 0, message := {}
    list := [], mlist := [], ulist := []
    rmtcmd := { dcid := dcid }
    sId := 0, notifyPending := fun _ => false, intPending := 0, sigPending := 0 }

/-- The tail of the sleep functions: a process asked to migrate while it slept does it now. -/
def wakeMigr (p : Proc) : Proc :=
  if p.misc.needmigr then
    { p with misc := { p.misc with needmigr := false }, rts := { p.rts with migrate := true } }
  else p

/-- The process is blocked receiving, has nothing to send, and accepts messages of `ep`. -/
def waitsFor (p : Proc) (ep : ℤ) : Prop :=
  p.rts.receiving = true ∧ p.rts.sending = false ∧ (p.getfrom = anyEp ∨ p.getfrom = ep)

instance (p : Proc) (ep : ℤ) : Decidable (p.waitsFor ep) := by unfold waitsFor; infer_instance

/-- `clear_bit(BIT_RECEIVING)` and `p_getfrom = NONE`. -/
def endReceive (p : Proc) : Proc :=
  { p with rts := { p.rts with receiving := false }, getfrom := noneEp }

/-- `clear_bit(BIT_SENDING)` and `p_sendto = NONE`. -/
def endSend (p : Proc) : Proc :=
  { p with rts := { p.rts with sending := false }, sendto := noneEp }

end Proc

/-! ### One node -/

/-- What the IPC calls never change: the node, the limits of the DVS, the geometry of the DC and the
proxy pair of each node. -/
structure Conf where
  localNodeid : ℤ
  dNrNodes : ℤ
  dNrDcs : ℤ
  dMaxCopybuf : ℤ
  dMaxCopylen : ℤ
  dcid : ℤ
  dcFlags : ℕ
  dcNrTasks : ℤ
  dcNrProcs : ℤ
  dcNrSysprocs : ℤ
  dcNodes : ℤ → Bool
  nDcs : ℤ → ℤ → Bool
  nProxies : ℤ → ℤ
  pxMaxbytes : ℤ → ℤ

/-- `NODE2MAXBYTES(n)`. -/
def Conf.maxbytes (cf : Conf) (node : ℤ) : ℤ := cf.pxMaxbytes (cf.nProxies node)

/-- `p_nr` names a descriptor of the DC. -/
def Conf.inRange (cf : Conf) (nr : ℤ) : Prop := -cf.dcNrTasks ≤ nr ∧ nr < cf.dcNrProcs

instance (cf : Conf) (nr : ℤ) : Decidable (cf.inRange nr) := by
  unfold Conf.inRange; infer_instance

/-- The configuration of a small cluster as node `k` has it: one running DC on all the nodes, and
one proxy pair for each node, with the number of the node. -/
def Conf.sample (k : ℤ) : Conf where
  localNodeid := k
  dNrNodes := 32
  dNrDcs := 4
  dMaxCopybuf := 65536
  dMaxCopylen := 16 * 65536
  dcid := 0
  dcFlags := 0
  dcNrTasks := 35
  dcNrProcs := 221
  dcNrSysprocs := 64
  dcNodes := fun _ => true
  nDcs := fun _ _ => true
  nProxies := fun node => node
  pxMaxbytes := fun _ => 65536

/-- The descriptors of one DC on one node, and those of the sender and receiver proxies. -/
structure Node where
  conf : Conf
  proc : ℤ → Proc
  sproxy : ℤ → Proc
  rproxy : ℤ → Proc

/-- A bound process of node `k` in the sample cluster: endpoint and number are the same. -/
def Proc.sample (k ep : ℤ) (rts : Rts) : Proc :=
  { endpoint := ep, lpid := 1000 + ep, rts := rts, nodeid := k, nodemap := (· = k) }

/-- A connected proxy to node `k` in the sample cluster. -/
def Proc.sampleProxy (k : ℤ) : Proc :=
  { endpoint := k, lpid := 500 + k, rts := {}, misc := { proxy := true, connected := true }
    nodemap := (· = k) }

namespace Node

/-- Change the descriptor `i`. -/
def modProc (n : Node) (i : ℤ) (f : Proc → Proc) : Node :=
  { n with proc := Function.update n.proc i (f (n.proc i)) }

/-- Change the descriptor of the sender proxy `i`. -/
def modSproxy (n : Node) (i : ℤ) (f : Proc → Proc) : Node :=
  { n with sproxy := Function.update n.sproxy i (f (n.sproxy i)) }

/-- `LIST_DEL_INIT(&x->p_link)`. -/
def unlink (n : Node) (x : ℤ) : Node :=
  { n with
    proc := fun q => { n.proc q with list := (n.proc q).list.filter (· ≠ x) }
    sproxy := fun q => { n.sproxy q with list := (n.sproxy q).list.filter (· ≠ x) } }

/-- `LIST_ADD_TAIL(&x->p_link, &q->p_list)`. -/
def addTail (n : Node) (x q : ℤ) : Node := n.modProc q fun p => { p with list := p.list ++ [x] }

section Updates

variable (n : Node) (i j : ℤ) (f : Proc → Proc)

@[simp] theorem modProc_conf : (n.modProc i f).conf = n.conf := rfl
@[simp] theorem modProc_sproxy : (n.modProc i f).sproxy = n.sproxy := rfl
@[simp] theorem modProc_rproxy : (n.modProc i f).rproxy = n.rproxy := rfl
@[simp] theorem modSproxy_conf : (n.modSproxy i f).conf = n.conf := rfl
@[simp] theorem modSproxy_proc : (n.modSproxy i f).proc = n.proc := rfl
@[simp] theorem modSproxy_rproxy : (n.modSproxy i f).rproxy = n.rproxy := rfl
@[simp] theorem unlink_conf : (n.unlink i).conf = n.conf := rfl
@[simp] theorem unlink_rproxy : (n.unlink i).rproxy = n.rproxy := rfl
@[simp] theorem addTail_conf : (n.addTail i j).conf = n.conf := rfl
@[simp] theorem addTail_sproxy : (n.addTail i j).sproxy = n.sproxy := rfl
@[simp] theorem addTail_rproxy : (n.addTail i j).rproxy = n.rproxy := rfl

theorem modProc_proc : (n.modProc i f).proc j = if j = i then f (n.proc i) else n.proc j :=
  Function.update_apply ..

@[simp] theorem modProc_same : (n.modProc i f).proc i = f (n.proc i) := by simp [modProc_proc]

@[simp] theorem modProc_of_ne {i j : ℤ} (h : j ≠ i) : (n.modProc i f).proc j = n.proc j := by
  simp [modProc_proc, h]

theorem modProc_eq_self (h : f (n.proc i) = n.proc i) : n.modProc i f = n := by
  simp [modProc, h]

variable {n f} in
theorem modProc_field {α : Type*} (g : Proc → α) (hf : ∀ p, g (f p) = g p) :
    g ((n.modProc i f).proc j) = g (n.proc j) := by
  by_cases hj : j = i
  · rw [hj, modProc_same, hf]
  · rw [modProc_of_ne _ _ hj]

variable {n f} in
theorem modProc_endpoint (hf : ∀ p, (f p).endpoint = p.endpoint) :
    ((n.modProc i f).proc j).endpoint = (n.proc j).endpoint :=
  modProc_field i j Proc.endpoint hf

@[simp] theorem modSproxy_same : (n.modSproxy i f).sproxy i = f (n.sproxy i) := by
  simp [modSproxy]

@[simp] theorem modSproxy_of_ne {i j : ℤ} (h : j ≠ i) :
    (n.modSproxy i f).sproxy j = n.sproxy j := by
  simp [modSproxy, h]

end Updates

/-- `clear_bit(BIT_ONCOPY)`. -/
def clearOncopy (n : Node) (i : ℤ) : Node :=
  n.modProc i fun p => { p with rts := { p.rts with oncopy := false } }

section ClearOncopy

variable (n : Node) (i j : ℤ)

@[simp] theorem clearOncopy_conf : (n.clearOncopy i).conf = n.conf := rfl
@[simp] theorem clearOncopy_sproxy : (n.clearOncopy i).sproxy = n.sproxy := rfl

theorem clearOncopy_proc :
    (n.clearOncopy i).proc j =
      { n.proc j with
        rts := { (n.proc j).rts with oncopy := (n.proc j).rts.oncopy && decide (j ≠ i) } } := by
  by_cases hj : j = i
  · subst hj
    simp [clearOncopy]
  · simp [clearOncopy, hj]

theorem clearOncopy_eq_self (h : (n.proc i).rts.oncopy = false) : n.clearOncopy i = n := by
  refine n.modProc_eq_self i _ ?_
  rw [← h]

end ClearOncopy

/-- `set_bit(BIT_ONCOPY)`. -/
def setOncopy (n : Node) (i : ℤ) : Node :=
  n.modProc i fun p => { p with rts := { p.rts with oncopy := true } }

theorem setOncopy_proc (n : Node) (i j : ℤ) :
    (n.setOncopy i).proc j =
      { n.proc j with
        rts := { (n.proc j).rts with oncopy := (n.proc j).rts.oncopy || decide (j = i) } } := by
  by_cases hj : j = i
  · subst hj
    simp [setOncopy]
  · simp [setOncopy, hj]

end Node

end MolIpc
