import MolIpc.Const
import Mathlib.Data.Finset.Card
import Mathlib.Data.Finset.Union
import Mathlib.Algebra.BigOperators.Group.Finset.Basic
import Mathlib.Order.Interval.Finset.Nat

/-!
A node of the slot protocol (`systask/slots.c`): its variables, and what its SLOTS thread does on
each event that `slots_loop` receives from Spread. A handler gives the state after the event and
what it has multicast on the way; `m_source` is the sender of a message.

A slot of the table below `dc_nr_sysprocs` belongs to a system process, the others are shared. The
binding of system processes is left out; what the shared slots depend on (how many slots of system
processes the members own) comes with `Env`. The calls of the kernel and of Spread succeed.
`TEST_BIT` of a bitmap and the number `-1`, which no node has, is false.
-/

namespace MolIpc

namespace Slots

/-! ### Data -/

/-- The DC: `dc_nr_tasks`, `dc_nr_procs`, `dc_nr_sysprocs`, `dc_nr_nodes`, and the size of
`dc_usr_t` in words of four bytes. -/
structure Conf where
  dcNrTasks : ℕ
  dcNrProcs : ℕ
  dcNrSysprocs : ℕ
  dcNrNodes : ℕ
  dcuWords : ℕ
  sysprocs_pos : 0 < dcNrSysprocs
  sysprocs_lt : dcNrSysprocs < dcNrTasks + dcNrProcs
  nodes_gt : 1 < dcNrNodes

namespace Conf

variable (c : Conf)

/-- The number of slots, `dc_nr_tasks + dc_nr_procs`. -/
def nrSlots : ℕ := c.dcNrTasks + c.dcNrProcs

def shared : Finset ℕ := Finset.Ico c.dcNrSysprocs c.nrSlots

def sharedList : List ℕ := List.range' c.dcNrSysprocs (c.nrSlots - c.dcNrSysprocs)

/-- The value that `init_systask` gives to `total_slots`. -/
def allSlots : ℤ := c.nrSlots - c.dcNrSysprocs

/-- `min_owned_slots`. -/
def minOwnedSlots : ℤ := c.allSlots / c.dcNrNodes

/-- `free_slots_low`. -/
def freeSlotsLow : ℤ := c.minOwnedSlots / 2

/-- A DC of four nodes with two slots for system processes and eight shared ones. -/
def sample : Conf := ⟨1, 9, 2, 4, 45, by decide, by decide, by decide⟩

end Conf

/-- `SLOTS_BY_MSG`. -/
def slotsByMsg : ℕ := 4

/-- `SLOTS_RETRIES`. -/
def slotsRetries : ℕ := 5

/-- `CEILING(x, y)`. -/
def ceiling (x y : ℤ) : ℤ := x.tdiv y + if x.tmod y ≠ 0 then 1 else 0

structure Slot where
  endpoint : ℤ
  /-- `BIT_SLOT_DONATING`. -/
  donating : Bool
  /-- `BIT_SLOT_PARTITION`. -/
  partition : Bool
  /-- `s_owner`; `none` is `NO_SLOT_OWNER`. -/
  owner : Option ℕ
  deriving DecidableEq

/-- The slot is free, perhaps with `BIT_NO_MAP`, or a process of a node is bound to it, `REMOTE` if
the node is another one. -/
inductive Desc
  | free (noMap : Bool)
  | bound (nodeid : ℕ)
  deriving DecidableEq

/-- `CLR_BIT(p_rts_flags, BIT_NO_MAP)`. -/
def Desc.clrNoMap : Desc → Desc
  | .free _ => .free false
  | .bound k => .bound k

def Desc.isBound : Desc → Bool
  | .free _ => false
  | .bound _ => true

/-- The states of `FSM_state` without `BIT_MERGING`. -/
inductive State
  | new | waitStatus | disconnected | reqSlots | running
  deriving DecidableEq

/-- `FSM_state`. -/
structure Fsm where
  state : State
  /-- `BIT_MERGING`. -/
  merging : Bool
  deriving DecidableEq

namespace Fsm

/-- `STS_NEW`. -/
def new : Fsm := ⟨.new, false⟩

/-- `STS_WAIT_STATUS`. -/
def waitStatus : Fsm := ⟨.waitStatus, false⟩

/-- `STS_DISCONNECTED`. -/
def disconnected : Fsm := ⟨.disconnected, false⟩

/-- `STS_REQ_SLOTS`. -/
def reqSlots : Fsm := ⟨.reqSlots, false⟩

/-- `STS_RUNNING`. -/
def running : Fsm := ⟨.running, false⟩

/-- `BIT_INITIALIZED`. -/
def isInitialized (f : Fsm) : Bool :=
  match f.state with
  | .reqSlots | .running => true
  | _ => false

/-- `BIT_RUNNING`. -/
def isRunning (f : Fsm) : Bool :=
  match f.state with
  | .running => true
  | _ => false

end Fsm

/-- The SYSTASK thread in `init_systask`: blocked on `sys_barrier`, signalled there, or past it and
serving calls. -/
inductive Systask
  | asleep | signalled | up
  deriving DecidableEq

/-- A signal on `sys_barrier`: it is lost unless SYSTASK waits there. -/
def Systask.signal : Systask → Systask
  | .asleep => .signalled
  | t => t

@[simp] theorem Systask.signal_eq_up {t : Systask} : t.signal = .up ↔ t = .up := by
  cases t <;> simp [Systask.signal]

/-- The process runs, an assertion has failed, or it is gone: it has called `exit`, was killed, or
has disconnected from Spread for good. -/
inductive Life
  | alive | aborted | gone
  deriving DecidableEq

structure Node where
  localNodeid : ℕ
  life : Life
  systask : Systask
  /-- The turns left to SYSTASK in the loop of `init_systask`. -/
  retries : ℕ
  fsm : Fsm
  /-- `none` is `NO_PRIMARY_MBR`. -/
  primaryMbr : Option ℕ
  /-- `none` is `NO_NEXT_MBR`. -/
  waitstsMbr : Option ℕ
  activeNodes : ℕ
  initNodes : ℤ
  bmActive : Finset ℕ
  bmInit : Finset ℕ
  bmWaitsts : Finset ℕ
  bmDonors : Finset ℕ
  bmPending : Finset ℕ
  bmInitMrg : Finset ℕ
  bmWaitstsMrg : Finset ℕ
  slot : ℕ → Slot
  slotMerge : ℕ → Slot
  /-- The process descriptors that the kernel shows to SYSTASK. -/
  desc : ℕ → Desc
  freeSlots : ℤ
  ownedSlots : ℤ
  totalSlots : ℤ
  maxOwnedSlots : ℤ

/-- The multicasts. `SYS_PUT_STATUS` is for the member `dest`; a donation is for `dst` and carries
`mA_nr` and `mA_ia`. -/
inductive Msg
  | putStatus (dest : ℕ) (bmInit bmWaitsts : Finset ℕ) (slot : ℕ → Slot)
  | reqSlots (needSlots : ℤ)
  | donSlots (dst : ℕ) (nr : ℤ) (ia : List ℕ)
  | mergeStatus (bmInit bmWaitsts : Finset ℕ) (slot : ℕ → Slot)

structure Env where
  /-- How many slots of system processes have an owner in `bm_init`. -/
  sysOwned : ℤ
  /-- The uninitialised `spout_ptr` of `sp_don_slots` holds the address of a message buffer. -/
  spoutOk : Bool
  /-- What `sp_merge_status` finds through the uninitialised `spm`: a slot of another partition
  with an active owner, or not. -/
  spmPending : Bool
  /-- The words that earlier messages have left in the receive buffer, from the end of the header
  of a message on. -/
  stale : ℕ → ℤ

def Env.sample : Env := ⟨2, true, false, fun _ => 0⟩

/-- A join or a leave with the members after it, a network change with the new members, or a
message. -/
inductive Event
  | join (mbr : ℕ) (members : Finset ℕ)
  | disconnect (mbr : ℕ) (members : Finset ℕ)
  | network (members : Finset ℕ)
  | message (source : ℕ) (msg : Msg)

def setOwner (t : ℕ → Slot) (i : ℕ) (o : Option ℕ) : ℕ → Slot :=
  Function.update t i { t i with owner := o }

def bmWord (bm : Finset ℕ) : ℕ := ∑ i ∈ bm, 2 ^ i

/-- The next member of a bitmap in the ring of the nodes, `get_next_mbr`. -/
def getNextMbr (c : Conf) (node : Option ℕ) (bm : Finset ℕ) : Option ℕ :=
  if bm = ∅ then none
  else ((List.range c.dcNrNodes).map fun k => (node.getD 0 + k + 1) % c.dcNrNodes).find? (· ∈ bm)

/-- `get_primary_mbr`, on `bm_init`. -/
def getPrimaryMbr (c : Conf) (bm : Finset ℕ) : Option ℕ := (List.range c.dcNrNodes).find? (· ∈ bm)

/-- `get_init_nodes`, on `bm_init`. -/
def getInitNodes (c : Conf) (bm : Finset ℕ) : ℤ :=
  ((Finset.range c.dcNrNodes).filter (· ∈ bm)).card

namespace Node

/-- A node after `init_slots`: its kernel has no process in a shared slot. -/
def init (c : Conf) (localNodeid : ℕ) : Node where
  localNodeid := localNodeid
  life := .alive
  systask := .asleep
  retries := slotsRetries
  fsm := .new
  primaryMbr := none
  waitstsMbr := some 0
  activeNodes := 0
  initNodes := 0
  bmActive := ∅
  bmInit := ∅
  bmWaitsts := ∅
  bmDonors := ∅
  bmPending := ∅
  bmInitMrg := ∅
  bmWaitstsMrg := ∅
  slot _ := ⟨noneEp, false, false, none⟩
  slotMerge _ := ⟨noneEp, false, false, none⟩
  desc _ := .free false
  freeSlots := 0
  ownedSlots := 0
  totalSlots := c.allSlots
  maxOwnedSlots := 0

/-- `init_global_vars`. -/
def initGlobalVars (n : Node) : Node :=
  { n with
    fsm := .new
    primaryMbr := none
    initNodes := 0
    waitstsMbr := some 0
    bmInit := ∅
    bmActive := ∅
    bmWaitsts := ∅
    bmDonors := ∅
    bmPending := ∅ }

/-- `init_global_vars`, `SP_disconnect` and `SP_join`. -/
def restart (n : Node) : Node × List Msg := ({ n.initGlobalVars with life := .gone }, [])

def abort (n : Node) : Node × List Msg := ({ n with life := .aborted }, [])

def andThen (r : Node × List Msg) (f : Node → Node × List Msg) : Node × List Msg :=
  ((f r.1).1, r.2 ++ (f r.1).2)

def setMax (c : Conf) (n : Node) : Node :=
  { n with maxOwnedSlots := n.totalSlots - c.minOwnedSlots * (n.initNodes - 1) }

def setView (n : Node) (members : Finset ℕ) : Node :=
  { n with activeNodes := members.card, bmActive := members }

/-- `primary_mbr` is set. -/
def setPrimary (n : Node) (p : Option ℕ) : Node := { n with primaryMbr := p }

def addWaitsts (n : Node) (mbr : ℕ) : Node := { n with bmWaitsts := insert mbr n.bmWaitsts }

def dropWaitsts (n : Node) (mbr : ℕ) : Node := { n with bmWaitsts := n.bmWaitsts.erase mbr }

/-- `FSM_state = STS_RUNNING`, and SYSTASK is woken up. -/
def startRunning (n : Node) : Node := { n with fsm := .running, systask := n.systask.signal }

/-- `bm_donors = 0` and `bm_pending = 0`. -/
def clearRqsts (n : Node) : Node := { n with bmDonors := ∅, bmPending := ∅ }

/-! ### Requests and status messages -/

/-- `mcast_rqst_slots`. -/
def mcastRqstSlots (n : Node) (nrSlots : ℤ) : Node × List Msg :=
  if n.bmWaitsts ≠ ∅ then (n, [])
  else if n.fsm.merging then (n, [])
  else
    let n := { n with bmDonors := n.bmInit.erase n.localNodeid }
    if n.bmDonors = ∅ then (n, []) else (n, [.reqSlots nrSlots])

/-- `new_rqst_slots`. -/
def newRqstSlots (n : Node) (nrSlots : ℤ) : Node × List Msg :=
  if n.bmDonors = ∅ ∧ n.ownedSlots = 0 then { n with fsm := .reqSlots }.mcastRqstSlots nrSlots
  else (n, [])

/-- `primary_sts_mcast`. -/
def primaryStsMcast (c : Conf) (n : Node) : Node × List Msg :=
  if n.primaryMbr = some n.localNodeid then
    let n := { n with waitstsMbr := getNextMbr c n.waitstsMbr n.bmWaitsts }
    match n.waitstsMbr with
    | some w => (n, [.putStatus w n.bmInit n.bmWaitsts n.slot])
    | none => (n, [])
  else (n, [])

/-! ### `sp_join` -/

/-- The shared slots of a member that was taken for one of another partition. -/
def lost (c : Conf) (n : Node) (mbr : ℕ) : Finset ℕ :=
  c.shared.filter fun i => (n.slot i).owner = some mbr ∧ (n.slot i).partition = true

/-- The primary gets the slots of a member that was taken for one of another partition. -/
def reclaim (c : Conf) (n : Node) (mbr : ℕ) : Node :=
  let k : ℤ := if n.primaryMbr = some n.localNodeid then (n.lost c mbr).card else 0
  { n with
    freeSlots := n.freeSlots + k
    ownedSlots := n.ownedSlots + k
    totalSlots := n.totalSlots + (n.lost c mbr).card
    slot := fun i =>
      if i ∈ n.lost c mbr then ⟨(n.slot i).endpoint, false, false, n.primaryMbr⟩ else n.slot i }

def lonelyJoin (c : Conf) (n : Node) : Node :=
  { n with
    fsm := .running
    primaryMbr := some n.localNodeid
    bmInit := insert n.localNodeid n.bmInit
    initNodes := 1
    ownedSlots := n.totalSlots
    slot := fun i =>
      if i < c.nrSlots then { n.slot i with owner := some n.localNodeid } else n.slot i
    systask := n.systask.signal }

def awaitStatus (n : Node) : Node :=
  { n with bmWaitsts := insert n.localNodeid n.bmWaitsts, fsm := .waitStatus }

/-- `sp_join`. -/
def spJoin (c : Conf) (n : Node) (newMbr : ℕ) : Node × List Msg :=
  if newMbr = n.localNodeid then
    if n.activeNodes = 1 then (n.lonelyJoin c, []) else (n.awaitStatus, [])
  else
    let n := n.addWaitsts newMbr
    if n.fsm = .waitStatus then (n, [])
    else
      andThen ((n.reclaim c newMbr).clearRqsts.primaryStsMcast c) fun n =>
        n.newRqstSlots c.minOwnedSlots

/-! ### `sp_req_slots` -/

def freeOwned (c : Conf) (n : Node) : List ℕ :=
  c.sharedList.filter fun i =>
    n.desc i = .free false ∧ (n.slot i).owner = some n.localNodeid

/-- The slots `given` are marked as donated to `requester`. -/
def give (n : Node) (requester : ℕ) (given : List ℕ) : Node :=
  { n with
    freeSlots := n.freeSlots - given.length
    ownedSlots := n.ownedSlots - given.length
    slot := fun i =>
      if i ∈ given then { n.slot i with owner := some requester, donating := true } else n.slot i
    desc := fun i => if i ∈ given then .free true else n.desc i }

/-- The donation of `nr` slots; as many as are found are given. -/
def donate (c : Conf) (n : Node) (requester : ℕ) (nr : ℤ) : Node × List Msg :=
  let given := (n.freeOwned c).take nr.toNat
  (n.give requester given,
    [.donSlots requester nr (given ++ List.replicate (slotsByMsg - given.length) 0)])

/-- Who has nothing to donate waits for the first donation of another member, unless it is the next
member of the requester. -/
def reply (c : Conf) (n : Node) (requester : ℕ) (donated : ℤ) : Node × List Msg :=
  if donated = 0 ∧ requester ∉ n.bmPending ∧
      getNextMbr c (some requester) n.bmInit ≠ some n.localNodeid then
    ({ n with bmPending := insert requester n.bmPending }, [])
  else n.donate c requester (if slotsByMsg < donated then slotsByMsg else donated)

def donation (c : Conf) (n : Node) (needed : ℤ) : ℤ :=
  let surplus := n.freeSlots - c.freeSlotsLow
  if surplus ≤ 0 then 0
  else if ceiling needed (n.initNodes - 1) < surplus then ceiling needed (n.initNodes - 1)
  else surplus

/-- `sp_req_slots`. -/
def spReqSlots (c : Conf) (n : Node) (requester : ℕ) (needed : ℤ) : Node × List Msg :=
  if n.fsm.isInitialized = false then (n, [])
  else if requester = n.localNodeid then (n, [])
  else if requester ∉ n.bmInit then n.abort
  else if n.bmDonors ≠ ∅ then
    if requester ∈ n.bmDonors ∧
        getNextMbr c (some requester) n.bmInit ≠ some n.localNodeid then
      ({ n with bmDonors := n.bmDonors.erase requester }, [])
    else n.reply c requester 0
  else if n.initNodes - 1 ≤ 0 then n.abort
  else n.reply c requester (n.donation c needed)

/-! ### `sp_put_status` -/

/-- `sp_put_status` for the local node. -/
def ownStatus (c : Conf) (n : Node) (bmInit bmWaitsts : Finset ℕ) (tbl : ℕ → Slot) : Node :=
  let init := insert n.localNodeid (n.bmInit ∪ bmInit)
  { n with
    ownedSlots := 0
    bmInit := init
    initNodes := getInitNodes c init
    bmWaitsts := (n.bmWaitsts ∪ bmWaitsts).erase n.localNodeid
    slot := fun i => if i ∈ c.shared ∧ (n.slot i).owner = none then tbl i else n.slot i
    fsm := .reqSlots
    bmDonors := init.erase n.localNodeid }

def addInit (c : Conf) (n : Node) (initMbr : ℕ) : Node :=
  setMax c { n with bmInit := insert initMbr n.bmInit, initNodes := n.initNodes + 1 }

/-- `sp_put_status`. -/
def spPutStatus (c : Conf) (n : Node) (initMbr : ℕ) (bmInit bmWaitsts : Finset ℕ)
    (tbl : ℕ → Slot) : Node × List Msg :=
  if initMbr ≠ n.localNodeid then
    let n := n.dropWaitsts initMbr
    if n.fsm.isRunning then
      andThen (n.primaryStsMcast c) fun n =>
        if n.localNodeid ∉ n.bmInit ∨ initMbr ∈ n.bmInit then n.abort
        else (n.addInit c initMbr).spReqSlots c initMbr c.minOwnedSlots
    else ({ n with bmInit := insert initMbr n.bmInit }, [])
  else if n.fsm ≠ .waitStatus then (n, [])
  else (n.ownStatus c bmInit bmWaitsts tbl, [])

/-! ### `sp_don_slots` -/

def complete (n : Node) (dst i : ℕ) : Node :=
  { n with
    slot := Function.update n.slot i { n.slot i with owner := some dst, donating := false }
    desc := Function.update n.desc i (n.desc i).clrNoMap }

/-- The slots `given` go to `dst`. -/
def record (n : Node) (dst : ℕ) (given : List ℕ) : Node :=
  { n with
    slot := fun i => if i ∈ given then { n.slot i with owner := some dst } else n.slot i }

/-- A pending reply with no slots, sent after the first donation to `dst`. -/
def replyPending (n : Node) (env : Env) (dst : ℕ) : Node × List Msg :=
  if dst ∈ n.bmPending then
    if env.spoutOk then
      ({ n with bmPending := n.bmPending.erase dst },
        [.donSlots dst 0 (List.replicate slotsByMsg 0)])
    else ({ n with life := .gone }, [])
  else (n, [])

def receive (c : Conf) (n : Node) (source : ℕ) (nr : ℤ) : Node × List Msg :=
  let n := if n.ownedSlots = 0 ∧ 0 < nr then n.startRunning else n
  { n with
    freeSlots := n.freeSlots + nr
    ownedSlots := n.ownedSlots + nr
    bmDonors := n.bmDonors.erase source }.newRqstSlots c.minOwnedSlots

/-- `sp_don_slots`. -/
def spDonSlots (c : Conf) (n : Node) (env : Env) (source dst : ℕ) (nr : ℤ) (ia : List ℕ) :
    Node × List Msg :=
  let given := ia.take nr.toNat
  if dst ∉ n.bmInit ∨ source ∉ n.bmInit then n.abort
  -- the `return` of the donor stands in the loop over the donated slots
  else if source = n.localNodeid ∧ given ≠ [] then (n.complete dst (given.headD 0), [])
  else
    let n := n.record dst given
    if n.fsm.isInitialized = false then if dst = n.localNodeid then n.abort else (n, [])
    else if source = n.localNodeid then (n, [])
    else if dst ≠ n.localNodeid then n.replyPending env dst
    else n.receive c source nr

/-! ### Merging -/

/-- `copy_to_mrg`. -/
def copyToMrg (n : Node) : Node :=
  { n with slotMerge := n.slot, bmWaitstsMrg := n.bmWaitsts, bmInitMrg := n.bmInit }

/-- `copy_from_mrg`. -/
def copyFromMrg (n : Node) : Node :=
  { n with slot := n.slotMerge, bmWaitsts := n.bmWaitstsMrg, bmInit := n.bmInitMrg }

def ownerIn (t : ℕ → Slot) (bm : Finset ℕ) (i : ℕ) : Bool := (t i).owner.any (· ∈ bm)

def slotsOf (c : Conf) (t : ℕ → Slot) (bm : Finset ℕ) : Finset ℕ :=
  c.shared.filter fun i => ownerIn t bm i

def slotPart (n : Node) : ℕ → Slot := fun i =>
  if ownerIn n.slot n.bmInit i then n.slot i else { n.slot i with owner := none }

/-- The begin of `sp_net_merge`. -/
def startMerge (n : Node) : Node :=
  { n.clearRqsts with fsm := { n.fsm with merging := true } }.copyToMrg

/-- `sp_net_merge`. -/
def spNetMerge (c : Conf) (n : Node) (env : Env) : Node × List Msg :=
  let n := n.startMerge
  if n.fsm.isRunning = false then (n, [])
  else if n.primaryMbr ≠ some n.localNodeid then (n, [])
  else
    -- the loop counts the slots of system processes too
    ({ n with totalSlots := (slotsOf c n.slot n.bmInit).card + env.sysOwned },
      [.mergeStatus n.bmInit n.bmWaitsts n.slotPart])

/-- A slot of the table as a word: the fields `s_nr`, `s_endpoint`, `s_flags` and `s_owner`. -/
def slotWord (t : ℕ → Slot) (w : ℕ) : ℤ :=
  match w % 4 with
  | 0 => (w / 4 : ℕ)
  | 1 => (t (w / 4)).endpoint
  | 2 => (if (t (w / 4)).donating then 2 else 0) + if (t (w / 4)).partition then 4 else 0
  | _ => (t (w / 4)).owner.elim (-1) fun k => (k : ℤ)

/-- A word of the receive buffer behind the header of a status message: the DC descriptor, the
table, and what earlier messages have left. -/
def statusWord (c : Conf) (t : ℕ → Slot) (env : Env) (w : ℕ) : ℤ :=
  if w < c.dcuWords + 4 * c.nrSlots then slotWord t (w - c.dcuWords) else env.stale w

/-- The slot that stands in the receive buffer from the word `w` on. -/
def readSlot (f : ℕ → ℤ) (w : ℕ) : Slot where
  endpoint := f (w + 1)
  donating := (BitVec.ofInt 32 (f (w + 2))).getLsbD 1
  partition := (BitVec.ofInt 32 (f (w + 2))).getLsbD 2
  owner := if 0 ≤ f (w + 3) then some (f (w + 3)).toNat else none

/-- The table that `sp_merge_status` reads. It adds `sizeof(dc_usr_t)` to a pointer to `slot_t`, so
that it goes on by that many slots, and not bytes. -/
def readPart (c : Conf) (t : ℕ → Slot) (env : Env) : ℕ → Slot := fun i =>
  readSlot (statusWord c t env) (4 * (4 * c.dcuWords) + 4 * i)

/-- The slots that `sp_merge_status` takes from a received table. -/
def taken (c : Conf) (part : ℕ → Slot) : Finset ℕ :=
  c.shared.filter fun i => (part i).partition = false

/-- The loop of `sp_merge_status` over the received table. -/
def mergePart (c : Conf) (n : Node) (bmInit bmWaitsts : Finset ℕ) (part : ℕ → Slot) : Node :=
  { n with
    totalSlots := (taken c part).card
    slotMerge := fun i =>
      if i ∈ taken c part then
        { if (part i).owner ≠ some n.localNodeid then part i else n.slotMerge i with
          partition := false }
      else n.slotMerge i
    bmInitMrg := n.bmInitMrg ∪ bmInit
    bmWaitstsMrg := n.bmWaitstsMrg ∪ bmWaitsts }

def commit (c : Conf) (n : Node) : Node × List Msg :=
  let n := n.copyFromMrg
  let n := setMax c { n.clearRqsts with initNodes := getInitNodes c n.bmInit }
  let n := n.setPrimary (getPrimaryMbr c n.bmInit)
  if n.primaryMbr = none then n.abort
  else
    andThen (n.primaryStsMcast c) fun n =>
      if n.ownedSlots = 0 then n.newRqstSlots c.minOwnedSlots else ({ n with fsm := .running }, [])

/-- The last slot of the table is one of another partition with an active owner. The loop that looks
for such slots has `spm` where it means `slot_merge[i]`. -/
def lastPending (c : Conf) (n : Node) : Bool :=
  (n.slotMerge (c.nrSlots - 1)).partition && ownerIn n.slotMerge n.bmActive (c.nrSlots - 1)

/-- The node after the table of a message has been merged, if it is from another partition. -/
def merged (c : Conf) (n : Node) (env : Env) (sender : ℕ) (bmInit bmWaitsts : Finset ℕ)
    (tbl : ℕ → Slot) : Node :=
  if sender ∉ n.bmInit then n.mergePart c bmInit bmWaitsts (readPart c tbl env) else n

/-- `pending` in `sp_merge_status`. A message of the own partition leaves `spm` uninitialised. -/
def pending (c : Conf) (n : Node) (env : Env) (sender : ℕ) : Bool :=
  if sender ∉ n.bmInit then n.lastPending c else env.spmPending

/-- `sp_merge_status`. -/
def spMergeStatus (c : Conf) (n : Node) (env : Env) (sender : ℕ) (bmInit bmWaitsts : Finset ℕ)
    (tbl : ℕ → Slot) : Node × List Msg :=
  if n.fsm.merging = false then ({ n.initGlobalVars with fsm := .waitStatus }, [])
  else
    let n := n.merged c env sender bmInit bmWaitsts tbl
    if n.pending c env sender then (n, []) else n.commit c

/-! ### `sp_disconnect` -/

/-- The slot `i` goes to the primary. -/
def inherit (n : Node) (i : ℕ) : Node :=
  let n := { n with slot := setOwner n.slot i n.primaryMbr }
  if n.primaryMbr = some n.localNodeid then
    let n := if n.ownedSlots = 0 then n.startRunning else n
    { n with ownedSlots := n.ownedSlots + 1, freeSlots := n.freeSlots + 1 }
  else n

/-- The donor takes the slot `i` back. -/
def takeBack (n : Node) (i : ℕ) : Node :=
  { n with
    freeSlots := n.freeSlots + 1
    ownedSlots := n.ownedSlots + 1
    slot := setOwner n.slot i (some n.localNodeid)
    desc := Function.update n.desc i (n.desc i).clrNoMap }

/-- The process of the dead node in the slot `i` is unbound. -/
def deregister (n : Node) (discMbr i : ℕ) : Node :=
  match n.desc i with
  | .free _ => n
  | .bound k =>
    if k = discMbr then { n with desc := Function.update n.desc i (.free false) }
    else { n with life := .gone }

/-- A turn of the loop over the shared slots; `ERROR_EXIT` ends the process. -/
def discSlot (discMbr : ℕ) (n : Node) (i : ℕ) : Node :=
  if n.life = .alive ∧ (n.slot i).owner = some discMbr then
    let n := if (n.slot i).donating then n.takeBack i else n.inherit i
    if n.fsm = .waitStatus then n else n.deregister discMbr i
  else n

def forget (n : Node) (discMbr : ℕ) : Node :=
  { n with
    initNodes := if discMbr ∈ n.bmInit then n.initNodes - 1 else n.initNodes
    bmInit := n.bmInit.erase discMbr
    bmDonors := n.bmDonors.erase discMbr
    bmWaitsts := n.bmWaitsts.erase discMbr
    bmPending := n.bmPending.erase discMbr }

def elect (c : Conf) (n : Node) (discMbr : ℕ) : Node :=
  if n.primaryMbr = some discMbr then n.setPrimary (getPrimaryMbr c n.bmInit) else n

def reallocate (c : Conf) (n : Node) (discMbr : ℕ) : Node :=
  c.sharedList.foldl (discSlot discMbr) (setMax c ((n.forget discMbr).elect c discMbr))

/-- `sp_disconnect`. -/
def spDisconnect (c : Conf) (n : Node) (env : Env) (discMbr : ℕ) : Node × List Msg :=
  if n.localNodeid = discMbr then ({ n with fsm := .disconnected }, [])
  else if n.fsm.isInitialized = false ∧ n.activeNodes = 1 then n.restart
  else if n.fsm.merging then n.spNetMerge c env
  else if n.primaryMbr = some discMbr ∧ ((n.forget discMbr).elect c discMbr).primaryMbr = none then
    ((n.forget discMbr).elect c discMbr).restart
  else
    let n := n.reallocate c discMbr
    if n.life ≠ .alive then (n, [])
    else if n.fsm = .waitStatus then (n, [])
    else andThen (n.primaryStsMcast c) fun n => n.clearRqsts.newRqstSlots c.minOwnedSlots

/-! ### `sp_net_partition` -/

def donatingSlots (c : Conf) (n : Node) : Finset ℕ :=
  c.shared.filter fun i => (n.slot i).donating = true

def restore (c : Conf) (n : Node) : Node :=
  { n with
    freeSlots := n.freeSlots + (n.donatingSlots c).card
    ownedSlots := n.ownedSlots + (n.donatingSlots c).card
    slot := fun i =>
      if i ∈ n.donatingSlots c then
        { n.slot i with owner := some n.localNodeid, donating := false }
      else n.slot i
    desc := fun i => if i ∈ n.donatingSlots c then (n.desc i).clrNoMap else n.desc i }

/-- The shared slots of members outside of the partition are marked; the others are counted. -/
def markPartition (c : Conf) (n : Node) : Node :=
  { n with
    totalSlots := (slotsOf c n.slot n.bmInit).card
    slot := fun i =>
      if i ∈ c.shared ∧ ownerIn n.slot n.bmInit i = false then
        { n.slot i with partition := true }
      else n.slot i }

def mask (n : Node) : Node :=
  { n with bmInit := n.bmInit ∩ n.bmActive, bmWaitsts := n.bmWaitsts ∩ n.bmActive }

def recount (c : Conf) (n : Node) : Node :=
  let n := (n.restore c).markPartition c
  setMax c { n with initNodes := getInitNodes c n.bmInit }

/-- The end of `sp_net_partition`, in the partition of the primary. -/
def goOn (c : Conf) (n : Node) : Node × List Msg :=
  andThen ((n.recount c).primaryStsMcast c) fun n =>
    let n := n.clearRqsts
    if n.ownedSlots = 0 ∧ 1 < n.initNodes then n.newRqstSlots c.minOwnedSlots else (n, [])

/-- `sp_net_partition`. `FSM_state` never is `STS_MERGE_STATUS`, of which `sp_net_merge` sets one
bit only, so that the merge is not given up here. -/
def spNetPartition (c : Conf) (n : Node) : Node × List Msg :=
  let n := n.mask
  if n.fsm = .waitStatus then (n, [])
  else if n.primaryMbr.any (· ∈ n.bmInit) then n.goOn c
  else
    let n := n.setPrimary (getPrimaryMbr c n.bmInit)
    if n.primaryMbr ≠ none then n.restart else n.goOn c

/-! ### `slots_loop` -/

/-- A partition if the bitmap of the members gets smaller as a number, and a merge if it gets
greater. -/
def networkChange (c : Conf) (n : Node) (env : Env) (members : Finset ℕ) : Node × List Msg :=
  if bmWord members < bmWord n.bmActive then (n.setView members).spNetPartition c
  else if bmWord n.bmActive < bmWord members then (n.setView members).spNetMerge c env
  else (n, [])

def onMessage (c : Conf) (n : Node) (env : Env) (source : ℕ) : Msg → Node × List Msg
  | .reqSlots needed => n.spReqSlots c source needed
  | .donSlots dst nr ia => n.spDonSlots c env source dst nr ia
  | .putStatus dest bmInit bmWaitsts tbl =>
    (if n.fsm.isInitialized then n else n.setPrimary (some source)).spPutStatus c dest bmInit
      bmWaitsts tbl
  | .mergeStatus bmInit bmWaitsts tbl => n.spMergeStatus c env source bmInit bmWaitsts tbl

def handle (c : Conf) (n : Node) (env : Env) (e : Event) : Node × List Msg :=
  if n.life ≠ .alive then (n, [])
  else
    match e with
    | .join mbr members => (n.setView members).spJoin c mbr
    | .disconnect mbr members => (n.setView members).spDisconnect c env mbr
    | .network members => n.networkChange c env members
    | .message source msg => n.onMessage c env source msg

end Node

end Slots

end MolIpc
