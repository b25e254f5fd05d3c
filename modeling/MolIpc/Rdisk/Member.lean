import MolIpc.Rdisk.Device
import Mathlib.Data.Finset.Card

/-!
A member of the replication group of RDISK (`replicate.c`): its variables, and what it does on
each event that `replica_loop` receives from Spread. A handler gives the state after the event and
what it has multicast on the way; `m_source` is the sender of a message.

`exited` is set where the source calls `exit`. The driver thread shares the variables with the
thread of `replica_loop` under `rd_mutex`; of its own state the model keeps what it does with
requests, from the time it is past `rd_barrier` and `primary_barrier`.
-/

namespace MolIpc

namespace Rdisk

open Disk

/-- `NR_NODES`. -/
def nrNodesMax : ℕ := 32

/-- `FSM_state`. -/
inductive Fsm
  | new | wait4primary | wait4sync | synchronized | leave | disconnected
  deriving DecidableEq, Repr

/-- A write request in the driver thread, between two turns of `m_transfer`. -/
structure Call where
  procNr : ℤ
  device : Fin nrDevs
  vcopy : ℕ → ℕ → Option (List UInt8)
  t : Transfer

/-- The driver thread: idle, in `m_transfer`, in `m_do_open` after the test of `nr_nodes`, or
blocked on `update_barrier` (with the write request, or none in `m_do_open`). -/
inductive Thread
  | idle
  | transfer (c : Call)
  | opening (device : Fin nrDevs)
  | blocked (next : Option Call) (signalled : Bool)

structure Member where
  localNodeid : ℕ
  dcNrNodes : ℤ
  exited : Bool
  synchronized : Bool
  fsm : Fsm
  /-- `none` is `NO_PRIMARY`. -/
  primaryMbr : Option ℕ
  nrNodes : ℤ
  nrSync : ℤ
  bmNodes : Finset ℕ
  bmSync : Finset ℕ
  bmAcks : Finset ℕ
  dev : Fin nrDevs → Dev
  /-- What the last failed call of the C library has left in `errno`. -/
  errno : ℤ
  thread : Thread

/-- The multicasts of the group. -/
inductive Msg
  | devWrite (w : DevWrite)
  | devOpen (device : Fin nrDevs)
  | taskReply
  | statusInfo (nrNodes nrSync : ℤ) (bmNodes bmSync : Finset ℕ)
  | synchronized
  deriving DecidableEq

/-- A join or a leave with the number of members after it, a network change with the new members, or
a message, with what earlier ones have left in the buffer. -/
inductive Event
  | join (mbr : ℕ) (numGroups : ℤ)
  | disconnect (mbr : ℕ) (numGroups : ℤ)
  | network (members : Finset ℕ)
  | message (source : ℕ) (msg : Msg) (stale : List UInt8)

/-- What the code runs on: LZ4, and the value that `SP_multicast` returns when it succeeds. -/
structure Env where
  lz : Lz4
  sent : ℤ
  sent_nonneg : 0 ≤ sent

def Env.sample : Env := ⟨.sample, 36, by decide⟩

namespace Member

/-- A member after `init_replicate`, with the devices of its configuration file. -/
def init (localNodeid : ℕ) (dcNrNodes : ℤ) (dev : Fin nrDevs → Dev) (errno : ℤ) : Member where
  localNodeid := localNodeid
  dcNrNodes := dcNrNodes
  exited := false
  synchronized := false
  fsm := .new
  primaryMbr := none
  nrNodes := 0
  nrSync := 0
  bmNodes := ∅
  bmSync := ∅
  bmAcks := ∅
  dev d := { dev d with active := false }
  errno := errno
  thread := .idle

/-- `primary_mbr == local_nodeid`. -/
def IsPrimary (m : Member) : Prop := m.primaryMbr = some m.localNodeid

instance (m : Member) : Decidable m.IsPrimary := inferInstanceAs (Decidable (_ = _))

def setThread (m : Member) (th : Thread) : Member := { m with thread := th }

/-- A signal on `update_barrier`: it is lost unless the driver thread waits there. -/
def signalUpdate (m : Member) : Member :=
  match m.thread with
  | .blocked next _ => m.setThread (.blocked next true)
  | _ => m

/-! ### Membership -/

/-- `send_status_info`. -/
def sendStatusInfo (m : Member) : List Msg :=
  if m.IsPrimary then [.statusInfo m.nrNodes m.nrSync m.bmNodes m.bmSync] else []

/-- `sp_join`. -/
def spJoin (m : Member) (newMbr : ℕ) : Member × List Msg :=
  if m.nrNodes < 0 ∨ m.dcNrNodes ≤ m.nrNodes then (m, [])
  else
    let m := { m with bmNodes := insert newMbr m.bmNodes }
    if newMbr = m.localNodeid then
      if m.nrNodes = 1 then
        let m :=
          { m with
            fsm := .synchronized
            synchronized := true
            bmSync := insert m.localNodeid m.bmSync
            nrSync := 1
            primaryMbr := some m.localNodeid }
        (m, m.sendStatusInfo)
      else ({ m with fsm := .wait4primary }, [])
    else (m, if m.IsPrimary then m.sendStatusInfo else [])

/-- The node `i` in the search for a new primary: each member looks only for itself. -/
def electAt (m : Member) (i : ℕ) : Member × List Msg :=
  if i ∈ m.bmNodes ∧ i = m.localNodeid then
    let m := { m with primaryMbr := some m.localNodeid }
    (m, m.sendStatusInfo)
  else (m, [])

/-- The search for a new primary over all the nodes. It does not stop at the first one. -/
def elect (m : Member) : Member × List Msg :=
  (List.range nrNodesMax).foldl
    (fun r i => ((r.1.electAt i).1, r.2 ++ (r.1.electAt i).2)) (m, [])

/-- A member that is not synchronized forgets the group when somebody leaves. -/
def restart (m : Member) : Member :=
  { m with fsm := .new, bmNodes := ∅, bmSync := ∅, nrNodes := 0, nrSync := 0 }

/-- The one that has left is not counted any more if it was synchronized. -/
def dropSync (m : Member) (discMbr : ℕ) : Member :=
  { m with
    nrSync := if discMbr ∈ m.bmSync then m.nrSync - 1 else m.nrSync
    bmSync := m.bmSync.erase discMbr }

/-- The rest of `sp_disconnect` on a synchronized member: another primary if the primary has left.
-/
def replacePrimary (m : Member) (discMbr : ℕ) : Member × List Msg :=
  if m.primaryMbr = some discMbr ∧ m.bmSync = ∅ then
    { m with fsm := .new, bmAcks := ∅ }.spJoin m.localNodeid
  else
    let r := if m.primaryMbr = some discMbr then m.elect else (m, [])
    ({ r.1 with bmAcks := r.1.bmAcks.erase discMbr }, r.2)

/-- `sp_disconnect`. -/
def spDisconnect (m : Member) (discMbr : ℕ) : Member × List Msg :=
  let m := { m with bmNodes := m.bmNodes.erase discMbr }
  if m.localNodeid = discMbr then
    ({ m with fsm := .disconnected, bmSync := m.bmSync.erase discMbr }, [])
  else if m.synchronized = false then m.restart.spJoin m.localNodeid
  else (m.dropSync discMbr).replacePrimary discMbr

/-- `mc_status_info`. The state after `send_synchronized` depends on whether the result of
`SP_multicast` is 0. -/
def mcStatusInfo (env : Env) (m : Member) (source : ℕ) (nrNodes nrSync : ℤ)
    (bmNodes bmSync : Finset ℕ) : Member × List Msg :=
  if m.fsm ≠ .wait4primary then (m, [])
  else
    let m := { m with primaryMbr := some source }
    if m.nrNodes ≠ nrNodes then ({ m with exited := true }, [])
    else
      let m := { m with nrSync := nrSync, bmNodes := bmNodes, bmSync := bmSync, fsm := .wait4sync }
      (if env.sent ≠ 0 then { m with fsm := .wait4primary } else m, [.synchronized])

/-- `mc_synchronized`. -/
def mcSynchronized (m : Member) (source : ℕ) : Member :=
  let m := if source = m.localNodeid then { m with fsm := .synchronized, synchronized := true } else m
  if m.synchronized = false then m
  else { m with nrSync := m.nrSync + 1, bmSync := insert source m.bmSync }

/-! ### Device operations -/

/-- The image after a chunk: `none` where the backup exits because the data do not decompress to
`COUNT` bytes, of as many bytes of the buffer. -/
def writeChunk (env : Env) (img : File UInt8) (w : DevWrite) (stale : List UInt8) :
    Option (File UInt8) :=
  let input := (w.buffer ++ stale).take w.count
  if w.comp then
    match env.lz.decompress input with
    | none => none
    | some data => if data.length = w.count then some (img.pwrite ⟨w.position, data⟩) else none
  else some (img.pwrite ⟨w.position, input⟩)

def setImg (m : Member) (d : Fin nrDevs) (img : File UInt8) : Member :=
  { m with dev := Function.update m.dev d { m.dev d with img := img } }

/-- The acknowledge starts again: all the synchronized members but the primary owe one. -/
def startAcks (m : Member) (source : ℕ) : Member := { m with bmAcks := m.bmSync.erase source }

def reply (m : Member) (source n : ℕ) : Member × List Msg :=
  ({ m with bmAcks := if n = 0 then m.bmAcks else m.bmAcks.erase source },
    List.replicate n .taskReply)

/-- `rep_dev_write`, with the call of `m_transfer` at its end. A device that is not active is
`ENXIO`. -/
def repDevWrite (env : Env) (m : Member) (source : ℕ) (w : DevWrite) (stale : List UInt8) :
    Member × List Msg :=
  if m.synchronized = false ∨ m.primaryMbr ≠ some source then (m, [])
  else
    let m := m.startAcks source
    if m.IsPrimary then (m, [])
    else
      match mPrepare m.dev w.device with
      | none => (m, [])
      | some d =>
        match writeChunk env (m.dev d).img w stale with
        | none => ({ m with exited := true }, [])
        | some img =>
          -- a group with a backup has at least two nodes in its DC
          let n :=
            if 1 < m.dcNrNodes then
              backupReplies (m.dev d) w.position w.nrOptrans (w.count + 1) w.count
            else 0
          (m.setImg d img).reply source n

/-- `rep_task_reply`. -/
def repTaskReply (m : Member) (source : ℕ) : Member :=
  if m.synchronized = false ∨ source ∉ m.bmSync then m
  else
    let m := { m with bmAcks := m.bmAcks.erase source }
    if m.IsPrimary ∧ m.bmAcks = ∅ then m.signalUpdate else m

/-- The first half of `m_do_open`: the device after it and `rcode`. -/
def openDevice (m : Member) (d : Fin nrDevs) : Member × ℤ :=
  if (m.dev d).available = false then (m, m.errno)
  else
    match (m.dev d).openErr with
    | some e => (m, e)
    | none => ({ m with dev := Function.update m.dev d { m.dev d with active := true } }, EMol.ok)

/-- `rep_dev_open`, with `m_do_open` on a backup. -/
def repDevOpen (m : Member) (source : ℕ) (d : Fin nrDevs) : Member × List Msg :=
  if m.synchronized = false ∨ m.primaryMbr ≠ some source then (m, [])
  else
    let m := m.startAcks source
    if m.IsPrimary then (m, [])
    else
      let m := (m.openDevice d).1
      m.reply source (if 1 < m.nrNodes then 1 else 0)

/-! ### `replica_loop` -/

/-- What `replica_loop` does on an event. A process that has left with `exit` does nothing. -/
def handle (env : Env) (m : Member) (e : Event) : Member × List Msg :=
  if m.exited then (m, [])
  else
    match e with
    | .join mbr num => { m with nrNodes := num }.spJoin mbr
    | .disconnect mbr num => { m with nrNodes := num }.spDisconnect mbr
    | .network members => ({ m with bmNodes := members, nrNodes := members.card }, [])
    | .message src (.devWrite w) stale => m.repDevWrite env src w stale
    | .message src (.devOpen d) _ => m.repDevOpen src d
    | .message src .taskReply _ => (m.repTaskReply src, [])
    | .message src (.statusInfo n s bn bs) _ => m.mcStatusInfo env src n s bn bs
    | .message src .synchronized _ => (m.mcSynchronized src, [])

/-! ### The driver thread -/

/-- A write request comes: `do_vrdwt` prepares the device and calls `m_transfer`. -/
def startWrite (m : Member) (procNr device position : ℤ) (iov : List (ℕ × ℕ))
    (vcopy : ℕ → ℕ → Option (List UInt8)) : Member :=
  match mPrepare m.dev device with
  | none => m
  | some d => m.setThread (.transfer ⟨procNr, d, vcopy, ⟨position, iov, 0⟩⟩)

/-- What `m_transfer` of a request reads. -/
def scatterEnv (env : Env) (m : Member) (c : Call) : ScatterEnv where
  lz := env.lz
  device := c.device
  procNr := c.procNr
  vcopy := c.vcopy
  addrS := 0
  nrNodes := m.nrNodes

def turn (env : Env) (m : Member) (c : Call) : Member × List Msg :=
  match primaryTurn (m.scatterEnv env c) m.dcNrNodes (m.dev c.device) c.t with
  | (img, sent, .ret _) => ((m.setImg c.device img).setThread .idle, sent.map .devWrite)
  | (img, sent, .goOn t) =>
    ((m.setImg c.device img).setThread
        (if 1 < m.dcNrNodes ∧ 1 < m.nrNodes then .blocked (some { c with t := t }) false
        else .transfer { c with t := t }),
      sent.map .devWrite)

/-- `m_do_open` on the primary up to the test of `nr_nodes`, which it makes without the mutex. -/
def startOpen (m : Member) (d : Fin nrDevs) : Member :=
  let r := m.openDevice d
  if 1 < r.1.nrNodes ∧ r.2 = EMol.ok then r.1.setThread (.opening d) else r.1

def sendOpen (m : Member) (d : Fin nrDevs) : Member × List Msg :=
  (m.setThread (.blocked none false), [.devOpen d])

def wakeUp (m : Member) (next : Option Call) : Member :=
  match next with
  | some c => m.setThread (.transfer c)
  | none => m.setThread .idle

end Member

end Rdisk

end MolIpc
