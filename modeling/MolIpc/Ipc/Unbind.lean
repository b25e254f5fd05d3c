import MolIpc.Ipc.Calls
import MolIpc.Lib.Sections

/-!
`do_unbind`: a process leaves the table of its DC.

The function releases the descriptor of the process, and takes it again, each time it locks
another descriptor with a smaller number. Its body is therefore a list of sections, between
which others may move; `doUnbind` is the call that nobody disturbs. The counter of references to
the DC is kept elsewhere.
-/

namespace MolIpc

open Sections

/-- The process blocks in a receive from `ep` and has nothing to send. -/
def Proc.receivesFrom (p : Proc) (ep : ℤ) : Prop :=
  p.rts.sending = false ∧ p.rts.receiving = true ∧ p.getfrom = ep

instance (p : Proc) (ep : ℤ) : Decidable (p.receivesFrom ep) := by
  unfold Proc.receivesFrom; infer_instance

/-- A process of the same DC, a task that is bound to no process, or one that is bound elsewhere or
to a proxy. -/
inductive Caller
  | proc (c : ℤ)
  | unbound
  | foreign
  deriving DecidableEq, Repr

/-- The flags `SLOT_FREE`, `REMOTE` and `MIS_RMTBACKUP` of a descriptor. -/
@[ext]
structure Holding where
  slotFree : Bool
  remote : Bool
  rmtbackup : Bool
  deriving DecidableEq, Repr

def Proc.holding (p : Proc) : Holding := ⟨p.rts.slotFree, p.rts.remote, p.misc.rmtbackup⟩

/-- What `do_unbind` looks at of the process that is to leave. -/
def Proc.standing (p : Proc) : Holding × Bool × Bool × ℤ :=
  (p.holding, p.rts.noEndpoint, p.misc.proxy, p.nodeid)

namespace Node

/-! ### Queues -/

/-- `LIST_DEL_INIT(&x->p_mlink)`. -/
def unlinkM (n : Node) (x : ℤ) : Node :=
  { n with proc := fun q => { n.proc q with mlist := (n.proc q).mlist.filter (· ≠ x) } }

/-- `LIST_DEL_INIT(&x->p_ulink)`. -/
def unlinkU (n : Node) (x : ℤ) : Node :=
  { n with proc := fun q => { n.proc q with ulist := (n.proc q).ulist.filter (· ≠ x) } }

/-- A local process is woken up, to the node of a remote one goes an acknowledge. -/
def tell (n : Node) (ack : Cmd) (x i code : ℤ) : Node :=
  if (n.proc x).rts.remote then (n.genericAckLcl2rmt ack x i code).1 else n.modProc x (·.up code)

/-- The process numbers of the table, in the order of `FOR_EACH_PROC`. -/
def table (n : Node) : List ℤ :=
  (List.range (n.conf.dcNrTasks + n.conf.dcNrProcs).toNat).map fun k : ℕ =>
    (k : ℤ) - n.conf.dcNrTasks

theorem mem_table {n : Node} {q : ℤ} : q ∈ n.table ↔ n.conf.inRange q := by
  unfold table Conf.inRange
  rw [List.mem_map]
  constructor
  · rintro ⟨k, hk, rfl⟩
    have := List.mem_range.1 hk
    omega
  · rintro ⟨h1, h2⟩
    exact ⟨(q + n.conf.dcNrTasks).toNat, List.mem_range.2 (by omega), by omega⟩

theorem table_nodup (n : Node) : n.table.Nodup := by
  refine List.pairwise_map.2 (List.nodup_range.imp fun h he => h ?_)
  omega

/-! ### Sections -/

/-- The sender `x` in the queue of `i`. -/
def unbindSender (i x : ℤ) (n : Node) : Node :=
  ((n.unlink x).modProc x fun p => { p with rts := { p.rts with sending := false } }).tell
    .sendAck x i EMol.dstdied

/-- The descriptor `q` loses the notification of `i` that is pending for it. -/
def unbindBit (i q : ℤ) (n : Node) : Node :=
  if (n.proc i).sId < n.conf.dcNrSysprocs then
    n.modProc q fun p =>
      { p with notifyPending := Function.update p.notifyPending (n.proc i).sId.toNat false }
  else n

/-- The process `q`, if it receives from `i`. The bit `RECEIVING` of a local receiver stays. -/
def unbindReceiver (i q : ℤ) (n : Node) : Node :=
  if (n.proc q).receivesFrom (n.proc i).endpoint then
    if (n.proc q).rts.remote then
      ((n.modProc q fun p => { p with rts := { p.rts with receiving := false } }).genericAckLcl2rmt
        .sndrecAck q i EMol.srcdied).1
    else n.modProc q (·.up EMol.srcdied)
  else n

/-- The turn of the descriptor `q` in the scan of the table. -/
def unbindScan (i q : ℤ) (n : Node) : Node :=
  if q = i ∨ (n.proc q).rts.slotFree then n else unbindReceiver i q (unbindBit i q n)

/-- The descriptor `i` leaves the queue of a sender proxy. -/
def unbindProxy (i : ℤ) (n : Node) : Node :=
  if (n.proc i).rts.rmtoper then
    (if (n.proc i).proxy ≠ noneEp then n.unlink i else n).modProc i fun p =>
      { p with rts := { p.rts with rmtoper := false }, proxy := noneEp }
  else n

/-- The descriptor that is locked for a back reference. The number of tasks is subtracted from the
process number, where `ENDPOINT2PTR` adds it. -/
def backReference (n : Node) (ep : ℤ) : ℤ := endpointP ep - 2 * n.conf.dcNrTasks

/-- The descriptor `i` leaves the queue it sends to, if the descriptor locked for it is a local one.
-/
def unbindSending (i : ℤ) (n : Node) : Node :=
  if (n.proc i).rts.sending then
    (if (n.proc (n.backReference (n.proc i).sendto)).rts.remote then n else n.unlink i).modProc i
      Proc.endSend
  else n

/-- The descriptor `i` leaves the queue of the process whose migration it waits for. -/
def unbindWaitmigr (i : ℤ) (n : Node) : Node :=
  if (n.proc i).rts.waitmigr then
    (n.unlinkM i).modProc i fun p =>
      { p with rts := { p.rts with waitmigr := false }, waitmigr := noneEp }
  else n

/-- The process `x` that waits for the migration of `i`. -/
def unbindMigr (i x : ℤ) (n : Node) : Node :=
  ((n.unlinkM x).modProc x fun p =>
    { p with rts := { p.rts with waitmigr := false }, waitmigr := noneEp }).tell
      .sendAck x i EMol.notbind

/-- The descriptor `i` leaves the queue of the process whose unbinding it waits for. -/
def unbindWaitunbind (i : ℤ) (n : Node) : Node :=
  if (n.proc i).rts.waitunbind then
    (n.unlinkU i).modProc i fun p =>
      { p with rts := { p.rts with waitunbind := false }, waitunbind := noneEp }
  else n

/-- The process `x` that waits for the unbinding of `i`, which is what it gets. -/
def unbindWaiter (i x : ℤ) (n : Node) : Node :=
  ((n.unlinkU x).modProc x fun p =>
    { p with rts := { p.rts with waitunbind := false }, waitunbind := noneEp }).tell
      .sendAck x i EMol.ok

def unbindInit (i : ℤ) (n : Node) : Node := n.modProc i (·.initDesc n.conf.dcid)

/-- The body of `do_unbind`. -/
def unbindBody (i : ℤ) : List (Block Node ℤ) :=
  [.each (fun n => (n.proc i).list) (unbindSender i),
    .each table (unbindScan i),
    .sec (unbindProxy i),
    .sec (unbindSending i),
    .sec (unbindWaitmigr i),
    .each (fun n => (n.proc i).mlist) (unbindMigr i),
    .sec (unbindWaitunbind i),
    .each (fun n => (n.proc i).ulist) (unbindWaiter i),
    .sec (unbindInit i)]

/-! ### The call -/

def unbindCheck (n : Node) (caller : Caller) (i : ℤ) : ℤ :=
  let p := n.proc i
  if p.rts.slotFree then EMol.notbind
  else if p.rts.noEndpoint then EMol.endpoint
  else if p.misc.proxy then EMol.badproc
  else if ¬ n.conf.dcNodes p.nodeid then EMol.nodcnode
  else if caller = .foreign then EMol.baddcid
  else EMol.ok

/-- Another local process is left alone in a copy (the requester is marked), and else gets a signal,
with the result `sig`, and is woken up if it sleeps. -/
def unbindOther (n : Node) (i sig : ℤ) : Node × ℤ :=
  let p := n.proc i
  if p.rts.oncopy then
    (if p.rts.rmtoper then n.modProc i fun p => { p with rts := { p.rts with signaled := true } }
      else n, EMol.ok)
  else if sig ≠ 0 then (n, sig)
  else
    (if p.rts ≠ Rts.running then n.modProc i (·.up EMol.shutdown) else n, EMol.again)

/-- `do_unbind` of the process `i`, undisturbed. -/
def doUnbind (n : Node) (caller : Caller) (i sig : ℤ) : Node × ℤ :=
  if n.unbindCheck caller i ≠ EMol.ok then (n, n.unbindCheck caller i)
  else if ¬ (n.proc i).rts.remote then
    if caller ≠ .proc i then n.unbindOther i sig else (Sections.run (unbindBody i) n, EMol.ok)
  else if (n.proc i).misc.rmtbackup then (n.unbindInit i, EMol.ok)
  else (Sections.run (unbindBody i) n, EMol.ok)

/-- `do_unbind` of the process `i` with others, that move as far as `R` allows. -/
def UnbindRuns (R : Node → Node → Prop) (n : Node) (caller : Caller) (i sig : ℤ) (n' : Node)
    (code : ℤ) : Prop :=
  if n.unbindCheck caller i ≠ EMol.ok then n' = n ∧ code = n.unbindCheck caller i
  else if ¬ (n.proc i).rts.remote then
    if caller ≠ .proc i then (n', code) = n.unbindOther i sig
    else Sections.Runs R (unbindBody i) n n' ∧ code = EMol.ok
  else if (n.proc i).misc.rmtbackup then n' = n.unbindInit i ∧ code = EMol.ok
  else Sections.Runs R (unbindBody i) n n' ∧ code = EMol.ok

theorem unbindRuns_doUnbind {R : Node → Node → Prop} (hR : ∀ n, R n n) (n : Node) (caller : Caller)
    (i sig : ℤ) :
    UnbindRuns R n caller i sig (n.doUnbind caller i sig).1 (n.doUnbind caller i sig).2 := by
  have hrun : Sections.Runs R (unbindBody i) n (Sections.run (unbindBody i) n) := runs_run hR _ n
  unfold UnbindRuns doUnbind
  split_ifs <;> first | exact ⟨rfl, rfl⟩ | exact ⟨hrun, rfl⟩ | rfl

end Node

end MolIpc
