import MolIpc.Ipc.Migrate
import MolIpc.Ipc.RemoteBind
import MolIpc.Ipc.SlotUse

/-!
# Remote processes in the tables of SYSTASK

A node learns about the processes of the others in two ways: `do_bindproc` with `RMT_BIND`, and the
system calls that the SYSTASKs multicast to each other, which `sp_syscall` replays. In three places
an `if` without braces covers a debug message only, or a test is the wrong way round, so that the
call is refused where it should go on: a slot in use is never bound again, the fork of a user
process is never followed, and neither is a migration, which changes the owner of the slot besides.
-/

namespace MolIpc

/-- What SYSTASK knows: the owner of the slot of each process, and the table of the kernel. -/
structure Systask where
  owner : ℤ → Option ℤ
  kernel : Node

/-- What a call leaves and returns, and whether all the kernel calls that it made succeeded. -/
structure Reply where
  tables : Systask
  code : ℤ
  kernelOk : Bool := true

inductive SysType
  | bindproc | fork | exec | migrproc | exit | other
  deriving DecidableEq, Repr

/-- A message about the process with the endpoint `ep`, whose number is that of the endpoint. -/
structure SysMsg where
  source : ℤ
  type : SysType
  ep : ℤ

theorem Node.rmtBind_eq_ok {n : Node} {s : Dvs} {ep node r : ℤ}
    (h : (n.rmtBind s ep node).2 = .ok r) :
    ((n.rmtBind s ep node).1.proc (endpointP ep)).rts = { remote := true } ∧
      ((n.rmtBind s ep node).1.proc (endpointP ep)).nodeid = node := by
  unfold rmtBind bind at h ⊢
  split at h
  · cases h
  · rename_i m node' hopen
    have hnode : node' = node := by
      unfold bindOpen at hopen
      split at hopen
      · cases hopen
      · rename_i k hk
        split_ifs at hopen with hc ht
        · cases hopen
        · cases hopen
        · obtain rfl : k = node' := by
            injection hopen with _ hk'
            exact Except.ok.inj hk'
          unfold bindNode at hk
          dsimp only at hk
          split_ifs at hk
          exact (Option.some.inj hk).symm
    unfold bindClose at h ⊢
    split_ifs at h ⊢
    rw [modProc_same, hnode]
    exact ⟨rfl, rfl⟩

namespace Systask

variable (t : Systask) (s : Dvs) (env : MigrEnv) (caller : Caller) (sig : ℤ)

def desc (ep : ℤ) : Proc := t.kernel.proc (endpointP ep)

def IsUser (ep : ℤ) : Prop :=
  t.kernel.conf.dcNrSysprocs ≤ endpointP ep + t.kernel.conf.dcNrTasks

instance (ep : ℤ) : Decidable (t.IsUser ep) := inferInstanceAs (Decidable (_ ≤ _))

def refuse (code : ℤ) : Reply := ⟨t, code, true⟩

def setOwner (ep node : ℤ) : Systask :=
  { t with owner := Function.update t.owner (endpointP ep) (some node) }

def kernelCall (r : Node × ℤ) : Reply := ⟨{ t with kernel := r.1 }, r.2, decide (r.2 = EMol.ok)⟩

/-- `mnx_rmtbind`. -/
def rmtbind (ep node : ℤ) : Reply :=
  match t.kernel.rmtBind s ep node with
  | (k, .ok _) => ⟨{ t with kernel := k }, EMol.ok, true⟩
  | (k, .error code) => ⟨{ t with kernel := k }, code, false⟩

/-! ### `do_bindproc` -/

/-- The end of `do_bindproc`, for a system process. -/
def bindSystem (ep : ℤ) : Reply :=
  if (t.desc ep).rts.slotFree then t.refuse EMol.notbind
  else (t.setOwner ep (t.desc ep).nodeid).refuse EMol.ok

/-- `do_bindproc` with an endpoint and a node. -/
def doBindproc (oper : BindOper) (ep node : ℤ) : Reply :=
  if ¬t.kernel.conf.inRange (endpointP ep) then t.refuse EMol.range
  else if oper = .rmtBind ∧ t.owner (endpointP ep) ≠ some node then t.refuse EMol.badowner
  else if oper ≠ .rmtBind ∧ t.owner (endpointP ep) ≠ none ∧
      t.owner (endpointP ep) ≠ some t.kernel.conf.localNodeid then t.refuse EMol.badowner
  else if ¬t.IsUser ep then t.bindSystem ep
  else if oper ≠ .rmtBind then t.refuse EMol.perm
  else if node = t.kernel.conf.localNodeid then t.refuse EMol.badnodeid
  else if (t.desc ep).rts.slotFree then t.rmtbind s ep node
  -- only the debug message depends on the process being a local one; the rest is never reached
  else t.refuse EMol.slotused

/-- **A user slot in use is bound again**: a process that is there already is left alone, one of
another node migrates, another process makes place, and a local one stays. -/
structure Rebinds (ep node : ℤ) (r : Reply) : Prop where
  same : (t.desc ep).nodeid ≠ t.kernel.conf.localNodeid → (t.desc ep).endpoint = ep →
    (t.desc ep).nodeid = node → r.code = EMol.ok ∧ r.tables = t
  migrated : (t.desc ep).nodeid ≠ t.kernel.conf.localNodeid → (t.desc ep).endpoint = ep →
    (t.desc ep).nodeid ≠ node → r.code = EMol.ok ∧ (r.tables.desc ep).nodeid = node
  replaced : (t.desc ep).nodeid ≠ t.kernel.conf.localNodeid → (t.desc ep).endpoint ≠ ep →
    r.code = EMol.ok ∧ (r.tables.desc ep).rts.remote = true ∧
      (r.tables.desc ep).endpoint = ep ∧ (r.tables.desc ep).nodeid = node
  localProc : (t.desc ep).nodeid = t.kernel.conf.localNodeid →
    r.code = EMol.slotused ∧ r.tables = t

theorem doBindproc_used {ep node : ℤ} (hr : t.kernel.conf.inRange (endpointP ep))
    (hu : t.IsUser ep) (ho : t.owner (endpointP ep) = some node)
    (hn : node ≠ t.kernel.conf.localNodeid) (hb : (t.desc ep).rts.slotFree = false) :
    t.doBindproc s .rmtBind ep node = t.refuse EMol.slotused := by
  simp [doBindproc, hr, hu, ho, hn, hb]

/-- **Binding a remote user process again** works for a slot with a local process only. -/
theorem doBindproc_rebinds_iff {ep node : ℤ} (hr : t.kernel.conf.inRange (endpointP ep))
    (hu : t.IsUser ep) (ho : t.owner (endpointP ep) = some node)
    (hn : node ≠ t.kernel.conf.localNodeid) (hb : (t.desc ep).rts.slotFree = false) :
    t.Rebinds ep node (t.doBindproc s .rmtBind ep node) ↔
      (t.desc ep).nodeid = t.kernel.conf.localNodeid := by
  rw [doBindproc_used t s hr hu ho hn hb]
  constructor
  · intro h
    by_contra hl
    have hne : ¬(t.refuse EMol.slotused).code = EMol.ok := by
      show ¬EMol.slotused = EMol.ok
      decide
    by_cases he : (t.desc ep).endpoint = ep
    · by_cases hN : (t.desc ep).nodeid = node
      · exact hne (h.same hl he hN).1
      · exact hne (h.migrated hl he hN).1
    · exact hne (h.replaced hl he).1
  · intro hl
    exact ⟨fun h => absurd hl h, fun h => absurd hl h, fun h => absurd hl h, fun _ => ⟨rfl, rfl⟩⟩

/-- The tables of node 0: the slots belong to node 1 and are free but for the slot 100. -/
def sample (p : Proc) : Systask where
  owner := fun _ => some 1
  kernel := { Node.vacantSample with proc := Function.update Node.vacantSample.proc 100 p }

theorem sample_local_stays :
    (sample (.sample 0 100 {})).IsUser 100 ∧ (sample (.sample 0 100 {})).Rebinds 100 1
      ((sample (.sample 0 100 {})).doBindproc (Node.pairSample true) .rmtBind 100 1) :=
  ⟨by decide, (doBindproc_rebinds_iff (sample (.sample 0 100 {})) _ (by decide) (by decide) rfl
    (by decide) (by decide)).2 (by decide)⟩

/-- A process of node 1 is bound already, with the same endpoint: the bind is refused. -/
theorem sample_remote_refused :
    let t := sample (.sample 1 100 { remote := true })
    t.IsUser 100 ∧ (t.doBindproc (Node.pairSample true) .rmtBind 100 1).code = EMol.slotused ∧
      ¬t.Rebinds 100 1 (t.doBindproc (Node.pairSample true) .rmtBind 100 1) :=
  ⟨by decide, by decide, fun h => absurd (h.same (by decide) (by decide) (by decide)).1 (by decide)⟩

/-! ### `sp_syscall` -/

/-- `MOLBINDPROC` and `MOLFORK`, after the test of the slot. -/
def bindRemote (m : SysMsg) : Reply :=
  if (t.desc m.ep).rts ≠ Rts.onlyFree then
    if (t.desc m.ep).misc.replicated then t.refuse EMol.ok
    else if m.ep = systemNr - m.source then t.refuse EMol.ok
    else t.refuse EMol.slotused
  else t.rmtbind s m.ep m.source

/-- `MOLMIGRPROC`. The owner is changed first, and only a free slot passes the test. -/
def migrRemote (m : SysMsg) : Reply :=
  let t := t.setOwner m.ep m.source
  if (t.desc m.ep).rts ≠ Rts.onlyFree then
    if (t.desc m.ep).misc.replicated then t.refuse EMol.ok else t.refuse EMol.slotused
  else if (t.desc m.ep).nodeid = m.source then t.refuse EMol.ok
  else
    let r := t.kernel.migrate env .start procNoPid (t.desc m.ep).endpoint localNode
    if r.2 ≠ EMol.ok then t.kernelCall r
    else t.kernelCall (r.1.migrate env .commit procNoPid (t.desc m.ep).endpoint m.source)

/-- `MOLEXIT`. -/
def exitRemote (m : SysMsg) : Reply :=
  if t.IsUser m.ep ∧ t.owner (endpointP m.ep) ≠ some m.source then t.refuse EMol.ok
  else if (t.desc m.ep).rts = Rts.onlyFree then t.refuse EMol.procsts
  else if (t.desc m.ep).misc.replicated then t.refuse EMol.ok
  else if (t.desc m.ep).nodeid ≠ m.source then t.refuse EMol.badnodeid
  else t.kernelCall (t.kernel.doUnbind caller (endpointP m.ep) sig)

/-- `sp_syscall`. Of the test for the owner of a user slot only the debug message is left. -/
def spSyscall (initialized : Bool) (m : SysMsg) : Reply :=
  if initialized = false ∨ m.source = t.kernel.conf.localNodeid then t.refuse EMol.ok
  else
    match m.type with
    | .bindproc => if t.IsUser m.ep then t.refuse EMol.badproc else t.bindRemote s m
    | .fork => if t.IsUser m.ep then t.refuse EMol.badowner else t.bindRemote s m
    | .exec => if t.IsUser m.ep then t.refuse EMol.badowner else t.refuse EMol.ok
    | .migrproc => t.migrRemote env m
    | .exit => t.exitRemote caller sig m
    | .other => t.refuse EMol.nosys

/-- The slot of the message is bound to a process of its sender, with its endpoint. -/
def BoundFor (m : SysMsg) : Prop :=
  (t.desc m.ep).rts = { remote := true } ∧ (t.desc m.ep).nodeid = m.source ∧
    (t.desc m.ep).endpoint = m.ep

def MayUse (m : SysMsg) : Prop := t.IsUser m.ep → t.owner (endpointP m.ep) = some m.source

def IsRemote (ep : ℤ) : Prop :=
  (t.desc ep).rts.remote = true ∧ (t.desc ep).rts.slotFree = false

/-- A fork or a bind into a free slot, the migration of a remote process that is not replicated, or
the exit of a process of the sender. -/
def Done (m : SysMsg) (r : Reply) : Prop :=
  match m.type with
  | .fork => t.MayUse m → (t.desc m.ep).rts = Rts.onlyFree → r.code = EMol.ok ∧ r.tables.BoundFor m
  | .bindproc =>
      ¬t.IsUser m.ep → (t.desc m.ep).rts = Rts.onlyFree → r.code = EMol.ok ∧ r.tables.BoundFor m
  | .migrproc => t.IsRemote m.ep → (t.desc m.ep).misc.replicated = false →
      r.code = EMol.ok ∧ (r.tables.desc m.ep).nodeid = m.source ∧
        r.tables.owner (endpointP m.ep) = some m.source
  | .exit => t.IsRemote m.ep → (t.desc m.ep).nodeid = m.source → t.MayUse m →
      r.code = EMol.ok ∧ (r.tables.desc m.ep).rts = Rts.onlyFree
  | .exec | .other => True

/-- **The tables follow the call**: what it asks for is done, and what is refused or ignored changes
nothing. -/
structure Follows (m : SysMsg) (r : Reply) : Prop where
  done : t.Done m r
  refused : r.code ≠ EMol.ok ∨ m.type = .exit ∧ ¬t.MayUse m → r.tables = t

/-- No fork into a free slot of the sender, no migration of a remote process, no exit of a
replicated one; a process is bound with the endpoint of the descriptor, and a migration that is
refused finds its owner there. -/
def Followed (m : SysMsg) : Prop :=
  match m.type with
  | .fork => t.MayUse m → (t.desc m.ep).rts = Rts.onlyFree →
      ¬t.IsUser m.ep ∧ (t.desc m.ep).endpoint = m.ep
  | .bindproc =>
      ¬t.IsUser m.ep → (t.desc m.ep).rts = Rts.onlyFree → (t.desc m.ep).endpoint = m.ep
  | .migrproc => (t.desc m.ep).rts = Rts.onlyFree ∨ (t.desc m.ep).misc.replicated = true ∨
      ¬t.IsRemote m.ep ∧ t.owner (endpointP m.ep) = some m.source
  | .exit => t.IsRemote m.ep → (t.desc m.ep).nodeid = m.source → t.MayUse m →
      (t.desc m.ep).misc.replicated = false
  | .exec | .other => True

variable {t s env caller sig} {m : SysMsg}

theorem rmtbind_ok (h : (t.rmtbind s m.ep m.source).kernelOk = true) :
    (t.rmtbind s m.ep m.source).code = EMol.ok ∧
      ((t.rmtbind s m.ep m.source).tables.desc m.ep).rts = { remote := true } ∧
      ((t.rmtbind s m.ep m.source).tables.desc m.ep).nodeid = m.source ∧
      ((t.rmtbind s m.ep m.source).tables.desc m.ep).endpoint = (t.desc m.ep).endpoint := by
  have he : ((t.kernel.rmtBind s m.ep m.source).1.proc (endpointP m.ep)).endpoint =
      (t.desc m.ep).endpoint := Node.bind_endpoint ..
  unfold rmtbind at h ⊢
  split at h
  · rename_i k r hk
    rw [hk] at he
    have hb := Node.rmtBind_eq_ok (n := t.kernel) (s := s) (r := r) (by rw [hk])
    rw [hk] at hb
    exact ⟨rfl, hb.1, hb.2, he⟩
  · cases h

theorem follows_refuse_iff {code : ℤ} :
    t.Follows m (t.refuse code) ↔ t.Done m (t.refuse code) :=
  ⟨fun h => h.done, fun h => ⟨h, fun _ => rfl⟩⟩

theorem IsRemote.ne_onlyFree {ep : ℤ} (h : t.IsRemote ep) : (t.desc ep).rts ≠ Rts.onlyFree := by
  intro hf
  simp [IsRemote, hf, Rts.onlyFree] at h

theorem follows_bindRemote_iff (hm : m.type ≠ .exit) (hk : (t.bindRemote s m).kernelOk = true)
    (hd : ∀ r, t.Done m r ↔
      ((t.desc m.ep).rts = Rts.onlyFree → r.code = EMol.ok ∧ r.tables.BoundFor m)) :
    t.Follows m (t.bindRemote s m) ↔
      ((t.desc m.ep).rts = Rts.onlyFree → (t.desc m.ep).endpoint = m.ep) := by
  by_cases hf : (t.desc m.ep).rts = Rts.onlyFree
  · have hbr : t.bindRemote s m = t.rmtbind s m.ep m.source := if_neg (not_not_intro hf)
    rw [hbr] at hk ⊢
    obtain ⟨hc, hrts, hn, he⟩ := rmtbind_ok hk
    constructor
    · intro h _
      exact he.symm.trans ((hd _).1 h.done hf).2.2.2
    · refine fun h => ⟨(hd _).2 fun _ => ⟨hc, hrts, hn, he.trans (h hf)⟩, ?_⟩
      simp [hc, hm]
  · rw [bindRemote, if_pos hf]
    split_ifs <;> simp [follows_refuse_iff, hd, hf]

theorem follows_migrRemote_iff (hm : m.type = .migrproc)
    (hk : (t.migrRemote env m).kernelOk = true) :
    t.Follows m (t.migrRemote env m) ↔ t.Followed m := by
  by_cases hf : (t.desc m.ep).rts = Rts.onlyFree
  · have hcode : (t.migrRemote env m).code = EMol.ok := by
      unfold migrRemote at hk ⊢
      dsimp only at hk ⊢
      split_ifs at hk ⊢ with h1 h2 h3 h4
      · rfl
      · exact absurd hf h1
      · rfl
      · exact of_decide_eq_true hk
      · exact of_decide_eq_true hk
    have hno : ¬t.IsRemote m.ep := fun h => h.ne_onlyFree hf
    refine ⟨fun _ => by simp [Followed, hm, hf], fun _ => ⟨?_, by simp [hcode, hm]⟩⟩
    simp [Done, hm, hno]
  · have hr : t.migrRemote env m = (t.setOwner m.ep m.source).refuse
        (if (t.desc m.ep).misc.replicated then EMol.ok else EMol.slotused) := by
      unfold migrRemote
      rw [if_pos (show ((t.setOwner m.ep m.source).desc m.ep).rts ≠ Rts.onlyFree from hf)]
      exact (apply_ite _ _ _ _).symm
    rw [hr]
    by_cases hrep : (t.desc m.ep).misc.replicated = true
    · rw [if_pos hrep]
      refine ⟨fun _ => by simp [Followed, hm, hrep], fun _ => ⟨?_, by simp [refuse, hm]⟩⟩
      simp [Done, hm, hrep]
    · have hcode : EMol.slotused ≠ EMol.ok := by decide
      have hown : t.setOwner m.ep m.source = t ↔ t.owner (endpointP m.ep) = some m.source := by
        constructor
        · intro h
          rw [← h]
          exact Function.update_self ..
        · intro h
          rw [setOwner, ← h, Function.update_eq_self]
      rw [if_neg hrep]
      simp only [Followed, hm, hf, hrep, false_or, Bool.false_eq_true]
      constructor
      · rintro ⟨hd, href⟩
        refine ⟨fun hb => hcode ?_, hown.1 (href (.inl hcode))⟩
        simp only [Done, hm] at hd
        exact (hd hb (by simpa using hrep)).1
      · rintro ⟨hno, ho⟩
        exact ⟨by simp [Done, hm, hno], fun _ => hown.2 ho⟩

theorem follows_exitRemote_iff (hm : m.type = .exit)
    (hk : (t.exitRemote caller sig m).kernelOk = true) :
    t.Follows m (t.exitRemote caller sig m) ↔ t.Followed m := by
  have hkept : ∀ {code}, t.Follows m (t.refuse code) ↔
      (t.IsRemote m.ep → (t.desc m.ep).nodeid = m.source → ¬t.MayUse m) := by
    intro code
    rw [follows_refuse_iff]
    simp only [Done, hm]
    exact ⟨fun h hr hn ho => hr.ne_onlyFree (h hr hn ho).2,
      fun h hr hn ho => absurd ho (h hr hn)⟩
  unfold exitRemote at hk ⊢
  split_ifs at hk ⊢ with h1 h2 h3 h4
  · have hno : ¬t.MayUse m := fun h => h1.2 (h h1.1)
    simp [hkept, Followed, hm, hno]
  · have hno : ¬t.IsRemote m.ep := fun h => h.ne_onlyFree h2
    simp [hkept, Followed, hm, hno]
  · simp [hkept, Followed, hm, h3]
  · simp [hkept, Followed, hm, h4]
  · have hc : (t.kernel.doUnbind caller (endpointP m.ep) sig).2 = EMol.ok := of_decide_eq_true hk
    have hcheck : t.kernel.unbindCheck caller (endpointP m.ep) = EMol.ok := by
      by_contra hcon
      rw [Node.doUnbind, if_pos hcon] at hc
      exact hcon hc
    refine ⟨fun _ => by simp [Followed, hm, h3], fun _ => ⟨?_, ?_⟩⟩
    · simp only [Done, hm]
      exact fun hr _ _ => ⟨hc, (Node.freed_doUnbind sig ⟨hcheck, .inl hr.1⟩).2.self⟩
    · rintro (h | ⟨-, ho⟩)
      · exact absurd hc h
      · exact absurd (fun hu => by_contra fun h => h1 ⟨hu, h⟩) ho

/-- **When the tables follow the calls of the other nodes.** -/
theorem spSyscall_follows_iff (t : Systask) (s : Dvs) (env : MigrEnv) (caller : Caller) (sig : ℤ)
    (m : SysMsg) (hS : m.source ≠ t.kernel.conf.localNodeid)
    (hk : (t.spSyscall s env caller sig true m).kernelOk = true) :
    t.Follows m (t.spSyscall s env caller sig true m) ↔ t.Followed m := by
  have hin : ¬(true = false ∨ m.source = t.kernel.conf.localNodeid) := by simp [hS]
  rw [spSyscall, if_neg hin] at hk ⊢
  cases hm : m.type with
  | bindproc =>
    simp only [hm] at hk ⊢
    split_ifs at hk ⊢ with hu
    · simp [follows_refuse_iff, Done, Followed, hm, hu]
    · rw [follows_bindRemote_iff (by simp [hm]) hk (by simp [Done, hm, hu])]
      simp [Followed, hm, hu]
  | fork =>
    simp only [hm] at hk ⊢
    split_ifs at hk ⊢ with hu
    · rw [follows_refuse_iff]
      simp [Done, Followed, hm, hu, refuse, EMol.badowner, EMol.ok]
    · have hmay : t.MayUse m := fun h => absurd h hu
      rw [follows_bindRemote_iff (by simp [hm]) hk (by simp [Done, hm, hmay])]
      simp [Followed, hm, hu, hmay]
  | exec => split_ifs <;> simp [follows_refuse_iff, Done, Followed, hm]
  | migrproc =>
    simp only [hm] at hk ⊢
    exact follows_migrRemote_iff hm hk
  | exit =>
    simp only [hm] at hk ⊢
    exact follows_exitRemote_iff hm hk
  | other => simp [follows_refuse_iff, Done, Followed, hm]

/-- A system process of node 1 is bound. -/
theorem sample_follows_bind :
    let t := sample (.sample 1 100 { remote := true })
    ((t.spSyscall (Node.pairSample true) {} .unbound 0 true ⟨1, .bindproc, 5⟩).tables.desc 5).nodeid
      = 1 ∧ t.Follows ⟨1, .bindproc, 5⟩
        (t.spSyscall (Node.pairSample true) {} .unbound 0 true ⟨1, .bindproc, 5⟩) :=
  ⟨by decide, (spSyscall_follows_iff _ _ _ _ _ _ (by decide) (by decide)).2 fun _ _ => by decide⟩

/-- Node 1 forks a process in its slot 101, and 100 migrates from node 2 to node 1: both are
refused, and the second one has changed the owner of the slot. -/
theorem sample_not_followed :
    let t := { sample (.sample 2 100 { remote := true }) with owner := fun p => some (102 - p) }
    let r := fun m => t.spSyscall (Node.pairSample true) {} .unbound 0 true m
    ((r ⟨1, .fork, 101⟩).code = EMol.badowner ∧ ¬t.Follows ⟨1, .fork, 101⟩ (r ⟨1, .fork, 101⟩)) ∧
      (r ⟨1, .migrproc, 100⟩).code = EMol.slotused ∧ t.owner 100 = some 2 ∧
      (r ⟨1, .migrproc, 100⟩).tables.owner 100 = some 1 ∧
      ¬t.Follows ⟨1, .migrproc, 100⟩ (r ⟨1, .migrproc, 100⟩) := by
  refine ⟨⟨by decide, fun h => ?_⟩, by decide, by decide, by decide, fun h => ?_⟩
  · exact absurd (h.done (fun _ => by decide) (by decide)).1 (by decide)
  · exact absurd (h.done ⟨by decide, by decide⟩ (by decide)).1 (by decide)

end Systask

end MolIpc
