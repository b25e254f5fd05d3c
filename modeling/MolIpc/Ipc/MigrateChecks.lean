import MolIpc.Ipc.MigrateWaiters

/-!
What `mm_migrate` checks. The start of a migration is all or nothing; but the mark that it leaves
on a local process is not the one that the rollback looks for, and the commit takes a process that
is not marked, on a node that does not belong to the DC.
-/

namespace MolIpc

def Proc.Busy (p : Proc) : Prop :=
  p.rts.slotFree = true ∨ p.rts.oncopy = true ∨ p.rts.rmtoper = true ∨ p.rts.noEndpoint = true ∨
    p.rts.migrate = true

instance (p : Proc) : Decidable p.Busy := by unfold Proc.Busy; infer_instance

theorem Proc.migrCheck_ok_iff {p : Proc} : p.migrCheck false = EMol.ok ↔ ¬ p.Busy := by
  constructor
  · intro h
    unfold migrCheck at h
    split_ifs at h with h1 h2 h3 h4 h5
    all_goals first | exact absurd h (by decide) | skip
    rintro (hb | hb | hb | hb | hb)
    exacts [h1 hb, h2 hb, h3 hb, h4 hb, h5 (by simp [hb])]
  · intro hb
    simp only [Busy, not_or, Bool.not_eq_true] at hb
    simp [migrCheck, hb]

theorem Proc.migrCheck_true {p : Proc} (h : ¬ p.Busy) : p.migrCheck true = EMol.migrate := by
  simp only [Busy, not_or, Bool.not_eq_true] at h
  simp [migrCheck, h]

namespace Node

/-! ### The three requirements -/

section Requirements

variable (n : Node) (ep pid new : ℤ) (env : MigrEnv)

/-- The call is about a process of the DC; one of this node has its task. -/
structure OfDc : Prop where
  dcid : 0 ≤ n.conf.dcid ∧ n.conf.dcid < n.conf.dNrDcs
  range : n.conf.inRange (endpointP ep)
  task : (n.proc (endpointP ep)).rts.remote = false → env.task = true

def migrThreads : List ℤ := endpointP ep :: env.others

/-- The start marks all the threads of a local process or none, and none if one is busy. -/
structure StartsWhole : Prop where
  marked : (n.migrate env .start pid ep new).2 = EMol.ok →
    (∀ t ∈ migrThreads ep env, (n.migrate env .start pid ep new).1.proc t =
      { n.proc t with misc := { (n.proc t).misc with needmigr := true } }) ∧
    ∀ q ∉ migrThreads ep env, (n.migrate env .start pid ep new).1.proc q = n.proc q
  refused : (n.migrate env .start pid ep new).2 ≠ EMol.ok →
    (n.migrate env .start pid ep new).1 = n
  busy : (∃ t ∈ migrThreads ep env, (n.proc t).Busy) →
    (n.migrate env .start pid ep new).2 ≠ EMol.ok

/-- A start that is rolled back at once leaves the flags of the process and its threads as they
were. -/
def RollsBack : Prop :=
  (n.migrate env .start pid ep new).2 = EMol.ok →
    ((n.migrate env .start pid ep new).1.migrate env .rollback pid ep new).2 = EMol.ok ∧
    ∀ t, t = endpointP ep ∨ ((n.proc (endpointP ep)).rts.remote = false ∧ t ∈ env.others) →
      (((n.migrate env .start pid ep new).1.migrate env .rollback pid ep new).1.proc t).rts =
        (n.proc t).rts ∧
      (((n.migrate env .start pid ep new).1.migrate env .rollback pid ep new).1.proc t).misc =
        (n.proc t).misc

/-- A commit that succeeds is that of a marked process to a node of its DC; one that fails changes
nothing. -/
structure CommitsChecked : Prop where
  succeeds : (n.migrate env .commit pid ep new).2 = EMol.ok →
    (n.proc (endpointP ep)).rts.migrate = true ∧ n.conf.dcNodes new = true ∧
      n.conf.nDcs new n.conf.dcid = true
  fails : (n.migrate env .commit pid ep new).2 ≠ EMol.ok →
    (n.migrate env .commit pid ep new).1 = n

end Requirements

/-! ### The start -/

section Start

variable {n : Node} {i : ℤ} {env : MigrEnv}

theorem threadsError_ok_iff {check : Proc → ℤ} {ts : List ℤ} :
    n.threadsError check ts = EMol.ok ↔ ∀ t ∈ ts, check (n.proc t) = EMol.ok := by
  unfold threadsError
  cases hf : (ts.map fun t => check (n.proc t)).find? (· ≠ EMol.ok) with
  | none =>
    simp only [List.find?_eq_none, List.mem_map, decide_eq_true_eq, not_not] at hf
    simp only [Option.getD_none, true_iff]
    exact fun t ht => hf _ ⟨t, ht, rfl⟩
  | some e =>
    have he : e ≠ EMol.ok := by simpa using List.find?_some hf
    obtain ⟨t, ht, rfl⟩ := List.mem_map.1 (List.mem_of_find?_eq_some hf)
    exact iff_of_false he fun h => he (h t ht)

theorem foldl_modProc {f : Proc → Proc} (hf : ∀ p, f (f p) = f p) (ts : List ℤ) :
    ∀ (n : Node) (q : ℤ), (ts.foldl (fun n t => n.modProc t f) n).proc q =
      if q ∈ ts then f (n.proc q) else n.proc q := by
  induction ts with
  | nil => simp
  | cons t ts ih =>
    intro n q
    rw [List.foldl_cons, ih]
    by_cases hq : q = t
    · subst hq
      simp [hf]
    · simp [hq]

theorem migrStart_remote (hr : (n.proc i).rts.remote = true) :
    n.migrStart i env =
      if (n.proc i).Busy then (n, (n.proc i).migrCheck false)
      else (n.modProc i fun p => { p with rts := { p.rts with migrate := true } }, EMol.ok) := by
  rw [migrStart, if_pos hr]
  by_cases hb : (n.proc i).Busy
  · rw [if_pos hb, if_pos (mt Proc.migrCheck_ok_iff.1 (not_not_intro hb))]
  · rw [if_neg hb, if_neg (not_not_intro (Proc.migrCheck_ok_iff.2 hb))]

theorem migrStart_local (hr : (n.proc i).rts.remote = false) (env : MigrEnv) :
    ((n.proc i).misc.grpleader = true ∧ (∀ t ∈ i :: env.others, ¬ (n.proc t).Busy) ∧
      n.migrStart i env = ((i :: env.others).foldl (fun n t => n.modProc t fun p =>
        { p with misc := { p.misc with needmigr := true } }) n, EMol.ok)) ∨
    (((n.proc i).misc.grpleader = false ∨ ∃ t ∈ i :: env.others, (n.proc t).Busy) ∧
      (n.migrStart i env).1 = n ∧ (n.migrStart i env).2 ≠ EMol.ok) := by
  rw [migrStart, if_neg (by simp [hr])]
  by_cases hl : (n.proc i).misc.grpleader = true
  swap
  · rw [if_pos hl]
    exact .inr ⟨.inl (by simpa using hl), rfl, show EMol.grpleader ≠ EMol.ok by decide⟩
  rw [if_neg (not_not_intro hl)]
  by_cases hb : ∀ t ∈ i :: env.others, ¬ (n.proc t).Busy
  · have hok : n.threadsError (·.migrCheck false) (i :: env.others) = EMol.ok :=
      threadsError_ok_iff.2 fun t ht => Proc.migrCheck_ok_iff.2 (hb t ht)
    rw [if_neg (not_not_intro hok)]
    exact .inl ⟨hl, hb, rfl⟩
  · have hne : n.threadsError (·.migrCheck false) (i :: env.others) ≠ EMol.ok := fun hok =>
      hb fun t ht => Proc.migrCheck_ok_iff.1 (threadsError_ok_iff.1 hok t ht)
    rw [if_pos hne]
    simp only [not_forall, not_not] at hb
    obtain ⟨t, ht, hbusy⟩ := hb
    exact .inr ⟨.inr ⟨t, ht, hbusy⟩, rfl, hne⟩

end Start

section Undo

variable {n : Node} {ep pid new : ℤ} {env : MigrEnv} {oper : MigrOper}

theorem OfDc.migrate (h : n.OfDc ep env) :
    n.migrate env oper pid ep new = n.migrOp (endpointP ep) env oper pid new := by
  have ht : ¬ (¬ (n.proc (endpointP ep)).rts.remote = true ∧ ¬ env.task = true) := by
    rintro ⟨hr, ht⟩
    exact ht (h.task (by simpa using hr))
  unfold Node.migrate
  rw [if_neg (not_not_intro h.dcid), if_neg (not_not_intro h.range), if_neg ht]

theorem startsWhole (h : n.OfDc ep env) (hr : (n.proc (endpointP ep)).rts.remote = false) :
    n.StartsWhole ep pid new env := by
  have hop : n.migrate env .start pid ep new = n.migrStart (endpointP ep) env := h.migrate
  rcases migrStart_local hr env with ⟨-, hb, heq⟩ | ⟨-, hsame, hne⟩
  · have hproc := foldl_modProc
      (f := fun p => { p with misc := { p.misc with needmigr := true } }) (fun _ => rfl)
      (endpointP ep :: env.others) n
    refine ⟨fun _ => ⟨fun t ht => ?_, fun q hq => ?_⟩, fun hne => ?_, fun hbusy => ?_⟩
    · rw [hop, heq]
      exact (hproc t).trans (if_pos ht)
    · rw [hop, heq]
      exact (hproc q).trans (if_neg hq)
    · rw [hop, heq] at hne
      exact absurd rfl hne
    · obtain ⟨t, ht, hbusy⟩ := hbusy
      exact absurd hbusy (hb t ht)
  · refine ⟨fun hok => absurd (hop ▸ hok) hne, fun _ => ?_, fun _ => ?_⟩
    · rw [hop, hsame]
    · rw [hop]
      exact hne

theorem migrRollback_check {m : Node} (hok : (m.migrate env .rollback pid ep new).2 = EMol.ok)
    (hr : (m.proc (endpointP ep)).rts.remote = false) :
    (m.proc (endpointP ep)).migrCheck true = EMol.ok := by
  by_contra hne
  have herr : m.threadsError (·.migrCheck true) (endpointP ep :: env.others) ≠ EMol.ok := fun h =>
    hne (threadsError_ok_iff.1 h _ List.mem_cons_self)
  refine absurd hok ?_
  unfold Node.migrate migrOp migrRollback
  dsimp only
  rw [if_neg (by simp [hr] : ¬ (m.proc (endpointP ep)).rts.remote = true), if_pos herr]
  split_ifs
  exacts [show EMol.badproc ≠ _ by decide, herr, show EMol.grpleader ≠ _ by decide,
    show EMol.range ≠ _ by decide, show EMol.baddcid ≠ _ by decide]

/-- A start that is refused, or that of a remote process that no mark has been left on. -/
def Undoable (n : Node) (ep : ℤ) (env : MigrEnv) : Prop :=
  if (n.proc (endpointP ep)).rts.remote then
    (n.proc (endpointP ep)).Busy ∨ (n.proc (endpointP ep)).misc.needmigr = false
  else (n.proc (endpointP ep)).misc.grpleader = false ∨
    ∃ t ∈ migrThreads ep env, (n.proc t).Busy

theorem rollsBack_remote_iff (h : n.OfDc ep env)
    (hr : (n.proc (endpointP ep)).rts.remote = true) :
    n.RollsBack ep pid new env ↔
      (n.proc (endpointP ep)).Busy ∨ (n.proc (endpointP ep)).misc.needmigr = false := by
  have hop : n.migrate env .start pid ep new = n.migrStart (endpointP ep) env := h.migrate
  rw [migrStart_remote hr] at hop
  by_cases hb : (n.proc (endpointP ep)).Busy
  · refine iff_of_true (fun hok => ?_) (.inl hb)
    rw [hop, if_pos hb] at hok
    exact absurd hok (mt Proc.migrCheck_ok_iff.1 (not_not_intro hb))
  · rw [if_neg hb] at hop
    let m := n.modProc (endpointP ep) fun p => { p with rts := { p.rts with migrate := true } }
    have hmi : m.proc (endpointP ep) = { n.proc (endpointP ep) with
        rts := { (n.proc (endpointP ep)).rts with migrate := true } } := modProc_same ..
    have hmr : (m.proc (endpointP ep)).rts.remote = true := by rw [hmi]; exact hr
    have hm : m.OfDc ep env := ⟨h.dcid, h.range, fun hl => by rw [hmr] at hl; cases hl⟩
    have hroll : m.migrate env .rollback pid ep new =
        (m.modProc (endpointP ep) Proc.unmark, EMol.ok) := by
      refine hm.migrate.trans ?_
      have hcheck : (m.proc (endpointP ep)).migrCheck true = EMol.ok := by
        simp only [Proc.Busy, not_or, Bool.not_eq_true] at hb
        simp [hmi, Proc.migrCheck, hb]
      show m.migrRollback (endpointP ep) env = _
      rw [migrRollback, if_pos hmr, if_neg (not_not_intro hcheck)]
    unfold RollsBack
    rw [hop]
    rw [hroll]
    have hmig : (n.proc (endpointP ep)).rts.migrate = false := by
      simp only [Proc.Busy, not_or, Bool.not_eq_true] at hb
      exact hb.2.2.2.2
    have hrts : { (n.proc (endpointP ep)).rts with migrate := false } =
        (n.proc (endpointP ep)).rts := by rw [← hmig]
    have hend : (m.modProc (endpointP ep) Proc.unmark).proc (endpointP ep) =
        { n.proc (endpointP ep) with
          misc := { (n.proc (endpointP ep)).misc with needmigr := false } } := by
      rw [modProc_same, hmi, Proc.unmark]
      rw [hrts]
    constructor
    · intro hback
      have hmisc := ((hback rfl).2 (endpointP ep) (.inl rfl)).2
      rw [hend] at hmisc
      exact .inr (congrArg Misc.needmigr hmisc).symm
    · refine fun hneed _ => ⟨rfl, ?_⟩
      rintro t (rfl | ⟨hl, -⟩)
      · rw [hend]
        refine ⟨rfl, ?_⟩
        rw [← hneed.resolve_left hb]
      · simp [hr] at hl

theorem rollsBack_local_iff (h : n.OfDc ep env)
    (hr : (n.proc (endpointP ep)).rts.remote = false) :
    n.RollsBack ep pid new env ↔ (n.proc (endpointP ep)).misc.grpleader = false ∨
      ∃ t ∈ migrThreads ep env, (n.proc t).Busy := by
  have hop : n.migrate env .start pid ep new = n.migrStart (endpointP ep) env := h.migrate
  rcases migrStart_local hr env with ⟨hl, hb, heq⟩ | ⟨hbusy, -, hne⟩
  · refine iff_of_false (fun hroll => ?_) ?_
    · rw [heq] at hop
      have hproc := foldl_modProc
        (f := fun p => { p with misc := { p.misc with needmigr := true } }) (fun _ => rfl)
        (endpointP ep :: env.others) n (endpointP ep)
      rw [if_pos List.mem_cons_self] at hproc
      have hback := (hroll (by rw [hop])).1
      rw [hop] at hback
      have hcheck := migrRollback_check hback (by rw [hproc]; exact hr)
      rw [hproc] at hcheck
      have hbusy : ¬ (n.proc (endpointP ep)).Busy := hb _ List.mem_cons_self
      exact absurd (hcheck.symm.trans (Proc.migrCheck_true hbusy)) (by decide)
    · rintro (hl' | ⟨t, ht, hbusy⟩)
      · simp [hl] at hl'
      · exact hb t ht hbusy
  · exact iff_of_true (fun hok => absurd (hop ▸ hok) hne) hbusy

theorem rollsBack_iff (h : n.OfDc ep env) :
    n.RollsBack ep pid new env ↔ n.Undoable ep env := by
  unfold Undoable
  by_cases hr : (n.proc (endpointP ep)).rts.remote = true
  · rw [if_pos hr]
    exact rollsBack_remote_iff h hr
  · rw [if_neg hr]
    exact rollsBack_local_iff h (by simpa using hr)

end Undo

/-! ### The commit -/

section Commit

variable {n : Node} {ep pid new i : ℤ} {env : MigrEnv}

/-- On the old node a thread is not marked, or the process does not lead its threads; on the new one
it has no task. -/
def MoveRefused (n : Node) (i pid new : ℤ) (env : MigrEnv) : Prop :=
  if n.conf.localNodeid = (n.proc i).nodeid then
    (∃ t ∈ i :: env.others, (n.proc t).rts.migrate = false) ∨ (n.proc i).misc.grpleader = false
  else n.conf.localNodeid = new ∧
    ((n.proc i).misc.rmtbackup = false ∧ env.found = false ∨
      (n.proc i).misc.rmtbackup = true ∧ (n.proc i).lpid ≠ pid)

theorem oldMigrate_cases (n : Node) (i new : ℤ) (env : MigrEnv) :
    ((∃ t ∈ i :: env.others, (n.proc t).rts.migrate = false) ∨
        (n.proc i).misc.grpleader = false) ∧
        (n.oldMigrate i env new).2 ≠ EMol.ok ∧ (n.oldMigrate i env new).1 = n ∨
      ¬ ((∃ t ∈ i :: env.others, (n.proc t).rts.migrate = false) ∨
        (n.proc i).misc.grpleader = false) ∧ (n.oldMigrate i env new).2 = EMol.ok := by
  have hok : n.threadsError (fun p => if p.rts.migrate then EMol.ok else EMol.migrate)
      (i :: env.others) = EMol.ok ↔ ∀ t ∈ i :: env.others, (n.proc t).rts.migrate = true := by
    rw [threadsError_ok_iff]
    refine forall₂_congr fun t _ => ?_
    cases (n.proc t).rts.migrate <;> decide
  unfold oldMigrate
  by_cases hall : ∀ t ∈ i :: env.others, (n.proc t).rts.migrate = true
  · rw [if_neg (not_not_intro (hok.2 hall))]
    by_cases hl : (n.proc i).misc.grpleader = true
    · rw [if_neg (not_not_intro hl)]
      refine .inr ⟨?_, rfl⟩
      rintro (⟨t, ht, hf⟩ | hf)
      · exact Bool.false_ne_true (hf.symm.trans (hall t ht))
      · exact Bool.false_ne_true (hf.symm.trans hl)
    · rw [if_pos hl]
      exact .inl ⟨.inr (by simpa using hl), show EMol.grpleader ≠ EMol.ok by decide, rfl⟩
  · rw [if_pos (mt hok.1 hall)]
    simp only [not_forall, Bool.not_eq_true] at hall
    obtain ⟨t, ht, hf⟩ := hall
    exact .inl ⟨.inl ⟨t, ht, hf⟩, mt hok.1 fun h => Bool.false_ne_true (hf.symm.trans (h t ht)), rfl⟩

theorem newMigrate_cases (n : Node) (i pid : ℤ) (env : MigrEnv) :
    ((n.proc i).misc.rmtbackup = false ∧ env.found = false ∨
        (n.proc i).misc.rmtbackup = true ∧ (n.proc i).lpid ≠ pid) ∧
        (n.newMigrate i env pid).2 ≠ EMol.ok ∧ (n.newMigrate i env pid).1 = n ∨
      ¬ ((n.proc i).misc.rmtbackup = false ∧ env.found = false ∨
        (n.proc i).misc.rmtbackup = true ∧ (n.proc i).lpid ≠ pid) ∧
        (n.newMigrate i env pid).2 = EMol.ok := by
  unfold newMigrate
  split_ifs with h1 h2
  · simp only [Bool.not_eq_true] at h1
    exact .inl ⟨.inl h1, show EMol.badproc ≠ EMol.ok by decide, rfl⟩
  · exact .inl ⟨.inr h2, show EMol.badpid ≠ EMol.ok by decide, rfl⟩
  · simp only [Bool.not_eq_true] at h1
    exact .inr ⟨fun h => h.elim h1 h2, rfl⟩

theorem migrMove_cases (n : Node) (i pid new : ℤ) (env : MigrEnv) :
    n.MoveRefused i pid new env ∧ (n.migrMove i env pid new).2 ≠ EMol.ok ∧
        (n.migrMove i env pid new).1 = n ∨
      ¬ n.MoveRefused i pid new env ∧ (n.migrMove i env pid new).2 = EMol.ok := by
  unfold MoveRefused migrMove
  by_cases hold : n.conf.localNodeid = (n.proc i).nodeid
  · rw [if_pos hold, if_pos hold]
    exact oldMigrate_cases n i new env
  rw [if_neg hold, if_neg hold]
  by_cases hnew : n.conf.localNodeid = new
  · rw [if_pos hnew]
    exact (newMigrate_cases n i pid env).imp (fun h => ⟨⟨hnew, h.1⟩, h.2⟩)
      fun h => ⟨fun hr => h.1 hr.2, h.2⟩
  · rw [if_neg hnew]
    exact .inr ⟨fun hr => hnew hr.1, rfl⟩

/-- A commit that is refused, or one of a marked process to a node where its DC is. -/
def Committable (n : Node) (ep pid new : ℤ) (env : MigrEnv) : Prop :=
  n.newNodeCheck env new ≠ EMol.ok ∨ n.MoveRefused (endpointP ep) pid new env ∨
    (n.proc (endpointP ep)).rts.migrate = true ∧ n.conf.nDcs new n.conf.dcid = true

theorem newNodeCheck_dcNodes (h : n.newNodeCheck env new = EMol.ok) :
    n.conf.dcNodes new = true := by
  unfold newNodeCheck at h
  split_ifs at h with h1 h2 h3 h4
  all_goals first | exact absurd h (by decide) | skip
  exact h3

theorem commitsChecked_iff (h : n.OfDc ep env) :
    n.CommitsChecked ep pid new env ↔ n.Committable ep pid new env := by
  have hop : n.migrate env .commit pid ep new = n.migrCommit (endpointP ep) env pid new :=
    h.migrate
  unfold migrCommit at hop
  dsimp only at hop
  by_cases hnode : n.newNodeCheck env new = EMol.ok
  swap
  · rw [if_pos hnode] at hop
    refine iff_of_true ⟨fun hok => ?_, fun _ => by rw [hop]⟩ (.inl hnode)
    rw [hop] at hok
    exact absurd hok hnode
  rw [if_neg (not_not_intro hnode)] at hop
  rcases migrMove_cases n (endpointP ep) pid new env with ⟨hr, hne, hsame⟩ | ⟨hr, hok⟩
  · rw [if_pos hne] at hop
    refine iff_of_true ⟨fun hok => ?_, fun _ => by rw [hop, hsame]⟩ (.inr (.inl hr))
    rw [hop] at hok
    exact absurd hok hne
  · rw [if_neg (not_not_intro hok)] at hop
    constructor
    · intro hc
      have hs := hc.succeeds (by rw [hop])
      exact .inr (.inr ⟨hs.1, hs.2.2⟩)
    · intro hc
      refine ⟨fun _ => ?_, fun hne => absurd (by rw [hop]) hne⟩
      obtain ⟨hm, hd⟩ := (hc.resolve_left (not_not_intro hnode)).resolve_left hr
      exact ⟨hm, newNodeCheck_dcNodes hnode, hd⟩

end Commit

/-! ### The call -/

/-- **The operations of a migration are checked and atomic** iff the start is refused or can be
undone, and the commit is refused or is that of a marked process to a node of its DC. -/
theorem migrate_checked_iff {n : Node} {ep : ℤ} {env : MigrEnv} (h : n.OfDc ep env)
    (pid new : ℤ) :
    (((n.proc (endpointP ep)).rts.remote = false → n.StartsWhole ep pid new env) ∧
        n.RollsBack ep pid new env ∧ n.CommitsChecked ep pid new env) ↔
      n.Undoable ep env ∧ n.Committable ep pid new env := by
  rw [rollsBack_iff h, commitsChecked_iff h]
  exact and_iff_right (startsWhole h)

def markedSample (marked : Bool) : Node where
  conf := { Conf.sample 0 with dcid := 1, nDcs := fun node d => decide (node ≠ 2 ∨ d = 0) }
  proc := fun q =>
    if q = 5 then { Proc.sample 0 5 { receiving := true } with misc := { grpleader := true } }
    else if q = 6 then Proc.sample 1 6 { remote := true, migrate := marked }
    else {}
  sproxy := Proc.sampleProxy
  rproxy := Proc.sampleProxy

theorem markedSample_ofDc (marked : Bool) {ep : ℤ} (h : ep = 5 ∨ ep = 6) :
    (markedSample marked).OfDc ep {} := by
  cases marked <;> rcases h with rfl | rfl <;>
    exact ⟨⟨by decide, by decide⟩, ⟨by decide, by decide⟩, fun _ => rfl⟩

/-- The process 6, once marked, moves to node 3. -/
theorem migrate_marked :
    (markedSample true).OfDc 6 {} ∧ (markedSample true).RollsBack 6 0 3 {} ∧
      (markedSample true).CommitsChecked 6 0 3 {} ∧
      ((markedSample true).migrate {} .commit 0 6 3).2 = EMol.ok := by
  have h := markedSample_ofDc true (.inr rfl : (6 : ℤ) = 5 ∨ _)
  have hc := (migrate_checked_iff h 0 3).2
    ⟨.inl (by decide), .inr (.inr ⟨by decide, by decide⟩)⟩
  exact ⟨h, hc.2.1, hc.2.2, by decide⟩

/-- The rollback of the start of 5 is refused, and 5 keeps its mark; 6, which has no mark, moves to
node 2, where its DC is not. -/
theorem migrate_unchecked :
    (markedSample false).OfDc 5 {} ∧ (markedSample false).OfDc 6 {} ∧
      ((markedSample false).migrate {} .start 0 5 1).2 = EMol.ok ∧
      (((markedSample false).migrate {} .start 0 5 1).1.migrate {} .rollback 0 5 1).2 =
        EMol.migrate ∧
      ((((markedSample false).migrate {} .start 0 5 1).1.migrate {} .rollback 0 5 1).1.proc
        5).misc.needmigr = true ∧
      ¬ (markedSample false).RollsBack 5 0 1 {} ∧
      ((markedSample false).migrate {} .commit 0 6 2).2 = EMol.ok ∧
      (((markedSample false).migrate {} .commit 0 6 2).1.proc 6).nodeid = 2 ∧
      ¬ (markedSample false).CommitsChecked 6 0 2 {} := by
  refine ⟨markedSample_ofDc false (.inl rfl), markedSample_ofDc false (.inr rfl), by decide, by decide,
    by decide, fun h => ?_, by decide, by decide, fun h => ?_⟩
  · exact absurd (h (by decide)).1 (by decide)
  · exact absurd (h.succeeds (by decide)).1 (by decide)

end Node

end MolIpc
