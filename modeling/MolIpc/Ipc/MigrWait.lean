import MolIpc.Ipc.Disturb
import MolIpc.Lib.Reach

/-!
Waiting for a destination that migrates.

Send, sendrec and reply to a process that migrates link the caller to the queue `p_mlist` of the
destination and sleep. What the sleep comes to is not looked at: the call starts again whenever it
wakes up, and links the caller once more if the destination still migrates. As long as every such
sleep is ended by those who take the caller off the queue, the caller is in one queue, once, and in
none when the call returns.
-/

namespace MolIpc

open Reach

variable {d ep w : ℤ} {op : Op} {wait : Wait}

namespace Node

variable {n : Node}

def Migrating (n : Node) (ep : ℤ) : Prop :=
  (n.proc (endpointP ep)).endpoint = ep ∧ (n.proc (endpointP ep)).rts.slotFree = false ∧
    (n.proc (endpointP ep)).rts.migrate = true

instance (n : Node) (ep : ℤ) : Decidable (n.Migrating ep) := by
  unfold Migrating; infer_instance

/-- The process `c` is in no queue of those who wait for a migration, and is not marked as one of
them. -/
def Unlinked (n : Node) (c : ℤ) : Prop :=
  (∀ q, c ∉ (n.proc q).mlist) ∧ (n.proc c).rts.waitmigr = false

/-- The process `c` is in one queue of those who wait for a migration at most, and there once. -/
structure LinkedOnce (n : Node) (c : ℤ) : Prop where
  once (q : ℤ) : (n.proc q).mlist.count c ≤ 1
  one (q q' : ℤ) : c ∈ (n.proc q).mlist → c ∈ (n.proc q').mlist → q = q'

structure Starts (n : Node) (c : ℤ) : Prop where
  isLocal : (n.proc c).rts.remote = false
  used : (n.proc c).rts.slotFree = false
  unlinked : n.Unlinked c

theorem Unlinked.linkedOnce {c : ℤ} (h : n.Unlinked c) : n.LinkedOnce c where
  once q := by rw [List.count_eq_zero.mpr (h.1 q)]; exact Nat.zero_le 1
  one q _ hq := absurd hq (h.1 q)

theorem sendDst_eq_migrating {died : ℤ} : n.sendDst ep died = .migrating ↔ n.Migrating ep := by
  unfold sendDst Migrating
  dsimp only
  split_ifs <;> simp_all

/-! ### The steps of the caller -/

end Node

def Proc.marks (p : Proc) : List ℤ × Bool × Bool × Bool :=
  (p.mlist, p.rts.waitmigr, p.rts.remote, p.rts.slotFree)

section Marks

variable (p : Proc)

theorem Proc.marks_of_outer {p p' : Proc} (h : p'.outer = p.outer) : p'.marks = p.marks :=
  congrArg (fun o => (o.1.1.2.1, o.1.2, o.2.1.2, o.2.2.2)) h

theorem Proc.wakeMigr_migrating
    (h : p.endpoint = ep ∧ p.rts.slotFree = false ∧ p.rts.migrate = true) :
    p.wakeMigr.endpoint = ep ∧ p.wakeMigr.rts.slotFree = false ∧
      p.wakeMigr.rts.migrate = true := by
  unfold wakeMigr
  split
  · exact ⟨h.1, h.2.1, rfl⟩
  · exact h

end Marks

namespace Node

def SameMarks (n n' : Node) : Prop := ∀ q, (n'.proc q).marks = (n.proc q).marks

/-- A part of a call to `dst` that begins and ends no such wait. -/
def Settles (dst : ℤ) (n : Node) (r : Node × Next) : Prop :=
  SameMarks n r.1 ∧ ∀ op wait, r.2 = .sleep op wait → op.dst? = some dst ∧ wait ≠ .migr

structure Joins (c d : ℤ) (n n' : Node) : Prop where
  mlist (q : ℤ) : (n'.proc q).mlist = (n.proc q).mlist ++ if q = d then [c] else []
  isLocal : (n'.proc c).rts.remote = (n.proc c).rts.remote
  used : (n'.proc c).rts.slotFree = (n.proc c).rts.slotFree
  marked : (n'.proc c).rts.waitmigr = true

/-- A part of a call to `dst` goes past the check of the destination, or waits for it. -/
def Asks (c dst : ℤ) (n : Node) (r : Node × Next) : Prop :=
  Settles dst n r ∨ ∃ op, r.2 = .sleep op .migr ∧ op.dst? = some dst ∧ Joins c (endpointP dst) n r.1

section Own

variable {c dst timeout cp : ℤ} {n m n' : Node} {f : Proc → Proc} {r : Node × Next}
  {A : Set (ℤ × Kind)}

theorem SameMarks.refl (n : Node) : SameMarks n n := fun _ => rfl

theorem SameMarks.trans (h : SameMarks n m) (h' : SameMarks m n') : SameMarks n n' :=
  fun q => (h' q).trans (h q)

theorem SameMarks.modProc (h : SameMarks n m) (i : ℤ) (hf : ∀ p, (f p).marks = p.marks) :
    SameMarks n (m.modProc i f) := fun q => (modProc_field i q Proc.marks hf).trans (h q)

theorem Edits.sameMarks {a : Actor} (h : Edits a A n m) (ha : a.copier = false) :
    SameMarks n m := by
  induction h with
  | refl n => exact .refl n
  | mod _ i hf _ ih => exact ih.modProc i fun p => Proc.marks_of_outer (hf p)
  | @around _ _ _ _ i _ _ _ _ hf hg _ _ _ _ _ ih ihv =>
    have hin := ih.modProc i fun p => Proc.marks_of_outer (hf p)
    exact (hin.trans ihv).modProc i fun p => Proc.marks_of_outer (hg p)
  | unlink _ _ ih => exact ih
  | link _ _ d ih => exact ih.modProc d fun _ => by rfl
  | @ask _ _ _ x _ _ _ _ _ hf ih =>
    have hask := ih.modProc x fun p => (Proc.marks_of_outer (hf p)).trans rfl
    exact fun q => (sproxyEnqueue_field Proc.marks (fun _ _ => rfl) q).trans (hask q)
  | wait _ hcopy | init _ hcopy => exact nomatch hcopy.symm.trans ha

theorem Joins.of_sameMarks (h : SameMarks n m) (hj : Joins c d m n') : Joins c d n n' where
  mlist q := by
    have hq : (m.proc q).mlist = (n.proc q).mlist := congrArg Prod.fst (h q)
    rw [hj.mlist, hq]
  isLocal := hj.isLocal.trans (congrArg (fun l => l.2.2.1) (h c))
  used := hj.used.trans (congrArg (fun l => l.2.2.2) (h c))
  marked := hj.marked

theorem joins_wait (d : ℤ) (hf : ∀ p, (f p).marks = (p.mlist, true, p.rts.remote, p.rts.slotFree)) :
    Joins c d n ((n.modProc c f).modProc d fun p => { p with mlist := p.mlist ++ [c] }) := by
  have hside := modProc_field (n := n.modProc c f) d c (fun p => p.marks.2)
    (f := fun p => { p with mlist := p.mlist ++ [c] }) fun _ => rfl
  rw [modProc_same, hf] at hside
  refine ⟨fun q => ?_, congrArg (fun l => l.2.1) hside, congrArg (fun l => l.2.2) hside,
    congrArg Prod.fst hside⟩
  have hself : ((n.modProc c f).proc q).mlist = (n.proc q).mlist :=
    modProc_field c q Proc.mlist fun p => congrArg Prod.fst (hf p)
  rw [modProc_proc]
  split
  · rename_i hq
    exact congrArg (· ++ [c]) (hq ▸ hself)
  · rw [hself, List.append_nil]

theorem Part.asks (h : Part c op A n r) (hop : op.dst? = some dst) : Asks c dst n r := by
  cases h with
  | done h code => exact .inl ⟨h.sameMarks rfl, nofun⟩
  | sleeps h hw =>
    refine .inl ⟨h.sameMarks rfl, fun op' wait' hs => ?_⟩
    cases hs
    exact ⟨hop, hw⟩
  | waits h hdst =>
    cases hop.symm.trans hdst
    exact .inr ⟨op, rfl, hop, .of_sameMarks (h.sameMarks rfl) (joins_wait _ fun _ => rfl)⟩

theorem wake_cases (hop : op.dst? = some dst) (h : n.wake c op wait timeout w cp = some r) :
    SameMarks n r.1 ∧ r.2 = .sleep op wait ∨ Asks c dst n r := by
  rcases part_wake h with ⟨m, hm, rfl⟩ | hp
  · exact .inl ⟨hm.sameMarks rfl, rfl⟩
  · exact .inr (hp.asks hop)

end Own

end Node

/-! ### Runs -/

def Next.waitsMigr : Next → Bool
  | .sleep _ .migr => true
  | _ => false

namespace Node

/-- While `c` waits, no sender proxy has a command of it, and it wakes up when those who take it off
the queue have ended its wait. -/
def Patient (c : ℤ) (s : Node × Next) : CallLabel → Prop
  | .other a => s.1.ByOthers c a ∧ (s.2.waitsMigr = true → emits c a = false)
  | .wake _ _ => s.2.waitsMigr = true →
    (s.1.proc c).rts.waitmigr = false ∧ (s.1.proc c).rcode < 0

structure Underway (c dst : ℤ) (s : Node × Next) : Prop where
  isLocal : (s.1.proc c).rts.remote = false
  used : (s.1.proc c).rts.slotFree = false
  linkedOnce : s.1.LinkedOnce c
  marked (q : ℤ) : c ∈ (s.1.proc q).mlist → (s.1.proc c).rts.waitmigr = true
  unlinked : s.2.waitsMigr = false → s.1.Unlinked c
  op (op : Op) (wait : Wait) : s.2 = .sleep op wait → op.dst? = some dst

section Runs

variable {c dst timeout : ℤ} {n n' : Node} {r s t : Node × Next}

theorem SameMarks.unlinked (h : SameMarks n n') (hn : n.Unlinked c) : n'.Unlinked c := by
  refine ⟨fun q => ?_, (congrArg (fun l => l.2.1) (h c)).trans hn.2⟩
  have hq : (n'.proc q).mlist = (n.proc q).mlist := congrArg Prod.fst (h q)
  rw [hq]
  exact hn.1 q

theorem Joins.mem_iff (h : Joins c d n n') (hn : n.Unlinked c) (q : ℤ) :
    c ∈ (n'.proc q).mlist ↔ q = d := by
  rw [h.mlist, List.mem_append]
  have := hn.1 q
  split <;> simp_all

theorem Joins.linkedOnce (h : Joins c d n n') (hn : n.Unlinked c) : n'.LinkedOnce c where
  once q := by
    rw [h.mlist, List.count_append, List.count_eq_zero.mpr (hn.1 q)]
    split <;> simp
  one q q' hq hq' := ((h.mem_iff hn q).mp hq).trans ((h.mem_iff hn q').mp hq').symm

theorem Asks.underway (h : Asks c dst n r) (hc : (n.proc c).rts.remote = false)
    (hu : (n.proc c).rts.slotFree = false) (hn : n.Unlinked c) : Underway c dst r := by
  rcases h with ⟨hs, hop⟩ | ⟨op, hnext, hop, hj⟩
  · have hr := hs.unlinked hn
    refine ⟨(congrArg (fun l => l.2.2.1) (hs c)).trans hc,
      (congrArg (fun l => l.2.2.2) (hs c)).trans hu, hr.linkedOnce, fun q hq => ?_, fun _ => hr,
      fun op wait h => (hop op wait h).1⟩
    exact absurd hq (hr.1 q)
  · refine ⟨hj.isLocal.trans hc, hj.used.trans hu, hj.linkedOnce hn, fun _ _ => hj.marked,
      fun hw => ?_, fun op' wait h => ?_⟩
    · rw [hnext] at hw
      cases hw
    · rw [hnext] at h
      cases h
      exact hop

theorem Underway.other {a : NodeAct} (h : Underway c dst s) (hp : Patient c s (.other a))
    (hn : s.1.act a = some n') : Underway c dst (n', s.2) := by
  have hd := disturbs_act hp.1 h.isLocal h.used hn
  have hmem : ∀ q, c ∈ (n'.proc q).mlist → c ∈ (s.1.proc q).mlist := fun q hq =>
    List.count_pos_iff.mp ((List.count_pos_iff.mpr hq).trans_le (hd.mlist q))
  have hun : s.1.Unlinked c → n'.Unlinked c := fun hu =>
    ⟨fun q hq => hu.1 q (hmem q hq), by
      by_contra hw
      have := hd.unset (by simpa using hw)
      rw [hu.2] at this
      cases this⟩
  refine ⟨hd.isLocal h.isLocal, hd.desc.sameProcess.used h.used,
    ⟨fun q => (hd.mlist q).trans (h.linkedOnce.once q),
      fun q q' hq hq' => h.linkedOnce.one q q' (hmem q hq) (hmem q' hq')⟩,
    fun q hq => ?_, fun hw => hun (h.unlinked hw), h.op⟩
  cases hw : s.2.waitsMigr with
  | false => exact absurd hq ((hun (h.unlinked hw)).1 q)
  | true =>
    have hout := out_notMem_aims (n := s.1) (hp.2 hw)
    rcases hd.waits hout.1 hout.2 with hbit | hno
    · exact hbit.trans (h.marked q (hmem q hq))
    · exact absurd hq (hno q)

theorem Underway.wake {cp : ℤ} (h : Underway c dst s) (hs : s.2 = .sleep op wait)
    (hp : Patient c s (.wake w cp)) (hr : s.1.wake c op wait timeout w cp = some r) :
    Underway c dst r := by
  have hun : s.1.Unlinked c := by
    cases hw : s.2.waitsMigr with
    | false => exact h.unlinked hw
    | true =>
      refine ⟨fun q hq => ?_, (hp hw).1⟩
      exact absurd (h.marked q hq) (by simp [(hp hw).1])
  rcases wake_cases (h.op op wait hs) hr with ⟨hmarks, hnext⟩ | hasks
  · have hr' := hmarks.unlinked hun
    refine ⟨(congrArg (fun l => l.2.2.1) (hmarks c)).trans h.isLocal,
      (congrArg (fun l => l.2.2.2) (hmarks c)).trans h.used, hr'.linkedOnce,
      fun q hq => absurd hq (hr'.1 q), fun _ => hr', fun op' wait' h' => ?_⟩
    rw [hnext] at h'
    cases h'
    exact h.op op wait hs
  · exact hasks.underway h.isLocal h.used hun

theorem Underway.step {l : CallLabel} (h : Underway c dst s) (hp : Patient c s l)
    (ht : callStep c timeout s l = some t) : Underway c dst t := by
  cases l with
  | other a =>
    obtain ⟨n', hn, rfl⟩ := Option.map_eq_some_iff.mp ht
    exact h.other hp hn
  | wake w cp =>
    unfold callStep at ht
    dsimp only at ht
    split at ht
    · cases ht
    · rename_i op wait hs
      exact h.wake hs hp ht

end Runs

/-! ### Giving up -/

section GiveUp

variable {c dst timeout cp w : ℤ} {n : Node} {op : Op} {r : Node × Next}

theorem call_nowait_iff (hop : op.dst? = some dst) (hentry : n.sendEntry c dst = EMol.ok)
    (hne : endpointP dst ≠ c) (msg : Message) (cp : ℤ) :
    (∃ r, n.call c op msg timeoutNowait cp = some r) ↔ ¬ n.Migrating dst := by
  generalize hu : (n.modProc c fun p => { p with ubuf := msg }) = u
  have hmigr : u.Migrating dst ↔ n.Migrating dst := by
    unfold Migrating
    rw [← hu, modProc_of_ne _ _ hne]
  have hwait : ∀ op, u.waitMigr c dst timeoutNowait op = none := fun op => if_pos rfl
  have hsome : ∀ (p : Prop) [Decidable p] (a b : Node × Next),
      ∃ r, (if p then some a else some b) = some r := by
    intro p _ a b
    split <;> exact ⟨_, rfl⟩
  have hentry' : ¬ n.sendEntry c dst ≠ EMol.ok := not_not_intro hentry
  rw [← hmigr]
  cases op with
  | send d =>
    cases hop
    rw [← @sendDst_eq_migrating dst u EMol.dstdied]
    simp only [call, miniSend, if_neg hentry', if_neg hne, hu, sendReplay]
    split
    · rename_i hd
      simp [hd]
    · rename_i hd
      simp [hd, hwait]
    · rename_i hd
      exact iff_of_true (hsome _ _ _) (by simp [hd])
  | sendrec d =>
    cases hop
    rw [← @sendDst_eq_migrating dst u EMol.deadsrcdst]
    simp only [call, miniSendrec, if_neg hentry', if_neg hne, hu, sendrecReplay]
    split
    · rename_i hd
      simp [hd]
    · rename_i hd
      simp [hd, hwait]
    · rename_i hd
      exact iff_of_true (hsome _ _ _) (by simp [hd])
  | reply d =>
    cases hop
    rw [← @sendDst_eq_migrating dst u EMol.dstdied]
    simp only [call, miniReply, if_neg hentry', if_neg hne, hu, replyReplay]
    split
    · rename_i hd
      simp [hd]
    · rename_i hd
      simp [hd, hwait]
    · rename_i hd
      exact iff_of_true (hsome _ _ _) (by simp [hd])
  | receive | rcvrqst | notify => cases hop

theorem wake_migrating (hop : op.dst? = some dst) (hm : n.Migrating dst)
    (hr : n.wake c op .migr timeout w cp = some r) : ∃ op, r.2 = .sleep op .migr := by
  have hwait : ∀ {u : Node} {op : Op}, u.waitMigr c dst timeout op = some r →
      ∃ op, r.2 = .sleep op .migr := by
    intro u op h
    unfold waitMigr at h
    split at h <;> cases h
    exact ⟨op, rfl⟩
  unfold wake at hr
  dsimp only at hr
  generalize hu : n.modProc c (fun p => { p with
      rcode := (n.proc c).sleepResult timeout w
      pseudosem := if (n.proc c).sleepResult timeout w ≠ EMol.ok ∧ p.pseudosem < 0
        then p.pseudosem + 1 else p.pseudosem }) = u at hr
  split at hr
  · cases hr
    exact ⟨op, rfl⟩
  generalize hv : u.modProc c Proc.wakeMigr = v at hr
  have hvm : v.Migrating dst := by
    unfold Migrating at hm ⊢
    rw [← hv, ← hu]
    by_cases hd : endpointP dst = c
    · rw [hd] at hm ⊢
      rw [modProc_same, modProc_same]
      exact Proc.wakeMigr_migrating _ hm
    · rw [modProc_of_ne _ _ hd, modProc_of_ne _ _ hd]
      exact hm
  have hdst : ∀ died, v.sendDst dst died = .migrating := fun died => sendDst_eq_migrating.mpr hvm
  cases op with
  | send d =>
    cases hop
    simp only [resume, sendReplay, hdst] at hr
    exact hwait hr
  | sendrec d =>
    cases hop
    simp only [resume, sendrecReplay, hdst] at hr
    exact hwait hr
  | reply d =>
    cases hop
    simp only [resume, replyReplay, hdst] at hr
    exact hwait hr
  | receive | rcvrqst | notify => cases hop

/-- The caller is interrupted or its timeout has expired, nobody has ended the wait, and the
destination still migrates. -/
def Expires (c dst timeout : ℤ) (s : Node × Next) : CallLabel → Prop
  | .other _ => False
  | .wake w _ => s.2.waitsMigr = true ∧ s.1.Migrating dst ∧ 0 ≤ (s.1.proc c).rcode ∧
    (w < 0 ∨ w = 0 ∧ 0 ≤ timeout)

/-- The step ends the call with the error of the wait, and leaves the caller in no queue. -/
def GivesUp (c timeout : ℤ) (s : Node × Next) : CallLabel → Prop
  | .other _ => False
  | .wake w cp => ∃ n', n'.Unlinked c ∧ callStep c timeout s (.wake w cp) =
    some (n', .ret ((s.1.proc c).sleepResult timeout w))

def Answers (c dst timeout : ℤ) (s : Node × Next) (l : CallLabel) : Prop :=
  Expires c dst timeout s l → GivesUp c timeout s l

structure InOrder (c : ℤ) (s : Node × Next) : Prop where
  linkedOnce : s.1.LinkedOnce c
  returned (code : ℤ) : s.2 = .ret code → s.1.Unlinked c

theorem answers_iff {s : Node × Next} (hs : s.2 = .sleep op .migr) (hop : op.dst? = some dst)
    (l : CallLabel) : Answers c dst timeout s l ↔ ¬ Expires c dst timeout s l := by
  refine ⟨fun ha he => ?_, fun hn he => absurd he hn⟩
  cases l with
  | other a => exact he
  | wake w cp =>
    obtain ⟨n', -, hstep⟩ := ha he
    simp only [callStep, hs] at hstep
    obtain ⟨op', hnext⟩ := wake_migrating hop he.2.1 hstep
    cases hnext

/-- **Waiting for a migrating destination.** A call that may not wait returns iff the destination
does not migrate. In every run in which the waits are ended by those who take the caller off the
queue, it is in one queue at most, in none after the return, and no wait expires. -/
theorem migrWait_inOrder (hop : op.dst? = some dst) (hs : n.Starts c) (msg : Message) (cp : ℤ) :
    (n.sendEntry c dst = EMol.ok → endpointP dst ≠ c →
      ((∃ r, n.call c op msg timeoutNowait cp = some r) ↔ ¬ n.Migrating dst)) ∧
    (∀ timeout r, n.call c op msg timeout cp = some r →
      ∀ s, Reachable (callStep c timeout) (Patient c) r s →
        InOrder c s ∧ ∀ l, Patient c s l → Answers c dst timeout s l) ∧
    ∀ timeout s op', s.2 = .sleep op' .migr → op'.dst? = some dst → ∀ l,
      Answers c dst timeout s l ↔ ¬ Expires c dst timeout s l := by
  refine ⟨fun he hne => call_nowait_iff hop he hne msg cp, fun timeout r hr s hreach => ?_,
    fun timeout s op' hs hop' => answers_iff hs hop'⟩
  have hstart : Underway c dst r :=
    ((part_call hr).asks hop).underway hs.isLocal hs.used hs.unlinked
  have hrun : Underway c dst s :=
    hreach.invariant hstart fun s l t h hp ht => h.step hp ht
  refine ⟨⟨hrun.linkedOnce, fun code hret => hrun.unlinked (by rw [hret]; rfl)⟩, fun l hp he => ?_⟩
  cases l with
  | other a => exact he.elim
  | wake w cp' => exact absurd (hp he.1).2 (not_lt.mpr he.2.2.1)

end GiveUp

/-! ### A timeout that expires -/

def migrSample : Node where
  conf := Conf.sample 0
  proc := fun q =>
    if q = 5 then Proc.sample 0 5 {}
    else if q = 6 then { Proc.sample 0 6 { migrate := true } with misc := { grpleader := true } }
    else {}
  sproxy := Proc.sampleProxy
  rproxy := Proc.sampleProxy

theorem migrSample_starts : migrSample.Starts 5 := by
  refine ⟨rfl, rfl, fun q => ?_, rfl⟩
  unfold migrSample
  dsimp only
  split_ifs <;> exact List.not_mem_nil

def migrSampleSent (timeout : ℤ) : Option (Node × Next) :=
  migrSample.call 5 (.send 6) {} timeout 0

theorem migrSample_inOrder :
    ∃ r s, migrSampleSent 100 = some r ∧ r.2 = .sleep (.send 6) .migr ∧
      Reachable (callStep 5 100) (Patient 5) r s ∧ s.2 = .sleep (.send 6) .queued ∧
      InOrder 5 s := by
  have hrun : ∃ s, Reachable (callStep 5 100) (Patient 5) ((migrSampleSent 100).get rfl) s ∧
      s.2 = .sleep (.send 6) .queued := by
    refine ⟨_, .step (.step .init (a := .other (.migrate {} .rollback 0 6 0)) ?_ rfl)
      (a := .wake 1 0) ?_ rfl, rfl⟩
    · exact ⟨nofun, fun _ => rfl⟩
    · exact fun _ => ⟨rfl, by decide⟩
  obtain ⟨s, hs, hq⟩ := hrun
  refine ⟨_, s, (Option.some_get _).symm, rfl, hs, hq, ?_⟩
  exact ((migrWait_inOrder rfl migrSample_starts {} 0).2.1 100 _ (Option.some_get _).symm s hs).1

/-- The timeout of 5 expires while 6 migrates: the call does not return, and 5 is in the queue of 6
twice. -/
theorem migrWait_expired :
    (migrSampleSent 100).map (fun r => (r.2, (r.1.proc 6).mlist)) =
        some (.sleep (.send 6) .migr, [5]) ∧
      ((migrSampleSent 100).bind fun r => callStep 5 100 r (.wake 0 0)).map
          (fun r => (r.2, (r.1.proc 6).mlist, (r.1.proc 5).rts.waitmigr)) =
        some (.sleep (.send 6) .migr, [5, 5], true) ∧
      (∀ r, migrSampleSent 100 = some r → Expires 5 6 100 r (.wake 0 0) ∧
        ¬ GivesUp 5 100 r (.wake 0 0)) ∧
      migrSampleSent timeoutNowait = none := by
  refine ⟨by decide, by decide, fun r hr => ?_, by decide⟩
  obtain rfl := Option.some.inj hr
  have he : Expires 5 6 100 ((migrSampleSent 100).get rfl) (.wake 0 0) :=
    ⟨rfl, by decide, by decide, .inr ⟨rfl, by decide⟩⟩
  have hs : ((migrSampleSent 100).get rfl).2 = .sleep (.send 6) .migr := rfl
  exact ⟨he, fun hg => (answers_iff hs rfl _).mp (fun _ => hg) he⟩

end Node

end MolIpc
