import MolIpc.Ipc.MigrateFlush

/-!
The processes that wait for the end of a migration, and whom of them a commit or a rollback wakes
up.
-/

namespace MolIpc

open Sections

namespace Node

variable {m : Node}

def Waits (n : Node) (i x : ℤ) : Prop :=
  (n.proc x).rts.waitmigr = true ∧ (n.proc x).waitmigr = (n.proc i).endpoint

def Unmarked (p : Proc) : Prop := p.rts.migrate = false ∧ p.misc.needmigr = false

/-- The end of the migration of `i` has left nobody behind: all who were waiting are woken up to
replay. -/
structure NobodyStranded (n n' : Node) (i : ℤ) (others : List ℤ) : Prop where
  mlist : (n'.proc i).mlist = []
  nobody : ∀ x, ¬ n'.Waits i x
  woken : ∀ x, n.Waits i x →
    (n'.proc x).rcode = EMol.migrate ∧ (n.proc x).pseudosem < (n'.proc x).pseudosem
  unmarked : Unmarked (n'.proc i)
  threads : (n'.proc i).rts.remote = false → ∀ t ∈ others, Unmarked (n'.proc t)

/-- A process that waits for `i` is in this one call: it is no thread of `i` and is linked nowhere
else. -/
structure OneCall (n : Node) (i : ℤ) (others : List ℤ) : Prop where
  nodup : (n.proc i).mlist.Nodup
  leader : i ∉ others
  apart : ∀ x, n.Waits i x → x ≠ i ∧ x ∉ others ∧ x ∉ (n.proc i).list ∧
    ∀ t ∈ others, x ∉ (n.proc t).list ∧ x ∉ (n.proc t).mlist
  place : (n.proc i).rts.remote = false → (n.proc i).nodeid = n.conf.localNodeid

/-- The operation looks at the waiters: a rollback where `i` is local, a commit anywhere but on the
new node. -/
def Flushes (n : Node) (i : ℤ) (oper : MigrOper) (new : ℤ) : Prop :=
  match oper with
  | .start => False
  | .rollback => (n.proc i).rts.remote = false
  | .commit => n.conf.localNodeid = (n.proc i).nodeid ∨ n.conf.localNodeid ≠ new

/-- Those who wait for `i` are linked at `i` and wait for nothing else; where nobody looks, there
are none, and the threads of the new task are not marked. -/
def Spared (n : Node) (i : ℤ) (oper : MigrOper) (new : ℤ) (others : List ℤ) : Prop :=
  (n.Flushes i oper new → ∀ x, n.Waits i x →
    x ∈ (n.proc i).mlist ∧ { (n.proc x).rts with waitmigr := false } = Rts.running) ∧
  (¬ n.Flushes i oper new → (n.proc i).mlist = [] ∧ (∀ x, ¬ n.Waits i x) ∧
    (oper = .commit → ∀ t ∈ others, Unmarked (n.proc t)))

section Calm

variable {n n' : Node} {i t x : ℤ}

theorem calmDesc_leave (p : Proc) (new : ℤ) : CalmDesc p (p.leave new) := by
  unfold Proc.leave
  dsimp only
  split
  · exact ⟨fun h => ⟨h, rfl⟩, nofun, id, fun _ => rfl, List.Subset.refl _, List.Subset.refl _, rfl⟩
  · exact ⟨fun h => ⟨h, rfl⟩, nofun, id, fun _ => rfl, List.Subset.refl _, List.Subset.refl _, rfl⟩

theorem calm_rollbackThread (t : ℤ) (n : Node) : Calm n (n.rollbackThread t) :=
  (stirs_rollbackThread t n).calm

theorem calm_oldThread (new t : ℤ) (n : Node) : Calm n (n.oldThread new t) :=
  (calm_modProc (fun p => calmDesc_leave p new) t n).trans
    ((stirs_flushSendingList t _).trans (stirs_flushMigrList t _)).calm

theorem Calm.waits (h : Calm n n') (hw : n'.Waits i x) : n.Waits i x := by
  obtain ⟨h1, h2⟩ := (h x).waits hw.1
  exact ⟨h1, by rw [← h2, hw.2, (h i).endpoint]⟩

theorem Calm.unmarked (h : Calm n n') (hu : Unmarked (n.proc t)) : Unmarked (n'.proc t) := by
  refine ⟨?_, ?_⟩
  · have := (h t).marked
    rw [hu.1] at this
    simpa using this
  · have := (h t).asked
    rw [hu.2] at this
    simpa using this

end Calm

/-! ### The turns of the threads -/

section Threads

variable {n : Node} {i t x new : ℤ} {others : List ℤ} {body : ℤ → Node → Node}

theorem keptFor_rollbackThread (hxt : x ≠ t) (hm : x ∉ (n.proc t).mlist) :
    KeptFor x n (n.rollbackThread t) := by
  have hmark : KeptFor x n (n.modProc t Proc.unmark) := keptFor_modProc hxt fun _ => rfl
  have hm' : x ∉ ((n.modProc t Proc.unmark).proc t).mlist := by
    rw [modProc_same]
    exact hm
  exact (hmark.trans (keptFor_flushMigrList hm')).trans
    (keptFor_modProc hxt fun _ => Proc.upIfReady_endpoint ..)

theorem keptFor_oldThread (hxt : x ≠ t) (hl : x ∉ (n.proc t).list) (hm : x ∉ (n.proc t).mlist) :
    KeptFor x n (n.oldThread new t) := by
  have hleave : KeptFor x n (n.modProc t (·.leave new)) :=
    keptFor_modProc hxt fun _ => leave_endpoint ..
  refine (hleave.trans (keptFor_flushSendingList ?_)).trans (keptFor_flushMigrList ?_)
  · rw [modProc_same, leave_list]
    exact hl
  · rw [flushSendingList_mlist, modProc_same, leave_mlist]
    exact hm

def afterTurn (n : Node) (i x : ℤ) : Proc :=
  if x ∈ (n.proc i).mlist then (n.proc x).endWaitmigr else n.proc x

theorem SameDesc.flushMigrList (hl : (n.proc i).mlist.Nodup) (hw : n.Waits i x)
    (hd : SameDesc (n.proc x) (m.proc x)) (hm : (m.proc i).mlist = (n.proc i).mlist)
    (he : (m.proc i).endpoint = (n.proc i).endpoint) :
    SameDesc (n.afterTurn i x) ((m.flushMigrList i).proc x) := by
  refine SameDesc.trans ?_ (flushMigrList_desc (by rw [hm]; exact hl) x)
  unfold afterTurn
  rw [hm, hd.waitmigr, he]
  simp only [hw.2, and_true]
  split
  · exact hd.endWaitmigr
  · exact hd

theorem rollbackThread_desc (hl : (n.proc i).mlist.Nodup) (hw : n.Waits i x) (hxi : x ≠ i) :
    SameDesc (n.afterTurn i x) ((n.rollbackThread i).proc x) := by
  unfold rollbackThread
  rw [modProc_of_ne _ _ hxi]
  refine SameDesc.flushMigrList hl hw ?_ ?_ ?_
  · rw [modProc_of_ne _ _ hxi]
    exact .refl _
  · rw [modProc_same]
    rfl
  · rw [modProc_same]
    rfl

theorem oldThread_desc (new : ℤ) (hl : (n.proc i).mlist.Nodup) (hw : n.Waits i x) (hxi : x ≠ i)
    (hs : x ∉ (n.proc i).list) : SameDesc (n.afterTurn i x) ((n.oldThread new i).proc x) := by
  have hleave : KeptFor x n (n.modProc i (·.leave new)) :=
    keptFor_modProc hxi fun _ => leave_endpoint ..
  have hsend : KeptFor x n ((n.modProc i (·.leave new)).flushSendingList i) :=
    hleave.trans (keptFor_flushSendingList (by rw [modProc_same, leave_list]; exact hs))
  refine SameDesc.flushMigrList hl hw hsend.desc ?_ (hsend.endpoint i)
  rw [flushSendingList_mlist, modProc_same, leave_mlist]

theorem keptFor_others (hcalm : ∀ t n, Calm n (body t n))
    (hkeep : ∀ t (n : Node), x ≠ t → x ∉ (n.proc t).list → x ∉ (n.proc t).mlist →
      KeptFor x n (body t n)) (hm : Calm n m) (hx : x ∉ others)
    (hlinks : ∀ t ∈ others, x ∉ (n.proc t).list ∧ x ∉ (n.proc t).mlist) :
    KeptFor x m (others.foldl (fun n t => body t n) m) := by
  have key : ∀ ts ⊆ others, ∀ m', Calm n m' → KeptFor x m m' →
      KeptFor x m (ts.foldl (fun n t => body t n) m') := by
    intro ts
    induction ts with
    | nil => exact fun _ _ _ h => h
    | cons t ts ih =>
      intro hts m' hm' hk
      have ht : t ∈ others := hts List.mem_cons_self
      refine ih (fun _ h => hts (List.mem_cons_of_mem _ h)) _ (hm'.trans (hcalm t m')) (hk.trans ?_)
      refine hkeep t m' (fun e => hx (e ▸ ht)) (fun h => ?_) (fun h => ?_)
      · exact (hlinks t ht).1 ((hm' t).list h)
      · exact (hlinks t ht).2 ((hm' t).mlist h)
  exact key others (List.Subset.refl _) m hm (.refl x m)

theorem calm_others (hcalm : ∀ t n, Calm n (body t n)) (ts : List ℤ) (m : Node) :
    Calm m (ts.foldl (fun n t => body t n) m) :=
  foldl_related (R := Calm) .refl .trans (fun t _ n => hcalm t n) m

end Threads

/-! ### The end of a migration -/

section End

variable {n n' : Node} {i x : ℤ} {others : List ℤ}

theorem nobodyStranded_iff_of_flush (hcalm : Calm n n')
    (hdesc : ∀ x, n.Waits i x → SameDesc (n.afterTurn i x) (n'.proc x))
    (hmlist : (n'.proc i).mlist = []) (hunmarked : Unmarked (n'.proc i))
    (hthreads : (n'.proc i).rts.remote = false → ∀ t ∈ others, Unmarked (n'.proc t)) :
    NobodyStranded n n' i others ↔ ∀ x, n.Waits i x →
      x ∈ (n.proc i).mlist ∧ { (n.proc x).rts with waitmigr := false } = Rts.running := by
  have hlinked : ∀ x, n.Waits i x →
      (((n'.proc x).rcode = EMol.migrate ∧ (n.proc x).pseudosem < (n'.proc x).pseudosem) ↔
        x ∈ (n.proc i).mlist ∧ { (n.proc x).rts with waitmigr := false } = Rts.running) := by
    intro x hw
    obtain ⟨l, m, hd⟩ := hdesc x hw
    rw [hd]
    unfold afterTurn
    by_cases hx : x ∈ (n.proc i).mlist
    · rw [if_pos hx]
      rw [and_iff_right hx]
      exact Proc.upIfReady_woken _ _
    · rw [if_neg hx]
      exact iff_of_false (fun h => Int.lt_irrefl _ h.2) fun h => hx h.1
  constructor
  · exact fun h x hw => (hlinked x hw).1 (h.woken x hw)
  · intro h
    refine ⟨hmlist, fun x hw => ?_, fun x hw => (hlinked x hw).2 (h x hw), hunmarked, hthreads⟩
    have hw₀ := hcalm.waits hw
    obtain ⟨l, m, hd⟩ := hdesc x hw₀
    have hwait : (n'.proc x).rts.waitmigr = false := by
      rw [hd]
      unfold afterTurn Proc.endWaitmigr
      rw [if_pos (h x hw₀).1]
      rw [Proc.upIfReady_rts]
    simp [hw.1] at hwait

theorem nobodyStranded_iff_of_keep (hkeep : ∀ x, x ≠ i → n'.proc x = n.proc x)
    (hmlist : (n'.proc i).mlist = (n.proc i).mlist)
    (hep : (n'.proc i).endpoint = (n.proc i).endpoint) (hself : ¬ n.Waits i i)
    (hself' : ¬ n'.Waits i i) (hleader : i ∉ others) (hunmarked : Unmarked (n'.proc i)) :
    NobodyStranded n n' i others ↔ (n.proc i).mlist = [] ∧ (∀ x, ¬ n.Waits i x) ∧
      ((n'.proc i).rts.remote = false → ∀ t ∈ others, Unmarked (n.proc t)) := by
  have hthreads : ∀ t ∈ others, n'.proc t = n.proc t :=
    fun t ht => hkeep t fun e => hleader (e ▸ ht)
  constructor
  · refine fun h => ⟨hmlist ▸ h.mlist, fun x hw => ?_, fun hr t ht => ?_⟩
    · have hx : x ≠ i := by
        rintro rfl
        exact hself hw
      have hwoken := (h.woken x hw).2
      rw [hkeep x hx] at hwoken
      exact Int.lt_irrefl _ hwoken
    · rw [← hthreads t ht]
      exact h.threads hr t ht
  · rintro ⟨hm, hw, ht⟩
    refine ⟨hmlist.trans hm, fun x hx => ?_, fun x hx => absurd hx (hw x), hunmarked, ?_⟩
    · by_cases hxi : x = i
      · rw [hxi] at hx
        exact hself' hx
      · refine hw x ?_
        unfold Waits at hx ⊢
        rwa [hkeep x hxi, hep] at hx
    · intro hr t hto
      rw [hthreads t hto]
      exact ht hr t hto

end End

/-! ### The calls that end -/

def settle (new : ℤ) (p : Proc) : Proc :=
  { p with nodemap := Function.update p.nodemap new true }.unmark

section Main

variable {n : Node} {i pid ep new : ℤ} {env : MigrEnv}

theorem rollbackThread_unmarked (t : ℤ) (n : Node) : Unmarked ((n.rollbackThread t).proc t) := by
  have h : Unmarked ((n.modProc t Proc.unmark).proc t) := by
    rw [modProc_same]
    exact ⟨rfl, rfl⟩
  exact ((stirs_flushMigrList t _).trans (stirs_upIfReady t _ _)).calm.unmarked h

theorem rollbackThread_mlist (t : ℤ) (n : Node) : ((n.rollbackThread t).proc t).mlist = [] := by
  unfold rollbackThread
  rw [modProc_same, Proc.upIfReady_mlist, flushMigrList_mlist]

theorem unmarked_of_rollback (ts : List ℤ) {t : ℤ} (ht : t ∈ ts) (n : Node) :
    Unmarked ((ts.foldl (fun n t => n.rollbackThread t) n).proc t) := by
  induction ts generalizing n with
  | nil => exact absurd ht List.not_mem_nil
  | cons u ts ih =>
    rcases List.mem_cons.1 ht with rfl | ht
    · exact (calm_others calm_rollbackThread ts _).unmarked (rollbackThread_unmarked t n)
    · exact ih ht _

theorem remote_rollback_iff (h : n.OneCall i env.others) (hr : (n.proc i).rts.remote = true) :
    NobodyStranded n (n.modProc i Proc.unmark) i env.others ↔
      n.Spared i .rollback new env.others := by
  have hnf : ¬ n.Flushes i .rollback new := by
    show ¬ (n.proc i).rts.remote = false
    rw [hr]
    decide
  have hself : ¬ n.Waits i i := fun hw => (h.apart i hw).1 rfl
  refine (nobodyStranded_iff_of_keep (fun x hx => modProc_of_ne _ _ hx) ?_ ?_ hself ?_ h.leader
    ?_).trans ?_
  · rw [modProc_same]; rfl
  · rw [modProc_same]; rfl
  · unfold Waits at hself ⊢
    rw [modProc_same]
    exact hself
  · rw [modProc_same]
    exact ⟨rfl, rfl⟩
  · have hr' : ((n.modProc i Proc.unmark).proc i).rts.remote = true := by
      rw [modProc_same]
      exact hr
    rw [hr']
    refine ⟨fun hl => ⟨fun hf => absurd hf hnf, fun _ => ⟨hl.1, hl.2.1, nofun⟩⟩, fun hs => ?_⟩
    exact ⟨(hs.2 hnf).1, (hs.2 hnf).2.1, nofun⟩

theorem local_rollback_iff (h : n.OneCall i env.others) (hr : (n.proc i).rts.remote = false) :
    NobodyStranded n ((i :: env.others).foldl (fun n t => n.rollbackThread t) n) i env.others ↔
      n.Spared i .rollback new env.others := by
  have hf : n.Flushes i .rollback new := hr
  have hcalm : Calm n (env.others.foldl (fun n t => n.rollbackThread t) (n.rollbackThread i)) :=
    (calm_rollbackThread i n).trans (calm_others calm_rollbackThread _ _)
  rw [List.foldl_cons]
  refine (nobodyStranded_iff_of_flush hcalm (fun x hw => ?_) ?_ ?_ ?_).trans ?_
  · obtain ⟨hxi, hxo, -, hlinks⟩ := h.apart x hw
    refine (rollbackThread_desc h.nodup hw hxi).trans ?_
    exact (keptFor_others calm_rollbackThread
      (fun t n hxt _ hm => keptFor_rollbackThread hxt hm) (calm_rollbackThread i n) hxo
      hlinks).desc
  · refine List.subset_nil.1 ?_
    rw [← rollbackThread_mlist i n]
    exact (calm_others calm_rollbackThread env.others _ i).mlist
  · exact unmarked_of_rollback (i :: env.others) List.mem_cons_self n
  · intro _ t ht
    exact unmarked_of_rollback (i :: env.others) (List.mem_cons_of_mem _ ht) n
  · exact ⟨fun hl => ⟨fun _ => hl, fun hnf => absurd hf hnf⟩, fun hs => hs.1 hf⟩

theorem unmarked_settle (new i : ℤ) (m : Node) : Unmarked ((m.modProc i (settle new)).proc i) := by
  rw [modProc_same]
  exact ⟨rfl, rfl⟩

theorem calmDesc_settle (new : ℤ) (p : Proc) : CalmDesc p (settle new p) :=
  ⟨fun h => ⟨h, rfl⟩, nofun, nofun, id, List.Subset.refl _, List.Subset.refl _, rfl⟩

theorem calm_settle (new i : ℤ) (m : Node) : Calm m (m.modProc i (settle new)) :=
  calm_modProc (calmDesc_settle new) i m

theorem commit_iff_of_flush (hf : n.Flushes i .commit new) (hcalm : Calm n m)
    (hdesc : ∀ x, n.Waits i x → x ≠ i ∧ SameDesc (n.afterTurn i x) (m.proc x))
    (hmlist : (m.proc i).mlist = []) (hremote : (m.proc i).rts.remote = true) :
    NobodyStranded n (m.modProc i (settle new)) i env.others ↔
      n.Spared i .commit new env.others := by
  refine (nobodyStranded_iff_of_flush (hcalm.trans (calm_settle new i m)) (fun x hw => ?_) ?_
    (unmarked_settle new i m) (fun hr => ?_)).trans ?_
  · rw [modProc_of_ne _ _ (hdesc x hw).1]
    exact (hdesc x hw).2
  · rw [modProc_same]
    exact hmlist
  · have := (calm_settle new i m i).remote hremote
    rw [hr] at this
    cases this
  · exact ⟨fun hl => ⟨fun _ => hl, fun hnf => absurd hf hnf⟩, fun hs => hs.1 hf⟩

theorem old_commit_iff (h : n.OneCall i env.others)
    (hold : n.conf.localNodeid = (n.proc i).nodeid) :
    NobodyStranded n (((i :: env.others).foldl (fun n t => n.oldThread new t) n).modProc i
      (settle new)) i env.others ↔ n.Spared i .commit new env.others := by
  have hturn : Calm n (n.oldThread new i) := calm_oldThread new i n
  have hothers := calm_others (calm_oldThread new) env.others (n.oldThread new i)
  rw [List.foldl_cons]
  refine commit_iff_of_flush (.inl hold) (hturn.trans hothers) (fun x hw => ?_) ?_ ?_
  · obtain ⟨hxi, hxo, hxl, hlinks⟩ := h.apart x hw
    refine ⟨hxi, (oldThread_desc new h.nodup hw hxi hxl).trans ?_⟩
    exact (keptFor_others (calm_oldThread new)
      (fun t n hxt hl hm => keptFor_oldThread hxt hl hm) hturn hxo hlinks).desc
  · refine List.subset_nil.1 ?_
    rw [← flushMigrList_mlist i ((n.modProc i (·.leave new)).flushSendingList i)]
    exact (hothers i).mlist
  · -- the bit is set in the turn of `i`, and nobody clears it
    refine (hothers i).remote ?_
    refine (((stirs_flushSendingList i _).trans (stirs_flushMigrList i _)).calm i).remote ?_
    rw [modProc_same]
    unfold Proc.leave
    dsimp only
    split <;> rfl

theorem third_commit_iff (h : n.OneCall i env.others)
    (hold : n.conf.localNodeid ≠ (n.proc i).nodeid) (hnew : n.conf.localNodeid ≠ new) :
    NobodyStranded n (((n.modProc i fun p => { p with nodeid := new }).flushMigrList i).modProc i
      (settle new)) i env.others ↔ n.Spared i .commit new env.others := by
  have hnode : Calm n (n.modProc i fun p => { p with nodeid := new }) := by
    refine calm_modProc ?_ i n
    exact fun _ => ⟨fun h => ⟨h, rfl⟩, id, id, id, List.Subset.refl _, List.Subset.refl _, rfl⟩
  have hcalm := hnode.trans (stirs_flushMigrList i _).calm
  refine commit_iff_of_flush (.inr hnew) hcalm (fun x hw => ?_) (flushMigrList_mlist i _) ?_
  · have hxi := (h.apart x hw).1
    refine ⟨hxi, SameDesc.flushMigrList h.nodup hw ?_ ?_ ?_⟩
    · rw [modProc_of_ne _ _ hxi]
      exact .refl _
    · rw [modProc_same]
    · rw [modProc_same]
  · refine (hcalm i).remote ?_
    by_contra hr
    exact hold (h.place (by simpa using hr)).symm

theorem new_commit_iff (h : n.OneCall i env.others)
    (hold : n.conf.localNodeid ≠ (n.proc i).nodeid) (hnew : n.conf.localNodeid = new) :
    NobodyStranded n ((n.modProc i fun p =>
      { p with lpid := pid, nodeid := n.conf.localNodeid, rts := Rts.running }).modProc i
        (settle new)) i env.others ↔ n.Spared i .commit new env.others := by
  have hnf : ¬ n.Flushes i .commit new := fun hf => hf.elim hold fun hn => hn hnew
  refine (nobodyStranded_iff_of_keep (fun x hx => ?_) ?_ ?_ (fun hw => (h.apart i hw).1 rfl) ?_
    h.leader (unmarked_settle new i _)).trans ?_
  · rw [modProc_of_ne _ _ hx, modProc_of_ne _ _ hx]
  · rw [modProc_same, modProc_same]
    rfl
  · rw [modProc_same, modProc_same]
    rfl
  · intro hw
    have hw := hw.1
    rw [modProc_same, modProc_same] at hw
    cases hw
  · have hr : (((n.modProc i fun p =>
        { p with lpid := pid, nodeid := n.conf.localNodeid, rts := Rts.running }).modProc i
          (settle new)).proc i).rts.remote = false := by
      rw [modProc_same, modProc_same]
      rfl
    rw [hr]
    constructor
    · exact fun hl => ⟨fun hf => absurd hf hnf, fun _ => ⟨hl.1, hl.2.1, fun _ => hl.2.2 rfl⟩⟩
    · exact fun hs => ⟨(hs.2 hnf).1, (hs.2 hnf).2.1, fun _ => (hs.2 hnf).2.2 rfl⟩

/-- **A migration that ends strands nobody** iff those who wait are linked with nothing else to wait
for, or there are none where the call does not look for them. -/
theorem nobodyStranded_iff_spared {oper : MigrOper} (hoper : oper ≠ .start)
    (hok : (n.migrate env oper pid ep new).2 = EMol.ok)
    (h : n.OneCall (endpointP ep) env.others) :
    NobodyStranded n (n.migrate env oper pid ep new).1 (endpointP ep) env.others ↔
      n.Spared (endpointP ep) oper new env.others := by
  rcases migrate_tries n env oper pid ep new with ⟨hne, -⟩ | ⟨-, -, -, hm⟩
  · exact absurd hok hne
  generalize (n.migrate env oper pid ep new).1 = m at hm ⊢
  cases hm with
  | startRemote | start => exact absurd rfl hoper
  | rollbackRemote hr => exact remote_rollback_iff h hr
  | rollback hr => exact local_rollback_iff h hr
  | old hold => exact old_commit_iff h hold
  | new hold hnew => exact new_commit_iff h hold hnew
  | other hold hnew => exact third_commit_iff h hold hnew

end Main

/-! ### A client that waits -/

def clientWaiting (k : ℤ) : Node where
  conf := Conf.sample k
  proc := fun nr =>
    if nr = 5 then
      { Proc.sample 0 5 { migrate := true, remote := decide (k ≠ 0) } with
        misc := { grpleader := true }, mlist := [6] }
    else if nr = 6 then
      { Proc.sample k 6 { waitmigr := true } with waitmigr := 5, pseudosem := -1 }
    else { endpoint := nr }
  sproxy := Proc.sampleProxy
  rproxy := Proc.sampleProxy

theorem clientWaiting_waits {k x : ℤ} (h : (clientWaiting k).Waits 5 x) : x = 6 := by
  by_contra hx
  have hw := h.1
  by_cases h5 : x = 5
  · rw [h5] at hw
    cases hw
  · have hp : (clientWaiting k).proc x = { endpoint := x } := by simp [clientWaiting, h5, hx]
    rw [hp] at hw
    cases hw

theorem clientWaiting_oneCall (k : ℤ) : (clientWaiting k).OneCall 5 [] where
  nodup := (by decide : [(6 : ℤ)].Nodup)
  leader := List.not_mem_nil
  apart := fun x hw => by
    rw [clientWaiting_waits hw]
    exact ⟨by decide, List.not_mem_nil, List.not_mem_nil, fun t ht => absurd ht List.not_mem_nil⟩
  place := fun hr => by
    have hk : k = 0 := by simpa [clientWaiting, Proc.sample] using hr
    rw [hk]
    rfl

/-- The commit on the old node wakes up the client. -/
theorem clientWaiting_old_node :
    NobodyStranded (clientWaiting 0) ((clientWaiting 0).migrate {} .commit 0 5 1).1 5 [] := by
  refine (nobodyStranded_iff_spared (by decide) (by decide) (clientWaiting_oneCall 0)).2 ?_
  refine ⟨fun _ x hw => ?_, fun hnf => absurd (.inl rfl) hnf⟩
  rw [clientWaiting_waits hw]
  decide

def beforeStart : Node where
  conf := Conf.sample 1
  proc := fun nr =>
    if nr = 5 then Proc.sample 0 5 { remote := true }
    else if nr = 6 then Proc.sample 1 6 {}
    else { endpoint := nr }
  sproxy := Proc.sampleProxy
  rproxy := Proc.sampleProxy

/-- The migration is started on the new node, the client 6 sends to 5, and the commit returns `OK`:
the client sleeps on. -/
theorem client_of_new_node_stranded :
    (beforeStart.migrate {} .start 0 5 1).2 = EMol.ok ∧
      ∃ n, (beforeStart.migrate {} .start 0 5 1).1.miniSend 6 5 { type := 3 } timeoutForever 0 =
          some (n, .sleep (.send 5) .migr) ∧
        (n.migrate {} .commit 1005 5 1).2 = EMol.ok ∧
        ((n.migrate {} .commit 1005 5 1).1.proc 5).rts.migrate = false ∧
        ((n.migrate {} .commit 1005 5 1).1.proc 5).mlist = [6] ∧
        (n.migrate {} .commit 1005 5 1).1.Waits 5 6 ∧
        ((n.migrate {} .commit 1005 5 1).1.proc 6).pseudosem = -1 ∧
        ¬ NobodyStranded n (n.migrate {} .commit 1005 5 1).1 5 [] := by
  refine ⟨by decide, _, rfl, by decide, by decide, by decide, ⟨by decide, by decide⟩, by decide,
    fun h => ?_⟩
  have hm := h.mlist
  revert hm
  decide

end Node

end MolIpc
