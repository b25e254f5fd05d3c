import MolIpc.Ipc.Bind
import MolIpc.Ipc.MigrateFlush
import MolIpc.Ipc.UnbindTrace

/-!
Which slots of the table of a DC are in use, and which calls change that: `mm_bind` and
`do_autobind` take a slot, `do_unbind` leaves one, and the end of a copy leaves the slot of a
requester that was to be unbound while it copied. A migration takes and leaves none.
-/

namespace MolIpc

open Sections

namespace Node

structure SameUse (n n' : Node) : Prop where
  conf : n'.conf = n.conf
  free (q : ℤ) : (n'.proc q).rts.slotFree = (n.proc q).rts.slotFree
  remote (q : ℤ) : (n.proc q).rts.slotFree = true → (n'.proc q).rts.remote = true →
    (n.proc q).rts.remote = true

structure Freed (i : ℤ) (n n' : Node) : Prop where
  conf : n'.conf = n.conf
  self : (n'.proc i).rts = Rts.onlyFree
  free (q : ℤ) : q ≠ i → (n'.proc q).rts.slotFree = (n.proc q).rts.slotFree
  remote (q : ℤ) : q ≠ i → (n.proc q).rts.slotFree = true → (n'.proc q).rts.remote = true →
    (n.proc q).rts.remote = true

structure Taken (i : ℤ) (n n' : Node) : Prop where
  conf : n'.conf = n.conf
  self : (n'.proc i).rts.slotFree = false
  other (q : ℤ) : q ≠ i → n'.proc q = n.proc q

section Basic

variable {n n' n'' : Node} {i : ℤ}

theorem SameUse.refl (n : Node) : SameUse n n := ⟨rfl, fun _ => rfl, fun _ _ => id⟩

theorem SameUse.trans (h : SameUse n n') (h' : SameUse n' n'') : SameUse n n'' where
  conf := h'.conf.trans h.conf
  free q := (h'.free q).trans (h.free q)
  remote q hq := h.remote q hq ∘ h'.remote q ((h.free q).trans hq)

theorem Freed.of_sameUse (h : SameUse n n') (h' : Freed i n' n'') : Freed i n n'' where
  conf := h'.conf.trans h.conf
  self := h'.self
  free q hq := (h'.free q hq).trans (h.free q)
  remote q hq hf := h.remote q hf ∘ h'.remote q hq ((h.free q).trans hf)

theorem Turn.sameUse {y : ℤ} (h : Turn y n n') : SameUse n n' where
  conf := h.conf
  free q := (h.tame q).slotFree
  remote q _ := (h.tame q).remote.symm.trans

theorem sameUse_modProc {f : Proc → Proc} (i : ℤ)
    (hf : (f (n.proc i)).rts.slotFree = (n.proc i).rts.slotFree ∧
      ((n.proc i).rts.slotFree = true → (f (n.proc i)).rts.remote = true →
        (n.proc i).rts.remote = true)) :
    SameUse n (n.modProc i f) := by
  refine ⟨rfl, fun q => ?_, fun q hq => ?_⟩
  · by_cases h : q = i
    · rw [h, modProc_same, hf.1]
    · rw [modProc_of_ne _ _ h]
  · by_cases h : q = i
    · subst h
      rw [modProc_same]
      exact hf.2 hq
    · rw [modProc_of_ne _ _ h]
      exact id

theorem freed_init (i : ℤ) (n : Node) (dcid : ℤ) : Freed i n (n.modProc i (·.initDesc dcid)) where
  conf := rfl
  self := by rw [modProc_same]; rfl
  free q hq := by rw [modProc_of_ne _ _ hq]
  remote q hq _ := by rw [modProc_of_ne _ _ hq]; exact id

theorem sameUse_init (h : (n.proc i).rts.slotFree = true) (dcid : ℤ) :
    SameUse n (n.modProc i (·.initDesc dcid)) := by
  refine sameUse_modProc i ⟨h.symm, ?_⟩
  exact fun _ hb => by cases hb

end Basic

/-! ### Leaving a slot -/

section Unbind

variable {n : Node} {caller : Caller} {i : ℤ}

/-- `do_unbind` clears the descriptor: the process is a remote one, or calls by itself. -/
def clearsSlot (n : Node) (caller : Caller) (i : ℤ) : Prop :=
  n.unbindCheck caller i = EMol.ok ∧ ((n.proc i).rts.remote = true ∨ caller = .proc i)

instance : Decidable (n.clearsSlot caller i) := by unfold clearsSlot; infer_instance

theorem freed_unbindBody (i : ℤ) (n : Node) : Freed i n (Sections.run (unbindBody i) n) :=
  .of_sameUse (unbindBody_keeps (fun ht h => h.trans ht.sameUse) i (.refl n)) (freed_init i _ _)

theorem sameUse_unbindOther (n : Node) (i sig : ℤ) : SameUse n (n.unbindOther i sig).1 := by
  unfold unbindOther
  dsimp only
  split_ifs <;> dsimp only
  · refine sameUse_modProc i ?_
    exact ⟨rfl, fun _ => id⟩
  · exact .refl n
  · exact .refl n
  · refine sameUse_modProc i ?_
    exact ⟨rfl, fun _ => id⟩
  · exact .refl n

theorem freed_doUnbind (sig : ℤ) (h : n.clearsSlot caller i) :
    (n.proc i).rts.slotFree = false ∧ Freed i n (n.doUnbind caller i sig).1 := by
  constructor
  · by_contra hf
    have hbad : n.unbindCheck caller i = EMol.notbind := by
      unfold unbindCheck
      simp [Bool.not_eq_false] at hf
      simp [hf]
    exact absurd (hbad.symm.trans h.1) (by decide)
  · have hbody := freed_unbindBody i n
    unfold doUnbind
    rw [if_neg (not_not_intro h.1)]
    split_ifs with hr hb hc
    · exact freed_init i n _
    · exact hbody
    · exact absurd h.2 (by simp [hr, hc])
    · exact hbody

theorem sameUse_doUnbind (sig : ℤ) (h : ¬ n.clearsSlot caller i) :
    SameUse n (n.doUnbind caller i sig).1 := by
  unfold doUnbind
  by_cases hk : n.unbindCheck caller i = EMol.ok
  · rw [if_neg (not_not_intro hk)]
    have hno : ¬ ((n.proc i).rts.remote = true ∨ caller = .proc i) := fun ho => h ⟨hk, ho⟩
    rw [not_or] at hno
    rw [if_pos hno.1, if_pos hno.2]
    exact sameUse_unbindOther n i sig
  · rw [if_pos hk]
    exact .refl n

end Unbind

theorem sameUse_vcopyFinish {n : Node} {c : ℤ} (h : (n.proc c).rts.signaled = false)
    (v : VcopyCall) (ret : ℤ) : SameUse n (n.vcopyFinish c v ret).1 := by
  have hclear : ∀ (m : Node) i, SameUse m (m.clearOncopy i) := fun m i =>
    sameUse_modProc i ⟨rfl, fun _ => id⟩
  have hup : ∀ (m : Node) i code, SameUse m (m.modProc i fun p => p.upIfReady code) := by
    intro m i code
    refine sameUse_modProc i ?_
    rw [Proc.upIfReady_rts]
    exact ⟨rfl, fun _ => id⟩
  unfold vcopyFinish
  dsimp only
  generalize (if ret = EMol.ok then (n.proc c).rcode else ret) = code
  generalize hm : (if ret = EMol.ok then n else n.modProc c fun p =>
    { p with rts := { p.rts with rmtoper := false }, proxy := noneEp, rcode := ret }) = m
  have hnm : SameUse n m ∧ (m.proc c).rts.signaled = false := by
    rw [← hm]
    split
    · exact ⟨.refl n, h⟩
    · refine ⟨sameUse_modProc c ⟨rfl, fun _ => id⟩, ?_⟩
      rw [modProc_same]
      exact h
  generalize hu : ((m.clearOncopy v.srcNr).clearOncopy v.dstNr).clearOncopy c = u
  have hnu : SameUse n u := by
    rw [← hu]
    exact hnm.1.trans (((hclear m _).trans (hclear _ _)).trans (hclear _ c))
  have hsig : (u.proc c).rts.signaled = false := by
    rw [← hu, clearOncopy_proc, clearOncopy_proc, clearOncopy_proc]
    exact hnm.2
  simp only [hsig, Bool.false_eq_true, if_false]
  split_ifs
  · exact hnu
  · exact hnu.trans (hup u _ _)
  · exact hnu.trans (hup u _ _)
  · exact hnu.trans ((hup u _ _).trans (hup _ _ _))

/-! ### Taking a slot -/

section Bind

variable {n : Node} {oper : BindOper} {pid ep nodeid : ℤ} {env : BindEnv}

variable (n oper ep nodeid env) in
theorem bindOpen_cases :
    (∃ code, n.bindOpen oper ep nodeid env = (n, .error code)) ∨
      n.conf.inRange (endpointP ep) ∧
        ((n.proc (endpointP ep)).rts.slotFree = true ∨ oper = .bkupBind ∨ oper = .replicaBind) ∧
        ∃ r, n.bindOpen oper ep nodeid env =
          (n.modProc (endpointP ep) (·.initDesc n.conf.dcid), r) := by
  unfold bindOpen
  split
  · exact .inl ⟨_, rfl⟩
  · rename_i node _
    by_cases hc : n.bindCheck oper ep node = EMol.ok
    · refine .inr ?_
      obtain ⟨hr, hf⟩ : n.conf.inRange (endpointP ep) ∧
          ((n.proc (endpointP ep)).rts.slotFree = true ∨ oper = .bkupBind ∨ oper = .replicaBind) := by
        unfold bindCheck at hc
        split_ifs at hc with h1 h2 h3 h4 h5 <;> first | exact absurd hc (by decide) | skip
        refine ⟨h3, ?_⟩
        by_contra hno
        simp only [not_or] at hno
        exact h5 ⟨hno.1, hno.2.1, hno.2.2⟩
      refine ⟨hr, hf, ?_⟩
      rw [if_neg (not_not_intro hc)]
      split <;> exact ⟨_, rfl⟩
    · rw [if_pos hc]
      exact .inl ⟨_, rfl⟩

theorem bindFill_slotFree (node : ℤ) (p : Proc) :
    (n.bindFill oper pid ep env node p).rts.slotFree = false := by
  cases oper <;> rfl

variable (n oper pid ep env) in
theorem bindClose_cases (node : ℤ) :
    (∃ code, n.bindClose oper pid ep env node = (n, .error code)) ∨
      ∃ r, n.bindClose oper pid ep env node =
        (n.modProc (endpointP ep) (n.bindFill oper pid ep env node), .ok r) := by
  unfold bindClose
  split
  · exact .inl ⟨_, rfl⟩
  · exact .inr ⟨_, rfl⟩

variable (pid nodeid env) in
theorem bind_cases
    (h : (n.proc (endpointP ep)).rts.slotFree = true ∨ oper ≠ .bkupBind ∧ oper ≠ .replicaBind) :
    ∃ n' r, n.bind oper pid ep nodeid env = (n', r) ∧
      ((∃ e, r = .ok e) ∧ n.conf.inRange (endpointP ep) ∧
          (n.proc (endpointP ep)).rts.slotFree = true ∧ Taken (endpointP ep) n n' ∨
        (∃ code, r = .error code) ∧ SameUse n n') := by
  unfold bind
  rcases bindOpen_cases n oper ep nodeid env with ⟨code, ho⟩ | ⟨hr, hf, r, ho⟩
  · rw [ho]
    exact ⟨n, _, rfl, .inr ⟨⟨code, rfl⟩, .refl n⟩⟩
  · have hfree : (n.proc (endpointP ep)).rts.slotFree = true := by
      rcases h with h | ⟨h1, h2⟩
      · exact h
      · exact hf.resolve_right fun ho => ho.elim h1 h2
    have hinit := sameUse_init hfree n.conf.dcid
    rw [ho]
    cases r with
    | error code => exact ⟨_, _, rfl, .inr ⟨⟨code, rfl⟩, hinit⟩⟩
    | ok node =>
      dsimp only
      rcases bindClose_cases (n.modProc (endpointP ep) (·.initDesc n.conf.dcid)) oper pid ep env
        node with ⟨code, hc⟩ | ⟨r, hc⟩
      · rw [hc]
        exact ⟨_, _, rfl, .inr ⟨⟨code, rfl⟩, hinit⟩⟩
      · rw [hc]
        refine ⟨_, _, rfl, .inl ⟨⟨r, rfl⟩, hr, hfree, ⟨rfl, ?_, fun q hq => ?_⟩⟩⟩
        · rw [modProc_same]
          exact bindFill_slotFree node _
        · rw [modProc_of_ne _ _ hq, modProc_of_ne _ _ hq]

variable (n ep nodeid) in
theorem autobind_cases (lock : ℤ) (pairFree : Bool) :
    ∃ n' r, n.autobind ep nodeid lock pairFree = (n', r) ∧
      ((∃ e, r = .ok e) ∧ n.conf.inRange (endpointP ep) ∧
          (n.proc (endpointP ep)).rts.slotFree = true ∧ Taken (endpointP ep) n n' ∨
        (∃ code, r = .error code) ∧ SameUse n n') := by
  unfold autobind
  dsimp only
  by_cases hr : n.conf.inRange (endpointP ep)
  · by_cases hfree : (n.proc (endpointP ep)).rts.slotFree = true
    · have hinit := sameUse_init hfree n.conf.dcid
      have hrefl := SameUse.refl n
      split_ifs
      any_goals exact ⟨_, _, rfl, .inr ⟨⟨_, rfl⟩, by assumption⟩⟩
      refine ⟨_, _, rfl, .inl ⟨⟨_, rfl⟩, hr, hfree, ⟨rfl, ?_, fun q hq => ?_⟩⟩⟩
      · rw [modProc_same]
      · rw [modProc_of_ne _ _ hq, modProc_of_ne _ _ hq]
    · rw [if_pos hfree]
      split_ifs <;> exact ⟨_, _, rfl, .inr ⟨⟨_, rfl⟩, .refl n⟩⟩
  · rw [if_pos hr]
    split <;> exact ⟨_, _, rfl, .inr ⟨⟨_, rfl⟩, .refl n⟩⟩

end Bind

/-! ### Migrations -/

section Migrate

variable {n n' : Node} {i : ℤ} {env : MigrEnv}

/-- A process that has a task is bound, and so are the other threads of this task. -/
def MigrFits (n : Node) (i : ℤ) (env : MigrEnv) : Prop :=
  (env.task = true → (n.proc i).rts.slotFree = false) ∧
    ∀ t ∈ env.others, (n.proc t).rts.slotFree = false

instance : Decidable (n.MigrFits i env) := by unfold MigrFits; infer_instance

theorem sameUse_of_flags {f : Proc → Proc} (i : ℤ) (n : Node)
    (hf : ∀ p, (f p).rts.slotFree = p.rts.slotFree ∧ (f p).rts.remote = p.rts.remote) :
    SameUse n (n.modProc i f) :=
  sameUse_modProc i ⟨(hf _).1, fun _ => (hf _).2.symm.trans⟩

theorem Stirs.sameUse (h : Stirs n n') : SameUse n n' where
  conf := h.conf
  free q := congrArg (·.1.slotFree) (h.standing q)
  remote q _ := (congrArg (·.1.remote) (h.standing q)).symm.trans

theorem sameUse_oldThread (new : ℤ) {t : ℤ} (h : (n.proc t).rts.slotFree = false) :
    SameUse n (n.oldThread new t) := by
  have hleave : SameUse n (n.modProc t (·.leave new)) := by
    refine sameUse_modProc t ⟨?_, fun hf => by simp [h] at hf⟩
    unfold Proc.leave
    dsimp only
    split <;> rfl
  exact hleave.trans ((stirs_flushSendingList t _).trans (stirs_flushMigrList t _)).sameUse

theorem sameUse_threads (new : ℤ) (ts : List ℤ) :
    ∀ n : Node, (∀ t ∈ ts, (n.proc t).rts.slotFree = false) →
      SameUse n (ts.foldl (fun n t => n.oldThread new t) n) := by
  induction ts with
  | nil => exact fun n _ => .refl n
  | cons t ts ih =>
    intro n h
    have ht := sameUse_oldThread new (h t List.mem_cons_self)
    refine ht.trans (ih _ fun u hu => ?_)
    rw [ht.free]
    exact h u (List.mem_cons_of_mem _ hu)

theorem sameUse_migrate {pid ep new : ℤ} {oper : MigrOper} (he : n.MigrFits (endpointP ep) env)
    (hf : n.conf.inRange (endpointP ep) → (n.proc (endpointP ep)).rts.slotFree = true →
      (n.proc (endpointP ep)).rts.remote = false) :
    SameUse n (n.migrate env oper pid ep new).1 := by
  rcases migrate_tries n env oper pid ep new with ⟨-, hn⟩ | ⟨-, hr, ht, hm⟩
  · rw [hn]
    exact .refl n
  have hi : (n.proc (endpointP ep)).rts.slotFree = false := by
    by_contra hc
    rw [Bool.not_eq_false] at hc
    rcases ht with ht | ht
    · exact absurd ((hf hr hc).symm.trans ht) (by decide)
    · exact absurd ((he.1 ht).symm.trans hc) (by decide)
  have hsettle : ∀ {u : Node}, SameUse n u → SameUse n (u.modProc (endpointP ep) fun p =>
      { p with nodemap := Function.update p.nodemap new true }.unmark) := fun {u} hu =>
    hu.trans (sameUse_of_flags _ u fun _ => ⟨by rfl, by rfl⟩)
  generalize (n.migrate env oper pid ep new).1 = m at hm ⊢
  cases hm with
  | startRemote | rollbackRemote => exact sameUse_of_flags _ n fun _ => ⟨by rfl, by rfl⟩
  | start =>
    refine foldl_related (R := SameUse) .refl .trans (fun t _ n => sameUse_of_flags t n ?_) n
    exact fun _ => ⟨rfl, rfl⟩
  | rollback =>
    exact (foldl_related (R := Stirs) .refl .trans (fun t _ n => stirs_rollbackThread t n) n).sameUse
  | old => exact hsettle (sameUse_threads new _ n (List.forall_mem_cons.mpr ⟨hi, he.2⟩))
  | new =>
    refine hsettle (sameUse_modProc _ ?_)
    exact ⟨hi.symm, fun hf => by simp [hi] at hf⟩
  | other =>
    refine hsettle (SameUse.trans ?_ (stirs_flushMigrList _ _).sameUse)
    exact sameUse_of_flags _ n fun _ => ⟨by rfl, by rfl⟩

end Migrate

end Node

end MolIpc
