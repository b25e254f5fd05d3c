import MolIpc.Ipc.SlotUse

/-!
Who holds a slot of the table: nobody, a process of this node, a process of another node, or a
local process that stands by for one. Three flags of the descriptor tell it; for each call that
changes them this module says how.
-/

namespace MolIpc

open Sections

def Holding.free : Holding := ⟨true, false, false⟩

def Holding.tasked (h : Holding) : Bool := !h.slotFree && !h.remote || h.rmtbackup

def BindOper.holding : BindOper → Holding
  | .rmtBind => ⟨false, true, false⟩
  | .bkupBind => ⟨false, true, true⟩
  | _ => ⟨false, false, false⟩

namespace Proc

variable (p : Proc)

@[simp] theorem up_standing (code : ℤ) : (p.up code).standing = p.standing := rfl

theorem leave_holding (new : ℤ) :
    (p.leave new).holding = { p.holding with remote := true } := by
  unfold leave
  dsimp only
  split <;> rfl

end Proc

namespace Node

def SameHolding (n n' : Node) : Prop := ∀ q, (n'.proc q).holding = (n.proc q).holding

/-- The same processes hold the slots, and `do_unbind` makes no difference. -/
def SameStanding (n n' : Node) : Prop := ∀ q, (n'.proc q).standing = (n.proc q).standing

section Basic

variable {n n' n'' : Node}

theorem SameStanding.refl (n : Node) : SameStanding n n := fun _ => rfl

theorem SameStanding.holding (h : SameStanding n n') : SameHolding n n' :=
  fun q => congrArg Prod.fst (h q)

theorem SameStanding.trans (h : SameStanding n n') (h' : SameStanding n' n'') : SameStanding n n'' :=
  fun q => (h' q).trans (h q)

theorem Stirs.holding (h : Stirs n n') : SameHolding n n' :=
  fun q => congrArg Prod.fst (h.standing q)

theorem Turn.sameStanding {y : ℤ} (h : Turn y n n') : SameStanding n n' :=
  fun q => (h.tame q).standing

theorem sameStanding_modProc {f : Proc → Proc} (i : ℤ) (n : Node)
    (hf : ∀ p, (f p).standing = p.standing) : SameStanding n (n.modProc i f) :=
  fun q => modProc_field i q Proc.standing hf

theorem sameHolding_modProc {f : Proc → Proc} (i : ℤ) (n : Node)
    (hf : ∀ p, (f p).holding = p.holding) : SameHolding n (n.modProc i f) :=
  fun q => modProc_field i q Proc.holding hf

end Basic

/-! ### Leaving a slot -/

section Unbind

variable (i x : ℤ) (n : Node)

def cleared : Holding × Bool × Bool × ℤ := (.free, false, false, -1)

theorem init_standing (dcid q : ℤ) : ((n.modProc i (·.initDesc dcid)).proc q).standing =
    if q = i then cleared else (n.proc q).standing := by
  by_cases hq : q = i
  · rw [hq, modProc_same, if_pos rfl]
    rfl
  · rw [modProc_of_ne _ _ hq, if_neg hq]

theorem unbindBody_standing (q : ℤ) : ((Sections.run (unbindBody i) n).proc q).standing =
    if q = i then cleared else (n.proc q).standing := by
  have hbody : SameStanding n (Sections.run (unbindBody i).dropLast n) :=
    unbindBody_keeps (fun ht h => h.trans ht.sameStanding) i (.refl n)
  refine (init_standing i (Sections.run (unbindBody i).dropLast n) _ q).trans ?_
  rw [hbody q]

theorem sameStanding_unbindOther (sig : ℤ) : SameStanding n (n.unbindOther i sig).1 := by
  unfold unbindOther
  dsimp only
  split_ifs <;> dsimp only
  · exact sameStanding_modProc i n fun _ => by rfl
  · exact .refl n
  · exact .refl n
  · exact sameStanding_modProc i n fun p => p.up_standing _
  · exact .refl n

theorem doUnbind_standing (caller : Caller) (sig q : ℤ) :
    ((n.doUnbind caller i sig).1.proc q).standing =
      if n.clearsSlot caller i ∧ q = i then cleared else (n.proc q).standing := by
  unfold doUnbind
  by_cases hk : n.unbindCheck caller i = EMol.ok
  · rw [if_neg (not_not_intro hk)]
    by_cases hc : (n.proc i).rts.remote = true ∨ caller = .proc i
    · have hclear : n.clearsSlot caller i := ⟨hk, hc⟩
      simp only [hclear, true_and]
      by_cases hr : (n.proc i).rts.remote = true
      · rw [if_neg (not_not_intro hr)]
        split
        · exact init_standing i n _ q
        · exact unbindBody_standing i n q
      · rw [if_pos hr, if_neg (not_not_intro (hc.resolve_left hr))]
        exact unbindBody_standing i n q
    · rw [if_neg fun h : n.clearsSlot caller i ∧ q = i => hc h.1.2]
      rw [not_or] at hc
      rw [if_pos hc.1, if_pos hc.2]
      exact sameStanding_unbindOther i n sig q
  · rw [if_pos hk, if_neg fun h => hk h.1.1]

theorem doUnbind_holding (caller : Caller) (sig q : ℤ) :
    ((n.doUnbind caller i sig).1.proc q).holding =
      if n.clearsSlot caller i ∧ q = i then .free else (n.proc q).holding := by
  refine (congrArg Prod.fst (doUnbind_standing i n caller sig q)).trans ?_
  split <;> rfl

theorem init_holding (dcid q : ℤ) : ((n.modProc i (·.initDesc dcid)).proc q).holding =
    if q = i then .free else (n.proc q).holding := by
  refine (congrArg Prod.fst (init_standing i n dcid q)).trans ?_
  split <;> rfl

end Unbind

/-! ### Taking a slot -/

section Bind

variable (n : Node) (oper : BindOper) (pid ep nodeid : ℤ) (env : BindEnv)

/-- `mm_bind` passes its checks and clears the descriptor of the slot. -/
def bindClears : Prop :=
  (n.bindNode oper nodeid).any fun node => n.bindCheck oper ep node = EMol.ok

instance : Decidable (n.bindClears oper ep nodeid) := by unfold bindClears; infer_instance

theorem bindOpen_holding (q : ℤ) : ((n.bindOpen oper ep nodeid env).1.proc q).holding =
    if n.bindClears oper ep nodeid ∧ q = endpointP ep then .free else (n.proc q).holding := by
  unfold bindOpen
  split
  · rename_i hn
    have hno : ¬ n.bindClears oper ep nodeid := by simp [bindClears, hn]
    rw [if_neg fun h => hno h.1]
  · rename_i node hn
    have hiff : n.bindClears oper ep nodeid ↔ n.bindCheck oper ep node = EMol.ok := by
      simp [bindClears, hn]
    simp only [hiff]
    by_cases hc : n.bindCheck oper ep node = EMol.ok
    · rw [if_neg (not_not_intro hc)]
      simp only [hc, true_and]
      split <;> exact init_holding _ n _ q
    · rw [if_pos hc, if_neg fun h => hc h.1]

theorem bindClears_of_ok (node : ℤ) (h : (n.bindOpen oper ep nodeid env).2 = .ok node) :
    n.bindClears oper ep nodeid := by
  unfold bindOpen at h
  unfold bindClears
  split at h
  · cases h
  · rename_i hn
    split at h
    · cases h
    · rename_i hc
      simpa [hn] using hc

theorem bindFill_holding (node : ℤ) {p : Proc} (hp : p.holding = .free) :
    (n.bindFill oper pid ep env node p).holding = oper.holding := by
  have hb : p.misc.rmtbackup = false := congrArg Holding.rmtbackup hp
  cases oper
  case rmtBind => exact Holding.ext rfl rfl hb
  all_goals rfl

theorem bindClose_holding (node : ℤ) (hp : (n.proc (endpointP ep)).holding = .free) :
    (∃ code, n.bindClose oper pid ep env node = (n, .error code)) ∨
      n.bindGroup oper env = EMol.ok ∧ ∃ n' r, n.bindClose oper pid ep env node = (n', .ok r) ∧
        ∀ q, (n'.proc q).holding =
          if q = endpointP ep then oper.holding else (n.proc q).holding := by
  unfold bindClose
  by_cases hg : n.bindGroup oper env = EMol.ok
  · rw [if_neg (not_not_intro hg)]
    refine .inr ⟨hg, _, _, rfl, fun q => ?_⟩
    by_cases hq : q = endpointP ep
    · rw [hq, if_pos rfl, modProc_same]
      exact bindFill_holding n oper pid ep env node hp
    · rw [if_neg hq, modProc_of_ne _ _ hq]
  · rw [if_pos hg]
    exact .inl ⟨_, rfl⟩

end Bind

/-! ### Migrations -/

section Migrate

variable (n : Node) (i : ℤ) (env : MigrEnv) (oper : MigrOper) (pid ep new : ℤ)

theorem oldThread_holding (t q : ℤ) : ((n.oldThread new t).proc q).holding =
    if q = t then { (n.proc q).holding with remote := true } else (n.proc q).holding := by
  unfold oldThread
  rw [(stirs_flushMigrList t _).holding q, (stirs_flushSendingList t _).holding q]
  by_cases hq : q = t
  · rw [hq, if_pos rfl, modProc_same, Proc.leave_holding]
  · rw [if_neg hq, modProc_of_ne _ _ hq]

theorem oldThreads_holding (q : ℤ) (ts : List ℤ) :
    ((ts.foldl (fun n t => n.oldThread new t) n).proc q).holding =
      if q ∈ ts then { (n.proc q).holding with remote := true } else (n.proc q).holding := by
  induction ts generalizing n with
  | nil => simp
  | cons t ts ih =>
    rw [List.foldl_cons, ih, oldThread_holding]
    by_cases hq : q = t <;> by_cases hts : q ∈ ts <;> simp [hq, hts]

def migrLeaves : Prop :=
  oper = .commit ∧ (n.migrate env oper pid ep new).2 = EMol.ok ∧
    n.conf.localNodeid = (n.proc (endpointP ep)).nodeid

def migrArrives : Prop :=
  oper = .commit ∧ (n.migrate env oper pid ep new).2 = EMol.ok ∧
    n.conf.localNodeid ≠ (n.proc (endpointP ep)).nodeid ∧ n.conf.localNodeid = new

instance : Decidable (n.migrLeaves env oper pid ep new) := by
  unfold migrLeaves; infer_instance

instance : Decidable (n.migrArrives env oper pid ep new) := by
  unfold migrArrives; infer_instance

theorem migrate_holding (q : ℤ) : ((n.migrate env oper pid ep new).1.proc q).holding =
    if n.migrLeaves env oper pid ep new then
      if q ∈ endpointP ep :: env.others then { (n.proc q).holding with remote := true }
      else (n.proc q).holding
    else if n.migrArrives env oper pid ep new ∧ q = endpointP ep then
      ⟨false, false, (n.proc q).holding.rmtbackup⟩
    else (n.proc q).holding := by
  rcases migrate_tries n env oper pid ep new with ⟨hne, hn⟩ | ⟨hok, -, -, hm⟩
  · rw [if_neg fun h => hne h.2.1, if_neg fun h => hne h.1.2.1, hn]
  simp only [migrLeaves, migrArrives, hok, true_and]
  generalize (n.migrate env oper pid ep new).1 = m at hm ⊢
  have hsettle : ∀ u : Node, ((u.modProc (endpointP ep) fun p =>
      { p with nodemap := Function.update p.nodemap new true }.unmark).proc q).holding =
      (u.proc q).holding := fun u => sameHolding_modProc _ u (fun _ => by rfl) q
  cases hm with
  | startRemote | rollbackRemote => exact sameHolding_modProc _ n (fun _ => by rfl) q
  | start =>
    exact (foldl_related (R := SameStanding) .refl .trans
      (fun t _ n => sameStanding_modProc t n fun _ => by rfl) n).holding q
  | rollback =>
    exact (foldl_related (R := Stirs) .refl .trans (fun t _ n => stirs_rollbackThread t n) n).holding q
  | old hold =>
    rw [hsettle, oldThreads_holding]
    simp [hold]
  | new hold hnew =>
    rw [hsettle, modProc_proc]
    subst hnew
    by_cases hq : q = endpointP ep
    · simp [hold, hq]
      rfl
    · simp [hold, hq]
  | other hold hnew =>
    rw [hsettle, (stirs_flushMigrList _ _).holding q, sameHolding_modProc _ n (fun _ => by rfl) q]
    simp [hold, hnew]

end Migrate

end Node

end MolIpc
