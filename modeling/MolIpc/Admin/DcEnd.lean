import MolIpc.Admin.Refcount
import MolIpc.Ipc.Holding

/-!
Whether `do_dc_end` comes to an end.

Its first loop kills the processes that have a task on this node and unbinds the others, whatever
`do_unbind` says to that. Its second loop waits at each slot until it is free. A process with a
task leaves its slot when it exits; nobody comes back to the slot of a remote process that
`do_unbind` has refused to clear, and the loop spins there with the locks held.
-/

namespace MolIpc

open Reach

def Proc.hasTask (p : Proc) : Prop := ¬ p.rts.remote ∨ p.misc.rmtbackup

instance (p : Proc) : Decidable p.hasTask := by unfold Proc.hasTask; infer_instance

namespace DcRef

/-- Who unbinds the process `q` when the DC is ended by `caller`. -/
def leaver (s : DcRef) (caller : Caller) (q : ℤ) : Caller :=
  if (s.node.proc q).hasTask then .proc q else caller

/-- `do_unbind` does not refuse to clear the slot `q`. -/
def Leaves (s : DcRef) (caller : Caller) (q : ℤ) : Prop :=
  s.node.unbindCheck (s.leaver caller q) q = EMol.ok

instance (s : DcRef) (caller : Caller) (q : ℤ) : Decidable (s.Leaves caller q) := by
  unfold Leaves; infer_instance

def AllLeave (s : DcRef) (caller : Caller) : Prop :=
  ∀ q ∈ s.node.table, (s.node.proc q).rts.slotFree = false → s.Leaves caller q

instance (s : DcRef) (caller : Caller) : Decidable (s.AllLeave caller) := by
  unfold AllLeave; infer_instance

/-- The steps from the first loop of `do_dc_end` on. -/
def Closes (s : DcRef) : DcOp → Prop
  | .endPass _ | .endFinish _ => True
  | .unbind (.proc q) i _ => q = i ∧ s.enders ≠ [] ∧ (s.node.proc i).rts.slotFree = false ∧
    (s.node.proc i).hasTask
  | _ => False

/-- The call has returned, no slot is in use, and the DC does not run. -/
structure Gone (s : DcRef) : Prop where
  returned : s.enders = []
  free : ∀ q ∈ s.node.table, (s.node.proc q).rts.slotFree = true
  stopped : ¬ s.Running

/-- **`do_dc_end` terminates** and leaves nothing of the DC. -/
def EndsDc (s : DcRef) (caller : Caller) : Prop := Reach.Ends step Closes (s.endStart caller) Gone

section Slots

variable {s t u : DcRef} {caller : Caller} {i q sig : ℤ} {p p' : Proc} {a : DcOp}

/-! ### What a slot looks like -/

theorem slotFree_of_standing (h : p'.standing = p.standing) :
    p'.rts.slotFree = p.rts.slotFree := congrArg (fun h => h.1.slotFree) h

theorem hasTask_of_standing (h : p'.standing = p.standing) : p'.hasTask ↔ p.hasTask := by
  have hr : p'.rts.remote = p.rts.remote := congrArg (fun h => h.1.remote) h
  have hb : p'.misc.rmtbackup = p.misc.rmtbackup := congrArg (fun h => h.1.rmtbackup) h
  unfold Proc.hasTask
  rw [hr, hb]

theorem leaves_congr (hq : (t.node.proc q).standing = (s.node.proc q).standing)
    (hc : t.node.conf = s.node.conf) : t.Leaves caller q ↔ s.Leaves caller q := by
  have hw : t.leaver caller q = s.leaver caller q := by
    unfold leaver
    simp only [hasTask_of_standing hq]
  have he : (t.node.proc q).rts.noEndpoint = (s.node.proc q).rts.noEndpoint :=
    congrArg (fun h => h.2.1) hq
  have hp : (t.node.proc q).misc.proxy = (s.node.proc q).misc.proxy :=
    congrArg (fun h => h.2.2.1) hq
  have hnode : (t.node.proc q).nodeid = (s.node.proc q).nodeid := congrArg (fun h => h.2.2.2) hq
  unfold Leaves Node.unbindCheck
  simp only [slotFree_of_standing hq, he, hp, hnode, hc, hw]

theorem clearsSlot_leaver (caller : Caller) (i : ℤ) (s : DcRef) :
    s.node.clearsSlot (s.leaver caller i) i ↔ s.Leaves caller i := by
  refine ⟨fun h => h.1, fun h => ⟨h, ?_⟩⟩
  by_cases ht : (s.node.proc i).hasTask
  · exact .inr (if_pos ht)
  · exact .inl (not_not.mp (not_or.mp ht).1)

@[simp] theorem decref_proc (s : DcRef) : s.decref.node.proc = s.node.proc := by
  unfold decref
  dsimp only
  split <;> rfl

@[simp] theorem decref_table (s : DcRef) : s.decref.node.table = s.node.table := by
  unfold decref
  dsimp only
  split <;> rfl

theorem unbind_kref (w : Caller) (i sig : ℤ) (s : DcRef) :
    (s.unbind w i sig).kref = if s.node.clearsSlot w i then s.kref - 1 else s.kref := by
  unfold DcRef.unbind decref
  dsimp only
  split
  · split <;> rfl
  · rfl

theorem unbind_standing (caller : Caller) (i sig q : ℤ) (s : DcRef) :
    ((s.unbind (s.leaver caller i) i sig).node.proc q).standing =
      if s.Leaves caller i ∧ q = i then Node.cleared else (s.node.proc q).standing := by
  simp only [← clearsSlot_leaver, ← Node.doUnbind_standing i s.node (s.leaver caller i) sig q]
  unfold DcRef.unbind
  split
  · rw [decref_proc]
  · rfl

/-! ### Slots that are cleared -/

/-- The slots in use stay what they are, or are cleared as `do_unbind` allows it. -/
def Fades (caller : Caller) (s t : DcRef) : Prop :=
  ∀ q, (t.node.proc q).standing = (s.node.proc q).standing ∨
    (t.node.proc q).rts.slotFree = true ∧ ((s.node.proc q).rts.slotFree = true ∨ s.Leaves caller q)

theorem Fades.trans (h : Fades caller s t) (hc : t.node.conf = s.node.conf)
    (h' : Fades caller t u) : Fades caller s u := fun q => by
  rcases h q with hq | ⟨hfree, hwhy⟩
  · rcases h' q with hq' | ⟨hfree', hwhy'⟩
    · exact .inl (hq'.trans hq)
    · rw [slotFree_of_standing hq, leaves_congr hq hc] at hwhy'
      exact .inr ⟨hfree', hwhy'⟩
  · refine .inr ⟨?_, hwhy⟩
    rcases h' q with hq' | ⟨hfree', -⟩
    · rw [slotFree_of_standing hq']
      exact hfree
    · exact hfree'

theorem Fades.standing (h : Fades caller s t) (hused : (t.node.proc q).rts.slotFree = false) :
    (t.node.proc q).standing = (s.node.proc q).standing :=
  (h q).resolve_right fun hf => absurd (hused.symm.trans hf.1) Bool.false_ne_true

theorem Fades.allLeave (h : Fades caller s t) (hc : t.node.conf = s.node.conf)
    (hl : s.AllLeave caller) : t.AllLeave caller := fun q hq hused => by
  have hst := h.standing hused
  rw [Node.table_congr hc] at hq
  rw [slotFree_of_standing hst] at hused
  exact (leaves_congr hst hc).mpr (hl q hq hused)

def Tasked (s : DcRef) (qs : List ℤ) : Prop :=
  ∀ q ∈ qs, (s.node.proc q).rts.slotFree = false → (s.node.proc q).hasTask

theorem Tasked.fades {qs : List ℤ} (h : s.Tasked qs) (hf : Fades caller s t) : t.Tasked qs :=
  fun q hq hused => by
    have hst := hf.standing hused
    rw [slotFree_of_standing hst] at hused
    exact (hasTask_of_standing hst).mpr (h q hq hused)

theorem fades_unbind (caller : Caller) (i sig : ℤ) (s : DcRef) :
    Fades caller s (s.unbind (s.leaver caller i) i sig) := fun q => by
  have hst := unbind_standing caller i sig q s
  by_cases hq : s.Leaves caller i ∧ q = i
  · rw [if_pos hq] at hst
    exact .inr ⟨congrArg (fun h => h.1.slotFree) hst, .inr (hq.2 ▸ hq.1)⟩
  · rw [if_neg hq] at hst
    exact .inl hst

/-! ### The first loop -/

theorem endSlot_fades (caller : Caller) (q : ℤ) (s : DcRef) :
    Fades caller s (endSlot caller s q) ∧
      (((s.node.proc q).rts.slotFree = false → s.Leaves caller q) →
        (endSlot caller s q).Tasked [q]) := by
  have hnone : (s.node.proc q).rts.slotFree = true ∨ (s.node.proc q).hasTask →
      Fades caller s s ∧ s.Tasked [q] := fun h => by
    refine ⟨fun _ => .inl rfl, fun x hx hused => ?_⟩
    rw [List.mem_singleton.mp hx] at hused ⊢
    exact h.resolve_left fun hf => absurd (hused.symm.trans hf) Bool.false_ne_true
  unfold endSlot
  dsimp only
  split
  · exact (hnone (.inl ‹_›)).imp id fun h _ => h
  split
  · exact (hnone (.inr ‹_›)).imp id fun h _ => h
  · rename_i hused ht
    have hw : s.leaver caller q = caller := if_neg ht
    have hf := fades_unbind caller q 0 s
    have hst := unbind_standing caller q 0 q s
    rw [hw] at hf hst
    refine ⟨hf, fun hl x hx hx' => ?_⟩
    rw [if_pos ⟨hl (by simpa using hused), rfl⟩] at hst
    rw [List.mem_singleton.mp hx] at hx'
    exact absurd (hx'.symm.trans (congrArg (fun h => h.1.slotFree) hst)) Bool.false_ne_true

variable (caller) in
theorem endLoop_fades (qs : List ℤ) : ∀ s : DcRef, s.Sound → s.Running → qs ⊆ s.node.table →
    Fades caller s (qs.foldl (endSlot caller) s) ∧
      (s.AllLeave caller → (qs.foldl (endSlot caller) s).Tasked qs) := by
  induction qs with
  | nil => exact fun s _ _ _ => ⟨fun _ => .inl rfl, fun _ q hq => nomatch hq⟩
  | cons q qs ih =>
    intro s hs hr hsub
    have hq := hsub List.mem_cons_self
    obtain ⟨h1, h2, -, hc⟩ := Sound.endLoop caller [q] s hs hr (by simpa using hq)
    rw [List.foldl_cons, List.foldl_nil] at h1 h2 hc
    obtain ⟨hfades, htask⟩ := endSlot_fades caller q s
    obtain ⟨g1, g2⟩ := ih (endSlot caller s q) h1 h2 fun x hx => by
      rw [Node.table_congr hc]
      exact hsub (List.mem_cons_of_mem _ hx)
    refine ⟨hfades.trans hc g1, fun hl x hx => ?_⟩
    rcases List.mem_cons.mp hx with rfl | hx
    · exact (htask (hl x hq)).fades g1 x List.mem_cons_self
    · exact g2 (hfades.allLeave hc hl) x hx

/-! ### The second loop -/

variable (caller) in
theorem closes_cases (ha : t.Closes a) (hu : t.step a = some u) :
    (∃ (k : ℕ) (q : ℤ) (rest : List ℤ), t.enders[k]? = some (q :: rest) ∧
        (t.node.proc q).rts.slotFree = true ∧ u = { t with enders := t.enders.set k rest }) ∨
      (∃ k : ℕ, t.enders[k]? = some [] ∧ u = { t with enders := t.enders.eraseIdx k }.decref) ∨
      ∃ i sig : ℤ, i ∈ t.node.table ∧ t.enders ≠ [] ∧ (t.node.proc i).rts.slotFree = false ∧
        u = t.unbind (t.leaver caller i) i sig := by
  cases a with
  | endPass k =>
    simp only [step] at hu
    split at hu
    · rename_i q rest he
      split at hu <;> cases hu
      exact .inl ⟨k, q, rest, he, ‹_›, rfl⟩
    · cases hu
  | endFinish k =>
    simp only [step] at hu
    split at hu <;> cases hu
    exact .inr (.inl ⟨k, ‹_›, rfl⟩)
  | unbind w i sig =>
    cases w with
    | proc q =>
      obtain ⟨rfl, he, hused, htask⟩ := ha
      simp only [step] at hu
      split at hu <;> cases hu
      rename_i hr
      have hw : t.leaver caller q = .proc q := if_pos htask
      exact .inr (.inr ⟨q, sig, Node.mem_table.mpr hr.2, he, hused, by rw [hw]⟩)
    | unbound | foreign => exact ha.elim
  | _ => exact ha.elim

structure Closing (caller : Caller) (s t : DcRef) : Prop where
  sound : t.Sound
  fades : Fades caller s t
  table : t.node.table = s.node.table
  tasks : s.AllLeave caller → t.Tasked s.node.table
  phase : t.Gone ∨ ∃ rest, t.enders = [rest] ∧ rest ⊆ s.node.table ∧ t.Running ∧
    t.node.conf = s.node.conf

def remaining (s : DcRef) : ℕ := s.bound + s.enders.flatten.length + s.enders.length

theorem Closing.start (hs : s.Sound) (hrun : s.Running) (he : s.enders = []) :
    Closing caller s (s.endStart caller) := by
  obtain ⟨-, h2, h3, hc⟩ := Sound.endLoop caller s.node.table s hs hrun fun _ h => h
  obtain ⟨hfades, htask⟩ := endLoop_fades caller s.node.table s hs hrun fun _ h => h
  have hsound := (hs.endStart he caller).1
  unfold endStart at hsound ⊢
  rw [if_neg (not_not_intro hrun)] at hsound ⊢
  refine ⟨hsound, hfades, Node.table_congr hc, htask, .inr ⟨s.node.table, ?_, fun _ h => h, h2, hc⟩⟩
  dsimp only
  rw [h3, he, List.nil_append]

theorem free_of_bound (h : s.bound = 0) (hq : q ∈ s.node.table) :
    (s.node.proc q).rts.slotFree = true := by
  simpa using List.countP_eq_zero.mp h q hq

theorem Sound.gone (hs : s.Sound) (he : s.enders = [[]]) :
    { s with enders := [] }.decref.Gone := by
  obtain ⟨-, hb, hstop⟩ := hs.endFinish (k := 0) (by rw [he]; rfl)
  rw [he] at hstop
  refine ⟨?_, fun q hq => ?_, hstop⟩
  · unfold decref
    dsimp only
    split <;> rfl
  · rw [decref_table] at hq
    rw [decref_proc]
    exact free_of_bound hb hq

theorem Closing.step (h : Closing caller s t) (ha : t.Closes a) (hu : t.step a = some u) :
    Closing caller s u ∧ (s.AllLeave caller → u.remaining < t.remaining) := by
  have hcases := closes_cases caller ha hu
  rcases h.phase with hgone | ⟨rest, hrest, hsub, hrun, hconf⟩
  · simp [hgone.returned] at hcases
  rcases hcases with ⟨k, q, rest', hk, hf, rfl⟩ | ⟨k, hk, rfl⟩ | ⟨i, sig, hi, -, hused, rfl⟩
  · have hsound := h.sound.endPass hk hf
    rw [hrest, List.getElem?_singleton] at hk
    split at hk <;> cases hk
    rename_i hk
    subst hk
    rw [hrest, List.set_cons_zero] at hsound ⊢
    refine ⟨⟨hsound, h.fades, h.table, h.tasks, .inr ⟨rest', rfl, ?_, hrun, hconf⟩⟩, fun _ => ?_⟩
    · exact fun x hx => hsub (List.mem_cons_of_mem _ hx)
    · unfold remaining
      rw [hrest]
      exact Nat.add_lt_add_right (Nat.add_lt_add_left (by simp) _) _
  · have hsound := (h.sound.endFinish hk).1
    rw [hrest, List.getElem?_singleton] at hk
    split at hk <;> cases hk
    rename_i hk
    subst hk
    rw [hrest, List.eraseIdx_cons_zero] at hsound ⊢
    have hgone := h.sound.gone hrest
    refine ⟨⟨hsound, ?_, ?_, ?_, .inl hgone⟩, fun _ => ?_⟩
    · intro q
      rw [decref_proc]
      exact h.fades q
    · rw [decref_table]
      exact h.table
    · intro hl q
      rw [decref_proc]
      exact h.tasks hl q
    · unfold remaining
      rw [bound_eq_zero hgone.free, hgone.returned, hrest]
      exact Nat.succ_pos _
  · obtain ⟨hsound, hrun', hends, hconf'⟩ :=
      h.sound.unbind (t.leaver caller i) hrun hi sig
    have hfades := fades_unbind caller i sig t
    refine ⟨⟨hsound, h.fades.trans hconf hfades, (Node.table_congr hconf').trans h.table,
      fun hl => (h.tasks hl).fades hfades, .inr ⟨rest, hends.trans hrest, hsub, hrun',
      hconf'.trans hconf⟩⟩, fun hl => ?_⟩
    have hleave : t.Leaves caller i := h.fades.allLeave hconf hl i hi hused
    have hk := unbind_kref (t.leaver caller i) i sig t
    rw [if_pos ((clearsSlot_leaver caller i t).mpr hleave)] at hk
    have hb := h.sound.count hrun
    have hb' := hsound.count hrun'
    unfold remaining
    rw [hends]
    omega

theorem Closing.gone (h : Closing caller s t) (hl : s.AllLeave caller)
    (ht : Stuck DcRef.step Closes t) : t.Gone := by
  refine h.phase.resolve_right ?_
  rintro ⟨rest, hrest, hsub, hrun, -⟩
  have h0 : t.enders[0]? = some rest := by rw [hrest]; rfl
  cases rest with
  | nil => exact ht (.endFinish 0) _ trivial (by simp only [DcRef.step, h0]; rfl)
  | cons q rest =>
    have hq := hsub List.mem_cons_self
    cases hf : (t.node.proc q).rts.slotFree with
    | true => exact ht (.endPass 0) _ trivial (by simp only [DcRef.step, h0, hf, if_true]; rfl)
    | false =>
      have hne : t.enders ≠ [] := by simp [hrest]
      exact ht (.unbind (.proc q) q 0) _ ⟨rfl, hne, hf, h.tasks hl q hq hf⟩
        (if_pos ⟨hrun, Node.mem_table.mp (h.table ▸ hq)⟩)

theorem Sound.endsDc_iff (hs : s.Sound) (hrun : s.Running) (he : s.enders = []) (caller : Caller) :
    s.EndsDc caller ↔ s.AllLeave caller := by
  have hstart : Closing caller s (s.endStart caller) := .start hs hrun he
  constructor
  · intro hends q hq hused
    obtain ⟨e, hreach, hgone⟩ := hends.exists_last
    have hclosing : Closing caller s e :=
      hreach.invariant hstart fun t a u ht ha hu => (ht.step ha hu).1
    have hfree := hgone.free q (hclosing.table.symm ▸ hq)
    rcases hclosing.fades q with hst | ⟨-, hf | hl⟩
    · simp [slotFree_of_standing hst, hused] at hfree
    · exact absurd (hused.symm.trans hf) Bool.false_ne_true
    · exact hl
  · intro hl
    refine ends_of_variant remaining hstart (fun t a u ht ha hu => ?_) fun t ht => ht.gone hl
    exact (ht.step ha hu).imp id fun hlt => hlt hl

end Slots

/-- `mm_add_node` and `mm_del_node`, as the descriptors of the DC see them. -/
def members (s : DcRef) (nodes : ℤ → Bool) : DcRef :=
  { s with node := { s.node with conf := { s.node.conf with dcNodes := nodes } } }

def remoteDc : DcRef :=
  let s := (DcRef.init { node := noDc, kref := 0 } 2 6 4 false none).members
    fun node => node = 0 ∨ node = 1
  s.bindResult (s.node.bind .rmtBind 0 3 1 {})

theorem reachable_members {s₀ s : DcRef} (h : Reachable step Careful s₀ s) (nodes : ℤ → Bool) :
    Reachable step Careful s₀ (s.members nodes) := by
  have hap : Apart s.node (s.members nodes).node := ⟨⟨rfl, rfl, rfl⟩, fun _ _ => ⟨rfl, fun _ => id⟩⟩
  exact h.step (a := .other (s.members nodes).node) trivial (if_pos hap)

theorem reachable_remoteDc : Reachable step Careful { node := noDc, kref := 0 } remoteDc := by
  have h : Reachable step Careful { node := noDc, kref := 0 }
      (DcRef.init { node := noDc, kref := 0 } 2 6 4 false none) :=
    .step (a := .init 2 6 4 false none) .init (by decide) rfl
  exact (reachable_members h fun node => node = 0 ∨ node = 1).step
    (a := .bind .rmtBind 0 3 1 {}) (by decide) rfl

end DcRef

end MolIpc
