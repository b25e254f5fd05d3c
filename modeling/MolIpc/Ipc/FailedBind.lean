import MolIpc.Ipc.Holding

/-!
What a failed `mm_bind` leaves behind, in the table of the DC, in the tasks and in the counters.

The references to a task and to the DC are taken when nothing can fail any more. But the descriptor
is initialised before the task is looked for, and before the thread group and the proxies are
checked: a backup or a replica that is bound over a slot in use, and fails, has taken the slot from
its process.
-/

namespace MolIpc

/-- What `mm_bind` changes: the table, the references between slots and tasks, `usage` of the tasks
and the counter of the DC. -/
structure Bindings where
  node : Node
  pTask : ℤ → Option ℤ
  taskProc : ℤ → Option ℤ
  usage : ℤ → ℤ
  kref : ℤ

namespace Node

variable {n : Node} {oper : BindOper} {pid ep nodeid : ℤ} {env : BindEnv}

/-- **A bind that fails** has cleared the descriptor if it got through the checks of the DC and the
slot, and has done nothing else. -/
theorem bind_error {n' : Node} {e : ℤ} (h : n.bind oper pid ep nodeid env = (n', .error e)) :
    n' = if n.bindClears oper ep nodeid then n.modProc (endpointP ep) (·.initDesc n.conf.dcid)
      else n := by
  have hclears : ∀ {node : ℤ}, n.bindNode oper nodeid = some node →
      (n.bindClears oper ep nodeid ↔ n.bindCheck oper ep node = EMol.ok) := by
    intro node hn
    simp [bindClears, hn]
  unfold bind bindOpen at h
  cases hn : n.bindNode oper nodeid with
  | none =>
    have hno : ¬ n.bindClears oper ep nodeid := by simp [bindClears, hn]
    rw [hn] at h
    rw [if_neg hno]
    exact (Prod.mk.inj h).1.symm
  | some node =>
    rw [hn] at h
    dsimp only at h
    by_cases hc : n.bindCheck oper ep node = EMol.ok
    · rw [if_neg (not_not_intro hc)] at h
      rw [if_pos ((hclears hn).2 hc)]
      generalize n.modProc (endpointP ep) (·.initDesc n.conf.dcid) = m at h ⊢
      by_cases ht : bindTask oper env = EMol.ok
      · rw [if_neg (not_not_intro ht)] at h
        dsimp only at h
        unfold bindClose at h
        split at h
        · exact (Prod.mk.inj h).1.symm
        · cases (Prod.mk.inj h).2
      · rw [if_pos ht] at h
        exact (Prod.mk.inj h).1.symm
    · rw [if_pos hc] at h
      rw [if_neg (mt (hclears hn).1 hc)]
      exact (Prod.mk.inj h).1.symm

end Node

namespace Bindings

variable (b : Bindings) (oper : BindOper) (pid ep nodeid : ℤ) (env : BindEnv)

/-- `mm_bind` with its references: `p_task` goes with the descriptor, the others are taken at the
end. -/
def bind : Bindings × Except ℤ ℤ :=
  let i := endpointP ep
  let pTask :=
    if b.node.bindClears oper ep nodeid then Function.update b.pTask i none else b.pTask
  match b.node.bind oper pid ep nodeid env with
  | (n, .error e) => ({ b with node := n, pTask := pTask }, .error e)
  | (n, .ok endpoint) =>
    let b := { b with node := n, pTask := pTask, kref := b.kref + 1 }
    (if oper = .rmtBind then b
      else { b with
        pTask := Function.update b.pTask i (some pid)
        taskProc := Function.update b.taskProc pid (some i)
        usage := Function.update b.usage pid (b.usage pid + 1) }, .ok endpoint)

/-- **The call has changed nothing**: the slot `i` is still free, or has all its state; and all the
rest is as before. -/
structure Unchanged (b b' : Bindings) (i : ℤ) : Prop where
  free : (b.node.proc i).rts.slotFree = true → (b'.node.proc i).rts.slotFree = true
  bound : (b.node.proc i).rts.slotFree = false →
    b'.node.proc i = b.node.proc i ∧ b'.pTask i = b.pTask i
  others : ∀ q ≠ i, b'.node.proc q = b.node.proc q ∧ b'.pTask q = b.pTask q
  taskProc : b'.taskProc = b.taskProc
  usage : b'.usage = b.usage
  kref : b'.kref = b.kref

variable {b oper pid ep nodeid env}

theorem bind_error {b' : Bindings} {e : ℤ} (h : b.bind oper pid ep nodeid env = (b', .error e)) :
    b' = if b.node.bindClears oper ep nodeid then
        { b with
          node := b.node.modProc (endpointP ep) (·.initDesc b.node.conf.dcid)
          pTask := Function.update b.pTask (endpointP ep) none }
      else b := by
  unfold bind at h
  dsimp only at h
  split at h
  · rename_i n' e' hn
    obtain rfl := (Prod.mk.inj h).1.symm
    rw [Node.bind_error hn]
    split <;> rfl
  · exact nomatch (Prod.mk.inj h).2

/-- **A failed bind changes nothing** iff the slot was free, or the checks of the DC and the slot
have failed. -/
theorem unchanged_iff {e : ℤ} (h : (b.bind oper pid ep nodeid env).2 = .error e) :
    Unchanged b (b.bind oper pid ep nodeid env).1 (endpointP ep) ↔
      (b.node.proc (endpointP ep)).rts.slotFree = true ∨ ¬ b.node.bindClears oper ep nodeid := by
  obtain ⟨b', hb'⟩ : ∃ b', b.bind oper pid ep nodeid env = (b', .error e) := ⟨_, Prod.ext rfl h⟩
  have hb := bind_error hb'
  rw [hb']
  by_cases hc : b.node.bindClears oper ep nodeid
  · rw [if_pos hc] at hb
    subst hb
    have hfree : ((b.node.modProc (endpointP ep) (·.initDesc b.node.conf.dcid)).proc
        (endpointP ep)).rts.slotFree = true := by
      rw [Node.modProc_same]
      rfl
    constructor
    · intro hu
      by_contra hno
      have hused : (b.node.proc (endpointP ep)).rts.slotFree = false :=
        Bool.eq_false_iff.2 fun hf => hno (.inl hf)
      have hdesc := (hu.bound hused).1
      rw [← hdesc] at hused
      exact absurd (hfree.symm.trans hused) (by decide)
    · intro hf
      have hf := hf.resolve_right (not_not_intro hc)
      refine ⟨fun _ => hfree, fun hu => absurd (hf.symm.trans hu) (by decide), fun q hq => ?_,
        rfl, rfl, rfl⟩
      dsimp only
      exact ⟨Node.modProc_of_ne _ _ hq, Function.update_of_ne hq _ _⟩
  · rw [if_neg hc] at hb
    subst hb
    exact iff_of_true ⟨id, fun _ => ⟨rfl, rfl⟩, fun _ _ => ⟨rfl, rfl⟩, rfl, rfl, rfl⟩ (.inr hc)

/-! ### A slot that is taken and not used -/

def usedSample : Bindings where
  node :=
    { conf := Conf.sample 0
      proc := fun q =>
        if q = 5 then { Proc.sample 0 5 {} with list := [6] }
        else if q = 6 then { Proc.sample 0 6 { sending := true } with sendto := 5 }
        else { rts := Rts.onlyFree }
      sproxy := Proc.sampleProxy
      rproxy := Proc.sampleProxy }
  pTask := fun q => if q = 5 then some 50 else if q = 6 then some 60 else none
  taskProc := fun t => if t = 50 then some 5 else if t = 60 then some 6 else none
  usage := fun _ => 1
  kref := 3

/-- A process that binds itself to a slot in use gets an error, and so does one whose thread group
has no leader; nothing changes. -/
theorem self_bind_unchanged :
    ((usedSample.bind .selfBind 70 5 localNode { current := true }).2 = .error EMol.slotused ∧
      Unchanged usedSample (usedSample.bind .selfBind 70 5 localNode { current := true }).1 5) ∧
    (usedSample.bind .selfBind 70 7 localNode { current := true }).2 = .error EMol.grpleader ∧
      Unchanged usedSample (usedSample.bind .selfBind 70 7 localNode { current := true }).1 7 :=
  ⟨⟨rfl, (unchanged_iff rfl).2 (.inr (by decide))⟩, rfl, (unchanged_iff rfl).2 (.inl rfl)⟩

/-- **A replica without a task** takes the slot of the process 5: the call returns `EMOLBADPROC`,
the descriptor is free, and the task 50 still refers to it. -/
theorem replica_bind_clears :
    (usedSample.bind .replicaBind 99 5 localNode {}).2 = .error EMol.badproc ∧
      ((usedSample.bind .replicaBind 99 5 localNode {}).1.node.proc 5).rts = Rts.onlyFree ∧
      ((usedSample.bind .replicaBind 99 5 localNode {}).1.node.proc 5).list = [] ∧
      (usedSample.bind .replicaBind 99 5 localNode {}).1.pTask 5 = none ∧
      (usedSample.bind .replicaBind 99 5 localNode {}).1.taskProc 50 = some 5 ∧
      ¬ Unchanged usedSample (usedSample.bind .replicaBind 99 5 localNode {}).1 5 := by
  refine ⟨rfl, rfl, rfl, rfl, rfl, fun h => ?_⟩
  have hdesc := congrArg Proc.rts (h.bound rfl).1
  exact absurd hdesc (by decide)

end Bindings

end MolIpc
