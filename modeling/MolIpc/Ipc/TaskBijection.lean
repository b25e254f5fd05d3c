import MolIpc.Ipc.TaskLinks

/-!
Slots and tasks are in bijection as long as no call takes a slot from a task that lives on, and no
call gives a second slot to a task.
-/

namespace MolIpc

open References Reach

namespace Kernel

variable {c' : Kernel} {ep nodeid : ℤ} {oper : BindOper}

/-! ### The invariant -/

/-- The references of slots and tasks match each other and the holders of the slots. -/
structure Matched (c : Kernel) : Prop where
  linked : Paired c.pTask c.taskProc fun task => c.exit task ≠ .done
  free (s : ℤ × ℤ) : (c.holding s).slotFree = true → c.pTask s = none
  tasked (s : ℤ × ℤ) : (c.holding s).tasked = true → c.pTask s ≠ none
  pending (d : ℤ) (b : BindCall) : c.binding d = some b → c.holding (d, endpointP b.ep) = .free
  taken (s : ℤ × ℤ) : c.taken s = if (c.pTask s).isSome then 1 else 0

/-- A slot that is cleared has no task, and neither a slot nor a task that get a reference have one.
A task that exits clears its own slot, a backup stays, and so does a process with a thread that has
exited. -/
def apart (c : Kernel) : Label → Prop
  | .bindOpen d _ oper _ ep nodeid _ =>
    (c.node d).bindClears oper ep nodeid → c.pTask (d, endpointP ep) = none
  | .bindClose d =>
    match c.binding d with
    | none => True
    | some b =>
      b.oper ≠ .rmtBind →
        (c.node d).bindGroup b.oper (c.bindEnv b.caller b.pid b.pairFree) = EMol.ok →
        c.taskProc b.pid = none ∧ c.exit b.pid ≠ .done
  | .unbind task s _ => c.clears task s → c.pTask s = none
  | .exitEnd task _ =>
    match c.exit task with
    | .unbinding s =>
      (c.exitUnbinds s ∧ c.clears task s → c.pTask s = none ∨ c.pTask s = some task) ∧
        (c.taskProc task = none ∨
          c.taskProc task = some s ∧ c.exitUnbinds s ∧ c.clears task s)
    | _ => True
  | .migrate d oper pid ep new nodeFree threads =>
    let n := c.node d
    let s := (d, endpointP ep)
    let env := c.migrEnv s pid nodeFree threads
    (n.migrLeaves env oper pid ep new →
      ∀ t ∈ c.group s threads, (n.proc t.2).misc.rmtbackup = false ∧ c.exit t.1 ≠ .done) ∧
    (n.migrArrives env oper pid ep new ∧ (n.proc s.2).misc.rmtbackup = false →
      c.pTask s = none ∧ c.taskProc pid = none ∧ c.exit pid ≠ .done)
  | _ => True

instance (c : Kernel) (l : Label) : Decidable (c.apart l) := by
  cases l <;> unfold apart <;> dsimp only <;> (try split) <;> infer_instance

section Updates

variable {c : Kernel} {d : ℤ} {n : Node} {s : ℤ × ℤ} {task : ℤ} {k : Holding}

theorem setNode_holding (s : ℤ × ℤ) : (c.setNode d n).holding s =
    if s.1 = d then (n.proc s.2).holding else c.holding s := by
  unfold holding setNode
  by_cases h : s.1 = d
  · simp [h]
  · simp [h]

theorem setNode_slot
    (hn : ∀ q, (n.proc q).holding = if q = s.2 then k else ((c.node s.1).proc q).holding)
    (r : ℤ × ℤ) : (c.setNode s.1 n).holding r = if r = s then k else c.holding r := by
  obtain ⟨e, q⟩ := r
  obtain ⟨d, i⟩ := s
  rw [setNode_holding]
  by_cases hd : e = d
  · subst hd
    simp [hn, holding]
  · simp [hd]

theorem update_none {f : ℤ × ℤ → Option ℤ} (h : f s = none) : Function.update f s none = f := by
  rw [← h, Function.update_eq_self]

theorem Matched.sameHolding (h : Matched c) (hn : Node.SameHolding (c.node d) n) :
    Matched (c.setNode d n) := by
  have hold : ∀ s, (c.setNode d n).holding s = c.holding s := by
    intro s
    rw [setNode_holding]
    by_cases hd : s.1 = d
    · rw [if_pos hd, hn, ← hd]
      rfl
    · rw [if_neg hd]
  exact ⟨h.linked, fun s hs => h.free s (by rw [← hold]; exact hs),
    fun s hs => h.tasked s (by rw [← hold]; exact hs),
    fun d b hb => (hold _).trans (h.pending d b hb), h.taken⟩

theorem Matched.change (h : Matched c)
    (hlink : Paired c'.pTask c'.taskProc fun task => c'.exit task ≠ .done)
    (hhold : ∀ r, c'.holding r = if r = s then k else c.holding r)
    (hother : ∀ r, r ≠ s → c'.pTask r = c.pTask r ∧ c'.taken r = c.taken r)
    (hfree : k.slotFree = true → c'.pTask s = none) (htask : k.tasked = true → c'.pTask s ≠ none)
    (htaken : c'.taken s = if (c'.pTask s).isSome then 1 else 0)
    (hb : ∀ d b, c'.binding d = some b →
      c.binding d = some b ∧ ((d, endpointP b.ep) = s → k = .free)) : Matched c' := by
  refine ⟨hlink, fun r hr => ?_, fun r hr => ?_, fun d b hb' => ?_, fun r => ?_⟩
  · rw [hhold] at hr
    by_cases hrs : r = s
    · rw [if_pos hrs] at hr
      rw [hrs]
      exact hfree hr
    · rw [if_neg hrs] at hr
      rw [(hother r hrs).1]
      exact h.free r hr
  · rw [hhold] at hr
    by_cases hrs : r = s
    · rw [if_pos hrs] at hr
      rw [hrs]
      exact htask hr
    · rw [if_neg hrs] at hr
      rw [(hother r hrs).1]
      exact h.tasked r hr
  · rw [hhold]
    obtain ⟨hold, hs⟩ := hb d b hb'
    split
    · rename_i hds
      exact hs hds
    · exact h.pending d b hold
  · by_cases hrs : r = s
    · rw [hrs]
      exact htaken
    · rw [(hother r hrs).1, (hother r hrs).2]
      exact h.taken r

theorem no_pending (hb : c.binding s.1 = none) (d : ℤ) (b : BindCall) (h : c.binding d = some b) :
    c.binding d = some b ∧ ((d, endpointP b.ep) = s → k = .free) := by
  refine ⟨h, ?_⟩
  rintro rfl
  simp [hb] at h

theorem Matched.setSlot (h : Matched c) (hp : c.pTask s = none)
    (hn : ∀ q, (n.proc q).holding = if q = s.2 then k else ((c.node s.1).proc q).holding)
    (hk : k.tasked = false) (hb : c.binding s.1 = none) : Matched (c.setNode s.1 n) := by
  refine h.change h.linked (setNode_slot hn) (fun _ _ => ⟨rfl, rfl⟩) (fun _ => hp) ?_ (h.taken s)
    (no_pending hb)
  rw [hk]
  nofun

theorem Matched.give (h : Matched c) (hp : c.pTask s = none) (ht : c.taskProc task = none)
    (hl : c.exit task ≠ .done)
    (hn : ∀ q, (n.proc q).holding = if q = s.2 then k else ((c.node s.1).proc q).holding)
    (hk : k.slotFree = false) (hb : c.binding s.1 = none) :
    Matched ((c.setNode s.1 n).link s task) := by
  have hself : ((c.setNode s.1 n).link s task).pTask s = some task := Function.update_self ..
  have htaken : ((c.setNode s.1 n).link s task).taken s = 1 := by
    refine (Function.update_self ..).trans ?_
    show c.taken s + 1 = 1
    rw [h.taken, hp]
    rfl
  refine h.change (h.linked.link hp ht hl) (setNode_slot hn) (fun r hr => ?_) ?_ ?_ ?_
    (no_pending hb)
  · exact ⟨Function.update_of_ne hr .., Function.update_of_ne hr ..⟩
  · rw [hk]
    nofun
  · rw [hself]
    nofun
  · rw [hself, htaken]
    rfl

theorem Matched.leave (h : Matched c) (hp : c.pTask s = some task) (hb : c.binding s.1 = none)
    (hn : ∀ q, (n.proc q).holding = if q = s.2 then .free else ((c.node s.1).proc q).holding) :
    Matched { (c.setNode s.1 n).clear s with exit := Function.update c.exit task .done } := by
  have hlink : Paired (Function.update c.pTask s none) c.taskProc
      fun x => Function.update c.exit task .done x ≠ .done := by
    refine h.linked.drop hp fun x => ?_
    by_cases hx : x = task <;> simp [hx]
  have hself : Function.update c.pTask s none s = none := Function.update_self ..
  refine h.change hlink (setNode_slot hn) (fun r hr => ?_) (fun _ => hself) nofun ?_
    (no_pending hb)
  · exact ⟨Function.update_of_ne hr .., Function.update_of_ne hr ..⟩
  · simp [clear]

theorem Matched.detach {t : ℤ × ℤ} (h : Matched c) (hp : c.pTask (d, t.2) = some t.1)
    (hk : (c.holding (d, t.2)).tasked = false) : Matched (c.detach d t) := by
  have hhold : ∀ r, (c.detach d t).holding r =
      if r = (d, t.2) then c.holding (d, t.2) else c.holding r := by
    intro r
    split
    · rename_i hr
      rw [hr]
      rfl
    · rfl
  have hself : (c.detach d t).pTask (d, t.2) = none := Function.update_self ..
  refine h.change (h.linked.unlink hp) hhold (fun r hr => ?_) (fun _ => hself) ?_ ?_ ?_
  · exact ⟨Function.update_of_ne hr .., Function.update_of_ne hr ..⟩
  · rw [hk]
    nofun
  · simp [Kernel.detach]
  · intro e b hb
    refine ⟨hb, fun hs => ?_⟩
    rw [← hs]
    exact h.pending e b hb

theorem Matched.weaken (h : Matched c) (hb : c.binding d = none)
    (hf : ∀ q, (n.proc q).holding.slotFree = ((c.node d).proc q).holding.slotFree)
    (ht : ∀ q, (n.proc q).holding.tasked = true → ((c.node d).proc q).holding.tasked = true) :
    Matched (c.setNode d n) := by
  refine ⟨h.linked, fun s hs => h.free s ?_, fun s hs => h.tasked s ?_, fun e b hb' => ?_, h.taken⟩
  · rw [setNode_holding] at hs
    split at hs
    · rename_i hd
      rw [hf, ← hd] at hs
      exact hs
    · exact hs
  · rw [setNode_holding] at hs
    split at hs
    · rename_i hd
      have := ht _ hs
      rw [← hd] at this
      exact this
    · exact hs
  · rw [setNode_holding, if_neg]
    · exact h.pending e b hb'
    · rintro rfl
      exact absurd (hb.symm.trans hb') nofun

end Updates

/-! ### The calls keep it -/

section Calls

variable {c : Kernel} {d task : ℤ} {s : ℤ × ℤ}

theorem Matched.bindOpen (h : Matched c) (hb : c.binding d = none)
    (hp : (c.node d).bindClears oper ep nodeid → c.pTask (d, endpointP ep) = none) (caller pid : ℤ)
    (pairFree : Bool) : Matched (c.bindOpen d caller oper pid ep nodeid pairFree) := by
  have hq := (c.node d).bindOpen_holding oper ep nodeid (c.bindEnv caller pid pairFree)
  have hret := (c.node d).bindClears_of_ok oper ep nodeid (c.bindEnv caller pid pairFree)
  unfold Kernel.bindOpen
  dsimp only
  generalize (c.node d).bindOpen oper ep nodeid (c.bindEnv caller pid pairFree) = r at hq hret
  obtain ⟨n, ret⟩ := r
  by_cases hc : (c.node d).bindClears oper ep nodeid
  · have hn : ∀ q, (n.proc q).holding =
        if q = endpointP ep then .free else ((c.node d).proc q).holding := by simpa [hc] using hq
    have hset := h.setSlot (s := (d, endpointP ep)) (hp hc) hn rfl hb
    rw [if_pos hc, update_none (hp hc)]
    cases ret with
    | error code => exact hset
    | ok node =>
      refine ⟨hset.linked, hset.free, hset.tasked, fun e b hb' => ?_, hset.taken⟩
      by_cases he : e = d
      · subst he
        dsimp only at hb'
        rw [Function.update_self] at hb'
        cases hb'
        exact (setNode_slot (s := (e, endpointP ep)) hn _).trans (if_pos rfl)
      · exact hset.pending e b ((Function.update_of_ne he ..).symm.trans hb')
  · rw [if_neg hc]
    cases ret with
    | error code => exact h.sameHolding fun q => by simpa [hc] using hq q
    | ok node => exact absurd (hret node rfl) hc

theorem Matched.bindClose {b : BindCall} (h : Matched c) (hb : c.binding d = some b)
    (ht : b.oper ≠ .rmtBind →
      (c.node d).bindGroup b.oper (c.bindEnv b.caller b.pid b.pairFree) = EMol.ok →
      c.taskProc b.pid = none ∧ c.exit b.pid ≠ .done) : Matched (c.bindClose d b) := by
  -- the lock of the DC is released
  have hrel : Matched { c with binding := Function.update c.binding d none } := by
    refine ⟨h.linked, h.free, h.tasked, fun e b' hb' => ?_, h.taken⟩
    by_cases he : e = d
    · subst he
      dsimp only at hb'
      simp [Function.update_self] at hb'
    · exact h.pending e b' ((Function.update_of_ne he ..).symm.trans hb')
  have hfree : c.holding (d, endpointP b.ep) = .free := h.pending d b hb
  have hnone : c.pTask (d, endpointP b.ep) = none := h.free _ (by rw [hfree]; rfl)
  have hb0 : (Function.update c.binding d none) d = none := Function.update_self ..
  unfold Kernel.bindClose
  rcases Node.bindClose_holding (c.node d) b.oper b.pid b.ep
    (c.bindEnv b.caller b.pid b.pairFree) b.node hfree with
    ⟨code, hr⟩ | ⟨hg, n, r, hr, hn⟩
  · rw [hr]
    exact hrel.sameHolding fun _ => rfl
  · rw [hr]
    dsimp only
    by_cases ho : b.oper = .rmtBind
    · rw [if_pos ho]
      rw [ho] at hn
      exact hrel.setSlot (s := (d, endpointP b.ep)) hnone hn rfl hb0
    · rw [if_neg ho]
      obtain ⟨ht, hl⟩ := ht ho hg
      refine hrel.give (s := (d, endpointP b.ep)) hnone ht hl hn ?_ hb0
      cases b.oper <;> rfl

theorem unbind_taskProc (task : ℤ) (s : ℤ × ℤ) (sig : ℤ) :
    (c.unbind task s sig).taskProc task = c.taskProc task := by
  unfold Kernel.unbind
  split <;> rfl

theorem unbind_exit (task : ℤ) (s : ℤ × ℤ) (sig : ℤ) : (c.unbind task s sig).exit = c.exit := by
  unfold Kernel.unbind
  split <;> rfl

theorem Matched.unbind (h : Matched c) (hb : c.binding s.1 = none)
    (hp : c.clears task s → c.pTask s = none) (sig : ℤ) : Matched (c.unbind task s sig) := by
  have hq := (c.node s.1).doUnbind_holding s.2 (c.callerIn task s.1) sig
  unfold Kernel.unbind
  by_cases hc : c.clears task s
  · have hn : ∀ q, (((c.node s.1).doUnbind (c.callerIn task s.1) s.2 sig).1.proc q).holding =
        if q = s.2 then .free else ((c.node s.1).proc q).holding := by
      intro q
      refine (hq q).trans ?_
      simp only [show (c.node s.1).clearsSlot (c.callerIn task s.1) s.2 from hc, true_and]
    have hset := h.setSlot (hp hc) hn rfl hb
    have htaken : Function.update c.taken s 0 = c.taken := by
      have h0 : c.taken s = 0 := by rw [h.taken, hp hc]; rfl
      rw [← h0, Function.update_eq_self]
    rw [if_pos hc]
    unfold clear
    dsimp only [setNode] at hset ⊢
    rw [update_none (hp hc), htaken]
    exact hset
  · rw [if_neg hc]
    exact h.sameHolding fun q => (hq q).trans (if_neg fun h => hc h.1)

theorem Matched.retire (h : Matched c) (hp : ∀ s, c.pTask s ≠ some task) :
    Matched { c with exit := Function.update c.exit task .done } := by
  refine ⟨h.linked.retire hp fun x => ?_, h.free, h.tasked, h.pending, h.taken⟩
  by_cases hx : x = task <;> simp [hx]

theorem Matched.exitBegin (h : Matched c) (hx : c.exit task = .no) :
    Matched { c with
      exit := Function.update c.exit task ((c.taskProc task).elim .done .unbinding) } := by
  cases ht : c.taskProc task with
  | none => exact h.retire (h.linked.ne_some ht)
  | some s =>
    refine ⟨⟨fun a x => ?_⟩, h.free, h.tasked, h.pending, h.taken⟩
    have hold := h.linked.iff a x
    by_cases hxt : x = task
    · subst hxt
      simpa [hx] using hold
    · simpa [hxt] using hold

theorem Matched.exitEnd {sig : ℤ} (h : Matched c) (hx : c.exit task = .unbinding s)
    (hb : c.binding s.1 = none)
    (hown : c.exitUnbinds s ∧ c.clears task s → c.pTask s = none ∨ c.pTask s = some task)
    (hlast : c.taskProc task = none ∨
      c.taskProc task = some s ∧ c.exitUnbinds s ∧ c.clears task s) :
    Matched (c.exitEnd task s sig) := by
  have hlive : c.exit task ≠ .done := by rw [hx]; nofun
  unfold Kernel.exitEnd
  by_cases hp : c.pTask s = some task ∧ c.exitUnbinds s ∧ c.clears task s
  · -- the task clears its own slot
    obtain ⟨hp, hu, hc⟩ := hp
    rw [if_pos hu]
    unfold Kernel.unbind
    rw [if_pos hc]
    refine h.leave hp hb fun q => ?_
    refine ((c.node s.1).doUnbind_holding s.2 (c.callerIn task s.1) sig q).trans ?_
    simp only [show (c.node s.1).clearsSlot (c.callerIn task s.1) s.2 from hc, true_and]
  · -- no slot refers to the task
    have hno : c.taskProc task = none := by
      refine hlast.resolve_right fun hl => hp ⟨?_, hl.2⟩
      exact (h.linked.iff s task).2 ⟨hlive, hl.1⟩
    by_cases hu : c.exitUnbinds s
    · have hclear : c.clears task s → c.pTask s = none := fun hc =>
        (hown ⟨hu, hc⟩).resolve_right fun hs => hp ⟨hs, hu, hc⟩
      rw [if_pos hu]
      have hunb := h.unbind hb hclear sig
      have hret := hunb.retire (hunb.linked.ne_some ((unbind_taskProc ..).trans hno))
      rwa [unbind_exit] at hret
    · rw [if_neg hu]
      exact h.retire (h.linked.ne_some hno)

theorem Matched.detachAll (ts : List (ℤ × ℤ)) : ∀ {c : Kernel}, Matched c →
    (ts.map Prod.fst).Nodup →
    (∀ t ∈ ts, c.taskProc t.1 = some (d, t.2) ∧ c.exit t.1 ≠ .done ∧
      (c.holding (d, t.2)).tasked = false) →
    Matched (ts.foldl (fun c t => c.detach d t) c) := by
  induction ts with
  | nil => exact fun h _ _ => h
  | cons t ts ih =>
    intro c h hd ht
    rw [List.map_cons, List.nodup_cons] at hd
    obtain ⟨hproc, hlive, hk⟩ := ht t List.mem_cons_self
    have hp : c.pTask (d, t.2) = some t.1 := (h.linked.iff _ _).2 ⟨hlive, hproc⟩
    refine ih (h.detach hp hk) hd.2 fun u hu => ?_
    obtain ⟨huproc, hulive, huk⟩ := ht u (List.mem_cons_of_mem _ hu)
    have hne : u.1 ≠ t.1 := fun hut => hd.1 (hut ▸ List.mem_map_of_mem hu)
    exact ⟨(Function.update_of_ne hne ..).trans huproc, hulive, huk⟩

theorem Matched.migrate {pid new : ℤ} {oper : MigrOper} {nodeFree : Bool} {threads : List (ℤ × ℤ)}
    (h : Matched c) (hb : c.binding d = none) (hfit : c.GroupFits (d, endpointP ep) threads)
    (hok : c.apart (.migrate d oper pid ep new nodeFree threads))
    (hm : c.migrate d oper pid ep new nodeFree threads = some c') : Matched c' := by
  obtain ⟨hback, harr⟩ := hok
  have hq := (c.node d).migrate_holding (c.migrEnv (d, endpointP ep) pid nodeFree threads) oper pid
    ep new
  unfold Kernel.migrate at hm
  dsimp only at hm hback harr hq
  generalize henv : c.migrEnv (d, endpointP ep) pid nodeFree threads = env at hm hback harr hq
  by_cases hl : (c.node d).migrLeaves env oper pid ep new
  · rw [if_pos hl] at hm
    by_cases hs : (c.pTask (d, endpointP ep)).isSome
    swap
    · simp [if_neg hs] at hm
    rw [if_pos hs] at hm
    cases hm
    have hgroup : (c.group (d, endpointP ep) threads).map Prod.snd = endpointP ep :: env.others := by
      obtain ⟨task, htask⟩ := Option.isSome_iff_exists.1 hs
      simp [group, htask, ← henv, migrEnv]
    simp only [if_pos hl, ← hgroup] at hq
    have hleft : ∀ q ∈ (c.group (d, endpointP ep) threads).map Prod.snd,
        ({ ((c.node d).proc q).holding with remote := true } : Holding).tasked = false := by
      intro q hmem
      obtain ⟨t, ht, rfl⟩ := List.mem_map.1 hmem
      have hno : ((c.node d).proc t.2).holding.rmtbackup = false := (hback hl t ht).1
      simp [Holding.tasked, hno]
    refine (h.weaken hb (fun q => ?_) fun q ht => ?_).detachAll _ hfit.1 fun t ht => ?_
    · rw [hq]
      split <;> rfl
    · rw [hq] at ht
      split at ht
      · rename_i hmem
        simp [hleft q hmem] at ht
      · exact ht
    · refine ⟨hfit.2 t ht, (hback hl t ht).2, ?_⟩
      have hmem := List.mem_map_of_mem (f := Prod.snd) ht
      rw [setNode_holding, if_pos rfl, hq, if_pos hmem]
      exact hleft t.2 hmem
  · rw [if_neg hl] at hm
    simp only [if_neg hl] at hq
    by_cases ha : (c.node d).migrArrives env oper pid ep new
    · simp only [ha, true_and] at hq hm
      by_cases hbk : ((c.node d).proc (endpointP ep)).misc.rmtbackup = false
      · rw [if_pos hbk] at hm
        cases hm
        obtain ⟨hp, ht, hlive⟩ := harr ⟨ha, hbk⟩
        refine h.give (s := (d, endpointP ep)) (k := ⟨false, false, false⟩) hp ht hlive ?_ rfl hb
        intro q
        rw [hq]
        split
        · rename_i hqe
          rw [hqe]
          exact Holding.ext rfl rfl hbk
        · rfl
      · -- the backup has its task already
        rw [if_neg hbk] at hm
        cases hm
        rw [Bool.not_eq_false] at hbk
        have hold : (c.holding (d, endpointP ep)).tasked = true := by
          simp [Holding.tasked, holding, Proc.holding, hbk]
        refine h.weaken hb (fun q => ?_) fun q ht => ?_
        · rw [hq]
          split
          · rename_i hqe
            by_contra hfree
            have hno := h.free (d, q) (by simpa [holding] using Ne.symm hfree)
            exact h.tasked (d, endpointP ep) hold (hqe ▸ hno)
          · rfl
        · rw [hq] at ht
          split at ht
          · rename_i hqe
            rw [hqe]
            exact hold
          · exact ht
    · have hno : ¬ ((c.node d).migrArrives env oper pid ep new ∧
          ((c.node d).proc (endpointP ep)).misc.rmtbackup = false) := fun h => ha h.1
      rw [if_neg hno] at hm
      cases hm
      refine h.sameHolding fun q => ?_
      rw [hq, if_neg fun h => ha h.1]

theorem Matched.step {l : Label} (h : Matched c) (hok : c.apart l) (hs : c.step l = some c') :
    Matched c' := by
  cases l with
  | bindOpen d caller oper pid ep nodeid pairFree =>
    simp only [Kernel.step, Option.ite_none_right_eq_some, Option.some.injEq] at hs
    obtain ⟨⟨hb, -⟩, rfl⟩ := hs
    exact h.bindOpen hb hok caller pid pairFree
  | bindClose d =>
    simp only [Kernel.step, Option.map_eq_some_iff] at hs
    obtain ⟨b, hb, rfl⟩ := hs
    simp only [apart, hb] at hok
    exact h.bindClose hb hok
  | unbind task s sig =>
    simp only [Kernel.step, Option.ite_none_right_eq_some, Option.some.injEq] at hs
    obtain ⟨⟨hb, -⟩, rfl⟩ := hs
    exact h.unbind hb hok sig
  | exitBegin task =>
    simp only [Kernel.step, Option.ite_none_right_eq_some, Option.some.injEq] at hs
    obtain ⟨hx, rfl⟩ := hs
    exact h.exitBegin hx
  | exitEnd task sig =>
    simp only [Kernel.step] at hs
    split at hs
    · rename_i s hx
      simp only [Option.ite_none_right_eq_some, Option.some.injEq] at hs
      obtain ⟨hb, rfl⟩ := hs
      simp only [apart, hx] at hok
      exact h.exitEnd hx hb hok.1 hok.2
    · cases hs
  | reap task =>
    simp only [Kernel.step, Option.ite_none_right_eq_some, Option.some.injEq] at hs
    obtain ⟨-, rfl⟩ := hs
    exact ⟨h.linked, h.free, h.tasked, h.pending, h.taken⟩
  | migrate d oper pid ep new nodeFree threads =>
    simp only [Kernel.step, Option.ite_none_right_eq_some] at hs
    obtain ⟨⟨hb, hfit⟩, hm⟩ := hs
    exact h.migrate hb hfit hok hm
  | ipc d q p =>
    simp only [Kernel.step, Option.some.injEq] at hs
    obtain rfl := hs
    refine h.sameHolding ?_
    exact Node.sameHolding_modProc q _ fun _ => rfl

end Calls

/-! ### Runs -/

structure Fresh (c : Kernel) : Prop where
  slots (s : ℤ × ℤ) : c.holding s = .free ∧ c.pTask s = none ∧ c.taken s = 0
  tasks (task : ℤ) : c.taskProc task = none
  locks (d : ℤ) : c.binding d = none

theorem Fresh.matched {c : Kernel} (h : Fresh c) : Matched c := by
  refine ⟨⟨fun s task => ?_⟩, fun s _ => (h.slots s).2.1, fun s hs => ?_, fun d b hb => ?_,
    fun s => ?_⟩
  · simp [(h.slots s).2.1, h.tasks task]
  · rw [(h.slots s).1] at hs
    cases hs
  · simp [h.locks d] at hb
  · rw [(h.slots s).2.1, (h.slots s).2.2]
    rfl

theorem bindOpen_slotused {n : Node} {node : ℤ} (env : BindEnv)
    (hnode : n.bindNode oper nodeid = some node)
    (hdc : 0 ≤ n.conf.dcid ∧ n.conf.dcid < n.conf.dNrDcs ∧ n.conf.dcFlags = 0)
    (hslot : n.conf.inRange (endpointP ep) ∧ n.conf.dcNodes node = true)
    (hused : (n.proc (endpointP ep)).rts.slotFree = false)
    (hoper : oper ≠ .bkupBind ∧ oper ≠ .replicaBind) :
    n.bindOpen oper ep nodeid env = (n, .error EMol.slotused) := by
  have hcheck : n.bindCheck oper ep node = EMol.slotused := by
    unfold Node.bindCheck
    simp [hdc, hslot, hused, hoper]
  have hne : EMol.slotused ≠ EMol.ok := by decide
  unfold Node.bindOpen
  simp [hnode, hcheck, hne]

def vacant : Kernel where
  node := fun _ => {
    conf := { Conf.sample 0 with dcNrTasks := 2, dcNrProcs := 8 }
    proc := fun nr => { endpoint := nr, rts := Rts.onlyFree }
    sproxy := Proc.sampleProxy
    rproxy := Proc.sampleProxy }
  pTask := fun _ => none
  taskProc := fun _ => none
  hashed := fun pid => pid = 1 ∨ pid = 100 ∨ pid = 101
  tgid := id
  exit := fun _ => .no
  binding := fun _ => none
  taken := fun _ => 0

theorem vacant_fresh : vacant.Fresh := ⟨fun _ => ⟨rfl, rfl, rfl⟩, fun _ => rfl, fun _ => rfl⟩

def bindBy (oper : BindOper) (pid i : ℤ) : List Label :=
  [.bindOpen 0 1 oper pid i localNode false, .bindClose 0]

end Kernel

end MolIpc
