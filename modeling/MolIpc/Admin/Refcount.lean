import Mathlib.Data.List.Nodup
import Mathlib.Data.List.Range
import MolIpc.Admin.Tables
import MolIpc.Ipc.SlotUse
import MolIpc.Lib.Reach

/-!
The counter of references `dc_kref` of a DC: one reference for the DC, and one for each process.

The counter is what `mm_bind` and `do_autobind` increment and what `do_unbind` and `do_dc_end`
decrement; when it gets to zero, `dc_release` frees the table. Two paths change the use of a slot
without the counter: a backup or a replica that takes over a slot in use, and the end of a copy of
a requester that was to be unbound. While `do_dc_end` waits for the processes, the DC still runs
and lets others in. In a run without these the counter is right in every state.
-/

namespace MolIpc

/-- `DC_FREE`. -/
def dcFree : ℕ := 2

/-- A DC: its descriptors, the references, and for each `do_dc_end` that waits the slots it has not
yet passed. -/
structure DcRef where
  node : Node
  kref : ℤ
  enders : List (List ℤ) := []

/-- The calls that a DC sees. -/
inductive DcOp
  | init (tasks procs sysprocs : ℤ) (refused : Bool) (fail : Option Dvs.DcInitFail)
  | bind (oper : BindOper) (pid ep nodeid : ℤ) (env : BindEnv)
  | autobind (ep nodeid lock : ℤ) (pairFree : Bool)
  | unbind (caller : Caller) (i sig : ℤ)
  | vcopyFinish (c : ℤ) (v : VcopyCall) (ret : ℤ)
  | migrate (env : MigrEnv) (oper : MigrOper) (pid ep new : ℤ)
  | endStart (caller : Caller)
  | endPass (k : ℕ)
  | endFinish (k : ℕ)
  | other (n : Node)

namespace DcRef

/-- `dc_flags` is `DC_RUNNING`. -/
def Running (s : DcRef) : Prop := s.node.conf.dcFlags = 0

instance (s : DcRef) : Decidable s.Running := by unfold Running; infer_instance

def bound (s : DcRef) : ℕ := s.node.table.countP fun q => !(s.node.proc q).rts.slotFree

/-! ### References -/

/-- `dc_release`. -/
def release (s : DcRef) : DcRef :=
  { s with node := { s.node with
      conf := { s.node.conf with dcFlags := dcFree, dcNodes := fun _ => false } } }

/-- `DC_DECREF`. -/
def decref (s : DcRef) : DcRef :=
  let s := { s with kref := s.kref - 1 }
  if s.kref = 0 then s.release else s

/-- `do_unbind` with its reference. -/
def unbind (s : DcRef) (caller : Caller) (i sig : ℤ) : DcRef :=
  let t := { s with node := (s.node.doUnbind caller i sig).1 }
  if s.node.clearsSlot caller i then t.decref else t

def bindResult (s : DcRef) : Node × Except ℤ ℤ → DcRef
  | (n, .ok _) => { s with node := n, kref := s.kref + 1 }
  | (n, .error _) => { s with node := n }

/-! ### The life of a DC -/

def started (s : DcRef) (tasks procs sysprocs : ℤ) : DcRef :=
  { s with node := { s.node with
      conf := { s.node.conf with
        dcFlags := 0, dcNrTasks := tasks, dcNrProcs := procs, dcNrSysprocs := sysprocs
        dcNodes := (· = s.node.conf.localNodeid) }
      proc := fun q =>
        { (s.node.proc q).initDesc s.node.conf.dcid with
          endpoint := endpointOf 0 q, pseudosem := 1 } } }

/-- `mm_dc_init`. A DC that gets no memory for its table runs all the same, and its counter is not
set. -/
def init (s : DcRef) (tasks procs sysprocs : ℤ) (refused : Bool) (fail : Option Dvs.DcInitFail) :
    DcRef :=
  if refused ∨ s.Running then s
  else
    let t := s.started tasks procs sysprocs
    match fail with
    | none => { t with kref := 1 }
    | some .memory => { s with node := { s.node with conf := t.node.conf } }
    | some .entries => { t with kref := 1 }.decref

/-- A slot in the first loop of `do_dc_end`: a process that has a task is killed, and leaves the
slot later. -/
def endSlot (caller : Caller) (s : DcRef) (q : ℤ) : DcRef :=
  let p := s.node.proc q
  if p.rts.slotFree then s
  else if ¬ p.rts.remote ∨ p.misc.rmtbackup then s
  else s.unbind caller q 0

/-- `do_dc_end` up to its second loop. -/
def endStart (s : DcRef) (caller : Caller) : DcRef :=
  if ¬ s.Running then s
  else
    let t := s.node.table.foldl (endSlot caller) s
    { t with enders := t.enders ++ [s.node.table] }

def Apart (n n' : Node) : Prop :=
  (n'.conf.dcFlags = n.conf.dcFlags ∧ n'.conf.dcNrTasks = n.conf.dcNrTasks ∧
    n'.conf.dcNrProcs = n.conf.dcNrProcs) ∧
  ∀ q ∈ n.table, (n'.proc q).rts.slotFree = (n.proc q).rts.slotFree ∧
    ((n.proc q).rts.slotFree = true → (n'.proc q).rts.remote = true → (n.proc q).rts.remote = true)

instance (n n' : Node) : Decidable (Apart n n') := by unfold Apart; infer_instance

/-- The second loop of `do_dc_end` waits at each slot until it is free (`endPass`), and gives its
reference back after the last one. -/
def step (s : DcRef) : DcOp → Option DcRef
  | .init tasks procs sysprocs refused fail => some (s.init tasks procs sysprocs refused fail)
  | .bind oper pid ep nodeid env => some (s.bindResult (s.node.bind oper pid ep nodeid env))
  | .autobind ep nodeid lock pairFree =>
    if s.Running then some (s.bindResult (s.node.autobind ep nodeid lock pairFree)) else none
  | .unbind caller i sig =>
    if s.Running ∧ s.node.conf.inRange i then some (s.unbind caller i sig) else none
  | .vcopyFinish c v ret =>
    if s.Running then some { s with node := (s.node.vcopyFinish c v ret).1 } else none
  | .migrate env oper pid ep new =>
    if s.Running ∧ s.node.MigrFits (endpointP ep) env then
      some { s with node := (s.node.migrate env oper pid ep new).1 }
    else none
  | .endStart caller => some (s.endStart caller)
  | .endPass k =>
    match s.enders[k]? with
    | some (q :: rest) =>
      if (s.node.proc q).rts.slotFree then some { s with enders := s.enders.set k rest } else none
    | _ => none
  | .endFinish k =>
    match s.enders[k]? with
    | some [] => some { s with enders := s.enders.eraseIdx k }.decref
    | _ => none
  | .other n => if Apart s.node n then some { s with node := n } else none

/-! ### Counting slots -/

section Count

theorem countP_of_ne {ι : Type*} [DecidableEq ι] {l : List ι} (hl : l.Nodup) {i : ι} (hi : i ∈ l)
    {p q : ι → Bool} (h : ∀ j, j ≠ i → q j = p j) :
    l.countP q + (p i).toNat = l.countP p + (q i).toNat := by
  obtain ⟨a, b, rfl⟩ := List.append_of_mem hi
  have hab : i ∉ a ∧ i ∉ b := by
    rw [List.nodup_append, List.nodup_cons] at hl
    exact ⟨fun ha => hl.2.2 i ha i List.mem_cons_self rfl, hl.2.1.1⟩
  have ha : a.countP q = a.countP p := List.countP_congr fun j hj => by
    rw [h j fun e => hab.1 (e ▸ hj)]
  have hb : b.countP q = b.countP p := List.countP_congr fun j hj => by
    rw [h j fun e => hab.2 (e ▸ hj)]
  simp only [List.countP_append, List.countP_cons, ha, hb]
  cases p i <;> cases q i <;> simp <;> omega

variable {n n' : Node}

theorem table_eq (ht : n'.conf.dcNrTasks = n.conf.dcNrTasks)
    (hp : n'.conf.dcNrProcs = n.conf.dcNrProcs) : n'.table = n.table := by
  unfold Node.table
  rw [ht, hp]

theorem bound_of_apart {s : DcRef} (h : Apart s.node n) : { s with node := n }.bound = s.bound := by
  unfold bound
  rw [table_eq h.1.2.1 h.1.2.2]
  refine List.countP_congr fun q hq => ?_
  rw [(h.2 q hq).1]

theorem bound_eq_zero {s : DcRef}
    (h : ∀ q ∈ s.node.table, (s.node.proc q).rts.slotFree = true) : s.bound = 0 := by
  unfold bound
  rw [List.countP_eq_zero]
  intro q hq
  simp [h q hq]

end Count

/-! ### Invariant -/

/-- The counter is right, there is one `do_dc_end` at most and only while the DC runs, the slots it
has passed stay free, and a free slot is not remote. -/
structure Sound (s : DcRef) : Prop where
  count : s.Running → s.kref = 1 + s.bound
  ended : ¬ s.Running → s.enders = []
  single : s.enders.length ≤ 1
  passed : ∀ rest ∈ s.enders, ∀ q ∈ s.node.table, q ∉ rest → (s.node.proc q).rts.slotFree = true
  freeLocal : s.Running → ∀ q ∈ s.node.table, (s.node.proc q).rts.slotFree = true →
    (s.node.proc q).rts.remote = false

section Steps

variable {s : DcRef} {n : Node} {i : ℤ} {caller : Caller}

theorem apart_of_sameUse {n n' : Node} (h : n.SameUse n') : Apart n n' := by
  refine ⟨?_, fun q _ => ⟨h.free q, h.remote q⟩⟩
  rw [h.conf]
  exact ⟨rfl, rfl, rfl⟩

theorem Sound.apart (hs : s.Sound) (h : Apart s.node n) : { s with node := n }.Sound := by
  have htab := table_eq h.1.2.1 h.1.2.2
  have hrun : { s with node := n }.Running ↔ s.Running := by
    unfold Running
    rw [h.1.1]
  refine ⟨fun hr => ?_, fun hr => hs.ended (mt hrun.mpr hr), hs.single, ?_, ?_⟩
  · rw [bound_of_apart h]
    exact hs.count (hrun.mp hr)
  · intro rest hrest q hq hn
    rw [htab] at hq
    rw [(h.2 q hq).1]
    exact hs.passed rest hrest q hq hn
  · intro hr q hq hf
    rw [htab] at hq
    rw [(h.2 q hq).1] at hf
    by_contra hc
    have hrem := (h.2 q hq).2 hf (by simpa using hc)
    simp [hs.freeLocal (hrun.mp hr) q hq hf] at hrem

theorem Sound.taken (hs : s.Sound) (he : s.enders = []) (hi : i ∈ s.node.table)
    (hfree : (s.node.proc i).rts.slotFree = true) (h : Node.Taken i s.node n) :
    { s with node := n, kref := s.kref + 1 }.Sound := by
  have htab : n.table = s.node.table := Node.table_congr h.conf
  have hbound : { s with node := n, kref := s.kref + 1 }.bound = s.bound + 1 := by
    have hc := countP_of_ne s.node.table_nodup hi
      (p := fun q => !(s.node.proc q).rts.slotFree) (q := fun q => !(n.proc q).rts.slotFree)
      fun j hj => by rw [h.other j hj]
    simp only [hfree, h.self] at hc
    unfold bound
    rw [htab]
    simpa using hc
  have hrun : { s with node := n, kref := s.kref + 1 }.Running → s.Running := by
    unfold Running
    rw [← h.conf]
    exact id
  refine ⟨fun hr => ?_, fun _ => he, hs.single, ?_, ?_⟩
  · have hk := hs.count (hrun hr)
    rw [hbound]
    push_cast
    omega
  · intro rest hrest
    simp [he] at hrest
  · intro hr q hq hf
    rw [htab] at hq
    by_cases hqi : q = i
    · subst hqi
      simp [h.self] at hf
    · rw [h.other q hqi] at hf ⊢
      exact hs.freeLocal (hrun hr) q hq hf

theorem bound_freed (hi : i ∈ s.node.table) (hused : (s.node.proc i).rts.slotFree = false)
    (h : Node.Freed i s.node n) : { s with node := n }.bound + 1 = s.bound := by
  have htab : n.table = s.node.table := Node.table_congr h.conf
  have hself : (n.proc i).rts.slotFree = true := by rw [h.self]; rfl
  have hc := countP_of_ne s.node.table_nodup hi
    (p := fun q => !(s.node.proc q).rts.slotFree) (q := fun q => !(n.proc q).rts.slotFree)
    fun j hj => by rw [h.free j hj]
  simp only [hused, hself] at hc
  unfold bound
  rw [htab]
  simpa using hc

theorem Sound.freed (hs : s.Sound) (hrun : s.Running) (hi : i ∈ s.node.table)
    (hused : (s.node.proc i).rts.slotFree = false) (h : Node.Freed i s.node n) :
    { s with node := n }.decref.Sound ∧ { s with node := n }.decref.Running ∧
      { s with node := n }.decref = { s with node := n, kref := s.kref - 1 } := by
  have htab : n.table = s.node.table := Node.table_congr h.conf
  have hself : (n.proc i).rts.slotFree = true := by rw [h.self]; rfl
  have hbound : { s with node := n, kref := s.kref - 1 }.bound + 1 = s.bound :=
    bound_freed hi hused h
  have hk := hs.count hrun
  have hrun' : { s with node := n, kref := s.kref - 1 }.Running := by
    unfold Running at hrun ⊢
    rw [← hrun]
    exact congrArg Conf.dcFlags h.conf
  have heq : { s with node := n }.decref = { s with node := n, kref := s.kref - 1 } := by
    unfold decref
    dsimp only
    rw [if_neg (by omega)]
  rw [heq]
  refine ⟨⟨fun _ => ?_, fun hr => absurd hrun' hr, hs.single, ?_, ?_⟩, hrun', rfl⟩
  · dsimp only
    omega
  · intro rest hrest q hq hn
    by_cases hqi : q = i
    · exact hqi ▸ hself
    · rw [htab] at hq
      rw [h.free q hqi]
      exact hs.passed rest hrest q hq hn
  · intro _ q hq hf
    by_cases hqi : q = i
    · subst hqi
      rw [h.self]
      rfl
    · rw [htab] at hq
      rw [h.free q hqi] at hf
      by_contra hc
      have hrem := h.remote q hqi hf (by simpa using hc)
      simp [hs.freeLocal hrun q hq hf] at hrem

variable (caller) in
theorem Sound.unbind (hs : s.Sound) (hrun : s.Running) (hi : i ∈ s.node.table) (sig : ℤ) :
    (s.unbind caller i sig).Sound ∧ (s.unbind caller i sig).Running ∧
      (s.unbind caller i sig).enders = s.enders ∧
      (s.unbind caller i sig).node.conf = s.node.conf := by
  unfold DcRef.unbind
  split
  · rename_i hc
    obtain ⟨hused, hfreed⟩ := Node.freed_doUnbind sig hc
    obtain ⟨h1, h2, h3⟩ := hs.freed hrun hi hused hfreed
    refine ⟨h1, h2, ?_, ?_⟩
    · rw [h3]
    · rw [h3]
      exact hfreed.conf
  · rename_i hc
    have hsame := Node.sameUse_doUnbind sig hc
    refine ⟨hs.apart (apart_of_sameUse hsame), ?_, rfl, hsame.conf⟩
    unfold Running
    rw [hsame.conf]
    exact hrun

variable (caller) in
theorem Sound.endLoop (qs : List ℤ) : ∀ s : DcRef, s.Sound → s.Running → qs ⊆ s.node.table →
    (qs.foldl (endSlot caller) s).Sound ∧ (qs.foldl (endSlot caller) s).Running ∧
      (qs.foldl (endSlot caller) s).enders = s.enders ∧
      (qs.foldl (endSlot caller) s).node.conf = s.node.conf := by
  induction qs with
  | nil => exact fun s hs hr _ => ⟨hs, hr, rfl, rfl⟩
  | cons q qs ih =>
    intro s hs hr hsub
    have hq : q ∈ s.node.table := hsub List.mem_cons_self
    have hturn : (endSlot caller s q).Sound ∧ (endSlot caller s q).Running ∧
        (endSlot caller s q).enders = s.enders ∧
        (endSlot caller s q).node.conf = s.node.conf := by
      unfold endSlot
      dsimp only
      split
      · exact ⟨hs, hr, rfl, rfl⟩
      split
      · exact ⟨hs, hr, rfl, rfl⟩
      · exact hs.unbind caller hr hq 0
    obtain ⟨h1, h2, h3, h4⟩ := hturn
    obtain ⟨g1, g2, g3, g4⟩ := ih _ h1 h2 (by
      rw [Node.table_congr h4]
      exact fun _ h => hsub (List.mem_cons_of_mem _ h))
    exact ⟨g1, g2, g3.trans h3, g4.trans h4⟩

theorem Sound.endStart (hs : s.Sound) (he : s.enders = []) (caller : Caller) :
    (s.endStart caller).Sound ∧ (s.Running → (s.endStart caller).Running) := by
  unfold DcRef.endStart
  split
  · exact ⟨hs, id⟩
  rename_i hr
  rw [not_not] at hr
  obtain ⟨h1, h2, h3, h4⟩ := Sound.endLoop caller s.node.table s hs hr fun _ h => h
  refine ⟨⟨h1.count, fun hn => absurd h2 hn, ?_, ?_, h1.freeLocal⟩, fun _ => h2⟩
  · simp [h3, he]
  · intro rest hrest q hq hn
    dsimp only at hrest hq
    rw [h3, he, List.nil_append, List.mem_singleton] at hrest
    rw [Node.table_congr h4] at hq
    exact absurd hq (hrest ▸ hn)

theorem not_running_release (s : DcRef) : ¬ s.release.Running := by
  show ¬ dcFree = 0
  decide

theorem Sound.endFinish (hs : s.Sound) {k : ℕ} (hk : s.enders[k]? = some []) :
    { s with enders := s.enders.eraseIdx k }.decref.Sound ∧ s.bound = 0 ∧
      ¬ { s with enders := s.enders.eraseIdx k }.decref.Running := by
  have hmem : [] ∈ s.enders := List.mem_of_getElem? hk
  have hfree : ∀ q ∈ s.node.table, (s.node.proc q).rts.slotFree = true := fun q hq =>
    hs.passed [] hmem q hq List.not_mem_nil
  have hb : s.bound = 0 := bound_eq_zero hfree
  have hrun : s.Running := by
    by_contra hn
    simp [hs.ended hn] at hmem
  have hkref : s.kref = 1 := by
    rw [hs.count hrun, hb]
    rfl
  have herase : s.enders.eraseIdx k = [] := by
    obtain ⟨hlt, -⟩ := List.getElem?_eq_some_iff.mp hk
    have hlen := hs.single
    have h0 := List.length_eraseIdx_of_lt hlt
    exact List.eq_nil_of_length_eq_zero (by omega)
  have heq : { s with enders := s.enders.eraseIdx k }.decref =
      { s with enders := [], kref := 0 }.release := by
    unfold decref
    dsimp only
    rw [if_pos (by omega), herase, hkref]
    rfl
  have hstop : ¬ { s with enders := [], kref := 0 }.release.Running :=
    not_running_release _
  rw [heq]
  refine ⟨⟨fun hr => absurd hr hstop, fun _ => rfl, Nat.zero_le _, ?_, fun hr => absurd hr hstop⟩,
    hb, hstop⟩
  intro rest hrest
  cases hrest

theorem Sound.endPass (hs : s.Sound) {k : ℕ} {q : ℤ} {rest : List ℤ}
    (hk : s.enders[k]? = some (q :: rest)) (hf : (s.node.proc q).rts.slotFree = true) :
    { s with enders := s.enders.set k rest }.Sound := by
  refine ⟨hs.count, fun hn => ?_, ?_, ?_, hs.freeLocal⟩
  · simp [hs.ended hn] at hk
  · rw [List.length_set]
    exact hs.single
  · intro l hl x hx hn
    rcases List.mem_or_eq_of_mem_set hl with hl | rfl
    · exact hs.passed l hl x hx hn
    · by_cases hxq : x = q
      · exact hxq ▸ hf
      · refine hs.passed _ (List.mem_of_getElem? hk) x hx fun hm => ?_
        exact (List.mem_cons.mp hm).elim hxq hn

theorem Sound.init (hs : s.Sound) (tasks procs sysprocs : ℤ) (refused : Bool)
    {fail : Option Dvs.DcInitFail} (hf : fail ≠ some .memory) :
    (s.init tasks procs sysprocs refused fail).Sound ∧
      (s.Running → (s.init tasks procs sysprocs refused fail).Running) := by
  unfold DcRef.init
  split
  · exact ⟨hs, id⟩
  rename_i hn
  rw [not_or] at hn
  have he := hs.ended hn.2
  refine ⟨?_, fun hr => absurd hr hn.2⟩
  have hstart : { s.started tasks procs sysprocs with kref := 1 }.Sound := by
    refine ⟨fun _ => ?_, fun _ => he, hs.single, fun _ _ _ _ _ => rfl, fun _ _ _ _ => rfl⟩
    rw [bound_eq_zero fun _ _ => rfl]
    rfl
  match fail with
  | none => exact hstart
  | some .memory => exact absurd rfl hf
  | some .entries =>
    have hstop := not_running_release { s.started tasks procs sysprocs with kref := 0 }
    exact ⟨fun hr => absurd hr hstop, fun _ => he, hs.single, hstart.passed,
      fun hr => absurd hr hstop⟩

theorem Sound.bindResult (hs : s.Sound) (he : s.enders = []) {r : Except ℤ ℤ}
    (h : (∃ e, r = .ok e) ∧ s.node.conf.inRange i ∧ (s.node.proc i).rts.slotFree = true ∧
        Node.Taken i s.node n ∨ (∃ code, r = .error code) ∧ s.node.SameUse n) :
    (s.bindResult (n, r)).Sound ∧ (s.Running → (s.bindResult (n, r)).Running) := by
  have hrun : n.conf = s.node.conf → s.Running → n.conf.dcFlags = 0 := fun hc hr => by rwa [hc]
  rcases h with ⟨⟨e, rfl⟩, hr, hfree, ht⟩ | ⟨⟨code, rfl⟩, hsame⟩
  · exact ⟨hs.taken he (Node.mem_table.mpr hr) hfree ht, hrun ht.conf⟩
  · exact ⟨hs.apart (apart_of_sameUse hsame), hrun hsame.conf⟩

end Steps

/-! ### Runs -/

/-- There is memory, a bind takes over no slot and comes while no `do_dc_end` waits, no requester
ends a copy after a signal, and there is one `do_dc_end`. -/
def Careful (s : DcRef) : DcOp → Prop
  | .init _ _ _ _ fail => fail ≠ some .memory
  | .bind oper _ ep _ _ => s.enders = [] ∧ ((s.node.proc (endpointP ep)).rts.slotFree = true ∨
      oper ≠ .bkupBind ∧ oper ≠ .replicaBind)
  | .autobind _ _ _ _ => s.enders = []
  | .vcopyFinish c _ _ => (s.node.proc c).rts.signaled = false
  | .endStart _ => s.enders = []
  | _ => True

instance (s : DcRef) (a : DcOp) : Decidable (s.Careful a) := by
  cases a <;> unfold Careful <;> infer_instance

/-- The last step of a `do_dc_end`. -/
def Ends (a : DcOp) : Prop := ∃ k, a = .endFinish k

theorem Sound.step {s t : DcRef} {a : DcOp} (hs : s.Sound) (ha : s.Careful a)
    (h : s.step a = some t) :
    t.Sound ∧ (s.Running → (¬ t.Running ↔ Ends a) ∧ (¬ t.Running → s.bound = 0)) := by
  -- all the steps but one leave a DC running
  have hkeep : (t.Sound ∧ (s.Running → t.Running)) → ¬ Ends a →
      t.Sound ∧ (s.Running → (¬ t.Running ↔ Ends a) ∧ (¬ t.Running → s.bound = 0)) := by
    rintro ⟨ht, hr⟩ hne
    exact ⟨ht, fun hrun => ⟨iff_of_false (not_not_intro (hr hrun)) hne,
      fun hn => absurd (hr hrun) hn⟩⟩
  have hnode : ∀ {n : Node}, s.node.SameUse n → { s with node := n }.Sound ∧
      (s.Running → { s with node := n }.Running) := by
    intro n hsame
    refine ⟨hs.apart (apart_of_sameUse hsame), fun hr => ?_⟩
    show n.conf.dcFlags = 0
    rw [hsame.conf]
    exact hr
  cases a with
  | init tasks procs sysprocs refused fail =>
    cases h
    exact hkeep (hs.init tasks procs sysprocs refused ha) nofun
  | bind oper pid ep nodeid env =>
    cases h
    obtain ⟨n, r, heq, hcases⟩ := Node.bind_cases pid nodeid env ha.2
    have hb := hs.bindResult ha.1 hcases
    rw [← heq] at hb
    exact hkeep hb nofun
  | autobind ep nodeid lock pairFree =>
    simp only [DcRef.step] at h
    split at h <;> cases h
    obtain ⟨n, r, heq, hcases⟩ := Node.autobind_cases s.node ep nodeid lock pairFree
    have hb := hs.bindResult ha hcases
    rw [← heq] at hb
    exact hkeep hb nofun
  | unbind caller i sig =>
    simp only [DcRef.step] at h
    split at h <;> cases h
    rename_i hc
    obtain ⟨h1, h2, -⟩ := hs.unbind caller hc.1 (Node.mem_table.mpr hc.2) sig
    exact hkeep ⟨h1, fun _ => h2⟩ nofun
  | vcopyFinish c v ret =>
    simp only [DcRef.step] at h
    split at h <;> cases h
    exact hkeep (hnode (Node.sameUse_vcopyFinish ha v ret)) nofun
  | migrate env oper pid ep new =>
    simp only [DcRef.step] at h
    split at h <;> cases h
    rename_i hc
    refine hkeep (hnode (Node.sameUse_migrate hc.2 fun hr => ?_)) nofun
    exact hs.freeLocal hc.1 _ (Node.mem_table.mpr hr)
  | endStart caller =>
    cases h
    exact hkeep (hs.endStart ha caller) nofun
  | endPass k =>
    simp only [DcRef.step] at h
    split at h
    · rename_i q rest hk
      split at h <;> cases h
      rename_i hf
      exact hkeep ⟨hs.endPass hk hf, id⟩ nofun
    · cases h
  | endFinish k =>
    simp only [DcRef.step] at h
    split at h <;> cases h
    rename_i hk
    obtain ⟨h1, h2, h3⟩ := hs.endFinish hk
    exact ⟨h1, fun _ => ⟨iff_of_true h3 ⟨k, rfl⟩, fun _ => h2⟩⟩
  | other n =>
    simp only [DcRef.step] at h
    split at h <;> cases h
    rename_i hap
    refine hkeep ⟨hs.apart hap, fun hr => ?_⟩ nofun
    show n.conf.dcFlags = 0
    rw [hap.1.1]
    exact hr

theorem sound_of_careful {n : Node} {k : ℤ} (h0 : n.conf.dcFlags ≠ 0) {s : DcRef}
    (h : Reach.Reachable step Careful { node := n, kref := k } s) : s.Sound := by
  have hinit : DcRef.Sound { node := n, kref := k } :=
    ⟨fun hr => absurd hr h0, fun _ => rfl, Nat.zero_le _, (fun _ h => by cases h),
      fun hr => absurd hr h0⟩
  exact h.invariant hinit fun _ _ _ hs ha ht => (hs.step ha ht).1

/-- **The counter of a DC that runs is one more than the number of its processes**, in every run of
careful steps. -/
theorem kref_of_careful {n : Node} {k : ℤ} (h0 : n.conf.dcFlags ≠ 0) {s : DcRef}
    (h : Reach.Reachable step Careful { node := n, kref := k } s) :
    (s.Running → s.kref = 1 + s.bound) ∧
      ∀ a t, s.Careful a → s.step a = some t → s.Running →
        (¬ t.Running ↔ Ends a) ∧ (¬ t.Running → s.bound = 0) := by
  have hs := sound_of_careful h0 h
  exact ⟨hs.count, fun a t ha ht => (hs.step ha ht).2⟩

def noDc : Node where
  conf := { Conf.sample 0 with dcFlags := dcFree }
  proc := fun _ => {}
  sproxy := fun _ => {}
  rproxy := fun _ => {}

def selfBinds (ep : ℤ) : DcOp :=
  .bind .selfBind 1000 ep localNode { current := true, leader := true }

/-- A DC with two processes, of which one leaves. -/
theorem kref_two_processes :
    ∃ s, (Reach.Reachable step Careful { node := noDc, kref := 0 } s ∧ s.bound = 1) ∧
      (s.Running → s.kref = 1 + s.bound) := by
  obtain ⟨s, hs, ht⟩ := Reach.exists_reachable_of_exec step Careful { node := noDc, kref := 0 }
    (fun s => decide (s.bound = 1))
    [.init 2 6 4 false none, selfBinds 1, selfBinds 3, .unbind (.proc 1) 1 0] (by decide)
  exact ⟨s, ⟨hs, of_decide_eq_true ht⟩, (kref_of_careful (by decide) hs).1⟩

/-- A replica that takes over the slot of a process takes a second reference. -/
theorem replica_over_bound_slot :
    ∃ s, Reach.Reachable step (fun _ _ => True) { node := noDc, kref := 0 } s ∧ s.Running ∧
      (s.bound = 1 ∧ s.kref = 3) ∧ s.kref ≠ 1 + s.bound := by
  obtain ⟨s, hs, ht⟩ := Reach.exists_reachable_of_exec step (fun _ _ => True)
    { node := noDc, kref := 0 }
    (fun s => decide (s.Running ∧ (s.bound = 1 ∧ s.kref = 3) ∧ s.kref ≠ 1 + s.bound))
    [.init 2 6 4 false none, selfBinds 1,
      .bind .replicaBind 1001 1 localNode { found := true, leader := true }] (by decide)
  exact ⟨s, hs, of_decide_eq_true ht⟩

end DcRef

end MolIpc
