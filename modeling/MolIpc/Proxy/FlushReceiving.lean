import Mathlib.Data.List.Forall2
import MolIpc.Ipc.Unbind

/-!
`flush_receiving_procs`: a node is disconnected, and the processes of all the DCs that wait for a
process of that node are woken up with an error. The loop writes `p_rcode` in the descriptor of
each local process, also of those that wait for something else.
-/

namespace MolIpc

namespace Proc

/-- One of the three tests of the loop: the bit is cleared, and a process with nothing more to wait
for is woken up. -/
def giveUp (p : Proc) (waits : Prop) [Decidable waits] (clear : Rts → Rts) : Proc :=
  if waits then { p with rts := clear p.rts }.upIfReady EMol.notconn else p

/-- The process waits for the answer to a copy command that it has sent to the node. -/
def copyCommand (p : Proc) (nodeid : ℤ) : Prop :=
  p.rts.oncopy = true ∧ p.endpoint = p.rmtcmd.vcopy.rqtr ∧ p.rmtcmd.dnode = nodeid

instance (p : Proc) (nodeid : ℤ) : Decidable (p.copyCommand nodeid) := by
  unfold copyCommand; infer_instance

end Proc

namespace Node

def peerOn (n : Node) (nodeid ep : ℤ) : Prop :=
  ep ≠ anyEp ∧ ep ≠ noneEp ∧ (n.proc (endpointP ep)).nodeid = nodeid

instance (n : Node) (nodeid ep : ℤ) : Decidable (n.peerOn nodeid ep) := by
  unfold peerOn; infer_instance

def receivesFrom (n : Node) (nodeid : ℤ) (p : Proc) : Prop :=
  p.rts.receiving = true ∧ n.peerOn nodeid p.getfrom

instance (n : Node) (nodeid : ℤ) (p : Proc) : Decidable (n.receivesFrom nodeid p) := by
  unfold receivesFrom; infer_instance

def sendsTo (n : Node) (nodeid : ℤ) (p : Proc) : Prop :=
  p.rts.sending = true ∧ n.peerOn nodeid p.sendto

instance (n : Node) (nodeid : ℤ) (p : Proc) : Decidable (n.sendsTo nodeid p) := by
  unfold sendsTo; infer_instance

def flushProc (n : Node) (nodeid : ℤ) (p : Proc) : Proc :=
  if p.rts.slotFree ∨ p.rts.remote then p
  else
    let p := { p with rcode := EMol.notconn }
    let p := p.giveUp (n.receivesFrom nodeid p) fun r => { r with receiving := false }
    let p := p.giveUp (n.sendsTo nodeid p) fun r => { r with sending := false }
    p.giveUp (p.copyCommand nodeid) fun r => { r with oncopy := false }

def flushDc (n : Node) (nodeid : ℤ) : Node :=
  if n.conf.dcFlags ≠ 0 then n
  else n.table.foldl (fun m i => m.modProc i (m.flushProc nodeid)) n

/-- `flush_receiving_procs(nodeid)`, for the DCs of the node. -/
def flushReceivingProcs (dcs : List Node) (nodeid : ℤ) : List Node := dcs.map (·.flushDc nodeid)

end Node

/-! ### One process -/

theorem Rts.ne_running_of_sending {r : Rts} (h : r.sending = true) : r ≠ Rts.running := by
  rintro rfl
  cases h

theorem Rts.ne_running_of_oncopy {r : Rts} (h : r.oncopy = true) : r ≠ Rts.running := by
  rintro rfl
  cases h

namespace Proc

/-- What a process is told when the node is gone on which it waits: to receive, to send or to
copy. -/
def disconnected (p : Proc) (receive send copy : Bool) : Proc :=
  { p with
    rts := { p.rts with
      receiving := p.rts.receiving && !receive, sending := p.rts.sending && !send
      oncopy := p.rts.oncopy && !copy }
    rcode := EMol.notconn }.upIfReady EMol.notconn

theorem disconnected_oncopy (p : Proc) (receive send copy : Bool) :
    (p.disconnected receive send copy).rts.oncopy = (p.rts.oncopy && !copy) := by
  unfold disconnected
  rw [upIfReady_rts]

theorem upIfReady_of_ne {p : Proc} (h : p.rts ≠ Rts.running) (code : ℤ) : p.upIfReady code = p :=
  if_neg h

theorem upIfReady_field {α : Type*} (g : Proc → α) (hg : ∀ p code, g (up p code) = g p) (p : Proc)
    (code : ℤ) : g (p.upIfReady code) = g p := by
  unfold upIfReady
  split
  · exact hg p code
  · rfl

end Proc

namespace Node

section OneProcess

variable {n : Node} {nodeid : ℤ} {p : Proc}

theorem giveUp_giveUp {first second : Prop} [Decidable first] [Decidable second]
    {clear clear' : Rts → Rts} (h : second → clear p.rts ≠ Rts.running) :
    (p.giveUp first clear).giveUp second clear' =
      p.giveUp (first ∨ second) fun r =>
        (if second then clear' else id) ((if first then clear else id) r) := by
  by_cases h2 : second
  · have hstays : { p with rts := clear p.rts }.upIfReady EMol.notconn =
        { p with rts := clear p.rts } := Proc.upIfReady_of_ne (h h2) _
    by_cases h1 : first <;> simp [Proc.giveUp, h1, h2, hstays]
  · by_cases h1 : first <;> simp [Proc.giveUp, h1, h2]

theorem sendsTo_giveUp (waits : Prop) [Decidable waits] :
    n.sendsTo nodeid (p.giveUp waits fun r => { r with receiving := false }) ↔
      n.sendsTo nodeid p := by
  unfold Proc.giveUp sendsTo
  split
  · rw [Proc.upIfReady_rts, Proc.upIfReady_field Proc.sendto fun _ _ => rfl]
  · rfl

theorem giveUp_oncopy (waits : Prop) [Decidable waits] {clear : Rts → Rts}
    (hc : ∀ r, (clear r).oncopy = r.oncopy) : (p.giveUp waits clear).rts.oncopy = p.rts.oncopy := by
  unfold Proc.giveUp
  split
  · rw [Proc.upIfReady_rts, hc]
  · rfl

theorem copyCommand_giveUp (waits : Prop) [Decidable waits] {clear : Rts → Rts}
    (hc : ∀ r, (clear r).oncopy = r.oncopy) :
    (p.giveUp waits clear).copyCommand nodeid ↔ p.copyCommand nodeid := by
  unfold Proc.copyCommand
  rw [giveUp_oncopy waits hc]
  unfold Proc.giveUp
  split
  · rw [Proc.upIfReady_endpoint, Proc.upIfReady_rmtcmd]
  · rfl

theorem flushProc_eq (hf : p.rts.slotFree = false) (hr : p.rts.remote = false) :
    n.flushProc nodeid p =
      if n.receivesFrom nodeid p ∨ n.sendsTo nodeid p ∨ p.copyCommand nodeid then
        p.disconnected (decide (n.receivesFrom nodeid p)) (decide (n.sendsTo nodeid p))
          (decide (p.copyCommand nodeid))
      else { p with rcode := EMol.notconn } := by
  -- the tests do not look at what is changed before them
  have hR : n.receivesFrom nodeid { p with rcode := EMol.notconn } ↔ n.receivesFrom nodeid p :=
    Iff.rfl
  have hS : n.sendsTo nodeid { p with rcode := EMol.notconn } ↔ n.sendsTo nodeid p := Iff.rfl
  have hC : { p with rcode := EMol.notconn }.copyCommand nodeid ↔ p.copyCommand nodeid := Iff.rfl
  unfold flushProc
  rw [if_neg (by simp [hf, hr])]
  simp only [copyCommand_giveUp, implies_true, sendsTo_giveUp, hR, hS, hC]
  rw [giveUp_giveUp, giveUp_giveUp]
  · simp only [Proc.giveUp, Proc.disconnected]
    by_cases hr : n.receivesFrom nodeid p <;> by_cases hs : n.sendsTo nodeid p <;>
      by_cases hc : p.copyCommand nodeid <;> simp [hr, hs, hc]
  · rintro (hs | hc)
    · refine Rts.ne_running_of_sending ?_
      exact hs.1
    · refine Rts.ne_running_of_oncopy ?_
      exact hc.1
  · intro hc
    refine Rts.ne_running_of_oncopy ?_
    rw [giveUp_oncopy]
    · exact hc.1
    · exact fun _ => rfl

/-- The process asked for a copy that is not finished, and one party is a process of the node. -/
def copiesWith (n : Node) (nodeid : ℤ) (p : Proc) (copy : Option VcopyCall) : Prop :=
  p.rts.oncopy = true ∧
    copy.any fun v => (n.proc v.srcNr).nodeid = nodeid ∨ (n.proc v.dstNr).nodeid = nodeid

instance (n : Node) (nodeid : ℤ) (p : Proc) (copy : Option VcopyCall) :
    Decidable (n.copiesWith nodeid p copy) := by
  unfold copiesWith; infer_instance

def dependsOn (n : Node) (nodeid : ℤ) (p : Proc) (copy : Option VcopyCall) : Prop :=
  n.receivesFrom nodeid p ∨ n.sendsTo nodeid p ∨ n.copiesWith nodeid p copy

instance (n : Node) (nodeid : ℤ) (p : Proc) (copy : Option VcopyCall) :
    Decidable (n.dependsOn nodeid p copy) := by
  unfold dependsOn; infer_instance

/-- What a bound local process should find in its descriptor when the node is gone. -/
def told (n : Node) (nodeid : ℤ) (p : Proc) (copy : Option VcopyCall) : Proc :=
  if n.dependsOn nodeid p copy then
    p.disconnected (n.receivesFrom nodeid p) (n.sendsTo nodeid p) (n.copiesWith nodeid p copy)
  else p

theorem flushProc_oncopy (hf : p.rts.slotFree = false) (hr : p.rts.remote = false) :
    (n.flushProc nodeid p).rts.oncopy = (p.rts.oncopy && !decide (p.copyCommand nodeid)) := by
  rw [flushProc_eq hf hr]
  split
  · exact Proc.disconnected_oncopy ..
  · rename_i h
    have hC : ¬ p.copyCommand nodeid := fun hc => h (.inr (.inr hc))
    simp [hC]

theorem told_oncopy (copy : Option VcopyCall) :
    (n.told nodeid p copy).rts.oncopy =
      (p.rts.oncopy && !decide (n.copiesWith nodeid p copy)) := by
  unfold told
  split
  · exact Proc.disconnected_oncopy ..
  · rename_i h
    have hC : ¬ n.copiesWith nodeid p copy := fun hc => h (.inr (.inr hc))
    simp [hC]

theorem flushProc_eq_told_iff (hf : p.rts.slotFree = false) (hr : p.rts.remote = false)
    (copy : Option VcopyCall) :
    n.flushProc nodeid p = n.told nodeid p copy ↔
      (p.copyCommand nodeid ↔ n.copiesWith nodeid p copy) ∧
        (n.dependsOn nodeid p copy ∨ p.rcode = EMol.notconn) := by
  have hdep : (p.copyCommand nodeid ↔ n.copiesWith nodeid p copy) →
      (n.receivesFrom nodeid p ∨ n.sendsTo nodeid p ∨ p.copyCommand nodeid ↔
        n.dependsOn nodeid p copy) :=
    fun hon => or_congr_right (or_congr_right hon)
  constructor
  · intro he
    have hon : p.copyCommand nodeid ↔ n.copiesWith nodeid p copy := by
      have hbit : (n.flushProc nodeid p).rts.oncopy = (n.told nodeid p copy).rts.oncopy := by
        rw [he]
      rw [flushProc_oncopy hf hr, told_oncopy] at hbit
      constructor
      · intro hT
        simpa [hT.1, hT] using hbit
      · intro hC
        simpa [hC.1, hC] using hbit
    refine ⟨hon, or_iff_not_imp_left.2 fun hd => ?_⟩
    rw [flushProc_eq hf hr, if_neg (mt (hdep hon).1 hd), told, if_neg hd] at he
    rw [← he]
  · rintro ⟨hon, hd⟩
    rw [flushProc_eq hf hr, told]
    by_cases h : n.dependsOn nodeid p copy
    · rw [if_pos ((hdep hon).2 h), if_pos h, decide_eq_decide.2 hon]
    · rw [if_neg (mt (hdep hon).1 h), if_neg h, ← hd.resolve_left h]

theorem told_eq_self_iff (copy : Option VcopyCall) :
    n.told nodeid p copy = p ↔ ¬ n.dependsOn nodeid p copy := by
  unfold told
  split
  · rename_i hd
    refine iff_of_false (fun he => ?_) (not_not_intro hd)
    have hrts : ∀ b : Rts → Bool, b (p.disconnected _ _ _).rts = b p.rts := fun b => by rw [he]
    rcases hd with hR | hS | hC
    · simpa [Proc.disconnected, hR, hR.1] using hrts Rts.receiving
    · simpa [Proc.disconnected, hS, hS.1] using hrts Rts.sending
    · simpa [Proc.disconnected, hC, hC.1] using hrts Rts.oncopy
  · rename_i hd
    exact iff_of_true rfl hd

end OneProcess

/-! ### The loop -/

section Loop

variable {n m : Node} {nodeid : ℤ}

theorem giveUp_nodeid (p : Proc) (waits : Prop) [Decidable waits] (clear : Rts → Rts) :
    (p.giveUp waits clear).nodeid = p.nodeid := by
  unfold Proc.giveUp
  split
  · exact Proc.upIfReady_field Proc.nodeid (fun _ _ => rfl) _ _
  · rfl

theorem flushProc_nodeid (p : Proc) : (n.flushProc nodeid p).nodeid = p.nodeid := by
  unfold flushProc
  split
  · rfl
  · rw [giveUp_nodeid, giveUp_nodeid, giveUp_nodeid]

theorem flushProc_congr (h : ∀ q, (m.proc q).nodeid = (n.proc q).nodeid) (p : Proc) :
    m.flushProc nodeid p = n.flushProc nodeid p := by
  have hpeer : ∀ ep, m.peerOn nodeid ep ↔ n.peerOn nodeid ep := fun ep => by
    unfold peerOn
    rw [h]
  have hR : m.receivesFrom nodeid p ↔ n.receivesFrom nodeid p := and_congr_right fun _ => hpeer _
  have hS : m.sendsTo nodeid p ↔ n.sendsTo nodeid p := and_congr_right fun _ => hpeer _
  by_cases hp : p.rts.slotFree = true ∨ p.rts.remote = true
  · rw [flushProc, if_pos hp, flushProc, if_pos hp]
  · rw [not_or, Bool.not_eq_true, Bool.not_eq_true] at hp
    rw [flushProc_eq hp.1 hp.2, flushProc_eq hp.1 hp.2]
    simp only [hR, hS]

theorem foldl_flushProc (xs : List ℤ) : ∀ n : Node, xs.Nodup → ∀ q,
    (xs.foldl (fun m i => m.modProc i (m.flushProc nodeid)) n).proc q =
      if q ∈ xs then n.flushProc nodeid (n.proc q) else n.proc q := by
  induction xs with
  | nil => simp
  | cons x xs ih =>
    intro n hd q
    rw [List.nodup_cons] at hd
    rw [List.foldl_cons, ih _ hd.2]
    have hnode : ∀ q, ((n.modProc x (n.flushProc nodeid)).proc q).nodeid = (n.proc q).nodeid :=
      fun q => modProc_field x q Proc.nodeid flushProc_nodeid
    rw [flushProc_congr hnode]
    by_cases hq : q = x
    · subst hq
      rw [if_neg hd.1, if_pos List.mem_cons_self, modProc_same]
    · simp only [modProc_of_ne _ _ hq, List.mem_cons, hq, false_or]

theorem flushDc_proc (hrun : n.conf.dcFlags = 0) (q : ℤ) :
    (n.flushDc nodeid).proc q =
      if q ∈ n.table then n.flushProc nodeid (n.proc q) else n.proc q := by
  unfold flushDc
  rw [if_neg (not_not_intro hrun)]
  exact foldl_flushProc _ n n.table_nodup q

end Loop

end Node

/-! ### All the DCs -/

/-- A DC: its descriptors, and the copies of its processes that are not finished. -/
structure CopyingDc where
  node : Node
  copies : ℤ → Option VcopyCall

namespace CopyingDc

def Local (d : CopyingDc) (i : ℤ) : Prop :=
  i ∈ d.node.table ∧ (d.node.proc i).rts.slotFree = false ∧ (d.node.proc i).rts.remote = false

def Depends (d : CopyingDc) (nodeid i : ℤ) : Prop :=
  d.node.dependsOn nodeid (d.node.proc i) (d.copies i)

instance (d : CopyingDc) (nodeid i : ℤ) : Decidable (d.Depends nodeid i) := by
  unfold Depends; infer_instance

/-- The local processes that wait for the node are told that it is gone, and nobody else is. -/
structure OnlyDependents (d : CopyingDc) (nodeid : ℤ) (n : Node) : Prop where
  told (i : ℤ) : d.Local i → d.Depends nodeid i → n.proc i =
    (d.node.proc i).disconnected (d.node.receivesFrom nodeid (d.node.proc i))
      (d.node.sendsTo nodeid (d.node.proc i))
      (d.node.copiesWith nodeid (d.node.proc i) (d.copies i))
  other (i : ℤ) : ¬ (d.Local i ∧ d.Depends nodeid i) → n.proc i = d.node.proc i

/-- In a running DC the test on copies is right, and the process waits for the node or has its
result already; in another DC it does not wait. -/
def Flushable (d : CopyingDc) (nodeid i : ℤ) : Prop :=
  if d.node.conf.dcFlags = 0 then
    ((d.node.proc i).copyCommand nodeid ↔
      d.node.copiesWith nodeid (d.node.proc i) (d.copies i)) ∧
    (d.Depends nodeid i ∨ (d.node.proc i).rcode = EMol.notconn)
  else ¬ d.Depends nodeid i

theorem onlyDependents_iff {d : CopyingDc} {nodeid : ℤ} {n : Node}
    (h : ∀ i, ¬ d.Local i → n.proc i = d.node.proc i) :
    d.OnlyDependents nodeid n ↔
      ∀ i, d.Local i → n.proc i = d.node.told nodeid (d.node.proc i) (d.copies i) := by
  constructor
  · intro ho i hi
    by_cases hd : d.Depends nodeid i
    · exact (ho.told i hi hd).trans (if_pos hd).symm
    · exact (ho.other i fun h => hd h.2).trans (if_neg hd).symm
  · intro ht
    refine ⟨fun i hi hd => (ht i hi).trans (if_pos hd), fun i hi => ?_⟩
    by_cases hl : d.Local i
    · exact (ht i hl).trans (if_neg fun hd => hi ⟨hl, hd⟩)
    · exact h i hl

theorem flushDc_onlyDependents_iff (d : CopyingDc) (nodeid : ℤ) :
    d.OnlyDependents nodeid (d.node.flushDc nodeid) ↔ ∀ i, d.Local i → d.Flushable nodeid i := by
  by_cases hrun : d.node.conf.dcFlags = 0
  · rw [onlyDependents_iff]
    · refine forall₂_congr fun i hi => ?_
      rw [Node.flushDc_proc hrun, if_pos hi.1, Node.flushProc_eq_told_iff hi.2.1 hi.2.2, Flushable,
        if_pos hrun]
      rfl
    · intro i hi
      rw [Node.flushDc_proc hrun]
      split
      · rename_i ht
        have hskip : (d.node.proc i).rts.slotFree = true ∨ (d.node.proc i).rts.remote = true := by
          by_contra hn
          rw [not_or, Bool.not_eq_true, Bool.not_eq_true] at hn
          exact hi ⟨ht, hn⟩
        rw [Node.flushProc, if_pos hskip]
      · rfl
  · have hsame : d.node.flushDc nodeid = d.node := by rw [Node.flushDc, if_pos hrun]
    rw [hsame, onlyDependents_iff fun _ _ => rfl]
    refine forall₂_congr fun i _ => ?_
    rw [eq_comm, Node.told_eq_self_iff, Flushable, if_neg hrun]
    rfl

/-- **The disconnection of a node is told to those who wait for it, and to nobody else**, iff the
loop can flush each of the processes. -/
theorem flushReceivingProcs_iff (dcs : List CopyingDc) (nodeid : ℤ) :
    List.Forall₂ (fun d n => d.OnlyDependents nodeid n) dcs
        (Node.flushReceivingProcs (dcs.map (·.node)) nodeid) ↔
      ∀ d ∈ dcs, ∀ i, d.Local i → d.Flushable nodeid i := by
  unfold Node.flushReceivingProcs
  rw [List.map_map, List.forall₂_map_right_iff, List.forall₂_same]
  exact forall₂_congr fun d _ => flushDc_onlyDependents_iff d nodeid

/-! ### A process that waits for somebody else -/

def waiterSample : Node where
  conf := Conf.sample 0
  proc := fun q => if q = 5 then Proc.sample 0 5 {} else {}
  sproxy := Proc.sampleProxy
  rproxy := Proc.sampleProxy

theorem wake_receive {n : Node} {c src timeout w cp code : ℤ} (ht : 0 ≤ timeout)
    (h : (n.proc c).sleepResult timeout w = code) (hc : code ≠ EMol.ok) :
    (n.wake c (.receive src) .message timeout w cp).map (·.2) = some (.ret code) := by
  have ht' : ¬ timeout < 0 := by omega
  simp [Node.wake, h, hc, ht', Node.resume, Node.receiveEnd]

/-- The process 5 receives from anybody with a timeout. When node 1 is disconnected, the call
returns that it is not connected. -/
theorem disconnect_of_another :
    ∃ n, waiterSample.call 5 (.receive anyEp) {} 1000 0 =
        some (n, .sleep (.receive anyEp) .message) ∧
      ¬ (⟨n, fun _ => none⟩ : CopyingDc).Depends 1 5 ∧
      (n.wake 5 (.receive anyEp) .message 1000 0 0).map (·.2) = some (.ret EMol.timedout) ∧
      ((n.flushDc 1).wake 5 (.receive anyEp) .message 1000 0 0).map (·.2) =
        some (.ret EMol.notconn) ∧
      ¬ (⟨n, fun _ => none⟩ : CopyingDc).OnlyDependents 1 (n.flushDc 1) := by
  let n := (waiterSample.blockReceiving 5 anyEp).modProc 5 Proc.fallAsleep
  have hproc : (n.flushDc 1).proc 5 = n.flushProc 1 (n.proc 5) :=
    (Node.flushDc_proc rfl 5).trans (if_pos (Node.mem_table.2 (by decide)))
  have hrcode : ((n.flushDc 1).proc 5).rcode = EMol.notconn := by
    rw [hproc]
    decide
  refine ⟨n, rfl, by decide, rfl, wake_receive (by decide) ?_ (by decide), fun h => ?_⟩
  · rw [Proc.sleepResult, hrcode]
    rfl
  · have hsame := congrArg Proc.rcode (h.other 5 fun hd => absurd hd.2 (by decide))
    exact absurd (hrcode.symm.trans hsame) (by decide)

end CopyingDc

end MolIpc
