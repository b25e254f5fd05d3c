import MolIpc.Net.TwoNodeRun

/-!
Correctness of the remote copy between two nodes.

A copy goes on chunk by chunk until nothing is left of it, whatever the rest of the cluster does
in between. The one thing that can stop it is a message of `q` that waits in the queue of a process
of node `a`: `mm_vcopy` does not look at the bit `SENDING` of a remote party, and `mm_put2lcl`
takes no answer from a process that has it.
-/

namespace MolIpc

namespace Duo

open Cluster CopyState

def call (X : Duo) (dir : Dir) (saddr daddr : ℕ) (bytes : ℤ) : VcopyCall :=
  ⟨(X.ends dir).1, (X.ends dir).2, saddr, daddr, bytes⟩

structure Idle (X : Duo) (c : Cluster) : Prop where
  nodeA : X.NodeA Rts.running false X.memL (c.node X.a)
  nodeB : X.NodeB X.flagsRb X.memQ (c.node X.b)
  token : At X.ours c .nowhere

structure Done (X : Duo) (dir : Dir) (v₀ : VcopyCall) (c : Cluster) : Prop where
  nodeA : X.NodeA Rts.running false (X.memL' v₀ 0 dir) (c.node X.a)
  nodeB : X.NodeB X.flagsRb (X.memQ' v₀ 0 dir) (c.node X.b)
  token : At X.ours c .nowhere

section Correct

variable {X : Duo} {dir : Dir} {v₀ v : VcopyCall} {len : ℤ} {c : Cluster} {i j : ℕ}
  {unbind : Node → ℤ → Node}

/-! ### The requester's moves -/

theorem Stage.sem (hst : X.Stage dir v₀ v len i c) :
    0 ≤ ((c.node X.a).proc X.r).pseudosem ↔ i = 1 := by
  cases hst with
  | queued _ _ hs | taken _ _ hs | sent _ _ hs | served _ _ hs | answering _ _ hs
  | answered _ _ hs | woken _ _ hs => simp [hs.sem]

theorem Chunk.next (hX : X.Wf) (hch : X.Chunk dir v₀ v len) (hlt : len < v.bytes) :
    X.Chunk dir v₀ (v.advance len) (min (X.ca.maxbytes X.b) (v.bytes - len)) := by
  have hr := hch.rest
  have hpos := hch.pos
  have hmax := hX.pos
  have hle := hr.le
  refine ⟨⟨hr.src, hr.dst, ?_, ?_, ?_, ?_⟩, by omega, ?_, by omega⟩
  all_goals simp only [VcopyCall.advance]
  · have := hr.saddr
    omega
  · have := hr.daddr
    omega
  all_goals omega

theorem Issued.stage {n : Node} (hX : X.Wf) (hat : At X.ours c .nowhere)
    (hi : X.Issued dir v len (X.memL' v₀ v.bytes dir) (c.node X.a) n)
    (hb : X.NodeB X.flagsRb (X.memQ' v₀ v.bytes dir) (c.node X.b)) :
    X.Stage dir v₀ v len 7 (c.setNode X.a n) := by
  refine .queued ?_ ?_ ?_ ?_ (hat.enqueue ours_r hi.queue)
  · rw [setNode_node_same]; exact hi.node
  · rw [setNode_node_of_ne _ _ hX.ne_ab.symm]; exact hb
  · rw [setNode_node_same]; exact hi.sleeps
  · rw [setNode_node_same]; exact hi.hdr

theorem Stage.wake (hX : X.Wf) (hch : X.Chunk dir v₀ v len) (hst : X.Stage dir v₀ v len 1 c)
    {w : ℤ} (hw : 0 < w) (cp : ℕ → ℤ) :
    ∃ n' pc, (c.node X.a).vcopyWake X.r (.sleep v len) w cp = (n', pc) ∧
      ((∃ v' len', pc = .sleep v' len' ∧ v'.bytes = v.bytes - len ∧ X.Chunk dir v₀ v' len' ∧
          X.Stage dir v₀ v' len' 7 (c.setNode X.a n')) ∨
        pc = .ret EMol.ok ∧ X.Done dir v₀ (c.setNode X.a n')) := by
  cases hst with | woken ha hb hs hat => ?_
  obtain ⟨n', pc, hwake, ⟨hlt, rfl, hi⟩ | ⟨hge, rfl, hn', hsp⟩⟩ :=
    vcopyWake_ok hX ha hs hch.ends hw cp
  · exact ⟨n', _, hwake, .inl ⟨_, _, rfl, rfl, hch.next hX hlt, hi.stage hX hat hb⟩⟩
  · have hzero : v.bytes - len = 0 := by
      have := hch.le
      omega
    rw [hzero] at ha hb hn'
    refine ⟨n', _, hwake, .inr ⟨rfl, ?_, ?_, hat.setNode hsp⟩⟩
    · rw [setNode_node_same]; exact hn'
    · rw [setNode_node_of_ne _ _ hX.ne_ab.symm]; exact hb

/-! ### Whole runs -/

theorem chunked (hX : X.Wf) (hsend : X.flagsQ.sending = false) :
    Chunked unbind X.ours X.a X.r 7 (X.Chunk dir v₀) (X.Stage dir v₀) (X.Done dir v₀) where
  pos hch := ⟨hch.pos, hch.le⟩
  frame hst hf := hst.frame hf
  frame_done hd hf := ⟨hd.nodeA.frame hf, hd.nodeB.frame hf, hd.token.frame hf⟩
  own hch hst ho := hst.own hX (fun _ => hsend) hch ho
  own_done hd := hd.token.not_own
  exists_own hch hst hi := hst.exists_own hX (fun _ => hsend) hch hi
  sem hst := hst.sem
  wake hch hst hw cp := hst.wake hX hch hw cp

theorem Stage.reaches (hX : X.Wf) (hch : X.Chunk dir v₀ v len) (pc : VcopyNext)
    (hst : X.Stage dir v₀ v len 7 c) :
    ∃ k c', Run unbind X.ours X.a X.r k ⟨c, pc⟩ ⟨c', pc⟩ ∧ X.Stage dir v₀ v len 2 c' := by
  refine exists_run pc (fun {i c} hi hst => ?_) (by decide) hst
  have hsend : i = 2 → X.flagsQ.sending = false := fun h => by omega
  obtain ⟨c₁, c₂, hf, ho⟩ : ∃ c₁ c₂, Frame X.ours c c₁ ∧ Own unbind X.ours c₁ c₂ :=
    hst.exists_own hX hsend hch (by omega)
  obtain ⟨j, rfl, hst₂⟩ := (hst.frame hf).own hX hsend hch ho
  exact ⟨c₁, c₂, hf, ho, hst₂⟩

theorem Stage.lost (hX : X.Wf) (hsend : X.flagsQ.sending = true)
    (hst : X.Stage dir v₀ v len 2 c) (pc : VcopyNext) :
    ∃ k s, Run unbind X.ours X.a X.r k ⟨c, pc⟩ s ∧
      ∀ k' s', Run unbind X.ours X.a X.r k' s s' → s'.pc = pc := by
  cases hst with | @answered _ h pay ha hb hs hh hp hat => ?_
  obtain ⟨c₁, hf, hfront⟩ := hat.exists_front
  have ha₁ := ha.frame hf
  have hpa : (c₁.node X.a).conf.nProxies X.b = X.pa := by rw [ha₁.conf]; rfl
  have hput : (c₁.node X.a).put2lcl ((c₁.node X.a).conf.nProxies X.b) h pay 0 =
      some (c₁.node X.a, EMol.enqueued) := by
    rw [hpa]
    rw [put_ack_cmd hX ha₁ hh, hsend]
    rfl
  obtain ⟨c₂, hd, ho⟩ : ∃ c₂, c₁.deliver unbind X.a X.b = some (c₂, EMol.enqueued) ∧
      Own unbind X.ours c₁ c₂ := Own.exists_deliver hfront (oursHdr_ack hX hh) hput
  have hat₁ := hat.frame hf
  obtain ⟨-, hnode, hat₂⟩ := hat₁.deliver_done hfront hput (Node.unbinds_of_ok hh.rcode) hd rfl
  refine ⟨_, _, .move (.env (.refl _) hf) (.proxy ho), fun k' s' hrun => ?_⟩
  refine hrun.stuck hat₂ ours_r ?_
  have hsem : ((c₂.node X.a).proc X.r).pseudosem = -1 := by
    rw [hnode, Function.update_self]
    exact (hs.frame hf).sem
  exact hsem ▸ by decide

end Correct

/-! ### The call -/

def start (X : Duo) (c : Cluster) (srcEp : ℤ) (saddr : ℕ) (dstEp : ℤ) (daddr : ℕ) (bytes : ℤ)
    (cp : ℕ → ℤ) : Option CopyState :=
  ((c.node X.a).vcopyStart X.r srcEp saddr dstEp daddr bytes cp).map fun r =>
    ⟨c.setNode X.a r.1, r.2⟩

def Involved (X : Duo) (k i : ℤ) : Prop :=
  k = X.a ∧ (i = X.r ∨ i = X.l ∨ i = X.q) ∨ k = X.b ∧ (i = X.r ∨ i = X.q)

/-- The bytes have been copied, nothing else has changed, and nobody is marked as taking part in a
copy. -/
structure Finished (X : Duo) (dir : Dir) (v₀ : VcopyCall) (c : Cluster) : Prop where
  memL : ((c.node X.a).proc X.l).mem = match dir with
    | .copyin => X.memL
    | .copyout => X.memL.blit v₀.daddr X.memQ v₀.saddr v₀.bytes.toNat
  memQ : ((c.node X.b).proc X.q).mem = match dir with
    | .copyin => X.memQ.blit v₀.daddr X.memL v₀.saddr v₀.bytes.toNat
    | .copyout => X.memQ
  clear : ∀ k i, X.Involved k i →
    ((c.node k).proc i).rts.oncopy = false ∧ ((c.node k).proc i).rts.rmtoper = false

/-- The copy takes a bounded number of moves, can go on until it returns, and returns `OK` with its
work done. -/
def Correct (X : Duo) (unbind : Node → ℤ → Node) (dir : Dir) (v₀ : VcopyCall) (s₀ : CopyState) :
    Prop :=
  ∀ k s, Run unbind X.ours X.a X.r k s₀ s →
    k ≤ 7 * v₀.bytes.toNat ∧
      (∀ code, s.pc = .ret code → code = EMol.ok ∧ X.Finished dir v₀ s.cl) ∧
      ∃ j s', Run unbind X.ours X.a X.r j s s' ∧ s'.pc = .ret EMol.ok

section Call

variable {X : Duo} {dir : Dir} {v₀ : VcopyCall} {c : Cluster} {unbind : Node → ℤ → Node}

theorem Done.finished (hX : X.Wf) (hd : X.Done dir v₀ c) : X.Finished dir v₀ c := by
  refine ⟨?_, ?_, ?_⟩
  · rw [hd.nodeA.mem]
    cases dir <;> simp [memL']
  · rw [hd.nodeB.mem]
    cases dir <;> simp [memQ']
  · have hR : ((c.node X.a).proc X.r).rts = Rts.running := hd.nodeA.descR.rts
    rintro k i (⟨rfl, rfl | rfl | rfl⟩ | ⟨rfl, rfl | rfl⟩)
    · rw [hR]
      exact ⟨rfl, rfl⟩
    · by_cases hl : X.l = X.r
      · rw [hl, hR]
        exact ⟨rfl, rfl⟩
      · rw [(hd.nodeA.descL hl).rts]
        exact ⟨rfl, (hX.freeL hl).1.rmtoper⟩
    · rw [hd.nodeA.descQ.rts]
      exact ⟨rfl, hX.freeQ.1.rmtoper⟩
    · rw [hd.nodeB.descR.rts]
      exact ⟨hX.freeRb.1.oncopy, hX.freeRb.1.rmtoper⟩
    · rw [hd.nodeB.descQ.rts]
      exact ⟨hX.freeQb.1.oncopy, hX.freeQb.1.rmtoper⟩

theorem start_stage (hX : X.Wf) (hc : X.Idle c) {srcEp dstEp : ℤ} (hargs : X.Args srcEp dstEp dir)
    (saddr daddr : ℕ) {bytes : ℤ} (hpos : 0 < bytes) (hmax : bytes ≤ X.ca.dMaxCopylen)
    (cp : ℕ → ℤ) :
    ∃ c₀ len, X.start c srcEp saddr dstEp daddr bytes cp =
        some ⟨c₀, .sleep (X.call dir saddr daddr bytes) len⟩ ∧
      X.Chunk dir (X.call dir saddr daddr bytes) (X.call dir saddr daddr bytes) len ∧
      X.Stage dir (X.call dir saddr daddr bytes) (X.call dir saddr daddr bytes) len 7 c₀ := by
  have hL : X.memL' (X.call dir saddr daddr bytes) bytes dir = X.memL := by
    cases dir <;> simp [memL', call]
  have hQ : X.memQ' (X.call dir saddr daddr bytes) bytes dir = X.memQ := by
    cases dir <;> simp [memQ', call]
  obtain ⟨n', hstart, hi⟩ := vcopyStart_ok hX hc.nodeA hargs saddr daddr hpos hmax cp
  have hblock := hX.pos
  refine ⟨c.setNode X.a n', _, by rw [start, hstart]; rfl, ⟨⟨rfl, rfl, ?_, ?_, ?_, ?_⟩, ?_, ?_, ?_⟩,
    Issued.stage hX hc.token (?_ : X.Issued dir _ _ _ _ _) (?_ : X.NodeB _ _ _)⟩
  · simp
  · simp
  · exact Int.le_of_lt hpos
  · exact Int.le_refl _
  · omega
  · exact Int.min_le_right ..
  · exact Int.min_le_left ..
  · rw [show (X.call dir saddr daddr bytes).bytes = bytes from rfl, hL]
    exact hi
  · rw [show (X.call dir saddr daddr bytes).bytes = bytes from rfl, hQ]
    exact hc.nodeB

theorem Stage.correct (hX : X.Wf) (hsend : X.flagsQ.sending = false) {len : ℤ}
    (hch : X.Chunk dir v₀ v₀ len) (hst : X.Stage dir v₀ v₀ len 7 c) :
    X.Correct unbind dir v₀ ⟨c, .sleep v₀ len⟩ := by
  intro k s hrun
  obtain ⟨hk, hphase, hret⟩ := (chunked hX hsend).run hch hst hrun
  refine ⟨hk, fun code hcode => ?_, hret⟩
  obtain ⟨v', len', i, hpc, -⟩ | ⟨hpc, hd⟩ := hphase
  · exact absurd (hpc.symm.trans hcode) (by simp)
  · obtain rfl : EMol.ok = code := by simpa using hpc.symm.trans hcode
    exact ⟨rfl, hd.finished hX⟩

theorem Stage.not_correct (hX : X.Wf) (hsend : X.flagsQ.sending = true) {len : ℤ}
    (hch : X.Chunk dir v₀ v₀ len) (hst : X.Stage dir v₀ v₀ len 7 c) :
    ¬ X.Correct unbind dir v₀ ⟨c, .sleep v₀ len⟩ := by
  intro hcorrect
  obtain ⟨k, c', hrun, hst'⟩ : ∃ k c', Run unbind X.ours X.a X.r k ⟨c, .sleep v₀ len⟩
      ⟨c', .sleep v₀ len⟩ ∧ X.Stage dir v₀ v₀ len 2 c' :=
    hst.reaches hX hch (.sleep v₀ len)
  obtain ⟨k', s, hrun', hstuck⟩ : ∃ k' s, Run unbind X.ours X.a X.r k' ⟨c', .sleep v₀ len⟩ s ∧
      ∀ k'' s', Run unbind X.ours X.a X.r k'' s s' → s'.pc = .sleep v₀ len :=
    hst'.lost hX hsend (.sleep v₀ len)
  obtain ⟨-, -, j, s', hret, hpc⟩ := hcorrect _ _ (hrun.trans hrun')
  exact absurd ((hstuck _ _ hret).symm.trans hpc) (by simp)

/-- **The remote copy between two nodes is correct iff no message of the remote process waits on
the node of the requester.** -/
theorem vcopy_two_nodes_iff (hX : X.Wf) (hc : X.Idle c) {srcEp dstEp : ℤ}
    (hargs : X.Args srcEp dstEp dir) (saddr daddr : ℕ) {bytes : ℤ} (hpos : 0 < bytes)
    (hmax : bytes ≤ X.ca.dMaxCopylen) (cp : ℕ → ℤ) (unbind : Node → ℤ → Node) :
    ∃ s₀, X.start c srcEp saddr dstEp daddr bytes cp = some s₀ ∧
      (X.Correct unbind dir (X.call dir saddr daddr bytes) s₀ ↔ X.flagsQ.sending = false) := by
  obtain ⟨c₀, len, hstart, hch, hst⟩ := start_stage hX hc hargs saddr daddr hpos hmax cp
  refine ⟨_, hstart, fun h => ?_, fun h => hst.correct hX h hch⟩
  cases hsend : X.flagsQ.sending with
  | false => rfl
  | true => exact absurd h (hst.not_correct hX hsend hch)

end Call

/-- Process 1 of node 0 copies to 2 of node 1, which is in a `sendrec` to a process of node 0;
`queued` says whether its message still waits there. -/
def sample (queued : Bool) : Duo where
  a := 0
  b := 1
  ca := Conf.sample 0
  cb := Conf.sample 1
  r := 1
  l := 1
  q := 2
  er := 1
  el := 1
  eq := 2
  flagsL := Rts.running
  flagsQ := { remote := true, receiving := true, sending := queued }
  flagsRb := { remote := true }
  flagsQb := { receiving := true }
  memL := fun _ => 7
  memQ := fun _ => 0

def sampleCluster (queued : Bool) : Cluster where
  node := fun k =>
    { conf := Conf.sample k
      proc := fun i =>
        if i = 1 then { Proc.sample 0 1 { remote := decide (k ≠ 0) } with mem := fun _ => 7 }
        else if i = 2 then
          Proc.sample 1 2 { remote := decide (k = 0), receiving := true
                            sending := queued && decide (k = 0) }
        else if i = 3 then
          { Proc.sample 0 3 { remote := decide (k ≠ 0) } with list := if queued then [2] else [] }
        else {}
      sproxy := Proc.sampleProxy
      rproxy := Proc.sampleProxy }
  hand := fun _ _ => none
  chan := fun _ _ => []

theorem sample_wf (queued : Bool) : (sample queued).Wf where
  ne_ab := by decide +revert
  localA := rfl
  localB := rfl
  endR := by decide +revert
  endL := by decide +revert
  endQ := by decide +revert
  ne_rq := by decide +revert
  ne_lq := by decide +revert
  self := fun _ => rfl
  special := by
    rintro e (rfl | rfl) <;> refine ⟨?_, ?_, ?_⟩ <;> decide +revert
  blocks := rfl
  pos := by decide +revert
  dcid := rfl
  dcidA := by decide +revert
  dcidB := by decide +revert
  runA := rfl
  runB := rfl
  rangeA := by decide +revert
  rangeB := by decide +revert
  nodesA := by decide +revert
  dcNodesA := ⟨rfl, rfl⟩
  dcNodesB := rfl
  nDcs := ⟨rfl, rfl⟩
  freeL := fun h => absurd rfl h
  freeQ := ⟨⟨rfl, rfl, rfl, rfl⟩, rfl⟩
  freeRb := ⟨⟨rfl, rfl, rfl, rfl⟩, rfl, rfl⟩
  freeQb := ⟨⟨rfl, rfl, rfl, rfl⟩, rfl, rfl, rfl⟩

theorem sample_idle (queued : Bool) : (sample queued).Idle (sampleCluster queued) where
  nodeA := by
    refine ⟨rfl, ⟨?_, rfl, rfl, rfl, ?_, rfl, rfl, rfl⟩, ⟨rfl, rfl, rfl⟩, rfl,
      fun h => absurd rfl h, ⟨rfl, rfl, ?_⟩, rfl⟩
    · decide +revert
    · rfl
    · cases queued <;> rfl
  nodeB := by
    refine ⟨rfl, ⟨?_, rfl, rfl, rfl, ?_, rfl, rfl, rfl⟩, ⟨rfl, rfl, rfl⟩, ⟨rfl, rfl, ?_⟩, rfl⟩
    · decide +revert
    · rfl
    · cases queued <;> rfl
  token := ⟨fun _ _ => rfl, fun _ _ => rfl, fun _ _ => rfl⟩

theorem vcopy_two_nodes_iff_sample :
    ∃ s₀, (sample false).start (sampleCluster false) selfEp 100 2 200 100000 (fun _ => 0) =
        some s₀ ∧
      ((sample false).Correct (fun n _ => n) .copyin ((sample false).call .copyin 100 200 100000)
        s₀ ↔ (sample false).flagsQ.sending = false) :=
  have hargs : (sample false).Args selfEp 2 .copyin := ⟨.inr ⟨rfl, rfl⟩, rfl⟩
  vcopy_two_nodes_iff (sample_wf false) (sample_idle false) hargs 100 200 (by decide) (by decide)
    (fun _ => 0) (fun n _ => n)

/-- The message of process 2 to process 3 waits: the copy never returns. -/
theorem vcopy_lost_while_queued :
    (sample true).Wf ∧ (sample true).Idle (sampleCluster true) ∧
      ∃ s₀, (sample true).start (sampleCluster true) selfEp 100 2 200 4 (fun _ => 0) = some s₀ ∧
        ¬ (sample true).Correct (fun n _ => n) .copyin ((sample true).call .copyin 100 200 4)
          s₀ := by
  have hargs : (sample true).Args selfEp 2 .copyin := ⟨.inr ⟨rfl, rfl⟩, rfl⟩
  have hpos : (0 : ℤ) < 4 := by decide
  obtain ⟨c₀, len, hstart, hch, hst⟩ := start_stage (sample_wf true) (sample_idle true) hargs 100
    200 hpos (by decide) (fun _ => 0)
  exact ⟨sample_wf true, sample_idle true, _, hstart, hst.not_correct (sample_wf true) rfl hch⟩

end Duo

end MolIpc
