import MolIpc.Net.ThreeNodeRun

/-!
Correctness of the remote copy between three nodes.

The node of the source sends the data to the endpoint that is the number of the destination node
(`copyin_rqst_lcl2rmt` fills `c_dst` with `p_nodeid`). They get to the destination of the copy only
if this number happens to be its endpoint. The other conditions are those of the commands on their
way: a chunk that the copy buffer holds has to fit the blocks of the proxies of the destination
node, which `mm_vcopy` does not look at between two remote nodes, and no message of a party may
wait where a command of the copy names it as its source.
-/

namespace MolIpc

namespace Trio

open Cluster CopyState

structure Idle (X : Trio) (c : Cluster) : Prop where
  nodeA : X.NodeA Rts.running false (c.node X.a)
  nodeB : X.NodeB X.flagsDb (c.node X.b)
  nodeK : X.NodeK X.flagsRk X.memD (c.node X.k)
  token : At X.ours c .nowhere

structure Done (X : Trio) (v₀ : VcopyCall) (c : Cluster) : Prop where
  nodeA : X.NodeA Rts.running false (c.node X.a)
  nodeB : X.NodeB X.flagsDb (c.node X.b)
  nodeK : X.NodeK X.flagsRk (X.memD' v₀ 0) (c.node X.k)
  token : At X.ours c .nowhere

structure Ready (X : Trio) (bytes : ℤ) : Prop where
  named : X.ed = X.k
  fits : min X.ca.dMaxCopybuf bytes ≤ X.ck.maxbytes X.b
  sendingRb : X.flagsRb.sending = false
  sendingDb : X.flagsDb.sending = false
  sendingSk : X.flagsSk.sending = false
  sendingRk : X.flagsRk.sending = false
  sendingDa : X.flagsDa.sending = false

section Correct

variable {X : Trio} {v₀ v : VcopyCall} {len : ℤ} {c : Cluster} {i j : ℕ}
  {unbind : Node → ℤ → Node}

theorem dataCode_eq_ok : X.dataCode len = EMol.ok ↔
    (0 < len ∧ len ≤ X.ck.maxbytes X.b) ∧ X.flagsRk.sending = false := by
  unfold dataCode
  split
  · rename_i h
    exact ⟨fun he => absurd he (by decide), fun he => absurd he.1 h⟩
  split
  · rename_i h
    exact ⟨fun he => absurd he (by decide), fun he => absurd (he.2.symm.trans h) (by decide)⟩
  · simp_all

theorem accepts_of_ne (h8 : j ≠ 8) (h5 : j ≠ 5) (h2 : j ≠ 2) : X.Accepts len j := by
  unfold Accepts
  split
  · exact absurd rfl h8
  · exact absurd rfl h5
  · exact absurd rfl h2
  · trivial

theorem Ready.accepts (hr : X.Ready v₀.bytes) (hch : X.Chunk v₀ v len) (j : ℕ) :
    X.Accepts len j := by
  have hfits := hr.fits
  have hfirst := hch.first
  unfold Accepts
  split
  · exact ⟨hr.sendingRb, hr.sendingDb⟩
  · exact ⟨hr.named, dataCode_eq_ok.2 ⟨⟨hch.pos, by omega⟩, hr.sendingRk⟩, hr.sendingSk⟩
  · exact hr.sendingDa
  · trivial

/-! ### The requester's moves -/

theorem Stage.sem (hst : X.Stage v₀ v len i c) :
    0 ≤ ((c.node X.a).proc X.r).pseudosem ↔ i = 1 := by
  cases hst with
  | queued hp | taken hp | sent hp | asked hp | loading hp | loaded hp | served hp | answering hp
  | answered hp | woken hp => simp [hp.sleeps.sem]

theorem Chunk.next (hX : X.Wf) (hch : X.Chunk v₀ v len) (hlt : len < v.bytes) :
    X.Chunk v₀ (v.advance len) (min X.ca.dMaxCopybuf (v.bytes - len)) := by
  have hpos := hch.pos
  have hrest := hch.rest
  have hbuf := hX.buf.1
  refine ⟨hch.between, ?_, ?_, by omega, ?_, ?_, by omega⟩
  all_goals simp only [VcopyCall.advance]
  · have := hch.saddr
    omega
  · have := hch.daddr
    omega
  all_goals omega

theorem Issued.stage {n : Node} (hX : X.Wf) (hat : At X.ours c .nowhere)
    (hi : X.Issued v len (c.node X.a) n) (hb : X.NodeB X.flagsDb (c.node X.b))
    (hk : X.NodeK X.flagsRk (X.memD' v₀ v.bytes) (c.node X.k)) :
    X.Stage v₀ v len 10 (c.setNode X.a n) := by
  refine .queued ⟨?_, ?_, ?_, ?_⟩ ?_ (hat.enqueue ours_r hi.queue)
  · rw [setNode_node_same]; exact hi.node
  · rw [setNode_node_of_ne _ _ hX.ne_ab.symm]; exact hb
  · rw [setNode_node_of_ne _ _ hX.ne_ak.symm]; exact hk
  · rw [setNode_node_same]; exact hi.sleeps
  · rw [setNode_node_same]; exact hi.hdr

theorem Stage.wake (hX : X.Wf) (hch : X.Chunk v₀ v len) (hst : X.Stage v₀ v len 1 c) {w : ℤ}
    (hw : 0 < w) (cp : ℕ → ℤ) :
    ∃ n' pc, (c.node X.a).vcopyWake X.r (.sleep v len) w cp = (n', pc) ∧
      ((∃ v' len', pc = .sleep v' len' ∧ v'.bytes = v.bytes - len ∧ X.Chunk v₀ v' len' ∧
          X.Stage v₀ v' len' 10 (c.setNode X.a n')) ∨
        pc = .ret EMol.ok ∧ X.Done v₀ (c.setNode X.a n')) := by
  cases hst with | woken hp hat => ?_
  obtain ⟨n', pc, hwake, ⟨hlt, rfl, hi⟩ | ⟨hge, rfl, hn', hsp⟩⟩ :=
    vcopyWake_ok hX hp.nodeA hp.sleeps hch.between hw cp
  · exact ⟨n', _, hwake,
      .inl ⟨_, _, rfl, rfl, hch.next hX hlt, hi.stage hX hat hp.nodeB hp.nodeK⟩⟩
  · have hzero : v.bytes - len = 0 := by
      have := hch.le
      omega
    have hk := hp.nodeK
    rw [hzero] at hk
    refine ⟨n', _, hwake, .inr ⟨rfl, ?_, ?_, ?_, hat.setNode hsp⟩⟩
    · rw [setNode_node_same]; exact hn'
    · rw [setNode_node_of_ne _ _ hX.ne_ab.symm]; exact hp.nodeB
    · rw [setNode_node_of_ne _ _ hX.ne_ak.symm]; exact hk

theorem chunked (hX : X.Wf) (hr : X.Ready v₀.bytes) :
    Chunked unbind X.ours X.a X.r 10 (X.Chunk v₀) (X.Stage v₀) (X.Done v₀) where
  pos hch := ⟨hch.pos, hch.le⟩
  frame hst hf := hst.frame hf
  frame_done hd hf := ⟨⟨hd.nodeA.toSees.frame hf, hf.proc X.a X.r ours_r ▸ hd.nodeA.stay⟩,
    ⟨hd.nodeB.toSees.frame hf, hf.proc X.b X.s ours_s ▸ hd.nodeB.mem⟩,
    ⟨hd.nodeK.toSees.frame hf, hf.proc X.k X.d ours_d ▸ hd.nodeK.mem⟩, hd.token.frame hf⟩
  own hch hst ho := hst.own hX hch (fun j _ => hr.accepts hch j) ho
  own_done hd := hd.token.not_own
  exists_own hch hst hi := hst.exists_own hX hch (fun j _ => hr.accepts hch j) hi
  sem hst := hst.sem
  wake hch hst hw cp := hst.wake hX hch hw cp

/-! ### Where a copy stops -/

theorem Stage.reaches (hX : X.Wf) (hch : X.Chunk v₀ v len) (pc : VcopyNext) (hj : 1 ≤ j)
    (hj' : j ≤ 10) (hok : ∀ i, j < i → X.Accepts len i) (hst : X.Stage v₀ v len 10 c) :
    ∃ k c', Run unbind X.ours X.a X.r k ⟨c, pc⟩ ⟨c', pc⟩ ∧ X.Stage v₀ v len j c' := by
  refine exists_run pc (fun {i c} hi hst => ?_) hj' hst
  have hok' : ∀ k, i ≤ k → X.Accepts len k := fun k hk => hok k (by omega)
  obtain ⟨c₁, c₂, hf, ho⟩ : ∃ c₁ c₂, Frame X.ours c c₁ ∧ Own unbind X.ours c₁ c₂ :=
    hst.exists_own hX hch hok' (by omega)
  obtain ⟨j, rfl, hst₂⟩ := (hst.frame hf).own hX hch hok' ho
  exact ⟨c₁, c₂, hf, ho, hst₂⟩

end Correct

/-! ### The call -/

def start (X : Trio) (c : Cluster) (saddr daddr : ℕ) (bytes : ℤ) (cp : ℕ → ℤ) :
    Option CopyState :=
  ((c.node X.a).vcopyStart X.r X.es saddr X.ed daddr bytes cp).map fun r =>
    ⟨c.setNode X.a r.1, r.2⟩

/-- A command of the copy that is first in its channel is accepted by the node that it reaches. -/
def Accepted (X : Trio) (unbind : Node → ℤ → Node) (c : Cluster) : Prop :=
  ∀ k m h pay rest, c.chan m k = (h, pay) :: rest → oursHdr X.ours h = true →
    ∃ c', c.deliver unbind k m = some (c', EMol.ok)

/-- The bytes have been copied, and nobody is marked as taking part in a copy. -/
structure Finished (X : Trio) (v₀ : VcopyCall) (c : Cluster) : Prop where
  memD : ((c.node X.k).proc X.d).mem = X.memD.blit v₀.daddr X.memS v₀.saddr v₀.bytes.toNat
  memS : ((c.node X.b).proc X.s).mem = X.memS
  clear : ∀ m i, (m = X.a ∨ m = X.b ∨ m = X.k) → (i = X.r ∨ i = X.s ∨ i = X.d) →
    ((c.node m).proc i).rts.oncopy = false ∧ ((c.node m).proc i).rts.rmtoper = false

/-- The copy takes a bounded number of moves, all its commands are accepted, it can go on until it
returns, and returns `OK` with its work done. -/
def Correct (X : Trio) (unbind : Node → ℤ → Node) (v₀ : VcopyCall) (s₀ : CopyState) : Prop :=
  ∀ k s, Run unbind X.ours X.a X.r k s₀ s →
    k ≤ 10 * v₀.bytes.toNat ∧ X.Accepted unbind s.cl ∧
      (∀ code, s.pc = .ret code → code = EMol.ok ∧ X.Finished v₀ s.cl) ∧
      ∃ j s', Run unbind X.ours X.a X.r j s s' ∧ s'.pc = .ret EMol.ok

section Call

variable {X : Trio} {v₀ : VcopyCall} {c : Cluster} {len : ℤ} {unbind : Node → ℤ → Node}

theorem Done.finished (hX : X.Wf) (hd : X.Done v₀ c) : X.Finished v₀ c := by
  refine ⟨?_, hd.nodeB.mem, ?_⟩
  · rw [hd.nodeK.mem]
    simp [memD']
  · have hA := hd.nodeA
    have hB := hd.nodeB
    have hK := hd.nodeK
    rintro m i (rfl | rfl | rfl) (rfl | rfl | rfl)
    · rw [hA.descR.rts]; exact ⟨rfl, rfl⟩
    · rw [hA.descS.rts]; exact ⟨rfl, hX.flagsSa.1.rmtoper⟩
    · rw [hA.descD.rts]; exact ⟨rfl, hX.flagsDa.1.rmtoper⟩
    · rw [hB.descR.rts]; exact ⟨hX.flagsRb.1.oncopy, hX.flagsRb.1.rmtoper⟩
    · rw [hB.descS.rts]; exact ⟨hX.flagsSb.1.oncopy, hX.flagsSb.1.rmtoper⟩
    · rw [hB.descD.rts]; exact ⟨hX.flagsDb.1.oncopy, hX.flagsDb.1.rmtoper⟩
    · rw [hK.descR.rts]; exact ⟨hX.flagsRk.1.oncopy, hX.flagsRk.1.rmtoper⟩
    · rw [hK.descS.rts]; exact ⟨hX.flagsSk.1.oncopy, hX.flagsSk.1.rmtoper⟩
    · rw [hK.descD.rts]; exact ⟨hX.flagsDk.1.oncopy, hX.flagsDk.1.rmtoper⟩

theorem start_stage (hX : X.Wf) (hc : X.Idle c) (saddr daddr : ℕ) {bytes : ℤ} (hpos : 0 < bytes)
    (hmax : bytes ≤ X.ca.dMaxCopylen) (cp : ℕ → ℤ) :
    ∃ c₀, X.start c saddr daddr bytes cp =
        some ⟨c₀, .sleep ⟨X.es, X.ed, saddr, daddr, bytes⟩ (min X.ca.dMaxCopybuf bytes)⟩ ∧
      X.Chunk ⟨X.es, X.ed, saddr, daddr, bytes⟩ ⟨X.es, X.ed, saddr, daddr, bytes⟩
        (min X.ca.dMaxCopybuf bytes) ∧
      X.Stage ⟨X.es, X.ed, saddr, daddr, bytes⟩ ⟨X.es, X.ed, saddr, daddr, bytes⟩
        (min X.ca.dMaxCopybuf bytes) 10 c₀ := by
  obtain ⟨n', hstart, hi⟩ := vcopyStart_ok hX hc.nodeA saddr daddr hpos hmax cp
  have hbuf := hX.buf.1
  have hmem : X.memD' ⟨X.es, X.ed, saddr, daddr, bytes⟩ bytes = X.memD := by simp [memD']
  refine ⟨c.setNode X.a n', by rw [start, hstart]; rfl, ⟨⟨rfl, rfl⟩, ?_, ?_, ?_, ?_, ?_, ?_⟩,
    hi.stage hX hc.token hc.nodeB ?_⟩
  · simp
  · simp
  · omega
  · exact Int.min_le_right ..
  · exact Int.le_refl _
  · exact Int.le_refl _
  · rw [hmem]
    exact hc.nodeK

theorem Stage.correct (hX : X.Wf) (hr : X.Ready v₀.bytes) (hch : X.Chunk v₀ v₀ len)
    (hst : X.Stage v₀ v₀ len 10 c) : X.Correct unbind v₀ ⟨c, .sleep v₀ len⟩ := by
  intro k s hrun
  obtain ⟨hk, hphase, hret⟩ := (chunked hX hr).run hch hst hrun
  refine ⟨hk, ?_, fun code hcode => ?_, hret⟩
  · intro k m h pay rest hc ho
    obtain ⟨v', len', i, -, hch', hst'⟩ | ⟨-, hd⟩ := hphase
    · exact hst'.accepted hX hch' (hr.accepts hch' i) hc ho
    · cases hd.token.eq_chan hc ho
  · obtain ⟨v', len', i, hpc, -⟩ | ⟨hpc, hd⟩ := hphase
    · exact absurd (hpc.symm.trans hcode) (by simp)
    · obtain rfl : EMol.ok = code := by simpa using hpc.symm.trans hcode
      exact ⟨rfl, hd.finished hX⟩

theorem Correct.accepts {s₀ : CopyState} (hcorrect : X.Correct unbind v₀ s₀) {n : ℕ}
    {pc : VcopyNext} (hrun : Run unbind X.ours X.a X.r n s₀ ⟨c, pc⟩) {k m : ℤ} {h : Hdr} {pay : Mem}
    (hat : At X.ours c (.chan m k h pay)) (ho : oursHdr X.ours h = true) :
    ∃ c₁ c₂ n', Frame X.ours c c₁ ∧ c₁.chan m k = [(h, pay)] ∧
      (c₁.node k).put2lcl ((c₁.node k).conf.nProxies m) h pay 0 = some (n', EMol.ok) ∧
      c₁.deliver unbind k m = some (c₂, EMol.ok) := by
  obtain ⟨c₁, hf, hfront⟩ := hat.exists_front
  obtain ⟨-, haccept, -⟩ := hcorrect _ _ (.env hrun hf)
  have hc : c₁.chan m k = [(h, pay)] := hfront
  obtain ⟨c₂, hd⟩ := haccept k m h pay [] hc ho
  have hput : ((c₁.node k).put2lcl ((c₁.node k).conf.nProxies m) h pay 0).map Prod.snd =
      some EMol.ok := by
    have hd' := congrArg (Option.map Prod.snd) hd
    simpa [Cluster.deliver, hc, Option.map_map, Function.comp_def] using hd'
  obtain ⟨⟨n', ret⟩, hput, rfl⟩ := Option.map_eq_some_iff.1 hput
  exact ⟨c₁, c₂, n', hf, hc, hput, hd⟩

theorem lost_ack (hX : X.Wf) (hne : X.ed ≠ X.k) {v : VcopyCall} {md : Mem} (pc : VcopyNext)
    (hp : X.Parts Rts.onlyOncopy X.flagsDb X.ackFlags md (-1) c)
    (hh : X.IsAck v len X.k ((c.node X.k).proc X.r).rmtcmd)
    (hat : At X.ours c (.queue X.k (X.ck.nProxies X.a) X.r)) :
    ∃ k s, Run unbind X.ours X.a X.r k ⟨c, pc⟩ s ∧
      ∀ k' s', Run unbind X.ours X.a X.r k' s s' → s'.pc = pc := by
  -- it is taken off its queue
  obtain ⟨c₁, c₂, hf₁, ho₁⟩ : ∃ c₁ c₂, Frame X.ours c c₁ ∧ Own unbind X.ours c₁ c₂ :=
    hat.exists_take ours_r hp.nodeK.up₁
  have hp₁ := hp.frame hf₁
  rw [← hf₁.proc X.k X.r ours_r] at hh
  obtain ⟨hnode, hat₂⟩ := (hat.frame hf₁).own_take ho₁
  rw [check_ack hX hp₁.nodeK hh] at hat₂
  have hp₂ := hp₁.setK hX hnode ⟨hp₁.nodeK.toSees.unlink X.r, hp₁.nodeK.mem⟩
  have hh₂ : X.IsAck v len X.k ((c₂.node X.k).proc X.r).rmtcmd := by
    rw [hnode, Function.update_self]
    exact hh
  -- and given up
  obtain ⟨c₃, hf₃, hfront₃⟩ := hat₂.exists_front
  have hp₃ := hp₂.frame hf₃
  rw [← hf₃.proc X.k X.r ours_r] at hh₂
  obtain ⟨n', hsend⟩ := send_ack_other hX hp₃.nodeK hne hh₂ fun _ => 0
  have hhand : c₃.hand X.k (X.ck.nProxies X.a) = some (X.r, EMol.ok) := hfront₃
  have hsome : (c₃.emit X.k (X.ck.nProxies X.a) fun _ => 0).isSome = true := by
    simp [Cluster.emit, hhand, hsend]
  obtain ⟨c₄, he⟩ := Option.isSome_iff_exists.1 hsome
  obtain ⟨hnode₄, hat₄⟩ := (hat₂.frame hf₃).emit_eq hhand hsend he
  refine ⟨_, ⟨c₄, pc⟩, .move (.env (.move (.env (.refl _) hf₁) (.proxy ho₁)) hf₃)
    (.proxy (.emit _ hhand ours_r he)), fun k' s' hrun => ?_⟩
  refine hrun.stuck hat₄ ours_r ?_
  have hsem : ((c₄.node X.a).proc X.r).pseudosem = -1 := by
    rw [hnode₄, Function.update_of_ne hX.ne_ak]
    exact hp₃.sleeps.sem
  exact hsem ▸ by decide

section Necessary

variable (hX : X.Wf) (hch : X.Chunk v₀ v₀ len) (hst : X.Stage v₀ v₀ len 10 c)
  (hcorrect : X.Correct unbind v₀ ⟨c, .sleep v₀ len⟩)

include hX hch hst hcorrect

theorem Correct.accepts_req : X.Accepts len 8 := by
  have hok : ∀ i, 8 < i → X.Accepts len i := fun i hi =>
    accepts_of_ne (by omega) (by omega) (by omega)
  obtain ⟨k, c', hrun, hst'⟩ :=
    hst.reaches hX hch (.sleep v₀ len) (by decide) (by decide) hok
  cases hst' with | @sent _ h pay hp hh hat => ?_
  obtain ⟨c₁, c₂, n', hf, -, hput, -⟩ := hcorrect.accepts hrun hat (oursHdr_req hX hh)
  have hp₁ := hp.frame hf
  refine not_not.1 fun hno => ?_
  rw [hp₁.nodeB.conf, put_req_enqueued hX hp₁.nodeB hh (hch.max hX) hno] at hput
  have hret : EMol.enqueued = EMol.ok := congrArg Prod.snd (Option.some.inj hput)
  exact absurd hret (by decide)

theorem Correct.accepts_data : X.Accepts len 5 := by
  have hreq : X.Accepts len 8 := hcorrect.accepts_req hX hch hst
  have hok : ∀ i, 5 < i → X.Accepts len i := fun i hi => by
    by_cases h8 : i = 8
    · exact h8 ▸ hreq
    · exact accepts_of_ne h8 (by omega) (by omega)
  obtain ⟨k, c', hrun, hst'⟩ :=
    hst.reaches hX hch (.sleep v₀ len) (by decide) (by decide) hok
  cases hst' with | @loaded _ h pay hp hh hpay hat => ?_
  obtain ⟨c₁, c₂, n', hf, hc, hput, hd⟩ := hcorrect.accepts hrun hat (oursHdr_data hX hh)
  have hp₁ := hp.frame hf
  have hput' := hput
  rw [hp₁.nodeK.conf] at hput'
  obtain ⟨hcode, hS, ⟨md, hK⟩, hack, happ⟩ := put_data_inv hX hp₁.nodeK hh hpay hput'
  refine ⟨not_not.1 fun hne => ?_, hcode, hS⟩
  -- otherwise the acknowledge comes from the wrong process
  obtain ⟨-, hnode, hat₂⟩ := (hat.frame hf).deliver_enqueue hc hput
    (Node.unbinds_of_ok hh.rcode) hd ours_r happ
  have hh₂ : X.IsAck v₀ len X.k ((c₂.node X.k).proc X.r).rmtcmd := by
    rw [hnode, Function.update_self]
    exact hack
  have hown : Own unbind X.ours c₁ c₂ := .deliver hc (oursHdr_data hX hh) hd
  obtain ⟨k', s, hrun', hstuck⟩ : ∃ k' s, Run unbind X.ours X.a X.r k' ⟨c₂, .sleep v₀ len⟩ s ∧
      ∀ k'' s', Run unbind X.ours X.a X.r k'' s s' → s'.pc = .sleep v₀ len :=
    lost_ack hX hne _ (hp₁.setK hX hnode hK) hh₂ hat₂
  obtain ⟨-, -, -, j, s', hret, hpc⟩ :=
    hcorrect _ _ (Run.trans (.move (.env hrun hf) (.proxy hown)) hrun')
  exact absurd ((hstuck _ _ hret).symm.trans hpc) (by simp)

theorem Correct.accepts_ack : X.Accepts len 2 := by
  have hreq : X.Accepts len 8 := hcorrect.accepts_req hX hch hst
  have hdata : X.Accepts len 5 := hcorrect.accepts_data hX hch hst
  have hok : ∀ i, 2 < i → X.Accepts len i := fun i hi => by
    by_cases h8 : i = 8
    · exact h8 ▸ hreq
    by_cases h5 : i = 5
    · exact h5 ▸ hdata
    · exact accepts_of_ne h8 h5 (by omega)
  obtain ⟨k, c', hrun, hst'⟩ :=
    hst.reaches hX hch (.sleep v₀ len) (by decide) (by decide) hok
  cases hst' with | @answered _ h pay hp hh hat => ?_
  obtain ⟨c₁, c₂, n', hf, -, hput, -⟩ := hcorrect.accepts hrun hat (oursHdr_ack hX hh)
  have hp₁ := hp.frame hf
  rw [hp₁.nodeA.conf, put_ack_eq hX hp₁.nodeA hh] at hput
  cases hsend : X.flagsDa.sending with
  | false => exact hsend
  | true =>
    rw [hsend] at hput
    have hret : EMol.enqueued = EMol.ok := congrArg Prod.snd (Option.some.inj hput)
    exact absurd hret (by decide)

end Necessary

/-- **The remote copy between three nodes is correct iff** the endpoint of the destination is the
number of its node, the first chunk fits there, and no message of a party waits where the copy needs
its descriptor. -/
theorem vcopy_three_nodes_iff (hX : X.Wf) (hc : X.Idle c) (saddr daddr : ℕ) {bytes : ℤ}
    (hpos : 0 < bytes) (hmax : bytes ≤ X.ca.dMaxCopylen) (cp : ℕ → ℤ)
    (unbind : Node → ℤ → Node) :
    ∃ s₀, X.start c saddr daddr bytes cp = some s₀ ∧
      (X.Correct unbind ⟨X.es, X.ed, saddr, daddr, bytes⟩ s₀ ↔ X.Ready bytes) := by
  obtain ⟨c₀, hstart, hch, hst⟩ := start_stage hX hc saddr daddr hpos hmax cp
  refine ⟨_, hstart, fun h => ?_, fun h => hst.correct hX h hch⟩
  have hreq : X.Accepts _ 8 := h.accepts_req hX hch hst
  have hdata : X.Accepts _ 5 := h.accepts_data hX hch hst
  have hack : X.Accepts _ 2 := h.accepts_ack hX hch hst
  obtain ⟨hfits, hRk⟩ := dataCode_eq_ok.1 hdata.2.1
  exact ⟨hdata.1, hfits.2, hreq.1, hreq.2, hdata.2.2, hRk, hack⟩

end Call

def sampleDst (named : Bool) : ℤ := if named then 2 else 9

def sample (named : Bool) : Trio where
  a := 0
  b := 1
  k := 2
  ca := Conf.sample 0
  cb := Conf.sample 1
  ck := Conf.sample 2
  r := 1
  s := 5
  d := sampleDst named
  er := 1
  es := 5
  ed := sampleDst named
  flagsSa := { remote := true }
  flagsDa := { remote := true }
  flagsRb := { remote := true }
  flagsSb := { receiving := true }
  flagsDb := { remote := true }
  flagsRk := { remote := true }
  flagsSk := { remote := true }
  flagsDk := { receiving := true }
  memS := fun _ => 7
  memD := fun _ => 0

def sampleCluster (named : Bool) : Cluster where
  node := fun k =>
    { conf := Conf.sample k
      proc := fun i =>
        if i = 1 then Proc.sample 0 1 { remote := decide (k ≠ 0) }
        else if i = 5 then
          { Proc.sample 1 5 { remote := decide (k ≠ 1), receiving := decide (k = 1) } with
            mem := fun _ => 7 }
        else if i = sampleDst named then
          Proc.sample 2 (sampleDst named) { remote := decide (k ≠ 2), receiving := decide (k = 2) }
        else {}
      sproxy := Proc.sampleProxy
      rproxy := Proc.sampleProxy }
  hand := fun _ _ => none
  chan := fun _ _ => []

theorem sample_wf (named : Bool) : (sample named).Wf where
  ne_ab := by decide +revert
  ne_ak := by decide +revert
  ne_bk := by decide +revert
  localA := rfl
  localB := rfl
  localK := rfl
  endR := by decide +revert
  endS := by decide +revert
  endD := by decide +revert
  ne_rs := by decide +revert
  ne_rd := by decide +revert
  ne_sd := by decide +revert
  special := by
    rintro e (rfl | rfl) <;> decide +revert
  buf := ⟨by decide +revert, by decide +revert⟩
  dcidB := rfl
  dcidK := rfl
  dcids := by
    rintro cf (rfl | rfl | rfl) <;> decide +revert
  run := by
    rintro cf (rfl | rfl | rfl) <;> rfl
  range := by
    rintro cf (rfl | rfl | rfl) <;> decide +revert
  nodes := by decide +revert
  dcNodes := ⟨rfl, rfl, rfl, rfl⟩
  nDcs := ⟨rfl, rfl, rfl⟩
  remote := by
    rintro f (rfl | rfl | rfl | rfl | rfl | rfl) <;> exact ⟨⟨rfl, rfl, rfl, rfl⟩, rfl⟩
  isLocal := by
    rintro f (rfl | rfl) <;> exact ⟨⟨rfl, rfl, rfl, rfl⟩, rfl⟩

theorem sample_idle (named : Bool) : (sample named).Idle (sampleCluster named) := by
  have hup : ∀ k m, -500 < m → ProxyUp ((sampleCluster named).node k) m m := fun k m hm => by
    refine ⟨?_, rfl, rfl, rfl, decide_eq_true rfl, rfl, rfl, rfl⟩
    have hlpid : (((sampleCluster named).node k).sproxy m).lpid = 500 + m := rfl
    rw [hlpid, procNoPid]
    omega
  cases named
  all_goals
    refine ⟨⟨⟨rfl, hup 0 1 (by decide), hup 0 2 (by decide), ⟨rfl, rfl, rfl⟩, ⟨rfl, rfl, rfl⟩,
      ⟨rfl, rfl, rfl⟩⟩, rfl⟩, ⟨⟨rfl, hup 1 0 (by decide), hup 1 2 (by decide), ⟨rfl, rfl, rfl⟩,
      ⟨rfl, rfl, rfl⟩, ⟨rfl, rfl, rfl⟩⟩, rfl⟩, ⟨⟨rfl, hup 2 0 (by decide), hup 2 1 (by decide),
      ⟨rfl, rfl, rfl⟩, ⟨rfl, rfl, rfl⟩, ⟨rfl, rfl, rfl⟩⟩, rfl⟩,
      ⟨fun _ _ => rfl, fun _ _ => rfl, fun _ _ => rfl⟩⟩

theorem vcopy_three_nodes_iff_sample :
    ∃ s₀, (sample true).start (sampleCluster true) 100 200 100000 (fun _ => 0) = some s₀ ∧
      ((sample true).Correct (fun n _ => n) ⟨5, 2, 100, 200, 100000⟩ s₀ ↔
        (sample true).Ready 100000) :=
  vcopy_three_nodes_iff (sample_wf true) (sample_idle true) 100 200 (by decide) (by decide)
    (fun _ => 0) (fun n _ => n)

/-- A copy to process 9 of node 2: the data are sent to the endpoint 2, which is not bound. -/
theorem vcopy_wrong_destination :
    (sample false).Wf ∧ (sample false).Idle (sampleCluster false) ∧
      ∃ s₀, (sample false).start (sampleCluster false) 100 200 4 (fun _ => 0) = some s₀ ∧
        ¬ (sample false).Correct (fun n _ => n) ⟨5, 9, 100, 200, 4⟩ s₀ := by
  have hpos : (0 : ℤ) < 4 := by decide
  obtain ⟨c₀, hstart, hch, hst⟩ :=
    start_stage (sample_wf false) (sample_idle false) 100 200 hpos (by decide) (fun _ => 0)
  refine ⟨sample_wf false, sample_idle false, _, hstart, fun hcorrect => ?_⟩
  obtain ⟨hname, -⟩ : (sample false).Accepts _ 5 := hcorrect.accepts_data (sample_wf false) hch hst
  exact absurd hname (by decide)

end Trio

end MolIpc
