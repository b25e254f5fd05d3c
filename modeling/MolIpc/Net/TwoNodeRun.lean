import MolIpc.Net.TwoNodeCopy

/-!
Runs of a remote copy between two nodes.

Each chunk goes through seven moves: its request is taken off the queue of node `a`, sent and
delivered, its answer is taken off the queue of node `b`, sent and delivered, and the requester
wakes up. `Stage` says what the cluster looks like before each of them.
-/

namespace MolIpc

namespace Duo

open Cluster

/-- A chunk of the copy `v₀`: `v` is what is left before it, `len` its size. -/
structure Chunk (X : Duo) (dir : Dir) (v₀ v : VcopyCall) (len : ℤ) : Prop where
  rest : X.Rest dir v₀ v
  pos : 0 < len
  le : len ≤ v.bytes
  max : len ≤ X.ca.maxbytes X.b

/-- The cluster, with the number of moves that are left for the chunk. -/
inductive Stage (X : Duo) (dir : Dir) (v₀ v : VcopyCall) (len : ℤ) : ℕ → Cluster → Prop
  | queued {c : Cluster} :
      X.NodeA queuedFlags true (X.memL' v₀ v.bytes dir) (c.node X.a) →
      X.NodeB X.flagsRb (X.memQ' v₀ v.bytes dir) (c.node X.b) → X.Sleeps (-1) (c.node X.a) →
      X.IsReq dir v len ((c.node X.a).proc X.r).rmtcmd →
      At X.ours c (.queue X.a X.pa X.r) → Stage X dir v₀ v len 7 c
  | taken {c : Cluster} :
      X.NodeA queuedFlags true (X.memL' v₀ v.bytes dir) (c.node X.a) →
      X.NodeB X.flagsRb (X.memQ' v₀ v.bytes dir) (c.node X.b) → X.Sleeps (-1) (c.node X.a) →
      X.IsReq dir v len ((c.node X.a).proc X.r).rmtcmd →
      At X.ours c (.hand X.a X.pa X.r EMol.ok) → Stage X dir v₀ v len 6 c
  | sent {c : Cluster} {h : Hdr} {pay : Mem} :
      X.NodeA Rts.onlyOncopy true (X.memL' v₀ v.bytes dir) (c.node X.a) →
      X.NodeB X.flagsRb (X.memQ' v₀ v.bytes dir) (c.node X.b) → X.Sleeps (-1) (c.node X.a) →
      X.IsReq dir v len h → (dir = .copyin → Carries pay X.memL v.saddr len) →
      At X.ours c (.chan X.a X.b h pay) → Stage X dir v₀ v len 5 c
  | served {c : Cluster} :
      X.NodeA Rts.onlyOncopy true (X.memL' v₀ v.bytes dir) (c.node X.a) →
      X.NodeB X.ackFlags (X.memQ' v₀ (v.bytes - len) dir) (c.node X.b) →
      X.Sleeps (-1) (c.node X.a) → X.IsAck dir v len ((c.node X.b).proc X.r).rmtcmd →
      At X.ours c (.queue X.b X.pb X.r) → Stage X dir v₀ v len 4 c
  | answering {c : Cluster} :
      X.NodeA Rts.onlyOncopy true (X.memL' v₀ v.bytes dir) (c.node X.a) →
      X.NodeB X.ackFlags (X.memQ' v₀ (v.bytes - len) dir) (c.node X.b) →
      X.Sleeps (-1) (c.node X.a) → X.IsAck dir v len ((c.node X.b).proc X.r).rmtcmd →
      At X.ours c (.hand X.b X.pb X.r EMol.ok) → Stage X dir v₀ v len 3 c
  | answered {c : Cluster} {h : Hdr} {pay : Mem} :
      X.NodeA Rts.onlyOncopy true (X.memL' v₀ v.bytes dir) (c.node X.a) →
      X.NodeB X.flagsRb (X.memQ' v₀ (v.bytes - len) dir) (c.node X.b) →
      X.Sleeps (-1) (c.node X.a) → X.IsAck dir v len h →
      (dir = .copyout → Carries pay X.memQ v.saddr len) →
      At X.ours c (.chan X.b X.a h pay) → Stage X dir v₀ v len 2 c
  | woken {c : Cluster} :
      X.NodeA Rts.onlyOncopy true (X.memL' v₀ (v.bytes - len) dir) (c.node X.a) →
      X.NodeB X.flagsRb (X.memQ' v₀ (v.bytes - len) dir) (c.node X.b) → X.Sleeps 0 (c.node X.a) →
      At X.ours c .nowhere → Stage X dir v₀ v len 1 c

section Runs

variable {X : Duo} {dir : Dir} {v₀ v : VcopyCall} {len : ℤ} {c c' : Cluster} {i : ℕ}
  {unbind : Node → ℤ → Node} {n : Node} {h : Hdr} {rr rb : Rts} {busy : Bool} {ml mq pay : Mem}

@[simp] theorem ours_r : X.ours X.r = true := by simp [ours]
@[simp] theorem ours_l : X.ours X.l = true := by simp [ours]
@[simp] theorem ours_q : X.ours X.q = true := by simp [ours]

/-! ### The rest of the cluster -/

section Frame

variable (hf : Frame X.ours c c')

include hf

theorem NodeA.frame (hn : X.NodeA rr busy ml (c.node X.a)) : X.NodeA rr busy ml (c'.node X.a) := by
  have hr := hf.proc X.a X.r ours_r
  have hl := hf.proc X.a X.l ours_l
  have hq := hf.proc X.a X.q ours_q
  exact ⟨(hf.conf _).trans hn.conf, hf.up _ _ _ hn.up, hr ▸ hn.descR, hr ▸ hn.stay,
    fun h => hl ▸ hn.descL h, hq ▸ hn.descQ, hl ▸ hn.mem⟩

theorem NodeB.frame (hn : X.NodeB rb mq (c.node X.b)) : X.NodeB rb mq (c'.node X.b) := by
  have hr := hf.proc X.b X.r ours_r
  have hq := hf.proc X.b X.q ours_q
  exact ⟨(hf.conf _).trans hn.conf, hf.up _ _ _ hn.up, hr ▸ hn.descR, hq ▸ hn.descQ, hq ▸ hn.mem⟩

theorem Sleeps.frame {sem : ℤ} (hs : X.Sleeps sem (c.node X.a)) : X.Sleeps sem (c'.node X.a) := by
  have hr := hf.proc X.a X.r ours_r
  exact ⟨hr ▸ hs.sem, hr ▸ hs.rcode⟩

theorem Stage.frame (hst : X.Stage dir v₀ v len i c) : X.Stage dir v₀ v len i c' := by
  have hra := hf.proc X.a X.r ours_r
  have hrb := hf.proc X.b X.r ours_r
  cases hst with
  | queued ha hb hs hh hat =>
    exact .queued (ha.frame hf) (hb.frame hf) (hs.frame hf) (hra ▸ hh) (hat.frame hf)
  | taken ha hb hs hh hat =>
    exact .taken (ha.frame hf) (hb.frame hf) (hs.frame hf) (hra ▸ hh) (hat.frame hf)
  | sent ha hb hs hh hp hat =>
    exact .sent (ha.frame hf) (hb.frame hf) (hs.frame hf) hh hp (hat.frame hf)
  | served ha hb hs hh hat =>
    exact .served (ha.frame hf) (hb.frame hf) (hs.frame hf) (hrb ▸ hh) (hat.frame hf)
  | answering ha hb hs hh hat =>
    exact .answering (ha.frame hf) (hb.frame hf) (hs.frame hf) (hrb ▸ hh) (hat.frame hf)
  | answered ha hb hs hh hp hat =>
    exact .answered (ha.frame hf) (hb.frame hf) (hs.frame hf) hh hp (hat.frame hf)
  | woken ha hb hs hat => exact .woken (ha.frame hf) (hb.frame hf) (hs.frame hf) (hat.frame hf)

end Frame

/-! ### Moves of the proxies -/

theorem NodeA.proxy (hn : X.NodeA rr busy ml n) : n.conf.nProxies X.b = X.pa := by
  rw [hn.conf]
  rfl

theorem NodeB.proxy (hn : X.NodeB rb mq n) : n.conf.nProxies X.a = X.pb := by
  rw [hn.conf]
  rfl

theorem Chunk.memQ (hch : X.Chunk dir v₀ v len) :
    X.memQ' v₀ (v.bytes - len) dir =
      if dir = .copyin then (X.memQ' v₀ v.bytes dir).blit v.daddr X.memL v.saddr len.toNat
      else X.memQ' v₀ v.bytes dir := by
  have hr := hch.rest
  have hsum : (v₀.bytes - (v.bytes - len)).toNat = (v₀.bytes - v.bytes).toNat + len.toNat := by
    have := hr.le
    have := hch.pos
    omega
  cases dir with
  | copyin => simp [memQ', hsum, hr.saddr, hr.daddr, Mem.blit_blit]
  | copyout => simp [memQ']

theorem Chunk.memL (hch : X.Chunk dir v₀ v len) :
    X.memL' v₀ (v.bytes - len) dir =
      if dir = .copyout then (X.memL' v₀ v.bytes dir).blit v.daddr X.memQ v.saddr len.toNat
      else X.memL' v₀ v.bytes dir := by
  have hr := hch.rest
  have hsum : (v₀.bytes - (v.bytes - len)).toNat = (v₀.bytes - v.bytes).toNat + len.toNat := by
    have := hr.le
    have := hch.pos
    omega
  cases dir with
  | copyin => simp [memL']
  | copyout => simp [memL', hsum, hr.saddr, hr.daddr, Mem.blit_blit]

theorem Chunk.ends (hch : X.Chunk dir v₀ v len) :
    v.src = (X.ends dir).1 ∧ v.dst = (X.ends dir).2 := ⟨hch.rest.src, hch.rest.dst⟩

variable (hX : X.Wf)

include hX

theorem oursHdr_req (hh : X.IsReq dir v len h) : oursHdr X.ours h = true := by
  simp [oursHdr, hh.src, hX.endR]

theorem oursHdr_ack (hh : X.IsAck dir v len h) : oursHdr X.ours h = true := by
  simp [oursHdr, hh.src, hX.endQ]

theorem put_req (hch : X.Chunk dir v₀ v len) (hb : X.NodeB X.flagsRb (X.memQ' v₀ v.bytes dir) n)
    (hh : X.IsReq dir v len h) (hp : dir = .copyin → Carries pay X.memL v.saddr len) :
    ∃ n', n.put2lcl X.pb h pay 0 = some (n', EMol.ok) ∧
      X.Served dir v len (X.memQ' v₀ (v.bytes - len) dir) n n' := by
  rw [hch.memQ]
  cases dir with
  | copyin => exact put_copyinData hX hb hh hch.rest.dst ⟨hch.pos, hch.max⟩ (hp rfl)
  | copyout => exact put_copyoutRqst hX hb hh hch.rest.src ⟨hch.pos, hch.max⟩

theorem put_ack (hsend : X.flagsQ.sending = false) (hch : X.Chunk dir v₀ v len)
    (ha : X.NodeA Rts.onlyOncopy true (X.memL' v₀ v.bytes dir) n) (hs : X.Sleeps (-1) n)
    (hh : X.IsAck dir v len h) (hp : dir = .copyout → Carries pay X.memQ v.saddr len) :
    ∃ n', n.put2lcl X.pa h pay 0 = some (n', EMol.ok) ∧
      X.Woken (X.memL' v₀ (v.bytes - len) dir) n n' := by
  rw [hch.memL]
  cases dir with
  | copyin => exact put_copyinAck hX hsend ha hs hh
  | copyout => exact put_copyoutData hX hsend ha hs hh hch.rest.dst ⟨hch.pos, hch.max⟩ (hp rfl)

theorem node_setA (hnode : c'.node = Function.update c.node X.a n) :
    c'.node X.a = n ∧ c'.node X.b = c.node X.b :=
  ⟨by simp [hnode], by simp [hnode, hX.ne_ab.symm]⟩

theorem node_setB (hnode : c'.node = Function.update c.node X.b n) :
    c'.node X.a = c.node X.a ∧ c'.node X.b = n :=
  ⟨by simp [hnode, hX.ne_ab], by simp [hnode]⟩

theorem Stage.own (hsend : i = 2 → X.flagsQ.sending = false) (hch : X.Chunk dir v₀ v len)
    (hst : X.Stage dir v₀ v len i c) (ho : Own unbind X.ours c c') :
    ∃ j, i = j + 1 ∧ X.Stage dir v₀ v len j c' := by
  cases hst with
  | queued ha hb hs hh hat =>
    obtain ⟨hnode, hat'⟩ := hat.own_take ho
    obtain ⟨ha', hb'⟩ := node_setA hX hnode
    rw [check_req hX ha hh] at hat'
    exact ⟨6, rfl, .taken (ha' ▸ ha.unlink _) (hb' ▸ hb) (ha' ▸ ⟨hs.sem, hs.rcode⟩) (ha' ▸ hh) hat'⟩
  | taken ha hb hs hh hat =>
    obtain ⟨pay, hemit⟩ := hat.own_emit ho
    obtain ⟨n', pay', h, hsend, hn', hs', hh', hp'⟩ := send_req hX ha hs hch.rest.src hch.max hh pay
    obtain ⟨hnode, hat'⟩ := hemit _ _ _ hsend (oursHdr_req hX hh')
    obtain ⟨ha', hb'⟩ := node_setA hX hnode
    refine ⟨5, rfl, .sent (ha' ▸ hn') (hb' ▸ hb) (ha' ▸ hs') hh' (fun hd => ?_) (hh'.dnode ▸ hat')⟩
    subst hd
    exact hp' rfl
  | sent ha hb hs hh hp hat =>
    obtain ⟨rest, ret, hc, hd⟩ := hat.own_deliver ho
    obtain ⟨n', hput, hserved⟩ := put_req hX hch hb hh hp
    rw [← hb.proxy] at hput
    obtain ⟨-, hnode, hat'⟩ := hat.deliver_enqueue hc hput (Node.unbinds_of_ok hh.rcode) hd ours_r
      hserved.queue
    obtain ⟨ha', hb'⟩ := node_setB hX hnode
    exact ⟨4, rfl, .served (ha' ▸ ha) (hb' ▸ hserved.node) (ha' ▸ hs) (hb' ▸ hserved.hdr) hat'⟩
  | served ha hb hs hh hat =>
    obtain ⟨hnode, hat'⟩ := hat.own_take ho
    obtain ⟨ha', hb'⟩ := node_setB hX hnode
    rw [check_ack hX hb hh] at hat'
    exact ⟨3, rfl, .answering (ha' ▸ ha) (hb' ▸ hb.unlink _) (ha' ▸ hs) (hb' ▸ hh) hat'⟩
  | answering ha hb hs hh hat =>
    obtain ⟨pay, hemit⟩ := hat.own_emit ho
    obtain ⟨n', pay', h, hsend, hn', hh', hp'⟩ := send_ack hX hb hch.ends hh pay
    obtain ⟨hnode, hat'⟩ := hemit _ _ _ hsend (oursHdr_ack hX hh')
    obtain ⟨ha', hb'⟩ := node_setB hX hnode
    refine ⟨2, rfl,
      .answered (ha' ▸ ha) (hb' ▸ hn') (ha' ▸ hs) hh' (fun hd => ?_) (hh'.dnode ▸ hat')⟩
    subst hd
    exact hp' rfl
  | answered ha hb hs hh hp hat =>
    obtain ⟨rest, ret, hc, hd⟩ := hat.own_deliver ho
    obtain ⟨n', hput, hwoken⟩ := put_ack hX (hsend rfl) hch ha hs hh hp
    rw [← ha.proxy] at hput
    obtain ⟨-, hnode, hat'⟩ := hat.deliver_done hc hput (Node.unbinds_of_ok hh.rcode) hd
      hwoken.sproxy
    obtain ⟨ha', hb'⟩ := node_setA hX hnode
    exact ⟨1, rfl, .woken (ha' ▸ hwoken.node) (hb' ▸ hb) (ha' ▸ hwoken.wakes) hat'⟩
  | woken ha hb hs hat => exact absurd ho hat.not_own

theorem Stage.exists_own (hsend : i = 2 → X.flagsQ.sending = false) (hch : X.Chunk dir v₀ v len)
    (hst : X.Stage dir v₀ v len i c) (hi : i ≠ 1) :
    ∃ c₁ c₂, Frame X.ours c c₁ ∧ Own unbind X.ours c₁ c₂ := by
  cases hst with
  | queued ha hb hs hh hat => exact hat.exists_take ours_r ha.up
  | taken ha hb hs hh hat =>
    refine hat.exists_emit ours_r fun c₁ hf => ?_
    rw [← hf.proc X.a X.r ours_r] at hh
    obtain ⟨_, _, _, hsend', -⟩ := send_req hX (ha.frame hf) (hs.frame hf) hch.rest.src hch.max hh
      fun _ => 0
    exact ⟨_, hsend'⟩
  | sent ha hb hs hh hp hat =>
    refine hat.exists_deliver (oursHdr_req hX hh) fun c₁ hf => ?_
    obtain ⟨n', hput, -⟩ := put_req hX hch (hb.frame hf) hh hp
    exact ⟨_, (hb.frame hf).proxy ▸ hput⟩
  | served ha hb hs hh hat => exact hat.exists_take ours_r hb.up
  | answering ha hb hs hh hat =>
    refine hat.exists_emit ours_r fun c₁ hf => ?_
    rw [← hf.proc X.b X.r ours_r] at hh
    obtain ⟨_, _, _, hsend', -⟩ := send_ack hX (hb.frame hf) hch.ends hh fun _ => 0
    exact ⟨_, hsend'⟩
  | answered ha hb hs hh hp hat =>
    refine hat.exists_deliver (oursHdr_ack hX hh) fun c₁ hf => ?_
    obtain ⟨n', hput, -⟩ := put_ack hX (hsend rfl) hch (ha.frame hf) (hs.frame hf) hh hp
    exact ⟨_, (ha.frame hf).proxy ▸ hput⟩
  | woken ha hb hs hat => exact absurd rfl hi

end Runs

end Duo

end MolIpc
