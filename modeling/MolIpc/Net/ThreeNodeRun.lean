import MolIpc.Net.ThreeNodeCopy

/-!
Runs of a remote copy between three nodes.

Each chunk goes through ten moves: its request is taken off the queue of node `a`, sent and
delivered to node `b`, its data are taken off the queue of node `b`, sent and delivered to node
`k`, the acknowledge is taken off the queue of node `k`, sent and delivered to node `a`, and the
requester wakes up. `Stage` says what the cluster looks like before each of them.
-/

namespace MolIpc

namespace Trio

open Cluster
open Duo (Carries)

/-- The memory of `d` when `left` bytes of the copy `v₀` are still to come. -/
def memD' (X : Trio) (v₀ : VcopyCall) (left : ℤ) : Mem :=
  X.memD.blit v₀.daddr X.memS v₀.saddr (v₀.bytes - left).toNat

/-- A chunk of the copy `v₀`: `v` is what is left before it, `len` its size, no larger than the
first one. -/
structure Chunk (X : Trio) (v₀ v : VcopyCall) (len : ℤ) : Prop where
  between : X.Between v
  saddr : v.saddr = v₀.saddr + (v₀.bytes - v.bytes).toNat
  daddr : v.daddr = v₀.daddr + (v₀.bytes - v.bytes).toNat
  pos : 0 < len
  le : len ≤ v.bytes
  rest : v.bytes ≤ v₀.bytes
  first : len ≤ min X.ca.dMaxCopybuf v₀.bytes

/-- The three nodes during the copy, with the flags of the requester, of `d` on node `b` and of `r`
on node `k`, the memory of `d`, and the semaphore of the requester. -/
structure Parts (X : Trio) (rr fd fr : Rts) (md : Mem) (sem : ℤ) (c : Cluster) : Prop where
  nodeA : X.NodeA rr true (c.node X.a)
  nodeB : X.NodeB fd (c.node X.b)
  nodeK : X.NodeK fr md (c.node X.k)
  sleeps : X.Sleeps sem (c.node X.a)

/-- The cluster, with the number of moves that are left for the chunk. -/
inductive Stage (X : Trio) (v₀ v : VcopyCall) (len : ℤ) : ℕ → Cluster → Prop
  | queued {c : Cluster} :
      X.Parts queuedFlags X.flagsDb X.flagsRk (X.memD' v₀ v.bytes) (-1) c →
      X.IsReq v len ((c.node X.a).proc X.r).rmtcmd →
      At X.ours c (.queue X.a (X.ca.nProxies X.b) X.r) → Stage X v₀ v len 10 c
  | taken {c : Cluster} :
      X.Parts queuedFlags X.flagsDb X.flagsRk (X.memD' v₀ v.bytes) (-1) c →
      X.IsReq v len ((c.node X.a).proc X.r).rmtcmd →
      At X.ours c (.hand X.a (X.ca.nProxies X.b) X.r EMol.ok) → Stage X v₀ v len 9 c
  | sent {c : Cluster} {h : Hdr} {pay : Mem} :
      X.Parts Rts.onlyOncopy X.flagsDb X.flagsRk (X.memD' v₀ v.bytes) (-1) c →
      X.IsReq v len h → At X.ours c (.chan X.a X.b h pay) → Stage X v₀ v len 8 c
  | asked {c : Cluster} :
      X.Parts Rts.onlyOncopy X.dataFlags X.flagsRk (X.memD' v₀ v.bytes) (-1) c →
      X.IsData v len ((c.node X.b).proc X.d).rmtcmd →
      At X.ours c (.queue X.b (X.cb.nProxies X.k) X.d) → Stage X v₀ v len 7 c
  | loading {c : Cluster} :
      X.Parts Rts.onlyOncopy X.dataFlags X.flagsRk (X.memD' v₀ v.bytes) (-1) c →
      X.IsData v len ((c.node X.b).proc X.d).rmtcmd →
      At X.ours c (.hand X.b (X.cb.nProxies X.k) X.d EMol.ok) → Stage X v₀ v len 6 c
  | loaded {c : Cluster} {h : Hdr} {pay : Mem} :
      X.Parts Rts.onlyOncopy X.flagsDb X.flagsRk (X.memD' v₀ v.bytes) (-1) c →
      X.IsData v len h → Carries pay X.memS v.saddr len →
      At X.ours c (.chan X.b X.k h pay) → Stage X v₀ v len 5 c
  | served {c : Cluster} :
      X.Parts Rts.onlyOncopy X.flagsDb X.ackFlags (X.memD' v₀ (v.bytes - len)) (-1) c →
      X.IsAck v len X.ed ((c.node X.k).proc X.r).rmtcmd →
      At X.ours c (.queue X.k (X.ck.nProxies X.a) X.r) → Stage X v₀ v len 4 c
  | answering {c : Cluster} :
      X.Parts Rts.onlyOncopy X.flagsDb X.ackFlags (X.memD' v₀ (v.bytes - len)) (-1) c →
      X.IsAck v len X.ed ((c.node X.k).proc X.r).rmtcmd →
      At X.ours c (.hand X.k (X.ck.nProxies X.a) X.r EMol.ok) → Stage X v₀ v len 3 c
  | answered {c : Cluster} {h : Hdr} {pay : Mem} :
      X.Parts Rts.onlyOncopy X.flagsDb X.flagsRk (X.memD' v₀ (v.bytes - len)) (-1) c →
      X.IsAck v len X.ed h → At X.ours c (.chan X.k X.a h pay) → Stage X v₀ v len 2 c
  | woken {c : Cluster} :
      X.Parts Rts.onlyOncopy X.flagsDb X.flagsRk (X.memD' v₀ (v.bytes - len)) 0 c →
      At X.ours c .nowhere → Stage X v₀ v len 1 c

/-- What the node that the command reaches asks for at this stage. -/
def Accepts (X : Trio) (len : ℤ) : ℕ → Prop
  | 8 => X.flagsRb.sending = false ∧ X.flagsDb.sending = false
  | 5 => X.ed = X.k ∧ X.dataCode len = EMol.ok ∧ X.flagsSk.sending = false
  | 2 => X.flagsDa.sending = false
  | _ => True

theorem sending_of_dataCode {X : Trio} {len : ℤ} (h : X.dataCode len = EMol.ok) :
    X.flagsRk.sending = false := by
  unfold dataCode at h
  split at h
  · exact absurd h (by decide)
  split at h
  · exact absurd h (by decide)
  · simp_all

section Runs

variable {X : Trio} {v₀ v : VcopyCall} {len k : ℤ} {c c' : Cluster} {i : ℕ} {rr fd fr : Rts}
  {md : Mem} {sem : ℤ} {unbind : Node → ℤ → Node}

@[simp] theorem ours_r : X.ours X.r = true := by simp [ours]
@[simp] theorem ours_s : X.ours X.s = true := by simp [ours]
@[simp] theorem ours_d : X.ours X.d = true := by simp [ours]

/-! ### The rest of the cluster -/

section Frame

variable (hf : Frame X.ours c c')

include hf

theorem Sees.frame {cf : Conf} {i j : ℤ} {fs : Rts} (h : X.Sees cf i j fr fs fd (c.node k)) :
    X.Sees cf i j fr fs fd (c'.node k) :=
  ⟨(hf.conf _).trans h.conf, hf.up _ _ _ h.up₁, hf.up _ _ _ h.up₂, hf.proc k X.r ours_r ▸ h.descR,
    hf.proc k X.s ours_s ▸ h.descS, hf.proc k X.d ours_d ▸ h.descD⟩

theorem Parts.frame (h : X.Parts rr fd fr md sem c) : X.Parts rr fd fr md sem c' := by
  have hr := hf.proc X.a X.r ours_r
  exact ⟨⟨h.nodeA.toSees.frame hf, hr ▸ h.nodeA.stay⟩,
    ⟨h.nodeB.toSees.frame hf, hf.proc X.b X.s ours_s ▸ h.nodeB.mem⟩,
    ⟨h.nodeK.toSees.frame hf, hf.proc X.k X.d ours_d ▸ h.nodeK.mem⟩,
    ⟨hr ▸ h.sleeps.sem, hr ▸ h.sleeps.rcode⟩⟩

theorem Stage.frame (hst : X.Stage v₀ v len i c) : X.Stage v₀ v len i c' := by
  have hra := hf.proc X.a X.r ours_r
  have hdb := hf.proc X.b X.d ours_d
  have hrk := hf.proc X.k X.r ours_r
  cases hst with
  | queued hp hh hat => exact .queued (hp.frame hf) (hra ▸ hh) (hat.frame hf)
  | taken hp hh hat => exact .taken (hp.frame hf) (hra ▸ hh) (hat.frame hf)
  | sent hp hh hat => exact .sent (hp.frame hf) hh (hat.frame hf)
  | asked hp hh hat => exact .asked (hp.frame hf) (hdb ▸ hh) (hat.frame hf)
  | loading hp hh hat => exact .loading (hp.frame hf) (hdb ▸ hh) (hat.frame hf)
  | loaded hp hh hpay hat => exact .loaded (hp.frame hf) hh hpay (hat.frame hf)
  | served hp hh hat => exact .served (hp.frame hf) (hrk ▸ hh) (hat.frame hf)
  | answering hp hh hat => exact .answering (hp.frame hf) (hrk ▸ hh) (hat.frame hf)
  | answered hp hh hat => exact .answered (hp.frame hf) hh (hat.frame hf)
  | woken hp hat => exact .woken (hp.frame hf) (hat.frame hf)

end Frame

/-! ### One node changes -/

section Change

variable (hX : X.Wf) (hp : X.Parts rr fd fr md sem c) {n : Node}

include hX hp

theorem Parts.setA {rr' : Rts} {sem' : ℤ} (hnode : c'.node = Function.update c.node X.a n)
    (hn : X.NodeA rr' true n) (hs : X.Sleeps sem' n) : X.Parts rr' fd fr md sem' c' := by
  have ha : c'.node X.a = n := by simp [hnode]
  have hb : c'.node X.b = c.node X.b := by simp [hnode, hX.ne_ab.symm]
  have hk : c'.node X.k = c.node X.k := by simp [hnode, hX.ne_ak.symm]
  exact ⟨ha ▸ hn, hb ▸ hp.nodeB, hk ▸ hp.nodeK, ha ▸ hs⟩

theorem Parts.setB {fd' : Rts} (hnode : c'.node = Function.update c.node X.b n)
    (hn : X.NodeB fd' n) : X.Parts rr fd' fr md sem c' := by
  have ha : c'.node X.a = c.node X.a := by simp [hnode, hX.ne_ab]
  have hb : c'.node X.b = n := by simp [hnode]
  have hk : c'.node X.k = c.node X.k := by simp [hnode, hX.ne_bk.symm]
  exact ⟨ha ▸ hp.nodeA, hb ▸ hn, hk ▸ hp.nodeK, ha ▸ hp.sleeps⟩

theorem Parts.setK {fr' : Rts} {md' : Mem} (hnode : c'.node = Function.update c.node X.k n)
    (hn : X.NodeK fr' md' n) : X.Parts rr fd fr' md' sem c' := by
  have ha : c'.node X.a = c.node X.a := by simp [hnode, hX.ne_ak]
  have hb : c'.node X.b = c.node X.b := by simp [hnode, hX.ne_bk]
  have hk : c'.node X.k = n := by simp [hnode]
  exact ⟨ha ▸ hp.nodeA, hb ▸ hp.nodeB, hk ▸ hn, ha ▸ hp.sleeps⟩

end Change

/-! ### Moves of the proxies -/

theorem Chunk.memD (hch : X.Chunk v₀ v len) :
    X.memD' v₀ (v.bytes - len) =
      (X.memD' v₀ v.bytes).blit v.daddr X.memS v.saddr len.toNat := by
  have hsum : (v₀.bytes - (v.bytes - len)).toNat = (v₀.bytes - v.bytes).toNat + len.toNat := by
    have := hch.rest
    have := hch.pos
    omega
  simp [memD', hsum, hch.saddr, hch.daddr, Mem.blit_blit]

theorem Chunk.max (hX : X.Wf) (hch : X.Chunk v₀ v len) : 0 < len ∧ len ≤ maxCopyLen := by
  have := hch.pos
  have := hch.first
  have := hX.buf.2
  omega

section Own

variable (hX : X.Wf) {h : Hdr}

include hX

theorem oursHdr_req (hh : X.IsReq v len h) : oursHdr X.ours h = true := by
  simp [oursHdr, hh.src, hX.endR]

theorem oursHdr_data (hh : X.IsData v len h) : oursHdr X.ours h = true := by
  simp [oursHdr, hh.src, hX.endS]

theorem oursHdr_ack {e : ℤ} (hh : X.IsAck v len e h) : oursHdr X.ours h = true := by
  simp [oursHdr, hh.dst, hX.endR]

theorem Stage.own (hch : X.Chunk v₀ v len) (hok : ∀ j, i ≤ j → X.Accepts len j)
    (hst : X.Stage v₀ v len i c) (ho : Own unbind X.ours c c') :
    ∃ j, i = j + 1 ∧ X.Stage v₀ v len j c' := by
  cases hst with
  | queued hp hh hat =>
    obtain ⟨hnode, hat'⟩ := hat.own_take ho
    rw [check_req hX hp.nodeA hh] at hat'
    refine ⟨9, rfl, .taken (hp.setA hX hnode ⟨hp.nodeA.toSees.unlink X.r, hp.nodeA.stay⟩
      ⟨hp.sleeps.sem, hp.sleeps.rcode⟩) ?_ hat'⟩
    rw [hnode, Function.update_self]
    exact hh
  | taken hp hh hat =>
    obtain ⟨pay, hemit⟩ := hat.own_emit ho
    obtain ⟨n', h, hsend, hn', hs', hh'⟩ := send_req hX hp.nodeA hp.sleeps hh pay
    obtain ⟨hnode, hat'⟩ := hemit _ _ _ hsend (oursHdr_req hX hh')
    exact ⟨8, rfl, .sent (hp.setA hX hnode hn' hs') hh' (hh'.dnode ▸ hat')⟩
  | sent hp hh hat =>
    obtain ⟨rest, ret, hc, hd⟩ := hat.own_deliver ho
    obtain ⟨hR, hD⟩ : X.Accepts len 8 := hok 8 (Nat.le_refl _)
    obtain ⟨n', hput, hn', hh', happ⟩ := put_req hX hp.nodeB hh (hch.max hX) hR hD
    rw [← hp.nodeB.conf] at hput
    obtain ⟨-, hnode, hat'⟩ :=
      hat.deliver_enqueue hc hput (Node.unbinds_of_ok hh.rcode) hd ours_d happ
    refine ⟨7, rfl, .asked (hp.setB hX hnode hn') ?_ hat'⟩
    rw [hnode, Function.update_self]
    exact hh'
  | asked hp hh hat =>
    obtain ⟨hnode, hat'⟩ := hat.own_take ho
    rw [check_data hX hp.nodeB hh] at hat'
    refine ⟨6, rfl, .loading (hp.setB hX hnode ⟨hp.nodeB.toSees.unlink X.d, hp.nodeB.mem⟩) ?_ hat'⟩
    rw [hnode, Function.update_self]
    exact hh
  | loading hp hh hat =>
    obtain ⟨pay, hemit⟩ := hat.own_emit ho
    obtain ⟨-, hD⟩ : X.Accepts len 8 := hok 8 (by decide)
    obtain ⟨n', pay', h, hsend, hn', hh', hpay'⟩ := send_data hX hp.nodeB hD hh pay
    obtain ⟨hnode, hat'⟩ := hemit _ _ _ hsend (oursHdr_data hX hh')
    exact ⟨5, rfl, .loaded (hp.setB hX hnode hn') hh' hpay' (hh'.dnode ▸ hat')⟩
  | loaded hp hh hpay hat =>
    obtain ⟨rest, ret, hc, hd⟩ := hat.own_deliver ho
    obtain ⟨hname, hcode, hS⟩ : X.Accepts len 5 := hok 5 (Nat.le_refl _)
    obtain ⟨n', hput, hn', hh', happ⟩ := put_data hX hp.nodeK hh hpay hname hcode hS
    rw [← hch.memD] at hn'
    rw [← hp.nodeK.conf] at hput
    obtain ⟨-, hnode, hat'⟩ :=
      hat.deliver_enqueue hc hput (Node.unbinds_of_ok hh.rcode) hd ours_r happ
    refine ⟨4, rfl, .served (hp.setK hX hnode hn') ?_ hat'⟩
    rw [hnode, Function.update_self]
    exact hh'
  | served hp hh hat =>
    obtain ⟨hnode, hat'⟩ := hat.own_take ho
    rw [check_ack hX hp.nodeK hh] at hat'
    refine ⟨3, rfl,
      .answering (hp.setK hX hnode ⟨hp.nodeK.toSees.unlink X.r, hp.nodeK.mem⟩) ?_ hat'⟩
    rw [hnode, Function.update_self]
    exact hh
  | answering hp hh hat =>
    obtain ⟨pay, hemit⟩ := hat.own_emit ho
    have hR : X.flagsRk.sending = false := sending_of_dataCode (hok 5 (by decide)).2.1
    obtain ⟨n', h, hsend, hn', hh'⟩ := send_ack hX hp.nodeK hR hh pay
    obtain ⟨hnode, hat'⟩ := hemit _ _ _ hsend (oursHdr_ack hX hh')
    exact ⟨2, rfl, .answered (hp.setK hX hnode hn') hh' (hh'.dnode ▸ hat')⟩
  | answered hp hh hat =>
    obtain ⟨rest, ret, hc, hd⟩ := hat.own_deliver ho
    obtain ⟨n', hput, hn', hs', hsp⟩ :=
      put_ack hX hp.nodeA hp.sleeps hh (hok 2 (Nat.le_refl _))
    rw [← hp.nodeA.conf] at hput
    obtain ⟨-, hnode, hat'⟩ := hat.deliver_done hc hput (Node.unbinds_of_ok hh.rcode) hd hsp
    exact ⟨1, rfl, .woken (hp.setA hX hnode hn' hs') hat'⟩
  | woken hp hat => exact absurd ho hat.not_own

theorem Stage.accepted (hch : X.Chunk v₀ v len) (hok : X.Accepts len i) (hst : X.Stage v₀ v len i c)
    {m : ℤ} {pay : Mem} {rest : List (Hdr × Mem)} (hc : c.chan m k = (h, pay) :: rest)
    (ho : oursHdr X.ours h = true) : ∃ c', c.deliver unbind k m = some (c', EMol.ok) := by
  cases hst with
  | sent hp hh hat =>
    cases hat.eq_chan hc ho
    obtain ⟨n', hput, -⟩ := put_req hX hp.nodeB hh (hch.max hX) hok.1 hok.2
    rw [← hp.nodeB.conf] at hput
    exact deliver_of_put hc hput
  | loaded hp hh hpay hat =>
    cases hat.eq_chan hc ho
    obtain ⟨n', hput, -⟩ := put_data hX hp.nodeK hh hpay hok.1 hok.2.1 hok.2.2
    rw [← hp.nodeK.conf] at hput
    exact deliver_of_put hc hput
  | answered hp hh hat =>
    cases hat.eq_chan hc ho
    obtain ⟨n', hput, -⟩ := put_ack hX hp.nodeA hp.sleeps hh hok
    rw [← hp.nodeA.conf] at hput
    exact deliver_of_put hc hput
  | queued _ _ hat | taken _ _ hat | asked _ _ hat | loading _ _ hat | served _ _ hat
  | answering _ _ hat | woken _ hat => cases hat.eq_chan hc ho

theorem Stage.exists_own (hch : X.Chunk v₀ v len) (hok : ∀ j, i ≤ j → X.Accepts len j)
    (hst : X.Stage v₀ v len i c) (hi : i ≠ 1) :
    ∃ c₁ c₂, Frame X.ours c c₁ ∧ Own unbind X.ours c₁ c₂ := by
  cases hst with
  | queued hp hh hat => exact hat.exists_take ours_r hp.nodeA.up₁
  | taken hp hh hat =>
    refine hat.exists_emit ours_r fun c₁ hf => ?_
    have hp₁ := hp.frame hf
    rw [← hf.proc X.a X.r ours_r] at hh
    obtain ⟨_, _, hsend, -⟩ := send_req hX hp₁.nodeA hp₁.sleeps hh fun _ => 0
    exact ⟨_, hsend⟩
  | asked hp hh hat => exact hat.exists_take ours_d hp.nodeB.up₂
  | loading hp hh hat =>
    refine hat.exists_emit ours_d fun c₁ hf => ?_
    rw [← hf.proc X.b X.d ours_d] at hh
    obtain ⟨-, hD⟩ : X.Accepts len 8 := hok 8 (by decide)
    obtain ⟨_, _, _, hsend, -⟩ := send_data hX (hp.frame hf).nodeB hD hh fun _ => 0
    exact ⟨_, hsend⟩
  | served hp hh hat => exact hat.exists_take ours_r hp.nodeK.up₁
  | answering hp hh hat =>
    refine hat.exists_emit ours_r fun c₁ hf => ?_
    rw [← hf.proc X.k X.r ours_r] at hh
    have hR : X.flagsRk.sending = false := sending_of_dataCode (hok 5 (by decide)).2.1
    obtain ⟨_, _, hsend, -⟩ := send_ack hX (hp.frame hf).nodeK hR hh fun _ => 0
    exact ⟨_, hsend⟩
  | sent hp hh hat =>
    refine hat.exists_deliver (oursHdr_req hX hh) fun c₁ hf => ?_
    obtain ⟨hR, hD⟩ : X.Accepts len 8 := hok 8 (Nat.le_refl _)
    have hp₁ := (hp.frame hf).nodeB
    obtain ⟨n', hput, -⟩ := put_req hX hp₁ hh (hch.max hX) hR hD
    exact ⟨_, hp₁.conf ▸ hput⟩
  | loaded hp hh hpay hat =>
    refine hat.exists_deliver (oursHdr_data hX hh) fun c₁ hf => ?_
    obtain ⟨hname, hcode, hS⟩ : X.Accepts len 5 := hok 5 (Nat.le_refl _)
    have hp₁ := (hp.frame hf).nodeK
    obtain ⟨n', hput, -⟩ := put_data hX hp₁ hh hpay hname hcode hS
    exact ⟨_, hp₁.conf ▸ hput⟩
  | answered hp hh hat =>
    refine hat.exists_deliver (oursHdr_ack hX hh) fun c₁ hf => ?_
    have hp₁ := hp.frame hf
    obtain ⟨n', hput, -⟩ := put_ack hX hp₁.nodeA hp₁.sleeps hh (hok 2 (Nat.le_refl _))
    exact ⟨_, hp₁.nodeA.conf ▸ hput⟩
  | woken hp hat => exact absurd rfl hi

end Own

end Runs

end Trio

end MolIpc
