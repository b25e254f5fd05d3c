import MolIpc.Proxy.Get2rmt

/-!
The payload that `mm_get2rmt` hands to the sender proxy. The proxies of a node carry
`NODE2MAXBYTES` bytes; a command that asks for more is to be refused with `EMOL2BIG`. The test is
made for all the commands with a payload, but for those that answer a remote process its result
is overwritten by that of the copy, or goes to the proxy program only.
-/

namespace MolIpc

namespace Node

variable {n : Node} {x ret cp : ℤ} {pay pay' : Mem} {r : Node × Mem × ℤ} {a : ℕ}

/-- The most that the proxies carry to the node for which the command of `x` is. -/
def payloadMax (n : Node) (x : ℤ) : ℤ := n.conf.maxbytes (n.proc x).rmtcmd.dnode

/-- The remote descriptor `x` answers with more than the proxies carry. -/
def Oversized (n : Node) (x : ℤ) : Prop :=
  (n.proc x).rts.remote = true ∧
    ((n.proc x).rmtcmd.cmd = .copyoutData ∨ (n.proc x).rmtcmd.cmd = .copyinRqst) ∧
    n.payloadMax x < (n.proc x).rmtcmd.vcopy.bytes

/-- The local process `x` sends more than the proxies carry, to a process that is still there. -/
structure OversizedSend (n : Node) (x : ℤ) : Prop where
  isLocal : (n.proc x).rts.remote = false
  cmd : (n.proc x).rmtcmd.cmd = .copyinData
  other : endpointP (n.proc x).rmtcmd.dst ≠ x
  settled : (n.proc x).rmtcmd.dnode = (n.proc (endpointP (n.proc x).rmtcmd.dst)).nodeid
  big : n.payloadMax x < (n.proc x).rmtcmd.vcopy.bytes

/-- The turn for `x` writes nothing behind the limit, and a command that asks for more copies
nothing and has the error reported. -/
structure RespectsLimit (n : Node) (x ret : ℤ) (pay : Mem) (cp : ℤ) : Prop where
  limit (r : Node × Mem × Got) : n.get2rmtSend x ret pay cp = some r →
    ∀ a, (n.payloadMax x).toNat ≤ a → r.2.1 a = pay a
  answer : n.Oversized x → ∃ n' h, n.get2rmtSend x ret pay cp = some (n', pay, .hdr h) ∧
    h.rcode = EMol.tooBig
  send : ret = EMol.ok → n.OversizedSend x →
    ∃ n', n.get2rmtSend x ret pay cp = some (n', pay, .fail EMol.tooBig) ∧
      (n'.proc x).rts = Rts.running ∧ (n'.proc x).rcode = EMol.tooBig ∧
      (n'.proc x).pseudosem = (n.proc x).pseudosem + 1

/-! ### What is written -/

/-- The payload buffer is unchanged, or has taken the bytes of the command. -/
def Payload (v : Vcopy) (pay pay' : Mem) : Prop :=
  pay' = pay ∨ ∃ src : Mem, pay' = pay.blit 0 src v.saddr v.bytes.toNat

theorem Payload.eq_of_le {v : Vcopy} (h : Payload v pay pay') (ha : v.bytes.toNat ≤ a) :
    pay' a = pay a := by
  rcases h with rfl | ⟨src, rfl⟩
  · rfl
  · unfold Mem.blit
    rw [if_neg (by omega)]

theorem copyPayload_payload (s : ℤ) (v : Vcopy) : Payload v pay (n.copyPayload s v pay cp) := by
  unfold copyPayload
  split
  · exact .inr ⟨_, rfl⟩
  · exact .inl rfl

@[simp] theorem get2rmtClose_pay (r : Node × Mem × ℤ) : (get2rmtClose x r).2.1 = r.2.1 := by
  unfold get2rmtClose
  split <;> rfl

theorem clearOncopy_rmtcmd (i j : ℤ) : ((n.clearOncopy i).proc j).rmtcmd = (n.proc j).rmtcmd := by
  rw [clearOncopy_proc]

theorem get2rmtAck_inv
    (hc : (n.proc x).rmtcmd.cmd = .copyoutData ∨ (n.proc x).rmtcmd.cmd = .copyinRqst)
    (h : n.get2rmtAck x pay cp = some r) :
    (r.1.proc x).rmtcmd = (n.proc x).rmtcmd ∧
    ((r.2.1 = pay ∧ r.2.2 = EMol.badproc) ∨
      ((n.proc x).rmtcmd.rcode = EMol.ok ∧ Payload (n.proc x).rmtcmd.vcopy pay r.2.1 ∧
        r.2.2 = cp) ∨
      ((n.proc x).rmtcmd.rcode ≠ EMol.ok ∧ r.2.1 = pay ∧
        (n.payloadMax x < (n.proc x).rmtcmd.vcopy.bytes → r.2.2 = EMol.tooBig))) := by
  unfold get2rmtAck at h
  rcases hc with hc | hc
  all_goals
    simp only [hc] at h
    split at h
    · cases h
    split at h
    · split at h
      · cases h
        rename_i hok
        refine ⟨by simp only [clearOncopy_rmtcmd], .inr (.inl ⟨hok, copyPayload_payload _ _, rfl⟩)⟩
      · cases h
        rename_i hok
        exact ⟨by simp only [clearOncopy_rmtcmd], .inr (.inr ⟨hok, rfl, fun hb => if_pos hb⟩)⟩
    · cases h
      exact ⟨rfl, .inl ⟨rfl, rfl⟩⟩

theorem get2rmtAck_pay
    (hc : ¬ ((n.proc x).rmtcmd.cmd = .copyoutData ∨ (n.proc x).rmtcmd.cmd = .copyinRqst))
    (h : n.get2rmtAck x pay cp = some r) : r.2.1 = pay := by
  unfold get2rmtAck at h
  dsimp only at h
  split at h
  case h_4 hd => exact absurd (.inl hd) hc
  case h_5 hd => exact absurd (.inr hd) hc
  all_goals repeat' split at h
  all_goals
    simp only [reduceCtorEq, Option.some.injEq] at h
    try subst h
    try rfl

theorem get2rmtRequest_pay :
    (n.get2rmtRequest x pay cp).2.1 = pay ∨
      (n.proc x).rmtcmd.vcopy.bytes ≤ n.payloadMax x ∧
        Payload (n.proc x).rmtcmd.vcopy pay (n.get2rmtRequest x pay cp).2.1 := by
  unfold get2rmtRequest
  dsimp only
  rw [modProc_same]
  split
  · split
    · exact .inl rfl
    · rename_i hb
      exact .inr ⟨Int.not_lt.1 hb, copyPayload_payload _ _⟩
  all_goals exact .inl rfl

/-! ### The turns -/

theorem get2rmtClose_of_ne (h : r.2.2 ≠ EMol.ok) :
    get2rmtClose x r = (r.1.get2rmtGiveUp x r.2.2, r.2.1, .fail r.2.2) :=
  if_pos h

theorem Oversized.rcode (ho : n.Oversized x) {n' : Node} {h : Hdr}
    (hs : n.get2rmtSend x ret pay cp = some (n', pay', .hdr h)) : h.rcode = EMol.ok := by
  obtain ⟨hr, hc, hb⟩ := ho
  unfold get2rmtSend at hs
  split at hs
  · -- an acknowledge that is refused is forgotten
    simp [get2rmtRefuse, hr] at hs
  obtain ⟨r, hack, hclose⟩ := Option.map_eq_some_iff.1 hs
  obtain ⟨hcmd, hcases⟩ := get2rmtAck_inv hc hack
  by_cases hok : r.2.2 = EMol.ok
  · rw [if_neg (not_not_intro hok)] at hclose
    have hrc : (n.proc x).rmtcmd.rcode = EMol.ok := by
      rcases hcases with ⟨-, hbad⟩ | ⟨hrc, -, -⟩ | ⟨-, -, hbig⟩
      · exact absurd (hok.symm.trans hbad) (by decide)
      · exact hrc
      · exact absurd (hok.symm.trans (hbig hb)) (by decide)
    unfold get2rmtClose at hclose
    rw [if_neg (not_not_intro hok)] at hclose
    obtain rfl := Got.hdr.inj (congrArg (fun o => o.2.2) hclose)
    rw [modProc_same]
    exact (congrArg Hdr.rcode hcmd).trans hrc
  · rw [if_pos hok, get2rmtClose_of_ne hok] at hclose
    exact Got.noConfusion (congrArg (fun o => o.2.2) hclose)

theorem get2rmtSend_limit (ho : ¬ n.Oversized x) {r : Node × Mem × Got}
    (hs : n.get2rmtSend x ret pay cp = some r) (ha : (n.payloadMax x).toNat ≤ a) :
    r.2.1 a = pay a := by
  have hpay : ∀ {pay' : Mem}, (n.proc x).rmtcmd.vcopy.bytes ≤ n.payloadMax x →
      Payload (n.proc x).rmtcmd.vcopy pay pay' → pay' a = pay a :=
    fun hb hp => hp.eq_of_le (by omega)
  unfold get2rmtSend at hs
  split at hs
  · cases hs
    rfl
  split at hs
  · rename_i hr
    obtain ⟨q, hack, rfl⟩ := Option.map_eq_some_iff.1 hs
    have hq : (get2rmtClose x (if q.2.2 ≠ EMol.ok then q
        else (q.1.modProc x fun p =>
          { p.endSend with rts := { p.endSend.rts with rmtoper := false } }, q.2))).2.1 = q.2.1 := by
      rw [get2rmtClose_pay]
      split <;> rfl
    rw [hq]
    by_cases hc : (n.proc x).rmtcmd.cmd = .copyoutData ∨ (n.proc x).rmtcmd.cmd = .copyinRqst
    · have hb : (n.proc x).rmtcmd.vcopy.bytes ≤ n.payloadMax x :=
        Int.not_lt.1 fun hb => ho ⟨hr, hc, hb⟩
      rcases (get2rmtAck_inv hc hack).2 with ⟨h, -⟩ | ⟨-, hp, -⟩ | ⟨-, h, -⟩
      · rw [h]
      · exact hpay hb hp
      · rw [h]
    · rw [get2rmtAck_pay hc hack]
  · unfold get2rmtSendRequest at hs
    dsimp only at hs
    split at hs
    · cases hs
    split at hs
    · cases hs
      rfl
    · cases hs
      rw [get2rmtClose_pay]
      have hreq : (n.get2rmtRequest x pay cp).2.1 = pay ∨ _ := get2rmtRequest_pay
      rcases hreq with h | ⟨hb, hp⟩
      · exact congrFun h a
      · exact hpay hb hp

theorem OversizedSend.woken (h : n.OversizedSend x) (pay : Mem) (cp : ℤ) :
    ∃ n', n.get2rmtSend x EMol.ok pay cp = some (n', pay, .fail EMol.tooBig) ∧
      (n'.proc x).rts = Rts.running ∧ (n'.proc x).rcode = EMol.tooBig ∧
      (n'.proc x).pseudosem = (n.proc x).pseudosem + 1 := by
  let n₁ := (n.modProc x fun p => { p with rts := { p.rts with rmtoper := false } }).modProc x
    fun p => { p with proxy := noneEp }
  have hrequest : n.get2rmtRequest x pay cp =
      (n.modProc x fun p => { p with rts := { p.rts with rmtoper := false } }, pay,
        EMol.tooBig) := by
    have hb : (n.conf.maxbytes (n.proc x).rmtcmd.dnode) < (n.proc x).rmtcmd.vcopy.bytes := h.big
    simp only [get2rmtRequest, modProc_same, h.cmd, modProc_conf, hb, if_true]
  have hsend : n.get2rmtSend x EMol.ok pay cp =
      some (get2rmtClose x (n₁, pay, EMol.tooBig)) := by
    unfold get2rmtSend
    rw [if_neg (not_not_intro rfl), if_neg (by simp [h.isLocal]), get2rmtSendRequest,
      if_neg h.other, if_neg (not_not_intro h.settled), hrequest]
  have hremote : (n₁.proc x).rts.remote = false := by
    simp only [n₁, modProc_same]
    exact h.isLocal
  refine ⟨n₁.get2rmtGiveUp x EMol.tooBig, ?_, ?_⟩
  · rw [hsend, get2rmtClose_of_ne (show EMol.tooBig ≠ EMol.ok by decide)]
  · rw [get2rmtGiveUp, if_neg (by simp [hremote]), modProc_same]
    refine ⟨rfl, rfl, ?_⟩
    simp only [n₁, Proc.up, modProc_same]

/-- **The payload limit is respected** iff no remote descriptor answers with more than the proxies
carry. -/
theorem respectsLimit_iff (n : Node) (x ret : ℤ) (pay : Mem) (cp : ℤ) :
    RespectsLimit n x ret pay cp ↔ ¬ n.Oversized x := by
  constructor
  · intro h ho
    obtain ⟨n', hdr, hs, hbig⟩ := h.answer ho
    exact absurd ((ho.rcode hs).symm.trans hbig) (by decide)
  · intro ho
    refine ⟨fun r hs a ha => get2rmtSend_limit ho hs ha, fun h => absurd h ho, ?_⟩
    rintro rfl h
    exact h.woken pay cp

/-! ### A copy between two other nodes -/

def limitSample : Node where
  conf := { Conf.sample 1 with pxMaxbytes := fun _ => 1000 }
  proc := fun q =>
    if q = 6 then { Proc.sample 1 6 { receiving := true } with mem := fun _ => 1 }
    else if q = 5 then Proc.sample 0 5 { remote := true }
    else if q = 7 then Proc.sample 2 7 { remote := true }
    else {}
  sproxy := Proc.sampleProxy
  rproxy := Proc.sampleProxy

def limitHdr : Hdr :=
  { cmd := .copyrmtRqst, src := 5, dst := 6, snode := 0, dnode := 1
    vcopy := { src := 6, dst := 7, rqtr := 5, bytes := 2000 } }

/-- The request is taken, and 2000 bytes are written to the payload buffer. -/
theorem payload_overrun :
    ∃ n₁ n₂ r, limitSample.put2lcl 0 limitHdr (fun _ => 0) 0 = some (n₁, EMol.ok) ∧
      n₁.get2rmtDequeue 2 = some (n₂, 7, EMol.ok) ∧
      n₂.get2rmtSend 7 EMol.ok (fun _ => 0) 0 = some r ∧
      n₂.payloadMax 7 = 1000 ∧ r.2.1 1500 = 1 ∧
      ¬ RespectsLimit n₂ 7 EMol.ok (fun _ => 0) 0 := by
  refine ⟨_, _, _, rfl, rfl, rfl, by decide, by decide, fun h => ?_⟩
  exact absurd (h.limit _ rfl 1500 (by decide)) (by decide)

end Node

end MolIpc
