import MolIpc.Ipc.Calls

/-!
A call to a process of another node looks at the sender proxy, gives up its lock, and takes it
again in `sproxy_enqueue`, which refuses a proxy that was released meanwhile. The calls are cut
between the two: `afterCheck` is what follows the check, in whatever state the others have left.
`mm_vcopy` looks at the result of `sproxy_enqueue`; the message calls do not.
-/

namespace MolIpc

variable {v : VcopyCall}

/-- A call that has found its peer on another node, with the sender proxy in order. -/
inductive RemoteCall
  | send (dst timeout cp : ℤ)
  | sendrec (ep timeout cp : ℤ)
  | reply (dst timeout cp : ℤ)
  | notify (srcNr dst upd : ℤ)
  | copy (v : VcopyCall)

def Next.code : Next → Option ℤ
  | .ret code => some code
  | .sleep _ _ => none

def VcopyNext.code : VcopyNext → Option ℤ
  | .ret code => some code
  | .sleep _ _ => none
  | .waitMigr _ _ => none

namespace RemoteCall

/-- The node on which the caller `c` calls `sproxy_enqueue`. -/
def prepared (r : RemoteCall) (n : Node) (c : ℤ) : Node :=
  let ask := fun (n : Node) cmd ep rcode (msg : Message) =>
    n.modProc c fun p =>
      { p with
        rmtcmd := { p.rmtcmd with
          cmd := cmd, dcid := n.conf.dcid, src := p.endpoint, dst := ep
          snode := n.conf.localNodeid, dnode := (n.proc (endpointP ep)).nodeid
          rcode := rcode, len := 0, msg := msg }
        rts := { p.rts with sending := true, rmtoper := true }
        sendto := ep }
  match r with
  | send dst _ cp => ask (n.stopRemote c (endpointP dst)) .sendMsg dst EMol.ok (n.handed c cp)
  | sendrec ep _ cp =>
    let n := n.modProc c fun p => { p with rts := { p.rts with receiving := true } }
    ask n .sndrecMsg ep EMol.ok (n.handed c cp)
  | reply dst _ cp => ask (n.stopRemote c (endpointP dst)) .replyMsg dst EMol.ok (n.handed c cp)
  | notify srcNr dst upd =>
    let d := endpointP dst
    let src := n.notifySource c srcNr
    let n := (n.stopRemote c d).modProc d (·.buildNotify (d = c) src.2 src.1)
    ask n .ntfyMsg dst (if 0 ≤ upd ∧ upd < 32 then upd else -1) (n.proc d).message
  | copy v =>
    n.modProc c fun p =>
      { p with
        rts := { p.rts with rmtoper := true }, rmtcmd := n.vcopyHdr c v (n.vcopyLen v) }

/-- What the call does after the check of the proxy, up to its return or its sleep. -/
def afterCheck (r : RemoteCall) (n : Node) (c : ℤ) : Node × Option ℤ :=
  let queued := ((r.prepared n c).sproxyEnqueue c).1
  let left := fun (n : Node) code => (n.leaveProxy c, Next.ret code)
  match r with
  | send dst timeout _ =>
    (queued.sleepOr c timeout (.sleep (.send dst) .remote) left).map id Next.code
  | sendrec ep timeout _ =>
    (queued.sleepOr c timeout (.sleep (.sendrec ep) .remote) fun n code =>
      ((n.leaveProxy c).modProc c Proc.endReceive, .ret code)).map id Next.code
  | reply dst timeout _ =>
    (queued.sleepOr c timeout (.sleep (.reply dst) .remote) left).map id Next.code
  | notify srcNr dst upd =>
    (queued.sleepOr c timeoutForever (.sleep (.notify srcNr dst upd) .remote) left).map id Next.code
  | copy v => (n.vcopyIssue c v).map id VcopyNext.code

/-! ### The calls -/

section Calls

variable {n : Node} {c dst timeout cp : ℤ}

theorem afterCheck_send (h : n.vcopyProxy (n.proc (endpointP dst)).nodeid = EMol.ok) :
    (n.sendRemote c dst timeout cp).map id Next.code = (send dst timeout cp).afterCheck n c := by
  rw [Node.sendRemote, h]
  rfl

theorem afterCheck_sendrec {ep : ℤ} (h : n.vcopyProxy (n.proc (endpointP ep)).nodeid = EMol.ok) :
    (n.sendrecRemote c ep timeout cp).map id Next.code =
      (sendrec ep timeout cp).afterCheck n c := by
  rw [Node.sendrecRemote, h]
  rfl

theorem afterCheck_reply (h : n.vcopyProxy (n.proc (endpointP dst)).nodeid = EMol.ok) :
    (n.replyRemote c dst timeout cp).map id Next.code = (reply dst timeout cp).afterCheck n c := by
  rw [Node.replyRemote, h]
  rfl

theorem afterCheck_notify {srcNr upd : ℤ}
    (h : n.vcopyProxy (n.proc (endpointP dst)).nodeid = EMol.ok) :
    (n.notifyRemote c srcNr dst upd).map id Next.code =
      (notify srcNr dst upd).afterCheck n c := by
  rw [Node.notifyRemote, h]
  rfl

end Calls

end RemoteCall

/-! ### A caller that leaves nothing behind -/

structure Node.Detached (n : Node) (c : ℤ) : Prop where
  list (q : ℤ) : c ∉ (n.proc q).list
  proxies (q : ℤ) : c ∉ (n.sproxy q).list
  sending : (n.proc c).rts.sending = false
  receiving : (n.proc c).rts.receiving = false
  sendto : (n.proc c).sendto = noneEp
  getfrom : (n.proc c).getfrom = noneEp

structure Node.Untied (n : Node) (c : ℤ) : Prop extends n.Detached c where
  rmtoper : (n.proc c).rts.rmtoper = false
  proxy : (n.proc c).proxy = noneEp

namespace Node

section Finish

variable {n : Node} {c : ℤ}

theorem Untied.initDesc (h : n.Untied c) (dcid : ℤ) :
    (n.modProc c fun p => p.initDesc dcid).Untied c := by
  refine ⟨⟨fun q => ?_, h.proxies, ?_, ?_, ?_, ?_⟩, ?_, ?_⟩
  · by_cases hq : q = c
    · rw [hq, modProc_same]
      exact List.not_mem_nil
    · rw [modProc_of_ne _ _ hq]
      exact h.list q
  all_goals rw [modProc_same]; rfl

theorem Untied.modProc (h : n.Untied c) {i : ℤ} (hi : i ≠ c) {f : Proc → Proc}
    (hf : ∀ p, (f p).list = p.list) : (n.modProc i f).Untied c := by
  have hc : (n.modProc i f).proc c = n.proc c := modProc_of_ne _ _ hi.symm
  refine ⟨⟨fun q => ?_, h.proxies, ?_, ?_, ?_, ?_⟩, ?_, ?_⟩
  · rw [modProc_field i q Proc.list hf]
    exact h.list q
  all_goals rw [hc]
  exacts [h.sending, h.receiving, h.sendto, h.getfrom, h.rmtoper, h.proxy]

theorem Untied.clearOncopy (h : n.Untied c) (i : ℤ) : (n.clearOncopy i).Untied c := by
  refine ⟨⟨fun q => ?_, h.proxies, ?_, ?_, ?_, ?_⟩, ?_, ?_⟩
  all_goals rw [clearOncopy_proc]
  exacts [h.list q, h.sending, h.receiving, h.sendto, h.getfrom, h.rmtoper, h.proxy]

theorem vcopyFinish_untied (h : n.Detached c) {ret : ℤ} (hr : ret ≠ EMol.ok) :
    (n.vcopyFinish c v ret).2 = .ret ret ∧ (n.vcopyFinish c v ret).1.Untied c := by
  unfold vcopyFinish
  simp only [hr, if_false, true_and]
  have h₁ : (n.modProc c fun p =>
      { p with rts := { p.rts with rmtoper := false }, proxy := noneEp, rcode := ret }).Untied c := by
    refine ⟨⟨fun q => ?_, h.proxies, ?_, ?_, ?_, ?_⟩, ?_, ?_⟩
    · rw [modProc_field c q Proc.list fun _ => by rfl]
      exact h.list q
    all_goals rw [modProc_same]
    exacts [h.sending, h.receiving, h.sendto, h.getfrom]
  have h₂ := ((h₁.clearOncopy v.srcNr).clearOncopy v.dstNr).clearOncopy c
  have hup : ∀ {m : Node} (i : ℤ), m.Untied c →
      (if i = c then m else m.modProc i fun p => p.upIfReady ret).Untied c := by
    intro m i hm
    split
    · exact hm
    · exact hm.modProc ‹_› fun p => p.upIfReady_list ret
  refine hup _ (hup _ ?_)
  split
  · exact h₂.initDesc _
  · exact h₂

end Finish

end Node

namespace RemoteCall

/-! ### The refused command -/

def target (r : RemoteCall) (n : Node) (c : ℤ) : ℤ :=
  match r with
  | send dst _ _ | reply dst _ _ | notify _ dst _ => (n.proc (endpointP dst)).nodeid
  | sendrec ep _ _ => (n.proc (endpointP ep)).nodeid
  | copy v => (n.vcopyHdr c v (n.vcopyLen v)).dnode

def Released (r : RemoteCall) (n : Node) (c : ℤ) : Prop :=
  (n.sproxy (n.conf.nProxies (r.target n c))).rts = Rts.onlyFree

instance (r : RemoteCall) (n : Node) (c : ℤ) : Decidable (r.Released n c) := by
  unfold Released; infer_instance

/-- The caller of a copy has a chunk to send, and does nothing else. -/
def Ready (r : RemoteCall) (n : Node) (c : ℤ) : Prop :=
  ∀ v, r = copy v → 0 < v.bytes ∧ n.Detached c

/-- The call returns an error of `sproxy_enqueue`, and leaves nothing behind. -/
def ReturnsError (r : RemoteCall) (n : Node) (c : ℤ) : Prop :=
  ∀ err, ((r.prepared n c).sproxyEnqueue c).2 = err → err ≠ EMol.ok →
    (r.afterCheck n c).2 = some err ∧ (r.afterCheck n c).1.Untied c

section Refused

variable {r : RemoteCall} {n : Node} {c : ℤ}

theorem prepared_conf : (r.prepared n c).conf = n.conf := by cases r <;> rfl

theorem prepared_sproxy : (r.prepared n c).sproxy = n.sproxy := by cases r <;> rfl

theorem stopRemote_nodeid (d q : ℤ) : ((n.stopRemote c d).proc q).nodeid = (n.proc q).nodeid :=
  Node.modProc_field d q Proc.nodeid fun _ => by rfl

theorem buildNotify_nodeid (p : Proc) (self : Bool) (sEp sNr : ℤ) :
    (p.buildNotify self sEp sNr).nodeid = p.nodeid := by
  unfold Proc.buildNotify
  split_ifs <;> rfl

theorem prepared_dnode : ((r.prepared n c).proc c).rmtcmd.dnode = r.target n c := by
  cases r with
  | send dst | reply dst =>
    simp only [prepared, Node.modProc_same, target]
    exact stopRemote_nodeid ..
  | sendrec ep =>
    simp only [prepared, Node.modProc_same, target]
    exact Node.modProc_field c _ Proc.nodeid fun _ => by rfl
  | notify srcNr dst =>
    simp only [prepared, Node.modProc_same, target]
    exact (buildNotify_nodeid ..).trans (stopRemote_nodeid ..)
  | copy v => simp only [prepared, Node.modProc_same, target]

theorem enqueue_of_released (h : r.Released n c) :
    (r.prepared n c).sproxyEnqueue c = (r.prepared n c, EMol.noproxy) := by
  refine Node.sproxyEnqueue_of_free _ _ ?_
  rw [prepared_conf, prepared_sproxy, prepared_dnode]
  exact h

theorem enqueue_of_not_released (h : ¬ r.Released n c) :
    ((r.prepared n c).sproxyEnqueue c).2 = EMol.ok := by
  unfold Node.sproxyEnqueue
  rw [prepared_conf, prepared_sproxy, prepared_dnode]
  exact congrArg Prod.snd (if_neg h)

theorem afterCheck_ne (hr : ∀ v, r ≠ copy v) : (r.afterCheck n c).2 ≠ some EMol.noproxy := by
  have hsleep : ∀ (m : Node) (timeout : ℤ) (next : Next) (k : Node → ℤ → Node × Next),
      next.code = none → (∀ m code, (k m code).2 = .ret code) →
      (m.sleepOr c timeout next k).2.code ≠ some EMol.noproxy := by
    intro m timeout next k hn hk
    unfold Node.sleepOr
    split
    · rw [hk]
      decide
    · rw [hn]
      exact Option.some_ne_none _ |>.symm
  cases r with
  | copy v => exact absurd rfl (hr v)
  | _ =>
    dsimp only [afterCheck, Prod.map]
    refine hsleep _ _ _ _ ?_ ?_
    · rfl
    · exact fun _ _ => rfl

theorem copy_returnsError (hb : 0 < v.bytes) (hi : n.Detached c) : (copy v).ReturnsError n c := by
  intro err he hne
  have hfree : (copy v).Released n c := by
    by_contra hf
    exact hne (he.symm.trans (enqueue_of_not_released hf))
  have hq := enqueue_of_released hfree
  rw [hq] at he
  subst he
  have hidle : ((copy v).prepared n c).Detached c := by
    refine ⟨fun q => ?_, hi.proxies, ?_, ?_, ?_, ?_⟩
    · unfold prepared
      rw [Node.modProc_field c q Proc.list fun _ => by rfl]
      exact hi.list q
    all_goals simp only [prepared, Node.modProc_same]
    exacts [hi.sending, hi.receiving, hi.sendto, hi.getfrom]
  have hissue : n.vcopyIssue c v = ((copy v).prepared n c).vcopyFinish c v EMol.noproxy := by
    have hb' : ¬ v.bytes ≤ 0 := by omega
    simp only [prepared] at hq ⊢
    simp only [Node.vcopyIssue, if_neg hb', hq]
    rfl
  have hfin := Node.vcopyFinish_untied hidle (v := v) (show EMol.noproxy ≠ EMol.ok by decide)
  rw [← hissue] at hfin
  exact ⟨congrArg VcopyNext.code hfin.1, hfin.2⟩

/-- **A call whose command is refused returns the error and does not sleep** iff it is a copy. -/
theorem returnsError_iff (h : r.Ready n c) :
    r.ReturnsError n c ↔ (∃ v, r = copy v) ∨ ¬ r.Released n c := by
  constructor
  · intro hr
    by_contra hn
    rw [not_or, not_exists, not_not] at hn
    have he : ((r.prepared n c).sproxyEnqueue c).2 = EMol.noproxy := by
      rw [enqueue_of_released hn.2]
    exact afterCheck_ne hn.1 (hr _ he (by decide)).1
  · rintro (⟨v, rfl⟩ | hf)
    · exact copy_returnsError (h v rfl).1 (h v rfl).2
    · intro err he hne
      exact absurd (he.symm.trans (enqueue_of_not_released hf)) hne

end Refused

/-! ### A proxy released after the check -/

def enqueueSample : Node where
  conf := Conf.sample 0
  proc := fun q =>
    if q = 5 then Proc.sample 0 5 {}
    else if q = 6 then Proc.sample 1 6 { remote := true }
    else {}
  sproxy := Proc.sampleProxy
  rproxy := Proc.sampleProxy

def releasedSample : Node := enqueueSample.modSproxy 1 (·.initDesc 0)

theorem releasedSample_detached : releasedSample.Detached 5 := by
  refine ⟨fun q => ?_, fun q => ?_, rfl, rfl, rfl, rfl⟩
  · simp only [releasedSample, enqueueSample, Node.modSproxy_proc]
    split_ifs <;> exact List.not_mem_nil
  · by_cases hq : q = 1
    · subst hq
      exact List.not_mem_nil
    · rw [releasedSample, Node.modSproxy_of_ne _ _ hq]
      exact List.not_mem_nil

/-- The process 5 copies 100 bytes to 6 and gets the error. -/
theorem copy_returns_noproxy :
    let r : RemoteCall := copy { src := 5, dst := 6, saddr := 0, daddr := 0, bytes := 100 }
    r.Ready releasedSample 5 ∧ r.Released releasedSample 5 ∧ r.ReturnsError releasedSample 5 := by
  intro r
  have hr : r.Ready releasedSample 5 := by
    intro v hv
    obtain rfl := copy.inj hv
    exact ⟨by decide, releasedSample_detached⟩
  exact ⟨hr, by decide, (returnsError_iff hr).2 (.inl ⟨_, rfl⟩)⟩

/-- The process 5 notifies 6, and the sender proxy is unbound after the check: the call sleeps in no
queue. -/
theorem notify_sleeps_refused :
    enqueueSample.vcopyProxy (enqueueSample.proc 6).nodeid = EMol.ok ∧
      ((((notify 5 6 0).prepared releasedSample 5).sproxyEnqueue 5).2 = EMol.noproxy) ∧
      ((notify 5 6 0).afterCheck releasedSample 5).2 = none ∧
      (((notify 5 6 0).afterCheck releasedSample 5).1.proc 5).rts =
        { sending := true, rmtoper := true } ∧
      (((notify 5 6 0).afterCheck releasedSample 5).1.proc 5).pseudosem = -1 ∧
      (∀ q, 5 ∉ (((notify 5 6 0).afterCheck releasedSample 5).1.sproxy q).list) ∧
      ¬ (notify 5 6 0).ReturnsError releasedSample 5 := by
  refine ⟨by decide, by decide, by decide, by decide, by decide, ?_, fun h => ?_⟩
  · have hs : ((notify 5 6 0).afterCheck releasedSample 5).1.sproxy = releasedSample.sproxy := by
      dsimp only [afterCheck]
      rw [enqueue_of_released (by decide)]
      rfl
    rw [hs]
    exact releasedSample_detached.proxies
  · exact absurd (h EMol.noproxy (by decide) (by decide)).1 (by decide)

end RemoteCall

end MolIpc
