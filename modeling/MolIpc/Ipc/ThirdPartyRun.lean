import MolIpc.Ipc.ThirdParty

/-!
The run of a copy that a third process makes, and its end. While the copy goes on, `mm_vcopy`
changes its caller and the memory of the destination only (`ThirdParty.Advances`); the others do
what they would do without it (`ThirdParty.Copying.alongside`). Its end puts the flags of the two
parties right and wakes up the one whose operation has completed, but with the result of the copy:
whatever that is, nothing is left of the copy if and only if no such operation has completed.
-/

namespace MolIpc.ThirdParty

variable (C : ThirdParty) {q : ℤ} {r : Node × VcopyNext}

/-! ### Runs -/

inductive Other
  | call (x : ℤ) (op : Op) (m : Message) (timeout cp : ℤ)
  | wake (x : ℤ) (op : Op) (wait : Wait) (timeout w cp : ℤ)

namespace Other

def who : Other → ℤ
  | .call x .. | .wake x .. => x

def Local (n : Node) : Other → Prop
  | .call x op .. => Near n (n.proc x).list op
  | .wake _ op .. => Near n [] op

def run (n : Node) : Other → Option (Node × Next)
  | .call x op m timeout cp => n.call x op m timeout cp
  | .wake x op wait timeout w cp => n.wake x op wait timeout w cp

end Other

structure Starts (n : Node) : Prop where
  caller : (n.proc C.c).rts = Rts.running
  src : n.vcopyParty C.c C.v.srcNr C.v.src EMol.srcdied = .ok
  dst : n.vcopyParty C.c C.v.dstNr C.v.dst EMol.dstdied = .ok

/-- The copy changes what it uses of the caller, the memory of the parties, and nothing of the
others. -/
structure Advances (N N' : Node) : Prop where
  conf : N'.conf = N.conf
  rproxy : N'.rproxy = N.rproxy
  caller : (N'.proc C.c).Alike (N.proc C.c)
  party (q : ℤ) : C.Party q → N'.proc q = { N.proc q with mem := (N'.proc q).mem }
  outside (q : ℤ) : C.Outside q → N'.proc q = N.proc q

/-- The runs with the copy: the steps of the others, the parties' own ones among them, and their
results, the last one first. -/
inductive Copying (n : Node) : List Other → List Next → Node → Prop
  | start : Copying n [] [] (n.vcopyEnter C.c C.v)
  | advance {os : List Other} {rs : List Next} {N N' : Node} (h : Copying n os rs N)
      (ha : C.Advances N N') : Copying n os rs N'
  | other {os : List Other} {rs : List Next} {N N' : Node} {o : Other} {r : Next}
      (h : Copying n os rs N) (hwho : o.who ≠ C.c) (hloc : o.Local N)
      (hrun : o.run N = some (N', r)) : Copying n (o :: os) (r :: rs) N'

inductive Alone (n : Node) : List Other → List Next → Node → Prop
  | start : Alone n [] [] n
  | other {os : List Other} {rs : List Next} {M M' : Node} {o : Other} {r : Next}
      (h : Alone n os rs M) (hrun : o.run M = some (M', r)) : Alone n (o :: os) (r :: rs) M'

variable {C} {n N N' M : Node}

theorem vcopyParty_ok {c nr ep died : ℤ} (hc : c ≠ nr) (h : n.vcopyParty c nr ep died = .ok) :
    (n.proc nr).rts.oncopy = false ∧ (n.proc nr).rts ≠ Rts.running := by
  unfold Node.vcopyParty at h
  dsimp only at h
  split_ifs at h with _ _ honcopy _ hproc
  refine ⟨by simpa using honcopy, fun hrun => hproc ⟨hc, ?_⟩⟩
  rw [hrun]
  exact ⟨by decide, by decide⟩

theorem Starts.party (hs : C.Starts n) (hq : C.Party q) :
    (n.proc q).rts.oncopy = false ∧ (n.proc q).rts ≠ Rts.running := by
  rcases hq with rfl | rfl
  exacts [vcopyParty_ok C.src_ne.symm hs.src, vcopyParty_ok C.dst_ne.symm hs.dst]

theorem Party.ne (hq : C.Party q) : q ≠ C.c := by
  rcases hq with rfl | rfl
  exacts [C.src_ne, C.dst_ne]

theorem vcopyEnter_proc (q : ℤ) (hq : q ≠ C.c) :
    (n.vcopyEnter C.c C.v).proc q =
      { n.proc q with
        rts := { (n.proc q).rts with oncopy := (n.proc q).rts.oncopy || decide (C.Party q) } } := by
  unfold Node.vcopyEnter
  rw [Node.modProc_of_ne _ _ hq, Node.setOncopy_proc, Node.setOncopy_proc, Node.setOncopy_proc]
  have hparty : decide (C.Party q) = (decide (q = C.v.srcNr) || decide (q = C.v.dstNr)) :=
    Bool.decide_or _ _
  simp [hq, hparty, Bool.or_assoc]

theorem Starts.alongside (hs : C.Starts n) : C.Alongside (n.vcopyEnter C.c C.v) n := by
  refine ⟨rfl, rfl, fun q => ?_⟩
  unfold Rel
  split_ifs with hc hq
  · subst hc
    refine ⟨⟨{ (n.proc C.c).veiled with oncopy := true, rcode := EMol.ok }, ?_⟩,
      by rw [hs.caller]; rfl, by rw [hs.caller]; rfl⟩
    unfold Node.vcopyEnter
    rw [Node.modProc_same, Node.setOncopy_proc, Node.setOncopy_proc, Node.setOncopy_proc]
    simp [Proc.veil, Proc.veiled]
  · obtain ⟨hclear, hwait⟩ := hs.party hq
    rw [vcopyEnter_proc q hc, hclear, decide_eq_true hq]
    exact ⟨rfl, hclear, fun h => absurd h hwait, fun _ => ⟨rfl, rfl⟩⟩
  · rw [vcopyEnter_proc q hc, decide_eq_false hq, Bool.or_false]

theorem Alongside.advance (h : C.Alongside N M) (ha : C.Advances N N') : C.Alongside N' M := by
  refine ⟨ha.conf.trans h.conf, ha.rproxy.trans h.rproxy, fun q => ?_⟩
  have hrel := h.proc q
  unfold Rel at hrel ⊢
  split_ifs at hrel ⊢ with hc hq
  · subst hc
    obtain ⟨a, ha⟩ := ha.caller
    obtain ⟨b, hb⟩ := hrel.alike
    exact ⟨⟨a, by rw [ha, hb, Proc.veil_veil]⟩, hrel.receiving, hrel.sending⟩
  · -- only the memory of a party changes
    have hmem := ha.party q hq
    have hp : N'.proc q = (M.proc q).veil { (M.proc q).veiled with
        oncopy := true, rcode := (N.proc q).rcode, pseudosem := (N.proc q).pseudosem
        mem := (N'.proc q).mem } := by
      rw [hmem, hrel.eq]
      rfl
    have hcode : (N'.proc q).rcode = (N.proc q).rcode := by rw [hmem]
    have hsem : (N'.proc q).pseudosem = (N.proc q).pseudosem := by rw [hmem]
    refine ⟨?_, hrel.clear, ?_, ?_⟩
    · rw [hcode, hsem]
      exact hp
    · rw [hsem]
      exact hrel.woken
    · rw [hsem, hcode]
      exact hrel.asleep
  · rw [ha.outside q ⟨hc, hq⟩, hrel]

variable {o : Other}

theorem Other.sim (h : C.Alongside N M) (hwho : C.Outside o.who) (hloc : o.Local N) :
    Option.Rel C.Sim (o.run N) (o.run M) := by
  cases o with
  | call x op m timeout cp => exact sim_call h hwho hloc m timeout cp
  | wake x op wait timeout w cp => exact sim_wake h hwho hloc wait timeout w cp

/-- **All along, the others do what they would do without the copy**, with the same results, as long
as the parties stay asleep. -/
theorem Copying.alongside (hs : C.Starts n) {os : List Other} {rs : List Next}
    (h : C.Copying n os rs N) (hos : ∀ o ∈ os, ¬ C.Party o.who) :
    ∃ M, Alone n os rs M ∧ C.Alongside N M := by
  induction h with
  | start => exact ⟨n, .start, hs.alongside⟩
  | advance _ ha ih =>
    obtain ⟨M, hM, h⟩ := ih hos
    exact ⟨M, hM, h.advance ha⟩
  | other _ hwho hloc hrun ih =>
    obtain ⟨hout, hos⟩ := List.forall_mem_cons.1 hos
    obtain ⟨M, hM, h⟩ := ih hos
    have hsim := Other.sim h ⟨hwho, hout⟩ hloc
    rw [hrun] at hsim
    generalize hr : Other.run M _ = r at hsim
    cases hsim with
    | @some _ r' hrel =>
      obtain ⟨h', hres⟩ := hrel
      exact ⟨r'.1, .other hM (hr.trans (congrArg some (Prod.ext rfl hres.symm))), h'⟩

/-! ### The end of the copy -/

/-- The result that `mm_vcopy` returns. -/
def code (C : ThirdParty) (N : Node) (ret : ℤ) : ℤ :=
  if ret = EMol.ok then (N.proc C.c).rcode else ret

/-- What is left after the copy is what there would be without it, but for the memory, and none of
the three is in a copy. -/
structure Undisturbed (C : ThirdParty) (N M : Node) : Prop where
  proc (q : ℤ) : q ≠ C.c → { N.proc q with mem := (M.proc q).mem } = M.proc q
  clear (q : ℤ) : q = C.c ∨ C.Party q → (N.proc q).rts.oncopy = false

section End

variable (C) (N) (ret : ℤ)

/-- The end of `mm_vcopy` in two parts: the three leave the copy, and the parties are woken up. -/
theorem vcopyFinish_eq : ∃ L : Node,
    (∀ q, q ≠ C.c → L.proc q =
      { N.proc q with
        rts := { (N.proc q).rts with
          oncopy := (N.proc q).rts.oncopy && !decide (C.Party q) } }) ∧
    (L.proc C.c).rts.oncopy = false ∧
    (N.vcopyFinish C.c C.v ret).1 =
      (L.modProc C.v.srcNr (·.upIfReady (C.code N ret))).modProc C.v.dstNr
        (·.upIfReady (C.code N ret)) := by
  let N₁ :=
    if ret = EMol.ok then N
    else N.modProc C.c fun p =>
      { p with rts := { p.rts with rmtoper := false }, proxy := noneEp, rcode := ret }
  let N₂ := ((N₁.clearOncopy C.v.srcNr).clearOncopy C.v.dstNr).clearOncopy C.c
  let L :=
    if (N₂.proc C.c).rts.signaled then N₂.modProc C.c fun p => p.initDesc N₂.conf.dcid else N₂
  have hN₁ (q : ℤ) (hq : q ≠ C.c) : N₁.proc q = N.proc q := by
    unfold N₁
    split
    · rfl
    · exact Node.modProc_of_ne _ _ hq
  have hL (q : ℤ) (hq : q ≠ C.c) : L.proc q = N₂.proc q := by
    unfold L
    split
    · exact Node.modProc_of_ne _ _ hq
    · rfl
  refine ⟨L, fun q hq => ?_, ?_, ?_⟩
  · rw [hL q hq, Node.clearOncopy_proc, Node.clearOncopy_proc, Node.clearOncopy_proc, hN₁ q hq]
    have hparty : decide (C.Party q) = (decide (q = C.v.srcNr) || decide (q = C.v.dstNr)) :=
      Bool.decide_or _ _
    simp [hq, hparty, Bool.and_assoc]
  · unfold L
    split
    · rw [Node.modProc_same]
      rfl
    · rw [Node.clearOncopy_proc]
      simp
  · unfold Node.vcopyFinish
    dsimp only
    rw [if_neg C.src_ne, if_neg C.dst_ne]
    rfl

theorem vcopyFinish_party (hq : C.Party q) :
    (N.vcopyFinish C.c C.v ret).1.proc q =
      Proc.upIfReady { N.proc q with rts := { (N.proc q).rts with oncopy := false } }
        (C.code N ret) := by
  obtain ⟨L, hL, -, heq⟩ := vcopyFinish_eq C N ret
  have hq' := hL q hq.ne
  rw [decide_eq_true hq, Bool.not_true, Bool.and_false] at hq'
  rw [heq, ← hq']
  rcases hq with rfl | rfl
  · rw [Node.modProc_of_ne _ _ C.parties_ne, Node.modProc_same]
  · rw [Node.modProc_same, Node.modProc_of_ne _ _ C.parties_ne.symm]

theorem vcopyFinish_outside (hq : C.Outside q) :
    (N.vcopyFinish C.c C.v ret).1.proc q = N.proc q := by
  obtain ⟨L, hL, -, heq⟩ := vcopyFinish_eq C N ret
  have hq' := hL q hq.1
  rw [decide_eq_false hq.2, Bool.not_false, Bool.and_true] at hq'
  rw [heq, Node.modProc_of_ne _ _ fun h => hq.2 (.inr h),
    Node.modProc_of_ne _ _ fun h => hq.2 (.inl h), hq']

theorem vcopyFinish_caller : ((N.vcopyFinish C.c C.v ret).1.proc C.c).rts.oncopy = false := by
  obtain ⟨L, -, hc, heq⟩ := vcopyFinish_eq C N ret
  rw [heq, Node.modProc_of_ne _ _ C.dst_ne.symm, Node.modProc_of_ne _ _ C.src_ne.symm, hc]

end End

theorem deferred_left {p p' : Proc} (h : p.Deferred p') :
    { p with rts := { p.rts with oncopy := false } } =
      { p' with rcode := p.rcode, pseudosem := p.pseudosem, mem := p.mem } := by
  have hr : { p'.rts with oncopy := false } = p'.rts := by rw [← h.clear]
  conv_lhs => rw [h.eq]
  show { p' with
    rts := { p'.rts with oncopy := false }, rcode := p.rcode, pseudosem := p.pseudosem
    mem := p.mem } = _
  rw [hr]

/-- **The end of the copy for a party**: everything but the memory and the result code is as in the
run without the copy. -/
theorem Alongside.vcopyFinish (h : C.Alongside N M) (ret : ℤ) (hq : C.Party q) :
    { (N.vcopyFinish C.c C.v ret).1.proc q with mem := (M.proc q).mem } =
      { M.proc q with
        rcode := if (M.proc q).rts = Rts.running then C.code N ret else (M.proc q).rcode } := by
  have hrel := h.proc q
  unfold Rel at hrel
  rw [if_neg hq.ne, if_pos hq] at hrel
  rw [vcopyFinish_party C N ret hq, deferred_left hrel]
  by_cases hrun : (M.proc q).rts = Rts.running
  · rw [if_pos hrun]
    unfold Proc.upIfReady
    rw [if_pos hrun, Proc.up, ← hrel.woken hrun]
  · obtain ⟨hsem, hcode⟩ := hrel.asleep hrun
    rw [if_neg hrun]
    unfold Proc.upIfReady
    rw [if_neg hrun, ← hsem, ← hcode]

theorem Advances.of_caller (hconf : N'.conf = N.conf) (hrp : N'.rproxy = N.rproxy)
    (hc : (N'.proc C.c).Alike (N.proc C.c)) (ho : ∀ q, q ≠ C.c → N'.proc q = N.proc q) :
    C.Advances N N' :=
  ⟨hconf, hrp, hc, fun q hq => by rw [ho q hq.ne], fun q hq => ho q hq.1⟩

theorem Advances.refl (N : Node) : C.Advances N N :=
  .of_caller rfl rfl ⟨_, (Proc.veil_veiled _).symm⟩ fun _ _ => rfl

theorem Advances.trans {N'' : Node} (h : C.Advances N N') (h' : C.Advances N' N'') :
    C.Advances N N'' := by
  refine ⟨h'.conf.trans h.conf, h'.rproxy.trans h.rproxy, ?_, fun q hq => ?_, fun q hq => ?_⟩
  · obtain ⟨a, ha⟩ := h.caller
    obtain ⟨b, hb⟩ := h'.caller
    exact ⟨b, by rw [hb, ha, Proc.veil_veil]⟩
  · rw [h'.party q hq, h.party q hq]
  · rw [h'.outside q hq, h.outside q hq]

theorem advances_caller {f : Proc → Proc} (hf : (f (N.proc C.c)).Alike (N.proc C.c)) :
    C.Advances N (N.modProc C.c f) :=
  .of_caller rfl rfl (by rwa [Node.modProc_same]) fun _ hq => Node.modProc_of_ne _ _ hq

theorem advances_sproxyEnqueue (N : Node) : C.Advances N (N.sproxyEnqueue C.c).1 := by
  unfold Node.sproxyEnqueue
  dsimp only
  split
  · exact .refl N
  refine .of_caller rfl rfl ⟨{ (N.proc C.c).veiled with
    proxy := N.conf.nProxies (N.proc C.c).rmtcmd.dnode }, ?_⟩ fun q hq => ?_
  · rw [Node.modSproxy_proc, Node.modProc_same]
    rfl
  · rw [Node.modSproxy_proc, Node.modProc_of_ne _ _ hq]

theorem advances_mem (f : Proc → Mem) :
    C.Advances N (N.modProc C.v.dstNr fun p => { p with mem := f p }) := by
  refine ⟨rfl, rfl, ⟨(N.proc C.c).veiled, ?_⟩, fun q hq => ?_, fun q hq => ?_⟩
  · rw [Node.modProc_of_ne _ _ C.dst_ne.symm, Proc.veil_veiled]
  · by_cases hd : q = C.v.dstNr
    · rw [hd, Node.modProc_same]
    · rw [Node.modProc_of_ne _ _ hd]
  · rw [Node.modProc_of_ne _ _ fun h => hq.2 (.inr h)]

theorem advances_vcopyLocal (cp : ℕ → ℤ) : ∀ (fuel k : ℕ) (N : Node) (v : VcopyCall),
    v.dstNr = C.v.dstNr → C.Advances N (N.vcopyLocal v cp fuel k).1 := by
  intro fuel
  induction fuel with
  | zero => exact fun _ N _ _ => .refl N
  | succ fuel ih =>
    intro k N v hd
    unfold Node.vcopyLocal
    split
    · exact .refl N
    dsimp only
    split
    · exact .refl N
    refine Advances.trans ?_ (ih _ _ _ hd)
    rw [hd]
    exact advances_mem _

/-- A part of `mm_vcopy` goes on with the copy until it sleeps or returns. -/
def Goes (C : ThirdParty) (N : Node) (r : Node × VcopyNext) : Prop :=
  ∃ N₁, C.Advances N N₁ ∧
    ((∃ ret, r = N₁.vcopyFinish C.c C.v ret) ∨
      ∃ v len, v.srcNr = C.v.srcNr ∧ v.dstNr = C.v.dstNr ∧ r = (N₁, .sleep v len))

theorem Goes.of_advances (ha : C.Advances N N') (h : C.Goes N' r) : C.Goes N r := by
  obtain ⟨N₁, h₁, hr⟩ := h
  exact ⟨N₁, ha.trans h₁, hr⟩

theorem goes_ite {p : Prop} [Decidable p] {r' : Node × VcopyNext} (h : C.Goes N r)
    (h' : C.Goes N r') : C.Goes N (if p then r else r') := by
  split
  exacts [h, h']

section Goes

variable {v : VcopyCall} (hs : v.srcNr = C.v.srcNr) (hd : v.dstNr = C.v.dstNr)

include hs hd

theorem goes_vcopyFinish (ha : C.Advances N N') (ret : ℤ) :
    C.Goes N (N'.vcopyFinish C.c v ret) := by
  refine ⟨N', ha, .inl ⟨ret, ?_⟩⟩
  unfold Node.vcopyFinish
  rw [hs, hd]

theorem goes_vcopyIssue (N : Node) : C.Goes N (N.vcopyIssue C.c v) := by
  unfold Node.vcopyIssue
  split
  · exact goes_vcopyFinish hs hd (.refl N) _
  dsimp only
  set n₁ := N.modProc C.c fun p =>
    { p with
      rts := { p.rts with rmtoper := true }, rmtcmd := N.vcopyHdr C.c v (N.vcopyLen v) } with hn₁
  have h₁ : C.Advances N n₁ :=
    advances_caller ⟨{ (N.proc C.c).veiled with rmtoper := true, rmtcmd := _ }, rfl⟩
  have h₂ := h₁.trans (advances_sproxyEnqueue n₁)
  generalize n₁.sproxyEnqueue C.c = e at h₂
  obtain ⟨n₂, ret⟩ := e
  split
  · exact goes_vcopyFinish hs hd h₂ _
  · refine ⟨_, h₂.trans (advances_caller ⟨{ (n₂.proc C.c).veiled with
      pseudosem := -1, rcode := EMol.ok }, rfl⟩), .inr ⟨v, _, hs, hd, rfl⟩⟩

theorem goes_vcopyWake (hm : (N.proc C.c).misc.needmigr = false) (len w : ℤ) (cp : ℕ → ℤ) :
    C.Goes N (N.vcopyWake C.c (.sleep v len) w cp) := by
  have hroused (code : ℤ) : C.Advances N (N.modProc C.c (Node.copyRoused code)) :=
    advances_caller ⟨{ (N.proc C.c).veiled with rcode := code, pseudosem := _ }, rfl⟩
  rw [Node.vcopyWake_eq hm rfl]
  refine goes_ite (goes_ite ⟨_, hroused _, .inr ⟨v, len, hs, hd, rfl⟩⟩ ?_) ?_
  · exact goes_vcopyFinish hs hd (hroused _) _
  · exact Goes.of_advances (hroused _) (goes_vcopyIssue (v := v.advance len) hs hd _)

theorem goes_vcopyBody (N : Node) (cp : ℕ → ℤ) : C.Goes N (N.vcopyBody C.c v cp) := by
  have hcode (N : Node) (code : ℤ) : C.Advances N (N.modProc C.c fun p =>
      { p with rcode := code }) :=
    advances_caller ⟨{ (N.proc C.c).veiled with rcode := code }, rfl⟩
  unfold Node.vcopyBody
  dsimp only
  split
  · split
    · exact goes_vcopyFinish hs hd (hcode N _) _
    · have hlocal := advances_vcopyLocal cp v.bytes.toNat 0 N v hd
      generalize N.vcopyLocal v cp v.bytes.toNat 0 = e at hlocal
      obtain ⟨n, ret⟩ := e
      exact goes_vcopyFinish hs hd (hlocal.trans (hcode n ret)) _
  · exact goes_ite (goes_vcopyFinish hs hd (.refl N) _) (goes_vcopyIssue hs hd N)

end Goes

theorem Goes.advances (h : C.Goes N r) {v : VcopyCall} {len : ℤ} (hr : r.2 = .sleep v len) :
    C.Advances N r.1 := by
  obtain ⟨N₁, h₁, ⟨ret, rfl⟩ | ⟨_, _, -, -, rfl⟩⟩ := h
  · exact nomatch hr
  · exact h₁

/-! ### The whole call -/

/-- The runs of `mm_vcopy`: it sleeps and is woken up, and the others make their steps meanwhile. -/
inductive Call (C : ThirdParty) (n : Node) : List Other → List Next → Node × VcopyNext → Prop
  | start (cp : ℕ → ℤ) : Call C n [] [] (n.vcopyChecked C.c C.v cp)
  | wake {os : List Other} {rs : List Next} {N : Node} {v : VcopyCall} {len : ℤ}
      (h : Call C n os rs (N, .sleep v len)) (hm : (N.proc C.c).misc.needmigr = false) (w : ℤ)
      (cp : ℕ → ℤ) : Call C n os rs (N.vcopyWake C.c (.sleep v len) w cp)
  | other {os : List Other} {rs : List Next} {N N' : Node} {v : VcopyCall} {len : ℤ} {o : Other}
      {r : Next} (h : Call C n os rs (N, .sleep v len)) (hwho : C.Outside o.who)
      (hloc : o.Local N) (hrun : o.run N = some (N', r)) :
      Call C n (o :: os) (r :: rs) (N', .sleep v len)

theorem Call.copying (hs : C.Starts n) {os : List Other} {rs : List Next} {x : Node × VcopyNext}
    (h : C.Call n os rs x) :
    ∃ N, C.Copying n os rs N ∧ C.Goes N x ∧ ∀ o ∈ os, ¬ C.Party o.who := by
  induction h with
  | start cp =>
    rw [Node.vcopyChecked_of_ok hs.src hs.dst]
    exact ⟨_, .start, goes_vcopyBody rfl rfl _ cp, fun _ ho => absurd ho List.not_mem_nil⟩
  | wake _ hm w cp ih =>
    obtain ⟨N, hN, ⟨N₁, ha, ⟨ret, hret⟩ | ⟨v', len', hsrc, hdst, heq⟩⟩, hos⟩ := ih
    · cases hret
    · cases heq
      exact ⟨_, hN.advance ha, goes_vcopyWake hsrc hdst hm _ w cp, hos⟩
  | other _ hwho hloc hrun ih =>
    obtain ⟨N, hN, ⟨N₁, ha, ⟨ret, hret⟩ | ⟨v', len', hsrc, hdst, heq⟩⟩, hos⟩ := ih
    · cases hret
    · cases heq
      exact ⟨_, .other (hN.advance ha) hwho.1 hloc hrun, ⟨_, .refl _, .inr ⟨_, _, hsrc, hdst, rfl⟩⟩,
        List.forall_mem_cons.2 ⟨hwho.2, hos⟩⟩

/-- **In every run of the call the others do what they would do without it**, with the same results
and descriptors. When it has returned, so are the parties, but for the memory and the code. -/
theorem Call.alone (hs : C.Starts n) {os : List Other} {rs : List Next} {x : Node × VcopyNext}
    (h : C.Call n os rs x) : ∃ M, Alone n os rs M ∧ (∀ q, C.Outside q → x.1.proc q = M.proc q) ∧
      ∀ ret, x.2 = .ret ret → ∀ q, C.Party q →
        { x.1.proc q with mem := (M.proc q).mem, rcode := (M.proc q).rcode } = M.proc q := by
  obtain ⟨N, hN, ⟨N₁, ha, hx⟩, hos⟩ := h.copying hs
  obtain ⟨M, hM, hsim⟩ := (hN.advance ha).alongside hs hos
  refine ⟨M, hM, ?_⟩
  rcases hx with ⟨ret, rfl⟩ | ⟨_, _, -, -, rfl⟩
  · refine ⟨fun q hq => ?_, fun _ _ q hq => ?_⟩
    · rw [vcopyFinish_outside C N₁ ret hq, hsim.self hq]
    · exact congrArg (fun p => { p with rcode := (M.proc q).rcode }) (hsim.vcopyFinish ret hq)
  · exact ⟨fun q hq => hsim.self hq, fun _ hret => by cases hret⟩

/-! ### A message that comes during a copy -/

def thirdSample : Node where
  conf := Conf.sample 0
  proc := fun q =>
    if q = 4 then { Proc.sample 0 4 { receiving := true } with getfrom := anyEp, pseudosem := -1 }
    else if q = 5 then Proc.sample 1 5 { remote := true }
    else Proc.sample 0 q {}
  sproxy := Proc.sampleProxy
  rproxy := Proc.sampleProxy

def thirdCopy : ThirdParty where
  c := 3
  v := ⟨4, 5, 0, 0, 100000⟩
  src_ne := by decide
  dst_ne := by decide
  parties_ne := by decide

def thirdSend : Other := .call 6 (.send 4) { type := 7 } timeoutForever 0

theorem thirdSample_starts : thirdCopy.Starts thirdSample := ⟨by decide, by decide, by decide⟩

def Other.after (n : Node) (o : Other) : Node := ((o.run n).map Prod.fst).getD n

theorem Other.run_of_snd {r : Next} (h : (o.run n).map Prod.snd = some r) :
    o.run n = some (o.after n, r) := by
  obtain ⟨⟨n', next⟩, hr, rfl⟩ := Option.map_eq_some_iff.1 h
  rw [Other.after, hr]
  rfl

def thirdAsleep : Node :=
  ((thirdSample.vcopyEnter thirdCopy.c thirdCopy.v).vcopyIssue thirdCopy.c thirdCopy.v).1

theorem thirdAsleep_copying : thirdCopy.Copying thirdSample [] [] thirdAsleep := by
  have hgoes : thirdCopy.Goes (thirdSample.vcopyEnter thirdCopy.c thirdCopy.v) _ :=
    goes_vcopyIssue (v := thirdCopy.v) rfl rfl _
  exact .advance .start (hgoes.advances (show _ = VcopyNext.sleep thirdCopy.v 65536 by decide))

theorem thirdSend_alone : ∃ N M, thirdCopy.Call thirdSample [thirdSend] [.ret EMol.ok] N ∧
    Alone thirdSample [thirdSend] [.ret EMol.ok] M ∧
    ∀ q, thirdCopy.Outside q → N.1.proc q = M.proc q := by
  have hstart := Call.start (C := thirdCopy) (n := thirdSample) fun _ => 0
  rw [show thirdSample.vcopyChecked thirdCopy.c thirdCopy.v (fun _ => 0) =
    (_, .sleep thirdCopy.v 65536) from Prod.ext rfl (by decide)] at hstart
  have hcall := hstart.other (o := thirdSend) (r := .ret EMol.ok) ⟨by decide, by decide⟩
    (show _ = false by decide) (Other.run_of_snd (by decide))
  obtain ⟨M, hM, hout, -⟩ := hcall.alone thirdSample_starts
  exact ⟨_, M, hcall, hM, hout⟩

def idleSend : Other := .call 6 (.send 7) { type := 7 } timeoutForever 0

end MolIpc.ThirdParty
