import MolIpc.Ipc.Bind
import MolIpc.Ipc.UnbindTrace

/-!
Endpoints of earlier generations of a slot: what the IPC calls do with them, and what they name
after a history of binds and unbinds.
-/

namespace MolIpc

namespace Node

/-! ### Calls that name a stale endpoint -/

def Refused (n : Node) (i : ℤ) (r : Option (Node × Next)) : Prop :=
  ∃ n' code, r = some (n', .ret code) ∧ code < 0 ∧ n'.proc i = n.proc i

/-- The copy has returned an error and left the process `i` alone, or waits for the migration of its
other party. -/
def VcopyRefused (n : Node) (i ep : ℤ) (r : Option (Node × VcopyNext)) : Prop :=
  ∃ n' next, r = some (n', next) ∧ n'.proc i = n.proc i ∧
    ((∃ code < 0, next = .ret code) ∨
      ∃ v nr, next = .waitMigr v nr ∧ v.dst = ep ∧ v.srcNr ≠ i)

def resolved (n : Node) (c ep : ℤ) : ℤ := if ep = selfEp then (n.proc c).endpoint else ep

/-- Every call of another process that names `ep`, an endpoint of the slot `i`, fails. -/
structure Rejects (n : Node) (i ep : ℤ) : Prop where
  send : ∀ c m timeout cp, c ≠ i → Refused n i (n.miniSend c ep m timeout cp)
  sendrec : ∀ c m timeout cp, c ≠ i → Refused n i (n.miniSendrec c ep m timeout cp)
  reply : ∀ c m timeout cp, c ≠ i → Refused n i (n.miniReply c ep m timeout cp)
  receive : ∀ c timeout cp, c ≠ i → Refused n i (some (n.miniReceive c ep timeout cp))
  notify : ∀ c srcNr upd, c ≠ i → srcNr ≠ hardwareNr → Refused n i (n.miniNotify c srcNr ep upd)
  vcopyFrom : ∀ c dst saddr daddr bytes cp, c ≠ i → endpointP (n.resolved c dst) ≠ i →
    VcopyRefused n i ep (n.vcopyStart c ep saddr dst daddr bytes cp)
  vcopyTo : ∀ c src saddr daddr bytes cp, c ≠ i → endpointP (n.resolved c src) ≠ i →
    VcopyRefused n i ep (n.vcopyStart c src saddr ep daddr bytes cp)
  vcopyWake : ∀ c v nr w cp, c ≠ i → v.dst = ep → v.srcNr ≠ i →
    VcopyRefused n i ep (some (n.vcopyWake c (.waitMigr v nr) w cp))

section Calls

variable {n : Node} {i ep c code : ℤ} {v : VcopyCall}

theorem dcCheck_neg (h : n.dcCheck ≠ EMol.ok) : n.dcCheck < 0 := by
  unfold dcCheck at h ⊢
  split_ifs at h ⊢ <;> first | exact absurd rfl h | decide

theorem sendEntry_neg (h : n.sendEntry c ep ≠ EMol.ok) : n.sendEntry c ep < 0 := by
  unfold sendEntry at h ⊢
  split_ifs at h ⊢ with h1
  · exact dcCheck_neg h1
  all_goals first | exact absurd rfl h | decide

section

variable (hne : (n.proc i).endpoint ≠ ep)

include hne

theorem sendDst_stale (hp : endpointP ep = i) (died : ℤ) :
    n.sendDst ep died = .err EMol.endpoint := by
  unfold sendDst
  rw [hp, if_pos hne]

theorem refused_of_entry {m : Message} (hp : endpointP ep = i) (hc : c ≠ i)
    (k : Node → Option (Node × Next))
    (hk : ∀ n : Node, (n.proc i).endpoint ≠ ep → k n = some (n, .ret EMol.endpoint)) :
    Refused n i (if n.sendEntry c ep ≠ EMol.ok then some (n, .ret (n.sendEntry c ep))
      else if endpointP ep = c then none else k (n.modProc c fun p => { p with ubuf := m })) := by
  have hsame : (n.modProc c fun p => { p with ubuf := m }).proc i = n.proc i :=
    modProc_of_ne _ _ hc.symm
  by_cases he : n.sendEntry c ep = EMol.ok
  · refine ⟨_, EMol.endpoint, ?_, by decide, hsame⟩
    rw [if_neg (not_not_intro he), if_neg (by rw [hp]; exact hc.symm), hk _ (by rw [hsame]; exact hne)]
  · exact ⟨n, _, if_pos he, sendEntry_neg he, rfl⟩

theorem rejects_send (hp : endpointP ep = i) (hc : c ≠ i) (m : Message) (timeout cp : ℤ) :
    Refused n i (n.miniSend c ep m timeout cp) :=
  refused_of_entry hne hp hc (fun n => n.sendReplay c ep timeout cp) fun n hn => by
    rw [sendReplay, sendDst_stale hn hp]

theorem rejects_sendrec (hp : endpointP ep = i) (hc : c ≠ i) (m : Message) (timeout cp : ℤ) :
    Refused n i (n.miniSendrec c ep m timeout cp) :=
  refused_of_entry hne hp hc (fun n => n.sendrecReplay c ep timeout cp) fun n hn => by
    rw [sendrecReplay, sendDst_stale hn hp]

theorem rejects_reply (hp : endpointP ep = i) (hc : c ≠ i) (m : Message) (timeout cp : ℤ) :
    Refused n i (n.miniReply c ep m timeout cp) :=
  refused_of_entry hne hp hc (fun n => n.replyReplay c ep timeout cp) fun n hn => by
    rw [replyReplay, sendDst_stale hn hp]

theorem rejects_receive (hp : endpointP ep = i) (hany : ep ≠ anyEp) (timeout cp : ℤ) :
    Refused n i (some (n.miniReceive c ep timeout cp)) := by
  have he : n.receiveEntry c ep < 0 := by
    unfold receiveEntry
    dsimp only
    rw [if_neg hany, hp]
    split_ifs with h1
    · exact dcCheck_neg h1
    all_goals decide
  have hne' : n.receiveEntry c ep ≠ EMol.ok := Int.ne_of_lt he
  exact ⟨n, n.receiveEntry c ep, by rw [miniReceive, if_pos hne'], he, rfl⟩

theorem rejects_notify (hp : endpointP ep = i) (hc : c ≠ i) {srcNr : ℤ} (hs : srcNr ≠ hardwareNr)
    (upd : ℤ) : Refused n i (n.miniNotify c srcNr ep upd) := by
  unfold miniNotify
  rw [if_neg hs]
  by_cases he : n.sendEntry c ep = EMol.ok
  · rw [if_neg (not_not_intro he)]
    by_cases hpriv : n.conf.dcNrSysprocs ≤ (n.proc c).sId
    · exact ⟨n, EMol.privileges, if_pos hpriv, by decide, rfl⟩
    · have hdst : n.notifyDst ep = .err EMol.endpoint := by
        unfold notifyDst
        rw [hp, if_pos hne]
      refine ⟨n, EMol.endpoint, ?_, by decide, rfl⟩
      rw [if_neg hpriv, if_neg (by rw [hp]; exact hc.symm), notifyReplay, hdst]
  · exact ⟨n, _, if_pos he, sendEntry_neg he, rfl⟩

end

/-! ### Copies -/

theorem vcopyParty_neg {nr died : ℤ} (hd : died < 0) (h : n.vcopyParty c nr ep died = .err code) :
    code < 0 := by
  unfold vcopyParty at h
  dsimp only at h
  split_ifs at h <;> cases h <;> first | exact hd | decide

theorem vcopyParty_stale (hne : (n.proc i).endpoint ≠ ep) (died : ℤ) :
    n.vcopyParty c i ep died = .err EMol.endpoint := if_pos hne

theorem vcopyChecked_from {cp : ℕ → ℤ} (hne : (n.proc i).endpoint ≠ v.src) (hp : v.srcNr = i) :
    n.vcopyChecked c v cp = (n, .ret EMol.endpoint) := by
  unfold vcopyChecked
  rw [hp, vcopyParty_stale hne]

theorem vcopyChecked_to (cp : ℕ → ℤ) (hne : (n.proc i).endpoint ≠ v.dst) (hp : v.dstNr = i)
    (hs : v.srcNr ≠ i) (hc : c ≠ i) : VcopyRefused n i v.dst (some (n.vcopyChecked c v cp)) := by
  unfold vcopyChecked
  cases hsrc : n.vcopyParty c v.srcNr v.src EMol.srcdied with
  | err code => exact ⟨_, _, rfl, rfl, .inl ⟨code, vcopyParty_neg (by decide) hsrc, rfl⟩⟩
  | migrating =>
    refine ⟨_, _, rfl, ?_, .inr ⟨v, v.srcNr, rfl, rfl, hs⟩⟩
    rw [modProc_of_ne _ _ hs.symm, modProc_of_ne _ _ hc.symm]
  | ok =>
    rw [hp, vcopyParty_stale hne]
    exact ⟨_, _, rfl, rfl, .inl ⟨_, by decide, rfl⟩⟩

def vcopyArgs (n : Node) (c srcEp : ℤ) (saddr : ℕ) (dstEp : ℤ) (daddr : ℕ) (bytes : ℤ) :
    VcopyCall where
  src := n.resolved c srcEp
  dst := if srcEp ≠ selfEp ∧ dstEp = selfEp then (n.proc c).endpoint else dstEp
  saddr := saddr
  daddr := daddr
  bytes := bytes

/-- The checks that `mm_vcopy` makes before it looks at a descriptor. -/
def vcopyEntry (n : Node) (v : VcopyCall) : ℤ :=
  if v.bytes < 0 ∨ n.conf.dMaxCopylen < v.bytes then EMol.range
  else if v.src = v.dst ∨ v.src = anyEp ∨ v.dst = anyEp ∨ v.src = noneEp ∨ v.dst = noneEp then
    EMol.endpoint
  else if ¬ (0 ≤ n.conf.dcid ∧ n.conf.dcid < n.conf.dNrDcs) then EMol.baddcid
  else if n.conf.dcFlags ≠ 0 then EMol.dcnotrun
  else if ¬ n.conf.inRange v.srcNr then EMol.range
  else if ¬ n.conf.inRange v.dstNr then EMol.range
  else EMol.ok

theorem ret_ite {P : Prop} [Decidable P] {e : ℤ} (h : code ≠ EMol.ok)
    (k : Option (Node × VcopyNext)) :
    (if (if P then code else e) ≠ EMol.ok then some (n, .ret (if P then code else e)) else k) =
      if P then some (n, .ret code) else if e ≠ EMol.ok then some (n, .ret e) else k := by
  by_cases hP : P
  · simp [hP, h]
  · simp [hP]

theorem vcopyStart_eq (n : Node) (c srcEp : ℤ) (saddr : ℕ) (dstEp : ℤ) (daddr : ℕ) (bytes : ℤ)
    (cp : ℕ → ℤ) : n.vcopyStart c srcEp saddr dstEp daddr bytes cp =
      let v := n.vcopyArgs c srcEp saddr dstEp daddr bytes
      if n.vcopyEntry v ≠ EMol.ok then some (n, .ret (n.vcopyEntry v))
      else if v.srcNr = v.dstNr then none
      else some (n.vcopyChecked c v cp) := by
  unfold vcopyEntry
  iterate 6 rw [ret_ite (by decide)]
  rw [if_neg (not_not_intro rfl)]
  rfl

theorem vcopyEntry_neg (h : n.vcopyEntry v ≠ EMol.ok) : n.vcopyEntry v < 0 := by
  unfold vcopyEntry at h ⊢
  split_ifs at h ⊢
  all_goals first | exact absurd rfl h | decide

theorem vcopyStart_cases {srcEp dstEp bytes : ℤ} {saddr daddr : ℕ} (cp : ℕ → ℤ)
    (hne : (n.vcopyArgs c srcEp saddr dstEp daddr bytes).srcNr ≠
      (n.vcopyArgs c srcEp saddr dstEp daddr bytes).dstNr) :
    (∃ code < 0, n.vcopyStart c srcEp saddr dstEp daddr bytes cp = some (n, .ret code)) ∨
      n.vcopyStart c srcEp saddr dstEp daddr bytes cp =
        some (n.vcopyChecked c (n.vcopyArgs c srcEp saddr dstEp daddr bytes) cp) := by
  rw [vcopyStart_eq]
  dsimp only
  rw [if_neg hne]
  split
  · exact .inl ⟨_, vcopyEntry_neg ‹_›, rfl⟩
  · exact .inr rfl

section

variable (hne : (n.proc i).endpoint ≠ ep)

include hne

theorem rejects_vcopyFrom (hp : endpointP ep = i) (hself : ep ≠ selfEp) {dst : ℤ}
    (hd : endpointP (n.resolved c dst) ≠ i) (saddr daddr : ℕ) (bytes : ℤ) (cp : ℕ → ℤ) :
    VcopyRefused n i ep (n.vcopyStart c ep saddr dst daddr bytes cp) := by
  have hsrc : (n.vcopyArgs c ep saddr dst daddr bytes).src = ep := if_neg hself
  have hdst : (n.vcopyArgs c ep saddr dst daddr bytes).dst = n.resolved c dst := by
    simp only [vcopyArgs, resolved, hself, ne_eq, not_false_eq_true, true_and]
  have hsn : (n.vcopyArgs c ep saddr dst daddr bytes).srcNr = i := by
    rw [VcopyCall.srcNr, hsrc, hp]
  have hdn : (n.vcopyArgs c ep saddr dst daddr bytes).dstNr ≠ i := by
    rw [VcopyCall.dstNr, hdst]
    exact hd
  rcases vcopyStart_cases cp (by rw [hsn]; exact hdn.symm) with ⟨code, hc, h⟩ | h
  · rw [h]
    exact ⟨n, _, rfl, rfl, .inl ⟨code, hc, rfl⟩⟩
  · rw [h, vcopyChecked_from (by rw [hsrc]; exact hne) hsn]
    exact ⟨n, _, rfl, rfl, .inl ⟨_, by decide, rfl⟩⟩

theorem rejects_vcopyTo (hp : endpointP ep = i) (hself : ep ≠ selfEp) (hc : c ≠ i) {src : ℤ}
    (hs : endpointP (n.resolved c src) ≠ i) (saddr daddr : ℕ) (bytes : ℤ) (cp : ℕ → ℤ) :
    VcopyRefused n i ep (n.vcopyStart c src saddr ep daddr bytes cp) := by
  have hdst : (n.vcopyArgs c src saddr ep daddr bytes).dst = ep := if_neg fun h => hself h.2
  have hdn : (n.vcopyArgs c src saddr ep daddr bytes).dstNr = i := by
    rw [VcopyCall.dstNr, hdst, hp]
  rcases vcopyStart_cases cp (by rw [hdn]; exact hs) with ⟨code, hc, h⟩ | h
  · rw [h]
    exact ⟨n, _, rfl, rfl, .inl ⟨code, hc, rfl⟩⟩
  · have h' := vcopyChecked_to (n := n) (c := c) cp (by rw [hdst]; exact hne) hdn hs hc
    rw [hdst] at h'
    rwa [h]

theorem rejects_vcopyWake (hp : endpointP ep = i) (hc : c ≠ i) (hv : v.dst = ep) (hs : v.srcNr ≠ i)
    (nr w : ℤ) (cp : ℕ → ℤ) : VcopyRefused n i ep (some (n.vcopyWake c (.waitMigr v nr) w cp)) := by
  unfold vcopyWake
  dsimp only
  generalize hm : (n.modProc c fun p =>
    { p with
      rcode := sleepCode (n.proc c) w
      pseudosem := if sleepCode (n.proc c) w = EMol.ok then p.pseudosem else max p.pseudosem 0 }) = m
  have hmi : m.proc i = n.proc i := by
    rw [← hm]
    exact modProc_of_ne _ _ hc.symm
  split_ifs with hif
  · exact ⟨m, _, rfl, hmi, .inr ⟨v, nr, rfl, hv, hs⟩⟩
  · have hui : (m.modProc c Proc.wakeMigr).proc i = n.proc i :=
      (modProc_of_ne _ _ hc.symm).trans hmi
    subst hv
    obtain ⟨n', next, h1, h2, h3⟩ := vcopyChecked_to (n := m.modProc c Proc.wakeMigr) (c := c)
      cp (by rw [hui]; exact hne) hp hs hc
    exact ⟨n', next, h1, h2.trans hui, h3⟩

/-- **A stale endpoint is rejected**: no call that names an endpoint other than the stored one gets
to the process, unless it is a notification of `HARDWARE`. -/
theorem rejects_of_ne (hp : endpointP ep = i) (hany : i ≠ anyEp) (hself : i ≠ selfEp) :
    Rejects n i ep := by
  have hany' : ep ≠ anyEp := by
    rintro rfl
    exact hany (hp.symm.trans (by decide))
  have hself' : ep ≠ selfEp := by
    rintro rfl
    exact hself (hp.symm.trans (by decide))
  exact
    { send := fun c m timeout cp hc => rejects_send hne hp hc m timeout cp
      sendrec := fun c m timeout cp hc => rejects_sendrec hne hp hc m timeout cp
      reply := fun c m timeout cp hc => rejects_reply hne hp hc m timeout cp
      receive := fun c timeout cp _ => rejects_receive hne hp hany' timeout cp
      notify := fun c srcNr upd hc hs => rejects_notify hne hp hc hs upd
      vcopyFrom := fun c dst saddr daddr bytes cp _ hd =>
        rejects_vcopyFrom hne hp hself' hd saddr daddr bytes cp
      vcopyTo := fun c src saddr daddr bytes cp hc hs =>
        rejects_vcopyTo hne hp hself' hc hs saddr daddr bytes cp
      vcopyWake := fun c v nr w cp hc hv hs => rejects_vcopyWake hne hp hc hv hs nr w cp }

end

end Calls

end Node

/-! ### Histories of a slot -/

/-- What happens to the slot: a bind, an unbind, or something else on its node. -/
inductive SlotOp
  | bind (oper : BindOper) (pid ep nodeid : ℤ) (env : BindEnv)
  | unbind (caller : Caller) (sig : ℤ)
  | other (f : Node → Node)

/-- The operation is about the slot `i`: a bind of it, an unbind, or one that keeps its endpoint. -/
def SlotOp.OnSlot (i : ℤ) : SlotOp → Prop
  | .bind _ _ ep _ _ => endpointP ep = i
  | .unbind _ _ => True
  | .other f => ∀ n, ((f n).proc i).endpoint = (n.proc i).endpoint

/-- The node of the slot, and, once it has been bound, the endpoint that the last bind has named and
the one that it has returned. -/
structure Slot where
  node : Node
  bound : Option (ℤ × ℤ) := none

namespace Slot

variable (i : ℤ)

def step (s : Slot) : SlotOp → Slot
  | .bind oper pid ep nodeid env =>
    let res := s.node.bind oper pid ep nodeid env
    ⟨res.1, res.2.toOption.elim s.bound fun r => some (ep, r)⟩
  | .unbind caller sig => ⟨(s.node.doUnbind caller i sig).1, s.bound⟩
  | .other f => ⟨f s.node, s.bound⟩

def states (s : Slot) : List SlotOp → List Slot
  | [] => [s]
  | op :: ops => s :: states (s.step i op) ops

/-- The endpoint of the bind is stored and was returned, and every other one of the slot is
rejected. -/
def Safe (s : Slot) : Prop :=
  ∀ ep r, s.bound = some (ep, r) → (s.node.proc i).endpoint = ep ∧ r = ep ∧
    ∀ ep', endpointP ep' = i → ep' ≠ ep → s.node.Rejects i ep'

def Names (s : Slot) : SlotOp → Prop
  | .bind oper pid ep nodeid env =>
    ∀ r, (s.node.bind oper pid ep nodeid env).2 = .ok r → (s.node.proc i).endpoint = ep
  | _ => True

def NamesAll (s : Slot) : List SlotOp → Prop
  | [] => True
  | op :: ops => s.Names i op ∧ NamesAll (s.step i op) ops

variable {i} {s : Slot} {op : SlotOp}

theorem step_endpoint (h : op.OnSlot i) :
    ((s.step i op).node.proc i).endpoint = (s.node.proc i).endpoint := by
  cases op with
  | bind oper pid ep nodeid env => exact Node.bind_endpoint s.node oper pid ep nodeid env i
  | unbind caller sig => exact Node.doUnbind_endpoint ..
  | other f => exact h s.node

theorem step_bound_of_ok {oper pid ep nodeid env r}
    (hr : (s.node.bind oper pid ep nodeid env).2 = .ok r) :
    (s.step i (.bind oper pid ep nodeid env)).bound = some (ep, r) := by
  unfold step
  dsimp only
  rw [hr]
  rfl

theorem step_bound (i : ℤ) (s : Slot) (op : SlotOp) : (s.step i op).bound = s.bound ∨
    ∃ oper pid ep nodeid env r, op = .bind oper pid ep nodeid env ∧
      (s.node.bind oper pid ep nodeid env).2 = .ok r ∧ (s.step i op).bound = some (ep, r) := by
  cases op with
  | bind oper pid ep nodeid env =>
    cases hr : (s.node.bind oper pid ep nodeid env).2 with
    | ok r =>
      refine .inr ⟨oper, pid, ep, nodeid, env, r, rfl, hr, ?_⟩
      exact step_bound_of_ok hr
    | error e =>
      left
      unfold step
      dsimp only
      rw [hr]
      rfl
  | unbind | other => exact .inl rfl

theorem names_of_safe (h : op.OnSlot i) (hs : (s.step i op).Safe i) : s.Names i op := by
  cases op with
  | bind oper pid ep nodeid env =>
    intro r hr
    rw [← step_endpoint h]
    exact (hs ep r (step_bound_of_ok hr)).1
  | unbind | other => trivial

theorem Safe.step (hany : i ≠ anyEp) (hself : i ≠ selfEp) (hs : s.Safe i) (h : op.OnSlot i)
    (hn : s.Names i op) : (s.step i op).Safe i := by
  intro ep r hb
  have he := step_endpoint (s := s) h
  have hep : (s.node.proc i).endpoint = ep ∧ r = ep := by
    obtain hsame | ⟨oper, pid, e, nodeid, env, r', rfl, hr, hb'⟩ :=
      step_bound i s op
    · rw [hsame] at hb
      exact ⟨(hs ep r hb).1, (hs ep r hb).2.1⟩
    · rw [hb'] at hb
      cases hb
      have hst : (s.node.proc i).endpoint = ep := hn r hr
      have hret := Node.bind_eq_ok hr
      rw [show endpointP ep = i from h, hst] at hret
      exact ⟨hst, hret⟩
  refine ⟨he.trans hep.1, hep.2, fun ep' hp hne => ?_⟩
  refine Node.rejects_of_ne ?_ hp hany hself
  rw [he, hep.1]
  exact hne.symm

/-- **A history keeps a slot safe** iff every bind that succeeds names the endpoint that the slot
has had from the start. -/
theorem safe_iff_namesAll {ops : List SlotOp} (hany : i ≠ anyEp) (hself : i ≠ selfEp)
    (hs : s.bound = none) (hops : ∀ op ∈ ops, op.OnSlot i) :
    (∀ t ∈ s.states i ops, t.Safe i) ↔ s.NamesAll i ops := by
  have h0 : s.Safe i := fun ep r h => by rw [hs] at h; cases h
  clear hs
  induction ops generalizing s with
  | nil => exact iff_of_true (fun t ht => by rw [List.mem_singleton.1 ht]; exact h0) trivial
  | cons op ops ih =>
    have hop := hops op List.mem_cons_self
    have hrest : ∀ op ∈ ops, op.OnSlot i := fun o ho => hops o (List.mem_cons_of_mem _ ho)
    constructor
    · intro h
      have h1 : (s.step i op).Safe i := by
        refine h _ (List.mem_cons_of_mem _ ?_)
        cases ops <;> exact List.mem_cons_self
      exact ⟨names_of_safe hop h1, (ih hrest h1).1 fun t ht => h t (List.mem_cons_of_mem _ ht)⟩
    · rintro ⟨hn, hall⟩ t ht
      rcases List.mem_cons.1 ht with rfl | ht
      · exact h0
      · exact (ih hrest (h0.step hany hself hop hn)).2 hall t ht

/-! ### One slot, two processes -/

def vacant : Slot where
  node := {
    conf := { Conf.sample 0 with dcNrTasks := 2, dcNrProcs := 8, dcNrSysprocs := 10 }
    proc := fun nr => if nr = 5 then { Proc.sample 0 5 {} with sId := 7 } else { endpoint := nr }
    sproxy := Proc.sampleProxy
    rproxy := Proc.sampleProxy }

def bindServer (pid g : ℤ) : SlotOp :=
  .bind .lclBind pid (endpointOf g 6) localNode { found := true, leader := true }

/-- A process comes and goes, and another one takes its endpoint over. -/
theorem vacant_safe :
    vacant.bound = none ∧
      ∀ t ∈ vacant.states 6 [bindServer 100 0, .unbind (.proc 6) 0, bindServer 101 0], t.Safe 6 := by
  refine ⟨rfl, (safe_iff_namesAll (by decide) (by decide) rfl ?_).2 ?_⟩
  · intro op h
    simp only [List.mem_cons, List.not_mem_nil, or_false] at h
    rcases h with rfl | rfl | rfl
    · exact (by decide : endpointP (endpointOf 0 6) = 6)
    · exact trivial
    · exact (by decide : endpointP (endpointOf 0 6) = 6)
  · refine ⟨fun _ _ => by decide, trivial, fun _ _ => ?_, trivial⟩
    decide

/-- The second process is bound with an endpoint of the next generation. The bind returns the first
one, and a message sent to it reaches the second process. -/
theorem stale_send_delivered :
    let s := [bindServer 100 0, .unbind (.proc 6) 0, bindServer 101 1].foldl (step 6) vacant
    let n := (s.node.miniReceive 6 anyEp timeoutForever 0).1
    s.bound = some (endpointOf 1 6, endpointOf 0 6) ∧
      (s.node.proc 6).endpoint = endpointOf 0 6 ∧ (n.proc 6).lpid = 101 ∧
      ∃ r, n.miniSend 5 (endpointOf 0 6) { type := 7 } timeoutForever 0 = some r ∧
        r.2 = .ret EMol.ok ∧ (r.1.proc 6).ubuf = { source := 5, type := 7 } := by
  refine ⟨by decide, by decide, by decide, _, rfl, by decide, by decide⟩

end Slot

end MolIpc
