import MolIpc.Ipc.SlotUse
import MolIpc.Ipc.Stale
import MolIpc.Proxy.Put2lcl

/-!
The range checks that the IPC calls, the receiver proxy and `mm_unbind` make on the process number
of a peer, against the one under which a process is bound.
-/

namespace MolIpc

/-- The range of `mm_mini_receive`, which takes the tasks off the upper end. -/
def Conf.inReceiveRange (cf : Conf) (nr : ℤ) : Prop :=
  -cf.dcNrTasks ≤ nr ∧ nr < cf.dcNrProcs - cf.dcNrTasks

namespace Node

/-! ### The checks -/

def unbindEntry (n : Node) (ep : ℤ) : ℤ :=
  let p := n.proc (endpointP ep)
  if n.dcCheck ≠ EMol.ok then n.dcCheck
  else if ¬ n.conf.inRange (endpointP ep) then EMol.endpoint
  else if p.rts.slotFree then EMol.notbind
  else if ¬ (0 ≤ p.nodeid ∧ p.nodeid < n.conf.dNrNodes) then EMol.badnodeid
  else if ¬ n.conf.dcNodes p.nodeid then EMol.nodcnode
  else EMol.ok

structure Listens (n : Node) (px : ℤ) (h : Hdr) : Prop where
  bound : (n.rproxy px).rts.slotFree = false
  proxy : (n.rproxy px).misc.proxy = true
  connected : (n.rproxy px).misc.connected = true
  dcid : 0 ≤ h.dcid ∧ h.dcid < n.conf.dNrDcs
  running : n.conf.dcFlags = 0

structure Copies (n : Node) (v : VcopyCall) : Prop where
  bytes : 0 ≤ v.bytes ∧ v.bytes ≤ n.conf.dMaxCopylen
  apart : v.src ≠ v.dst
  named : v.src ≠ anyEp ∧ v.dst ≠ anyEp ∧ v.src ≠ noneEp ∧ v.dst ≠ noneEp
  dcid : 0 ≤ n.conf.dcid ∧ n.conf.dcid < n.conf.dNrDcs
  running : n.conf.dcFlags = 0

/-- Each call that gets to the range check of the peer `ep` refuses it exactly if `out`. Send,
sendrec, reply and notify share their checks. -/
structure Judges (n : Node) (ep : ℤ) (out : Prop) : Prop where
  send : n.dcCheck = EMol.ok → ∀ c, n.sendEntry c ep = EMol.range ↔ out
  receive : n.dcCheck = EMol.ok → ep ≠ anyEp → ∀ c, n.receiveEntry c ep = EMol.range ↔ out
  hardware : n.dcCheck = EMol.ok → (n.hdwNotify ep = (n, .ret EMol.range) ↔ out)
  vcopyFrom : ∀ v, v.src = ep → n.Copies v → n.conf.inRange v.dstNr →
    (n.vcopyEntry v = EMol.range ↔ out)
  vcopyTo : ∀ v, v.dst = ep → n.Copies v → n.conf.inRange v.srcNr →
    (n.vcopyEntry v = EMol.range ↔ out)
  put2lclFrom : ∀ px h, h.src = ep → n.Listens px h → n.conf.inRange (endpointP h.dst) →
    (n.put2lclEntry px h = EMol.range ↔ out)
  put2lclTo : ∀ px h, h.dst = ep → n.Listens px h → n.conf.inRange (endpointP h.src) →
    (n.put2lclEntry px h = EMol.range ↔ out)
  unbind : n.dcCheck = EMol.ok → (n.unbindEntry ep = EMol.endpoint ↔ out)

/-- In some state of a DC with this configuration a process is bound under `ep`. -/
def Bindable (cf : Conf) (ep : ℤ) : Prop :=
  ∃ n : Node, n.conf = cf ∧
    ((∃ oper pid nodeid env e, (n.bind oper pid ep nodeid env).2 = .ok e) ∨
      ∃ nodeid lock pairFree e, (n.autobind ep nodeid lock pairFree).2 = .ok e)

/-- All the calls take a peer that can be bound, and none takes one out of the table. -/
def SamePeers (n : Node) (ep : ℤ) : Prop :=
  (Bindable n.conf ep → n.Judges ep False) ∧
    (¬ n.conf.inRange (endpointP ep) → n.Judges ep True)

/-! ### What they accept -/

section Judges

variable {n : Node} {ep c : ℤ}

theorem ite_eq_code {P : Prop} [Decidable P] {code rest : ℤ} (h : rest ≠ code) :
    (if P then code else rest) = code ↔ P := by
  by_cases hP : P
  · simp [hP]
  · simp [hP, h]

theorem rproxyCheck_ne_range (n : Node) (node : ℤ) : n.rproxyCheck node ≠ EMol.range := by
  unfold rproxyCheck
  dsimp only
  split_ifs <;> decide

theorem receiveEntry_eq_range (hdc : n.dcCheck = EMol.ok) (hany : ep ≠ anyEp) :
    n.receiveEntry c ep = EMol.range ↔ ¬ n.conf.inReceiveRange (endpointP ep) := by
  unfold receiveEntry
  rw [if_neg (not_not_intro hdc), if_neg hany]
  refine ite_eq_code ?_
  split_ifs
  all_goals first | decide | exact rproxyCheck_ne_range n _

theorem hdwNotify_eq_range (hdc : n.dcCheck = EMol.ok) :
    n.hdwNotify ep = (n, .ret EMol.range) ↔ ¬ n.conf.inRange (endpointP ep) := by
  unfold hdwNotify
  rw [if_neg (not_not_intro hdc)]
  by_cases hr : n.conf.inRange (endpointP ep)
  · rw [if_neg (not_not_intro hr)]
    refine iff_of_false (fun h => ?_) (not_not_intro hr)
    have hret := congrArg Prod.snd h
    split_ifs at hret <;> dsimp only at hret <;> exact absurd hret (by decide)
  · rw [if_pos hr]
    exact iff_of_true rfl hr

theorem Copies.entry {v : VcopyCall} (h : n.Copies v) :
    n.vcopyEntry v = if ¬ n.conf.inRange v.srcNr then EMol.range
      else if ¬ n.conf.inRange v.dstNr then EMol.range else EMol.ok := by
  obtain ⟨⟨h0, h1⟩, h2, ⟨h3, h4, h5, h6⟩, h7, h8⟩ := h
  unfold vcopyEntry
  rw [if_neg (by omega), if_neg (by simp [*]), if_neg (not_not_intro h7),
    if_neg (not_not_intro h8)]

theorem Listens.entry {px : ℤ} {h : Hdr} (hl : n.Listens px h) :
    n.put2lclEntry px h = if ¬ n.conf.inRange (endpointP h.src) then EMol.range
      else if ¬ n.conf.inRange (endpointP h.dst) then EMol.range
      else if ¬ n.conf.dcNodes h.snode then EMol.nodcnode
      else if h.dnode ≠ n.conf.localNodeid then EMol.badnodeid
      else EMol.ok := by
  obtain ⟨h1, h2, h3, h4, h5⟩ := hl
  unfold put2lclEntry
  rw [if_neg (by simp [h1]), if_neg (not_not_intro h2), if_neg (not_not_intro h3),
    if_neg (not_not_intro h4), if_neg (not_not_intro h5)]

theorem judges_of_range {out : Prop} (hout : ¬ n.conf.inRange (endpointP ep) ↔ out)
    (hreceive : n.dcCheck = EMol.ok → ep ≠ anyEp →
      (¬ n.conf.inReceiveRange (endpointP ep) ↔ out)) : n.Judges ep out := by
  constructor
  case receive => exact fun hdc hany c =>
    (receiveEntry_eq_range hdc hany).trans (hreceive hdc hany)
  all_goals rw [← hout]
  case send =>
    intro hdc c
    unfold sendEntry
    rw [if_neg (not_not_intro hdc)]
    refine ite_eq_code ?_
    split_ifs <;> decide
  case hardware => exact hdwNotify_eq_range
  case vcopyFrom =>
    rintro v rfl hv hd
    rw [hv.entry, if_neg (not_not_intro hd)]
    exact ite_eq_code (by decide)
  case vcopyTo =>
    rintro v rfl hv hs
    rw [hv.entry, if_neg (not_not_intro hs)]
    exact ite_eq_code (by decide)
  case put2lclFrom =>
    rintro px h rfl hl hd
    rw [hl.entry, if_neg (not_not_intro hd)]
    refine ite_eq_code ?_
    split_ifs <;> decide
  case put2lclTo =>
    rintro px h rfl hl hs
    rw [hl.entry, if_neg (not_not_intro hs)]
    refine ite_eq_code ?_
    split_ifs <;> decide
  case unbind =>
    intro hdc
    unfold unbindEntry
    rw [if_neg (not_not_intro hdc)]
    refine ite_eq_code ?_
    split_ifs <;> decide

theorem inRange_of_bindable {cf : Conf} (h : Bindable cf ep) : cf.inRange (endpointP ep) := by
  obtain ⟨n, rfl, ⟨oper, pid, nodeid, env, e, h⟩ | ⟨nodeid, lock, pairFree, e, h⟩⟩ := h
  · rcases bindOpen_cases n oper ep nodeid env with ⟨code, ho⟩ | ⟨hr, -⟩
    · simp [bind, ho] at h
    · exact hr
  · obtain ⟨n', r, heq, ⟨-, hr, -⟩ | ⟨⟨code, rfl⟩, -⟩⟩ :=
      autobind_cases n ep nodeid lock pairFree
    · exact hr
    · simp [heq] at h

/-- **The calls agree on a peer** iff the range of the receive leaves out nobody who can be bound
and takes nobody from outside of the table. -/
theorem samePeers_iff (n : Node) (ep : ℤ) :
    n.SamePeers ep ↔ (n.dcCheck = EMol.ok → ep ≠ anyEp →
      (Bindable n.conf ep → n.conf.inReceiveRange (endpointP ep)) ∧
        (¬ n.conf.inRange (endpointP ep) → ¬ n.conf.inReceiveRange (endpointP ep))) := by
  constructor
  · rintro ⟨hin, hout⟩ hdc hany
    refine ⟨fun hb => ?_, fun hr => ?_⟩
    · have h := (hin hb).receive hdc hany 0
      rw [receiveEntry_eq_range hdc hany] at h
      exact not_not.1 h.1
    · have h := (hout hr).receive hdc hany 0
      rw [receiveEntry_eq_range hdc hany] at h
      exact h.2 trivial
  · refine fun h => ⟨fun hb => ?_, fun hr => ?_⟩
    · refine judges_of_range (iff_of_false (not_not_intro (inRange_of_bindable hb)) id) ?_
      exact fun hdc hany => iff_of_false (not_not_intro ((h hdc hany).1 hb)) id
    · refine judges_of_range (iff_of_true hr trivial) ?_
      exact fun hdc hany => iff_of_true ((h hdc hany).2 hr) trivial

end Judges

def unboundDc : Node where
  conf := Conf.sample 0
  proc nr := { endpoint := nr }
  sproxy := Proc.sampleProxy
  rproxy := Proc.sampleProxy

/-- The last 35 processes of a DC cannot be named in a receive: process 200 may be sent a message,
but is out of range. -/
theorem receive_refuses_bound :
    let n := (unboundDc.bind .lclBind 100 200 localNode { found := true, leader := true }).1
    (unboundDc.bind .lclBind 100 200 localNode { found := true, leader := true }).2 = .ok 200 ∧
      n.sendEntry 5 200 = EMol.ok ∧ n.receiveEntry 5 200 = EMol.range ∧ ¬ n.SamePeers 200 := by
  have hb : (unboundDc.bind .lclBind 100 200 localNode { found := true, leader := true }).2 =
    .ok 200 := by decide
  refine ⟨hb, by decide, by decide, fun h => ?_⟩
  have hj := h.1 ⟨unboundDc, rfl, .inl ⟨_, _, _, _, _, hb⟩⟩
  exact (hj.receive (by decide) (by decide) 5).1 (by decide)

end Node

end MolIpc
