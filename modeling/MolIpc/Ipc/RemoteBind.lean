import MolIpc.Admin.Tables
import MolIpc.Ipc.Bind

/-!
The two ways to bind a remote process: `mm_bind` with `RMT_BIND`, and `do_autobind` when a command
of the process comes in. Both need the proxies of its node.

They agree but for two slips of `mm_bind`. The result of its look at the two proxies is overwritten
by that of `unlock_sr_proxies`, so that only a pair that nobody has bound is refused; and the
endpoint that it is given is not written to the descriptor.
-/

namespace MolIpc

namespace Dvs

variable (s : Dvs)

/-- `unlock_sr_proxies`. -/
def unlockProxies (p : ℤ) : ℤ :=
  if ¬ s.NodeRange p then EMol.proxyid
  else if (s.px p).flags = {} then EMol.noproxy
  else EMol.ok

def oneFree (p : ℤ) : Bool :=
  decide ((s.px p).rproxy.rts = Rts.onlyFree ∨ (s.px p).sproxy.rts = Rts.onlyFree)

def ProxiesBound (nodeid : ℤ) : Prop :=
  s.lockProxies (s.node nodeid).proxies = EMol.ok ∧ s.oneFree (s.node nodeid).proxies = false

instance (nodeid : ℤ) : Decidable (s.ProxiesBound nodeid) := inferInstanceAs (Decidable (_ ∧ _))

theorem unlockProxies_eq_ok {s : Dvs} {p : ℤ} :
    s.unlockProxies p = EMol.ok ↔ s.lockProxies p = EMol.ok := by
  unfold unlockProxies lockProxies
  split_ifs <;> decide

end Dvs

namespace Node

variable (n : Node) (s : Dvs) (ep nodeid : ℤ)

/-- `mm_bind` with `RMT_BIND`, for the given tables. -/
def rmtBind : Node × Except ℤ ℤ :=
  n.bind .rmtBind 0 ep nodeid
    { pairFree := decide (s.unlockProxies (s.node nodeid).proxies ≠ EMol.ok) }

/-- `do_autobind`, for the given tables. -/
def doAutobind : Node × Except ℤ ℤ :=
  n.autobind ep nodeid (s.lockProxies (s.node nodeid).proxies) (s.oneFree (s.node nodeid).proxies)

/-- The DC runs, the slot of the endpoint is in its table and free, and the node is another one. -/
structure Vacant : Prop where
  dcid : 0 ≤ n.conf.dcid ∧ n.conf.dcid < n.conf.dNrDcs
  running : n.conf.dcFlags = 0
  inRange : n.conf.inRange (endpointP ep)
  free : (n.proc (endpointP ep)).rts.slotFree = true
  node : 0 ≤ nodeid ∧ nodeid < n.conf.dNrNodes
  other : nodeid ≠ n.conf.localNodeid

structure IsRemote (p : Proc) : Prop where
  rts : p.rts = { remote := true }
  home : p.nodeid = nodeid
  endpoint : p.endpoint = ep
  nodemap : p.nodemap = Function.update (fun _ => false) nodeid true
  sId : p.sId = n.slotSid (endpointP ep)

/-- **The two ways agree**: they succeed with the same descriptor if the node is one of the DC and
both its proxies are bound; else both fail, and the slot stays free. -/
def BindsAgree : Prop :=
  let i := endpointP ep
  let b := n.rmtBind s ep nodeid
  let a := n.doAutobind s ep nodeid
  (n.conf.dcNodes nodeid = true ∧ s.ProxiesBound nodeid →
    b.2 = .ok ep ∧ a.2 = .ok ep ∧ b.1.proc i = a.1.proc i ∧ n.IsRemote ep nodeid (a.1.proc i)) ∧
  (¬ (n.conf.dcNodes nodeid = true ∧ s.ProxiesBound nodeid) →
    (∃ e, b.2 = .error e) ∧ (∃ e, a.2 = .error e) ∧
      (b.1.proc i).rts.slotFree = true ∧ (a.1.proc i).rts.slotFree = true)

variable {n s ep nodeid}

section Vacant

variable (h : n.Vacant ep nodeid)
include h

theorem Vacant.rmtBind_eq :
    n.rmtBind s ep nodeid =
      if n.conf.dcNodes nodeid = false then (n, .error EMol.nodcnode)
      else
        let m := n.modProc (endpointP ep) (·.initDesc n.conf.dcid)
        if s.lockProxies (s.node nodeid).proxies ≠ EMol.ok then (m, .error EMol.noproxy)
        else
          (m.modProc (endpointP ep) fun p =>
            { p with
              rts := { remote := true }, nodeid := nodeid, sId := n.slotSid (endpointP ep)
              nodemap := Function.update p.nodemap nodeid true },
            .ok (n.proc (endpointP ep)).endpoint) := by
  have hnode : n.bindNode .rmtBind nodeid = some nodeid := by
    simp [bindNode, h.node, h.other]
  have hcheck : n.bindCheck .rmtBind ep nodeid =
      if n.conf.dcNodes nodeid = false then EMol.nodcnode else EMol.ok := by
    simp [bindCheck, h.dcid, h.running, h.inRange, h.free]
  unfold rmtBind bind bindOpen
  rw [hnode]
  dsimp only
  rw [hcheck]
  by_cases hdc : n.conf.dcNodes nodeid = false
  · rw [if_pos hdc, if_pos hdc, if_pos (by decide)]
  rw [if_neg hdc, if_neg hdc, if_neg (not_not_intro rfl)]
  show Node.bindClose _ .rmtBind 0 ep _ nodeid = _
  unfold bindClose bindGroup
  rw [if_pos rfl]
  by_cases hlock : s.lockProxies (s.node nodeid).proxies = EMol.ok
  · have hun := Dvs.unlockProxies_eq_ok.2 hlock
    rw [if_neg (not_not_intro hlock), hun, if_neg (by decide)]
    refine Prod.ext ?_ ?_
    · rfl
    · rw [modProc_same]
      rfl
  · have hun := mt Dvs.unlockProxies_eq_ok.1 hlock
    rw [if_pos hlock, if_pos (decide_eq_true hun), if_pos (by decide)]

theorem Vacant.doAutobind_eq :
    n.doAutobind s ep nodeid =
      if n.conf.dcNodes nodeid = false then (n, .error EMol.nodcnode)
      else
        let m := n.modProc (endpointP ep) (·.initDesc n.conf.dcid)
        if s.lockProxies (s.node nodeid).proxies ≠ EMol.ok then
          (m, .error (s.lockProxies (s.node nodeid).proxies))
        else if s.oneFree (s.node nodeid).proxies then (m, .error EMol.noproxy)
        else
          (m.modProc (endpointP ep) fun p =>
            { p with
              rts := { remote := true }, endpoint := ep, nodeid := nodeid
              sId := n.slotSid (endpointP ep)
              nodemap := Function.update p.nodemap nodeid true }, .ok ep) := by
  unfold doAutobind autobind
  rw [if_neg (not_not_intro h.dcid), if_neg (not_not_intro h.inRange),
    if_neg (not_not_intro h.node), if_neg (not_not_intro h.free)]
  by_cases hdc : n.conf.dcNodes nodeid = false
  · rw [if_pos hdc, if_pos (by rw [hdc]; decide)]
  · rw [if_neg hdc, if_neg (not_not_intro (Bool.not_eq_false _ ▸ hdc))]
    exact if_neg h.other

/-- **`mm_bind` and `do_autobind` agree** iff the node is none of the DC, or its proxy pair is not
in use, or both proxies are bound and the slot has the endpoint already. -/
theorem Vacant.bindsAgree_iff :
    n.BindsAgree s ep nodeid ↔
      n.conf.dcNodes nodeid = false ∨ s.lockProxies (s.node nodeid).proxies ≠ EMol.ok ∨
        s.oneFree (s.node nodeid).proxies = false ∧ (n.proc (endpointP ep)).endpoint = ep := by
  have hb := h.rmtBind_eq (s := s)
  have ha := h.doAutobind_eq (s := s)
  have hfree : ((n.modProc (endpointP ep) (·.initDesc n.conf.dcid)).proc
      (endpointP ep)).rts.slotFree = true := by
    rw [modProc_same]
    rfl
  by_cases hdc : n.conf.dcNodes nodeid = false
  · rw [if_pos hdc] at hb ha
    refine iff_of_true ⟨fun hr => ?_, fun _ => ?_⟩ (.inl hdc)
    · exact absurd (hdc.symm.trans hr.1) Bool.false_ne_true
    · rw [hb, ha]
      exact ⟨⟨_, rfl⟩, ⟨_, rfl⟩, h.free, h.free⟩
  rw [if_neg hdc] at hb ha
  by_cases hlock : s.lockProxies (s.node nodeid).proxies = EMol.ok
  swap
  · rw [if_pos hlock] at hb ha
    refine iff_of_true ⟨fun hr => absurd hr.2.1 hlock, fun _ => ?_⟩ (.inr (.inl hlock))
    rw [hb, ha]
    exact ⟨⟨_, rfl⟩, ⟨_, rfl⟩, hfree, hfree⟩
  rw [if_neg (not_not_intro hlock)] at hb ha
  by_cases hone : s.oneFree (s.node nodeid).proxies = true
  · -- one of the two proxies is free, and only `do_autobind` refuses
    refine iff_of_false (fun hr => ?_) ?_
    · obtain ⟨⟨e, he⟩, -⟩ := hr.2 fun hx => absurd (hone.symm.trans hx.2.2) (by decide)
      rw [hb] at he
      exact nomatch he
    · rintro (hx | hx | hx)
      · exact hdc hx
      · exact hx hlock
      · exact absurd (hone.symm.trans hx.1) (by decide)
  · rw [if_neg hone] at ha
    rw [Bool.not_eq_true] at hone
    rw [Bool.not_eq_false] at hdc
    constructor
    · intro hr
      obtain ⟨hok, -⟩ := hr.1 ⟨hdc, hlock, hone⟩
      rw [hb] at hok
      exact .inr (.inr ⟨hone, Except.ok.inj hok⟩)
    · rintro (hx | hx | ⟨-, hep⟩)
      · exact absurd (hdc.symm.trans hx) (by decide)
      · exact absurd hlock hx
      · refine ⟨fun _ => ?_, fun hx => absurd ⟨hdc, hlock, hone⟩ hx⟩
        rw [hb, ha]
        refine ⟨congrArg Except.ok hep, rfl, ?_, ?_⟩
        · simp only [modProc_same, Proc.initDesc, hep]
        · rw [modProc_same, modProc_same]
          exact ⟨rfl, rfl, rfl, rfl, rfl⟩

end Vacant

/-! ### A bind without proxies -/

def pairSample (bound : Bool) : Dvs where
  localNodeid := 0
  nrNodes := 2
  nrDcs := 1
  node := fun i => if i = 1 then { flags := { attached := true }, proxies := 1 } else {}
  dc := fun _ => {}
  px := fun _ =>
    { flags := { inuse := true }
      sproxy := { rts := Rts.running }
      rproxy := { rts := if bound then Rts.running else Rts.onlyFree } }

def vacantSample : Node where
  conf := Conf.sample 0
  proc := fun q => { rts := Rts.onlyFree, endpoint := endpointOf 0 q }
  sproxy := Proc.sampleProxy
  rproxy := Proc.sampleProxy

theorem vacantSample_vacant {ep : ℤ} (h : ep = 5 ∨ ep = endpointOf 1 5) :
    vacantSample.Vacant ep 1 := by
  rcases h with rfl | rfl <;> exact ⟨by decide, rfl, by decide, rfl, by decide, by decide⟩

/-- With both proxies, the first process of a slot is bound in the same way. -/
theorem first_bind_agrees :
    vacantSample.Vacant 5 1 ∧ vacantSample.BindsAgree (pairSample true) 5 1 := by
  have h := vacantSample_vacant (.inl rfl)
  exact ⟨h, h.bindsAgree_iff.2 (.inr (.inr ⟨by decide, by decide⟩))⟩

/-- **Two binds that do not agree**: without the receiver proxy, only `mm_bind` succeeds; and of a
later process, `mm_bind` leaves the old endpoint. -/
theorem binds_disagree :
    (vacantSample.Vacant 5 1 ∧ (vacantSample.rmtBind (pairSample false) 5 1).2 = .ok 5 ∧
      (vacantSample.doAutobind (pairSample false) 5 1).2 = .error EMol.noproxy ∧
      ¬ vacantSample.BindsAgree (pairSample false) 5 1) ∧
    vacantSample.Vacant (endpointOf 1 5) 1 ∧
      ((vacantSample.rmtBind (pairSample true) (endpointOf 1 5) 1).1.proc 5).endpoint = 5 ∧
      ((vacantSample.doAutobind (pairSample true) (endpointOf 1 5) 1).1.proc 5).endpoint =
        endpointOf 1 5 ∧
      ¬ vacantSample.BindsAgree (pairSample true) (endpointOf 1 5) 1 := by
  refine ⟨⟨vacantSample_vacant (.inl rfl), rfl, rfl, fun h => ?_⟩,
    vacantSample_vacant (.inr rfl), by decide, by decide, fun h => ?_⟩
  · obtain ⟨⟨e, he⟩, -⟩ := h.2 (by decide)
    exact nomatch he
  · obtain ⟨hok, -⟩ := h.1 (by decide)
    exact absurd (Except.ok.inj hok) (by decide)

end Node

end MolIpc
