import MolIpc.Admin.Tables
import MolIpc.Lib.Reach

/-!
The two relations that the tables keep twice: when both copies agree.

The nodes of a DC agree in every run. The proxies of a node do not: `mm_node_up` does not ask
whether the node has proxies, `do_proxies_unbind` takes the node out of the maps but leaves its
field alone when the other proxy is connected to it, and `do_node_end` does the contrary. In a run
without these calls both relations agree in every state.
-/

namespace MolIpc

namespace Dvs

variable {s t : Dvs} {p dcid i n nodeid : ℤ} {f : Proc → Proc} {side : Side}

/-- The bitmaps agree: the nodes of the running DCs, and the proxy pairs of the nodes. -/
structure Symmetric (s : Dvs) : Prop where
  dcs (d n : ℤ) : s.DcRange d → s.NodeRange n → (s.dc d).free = false →
    ((s.dc d).nodes n = true ↔ (s.node n).dcs d = true)
  pairs (p n : ℤ) (side : Side) : s.NodeRange p → s.NodeRange n →
    ((s.node n).proxies = p ↔ ((s.px p).proxy side).nodemap n = true)

theorem Symmetric.one_pair (h : s.Symmetric) {q : ℤ} {a b : Side} (hn : s.NodeRange n)
    (hp : s.NodeRange p) (hq : s.NodeRange q) (hpn : ((s.px p).proxy a).nodemap n = true)
    (hqn : ((s.px q).proxy b).nodemap n = true) : p = q :=
  ((h.pairs p n a hp hn).mpr hpn).symm.trans ((h.pairs q n b hq hn).mpr hqn)

/-! ### Invariants -/

/-- What a run keeps of the proxies: a node that has a pair is in its maps, and attached. -/
structure Pairs (s : Dvs) : Prop where
  map (p n : ℤ) (side : Side) : p ≠ noProxies →
    (((s.px p).proxy side).nodemap n = true ↔ (s.node n).proxies = p)
  attached (n : ℤ) : (s.node n).proxies ≠ noProxies → (s.node n).flags.attached = true
  range (n : ℤ) : (s.node n).proxies ≠ noProxies → s.NodeRange n
  inuse (n : ℤ) : (s.node n).proxies ≠ noProxies → (s.px (s.node n).proxies).flags.inuse = true
  nodeFlags (n : ℤ) : (s.node n).flags.attached = false → (s.node n).flags = {}
  pxFlags (p : ℤ) : (s.px p).flags.inuse = false → (s.px p).flags = {}

/-- The local node is left out of the last two: its bit stays when it has been ended before the DC.
-/
structure Members (s : Dvs) : Prop where
  running (d : ℤ) : (s.dc d).free = false → s.DcRange d
  member (d n : ℤ) : (s.dc d).free = false → (s.dc d).nodes n = (s.node n).dcs d
  freeDc (d n : ℤ) : (s.dc d).free = true → n ≠ s.localNodeid → (s.node n).dcs d = false
  freeNode (d n : ℤ) : (s.node n).flags.attached = false ∨ ¬ s.NodeRange n →
    n ≠ s.localNodeid → (s.node n).dcs d = false

theorem ne_noProxies_of_range (h : s.NodeRange p) : p ≠ noProxies := by
  rintro rfl
  exact absurd h.1 (by decide)

theorem symmetric_of_invariants (hp : s.Pairs) (hm : s.Members) : s.Symmetric where
  dcs d n _ _ hd := by rw [hm.member d n hd]
  pairs p n side hpr _ := (hp.map p n side (ne_noProxies_of_range hpr)).symm

theorem pairs_init (l : ℤ) (nn nd : ℕ) : (init l nn nd).Pairs := by
  have hproxies : ∀ n, ((init l nn nd).node n).proxies = noProxies := by
    intro n
    simp only [init]
    split_ifs <;> rfl
  refine ⟨?_, ?_, ?_, ?_, ?_, ?_⟩
  · intro p n side hp
    rw [hproxies n]
    cases side <;> simp [init, Proxies.proxy, Ne.symm hp]
  · exact fun n hn => absurd (hproxies n) hn
  · exact fun n hn => absurd (hproxies n) hn
  · exact fun n hn => absurd (hproxies n) hn
  · intro n hn
    simp only [init] at hn ⊢
    split_ifs at hn ⊢
    rfl
  · exact fun p _ => rfl

theorem members_init (l : ℤ) (nn nd : ℕ) : (init l nn nd).Members := by
  have hdcs : ∀ d n, ((init l nn nd).node n).dcs d = false := by
    intro d n
    simp only [init]
    split_ifs <;> rfl
  exact ⟨(fun _ h => by cases h), (fun _ _ h => by cases h), fun d n _ _ => hdcs d n,
    fun d n _ _ => hdcs d n⟩

theorem Pairs.of_eq (h : s.Pairs) (hpx : t.px = s.px) (hr : t.nrNodes = s.nrNodes)
    (hn : ∀ n, (t.node n).flags = (s.node n).flags ∧ (t.node n).proxies = (s.node n).proxies) :
    t.Pairs := by
  refine ⟨?_, ?_, ?_, ?_, ?_, ?_⟩
  · intro p n side hp
    rw [hpx, (hn n).2]
    exact h.map p n side hp
  · intro n
    rw [(hn n).1, (hn n).2]
    exact h.attached n
  · intro n
    rw [(hn n).2, NodeRange, hr]
    exact h.range n
  · intro n
    rw [(hn n).2, hpx]
    exact h.inuse n
  · intro n
    rw [(hn n).1]
    exact h.nodeFlags n
  · intro p
    rw [hpx]
    exact h.pxFlags p

theorem Members.of_eq (h : s.Members) (hdc : t.dc = s.dc) (hnd : t.nrDcs = s.nrDcs)
    (hnn : t.nrNodes = s.nrNodes) (hl : t.localNodeid = s.localNodeid)
    (hn : ∀ n, (t.node n).dcs = (s.node n).dcs ∧
      ((t.node n).flags.attached = false → (s.node n).flags.attached = false)) :
    t.Members := by
  refine ⟨?_, ?_, ?_, ?_⟩
  · intro d
    rw [hdc, DcRange, hnd]
    exact h.running d
  · intro d n
    rw [hdc, (hn n).1]
    exact h.member d n
  · intro d n
    rw [hdc, hl, (hn n).1]
    exact h.freeDc d n
  · intro d n hd
    rw [NodeRange, hnn] at hd
    rw [hl, (hn n).1]
    exact h.freeNode d n (hd.imp_left (hn n).2)

/-! ### The nodes of the DCs -/

theorem setMember_node (dcid nodeid n : ℤ) (b : Bool) :
    ((s.setMember dcid nodeid b).node n).flags = (s.node n).flags ∧
      ((s.setMember dcid nodeid b).node n).proxies = (s.node n).proxies := by
  simp only [setMember, modNode_node]
  split_ifs with h
  · subst h
    exact ⟨rfl, rfl⟩
  · exact ⟨rfl, rfl⟩

theorem setMember_dcs (dcid nodeid n d : ℤ) (b : Bool) :
    ((s.setMember dcid nodeid b).node n).dcs d =
      if n = nodeid ∧ d = dcid then b else (s.node n).dcs d := by
  simp only [setMember, modNode_node, modDc_node]
  by_cases h : n = nodeid
  · subst h
    simp [Function.update_apply]
  · simp [h]

theorem setMember_nodes (dcid nodeid n d : ℤ) (b : Bool) :
    ((s.setMember dcid nodeid b).dc d).nodes n =
      if n = nodeid ∧ d = dcid then b else (s.dc d).nodes n := by
  simp only [setMember, modNode_dc, modDc_dc]
  by_cases h : d = dcid
  · subst h
    simp [Function.update_apply]
  · simp [h]

theorem setMember_free (dcid nodeid d : ℤ) (b : Bool) :
    ((s.setMember dcid nodeid b).dc d).free = (s.dc d).free := by
  simp only [setMember, modNode_dc, modDc_dc]
  split_ifs with h
  · rw [h]
  · rfl

theorem Members.setMember (hm : s.Members) (hp : s.Pairs) (hc : s.memberCheck dcid nodeid = EMol.ok)
    (b : Bool) : (s.setMember dcid nodeid b).Members := by
  obtain ⟨hrange, hflags, hfree⟩ :
      s.NodeRange nodeid ∧ (s.node nodeid).flags ≠ {} ∧ (s.dc dcid).free = false := by
    unfold memberCheck at hc
    split_ifs at hc with h1 h2 h3 h4 h5 <;> first | exact absurd hc (by decide) | skip
    exact ⟨h1, h3, by simpa using h5⟩
  refine ⟨?_, ?_, ?_, ?_⟩
  · intro d hd
    exact hm.running d (by rwa [setMember_free] at hd)
  · intro d n hd
    rw [setMember_free] at hd
    rw [setMember_nodes, setMember_dcs, hm.member d n hd]
  · intro d n hd hn
    rw [setMember_free] at hd
    rw [setMember_dcs, if_neg, hm.freeDc d n hd hn]
    rintro ⟨-, rfl⟩
    simp [hfree] at hd
  · intro d n ha hn
    rw [(setMember_node dcid nodeid n b).1] at ha
    rw [setMember_dcs, if_neg, hm.freeNode d n ha hn]
    rintro ⟨rfl, -⟩
    exact ha.elim (fun h => hflags (hp.nodeFlags n h)) (fun h => h hrange)

theorem Pairs.setMember (hp : s.Pairs) (dcid nodeid : ℤ) (b : Bool) :
    (s.setMember dcid nodeid b).Pairs :=
  hp.of_eq rfl rfl fun n => setMember_node dcid nodeid n b

theorem addNode_keeps (hp : s.Pairs) (hm : s.Members) (dcid nodeid : ℤ) :
    (s.addNode dcid nodeid).1.Pairs ∧ (s.addNode dcid nodeid).1.Members := by
  unfold addNode
  split_ifs with hc <;> first | exact ⟨hp, hm⟩ | skip
  exact ⟨hp.setMember .., hm.setMember hp (not_not.mp hc) true⟩

theorem delNode_keeps (hp : s.Pairs) (hm : s.Members) (dcid nodeid : ℤ) :
    (s.delNode dcid nodeid).1.Pairs ∧ (s.delNode dcid nodeid).1.Members := by
  unfold delNode
  split_ifs with hc <;> first | exact ⟨hp, hm⟩ | skip
  exact ⟨hp.setMember .., hm.setMember hp (not_not.mp hc) false⟩

/-! ### DCs -/

theorem dcRelease_node (d n : ℤ) :
    ((s.dcRelease d).node n).flags = (s.node n).flags ∧
      ((s.dcRelease d).node n).proxies = (s.node n).proxies := by
  simp only [dcRelease]
  split_ifs <;> exact ⟨rfl, rfl⟩

theorem dcRelease_dcs_of_ne {d d' : ℤ} (n : ℤ) (h : d' ≠ d) :
    ((s.dcRelease d).node n).dcs d' = (s.node n).dcs d' := by
  simp only [dcRelease]
  split_ifs
  · exact Function.update_of_ne h ..
  · rfl

theorem dcRelease_dc (d d' : ℤ) :
    (s.dcRelease d).dc d' =
      if d' = d then { s.dc d with nodes := fun _ => false, free := true } else s.dc d' :=
  Function.update_apply ..

theorem Pairs.dcRelease (hp : s.Pairs) (d : ℤ) : (s.dcRelease d).Pairs :=
  hp.of_eq rfl rfl fun n => dcRelease_node d n

theorem Members.dcRelease (hm : s.Members) (d : ℤ) : (s.dcRelease d).Members := by
  have hne : ∀ d', ((s.dcRelease d).dc d').free = false →
      d' ≠ d ∧ (s.dcRelease d).dc d' = s.dc d' := by
    intro d' h
    rw [dcRelease_dc] at h ⊢
    split_ifs at h ⊢ with hd
    exact ⟨hd, rfl⟩
  refine ⟨?_, ?_, ?_, ?_⟩
  · intro d' h
    rw [(hne d' h).2] at h
    exact hm.running d' h
  · intro d' n h
    obtain ⟨hd, heq⟩ := hne d' h
    rw [heq] at h ⊢
    rw [dcRelease_dcs_of_ne n hd, hm.member d' n h]
  · intro d' n h hn
    by_cases hd : d' = d
    · subst hd
      simp only [Dvs.dcRelease]
      split_ifs with hc
      · exact Function.update_self ..
      · refine hm.freeNode d' n ?_ hn
        -- a node that is left out is out of range or free
        rcases not_and_or.mp hc with hr | hf
        · exact .inr hr
        · exact .inl (by rw [not_not.mp hf])
    · rw [dcRelease_dc, if_neg hd] at h
      rw [dcRelease_dcs_of_ne n hd, hm.freeDc d' n h hn]
  · intro d' n ha hn
    rw [(dcRelease_node d n).1] at ha
    have hold := hm.freeNode d' n ha hn
    simp only [Dvs.dcRelease]
    split_ifs
    · exact (Function.update_apply ..).trans (by rw [hold, ite_self])
    · exact hold

theorem dcStart_node (dcid nrNodes : ℤ) (name : String) (n : ℤ) :
    ((s.dcStart dcid nrNodes name).node n).flags = (s.node n).flags ∧
      ((s.dcStart dcid nrNodes name).node n).proxies = (s.node n).proxies := by
  simp only [dcStart, modNode_node]
  split_ifs with h
  · subst h
    exact ⟨rfl, rfl⟩
  · exact ⟨rfl, rfl⟩

theorem dcStart_dcs (dcid nrNodes : ℤ) (name : String) (d n : ℤ) :
    ((s.dcStart dcid nrNodes name).node n).dcs d =
      if n = s.localNodeid ∧ d = dcid then true else (s.node n).dcs d := by
  simp only [dcStart, modNode_node, modDc_node]
  by_cases h : n = s.localNodeid
  · subst h
    simp [Function.update_apply]
  · simp [h]

theorem dcStart_dc (dcid nrNodes : ℤ) (name : String) (d : ℤ) :
    (s.dcStart dcid nrNodes name).dc d =
      if d = dcid then
        { free := false, name := name, nrNodes := nrNodes, nodes := (· = s.localNodeid) }
      else s.dc d := by
  simp only [dcStart, modNode_dc, modDc_dc]

theorem Pairs.dcStart (hp : s.Pairs) (dcid nrNodes : ℤ) (name : String) :
    (s.dcStart dcid nrNodes name).Pairs :=
  hp.of_eq rfl rfl fun n => dcStart_node dcid nrNodes name n

/-- A free DC has a bit in no node but the local one, so that it starts with that node only. -/
theorem Members.dcStart (hm : s.Members) (hr : s.DcRange dcid) (hfree : (s.dc dcid).free = true)
    (nrNodes : ℤ) (name : String) : (s.dcStart dcid nrNodes name).Members := by
  refine ⟨?_, ?_, ?_, ?_⟩
  · intro d h
    rw [dcStart_dc] at h
    split_ifs at h with hd
    · exact hd ▸ hr
    · exact hm.running d h
  · intro d n h
    rw [dcStart_dc] at h ⊢
    rw [dcStart_dcs]
    split_ifs at h ⊢ with hd hn hn
    · simp [hn.1]
    · subst hd
      have hnl : n ≠ s.localNodeid := fun h => hn ⟨h, rfl⟩
      simpa [hnl] using (hm.freeDc d n hfree hnl).symm
    · exact absurd hn.2 hd
    · exact hm.member d n h
  · intro d n h hn
    rw [dcStart_dc] at h
    rw [dcStart_dcs, if_neg (fun hc => hn hc.1)]
    split_ifs at h
    exact hm.freeDc d n h hn
  · intro d n ha hn
    rw [(dcStart_node dcid nrNodes name n).1] at ha
    rw [dcStart_dcs, if_neg (fun hc => hn hc.1)]
    exact hm.freeNode d n ha hn

theorem free_of_not_taken {name : String} (hr : s.DcRange dcid) (h : ¬ s.dcTaken dcid name) :
    (s.dc dcid).free = true := by
  obtain ⟨i, rfl⟩ := Int.eq_ofNat_of_zero_le hr.1
  by_contra hf
  exact h ⟨i, List.mem_range.mpr (Int.ofNat_lt.mp hr.2), by simpa using hf, .inr rfl⟩

theorem dcInit_keeps (hp : s.Pairs) (hm : s.Members) (hr : s.DcRange dcid) (nrNodes : ℤ)
    (name : String) (fail : Option DcInitFail) :
    (s.dcInit dcid nrNodes name fail).1.Pairs ∧ (s.dcInit dcid nrNodes name fail).1.Members := by
  unfold dcInit
  split_ifs with hname htaken
  · exact ⟨hp, hm⟩
  · exact ⟨hp, hm⟩
  · have hp' := hp.dcStart dcid nrNodes name
    have hm' := hm.dcStart hr (free_of_not_taken hr htaken) nrNodes name
    cases fail with
    | none => exact ⟨hp', hm'⟩
    | some f =>
      cases f with
      | memory => exact ⟨hp', hm'⟩
      | entries => exact ⟨hp'.dcRelease dcid, hm'.dcRelease dcid⟩

theorem dcEnd_keeps (hp : s.Pairs) (hm : s.Members) (dcid : ℤ) (last : Bool) :
    (s.dcEnd dcid last).1.Pairs ∧ (s.dcEnd dcid last).1.Members := by
  unfold dcEnd
  split_ifs <;> first | exact ⟨hp, hm⟩ | exact ⟨hp.dcRelease dcid, hm.dcRelease dcid⟩

/-! ### Nodes and proxies -/

theorem nodeEnd_node (i n : ℤ) : (s.nodeEnd i).node n = if n = i then {} else s.node n :=
  Function.update_apply ..

theorem Members.nodeEnd (hm : s.Members) (i : ℤ) : (s.nodeEnd i).Members := by
  have hfree : ∀ d, ((s.nodeEnd i).dc d).free = (s.dc d).free := by
    intro d
    simp only [Dvs.nodeEnd]
    split_ifs <;> rfl
  refine ⟨?_, ?_, ?_, ?_⟩
  · intro d h
    exact hm.running d (hfree d ▸ h)
  · intro d n h
    rw [hfree] at h
    rw [nodeEnd_node]
    simp only [Dvs.nodeEnd, hm.running d h, h, and_self, if_true, Function.update_apply]
    split_ifs
    · rfl
    · exact hm.member d n h
  · intro d n h hn
    rw [nodeEnd_node]
    split_ifs
    · rfl
    · exact hm.freeDc d n (hfree d ▸ h) hn
  · intro d n ha hn
    rw [nodeEnd_node] at ha ⊢
    split_ifs at ha ⊢
    · rfl
    · exact hm.freeNode d n ha hn

theorem Pairs.detach (hp : s.Pairs) (hr : t.nrNodes = s.nrNodes)
    (hn : ∀ n, t.node n = if n = i then {} else s.node n)
    (hflags : ∀ p, (t.px p).flags = (s.px p).flags)
    (hmap : ∀ p side n, p ≠ noProxies → (((t.px p).proxy side).nodemap n = true ↔
      n ≠ i ∧ ((s.px p).proxy side).nodemap n = true)) : t.Pairs := by
  -- what is asked of a node that has a pair is vacuous for the one that is cleared
  have hold : ∀ n, (t.node n).proxies ≠ noProxies → t.node n = s.node n := by
    intro n h
    rw [hn] at h ⊢
    split_ifs at h ⊢
    · exact absurd rfl h
    · rfl
  refine ⟨?_, ?_, ?_, ?_, ?_, ?_⟩
  · intro p n side hne
    rw [hmap p side n hne, hp.map p n side hne, hn]
    split_ifs with h
    · simp [h, Ne.symm hne]
    · simp [h]
  · intro n h
    have heq := hold n h
    rw [heq] at h ⊢
    exact hp.attached n h
  · intro n h
    rw [hold n h] at h
    rw [NodeRange, hr]
    exact hp.range n h
  · intro n h
    have heq := hold n h
    rw [heq] at h ⊢
    rw [hflags]
    exact hp.inuse n h
  · intro n h
    rw [hn] at h ⊢
    split_ifs at h ⊢
    · rfl
    · exact hp.nodeFlags n h
  · intro p h
    rw [hflags] at h ⊢
    exact hp.pxFlags p h

theorem nodeEnd_keeps (hp : s.Pairs) (hm : s.Members) (hi : (s.node i).proxies = noProxies) :
    (s.nodeEnd i).Pairs ∧ (s.nodeEnd i).Members := by
  refine ⟨hp.detach rfl (nodeEnd_node i) (fun _ => rfl) ?_, hm.nodeEnd i⟩
  intro p side n hne
  refine ⟨fun h => ⟨?_, h⟩, And.right⟩
  rintro rfl
  exact hne (((hp.map p n side hne).mp h).symm.trans hi)

@[simp] theorem setMaps_flags (x : Proxies) (i : ℤ) (b : Bool) : (x.setMaps i b).flags = x.flags :=
  rfl

theorem setMaps_nodemap (x : Proxies) (i n : ℤ) (b : Bool) (side : Side) :
    ((x.setMaps i b).proxy side).nodemap n = if n = i then b else (x.proxy side).nodemap n := by
  cases side <;> exact Function.update_apply ..

theorem lockProxies_eq_ok (h : s.lockProxies p = EMol.ok) :
    s.NodeRange p ∧ (s.px p).flags ≠ {} := by
  unfold lockProxies at h
  split_ifs at h with h1 h2 <;> first | exact absurd h (by decide) | skip
  exact ⟨h1, h2⟩

theorem Pairs.inuse_of_lock (hp : s.Pairs) (h : s.lockProxies p = EMol.ok) :
    (s.px p).flags.inuse = true := by
  by_contra hf
  exact (lockProxies_eq_ok h).2 (hp.pxFlags p (by simpa using hf))

theorem nodeUp_keeps (hp : s.Pairs) (hm : s.Members)
    (ho : (s.node nodeid).proxies = noProxies ∨ (s.node nodeid).proxies = p) :
    (s.nodeUp nodeid p).1.Pairs ∧ (s.nodeUp nodeid p).1.Members := by
  unfold nodeUp
  split_ifs with hr hl <;> first | exact ⟨hp, hm⟩ | skip
  have hne := ne_noProxies_of_range (lockProxies_eq_ok (not_not.mp hl)).1
  constructor
  · refine ⟨?_, ?_, ?_, ?_, ?_, ?_⟩
    · intro q n side hq
      have hold := hp.map q n side hq
      simp only [modNode_node, modNode_px, modPx_px, modPx_node]
      by_cases hqp : q = p <;> by_cases hn : n = nodeid
      · simp [hqp, hn, setMaps_nodemap]
      · simpa [hqp, hn, setMaps_nodemap] using hqp ▸ hold
      · subst hn
        simp only [if_neg hqp, if_true, hold]
        rcases ho with ho | ho <;> simp [ho, Ne.symm hqp, Ne.symm hq]
      · simpa [hqp, hn] using hold
    · intro n h
      simp only [modNode_node, modPx_node] at h ⊢
      split_ifs at h ⊢
      · rfl
      · exact hp.attached n h
    · intro n h
      simp only [modNode_node, modPx_node] at h
      split_ifs at h with hn
      · rw [hn]
        exact hr
      · exact hp.range n h
    · intro n h
      have hin := hp.inuse_of_lock (not_not.mp hl)
      simp only [modNode_node, modNode_px, modPx_px, modPx_node] at h ⊢
      split_ifs at h ⊢ with hn hq hq
      · exact hin
      · exact absurd rfl hq
      · exact hin
      · exact hp.inuse n h
    · intro n h
      simp only [modNode_node, modPx_node] at h ⊢
      split_ifs at h ⊢
      exact hp.nodeFlags n h
    · intro q h
      simp only [modNode_px, modPx_px] at h ⊢
      split_ifs at h ⊢
      · exact hp.pxFlags p h
      · exact hp.pxFlags q h
  · refine hm.of_eq rfl rfl rfl rfl fun n => ?_
    simp only [modNode_node, modPx_node]
    split_ifs with h
    · subst h
      exact ⟨rfl, (fun h => by cases h)⟩
    · exact ⟨rfl, id⟩

theorem nodeDown_eq (hp : s.Pairs) (nodeid : ℤ) : (s.nodeDown nodeid).1 = s := by
  simp only [nodeDown]
  split_ifs with hr hl hmap <;> first | rfl | skip
  have hne := ne_noProxies_of_range (lockProxies_eq_ok (not_not.mp hl)).1
  exact absurd ((hp.map _ nodeid .sender hne).mpr rfl) hmap

theorem Pairs.modPx_unused (hp : s.Pairs) {f : Proxies → Proxies}
    (hun : ∀ n, (s.node n).proxies ≠ p)
    (hmap : ∀ side n, ((f (s.px p)).proxy side).nodemap n = false)
    (hflags : (f (s.px p)).flags.inuse = false → (f (s.px p)).flags = {}) :
    (s.modPx p f).Pairs := by
  refine ⟨?_, hp.attached, hp.range, ?_, hp.nodeFlags, ?_⟩
  · intro q n side hq
    rw [modPx_px, modPx_node]
    split_ifs with h
    · subst h
      simp [hmap, hun]
    · exact hp.map q n side hq
  · intro n h
    rw [modPx_node] at h ⊢
    rw [modPx_px, if_neg (hun n)]
    exact hp.inuse n h
  · intro q h
    rw [modPx_px] at h ⊢
    split_ifs at h ⊢
    · exact hflags h
    · exact hp.pxFlags q h

theorem Members.modPx (hm : s.Members) (p : ℤ) (f : Proxies → Proxies) : (s.modPx p f).Members :=
  hm.of_eq rfl rfl rfl rfl fun _ => ⟨rfl, id⟩

theorem proxiesBind_keeps (hp : s.Pairs) (hm : s.Members) (p spid rpid maxbytes : ℤ)
    (found : Bool) :
    (s.proxiesBind p spid rpid maxbytes found).1.Pairs ∧
      (s.proxiesBind p spid rpid maxbytes found).1.Members := by
  unfold proxiesBind
  split_ifs with hr hf hfree hmax <;> first | exact ⟨hp, hm⟩ | skip
  dsimp only
  refine ⟨hp.modPx_unused ?_ ?_ ?_, hm.modPx p _⟩
  · rintro n rfl
    have hin := hp.inuse n (ne_noProxies_of_range hr)
    simp [not_not.mp hfree] at hin
  · intro side n
    cases side <;> rfl
  · intro h
    cases h

@[simp] theorem Side.setConnected_attached (side : Side) (b : Bool) (f : NodeFlags) :
    (side.setConnected b f).attached = f.attached := by
  cases side <;> rfl

@[simp] theorem Side.setPx_inuse (side : Side) (b : Bool) (f : PxFlags) :
    (side.setPx b f).inuse = f.inuse := by
  cases side <;> rfl

theorem modProxy_nodemap (x : Proxies) (side a : Side) (hf : ∀ q, (f q).nodemap = q.nodemap) :
    ((x.modProxy side f).proxy a).nodemap = (x.proxy a).nodemap := by
  cases side <;> cases a <;> first | rfl | exact hf _

@[simp] theorem modProxy_flags (x : Proxies) (side : Side) (f : Proc → Proc) :
    (x.modProxy side f).flags = x.flags := by
  cases side <;> rfl

theorem proxyConn_keeps (hp : s.Pairs) (hm : s.Members) (p : ℤ) (side : Side) (b : Bool) :
    (s.proxyConn p side b).1.Pairs ∧ (s.proxyConn p side b).1.Members := by
  unfold proxyConn
  split_ifs with hl hrts <;> first | exact ⟨hp, hm⟩ | skip
  have hne := ne_noProxies_of_range (lockProxies_eq_ok (not_not.mp hl)).1
  have hin := hp.inuse_of_lock (not_not.mp hl)
  generalize hmap : ((s.px p).proxy side).nodemap = map
  have hpair : ∀ n, map n = true → (s.node n).proxies = p := by
    intro n h
    exact (hp.map p n side hne).mp (hmap ▸ h)
  simp only [modPx_node]
  constructor
  · refine ⟨?_, ?_, ?_, ?_, ?_, ?_⟩
    · intro q n a hq
      have hold := hp.map q n a hq
      have hproxies : ∀ c : Prop, ∀ _ : Decidable c, (if c then
          { s.node n with flags := side.setConnected b (s.node n).flags } else s.node n).proxies =
          (s.node n).proxies := by
        intro c _
        split_ifs <;> rfl
      simp only [modPx_px, hproxies]
      split_ifs with hqp
      · subst hqp
        rw [modProxy_nodemap _ _ _ (by exact fun _ => rfl)]
        exact hold
      · exact hold
    · intro n h
      simp only at h ⊢
      split_ifs at h ⊢
      · simpa using hp.attached n h
      · exact hp.attached n h
    · intro n h
      simp only at h
      split_ifs at h <;> exact hp.range n h
    · intro n h
      have hold := hp.inuse n
      simp only [modPx_px] at h ⊢
      split_ifs at h ⊢ <;> first | simpa using hin | exact hold h
    · intro n h
      simp only at h ⊢
      split_ifs at h ⊢ with hc
      · simp [Side.setConnected_attached, hp.attached n ((hpair n hc.2).trans_ne hne)] at h
      · exact hp.nodeFlags n h
    · intro q h
      simp only [modPx_px] at h ⊢
      split_ifs at h ⊢
      · simp [hin] at h
      · exact hp.pxFlags q h
  · refine hm.of_eq rfl rfl rfl rfl fun n => ?_
    simp only
    split_ifs
    · exact ⟨rfl, by simp⟩
    · exact ⟨rfl, id⟩

/-! ### The end of a pair -/

/-- The other proxy is connected to none of the nodes of the pair. -/
def Quiet (s : Dvs) (p : ℤ) (side : Side) : Prop :=
  ∀ i ∈ s.nodes, ((s.px p).proxy side).nodemap i = true →
    side.other.connected (s.node i).flags = false

instance (p : ℤ) (side : Side) : Decidable (s.Quiet p side) := by unfold Quiet; infer_instance

theorem unbindNode_eq (hi : ((s.px p).proxy side).nodemap i = true)
    (hq : side.other.connected (s.node i).flags = false) :
    unbindNode p side s i = (s.modPx p (·.setMaps i false)).nodeEnd i := by
  have hflags : side.other.connected (side.setConnected false (s.node i).flags) = false := by
    cases side <;> exact hq
  simp only [unbindNode, hi, if_true, modNode_node, modPx_node, hflags, Bool.false_eq_true, if_false]
  simp only [nodeEnd, modNode, Function.update_idem]
  rfl

theorem unbindNode_of_not_mem (hi : ((s.px p).proxy side).nodemap i ≠ true) :
    unbindNode p side s i = s := by
  simp [unbindNode, hi]

/-- Both relations hold, and the other proxy is connected to no node that is left in the map. -/
structure Unbinding (p : ℤ) (side : Side) (s : Dvs) : Prop where
  pairs : s.Pairs
  members : s.Members
  quiet (i : ℤ) : ((s.px p).proxy side).nodemap i = true →
    side.other.connected (s.node i).flags = false

section Loop

variable {p : ℤ} {side : Side}

theorem Unbinding.node (h : Unbinding p side s) (hp : p ≠ noProxies) (i : ℤ) :
    Unbinding p side (unbindNode p side s i) ∧
      ∀ n, ((((unbindNode p side s i)).px p).proxy side).nodemap n = true →
        n ≠ i ∧ ((s.px p).proxy side).nodemap n = true := by
  by_cases hi : ((s.px p).proxy side).nodemap i = true
  · rw [unbindNode_eq hi (h.quiet i hi)]
    have hmap : ∀ n a, ((((s.modPx p (·.setMaps i false)).nodeEnd i).px p).proxy a).nodemap n =
        true ↔ n ≠ i ∧ ((s.px p).proxy a).nodemap n = true := by
      intro n a
      show ((((s.modPx p (·.setMaps i false))).px p).proxy a).nodemap n = true ↔ _
      rw [modPx_px, if_pos rfl, setMaps_nodemap]
      split_ifs with hn <;> simp [hn]
    refine ⟨⟨?_, (h.members.modPx p _).nodeEnd i, ?_⟩, fun n => (hmap n side).mp⟩
    · refine h.pairs.detach rfl (nodeEnd_node i) ?_ ?_
      · intro q
        show ((s.modPx p (·.setMaps i false)).px q).flags = (s.px q).flags
        rw [modPx_px]
        split_ifs with hq
        · rw [hq, setMaps_flags]
        · rfl
      · intro q a n hq
        by_cases hqp : q = p
        · subst hqp
          exact hmap n a
        · -- the node is in no map but those of its own pair
          show (((s.modPx p (·.setMaps i false)).px q).proxy a).nodemap n = true ↔ _
          rw [modPx_px, if_neg hqp]
          refine ⟨fun hn => ⟨?_, hn⟩, And.right⟩
          rintro rfl
          have hpn := (h.pairs.map p n side hp).mp hi
          exact hqp (((h.pairs.map q n a hq).mp hn).symm.trans hpn)
    · intro n hn
      obtain ⟨hne, hn⟩ := (hmap n side).mp hn
      rw [nodeEnd_node, if_neg hne]
      exact h.quiet n hn
  · rw [unbindNode_of_not_mem hi]
    refine ⟨h, fun n hn => ⟨?_, hn⟩⟩
    rintro rfl
    exact hi hn

theorem Unbinding.loop (hp : p ≠ noProxies) (is : List ℤ) :
    ∀ s, Unbinding p side s → Unbinding p side (is.foldl (unbindNode p side) s) ∧
      ∀ n, (((is.foldl (unbindNode p side) s).px p).proxy side).nodemap n = true →
        n ∉ is ∧ ((s.px p).proxy side).nodemap n = true := by
  induction is with
  | nil => exact fun s h => ⟨h, fun n hn => ⟨List.not_mem_nil, hn⟩⟩
  | cons i is ih =>
    intro s h
    obtain ⟨hi, hmap⟩ := h.node hp i
    obtain ⟨hall, hrest⟩ := ih _ hi
    refine ⟨hall, fun n hn => ?_⟩
    obtain ⟨hni, hn'⟩ := hrest n hn
    obtain ⟨hne, hs⟩ := hmap n hn'
    exact ⟨fun hmem => (List.mem_cons.mp hmem).elim hne hni, hs⟩

theorem mem_nodes (h : s.NodeRange n) : n ∈ s.nodes := by
  obtain ⟨i, rfl⟩ := Int.eq_ofNat_of_zero_le h.1
  exact List.mem_map.mpr ⟨i, List.mem_range.mpr (Int.ofNat_lt.mp h.2), rfl⟩

theorem Pairs.map_empty (hp : s.Pairs) (hne : p ≠ noProxies) (hun : ∀ n, (s.node n).proxies ≠ p)
    (a : Side) (n : ℤ) : ((s.px p).proxy a).nodemap n = false := by
  simpa [hun n] using hp.map p n a hne

theorem Pairs.modProxy_unused (hp : s.Pairs) (hne : p ≠ noProxies)
    (hun : ∀ n, (s.node n).proxies ≠ p) (hf : ∀ q n, (f q).nodemap n = true → q.nodemap n = true) :
    (s.modPx p (·.modProxy side f)).Pairs := by
  refine hp.modPx_unused hun ?_ ?_
  · intro a n
    by_contra hc
    rw [Bool.not_eq_false] at hc
    have hold : ((s.px p).proxy a).nodemap n = true := by
      cases side <;> cases a <;> first | exact hc | exact hf _ n hc
    simp [hp.map_empty hne hun a n] at hold
  · rw [modProxy_flags]
    exact hp.pxFlags p

theorem proxiesUnbind_keeps (hp : s.Pairs) (hm : s.Members) (hq : s.Quiet p side) :
    (s.proxiesUnbind p side).Pairs ∧ (s.proxiesUnbind p side).Members := by
  unfold proxiesUnbind
  split_ifs with hl
  · exact ⟨hp, hm⟩
  have hne := ne_noProxies_of_range (lockProxies_eq_ok (not_not.mp hl)).1
  have hmem : ∀ n, ((s.px p).proxy side).nodemap n = true → n ∈ s.nodes := by
    intro n hn
    have hpn := (hp.map p n side hne).mp hn
    exact mem_nodes (hp.range n (hpn.trans_ne hne))
  obtain ⟨hu, hrest⟩ := Unbinding.loop hne s.nodes s ⟨hp, hm, fun i hi => hq i (hmem i hi) hi⟩
  generalize s.nodes.foldl (unbindNode p side) s = u at hu hrest
  have hun : ∀ n, (u.node n).proxies ≠ p := by
    intro n hn
    obtain ⟨hout, hin⟩ := hrest n ((hu.pairs.map p n side hne).mpr hn)
    exact hout (hmem n hin)
  have hp1 : (u.modPx p (·.modProxy side (·.initDesc (-1)))).Pairs := by
    refine hu.pairs.modProxy_unused hne hun ?_
    exact fun q n hn => by cases hn
  have hm1 := hu.members.modPx p (·.modProxy side (·.initDesc (-1)))
  dsimp only
  split_ifs with ho
  · refine ⟨hp1.modProxy_unused hne hun ?_, hm1.modPx p _⟩
    intro q n hn
    split_ifs at hn
    · exact hn
    · exact hn
  · refine ⟨hp1.modPx_unused hun ?_ (fun _ => rfl), hm1.modPx p _⟩
    intro a n
    cases a
    · exact hp1.map_empty hne hun .sender n
    · exact hp1.map_empty hne hun .receiver n

end Loop

/-! ### Runs -/

/-- A DC has an identifier in range, a node that comes up has no other pair, a pair ends when the
other proxy is connected to none of its nodes, and a node is ended by itself when it has no pair. -/
def Careful (s : Dvs) : AdminOp → Prop
  | .dcInit dcid _ _ _ => s.DcRange dcid
  | .nodeUp nodeid p => (s.node nodeid).proxies = noProxies ∨ (s.node nodeid).proxies = p
  | .nodeEnd nodeid => (s.node nodeid).proxies = noProxies
  | .proxiesUnbind p side => s.Quiet p side
  | _ => True

instance (s : Dvs) (a : AdminOp) : Decidable (s.Careful a) := by
  cases a <;> unfold Careful <;> infer_instance

theorem step_keeps (hp : s.Pairs) (hm : s.Members) {a : AdminOp} (ha : s.Careful a)
    (h : s.step a = some t) : t.Pairs ∧ t.Members := by
  cases a <;> obtain rfl := Option.some.inj h
  case addNode => exact addNode_keeps hp hm _ _
  case delNode => exact delNode_keeps hp hm _ _
  case dcInit => exact dcInit_keeps hp hm ha _ _ _
  case dcEnd => exact dcEnd_keeps hp hm _ _
  case nodeUp => exact nodeUp_keeps hp hm ha
  case nodeDown nodeid =>
    rw [nodeDown_eq hp nodeid]
    exact ⟨hp, hm⟩
  case nodeEnd => exact nodeEnd_keeps hp hm ha
  case proxiesBind => exact proxiesBind_keeps hp hm _ _ _ _ _
  case proxyConn => exact proxyConn_keeps hp hm _ _ _
  case proxiesUnbind => exact proxiesUnbind_keeps hp hm ha

/-- **In every run of careful calls both relations agree in every state**, and no node is in the
maps of two pairs. -/
theorem symmetric_of_careful {l : ℤ} {nn nd : ℕ}
    (h : Reach.Reachable step Careful (init l nn nd) s) :
    s.Symmetric ∧ ∀ n p q a b, s.NodeRange n → s.NodeRange p → s.NodeRange q →
      ((s.px p).proxy a).nodemap n = true → ((s.px q).proxy b).nodemap n = true → p = q := by
  have hinv : s.Pairs ∧ s.Members :=
    h.invariant (I := fun s => s.Pairs ∧ s.Members) ⟨pairs_init l nn nd, members_init l nn nd⟩
      fun _ _ _ hs ha ht => step_keeps hs.1 hs.2 ha ht
  have hsym := symmetric_of_invariants hinv.1 hinv.2
  exact ⟨hsym, fun _ _ _ _ _ hn hp hq hpn hqn => hsym.one_pair hn hp hq hpn hqn⟩

/-- A node of a DC, attached through a pair of proxies. -/
theorem node_of_dc_symmetric :
    ∃ s, (Reach.Reachable step Careful (init 0 4 4) s ∧
      ((s.dc 0).nodes 1 && ((s.px 2).proxy .sender).nodemap 1) = true) ∧ s.Symmetric := by
  obtain ⟨s, hs, ht⟩ := Reach.exists_reachable_of_exec step Careful (init 0 4 4)
    (fun s => (s.dc 0).nodes 1 && ((s.px 2).proxy .sender).nodemap 1)
    [.proxiesBind 2 100 101 4096 true, .nodeUp 1 2, .dcInit 0 4 "DC0" none, .addNode 0 1]
    (by decide)
  exact ⟨s, ⟨hs, ht⟩, (symmetric_of_careful hs).1⟩

/-- A node that comes up on a second pair stays in the maps of the first one. -/
theorem node_up_twice :
    ∃ s, Reach.Reachable step (fun _ _ => True) (init 0 4 4) s ∧
      (((s.px 0).proxy .sender).nodemap 1 = true ∧ ((s.px 1).proxy .sender).nodemap 1 = true) ∧
      ¬ s.Symmetric := by
  obtain ⟨s, hs, ht⟩ := Reach.exists_reachable_of_exec step (fun _ _ => True) (init 0 4 4)
    (fun s => decide (s.nrNodes = 4) && ((s.px 0).proxy .sender).nodemap 1 &&
      ((s.px 1).proxy .sender).nodemap 1)
    [.proxiesBind 0 100 101 4096 true, .proxiesBind 1 102 103 4096 true, .nodeUp 1 0, .nodeUp 1 1]
    (by decide)
  simp only [Bool.and_eq_true, decide_eq_true_eq] at ht
  obtain ⟨⟨hr, h0⟩, h1⟩ := ht
  refine ⟨s, hs, ⟨h0, h1⟩, fun hsym => ?_⟩
  have hrange : ∀ i : ℤ, 0 ≤ i → i < 4 → s.NodeRange i := by
    intro i hi hi'
    exact ⟨hi, by rw [hr]; exact hi'⟩
  have h := hsym.one_pair (hrange 1 (by decide) (by decide)) (hrange 0 (by decide) (by decide))
    (hrange 1 (by decide) (by decide)) h0 h1
  exact absurd h (by decide)

end Dvs

end MolIpc
