import MolIpc.Slots.Net

/-!
Groups in which the nodes join one at a time. Between two joins all the live members know the same
initialized members and the same primary; while a node joins, the others know that it waits for its
status, which is the only message in flight. As long as that is so, no assertion of the handlers
fails.
-/

namespace MolIpc

namespace Slots

open Groups Reach

variable {r : Node × List Msg} {l : Call}

namespace Node

/-- An initialized node that knows the initialized members, those that wait for their status, and
the primary. -/
structure Knows (ini wait : Finset ℕ) (p : ℕ) (n : Node) : Prop where
  initialized : n.fsm.isInitialized = true
  merging : n.fsm.merging = false
  init : n.bmInit = ini
  waitsts : n.bmWaitsts = wait
  primary : n.primaryMbr = some p
  count : n.initNodes = ini.card

structure Waits (n : Node) : Prop where
  fsm : n.fsm = .waitStatus
  init : n.bmInit = ∅
  waitsts : n.bmWaitsts = {n.localNodeid}
  primary : n.primaryMbr = none
  systask : n.systask = .asleep
  owner : ∀ i, (n.slot i).owner = none

/-- A message that the members can take: a request, or a donation for another member. -/
inductive Takes (ini : Finset ℕ) (j : ℕ) : Msg → Prop
  | request (q : ℤ) : Takes ini j (.reqSlots q)
  | donation {dst : ℕ} (nr : ℤ) (ia : List ℕ) (hd : dst ∈ ini) (hne : dst ≠ j) :
      Takes ini j (.donSlots dst nr ia)

section Handlers

variable {c : Conf} {n n' : Node} {e : Env} {ini wait members : Finset ℕ} {p b i k : ℕ}
  {msg : Msg}

theorem handle_alive (hl : n.life = .alive) (v : Event) :
    n.handle c e v = match v with
      | .join mbr members => (n.setView members).spJoin c mbr
      | .disconnect mbr members => (n.setView members).spDisconnect c e mbr
      | .network members => n.networkChange c e members
      | .message source msg => n.onMessage c e source msg :=
  if_neg (by simp [hl])

theorem Knows.congr (h : Knows ini wait p n) (hs : SameMem n n') : Knows ini wait p n' :=
  ⟨hs.initialized h.initialized, hs.merging h.merging, hs.init.trans h.init,
    hs.waitsts.trans h.waitsts, hs.primary.trans h.primary, hs.count.trans h.count⟩

theorem Knows.setView (h : Knows ini wait p n) (members : Finset ℕ) :
    Knows ini wait p (n.setView members) :=
  ⟨h.initialized, h.merging, h.init, h.waitsts, h.primary, h.count⟩

theorem Waits.setView (h : Waits n) (members : Finset ℕ) : Waits (n.setView members) :=
  ⟨h.fsm, h.init, h.waitsts, h.primary, h.systask, h.owner⟩

theorem Knows.localStep (h : Knows ini wait p n) (hs : LocalStep c n n') : Knows ini wait p n' :=
  ⟨hs.fsm ▸ h.initialized, hs.fsm ▸ h.merging, hs.init.trans h.init,
    hs.waitsts.trans h.waitsts, hs.primary.trans h.primary, hs.count.trans h.count⟩

theorem Knows.ne_waitStatus (h : Knows ini wait p n) : n.fsm ≠ .waitStatus := by
  intro hw
  exact absurd h.initialized (by rw [hw]; decide)

/-! ### Requests and donations -/

theorem Knows.spReqSlots (h : Knows ini wait p n) (hself : n.localNodeid ∈ ini) (hi : i ∈ ini)
    (hl : n.life = .alive) (q : ℤ) :
    Knows ini wait p (n.spReqSlots c i q).1 ∧ (n.spReqSlots c i q).1.life = .alive ∧
    ∀ msg ∈ (n.spReqSlots c i q).2, Takes ini n.localNodeid msg := by
  refine ⟨h.congr (.spReqSlots _ _ _), (life_spReqSlots fun hne => ?_).trans hl, fun msg hm => ?_⟩
  · have hcard := Finset.one_lt_card.2 ⟨i, hi, n.localNodeid, hself, hne⟩
    rw [h.init, h.count]
    exact ⟨hi, by omega⟩
  · obtain ⟨hne, nr, ia, rfl⟩ := mem_spReqSlots hm
    exact .donation nr ia hi hne

theorem Knows.onMessage (h : Knows ini ∅ p n) (hself : n.localNodeid ∈ ini) (hi : i ∈ ini)
    (hl : n.life = .alive) (hm : Takes ini i msg) :
    Knows ini ∅ p (n.onMessage c e i msg).1 ∧ (n.onMessage c e i msg).1.life ≠ .aborted ∧
    ∀ msg' ∈ (n.onMessage c e i msg).2, Takes ini n.localNodeid msg' := by
  cases hm with
  | request q =>
    obtain ⟨h1, h2, h3⟩ := h.spReqSlots (c := c) hself hi hl q
    exact ⟨h1, fun ha => by simp [Node.onMessage, h2] at ha, h3⟩
  | donation nr ia hd hne =>
    refine ⟨h.congr (.spDonSlots _ _ _ _ _ _), ?_, fun msg' hm' => ?_⟩
    · exact life_spDonSlots (h.init ▸ hd) (h.init ▸ hi) h.initialized hl
    · rcases mem_spDonSlots hm' with ⟨rfl, -⟩ | ⟨hne', rfl⟩
      · exact .request _
      · exact .donation _ _ hd hne'

/-! ### Steps of SYSTASK -/

theorem Knows.call (h : Knows ini wait p n) (hr : n.call c l = some r) :
    Knows ini wait p r.1 ∧ r.1.life ≠ .aborted ∧ r.1.localNodeid = n.localNodeid ∧
    r.1.fsm = n.fsm ∧ r.1.ownedSlots = n.ownedSlots ∧
    ∀ msg ∈ r.2, wait = ∅ ∧ ∃ q, msg = .reqSlots q := by
  have hlife : n.life = .alive := alive_of_call hr
  rcases call_cases hr with ⟨hs, hm⟩ | ⟨-, m, q, hs, hs', hm⟩
  · refine ⟨h.localStep hs, ?_, hs.id, hs.fsm, hs.owned, by simp [hm]⟩
    rcases hs.life with h1 | h1 <;> simp [h1, hlife]
  · have hk := h.localStep hs
    have hq := SameMem.mcastRqstSlots m q
    refine ⟨(hk.congr hq).localStep hs', ?_, hs'.id.trans (hq.id.trans hs.id), ?_, ?_,
      fun msg hmem => ?_⟩
    · have h2 : (m.mcastRqstSlots q).1.life ≠ .aborted := by
        rw [life_mcastRqstSlots]
        rcases hs.life with h1 | h1 <;> simp [h1, hlife]
      rcases hs'.life with h1 | h1
      · rwa [h1]
      · simp [h1]
    · rw [hs'.fsm, fsm_mcastRqstSlots, hs.fsm]
    · rw [hs'.owned, owned_mcastRqstSlots, hs.owned]
    · rw [hm] at hmem
      obtain ⟨he, hw⟩ := mem_mcastRqstSlots hmem
      exact ⟨hk.waitsts.symm.trans hw, q, he⟩

theorem Waits.call (h : Waits n) (hr : n.call c l = some r) :
    Waits r.1 ∧ r.1.life = .alive ∧ r.1.localNodeid = n.localNodeid ∧ r.2 = [] := by
  have hlife : n.life = .alive := alive_of_call hr
  have hs := h.systask
  cases l
  case sysBind i k =>
    simp only [Node.call] at hr
    split_ifs at hr
    rw [← Option.some.inj hr]
    exact ⟨⟨h.fsm, h.init, h.waitsts, h.primary, h.systask, h.owner⟩, hlife, rfl, rfl⟩
  all_goals simp [Node.call, hs, hlife] at hr

/-! ### Joins -/

theorem Knows.spJoin (h : Knows ini ∅ p n) (hb : b ≠ n.localNodeid) (hlt : b < c.dcNrNodes)
    (hr : n.fsm = .running) (ho : 0 < n.ownedSlots) :
    Knows ini {b} p (n.spJoin c b).1 ∧ (n.spJoin c b).1.life = n.life ∧
    (n.spJoin c b).1.localNodeid = n.localNodeid ∧ (n.spJoin c b).1.fsm = .running ∧
    0 < (n.spJoin c b).1.ownedSlots ∧
    (n.spJoin c b).2 = if p = n.localNodeid then
      [.putStatus b ini {b} (n.spJoin c b).1.slot] else [] := by
  rw [spJoin_other hb h.ne_waitStatus]
  generalize hm : ((n.addWaitsts b).reclaim c b).clearRqsts = m
  have hk : Knows ini {b} p m := by
    subst hm
    exact ⟨h.initialized, h.merging, h.init, by
      rw [show (((n.addWaitsts b).reclaim c b).clearRqsts).bmWaitsts = insert b n.bmWaitsts from
        rfl, h.waitsts, insert_empty_eq], h.primary, h.count⟩
  have hmo : 0 < m.ownedSlots := by
    subst hm
    change 0 < n.ownedSlots + _
    split_ifs <;> omega
  have hmid : m.localNodeid = n.localNodeid := by subst hm; rfl
  have hml : m.life = n.life := by subst hm; rfl
  have hmf : m.fsm = .running := by subst hm; exact hr
  obtain ⟨f1, f2, f3, f4⟩ := primaryStsMcast_frame (c := c) m
  have hq : (m.primaryStsMcast c).1.newRqstSlots c.minOwnedSlots =
      ((m.primaryStsMcast c).1, []) := newRqstSlots_of_owned (by rw [f1]; omega)
  simp only [andThen, hq, List.append_nil]
  refine ⟨hk.congr (.primaryStsMcast c m), by rw [life_primaryStsMcast, hml], ?_, ?_, ?_, ?_⟩
  · rw [(SameMem.primaryStsMcast c m).id, hmid]
  · rw [f2, hmf]
  · rw [f1]
    exact hmo
  · rw [f3, primaryStsMcast_singleton hlt hk.waitsts hk.primary, hk.init, hmid]

/-! ### Disconnects -/

def nextPrimary (c : Conf) (ini : Finset ℕ) (p k : ℕ) : ℕ :=
  if p = k then (getPrimaryMbr c (ini.erase k)).getD p else p

structure Remains (c : Conf) (ini : Finset ℕ) (k : ℕ) (n : Node) : Prop where
  self : n.localNodeid ∈ ini
  lt : n.localNodeid < c.dcNrNodes
  ne : n.localNodeid ≠ k

section

variable (h : Knows ini wait p n)

include h

theorem Knows.elect (hr : n.Remains c ini k) :
    ((n.forget k).elect c k).primaryMbr = some (nextPrimary c ini p k) := by
  have hp : (n.forget k).primaryMbr = some p := h.primary
  have hini : (n.forget k).bmInit = ini.erase k := congrArg (Finset.erase · k) h.init
  obtain ⟨q, hq, -⟩ := getPrimaryMbr_exists (c := c) (Finset.mem_erase.2 ⟨hr.ne, hr.self⟩) hr.lt
  unfold Node.elect nextPrimary
  rw [hp, hini]
  by_cases he : p = k
  · rw [if_pos (by rw [he]), if_pos he, hq]
    rfl
  · rw [if_neg (fun h1 => he (Option.some.inj h1)), if_neg he]
    exact hp

theorem Knows.reallocate (hr : n.Remains c ini k) :
    Knows (ini.erase k) (wait.erase k) (nextPrimary c ini p k) (n.reallocate c k) := by
  obtain ⟨q, hq⟩ := elect_eq c (n.forget k) k
  have hini : (n.forget k).bmInit = ini.erase k := congrArg (Finset.erase · k) h.init
  have hwait : (n.forget k).bmWaitsts = wait.erase k := congrArg (Finset.erase · k) h.waitsts
  have hp := h.elect hr
  refine Knows.congr ?_ (reallocate_frame (c := c) n k)
  rw [hq] at hp ⊢
  refine ⟨h.initialized, h.merging, hini, hwait, hp, ?_⟩
  exact (initNodes_forget (by rw [h.count, h.init])).trans (by rw [hini])

theorem Knows.spDisconnect_eq (hr : n.Remains c ini k) :
    n.spDisconnect c e k =
      if (n.reallocate c k).life ≠ .alive then (n.reallocate c k, [])
      else andThen ((n.reallocate c k).primaryStsMcast c) fun n =>
        n.clearRqsts.newRqstSlots c.minOwnedSlots := by
  have hw := (h.reallocate hr).ne_waitStatus
  simp only [Node.spDisconnect, if_neg hr.ne, h.initialized, h.merging, h.elect hr, hw,
    Bool.true_eq_false, Bool.false_eq_true, false_and, if_false, reduceCtorEq, and_false]

theorem Knows.spDisconnect (hr : n.Remains c ini k) (hl : n.life = .alive) :
    Knows (ini.erase k) (wait.erase k) (nextPrimary c ini p k) (n.spDisconnect c e k).1 ∧
    (n.spDisconnect c e k).1.life ≠ .aborted ∧
    (n.spDisconnect c e k).1.localNodeid = n.localNodeid := by
  have hk' := h.reallocate hr
  obtain ⟨hid, hlife⟩ := reallocate_life (c := c) k hl
  rw [h.spDisconnect_eq hr]
  have hs : SameMem (n.reallocate c k) ((((n.reallocate c k).primaryStsMcast c).1.clearRqsts).newRqstSlots
      c.minOwnedSlots).1 :=
    (SameMem.primaryStsMcast c _).trans ((SameMem.clearRqsts _).trans (.newRqstSlots _ _))
  split_ifs
  · exact ⟨hk', hlife, hid⟩
  · refine ⟨hk'.congr hs, ?_, hs.id.trans hid⟩
    simp only [andThen, life_newRqstSlots]
    change ((n.reallocate c k).primaryStsMcast c).1.life ≠ .aborted
    rwa [life_primaryStsMcast]

theorem Knows.mem_spDisconnect (hr : n.Remains c ini k) (hw : wait.erase k = ∅)
    (hm : msg ∈ (n.spDisconnect c e k).2) : msg = .reqSlots c.minOwnedSlots := by
  have hk' := h.reallocate hr
  rw [h.spDisconnect_eq hr] at hm
  split_ifs at hm
  · simp at hm
  · simp only [andThen, primaryStsMcast_of_empty (hk'.waitsts.trans hw), List.nil_append] at hm
    exact (mem_newRqstSlots hm).1

end

theorem Knows.spDisconnect_waiting (h : Knows ini {b} p n) (hr : n.Remains c ini k) (hb : b ≠ k)
    (hblt : b < c.dcNrNodes) (hrun : n.fsm = .running) (ho : 0 < n.ownedSlots) :
    (n.spDisconnect c e k).1.fsm = .running ∧ 0 < (n.spDisconnect c e k).1.ownedSlots ∧
    (n.spDisconnect c e k).2 =
      if (n.spDisconnect c e k).1.life = .alive ∧ nextPrimary c ini p k = n.localNodeid then
        [.putStatus b (ini.erase k) {b} (n.spDisconnect c e k).1.slot] else [] := by
  have hk' := h.reallocate hr
  have hwait : ({b} : Finset ℕ).erase k = {b} := Finset.erase_eq_of_notMem (by simpa using hb.symm)
  rw [hwait] at hk'
  obtain ⟨q, hq⟩ := elect_eq c (n.forget k) k
  obtain ⟨h1, h2⟩ := reallocate_running (c := c) k hrun
  have hid := (reallocate_frame (c := c) n k).id
  rw [hq] at hid
  rw [h.spDisconnect_eq hr]
  generalize n.reallocate c k = m at hk' h1 h2 hid ⊢
  have hid : m.localNodeid = n.localNodeid := hid
  obtain ⟨f1, f2, f3, -⟩ := primaryStsMcast_frame (c := c) m
  have hq : (m.primaryStsMcast c).1.clearRqsts.newRqstSlots c.minOwnedSlots =
      ((m.primaryStsMcast c).1.clearRqsts, []) := newRqstSlots_of_owned (by
    change (m.primaryStsMcast c).1.ownedSlots ≠ 0
    rw [f1]
    omega)
  split_ifs with hlm ha ha
  · exact absurd ha.1 hlm
  · exact ⟨h1, lt_of_lt_of_le ho h2, rfl⟩
  all_goals
    simp only [andThen, hq, List.append_nil]
    refine ⟨f2.trans h1, ?_, ?_⟩
    · change 0 < (m.primaryStsMcast c).1.ownedSlots
      rw [f1]
      omega
  · rw [primaryStsMcast_singleton hblt hk'.waitsts hk'.primary, hk'.init, hid, if_pos ha.2]
    change [Msg.putStatus b (ini.erase k) {b} m.slot] =
      [.putStatus b (ini.erase k) {b} (m.primaryStsMcast c).1.slot]
    rw [f3]
  · have hal : (m.primaryStsMcast c).1.life = .alive :=
      (life_primaryStsMcast m).trans (not_not.1 hlm)
    have hne : ¬nextPrimary c ini p k = m.localNodeid := by
      rw [hid]
      refine fun he => ha ⟨?_, he⟩
      simp only [andThen, hq]
      exact hal
    rw [primaryStsMcast_singleton hblt hk'.waitsts hk'.primary, if_neg hne]

theorem Waits.spDisconnect (h : Waits n) (hk : n.localNodeid ≠ k) (hact : n.activeNodes ≠ 1) :
    Waits (n.spDisconnect c e k).1 ∧ (n.spDisconnect c e k).1.life = n.life ∧
    (n.spDisconnect c e k).1.localNodeid = n.localNodeid ∧ (n.spDisconnect c e k).2 = [] := by
  have he : (n.forget k).elect c k = n.forget k := by
    unfold Node.elect
    rw [if_neg]
    rw [show (n.forget k).primaryMbr = none from h.primary]
    simp
  have hre : n.reallocate c k = setMax c (n.forget k) := by
    rw [Node.reallocate, he, foldl_discSlot_of_none]
    intro i hi
    rw [show ((setMax c (n.forget k)).slot i).owner = none from h.owner i] at hi
    simp at hi
  have hw : (setMax c (n.forget k)).fsm = .waitStatus := h.fsm
  have hr : n.spDisconnect c e k = (setMax c (n.forget k), []) := by
    simp only [Node.spDisconnect, if_neg hk, hact, and_false, if_false, h.fsm, h.primary, hre, hw]
    simp [Fsm.waitStatus]
  rw [hr]
  refine ⟨⟨h.fsm, ?_, ?_, h.primary, h.systask, h.owner⟩, rfl, rfl, rfl⟩
  · change n.bmInit.erase k = ∅
    rw [h.init, Finset.erase_empty]
  · change n.bmWaitsts.erase k = {n.localNodeid}
    rw [h.waitsts, Finset.erase_eq_of_notMem (by simpa using hk.symm)]

theorem Waits.spDisconnect_alone (h : Waits n) (hk : n.localNodeid ≠ k) (hact : n.activeNodes = 1) :
    (n.spDisconnect c e k).1.life = .gone ∧ (n.spDisconnect c e k).1.localNodeid = n.localNodeid ∧
    (n.spDisconnect c e k).2 = [] := by
  have hi : n.fsm.isInitialized = false := by rw [h.fsm]; rfl
  rw [Node.spDisconnect, if_neg hk, if_pos ⟨hi, hact⟩]
  exact ⟨rfl, rfl, rfl⟩

/-! ### Status messages -/

theorem Knows.putStatus (h : Knows ini {b} p n) (hself : n.localNodeid ∈ ini)
    (hb : b ≠ n.localNodeid) (hni : b ∉ ini) (hr : n.fsm = .running)
    (bi bw : Finset ℕ) (tbl : ℕ → Slot) :
    n.onMessage c e i (.putStatus b bi bw tbl) =
      ((((n.dropWaitsts b).primaryStsMcast c).1.addInit c b).spReqSlots c b c.minOwnedSlots) ∧
    Knows (insert b ini) ∅ p (((n.dropWaitsts b).primaryStsMcast c).1.addInit c b) := by
  have hrun : (n.dropWaitsts b).fsm.isRunning = true := by
    rw [show (n.dropWaitsts b).fsm = .running from hr]
    rfl
  have hk : Knows ini ∅ p (n.dropWaitsts b) := by
    refine ⟨h.initialized, h.merging, h.init, ?_, h.primary, h.count⟩
    change n.bmWaitsts.erase b = ∅
    rw [h.waitsts]
    simp
  have hs := SameMem.primaryStsMcast c (n.dropWaitsts b)
  have hk' := hk.congr hs
  have hsend : ((n.dropWaitsts b).primaryStsMcast c).2 = [] := primaryStsMcast_of_empty hk.waitsts
  have hok : ¬(((n.dropWaitsts b).primaryStsMcast c).1.localNodeid ∉
      ((n.dropWaitsts b).primaryStsMcast c).1.bmInit ∨
      b ∈ ((n.dropWaitsts b).primaryStsMcast c).1.bmInit) := by
    rw [hk'.init, hs.id]
    exact fun h1 => h1.elim (fun h2 => h2 hself) hni
  refine ⟨?_, hk'.initialized, hk'.merging, ?_, hk'.waitsts, hk'.primary, ?_⟩
  · simp only [Node.onMessage, h.initialized, if_true, spPutStatus, ne_eq, hb, not_false_eq_true,
      hrun, andThen, hsend, if_neg hok, List.nil_append]
  · change insert b ((n.dropWaitsts b).primaryStsMcast c).1.bmInit = _
    rw [hk'.init]
  · change ((n.dropWaitsts b).primaryStsMcast c).1.initNodes + 1 = _
    rw [hk'.count, Finset.card_insert_of_notMem hni]
    push_cast
    rfl

theorem Waits.putStatus (h : Waits n) (hsub : insert n.localNodeid ini ⊆ Finset.range c.dcNrNodes)
    (tbl : ℕ → Slot) :
    n.onMessage c e p (.putStatus n.localNodeid ini {n.localNodeid} tbl) =
      ((n.setPrimary (some p)).ownStatus c ini {n.localNodeid} tbl, []) ∧
    Knows (insert n.localNodeid ini) ∅ p
      ((n.setPrimary (some p)).ownStatus c ini {n.localNodeid} tbl) := by
  have hi : n.fsm.isInitialized = false := by rw [h.fsm]; rfl
  have hini : insert n.localNodeid (n.bmInit ∪ ini) = insert n.localNodeid ini := by
    rw [h.init, Finset.empty_union]
  refine ⟨?_, rfl, rfl, hini, ?_, rfl, ?_⟩
  · have hw : (n.setPrimary (some p)).fsm = .waitStatus := h.fsm
    have hid : n.localNodeid = (n.setPrimary (some p)).localNodeid := rfl
    simp only [Node.onMessage, hi, Bool.false_eq_true, if_false, spPutStatus]
    rw [if_neg (not_not.2 hid), if_neg (not_not.2 hw)]
  · change (n.bmWaitsts ∪ {n.localNodeid}).erase n.localNodeid = ∅
    rw [h.waitsts]
    simp
  · change getInitNodes c (insert n.localNodeid (n.bmInit ∪ ini)) = _
    rw [hini, getInitNodes_eq hsub]

/-! ### The own join -/

theorem knows_start (hm : members.card = 1) (hi : i ∈ members) :
    Knows members ∅ i (start c i members) ∧ (start c i members).life = .alive ∧
    (start c i members).localNodeid = i := by
  obtain ⟨a, rfl⟩ := Finset.card_eq_one.1 hm
  obtain rfl := Finset.mem_singleton.1 hi
  rw [start_of_card_eq_one hm]
  exact ⟨⟨rfl, rfl, by simp [lonelyJoin, setView, Node.init], rfl, rfl, rfl⟩, rfl, rfl⟩

theorem waits_start (hm : members.card ≠ 1) :
    Waits (start c i members) ∧ (start c i members).life = .alive ∧
    (start c i members).localNodeid = i := by
  rw [start_of_card_ne_one hm]
  exact ⟨⟨rfl, rfl, rfl, rfl, rfl, fun _ => rfl⟩, rfl, rfl⟩

end Handlers

end Node

namespace Net

open Slots.Node

/-! ### The phases of a group -/

/-- Between two joins: the live members know each other and the same primary. -/
structure Steady (g : Net) (p : ℕ) : Prop where
  known : ∀ j, g.Live j → Knows g.members ∅ p (g.node j)
  flight : ∀ j ∈ g.members, ∀ msg ∈ g.flight j, Takes g.members j msg

/-- While `b` waits for its status, the others run, and nothing else is in flight. -/
structure Joining (g : Net) (p b : ℕ) : Prop where
  mem : b ∈ g.members
  ne : p ≠ b
  known : ∀ j, g.Live j → j ≠ b → Knows (g.members.erase b) {b} p (g.node j) ∧
    (g.node j).fsm = .running ∧ 0 < (g.node j).ownedSlots
  waits : g.Live b → Waits (g.node b)
  silent : ∀ j ∈ g.members, j ≠ p → g.flight j = []
  status : (p ∈ g.members ∧ ∃ tbl, g.flight p = [.putStatus b (g.members.erase b) {b} tbl]) ∨
    (¬g.Live p ∧ (p ∈ g.members → g.flight p = []))

/-- The group is in one of the phases, or no process runs; and no assertion has failed. -/
structure Phased (c : Conf) (g : Net) : Prop where
  ids : ∀ j ∈ g.members, j < c.dcNrNodes
  self : ∀ j ∈ g.members, (g.node j).localNodeid = j
  sound : ∀ j ∈ g.members, (g.node j).life ≠ .aborted
  phase : (∀ j, ¬g.Live j) ∨ (∃ p, g.Steady p) ∨ ∃ p b, g.Joining p b

def Silent (g : Net) : Prop := ∀ j ∈ g.members, g.flight j = []

/-- A node joins an empty group, or one in which nothing is in flight, all members run and own
slots, and the primary is alive. -/
def JoinOk (g : Net) : Prop :=
  g.members = ∅ ∨ (g.Silent ∧
    (∀ j ∈ g.members, (g.node j).life = .alive →
      (g.node j).fsm = .running ∧ 0 < (g.node j).ownedSlots) ∧
    ∃ j ∈ g.members, (g.node j).life = .alive ∧ (g.node j).primaryMbr = some j)

/-- What is in flight is no status, and no donation for `k`. -/
def Outlives (k : ℕ) : Msg → Bool
  | .putStatus .. => false
  | .donSlots dst _ _ => dst ≠ k
  | _ => true

/-- A member leaves while no other one has a status or a donation for it in flight. -/
def LeaveOk (g : Net) (k : ℕ) : Prop :=
  ∀ j ∈ g.members, j ≠ k → ∀ msg ∈ g.flight j, Outlives k msg = true

section Steps

variable {c : Conf} {g G : Net} {i k p b j : ℕ} {msg : Msg} {rest : List Msg} {e : ℕ → Env}
  {ini wait : Finset ℕ}

theorem Steady.member_joined (h : Phased c g) (hs : g.Steady p) (hi : i ∉ g.members)
    (hlt : i < c.dcNrNodes) (hj : g.Live j) (hq : g.flight j = [])
    (hrun : (g.node j).fsm = .running ∧ 0 < (g.node j).ownedSlots) :
    (Knows g.members {i} p ((g.joined c i).node j) ∧ ((g.joined c i).node j).fsm = .running ∧
      0 < ((g.joined c i).node j).ownedSlots) ∧
    ((g.joined c i).node j).localNodeid = j ∧ ((g.joined c i).node j).life = .alive ∧
    (g.joined c i).flight j = if p = j then
      [.putStatus i g.members {i} ((g.joined c i).node j).slot] else [] := by
  have hself := h.self j hj.1
  have hne : i ≠ (g.node j).localNodeid := fun he => hi (he.trans hself ▸ hj.1)
  rw [node_joined hi hj.1, flight_joined hi hj.1, hq, List.nil_append, handle_alive hj.2]
  obtain ⟨h1, h2, h3, h4, h5, h6⟩ := Knows.spJoin (c := c)
    (n := (g.node j).setView (insert i g.members)) ((hs.known j hj).setView _) hne hlt hrun.1
    hrun.2
  refine ⟨⟨h1, h4, h5⟩, h3.trans hself, h2.trans hj.2, h6.trans ?_⟩
  rw [show ((g.node j).setView (insert i g.members)).localNodeid = j from hself]

theorem Steady.joined (h : Phased c g) (hs : g.Steady p) (hi : i ∉ g.members)
    (hlt : i < c.dcNrNodes) (hq : g.Silent)
    (hrun : ∀ j ∈ g.members, (g.node j).life = .alive →
      (g.node j).fsm = .running ∧ 0 < (g.node j).ownedSlots) (hp : g.Live p) :
    Joining (g.joined c i) p i := by
  have hmem := fun j (hj : g.Live j) =>
    hs.member_joined h hi hlt hj (hq j hj.1) (hrun j hj.1 hj.2)
  have herase : (g.joined c i).members.erase i = g.members := Finset.erase_insert hi
  refine ⟨Finset.mem_insert_self _ _, fun he => hi (he ▸ hp.1), fun j hj hji => ?_, fun _ => ?_,
    fun j hj hjp => ?_, .inl ⟨Finset.mem_insert_of_mem hp.1, ?_⟩⟩
  · rw [herase]
    exact (hmem j (live_joined hi hji hj)).1
  · rw [node_joined_self]
    refine (waits_start ?_).1
    intro hone
    rw [Finset.card_insert_of_notMem hi] at hone
    exact absurd (Finset.card_pos.2 ⟨p, hp.1⟩) (by omega)
  · by_cases hji : j = i
    · rw [hji]
      exact flight_joined_self
    · have hjm : j ∈ g.members := Finset.mem_of_mem_insert_of_ne hj hji
      by_cases hl : (g.node j).life = .alive
      · rw [(hmem j ⟨hjm, hl⟩).2.2.2, if_neg (Ne.symm hjp)]
      · rw [flight_joined hi hjm, handle_of_not_alive hl, hq j hjm]
        rfl
  · rw [(hmem p hp).2.2.2, if_pos rfl, herase]
    exact ⟨_, rfl⟩

theorem Phased.joined (h : Phased c g) (hi : i ∉ g.members) (hlt : i < c.dcNrNodes)
    (hok : g.JoinOk) : Phased c (g.joined c i) := by
  have hids : ∀ j ∈ (g.joined c i).members, j < c.dcNrNodes := fun j hj =>
    (Finset.mem_insert.1 hj).elim (fun he => he ▸ hlt) (h.ids j)
  rcases hok with hem | ⟨hq, hrun, q, hqm, hql, hqp⟩
  · -- the first member
    have hone : (insert i g.members).card = 1 := by rw [hem]; rfl
    have hall : ∀ j ∈ (g.joined c i).members, j = i := by
      intro j hj
      rw [members_joined, hem] at hj
      simpa using hj
    obtain ⟨h1, h2, h3⟩ := knows_start (c := c) hone (Finset.mem_insert_self i g.members)
    refine ⟨hids, fun j hj => ?_, fun j hj => ?_, .inr (.inl ⟨i, fun j hj => ?_, fun j hj => ?_⟩)⟩
    · rw [hall j hj, node_joined_self]
      exact h3
    · rw [hall j hj, node_joined_self, h2]
      simp
    · rw [hall j hj.1, node_joined_self]
      exact h1
    · rw [hall j hj, flight_joined_self]
      simp
  · -- the live members run, so that nobody waits
    have hsteady : g.Steady q := by
      rcases h.phase with h1 | ⟨p, h1⟩ | ⟨p, b, h1⟩
      · exact absurd ⟨hqm, hql⟩ (h1 q)
      · have hp := (h1.known q ⟨hqm, hql⟩).primary
        rw [hqp, Option.some.injEq] at hp
        exact hp ▸ h1
      · have hqb : q ≠ b := by
          rintro rfl
          have hw := (h1.waits ⟨hqm, hql⟩).fsm
          rw [(hrun q hqm hql).1] at hw
          exact absurd hw (by decide)
        have hp := (h1.known q ⟨hqm, hql⟩ hqb).1.primary
        rw [hqp, Option.some.injEq] at hp
        rcases h1.status with ⟨hm, tbl, hf⟩ | ⟨hd, -⟩
        · rw [hq p hm] at hf
          simp at hf
        · exact absurd (hp ▸ ⟨hqm, hql⟩) hd
    have hmem := fun j (hj : g.Live j) =>
      hsteady.member_joined h hi hlt hj (hq j hj.1) (hrun j hj.1 hj.2)
    have hone : (insert i g.members).card ≠ 1 := by
      rw [Finset.card_insert_of_notMem hi]
      have := Finset.card_pos.2 ⟨q, hqm⟩
      omega
    obtain ⟨-, h2, h3⟩ := waits_start (c := c) (i := i) hone
    have hother : ∀ j ∈ g.members, ((g.joined c i).node j).localNodeid = j ∧
        ((g.joined c i).node j).life ≠ .aborted := by
      intro j hj
      by_cases hl : (g.node j).life = .alive
      · have hm := hmem j ⟨hj, hl⟩
        exact ⟨hm.2.1, by simp [hm.2.2.1]⟩
      · rw [node_joined hi hj, handle_of_not_alive hl]
        exact ⟨h.self j hj, h.sound j hj⟩
    refine ⟨hids, fun j hj => ?_, fun j hj => ?_,
      .inr (.inr ⟨q, i, hsteady.joined h hi hlt hq hrun ⟨hqm, hql⟩⟩)⟩
    · rcases Finset.mem_insert.1 hj with rfl | hj
      · rw [node_joined_self]
        exact h3
      · exact (hother j hj).1
    · rcases Finset.mem_insert.1 hj with rfl | hj
      · rw [node_joined_self, h2]
        simp
      · exact (hother j hj).2

theorem node_left_alive (hj : g.Live j) (hjk : j ≠ k) :
    (g.left c k).node j =
      (((g.node j).setView (g.members.erase k)).spDisconnect c .sample k).1 ∧
    (g.left c k).flight j = g.flight j ++
      (((g.node j).setView (g.members.erase k)).spDisconnect c .sample k).2 := by
  have hm : j ∈ (g.left c k).members := mem_left.2 ⟨hjk, hj.1⟩
  rw [node_left hm, flight_left hm, handle_alive hj.2]
  exact ⟨rfl, rfl⟩

theorem node_left_dead (hj : j ∈ (g.left c k).members) (hl : (g.node j).life ≠ .alive) :
    (g.left c k).node j = g.node j ∧ (g.left c k).flight j = g.flight j := by
  rw [node_left hj, flight_left hj, handle_of_not_alive hl]
  exact ⟨rfl, List.append_nil _⟩

theorem Phased.remains (h : Phased c g) (hj : j ∈ g.members) (hini : j ∈ ini) (hjk : j ≠ k)
    (members : Finset ℕ) : ((g.node j).setView members).Remains c ini k := by
  have hself : ((g.node j).setView members).localNodeid = j := h.self j hj
  exact ⟨by rwa [hself], by rw [hself]; exact h.ids j hj, by rwa [hself]⟩

theorem Phased.member_left (h : Phased c g) (hj : g.Live j) (hjk : j ≠ k)
    (hkn : Knows ini wait p (g.node j)) (hini : j ∈ ini) :
    Knows (ini.erase k) (wait.erase k) (nextPrimary c ini p k) ((g.left c k).node j) ∧
    ((g.left c k).node j).life ≠ .aborted ∧ ((g.left c k).node j).localNodeid = j := by
  rw [(node_left_alive hj hjk).1]
  obtain ⟨h1, h2, h3⟩ :=
    (hkn.setView (g.members.erase k)).spDisconnect (e := .sample) (h.remains hj.1 hini hjk _) hj.2
  exact ⟨h1, h2, h3.trans (h.self j hj.1)⟩

theorem Phased.sends_left (h : Phased c g) (hj : j ∈ (g.left c k).members)
    (hkn : g.Live j → Knows ini wait p (g.node j) ∧ j ∈ ini) (hw : wait.erase k = ∅)
    (hm : msg ∈ (g.left c k).flight j) : msg ∈ g.flight j ∨ msg = .reqSlots c.minOwnedSlots := by
  obtain ⟨hjk, hjm⟩ := mem_left.1 hj
  by_cases hl : (g.node j).life = .alive
  · obtain ⟨hkn, hini⟩ := hkn ⟨hjm, hl⟩
    rw [(node_left_alive ⟨hjm, hl⟩ hjk).2, List.mem_append] at hm
    exact hm.imp_right ((hkn.setView _).mem_spDisconnect (h.remains hjm hini hjk _) hw)
  · rw [(node_left_dead hj hl).2] at hm
    exact .inl hm

theorem Steady.left (h : Phased c g) (hs : g.Steady p) (hok : g.LeaveOk k) :
    Steady (g.left c k) (nextPrimary c g.members p k) := by
  refine ⟨fun j hj => ?_, fun j hj msg hm => ?_⟩
  · obtain ⟨hjk, hl⟩ := live_left hj
    have h1 := (h.member_left hl hjk (hs.known j hl) hl.1).1
    rwa [Finset.erase_empty] at h1
  · rcases h.sends_left hj (fun hl => ⟨hs.known j hl, hl.1⟩) (Finset.erase_empty k) hm with hf | rfl
    · obtain ⟨hjk, hjm⟩ := mem_left.1 hj
      have hout := hok j hjm hjk msg hf
      cases hs.flight j hjm msg hf with
      | request q => exact .request q
      | donation nr ia hd hne =>
        exact .donation nr ia (Finset.mem_erase.2 ⟨by simpa [Outlives] using hout, hd⟩) hne
    · exact .request _

theorem Joining.quiet_left (hs : g.Joining p b) (hok : g.LeaveOk k)
    (hj : j ∈ (g.left c k).members) :
    g.flight j = [] := by
  obtain ⟨hjk, hjm⟩ := mem_left.1 hj
  by_cases hjp : j = p
  · subst hjp
    rcases hs.status with ⟨-, tbl, hf⟩ | ⟨-, hf⟩
    · have := hok j hjm hjk _ (by rw [hf]; exact List.mem_singleton_self _)
      simp [Outlives] at this
    · exact hf hjm
  · exact hs.silent j hjm hjp

theorem Joining.left_self (h : Phased c g) (hs : g.Joining p b) (hok : g.LeaveOk b) :
    Steady (g.left c b) p := by
  have hquiet := fun j (hj : j ∈ (g.left c b).members) => hs.quiet_left hok hj
  have hp : nextPrimary c (g.members.erase b) p b = p := if_neg hs.ne
  have hw : ({b} : Finset ℕ).erase b = ∅ := by simp
  refine ⟨fun j hj => ?_, fun j hj msg hm => ?_⟩
  · obtain ⟨hjb, hl⟩ := live_left hj
    have h1 := (h.member_left hl hjb (hs.known j hl hjb).1 (Finset.mem_erase.2 ⟨hjb, hl.1⟩)).1
    rwa [hp, hw, Finset.erase_idem] at h1
  · obtain ⟨hjb, hjm⟩ := mem_left.1 hj
    rcases h.sends_left hj (fun hl => ⟨(hs.known j hl hjb).1, Finset.mem_erase.2 ⟨hjb, hl.1⟩⟩) hw
      hm with hf | rfl
    · rw [hquiet j hj] at hf
      simp at hf
    · exact .request _

theorem Joining.sends_left (h : Phased c g) (hs : g.Joining p b) (hbk : b ≠ k) (hj : g.Live j)
    (hjb : j ≠ b) (hjk : j ≠ k) (hf : g.flight j = []) :
    (((g.left c k).node j).fsm = .running ∧ 0 < ((g.left c k).node j).ownedSlots) ∧
    (g.left c k).flight j =
      if ((g.left c k).node j).life = .alive ∧ nextPrimary c (g.members.erase b) p k = j then
        [.putStatus b ((g.members.erase k).erase b) {b} ((g.left c k).node j).slot] else [] := by
  have hself := h.self j hj.1
  obtain ⟨hkn, hr, ho⟩ := hs.known j hj hjb
  have hini : j ∈ g.members.erase b := Finset.mem_erase.2 ⟨hjb, hj.1⟩
  rw [(node_left_alive hj hjk).1, (node_left_alive hj hjk).2, hf, List.nil_append]
  obtain ⟨h1, h2, h3⟩ := (hkn.setView (g.members.erase k)).spDisconnect_waiting (e := .sample)
    (h.remains hj.1 hini hjk _) hbk (h.ids b hs.mem) hr ho
  refine ⟨⟨h1, h2⟩, ?_⟩
  rw [h3, show ((g.node j).setView (g.members.erase k)).localNodeid = j from hself,
    Finset.erase_right_comm]

theorem Joining.left (h : Phased c g) (hs : g.Joining p b) (hok : g.LeaveOk k) (hbk : b ≠ k) :
    (∀ j, ¬Live (g.left c k) j) ∨
      Joining (g.left c k) (nextPrimary c (g.members.erase b) p k) b := by
  have hbm : b ∈ g.members.erase k := Finset.mem_erase.2 ⟨hbk, hs.mem⟩
  have hquiet := fun j (hj : j ∈ (g.left c k).members) => hs.quiet_left hok hj
  have hbid : (g.node b).localNodeid ≠ k := by rwa [h.self b hs.mem]
  by_cases hone : (g.members.erase k).card = 1
  · left
    intro j hj
    obtain ⟨hjk, hl⟩ := live_left hj
    obtain ⟨a, ha⟩ := Finset.card_eq_one.1 hone
    have hjb : j = b := by
      have h1 : j ∈ g.members.erase k := Finset.mem_erase.2 ⟨hjk, hl.1⟩
      rw [ha, Finset.mem_singleton] at h1 hbm
      exact h1.trans hbm.symm
    subst hjb
    have h1 := ((hs.waits hl).setView (g.members.erase k)).spDisconnect_alone (c := c)
      (e := .sample) hbid hone
    have h2 := hj.2
    rw [(node_left_alive hl hjk).1, h1.1] at h2
    simp at h2
  · right
    have hnp : nextPrimary c (g.members.erase b) p k ≠ b := by
      unfold nextPrimary
      split_ifs with hpk
      · cases hg : getPrimaryMbr c ((g.members.erase b).erase k) with
        | none => exact hs.ne
        | some q =>
          have hq := getPrimaryMbr_mem hg
          exact (Finset.mem_erase.1 (Finset.mem_erase.1 hq).2).1
      · exact hs.ne
    have hbw : g.Live b → _ := fun hl =>
      ((hs.waits hl).setView (g.members.erase k)).spDisconnect (c := c) (e := .sample) hbid hone
    have hsend : ∀ j, j ∈ (g.left c k).members → j ≠ b →
        ¬(Live (g.left c k) j ∧ nextPrimary c (g.members.erase b) p k = j) →
        (g.left c k).flight j = [] := by
      intro j hj hjb hno
      obtain ⟨hjk, hjm⟩ := mem_left.1 hj
      by_cases hl : (g.node j).life = .alive
      · rw [(hs.sends_left h hbk ⟨hjm, hl⟩ hjb hjk (hquiet j hj)).2, if_neg]
        exact fun h1 => hno ⟨⟨hj, h1.1⟩, h1.2⟩
      · rw [(node_left_dead hj hl).2]
        exact hquiet j hj
    refine ⟨hbm, hnp, fun j hj hjb => ?_, fun hl => ?_, fun j hj hjp => ?_, ?_⟩
    · obtain ⟨hjk, hl⟩ := live_left hj
      have h1 := (h.member_left hl hjk (hs.known j hl hjb).1 (Finset.mem_erase.2 ⟨hjb, hl.1⟩)).1
      have hw : ({b} : Finset ℕ).erase k = {b} :=
        Finset.erase_eq_of_notMem (by simpa using hbk.symm)
      rw [hw, Finset.erase_right_comm] at h1
      exact ⟨h1, (hs.sends_left h hbk hl hjb hjk (hquiet j hj.1)).1⟩
    · obtain ⟨-, hl⟩ := live_left hl
      rw [(node_left_alive hl hbk).1]
      exact (hbw hl).1
    · by_cases hjb : j = b
      · subst hjb
        by_cases hl : (g.node j).life = .alive
        · rw [(node_left_alive ⟨hs.mem, hl⟩ hbk).2, (hbw ⟨hs.mem, hl⟩).2.2.2, hquiet j hj]
          rfl
        · rw [(node_left_dead hj hl).2]
          exact hquiet j hj
      · exact hsend j hj hjb fun h1 => hjp h1.2.symm
    · by_cases hl : Live (g.left c k) (nextPrimary c (g.members.erase b) p k)
      · obtain ⟨hk', hl'⟩ := live_left hl
        rw [(hs.sends_left h hbk hl' hnp hk' (hquiet _ hl.1)).2, if_pos ⟨hl.2, rfl⟩]
        exact .inl ⟨hl.1, _, rfl⟩
      · exact .inr ⟨hl, fun hm => hsend _ hm hnp fun h1 => hl h1.1⟩

theorem Phased.left (h : Phased c g) (hok : g.LeaveOk k) : Phased c (g.left c k) := by
  have hids : ∀ j ∈ (g.left c k).members, j < c.dcNrNodes := fun j hj => h.ids j (mem_left.1 hj).2
  have hmem : ∀ j ∈ (g.left c k).members, ((g.left c k).node j).localNodeid = j ∧
      ((g.left c k).node j).life ≠ .aborted := by
    intro j hj
    obtain ⟨hjk, hjm⟩ := mem_left.1 hj
    by_cases hl : (g.node j).life = .alive
    · rcases h.phase with h1 | ⟨p, h1⟩ | ⟨p, b, h1⟩
      · exact absurd ⟨hjm, hl⟩ (h1 j)
      · exact (h.member_left ⟨hjm, hl⟩ hjk (h1.known j ⟨hjm, hl⟩) hjm).2.symm
      · by_cases hjb : j = b
        · subst hjb
          have hid : ((g.node j).setView (g.members.erase k)).localNodeid ≠ k := by
            change (g.node j).localNodeid ≠ k
            rwa [h.self j hjm]
          have hw := (h1.waits ⟨hjm, hl⟩).setView (g.members.erase k)
          rw [(node_left_alive ⟨hjm, hl⟩ hjk).1]
          by_cases hone : (g.members.erase k).card = 1
          · obtain ⟨h2, h3, -⟩ := hw.spDisconnect_alone (c := c) (e := .sample) hid hone
            exact ⟨h3.trans (h.self j hjm), by simp [h2]⟩
          · obtain ⟨-, h2, h3, -⟩ := hw.spDisconnect (c := c) (e := .sample) hid hone
            exact ⟨h3.trans (h.self j hjm), by rw [h2]; exact h.sound j hjm⟩
        · exact (h.member_left ⟨hjm, hl⟩ hjk (h1.known j ⟨hjm, hl⟩ hjb).1
            (Finset.mem_erase.2 ⟨hjb, hjm⟩)).2.symm
    · rw [(node_left_dead hj hl).1]
      exact ⟨h.self j hjm, h.sound j hjm⟩
  refine ⟨hids, fun j hj => (hmem j hj).1, fun j hj => (hmem j hj).2, ?_⟩
  rcases h.phase with h1 | ⟨p, h1⟩ | ⟨p, b, h1⟩
  · exact .inl fun j hj => h1 j (live_left hj).2
  · exact .inr (.inl ⟨_, h1.left h hok⟩)
  · by_cases hbk : b = k
    · exact .inr (.inl ⟨p, hbk ▸ h1.left_self h (hbk ▸ hok)⟩)
    · exact (h1.left h hok hbk).imp_right fun h2 => .inr ⟨_, b, h2⟩

/-! ### Deliveries and steps of SYSTASK -/

theorem node_delivered_alive (hj : g.Live j) :
    (g.delivered c i msg rest e).node j =
      ((g.node j).onMessage c (e (g.node j).localNodeid) i msg).1 ∧
    (g.delivered c i msg rest e).flight j = (if j = i then rest else g.flight j) ++
      ((g.node j).onMessage c (e (g.node j).localNodeid) i msg).2 := by
  rw [node_delivered hj.1, flight_delivered hj.1, handle_alive hj.2]
  exact ⟨rfl, rfl⟩

theorem node_delivered_dead (hj : j ∈ g.members) (hl : (g.node j).life ≠ .alive) :
    (g.delivered c i msg rest e).node j = g.node j ∧
    (g.delivered c i msg rest e).flight j = if j = i then rest else g.flight j := by
  rw [node_delivered hj, flight_delivered hj, handle_of_not_alive hl]
  exact ⟨rfl, List.append_nil _⟩

theorem Steady.member_delivered (h : Phased c g) (hs : g.Steady p) (hi : i ∈ g.members)
    (hf : g.flight i = msg :: rest) (hj : g.Live j) (hG : G = g.delivered c i msg rest e) :
    Knows g.members ∅ p (G.node j) ∧ (G.node j).life ≠ .aborted ∧ (G.node j).localNodeid = j ∧
      ∀ m ∈ G.flight j, Takes g.members j m := by
  subst hG
  have hself := h.self j hj.1
  have htake : Takes g.members i msg := hs.flight i hi msg (Group.mem_of_flight hf)
  obtain ⟨h1, h2, h3⟩ := (hs.known j hj).onMessage (c := c) (e := e (g.node j).localNodeid)
    (by rw [hself]; exact hj.1) hi hj.2 htake
  rw [(node_delivered_alive hj).1, (node_delivered_alive hj).2]
  refine ⟨h1, h2, ?_, fun m hm => ?_⟩
  · cases htake with
    | request q => exact (SameMem.spReqSlots _ _ _).id.trans hself
    | donation nr ia hd hne => exact (SameMem.spDonSlots _ _ _ _ _ _).id.trans hself
  · rcases List.mem_append.1 hm with hm | hm
    · exact hs.flight j hj.1 m (Group.mem_of_mem_pop hf hm)
    · exact hself ▸ h3 m hm

theorem Steady.delivered (h : Phased c g) (hs : g.Steady p) (hi : i ∈ g.members)
    (hf : g.flight i = msg :: rest) : Steady (g.delivered c i msg rest e) p := by
  refine ⟨fun j hj => (hs.member_delivered h hi hf (live_delivered hj) rfl).1, fun j hj m hm => ?_⟩
  have hjm : j ∈ g.members := hj
  by_cases hl : (g.node j).life = .alive
  · exact (hs.member_delivered h hi hf ⟨hjm, hl⟩ rfl).2.2.2 m hm
  · rw [(node_delivered_dead hjm hl).2] at hm
    exact hs.flight j hjm m (Group.mem_of_mem_pop hf hm)

theorem Joining.flight_cons (hs : g.Joining p b) (hi : i ∈ g.members)
    (hf : g.flight i = msg :: rest) :
    i = p ∧ rest = [] ∧ ∃ tbl, msg = .putStatus b (g.members.erase b) {b} tbl := by
  have hip : i = p := by
    by_contra hne
    rw [hs.silent i hi hne] at hf
    simp at hf
  subst hip
  rcases hs.status with ⟨-, tbl, hf'⟩ | ⟨-, hf'⟩
  · rw [hf', List.cons.injEq] at hf
    exact ⟨rfl, hf.2.symm, tbl, hf.1.symm⟩
  · rw [hf' hi] at hf
    simp at hf

theorem Joining.member_delivered {tbl : ℕ → Slot} (h : Phased c g) (hs : g.Joining p b)
    (hj : g.Live j) (hG : G = g.delivered c p (.putStatus b (g.members.erase b) {b} tbl) [] e) :
    Knows g.members ∅ p (G.node j) ∧ (G.node j).life = .alive ∧ (G.node j).localNodeid = j ∧
      ∀ m ∈ G.flight j, Takes g.members j m := by
  subst hG
  have hself := h.self j hj.1
  have hins : insert b (g.members.erase b) = g.members := Finset.insert_erase hs.mem
  have hrest : (if j = p then [] else g.flight j) = [] := by
    split_ifs with hjp
    · rfl
    · exact hs.silent j hj.1 hjp
  rw [(node_delivered_alive hj).1, (node_delivered_alive hj).2, hrest, List.nil_append]
  by_cases hjb : j = b
  · subst hjb
    have hw := hs.waits hj
    have hsub : insert (g.node j).localNodeid (g.members.erase j) ⊆ Finset.range c.dcNrNodes := by
      rw [hself, hins]
      exact fun a ha => Finset.mem_range.2 (h.ids a ha)
    obtain ⟨h1, h2⟩ := hw.putStatus (e := e (g.node j).localNodeid) (p := p) hsub tbl
    rw [hself] at h1 h2 ⊢
    rw [h1]
    rw [hins] at h2
    exact ⟨h2, hj.2, hself, by simp⟩
  · obtain ⟨hkn, hr, -⟩ := hs.known j hj hjb
    have hmem : (g.node j).localNodeid ∈ g.members.erase b := by
      rw [hself]
      exact Finset.mem_erase.2 ⟨hjb, hj.1⟩
    obtain ⟨h1, h2⟩ := hkn.putStatus (c := c) (e := e (g.node j).localNodeid) (i := p) hmem
      (by rw [hself]; exact Ne.symm hjb) (Finset.notMem_erase b _) hr (g.members.erase b) {b} tbl
    rw [hins] at h2
    have hid : ((((g.node j).dropWaitsts b).primaryStsMcast c).1.addInit c b).localNodeid = j :=
      (SameMem.primaryStsMcast c ((g.node j).dropWaitsts b)).id.trans hself
    have hlife : ((((g.node j).dropWaitsts b).primaryStsMcast c).1.addInit c b).life = .alive :=
      (life_primaryStsMcast ((g.node j).dropWaitsts b)).trans hj.2
    obtain ⟨h3, h4, h5⟩ := h2.spReqSlots (c := c) (by rw [hid]; exact hj.1) hs.mem hlife
      c.minOwnedSlots
    rw [hid] at h5
    rw [h1]
    exact ⟨h3, h4, (SameMem.spReqSlots _ _ _).id.trans hid, h5⟩

theorem Joining.delivered (h : Phased c g) (hs : g.Joining p b) (hi : i ∈ g.members)
    (hf : g.flight i = msg :: rest) : Steady (g.delivered c i msg rest e) p := by
  obtain ⟨rfl, rfl, tbl, rfl⟩ := hs.flight_cons hi hf
  refine ⟨fun j hj => (hs.member_delivered h (live_delivered hj) rfl).1, fun j hj m hm => ?_⟩
  have hjm : j ∈ g.members := hj
  by_cases hl : (g.node j).life = .alive
  · exact (hs.member_delivered h ⟨hjm, hl⟩ rfl).2.2.2 m hm
  · rw [(node_delivered_dead hjm hl).2] at hm
    split_ifs at hm with hji
    · simp at hm
    · rw [hs.silent j hjm hji] at hm
      simp at hm

theorem Phased.delivered (h : Phased c g) (hi : i ∈ g.members) (hf : g.flight i = msg :: rest) :
    Phased c (g.delivered c i msg rest e) := by
  have hmem : ∀ j ∈ g.members, ((g.delivered c i msg rest e).node j).localNodeid = j ∧
      ((g.delivered c i msg rest e).node j).life ≠ .aborted := by
    intro j hj
    by_cases hl : (g.node j).life = .alive
    · rcases h.phase with h1 | ⟨p, h1⟩ | ⟨p, b, h1⟩
      · exact absurd ⟨hj, hl⟩ (h1 j)
      · obtain ⟨-, h2, h3, -⟩ := h1.member_delivered (e := e) h hi hf ⟨hj, hl⟩ rfl
        exact ⟨h3, h2⟩
      · obtain ⟨rfl, rfl, tbl, rfl⟩ := h1.flight_cons hi hf
        obtain ⟨-, h2, h3, -⟩ := h1.member_delivered (e := e) h ⟨hj, hl⟩ rfl
        exact ⟨h3, by simp [h2]⟩
    · rw [(node_delivered_dead hj hl).1]
      exact ⟨h.self j hj, h.sound j hj⟩
  refine ⟨h.ids, fun j hj => (hmem j hj).1, fun j hj => (hmem j hj).2, ?_⟩
  rcases h.phase with h1 | ⟨p, h1⟩ | ⟨p, b, h1⟩
  · exact .inl fun j hj => h1 j (live_delivered hj)
  · exact .inr (.inl ⟨p, h1.delivered h hi hf⟩)
  · exact .inr (.inl ⟨p, h1.delivered h hi hf⟩)

theorem Phased.act (h : Phased c g) (hi : g.Live i) (hr : (g.node i).call c l = some r) :
    Phased c (g.act i r) := by
  -- the phase goes on with the new state of `i`
  have hphase : (r.1.life ≠ .aborted ∧ r.1.localNodeid = (g.node i).localNodeid) ∧
      ((∃ p, Steady (g.act i r) p) ∨ ∃ p b, Joining (g.act i r) p b) := by
    have hlive : ∀ j, Live (g.act i r) j → j ≠ i → g.Live j := by
      intro j hj hne
      have hl := hj.2
      rw [Group.node_act_of_ne hne] at hl
      exact ⟨hj.1, hl⟩
    rcases h.phase with h1 | ⟨p, h1⟩ | ⟨p, b, h1⟩
    · exact absurd hi (h1 i)
    · obtain ⟨h2, h3, h4, -, -, h5⟩ := (h1.known i hi).call hr
      refine ⟨⟨h3, h4⟩, .inl ⟨p, fun j hj => ?_, fun j hj m hm => ?_⟩⟩
      · by_cases hji : j = i
        · rw [hji, Group.node_act_self]
          exact h2
        · rw [Group.node_act_of_ne hji]
          exact h1.known j (hlive j hj hji)
      · by_cases hji : j = i
        · rw [hji, Group.flight_act_self, List.mem_append] at hm
          rw [hji]
          refine hm.elim (h1.flight i hi.1 m) fun hm => ?_
          obtain ⟨-, q, rfl⟩ := h5 m hm
          exact .request q
        · rw [Group.flight_act_of_ne hji] at hm
          exact h1.flight j hj m hm
    · -- nobody asks for slots while `b` waits
      have hres : (r.1.life ≠ .aborted ∧ r.1.localNodeid = (g.node i).localNodeid) ∧ r.2 = [] ∧
          (i = b → Waits r.1) ∧ (i ≠ b → Knows (g.members.erase b) {b} p r.1 ∧
            r.1.fsm = .running ∧ 0 < r.1.ownedSlots) := by
        by_cases hib : i = b
        · subst hib
          obtain ⟨h2, h3, h4, h5⟩ := (h1.waits hi).call hr
          exact ⟨⟨by simp [h3], h4⟩, h5, fun _ => h2, fun hne => absurd rfl hne⟩
        · obtain ⟨hkn, hrun, ho⟩ := h1.known i hi hib
          obtain ⟨h2, h3, h4, h5, h6, h7⟩ := hkn.call hr
          refine ⟨⟨h3, h4⟩, ?_, fun he => absurd he hib, fun _ => ⟨h2, h5.trans hrun, h6 ▸ ho⟩⟩
          rw [List.eq_nil_iff_forall_not_mem]
          exact fun m hm => absurd (h7 m hm).1 (Finset.singleton_ne_empty b)
      obtain ⟨hr1, hr2, hr3, hr4⟩ := hres
      have hflight : ∀ j, (g.act i r).flight j = g.flight j := by
        intro j
        by_cases hji : j = i
        · rw [hji, Group.flight_act_self, hr2, List.append_nil]
        · rw [Group.flight_act_of_ne hji]
      refine ⟨hr1, .inr ⟨p, b, h1.mem, h1.ne, fun j hj hjb => ?_, fun hb => ?_, fun j hj hjp => ?_,
        ?_⟩⟩
      · by_cases hji : j = i
        · rw [hji, Group.node_act_self]
          exact hr4 (hji ▸ hjb)
        · rw [Group.node_act_of_ne hji]
          exact h1.known j (hlive j hj hji) hjb
      · by_cases hbi : b = i
        · rw [hbi, Group.node_act_self]
          exact hr3 hbi.symm
        · rw [Group.node_act_of_ne hbi]
          exact h1.waits (hlive b hb hbi)
      · rw [hflight]
        exact h1.silent j hj hjp
      · rw [hflight]
        refine h1.status.imp_right fun h2 => ⟨fun hp => ?_, h2.2⟩
        by_cases hpi : p = i
        · exact h2.1 (hpi ▸ hi)
        · exact h2.1 (hlive p hp hpi)
  obtain ⟨⟨hlife, hid⟩, hph⟩ := hphase
  refine ⟨h.ids, fun j hj => ?_, fun j hj => ?_, .inr hph⟩
  · by_cases hji : j = i
    · rw [hji, Group.node_act_self, hid, h.self i hi.1]
    · rw [Group.node_act_of_ne hji]
      exact h.self j hj
  · by_cases hji : j = i
    · rw [hji, Group.node_act_self]
      exact hlife
    · rw [Group.node_act_of_ne hji]
      exact h.sound j hj

/-! ### Runs -/

def AssertOk (g : Net) : Label → Prop
  | .join _ => g.JoinOk
  | .leave k => g.LeaveOk k
  | _ => True

instance (g : Net) : Decidable g.Silent :=
  inferInstanceAs (Decidable (∀ j ∈ g.members, g.flight j = []))

instance (g : Net) : Decidable g.JoinOk :=
  inferInstanceAs (Decidable (g.members = ∅ ∨ (g.Silent ∧
    (∀ j ∈ g.members, (g.node j).life = .alive →
      (g.node j).fsm = .running ∧ 0 < (g.node j).ownedSlots) ∧
    ∃ j ∈ g.members, (g.node j).life = .alive ∧ (g.node j).primaryMbr = some j)))

instance (g : Net) (k : ℕ) : Decidable (g.LeaveOk k) :=
  inferInstanceAs (Decidable (∀ j ∈ g.members, j ≠ k → ∀ msg ∈ g.flight j, Outlives k msg = true))

instance (g : Net) (a : Label) : Decidable (g.AssertOk a) :=
  match a with
  | .join _ => inferInstanceAs (Decidable g.JoinOk)
  | .leave k => inferInstanceAs (Decidable (g.LeaveOk k))
  | .deliver _ _ | .call _ _ => inferInstanceAs (Decidable True)

theorem phased_start (c : Conf) : Phased c (start c) :=
  ⟨fun _ hj => absurd hj (Finset.notMem_empty _), fun _ hj => absurd hj (Finset.notMem_empty _),
    fun _ hj => absurd hj (Finset.notMem_empty _), .inl fun _ hj => Finset.notMem_empty _ hj.1⟩

theorem Phased.step {g' : Net} {a : Label} (h : Phased c g) (hok : g.AssertOk a)
    (ht : g.step c a = some g') : Phased c g' := by
  rcases step_cases ht with ⟨i, rfl, hi, hlt, rfl⟩ | ⟨k, rfl, -, rfl⟩ |
    ⟨i, e, msg, rest, rfl, hi, hf, rfl⟩ | ⟨i, l, r, rfl, hi, hr, rfl⟩
  · exact h.joined hi hlt hok
  · exact h.left hok
  · exact h.delivered hi hf
  · exact h.act hi hr

theorem phased_of_reachable (h : Reachable (Net.step c) AssertOk (start c) g) : Phased c g :=
  h.invariant (phased_start c) fun _ _ _ hs hok ht => hs.step hok ht

/-- **No assertion fails** in a run in which a node joins a group at rest, whose primary is alive and
whose members run and own slots, and no status is in flight when a member leaves, and no donation
to this member. -/
theorem no_assertion_fails (h : Reachable (Net.step c) AssertOk (start c) g) {j : ℕ}
    (hj : j ∈ g.members) : (g.node j).life ≠ .aborted :=
  (phased_of_reachable h).sound j hj

/-- **The live members agree**, in the same runs, on the initialized members, their number, the
primary and the one member, if any, that waits for its status; this one knows nothing yet. -/
theorem members_agree (h : Reachable (Net.step c) AssertOk (start c) g) :
    ∃ wait ⊆ g.members, wait.card ≤ 1 ∧ ∃ p, ∀ j, g.Live j →
      (j ∉ wait → Knows (g.members \ wait) wait p (g.node j)) ∧ (j ∈ wait → Waits (g.node j)) := by
  rcases (phased_of_reachable h).phase with hdead | ⟨p, hs⟩ | ⟨p, b, hb⟩
  · exact ⟨∅, by simp, by simp, 0, fun j hj => absurd hj (hdead j)⟩
  · refine ⟨∅, by simp, by simp, p, fun j hj => ⟨fun _ => ?_, by simp⟩⟩
    rw [Finset.sdiff_empty]
    exact hs.known j hj
  · refine ⟨{b}, by simpa using hb.mem, by simp, p, fun j hj => ⟨fun hne => ?_, fun he => ?_⟩⟩
    · rw [Finset.sdiff_singleton_eq_erase]
      exact (hb.known j hj (by simpa using hne)).1
    · rw [Finset.mem_singleton.mp he] at hj ⊢
      exact hb.waits hj

end Steps

/-- Node 1 has joined and waits for its status. -/
theorem members_agree_two : ∃ g, Reachable (step .sample) AssertOk (start .sample) g ∧
    g.members = {0, 1} ∧ ∃ wait ⊆ g.members, wait.card ≤ 1 ∧ ∃ p, ∀ j, g.Live j →
      (j ∉ wait → Knows (g.members \ wait) wait p (g.node j)) ∧ (j ∈ wait → Waits (g.node j)) := by
  obtain ⟨g, hg, hp⟩ := exists_reachable_of_exec (step .sample) AssertOk (start .sample)
    (fun g => decide (g.members = {0, 1})) [.join 0, .call 0 .wake, .join 1] (by decide +kernel)
  exact ⟨g, hg, of_decide_eq_true hp, members_agree hg⟩

/-- Three nodes join one after the other, and the primary leaves. -/
theorem no_assertion_fails_three : ∃ g, Reachable (step .sample) AssertOk (start .sample) g ∧
    g.members = {1, 2} ∧ ∀ j ∈ g.members, (g.node j).primaryMbr = some 1 ∧
      (g.node j).life ≠ .aborted := by
  obtain ⟨g, hg, hp⟩ := exists_reachable_of_exec (step .sample) AssertOk (start .sample)
    (fun g => decide (g.members = {1, 2} ∧ ∀ j ∈ g.members, (g.node j).primaryMbr = some 1))
    [.join 0, .call 0 .wake, .join 1, .deliver 0 fun _ => .sample, .deliver 0 fun _ => .sample,
      .call 1 .wake, .join 2, .deliver 0 fun _ => .sample, .deliver 1 fun _ => .sample,
      .deliver 0 fun _ => .sample, .leave 0]
    (by decide +kernel)
  obtain ⟨h1, h2⟩ := of_decide_eq_true hp
  exact ⟨g, hg, h1, fun j hj => ⟨h2 j hj, no_assertion_fails hg hj⟩⟩

/-- Two nodes join before the first status is delivered. The primary multicasts the status for one
of them twice, and the second one makes an assertion fail. -/
theorem assertion_fails : ∃ g, Reachable (step .sample) (fun _ _ => True) (start .sample) g ∧
    (0 ∈ g.members ∧ (g.node 0).life = .aborted) := by
  obtain ⟨g, hg, hp⟩ := exists_reachable_of_exec (step .sample) (fun _ _ => True) (start .sample)
    (fun g => decide (0 ∈ g.members ∧ (g.node 0).life = .aborted))
    [.join 0, .join 1, .join 2, .deliver 0 fun _ => .sample, .deliver 0 fun _ => .sample,
      .deliver 0 fun _ => .sample]
    (by decide +kernel)
  exact ⟨g, hg, of_decide_eq_true hp⟩

end Net

end Slots

end MolIpc
