import MolIpc.Lib.Reach
import MolIpc.Slots.Handlers

/-!
The membership variables of a node: `bm_init`, `init_nodes`, `primary_mbr` and `max_owned_slots`
of an initialized node fit together, and with `bm_active`.
-/

namespace MolIpc

namespace Slots

open Reach

namespace Node

/-- **The membership variables are consistent.** `max_owned_slots` is computed at the end of
`init_systask`, and wherever `total_slots` or `init_nodes` change. -/
structure Consistent (c : Conf) (n : Node) : Prop where
  active : n.bmInit ⊆ n.bmActive
  self : n.localNodeid ∈ n.bmInit
  count : n.initNodes = n.bmInit.card
  primary : ∃ p, n.primaryMbr = some p ∧ p ∈ n.bmInit
  max : n.systask = .up → n.maxOwnedSlots = n.totalSlots - c.minOwnedSlots * (n.initNodes - 1)

/-- A node is initialized and consistent, or waits for its status and does not take itself for
initialized. -/
structure MemInv (c : Conf) (n : Node) : Prop where
  ids : n.bmActive ⊆ Finset.range c.dcNrNodes
  phase : (n.fsm.isInitialized = true ∧ Consistent c n) ∨
    (n.fsm = .waitStatus ∧ n.localNodeid ∉ n.bmInit ∧ n.primaryMbr ≠ some n.localNodeid)

section Members

variable {c : Conf} {n n' : Node} {env : Env} {members : Finset ℕ} {mbr : ℕ}

theorem Consistent.congr (h : Consistent c n) (hs : SameMem n n') : Consistent c n' where
  active := by rw [hs.init, hs.active]; exact h.active
  self := by rw [hs.id, hs.init]; exact h.self
  count := by rw [hs.count, hs.init]; exact h.count
  primary := by rw [hs.primary, hs.init]; exact h.primary
  max hu := by rw [hs.max, hs.total, hs.count]; exact h.max (hs.up hu)

theorem initialized_ne_waitStatus (hi : n.fsm.isInitialized = true) : n.fsm ≠ .waitStatus := by
  intro hw
  rw [hw] at hi
  exact absurd hi (by decide)

theorem MemInv.consistent (h : MemInv c n) (hi : n.fsm.isInitialized = true) : Consistent c n := by
  rcases h.phase with h1 | ⟨h1, -⟩
  · exact h1.2
  · exact absurd h1 (initialized_ne_waitStatus hi)

theorem MemInv.congr (h : MemInv c n) (hi : n.fsm.isInitialized = true) (hs : SameMem n n') :
    MemInv c n' :=
  ⟨hs.active.symm ▸ h.ids, .inl ⟨hs.initialized hi, (h.consistent hi).congr hs⟩⟩

theorem MemInv.sameFsm (h : MemInv c n) (hs : SameMem n n') (hf : n'.fsm = n.fsm) :
    MemInv c n' := by
  refine ⟨hs.active.symm ▸ h.ids, h.phase.imp (fun hc => ⟨hf.symm ▸ hc.1, hc.2.congr hs⟩) ?_⟩
  rintro ⟨hw, hno, hp⟩
  rw [hs.id, hs.init, hs.primary]
  exact ⟨hf.trans hw, hno, hp⟩

theorem MemInv.waiting (h : MemInv c n) (hi : n.fsm.isInitialized = false) :
    n.fsm = .waitStatus ∧ n.localNodeid ∉ n.bmInit ∧ n.primaryMbr ≠ some n.localNodeid := by
  rcases h.phase with h1 | h1
  · rw [h1.1] at hi
    exact absurd hi (by decide)
  · exact h1

/-! ### Membership events -/

/-- The members that Spread reports: nodes of the DC, the node itself among them. -/
def View (c : Conf) (n : Node) (members : Finset ℕ) : Prop :=
  members ⊆ Finset.range c.dcNrNodes ∧ n.localNodeid ∈ members

/-- A join: the group gets larger, and the new member has no slot that is to be reclaimed. -/
def JoinOk (c : Conf) (n : Node) (mbr : ℕ) (members : Finset ℕ) : Prop :=
  View c n members ∧
  (n.fsm.isInitialized = true → n.bmInit ⊆ members ∧ (n.systask = .up → n.lost c mbr = ∅))

theorem MemInv.spJoin (h : MemInv c n) (hm : mbr ≠ n.localNodeid) (hok : JoinOk c n mbr members) :
    MemInv c ((n.setView members).spJoin c mbr).1 := by
  cases hi : n.fsm.isInitialized with
  | false =>
    obtain ⟨hw, hself, hp⟩ := h.waiting hi
    rw [spJoin_waiting (n := n.setView members) hm hw]
    exact ⟨hok.1.1, .inr ⟨hw, hself, hp⟩⟩
  | true =>
    have hc := h.consistent hi
    obtain ⟨hsub, hlost⟩ := hok.2 hi
    have hw : (n.setView members).fsm ≠ .waitStatus := initialized_ne_waitStatus hi
    rw [spJoin_other (n := n.setView members) hm hw]
    have h1 : MemInv c (((n.setView members).addWaitsts mbr).reclaim c mbr) := by
      refine ⟨hok.1.1, .inl ⟨hi, hsub, hc.self, hc.count, hc.primary, fun hu => ?_⟩⟩
      have ht : (((n.setView members).addWaitsts mbr).lost c mbr).card = 0 := by
        rw [Finset.card_eq_zero]
        exact hlost hu
      have htot : (((n.setView members).addWaitsts mbr).reclaim c mbr).totalSlots =
          n.totalSlots := by
        simp only [reclaim, ht]
        exact Int.add_zero _
      rw [htot]
      exact hc.max hu
    exact h1.congr hi ((SameMem.clearRqsts _).trans
      ((SameMem.primaryStsMcast c _).trans (SameMem.newRqstSlots _ _)))

/-- The node does not begin a merge as a running primary: `sp_net_merge` then counts `total_slots`
again, with the slots of system processes, and does not compute `max_owned_slots`. -/
def NoPrimaryMerge (n : Node) : Prop :=
  n.systask = .up → n.fsm.isRunning = true → n.primaryMbr ≠ some n.localNodeid

theorem MemInv.spNetMerge (h : MemInv c n) (hi : n.fsm.isInitialized = true)
    (hok : NoPrimaryMerge n) : MemInv c (n.spNetMerge c env).1 := by
  have hc := h.consistent hi
  simp only [Node.spNetMerge]
  split_ifs with h1 h2
  · exact ⟨h.ids, .inl ⟨hi, hc.active, hc.self, hc.count, hc.primary, hc.max⟩⟩
  · exact ⟨h.ids, .inl ⟨hi, hc.active, hc.self, hc.count, hc.primary, hc.max⟩⟩
  · refine ⟨h.ids, .inl ⟨hi, hc.active, hc.self, hc.count, hc.primary, fun hu => ?_⟩⟩
    refine absurd (not_not.1 h2) (hok hu ?_)
    simpa [startMerge, clearRqsts, copyToMrg, Fsm.isRunning] using h1

/-- A disconnect: the other members stay, and during a merge no initialized member goes. -/
def LeaveOk (c : Conf) (n : Node) (mbr : ℕ) (members : Finset ℕ) : Prop :=
  View c n members ∧ mbr ≠ n.localNodeid ∧
  (n.fsm.isInitialized = true →
    if n.fsm.merging then n.bmInit ⊆ members ∧ NoPrimaryMerge n
    else n.bmInit.erase mbr ⊆ members)

theorem MemInv.spDisconnect (h : MemInv c n) (hok : LeaveOk c n mbr members)
    (hlife : ((n.setView members).spDisconnect c env mbr).1.life = .alive) :
    MemInv c ((n.setView members).spDisconnect c env mbr).1 := by
  obtain ⟨⟨hids, hself⟩, hm, hini⟩ := hok
  obtain ⟨q, hq⟩ := elect_eq c ((n.setView members).forget mbr) mbr
  have hs := reallocate_frame (c := c) (n.setView members) mbr
  rw [hq] at hs
  have hne : ¬(n.setView members).localNodeid = mbr := fun hq => hm hq.symm
  cases hi : n.fsm.isInitialized with
  | false =>
    obtain ⟨hw, hno, hp⟩ := h.waiting hi
    have hpe : q ≠ some n.localNodeid := by
      obtain rfl : (((n.setView members).forget mbr).elect c mbr).primaryMbr = q :=
        congrArg Node.primaryMbr hq
      unfold elect
      split_ifs
      · exact fun hq => hno (mem_forget.1 (getPrimaryMbr_mem hq)).2
      · exact hp
    have hfw : ((n.setView members).reallocate c mbr).fsm = .waitStatus := by
      rw [reallocate, hq, fsm_foldl_discSlot hpe]
      exact hw
    have hf : (n.setView members).fsm = .waitStatus := hw
    simp only [Node.spDisconnect, hf, if_neg hne] at hlife ⊢
    split_ifs at hlife ⊢ with h1 h2 h3 h4
    · simp [restart] at hlife
    · exact absurd h2 (by decide)
    · simp [restart] at hlife
    · exact absurd hlife h4
    · refine ⟨?_, .inr ⟨hfw, ?_, ?_⟩⟩
      · rw [hs.active]
        exact hids
      · rw [hs.id, hs.init]
        exact fun hq => hno (mem_forget.1 hq).2
      · rw [hs.primary, hs.id]
        exact hpe
  | true =>
    have hc := h.consistent hi
    have hif : (n.setView members).fsm.isInitialized = true := hi
    simp only [Node.spDisconnect, if_neg hne, hif, Bool.true_eq_false, false_and, if_false]
      at hlife ⊢
    have hok := hini hi
    cases hg : n.fsm.merging with
    | true =>
      rw [hg, if_pos rfl] at hok
      rw [if_pos (show (n.setView members).fsm.merging = true from hg)]
      have h1 : MemInv c (n.setView members) :=
        ⟨hids, .inl ⟨hi, hok.1, hc.self, hc.count, hc.primary, hc.max⟩⟩
      exact h1.spNetMerge hi hok.2
    | false =>
      rw [hg] at hok
      have hgf : ¬(n.setView members).fsm.merging = true := by simp [setView, hg]
      have hself' : n.localNodeid ∈ ((n.setView members).forget mbr).bmInit :=
        mem_forget.2 ⟨Ne.symm hm, hc.self⟩
      have hold : ∃ p, n.primaryMbr = some p ∧
          (p ≠ mbr → p ∈ ((n.setView members).forget mbr).bmInit) := by
        obtain ⟨p, hp, hpm⟩ := hc.primary
        exact ⟨p, hp, fun hpn => mem_forget.2 ⟨hpn, hpm⟩⟩
      obtain ⟨p, hp, hpm⟩ := primary_elect hself' (Finset.mem_range.1 (hids hself)) hold
      rw [if_neg hgf, if_neg (by rw [hp]; simp)] at hlife ⊢
      rw [hq] at hp
      have hcon : MemInv c (setMax c (((n.setView members).forget mbr).setPrimary q)) :=
        ⟨hids, .inl ⟨hi, hok, hself', initNodes_forget (n := n.setView members) hc.count,
          ⟨p, hp, hpm⟩, fun _ => rfl⟩⟩
      split_ifs at hlife ⊢ with h1 h2
      · exact absurd hlife h1
      · exact hcon.congr hi hs
      · exact hcon.congr hi (hs.trans ((SameMem.primaryStsMcast c _).trans
          ((SameMem.clearRqsts _).trans (SameMem.newRqstSlots _ _))))

theorem memInv_goOn (hids : n.bmActive ⊆ Finset.range c.dcNrNodes)
    (hi : n.fsm.isInitialized = true) (hact : n.bmInit ⊆ n.bmActive)
    (hself : n.localNodeid ∈ n.bmInit) (hprim : ∃ p, n.primaryMbr = some p ∧ p ∈ n.bmInit) :
    MemInv c (n.goOn c).1 := by
  obtain ⟨w, f, d, hf, he⟩ := goOn_eq c n
  rw [he]
  exact ⟨hids, .inl ⟨hf hi, hact, hself, getInitNodes_eq (hact.trans hids), hprim, fun _ => rfl⟩⟩

theorem MemInv.spNetPartition (h : MemInv c n) (hv : View c n members)
    (hlife : ((n.setView members).spNetPartition c).1.life = .alive) :
    MemInv c ((n.setView members).spNetPartition c).1 := by
  cases hi : n.fsm.isInitialized with
  | false =>
    obtain ⟨hw, hno, hp⟩ := h.waiting hi
    rw [Node.spNetPartition, if_pos (show (n.setView members).mask.fsm = .waitStatus from hw)]
    exact ⟨hv.1, .inr ⟨hw, fun hq => hno (Finset.mem_inter.1 hq).1, hp⟩⟩
  | true =>
    have hself : n.localNodeid ∈ n.bmInit ∩ members :=
      Finset.mem_inter.2 ⟨(h.consistent hi).self, hv.2⟩
    rcases spNetPartition_cases (c := c) (n := n.setView members) (initialized_ne_waitStatus hi) with
      ⟨⟨p, hpm, hpp⟩, he⟩ | ⟨-, -, he⟩ | ⟨-, hnone, -⟩
    · rw [he]
      exact memInv_goOn hv.1 hi Finset.inter_subset_right hself ⟨p, hpp, hpm⟩
    · rw [he] at hlife
      simp [restart] at hlife
    · obtain ⟨p, hp, -⟩ := getPrimaryMbr_exists (c := c) hself (Finset.mem_range.1 (hv.1 hv.2))
      exact absurd (hp.symm.trans hnone) (by simp)

/-! ### Status messages -/

/-- A status for another node reaches a running node, or one that waits for its own; one for the
node itself names active members, its sender among them. -/
def PutOk (n : Node) (source dest : ℕ) (bi : Finset ℕ) : Prop :=
  if dest = n.localNodeid then
    n.fsm = .waitStatus → insert n.localNodeid (n.bmInit ∪ bi) ⊆ n.bmActive ∧
      source ∈ insert n.localNodeid (n.bmInit ∪ bi) ∧ n.systask ≠ .up
  else if n.fsm.isInitialized then n.fsm.isRunning = true ∧ dest ∈ n.bmActive
  else source ≠ n.localNodeid

section Put

variable {source dest : ℕ} {bi bw : Finset ℕ} {tbl : ℕ → Slot}

theorem memInv_ownStatus (hids : n.bmActive ⊆ Finset.range c.dcNrNodes)
    (hp : n.primaryMbr = some source)
    (hsub : insert n.localNodeid (n.bmInit ∪ bi) ⊆ n.bmActive)
    (hsrc : source ∈ insert n.localNodeid (n.bmInit ∪ bi)) (hu : n.systask ≠ .up) :
    MemInv c (n.ownStatus c bi bw tbl) :=
  ⟨hids, .inl ⟨rfl, hsub, Finset.mem_insert_self _ _, getInitNodes_eq (hsub.trans hids),
    ⟨source, hp, hsrc⟩, fun hup => absurd hup hu⟩⟩

theorem memInv_addInit (h : MemInv c n) (hi : n.fsm.isInitialized = true) (hd : dest ∉ n.bmInit)
    (hda : dest ∈ n.bmActive) : MemInv c (n.addInit c dest) := by
  have hc := h.consistent hi
  obtain ⟨p, hp, hpm⟩ := hc.primary
  refine ⟨h.ids, .inl ⟨hi, Finset.insert_subset hda hc.active, Finset.mem_insert_of_mem hc.self, ?_,
    ⟨p, hp, Finset.mem_insert_of_mem hpm⟩, fun _ => rfl⟩⟩
  have hcard := Finset.card_insert_of_notMem hd
  have hcnt := hc.count
  change n.initNodes + 1 = ((insert dest n.bmInit).card : ℤ)
  omega

theorem MemInv.putStatus (h : MemInv c n) (hok : PutOk n source dest bi)
    (hlife : (n.onMessage c env source (.putStatus dest bi bw tbl)).1.life = .alive) :
    MemInv c (n.onMessage c env source (.putStatus dest bi bw tbl)).1 := by
  simp only [onMessage] at hlife ⊢
  cases hi : n.fsm.isInitialized with
  | false =>
    obtain ⟨hw, hno, -⟩ := h.waiting hi
    simp only [Bool.false_eq_true, if_false, spPutStatus]
    by_cases hd : dest = n.localNodeid
    · rw [PutOk, if_pos hd] at hok
      obtain ⟨hsub, hsrc, hu⟩ := hok hw
      rw [if_neg (by simpa [setPrimary] using hd), if_neg (by simp [setPrimary, hw])]
      exact memInv_ownStatus (n := n.setPrimary (some source)) h.ids rfl hsub hsrc hu
    · rw [PutOk, if_neg hd, hi] at hok
      have hr : (Node.dropWaitsts (n.setPrimary (some source)) dest).fsm.isRunning = false := by
        simp [dropWaitsts, setPrimary, hw, Fsm.isRunning, Fsm.waitStatus]
      rw [if_pos (by simpa [setPrimary] using hd), if_neg (by simp [hr])]
      refine ⟨h.ids, .inr ⟨hw, ?_, fun hq => hok (Option.some.inj hq)⟩⟩
      exact fun hq => (Finset.mem_insert.1 hq).elim (fun he => hd he.symm) hno
  | true =>
    simp only [hi, if_true, spPutStatus] at hlife ⊢
    by_cases hd : dest = n.localNodeid
    · rw [if_neg (by simpa using hd), if_pos (initialized_ne_waitStatus hi)]
      exact h
    · rw [PutOk, if_neg hd, hi, if_pos rfl] at hok
      rw [if_pos hd, if_pos (show (n.dropWaitsts dest).fsm.isRunning = true from hok.1)] at hlife ⊢
      have h1 : MemInv c (n.dropWaitsts dest) :=
        ⟨h.ids, .inl ⟨hi, (h.consistent hi).active, (h.consistent hi).self,
          (h.consistent hi).count, (h.consistent hi).primary, (h.consistent hi).max⟩⟩
      have hs := SameMem.primaryStsMcast c (n.dropWaitsts dest)
      have h2 := h1.congr hi hs
      simp only [andThen] at hlife ⊢
      split_ifs at hlife ⊢ with ha
      · simp [abort] at hlife
      · rw [not_or, not_not] at ha
        refine (memInv_addInit h2 (hs.initialized hi) ha.2 ?_).congr (hs.initialized hi)
          (SameMem.spReqSlots _ _ _)
        rw [hs.active]
        exact hok.2

end Put

/-! ### Merges -/

/-- The members of the merge are active, the node itself among them, and so are those that a message
of another partition brings. If SYSTASK is up, such a message is the last one: it has the last slot
without the mark of a partition, or the table of the merge has it so, or with an owner that is not
active. -/
def CommitOk (c : Conf) (n : Node) (env : Env) (sender : ℕ) (bi : Finset ℕ) (tbl : ℕ → Slot) :
    Prop :=
  n.fsm.merging = true → n.bmInitMrg ⊆ n.bmActive ∧ n.localNodeid ∈ n.bmInitMrg ∧
    (sender ∉ n.bmInit → bi ⊆ n.bmActive ∧ (n.systask = .up →
      (readPart c tbl env (c.nrSlots - 1)).partition = false ∨ n.lastPending c = false))

section Merge

variable {sender : ℕ} {bi bw : Finset ℕ} {tbl : ℕ → Slot}

theorem memInv_commit (hids : n.bmActive ⊆ Finset.range c.dcNrNodes)
    (hi : n.fsm.isInitialized = true) (hsub : n.bmInitMrg ⊆ n.bmActive)
    (hself : n.localNodeid ∈ n.bmInitMrg) : MemInv c (n.commit c).1 := by
  obtain ⟨p, hp, hpm⟩ := getPrimaryMbr_exists (c := c) hself
    (Finset.mem_range.1 (hids (hsub hself)))
  generalize hb : (setMax c { n.copyFromMrg.clearRqsts with
    initNodes := getInitNodes c n.copyFromMrg.bmInit }).setPrimary
      (getPrimaryMbr c n.bmInitMrg) = b
  have h1 : MemInv c b := by
    subst hb
    exact ⟨hids, .inl ⟨hi, hsub, hself, getInitNodes_eq (hsub.trans hids), ⟨p, hp, hpm⟩,
      fun _ => rfl⟩⟩
  have hbi : b.fsm.isInitialized = true := by subst hb; exact hi
  have hbp : b.primaryMbr ≠ none := by
    subst hb
    simp [setPrimary, hp]
  have he : n.commit c = andThen (b.primaryStsMcast c) fun n =>
      if n.ownedSlots = 0 then n.newRqstSlots c.minOwnedSlots
      else ({ n with fsm := .running }, []) := by
    subst hb
    exact if_neg hbp
  rw [he]
  simp only [andThen]
  split_ifs
  · exact h1.congr hbi ((SameMem.primaryStsMcast c _).trans (SameMem.newRqstSlots _ _))
  · exact h1.congr hbi ((SameMem.primaryStsMcast c _).trans
      ⟨rfl, rfl, rfl, rfl, rfl, rfl, rfl, rfl, fun h => h, fun _ => rfl, fun _ => rfl⟩)

theorem lastPending_mergePart {part : ℕ → Slot}
    (hl : (part (c.nrSlots - 1)).partition = false ∨ n.lastPending c = false) :
    (n.mergePart c bi bw part).lastPending c = false := by
  by_cases ht : c.nrSlots - 1 ∈ taken c part
  · simp [lastPending, mergePart, ht]
  · have hlast : n.lastPending c = false := by
      refine hl.resolve_left fun hp => ht (Finset.mem_filter.2 ⟨?_, hp⟩)
      have := c.sysprocs_lt
      simp only [Conf.shared, Conf.nrSlots, Finset.mem_Ico]
      omega
    simpa [lastPending, mergePart, ht, ownerIn] using hlast

theorem MemInv.spMergeStatus (h : MemInv c n) (hok : CommitOk c n env sender bi tbl) :
    MemInv c (n.spMergeStatus c env sender bi bw tbl).1 := by
  simp only [Node.spMergeStatus]
  split_ifs with hg hp
  · exact ⟨Finset.empty_subset _, .inr ⟨rfl, Finset.notMem_empty _, by
      simp [Node.initGlobalVars]⟩⟩
  all_goals
    have hg' : n.fsm.merging = true := by simpa using hg
    have hi : n.fsm.isInitialized = true := by
      by_contra hi
      rw [(h.waiting (by simpa using hi)).1] at hg'
      exact absurd hg' (by decide)
    have hc := h.consistent hi
    obtain ⟨hsub, hself, hother⟩ := hok hg'
    unfold merged at *
    by_cases hs : sender ∈ n.bmInit
    · simp only [hs, not_true, if_false] at hp ⊢
      first | exact h | exact memInv_commit h.ids hi hsub hself
    obtain ⟨hbi, hlast⟩ := hother hs
    simp only [hs, not_false_iff, if_true] at hp ⊢
  · refine ⟨h.ids, .inl ⟨hi, hc.active, hc.self, hc.count, hc.primary, fun hu => ?_⟩⟩
    have hno : sender ∉ (n.mergePart c bi bw (readPart c tbl env)).bmInit := hs
    rw [pending, if_pos hno, lastPending_mergePart (hlast hu)] at hp
    exact absurd hp Bool.false_ne_true
  · exact memInv_commit h.ids hi (Finset.union_subset hsub hbi) (Finset.mem_union_left _ hself)

end Merge

/-! ### Runs -/

/-- The condition on a step under which the membership variables stay consistent. -/
def MemberOk (c : Conf) (n : Node) : Act → Prop
  | .event _ (.join mbr members) => JoinOk c n mbr members
  | .event _ (.disconnect mbr members) => LeaveOk c n mbr members
  | .event _ (.network members) =>
    View c n members ∧ (bmWord n.bmActive < bmWord members →
      n.fsm.isInitialized = true ∧ n.bmInit ⊆ members ∧ NoPrimaryMerge n)
  | .event _ (.message source (.putStatus dest bi _ _)) => PutOk n source dest bi
  | .event env (.message source (.mergeStatus bi _ tbl)) => CommitOk c n env source bi tbl
  | _ => True

theorem MemInv.handle {e : Event} (h : MemInv c n) (hj : n.ownJoin e = false)
    (hok : MemberOk c n (.event env e)) (hlife : (n.handle c env e).1.life = .alive) :
    MemInv c (n.handle c env e).1 := by
  unfold Node.handle at hlife ⊢
  split_ifs at hlife ⊢ with hl
  · exact h
  cases e with
  | join mbr members =>
    exact h.spJoin (by simpa [ownJoin] using hj) hok
  | disconnect mbr members => exact h.spDisconnect hok hlife
  | network members =>
    simp only [networkChange] at hlife ⊢
    split_ifs at hlife ⊢ with h1 h2
    · exact h.spNetPartition hok.1 hlife
    · obtain ⟨hi, hsub, hcnt⟩ := hok.2 h2
      have hc := h.consistent hi
      have hv : MemInv c (n.setView members) :=
        ⟨hok.1.1, .inl ⟨hi, hsub, hc.self, hc.count, hc.primary, hc.max⟩⟩
      exact hv.spNetMerge hi hcnt
    · exact h
  | message source msg =>
    cases msg with
    | putStatus dest bi bw tbl => exact h.putStatus hok hlife
    | mergeStatus bi bw tbl => exact h.spMergeStatus hok
    | reqSlots needed =>
      cases hi : n.fsm.isInitialized with
      | true => exact h.congr hi (SameMem.spReqSlots _ _ _)
      | false => simpa [onMessage, Node.spReqSlots, hi] using h
    | donSlots dst nr ia =>
      cases hi : n.fsm.isInitialized with
      | true => exact h.congr hi (SameMem.spDonSlots _ _ _ _ _ _)
      | false =>
        have hs := SameMem.spDonSlots (c := c) n env source dst nr ia
        obtain ⟨hw, hno, hp⟩ := h.waiting hi
        have hf : (n.spDonSlots c env source dst nr ia).1.fsm = n.fsm := by
          simp only [Node.spDonSlots]
          split_ifs with h1 h2 h3 h4
          all_goals first
            | rfl
            | exact absurd hi h3
        exact h.sameFsm hs hf

theorem MemInv.wake (h : MemInv c n) : MemInv c (n.wake c).1 := by
  simp only [Node.wake]
  split_ifs
  · exact h.sameFsm (.of_parts rfl) rfl
  · have hs : SameMem n { n with systask := .asleep, retries := n.retries - 1 } :=
      ⟨rfl, rfl, rfl, rfl, rfl, rfl, rfl, rfl, by simp, fun h => h, fun h => h⟩
    exact h.sameFsm (hs.trans (SameMem.mcastRqstSlots _ _)) (fsm_mcastRqstSlots _ _)
  · refine ⟨h.ids, h.phase.imp (fun hc => ⟨hc.1, ?_⟩) fun hw => hw⟩
    exact ⟨hc.2.active, hc.2.self, hc.2.count, hc.2.primary, fun _ => rfl⟩

theorem memInv_start {k : ℕ} (hk : k ∈ members) (hm : members ⊆ Finset.range c.dcNrNodes) :
    MemInv c (start c k members) := by
  by_cases hone : members.card = 1
  · rw [start_of_card_eq_one hone]
    obtain ⟨a, rfl⟩ := Finset.card_eq_one.1 hone
    obtain rfl := Finset.mem_singleton.1 hk
    exact ⟨hm, .inl ⟨rfl, by simp [lonelyJoin, setView, init], by simp [lonelyJoin, setView, init],
      by simp [lonelyJoin, setView, init], ⟨k, rfl, by simp [lonelyJoin, setView, init]⟩,
      by simp [lonelyJoin, setView, init, Systask.signal]⟩⟩
  · rw [start_of_card_ne_one hone]
    exact ⟨hm, .inr ⟨rfl, by simp [awaitStatus, setView, init],
      by simp [awaitStatus, setView, init]⟩⟩

/-- **The membership variables** are consistent in every run of a node whose steps meet the
condition. -/
theorem members_consistent {k : ℕ} (hk : k ∈ members) (hm : members ⊆ Finset.range c.dcNrNodes)
    (h : Reachable (step c) (MemberOk c) (start c k members) n) (hl : n.life = .alive)
    (hi : n.fsm.isInitialized = true) :
    n.bmInit ⊆ n.bmActive ∧ n.localNodeid ∈ n.bmInit ∧ n.initNodes = n.bmInit.card ∧
    (∃ p, n.primaryMbr = some p ∧ p ∈ n.bmInit) ∧
    (n.systask = .up →
      n.maxOwnedSlots = n.totalSlots - c.minOwnedSlots * (n.initNodes - 1)) := by
  have hinv : n.life = .alive → MemInv c n := by
    refine h.invariant (I := fun n => n.life = .alive → MemInv c n)
      (fun _ => memInv_start hk hm) fun n a n' ih hok ht hl' => ?_
    cases a with
    | event env e =>
      simp only [step] at ht
      split_ifs at ht with hc
      cases ht
      exact (ih hc.1).handle hc.2 hok hl'
    | call j =>
      simp only [step, Option.map_eq_some_iff] at ht
      obtain ⟨r, hr, rfl⟩ := ht
      have hal : n.life = .alive := alive_of_call hr
      by_cases hj : j = .wake
      · subst hj
        rw [(call_wake hr).2]
        exact (ih hal).wake
      · obtain ⟨hs, hf⟩ := call_frame hj hr
        exact (ih hal).sameFsm hs hf
  have hc := (hinv hl).consistent hi
  exact ⟨hc.active, hc.self, hc.count, hc.primary, hc.max⟩

end Members

/-- The only node of the group after SYSTASK has started. -/
theorem members_consistent_lonely : ∃ n, Reachable (step .sample) (MemberOk .sample)
    (start .sample 0 {0}) n ∧ n.systask = .up ∧ n.initNodes = 1 ∧ n.maxOwnedSlots = 8 := by
  have hr : Reachable (step .sample) (MemberOk .sample) (start .sample 0 {0})
      ((start .sample 0 {0}).wake .sample).1 :=
    .step .init (a := .call .wake) trivial rfl
  have h := members_consistent (by decide) (by decide) hr rfl rfl
  exact ⟨_, hr, rfl, h.2.2.1.trans (by decide), (h.2.2.2.2 rfl).trans (by decide)⟩

/-- A member without slots is initialized but not running: it does not count another initialized
member. -/
theorem members_inconsistent : ∃ n, Reachable (step .sample) (fun _ _ => True)
    (start .sample 1 {0, 1}) n ∧ n.life = .alive ∧ n.fsm.isInitialized = true ∧
      n.initNodes = 2 ∧ n.bmInit.card = 3 ∧
      n.maxOwnedSlots ≠ n.totalSlots - Conf.sample.minOwnedSlots * (n.initNodes - 1) := by
  obtain ⟨n, hn, hp⟩ := exists_reachable_of_exec (step .sample) (fun _ _ => True)
    (start .sample 1 {0, 1})
    (fun n => decide (n.life = .alive ∧ n.fsm.isInitialized = true ∧ n.initNodes = 2 ∧
      n.bmInit.card = 3 ∧
      n.maxOwnedSlots ≠ n.totalSlots - Conf.sample.minOwnedSlots * (n.initNodes - 1)))
    [.event .sample (.message 0 (.putStatus 1 {0} {1} (start .sample 0 {0}).slot)),
      .event .sample (.message 0 (.donSlots 1 0 [0, 0, 0, 0])),
      .event .sample (.join 2 {0, 1, 2}),
      .event .sample (.message 0 (.putStatus 2 {0, 1} {2} (start .sample 0 {0}).slot))]
    (by decide +kernel)
  exact ⟨n, hn, of_decide_eq_true hp⟩

end Node

end Slots

end MolIpc
