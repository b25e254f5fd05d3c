import MolIpc.Slots.NextMbr
import MolIpc.Slots.Systask

/-!
What the parts of the handlers leave as it is: requests, replies and donations do not touch the
membership variables, and an initialized node stays initialized.
-/

namespace MolIpc

namespace Slots

variable {i p : ℕ}

section Ring

variable {c : Conf} {bm : Finset ℕ} {node : Option ℕ}

theorem getPrimaryMbr_mem (h : getPrimaryMbr c bm = some p) : p ∈ bm := by
  simpa using List.find?_some h

theorem getPrimaryMbr_exists (hi : i ∈ bm) (hlt : i < c.dcNrNodes) :
    ∃ p, getPrimaryMbr c bm = some p ∧ p ∈ bm := by
  have hs : (getPrimaryMbr c bm).isSome := by
    rw [getPrimaryMbr, List.find?_isSome]
    exact ⟨i, List.mem_range.2 hlt, by simpa using hi⟩
  obtain ⟨p, hp⟩ := Option.isSome_iff_exists.1 hs
  exact ⟨p, hp, getPrimaryMbr_mem hp⟩

theorem getInitNodes_eq (h : bm ⊆ Finset.range c.dcNrNodes) : getInitNodes c bm = bm.card := by
  rw [getInitNodes, Finset.filter_mem_eq_inter, Finset.inter_eq_right.2 h]

@[simp] theorem getNextMbr_empty : getNextMbr c node ∅ = none := by
  simp [getNextMbr]

theorem getNextMbr_exists (hi : i ∈ bm) (hlt : i < c.dcNrNodes) :
    ∃ k, getNextMbr c node bm = some k ∧ k ∈ bm := by
  have h0 : 0 < c.dcNrNodes := by omega
  obtain ⟨k, hk⟩ := RingWalk.exists_next (Nat.mod_lt (node.getD 0) h0) hi hlt
  rw [getNextMbr_eq]
  exact ⟨k, (nextMbr_eq_some h0).2 hk, hk.mem⟩

end Ring

namespace Node

/-! ### What the parts of the handlers change -/

theorem mcastRqstSlots_eq (n : Node) (k : ℤ) :
    ∃ d, (n.mcastRqstSlots k).1 = { n with bmDonors := d } := by
  simp only [mcastRqstSlots]
  split_ifs <;> exact ⟨_, rfl⟩

theorem newRqstSlots_eq (n : Node) (k : ℤ) :
    ∃ f d, (f = n.fsm ∨ f = .reqSlots) ∧
      (n.newRqstSlots k).1 = { n with fsm := f, bmDonors := d } := by
  unfold newRqstSlots
  split_ifs
  · obtain ⟨d, hd⟩ := mcastRqstSlots_eq { n with fsm := .reqSlots } k
    exact ⟨_, d, .inr rfl, hd⟩
  · exact ⟨_, _, .inl rfl, rfl⟩

theorem primaryStsMcast_eq (c : Conf) (n : Node) :
    ∃ w, (n.primaryStsMcast c).1 = { n with waitstsMbr := w } := by
  unfold primaryStsMcast
  split_ifs
  · dsimp only
    split
    · exact ⟨_, rfl⟩
    · exact ⟨_, rfl⟩
  · exact ⟨_, rfl⟩

theorem elect_eq (c : Conf) (n : Node) (mbr : ℕ) : ∃ q, n.elect c mbr = n.setPrimary q := by
  unfold elect
  split_ifs
  · exact ⟨_, rfl⟩
  · exact ⟨n.primaryMbr, rfl⟩

structure SameMem (n n' : Node) : Prop where
  id : n'.localNodeid = n.localNodeid
  active : n'.bmActive = n.bmActive
  init : n'.bmInit = n.bmInit
  waitsts : n'.bmWaitsts = n.bmWaitsts
  count : n'.initNodes = n.initNodes
  primary : n'.primaryMbr = n.primaryMbr
  total : n'.totalSlots = n.totalSlots
  max : n'.maxOwnedSlots = n.maxOwnedSlots
  up : n'.systask = .up → n.systask = .up
  initialized : n.fsm.isInitialized = true → n'.fsm.isInitialized = true
  merging : n.fsm.merging = false → n'.fsm.merging = false

namespace SameMem

variable {n n' n'' : Node} {c : Conf}

def parts (n : Node) :=
  (n.localNodeid, n.bmActive, n.bmInit, n.bmWaitsts, n.initNodes, n.primaryMbr, n.totalSlots,
    n.maxOwnedSlots, n.systask, n.fsm)

theorem of_parts (h : parts n' = parts n) : SameMem n n' := by
  simp only [parts, Prod.mk.injEq] at h
  obtain ⟨h1, h2, h3, h4, h5, h6, h7, h8, h9, h10⟩ := h
  exact ⟨h1, h2, h3, h4, h5, h6, h7, h8, fun hu => h9 ▸ hu, fun hi => h10 ▸ hi, fun hg => h10 ▸ hg⟩

theorem refl (n : Node) : SameMem n n := of_parts rfl

theorem trans (h : SameMem n n') (h' : SameMem n' n'') : SameMem n n'' :=
  ⟨h'.id.trans h.id, h'.active.trans h.active, h'.init.trans h.init,
    h'.waitsts.trans h.waitsts, h'.count.trans h.count, h'.primary.trans h.primary,
    h'.total.trans h.total, h'.max.trans h.max, fun hu => h.up (h'.up hu),
    fun hi => h'.initialized (h.initialized hi), fun hg => h'.merging (h.merging hg)⟩

theorem clearRqsts (n : Node) : SameMem n n.clearRqsts := of_parts rfl

theorem mcastRqstSlots (n : Node) (k : ℤ) : SameMem n (n.mcastRqstSlots k).1 := by
  obtain ⟨d, hd⟩ := mcastRqstSlots_eq n k
  rw [hd]
  exact of_parts rfl

theorem newRqstSlots (n : Node) (k : ℤ) : SameMem n (n.newRqstSlots k).1 := by
  obtain ⟨f, d, rfl | rfl, hd⟩ := newRqstSlots_eq n k <;> rw [hd]
  · exact of_parts rfl
  · exact ⟨rfl, rfl, rfl, rfl, rfl, rfl, rfl, rfl, fun h => h, fun _ => rfl, fun _ => rfl⟩

theorem primaryStsMcast (c : Conf) (n : Node) : SameMem n (n.primaryStsMcast c).1 := by
  obtain ⟨w, hw⟩ := primaryStsMcast_eq c n
  rw [hw]
  exact of_parts rfl

theorem reply (n : Node) (requester : ℕ) (donated : ℤ) :
    SameMem n (n.reply c requester donated).1 := by
  unfold Node.reply
  split_ifs <;> exact of_parts rfl

theorem spReqSlots (n : Node) (requester : ℕ) (needed : ℤ) :
    SameMem n (n.spReqSlots c requester needed).1 := by
  unfold Node.spReqSlots
  split_ifs
  all_goals first
    | exact reply n _ _
    | exact of_parts rfl

theorem receive (n : Node) (source : ℕ) (nr : ℤ) : SameMem n (n.receive c source nr).1 := by
  refine SameMem.trans ?_ (newRqstSlots _ _)
  split_ifs
  · exact ⟨rfl, rfl, rfl, rfl, rfl, rfl, rfl, rfl, Systask.signal_eq_up.1, fun _ => rfl, fun _ => rfl⟩
  · exact of_parts rfl

theorem spDonSlots (n : Node) (env : Env) (source dst : ℕ) (nr : ℤ) (ia : List ℕ) :
    SameMem n (n.spDonSlots c env source dst nr ia).1 := by
  simp only [Node.spDonSlots, replyPending]
  split_ifs
  all_goals first
    | exact of_parts rfl
    | exact (of_parts rfl : SameMem n (n.record dst (ia.take nr.toNat))).trans (receive _ _ _)

end SameMem

/-- **What a turn of the loop of `sp_disconnect` can do** with the slot `i`. -/
structure DiscTurn (n n' : Node) (i : ℕ) : Prop extends SameMem n n' where
  others : ∀ j, j ≠ i → n'.slot j = n.slot j ∧ n'.desc j = n.desc j
  fsm : n'.fsm = n.fsm ∨ (n.primaryMbr = some n.localNodeid ∧ n'.fsm = .running)
  owned : n.ownedSlots ≤ n'.ownedSlots
  life : n'.life = n.life ∨ n'.life = .gone

namespace DiscTurn

theorem inherit (n : Node) (i : ℕ) : DiscTurn n (n.inherit i) i := by
  simp only [Node.inherit]
  split_ifs with hp
  · exact ⟨⟨rfl, rfl, rfl, rfl, rfl, rfl, rfl, rfl, Systask.signal_eq_up.1, fun _ => rfl, fun _ => rfl⟩,
      fun j hj => by simp [setOwner, startRunning, hj], .inr ⟨hp, rfl⟩, by simp [startRunning],
      .inl rfl⟩
  · exact ⟨.of_parts rfl, fun j hj => by simp [setOwner, hj], .inl rfl, by simp, .inl rfl⟩
  · exact ⟨.of_parts rfl, fun j hj => by simp [setOwner, hj], .inl rfl, le_refl _, .inl rfl⟩

theorem deregister {n m : Node} (h : DiscTurn n m i) (disc : ℕ) :
    DiscTurn n (m.deregister disc i) i := by
  unfold Node.deregister
  split
  · exact h
  · split_ifs
    · refine ⟨h.trans (.of_parts rfl), fun j hj => ⟨(h.others j hj).1, ?_⟩, h.fsm, h.owned, h.life⟩
      exact (Function.update_of_ne hj _ _).trans (h.others j hj).2
    · exact ⟨h.trans (.of_parts rfl), h.others, h.fsm, h.owned, .inr rfl⟩

end DiscTurn

theorem discTurn (disc : ℕ) (n : Node) (i : ℕ) : DiscTurn n (discSlot disc n i) i := by
  have hin : DiscTurn n (if (n.slot i).donating then n.takeBack i else n.inherit i) i := by
    split_ifs
    · exact ⟨.of_parts rfl, fun j hj => by simp [takeBack, setOwner, hj], .inl rfl,
        by simp [takeBack], .inl rfl⟩
    · exact .inherit n i
  simp only [discSlot]
  generalize (if (n.slot i).donating = true then n.takeBack i else n.inherit i) = m at hin ⊢
  split_ifs
  · exact hin
  · exact hin.deregister disc
  · exact ⟨.refl n, fun _ _ => ⟨rfl, rfl⟩, .inl rfl, le_refl _, .inl rfl⟩

theorem SameMem.foldl_discSlot (disc : ℕ) (l : List ℕ) (n : Node) :
    SameMem n (l.foldl (Node.discSlot disc) n) := by
  induction l generalizing n with
  | nil => exact refl n
  | cons i l ih => exact (discTurn disc n i).trans (ih _)

theorem fsm_mcastRqstSlots (n : Node) (k : ℤ) : (n.mcastRqstSlots k).1.fsm = n.fsm := by
  simp only [Node.mcastRqstSlots]
  split_ifs <;> rfl

/-! ### Joins and disconnects -/

section Equations

variable {c : Conf} {n : Node} {env : Env} {mbr disc : ℕ} {l : List ℕ}

theorem spJoin_waiting (hm : mbr ≠ n.localNodeid) (hw : n.fsm = .waitStatus) :
    n.spJoin c mbr = (n.addWaitsts mbr, []) := by
  simp only [spJoin, if_neg hm]
  exact if_pos hw

theorem spJoin_other (hm : mbr ≠ n.localNodeid) (hw : n.fsm ≠ .waitStatus) :
    n.spJoin c mbr =
      andThen (((n.addWaitsts mbr).reclaim c mbr).clearRqsts.primaryStsMcast c) fun n =>
        n.newRqstSlots c.minOwnedSlots := by
  simp only [spJoin, if_neg hm]
  exact if_neg hw

theorem reallocate_frame (n : Node) (mbr : ℕ) :
    SameMem (setMax c ((n.forget mbr).elect c mbr)) (n.reallocate c mbr) :=
  .foldl_discSlot _ _ _

theorem mem_forget : i ∈ (n.forget mbr).bmInit ↔ i ≠ mbr ∧ i ∈ n.bmInit :=
  Finset.mem_erase

theorem initNodes_forget (h : n.initNodes = n.bmInit.card) :
    (n.forget mbr).initNodes = (n.forget mbr).bmInit.card := by
  simp only [forget]
  split_ifs with hmem
  · have := Finset.card_erase_add_one hmem
    omega
  · rw [h, Finset.erase_eq_of_notMem hmem]

theorem primary_elect (hself : n.localNodeid ∈ n.bmInit) (hlt : n.localNodeid < c.dcNrNodes)
    (hp : ∃ p, n.primaryMbr = some p ∧ (p ≠ mbr → p ∈ n.bmInit)) :
    ∃ p, (n.elect c mbr).primaryMbr = some p ∧ p ∈ n.bmInit := by
  obtain ⟨p, hp, hpm⟩ := hp
  unfold elect
  split_ifs with h1
  · exact getPrimaryMbr_exists hself hlt
  · exact ⟨p, hp, hpm fun he => h1 (he ▸ hp)⟩

theorem fsm_foldl_discSlot (hp : n.primaryMbr ≠ some n.localNodeid) :
    (l.foldl (discSlot disc) n).fsm = n.fsm := by
  induction l generalizing n with
  | nil => rfl
  | cons i l ih =>
    have hs := discTurn disc n i
    rw [List.foldl_cons, ih (by rw [hs.primary, hs.id]; exact hp)]
    exact hs.fsm.resolve_right fun h => hp h.1

theorem foldl_discSlot_gain (disc : ℕ) (l : List ℕ) (n : Node) :
    n.ownedSlots ≤ (l.foldl (discSlot disc) n).ownedSlots ∧
    (n.fsm = .running → (l.foldl (discSlot disc) n).fsm = .running) ∧
    (n.life ≠ .aborted → (l.foldl (discSlot disc) n).life ≠ .aborted) := by
  induction l generalizing n with
  | nil => exact ⟨le_refl _, fun h => h, fun h => h⟩
  | cons i l ih =>
    have h := discTurn disc n i
    obtain ⟨i1, i2, i3⟩ := ih (discSlot disc n i)
    refine ⟨h.owned.trans i1, fun hr => i2 (h.fsm.elim (·.trans hr) And.right), fun hl => i3 ?_⟩
    rcases h.life with h1 | h1 <;> simp [h1, hl]

theorem reallocate_life (k : ℕ) (hl : n.life = .alive) :
    (n.reallocate c k).localNodeid = n.localNodeid ∧ (n.reallocate c k).life ≠ .aborted := by
  obtain ⟨q, hq⟩ := elect_eq c (n.forget k) k
  have hs := reallocate_frame (c := c) n k
  rw [hq] at hs
  refine ⟨hs.id, (foldl_discSlot_gain _ _ _).2.2 ?_⟩
  rw [hq]
  exact hl.trans_ne (by simp)

theorem reallocate_running (k : ℕ) (hr : n.fsm = .running) :
    (n.reallocate c k).fsm = .running ∧ n.ownedSlots ≤ (n.reallocate c k).ownedSlots := by
  obtain ⟨q, hq⟩ := elect_eq c (n.forget k) k
  obtain ⟨h1, h2, -⟩ := foldl_discSlot_gain k c.sharedList (setMax c ((n.forget k).elect c k))
  rw [reallocate]
  rw [hq] at h1 h2 ⊢
  exact ⟨h2 hr, h1⟩

theorem foldl_discSlot_of_none (h : ∀ i, (n.slot i).owner ≠ some disc) :
    l.foldl (discSlot disc) n = n := by
  induction l with
  | nil => rfl
  | cons i l ih => rw [List.foldl_cons, discSlot, if_neg (fun h1 => h i h1.2), ih]

end Equations

/-! ### The partition of the primary -/

section Partition

variable {c : Conf} {n : Node}

theorem goOn_eq (c : Conf) (n : Node) :
    ∃ w f d, (n.fsm.isInitialized = true → f.isInitialized = true) ∧
      (n.goOn c).1 =
        { n.recount c with waitstsMbr := w, fsm := f, bmDonors := d, bmPending := ∅ } := by
  have hfsm : n.fsm = (n.recount c).fsm := rfl
  simp only [goOn, hfsm]
  generalize n.recount c = m
  obtain ⟨w, hw⟩ := primaryStsMcast_eq c m
  simp only [andThen, hw]
  split_ifs
  · obtain ⟨f, d, hf, hd⟩ := newRqstSlots_eq (clearRqsts { m with waitstsMbr := w }) c.minOwnedSlots
    exact ⟨w, f, d, fun hi => hf.elim (fun h => h ▸ hi) fun h => h ▸ rfl, hd⟩
  · exact ⟨w, _, _, id, rfl⟩

/-- The old primary is among the initialized members of this side. -/
def KeepsPrimary (n : Node) : Prop := ∃ p ∈ n.bmInit ∩ n.bmActive, n.primaryMbr = some p

instance : Decidable n.KeepsPrimary :=
  decidable_of_iff (n.primaryMbr.any (· ∈ n.bmInit ∩ n.bmActive) = true) (by
    cases h : n.primaryMbr <;> simp [KeepsPrimary, h])

theorem keepsPrimary_iff :
    n.KeepsPrimary ↔ n.mask.primaryMbr.any (· ∈ n.mask.bmInit) = true := by
  cases h : n.primaryMbr <;> simp [KeepsPrimary, mask, h]

theorem spNetPartition_cases (hw : n.fsm ≠ .waitStatus) :
    (n.KeepsPrimary ∧ n.spNetPartition c = n.mask.goOn c) ∨
    (¬n.KeepsPrimary ∧ (∃ p, getPrimaryMbr c (n.bmInit ∩ n.bmActive) = some p) ∧
      (n.spNetPartition c).1 = (n.mask.setPrimary
        (getPrimaryMbr c (n.bmInit ∩ n.bmActive))).restart.1) ∨
    (¬n.KeepsPrimary ∧ getPrimaryMbr c (n.bmInit ∩ n.bmActive) = none ∧
      n.spNetPartition c = (n.mask.setPrimary none).goOn c) := by
  have hw : ¬n.mask.fsm = .waitStatus := hw
  by_cases hk : n.KeepsPrimary
  · refine .inl ⟨hk, ?_⟩
    rw [spNetPartition, if_neg hw, if_pos (keepsPrimary_iff.1 hk)]
  · have hk' : ¬n.mask.primaryMbr.any (· ∈ n.mask.bmInit) = true := mt keepsPrimary_iff.2 hk
    cases hp : getPrimaryMbr c (n.bmInit ∩ n.bmActive) with
    | none =>
      refine .inr (.inr ⟨hk, rfl, ?_⟩)
      rw [spNetPartition, if_neg hw, if_neg hk']
      simp [mask, setPrimary, hp]
    | some p =>
      refine .inr (.inl ⟨hk, ⟨p, rfl⟩, ?_⟩)
      rw [spNetPartition, if_neg hw, if_neg hk']
      simp [mask, setPrimary, hp]

end Partition

/-! ### What is multicast, and who lives on -/

section Sends

variable {c : Conf} {n : Node} {env : Env} {msg : Msg} {k needed nr : ℤ} {requester source dst : ℕ}
  {ia : List ℕ}

theorem mem_mcastRqstSlots (h : msg ∈ (n.mcastRqstSlots k).2) :
    msg = .reqSlots k ∧ n.bmWaitsts = ∅ := by
  simp only [mcastRqstSlots] at h
  split_ifs at h with h1 h2 h3
  all_goals simp_all

theorem mem_newRqstSlots (h : msg ∈ (n.newRqstSlots k).2) :
    msg = .reqSlots k ∧ n.bmWaitsts = ∅ ∧ n.ownedSlots = 0 := by
  unfold newRqstSlots at h
  split_ifs at h with h1
  · have h2 := mem_mcastRqstSlots h
    exact ⟨h2.1, h2.2, h1.2⟩
  · simp at h

@[simp] theorem life_mcastRqstSlots (n : Node) (k : ℤ) : (n.mcastRqstSlots k).1.life = n.life := by
  simp only [mcastRqstSlots]
  split_ifs <;> rfl

@[simp] theorem life_newRqstSlots (n : Node) (k : ℤ) : (n.newRqstSlots k).1.life = n.life := by
  unfold newRqstSlots
  split_ifs <;> simp

@[simp] theorem life_primaryStsMcast (n : Node) : (n.primaryStsMcast c).1.life = n.life := by
  obtain ⟨w, hw⟩ := primaryStsMcast_eq c n
  rw [hw]

@[simp] theorem owned_mcastRqstSlots (n : Node) (k : ℤ) :
    (n.mcastRqstSlots k).1.ownedSlots = n.ownedSlots := by
  simp only [mcastRqstSlots]
  split_ifs <;> rfl

theorem newRqstSlots_of_owned (h : n.ownedSlots ≠ 0) : n.newRqstSlots k = (n, []) :=
  if_neg fun h1 => h h1.2

theorem primaryStsMcast_frame (n : Node) :
    (n.primaryStsMcast c).1.ownedSlots = n.ownedSlots ∧
    (n.primaryStsMcast c).1.fsm = n.fsm ∧ (n.primaryStsMcast c).1.slot = n.slot ∧
    (n.primaryStsMcast c).1.bmDonors = n.bmDonors := by
  obtain ⟨w, hw⟩ := primaryStsMcast_eq c n
  rw [hw]
  exact ⟨rfl, rfl, rfl, rfl⟩

theorem primaryStsMcast_singleton {b : ℕ} (hb : b < c.dcNrNodes) (hw : n.bmWaitsts = {b})
    (hp : n.primaryMbr = some p) : (n.primaryStsMcast c).2 =
      if p = n.localNodeid then [.putStatus b n.bmInit {b} n.slot] else [] := by
  obtain ⟨w, hn, hm⟩ : ∃ w, getNextMbr c n.waitstsMbr {b} = some w ∧ w ∈ ({b} : Finset ℕ) :=
    getNextMbr_exists (Finset.mem_singleton_self b) hb
  obtain rfl := Finset.mem_singleton.1 hm
  unfold primaryStsMcast
  simp only [hp, Option.some.injEq, hw, hn]
  split_ifs <;> rfl

theorem primaryStsMcast_of_empty (h : n.bmWaitsts = ∅) : (n.primaryStsMcast c).2 = [] := by
  unfold primaryStsMcast
  split_ifs
  · simp [h]
  · rfl

theorem mem_reply {donated : ℤ} (h : msg ∈ (n.reply c requester donated).2) :
    ∃ nr ia, msg = .donSlots requester nr ia := by
  unfold reply at h
  split_ifs at h
  · simp at h
  all_goals
    simp only [donate, List.mem_singleton] at h
    exact ⟨_, _, h⟩

theorem mem_spReqSlots (h : msg ∈ (n.spReqSlots c requester needed).2) :
    requester ≠ n.localNodeid ∧ ∃ nr ia, msg = .donSlots requester nr ia := by
  unfold spReqSlots at h
  split_ifs at h with h1 h2
  all_goals first
    | exact ⟨h2, mem_reply h⟩
    | simp [abort] at h

@[simp] theorem life_reply (n : Node) (requester : ℕ) (donated : ℤ) :
    (n.reply c requester donated).1.life = n.life := by
  unfold reply
  split_ifs <;> rfl

theorem life_spReqSlots
    (h : requester ≠ n.localNodeid → requester ∈ n.bmInit ∧ 0 < n.initNodes - 1) :
    (n.spReqSlots c requester needed).1.life = n.life := by
  unfold spReqSlots
  split_ifs with h1 h2 h3 h4 h5 h6
  all_goals first
    | rfl
    | exact life_reply _ _ _
    | exact absurd (h h2).1 h3
    | exact absurd (h h2).2 (by omega)

theorem mem_spDonSlots (h : msg ∈ (n.spDonSlots c env source dst nr ia).2) :
    (msg = .reqSlots c.minOwnedSlots ∧ n.bmWaitsts = ∅) ∨
    (dst ≠ n.localNodeid ∧ msg = .donSlots dst 0 (List.replicate slotsByMsg 0)) := by
  simp only [spDonSlots, replyPending] at h
  split_ifs at h with h1 h2 h3 h4 h5 h6 h7
  all_goals first
    | simp [abort] at h
    | skip
  · exact .inr ⟨h6, h⟩
  · obtain ⟨h8, h9, -⟩ := mem_newRqstSlots h
    refine .inl ⟨h8, ?_⟩
    revert h9
    split_ifs <;> exact fun h9 => h9

theorem life_receive (n : Node) (source : ℕ) (nr : ℤ) :
    (n.receive c source nr).1.life = n.life := by
  simp only [receive, life_newRqstSlots]
  split_ifs <;> rfl

theorem life_spDonSlots (hd : dst ∈ n.bmInit) (hs : source ∈ n.bmInit)
    (hi : n.fsm.isInitialized = true) (hl : n.life = .alive) :
    (n.spDonSlots c env source dst nr ia).1.life ≠ .aborted := by
  have hi' : (n.record dst (ia.take nr.toNat)).fsm.isInitialized = true := hi
  simp only [spDonSlots, replyPending, hi', Bool.true_eq_false, if_false]
  split_ifs with h1
  · exact absurd h1 (by simp [hd, hs])
  all_goals first
    | simp [complete, record, hl]; done
    | rw [life_receive]; simp [record, hl]

end Sends

/-! ### Calls -/

section Calls

variable {c : Conf} {n : Node} {r : Node × List Msg} {k : Call}

theorem alive_of_call (hr : n.call c k = some r) : n.life = .alive := by
  by_contra hne
  simp [Node.call, hne] at hr

theorem call_wake (hr : n.call c .wake = some r) : n.systask = .signalled ∧ r = n.wake c := by
  simp only [call] at hr
  split_ifs at hr with h1 h2
  exact ⟨h2, (Option.some.inj hr).symm⟩

theorem askForSlots_frame (n : Node) (paused : Bool) : SameMem n (n.askForSlots c paused).1 ∧
    (n.askForSlots c paused).1.fsm = n.fsm := by
  simp only [askForSlots]
  split_ifs
  · exact ⟨SameMem.mcastRqstSlots _ _, fsm_mcastRqstSlots _ _⟩
  · exact ⟨SameMem.mcastRqstSlots _ _, fsm_mcastRqstSlots _ _⟩
  · exact ⟨SameMem.refl n, rfl⟩

theorem call_frame (hk : k ≠ .wake) (hr : n.call c k = some r) :
    SameMem n r.1 ∧ r.1.fsm = n.fsm := by
  have hclr : ∀ i, SameMem n ((n.clearSysSlot c i).unbindDesc i) ∧
      ((n.clearSysSlot c i).unbindDesc i).fsm = n.fsm := by
    intro i
    unfold unbindDesc clearSysSlot
    split_ifs <;> split <;> exact ⟨.of_parts rfl, rfl⟩
  rcases k with _ | ⟨i, k⟩ | paused | ⟨i, garbage⟩ | ⟨i, rmtBind⟩ | i
  · exact absurd rfl hk
  all_goals
    simp only [call] at hr
    split_ifs at hr
    cases hr
  · exact ⟨.of_parts rfl, rfl⟩
  · obtain ⟨hs, hf⟩ := askForSlots_frame (c := c) n paused
    simp only [doFork, andThen]
    split
    · exact ⟨hs.trans (.of_parts rfl), hf⟩
    · exact ⟨hs, hf⟩
    · exact ⟨hs.trans (.of_parts rfl), hf⟩
  · simp only [doExit]
    split_ifs
    all_goals first
      | exact hclr i
      | exact ⟨(hclr i).1.trans (.of_parts rfl), (hclr i).2⟩
  · simp only [doBindproc, bindSys]
    repeat' split
    all_goals exact ⟨.of_parts rfl, rfl⟩
  · simp only [doUnbind]
    split
    · exact ⟨SameMem.refl n, rfl⟩
    · simp only [clearSysSlot]
      split_ifs <;> exact ⟨.of_parts rfl, rfl⟩
    · split_ifs
      · exact hclr i
      · exact ⟨(hclr i).1.trans (.of_parts rfl), (hclr i).2⟩

/-- The table of the shared slots and the variables of the protocol stay as they are. -/
structure LocalStep (c : Conf) (n n' : Node) : Prop where
  id : n'.localNodeid = n.localNodeid
  fsm : n'.fsm = n.fsm
  init : n'.bmInit = n.bmInit
  waitsts : n'.bmWaitsts = n.bmWaitsts
  donors : n'.bmDonors = n.bmDonors
  pending : n'.bmPending = n.bmPending
  count : n'.initNodes = n.initNodes
  primary : n'.primaryMbr = n.primaryMbr
  owned : n'.ownedSlots = n.ownedSlots
  slot : ∀ i, c.dcNrSysprocs ≤ i → n'.slot i = n.slot i
  life : n'.life = n.life ∨ n'.life = .gone

namespace LocalStep

variable {n' : Node}

theorem refl (n : Node) : LocalStep c n n :=
  ⟨rfl, rfl, rfl, rfl, rfl, rfl, rfl, rfl, rfl, fun _ _ => rfl, .inl rfl⟩

theorem trans {n'' : Node} (h : LocalStep c n n') (h' : LocalStep c n' n'') :
    LocalStep c n n'' where
  id := h'.id.trans h.id
  fsm := h'.fsm.trans h.fsm
  init := h'.init.trans h.init
  waitsts := h'.waitsts.trans h.waitsts
  donors := h'.donors.trans h.donors
  pending := h'.pending.trans h.pending
  count := h'.count.trans h.count
  primary := h'.primary.trans h.primary
  owned := h'.owned.trans h.owned
  slot i hi := (h'.slot i hi).trans (h.slot i hi)
  life := h'.life.elim (fun h1 => h.life.imp h1.trans h1.trans) .inr

theorem of_eq (he : n' = { n with
    systask := n'.systask, retries := n'.retries, desc := n'.desc, freeSlots := n'.freeSlots,
    maxOwnedSlots := n'.maxOwnedSlots }) : LocalStep c n n' := by
  rw [he]
  exact ⟨rfl, rfl, rfl, rfl, rfl, rfl, rfl, rfl, rfl, fun _ _ => rfl, .inl rfl⟩

theorem sysSlot (hi : i < c.dcNrSysprocs) (t : Slot) :
    LocalStep c n { n with slot := Function.update n.slot i t } :=
  ⟨rfl, rfl, rfl, rfl, rfl, rfl, rfl, rfl, rfl,
    fun j hj => Function.update_of_ne (by omega) _ _, .inl rfl⟩

theorem clearSysSlot (n : Node) (i : ℕ) : LocalStep c n (n.clearSysSlot c i) := by
  unfold Node.clearSysSlot
  split_ifs with hi
  · exact sysSlot hi _
  · exact refl n

theorem unbindDesc (n : Node) (i : ℕ) : LocalStep c n (n.unbindDesc i) := by
  unfold Node.unbindDesc
  split
  · exact refl n
  · exact of_eq rfl

theorem doExit (n : Node) (i : ℕ) (garbage : Bool) : LocalStep c n (n.doExit c i garbage) := by
  have h := (clearSysSlot (c := c) n i).trans (unbindDesc _ i)
  simp only [Node.doExit]
  generalize (if i < c.dcNrSysprocs then
    decide ((n.slot i).owner ≠ some n.localNodeid) else garbage) = remote
  split_ifs
  · exact h
  · exact h.trans (of_eq rfl)

theorem doUnbind (n : Node) (i : ℕ) : LocalStep c n (n.doUnbind c i) := by
  have h := (clearSysSlot (c := c) n i).trans (unbindDesc _ i)
  simp only [Node.doUnbind]
  split
  · exact refl n
  · exact clearSysSlot n i
  · split_ifs
    · exact h
    · exact h.trans (of_eq rfl)

theorem bindSys (n : Node) (hi : i < c.dcNrSysprocs) : LocalStep c n (n.bindSys i) := by
  unfold Node.bindSys
  split
  · exact refl n
  · exact sysSlot hi _

theorem doBindproc (n : Node) (i : ℕ) (rmtBind : Option ℕ) :
    LocalStep c n (n.doBindproc c i rmtBind) := by
  simp only [Node.doBindproc]
  repeat' split
  all_goals first
    | exact refl n
    | exact of_eq rfl
    | exact bindSys n (by omega)

end LocalStep

/-- SYSTASK asks for slots: in the loop of `init_systask`, or in `get_free_proc`. -/
def Asks (c : Conf) (n : Node) : Call → Prop
  | .wake => n.fsm = .reqSlots ∧ n.ownedSlots = 0
  | .fork paused => n.freeSlots < c.freeSlotsLow ∧ n.ownedSlots < n.maxOwnedSlots ∧
      n.bmDonors = ∅ ∧ n.bmWaitsts = ∅ ∧ paused = true
  | _ => False

instance (c : Conf) (n : Node) (k : Call) : Decidable (Asks c n k) :=
  match k with
  | .wake => inferInstanceAs (Decidable (_ ∧ _))
  | .fork _ => inferInstanceAs (Decidable (_ ∧ _))
  | .sysBind _ _ | .exit _ _ | .bindproc _ _ | .unbind _ => inferInstanceAs (Decidable False)

theorem askForSlots_cases (n : Node) (paused : Bool) :
    n.askForSlots c paused = (n, []) ∨
    (Asks c n (.fork paused) ∧ ∃ q, n.askForSlots c paused = n.mcastRqstSlots q) := by
  simp only [askForSlots]
  split_ifs with h1 h2
  · exact .inr ⟨h1, _, rfl⟩
  · exact .inr ⟨h1, _, rfl⟩
  · exact .inl rfl

theorem doFork_after (n : Node) (paused : Bool) :
    LocalStep c (n.askForSlots c paused).1 (n.doFork c paused).1 ∧
    (n.doFork c paused).2 = (n.askForSlots c paused).2 := by
  simp only [doFork, andThen]
  generalize n.askForSlots c paused = r
  split
  · exact ⟨.of_eq rfl, List.append_nil _⟩
  · exact ⟨.refl _, List.append_nil _⟩
  · exact ⟨⟨rfl, rfl, rfl, rfl, rfl, rfl, rfl, rfl, rfl, fun _ _ => rfl, .inr rfl⟩,
      List.append_nil _⟩

theorem call_cases (hr : n.call c k = some r) :
    (LocalStep c n r.1 ∧ r.2 = []) ∨
    (Asks c n k ∧ ∃ m q, LocalStep c n m ∧ LocalStep c (m.mcastRqstSlots q).1 r.1 ∧
      r.2 = (m.mcastRqstSlots q).2) := by
  cases k with
  | wake =>
    rw [(call_wake hr).2]
    simp only [wake]
    split_ifs with h1 h2
    · exact .inl ⟨⟨rfl, rfl, rfl, rfl, rfl, rfl, rfl, rfl, rfl, fun _ _ => rfl, .inr rfl⟩, rfl⟩
    · exact .inr ⟨h2, _, _, .of_eq rfl, .refl _, rfl⟩
    · exact .inl ⟨.of_eq rfl, rfl⟩
  | sysBind i k =>
    simp only [call] at hr
    split_ifs at hr
    exact .inl (Option.some.inj hr ▸ ⟨.of_eq rfl, rfl⟩)
  | fork paused =>
    simp only [call] at hr
    split_ifs at hr
    rw [← Option.some.inj hr]
    obtain ⟨hl, hm⟩ := doFork_after (c := c) n paused
    rcases askForSlots_cases (c := c) n paused with he | ⟨ha, q, he⟩
    · rw [he] at hl hm
      exact .inl ⟨hl, hm⟩
    · rw [he] at hl hm
      exact .inr ⟨ha, n, q, .refl n, hl, hm⟩
  | exit i garbage =>
    simp only [call] at hr
    split_ifs at hr
    exact .inl (Option.some.inj hr ▸ ⟨.doExit n i garbage, rfl⟩)
  | bindproc i rmtBind =>
    simp only [call] at hr
    split_ifs at hr
    exact .inl (Option.some.inj hr ▸ ⟨.doBindproc n i rmtBind, rfl⟩)
  | unbind i =>
    simp only [call] at hr
    split_ifs at hr
    exact .inl (Option.some.inj hr ▸ ⟨.doUnbind n i, rfl⟩)

end Calls

end Node

end Slots

end MolIpc
