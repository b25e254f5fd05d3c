import MolIpc.Lib.Reach
import MolIpc.Slots.Handlers

/-!
The counters of a node: `owned_slots` against the owners in the slot table, and `free_slots`
against the process descriptors of the slots that the node owns.
-/

namespace MolIpc

namespace Slots

open Reach

variable {i : ℕ}

/-! ### Counting -/

theorem card_filter_gain {s t : Finset ℕ} {P Q : ℕ → Prop} [DecidablePred P] [DecidablePred Q]
    (ht : t ⊆ s) (hP : ∀ i ∈ t, ¬P i) (hQ : ∀ i ∈ s, Q i ↔ P i ∨ i ∈ t) :
    (s.filter Q).card = (s.filter P).card + t.card := by
  have hd : Disjoint (s.filter P) t :=
    Finset.disjoint_left.2 fun i hi hit => hP i hit (Finset.mem_filter.1 hi).2
  rw [← Finset.card_union_of_disjoint hd]
  congr 1
  ext i
  simp only [Finset.mem_filter, Finset.mem_union]
  constructor
  · rintro ⟨hi, hq⟩
    exact ((hQ i hi).1 hq).imp (fun hp => ⟨hi, hp⟩) id
  · rintro (⟨hi, hp⟩ | hit)
    · exact ⟨hi, (hQ i hi).2 (.inl hp)⟩
    · exact ⟨ht hit, (hQ i (ht hit)).2 (.inr hit)⟩

theorem card_shared (c : Conf) : (c.shared.card : ℤ) = c.allSlots := by
  have := c.sysprocs_lt
  simp only [Conf.shared, Conf.allSlots, Conf.nrSlots, Nat.card_Ico]
  omega

theorem mem_sharedList {c : Conf} : i ∈ c.sharedList ↔ i ∈ c.shared := by
  have := c.sysprocs_lt
  simp only [Conf.sharedList, Conf.shared, Conf.nrSlots, List.mem_range'_1, Finset.mem_Ico]
  omega

theorem nodup_sharedList (c : Conf) : c.sharedList.Nodup := List.nodup_range'

namespace Node

variable {env : Env}

def Owns (n : Node) (i : ℕ) : Prop := (n.slot i).owner = some n.localNodeid

instance (n : Node) : DecidablePred n.Owns := fun _ => inferInstanceAs (Decidable (_ = _))

/-- The node owns the slot `i`, and its descriptor has `p_rts_flags == SLOT_FREE`. -/
def Avail (n : Node) (i : ℕ) : Prop := n.Owns i ∧ n.desc i = .free false

instance (n : Node) : DecidablePred n.Avail := fun _ => inferInstanceAs (Decidable (_ ∧ _))

/-- **The counters are right.** `free_slots` counts from the end of `init_systask` on. -/
structure Accounted (c : Conf) (n : Node) : Prop where
  owned : n.ownedSlots = (c.shared.filter n.Owns).card
  free : n.systask = .up → n.freeSlots = (c.shared.filter n.Avail).card

structure SameAcc (n n' : Node) : Prop where
  id : n'.localNodeid = n.localNodeid
  slot : n'.slot = n.slot
  desc : n'.desc = n.desc
  owned : n'.ownedSlots = n.ownedSlots
  free : n'.freeSlots = n.freeSlots
  up : n'.systask = .up → n.systask = .up

namespace SameAcc

variable {n n' n'' : Node}

def parts (n : Node) :=
  (n.localNodeid, n.slot, n.desc, n.ownedSlots, n.freeSlots, n.systask)

theorem of_parts (h : parts n' = parts n) : SameAcc n n' := by
  simp only [parts, Prod.mk.injEq] at h
  obtain ⟨h1, h2, h3, h4, h5, h6⟩ := h
  exact ⟨h1, h2, h3, h4, h5, fun hu => h6 ▸ hu⟩

theorem trans (h : SameAcc n n') (h' : SameAcc n' n'') : SameAcc n n'' :=
  ⟨h'.id.trans h.id, h'.slot.trans h.slot, h'.desc.trans h.desc, h'.owned.trans h.owned,
    h'.free.trans h.free, h.up ∘ h'.up⟩

theorem owns (h : SameAcc n n') (i : ℕ) : n'.Owns i ↔ n.Owns i := by
  rw [Owns, Owns, h.slot, h.id]

theorem avail (h : SameAcc n n') (i : ℕ) : n'.Avail i ↔ n.Avail i := by
  rw [Avail, Avail, h.owns, h.desc]

theorem clearRqsts (n : Node) : SameAcc n n.clearRqsts := of_parts rfl

theorem mcastRqstSlots (n : Node) (k : ℤ) : SameAcc n (n.mcastRqstSlots k).1 := by
  obtain ⟨d, hd⟩ := mcastRqstSlots_eq n k
  rw [hd]
  exact of_parts rfl

theorem newRqstSlots (n : Node) (k : ℤ) : SameAcc n (n.newRqstSlots k).1 := by
  obtain ⟨f, d, -, hd⟩ := newRqstSlots_eq n k
  rw [hd]
  exact of_parts rfl

theorem primaryStsMcast (c : Conf) (n : Node) : SameAcc n (n.primaryStsMcast c).1 := by
  obtain ⟨w, hw⟩ := primaryStsMcast_eq c n
  rw [hw]
  exact of_parts rfl

end SameAcc

section Accounts

variable {c : Conf} {n n' : Node} {t bi bw : Finset ℕ} {requester dst mbr source : ℕ}
  {given : List ℕ} {nr : ℤ} {tbl : ℕ → Slot} {d : Desc} {paused : Bool}

theorem Accounted.congr (h : Accounted c n) (hs : SameAcc n n') : Accounted c n' := by
  refine ⟨?_, fun hu => ?_⟩
  · rw [hs.owned, h.owned]
    simp only [hs.owns]
  · rw [hs.free, h.free (hs.up hu)]
    simp only [hs.avail]

theorem Accounted.same (h : Accounted c n) (hp : SameAcc.parts n' = SameAcc.parts n) :
    Accounted c n' :=
  h.congr (.of_parts hp)

theorem Accounted.gain (h : Accounted c n) (ht : t ⊆ c.shared) (hn : ∀ i ∈ t, ¬n.Owns i)
    (ho : ∀ i ∈ c.shared, n'.Owns i ↔ n.Owns i ∨ i ∈ t)
    (howned : n'.ownedSlots = n.ownedSlots + t.card) (hup : n'.systask = .up → n.systask = .up)
    (hfree : n'.systask = .up → n'.freeSlots = n.freeSlots + t.card ∧
      ∀ i ∈ c.shared, n'.Avail i ↔ n.Avail i ∨ i ∈ t) : Accounted c n' := by
  refine ⟨?_, fun hu => ?_⟩
  · rw [howned, h.owned, card_filter_gain ht hn ho]
    push_cast
    rfl
  · rw [(hfree hu).1, h.free (hup hu),
      card_filter_gain ht (fun i hi ha => hn i hi ha.1) (hfree hu).2]
    push_cast
    rfl

theorem Accounted.lose (h : Accounted c n) (ht : t ⊆ c.shared) (hn : ∀ i ∈ t, n.Avail i)
    (ho : ∀ i ∈ c.shared, n'.Owns i ↔ n.Owns i ∧ i ∉ t)
    (howned : n'.ownedSlots = n.ownedSlots - t.card) (hup : n'.systask = .up → n.systask = .up)
    (hfree : n'.freeSlots = n.freeSlots - t.card)
    (ha : ∀ i ∈ c.shared, n'.Avail i ↔ n.Avail i ∧ i ∉ t) : Accounted c n' := by
  have hto : (c.shared.filter n.Owns).card = (c.shared.filter n'.Owns).card + t.card := by
    refine card_filter_gain ht (fun i hi hi' => ((ho i (ht hi)).1 hi').2 hi) fun i hi => ?_
    rw [ho i hi]
    by_cases hit : i ∈ t
    · simp [hit, (hn i hit).1]
    · simp [hit]
  have hta : (c.shared.filter n.Avail).card = (c.shared.filter n'.Avail).card + t.card := by
    refine card_filter_gain ht (fun i hi hi' => ((ha i (ht hi)).1 hi').2 hi) fun i hi => ?_
    rw [ha i hi]
    by_cases hit : i ∈ t
    · simp [hit, hn i hit]
    · simp [hit]
  refine ⟨?_, fun hu => ?_⟩
  · rw [howned, h.owned, hto]
    push_cast
    omega
  · rw [hfree, h.free (hup hu), hta]
    push_cast
    omega

/-! ### Joins -/

theorem owns_reclaim (hm : mbr ≠ n.localNodeid) :
    (n.reclaim c mbr).Owns i ↔
      n.Owns i ∨ (n.primaryMbr = some n.localNodeid ∧ i ∈ n.lost c mbr) := by
  simp only [Owns, reclaim]
  by_cases hi : i ∈ n.lost c mbr
  · have hown : (n.slot i).owner = some mbr := ((Finset.mem_filter.1 hi).2).1
    simp [hi, hown, hm]
  · simp [hi]

theorem Accounted.reclaim (h : Accounted c n) (hm : mbr ≠ n.localNodeid)
    (hok : n.primaryMbr = some n.localNodeid → ∀ i ∈ n.lost c mbr, n.desc i = .free false) :
    Accounted c (n.reclaim c mbr) := by
  have hlost : n.lost c mbr ⊆ c.shared := Finset.filter_subset _ _
  have hnot : ∀ i ∈ n.lost c mbr, ¬n.Owns i := by
    intro i hi ho
    have hown : (n.slot i).owner = some mbr := ((Finset.mem_filter.1 hi).2).1
    rw [Owns, hown, Option.some_inj] at ho
    exact hm ho
  by_cases hp : n.primaryMbr = some n.localNodeid
  · refine h.gain hlost hnot (fun i _ => ?_) (by simp [Node.reclaim, hp]) (fun hu => hu)
      fun _ => ⟨by simp [Node.reclaim, hp], fun i _ => ?_⟩
    · rw [owns_reclaim hm]
      simp [hp]
    · rw [Avail, owns_reclaim hm]
      have hd : (n.reclaim c mbr).desc i = n.desc i := rfl
      rw [hd, Avail]
      by_cases hi : i ∈ n.lost c mbr
      · simp [hi, hp, hok hp i hi]
      · simp [hi]
  · refine h.gain (Finset.empty_subset _) (by simp) (fun i _ => ?_) (by simp [Node.reclaim, hp])
      (fun hu => hu) fun _ => ⟨by simp [Node.reclaim, hp], fun i _ => ?_⟩
    · rw [owns_reclaim hm]
      simp [hp]
    · rw [Avail, owns_reclaim hm]
      simp [hp, Avail, Node.reclaim]

theorem Accounted.spJoin (h : Accounted c n) (hm : mbr ≠ n.localNodeid)
    (hok : n.fsm ≠ .waitStatus → n.primaryMbr = some n.localNodeid →
      ∀ i ∈ n.lost c mbr, n.desc i = .free false) : Accounted c (n.spJoin c mbr).1 := by
  have h1 : Accounted c (n.addWaitsts mbr) := h.same rfl
  simp only [Node.spJoin, if_neg hm]
  split_ifs with hw
  · exact h1
  · refine Accounted.congr ?_ ((SameAcc.primaryStsMcast c _).trans (SameAcc.newRqstSlots _ _))
    exact (h1.reclaim hm (hok hw)).same rfl

/-! ### Donations -/

theorem mem_freeOwned : i ∈ n.freeOwned c ↔ i ∈ c.shared ∧ n.Avail i := by
  simp only [freeOwned, List.mem_filter, mem_sharedList, Avail, Owns, decide_eq_true_eq]
  tauto

theorem nodup_freeOwned : (n.freeOwned c).Nodup := (nodup_sharedList c).filter _

theorem Accounted.give (h : Accounted c n) (hr : requester ≠ n.localNodeid) (hnd : given.Nodup)
    (hg : ∀ i ∈ given, i ∈ n.freeOwned c) : Accounted c (n.give requester given) := by
  have hcard : given.toFinset.card = given.length := List.toFinset_card_of_nodup hnd
  have howns : ∀ i, (n.give requester given).Owns i ↔ n.Owns i ∧ i ∉ given := by
    intro i
    simp only [Owns, Node.give]
    by_cases hi : i ∈ given <;> simp [hi, hr]
  refine h.lose (t := given.toFinset) (fun i hi => ?_) (fun i hi => ?_) (fun i _ => ?_) ?_
    (fun hu => hu) ?_ fun i _ => ?_
  · exact (mem_freeOwned.1 (hg i (List.mem_toFinset.1 hi))).1
  · exact (mem_freeOwned.1 (hg i (List.mem_toFinset.1 hi))).2
  · rw [howns, List.mem_toFinset]
  · rw [hcard]
    rfl
  · rw [hcard]
    rfl
  · rw [Avail, howns, List.mem_toFinset, Avail]
    by_cases hi : i ∈ given
    · simp [hi]
    · simp [hi, Node.give]

theorem Accounted.donate (h : Accounted c n) (hr : requester ≠ n.localNodeid) :
    Accounted c (n.donate c requester nr).1 :=
  h.give hr (nodup_freeOwned.sublist (List.take_sublist _ _)) fun _ hi => List.mem_of_mem_take hi

theorem Accounted.reply {donated : ℤ} (h : Accounted c n) (hr : requester ≠ n.localNodeid) :
    Accounted c (n.reply c requester donated).1 := by
  unfold Node.reply
  split_ifs
  · exact h.same rfl
  all_goals exact h.donate hr

theorem Accounted.spReqSlots {needed : ℤ} (h : Accounted c n) :
    Accounted c (n.spReqSlots c requester needed).1 := by
  unfold Node.spReqSlots
  split_ifs with _ hr
  all_goals first
    | exact h
    | exact h.reply hr
    | exact h.same rfl

/-! ### Status messages -/

/-- The status message for the local node brings no slot of its own. -/
def StatusOk (c : Conf) (n : Node) (tbl : ℕ → Slot) : Prop :=
  (∀ i ∈ c.shared, ¬n.Owns i ∧
    ((n.slot i).owner = none → (tbl i).owner ≠ some n.localNodeid)) ∧
  (n.systask = .up → n.freeSlots = 0)

theorem Accounted.ownStatus (hok : StatusOk c n tbl) : Accounted c (n.ownStatus c bi bw tbl) := by
  have hno : ∀ i ∈ c.shared, ¬(n.ownStatus c bi bw tbl).Owns i := by
    intro i hi ho
    obtain ⟨h1, h2⟩ := hok.1 i hi
    simp only [Owns, Node.ownStatus] at ho
    split_ifs at ho with hc
    · exact h2 hc.2 ho
    · exact h1 ho
  refine ⟨?_, fun hu => ?_⟩
  · rw [Finset.filter_eq_empty_iff.2 fun i hi => hno i hi]
    rfl
  · rw [Finset.filter_eq_empty_iff.2 fun i hi ha => hno i hi ha.1]
    exact hok.2 hu

theorem Accounted.spPutStatus {dest : ℕ} (h : Accounted c n)
    (hok : dest = n.localNodeid → n.fsm = .waitStatus → StatusOk c n tbl) :
    Accounted c (n.spPutStatus c dest bi bw tbl).1 := by
  have h1 : Accounted c (n.dropWaitsts dest) := h.same rfl
  have h2 := h1.congr (SameAcc.primaryStsMcast c _)
  simp only [Node.spPutStatus, andThen]
  split_ifs with hd hr _ hw
  · exact h2.same rfl
  · exact (h2.same rfl : Accounted c
      (Node.addInit c (Node.primaryStsMcast c _).1 dest)).spReqSlots
  · exact h1.same rfl
  · exact h
  · exact .ownStatus (hok (not_not.1 hd) (not_not.1 hw))

/-! ### Donations of others -/

/-- A donation takes no slot of the local node, and those for it are new, as many as it says and
free. -/
def DonOk (c : Conf) (n : Node) (source dst : ℕ) (nr : ℤ) (ia : List ℕ) : Prop :=
  if dst = n.localNodeid then
    source ≠ n.localNodeid ∧ (ia.take nr.toNat).Nodup ∧ ((ia.take nr.toNat).length : ℤ) = nr ∧
      ∀ i ∈ ia.take nr.toNat, i ∈ c.shared ∧ ¬n.Owns i ∧ n.desc i = .free false
  else ∀ i ∈ ia.take nr.toNat, i ∈ c.shared → ¬n.Owns i

section

variable (h : Accounted c n)

include h

theorem Accounted.others (ho : ∀ i ∈ c.shared, n'.Owns i ↔ n.Owns i)
    (ha : ∀ i ∈ c.shared, n'.Avail i ↔ n.Avail i)
    (hp : (n'.ownedSlots, n'.freeSlots, n'.systask) = (n.ownedSlots, n.freeSlots, n.systask)) :
    Accounted c n' := by
  simp only [Prod.mk.injEq] at hp
  refine ⟨?_, fun hu => ?_⟩
  · rw [hp.1, h.owned, Finset.filter_congr ho]
  · rw [hp.2.1, h.free (hp.2.2 ▸ hu), Finset.filter_congr ha]

theorem Accounted.complete (hd : dst ≠ n.localNodeid) (hi : i ∈ c.shared → ¬n.Owns i) :
    Accounted c (n.complete dst i) := by
  have ho : ∀ j ∈ c.shared, (n.complete dst i).Owns j ↔ n.Owns j := by
    intro j hj
    by_cases hji : j = i
    · subst hji
      simp only [hi hj, iff_false]
      simp [Owns, Node.complete, hd]
    · simp [Owns, Node.complete, hji]
  refine h.others ho (fun j hj => ?_) rfl
  rw [Avail, Avail, ho j hj]
  by_cases hji : j = i
  · subst hji
    simp [hi hj]
  · simp [Node.complete, hji]

theorem Accounted.record (hd : dst ≠ n.localNodeid) (hg : ∀ i ∈ given, i ∈ c.shared → ¬n.Owns i) :
    Accounted c (n.record dst given) := by
  have ho : ∀ j ∈ c.shared, (n.record dst given).Owns j ↔ n.Owns j := by
    intro j hj
    by_cases hjg : j ∈ given
    · simp only [hg j hjg hj, iff_false]
      simp [Owns, Node.record, hjg, hd]
    · simp [Owns, Node.record, hjg]
  refine h.others ho (fun j hj => ?_) rfl
  rw [Avail, Avail, ho j hj]
  rfl

theorem Accounted.receive (hd : dst = n.localNodeid) (hnd : given.Nodup)
    (hlen : (given.length : ℤ) = nr)
    (hg : ∀ i ∈ given, i ∈ c.shared ∧ ¬n.Owns i ∧ n.desc i = .free false) :
    Accounted c ((n.record dst given).receive c source nr).1 := by
  have hcard : (given.toFinset.card : ℤ) = nr := by rw [List.toFinset_card_of_nodup hnd, hlen]
  refine Accounted.congr ?_ (SameAcc.newRqstSlots _ _)
  -- the branch for a node without slots only changes `FSM_state` and signals SYSTASK
  generalize hm : (if (n.record dst given).ownedSlots = 0 ∧ 0 < nr then
    (n.record dst given).startRunning else n.record dst given) = m
  have hid : m.localNodeid = n.localNodeid := by rw [← hm]; split_ifs <;> rfl
  have hslot : m.slot = (n.record dst given).slot := by rw [← hm]; split_ifs <;> rfl
  have hdesc : m.desc = n.desc := by rw [← hm]; split_ifs <;> rfl
  have howned : m.ownedSlots = n.ownedSlots := by rw [← hm]; split_ifs <;> rfl
  have hfree : m.freeSlots = n.freeSlots := by rw [← hm]; split_ifs <;> rfl
  have hup : m.systask = .up → n.systask = .up := by
    rw [← hm]
    split_ifs
    · exact Systask.signal_eq_up.1
    · exact fun hu => hu
  have ho : ∀ i, (m.slot i).owner = some m.localNodeid ↔ n.Owns i ∨ i ∈ given := by
    intro i
    rw [hid, hslot]
    by_cases hi : i ∈ given <;> simp [Owns, Node.record, hi, hd]
  refine h.gain (t := given.toFinset) (fun i hi => (hg i (List.mem_toFinset.1 hi)).1)
    (fun i hi => (hg i (List.mem_toFinset.1 hi)).2.1) (fun i _ => ?_) ?_ hup fun _ => ⟨?_, ?_⟩
  · rw [List.mem_toFinset]
    exact ho i
  · rw [hcard]
    exact congrArg (· + nr) howned
  · rw [hcard]
    exact congrArg (· + nr) hfree
  · intro i _
    rw [List.mem_toFinset]
    refine (and_congr (ho i) (by rw [hdesc])).trans ?_
    by_cases hi : i ∈ given
    · simp [hi, (hg i hi).2.2]
    · simp [hi, Avail]

theorem Accounted.spDonSlots {ia : List ℕ} (hok : DonOk c n source dst nr ia)
    (hlife : (n.spDonSlots c env source dst nr ia).1.life = .alive) :
    Accounted c (n.spDonSlots c env source dst nr ia).1 := by
  by_cases h1 : dst ∉ n.bmInit ∨ source ∉ n.bmInit
  · rw [Node.spDonSlots, if_pos h1] at hlife
    exact absurd hlife (by simp [abort])
  by_cases hd : dst = n.localNodeid
  · rw [DonOk, if_pos hd] at hok
    obtain ⟨hs, hnd, hlen, hg⟩ := hok
    simp only [Node.spDonSlots, if_neg h1, hs, false_and, if_false] at hlife ⊢
    split_ifs at hlife ⊢ with h2 h3 h4 h5
    · exact absurd hlife (by simp [abort])
    · exact absurd hd h3
    · exact absurd h4 hs
    · exact absurd hd h5
    · exact h.receive hd hnd hlen hg
  · rw [DonOk, if_neg hd] at hok
    have hrec := h.record hd hok
    simp only [Node.spDonSlots, if_neg h1, replyPending]
    split_ifs with h2
    · refine h.complete hd fun hi => hok _ ?_ hi
      cases hl : ia.take nr.toNat with
      | nil => exact absurd hl h2.2
      | cons a l => simp
    all_goals first
      | exact hrec
      | exact hrec.same rfl
      | exact absurd ‹dst = _› hd
      | exact absurd hd ‹¬(_ ≠ _)›

end

/-! ### Disconnects -/

/-- The slots of the dead node that nobody is donating have no `BIT_NO_MAP`. -/
def DiscOk (c : Conf) (n : Node) (disc : ℕ) : Prop :=
  (n.systask = .up → n.fsm ≠ .waitStatus) ∧
  ∀ i ∈ c.shared, (n.slot i).owner = some disc → (n.slot i).donating = false →
    n.desc i ≠ .free true

section Disc

variable {disc i j : ℕ} {l : List ℕ}

theorem deregister_eq (n : Node) (disc i : ℕ) :
    ∃ d l, n.deregister disc i = { n with desc := d, life := l } ∧ ∀ j, j ≠ i → d j = n.desc j := by
  unfold deregister
  split
  · exact ⟨_, _, rfl, fun _ _ => rfl⟩
  · split_ifs
    · exact ⟨_, _, rfl, fun _ hj => Function.update_of_ne hj _ _⟩
    · exact ⟨_, _, rfl, fun _ _ => rfl⟩

theorem desc_deregister (h : (n.deregister disc i).life = .alive) (hd : n.desc i ≠ .free true) :
    (n.deregister disc i).desc i = .free false := by
  unfold deregister at h ⊢
  cases hc : n.desc i with
  | free b =>
    cases b with
    | false => simp [hc]
    | true => exact absurd hc hd
  | bound k =>
    simp only [hc] at h ⊢
    split_ifs at h ⊢ with hk
    simp

theorem desc_clrNoMap_ne (d : Desc) : d.clrNoMap ≠ .free true := by
  cases d <;> simp [Desc.clrNoMap]

/-- The slot `i` has come in, and the process in it is not unbound yet. -/
structure CameIn (n n' : Node) (i : ℕ) : Prop where
  id : n'.localNodeid = n.localNodeid
  owner : (n'.slot i).owner = some n.localNodeid
  others : ∀ j, j ≠ i → n'.slot j = n.slot j ∧ n'.desc j = n.desc j
  desc : n.systask = .up → n'.desc i ≠ .free true
  owned : n'.ownedSlots = n.ownedSlots + 1
  free : n'.freeSlots = n.freeSlots + 1
  up : n'.systask = .up → n.systask = .up

theorem CameIn.owns (h : CameIn n n' i) : n'.Owns j ↔ n.Owns j ∨ j ∈ ({i} : Finset ℕ) := by
  rw [Owns, h.id, Finset.mem_singleton]
  by_cases hj : j = i
  · subst hj
    simp [h.owner]
  · simp [hj, (h.others j hj).1, Owns]

theorem Accounted.cameIn (disc : ℕ) (h : Accounted c n) (hc : CameIn n n' i) (hi : i ∈ c.shared)
    (hn : ¬n.Owns i) :
    (n.systask ≠ .up → Accounted c n') ∧
    ((n'.deregister disc i).life = .alive → Accounted c (n'.deregister disc i)) := by
  have hsub : ({i} : Finset ℕ) ⊆ c.shared := by simpa using hi
  have hnot : ∀ j ∈ ({i} : Finset ℕ), ¬n.Owns j := by simpa using hn
  refine ⟨fun hu => ?_, fun hlife => ?_⟩
  · exact h.gain hsub hnot (fun j _ => hc.owns) (by simp [hc.owned]) hc.up
      fun hu' => absurd (hc.up hu') hu
  · have hdi := desc_deregister hlife
    obtain ⟨d, l, he, hdesc⟩ := deregister_eq n' disc i
    rw [he] at hdi ⊢
    refine h.gain hsub hnot (fun j _ => hc.owns) (by simp [hc.owned]) hc.up
      fun hu => ⟨by simp [hc.free], fun j _ => (and_congr hc.owns Iff.rfl).trans ?_⟩
    rw [Avail, Finset.mem_singleton]
    dsimp only at hdi ⊢
    by_cases hj : j = i
    · subst hj
      simp [hdi (hc.desc (hc.up hu))]
    · rw [hdesc j hj, (hc.others j hj).2]
      simp [hj]

theorem cameIn_takeBack (n : Node) (i : ℕ) : CameIn n (n.takeBack i) i where
  id := rfl
  owner := by simp [Node.takeBack, setOwner]
  others j hj := by simp [Node.takeBack, setOwner, hj]
  desc _ := by simp [Node.takeBack, desc_clrNoMap_ne]
  owned := rfl
  free := rfl
  up := fun h => h

theorem cameIn_inherit (hp : n.primaryMbr = some n.localNodeid)
    (hd : n.desc i ≠ .free true) : CameIn n (n.inherit i) i := by
  simp only [Node.inherit, hp, if_true]
  have hup : n.systask.signal = .up → n.systask = .up := Systask.signal_eq_up.1
  split_ifs
  all_goals
    refine ⟨rfl, by simp [setOwner, startRunning], fun j hj => ?_, fun _ => hd, rfl, rfl, ?_⟩
    · simp [setOwner, startRunning, hj]
    · first
        | exact hup
        | exact fun hu => hu

theorem Accounted.inherit_other (disc : ℕ) (h : Accounted c n)
    (hp : n.primaryMbr ≠ some n.localNodeid) (hn : ¬n.Owns i) :
    Accounted c (n.inherit i) ∧ Accounted c ((n.inherit i).deregister disc i) := by
  have he : n.inherit i = { n with slot := setOwner n.slot i n.primaryMbr } := by
    simp only [Node.inherit, hp, if_false]
  have ho : ∀ j, (n.inherit i).Owns j ↔ n.Owns j := by
    intro j
    by_cases hj : j = i
    · subst hj
      simp only [hn, iff_false]
      simp [he, Owns, setOwner, hp]
    · simp [he, Owns, setOwner, hj]
  have h1 : Accounted c (n.inherit i) := by
    refine h.others (fun j _ => ho j) (fun j _ => ?_) (by rw [he])
    rw [Avail, ho, he, Avail]
  obtain ⟨d, l, he', hdesc⟩ := deregister_eq (n.inherit i) disc i
  rw [he']
  refine ⟨h1, h1.others (fun j _ => Iff.rfl) (fun j _ => and_congr_right fun hown => ?_) rfl⟩
  have hj : j ≠ i := fun hj => hn ((ho i).1 (hj ▸ hown))
  dsimp only
  rw [hdesc j hj]

theorem Accounted.discSlot (h : Accounted c n) (hd : disc ≠ n.localNodeid) (hi : i ∈ c.shared)
    (hw : n.systask = .up → n.fsm ≠ .waitStatus)
    (hok : (n.slot i).owner = some disc → (n.slot i).donating = false → n.desc i ≠ .free true)
    (hlife : (discSlot disc n i).life = .alive) : Accounted c (discSlot disc n i) := by
  unfold Node.discSlot at hlife ⊢
  by_cases ho : n.life = .alive ∧ (n.slot i).owner = some disc
  · have hn : ¬n.Owns i := by
      rw [Owns, ho.2, Option.some_inj]
      exact hd
    rcases Bool.eq_false_or_eq_true (n.slot i).donating with hdon | hdon
    · have hc := h.cameIn disc (cameIn_takeBack n i) hi hn
      simp only [hdon, if_true] at hlife ⊢
      split_ifs at hlife ⊢ with hf
      · exact hc.1 fun hu => hw hu hf
      · exact hc.2 hlife
    · simp only [hdon, Bool.false_eq_true, if_false] at hlife ⊢
      by_cases hp : n.primaryMbr = some n.localNodeid
      · have hc := h.cameIn disc (cameIn_inherit hp (hok ho.2 hdon)) hi hn
        split_ifs at hlife ⊢ with hf
        · refine hc.1 fun hu => hw hu ?_
          rcases (DiscTurn.inherit n i).fsm with h1 | ⟨-, h1⟩
          · exact h1 ▸ hf
          · exact absurd (h1 ▸ hf) (by decide)
        · exact hc.2 hlife
      · have hc := h.inherit_other disc hp hn
        split_ifs
        exacts [hc.1, hc.2]
  · simpa only [ho, if_false] using h

theorem alive_of_foldl_discSlot (h : (l.foldl (discSlot disc) n).life = .alive) :
    n.life = .alive := by
  induction l generalizing n with
  | nil => exact h
  | cons i l ih =>
    rcases (discTurn disc n i).life with h1 | h1
    · exact h1 ▸ ih h
    · exact absurd (h1.symm.trans (ih h)) (by simp)

theorem Accounted.foldl_discSlot (h : Accounted c n) (hd : disc ≠ n.localNodeid) (hnd : l.Nodup)
    (hsub : ∀ i ∈ l, i ∈ c.shared) (hw : n.systask = .up → n.fsm ≠ .waitStatus)
    (hok : ∀ i ∈ l, (n.slot i).owner = some disc → (n.slot i).donating = false →
      n.desc i ≠ .free true) (hlife : (l.foldl (Node.discSlot disc) n).life = .alive) :
    Accounted c (l.foldl (Node.discSlot disc) n) := by
  -- each turn leaves the slots of the turns to come as they were
  induction l generalizing n with
  | nil => exact h
  | cons i l ih =>
    rw [List.nodup_cons] at hnd
    have ht := discTurn disc n i
    have h1 := h.discSlot hd (hsub i (by simp)) hw (hok i (by simp))
      (alive_of_foldl_discSlot hlife)
    refine ih h1 (by rwa [ht.id]) hnd.2 (fun j hj => hsub j (by simp [hj])) (fun hu hf => ?_)
      (fun j hj => ?_) hlife
    · rcases ht.fsm with h2 | ⟨-, h2⟩
      · exact hw (ht.up hu) (h2.symm.trans hf)
      · exact absurd (h2.symm.trans hf) (by decide)
    · have hji : j ≠ i := fun he => hnd.1 (he ▸ hj)
      rw [(ht.others j hji).1, (ht.others j hji).2]
      exact hok j (by simp [hj])

theorem SameAcc.elect (n : Node) (disc : ℕ) : SameAcc n (n.elect c disc) := by
  unfold Node.elect
  split_ifs <;> exact of_parts rfl

theorem SameAcc.spNetMerge (n : Node) (env : Env) : SameAcc n (n.spNetMerge c env).1 := by
  simp only [Node.spNetMerge]
  split_ifs <;> exact of_parts rfl

theorem fsm_elect_forget : ((n.forget disc).elect c disc).fsm = n.fsm := by
  unfold Node.elect
  split_ifs <;> rfl

theorem Accounted.spDisconnect (h : Accounted c n) (hok : DiscOk c n disc)
    (hlife : (n.spDisconnect c env disc).1.life = .alive) :
    Accounted c (n.spDisconnect c env disc).1 := by
  have hs : SameAcc n ((n.forget disc).elect c disc) :=
    (.of_parts rfl : SameAcc n (n.forget disc)).trans
      (SameAcc.elect _ _)
  simp only [Node.spDisconnect] at hlife ⊢
  split_ifs at hlife ⊢ with h1 h2 h3 h4 h5 h6
  · exact h.same rfl
  · simp [restart] at hlife
  · exact h.congr (SameAcc.spNetMerge _ _)
  · simp [restart] at hlife
  · exact absurd hlife h5
  all_goals
    have h7 : Accounted c (n.reallocate c disc) := by
      have hmax : Accounted c (setMax c ((n.forget disc).elect c disc)) :=
        (h.congr hs).same rfl
      refine hmax.foldl_discSlot ?_ (nodup_sharedList c) (fun i hi => mem_sharedList.1 hi) ?_ ?_
        (not_not.1 h5)
      · exact fun he => h1 (hs.id.symm.trans he.symm)
      · intro hu
        exact (fsm_elect_forget (c := c)).symm ▸ hok.1 (hs.up hu)
      · intro i hi
        change ((Node.elect c _ disc).slot i).owner = _ → ((Node.elect c _ disc).slot i).donating = _ →
          (Node.elect c _ disc).desc i ≠ _
        rw [hs.slot, hs.desc]
        exact hok.2 i (mem_sharedList.1 hi)
  · exact h7
  · exact (h7.congr (SameAcc.primaryStsMcast c _)).congr
      ((SameAcc.clearRqsts _).trans (SameAcc.newRqstSlots _ _))

end Disc

/-! ### Partitions and merges -/

/-- The slots with a donating mark are not among the own ones, and they are free. -/
def PartOk (c : Conf) (n : Node) : Prop :=
  n.fsm ≠ .waitStatus → ∀ i ∈ n.donatingSlots c, ¬n.Owns i ∧ (n.desc i).isBound = false

theorem clrNoMap_of_free (h : d.isBound = false) : d.clrNoMap = .free false := by
  cases d with
  | free b => rfl
  | bound k => simp [Desc.isBound] at h

theorem Accounted.restore (h : Accounted c n)
    (hok : ∀ i ∈ n.donatingSlots c, ¬n.Owns i ∧ (n.desc i).isBound = false) :
    Accounted c (n.restore c) := by
  have ho : ∀ i, (n.restore c).Owns i ↔ n.Owns i ∨ i ∈ n.donatingSlots c := by
    intro i
    by_cases hi : i ∈ n.donatingSlots c <;> simp [Owns, Node.restore, hi]
  refine h.gain (t := n.donatingSlots c) (Finset.filter_subset _ _) (fun i hi => (hok i hi).1)
    (fun i _ => ho i) rfl (fun hu => hu) fun _ => ⟨rfl, fun i _ => ?_⟩
  rw [Avail, ho, Avail]
  by_cases hi : i ∈ n.donatingSlots c
  · have hd : (n.restore c).desc i = .free false := by
      simp only [Node.restore, if_pos hi]
      exact clrNoMap_of_free (hok i hi).2
    simp only [hd, hi, or_true, and_self]
  · have hd : (n.restore c).desc i = n.desc i := by simp only [Node.restore, if_neg hi]
    simp only [hd, hi, or_false]

theorem Accounted.markPartition (h : Accounted c n) : Accounted c (n.markPartition c) := by
  have ho : ∀ i ∈ c.shared, (n.markPartition c).Owns i ↔ n.Owns i := by
    intro i _
    simp only [Owns, Node.markPartition]
    split_ifs <;> rfl
  refine h.others ho (fun i hi => ?_) rfl
  rw [Avail, ho i hi]
  rfl

theorem Accounted.goOn (h : Accounted c n)
    (hok : ∀ i ∈ n.donatingSlots c, ¬n.Owns i ∧ (n.desc i).isBound = false) :
    Accounted c (n.goOn c).1 := by
  obtain ⟨w, f, d, -, he⟩ := goOn_eq c n
  rw [he]
  exact (h.restore hok).markPartition.congr ⟨rfl, rfl, rfl, rfl, rfl, fun h => h⟩

theorem Accounted.spNetPartition (h : Accounted c n) (hok : PartOk c n)
    (hlife : (n.spNetPartition c).1.life = .alive) : Accounted c (n.spNetPartition c).1 := by
  have hm : Accounted c n.mask := h.same rfl
  simp only [Node.spNetPartition] at hlife ⊢
  split_ifs at hlife ⊢ with hw h1 h2
  · exact hm
  · exact hm.goOn (hok hw)
  · simp [Node.restart] at hlife
  · exact Accounted.goOn (hm.same rfl) (hok hw)

/-- The table of the merge has the own slots of the slot table, and the part that comes from another
partition gives none of them to another node. -/
def MergeOk (c : Conf) (n : Node) (env : Env) (sender : ℕ) (tbl : ℕ → Slot) : Prop :=
  n.fsm.merging = true → ∀ i ∈ c.shared,
    ((n.slotMerge i).owner = some n.localNodeid ↔ n.Owns i) ∧
    (sender ∉ n.bmInit → (readPart c tbl env i).partition = false → n.Owns i →
      (readPart c tbl env i).owner = some n.localNodeid)

theorem SameAcc.merged (n : Node) (env : Env) (sender : ℕ) (bi bw : Finset ℕ) (tbl : ℕ → Slot) :
    SameAcc n (n.merged c env sender bi bw tbl) := by
  unfold Node.merged
  split_ifs <;> exact of_parts rfl

theorem owner_merged {sender : ℕ} (hi : i ∈ c.shared)
    (ho : (n.slotMerge i).owner = some n.localNodeid ↔ n.Owns i)
    (hp : sender ∉ n.bmInit → (readPart c tbl env i).partition = false → n.Owns i →
      (readPart c tbl env i).owner = some n.localNodeid) :
    ((n.merged c env sender bi bw tbl).slotMerge i).owner = some n.localNodeid ↔ n.Owns i := by
  unfold Node.merged
  by_cases hs : sender ∉ n.bmInit
  swap
  · rwa [if_neg hs]
  · rw [if_pos hs]
    by_cases ht : (readPart c tbl env i).partition = false
    · have hmem : i ∈ taken c (readPart c tbl env) := Finset.mem_filter.2 ⟨hi, ht⟩
      simp only [mergePart, if_pos hmem]
      split_ifs with hown
      · exact iff_of_false hown fun h => hown (hp hs ht h)
      · exact ho
    · have hmem : i ∉ taken c (readPart c tbl env) := fun h => ht (Finset.mem_filter.1 h).2
      simp only [mergePart, if_neg hmem]
      exact ho

theorem Accounted.commit (h : Accounted c n)
    (hok : ∀ i ∈ c.shared, (n.slotMerge i).owner = some n.localNodeid ↔ n.Owns i)
    (hlife : (n.commit c).1.life = .alive) : Accounted c (n.commit c).1 := by
  have h1 : Accounted c n.copyFromMrg :=
    h.others hok (fun i hi => and_congr_left fun _ => hok i hi) rfl
  simp only [Node.commit, andThen] at hlife ⊢
  split_ifs at hlife ⊢
  · simp [abort] at hlife
  · refine Accounted.congr ?_ (SameAcc.newRqstSlots _ _)
    refine Accounted.congr ?_ (SameAcc.primaryStsMcast c _)
    exact h1.same rfl
  · refine Accounted.congr ?_ ((SameAcc.primaryStsMcast c _).trans (.of_parts rfl))
    exact h1.same rfl

theorem Accounted.spMergeStatus {sender : ℕ} (h : Accounted c n)
    (hok : MergeOk c n env sender tbl)
    (hlife : (n.spMergeStatus c env sender bi bw tbl).1.life = .alive) :
    Accounted c (n.spMergeStatus c env sender bi bw tbl).1 := by
  have hs := SameAcc.merged (c := c) n env sender bi bw tbl
  simp only [Node.spMergeStatus] at hlife ⊢
  split_ifs at hlife ⊢ with h1 h2
  · exact h.same rfl
  · exact h.congr hs
  · refine (h.congr hs).commit (fun i hi => ?_) hlife
    rw [hs.id, hs.owns]
    obtain ⟨ho, hp⟩ := hok (by simpa using h1) i hi
    exact owner_merged hi ho hp

/-! ### SYSTASK -/

def WakeOk (c : Conf) (n : Node) : Prop := ∀ i ∈ c.shared, n.Owns i → n.desc i = .free false

/-- The process of an own slot exits, or `flags` says that it is remote; a system process is not
local. -/
def ExitOk (c : Conf) (n : Node) (i : ℕ) (garbage : Bool) : Prop :=
  if i < c.dcNrSysprocs then ¬n.Owns i
  else garbage = false ↔ i ∈ c.shared ∧ n.Owns i ∧ (n.desc i).isBound = true

/-- The process is a local one if and only if it is in an own shared slot. -/
def UnbindOk (c : Conf) (n : Node) (i : ℕ) : Prop :=
  (n.desc i).isBound = true → (n.desc i = .bound n.localNodeid ↔ i ∈ c.shared ∧ n.Owns i)

theorem Accounted.wake (h : Accounted c n) (hok : WakeOk c n) : Accounted c (n.wake c).1 := by
  simp only [Node.wake]
  split_ifs
  · exact h.same rfl
  · refine Accounted.congr ?_ (SameAcc.mcastRqstSlots _ _)
    exact h.congr ⟨rfl, rfl, rfl, rfl, rfl, by simp⟩
  · refine ⟨h.owned, fun _ => h.owned.trans ?_⟩
    have he : ∀ i ∈ c.shared, n.Owns i ↔ n.Avail i := fun i hi =>
      ⟨fun ho => ⟨ho, hok i hi ho⟩, And.left⟩
    rw [Finset.filter_congr he]
    rfl

theorem Accounted.askForSlots (paused : Bool) (h : Accounted c n) :
    Accounted c (n.askForSlots c paused).1 := by
  simp only [Node.askForSlots]
  split_ifs
  · exact h.congr (SameAcc.mcastRqstSlots _ _)
  · exact h.congr (SameAcc.mcastRqstSlots _ _)
  · exact h

/-- **`get_free_proc` finds a slot whenever `free_slots` says that there is one.** -/
theorem Accounted.getFreeProc (h : Accounted c n) (hu : n.systask = .up) (hf : n.freeSlots ≠ 0) :
    ∃ i, n.getFreeProc c = .slot i ∧ i ∈ c.shared ∧ n.Avail i := by
  have hne : (c.shared.filter n.Avail).Nonempty := by
    rw [← Finset.card_pos]
    have := h.free hu
    omega
  obtain ⟨i, hi⟩ := hne
  have hmem : i ∈ n.freeOwned c := mem_freeOwned.2 (Finset.mem_filter.1 hi)
  obtain ⟨a, l, hl⟩ := List.exists_cons_of_ne_nil (List.ne_nil_of_mem hmem)
  refine ⟨a, by simp [Node.getFreeProc, hf, hl], mem_freeOwned.1 (by simp [hl])⟩

theorem freeSlots_askForSlots : (n.askForSlots c paused).1.freeSlots = n.freeSlots := by
  simp only [Node.askForSlots, Node.mcastRqstSlots]
  split_ifs <;> rfl

/-- A fork that finds no slot only asks for some. -/
theorem Accounted.doFork (h : Accounted c n) (hf : n.freeSlots = 0) :
    Accounted c (n.doFork c paused).1 := by
  have hf1 : (n.askForSlots c paused).1.freeSlots = 0 := freeSlots_askForSlots.trans hf
  simp only [Node.doFork, andThen, Node.getFreeProc, hf1, if_true]
  exact h.askForSlots paused

section Unbind

variable {i j : ℕ}

theorem not_mem_shared_of_lt (hi : i < c.dcNrSysprocs) : i ∉ c.shared := fun h =>
  absurd (Finset.mem_Ico.1 h).1 (by omega)

theorem clearSysSlot_eq (c : Conf) (n : Node) (i : ℕ) :
    ∃ s, n.clearSysSlot c i = { n with slot := s } ∧ ∀ j ∈ c.shared, s j = n.slot j := by
  unfold clearSysSlot
  split_ifs with hi
  · refine ⟨_, rfl, fun j hj => Function.update_of_ne ?_ _ _⟩
    exact fun he => not_mem_shared_of_lt hi (he ▸ hj)
  · exact ⟨_, rfl, fun _ _ => rfl⟩

theorem unbindDesc_eq (c : Conf) (n : Node) (i : ℕ) :
    ∃ s d, (n.clearSysSlot c i).unbindDesc i = { n with slot := s, desc := d } ∧
      (∀ j ∈ c.shared, s j = n.slot j) ∧
      ∀ j, d j = if j = i ∧ (n.desc i).isBound = true then .free false else n.desc j := by
  obtain ⟨s, he, hs⟩ := clearSysSlot_eq c n i
  rw [he]
  cases hc : n.desc i with
  | free b => exact ⟨s, n.desc, by simp [unbindDesc, hc], hs, by simp [Desc.isBound]⟩
  | bound k =>
    refine ⟨s, Function.update n.desc i (.free false), by simp [unbindDesc, hc], hs, fun j => ?_⟩
    by_cases hji : j = i <;> simp [hji, Desc.isBound]

theorem avail_unbind {s : ℕ → Slot} {D : ℕ → Desc} (hs : s j = n.slot j)
    (hd : D j = if j = i ∧ (n.desc i).isBound = true then .free false else n.desc j) :
    { n with slot := s, desc := D }.Avail j ↔
      n.Avail j ∨ (j = i ∧ n.Owns i ∧ (n.desc i).isBound = true) := by
  simp only [Avail, Owns, hs, hd]
  by_cases hji : j = i
  · subst hji
    cases hb : (n.desc j).isBound with
    | true =>
      have hne : n.desc j ≠ .free false := fun he => by simp [he, Desc.isBound] at hb
      simp [hne]
    | false => simp
  · simp [hji]

theorem Accounted.unbind (h : Accounted c n) (k : ℤ)
    (hk : k = if i ∈ c.shared ∧ n.Owns i ∧ (n.desc i).isBound = true then 1 else 0)
    (hid : n' = { (n.clearSysSlot c i).unbindDesc i with freeSlots := n.freeSlots + k }) :
    Accounted c n' := by
  obtain ⟨s, d, he, hs, hd⟩ := unbindDesc_eq c n i
  rw [he] at hid
  subst hid
  refine ⟨?_, fun hu => ?_⟩
  · rw [h.owned]
    exact congrArg _ (congrArg _ (Finset.filter_congr fun j hj => by simp [Owns, hs j hj]))
  · have hf := h.free hu
    have hav := fun j hj => avail_unbind (n := n) (i := i) (hs j hj) (hd j)
    change n.freeSlots + k = ((c.shared.filter { n with slot := s, desc := d }.Avail).card : ℤ)
    by_cases hc : i ∈ c.shared ∧ n.Owns i ∧ (n.desc i).isBound = true
    · rw [card_filter_gain (t := {i}) (P := n.Avail) (by simpa using hc.1) ?_ ?_]
      · rw [hk, if_pos hc, hf, Finset.card_singleton]
        push_cast
        rfl
      · intro j hj ha
        rw [Finset.mem_singleton] at hj
        have hb := hc.2.2
        rw [← hj, ha.2] at hb
        simp [Desc.isBound] at hb
      · intro j hj
        rw [hav j hj, Finset.mem_singleton]
        simp [hc.2]
    · rw [hk, if_neg hc, add_zero]
      refine hf.trans (congrArg _ (congrArg _ (Finset.filter_congr fun j hj => ?_)))
      rw [hav j hj]
      refine ⟨.inl, fun ha => ha.elim id fun hb => absurd ⟨hb.1 ▸ hj, hb.2⟩ hc⟩

theorem Accounted.doExit {garbage : Bool} (h : Accounted c n) (hok : ExitOk c n i garbage) :
    Accounted c (n.doExit c i garbage) := by
  have hf : ((n.clearSysSlot c i).unbindDesc i).freeSlots = n.freeSlots := by
    obtain ⟨_, _, he, -⟩ := unbindDesc_eq c n i
    rw [he]
  by_cases hi : i < c.dcNrSysprocs
  · rw [ExitOk, if_pos hi] at hok
    have hrem : decide ((n.slot i).owner ≠ some n.localNodeid) = true := decide_eq_true hok
    simp only [Node.doExit, hi, if_true, hrem]
    refine h.unbind (i := i) 0 (by simp [not_mem_shared_of_lt hi]) ?_
    rw [add_zero, ← hf]
  · rw [ExitOk, if_neg hi] at hok
    simp only [Node.doExit, hi, if_false]
    cases garbage with
    | true =>
      refine h.unbind 0 (by rw [if_neg fun hc => absurd (hok.2 hc) (by simp)]) ?_
      rw [add_zero, ← hf]
      rfl
    | false =>
      refine h.unbind 1 (by rw [if_pos (hok.1 rfl)]) ?_
      rw [← hf]
      rfl

theorem Accounted.clearSysSlot (h : Accounted c n) : Accounted c (n.clearSysSlot c i) := by
  obtain ⟨s, he, hs⟩ := clearSysSlot_eq c n i
  rw [he]
  refine h.others (fun j hj => ?_) (fun j hj => ?_) rfl
  · simp [Owns, hs j hj]
  · simp [Avail, Owns, hs j hj]

theorem Accounted.doUnbind (h : Accounted c n) (hok : UnbindOk c n i) :
    Accounted c (n.doUnbind c i) := by
  have hf : ((n.clearSysSlot c i).unbindDesc i).freeSlots = n.freeSlots := by
    obtain ⟨_, _, he, -⟩ := unbindDesc_eq c n i
    rw [he]
  unfold Node.doUnbind
  split
  · exact h
  · exact h.clearSysSlot
  · rename_i k hk
    have hb : (n.desc i).isBound = true := by simp [hk, Desc.isBound]
    have hiff : k = n.localNodeid ↔ i ∈ c.shared ∧ n.Owns i := by simpa [hk] using hok hb
    have hid : ((n.clearSysSlot c i).unbindDesc i).localNodeid = n.localNodeid := by
      obtain ⟨_, _, he, -⟩ := unbindDesc_eq c n i
      rw [he]
    dsimp only
    split_ifs with hne
    all_goals rw [hid] at hne
    · refine h.unbind 0 (by rw [if_neg fun hc => hne (hiff.2 ⟨hc.1, hc.2.1⟩)]) ?_
      rw [add_zero, ← hf]
    · have hc := hiff.1 (not_not.1 hne)
      refine h.unbind 1 (by rw [if_pos ⟨hc.1, hc.2, hb⟩]) ?_
      rw [← hf]

theorem Accounted.setDesc (h : Accounted c n) (hi : i ∈ c.shared → ¬n.Owns i) :
    Accounted c { n with desc := Function.update n.desc i d } := by
  refine h.others (fun j _ => Iff.rfl) (fun j hj => ?_) rfl
  by_cases hji : j = i
  · subst hji
    simp [Avail, Owns, show (n.slot j).owner ≠ some n.localNodeid from hi hj]
  · simp [Avail, Owns, hji]

theorem Accounted.bindSys (h : Accounted c n) (hi : i < c.dcNrSysprocs) :
    Accounted c (n.bindSys i) := by
  have ho : ∀ j ∈ c.shared, j ≠ i := fun j hj he => not_mem_shared_of_lt hi (he ▸ hj)
  unfold Node.bindSys
  split
  · exact h
  · refine h.others (fun j hj => by simp [Owns, ho j hj]) (fun j hj => ?_) rfl
    simp [Avail, Owns, ho j hj]

theorem Accounted.doBindproc {rmtBind : Option ℕ} (h : Accounted c n) :
    Accounted c (n.doBindproc c i rmtBind) := by
  unfold Node.doBindproc
  split
  · split_ifs with h1 h2 h3
    · exact h
    · exact h
    · split
      · refine h.setDesc fun _ ho => h3 ?_
        rw [Owns, not_not.1 h1, Option.some_inj] at ho
        exact ho
      · exact h
    · exact h.bindSys (by omega)
  · split_ifs with h1 h2
    · exact h
    · exact h
    · exact h.bindSys (by omega)

end Unbind

end Accounts

/-! ### Runs -/

def AccountOk (c : Conf) (n : Node) : Act → Prop
  | .event _ (.join mbr _) =>
    n.fsm ≠ .waitStatus → n.primaryMbr = some n.localNodeid →
      ∀ i ∈ n.lost c mbr, n.desc i = .free false
  | .event _ (.disconnect mbr _) => DiscOk c n mbr
  | .event _ (.network members) => bmWord members < bmWord n.bmActive → PartOk c n
  | .event _ (.message _ (.reqSlots _)) => True
  | .event _ (.message source (.donSlots dst nr ia)) => DonOk c n source dst nr ia
  | .event _ (.message _ (.putStatus dest _ _ tbl)) =>
    dest = n.localNodeid → n.fsm = .waitStatus → StatusOk c n tbl
  | .event env (.message source (.mergeStatus _ _ tbl)) => MergeOk c n env source tbl
  | .call .wake => WakeOk c n
  | .call (.sysBind _ _) => True
  | .call (.fork _) => n.freeSlots = 0
  | .call (.exit i garbage) => ExitOk c n i garbage
  | .call (.bindproc _ _) => True
  | .call (.unbind i) => UnbindOk c n i

section Runs

variable {c : Conf} {n n' : Node}

theorem Accounted.handle {e : Event} (h : Accounted c n) (hj : n.ownJoin e = false)
    (hok : AccountOk c n (.event env e)) (hlife : (n.handle c env e).1.life = .alive) :
    Accounted c (n.handle c env e).1 := by
  unfold Node.handle at hlife ⊢
  split_ifs at hlife ⊢ with hl
  · exact h
  cases e with
  | join mbr members =>
    have hm : mbr ≠ n.localNodeid := by simpa [ownJoin] using hj
    exact Accounted.spJoin (h.same rfl) hm hok
  | disconnect mbr members =>
    exact Accounted.spDisconnect (h.same rfl) hok hlife
  | network members =>
    have h1 : Accounted c (n.setView members) :=
      h.same rfl
    simp only [networkChange] at hlife ⊢
    split_ifs at hlife ⊢ with h2
    · exact h1.spNetPartition (hok h2) hlife
    · exact h1.congr (SameAcc.spNetMerge _ _)
    · exact h
  | message source msg =>
    cases msg with
    | putStatus dest bi bw tbl =>
      simp only [onMessage]
      split_ifs
      · exact h.spPutStatus hok
      · exact Accounted.spPutStatus (h.same rfl) hok
    | reqSlots needed => exact h.spReqSlots
    | donSlots dst nr ia => exact h.spDonSlots hok hlife
    | mergeStatus bi bw tbl => exact h.spMergeStatus hok hlife

theorem Accounted.call {k : Call} {r : Node × List Msg} (h : Accounted c n)
    (hok : AccountOk c n (.call k)) (hr : n.call c k = some r) : Accounted c r.1 := by
  rcases k with _ | ⟨i, k⟩ | paused | ⟨i, garbage⟩ | ⟨i, rmtBind⟩ | i
  all_goals
    simp only [Node.call] at hr
    split_ifs at hr with hl hu
    cases hr
  · exact h.wake hok
  · exact h.setDesc fun hs => absurd hs (not_mem_shared_of_lt hu)
  · exact h.doFork hok
  · exact h.doExit hok
  · exact h.doBindproc
  · exact h.doUnbind hok

theorem accounted_start (c : Conf) (k : ℕ) (members : Finset ℕ) :
    Accounted c (start c k members) := by
  by_cases hone : members.card = 1
  · rw [start_of_card_eq_one hone]
    refine ⟨?_, by simp [lonelyJoin, setView, init, Systask.signal]⟩
    have hall : ∀ i ∈ c.shared, i < c.nrSlots := fun i hi => (Finset.mem_Ico.1 hi).2
    rw [Finset.filter_true_of_mem fun i hi => by simp [Owns, lonelyJoin, hall i hi]]
    exact (card_shared c).symm
  · rw [start_of_card_ne_one hone]
    refine ⟨?_, by simp [awaitStatus, setView, init]⟩
    rw [Finset.filter_eq_empty_iff.2 fun i _ => by simp [Owns, awaitStatus, setView, init]]
    rfl

/-- **The slot counters.** In every run whose steps meet the condition, `owned_slots` and, after
`init_systask`, `free_slots` are right, so `get_free_proc` finds a slot whenever it should. -/
theorem slot_counters {k : ℕ} {members : Finset ℕ}
    (h : Reachable (step c) (AccountOk c) (start c k members) n) (hl : n.life = .alive) :
    n.ownedSlots = (c.shared.filter n.Owns).card ∧
    (n.systask = .up → n.freeSlots = (c.shared.filter n.Avail).card ∧
      (n.freeSlots ≠ 0 → ∃ i, n.getFreeProc c = .slot i ∧ i ∈ c.shared ∧ n.Avail i)) := by
  have hinv : n.life = .alive → Accounted c n := by
    refine h.invariant (I := fun n => n.life = .alive → Accounted c n)
      (fun _ => accounted_start c k members) fun n a n' ih hok ht hl' => ?_
    cases a with
    | event env e =>
      simp only [step] at ht
      split_ifs at ht with hc
      cases ht
      exact (ih hc.1).handle hc.2 hok hl'
    | call j =>
      simp only [step, Option.map_eq_some_iff] at ht
      obtain ⟨r, hr, rfl⟩ := ht
      have hal : n.life = .alive := by
        by_contra hne
        simp [Node.call, hne] at hr
      exact (ih hal).call hok hr
  have hacc := hinv hl
  exact ⟨hacc.owned, fun hu => ⟨hacc.free hu, hacc.getFreeProc hu⟩⟩

end Runs

/-- The only node of the group after SYSTASK has started. -/
theorem slot_counters_lonely : ∃ n, Reachable (step .sample) (AccountOk .sample)
    (start .sample 0 {0}) n ∧ n.systask = .up ∧ n.ownedSlots = 8 ∧ n.freeSlots = 8 := by
  have hr : Reachable (step .sample) (AccountOk .sample) (start .sample 0 {0})
      ((start .sample 0 {0}).wake .sample).1 :=
    .step .init (a := .call .wake) (fun i _ _ => rfl) rfl
  have h := slot_counters hr rfl
  refine ⟨_, hr, rfl, h.1.trans ?_, (h.2 rfl).1.trans ?_⟩
  all_goals decide

/-- A system process exits on the only node, which counts `free_slots` up, and as many processes are
forked as there are slots, which never counts it down: no slot is left, and `get_free_proc` fails. -/
theorem slot_counters_wrong : ∃ n, Reachable (step .sample) (fun _ _ => True)
    (start .sample 0 {0}) n ∧ n.life = .alive ∧ n.systask = .up ∧
      n.freeSlots = 9 ∧ (Conf.sample.shared.filter n.Avail).card = 0 ∧
      n.getFreeProc .sample = .fails := by
  obtain ⟨n, hn, hp⟩ := exists_reachable_of_exec (step .sample) (fun _ _ => True)
    (start .sample 0 {0})
    (fun n => decide (n.life = .alive ∧ n.systask = .up ∧ n.freeSlots = 9 ∧
      (Conf.sample.shared.filter n.Avail).card = 0 ∧ n.getFreeProc .sample = .fails))
    (.call .wake :: .call (.exit 0 false) :: List.replicate 8 (.call (.fork false)))
    (by decide +kernel)
  exact ⟨n, hn, of_decide_eq_true hp⟩

end Node

end Slots

end MolIpc
