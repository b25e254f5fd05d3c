import MolIpc.Rdisk.Primary

/-!
The set of synchronized members.

A joiner takes `bm_sync` from a status message and does not look at the `MC_SYNCHRONIZED` of others
until it is synchronized itself. So the sets agree as long as one member joins at a time and nobody
leaves between its status and its `MC_SYNCHRONIZED`: `synced_sets_agree`.
-/

namespace MolIpc

namespace Rdisk

open Groups Disk

namespace Net

variable {env : Env} {dcNrNodes errno : ℤ} {g g' : Net} {i j k : ℕ} {a : Label} {x : Msg}
  {bn : Finset ℕ}

def syncedSet (g : Net) : Finset ℕ := g.members.filter fun i => g.Synced i

@[simp] theorem mem_syncedSet : i ∈ g.syncedSet ↔ g.Synced i := by
  unfold syncedSet
  rw [Finset.mem_filter]
  exact ⟨fun h => h.2, fun h => ⟨h.1.1, h⟩⟩

theorem syncedSet_congr (h : ∀ j, Synced g' j ↔ g.Synced j) : syncedSet g' = g.syncedSet := by
  ext j
  rw [mem_syncedSet, mem_syncedSet, h]

def mflight (g : Net) (i : ℕ) : List Msg := (g.flight i).filter Msg.isMembership

theorem mflight_append {sent : List Msg} (h : g'.flight i = g.flight j ++ sent) :
    mflight g' i = g.mflight j ++ sent.filter Msg.isMembership := by
  unfold mflight
  rw [h, List.filter_append]

theorem mem_mflight : x ∈ g.mflight i ↔ x ∈ g.flight i ∧ x.isMembership = true :=
  List.mem_filter

theorem not_mem_of_quiet (h : g.mflight i = []) (hx : x.isMembership = true) :
    x ∉ g.flight i := fun hmem => by
  have hm := mem_mflight.2 ⟨hmem, hx⟩
  simp [h] at hm

/-! ### The invariant -/

inductive Phase (g : Net) : Prop
  /-- Nobody is on the way: the status messages in flight are not for the members that wait. -/
  | stale (hsync : ∀ i ∈ g.members, .synchronized ∉ g.flight i)
      (hstatus : ∀ j, g.Live j → (g.node j).synchronized = false → (g.node j).fsm = .wait4primary →
        ∀ i ∈ g.members, ∀ n s bn bs, .statusInfo n s bn bs ∈ g.flight i → n ≠ (g.node j).nrNodes)
  /-- The only message of the protocol in flight is a status for the only member `j` that is not
  synchronized. -/
  | asked (j i : ℕ) (n s : ℤ) (bn bs : Finset ℕ) (hj : g.Live j)
      (hun : (g.node j).synchronized = false)
      (honly : ∀ k, g.Live k → (g.node k).synchronized = false → k = j) (hi : i ∈ g.members)
      (hfl : g.mflight i = [.statusInfo n s bn bs])
      (hothers : ∀ k ∈ g.members, k ≠ i → g.mflight k = []) (hbs : bs = g.syncedSet)
      (hs : s = g.syncedSet.card)
  /-- The only message of the protocol in flight is the `MC_SYNCHRONIZED` of `j`. -/
  | answered (j : ℕ) (hj : g.Live j) (hun : (g.node j).synchronized = false)
      (honly : ∀ k, g.Live k → (g.node k).synchronized = false → k = j)
      (hfl : g.mflight j = [.synchronized])
      (hothers : ∀ k ∈ g.members, k ≠ j → g.mflight k = [])
      (hbs : (g.node j).bmSync = g.syncedSet) (hs : (g.node j).nrSync = g.syncedSet.card)

structure SyncInv (g : Net) : Prop where
  ids : ∀ i ∈ g.members, (g.node i).localNodeid = i
  sets : ∀ i, g.Synced i → (g.node i).bmSync = g.syncedSet ∧
    (g.node i).nrSync = g.syncedSet.card ∧ (g.node i).fsm = .synchronized
  self : ∀ i, g.Live i → (g.node i).IsPrimary → (g.node i).synchronized = true
  status : ∀ i ∈ g.members, ∀ n s bn bs, .statusInfo n s bn bs ∈ g.flight i →
    0 < n ∧ ((g.node i).exited = false → (g.node i).synchronized = true)
  phase : Phase g

theorem Phase.quiet (h : ∀ i ∈ g.members, g.mflight i = []) : Phase g :=
  .stale (fun i hi => not_mem_of_quiet (h i hi) rfl) fun _ _ _ _ i hi _ _ _ _ hmsg =>
    absurd hmsg (not_mem_of_quiet (h i hi) rfl)

theorem SyncInv.mem_bmSync (h : SyncInv g) (hj : g.Live j) (hs : (g.node j).synchronized = true) :
    (g.node j).localNodeid ∈ (g.node j).bmSync := by
  rw [h.ids j hj.1, (h.sets j ⟨hj, hs⟩).1, mem_syncedSet]
  exact ⟨hj, hs⟩

theorem SyncInv.unsynced (h : SyncInv g) (hj : g.Live j) (hs : ¬ g.Synced j) :
    (g.node j).synchronized = false ∧ (g.node j).primaryMbr ≠ some j := by
  have hun : (g.node j).synchronized = false := by
    by_contra hne
    exact hs ⟨hj, by simpa using hne⟩
  refine ⟨hun, fun hp => ?_⟩
  exact absurd (h.self j hj (by rw [Member.IsPrimary, hp, h.ids j hj.1])) (by simp [hun])

structure SameSync (m m' : Member) : Prop where
  localNodeid : m'.localNodeid = m.localNodeid
  exited : m'.exited = m.exited
  synchronized : m'.synchronized = m.synchronized
  fsm : m'.fsm = m.fsm
  primaryMbr : m'.primaryMbr = m.primaryMbr
  nrSync : m'.nrSync = m.nrSync
  bmSync : m'.bmSync = m.bmSync

theorem SameSync.refl (m : Member) : SameSync m m := ⟨rfl, rfl, rfl, rfl, rfl, rfl, rfl⟩

/-- The synchronized members are as they were, and no others are synchronized or take themselves for
the primary. -/
structure Stays (g g' : Net) : Prop where
  synced : ∀ j, g.Synced j → j ∈ g'.members ∧ SameSync (g.node j) (g'.node j)
  ids : ∀ j ∈ g'.members, ¬ g.Synced j → (g'.node j).localNodeid = j
  others : ∀ j, g'.Live j → ¬ g.Synced j →
    (g'.node j).synchronized = false ∧ (g'.node j).primaryMbr ≠ some j

theorem Stays.synced_iff (h : Stays g g') (j : ℕ) : g'.Synced j ↔ g.Synced j := by
  constructor
  · intro hj
    by_contra hno
    exact absurd ((h.others j hj.1 hno).1) (by simp [hj.2])
  · intro hs
    obtain ⟨hj, hsame⟩ := h.synced j hs
    exact ⟨⟨hj, by rw [hsame.exited, hs.1.2]⟩, by rw [hsame.synchronized, hs.2]⟩

theorem Stays.syncedSet (h : Stays g g') : g'.syncedSet = g.syncedSet :=
  syncedSet_congr h.synced_iff

theorem SyncInv.stays (h : SyncInv g) (hst : Stays g g')
    (hstatus : ∀ i ∈ g'.members, ∀ n s bn bs, .statusInfo n s bn bs ∈ g'.flight i →
      0 < n ∧ ((g'.node i).exited = false → (g'.node i).synchronized = true))
    (hphase : Phase g') : SyncInv g' where
  ids j hj := by
    by_cases hs : g.Synced j
    · rw [(hst.synced j hs).2.localNodeid, h.ids j hs.1.1]
    · exact hst.ids j hj hs
  sets j hj := by
    have hs := (hst.synced_iff j).1 hj
    have hsame := (hst.synced j hs).2
    rw [hsame.bmSync, hsame.nrSync, hsame.fsm, hst.syncedSet]
    exact h.sets j hs
  self j hj hpr := by
    by_cases hs : g.Synced j
    · exact ((hst.synced_iff j).2 hs).2
    · unfold Member.IsPrimary at hpr
      rw [hst.ids j hj.1 hs] at hpr
      exact absurd hpr (hst.others j hj hs).2
  status := hstatus
  phase := hphase

/-! ### Joins -/

/-- No message of the protocol is in flight, all the live members are synchronized and one is the
primary at most. -/
def SyncJoinOk (g : Net) : Prop :=
  (∀ i ∈ g.members, g.mflight i = []) ∧
    (∀ i ∈ g.members, g.Live i → (g.node i).synchronized = true) ∧
    ∀ i ∈ g.members, ∀ j ∈ g.members, g.Live i → g.Live j → (g.node i).IsPrimary →
      (g.node j).IsPrimary → i = j

instance (g : Net) : Decidable g.SyncJoinOk := inferInstanceAs (Decidable (_ ∧ _))

section Joins

variable {G : Net} {dev : Fin nrDevs → Dev} (hG : G = g.joined env dcNrNodes i dev errno)

include hG

theorem joined_frame (hids : ∀ i ∈ g.members, (g.node i).localNodeid = i) (hi : i ∉ g.members)
    (hj : j ∈ g.members) : ∃ bn n sent,
      G.node j = { g.node j with nrNodes := n, bmNodes := bn } ∧
      ((g.node j).exited = false → n = g.members.card + 1) ∧ G.flight j = g.flight j ++ sent ∧
      (sent = [] ∨ (g.node j).exited = false ∧ (g.node j).IsPrimary ∧
        sent = [.statusInfo (g.members.card + 1) (g.node j).nrSync bn (g.node j).bmSync]) := by
  subst hG
  have hnode : (g.joined env dcNrNodes i dev errno).node j = _ := node_joined hi hj
  have hfl : (g.joined env dcNrNodes i dev errno).flight j = _ := flight_joined hi hj
  rcases Bool.eq_false_or_eq_true (g.node j).exited with hx | hx
  · rw [Member.handle_exited env hx] at hnode hfl
    exact ⟨_, _, [], hnode, fun hx' => by simp [hx] at hx', hfl, .inl rfl⟩
  · have hne : i ≠ (g.node j).localNodeid := by
      rw [hids j hj]
      exact fun h => hi (h ▸ hj)
    obtain ⟨bn, h | ⟨hp, h⟩⟩ := Member.handle_join_other env hx hne (g.members.card + 1)
    · rw [h] at hnode hfl
      exact ⟨bn, _, [], hnode, fun _ => rfl, hfl, .inl rfl⟩
    · rw [h] at hnode hfl
      exact ⟨bn, _, _, hnode, fun _ => rfl, hfl, .inr ⟨hx, hp, rfl⟩⟩

theorem SyncInv.join_empty (hempty : g.members = ∅)
    (hnode : G.node i =
      { Member.init i dcNrNodes dev errno with
        nrNodes := 1, bmNodes := bn, fsm := .synchronized, synchronized := true, bmSync := {i},
        nrSync := 1, primaryMbr := some i })
    (hfl : G.flight i = [.statusInfo 1 1 bn {i}]) : SyncInv G := by
  have hmem : G.members = {i} := by
    rw [hG, members_joined, hempty]
    rfl
  have hall : ∀ j ∈ G.members, j = i := by simp [hmem]
  have hs : G.Synced i := by
    refine ⟨⟨by simp [hmem], ?_⟩, ?_⟩ <;> rw [hnode]
    rfl
  have hset : G.syncedSet = {i} := by
    ext j
    rw [mem_syncedSet, Finset.mem_singleton]
    constructor
    · exact fun hj => hall j hj.1.1
    · rintro rfl
      exact hs
  refine ⟨?_, ?_, ?_, ?_, .stale ?_ ?_⟩
  · intro j hj
    obtain rfl := hall j hj
    rw [hnode]
    rfl
  · intro j hj
    obtain rfl := hall j hj.1.1
    rw [hnode, hset]
    exact ⟨rfl, rfl, rfl⟩
  · intro j hj _
    obtain rfl := hall j hj.1
    exact hs.2
  · intro j hj n s bn' bs hmsg
    obtain rfl := hall j hj
    rw [hfl] at hmsg
    cases List.mem_singleton.1 hmsg
    exact ⟨by decide, fun _ => hs.2⟩
  · intro j hj hmsg
    obtain rfl := hall j hj
    rw [hfl] at hmsg
    cases List.mem_singleton.1 hmsg
  · intro j hj hun
    obtain rfl := hall j hj.1
    simp [hs.2] at hun

theorem SyncInv.join_waiting (h : SyncInv g) (hok : g.SyncJoinOk) (hi : i ∉ g.members) {fsm : Fsm}
    (hnode : G.node i =
      { Member.init i dcNrNodes dev errno with
        nrNodes := g.members.card + 1, fsm := fsm, bmNodes := bn })
    (hfl : G.flight i = []) : SyncInv G := by
  obtain ⟨hquiet, hsynced, huniq⟩ := hok
  have hframe := fun j hj => joined_frame (j := j) hG h.ids hi hj
  have hmembers : G.members = insert i g.members := by rw [hG, members_joined]
  have hmem : ∀ j ∈ G.members, j ≠ i → j ∈ g.members :=
    fun j hj hne => (Finset.mem_insert.1 (hmembers ▸ hj)).resolve_left hne
  have hlive : ∀ j ∈ g.members, G.Live j → g.Live j := by
    intro j hj hl
    obtain ⟨_, _, _, hn, -⟩ := hframe j hj
    exact ⟨hj, by simpa [hn] using hl.2⟩
  have hst : Stays g G := by
    refine ⟨fun j hs => ⟨hmembers ▸ Finset.mem_insert_of_mem hs.1.1, ?_⟩, fun j hj hs => ?_,
      fun j hj hs => ?_⟩
    · obtain ⟨_, _, _, hn, -⟩ := hframe j hs.1.1
      rw [hn]
      exact ⟨rfl, rfl, rfl, rfl, rfl, rfl, rfl⟩
    · by_cases hji : j = i
      · rw [hji, hnode]
        rfl
      · have hjm := hmem j hj hji
        obtain ⟨_, _, _, hn, -⟩ := hframe j hjm
        rw [hn]
        exact h.ids j hjm
    · by_cases hji : j = i
      · rw [hji, hnode]
        exact ⟨rfl, by simp [Member.init]⟩
      · have hjm := hmem j hj.1 hji
        exact absurd ⟨hlive j hjm hj, hsynced j hjm (hlive j hjm hj)⟩ hs
  -- what is in flight of the protocol is the status of a primary
  have hmfl : ∀ j ∈ G.members, G.mflight j = [] ∨ g.Live j ∧ (g.node j).IsPrimary ∧ ∃ bn,
      G.mflight j =
        [.statusInfo (g.members.card + 1) (g.node j).nrSync bn (g.node j).bmSync] := by
    intro j hj
    by_cases hji : j = i
    · left
      rw [hji, mflight, hfl]
      rfl
    · have hjm := hmem j hj hji
      obtain ⟨bn, _, sent, -, -, hf, rfl | ⟨hx, hp, rfl⟩⟩ := hframe j hjm
      · left
        rw [mflight_append hf, hquiet j hjm]
        rfl
      · refine .inr ⟨⟨hjm, hx⟩, hp, bn, ?_⟩
        rw [mflight_append hf, hquiet j hjm]
        rfl
  refine h.stays hst ?_ ?_
  · intro j hj n s bn' bs hmsg
    have hm : .statusInfo n s bn' bs ∈ G.mflight j := mem_mflight.2 ⟨hmsg, rfl⟩
    rcases hmfl j hj with hf | ⟨hl, hp, bn'', hf⟩
    · simp [hf] at hm
    · rw [hf] at hm
      cases List.mem_singleton.1 hm
      exact ⟨by omega, fun _ => ((hst.synced_iff j).2 ⟨hl, h.self j hl hp⟩).2⟩
  · by_cases hq : ∃ q ∈ G.members, G.mflight q ≠ []
    · obtain ⟨q, hqm, hne⟩ := hq
      obtain ⟨hql, hqp, bn', hqf⟩ := (hmfl q hqm).resolve_left hne
      obtain ⟨hbs, hns, -⟩ := h.sets q ⟨hql, h.self q hql hqp⟩
      refine .asked i q _ _ _ _ ⟨hmembers ▸ Finset.mem_insert_self _ _, ?_⟩ ?_ ?_ hqm hqf ?_ ?_ ?_
      · rw [hnode]
        rfl
      · rw [hnode]
        rfl
      · intro k hk hun
        by_contra hki
        have hkm := hmem k hk.1 hki
        have hs := (hst.synced_iff k).2 ⟨hlive k hkm hk, hsynced k hkm (hlive k hkm hk)⟩
        simp [hs.2] at hun
      · intro k hk hkq
        refine (hmfl k hk).resolve_right ?_
        rintro ⟨hkl, hkp, -⟩
        exact hkq (huniq k hkl.1 q hql.1 hkl hql hkp hqp)
      · rw [hst.syncedSet, hbs]
      · rw [hst.syncedSet, hns]
    · exact .quiet fun q hq' => by_contra fun hne => hq ⟨q, hq', hne⟩

theorem SyncInv.join (h : SyncInv g) (hok : g.SyncJoinOk) (hi : i ∉ g.members) : SyncInv G := by
  have hnode : G.node i = _ := hG ▸ node_joined_self
  have hfl : G.flight i = _ := hG ▸ flight_joined_self
  rcases Member.handle_join_self env i dcNrNodes dev errno (g.members.card + 1) with
    ⟨fsm, bn, hh⟩ | ⟨h1, bn, hh⟩
  · rw [hh] at hnode hfl
    exact h.join_waiting hG hok hi hnode hfl
  · have hempty : g.members = ∅ := Finset.card_eq_zero.1 (by omega)
    rw [hh] at hnode hfl
    rw [h1] at hnode hfl
    exact .join_empty hG hempty hnode hfl

end Joins

/-! ### Leaves -/

/-- A member leaves when no `MC_SYNCHRONIZED` of another member is in flight. -/
def SyncLeaveOk (g : Net) (k : ℕ) : Prop := ∀ i ∈ g.members, i ≠ k → .synchronized ∉ g.flight i

instance (g : Net) (k : ℕ) : Decidable (g.SyncLeaveOk k) :=
  inferInstanceAs (Decidable (∀ i ∈ g.members, _))

variable (env) in
theorem SyncInv.left_cases (h : SyncInv g) (hj : j ∈ (g.left env k).members) :
    ((g.node j).exited = true ∧ (g.left env k).node j = g.node j ∧
      (g.left env k).flight j = g.flight j) ∨
    ((g.node j).exited = false ∧ (g.node j).synchronized = false ∧ (∃ fsm bn,
      (g.left env k).node j =
        { g.node j with fsm := fsm, bmNodes := bn, bmSync := ∅, nrNodes := 0, nrSync := 0 }) ∧
      (g.left env k).flight j = g.flight j) ∨
    g.Synced j ∧ ∃ pr sent,
      (g.left env k).node j =
        { g.node j with
          nrNodes := g.members.card - 1, bmNodes := (g.node j).bmNodes.erase k,
          bmSync := g.syncedSet.erase k,
          nrSync := if k ∈ g.syncedSet then g.syncedSet.card - 1 else g.syncedSet.card,
          bmAcks := (g.node j).bmAcks.erase k, primaryMbr := pr } ∧
      (g.left env k).flight j = g.flight j ++ sent ∧
      (pr = (g.node j).primaryMbr ∧ sent = [] ∨
        (g.node j).primaryMbr = some k ∧ pr = some j ∧ ∃ s bn bs,
          sent = [.statusInfo (g.members.card - 1) s bn bs]) := by
  have hnode := node_left hj
  have hfl := flight_left hj
  obtain ⟨hjk, hjm⟩ := mem_left.1 hj
  rcases Bool.eq_false_or_eq_true (g.node j).exited with hx | hx
  · rw [Member.handle_exited env hx] at hnode hfl
    exact .inl ⟨hx, hnode, by simpa using hfl⟩
  · have hne : (g.node j).localNodeid ≠ k := by rwa [h.ids j hjm]
    rcases Bool.eq_false_or_eq_true (g.node j).synchronized with hs | hs
    · have hsj : g.Synced j := ⟨⟨hjm, hx⟩, hs⟩
      obtain ⟨hbs, hns, -⟩ := h.sets j hsj
      obtain ⟨pr, sent, hh, hc⟩ := Member.handle_disconnect_sync env hx hne hs
        (h.mem_bmSync hsj.1 hs) (g.members.card - 1)
      rw [hh, hbs, hns] at hnode hfl
      rw [h.ids j hjm] at hc
      refine .inr (.inr ⟨hsj, pr, sent, hnode, hfl, ?_⟩)
      rcases hc with hc | ⟨h1, h2, h3⟩
      · exact .inl hc
      · exact .inr ⟨h1, h2, _, _, _, h3⟩
    · obtain ⟨fsm, bn, hh⟩ :=
        Member.handle_disconnect_unsync env hx hne hs (g.members.card - 1)
      rw [hh] at hnode hfl
      exact .inr (.inl ⟨hx, hs, ⟨fsm, bn, hnode⟩, by simpa using hfl⟩)

theorem SyncInv.synced_left (h : SyncInv g) : Synced (g.left env k) j ↔ j ≠ k ∧ g.Synced j := by
  constructor
  · rintro ⟨⟨hj, hx⟩, hs⟩
    obtain ⟨hjk, -⟩ := mem_left.1 hj
    refine ⟨hjk, ?_⟩
    rcases h.left_cases env hj with ⟨hx', hn, -⟩ | ⟨-, hun, ⟨fsm, bn, hn⟩, -⟩ | ⟨hsj, -⟩
    · simp [hn, hx'] at hx
    · rw [hn] at hs
      exact absurd hs (by simp [hun])
    · exact hsj
  · rintro ⟨hjk, hs⟩
    have hj : j ∈ (g.left env k).members := mem_left.2 ⟨hjk, hs.1.1⟩
    rcases h.left_cases env hj with ⟨hx', -⟩ | ⟨-, hun, -⟩ | ⟨-, pr, sent, hn, -⟩
    · simp [hs.1.2] at hx'
    · simp [hs.2] at hun
    · refine ⟨⟨hj, ?_⟩, ?_⟩ <;> rw [hn]
      · exact hs.1.2
      · exact hs.2

theorem SyncInv.syncedSet_left (h : SyncInv g) :
    syncedSet (g.left env k) = g.syncedSet.erase k := by
  ext j
  rw [mem_syncedSet, h.synced_left, Finset.mem_erase, mem_syncedSet]

theorem SyncInv.mem_flight_left (h : SyncInv g) (hj : j ∈ (g.left env k).members)
    (hx : x ∈ (g.left env k).flight j) :
    x ∈ g.flight j ∨ ∃ s bn bs, x = .statusInfo (g.members.card - 1) s bn bs := by
  rcases h.left_cases env hj with ⟨-, -, hf⟩ | ⟨-, -, -, hf⟩ | ⟨-, _, sent, -, hf, hc⟩
  · exact .inl (hf ▸ hx)
  · exact .inl (hf ▸ hx)
  · rw [hf, List.mem_append] at hx
    rcases hx with hx | hx
    · exact .inl hx
    · rcases hc with ⟨-, rfl⟩ | ⟨-, -, s, bn, bs, rfl⟩
      · cases hx
      · exact .inr ⟨s, bn, bs, List.mem_singleton.1 hx⟩

theorem SyncInv.leave (h : SyncInv g) (hk : k ∈ g.members) (hok : g.SyncLeaveOk k) :
    SyncInv (g.left env k) := by
  have hstatus : ∀ j ∈ (g.left env k).members, ∀ n s bn bs,
      .statusInfo n s bn bs ∈ (g.left env k).flight j → 0 < n ∧
        (((g.left env k).node j).exited = false →
          ((g.left env k).node j).synchronized = true) := by
    intro j hj n s bn bs hmsg
    obtain ⟨hjk, hjm⟩ := mem_left.1 hj
    rcases h.left_cases env hj with ⟨hx, hn, hf⟩ | ⟨hx, hun, ⟨_, _, hn⟩, hf⟩ | ⟨hs, _, sent, hn, -⟩
    · rw [hn]
      exact h.status j hjm n s bn bs (hf ▸ hmsg)
    · rw [hn]
      exact h.status j hjm n s bn bs (hf ▸ hmsg)
    · refine ⟨?_, fun _ => by rw [hn]; exact hs.2⟩
      rcases h.mem_flight_left hj hmsg with hold | ⟨_, _, _, heq⟩
      · exact (h.status j hjm n s bn bs hold).1
      · cases heq
        have := Finset.one_lt_card.2 ⟨j, hjm, k, hk, hjk⟩
        omega
  refine ⟨?_, ?_, ?_, hstatus, .stale ?_ ?_⟩
  · intro j hj
    have hid := h.ids j (mem_left.1 hj).2
    rcases h.left_cases env hj with ⟨-, hn, -⟩ | ⟨-, -, ⟨_, _, hn⟩, -⟩ | ⟨-, _, _, hn, -⟩ <;>
      rw [hn] <;> exact hid
  · intro j hj
    have hs := (h.synced_left.1 hj).2
    rcases h.left_cases env hj.1.1 with ⟨hx, -⟩ | ⟨-, hun, -⟩ | ⟨-, pr, sent, hn, -⟩
    · simp [hs.1.2] at hx
    · simp [hs.2] at hun
    · rw [hn, h.syncedSet_left]
      refine ⟨rfl, ?_, (h.sets j hs).2.2⟩
      rw [Finset.card_erase_eq_ite]
      split
      · rename_i hks
        have := Finset.card_pos.2 ⟨k, hks⟩
        simp only
        omega
      · rfl
  · intro j hj hpr
    rcases h.left_cases env hj.1 with ⟨hx, hn, -⟩ | ⟨hx, hun, ⟨fsm, bn, hn⟩, -⟩ | ⟨hs, _, _, hn, -⟩
    · exact absurd hj.2 (by simp [hn, hx])
    · rw [hn] at hpr
      exact absurd (h.self j ⟨(mem_left.1 hj.1).2, hx⟩ hpr) (by simp [hun])
    · rw [hn]
      exact hs.2
  · intro j hj hmsg
    obtain ⟨hjk, hjm⟩ := mem_left.1 hj
    rcases h.mem_flight_left hj hmsg with hold | ⟨_, _, _, heq⟩
    · exact hok j hjm hjk hold
    · cases heq
  · -- who waits has `nr_nodes` 0 now, and no status in flight has
    intro j hj hun _ i hi n s bn bs hmsg
    have hn0 := (hstatus i hi n s bn bs hmsg).1
    rcases h.left_cases env hj.1 with ⟨hx, hn, -⟩ | ⟨-, -, ⟨fsm, bn, hn⟩, -⟩ | ⟨hs, _, _, hn, -⟩
    · exact absurd hj.2 (by simp [hn, hx])
    · rw [hn]
      exact hn0.ne'
    · rw [hn] at hun
      exact absurd hs.2 (by simp [show (g.node j).synchronized = false from hun])

/-! ### Messages -/

section Messages

variable {G : Net} {msg : Msg} {rest : List Msg} {stale : ℕ → List UInt8} {n s : ℤ}
  {bn bs : Finset ℕ}

theorem mflight_of_cons (hf : g.flight i = msg :: rest) (hm : msg.isMembership = true) :
    g.mflight i = msg :: rest.filter Msg.isMembership := by
  rw [mflight, hf, List.filter_cons_of_pos hm]

section

variable (h : SyncInv g)

include h

theorem SyncInv.status_cases (hG : G = g.delivered env i (.statusInfo n s bn bs) rest stale)
    (hj : j ∈ g.members) :
    ((G.flight j = if j = i then rest else g.flight j) ∧
      (((g.node j).exited = true ∨ (g.node j).fsm ≠ .wait4primary) ∧ G.node j = g.node j ∨
        (g.node j).fsm = .wait4primary ∧
          G.node j = { g.node j with primaryMbr := some i, exited := true })) ∨
    g.Live j ∧ (g.node j).fsm = .wait4primary ∧ (g.node j).nrNodes = n ∧ (∃ fsm, G.node j =
      { g.node j with
        primaryMbr := some i, nrSync := s, bmNodes := bn, bmSync := bs, fsm := fsm }) ∧
      G.flight j = (if j = i then rest else g.flight j) ++ [.synchronized] := by
  subst hG
  have hnode : (g.delivered env i (.statusInfo n s bn bs) rest stale).node j = _ :=
    node_delivered hj (h.ids j hj)
  have hfl : (g.delivered env i (.statusInfo n s bn bs) rest stale).flight j = _ :=
    flight_delivered hj (h.ids j hj)
  rcases Bool.eq_false_or_eq_true (g.node j).exited with hx | hx
  · rw [Member.handle_exited env hx] at hnode hfl
    exact .inl ⟨by simpa using hfl, .inl ⟨.inl hx, hnode⟩⟩
  · rw [Member.handle_statusInfo env hx] at hnode hfl
    rcases Member.mcStatusInfo_cases env (g.node j) i n s bn bs with
      ⟨hw, hh⟩ | ⟨hw, -, hh⟩ | ⟨hw, hn, fsm, hh⟩ <;> rw [hh] at hnode hfl
    · exact .inl ⟨by simpa using hfl, .inl ⟨.inr hw, hnode⟩⟩
    · exact .inl ⟨by simpa using hfl, .inr ⟨hw, hnode⟩⟩
    · exact .inr ⟨⟨hj, hx⟩, hw, hn, ⟨fsm, hnode⟩, hfl⟩

theorem SyncInv.unsync_of_wait (hj : g.Live j) (hw : (g.node j).fsm = .wait4primary) :
    (g.node j).synchronized = false := by
  by_contra hs
  simp [(h.sets j ⟨hj, by simpa using hs⟩).2.2] at hw

theorem SyncInv.ne_of_wait (hi : i ∈ g.members) (hf : g.flight i = .statusInfo n s bn bs :: rest)
    (hj : g.Live j) (hw : (g.node j).fsm = .wait4primary) : j ≠ i := by
  rintro rfl
  have hs := (h.status j hi n s bn bs (Group.mem_of_flight hf)).2 hj.2
  simp [h.unsync_of_wait hj hw] at hs

theorem SyncInv.stays_status (hi : i ∈ g.members) (hf : g.flight i = .statusInfo n s bn bs :: rest)
    (hG : G = g.delivered env i (.statusInfo n s bn bs) rest stale) : Stays g G := by
  have hmem : G.members = g.members := by rw [hG, members_delivered]
  refine ⟨fun j hs => ⟨hmem ▸ hs.1.1, ?_⟩, fun j hj hs => ?_, fun j hj hs => ?_⟩
  · rcases h.status_cases hG hs.1.1 with ⟨-, ⟨-, hn⟩ | ⟨hw, -⟩⟩ | ⟨-, hw, -⟩
    · rw [hn]
      exact .refl _
    all_goals exact absurd hs.2 (by simp [h.unsync_of_wait hs.1 hw])
  · rw [hmem] at hj
    rcases h.status_cases hG hj with ⟨-, ⟨-, hn⟩ | ⟨-, hn⟩⟩ | ⟨-, -, -, ⟨_, hn⟩, -⟩ <;>
      rw [hn] <;> exact h.ids j hj
  · obtain ⟨hj, hx⟩ := hj
    rw [hmem] at hj
    rcases h.status_cases hG hj with ⟨-, ⟨-, hn⟩ | ⟨-, hn⟩⟩ | ⟨hl, hw, -, ⟨_, hn⟩, -⟩
    · rw [hn] at hx ⊢
      exact h.unsynced ⟨hj, hx⟩ hs
    · simp [hn] at hx
    · rw [hn]
      refine ⟨h.unsync_of_wait hl hw, fun hp => h.ne_of_wait hi hf hl hw ?_⟩
      exact (Option.some.inj hp).symm

theorem SyncInv.phase_status (hi : i ∈ g.members) (hf : g.flight i = .statusInfo n s bn bs :: rest)
    (hG : G = g.delivered env i (.statusInfo n s bn bs) rest stale) : Phase G := by
  have hmem : G.members = g.members := by rw [hG, members_delivered]
  have hst := h.stays_status hi hf hG
  have hmfl := mflight_of_cons hf rfl
  cases h.phase with
  | stale hsync hstatus =>
    -- who waits exits
    have hno : ∀ {j}, g.Live j → (g.node j).fsm = .wait4primary → (g.node j).nrNodes ≠ n := by
      intro j hl hw hn
      exact hstatus j hl (h.unsync_of_wait hl hw) hw i hi n s bn bs (Group.mem_of_flight hf) hn.symm
    refine .stale ?_ ?_
    · intro j hj hmsg
      rw [hmem] at hj
      rcases h.status_cases hG hj with ⟨hfl, -⟩ | ⟨hl, hw, hn, -⟩
      · exact hsync j hj (Group.mem_of_mem_pop hf (hfl ▸ hmsg))
      · exact hno hl hw hn
    · intro j hj _ hw
      obtain ⟨hj, hx⟩ := hj
      rw [hmem] at hj
      rcases h.status_cases hG hj with ⟨-, ⟨hc, hn⟩ | ⟨-, hn⟩⟩ | ⟨hl, hw, hn, -⟩
      · rw [hn] at hx hw
        simp [hx, hw] at hc
      · simp [hn] at hx
      · exact absurd hn (hno hl hw)
  | asked j₀ i₀ n₀ s₀ bn₀ bs₀ hj hun honly hi₀ hfl hothers hbs hs =>
    obtain rfl : i = i₀ := by
      by_contra hne
      simp [hothers i hi hne] at hmfl
    rw [hfl] at hmfl
    obtain ⟨heq, hrest⟩ := List.cons.inj hmfl
    obtain ⟨rfl, rfl, rfl, rfl⟩ : n₀ = n ∧ s₀ = s ∧ bn₀ = bn ∧ bs₀ = bs := by simpa using heq
    -- nothing else of the protocol is in flight
    have hpop : ∀ j ∈ g.members,
        (if j = i then rest else g.flight j).filter Msg.isMembership = [] := by
      intro j hj
      split
      · exact hrest.symm
      · rename_i hji
        exact hothers j hj hji
    have hquiet : ∀ j ∈ g.members, j ≠ j₀ → G.mflight j = [] := by
      intro j hjm hne
      rcases h.status_cases hG hjm with ⟨hfl, -⟩ | ⟨hl, hw, -⟩
      · rw [mflight, hfl, hpop j hjm]
      · exact absurd (honly j hl (h.unsync_of_wait hl hw)) hne
    rcases h.status_cases hG hj.1 with ⟨hfl, -⟩ | ⟨-, -, -, ⟨fsm, hn⟩, hfl⟩
    · refine .quiet fun k hk => ?_
      by_cases hk₀ : k = j₀
      · rw [hk₀, mflight, hfl, hpop j₀ hj.1]
      · exact hquiet k (hmem ▸ hk) hk₀
    · refine .answered j₀ ⟨hmem ▸ hj.1, by rw [hn]; exact hj.2⟩ (by rw [hn]; exact hun) ?_ ?_ ?_
        (by rw [hn, hst.syncedSet, hbs]) (by rw [hn, hst.syncedSet, hs])
      · intro k hk hunk
        by_contra hne
        have hkm : k ∈ g.members := hmem ▸ hk.1
        have hl : g.Live k := by
          have hx := hk.2
          rcases h.status_cases hG hkm with ⟨-, ⟨-, hn⟩ | ⟨-, hn⟩⟩ | ⟨hl, -⟩
          · exact ⟨hkm, hn ▸ hx⟩
          · simp [hn] at hx
          · exact hl
        refine hne (honly k hl (h.unsynced hl fun hsk => ?_).1)
        simp [((hst.synced_iff k).2 hsk).2] at hunk
      · rw [mflight, hfl, List.filter_append, hpop j₀ hj.1]
        rfl
      · exact fun k hk hne => hquiet k (hmem ▸ hk) hne
  | answered j₀ hj hun honly hfl hothers hbs hs =>
    by_cases hij : i = j₀
    · simp [hij, hfl] at hmfl
    · simp [hothers i hi hij] at hmfl

theorem SyncInv.deliver_status (hi : i ∈ g.members)
    (hf : g.flight i = .statusInfo n s bn bs :: rest) (stale : ℕ → List UInt8) :
    SyncInv (g.delivered env i (.statusInfo n s bn bs) rest stale) := by
  obtain ⟨G, hG⟩ : ∃ G : Net, G = g.delivered env i (.statusInfo n s bn bs) rest stale := ⟨_, rfl⟩
  rw [← hG]
  refine h.stays (h.stays_status hi hf hG) ?_ (h.phase_status hi hf hG)
  intro j hj n' s' bn' bs' hmsg
  have hjm : j ∈ g.members := by rwa [hG] at hj
  have hold : .statusInfo n' s' bn' bs' ∈ g.flight j := by
    rcases h.status_cases hG hjm with ⟨hfl, -⟩ | ⟨-, -, -, -, hfl⟩
    · exact Group.mem_of_mem_pop hf (hfl ▸ hmsg)
    · rw [hfl, List.mem_append, List.mem_singleton] at hmsg
      exact Group.mem_of_mem_pop hf (hmsg.resolve_right (by simp))
  obtain ⟨hpos, hs⟩ := h.status j hjm n' s' bn' bs' hold
  refine ⟨hpos, fun hx => ?_⟩
  rcases h.status_cases hG hjm with ⟨-, ⟨-, hn⟩ | ⟨-, hn⟩⟩ | ⟨-, -, -, ⟨_, hn⟩, -⟩
  · rw [hn] at hx ⊢
    exact hs hx
  · simp [hn] at hx
  · rw [hn] at hx ⊢
    exact hs hx

theorem SyncInv.synchronized_cases (hi : g.Live i)
    (honly : ∀ k, g.Live k → (g.node k).synchronized = false → k = i)
    (hG : G = g.delivered env i .synchronized rest stale) (hj : j ∈ g.members) :
    (G.flight j = if j = i then rest else g.flight j) ∧
    ((j ≠ i ∧ (g.node j).exited = true ∧ G.node j = g.node j) ∨
      (j = i ∧ G.node j =
        { g.node j with
          fsm := .synchronized, synchronized := true, nrSync := (g.node j).nrSync + 1,
          bmSync := insert i (g.node j).bmSync }) ∨
      j ≠ i ∧ g.Synced j ∧ G.node j =
        { g.node j with
          nrSync := (g.node j).nrSync + 1, bmSync := insert i (g.node j).bmSync }) := by
  subst hG
  have hid := h.ids j hj
  have hnode : (g.delivered env i .synchronized rest stale).node j = _ := node_delivered hj hid
  have hfl : (g.delivered env i .synchronized rest stale).flight j = _ := flight_delivered hj hid
  rcases Bool.eq_false_or_eq_true (g.node j).exited with hx | hx
  · rw [Member.handle_exited env hx] at hnode hfl
    refine ⟨by simpa using hfl, .inl ⟨?_, hx, hnode⟩⟩
    rintro rfl
    simp [hi.2] at hx
  · rw [Member.handle_synchronized env hx] at hnode hfl
    refine ⟨by simpa using hfl, .inr ?_⟩
    by_cases hji : j = i
    · subst hji
      have hself := (g.node j).mcSynchronized_self
      rw [hid] at hself
      exact .inl ⟨rfl, by simp only [hnode, hself, hid]⟩
    · have hs : (g.node j).synchronized = true := by
        by_contra hun
        exact hji (honly j ⟨hj, hx⟩ (by simpa using hun))
      rw [Member.mcSynchronized_other (by rw [hid]; exact Ne.symm hji), if_pos hs] at hnode
      exact .inr ⟨hji, ⟨⟨hj, hx⟩, hs⟩, hnode⟩

theorem SyncInv.deliver_answer (hi : g.Live i) (hf : g.flight i = .synchronized :: rest)
    (hun : (g.node i).synchronized = false)
    (honly : ∀ k, g.Live k → (g.node k).synchronized = false → k = i)
    (hrest : rest.filter Msg.isMembership = [])
    (hothers : ∀ k ∈ g.members, k ≠ i → g.mflight k = []) (hbs : (g.node i).bmSync = g.syncedSet)
    (hs : (g.node i).nrSync = g.syncedSet.card)
    (hG : G = g.delivered env i .synchronized rest stale) : SyncInv G := by
  have hmem : G.members = g.members := by rw [hG, members_delivered]
  have hcases := fun j hj => h.synchronized_cases (j := j) hi honly hG hj
  have hsynced : ∀ j, G.Synced j ↔ j = i ∨ g.Synced j := by
    intro j
    constructor
    · rintro ⟨⟨hj, hx⟩, hsj⟩
      rcases (hcases j (hmem ▸ hj)).2 with ⟨-, hx', hn⟩ | ⟨hji, -⟩ | ⟨-, hsj, -⟩
      · simp [hn, hx'] at hx
      · exact .inl hji
      · exact .inr hsj
    · intro hj
      have hjm : j ∈ g.members := hj.elim (fun he => he ▸ hi.1) fun hsj => hsj.1.1
      rcases (hcases j hjm).2 with ⟨hji, hx, -⟩ | ⟨hji, hn⟩ | ⟨-, hsj, hn⟩
      · have hx' := (hj.resolve_left hji).1.2
        simp [hx] at hx'
      · refine ⟨⟨hmem ▸ hjm, ?_⟩, ?_⟩ <;> rw [hn]
        rw [hji]
        exact hi.2
      · refine ⟨⟨hmem ▸ hjm, ?_⟩, ?_⟩ <;> rw [hn]
        · exact hsj.1.2
        · exact hsj.2
  have hset : G.syncedSet = insert i g.syncedSet := by
    ext j
    rw [mem_syncedSet, hsynced, Finset.mem_insert, mem_syncedSet]
  have hcard : G.syncedSet.card = g.syncedSet.card + 1 := by
    rw [hset, Finset.card_insert_of_notMem]
    rw [mem_syncedSet]
    intro hsi
    simp [hsi.2] at hun
  have hquiet : ∀ j ∈ G.members, G.mflight j = [] := by
    intro j hj
    rw [hmem] at hj
    rw [mflight, (hcases j hj).1]
    split
    · exact hrest
    · rename_i hji
      exact hothers j hj hji
  refine ⟨?_, ?_, ?_, ?_, .quiet hquiet⟩
  · intro j hj
    have hid := h.ids j (hmem ▸ hj)
    rcases (hcases j (hmem ▸ hj)).2 with ⟨-, -, hn⟩ | ⟨-, hn⟩ | ⟨-, -, hn⟩ <;> rw [hn] <;>
      exact hid
  · intro j hj
    rw [hcard, hset]
    rcases (hcases j (hmem ▸ hj.1.1)).2 with ⟨hji, hx, -⟩ | ⟨rfl, hn⟩ | ⟨-, hsj, hn⟩
    · have hx' := (((hsynced j).1 hj).resolve_left hji).1.2
      simp [hx] at hx'
    · rw [hn, hbs, hs]
      exact ⟨rfl, by simp, rfl⟩
    · obtain ⟨h1, h2, h3⟩ := h.sets j hsj
      rw [hn, h1, h2]
      exact ⟨rfl, by simp, h3⟩
  · intro j hj hpr
    rcases (hcases j (hmem ▸ hj.1)).2 with ⟨-, hx, hn⟩ | ⟨hji, hn⟩ | ⟨-, hsj, hn⟩
    · exact absurd hj.2 (by simp [hn, hx])
    · rw [hn]
    · rw [hn]
      exact hsj.2
  · intro j hj n s bn bs hmsg
    exact absurd hmsg (not_mem_of_quiet (hquiet j hj) rfl)

theorem SyncInv.deliver_synchronized (hi : i ∈ g.members) (hf : g.flight i = .synchronized :: rest)
    (stale : ℕ → List UInt8) : SyncInv (g.delivered env i .synchronized rest stale) := by
  have hmfl := mflight_of_cons hf rfl
  cases h.phase with
  | stale hsync hstatus => exact absurd (Group.mem_of_flight hf) (hsync i hi)
  | asked j₀ i₀ n₀ s₀ bn₀ bs₀ hj hun honly hi₀ hfl hothers hbs hs =>
    by_cases hij : i = i₀
    · simp [hij, hfl] at hmfl
    · simp [hothers i hi hij] at hmfl
  | answered j₀ hj hun honly hfl hothers hbs hs =>
    obtain rfl : i = j₀ := by
      by_contra hne
      simp [hothers i hi hne] at hmfl
    rw [hfl] at hmfl
    exact h.deliver_answer hj hf hun honly (List.cons.inj hmfl).2.symm hothers hbs hs rfl

end

theorem Phase.congr (h : Phase g) (hmem : g'.members = g.members)
    (hsame : ∀ j ∈ g.members, Member.SameGroup (g.node j) (g'.node j) ∧
      (g'.node j).exited = (g.node j).exited)
    (hfl : ∀ j ∈ g.members, g'.mflight j = g.mflight j) : Phase g' := by
  have hlive : ∀ j, g'.Live j → g.Live j := by
    rintro j ⟨hj, hx⟩
    rw [hmem] at hj
    exact ⟨hj, by rw [← (hsame j hj).2, hx]⟩
  have hlive' : ∀ j, g.Live j → g'.Live j :=
    fun j hj => ⟨hmem ▸ hj.1, by rw [(hsame j hj.1).2, hj.2]⟩
  have hset : g'.syncedSet = g.syncedSet := by
    refine syncedSet_congr fun j => ⟨fun hj => ⟨hlive j hj.1, ?_⟩, fun hj => ⟨hlive' j hj.1, ?_⟩⟩
    · rw [← (hsame j (hlive j hj.1).1).1.synchronized, hj.2]
    · rw [(hsame j hj.1.1).1.synchronized, hj.2]
  have honly : ∀ j₀, (∀ k, g.Live k → (g.node k).synchronized = false → k = j₀) →
      ∀ k, g'.Live k → (g'.node k).synchronized = false → k = j₀ := by
    intro j₀ honly k hk hun
    rw [(hsame k (hlive k hk).1).1.synchronized] at hun
    exact honly k (hlive k hk) hun
  have hflight : ∀ j ∈ g'.members, ∀ x, x.isMembership = true → x ∈ g'.flight j →
      x ∈ g.flight j := by
    intro j hj x hx hmsg
    have hm : x ∈ g'.mflight j := mem_mflight.2 ⟨hmsg, hx⟩
    rw [hfl j (hmem ▸ hj)] at hm
    exact (mem_mflight.1 hm).1
  cases h with
  | stale hsync hstatus =>
    refine .stale (fun i hi hmsg => hsync i (hmem ▸ hi) (hflight i hi _ rfl hmsg)) ?_
    intro j hj hun hw i hi n s bn bs hmsg
    have hs := (hsame j (hlive j hj).1).1
    rw [hs.synchronized] at hun
    rw [hs.fsm] at hw
    rw [hs.nrNodes]
    exact hstatus j (hlive j hj) hun hw i (hmem ▸ hi) n s bn bs (hflight i hi _ rfl hmsg)
  | asked j i n s bn bs hj hun honly' hi hf hothers hbs hs =>
    refine .asked j i n s bn bs (hlive' j hj) ?_ (honly j honly') (hmem ▸ hi) ?_ ?_ ?_ ?_
    · rw [(hsame j hj.1).1.synchronized, hun]
    · rw [hfl i hi, hf]
    · intro k hk hki
      rw [hfl k (hmem ▸ hk), hothers k (hmem ▸ hk) hki]
    · rw [hset, hbs]
    · rw [hset, hs]
  | answered j hj hun honly' hf hothers hbs hs =>
    have hsj := (hsame j hj.1).1
    refine .answered j (hlive' j hj) ?_ (honly j honly') ?_ ?_ ?_ ?_
    · rw [hsj.synchronized, hun]
    · rw [hfl j hj.1, hf]
    · intro k hk hkj
      rw [hfl k (hmem ▸ hk), hothers k (hmem ▸ hk) hkj]
    · rw [hset, hsj.bmSync, hbs]
    · rw [hset, hsj.nrSync, hs]

theorem SyncInv.congr (h : SyncInv g) (hmem : g'.members = g.members)
    (hsame : ∀ j ∈ g.members, Member.SameGroup (g.node j) (g'.node j) ∧
      (g'.node j).exited = (g.node j).exited)
    (hfl : ∀ j ∈ g.members, g'.mflight j = g.mflight j) : SyncInv g' := by
  refine h.stays ⟨fun j hj => ⟨hmem ▸ hj.1.1, ?_⟩, fun j hj _ => ?_, fun j hj hns => ?_⟩ ?_
    (h.phase.congr hmem hsame hfl)
  · obtain ⟨hs, hx⟩ := hsame j hj.1.1
    exact ⟨hs.localNodeid, hx, hs.synchronized, hs.fsm, hs.primaryMbr, hs.nrSync, hs.bmSync⟩
  · rw [hmem] at hj
    rw [(hsame j hj).1.localNodeid, h.ids j hj]
  · obtain ⟨hj, hx⟩ := hj
    rw [hmem] at hj
    obtain ⟨hs, hx'⟩ := hsame j hj
    rw [hs.synchronized, hs.primaryMbr]
    exact h.unsynced ⟨hj, by rw [← hx', hx]⟩ hns
  · intro j hj n s bn bs hmsg
    rw [hmem] at hj
    have hm : .statusInfo n s bn bs ∈ g'.mflight j := mem_mflight.2 ⟨hmsg, rfl⟩
    rw [hfl j hj] at hm
    rw [(hsame j hj).2, (hsame j hj).1.synchronized]
    exact h.status j hj n s bn bs (mem_mflight.1 hm).1

theorem SyncInv.deliver_device (h : SyncInv g) (hf : g.flight i = msg :: rest)
    (hmsg : msg.isMembership = false) (stale : ℕ → List UInt8)
    (hx : ∀ j ∈ g.members, ((g.node j).handle env (.message i msg (stale j))).1.exited =
      (g.node j).exited) : SyncInv (g.delivered env i msg rest stale) := by
  refine h.congr rfl (fun j hj => ?_) fun j hj => ?_
  · rw [node_delivered hj (h.ids j hj)]
    exact ⟨((g.node j).handle_device env i hmsg (stale j)).1, hx j hj⟩
  · have hsent : ((g.node j).handle env (.message i msg (stale j))).2.filter Msg.isMembership =
        [] := by
      refine List.filter_eq_nil_iff.2 fun x hx => ?_
      rw [((g.node j).handle_device env i hmsg (stale j)).2 x hx]
      decide
    rw [mflight, flight_delivered hj (h.ids j hj), List.filter_append, hsent, List.append_nil,
      mflight]
    split
    · rename_i hji
      rw [hji, hf, List.filter_cons_of_neg (by simp [hmsg])]
    · rfl

theorem SyncInv.drive (h : SyncInv g) {r : Member × List Msg}
    (hr : driverStep env (g.node i) a = some r) : SyncInv (g.act i r) := by
  obtain ⟨hsame, hx, -, hsent⟩ := Member.driverStep_frame hr
  refine h.congr rfl (fun j hj => ?_) fun j hj => ?_
  · by_cases hji : j = i
    · subst hji
      rw [Group.node_act_self]
      exact ⟨hsame, hx⟩
    · rw [Group.node_act_of_ne hji]
      exact ⟨.refl _, rfl⟩
  · by_cases hji : j = i
    · subst hji
      have hno : r.2.filter Msg.isMembership = [] :=
        List.filter_eq_nil_iff.2 fun x hx => by simp [(hsent x hx).1]
      rw [mflight, Group.flight_act_self, List.filter_append, hno, List.append_nil, mflight]
    · rw [mflight, Group.flight_act_of_ne hji, mflight]

end Messages

/-! ### Every run -/

structure AgreedSync (g : Net) : Prop where
  agree : ∀ i j, g.Synced i → g.Synced j → (g.node i).bmSync = (g.node j).bmSync
  members : ∀ i, g.Synced i → (g.node i).bmSync ⊆ g.members
  exact : ∀ i, g.Synced i → ∀ j, j ∈ (g.node i).bmSync ↔ g.Synced j
  count : ∀ i, g.Synced i → (g.node i).nrSync = (g.node i).bmSync.card

theorem SyncInv.agreedSync (h : SyncInv g) : AgreedSync g where
  agree i j hi hj := by rw [(h.sets i hi).1, (h.sets j hj).1]
  members i hi := by
    rw [(h.sets i hi).1]
    exact Finset.filter_subset _ _
  exact i hi j := by rw [(h.sets i hi).1, mem_syncedSet]
  count i hi := by rw [(h.sets i hi).1, (h.sets i hi).2.1]

/-- One member joins at a time and nobody leaves while the `MC_SYNCHRONIZED` of another member is in
flight. -/
def SyncOk (g : Net) : Label → Prop
  | .join .. => g.SyncJoinOk
  | .leave k => g.SyncLeaveOk k
  | .deliver .. => True
  | _ => False

instance (g : Net) (a : Label) : Decidable (g.SyncOk a) :=
  match a with
  | .join .. => inferInstanceAs (Decidable g.SyncJoinOk)
  | .leave k => inferInstanceAs (Decidable (g.SyncLeaveOk k))
  | .deliver .. => inferInstanceAs (Decidable True)
  | .network .. | .write .. | .turn _ | .openDev .. | .sendOpen _ | .wake _ | .spurious _ =>
    inferInstanceAs (Decidable False)

theorem SyncInv.start (dcNrNodes : ℤ) (dev : Fin nrDevs → Dev) :
    SyncInv (Net.start dcNrNodes dev) where
  ids _ hi := by cases hi
  sets _ hi := by cases hi.1.1
  self _ hi := by cases hi.1
  status _ hi := by cases hi
  phase := .quiet fun _ hi => by cases hi

def NoDevice (g : Net) : Prop := ∀ i ∈ g.members, ∀ x ∈ g.flight i, x.isMembership = true

theorem SyncOk.isMembership (h : g.SyncOk a) : a.isMembership = true := by
  cases a <;> first | rfl | exact h.elim

theorem NoDevice.step (hids : ∀ i ∈ g.members, (g.node i).localNodeid = i) (h : NoDevice g)
    (hok : a.isMembership = true) (hst : Net.step env dcNrNodes g a = some g') : NoDevice g' := by
  have happend : ∀ {old : List Msg} {m : Member} {e : Event}, e.isMembership = true →
      (∀ x ∈ old, x.isMembership = true) →
      ∀ x ∈ old ++ (m.handle env e).2, x.isMembership = true := by
    intro old m e he hold x hx
    rcases List.mem_append.1 hx with hx | hx
    · exact hold x hx
    · exact m.isMembership_handle env he x hx
  rcases step_cases hst with ⟨i, dev, errno, rfl, hi, -, rfl⟩ | ⟨k, rfl, hk, rfl⟩ |
    ⟨members, node, rfl, -, rfl⟩ | ⟨i, stale, msg, rest, rfl, hi, hf, rfl⟩ | ⟨i, r, -, -, hr, rfl⟩
  · intro j hj
    rcases Finset.mem_insert.1 hj with rfl | hj
    · rw [flight_joined_self]
      exact Member.isMembership_handle env _ rfl
    · rw [flight_joined hi hj]
      exact happend rfl (h j hj)
  · intro j hj
    rw [flight_left hj]
    exact happend rfl (h j (mem_left.1 hj).2)
  · cases hok
  · intro j hj
    rw [members_delivered] at hj
    rw [flight_delivered hj (hids j hj)]
    refine happend (h i hi msg (Group.mem_of_flight hf)) fun x hx => ?_
    exact h j hj x (Group.mem_of_mem_pop hf hx)
  · cases a <;> first | cases hr | cases hok

theorem SyncInv.step (h : SyncInv g) (hno : NoDevice g) (hok : g.SyncOk a)
    (hst : Net.step env dcNrNodes g a = some g') : SyncInv g' := by
  rcases step_cases hst with ⟨i, dev, errno, rfl, hi, -, rfl⟩ | ⟨k, rfl, hk, rfl⟩ |
    ⟨members, node, rfl, -, rfl⟩ | ⟨i, stale, msg, rest, rfl, hi, hf, rfl⟩ | ⟨i, r, -, -, hr, rfl⟩
  · exact h.join rfl hok hi
  · exact h.leave hk hok
  · exact hok.elim
  · have hmsg := hno i hi msg (Group.mem_of_flight hf)
    cases msg with
    | devWrite | devOpen | taskReply => cases hmsg
    | statusInfo n s bn bs => exact h.deliver_status hi hf stale
    | synchronized => exact h.deliver_synchronized hi hf stale
  · exact h.drive hr

/-- **The sets of synchronized members agree**, and count exactly the live members that are
synchronized, in every run in which nodes join one at a time and nobody leaves while the
`MC_SYNCHRONIZED` of another is in flight. -/
theorem synced_sets_agree (env : Env) (dcNrNodes : ℤ) (dev : Fin nrDevs → Dev)
    (h : Reach.Reachable (step env dcNrNodes) SyncOk (start dcNrNodes dev) g) : AgreedSync g := by
  have hinv : SyncInv g ∧ NoDevice g :=
    h.invariant (I := fun g => SyncInv g ∧ NoDevice g)
      ⟨.start dcNrNodes dev, fun _ hi => by cases hi⟩
      fun s a t ⟨hs, hno⟩ hok hst => ⟨hs.step hno hok hst, hno.step hs.ids hok.isMembership hst⟩
  exact hinv.1.agreedSync

/-- Three nodes join one after the other and are synchronized, and the first one leaves. -/
theorem synced_sets_agree_three : ∃ g : Net,
    Reach.Reachable (step .sample 4) SyncOk (start 4 fun _ => .sample) g ∧
      g.Synced 1 ∧ g.Synced 2 ∧ (g.node 1).bmSync = {1, 2} ∧ AgreedSync g := by
  obtain ⟨g, hr, hg⟩ := Reach.exists_reachable_of_exec (step .sample 4) SyncOk
    (start 4 fun _ => .sample)
    (fun g => decide (g.Synced 1 ∧ g.Synced 2 ∧ (g.node 1).bmSync = {1, 2}))
    (twoJoins ++ [.join 2 (fun _ => .sample) 0, .deliver 0 fun _ => [], .deliver 2 fun _ => [],
      .leave 0]) (by decide +kernel)
  obtain ⟨h1, h2, hset⟩ := of_decide_eq_true hg
  exact ⟨g, hr, h1, h2, hset, synced_sets_agree .sample 4 _ hr⟩

/-- Node 2 joins before the `MC_SYNCHRONIZED` of node 1 is delivered: the status that it takes over
was sent before. -/
theorem synced_sets_differ : ∃ g : Net,
    Reach.Reachable (step .sample 4) (fun _ a => a.isMembership = true)
      (start 4 fun _ => .sample) g ∧ ¬ AgreedSync g := by
  obtain ⟨g, hr, hg⟩ := Reach.exists_reachable_of_exec (step .sample 4)
    (fun _ a => a.isMembership = true) (start 4 fun _ => .sample)
    (fun g => decide (g.Synced 1 ∧ g.Synced 2 ∧ 1 ∉ (g.node 2).bmSync))
    [.join 0 (fun _ => .sample) 0, .deliver 0 fun _ => [], .join 1 (fun _ => .sample) 0,
      .deliver 0 fun _ => [], .join 2 (fun _ => .sample) 0, .deliver 1 fun _ => [],
      .deliver 0 fun _ => [], .deliver 2 fun _ => []] (by decide +kernel)
  obtain ⟨h1, h2, hno⟩ := of_decide_eq_true hg
  exact ⟨g, hr, fun h => hno ((h.exact 2 h2 1).2 h1)⟩

end Net

end Rdisk

end MolIpc
