import MolIpc.Rdisk.Handlers

/-!
The primary of the replication group.

On the death of the primary every synchronized survivor looks for a new one only among its own
bits and finds itself. So there is one primary as long as at most one synchronized member survives
it, and nobody who has taken over its status is still to be synchronized: `one_primary`.
-/

namespace MolIpc

namespace Rdisk

open Groups Disk

namespace Net

variable {env : Env} {dcNrNodes : ℤ} {g g' : Net} {p i j k : ℕ} {m : Member} {rest : List Msg}
  {e : Event} {msg : Msg} {a : Label}

/-- `i` is live and synchronized. -/
def Synced (g : Net) (i : ℕ) : Prop := g.Live i ∧ (g.node i).synchronized = true

instance (g : Net) (i : ℕ) : Decidable (g.Synced i) := inferInstanceAs (Decidable (_ ∧ _))

/-! ### Liveness -/

theorem exited_of_handle (h : (m.handle env e).1.exited = false) : m.exited = false := by
  cases hx : m.exited with
  | false => rfl
  | true =>
    unfold Member.handle at h
    rw [if_pos hx, hx] at h
    cases h

/-! ### The agreement on a primary -/

/-- The synchronized members agree on `p`; nobody else takes itself for the primary or multicasts
its status, and those who have announced themselves have it from `p`. -/
structure OnePrimary (p : ℕ) (g : Net) : Prop where
  ids : ∀ i ∈ g.members, (g.node i).localNodeid = i
  sync : ∀ i, g.Synced i →
    (g.node i).primaryMbr = some p ∧ (g.node i).fsm = .synchronized ∧ i ∈ (g.node i).bmSync
  self : ∀ i, g.Live i → (g.node i).IsPrimary → i = p ∧ g.Synced i
  status : ∀ i ∈ g.members, ∀ n s bn bs, .statusInfo n s bn bs ∈ g.flight i → i = p ∧ g.Synced p
  joining : ∀ i, g.Live i → .synchronized ∈ g.flight i → (g.node i).primaryMbr = some p

/-- A member stays what it was if it stays live, and multicasts a status only if it takes itself for
the primary. -/
structure Keeps (m m' : Member) (sent : List Msg) : Prop where
  id : m'.localNodeid = m.localNodeid
  live : m'.exited = false → m.exited = false
  primary : m'.exited = false → m'.primaryMbr = m.primaryMbr
  synchronized : m'.exited = false → m'.synchronized = m.synchronized
  sync : m'.exited = false → m.synchronized = true →
    m'.fsm = m.fsm ∧ (m.localNodeid ∈ m.bmSync → m.localNodeid ∈ m'.bmSync)
  stays : m.exited = false → m.IsPrimary → m'.exited = false
  status : ∀ n s bn bs, .statusInfo n s bn bs ∈ sent → m.exited = false ∧ m.IsPrimary
  joining : .synchronized ∉ sent

theorem Keeps.isPrimary {m' : Member} {sent : List Msg} (h : Keeps m m' sent)
    (hx : m'.exited = false) (hp : m'.IsPrimary) : m.IsPrimary := by
  unfold Member.IsPrimary at hp ⊢
  rw [← h.primary hx, hp, h.id]

theorem Keeps.synced {sent : List Msg} (h : Keeps (g.node j) (g'.node j) sent) (hj : j ∈ g.members)
    (hs : g'.Synced j) : g.Synced j :=
  ⟨⟨hj, h.live hs.1.2⟩, by rw [← h.synchronized hs.1.2, hs.2]⟩

/-- The member `j` keeps the agreement in a step of the group. -/
def KeepsAt (g g' : Net) (j : ℕ) : Prop :=
  ∃ sent, Keeps (g.node j) (g'.node j) sent ∧
    ∀ x ∈ g'.flight j, x ∈ g.flight j ∨ x ∈ sent

structure Newcomer (g : Net) (j : ℕ) : Prop where
  id : (g.node j).localNodeid = j
  unsync : (g.node j).synchronized = false
  primary : (g.node j).primaryMbr ≠ some j
  flight : g.flight j = []

theorem OnePrimary.isPrimary (h : OnePrimary p g) (hp : g.Synced p) : (g.node p).IsPrimary := by
  unfold Member.IsPrimary
  rw [h.ids p hp.1.1]
  exact (h.sync p hp).1

structure Follows (p : ℕ) (g g' : Net) (j : ℕ) : Prop where
  id : (g'.node j).localNodeid = j
  primary : (g'.node j).primaryMbr = some p
  sync : Synced g' j → (g'.node j).fsm = .synchronized ∧ j ∈ (g'.node j).bmSync
  self : j = p → Synced g' j
  flight : ∀ n s bn bs, .statusInfo n s bn bs ∈ g'.flight j → .statusInfo n s bn bs ∈ g.flight j

theorem OnePrimary.keep (h : OnePrimary p g)
    (hold : ∀ j ∈ g'.members, j ∈ g.members → KeepsAt g g' j ∨ Follows p g g' j)
    (hnew : ∀ j ∈ g'.members, j ∉ g.members → Newcomer g' j) : OnePrimary p g' where
  ids j hj := by
    by_cases hm : j ∈ g.members
    · rcases hold j hj hm with ⟨sent, hk, -⟩ | hfo
      · rw [hk.id, h.ids j hm]
      · exact hfo.id
    · exact (hnew j hj hm).id
  sync j hj := by
    by_cases hm : j ∈ g.members
    · rcases hold j hj.1.1 hm with ⟨sent, hk, -⟩ | hfo
      · have hs := hk.synced hm hj
        obtain ⟨h1, h2, h3⟩ := h.sync j hs
        obtain ⟨hf, hb⟩ := hk.sync hj.1.2 hs.2
        rw [h.ids j hm] at hb
        rw [hk.primary hj.1.2, hf]
        exact ⟨h1, h2, hb h3⟩
      · exact ⟨hfo.primary, hfo.sync hj⟩
    · exact absurd hj.2 (by simp [(hnew j hj.1.1 hm).unsync])
  self j hj hpr := by
    by_cases hm : j ∈ g.members
    · rcases hold j hj.1 hm with ⟨sent, hk, -⟩ | hfo
      · obtain ⟨hjp, hs⟩ := h.self j ⟨hm, hk.live hj.2⟩ (hk.isPrimary hj.2 hpr)
        exact ⟨hjp, hj, by rw [hk.synchronized hj.2]; exact hs.2⟩
      · have hjp : j = p := by
          unfold Member.IsPrimary at hpr
          rw [hfo.primary, hfo.id] at hpr
          exact (Option.some.inj hpr).symm
        exact ⟨hjp, hfo.self hjp⟩
    · have hn := hnew j hj.1 hm
      unfold Member.IsPrimary at hpr
      rw [hn.id] at hpr
      exact absurd hpr hn.primary
  status j hj n s bn bs hmsg := by
    by_cases hm : j ∈ g.members
    · rcases hold j hj hm with ⟨sent, hk, hfl⟩ | hfo
      · have hjp : j = p ∧ g.Synced p := by
          rcases hfl _ hmsg with hin | hin
          · exact h.status j hm n s bn bs hin
          · obtain ⟨hx, hpr⟩ := hk.status n s bn bs hin
            obtain ⟨rfl, hs⟩ := h.self j ⟨hm, hx⟩ hpr
            exact ⟨rfl, hs⟩
        obtain ⟨rfl, hs⟩ := hjp
        have hx := hk.stays hs.1.2 (h.isPrimary hs)
        exact ⟨rfl, ⟨hj, hx⟩, by rw [hk.synchronized hx]; exact hs.2⟩
      · obtain ⟨hjp, -⟩ := h.status j hm n s bn bs (hfo.flight n s bn bs hmsg)
        exact ⟨hjp, hjp ▸ hfo.self hjp⟩
    · simp [(hnew j hj hm).flight] at hmsg
  joining j hj hmsg := by
    by_cases hm : j ∈ g.members
    · rcases hold j hj.1 hm with ⟨sent, hk, hfl⟩ | hfo
      · rw [hk.primary hj.2]
        rcases hfl _ hmsg with hin | hin
        · exact h.joining j ⟨hm, hk.live hj.2⟩ hin
        · exact absurd hin hk.joining
      · exact hfo.primary
    · simp [(hnew j hj.1 hm).flight] at hmsg

theorem Keeps.refl (m : Member) : Keeps m m [] :=
  ⟨rfl, fun h => h, fun _ => rfl, fun _ => rfl, fun _ _ => ⟨rfl, fun h => h⟩, fun h _ => h,
    by simp, by simp⟩

theorem keepsAt_of_handle {old : List Msg} (hn : g'.node j = ((g.node j).handle env e).1)
    (hf : g'.flight j = old ++ ((g.node j).handle env e).2) (hold : ∀ x ∈ old, x ∈ g.flight j)
    (hk : (g.node j).exited = false →
      Keeps (g.node j) ((g.node j).handle env e).1 ((g.node j).handle env e).2) :
    KeepsAt g g' j := by
  refine ⟨((g.node j).handle env e).2, ?_, ?_⟩
  · rw [hn]
    cases hx : (g.node j).exited with
    | false => exact hk hx
    | true =>
      rw [Member.handle_exited env hx]
      exact .refl _
  · rw [hf]
    intro x hx
    rcases List.mem_append.1 hx with hx | hx
    · exact .inl (hold x hx)
    · exact .inr hx

/-! ### Joins -/

theorem keeps_join (hx : m.exited = false) (hne : i ≠ m.localNodeid) (num : ℤ) :
    Keeps m (m.handle env (.join i num)).1 (m.handle env (.join i num)).2 := by
  obtain ⟨bn, h | ⟨hp, h⟩⟩ := Member.handle_join_other env hx hne num <;> rw [h] <;>
    refine ⟨rfl, fun _ => hx, fun _ => rfl, fun _ => rfl, fun _ _ => ⟨rfl, fun h => h⟩,
      fun h _ => h, ?_, by simp⟩
  · simp
  · exact fun _ _ _ _ _ => ⟨hx, hp⟩

theorem OnePrimary.join (h : OnePrimary p g) (hi : i ∉ g.members) (dev : Fin nrDevs → Dev)
    (errno : ℤ) : ∃ p', OnePrimary p' (g.joined env dcNrNodes i dev errno) := by
  have hnode : (g.joined env dcNrNodes i dev errno).node i = _ := node_joined_self
  have hfl : (g.joined env dcNrNodes i dev errno).flight i = _ := flight_joined_self
  rcases Member.handle_join_self env i dcNrNodes dev errno (g.members.card + 1) with
    ⟨fsm, bn, hh⟩ | ⟨h1, bn, hh⟩
  · rw [hh] at hnode hfl
    refine ⟨p, h.keep ?_ ?_⟩
    · intro j _ hj
      have hne : i ≠ j := fun he => hi (he ▸ hj)
      refine .inl (keepsAt_of_handle (node_joined hi hj) (flight_joined hi hj) (fun x hx => hx) ?_)
      exact fun hx => keeps_join hx (by rwa [h.ids j hj]) _
    · intro j hj hj'
      obtain rfl := (Finset.mem_insert.1 hj).resolve_right hj'
      exact ⟨by rw [hnode]; rfl, by rw [hnode]; rfl, by rw [hnode]; simp [Member.init], hfl⟩
  · -- nobody else is in the group
    rw [hh] at hnode hfl
    have hempty : g.members = ∅ := Finset.card_eq_zero.1 (by omega)
    have hall : ∀ j ∈ (g.joined env dcNrNodes i dev errno).members, j = i := by
      intro j hj
      rw [members_joined, hempty] at hj
      simpa using hj
    have hs : Synced (g.joined env dcNrNodes i dev errno) i := by
      refine ⟨⟨Finset.mem_insert_self _ _, ?_⟩, ?_⟩ <;> rw [hnode]
      rfl
    refine ⟨i, ?_, ?_, ?_, ?_, ?_⟩
    · intro j hj
      obtain rfl := hall j hj
      rw [hnode]
      rfl
    · intro j hj
      obtain rfl := hall j hj.1.1
      rw [hnode]
      exact ⟨rfl, rfl, by simp⟩
    · intro j hj _
      obtain rfl := hall j hj.1
      exact ⟨rfl, hs⟩
    · intro j hj _ _ _ _ _
      exact ⟨hall j hj, hs⟩
    · intro j hj _
      obtain rfl := hall j hj.1
      rw [hnode]

/-! ### Leaves -/

/-- When the primary of synchronized members leaves, at most one other is synchronized, and no
`MC_SYNCHRONIZED` of another is in flight. -/
def PrimaryLeaveOk (g : Net) (k : ℕ) : Prop :=
  (∃ i ∈ g.members, g.Synced i ∧ (g.node i).primaryMbr = some k) →
    (∀ i ∈ g.members, i ≠ k → .synchronized ∉ g.flight i) ∧
      ∀ i ∈ g.members, ∀ j ∈ g.members, i ≠ k → j ≠ k → g.Synced i → g.Synced j → i = j

instance (g : Net) (k : ℕ) : Decidable (g.PrimaryLeaveOk k) :=
  inferInstanceAs (Decidable (_ → _))

variable (env) in
/-- The member `m` becomes the primary when the primary `k` leaves. -/
def TakesPlace (m : Member) (k : ℕ) (num : ℤ) : Prop :=
  m.synchronized = true ∧ m.primaryMbr = some k ∧ ∃ ns bn,
    m.handle env (.disconnect k num) =
      ({ m with
          nrNodes := num, bmNodes := bn, bmSync := m.bmSync.erase k, nrSync := ns,
          bmAcks := m.bmAcks.erase k, primaryMbr := some m.localNodeid },
        [.statusInfo num ns bn (m.bmSync.erase k)])

variable (env) in
theorem keeps_disconnect (hx : m.exited = false) (hne : m.localNodeid ≠ k)
    (hmem : m.synchronized = true → m.localNodeid ∈ m.bmSync) (num : ℤ) :
    Keeps m (m.handle env (.disconnect k num)).1 (m.handle env (.disconnect k num)).2 ∨
      TakesPlace env m k num := by
  rcases Bool.eq_false_or_eq_true m.synchronized with hs | hs
  · obtain ⟨pr, sent, h, ⟨rfl, rfl⟩ | ⟨hp, rfl, rfl⟩⟩ :=
      Member.handle_disconnect_sync env hx hne hs (hmem hs) num
    · rw [h]
      exact .inl ⟨rfl, fun _ => hx, fun _ => rfl, fun _ => rfl,
        fun _ _ => ⟨rfl, fun hm => Finset.mem_erase.2 ⟨hne, hm⟩⟩, fun h _ => h, by simp, by simp⟩
    · exact .inr ⟨hs, hp, _, _, h⟩
  · obtain ⟨fsm, bn, h⟩ := Member.handle_disconnect_unsync env hx hne hs num
    rw [h]
    exact .inl ⟨rfl, fun _ => hx, fun _ => rfl, fun _ => rfl, fun _ h => by simp [hs] at h,
      fun h _ => h, by simp, by simp⟩

theorem OnePrimary.of_elected (h : OnePrimary p g) {s : ℕ} (hok : g.PrimaryLeaveOk k)
    (hs : g.Synced s) (hsk : s ≠ k) (hel : TakesPlace env (g.node s) k (g.members.card - 1))
    (hothers : ∀ j ∈ (g.left env k).members, j ≠ s → KeepsAt g (g.left env k) j) :
    OnePrimary s (g.left env k) := by
  obtain ⟨-, hpr, ns, bn, hel⟩ := hel
  obtain ⟨hquiet, huniq⟩ := hok ⟨s, hs.1.1, hs, hpr⟩
  obtain rfl : p = k := by
    have := (h.sync s hs).1
    rw [hpr] at this
    exact (Option.some.inj this).symm
  have hsm : s ∈ (g.left env p).members := mem_left.2 ⟨hsk, hs.1.1⟩
  have hnode := node_left hsm
  have hfl := flight_left hsm
  rw [hel] at hnode hfl
  have hsync : Synced (g.left env p) s := by
    refine ⟨⟨hsm, ?_⟩, ?_⟩ <;> rw [hnode]
    · exact hs.1.2
    · exact hs.2
  constructor
  · intro j hj
    by_cases hjs : j = s
    · rw [hjs, hnode]
      exact h.ids s hs.1.1
    · obtain ⟨sent, hk, -⟩ := hothers j hj hjs
      rw [hk.id, h.ids j (mem_left.1 hj).2]
  · intro j hj
    by_cases hjs : j = s
    · subst hjs
      rw [hnode]
      obtain ⟨-, h2, h3⟩ := h.sync j hs
      exact ⟨by rw [h.ids j hs.1.1], h2, Finset.mem_erase.2 ⟨hsk, h3⟩⟩
    · obtain ⟨sent, hk, -⟩ := hothers j hj.1.1 hjs
      obtain ⟨hjp, hjm⟩ := mem_left.1 hj.1.1
      exact absurd (huniq j hjm s hs.1.1 hjp hsk (hk.synced hjm hj) hs) hjs
  · intro j hj hprj
    by_cases hjs : j = s
    · exact ⟨hjs, hjs ▸ hsync⟩
    · obtain ⟨sent, hk, -⟩ := hothers j hj.1 hjs
      obtain ⟨hjp, hjm⟩ := mem_left.1 hj.1
      exact absurd (h.self j ⟨hjm, hk.live hj.2⟩ (hk.isPrimary hj.2 hprj)).1 hjp
  · intro j hj n s' bn' bs hmsg
    by_cases hjs : j = s
    · exact ⟨hjs, hsync⟩
    · obtain ⟨sent, hk, hf⟩ := hothers j hj hjs
      obtain ⟨hjp, hjm⟩ := mem_left.1 hj
      rcases hf _ hmsg with hin | hin
      · exact absurd (h.status j hjm n s' bn' bs hin).1 hjp
      · obtain ⟨hx, hpr'⟩ := hk.status n s' bn' bs hin
        exact absurd (h.self j ⟨hjm, hx⟩ hpr').1 hjp
  · intro j hj hmsg
    by_cases hjs : j = s
    · subst hjs
      rw [hfl] at hmsg
      exact absurd hmsg (by simp [hquiet j hs.1.1 hsk])
    · obtain ⟨sent, hk, hf⟩ := hothers j hj.1 hjs
      obtain ⟨hjp, hjm⟩ := mem_left.1 hj.1
      rcases hf _ hmsg with hin | hin
      · exact absurd hin (hquiet j hjm hjp)
      · exact absurd hin hk.joining

theorem OnePrimary.keepsAt_or_takesPlace (h : OnePrimary p g) (hj : j ∈ (g.left env k).members) :
    KeepsAt g (g.left env k) j ∨
      g.Live j ∧ TakesPlace env (g.node j) k (g.members.card - 1) := by
  obtain ⟨hjk, hjm⟩ := mem_left.1 hj
  by_cases hel : g.Live j ∧ TakesPlace env (g.node j) k (g.members.card - 1)
  · exact .inr hel
  · left
    refine keepsAt_of_handle (node_left hj) (flight_left hj) (fun x hx => hx) fun hx => ?_
    refine (keeps_disconnect env hx ?_ ?_ _).resolve_right fun ht => hel ⟨⟨hjm, hx⟩, ht⟩
    · rwa [h.ids j hjm]
    · intro hs
      rw [h.ids j hjm]
      exact (h.sync j ⟨⟨hjm, hx⟩, hs⟩).2.2

theorem OnePrimary.leave (h : OnePrimary p g) (hok : g.PrimaryLeaveOk k) :
    ∃ p', OnePrimary p' (g.left env k) := by
  by_cases hel : ∃ s ∈ (g.left env k).members, g.Live s ∧
      TakesPlace env (g.node s) k (g.members.card - 1)
  · obtain ⟨s, hsm, hl, hel⟩ := hel
    have hsk := (mem_left.1 hsm).1
    have hs : g.Synced s := ⟨hl, hel.1⟩
    refine ⟨s, h.of_elected hok hs hsk hel fun j hj hjs => ?_⟩
    refine (h.keepsAt_or_takesPlace hj).resolve_right fun helj => hjs ?_
    obtain ⟨hjk, hjm⟩ := mem_left.1 hj
    exact (hok ⟨s, hl.1, hs, hel.2.1⟩).2 j hjm s hl.1 hjk hsk ⟨helj.1, helj.2.1⟩ hs
  · refine ⟨p, h.keep (fun j hj _ => .inl ?_) fun j hj hj' => absurd (mem_left.1 hj).2 hj'⟩
    exact (h.keepsAt_or_takesPlace hj).resolve_right fun helj => hel ⟨j, hj, helj⟩

/-! ### Messages -/

theorem keeps_device {source : ℕ} (hmsg : msg.isMembership = false) (stale : List UInt8) :
    Keeps m (m.handle env (.message source msg stale)).1
      (m.handle env (.message source msg stale)).2 := by
  obtain ⟨hsame, hsent⟩ := m.handle_device env source hmsg stale
  refine ⟨hsame.localNodeid, exited_of_handle, fun _ => hsame.primaryMbr,
    fun _ => hsame.synchronized, fun _ _ => ⟨hsame.fsm, ?_⟩, ?_, ?_, ?_⟩
  · rw [hsame.bmSync]
    exact fun h => h
  · intro hx hp
    obtain ⟨_, _, _, _, _, heq, hkeep, -⟩ := m.handle_device_eq env source hmsg stale
    rw [heq]
    exact (hkeep hp).trans hx
  · intro n s bn bs hin
    cases hsent _ hin
  · intro hin
    cases hsent _ hin

theorem OnePrimary.delivered (h : OnePrimary p g) (hf : g.flight i = msg :: rest)
    (stale : ℕ → List UInt8) (hj : ∀ j, g.Live j →
      Keeps (g.node j) ((g.node j).handle env (.message i msg (stale j))).1
          ((g.node j).handle env (.message i msg (stale j))).2 ∨
        Follows p g (g.delivered env i msg rest stale) j) :
    OnePrimary p (g.delivered env i msg rest stale) := by
  refine h.keep ?_ fun j hj hj' => absurd hj hj'
  intro j _ hjm
  have hat : _ → KeepsAt g (g.delivered env i msg rest stale) j :=
    keepsAt_of_handle (node_delivered hjm (h.ids j hjm)) (flight_delivered hjm (h.ids j hjm))
      fun _ => Group.mem_of_mem_pop hf
  by_cases hx : (g.node j).exited = false
  · rcases hj j ⟨hjm, hx⟩ with hk | hfo
    · exact .inl (hat fun _ => hk)
    · exact .inr hfo
  · exact .inl (hat fun hx' => absurd hx' hx)

theorem OnePrimary.deliver_status (h : OnePrimary p g) (hi : i ∈ g.members) {n s : ℤ}
    {bn bs : Finset ℕ} (hf : g.flight i = .statusInfo n s bn bs :: rest) (stale : ℕ → List UInt8) :
    OnePrimary p (g.delivered env i (.statusInfo n s bn bs) rest stale) := by
  obtain ⟨rfl, hp⟩ := h.status i hi n s bn bs (Group.mem_of_flight hf)
  refine h.delivered hf stale fun j hj => ?_
  have hnp : (g.node j).fsm = .wait4primary → ¬ (g.node j).IsPrimary := by
    intro hw hpj
    obtain ⟨-, hs⟩ := h.self j hj hpj
    simp [(h.sync j hs).2.1] at hw
  have hnode : (g.delivered env i (.statusInfo n s bn bs) rest stale).node j = _ :=
    node_delivered hj.1 (h.ids j hj.1)
  have hfl : (g.delivered env i (.statusInfo n s bn bs) rest stale).flight j = _ :=
    flight_delivered hj.1 (h.ids j hj.1)
  rw [Member.handle_statusInfo env hj.2] at hnode hfl ⊢
  rcases Member.mcStatusInfo_cases env (g.node j) i n s bn bs with
    ⟨-, hh⟩ | ⟨hw, -, hh⟩ | ⟨hw, -, fsm, hh⟩
  · rw [hh]
    exact .inl (.refl _)
  · rw [hh]
    exact .inl ⟨rfl, by simp, by simp, by simp, by simp, fun _ hpj => absurd hpj (hnp hw), by simp,
      by simp⟩
  · right
    rw [hh] at hnode hfl
    have hji : j ≠ i := by
      rintro rfl
      exact hnp hw (h.isPrimary hp)
    have hun : ¬ (g.node j).synchronized = true := by
      intro hs
      simp [(h.sync j ⟨hj, hs⟩).2.1] at hw
    refine ⟨by rw [hnode]; exact h.ids j hj.1, by rw [hnode], ?_, fun he => absurd he hji, ?_⟩
    · intro hs
      have := hs.2
      rw [hnode] at this
      exact absurd this hun
    · intro n' s' bn' bs' hmsg
      rw [hfl, if_neg hji] at hmsg
      simpa using hmsg

theorem OnePrimary.deliver_synchronized (h : OnePrimary p g)
    (hf : g.flight i = .synchronized :: rest) (stale : ℕ → List UInt8) :
    OnePrimary p (g.delivered env i .synchronized rest stale) := by
  refine h.delivered hf stale fun j hj => ?_
  rw [Member.handle_synchronized env hj.2]
  by_cases hji : j = i
  · right
    subst hji
    have hpr := h.joining j hj (Group.mem_of_flight hf)
    have hnode : (g.delivered env j .synchronized rest stale).node j = _ :=
      node_delivered hj.1 (h.ids j hj.1)
    have hfl : (g.delivered env j .synchronized rest stale).flight j = _ :=
      flight_delivered hj.1 (h.ids j hj.1)
    have hself := (g.node j).mcSynchronized_self
    rw [h.ids j hj.1] at hself
    rw [Member.handle_synchronized env hj.2, hself] at hnode hfl
    refine ⟨by rw [hnode], by rw [hnode]; exact hpr, ?_, ?_, ?_⟩
    · intro _
      rw [hnode]
      exact ⟨rfl, by simp⟩
    · intro _
      exact ⟨⟨hj.1, by rw [hnode]; exact hj.2⟩, by rw [hnode]⟩
    · intro n s bn bs hmsg
      rw [hfl, if_pos rfl] at hmsg
      rw [hf]
      simpa using hmsg
  · left
    rw [Member.mcSynchronized_other (by rw [h.ids j hj.1]; exact Ne.symm hji)]
    split
    · refine ⟨rfl, fun _ => hj.2, fun _ => rfl, fun _ => rfl, fun _ _ => ⟨rfl, ?_⟩, fun h _ => h,
        by simp, by simp⟩
      exact fun hm => Finset.mem_insert_of_mem hm
    · exact .refl _

theorem OnePrimary.drive (h : OnePrimary p g) {r : Member × List Msg}
    (hr : driverStep env (g.node i) a = some r) : OnePrimary p (g.act i r) := by
  obtain ⟨hsame, hx, -, hsent⟩ := Member.driverStep_frame hr
  refine h.keep (fun j _ _ => .inl ?_) fun j hj hj' => absurd hj hj'
  by_cases hji : j = i
  · subst hji
    refine ⟨r.2, ?_, ?_⟩
    · rw [Group.node_act_self]
      refine ⟨hsame.localNodeid, fun hl => by rw [← hx]; exact hl, fun _ => hsame.primaryMbr,
        fun _ => hsame.synchronized, fun _ _ => ⟨hsame.fsm, ?_⟩, fun hl _ => by rw [hx]; exact hl,
        ?_, ?_⟩
      · rw [hsame.bmSync]
        exact fun h => h
      · intro n s bn bs hin
        exact absurd (hsent _ hin).1 (by simp [Msg.isMembership])
      · intro hin
        exact absurd (hsent _ hin).1 (by simp [Msg.isMembership])
    · rw [Group.flight_act_self]
      exact fun x hx => List.mem_append.1 hx
  · refine ⟨[], ?_, ?_⟩
    · rw [Group.node_act_of_ne hji]
      exact .refl _
    · rw [Group.flight_act_of_ne hji]
      exact fun x hx => .inl hx

/-! ### Every run -/

structure AgreedPrimary (g : Net) : Prop where
  unique : ∀ i j, g.Live i → g.Live j → (g.node i).IsPrimary → (g.node j).IsPrimary → i = j
  agree : ∀ i j, g.Synced i → g.Synced j → (g.node i).primaryMbr = (g.node j).primaryMbr

/-- A member that becomes the primary is in the `bm_sync` of all the synchronized members. -/
def ElectedSynced (g g' : Net) : Prop :=
  ∀ i, Live g' i → ¬ (g.node i).IsPrimary → (g'.node i).IsPrimary →
    ∀ j, Synced g' j → i ∈ (g'.node j).bmSync

/-- The steps of a run in which at most one synchronized member survives each primary. -/
def PrimaryOk (g : Net) : Label → Prop
  | .leave k => g.PrimaryLeaveOk k
  | .network .. => False
  | _ => True

instance (g : Net) (a : Label) : Decidable (g.PrimaryOk a) :=
  match a with
  | .leave k => inferInstanceAs (Decidable (g.PrimaryLeaveOk k))
  | .network .. => inferInstanceAs (Decidable False)
  | .join .. | .deliver .. | .write .. | .turn _ | .openDev .. | .sendOpen _ | .wake _
  | .spurious _ => inferInstanceAs (Decidable True)

theorem OnePrimary.start (dcNrNodes : ℤ) (dev : Fin nrDevs → Dev) :
    OnePrimary 0 (Net.start dcNrNodes dev) where
  ids _ hi := by cases hi
  sync _ hi := by cases hi.1.1
  self _ hi := by cases hi.1
  status _ hi := by cases hi
  joining _ hi := by cases hi.1

theorem OnePrimary.step (h : OnePrimary p g) (hok : g.PrimaryOk a)
    (hst : Net.step env dcNrNodes g a = some g') : ∃ p', OnePrimary p' g' := by
  rcases step_cases hst with ⟨i, dev, errno, rfl, hi, -, rfl⟩ | ⟨k, rfl, hk, rfl⟩ |
    ⟨members, node, rfl, -, rfl⟩ | ⟨i, stale, msg, rest, rfl, hi, hf, rfl⟩ | ⟨i, r, -, -, hr, rfl⟩
  · exact h.join hi dev errno
  · exact h.leave hok
  · exact hok.elim
  · refine ⟨p, ?_⟩
    cases msg with
    | devWrite | devOpen | taskReply =>
      exact h.delivered hf stale fun _ _ => .inl (keeps_device rfl _)
    | statusInfo n s bn bs => exact h.deliver_status hi hf stale
    | synchronized => exact h.deliver_synchronized hf stale
  · exact ⟨p, h.drive hr⟩

theorem OnePrimary.electedSynced (h : OnePrimary p g) (hok : g.PrimaryLeaveOk k) :
    ElectedSynced g (g.left env k) := by
  intro i hi hno hyes j hj
  obtain ⟨p', h'⟩ : ∃ p', OnePrimary p' (g.left env k) := h.leave hok
  obtain ⟨hik, him⟩ := mem_left.1 hi.1
  obtain ⟨hjk, hjm⟩ := mem_left.1 hj.1.1
  have hti : g.Live i ∧ TakesPlace env (g.node i) k (g.members.card - 1) := by
    refine (h.keepsAt_or_takesPlace hi.1).resolve_left ?_
    rintro ⟨sent, hk, -⟩
    exact hno (hk.isPrimary hi.2 hyes)
  have hsj : g.Synced j := by
    rcases h.keepsAt_or_takesPlace hj.1.1 with ⟨sent, hk, -⟩ | ht
    · exact hk.synced hjm hj
    · exact ⟨ht.1, ht.2.1⟩
  have hsi : g.Synced i := ⟨hti.1, hti.2.1⟩
  obtain rfl := (hok ⟨i, him, hsi, hti.2.2.1⟩).2 j hjm i him hjk hik hsj hsi
  exact (h'.sync j hj).2.2

/-- **One primary.** In every run in which, whenever a primary leaves, at most one other member is
synchronized and no `MC_SYNCHRONIZED` of another is in flight, there is at most one primary, the
synchronized members agree on it, and one that is elected is in `bm_sync`. -/
theorem one_primary (env : Env) (dcNrNodes : ℤ) (dev : Fin nrDevs → Dev)
    (h : Reach.Reachable (step env dcNrNodes) PrimaryOk (start dcNrNodes dev) g) :
    AgreedPrimary g ∧ ∀ k g', g.PrimaryLeaveOk k → step env dcNrNodes g (.leave k) = some g' →
      ElectedSynced g g' := by
  obtain ⟨p, hp⟩ : ∃ p, OnePrimary p g :=
    h.invariant (I := fun g => ∃ p, OnePrimary p g) ⟨0, .start dcNrNodes dev⟩
      fun s a t ⟨p, hp⟩ hok hst => hp.step hok hst
  refine ⟨⟨?_, ?_⟩, ?_⟩
  · intro i j hi hj hpi hpj
    rw [(hp.self i hi hpi).1, (hp.self j hj hpj).1]
  · intro i j hi hj
    rw [(hp.sync i hi).1, (hp.sync j hj).1]
  · intro k g' hok hst
    obtain ⟨-, heq⟩ := Option.ite_none_right_eq_some.1 hst
    rw [← Option.some.inj heq]
    exact hp.electedSynced hok

def twoJoins : List Label :=
  [.join 0 (fun _ => .sample) 0, .deliver 0 fun _ => [], .join 1 (fun _ => .sample) 0,
    .deliver 0 fun _ => [], .deliver 1 fun _ => []]

/-- Node 1 takes the place of node 0. -/
theorem one_primary_after_leave : ∃ g : Net,
    Reach.Reachable (step .sample 4) PrimaryOk (start 4 fun _ => .sample) g ∧
      g.Synced 1 ∧ (g.node 1).IsPrimary ∧ AgreedPrimary g := by
  obtain ⟨g, hr, hg⟩ := Reach.exists_reachable_of_exec (step .sample 4) PrimaryOk
    (start 4 fun _ => .sample) (fun g => decide (g.Synced 1 ∧ (g.node 1).IsPrimary))
    (twoJoins ++ [.leave 0]) (by decide +kernel)
  obtain ⟨hs, hp⟩ := of_decide_eq_true hg
  exact ⟨g, hr, hs, hp, (one_primary .sample 4 _ hr).1⟩

/-- Three nodes join and are synchronized; when the first one leaves, the two others both take its
place. -/
theorem two_primaries : ∃ g : Net,
    Reach.Reachable (step .sample 4) (fun _ a => a.isMembership = true)
      (start 4 fun _ => .sample) g ∧ ¬ AgreedPrimary g := by
  obtain ⟨g, hr, hg⟩ := Reach.exists_reachable_of_exec (step .sample 4)
    (fun _ a => a.isMembership = true) (start 4 fun _ => .sample)
    (fun g => decide (g.Live 1 ∧ g.Live 2 ∧ (g.node 1).IsPrimary ∧ (g.node 2).IsPrimary))
    (twoJoins ++ [.join 2 (fun _ => .sample) 0, .deliver 0 fun _ => [], .deliver 2 fun _ => [],
      .leave 0]) (by decide +kernel)
  obtain ⟨h1, h2, hp1, hp2⟩ := of_decide_eq_true hg
  refine ⟨g, hr, fun h => ?_⟩
  exact absurd (h.unique 1 2 h1 h2 hp1 hp2) (by decide)

end Net

end Rdisk

end MolIpc
