import MolIpc.Rdisk.Requests
import MolIpc.Rdisk.SyncSet

/-!
The acknowledges that a blocked primary waits for.

A primary that has multicast a `DEV_WRITE` or a `DEV_OPEN` sleeps on `update_barrier` until the
last reply comes. Nothing else signals it: not the leave of the last backup that owes a reply, and
not a request that nobody replies to. The primary is not left waiting in the runs that keep clear
of this: `acks_come`.
-/

namespace MolIpc

namespace Rdisk

open Groups Disk

namespace Net

variable {env : Env} {dcNrNodes : ℤ} {g g' : Net} {i j k : ℕ} {a : Label} {r : Member × List Msg}
  {x : Msg} {e : Event}

/-! ### What a primary waits for -/

def dflight (g : Net) (i : ℕ) : List Msg := (g.flight i).filter fun x => !x.isMembership

def reqs (g : Net) (i : ℕ) : List Msg := (g.flight i).filter Msg.isRequest

theorem mem_dflight : x ∈ g.dflight i ↔ x ∈ g.flight i ∧ x.isMembership = false := by
  simp [dflight]

theorem mem_reqs : x ∈ g.reqs i ↔ x ∈ g.flight i ∧ x.isRequest = true :=
  List.mem_filter

theorem reqs_eq_filter_dflight : g.reqs i = (g.dflight i).filter Msg.isRequest := by
  rw [reqs, dflight, List.filter_filter]
  refine List.filter_congr fun x _ => ?_
  cases hx : x.isRequest with
  | false => rfl
  | true => simp [Msg.isMembership_of_isRequest hx]

/-- The requests of the primary `p` are in flight and there is a backup, or everybody who owes a
reply has it in flight. -/
def Waits (g : Net) (p : ℕ) : Prop :=
  (g.reqs p ≠ [] ∧ ∃ b, b ≠ p ∧ g.Synced b) ∨
    g.reqs p = [] ∧ (g.node p).bmAcks ≠ ∅ ∧
      ∀ b ∈ (g.node p).bmAcks, g.Synced b ∧ .taskReply ∈ g.flight b

/-- `nr_nodes` of the members that count or can still be counted is the size of the group. -/
def Counted (g : Net) (i : ℕ) : Prop :=
  (g.node i).nrNodes = g.members.card ∨
    (g.node i).synchronized = false ∧ (g.node i).nrNodes = 0 ∧ .synchronized ∉ g.flight i

variable (env) in
/-- What holds between the steps of a group whose primary is not left waiting. -/
structure AckInv (g : Net) : Prop where
  agreed : ∃ p, OnePrimary p g
  sync : SyncInv g
  counts : ∀ i, g.Live i → g.Counted i
  idle : ∀ i ∈ g.members, ¬ g.Serving i → (g.node i).thread = .idle ∧ g.reqs i = []
  closed : ∀ i ∈ g.members, Closed (g.reqs i)
  accepts : ∀ i ∈ g.members, ∀ w, .devWrite w ∈ g.flight i → ∀ b, g.Synced b → b ≠ i →
    (g.node b).Accepts env w
  waits : ∀ i, g.Serving i → (g.node i).thread.waiting = true → g.Waits i

/-! ### The membership protocol -/

structure IoStays (g g' : Net) : Prop where
  old : ∀ j ∈ g'.members, j ∈ g.members →
    Member.SameIo (g.node j) (g'.node j) ∧ g'.dflight j = g.dflight j
  new : ∀ j ∈ g'.members, j ∉ g.members → (g'.node j).thread = .idle ∧ g'.dflight j = []
  serving : ∀ j ∈ g'.members, g.Serving j → g'.Serving j

theorem IoStays.mem_flight (h : IoStays g g') (hj : j ∈ g'.members) (hj' : j ∈ g.members)
    (hx : x.isMembership = false) : x ∈ g'.flight j ↔ x ∈ g.flight j := by
  have heq : x ∈ g'.dflight j ↔ x ∈ g.dflight j := by rw [(h.old j hj hj').2]
  rwa [mem_dflight, mem_dflight, and_iff_left hx, and_iff_left hx] at heq

theorem IoStays.reqs (h : IoStays g g') (hj : j ∈ g'.members) (hj' : j ∈ g.members) :
    g'.reqs j = g.reqs j := by
  rw [reqs_eq_filter_dflight, reqs_eq_filter_dflight, (h.old j hj hj').2]

theorem Waits.keep (h : g.Waits i) (hio : IoStays g g') (hi : i ∈ g'.members) (hi' : i ∈ g.members)
    (hacks : (g'.node i).bmAcks = (g.node i).bmAcks) (hkeep : ∀ b, g.Synced b → g'.Synced b) :
    g'.Waits i := by
  rcases h with ⟨hne, b, hb, hs⟩ | ⟨hnil, hne, hall⟩
  · exact .inl ⟨by rwa [hio.reqs hi hi'], b, hb, hkeep b hs⟩
  · refine .inr ⟨by rwa [hio.reqs hi hi'], by rwa [hacks], fun b hb => ?_⟩
    rw [hacks] at hb
    obtain ⟨hs, hr⟩ := hall b hb
    exact ⟨hkeep b hs, (hio.mem_flight (hkeep b hs).1.1 hs.1.1 rfl).2 hr⟩

theorem AckInv.ioStays (h : AckInv env g) (hio : IoStays g g') (hagreed : ∃ p, OnePrimary p g')
    (hsync : SyncInv g') (hcounts : ∀ i, g'.Live i → g'.Counted i)
    (hnew : ∀ b, g'.Synced b →
      g.Synced b ∨ ∀ i ∈ g.members, ∀ x ∈ g.flight i, x.isDevWrite = false)
    (hwaits : ∀ i ∈ g'.members, g.Serving i → (g.node i).thread.waiting = true → g.Waits i →
      g'.Waits i) : AckInv env g' where
  agreed := hagreed
  sync := hsync
  counts := hcounts
  idle i hi hns := by
    by_cases hm : i ∈ g.members
    · obtain ⟨h1, h2⟩ := h.idle i hm fun hs => hns (hio.serving i hi hs)
      rw [(hio.old i hi hm).1.thread, hio.reqs hi hm]
      exact ⟨h1, h2⟩
    · obtain ⟨h1, h2⟩ := hio.new i hi hm
      exact ⟨h1, by rw [reqs_eq_filter_dflight, h2]; rfl⟩
  closed i hi := by
    by_cases hm : i ∈ g.members
    · rw [hio.reqs hi hm]
      exact h.closed i hm
    · rw [reqs_eq_filter_dflight, (hio.new i hi hm).2]
      exact .nil
  accepts i hi w hw b hb hbi := by
    by_cases hm : i ∈ g.members
    · have hw' := (hio.mem_flight hi hm rfl).1 hw
      rcases hnew b hb with hs | hno
      · exact (h.accepts i hm w hw' b hs hbi).mono (hio.old b hb.1.1 hs.1.1).1.devGrows
      · exact absurd (hno i hm _ hw') (by simp [Msg.isDevWrite])
    · have hmem : .devWrite w ∈ g'.dflight i := mem_dflight.2 ⟨hw, rfl⟩
      simp [(hio.new i hi hm).2] at hmem
  waits i hi hw := by
    by_cases hm : i ∈ g.members
    · have hth := (hio.old i hi.1.1 hm).1.thread
      rw [hth] at hw
      have hs : g.Serving i := by
        by_contra hns
        rw [(h.idle i hm hns).1] at hw
        cases hw
      exact hwaits i hi.1.1 hs hw (h.waits i hs hw)
    · rw [(hio.new i hi.1.1 hm).1] at hw
      cases hw

theorem io_of_handle {old : List Msg} (he : e.isMembership = true)
    (hn : g'.node j = ((g.node j).handle env e).1)
    (hf : g'.flight j = old ++ ((g.node j).handle env e).2)
    (hold : (old.filter fun x => !x.isMembership) = g.dflight j) :
    Member.SameIo (g.node j) (g'.node j) ∧ g'.dflight j = g.dflight j := by
  have hsent : (((g.node j).handle env e).2.filter fun x => !x.isMembership) = [] :=
    List.filter_eq_nil_iff.2 fun x hx => by simp [(g.node j).isMembership_handle env he x hx]
  refine ⟨?_, by rw [dflight, hf, List.filter_append, hsent, hold, List.append_nil]⟩
  rw [hn]
  exact (g.node j).sameIo_handle env he

theorem SyncInv.serving_of_handle (h : SyncInv g) (hs : g.Serving j) (hj : j ∈ g'.members)
    (hn : g'.node j = ((g.node j).handle env e).1) (he : e.isMembership = true)
    (hne : ∀ num, e ≠ .disconnect j num) : g'.Serving j := by
  obtain ⟨hl, hp⟩ := hs
  have hsync := h.self j hl hp
  have := (g.node j).isPrimary_handle env he (by rwa [h.ids j hl.1]) hl.2 hp hsync
    (h.sets j ⟨hl, hsync⟩).2.2 (h.mem_bmSync hl hsync)
  rw [← hn] at this
  exact ⟨⟨hj, this.1⟩, this.2⟩

/-! ### Joins -/

section Joins

variable {G : Net} {dev : Fin nrDevs → Dev} {errno : ℤ}
  (hG : G = g.joined env dcNrNodes i dev errno) (hi : i ∉ g.members)

include hG hi

theorem SyncInv.synced_joined (h : SyncInv g) (hj : g.Synced j) : G.Synced j := by
  obtain ⟨_, _, _, hn, -⟩ := joined_frame hG h.ids hi hj.1.1
  refine ⟨⟨hG ▸ Finset.mem_insert_of_mem hj.1.1, ?_⟩, ?_⟩ <;> rw [hn]
  · exact hj.1.2
  · exact hj.2

theorem SyncInv.of_synced_joined (h : SyncInv g) (hj : G.Synced j) :
    g.Synced j ∨ g.members = ∅ := by
  obtain ⟨⟨hj, hx⟩, hs⟩ := hj
  rw [hG] at hj
  rcases Finset.mem_insert.1 hj with rfl | hjm
  · right
    rw [hG, node_joined_self] at hs
    rcases Member.handle_join_self env j dcNrNodes dev errno (g.members.card + 1) with
      ⟨fsm, bn, hh⟩ | ⟨h1, -⟩
    · rw [hh] at hs
      cases hs
    · exact Finset.card_eq_zero.1 (by omega)
  · obtain ⟨_, _, _, hn, -⟩ := joined_frame hG h.ids hi hjm
    rw [hn] at hx hs
    exact .inl ⟨⟨hjm, hx⟩, hs⟩

theorem AckInv.join (h : AckInv env g) (hok : g.SyncJoinOk) : AckInv env G := by
  obtain ⟨p, hp⟩ := h.agreed
  have hframe := fun j hj => joined_frame (j := j) hG h.sync.ids hi hj
  have hmem : G.members = insert i g.members := by rw [hG, members_joined]
  have hio : IoStays g G := by
    refine ⟨fun j _ hj => ?_, fun j hj hj' => ?_, fun j hj hs => ?_⟩
    · exact io_of_handle rfl (hG ▸ node_joined hi hj) (hG ▸ flight_joined hi hj) rfl
    · obtain rfl := (Finset.mem_insert.1 (hmem ▸ hj)).resolve_right hj'
      refine ⟨?_, ?_⟩
      · rw [hG, node_joined_self, (Member.sameIo_handle env _ rfl).thread]
        rfl
      · rw [hG, dflight, flight_joined_self]
        exact List.filter_eq_nil_iff.2 fun x hx => by
          simp [Member.isMembership_handle env _ rfl x hx]
    · exact h.sync.serving_of_handle hs hj (hG ▸ node_joined hi hs.1.1) rfl (by simp)
  refine h.ioStays hio (hG ▸ hp.join hi dev errno) (h.sync.join hG hok hi) ?_ ?_ ?_
  · intro j hj
    left
    rw [hmem, Finset.card_insert_of_notMem hi]
    push_cast
    rcases Finset.mem_insert.1 (hmem ▸ hj.1) with rfl | hjm
    · rw [hG, node_joined_self]
      rcases Member.handle_join_self env j dcNrNodes dev errno (g.members.card + 1) with
        ⟨fsm, bn, hh⟩ | ⟨-, bn, hh⟩ <;> rw [hh]
    · obtain ⟨_, _, _, hn, hnr, -⟩ := hframe j hjm
      have hx := hj.2
      rw [hn] at hx ⊢
      exact hnr hx
  · intro b hb
    rcases h.sync.of_synced_joined hG hi hb with hs | hempty
    · exact .inl hs
    · exact .inr fun j hj => by simp [hempty] at hj
  · intro j hj hs _ hw
    refine hw.keep hio hj hs.1.1 ?_ fun b hb => h.sync.synced_joined hG hi hb
    obtain ⟨_, _, _, hn, -⟩ := hframe j hs.1.1
    rw [hn]

end Joins

/-! ### Leaves -/

/-- No primary waits for `k` alone: one that waits for the delivery of its requests has another
backup, one that waits for replies another debtor. -/
def AwaitedStay (g : Net) (k : ℕ) : Prop :=
  ∀ p ∈ g.members, p ≠ k → g.Serving p → (g.node p).thread.waiting = true →
    if g.reqs p = [] then ∃ b ∈ (g.node p).bmAcks, b ≠ k
    else ∃ b ∈ g.members, b ≠ p ∧ b ≠ k ∧ g.Synced b

instance (g : Net) (k : ℕ) : Decidable (g.AwaitedStay k) :=
  inferInstanceAs (Decidable (∀ p ∈ g.members, _))

theorem AckInv.leave (h : AckInv env g) (hk : k ∈ g.members) (hprimary : g.PrimaryLeaveOk k)
    (hsync : g.SyncLeaveOk k) (hacks : g.AwaitedStay k) : AckInv env (g.left env k) := by
  obtain ⟨p, hp⟩ := h.agreed
  have hio : IoStays g (g.left env k) := by
    refine ⟨fun j hj _ => ?_, fun j hj hj' => ?_, fun j hj hs => ?_⟩
    · exact io_of_handle rfl (node_left hj) (flight_left hj) rfl
    · exact absurd (mem_left.1 hj).2 hj'
    · refine h.sync.serving_of_handle hs hj (node_left hj) rfl fun num he => ?_
      cases he
      exact (mem_left.1 hj).1 rfl
  refine h.ioStays hio (hp.leave hprimary) (h.sync.leave hk hsync) ?_ ?_ ?_
  · intro j hj
    have hcard : (g.left env k).members.card = g.members.card - 1 := Finset.card_erase_of_mem hk
    have hpos := Finset.card_pos.2 ⟨k, hk⟩
    rcases h.sync.left_cases env hj.1 with ⟨hx, hn, -⟩ | ⟨-, hun, ⟨_, _, hn⟩, hf⟩ | ⟨-, _, _, hn, -⟩
    · exact absurd hj.2 (by simp [hn, hx])
    · right
      rw [hn, hf]
      obtain ⟨hjk, hjm⟩ := mem_left.1 hj.1
      exact ⟨hun, rfl, hsync j hjm hjk⟩
    · left
      rw [hn, hcard]
      simp only
      omega
  · exact fun b hb => .inl (h.sync.synced_left.1 hb).2
  · intro j hj hs hth hw
    obtain ⟨hjk, hjm⟩ := mem_left.1 hj
    have hawait := hacks j hjm hjk hs hth
    rcases hw with ⟨hne, -⟩ | ⟨hnil, -, hall⟩
    · rw [if_neg hne] at hawait
      obtain ⟨b, -, hbj, hbk, hb⟩ := hawait
      exact .inl ⟨by rwa [hio.reqs hj hjm], b, hbj, h.sync.synced_left.2 ⟨hbk, hb⟩⟩
    · rw [if_pos hnil] at hawait
      obtain ⟨b, hb, hbk⟩ := hawait
      have hsj : g.Synced j := ⟨hs.1, h.sync.self j hs.1 hs.2⟩
      have hbm : ((g.left env k).node j).bmAcks = (g.node j).bmAcks.erase k := by
        rcases h.sync.left_cases env hj with ⟨hx, -⟩ | ⟨-, hun, -⟩ | ⟨-, _, _, hn, -⟩
        · simp [hs.1.2] at hx
        · simp [hsj.2] at hun
        · rw [hn]
      refine .inr ⟨by rwa [hio.reqs hj hjm], ?_, ?_⟩
      · rw [hbm]
        exact Finset.ne_empty_of_mem (Finset.mem_erase.2 ⟨hbk, hb⟩)
      · intro b' hb'
        rw [hbm] at hb'
        obtain ⟨hne, hb'⟩ := Finset.mem_erase.1 hb'
        obtain ⟨hs', hr⟩ := hall b' hb'
        have hm : b' ∈ (g.left env k).members := mem_left.2 ⟨hne, hs'.1.1⟩
        exact ⟨h.sync.synced_left.2 ⟨hne, hs'⟩, (hio.mem_flight hm hs'.1.1 rfl).2 hr⟩

/-! ### Network changes -/

/-- No message of the protocol is in flight, no synchronized member goes, and the new ones are not
synchronized, no primary, and serve nothing. -/
def NetworkOk (g : Net) (members : Finset ℕ) (node : ℕ → Member) : Prop :=
  (∀ i ∈ g.members, g.mflight i = []) ∧ (∀ i ∈ g.members, g.Synced i → i ∈ members) ∧
    ∀ i ∈ members, i ∉ g.members → (node i).synchronized = false ∧ ¬ (node i).IsPrimary ∧
      (node i).thread.isIdle = true

instance (g : Net) (members : Finset ℕ) (node : ℕ → Member) :
    Decidable (g.NetworkOk members node) := inferInstanceAs (Decidable (_ ∧ _))

section Network

variable {members : Finset ℕ} {node : ℕ → Member} {G : Net}
  (hG : G = g.changed env members node)

include hG

theorem changed_frame (hj : j ∈ members) : ∃ bn n,
    G.node j = { if j ∈ g.members then g.node j else node j with bmNodes := bn, nrNodes := n } ∧
      ((G.node j).exited = false → n = members.card) ∧
      G.flight j = if j ∈ g.members then g.flight j else [] := by
  generalize hm : (if j ∈ g.members then g.node j else node j) = m
  have hnode : G.node j = _ := hG ▸ node_changed hj
  have hfl : G.flight j = _ := hG ▸ flight_changed hj
  rw [hm] at hnode hfl
  rcases Bool.eq_false_or_eq_true m.exited with hx | hx
  · rw [Member.handle_exited env hx] at hnode hfl
    exact ⟨_, _, hnode, fun hx' => by simp [hnode, hx] at hx', by simpa using hfl⟩
  · rw [Member.handle_network env hx] at hnode hfl
    exact ⟨_, _, hnode, fun _ => rfl, by simpa using hfl⟩

theorem changed_old (hj : j ∈ members) (hjm : j ∈ g.members) :
    (∃ bn n, G.node j = { g.node j with bmNodes := bn, nrNodes := n }) ∧
      G.flight j = g.flight j := by
  obtain ⟨bn, n, hn, -, hfl⟩ := changed_frame hG hj
  rw [if_pos hjm] at hn hfl
  exact ⟨⟨bn, n, hn⟩, hfl⟩

theorem changed_new (hj : j ∈ members) (hjm : j ∉ g.members) :
    (∃ bn n, G.node j = { node j with bmNodes := bn, nrNodes := n }) ∧ G.flight j = [] := by
  obtain ⟨bn, n, hn, -, hfl⟩ := changed_frame hG hj
  rw [if_neg hjm] at hn hfl
  exact ⟨⟨bn, n, hn⟩, hfl⟩

theorem handle_changed (hj : j ∈ members) (hjm : j ∈ g.members) :
    G.node j = ((g.node j).handle env (.network members)).1 ∧
      G.flight j = g.flight j ++ ((g.node j).handle env (.network members)).2 := by
  have hnode : G.node j = _ := hG ▸ node_changed hj
  have hfl : G.flight j = _ := hG ▸ flight_changed hj
  rw [if_pos hjm] at hnode hfl
  rw [if_pos hjm] at hfl
  exact ⟨hnode, hfl⟩

section

variable (hids : ∀ i ∈ members, i ∉ g.members → (node i).localNodeid = i)
  (hok : g.NetworkOk members node)

include hids hok

theorem OnePrimary.network {p : ℕ} (h : OnePrimary p g) : OnePrimary p G := by
  have hmem : G.members = members := by rw [hG]; rfl
  refine h.keep (fun j hj hjm => .inl ?_) fun j hj hjm => ?_
  · obtain ⟨hnode, hfl⟩ := handle_changed hG (hmem ▸ hj) hjm
    refine keepsAt_of_handle hnode hfl (fun x hx => hx) fun hx => ?_
    rw [Member.handle_network env hx]
    exact ⟨rfl, fun h => h, fun _ => rfl, fun _ => rfl, fun _ _ => ⟨rfl, fun h => h⟩,
      fun h _ => h, by simp, by simp⟩
  · rw [hmem] at hj
    obtain ⟨hun, hnp, -⟩ := hok.2.2 j hj hjm
    have hid := hids j hj hjm
    obtain ⟨⟨_, _, hn⟩, hfl⟩ := changed_new hG hj hjm
    refine ⟨?_, ?_, fun hp => hnp ?_, hfl⟩
    · rw [hn]
      exact hid
    · rw [hn]
      exact hun
    · rw [hn] at hp
      rw [Member.IsPrimary, hid]
      exact hp

theorem SyncInv.stays_network (h : SyncInv g) : Stays g G := by
  obtain ⟨-, hkept, hnew⟩ := hok
  have hmem : G.members = members := by rw [hG]; rfl
  refine ⟨fun j hs => ?_, fun j hj _ => ?_, fun j hj hs => ?_⟩
  · have hj := hkept j hs.1.1 hs
    obtain ⟨⟨_, _, hn⟩, -⟩ := changed_old hG hj hs.1.1
    rw [hmem, hn]
    exact ⟨hj, rfl, rfl, rfl, rfl, rfl, rfl, rfl⟩
  · rw [hmem] at hj
    by_cases hjm : j ∈ g.members
    · obtain ⟨⟨_, _, hn⟩, -⟩ := changed_old hG hj hjm
      rw [hn]
      exact h.ids j hjm
    · obtain ⟨⟨_, _, hn⟩, -⟩ := changed_new hG hj hjm
      rw [hn]
      exact hids j hj hjm
  · obtain ⟨hj, hx⟩ := hj
    rw [hmem] at hj
    by_cases hjm : j ∈ g.members
    · obtain ⟨⟨_, _, hn⟩, -⟩ := changed_old hG hj hjm
      rw [hn] at hx ⊢
      exact h.unsynced ⟨hjm, hx⟩ hs
    · obtain ⟨⟨_, _, hn⟩, -⟩ := changed_new hG hj hjm
      rw [hn]
      obtain ⟨hun, hnp, -⟩ := hnew j hj hjm
      exact ⟨hun, fun hp => hnp (by rw [Member.IsPrimary, hp, hids j hj hjm])⟩

theorem SyncInv.network (h : SyncInv g) : SyncInv G := by
  have hquiet : ∀ j ∈ G.members, G.mflight j = [] := by
    intro j hj
    obtain ⟨_, _, -, -, hfl⟩ := changed_frame hG (j := j) (by rwa [hG] at hj)
    rw [mflight, hfl]
    split
    · rename_i hjm
      exact hok.1 j hjm
    · rfl
  refine h.stays (h.stays_network hG hids hok) (fun j hj n s bn bs hmsg => ?_) (.quiet hquiet)
  exact absurd hmsg (not_mem_of_quiet (hquiet j hj) rfl)

theorem AckInv.network (h : AckInv env g) : AckInv env G := by
  obtain ⟨p, hp⟩ := h.agreed
  have hst : Stays g G := h.sync.stays_network hG hids hok
  have hmem : G.members = members := by rw [hG]; rfl
  have hio : IoStays g G := by
    refine ⟨fun j hj hjm => ?_, fun j hj hjm => ?_, fun j hj hs => ?_⟩
    · obtain ⟨hnode, hfl⟩ := handle_changed hG (hmem ▸ hj) hjm
      exact io_of_handle rfl hnode hfl rfl
    · rw [hmem] at hj
      obtain ⟨⟨_, _, hn⟩, hfl⟩ := changed_new hG hj hjm
      refine ⟨?_, by rw [dflight, hfl]; rfl⟩
      rw [hn]
      have := (hok.2.2 j hj hjm).2.2
      cases hm : (node j).thread with
      | idle => rfl
      | transfer | opening | blocked => simp [hm, Thread.isIdle] at this
    · exact h.sync.serving_of_handle hs hj (handle_changed hG (hmem ▸ hj) hs.1.1).1 rfl (by simp)
  refine h.ioStays hio ⟨p, hp.network hG hids hok⟩ (h.sync.network hG hids hok) ?_ ?_ ?_
  · rintro j ⟨hj, hx⟩
    obtain ⟨_, _, hn, hnr, -⟩ := changed_frame hG (hmem ▸ hj)
    left
    rw [hnr hx] at hn
    rw [hn, hmem]
  · exact fun b hb => .inl ((hst.synced_iff b).1 hb)
  · intro j hj hs _ hw
    refine hw.keep hio hj hs.1.1 ?_ fun b hb => (hst.synced_iff b).2 hb
    obtain ⟨⟨_, _, hn⟩, -⟩ := changed_old hG (hmem ▸ hj) hs.1.1
    rw [hn]

end

end Network

/-! ### Messages of the membership protocol -/

section Membership

variable {G : Net} {msg : Msg} {rest : List Msg} {stale : ℕ → List UInt8}

theorem dflight_popped (hf : g.flight i = msg :: rest) (hm : msg.isMembership = true) :
    ((if j = i then rest else g.flight j).filter fun x => !x.isMembership) = g.dflight j := by
  split
  · rename_i hji
    rw [hji, dflight, hf, List.filter_cons_of_neg (by simp [hm])]
  · rfl

theorem SyncInv.handle_delivered (h : SyncInv g) (hG : G = g.delivered env i msg rest stale)
    (hj : j ∈ g.members) : G.node j = ((g.node j).handle env (.message i msg (stale j))).1 ∧
      G.flight j = (if j = i then rest else g.flight j) ++
        ((g.node j).handle env (.message i msg (stale j))).2 :=
  hG ▸ ⟨node_delivered hj (h.ids j hj), flight_delivered hj (h.ids j hj)⟩

theorem AckInv.deliver_membership (h : AckInv env g) (hf : g.flight i = msg :: rest)
    (hm : msg.isMembership = true) (hG : G = g.delivered env i msg rest stale)
    (hagreed : ∃ p, OnePrimary p G) (hsync : SyncInv G) (hcounts : ∀ j, G.Live j → G.Counted j)
    (hnew : ∀ b, G.Synced b →
      g.Synced b ∨ ∀ i ∈ g.members, ∀ x ∈ g.flight i, x.isDevWrite = false)
    (hkeep : ∀ b, g.Synced b → G.Synced b) : AckInv env G := by
  have hhandle := fun j hj => h.sync.handle_delivered (j := j) hG hj
  have hio : IoStays g G := by
    refine ⟨fun j _ hj => ?_, fun j hj hj' => ?_, fun j hj hs => ?_⟩
    · exact io_of_handle (e := .message i msg (stale j)) hm (hhandle j hj).1 (hhandle j hj).2
        (dflight_popped hf hm)
    · rw [hG] at hj
      exact absurd hj hj'
    · exact h.sync.serving_of_handle hs hj (hhandle j hs.1.1).1 hm (by simp)
  refine h.ioStays hio hagreed hsync hcounts hnew fun j hj hs _ hw => ?_
  refine hw.keep hio hj hs.1.1 ?_ hkeep
  rw [(hhandle j hs.1.1).1]
  exact (g.node j).bmAcks_handle env i hm (stale j)

theorem AckInv.deliver_status (h : AckInv env g) (hi : i ∈ g.members) {n s : ℤ}
    {bn bs : Finset ℕ} (hf : g.flight i = .statusInfo n s bn bs :: rest)
    (hG : G = g.delivered env i (.statusInfo n s bn bs) rest stale) : AckInv env G := by
  obtain ⟨p, hp⟩ := h.agreed
  have hst := h.sync.stays_status hi hf hG
  refine h.deliver_membership hf rfl hG ⟨p, hG ▸ hp.deliver_status hi hf stale⟩
    (hG ▸ h.sync.deliver_status hi hf stale) ?_ (fun b hb => .inl ((hst.synced_iff b).1 hb))
    fun b hb => (hst.synced_iff b).2 hb
  rintro j ⟨hj, hx⟩
  have hmem : G.members = g.members := by rw [hG, members_delivered]
  rw [hmem] at hj
  rw [Counted, hmem]
  rcases h.sync.status_cases hG hj with ⟨hfl, ⟨-, hn⟩ | ⟨-, hn⟩⟩ | ⟨hl, -, hnr, ⟨_, hn⟩, -⟩
  · rw [hn] at hx
    rw [hn, hfl]
    rcases h.counts j ⟨hj, hx⟩ with hc | ⟨h1, h2, h3⟩
    · exact .inl hc
    · exact .inr ⟨h1, h2, fun hmem => h3 (Group.mem_of_mem_pop hf hmem)⟩
  · simp [hn] at hx
  · -- a status has a positive `nr_nodes`
    have hpos := (h.sync.status i hi n s bn bs (Group.mem_of_flight hf)).1
    refine .inl ?_
    rw [hn]
    refine (h.counts j hl).resolve_right ?_
    rintro ⟨-, h0, -⟩
    omega

theorem AckInv.deliver_synchronized (h : AckInv env g) (hi : i ∈ g.members)
    (hf : g.flight i = .synchronized :: rest) (hG : G = g.delivered env i .synchronized rest stale)
    (hno : ∀ i ∈ g.members, ∀ x ∈ g.flight i, x.isDevWrite = false) : AckInv env G := by
  obtain ⟨p, hp⟩ := h.agreed
  have hhandle : ∀ j, g.Live j → G.node j = (g.node j).mcSynchronized i ∧
      G.flight j = if j = i then rest else g.flight j := by
    intro j hj
    obtain ⟨hn, hfl⟩ := h.sync.handle_delivered hG hj.1
    rw [Member.handle_synchronized env hj.2] at hn hfl
    exact ⟨hn, by simpa using hfl⟩
  refine h.deliver_membership hf rfl hG ⟨p, hG ▸ hp.deliver_synchronized hf stale⟩
    (hG ▸ h.sync.deliver_synchronized hi hf stale) ?_ (fun b _ => .inr hno) fun b hb => ?_
  · rintro j ⟨hj, hx⟩
    have hmem : G.members = g.members := by rw [hG, members_delivered]
    rw [hmem] at hj
    have hl : g.Live j := by
      rw [(h.sync.handle_delivered hG hj).1] at hx
      exact ⟨hj, exited_of_handle hx⟩
    obtain ⟨-, hnr, -, hother⟩ := (g.node j).mcSynchronized_frame i
    rw [Counted, (hhandle j hl).1, (hhandle j hl).2, hnr, hmem]
    rcases h.counts j hl with hc | ⟨h1, h2, h3⟩
    · exact .inl hc
    · -- the sender is not one of those that have started again
      have hji : j ≠ i := by
        rintro rfl
        exact h3 (Group.mem_of_flight hf)
      rw [if_neg hji, hother (by rw [h.sync.ids j hj]; exact Ne.symm hji)]
      exact .inr ⟨h1, h2, h3⟩
  · obtain ⟨hx, -, hs, -⟩ := (g.node b).mcSynchronized_frame i
    refine ⟨⟨hG ▸ hb.1.1, ?_⟩, ?_⟩ <;> rw [(hhandle b hb.1).1]
    · rw [hx, hb.1.2]
    · exact hs hb.2

end Membership

/-! ### Requests and replies -/

section Device

variable {G : Net} {msg : Msg} {rest : List Msg} {stale : ℕ → List UInt8} {b : ℕ}

theorem AckInv.serving_unique (h : AckInv env g) (hi : g.Serving i) (hj : g.Serving j) : i = j := by
  obtain ⟨p, hp⟩ := h.agreed
  rw [(hp.self i hi.1 hi.2).1, (hp.self j hj.1 hj.2).1]

theorem AckInv.backup (h : AckInv env g) (hi : g.Serving i) (hb : g.Synced b) (hbi : b ≠ i) :
    (g.node b).primaryMbr = some i ∧ ¬ (g.node b).IsPrimary := by
  obtain ⟨p, hp⟩ := h.agreed
  obtain rfl := (hp.self i hi.1 hi.2).1
  exact ⟨(hp.sync b hb).1, fun hpb => hbi (hp.self b hb.1 hpb).1⟩

theorem AckInv.one_lt_nrNodes (h : AckInv env g) (hi : i ∈ g.members) (hb : g.Synced b)
    (hbi : b ≠ i) : 1 < (g.node b).nrNodes := by
  rcases h.counts b hb.1 with hc | ⟨hun, -⟩
  · have := Finset.one_lt_card.2 ⟨b, hb.1.1, i, hi, hbi⟩
    omega
  · simp [hb.2] at hun

theorem SyncInv.reqs_delivered (h : SyncInv g) (hG : G = g.delivered env i msg rest stale)
    (hmsg : msg.isMembership = false) (hj : j ∈ g.members) :
    G.reqs j = if j = i then rest.filter Msg.isRequest else g.reqs j := by
  have hsent : ((g.node j).handle env (.message i msg (stale j))).2.filter Msg.isRequest = [] := by
    refine List.filter_eq_nil_iff.2 fun x hx => ?_
    rw [((g.node j).handle_device env i hmsg (stale j)).2 x hx]
    decide
  rw [reqs, (h.handle_delivered hG hj).2, List.filter_append, hsent, List.append_nil]
  split <;> rfl

theorem AckInv.deliver_device (h : AckInv env g) (hf : g.flight i = msg :: rest)
    (hmsg : msg.isMembership = false) (hG : G = g.delivered env i msg rest stale)
    (hx : ∀ j ∈ g.members, ((g.node j).handle env (.message i msg (stale j))).1.exited =
      (g.node j).exited)
    (hidle : ∀ j ∈ g.members, (g.node j).thread = .idle →
      ((g.node j).handle env (.message i msg (stale j))).1.thread = .idle)
    (hwaits : ∀ j, g.Serving j →
      ((g.node j).handle env (.message i msg (stale j))).1.thread.waiting = true → G.Waits j) :
    AckInv env G := by
  obtain ⟨p, hp⟩ := h.agreed
  have hmem : G.members = g.members := by rw [hG, members_delivered]
  have hnode : ∀ j ∈ g.members, G.node j =
      ((g.node j).handle env (.message i msg (stale j))).1 :=
    fun j hj => (h.sync.handle_delivered hG hj).1
  have hsame := fun j => (g.node j).handle_device env i hmsg (stale j)
  have hlive : ∀ j, G.Live j → g.Live j := by
    rintro j ⟨hj, hxj⟩
    rw [hmem] at hj
    rw [hnode j hj, hx j hj] at hxj
    exact ⟨hj, hxj⟩
  have hserv : ∀ j, G.Serving j ↔ g.Serving j := by
    intro j
    constructor
    · rintro ⟨hl, hpr⟩
      rw [hnode j (hlive j hl).1, (hsame j).1.isPrimary] at hpr
      exact ⟨hlive j hl, hpr⟩
    · rintro ⟨hl, hpr⟩
      refine ⟨⟨hmem ▸ hl.1, ?_⟩, ?_⟩ <;> rw [hnode j hl.1]
      · rw [hx j hl.1, hl.2]
      · rwa [(hsame j).1.isPrimary]
  have hflight : ∀ j ∈ g.members, ∀ x ∈ G.flight j, x ∈ g.flight j ∨ x = .taskReply := by
    intro j hj x hxj
    rw [(h.sync.handle_delivered hG hj).2] at hxj
    rcases List.mem_append.1 hxj with hxj | hxj
    · exact .inl (Group.mem_of_mem_pop hf hxj)
    · exact .inr ((hsame j).2 x hxj)
  refine ⟨⟨p, hG ▸ hp.delivered hf stale fun j _ => .inl (keeps_device hmsg _)⟩,
    hG ▸ h.sync.deliver_device hf hmsg stale hx, ?_, ?_, ?_, ?_, ?_⟩
  · intro j hj
    have hl := hlive j hj
    rw [Counted, hmem, hnode j hl.1, (hsame j).1.nrNodes, (hsame j).1.synchronized]
    rcases h.counts j hl with hc | ⟨h1, h2, h3⟩
    · exact .inl hc
    · refine .inr ⟨h1, h2, fun hmem => ?_⟩
      exact (hflight j hl.1 _ hmem).elim h3 (by simp)
  · intro j hj hns
    rw [hmem] at hj
    obtain ⟨h1, h2⟩ := h.idle j hj fun hs => hns ((hserv j).2 hs)
    refine ⟨by rw [hnode j hj]; exact hidle j hj h1, ?_⟩
    rw [h.sync.reqs_delivered hG hmsg hj]
    split
    · rename_i hji
      rw [hji, reqs, hf, List.filter_cons] at h2
      split at h2
      · cases h2
      · exact h2
    · exact h2
  · intro j hj
    rw [hmem] at hj
    rw [h.sync.reqs_delivered hG hmsg hj]
    have hc := h.closed j hj
    split
    · rename_i hji
      rw [hji, reqs, hf, List.filter_cons] at hc
      split at hc
      · exact hc.tail
      · exact hc
    · exact hc
  · intro j hj w hw b hb hbj
    rw [hmem] at hj
    have hlb := hlive b hb.1
    have hsb := hb.2
    rw [hnode b hlb.1] at hsb ⊢
    rw [(hsame b).1.synchronized] at hsb
    refine (h.accepts j hj w ?_ b ⟨hlb, hsb⟩ hbj).mono
      ((g.node b).devGrows_handle_device env i hmsg (stale b))
    exact (hflight j hj _ hw).resolve_right (by simp)
  · intro j hj hw
    have hs := (hserv j).1 hj
    rw [hnode j hs.1.1] at hw
    exact hwaits j hs hw

theorem AckInv.synced_delivered (h : AckInv env g) (hmsg : msg.isMembership = false)
    (hG : G = g.delivered env i msg rest stale)
    (hx : ∀ j ∈ g.members, ((g.node j).handle env (.message i msg (stale j))).1.exited =
      (g.node j).exited) (hj : g.Synced j) : G.Synced j := by
  refine ⟨⟨hG ▸ hj.1.1, ?_⟩, ?_⟩ <;> rw [(h.sync.handle_delivered hG hj.1.1).1]
  · rw [hx j hj.1.1, hj.1.2]
  · rw [((g.node j).handle_device env i hmsg (stale j)).1.synchronized, hj.2]

theorem AckInv.deliver_reply (h : AckInv env g) (hf : g.flight i = .taskReply :: rest)
    (hG : G = g.delivered env i .taskReply rest stale) : AckInv env G := by
  have hhandle : ∀ j, (g.node j).exited = false →
      (g.node j).handle env (.message i .taskReply (stale j)) = ((g.node j).repTaskReply i, []) := by
    intro j hxj
    simp [Member.handle, hxj]
  have hx : ∀ j ∈ g.members,
      ((g.node j).handle env (.message i .taskReply (stale j))).1.exited = (g.node j).exited := by
    intro j _
    rcases Bool.eq_false_or_eq_true (g.node j).exited with hxj | hxj
    · rw [Member.handle_exited env hxj]
    · rw [hhandle j hxj]
      exact (g.node j).exited_repTaskReply i
  refine h.deliver_device hf rfl hG hx ?_ ?_
  · intro j _ hth
    rcases Bool.eq_false_or_eq_true (g.node j).exited with hxj | hxj
    · rw [Member.handle_exited env hxj]
      exact hth
    · rw [hhandle j hxj]
      rcases (g.node j).repTaskReply_cases i with ⟨-, he⟩ | ⟨-, ⟨he, -⟩ | ⟨-, he⟩⟩
      · rw [he]
        exact hth
      · rw [he]
        exact hth
      · exact he hth
  · intro j hs hw
    have hjm := hs.1.1
    have hsj := h.sync.self j hs.1 hs.2
    have hnode : G.node j = (g.node j).repTaskReply i := by
      rw [(h.sync.handle_delivered hG hjm).1, hhandle j hs.1.2]
    have hreqs : G.reqs j = g.reqs j := by
      rw [h.sync.reqs_delivered hG rfl hjm]
      split
      · rename_i hji
        rw [hji, reqs, hf]
        rfl
      · rfl
    have hkeep : ∀ b, g.Synced b → G.Synced b := fun b hb => h.synced_delivered rfl hG hx hb
    have hreply : ∀ b ∈ g.members, b ≠ i → .taskReply ∈ g.flight b → .taskReply ∈ G.flight b := by
      intro b hb hbi hr
      rw [(h.sync.handle_delivered hG hb).2, if_neg hbi]
      exact List.mem_append_left _ hr
    rw [hhandle j hs.1.2] at hw
    rcases (g.node j).repTaskReply_cases i with ⟨hno, he⟩ | ⟨hacks, ⟨hth, hne⟩ | ⟨hth, -⟩⟩
    · -- the reply of a member that does not count
      have hib : i ∉ (g.node j).bmSync := hno.resolve_left (by simp [hsj])
      have hni : ¬ g.Synced i := by rwa [(h.sync.sets j ⟨hs.1, hsj⟩).1, mem_syncedSet] at hib
      rw [he] at hw
      rcases h.waits j hs hw with ⟨hne, b, hb, hsb⟩ | ⟨hnil, hne, hall⟩
      · exact .inl ⟨by rwa [hreqs], b, hb, hkeep b hsb⟩
      · refine .inr ⟨by rwa [hreqs], by rwa [hnode, he], fun b hb => ?_⟩
        rw [hnode, he] at hb
        obtain ⟨hsb, hr⟩ := hall b hb
        exact ⟨hkeep b hsb, hreply b hsb.1.1 (fun hbi => hni (hbi ▸ hsb)) hr⟩
    · simp only [hth] at hw
      rcases h.waits j hs hw with ⟨hne', b, hb, hsb⟩ | ⟨hnil, -, hall⟩
      · exact .inl ⟨by rwa [hreqs], b, hb, hkeep b hsb⟩
      · refine .inr ⟨by rwa [hreqs], by rw [hnode, hacks]; exact hne hs.2, fun b hb => ?_⟩
        rw [hnode, hacks] at hb
        obtain ⟨hbi, hb⟩ := Finset.mem_erase.1 hb
        obtain ⟨hsb, hr⟩ := hall b hb
        exact ⟨hkeep b hsb, hreply b hsb.1.1 hbi hr⟩
    · simp only [hth] at hw
      cases hw

theorem AckInv.deliver_request (h : AckInv env g) (hi : i ∈ g.members)
    (hf : g.flight i = msg :: rest) (hmsg : msg.isRequest = true)
    (hG : G = g.delivered env i msg rest stale) : AckInv env G := by
  have hmem : msg.isMembership = false := Msg.isMembership_of_isRequest hmsg
  have hreqs : g.reqs i = msg :: rest.filter Msg.isRequest := by
    rw [reqs, hf, List.filter_cons_of_pos hmsg]
  have hserv : g.Serving i := by
    by_contra hns
    exact absurd ((h.idle i hi hns).2) (by simp [hreqs])
  have hsi := h.sync.self i hserv.1 hserv.2
  have hself : (g.node i).handle env (.message i msg (stale i)) = ((g.node i).startAcks i, []) := by
    have hown : (g.node i).handle env (.message (g.node i).localNodeid msg (stale i)) = _ :=
      Member.handle_request_primary hserv.1.2 hsi hserv.2 hmsg (stale i)
    rwa [h.sync.ids i hi] at hown
  have hbackup : ∀ b, g.Synced b → b ≠ i →
      ((g.node b).handle env (.message i msg (stale b))).1.exited = false ∧
        (msg.isClosing = true →
          .taskReply ∈ ((g.node b).handle env (.message i msg (stale b))).2) := by
    intro b hb hbi
    obtain ⟨hp, hnp⟩ := h.backup hserv hb hbi
    refine Member.handle_request_backup hb.1.2 hb.2 hp hnp hmsg ?_ (h.one_lt_nrNodes hi hb hbi) _
    rintro w rfl
    exact h.accepts i hi w (Group.mem_of_flight hf) b hb hbi
  have hx : ∀ j ∈ g.members,
      ((g.node j).handle env (.message i msg (stale j))).1.exited = (g.node j).exited := by
    intro j hj
    rcases Bool.eq_false_or_eq_true (g.node j).exited with hxj | hxj
    · rw [Member.handle_exited env hxj]
    · by_cases hji : j = i
      · rw [hji, hself]
        rfl
      · rcases Bool.eq_false_or_eq_true (g.node j).synchronized with hsj | hsj
        · rw [(hbackup j ⟨⟨hj, hxj⟩, hsj⟩ hji).1, hxj]
        · rw [Member.handle_request_unsync hsj hmsg]
  refine h.deliver_device hf hmem hG hx ?_ ?_
  · intro j _ hth
    rw [Member.thread_handle_request env _ _ hmsg, hth]
  · intro j hs hw
    obtain rfl := h.serving_unique hs hserv
    rw [Member.thread_handle_request env _ _ hmsg] at hw
    have hkeep : ∀ b, g.Synced b → G.Synced b := fun b hb => h.synced_delivered hmem hG hx hb
    obtain ⟨b, hbj, hb⟩ : ∃ b, b ≠ j ∧ g.Synced b := by
      rcases h.waits j hs hw with ⟨-, hex⟩ | ⟨hnil, -⟩
      · exact hex
      · simp [hreqs] at hnil
    have hreqs' : G.reqs j = rest.filter Msg.isRequest := by
      rw [h.sync.reqs_delivered hG hmem hi, if_pos rfl]
    by_cases hlast : rest.filter Msg.isRequest = []
    · -- the replies to the last request are in flight now
      have hcl : msg.isClosing = true := by
        have := h.closed j hi
        rw [hreqs, hlast] at this
        exact this.head
      have hacks : (G.node j).bmAcks = g.syncedSet.erase j := by
        rw [(h.sync.handle_delivered hG hi).1, hself, ← (h.sync.sets j ⟨hs.1, hsi⟩).1]
        rfl
      refine .inr ⟨by rw [hreqs', hlast], ?_, fun b' hb' => ?_⟩
      · rw [hacks]
        exact Finset.ne_empty_of_mem (Finset.mem_erase.2 ⟨hbj, mem_syncedSet.2 hb⟩)
      · rw [hacks, Finset.mem_erase, mem_syncedSet] at hb'
        obtain ⟨hne, hsb⟩ := hb'
        refine ⟨hkeep b' hsb, ?_⟩
        rw [(h.sync.handle_delivered hG hsb.1.1).2]
        exact List.mem_append_right _ ((hbackup b' hsb hne).2 hcl)
    · exact .inl ⟨by rwa [hreqs'], b, hbj, hkeep b hb⟩

end Device

/-! ### The driver thread -/

/-- The primary `i` has a backup. -/
def HasBackup (g : Net) (i : ℕ) : Prop := ∃ b ∈ g.members, b ≠ i ∧ g.Synced b

instance (g : Net) (i : ℕ) : Decidable (g.HasBackup i) :=
  inferInstanceAs (Decidable (∃ b ∈ g.members, _))

/-- The copies succeed and their data fit, there is a backup, and every backup has the device open
and longer than the end of the entry. -/
def EntryOk (env : Env) (g : Net) (i : ℕ) (c : Call) (e : ℕ × ℕ × ℕ) : Prop :=
  ChunksFit env.lz c.vcopy ((g.node i).dev c.device).buffSize e.2.1 e.2.2 ∧ g.HasBackup i ∧
    ∀ b ∈ g.members, b ≠ i → g.Synced b → (g.node b).Ready c.device (e.1 + e.2.2)

instance (env : Env) (g : Net) (i : ℕ) (c : Call) (e : ℕ × ℕ × ℕ) :
    Decidable (g.EntryOk env i c e) := inferInstanceAs (Decidable (_ ∧ _))

def TurnOk (env : Env) (g : Net) (i : ℕ) : Prop :=
  ∀ c ∈ (g.node i).thread.call?, 1 < (g.node i).dcNrNodes → 1 < (g.node i).nrNodes →
    ∀ e ∈ (g.node i).nextEntry c, g.EntryOk env i c e

instance (env : Env) (g : Net) (i : ℕ) : Decidable (g.TurnOk env i) :=
  inferInstanceAs (Decidable (∀ c ∈ (g.node i).thread.call?, _ → _ → _))

theorem isRequest_of_driverStep {m : Member} (hr : driverStep env m a = some r) :
    ∀ x ∈ r.2, x.isRequest = true := by
  intro x hx
  obtain ⟨h1, h2⟩ := (Member.driverStep_frame hr).2.2.2 x hx
  cases x with
  | devWrite | devOpen => rfl
  | taskReply => exact absurd rfl h2
  | statusInfo | synchronized => cases h1

theorem AckInv.act (h : AckInv env g) (hs : g.Serving i) (hr : driverStep env (g.node i) a = some r)
    (hclosed : Closed r.2)
    (haccepts : ∀ w, .devWrite w ∈ r.2 → ∀ b, g.Synced b → b ≠ i → (g.node b).Accepts env w)
    (hwaits : r.1.thread.waiting = true → r.2 ≠ [] ∧ g.HasBackup i) : AckInv env (g.act i r) := by
  obtain ⟨p, hp⟩ := h.agreed
  obtain ⟨hsame, hx, -, -⟩ := Member.driverStep_frame hr
  have hsent := isRequest_of_driverStep hr
  have hreqs : reqs (g.act i r) i = g.reqs i ++ r.2 := by
    rw [reqs, Group.flight_act_self, List.filter_append, List.filter_eq_self.2 hsent, reqs]
  have hreqs' : ∀ j, j ≠ i → reqs (g.act i r) j = g.reqs j := by
    intro j hji
    rw [reqs, Group.flight_act_of_ne hji, reqs]
  have hlive : ∀ j, Live (g.act i r) j ↔ g.Live j := by
    intro j
    unfold Live
    by_cases hji : j = i
    · rw [hji, Group.node_act_self, hx]
      rfl
    · rw [Group.node_act_of_ne hji]
      rfl
  have hsame' : ∀ j, Member.SameGroup (g.node j) ((g.act i r).node j) := by
    intro j
    by_cases hji : j = i
    · subst hji
      rwa [Group.node_act_self]
    · rw [Group.node_act_of_ne hji]
      exact .refl _
  have hserv : ∀ j, Serving (g.act i r) j ↔ g.Serving j := by
    intro j
    unfold Serving
    rw [hlive, (hsame' j).isPrimary]
  have hsynced : ∀ j, Synced (g.act i r) j ↔ g.Synced j := by
    intro j
    unfold Synced
    rw [hlive, (hsame' j).synchronized]
  refine ⟨⟨p, hp.drive hr⟩, h.sync.drive hr, ?_, ?_, ?_, ?_, ?_⟩
  · intro j hj
    rw [Counted, (hsame' j).nrNodes, (hsame' j).synchronized]
    rcases h.counts j ((hlive j).1 hj) with hc | ⟨h1, h2, h3⟩
    · exact .inl hc
    · refine .inr ⟨h1, h2, fun hmem => ?_⟩
      by_cases hji : j = i
      · subst hji
        rw [Group.flight_act_self, List.mem_append] at hmem
        rcases hmem with hmem | hmem
        · exact h3 hmem
        · cases hsent _ hmem
      · rw [Group.flight_act_of_ne hji] at hmem
        exact h3 hmem
  · intro j hj hns
    have hji : j ≠ i := by
      rintro rfl
      exact hns ((hserv j).2 hs)
    rw [Group.node_act_of_ne hji, hreqs' j hji]
    exact h.idle j hj fun hsj => hns ((hserv j).2 hsj)
  · intro j hj
    by_cases hji : j = i
    · subst hji
      rw [hreqs]
      exact (h.closed j hj).append hclosed
    · rw [hreqs' j hji]
      exact h.closed j hj
  · intro j hj w hw b hb hbj
    have hb' := (hsynced b).1 hb
    by_cases hji : j = i
    · subst hji
      rw [Group.node_act_of_ne hbj]
      rw [Group.flight_act_self, List.mem_append] at hw
      rcases hw with hw | hw
      · exact h.accepts j hj w hw b hb' hbj
      · exact haccepts w hw b hb' hbj
    · -- only the primary has requests in flight
      rw [Group.flight_act_of_ne hji] at hw
      have hmem : .devWrite w ∈ g.reqs j := mem_reqs.2 ⟨hw, rfl⟩
      simp [(h.idle j hj fun hsj => hji (h.serving_unique hsj hs)).2] at hmem
  · intro j hj hw
    obtain rfl := h.serving_unique ((hserv j).1 hj) hs
    rw [Group.node_act_self] at hw
    obtain ⟨hne, b, -, hbj, hb⟩ := hwaits hw
    refine .inl ⟨?_, b, hbj, (hsynced b).2 hb⟩
    rw [hreqs]
    exact List.append_ne_nil_of_right_ne_nil _ hne

theorem AckInv.act_quiet (h : AckInv env g) (hs : g.Serving i)
    (hr : driverStep env (g.node i) a = some r) (hsent : r.2 = [])
    (hw : r.1.thread.waiting = false) :
    AckInv env (g.act i r) := by
  refine h.act hs hr (by rw [hsent]; exact .nil) (fun w hmem => ?_) fun hwait => ?_
  · simp [hsent] at hmem
  · simp [hw] at hwait

theorem AckInv.act_turn (h : AckInv env g) (hs : g.Serving i) {c : Call}
    (hth : (g.node i).thread = .transfer c) (hok : g.TurnOk env i) :
    AckInv env (g.act i ((g.node i).turn env c)) := by
  have hr : driverStep env (g.node i) (.turn i) = some ((g.node i).turn env c) := by
    simp [driverStep, hth]
  have hentry : 1 < (g.node i).dcNrNodes → 1 < (g.node i).nrNodes →
      ∀ e ∈ (g.node i).nextEntry c, g.EntryOk env i c e := by
    refine hok c ?_
    rw [hth]
    rfl
  have hfit : 1 < (g.node i).dcNrNodes → 1 < (g.node i).nrNodes → (g.node i).TurnFits env c :=
    fun hdc hn e he => (hentry hdc hn e he).1
  rcases Member.turn_cases hfit with
    ⟨hw, hsent⟩ | ⟨hdc, hn, e, ws, he, hsent, hne, hcl, hws⟩
  · exact h.act_quiet hs hr hsent hw
  · obtain ⟨-, hb, hready⟩ := hentry hdc hn e he
    refine h.act hs hr (by rwa [hsent]) ?_ fun _ => ⟨by simpa [hsent] using hne, hb⟩
    intro w hw b hsb hbi
    rw [hsent] at hw
    obtain ⟨w', hw', heq⟩ := List.mem_map.1 hw
    cases heq
    obtain ⟨hfits, hdev, hpos⟩ := hws w hw'
    have hrb := hready b hsb.1.1 hbi hsb
    exact ⟨by rw [hdev]; exact hrb.active, hfits, fun h0 => by rw [hdev, hpos h0]; exact hrb⟩

theorem waiting_wakeUp (m : Member) (next : Option Call) :
    (m.wakeUp next).thread.waiting = false := by
  cases next <;> rfl

/-! ### Every run -/

def AckOk (env : Env) (g : Net) : Label → Prop
  | .join .. => g.SyncJoinOk
  | .leave k => g.PrimaryLeaveOk k ∧ g.SyncLeaveOk k ∧ g.AwaitedStay k
  | .network members node => g.NetworkOk members node
  | .deliver i _ => (g.flight i).head? = some .synchronized →
      ∀ j ∈ g.members, ∀ x ∈ g.flight j, x.isDevWrite = false
  | .turn i => g.TurnOk env i
  | .sendOpen i => g.HasBackup i
  | .write .. | .openDev .. | .wake _ | .spurious _ => True

instance (env : Env) (g : Net) (a : Label) : Decidable (g.AckOk env a) :=
  match a with
  | .join .. => inferInstanceAs (Decidable g.SyncJoinOk)
  | .leave _ => inferInstanceAs (Decidable (_ ∧ _))
  | .network members node => inferInstanceAs (Decidable (g.NetworkOk members node))
  | .deliver _ _ => inferInstanceAs (Decidable (_ = _ → _))
  | .turn i => inferInstanceAs (Decidable (g.TurnOk env i))
  | .sendOpen i => inferInstanceAs (Decidable (g.HasBackup i))
  | .write .. | .openDev .. | .wake _ | .spurious _ => inferInstanceAs (Decidable True)

theorem AckInv.start (env : Env) (dcNrNodes : ℤ) (dev : Fin nrDevs → Dev) :
    AckInv env (Net.start dcNrNodes dev) where
  agreed := ⟨0, .start dcNrNodes dev⟩
  sync := .start dcNrNodes dev
  counts _ hi := by cases hi.1
  idle _ hi := by cases hi
  closed _ hi := by cases hi
  accepts _ hi := by cases hi
  waits _ hi := by cases hi.1.1

theorem AckInv.drive (h : AckInv env g) (hs : g.Serving i) (ha : a.driver? = some i)
    (hok : g.AckOk env a) (hr : driverStep env (g.node i) a = some r) : AckInv env (g.act i r) := by
  have hr' := hr
  unfold driverStep at hr'
  split at hr' <;> try split at hr'
  all_goals cases hr'
  · rename_i hth
    refine h.act_quiet hs hr rfl ?_
    simp only [Member.startWrite]
    split
    · rw [hth]
      rfl
    · rfl
  · rename_i hth
    cases ha
    exact h.act_turn hs hth hok
  · rename_i d _ hth
    refine h.act_quiet hs hr rfl ?_
    have hopen : ((g.node i).openDevice d).1.thread = .idle := by
      unfold Member.openDevice
      split
      · exact hth
      · split <;> exact hth
    simp only [Member.startOpen]
    split
    · rfl
    · rw [hopen]
      rfl
  · cases ha
    exact h.act hs hr (by simp [Member.sendOpen, Closed, Msg.isClosing])
      (by simp [Member.sendOpen]) fun _ => ⟨by simp [Member.sendOpen], hok⟩
  all_goals exact h.act_quiet hs hr rfl (waiting_wakeUp _ _)

theorem AckInv.step (h : AckInv env g) (hok : g.AckOk env a)
    (hst : Net.step env dcNrNodes g a = some g') : AckInv env g' := by
  rcases step_cases hst with ⟨i, dev, errno, rfl, hi, -, rfl⟩ | ⟨k, rfl, hk, rfl⟩ |
    ⟨members, node, rfl, hm, rfl⟩ | ⟨i, stale, msg, rest, rfl, hi, hf, rfl⟩ |
    ⟨i, r, ha, hs, hr, rfl⟩
  · exact h.join rfl hi hok
  · exact h.leave hk hok.1 hok.2.1 hok.2.2
  · exact h.network rfl (fun i hi => (hm i hi).2) hok
  · cases msg with
    | devWrite | devOpen => exact h.deliver_request hi hf rfl rfl
    | taskReply => exact h.deliver_reply hf rfl
    | statusInfo n s bn bs => exact h.deliver_status hi hf rfl
    | synchronized => exact h.deliver_synchronized hi hf rfl (hok (by rw [hf]; rfl))
  · exact h.drive hs ha hok hr

/-- A request of `p` that a backup replies to, or the reply of a member in `bm_acks`, is in flight.
-/
def AckComing (env : Env) (g : Net) (p : ℕ) : Prop :=
  (∃ msg ∈ g.flight p, ∃ b ∈ (g.node p).bmSync, b ≠ p ∧ g.Synced b ∧
    ∀ stale, .taskReply ∈ ((g.node b).handle env (.message p msg stale)).2) ∨
  ∃ b ∈ (g.node p).bmAcks, g.Synced b ∧ .taskReply ∈ g.flight b

/-- Every primary that is blocked on `update_barrier` has been signalled or waits for an
acknowledge that can come. -/
def NotStranded (env : Env) (g : Net) : Prop :=
  ∀ p, g.Serving p → (g.node p).thread.waiting = true → g.AckComing env p

theorem AckInv.notStranded (h : AckInv env g) : g.NotStranded env := by
  intro p hs hw
  have hsp := h.sync.self p hs.1 hs.2
  rcases h.waits p hs hw with ⟨hne, b, hbp, hb⟩ | ⟨-, hne, hall⟩
  · obtain ⟨msg, hmem, hcl⟩ := (h.closed p hs.1.1).exists_mem hne
    obtain ⟨hfl, hreq⟩ := mem_reqs.1 hmem
    obtain ⟨hpr, hnp⟩ := h.backup hs hb hbp
    refine .inl ⟨msg, hfl, b, ?_, hbp, hb, fun stale => ?_⟩
    · rw [(h.sync.sets p ⟨hs.1, hsp⟩).1]
      exact mem_syncedSet.2 hb
    · refine (Member.handle_request_backup hb.1.2 hb.2 hpr hnp hreq ?_
        (h.one_lt_nrNodes hs.1.1 hb hbp) stale).2 hcl
      rintro w rfl
      exact h.accepts p hs.1.1 w hfl b hb hbp
  · obtain ⟨b, hb⟩ := Finset.nonempty_iff_ne_empty.2 hne
    exact .inr ⟨b, hb, hall b hb⟩

/-- **The acknowledges come.** In every run whose steps meet `AckOk`, a primary that is blocked on
`update_barrier` waits for an acknowledge that can come. -/
theorem acks_come (env : Env) (dcNrNodes : ℤ) (dev : Fin nrDevs → Dev)
    (h : Reach.Reachable (step env dcNrNodes) (AckOk env) (start dcNrNodes dev) g) :
    g.NotStranded env := by
  have hinv : AckInv env g :=
    h.invariant (I := AckInv env) (.start env dcNrNodes dev)
      fun _ _ _ hs hok hst => hs.step hok hst
  exact hinv.notStranded

/-- Node 0 with the backup 1 opens a device and writes four bytes; it waits for the reply. -/
theorem acks_come_write : ∃ g : Net,
    Reach.Reachable (step .sample 4) (AckOk .sample) (start 4 fun _ => .sample) g ∧
      (g.Serving 0 ∧ (g.node 0).thread.waiting = true ∧ 1 ∈ (g.node 0).bmAcks) ∧
      g.NotStranded .sample := by
  obtain ⟨g, hr, hg⟩ := Reach.exists_reachable_of_exec (step .sample 4) (AckOk .sample)
    (start 4 fun _ => .sample)
    (fun g => decide (g.Serving 0 ∧ (g.node 0).thread.waiting = true ∧ 1 ∈ (g.node 0).bmAcks))
    (twoJoins ++ [.openDev 0 0, .sendOpen 0, .deliver 0 fun _ => [], .deliver 1 fun _ => [],
      .wake 0, .write 0 5 0 0 [(0, 4)] fun _ n => some (List.replicate n 7), .turn 0,
      .deliver 0 fun _ => []]) (by decide +kernel)
  exact ⟨g, hr, of_decide_eq_true hg, acks_come .sample 4 _ hr⟩

/-- Node 0 waits for the reply of its only backup to a `DEV_OPEN`, and the backup leaves: nobody
signals `update_barrier`. -/
theorem primary_stranded : ∃ g : Net,
    Reach.Reachable (step .sample 4) (fun _ _ => True) (start 4 fun _ => .sample) g ∧
      ¬ g.NotStranded .sample := by
  obtain ⟨g, hr, hg⟩ := Reach.exists_reachable_of_exec (step .sample 4) (fun _ _ => True)
    (start 4 fun _ => .sample)
    (fun g => decide (g.Serving 0 ∧ (g.node 0).thread.waiting = true ∧ g.flight 0 = [] ∧
      (g.node 0).bmAcks = ∅))
    (twoJoins ++ [.openDev 0 0, .sendOpen 0, .deliver 0 fun _ => [], .leave 1])
    (by decide +kernel)
  obtain ⟨hs, hw, hfl, hacks⟩ := of_decide_eq_true hg
  refine ⟨g, hr, fun h => ?_⟩
  rcases h 0 hs hw with ⟨msg, hmsg, -⟩ | ⟨b, hb, -⟩
  · simp [hfl] at hmsg
  · simp [hacks] at hb

end Net

end Rdisk

end MolIpc
