import MolIpc.Rdisk.SyncSet

/-!
Whether the group of RDISK stays usable: joins are accepted, no member exits over a status message,
and a group in which nothing is in flight has a synchronized primary.

`sp_join` compares `nr_nodes`, in which the joiner is counted already, with `dc_nr_nodes`, so the
last node of a DC is refused. A member that is not synchronized sets `nr_nodes` to 0 when somebody
leaves and does not become the primary, and a status that was sent before a join or a leave makes
the joiner exit.
-/

namespace MolIpc

namespace Rdisk

/-! ### What the handlers do to a settled member -/

namespace Member

variable {m : Member} {k : ℕ}

/-- The test of `sp_join`: it returns `OK`. -/
def JoinAccepted (m : Member) : Prop := ¬(m.nrNodes < 0 ∨ m.dcNrNodes ≤ m.nrNodes)

instance (m : Member) : Decidable m.JoinAccepted := inferInstanceAs (Decidable (¬_))

variable (env : Env) {num : ℤ}

theorem join_other (hx : m.exited = false) (hne : k ≠ m.localNodeid) (h0 : 0 ≤ num)
    (hlt : num < m.dcNrNodes) :
    m.handle env (.join k num) =
      ({ m with nrNodes := num, bmNodes := insert k m.bmNodes },
        if m.IsPrimary then [.statusInfo num m.nrSync (insert k m.bmNodes) m.bmSync] else []) := by
  have hr : ¬(num < 0 ∨ m.dcNrNodes ≤ num) := by omega
  by_cases hp : m.primaryMbr = some m.localNodeid <;>
    simp [handle, hx, spJoin, hr, hne, sendStatusInfo, IsPrimary, hp]

theorem join_alone {dcNrNodes : ℤ} (h : 1 < dcNrNodes) (i : ℕ) (dev : Fin nrDevs → Dev)
    (errno : ℤ) :
    (Member.init i dcNrNodes dev errno).handle env (.join i 1) =
      ({ Member.init i dcNrNodes dev errno with
          nrNodes := 1, bmNodes := {i}, fsm := .synchronized, synchronized := true, bmSync := {i},
          nrSync := 1, primaryMbr := some i }, [.statusInfo 1 1 {i} {i}]) := by
  simp [handle, spJoin, init, sendStatusInfo, IsPrimary, h]

theorem join_waits {dcNrNodes : ℤ} (h1 : 1 < num) (h : num < dcNrNodes) (i : ℕ)
    (dev : Fin nrDevs → Dev) (errno : ℤ) :
    (Member.init i dcNrNodes dev errno).handle env (.join i num) =
      ({ Member.init i dcNrNodes dev errno with
          nrNodes := num, bmNodes := {i}, fsm := .wait4primary }, []) := by
  have hr : ¬(num < 0 ∨ dcNrNodes ≤ num) := by omega
  simp [handle, spJoin, init, hr, h1.ne']

theorem disconnect_settled (hx : m.exited = false) (hne : m.localNodeid ≠ k)
    (hs : m.synchronized = true) (hsync : m.localNodeid ∈ m.bmSync)
    (hnode : m.localNodeid ∈ m.bmNodes) (hlt : m.localNodeid < nrNodesMax) (num : ℤ) :
    ∃ ns ba sent, m.handle env (.disconnect k num) =
      ({ m with
          nrNodes := num, bmNodes := m.bmNodes.erase k, bmSync := m.bmSync.erase k, nrSync := ns,
          bmAcks := ba,
          primaryMbr := if m.primaryMbr = some k then some m.localNodeid else m.primaryMbr },
        sent) := by
  have hsome : m.bmSync.erase k ≠ ∅ := Finset.ne_empty_of_mem (Finset.mem_erase.2 ⟨hne, hsync⟩)
  have hbit : m.localNodeid ∈ m.bmNodes.erase k := Finset.mem_erase.2 ⟨hne, hnode⟩
  refine ⟨if k ∈ m.bmSync then m.nrSync - 1 else m.nrSync, m.bmAcks.erase k,
    if m.primaryMbr = some k then [.statusInfo num
      (if k ∈ m.bmSync then m.nrSync - 1 else m.nrSync) (m.bmNodes.erase k) (m.bmSync.erase k)]
    else [], ?_⟩
  by_cases hp : m.primaryMbr = some k <;>
    simp [handle, hx, spDisconnect, hne, hs, replacePrimary, dropSync, hsome, elect_eq, hbit, hlt,
      hp]

end Member

namespace Net

variable {env : Env} {dcNrNodes : ℤ} {g g' : Net} {i j k : ℕ}

/-! ### The invariant -/

/-- `i` takes a member for the primary that is one. -/
def Obeys (g : Net) (i : ℕ) : Prop :=
  ∃ p ∈ g.members, (g.node i).primaryMbr = some p ∧ (g.node p).synchronized = true ∧
    (g.node p).primaryMbr = some p

/-- `j` is the only member on the way, and what it waits for is in flight. -/
structure OnTheWay (g : Net) (j : ℕ) : Prop where
  others : ∀ k ∈ g.members, k ≠ j → (g.node k).synchronized = true
  status : ∀ i ∈ g.members, ∀ (n s : ℤ) bn bs, .statusInfo n s bn bs ∈ g.flight i →
    n = g.members.card ∧ j ∈ bn ∧ (g.node i).synchronized = true ∧ (g.node i).primaryMbr = some i
  told : .synchronized ∈ g.flight j → j ∈ (g.node j).bmNodes ∧ g.Obeys j
  hears : .synchronized ∈ g.flight j ∨ (g.node j).fsm = .wait4primary ∧
    ∃ i ∈ g.members, ∃ n s bn bs, .statusInfo n s bn bs ∈ g.flight i

/-- A synchronized member has its own bits. -/
structure Settled (m : Member) (i : ℕ) : Prop where
  fsm : m.fsm = .synchronized
  sync : i ∈ m.bmSync
  node : i ∈ m.bmNodes

structure Counts (dcNrNodes num : ℤ) (m : Member) (i : ℕ) : Prop where
  id : m.localNodeid = i
  lt : i < nrNodesMax
  exited : m.exited = false
  nrNodes : m.nrNodes = num
  dc : m.dcNrNodes = dcNrNodes
  room : num < dcNrNodes

structure Recovers (dcNrNodes : ℤ) (g : Net) : Prop where
  counts : ∀ i ∈ g.members, Counts dcNrNodes g.members.card (g.node i) i
  synced : ∀ i ∈ g.members, (g.node i).synchronized = true →
    Settled (g.node i) i ∧ g.Obeys i
  waits : ∀ j ∈ g.members, (g.node j).synchronized = false → g.OnTheWay j

/-- A node joins when no message is in flight, all the members are synchronized and the DC has room
for one more node than that; a member leaves when all are synchronized. -/
def RecoverOk (dcNrNodes : ℤ) (g : Net) : Label → Prop
  | .join .. => (∀ i ∈ g.members, g.mflight i = []) ∧
      (∀ i ∈ g.members, (g.node i).synchronized = true) ∧ (g.members.card + 1 : ℤ) < dcNrNodes
  | .leave _ => ∀ i ∈ g.members, (g.node i).synchronized = true
  | .deliver .. => True
  | _ => False

instance (g : Net) (a : Label) : Decidable (g.RecoverOk dcNrNodes a) :=
  match a with
  | .join .. => inferInstanceAs (Decidable (_ ∧ _ ∧ _))
  | .leave _ => inferInstanceAs (Decidable (∀ i ∈ g.members, (g.node i).synchronized = true))
  | .deliver .. => inferInstanceAs (Decidable True)
  | .network .. | .write .. | .turn _ | .openDev .. | .sendOpen _ | .wake _ | .spurious _ =>
    inferInstanceAs (Decidable False)

/-! ### Joins and leaves -/

theorem NoDevice.flight_eq_nil (h : NoDevice g) (hi : i ∈ g.members) (hq : g.mflight i = []) :
    g.flight i = [] := by
  rw [List.eq_nil_iff_forall_not_mem]
  intro x hx
  exact absurd (mem_mflight.2 ⟨hx, h i hi x hx⟩) (by simp [hq])

theorem Recovers.join_empty (hempty : g.members = ∅) (hlt : i < nrNodesMax) (h1 : 1 < dcNrNodes)
    (dev : Fin nrDevs → Dev) (errno : ℤ) :
    Recovers dcNrNodes (g.joined env dcNrNodes i dev errno) := by
  have hmem : ∀ j ∈ (g.joined env dcNrNodes i dev errno).members, j = i := by
    simp [hempty]
  have hnode : (g.joined env dcNrNodes i dev errno).node i = _ := node_joined_self
  rw [show (g.members.card + 1 : ℤ) = 1 by simp [hempty], Member.join_alone env h1] at hnode
  refine ⟨fun j hj => ?_, fun j hj _ => ?_, fun j hj hs => ?_⟩ <;> obtain rfl := hmem j hj
  · rw [hnode, members_joined, hempty]
    exact ⟨rfl, hlt, rfl, rfl, rfl, h1⟩
  · refine ⟨?_, j, hj, ?_⟩ <;> rw [hnode]
    · exact ⟨rfl, Finset.mem_singleton_self j, Finset.mem_singleton_self j⟩
    · exact ⟨rfl, rfl, rfl⟩
  · simp [hnode] at hs

theorem Recovers.join (h : Recovers dcNrNodes g) (hno : NoDevice g) {dev : Fin nrDevs → Dev}
    {errno : ℤ} (hok : g.RecoverOk dcNrNodes (.join i dev errno)) (hi : i ∉ g.members)
    (hlt : i < nrNodesMax) : Recovers dcNrNodes (g.joined env dcNrNodes i dev errno) := by
  obtain ⟨hquiet, hsync, hroom⟩ := hok
  rcases g.members.eq_empty_or_nonempty with hempty | ⟨q, hq⟩
  · exact .join_empty hempty hlt (by simpa [hempty] using hroom) dev errno
  have hpos : 0 < g.members.card := Finset.card_pos.2 ⟨q, hq⟩
  have hcard : ((insert i g.members).card : ℤ) = g.members.card + 1 := by
    rw [Finset.card_insert_of_notMem hi]
    rfl
  -- the joiner waits, the primaries among the others send their status
  have h1 : 1 < (g.members.card + 1 : ℤ) := by omega
  have hnew : (g.joined env dcNrNodes i dev errno).node i = _ := node_joined_self
  have hnewfl : (g.joined env dcNrNodes i dev errno).flight i = _ := flight_joined_self
  rw [Member.join_waits env h1 hroom] at hnew hnewfl
  have hold : ∀ j ∈ g.members, (g.joined env dcNrNodes i dev errno).node j =
        { g.node j with
          nrNodes := g.members.card + 1, bmNodes := insert i (g.node j).bmNodes } ∧
      (g.joined env dcNrNodes i dev errno).flight j =
        if (g.node j).IsPrimary then [.statusInfo (g.members.card + 1) (g.node j).nrSync
          (insert i (g.node j).bmNodes) (g.node j).bmSync] else [] := by
    intro j hj
    have hc := h.counts j hj
    have hne : i ≠ (g.node j).localNodeid := fun h => hi (by rw [h, hc.id]; exact hj)
    rw [node_joined hi hj, flight_joined hi hj, hno.flight_eq_nil hj (hquiet j hj),
      Member.join_other env hc.exited hne (by omega) (hroom.trans_eq hc.dc.symm)]
    exact ⟨rfl, rfl⟩
  set G : Net := g.joined env dcNrNodes i dev errno with hG
  have hobeys : ∀ j ∈ g.members, G.Obeys j := by
    intro j hj
    obtain ⟨p, hp, hjp, hps, hpp⟩ := (h.synced j hj (hsync j hj)).2
    refine ⟨p, Finset.mem_insert_of_mem hp, ?_⟩
    rw [(hold j hj).1, (hold p hp).1]
    exact ⟨hjp, hps, hpp⟩
  refine ⟨fun j hj => ?_, fun j hj hs => ?_, fun j hj hs => ?_⟩ <;>
    rcases Finset.mem_insert.1 hj with rfl | hjm
  · rw [hnew, hG, members_joined, hcard]
    exact ⟨rfl, hlt, rfl, rfl, rfl, hroom⟩
  · have hc := h.counts j hjm
    rw [(hold j hjm).1, hG, members_joined, hcard]
    exact ⟨hc.id, hc.lt, hc.exited, rfl, hc.dc, hroom⟩
  · rw [hnew] at hs
    cases hs
  · obtain ⟨hset, -⟩ := h.synced j hjm (hsync j hjm)
    refine ⟨?_, hobeys j hjm⟩
    rw [(hold j hjm).1]
    exact ⟨hset.fsm, hset.sync, Finset.mem_insert_of_mem hset.node⟩
  · refine ⟨fun k hk hkj => ?_, fun k hk n s bn bs hmsg => ?_, fun hmsg => ?_, .inr ?_⟩
    · have hkm := (Finset.mem_insert.1 hk).resolve_left hkj
      rw [(hold k hkm).1]
      exact hsync k hkm
    · rcases Finset.mem_insert.1 hk with rfl | hkm
      · simp [hnewfl] at hmsg
      · rw [(hold k hkm).2] at hmsg
        split_ifs at hmsg with hp
        · cases List.mem_singleton.1 hmsg
          rw [(hold k hkm).1]
          refine ⟨hcard.symm, Finset.mem_insert_self j _, hsync k hkm, ?_⟩
          exact hp.trans (congrArg some (h.counts k hkm).id)
        · cases hmsg
    · simp [hnewfl] at hmsg
    · refine ⟨by rw [hnew], ?_⟩
      obtain ⟨p, hp, -, -, hpp⟩ := (h.synced q hq (hsync q hq)).2
      have hpr : (g.node p).IsPrimary := hpp.trans (congrArg some (h.counts p hp).id.symm)
      have hflp := (hold p hp).2
      rw [if_pos hpr] at hflp
      exact ⟨p, Finset.mem_insert_of_mem hp, _, _, _, _, hflp ▸ List.mem_singleton_self _⟩
  · rw [(hold j hjm).1] at hs
    exact absurd ((hsync j hjm).symm.trans hs) (by decide)

theorem Recovers.leave (h : Recovers dcNrNodes g) (hk : k ∈ g.members)
    (hsync : ∀ i ∈ g.members, (g.node i).synchronized = true) :
    Recovers dcNrNodes (g.left env k) := by
  have hcard : ((g.members.erase k).card : ℤ) = g.members.card - 1 := by
    rw [Finset.card_erase_of_mem hk]
    have := Finset.card_pos.2 ⟨k, hk⟩
    omega
  have hold : ∀ j ∈ (g.left env k).members, ∃ ns ba, (g.left env k).node j =
      { g.node j with
        nrNodes := g.members.card - 1, bmNodes := (g.node j).bmNodes.erase k
        bmSync := (g.node j).bmSync.erase k, nrSync := ns, bmAcks := ba
        primaryMbr := if (g.node j).primaryMbr = some k then some j
          else (g.node j).primaryMbr } := by
    intro j hj
    obtain ⟨hjk, hjm⟩ := mem_left.1 hj
    have hc := h.counts j hjm
    obtain ⟨hset, -⟩ := h.synced j hjm (hsync j hjm)
    obtain ⟨ns, ba, sent, heq⟩ := Member.disconnect_settled env hc.exited (hc.id.trans_ne hjk)
      (hsync j hjm) (hc.id.symm ▸ hset.sync) (hc.id.symm ▸ hset.node) (hc.id.trans_lt hc.lt)
      (g.members.card - 1)
    refine ⟨ns, ba, ?_⟩
    rw [node_left hj, heq]
    simp only [hc.id]
  refine ⟨fun j hj => ?_, fun j hj _ => ?_, fun j hj hs => ?_⟩ <;>
    obtain ⟨hjk, hjm⟩ := mem_left.1 hj <;> obtain ⟨ns, ba, hn⟩ := hold j hj
  · have hc := h.counts j hjm
    rw [hn, show (g.left env k).members = g.members.erase k from rfl, hcard]
    exact ⟨hc.id, hc.lt, hc.exited, rfl, hc.dc, by have := hc.room; omega⟩
  · obtain ⟨hset, p, hp, hjp, hps, hpp⟩ := h.synced j hjm (hsync j hjm)
    refine ⟨?_, ?_⟩
    · rw [hn]
      exact ⟨hset.fsm, Finset.mem_erase.2 ⟨hjk, hset.sync⟩, Finset.mem_erase.2 ⟨hjk, hset.node⟩⟩
    -- its primary is the one it had, or itself
    by_cases hpk : p = k
    · refine ⟨j, hj, ?_⟩
      rw [hn]
      simp [hjp, hpk, hsync j hjm]
    · have hpl : p ∈ (g.left env k).members := mem_left.2 ⟨hpk, hp⟩
      obtain ⟨ns', ba', hn'⟩ := hold p hpl
      refine ⟨p, hpl, ?_⟩
      rw [hn, hn']
      simp [hjp, hpk, hps, hpp]
  · rw [hn] at hs
    exact absurd ((hsync j hjm).symm.trans hs) (by decide)

/-! ### Messages -/

section Messages

variable {rest : List Msg} {stale : ℕ → List UInt8} {n s : ℤ} {bn bs : Finset ℕ}

theorem mem_of_mem_popped {msg x : Msg} (hf : g.flight i = msg :: rest)
    (hx : x ∈ if j = i then rest else g.flight j) : x ∈ g.flight j := by
  split at hx
  · rename_i hji
    rw [hji, hf]
    exact List.mem_cons_of_mem _ hx
  · exact hx

theorem Recovers.status_cases (env : Env) (h : Recovers dcNrNodes g) (hi : i ∈ g.members)
    (hf : g.flight i = .statusInfo n s bn bs :: rest) (hj : j ∈ g.members) (buf : List UInt8) :
    ((g.node j).fsm ≠ .wait4primary ∧
      (g.node j).handle env (.message i (.statusInfo n s bn bs) buf) = (g.node j, [])) ∨
    (g.node j).synchronized = false ∧ ∃ fsm,
      (g.node j).handle env (.message i (.statusInfo n s bn bs) buf) =
        ({ g.node j with
            primaryMbr := some i, nrSync := s, bmNodes := bn, bmSync := bs, fsm := fsm },
          [.synchronized]) := by
  have hc := h.counts j hj
  rw [Member.handle_statusInfo env hc.exited]
  by_cases hs : (g.node j).synchronized = true
  · have hfsm : (g.node j).fsm ≠ .wait4primary := by simp [(h.synced j hj hs).1.fsm]
    exact .inl ⟨hfsm, if_pos hfsm⟩
  have hn := ((h.waits j hj (by simpa using hs)).status i hi n s bn bs (by simp [hf])).1
  rcases Member.mcStatusInfo_cases env (g.node j) i n s bn bs with ⟨hfsm, heq⟩ | ⟨-, hne, -⟩ |
    ⟨-, -, fsm, heq⟩
  · exact .inl ⟨hfsm, heq⟩
  · exact absurd (hc.nrNodes.trans hn.symm) hne
  · exact .inr ⟨by simpa using hs, fsm, heq⟩

theorem Recovers.deliver_status (h : Recovers dcNrNodes g) (hi : i ∈ g.members)
    (hf : g.flight i = .statusInfo n s bn bs :: rest) :
    Recovers dcNrNodes (g.delivered env i (.statusInfo n s bn bs) rest stale) := by
  have hcases := fun j hj => h.status_cases env hi hf (j := j) hj (stale j)
  have hnode : ∀ j ∈ g.members, (g.delivered env i (.statusInfo n s bn bs) rest stale).node j = _ :=
    fun j hj => node_delivered hj (h.counts j hj).id
  have hfl : ∀ j ∈ g.members, (g.delivered env i (.statusInfo n s bn bs) rest stale).flight j = _ :=
    fun j hj => flight_delivered hj (h.counts j hj).id
  set G : Net := g.delivered env i (.statusInfo n s bn bs) rest stale
  have hsame : ∀ j ∈ g.members, (g.node j).synchronized = true → G.node j = g.node j := by
    intro j hj hs
    rw [hnode j hj]
    rcases hcases j hj with ⟨-, heq⟩ | ⟨hno, -⟩
    · rw [heq]
    · exact absurd (hs.symm.trans hno) (by decide)
  have hsync : ∀ j ∈ g.members, (G.node j).synchronized = (g.node j).synchronized := by
    intro j hj
    rw [hnode j hj]
    rcases hcases j hj with ⟨-, heq⟩ | ⟨-, fsm, heq⟩ <;> rw [heq]
  refine ⟨fun j hj => ?_, fun j hj hs => ?_, fun j hj hs => ?_⟩
  · have hc := h.counts j hj
    rw [hnode j hj]
    rcases hcases j hj with ⟨-, heq⟩ | ⟨-, fsm, heq⟩ <;> rw [heq]
    · exact hc
    · exact ⟨hc.id, hc.lt, hc.exited, hc.nrNodes, hc.dc, hc.room⟩
  · rw [hsync j hj] at hs
    obtain ⟨hset, p, hp, hjp, hps, hpp⟩ := h.synced j hj hs
    rw [Obeys, hsame j hj hs]
    exact ⟨hset, p, hp, hjp, by rw [hsame p hp hps]; exact ⟨hps, hpp⟩⟩
  · rw [hsync j hj] at hs
    have hw := h.waits j hj hs
    obtain ⟨-, hjbn, his, hip⟩ := hw.status i hi n s bn bs (by simp [hf])
    have hji : j ≠ i := fun h => absurd ((h ▸ his).symm.trans hs) (by decide)
    have hflj := hfl j hj
    rw [if_neg hji] at hflj
    refine ⟨fun k hk hkj => ?_, fun k hk n' s' bn' bs' hmsg => ?_, ?_, ?_⟩
    · rw [hsync k hk]
      exact hw.others k hk hkj
    · rw [hfl k hk] at hmsg
      rcases List.mem_append.1 hmsg with hmsg | hmsg
      · obtain ⟨hn', hj', hks, hkp⟩ := hw.status k hk _ _ _ _ (mem_of_mem_popped hf hmsg)
        rw [hsame k hk hks]
        exact ⟨hn', hj', hks, hkp⟩
      · rcases hcases k hk with ⟨-, heq⟩ | ⟨-, fsm, heq⟩ <;> rw [heq] at hmsg
        · cases hmsg
        · cases List.mem_singleton.1 hmsg
    · rcases hcases j hj with ⟨-, heq⟩ | ⟨-, fsm, heq⟩
      · rw [hflj, heq, List.append_nil]
        intro hmsg
        obtain ⟨hbit, p, hp, hjp, hps, hpp⟩ := hw.told hmsg
        rw [Obeys, hnode j hj, heq]
        exact ⟨hbit, p, hp, hjp, by rw [hsame p hp hps]; exact ⟨hps, hpp⟩⟩
      · intro _
        rw [Obeys, hnode j hj, heq]
        exact ⟨hjbn, i, hi, rfl, by rw [hsame i hi his]; exact ⟨his, hip⟩⟩
    · left
      rw [hflj]
      rcases hcases j hj with ⟨hfsm, heq⟩ | ⟨-, fsm, heq⟩
      · rw [heq, List.append_nil]
        exact hw.hears.resolve_right fun hno => hfsm hno.1
      · rw [heq]
        simp

theorem Recovers.synchronized_cases (env : Env) (h : Recovers dcNrNodes g) (hj : j ∈ g.members)
    (i : ℕ) (buf : List UInt8) :
    ∃ fsm sync ns bs, (g.node j).handle env (.message i .synchronized buf) =
        ({ g.node j with fsm := fsm, synchronized := sync, nrSync := ns, bmSync := bs }, []) ∧
      (j = i → fsm = .synchronized ∧ sync = true ∧ j ∈ bs) ∧
      (j ≠ i → fsm = (g.node j).fsm ∧ sync = (g.node j).synchronized) ∧
      (g.node j).bmSync ⊆ bs := by
  have hc := h.counts j hj
  rw [Member.handle_synchronized env hc.exited]
  by_cases hji : j = i
  · obtain rfl : i = (g.node j).localNodeid := hji.symm.trans hc.id.symm
    rw [Member.mcSynchronized_self]
    exact ⟨_, _, _, _, rfl, fun _ => ⟨rfl, rfl, hji ▸ Finset.mem_insert_self _ _⟩,
      fun hne => absurd hji hne, Finset.subset_insert _ _⟩
  · rw [Member.mcSynchronized_other (fun h => hji (hc.id.symm.trans h.symm))]
    split_ifs with hs
    · exact ⟨_, _, _, _, rfl, fun h => absurd h hji, fun _ => ⟨rfl, rfl⟩, Finset.subset_insert _ _⟩
    · exact ⟨_, _, _, _, rfl, fun h => absurd h hji, fun _ => ⟨rfl, rfl⟩, Finset.Subset.refl _⟩

theorem Recovers.deliver_synchronized (h : Recovers dcNrNodes g)
    (hf : g.flight i = .synchronized :: rest) :
    Recovers dcNrNodes (g.delivered env i .synchronized rest stale) := by
  have hcases := fun j hj => h.synchronized_cases env (j := j) hj i (stale j)
  have hnode : ∀ j ∈ g.members, (g.delivered env i .synchronized rest stale).node j = _ :=
    fun j hj => node_delivered hj (h.counts j hj).id
  have hfl : ∀ j ∈ g.members, (g.delivered env i .synchronized rest stale).flight j =
      if j = i then rest else g.flight j := by
    intro j hj
    obtain ⟨_, _, _, _, heq, -⟩ := hcases j hj
    rw [flight_delivered hj (h.counts j hj).id, heq, List.append_nil]
  set G : Net := g.delivered env i .synchronized rest stale
  have hprim : ∀ j ∈ g.members, (G.node j).primaryMbr = (g.node j).primaryMbr ∧
      (G.node j).bmNodes = (g.node j).bmNodes ∧
      ((g.node j).synchronized = true → (G.node j).synchronized = true) := by
    intro j hj
    obtain ⟨_, _, _, _, heq, hself, hother, -⟩ := hcases j hj
    rw [hnode j hj, heq]
    refine ⟨rfl, rfl, fun hs => ?_⟩
    by_cases hji : j = i
    · exact (hself hji).2.1
    · exact (hother hji).2.trans hs
  have hobeys : ∀ j ∈ g.members, g.Obeys j → G.Obeys j := by
    rintro j hj ⟨p, hp, hjp, hps, hpp⟩
    obtain ⟨hpr, -, hsy⟩ := hprim p hp
    exact ⟨p, hp, (hprim j hj).1.trans hjp, hsy hps, hpr.trans hpp⟩
  refine ⟨fun j hj => ?_, fun j hj hs => ?_, fun j hj hs => ?_⟩ <;>
    obtain ⟨fsm, sync, ns, bs, heq, hself, hother, hsub⟩ := hcases j hj
  · have hc := h.counts j hj
    rw [hnode j hj, heq]
    exact ⟨hc.id, hc.lt, hc.exited, hc.nrNodes, hc.dc, hc.room⟩
  · rw [hnode j hj, heq] at hs ⊢
    by_cases hold : (g.node j).synchronized = true
    · obtain ⟨hset, hob⟩ := h.synced j hj hold
      refine ⟨⟨?_, hsub hset.sync, hset.node⟩, hobeys j hj hob⟩
      by_cases hji : j = i
      · exact (hself hji).1
      · exact (hother hji).1.trans hset.fsm
    · -- the one that is synchronized now has been told
      have hji : j = i := by_contra fun hne => hold ((hother hne).2.symm.trans hs)
      obtain ⟨hbit, hob⟩ := (h.waits j hj (by simpa using hold)).told (by simp [hji, hf])
      exact ⟨⟨(hself hji).1, (hself hji).2.2, hbit⟩, hobeys j hj hob⟩
  · rw [hnode j hj, heq] at hs
    have hji : j ≠ i := fun hji => absurd ((hself hji).2.1.symm.trans hs) (by decide)
    have hw := h.waits j hj ((hother hji).2.symm.trans hs)
    have hflj := hfl j hj
    rw [if_neg hji] at hflj
    refine ⟨fun k hk hkj => (hprim k hk).2.2 (hw.others k hk hkj), fun k hk n s bn bs hmsg => ?_,
      fun hmsg => ?_, ?_⟩
    · rw [hfl k hk] at hmsg
      obtain ⟨hn, hjb, hks, hkp⟩ := hw.status k hk n s bn bs (mem_of_mem_popped hf hmsg)
      exact ⟨hn, hjb, (hprim k hk).2.2 hks, (hprim k hk).1.trans hkp⟩
    · rw [hflj] at hmsg
      obtain ⟨hbit, hob⟩ := hw.told hmsg
      exact ⟨(hprim j hj).2.1 ▸ hbit, hobeys j hj hob⟩
    · rw [hflj, hnode j hj, heq]
      refine hw.hears.imp_right ?_
      rintro ⟨hfsm, k, hk, n, s, bn, bs, hmsg⟩
      refine ⟨(hother hji).1.trans hfsm, k, hk, n, s, bn, bs, ?_⟩
      rw [hfl k hk]
      split_ifs with hki
      · rw [hki, hf] at hmsg
        exact (List.mem_cons.1 hmsg).resolve_left (by simp)
      · exact hmsg

end Messages

/-! ### Every run -/

/-- `sp_join` leaves the counts as the join has them, so that the test is that of the last join. -/
structure Usable (g : Net) : Prop where
  accepted : ∀ i ∈ g.members, (g.node i).JoinAccepted
  alive : ∀ i ∈ g.members, (g.node i).exited = false
  primary : g.members.Nonempty → (∀ i ∈ g.members, g.mflight i = []) →
    ∃ i, g.Synced i ∧ (g.node i).IsPrimary

theorem Recovers.usable (h : Recovers dcNrNodes g) (hno : NoDevice g) : Usable g where
  accepted i hi := by
    have hc := h.counts i hi
    have := hc.room
    rw [Member.JoinAccepted, hc.nrNodes, hc.dc]
    omega
  alive i hi := (h.counts i hi).exited
  primary := by
    rintro ⟨q, hq⟩ hquiet
    have hfl := fun i hi => hno.flight_eq_nil hi (hquiet i hi)
    have hs : (g.node q).synchronized = true := by
      by_contra hs
      rcases (h.waits q hq (by simpa using hs)).hears with hmsg | ⟨-, i, hi, n, s, bn, bs, hmsg⟩
      · simp [hfl q hq] at hmsg
      · simp [hfl i hi] at hmsg
    obtain ⟨-, p, hp, -, hps, hpp⟩ := h.synced q hq hs
    have hc := h.counts p hp
    exact ⟨p, ⟨⟨hp, hc.exited⟩, hps⟩, hpp.trans (congrArg some hc.id.symm)⟩

theorem RecoverOk.isMembership {a : Label} (h : g.RecoverOk dcNrNodes a) :
    a.isMembership = true := by
  cases a <;> first | rfl | exact h.elim

theorem Recovers.step (h : Recovers dcNrNodes g) (hno : NoDevice g) {a : Label}
    (hok : g.RecoverOk dcNrNodes a) (hst : Net.step env dcNrNodes g a = some g') :
    Recovers dcNrNodes g' := by
  rcases step_cases hst with ⟨i, dev, errno, rfl, hi, hlt, rfl⟩ | ⟨k, rfl, hk, rfl⟩ |
    ⟨members, node, rfl, -, rfl⟩ | ⟨i, stale, msg, rest, rfl, hi, hf, rfl⟩ | ⟨i, r, ha, -⟩
  · exact h.join hno hok hi hlt
  · exact h.leave hk hok
  · exact hok.elim
  · have hmsg := hno i hi msg (by simp [hf])
    cases msg with
    | statusInfo n s bn bs => exact h.deliver_status hi hf
    | synchronized => exact h.deliver_synchronized hf
    | devWrite w => cases hmsg
    | devOpen d => cases hmsg
    | taskReply => cases hmsg
  · cases a <;> first | exact hok.elim | cases ha

/-- **The group stays usable** in every run in which a node joins a settled group that stays smaller
than `dc_nr_nodes`, and a member leaves when all are synchronized. -/
theorem group_usable (env : Env) (dcNrNodes : ℤ) (dev : Fin nrDevs → Dev)
    (h : Reach.Reachable (step env dcNrNodes) (RecoverOk dcNrNodes) (start dcNrNodes dev) g) :
    Usable g := by
  have hinv : Recovers dcNrNodes g ∧ NoDevice g :=
    h.invariant (I := fun g => Recovers dcNrNodes g ∧ NoDevice g)
      ⟨⟨fun _ hi => absurd hi (Finset.notMem_empty _), fun _ hi => absurd hi (Finset.notMem_empty _),
        fun _ hi => absurd hi (Finset.notMem_empty _)⟩, fun _ hi => by cases hi⟩
      fun s a t ⟨hs, hno⟩ hok hst =>
        ⟨hs.step hno hok hst, hno.step (fun i hi => (hs.counts i hi).id) hok.isMembership hst⟩
  exact hinv.1.usable hinv.2

/-- Two nodes join and are synchronized, and the primary leaves. -/
theorem group_usable_two : ∃ g : Net,
    Reach.Reachable (step .sample 4) (RecoverOk 4) (start 4 fun _ => .sample) g ∧
      g.members = {1} ∧ Usable g := by
  obtain ⟨g, hr, hg⟩ := Reach.exists_reachable_of_exec (step .sample 4) (RecoverOk 4)
    (start 4 fun _ => .sample) (fun g => decide (g.members = {1})) (twoJoins ++ [.leave 0])
    (by decide +kernel)
  exact ⟨g, hr, of_decide_eq_true hg, group_usable .sample 4 _ hr⟩

/-- Node 0 is the primary and node 1 joins. -/
def oneJoins : List Label :=
  [.join 0 (fun _ => .sample) 0, .deliver 0 fun _ => [], .join 1 (fun _ => .sample) 0]

/-- In a DC of two nodes the join of node 1 is refused; when node 0 leaves, nobody is the primary.
In a DC of four nodes node 2 joins before the status for node 1 has come, and node 1 exits. -/
theorem group_not_usable :
    (∃ g : Net, Reach.Reachable (step .sample 2) (fun _ a => a.isMembership = true)
      (start 2 fun _ => .sample) g ∧ 1 ∈ g.members ∧ ¬(g.node 1).JoinAccepted) ∧
    (∃ g : Net, Reach.Reachable (step .sample 2) (fun _ a => a.isMembership = true)
      (start 2 fun _ => .sample) g ∧ ¬Usable g) ∧
    ∃ g : Net, Reach.Reachable (step .sample 4) (fun _ a => a.isMembership = true)
      (start 4 fun _ => .sample) g ∧ 1 ∈ g.members ∧ (g.node 1).exited = true := by
  refine ⟨?_, ?_, ?_⟩
  · obtain ⟨g, hr, hg⟩ := Reach.exists_reachable_of_exec (step .sample 2)
      (fun _ a => a.isMembership = true) (start 2 fun _ => .sample)
      (fun g => decide (1 ∈ g.members ∧ ¬(g.node 1).JoinAccepted)) oneJoins (by decide +kernel)
    exact ⟨g, hr, of_decide_eq_true hg⟩
  · obtain ⟨g, hr, hg⟩ := Reach.exists_reachable_of_exec (step .sample 2)
      (fun _ a => a.isMembership = true) (start 2 fun _ => .sample)
      (fun g => decide (g.members = {1} ∧ g.mflight 1 = [] ∧ (g.node 1).synchronized = false))
      (oneJoins ++ [.leave 0]) (by decide +kernel)
    obtain ⟨hmem, hquiet, hs⟩ := of_decide_eq_true hg
    refine ⟨g, hr, fun hu => ?_⟩
    obtain ⟨i, hi, -⟩ := hu.primary (by simp [hmem]) (by simpa [hmem] using hquiet)
    have h1 : i = 1 := by simpa [hmem] using hi.1.1
    exact absurd (hi.2.symm.trans (h1 ▸ hs)) (by decide)
  · obtain ⟨g, hr, hg⟩ := Reach.exists_reachable_of_exec (step .sample 4)
      (fun _ a => a.isMembership = true) (start 4 fun _ => .sample)
      (fun g => decide (1 ∈ g.members ∧ (g.node 1).exited = true))
      (oneJoins ++ [.join 2 (fun _ => .sample) 0, .deliver 0 fun _ => []]) (by decide +kernel)
    exact ⟨g, hr, of_decide_eq_true hg⟩

end Net

end Rdisk

end MolIpc
