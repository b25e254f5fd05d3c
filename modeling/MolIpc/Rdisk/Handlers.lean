import MolIpc.Rdisk.Net

/-!
What the handlers of `replicate.c` do, one lemma for each: the membership handlers by their cases,
the handlers of device messages and the driver thread by what they leave alone (`SameGroup`).
-/

namespace MolIpc

namespace Rdisk

open Disk

def Msg.isMembership : Msg → Bool
  | .statusInfo .. | .synchronized => true
  | _ => false

/-- The requests of a primary: `DEV_WRITE` and `DEV_OPEN`. -/
def Msg.isRequest : Msg → Bool
  | .devWrite _ | .devOpen _ => true
  | _ => false

def Event.isMembership : Event → Bool
  | .message _ msg _ => msg.isMembership
  | _ => true

namespace Member

variable {env : Env} {m m' m'' : Member} {mbr : ℕ}

/-! ### Joins -/

theorem spJoin_other (h : mbr ≠ m.localNodeid) : ∃ bn,
    m.spJoin mbr = ({ m with bmNodes := bn }, []) ∨
    m.IsPrimary ∧ m.spJoin mbr =
      ({ m with bmNodes := bn }, [.statusInfo m.nrNodes m.nrSync bn m.bmSync]) := by
  unfold spJoin
  by_cases hr : m.nrNodes < 0 ∨ m.dcNrNodes ≤ m.nrNodes
  · exact ⟨m.bmNodes, .inl (if_pos hr)⟩
  · refine ⟨insert mbr m.bmNodes, ?_⟩
    by_cases hp : m.IsPrimary
    · exact .inr ⟨hp, by simp_all [sendStatusInfo, IsPrimary]⟩
    · exact .inl (by simp_all [IsPrimary])

theorem spJoin_self (m : Member) :
    m.spJoin m.localNodeid = (m, []) ∨
    (m.nrNodes = 1 ∧ ∃ bn, m.spJoin m.localNodeid =
      ({ m with
          bmNodes := bn, fsm := .synchronized, synchronized := true,
          bmSync := insert m.localNodeid m.bmSync, nrSync := 1,
          primaryMbr := some m.localNodeid },
        [.statusInfo m.nrNodes 1 bn (insert m.localNodeid m.bmSync)])) ∨
    m.nrNodes ≠ 1 ∧ ∃ bn, m.spJoin m.localNodeid =
      ({ m with bmNodes := bn, fsm := .wait4primary }, []) := by
  unfold spJoin
  by_cases hr : m.nrNodes < 0 ∨ m.dcNrNodes ≤ m.nrNodes
  · exact .inl (if_pos hr)
  · right
    simp only [if_neg hr]
    by_cases h1 : m.nrNodes = 1
    · refine .inl ⟨h1, insert m.localNodeid m.bmNodes, ?_⟩
      simp [h1, sendStatusInfo, IsPrimary]
    · refine .inr ⟨h1, insert m.localNodeid m.bmNodes, ?_⟩
      simp [h1]

/-! ### Leaves -/

theorem elect_eq (m : Member) :
    m.elect =
      if m.localNodeid ∈ m.bmNodes ∧ m.localNodeid < nrNodesMax then
        ({ m with primaryMbr := some m.localNodeid },
          [.statusInfo m.nrNodes m.nrSync m.bmNodes m.bmSync])
      else (m, []) := by
  unfold elect
  generalize nrNodesMax = n
  induction n with
  | zero => simp
  | succ n ih =>
    rw [List.range_succ, List.foldl_append, ih]
    by_cases hb : m.localNodeid ∈ m.bmNodes
    · rcases Nat.lt_trichotomy m.localNodeid n with hlt | heq | hgt
      · have hne : ¬ n = m.localNodeid := by omega
        simp [electAt, hb, hlt, hne, Nat.lt_succ_of_lt hlt]
      · subst heq
        simp [electAt, hb, sendStatusInfo, IsPrimary]
      · have hne : ¬ n = m.localNodeid := by omega
        simp [electAt, Nat.not_lt.2 hgt.le, hne, Nat.not_lt.2 (Nat.succ_le_of_lt hgt)]
    · have hne : ¬ (n ∈ m.bmNodes ∧ n = m.localNodeid) := by
        rintro ⟨h, rfl⟩
        exact hb h
      simp [electAt, hb, hne]

theorem spDisconnect_unsync (hne : m.localNodeid ≠ mbr) (hs : m.synchronized = false) :
    ∃ fsm bn, m.spDisconnect mbr =
      ({ m with fsm := fsm, bmNodes := bn, bmSync := ∅, nrNodes := 0, nrSync := 0 }, []) := by
  have h : m.spDisconnect mbr = m.restart.spJoin m.restart.localNodeid := by
    simp [spDisconnect, hne, hs, restart]
  rcases spJoin_self m.restart with h' | ⟨h', -⟩ | ⟨-, bn, h'⟩
  · exact ⟨_, _, h.trans h'⟩
  · exact absurd h' (by simp [restart])
  · exact ⟨_, bn, h.trans h'⟩

theorem replacePrimary_cases (mbr : ℕ) (hne : m.bmSync ≠ ∅) :
    ∃ pr sent, m.replacePrimary mbr =
        ({ m with bmAcks := m.bmAcks.erase mbr, primaryMbr := pr }, sent) ∧
      (pr = m.primaryMbr ∧ sent = [] ∨
        m.primaryMbr = some mbr ∧ pr = some m.localNodeid ∧
          sent = [.statusInfo m.nrNodes m.nrSync m.bmNodes m.bmSync]) := by
  unfold replacePrimary
  rw [if_neg (fun hc => hne hc.2)]
  by_cases hp : m.primaryMbr = some mbr
  · rw [if_pos hp, elect_eq]
    split
    · exact ⟨_, _, rfl, .inr ⟨hp, rfl, rfl⟩⟩
    · exact ⟨_, _, rfl, .inl ⟨rfl, rfl⟩⟩
  · rw [if_neg hp]
    exact ⟨_, _, rfl, .inl ⟨rfl, rfl⟩⟩

/-! ### Status and synchronization -/

theorem mcStatusInfo_cases (env : Env) (m : Member) (source : ℕ) (n s : ℤ) (bn bs : Finset ℕ) :
    m.fsm ≠ .wait4primary ∧ m.mcStatusInfo env source n s bn bs = (m, []) ∨
    m.fsm = .wait4primary ∧ m.nrNodes ≠ n ∧ m.mcStatusInfo env source n s bn bs =
      ({ m with primaryMbr := some source, exited := true }, []) ∨
    m.fsm = .wait4primary ∧ m.nrNodes = n ∧ ∃ fsm, m.mcStatusInfo env source n s bn bs =
      ({ m with
          primaryMbr := some source, nrSync := s, bmNodes := bn, bmSync := bs, fsm := fsm },
        [.synchronized]) := by
  unfold mcStatusInfo
  by_cases hf : m.fsm = .wait4primary
  · right
    by_cases hn : m.nrNodes = n
    · right
      simp only [hf, hn, ne_eq, not_true_eq_false, if_false]
      by_cases hz : env.sent = 0
      · exact ⟨trivial, trivial, .wait4sync, by simp only [hz, not_true, if_false]⟩
      · exact ⟨trivial, trivial, .wait4primary, by simp only [hz, not_false_eq_true, if_true]⟩
    · left
      simp only [hf, hn, ne_eq, not_true_eq_false, not_false_eq_true, if_false, if_true]
      exact ⟨trivial, trivial, trivial⟩
  · exact .inl ⟨hf, if_pos hf⟩

theorem mcSynchronized_self (m : Member) :
    m.mcSynchronized m.localNodeid =
      { m with
        fsm := .synchronized, synchronized := true, nrSync := m.nrSync + 1,
        bmSync := insert m.localNodeid m.bmSync } := by
  simp [mcSynchronized]

theorem mcSynchronized_other {source : ℕ} (h : source ≠ m.localNodeid) :
    m.mcSynchronized source =
      if m.synchronized then
        { m with nrSync := m.nrSync + 1, bmSync := insert source m.bmSync }
      else m := by
  unfold mcSynchronized
  cases hs : m.synchronized <;> simp [h, hs]

theorem mcSynchronized_frame (m : Member) (source : ℕ) :
    (m.mcSynchronized source).exited = m.exited ∧
      (m.mcSynchronized source).nrNodes = m.nrNodes ∧
      (m.synchronized = true → (m.mcSynchronized source).synchronized = true) ∧
      (source ≠ m.localNodeid → (m.mcSynchronized source).synchronized = m.synchronized) := by
  unfold mcSynchronized
  simp only
  split <;> split <;> simp_all

/-! ### Membership events -/

variable (env)

theorem handle_exited (hx : m.exited = true) (e : Event) : m.handle env e = (m, []) := if_pos hx

theorem handle_join_other (hx : m.exited = false) (hne : mbr ≠ m.localNodeid) (num : ℤ) :
    ∃ bn, m.handle env (.join mbr num) = ({ m with nrNodes := num, bmNodes := bn }, []) ∨
      m.IsPrimary ∧ m.handle env (.join mbr num) =
        ({ m with nrNodes := num, bmNodes := bn }, [.statusInfo num m.nrSync bn m.bmSync]) := by
  have h : m.handle env (.join mbr num) = { m with nrNodes := num }.spJoin mbr := by
    simp [handle, hx]
  rw [h]
  exact spJoin_other (m := { m with nrNodes := num }) hne

theorem handle_join_self (i : ℕ) (dcNrNodes : ℤ) (dev : Fin nrDevs → Dev) (errno num : ℤ) :
    let m := Member.init i dcNrNodes dev errno
    (∃ fsm bn, m.handle env (.join i num) =
      ({ m with nrNodes := num, fsm := fsm, bmNodes := bn }, [])) ∨
    num = 1 ∧ ∃ bn, m.handle env (.join i num) =
      ({ m with
          nrNodes := num, bmNodes := bn, fsm := .synchronized, synchronized := true, bmSync := {i},
          nrSync := 1, primaryMbr := some i },
        [.statusInfo num 1 bn {i}]) := by
  intro m
  have h : m.handle env (.join i num) =
      { m with nrNodes := num }.spJoin { m with nrNodes := num }.localNodeid := rfl
  rw [h]
  rcases spJoin_self { m with nrNodes := num } with h' | ⟨h1, bn, h'⟩ | ⟨h1, bn, h'⟩
  · exact .inl ⟨.new, ∅, h'⟩
  · exact .inr ⟨h1, bn, h'⟩
  · exact .inl ⟨.wait4primary, bn, h'⟩

section

variable (hx : m.exited = false)

include hx

theorem handle_disconnect_unsync (hne : m.localNodeid ≠ mbr) (hs : m.synchronized = false)
    (num : ℤ) :
    ∃ fsm bn, m.handle env (.disconnect mbr num) =
      ({ m with fsm := fsm, bmNodes := bn, bmSync := ∅, nrNodes := 0, nrSync := 0 }, []) := by
  have h : m.handle env (.disconnect mbr num) = { m with nrNodes := num }.spDisconnect mbr := by
    simp [handle, hx]
  rw [h]
  exact spDisconnect_unsync (m := { m with nrNodes := num }) hne hs

theorem handle_disconnect_sync (hne : m.localNodeid ≠ mbr) (hs : m.synchronized = true)
    (hmem : m.localNodeid ∈ m.bmSync) (num : ℤ) :
    ∃ pr sent, m.handle env (.disconnect mbr num) =
      ({ m with
          nrNodes := num, bmNodes := m.bmNodes.erase mbr, bmSync := m.bmSync.erase mbr,
          nrSync := if mbr ∈ m.bmSync then m.nrSync - 1 else m.nrSync,
          bmAcks := m.bmAcks.erase mbr, primaryMbr := pr }, sent) ∧
      (pr = m.primaryMbr ∧ sent = [] ∨
        m.primaryMbr = some mbr ∧ pr = some m.localNodeid ∧
          sent = [.statusInfo num (if mbr ∈ m.bmSync then m.nrSync - 1 else m.nrSync)
            (m.bmNodes.erase mbr) (m.bmSync.erase mbr)]) := by
  let u := dropSync { m with nrNodes := num, bmNodes := m.bmNodes.erase mbr } mbr
  have h : m.handle env (.disconnect mbr num) = u.replacePrimary mbr := by
    simp [u, handle, hx, spDisconnect, hne, hs]
  have hsome : u.bmSync ≠ ∅ := Finset.ne_empty_of_mem (Finset.mem_erase.2 ⟨hne, hmem⟩)
  obtain ⟨pr, sent, hr, hcases⟩ := replacePrimary_cases mbr hsome
  exact ⟨pr, sent, h.trans hr, hcases⟩

theorem handle_network (members : Finset ℕ) :
    m.handle env (.network members) =
      ({ m with bmNodes := members, nrNodes := members.card }, []) := by
  simp [handle, hx]

theorem handle_statusInfo (source : ℕ) (n s : ℤ) (bn bs : Finset ℕ) (stale : List UInt8) :
    m.handle env (.message source (.statusInfo n s bn bs) stale) =
      m.mcStatusInfo env source n s bn bs := by
  simp [handle, hx]

theorem handle_synchronized (source : ℕ) (stale : List UInt8) :
    m.handle env (.message source .synchronized stale) = (m.mcSynchronized source, []) := by
  simp [handle, hx]

end

variable {env}

/-! ### What the membership protocol sends -/

theorem isMembership_sendStatusInfo (m : Member) :
    ∀ x ∈ m.sendStatusInfo, x.isMembership = true := by
  unfold sendStatusInfo
  split
  · simp [Msg.isMembership]
  · simp

theorem isMembership_spJoin (m : Member) (mbr : ℕ) :
    ∀ x ∈ (m.spJoin mbr).2, x.isMembership = true := by
  unfold spJoin
  split
  · simp
  · simp only
    split
    · split
      · exact isMembership_sendStatusInfo _
      · simp
    · split
      · exact isMembership_sendStatusInfo _
      · simp

theorem isMembership_spDisconnect (m : Member) (mbr : ℕ) :
    ∀ x ∈ (m.spDisconnect mbr).2, x.isMembership = true := by
  unfold spDisconnect
  simp only
  split
  · simp
  · split
    · exact isMembership_spJoin _ _
    · unfold replacePrimary
      split
      · exact isMembership_spJoin _ _
      · simp only
        split
        · rw [elect_eq]
          split <;> simp [Msg.isMembership]
        · simp

theorem isMembership_handle (env : Env) (m : Member) {e : Event} (he : e.isMembership = true) :
    ∀ x ∈ (m.handle env e).2, x.isMembership = true := by
  unfold handle
  split
  · simp
  · cases e with
    | join mbr num => exact isMembership_spJoin _ _
    | disconnect mbr num => exact isMembership_spDisconnect _ _
    | network members => simp
    | message source msg stale =>
      cases msg with
      | statusInfo n s bn bs =>
        rcases mcStatusInfo_cases env m source n s bn bs with
          ⟨-, h⟩ | ⟨-, -, h⟩ | ⟨-, -, _, h⟩ <;> simp [h, Msg.isMembership]
      | synchronized => simp
      | devWrite | devOpen | taskReply => cases he

/-! ### What device operations leave alone -/

structure SameGroup (m m' : Member) : Prop where
  localNodeid : m'.localNodeid = m.localNodeid
  dcNrNodes : m'.dcNrNodes = m.dcNrNodes
  synchronized : m'.synchronized = m.synchronized
  fsm : m'.fsm = m.fsm
  primaryMbr : m'.primaryMbr = m.primaryMbr
  nrNodes : m'.nrNodes = m.nrNodes
  nrSync : m'.nrSync = m.nrSync
  bmNodes : m'.bmNodes = m.bmNodes
  bmSync : m'.bmSync = m.bmSync

theorem SameGroup.refl (m : Member) : SameGroup m m := ⟨rfl, rfl, rfl, rfl, rfl, rfl, rfl, rfl, rfl⟩

theorem SameGroup.isPrimary (h : SameGroup m m') : m'.IsPrimary ↔ m.IsPrimary := by
  unfold IsPrimary
  rw [h.primaryMbr, h.localNodeid]

structure DevGrows (m m' : Member) : Prop where
  active : ∀ d, (m.dev d).active = true → (m'.dev d).active = true
  size : ∀ d, (m'.dev d).dvSize = (m.dev d).dvSize
  nodes : m'.dcNrNodes = m.dcNrNodes

theorem DevGrows.refl (m : Member) : DevGrows m m := ⟨fun _ h => h, fun _ => rfl, rfl⟩

theorem openDevice_eq (m : Member) (d : Fin nrDevs) :
    ∃ dev, (m.openDevice d).1 = { m with dev := dev } ∧ DevGrows m { m with dev := dev } := by
  unfold openDevice
  split
  · exact ⟨_, rfl, .refl m⟩
  split
  · exact ⟨_, rfl, .refl m⟩
  · refine ⟨_, rfl, fun d' hd' => ?_, fun d' => ?_, rfl⟩ <;> simp only [Function.update_apply]
    · split
      · rfl
      · exact hd'
    · split
      · rename_i he
        rw [he]
      · rfl

theorem devGrows_setImg (m : Member) (d : Fin nrDevs) (img : File UInt8) :
    DevGrows m (m.setImg d img) := by
  refine ⟨fun d' hd' => ?_, fun d' => ?_, rfl⟩ <;> simp only [setImg, Function.update_apply]
  · split
    · rename_i he
      rw [he] at hd'
      exact hd'
    · exact hd'
  · split
    · rename_i he
      rw [he]
    · rfl

theorem handle_device_eq (env : Env) (m : Member) (source : ℕ) {msg : Msg}
    (hmsg : msg.isMembership = false) (stale : List UInt8) : ∃ acks dev x th k,
      m.handle env (.message source msg stale) =
        ({ m with bmAcks := acks, dev := dev, exited := x, thread := th },
          List.replicate k .taskReply) ∧
      (m.IsPrimary → x = m.exited) ∧ (msg.isRequest = true → th = m.thread) ∧
      DevGrows m { m with dev := dev } := by
  have hsame : ∀ acks, DevGrows m { m with bmAcks := acks } := fun _ => ⟨fun _ h => h, fun _ => rfl, rfl⟩
  unfold handle
  split
  · exact ⟨_, _, _, _, 0, rfl, fun _ => rfl, fun _ => rfl, hsame _⟩
  · cases msg with
    | devWrite w =>
      simp only [repDevWrite]
      split
      · exact ⟨_, _, _, _, 0, rfl, fun _ => rfl, fun _ => rfl, hsame _⟩
      split
      · exact ⟨_, _, _, _, 0, rfl, fun _ => rfl, fun _ => rfl, hsame _⟩
      rename_i hp
      split
      · exact ⟨_, _, _, _, 0, rfl, fun _ => rfl, fun _ => rfl, hsame _⟩
      split
      · exact ⟨_, _, _, _, 0, rfl, fun h => absurd h hp, fun _ => rfl, hsame _⟩
      · exact ⟨_, _, _, _, _, rfl, fun _ => rfl, fun _ => rfl, devGrows_setImg m _ _⟩
    | devOpen d =>
      simp only [repDevOpen]
      split
      · exact ⟨_, _, _, _, 0, rfl, fun _ => rfl, fun _ => rfl, hsame _⟩
      split
      · exact ⟨_, _, _, _, 0, rfl, fun _ => rfl, fun _ => rfl, hsame _⟩
      · obtain ⟨dev, heq, hgrows⟩ := openDevice_eq (m.startAcks source) d
        rw [heq]
        exact ⟨_, dev, _, _, _, rfl, fun _ => rfl, fun _ => rfl, hgrows.active, hgrows.size, rfl⟩
    | taskReply =>
      simp only [repTaskReply, signalUpdate]
      split
      · exact ⟨_, _, _, _, 0, rfl, fun _ => rfl, nofun, hsame _⟩
      split
      · split <;> exact ⟨_, _, _, _, 0, rfl, fun _ => rfl, nofun, hsame _⟩
      · exact ⟨_, _, _, _, 0, rfl, fun _ => rfl, nofun, hsame _⟩
    | statusInfo | synchronized => cases hmsg

theorem handle_device (env : Env) (m : Member) (source : ℕ) {msg : Msg}
    (hmsg : msg.isMembership = false) (stale : List UInt8) :
    SameGroup m (m.handle env (.message source msg stale)).1 ∧
      ∀ x ∈ (m.handle env (.message source msg stale)).2, x = .taskReply := by
  obtain ⟨_, _, _, _, _, heq, -⟩ := handle_device_eq env m source hmsg stale
  rw [heq]
  exact ⟨⟨rfl, rfl, rfl, rfl, rfl, rfl, rfl, rfl, rfl⟩, fun _ hx => List.eq_of_mem_replicate hx⟩

theorem sameGroup_setThread (m : Member) (th : Thread) : SameGroup m (m.setThread th) :=
  ⟨rfl, rfl, rfl, rfl, rfl, rfl, rfl, rfl, rfl⟩

theorem turn_frame (env : Env) (m : Member) (c : Call) :
    (∃ img th, (m.turn env c).1 = (m.setImg c.device img).setThread th) ∧
      ∃ ws : List DevWrite, (m.turn env c).2 = ws.map .devWrite := by
  unfold turn
  split
  · exact ⟨⟨_, _, rfl⟩, _, rfl⟩
  · exact ⟨⟨_, _, rfl⟩, _, rfl⟩

theorem driverStep_frame {a : Label} {r : Member × List Msg}
    (h : Net.driverStep env m a = some r) :
    SameGroup m r.1 ∧ r.1.exited = m.exited ∧ r.1.bmAcks = m.bmAcks ∧
      ∀ x ∈ r.2, x.isMembership = false ∧ x ≠ .taskReply := by
  unfold Net.driverStep at h
  split at h <;> try split at h
  all_goals cases h
  · unfold startWrite
    split <;> exact ⟨⟨rfl, rfl, rfl, rfl, rfl, rfl, rfl, rfl, rfl⟩, rfl, rfl, by simp⟩
  · rename_i c _
    obtain ⟨⟨img, th, h1⟩, ws, h2⟩ := turn_frame env m c
    rw [h1, h2]
    refine ⟨⟨rfl, rfl, rfl, rfl, rfl, rfl, rfl, rfl, rfl⟩, rfl, rfl, ?_⟩
    intro x hx
    obtain ⟨w, -, rfl⟩ := List.mem_map.1 hx
    exact ⟨rfl, by simp⟩
  · rename_i d _ _
    obtain ⟨dev, heq, -⟩ := openDevice_eq m d
    unfold startOpen
    simp only [heq]
    split <;> exact ⟨⟨rfl, rfl, rfl, rfl, rfl, rfl, rfl, rfl, rfl⟩, rfl, rfl, by simp⟩
  · exact ⟨sameGroup_setThread _ _, rfl, rfl, by simp [sendOpen, Msg.isMembership]⟩
  all_goals
    unfold wakeUp
    split <;> exact ⟨sameGroup_setThread _ _, rfl, rfl, by simp⟩

end Member

end Rdisk

end MolIpc
