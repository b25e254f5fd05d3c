import MolIpc.Rdisk.Handlers
import MolIpc.Rdisk.Images

/-!
The requests of a primary and their replies, one member at a time: what a backup and the primary do
with a `DEV_WRITE`, a `DEV_OPEN` and a `MOLTASK_REPLY`, and what a turn of `m_transfer` multicasts.
-/

namespace MolIpc

namespace Rdisk

open Disk

variable {x : Msg} {l : List Msg}

def Msg.isDevWrite : Msg → Bool
  | .devWrite _ => true
  | _ => false

/-- The requests that a backup replies to: the last chunk of an entry and `DEV_OPEN`. -/
def Msg.isClosing : Msg → Bool
  | .devWrite w => w.nrOptrans == 0
  | .devOpen _ => true
  | _ => false

/-- The driver thread is blocked on `update_barrier` and has not been signalled. -/
def Thread.waiting : Thread → Bool
  | .blocked _ signalled => !signalled
  | _ => false

def Thread.isIdle : Thread → Bool
  | .idle => true
  | _ => false

/-- The request of a driver thread that is in `m_transfer`. -/
def Thread.call? : Thread → Option Call
  | .transfer c => some c
  | _ => none

theorem Msg.isMembership_of_isRequest (h : x.isRequest = true) : x.isMembership = false := by
  cases x <;> first | rfl | cases h

def Closed (reqs : List Msg) : Prop := ∀ x ∈ reqs.getLast?, x.isClosing = true

theorem Closed.nil : Closed [] := by simp [Closed]

theorem Closed.tail {reqs : List Msg} (h : Closed (x :: reqs)) : Closed reqs := by
  cases reqs with
  | nil => exact .nil
  | cons y reqs => simpa [Closed, List.getLast?_cons_cons] using h

theorem Closed.head (h : Closed [x]) : x.isClosing = true := h x (by simp)

theorem Closed.append {l' : List Msg} (h : Closed l) (h' : Closed l') : Closed (l ++ l') := by
  unfold Closed
  rw [List.getLast?_append]
  cases hl : l'.getLast? with
  | none => simpa [hl, Closed] using h
  | some x => simpa [hl] using h' x hl

theorem Closed.exists_mem (h : Closed l) (hne : l ≠ []) : ∃ x ∈ l, x.isClosing = true :=
  ⟨l.getLast hne, List.getLast_mem hne, h _ (List.getLast?_eq_some_getLast hne)⟩

/-! ### The membership protocol and requests -/

namespace Member

variable {env : Env} {m m' : Member} {source : ℕ} {msg : Msg} {e : Event} {w : DevWrite}

structure SameIo (m m' : Member) : Prop where
  thread : m'.thread = m.thread
  dev : m'.dev = m.dev
  dcNrNodes : m'.dcNrNodes = m.dcNrNodes

theorem SameIo.refl (m : Member) : SameIo m m := ⟨rfl, rfl, rfl⟩

theorem sameIo_spJoin (m : Member) (mbr : ℕ) : SameIo m (m.spJoin mbr).1 := by
  unfold spJoin
  split
  · exact .refl m
  · simp only
    split
    · split <;> exact ⟨rfl, rfl, rfl⟩
    · exact ⟨rfl, rfl, rfl⟩

theorem sameIo_spDisconnect (m : Member) (mbr : ℕ) : SameIo m (m.spDisconnect mbr).1 := by
  unfold spDisconnect
  simp only
  split
  · exact ⟨rfl, rfl, rfl⟩
  · split
    · have h := sameIo_spJoin (restart { m with bmNodes := m.bmNodes.erase mbr }) m.localNodeid
      exact ⟨h.thread, h.dev, h.dcNrNodes⟩
    · unfold replacePrimary
      split
      · have h := sameIo_spJoin { (dropSync { m with bmNodes := m.bmNodes.erase mbr } mbr) with
          fsm := .new, bmAcks := ∅ } m.localNodeid
        exact ⟨h.thread, h.dev, h.dcNrNodes⟩
      · simp only
        split
        · rw [elect_eq]
          split <;> exact ⟨rfl, rfl, rfl⟩
        · exact ⟨rfl, rfl, rfl⟩

theorem sameIo_handle (env : Env) (m : Member) (he : e.isMembership = true) :
    SameIo m (m.handle env e).1 := by
  unfold handle
  split
  · exact .refl m
  · cases e with
    | join mbr num =>
      have h := sameIo_spJoin { m with nrNodes := num } mbr
      exact ⟨h.thread, h.dev, h.dcNrNodes⟩
    | disconnect mbr num =>
      have h := sameIo_spDisconnect { m with nrNodes := num } mbr
      exact ⟨h.thread, h.dev, h.dcNrNodes⟩
    | network members => exact ⟨rfl, rfl, rfl⟩
    | message source msg stale =>
      cases msg with
      | statusInfo n s bn bs =>
        rcases mcStatusInfo_cases env m source n s bn bs with
          ⟨-, h⟩ | ⟨-, -, h⟩ | ⟨-, -, _, h⟩ <;> simp only [h] <;> exact ⟨rfl, rfl, rfl⟩
      | synchronized =>
        simp only [mcSynchronized]
        split <;> split <;> exact ⟨rfl, rfl, rfl⟩
      | devWrite | devOpen | taskReply => cases he

theorem bmAcks_handle (env : Env) (m : Member) (source : ℕ) (hmsg : msg.isMembership = true)
    (stale : List UInt8) : (m.handle env (.message source msg stale)).1.bmAcks = m.bmAcks := by
  unfold handle
  split
  · rfl
  · cases msg with
    | statusInfo n s bn bs =>
      rcases mcStatusInfo_cases env m source n s bn bs with
        ⟨-, h⟩ | ⟨-, -, h⟩ | ⟨-, -, _, h⟩ <;> simp only [h]
    | synchronized =>
      simp only [mcSynchronized]
      split <;> split <;> rfl
    | devWrite | devOpen | taskReply => cases hmsg

theorem isPrimary_handle (env : Env) (he : e.isMembership = true)
    (hne : ∀ num, e ≠ .disconnect m.localNodeid num) (hx : m.exited = false) (hp : m.IsPrimary)
    (hs : m.synchronized = true) (hf : m.fsm = .synchronized) (hmem : m.localNodeid ∈ m.bmSync) :
    (m.handle env e).1.exited = false ∧ (m.handle env e).1.IsPrimary := by
  cases e with
  | join mbr num =>
    have h : m.handle env (.join mbr num) = { m with nrNodes := num }.spJoin mbr := by
      simp [handle, hx]
    rw [h]
    unfold spJoin
    split
    · exact ⟨hx, hp⟩
    · simp only
      split
      · split
        · exact ⟨hx, rfl⟩
        · exact ⟨hx, hp⟩
      · exact ⟨hx, hp⟩
  | disconnect mbr num =>
    have hmbr : m.localNodeid ≠ mbr := fun h => hne num (by rw [h])
    obtain ⟨pr, sent, h, hc⟩ := handle_disconnect_sync env hx hmbr hs hmem num
    rw [h]
    refine ⟨hx, ?_⟩
    rcases hc with ⟨rfl, -⟩ | ⟨-, rfl, -⟩
    · exact hp
    · rfl
  | network members =>
    rw [handle_network env hx]
    exact ⟨hx, hp⟩
  | message source msg stale =>
    cases msg with
    | statusInfo n s bn bs =>
      have hw : m.fsm ≠ .wait4primary := by rw [hf]; decide
      rw [handle_statusInfo env hx, mcStatusInfo, if_pos hw]
      exact ⟨hx, hp⟩
    | synchronized =>
      rw [handle_synchronized env hx]
      simp only [mcSynchronized]
      split <;> split <;> exact ⟨hx, hp⟩
    | devWrite | devOpen | taskReply => cases he

/-! ### Requests at a backup -/

/-- The data of a chunk fit into the part of the message that a backup decompresses. -/
structure Fits (lz : Lz4) (w : DevWrite) : Prop where
  comp : w.comp = true
  data : ∃ data, w.buffer = lz.compressFrame data ∧ data.length = w.count ∧
    w.buffer.length ≤ w.count

theorem exists_writeChunk (h : Fits env.lz w) (img : File UInt8) (stale : List UInt8) :
    ∃ img', writeChunk env img w stale = some img' := by
  obtain ⟨hcomp, data, hbuf, hlen, hle⟩ := h
  have hd : env.lz.decompress ((w.buffer ++ stale).take w.count) = some data := by
    rw [List.take_append, List.take_of_length_le hle, hbuf, env.lz.decompress_frame]
  refine ⟨img.pwrite ⟨w.position, data⟩, ?_⟩
  simp only [writeChunk, if_pos hcomp, hd, if_pos hlen]

/-- A device that is open and goes on behind a position, in a DC of several nodes. -/
structure Ready (m : Member) (d : Fin nrDevs) (position : ℕ) : Prop where
  active : (m.dev d).active = true
  size : position < (m.dev d).dvSize
  nodes : 1 < m.dcNrNodes

instance (m : Member) (d : Fin nrDevs) (position : ℕ) : Decidable (m.Ready d position) :=
  decidable_of_iff ((m.dev d).active = true ∧ position < (m.dev d).dvSize ∧ 1 < m.dcNrNodes)
    ⟨fun ⟨h1, h2, h3⟩ => ⟨h1, h2, h3⟩, fun ⟨h1, h2, h3⟩ => ⟨h1, h2, h3⟩⟩

/-- A chunk that a backup can handle: its device is open, its data fit, and the last one ends inside
the device. -/
structure Accepts (env : Env) (m : Member) (w : DevWrite) : Prop where
  active : (m.dev w.device).active = true
  fits : Fits env.lz w
  ready : w.nrOptrans = 0 → m.Ready w.device w.position

theorem SameIo.devGrows (h : SameIo m m') : DevGrows m m' :=
  ⟨fun d hd => by rw [h.dev]; exact hd, fun d => by rw [h.dev], h.dcNrNodes⟩

theorem Accepts.mono (h : m.Accepts env w) (hg : DevGrows m m') : m'.Accepts env w := by
  refine ⟨hg.active _ h.active, h.fits, fun h0 => ?_⟩
  obtain ⟨h1, h2, h3⟩ := h.ready h0
  exact ⟨hg.active _ h1, by rw [hg.size]; exact h2, by rw [hg.nodes]; exact h3⟩

theorem devGrows_handle_device (env : Env) (m : Member) (source : ℕ)
    (hmsg : msg.isMembership = false) (stale : List UInt8) :
    DevGrows m (m.handle env (.message source msg stale)).1 := by
  obtain ⟨_, _, _, _, _, heq, -, -, hgrows⟩ := handle_device_eq env m source hmsg stale
  rw [heq]
  exact ⟨hgrows.active, hgrows.size, rfl⟩

theorem thread_handle_request (env : Env) (m : Member) (source : ℕ) (hmsg : msg.isRequest = true)
    (stale : List UInt8) : (m.handle env (.message source msg stale)).1.thread = m.thread := by
  obtain ⟨_, _, _, _, _, heq, -, hth, -⟩ :=
    handle_device_eq env m source (Msg.isMembership_of_isRequest hmsg) stale
  rw [heq]
  exact hth hmsg

theorem one_le_backupReplies {d : Dev} {position : ℕ} (h : position < d.dvSize) (fuel size : ℕ) :
    1 ≤ backupReplies d position 0 (fuel + 1) size := by
  unfold backupReplies
  rw [Dev.clip_of_lt h]
  simp

theorem handle_request_backup (hx : m.exited = false) (hs : m.synchronized = true)
    (hp : m.primaryMbr = some source) (hnp : ¬ m.IsPrimary) (hmsg : msg.isRequest = true)
    (hw : ∀ w, msg = .devWrite w → m.Accepts env w) (hn : 1 < m.nrNodes) (stale : List UInt8) :
    (m.handle env (.message source msg stale)).1.exited = false ∧
      (msg.isClosing = true → .taskReply ∈ (m.handle env (.message source msg stale)).2) := by
  have hgo : ¬ (m.synchronized = false ∨ m.primaryMbr ≠ some source) := by simp [hs, hp]
  have hnp' : ¬ (m.startAcks source).IsPrimary := hnp
  cases msg with
  | devWrite w =>
    obtain ⟨hact, hfits, hready⟩ := hw w rfl
    have hprep : mPrepare (m.startAcks source).dev w.device = some w.device := by
      rw [mPrepare_fin]
      exact if_pos hact
    obtain ⟨img, himg⟩ :=
      exists_writeChunk hfits ((m.startAcks source).dev w.device).img stale
    simp only [handle, hx, repDevWrite, if_neg hgo, if_neg hnp', hprep, himg]
    refine ⟨hx, fun hcl => ?_⟩
    have h0 : w.nrOptrans = 0 := by simpa [Msg.isClosing] using hcl
    obtain ⟨-, hsize, hdc⟩ := hready h0
    have hdc' : 1 < (m.startAcks source).dcNrNodes := hdc
    have hone : 1 ≤ backupReplies ((m.startAcks source).dev w.device) w.position 0 (w.count + 1)
        w.count := one_le_backupReplies hsize _ _
    simp only [Bool.false_eq_true, if_false, if_pos hdc', h0, reply]
    exact List.mem_replicate.2 ⟨by omega, rfl⟩
  | devOpen d =>
    obtain ⟨dev, heq, -⟩ := openDevice_eq (m.startAcks source) d
    have hn' : 1 < (m.startAcks source).nrNodes := hn
    simp only [handle, hx, repDevOpen, if_neg hgo, if_neg hnp', heq, if_pos hn', reply]
    exact ⟨hx, fun _ => by simp⟩
  | taskReply | statusInfo | synchronized => cases hmsg

theorem handle_request_unsync (hs : m.synchronized = false) (hmsg : msg.isRequest = true)
    (stale : List UInt8) : m.handle env (.message source msg stale) = (m, []) := by
  unfold handle
  split
  · rfl
  · cases msg with
    | devWrite w => simp [repDevWrite, hs]
    | devOpen d => simp [repDevOpen, hs]
    | taskReply | statusInfo | synchronized => cases hmsg

theorem handle_request_primary (hx : m.exited = false) (hs : m.synchronized = true)
    (hp : m.IsPrimary) (hmsg : msg.isRequest = true) (stale : List UInt8) :
    m.handle env (.message m.localNodeid msg stale) = (m.startAcks m.localNodeid, []) := by
  have hgo : ¬ (m.synchronized = false ∨ m.primaryMbr ≠ some m.localNodeid) := by
    simp [hs, show m.primaryMbr = some m.localNodeid from hp]
  have hp' : (m.startAcks m.localNodeid).IsPrimary := hp
  cases msg with
  | devWrite w => simp [handle, hx, repDevWrite, hgo, hp']
  | devOpen d => simp [handle, hx, repDevOpen, hgo, hp']
  | taskReply | statusInfo | synchronized => cases hmsg

/-! ### Replies at the primary -/

theorem repTaskReply_cases (m : Member) (source : ℕ) :
    (m.synchronized = false ∨ source ∉ m.bmSync) ∧ m.repTaskReply source = m ∨
    (m.repTaskReply source).bmAcks = m.bmAcks.erase source ∧
      ((m.repTaskReply source).thread = m.thread ∧
          (m.IsPrimary → m.bmAcks.erase source ≠ ∅) ∨
        (m.repTaskReply source).thread.waiting = false ∧
          (m.thread = .idle → (m.repTaskReply source).thread = .idle)) := by
  unfold repTaskReply
  by_cases hgo : m.synchronized = false ∨ source ∉ m.bmSync
  · exact .inl ⟨hgo, if_pos hgo⟩
  · right
    rw [if_neg hgo]
    simp only
    split
    · unfold signalUpdate
      refine ⟨by split <;> rfl, .inr ?_⟩
      split
      · rename_i next sig hth
        refine ⟨rfl, fun h => ?_⟩
        simp [show m.thread = .blocked next sig from hth] at h
      · rename_i hth
        refine ⟨?_, fun h => h⟩
        cases hm : m.thread with
        | blocked next sig => exact absurd hm (hth next sig)
        | idle | transfer | opening => rfl
    · rename_i hno
      exact ⟨rfl, .inl ⟨rfl, fun hp he => hno ⟨hp, he⟩⟩⟩

theorem exited_repTaskReply (m : Member) (source : ℕ) :
    (m.repTaskReply source).exited = m.exited := by
  unfold repTaskReply signalUpdate
  split
  · rfl
  · simp only
    split
    · split <;> rfl
    · rfl

end Member

/-! ### What a turn of `m_transfer` multicasts -/

/-- A copy succeeds and its data fit into the part of a message that a backup decompresses. -/
def copyFits (lz : Lz4) (vcopy : ℕ → ℕ → Option (List UInt8)) (addr n : ℕ) : Bool :=
  match vcopy addr n with
  | none => false
  | some data => decide (data.length = n ∧ (lz.compressFrame data).length ≤ n)

def ChunksFit (lz : Lz4) (vcopy : ℕ → ℕ → Option (List UInt8)) (b addr count : ℕ) : Prop :=
  ∀ k < nrChunks b count, copyFits lz vcopy (addr + k * b) (min b (count - k * b)) = true

instance (lz : Lz4) (vcopy : ℕ → ℕ → Option (List UInt8)) (b addr count : ℕ) :
    Decidable (ChunksFit lz vcopy b addr count) :=
  inferInstanceAs (Decidable (∀ k < _, _))

section Chunks

variable {lz : Lz4} {vcopy : ℕ → ℕ → Option (List UInt8)} {b addr count : ℕ}

theorem ChunksFit.first (h : ChunksFit lz vcopy b addr count) :
    ∃ data, vcopy addr (min b count) = some data ∧ data.length = min b count ∧
      (lz.compressFrame data).length ≤ min b count := by
  have h0 := h 0 (Nat.lt_of_lt_of_le Nat.zero_lt_one (Nat.le_max_left _ _))
  simp only [Nat.zero_mul, Nat.add_zero, Nat.sub_zero, copyFits] at h0
  split at h0
  · cases h0
  · rename_i data hd
    obtain ⟨h1, h2⟩ := of_decide_eq_true h0
    exact ⟨data, hd, h1, h2⟩

theorem ChunksFit.rest (h : ChunksFit lz vcopy b addr count) (hb : 0 < b) (hlt : b < count) :
    ChunksFit lz vcopy b (addr + b) (count - b) := by
  intro k hk
  have := h (k + 1) (by rw [nrChunks_of_lt hb hlt]; omega)
  rw [Nat.add_mul, Nat.one_mul, Nat.add_comm (k * b) b, ← Nat.add_assoc, Nat.sub_add_eq] at this
  exact this

variable {e : ScatterEnv} {s : Scatter}

theorem scatterChunk_fits (hn : 1 < e.nrNodes) (h : ChunksFit e.lz e.vcopy b s.addr s.count) :
    ∃ w s', scatterChunk e b s = some s' ∧ s'.sent = s.sent ++ [w] ∧ s'.addr = s.addr + min b s.count ∧
      s'.count = s.count - min b s.count ∧ s'.position = s.position + min b s.count ∧
      Member.Fits e.lz w ∧ w.device = e.device ∧ w.position = s'.position ∧
      (w.nrOptrans = 0 ↔ s'.count = 0) := by
  obtain ⟨data, hd, hlen, hle⟩ := h.first
  have hbytes : (if b < s.count then b else s.count) = min b s.count := by
    split <;> omega
  unfold scatterChunk
  simp only [hbytes, hd, if_pos hn]
  refine ⟨_, _, rfl, rfl, rfl, rfl, rfl, ⟨rfl, data, rfl, hlen, hle⟩, rfl, rfl, ?_⟩
  simp only [ScatterEnv.devWrite]
  split
  · constructor
    · intro h0
      omega
    · intro h0
      omega
  · constructor
    · intro _
      omega
    · intro _
      rfl

theorem scatterLoop_fits (hn : 1 < e.nrNodes) (hb : 0 < b) {fuel : ℕ} (hf : s.count < fuel)
    (h : ChunksFit e.lz e.vcopy b s.addr s.count) :
    ∃ ws, (scatterLoop e b fuel s).sent = s.sent ++ ws ∧ ws ≠ [] ∧ Closed (ws.map .devWrite) ∧
      ∀ w ∈ ws, Member.Fits e.lz w ∧ w.device = e.device ∧
        (w.nrOptrans = 0 → w.position = s.position + s.count) := by
  induction fuel generalizing s with
  | zero => omega
  | succ fuel ih =>
    obtain ⟨w, s', hs, hsent, haddr, hcount, hpos, hfits, hdev, hwpos, hlast⟩ :=
      scatterChunk_fits hn h
    simp only [scatterLoop, hs]
    by_cases hlt : b < s.count
    · have hmin : min b s.count = b := Nat.min_eq_left hlt.le
      rw [hmin] at haddr hcount hpos
      rw [if_pos (by omega)]
      obtain ⟨ws, h1, h2, h3, h4⟩ := ih (s := s') (by omega)
        (by rw [haddr, hcount]; exact h.rest hb hlt)
      refine ⟨w :: ws, by rw [h1, hsent]; simp, by simp, ?_, ?_⟩
      · obtain ⟨x, ws', rfl⟩ := List.exists_cons_of_ne_nil h2
        simpa [Closed, List.getLast?_cons_cons] using h3
      · intro w' hw'
        rcases List.mem_cons.1 hw' with rfl | hw'
        · refine ⟨hfits, hdev, fun h0 => ?_⟩
          have := hlast.1 h0
          omega
        · obtain ⟨g1, g2, g3⟩ := h4 w' hw'
          refine ⟨g1, g2, fun h0 => ?_⟩
          rw [g3 h0, hpos, hcount]
          omega
    · have hmin : min b s.count = s.count := Nat.min_eq_right (by omega)
      rw [hmin] at hcount hpos
      rw [if_neg (by omega)]
      have h0 : w.nrOptrans = 0 := hlast.2 (by omega)
      refine ⟨[w], hsent, by simp, by simp [Closed, Msg.isClosing, h0], ?_⟩
      intro w' hw'
      cases List.mem_singleton.1 hw'
      exact ⟨hfits, hdev, fun _ => by rw [hwpos, hpos]⟩

theorem scatterLoop_alone (hn : ¬ 1 < e.nrNodes) (b fuel : ℕ) (s : Scatter) :
    (scatterLoop e b fuel s).sent = s.sent := by
  induction fuel generalizing s with
  | zero => rfl
  | succ fuel ih =>
    unfold scatterLoop scatterChunk
    generalize (if b < s.count then b else s.count) = n
    cases hv : e.vcopy s.addr n with
    | none => simp only [hv]
    | some data =>
      simp only [hv, if_neg hn]
      split
      · rw [ih]
      · rfl

end Chunks

namespace Member

/-- The entry of the next turn: its place, its address and its size, as far as it is inside the
device. -/
def nextEntry (m : Member) (c : Call) : Option (ℕ × ℕ × ℕ) :=
  match c.t.iov with
  | [] => none
  | (addr, size) :: _ =>
    ((m.dev c.device).clip c.t.position size).map fun e => (e.1, addr, e.2)

def TurnFits (env : Env) (m : Member) (c : Call) : Prop :=
  ∀ e ∈ m.nextEntry c, ChunksFit env.lz c.vcopy (m.dev c.device).buffSize e.2.1 e.2.2

theorem turn_cases {env : Env} {m : Member} {c : Call} (hfit : 1 < m.dcNrNodes → 1 < m.nrNodes →
      m.TurnFits env c) :
    (m.turn env c).1.thread.waiting = false ∧ (m.turn env c).2 = [] ∨
    1 < m.dcNrNodes ∧ 1 < m.nrNodes ∧ ∃ e ws, m.nextEntry c = some e ∧
      (m.turn env c).2 = ws.map .devWrite ∧ ws ≠ [] ∧ Closed (ws.map .devWrite) ∧
      ∀ w ∈ ws, Fits env.lz w ∧ w.device = c.device ∧
        (w.nrOptrans = 0 → w.position = e.1 + e.2.2) := by
  unfold turn primaryTurn
  cases hiov : c.t.iov with
  | nil => exact .inl ⟨rfl, rfl⟩
  | cons entry iov =>
    cases hclip : (m.dev c.device).clip c.t.position entry.2 with
    | none =>
      simp only [hclip]
      exact .inl ⟨rfl, rfl⟩
    | some q =>
      simp only [hclip]
      by_cases hdc : 1 < m.dcNrNodes
      · by_cases hn : 1 < m.nrNodes
        · right
          have hnext : m.nextEntry c = some (q.1, entry.1, q.2) := by
            simp [nextEntry, hiov, hclip]
          have hf := hfit hdc hn _ (by rw [hnext]; rfl)
          obtain ⟨ws, h1, h2, h3, h4⟩ := scatterLoop_fits
            (e := (m.scatterEnv env c).entry entry.1)
            (s := .start (m.dev c.device).img q.1 entry.1 q.2) hn (m.dev c.device).buffSize_pos
            (Nat.lt_succ_self _) hf
          refine ⟨hdc, hn, _, ws, hnext, ?_, h2, h3, h4⟩
          simp only [if_pos hdc]
          exact congrArg (List.map Msg.devWrite) h1
        · left
          have hsent := scatterLoop_alone (e := (m.scatterEnv env c).entry entry.1) hn
            (m.dev c.device).buffSize (q.2 + 1) (.start (m.dev c.device).img q.1 entry.1 q.2)
          simp only [if_pos hdc, if_neg (fun h : _ ∧ _ => hn h.2), hsent]
          exact ⟨rfl, rfl⟩
      · left
        simp only [if_neg hdc, if_neg (fun h : _ ∧ _ => hdc h.1)]
        exact ⟨rfl, rfl⟩

end Member

end Rdisk

end MolIpc
