import MolIpc.Rdisk.Member
import Mathlib.Data.List.Forall2

/-!
The images of a primary and of a backup that has been synchronized all along.

The primary writes every chunk of a request at its offset and multicasts it with a `POSITION` that
it has already moved behind the chunk; the backup writes it there. So the image of the primary is
the old one after the chunks of the requests (`serve_spec`), and that of the backup the old one
after the same chunks, each moved by its own length (`backupRun_dev`). No moved chunk covers the
first byte of all, so the two are equal for every old image only when no request writes a byte:
`images_eq_iff`.
-/

namespace MolIpc

namespace Rdisk

open Disk

variable {d : Dev} {b count fuel off size : ℕ} {iov : List (ℕ × ℕ)} {w : Write UInt8}

/-! ### Requests and their chunks -/

/-- The requester and its memory, the device, the position and the vector. All the copies succeed.
-/
structure Request where
  procNr : ℤ
  device : ℤ
  position : ℤ
  iov : List (ℕ × ℕ)
  mem : ℕ → UInt8

def readMem (mem : ℕ → UInt8) (addr n : ℕ) : List UInt8 := (List.range n).map fun k => mem (addr + k)

@[simp] theorem length_readMem (mem : ℕ → UInt8) (addr n : ℕ) : (readMem mem addr n).length = n := by
  simp [readMem]

/-- The number of chunks of `b` bytes of `count` bytes. There is always one. -/
def nrChunks (b count : ℕ) : ℕ := max 1 ((count + b - 1) / b)

/-- The chunks of `count` bytes at an address of a memory, for the offset `off` of a device. -/
def pieces (b : ℕ) (mem : ℕ → UInt8) (off addr count : ℕ) : List (Write UInt8) :=
  (List.range (nrChunks b count)).map fun k =>
    ⟨off + k * b, readMem mem (addr + k * b) (min b (count - k * b))⟩

/-- The chunks of the entries of a vector from the offset `off` on, up to the end of the device. -/
def entryChunks (d : Dev) (mem : ℕ → UInt8) : ℕ → List (ℕ × ℕ) → List (Write UInt8)
  | _, [] => []
  | off, (addr, size) :: iov =>
    if off < d.dvSize then
      pieces d.buffSize mem off addr (min size (d.dvSize - off)) ++
        entryChunks d mem (off + min size (d.dvSize - off)) iov
    else []

def Request.chunks (dev : Fin nrDevs → Dev) (r : Request) : List (Fin nrDevs × Write UInt8) :=
  match mPrepare dev r.device with
  | none => []
  | some d =>
    if r.position < 0 then []
    else (entryChunks (dev d) r.mem r.position.toNat r.iov).map fun w => (d, w)

def onDev (d : Fin nrDevs) (cs : List (Fin nrDevs × Write UInt8)) : List (Write UInt8) :=
  cs.filterMap fun c => if c.1 = d then some c.2 else none

def moved (w : Write UInt8) : Write UInt8 := ⟨w.stop, w.data⟩

/-- The request is for no open device, for a position outside of it, or all its entries are empty.
-/
def Request.NoBytes (dev : Fin nrDevs → Dev) (r : Request) : Prop :=
  ∀ d, mPrepare dev r.device = some d → 0 ≤ r.position → r.position < (dev d).dvSize →
    ∀ e ∈ r.iov, e.2 = 0

theorem nrChunks_of_le (h : count ≤ b) : nrChunks b count = 1 := by
  unfold nrChunks
  rcases Nat.eq_zero_or_pos b with rfl | hb
  · simp
  · have : (count + b - 1) / b ≤ 1 := by
      rw [Nat.div_le_iff_le_mul_add_pred hb]
      omega
    omega

theorem nrChunks_of_lt (hb : 0 < b) (h : b < count) :
    nrChunks b count = nrChunks b (count - b) + 1 := by
  unfold nrChunks
  have hc : count + b - 1 = count - b + b - 1 + b := by omega
  have hp : 1 ≤ (count - b + b - 1) / b := by
    rw [Nat.le_div_iff_mul_le hb]
    omega
  rw [hc, Nat.add_div_right _ hb]
  omega

section Pieces

variable {b : ℕ} {mem : ℕ → UInt8} {off addr count : ℕ}

theorem pieces_of_le (h : count ≤ b) :
    pieces b mem off addr count = [⟨off, readMem mem addr count⟩] := by
  simp [pieces, nrChunks_of_le h, h]

theorem pieces_of_lt (hb : 0 < b) (h : b < count) :
    pieces b mem off addr count =
      ⟨off, readMem mem addr b⟩ :: pieces b mem (off + b) (addr + b) (count - b) := by
  unfold pieces
  rw [nrChunks_of_lt hb h, List.range_succ_eq_map, List.map_cons, List.map_map]
  congr 1
  · simp only [Nat.zero_mul, Nat.add_zero, Nat.sub_zero]
    rw [Nat.min_eq_left h.le]
  · apply List.map_congr_left
    intro k _
    simp only [Function.comp, Nat.succ_eq_add_one, Nat.add_mul, Nat.one_mul]
    congr 1
    · omega
    · congr 1 <;> omega

end Pieces

/-! ### The primary -/

/-- A `DEV_WRITE` that carries a chunk: its data, compressed, for the position after it. -/
structure Carries (lz : Lz4) (m : DevWrite) (c : Fin nrDevs × Write UInt8) : Prop where
  device : m.device = c.1
  position : m.position = c.2.stop
  count : m.count = c.2.data.length
  comp : m.comp = true
  buffer : m.buffer = lz.compressFrame c.2.data

section Scatter

variable {e : ScatterEnv} {mem : ℕ → UInt8} {b : ℕ} {s : Scatter}

theorem scatterChunk_spec (hv : ∀ a n, e.vcopy a n = some (readMem mem a n))
    (hn : 1 < e.nrNodes) :
    ∃ m, Carries e.lz m (e.device, ⟨s.position, readMem mem s.addr (min b s.count)⟩) ∧
      scatterChunk e b s = some
        { img := s.img.pwrite ⟨s.position, readMem mem s.addr (min b s.count)⟩
          position := s.position + min b s.count
          addr := s.addr + min b s.count
          count := s.count - min b s.count
          stbytes := s.stbytes + min b s.count
          nrOptrans := s.nrOptrans + 1
          sent := s.sent ++ [m] } := by
  have hbytes : (if b < s.count then b else s.count) = min b s.count := by
    split <;> omega
  unfold scatterChunk
  simp only [hbytes, hv, if_pos hn]
  refine ⟨_, ?_, rfl⟩
  exact ⟨rfl, by simp [ScatterEnv.devWrite, Write.stop], by simp [ScatterEnv.devWrite], rfl, rfl⟩

theorem scatterLoop_spec (hv : ∀ a n, e.vcopy a n = some (readMem mem a n)) (hn : 1 < e.nrNodes)
    (hb : 0 < b) (hf : s.count < fuel) : let s' := scatterLoop e b fuel s
    let ws := pieces b mem s.position s.addr s.count
    s'.img = s.img.writeAll ws ∧ s'.position = s.position + s.count ∧
      s'.stbytes = s.stbytes + s.count ∧
      ∃ ms, s'.sent = s.sent ++ ms ∧
        List.Forall₂ (Carries e.lz) ms (ws.map fun w => (e.device, w)) := by
  induction fuel generalizing s with
  | zero => omega
  | succ fuel ih =>
    obtain ⟨m, hm, hs⟩ := scatterChunk_spec hv hn (b := b) (s := s)
    simp only [scatterLoop, hs]
    by_cases hlt : b < s.count
    · -- a full chunk, and more to come
      have hmin : min b s.count = b := Nat.min_eq_left hlt.le
      simp only [hmin] at hm ⊢
      rw [if_pos (by omega), pieces_of_lt hb hlt]
      obtain ⟨h1, h2, h3, ms, h4, h5⟩ := ih
        (s := ⟨s.img.pwrite ⟨s.position, readMem mem s.addr b⟩, s.position + b, s.addr + b,
          s.count - b, s.stbytes + b, s.nrOptrans + 1, s.sent ++ [m]⟩) (by simp only; omega)
      refine ⟨h1, ?_, ?_, m :: ms, by rw [h4]; simp, .cons hm h5⟩
      · rw [h2]
        simp only
        omega
      · rw [h3]
        simp only
        omega
    · have hmin : min b s.count = s.count := Nat.min_eq_right (by omega)
      simp only [hmin] at hm ⊢
      rw [if_neg (by omega), pieces_of_le (by omega)]
      exact ⟨rfl, rfl, rfl, [m], rfl, .cons hm .nil⟩

end Scatter

/-! ### Serving the requests -/

namespace Member

/-- The driver thread until it is idle again, with every wait signalled: the member and its
multicasts. -/
def runCall (env : Env) : ℕ → Member → Option (Member × List Msg)
  | 0, _ => none
  | fuel + 1, m =>
    match m.thread with
    | .idle => some (m, [])
    | .transfer c => (runCall env fuel (m.turn env c).1).map fun r => (r.1, (m.turn env c).2 ++ r.2)
    | .blocked next _ => runCall env fuel (m.wakeUp next)
    | .opening _ => none

def serveOne (env : Env) (m : Member) (r : Request) : Option (Member × List Msg) :=
  runCall env (2 * r.iov.length + 4)
    (m.startWrite r.procNr r.device r.position r.iov fun a n => some (readMem r.mem a n))

def serve (env : Env) : Member → List Request → Option (Member × List Msg)
  | m, [] => some (m, [])
  | m, r :: rs =>
    (m.serveOne env r).bind fun q => (serve env q.1 rs).map fun q' => (q'.1, q.2 ++ q'.2)

def written (m : Member) (cs : List (Fin nrDevs × Write UInt8)) : Member :=
  { m with dev := fun d => { m.dev d with img := (m.dev d).img.writeAll (onDev d cs) } }

@[simp] theorem written_nil (m : Member) : m.written [] = m := rfl

@[simp] theorem written_written (m : Member) (cs ds : List (Fin nrDevs × Write UInt8)) :
    (m.written cs).written ds = m.written (cs ++ ds) := by
  simp [written, onDev, File.writeAll_append]

theorem setImg_writeAll (m : Member) (d : Fin nrDevs) (ws : List (Write UInt8)) :
    m.setImg d ((m.dev d).img.writeAll ws) = m.written (ws.map fun w => (d, w)) := by
  unfold setImg written
  congr 1
  funext d'
  by_cases hd : d' = d
  · subst hd
    have hws : onDev d' (ws.map fun w => (d', w)) = ws := by
      simp [onDev, List.filterMap_map]
    rw [Function.update_self, hws]
  · have hws : onDev d' (ws.map fun w => (d, w)) = [] := by
      simp [onDev, Ne.symm hd]
    rw [Function.update_of_ne hd, hws]
    rfl

def left (m : Member) (mem : ℕ → UInt8) (d : Fin nrDevs) (t : Transfer) :
    List (Fin nrDevs × Write UInt8) :=
  if t.position < 0 then []
  else (entryChunks (m.dev d) mem t.position.toNat t.iov).map fun w => (d, w)

def turnsLeft (m : Member) (d : Fin nrDevs) (t : Transfer) : ℕ :=
  t.iov.length + if t.position < (m.dev d).dvSize then 1 else 0

end Member

theorem entryChunks_congr {d' : Dev} (hs : d'.dvSize = d.dvSize) (hb : d'.buffSize = d.buffSize)
    (mem : ℕ → UInt8) (off : ℕ) (iov : List (ℕ × ℕ)) :
    entryChunks d' mem off iov = entryChunks d mem off iov := by
  induction iov generalizing off with
  | nil => rfl
  | cons e iov ih => simp only [entryChunks, hs, hb, ih]

theorem entryChunks_of_le (h : d.dvSize ≤ off) (mem : ℕ → UInt8) (iov : List (ℕ × ℕ)) :
    entryChunks d mem off iov = [] := by
  cases iov with
  | nil => rfl
  | cons e iov => simp [entryChunks, Nat.not_lt.2 h]

theorem Request.chunks_withImgs (dev : Fin nrDevs → Dev) (img : Fin nrDevs → File UInt8)
    (r : Request) : r.chunks (fun d => { dev d with img := img d }) = r.chunks dev := by
  have hprep : mPrepare (fun d => { dev d with img := img d }) r.device = mPrepare dev r.device := rfl
  unfold Request.chunks
  rw [hprep]
  cases mPrepare dev r.device with
  | none => rfl
  | some d =>
    simp only
    congr 2
    apply entryChunks_congr <;> rfl

theorem Dev.clip_of_lt (h : off < d.dvSize) :
    d.clip off size = some (off, min size (d.dvSize - off)) := by
  unfold Dev.clip
  rw [if_neg (by omega), Int.toNat_natCast]
  split
  · rw [Nat.min_eq_right (by omega)]
  · rw [Nat.min_eq_left (by omega)]

theorem Dev.clip_eq_none {position : ℤ} (size : ℕ) (h : position < 0 ∨ d.dvSize ≤ position) :
    d.clip position size = none := if_pos h

section Turn

variable {e : ScatterEnv} {dcNrNodes : ℤ} {d : Dev} {t : Transfer} {mem : ℕ → UInt8}

variable (e dcNrNodes) in
theorem primaryTurn_ret (h : t.iov = [] ∨ t.position < 0 ∨ d.dvSize ≤ t.position) :
    ∃ code, primaryTurn e dcNrNodes d t = (d.img, [], .ret code) := by
  unfold primaryTurn
  cases hiov : t.iov with
  | nil => exact ⟨_, rfl⟩
  | cons entry iov =>
    rw [hiov] at h
    have hc := Dev.clip_eq_none entry.2 (h.resolve_left (by simp))
    simp only [hc]
    exact ⟨_, rfl⟩

theorem primaryTurn_goOn (hv : ∀ a n, e.vcopy a n = some (readMem mem a n)) (hn : 1 < e.nrNodes)
    (hdc : 1 < dcNrNodes) {addr : ℕ} (hp : t.position = off) (hlt : off < d.dvSize)
    (hiov : t.iov = (addr, size) :: iov) :
    ∃ ms t',
      primaryTurn e dcNrNodes d t =
        (d.img.writeAll (pieces d.buffSize mem off addr (min size (d.dvSize - off))), ms, .goOn t') ∧
      List.Forall₂ (Carries e.lz) ms
        ((pieces d.buffSize mem off addr (min size (d.dvSize - off))).map fun w => (e.device, w)) ∧
      t'.position = (off + min size (d.dvSize - off) : ℕ) ∧
      (t'.iov = iov ∨ d.dvSize ≤ t'.position ∧ t'.iov.length = t.iov.length) := by
  unfold primaryTurn
  simp only [hiov, hp, Dev.clip_of_lt hlt, if_pos hdc]
  obtain ⟨h1, h2, h3, ms, h4, h5⟩ := scatterLoop_spec (e := e.entry addr)
    (s := .start d.img off addr (min size (d.dvSize - off))) hv hn d.buffSize_pos
    (Nat.lt_succ_self _)
  simp only [Scatter.start, List.nil_append, Nat.zero_add] at h1 h2 h3 h4 h5
  simp only [Scatter.start, h1, h2, h3, h4]
  refine ⟨ms, _, rfl, h5, rfl, ?_⟩
  · by_cases hall : size - min size (d.dvSize - off) = 0
    · exact .inl (if_pos hall)
    · rw [if_neg hall]
      exact .inr ⟨by simp only; omega, by simp⟩

end Turn

namespace Member

section Serve

variable (env : Env) {m : Member} {mem : ℕ → UInt8} {c : Call}

theorem turn_spec (hv : ∀ a n, c.vcopy a n = some (readMem mem a n)) (hdc : 1 < m.dcNrNodes)
    (hn : 1 < m.nrNodes) :
    (m.turn env c = (m.setThread .idle, []) ∧ m.left mem c.device c.t = []) ∨
    ∃ cs ms t', m.turn env c =
        ((m.written cs).setThread (.blocked (some { c with t := t' }) false), ms.map .devWrite) ∧
      List.Forall₂ (Carries env.lz) ms cs ∧
      m.left mem c.device c.t = cs ++ m.left mem c.device t' ∧
      m.turnsLeft c.device t' < m.turnsLeft c.device c.t := by
  by_cases hend : c.t.iov = [] ∨ c.t.position < 0 ∨ (m.dev c.device).dvSize ≤ c.t.position
  · left
    obtain ⟨code, h⟩ := primaryTurn_ret (m.scatterEnv env c) m.dcNrNodes hend
    refine ⟨?_, ?_⟩
    · unfold turn
      rw [h]
      have hw := m.setImg_writeAll c.device []
      simp only [File.writeAll_nil, List.map_nil, written_nil] at hw
      simp [hw]
    · unfold left
      split
      · rfl
      · rcases hend with hiov | hneg | hbig
        · simp [hiov, entryChunks]
        · omega
        · rw [entryChunks_of_le (by omega)]
          rfl
  · right
    obtain ⟨hne, hpos⟩ := not_or.1 hend
    obtain ⟨⟨addr, size⟩, iov, hiov⟩ := List.exists_cons_of_ne_nil hne
    obtain ⟨off, hoff⟩ : ∃ off : ℕ, c.t.position = off := ⟨c.t.position.toNat, by omega⟩
    obtain ⟨ms, t', h1, h2, h3, h4⟩ := primaryTurn_goOn (e := m.scatterEnv env c)
      (d := m.dev c.device) hv hn hdc hoff (by omega) hiov
    refine ⟨_, ms, t', ?_, h2, ?_, ?_⟩
    · unfold turn
      rw [h1]
      simp only [setImg_writeAll, if_pos (And.intro hdc hn)]
      rfl
    · have hrest : entryChunks (m.dev c.device) mem t'.position.toNat t'.iov =
          entryChunks (m.dev c.device) mem t'.position.toNat iov := by
        rcases h4 with h4 | ⟨h4, -⟩
        · rw [h4]
        · rw [entryChunks_of_le (by omega), entryChunks_of_le (by omega)]
      unfold left
      rw [if_neg (by omega), if_neg (by omega), hrest, h3, hoff, hiov, Int.toNat_natCast,
        Int.toNat_natCast, entryChunks, if_pos (by omega), List.map_append]
      rfl
    · unfold turnsLeft
      rw [if_pos (by omega : c.t.position < _)]
      rcases h4 with h4 | ⟨h4, h5⟩
      · rw [h4, hiov]
        simp only [List.length_cons]
        split <;> omega
      · rw [if_neg (by omega), h5]
        omega

theorem left_written (cs : List (Fin nrDevs × Write UInt8)) (th : Thread) (d : Fin nrDevs)
    (t : Transfer) : ((m.written cs).setThread th).left mem d t = m.left mem d t := by
  unfold left
  congr 2
  apply entryChunks_congr <;> rfl

theorem runCall_spec (hv : ∀ a n, c.vcopy a n = some (readMem mem a n)) (hdc : 1 < m.dcNrNodes)
    (hn : 1 < m.nrNodes) (hth : m.thread = .transfer c)
    (hf : 2 * m.turnsLeft c.device c.t + 2 ≤ fuel) :
    ∃ ms, runCall env fuel m = some
        ((m.written (m.left mem c.device c.t)).setThread .idle, ms.map .devWrite) ∧
      List.Forall₂ (Carries env.lz) ms (m.left mem c.device c.t) := by
  induction fuel using Nat.strong_induction_on generalizing m c with
  | _ fuel ih =>
    obtain ⟨fuel, rfl⟩ : ∃ k, fuel = k + 2 := ⟨fuel - 2, by omega⟩
    rw [runCall, hth]
    rcases turn_spec env hv hdc hn with ⟨hturn, hleft⟩ | ⟨cs, ms, t', hturn, hcs, hleft, hlt⟩
    · exact ⟨[], by simp [hturn, runCall, hleft, setThread], by rw [hleft]; exact .nil⟩
    · -- the entry is done: the thread is woken up and goes on with the rest
      obtain ⟨ms', hrun, hms'⟩ := @ih fuel (by omega)
        ((m.written cs).setThread (.transfer { c with t := t' })) { c with t := t' } hv hdc hn rfl
        (by change 2 * m.turnsLeft c.device t' + 2 ≤ fuel; omega)
      rw [left_written] at hrun hms'
      refine ⟨ms ++ ms', ?_, by rw [hleft]; exact List.rel_append hcs hms'⟩
      have hwake : runCall env (fuel + 1) ((m.written cs).setThread
          (.blocked (some { c with t := t' }) false)) = _ := hrun
      simp only [hturn, hwake, Option.map_some, List.map_append, hleft, ← written_written]
      rfl

theorem chunks_written (m : Member) (cs : List (Fin nrDevs × Write UInt8)) (r : Request) :
    r.chunks (m.written cs).dev = r.chunks m.dev :=
  r.chunks_withImgs m.dev _

theorem serveOne_spec (hth : m.thread = .idle) (hdc : 1 < m.dcNrNodes) (hn : 1 < m.nrNodes)
    (r : Request) :
    ∃ ms, m.serveOne env r = some (m.written (r.chunks m.dev), ms.map .devWrite) ∧
      List.Forall₂ (Carries env.lz) ms (r.chunks m.dev) := by
  unfold serveOne startWrite Request.chunks
  cases mPrepare m.dev r.device with
  | none => exact ⟨[], by simp [runCall, hth], .nil⟩
  | some d =>
    have hfuel : 2 * m.turnsLeft d ⟨r.position, r.iov, 0⟩ + 2 ≤ 2 * r.iov.length + 4 := by
      unfold turnsLeft
      simp only
      split <;> omega
    obtain ⟨ms, hrun, hms⟩ := runCall_spec env (fun _ _ => rfl) hdc hn
      (m := m.setThread (.transfer ⟨r.procNr, d, fun a n => some (readMem r.mem a n),
        ⟨r.position, r.iov, 0⟩⟩)) rfl hfuel
    refine ⟨ms, ?_, hms⟩
    simp only [hrun]
    congr 2
    rw [← hth]
    rfl

/-- **The images of the primary** are the old ones after the chunks of the requests, and what it has
multicast carries these chunks. -/
theorem serve_spec (hth : m.thread = .idle) (hdc : 1 < m.dcNrNodes) (hn : 1 < m.nrNodes)
    (rs : List Request) :
    ∃ ms, m.serve env rs = some (m.written (rs.flatMap (·.chunks m.dev)), ms.map .devWrite) ∧
      List.Forall₂ (Carries env.lz) ms (rs.flatMap (·.chunks m.dev)) := by
  induction rs generalizing m with
  | nil => exact ⟨[], rfl, .nil⟩
  | cons r rs ih =>
    obtain ⟨ms, h1, h2⟩ := serveOne_spec env hth hdc hn r
    obtain ⟨ms', h3, h4⟩ := ih (m := m.written (r.chunks m.dev)) hth hdc hn
    simp only [chunks_written, written_written] at h3 h4
    refine ⟨ms ++ ms', ?_, ?_⟩
    · simp [serve, h1, h3]
    · rw [List.flatMap_cons]
      exact List.rel_append h2 h4

end Serve

end Member

/-! ### The backup -/

theorem mPrepare_fin (dev : Fin nrDevs → Dev) (d : Fin nrDevs) :
    mPrepare dev d = if (dev d).active then some d else none := by
  unfold mPrepare
  have h : (0 : ℤ) ≤ (d : ℤ) ∧ (d : ℤ).toNat < nrDevs := by
    have := d.isLt
    omega
  rw [dif_pos h]
  rfl

theorem Member.writeChunk_of_carries {env : Env} {img img' : File UInt8} {w : DevWrite}
    {c : Fin nrDevs × Write UInt8} {stale : List UInt8} (hc : Carries env.lz w c)
    (h : Member.writeChunk env img w stale = some img') : img' = img.pwrite (moved c.2) := by
  unfold Member.writeChunk at h
  simp only [hc.comp, if_true, hc.buffer, hc.count] at h
  cases hd : env.lz.decompress ((env.lz.compressFrame c.2.data ++ stale).take c.2.data.length) with
  | none => simp [hd] at h
  | some data =>
    simp only [hd] at h
    split at h
    · rename_i hlen
      have hdata : data = c.2.data := by
        by_cases hle : (env.lz.compressFrame c.2.data).length ≤ c.2.data.length
        · -- the whole frame is there
          rw [List.take_append, List.take_of_length_le hle, env.lz.decompress_frame] at hd
          exact (Option.some.inj hd).symm
        · rw [List.take_append_of_le_length (by omega)] at hd
          exact (env.lz.decompress_take _ _ _ hd).eq_of_length hlen
      rw [← Option.some.inj h, hdata, hc.position]
      rfl
    · cases h

namespace Member

structure BackupOf (b : Member) (source : ℕ) : Prop where
  sync : b.synchronized = true
  primary : b.primaryMbr = some source
  other : b.localNodeid ≠ source

/-- The chunks are delivered to a backup; `none` if it exits or has not the device. `stale k` is
what the buffer holds behind the `k`-th message. -/
def backupRun (env : Env) (source : ℕ) : Member → (ℕ → List UInt8) → List DevWrite → Option Member
  | b, _, [] => some b
  | b, stale, w :: ws =>
    let b' := (b.repDevWrite env source w (stale 0)).1
    if mPrepare b.dev w.device = none ∨ b'.exited = true then none
    else backupRun env source b' (fun k => stale (k + 1)) ws

section Backup

variable {env : Env} {b b' : Member} {source : ℕ} {w : DevWrite} {c : Fin nrDevs × Write UInt8}
  {stale : List UInt8}

theorem repDevWrite_backup (hb : b.BackupOf source) (hc : Carries env.lz w c)
    (hact : mPrepare b.dev w.device ≠ none)
    (hlive : (b.repDevWrite env source w stale).1.exited = false) :
    (b.repDevWrite env source w stale).1.dev = (b.written [(c.1, moved c.2)]).dev ∧
      (b.repDevWrite env source w stale).1.BackupOf source := by
  have hnp : ¬ (b.startAcks source).IsPrimary := by
    intro h
    have : b.primaryMbr = some b.localNodeid := h
    rw [hb.primary] at this
    exact hb.other (Option.some.inj this).symm
  have hdev : mPrepare (b.startAcks source).dev w.device = some c.1 := by
    change mPrepare b.dev w.device = some c.1
    rw [mPrepare_fin] at hact ⊢
    by_cases ha : (b.dev w.device).active = true
    · rw [if_pos ha, hc.device]
    · exact absurd (if_neg ha) hact
  unfold repDevWrite at hlive ⊢
  simp only [hb.sync, hb.primary, Bool.true_eq_false, ne_eq, not_true_eq_false, or_self, if_false,
    hnp, hdev] at hlive ⊢
  cases hw : writeChunk env ((b.startAcks source).dev c.1).img w stale with
  | none => simp [hw] at hlive
  | some img =>
    have himg := writeChunk_of_carries hc hw
    have hset := (b.startAcks source).setImg_writeAll c.1 [moved c.2]
    simp only [File.writeAll_cons, File.writeAll_nil, List.map_cons, List.map_nil] at hset
    simp only [himg, hset]
    exact ⟨rfl, hb.sync, hb.primary, hb.other⟩

/-- **The images of the backup** are the old ones after the same chunks, each moved by its own
length. -/
theorem backupRun_dev {ws : List DevWrite} {cs : List (Fin nrDevs × Write UInt8)}
    {stale : ℕ → List UInt8} (hb : b.BackupOf source) (hcs : List.Forall₂ (Carries env.lz) ws cs)
    (h : backupRun env source b stale ws = some b') :
    b'.dev = (b.written (cs.map fun c => (c.1, moved c.2))).dev := by
  induction hcs generalizing b stale with
  | nil =>
    cases h
    rfl
  | cons hc _ ih =>
    simp only [backupRun] at h
    split at h
    · cases h
    · rename_i hok
      obtain ⟨hact, hlive⟩ := not_or.1 hok
      obtain ⟨hdev, hb'⟩ := repDevWrite_backup hb hc hact (Bool.eq_false_iff.2 hlive)
      rw [ih hb' h, List.map_cons, ← List.singleton_append, ← written_written]
      unfold written at hdev ⊢
      simp only [hdev]

end Backup

end Member

/-! ### The two together -/

/-- A primary with several nodes and an idle driver, and one of its backups. -/
structure Replicas (p b : Member) : Prop where
  idle : p.thread = .idle
  dcNodes : 1 < p.dcNrNodes
  nodes : 1 < p.nrNodes
  backup : b.BackupOf p.localNodeid

def Member.withImgs (m : Member) (img : Fin nrDevs → File UInt8) : Member :=
  { m with dev := fun d => { m.dev d with img := img d } }

def Msg.devWrite? : Msg → Option DevWrite
  | .devWrite w => some w
  | _ => none

/-- Both members have the images `img`. The primary serves the requests and the backup handles the
chunks that it has multicast. -/
def replicate (env : Env) (stale : ℕ → List UInt8) (rs : List Request) (p b : Member)
    (img : Fin nrDevs → File UInt8) : Option (Member × Member) :=
  ((p.withImgs img).serve env rs).bind fun q =>
    ((b.withImgs img).backupRun env p.localNodeid stale (q.2.filterMap Msg.devWrite?)).map
      fun b' => (q.1, b')

theorem onDev_map_moved (d : Fin nrDevs) (cs : List (Fin nrDevs × Write UInt8)) :
    onDev d (cs.map fun c => (c.1, moved c.2)) = (onDev d cs).map moved := by
  induction cs with
  | nil => rfl
  | cons c cs ih =>
    unfold onDev at ih ⊢
    by_cases hc : c.1 = d <;> simp [hc, ih]

theorem mem_onDev {cs : List (Fin nrDevs × Write UInt8)} {d : Fin nrDevs} :
    w ∈ onDev d cs ↔ (d, w) ∈ cs := by
  unfold onDev
  rw [List.mem_filterMap]
  constructor
  · rintro ⟨⟨d', w'⟩, hmem, heq⟩
    split at heq
    · rename_i hd
      cases heq
      cases hd
      exact hmem
    · cases heq
  · exact fun h => ⟨_, h, if_pos rfl⟩

theorem mem_chunks {dev : Fin nrDevs → Dev} {r : Request} {c : Fin nrDevs × Write UInt8} :
    c ∈ r.chunks dev ↔ mPrepare dev r.device = some c.1 ∧ 0 ≤ r.position ∧
      c.2 ∈ entryChunks (dev c.1) r.mem r.position.toNat r.iov := by
  unfold Request.chunks
  cases mPrepare dev r.device with
  | none => simp
  | some d =>
    by_cases hpos : r.position < 0
    · simp [hpos]
    · simp only [hpos, if_false, List.mem_map, Option.some.injEq, not_lt.1 hpos, true_and]
      constructor
      · rintro ⟨w, hw, rfl⟩
        exact ⟨rfl, hw⟩
      · rintro ⟨rfl, hw⟩
        exact ⟨_, hw, rfl⟩

theorem entryChunks_stop_le {mem : ℕ → UInt8} (hw : w ∈ entryChunks d mem off iov)
    (hd : w.data ≠ []) : w.stop ≤ d.dvSize := by
  induction iov generalizing off with
  | nil => cases hw
  | cons e iov ih =>
    unfold entryChunks at hw
    split at hw
    · rcases List.mem_append.1 hw with hw | hw
      · obtain ⟨k, -, rfl⟩ := List.mem_map.1 hw
        have hlen := List.length_pos_of_ne_nil hd
        simp only [length_readMem, Write.stop] at hlen ⊢
        omega
      · exact ih hw
    · cases hw

theorem pieces_empty_iff {mem : ℕ → UInt8} {addr : ℕ} (hb : 0 < b) :
    (∀ w ∈ pieces b mem off addr count, w.data = []) ↔ count = 0 := by
  constructor
  · intro h
    have h0 := congrArg List.length (h _ (List.mem_map_of_mem (List.mem_range.2
      (show 0 < nrChunks b count by unfold nrChunks; omega))))
    simp only [Nat.zero_mul, Nat.sub_zero, length_readMem, List.length_nil] at h0
    omega
  · rintro rfl
    rw [pieces_of_le (Nat.zero_le b)]
    simp [readMem]

theorem entryChunks_empty_iff (mem : ℕ → UInt8) (hlt : off < d.dvSize) :
    (∀ w ∈ entryChunks d mem off iov, w.data = []) ↔ ∀ e ∈ iov, e.2 = 0 := by
  induction iov with
  | nil => simp [entryChunks]
  | cons e iov ih =>
    obtain ⟨addr, size⟩ := e
    have hcount : min size (d.dvSize - off) = 0 ↔ size = 0 := by omega
    simp only [entryChunks, if_pos hlt, List.forall_mem_append, List.forall_mem_cons,
      pieces_empty_iff d.buffSize_pos, hcount]
    refine and_congr_right fun h0 => ?_
    subst h0
    rw [Nat.zero_min, Nat.add_zero]
    exact ih

theorem chunks_empty_iff (dev : Fin nrDevs → Dev) (r : Request) :
    (∀ c ∈ r.chunks dev, c.2.data = []) ↔ r.NoBytes dev := by
  constructor
  · intro h d hd h0 hlt
    have hoff : r.position.toNat < (dev d).dvSize := by omega
    rw [← entryChunks_empty_iff r.mem hoff]
    exact fun w hw => h (d, w) (mem_chunks.2 ⟨hd, h0, hw⟩)
  · intro h c hc
    obtain ⟨hd, h0, hw⟩ := mem_chunks.1 hc
    by_cases hlt : r.position < (dev c.1).dvSize
    · exact (entryChunks_empty_iff r.mem (by omega)).2 (h _ hd h0 hlt) _ hw
    · rw [entryChunks_of_le (by omega)] at hw
      cases hw

theorem replicate_imgs {env : Env} {stale : ℕ → List UInt8} {p b : Member} (h : Replicas p b)
    {rs : List Request} {img : Fin nrDevs → File UInt8} {q : Member × Member}
    (hq : replicate env stale rs p b img = some q) (d : Fin nrDevs) :
    let ws := onDev d (rs.flatMap (·.chunks p.dev))
    (q.1.dev d).img = (img d).writeAll ws ∧ (q.2.dev d).img = (img d).writeAll (ws.map moved) := by
  have hchunks : ∀ r : Request, r.chunks (p.withImgs img).dev = r.chunks p.dev :=
    fun r => r.chunks_withImgs p.dev img
  obtain ⟨ms, hserve, hms⟩ := Member.serve_spec env (m := p.withImgs img) h.idle h.dcNodes h.nodes rs
  simp only [hchunks] at hserve hms
  have hmsgs : (ms.map Msg.devWrite).filterMap Msg.devWrite? = ms := by
    rw [List.filterMap_map]
    exact List.filterMap_some
  simp only [replicate, hserve, Option.bind_some, hmsgs, Option.map_eq_some_iff] at hq
  obtain ⟨b', hrun, rfl⟩ := hq
  have hb : (b.withImgs img).BackupOf p.localNodeid :=
    ⟨h.backup.sync, h.backup.primary, h.backup.other⟩
  refine ⟨rfl, ?_⟩
  rw [Member.backupRun_dev hb hms hrun, ← onDev_map_moved]
  rfl

/-- The first byte that is written at all is in no moved chunk. -/
theorem exists_not_moved {ws : List (Write UInt8)} (h : ∃ w ∈ ws, w.data ≠ []) :
    ∃ w ∈ ws, w.data ≠ [] ∧ lastAt? ws w.off ≠ none ∧ lastAt? (ws.map moved) w.off = none := by
  classical
  have hex : ∃ x, ∃ w ∈ ws, w.data ≠ [] ∧ w.off = x := by
    obtain ⟨w, hw, hd⟩ := h
    exact ⟨w.off, w, hw, hd, rfl⟩
  obtain ⟨w, hw, hd, hoff⟩ := Nat.find_spec hex
  refine ⟨w, hw, hd, fun hno => ?_, ?_⟩
  · exact Write.at?_off_ne_none hd (lastAt?_eq_none_iff.1 hno w hw)
  · rw [lastAt?_eq_none_iff, List.forall_mem_map]
    intro v hv
    by_cases hvd : v.data = []
    · unfold moved
      rw [hvd, Write.at?_nil]
    · have hmin := Nat.find_min' hex ⟨v, hv, hvd, rfl⟩
      have hlen := List.length_pos_of_ne_nil hvd
      refine Write.at?_eq_none_of_lt ?_
      show w.off < v.off + v.data.length
      omega

/-- The image of the length `n` with the byte `v` everywhere. -/
def filled (n : ℕ) (v : UInt8) : File UInt8 where
  size := n
  byte x := if x < n then v else 0
  zero_of_size_le _ h := if_neg (Nat.not_lt.2 h)

/-- **The images of a primary and of a backup** with equal images, as long as the devices, are the
same after all the chunks of some requests, whatever they were before, exactly when the requests
write no byte. -/
theorem images_eq_iff (env : Env) (stale : ℕ → List UInt8) {p b : Member} (h : Replicas p b)
    (rs : List Request)
    (hok : ∀ img, (∀ d, (img d).size = (p.dev d).dvSize) →
      (replicate env stale rs p b img).isSome) :
    (∀ img, (∀ d, (img d).size = (p.dev d).dvSize) → ∀ q, replicate env stale rs p b img = some q →
      ∀ d, (q.2.dev d).img = (q.1.dev d).img) ↔ ∀ r ∈ rs, r.NoBytes p.dev := by
  simp only [← chunks_empty_iff]
  constructor
  · intro heq r hr c hc
    by_contra hd
    have hmem : c.2 ∈ onDev c.1 (rs.flatMap (·.chunks p.dev)) :=
      mem_onDev.2 (List.mem_flatMap.2 ⟨r, hr, hc⟩)
    obtain ⟨w, hw, hwd, hsome, hnone⟩ := exists_not_moved ⟨_, hmem, hd⟩
    obtain ⟨v, hv⟩ := Option.ne_none_iff_exists'.1 hsome
    -- images in which this byte is another one
    obtain ⟨q, hq⟩ := Option.isSome_iff_exists.1 (hok (fun d => filled (p.dev d).dvSize (v + 1))
      fun _ => rfl)
    obtain ⟨hprim, hback⟩ := replicate_imgs h hq c.1
    have hlt : w.off < (p.dev c.1).dvSize := by
      obtain ⟨r', -, hr'⟩ := List.mem_flatMap.1 (mem_onDev.1 hw)
      have hstop : w.off + w.data.length ≤ (p.dev c.1).dvSize :=
        entryChunks_stop_le (mem_chunks.1 hr').2.2 hwd
      have := List.length_pos_of_ne_nil hwd
      omega
    have hbyte := congrArg (fun f : File UInt8 => f.byte w.off) (heq _ (fun _ => rfl) q hq c.1)
    simp only [hprim, hback, File.byte_writeAll, hv, hnone, Option.getD_none, Option.getD_some,
      filled, if_pos hlt] at hbyte
    simp at hbyte
  · intro hempty img _ q hq d
    obtain ⟨hprim, hback⟩ := replicate_imgs h hq d
    have hws : ∀ w ∈ onDev d (rs.flatMap (·.chunks p.dev)), w.data = [] := by
      intro w hw
      obtain ⟨r, hr, hc⟩ := List.mem_flatMap.1 (mem_onDev.1 hw)
      exact hempty r hr _ hc
    have hmoved : ∀ w ∈ (onDev d (rs.flatMap (·.chunks p.dev))).map moved, w.data = [] :=
      List.forall_mem_map.2 hws
    rw [hprim, hback, File.writeAll_of_empty _ hws, File.writeAll_of_empty _ hmoved]

/-! ### A write that the backup puts elsewhere -/

def Member.sample (i : ℕ) : Member :=
  { Member.init i 3 (fun _ => .sample) 0 with
    synchronized := true, fsm := .synchronized, primaryMbr := some 0, nrNodes := 2, nrSync := 2,
    bmNodes := {0, 1}, bmSync := {0, 1}, dev := fun _ => .sample }

theorem Replicas.sample : Replicas (.sample 0) (.sample 1) where
  idle := rfl
  dcNodes := by decide
  nodes := by decide
  backup := ⟨rfl, rfl, by decide⟩

/-- Two requests that write nothing: an empty entry, and four bytes at the end of the device. -/
def Request.empties : List Request :=
  [⟨5, 0, 0, [(0, 0)], fun _ => 7⟩, ⟨5, 0, 16, [(0, 4)], fun _ => 7⟩]

theorem Request.noBytes_empties : ∀ r ∈ Request.empties, r.NoBytes (Member.sample 0).dev := by
  simp only [empties, List.forall_mem_cons]
  refine ⟨fun d _ _ _ => by simp, fun d _ _ hlt => ?_, by simp⟩
  exact absurd hlt (by show ¬ (16 : ℤ) < (16 : ℕ); decide)

theorem replicate_empties_isSome (img : Fin nrDevs → File UInt8) :
    (replicate .sample (fun _ => []) Request.empties (.sample 0) (.sample 1) img).isSome := rfl

/-- A group of two members and two requests that write nothing: the images stay the same. -/
theorem images_eq_empties : ∃ q, replicate .sample (fun _ => []) Request.empties (.sample 0)
    (.sample 1) (fun _ => filled 16 3) = some q ∧ ∀ d, (q.2.dev d).img = (q.1.dev d).img := by
  obtain ⟨q, hq⟩ := Option.isSome_iff_exists.1 (replicate_empties_isSome fun _ => filled 16 3)
  exact ⟨q, hq, (images_eq_iff .sample (fun _ => []) .sample Request.empties
    fun img _ => replicate_empties_isSome img).2 Request.noBytes_empties _ (fun _ => rfl) q hq⟩

def Request.sample : Request := ⟨5, 0, 0, [(0, 4)], fun _ => 7⟩

/-- Four bytes written at the offset 0: the backup has them at the offset 4. -/
theorem backup_image_differs : Replicas (.sample 0) (.sample 1) ∧
    ∃ q, replicate .sample (fun _ => []) [.sample] (.sample 0) (.sample 1) (fun _ => filled 16 0) =
        some q ∧
      (q.1.dev 0).img.byte 0 = 7 ∧ (q.2.dev 0).img.byte 0 = 0 ∧ (q.2.dev 0).img.byte 4 = 7 :=
  ⟨.sample, _, rfl, by decide, by decide, by decide⟩

end Rdisk

end MolIpc
