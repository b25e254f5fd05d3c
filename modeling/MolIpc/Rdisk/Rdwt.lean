import MolIpc.Rdisk.Device

/-!
`do_rdwt` with `m_transfer` on the primary, one request of one entry: what the calls `mnx_vcopy`,
`pread` and `pwrite` return is any sequence of results, and the acknowledges of the backups come for
every entry whose last chunk has been multicast.

`bytes`, `count`, `stbytes` and `iov_size` are unsigned, so that the tests for a negative result of
`pread` and `pwrite` never hold. A `pread` that fails has `mnx_vcopy` asked for `-1` bytes, which it
refuses; after a `pwrite` that fails the loop goes on one byte before.
-/

namespace MolIpc.Rdisk.Rdwt

/-! ### The loops -/

/-- Whether `mnx_vcopy` succeeds for a chunk, and the bytes that `pread` or `pwrite` moves if it is
asked for that many (`none` for an error). -/
structure Call where
  vcopy : Bool
  io : Option ℕ

/-- A `DEV_READ` or `DEV_WRITE` with the numbers of nodes that `m_transfer` reads. -/
structure Rqst where
  write : Bool
  position : ℤ
  address : ℤ
  count : ℕ
  dcNrNodes : ℤ
  nrNodes : ℤ
  count_lt : count < 2 ^ 31

/-- Before a turn of `while (nr_req > 0)`, before a chunk, waiting for acknowledges that nobody
sends, or back with a value. -/
inductive Phase
  | top
  | chunk
  | blocked
  | done (v : ℤ)
  deriving DecidableEq

structure St where
  dev : ℤ → UInt8
  user : ℤ → UInt8
  position : ℤ
  addr : ℤ
  size : ℕ
  count : ℕ := 0
  stbytes : ℕ := 0
  tbytes : ℕ := 0
  phase : Phase := .top
  /-- The calls made. -/
  calls : ℕ := 0
  /-- Where `pread` and `pwrite` were called, and for how many bytes. -/
  log : List (ℤ × ℕ) := []

/-- A value of type `unsigned`. -/
def u32 (x : ℤ) : ℕ := (x % 2 ^ 32).toNat

def put (f : ℤ → UInt8) (a : ℤ) (n : ℕ) (g : ℤ → UInt8) : ℤ → UInt8 := fun x =>
  if a ≤ x ∧ x < a + n then g (x - a) else f x

namespace St

variable (rq : Rqst) (d : Dev) (s : St)

/-- The end of `do_rdwt`, with the value of `m_transfer`. -/
def finish (r : ℤ) : St :=
  { s with phase := .done (if r = EMol.ok then rq.count - s.size else r) }

def book : St :=
  let s := { s with size := u32 (s.size - s.stbytes), tbytes := u32 (s.tbytes + s.stbytes) }
  if s.size = 0 then s.finish rq s.tbytes else { s with phase := .top }

/-- The beginning of a turn. With a `dc_nr_nodes` of 1 nothing is written. -/
def top : St :=
  match d.clip s.position s.size with
  | none => s.finish rq EMol.ok
  | some (_, count) =>
    let s := { s with count, stbytes := 0 }
    if rq.write ∧ ¬1 < rq.dcNrNodes then s.book rq else { s with phase := .chunk }

/-- The end of the loop of chunks. A primary whose copy failed waits for the acknowledges all the
same. -/
def leave (whole : Bool) : St :=
  if rq.write ∧ 1 < rq.nrNodes ∧ ¬whole then { s with phase := .blocked } else s.book rq

def advance (b : ℤ) : St :=
  let s := { s with position := s.position + b, addr := s.addr + b, count := u32 (s.count - b) }
  if 0 < s.count then s else s.leave rq true

def copy (b : ℕ) : St :=
  { s with
    dev := if rq.write then put s.dev s.position b fun i => s.user (s.addr + i) else s.dev
    user := if rq.write then s.user else put s.user s.addr b fun i => s.dev (s.position + i) }

def move (n b : ℕ) : St := ({ s with stbytes := u32 (s.stbytes + n) }.copy rq b).advance rq b

/-- One chunk. -/
def chunk (c : Call) : St :=
  let asked := min s.count d.buffSize
  let s := { s with calls := s.calls + 1 }
  let called := { s with log := s.log ++ [(s.position, asked)] }
  match rq.write, c.vcopy, c.io with
  | true, false, _ => s.leave rq false
  | true, true, none => { called with stbytes := u32 (s.stbytes + asked) }.advance rq (-1)
  | true, true, some n => called.move rq asked (min n asked)
  | false, true, some n => called.move rq (min n asked) (min n asked)
  | false, _, _ => called.leave rq false

def step (results : ℕ → Call) : St :=
  match s.phase with
  | .top => s.top rq d
  | .chunk => s.chunk rq d (results s.calls)
  | _ => s

end St

def start (rq : Rqst) (dev user : ℤ → UInt8) : St where
  dev := dev
  user := user
  position := rq.position
  addr := rq.address
  size := rq.count

/-! ### What a request owes -/

variable (rq : Rqst) (d : Dev) (dev user : ℤ → UInt8) (results : ℕ → Call)

/-- `k` bytes of the buffer and of the device from the position on are the same, moved in the
direction of the request, and nothing else has changed. -/
def Copied (k : ℕ) (s : St) : Prop :=
  s.dev = (if rq.write then put dev rq.position k fun i => user (rq.address + i) else dev) ∧
    s.user = if rq.write then user else put user rq.address k fun i => dev (rq.position + i)

/-- `pread` and `pwrite` were called for bytes of the device. -/
def Inside (s : St) : Prop := ∀ a ∈ s.log, 0 ≤ a.1 ∧ a.1 + a.2 ≤ d.dvSize

/-- Behind the end of the device, where a negative position is too: `dv_size` is unsigned. -/
def Beyond (position : ℤ) : Prop := position < 0 ∨ d.dvSize ≤ position

instance (position : ℤ) : Decidable (Beyond d position) :=
  inferInstanceAs (Decidable (_ ∨ _))

def room : ℤ :=
  if Beyond d rq.position then 0 else min (rq.count : ℤ) (d.dvSize - rq.position)

def Fine : Prop :=
  ∀ i, (results i).vcopy = true ∧
    ∃ n, (results i).io = some n ∧ if rq.write then d.buffSize ≤ n else 0 < n

/-- The request comes back, having stayed on the device, with an error or with the bytes moved,
which are all that there are if no call failed. -/
def Served : Prop :=
  ∃ n v, let s := (St.step rq d · results)^[n] (start rq dev user)
    s.phase = .done v ∧ Inside d s ∧ (v < 0 ∨ ∃ k : ℕ, v = k ∧ Copied rq dev user k s) ∧
      (Fine rq d results → v = room rq d)

/-! ### One turn -/

structure Part (K m : ℕ) (s : St) : Prop where
  le : m ≤ K
  count : s.count = K - m
  position : s.position = rq.position + m
  addr : s.addr = rq.address + m
  stbytes : s.stbytes = m
  size : s.size = rq.count
  tbytes : s.tbytes = 0
  copied : Copied rq dev user m s
  log : Inside d s

def Short (K : ℕ) : Prop :=
  ¬Beyond d rq.position ∧ (K : ℤ) = min (rq.count : ℤ) (d.dvSize - rq.position)

structure Back (K : ℕ) (s : St) : Prop where
  phase : s.phase = .done K
  copied : Copied rq dev user K s
  log : Inside d s

structure Stays (s : St) : Prop where
  position : s.position = rq.position
  size : s.size = rq.count
  phase : s.phase = .top ∨ s.phase = .blocked ∨
    s.phase = .chunk ∧ s.stbytes = 0 ∧ ∀ i, (results i).vcopy = false

variable {rq d dev user results} {m K : ℕ} {s : St} {position : ℤ}

theorem clip_beyond (h : Beyond d position) (size : ℕ) :
    d.clip position size = none := if_pos h

theorem clip_inside (h : ¬Beyond d position) (size : ℕ) :
    ∃ p K : ℕ, d.clip position size = some (p, K) ∧
      (K : ℤ) = min (size : ℤ) (d.dvSize - position) := by
  unfold Beyond at h
  unfold Dev.clip
  rw [if_neg h]
  split_ifs with hlt
  · exact ⟨_, _, rfl, by omega⟩
  · exact ⟨_, _, rfl, by omega⟩

theorem u32_of_lt {x : ℤ} (h0 : 0 ≤ x) (h : x < 2 ^ 32) : (u32 x : ℤ) = x := by
  unfold u32
  omega

@[simp] theorem put_zero (f g : ℤ → UInt8) (a : ℤ) : put f a 0 g = f := by
  funext x
  exact if_neg (by push_cast; omega)

theorem put_put (f g : ℤ → UInt8) (a : ℤ) (m n : ℕ) :
    put (put f a m g) (a + m) n (fun i => g (m + i)) = put f a (m + n) g := by
  funext x
  unfold put
  push_cast
  split_ifs <;> first
    | rfl
    | omega
    | exact congrArg g (by omega)

theorem Copied.copy (h : Copied rq dev user m s) (hp : s.position = rq.position + m)
    (ha : s.addr = rq.address + m) (b : ℕ) : Copied rq dev user (m + b) (s.copy rq b) := by
  unfold Copied at h ⊢
  simp only [St.copy, h.1, h.2, hp, ha, Int.add_assoc]
  split_ifs
  · exact ⟨put_put .., rfl⟩
  · exact ⟨rfl, put_put ..⟩

theorem Part.move (h : Part rq d dev user K m s) (hK : Short rq d K) {b : ℕ} (hb : m + b ≤ K) :
    ∃ t, Part rq d dev user K (m + b) t ∧ t.phase = s.phase ∧
      s.move rq b b = if 0 < t.count then t else t.book rq := by
  have hlt := rq.count_lt
  have hKc := hK.2
  have hcount := h.count
  have hst := h.stbytes
  have hp := h.position
  have ha := h.addr
  have h1 := u32_of_lt (x := s.stbytes + b) (by omega) (by omega)
  have h2 := u32_of_lt (x := s.count - b) (by omega) (by omega)
  refine ⟨{ s.copy rq b with
    position := s.position + b, addr := s.addr + b, count := u32 (s.count - b),
    stbytes := u32 (s.stbytes + b) }, ⟨hb, ?_, ?_, ?_, ?_, h.size, h.tbytes,
      h.copied.copy hp ha b, h.log⟩, rfl, ?_⟩
  iterate 4
    · dsimp only
      omega
  · simp only [St.move, St.copy, St.advance, St.leave, not_true_eq_false, and_false, if_false]

theorem Part.book (h : Part rq d dev user K K s) (hK : Short rq d K) :
    ∃ n, Back rq d dev user K ((St.step rq d · results)^[n] (s.book rq)) := by
  have hlt := rq.count_lt
  have hKc := hK.2
  have hsize := h.size
  have hst := h.stbytes
  have htb := h.tbytes
  have h1 := u32_of_lt (x := s.size - s.stbytes) (by omega) (by omega)
  have h2 := u32_of_lt (x := s.tbytes + s.stbytes) (by omega) (by omega)
  unfold St.book
  dsimp only
  split_ifs with h0
  · refine ⟨0, ?_, h.copied, h.log⟩
    simp only [Function.iterate_zero, id_eq, St.finish, EMol.ok, Phase.done.injEq]
    split_ifs <;> omega
  · have hend : Beyond d s.position := by
      have := h.position
      unfold Beyond
      omega
    refine ⟨1, ?_⟩
    simp only [Function.iterate_one, St.step, St.top, clip_beyond hend]
    refine ⟨?_, h.copied, h.log⟩
    simp only [St.finish, if_true, Phase.done.injEq]
    omega

theorem Part.chunk (h : Part rq d dev user K m s) (hK : Short rq d K) (hf : Fine rq d results)
    (hph : s.phase = .chunk) :
    ∃ b t, (m < K → 0 < b) ∧ Part rq d dev user K (m + b) t ∧ t.phase = .chunk ∧
      s.step rq d results = if 0 < t.count then t else t.book rq := by
  obtain ⟨hv, n, hio, hn⟩ := hf s.calls
  have hpos := d.buffSize_pos
  have hle := h.le
  have hcount := h.count
  have hp := h.position
  obtain ⟨hin, hmin⟩ := hK
  have hasked : min n (min s.count d.buffSize) ≤ s.count := by omega
  -- the state in which the bytes are moved: one more call, which stays on the device
  have hcalled : Part rq d dev user K m
      { s with calls := s.calls + 1, log := s.log ++ [(s.position, min s.count d.buffSize)] } := by
    refine { h with log := ?_, copied := h.copied }
    intro a ha
    rcases List.mem_append.mp ha with ha | ha
    · exact h.log a ha
    · rw [List.mem_singleton.mp ha]
      unfold Beyond at hin
      omega
  obtain ⟨t, ht, htp, heq⟩ := hcalled.move ⟨hin, hmin⟩ (b := min n (min s.count d.buffSize)) (by omega)
  refine ⟨_, t, fun hm => ?_, ht, htp.trans hph, ?_⟩
  · split_ifs at hn <;> omega
  · rw [← heq]
    simp only [St.step, hph, St.chunk, hv, hio]
    cases hw : rq.write with
    | false => rfl
    | true =>
      have hall : min n (min s.count d.buffSize) = min s.count d.buffSize := by
        rw [if_pos hw] at hn
        omega
      dsimp only
      rw [hall]

theorem Part.ends (h : Part rq d dev user K m s) (hK : Short rq d K) (hf : Fine rq d results)
    (hph : s.phase = .chunk) : ∃ n, Back rq d dev user K ((St.step rq d · results)^[n] s) := by
  -- on the bytes left; an entry without bytes takes one chunk too
  induction hj : K - m using Nat.strong_induction_on generalizing m s with
  | _ j ih =>
    obtain ⟨b, t, hb, ht, htp, heq⟩ := h.chunk hK hf hph
    have hle := ht.le
    have hc := ht.count
    have hrest : ∃ n, Back rq d dev user K
        ((St.step rq d · results)^[n] (s.step rq d results)) := by
      by_cases hmore : 0 < t.count
      · rw [heq, if_pos hmore]
        exact ih _ (by omega) ht htp rfl
      · obtain rfl : K = m + b := by omega
        rw [heq, if_neg hmore]
        exact ht.book hK
    obtain ⟨n, hn⟩ := hrest
    exact ⟨n + 1, by simpa only [Function.iterate_succ_apply] using hn⟩

/-! ### Requests that do not come back -/

section Stays

variable (hp : s.position = rq.position) (hs : s.size = rq.count) (h0 : s.stbytes = 0)
  (hc : 0 < rq.count)

include hp hs h0 hc

theorem stays_book : Stays rq results (s.book rq) := by
  have hlt := rq.count_lt
  have hsize := u32_of_lt (x := s.size - s.stbytes) (by omega) (by omega)
  unfold St.book
  dsimp only
  rw [if_neg (by omega)]
  exact ⟨hp, by dsimp only; omega, .inl rfl⟩

theorem stays_leave (whole : Bool) : Stays rq results (s.leave rq whole) := by
  unfold St.leave
  split_ifs
  · exact ⟨hp, hs, .inr (.inl rfl)⟩
  · exact stays_book hp hs h0 hc

end Stays

theorem Stays.step (h : Stays rq results s) (hc : 0 < rq.count) (hin : ¬Beyond d rq.position)
    (hfail : (∀ i, (results i).vcopy = false) ∨ rq.write ∧ ¬1 < rq.dcNrNodes) :
    Stays rq results (s.step rq d results) := by
  rcases h.phase with hph | hph | ⟨hph, h0, hv⟩
  · obtain ⟨p, K, hclip, -⟩ := clip_inside (h.position ▸ hin) s.size
    simp only [St.step, hph, St.top, hclip]
    split_ifs with hw
    · exact stays_book h.position h.size rfl hc
    · exact ⟨h.position, h.size, .inr (.inr ⟨rfl, rfl, hfail.resolve_right hw⟩)⟩
  · simpa only [St.step, hph] using h
  · simp only [St.step, hph, St.chunk, hv s.calls]
    cases rq.write <;> cases (results s.calls).io
    all_goals
      refine stays_leave ?_ ?_ ?_ hc false
      exacts [h.position, h.size, h0]

theorem not_served (hc : 0 < rq.count) (hin : ¬Beyond d rq.position)
    (hfail : (∀ i, (results i).vcopy = false) ∨ rq.write ∧ ¬1 < rq.dcNrNodes) :
    ¬Served rq d dev user results := by
  rintro ⟨n, v, hdone, -⟩
  have hrun : ∀ n, Stays rq results ((St.step rq d · results)^[n] (start rq dev user)) := by
    intro n
    induction n with
    | zero => exact ⟨rfl, rfl, .inl rfl⟩
    | succ n ih =>
      rw [Function.iterate_succ_apply']
      exact ih.step hc hin hfail
  rcases (hrun n).phase with hph | hph | ⟨hph, -⟩ <;> simp [hph] at hdone

/-! ### Requests that come back -/

theorem Back.served {n : ℕ}
    (h : Back rq d dev user K ((St.step rq d · results)^[n] (start rq dev user)))
    (hK : (K : ℤ) = room rq d) : Served rq d dev user results :=
  ⟨n, K, h.phase, h.log, .inr ⟨K, rfl, h.copied⟩, fun _ => hK⟩

theorem served_beyond (hb : Beyond d rq.position) : Served rq d dev user results := by
  refine Back.served (n := 1) ⟨?_, ?_, ?_⟩ (if_pos hb).symm
  all_goals simp [St.step, start, St.top, clip_beyond hb, St.finish, EMol.ok, Copied, Inside]

theorem served_inside (hf : Fine rq d results) (hin : ¬Beyond d rq.position)
    (hw : rq.write ∧ ¬1 < rq.dcNrNodes → rq.count = 0) : Served rq d dev user results := by
  obtain ⟨p, K, hclip, hK⟩ := clip_inside hin rq.count
  let t (ph : Phase) : St := { start rq dev user with count := K, phase := ph }
  have hpart : ∀ ph, Part rq d dev user K 0 (t ph) :=
    fun ph => ⟨Nat.zero_le K, rfl, by simp [t, start], by simp [t, start], rfl, rfl, rfl,
      by simp [Copied, t, start], by simp [Inside, t, start]⟩
  have htop : (start rq dev user).step rq d results =
      if rq.write ∧ ¬1 < rq.dcNrNodes then (t .top).book rq else t .chunk := by
    simp only [t, St.step, St.top, start, hclip]
  have hrun : ∃ n, Back rq d dev user K
      ((St.step rq d · results)^[n] ((start rq dev user).step rq d results)) := by
    rw [htop]
    split_ifs with h1
    · obtain rfl : K = 0 := by
        have := hw h1
        unfold Beyond at hin
        omega
      exact (hpart .top).book ⟨hin, hK⟩
    · exact (hpart .chunk).ends ⟨hin, hK⟩ hf rfl
  obtain ⟨n, hn⟩ := hrun
  exact Back.served (n := n + 1) hn (by rw [room, if_neg hin, hK])

/-- **Disk requests.** A request with bytes to move comes back right after all results iff it is
behind the end of the device, and after no failure iff it does not write in a DC of one node, or has
nothing to move. -/
theorem served_iff (rq : Rqst) (d : Dev) (dev user : ℤ → UInt8) :
    (0 < rq.count → ((∀ results, Served rq d dev user results) ↔ Beyond d rq.position)) ∧
    ∀ results, Fine rq d results → (Served rq d dev user results ↔
      (rq.write → 1 < rq.dcNrNodes) ∨ Beyond d rq.position ∨ rq.count = 0) := by
  constructor
  · intro hc
    refine ⟨fun h => ?_, fun hb _ => served_beyond hb⟩
    by_contra hin
    exact not_served hc hin (.inl fun _ => rfl) (h fun _ => ⟨false, none⟩)
  · intro results hf
    constructor
    · intro h
      by_contra! hno
      obtain ⟨⟨hw, hn⟩, hin, h0⟩ := hno
      exact not_served (Nat.pos_of_ne_zero h0) hin (.inr ⟨hw, not_lt.mpr hn⟩) h
    · intro h
      by_cases hb : Beyond d rq.position
      · exact served_beyond hb
      · exact served_inside hf hb (by tauto)

def Rqst.sample (dcNrNodes : ℤ) : Rqst := ⟨true, 3, 100, 1, dcNrNodes, 1, by decide⟩

/-- **Witness.** With two nodes and no failure the byte is written. -/
theorem served_sample :
    Fine (.sample 2) .sample (fun _ => ⟨true, some 4⟩) ∧
      Served (.sample 2) .sample (fun _ => 0) (fun _ => 7) fun _ => ⟨true, some 4⟩ :=
  have hf : Fine (.sample 2) .sample (fun _ => ⟨true, some 4⟩) := fun _ => ⟨rfl, 4, rfl, by decide⟩
  have hs := (served_iff (.sample 2) .sample (fun _ => 0) fun _ => 7).2 _ hf
  ⟨hf, hs.mpr (.inl fun _ => by decide)⟩

/-- **Counterexample.** With one node it never comes back, although no call fails. -/
theorem sample_not_served :
    Fine (.sample 1) .sample (fun _ => ⟨true, some 4⟩) ∧
      ¬Served (.sample 1) .sample (fun _ => 0) (fun _ => 7) fun _ => ⟨true, some 4⟩ :=
  ⟨fun _ => ⟨rfl, 4, rfl, by decide⟩,
    not_served (by decide) (by decide) (.inr ⟨rfl, by decide⟩)⟩

end MolIpc.Rdisk.Rdwt
