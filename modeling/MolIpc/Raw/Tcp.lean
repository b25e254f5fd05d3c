import MolIpc.Raw.Frames
import MolIpc.Rdisk.Device

/-!
The TCP proxies (`proxy/lz4tcp_th_proxy.c`). `ps_send_remote` writes a header and its payload, as it
is or compressed, on the connection. The receiver thread puts the results of its `recv` calls
together and hands the commands to `mnx_put2lcl`. How the stream is cut into these results does not
matter, and the commands that have come whole are handed over as they were sent. When the peer
closes the connection inside a payload, the rest of it is what the buffer held before, and when it
closes between two commands, the receiver goes on calling `recv`.

The calls `send` succeed and the kernel takes what it is handed, so the binding of remote clients
that `pr_process_message` tries after a refusal is left out.
-/

namespace MolIpc.Tcp

open Raw (Header hasPayload cmdNone cmdCopyinData)
open Rdisk (Lz4)

variable {α σ : Type*}

/-- LZ4 frames. The decompression context, of type `σ`, outlives a frame that has not ended. -/
structure Frames (σ : Type*) where
  compressFrame : List UInt8 → List UInt8
  fresh : σ
  decompress : σ → List UInt8 → Option (σ × List UInt8)
  frame_ne_nil : ∀ x, compressFrame x ≠ []
  decompress_frame : ∀ x, decompress fresh (compressFrame x) = some (fresh, x)

/-! ### The sender -/

/-- The bytes of a `proxy_hdr_t`, with `CMD_LZ4_FLAG` in its `c_flags` or not. The counts are of C's
type `int`. -/
structure Codec (α : Type*) where
  size : ℕ
  encode : Header α × Bool → List UInt8
  decode : List UInt8 → Header α × Bool
  size_pos : 0 < size
  length_encode : ∀ h, (encode h).length = size
  decode_encode : ∀ h, h.1.len < 2 ^ 31 → h.1.vBytes < 2 ^ 31 → decode (encode h) = h

/-- A command in the buffers of the sender, as `mnx_get2rmt` leaves it: `proxy_payload_t` has 65536
bytes. -/
structure Command (α : Type*) where
  hdr : Header α
  pay : List UInt8
  len_eq : hdr.len = pay.length
  len_le : hdr.len ≤ 65536
  vBytes_lt : hdr.vBytes < 2 ^ 31
  vBytes_eq : hasPayload hdr.cmd → hdr.vBytes = pay.length

variable (C : Codec α) (lz : Frames σ)

/-- `ps_send_remote`: the header as it is sent and the bytes behind it, `none` for `EMOLPACKSIZE`. -/
def psSendRemote (m : Command α) : Option ((Header α × Bool) × List UInt8) :=
  if hasPayload m.hdr.cmd then
    if m.hdr.len = 0 then none
    else
      let comp := lz.compressFrame m.pay
      if comp.length < m.hdr.len then some (({ m.hdr with len := comp.length }, true), comp)
      else some ((m.hdr, false), m.pay)
  else if m.hdr.len ≠ 0 then none
  else some ((m.hdr, false), [])

/-- What a command adds to the stream. -/
def bytes (m : Command α) : List UInt8 :=
  match psSendRemote lz m with
  | none => []
  | some (h, pay) => C.encode h ++ pay

/-- What the kernel of the receiver is to get for it; a `CMD_NONE` is a hello of the sender. -/
def due (m : Command α) : List (Header α × List UInt8) :=
  if (psSendRemote lz m).isSome ∧ m.hdr.cmd ≠ cmdNone then [(m.hdr, m.pay)] else []

/-! ### The receiver -/

/-- `left`: it has left its loop, and `DISCONNECT_RPROXY` follows. `overrun`: it has written more
than `td_comp_pl` holds, and nothing is said of what follows. -/
inductive Status
  | running
  | left
  | exited
  | overrun
  deriving DecidableEq, Repr

/-- The header whose payload the receiver waits for, what has come of the header or payload, the
decompression context, and what it has handed over. -/
structure Receiver (α σ : Type*) where
  wait : Option (Header α × Bool) := none
  buf : List UInt8 := []
  ctx : σ
  handed : List (Header α × List UInt8) := []
  status : Status := .running

/-- The end of the connection as a call of `recv` sees it: a failure, which sets `errno`, or a
result of zero, and what `td_comp_pl` holds. -/
structure Ending where
  failed : Bool
  errno : ℕ
  stale : ℕ → UInt8
  errno_ne_zero : failed = true → errno ≠ 0

namespace Receiver

/-- `td_maxCsize` of `init_decompression`: a payload and `LZ4_HEADER_SIZE`, `LZ4_FOOTER_SIZE`. -/
def maxCsize : ℕ := 65536 + 19 + 4

def hand (r : Receiver α σ) (h : Header α) (pay : List UInt8) : Receiver α σ :=
  { r with handed := r.handed ++ [(h, pay)] }

/-- `pr_process_message` with a header; `c_len > 0` is a comparison of C's `int`. -/
def header (r : Receiver α σ) (h : Header α × Bool) : Receiver α σ :=
  if h.1.cmd = cmdNone then r
  else if hasPayload h.1.cmd ∧ 0 < h.1.len ∧ h.1.len < 2 ^ 31 then
    if maxCsize < h.1.len then { r with status := .overrun }
    else { r with wait := some h }
  else r.hand h.1 []

/-- `pr_process_message` after `pr_receive_payload`. -/
def payload (r : Receiver α σ) (h : Header α × Bool) (pay : List UInt8) : Receiver α σ :=
  if h.2 then
    match lz.decompress r.ctx pay with
    | none => { r with status := .exited }
    | some (ctx, raw) =>
      if raw.length ≠ h.1.vBytes then { r with status := .exited }
      else { r with ctx := ctx }.hand { h.1 with len := raw.length } raw
  else r.hand h.1 pay

variable (r : Receiver α σ)

/-- The bytes that the current loop of `recv` calls is for. -/
def wanted : ℕ :=
  match r.wait with
  | none => C.size
  | some h => h.1.len

/-- A result of `recv` in `pr_receive_header` or `pr_receive_payload`. -/
def recv (bs : List UInt8) : Receiver α σ :=
  if r.status ≠ .running then r
  else if (r.buf ++ bs).length < r.wanted C then { r with buf := r.buf ++ bs }
  else
    let done := { r with wait := none, buf := [] }
    match r.wait with
    | none => done.header (C.decode (r.buf ++ bs))
    | some h => done.payload lz h (r.buf ++ bs)

def serve (cs : List (List UInt8)) : Receiver α σ := cs.foldl (recv C lz) r

/-- A result of `recv` that is not above zero. `pr_receive_header` returns `errno`, so that a header
counts as received when it is zero; `pr_receive_payload` returns `OK` unless the call has failed. -/
def shut (e : Ending) : Receiver α σ :=
  if r.status ≠ .running then r
  else
    let done := { r with wait := none, buf := [] }
    match r.wait with
    | none =>
      if e.errno = 0 then
        -- `td_header` was zero before the first byte
        done.header (C.decode (r.buf ++ List.replicate (C.size - r.buf.length) 0))
      else if (e.errno : ℤ) = EMol.notconn then { r with status := .left }
      else done
    | some h =>
      if e.failed ∧ e.errno ≠ 0 then { r with status := .exited }
      else done.payload lz h (List.ofFn fun i : Fin h.1.len => r.buf.getD i (e.stale i))

/-- The receiver after so many more calls of `recv`. -/
def ended (e : ℕ → Ending) : ℕ → Receiver α σ
  | 0 => r
  | k + 1 => (ended e k).shut C lz (e k)

/-- A byte at a time. -/
def feed (bs : List UInt8) : Receiver α σ := bs.foldl (fun r b => r.recv C lz [b]) r

/-- Results above zero, none longer than what the call asks for. -/
def Cuts : Receiver α σ → List (List UInt8) → Prop
  | _, [] => True
  | r, bs :: cs => (bs ≠ [] ∧ bs.length ≤ r.wanted C - r.buf.length) ∧ Cuts (r.recv C lz bs) cs

/-- The receiver between two commands. -/
def idle (l : List (Header α × List UInt8)) : Receiver α σ := { ctx := lz.fresh, handed := l }

/-! ### The cut does not matter -/

variable {C lz} {r}

theorem recv_short (he : r.status = .running) {bs : List UInt8}
    (hlt : (r.buf ++ bs).length < r.wanted C) :
    r.recv C lz bs = { r with buf := r.buf ++ bs } := by
  rw [recv, if_neg (not_not.mpr he), if_pos hlt]

theorem recv_append {a b : List UInt8} (hb : b ≠ [])
    (hab : (a ++ b).length ≤ r.wanted C - r.buf.length) :
    (r.recv C lz a).recv C lz b = r.recv C lz (a ++ b) := by
  by_cases he : r.status = .running
  swap
  · simp [recv, he]
  have hlt : (r.buf ++ a).length < r.wanted C := by
    have hpos := List.length_pos_iff.mpr hb
    rw [List.length_append] at hab ⊢
    omega
  rw [recv_short he hlt]
  simp [recv, wanted, he]

theorem feed_append (a b : List UInt8) :
    r.feed C lz (a ++ b) = (r.feed C lz a).feed C lz b := List.foldl_append

theorem feed_eq_recv {bs : List UInt8} (hne : bs ≠ [])
    (hb : bs.length ≤ r.wanted C - r.buf.length) : r.feed C lz bs = r.recv C lz bs := by
  induction bs using List.reverseRecOn with
  | nil => exact absurd rfl hne
  | append_singleton bs b ih =>
    by_cases hbs : bs = []
    · subst hbs
      rfl
    have hle : bs.length ≤ r.wanted C - r.buf.length := by
      rw [List.length_append] at hb
      omega
    rw [feed_append, ih hbs hle]
    exact recv_append (List.cons_ne_nil b []) hb

theorem serve_eq_feed (cs : List (List UInt8)) : ∀ {r : Receiver α σ}, Cuts C lz r cs →
    r.serve C lz cs = r.feed C lz cs.flatten := by
  induction cs with
  | nil => exact fun _ => rfl
  | cons bs cs ih =>
    intro r hc
    rw [List.flatten_cons, feed_append, feed_eq_recv hc.1.1 hc.1.2]
    exact ih hc.2

/-- **The cut does not matter.** -/
theorem serve_of_flatten_eq {cs cs' : List (List UInt8)} (hc : Cuts C lz r cs)
    (hc' : Cuts C lz r cs') (heq : cs.flatten = cs'.flatten) :
    r.serve C lz cs = r.serve C lz cs' := by
  rw [serve_eq_feed cs hc, serve_eq_feed cs' hc', heq]

end Receiver

/-! ### Whole commands -/

open Receiver

variable {C lz} {l : List (Header α × List UInt8)} {m : Command α} {h : Header α × Bool}
  {pay : List UInt8}

/-- What is sent: data, which the receiver gets back whether it is compressed or not, or a header
alone. -/
theorem psSendRemote_cases (hm : psSendRemote lz m = some (h, pay)) :
    C.decode (C.encode h) = h ∧ h.1.cmd = m.hdr.cmd ∧
      ((hasPayload m.hdr.cmd ∧ pay ≠ [] ∧ h.1.len = pay.length ∧
          h.1.len ≤ maxCsize ∧ ∀ l, (idle lz l).payload lz h pay = (idle lz l).hand m.hdr m.pay) ∨
        ¬hasPayload m.hdr.cmd ∧ pay = [] ∧ h.1 = m.hdr ∧ m.pay = []) := by
  have hle := m.len_le
  have hl : m.hdr.len < 2 ^ 31 := by omega
  have hv := m.vBytes_lt
  unfold psSendRemote at hm
  dsimp only at hm
  split_ifs at hm with hd h0 hlen h0 <;> obtain ⟨rfl, rfl⟩ := Prod.mk.inj (Option.some.inj hm)
  · refine ⟨C.decode_encode _ (hlen.trans hl) hv, rfl,
      .inl ⟨hd, lz.frame_ne_nil _, rfl, (hlen.le.trans hle).trans (by decide), fun l => ?_⟩⟩
    have hraw : lz.decompress (idle lz l).ctx (lz.compressFrame m.pay) = some (lz.fresh, m.pay) :=
      lz.decompress_frame m.pay
    rw [payload, if_pos rfl, hraw]
    dsimp only
    rw [if_neg (not_not.mpr (m.vBytes_eq hd).symm), ← m.len_eq]
    rfl
  · refine ⟨C.decode_encode _ hl hv, rfl,
      .inl ⟨hd, fun hnil => h0 ?_, m.len_eq, hle.trans (by decide), ?_⟩⟩
    · rw [m.len_eq, hnil, List.length_nil]
    · simp [payload]
  · exact ⟨C.decode_encode _ hl hv, rfl, .inr ⟨hd, rfl, rfl,
      List.length_eq_zero_iff.mp (m.len_eq ▸ not_not.mp h0)⟩⟩

theorem feed_encode (hd : C.decode (C.encode h) = h) :
    feed C lz (idle lz l) (C.encode h) = (idle lz l).header h := by
  have hlen := C.length_encode h
  have hne : C.encode h ≠ [] := List.length_pos_iff.mp (hlen ▸ C.size_pos)
  rw [feed_eq_recv (r := idle lz l) hne hlen.le]
  simp [recv, idle, wanted, hlen, hd]

theorem ne_cmdNone {cmd : BitVec 32} (hd : hasPayload cmd) : cmd ≠ cmdNone := by
  rcases hd with rfl | rfl <;> decide

theorem header_data (hd : hasPayload h.1.cmd) (hlen : h.1.len = pay.length) (hne : pay ≠ [])
    (hle : h.1.len ≤ maxCsize) :
    (idle lz l).header h = { idle lz l with wait := some h } := by
  have hpos : 0 < h.1.len := hlen ▸ List.length_pos_iff.mpr hne
  have hlt : h.1.len < 2 ^ 31 := by unfold maxCsize at hle; omega
  rw [header, if_neg (ne_cmdNone hd), if_pos ⟨hd, hpos, hlt⟩, if_neg hle.not_gt]

theorem feed_bytes (m : Command α) :
    feed C lz (idle lz l) (bytes C lz m) = idle lz (l ++ due lz m) := by
  unfold bytes due
  cases hm : psSendRemote lz m with
  | none => simp [feed]
  | some s =>
    obtain ⟨hdec, hcmd, ⟨hd, hne, hlen, hle, hpay⟩ | ⟨hd, hnil, hh, hpay⟩⟩ :=
      psSendRemote_cases (C := C) hm
    · rw [feed_append, feed_encode hdec, header_data (hcmd ▸ hd) hlen hne hle,
        feed_eq_recv hne (by simp [idle, wanted, hlen])]
      have hrecv : recv C lz { idle lz l with wait := some s.1 } s.2 =
          (idle lz l).payload lz s.1 s.2 := by
        simp [recv, wanted, idle, hlen]
      rw [hrecv, hpay]
      simp [hand, idle, ne_cmdNone hd]
    · rw [feed_append, feed_encode hdec, hnil]
      by_cases hcn : m.hdr.cmd = cmdNone
      · simp [feed, header, hcmd, hcn, idle]
      · simp [feed, header, hh, hcn, hd, hpay, hand, idle]

theorem feed_wire (ms : List (Command α)) : ∀ l,
    feed C lz (idle lz l) (ms.flatMap (bytes C lz)) =
      idle lz (l ++ ms.flatMap (due lz)) := by
  induction ms with
  | nil => intro l; simp [feed]
  | cons m ms ih => intro l; rw [List.flatMap_cons, feed_append, feed_bytes, ih]; simp

/-- A command that has not come whole leaves the receiver waiting. -/
theorem feed_part {part : List UInt8} (hp : part <+: bytes C lz m)
    (hlt : part.length < (bytes C lz m).length) :
    (feed C lz (idle lz l) part).handed = l ∧
      (feed C lz (idle lz l) part).status = .running := by
  by_cases hnil : part = []
  · subst hnil
    exact ⟨rfl, rfl⟩
  unfold bytes at hp hlt
  cases hm : psSendRemote lz m with
  | none => simp [hm] at hlt
  | some s =>
    obtain ⟨hdec, hcmd, hs⟩ := psSendRemote_cases (C := C) hm
    simp only [hm] at hp hlt
    by_cases hsize : part.length < C.size
    · rw [feed_eq_recv (r := idle lz l) hnil hsize.le,
        recv_short rfl (by simpa [idle, wanted] using hsize)]
      exact ⟨rfl, rfl⟩
    -- the header is there, and some of the payload is not
    obtain ⟨rest, rfl⟩ : C.encode s.1 <+: part :=
      List.prefix_of_prefix_length_le (List.prefix_append _ _) hp (by rw [C.length_encode]; omega)
    have hrest : rest.length < s.2.length := by simpa using hlt
    obtain ⟨hd, hne, hlen, hle, -⟩ | ⟨-, hs, -⟩ := hs
    · rw [feed_append, feed_encode hdec, header_data (hcmd ▸ hd) hlen hne hle]
      by_cases hr : rest = []
      · subst hr
        exact ⟨rfl, rfl⟩
      rw [feed_eq_recv hr (by simpa [idle, wanted, hlen] using hrest.le),
        recv_short rfl (by simpa [idle, wanted, hlen] using hrest)]
      exact ⟨rfl, rfl⟩
    · simp [hs] at hrest

theorem prefix_flatMap {β γ : Type*} {f : β → List γ} (ms : List β) : ∀ {p : List γ},
    p <+: ms.flatMap f → ∃ done rest part, ms = done ++ rest ∧ p = done.flatMap f ++ part ∧
      (rest = [] ∧ part = [] ∨
        ∃ m ∈ rest.head?, part <+: f m ∧ part.length < (f m).length) := by
  induction ms with
  | nil => exact fun hp => ⟨[], [], [], rfl, by simpa using hp, .inl ⟨rfl, rfl⟩⟩
  | cons m ms ih =>
    intro p hp
    rw [List.flatMap_cons] at hp
    by_cases hlt : p.length < (f m).length
    · exact ⟨[], m :: ms, p, rfl, rfl, .inr ⟨m, rfl,
        List.prefix_of_prefix_length_le hp (List.prefix_append _ _) hlt.le, hlt⟩⟩
    obtain ⟨q, rfl⟩ := List.prefix_of_prefix_length_le (List.prefix_append _ _) hp (not_lt.mp hlt)
    obtain ⟨done, rest, part, rfl, rfl, hpart⟩ := ih ((List.prefix_append_right_inj _).mp hp)
    exact ⟨m :: done, rest, part, rfl, by simp, hpart⟩

theorem feed_prefix {sent : List (Command α)} {p : List UInt8}
    (hp : p <+: sent.flatMap (bytes C lz)) :
    ∃ done rest part, sent = done ++ rest ∧ p = done.flatMap (bytes C lz) ++ part ∧
      (∀ m ∈ rest.head?, part.length < (bytes C lz m).length) ∧
      (feed C lz (idle lz []) p).handed = done.flatMap (due lz) ∧
      (feed C lz (idle lz []) p).status = .running := by
  obtain ⟨done, rest, part, rfl, heq, hpart⟩ := prefix_flatMap sent hp
  refine ⟨done, rest, part, rfl, heq, ?_⟩
  rw [heq, feed_append, feed_wire, List.nil_append]
  rcases hpart with ⟨rfl, rfl⟩ | ⟨m, hm, hpre, hlt⟩
  · exact ⟨by simp, rfl, rfl⟩
  · refine ⟨fun m' hm' => ?_, feed_part hpre hlt⟩
    rwa [Option.mem_unique hm' hm]

/-- **Framing.** Of any beginning of the stream, however it is cut, the commands that have come
whole are handed over in their order and as they were sent; the next one is not whole yet. -/
theorem serve_whole {sent : List (Command α)} {cs : List (List UInt8)}
    (hp : cs.flatten <+: sent.flatMap (bytes C lz)) (hc : Cuts C lz (idle lz []) cs) :
    ∃ done rest part, sent = done ++ rest ∧ cs.flatten = done.flatMap (bytes C lz) ++ part ∧
      (∀ m ∈ rest.head?, part.length < (bytes C lz m).length) ∧
      (serve C lz (idle lz []) cs).handed = done.flatMap (due lz) ∧
      (serve C lz (idle lz []) cs).status = .running := by
  rw [serve_eq_feed cs hc]
  exact feed_prefix hp

/-! ### The end of the connection -/

theorem ended_failed {r : Receiver α σ} (hrun : r.status = .running) (hw : r.wait.isSome)
    {e : ℕ → Ending} (he : (e 0).failed) (k : ℕ) :
    r.ended C lz e (k + 1) = { r with status := .exited } := by
  obtain ⟨h, hw⟩ := Option.isSome_iff_exists.mp hw
  induction k with
  | zero => simp [ended, shut, hrun, hw, he, (e 0).errno_ne_zero he]
  | succ k ih =>
    rw [ended, ih]
    simp [shut]

/-- No value of `errno` is `EMOLNOTCONN`. -/
theorem ended_idle {e : ℕ → Ending} (he : ∀ k, (e k).errno ≠ 0) (k : ℕ) :
    (idle lz l).ended C lz e k = idle lz l := by
  induction k with
  | zero => rfl
  | succ k ih =>
    have hne : ((e k).errno : ℤ) ≠ EMol.notconn := by
      unfold EMol.notconn
      omega
    rw [ended, ih]
    simp [shut, idle, he k, hne]

variable (C lz) in
/-- What the receiver owes: the commands that have come whole, and after the end of the connection
nothing more; it leaves its loop then, or exits and the kernel unbinds the proxies. -/
structure Framed (sent : List (Command α)) (cs : List (List UInt8)) (ending : Option (ℕ → Ending)) :
    Prop where
  whole : ∃ done rest part, sent = done ++ rest ∧ cs.flatten = done.flatMap (bytes C lz) ++ part ∧
    (∀ m ∈ rest.head?, part.length < (bytes C lz m).length) ∧
    (serve C lz (idle lz []) cs).handed = done.flatMap (due lz)
  kept : ∀ e ∈ ending, ∀ k, ((serve C lz (idle lz []) cs).ended C lz e k).handed =
    (serve C lz (idle lz []) cs).handed
  leaves : ∀ e ∈ ending, ∃ k, ((serve C lz (idle lz []) cs).ended C lz e k).status = .left ∨
    ((serve C lz (idle lz []) cs).ended C lz e k).status = .exited

def bytesOf (n : ℕ) : List UInt8 :=
  [.ofNat n, .ofNat (n / 256), .ofNat (n / 65536), .ofNat (n / 16777216)]

def ofBytes (bs : List UInt8) (i : ℕ) : ℕ :=
  (bs.getD i 0).toNat + 256 * (bs.getD (i + 1) 0).toNat +
    65536 * (bs.getD (i + 2) 0).toNat + 16777216 * (bs.getD (i + 3) 0).toNat

def Codec.sample : Codec Unit where
  size := 13
  encode h := bytesOf h.1.cmd.toNat ++ bytesOf h.1.len ++ bytesOf h.1.vBytes ++
    [if h.2 then 1 else 0]
  decode bs := (⟨.ofNat 32 (ofBytes bs 0), ofBytes bs 4, ofBytes bs 8, ()⟩, bs.getD 12 0 == 1)
  size_pos := by decide
  length_encode _ := by simp [bytesOf]
  decode_encode h hl hv := by
    obtain ⟨⟨cmd, len, vBytes, _⟩, flag⟩ := h
    have hc := cmd.isLt
    dsimp only at hl hv
    have hcmd : cmd.toNat % 256 + 256 * (cmd.toNat / 256 % 256) +
        65536 * (cmd.toNat / 65536 % 256) + 16777216 * (cmd.toNat / 16777216 % 256) =
        cmd.toNat := by omega
    cases flag <;> simp [bytesOf, ofBytes, hcmd] <;> omega

def Command.sample : Command Unit where
  hdr := ⟨cmdCopyinData, 4, 4, ()⟩
  pay := [7, 7, 7, 7]
  len_eq := rfl
  len_le := by decide
  vBytes_lt := by decide
  vBytes_eq _ := rfl

theorem compressFrame_ne_nil (lz : Lz4) (x : List UInt8) : lz.compressFrame x ≠ [] := by
  intro hx
  -- nothing would be decoded as `x`, and so would be any other frame
  have hframe := lz.decompress_frame x (lz.compressFrame (0 :: x))
  have hother := lz.decompress_frame (0 :: x) []
  simp_all

def Frames.sample : Frames Unit where
  compressFrame := Lz4.sample.compressFrame
  fresh := ()
  decompress _ bs := (Lz4.sample.decompress bs).map ((), ·)
  frame_ne_nil := compressFrame_ne_nil Lz4.sample
  decompress_frame x := by
    have hraw := Lz4.sample.decompress_frame x []
    rw [List.append_nil] at hraw
    rw [hraw]
    rfl

/-- The command in three pieces, compressed to one byte, and the beginning of another one. -/
def pieces : List (List UInt8) :=
  [[5, 0, 0], [0, 1, 0, 0, 0, 4, 0, 0, 0, 1], [2], [5, 0]]

theorem pieces_prefix :
    pieces.flatten <+: [Command.sample, .sample].flatMap (bytes Codec.sample .sample) := by decide

theorem pieces_cuts : Cuts Codec.sample .sample (idle .sample []) pieces :=
  ⟨by decide, by decide, by decide, by decide, trivial⟩

/-- The first command is handed over, and the second one is not. -/
theorem serve_whole_pieces : ∃ done rest, [Command.sample, .sample] = done ++ rest ∧
    done.flatMap (due .sample) = [(Command.sample.hdr, Command.sample.pay)] ∧
    (serve Codec.sample .sample (idle .sample []) pieces).handed = done.flatMap (due .sample) := by
  obtain ⟨done, rest, -, hs, -, -, hh, -⟩ := serve_whole pieces_prefix pieces_cuts
  exact ⟨done, rest, hs, hh.symm.trans rfl, hh⟩

theorem serve_pieces_eq : serve Codec.sample .sample (idle .sample []) pieces =
    serve Codec.sample .sample (idle .sample [])
      [[5, 0, 0, 0, 1, 0, 0, 0, 4, 0, 0, 0, 1], [2], [5], [0]] :=
  serve_of_flatten_eq pieces_cuts ⟨by decide, by decide, by decide, by decide, trivial⟩ rfl

/-- Two bytes of data, which are not compressed. -/
def Command.pair : Command Unit where
  hdr := ⟨cmdCopyinData, 2, 2, ()⟩
  pay := [1, 2]
  len_eq := rfl
  len_le := by decide
  vBytes_lt := by decide
  vBytes_eq _ := rfl

/-- The header of the command and one of the bytes. -/
def half : List (List UInt8) := [[5, 0, 0, 0, 2, 0, 0, 0, 2, 0, 0, 0, 0], [1]]

theorem half_prefix : half.flatten <+: [Command.pair].flatMap (bytes Codec.sample .sample) := by
  decide

theorem half_cuts : Cuts Codec.sample .sample (idle .sample []) half :=
  ⟨by decide, by decide, trivial⟩

/-- The peer has closed the connection, and `td_comp_pl` is zero. -/
def closed (errno : ℕ) : ℕ → Ending := fun _ => ⟨false, errno, fun _ => 0, by simp⟩

end MolIpc.Tcp
