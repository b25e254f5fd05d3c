import MolIpc.Lib.File
import MolIpc.Const
import Mathlib.Data.List.Infix
import Mathlib.Data.UInt
import Mathlib.Algebra.GroupWithZero.Nat

/-!
The minor devices of RDISK and `m_transfer` with `DEV_SCATTER`.

The primary cuts each entry of the vector in chunks of at most the size of the device's buffer.
It writes a chunk into its own image and multicasts it, compressed, before it goes on
(`scatterChunk`, `scatterLoop`). The loop `while (nr_req > 0)` is cut where the primary waits for
the acknowledges of an entry: `primaryTurn` is one turn of it. A backup goes through the same loop
for a chunk it has already written, only to find out whether it has to reply (`backupReplies`).

A `pwrite` to an image writes all the bytes it is given.
-/

namespace MolIpc

namespace Rdisk

open Disk

/-- `NR_DEVS`. -/
def nrDevs : ℕ := 2

instance : NeZero nrDevs := ⟨by decide⟩

/-! ### LZ4 -/

/-- A complete frame gives back the data, whatever comes after it; the beginning of a frame a
beginning of the data. `none` is an `LZ4F_isError`, which ends the process. -/
structure Lz4 where
  compressFrame : List UInt8 → List UInt8
  decompress : List UInt8 → Option (List UInt8)
  decompress_frame : ∀ x rest, decompress (compressFrame x ++ rest) = some x
  decompress_take : ∀ x n y, decompress ((compressFrame x).take n) = some y → y <+: x

/-- A small compressor: four bytes 7 are one byte, any other data are marked byte by byte. -/
def Lz4.mark : List UInt8 → List UInt8
  | [] => [0]
  | x :: xs => 1 :: x :: mark xs

def Lz4.unmark : List UInt8 → List UInt8
  | 1 :: x :: xs => x :: unmark xs
  | _ => []

theorem Lz4.unmark_mark (x rest : List UInt8) : unmark (mark x ++ rest) = x := by
  induction x with
  | nil => simp [mark, unmark]
  | cons b x ih => simp [mark, unmark, ih]

theorem Lz4.unmark_take (x : List UInt8) (n : ℕ) : unmark ((mark x).take n) <+: x := by
  induction x generalizing n with
  | nil => cases n <;> simp [mark, unmark]
  | cons b x ih =>
    match n with
    | 0 => simp [unmark]
    | 1 => simp [mark, unmark]
    | n + 2 =>
      exact List.cons_prefix_cons.2 ⟨rfl, ih n⟩

def Lz4.sample : Lz4 where
  compressFrame x := if x = [7, 7, 7, 7] then [2] else mark x
  decompress y := some (if y.head? = some 2 then [7, 7, 7, 7] else unmark y)
  decompress_frame x rest := by
    by_cases hx : x = [7, 7, 7, 7]
    · simp [hx]
    · have hh : (mark x ++ rest).head? ≠ some 2 := by cases x <;> simp [mark]
      rw [if_neg hx, if_neg hh, unmark_mark]
  decompress_take x n y h := by
    by_cases hx : x = [7, 7, 7, 7]
    · subst hx
      cases n with
      | zero =>
        cases h
        exact List.nil_prefix
      | succ n =>
        cases h
        simp
    · have hh : ((mark x).take n).head? ≠ some 2 := by cases n <;> cases x <;> simp [mark]
      rw [if_neg hx, if_neg hh] at h
      cases h
      exact unmark_take x n

/-! ### Devices -/

/-- An entry of `devvec` and of `m_geom`: the configuration, whether the device has been opened, and
its image file. -/
structure Dev where
  available : Bool
  /-- The `errno` of `open` on the image file, if it fails. -/
  openErr : Option ℤ
  active : Bool
  buffSize : ℕ
  dvSize : ℕ
  img : File UInt8
  buffSize_pos : 0 < buffSize

def Dev.sample : Dev := ⟨true, none, true, 4, 16, ⟨16, fun _ => 0, fun _ _ => rfl⟩, by decide⟩

/-- `m_prepare`: the device of a minor number, if it is active. -/
def mPrepare (dev : Fin nrDevs → Dev) (device : ℤ) : Option (Fin nrDevs) :=
  if h : 0 ≤ device ∧ device.toNat < nrDevs then
    if (dev ⟨device.toNat, h.2⟩).active then some ⟨device.toNat, h.2⟩ else none
  else none

/-- The offset and the bytes of an entry: none behind the end of the device (`dv_size` is unsigned,
so that a negative position is behind it), and no more than up to the end; the sum does not wrap. -/
def Dev.clip (d : Dev) (position : ℤ) (size : ℕ) : Option (ℕ × ℕ) :=
  if position < 0 ∨ d.dvSize ≤ position then none
  else if d.dvSize < position + size then some (position.toNat, d.dvSize - position.toNat)
  else some (position.toNat, size)

/-! ### `DEV_SCATTER` on the primary -/

structure DevWrite where
  device : Fin nrDevs
  ioEndpt : ℤ
  position : ℕ
  count : ℕ
  address : ℕ
  /-- `flag_buff`: whether `buffer` is compressed. -/
  comp : Bool
  /-- The first `buffer_size` bytes of `buffer_data`. -/
  buffer : List UInt8
  /-- `m2_l2`: the number of the chunk, 0 in the last one of an entry. -/
  nrOptrans : ℕ
  deriving DecidableEq

/-- What `m_transfer` reads on an entry: the compressor, the device number, the requester with the
copies from it (`none` where they fail), the address and `nr_nodes`. -/
structure ScatterEnv where
  lz : Lz4
  device : Fin nrDevs
  procNr : ℤ
  vcopy : ℕ → ℕ → Option (List UInt8)
  addrS : ℕ
  nrNodes : ℤ

structure Scatter where
  img : File UInt8
  position : ℕ
  addr : ℕ
  count : ℕ
  stbytes : ℕ
  nrOptrans : ℕ
  sent : List DevWrite

/-- The `DEV_WRITE` of a chunk that has been written, built from the variables after it. -/
def ScatterEnv.devWrite (e : ScatterEnv) (s : Scatter) (localbuff : List UInt8) (bytes : ℕ) :
    DevWrite where
  device := e.device
  ioEndpt := e.procNr
  position := s.position
  count := bytes
  address := e.addrS
  comp := true
  buffer := e.lz.compressFrame localbuff
  nrOptrans := if 0 < s.count then s.nrOptrans else 0

/-- A chunk is copied, written into the image and multicast. The `POSITION` of the message is the
one after the chunk. -/
def scatterChunk (e : ScatterEnv) (buffSize : ℕ) (s : Scatter) : Option Scatter :=
  let bytes := if buffSize < s.count then buffSize else s.count
  match e.vcopy s.addr bytes with
  | none => none
  | some localbuff =>
    let s' : Scatter :=
      { s with
        img := s.img.pwrite ⟨s.position, localbuff⟩
        position := s.position + bytes
        addr := s.addr + bytes
        count := s.count - bytes
        stbytes := s.stbytes + bytes
        nrOptrans := s.nrOptrans + 1 }
    some (if 1 < e.nrNodes then { s' with sent := s.sent ++ [e.devWrite s' localbuff bytes] }
      else s')

/-- `do ... while (count > 0)`, left when a copy fails. Every turn takes at least one byte, so that
`count + 1` turns are enough. -/
def scatterLoop (e : ScatterEnv) (buffSize : ℕ) : ℕ → Scatter → Scatter
  | 0, s => s
  | fuel + 1, s =>
    match scatterChunk e buffSize s with
    | none => s
    | some s' => if 0 < s'.count then scatterLoop e buffSize fuel s' else s'

/-- Where a request goes on, the entries (address and size) from the current one on, and the bytes
transferred. -/
structure Transfer where
  position : ℤ
  iov : List (ℕ × ℕ)
  tbytes : ℕ
  deriving DecidableEq

inductive Next
  | ret (code : ℤ)
  | goOn (t : Transfer)
  deriving DecidableEq

def ScatterEnv.entry (e : ScatterEnv) (addr : ℕ) : ScatterEnv := { e with addrS := addr }

def Scatter.start (img : File UInt8) (position addr count : ℕ) : Scatter :=
  ⟨img, position, addr, count, 0, 0, []⟩

/-- One turn of `while (nr_req > 0)` on the primary, up to its wait for the acknowledges. With a
`dc_nr_nodes` of 1 nothing is transferred. -/
def primaryTurn (e : ScatterEnv) (dcNrNodes : ℤ) (d : Dev) (t : Transfer) :
    File UInt8 × List DevWrite × Next :=
  match t.iov with
  | [] => (d.img, [], .ret t.tbytes)
  | (addr, size) :: iov =>
    match d.clip t.position size with
    | none => (d.img, [], .ret EMol.ok)
    | some (position, count) =>
      let s :=
        if 1 < dcNrNodes then
          scatterLoop (e.entry addr) d.buffSize (count + 1) (.start d.img position addr count)
        else .start d.img position addr count
      (s.img, s.sent, .goOn
        { position := s.position
          iov := if size - s.stbytes = 0 then iov else (s.addr, size - s.stbytes) :: iov
          tbytes := t.tbytes + s.stbytes })

/-! ### `DEV_SCATTER` on a backup -/

/-- How many times a backup replies to a chunk: on each turn, if the chunk is the last one. A chunk
that ends behind the device takes several turns. -/
def backupReplies (d : Dev) (position : ℤ) (nrOptrans : ℕ) : ℕ → ℕ → ℕ
  | 0, _ => 0
  | fuel + 1, size =>
    match d.clip position size with
    | none => 0
    | some (_, count) =>
      (if nrOptrans = 0 then 1 else 0) +
        if size - count = 0 then 0 else backupReplies d position nrOptrans fuel (size - count)

end Rdisk

end MolIpc
