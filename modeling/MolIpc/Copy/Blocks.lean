import MolIpc.Const
import MolIpc.Lib.BlockCopy
import Mathlib.Algebra.Group.Int.Defs

/-!
`copy_usr2usr`, `copy_krn2usr` and `copy_usr2krn`: copies of a block of bytes between two user
processes, and between a user process and the kernel.

The memory is that of the node, as the kernel sees it. The pages of a user process are anywhere in
it: the loops obtain the page of each user address, copy up to the end of the page of the source or
of the destination, and release the pages again. The three functions have the same loop; at the
side of the kernel there is no page to obtain, and the pointer they have is the address itself.
-/

namespace MolIpc.Copy

open BlockCopy

/-- `PAGE_SIZE`. -/
def pageSize : ℕ := 4096

/-- `sizeof(message)`. -/
def messageSize : ℕ := 36

/-- `addr & ~PAGE_MASK`. -/
def off (a : ℕ) : ℕ := a % pageSize

/-- One end of a copy: a user process, with the frame of each of its pages, or the kernel. -/
inductive Side
  | user (frame : ℕ → ℕ)
  | kernel

/-- The pointer the loops have for the address `a`: that of the mapped page, or `a` itself. -/
def Side.base : Side → ℕ → ℕ
  | .user frame, a => frame (a / pageSize) * pageSize
  | .kernel, a => a

def Side.byte : Side → ℕ → ℕ
  | .user frame, a => frame (a / pageSize) * pageSize + off a
  | .kernel, a => a

/-- A page is obtained by `get_user_pages`, or released by `put_page`. -/
inductive PageEvent
  | get (frame : ℕ)
  | put (frame : ℕ)
  deriving DecidableEq, Repr

/-- The memory, the number of calls of `get_user_pages`, and the pages obtained and released. -/
structure Run where
  mem : ℕ → UInt8
  calls : ℕ := 0
  log : List PageEvent := []

/-- `get_user_pages` for the page of `a`, if there is one to obtain; `gup` tells which calls
succeed. -/
def Side.getPage (gup : ℕ → Bool) (a : ℕ) (r : Run) : Side → Option Run
  | .user frame =>
    if gup r.calls then
      some { r with calls := r.calls + 1, log := r.log ++ [.get (frame (a / pageSize))] }
    else none
  | .kernel => some r

/-- `put_page`. -/
def Side.putPage (a : ℕ) (r : Run) : Side → Run
  | .user frame => { r with log := r.log ++ [.put (frame (a / pageSize))] }
  | .kernel => r

/-! ### The loop -/

def intByte (v : ℤ) (i : ℕ) : UInt8 := .ofNat (v / 256 ^ i % 256).toNat

/-- `m_ptr->m_source = source`, with the message at `p`. -/
def stamp (p : ℕ) (source : ℤ) (m : ℕ → UInt8) : ℕ → UInt8 := fun a =>
  if p ≤ a ∧ a < p + 4 then intByte source (a - p) else m a

def pieceLen (sa da n : ℕ) : ℕ := min (min (pageSize - off sa) (pageSize - off da)) n

theorem off_lt (a : ℕ) : off a < pageSize := Nat.mod_lt _ (by decide)

theorem pieceLen_pos (sa da : ℕ) {n : ℕ} (h : n ≠ 0) : 0 < pieceLen sa da n := by
  have hs := off_lt sa
  have hd := off_lt da
  unfold pieceLen
  omega

theorem pieceLen_le (sa da n : ℕ) : pieceLen sa da n ≤ n := Nat.min_le_right _ _

section Loop

variable (source : ℤ) (src dst : Side) (gup : ℕ → Bool)

def copyPiece (sa da n : ℕ) (m : ℕ → UInt8) : ℕ → UInt8 :=
  let len := pieceLen sa da n
  let m :=
    if len = pageSize then memcpy (dst.base da) (src.base sa) pageSize m
    else memcpy (dst.base da + off da) (src.base sa + off sa) len m
  if source ≠ noneEp ∧ n = messageSize then stamp (dst.base da + off da) source m else m

/-- `while (bytes > 0)`. -/
def copyLoop (sa da n : ℕ) (r : Run) : Run × ℤ :=
  if n = 0 then (r, EMol.ok)
  else
    match src.getPage gup sa r with
    | none => (r, EMol.addrnotavail)
    | some r =>
      match dst.getPage gup da r with
      | none => (src.putPage sa r, EMol.addrnotavail)
      | some r =>
        let r := { r with mem := copyPiece source src dst sa da n r.mem }
        let len := pieceLen sa da n
        copyLoop (sa + len) (da + len) (n - len) (src.putPage sa (dst.putPage da r))
termination_by n
decreasing_by
  have := pieceLen_pos sa da ‹¬ n = 0›
  omega

def npag (a n : ℕ) : ℕ := (off a + n + pageSize - 1) / pageSize

/-- `copy_usr2usr`. -/
def copyUsr2usr (srcFrame : ℕ → ℕ) (sa : ℕ) (dstFrame : ℕ → ℕ) (da : ℕ) (bytes : ℤ) (r : Run) :
    Run × ℤ :=
  if bytes < 0 ∨ maxCopyLen < bytes then (r, EMol.range)
  else copyLoop source (.user srcFrame) (.user dstFrame) gup sa da bytes.toNat r

/-- `copy_krn2usr`. -/
def copyKrn2usr (sa : ℕ) (dstFrame : ℕ → ℕ) (da : ℕ) (bytes : ℤ) (r : Run) : Run × ℤ :=
  if bytes < 0 ∨ maxCopyLen < bytes then (r, EMol.range)
  else if npag sa bytes.toNat ≠ npag da bytes.toNat then (r, EMol.align)
  else if npag sa bytes.toNat ≠ 1 ∧ off sa ≠ off da ∧ bytes ≠ messageSize then (r, EMol.align)
  else copyLoop source .kernel (.user dstFrame) gup sa da bytes.toNat r

/-- `copy_usr2krn`. -/
def copyUsr2krn (srcFrame : ℕ → ℕ) (sa da : ℕ) (bytes : ℤ) (r : Run) : Run × ℤ :=
  if bytes < 0 ∨ maxCopyLen < bytes then (r, EMol.range)
  else if off sa ≠ off da then (r, EMol.align)
  else copyLoop source (.user srcFrame) .kernel gup sa da bytes.toNat r

end Loop

end MolIpc.Copy
