import MolIpc.Copy.Usr2usr

/-!
Copies between a user process and the kernel. The pointer at the side of the kernel is the address
itself, to which the loop adds the offset of the address in its page once more: the copies are
right if this offset is zero.
-/

namespace MolIpc.Copy

open BlockCopy

/-! ### The loop when all pages are available -/

section Available

variable {gup : ℕ → Bool} (hg : ∀ i, gup i = true) (source : ℤ) (src dst : Side)

include hg

theorem getPage_eq_some (side : Side) (a : ℕ) (r : Run) :
    ∃ r', side.getPage gup a r = some r' := by
  cases side with
  | user frame => exact ⟨_, if_pos (hg _)⟩
  | kernel => exact ⟨r, rfl⟩

theorem copyLoop_next {n : ℕ} (hn : n ≠ 0) (sa da : ℕ) (r : Run) :
    ∃ r', r'.mem = copyPiece source src dst sa da n r.mem ∧
      copyLoop source src dst gup sa da n r = copyLoop source src dst gup
        (sa + pieceLen sa da n) (da + pieceLen sa da n) (n - pieceLen sa da n) r' := by
  obtain ⟨r₁, hs⟩ := getPage_eq_some hg src sa r
  obtain ⟨r₂, hd⟩ := getPage_eq_some hg dst da r₁
  refine ⟨src.putPage sa (dst.putPage da
    { r₂ with mem := copyPiece source src dst sa da n r₂.mem }), ?_, ?_⟩
  · rw [putPage_mem, putPage_mem, getPage_mem hd, getPage_mem hs]
  · rw [copyLoop, if_neg hn, hs]
    dsimp only
    rw [hd]

theorem copyLoop_ok (n : ℕ) : ∀ sa da r,
    (copyLoop source src dst gup sa da n r).2 = EMol.ok := by
  induction n using Nat.strongRecOn with
  | ind n ih =>
    intro sa da r
    by_cases hn : n = 0
    · rw [copyLoop, if_pos hn]
    · obtain ⟨r', -, hr'⟩ := copyLoop_next hg source src dst hn sa da r
      rw [hr']
      have := pieceLen_pos sa da hn
      exact ih _ (by omega) _ _ _

theorem copyLoop_copied {n sa da : ℕ} (hn : source = noneEp ∨ n < messageSize)
    (hp : ∀ k < n, k = 0 ∨ Cut sa da k → src.Points (sa + k) ∧ dst.Points (da + k))
    (ha : Apart (fun k => src.byte (sa + k)) (fun k => dst.byte (da + k)) n) (r : Run) :
    Copied (fun k => src.byte (sa + k)) (fun k => dst.byte (da + k)) n r.mem
      (copyLoop source src dst gup sa da n r).1.mem := by
  obtain ⟨k, -, hcopy, hret⟩ := copyLoop_spec source src dst gup n sa da r hn hp ha
  have hok := copyLoop_ok hg source src dst n sa da r
  rcases hret with ⟨-, rfl, -⟩ | ⟨hna, -⟩
  · exact hcopy
  · rw [hok] at hna
    exact absurd hna (by decide)

end Available

/-! ### What the loop does not write -/

section Frame

variable {gup : ℕ → Bool} (hg : ∀ i, gup i = true)

include hg

theorem copyLoop_frame (src : Side) (frame : ℕ → ℕ) (n : ℕ) : ∀ sa da r a,
    (∀ k < n, a ≠ (Side.user frame).byte (da + k)) →
    (copyLoop noneEp src (.user frame) gup sa da n r).1.mem a = r.mem a := by
  induction n using Nat.strongRecOn with
  | ind n ih =>
    intro sa da r a ha
    by_cases hn : n = 0
    · rw [copyLoop, if_pos hn]
    · obtain ⟨r', hmem, hr'⟩ := copyLoop_next hg noneEp src (.user frame) hn sa da r
      have hpos := pieceLen_pos sa da hn
      have hle := pieceLen_le sa da n
      rw [hr', ih _ (by omega), hmem, copyPiece_eq (.inl rfl)]
      · refine (copied_memcpy (s := fun k => src.base sa + off sa + k)
          (d := fun k => (Side.user frame).byte (da + k)) (fun _ _ => rfl) fun k hk => ?_).frame a
          fun k hk => ha k (by omega)
        refine (Side.user frame).byte_add ?_
        unfold pieceLen at hk
        omega
      · intro k hk
        rw [Nat.add_assoc]
        exact ha _ (by omega)

theorem copyLoop_below (src : Side) (n : ℕ) : ∀ sa da r a, a < da →
    (copyLoop noneEp src .kernel gup sa da n r).1.mem a = r.mem a := by
  induction n using Nat.strongRecOn with
  | ind n ih =>
    intro sa da r a ha
    by_cases hn : n = 0
    · rw [copyLoop, if_pos hn]
    · obtain ⟨r', hmem, hr'⟩ := copyLoop_next hg noneEp src .kernel hn sa da r
      have hpos := pieceLen_pos sa da hn
      rw [hr', ih _ (by omega) _ _ _ _ (by omega), hmem, copyPiece_eq (.inl rfl)]
      refine memcpy_of_lt ?_
      show a < da + off da
      omega

end Frame

/-! ### Both directions -/

/-- The checks of `copy_krn2usr` on the pages of the two blocks. -/
def krnAligned (sa da : ℕ) (bytes : ℤ) : Prop :=
  npag sa bytes.toNat = npag da bytes.toNat ∧
    (npag sa bytes.toNat = 1 ∨ off sa = off da ∨ bytes = messageSize)

theorem Side.points_kernel {a : ℕ} (h : off a = 0) : Side.kernel.Points a := by
  show a + off a = a
  rw [h, Nat.add_zero]

section Krn2usr

variable {gup : ℕ → Bool} (hg : ∀ i, gup i = true) (frame : ℕ → ℕ) {sa da : ℕ} {bytes : ℤ}
  (h0 : 0 ≤ bytes) (hmax : bytes ≤ maxCopyLen)

include h0 hmax

theorem copyKrn2usr_eq (h : krnAligned sa da bytes) (r : Run) :
    copyKrn2usr noneEp gup sa frame da bytes r =
      copyLoop noneEp .kernel (.user frame) gup sa da bytes.toNat r := by
  unfold copyKrn2usr
  have h2 : ¬ (npag sa bytes.toNat ≠ 1 ∧ off sa ≠ off da ∧ bytes ≠ messageSize) := by
    rintro ⟨h1, h2, h3⟩
    exact h.2.elim h1 (·.elim h2 h3)
  rw [if_neg (by omega), if_neg (not_not_intro h.1), if_neg h2]

theorem copyKrn2usr_align (h : ¬ krnAligned sa da bytes) (r : Run) :
    copyKrn2usr noneEp gup sa frame da bytes r = (r, EMol.align) := by
  unfold copyKrn2usr
  rw [if_neg (by omega)]
  split
  · rfl
  · rename_i hp
    rw [if_pos]
    refine ⟨fun h1 => h ⟨not_not.mp hp, .inl h1⟩, fun h1 => h ⟨not_not.mp hp, .inr (.inl h1)⟩,
      fun h1 => h ⟨not_not.mp hp, .inr (.inr h1)⟩⟩

variable (ha : Apart (fun k => Side.kernel.byte (sa + k)) (fun k => (Side.user frame).byte (da + k))
  bytes.toNat)

include hg ha

theorem krn2usr_first (h : krnAligned sa da bytes) (hn : bytes ≠ 0) (r : Run) :
    (copyKrn2usr noneEp gup sa frame da bytes r).1.mem ((Side.user frame).byte da) =
      r.mem (sa + off sa) := by
  have hn' : bytes.toNat ≠ 0 := by omega
  obtain ⟨r', hmem, hr'⟩ := copyLoop_next hg noneEp .kernel (.user frame) hn' sa da r
  have hpos := pieceLen_pos sa da hn'
  have hle := pieceLen_le sa da bytes.toNat
  rw [copyKrn2usr_eq frame h0 hmax h, hr', copyLoop_frame hg, hmem, copyPiece_eq (.inl rfl)]
  · have hfirst : (Side.user frame).base da + off da = (Side.user frame).byte da := rfl
    rw [hfirst, memcpy, if_pos (by omega), Nat.sub_self]
    rfl
  · intro k hk hd
    have := ha.inj 0 (pieceLen sa da bytes.toNat + k) (by omega) (by omega)
      (by simpa only [Nat.add_zero, Nat.add_assoc] using hd)
    omega

/-- A copy from the kernel is right for all contents of the memory iff the address there begins a
page, unless the call fails or has nothing to do. -/
theorem krn2usr_copied_iff :
    (∀ r, (copyKrn2usr noneEp gup sa frame da bytes r).2 = EMol.ok →
      Copied (fun k => Side.kernel.byte (sa + k)) (fun k => (Side.user frame).byte (da + k))
        bytes.toNat r.mem (copyKrn2usr noneEp gup sa frame da bytes r).1.mem) ↔
    bytes = 0 ∨ off sa = 0 ∨ ¬ krnAligned sa da bytes := by
  by_cases hal : krnAligned sa da bytes
  swap
  · refine iff_of_true (fun r hok => ?_) (.inr (.inr hal))
    rw [copyKrn2usr_align frame h0 hmax hal] at hok
    exact absurd (show EMol.align = EMol.ok from hok) (by decide)
  constructor
  · intro h
    by_contra hno
    simp only [not_or] at hno
    -- a memory where only the first byte of the block is not zero
    have hok : (copyKrn2usr noneEp gup sa frame da bytes { mem := fun a => if a = sa then 1 else 0 }).2 =
        EMol.ok := by
      rw [copyKrn2usr_eq frame h0 hmax hal]
      exact copyLoop_ok hg ..
    have hcopy := (h _ hok).copied 0 (by omega)
    rw [Nat.add_zero, krn2usr_first hg frame h0 hmax ha hal hno.1] at hcopy
    have hoff : off sa = 0 := by simpa [Side.byte] using hcopy
    exact hno.2.1 hoff
  · intro h r _
    rw [copyKrn2usr_eq frame h0 hmax hal]
    have hpoints : ∀ k < bytes.toNat, k = 0 ∨ Cut sa da k →
        Side.kernel.Points (sa + k) ∧ (Side.user frame).Points (da + k) := by
      intro k hk hc
      refine ⟨Side.points_kernel ?_, Side.points_user frame _⟩
      have hsa : off sa = 0 := h.elim (fun h => by omega) (·.resolve_right (not_not_intro hal))
      obtain ⟨hp, hp'⟩ := hal
      unfold Cut npag at *
      unfold off pageSize messageSize at *
      omega
    exact copyLoop_copied hg noneEp .kernel (.user frame) (.inl rfl) hpoints ha r

end Krn2usr

section Usr2krn

variable {gup : ℕ → Bool} (hg : ∀ i, gup i = true) (frame : ℕ → ℕ) {sa da : ℕ} {bytes : ℤ}
  (h0 : 0 ≤ bytes) (hmax : bytes ≤ maxCopyLen)

include h0 hmax

theorem copyUsr2krn_eq (h : off sa = off da) (r : Run) :
    copyUsr2krn noneEp gup frame sa da bytes r =
      copyLoop noneEp (.user frame) .kernel gup sa da bytes.toNat r := by
  unfold copyUsr2krn
  rw [if_neg (by omega), if_neg (not_not_intro h)]

include hg

theorem usr2krn_first (h : off sa = off da) (hoff : off da ≠ 0) (hn : bytes ≠ 0) (r : Run) :
    (copyUsr2krn noneEp gup frame sa da bytes r).1.mem da = r.mem da := by
  have hn' : bytes.toNat ≠ 0 := by omega
  obtain ⟨r', hmem, hr'⟩ := copyLoop_next hg noneEp (.user frame) .kernel hn' sa da r
  have hpos := pieceLen_pos sa da hn'
  rw [copyUsr2krn_eq frame h0 hmax h, hr', copyLoop_below hg _ _ _ _ _ _ (by omega), hmem,
    copyPiece_eq (.inl rfl)]
  refine memcpy_of_lt ?_
  show da < da + off da
  omega

theorem usr2krn_copied_iff
    (ha : Apart (fun k => (Side.user frame).byte (sa + k)) (fun k => Side.kernel.byte (da + k))
      bytes.toNat) :
    (∀ r, (copyUsr2krn noneEp gup frame sa da bytes r).2 = EMol.ok →
      Copied (fun k => (Side.user frame).byte (sa + k)) (fun k => Side.kernel.byte (da + k))
        bytes.toNat r.mem (copyUsr2krn noneEp gup frame sa da bytes r).1.mem) ↔
    bytes = 0 ∨ off da = 0 ∨ off sa ≠ off da := by
  by_cases hal : off sa = off da
  swap
  · refine iff_of_true (fun r hok => ?_) (.inr (.inr hal))
    unfold copyUsr2krn at hok
    rw [if_neg (by omega), if_pos hal] at hok
    exact absurd (show EMol.align = EMol.ok from hok) (by decide)
  constructor
  · intro h
    by_contra hno
    simp only [not_or] at hno
    -- a memory where only the first byte of the destination is not zero
    have hok : (copyUsr2krn noneEp gup frame sa da bytes { mem := fun a => if a = da then 1 else 0 }).2 =
        EMol.ok := by
      rw [copyUsr2krn_eq frame h0 hmax hal]
      exact copyLoop_ok hg ..
    have hcopy := (h _ hok).copied 0 (by omega)
    have hne : (Side.user frame).byte sa ≠ da := ha.disjoint 0 0 (by omega) (by omega)
    have hfirst := usr2krn_first hg frame h0 hmax hal hno.2.1 hno.1
      { mem := fun a => if a = da then 1 else 0 }
    have h10 : (1 : UInt8) = 0 := by simpa [hne] using hfirst.symm.trans hcopy
    exact absurd h10 (by decide)
  · intro h r _
    rw [copyUsr2krn_eq frame h0 hmax hal]
    have hpoints : ∀ k < bytes.toNat, k = 0 ∨ Cut sa da k →
        (Side.user frame).Points (sa + k) ∧ Side.kernel.Points (da + k) := by
      intro k hk hc
      refine ⟨Side.points_user frame _, Side.points_kernel ?_⟩
      have hda : off da = 0 := h.elim (fun h => by omega) (·.resolve_right (not_not_intro hal))
      unfold Cut at hc
      unfold off pageSize at *
      omega
    exact copyLoop_copied hg noneEp (.user frame) .kernel (.inl rfl) hpoints ha r

end Usr2krn

/-- **Copies between a user process and the kernel** copy the block exactly when the address in the
kernel begins a page, there is nothing to do, or the call fails. -/
theorem kernel_copies_iff {gup : ℕ → Bool} (hg : ∀ i, gup i = true) (frame : ℕ → ℕ) (ka ua : ℕ)
    {bytes : ℤ} (h0 : 0 ≤ bytes) (hmax : bytes ≤ maxCopyLen) :
    (Apart (fun k => Side.kernel.byte (ka + k)) (fun k => (Side.user frame).byte (ua + k))
        bytes.toNat →
      ((∀ r, (copyKrn2usr noneEp gup ka frame ua bytes r).2 = EMol.ok →
        Copied (fun k => Side.kernel.byte (ka + k)) (fun k => (Side.user frame).byte (ua + k))
          bytes.toNat r.mem (copyKrn2usr noneEp gup ka frame ua bytes r).1.mem) ↔
      bytes = 0 ∨ off ka = 0 ∨ ¬ krnAligned ka ua bytes)) ∧
    (Apart (fun k => (Side.user frame).byte (ua + k)) (fun k => Side.kernel.byte (ka + k))
        bytes.toNat →
      ((∀ r, (copyUsr2krn noneEp gup frame ua ka bytes r).2 = EMol.ok →
        Copied (fun k => (Side.user frame).byte (ua + k)) (fun k => Side.kernel.byte (ka + k))
          bytes.toNat r.mem (copyUsr2krn noneEp gup frame ua ka bytes r).1.mem) ↔
      bytes = 0 ∨ off ka = 0 ∨ off ua ≠ off ka)) :=
  ⟨krn2usr_copied_iff hg frame h0 hmax, usr2krn_copied_iff hg frame h0 hmax⟩

theorem apart_kernel_sample (sa da : ℕ) {n : ℕ} (hs : sa + n ≤ 512 * pageSize) :
    Apart (fun k => Side.kernel.byte (sa + k)) (fun k => (Side.user (· + 512)).byte (da + k))
      n := by
  have hsrc : ∀ a, (Side.user id).byte a = Side.kernel.byte a := by
    intro a
    simp only [Side.byte, off, pageSize, id]
    omega
  simpa only [hsrc] using apart_sample sa da hs

/-- Ten bytes from the beginning of a page of the kernel. -/
theorem kernel_copies_page : off 8192 = 0 ∧
    ∀ r, (copyKrn2usr noneEp (fun _ => true) 8192 (· + 512) 20 10 r).2 = EMol.ok →
      Copied (fun k => Side.kernel.byte (8192 + k)) (fun k => (Side.user (· + 512)).byte (20 + k))
        10 r.mem (copyKrn2usr noneEp (fun _ => true) 8192 (· + 512) 20 10 r).1.mem :=
  ⟨rfl, ((kernel_copies_iff (fun _ => rfl) (· + 512) 8192 20 (show (0 : ℤ) ≤ 10 by decide)
    (by decide)).1 (apart_kernel_sample 8192 20 (by decide))).2 (.inr (.inl rfl))⟩

/-- Four bytes from the address 8200 of the kernel: the first one that arrives is that of 8208. -/
theorem krn2usr_displaced :
    let out := copyKrn2usr noneEp (fun _ => true) 8200 (· + 512) 0 4 { mem := .ofNat }
    out.2 = EMol.ok ∧ out.1.mem ((Side.user (· + 512)).byte 0) = 16 ∧ UInt8.ofNat 8200 = 8 := by
  have hal : krnAligned 8200 0 4 := ⟨rfl, .inl rfl⟩
  refine ⟨?_, ?_, rfl⟩
  · rw [copyKrn2usr_eq _ (by decide) (by decide) hal]
    exact copyLoop_ok (fun _ => rfl) ..
  · exact krn2usr_first (fun _ => rfl) _ (by decide) (by decide) (apart_kernel_sample 8200 0 (by decide))
      hal (by decide) _

end MolIpc.Copy
