import MolIpc.Copy.KernelSide

/-!
Who a message says it is from. `copy_usr2usr` fills in `m_source` after the first piece of a
message has been copied: the field is that of the sender if it lies in this piece. The part of it
behind the first piece is written into whatever follows the page of the destination, and then the
source's own bytes are copied over the field.
-/

namespace MolIpc.Copy

open BlockCopy

/-- A message has been copied with the field `m_source` set, and nothing else has changed. -/
structure Stamped (s d : ℕ → ℕ) (source : ℤ) (m m' : ℕ → UInt8) : Prop where
  field (k : ℕ) : k < 4 → m' (d k) = intByte source k
  copied (k : ℕ) : 4 ≤ k → k < messageSize → m' (d k) = m (s k)
  frame (a : ℕ) : (∀ k < messageSize, a ≠ d k) → m' a = m a

section Stamp

variable {source : ℤ} {src dst : Side} {sa da : ℕ}

theorem copyPiece_message (hs : source ≠ noneEp) (m : ℕ → UInt8) :
    copyPiece source src dst sa da messageSize m =
      stamp (dst.base da + off da) source (copyPiece noneEp src dst sa da messageSize m) := by
  have hno : ¬ (noneEp ≠ noneEp ∧ messageSize = messageSize) := fun h => h.1 rfl
  unfold copyPiece
  rw [if_pos (⟨hs, rfl⟩ : source ≠ noneEp ∧ messageSize = messageSize), if_neg hno]

theorem stamped_copyPiece (hs : source ≠ noneEp) (hsp : src.Points sa) (hdp : dst.Points da)
    (h4 : 4 ≤ pieceLen sa da messageSize) (m : ℕ → UInt8) :
    (∀ k < 4, copyPiece source src dst sa da messageSize m (dst.byte (da + k)) = intByte source k) ∧
    (∀ k, 4 ≤ k → k < pieceLen sa da messageSize →
      copyPiece source src dst sa da messageSize m (dst.byte (da + k)) = m (src.byte (sa + k))) ∧
    ∀ a, (∀ k < pieceLen sa da messageSize, a ≠ dst.byte (da + k)) →
      copyPiece source src dst sa da messageSize m a = m a := by
  have hpiece : Copied _ _ _ m (copyPiece noneEp src dst sa da messageSize m) :=
    copied_copyPiece (.inl rfl) hsp hdp m
  have hadd : ∀ k < pieceLen sa da messageSize, dst.byte (da + k) = dst.byte da + k := by
    intro k hk
    refine dst.byte_add ?_
    unfold pieceLen at hk
    omega
  have hmem : ∀ a, copyPiece source src dst sa da messageSize m a =
      if dst.byte da ≤ a ∧ a < dst.byte da + 4 then intByte source (a - dst.byte da)
      else copyPiece noneEp src dst sa da messageSize m a := by
    intro a
    rw [copyPiece_message hs, stamp, hdp]
  refine ⟨fun k hk => ?_, fun k hk hlt => ?_, fun a hout => ?_⟩
  · rw [hmem, hadd k (by omega), if_pos (by omega), Nat.add_sub_cancel_left]
  · rw [hmem, if_neg (by rw [hadd k hlt]; omega)]
    exact hpiece.copied k hlt
  · rw [hmem, if_neg]
    · exact hpiece.frame a hout
    · intro hin
      refine hout (a - dst.byte da) (by omega) ?_
      rw [hadd _ (by omega)]
      omega

end Stamp

section Message

variable {gup : ℕ → Bool} (hg : ∀ i, gup i = true) {source : ℤ} (hs : source ≠ noneEp)
  (srcFrame dstFrame : ℕ → ℕ) {sa da : ℕ}
  (ha : Apart (fun k => (Side.user srcFrame).byte (sa + k))
    (fun k => (Side.user dstFrame).byte (da + k)) messageSize)

include hg ha

variable (source) in
theorem copyUsr2usr_message (r : Run) : ∃ mem, mem = copyPiece source (.user srcFrame)
      (.user dstFrame) sa da messageSize r.mem ∧
    Copied (fun k => (Side.user srcFrame).byte (sa + (pieceLen sa da messageSize + k)))
      (fun k => (Side.user dstFrame).byte (da + (pieceLen sa da messageSize + k)))
      (messageSize - pieceLen sa da messageSize) mem
      (copyUsr2usr source gup srcFrame sa dstFrame da messageSize r).1.mem := by
  have hn : messageSize ≠ 0 := by decide
  have hpos := pieceLen_pos sa da hn
  have hle := pieceLen_le sa da messageSize
  have hsum : pieceLen sa da messageSize + (messageSize - pieceLen sa da messageSize) =
    messageSize := by omega
  obtain ⟨r', hmem, hr'⟩ := copyLoop_next hg source (.user srcFrame) (.user dstFrame) hn sa da r
  refine ⟨r'.mem, hmem, ?_⟩
  have hloop : copyUsr2usr source gup srcFrame sa dstFrame da messageSize r =
      copyLoop source (.user srcFrame) (.user dstFrame) gup sa da messageSize r := by
    unfold copyUsr2usr
    rw [if_neg (by decide)]
    rfl
  have hapart : Apart
      (fun k => (Side.user srcFrame).byte (sa + pieceLen sa da messageSize + k))
      (fun k => (Side.user dstFrame).byte (da + pieceLen sa da messageSize + k))
      (messageSize - pieceLen sa da messageSize) := by
    simpa only [Nat.add_assoc] using (hsum.symm ▸ ha).shift
  have hrest := copyLoop_copied hg source (.user srcFrame) (.user dstFrame) (.inr (by omega))
    (fun k _ _ => ⟨Side.points_user srcFrame _, Side.points_user dstFrame _⟩) hapart r'
  rw [hloop, hr']
  simpa only [Nat.add_assoc] using hrest

theorem not_stamped (h4 : pieceLen sa da messageSize < 4) {r : Run}
    (hr : r.mem ((Side.user srcFrame).byte (sa + pieceLen sa da messageSize)) ≠
      intByte source (pieceLen sa da messageSize)) :
    ¬ Stamped (fun k => (Side.user srcFrame).byte (sa + k))
      (fun k => (Side.user dstFrame).byte (da + k)) source r.mem
      (copyUsr2usr source gup srcFrame sa dstFrame da messageSize r).1.mem := by
  intro h
  have h36 : 4 ≤ messageSize := by decide
  obtain ⟨mem, -, hrest⟩ := copyUsr2usr_message hg source srcFrame dstFrame ha r
  -- the source may have been changed by what was written behind the page, which is not allowed
  have hsrc : mem ((Side.user srcFrame).byte (sa + pieceLen sa da messageSize)) =
      r.mem ((Side.user srcFrame).byte (sa + pieceLen sa da messageSize)) := by
    rw [← h.frame _ fun k hk => ha.disjoint _ k (by omega) hk]
    refine (hrest.frame _ fun k hk => ha.disjoint _ _ (by omega) (by omega)).symm
  have hcopy := hrest.copied 0 (by omega)
  rw [Nat.add_zero, hsrc, h.field _ h4] at hcopy
  exact hr hcopy.symm

include hs

theorem stamped_of_first (h4 : 4 ≤ pieceLen sa da messageSize) (r : Run) :
    Stamped (fun k => (Side.user srcFrame).byte (sa + k))
      (fun k => (Side.user dstFrame).byte (da + k)) source r.mem
      (copyUsr2usr source gup srcFrame sa dstFrame da messageSize r).1.mem := by
  obtain ⟨mem, hmem, hrest⟩ := copyUsr2usr_message hg source srcFrame dstFrame ha r
  have hle := pieceLen_le sa da messageSize
  obtain ⟨hfield, hcopied, hframe⟩ := stamped_copyPiece hs (Side.points_user srcFrame sa)
    (Side.points_user dstFrame da) h4 r.mem
  rw [← hmem] at hfield hcopied hframe
  -- the rest does not touch the first piece
  have hfirst : ∀ k < pieceLen sa da messageSize,
      (copyUsr2usr source gup srcFrame sa dstFrame da messageSize r).1.mem
        ((Side.user dstFrame).byte (da + k)) = mem ((Side.user dstFrame).byte (da + k)) := by
    intro k hk
    refine hrest.frame _ fun j hj hd => ?_
    have := ha.inj _ _ (by omega) (by omega) hd
    omega
  refine ⟨fun k hk => ?_, fun k hk hlt => ?_, fun a hout => ?_⟩
  · rw [hfirst k (by omega)]
    exact hfield k hk
  · by_cases hk' : k < pieceLen sa da messageSize
    · rw [hfirst k hk']
      exact hcopied k hk hk'
    · have hcopy := hrest.copied (k - pieceLen sa da messageSize) (by omega)
      rw [show pieceLen sa da messageSize + (k - pieceLen sa da messageSize) = k by omega] at hcopy
      rw [hcopy]
      exact hframe _ fun j hj => ha.disjoint k j hlt (by omega)
  · rw [hrest.frame a fun k hk => hout _ (by omega)]
    exact hframe a fun k hk => hout k (by omega)

/-- **The receiver sees the true sender** exactly when neither message begins in the last three
bytes of a page. -/
theorem message_stamped_iff :
    (∀ r, (copyUsr2usr source gup srcFrame sa dstFrame da messageSize r).2 = EMol.ok →
      Stamped (fun k => (Side.user srcFrame).byte (sa + k))
        (fun k => (Side.user dstFrame).byte (da + k)) source r.mem
        (copyUsr2usr source gup srcFrame sa dstFrame da messageSize r).1.mem) ↔
    off sa + 4 ≤ pageSize ∧ off da + 4 ≤ pageSize := by
  have hcond : off sa + 4 ≤ pageSize ∧ off da + 4 ≤ pageSize ↔ 4 ≤ pieceLen sa da messageSize := by
    unfold pieceLen messageSize
    omega
  rw [hcond]
  constructor
  · intro h
    by_contra hlt
    -- a memory with one byte everywhere, which is not that of the endpoint
    let m : ℕ → UInt8 := fun _ => intByte source (pieceLen sa da messageSize) + 1
    have hok : (copyUsr2usr source gup srcFrame sa dstFrame da messageSize { mem := m }).2 =
        EMol.ok := by
      unfold copyUsr2usr
      rw [if_neg (by decide)]
      exact copyLoop_ok hg ..
    refine not_stamped hg srcFrame dstFrame ha (by omega) ?_ (h { mem := m } hok)
    simp [m]
  · intro h r _
    exact stamped_of_first hg hs srcFrame dstFrame ha h r

end Message

/-- Process 5 sends a message of its page to another page. -/
theorem message_stamped_inside : off 16 = 16 ∧
    ∀ r, (copyUsr2usr 5 (fun _ => true) id 16 (· + 512) 32 messageSize r).2 = EMol.ok →
      Stamped (fun k => (Side.user id).byte (16 + k)) (fun k => (Side.user (· + 512)).byte (32 + k))
        5 r.mem (copyUsr2usr 5 (fun _ => true) id 16 (· + 512) 32 messageSize r).1.mem :=
  ⟨rfl, (message_stamped_iff (fun _ => rfl) (by decide) id (· + 512)
    (apart_sample 16 32 (by decide))).2 (by decide)⟩

/-- The message of process 5 begins two bytes before the end of a page: the last two bytes of
`m_source` are the sender's own. -/
theorem message_forged :
    let out := copyUsr2usr 5 (fun _ => true) id 4094 (· + 512) 0 messageSize { mem := fun _ => 7 }
    out.2 = EMol.ok ∧ out.1.mem ((Side.user (· + 512)).byte 2) = 7 ∧ intByte 5 2 = 0 := by
  refine ⟨?_, ?_, rfl⟩
  · unfold copyUsr2usr
    rw [if_neg (by decide)]
    exact copyLoop_ok (fun _ => rfl) ..
  · obtain ⟨mem, hmem, hrest⟩ := copyUsr2usr_message (fun _ => rfl) 5 id (· + 512)
      (apart_sample 4094 0 (by decide)) { mem := fun _ => 7 }
    refine (hrest.copied 0 (by decide)).trans ?_
    rw [hmem]
    decide

end MolIpc.Copy
