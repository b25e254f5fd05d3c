import MolIpc.Copy.Blocks

/-!
What the loop of the block copies does: it copies the bytes in pieces, each up to the end of a page
of the source or of the destination, and gives back every page it has obtained. For two user
processes this is the copy of the block, or of a beginning of it if a page is not available.
-/

namespace MolIpc.Copy

open BlockCopy

/-! ### Pages -/

section Pages

variable {side : Side} {gup : ℕ → Bool} {a : ℕ} {r r' : Run}

/-- The number of references to the page `f` after some events, if no page is released that is not
held. -/
def held (f : ℕ) : List PageEvent → ℕ → Option ℕ
  | [], h => some h
  | .get g :: l, h => held f l (if g = f then h + 1 else h)
  | .put g :: l, h => if g = f then (if h = 0 then none else held f l (h - 1)) else held f l h

def Returned (l : List PageEvent) : Prop := ∀ f h, held f l h = some h

theorem held_append (f : ℕ) (l l' : List PageEvent) (h : ℕ) :
    held f (l ++ l') h = (held f l h).bind (held f l') := by
  induction l generalizing h with
  | nil => rfl
  | cons e l ih =>
    cases e with
    | get g => simp only [List.cons_append, held, ih]
    | put g =>
      simp only [List.cons_append, held, ih]
      split_ifs <;> rfl

theorem Returned.append {l l' : List PageEvent} (h : Returned l) (h' : Returned l') :
    Returned (l ++ l') := by
  intro f k
  rw [held_append, h f k]
  exact h' f k

theorem returned_nil : Returned [] := fun _ _ => rfl

theorem Returned.within {l : List PageEvent} (h : Returned l) (g : ℕ) :
    Returned (.get g :: (l ++ [.put g])) := by
  intro f k
  simp only [held, held_append, h f, Option.bind_some]
  split_ifs <;> simp_all

@[simp] theorem putPage_mem : (side.putPage a r).mem = r.mem := by cases side <;> rfl

@[simp] theorem putPage_calls : (side.putPage a r).calls = r.calls := by cases side <;> rfl

/-- The calls of `get_user_pages` for a piece. -/
def Side.asks : Side → ℕ
  | .user _ => 1
  | .kernel => 0

theorem getPage_calls (h : side.getPage gup a r = some r') :
    r'.calls = r.calls + side.asks ∧ ∀ i < side.asks, gup (r.calls + i) = true := by
  cases side with
  | user frame =>
    simp only [Side.getPage, Option.ite_none_right_eq_some, Option.some.injEq] at h
    obtain ⟨hg, rfl⟩ := h
    exact ⟨rfl, fun i hi => by rwa [Nat.lt_one_iff.1 hi]⟩
  | kernel =>
    cases h
    exact ⟨rfl, nofun⟩

theorem getPage_none (h : side.getPage gup a r = none) :
    ∃ i < side.asks, gup (r.calls + i) = false := by
  cases side with
  | user frame => exact ⟨0, Nat.one_pos, by simpa [Side.getPage] using h⟩
  | kernel => cases h

theorem getPage_mem (h : side.getPage gup a r = some r') : r'.mem = r.mem := by
  cases side with
  | user frame =>
    simp only [Side.getPage, Option.ite_none_right_eq_some, Option.some.injEq] at h
    rw [← h.2]
  | kernel => rw [← Option.some.inj h]

theorem getPage_log (h : side.getPage gup a r = some r') :
    ∃ got put, r'.log = r.log ++ got ∧ (∀ t, (side.putPage a t).log = t.log ++ put) ∧
      ∀ l, Returned l → Returned (got ++ (l ++ put)) := by
  cases side with
  | user frame =>
    simp only [Side.getPage, Option.ite_none_right_eq_some, Option.some.injEq] at h
    obtain ⟨-, rfl⟩ := h
    exact ⟨[.get _], [.put _], rfl, fun _ => rfl, fun l hl => hl.within _⟩
  | kernel =>
    cases h
    exact ⟨[], [], by simp, fun t => by simp [Side.putPage], fun l hl => by simpa using hl⟩

end Pages

section Log

variable (source : ℤ) (src dst : Side) (gup : ℕ → Bool)

theorem copyLoop_log (n : ℕ) : ∀ sa da r, ∃ l,
    (copyLoop source src dst gup sa da n r).1.log = r.log ++ l ∧ Returned l := by
  induction n using Nat.strongRecOn with
  | ind n ih =>
    intro sa da r
    unfold copyLoop
    split
    · exact ⟨[], by simp, returned_nil⟩
    rename_i hn
    split
    · exact ⟨[], by simp, returned_nil⟩
    · rename_i r₁ hs
      obtain ⟨got, put, hgot, hput, hret⟩ := getPage_log hs
      split
      · refine ⟨got ++ put, ?_, by simpa using hret [] returned_nil⟩
        rw [hput, hgot, List.append_assoc]
      · rename_i r₂ hd
        obtain ⟨got', put', hgot', hput', hret'⟩ := getPage_log hd
        have hlen := pieceLen_pos sa da hn
        obtain ⟨l, hl, hrest⟩ := ih (n - pieceLen sa da n) (by omega) _ _
          (src.putPage sa (dst.putPage da
            { r₂ with mem := copyPiece source src dst sa da n r₂.mem }))
        refine ⟨got ++ (got' ++ put' ++ put) ++ l, ?_, ?_⟩
        · rw [hl, hput, hput']
          simp only [hgot', hgot, List.append_assoc]
        · refine Returned.append (hret _ ?_) hrest
          simpa using hret' [] returned_nil

end Log

/-! ### Pieces -/

/-- The `k`-th byte is the first one of a page of the source or of the destination. -/
def Cut (sa da k : ℕ) : Prop := off (sa + k) = 0 ∨ off (da + k) = 0

/-- The number of bytes of the first `j` pieces. -/
def reached (sa da n : ℕ) : ℕ → ℕ
  | 0 => 0
  | j + 1 =>
    let len := pieceLen sa da n
    len + reached (sa + len) (da + len) (n - len) j

/-- The pages of the `j`-th piece are available, `c` being the number of calls before the loop. -/
def Given (src dst : Side) (gup : ℕ → Bool) (c j : ℕ) : Prop :=
  ∀ i < src.asks + dst.asks, gup (c + (src.asks + dst.asks) * j + i) = true

theorem given_succ (src dst : Side) (gup : ℕ → Bool) (c j : ℕ) :
    Given src dst gup c (j + 1) ↔ Given src dst gup (c + src.asks + dst.asks) j := by
  have hc : c + (src.asks + dst.asks) * (j + 1) =
      c + src.asks + dst.asks + (src.asks + dst.asks) * j := by
    rw [Nat.mul_succ]
    omega
  unfold Given
  rw [hc]

/-- The pointer of the loop, with the offset of the address added, points to the byte. -/
def Side.Points (side : Side) (a : ℕ) : Prop := side.base a + off a = side.byte a

theorem Side.points_user (frame : ℕ → ℕ) (a : ℕ) : (Side.user frame).Points a := rfl

theorem off_add {a k : ℕ} (h : off a + k < pageSize) : off (a + k) = off a + k := by
  unfold off at *
  rw [Nat.add_mod, Nat.mod_eq_of_lt (b := pageSize) (a := k) (by omega), Nat.mod_eq_of_lt h]

theorem Side.byte_add (side : Side) {a k : ℕ} (h : off a + k < pageSize) :
    side.byte (a + k) = side.byte a + k := by
  cases side with
  | user frame =>
    have hdiv : (a + k) / pageSize = a / pageSize := by
      unfold off pageSize at *
      omega
    simp only [Side.byte, hdiv, off_add h]
    omega
  | kernel => rfl

theorem cut_pieceLen {sa da n : ℕ} (h : pieceLen sa da n < n) : Cut sa da (pieceLen sa da n) := by
  have hend : ∀ a, off (a + (pageSize - off a)) = 0 := by
    intro a
    unfold off pageSize
    omega
  have hlen : pieceLen sa da n = pageSize - off sa ∨ pieceLen sa da n = pageSize - off da := by
    unfold pieceLen at *
    omega
  rcases hlen with hlen | hlen
  · exact .inl (hlen ▸ hend sa)
  · exact .inr (hlen ▸ hend da)

section Pieces

variable {source : ℤ} {src dst : Side} {gup : ℕ → Bool} {sa da n : ℕ}

theorem copyPiece_eq (hn : source = noneEp ∨ n ≠ messageSize) (m : ℕ → UInt8) :
    copyPiece source src dst sa da n m =
      memcpy (dst.base da + off da) (src.base sa + off sa) (pieceLen sa da n) m := by
  have hno : ¬ (source ≠ noneEp ∧ n = messageSize) := fun h => hn.elim h.1 fun hn => hn h.2
  unfold copyPiece
  rw [if_neg hno]
  split
  · rename_i hlen
    obtain ⟨hs, hd⟩ : off sa = 0 ∧ off da = 0 := by
      unfold pieceLen at hlen
      have := off_lt sa
      have := off_lt da
      omega
    rw [hs, hd, hlen, Nat.add_zero, Nat.add_zero]
  · rfl

theorem copied_copyPiece (hn : source = noneEp ∨ n ≠ messageSize) (hs : src.Points sa)
    (hd : dst.Points da) (m : ℕ → UInt8) :
    Copied (fun k => src.byte (sa + k)) (fun k => dst.byte (da + k)) (pieceLen sa da n) m
      (copyPiece source src dst sa da n m) := by
  have hlt : ∀ k < pieceLen sa da n, off sa + k < pageSize ∧ off da + k < pageSize := by
    intro k hk
    unfold pieceLen at hk
    omega
  rw [copyPiece_eq hn]
  refine copied_memcpy (fun k hk => ?_) fun k hk => ?_
  · rw [hs]
    exact src.byte_add (hlt k hk).1
  · rw [hd]
    exact dst.byte_add (hlt k hk).2

variable (source src dst gup) in
/-- **The loop copies the block** if the pages of all pieces are available, and else the pieces
before the first one whose pages are not. -/
theorem copyLoop_spec (n : ℕ) : ∀ sa da r, source = noneEp ∨ n < messageSize →
    (∀ k < n, k = 0 ∨ Cut sa da k → src.Points (sa + k) ∧ dst.Points (da + k)) →
    Apart (fun k => src.byte (sa + k)) (fun k => dst.byte (da + k)) n →
    ∃ k ≤ n, Copied (fun k => src.byte (sa + k)) (fun k => dst.byte (da + k)) k r.mem
        (copyLoop source src dst gup sa da n r).1.mem ∧
      ((copyLoop source src dst gup sa da n r).2 = EMol.ok ∧ k = n ∧
          (∀ j, reached sa da n j < n → Given src dst gup r.calls j) ∨
        (copyLoop source src dst gup sa da n r).2 = EMol.addrnotavail ∧ k < n ∧
          (k = 0 ∨ Cut sa da k) ∧ ∃ j, k = reached sa da n j ∧
            (∀ i < j, Given src dst gup r.calls i) ∧ ¬ Given src dst gup r.calls j) := by
  induction n using Nat.strongRecOn with
  | ind n ih =>
    intro sa da r hn hp ha
    have hnone : ∀ c, ∀ i < 0, Given src dst gup c i := fun _ _ hi => absurd hi (Nat.not_lt_zero _)
    unfold copyLoop
    split
    · rename_i h0
      exact ⟨0, by omega, .zero .., .inl ⟨rfl, h0.symm, fun j hj => by omega⟩⟩
    rename_i h0
    split
    · rename_i hs
      obtain ⟨i, hi, hno⟩ := getPage_none hs
      refine ⟨0, by omega, .zero .., .inr ⟨rfl, by omega, .inl rfl, 0, rfl, hnone r.calls,
        fun hg => ?_⟩⟩
      have hgi := hg i (by omega)
      rw [Nat.mul_zero, Nat.add_zero, hno] at hgi
      cases hgi
    · rename_i r₁ hs
      have hmem₁ := getPage_mem hs
      obtain ⟨hcalls₁, hgot₁⟩ := getPage_calls hs
      split
      · rename_i hd
        obtain ⟨i, hi, hno⟩ := getPage_none hd
        refine ⟨0, by omega, ?_, .inr ⟨rfl, by omega, .inl rfl, 0, rfl, hnone r.calls,
          fun hg => ?_⟩⟩
        · rw [putPage_mem, hmem₁]
          exact .zero ..
        · have hgi := hg (src.asks + i) (by omega)
          rw [Nat.mul_zero, Nat.add_zero, ← Nat.add_assoc, ← hcalls₁, hno] at hgi
          cases hgi
      · rename_i r₂ hd
        have hmem₂ := getPage_mem hd
        obtain ⟨hcalls₂, hgot₂⟩ := getPage_calls hd
        have hgiven : Given src dst gup r.calls 0 := by
          intro i hi
          rw [Nat.mul_zero, Nat.add_zero]
          by_cases hsrc : i < src.asks
          · exact hgot₁ i hsrc
          · have := hgot₂ (i - src.asks) (by omega)
            rwa [hcalls₁, show r.calls + src.asks + (i - src.asks) = r.calls + i by omega] at this
        have hpos := pieceLen_pos sa da h0
        have hle := pieceLen_le sa da n
        have hfirst : src.Points sa ∧ dst.Points da := hp 0 (by omega) (.inl rfl)
        have hpiece := copied_copyPiece (hn.imp_right Nat.ne_of_lt) hfirst.1 hfirst.2 r.mem
        have hsub : pieceLen sa da n + (n - pieceLen sa da n) = n := by omega
        have hcut : ∀ k < n - pieceLen sa da n, k = 0 ∨ Cut (sa + pieceLen sa da n)
            (da + pieceLen sa da n) k → Cut sa da (pieceLen sa da n + k) := by
          rintro k hk (rfl | hc)
          · exact cut_pieceLen (by omega)
          · simpa only [Cut, Nat.add_assoc] using hc
        obtain ⟨k, hk, hrest, hret⟩ := ih (n - pieceLen sa da n) (by omega)
          (sa + pieceLen sa da n) (da + pieceLen sa da n)
          (src.putPage sa (dst.putPage da
            { r₂ with mem := copyPiece source src dst sa da n r₂.mem }))
          (hn.imp_right fun h => by omega)
          (fun k hk hc => by
            simpa only [Nat.add_assoc] using hp (pieceLen sa da n + k) (by omega)
              (.inr (hcut k hk hc)))
          (by simpa only [Nat.add_assoc] using (hsub.symm ▸ ha).shift)
        have hnext : ∀ j, Given src dst gup (src.putPage sa (dst.putPage da
            { r₂ with mem := copyPiece source src dst sa da n r₂.mem })).calls j ↔
            Given src dst gup r.calls (j + 1) := by
          intro j
          rw [putPage_calls, putPage_calls, given_succ, ← hcalls₁, ← hcalls₂]
        simp only [hnext] at hret
        simp only [putPage_mem, Nat.add_assoc] at hrest
        nth_rewrite 1 [hmem₂, hmem₁] at hrest
        refine ⟨pieceLen sa da n + k, by omega, hpiece.append (ha.mono (by omega)) hrest, ?_⟩
        rcases hret with ⟨hok, rfl, hall⟩ | ⟨hna, hlt, hc, j, rfl, hbefore, hno⟩
        · refine .inl ⟨hok, by omega, fun j hj => ?_⟩
          cases j with
          | zero => exact hgiven
          | succ j => exact hall j (by simp only [reached] at hj; omega)
        · refine .inr ⟨hna, by omega, .inr (hcut _ hlt hc), j + 1, rfl, fun i hi => ?_, hno⟩
          cases i with
          | zero => exact hgiven
          | succ i => exact hbefore i (by omega)

end Pieces

/-! ### Two user processes -/

/-- **`copy_usr2usr` is the copy of a block** of bytes in disjoint memory: of all of it if all pages
are available, and else of the pieces before the first one that lacks a page. This beginning is
empty or ends with a page; every page is released. -/
theorem usr2usr_copies (gup : ℕ → Bool) (srcFrame dstFrame : ℕ → ℕ) (sa da : ℕ) {bytes : ℤ}
    (h0 : 0 ≤ bytes) (hmax : bytes ≤ maxCopyLen) (r : Run)
    (ha : Apart (fun k => (Side.user srcFrame).byte (sa + k))
      (fun k => (Side.user dstFrame).byte (da + k)) bytes.toNat) :
    let out := copyUsr2usr noneEp gup srcFrame sa dstFrame da bytes r
    let copies k := Copied (fun k => (Side.user srcFrame).byte (sa + k))
      (fun k => (Side.user dstFrame).byte (da + k)) k r.mem out.1.mem
    let given := Given (.user srcFrame) (.user dstFrame) gup r.calls
    (out.2 = EMol.ok ∧ copies bytes.toNat ∧
        (∀ j, reached sa da bytes.toNat j < bytes.toNat → given j) ∨
      out.2 = EMol.addrnotavail ∧ ∃ j, (∀ i < j, given i) ∧ ¬ given j ∧
        let k := reached sa da bytes.toNat j
        k < bytes.toNat ∧ (k = 0 ∨ Cut sa da k) ∧ copies k) ∧
    ∃ l, out.1.log = r.log ++ l ∧ Returned l := by
  have hrange : ¬ (bytes < 0 ∨ maxCopyLen < bytes) := by omega
  obtain ⟨k, hk, hcopy, hret⟩ := copyLoop_spec noneEp (.user srcFrame) (.user dstFrame) gup
    bytes.toNat sa da r (.inl rfl)
    (fun k _ _ => ⟨Side.points_user srcFrame _, Side.points_user dstFrame _⟩) ha
  have hlog := copyLoop_log noneEp (.user srcFrame) (.user dstFrame) gup bytes.toNat sa da r
  unfold copyUsr2usr
  rw [if_neg hrange]
  refine ⟨?_, hlog⟩
  rcases hret with ⟨hok, rfl, hall⟩ | ⟨hna, hlt, hc, j, rfl, hbefore, hno⟩
  · exact .inl ⟨hok, hcopy, hall⟩
  · exact .inr ⟨hna, j, hbefore, hno, hlt, hc, hcopy⟩

theorem apart_sample (sa da : ℕ) {n : ℕ} (hs : sa + n ≤ 512 * pageSize) :
    Apart (fun k => (Side.user id).byte (sa + k)) (fun k => (Side.user (· + 512)).byte (da + k))
      n := by
  have hsrc : ∀ a, (Side.user id).byte a = a := by
    intro a
    simp only [Side.byte, off, pageSize, id]
    omega
  have hdst : ∀ a, (Side.user (· + 512)).byte a = a + 512 * pageSize := by
    intro a
    simp only [Side.byte, off, pageSize]
    omega
  constructor
  · intro i j hi hj
    rw [hsrc, hdst]
    omega
  · intro i j hi hj h
    rw [hdst, hdst] at h
    omega

/-- Twenty bytes across the end of a page of the source, whose second page is not available: six
bytes are copied. -/
theorem usr2usr_copies_beginning :
    let out := copyUsr2usr noneEp (· ≠ 2) id 4090 (· + 512) 10 20 { mem := .ofNat }
    out.2 = EMol.addrnotavail ∧ Copied (fun k => (Side.user id).byte (4090 + k))
      (fun k => (Side.user (· + 512)).byte (10 + k)) 6 .ofNat out.1.mem := by
  have hlack : ¬ Given (.user id) (.user (· + 512)) (· ≠ 2) 0 1 :=
    fun h => absurd (h 0 (by decide)) (by decide)
  obtain ⟨⟨-, -, hall⟩ | ⟨hna, j, hbefore, hno, -, -, hcopy⟩, -⟩ :=
    usr2usr_copies (· ≠ 2) id (· + 512) 4090 10 (show (0 : ℤ) ≤ 20 by decide) (by decide)
      { mem := .ofNat } (apart_sample 4090 10 (by decide))
  · exact absurd (hall 1 (by decide)) hlack
  · have hj : j = 1 := by
      rcases j with _ | _ | j
      · exact absurd (by unfold Given; decide) hno
      · rfl
      · exact absurd (hbefore 1 (by omega)) hlack
    subst hj
    exact ⟨hna, hcopy⟩

/-- Without the first page nothing is copied, and the empty beginning need not end with a page. -/
theorem usr2usr_no_page :
    let out := copyUsr2usr noneEp (fun _ => false) id 4090 (· + 512) 10 20 { mem := .ofNat }
    out.2 = EMol.addrnotavail ∧ ¬ ∃ k ≤ 20, Cut 4090 10 k ∧
      Copied (fun k => (Side.user id).byte (4090 + k))
        (fun k => (Side.user (· + 512)).byte (10 + k)) k .ofNat out.1.mem := by
  have hout : copyUsr2usr noneEp (fun _ => false) id 4090 (· + 512) 10 20 { mem := .ofNat } =
      ({ mem := .ofNat }, EMol.addrnotavail) := by
    unfold copyUsr2usr copyLoop
    rfl
  rw [hout]
  refine ⟨rfl, ?_⟩
  rintro ⟨k, -, hcut, hcopy⟩
  cases k with
  | zero => exact absurd hcut (by unfold Cut; decide)
  | succ k => exact absurd (hcopy.copied 0 k.succ_pos) (by decide)

end MolIpc.Copy
