import MolIpc.Raw.Frames
import Mathlib.Algebra.Order.Group.Nat
import Mathlib.Data.Nat.Basic

/-!
What the receiver hands over of a message that was cut into frames. The frames after the header
leave, in each stretch of the buffer that belongs to a full frame, the first bytes of the payload
only, and the last frame is marked as such only if it is not full.
-/

namespace MolIpc

namespace Raw

variable {α : Type*} {L : Layout} {h : Header α} {pay : Mem} {r : Receiver α} {f : Frame α}
  {seq off remain fuel a : ℕ} {flags : Flags} {cmd : BitVec 32}

/-! ### One frame -/

/-- The receiver after `recvfrom` of a frame of data that is the next one in sequence. -/
def Receiver.took (r : Receiver α) (f : Frame α) : Receiver α :=
  { r with
    rframePay := r.rframePay.blit 0 f.pay 0 f.hdr.len
    lclAckSeq := r.lclAckSeq + 1 }

theorem not_frameAck_of_hasPayload (hp : hasPayload cmd) : cmd ≠ cmdFrameAck := by
  rintro rfl
  exact absurd hp (by decide)

theorem inRange_of_hasPayload (hp : hasPayload cmd) : inRange cmd := by
  rcases hp with rfl | rfl <;> decide

theorem rcvFrame_data {p : ℕ} (hseq : f.sndSeq = r.lclAckSeq + 1) (hd : f.flags.data = true)
    (hp : hasPayload f.hdr.cmd) (hl : 0 < f.hdr.len) (hptr : r.dataPtr = some p)
    (hfit : r.totalBytes + f.hdr.len ≤ maxCopybuf) :
    r.rcvFrame f =
      if f.flags.eob ∧ f.hdr.vBytes = r.totalBytes + f.hdr.len then
        .complete ((r.took f).copyData p f.hdr.len)
      else .goOn ((r.took f).copyData p f.hdr.len) := by
  have hcmd := not_frameAck_of_hasPayload hp
  have hok : ¬(¬hasPayload f.hdr.cmd ∨ f.hdr.len = 0 ∨ maxCopybuf < r.totalBytes + f.hdr.len) := by
    rintro (h1 | h1 | h1)
    · exact h1 hp
    · omega
    · omega
  simp only [Receiver.rcvFrame, hd, if_true, hseq, ne_eq, not_true_eq_false, if_false, hcmd,
    Receiver.rcvData, hptr, if_neg hok]
  rfl

theorem rcvFrame_header (r : Receiver α) (pay : Mem) (hseq : seq = r.lclAckSeq) (hp : hasPayload h.cmd) :
    ∃ r', r.rcvFrame (headerFrame h pay seq) = .goOn r' ∧ r'.lclAckSeq = seq + 1 ∧
      r'.totalBytes = r.totalBytes ∧ r'.dataPtr = some 0 ∧ r'.header = h ∧
      r'.payload = r.payload := by
  subst hseq
  have hcmd := not_frameAck_of_hasPayload hp
  refine ⟨{ r with
    lclAckSeq := r.lclAckSeq + 1
    rframePay := r.rframePay.blit 0 pay 0 0
    dataPtr := some 0
    header := h }, ?_, rfl, rfl, rfl, rfl, rfl⟩
  simp [Receiver.rcvFrame, headerFrame, hcmd, Receiver.rcvHeader, inRange_of_hasPayload hp, hp]

theorem rcvFrame_plain (r : Receiver α) (pay : Mem) (hseq : seq = r.lclAckSeq)
    (hp : ¬hasPayload h.cmd) (hr : inRange h.cmd) (hcmd : h.cmd ≠ cmdFrameAck) :
    ∃ r', r.rcvFrame (headerFrame h pay seq) = .complete r' ∧ r'.header = h := by
  subst hseq
  refine ⟨{ r with
    lclAckSeq := r.lclAckSeq + 1
    rframePay := r.rframePay.blit 0 pay 0 0
    header := h }, ?_, rfl⟩
  simp [Receiver.rcvFrame, headerFrame, hcmd, Receiver.rcvHeader, hr, hp]

/-! ### The frames of a payload -/

/-- The receiver has put together the first `off` bytes of the message `h`. -/
structure Receiver.At (r : Receiver α) (h : Header α) (seq off : ℕ) : Prop where
  seq : r.lclAckSeq = seq
  total : r.totalBytes = off
  ptr : r.dataPtr = some off
  header : r.header = h

/-- The bytes of the payload from `off` on that the receiver copies: the first ones of each
frame. -/
def Copied (L : Layout) (off a : ℕ) : Prop := off ≤ a ∧ (a - off) % L.payLen < sizeofLen

instance (L : Layout) (off a : ℕ) : Decidable (Copied L off a) := inferInstanceAs (Decidable (_ ∧ _))

theorem payload_copyData (r : Receiver α) (f : Frame α) (p : ℕ)
    (ha : p ≤ a → a < p + sizeofLen → a < p + f.hdr.len) :
    ((r.took f).copyData p f.hdr.len).payload a =
      if p ≤ a ∧ a < p + sizeofLen then f.pay (a - p) else r.payload a := by
  simp only [Receiver.copyData, Receiver.took, Mem.blit]
  split_ifs with h1 h2
  · exact congrArg f.pay (by omega)
  · have := ha h1.1 h1.2
    omega
  · rfl

theorem rcvFrame_dataFrame (pay : Mem) (flags : Flags) {fl : Flags} {len : ℕ} (hat : r.At h seq off)
    (hp : hasPayload h.cmd) (hlen : (dataFrame L h pay seq flags off remain).hdr.len = len)
    (hfl : (dataFrame L h pay seq flags off remain).flags = fl) (hd : fl.data = true)
    (hpos : 0 < len) (hfit : off + len ≤ maxCopybuf) :
    ∃ r', r.rcvFrame (dataFrame L h pay seq flags off remain) =
        (if fl.eob ∧ h.vBytes = off + len then .complete r' else .goOn r') ∧
      r'.At h (seq + 1) (off + len) ∧
      ∀ a, (off ≤ a → a < off + sizeofLen → a < off + len) →
        r'.payload a = if off ≤ a ∧ a < off + sizeofLen then pay a else r.payload a := by
  subst hlen hfl
  have hturn := rcvFrame_data (f := dataFrame L h pay seq flags off remain)
    (by rw [hat.seq]; rfl) hd hp hpos hat.ptr (hat.total.symm ▸ hfit)
  rw [hat.total] at hturn
  refine ⟨_, hturn, ⟨congrArg (· + 1) hat.seq, congrArg (· + _) hat.total, rfl, hat.header⟩,
    fun a ha => ?_⟩
  rw [payload_copyData _ _ _ ha]
  split_ifs with h1
  · exact congrArg pay (by omega)
  · rfl

theorem rcvFrame_full (L : Layout) (pay : Mem) (flags : Flags) (hat : r.At h seq off)
    (hp : hasPayload h.cmd) (hge : L.payLen ≤ remain) (hfit : off + remain ≤ maxCopybuf)
    (heob : flags.eob = false) :
    ∃ r', r.rcvFrame (dataFrame L h pay seq flags off remain) = .goOn r' ∧
      r'.At h (seq + 1) (off + L.payLen) ∧
      ∀ a, r'.payload a = if off ≤ a ∧ a < off + sizeofLen then pay a else r.payload a := by
  have hnot : ¬remain < L.payLen := by omega
  obtain ⟨r', hturn, hat', hpay⟩ := rcvFrame_dataFrame pay flags hat hp
    (if_neg hnot) (if_neg hnot) rfl L.payLen_pos (by omega)
  rw [heob, if_neg (by simp)] at hturn
  have := L.sizeofLen_le_payLen
  exact ⟨r', hturn, hat', fun a => hpay a (by omega)⟩

theorem rcvFrame_last (pay : Mem) (flags : Flags) (hat : r.At h seq off) (hp : hasPayload h.cmd)
    (hlt : remain < L.payLen) (hpos : 0 < remain) (hfit : off + remain ≤ maxCopybuf)
    (hv : h.vBytes = off + remain) :
    ∃ r', r.rcvFrame (dataFrame L h pay seq flags off remain) = .complete r' ∧ r'.header = h ∧
      ∀ a < off + remain,
        r'.payload a = if off ≤ a ∧ a < off + sizeofLen then pay a else r.payload a := by
  obtain ⟨r', hturn, hat', hpay⟩ := rcvFrame_dataFrame pay flags hat hp
    (if_pos hlt) (if_pos hlt) rfl hpos hfit
  rw [if_pos ⟨rfl, hv⟩] at hturn
  exact ⟨r', hturn, hat'.header, fun a ha => hpay a fun _ _ => ha⟩

theorem copied_succ (ha : off + L.payLen ≤ a) : Copied L off a ↔ Copied L (off + L.payLen) a := by
  have hsub : a - off = (a - (off + L.payLen)) + L.payLen := by omega
  unfold Copied
  rw [hsub, Nat.add_mod_right]
  constructor
  · exact fun h1 => ⟨ha, h1.2⟩
  · exact fun h1 => ⟨by omega, h1.2⟩

theorem copied_first (ha : a < off + L.payLen) :
    Copied L off a ↔ off ≤ a ∧ a < off + sizeofLen := by
  unfold Copied
  constructor
  · rintro ⟨h1, h2⟩
    rw [Nat.mod_eq_of_lt (by omega)] at h2
    exact ⟨h1, by omega⟩
  · rintro ⟨h1, h2⟩
    rw [Nat.mod_eq_of_lt (by omega)]
    exact ⟨h1, by omega⟩

/-- **The frames of the payload from `off` on**: nothing is handed over if the last frame is full,
else the message once, with the first bytes of each frame. -/
theorem serve_sendData (L : Layout) (pay : Mem) (flags : Flags) (hat : r.At h seq off)
    (hp : hasPayload h.cmd) (hpos : 0 < remain)
    (hfuel : remain ≤ fuel) (hfit : off + remain ≤ maxCopybuf)
    (hv : h.vBytes = off + remain) (heob : flags.eob = false) :
    if L.payLen ∣ remain then r.serve (sendData L h pay fuel seq flags off remain) = []
    else ∃ buf, r.serve (sendData L h pay fuel seq flags off remain) = [(h, buf)] ∧
      ∀ a < off + remain, buf a = if Copied L off a then pay a else r.payload a := by
  -- one frame for each turn of the loop of the sender
  induction fuel generalizing r seq off remain flags with
  | zero => omega
  | succ fuel ih =>
    have hF : 0 < L.payLen := L.payLen_pos
    have hnone : h.cmd ≠ cmdNone := by
      intro he
      rw [he] at hp
      exact absurd hp (by decide)
    by_cases hlt : remain < L.payLen
    · obtain ⟨r', hturn, hh, hbuf⟩ := rcvFrame_last pay flags hat hp hlt hpos hfit hv
      have hlen : (dataFrame L h pay seq flags off remain).hdr.len = remain := if_pos hlt
      have hsend : sendData L h pay (fuel + 1) seq flags off remain =
          [dataFrame L h pay seq flags off remain] := by
        simp [sendData, hlen]
      rw [if_neg (Nat.not_dvd_of_pos_of_lt hpos hlt), hsend]
      refine ⟨r'.payload, ?_, fun a ha => ?_⟩
      · have hc : (dataFrame L h pay seq flags off remain).hdr.cmd ≠ cmdNone := hnone
        simp [Receiver.serve, hturn, hc, hh]
      · rw [hbuf a ha]
        exact if_congr (copied_first (by omega)).symm rfl rfl
    · obtain ⟨r', hturn, hat', hbuf⟩ :=
        rcvFrame_full L pay flags hat hp (not_lt.1 hlt) hfit heob
      have hlen : (dataFrame L h pay seq flags off remain).hdr.len = L.payLen := if_neg hlt
      have hfl : (dataFrame L h pay seq flags off remain).flags.eob = false := by
        simp [dataFrame, hlt, heob]
      by_cases hlast : remain = L.payLen
      · -- the last frame is full and does not carry `RAW_EOB`
        have hsend : sendData L h pay (fuel + 1) seq flags off remain =
            [dataFrame L h pay seq flags off remain] := by
          have hend : ¬0 < remain - (dataFrame L h pay seq flags off remain).hdr.len := by omega
          simp only [sendData, if_neg hend]
        rw [if_pos ⟨1, by omega⟩, hsend]
        simp [Receiver.serve, hturn]
      · have hmore : 0 < remain - L.payLen := by omega
        have hrec := ih _ hat' hmore (by omega) (by omega) (by omega) hfl
        have hserve : r.serve (sendData L h pay (fuel + 1) seq flags off remain) =
            r'.serve (sendData L h pay fuel (seq + 1)
              (dataFrame L h pay seq flags off remain).flags (off + L.payLen)
              (remain - L.payLen)) := by
          simp only [sendData, hlen, hmore, if_true, Receiver.serve, hturn]
        have hdvd : L.payLen ∣ remain - L.payLen ↔ L.payLen ∣ remain :=
          Nat.dvd_sub_self_right.trans (or_iff_left (by omega))
        rw [hserve]
        simp only [hdvd] at hrec
        split_ifs at hrec ⊢ with hd
        · exact hrec
        · obtain ⟨buf, hcalls, hb⟩ := hrec
          refine ⟨buf, hcalls, fun a ha => ?_⟩
          rw [hb a (by omega)]
          by_cases hin : a < off + L.payLen
          · have hno : ¬Copied L (off + L.payLen) a := fun h1 => absurd h1.1 (by omega)
            rw [if_neg hno, hbuf a]
            exact if_congr (copied_first hin).symm rfl rfl
          · have hold : r'.payload a = r.payload a := by
              have := L.sizeofLen_le_payLen
              rw [hbuf a, if_neg (by omega)]
            rw [hold]
            exact if_congr (copied_succ (not_lt.1 hin)).symm rfl rfl

/-! ### Messages -/

/-- A header that `mnx_get2rmt` hands over: its payload, if any, fits in the buffer and has the
length of the copy. -/
structure Command (α : Type*) extends Header α where
  isCmd : cmd ≠ cmdNone
  range : inRange cmd
  payload : hasPayload cmd → 0 < len ∧ len ≤ maxCopybuf ∧ vBytes = len

/-- The frames of a message, received in order and without loss, lead to one call of `mnx_put2lcl`,
with the header and the payload. -/
def Delivered (L : Layout) (r : Receiver α) (h : Header α) (pay : Mem) : Prop :=
  ∃ fs, psServe L h pay r.lclAckSeq = some fs ∧ ∃ buf, r.rcvAgain.serve fs = [(h, buf)] ∧
    (hasPayload h.cmd → ∀ a < h.len, buf a = pay a)

section

variable (m : Command α)

theorem Command.ne_frameAck : m.cmd ≠ cmdFrameAck := by
  intro he
  have hr := m.range
  rw [he] at hr
  exact absurd hr (by decide)

theorem Command.checkMsgtype : checkMsgtype (msgtypeOf m.cmd) m.cmd = true := by
  have hbit : (msgtypeOf m.cmd).ack = true ∨ m.cmd &&& cmdAcknowledge = 0#32 := by
    by_cases hb : m.cmd &&& cmdAcknowledge = 0#32
    · exact .inr hb
    · exact .inl (by simpa [msgtypeOf] using hb)
  unfold Raw.checkMsgtype
  split_ifs with h1 h2 h3
  · rfl
  · rfl
  · exact absurd h3 m.ne_frameAck
  · rcases hbit with hb | hb
    · rw [hb]
      simp [msgtypeOf, m.range]
    · simp [msgtypeOf, m.range, hb]

theorem Command.psServe_plain (hp : ¬hasPayload m.cmd) :
    psServe L m.toHeader pay seq = some [headerFrame m.toHeader pay seq] := by
  simp [psServe, psSendMessage, m.checkMsgtype, hp]

theorem Command.psServe_payload (hp : hasPayload m.cmd) :
    psServe L m.toHeader pay seq = some (headerFrame m.toHeader pay seq ::
      sendData L m.toHeader pay m.len (seq + 1) {} 0 m.len) := by
  have hlen : m.len ≠ 0 := Nat.pos_iff_ne_zero.1 (m.payload hp).1
  simp [psServe, psSendMessage, m.checkMsgtype, hp, hlen]

theorem Command.delivered_plain (hp : ¬hasPayload m.cmd) : Delivered L r m.toHeader pay := by
  obtain ⟨r', hturn, hh⟩ := rcvFrame_plain r.rcvAgain pay (show r.lclAckSeq = _ from rfl) hp
    m.range m.ne_frameAck
  refine ⟨_, m.psServe_plain hp, r'.payload, ?_, fun h1 => absurd h1 hp⟩
  have hcmd : (headerFrame m.toHeader pay r.lclAckSeq).hdr.cmd ≠ cmdNone := m.isCmd
  simp only [Receiver.serve, hturn]
  rw [if_neg hcmd, hh]

theorem Command.serve_payload (hp : hasPayload m.cmd) (r : Receiver α) (pay : Mem) :
    ∃ fs, psServe L m.toHeader pay r.lclAckSeq = some fs ∧
      if L.payLen ∣ m.len then r.rcvAgain.serve fs = []
      else ∃ buf, r.rcvAgain.serve fs = [(m.toHeader, buf)] ∧
        ∀ a < m.len, buf a = if a % L.payLen < sizeofLen then pay a else r.payload a := by
  obtain ⟨hpos, hfit, hv⟩ := m.payload hp
  obtain ⟨r', hturn, h1, h2, h3, h4, h5⟩ :=
    rcvFrame_header r.rcvAgain pay (show r.lclAckSeq = _ from rfl) hp
  refine ⟨_, m.psServe_payload hp, ?_⟩
  have hat : r'.At m.toHeader (r.lclAckSeq + 1) 0 := ⟨h1, h2, h3, h4⟩
  have hdata := serve_sendData L pay {} hat hp hpos (le_refl _) (by omega) (by omega) rfl
  simp only [Receiver.serve, hturn]
  split_ifs at hdata ⊢ with hd
  · exact hdata
  · obtain ⟨buf, hcalls, hbuf⟩ := hdata
    refine ⟨buf, hcalls, fun a ha => ?_⟩
    rw [hbuf a (by omega), h5]
    exact if_congr (by simp [Copied]) rfl rfl

end

/-- **The round trip of a message** succeeds iff the last frame is not full, and the buffer of the
receiver already holds the bytes of each frame from the fifth on. -/
theorem delivered_iff (L : Layout) (m : Command α) (r : Receiver α) (pay : Mem) :
    Delivered L r m.toHeader pay ↔ (hasPayload m.cmd → ¬L.payLen ∣ m.len ∧
      ∀ a < m.len, sizeofLen ≤ a % L.payLen → r.payload a = pay a) := by
  by_cases hp : hasPayload m.cmd
  · obtain ⟨fs, hfs, hserve⟩ := m.serve_payload (L := L) hp r pay
    constructor
    · rintro ⟨fs', hfs', buf', hcalls, hpay⟩ -
      obtain rfl : fs = fs' := Option.some.inj (hfs.symm.trans hfs')
      split_ifs at hserve with hd
      · rw [hserve] at hcalls
        exact absurd hcalls (by simp)
      · obtain ⟨buf, hcalls', hbuf⟩ := hserve
        rw [hcalls'] at hcalls
        obtain ⟨-, rfl⟩ := hcalls
        refine ⟨hd, fun a ha hge => ?_⟩
        have h1 := hbuf a ha
        rw [if_neg (not_lt.2 hge)] at h1
        exact h1.symm.trans (hpay hp a ha)
    · intro hok
      obtain ⟨hd, hold⟩ := hok hp
      rw [if_neg hd] at hserve
      obtain ⟨buf, hcalls, hbuf⟩ := hserve
      refine ⟨fs, hfs, buf, hcalls, fun _ a ha => ?_⟩
      rw [hbuf a ha]
      split_ifs with hlt
      · rfl
      · exact hold a ha (not_lt.1 hlt)
  · exact ⟨fun _ h1 => absurd h1 hp, fun _ => m.delivered_plain hp⟩

def Command.sample : Command Unit :=
  ⟨⟨cmdCopyinData, 5, 5, ()⟩, by decide, by decide, by decide⟩

def Receiver.sample : Receiver Unit := ⟨0, 0, none, ⟨cmdNone, 0, 0, ()⟩, fun _ => 0, fun _ => 0⟩

/-- Of five bytes in one frame the fifth one is not copied. -/
theorem not_delivered_five :
    ¬Delivered .sample .sample Command.sample.toHeader (fun _ => 7) := by
  rintro ⟨fs, hfs, buf, hcalls, hpay⟩
  have hfs' : psServe .sample Command.sample.toHeader (fun _ => 7) Receiver.sample.lclAckSeq =
      some (headerFrame Command.sample.toHeader (fun _ => 7) 0 ::
        sendData .sample Command.sample.toHeader (fun _ => 7) 5 1 {} 0 5) := rfl
  obtain rfl := Option.some.inj (hfs'.symm.trans hfs)
  have hbuf : ((Receiver.sample.rcvAgain.serve (headerFrame Command.sample.toHeader (fun _ => 7) 0 ::
      sendData .sample Command.sample.toHeader (fun _ => 7) 5 1 {} 0 5)).map
        fun call => call.2 4) = [0] := by
    decide +kernel
  rw [hcalls] at hbuf
  have h4 : buf 4 = 0 := by simpa using hbuf
  have h7 := hpay (by decide) 4 (by decide)
  rw [h4] at h7
  exact absurd h7 (by decide)

end Raw

end MolIpc
