import MolIpc.Proc

/-!
The raw-Ethernet proxies (`proxy/raw_proxy.c`): `ps_send_message` cuts a command with its payload
into frames, `pr_rcv_message` puts the frames together and hands the command to `mnx_put2lcl`.

The socket calls succeed. A sender that asks for an Ethernet acknowledge gets it, since no frame is
lost; what the two threads of a node tell each other about acknowledges (`rmt_ack_seq`,
`sender_waiting`, `last_ack_send`) and the frames `CMD_FRAME_ACK` that carry them are left out.
-/

namespace MolIpc

namespace Raw

/-! ### Commands -/

/-- `CMD_ACKNOWLEDGE`. -/
def cmdAcknowledge : BitVec 32 := 1#32 <<< 13

/-- `CMD_NONE`. -/
def cmdNone : BitVec 32 := 0#32

/-- `CMD_COPYIN_DATA`. -/
def cmdCopyinData : BitVec 32 := 5#32

/-- `CMD_COPYOUT_DATA`, that is `CMD_COPYOUT_RQST | CMD_ACKNOWLEDGE`. -/
def cmdCopyoutData : BitVec 32 := 6#32 ||| cmdAcknowledge

/-- `CMD_LAST_CMD`. -/
def cmdLastCmd : ℤ := 13

/-- `CMD_FRAME_ACK`. -/
def cmdFrameAck : BitVec 32 := 0x20#32

/-- `MAXCOPYBUF`. -/
def maxCopybuf : ℕ := 65536

/-- `sizeof(c_len)`. -/
def sizeofLen : ℕ := 4

def cmdNr (cmd : BitVec 32) : ℤ := (cmd &&& ~~~cmdAcknowledge).toInt

/-- The test of `check_msgtype` and `pr_rcv_message` on a command without the acknowledge bit. -/
def inRange (cmd : BitVec 32) : Prop := 0 ≤ cmdNr cmd ∧ cmdNr cmd ≤ cmdLastCmd

instance (cmd : BitVec 32) : Decidable (inRange cmd) := inferInstanceAs (Decidable (_ ∧ _))

def hasPayload (cmd : BitVec 32) : Prop := cmd = cmdCopyinData ∨ cmd = cmdCopyoutData

instance (cmd : BitVec 32) : Decidable (hasPayload cmd) := inferInstanceAs (Decidable (_ ∨ _))

/-! ### Frames -/

/-- The fields of `cmd_t` that the proxies look at; `rest` are those that they only carry. -/
structure Header (α : Type*) where
  cmd : BitVec 32
  len : ℕ
  vBytes : ℕ
  rest : α

/-- The bits of `c_flags` that the proxies set. -/
structure Flags where
  data : Bool := false
  eob : Bool := false
  needack : Bool := false
  deriving DecidableEq

/-- A frame: the command header with the fields of the proxies, and the payload, of which `c_len`
bytes are sent. -/
structure Frame (α : Type*) where
  hdr : Header α
  flags : Flags
  sndSeq : ℕ
  pay : Mem

/-- The layout of a frame: `hdr_plus_cmd` bytes of headers, and the payload behind them. -/
structure Layout where
  ethFrameLen : ℕ
  hdrPlusCmd : ℕ
  room : hdrPlusCmd + sizeofLen ≤ ethFrameLen

/-- `ETH_FRAME_LEN - hdr_plus_cmd`, the bytes of payload in a full frame. -/
def Layout.payLen (L : Layout) : ℕ := L.ethFrameLen - L.hdrPlusCmd

theorem Layout.sizeofLen_le_payLen (L : Layout) : sizeofLen ≤ L.payLen := by
  have := L.room
  unfold payLen
  omega

theorem Layout.payLen_pos (L : Layout) : 0 < L.payLen :=
  Nat.lt_of_lt_of_le (by decide) L.sizeofLen_le_payLen

def Layout.sample : Layout := ⟨1514, 104, by decide⟩

/-- `msgtype`: `RAW_ETH_HDR`, `RAW_ETH_PAY` and `RAW_ETH_ACK`. -/
structure Msgtype where
  hdr : Bool
  pay : Bool
  ack : Bool
  deriving DecidableEq

/-! ### The sender -/

section Sender

variable {α : Type*}

/-- The message type that `ps_start_serving` gives to a header. -/
def msgtypeOf (cmd : BitVec 32) : Msgtype where
  hdr := true
  pay := hasPayload cmd
  ack := cmd &&& cmdAcknowledge ≠ 0#32

/-- The assertions of `check_msgtype`. -/
def checkMsgtype (t : Msgtype) (cmd : BitVec 32) : Bool :=
  if cmd = cmdCopyinData then t.hdr || t.pay
  else if cmd = cmdCopyoutData then t.hdr || t.pay || t.ack
  else if cmd = cmdFrameAck then !t.hdr && !t.pay && t.ack
  else t.hdr && (t.ack || decide (cmd &&& cmdAcknowledge = 0#32)) && decide (inRange cmd)

/-- The frame of the payload bytes from `off` on; the loop adds to the flags of the frame before.
Every full frame asks for an acknowledge (`RAW_ACK_RATE` is 1). -/
def dataFrame (L : Layout) (h : Header α) (pay : Mem) (seq : ℕ) (flags : Flags)
    (off remain : ℕ) : Frame α where
  hdr := { h with len := if remain < L.payLen then remain else L.payLen }
  flags :=
    if remain < L.payLen then { flags with data := true, eob := true }
    else { flags with data := true, needack := true }
  sndSeq := seq + 1
  pay a := pay (off + a)

/-- The loop of `ps_send_message` over the payload, for at most `fuel` frames. -/
def sendData (L : Layout) (h : Header α) (pay : Mem) : ℕ → ℕ → Flags → ℕ → ℕ → List (Frame α)
  | 0, _, _, _, _ => []
  | fuel + 1, seq, flags, off, remain =>
    let f := dataFrame L h pay seq flags off remain
    f :: if 0 < remain - f.hdr.len then
        sendData L h pay fuel (seq + 1) f.flags (off + f.hdr.len) (remain - f.hdr.len)
      else []

/-- The frame of the header: `c_flags` is 0 when it is tested, so that no header asks for an
acknowledge. -/
def headerFrame (h : Header α) (pay : Mem) (seq : ℕ) : Frame α := ⟨h, {}, seq + 1, pay⟩

/-- `ps_send_message`: the frames sent, or nothing after a failed assertion. A frame has at least
one byte, so that `c_len` turns are enough. -/
def psSendMessage (L : Layout) (h : Header α) (pay : Mem) (t : Msgtype) (seq : ℕ) :
    Option (List (Frame α)) :=
  if ¬ checkMsgtype t h.cmd then none
  else if ¬ hasPayload h.cmd then some [headerFrame h pay seq]
  else if h.len = 0 then none
  else some (headerFrame h pay seq :: sendData L h pay h.len (seq + 1) {} 0 h.len)

/-- What `ps_start_serving` sends for a header that it has got from `mnx_get2rmt`. -/
def psServe (L : Layout) (h : Header α) (pay : Mem) (seq : ℕ) : Option (List (Frame α)) :=
  psSendMessage L h pay (msgtypeOf h.cmd) seq

end Sender

/-! ### The receiver -/

section Receiver

variable {α : Type*}

/-- The receiver: `lcl_ack_seq`, `total_bytes`, the offset of `data_ptr` in `td_payload` (`none` is
a null pointer), `td_header`, `td_payload`, and the payload in `td_rframe`. -/
structure Receiver (α : Type*) where
  lclAckSeq : ℕ
  totalBytes : ℕ
  dataPtr : Option ℕ
  header : Header α
  payload : Mem
  rframePay : Mem

/-- What a frame leads to: the loop goes on, a complete message, an assertion that fails, or
`ERROR_EXIT`. -/
inductive Turn (α : Type*)
  | goOn (r : Receiver α)
  | complete (r : Receiver α)
  | aborts
  | exits

/-- The begin of `pr_rcv_message`. -/
def Receiver.rcvAgain (r : Receiver α) : Receiver α := { r with totalBytes := 0, dataPtr := none }

/-- The payload of a frame of data is copied to `data_ptr`; `memcpy` gets the size of `c_len` and
not its value. -/
def Receiver.copyData (r : Receiver α) (p len : ℕ) : Receiver α :=
  { r with
    payload := r.payload.blit p r.rframePay 0 sizeofLen
    dataPtr := some (p + len)
    totalBytes := r.totalBytes + len }

def Receiver.rcvData (r : Receiver α) (f : Frame α) : Turn α :=
  match r.dataPtr with
  | none => .aborts
  | some p =>
    if ¬ hasPayload f.hdr.cmd ∨ f.hdr.len = 0 ∨ maxCopybuf < r.totalBytes + f.hdr.len then .aborts
    else
      let r := r.copyData p f.hdr.len
      -- a set of frames with another length than `v_bytes` is discarded
      if f.flags.eob ∧ f.hdr.vBytes = r.totalBytes then .complete r else .goOn r

def Receiver.rcvHeader (r : Receiver α) (f : Frame α) : Turn α :=
  if ¬ inRange f.hdr.cmd then .exits
  else if hasPayload f.hdr.cmd then .goOn { r with dataPtr := some 0, header := f.hdr }
  else .complete { r with header := f.hdr }

/-- A turn of the loop of `pr_rcv_message`: `recvfrom` and what is done with the frame. -/
def Receiver.rcvFrame (r : Receiver α) (f : Frame α) : Turn α :=
  let r := { r with rframePay := r.rframePay.blit 0 f.pay 0 (if f.flags.data then f.hdr.len else 0) }
  if r.lclAckSeq + 1 ≠ f.sndSeq then .goOn r
  else
    let r := { r with lclAckSeq := r.lclAckSeq + 1 }
    if f.hdr.cmd = cmdFrameAck then .goOn r
    else if f.flags.data then r.rcvData f
    else r.rcvHeader f

/-- `pr_start_serving` over the frames that arrive: the calls of `mnx_put2lcl`, with `td_header` and
`td_payload`. -/
def Receiver.serve (r : Receiver α) : List (Frame α) → List (Header α × Mem)
  | [] => []
  | f :: fs =>
    match r.rcvFrame f with
    | .goOn r' => r'.serve fs
    | .complete r' =>
      if f.hdr.cmd = cmdNone then r'.rcvAgain.serve fs
      else (r'.header, r'.payload) :: r'.rcvAgain.serve fs
    | .aborts | .exits => []

end Receiver

end Raw

end MolIpc
