import Mathlib.Data.Int.Notation

/-!
The constants of the IPC module: endpoints and process numbers, timeouts, the error codes of
`molerrno.h` and the commands exchanged by the proxies (`cmd.h`).
-/

namespace MolIpc

/-! ### Endpoints -/

/-- `NR_TASKS`. -/
def nrTasks : ℤ := 35

/-- `NR_SYS_PROCS`. -/
def nrSysProcs : ℤ := 64

/-- `ANY`: any process. -/
def anyEp : ℤ := 0x7ace

/-- `NONE`: no process at all. -/
def noneEp : ℤ := 0x6ace

/-- `SELF`: the caller. -/
def selfEp : ℤ := 0x8ace

/-- `LOCALNODE`, the node of a bind that means the caller's. -/
def localNode : ℤ := -1

/-- `_ENDPOINT_GENERATION_SIZE`. -/
def generationSize : ℤ := nrTasks + selfEp + 1

/-- `_ENDPOINT(g, p)`: the endpoint of process number `p` in generation `g`. -/
def endpointOf (g p : ℤ) : ℤ := g * generationSize + p

/-- `_ENDPOINT_P(e)`: the process number of an endpoint, with the remainder of C. -/
def endpointP (e : ℤ) : ℤ := (e + nrTasks).tmod generationSize - nrTasks

/-- `HARDWARE`, the process number in whose name interrupts are notified. -/
def hardwareNr : ℤ := -1

/-- `SYSTEM`. -/
def systemNr : ℤ := -2

/-- `SLOTS`, the process number after those of the system tasks of the 32 nodes. -/
def slotsNr : ℤ := systemNr - 32

/-- `CLOCK`. -/
def clockNr : ℤ := slotsNr - 1

/-- `NOTIFY_FROM(p)`, that is `0x1000 | p` on 32-bit integers. -/
def notifyFrom (p : ℤ) : ℤ := (BitVec.ofInt 32 0x1000 ||| BitVec.ofInt 32 p).toInt

/-- `TIMEOUT_NOWAIT`. -/
def timeoutNowait : ℤ := 0

/-- `TIMEOUT_FOREVER`. -/
def timeoutForever : ℤ := -1

/-- `PROC_NO_PID`. -/
def procNoPid : ℤ := -1

/-- `MAXCOPYLEN`, sixteen times `MAXCOPYBUF`. -/
def maxCopyLen : ℤ := 16 * 65536

theorem endpointP_of_lt {p : ℤ} (h0 : -nrTasks ≤ p) (h1 : p ≤ selfEp) : endpointP p = p := by
  unfold endpointP
  have hlt : p + nrTasks < generationSize := by unfold generationSize; omega
  rw [Int.tmod_eq_of_lt (by omega) hlt]
  omega

/-! ### Error codes -/

namespace EMol

def ok : ℤ := 0
def perm : ℤ := -1
def tooBig : ℤ := -7
def again : ℤ := -11
def busy : ℤ := -16
def inval : ℤ := -22
def range : ℤ := -34
def nosys : ℤ := -38
def timedout : ℤ := -61
def notconn : ℤ := -64
def shutdown : ℤ := -65
def addrnotavail : ℤ := -71
def msgsize : ℤ := -73
def deadsrcdst : ℤ := -105
def badrequest : ℤ := -107
def srcdied : ℤ := -108
def dstdied : ℤ := -109
def badnodeid : ℤ := -301
def baddcid : ℤ := -302
def dcnotrun : ℤ := -303
def badproc : ℤ := -304
def badpid : ℤ := -305
def endpoint : ℤ := -306
def noproxy : ℤ := -307
def rmtproc : ℤ := -308
def lclproc : ℤ := -309
def notbind : ℤ := -310
def ackdst : ℤ := -312
def acksrc : ℤ := -313
def nonode : ℤ := -316
def nodcnode : ℤ := -319
def procrun : ℤ := -320
def procsts : ℤ := -324
def nodefree : ℤ := -325
def dcnode : ℤ := -326
def oncopy : ℤ := -328
def enqueued : ℤ := -329
def overrun : ℤ := -330
def badowner : ℤ := -331
def migrate : ℤ := -332
def proxyfree : ℤ := -333
def grpleader : ℤ := -334
def privileges : ℤ := -335
def slotused : ℤ := -337
def badrange : ℤ := -338
def badvalue : ℤ := -339
def baddir : ℤ := -340
def badfile : ℤ := -341
def rscbusy : ℤ := -342
def namesize : ℤ := -343
def allocmem : ℤ := -344
def proxyid : ℤ := -345
def align : ℤ := -347
def wokenup : ℤ := -348

end EMol

/-! ### Commands -/

/-- The commands of `enum proxy_cmd` that the module handles, and their acknowledges. Every other
value is `bad`, with its bit `CMD_ACKNOWLEDGE`. -/
inductive Cmd
  | none | sendMsg | ntfyMsg | sndrecMsg | replyMsg
  | copyinData | copyoutRqst | copylclRqst | copyrmtRqst | copyinRqst
  | sendAck | sndrecAck | copyinAck | copyoutData | copylclAck | copyrmtAck
  | bad (ack : Bool)
  deriving DecidableEq, Repr

/-- `c_cmd & CMD_ACKNOWLEDGE`. -/
def Cmd.isAck : Cmd → Bool
  | .sendAck | .sndrecAck | .copyinAck | .copyoutData | .copylclAck | .copyrmtAck => true
  | .bad ack => ack
  | _ => false

/-- `c_cmd | CMD_ACKNOWLEDGE`. -/
def Cmd.orAck : Cmd → Cmd
  | .sendMsg => .sendAck
  | .sndrecMsg => .sndrecAck
  | .copyinData => .copyinAck
  | .copyoutRqst => .copyoutData
  | .copylclRqst => .copylclAck
  | .copyrmtRqst => .copyrmtAck
  | .none | .ntfyMsg | .replyMsg | .copyinRqst | .bad _ => .bad true
  | ack => ack

end MolIpc
