import MolIpc.Lib.Linked
import MolIpc.Lib.Reach
import Mathlib.Data.Fintype.Card
import Mathlib.Data.Int.Notation
import Mathlib.Algebra.Group.Int.Defs

/-!
The synchronous alarms of SYSTASK (`tasks/systask/do_setalarm.c`, `tasks/systask/clock.c`,
`lib/timers/timers.c`). The timer of a process is a field of its entry in the table `priv`, and the
timers that run are linked in the order of their expiration. `mnx_getpriv` copies the whole entry
from the kernel, whose own timer fields nobody uses, so that it writes over the link and the
expiration of a timer that may be running.

`unsigned long` has 32 bits. The calls of SYSTASK and the runs of the handler of `SIGALRM` follow
each other. A call that does not come back, because it follows the links for ever or calls a
function that is not there, has no next state.
-/

namespace MolIpc

namespace Alarms

open Linked Reach

/-! ### Timers -/

/-- `TMR_NEVER`. -/
def tmrNever : ℕ := 2147483647

def toClock (t : ℤ) : ℕ := (t % 2 ^ 32).toNat

/-- A `moltimer_t` apart from `tmr_next`: `tmr_exp_time`, whether `tmr_func` is `cause_alarm`, and
`tmr_arg`. -/
structure Timer where
  expTime : ℕ
  causesAlarm : Bool
  arg : ℤ
  deriving DecidableEq

/-- An alarm that a process has asked for: when it expires, and the endpoint to notify. -/
structure Alarm where
  expTime : ℕ
  endpoint : ℤ
  deriving DecidableEq

/-- SYSTASK: `clock_timers` with the links, the other fields of the `nr` timers, the links and
timers in the kernel, and `next_timeout`. The last three fields are history: the last call, the
endpoints notified, and the requests that still run. -/
structure Clock (nr : ℕ) where
  queue : Links (Fin nr)
  timer : Fin nr → Timer
  kernNext : Fin nr → Option (Fin nr)
  kernTimer : Fin nr → Timer
  nextTimeout : ℕ
  now : ℕ
  notified : List ℤ
  asked : Fin nr → Option Alarm

variable {nr : ℕ}

namespace Clock

def headTime (c : Clock nr) : ℕ :=
  match c.queue.head with
  | none => tmrNever
  | some i => (c.timer i).expTime

def setFields (c : Clock nr) (p : Fin nr) (t : Timer) : Clock nr :=
  { c with timer := Function.update c.timer p t }

/-- `tmrs_clrtimer`. -/
def tmrsClrtimer (c : Clock nr) (p : Fin nr) : Option (Clock nr) :=
  (c.queue.unlink p (nr + 1) .head).map fun q =>
    { c.setFields p { c.timer p with expTime := tmrNever } with queue := q }

/-- `tmrs_settimer` with the watchdog function of the timer itself. -/
def tmrsSettimer (c : Clock nr) (p : Fin nr) (expTime : ℕ) : Option (Clock nr) :=
  (c.tmrsClrtimer p).bind fun c =>
    (c.queue.link (fun _ i => expTime < (c.timer i).expTime) p (nr + 1) .head).map fun q =>
      { c.setFields p { c.timer p with expTime := expTime } with queue := q }

/-- The turns of the loop of `tmrs_exptimers`, for at most `fuel` timers. -/
def tmrsExptimers (now : ℕ) : ℕ → Clock nr → Option (Clock nr)
  | 0, _ => none
  | fuel + 1, c =>
    match c.queue.head with
    | none => some c
    | some i =>
      if (c.timer i).expTime ≤ now then
        if (c.timer i).causesAlarm then
          tmrsExptimers now fuel
            { c.setFields i { c.timer i with expTime := tmrNever } with
              queue := { c.queue with head := c.queue.next i }
              notified := c.notified ++ [(c.timer i).arg] }
        else none
      else some c

/-- `set_timer`. -/
def setTimer (c : Clock nr) (p : Fin nr) (expTime : ℕ) : Option (Clock nr) :=
  (c.tmrsSettimer p expTime).bind fun c =>
    c.queue.head.map fun i => { c with nextTimeout := (c.timer i).expTime }

/-- `reset_timer`. -/
def resetTimer (c : Clock nr) (p : Fin nr) : Option (Clock nr) :=
  (c.tmrsClrtimer p).map fun c => { c with nextTimeout := c.headTime }

/-! ### Calls -/

/-- `mnx_getpriv` for an entry of `priv`. -/
def getpriv (c : Clock nr) (p : Fin nr) : Clock nr :=
  { c.setFields p (c.kernTimer p) with queue := c.queue.store (.next p) (c.kernNext p) }

/-- `mnx_setpriv` for an entry of `priv`. -/
def setpriv (c : Clock nr) (p : Fin nr) : Clock nr :=
  { c with
    kernNext := Function.update c.kernNext p (c.queue.next p)
    kernTimer := Function.update c.kernTimer p (c.timer p) }

def alarmTime (expTime : ℤ) (absTime : Bool) (now : ℕ) : ℕ :=
  toClock (if absTime then expTime else expTime + now)

def ask (c : Clock nr) (p : Fin nr) (a : Option Alarm) : Clock nr :=
  { c with asked := Function.update c.asked p a }

/-- `do_setalarm` after `mnx_getpriv`. -/
def doSetalarm (c : Clock nr) (p : Fin nr) (whoE expTime : ℤ) (absTime : Bool) (now : ℕ) :
    Option (Clock nr) :=
  let c := c.getpriv p
  let c := c.setFields p ⟨(c.timer p).expTime, true, whoE⟩
  if expTime = 0 then (c.ask p none).resetTimer p
  else
    (c.ask p (some ⟨alarmTime expTime absTime now, whoE⟩)).setTimer p
      (alarmTime expTime absTime now)

/-- `ALRM_TIME_LEFT` in the answer of `do_setalarm`. -/
def timeLeft (c : Clock nr) (p : Fin nr) (now : ℕ) : ℕ :=
  let t := ((c.getpriv p).timer p).expTime
  if t ≠ tmrNever ∧ now < t then t - now else 0

/-- `do_privctl` after the first `mnx_getpriv`; `allowed` tells whether the caller and the level are
accepted. -/
def doPrivctl (c : Clock nr) (p : Fin nr) (allowed : Bool) : Clock nr :=
  let c := c.getpriv p
  if allowed then (c.setpriv p).getpriv p else c

/-- The end of `do_exit` and `do_unbind`, when the process is no longer bound. -/
def endProc (c : Clock nr) (p : Fin nr) (remote : Bool) : Option (Clock nr) :=
  if remote then some (c.ask p none) else (c.ask p none).resetTimer p

/-- Whether `flags` of `do_exit` has `BIT_REMOTE`: set for a system process only, otherwise what the
stack holds (`junk`). -/
def exitRemote (sysproc ownerLocal junk : Bool) : Bool := if sysproc then !ownerLocal else junk

/-- Whether `clock_handler` comes to `tmrs_exptimers`; `ticks` are `clockTicks`, and
`INTERVAL_SECS` is 1. -/
def expires (c : Clock nr) (ticks now : ℕ) : Bool :=
  !(decide (0 < toClock (c.nextTimeout - now)) && decide (toClock (c.nextTimeout - now) < ticks)) &&
    decide (c.nextTimeout ≤ now)

def unexpired (c : Clock nr) (now : ℕ) (i : Fin nr) : Option Alarm :=
  (c.asked i).filter fun a => decide (now < a.expTime)

/-- `clock_handler`. -/
def clockHandler (c : Clock nr) (ticks now : ℕ) : Option (Clock nr) :=
  if c.expires ticks now then
    (tmrsExptimers now (nr + 1) { c with asked := c.unexpired now }).map fun c =>
      { c with nextTimeout := c.headTime }
  else some c

end Clock

/-- What SYSTASK does. `ok` tells whether the kernel calls before succeed, `got` whether
`mnx_getpriv` does. -/
inductive Request (nr : ℕ)
  | setalarm (p : Fin nr) (whoE expTime : ℤ) (absTime got : Bool)
  | exit (p : Fin nr) (ok sysproc ownerLocal junk : Bool)
  | unbind (p : Fin nr) (ok remote : Bool)
  | privctl (p : Fin nr) (got allowed : Bool)
  | fork (p : Fin nr) (ok got : Bool)
  | clock

def Request.about : Request nr → Option (Fin nr)
  | .setalarm p .. | .exit p .. | .unbind p .. | .privctl p .. | .fork p .. => some p
  | .clock => none

namespace Clock

def serve (ticks : ℕ) (c : Clock nr) (now : ℕ) : Request nr → Option (Clock nr)
  | .setalarm p whoE expTime absTime got =>
    if got then c.doSetalarm p whoE expTime absTime now else some c
  | .exit p ok sysproc ownerLocal junk =>
    if ok then c.endProc p (exitRemote sysproc ownerLocal junk) else some c
  | .unbind p ok remote => if ok then c.endProc p remote else some c
  | .privctl p got allowed => some (if got then c.doPrivctl p allowed else c)
  | .fork p ok got =>
    some (if ok then if got then (c.ask p none).getpriv p else c.ask p none else c)
  | .clock => c.clockHandler ticks now

/-- A step: a request at a time that is not before that of the last one. -/
def step (ticks : ℕ) (c : Clock nr) (r : ℕ × Request nr) : Option (Clock nr) :=
  if c.now ≤ r.1 then serve ticks { c with now := r.1 } r.1 r.2 else none

/-- SYSTASK after `init_clock`; nothing is known about the tables. -/
def start (next kernNext : Fin nr → Option (Fin nr)) (timer kernTimer : Fin nr → Timer) :
    Clock nr where
  queue := ⟨none, next⟩
  timer := timer
  kernNext := kernNext
  kernTimer := kernTimer
  nextTimeout := tmrNever
  now := 0
  notified := []
  asked := fun _ => none

end Clock

end Alarms

end MolIpc
