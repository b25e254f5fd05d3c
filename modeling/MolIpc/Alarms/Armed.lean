import MolIpc.Alarms.Timers

/-!
# The timer behind the clock

`clock_handler` is run by `SIGALRM`, which comes from `ITIMER_REAL`. The timer is periodic until the
next timeout is less than a second away; it then is set once, for this timeout, and the handler has
to set it again. It does not when the timeout has gone to a later time meanwhile, because its alarm
was cancelled or set anew: from then on no alarm expires.
-/

namespace MolIpc

namespace Alarms

open Reach

/-- `ITIMER_REAL`: its next expiration, and its interval or 0 for a timer set once. Times are in
microseconds. -/
structure Itimer where
  expires : ℕ
  interval : ℕ
  deriving DecidableEq, Repr

/-- SYSTASK with its timer; `none` is a timer that is not armed. -/
structure Timed (nr : ℕ) where
  clock : Clock nr
  time : ℕ
  itimer : Option Itimer

/-- The ticks from `realtime` to `next_timeout`, as an `unsigned long`. -/
def delta (next now : ℕ) : ℕ := toClock ((next : ℤ) - now)

def near (ticks next now : ℕ) : Bool :=
  decide (0 < delta next now) && decide (delta next now < ticks)

/-- `get_uptime` at the time `t`, with `clockTicks` ticks in a second. -/
def getUptime (ticks t : ℕ) : ℕ :=
  toClock ((t % 1000000 * 1000 / (1000000000 / ticks) + t / 1000000 * ticks : ℕ) : ℤ)

namespace Timed

variable {nr : ℕ} {ticks : ℕ} {s s' : Timed nr}

/-- `setitimer`, which refuses a million microseconds, and disarms the timer with no time at all. -/
def setitimer (s : Timed nr) (sec usec interval : ℕ) : Timed nr :=
  if 1000000 ≤ usec then s
  else if sec = 0 ∧ usec = 0 then { s with itimer := none }
  else { s with itimer := some ⟨s.time + sec * 1000000 + usec, interval⟩ }

/-- `set_shot`. -/
def setShot (s : Timed nr) (sec usec : ℕ) : Timed nr := s.setitimer sec usec 0

/-- `set_interval` with `INTERVAL_SECS`. -/
def setInterval (s : Timed nr) : Timed nr := s.setitimer 1 0 1000000

/-- `clock_handler`, with what it does to the timer. -/
def clockHandler (s : Timed nr) (ticks : ℕ) : Option (Timed nr) :=
  let now := getUptime ticks s.time
  let d := delta s.clock.nextTimeout now
  if near ticks s.clock.nextTimeout now then
    some (s.setShot (d / ticks) (d % ticks * 1000 / ticks * 1000))
  else if now < s.clock.nextTimeout then some s
  else (s.clock.clockHandler ticks now).map fun c =>
    let d := delta c.nextTimeout now
    if c.nextTimeout ≠ tmrNever ∧ near ticks c.nextTimeout now then
      { s with clock := c }.setShot (d / ticks) (d % ticks * 1000)
    else { s with clock := c }.setInterval

/-- The timer after an expiration that is seen at the time `t`. -/
def reload (t : ℕ) (it : Itimer) : Option Itimer :=
  if it.interval = 0 then none
  else some { it with expires :=
    it.expires + it.interval * ((t - it.expires) / it.interval + 1) }

/-- A step at a time not before the last one: a request, or for `clock` the `SIGALRM` of an expired
timer. -/
def step (ticks : ℕ) (s : Timed nr) (r : ℕ × Request nr) : Option (Timed nr) :=
  if s.time ≤ r.1 then
    match r.2 with
    | .clock =>
      (s.itimer.filter (·.expires ≤ r.1)).bind fun it =>
        { s with time := r.1, itimer := reload r.1 it }.clockHandler ticks
    | req => (s.clock.serve ticks (getUptime ticks r.1) req).map fun c =>
        { s with clock := c, time := r.1 }
  else none

/-- SYSTASK after `init_clock`. -/
def start (time : ℕ) (next kernNext : Fin nr → Option (Fin nr))
    (timer kernTimer : Fin nr → Timer) : Timed nr :=
  setInterval ⟨.start next kernNext timer kernTimer, time, none⟩

def Ticking (s : Timed nr) : Prop :=
  ∃ it, s.itimer = some it ∧ it.expires ≤ s.time + 1000000 ∧
    (it.interval = 0 ∨ it.interval = 1000000)

/-- **The clock is armed** whenever there is a timer in the list. -/
def StaysArmed (ticks : ℕ) (s : Timed nr) : Prop :=
  ∀ i, s.clock.queue.head = some i → ∃ it, s.itimer = some it ∧
    it.expires ≤ max s.time ((s.clock.timer i).expTime * 1000000 / ticks) + 1000000

/-- When a timer that was set once expires, the next timeout has come or is less than a second
away. -/
def Rearms (ticks : ℕ) (s : Timed nr) (r : ℕ × Request nr) : Prop :=
  match r.2 with
  | .clock => (∃ it ∈ s.itimer, it.interval ≠ 0) ∨
      near ticks s.clock.nextTimeout (getUptime ticks r.1) = true ∨
        s.clock.nextTimeout ≤ getUptime ticks r.1
  | _ => True

instance (s : Timed nr) (r : ℕ × Request nr) : Decidable (Rearms ticks s r) := by
  unfold Rearms
  split <;> infer_instance

theorem ticking_setitimer {sec usec interval : ℕ} (hu : usec < 1000000)
    (hpos : 0 < sec * 1000000 + usec) (hle : sec * 1000000 + usec ≤ 1000000)
    (hi : interval = 0 ∨ interval = 1000000) : Ticking (s.setitimer sec usec interval) := by
  rw [setitimer, if_neg (by omega), if_neg (by omega)]
  exact ⟨_, rfl, by dsimp only; omega, hi⟩

theorem Ticking.congr (h : s.Ticking) (hi : s'.itimer = s.itimer) (ht : s.time ≤ s'.time) :
    s'.Ticking := by
  obtain ⟨it, he, hle, hint⟩ := h
  exact ⟨it, hi.trans he, by omega, hint⟩

theorem ticking_clockHandler (h0 : 0 < ticks) (h1 : ticks ≤ 1000)
    (hs : s.Ticking ∨ near ticks s.clock.nextTimeout (getUptime ticks s.time) = true ∨
      s.clock.nextTimeout ≤ getUptime ticks s.time)
    (h : s.clockHandler ticks = some s') : s'.Ticking := by
  have hnear : ∀ {next now : ℕ}, near ticks next now = true →
      0 < delta next now ∧ delta next now < ticks := by
    intro next now hn
    simpa [near] using hn
  simp only [clockHandler] at h
  split_ifs at h with hn hlt
  · cases h
    obtain ⟨hd0, hd1⟩ := hnear hn
    have hge : 1 ≤ delta s.clock.nextTimeout (getUptime ticks s.time) * 1000 / ticks :=
      (Nat.le_div_iff_mul_le h0).2 (by omega)
    have hless : delta s.clock.nextTimeout (getUptime ticks s.time) * 1000 / ticks < 1000 :=
      Nat.div_lt_of_lt_mul (by omega)
    rw [Nat.div_eq_of_lt hd1, Nat.mod_eq_of_lt hd1]
    exact ticking_setitimer (by omega) (by omega) (by omega) (.inl rfl)
  · cases h
    exact hs.resolve_right fun hc => hc.elim hn (Nat.not_le.2 hlt)
  · obtain ⟨c, -, rfl⟩ := Option.map_eq_some_iff.1 h
    split_ifs with hc
    · obtain ⟨hd0, hd1⟩ := hnear hc.2
      rw [Nat.div_eq_of_lt hd1, Nat.mod_eq_of_lt hd1]
      exact ticking_setitimer (by omega) (by omega) (by omega) (.inl rfl)
    · exact ticking_setitimer (by omega) (by omega) (by omega) (.inr rfl)

theorem Ticking.step (h0 : 0 < ticks) (h1 : ticks ≤ 1000) (h : s.Ticking)
    {r : ℕ × Request nr} (hok : s.Rearms ticks r) (hst : Timed.step ticks s r = some s') :
    s'.Ticking := by
  obtain ⟨t, req⟩ := r
  rw [Timed.step] at hst
  split_ifs at hst with ht
  have hreq : ∀ {c : Option (Clock nr)},
      (c.map fun c => { s with clock := c, time := t }) = some s' → s'.Ticking := by
    intro c hc
    obtain ⟨c, -, rfl⟩ := Option.map_eq_some_iff.1 hc
    exact h.congr rfl ht
  cases req with
  | clock =>
    obtain ⟨it, hit, hh⟩ := Option.bind_eq_some_iff.1 hst
    obtain ⟨hit, hexp⟩ := Option.filter_eq_some_iff.1 hit
    have hexp : it.expires ≤ t := by simpa using hexp
    refine ticking_clockHandler h0 h1 ?_ hh
    rcases hok with ⟨it', hit', hne⟩ | hok
    · -- a periodic timer has been loaded again
      obtain ⟨it'', hs, -, hint⟩ := h
      obtain rfl : it' = it := Option.some.inj (hit'.symm.trans hit)
      obtain rfl : it'' = it' := Option.some.inj (hs.symm.trans hit)
      have hint := hint.resolve_left hne
      refine .inl ⟨_, if_neg hne, ?_, .inr hint⟩
      rw [hint]
      dsimp only
      omega
    · exact .inr hok
  | setalarm | exit | unbind | privctl | fork => exact hreq hst

/-- **The clock stays armed** in every run in which a timer that was set once finds the next timeout
come or less than a second away. -/
theorem clock_stays_armed (h0 : 0 < ticks) (h1 : ticks ≤ 1000) (time : ℕ)
    (next kernNext : Fin nr → Option (Fin nr)) (timer kernTimer : Fin nr → Timer)
    (h : Reachable (step ticks) (Rearms ticks) (start time next kernNext timer kernTimer) s) :
    s.StaysArmed ticks := by
  have hinv : s.Ticking :=
    h.invariant (I := Ticking) (ticking_setitimer (by omega) (by omega) (by omega) (.inr rfl))
      fun _ _ _ hs hok hst => hs.step h0 h1 hok hst
  intro i _
  obtain ⟨it, hit, hle, -⟩ := hinv
  exact ⟨it, hit, by omega⟩

def one : Timed 1 := start 0 (fun _ => none) (fun _ => none) (fun _ => ⟨0, false, 0⟩)
  fun _ => ⟨0, false, 0⟩

/-- An alarm at 1.5 seconds: the handler sets the timer once, for this time. -/
theorem clock_stays_armed_shot : ∃ s : Timed 1, Reachable (step 100) (Rearms 100) one s ∧
    (s.clock.queue.head = some 0 ∧ s.itimer = some ⟨1500000, 0⟩) ∧ s.StaysArmed 100 := by
  obtain ⟨s, hr, hs⟩ := exists_reachable_of_exec (step 100) (Rearms 100) one
    (fun s => decide (s.clock.queue.head = some 0 ∧ s.itimer = some ⟨1500000, 0⟩))
    [(0, .setalarm 0 7 150 true true), (1000000, .clock)] (by decide +kernel)
  exact ⟨s, hr, of_decide_eq_true hs, clock_stays_armed (by decide) (by decide) 0 _ _ _ _ hr⟩

/-- The alarm at 1.5 seconds is cancelled after the timer has been set for it; the handler does not
set the timer again, and the next alarm never expires. -/
theorem clock_disarmed : ∃ s : Timed 1, Reachable (step 100) (fun _ _ => True) one s ∧
    s.itimer = none ∧ ¬s.StaysArmed 100 := by
  obtain ⟨s, hr, hs⟩ := exists_reachable_of_exec (step 100) (fun _ _ => True) one
    (fun s => decide (s.clock.queue.head = some 0 ∧ s.itimer = none))
    [(0, .setalarm 0 7 150 true true), (1000000, .clock), (1200000, .setalarm 0 7 0 true true),
      (1500000, .clock), (1600000, .setalarm 0 7 900 true true)] (by decide +kernel)
  obtain ⟨hhead, hnone⟩ := of_decide_eq_true hs
  refine ⟨s, hr, hnone, fun h => ?_⟩
  obtain ⟨it, hit, -⟩ := h 0 hhead
  simp [hnone] at hit

end Timed

end Alarms

end MolIpc
