import Mathlib.Data.List.Basic

/-! # The timer that runs the rules

`LLSFRefBox::run` starts an `asio` deadline timer with `start_timer`: it expires
`cfg_timer_interval_` milliseconds from now. When the wait ends without error, its handler
`handle_timer` asserts `(time (now))`, runs the rules, and waits again for the previous
expiry plus the interval (`expires_at() + interval`), not for the time it runs at.
`handle_signal` cancels the timer, which ends the pending wait with `operation_aborted`,
and stops the `io_service`; on an error the handler does nothing.

The model follows the `asio` contract: a wait ends when the clock has reached its expiry,
or with an error when the timer is cancelled, and the clock never goes back. Events are
taken in any order the loop may run them in (`TimerState.run`).

* `timer_on_schedule`: while the loop runs, the timer is armed for the start plus the
  interval times one more than the runs so far, whatever the clock read at each run; and
  the k-th run (from 0) comes no earlier than the start plus k + 1 intervals. A late run
  does not shift the ones after it.
* `no_run_after_signal`: after the signal, no event makes the handler assert another
  `(time (now))`, and the loop stays stopped.
-/

namespace RcllRefBox

/-- The timer and its loop: the clock in milliseconds, `timer_.expires_at()`, whether a wait
with `handle_timer` as its handler is pending, whether `io_service_` is stopped, and the clock
at each run of `handle_timer` that asserted `(time (now))`. -/
structure TimerState where
  now : Nat
  expiresAt : Nat
  waiting : Bool
  stopped : Bool
  runs : List Nat
  deriving DecidableEq, Repr

inductive WaitResult
  | success
  | operationAborted

def startTimer (interval now : Nat) : TimerState :=
  { now, expiresAt := now + interval, waiting := true, stopped := false, runs := [] }

def handleTimer (interval : Nat) (s : TimerState) : WaitResult → TimerState
  | .success =>
    { s with runs := s.runs ++ [s.now], expiresAt := s.expiresAt + interval, waiting := true }
  | .operationAborted => s

/-- `LLSFRefBox::handle_signal`: `timer_.cancel()` ends the pending wait with
`operation_aborted`, and `io_service_.stop()` stops the loop. -/
def handleSignal (interval : Nat) (s : TimerState) : TimerState :=
  handleTimer interval { s with waiting := false, stopped := true } .operationAborted

/-- What the loop can do next: the clock reads `now`, the loop runs the handler of the pending
wait, which has expired, or `SIGINT` or `SIGTERM` arrives. -/
inductive TimerEvent
  | tick (now : Nat)
  | expire
  | signal

def TimerState.step (interval : Nat) (s : TimerState) : TimerEvent → Option TimerState
  | .tick now => if s.now ≤ now then some { s with now } else none
  | .expire =>
    if s.waiting ∧ s.stopped = false ∧ s.expiresAt ≤ s.now then
      some (handleTimer interval { s with waiting := false } .success)
    else none
  | .signal => some (handleSignal interval s)

def TimerState.run (interval : Nat) : TimerState → List TimerEvent → Option TimerState
  | s, [] => some s
  | s, e :: events => (s.step interval e).bind fun s' => s'.run interval events

/-- What a step can do: the clock moves forward, the handler runs for an expired wait of a
running loop, or the signal is handled. -/
theorem TimerState.step_eq_some {interval : Nat} {s s' : TimerState} {e : TimerEvent}
    (stepped : s.step interval e = some s') :
    (∃ now, e = .tick now ∧ s.now ≤ now ∧ s' = { s with now }) ∨
      (e = .expire ∧ s.waiting = true ∧ s.stopped = false ∧ s.expiresAt ≤ s.now ∧
        s' = handleTimer interval { s with waiting := false } .success) ∨
      (e = .signal ∧ s' = handleSignal interval s) := by
  cases e with
  | tick now =>
    simp only [TimerState.step, Option.ite_none_right_eq_some, Option.some.injEq] at stepped
    exact .inl ⟨now, rfl, stepped.1, stepped.2.symm⟩
  | expire =>
    simp only [TimerState.step, Option.ite_none_right_eq_some, Option.some.injEq] at stepped
    exact .inr (.inl ⟨rfl, stepped.1.1, stepped.1.2.1, stepped.1.2.2, stepped.2.symm⟩)
  | signal => exact .inr (.inr ⟨rfl, (Option.some.inj stepped).symm⟩)

/-! ## The schedule -/

/-- What holds of every state the loop reaches from `start_timer` at `start`. -/
structure OnSchedule (interval start : Nat) (s : TimerState) : Prop where
  armed : s.stopped = false → s.waiting = true ∧ s.expiresAt = start + (s.runs.length + 1) * interval
  slots : ∀ k (h : k < s.runs.length), start + (k + 1) * interval ≤ s.runs[k]

theorem onSchedule_start (interval start : Nat) : OnSchedule interval start (startTimer interval start) :=
  ⟨fun _ => ⟨rfl, by simp [startTimer]⟩, fun _ h => absurd h (Nat.not_lt_zero _)⟩

theorem OnSchedule.step {interval start : Nat} {s s' : TimerState} {e : TimerEvent}
    (schedule : OnSchedule interval start s) (stepped : s.step interval e = some s') :
    OnSchedule interval start s' := by
  rcases TimerState.step_eq_some stepped with ⟨now, -, -, rfl⟩ | ⟨-, -, running, due, rfl⟩ | ⟨-, rfl⟩
  · exact ⟨schedule.armed, schedule.slots⟩
  · have expiry := (schedule.armed running).2
    refine ⟨fun _ => ⟨rfl, ?_⟩, fun k h => ?_⟩
    · simp only [handleTimer, List.length_append, List.length_singleton, expiry]
      rw [Nat.add_mul (s.runs.length + 1) 1 interval]
      omega
    · simp only [handleTimer, List.length_append, List.length_singleton] at h ⊢
      rcases Nat.lt_succ_iff_lt_or_eq.1 h with earlier | rfl
      · rw [List.getElem_append_left earlier]
        exact schedule.slots k earlier
      · simp only [List.getElem_concat_length]
        omega
  · exact ⟨fun stopped => absurd stopped (by simp [handleSignal, handleTimer]), schedule.slots⟩

theorem OnSchedule.run {interval start : Nat} :
    ∀ {s s' : TimerState} {events : List TimerEvent}, OnSchedule interval start s →
      s.run interval events = some s' → OnSchedule interval start s'
  | _, _, [], schedule, ran => by
    cases ran
    exact schedule
  | s, _, e :: events, schedule, ran => by
    simp only [TimerState.run, Option.bind_eq_some] at ran
    obtain ⟨next, stepped, rest⟩ := ran
    exact (schedule.step stepped).run rest

/-- For every interval, start time and sequence of events from `start_timer`: while the loop
has not been stopped, the timer is armed for `start + (runs + 1) * interval`, whatever the
clock read at each run; and the k-th run comes no earlier than `start + (k + 1) * interval`. -/
theorem timer_on_schedule (interval start : Nat) (events : List TimerEvent) (s : TimerState)
    (ran : (startTimer interval start).run interval events = some s) :
    (s.stopped = false → s.waiting = true ∧ s.expiresAt = start + (s.runs.length + 1) * interval) ∧
      ∀ k (h : k < s.runs.length), start + (k + 1) * interval ≤ s.runs[k] :=
  let schedule := (onSchedule_start interval start).run ran
  ⟨schedule.armed, schedule.slots⟩

theorem timer_on_schedule_late_run :
    (startTimer 100 0).run 100 [.tick 150, .expire, .tick 250, .expire] =
        some ⟨250, 300, true, false, [150, 250]⟩ ∧
      300 = 0 + ([150, 250].length + 1) * 100 :=
  ⟨rfl, ((timer_on_schedule 100 0 [.tick 150, .expire, .tick 250, .expire]
    ⟨250, 300, true, false, [150, 250]⟩ rfl).1 rfl).2⟩

/-! ## After the signal -/

theorem TimerState.step_of_stopped {interval : Nat} {s s' : TimerState} {e : TimerEvent}
    (stopped : s.stopped = true) (stepped : s.step interval e = some s') :
    s'.stopped = true ∧ s'.runs = s.runs := by
  rcases TimerState.step_eq_some stepped with ⟨now, -, -, rfl⟩ | ⟨-, -, running, -⟩ | ⟨-, rfl⟩
  · exact ⟨stopped, rfl⟩
  · simp [stopped] at running
  · exact ⟨rfl, rfl⟩

theorem TimerState.run_of_stopped {interval : Nat} :
    ∀ {s s' : TimerState} {events : List TimerEvent}, s.stopped = true →
      s.run interval events = some s' → s'.stopped = true ∧ s'.runs = s.runs
  | _, _, [], stopped, ran => by cases ran; exact ⟨stopped, rfl⟩
  | s, _, e :: events, stopped, ran => by
    simp only [TimerState.run, Option.bind_eq_some] at ran
    obtain ⟨next, stepped, rest⟩ := ran
    have after := TimerState.step_of_stopped stopped stepped
    have later := TimerState.run_of_stopped after.1 rest
    exact ⟨later.1, later.2.trans after.2⟩

/-- From every state, once the signal has been handled, no sequence of events makes the
handler assert another `(time (now))`, and the loop stays stopped. -/
theorem no_run_after_signal (interval : Nat) (s s' : TimerState) (events : List TimerEvent)
    (ran : s.run interval (.signal :: events) = some s') : s'.runs = s.runs ∧ s'.stopped = true := by
  simp only [TimerState.run, TimerState.step, Option.some_bind] at ran
  exact (@TimerState.run_of_stopped interval (handleSignal interval s) s' events rfl ran).symm

theorem no_run_after_signal_expired :
    (startTimer 100 0).run 100 [.signal, .tick 500, .expire] = none ∧
      (startTimer 100 0).run 100 [.signal, .tick 500] = some ⟨500, 100, false, true, []⟩ ∧
      (⟨500, 100, false, true, []⟩ : TimerState).runs = (startTimer 100 0).runs ∧
      (⟨500, 100, false, true, []⟩ : TimerState).stopped = true :=
  ⟨rfl, rfl, no_run_after_signal 100 (startTimer 100 0) ⟨500, 100, false, true, []⟩ [.tick 500] rfl⟩

end RcllRefBox
