import RcllRefBox.Dispatcher.SingleFlight

/-! # The CLIPS thread never waits for a task

The CLIPS thread holds `clips_mutex_` while it runs the registered functions, and the task
lambdas of `mps-deliver` and `mps-cs-process` take it to assert their feedback. A command
that waited for such a task, by a timed wait on its future or by destroying its last
future (which joins an `std::async` task), could wait for a task that waits for the lock.
`clips_never_waits` says that no command does, in any state of the dispatcher:
`mutex_future_ready` polls with a zero timeout and erases an entry only once its task is
done, and a launch stores its future where no entry is left.
-/

namespace RcllRefBox

/-- The operations of a registered function on `mutex_futures_`, by what
`mutex_future_ready` finds for its station. -/
theorem clipsCall_futureOps_cases (mps : Machines) (tasks : List (String × TaskState))
    (futures : Futures) (c : ClipsCall) :
    (clipsCall mps tasks futures c).futureOps = [] ∨
    (∃ task, futures.lookup c.machine = some task ∧ ready tasks task = false ∧
      (clipsCall mps tasks futures c).futureOps = [.waitFor c.machine 0]) ∨
    (futures.lookup c.machine = none ∧
      (clipsCall mps tasks futures c).futureOps = [.assign c.machine tasks.length]) ∨
    (∃ task, futures.lookup c.machine = some task ∧ ready tasks task = true ∧
      (clipsCall mps tasks futures c).futureOps =
        [.waitFor c.machine 0, .erase c.machine, .assign c.machine tasks.length]) := by
  cases task : c.task? with
  | none => exact .inl (clipsCall_of_no_task task mps tasks futures).1
  | some body =>
    rw [clipsCall_of_task task]
    cases known : mps.lookup c.machine with
    | none => exact .inl (by simp [launchTask_of_lookup_none known])
    | some station =>
      rcases mutexFutureReady_cases tasks futures c.machine with
        ⟨absent, answer⟩ | ⟨entry, found, isReady, answer⟩ | ⟨entry, found, isReady, answer⟩
      · have free : (mutexFutureReady tasks futures c.machine).1 = true := by simp [answer]
        exact .inr (.inr (.inl ⟨absent, by simp [launchTask_of_free known free, answer]⟩))
      · have free : (mutexFutureReady tasks futures c.machine).1 = true := by simp [answer]
        exact .inr (.inr (.inr ⟨entry, found, isReady, by simp [launchTask_of_free known free, answer]⟩))
      · have busy : (mutexFutureReady tasks futures c.machine).1 = false := by simp [answer]
        exact .inr (.inl ⟨entry, found, isReady, by simp [launchTask_of_busy known busy, answer]⟩)

namespace Dispatcher

/-- What the registered functions do to `mutex_futures_` in a state: none waits for a
running task, and at each operation, taken in order, a `wait_for` has timeout zero, an
`erase` removes the entry of a completed task, and an assignment stores its future where
there is no entry. -/
def NeverWaits (mps : Machines) (d : Dispatcher) : Prop :=
  ∀ c, FutureOp.joined d.tasks d.mutexFutures (clipsCall mps d.tasks d.mutexFutures c).futureOps = [] ∧
    ∀ pre op post, (clipsCall mps d.tasks d.mutexFutures c).futureOps = pre ++ op :: post →
      (∀ name timeout, op = .waitFor name timeout → timeout = 0) ∧
      (∀ name, op = .erase name → ∃ task,
        (FutureOp.applyAll d.mutexFutures pre).lookup name = some task ∧ ready d.tasks task = true) ∧
      (∀ name task, op = .assign name task → (FutureOp.applyAll d.mutexFutures pre).lookup name = none)

/-- In every state of the dispatcher, reachable or not, no registered function makes the
CLIPS thread wait for a task. -/
theorem clips_never_waits (mps : Machines) (d : Dispatcher) : d.NeverWaits mps := by
  intro c
  rcases clipsCall_futureOps_cases mps d.tasks d.mutexFutures c with
    empty | ⟨task, found, busy, ops⟩ | ⟨absent, ops⟩ | ⟨task, found, done, ops⟩
  · simp [empty, FutureOp.joined]
  · refine ⟨by simp [ops, FutureOp.joined, FutureOp.joins], fun pre op post split => ?_⟩
    rcases pre with _ | ⟨_, _ | _⟩ <;> simp [ops] at split
    obtain ⟨rfl, -⟩ := split
    simp
  · refine ⟨by simp [ops, FutureOp.joined, FutureOp.joins, runningEntry, absent],
      fun pre op post split => ?_⟩
    rcases pre with _ | ⟨_, _ | _⟩ <;> simp [ops] at split
    obtain ⟨rfl, -⟩ := split
    simp [absent]
  · refine ⟨by simp [ops, FutureOp.joined, FutureOp.joins, FutureOp.apply, runningEntry, found, done],
      fun pre op post split => ?_⟩
    rcases pre with _ | ⟨_, _ | ⟨_, _ | ⟨_, _ | _⟩⟩⟩ <;> simp [ops] at split
    · obtain ⟨rfl, -⟩ := split
      simp
    · obtain ⟨rfl, rfl, -⟩ := split
      simp [FutureOp.apply, found, done]
    · obtain ⟨rfl, rfl, rfl, -⟩ := split
      simp [FutureOp.apply]

end Dispatcher

end RcllRefBox
