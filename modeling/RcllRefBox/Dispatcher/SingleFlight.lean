import RcllRefBox.Dispatcher.Commands

/-! # Single-flight admission

The dispatcher reduced to what the admission rule reads: `mutex_futures_`, and the station
and state of every task launched so far. A step is a CLIPS call run to its end under
`clips_mutex_` (`Dispatcher.call`), or the completion of a running task, normally or by an
exception, which makes its future ready (`Dispatcher.complete`). Calls of the synchronous
commands are steps too; they leave this state as it is.

The invariant `Consistent` ties the table to the tasks: an entry holds the future of a task
of its own station, and a running task is the one its station's entry holds. It makes
`mutex_future_ready` answer exactly whether the station has a running task
(`free_iff_not_busy`), and `single_flight` follows: at most one running task per station, a
call is admitted iff its station has none, and a refused call changes nothing.
-/

namespace RcllRefBox

/-- The dispatcher's state: the table and the launched tasks, by launch order. -/
structure Dispatcher where
  mutexFutures : Futures
  tasks : List (String × TaskState)

namespace Dispatcher

def init : Dispatcher := ⟨∅, []⟩

def call (mps : Machines) (d : Dispatcher) (c : ClipsCall) : Dispatcher :=
  let effect := clipsCall mps d.tasks d.mutexFutures c
  { mutexFutures := FutureOp.applyAll d.mutexFutures effect.futureOps
    tasks := d.tasks ++ (effect.launch.map fun _ => (c.machine, TaskState.running)).toList }

def complete (d : Dispatcher) (task : Nat) : Dispatcher :=
  { d with tasks := d.tasks.modify (fun entry => (entry.1, .done)) task }

inductive Step (mps : Machines) : Dispatcher → Dispatcher → Prop
  | call (d : Dispatcher) (c : ClipsCall) : Step mps d (d.call mps c)
  | complete (d : Dispatcher) (task : Nat) (machine : String)
      (running : d.tasks[task]? = some (machine, .running)) : Step mps d (d.complete task)

inductive Reachable (mps : Machines) : Dispatcher → Prop
  | init : Reachable mps init
  | step {d d' : Dispatcher} : Reachable mps d → Step mps d d' → Reachable mps d'

def Running (d : Dispatcher) (name : String) (task : Nat) : Prop :=
  d.tasks[task]? = some (name, .running)

/-- The table and the tasks agree. -/
structure Consistent (d : Dispatcher) : Prop where
  entry_station : ∀ name task, d.mutexFutures.lookup name = some task →
    ∃ state, d.tasks[task]? = some (name, state)
  running_entry : ∀ name task, d.Running name task → d.mutexFutures.lookup name = some task

variable {mps : Machines} {d : Dispatcher}

theorem Consistent.running_unique (consistent : d.Consistent) {name : String} {i j : Nat}
    (first : d.Running name i) (second : d.Running name j) : i = j := by
  have := (consistent.running_entry _ _ first).symm.trans (consistent.running_entry _ _ second)
  simpa using this

theorem free_iff_not_busy (consistent : d.Consistent) (name : String) :
    (mutexFutureReady d.tasks d.mutexFutures name).1 = true ↔ ¬ ∃ task, d.Running name task := by
  rcases mutexFutureReady_cases d.tasks d.mutexFutures name with
    ⟨absent, answer⟩ | ⟨task, entry, isReady, answer⟩ | ⟨task, entry, isReady, answer⟩ <;>
    rw [answer]
  · simpa [absent] using fun task running => consistent.running_entry name task running
  · simp only [true_iff, not_exists]
    intro other running
    cases (consistent.running_entry _ _ running).symm.trans entry
    rw [Running] at running
    simp [ready, running] at isReady
  · obtain ⟨state, launched⟩ := consistent.entry_station _ _ entry
    cases state
    · simpa using ⟨task, launched⟩
    · simp [ready, launched] at isReady

theorem call_eq_self {c : ClipsCall}
    (refused : (clipsCall mps d.tasks d.mutexFutures c).launch = none)
    (untouched : FutureOp.applyAll d.mutexFutures
      (clipsCall mps d.tasks d.mutexFutures c).futureOps = d.mutexFutures) :
    d.call mps c = d := by
  simp [call, refused, untouched]

/-- What a call does, by the reason it launches or not. -/
theorem call_cases (c : ClipsCall) :
    (clipsCall mps d.tasks d.mutexFutures c).launch = none ∧ d.call mps c = d ∨
    ∃ body station, c.task? = some body ∧ mps.lookup c.machine = some station ∧
      (mutexFutureReady d.tasks d.mutexFutures c.machine).1 = true ∧
      (clipsCall mps d.tasks d.mutexFutures c).launch = some body ∧
      (d.call mps c).tasks = d.tasks ++ [(c.machine, .running)] ∧
      (d.call mps c).mutexFutures.lookup c.machine = some d.tasks.length ∧
      ∀ other, other ≠ c.machine →
        (d.call mps c).mutexFutures.lookup other = d.mutexFutures.lookup other := by
  cases task : c.task? with
  | none =>
    obtain ⟨noOps, noLaunch⟩ := clipsCall_of_no_task task mps d.tasks d.mutexFutures
    exact .inl ⟨noLaunch, call_eq_self noLaunch (by simp [noOps])⟩
  | some body =>
    rw [call, clipsCall_of_task task]
    cases known : mps.lookup c.machine with
    | none => exact .inl (by simp [launchTask_of_lookup_none known, call, task,
        clipsCall_of_task task])
    | some station =>
      cases free : (mutexFutureReady d.tasks d.mutexFutures c.machine).1
      · refine .inl ⟨by simp [launchTask_of_busy known free], ?_⟩
        simp [launchTask_of_busy known free, mutexFutureReady_busy free, FutureOp.apply]
      · obtain ⟨erased, kept⟩ := mutexFutureReady_free free
        refine .inr ⟨body, station, rfl, rfl, rfl, by simp [launchTask_of_free known free], ?_⟩
        simp only [launchTask_of_free known free, FutureOp.applyAll, List.foldl_append]
        refine ⟨by simp, by simp [FutureOp.apply], fun other ne => ?_⟩
        simpa [FutureOp.apply, AList.lookup_insert_ne ne] using kept other ne

theorem getElem?_append_singleton {α : Type} {l : List α} {x y : α} {n : Nat} :
    (l ++ [x])[n]? = some y ↔ l[n]? = some y ∨ n = l.length ∧ x = y := by
  rw [List.getElem?_append]
  split
  · simp [Nat.ne_of_lt ‹n < l.length›]
  · rw [List.getElem?_eq_none (by omega : l.length ≤ n)]
    rcases Nat.eq_or_lt_of_le (Nat.le_of_not_lt ‹¬n < l.length›) with same | later
    · subst same; simp
    · simp [List.getElem?_eq_none (by simp; omega : [x].length ≤ n - l.length), Nat.ne_of_gt later]

/-! ## The invariant -/

theorem consistent_init : init.Consistent :=
  ⟨by simp [init], by simp [init, Running]⟩

theorem Consistent.call (consistent : d.Consistent) (c : ClipsCall) :
    (d.call mps c).Consistent := by
  rcases (@call_cases mps d c) with
    ⟨-, same⟩ | ⟨body, station, -, -, free, -, launched, own, others⟩
  · rwa [same]
  have idle := (free_iff_not_busy consistent c.machine).1 free
  constructor
  · intro name task entry
    by_cases fresh : name = c.machine
    · subst fresh
      rw [own] at entry
      cases entry
      exact ⟨.running, by simp [launched]⟩
    · obtain ⟨state, old⟩ := consistent.entry_station _ _ (others name fresh ▸ entry)
      exact ⟨state, by rw [launched]; exact getElem?_append_singleton.2 (.inl old)⟩
  · intro name task running
    rw [Running, launched, getElem?_append_singleton] at running
    rcases running with old | ⟨rfl, same⟩
    · have fresh : name ≠ c.machine := fun same => idle ⟨task, same ▸ old⟩
      rw [others name fresh]
      exact consistent.running_entry _ _ old
    · cases same
      exact own

theorem Consistent.complete (consistent : d.Consistent) (task : Nat) :
    (d.complete task).Consistent := by
  constructor
  · intro name other entry
    obtain ⟨state, launched⟩ := consistent.entry_station _ _ entry
    by_cases same : task = other
    · subst same; exact ⟨.done, by simp [Dispatcher.complete, launched]⟩
    · exact ⟨state, by simp [Dispatcher.complete, List.getElem?_modify_ne _ _ same, launched]⟩
  · intro name other running
    by_cases same : task = other
    · subst same
      simp [Running, Dispatcher.complete] at running
    · rw [Running, Dispatcher.complete, List.getElem?_modify_ne _ _ same] at running
      exact consistent.running_entry _ _ running

theorem Consistent.launch_idle (consistent : d.Consistent) {c : ClipsCall} {body : List Instr}
    (launched : (clipsCall mps d.tasks d.mutexFutures c).launch = some body) :
    ¬ ∃ task, d.Running c.machine task := by
  rcases (@call_cases mps d c) with ⟨refused, -⟩ | ⟨-, -, -, -, free, -⟩
  · simp [refused] at launched
  · exact (free_iff_not_busy consistent c.machine).1 free

theorem Step.consistent {d' : Dispatcher} (step : Step mps d d') (consistent : d.Consistent) :
    d'.Consistent := by
  cases step with
  | call c => exact consistent.call c
  | complete task _ _ => exact consistent.complete task

theorem Reachable.consistent (reachable : d.Reachable mps) : d.Consistent := by
  induction reachable with
  | init => exact consistent_init
  | step _ step ih => exact step.consistent ih

/-! ## Single flight -/

/-- Single-flight admission in a state: at most one running task per station; a call that
has a task to launch (`mps-reset`, `mps-deliver`, or `mps-cs-process` with a valid
operation) on a configured station launches it iff the station has no running task, so a
finished entry never blocks, and once admitted the new task runs for the station with its
future in `mutex_futures_`; a call of these three commands that names an unknown station,
has an invalid operation or finds a running task launches nothing, calls no station
operation and leaves the dispatcher unchanged. -/
def SingleFlight (mps : Machines) (d : Dispatcher) : Prop :=
  (∀ name i j, d.Running name i → d.Running name j → i = j) ∧
  (∀ c body, c.task? = some body → c.machine ∈ mps →
    ((clipsCall mps d.tasks d.mutexFutures c).launch = some body ↔
      ¬ ∃ task, d.Running c.machine task) ∧
    ((¬ ∃ task, d.Running c.machine task) →
      (d.call mps c).Running c.machine d.tasks.length ∧
      (d.call mps c).mutexFutures.lookup c.machine = some d.tasks.length)) ∧
  (∀ c, c.async = true →
    (c.machine ∉ mps ∨ c.task? = none ∨ ∃ task, d.Running c.machine task) →
    (clipsCall mps d.tasks d.mutexFutures c).launch = none ∧
    (clipsCall mps d.tasks d.mutexFutures c).stationOps = [] ∧ d.call mps c = d)

/-- Single-flight admission holds after every interleaving of calls and completions. -/
theorem single_flight (mps : Machines) (d : Dispatcher) (reachable : d.Reachable mps) :
    d.SingleFlight mps := by
  have consistent := reachable.consistent
  refine ⟨fun _ _ _ => consistent.running_unique, fun c body task known => ?_,
    fun c async refused => ?_⟩
  · have admits : (clipsCall mps d.tasks d.mutexFutures c).launch = some body ↔
        ¬ ∃ task, d.Running c.machine task := by
      rw [← free_iff_not_busy consistent, clipsCall_of_task task, CallEffect.downcast_launch]
      obtain ⟨station, found⟩ := Option.isSome_iff_exists.1 (AList.lookup_isSome.2 known)
      cases free : (mutexFutureReady d.tasks d.mutexFutures c.machine).1
      · simp [launchTask_of_busy found free]
      · simp [launchTask_of_free found free]
    refine ⟨admits, fun idle => ?_⟩
    rcases (@call_cases mps d c) with ⟨refused, -⟩ | ⟨-, -, -, -, -, -, launched, own, -⟩
    · exact absurd (admits.2 idle) (by simp [refused])
    · exact ⟨by simp [Running, launched], own⟩
  · rw [clipsCall_stationOps_of_async async]
    rcases (@call_cases mps d c) with ⟨none, same⟩ | ⟨body, station, task, found, free, -⟩
    · exact ⟨none, rfl, same⟩
    · exfalso
      rcases refused with unknown | noTask | busy
      · exact unknown (AList.lookup_isSome.1 (by simp [found]))
      · simp_all
      · exact (free_iff_not_busy consistent c.machine).1 free busy

theorem single_flight_after_launch :
    let mps : Machines := (∅ : Machines).insert "C-CS1" ⟨.cap⟩
    let d := init.call mps (.mpsCsProcess "C-CS1" "MOUNT_CAP")
    d.Reachable mps ∧ d.SingleFlight mps :=
  have reached := .step .init (.call _ _)
  ⟨reached, single_flight _ _ reached⟩

end Dispatcher

end RcllRefBox
