import RcllRefBox.Flow

/-! # The table of task futures

`mutex_futures_` maps a station name to the `std::future` of the last task launched for it
by `std::async`. A task is named here by its position in launch order, so the table maps a
name to a task number; whether the future is ready is whether that task has completed.

The commands touch the table through three operations, kept as data (`FutureOp`) so that
what each one costs the calling thread can be stated: `wait_for` with a timeout, `erase`,
and assignment of a new future. Destroying the last future of an `std::async` task joins the
task, so erasing or overwriting the entry of a running task blocks the caller, and so does a
timed wait with a positive timeout (`FutureOp.joins`).
-/

namespace RcllRefBox

inductive TaskState
  | running
  | done
  deriving DecidableEq, Repr

/-- `mutex_futures_`: station name ↦ the task whose future the entry holds. -/
abbrev Futures := AList (fun _ : String => Nat)

/-- `future.wait_for(0) == std::future_status::ready`: the task with this number has
completed. `tasks` lists every launched task with its station. -/
def ready (tasks : List (String × TaskState)) (task : Nat) : Bool :=
  match tasks[task]? with
  | some (_, .done) => true
  | _ => false

inductive FutureOp
  | waitFor (name : String) (timeout : Nat)
  | erase (name : String)
  | assign (name : String) (task : Nat)
  deriving DecidableEq, Repr

def FutureOp.apply (futures : Futures) : FutureOp → Futures
  | .waitFor _ _ => futures
  | .erase name => futures.erase name
  | .assign name task => futures.insert name task

def FutureOp.applyAll (futures : Futures) (ops : List FutureOp) : Futures :=
  ops.foldl FutureOp.apply futures

def runningEntry (tasks : List (String × TaskState)) (futures : Futures) (name : String) :
    Option Nat :=
  match futures.lookup name with
  | some task => if ready tasks task then none else some task
  | none => none

/-- The task the operation makes the caller wait for: a wait with a positive timeout on a
running task, or the destruction, by `erase` or by assignment over it, of the future of a
running task. -/
def FutureOp.joins (tasks : List (String × TaskState)) (futures : Futures) : FutureOp → Option Nat
  | .waitFor name timeout => if timeout = 0 then none else runningEntry tasks futures name
  | .erase name => runningEntry tasks futures name
  | .assign name _ => runningEntry tasks futures name

def FutureOp.joined (tasks : List (String × TaskState)) : Futures → List FutureOp → List Nat
  | _, [] => []
  | futures, op :: ops =>
    (op.joins tasks futures).toList ++ joined tasks (op.apply futures) ops

@[simp] theorem FutureOp.applyAll_nil (futures : Futures) : FutureOp.applyAll futures [] = futures :=
  rfl

@[simp] theorem FutureOp.applyAll_cons (futures : Futures) (op : FutureOp) (ops : List FutureOp) :
    FutureOp.applyAll futures (op :: ops) = FutureOp.applyAll (op.apply futures) ops := rfl

/-! ## `mutex_future_ready` -/

/-- `LLSFRefBox::mutex_future_ready(name)`: whether a new task may be launched for `name`,
with the operations it performs on the table. An entry whose task completed is erased. -/
def mutexFutureReady (tasks : List (String × TaskState)) (futures : Futures) (name : String) :
    Bool × List FutureOp :=
  match futures.lookup name with
  | none => (true, [])
  | some task =>
    if ready tasks task then (true, [.waitFor name 0, .erase name])
    else (false, [.waitFor name 0])

/-- The spec of `mutexFutureReady`: what it answers and does in each case. -/
theorem mutexFutureReady_cases (tasks : List (String × TaskState)) (futures : Futures)
    (name : String) :
    (futures.lookup name = none ∧ mutexFutureReady tasks futures name = (true, [])) ∨
    (∃ task, futures.lookup name = some task ∧ ready tasks task = true ∧
      mutexFutureReady tasks futures name = (true, [.waitFor name 0, .erase name])) ∨
    (∃ task, futures.lookup name = some task ∧ ready tasks task = false ∧
      mutexFutureReady tasks futures name = (false, [.waitFor name 0])) := by
  unfold mutexFutureReady
  cases lookup : futures.lookup name with
  | none => exact .inl ⟨rfl, rfl⟩
  | some task =>
    cases isReady : ready tasks task
    · exact .inr (.inr ⟨task, rfl, isReady, by simp [isReady]⟩)
    · exact .inr (.inl ⟨task, rfl, isReady, by simp [isReady]⟩)

theorem mutexFutureReady_busy {tasks : List (String × TaskState)} {futures : Futures}
    {name : String} (busy : (mutexFutureReady tasks futures name).1 = false) :
    (mutexFutureReady tasks futures name).2 = [.waitFor name 0] := by
  rcases mutexFutureReady_cases tasks futures name with
    ⟨_, answer⟩ | ⟨_, _, _, answer⟩ | ⟨_, _, _, answer⟩ <;> simp_all

theorem mutexFutureReady_free {tasks : List (String × TaskState)} {futures : Futures}
    {name : String} (free : (mutexFutureReady tasks futures name).1 = true) :
    (FutureOp.applyAll futures (mutexFutureReady tasks futures name).2).lookup name = none ∧
    ∀ other, other ≠ name →
      (FutureOp.applyAll futures (mutexFutureReady tasks futures name).2).lookup other =
        futures.lookup other := by
  rcases mutexFutureReady_cases tasks futures name with
    ⟨absent, answer⟩ | ⟨_, _, _, answer⟩ | ⟨_, _, _, answer⟩
  · simp [answer, absent]
  · simpa [answer, FutureOp.apply] using fun other ne => AList.lookup_erase_ne ne
  · simp_all

end RcllRefBox
