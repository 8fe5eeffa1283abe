import RcllRefBox.Dispatcher.Futures

/-! # The MPS commands of the CLIPS environment

`setup_clips` registers one C++ function per MPS command (`mps-reset`, `mps-deliver`, ...).
Each runs on the CLIPS thread while it holds `clips_mutex_`. Three of them hand their work
to a task launched by `std::async` after asking `mutex_future_ready`: `clips_mps_reset`,
`clips_mps_deliver` and `clips_mps_cs_process`. The others call their station directly.

A command is modelled by its effect (`CallEffect`): the operations on `mutex_futures_`, the
body of the task it launches, the station operations it calls itself, and the errors it
logs. The task bodies are the lambdas of the source, instruction by instruction.

The kind-specific commands `static_cast` the `Machine *` that `mps_.at(machine)` returns to
the class of their kind (`BaseStation`, `CapStation`, ...) without looking at what the
machine is. When it is of another class the cast is undefined, and the effect is marked so
(`CallEffect.downcast`); its other fields are what the statements after the cast go on to
do. A call is undefined exactly when it is such a command on a configured station of another
kind (`clipsCall_undefined_iff`), for instance `mps-bs-dispense` on a cap station
(`dispense_on_cap_station`).
-/

namespace RcllRefBox

/-! ## Task lambdas -/

def resetTask : List Instr := [.call .reset]

def deliverTask (machine : String) : List Instr :=
  [.call (.conveyorMove .forward .output), .relock, .assertFact (.mpsDeliverSuccess machine)]

def capAction (operation : String) : List Instr :=
  if operation = "RETRIEVE_CAP" then [.call .retrieveCap]
  else if operation = "MOUNT_CAP" then [.call .mountCap]
  else []

/-- The lambda of `clips_mps_cs_process`, with its `MutexLocker` created unlocked. -/
def csProcessTask (machine operation : String) : List Instr :=
  [.call .bandOnUntilMid, .relock,
    .assertFact (.mpsFeedback machine operation .available), .unlock] ++
  capAction operation ++
  [.call .bandOnUntilOut, .relock, .assertFact (.mpsFeedback machine operation .done)]

/-! ## Commands -/

/-- An error a command logs before returning without effect, one constructor per message:
"Invalid station %s", "Invalid color %s", "Unknown conveyor position %s", "Unknown conveyor
direction %s", "Invalid state %s" and "Invalid operation '%s' on %s". -/
inductive Rejection
  | invalidStation (machine : String)
  | invalidColor (color : String)
  | unknownConveyorPosition (position : String)
  | unknownConveyorDirection (direction : String)
  | invalidState (state : String)
  | invalidOperation (operation machine : String)
  deriving DecidableEq, Repr

/-- What one command does, all of it on the station it names; `undefined` marks a call whose
downcast of the station is undefined. -/
structure CallEffect where
  futureOps : List FutureOp := []
  launch : Option (List Instr) := none
  stationOps : List StationOp := []
  errors : List Rejection := []
  undefined : Bool := false
  deriving DecidableEq, Repr

inductive ClipsCall
  | mpsReset (machine : String)
  | mpsResetBaseCounter (machine : String)
  | mpsDeliver (machine : String)
  | mpsBsDispense (machine color : String)
  | mpsDsProcess (machine : String) (slide : Int)
  | mpsRsMountRing (machine : String) (slide : Int)
  | mpsMoveConveyor (machine goalPosition conveyorDirection : String)
  | mpsCsRetrieveCap (machine : String)
  | mpsCsMountCap (machine : String)
  | mpsCsProcess (machine operation : String)
  | mpsSetLight (machine color state : String)
  | mpsSetLights (machine redState yellowState greenState : String)
  | mpsResetLights (machine : String)
  deriving DecidableEq, Repr

def ClipsCall.machine : ClipsCall → String
  | .mpsReset m | .mpsResetBaseCounter m | .mpsDeliver m | .mpsBsDispense m _
  | .mpsDsProcess m _ | .mpsRsMountRing m _ | .mpsMoveConveyor m _ _ | .mpsCsRetrieveCap m
  | .mpsCsMountCap m | .mpsCsProcess m _ | .mpsSetLight m _ _ | .mpsSetLights m _ _ _
  | .mpsResetLights m => m

def ClipsCall.async : ClipsCall → Bool
  | .mpsReset _ | .mpsDeliver _ | .mpsCsProcess _ _ => true
  | _ => false

def ClipsCall.kind? : ClipsCall → Option StationKind
  | .mpsBsDispense _ _ => some .base
  | .mpsDsProcess _ _ => some .delivery
  | .mpsRsMountRing _ _ => some .ring
  | .mpsCsRetrieveCap _ | .mpsCsMountCap _ | .mpsCsProcess _ _ => some .cap
  | _ => none

def validCsOperation (operation : String) : Bool :=
  operation == "RETRIEVE_CAP" || operation == "MOUNT_CAP"

def ClipsCall.task? : ClipsCall → Option (List Instr)
  | .mpsReset _ => some resetTask
  | .mpsDeliver m => some (deliverTask m)
  | .mpsCsProcess m operation => if validCsOperation operation then some (csProcessTask m operation) else none
  | _ => none

/-- `mps_.at(machine)`; the commands catch its `std::out_of_range` as "Invalid station". -/
def stationAt (mps : Machines) (machine : String) : Except Rejection Machine :=
  match mps.lookup machine with
  | some station => .ok station
  | none => .error (.invalidStation machine)

def symbolArg {α : Type} (table : List (String × α)) (reject : String → Rejection)
    (symbol : String) : Except Rejection α :=
  match symbolValue table symbol with
  | some value => .ok value
  | none => .error (reject symbol)

def CallEffect.ofSync : Except Rejection StationOp → CallEffect
  | .ok op => { stationOps := [op] }
  | .error rejection => { errors := [rejection] }

def callOn (mps : Machines) (machine : String) (op : StationOp) : CallEffect :=
  .ofSync ((stationAt mps machine).map fun _ => op)

/-- A command that launches a task: look the station up, ask `mutex_future_ready`, launch
`body` and store its future under the station's name. -/
def launchTask (mps : Machines) (tasks : List (String × TaskState)) (futures : Futures)
    (machine : String) (body : List Instr) : CallEffect :=
  match stationAt mps machine with
  | .error rejection => { errors := [rejection] }
  | .ok _ =>
    match mutexFutureReady tasks futures machine with
    | (false, ops) => { futureOps := ops }
    | (true, ops) => { futureOps := ops ++ [.assign machine tasks.length], launch := some body }

/-- `static_cast<Station *>(mps_.at(machine).get())` to the class of `kind`, ahead of the
rest of the command, `effect`: undefined when the machine is of another class. A name missing
from `mps_` is `effect`'s to reject; `none` is a command that keeps the `Machine *`. -/
def CallEffect.downcast (mps : Machines) (machine : String) :
    Option StationKind → CallEffect → CallEffect
  | some kind, effect =>
    match mps.lookup machine with
    | some station => if station.kind = kind then effect else { effect with undefined := true }
    | none => effect
  | none, effect => effect

def clipsMpsReset (mps : Machines) (tasks : List (String × TaskState)) (futures : Futures)
    (machine : String) : CallEffect :=
  launchTask mps tasks futures machine resetTask

def clipsMpsDeliver (mps : Machines) (tasks : List (String × TaskState)) (futures : Futures)
    (machine : String) : CallEffect :=
  launchTask mps tasks futures machine (deliverTask machine)

/-- `LLSFRefBox::clips_mps_cs_process`: the operation is checked before the station. -/
def clipsMpsCsProcess (mps : Machines) (tasks : List (String × TaskState)) (futures : Futures)
    (machine operation : String) : CallEffect :=
  if validCsOperation operation then
    (launchTask mps tasks futures machine (csProcessTask machine operation)).downcast mps machine (some .cap)
  else { errors := [.invalidOperation operation machine] }

/-- `LLSFRefBox::clips_mps_reset_base_counter`, which only logs ("TODO implement"). -/
def clipsMpsResetBaseCounter (_machine : String) : CallEffect := {}

def clipsMpsBsDispense (mps : Machines) (machine color : String) : CallEffect :=
  CallEffect.downcast mps machine (some .base) <| .ofSync do
    let _ ← stationAt mps machine
    let colorId ← symbolArg baseColors .invalidColor color
    pure (.getBase colorId)

def clipsMpsDsProcess (mps : Machines) (machine : String) (slide : Int) : CallEffect :=
  (callOn mps machine (.deliverProduct slide)).downcast mps machine (some .delivery)

def clipsMpsRsMountRing (mps : Machines) (machine : String) (slide : Int) : CallEffect :=
  (callOn mps machine (.mountRing (toUnsigned slide))).downcast mps machine (some .ring)

def clipsMpsMoveConveyor (mps : Machines) (machine goalPosition conveyorDirection : String) :
    CallEffect :=
  .ofSync do
    let _ ← stationAt mps machine
    let goal ← symbolArg conveyorPositions .unknownConveyorPosition goalPosition
    let direction ← symbolArg conveyorDirections .unknownConveyorDirection conveyorDirection
    pure (.conveyorMove direction goal)

def clipsMpsCsRetrieveCap (mps : Machines) (machine : String) : CallEffect :=
  (callOn mps machine .retrieveCap).downcast mps machine (some .cap)

def clipsMpsCsMountCap (mps : Machines) (machine : String) : CallEffect :=
  (callOn mps machine .mountCap).downcast mps machine (some .cap)

def clipsMpsSetLight (mps : Machines) (machine color state : String) : CallEffect :=
  .ofSync do
    let _ ← stationAt mps machine
    let colorId ← symbolArg lightColors .invalidColor color
    let stateId ← symbolArg lightStates .invalidState state
    pure (.setLight colorId stateId 0)

/-- `LLSFRefBox::clips_mps_set_lights`: three `clips_mps_set_light` calls in a row. -/
def clipsMpsSetLights (mps : Machines) (machine redState yellowState greenState : String) :
    CallEffect :=
  let parts := [clipsMpsSetLight mps machine "RED" redState,
    clipsMpsSetLight mps machine "YELLOW" yellowState,
    clipsMpsSetLight mps machine "GREEN" greenState]
  { stationOps := parts.flatMap (·.stationOps), errors := parts.flatMap (·.errors) }

def clipsMpsResetLights (mps : Machines) (machine : String) : CallEffect :=
  callOn mps machine .resetLight

def clipsCall (mps : Machines) (tasks : List (String × TaskState)) (futures : Futures) :
    ClipsCall → CallEffect
  | .mpsReset m => clipsMpsReset mps tasks futures m
  | .mpsResetBaseCounter m => clipsMpsResetBaseCounter m
  | .mpsDeliver m => clipsMpsDeliver mps tasks futures m
  | .mpsBsDispense m color => clipsMpsBsDispense mps m color
  | .mpsDsProcess m slide => clipsMpsDsProcess mps m slide
  | .mpsRsMountRing m slide => clipsMpsRsMountRing mps m slide
  | .mpsMoveConveyor m goal direction => clipsMpsMoveConveyor mps m goal direction
  | .mpsCsRetrieveCap m => clipsMpsCsRetrieveCap mps m
  | .mpsCsMountCap m => clipsMpsCsMountCap mps m
  | .mpsCsProcess m operation => clipsMpsCsProcess mps tasks futures m operation
  | .mpsSetLight m color state => clipsMpsSetLight mps m color state
  | .mpsSetLights m red yellow green => clipsMpsSetLights mps m red yellow green
  | .mpsResetLights m => clipsMpsResetLights mps m

/-! ## Spec lemmas -/

section Downcast

variable (mps : Machines) (machine : String) (kind : Option StationKind) (effect : CallEffect)

theorem CallEffect.downcast_cases :
    effect.downcast mps machine kind = effect ∨ effect.downcast mps machine kind = { effect with undefined := true } := by
  unfold downcast
  split <;> (try split) <;> (try split) <;> simp

@[simp] theorem CallEffect.downcast_futureOps : (effect.downcast mps machine kind).futureOps = effect.futureOps := by
  rcases downcast_cases mps machine kind effect with cast | cast <;> rw [cast]

@[simp] theorem CallEffect.downcast_launch : (effect.downcast mps machine kind).launch = effect.launch := by
  rcases downcast_cases mps machine kind effect with cast | cast <;> rw [cast]

@[simp] theorem CallEffect.downcast_stationOps :
    (effect.downcast mps machine kind).stationOps = effect.stationOps := by
  rcases downcast_cases mps machine kind effect with cast | cast <;> rw [cast]

@[simp] theorem CallEffect.downcast_errors : (effect.downcast mps machine kind).errors = effect.errors := by
  rcases downcast_cases mps machine kind effect with cast | cast <;> rw [cast]

end Downcast

@[simp] theorem CallEffect.ofSync_futureOps (result : Except Rejection StationOp) :
    (CallEffect.ofSync result).futureOps = [] := by cases result <;> rfl

@[simp] theorem CallEffect.ofSync_launch (result : Except Rejection StationOp) :
    (CallEffect.ofSync result).launch = none := by cases result <;> rfl

@[simp] theorem launchTask_stationOps (mps : Machines) (tasks : List (String × TaskState))
    (futures : Futures) (machine : String) (body : List Instr) :
    (launchTask mps tasks futures machine body).stationOps = [] := by
  unfold launchTask
  split
  · rfl
  · split <;> rfl

/-- A command with a task body to launch runs `launchTask` with it, behind its downcast. -/
theorem clipsCall_of_task {c : ClipsCall} {body : List Instr} (task : c.task? = some body)
    (mps : Machines) (tasks : List (String × TaskState)) (futures : Futures) :
    clipsCall mps tasks futures c = (launchTask mps tasks futures c.machine body).downcast mps c.machine c.kind? := by
  cases c with
  | mpsReset m | mpsDeliver m =>
    simp only [ClipsCall.task?, Option.some.injEq] at task
    subst task; rfl
  | mpsCsProcess m operation =>
    simp only [ClipsCall.task?] at task
    split at task
    · cases task; simp_all [clipsCall, clipsMpsCsProcess, ClipsCall.machine, ClipsCall.kind?]
    · cases task
  | _ => cases task

theorem clipsCall_of_no_task {c : ClipsCall} (task : c.task? = none) (mps : Machines)
    (tasks : List (String × TaskState)) (futures : Futures) :
    (clipsCall mps tasks futures c).futureOps = [] ∧ (clipsCall mps tasks futures c).launch = none := by
  cases c <;> simp_all [ClipsCall.task?, clipsCall, clipsMpsCsProcess, clipsMpsBsDispense,
    clipsMpsDsProcess, clipsMpsRsMountRing, clipsMpsMoveConveyor, clipsMpsCsRetrieveCap,
    clipsMpsCsMountCap, clipsMpsSetLight, clipsMpsSetLights, clipsMpsResetLights,
    clipsMpsResetBaseCounter, callOn]

theorem task?_of_launch {mps : Machines} {tasks : List (String × TaskState)} {futures : Futures}
    {c : ClipsCall} {body : List Instr} (launched : (clipsCall mps tasks futures c).launch = some body) :
    c.task? = some body := by
  cases task : c.task? with
  | none => simp [clipsCall_of_no_task task] at launched
  | some body' =>
    rw [clipsCall_of_task task, CallEffect.downcast_launch, launchTask] at launched
    split at launched
    · cases launched
    · split at launched <;> cases launched; rfl

theorem clipsCall_stationOps_of_async {c : ClipsCall} (async : c.async = true) (mps : Machines)
    (tasks : List (String × TaskState)) (futures : Futures) :
    (clipsCall mps tasks futures c).stationOps = [] := by
  cases c <;> simp_all [ClipsCall.async, clipsCall, clipsMpsReset, clipsMpsDeliver,
    clipsMpsCsProcess]
  split <;> simp

theorem launchTask_of_lookup_none {mps : Machines} {machine : String}
    (unknown : mps.lookup machine = none) (tasks : List (String × TaskState)) (futures : Futures)
    (body : List Instr) :
    launchTask mps tasks futures machine body = { errors := [.invalidStation machine] } := by
  simp [launchTask, stationAt, unknown]

theorem launchTask_of_busy {mps : Machines} {machine : String} {station : Machine}
    (known : mps.lookup machine = some station) {tasks : List (String × TaskState)}
    {futures : Futures} (busy : (mutexFutureReady tasks futures machine).1 = false)
    (body : List Instr) :
    launchTask mps tasks futures machine body =
      { futureOps := (mutexFutureReady tasks futures machine).2 } := by
  simp only [launchTask, stationAt, known]
  cases ready : mutexFutureReady tasks futures machine with
  | mk answer ops => simp_all

theorem launchTask_of_free {mps : Machines} {machine : String} {station : Machine}
    (known : mps.lookup machine = some station) {tasks : List (String × TaskState)}
    {futures : Futures} (free : (mutexFutureReady tasks futures machine).1 = true)
    (body : List Instr) :
    launchTask mps tasks futures machine body =
      { futureOps := (mutexFutureReady tasks futures machine).2 ++ [.assign machine tasks.length]
        launch := some body } := by
  simp only [launchTask, stationAt, known]
  cases ready : mutexFutureReady tasks futures machine with
  | mk answer ops => simp_all

/-! ## Rejections -/

theorem CallEffect.ofSync_of_errors {result : Except Rejection StationOp}
    (rejected : (CallEffect.ofSync result).errors ≠ []) :
    (CallEffect.ofSync result).stationOps = [] := by
  cases result with
  | ok op => exact absurd rfl rejected
  | error rejection => rfl

theorem launchTask_of_errors {mps : Machines} {tasks : List (String × TaskState)}
    {futures : Futures} {machine : String} {body : List Instr}
    (rejected : (launchTask mps tasks futures machine body).errors ≠ []) :
    launchTask mps tasks futures machine body = { errors := [.invalidStation machine] } := by
  cases known : mps.lookup machine with
  | none => exact launchTask_of_lookup_none known tasks futures body
  | some station =>
    cases free : (mutexFutureReady tasks futures machine).1
    · simp [launchTask_of_busy known free] at rejected
    · simp [launchTask_of_free known free] at rejected

/-- A command that logs an error does nothing else: it calls no station operation, leaves
`mutex_futures_` alone and launches no task. `mps-set-lights` is the exception, since each of
its three `set_light` calls fails or succeeds on its own. -/
theorem clipsCall_of_errors (mps : Machines) (tasks : List (String × TaskState))
    (futures : Futures) {c : ClipsCall}
    (notLights : ∀ m red yellow green, c ≠ .mpsSetLights m red yellow green)
    (rejected : (clipsCall mps tasks futures c).errors ≠ []) :
    (clipsCall mps tasks futures c).stationOps = [] ∧
      (clipsCall mps tasks futures c).futureOps = [] ∧ (clipsCall mps tasks futures c).launch = none := by
  cases task : c.task? with
  | some body =>
    rw [clipsCall_of_task task, CallEffect.downcast_errors] at rejected
    simp [clipsCall_of_task task, launchTask_of_errors rejected]
  | none =>
    refine ⟨?_, clipsCall_of_no_task task mps tasks futures⟩
    cases c with
    | mpsSetLights m red yellow green => exact absurd rfl (notLights m red yellow green)
    | mpsResetBaseCounter m => exact absurd rfl rejected
    | mpsReset m | mpsDeliver m => cases task
    | mpsCsProcess m operation =>
      simp only [ClipsCall.task?, ite_eq_right_iff, reduceCtorEq, imp_false, Bool.not_eq_true] at task
      simp [clipsCall, clipsMpsCsProcess, task]
    | _ =>
      simp only [clipsCall, clipsMpsBsDispense, clipsMpsDsProcess, clipsMpsRsMountRing,
        clipsMpsMoveConveyor, clipsMpsCsRetrieveCap, clipsMpsCsMountCap, clipsMpsSetLight,
        clipsMpsResetLights, callOn, CallEffect.downcast_errors, CallEffect.downcast_stationOps]
        at rejected ⊢
      exact CallEffect.ofSync_of_errors rejected

/-! ## Downcasts -/

@[simp] theorem CallEffect.ofSync_undefined (result : Except Rejection StationOp) :
    (CallEffect.ofSync result).undefined = false := by cases result <;> rfl

@[simp] theorem launchTask_undefined (mps : Machines) (tasks : List (String × TaskState))
    (futures : Futures) (machine : String) (body : List Instr) :
    (launchTask mps tasks futures machine body).undefined = false := by
  unfold launchTask
  split
  · rfl
  · split <;> rfl

/-- `mps-bs-dispense` on a configured cap station is not rejected: it logs no error, casts the
cap station to `BaseStation`, which is undefined, and goes on to call `get_base` through the
cast pointer. -/
theorem dispense_on_cap_station (tasks : List (String × TaskState)) (futures : Futures) :
    clipsCall ((∅ : Machines).insert "C-CS1" ⟨.cap⟩) tasks futures (.mpsBsDispense "C-CS1" "BASE_RED") =
      { stationOps := [.getBase .baseRed], undefined := true } :=
  rfl

end RcllRefBox
