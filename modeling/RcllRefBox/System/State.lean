import RcllRefBox.Dispatcher.SingleFlight
import RcllRefBox.StatusFeedback

/-! # The referee box's flows

The station layer at the granularity of single statements. The CLIPS thread takes and
releases `clips_mutex_` (in `handle_timer`, `start_clips`, the destructor) and, while it
holds it, runs registered functions and asserts its own facts. Each task launched by a
command and each invocation of a status callback is a flow of its own, running its body one
instruction at a time. A station call or a fact assertion may throw; the flow then ends, and
its `MutexLocker` unlocks if it held the lock. The lock is one `Option Flow`, so at most one
flow holds it by construction.

`RefBox.step` is partial: `none` when the event is not enabled, for instance when the lock is
held by another flow or the flow has ended. `Thread.Moves` says once what a flow's step can
do (`Thread.advance_inv`), and the invariant proofs case on it. `RefBox.dispatcher` keeps
only the table and the tasks' states: every step of the system is a step of the dispatcher
or leaves that part as it is (`step_dispatcher`).
-/

namespace RcllRefBox

inductive Flow
  | clips
  | task (id : Nat)
  | handler (id : Nat)
  deriving DecidableEq, Repr

/-- A flow running straight-line code on one station. -/
structure Thread where
  machine : String
  body : List Instr
  pc : Nat := 0
  locked : Bool := false
  state : TaskState := .running
  deriving DecidableEq, Repr

namespace Thread

def current (t : Thread) : Option Instr := t.body[t.pc]?

def next (t : Thread) : Thread := { t with pc := t.pc + 1 }

def finish (t : Thread) : Thread := { t with locked := false, state := .done }

/-- `clips_mutex_` once the flow has ended: the locker's destructor unlocks a held lock. -/
def release (t : Thread) (owner : Option Flow) : Option Flow := if t.locked then none else owner

/-- One step of the flow `self` with lock owner `owner`: run the current instruction, which
throws if `throws` and it is a station call or an assertion, or return. It gives the new
thread, lock owner and asserted fact; `none` when the flow has ended or waits for the lock. -/
def advance (t : Thread) (self : Flow) (owner : Option Flow) (throws : Bool) :
    Option (Thread × Option Flow × Option Fact) :=
  match t.state, t.current with
  | .done, _ => none
  | .running, none => some (t.finish, t.release owner, none)
  | .running, some (.call _) =>
    if throws then some (t.finish, t.release owner, none) else some (t.next, owner, none)
  | .running, some .relock =>
    if owner = none then some ({ t.next with locked := true }, some self, none) else none
  | .running, some .unlock => some ({ t.next with locked := false }, none, none)
  | .running, some (.assertFact fact) =>
    if throws then some (t.finish, t.release owner, none) else some (t.next, owner, some fact)

def stationCall (t : Thread) : Option StationOp :=
  match t.state, t.current with
  | .running, some (.call op) => some op
  | _, _ => none

theorem stationCall_eq_some {t : Thread} {op : StationOp} :
    t.stationCall = some op ↔ t.state = .running ∧ t.current = some (.call op) := by
  unfold stationCall
  split <;> simp_all

/-- What one step of a running flow can do. -/
inductive Moves (self : Flow) (owner : Option Flow) (t : Thread) :
    Thread → Option Flow → Option Fact → Prop
  | returns : t.current = none → Moves self owner t t.finish (t.release owner) none
  | throws : (∃ op, t.current = some (.call op)) ∨ (∃ fact, t.current = some (.assertFact fact)) →
      Moves self owner t t.finish (t.release owner) none
  | calls (op : StationOp) : t.current = some (.call op) → Moves self owner t t.next owner none
  | relocks : t.current = some .relock → owner = none →
      Moves self owner t { t.next with locked := true } (some self) none
  | unlocks : t.current = some .unlock → Moves self owner t { t.next with locked := false } none none
  | asserts (fact : Fact) : t.current = some (.assertFact fact) →
      Moves self owner t t.next owner (some fact)

theorem advance_inv {t t' : Thread} {self : Flow} {owner owner' : Option Flow} {throws : Bool}
    {fact : Option Fact} (advanced : t.advance self owner throws = some (t', owner', fact)) :
    t.state = .running ∧ Moves self owner t t' owner' fact := by
  unfold advance at advanced
  split at advanced
  · cases advanced
  all_goals rename_i running current
  all_goals refine ⟨running, ?_⟩
  · cases advanced; exact .returns current
  · split at advanced <;> cases advanced
    · exact .throws (.inl ⟨_, current⟩)
    · exact .calls _ current
  · split at advanced <;> cases advanced
    exact .relocks current ‹_›
  · cases advanced; exact .unlocks current
  · split at advanced <;> cases advanced
    · exact .throws (.inr ⟨_, current⟩)
    · exact .asserts _ current

theorem Moves.view {self : Flow} {owner owner' : Option Flow} {t t' : Thread}
    {fact : Option Fact} (moves : Moves self owner t t' owner' fact) :
    t'.machine = t.machine ∧ t'.body = t.body ∧ (t'.state = t.state ∨ t' = t.finish) := by
  cases moves <;> simp [next, finish]

end Thread

/-- The station layer of the referee box: the stations and callbacks fixed at construction,
`mutex_futures_`, the flows started so far, the holder of `clips_mutex_`, and the facts
asserted, in order, with the flow that asserted each. -/
structure RefBox where
  mps : Machines
  callbacks : List StatusCallback
  mutexFutures : Futures
  tasks : List Thread
  handlers : List Thread
  owner : Option Flow
  facts : List (Flow × Fact)

inductive Event
  | lock
  | unlock
  | call (c : ClipsCall)
  | assertClips (fact : Fact)
  | task (id : Nat) (throws : Bool)
  | notify (callback : Nat) (ret : ReturnValue)
  | handler (id : Nat) (throws : Bool)

namespace RefBox

def init (mps : Machines) (callbacks : List StatusCallback) : RefBox :=
  ⟨mps, callbacks, ∅, [], [], none, []⟩

def dispatcher (s : RefBox) : Dispatcher :=
  ⟨s.mutexFutures, s.tasks.map fun t => (t.machine, t.state)⟩

def launch (machine : String) (body : List Instr) : Thread := { machine, body }

def callEffect (s : RefBox) (c : ClipsCall) : RefBox :=
  let effect := clipsCall s.mps s.dispatcher.tasks s.mutexFutures c
  { s with
    mutexFutures := FutureOp.applyAll s.mutexFutures effect.futureOps
    tasks := s.tasks ++ (effect.launch.map (launch c.machine)).toList }

def runThread (threads : List Thread) (i : Nat) (self : Flow) (owner : Option Flow)
    (throws : Bool) : Option (List Thread × Option Flow × Option Fact) :=
  match threads[i]? with
  | none => none
  | some t => (t.advance self owner throws).map fun (t', owner', fact) => (threads.set i t', owner', fact)

def record (facts : List (Flow × Fact)) (self : Flow) (fact : Option Fact) : List (Flow × Fact) :=
  facts ++ (fact.map fun f => (self, f)).toList

/-- One step of the system; `none` when the event is not enabled. -/
def step (s : RefBox) : Event → Option RefBox
  | .lock => if s.owner = none then some { s with owner := some .clips } else none
  | .unlock => if s.owner = some .clips then some { s with owner := none } else none
  | .call c => if s.owner = some .clips then some (s.callEffect c) else none
  | .assertClips fact =>
    if s.owner = some .clips ∧ fact.ofClipsThread then
      some { s with facts := s.facts ++ [(.clips, fact)] }
    else none
  | .task i throws => (runThread s.tasks i (.task i) s.owner throws).map
      fun (tasks, owner, fact) => { s with tasks, owner, facts := record s.facts (.task i) fact }
  | .notify k ret => s.callbacks[k]?.map fun callback =>
      { s with handlers := s.handlers ++ [{ machine := callback.machine, body := callback.body ret }] }
  | .handler i throws => (runThread s.handlers i (.handler i) s.owner throws).map
      fun (handlers, owner, fact) => { s with handlers, owner, facts := record s.facts (.handler i) fact }

inductive Reachable (mps : Machines) (callbacks : List StatusCallback) : RefBox → Prop
  | init : Reachable mps callbacks (init mps callbacks)
  | step {s s' : RefBox} (e : Event) : Reachable mps callbacks s → s.step e = some s' →
      Reachable mps callbacks s'

def run (s : RefBox) : List Event → Option RefBox
  | [] => some s
  | e :: events => (s.step e).bind fun s' => s'.run events

theorem Reachable.run {mps : Machines} {callbacks : List StatusCallback} {s s' : RefBox}
    (reachable : s.Reachable mps callbacks) (events : List Event) (ran : s.run events = some s') :
    s'.Reachable mps callbacks := by
  induction events generalizing s with
  | nil => cases ran; exact reachable
  | cons e events inductionHypothesis =>
    obtain ⟨next, stepped, rest⟩ := Option.bind_eq_some.1 ran
    exact inductionHypothesis (.step e reachable stepped) rest

def stationCalls (s : RefBox) : Event → List (Flow × String × StationOp)
  | .call c =>
    if s.owner = some .clips then
      (clipsCall s.mps s.dispatcher.tasks s.mutexFutures c).stationOps.map fun op => (.clips, c.machine, op)
    else []
  | .task i _ => match s.tasks[i]? with
    | some t => (t.stationCall.map fun op => (.task i, t.machine, op)).toList
    | none => []
  | .handler i _ => match s.handlers[i]? with
    | some t => (t.stationCall.map fun op => (.handler i, t.machine, op)).toList
    | none => []
  | _ => []

/-! ## Inversion -/

/-- Who starts a station call at an event: the CLIPS thread with one of the operations of
the command it runs, or a task or callback with its current call. -/
theorem stationCalls_inv {s : RefBox} {e : Event} {flow : Flow} {machine : String}
    {op : StationOp} (calls : (flow, machine, op) ∈ s.stationCalls e) :
    (∃ c, e = .call c ∧ flow = .clips ∧ machine = c.machine ∧
      op ∈ (clipsCall s.mps s.dispatcher.tasks s.mutexFutures c).stationOps) ∨
    (∃ i throws t, e = .task i throws ∧ flow = .task i ∧ s.tasks[i]? = some t ∧
      machine = t.machine ∧ t.stationCall = some op) ∨
    (∃ i throws t, e = .handler i throws ∧ flow = .handler i ∧ s.handlers[i]? = some t ∧
      machine = t.machine ∧ t.stationCall = some op) := by
  cases e with
  | call c =>
    simp only [stationCalls] at calls
    split at calls <;> simp at calls
    obtain ⟨op', issued, rfl, rfl, rfl⟩ := calls
    exact .inl ⟨c, rfl, rfl, rfl, issued⟩
  | task i throws =>
    simp only [stationCalls] at calls
    split at calls <;> simp at calls
    obtain ⟨op', call, rfl, rfl, rfl⟩ := calls
    exact .inr (.inl ⟨i, throws, _, rfl, rfl, ‹_›, rfl, call⟩)
  | handler i throws =>
    simp only [stationCalls] at calls
    split at calls <;> simp at calls
    obtain ⟨op', call, rfl, rfl, rfl⟩ := calls
    exact .inr (.inr ⟨i, throws, _, rfl, rfl, ‹_›, rfl, call⟩)
  | _ => simp [stationCalls] at calls

theorem runThread_inv {threads threads' : List Thread} {i : Nat} {self : Flow}
    {owner owner' : Option Flow} {throws : Bool} {fact : Option Fact}
    (ran : runThread threads i self owner throws = some (threads', owner', fact)) :
    ∃ t t', threads[i]? = some t ∧ t.state = .running ∧ Thread.Moves self owner t t' owner' fact ∧
      threads' = threads.set i t' := by
  unfold runThread at ran
  split at ran
  · cases ran
  · rename_i t found
    obtain ⟨⟨t', owner'', fact'⟩, advanced, same⟩ := Option.map_eq_some'.1 ran
    cases same
    exact ⟨t, t', found, (Thread.advance_inv advanced).1, (Thread.advance_inv advanced).2, rfl⟩

theorem step_task_inv {s s' : RefBox} {i : Nat} {throws : Bool}
    (stepped : s.step (.task i throws) = some s') :
    ∃ t t' owner fact, s.tasks[i]? = some t ∧ t.state = .running ∧
      Thread.Moves (.task i) s.owner t t' owner fact ∧
      s' = { s with tasks := s.tasks.set i t', owner := owner, facts := record s.facts (.task i) fact } := by
  obtain ⟨⟨tasks, owner, fact⟩, ran, rfl⟩ := Option.map_eq_some'.1 stepped
  obtain ⟨t, t', found, running, moves, rfl⟩ := runThread_inv ran
  exact ⟨t, t', owner, fact, found, running, moves, rfl⟩

theorem step_handler_inv {s s' : RefBox} {i : Nat} {throws : Bool}
    (stepped : s.step (.handler i throws) = some s') :
    ∃ t t' owner fact, s.handlers[i]? = some t ∧ t.state = .running ∧
      Thread.Moves (.handler i) s.owner t t' owner fact ∧
      s' = { s with
        handlers := s.handlers.set i t', owner := owner, facts := record s.facts (.handler i) fact } := by
  obtain ⟨⟨handlers, owner, fact⟩, ran, rfl⟩ := Option.map_eq_some'.1 stepped
  obtain ⟨t, t', found, running, moves, rfl⟩ := runThread_inv ran
  exact ⟨t, t', owner, fact, found, running, moves, rfl⟩

/-! ## Refinement of the dispatcher -/

theorem callEffect_dispatcher (s : RefBox) (c : ClipsCall) :
    (s.callEffect c).dispatcher = s.dispatcher.call s.mps c := by
  simp only [callEffect, dispatcher, Dispatcher.call]
  cases (clipsCall s.mps (s.tasks.map fun t => (t.machine, t.state)) s.mutexFutures c).launch <;>
    simp [launch]

theorem map_set_view {tasks : List Thread} {i : Nat} {t t' : Thread}
    (found : tasks[i]? = some t) (same : t'.machine = t.machine) (state : t'.state = t.state) :
    (tasks.set i t').map (fun t => (t.machine, t.state)) = tasks.map fun t => (t.machine, t.state) := by
  have bound : i < tasks.length := (List.getElem?_eq_some_iff.1 found).1
  ext n : 1
  by_cases here : i = n
  · subst here
    simp [List.getElem?_set, bound, found, same, state, (List.getElem?_eq_some_iff.1 found).2]
  · simp [List.getElem?_set_ne here]

theorem map_set_finish {tasks : List Thread} {i : Nat} {t : Thread} (found : tasks[i]? = some t) :
    (tasks.set i t.finish).map (fun t => (t.machine, t.state)) =
      (tasks.map fun t => (t.machine, t.state)).modify (fun entry => (entry.1, .done)) i := by
  have bound : i < tasks.length := (List.getElem?_eq_some_iff.1 found).1
  ext n : 1
  by_cases here : i = n
  · subst here
    simp [List.getElem?_set, bound, found, Thread.finish, (List.getElem?_eq_some_iff.1 found).2]
  · simp [List.getElem?_set_ne here, List.getElem?_modify_ne _ _ here]

/-- Every step of the system is a step of the dispatcher, or leaves the dispatcher's view
as it is; the stations never change. -/
theorem step_dispatcher {s s' : RefBox} {e : Event} (stepped : s.step e = some s') :
    s'.mps = s.mps ∧ (Dispatcher.Step s.mps s.dispatcher s'.dispatcher ∨ s'.dispatcher = s.dispatcher) := by
  cases e with
  | call c =>
    simp only [step] at stepped
    split at stepped <;> cases stepped
    exact ⟨rfl, .inl (callEffect_dispatcher s c ▸ .call _ c)⟩
  | task i throws =>
    obtain ⟨t, t', owner, fact, found, running, moves, rfl⟩ := step_task_inv stepped
    refine ⟨rfl, ?_⟩
    rcases moves.view with ⟨same, -, kept | finished⟩
    · exact .inr (by simp [dispatcher, map_set_view found same kept])
    · subst finished
      refine .inl ?_
      have : s.dispatcher.tasks[i]? = some (t.machine, .running) := by simp [dispatcher, found, running]
      simpa [dispatcher, Dispatcher.complete, map_set_finish found] using Dispatcher.Step.complete _ i _ this
  | handler i throws =>
    obtain ⟨t, t', owner, fact, -, -, -, rfl⟩ := step_handler_inv stepped
    exact ⟨rfl, .inr rfl⟩
  | notify k ret =>
    obtain ⟨callback, -, rfl⟩ := Option.map_eq_some'.1 stepped
    exact ⟨rfl, .inr rfl⟩
  | lock | unlock | assertClips fact =>
    simp only [step] at stepped
    split at stepped <;> cases stepped
    exact ⟨rfl, .inr rfl⟩

theorem dispatcher_running {s : RefBox} {i : Nat} {t : Thread} (found : s.tasks[i]? = some t)
    (running : t.state = .running) : s.dispatcher.Running t.machine i := by
  simp [Dispatcher.Running, dispatcher, found, running]

/-- A reachable state of the system is seen by the dispatcher as one of its reachable states. -/
theorem Reachable.dispatcher {mps : Machines} {callbacks : List StatusCallback} {s : RefBox}
    (reachable : s.Reachable mps callbacks) : s.mps = mps ∧ s.dispatcher.Reachable mps := by
  induction reachable with
  | init => exact ⟨rfl, .init⟩
  | step e _ stepped inductionHypothesis =>
    obtain ⟨mpsKept, refines⟩ := step_dispatcher stepped
    obtain ⟨mpsSame, reached⟩ := inductionHypothesis
    refine ⟨mpsKept.trans mpsSame, ?_⟩
    rcases refines with dispatched | same
    · exact .step reached (mpsSame ▸ dispatched)
    · exact same ▸ reached

end RefBox

end RcllRefBox
