import RcllRefBox.System.State

/-! # Lock discipline

Every flow other than the CLIPS thread runs one of four bodies: the three task lambdas and
the status callback's. All four pass `wellLocked` from the unlocked state, and a flow's step
keeps `wellLocked` of what remains of its body (`Thread.Moves.lock`). With the owner of
`clips_mutex_` agreeing with each flow's locker (`Invariant`), this gives the discipline the
source keeps by hand with `MutexLocker(&m, false)`, `relock()` and `unlock()`:
`lock_discipline` says that a flow asserts only while it holds the lock, calls its station
only while it does not, holds it at no point after it has ended, and that at most one flow
is in a critical section at a time.
-/

namespace RcllRefBox

/-- A task runs one of the three lambdas, for its own station. -/
def TaskBody (t : Thread) : Prop :=
  t.body = resetTask ∨ t.body = deliverTask t.machine ∨
    ∃ operation, validCsOperation operation = true ∧ t.body = csProcessTask t.machine operation

def HandlerBody (t : Thread) : Prop :=
  ∃ (callback : StatusCallback) (ret : ReturnValue),
    t.machine = callback.machine ∧ t.body = callback.body ret

theorem wellLocked_csProcessTask (machine operation : String) :
    wellLocked false (csProcessTask machine operation) = true := by
  unfold csProcessTask capAction
  split_ifs <;> rfl

theorem TaskBody.wellLocked {t : Thread} (body : TaskBody t) : wellLocked false t.body = true := by
  rcases body with same | same | ⟨operation, -, same⟩ <;> rw [same]
  · rfl
  · rfl
  · exact wellLocked_csProcessTask _ _

theorem HandlerBody.wellLocked {t : Thread} (body : HandlerBody t) :
    wellLocked false t.body = true := by
  obtain ⟨callback, ret, -, same⟩ := body
  rw [same]; rfl

theorem launch_taskBody {mps : Machines} {tasks : List (String × TaskState)} {futures : Futures}
    {c : ClipsCall} {body : List Instr} (launched : (clipsCall mps tasks futures c).launch = some body) :
    TaskBody (RefBox.launch c.machine body) := by
  have task := task?_of_launch launched
  cases c with
  | mpsReset m => cases task; exact .inl rfl
  | mpsDeliver m => cases task; exact .inr (.inl rfl)
  | mpsCsProcess m operation =>
    simp only [ClipsCall.task?] at task
    split at task
    · cases task; exact .inr (.inr ⟨operation, ‹_›, rfl⟩)
    · cases task
  | _ => cases task

/-! ## A step of one flow -/

theorem Thread.drop_of_current {t : Thread} {instr : Instr} (current : t.current = some instr) :
    t.body.drop t.pc = instr :: t.body.drop (t.pc + 1) := by
  obtain ⟨bound, same⟩ := List.getElem?_eq_some_iff.1 current
  rw [List.drop_eq_getElem_cons bound, same]

/-- A flow whose remaining code is well locked holds its locker's lock at its assertions and
not at its station calls. -/
theorem Thread.locked_at {t : Thread} (discipline : wellLocked t.locked (t.body.drop t.pc) = true) :
    (∀ fact, t.current = some (.assertFact fact) → t.locked = true) ∧
    (∀ op, t.current = some (.call op) → t.locked = false) := by
  refine ⟨fun fact current => ?_, fun op current => ?_⟩
  · rw [Thread.drop_of_current current] at discipline
    exact (wellLocked_assertFact discipline).1
  · rw [Thread.drop_of_current current] at discipline
    exact (wellLocked_call discipline).1

/-- What one step of a flow does to the lock: it holds the lock afterwards iff its locker
does, it never gives the lock to another flow or takes it from one, and the rest of its body
stays well locked. -/
theorem Thread.Moves.lock {self : Flow} {owner owner' : Option Flow} {t t' : Thread}
    {fact : Option Fact} (moves : Thread.Moves self owner t t' owner' fact)
    (running : t.state = .running) (holds : owner = some self ↔ t.locked = true)
    (discipline : wellLocked t.locked (t.body.drop t.pc) = true) :
    (owner' = some self ↔ t'.locked = true) ∧
    (∀ other, other ≠ self → (owner' = some other ↔ owner = some other)) ∧
    (t'.state = .running → wellLocked t'.locked (t'.body.drop t'.pc) = true) ∧
    (t'.locked = true → t'.state = .running) := by
  have rest := @Thread.drop_of_current t
  cases moves with
  | returns _ | throws _ =>
    have released : ∀ other, t.release owner = some other ↔ owner = some other ∧ other ≠ self := by
      intro other
      unfold Thread.release
      split
      · rename_i locked
        simp only [reduceCtorEq, false_iff, not_and, not_not, holds.2 locked, Option.some.injEq]
        exact fun same => same.symm
      · rename_i unlocked
        exact ⟨fun same => ⟨same, fun h => unlocked (holds.1 (h ▸ same))⟩, (·.1)⟩
    refine ⟨by simp [released, Thread.finish], fun other ne => by simp [released, ne],
      by simp [Thread.finish], by simp [Thread.finish]⟩
  | calls op current =>
    rw [rest current] at discipline
    exact ⟨holds, fun _ _ => .rfl, fun _ => (wellLocked_call discipline).2, fun _ => running⟩
  | relocks current free =>
    rw [rest current] at discipline
    exact ⟨by simp, fun other ne => by simp [free, Ne.symm ne], fun _ => (wellLocked_relock discipline).2,
      fun _ => running⟩
  | unlocks current =>
    rw [rest current] at discipline
    have held := holds.2 (wellLocked_unlock discipline).1
    exact ⟨by simp, fun other ne => by simp [held, Ne.symm ne], fun _ => (wellLocked_unlock discipline).2,
      by simp⟩
  | asserts fact current =>
    rw [rest current] at discipline
    exact ⟨holds, fun _ _ => .rfl, fun _ => (wellLocked_assertFact discipline).2, fun _ => running⟩

theorem Thread.Moves.asserted {self : Flow} {owner owner' : Option Flow} {t t' : Thread}
    {fact : Fact} (moves : Thread.Moves self owner t t' owner' (some fact)) :
    t.current = some (.assertFact fact) := by
  cases moves with
  | asserts _ current => exact current

/-- A running flow's remaining code is well locked, and its locker holds the lock only
while it runs. -/
def Thread.Disciplined (t : Thread) : Prop :=
  (t.state = .running → wellLocked t.locked (t.body.drop t.pc) = true) ∧
    (t.locked = true → t.state = .running)

theorem owners_set {threads : List Thread} {i : Nat} {t t' : Thread} (found : threads[i]? = some t)
    {flow : Nat → Flow} (injective : ∀ j, flow j = flow i → j = i) {owner owner' : Option Flow}
    (before : ∀ j, owner = some (flow j) ↔ ∃ u, threads[j]? = some u ∧ u.locked = true)
    (self : owner' = some (flow i) ↔ t'.locked = true)
    (others : ∀ other, other ≠ flow i → (owner' = some other ↔ owner = some other)) (j : Nat) :
    owner' = some (flow j) ↔ ∃ u, (threads.set i t')[j]? = some u ∧ u.locked = true := by
  by_cases same : j = i
  · subst same
    have bound : j < threads.length := (List.getElem?_eq_some_iff.1 found).1
    simpa [List.getElem?_set, bound] using self
  · rw [others _ (fun h => same (injective j h)), before j, List.getElem?_set_ne (Ne.symm same)]

theorem owners_append {threads : List Thread} {t : Thread} (unlocked : t.locked = false)
    {flow : Nat → Flow} {owner : Option Flow}
    (before : ∀ j, owner = some (flow j) ↔ ∃ u, threads[j]? = some u ∧ u.locked = true) (j : Nat) :
    owner = some (flow j) ↔ ∃ u, (threads ++ [t])[j]? = some u ∧ u.locked = true := by
  rw [before j]
  constructor
  · rintro ⟨u, found, locked⟩
    exact ⟨u, List.getElem?_append_left (List.getElem?_eq_some_iff.1 found).1 ▸ found, locked⟩
  · rintro ⟨u, found, locked⟩
    rcases Dispatcher.getElem?_append_singleton.1 found with old | ⟨-, rfl⟩
    · exact ⟨u, old, locked⟩
    · simp_all

namespace RefBox

/-- What every reachable state keeps: each flow runs one of its lambdas, the owner of
`clips_mutex_` is exactly the flow whose locker holds it, what remains of a running flow's
body is well locked, and a flow that has ended holds nothing. -/
structure Invariant (s : RefBox) : Prop where
  tasks : ∀ t ∈ s.tasks, TaskBody t ∧ t.Disciplined
  handlers : ∀ t ∈ s.handlers, HandlerBody t ∧ t.Disciplined
  taskOwner : ∀ i, s.owner = some (.task i) ↔ ∃ t, s.tasks[i]? = some t ∧ t.locked = true
  handlerOwner : ∀ i, s.owner = some (.handler i) ↔ ∃ t, s.handlers[i]? = some t ∧ t.locked = true

theorem invariant_init (mps : Machines) (callbacks : List StatusCallback) :
    (init mps callbacks).Invariant := by
  constructor <;> simp [init]

variable {s s' : RefBox}

theorem holds_iff {threads : List Thread} {flow : Nat → Flow} {i : Nat} {t : Thread}
    (owners : ∀ j, s.owner = some (flow j) ↔ ∃ u, threads[j]? = some u ∧ u.locked = true)
    (found : threads[i]? = some t) : s.owner = some (flow i) ↔ t.locked = true := by
  simp [owners, found]

/-- A flow's step keeps what the invariant asks of it. -/
theorem step_flow {Body : Thread → Prop} {threads : List Thread} {i : Nat} {t t' : Thread}
    {self : Flow} {owner' : Option Flow} {fact : Option Fact}
    (all : ∀ u ∈ threads, Body u ∧ u.Disciplined) (found : threads[i]? = some t)
    (running : t.state = .running) (moves : Thread.Moves self s.owner t t' owner' fact)
    (holds : s.owner = some self ↔ t.locked = true)
    (kept : ∀ u : Thread, Body t → u.body = t.body → u.machine = t.machine → Body u) :
    (∀ u ∈ threads.set i t', Body u ∧ u.Disciplined) ∧ (owner' = some self ↔ t'.locked = true) ∧
      ∀ other, other ≠ self → (owner' = some other ↔ s.owner = some other) := by
  obtain ⟨body, disciplined⟩ := all t (List.getElem?_mem found)
  obtain ⟨self', others, rest, lockedRunning⟩ := moves.lock running holds (disciplined.1 running)
  obtain ⟨sameMachine, sameBody, -⟩ := moves.view
  refine ⟨fun u mem => ?_, self', others⟩
  rcases List.mem_or_eq_of_mem_set mem with old | rfl
  · exact all u old
  · exact ⟨kept u body sameBody sameMachine, rest, lockedRunning⟩

theorem Invariant.step (invariant : s.Invariant) {e : Event} (stepped : s.step e = some s') :
    s'.Invariant := by
  cases e with
  | task i throws =>
    obtain ⟨t, t', owner, fact, found, running, moves, rfl⟩ := step_task_inv stepped
    obtain ⟨tasks, self, others⟩ := step_flow invariant.tasks found running moves
      (holds_iff invariant.taskOwner found) fun u body same machine => by
        unfold TaskBody at *; rwa [same, machine]
    exact ⟨tasks, invariant.handlers,
      owners_set found (fun _ => Flow.task.inj) invariant.taskOwner self others,
      fun j => (others _ (by simp)).trans (invariant.handlerOwner j)⟩
  | handler i throws =>
    obtain ⟨t, t', owner, fact, found, running, moves, rfl⟩ := step_handler_inv stepped
    obtain ⟨handlers, self, others⟩ := step_flow invariant.handlers found running moves
      (holds_iff invariant.handlerOwner found) fun u body same machine => by
        unfold HandlerBody at *; rwa [same, machine]
    exact ⟨invariant.tasks, handlers, fun j => (others _ (by simp)).trans (invariant.taskOwner j),
      owners_set found (fun _ => Flow.handler.inj) invariant.handlerOwner self others⟩
  | call c =>
    simp only [RefBox.step] at stepped
    split at stepped <;> cases stepped
    rename_i clips
    simp only [callEffect]
    cases launched : (clipsCall s.mps s.dispatcher.tasks s.mutexFutures c).launch with
    | none =>
      simp only [Option.map_none', Option.toList_none, List.append_nil]
      exact ⟨invariant.tasks, invariant.handlers, invariant.taskOwner, invariant.handlerOwner⟩
    | some body =>
      have fresh : TaskBody (launch c.machine body) := launch_taskBody launched
      refine ⟨fun u mem => ?_, invariant.handlers, owners_append rfl invariant.taskOwner,
        invariant.handlerOwner⟩
      rcases List.mem_append.1 mem with old | new
      · exact invariant.tasks u old
      · simp only [Option.map_some', Option.toList_some, List.mem_singleton] at new
        subst new
        exact ⟨fresh, fun _ => fresh.wellLocked, by simp [launch]⟩
  | notify k ret =>
    obtain ⟨callback, -, rfl⟩ := Option.map_eq_some'.1 stepped
    refine ⟨invariant.tasks, fun u mem => ?_, invariant.taskOwner,
      owners_append rfl invariant.handlerOwner⟩
    rcases List.mem_append.1 mem with old | new
    · exact invariant.handlers u old
    · simp only [List.mem_singleton] at new
      subst new
      have fresh : HandlerBody { machine := callback.machine, body := callback.body ret } :=
        ⟨callback, ret, rfl, rfl⟩
      exact ⟨fresh, fun _ => fresh.wellLocked, by simp⟩
  | lock | unlock =>
    simp only [RefBox.step] at stepped
    split at stepped <;> cases stepped
    rename_i before
    exact ⟨invariant.tasks, invariant.handlers, fun i => by simpa [before] using invariant.taskOwner i,
      fun i => by simpa [before] using invariant.handlerOwner i⟩
  | assertClips fact =>
    simp only [RefBox.step] at stepped
    split at stepped <;> cases stepped
    exact ⟨invariant.tasks, invariant.handlers, invariant.taskOwner, invariant.handlerOwner⟩

theorem Reachable.invariant {mps : Machines} {callbacks : List StatusCallback}
    (reachable : s.Reachable mps callbacks) : s.Invariant := by
  induction reachable with
  | init => exact invariant_init mps callbacks
  | step e _ stepped inductionHypothesis => exact inductionHypothesis.step stepped

/-! ## The discipline -/

/-- The flow's locker holds `clips_mutex_`; for the CLIPS thread, between its `lock` and its
`unlock`. -/
def Holds (s : RefBox) : Flow → Prop
  | .clips => s.owner = some .clips
  | .task i => ∃ t, s.tasks[i]? = some t ∧ t.locked = true
  | .handler i => ∃ t, s.handlers[i]? = some t ∧ t.locked = true

theorem Invariant.holds_iff (invariant : s.Invariant) (flow : Flow) :
    s.Holds flow ↔ s.owner = some flow := by
  cases flow with
  | clips => rfl
  | task i => exact (invariant.taskOwner i).symm
  | handler i => exact (invariant.handlerOwner i).symm

theorem record_none (facts : List (Flow × Fact)) (self : Flow) : record facts self none = facts := by
  simp [record]

theorem flow_facts {t t' : Thread} {self : Flow} {owner' : Option Flow} {fact : Option Fact}
    (disciplined : t.Disciplined) (running : t.state = .running)
    (moves : Thread.Moves self s.owner t t' owner' fact) :
    record s.facts self fact = s.facts ∨
      ∃ asserted, record s.facts self fact = s.facts ++ [(self, asserted)] ∧ t.locked = true := by
  cases fact with
  | none => exact .inl (record_none _ _)
  | some asserted =>
    exact .inr ⟨asserted, rfl, (Thread.locked_at (disciplined.1 running)).1 _ moves.asserted⟩

/-- Every step leaves the facts alone or appends one, asserted by a flow holding the lock. -/
theorem Invariant.step_facts (invariant : s.Invariant) {e : Event} (stepped : s.step e = some s') :
    s'.facts = s.facts ∨ ∃ flow fact, s'.facts = s.facts ++ [(flow, fact)] ∧ s.Holds flow := by
  cases e with
  | task i throws =>
    obtain ⟨t, t', owner, fact, found, running, moves, rfl⟩ := step_task_inv stepped
    rcases flow_facts (invariant.tasks t (List.getElem?_mem found)).2 running moves with
      same | ⟨asserted, appended, locked⟩
    · exact .inl same
    · exact .inr ⟨.task i, asserted, appended, t, found, locked⟩
  | handler i throws =>
    obtain ⟨t, t', owner, fact, found, running, moves, rfl⟩ := step_handler_inv stepped
    rcases flow_facts (invariant.handlers t (List.getElem?_mem found)).2 running moves with
      same | ⟨asserted, appended, locked⟩
    · exact .inl same
    · exact .inr ⟨.handler i, asserted, appended, t, found, locked⟩
  | notify k ret =>
    obtain ⟨callback, -, rfl⟩ := Option.map_eq_some'.1 stepped
    exact .inl rfl
  | assertClips fact =>
    simp only [RefBox.step] at stepped
    split at stepped <;> cases stepped
    exact .inr ⟨.clips, fact, rfl, ‹_ ∧ _›.1⟩
  | call c =>
    simp only [RefBox.step] at stepped
    split at stepped <;> cases stepped
    exact .inl rfl
  | lock | unlock =>
    simp only [RefBox.step] at stepped
    split at stepped <;> cases stepped
    exact .inl rfl

theorem Invariant.not_holds_at_call (invariant : s.Invariant) {e : Event} {flow : Flow}
    {machine : String} {op : StationOp} (calls : (flow, machine, op) ∈ s.stationCalls e)
    (notClips : flow ≠ .clips) : ¬ s.Holds flow := by
  have unlocked : ∀ {t : Thread}, t.Disciplined → t.stationCall = some op → t.locked = false := by
    intro t disciplined call
    obtain ⟨running, current⟩ := Thread.stationCall_eq_some.1 call
    exact (Thread.locked_at (disciplined.1 running)).2 op current
  rcases stationCalls_inv calls with ⟨c, -, rfl, -⟩ | ⟨i, -, t, -, rfl, found, -, call⟩ |
    ⟨i, -, t, -, rfl, found, -, call⟩
  · exact absurd rfl notClips
  · rintro ⟨u, found', locked⟩
    cases found.symm.trans found'
    simp [unlocked (invariant.tasks t (List.getElem?_mem found)).2 call] at locked
  · rintro ⟨u, found', locked⟩
    cases found.symm.trans found'
    simp [unlocked (invariant.handlers t (List.getElem?_mem found)).2 call] at locked

/-- The lock discipline in a state: a step appends at most one fact, asserted by a flow
holding `clips_mutex_`; a task or callback holds it at none of its station calls, and at no
point once it has ended, whether it returned or threw; and at most one flow holds it. -/
def LockDiscipline (s : RefBox) : Prop :=
  (∀ e s', s.step e = some s' →
    s'.facts = s.facts ∨ ∃ flow fact, s'.facts = s.facts ++ [(flow, fact)] ∧ s.Holds flow) ∧
  (∀ e flow machine op, (flow, machine, op) ∈ s.stationCalls e → flow ≠ .clips → ¬ s.Holds flow) ∧
  (∀ i t, s.tasks[i]? = some t → t.state = .done → ¬ s.Holds (.task i)) ∧
  (∀ i t, s.handlers[i]? = some t → t.state = .done → ¬ s.Holds (.handler i)) ∧
  (∀ flow other, s.Holds flow → s.Holds other → flow = other)

/-- The lock discipline holds in every state reached by any interleaving of the CLIPS
thread, the tasks and the callbacks, with any station call or assertion throwing. -/
theorem lock_discipline (mps : Machines) (callbacks : List StatusCallback) (s : RefBox)
    (reachable : s.Reachable mps callbacks) : s.LockDiscipline := by
  have invariant := reachable.invariant
  have ended : ∀ {t : Thread}, t.Disciplined → t.state = .done → t.locked = false := by
    intro t disciplined done
    cases locked : t.locked
    · rfl
    · simp [disciplined.2 locked] at done
  refine ⟨fun e s' stepped => invariant.step_facts stepped,
    fun e flow machine op calls notClips => invariant.not_holds_at_call calls notClips,
    fun i t found done ⟨u, found', locked⟩ => ?_, fun i t found done ⟨u, found', locked⟩ => ?_,
    fun flow other holds holds' => ?_⟩
  · cases found.symm.trans found'
    simp [ended (invariant.tasks t (List.getElem?_mem found)).2 done] at locked
  · cases found.symm.trans found'
    simp [ended (invariant.handlers t (List.getElem?_mem found)).2 done] at locked
  · have := ((invariant.holds_iff flow).1 holds).symm.trans ((invariant.holds_iff other).1 holds')
    simpa using this

theorem lock_discipline_after_launch :
    let mps : Machines := (∅ : Machines).insert "C-CS1" ⟨.cap⟩
    let events : List Event := [.lock, .call (.mpsCsProcess "C-CS1" "MOUNT_CAP")]
    ∃ s, (init mps (setupClips false mps)).run events = some s ∧
      s.Reachable mps (setupClips false mps) ∧ s.LockDiscipline := by
  intro mps events
  exact ⟨_, rfl, Reachable.init.run events rfl, lock_discipline _ _ _ (Reachable.init.run events rfl)⟩

end RefBox

end RcllRefBox
