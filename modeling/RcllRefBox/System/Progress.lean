import RcllRefBox.System.Discipline
import Mathlib.Algebra.Order.Ring.Nat

/-! # Progress

No interleaving deadlocks the flows. The only statement that waits is a `relock()`, and it
waits only while another flow holds `clips_mutex_`; the flow holding the lock never waits,
since its remaining code is well locked and so does not start with a `relock()`. Once the
CLIPS thread has released the lock, a step of the holder, or of any running flow while the
lock is free, ends that flow or moves it past one statement: it lowers the number of steps
the flows have left (`RefBox.remaining`). By induction on that number,
`quiescence_reachable` says that from every reachable state the referee box reaches one in
which every task and every callback invocation has returned normally and the lock is free,
with no station call or assertion throwing and no event of the CLIPS thread but one
`unlock`.
-/

namespace RcllRefBox

namespace Thread

/-- The steps a flow has left: one per statement from `pc` on, and one to return. -/
def remaining (t : Thread) : Nat :=
  match t.state with
  | .running => t.body.length - t.pc + 1
  | .done => 0

theorem remaining_eq_zero {t : Thread} : t.remaining = 0 ↔ t.state = .done := by
  unfold remaining
  split <;> simp_all

theorem Moves.remaining_lt {self : Flow} {owner owner' : Option Flow} {t t' : Thread}
    {fact : Option Fact} (moves : Moves self owner t t' owner' fact)
    (running : t.state = .running) : t'.remaining < t.remaining := by
  have inBody : ∀ {instr}, t.current = some instr → t.pc < t.body.length :=
    fun current => (List.getElem?_eq_some_iff.1 current).1
  cases moves with
  | returns _ | throws _ => simp [remaining, finish, running]
  | calls _ current | relocks current _ | unlocks current | asserts _ current =>
    have := inBody current
    simp only [remaining, next, running]
    omega

theorem Moves.owner {self : Flow} {owner owner' : Option Flow} {t t' : Thread}
    {fact : Option Fact} (moves : Moves self owner t t' owner' fact) :
    owner' = owner ∨ owner' = none ∨ owner' = some self := by
  cases moves with
  | returns _ | throws _ =>
    unfold release
    split <;> simp
  | calls _ _ | asserts _ _ => exact .inl rfl
  | relocks _ _ => exact .inr (.inr rfl)
  | unlocks _ => exact .inr (.inl rfl)

/-- A running flow steps without an exception unless it is at a `relock()` while the lock is
taken. -/
theorem advance_enabled {t : Thread} (self : Flow) {owner : Option Flow}
    (running : t.state = .running) (free : t.current = some .relock → owner = none) :
    ∃ result, t.advance self owner false = some result := by
  unfold advance
  split
  · simp_all
  · exact ⟨_, rfl⟩
  · exact ⟨_, rfl⟩
  · rw [if_pos (free ‹_›)]
    exact ⟨_, rfl⟩
  · exact ⟨_, rfl⟩
  · exact ⟨_, rfl⟩

theorem not_relock_of_locked {t : Thread} (disciplined : t.Disciplined) (locked : t.locked = true) :
    t.current ≠ some .relock := by
  intro current
  have well := disciplined.1 (disciplined.2 locked)
  rw [drop_of_current current] at well
  simp [(wellLocked_relock well).1] at locked

end Thread

theorem sum_map_set_lt {α : Type} (f : α → Nat) :
    ∀ (l : List α) (i : Nat) {x y : α}, l[i]? = some y → f x < f y →
      ((l.set i x).map f).sum < (l.map f).sum
  | [], _, _, _, found, _ => by simp at found
  | a :: l, 0, x, y, found, lower => by
    simp only [List.getElem?_cons_zero, Option.some.injEq] at found
    subst found
    simp only [List.set_cons_zero, List.map_cons, List.sum_cons]
    omega
  | a :: l, i + 1, x, y, found, lower => by
    have rest := sum_map_set_lt f l i (by simpa using found) lower
    simp only [List.set_cons_succ, List.map_cons, List.sum_cons]
    omega

theorem runThread_progress {threads : List Thread} {i : Nat} {t : Thread} (self : Flow)
    {owner : Option Flow} (found : threads[i]? = some t) (running : t.state = .running)
    (free : t.current = some .relock → owner = none) :
    ∃ threads' owner' fact, RefBox.runThread threads i self owner false = some (threads', owner', fact) ∧
      (threads'.map Thread.remaining).sum < (threads.map Thread.remaining).sum ∧
      (owner' = owner ∨ owner' = none ∨ owner' = some self) := by
  obtain ⟨⟨t', owner', fact⟩, advanced⟩ := Thread.advance_enabled self running free
  have moves := (Thread.advance_inv advanced).2
  exact ⟨threads.set i t', owner', fact, by simp [RefBox.runThread, found, advanced],
    sum_map_set_lt _ _ _ found (moves.remaining_lt running), moves.owner⟩

namespace RefBox

/-- The steps the tasks and callback invocations have left. -/
def remaining (s : RefBox) : Nat :=
  (s.tasks.map Thread.remaining).sum + (s.handlers.map Thread.remaining).sum

/-- Every task and callback invocation has ended and `clips_mutex_` is free. -/
def Quiescent (s : RefBox) : Prop :=
  (∀ t ∈ s.tasks, t.state = .done) ∧ (∀ t ∈ s.handlers, t.state = .done) ∧ s.owner = none

instance (s : RefBox) : Decidable s.Quiescent := by
  unfold Quiescent
  infer_instance

def NormalStep (e : Event) : Prop :=
  (∃ i, e = .task i false) ∨ ∃ i, e = .handler i false

variable {s : RefBox}

theorem step_task_progress (notClips : s.owner ≠ some .clips) {i : Nat} {t : Thread}
    (found : s.tasks[i]? = some t) (running : t.state = .running)
    (free : t.current = some .relock → s.owner = none) :
    ∃ s', s.step (.task i false) = some s' ∧ s'.remaining < s.remaining ∧ s'.owner ≠ some .clips := by
  obtain ⟨tasks, owner', fact, ran, lower, moved⟩ :=
    runThread_progress (.task i) found running free
  refine ⟨{ s with tasks, owner := owner', facts := record s.facts (.task i) fact },
    by simp [step, ran], by simp only [remaining]; omega, ?_⟩
  rcases moved with rfl | rfl | rfl <;> simp [notClips]

theorem step_handler_progress (notClips : s.owner ≠ some .clips) {i : Nat} {t : Thread}
    (found : s.handlers[i]? = some t) (running : t.state = .running)
    (free : t.current = some .relock → s.owner = none) :
    ∃ s', s.step (.handler i false) = some s' ∧ s'.remaining < s.remaining ∧
      s'.owner ≠ some .clips := by
  obtain ⟨handlers, owner', fact, ran, lower, moved⟩ :=
    runThread_progress (.handler i) found running free
  refine ⟨{ s with handlers, owner := owner', facts := record s.facts (.handler i) fact },
    by simp [step, ran], by simp only [remaining]; omega, ?_⟩
  rcases moved with rfl | rfl | rfl <;> simp [notClips]

theorem sum_remaining_eq_zero :
    ∀ {threads : List Thread}, (threads.map Thread.remaining).sum = 0 ↔ ∀ t ∈ threads, t.state = .done
  | [] => by simp
  | t :: rest => by
    simp only [List.map_cons, List.sum_cons, Nat.add_eq_zero, sum_remaining_eq_zero,
      Thread.remaining_eq_zero, List.forall_mem_cons]

theorem exists_running {threads : List Thread} (busy : (threads.map Thread.remaining).sum ≠ 0) :
    ∃ (i : Nat) (t : Thread), threads[i]? = some t ∧ t.state = .running := by
  obtain ⟨t, mem, notDone⟩ : ∃ t ∈ threads, t.state ≠ .done := by
    simpa [sum_remaining_eq_zero] using busy
  obtain ⟨i, found⟩ := List.mem_iff_getElem?.1 mem
  cases state : t.state
  · exact ⟨i, t, found, state⟩
  · exact absurd state notDone

theorem Invariant.task_holder (invariant : s.Invariant) {j : Nat} (owner : s.owner = some (.task j)) :
    ∃ t, s.tasks[j]? = some t ∧ t.state = .running ∧ t.current ≠ some .relock := by
  obtain ⟨t, found, locked⟩ := (invariant.taskOwner j).1 owner
  have disciplined := (invariant.tasks t (List.getElem?_mem found)).2
  exact ⟨t, found, disciplined.2 locked, Thread.not_relock_of_locked disciplined locked⟩

theorem Invariant.handler_holder (invariant : s.Invariant) {j : Nat}
    (owner : s.owner = some (.handler j)) :
    ∃ t, s.handlers[j]? = some t ∧ t.state = .running ∧ t.current ≠ some .relock := by
  obtain ⟨t, found, locked⟩ := (invariant.handlerOwner j).1 owner
  have disciplined := (invariant.handlers t (List.getElem?_mem found)).2
  exact ⟨t, found, disciplined.2 locked, Thread.not_relock_of_locked disciplined locked⟩

/-- While the CLIPS thread does not hold the lock and a flow has steps left, some task or
callback invocation steps without an exception, lowering the steps left. -/
theorem Invariant.progress (invariant : s.Invariant) (notClips : s.owner ≠ some .clips)
    (busy : s.remaining ≠ 0) :
    ∃ e s', s.step e = some s' ∧ NormalStep e ∧ s'.remaining < s.remaining ∧
      s'.owner ≠ some .clips := by
  match owner : s.owner with
  | some .clips => exact absurd owner notClips
  | some (.task j) =>
    obtain ⟨t, found, running, notRelock⟩ := invariant.task_holder owner
    obtain ⟨s', stepped, progress⟩ := step_task_progress notClips found running (absurd · notRelock)
    exact ⟨_, s', stepped, .inl ⟨j, rfl⟩, progress⟩
  | some (.handler j) =>
    obtain ⟨t, found, running, notRelock⟩ := invariant.handler_holder owner
    obtain ⟨s', stepped, progress⟩ :=
      step_handler_progress notClips found running (absurd · notRelock)
    exact ⟨_, s', stepped, .inr ⟨j, rfl⟩, progress⟩
  | none =>
    by_cases tasksBusy : (s.tasks.map Thread.remaining).sum = 0
    · obtain ⟨i, t, found, running⟩ :=
        @exists_running s.handlers (by simp only [remaining] at busy; omega)
      obtain ⟨s', stepped, progress⟩ := step_handler_progress notClips found running fun _ => owner
      exact ⟨_, s', stepped, .inr ⟨i, rfl⟩, progress⟩
    · obtain ⟨i, t, found, running⟩ := exists_running tasksBusy
      obtain ⟨s', stepped, progress⟩ := step_task_progress notClips found running fun _ => owner
      exact ⟨_, s', stepped, .inl ⟨i, rfl⟩, progress⟩

theorem Invariant.quiescent (invariant : s.Invariant) (notClips : s.owner ≠ some .clips)
    (idle : s.remaining = 0) : s.Quiescent := by
  simp only [remaining, Nat.add_eq_zero] at idle
  have done := @sum_remaining_eq_zero
  refine ⟨done.1 idle.1, done.1 idle.2, ?_⟩
  match owner : s.owner with
  | none => rfl
  | some .clips => exact absurd owner notClips
  | some (.task j) =>
    obtain ⟨t, found, running, -⟩ := invariant.task_holder owner
    simp [done.1 idle.1 t (List.getElem?_mem found)] at running
  | some (.handler j) =>
    obtain ⟨t, found, running, -⟩ := invariant.handler_holder owner
    simp [done.1 idle.2 t (List.getElem?_mem found)] at running

/-- While the CLIPS thread does not hold the lock, the flows alone, with no exception, bring
the box to quiescence. -/
theorem Invariant.reaches_quiescence (invariant : s.Invariant) (notClips : s.owner ≠ some .clips) :
    ∃ events s', s.run events = some s' ∧ s'.Quiescent ∧ ∀ e ∈ events, NormalStep e := by
  generalize measure : s.remaining = n
  induction n using Nat.strong_induction_on generalizing s with
  | _ n inductionHypothesis =>
    by_cases idle : s.remaining = 0
    · exact ⟨[], s, rfl, invariant.quiescent notClips idle, by simp⟩
    · obtain ⟨e, s', stepped, normal, lower, notClips'⟩ := invariant.progress notClips idle
      obtain ⟨events, s'', ran, quiet, normals⟩ :=
        inductionHypothesis _ (measure ▸ lower) (invariant.step stepped) notClips' rfl
      exact ⟨e :: events, s'', by simp [run, stepped, ran], quiet,
        List.forall_mem_cons.2 ⟨normal, normals⟩⟩

/-- From every state reached by any interleaving, the referee box reaches a state in which
every task and callback invocation has returned and `clips_mutex_` is free: the CLIPS thread
releases the lock if it holds it, and the flows then run to their ends with no station call
or assertion throwing. -/
theorem quiescence_reachable (mps : Machines) (callbacks : List StatusCallback) (s : RefBox)
    (reachable : s.Reachable mps callbacks) :
    ∃ events s', s.run events = some s' ∧ s'.Quiescent ∧
      ∀ e ∈ events, e = .unlock ∨ NormalStep e := by
  have invariant := reachable.invariant
  by_cases clips : s.owner = some .clips
  · have released : s.step .unlock = some { s with owner := none } := by simp [step, clips]
    obtain ⟨events, s', ran, quiet, normals⟩ :=
      (invariant.step released).reaches_quiescence (by simp)
    exact ⟨.unlock :: events, s', by simp [run, released, ran], quiet,
      List.forall_mem_cons.2 ⟨.inl rfl, fun e mem => .inr (normals e mem)⟩⟩
  · obtain ⟨events, s', ran, quiet, normals⟩ := invariant.reaches_quiescence clips
    exact ⟨events, s', ran, quiet, fun e mem => .inr (normals e mem)⟩

theorem quiescence_after_launch :
    let mps : Machines := (∅ : Machines).insert "C-CS1" ⟨.cap⟩
    let events : List Event := [.lock, .call (.mpsCsProcess "C-CS1" "MOUNT_CAP")]
    ∃ s, (init mps []).run events = some s ∧ ∃ events' s', s.run events' = some s' ∧
      s'.Quiescent ∧ ∀ e ∈ events', e = .unlock ∨ NormalStep e := by
  intro mps events
  exact ⟨_, rfl, quiescence_reachable mps [] _ (Reachable.init.run events rfl)⟩

/-! ## Stations free again -/

theorem Quiescent.free {mps : Machines} {callbacks : List StatusCallback} (quiet : s.Quiescent)
    (reachable : s.Reachable mps callbacks) (name : String) :
    (mutexFutureReady s.dispatcher.tasks s.mutexFutures name).1 = true := by
  refine (Dispatcher.free_iff_not_busy reachable.dispatcher.2.consistent name).2 fun ⟨i, running⟩ => ?_
  simp only [Dispatcher.Running, dispatcher, List.getElem?_map, Option.map_eq_some',
    Prod.mk.injEq] at running
  obtain ⟨t, found, -, state⟩ := running
  simp [quiet.1 t (List.getElem?_mem found)] at state

/-- Once the box is quiescent, every command that has a task and names a station of the table
launches that task: no station is left refused. -/
theorem quiescent_command_launches (mps : Machines) (callbacks : List StatusCallback) (s : RefBox)
    (reachable : s.Reachable mps callbacks) (quiet : s.Quiescent) (c : ClipsCall)
    (body : List Instr) (task : c.task? = some body) (known : c.machine ∈ mps) :
    (clipsCall s.mps s.dispatcher.tasks s.mutexFutures c).launch = some body := by
  obtain ⟨station, found⟩ := Option.isSome_iff_exists.1 (AList.lookup_isSome.2 known)
  rw [clipsCall_of_task task, CallEffect.downcast_launch, launchTask_of_free (reachable.dispatcher.1 ▸ found)
    (quiet.free reachable c.machine)]

theorem reset_again_after_reset :
    let mps : Machines := (∅ : Machines).insert "C-CS1" ⟨.cap⟩
    let events : List Event :=
      [.lock, .call (.mpsReset "C-CS1"), .unlock, .task 0 false, .task 0 false]
    ∃ s, (init mps []).run events = some s ∧ s.Quiescent ∧
      (clipsCall s.mps s.dispatcher.tasks s.mutexFutures (.mpsReset "C-CS1")).launch =
        some resetTask := by
  intro mps events
  exact ⟨_, rfl, by decide, quiescent_command_launches mps [] _ (Reachable.init.run events rfl)
    (by decide) _ _ rfl (by decide)⟩

end RefBox

end RcllRefBox
