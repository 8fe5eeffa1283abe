import RcllRefBox.System.Discipline

/-! # Which commands reach a station

The single-flight table is consulted only by `mps-reset`, `mps-deliver` and
`mps-cs-process`: the synchronous commands (`mps-move-conveyor`, `mps-bs-dispense`,
`mps-cs-retrieve-cap`, ...) call their station on the CLIPS thread whatever task runs on it
(`sync_command_overlaps_task`), and apart from them, a station operation on a station with a
running task is that task's (`station_calls_serialized_except_sync`).
-/

namespace RcllRefBox

namespace RefBox

theorem HandlerBody.stationCall {t : Thread} (body : HandlerBody t) : t.stationCall = none := by
  obtain ⟨callback, ret, -, same⟩ := body
  refine Option.eq_none_iff_forall_not_mem.2 fun op call => ?_
  have current := (Thread.stationCall_eq_some.1 call).2
  unfold Thread.current at current
  rw [same] at current
  generalize t.pc = pc at current
  rcases pc with _ | _ | pc <;> simp [StatusCallback.body] at current

/-- No station operation starts on a station while a task admitted for it runs, unless that
task starts it. -/
def CommandsSerialized (mps : Machines) (callbacks : List StatusCallback) : Prop :=
  ∀ s : RefBox, s.Reachable mps callbacks → ∀ e flow machine op,
    (flow, machine, op) ∈ s.stationCalls e →
    ∀ i t, s.tasks[i]? = some t → t.machine = machine → t.state = .running → flow = .task i

/-- `mps-cs-retrieve-cap` calls `retrieve_cap` on a cap station whose `mps-cs-process` task
is still running. -/
theorem sync_command_overlaps_task :
    ¬ CommandsSerialized ((∅ : Machines).insert "C-CS1" ⟨.cap⟩) [] := by
  intro serialized
  cases serialized _ (Reachable.init.run [.lock, .call (.mpsCsProcess "C-CS1" "MOUNT_CAP")] rfl)
    (.call (.mpsCsRetrieveCap "C-CS1")) .clips "C-CS1" .retrieveCap (by decide) 0 _ rfl rfl rfl

/-- Apart from the synchronous commands, which the CLIPS thread runs without consulting
`mutex_futures_`, a station operation on a station with a running task is started by that
task. -/
theorem station_calls_serialized_except_sync (mps : Machines) (callbacks : List StatusCallback)
    (s : RefBox) (reachable : s.Reachable mps callbacks) :
    ∀ e flow machine op, (flow, machine, op) ∈ s.stationCalls e →
      ∀ i t, s.tasks[i]? = some t → t.machine = machine → t.state = .running →
        flow = .task i ∨ ∃ c, e = .call c ∧ c.async = false := by
  intro e flow machine op calls i t found sameMachine running
  have consistent := reachable.dispatcher.2.consistent
  rcases stationCalls_inv calls with ⟨c, rfl, -, -, issued⟩ | ⟨j, -, u, -, rfl, found', rfl, call⟩ |
    ⟨j, -, u, -, -, found', -, call⟩
  · cases async : c.async
    · exact .inr ⟨c, rfl, async⟩
    · simp [clipsCall_stationOps_of_async async] at issued
  · have runningU := (Thread.stationCall_eq_some.1 call).1
    exact .inl (congrArg Flow.task (consistent.running_unique (dispatcher_running found' runningU)
      (sameMachine ▸ dispatcher_running found running)))
  · simp [HandlerBody.stationCall (reachable.invariant.handlers u (List.getElem?_mem found')).1] at call

/-- The call of `retrieve_cap` beside a running `mps-cs-process` task is a synchronous
command's. -/
theorem retrieve_cap_beside_task :
    let mps : Machines := (∅ : Machines).insert "C-CS1" ⟨.cap⟩
    let events : List Event := [.lock, .call (.mpsCsProcess "C-CS1" "MOUNT_CAP")]
    ∃ s, (init mps []).run events = some s ∧
      (Flow.clips = .task 0 ∨
        ∃ c, Event.call (.mpsCsRetrieveCap "C-CS1") = .call c ∧ c.async = false) := by
  intro mps events
  exact ⟨_, rfl, station_calls_serialized_except_sync mps [] _ (Reachable.init.run events rfl) _ _ _
    .retrieveCap (by decide) 0 _ rfl rfl rfl⟩

end RefBox

end RcllRefBox
