import RcllRefBox.System.Discipline

/-! # The feedback protocol of the task lambdas

The tasks of `mps-cs-process` and `mps-deliver` report to the CLIPS rules through
`mps-feedback` facts: a cap operation asserts `AVAILABLE` once the workpiece is at the middle
of the band and `DONE` once it is at the output, and a delivery asserts
`mps-deliver success` once the conveyor has moved it out. Read per station, these facts
form a word of the language `((AVAILABLE op)(DONE op)? | (mps-deliver success))*`
(`FeedbackWord`), whatever the interleaving and wherever a station call or an assertion
throws (`feedback_law`).

The proof keeps, for every station, the word made of the facts asserted so far followed by
the facts its running task would still assert (`FeedbackInvariant`). Single-flight admission
makes that task unique, so its steps move facts from the second part to the first; a throw
cuts the word, and the language is closed under prefixes (`FeedbackWord.of_append`); a
launch appends the whole feedback of a lambda (`TaskBody.feedbackWord`).

A flow's `completed` statements are those its `pc` has moved past: the ones that returned
normally (`Thread.Moves.completed`). `Ordered` says which of them the protocol needs before
each statement, and every lambda respects it at every position (`TaskBody.ordered`).
-/

namespace RcllRefBox

/-! ## The language -/

def Fact.feedbackFor (m : String) : Fact → Bool
  | .mpsFeedback machine _ _ | .mpsDeliverSuccess machine => machine == m
  | _ => false

theorem Fact.feedbackFor_of_ofClipsThread {fact : Fact} (clips : fact.ofClipsThread = true)
    (m : String) : fact.feedbackFor m = false := by
  cases fact <;> simp_all [Fact.ofClipsThread, Fact.feedbackFor]

def feedbackOf (m : String) (facts : List (Flow × Fact)) : List Fact :=
  (facts.map Prod.snd).filter (Fact.feedbackFor m)

/-- The words of `((AVAILABLE op)(DONE op)? | (mps-deliver success))*` on station `m`. -/
inductive FeedbackWord (m : String) : List Fact → Prop
  | nil : FeedbackWord m []
  | available {rest : List Fact} (op : String) :
      FeedbackWord m rest → FeedbackWord m (.mpsFeedback m op .available :: rest)
  | completed {rest : List Fact} (op : String) : FeedbackWord m rest →
      FeedbackWord m (.mpsFeedback m op .available :: .mpsFeedback m op .done :: rest)
  | delivered {rest : List Fact} :
      FeedbackWord m rest → FeedbackWord m (.mpsDeliverSuccess m :: rest)

namespace FeedbackWord

variable {m : String}

theorem append {w v : List Fact} (first : FeedbackWord m w) (second : FeedbackWord m v) :
    FeedbackWord m (w ++ v) := by
  induction first with
  | nil => exact second
  | available op _ inductionHypothesis => exact .available op inductionHypothesis
  | completed op _ inductionHypothesis => exact .completed op inductionHypothesis
  | delivered _ inductionHypothesis => exact .delivered inductionHypothesis

theorem of_append {w r : List Fact} (word : FeedbackWord m (w ++ r)) : FeedbackWord m w := by
  generalize joined : w ++ r = u at word
  induction word generalizing w with
  | nil =>
    rw [(List.append_eq_nil.1 joined).1]
    exact .nil
  | available op _ inductionHypothesis =>
    rcases w with _ | ⟨x, w⟩
    · exact .nil
    · obtain ⟨rfl, rest⟩ := List.cons_eq_cons.1 joined
      exact .available op (inductionHypothesis rest)
  | completed op _ inductionHypothesis =>
    rcases w with _ | ⟨x, _ | ⟨y, w⟩⟩
    · exact .nil
    · cases (List.cons_eq_cons.1 joined).1
      exact .available op .nil
    · simp only [List.cons_append, List.cons.injEq] at joined
      obtain ⟨rfl, rfl, rest⟩ := joined
      exact .completed op (inductionHypothesis rest)
  | delivered _ inductionHypothesis =>
    rcases w with _ | ⟨x, w⟩
    · exact .nil
    · obtain ⟨rfl, rest⟩ := List.cons_eq_cons.1 joined
      exact .delivered (inductionHypothesis rest)

theorem available_before_done {w : List Fact} (word : FeedbackWord m w) {k : Nat} {op : String}
    (found : w[k]? = some (.mpsFeedback m op .done)) :
    ∃ j, k = j + 1 ∧ w[j]? = some (.mpsFeedback m op .available) := by
  induction word generalizing k with
  | nil => simp at found
  | available _ _ inductionHypothesis | delivered _ inductionHypothesis =>
    rcases k with _ | k
    · simp at found
    · rw [List.getElem?_cons_succ] at found
      obtain ⟨j, rfl, before⟩ := inductionHypothesis found
      exact ⟨j + 1, rfl, by rwa [List.getElem?_cons_succ]⟩
  | completed op' _ inductionHypothesis =>
    rcases k with _ | _ | k
    · simp at found
    · simp only [List.getElem?_cons_succ, List.getElem?_cons_zero, Option.some.injEq,
        Fact.mpsFeedback.injEq] at found
      exact ⟨0, rfl, by simp [found.2.1]⟩
    · rw [List.getElem?_cons_succ, List.getElem?_cons_succ] at found
      obtain ⟨j, rfl, before⟩ := inductionHypothesis found
      exact ⟨j + 2, rfl, by rwa [List.getElem?_cons_succ, List.getElem?_cons_succ]⟩

end FeedbackWord

/-! ## What a flow has done and has still to do -/

def Instr.asserted? : Instr → Option Fact
  | .assertFact fact => some fact
  | _ => none

namespace Thread

def completed (t : Thread) : List Instr := t.body.take t.pc

/-- The facts a flow still asserts if none of its statements throws. -/
def pending (t : Thread) : List Fact :=
  match t.state with
  | .running => (t.body.drop t.pc).filterMap Instr.asserted?
  | .done => []

@[simp] theorem finish_pending (t : Thread) : t.finish.pending = [] := rfl

theorem Moves.completed {self : Flow} {owner owner' : Option Flow} {t t' : Thread}
    {fact : Option Fact} (moves : Moves self owner t t' owner' fact) :
    t' = t.finish ∨ ∃ instr, t.current = some instr ∧ t'.completed = t.completed ++ [instr] := by
  cases moves with
  | returns _ | throws _ => exact .inl rfl
  | calls _ current | relocks current _ | unlocks current | asserts _ current =>
    refine .inr ⟨_, current, ?_⟩
    unfold Thread.current at current
    simp [Thread.completed, next, List.take_succ, current]

/-- What a flow's step does to what it still asserts: nothing, or it ends the flow, or it
asserts the first of them. -/
theorem Moves.pending {self : Flow} {owner owner' : Option Flow} {t t' : Thread}
    {fact : Option Fact} (moves : Moves self owner t t' owner' fact) (running : t.state = .running) :
    fact = none ∧ (t'.pending = t.pending ∨ t' = t.finish) ∨
      ∃ asserted, fact = some asserted ∧ t.pending = asserted :: t'.pending := by
  have rest := @Thread.drop_of_current t
  cases moves with
  | returns _ | throws _ => exact .inl ⟨rfl, .inr rfl⟩
  | calls _ current | relocks current _ | unlocks current =>
    exact .inl ⟨rfl, .inl (by simp [Thread.pending, next, running, rest current, Instr.asserted?])⟩
  | asserts _ current =>
    exact .inr ⟨_, rfl, by simp [Thread.pending, next, running, rest current, Instr.asserted?]⟩

theorem mem_of_mem_pending {t : Thread} {fact : Fact} (mem : fact ∈ t.pending) :
    .assertFact fact ∈ t.body := by
  unfold pending at mem
  split at mem
  · obtain ⟨instr, mem, asserted⟩ := List.mem_filterMap.1 mem
    cases instr <;> simp only [Instr.asserted?, Option.some.injEq, reduceCtorEq] at asserted
    exact asserted ▸ List.mem_of_mem_drop mem
  · simp at mem

end Thread

/-! ## The lambdas -/

@[simp] theorem capAction_retrieveCap : capAction "RETRIEVE_CAP" = [.call .retrieveCap] := rfl

@[simp] theorem capAction_mountCap : capAction "MOUNT_CAP" = [.call .mountCap] := rfl

theorem capAction_eq_call_iff {operation : String} {op : StationOp} :
    capAction operation = [.call op] ↔
      operation = "RETRIEVE_CAP" ∧ op = .retrieveCap ∨ operation = "MOUNT_CAP" ∧ op = .mountCap := by
  unfold capAction
  split_ifs <;> simp_all [eq_comm]

theorem validCsOperation_cases {operation : String} (valid : validCsOperation operation = true) :
    operation = "RETRIEVE_CAP" ∨ operation = "MOUNT_CAP" := by
  simpa [validCsOperation] using valid

theorem TaskBody.feedback_machine {t : Thread} (body : TaskBody t) {fact : Fact}
    (mem : .assertFact fact ∈ t.body) {m : String} (about : fact.feedbackFor m = true) :
    t.machine = m := by
  rcases body with same | same | ⟨operation, valid, same⟩ <;> rw [same] at mem
  · simp [resetTask] at mem
  · simp [deliverTask] at mem
    subst mem
    simpa [Fact.feedbackFor] using about
  · rcases validCsOperation_cases valid with rfl | rfl <;> simp [csProcessTask] at mem <;>
      rcases mem with rfl | rfl <;> simpa [Fact.feedbackFor] using about

theorem TaskBody.pending_other {t : Thread} (body : TaskBody t) {m : String}
    (other : t.machine ≠ m) : t.pending.filter (Fact.feedbackFor m) = [] :=
  List.filter_eq_nil_iff.2 fun _ mem about =>
    other (body.feedback_machine (Thread.mem_of_mem_pending mem) about)

/-- What a freshly launched lambda will assert for its station is a word. -/
theorem TaskBody.feedbackWord {t : Thread} (body : TaskBody t) :
    FeedbackWord t.machine ((t.body.filterMap Instr.asserted?).filter (Fact.feedbackFor t.machine)) := by
  rcases body with same | same | ⟨operation, valid, same⟩ <;> rw [same]
  · exact .nil
  · simpa [deliverTask, Instr.asserted?, Fact.feedbackFor] using .delivered .nil
  · rcases validCsOperation_cases valid with rfl | rfl <;>
      simpa [csProcessTask, Instr.asserted?, Fact.feedbackFor] using .completed _ .nil

/-- What a task on station `m` has to have completed before a statement runs:
`band_on_until_mid` before an `AVAILABLE`, `band_on_until_out` before a `DONE`,
`conveyor_move(FORWARD, OUTPUT)` before `mps-deliver success`, and before a cap action the
`AVAILABLE` of the operation it belongs to. -/
def Ordered (m : String) (completed : List Instr) : Instr → Prop
  | .assertFact (.mpsFeedback _ _ .available) => .call .bandOnUntilMid ∈ completed
  | .assertFact (.mpsFeedback _ _ .done) => .call .bandOnUntilOut ∈ completed
  | .assertFact (.mpsDeliverSuccess _) => .call (.conveyorMove .forward .output) ∈ completed
  | .call op => ∀ operation, capAction operation = [.call op] →
      .assertFact (.mpsFeedback m operation .available) ∈ completed
  | _ => True

theorem TaskBody.ordered {t : Thread} (body : TaskBody t) {pc : Nat} {instr : Instr}
    (found : t.body[pc]? = some instr) : Ordered t.machine (t.body.take pc) instr := by
  rcases body with same | same | ⟨operation, valid, same⟩ <;> rw [same] at found ⊢
  · rcases pc with _ | pc <;> simp [resetTask] at found
    subst found
    simp [Ordered, capAction_eq_call_iff]
  · rcases pc with _ | _ | _ | pc <;>
      simp only [deliverTask, List.getElem?_cons_succ, List.getElem?_cons_zero, List.getElem?_nil,
        Option.some.injEq, reduceCtorEq] at found <;>
      subst found <;> simp [Ordered, capAction_eq_call_iff, deliverTask]
  · rcases validCsOperation_cases valid with rfl | rfl <;>
      simp only [csProcessTask, capAction_retrieveCap, capAction_mountCap, List.cons_append,
        List.nil_append] at found ⊢ <;>
      rcases pc with _ | _ | _ | _ | _ | _ | _ | _ | pc <;>
      simp only [List.getElem?_cons_succ, List.getElem?_cons_zero, List.getElem?_nil,
        Option.some.injEq, reduceCtorEq] at found <;>
      subst found <;> simp [Ordered, capAction_eq_call_iff]

theorem HandlerBody.current_not_feedback {t : Thread} (body : HandlerBody t) {fact : Fact}
    (current : t.current = some (.assertFact fact)) (m : String) : fact.feedbackFor m = false := by
  obtain ⟨callback, ret, -, same⟩ := body
  unfold Thread.current at current
  rw [same] at current
  generalize t.pc = pc at current
  rcases pc with _ | _ | pc <;> simp [StatusCallback.body] at current
  simp [← current, StatusCallback.fact, Fact.feedbackFor]

/-! ## The invariant -/

theorem flatMap_of_others {α β : Type} {f : α → List β} :
    ∀ {l : List α} {i : Nat} {x : α}, l[i]? = some x →
      (∀ j y, l[j]? = some y → j ≠ i → f y = []) → l.flatMap f = f x
  | [], _, _, found, _ => by simp at found
  | a :: l, 0, x, found, others => by
    simp only [List.getElem?_cons_zero, Option.some.injEq] at found
    subst found
    have rest : l.flatMap f = [] := List.flatMap_eq_nil_iff.2 fun y mem => by
      obtain ⟨j, found⟩ := List.mem_iff_getElem?.1 mem
      exact others (j + 1) y (by simpa using found) (by omega)
    simp [rest]
  | a :: l, i + 1, x, found, others => by
    rw [List.flatMap_cons, others 0 a (by simp) (by omega), List.nil_append]
    exact flatMap_of_others (by simpa using found) fun j y found ne =>
      others (j + 1) y (by simpa using found) (by omega)

theorem flatMap_set_of_eq {α β : Type} {f : α → List β} :
    ∀ {l : List α} {i : Nat} {x y : α}, l[i]? = some x → f y = f x →
      (l.set i y).flatMap f = l.flatMap f
  | [], _, _, _, found, _ => by simp at found
  | a :: l, 0, x, y, found, same => by
    simp only [List.getElem?_cons_zero, Option.some.injEq] at found
    subst found
    simp [same]
  | a :: l, i + 1, x, y, found, same => by
    simp [flatMap_set_of_eq (by simpa using found) same]

def pendingFeedback (m : String) (tasks : List Thread) : List Fact :=
  tasks.flatMap fun t => t.pending.filter (Fact.feedbackFor m)

theorem feedbackOf_record (m : String) (facts : List (Flow × Fact)) (self : Flow)
    (fact : Option Fact) :
    feedbackOf m (RefBox.record facts self fact) =
      feedbackOf m facts ++ fact.toList.filter (Fact.feedbackFor m) := by
  cases fact <;> simp [feedbackOf, RefBox.record]

namespace RefBox

variable {s s' : RefBox}

/-- For every station, the feedback asserted so far followed by what the tasks still assert
for it is a word. -/
def FeedbackInvariant (s : RefBox) : Prop :=
  ∀ m, FeedbackWord m (feedbackOf m s.facts ++ pendingFeedback m s.tasks)

theorem feedbackInvariant_init (mps : Machines) (callbacks : List StatusCallback) :
    (init mps callbacks).FeedbackInvariant :=
  fun _ => .nil

theorem Invariant.pending_others (invariant : s.Invariant) (consistent : s.dispatcher.Consistent)
    {i : Nat} {t : Thread} (found : s.tasks[i]? = some t) (running : t.state = .running) :
    ∀ j u, s.tasks[j]? = some u → j ≠ i → u.pending.filter (Fact.feedbackFor t.machine) = [] := by
  intro j u found' ne
  cases state : u.state
  · by_cases same : u.machine = t.machine
    · refine absurd (consistent.running_unique (dispatcher_running found' state) ?_) ne
      rw [same]
      exact dispatcher_running found running
    · exact (invariant.tasks u (List.getElem?_mem found')).1.pending_other same
  · simp [Thread.pending, state]

theorem Invariant.pending_idle (invariant : s.Invariant) {m : String}
    (idle : ¬ ∃ task, s.dispatcher.Running m task) : pendingFeedback m s.tasks = [] :=
  List.flatMap_eq_nil_iff.2 fun u mem => by
    obtain ⟨j, found⟩ := List.mem_iff_getElem?.1 mem
    cases state : u.state
    · exact (invariant.tasks u mem).1.pending_other fun same => idle ⟨j, same ▸ dispatcher_running found state⟩
    · simp [Thread.pending, state]

/-- A task's step keeps every station's word: on its own station it moves a fact from what
it still asserts to what it asserted, or cuts the word where it ends; on another it changes
nothing. -/
theorem FeedbackInvariant.task_step (feedback : s.FeedbackInvariant) (invariant : s.Invariant)
    (consistent : s.dispatcher.Consistent) {i : Nat} {throws : Bool}
    (stepped : s.step (.task i throws) = some s') : s'.FeedbackInvariant := by
  obtain ⟨t, t', owner, fact, found, running, moves, rfl⟩ := step_task_inv stepped
  have body := (invariant.tasks t (List.getElem?_mem found)).1
  intro m
  have word := feedback m
  simp only [feedbackOf_record]
  by_cases own : t.machine = m
  · subst own
    have others := invariant.pending_others consistent found running
    have replaced : (s.tasks.set i t')[i]? = some t' := by
      simp [(List.getElem?_eq_some_iff.1 found).1]
    rw [pendingFeedback, flatMap_of_others found others] at word
    rw [pendingFeedback, flatMap_of_others replaced fun j u found' ne =>
      others j u (by rwa [List.getElem?_set_ne (Ne.symm ne)] at found') ne]
    rcases moves.pending running with ⟨rfl, kept | rfl⟩ | ⟨asserted, rfl, cons⟩
    · simpa [kept] using word
    · simpa using word.of_append
    · rw [cons] at word
      cases about : Fact.feedbackFor t.machine asserted <;> simpa [List.filter_cons, about] using word
  · obtain ⟨sameMachine, sameBody, -⟩ := moves.view
    have body' : TaskBody t' := by unfold TaskBody at *; rwa [sameBody, sameMachine]
    have silent : fact.toList.filter (Fact.feedbackFor m) = [] := by
      cases fact with
      | none => rfl
      | some asserted =>
        simpa using fun about => own (body.feedback_machine (List.getElem?_mem moves.asserted) about)
    rw [pendingFeedback, flatMap_set_of_eq found ((body'.pending_other (sameMachine ▸ own)).trans
      (body.pending_other own).symm), silent, List.append_nil]
    exact word

theorem FeedbackInvariant.handler_step (feedback : s.FeedbackInvariant) (invariant : s.Invariant)
    {i : Nat} {throws : Bool} (stepped : s.step (.handler i throws) = some s') :
    s'.FeedbackInvariant := by
  obtain ⟨t, t', owner, fact, found, -, moves, rfl⟩ := step_handler_inv stepped
  intro m
  have silent : fact.toList.filter (Fact.feedbackFor m) = [] := by
    cases fact with
    | none => rfl
    | some asserted =>
      simp [(invariant.handlers t (List.getElem?_mem found)).1.current_not_feedback moves.asserted m]
  simpa [feedbackOf_record, silent] using feedback m

theorem FeedbackInvariant.call_step (feedback : s.FeedbackInvariant) (invariant : s.Invariant)
    (consistent : s.dispatcher.Consistent) (c : ClipsCall) : (s.callEffect c).FeedbackInvariant := by
  intro m
  simp only [callEffect]
  cases launched : (clipsCall s.mps s.dispatcher.tasks s.mutexFutures c).launch with
  | none => simpa using feedback m
  | some body =>
    have fresh : TaskBody (launch c.machine body) := launch_taskBody launched
    simp only [Option.map_some', Option.toList_some, pendingFeedback, List.flatMap_append,
      List.flatMap_cons, List.flatMap_nil, List.append_nil]
    by_cases own : c.machine = m
    · subst own
      have idle := invariant.pending_idle (consistent.launch_idle launched)
      have word := feedback c.machine
      rw [idle, List.append_nil] at word
      rw [pendingFeedback] at idle
      rw [idle, List.nil_append]
      simpa [Thread.pending, launch] using word.append fresh.feedbackWord
    · rw [fresh.pending_other own, List.append_nil]
      exact feedback m

theorem FeedbackInvariant.step (feedback : s.FeedbackInvariant) (invariant : s.Invariant)
    (consistent : s.dispatcher.Consistent) {e : Event} (stepped : s.step e = some s') :
    s'.FeedbackInvariant := by
  cases e with
  | task i throws => exact feedback.task_step invariant consistent stepped
  | handler i throws => exact feedback.handler_step invariant stepped
  | call c =>
    simp only [RefBox.step] at stepped
    split at stepped <;> cases stepped
    exact feedback.call_step invariant consistent c
  | notify k ret =>
    obtain ⟨callback, -, rfl⟩ := Option.map_eq_some'.1 stepped
    exact feedback
  | assertClips fact =>
    simp only [RefBox.step] at stepped
    split at stepped <;> cases stepped
    intro m
    have silent := Fact.feedbackFor_of_ofClipsThread ‹_ ∧ _›.2 m
    simpa [feedbackOf, silent] using feedback m
  | lock | unlock =>
    simp only [RefBox.step] at stepped
    split at stepped <;> cases stepped
    exact feedback

theorem Reachable.feedbackInvariant {mps : Machines} {callbacks : List StatusCallback}
    (reachable : s.Reachable mps callbacks) : s.FeedbackInvariant := by
  induction reachable with
  | init => exact feedbackInvariant_init _ _
  | step e reached stepped inductionHypothesis =>
    exact inductionHypothesis.step reached.invariant reached.dispatcher.2.consistent stepped

/-! ## The law -/

theorem record_eq_append {facts : List (Flow × Fact)} {self flow : Flow} {fact : Option Fact}
    {asserted : Fact} (appended : record facts self fact = facts ++ [(flow, asserted)]) :
    flow = self ∧ fact = some asserted := by
  cases fact with
  | none => simp [record] at appended
  | some fact =>
    simp only [record, Option.map_some', Option.toList_some, List.append_cancel_left_eq,
      List.cons.injEq, Prod.mk.injEq, and_true] at appended
    exact ⟨appended.1.symm, congrArg some appended.2⟩

/-- The fact a step appends: one of the CLIPS thread's own, or the current assertion of a
running task or of a callback. -/
theorem step_appended {e : Event} {flow : Flow} {fact : Fact} (stepped : s.step e = some s')
    (appended : s'.facts = s.facts ++ [(flow, fact)]) :
    (flow = .clips ∧ fact.ofClipsThread = true) ∨
    (∃ i t, flow = .task i ∧ s.tasks[i]? = some t ∧ t.current = some (.assertFact fact)) ∨
    (∃ i t, flow = .handler i ∧ s.handlers[i]? = some t ∧ t.current = some (.assertFact fact)) := by
  cases e with
  | task i throws =>
    obtain ⟨t, t', owner, asserted, found, -, moves, rfl⟩ := step_task_inv stepped
    obtain ⟨rfl, rfl⟩ := record_eq_append appended
    exact .inr (.inl ⟨i, t, rfl, found, moves.asserted⟩)
  | handler i throws =>
    obtain ⟨t, t', owner, asserted, found, -, moves, rfl⟩ := step_handler_inv stepped
    obtain ⟨rfl, rfl⟩ := record_eq_append appended
    exact .inr (.inr ⟨i, t, rfl, found, moves.asserted⟩)
  | assertClips asserted =>
    simp only [RefBox.step] at stepped
    split at stepped <;> cases stepped
    simp only [List.append_cancel_left_eq, List.cons.injEq, Prod.mk.injEq, and_true] at appended
    obtain ⟨rfl, rfl⟩ := appended
    exact .inl ⟨rfl, ‹_ ∧ _›.2⟩
  | notify k ret =>
    obtain ⟨callback, -, rfl⟩ := Option.map_eq_some'.1 stepped
    simp at appended
  | call c | lock | unlock =>
    simp only [RefBox.step] at stepped
    split at stepped <;> cases stepped
    simp [callEffect] at appended

/-- The feedback law in a state. Per station, the feedback asserted so far is a word of
`((AVAILABLE op)(DONE op)? | (mps-deliver success))*`, so every `DONE` directly follows the
`AVAILABLE` of its operation. A step that asserts a station's feedback is a step of a task on
that station which has completed what `Ordered` asks before the assertion, and so is every
station call of a task. -/
def FeedbackLaw (s : RefBox) : Prop :=
  (∀ m, FeedbackWord m (feedbackOf m s.facts)) ∧
  (∀ m k op, (feedbackOf m s.facts)[k]? = some (.mpsFeedback m op .done) →
    ∃ j, k = j + 1 ∧ (feedbackOf m s.facts)[j]? = some (.mpsFeedback m op .available)) ∧
  (∀ e s' flow fact m, s.step e = some s' → s'.facts = s.facts ++ [(flow, fact)] →
    fact.feedbackFor m = true →
    ∃ i t, flow = .task i ∧ s.tasks[i]? = some t ∧ t.machine = m ∧
      Ordered m t.completed (.assertFact fact)) ∧
  (∀ e i m op, (Flow.task i, m, op) ∈ s.stationCalls e →
    ∃ t, s.tasks[i]? = some t ∧ t.machine = m ∧ Ordered m t.completed (.call op))

/-- The feedback law holds in every state reached by any interleaving of the CLIPS thread,
the tasks and the callbacks, with any station call or assertion throwing. -/
theorem feedback_law (mps : Machines) (callbacks : List StatusCallback) (s : RefBox)
    (reachable : s.Reachable mps callbacks) : s.FeedbackLaw := by
  have invariant := reachable.invariant
  have word : ∀ m, FeedbackWord m (feedbackOf m s.facts) :=
    fun m => (reachable.feedbackInvariant m).of_append
  refine ⟨word, fun m k op found => (word m).available_before_done found,
    fun e s' flow fact m stepped appended about => ?_, fun e i m op calls => ?_⟩
  · rcases step_appended stepped appended with
      ⟨-, clips⟩ | ⟨i, t, rfl, found, current⟩ | ⟨i, t, -, found, current⟩
    · simp [Fact.feedbackFor_of_ofClipsThread clips m] at about
    · have body := (invariant.tasks t (List.getElem?_mem found)).1
      have own := body.feedback_machine (List.getElem?_mem current) about
      exact ⟨i, t, rfl, found, own, own ▸ body.ordered current⟩
    · simp [(invariant.handlers t (List.getElem?_mem found)).1.current_not_feedback current m] at about
  · rcases stationCalls_inv calls with ⟨c, -, flow, -⟩ | ⟨j, -, t, -, flow, found, rfl, call⟩ |
      ⟨j, -, t, -, flow, -⟩
    · cases flow
    · cases flow
      exact ⟨t, found, rfl, (invariant.tasks t (List.getElem?_mem found)).1.ordered
        (Thread.stationCall_eq_some.1 call).2⟩
    · cases flow

theorem feedback_law_after_launch :
    let mps : Machines := (∅ : Machines).insert "C-CS1" ⟨.cap⟩
    let events : List Event := [.lock, .call (.mpsCsProcess "C-CS1" "MOUNT_CAP")]
    ∃ s, (init mps []).run events = some s ∧ s.FeedbackLaw := by
  intro mps events
  exact ⟨_, rfl, feedback_law mps [] _ (Reachable.init.run events rfl)⟩

end RefBox

end RcllRefBox
