import RcllRefBox.Station

/-! # Flows and facts

The code that runs outside the CLIPS thread is straight-line: the task lambdas launched by
`clips_mps_reset`, `clips_mps_deliver` and `clips_mps_cs_process`, and the status callbacks
armed in `setup_clips`. Each is a list of instructions: a call on its station, a lock or
unlock of `clips_mutex_` through a `fawkes::MutexLocker`, or an assertion into the CLIPS fact
base. The facts are kept as data, one constructor per format string of the source.

`wellLocked` is the lock discipline of such code, as an executable check: facts are asserted
only with the lock held, station calls are made only without it, and the locker is never
locked twice.
-/

namespace RcllRefBox

inductive StatusSignal
  | ready
  | busy
  | barcode
  | slideCounter
  deriving DecidableEq, Repr

inductive FactValue
  | symbol (name : String)
  | unsigned (value : Nat)
  deriving DecidableEq, Repr

inductive FeedbackPhase
  | available
  | done
  deriving DecidableEq, Repr

inductive Fact
  | mpsFeedback (machine operation : String) (phase : FeedbackPhase)
  | mpsDeliverSuccess (machine : String)
  | mpsStatusFeedback (machine : String) (signal : StatusSignal) (value : FactValue)
  | time
  | init
  | finalize
  deriving DecidableEq, Repr

def Fact.ofClipsThread : Fact → Bool
  | .time | .init | .finalize => true
  | _ => false

inductive Instr
  | call (op : StationOp)
  | relock
  | unlock
  | assertFact (fact : Fact)
  deriving DecidableEq, Repr

/-! ## Lock discipline -/

/-- Whether code run from the given lock state asserts facts only while holding
`clips_mutex_`, calls its station only without it, and never locks or unlocks twice. -/
def wellLocked : Bool → List Instr → Bool
  | _, [] => true
  | held, .call _ :: rest => !held && wellLocked held rest
  | held, .relock :: rest => !held && wellLocked true rest
  | held, .unlock :: rest => held && wellLocked false rest
  | held, .assertFact _ :: rest => held && wellLocked held rest

theorem wellLocked_call {held : Bool} {op : StationOp} {rest : List Instr}
    (well : wellLocked held (.call op :: rest) = true) : held = false ∧ wellLocked held rest := by
  simpa [wellLocked] using well

theorem wellLocked_relock {held : Bool} {rest : List Instr}
    (well : wellLocked held (.relock :: rest) = true) : held = false ∧ wellLocked true rest := by
  simpa [wellLocked] using well

theorem wellLocked_unlock {held : Bool} {rest : List Instr}
    (well : wellLocked held (.unlock :: rest) = true) : held = true ∧ wellLocked false rest := by
  simpa [wellLocked] using well

theorem wellLocked_assertFact {held : Bool} {fact : Fact} {rest : List Instr}
    (well : wellLocked held (.assertFact fact :: rest) = true) :
    held = true ∧ wellLocked held rest := by
  simpa [wellLocked] using well

end RcllRefBox
