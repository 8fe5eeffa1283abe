import RcllRefBox.Flow

/-! # Status feedback

Unless simulation is enabled, `setup_clips` arms status callbacks on every station of
`mps_`: one on each of `STATUS_READY_IN`, `STATUS_BUSY_IN` and `BARCODE_IN`, and one on
`SLIDECOUNT_IN` for the stations the loop takes for ring stations. The source marks that
test "TODO proper MPS type check": it compares the station's name against four fixed names
(`ringStationNames`) and never looks at the machine's kind.

An invocation of a callback runs the body of its lambda (`StatusCallback.body`): lock
`clips_mutex_` with a `MutexLocker`, assert one `mps-status-feedback` fact for the station
the callback was armed on, and unlock when the locker is destroyed. The four lambdas differ
only in the signal and the field of the notification they print, so they are one
definition with the register as parameter.
-/

namespace RcllRefBox

inductive MPSRegister
  | statusReadyIn
  | statusBusyIn
  | barcodeIn
  | slidecountIn
  deriving DecidableEq, Repr

structure ReturnValue where
  boolS : Bool
  uint16S : UInt16
  uint32S : UInt32
  deriving DecidableEq, Repr

structure StatusCallback where
  machine : String
  register : MPSRegister
  deriving DecidableEq, Repr

def MPSRegister.signal : MPSRegister → StatusSignal
  | .statusReadyIn => .ready
  | .statusBusyIn => .busy
  | .barcodeIn => .barcode
  | .slidecountIn => .slideCounter

def MPSRegister.value : MPSRegister → ReturnValue → FactValue
  | .statusReadyIn, ret | .statusBusyIn, ret => .symbol (if ret.boolS then "TRUE" else "FALSE")
  | .barcodeIn, ret => .unsigned ret.uint32S.toNat
  | .slidecountIn, ret => .unsigned ret.uint16S.toNat

def StatusCallback.fact (callback : StatusCallback) (ret : ReturnValue) : Fact :=
  .mpsStatusFeedback callback.machine callback.register.signal (callback.register.value ret)

/-- The body of a callback's lambda; the `MutexLocker` unlocks when the lambda returns. -/
def StatusCallback.body (callback : StatusCallback) (ret : ReturnValue) : List Instr :=
  [.relock, .assertFact (callback.fact ret)]

/-- The names that `setup_clips` takes for ring stations. -/
def ringStationNames : List String := ["C-RS1", "C-RS2", "M-RS1", "M-RS2"]

def stationCallbacks (name : String) : List StatusCallback :=
  [⟨name, .statusReadyIn⟩, ⟨name, .statusBusyIn⟩, ⟨name, .barcodeIn⟩] ++
    if name ∈ ringStationNames then [⟨name, .slidecountIn⟩] else []

/-- The callbacks `setup_clips` arms on `mps_`; none when `/llsfrb/simulation/enabled`. -/
def setupClips (simulation : Bool) (mps : Machines) : List StatusCallback :=
  if simulation then [] else mps.entries.flatMap fun entry => stationCallbacks entry.1

/-! ## What `setup_clips` arms -/

theorem stationCallbacks_machine {name : String} {callback : StatusCallback}
    (armed : callback ∈ stationCallbacks name) : callback.machine = name := by
  unfold stationCallbacks at armed
  split at armed <;> simp at armed <;> rcases armed with rfl | rfl | rfl | rfl <;> rfl

theorem stationCallbacks_count (name : String) (register : MPSRegister) :
    (stationCallbacks name).count ⟨name, register⟩ =
      if register = .slidecountIn ∧ name ∉ ringStationNames then 0 else 1 := by
  unfold stationCallbacks
  cases register <;> split <;> simp_all [List.count_cons]

theorem count_flatMap_stationCallbacks (entries : List (Σ _ : String, Machine))
    (nodup : entries.NodupKeys) (name : String) (register : MPSRegister) :
    (entries.flatMap fun entry => stationCallbacks entry.1).count ⟨name, register⟩ =
      if name ∈ entries.keys then (stationCallbacks name).count ⟨name, register⟩ else 0 := by
  induction entries with
  | nil => simp
  | cons entry entries inductionHypothesis =>
    rw [List.nodupKeys_cons] at nodup
    simp only [List.flatMap_cons, List.count_append, inductionHypothesis nodup.2, List.keys_cons,
      List.mem_cons]
    by_cases same : name = entry.1
    · subst same; simp [nodup.1]
    · have other : (stationCallbacks entry.1).count ⟨name, register⟩ = 0 :=
        List.count_eq_zero.2 fun armed => same (stationCallbacks_machine armed)
      simp [same, other]

/-- Outside simulation, `setup_clips` arms on every station of `mps_` exactly one callback
on each of `STATUS_READY_IN`, `STATUS_BUSY_IN` and `BARCODE_IN`, one on `SLIDECOUNT_IN` iff
the station's name is one of `ringStationNames`, and none on a name outside `mps_`. -/
theorem setupClips_count (mps : Machines) (name : String) (register : MPSRegister) :
    (setupClips false mps).count ⟨name, register⟩ =
      if name ∈ mps then (if register = .slidecountIn ∧ name ∉ ringStationNames then 0 else 1)
      else 0 := by
  simp only [setupClips, Bool.false_eq_true, if_false,
    count_flatMap_stationCallbacks mps.entries mps.nodupKeys, stationCallbacks_count]
  simp [AList.mem_keys, AList.keys]

/-- The slide-counter callback follows the name, not the kind: a ring station named `R1`
gets none, and a cap station named `C-RS1` gets one. -/
theorem slide_counter_follows_name :
    let mps : Machines := ((∅ : Machines).insert "R1" ⟨.ring⟩).insert "C-RS1" ⟨.cap⟩
    (mps.lookup "R1").map Machine.kind = some .ring ∧
      (setupClips false mps).count ⟨"R1", .slidecountIn⟩ = 0 ∧
      (mps.lookup "C-RS1").map Machine.kind = some .cap ∧
      (setupClips false mps).count ⟨"C-RS1", .slidecountIn⟩ = 1 := by
  decide

end RcllRefBox
