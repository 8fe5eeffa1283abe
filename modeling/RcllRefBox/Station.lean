import Mathlib.Data.List.AList

/-! # Stations

The data model of the station layer (`mps_comm`) as the referee box uses it: the five kinds
of station that `MachineFactory::create_machine` builds, the enumerations that the CLIPS
commands receive as symbols, the operations of `Machine` and of its kind-specific
subclasses, and the table `mps_` from station names to machines.

A machine is kept by its kind only. Its address, port and connection mode are passed to the
factory at construction and read by no modelled function afterwards.
-/

namespace RcllRefBox

/-- The kind of a station, fixed by its configured type when the factory builds it. -/
inductive StationKind
  | base
  | cap
  | ring
  | delivery
  | storage
  deriving DecidableEq, Repr

inductive ConveyorDirection
  | forward
  | backward
  deriving DecidableEq, Repr

inductive MPSSensor
  | input
  | middle
  | output
  deriving DecidableEq, Repr

inductive BaseColor
  | baseRed
  | baseSilver
  | baseBlack
  deriving DecidableEq, Repr

inductive LightColor
  | red
  | yellow
  | green
  deriving DecidableEq, Repr

inductive LightState
  | on
  | blink
  | off
  deriving DecidableEq, Repr

/-- A machine built by the factory. Its kind decides which subclass (`BaseStation`,
`CapStation`, `RingStation`, `DeliveryStation`, `StorageStation`) the object is. -/
structure Machine where
  kind : StationKind
  deriving DecidableEq, Repr

/-- An operation called on a station: the shared `Machine` interface (`reset`, lights, belt)
and the kind-specific commands. -/
inductive StationOp
  | reset
  | resetLight
  | setLight (color : LightColor) (state : LightState) (time : Int)
  | conveyorMove (direction : ConveyorDirection) (goal : MPSSensor)
  | bandOnUntilMid
  | bandOnUntilOut
  | getBase (color : BaseColor)
  | deliverProduct (slide : Int)
  | mountRing (feeder : Nat)
  | retrieveCap
  | mountCap
  deriving DecidableEq, Repr

def StationOp.kind? : StationOp → Option StationKind
  | .getBase _ => some .base
  | .deliverProduct _ => some .delivery
  | .mountRing _ => some .ring
  | .retrieveCap | .mountCap => some .cap
  | _ => none

/-- `mps_`: station name ↦ machine. A `std::map`, so a name has at most one machine. -/
abbrev Machines := AList (fun _ : String => Machine)

/-- The conversion of an `int` argument to the `unsigned int` parameter of `mount_ring`. -/
def toUnsigned (value : Int) : Nat := (value % 4294967296).toNat

/-! ## Symbols of the CLIPS commands

Each command compares its symbol arguments against a fixed list of spellings. -/

def symbolValue {α : Type} (table : List (String × α)) (symbol : String) : Option α :=
  (table.find? (·.1 == symbol)).map (·.2)

def baseColors : List (String × BaseColor) :=
  [("BASE_RED", .baseRed), ("BASE_SILVER", .baseSilver), ("BASE_BLACK", .baseBlack)]

def conveyorPositions : List (String × MPSSensor) :=
  [("INPUT", .input), ("MIDDLE", .middle), ("OUTPUT", .output)]

def conveyorDirections : List (String × ConveyorDirection) :=
  [("FORWARD", .forward), ("BACKWARD", .backward)]

def lightColors : List (String × LightColor) :=
  [("RED", .red), ("YELLOW", .yellow), ("GREEN", .green)]

def lightStates : List (String × LightState) :=
  [("ON", .on), ("BLINK", .blink), ("OFF", .off)]

end RcllRefBox
