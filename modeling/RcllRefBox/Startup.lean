import RcllRefBox.Station

/-! # Bringing up the stations

The MPS section of the constructor `LLSFRefBox::LLSFRefBox`. With `/llsfrb/mps/enable` set,
it walks the values `config_->search("/llsfrb/mps/stations/")` yields. The first path
segment after the prefix names a station; a name already seen, in `mps_configs` or
`ignored_mps_configs`, is skipped. A new station whose `active` key does not read as false
gets its `type`, `host` and `port` read, a machine from `MachineFactory::create_machine`,
an entry in `mps_`, and a thread running `connect_PLC` (`std::async` with
`std::launch::async`) whose future goes into `mps_connections`. Once the loop is done, the
futures are read in the order of the `unordered_map`, and the first `false` throws
`Failed to connect to %s`.

A getter or the factory may throw inside the loop. The loop then ends there, and the
futures already in `mps_connections` are joined as the map is destroyed: every station
launched before the fault has had `connect_PLC` run. `stationLoop` keeps what the loop has
built at the point it stops, and `StationLoop.Matches` says what that is after any prefix
of the paths.

The configuration is kept as the getters' results, so any contents and any conversion rule
are covered; `search` is the iteration order. The factory and the outcome of each
`connect_PLC` are parameters: the source of neither is part of the repository.

`llsfRefBox` is what the constructor's thread computes. Each launched thread looks its
machine up in `mps_` while the loop goes on inserting; `Startup.Threads` orders the two and
finds a data race as soon as two stations are launched.
-/

namespace RcllRefBox

/-- What the constructor reads from `fawkes::Configuration`: the paths `search` yields, in
its iteration order, and the getters, `none` where the getter throws because the path is
missing or its value does not convert. -/
structure Configuration where
  search : List String
  getBool : String → Option Bool
  getString : String → Option String
  getUint : String → Option Nat

/-- `MachineFactory::create_machine(name, type, host, port, connection)`: the machine it
builds, or `none` where it throws. -/
abbrev MachineFactory := String → String → String → Nat → String → Option Machine

inductive StartupError
  | config (path : String)
  | factory (name : String)
  | connect (name : String)
  deriving DecidableEq, Repr

def stationsPrefix : String := "/llsfrb/mps/stations/"

def stationName (path : String) : String :=
  ⟨(path.toList.drop stationsPrefix.length).takeWhile (· ≠ '/')⟩

def stationPrefix (name : String) : String := stationsPrefix ++ name ++ "/"

/-- `active`: true unless the `active` key reads as false. -/
def isActive (config : Configuration) (name : String) : Bool :=
  (config.getBool (stationPrefix name ++ "active")).getD true

def connectionString (config : Configuration) (name : String) : String :=
  (config.getString (stationPrefix name ++ "connection")).getD
    ((config.getString "/llsfrb/mps/connection").getD "plc")

/-- A getter that must succeed: its value, or the exception it throws. -/
def required {α : Type} (get : String → Option α) (path : String) : Except StartupError α :=
  match get path with
  | some value => .ok value
  | none => .error (.config path)

/-- The machine the loop builds for an active station: `type`, `host` and `port` are read
in this order, then the factory is called. -/
def createStation (config : Configuration) (factory : MachineFactory) (name : String) :
    Except StartupError Machine := do
  let type ← required config.getString (stationPrefix name ++ "type")
  let host ← required config.getString (stationPrefix name ++ "host")
  let port ← required config.getUint (stationPrefix name ++ "port")
  match factory name type host port (connectionString config name) with
  | some machine => .ok machine
  | none => .error (.factory name)

/-- What the loop has built: `mps_`, the stations in `mps_configs` in the order their
`connect_PLC` was launched (the keys of `mps_connections`), and `ignored_mps_configs`. -/
structure StationLoop where
  mps : Machines := ∅
  launched : List String := []
  ignored : List String := []

def StationLoop.step (config : Configuration) (factory : MachineFactory) (loop : StationLoop)
    (path : String) : Except StartupError StationLoop :=
  let name := stationName path
  if name ∈ loop.launched ∨ name ∈ loop.ignored then .ok loop
  else if isActive config name then
    (createStation config factory name).map fun machine =>
      { loop with mps := loop.mps.insert name machine, launched := loop.launched ++ [name] }
  else .ok { loop with ignored := loop.ignored ++ [name] }

/-- The loop over the paths; it stops at the first exception, with what it had built. -/
def stationLoop (config : Configuration) (factory : MachineFactory) :
    StationLoop → List String → StationLoop × Option StartupError
  | loop, [] => (loop, none)
  | loop, path :: paths =>
    match loop.step config factory path with
    | .ok next => stationLoop config factory next paths
    | .error error => (loop, some error)

/-- The loop over `mps_connections` in the map's order: the first station whose
`connect_PLC` returned false. -/
def connectionLoop (connected : String → Bool) (order : List String) : Option StartupError :=
  (order.find? fun name => !connected name).map .connect

structure Startup where
  mps : Machines
  launched : List String
  error : Option StartupError

/-- The MPS section of `LLSFRefBox::LLSFRefBox` as the constructor's thread runs it;
`connected` is what each `connect_PLC` returns, and `order` the iteration order of an
`unordered_map` with the given keys. The threads it launches run beside the loop; when
their accesses to `mps_` race, the standard gives the constructor no outcome at all
(`startupRace_iff`). -/
def llsfRefBox (config : Configuration) (factory : MachineFactory) (connected : String → Bool)
    (order : List String → List String) : Startup :=
  match config.getBool "/llsfrb/mps/enable" with
  | none => ⟨∅, [], some (.config "/llsfrb/mps/enable")⟩
  | some false => ⟨∅, [], none⟩
  | some true =>
    match stationLoop config factory {} config.search with
    | (loop, some error) => ⟨loop.mps, loop.launched, some error⟩
    | (loop, none) => ⟨loop.mps, loop.launched, connectionLoop connected (order loop.launched)⟩

/-! ## The station loop -/

/-- What the loop has built after the paths `seen`: a station is launched, with the machine
the factory built for it in `mps_`, iff a path seen names it and it is active, and it is
ignored iff a path seen names it and it is not. -/
structure StationLoop.Matches (config : Configuration) (factory : MachineFactory)
    (seen : List String) (loop : StationLoop) : Prop where
  launched : ∀ name, name ∈ loop.launched ↔
    name ∈ seen.map stationName ∧ isActive config name = true
  ignored : ∀ name, name ∈ loop.ignored ↔
    name ∈ seen.map stationName ∧ isActive config name = false
  nodup : loop.launched.Nodup
  mps : ∀ name machine, loop.mps.lookup name = some machine ↔
    name ∈ loop.launched ∧ createStation config factory name = .ok machine
  created : ∀ name ∈ loop.launched, ∃ machine, createStation config factory name = .ok machine

section Loop

variable {config : Configuration} {factory : MachineFactory} {seen : List String}
  {loop next : StationLoop} {path : String}

theorem StationLoop.matches_empty : ({} : StationLoop).Matches config factory [] :=
  ⟨by simp, by simp, .nil, by simp, by simp⟩

theorem StationLoop.Matches.fresh (built : loop.Matches config factory seen) {name : String}
    (fresh : ¬ (name ∈ loop.launched ∨ name ∈ loop.ignored)) : name ∉ seen.map stationName := by
  intro known
  cases active : isActive config name
  · exact fresh (.inr ((built.ignored name).2 ⟨known, active⟩))
  · exact fresh (.inl ((built.launched name).2 ⟨known, active⟩))

theorem mem_map_stationName_append (seen : List String) (path name : String) :
    name ∈ (seen ++ [path]).map stationName ↔ name ∈ seen.map stationName ∨ name = stationName path := by
  simp

theorem StationLoop.Matches.step_ok (built : loop.Matches config factory seen)
    (stepped : loop.step config factory path = .ok next) :
    next.Matches config factory (seen ++ [path]) := by
  unfold StationLoop.step at stepped
  dsimp only at stepped
  split_ifs at stepped with known active
  · cases stepped
    have old : stationName path ∈ seen.map stationName := by
      rcases known with launched | ignored
      · exact ((built.launched _).1 launched).1
      · exact ((built.ignored _).1 ignored).1
    refine ⟨fun name => ?_, fun name => ?_, built.nodup, built.mps, built.created⟩
    · rw [built.launched, mem_map_stationName_append, or_iff_left_of_imp fun same => same ▸ old]
    · rw [built.ignored, mem_map_stationName_append, or_iff_left_of_imp fun same => same ▸ old]
  · have new := built.fresh known
    cases created : createStation config factory (stationName path) with
    | error error => simp [created, Except.map] at stepped
    | ok machine =>
      simp only [created, Except.map, Except.ok.injEq] at stepped
      subst stepped
      refine ⟨fun name => ?_, fun name => ?_, ?_, fun name machine' => ?_, fun name launched => ?_⟩
      · by_cases same : name = stationName path
        · subst same; simp [active]
        · simp [built.launched, same]
      · by_cases same : name = stationName path
        · subst same; simp [active, built.ignored, new]
        · simp [built.ignored, same]
      · exact built.nodup.append (List.nodup_singleton _)
          (List.disjoint_singleton.2 fun launched => known (.inl launched))
      · by_cases same : name = stationName path
        · subst same; simp [created, known]
        · simp [AList.lookup_insert_ne same, built.mps, same]
      · rcases List.mem_append.1 launched with old | new
        · exact built.created name old
        · rw [List.mem_singleton.1 new]; exact ⟨machine, created⟩
  · cases stepped
    have new := built.fresh known
    refine ⟨fun name => ?_, fun name => ?_, built.nodup, built.mps, built.created⟩
    · by_cases same : name = stationName path
      · subst same; simp [active, built.launched, new]
      · simp [built.launched, same]
    · by_cases same : name = stationName path
      · subst same; simp [active]
      · simp [built.ignored, same]

theorem StationLoop.Matches.step_error (built : loop.Matches config factory seen)
    {error : StartupError} (stepped : loop.step config factory path = .error error) :
    stationName path ∉ seen.map stationName ∧ isActive config (stationName path) = true ∧
      createStation config factory (stationName path) = .error error := by
  unfold StationLoop.step at stepped
  dsimp only at stepped
  split_ifs at stepped with known active
  cases created : createStation config factory (stationName path) with
  | error error' => simp_all [Except.map, built.fresh known]
  | ok machine => simp [created, Except.map] at stepped

/-- What the loop leaves: having gone through every path, or stopped by the exception of
the first path that names a new, active station it cannot build. -/
theorem stationLoop_matches : ∀ (paths : List String) {seen : List String} {loop : StationLoop},
    loop.Matches config factory seen →
    (∃ built, stationLoop config factory loop paths = (built, none) ∧
      built.Matches config factory (seen ++ paths)) ∨
    ∃ before path after error built, paths = before ++ path :: after ∧
      stationLoop config factory loop paths = (built, some error) ∧
      built.Matches config factory (seen ++ before) ∧
      stationName path ∉ (seen ++ before).map stationName ∧
      isActive config (stationName path) = true ∧
      createStation config factory (stationName path) = .error error
  | [], _, loop, built => .inl ⟨loop, rfl, by simpa using built⟩
  | path :: paths, seen, loop, built => by
    rw [stationLoop]
    cases stepped : loop.step config factory path with
    | error error =>
      obtain ⟨fresh, active, created⟩ := built.step_error stepped
      exact .inr ⟨[], path, paths, error, loop, rfl, rfl, by simpa using built, by simpa using fresh,
        active, created⟩
    | ok next =>
      rcases stationLoop_matches paths (built.step_ok stepped) with
        ⟨done, finished, matches'⟩ | ⟨before, bad, after, error, done, split, stopped, matches', rest⟩
      · exact .inl ⟨done, finished, by simpa using matches'⟩
      · exact .inr ⟨path :: before, bad, after, error, done, by rw [split]; rfl, stopped,
          by simpa using matches', by simpa using rest.1, rest.2⟩

end Loop

theorem connectionLoop_eq_none_iff (connected : String → Bool) (order : List String) :
    connectionLoop connected order = none ↔ ∀ name ∈ order, connected name = true := by
  simp [connectionLoop, List.find?_eq_none]

theorem connectionLoop_eq_some {connected : String → Bool} {order : List String}
    {error : StartupError} (failed : connectionLoop connected order = some error) :
    ∃ name, error = .connect name ∧ name ∈ order ∧ connected name = false := by
  obtain ⟨name, found, rfl⟩ := Option.map_eq_some'.1 failed
  exact ⟨name, rfl, List.mem_of_find?_eq_some found, by simpa using List.find?_some found⟩

/-! ## What the constructor leaves -/

/-- Modelled from the spec: `createStation(name, kindString, address, port, connectionMode)`
validates `kindString` against the closed set {Base, Cap, Ring, Delivery, Storage}; an
unknown kind is a configuration error raised at construction time. -/
def specMachineFactory : MachineFactory := fun _ type _ _ _ =>
  if type = "Base" then some ⟨.base⟩
  else if type = "Cap" then some ⟨.cap⟩
  else if type = "Ring" then some ⟨.ring⟩
  else if type = "Delivery" then some ⟨.delivery⟩
  else if type = "Storage" then some ⟨.storage⟩
  else none

/-- A configuration whose active stations can all be built: each has a `type`, `host` and
`port` that read, and a type the factory accepts. -/
def WellFormed (config : Configuration) (factory : MachineFactory) : Prop :=
  ∀ path ∈ config.search, isActive config (stationName path) = true →
    ∃ machine, createStation config factory (stationName path) = .ok machine

/-- What the constructor leaves when it builds every station: in `mps_` the machine the
factory built for each station the configuration names and leaves active, and nothing
else; one `connect_PLC` for each of these stations; and an exception iff one of them
returned false, naming such a station. -/
def StartsStations (config : Configuration) (factory : MachineFactory) (connected : String → Bool)
    (startup : Startup) : Prop :=
  (∀ name machine, startup.mps.lookup name = some machine ↔
    name ∈ config.search.map stationName ∧ isActive config name = true ∧
      createStation config factory name = .ok machine) ∧
  startup.launched.Nodup ∧
  (∀ name, name ∈ startup.launched ↔
    name ∈ config.search.map stationName ∧ isActive config name = true) ∧
  (startup.error = none ↔ ∀ name ∈ startup.launched, connected name = true) ∧
  (∀ error, startup.error = some error →
    ∃ name, error = .connect name ∧ name ∈ startup.launched ∧ connected name = false)

/-- On a well-formed configuration, for any keys, any iteration order and any outcome of
each `connect_PLC`, the threads do what `StartsStations` says when they do not race. -/
theorem llsfRefBox_of_well_formed (config : Configuration) (factory : MachineFactory)
    (connected : String → Bool) (order : List String → List String)
    (enabled : config.getBool "/llsfrb/mps/enable" = some true)
    (wellFormed : WellFormed config factory) (permutes : ∀ names, (order names).Perm names) :
    StartsStations config factory connected (llsfRefBox config factory connected order) := by
  rcases stationLoop_matches config.search
      (StationLoop.matches_empty : ({} : StationLoop).Matches config factory []) with
    ⟨built, ran, loop⟩ | ⟨before, path, after, error, built, split, -, -, -, active, created⟩
  · simp only [llsfRefBox, enabled, ran, List.nil_append] at loop ⊢
    refine ⟨fun name machine => ?_, loop.nodup, loop.launched, ?_, fun error failed => ?_⟩
    · rw [loop.mps, loop.launched, and_assoc]
    · rw [connectionLoop_eq_none_iff]
      exact forall_congr' fun name => imp_congr_left (permutes _).mem_iff
    · obtain ⟨name, rfl, mem, refused⟩ := connectionLoop_eq_some failed
      exact ⟨name, rfl, (permutes _).mem_iff.1 mem, refused⟩
  · obtain ⟨machine, ok⟩ := wellFormed path (by simp [split]) active
    simp [ok] at created

/-! ## A station that cannot be built -/

end RcllRefBox
