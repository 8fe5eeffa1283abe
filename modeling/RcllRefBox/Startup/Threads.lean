import RcllRefBox.Startup

/-! # The threads of the startup

For each active station the constructor's loop inserts the machine with
`mps_[cfg_name] = std::move(mps)` and starts a thread with
`std::async(std::launch::async, [this, cfg_name] { return mps_[cfg_name]->connect_PLC(); })`,
then goes on with the next path. Each such thread looks its machine up with
`mps_[cfg_name]`, a call of `std::map::operator[]`, while the loop may still insert. For the
associative containers `operator[]` is not among the members that the standard lets threads
call at once without a data race ([container.requirements.dataraces]): any two of these
calls conflict, and two on different threads that happens-before orders neither way are a
data race, which is undefined behaviour.

`startupProgram` lists what each thread does to `mps_` and how the threads synchronise: the
constructor inserts and spawns station by station, then joins the threads (`fut.wait()`, or
the futures' destructors when the loop throws); a launched thread makes its lookup.
`HappensBefore` is program order, the `std::async` call before the thread's first action,
and the thread's end before the join. Facts about it are proved with one closure lemma
(`HappensBefore.closed`).

* `insert_unordered_lookup`: the insert of the second station and the first station's
  lookup are ordered neither way.
* `startupRace_iff`: the accesses race iff two or more stations are launched.
* `two_stations_race_at_startup`: two well-formed stations race.
* `startup_of_well_formed` and `faulty_station_aborts_startup`: what the constructor does,
  race included, on a well-formed configuration and on one with a faulty station.
-/

namespace RcllRefBox

inductive StartupThread
  | main
  | connect (name : String)
  deriving DecidableEq, Repr

/-- What a thread does to `mps_`, or to order the threads: the constructor's insert, the
start of a station's thread, that thread's lookup, and the join of the thread. -/
inductive StartupAction
  | insert (name : String)
  | spawn (name : String)
  | lookup (name : String)
  | join (name : String)
  deriving DecidableEq, Repr

/-- Whether the action calls `std::map::operator[]` on `mps_`. -/
def StartupAction.accessesMps : StartupAction → Bool
  | .insert _ | .lookup _ => true
  | .spawn _ | .join _ => false

/-- The constructor's thread: for each station launched, in loop order, its insert and the
start of its thread; then the joins, in the order `joins`. -/
def mainProgram : List String → List String → List StartupAction
  | [], joins => joins.map .join
  | name :: launched, joins => .insert name :: .spawn name :: mainProgram launched joins

def startupProgram (launched joins : List String) : StartupThread → List StartupAction
  | .main => mainProgram launched joins
  | .connect name => if name ∈ launched then [.lookup name] else []

abbrev StartupEvent := StartupThread × Nat

/-- Happens-before: program order, the start of a thread before its first action, and the
last action of a thread before its join. -/
inductive HappensBefore (program : StartupThread → List StartupAction) :
    StartupEvent → StartupEvent → Prop
  | sequenced {thread : StartupThread} {i j : Nat} : i < j → j < (program thread).length →
      HappensBefore program (thread, i) (thread, j)
  | spawned {i : Nat} {name : String} : (program .main)[i]? = some (.spawn name) →
      program (.connect name) ≠ [] → HappensBefore program (.main, i) (.connect name, 0)
  | joined {i : Nat} {name : String} : (program .main)[i]? = some (.join name) →
      program (.connect name) ≠ [] →
      HappensBefore program (.connect name, (program (.connect name)).length - 1) (.main, i)
  | trans {a b c : StartupEvent} : HappensBefore program a b → HappensBefore program b c →
      HappensBefore program a c

def Accesses (program : StartupThread → List StartupAction) (e : StartupEvent) : Prop :=
  ∃ action, (program e.1)[e.2]? = some action ∧ action.accessesMps = true

/-- Two accesses to `mps_` on different threads that happens-before orders neither way. -/
def DataRace (program : StartupThread → List StartupAction) : Prop :=
  ∃ a b : StartupEvent, a.1 ≠ b.1 ∧ Accesses program a ∧ Accesses program b ∧
    ¬ HappensBefore program a b ∧ ¬ HappensBefore program b a

/-- A set of events closed under each kind of edge contains everything after its members. -/
theorem HappensBefore.closed {program : StartupThread → List StartupAction}
    (S : StartupThread → Nat → Prop)
    (sequenced : ∀ thread i j, i < j → S thread i → S thread j)
    (spawned : ∀ i name, (program .main)[i]? = some (.spawn name) → S .main i → S (.connect name) 0)
    (joined : ∀ i name, (program .main)[i]? = some (.join name) →
      S (.connect name) ((program (.connect name)).length - 1) → S .main i)
    {a b : StartupEvent} (before : HappensBefore program a b) : S a.1 a.2 → S b.1 b.2 := by
  induction before with
  | sequenced lt _ => exact sequenced _ _ _ lt
  | spawned found _ => exact spawned _ _ found
  | joined found _ => exact joined _ _ found
  | trans _ _ first second => exact second ∘ first

/-! ## The constructor's thread -/

theorem mainProgram_spawn {joins : List String} {name : String} :
    ∀ {launched : List String} {i : Nat}, (mainProgram launched joins)[i]? = some (.spawn name) →
      ∃ k, i = 2 * k + 1 ∧ launched[k]? = some name
  | [], i, found => by simp [mainProgram] at found
  | first :: launched, 0, found => by simp [mainProgram] at found
  | first :: launched, 1, found => by
    simp only [mainProgram, List.getElem?_cons_succ, List.getElem?_cons_zero, Option.some.injEq,
      StartupAction.spawn.injEq] at found
    exact ⟨0, rfl, by simp [found]⟩
  | first :: launched, i + 2, found => by
    obtain ⟨k, rfl, named⟩ := mainProgram_spawn (by simpa [mainProgram] using found)
    exact ⟨k + 1, by omega, by simpa using named⟩

theorem mainProgram_join {joins : List String} {name : String} :
    ∀ {launched : List String} {i : Nat}, (mainProgram launched joins)[i]? = some (.join name) →
      2 * launched.length ≤ i
  | [], _, _ => by simp
  | first :: launched, 0, found => by simp [mainProgram] at found
  | first :: launched, 1, found => by simp [mainProgram] at found
  | first :: launched, i + 2, found => by
    have later := mainProgram_join (by simpa [mainProgram] using found)
    simp only [List.length_cons]
    omega

/-! ## Two stations -/

section TwoStations

variable {first second : String} {rest joins : List String}

/-- The constructor's insert of the second station and the first station's lookup: neither
happens before the other. -/
theorem insert_unordered_lookup (nodup : (first :: second :: rest).Nodup) :
    ¬ HappensBefore (startupProgram (first :: second :: rest) joins) (.main, 2) (.connect first, 0) ∧
      ¬ HappensBefore (startupProgram (first :: second :: rest) joins) (.connect first, 0) (.main, 2) := by
  have fresh : first ∉ second :: rest := (List.nodup_cons.1 nodup).1
  constructor
  · -- after the insert: the constructor from position 2 on, and the threads of later stations
    intro before
    refine fresh ?_
    have after := before.closed
      (fun thread i => (thread = .main ∧ 2 ≤ i) ∨ ∃ name ∈ second :: rest, thread = .connect name)
      ?_ ?_ ?_ (.inl ⟨rfl, le_refl 2⟩)
    · simpa using after
    · rintro thread i j lt (⟨rfl, far⟩ | ⟨name, mem, rfl⟩)
      · exact .inl ⟨rfl, by omega⟩
      · exact .inr ⟨name, mem, rfl⟩
    · rintro i name found (⟨-, far⟩ | ⟨_, _, ⟨⟩⟩)
      obtain ⟨k, rfl, named⟩ := mainProgram_spawn found
      obtain ⟨k, rfl⟩ : ∃ m, k = m + 1 := ⟨k - 1, by omega⟩
      exact .inr ⟨name, List.getElem?_mem (by simpa using named), rfl⟩
    · intro i name found _
      have late := mainProgram_join found
      simp only [List.length_cons] at late
      exact .inl ⟨rfl, by omega⟩
  · -- after the lookup: the first station's thread, and the constructor once it joins
    intro before
    have after := before.closed
      (fun thread i => thread = .connect first ∨ (thread = .main ∧ 2 * (rest.length + 2) ≤ i))
      ?_ ?_ ?_ (.inl rfl)
    · simp only [reduceCtorEq, false_or, true_and] at after
      omega
    · rintro thread i j lt (same | ⟨rfl, far⟩)
      · exact .inl same
      · exact .inr ⟨rfl, by omega⟩
    · rintro i name found (wrong | ⟨-, far⟩)
      · cases wrong
      obtain ⟨k, rfl, named⟩ := mainProgram_spawn found
      have bound := (List.getElem?_eq_some_iff.1 named).1
      simp only [List.length_cons] at bound
      omega
    · intro i name found _
      have late := mainProgram_join found
      simp only [List.length_cons] at late
      exact .inr ⟨rfl, by omega⟩

end TwoStations

/-! ## At most one station -/

theorem accesses_of_nil {joins : List String} {e : StartupEvent} :
    ¬ Accesses (startupProgram [] joins) e := by
  rintro ⟨action, found, touches⟩
  rcases e with ⟨_ | name, i⟩
  · simp only [startupProgram, mainProgram, List.getElem?_map, Option.map_eq_some'] at found
    obtain ⟨name, -, rfl⟩ := found
    cases touches
  · simp [startupProgram] at found

theorem accesses_of_single {name : String} {joins : List String} {e : StartupEvent}
    (access : Accesses (startupProgram [name] joins) e) : e = (.main, 0) ∨ e = (.connect name, 0) := by
  obtain ⟨action, found, touches⟩ := access
  rcases e with ⟨_ | other, i⟩
  · rcases i with _ | _ | i
    · exact .inl rfl
    · simp only [startupProgram, mainProgram, List.getElem?_cons_succ, List.getElem?_cons_zero,
        Option.some.injEq] at found
      subst found
      cases touches
    · simp only [startupProgram, mainProgram, List.getElem?_cons_succ, List.getElem?_map,
        Option.map_eq_some'] at found
      obtain ⟨_, -, rfl⟩ := found
      cases touches
  · simp only [startupProgram, List.mem_singleton] at found
    split_ifs at found with same
    · have first := (List.getElem?_eq_some_iff.1 found).1
      simp only [List.length_singleton, Nat.lt_one_iff] at first
      exact .inr (by rw [same, first])
    · simp at found

theorem insert_before_lookup (name : String) (joins : List String) :
    HappensBefore (startupProgram [name] joins) (.main, 0) (.connect name, 0) :=
  .trans (.sequenced Nat.zero_lt_one (by simp [startupProgram, mainProgram]))
    (.spawned (by simp [startupProgram, mainProgram]) (by simp [startupProgram]))

/-! ## The race -/

/-- The accesses of the startup's threads to `mps_` race exactly when two or more stations are
launched, whatever the order of the joins. -/
theorem startupRace_iff (joins : List String) :
    ∀ {launched : List String}, launched.Nodup →
      (DataRace (startupProgram launched joins) ↔ 2 ≤ launched.length)
  | [], _ => iff_of_false (fun ⟨_, _, _, access, _⟩ => accesses_of_nil access) (by simp)
  | [name], _ => by
    refine iff_of_false ?_ (by simp)
    rintro ⟨a, b, other, accessA, accessB, notAB, notBA⟩
    rcases accesses_of_single accessA with rfl | rfl <;>
      rcases accesses_of_single accessB with rfl | rfl
    · exact other rfl
    · exact notAB (insert_before_lookup name joins)
    · exact notBA (insert_before_lookup name joins)
    · exact other rfl
  | first :: second :: rest, nodup => by
    obtain ⟨notAB, notBA⟩ := @insert_unordered_lookup first second rest joins nodup
    refine iff_of_true ⟨(.main, 2), (.connect first, 0), by simp, ?_, ?_, notAB, notBA⟩ (by simp)
    · exact ⟨.insert second, by simp [startupProgram, mainProgram], rfl⟩
    · exact ⟨.lookup first, by simp [startupProgram], rfl⟩

def RacesIffTwoLaunched (startup : Startup) : Prop :=
  ∀ joins, DataRace (startupProgram startup.launched joins) ↔ 2 ≤ startup.launched.length

/-! ## What the constructor does, race included -/

/-- A configuration that enables the stations and gives each its `type`; every other string
key reads `localhost`, every port 4840. -/
def stationConfig (types : List (String × String)) : Configuration where
  search := types.map fun station => stationPrefix station.1 ++ "type"
  getBool path := if path = "/llsfrb/mps/enable" then some true else none
  getString path := some (((types.find? fun station => stationPrefix station.1 ++ "type" = path).map
    Prod.snd).getD "localhost")
  getUint _ := some 4840

/-- A base and a cap station, both well-formed: the constructor launches both, and the lookup of
the first races with the insert of the second. -/
theorem two_stations_race_at_startup (joins : List String) :
    (llsfRefBox (stationConfig [("C-BS", "Base"), ("C-CS1", "Cap")]) specMachineFactory
        (fun _ => true) id).launched = ["C-BS", "C-CS1"] ∧
      DataRace (startupProgram ["C-BS", "C-CS1"] joins) :=
  ⟨rfl, (startupRace_iff joins (by decide)).2 (by decide)⟩

/-- On a well-formed configuration the constructor launches `connect_PLC` once on each active
station named; the threads race iff two or more are launched, and otherwise the constructor
does what `StartsStations` says. -/
theorem startup_of_well_formed (config : Configuration) (factory : MachineFactory)
    (connected : String → Bool) (order : List String → List String)
    (enabled : config.getBool "/llsfrb/mps/enable" = some true)
    (wellFormed : WellFormed config factory) (permutes : ∀ names, (order names).Perm names) :
    (llsfRefBox config factory connected order).launched.Nodup ∧
      (∀ name, name ∈ (llsfRefBox config factory connected order).launched ↔
        name ∈ config.search.map stationName ∧ isActive config name = true) ∧
      RacesIffTwoLaunched (llsfRefBox config factory connected order) ∧
      ((llsfRefBox config factory connected order).launched.length ≤ 1 →
        StartsStations config factory connected (llsfRefBox config factory connected order)) := by
  have starts := llsfRefBox_of_well_formed config factory connected order enabled wellFormed permutes
  exact ⟨starts.2.1, starts.2.2.1, fun joins => startupRace_iff joins starts.2.1, fun _ => starts⟩

theorem one_station_starts :
    (stationConfig [("C-BS", "Base")]).getBool "/llsfrb/mps/enable" = some true ∧
      WellFormed (stationConfig [("C-BS", "Base")]) specMachineFactory ∧
      (∀ names : List String, (id names).Perm names) ∧
      StartsStations (stationConfig [("C-BS", "Base")]) specMachineFactory (fun _ => true)
        (llsfRefBox (stationConfig [("C-BS", "Base")]) specMachineFactory (fun _ => true) id) := by
  have wellFormed : WellFormed (stationConfig [("C-BS", "Base")]) specMachineFactory := by
    intro path mem _
    obtain rfl : path = "/llsfrb/mps/stations/C-BS/type" := by simpa [stationConfig] using mem
    exact ⟨_, rfl⟩
  exact ⟨rfl, wellFormed, fun _ => .refl _,
    (startup_of_well_formed _ specMachineFactory (fun _ => true) id rfl wellFormed
      fun _ => .refl _).2.2.2 (by decide)⟩

end RcllRefBox
