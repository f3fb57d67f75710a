import Movid.Blob.Calibration
import Movid.Preset.Reload

/-!
# Reloading a calibration

The lines of a Calibration module come in the order of the property names. Each of `cols` and `rows` puts a new grid into
`screenPoints`, and `surfacePoints` is compared with the screen points of that moment.
-/

namespace Movid.Preset

variable {P : Platform}

namespace Value

/-- `asPointList`. -/
def asPointList : Value P → List (P.Double × P.Double)
  | pointList points => points
  | string s => convertToPointList P s
  | _ => []

/-- The points with the digits that are printed. -/
def asPrinted (points : List (P.Double × P.Double)) : List (P.Double × P.Double) :=
  points.map fun point => (P.atof (P.showG point.1), P.atof (P.showG point.2))

theorem asPrinted_string (points : List (P.Double × P.Double)) : (pointList (asPrinted points)).asString = (pointList points).asString := by
  have stable : (pointList points).Stable := stable_of_not_double (by rintro ⟨⟩)
  unfold Stable at stable
  rw [type, asString, ofString, convertToPointList_asString] at stable
  exact stable

end Value

/-- A `moCalibrationModule` with the two flags that the callback of `surfacePoints` raises. -/
structure Calibrator (P : Platform) where
  base : Module (Config P)
  calibrated : Bool
  retriangulate : Bool

namespace Calibrator

def points (config : Config P) (name : String) : List (P.Double × P.Double) := (config.property name.toList).value.asPointList

/-- `mocalibrationmodule_surfacepoints_changed`. -/
def surfacepointsChanged (c : Calibrator P) : Calibrator P :=
  if (points c.base.state "screenPoints").length = (points c.base.state "surfacePoints").length then
    { c with retriangulate := true, calibrated := true }
  else c

/-- The points and flags, as part of a state of the module that keeps what else there is of it. -/
def view (rest : Calibration.State (P.Double × P.Double)) (c : Calibrator P) : Calibration.State (P.Double × P.Double) :=
  { rest with
    screenPoints := points c.base.state "screenPoints"
    surfacePoints := points c.base.state "surfacePoints"
    calibrated := c.calibrated
    retriangulate := c.retriangulate }

theorem view_surfacepointsChanged (rest : Calibration.State (P.Double × P.Double)) (c : Calibrator P) :
    c.surfacepointsChanged.view rest = (c.view rest).surfacepointsChanged := by
  have lists : (c.view rest).screenPoints.length = (c.view rest).surfacePoints.length ↔
      (points c.base.state "screenPoints").length = (points c.base.state "surfacePoints").length := Iff.rfl
  unfold surfacepointsChanged Calibration.State.surfacepointsChanged
  by_cases same : (points c.base.state "screenPoints").length = (points c.base.state "surfacePoints").length
  · rw [if_pos same, if_pos (lists.mpr same)]
    rfl
  · rw [if_neg same, if_neg (mt lists.mp same)]

/-- `property(name).set(value)` with all callbacks: the one of `rows` and `cols` only changes a property. -/
def set (c : Calibrator P) (name value : Str) : Calibrator P :=
  let next := { c with base := setProperty c.base name value }
  if name = "surfacePoints".toList ∧ (c.base.state.property name).readOnly = false then next.surfacepointsChanged else next

/-- The `set` line of a property, where it has one. -/
def apply (c : Calibrator P) (entry : Str × Property P) : Calibrator P :=
  if entry.2.isText then c else c.set entry.1 (readBack entry.2.asString)

/-- A module that `create` has just made. -/
def fresh (counters : Counters) (id : Str) : Calibrator P where
  base := Reader.newModule .calibration (ModuleType.calibration.construct P counters).1 id
  calibrated := false
  retriangulate := false

/-- The lines of `serializeCreation` in their order. -/
def replay (counters : Counters) (c : Config P) : Calibrator P := c.props.entries.foldl apply (fresh counters c.id)

variable {c : Calibrator P} {entries : List (Str × Property P)} {entry : Str × Property P}

theorem apply_base (c : Calibrator P) (entry : Str × Property P) : (c.apply entry).base = applySetting c.base entry := by
  unfold apply applySetting
  split
  · rfl
  · unfold set
    dsimp only
    split
    · unfold surfacepointsChanged
      split <;> rfl
    · rfl

theorem foldl_base (c : Calibrator P) (entries : List (Str × Property P)) :
    (entries.foldl apply c).base = entries.foldl applySetting c.base := by
  induction entries generalizing c with
  | nil => rfl
  | cons entry entries ih => rw [List.foldl_cons, List.foldl_cons, ih, apply_base]

theorem replay_base {config : Config P} (type : config.type = .calibration) (counters : Counters) :
    (replay counters config).base = reload counters config := by
  unfold replay reload fresh
  rw [foldl_base, type]

theorem apply_calibrated_of_ne (other : entry.1 ≠ "surfacePoints".toList) : (c.apply entry).calibrated = c.calibrated := by
  unfold apply
  split
  · rfl
  · unfold set
    rw [if_neg fun h => other h.1]

theorem foldl_calibrated_of_ne (other : ∀ entry ∈ entries, entry.1 ≠ "surfacePoints".toList) :
    (entries.foldl apply c).calibrated = c.calibrated := by
  induction entries generalizing c with
  | nil => rfl
  | cons entry entries ih =>
    obtain ⟨first, rest⟩ := List.forall_mem_cons.mp other
    rw [List.foldl_cons, ih rest, apply_calibrated_of_ne first]

/-- The callback sees the points that the line has just set. -/
theorem apply_calibrated (c : Calibrator P) (name : entry.1 = "surfacePoints".toList) (plain : entry.2.isText = false)
    (writable : (c.base.state.property "surfacePoints".toList).readOnly = false) : (c.apply entry).calibrated = (c.calibrated ||
      (points (c.apply entry).base.state "screenPoints").length == (points (c.apply entry).base.state "surfacePoints").length) := by
  unfold apply set
  rw [plain, name, if_neg Bool.false_ne_true]
  dsimp only
  rw [if_pos ⟨rfl, writable⟩]
  unfold surfacepointsChanged
  split
  · rename_i same
    simpa using Or.inr same
  · rename_i differ
    rw [beq_eq_false_iff_ne.mpr differ, Bool.or_false]

theorem points_of_find {config config' : Config P} {name : String}
    (same : config.props.find name.toList = config'.props.find name.toList) : points config name = points config' name := by
  unfold points Config.property
  rw [same]

/-- No line before `surfacePoints` raises the flag, and none after it changes a list. -/
theorem foldl_calibrated {id : Str} (sorted : entries.Pairwise fun a b => a.1 < b.1) (settable : Settable .calibration id c.base)
    (member : entry ∈ entries) (name : entry.1 = "surfacePoints".toList) (plain : entry.2.isText = false) :
    (entries.foldl apply c).calibrated = (c.calibrated ||
      (points (entries.foldl apply c).base.state "screenPoints").length == (points (entries.foldl apply c).base.state "surfacePoints").length) := by
  induction entries generalizing c with
  | nil => cases member
  | cons e entries ih =>
    obtain ⟨above, tail⟩ := List.pairwise_cons.mp sorted
    rw [List.foldl_cons]
    rcases List.mem_cons.mp member with rfl | later
    · have after (x : String) (low : x.toList ≤ "surfacePoints".toList) :
          points (entries.foldl apply (c.apply entry)).base.state x = points (c.apply entry).base.state x := by
        refine points_of_find ?_
        rw [foldl_base]
        exact foldl_find_of_lt (fun f member => low.trans_lt (name ▸ above f member)) _
      rw [foldl_calibrated_of_ne fun f member same => lt_irrefl _ (same ▸ name ▸ above f member), after "screenPoints" (by decide),
        after "surfacePoints" (le_refl _)]
      exact apply_calibrated c name plain (settable.writable _ (by decide))
    · have other : e.1 ≠ "surfacePoints".toList := fun same => lt_irrefl _ (same ▸ name ▸ above entry later)
      have next : Settable .calibration id (c.apply e).base := by
        rw [apply_base]
        exact settable.applySetting e
      rw [ih tail next later, apply_calibrated_of_ne other]

/-! ### The module as a whole -/

/-- The size and the points have `set` lines. -/
def HasLines (config : Config P) : Prop :=
  ∀ name ∈ ["rows", "cols", "screenPoints", "surfacePoints"], (config.property name.toList).isText = false

/-- The size is the same and the points are as they were printed. -/
structure Restores (config : Config P) (c : Calibrator P) : Prop where
  rows : (c.base.state.property "rows".toList).value = (config.property "rows".toList).value
  cols : (c.base.state.property "cols".toList).value = (config.property "cols".toList).value
  screenPoints : points c.base.state "screenPoints" = Value.asPrinted (points config "screenPoints")
  surfacePoints : points c.base.state "surfacePoints" = Value.asPrinted (points config "surfacePoints")
  calibrated : c.calibrated = true ↔ (points config "screenPoints").length = (points config "surfacePoints").length

variable {config : Config P}

theorem mem_of_declared (type : config.type = .calibration) {name : Str} (declared : ModuleType.calibration.declaredType name ≠ .string) :
    (name, config.property name) ∈ config.props.entries := by
  have typed := config.typed name
  cases found : config.props.find name with
  | none =>
    rw [found, type] at typed
    exact absurd typed.symm declared
  | some p =>
    rw [Config.property_of_find found]
    exact OrderedMap.mem_of_find found

/-- A property that is no string is back with the text that was printed. -/
theorem replay_property (type : config.type = .calibration) (counters : Counters) {name : Str}
    (declared : ModuleType.calibration.declaredType name ≠ .string) (plain : (config.property name).isText = false) :
    ((replay counters config).base.state.property name).value =
      Value.ofString P (config.property name).value.type (config.property name).asString := by
  have notId : name ≠ "id".toList := by
    rintro rfl
    exact declared (ModuleType.declaredType_id _)
  obtain ⟨p, found, value⟩ := reload_find counters (mem_of_declared type declared) plain notId
  have clean : Text.NoSpace (config.property name).asString := Value.asString_noSpace (by rw [config.property_type, type]; exact declared)
  rw [replay_base type, Config.property_of_find found, value, (plain_of_noSpace clean).2]

theorem replay_integer (type : config.type = .calibration) (counters : Counters) {name : Str}
    (declared : ModuleType.calibration.declaredType name = .integer) (plain : (config.property name).isText = false) :
    ((replay counters config).base.state.property name).value = (config.property name).value := by
  rw [replay_property type counters (by rw [declared]; decide) plain, Property.asString]
  have integer := config.property_type name
  rw [type, declared] at integer
  cases value : (config.property name).value with
  | integer n => exact congrArg Value.integer (Text.atoi_showInt n)
  | _ =>
    rw [value] at integer
    cases integer

theorem replay_points (type : config.type = .calibration) (counters : Counters) {name : String}
    (declared : ModuleType.calibration.declaredType name.toList = .pointList) (plain : (config.property name.toList).isText = false) :
    points (replay counters config).base.state name = Value.asPrinted (points config name) := by
  unfold points
  rw [replay_property type counters (by rw [declared]; decide) plain, Property.asString]
  have list := config.property_type name.toList
  rw [type, declared] at list
  cases value : (config.property name.toList).value with
  | pointList points => exact Value.convertToPointList_asString points
  | _ =>
    rw [value] at list
    cases list

/-- What is read from the lines is the replay, and it restores the module, whatever was in the lists. -/
theorem replay_restores (counters : Counters) (config : Config P) (type : config.type = .calibration) (lines : HasLines config) :
    Restores config (replay counters config) ∧
    ∀ s : Reader P, s.counters = counters → s.data = none → (∀ r ∈ s.net.elements, r ≠ s.net.next) →
      getModuleById s.net config.id = none → Text.Token config.id → (∀ entry ∈ config.props.entries, Written entry) →
      ∃ s', s.parseLines config.creation = .ok s' ∧ s'.net.modules s.net.next = some (replay counters config).base := by
  have screen := replay_points type counters (by decide) (lines "screenPoints" (by decide))
  have surface := replay_points type counters (by decide) (lines "surfacePoints" (by decide))
  refine ⟨⟨?_, ?_, screen, surface, ?_⟩, ?_⟩
  · exact replay_integer type counters (by decide) (lines "rows" (by decide))
  · exact replay_integer type counters (by decide) (lines "cols" (by decide))
  · have constructed := constructed_construct (P := P) .calibration counters
    have surfaces : ModuleType.calibration.declaredType "surfacePoints".toList ≠ .string := by decide
    have member := mem_of_declared type surfaces
    have flag : (replay counters config).calibrated = _ := foldl_calibrated (c := fresh counters config.id) config.props.sorted
      (newModule_settable constructed config.id) member rfl (lines "surfacePoints" (by decide))
    change (replay counters config).calibrated = (false || (points (replay counters config).base.state _).length ==
      (points (replay counters config).base.state _).length) at flag
    rw [flag, screen, surface, Bool.false_or, beq_iff_eq, Value.asPrinted, Value.asPrinted, List.length_map, List.length_map]
  · rintro s rfl outside wired unused idToken written
    have clear : (reload s.counters config).isError = false := by
      rw [reload_isError_iff]
      intro entry _ _ msg called
      rw [type] at called
      change (if entry.1 = "rows".toList ∨ entry.1 = "cols".toList then ModuleType.Callback.buildScreenPoints else .none) = _ at called
      split at called <;> cases called
    refine ⟨_, (parseLines_creation written idToken wired outside).mpr ⟨unused, clear, rfl⟩, ?_⟩
    rw [replay_base type]
    exact Function.update_self ..

/-- Three screen points, which are no grid, and two surface points. -/
def unfinished : Config Platform.whole :=
  ((ModuleType.calibration.construct Platform.whole ⟨0, 0⟩).1.set "screenPoints".toList "0,0;5,1;9,2;".toList).set
    "surfacePoints".toList "1,1;2,2;".toList

theorem unfinished_restores : HasLines unfinished ∧ Restores unfinished (replay ⟨1, 0⟩ unfinished) ∧
    (replay ⟨1, 0⟩ unfinished).calibrated = false := by
  have lines : HasLines unfinished := by
    unfold HasLines
    decide +kernel
  have restores := (replay_restores ⟨1, 0⟩ unfinished rfl lines).1
  refine ⟨lines, restores, Bool.eq_false_iff.mpr fun flag => ?_⟩
  exact absurd (restores.calibrated.mp flag) (by decide +kernel)

end Calibrator

end Movid.Preset
