import Movid.Preset.Factory

/-!
# The properties of a module

`Config` is the part of a module that a preset can set. Every property has the type that the
constructor gave it, or is a string.
-/

namespace Movid.Preset

structure Config (P : Platform) where
  type : ModuleType
  props : OrderedMap Str (Property P)
  typed : ∀ name, ((props.find name).map (·.value.type)).getD .string = type.declaredType name

/-- `idcount` of `moModule.cpp` and `_count` of `moImageDisplayModule.cpp`. -/
structure Counters where
  idcount : UInt32
  displays : UInt32

namespace Config

variable {P : Platform}

/-- `moModule::property`: one that is missing is made as an empty string. -/
def property (c : Config P) (name : Str) : Property P := (c.props.find name).getD (.new (.string []))

theorem property_type (c : Config P) (name : Str) : (c.property name).value.type = c.type.declaredType name := by
  rw [← c.typed name, property]
  cases c.props.find name <;> rfl

theorem property_of_find {c : Config P} {name : Str} {p : Property P} (h : c.props.find name = some p) :
    c.property name = p := by rw [property, h, Option.getD_some]

def put (c : Config P) (name : Str) (p : Property P) (same : p.value.type = c.type.declaredType name) : Config P where
  type := c.type
  props := c.props.insert name p
  typed other := by
    rw [OrderedMap.find_insert]
    split
    · rename_i here
      rw [here]
      exact same
    · exact c.typed other

def set (c : Config P) (name s : Str) : Config P :=
  c.put name ((c.property name).set s) ((Property.set_type _ s).trans (c.property_type name))

def setText (c : Config P) (name : Str) : Config P := c.put name (c.property name).setText (c.property_type name)

def setReadOnly (c : Config P) (name : Str) : Config P :=
  c.put name (c.property name).setReadOnly (c.property_type name)

def id (c : Config P) : Str := (c.property "id".toList).asString

theorem find_put (c : Config P) (name : Str) (p : Property P) (same : p.value.type = c.type.declaredType name)
    (other : Str) : (c.put name p same).props.find other = if other = name then some p else c.props.find other := by
  by_cases here : other = name
  · rw [if_pos here, here]
    exact OrderedMap.find_insert_self ..
  · rw [if_neg here]
    exact OrderedMap.find_insert_of_ne _ here _

theorem property_put (c : Config P) (name : Str) (p : Property P) (same : p.value.type = c.type.declaredType name)
    (other : Str) : (c.put name p same).property other = if other = name then p else c.property other := by
  unfold property
  rw [find_put]
  split <;> rfl

theorem property_set (c : Config P) (name s other : Str) :
    (c.set name s).property other = if other = name then (c.property name).set s else c.property other :=
  property_put ..

theorem find_set (c : Config P) (name s other : Str) :
    (c.set name s).props.find other = if other = name then some ((c.property name).set s) else c.props.find other :=
  find_put ..

theorem find_setText (c : Config P) (name other : Str) : (c.setText name).props.find other =
    if other = name then some (c.property name).setText else c.props.find other := find_put ..

theorem property_setReadOnly (c : Config P) (name other : Str) : (c.setReadOnly name).property other =
    if other = name then (c.property name).setReadOnly else c.property other := property_put ..

theorem property_setText (c : Config P) (name other : Str) : (c.setText name).property other =
    if other = name then (c.property name).setText else c.property other := property_put ..

end Config

/-! ### Construction -/

def createId (base : Str) (counters : Counters) : Str × Counters :=
  (base ++ Text.showInt counters.idcount.toNat, { counters with idcount := counters.idcount + 1 })

namespace ModuleType

variable (P : Platform)

/-- `MODULE_INIT`. The trackers run it in their base class first. `Dump` has none: its id is
made as an empty string when it is asked for, at the latest when the module is added. -/
def createId (t : ModuleType) (counters : Counters) : Str × Counters :=
  match t with
  | dump => ([], counters)
  | greedyBlobTracker | munkresBlobTracker =>
    Preset.createId t.name (Preset.createId "AbstractBlobTracker".toList counters).2
  | _ => Preset.createId t.name counters

def blank (t : ModuleType) : Config P where
  type := t
  props := t.defaults.map fun d => .new (d.value P)
  typed name := by
    rw [OrderedMap.find_map, declaredType]
    cases t.defaults.find name with
    | none => rfl
    | some d => exact Default.value_type P d

/-- The constructor. -/
def construct (t : ModuleType) (counters : Counters) : Config P × Counters :=
  let (id, counters) := t.createId counters
  let config := (t.blank P).set "id".toList id
  match t with
  | imageDisplay =>
    (config.set "name".toList ("Movid".toList ++ Text.showInt counters.displays.toNat),
      { counters with displays := counters.displays + 1 })
  | _ => (config, counters)

def spec (t : ModuleType) (config : Config P) : ModuleSpec (Config P) where
  inputs := t.inputs
  outputs := t.outputs
  state := config

end ModuleType

/-! ### Setting a property of a module -/

section Module

variable {P : Platform}

/-- The callback of the property, after the value has changed. -/
def fireCallback (m : Module (Config P)) (name : Str) : Module (Config P) :=
  match m.state.type.callback name with
  | .none => m
  | .loadImage msg => if P.loads (m.state.property "filename".toList).asString then m else m.setError msg
  | .buildScreenPoints =>
    let cols := (m.state.property "cols".toList).value.asInteger
    let rows := (m.state.property "rows".toList).value.asInteger
    { m with state := m.state.set "screenPoints".toList (P.grid cols rows) }

/-- `module->property(name).set(value)`. -/
def setProperty (m : Module (Config P)) (name s : Str) : Module (Config P) :=
  let m' := { m with state := m.state.set name s }
  if (m.state.property name).readOnly then m' else fireCallback m' name

variable (m : Module (Config P)) (name s : Str)

theorem fireCallback_frame : (fireCallback m name).inputs = m.inputs ∧ (fireCallback m name).outputs = m.outputs ∧
    (fireCallback m name).isInternal = m.isInternal ∧ (fireCallback m name).state.type = m.state.type := by
  unfold fireCallback
  split
  · exact ⟨rfl, rfl, rfl, rfl⟩
  · split <;> exact ⟨rfl, rfl, rfl, rfl⟩
  · exact ⟨rfl, rfl, rfl, rfl⟩

theorem setProperty_frame : (setProperty m name s).inputs = m.inputs ∧ (setProperty m name s).outputs = m.outputs ∧
    (setProperty m name s).isInternal = m.isInternal ∧ (setProperty m name s).state.type = m.state.type := by
  unfold setProperty
  split
  · exact ⟨rfl, rfl, rfl, rfl⟩
  · exact fireCallback_frame { m with state := m.state.set name s } name

end Module

end Movid.Preset
