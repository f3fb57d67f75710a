import Movid.Preset.Lines
import Movid.Preset.Pipeline

/-!
# Setting the properties of a new module

A module that `create` has made, and what becomes of it when the plain properties of a saved
module are set on it one after the other. The file of an Image or Mask module has to load at that
moment.
-/

namespace Movid.Preset

variable {P : Platform} {w : Net (Config P)} {m : Module (Config P)} {c : Config P} {s s' : Reader P}

/-- The value that a `set` line gives for the text of a property. -/
def readBack (value : Str) : Str := (Text.words value).headD []

/-- A `set` line with the value is one line with at most five words. -/
def Plain (value : Str) : Prop := '\n' ∉ value ∧ (Text.words value).length ≤ 1

/-- What the line of a property does to the new module. Text properties come later. -/
def applySetting (m : Module (Config P)) (entry : Str × Property P) : Module (Config P) :=
  if entry.2.isText then m else setProperty m entry.1 (readBack entry.2.asString)

/-- The module that is made from the lines of `c`. -/
def reload (counters : Counters) (c : Config P) : Module (Config P) :=
  c.props.entries.foldl applySetting (Reader.newModule c.type (c.type.construct P counters).1 c.id)

/-- A module that was made by `create` and is being set: only its id is read-only. -/
structure Settable (t : ModuleType) (id : Str) (m : Module (Config P)) : Prop where
  type : m.state.type = t
  id_eq : m.state.property "id".toList = { value := .string id, isText := false, readOnly := true }
  writable : ∀ name, name ≠ "id".toList → (m.state.property name).readOnly = false
  inputs : m.inputs = t.inputs.map fun type => { type, stream := none }
  outputs : m.outputs = t.outputs
  visible : m.isInternal = false

namespace Settable

variable {t : ModuleType} {id : Str}

theorem state_id (settable : Settable t id m) : m.state.id = id := by
  rw [Config.id, settable.id_eq]
  rfl

theorem setError (settable : Settable t id m) (msg : Str) : Settable t id (m.setError msg) :=
  ⟨settable.type, settable.id_eq, settable.writable, settable.inputs, settable.outputs, settable.visible⟩

theorem set_readOnly (p : Property P) (value : Str) : (p.set value).readOnly = p.readOnly := by
  unfold Property.set
  split <;> rfl

theorem put (settable : Settable t id m) (name value : Str) (other : name ≠ "id".toList) :
    Settable t id { m with state := m.state.set name value } where
  type := settable.type
  id_eq := by
    rw [Config.property_set, if_neg (Ne.symm other)]
    exact settable.id_eq
  writable x notId := by
    rw [Config.property_set]
    split
    · rw [set_readOnly]
      exact settable.writable name other
    · exact settable.writable x notId
  inputs := settable.inputs
  outputs := settable.outputs
  visible := settable.visible

theorem fireCallback (settable : Settable t id m) (name : Str) : Settable t id (fireCallback m name) := by
  unfold Preset.fireCallback
  split
  · exact settable
  · split
    · exact settable
    · exact settable.setError _
  · exact settable.put _ _ (by decide)

theorem setProperty_id (settable : Settable t id m) (value : Str) :
    setProperty m "id".toList value = { m with state := m.state.set "id".toList value } := by
  exact if_pos (by rw [settable.id_eq])

theorem setProperty (settable : Settable t id m) (name value : Str) : Settable t id (setProperty m name value) := by
  by_cases same : name = "id".toList
  · subst same
    rw [settable.setProperty_id]
    have keeps (x : Str) : (m.state.set "id".toList value).property x = m.state.property x := by
      rw [Config.property_set]
      split
      · rename_i here
        rw [here, Property.set, if_pos (by rw [settable.id_eq])]
      · rfl
    exact ⟨settable.type, (keeps _).trans settable.id_eq, fun x notId => by
      rw [show ({ m with state := m.state.set "id".toList value } : Module (Config P)).state.property x =
        m.state.property x from keeps x]; exact settable.writable x notId, settable.inputs, settable.outputs,
      settable.visible⟩
  · unfold Preset.setProperty
    simp only [settable.writable name same]
    exact (settable.put name value same).fireCallback name

theorem applySetting (settable : Settable t id m) (entry : Str × Property P) :
    Settable t id (applySetting m entry) := by
  unfold Preset.applySetting
  split
  · exact settable
  · exact settable.setProperty ..

theorem foldl (settable : Settable t id m) (entries : List (Str × Property P)) :
    Settable t id (entries.foldl Preset.applySetting m) := by
  induction entries generalizing m with
  | nil => exact settable
  | cons entry entries ih => exact ih (settable.applySetting entry)

end Settable

/-! ### The new module -/

/-- No property is text or read-only in a module that was just constructed. -/
structure Constructed (t : ModuleType) (c : Config P) : Prop where
  type : c.type = t
  plain : ∀ name, (c.property name).isText = false ∧ (c.property name).readOnly = false

theorem set_isText (p : Property P) (value : Str) : (p.set value).isText = p.isText := by
  unfold Property.set
  split <;> rfl

theorem Constructed.set {t : ModuleType} (constructed : Constructed t c) (name value : Str) :
    Constructed t (c.set name value) := by
  refine ⟨constructed.type, fun x => ?_⟩
  rw [Config.property_set]
  split
  · rw [set_isText, Settable.set_readOnly]
    exact constructed.plain name
  · exact constructed.plain x

theorem constructed_blank (t : ModuleType) : Constructed t (t.blank P) := by
  refine ⟨rfl, fun name => ?_⟩
  unfold Config.property ModuleType.blank
  rw [OrderedMap.find_map]
  cases t.defaults.find name <;> exact ⟨rfl, rfl⟩

theorem constructed_construct (t : ModuleType) (counters : Counters) : Constructed t (t.construct P counters).1 := by
  have withId (id : Str) := (constructed_blank (P := P) t).set "id".toList id
  unfold ModuleType.construct
  rcases t.createId counters with ⟨id, counters'⟩
  simp only []
  split
  · exact (withId id).set ..
  · exact withId id

theorem newModule_state {t : ModuleType} (constructed : Constructed t c) (id : Str) :
    (Reader.newModule t c id).state = (c.set "id".toList id).setReadOnly "id".toList ∧
      (Reader.newModule t c id).isError = false := by
  have writable : (c.property "id".toList).readOnly = false := (constructed.plain _).2
  have quiet : (c.set "id".toList id).type.callback "id".toList = .none := ModuleType.callback_id _
  have set : setProperty (t.spec P c).build "id".toList id =
      { (t.spec P c).build with state := c.set "id".toList id } := by
    apply (if_neg (by rw [Bool.not_eq_true]; exact writable)).trans
    unfold fireCallback
    rw [show ({ (t.spec P c).build with state := (t.spec P c).build.state.set "id".toList id } :
      Module (Config P)).state.type.callback "id".toList = .none from quiet]
    rfl
  unfold Reader.newModule
  rw [set]
  exact ⟨rfl, rfl⟩

theorem newModule_settable {t : ModuleType} (constructed : Constructed t c) (id : Str) :
    Settable t id (Reader.newModule t c id) := by
  obtain ⟨state, _⟩ := newModule_state constructed id
  have frame := setProperty_frame (t.spec P c).build "id".toList id
  refine ⟨?_, ?_, fun name other => ?_, frame.1, frame.2.1, frame.2.2.1⟩
  · rw [state]
    exact constructed.type
  · rw [state, Config.property_setReadOnly, if_pos rfl, Config.property_set, if_pos rfl]
    obtain ⟨notText, writable⟩ := constructed.plain "id".toList
    have type := c.property_type "id".toList
    rw [ModuleType.declaredType_id] at type
    unfold Property.setReadOnly Property.set
    rw [writable, type]
    simp only [Bool.false_eq_true, if_false, notText, Value.ofString]
  · rw [state, Config.property_setReadOnly, if_neg other, Config.property_set, if_neg other]
    exact (constructed.plain name).2

theorem reload_settable (counters : Counters) (c : Config P) : Settable c.type c.id (reload counters c) :=
  (newModule_settable (constructed_construct c.type counters) c.id).foldl _

/-! ### Errors -/

theorem fireCallback_isError (m : Module (Config P)) (name : Str) (error : m.isError = true) :
    (fireCallback m name).isError = true := by
  unfold fireCallback
  split
  · exact error
  · split
    · exact error
    · rfl
  · exact error

theorem setProperty_isError (m : Module (Config P)) (name value : Str) (error : m.isError = true) :
    (setProperty m name value).isError = true := by
  unfold setProperty
  split
  · exact error
  · exact fireCallback_isError _ name error

theorem foldl_isError (entries : List (Str × Property P)) (m : Module (Config P)) (error : m.isError = true) :
    (entries.foldl applySetting m).isError = true := by
  induction entries generalizing m with
  | nil => exact error
  | cons entry entries ih =>
    apply ih _
    unfold applySetting
    split
    · exact error
    · exact setProperty_isError m _ _ error

variable {t : ModuleType} {id : Str}

/-- The files of the module load: the values that its `set` lines give for them. -/
def FilesLoad (c : Config P) : Prop :=
  ∀ entry ∈ c.props.entries, entry.2.isText = false → ∀ msg, c.type.callback entry.1 = .loadImage msg →
    P.loads (readBack entry.2.asString) = true

theorem setProperty_isError_iff {name : Str} (writable : (m.state.property name).readOnly = false)
    (clear : m.isError = false) (value : Str) : (setProperty m name value).isError = false ↔
      ∀ msg, m.state.type.callback name = .loadImage msg → P.loads value = true := by
  unfold setProperty
  simp only [writable, Bool.false_eq_true, if_false]
  unfold fireCallback
  rw [show ({ m with state := m.state.set name value } : Module (Config P)).state.type = m.state.type from rfl]
  cases called : m.state.type.callback name with
  | none => simp [clear]
  | buildScreenPoints => simp [clear]
  | loadImage msg =>
    obtain ⟨filename, declared⟩ := ModuleType.loadImage_name called
    have now : ((m.state.set name value).property "filename".toList).asString = value := by
      rw [← filename, Config.property_set, if_pos rfl, Property.set, writable, m.state.property_type, declared]
      rfl
    simp only [now]
    cases loads : P.loads value with
    | true => simp [clear]
    | false => simp [Module.setError]

theorem applySetting_isError (settable : Settable t id m) (clear : m.isError = false) (entry : Str × Property P) :
    (applySetting m entry).isError = false ↔ (entry.2.isText = false → ∀ msg,
      t.callback entry.1 = .loadImage msg → P.loads (readBack entry.2.asString) = true) := by
  unfold applySetting
  cases text : entry.2.isText with
  | true => simp [clear]
  | false =>
    simp only [Bool.false_eq_true, if_false, true_implies]
    by_cases isId : entry.1 = "id".toList
    · rw [isId, settable.setProperty_id, ModuleType.callback_id]
      simp [clear]
    · rw [setProperty_isError_iff (settable.writable entry.1 isId) clear, settable.type]

theorem foldl_isError_iff {entries : List (Str × Property P)} (settable : Settable t id m) (clear : m.isError = false) :
    (entries.foldl applySetting m).isError = false ↔ ∀ entry ∈ entries, entry.2.isText = false → ∀ msg,
      t.callback entry.1 = .loadImage msg → P.loads (readBack entry.2.asString) = true := by
  induction entries generalizing m with
  | nil => simp [clear]
  | cons entry entries ih =>
    rw [List.foldl_cons, List.forall_mem_cons, ← applySetting_isError settable clear]
    cases error : (applySetting m entry).isError with
    | true => simp [foldl_isError _ _ error]
    | false => simpa using ih (settable.applySetting entry) error

theorem reload_isError_iff (counters : Counters) (c : Config P) :
    (reload counters c).isError = false ↔ FilesLoad c :=
  have constructed := constructed_construct (P := P) c.type counters
  foldl_isError_iff (newModule_settable constructed c.id) (newModule_state constructed c.id).2

/-! ### Values -/

theorem fireCallback_find (m : Module (Config P)) {name k : Str}
    (apart : m.state.type.callback name = .buildScreenPoints → k ≠ "screenPoints".toList) :
    (fireCallback m name).state.props.find k = m.state.props.find k := by
  unfold fireCallback
  split
  · rfl
  · split <;> rfl
  · rename_i called
    exact (Config.find_set ..).trans (if_neg (apart called))

theorem applySetting_find_of_lt (m : Module (Config P)) {entry : Str × Property P} {k : Str} (below : k < entry.1) :
    (applySetting m entry).state.props.find k = m.state.props.find k := by
  have set : (m.state.set entry.1 (readBack entry.2.asString)).props.find k = m.state.props.find k :=
    (Config.find_set ..).trans (if_neg (ne_of_lt below))
  unfold applySetting
  split
  · rfl
  · unfold setProperty
    simp only []
    split
    · exact set
    · refine (fireCallback_find _ ?_).trans set
      intro called same
      exact lt_irrefl _ ((same ▸ below).trans (ModuleType.buildScreenPoints_name called).1)

theorem foldl_find_of_lt {entries : List (Str × Property P)} {k : Str} (below : ∀ entry ∈ entries, k < entry.1)
    (m : Module (Config P)) : (entries.foldl applySetting m).state.props.find k = m.state.props.find k := by
  induction entries generalizing m with
  | nil => rfl
  | cons entry entries ih =>
    rw [List.foldl_cons, ih (fun e member => below e (List.mem_cons_of_mem _ member)),
      applySetting_find_of_lt m (below entry List.mem_cons_self)]

theorem applySetting_find (settable : Settable t id m) {entry : Str × Property P} (plain : entry.2.isText = false)
    (notId : entry.1 ≠ "id".toList) :
    ∃ p, (applySetting m entry).state.props.find entry.1 = some p ∧
      p.value = Value.ofString P (t.declaredType entry.1) (readBack entry.2.asString) := by
  have writable := settable.writable entry.1 notId
  have value : ((m.state.property entry.1).set (readBack entry.2.asString)).value =
      Value.ofString P (t.declaredType entry.1) (readBack entry.2.asString) := by
    rw [Property.set, writable, ← settable.type, ← m.state.property_type]
    rfl
  refine ⟨_, ?_, value⟩
  unfold applySetting setProperty
  simp only [plain, writable, Bool.false_eq_true, if_false]
  refine (fireCallback_find _ ?_).trans ((Config.find_set ..).trans (if_pos rfl))
  intro called same
  exact absurd (ModuleType.buildScreenPoints_name called).1 (by rw [same]; exact lt_irrefl _)

theorem foldl_find {entries : List (Str × Property P)} (sorted : entries.Pairwise fun a b => a.1 < b.1)
    (settable : Settable t id m) {entry : Str × Property P} (member : entry ∈ entries)
    (plain : entry.2.isText = false) (notId : entry.1 ≠ "id".toList) :
    ∃ p, (entries.foldl applySetting m).state.props.find entry.1 = some p ∧
      p.value = Value.ofString P (t.declaredType entry.1) (readBack entry.2.asString) := by
  induction entries generalizing m with
  | nil => cases member
  | cons e entries ih =>
    obtain ⟨above, tail⟩ := List.pairwise_cons.mp sorted
    rw [List.foldl_cons]
    rcases List.mem_cons.mp member with rfl | later
    · rw [foldl_find_of_lt above]
      exact applySetting_find settable plain notId
    · exact ih tail (settable.applySetting e) later

theorem reload_find (counters : Counters) {entry : Str × Property P} (member : entry ∈ c.props.entries)
    (plain : entry.2.isText = false) (notId : entry.1 ≠ "id".toList) :
    ∃ p, (reload counters c).state.props.find entry.1 = some p ∧
      p.value = Value.ofString P entry.2.value.type (readBack entry.2.asString) := by
  have declared : c.type.declaredType entry.1 = entry.2.value.type := by
    rw [← c.property_type, Config.property_of_find (OrderedMap.find_of_mem _ member)]
  rw [← declared]
  exact foldl_find c.props.sorted
    (newModule_settable (constructed_construct (P := P) c.type counters) c.id) member plain notId

end Movid.Preset
