import Movid.Preset.Tidy

/-!
# Reading the data part

Each section of the data part goes to the `settext` commands with its name. Sections that have a
name in common are told apart by nobody: the first one goes to all commands with that name.
-/

namespace Movid.Preset

variable {P : Platform} {w w' : Net (Config P)} {m : Module (Config P)} {c c' : Config P} {s s' : Reader P}

/-! ### One property -/

/-- A loaded module that stands for the saved one. -/
structure Named (c c' : Config P) : Prop where
  type : c'.type = c.type
  id : c'.id = c.id
  writable : ∀ name, name ≠ "id".toList → (c'.property name).readOnly = false

def Holds (c : Config P) (name text : Str) : Prop :=
  c.props.find name = some { value := .string text, isText := true, readOnly := false }

theorem Named.put (named : Named c c') {name : Str} (notId : name ≠ "id".toList) {p : Property P}
    (same : p.value.type = c'.type.declaredType name) (writable : p.readOnly = false) :
    Named c (c'.put name p same) := by
  refine ⟨named.type, ?_, fun other otherId => ?_⟩
  · unfold Config.id
    rw [Config.property_put, if_neg (Ne.symm notId)]
    exact named.id
  · rw [Config.property_put]
    split
    · exact writable
    · exact named.writable other otherId

/-- What the end of a section does to a module. -/
def storeText (text name : Str) (m : Module (Config P)) : Module (Config P) :=
  { setProperty m name text with state := (setProperty m name text).state.setText name }

variable {name text : Str}

theorem setProperty_state (string : m.state.type.declaredType name = .string) :
    (setProperty m name text).state = m.state.set name text := by
  unfold setProperty
  simp only []
  split
  · rfl
  · unfold fireCallback
    split
    · rfl
    · split <;> rfl
    · rename_i called
      have type : m.state.type.declaredType name = .integer := (ModuleType.buildScreenPoints_name called).2
      rw [string] at type
      cases type

theorem storeText_state (string : m.state.type.declaredType name = .string) :
    (storeText text name m).state = (m.state.set name text).setText name :=
  congrArg (Config.setText · name) (setProperty_state string)

theorem storeText_named (named : Named c m.state) (notId : name ≠ "id".toList)
    (string : c.type.declaredType name = .string) : Named c (storeText text name m).state := by
  rw [storeText_state (named.type ▸ string)]
  have writable : ((m.state.property name).set text).readOnly = false := by
    rw [Settable.set_readOnly]
    exact named.writable name notId
  have set : Named c (m.state.set name text) := named.put notId _ writable
  exact set.put (p := ((m.state.set name text).property name).setText) notId (Config.property_type ..)
    (set.writable name notId)

theorem storeText_holds (named : Named c m.state) (notId : name ≠ "id".toList)
    (string : c.type.declaredType name = .string) : Holds (storeText text name m).state name text := by
  have type : (m.state.property name).value.type = .string := by rw [m.state.property_type, named.type, string]
  rw [storeText_state (named.type ▸ string), Holds, Config.find_setText, if_pos rfl, Config.property_set, if_pos rfl,
    Property.set, named.writable name notId, type]
  rfl

theorem storeText_holds_other (string : m.state.type.declaredType name = .string) {other x : Str}
    (apart : other ≠ name) (holds : Holds m.state other x) : Holds (storeText text name m).state other x := by
  rw [storeText_state string, Holds, Config.find_setText, if_neg apart, Config.find_set, if_neg apart]
  exact holds

/-! ### One command -/

def allLates (saved : List (Config P)) : List LateSet := saved.flatMap fun c => lates c.id c.props.entries

theorem mem_lates {id : Str} {entries : List (Str × Property P)} {l : LateSet} :
    l ∈ lates id entries ↔ ∃ e ∈ entries, e.2.isText = true ∧ l = ⟨id, e.1, tag id e.1⟩ := by
  unfold lates
  rw [List.mem_filterMap]
  refine exists_congr fun e => and_congr_right fun _ => ?_
  cases e.2.isText <;> simp [eq_comm]

/-- The modules that the section is set on can take the text: a file that it names loads. -/
def Loads (saved : List (Config P)) (l : LateSet) (text : Str) : Prop :=
  ∀ c ∈ saved, c.id = l.id → ∀ msg, c.type.callback l.name = .loadImage msg → P.loads text = true

/-- The ids differ, and text properties are strings other than the id. -/
structure Texts (saved : List (Config P)) : Prop where
  distinct : (saved.map (·.id)).Nodup
  strings : ∀ c ∈ saved, ∀ e ∈ c.props.entries, e.2.isText = true → e.2.value.type = .string ∧ e.1 ≠ "id".toList

/-- The pipeline has a module for each saved one. Where a command is done, its property holds
the text for the tag of the command. -/
structure Stored (saved : List (Config P)) (done : Set LateSet) (val : Str → Str) (w : Net (Config P)) : Prop where
  elements : w.elements = List.range saved.length
  modules : ∀ (i : Nat) (c : Config P), saved[i]? = some c → ∃ m, w.modules i = some m ∧ m.isError = false ∧
    Named c m.state ∧ ∀ l ∈ lates c.id c.props.entries, l ∈ done → Holds m.state l.name (val l.tag)
  files : ∀ l ∈ done, Loads saved l (val l.tag)

variable {saved : List (Config P)} {done : Set LateSet} {val : Str → Str} {l : LateSet} {i j : Nat}

theorem Stored.mono (stored : Stored saved done val w) {done' : Set LateSet} (sub : done' ⊆ done) :
    Stored saved done' val w := by
  refine ⟨stored.elements, fun i c here => ?_, fun l member => stored.files l (sub member)⟩
  obtain ⟨m, live, clear, named, holds⟩ := stored.modules i c here
  exact ⟨m, live, clear, named, fun l member inside => holds l member (sub inside)⟩

theorem Texts.index (texts : Texts saved) (first : saved[i]? = some c) (second : saved[j]? = some c')
    (same : c.id = c'.id) : i = j := by
  have inside : i < (saved.map (·.id)).length := by
    rw [List.length_map]
    exact (List.getElem?_eq_some_iff.mp first).1
  refine (List.getElem?_inj inside texts.distinct).mp ?_
  rw [List.getElem?_map, List.getElem?_map, first, second]
  exact congrArg some same

theorem Stored.getModuleById (stored : Stored saved done val w) (texts : Texts saved) (here : saved[i]? = some c) :
    getModuleById w c.id = some i := by
  unfold Preset.getModuleById
  rw [stored.elements, List.find?_range_eq_some]
  obtain ⟨m, found, _, named, _⟩ := stored.modules i c here
  have inside := (List.getElem?_eq_some_iff.mp here).1
  refine ⟨by simp [found, named.id], List.mem_range.mpr inside, fun j below => ?_⟩
  have there : saved[j]? = some saved[j] := List.getElem?_eq_getElem (below.trans inside)
  obtain ⟨m', found', _, named', _⟩ := stored.modules j _ there
  have apart : saved[j].id ≠ c.id := fun same => absurd (texts.index there here same) (Nat.ne_of_lt below)
  simp [found', named'.id, apart]

theorem Texts.string (texts : Texts saved) (here : saved[i]? = some c) (member : l ∈ lates c.id c.props.entries) :
    l.id = c.id ∧ l.name ≠ "id".toList ∧ c.type.declaredType l.name = .string := by
  obtain ⟨e, inside, text, rfl⟩ := mem_lates.mp member
  obtain ⟨type, notId⟩ := texts.strings c (List.mem_of_getElem? here) e inside text
  refine ⟨rfl, notId, ?_⟩
  rw [← c.property_type, Config.property_of_find (OrderedMap.find_of_mem _ inside)]
  exact type

theorem lates_ext {id : Str} {entries : List (Str × Property P)} {l l' : LateSet} (first : l ∈ lates id entries)
    (second : l' ∈ lates id entries) (same : l.name = l'.name) : l = l' := by
  obtain ⟨e, _, _, rfl⟩ := mem_lates.mp first
  obtain ⟨e', _, _, rfl⟩ := mem_lates.mp second
  exact congrArg (fun name => (⟨id, name, tag id name⟩ : LateSet)) same

theorem setLate_eq (text : Str) (found : Preset.getModuleById w l.id = some i) (live : w.modules i = some m) :
    setLate none text w l = if (storeText text l.name m).isError = true
      then .error (moduleError (w.updateModule i (storeText text l.name)) i)
      else .ok (w.updateModule i (storeText text l.name)) := by
  have net : markText (setOn w i l.name text) i l.name = w.updateModule i (storeText text l.name) := by
    unfold markText setOn Net.updateModule
    simp only [Function.update_self, Function.update_idem, Option.map_map]
    rfl
  have error : haveError (w.updateModule i (storeText text l.name)) i = (storeText text l.name m).isError := by
    simp [haveError, Net.updateModule, live]
  unfold setLate
  rw [found]
  simp only [net, error]

theorem Stored.setLate (stored : Stored saved done val w) (texts : Texts saved) (here : saved[i]? = some c)
    (member : l ∈ lates c.id c.props.entries) :
    ((∃ w', setLate none (val l.tag) w l = .ok w') ↔ Loads saved l (val l.tag)) ∧
      ∀ w', setLate none (val l.tag) w l = .ok w' → Stored saved (insert l done) val w' := by
  obtain ⟨ids, notId, string⟩ := texts.string here member
  obtain ⟨m, live, clear, named, holds⟩ := stored.modules i c here
  have only {d : Config P} (inside : d ∈ saved) (same : d.id = l.id) : d = c := by
    obtain ⟨j, there⟩ := List.getElem?_of_mem inside
    obtain rfl := texts.index there here (same.trans ids)
    exact Option.some.inj (there.symm.trans here)
  have error : (storeText (val l.tag) l.name m).isError = false ↔ Loads saved l (val l.tag) := by
    apply (setProperty_isError_iff (named.writable l.name notId) clear (val l.tag)).trans
    rw [named.type]
    constructor
    · intro loads d inside same
      rw [only inside same]
      exact loads
    · exact fun loads => loads c (List.mem_of_getElem? here) ids.symm
  have run := setLate_eq (val l.tag) (ids ▸ stored.getModuleById texts here) live
  rw [run]
  cases failed : (storeText (val l.tag) l.name m).isError with
  | true =>
    rw [failed] at error
    rw [if_pos rfl, ← error]
    simp
  | false =>
    have loads := error.mp failed
    rw [if_neg (by simp)]
    refine ⟨by simp [loads], fun w' same => ?_⟩
    cases same
    refine ⟨stored.elements, fun j d there => ?_, fun l' inside => ?_⟩
    · rw [Net.updateModule_modules]
      by_cases at_i : j = i
      · subst at_i
        obtain rfl : d = c := Option.some.inj (there.symm.trans here)
        rw [if_pos rfl, live]
        refine ⟨_, rfl, failed, storeText_named named notId string, fun l' member' inside => ?_⟩
        by_cases same : l'.name = l.name
        · rw [lates_ext member' member same]
          exact storeText_holds named notId string
        · have old := inside.resolve_left fun same' => same (congrArg LateSet.name same')
          exact storeText_holds_other (named.type ▸ string) same (holds l' member' old)
      · rw [if_neg at_i]
        obtain ⟨m', live', clear', named', holds'⟩ := stored.modules j d there
        refine ⟨m', live', clear', named', fun l' member' inside => holds' l' member' ?_⟩
        refine inside.resolve_left fun same => at_i (texts.index there here ?_)
        rw [← (texts.string there member').1, same, ids]
    · rcases inside with rfl | old
      · exact loads
      · exact stored.files l' old

/-! ### The end of a section -/

theorem mem_allLates : l ∈ allLates saved ↔ ∃ (i : Nat) (c : Config P), saved[i]? = some c ∧ l ∈ lates c.id c.props.entries := by
  unfold allLates
  rw [List.mem_flatMap]
  constructor
  · rintro ⟨c, inside, member⟩
    obtain ⟨i, here⟩ := List.getElem?_of_mem inside
    exact ⟨i, c, here, member⟩
  · rintro ⟨i, c, here, member⟩
    exact ⟨c, List.mem_of_getElem? here, member⟩

/-- The commands of one section. -/
theorem Stored.setLates {t : Str} {due : List LateSet} (stored : Stored saved done val w) (texts : Texts saved)
    (known : ∀ l ∈ due, l ∈ allLates saved) (tagged : ∀ l ∈ due, l.tag = t) :
    ((∃ w', due.foldlM (Preset.setLate none (val t)) w = .ok w') ↔ ∀ l ∈ due, Loads saved l (val t)) ∧
      ∀ w', due.foldlM (Preset.setLate none (val t)) w = .ok w' → Stored saved (done ∪ { l | l ∈ due }) val w' := by
  induction due generalizing w done with
  | nil =>
    refine ⟨iff_of_true ⟨w, rfl⟩ (List.forall_mem_nil _), fun w' run => ?_⟩
    cases run
    simpa using stored
  | cons l due ih =>
    obtain rfl := tagged l List.mem_cons_self
    obtain ⟨i, c, here, member⟩ := mem_allLates.mp (known l List.mem_cons_self)
    obtain ⟨accepted, result⟩ := stored.setLate texts here member
    rw [List.forall_mem_cons, List.foldlM_cons]
    cases first : Preset.setLate none (val l.tag) w l with
    | error failure =>
      rw [first] at accepted
      refine ⟨iff_of_false ?_ fun loads => ?_, fun w' impossible => by cases impossible⟩
      · rintro ⟨w', impossible⟩
        cases impossible
      · obtain ⟨w', impossible⟩ := accepted.mpr loads.1
        cases impossible
    | ok w₁ =>
      obtain ⟨accepted', result'⟩ := ih (result w₁ first) (fun l later => known l (List.mem_cons_of_mem _ later))
        fun l later => tagged l (List.mem_cons_of_mem _ later)
      refine ⟨accepted'.trans (and_iff_right (accepted.mp ⟨w₁, first⟩)).symm, fun w' run => (result' w' run).mono ?_⟩
      rintro x (old | here)
      · exact Or.inl (Or.inr old)
      · rcases List.mem_cons.mp here with rfl | later
        · exact Or.inl (Or.inl rfl)
        · exact Or.inr later

theorem Stored.closeSection {t : Str} {late : List LateSet} (stored : Stored saved done val w) (texts : Texts saved)
    (known : ∀ l ∈ late, l ∈ allLates saved) :
    ((∃ r, closeSection none t (val t) w late = .ok r) ↔ ∀ l ∈ late, l.tag = t → Loads saved l (val t)) ∧
      ∀ w' late', closeSection none t (val t) w late = .ok (w', late') → late' = late.filter (·.tag ≠ t) ∧
        Stored saved (done ∪ { l | l ∈ late ∧ l.tag = t }) val w' := by
  have due (l : LateSet) : l ∈ late.filter (·.tag = t) ↔ l ∈ late ∧ l.tag = t := by rw [List.mem_filter, decide_eq_true_iff]
  obtain ⟨accepted, result⟩ := stored.setLates texts (fun l member => known l ((due l).mp member).1) fun l member => ((due l).mp member).2
  constructor
  · rw [closeSection_eq]
    refine Iff.trans ?_ (accepted.trans ?_)
    · cases (late.filter (·.tag = t)).foldlM (Preset.setLate none (val t)) w <;> simp [Except.map]
    · simp only [due, and_imp]
  · intro w' late' run
    obtain ⟨done, kept⟩ := closeSection_ok run
    exact ⟨kept, (result w' done).mono fun l member => member.imp_right (due l).mpr⟩

theorem closeSection_none {t : Str} {late : List LateSet} (other : ∀ l ∈ late, l.tag ≠ t) :
    closeSection none t text w late = .ok (w, late) := by
  have due : late.filter (·.tag = t) = [] := List.filter_eq_nil_iff.mpr (by simpa using other)
  have kept : late.filter (·.tag ≠ t) = late := List.filter_eq_self.mpr (by simpa using other)
  rw [closeSection_eq, due, kept]
  rfl

/-- The sections with these names are over. -/
structure Filled (saved : List (Config P)) (done : List Str) (val : Str → Str) (s : Reader P) : Prop where
  late : s.late = (allLates saved).filter fun l => l.tag ∉ done
  stored : Stored saved { l | l ∈ allLates saved ∧ l.tag ∈ done } val s.net

/-- The first section of a name is for all commands with that name, later ones for none. -/
theorem Filled.endData {done : List Str} {t : Str} (filled : Filled saved done val s) (texts : Texts saved)
    (inside : s.data = some (t, text)) :
    ((∀ l ∈ allLates saved, l.tag = t → Loads saved l text) → ∃ s', s.endData none = .ok s') ∧
      ∀ s', s.endData none = .ok s' → s'.data = none ∧
        (t ∈ done ∧ Filled saved done val s' ∨
          t ∉ done ∧ Filled saved (t :: done) (Function.update val t text) s') := by
  have known : ∀ l ∈ s.late, l ∈ allLates saved ∧ l.tag ∉ done := by
    intro l member
    rw [filled.late] at member
    simpa using List.mem_filter.mp member
  unfold Reader.endData
  simp only [inside]
  by_cases old : t ∈ done
  · have nothing : closeSection none t text s.net s.late = .ok (s.net, s.late) :=
      closeSection_none fun l member same => (known l member).2 (same ▸ old)
    simp only [nothing]
    refine ⟨fun _ => ⟨_, rfl⟩, fun s' run => ?_⟩
    cases run
    exact ⟨rfl, Or.inl ⟨old, filled.late, filled.stored⟩⟩
  · have stored : Stored saved { l | l ∈ allLates saved ∧ l.tag ∈ done } (Function.update val t text) s.net := by
      have same {l : LateSet} (tagged : l.tag ∈ done) : Function.update val t text l.tag = val l.tag :=
        Function.update_of_ne (fun same : l.tag = t => old (same ▸ tagged)) ..
      refine ⟨filled.stored.elements, fun i c here => ?_, fun l member => ?_⟩
      · obtain ⟨m, live, clear, named, holds⟩ := filled.stored.modules i c here
        refine ⟨m, live, clear, named, fun l member inside => ?_⟩
        rw [same inside.2]
        exact holds l member inside
      · rw [same member.2]
        exact filled.stored.files l member
    obtain ⟨accepted, result⟩ := stored.closeSection (t := t) texts fun l member => (known l member).1
    rw [Function.update_self] at accepted result
    refine ⟨fun loads => ?_, fun s' run => ?_⟩
    · obtain ⟨⟨net, late⟩, run⟩ := accepted.mpr fun l member => loads l (known l member).1
      exact ⟨{ s with net, late, data := none }, by rw [run]; rfl⟩
    · obtain ⟨⟨net, late⟩, closed, same⟩ := ok_of_bind run
      cases same
      obtain ⟨kept, after⟩ := result net late closed
      refine ⟨rfl, Or.inr ⟨old, ?_, after.mono ?_⟩⟩
      · change late = _
        rw [kept, filled.late, List.filter_filter]
        apply List.filter_congr
        intro l _
        simp [not_or]
      · rintro l ⟨member, tagged⟩
        rcases List.mem_cons.mp tagged with same | before
        · refine Or.inr ⟨?_, same⟩
          rw [filled.late]
          exact List.mem_filter.mpr ⟨member, by simpa [same] using old⟩
        · exact Or.inl ⟨member, before⟩

/-! ### Sections -/

/-- Somewhere in the data part. Every section that has been read so far was one that `good` says
can stand under its name, and the names in `seen` have had a section, maybe the open one. -/
def Reading (saved : List (Config P)) (good : Str → Str → Prop) (seen : List Str) (s : Reader P) : Prop :=
  ∃ done val, Filled saved done val s ∧ (∀ t ∈ done, good t (val t)) ∧
    (∀ t text, s.data = some (t, text) → good t text) ∧ ∀ t ∈ seen, t ∈ done ∨ ∃ text, s.data = some (t, text)

variable {good : Str → Str → Prop} {seen : List Str} {t : Str}

theorem Reading.endData (reading : Reading saved good seen s) (texts : Texts saved) (h : s.endData none = .ok s') :
    Reading saved good seen s' ∧ s'.data = none := by
  obtain ⟨done, val, filled, closed, opened, all⟩ := reading
  cases inside : s.data with
  | none =>
    rw [Reader.endData, inside] at h
    cases h
    exact ⟨⟨done, val, filled, closed, opened, all⟩, inside⟩
  | some section_ =>
    obtain ⟨t, text⟩ := section_
    obtain ⟨outside, ⟨old, after⟩ | ⟨new, after⟩⟩ := (filled.endData texts inside).2 s' h
    · refine ⟨⟨done, val, after, closed, fun _ _ impossible => by simp [outside] at impossible, fun x member => ?_⟩,
        outside⟩
      rcases all x member with before | ⟨text', now⟩
      · exact Or.inl before
      · rw [inside] at now
        cases now
        exact Or.inl old
    · refine ⟨⟨t :: done, Function.update val t text, after, fun x member => ?_,
        fun _ _ impossible => by simp [outside] at impossible, fun x member => ?_⟩, outside⟩
      · by_cases same : x = t
        · rw [same, Function.update_self]
          exact opened t text inside
        · rw [Function.update_of_ne same]
          exact closed x ((List.mem_cons.mp member).resolve_left same)
      · rcases all x member with before | ⟨text', now⟩
        · exact Or.inl (List.mem_cons_of_mem _ before)
        · rw [inside] at now
          cases now
          exact Or.inl List.mem_cons_self

theorem Reading.endData_ok (reading : Reading saved good seen s) (texts : Texts saved)
    (loads : ∀ t text, good t text → ∀ l ∈ allLates saved, l.tag = t → Loads saved l text) :
    ∃ s', s.endData none = .ok s' := by
  obtain ⟨done, val, filled, _, opened, _⟩ := reading
  cases inside : s.data with
  | none => exact ⟨s, by rw [Reader.endData, inside]⟩
  | some section_ => exact (filled.endData texts inside).1 (loads _ _ (opened _ _ inside))

theorem Reading.startData (reading : Reading saved good seen s) (outside : s.data = none) (fits : good t text) :
    Reading saved good (t :: seen) { s with data := some (t, text) } := by
  obtain ⟨done, val, filled, closed, _, all⟩ := reading
  refine ⟨done, val, ⟨filled.late, filled.stored⟩, closed, fun t' text' now => ?_, fun x member => ?_⟩
  · cases now
    exact fits
  · rcases List.mem_cons.mp member with rfl | before
    · exact Or.inr ⟨text, rfl⟩
    · rcases all x before with old | ⟨text', now⟩
      · exact Or.inl old
      · rw [outside] at now
        cases now

/-! ### The lines of a section -/

theorem parseLine_startData (token : Text.Token t) : s.parseLine (boundary ++ ' ' :: t) =
    (s.endData none).bind fun s₁ => .ok { s₁ with data := some (t, []) } := by
  have content : ¬(boundary ++ ' ' :: t).head? = some '#' := by
    rw [show (boundary ++ ' ' :: t).head? = some '=' from rfl]
    decide
  unfold Reader.parseLine
  rw [if_neg (by simp), if_neg content]
  simp only [words_boundary token]
  rw [if_neg (by simp)]
  rfl

theorem parseLine_endData : s.parseLine boundary = if s.data = none
    then .error (.error "invalid line command".toList) else s.endData none := by
  have line : s.parseLine boundary = if s.data = none
      then .error (.error "invalid line command".toList) else (s.endData none).bind fun s₁ => .ok s₁ := by
    unfold Reader.parseLine
    rw [if_neg (by decide), if_neg (by decide)]
    simp only [boundary_token.words_eq, List.length_singleton, le_refl, true_and]
    split <;> rfl
  rw [line]
  split
  · rfl
  · cases s.endData none <;> rfl

theorem parseLine_dataLine (inside : s.data = some (t, text)) {line : Str} (kept : DataLine line) :
    s.parseLine line = .ok { s with data := some (t, text ++ line ++ ['\n']) } := by
  obtain ⟨_, content, words, other⟩ := kept
  have nonempty : line ≠ [] := by
    rintro rfl
    exact words rfl
  unfold Reader.parseLine
  rw [if_neg nonempty, if_neg content]
  cases shape : Text.words line with
  | nil => exact absurd shape words
  | cons first rest =>
    rw [shape, List.head?_cons] at other
    simp only [inside, reduceCtorEq, and_false, if_false]
    rw [if_neg fun same => other (congrArg some same)]

theorem parseLines_dataLines {ls : List Str} (each : ∀ l ∈ ls, DataLine l) (inside : s.data = some (t, text)) :
    s.parseLines ls = .ok { s with data := some (t, text ++ Text.unlines ls) } := by
  induction ls generalizing s text with
  | nil =>
    rw [Text.unlines_nil, List.append_nil, ← inside]
    rfl
  | cons l ls ih =>
    rw [Reader.parseLines_cons, parseLine_dataLine inside (each l List.mem_cons_self)]
    refine (ih (s := { s with data := some (t, text ++ l ++ ['\n']) })
      (fun l later => each l (List.mem_cons_of_mem _ later)) rfl).trans ?_
    simp

def sectionLines (t text : Str) : List Str := (boundary ++ ' ' :: t) :: Text.lines text

theorem parseLines_section (token : Text.Token t) (data : IsData text) {s₁ : Reader P} (h : s.endData none = .ok s₁) :
    s.parseLines (sectionLines t text) = .ok { s₁ with data := some (t, text) } := by
  obtain ⟨ls, lines, rfl, each⟩ := data.lines
  unfold sectionLines
  rw [Reader.parseLines_cons, parseLine_startData token, h, lines]
  change Reader.parseLines _ (ls ++ [[]]) = _
  rw [Reader.parseLines_append, parseLines_dataLines each rfl]
  rfl

/-- A section that holds a single word may even be over before its end. -/
theorem section_of_parseLines (token : Text.Token t) (tame : Tame True text)
    (h : s.parseLines (sectionLines t text) = .ok s') : ∃ s₁ text', s.endData none = .ok s₁ ∧ IsData text' ∧
      (s' = { s₁ with data := some (t, text') } ∨ Reader.endData { s₁ with data := some (t, text') } none = .ok s') := by
  unfold sectionLines at h
  rw [Reader.parseLines_cons, parseLine_startData token] at h
  obtain ⟨s₂, first, h⟩ := ok_of_bind h
  obtain ⟨s₁, ended, same⟩ := ok_of_bind first
  cases same
  rcases tame with clean | ⟨_, data⟩
  · have single : '\n' ∉ text := fun newline => absurd (clean _ newline) (by decide)
    have empty : IsData [] := ⟨[], rfl, by simp⟩
    rw [Text.lines_of_not_mem single, Reader.parseLines_cons] at h
    obtain ⟨s₂, line, same⟩ := ok_of_bind h
    cases same
    rcases parseLine_cases single line with rfl | ⟨rest, words, line⟩ | ⟨t', text', inside, kept, rfl⟩ | ⟨outside, _⟩
    · exact ⟨s₁, [], ended, empty, Or.inl rfl⟩
    · refine ⟨s₁, [], ended, empty, Or.inr ?_⟩
      rw [Text.words_of_noSpace clean] at words
      have alone : rest = [] := by
        split at words
        · cases words
        · exact (List.cons.inj words).2.symm
      subst alone
      obtain ⟨s₃, past, same⟩ := ok_of_bind line
      cases same
      exact past
    · cases inside
      refine ⟨s₁, text ++ ['\n'], ended, ⟨[text], by simp, by simpa using kept⟩, Or.inl ?_⟩
      simp
    · cases outside
  · have run := parseLines_section token data ended
    unfold sectionLines at run
    rw [Reader.parseLines_cons, parseLine_startData token, ended] at run
    exact ⟨s₁, text, ended, data, Or.inl (Except.ok.inj (h.symm.trans run))⟩

/-! ### The data of a module -/

theorem Reading.mono (reading : Reading saved good seen s) {seen' : List Str} (sub : seen' ⊆ seen) :
    Reading saved good seen' s := by
  obtain ⟨done, val, filled, closed, opened, all⟩ := reading
  exact ⟨done, val, filled, closed, opened, fun t member => all t (sub member)⟩

def dataLines (c : Config P) : List Str :=
  if c.texts = [] then [] else (c.texts.flatMap fun x => sectionLines (tag c.id x.1) x.2) ++ [boundary]

theorem data_lines (tokens : ∀ x ∈ c.texts, Text.Token (tag c.id x.1)) : c.data.flatMap Text.lines = dataLines c := by
  have bound : Text.lines boundary = [boundary] := Text.lines_of_not_mem boundary_token.newline_not_mem
  unfold Config.data dataLines
  split
  · rfl
  · rw [List.flatMap_append, List.flatMap_assoc, List.flatMap_singleton, bound]
    congr 1
    apply List.flatMap_congr
    intro x member
    have start : '\n' ∉ boundary ++ ' ' :: tag c.id x.1 :=
      newline_not_mem_words boundary_token.newline_not_mem (tokens x member).newline_not_mem
    rw [List.flatMap_cons, List.flatMap_singleton, Text.lines_of_not_mem start]
    rfl

section Good

variable {id : Str} {ts : List (Str × Str)}

theorem Reading.sections_ok (texts : Texts saved)
    (loads : ∀ t text, good t text → ∀ l ∈ allLates saved, l.tag = t → Loads saved l text)
    (fits : ∀ x ∈ ts, Text.Token (tag id x.1) ∧ IsData x.2 ∧ good (tag id x.1) x.2)
    (reading : Reading saved good seen s) :
    ∃ s', s.parseLines (ts.flatMap fun x => sectionLines (tag id x.1) x.2) = .ok s' ∧
      Reading saved good (seen ++ ts.map fun x => tag id x.1) s' ∧ (ts ≠ [] → s'.data ≠ none) := by
  induction ts generalizing s seen with
  | nil => exact ⟨s, rfl, by simpa using reading, fun impossible => absurd rfl impossible⟩
  | cons x ts ih =>
    obtain ⟨token, data, fit⟩ := fits x List.mem_cons_self
    obtain ⟨s₁, ended⟩ := reading.endData_ok texts loads
    obtain ⟨after, outside⟩ := reading.endData texts ended
    obtain ⟨s', run, final, opened⟩ := ih (fun x later => fits x (List.mem_cons_of_mem _ later))
      (after.startData outside fit)
    refine ⟨s', ?_, final.mono ?_, fun _ => ?_⟩
    · rw [List.flatMap_cons, Reader.parseLines_append, parseLines_section token data ended]
      exact run
    · intro t member
      simp only [List.map_cons, List.mem_append, List.mem_cons] at member ⊢
      tauto
    · cases ts with
      | nil =>
        cases run
        simp
      | cons y ts => exact opened (by simp)

theorem Reading.sections (texts : Texts saved) (tame : ∀ x ∈ ts, Text.Token (tag id x.1) ∧ Tame True x.2)
    (reading : Reading saved (fun _ => IsData) seen s)
    (h : s.parseLines (ts.flatMap fun x => sectionLines (tag id x.1) x.2) = .ok s') :
    Reading saved (fun _ => IsData) (seen ++ ts.map fun x => tag id x.1) s' := by
  induction ts generalizing s seen with
  | nil =>
    cases h
    simpa using reading
  | cons x ts ih =>
    obtain ⟨token, tame'⟩ := tame x List.mem_cons_self
    rw [List.flatMap_cons, Reader.parseLines_append] at h
    obtain ⟨s₂, first, h⟩ := ok_of_bind h
    obtain ⟨s₁, text, ended, data, next⟩ := section_of_parseLines token tame' first
    obtain ⟨after, outside⟩ := reading.endData texts ended
    have opened : Reading saved (fun _ => IsData) (tag id x.1 :: seen) { s₁ with data := some (tag id x.1, text) } :=
      after.startData outside data
    have middle : Reading saved (fun _ => IsData) (tag id x.1 :: seen) s₂ := by
      rcases next with rfl | early
      · exact opened
      · exact (opened.endData texts early).1
    refine (ih (fun x later => tame x (List.mem_cons_of_mem _ later)) middle h).mono fun t member => ?_
    simp only [List.map_cons, List.mem_append, List.mem_cons] at member ⊢
    tauto

end Good

def tags (c : Config P) : List Str := c.texts.map fun x => tag c.id x.1

theorem Reading.data_ok (texts : Texts saved)
    (loads : ∀ t text, good t text → ∀ l ∈ allLates saved, l.tag = t → Loads saved l text)
    (fits : ∀ x ∈ c.texts, Text.Token (tag c.id x.1) ∧ IsData x.2 ∧ good (tag c.id x.1) x.2)
    (reading : Reading saved good seen s) (outside : s.data = none) :
    ∃ s', s.parseLines (dataLines c) = .ok s' ∧ Reading saved good (seen ++ tags c) s' ∧ s'.data = none := by
  unfold dataLines tags
  split
  · rename_i empty
    rw [empty]
    exact ⟨s, rfl, by simpa using reading, outside⟩
  · rename_i some_
    obtain ⟨s₁, run, final, opened⟩ := reading.sections_ok texts loads fits
    obtain ⟨s', ended⟩ := final.endData_ok texts loads
    refine ⟨s', ?_, final.endData texts ended⟩
    rw [Reader.parseLines_append, run]
    change Reader.parseLines s₁ [boundary] = _
    rw [Reader.parseLines_cons, parseLine_endData, if_neg (opened some_), ended]
    rfl

theorem Reading.data (texts : Texts saved) (tame : ∀ x ∈ c.texts, Text.Token (tag c.id x.1) ∧ Tame True x.2)
    (reading : Reading saved (fun _ => IsData) seen s) (outside : s.data = none)
    (h : s.parseLines (dataLines c) = .ok s') :
    Reading saved (fun _ => IsData) (seen ++ tags c) s' ∧ s'.data = none := by
  unfold dataLines at h
  unfold tags
  split at h
  · rename_i empty
    cases h
    rw [empty]
    exact ⟨by simpa using reading, outside⟩
  · rw [Reader.parseLines_append] at h
    obtain ⟨s₁, run, h⟩ := ok_of_bind h
    have final := reading.sections texts tame run
    rw [Reader.parseLines_cons, parseLine_endData] at h
    obtain ⟨s₂, ended, same⟩ := ok_of_bind h
    cases same
    split at ended
    · cases ended
    · exact final.endData texts ended

end Movid.Preset
