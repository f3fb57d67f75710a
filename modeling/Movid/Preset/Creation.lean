import Movid.Preset.Replay

/-!
# Reading back modules and plain properties

The `create` line of a module and the lines of its properties, run on a pipeline that has no
module with the id: one module is added, and it is the replay of what was written.
-/

namespace Movid.Preset

variable {P : Platform} {w : Net (Config P)} {m : Module (Config P)} {c : Config P} {s s' : Reader P}

def lates (id : Str) (entries : List (Str × Property P)) : List LateSet :=
  entries.filterMap fun entry => if entry.2.isText then some ⟨id, entry.1, tag id entry.1⟩ else none

/-! ### Running the lines -/

def added (w : Net (Config P)) (m : Module (Config P)) : Net (Config P) := (w.allocate m).addElement w.next

theorem setOn_added (w : Net (Config P)) (m : Module (Config P)) (name value : Str) :
    setOn (added w m) w.next name value = added w (setProperty m name value) := by
  unfold setOn added Net.updateModule Net.allocate Net.addElement
  simp

theorem haveError_added (w : Net (Config P)) (m : Module (Config P)) : haveError (added w m) w.next = m.isError := by
  simp [haveError, added, Net.allocate, Net.addElement]

theorem getModuleById_added (wired : ∀ r ∈ w.elements, r ≠ w.next) {id : Str} (fresh : getModuleById w id = none)
    (here : m.state.id = id) : getModuleById (added w m) id = some w.next := by
  unfold getModuleById added Net.addElement Net.allocate at *
  rw [List.find?_append]
  have before : w.elements.find? (fun r => decide ((Function.update w.modules w.next (some m) r).map
      (·.state.id) = some id)) = none := by
    rw [List.find?_eq_none] at fresh ⊢
    intro r inside
    rw [Function.update_of_ne (wired r inside)]
    exact fresh r inside
  rw [before]
  simp [here]

theorem set_words {id name value : Str} (short : (Text.words value).length ≤ 1) :
    s.set (id :: name :: Text.words value) = s.assign id name (readBack value) := by
  unfold readBack
  generalize Text.words value = tokens at short
  match tokens, short with
  | [], _ => rfl
  | [_], _ => rfl

/-- What has to hold of a property for its line to be read as one command. -/
def Written (entry : Str × Property P) : Prop :=
  Text.Token entry.1 ∧ (entry.2.isText = false → Plain entry.2.asString)

variable {t : ModuleType} {id : Str}

theorem parseLine_setting {entry : Str × Property P} (written : Written entry) (idToken : Text.Token id)
    (wired : ∀ r ∈ w.elements, r ≠ w.next) (fresh : getModuleById w id = none) (settable : Settable t id m)
    (net : s.net = added w m) (outside : s.data = none) :
    s.parseLine (settingLine id entry) =
      if entry.2.isText then .ok { s with late := s.late ++ [⟨id, entry.1, tag id entry.1⟩] }
      else if (applySetting m entry).isError then
        .error (moduleError (added w (applySetting m entry)) w.next)
      else .ok { s with net := added w (applySetting m entry) } := by
  obtain ⟨nameToken, plain⟩ := written
  unfold settingLine applySetting
  cases text : entry.2.isText with
  | true =>
    simp only [if_true]
    exact Reader.parseLine_settext idToken nameToken outside
  | false =>
    simp only [Bool.false_eq_true, if_false]
    rw [Reader.parseLine_set idToken nameToken outside, set_words (plain text).2, Reader.assign, net]
    rw [getModuleById_added wired fresh settable.state_id]
    simp only [setOn_added, haveError_added]

/-- The lines of all properties: accepted if and only if the module has no error in the end. -/
theorem parseLines_settings {entries : List (Str × Property P)} (written : ∀ entry ∈ entries, Written entry)
    (idToken : Text.Token id) (wired : ∀ r ∈ w.elements, r ≠ w.next) (fresh : getModuleById w id = none)
    (settable : Settable t id m) (clear : m.isError = false) (net : s.net = added w m) (outside : s.data = none) :
    s.parseLines (entries.map (settingLine id)) = .ok s' ↔ (entries.foldl applySetting m).isError = false ∧
      s' = { s with net := added w (entries.foldl applySetting m), late := s.late ++ lates id entries } := by
  induction entries generalizing m s with
  | nil =>
    simp only [List.map_nil, Reader.parseLines_nil, List.foldl_nil, clear, lates, List.filterMap_nil, List.append_nil,
      true_and, ← net, Except.ok.injEq]
    exact eq_comm
  | cons entry entries ih =>
    have rest := fun e member => written e (List.mem_cons_of_mem _ member)
    have line := parseLine_setting (written entry List.mem_cons_self) idToken wired fresh settable net outside
    rw [List.map_cons, Reader.parseLines_cons, line, List.foldl_cons]
    cases text : entry.2.isText with
    | true =>
      have same : applySetting m entry = m := by rw [applySetting, if_pos text]
      have first : lates id (entry :: entries) = ⟨id, entry.1, tag id entry.1⟩ :: lates id entries := by
        simp [lates, text]
      rw [same, if_pos rfl, first]
      refine (ih rest (s := { s with late := s.late ++ [⟨id, entry.1, tag id entry.1⟩] }) settable clear net
        outside).trans ?_
      simp only [List.append_assoc, List.singleton_append]
    | false =>
      have first : lates id (entry :: entries) = lates id entries := by simp [lates, text]
      rw [first]
      simp only [Bool.false_eq_true, if_false]
      cases error : (applySetting m entry).isError with
      | true =>
        simp only [if_true, foldl_isError _ _ error]
        constructor
        · intro impossible
          cases impossible
        · rintro ⟨impossible, _⟩
          cases impossible
      | false =>
        simp only [Bool.false_eq_true, if_false]
        exact ih rest (s := { s with net := added w (applySetting m entry) }) (settable.applySetting entry) error rfl
          outside

theorem parseLine_createLine (idToken : Text.Token c.id) (outside : s.data = none) :
    s.parseLine (createLine c.type.name c.id) = .ok s' ↔ getModuleById s.net c.id = none ∧
      s' = { s with
        net := added s.net (Reader.newModule c.type (c.type.construct P s.counters).1 c.id)
        counters := (c.type.construct P s.counters).2 } := by
  obtain ⟨_, clear⟩ := newModule_state (constructed_construct (P := P) c.type s.counters) c.id
  rw [Reader.parseLine_create c.type.name_token idToken outside, Reader.create]
  cases found : getModuleById s.net c.id with
  | some r =>
    constructor
    · intro impossible
      cases impossible
    · rintro ⟨impossible, _⟩
      cases impossible
  | none =>
    have noError : haveError (s.net.allocate (Reader.newModule c.type (c.type.construct P s.counters).1 c.id))
        s.net.next = false := by
      rw [← clear]
      simp [haveError, Net.allocate]
    simp only [ModuleType.ofName_name, noError, Bool.false_eq_true, if_false, Except.ok.injEq, true_and]
    exact eq_comm

/-- All lines of a module: accepted if and only if the id is new and the module has no error in
the end. -/
theorem parseLines_creation (written : ∀ entry ∈ c.props.entries, Written entry) (idToken : Text.Token c.id)
    (wired : ∀ r ∈ s.net.elements, r ≠ s.net.next) (outside : s.data = none) :
    s.parseLines c.creation = .ok s' ↔
      getModuleById s.net c.id = none ∧ (reload s.counters c).isError = false ∧
        s' = { s with
          net := added s.net (reload s.counters c)
          counters := (c.type.construct P s.counters).2
          late := s.late ++ lates c.id c.props.entries } := by
  have constructed := constructed_construct (P := P) c.type s.counters
  obtain ⟨_, clear⟩ := newModule_state constructed c.id
  unfold Config.creation
  rw [Reader.parseLines_cons]
  cases first : s.parseLine (createLine c.type.name c.id) with
  | error failure =>
    constructor
    · intro impossible
      cases impossible
    · rintro ⟨fresh, _, _⟩
      have accepted := (parseLine_createLine idToken outside).mpr ⟨fresh, rfl⟩
      rw [first] at accepted
      cases accepted
  | ok s₁ =>
    obtain ⟨fresh, rfl⟩ := (parseLine_createLine idToken outside).mp first
    have blank (s : Reader P) (lines : List Str) : s.parseLines (lines ++ [[]]) = s.parseLines lines := by
      rw [Reader.parseLines_append]
      cases s.parseLines lines <;> rfl
    change Reader.parseLines _ _ = _ ↔ _
    rw [blank]
    refine (parseLines_settings (s := { s with
      net := added s.net (Reader.newModule c.type (c.type.construct P s.counters).1 c.id)
      counters := (c.type.construct P s.counters).2 }) written idToken wired fresh
      (newModule_settable constructed c.id) clear rfl outside).trans ?_
    simp only [fresh, true_and]
    exact Iff.rfl

/-! ### All modules -/

/-- The pipeline holds one reloaded module for each saved one, in the order of the references. -/
structure Rebuilt (saved : List (Config P)) (w : Net (Config P)) : Prop where
  elements : w.elements = List.range saved.length
  next : w.next = saved.length
  modules : ∀ i c, saved[i]? = some c → ∃ counters, w.modules i = some (reload counters c) ∧ FilesLoad c

theorem Rebuilt.empty : Rebuilt [] (Net.empty : Net (Config P)) := ⟨rfl, rfl, fun i c h => by cases h⟩

theorem Rebuilt.wired {saved : List (Config P)} (rebuilt : Rebuilt saved w) : ∀ r ∈ w.elements, r ≠ w.next := by
  intro r inside
  rw [rebuilt.elements] at inside
  rw [rebuilt.next]
  exact Nat.ne_of_lt (List.mem_range.mp inside)

theorem Rebuilt.getModuleById_none {saved : List (Config P)} (rebuilt : Rebuilt saved w) (id : Str) :
    getModuleById w id = none ↔ ∀ c ∈ saved, c.id ≠ id := by
  unfold getModuleById
  rw [List.find?_eq_none, rebuilt.elements]
  constructor
  · intro none c member same
    obtain ⟨i, at_i⟩ := List.getElem?_of_mem member
    obtain ⟨counters, found, _⟩ := rebuilt.modules i c at_i
    refine none i (List.mem_range.mpr (List.getElem?_eq_some_iff.mp at_i).1) ?_
    simp [found, (reload_settable counters c).state_id, same]
  · intro other i inside
    have bound := List.mem_range.mp inside
    obtain ⟨counters, found, _⟩ := rebuilt.modules i _ (List.getElem?_eq_getElem bound)
    have apart := other _ (List.getElem_mem bound)
    simpa [found, (reload_settable counters _).state_id] using apart

theorem Rebuilt.add {saved : List (Config P)} (rebuilt : Rebuilt saved w) (counters : Counters) (loads : FilesLoad c) :
    Rebuilt (saved ++ [c]) (added w (reload counters c)) where
  elements := by
    rw [added, Net.addElement, Net.allocate]
    simp [rebuilt.elements, rebuilt.next, List.range_succ]
  next := by
    simp [added, Net.addElement, Net.allocate, rebuilt.next]
  modules i d h := by
    change ∃ counters', Function.update w.modules w.next (some (reload counters c)) i = _ ∧ _
    rw [rebuilt.next]
    by_cases last : i = saved.length
    · subst last
      rw [List.getElem?_concat_length] at h
      cases h
      exact ⟨counters, Function.update_self .., loads⟩
    · have bound : i < saved.length := by
        have inside := (List.getElem?_eq_some_iff.mp h).1
        rw [List.length_append] at inside
        exact Nat.lt_of_le_of_ne (Nat.le_of_lt_succ inside) last
      rw [List.getElem?_append_left bound] at h
      rw [Function.update_of_ne last]
      exact rebuilt.modules i d h

/-- A module that is created can be counted among the saved ones. -/
theorem creatable_cons {saved rest : List (Config P)} {c : Config P} (apart : ∀ d ∈ saved, d.id ≠ c.id) (loads : FilesLoad c) :
    ((∀ d ∈ rest, (∀ e ∈ saved ++ [c], e.id ≠ d.id) ∧ FilesLoad d) ∧ (rest.map (·.id)).Nodup) ↔
      (∀ d ∈ c :: rest, (∀ e ∈ saved, e.id ≠ d.id) ∧ FilesLoad d) ∧ ((c :: rest).map (·.id)).Nodup := by
  simp only [List.mem_append, List.mem_singleton, List.forall_mem_cons, List.map_cons, List.nodup_cons, List.mem_map, not_exists, not_and]
  constructor
  · rintro ⟨all, distinct⟩
    refine ⟨⟨⟨apart, loads⟩, fun d member => ⟨fun e inside => (all d member).1 e (Or.inl inside), (all d member).2⟩⟩,
      fun d member same => ?_, distinct⟩
    exact (all d member).1 c (Or.inr rfl) same.symm
  · rintro ⟨⟨_, all⟩, new, distinct⟩
    refine ⟨fun d member => ⟨?_, (all d member).2⟩, distinct⟩
    rintro e (inside | rfl)
    · exact (all d member).1 e inside
    · exact fun same => new d member same.symm

/-- The creation lines of all modules: accepted if and only if the ids are distinct and the
files load. -/
theorem parseLines_creations {saved rest : List (Config P)} (rebuilt : Rebuilt saved s.net)
    (written : ∀ c ∈ rest, Text.Token c.id ∧ ∀ entry ∈ c.props.entries, Written entry) (outside : s.data = none) :
    ((∃ s', s.parseLines (rest.flatMap Config.creation) = .ok s') ↔
      (∀ c ∈ rest, (∀ d ∈ saved, d.id ≠ c.id) ∧ FilesLoad c) ∧ (rest.map (·.id)).Nodup) ∧
    ∀ s', s.parseLines (rest.flatMap Config.creation) = .ok s' → Rebuilt (saved ++ rest) s'.net ∧ s'.data = none ∧
      s'.late = s.late ++ rest.flatMap fun c => lates c.id c.props.entries := by
  induction rest generalizing saved s with
  | nil =>
    refine ⟨by simp [Reader.parseLines_nil], fun s' h => ?_⟩
    cases h
    exact ⟨by simpa using rebuilt, outside, by simp⟩
  | cons c rest ih =>
    obtain ⟨idToken, entries⟩ := written c List.mem_cons_self
    have others := fun d member => written d (List.mem_cons_of_mem _ member)
    have one (s' : Reader P) : s.parseLines c.creation = .ok s' ↔ _ :=
      parseLines_creation entries idToken rebuilt.wired outside
    rw [List.flatMap_cons, Reader.parseLines_append]
    cases first : s.parseLines c.creation with
    | error failure =>
      refine ⟨?_, fun s' impossible => by cases impossible⟩
      constructor
      · rintro ⟨s', impossible⟩
        cases impossible
      · rintro ⟨all, _⟩
        obtain ⟨apart, loads⟩ := all c List.mem_cons_self
        have accepted := (one _).mpr ⟨(rebuilt.getModuleById_none _).mpr apart, (reload_isError_iff _ c).mpr loads, rfl⟩
        rw [first] at accepted
        cases accepted
    | ok s₁ =>
      obtain ⟨fresh, clear, rfl⟩ := (one s₁).mp first
      have apart := (rebuilt.getModuleById_none _).mp fresh
      have loads := (reload_isError_iff _ c).mp clear
      have next := rebuilt.add s.counters loads
      obtain ⟨accepted, result⟩ := ih (s := { s with
        net := added s.net (reload s.counters c)
        counters := (c.type.construct P s.counters).2
        late := s.late ++ lates c.id c.props.entries }) next others outside
      refine ⟨accepted.trans (creatable_cons apart loads), fun s' run => ?_⟩
      obtain ⟨final, closed, late⟩ := result s' run
      refine ⟨by simpa using final, closed, ?_⟩
      rw [late, List.flatMap_cons, List.append_assoc]

/-! ### The lines of the file -/

theorem header_newline {date : Str} (oneLine : '\n' ∉ date) : ∀ line ∈ header date, '\n' ∉ line := by
  have rule : '\n' ∉ "# ================================================================".toList := by decide
  have start : '\n' ∉ "# PIPELINE AUTOGENERATED on ".toList := by decide
  unfold header
  simp only [List.forall_mem_cons, List.mem_append, not_or]
  exact ⟨rule, ⟨start, oneLine⟩, rule, List.not_mem_nil, fun _ impossible => nomatch impossible⟩

theorem parseLines_header (date : Str) : s.parseLines (header date) = .ok s := rfl

/-- The line of the property is one line. -/
def OneLine (entry : Str × Property P) : Prop :=
  Text.Token entry.1 ∧ (entry.2.isText = false → '\n' ∉ entry.2.asString)

theorem Written.oneLine {entry : Str × Property P} (written : Written entry) : OneLine entry :=
  ⟨written.1, fun plain => (written.2 plain).1⟩

theorem settingLine_newline (idToken : Text.Token id) {entry : Str × Property P} (oneLine : OneLine entry) :
    '\n' ∉ settingLine id entry := by
  obtain ⟨token, single⟩ := oneLine
  unfold settingLine
  split
  · exact setTextLine_newline idToken token
  · rename_i notText
    exact setLine_newline idToken token (single (by simpa using notText))

theorem creation_newline (idToken : Text.Token c.id) (oneLine : ∀ entry ∈ c.props.entries, OneLine entry) :
    ∀ line ∈ c.creation, '\n' ∉ line := by
  intro line member
  rcases List.mem_cons.mp member with rfl | member
  · exact createLine_newline c.type.name_token idToken
  · rcases List.mem_append.mp member with member | last
    · obtain ⟨entry, inside, rfl⟩ := List.mem_map.mp member
      exact settingLine_newline idToken (oneLine entry inside)
    · rw [List.mem_singleton.mp last]
      exact List.not_mem_nil

theorem creations_lines {saved : List (Config P)}
    (oneLine : ∀ c ∈ saved, Text.Token c.id ∧ ∀ entry ∈ c.props.entries, OneLine entry) :
    (saved.flatMap Config.creation).flatMap Text.lines = saved.flatMap Config.creation := by
  apply Text.flatMap_lines
  intro line member
  obtain ⟨c, inside, here⟩ := List.mem_flatMap.mp member
  exact creation_newline (oneLine c inside).1 (oneLine c inside).2 line here

end Movid.Preset
