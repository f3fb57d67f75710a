import Movid.Lib.Lists
import Movid.Preset.Tidy

/-!
# Modules and plain properties after a reload

The requests `/pipeline/create` and `/pipeline/set` lead to pipelines without connections and
text properties. Such a pipeline comes back from its own preset if and only if every word of the
preset is read as the one that was meant.
-/

namespace Movid.Preset

variable {P : Platform} {w : Net (Config P)} {m : Module (Config P)} {c : Config P} {s : Reader P}

/-! ### The requests -/

structure Program (P : Platform) where
  net : Net (Config P)
  counters : Counters

/-- The fields of a query. The handler of `set` takes the names and the values off one by one. -/
inductive Query where
  | create (objectname : Option Str)
  | set (objectname : Option Str) (names values : List Str)

namespace Program

def webPipelineCreate (p : Program P) (objectname : Option Str) : Program P :=
  match objectname.bind ModuleType.ofName with
  | none => p
  | some t =>
    let (config, counters) := t.construct P p.counters
    { net := p.net.webPipelineCreate (t.spec P config), counters }

def webPipelineSet (p : Program P) (objectname : Option Str) (names values : List Str) : Program P :=
  match objectname.bind (getModuleById p.net) with
  | none => p
  | some r => { p with net := (names.zip values).foldl (fun w pair => setOn w r pair.1 pair.2) p.net }

def step (p : Program P) : Query → Program P
  | .create objectname => p.webPipelineCreate objectname
  | .set objectname names values => p.webPipelineSet objectname names values

end Program

/-- No stream has an observer and no property is text. -/
structure Bare (w : Net (Config P)) : Prop where
  observers : ∀ s, w.observers s = []
  plain : ∀ r m, w.modules r = some m → ∀ name, (m.state.property name).isText = false

theorem setProperty_isText (m : Module (Config P)) (name value x : Str) :
    ((setProperty m name value).state.property x).isText = (m.state.property x).isText := by
  have set (c : Config P) (name value : Str) : ((c.set name value).property x).isText = (c.property x).isText := by
    rw [Config.property_set]
    split
    · rename_i here
      rw [set_isText, here]
    · rfl
  unfold setProperty
  simp only []
  split
  · exact set m.state name value
  · unfold fireCallback
    split
    · exact set m.state name value
    · split <;> exact set m.state name value
    · exact (set _ _ _).trans (set m.state name value)

theorem Bare.setOn (bare : Bare w) (r : ModuleRef) (name value : Str) : Bare (setOn w r name value) := by
  refine ⟨bare.observers, fun x m found other => ?_⟩
  change (w.updateModule r _).modules x = some m at found
  rw [Net.updateModule_modules] at found
  split at found
  · obtain ⟨m', old, rfl⟩ := Option.map_eq_some_iff.mp found
    rw [setProperty_isText]
    exact bare.plain r m' old other
  · exact bare.plain x m found other

theorem Bare.create (bare : Bare w) {t : ModuleType} (constructed : Constructed t c) :
    Bare (w.webPipelineCreate (t.spec P c)) := by
  refine ⟨bare.observers, fun x m found other => ?_⟩
  change Function.update w.modules w.next (some (t.spec P c).build) x = some m at found
  rw [Function.update_apply] at found
  split at found
  · cases found
    exact (constructed.plain other).1
  · exact bare.plain x m found other

theorem step_bare {p : Program P} (bare : Bare p.net) (query : Query) : Bare (p.step query).net := by
  cases query with
  | create objectname =>
    change Bare (p.webPipelineCreate objectname).net
    unfold Program.webPipelineCreate
    split
    · exact bare
    · exact bare.create (constructed_construct _ p.counters)
  | set objectname names values =>
    change Bare (p.webPipelineSet objectname names values).net
    unfold Program.webPipelineSet
    split
    · exact bare
    · rename_i r _
      simp only []
      generalize names.zip values = pairs
      generalize p.net = w at bare
      induction pairs generalizing w with
      | nil => exact bare
      | cons pair pairs ih => exact ih _ (bare.setOn r pair.1 pair.2)

/-- What the requests make of an empty pipeline. -/
def Reached (p : Program P) : Prop :=
  ∃ counters queries, p = Machine.run Program.step (⟨Net.empty, counters⟩ : Program P) queries

theorem run_bare (counters : Counters) (queries : List Query) :
    Bare (Machine.run Program.step (⟨Net.empty, counters⟩ : Program P) queries).net :=
  Machine.run_invariant (I := fun p : Program P => Bare p.net) (fun _ query bare => step_bare bare query)
    ⟨fun _ => rfl, fun _ _ found => by cases found⟩ queries

theorem Bare.entry_plain (bare : Bare w) (member : c ∈ configs w) {entry : Str × Property P}
    (inside : entry ∈ c.props.entries) : entry.2.isText = false := by
  obtain ⟨r, _, found⟩ := List.mem_filterMap.mp member
  obtain ⟨m, live, rfl⟩ := Option.map_eq_some_iff.mp found
  rw [← Config.property_of_find (OrderedMap.find_of_mem _ inside)]
  exact bare.plain r m live entry.1

theorem Bare.connectionLines (bare : Bare w) : connectionLines w = [] := by
  unfold Preset.connectionLines connections
  apply List.flatMap_eq_nil_iff.mpr
  intro r _
  split
  · rfl
  · apply List.flatMap_eq_nil_iff.mpr
    intro i _
    rw [bare.observers, List.filterMap_nil]

theorem Bare.data (bare : Bare w) : (configs w).flatMap Config.data = [] := by
  apply List.flatMap_eq_nil_iff.mpr
  intro c member
  refine if_pos (List.filterMap_eq_nil_iff.mpr fun entry inside => ?_)
  simp [bare.entry_plain member inside]

/-! ### The file -/

theorem Bare.parse_eq (bare : Bare w) {date : Str} (oneLine : '\n' ∉ date) :
    s.parse (serializeCreation date w) = s.parseLines (((configs w).flatMap Config.creation).flatMap Text.lines) := by
  unfold Reader.parse serializeCreation
  rw [bare.connectionLines, bare.data, List.append_nil, List.append_nil, Text.lines_unlines, List.flatMap_append,
    Text.flatMap_lines (header_newline oneLine), List.append_assoc, Reader.parseLines_append, parseLines_header]
  change Reader.parseLines s _ = _
  rw [Reader.parseLines_append]
  cases s.parseLines (((configs w).flatMap Config.creation).flatMap Text.lines) <;> rfl

/-- What may go wrong, for each module. -/
structure Reloads (saved : List (Config P)) : Prop where
  ids : ∀ c ∈ saved, Text.Token c.id
  distinct : (saved.map (·.id)).Nodup
  names : ∀ c ∈ saved, ∀ entry ∈ c.props.entries, Text.Token entry.1
  values : ∀ c ∈ saved, ∀ entry ∈ c.props.entries, Text.NoSpace entry.2.asString
  stable : ∀ c ∈ saved, ∀ entry ∈ c.props.entries, entry.2.value.Stable
  files : ∀ c ∈ saved, ∀ entry ∈ c.props.entries, ∀ msg, c.type.callback entry.1 = .loadImage msg →
    P.loads entry.2.asString = true

structure SameModule (c c' : Config P) : Prop where
  type : c'.type.name = c.type.name
  id : c'.id = c.id
  values : ∀ name p, c.props.find name = some p → p.isText = false →
    ∃ p', c'.props.find name = some p' ∧ p'.asString = p.asString

theorem plain_of_noSpace {value : Str} (clean : Text.NoSpace value) :
    Plain value ∧ readBack value = value := by
  refine ⟨⟨fun newline => absurd (clean _ newline) (by decide), ?_⟩, ?_⟩
  · rw [Text.words_of_noSpace clean]
    split <;> simp
  · rw [readBack, Text.words_of_noSpace clean]
    split
    · rename_i empty
      exact empty.symm
    · rfl

/-! ### What the file says -/

theorem setting_lines {id : Str} (idToken : Text.Token id) {entry : Str × Property P} (nameToken : Text.Token entry.1)
    (plain : entry.2.isText = false) (tame : Tame True entry.2.asString) {line : Str}
    (member : line ∈ Text.lines (settingLine id entry)) : (Text.words line).head? ≠ some boundary := by
  have start : settingLine id entry = setLine id entry.1 [] ++ entry.2.asString := by
    rw [settingLine, plain]
    exact setLine_value ..
  have clean : '\n' ∉ setLine id entry.1 [] := setLine_newline idToken nameToken List.not_mem_nil
  rw [start, Text.lines_append_of_not_mem clean] at member
  cases shape : Text.lines entry.2.asString with
  | nil => exact absurd shape (List.splitOn_ne_nil _ _)
  | cons first rest =>
    rw [shape, List.modifyHead_cons] at member
    rcases List.mem_cons.mp member with rfl | later
    · exact head_pipeline ("set ".toList ++ (id ++ ' ' :: (entry.1 ++ [' '])) ++ first)
    · rcases tame with clean | ⟨_, data⟩
      · rw [Text.lines_of_not_mem fun newline => absurd (clean _ newline) (by decide)] at shape
        cases shape
        cases later
      · exact data.noBoundary line (shape ▸ List.mem_cons_of_mem _ later)

theorem creation_lines (idToken : Text.Token c.id) (names : ∀ entry ∈ c.props.entries, Text.Token entry.1)
    (plain : ∀ entry ∈ c.props.entries, entry.2.isText = false)
    (tame : ∀ entry ∈ c.props.entries, Tame True entry.2.asString) {line : Str}
    (member : line ∈ c.creation.flatMap Text.lines) : (Text.words line).head? ≠ some boundary := by
  obtain ⟨piece, inside, member⟩ := List.mem_flatMap.mp member
  rcases List.mem_cons.mp inside with rfl | inside
  · rw [Text.lines_of_not_mem (createLine_newline c.type.name_token idToken)] at member
    rw [List.mem_singleton.mp member]
    exact head_pipeline ("create ".toList ++ (c.type.name ++ ' ' :: c.id))
  · rcases List.mem_append.mp inside with inside | last
    · obtain ⟨entry, here, rfl⟩ := List.mem_map.mp inside
      exact setting_lines idToken (names entry here) (plain entry here) (tame entry here) member
    · rw [List.mem_singleton.mp last] at member
      rw [List.mem_singleton.mp member]
      simp

/-! ### What comes out -/

theorem Settable.find_id {t : ModuleType} {id : Str} (settable : Settable t id m) :
    ∃ p, m.state.props.find "id".toList = some p ∧ p.asString = id := by
  have property := settable.id_eq
  unfold Config.property at property
  cases found : m.state.props.find "id".toList with
  | none =>
    rw [found] at property
    cases property
  | some p =>
    rw [found, Option.getD_some] at property
    exact ⟨p, rfl, property ▸ rfl⟩

theorem sameModule_reload (counters : Counters) (plain : ∀ entry ∈ c.props.entries, entry.2.isText = false)
    (values : ∀ entry ∈ c.props.entries, Text.NoSpace entry.2.asString) :
    SameModule c (reload counters c).state ↔ ∀ entry ∈ c.props.entries, entry.2.value.Stable := by
  have settable := reload_settable counters c
  have restored {entry : Str × Property P} (member : entry ∈ c.props.entries) (notId : entry.1 ≠ "id".toList) :
      ∃ p, (reload counters c).state.props.find entry.1 = some p ∧
        (p.asString = entry.2.asString ↔ entry.2.value.Stable) := by
    obtain ⟨p, found, value⟩ := reload_find counters member (plain entry member) notId
    rw [(plain_of_noSpace (values entry member)).2] at value
    refine ⟨p, found, ?_⟩
    rw [Property.asString, value]
    exact Iff.rfl
  have isId {entry : Str × Property P} (member : entry ∈ c.props.entries) (same : entry.1 = "id".toList) :
      c.property "id".toList = entry.2 := same ▸ Config.property_of_find (OrderedMap.find_of_mem _ member)
  constructor
  · intro sameModule entry member
    by_cases same : entry.1 = "id".toList
    · have type := c.property_type "id".toList
      rw [isId member same, ModuleType.declaredType_id] at type
      exact Value.stable_of_not_double (by rw [type]; decide)
    · obtain ⟨p, found, stable⟩ := restored member same
      obtain ⟨p', found', equal⟩ :=
        sameModule.values _ _ (OrderedMap.find_of_mem _ member) (plain entry member)
      rw [found] at found'
      cases found'
      exact stable.mp equal
  · intro stable
    refine ⟨congrArg ModuleType.name settable.type, settable.state_id, fun name p found _ => ?_⟩
    have member := OrderedMap.mem_of_find found
    by_cases same : name = "id".toList
    · subst same
      obtain ⟨p', found', equal⟩ := settable.find_id
      exact ⟨p', found', equal.trans (congrArg Property.asString (isId member rfl))⟩
    · obtain ⟨p', found', iff⟩ := restored member same
      exact ⟨p', found', iff.mpr (stable _ member)⟩

theorem Rebuilt.configs_reload {saved : List (Config P)} (rebuilt : Rebuilt saved w) :
    List.Forall₂ (fun c c' => ∃ counters, c' = (reload counters c).state) saved (configs w) := by
  unfold Preset.configs
  rw [rebuilt.elements]
  apply Lists.forall₂_filterMap_range
  intro i c here
  obtain ⟨counters, found, _⟩ := rebuilt.modules i c here
  exact ⟨_, by rw [found]; rfl, counters, rfl⟩

/-- A module that some preset can bring back has only words in it, or texts from a data part. -/
theorem SameModule.tidy {sections : Prop} {c' : Config P} (same : SameModule c c') (tidy : TidyConfig sections c')
    (plain : ∀ entry ∈ c.props.entries, entry.2.isText = false) :
    Text.Token c.id ∧ ∀ entry ∈ c.props.entries, Text.Token entry.1 ∧ Tame sections entry.2.asString := by
  refine ⟨same.id ▸ tidy.id, fun entry member => ?_⟩
  obtain ⟨p, found, equal⟩ := same.values _ _ (OrderedMap.find_of_mem _ member) (plain entry member)
  have inside := OrderedMap.mem_of_find found
  have value := tidy.values _ inside
  rw [equal] at value
  exact ⟨tidy.names (entry.1, p) inside, value⟩

variable {date : Str} {counters : Counters} {delay : Int32}

/-- If the preset brings all modules back, there is no white space in any of their values. No
line of the preset starts with the boundary, so none of them was in a data part. -/
theorem Bare.words (bare : Bare w) (oneLine : '\n' ∉ date)
    (run : (Reader.start (Net.empty : Net (Config P)) counters delay).parse (serializeCreation date w) = .ok s)
    (same : List.Forall₂ SameModule (configs w) (configs s.net)) :
    ∀ c ∈ configs w, Text.Token c.id ∧ ∀ entry ∈ c.props.entries,
      Text.Token entry.1 ∧ Text.NoSpace entry.2.asString := by
  rw [bare.parse_eq oneLine] at run
  have single : ∀ line ∈ ((configs w).flatMap Config.creation).flatMap Text.lines, '\n' ∉ line := by
    intro line member
    obtain ⟨_, _, inside⟩ := List.mem_flatMap.mp member
    exact Text.newline_not_mem_of_mem_lines inside
  have tidied {sections : Prop} (tidy : Tidy sections s) : ∀ c ∈ configs w, Text.Token c.id ∧
      ∀ entry ∈ c.props.entries, Text.Token entry.1 ∧ Tame sections entry.2.asString := by
    intro c member
    obtain ⟨c', inside, equal⟩ := Lists.forall₂_mem_left same member
    exact equal.tidy (tidy.config inside) fun entry => bare.entry_plain member
  have anyway : Tidy True s := (Tidy.start counters delay).parseLines single (fun _ _ _ => trivial) run
  have first := tidied anyway
  have noBoundary : ∀ line ∈ ((configs w).flatMap Config.creation).flatMap Text.lines,
      (Text.words line).head? ≠ some boundary := by
    intro line member
    rw [List.flatMap_assoc] at member
    obtain ⟨c, inside, here⟩ := List.mem_flatMap.mp member
    obtain ⟨token, entries⟩ := first c inside
    exact creation_lines token (fun entry member => (entries entry member).1) (fun entry => bare.entry_plain inside)
      (fun entry member => (entries entry member).2) here
  intro c member
  have tidy : Tidy False s := (Tidy.start counters delay).parseLines single noBoundary run
  obtain ⟨token, entries⟩ := tidied tidy c member
  refine ⟨token, fun entry inside => ⟨(entries entry inside).1, ?_⟩⟩
  rcases (entries entry inside).2 with clean | ⟨impossible, _⟩
  · exact clean
  · exact impossible.elim

theorem filesLoad_iff (plain : ∀ entry ∈ c.props.entries, entry.2.isText = false)
    (values : ∀ entry ∈ c.props.entries, Text.NoSpace entry.2.asString) :
    FilesLoad c ↔ ∀ entry ∈ c.props.entries, ∀ msg, c.type.callback entry.1 = .loadImage msg →
      P.loads entry.2.asString = true := by
  apply forall₂_congr
  intro entry member
  rw [(plain_of_noSpace (values entry member)).2]
  simp [plain entry member]

theorem Bare.reloaded_iff (bare : Bare w) (oneLine : '\n' ∉ date) (counters : Counters) (delay : Int32) :
    (∃ s, (Reader.start (Net.empty : Net (Config P)) counters delay).parse (serializeCreation date w) = .ok s ∧
      List.Forall₂ SameModule (configs w) (configs s.net)) ↔ Reloads (configs w) := by
  -- Both sides say that the ids, names and values are words; from there on every line is one command.
  suffices worded : ∀ (words : ∀ c ∈ configs w, Text.Token c.id ∧ ∀ entry ∈ c.props.entries,
      Text.Token entry.1 ∧ Text.NoSpace entry.2.asString),
      (∃ s, (Reader.start (Net.empty : Net (Config P)) counters delay).parse (serializeCreation date w) = .ok s ∧
        List.Forall₂ SameModule (configs w) (configs s.net)) ↔ Reloads (configs w) by
    constructor
    · rintro ⟨s, run, same⟩
      exact (worded (bare.words oneLine run same)).mp ⟨s, run, same⟩
    · intro reloads
      refine (worded fun c member => ⟨reloads.ids c member, fun entry inside => ?_⟩).mpr reloads
      exact ⟨reloads.names c member entry inside, reloads.values c member entry inside⟩
  intro words
  have plain {c : Config P} (member : c ∈ configs w) (entry : Str × Property P) (inside : entry ∈ c.props.entries) :=
    bare.entry_plain member inside
  have values {c : Config P} (member : c ∈ configs w) (entry : Str × Property P) (inside : entry ∈ c.props.entries) :=
    ((words c member).2 entry inside).2
  have written : ∀ c ∈ configs w, Text.Token c.id ∧ ∀ entry ∈ c.props.entries, Written entry := fun c member =>
    ⟨(words c member).1, fun entry inside => ⟨((words c member).2 entry inside).1, fun _ =>
      (plain_of_noSpace (values member entry inside)).1⟩⟩
  obtain ⟨accepted, result⟩ := parseLines_creations (s := Reader.start Net.empty counters delay) Rebuilt.empty written rfl
  rw [bare.parse_eq oneLine, creations_lines fun c member => ⟨(written c member).1, fun entry inside => ((written c member).2 entry inside).oneLine⟩]
  have same {s : Reader P} (rebuilt : Rebuilt ([] ++ configs w) s.net) :
      List.Forall₂ SameModule (configs w) (configs s.net) ↔
        ∀ c ∈ configs w, ∀ entry ∈ c.props.entries, entry.2.value.Stable := by
    apply Lists.forall₂_iff_forall_mem rebuilt.configs_reload
    intro c member c' made
    obtain ⟨counters, rfl⟩ := made
    exact sameModule_reload counters (plain member) (values member)
  constructor
  · rintro ⟨s, run, equal⟩
    obtain ⟨fresh, distinct⟩ := accepted.mp ⟨s, run⟩
    obtain ⟨rebuilt, _⟩ := result s run
    exact ⟨fun c member => (words c member).1, distinct,
      fun c member entry inside => ((words c member).2 entry inside).1, fun c member => values member,
      (same rebuilt).mp equal, fun c member => (filesLoad_iff (plain member) (values member)).mp (fresh c member).2⟩
  · intro reloads
    obtain ⟨s, run⟩ := accepted.mpr ⟨fun c member => ⟨by simp, (filesLoad_iff (plain member) (values member)).mpr
      (reloads.files c member)⟩, reloads.distinct⟩
    obtain ⟨rebuilt, _⟩ := result s run
    exact ⟨s, run, (same rebuilt).mpr reloads.stable⟩

/-- In every pipeline that the requests lead to. -/
theorem modules_reloaded_iff {p : Program P} (reached : Reached p) (oneLine : '\n' ∉ date) (counters : Counters)
    (delay : Int32) :
    (∃ s, (Reader.start (Net.empty : Net (Config P)) counters delay).parse (serializeCreation date p.net) = .ok s ∧
      List.Forall₂ SameModule (configs p.net) (configs s.net)) ↔ Reloads (configs p.net) := by
  obtain ⟨initial, queries, rfl⟩ := reached
  exact (run_bare initial queries).reloaded_iff oneLine counters delay

open Platform (whole)

/-- One module of the type, with one property set. -/
def single (type name value : Str) : Program whole :=
  Machine.run Program.step ⟨Net.empty, ⟨1, 0⟩⟩ [.create (some type), .set (some (type ++ ['1'])) [name] [value]]

theorem modules_reloaded_erode :
    ∃ s, (Reader.start (Net.empty : Net (Config whole)) ⟨1, 0⟩ 20).parse
        (serializeCreation "01/02/10 12:00:00".toList (single "Erode".toList "iterations".toList "3".toList).net) = .ok s ∧
      List.Forall₂ SameModule (configs (single "Erode".toList "iterations".toList "3".toList).net) (configs s.net) := by
  refine (modules_reloaded_iff ⟨_, _, rfl⟩ (by decide) _ _).mpr ⟨?_, ?_, ?_, ?_, ?_, ?_⟩
  · decide +kernel
  · decide +kernel
  · decide +kernel
  · decide +kernel
  · unfold Value.Stable
    decide +kernel
  · have types : ∀ c ∈ configs (single "Erode".toList "iterations".toList "3".toList).net, c.type = .erode := by
      decide +kernel
    intro c member entry _ msg called
    rw [types c member] at called
    cases called

/-- The title of a window has two words: the line for it has one too many. -/
theorem modules_not_reloaded : Reached (single "ImageDisplay".toList "name".toList "My window".toList) ∧
    ¬∃ s, (Reader.start (Net.empty : Net (Config whole)) ⟨1, 0⟩ 20).parse (serializeCreation
        "01/02/10 12:00:00".toList (single "ImageDisplay".toList "name".toList "My window".toList).net) = .ok s ∧
      List.Forall₂ SameModule (configs (single "ImageDisplay".toList "name".toList "My window".toList).net)
        (configs s.net) := by
  refine ⟨⟨_, _, rfl⟩, ?_⟩
  rintro ⟨s, run, _⟩
  have refused : ((Reader.start (Net.empty : Net (Config whole)) ⟨1, 0⟩ 20).parse (serializeCreation
      "01/02/10 12:00:00".toList (single "ImageDisplay".toList "name".toList "My window".toList).net)).isOk = false := by
    decide +kernel
  rw [run] at refused
  cases refused

end Movid.Preset
