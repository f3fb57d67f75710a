import Movid.Graph.Consistency
import Movid.Preset.Creation

/-!
# What any text can put into the properties

Whatever the file says, the reader makes ids and names from words. A value is a word as well,
or it was read from the data part, where no line starts with the boundary.
-/

namespace Movid.Preset

variable {P : Platform} {w : Net (Config P)} {m : Module (Config P)} {c : Config P} {s s' : Reader P}

/-! ### What one line can do -/

section Commands

variable {args : List Str}

theorem config_spec (h : s.config args = .ok s') : ∃ delay, s' = { s with delay } := by
  unfold Reader.config at h
  split at h
  · cases h
    split
    · exact ⟨_, rfl⟩
    · exact ⟨s.delay, rfl⟩
  · cases h

theorem create_spec (h : s.create args = .ok s') : ∃ t, ∃ id ∈ args, s' = { s with
    net := added s.net (Reader.newModule t (t.construct P s.counters).1 id)
    counters := (t.construct P s.counters).2 } := by
  unfold Reader.create at h
  split at h
  · split at h
    · cases h
    · split at h
      · cases h
      · rename_i t _
        simp only [] at h
        split at h
        · cases h
        · cases h
          exact ⟨t, _, by simp, rfl⟩
  · cases h

theorem assign_spec {id name value : Str} (h : s.assign id name value = .ok s') :
    ∃ r, s' = { s with net := setOn s.net r name value } := by
  unfold Reader.assign at h
  split at h
  · cases h
  · simp only [] at h
    split at h
    · cases h
    · cases h
      exact ⟨_, rfl⟩

theorem set_spec (h : s.set args = .ok s') :
    ∃ r, ∃ name ∈ args, ∃ value, (value = [] ∨ value ∈ args) ∧ s' = { s with net := setOn s.net r name value } := by
  unfold Reader.set at h
  split at h
  · obtain ⟨r, rfl⟩ := assign_spec h
    exact ⟨r, _, by simp, [], Or.inl rfl, rfl⟩
  · obtain ⟨r, rfl⟩ := assign_spec h
    exact ⟨r, _, by simp, _, Or.inr (by simp), rfl⟩
  · cases h

theorem settext_spec (h : s.settext args = .ok s') :
    ∃ late : LateSet, late.name ∈ args ∧ s' = { s with late := s.late ++ [late] } := by
  unfold Reader.settext at h
  split at h
  · cases h
    exact ⟨_, by simp, rfl⟩
  · cases h

theorem connect_spec (h : s.connect args = .ok s') : ∃ r stream n, s' = { s with net := s.net.setInput r stream n } := by
  unfold Reader.connect at h
  split at h
  · split at h
    · cases h
    · split at h
      · cases h
      · simp only [] at h
        split at h
        · cases h
        · split at h
          · cases h
          · cases h
            exact ⟨_, _, _, rfl⟩
  · cases h

/-- A command changes one thing at a time. -/
inductive Change (s : Reader P) (words : List Str) : Reader P → Prop
  | delay (delay : Int32) : Change s words { s with delay }
  | create (t : ModuleType) {id : Str} (word : id ∈ words) : Change s words { s with
      net := added s.net (Reader.newModule t (t.construct P s.counters).1 id)
      counters := (t.construct P s.counters).2 }
  | set (r : ModuleRef) {name value : Str} (word : name ∈ words) (given : value = [] ∨ value ∈ words) :
      Change s words { s with net := setOn s.net r name value }
  | settext (late : LateSet) (word : late.name ∈ words) : Change s words { s with late := s.late ++ [late] }
  | connect (r : ModuleRef) (stream : Option StreamRef) (n : Int) :
      Change s words { s with net := s.net.setInput r stream n }

theorem pipeline_change {words : List Str} (part : args ⊆ words) (h : s.pipeline args = .ok s') :
    Change s words s' := by
  unfold Reader.pipeline at h
  split at h
  · cases h
  · split at h
    · obtain ⟨t, id, word, rfl⟩ := create_spec h
      exact .create t (part (List.mem_cons_of_mem _ word))
    · split at h
      · obtain ⟨r, name, word, value, given, rfl⟩ := set_spec h
        exact .set r (part (List.mem_cons_of_mem _ word)) (given.imp_right fun here => part (List.mem_cons_of_mem _ here))
      · split at h
        · obtain ⟨late, word, rfl⟩ := settext_spec h
          exact .settext late (part (List.mem_cons_of_mem _ word))
        · split at h
          · obtain ⟨r, stream, n, rfl⟩ := connect_spec h
            exact .connect r stream n
          · cases h

theorem command_change {first : Str} (h : s.command first args = .ok s') : Change s (first :: args) s' := by
  unfold Reader.command at h
  split at h
  · obtain ⟨delay, rfl⟩ := config_spec h
    exact .delay delay
  · split at h
    · exact pipeline_change (List.subset_cons_self ..) h
    · cases h

end Commands

/-- A line that is kept as it is when a section is open. -/
def DataLine (line : Str) : Prop :=
  '\n' ∉ line ∧ line.head? ≠ some '#' ∧ Text.words line ≠ [] ∧ (Text.words line).head? ≠ some boundary

/-- A line is skipped, starts with the boundary, belongs to the open section or is a command. -/
theorem parseLine_cases {line : Str} (single : '\n' ∉ line) (h : s.parseLine line = .ok s') :
    s' = s ∨
    (∃ rest, Text.words line = boundary :: rest ∧ s.boundaryLine rest = .ok s') ∨
    (∃ tag text, s.data = some (tag, text) ∧ DataLine line ∧
      s' = { s with data := some (tag, text ++ line ++ ['\n']) }) ∨
    (s.data = none ∧ Change s (Text.words line) s') := by
  cases parseLine_reads h with
  | skip => exact Or.inl rfl
  | boundary _ words done => exact Or.inr (Or.inl ⟨_, words, done⟩)
  | data kept words other inside =>
    have plain : (Text.words line).head? ≠ some boundary := by simpa [isBoundary] using other
    exact Or.inr (Or.inr (Or.inl ⟨_, _, inside, ⟨single, fun comment => kept (Or.inr comment), words, plain⟩, rfl⟩))
  | command _ _ outside words done =>
    rw [words]
    exact Or.inr (Or.inr (Or.inr ⟨outside, command_change done⟩))

theorem Change.data {words : List Str} (change : Change s words s') : s'.data = s.data := by
  cases change <;> rfl

/-- Without the boundary the data part is never reached, and every line is accepted as a command. -/
theorem commands_of_parseLines {lines : List Str} (single : ∀ line ∈ lines, '\n' ∉ line)
    (commands : ∀ line ∈ lines, (Text.words line).head? ≠ some boundary) (outside : s.data = none)
    (h : s.parseLines lines = .ok s') :
    ∀ line ∈ lines, ∃ before after : Reader P, before.data = none ∧ before.parseLine line = .ok after := by
  induction lines generalizing s with
  | nil => simp
  | cons line lines ih =>
    rw [Reader.parseLines_cons] at h
    obtain ⟨s₁, first, rest⟩ := ok_of_bind h
    have next : s₁.data = none := by
      rcases parseLine_cases (single line List.mem_cons_self) first with
        rfl | ⟨_, bound, _⟩ | ⟨_, _, inside, _⟩ | ⟨_, change⟩
      · exact outside
      · exact absurd (by rw [bound, List.head?_cons]) (commands line List.mem_cons_self)
      · rw [outside] at inside
        cases inside
      · exact change.data.trans outside
    refine List.forall_mem_cons.mpr ⟨⟨s, s₁, outside, first⟩, ?_⟩
    exact ih (fun l later => single l (List.mem_cons_of_mem _ later))
      (fun l later => commands l (List.mem_cons_of_mem _ later)) next rest

/-! ### The invariant -/

def IsData (text : Str) : Prop := ∃ ls, text = Text.unlines ls ∧ ∀ l ∈ ls, DataLine l

/-- A word, or, if there is a data part, a text that can be read from it. -/
def Tame (sections : Prop) (value : Str) : Prop :=
  Text.NoSpace value ∨ (sections ∧ IsData value)

theorem IsData.lines {text : Str} (data : IsData text) :
    ∃ ls, Text.lines text = ls ++ [[]] ∧ text = Text.unlines ls ∧ ∀ l ∈ ls, DataLine l := by
  obtain ⟨ls, rfl, each⟩ := data
  refine ⟨ls, ?_, rfl, each⟩
  rw [Text.lines_unlines, Text.flatMap_lines fun l inside => (each l inside).1]

theorem IsData.noBoundary {text : Str} (data : IsData text) :
    ∀ line ∈ Text.lines text, (Text.words line).head? ≠ some boundary := by
  obtain ⟨ls, lines, _, each⟩ := data.lines
  rw [lines]
  intro line member
  rcases List.mem_append.mp member with inside | last
  · exact (each line inside).2.2.2
  · rw [List.mem_singleton.mp last]
    simp

structure TidyConfig (sections : Prop) (c : Config P) : Prop where
  id : Text.Token c.id
  fixed : (c.property "id".toList).readOnly = true
  names : ∀ e ∈ c.props.entries, Text.Token e.1
  values : ∀ e ∈ c.props.entries, Tame sections e.2.asString

variable {sections : Prop}

theorem tame_of_type {v : Value P} (h : v.type ≠ .string) : Tame sections v.asString :=
  Or.inl (Value.asString_noSpace h)

theorem tame_ofString (type : PropertyType) {value : Str} (tame : Tame sections value) :
    Tame sections (Value.ofString P type value).asString := by
  by_cases string : type = .string
  · subst string
    exact tame
  · exact tame_of_type (by rwa [Value.ofString_type])

theorem TidyConfig.put (tidy : TidyConfig sections c) {name : Str} {p : Property P}
    (same : p.value.type = c.type.declaredType name) (token : Text.Token name) (tame : Tame sections p.asString)
    (fixed : name = "id".toList → p.value = (c.property "id".toList).value ∧ p.readOnly = true) :
    TidyConfig sections (c.put name p same) := by
  have entries {e : Str × Property P} (member : e ∈ (c.put name p same).props.entries) :
      e = (name, p) ∨ e ∈ c.props.entries := OrderedMap.mem_place member
  have property := Config.property_put c name p same "id".toList
  refine ⟨?_, ?_, fun e member => ?_, fun e member => ?_⟩
  · unfold Config.id
    rw [property]
    split
    · rename_i here
      rw [Property.asString, (fixed here.symm).1]
      exact tidy.id
    · exact tidy.id
  · rw [property]
    split
    · rename_i here
      exact (fixed here.symm).2
    · exact tidy.fixed
  · rcases entries member with rfl | old
    · exact token
    · exact tidy.names e old
  · rcases entries member with rfl | old
    · exact tame
    · exact tidy.values e old

theorem TidyConfig.property_tame (tidy : TidyConfig sections c) (name : Str) :
    Tame sections (c.property name).asString := by
  unfold Config.property
  cases found : c.props.find name with
  | none => exact Or.inl (fun _ member => nomatch member)
  | some p => exact tidy.values _ (OrderedMap.mem_of_find found)

theorem TidyConfig.set (tidy : TidyConfig sections c) {name value : Str} (token : Text.Token name)
    (tame : Tame sections (Value.ofString P (c.type.declaredType name) value).asString) :
    TidyConfig sections (c.set name value) := by
  refine tidy.put _ token ?_ fun isId => ?_
  · unfold Property.set
    split
    · exact tidy.property_tame name
    · rw [c.property_type]
      exact tame
  · subst isId
    have fixed := tidy.fixed
    unfold Property.set
    rw [if_pos fixed]
    exact ⟨rfl, fixed⟩

theorem TidyConfig.setText (tidy : TidyConfig sections c) {name : Str} (token : Text.Token name) :
    TidyConfig sections (c.setText name) := by
  refine tidy.put _ token (tidy.property_tame name) fun isId => ?_
  subst isId
  exact ⟨rfl, tidy.fixed⟩

theorem screenPoints_type {t : ModuleType} {name : Str} (h : t.callback name = .buildScreenPoints) :
    t.declaredType "screenPoints".toList = .pointList := by
  unfold ModuleType.callback at h
  split at h
  · split at h <;> cases h
  · split at h <;> cases h
  · decide
  · cases h

theorem tidy_setProperty (tidy : TidyConfig sections m.state) {name value : Str} (token : Text.Token name)
    (tame : Tame sections value) : TidyConfig sections (setProperty m name value).state := by
  have set := tidy.set token (tame_ofString _ tame)
  unfold setProperty
  simp only []
  split
  · exact set
  · unfold fireCallback
    split
    · exact set
    · split <;> exact set
    · rename_i called
      refine set.set (by decide) (tame_of_type ?_)
      rw [Value.ofString_type, screenPoints_type called]
      decide

/-! ### A new module -/

theorem default_noSpace {t : ModuleType} {e : Str × Default} (member : e ∈ t.defaults.entries) :
    Text.NoSpace (e.2.value P).asString := by
  obtain ⟨_, _, clean⟩ := ModuleType.defaults_clean member
  by_cases string : ∃ s, e.2 = .string s
  · obtain ⟨s, same⟩ := string
    rw [same]
    exact clean s same
  · apply Value.asString_noSpace
    rw [Default.value_type]
    cases value : e.2 with
    | string s => exact absurd ⟨s, value⟩ string
    | bool => exact fun h => nomatch h
    | integer => exact fun h => nomatch h
    | double => exact fun h => nomatch h
    | screenPoints => exact fun h => nomatch h
    | noPoints => exact fun h => nomatch h

theorem construct_find {t : ModuleType} {counters : Counters} {name : Str} {p : Property P}
    (found : (t.construct P counters).1.props.find name = some p) (notId : name ≠ "id".toList) :
    Text.Token name ∧ Text.NoSpace p.asString := by
  have blank (id : Str) (found : ((t.blank P).set "id".toList id).props.find name = some p) :
      Text.Token name ∧ Text.NoSpace p.asString := by
    rw [Config.find_set, if_neg notId, ModuleType.blank, OrderedMap.find_map] at found
    obtain ⟨d, inside, rfl⟩ := Option.map_eq_some_iff.mp found
    have member := OrderedMap.mem_of_find inside
    exact ⟨(ModuleType.defaults_clean member).1, default_noSpace member⟩
  unfold ModuleType.construct at found
  simp only [] at found
  split at found
  · rw [Config.find_set] at found
    split at found
    · rename_i window
      cases found
      refine ⟨by rw [window]; decide, ?_⟩
      have type (id : Str) : (((ModuleType.imageDisplay.blank P).set "id".toList id).property
          "name".toList).value.type = .string := (Config.property_type ..).trans ModuleType.declaredType_name
      have writable (id : Str) :=
        (((constructed_blank (P := P) .imageDisplay).set "id".toList id).plain "name".toList).2
      rw [Property.set, writable, type]
      intro c member
      rcases List.mem_append.mp member with first | digit
      · exact (by decide : Text.NoSpace "Movid".toList) c first
      · exact Text.showInt_noSpace _ c digit
    · exact blank _ found
  · exact blank _ found

theorem tidy_newModule (t : ModuleType) (counters : Counters) {id : Str} (token : Text.Token id) :
    TidyConfig sections (Reader.newModule t (t.construct P counters).1 id).state := by
  have constructed := constructed_construct (P := P) t counters
  have settable := newModule_settable constructed id
  obtain ⟨state, _⟩ := newModule_state constructed id
  have entry {e : Str × Property P} (member : e ∈ (Reader.newModule t (t.construct P counters).1 id).state.props.entries) :
      Text.Token e.1 ∧ Text.NoSpace e.2.asString := by
    have found := OrderedMap.find_of_mem _ member
    by_cases isId : e.1 = "id".toList
    · have property := Config.property_of_find found
      rw [isId, settable.id_eq] at property
      rw [isId, ← property]
      exact ⟨by decide, token.2⟩
    · rw [state] at found
      have old : ((t.construct P counters).1.set "id".toList id).props.find e.1 = some e.2 :=
        ((Config.find_put ..).trans (if_neg isId)).symm.trans found
      rw [Config.find_set, if_neg isId] at old
      exact construct_find old isId
  refine ⟨by rw [settable.state_id]; exact token, by rw [settable.id_eq], fun e member => (entry member).1,
    fun e member => Or.inl (entry member).2⟩

/-! ### Every run keeps it -/

def AllTidy (sections : Prop) (w : Net (Config P)) : Prop := ∀ r m, w.modules r = some m → TidyConfig sections m.state

structure Tidy (sections : Prop) (s : Reader P) : Prop where
  modules : AllTidy sections s.net
  late : ∀ late ∈ s.late, Text.Token late.name
  data : ∀ tag text, s.data = some (tag, text) → sections ∧ IsData text

theorem AllTidy.updateModule (tidy : AllTidy sections w) (r : ModuleRef) {f : Module (Config P) → Module (Config P)}
    (keeps : ∀ m, TidyConfig sections m.state → TidyConfig sections (f m).state) :
    AllTidy sections (w.updateModule r f) := by
  intro x m found
  rw [Net.updateModule_modules] at found
  split at found
  · obtain ⟨m', old, rfl⟩ := Option.map_eq_some_iff.mp found
    exact keeps m' (tidy r m' old)
  · exact tidy x m found

theorem AllTidy.added (tidy : AllTidy sections w) (new : TidyConfig sections m.state) :
    AllTidy sections (added w m) := by
  intro x m' found
  change Function.update w.modules w.next (some m) x = some m' at found
  rw [Function.update_apply] at found
  split at found
  · cases found
    exact new
  · exact tidy x m' found

theorem AllTidy.setInput (tidy : AllTidy sections w) (r : ModuleRef) (stream : Option StreamRef) (n : Int) :
    AllTidy sections (w.setInput r stream n) := by
  intro x m found
  by_cases same : x = r
  · subst same
    cases old : w.modules x with
    | none =>
      rw [Net.setInput_of_none old, old] at found
      cases found
    | some m₀ =>
      obtain ⟨m', now, state, _⟩ := Net.setInput_modules_self old stream n
      rw [Option.some.inj (found.symm.trans now), state]
      exact tidy x m₀ old
  · rw [Net.setInput_modules_of_ne w same] at found
    exact tidy x m found

theorem setLate_tidy {third : Option Str} {text : Str} {late : LateSet} {w' : Net (Config P)} (h : setLate third text w late = .ok w')
    (tidy : AllTidy sections w) (tame : Tame sections text) (token : Text.Token late.name) : AllTidy sections w' := by
  unfold setLate at h
  split at h
  · cases h
  · simp only [] at h
    split at h
    · cases h
    · cases h
      exact (tidy.updateModule _ fun m old => tidy_setProperty old token tame).updateModule _ fun m old => old.setText token

theorem closeSection_tidy {third : Option Str} {tag text : Str} {late late' : List LateSet} {w' : Net (Config P)}
    (h : closeSection third tag text w late = .ok (w', late')) (tidy : AllTidy sections w) (tame : Tame sections text)
    (names : ∀ l ∈ late, Text.Token l.name) : AllTidy sections w' ∧ ∀ l ∈ late', Text.Token l.name := by
  obtain ⟨done, rfl⟩ := closeSection_ok h
  refine ⟨foldlM_ok_invariant (fun w l member w' run tidy => ?_) done tidy, fun l member => names l (List.mem_of_mem_filter member)⟩
  exact setLate_tidy run tidy tame (names l (List.mem_of_mem_filter member))

theorem Tidy.boundaryLine (tidy : Tidy sections s) (allowed : sections) {rest : List Str}
    (h : s.boundaryLine rest = .ok s') : Tidy sections s' := by
  have crosses := boundaryLine_crosses h
  have closed : AllTidy sections s'.net ∧ ∀ l ∈ s'.late, Text.Token l.name := by
    cases opened : s.data with
    | none =>
      obtain ⟨net, late⟩ := crosses.outside opened
      rw [net, late]
      exact ⟨tidy.modules, tidy.late⟩
    | some section_ =>
      obtain ⟨tag, text⟩ := section_
      exact closeSection_tidy (crosses.inside tag text opened) tidy.modules (Or.inr (tidy.data tag text opened)) tidy.late
  refine ⟨closed.1, closed.2, fun tag text opened => ?_⟩
  obtain ⟨-, rfl⟩ := (crosses.data tag text).mp opened
  exact ⟨allowed, [], rfl, by simp⟩

theorem Tidy.change (tidy : Tidy sections s) {words : List Str} (tokens : ∀ word ∈ words, Text.Token word)
    (change : Change s words s') : Tidy sections s' := by
  cases change with
  | delay delay => exact ⟨tidy.modules, tidy.late, tidy.data⟩
  | create t word =>
    exact ⟨AllTidy.added tidy.modules (tidy_newModule t s.counters (tokens _ word)), tidy.late, tidy.data⟩
  | set r word given =>
    refine ⟨AllTidy.updateModule tidy.modules r fun m old => tidy_setProperty old (tokens _ word) (Or.inl ?_),
      tidy.late, tidy.data⟩
    rcases given with rfl | word
    · exact fun _ member => nomatch member
    · exact (tokens _ word).2
  | settext late word =>
    refine ⟨tidy.modules, fun l member => ?_, tidy.data⟩
    rcases List.mem_append.mp member with old | new
    · exact tidy.late l old
    · exact List.mem_singleton.mp new ▸ tokens _ word
  | connect r stream n => exact ⟨AllTidy.setInput tidy.modules r stream n, tidy.late, tidy.data⟩

theorem Tidy.parseLine (tidy : Tidy sections s) {line : Str} (single : '\n' ∉ line)
    (allowed : (Text.words line).head? = some boundary → sections) (h : s.parseLine line = .ok s') :
    Tidy sections s' := by
  rcases parseLine_cases single h with rfl | ⟨rest, words, h⟩ | ⟨tag, text, inside, kept, rfl⟩ | ⟨_, change⟩
  · exact tidy
  · exact tidy.boundaryLine (allowed (by rw [words, List.head?_cons])) h
  · refine ⟨tidy.modules, tidy.late, fun tag' text' more => ?_⟩
    cases more
    obtain ⟨allowed, ls, rfl, each⟩ := tidy.data tag text inside
    refine ⟨allowed, ls ++ [line], by simp, fun l member => ?_⟩
    rcases List.mem_append.mp member with old | new
    · exact each l old
    · exact List.mem_singleton.mp new ▸ kept
  · exact tidy.change (fun word => Text.token_of_mem_words) change

theorem Tidy.parseLines {lines : List Str} (single : ∀ line ∈ lines, '\n' ∉ line)
    (allowed : ∀ line ∈ lines, (Text.words line).head? = some boundary → sections) (tidy : Tidy sections s)
    (h : s.parseLines lines = .ok s') : Tidy sections s' := by
  induction lines generalizing s with
  | nil =>
    cases h
    exact tidy
  | cons line lines ih =>
    rw [Reader.parseLines_cons] at h
    obtain ⟨s₁, first, rest⟩ := ok_of_bind h
    exact ih (fun l later => single l (List.mem_cons_of_mem _ later))
      (fun l later => allowed l (List.mem_cons_of_mem _ later))
      (tidy.parseLine (single line List.mem_cons_self) (allowed line List.mem_cons_self) first) rest

theorem Tidy.start (counters : Counters) (delay : Int32) :
    Tidy sections (Reader.start (Net.empty : Net (Config P)) counters delay) where
  modules _ _ found := by cases found
  late _ member := by cases member
  data _ _ opened := by cases opened

theorem Tidy.config (tidy : Tidy sections s) (member : c ∈ configs s.net) : TidyConfig sections c := by
  obtain ⟨r, _, found⟩ := List.mem_filterMap.mp member
  obtain ⟨m, live, rfl⟩ := Option.map_eq_some_iff.mp found
  exact tidy.modules r m live

end Movid.Preset
