import Movid.Preset.Connections
import Movid.Preset.Sections

/-!
# Text properties after a reload

A text comes back from the data part if and only if it consists of lines that the reader keeps.
Two texts whose sections have the same name have to be equal.
-/

namespace Movid.Preset

variable {P : Platform} {w u : Net (Config P)} {c c' : Config P} {s s' : Reader P} {saved rest : List (Config P)}

/-! ### The data of all modules -/

theorem Reading.datas_ok {good : Str → Str → Prop} {seen : List Str} (rest : List (Config P)) (texts : Texts saved)
    (loads : ∀ t text, good t text → ∀ l ∈ allLates saved, l.tag = t → Loads saved l text)
    (fits : ∀ c ∈ rest, ∀ x ∈ c.texts, Text.Token (tag c.id x.1) ∧ IsData x.2 ∧ good (tag c.id x.1) x.2)
    (reading : Reading saved good seen s) (outside : s.data = none) :
    ∃ s', s.parseLines (rest.flatMap dataLines) = .ok s' ∧ Reading saved good (seen ++ rest.flatMap tags) s' ∧
      s'.data = none := by
  induction rest generalizing s seen with
  | nil => exact ⟨s, rfl, by simpa using reading, outside⟩
  | cons c rest ih =>
    obtain ⟨s₁, first, middle, closed⟩ := reading.data_ok texts loads (fits c List.mem_cons_self) outside
    obtain ⟨s', run, final⟩ := ih (fun c later => fits c (List.mem_cons_of_mem _ later)) middle closed
    refine ⟨s', ?_, by simpa using final⟩
    rw [List.flatMap_cons, Reader.parseLines_append, first]
    exact run

theorem Reading.datas {seen : List Str} (texts : Texts saved)
    (tame : ∀ c ∈ rest, ∀ x ∈ c.texts, Text.Token (tag c.id x.1) ∧ Tame True x.2)
    (reading : Reading saved (fun _ => IsData) seen s) (outside : s.data = none)
    (h : s.parseLines (rest.flatMap dataLines) = .ok s') :
    Reading saved (fun _ => IsData) (seen ++ rest.flatMap tags) s' ∧ s'.data = none := by
  induction rest generalizing s seen with
  | nil =>
    cases h
    exact ⟨by simpa using reading, outside⟩
  | cons c rest ih =>
    rw [List.flatMap_cons, Reader.parseLines_append] at h
    obtain ⟨s₁, first, h⟩ := ok_of_bind h
    obtain ⟨middle, closed⟩ := reading.data texts (tame c List.mem_cons_self) outside first
    simpa using ih (fun c later => tame c (List.mem_cons_of_mem _ later)) middle closed h

theorem mem_texts {x : Str × Str} : x ∈ c.texts ↔ ∃ e ∈ c.props.entries, e.2.isText = true ∧ x = (e.1, e.2.asString) := by
  unfold Config.texts
  rw [List.mem_filterMap]
  refine exists_congr fun e => and_congr_right fun _ => ?_
  cases e.2.isText <;> simp [eq_comm]

theorem mem_lates_texts {l : LateSet} :
    l ∈ lates c.id c.props.entries ↔ ∃ x ∈ c.texts, l = ⟨c.id, x.1, tag c.id x.1⟩ := by
  rw [mem_lates]
  constructor
  · rintro ⟨e, inside, text, rfl⟩
    exact ⟨(e.1, e.2.asString), mem_texts.mpr ⟨e, inside, text, rfl⟩, rfl⟩
  · rintro ⟨x, member, rfl⟩
    obtain ⟨e, inside, text, rfl⟩ := mem_texts.mp member
    exact ⟨e, inside, text, rfl⟩

theorem Reading.final {good : Str → Str → Prop} (reading : Reading saved good (saved.flatMap tags) s)
    (outside : s.data = none) : ∃ val, Stored saved { l | l ∈ allLates saved } val s.net ∧
      ∀ c ∈ saved, ∀ x ∈ c.texts, good (tag c.id x.1) (val (tag c.id x.1)) := by
  obtain ⟨done, val, filled, closed, _, all⟩ := reading
  have past : ∀ c ∈ saved, ∀ x ∈ c.texts, tag c.id x.1 ∈ done := by
    intro c inside x member
    have seen : tag c.id x.1 ∈ saved.flatMap tags := List.mem_flatMap.mpr ⟨c, inside, List.mem_map.mpr ⟨x, member, rfl⟩⟩
    apply (all _ seen).resolve_right
    rintro ⟨text, impossible⟩
    rw [outside] at impossible
    cases impossible
  refine ⟨val, filled.stored.mono fun l member => ⟨member, ?_⟩, fun c inside x member => closed _ (past c inside x member)⟩
  obtain ⟨i, c, here, member⟩ := mem_allLates.mp member
  obtain ⟨x, text, rfl⟩ := mem_lates_texts.mp member
  exact past c (List.mem_of_getElem? here) x text

/-! ### The modules that hold the texts -/

structure SameTexts (c c' : Config P) : Prop where
  type : c'.type.name = c.type.name
  id : c'.id = c.id
  texts : ∀ name p, c.props.find name = some p → p.isText = true →
    ∃ p', c'.props.find name = some p' ∧ p'.isText = true ∧ p'.asString = p.asString

theorem Stored.sameTexts_iff {val : Str → Str} (stored : Stored saved { l | l ∈ allLates saved } val w) :
    List.Forall₂ SameTexts saved (configs w) ↔ ∀ c ∈ saved, ∀ x ∈ c.texts, val (tag c.id x.1) = x.2 := by
  have made : List.Forall₂ (fun c c' => Named c c' ∧ ∀ x ∈ c.texts, Holds c' x.1 (val (tag c.id x.1))) saved
      (configs w) := by
    unfold configs
    rw [stored.elements]
    apply Lists.forall₂_filterMap_range
    intro i c here
    obtain ⟨m, live, _, named, holds⟩ := stored.modules i c here
    refine ⟨m.state, by rw [live]; rfl, named, fun x member => ?_⟩
    have late : ⟨c.id, x.1, tag c.id x.1⟩ ∈ lates c.id c.props.entries := mem_lates_texts.mpr ⟨x, member, rfl⟩
    exact holds _ late (mem_allLates.mpr ⟨i, c, here, late⟩)
  refine Lists.forall₂_iff_forall_mem made fun c _ c' ⟨named, holds⟩ => ?_
  constructor
  · intro same x member
    obtain ⟨e, inside, text, rfl⟩ := mem_texts.mp member
    obtain ⟨p, found, _, equal⟩ := same.texts _ _ (OrderedMap.find_of_mem _ inside) text
    rw [holds _ member] at found
    cases found
    exact equal
  · intro equal
    refine ⟨congrArg ModuleType.name named.type, named.id, fun name p found text => ?_⟩
    have member : (name, p.asString) ∈ c.texts := mem_texts.mpr ⟨(name, p), OrderedMap.mem_of_find found, text, rfl⟩
    exact ⟨_, holds _ member, rfl, equal _ member⟩

/-! ### The rest of the file -/

theorem Pipeline.configs_getElem? (pipeline : Pipeline w) {i : Nat} {r : ModuleRef} (here : w.elements[i]? = some r)
    {m : Module (Config P)} (found : w.modules r = some m) : (configs w)[i]? = some m.state := by
  have all : configs w = w.elements.map fun r => ((w.modules r).map (·.state)).getD m.state := by
    unfold configs
    refine (List.filterMap_congr fun r inside => ?_).trans (congrFun List.filterMap_eq_map _)
    obtain ⟨m', found'⟩ := pipeline.live r inside
    simp [found']
  rw [all, List.getElem?_map, here]
  simp [found]

theorem Pipeline.configs_length (pipeline : Pipeline w) : (configs w).length = w.elements.length := by
  unfold configs
  rw [List.length_filterMap_eq_countP, List.countP_eq_length]
  intro r inside
  obtain ⟨m, found⟩ := pipeline.live r inside
  simp [found]

theorem Rebuilt.copies (rebuilt : Rebuilt (configs w) u) (pipeline : Pipeline w) :
    Copies w u w.elements.idxOf where
  elements := by
    rw [rebuilt.elements, pipeline.configs_length]
    apply List.ext_getElem (by simp)
    intro i first second
    rw [List.getElem_range, List.getElem_map, pipeline.wired.nodup.idxOf_getElem]
  injective r inside r' _ same := (List.idxOf_inj inside).mp same
  fresh r inside := by
    obtain ⟨m, found⟩ := pipeline.live r inside
    have here : w.elements[w.elements.idxOf r]? = some r := by
      rw [List.getElem?_eq_getElem (List.idxOf_lt_length_of_mem inside), List.getElem_idxOf]
    obtain ⟨counters, found', loads⟩ := rebuilt.modules _ _ (pipeline.configs_getElem? here found)
    obtain ⟨inputs, outputs⟩ := pipeline.declared r inside m found
    have settable := reload_settable counters m.state
    rw [found, found', Option.map_some, Option.map_some, settable.state_id, settable.outputs, settable.inputs,
      (reload_isError_iff counters m.state).mpr loads, outputs, ← inputs, List.map_map]
    rfl

theorem Rebuilt.stored {v : Net (Config P)} (rebuilt : Rebuilt (configs w) v) (pipeline : Pipeline w)
    {links : Set (ModuleRef × Nat)} (part : Partial w v u w.elements.idxOf links) (val : Str → Str) :
    Stored (configs w) ∅ val u := by
  refine ⟨?_, fun i c here => ?_, by simp⟩
  · rw [part.elements, ← (rebuilt.copies pipeline).elements, rebuilt.elements]
  · have inside : i < w.elements.length := pipeline.configs_length ▸ (List.getElem?_eq_some_iff.mp here).1
    obtain ⟨m, found⟩ := pipeline.live _ (List.getElem_mem inside)
    obtain ⟨m', live, _, _, clear, _⟩ := part.modules _ (List.getElem_mem inside) m found
    obtain ⟨counters, made, _⟩ := rebuilt.modules i c here
    rw [pipeline.wired.nodup.idxOf_getElem] at live
    have state : m'.state = (reload counters c).state := by
      have same := part.states i
      rw [live, made] at same
      exact Option.some.inj same
    have settable := reload_settable counters c
    refine ⟨m', live, clear, state ▸ ⟨settable.type, settable.state_id, settable.writable⟩, fun l _ impossible => ?_⟩
    exact absurd impossible (Set.notMem_empty l)

theorem Pipeline.mem_configs (pipeline : Pipeline w) {r : ModuleRef} (inside : r ∈ w.elements) :
    ∃ c ∈ configs w, idOf w r = c.id := by
  obtain ⟨m, found⟩ := pipeline.live r inside
  exact ⟨m.state, List.mem_filterMap.mpr ⟨r, inside, by simp [found]⟩, idOf_of_some found⟩

theorem Pipeline.ids_eq (pipeline : Pipeline w) : (configs w).map (·.id) = w.elements.map (idOf w) := by
  refine List.ext_getElem? fun i => ?_
  rw [List.getElem?_map, List.getElem?_map]
  cases here : w.elements[i]? with
  | none =>
    rw [List.getElem?_eq_none_iff, ← pipeline.configs_length, ← List.getElem?_eq_none_iff] at here
    rw [here]
    rfl
  | some r =>
    obtain ⟨m, found⟩ := pipeline.live r (List.mem_of_getElem? here)
    rw [pipeline.configs_getElem? here found]
    simp [idOf_of_some found]

/-- Ids and names are words, texts are strings, and plain values are in one line. -/
structure Saveable (saved : List (Config P)) : Prop where
  ids : ∀ c ∈ saved, Text.Token c.id
  names : ∀ c ∈ saved, ∀ e ∈ c.props.entries, Text.Token e.1
  strings : ∀ c ∈ saved, ∀ e ∈ c.props.entries, e.2.isText = true → e.2.value.type = .string ∧ e.1 ≠ "id".toList
  oneLine : ∀ c ∈ saved, ∀ e ∈ c.props.entries, e.2.isText = false → '\n' ∉ e.2.asString

structure PlainReloads (saved : List (Config P)) : Prop where
  distinct : (saved.map (·.id)).Nodup
  words : ∀ c ∈ saved, ∀ e ∈ c.props.entries, e.2.isText = false → (Text.words e.2.asString).length ≤ 1
  files : ∀ c ∈ saved, FilesLoad c

structure TextsReload (saved : List (Config P)) : Prop where
  data : ∀ c ∈ saved, ∀ x ∈ c.texts, IsData x.2
  tags : ∀ c ∈ saved, ∀ x ∈ c.texts, ∀ d ∈ saved, ∀ y ∈ d.texts, tag c.id x.1 = tag d.id y.1 → x.2 = y.2
  files : ∀ c ∈ saved, ∀ x ∈ c.texts, ∀ msg, c.type.callback x.1 = .loadImage msg → P.loads x.2 = true

namespace Saveable

variable {date : Str} {counters : Counters} {delay : Int32}

theorem oneLines (saveable : Saveable saved) :
    ∀ c ∈ saved, Text.Token c.id ∧ ∀ entry ∈ c.props.entries, OneLine entry := fun c member =>
  ⟨saveable.ids c member, fun e inside => ⟨saveable.names c member e inside, saveable.oneLine c member e inside⟩⟩

theorem tagTokens (saveable : Saveable saved) : ∀ c ∈ saved, ∀ x ∈ c.texts, Text.Token (tag c.id x.1) := by
  intro c member x text
  obtain ⟨e, inside, _, rfl⟩ := mem_texts.mp text
  exact tag_token (saveable.ids c member) (saveable.names c member e inside)

theorem parse_eq (saveable : Saveable (configs w)) (pipeline : Pipeline w) (single : '\n' ∉ date) :
    s.parse (serializeCreation date w) =
      (s.parseLines ((configs w).flatMap Config.creation ++ connectionLines w)).bind
        (Reader.parseLines · ((configs w).flatMap dataLines)) := by
  have tokens : ∀ r ∈ w.elements, Text.Token (idOf w r) := by
    intro r inside
    obtain ⟨c, member, same⟩ := pipeline.mem_configs inside
    rw [same]
    exact saveable.ids c member
  have datas : ((configs w).flatMap Config.data).flatMap Text.lines = (configs w).flatMap dataLines := by
    rw [List.flatMap_assoc]
    exact List.flatMap_congr fun c member => data_lines (saveable.tagTokens c member)
  unfold Reader.parse serializeCreation
  rw [Text.lines_unlines, List.flatMap_append, List.flatMap_append, List.flatMap_append,
    Text.flatMap_lines (header_newline single), creations_lines saveable.oneLines,
    Text.flatMap_lines (pipeline.connectionLines_newline tokens), datas, Reader.parseLines_append,
    Reader.parseLines_append, List.append_assoc, Reader.parseLines_append, parseLines_header]
  change ((s.parseLines _).bind _).bind _ = _
  cases s.parseLines ((configs w).flatMap Config.creation ++ connectionLines w) with
  | error failure => rfl
  | ok s₁ =>
    change (s₁.parseLines _).bind _ = s₁.parseLines _
    cases s₁.parseLines ((configs w).flatMap dataLines) <;> rfl

theorem creation_head (c : Config P) : ∀ line ∈ c.creation, (Text.words line).head? ≠ some boundary := by
  intro line member
  rcases List.mem_cons.mp member with rfl | member
  · exact head_pipeline ("create ".toList ++ (c.type.name ++ ' ' :: c.id))
  · rcases List.mem_append.mp member with member | last
    · obtain ⟨e, _, rfl⟩ := List.mem_map.mp member
      unfold settingLine
      split
      · exact head_pipeline ("settext ".toList ++ (c.id ++ ' ' :: (e.1 ++ ' ' :: tag c.id e.1)))
      · exact head_pipeline ("set ".toList ++ (c.id ++ ' ' :: (e.1 ++ ' ' :: e.2.asString)))
    · rw [List.mem_singleton.mp last]
      simp

theorem words_of_accepted (saveable : Saveable saved) (outside : s.data = none)
    (h : s.parseLines (saved.flatMap Config.creation) = .ok s') :
    ∀ c ∈ saved, ∀ e ∈ c.props.entries, e.2.isText = false → (Text.words e.2.asString).length ≤ 1 := by
  intro c member e inside plain
  have lines : ∀ line ∈ saved.flatMap Config.creation, '\n' ∉ line ∧ (Text.words line).head? ≠ some boundary := by
    intro line here
    obtain ⟨d, known, here⟩ := List.mem_flatMap.mp here
    obtain ⟨token, oneLine⟩ := saveable.oneLines d known
    exact ⟨creation_newline token oneLine line here, creation_head d line here⟩
  have written : settingLine c.id e ∈ saved.flatMap Config.creation := List.mem_flatMap.mpr
    ⟨c, member, List.mem_cons_of_mem _ (List.mem_append_left _ (List.mem_map_of_mem inside))⟩
  obtain ⟨before, after, commands, accepted⟩ := commands_of_parseLines (fun line here => (lines line here).1)
    (fun line here => (lines line here).2) outside h _ written
  have plainLine : settingLine c.id e = setLine c.id e.1 e.2.asString := by rw [settingLine, plain]; rfl
  rw [plainLine, Reader.parseLine_set (saveable.ids c member) (saveable.names c member e inside) commands] at accepted
  generalize Text.words e.2.asString = words at accepted
  match words with
  | [] => simp
  | [_] => simp
  | _ :: _ :: _ => cases accepted

theorem written (saveable : Saveable saved)
    (words : ∀ c ∈ saved, ∀ e ∈ c.props.entries, e.2.isText = false → (Text.words e.2.asString).length ≤ 1) :
    ∀ c ∈ saved, Text.Token c.id ∧ ∀ entry ∈ c.props.entries, Written entry := fun c member =>
  ⟨saveable.ids c member, fun e inside => ⟨saveable.names c member e inside, fun plain =>
    ⟨saveable.oneLine c member e inside plain, words c member e inside plain⟩⟩⟩

theorem creations_iff (saveable : Saveable saved) :
    (∃ s, (Reader.start (Net.empty : Net (Config P)) counters delay).parseLines (saved.flatMap Config.creation) = .ok s) ↔
      PlainReloads saved := by
  constructor
  · rintro ⟨s, run⟩
    have words := saveable.words_of_accepted rfl run
    obtain ⟨accepted, _⟩ := parseLines_creations (s := Reader.start (Net.empty : Net (Config P)) counters delay)
      Rebuilt.empty (saveable.written words) rfl
    obtain ⟨all, distinct⟩ := accepted.mp ⟨s, run⟩
    exact ⟨distinct, words, fun c member => (all c member).2⟩
  · intro plain
    obtain ⟨accepted, _⟩ := parseLines_creations (s := Reader.start (Net.empty : Net (Config P)) counters delay)
      Rebuilt.empty (saveable.written plain.words) rfl
    exact accepted.mpr ⟨fun c member => ⟨by simp, plain.files c member⟩, plain.distinct⟩

theorem plain_run (saveable : Saveable (configs w)) (pipeline : Pipeline w) (accepted : Accepted w)
    (plain : PlainReloads (configs w)) :
    ∃ s, (Reader.start (Net.empty : Net (Config P)) counters delay).parseLines
        ((configs w).flatMap Config.creation ++ connectionLines w) = .ok s ∧ s.data = none ∧
      ∀ good, Reading (configs w) good [] s := by
  obtain ⟨s₁, run⟩ : ∃ s, (Reader.start (Net.empty : Net (Config P)) counters delay).parseLines
      ((configs w).flatMap Config.creation) = .ok s := saveable.creations_iff.mpr plain
  obtain ⟨_, result⟩ := parseLines_creations (s := Reader.start (Net.empty : Net (Config P)) counters delay)
    Rebuilt.empty (saveable.written plain.words) rfl
  obtain ⟨rebuilt, outside, late⟩ := result s₁ run
  have ids : DistinctIds w := by
    refine ⟨fun r inside => ?_, pipeline.ids_eq ▸ plain.distinct⟩
    obtain ⟨c, member, same⟩ := pipeline.mem_configs inside
    exact same ▸ saveable.ids c member
  obtain ⟨u, connected, part⟩ := (rebuilt.copies pipeline).parse_connections pipeline ids accepted rfl outside
  refine ⟨{ s₁ with net := u }, ?_, outside, fun good => ⟨[], fun _ => [], ⟨?_, ?_⟩, by simp, ?_, by simp⟩⟩
  · rw [Reader.parseLines_append, run]
    exact connected
  · change s₁.late = _
    rw [late]
    simp [allLates, Reader.start]
  · exact (rebuilt.stored pipeline part _).mono fun l member => by simp at member
  · intro t text impossible
    change s₁.data = _ at impossible
    rw [outside] at impossible
    cases impossible

theorem texts (saveable : Saveable saved) (plain : PlainReloads saved) : Texts saved :=
  ⟨plain.distinct, saveable.strings⟩

end Saveable

theorem SameTexts.tame {sections : Prop} (same : SameTexts c c') (tidy : TidyConfig sections c') :
    ∀ x ∈ c.texts, Tame sections x.2 := by
  intro x member
  obtain ⟨e, inside, text, rfl⟩ := mem_texts.mp member
  obtain ⟨p, found, _, equal⟩ := same.texts _ _ (OrderedMap.find_of_mem _ inside) text
  have value := tidy.values _ (OrderedMap.mem_of_find found)
  rw [equal] at value
  exact value

theorem TextsReload.loads (reload : TextsReload saved) (texts : Texts saved) {t text : Str}
    (fits : ∀ c ∈ saved, ∀ x ∈ c.texts, tag c.id x.1 = t → text = x.2) :
    ∀ l ∈ allLates saved, l.tag = t → Loads saved l text := by
  intro l member tagged d inside same msg called
  obtain ⟨i, c, here, member⟩ := mem_allLates.mp member
  obtain ⟨x, text', rfl⟩ := mem_lates_texts.mp member
  obtain ⟨j, there⟩ := List.getElem?_of_mem inside
  obtain rfl := texts.index there here same
  obtain rfl : d = c := Option.some.inj (there.symm.trans here)
  rw [fits d inside x text' tagged]
  exact reload.files d inside x text' msg called

open Platform (whole)

def noted (text : Str) : Net (Config whole) :=
  Machine.run Net.step Net.empty [.create (ModuleType.erode.spec whole
    (((ModuleType.erode.construct whole ⟨1, 0⟩).1.set "note".toList text).setText "note".toList))]

theorem noted_pipeline (text : Str) : Pipeline (noted text) := by
  apply run_pipeline
  intro event member
  rw [List.mem_singleton.mp member]
  rfl

end Movid.Preset
