import Movid.Lib.Lists
import Movid.Preset.Loader
import Movid.Preset.Tidy

/-!
# The ids of a loaded pipeline

`parse` gives a module the id of its `create` line and makes it read-only before any other line
can reach the module.
-/

namespace Movid.Preset

variable {P : Platform} {w : Net (Config P)} {m : Module (Config P)} {c : Config P} {s : Reader P}

structure Creation where
  type : Str
  id : Str

def creation (tokens : List Str) : Option Creation :=
  match tokens with
  | [first, sub, type, id] => if first = "pipeline".toList ∧ sub = "create".toList then some { type, id } else none
  | _ => none

def datamodeAfter (datamode : Bool) (line : Str) : Bool :=
  if Skipped line then datamode
  else if isBoundary line then (Text.words line).length == 2
  else datamode

/-- In data mode a line is no command. -/
def created (datamode : Bool) (line : Str) : Option Creation :=
  if Skipped line ∨ isBoundary line ∨ datamode then none else creation (Text.words line)

def creations : Bool → List Str → List Creation
  | _, [] => []
  | datamode, line :: lines => (created datamode line).toList ++ creations (datamodeAfter datamode line) lines

/-! ### One module -/

/-- The module was made by the command and can not get another id. -/
structure Made (line : Creation) (c : Config P) : Prop where
  type : ModuleType.ofName line.type = some c.type
  id : c.id = line.id
  fixed : (c.property "id".toList).readOnly = true

namespace Made

variable {line : Creation}

theorem of_property {c' : Config P} (made : Made line c) (type : c'.type = c.type)
    (value : (c'.property "id".toList).value = (c.property "id".toList).value)
    (fixed : (c'.property "id".toList).readOnly = true) : Made line c' where
  type := by rw [type, made.type]
  id := by rw [← made.id, Config.id, Config.id, Property.asString, Property.asString, value]
  fixed := fixed

theorem set (made : Made line c) (name value : Str) : Made line (c.set name value) := by
  have same : (c.set name value).property "id".toList = c.property "id".toList := by
    rw [Config.property_set]
    split
    · rename_i here
      rw [← here, Property.set, if_pos made.fixed]
    · rfl
  exact made.of_property rfl (by rw [same]) (by rw [same, made.fixed])

theorem setText (made : Made line c) (name : Str) : Made line (c.setText name) := by
  refine made.of_property rfl ?_ ?_
  · rw [Config.property_setText]
    split
    · rename_i here
      rw [← here]
      rfl
    · rfl
  · rw [Config.property_setText]
    split
    · rename_i here
      rw [← here]
      exact made.fixed
    · exact made.fixed

theorem setProperty (made : Made line m.state) (name value : Str) : Made line (setProperty m name value).state := by
  have set := made.set name value
  unfold Preset.setProperty
  simp only []
  split
  · exact set
  · unfold fireCallback
    split
    · exact set
    · split <;> exact set
    · exact set.set ..

theorem newModule {t : ModuleType} (known : ModuleType.ofName line.type = some t) (counters : Counters) :
    Made line (Reader.newModule t (t.construct P counters).1 line.id).state := by
  have settable := newModule_settable (constructed_construct (P := P) t counters) line.id
  exact ⟨by rw [settable.type, known], settable.state_id, by rw [settable.id_eq]⟩

end Made

/-! ### The pipeline -/

theorem getModuleById_of_nodup (live : ∀ r ∈ w.elements, ∃ m, w.modules r = some m)
    (distinct : ((configs w).map (·.id)).Nodup) {r : ModuleRef} (inside : r ∈ w.elements)
    (found : w.modules r = some m) : getModuleById w m.state.id = some r := by
  unfold configs at distinct
  unfold getModuleById
  generalize w.elements = elements at live distinct inside
  induction elements with
  | nil => cases inside
  | cons x elements ih =>
    obtain ⟨m', first⟩ := live x List.mem_cons_self
    rw [List.filterMap_cons, first, Option.map_some, List.map_cons, List.nodup_cons] at distinct
    rcases List.mem_cons.mp inside with rfl | later
    · exact List.find?_cons_of_pos (by simp [found])
    · have other : m'.state.id ≠ m.state.id := by
        intro same
        refine distinct.1 (same ▸ List.mem_map_of_mem (List.mem_filterMap.mpr ⟨r, later, ?_⟩))
        rw [found, Option.map_some]
      rw [List.find?_cons_of_neg (by simpa [first] using other)]
      exact ih (fun y member => live y (List.mem_cons_of_mem _ member)) distinct.2 later

/-- The modules of the pipeline were made by the commands, one by each, and no two commands have
the same id. -/
structure Loaded (lines : List Creation) (w : Net (Config P)) : Prop where
  below : ∀ r ∈ w.elements, r < w.next
  made : List.Forall₂ (fun r line => ∃ m, w.modules r = some m ∧ Made line m.state) w.elements lines
  distinct : (lines.map (·.id)).Nodup

namespace Loaded

variable {lines : List Creation} {v : Net (Config P)}

theorem congr (loaded : Loaded lines w) (elements : v.elements = w.elements) (next : w.next ≤ v.next)
    (modules : ∀ r m line, w.modules r = some m → r ∈ w.elements → Made line m.state →
      ∃ m', v.modules r = some m' ∧ Made line m'.state) : Loaded lines v where
  below r inside := by
    rw [elements] at inside
    exact Nat.lt_of_lt_of_le (loaded.below r inside) next
  made := by
    rw [elements]
    refine Lists.forall₂_imp_of_mem loaded.made fun r line inside ⟨m, live, made⟩ => ?_
    exact modules r m line live inside made
  distinct := loaded.distinct

theorem updateModule (loaded : Loaded lines w) (r : ModuleRef) {f : Module (Config P) → Module (Config P)}
    (keeps : ∀ line m, Made line m.state → Made line (f m).state) : Loaded lines (w.updateModule r f) := by
  refine loaded.congr rfl (Nat.le_refl _) fun x m line live _ made => ?_
  rw [Net.updateModule_modules]
  split
  · rename_i here
    rw [← here, live]
    exact ⟨f m, rfl, keeps line m made⟩
  · exact ⟨m, live, made⟩

theorem setOn (loaded : Loaded lines w) (r : ModuleRef) (name value : Str) : Loaded lines (setOn w r name value) :=
  loaded.updateModule r fun _ _ made => made.setProperty name value

theorem markText (loaded : Loaded lines w) (r : ModuleRef) (name : Str) : Loaded lines (markText w r name) :=
  loaded.updateModule r fun _ _ made => made.setText name

theorem clearError (loaded : Loaded lines w) (r : ModuleRef) : Loaded lines (w.clearError r) :=
  loaded.updateModule r fun _ _ made => made

theorem allocate (loaded : Loaded lines w) (m : Module (Config P)) : Loaded lines (w.allocate m) := by
  refine loaded.congr rfl (Nat.le_succ _) fun r m' line live inside made => ⟨m', ?_, made⟩
  rw [← live]
  exact Function.update_of_ne (Nat.ne_of_lt (loaded.below r inside)) ..

theorem setInput (loaded : Loaded lines w) (r : ModuleRef) (stream : Option StreamRef) (n : Int) :
    Loaded lines (w.setInput r stream n) := by
  apply loaded.congr (Net.setInput_elements ..) (Nat.le_of_eq (Net.setInput_next ..).symm)
  intro x m line live _ made
  by_cases here : x = r
  · subst here
    obtain ⟨m', now, state, _⟩ := Net.setInput_modules_self live stream n
    exact ⟨m', now, state ▸ made⟩
  · rw [Net.setInput_modules_of_ne w here]
    exact ⟨m, live, made⟩

theorem ids (loaded : Loaded lines w) : (configs w).map (·.id) = lines.map (·.id) := by
  have made := loaded.made
  unfold configs
  clear loaded
  generalize w.elements = elements at made
  induction made with
  | nil => rfl
  | cons first _ ih =>
    obtain ⟨m, live, made⟩ := first
    simp only [List.filterMap_cons, live, Option.map_some, List.map_cons, ih, made.id]

theorem getModuleById (loaded : Loaded lines w) {i : Nat} {r : ModuleRef} {line : Creation}
    (element : w.elements[i]? = some r) (here : lines[i]? = some line) : getModuleById w line.id = some r := by
  have pair : (r, line) ∈ w.elements.zip lines :=
    List.mem_of_getElem? (List.getElem?_zip_eq_some.mpr ⟨element, here⟩)
  obtain ⟨m, live, made⟩ := List.forall₂_zip loaded.made pair
  rw [← made.id]
  refine getModuleById_of_nodup (fun x inside => ?_) ?_ (List.mem_of_getElem? element) live
  · obtain ⟨_, _, m, live, _⟩ := Lists.forall₂_mem_left loaded.made inside
    exact ⟨m, live⟩
  · rw [loaded.ids]
    exact loaded.distinct

theorem unused (loaded : Loaded lines w) {id : Str} (free : Preset.getModuleById w id = none) :
    id ∉ lines.map (·.id) := by
  intro member
  obtain ⟨line, inside, rfl⟩ := List.mem_map.mp member
  obtain ⟨i, here⟩ := List.getElem?_of_mem inside
  have bound : i < w.elements.length := by
    rw [loaded.made.length_eq]
    exact (List.getElem?_eq_some_iff.mp here).1
  have found := loaded.getModuleById (List.getElem?_eq_getElem bound) here
  rw [free] at found
  cases found

theorem added (loaded : Loaded lines w) {line : Creation} (free : Preset.getModuleById w line.id = none)
    (made : Made line m.state) : Loaded (lines ++ [line]) (added w m) := by
  have more := loaded.allocate m
  refine ⟨fun r inside => ?_, ?_, ?_⟩
  · rcases List.mem_append.mp inside with old | new
    · exact more.below r old
    · exact List.mem_singleton.mp new ▸ Nat.lt_succ_self _
  · refine List.rel_append more.made (.cons ⟨m, ?_, made⟩ .nil)
    exact Function.update_self ..
  · rw [List.map_append, List.nodup_append]
    refine ⟨loaded.distinct, List.nodup_singleton _, fun a old b new => ?_⟩
    rintro rfl
    have same : a = line.id := List.mem_singleton.mp new
    exact loaded.unused free (same ▸ old)

end Loaded

/-! ### Every line -/

namespace Loader

open Stateful

variable {lines : List Creation} {tokens args : List Str} {a b : Str}

def Keeps (lines : List Creation) (x : Loader P Unit) (s : Reader P) : Prop :=
  After x s (fun _ s => Loaded lines s.net) fun _ s => Loaded lines s.net

theorem after_updateNet {f : Net (Config P) → Net (Config P)} {done : Unit → Reader P → Prop}
    {failed : Failure → Reader P → Prop} : After (updateNet f) s done failed ↔ done () { s with net := f s.net } := Iff.rfl

theorem after_checkModule {r : ModuleRef} {done : Unit → Reader P → Prop} {failed : Failure → Reader P → Prop}
    (good : done () s) (bad : failed (moduleError s.net r) { s with net := s.net.clearError r }) :
    After (checkModule r) s done failed := by
  unfold checkModule
  rw [after_bind, after_get]
  split
  · exact bad
  · exact good

theorem keeps_checkModule {r : ModuleRef} (loaded : Loaded lines s.net) : Keeps lines (checkModule r) s :=
  after_checkModule loaded (loaded.clearError r)

theorem after_token {i : Nat} {done : Str → Reader P → Prop} {failed : Failure → Reader P → Prop}
    (good : ∀ t, tokens[i]? = some t → done t s) (bad : failed .crash s) : After (token tokens i) s done failed := by
  unfold token
  split
  · rename_i t here
    exact good t here
  · exact bad

theorem keeps_config (loaded : Loaded lines s.net) : Keeps lines (config tokens) s := by
  unfold config
  split
  · exact loaded
  · refine after_bind.mpr (after_token (fun t _ => ?_) loaded)
    split
    · exact after_bind.mpr (after_token (fun _ _ => loaded) loaded)
    · exact loaded

theorem keeps_set (loaded : Loaded lines s.net) : Keeps lines (set tokens) s := by
  unfold set
  split
  · exact loaded
  · refine after_bind.mpr (after_token (fun id _ => ?_) loaded)
    rw [after_bind, after_get]
    split
    · exact loaded
    · rename_i r _
      refine after_bind.mpr (after_token (fun name _ => ?_) loaded)
      have last (value : Str) : Keeps lines (do updateNet fun w => setOn w r name value; checkModule r) s :=
        keeps_checkModule (s := { s with net := Preset.setOn s.net r name value }) (loaded.setOn r name value)
      simp only []
      split
      · exact after_bind.mpr (after_token (fun value _ => last value) loaded)
      · exact last []

theorem keeps_settext (loaded : Loaded lines s.net) : Keeps lines (settext tokens) s := by
  unfold settext
  split
  · exact loaded
  · refine after_bind.mpr (after_token (fun id _ => ?_) loaded)
    refine after_bind.mpr (after_token (fun name _ => ?_) loaded)
    exact after_bind.mpr (after_token (fun tag _ => loaded) loaded)

theorem keeps_connect (loaded : Loaded lines s.net) : Keeps lines (connect tokens) s := by
  unfold connect
  split
  · exact loaded
  · refine after_bind.mpr (after_token (fun id _ => ?_) loaded)
    rw [after_bind, after_get]
    split
    · exact loaded
    · rename_i r _
      refine after_bind.mpr (after_token (fun id' _ => ?_) loaded)
      rw [after_bind, after_get]
      split
      · exact loaded
      · rename_i r' _
        refine after_bind.mpr (after_token (fun outidx _ => ?_) loaded)
        refine after_bind.mpr (after_token (fun inidx _ => ?_) loaded)
        have linked := loaded.setInput r' (s.net.getOutput r (Text.atoi outidx).toInt) (Text.atoi inidx).toInt
        rw [after_bind, after_updateNet, after_bind]
        exact after_checkModule (keeps_checkModule linked) (linked.clearError r)

theorem after_create (loaded : Loaded lines s.net) : After (create tokens) s
    (fun _ s => ∃ first sub type id, tokens = [first, sub, type, id] ∧ Loaded (lines ++ [⟨type, id⟩]) s.net)
    fun _ s => Loaded lines s.net := by
  unfold create
  split
  · exact loaded
  · rename_i count
    match tokens, not_not.mp count with
    | [first, sub, type, id], _ =>
      refine after_bind.mpr (after_token (fun t here => ?_) loaded)
      cases here
      rw [after_bind, after_get]
      split
      · exact loaded
      · rename_i free
        refine after_bind.mpr (after_token (fun t here => ?_) loaded)
        cases here
        split
        · exact loaded
        · rename_i t known
          have made : Made ⟨type, id⟩ (Reader.newModule t (t.construct P s.counters).1 id).state :=
            Made.newModule known s.counters
          rw [after_bind, after_get]
          simp only []
          rw [after_bind, after_modify, after_bind]
          refine after_checkModule ?_ ((loaded.allocate _).clearError _)
          rw [after_bind, after_updateNet, after_bind, after_updateNet, after_bind]
          simp only [setOn, Net.updateModule_allocate]
          refine after_checkModule ?_ ((loaded.allocate _).clearError _)
          exact ⟨first, sub, type, id, rfl, loaded.added free made⟩

theorem after_pipeline (loaded : Loaded lines s.net) (first : tokens[0]? = some "pipeline".toList) :
    After (pipeline tokens) s (fun _ s => Loaded (lines ++ (creation tokens).toList) s.net)
      fun _ s => Loaded lines s.net := by
  unfold pipeline
  split
  · exact loaded
  · refine after_bind.mpr (after_token (fun sub here => ?_) loaded)
    split
    · rename_i create
      refine (after_create loaded).imp (fun _ s' => ?_) fun _ _ h => h
      rintro ⟨_, _, type, id, rfl, more⟩
      cases first
      cases here
      rw [creation, if_pos ⟨rfl, create⟩]
      exact more
    · rename_i other
      have none_ : creation tokens = none := by
        unfold creation
        split
        · cases here
          exact if_neg fun both => other both.2
        · rfl
      rw [none_, Option.toList_none, List.append_nil]
      split
      · exact keeps_set loaded
      · split
        · exact keeps_settext loaded
        · split
          · exact keeps_connect loaded
          · exact loaded

theorem after_command (loaded : Loaded lines s.net) :
    After (command tokens) s (fun _ s => Loaded (lines ++ (creation tokens).toList) s.net)
      fun _ s => Loaded lines s.net := by
  refine after_bind.mpr (after_token (fun first here => ?_) loaded)
  have none_ (other : first ≠ "pipeline".toList) : lines ++ (creation tokens).toList = lines := by
    unfold creation
    split
    · cases here
      rw [if_neg fun both => other both.1]
      exact List.append_nil _
    · exact List.append_nil _
  split
  · rename_i config
    rw [none_ (by rw [config]; decide)]
    exact keeps_config loaded
  · split
    · rename_i pipeline
      exact after_pipeline loaded (pipeline ▸ here)
    · exact loaded

theorem keeps_setLate (loaded : Loaded lines s.net) (text : Str) (late : LateSet) :
    Keeps lines (setLate tokens text late) s := by
  unfold setLate
  rw [Keeps, after_bind, after_get]
  split
  · exact after_bind.mpr (after_token (fun _ _ => loaded) loaded)
  · rename_i r _
    rw [after_bind, after_updateNet, after_bind, after_updateNet]
    exact keeps_checkModule ((loaded.setOn r late.name text).markText r late.name)

theorem keeps_setLates (loaded : Loaded lines s.net) (tag text : Str) (fuel : Nat) :
    Keeps lines (setLates tokens tag text fuel) s := by
  induction fuel generalizing s with
  | zero => exact loaded
  | succ fuel ih =>
    unfold setLates
    rw [Keeps, after_bind, after_get]
    split
    · exact loaded
    · rename_i late _
      rw [after_bind]
      refine (keeps_setLate loaded text late).imp (fun _ s' more => ?_) fun _ _ h => h
      rw [after_bind, after_modify]
      exact ih more

theorem keeps_boundaryLine (loaded : Loaded lines s.net) : Keeps lines (boundaryLine tokens) s := by
  have ended : Keeps lines (endData tokens) s := by
    unfold endData
    rw [Keeps, after_bind, after_get]
    split
    · exact loaded
    · rw [after_bind, after_modify]
      exact keeps_setLates (s := { s with data := none }) loaded ..
  rw [Keeps, boundaryLine, after_bind]
  refine ended.imp (fun _ s' more => ?_) fun _ _ h => h
  unfold startData
  split
  · exact after_bind.mpr (after_token (fun _ _ => more) more)
  · exact more

theorem after_parseLine (loaded : Loaded lines s.net) (line : Str) : After (parseLine line) s
    (fun _ s' => Loaded (lines ++ (created s.data.isSome line).toList) s'.net) fun _ s => Loaded lines s.net := by
  have same (nothing : created s.data.isSome line = none) : lines ++ (created s.data.isSome line).toList = lines := by
    rw [nothing]
    exact List.append_nil _
  unfold parseLine
  split
  · rename_i empty
    rw [same (if_pos (Or.inl (Or.inl empty)))]
    exact loaded
  · rename_i content
    split
    · rename_i comment
      rw [same (if_pos (Or.inl (Or.inr comment)))]
      exact loaded
    · rename_i noComment
      have notSkipped : ¬ Skipped line := not_or.mpr ⟨content, noComment⟩
      simp only []
      rw [after_bind, after_get]
      split
      · exact loaded
      · refine after_bind.mpr (after_token (fun first here => ?_) loaded)
        have head : (Text.words line).head? = some first := by rw [List.head?_eq_getElem?, here]
        split
        · rename_i bound
          rw [same (if_pos (Or.inr (Or.inl (by rw [isBoundary, head, bound, beq_self_eq_true]))))]
          exact keeps_boundaryLine loaded
        · rename_i other
          have command : isBoundary line = false := by
            rw [isBoundary, head]
            simpa using other
          split
          · rename_i opened
            rw [same (if_pos (Or.inr (Or.inr (by rw [opened]; rfl))))]
            exact loaded
          · rename_i outside
            have now : created s.data.isSome line = creation (Text.words line) := by
              rw [created, if_neg]
              simp [notSkipped, command, outside]
            rw [now]
            exact after_command loaded

end Loader

theorem boundaryLine_datamode {rest : List Str} {s' : Reader P} (h : s.boundaryLine rest = .ok s') :
    s'.data.isSome = (rest.length == 1) := by
  rw [Bool.eq_iff_iff, Option.isSome_iff_exists, beq_iff_eq, List.length_eq_one_iff]
  constructor
  · rintro ⟨⟨tag, text⟩, opened⟩
    exact ⟨tag, (((boundaryLine_crosses h).data tag text).mp opened).1⟩
  · rintro ⟨tag, started⟩
    exact ⟨(tag, []), ((boundaryLine_crosses h).data tag []).mpr ⟨started, rfl⟩⟩

theorem parseLine_datamode {line : Str} {s' : Reader P} (h : s.parseLine line = .ok s') :
    s'.data.isSome = datamodeAfter s.data.isSome line := by
  unfold datamodeAfter
  cases parseLine_reads h with
  | skip skipped => rw [if_pos skipped]
  | boundary kept words done =>
    rw [if_neg kept, boundaryLine_datamode done, isBoundary, words]
    simp
  | data kept _ other inside =>
    rw [if_neg kept, other, inside]
    rfl
  | command kept other outside words done =>
    rw [if_neg kept, other, (command_change done).data]
    rfl

/-- The reader stops after some of the lines, or after all of them. -/
theorem after_parseLines {done : List Creation} (loaded : Loaded done s.net) (lines : List Str) :
    Stateful.After (Loader.parseLines lines) s (fun _ s' => Loaded (done ++ creations s.data.isSome lines) s'.net)
      fun _ s' => ∃ read < lines.length, Loaded (done ++ creations s.data.isSome (lines.take read)) s'.net := by
  induction lines generalizing s done with
  | nil => 
    rw [creations, List.append_nil]
    exact loaded
  | cons line lines ih =>
    unfold Loader.parseLines
    rw [Stateful.after_bind]
    refine (Loader.after_parseLine loaded line).with_outcome.imp (fun _ s₁ first => ?_) fun _ s₁ before => ?_
    · obtain ⟨more, run⟩ := first
      rw [Loader.outcome_parseLine] at run
      have rest := ih more
      rw [parseLine_datamode run] at rest
      refine rest.imp (fun _ s' all => ?_) fun _ s' some_ => ?_
      · rwa [creations, ← List.append_assoc]
      · obtain ⟨read, short, part⟩ := some_
        refine ⟨read + 1, Nat.succ_lt_succ short, ?_⟩
        rwa [List.take_succ_cons, creations, ← List.append_assoc]
    · refine ⟨0, Nat.succ_pos _, ?_⟩
      rw [List.take_zero, creations, List.append_nil]
      exact before

structure Identified (lines : List Creation) (w : Net (Config P)) : Prop where
  own : List.Forall₂ (fun r (line : Creation) => ∃ m, w.modules r = some m ∧
    ModuleType.ofName line.type = some m.state.type ∧ m.state.id = line.id) w.elements lines
  distinct : ((configs w).map (·.id)).Nodup
  found : ∀ (i : Nat) r line, w.elements[i]? = some r → lines[i]? = some line → getModuleById w line.id = some r

theorem Loaded.identified {lines : List Creation} (loaded : Loaded lines w) : Identified lines w where
  own := loaded.made.imp fun _ _ ⟨m, live, made⟩ => ⟨m, live, made.type, made.id⟩
  distinct := by
    rw [loaded.ids]
    exact loaded.distinct
  found _ _ _ element here := loaded.getModuleById element here

/-- From an empty pipeline on, every module has the id of its own line, and is found by it, when
`parse` returns. It returns false after some of the lines. -/
theorem parse_identifies {net : Net (Config P)} (empty : net.elements = []) (counters : Counters) (delay : Int32)
    (text : Str) :
    (∀ s, Loader.parse text (Reader.start net counters delay) = .ok () s →
      Identified (creations false (Text.lines text)) s.net) ∧
    ∀ e s, Loader.parse text (Reader.start net counters delay) = .error e s →
      ∃ read < (Text.lines text).length, Identified (creations false ((Text.lines text).take read)) s.net := by
  have start : Loaded [] (Reader.start net counters delay).net := by
    refine ⟨fun r inside => ?_, ?_, List.nodup_nil⟩
    · rw [Reader.start, empty] at inside
      cases inside
    · rw [Reader.start, empty]
      exact .nil
  have after := after_parseLines start (Text.lines text)
  refine ⟨fun s run => (after.of_ok run).identified, fun e s run => ?_⟩
  obtain ⟨read, short, loaded⟩ := after.of_error run
  exact ⟨read, short, loaded.identified⟩

/-- The id is set again here, which has no effect. -/
def secondId : Str := Text.unlines ["pipeline create Erode a".toList, "pipeline set a id b".toList]

theorem secondId_identifies : (Net.empty : Net (Config Platform.whole)).elements = [] ∧
    (∀ s, Loader.parse secondId (Reader.start (Net.empty : Net (Config Platform.whole)) ⟨0, 0⟩ 0) = .ok () s →
      Identified (creations false (Text.lines secondId)) s.net) ∧
    ∀ e s, Loader.parse secondId (Reader.start (Net.empty : Net (Config Platform.whole)) ⟨0, 0⟩ 0) = .error e s →
      ∃ read < (Text.lines secondId).length, Identified (creations false ((Text.lines secondId).take read)) s.net :=
  ⟨rfl, parse_identifies rfl ⟨0, 0⟩ 0 secondId⟩

end Movid.Preset
