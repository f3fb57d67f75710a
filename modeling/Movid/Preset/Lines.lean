import Movid.Preset.Format

/-!
# How the written lines are read

For each kind of line that the writer makes: the command that the reader runs for it, when the
ids and names in it are tokens.
-/

namespace Movid.Preset

variable {P : Platform}

theorem words_cons_token {w rest : Str} (token : Text.Token w) : Text.words (w ++ ' ' :: rest) = w :: Text.words rest :=
  token.words_cons rfl rest

theorem pipeline_token : Text.Token "pipeline".toList := by decide

theorem words_pipeline {sub rest : Str} (token : Text.Token sub) :
    Text.words ("pipeline ".toList ++ (sub ++ ' ' :: rest)) = "pipeline".toList :: sub :: Text.words rest := by
  have start : "pipeline ".toList ++ (sub ++ ' ' :: rest) = "pipeline".toList ++ ' ' :: (sub ++ ' ' :: rest) := rfl
  rw [start, words_cons_token pipeline_token, words_cons_token token]

theorem words_createLine {type id : Str} (typeToken : Text.Token type) (idToken : Text.Token id) :
    Text.words (createLine type id) = ["pipeline".toList, "create".toList, type, id] := by
  have start : createLine type id = "pipeline ".toList ++ ("create".toList ++ ' ' :: (type ++ ' ' :: id)) := rfl
  rw [start, words_pipeline (by decide), words_cons_token typeToken, idToken.words_eq]

theorem words_setLine {id name : Str} (idToken : Text.Token id) (nameToken : Text.Token name) (value : Str) :
    Text.words (setLine id name value) = "pipeline".toList :: "set".toList :: id :: name :: Text.words value := by
  have start : setLine id name value =
    "pipeline ".toList ++ ("set".toList ++ ' ' :: (id ++ ' ' :: (name ++ ' ' :: value))) := rfl
  rw [start, words_pipeline (by decide), words_cons_token idToken, words_cons_token nameToken]

theorem setLine_value (id name value : Str) : setLine id name value = setLine id name [] ++ value := by
  have args : id ++ ' ' :: (name ++ ' ' :: value) = (id ++ ' ' :: (name ++ [' '])) ++ value := by simp
  unfold setLine
  rw [args, List.append_assoc "pipeline set ".toList]

theorem tag_token {id name : Str} (idToken : Text.Token id) (nameToken : Text.Token name) :
    Text.Token (tag id name) := by
  refine ⟨by simp [tag], fun c member => ?_⟩
  rcases List.mem_append.mp member with first | second
  · exact idToken.2 c first
  · rcases List.mem_cons.mp second with rfl | last
    · rfl
    · exact nameToken.2 c last

theorem words_setTextLine {id name : Str} (idToken : Text.Token id) (nameToken : Text.Token name) :
    Text.words (setTextLine id name) = ["pipeline".toList, "settext".toList, id, name, tag id name] := by
  have start : setTextLine id name =
    "pipeline ".toList ++ ("settext".toList ++ ' ' :: (id ++ ' ' :: (name ++ ' ' :: tag id name))) := rfl
  rw [start, words_pipeline (by decide), words_cons_token idToken, words_cons_token nameToken,
    (tag_token idToken nameToken).words_eq]

theorem words_connectLine {id id' : Str} (idToken : Text.Token id) (idToken' : Text.Token id') (i n : Int) :
    Text.words (connectLine id i id' n) =
      ["pipeline".toList, "connect".toList, id, Text.showInt i, id', Text.showInt n] := by
  have start : connectLine id i id' n = "pipeline ".toList ++ ("connect".toList ++ ' ' ::
    (id ++ ' ' :: (Text.showInt i ++ ' ' :: (id' ++ ' ' :: (Text.showInt n ++ ' ' :: []))))) := rfl
  rw [start, words_pipeline (by decide), words_cons_token idToken, words_cons_token (Text.showInt_token i),
    words_cons_token idToken', words_cons_token (Text.showInt_token n), Text.words_nil]

theorem boundary_token : Text.Token boundary := by decide

theorem words_boundary {t : Str} (token : Text.Token t) : Text.words (boundary ++ ' ' :: t) = [boundary, t] := by
  rw [words_cons_token boundary_token, token.words_eq]

theorem head_pipeline (rest : Str) : (Text.words ("pipeline ".toList ++ rest)).head? ≠ some boundary := by
  have start : "pipeline ".toList ++ rest = "pipeline".toList ++ ' ' :: rest := rfl
  rw [start, words_cons_token pipeline_token, List.head?_cons]
  decide

/-! ### No line feed -/

theorem newline_not_mem_words {first rest : Str} (clean : '\n' ∉ first) (clean' : '\n' ∉ rest) :
    '\n' ∉ first ++ ' ' :: rest := by
  rw [List.mem_append, List.mem_cons, not_or, not_or]
  exact ⟨clean, by decide, clean'⟩

theorem newline_not_mem_append {first rest : Str} (clean : '\n' ∉ first) (clean' : '\n' ∉ rest) :
    '\n' ∉ first ++ rest := by
  rw [List.mem_append, not_or]
  exact ⟨clean, clean'⟩

theorem createLine_newline {type id : Str} (typeToken : Text.Token type) (idToken : Text.Token id) :
    '\n' ∉ createLine type id :=
  newline_not_mem_append (by decide) (newline_not_mem_words typeToken.newline_not_mem idToken.newline_not_mem)

theorem setLine_newline {id name value : Str} (idToken : Text.Token id) (nameToken : Text.Token name)
    (clean : '\n' ∉ value) : '\n' ∉ setLine id name value :=
  newline_not_mem_append (by decide) (newline_not_mem_words idToken.newline_not_mem
    (newline_not_mem_words nameToken.newline_not_mem clean))

theorem setTextLine_newline {id name : Str} (idToken : Text.Token id) (nameToken : Text.Token name) :
    '\n' ∉ setTextLine id name :=
  newline_not_mem_append (by decide) (newline_not_mem_words idToken.newline_not_mem
    (newline_not_mem_words nameToken.newline_not_mem (tag_token idToken nameToken).newline_not_mem))

theorem connectLine_newline {id id' : Str} (idToken : Text.Token id) (idToken' : Text.Token id') (i n : Int) :
    '\n' ∉ connectLine id i id' n :=
  newline_not_mem_append (by decide) (newline_not_mem_words idToken.newline_not_mem
    (newline_not_mem_words (Text.showInt_token i).newline_not_mem (newline_not_mem_words idToken'.newline_not_mem
      (newline_not_mem_words (Text.showInt_token n).newline_not_mem List.not_mem_nil))))

theorem ok_of_bind {ε α β : Type} {x : Except ε α} {f : α → Except ε β} {b : β} (h : x.bind f = .ok b) :
    ∃ a, x = .ok a ∧ f a = .ok b := by
  cases x with
  | error e => cases h
  | ok a => exact ⟨a, rfl, h⟩

/-! ### One line -/

def Skipped (line : Str) : Prop := line = [] ∨ line.head? = some '#'

instance (line : Str) : Decidable (Skipped line) := inferInstanceAs (Decidable (_ ∨ _))

def isBoundary (line : Str) : Bool := (Text.words line).head? == some boundary

section Reads

variable {s : Reader P}

/-- What the reader does with a line that it accepts. -/
inductive Reads (s : Reader P) (line : Str) : Reader P → Prop
  | skip (skipped : Skipped line) : Reads s line s
  | boundary {rest : List Str} {s' : Reader P} (kept : ¬ Skipped line) (words : Text.words line = Preset.boundary :: rest)
      (done : s.boundaryLine rest = .ok s') : Reads s line s'
  | data {tag text : Str} (kept : ¬ Skipped line) (words : Text.words line ≠ []) (other : isBoundary line = false)
      (inside : s.data = some (tag, text)) : Reads s line { s with data := some (tag, text ++ line ++ ['\n']) }
  | command {first : Str} {rest : List Str} {s' : Reader P} (kept : ¬ Skipped line) (other : isBoundary line = false)
      (outside : s.data = none) (words : Text.words line = first :: rest) (done : s.command first rest = .ok s') :
      Reads s line s'

theorem parseLine_reads {line : Str} {s' : Reader P} (h : s.parseLine line = .ok s') : Reads s line s' := by
  unfold Reader.parseLine at h
  split at h
  · rename_i empty
    cases h
    exact .skip (Or.inl empty)
  · rename_i content
    split at h
    · rename_i comment
      cases h
      exact .skip (Or.inr comment)
    · rename_i noComment
      have kept : ¬ Skipped line := not_or.mpr ⟨content, noComment⟩
      simp only [] at h
      split at h
      · cases h
      · split at h
        · cases h
        · rename_i first rest words
          split at h
          · rename_i bound
            exact .boundary kept (by rw [words, bound]) h
          · rename_i different
            have other : isBoundary line = false := by
              rw [isBoundary, words, List.head?_cons]
              simpa using different
            split at h
            · rename_i inside
              cases h
              exact .data kept (by simp [words]) other inside
            · rename_i outside
              exact .command kept other outside words h

end Reads

/-! ### The end of a section -/

theorem foldlM_ok_invariant {ε σ α : Type} {f : σ → α → Except ε σ} {I : σ → Prop} {l : List α}
    (step : ∀ s, ∀ a ∈ l, ∀ t, f s a = .ok t → I s → I t) {s t : σ} (h : l.foldlM f s = .ok t) (initial : I s) : I t := by
  induction l generalizing s with
  | nil =>
    cases h
    exact initial
  | cons a l ih =>
    rw [List.foldlM_cons] at h
    obtain ⟨u, first, rest⟩ := ok_of_bind h
    obtain ⟨here, later⟩ := List.forall_mem_cons.mp fun a member s => step s a member
    exact ih (fun s a member => later a member s) rest (here s u first initial)

/-- The commands with the tag are done in their order, the others are kept in theirs. -/
theorem closeSection_eq (third : Option Str) (tag text : Str) (w : Net (Config P)) (late : List LateSet) :
    closeSection third tag text w late = ((late.filter (·.tag = tag)).foldlM (setLate third text) w).map
      fun w => (w, late.filter (·.tag ≠ tag)) := by
  induction late generalizing w with
  | nil => rfl
  | cons l late ih =>
    unfold closeSection
    by_cases same : l.tag = tag
    · have due : (l :: late).filter (·.tag = tag) = l :: late.filter (·.tag = tag) := List.filter_cons_of_pos (by simpa using same)
      have kept : (l :: late).filter (·.tag ≠ tag) = late.filter (·.tag ≠ tag) := List.filter_cons_of_neg (by simpa using same)
      rw [if_pos same, due, kept, List.foldlM_cons]
      cases setLate third text w l with
      | error e => rfl
      | ok w => exact ih w
    · have due : (l :: late).filter (·.tag = tag) = late.filter (·.tag = tag) := List.filter_cons_of_neg (by simpa using same)
      have kept : (l :: late).filter (·.tag ≠ tag) = l :: late.filter (·.tag ≠ tag) := List.filter_cons_of_pos (by simpa using same)
      rw [if_neg same, due, kept, ih]
      cases (late.filter (·.tag = tag)).foldlM (setLate third text) w <;> rfl

theorem closeSection_ok {third : Option Str} {tag text : Str} {w w' : Net (Config P)} {late late' : List LateSet}
    (h : closeSection third tag text w late = .ok (w', late')) :
    (late.filter (·.tag = tag)).foldlM (setLate third text) w = .ok w' ∧ late' = late.filter (·.tag ≠ tag) := by
  rw [closeSection_eq] at h
  cases run : (late.filter (·.tag = tag)).foldlM (setLate third text) w with
  | error e =>
    rw [run] at h
    cases h
  | ok net =>
    rw [run] at h
    cases h
    exact ⟨rfl, rfl⟩

/-- What a boundary line that is accepted does: it ends the open section and may start another one. -/
structure Crosses (s : Reader P) (rest : List Str) (s' : Reader P) : Prop where
  data : ∀ tag text, s'.data = some (tag, text) ↔ rest = [tag] ∧ text = []
  outside : s.data = none → s'.net = s.net ∧ s'.late = s.late
  inside : ∀ tag text, s.data = some (tag, text) → closeSection rest[1]? tag text s.net s.late = .ok (s'.net, s'.late)
  counters : s'.counters = s.counters
  delay : s'.delay = s.delay

theorem startData_crosses {s s' : Reader P} (rest : List Str) (closed : s'.data = none)
    (outside : s.data = none → s'.net = s.net ∧ s'.late = s.late)
    (inside : ∀ tag text, s.data = some (tag, text) → closeSection rest[1]? tag text s.net s.late = .ok (s'.net, s'.late))
    (counters : s'.counters = s.counters) (delay : s'.delay = s.delay) : Crosses s rest (s'.startData rest) := by
  unfold Reader.startData
  split
  · rename_i started
    refine ⟨fun tag text => ?_, outside, inside, counters, delay⟩
    rw [Option.some.injEq, Prod.mk.injEq, List.cons.injEq, and_iff_left rfl]
    exact and_congr_right fun _ => eq_comm
  · rename_i other
    refine ⟨fun tag text => ?_, outside, inside, counters, delay⟩
    rw [closed]
    exact iff_of_false (fun h => nomatch h) fun started => other tag started.1

theorem boundaryLine_crosses {s s' : Reader P} {rest : List Str} (h : s.boundaryLine rest = .ok s') : Crosses s rest s' := by
  obtain ⟨s₁, ended, started⟩ := ok_of_bind h
  cases started
  unfold Reader.endData at ended
  split at ended
  · rename_i closed
    cases ended
    exact startData_crosses rest closed (fun _ => ⟨rfl, rfl⟩) (fun tag text opened => by rw [closed] at opened; cases opened) rfl rfl
  · rename_i tag text opened
    obtain ⟨⟨net, late⟩, run, same⟩ := ok_of_bind ended
    cases same
    refine startData_crosses rest rfl (fun closed => by rw [closed] at opened; cases opened) (fun tag' text' opened' => ?_) rfl rfl
    rw [opened] at opened'
    cases opened'
    exact run

/-! ### The lines of the writer -/

namespace Reader

variable {s : Reader P}

theorem parseLine_pipeline {line sub : Str} {args : List Str}
    (words : Text.words line = "pipeline".toList :: sub :: args) (starts : line.head? = some 'p')
    (outside : s.data = none) : s.parseLine line = s.pipeline (sub :: args) := by
  have nonempty : line ≠ [] := by
    rintro rfl
    cases starts
  have notComment : ¬line.head? = some '#' := by
    rw [starts]
    decide
  unfold parseLine
  rw [if_neg nonempty, if_neg notComment]
  simp only [words, outside]
  rw [if_neg (by simp), if_neg (by decide), command, if_neg (by decide), if_pos rfl]

theorem parseLine_create {type id : Str} (typeToken : Text.Token type) (idToken : Text.Token id)
    (outside : s.data = none) : s.parseLine (createLine type id) = s.create [type, id] := by
  rw [parseLine_pipeline (words_createLine typeToken idToken) rfl outside]
  rfl

theorem parseLine_set {id name value : Str} (idToken : Text.Token id) (nameToken : Text.Token name)
    (outside : s.data = none) :
    s.parseLine (setLine id name value) = s.set (id :: name :: Text.words value) := by
  rw [parseLine_pipeline (words_setLine idToken nameToken value) rfl outside]
  rfl

theorem parseLine_settext {id name : Str} (idToken : Text.Token id) (nameToken : Text.Token name)
    (outside : s.data = none) :
    s.parseLine (setTextLine id name) = .ok { s with late := s.late ++ [⟨id, name, tag id name⟩] } := by
  rw [parseLine_pipeline (words_setTextLine idToken nameToken) rfl outside]
  rfl

theorem parseLine_connect {id id' : Str} (idToken : Text.Token id) (idToken' : Text.Token id') (i n : Int)
    (outside : s.data = none) :
    s.parseLine (connectLine id i id' n) = s.connect [id, Text.showInt i, id', Text.showInt n] := by
  rw [parseLine_pipeline (words_connectLine idToken idToken' i n) rfl outside]
  rfl

theorem parseLines_append (first second : List Str) :
    s.parseLines (first ++ second) = (s.parseLines first).bind (parseLines · second) := by
  unfold parseLines
  rw [List.foldlM_append]
  rfl

theorem parseLines_nil : s.parseLines [] = .ok s := rfl

theorem parseLines_cons (line : Str) (rest : List Str) :
    s.parseLines (line :: rest) = (s.parseLine line).bind (parseLines · rest) := by
  unfold parseLines
  rw [List.foldlM_cons]
  rfl

end Reader

end Movid.Preset
