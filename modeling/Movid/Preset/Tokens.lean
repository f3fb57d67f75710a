import Movid.Lib.Machine
import Movid.Preset.Loader

/-!
# Tokens that are not there

A line of a file has as many tokens as it likes. The reader checks their number before it looks
at them, except in data mode, and except in one message.
-/

namespace Movid.Preset

variable {P : Platform} {s : Reader P}

/-- What `parse` returns. There is nothing to return when it reads a token that is not there. -/
def Loader.returned (x : Loader P Unit) (s : Reader P) : Option Bool :=
  match x s with
  | .ok _ _ => some true
  | .error (.error _) _ => some false
  | .error .crash _ => none

/-- Every module that the `settext` commands of a section name is in the pipeline when its turn
comes. A module with an error ends the reading before the others are looked for. -/
def settable (tag text : Str) : Net (Config P) → List LateSet → Bool
  | _, [] => true
  | w, late :: rest =>
    if late.tag = tag then
      match getModuleById w late.id with
      | none => false
      | some r =>
        let w := markText (setOn w r late.name text) r late.name
        haveError w r || settable tag text w rest
    else settable tag text w rest

/-- A line that the reader is safe to see when it is in the state: in data mode a line has a
token, and the boundary line at the end of a section has three, or all modules are found. -/
def Readable (s : Reader P) (line : Str) : Prop :=
  ∀ tag text, s.data = some (tag, text) → line ≠ [] → line.head? ≠ some '#' →
    Text.words line ≠ [] ∧ ((Text.words line).head? = some boundary → (Text.words line).length ≤ 2 →
      settable tag text s.net s.late = true)

theorem returned_eq_none {x : Loader P Unit} : x.returned s = none ↔ Stateful.outcome x s = .error .crash := by
  unfold Loader.returned Stateful.outcome
  split <;> simp_all

/-! ### Commands look at the number of tokens first -/

section Commands

variable {args : List Str} {first : Str}

theorem config_ne_crash : s.config args ≠ .error .crash := by
  unfold Reader.config
  split
  · exact fun h => nomatch h
  · exact fun h => nomatch h

theorem create_ne_crash : s.create args ≠ .error .crash := by
  unfold Reader.create
  split
  · split
    · exact fun h => nomatch h
    · split
      · exact fun h => nomatch h
      · simp only []
        split <;> exact fun h => nomatch h
  · exact fun h => nomatch h

theorem assign_ne_crash {id name value : Str} : s.assign id name value ≠ .error .crash := by
  unfold Reader.assign
  split
  · exact fun h => nomatch h
  · simp only []
    split <;> exact fun h => nomatch h

theorem set_ne_crash : s.set args ≠ .error .crash := by
  unfold Reader.set
  split
  · exact assign_ne_crash
  · exact assign_ne_crash
  · exact fun h => nomatch h

theorem settext_ne_crash : s.settext args ≠ .error .crash := by
  unfold Reader.settext
  split <;> exact fun h => nomatch h

theorem connect_ne_crash : s.connect args ≠ .error .crash := by
  unfold Reader.connect
  split
  · split
    · exact fun h => nomatch h
    · split
      · exact fun h => nomatch h
      · simp only []
        split
        · exact fun h => nomatch h
        · split <;> exact fun h => nomatch h
  · exact fun h => nomatch h

theorem command_ne_crash : s.command first args ≠ .error .crash := by
  unfold Reader.command
  split
  · exact config_ne_crash
  · split
    · unfold Reader.pipeline
      split
      · exact fun h => nomatch h
      · split
        · exact create_ne_crash
        · split
          · exact set_ne_crash
          · split
            · exact settext_ne_crash
            · split
              · exact connect_ne_crash
              · exact fun h => nomatch h
    · exact fun h => nomatch h

end Commands

/-! ### The end of a section -/

theorem closeSection_crash {third : Option Str} {tag text : Str} {w : Net (Config P)} {late : List LateSet} :
    closeSection third tag text w late = .error .crash ↔ third = none ∧ settable tag text w late = false := by
  induction late generalizing w with
  | nil => simp [closeSection, settable]
  | cons l late ih =>
    unfold closeSection settable
    split
    · unfold setLate
      cases getModuleById w l.id with
      | none => cases third <;> simp [bind, Except.bind]
      | some r =>
        simp only []
        split
        · rename_i error
          simp [error, moduleError, bind, Except.bind]
        · rename_i error
          simp only [bind, Except.bind, ih, Bool.eq_false_iff.mpr error, Bool.false_or]
    · cases run : closeSection third tag text w late with
      | error e =>
        rw [← ih, run]
        rfl
      | ok rest =>
        rw [← ih, run]
        simp [bind, Except.bind]

theorem error_of_bind {ε α β : Type} {x : Except ε α} {f : α → β} {e : ε} :
    (x >>= fun a => .ok (f a)) = .error e ↔ x = .error e := by
  cases x <;> simp [bind, Except.bind]

theorem endData_crash {third : Option Str} {tag text : Str} (opened : s.data = some (tag, text)) :
    s.endData third = .error .crash ↔ third = none ∧ settable tag text s.net s.late = false := by
  unfold Reader.endData
  rw [opened]
  exact error_of_bind.trans closeSection_crash

theorem boundaryLine_crash {rest : List Str} {tag text : Str} (opened : s.data = some (tag, text)) :
    s.boundaryLine rest = .error .crash ↔ rest.length ≤ 1 ∧ settable tag text s.net s.late = false := by
  unfold Reader.boundaryLine
  rw [error_of_bind, endData_crash opened, List.getElem?_eq_none_iff]

theorem boundaryLine_ne_crash {rest : List Str} (outside : s.data = none) : s.boundaryLine rest ≠ .error .crash := by
  unfold Reader.boundaryLine Reader.endData
  rw [outside]
  exact fun h => nomatch h

theorem parseLine_crash {line : Str} : s.parseLine line = .error .crash ↔ ¬ Readable s line := by
  unfold Reader.parseLine
  split
  · rename_i empty
    simp [Readable, empty]
  · rename_i content
    split
    · rename_i comment
      simp [Readable, comment]
    · rename_i noComment
      cases opened : s.data with
      | none =>
        have readable : Readable s line := fun tag text inside => by
          rw [opened] at inside
          cases inside
        simp only [readable, not_true, iff_false]
        split
        · exact fun h => nomatch h
        · split
          · rename_i long _ words
            rw [words] at long
            exact absurd ⟨Nat.zero_le _, trivial⟩ long
          · split
            · exact boundaryLine_ne_crash opened
            · exact command_ne_crash
      | some sec =>
        obtain ⟨tag, text⟩ := sec
        have readable : Readable s line ↔ Text.words line ≠ [] ∧ ((Text.words line).head? = some boundary →
            (Text.words line).length ≤ 2 → settable tag text s.net s.late = true) := by
          constructor
          · exact fun h => h tag text opened content noComment
          · intro h tag' text' inside _ _
            cases opened.symm.trans inside
            exact h
        rw [readable]
        cases Text.words line with
        | nil => simp
        | cons first rest =>
          simp only [reduceCtorEq, and_false, if_false, ne_eq, not_false_eq_true, true_and, List.head?_cons,
            Option.some.injEq, List.length_cons]
          split
          · rename_i bound
            rw [boundaryLine_crash opened]
            simp [bound]
          · rename_i other
            simp [other]

/-! ### The whole file -/

def readLine (s : Reader P) (line : Str) : Option (Reader P) := (Stateful.outcome (Loader.parseLine line) s).toOption

theorem parseLines_crash {lines : List Str} :
    s.parseLines lines = .error .crash ↔ ¬ Machine.Allowed readLine Readable s lines := by
  induction lines generalizing s with
  | nil => simp [Reader.parseLines_nil, Machine.Allowed]
  | cons line lines ih =>
    rw [Reader.parseLines_cons, Machine.Allowed]
    have crash : s.parseLine line = .error .crash ↔ ¬ Readable s line := parseLine_crash
    cases run : s.parseLine line with
    | error e =>
      have none_ : readLine s line = none := by rw [readLine, Loader.outcome_parseLine, run]; rfl
      rw [run] at crash
      simp only [none_, reduceCtorEq, false_imp_iff, implies_true, and_true]
      exact crash
    | ok s' =>
      have some_ : readLine s line = some s' := by rw [readLine, Loader.outcome_parseLine, run]; rfl
      rw [run] at crash
      have readable : Readable s line := by
        by_contra bad
        cases crash.mpr bad
      simp only [some_, Option.some.injEq, forall_eq', readable, true_and]
      exact ih

/-- The reader returns true or false exactly when every line it comes to is readable. -/
theorem parse_returns_iff (net : Net (Config P)) (counters : Counters) (delay : Int32) (text : Str) :
    (∃ result, (Loader.parse text).returned (Reader.start net counters delay) = some result) ↔
      Machine.Allowed readLine Readable (Reader.start net counters delay) (Text.lines text) := by
  rw [← Option.isSome_iff_exists, Option.isSome_iff_ne_none, ne_eq, returned_eq_none, Loader.outcome_parse,
    Reader.parse, parseLines_crash, not_not]

/-- White space in a section. -/
theorem parse_returns_nothing : ¬ ∃ result, (Loader.parse (boundary ++ " notes\n \n".toList)).returned
    (Reader.start (Net.empty : Net (Config Platform.whole)) ⟨0, 0⟩ 0) = some result := by
  have nothing : (Loader.parse (boundary ++ " notes\n \n".toList)).returned
    (Reader.start (Net.empty : Net (Config Platform.whole)) ⟨0, 0⟩ 0) = none := by decide
  rw [nothing]
  exact fun ⟨_, h⟩ => nomatch h

end Movid.Preset
