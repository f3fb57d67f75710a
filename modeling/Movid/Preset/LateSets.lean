import Mathlib.Tactic.IntervalCases
import Movid.Preset.Ids

/-!
# Where the text of a section goes

A `settext` command announces a text, a section with its tag delivers it. Here both are told by
the numbers of the lines of a file, and the reader is shown to keep to that.
-/

namespace Movid.Preset

variable {P : Platform} {w : Net (Config P)} {s s' : Reader P}

/-! ### The lines of a file -/

def Bounds (line : Str) : Prop := ¬ Skipped line ∧ isBoundary line = true

/-- Exactly two tokens. -/
def Starts (line tag : Str) : Prop := ¬ Skipped line ∧ Text.words line = [boundary, tag]

def settextOf (tokens : List Str) : Option LateSet :=
  match tokens with
  | [first, sub, id, name, tag] => if first = "pipeline".toList ∧ sub = "settext".toList then some { id, name, tag } else none
  | _ => none

/-- The text of a section, from the lines in it. -/
def content (lines : List Str) : Str := (lines.filter fun line => ¬ Skipped line).flatMap fun line => line ++ ['\n']

section Numbers

variable (lines : List Str)

/-- The section that line `i` starts is still open before line `k`. -/
structure Open (tag : Str) (i k : ℕ) : Prop where
  starts : ∃ line, lines[i]? = some line ∧ Starts line tag
  before : i < k
  inside : ∀ j line, i < j → j < k → lines[j]? = some line → ¬ Bounds line

structure Closes (tag : Str) (i k : ℕ) : Prop extends Open lines tag i k where
  bounds : ∃ line, lines[k]? = some line ∧ Bounds line

def between (i k : ℕ) : List Str := (lines.take k).drop (i + 1)

/-- Line `j` is the command, and in no section. -/
structure Announces (j : ℕ) (late : LateSet) : Prop where
  command : ∃ line, lines[j]? = some line ∧ ¬ Skipped line ∧ settextOf (Text.words line) = some late
  outside : ∀ tag i, ¬ Open lines tag i j

/-- What line `j` announces has not been delivered before line `k`. -/
structure Waits (k j : ℕ) (late : LateSet) : Prop where
  announced : Announces lines j late
  before : j < k
  since : ∀ i c, j < c → c < k → ¬ Closes lines late.tag i c

end Numbers

/-- The list has what `R` relates to a number, in the order of the numbers. -/
def Listed {α : Type} (R : ℕ → α → Prop) (l : List α) : Prop :=
  ∃ numbered : List (ℕ × α), numbered.Pairwise (·.1 < ·.1) ∧ numbered.map (·.2) = l ∧ ∀ n a, (n, a) ∈ numbered ↔ R n a

/-- How the reader stands before line `k`. -/
structure Follows (lines : List Str) (k : ℕ) (s : Reader P) : Prop where
  data : ∀ tag text, s.data = some (tag, text) ↔ ∃ i, Open lines tag i k ∧ text = content (between lines i k)
  late : Listed (Waits lines k) s.late

/-! ### Lists by number -/

section Listed

variable {α : Type} {R S : ℕ → α → Prop} {l : List α}

theorem Listed.congr (listed : Listed R l) (same : ∀ n a, R n a ↔ S n a) : Listed S l := by
  obtain ⟨numbered, sorted, values, members⟩ := listed
  exact ⟨numbered, sorted, values, fun n a => (members n a).trans (same n a)⟩

theorem Listed.nil (none_ : ∀ n a, ¬ R n a) : Listed R [] :=
  ⟨[], .nil, rfl, fun n a => iff_of_false List.not_mem_nil (none_ n a)⟩

theorem Listed.filter (listed : Listed R l) (p : α → Bool) : Listed (fun n a => R n a ∧ p a = true) (l.filter p) := by
  obtain ⟨numbered, sorted, rfl, members⟩ := listed
  refine ⟨numbered.filter (p ∘ (·.2)), sorted.filter _, List.filter_map.symm, fun n a => ?_⟩
  rw [List.mem_filter, members]
  exact Iff.rfl

theorem Listed.concat (listed : Listed R l) {k : ℕ} (below : ∀ n a, R n a → n < k) (x : α) :
    Listed (fun n a => R n a ∨ (n = k ∧ a = x)) (l ++ [x]) := by
  obtain ⟨numbered, sorted, rfl, members⟩ := listed
  refine ⟨numbered ++ [(k, x)], ?_, List.map_append, fun n a => ?_⟩
  · rw [List.pairwise_append]
    refine ⟨sorted, List.pairwise_singleton _ _, fun e member f last => ?_⟩
    rw [List.mem_singleton.mp last]
    exact below e.1 e.2 ((members e.1 e.2).mp member)
  · rw [List.mem_append, members, List.mem_singleton, Prod.mk.injEq]

end Listed

/-! ### From one line to the next -/

section Next

variable {lines : List Str} {k : ℕ} {line tag : Str} {i j : ℕ} {late : LateSet}

theorem bounds_of_words (kept : ¬ Skipped line) {rest : List Str} (words : Text.words line = boundary :: rest) : Bounds line := by
  refine ⟨kept, ?_⟩
  rw [isBoundary, words]
  exact beq_self_eq_true _

theorem not_bounds (other : isBoundary line = false) : ¬ Bounds line := fun bounds => by
  rw [bounds.2] at other
  cases other

theorem Announces.here (announced : Announces lines k late) (here : lines[k]? = some line) :
    ¬ Skipped line ∧ settextOf (Text.words line) = some late := by
  obtain ⟨other, found, kept, command⟩ := announced.command
  obtain rfl : line = other := Option.some.inj (here.symm.trans found)
  exact ⟨kept, command⟩

theorem Starts.bounds (starts : Starts line tag) : Bounds line := bounds_of_words starts.1 starts.2

theorem open_next (here : lines[k]? = some line) (inner : ¬ Bounds line) : Open lines tag i (k + 1) ↔ Open lines tag i k := by
  constructor
  · rintro ⟨⟨first, there, starts⟩, before, inside⟩
    have apart : i ≠ k := by
      rintro rfl
      obtain rfl : line = first := Option.some.inj (here.symm.trans there)
      exact inner starts.bounds
    refine ⟨⟨first, there, starts⟩, by omega, fun j line after below => inside j line after (by omega)⟩
  · rintro ⟨starts, before, inside⟩
    refine ⟨starts, by omega, fun j other after below found => ?_⟩
    by_cases last : j = k
    · subst last
      obtain rfl : line = other := Option.some.inj (here.symm.trans found)
      exact inner
    · exact inside j other after (by omega) found

theorem open_bounds (here : lines[k]? = some line) (bounds : Bounds line) :
    Open lines tag i (k + 1) ↔ i = k ∧ Starts line tag := by
  constructor
  · rintro ⟨⟨first, there, starts⟩, before, inside⟩
    have last : i = k := by
      by_contra apart
      exact inside k line (by omega) (by omega) here bounds
    subst last
    obtain rfl : line = first := Option.some.inj (here.symm.trans there)
    exact ⟨rfl, starts⟩
  · rintro ⟨rfl, starts⟩
    exact ⟨⟨line, here, starts⟩, by omega, fun j other after below => by omega⟩

theorem closes_iff (here : lines[k]? = some line) : Closes lines tag i k ↔ Open lines tag i k ∧ Bounds line := by
  constructor
  · rintro ⟨opened, other, found, bounds⟩
    obtain rfl : line = other := Option.some.inj (here.symm.trans found)
    exact ⟨opened, bounds⟩
  · rintro ⟨opened, bounds⟩
    exact ⟨opened, line, here, bounds⟩

theorem between_next (here : lines[k]? = some line) (before : i < k) : between lines i (k + 1) = between lines i k ++ [line] := by
  obtain ⟨inside, -⟩ := List.getElem?_eq_some_iff.mp here
  unfold between
  rw [List.take_add_one, here, List.drop_append_of_le_length (by rw [List.length_take]; omega)]
  rfl

theorem between_self : between lines k (k + 1) = [] := by
  unfold between
  exact List.drop_eq_nil_of_le (by rw [List.length_take]; omega)

theorem content_append (first second : List Str) : content (first ++ second) = content first ++ content second := by
  unfold content
  rw [List.filter_append, List.flatMap_append]

theorem content_skipped (skipped : Skipped line) : content [line] = [] := by
  unfold content
  rw [List.filter_cons_of_neg (by simpa using skipped)]
  rfl

theorem content_line (kept : ¬ Skipped line) : content [line] = line ++ ['\n'] := by
  unfold content
  rw [List.filter_cons_of_pos (by simpa using kept)]
  exact List.append_nil _

theorem waits_next : Waits lines (k + 1) j late ↔
    (Waits lines k j late ∧ ∀ i, ¬ Closes lines late.tag i k) ∨ (j = k ∧ Announces lines k late) := by
  constructor
  · rintro ⟨announced, before, since⟩
    by_cases last : j = k
    · subst last
      exact Or.inr ⟨rfl, announced⟩
    · refine Or.inl ⟨⟨announced, by omega, fun i c after below => since i c after (by omega)⟩, fun i => since i k (by omega) (by omega)⟩
  · rintro (⟨⟨announced, before, since⟩, still⟩ | ⟨rfl, announced⟩)
    · refine ⟨announced, by omega, fun i c after below => ?_⟩
      by_cases last : c = k
      · subst last
        exact still i
      · exact since i c after (by omega)
    · exact ⟨announced, by omega, fun i c after below => by omega⟩

theorem waits_quiet (here : lines[k]? = some line) (inner : ¬ Bounds line) (silent : ∀ late, ¬ Announces lines k late) :
    Waits lines (k + 1) j late ↔ Waits lines k j late := by
  rw [waits_next, or_iff_left fun h => silent late h.2]
  exact and_iff_left fun i closes => inner ((closes_iff here).mp closes).2

end Next

/-! ### What the reader does -/

theorem settextOf_eq_some {tokens : List Str} {late : LateSet} :
    settextOf tokens = some late ↔ tokens = ["pipeline".toList, "settext".toList, late.id, late.name, late.tag] := by
  unfold settextOf
  constructor
  · intro h
    split at h
    · split at h
      · rename_i both
        cases h
        rw [both.1, both.2]
      · cases h
    · cases h
  · rintro rfl
    exact if_pos ⟨rfl, rfl⟩

theorem settextOf_other {first : Str} {rest : List Str} (other : first ≠ "pipeline".toList ∨ rest.head? ≠ some "settext".toList) :
    settextOf (first :: rest) = none := by
  refine Option.eq_none_iff_forall_ne_some.mpr fun late same => ?_
  obtain ⟨rfl, rfl⟩ := List.cons.inj (settextOf_eq_some.mp same)
  rcases other with other | other
  · exact other rfl
  · exact other rfl

/-- Only `settext` announces, and its five tokens say what. -/
theorem command_late {first : Str} {rest : List Str} (h : s.command first rest = .ok s') :
    s'.late = s.late ++ (settextOf (first :: rest)).toList := by
  have silent (quiet : s'.late = s.late) (other : first ≠ "pipeline".toList ∨ rest.head? ≠ some "settext".toList) :
      s'.late = s.late ++ (settextOf (first :: rest)).toList := by
    rw [settextOf_other other, quiet]
    exact (List.append_nil _).symm
  unfold Reader.command at h
  split at h
  · rename_i config
    obtain ⟨delay, rfl⟩ := config_spec h
    exact silent rfl (Or.inl (by rw [config]; decide))
  · split at h
    · rename_i pipeline
      unfold Reader.pipeline at h
      split at h
      · cases h
      · rename_i sub args
        have other (name : Str) (same : sub = name) (differ : name ≠ "settext".toList) :
            (sub :: args).head? ≠ some "settext".toList := by
          rw [List.head?_cons, same]
          exact fun h => differ (Option.some.inj h)
        split at h
        · rename_i create
          obtain ⟨t, id, -, rfl⟩ := create_spec h
          exact silent rfl (Or.inr (other _ create (by decide)))
        · split at h
          · rename_i set
            obtain ⟨r, name, -, value, -, rfl⟩ := set_spec h
            exact silent rfl (Or.inr (other _ set (by decide)))
          · split at h
            · rename_i settext
              unfold Reader.settext at h
              split at h
              · cases h
                rw [pipeline, settext]
                rfl
              · cases h
            · split at h
              · rename_i connect
                obtain ⟨r, stream, n, rfl⟩ := connect_spec h
                exact silent rfl (Or.inr (other _ connect (by decide)))
              · cases h
    · cases h

section Follows

variable {lines : List Str} {k : ℕ} {line : Str}

theorem Follows.start (net : Net (Config P)) (counters : Counters) (delay : Int32) :
    Follows lines 0 (Reader.start net counters delay) where
  data := fun tag text => by
    refine iff_of_false (fun h => nomatch h) ?_
    rintro ⟨i, opened, -⟩
    exact Nat.not_lt_zero _ opened.before
  late := Listed.nil fun j late waits => Nat.not_lt_zero _ waits.before

theorem Follows.closed (follows : Follows lines k s) (outside : s.data = none) (tag : Str) (i : ℕ) : ¬ Open lines tag i k := by
  intro opened
  have inside := (follows.data tag _).mpr ⟨i, opened, rfl⟩
  rw [outside] at inside
  cases inside

theorem Follows.boundary (follows : Follows lines k s) (here : lines[k]? = some line) (kept : ¬ Skipped line) {rest : List Str}
    (words : Text.words line = Preset.boundary :: rest) (done : s.boundaryLine rest = .ok s') : Follows lines (k + 1) s' := by
  have bounds := bounds_of_words kept words
  have crosses := boundaryLine_crosses done
  have starts (tag : Str) : Starts line tag ↔ rest = [tag] := by
    rw [Starts, words, and_iff_right kept, List.cons.injEq, and_iff_right rfl]
  have silent (late : LateSet) (announced : Announces lines k late) : False := by
    have command := (announced.here here).2
    rw [words, settextOf_other (Or.inl (by decide))] at command
    cases command
  have next (j : ℕ) (late : LateSet) : Waits lines (k + 1) j late ↔ Waits lines k j late ∧ ∀ i, ¬ Open lines late.tag i k := by
    rw [waits_next, or_iff_left fun h => silent late h.2]
    simp only [closes_iff here, bounds, and_true]
  constructor
  · intro tag text
    simp only [crosses.data, open_bounds here bounds, starts]
    constructor
    · rintro ⟨started, rfl⟩
      exact ⟨k, ⟨rfl, started⟩, by rw [between_self]; rfl⟩
    · rintro ⟨i, ⟨rfl, started⟩, rfl⟩
      exact ⟨started, by rw [between_self]; rfl⟩
  · cases opened : s.data with
    | none =>
      rw [(crosses.outside opened).2]
      exact follows.late.congr fun j late => ((next j late).trans (and_iff_left fun i => follows.closed opened late.tag i)).symm
    | some section_ =>
      obtain ⟨tag, text⟩ := section_
      rw [(closeSection_ok (crosses.inside tag text opened)).2]
      refine (follows.late.filter fun l => l.tag ≠ tag).congr fun j late => ?_
      rw [next, decide_eq_true_eq]
      refine and_congr_right fun _ => ⟨fun differ i started => differ ?_, fun closed same => ?_⟩
      · have named := (follows.data late.tag _).mpr ⟨i, started, rfl⟩
        rw [opened] at named
        cases named
        rfl
      · obtain ⟨i, started, -⟩ := (follows.data tag text).mp opened
        exact closed i (same ▸ started)

theorem Follows.skipped (follows : Follows lines k s) (here : lines[k]? = some line) (skipped : Skipped line) :
    Follows lines (k + 1) s := by
  have inner : ¬ Bounds line := fun bounds => bounds.1 skipped
  constructor
  · intro tag text
    rw [follows.data]
    refine exists_congr fun i => ?_
    rw [open_next here inner]
    refine and_congr_right fun opened => ?_
    rw [between_next here opened.before, content_append, content_skipped skipped, List.append_nil]
  · exact follows.late.congr fun j late => (waits_quiet here inner fun late announced => (announced.here here).1 skipped).symm

theorem Follows.gathers (follows : Follows lines k s) (here : lines[k]? = some line) (kept : ¬ Skipped line)
    (other : isBoundary line = false) {tag text : Str} (inside : s.data = some (tag, text)) :
    Follows lines (k + 1) { s with data := some (tag, text ++ line ++ ['\n']) } := by
  have inner := not_bounds other
  obtain ⟨i, opened, same⟩ := (follows.data tag text).mp inside
  constructor
  · intro tag' text'
    constructor
    · intro h
      cases h
      refine ⟨i, (open_next here inner).mpr opened, ?_⟩
      rw [between_next here opened.before, content_append, content_line kept, same, List.append_assoc]
    · rintro ⟨i', opened', rfl⟩
      have opened' := (open_next here inner).mp opened'
      have named := (follows.data tag' _).mpr ⟨i', opened', rfl⟩
      rw [inside] at named
      cases named
      rw [between_next here opened'.before, content_append, content_line kept, List.append_assoc]
  · exact follows.late.congr fun j late => (waits_quiet here inner fun late announced => announced.outside tag i opened).symm

theorem Follows.command (follows : Follows lines k s) (here : lines[k]? = some line) (kept : ¬ Skipped line)
    (other : isBoundary line = false) (outside : s.data = none) {first : Str} {rest : List Str}
    (words : Text.words line = first :: rest) (done : s.command first rest = .ok s') : Follows lines (k + 1) s' := by
  have inner := not_bounds other
  have closed := follows.closed outside
  constructor
  · intro tag text
    rw [(command_change done).data, outside]
    refine iff_of_false (fun h => nomatch h) ?_
    rintro ⟨i, opened, -⟩
    exact closed tag i ((open_next here inner).mp opened)
  · rw [command_late done, ← words]
    cases command : settextOf (Text.words line) with
    | none =>
      rw [Option.toList_none, List.append_nil]
      refine follows.late.congr fun j late => (waits_quiet here inner fun late announced => ?_).symm
      rw [(announced.here here).2] at command
      cases command
    | some late =>
      rw [Option.toList_some]
      refine (follows.late.concat (fun j l waits => waits.before) late).congr fun j l => ?_
      rw [waits_next, and_iff_left fun i closes => inner ((closes_iff here).mp closes).2]
      refine or_congr_right (and_congr_right fun _ => ⟨?_, fun announced => ?_⟩)
      · rintro rfl
        exact ⟨⟨line, here, kept, command⟩, closed⟩
      · exact Option.some.inj ((announced.here here).2.symm.trans command)

/-- The reader goes from line to line as the numbers say. -/
theorem Follows.next (follows : Follows lines k s) (here : lines[k]? = some line) (h : s.parseLine line = .ok s') :
    Follows lines (k + 1) s' := by
  cases parseLine_reads h with
  | skip skipped => exact follows.skipped here skipped
  | boundary kept words done => exact follows.boundary here kept words done
  | data kept _ other inside => exact follows.gathers here kept other inside
  | command kept other outside words done => exact follows.command here kept other outside words done

end Follows

/-- A section with the tag is over: the commands that wait for it are done one after the other and taken away. The loop
that does it is through after as many turns as there are commands. -/
structure Delivered (tokens : List Str) (tag text : Str) (p q : Reader P) : Prop where
  done : (p.late.filter (·.tag = tag)).foldlM (setLate tokens[2]? text) p.net = .ok q.net
  kept : q.late = p.late.filter (·.tag ≠ tag)
  ends : ∀ fuel ≥ p.late.length,
    Stateful.outcome (Loader.setLates tokens tag text fuel) { p with data := none } = .ok { q with data := none }

theorem boundaryLine_delivered {p q : Reader P} {rest : List Str} {tag text : Str} (inside : p.data = some (tag, text))
    (h : p.boundaryLine rest = .ok q) : Delivered (boundary :: rest) tag text p q := by
  have crosses := boundaryLine_crosses h
  have run := crosses.inside tag text inside
  obtain ⟨done, kept⟩ := closeSection_ok run
  refine ⟨done, kept, fun fuel enough => ?_⟩
  have none_ : ∀ l ∈ ([] : List LateSet), l.tag ≠ tag := by simp
  apply (Loader.outcome_setLates (s := { p with data := none }) tag text none_ rfl enough).trans
  change Except.map _ (closeSection rest[1]? tag text p.net p.late) = _
  rw [run, ← crosses.counters, ← crosses.delay]
  rfl

section Follows

variable {lines : List Str} {k : ℕ} {line : Str}

theorem Follows.delivered {p q : Reader P} (follows : Follows lines k p) (here : lines[k]? = some line) (h : p.parseLine line = .ok q)
    {tag : Str} {i : ℕ} (closes : Closes lines tag i k) : Delivered (Text.words line) tag (content (between lines i k)) p q := by
  obtain ⟨opened, bounds⟩ := (closes_iff here).mp closes
  have inside := (follows.data tag _).mpr ⟨i, opened, rfl⟩
  cases parseLine_reads h with
  | skip skipped => exact absurd skipped bounds.1
  | boundary kept words done =>
    rw [words]
    exact boundaryLine_delivered inside done
  | data kept _ other _ => exact absurd bounds (not_bounds other)
  | command kept other _ _ _ => exact absurd bounds (not_bounds other)

/-- Nothing is delivered on other lines. -/
theorem Follows.undelivered {p q : Reader P} (follows : Follows lines k p) (here : lines[k]? = some line) (h : p.parseLine line = .ok q)
    (none_ : ∀ tag i, ¬ Closes lines tag i k) :
    q.net = p.net ∨ ∃ first rest, Text.words line = first :: rest ∧ p.command first rest = .ok q := by
  cases parseLine_reads h with
  | skip => exact Or.inl rfl
  | data => exact Or.inl rfl
  | command kept other outside words done => exact Or.inr ⟨_, _, words, done⟩
  | boundary kept words done =>
    have bounds := bounds_of_words kept words
    have outside : p.data = none := by
      refine Option.eq_none_iff_forall_ne_some.mpr fun section_ inside => ?_
      obtain ⟨i, opened, -⟩ := (follows.data section_.1 section_.2).mp inside
      exact none_ section_.1 i ((closes_iff here).mpr ⟨opened, bounds⟩)
    exact Or.inl ((boundaryLine_crosses done).outside outside).1

/-- An accepted file is accepted up to each line. -/
theorem accepted_at {t : Reader P} (accepted : s.parseLines lines = .ok t) (here : lines[k]? = some line) :
    ∃ p q, s.parseLines (lines.take k) = .ok p ∧ p.parseLine line = .ok q ∧ s.parseLines (lines.take (k + 1)) = .ok q := by
  have next : lines.take (k + 1) = lines.take k ++ [line] := by rw [List.take_add_one, here, Option.toList_some]
  have all : s.parseLines (lines.take (k + 1) ++ lines.drop (k + 1)) = .ok t := by rwa [List.take_append_drop]
  rw [Reader.parseLines_append] at all
  obtain ⟨q, reached, -⟩ := ok_of_bind all
  have split := reached
  rw [next, Reader.parseLines_append] at split
  obtain ⟨p, before, last⟩ := ok_of_bind split
  rw [Reader.parseLines_cons] at last
  obtain ⟨q', step, same⟩ := ok_of_bind last
  cases same
  exact ⟨p, q, before, step, reached⟩

theorem follows_run {t : Reader P} (start : Follows lines 0 s) (accepted : s.parseLines lines = .ok t) {p : Reader P}
    (within : k ≤ lines.length) (before : s.parseLines (lines.take k) = .ok p) : Follows lines k p := by
  induction k generalizing p with
  | zero =>
    cases before
    exact start
  | succ k ih =>
    obtain ⟨p₀, q, earlier, step, reached⟩ := accepted_at accepted (List.getElem?_eq_getElem within)
    cases before.symm.trans reached
    exact (ih (Nat.le_of_succ_le within) earlier).next (List.getElem?_eq_getElem within) step

end Follows

/-- Two commands for one section, a section for nobody before it, and another one with the tag after it. -/
def twice : Str := Text.unlines
  ["pipeline create Tuio a".toList, "pipeline settext a ip T".toList, boundary ++ " other".toList, "x".toList, boundary ++ " T".toList,
    "# no".toList, "host".toList, boundary ++ " T".toList, "later".toList, boundary]

/-- The reader before that file. -/
abbrev empty : Reader Platform.whole := Reader.start Net.empty ⟨0, 0⟩ 0

end Movid.Preset
