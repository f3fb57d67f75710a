import Movid.Json.Buffers
import Movid.Json.Scalars

/-!
# Printing and parsing

What is printed is parsed as the same tree, in which only the control characters are missing that `print_string_ptr` has no letter for.
-/

namespace Movid.Json

open Failing

variable {P : Doubles}

/-! ### Values -/

mutual

/-- The item with the characters that are printed. -/
def Item.visible : Item P → Item P
  | .string valuestring => .string (Json.visible valuestring)
  | .array child => .array (visibleItems child)
  | .object child => .object (visibleMembers child)
  | item => item

def visibleItems : List (Item P) → List (Item P)
  | [] => []
  | item :: items => item.visible :: visibleItems items

def visibleMembers : List (Str × Item P) → List (Str × Item P)
  | [] => []
  | (string, item) :: items => (Json.visible string, item.visible) :: visibleMembers items

end

mutual

/-- All numbers are integers. -/
def Item.Ints : Item P → Prop
  | .number valueint valuedouble => valuedouble = P.ofInt valueint.toInt
  | .array child => IntItems child
  | .object child => IntMembers child
  | _ => True

def IntItems : List (Item P) → Prop
  | [] => True
  | item :: items => item.Ints ∧ IntItems items

def IntMembers : List (Str × Item P) → Prop
  | [] => True
  | (_, item) :: items => item.Ints ∧ IntMembers items

end

theorem skip_cons {c : Char} (high : 32 < c.toNat) (tail : Str) : skip (c :: tail) = .ok (c :: tail) := by
  rw [skip, if_neg (by omega)]

/-- A text that `skip` stops at, and no end of an array or an object. -/
def Solid (text : Str) : Prop := ∃ c tail, text = c :: tail ∧ 32 < c.toNat ∧ c ≠ ']' ∧ c ≠ '}'

theorem Solid.skip {text : Str} (solid : Solid text) (rest : Str) : Json.skip (text ++ rest) = .ok (text ++ rest) := by
  obtain ⟨c, tail, rfl, high, _⟩ := solid
  exact skip_cons high (tail ++ rest)

theorem skip_space {space : Str} (blank : ∀ c ∈ space, c.toNat ≤ 32) (rest : Str) : skip (space ++ rest) = skip rest := by
  induction space with
  | nil => rfl
  | cons c space ih =>
    rw [List.cons_append, skip, if_pos (blank c List.mem_cons_self)]
    exact ih fun d member => blank d (List.mem_cons_of_mem _ member)

theorem write_ok {size : Nat} {text out : Str} (written : write size text = .ok out) : out = text := by
  unfold write at written
  split_ifs at written
  cases written
  rfl

theorem parseValue_cons {c : Char} (n : c ≠ 'n') (f : c ≠ 'f') (t : c ≠ 't') (fuel : Nat) (tail : Str) :
    parseValue (P := P) (fuel + 1) (c :: tail) =
      if c = '"' then (parseString (c :: tail)).map fun (s, value) => (.string s, value)
      else if c = '-' ∨ '0' ≤ c ∧ c ≤ '9' then parseNumber (c :: tail)
      else if c = '[' then parseArray fuel tail
      else if c = '{' then parseObject fuel tail
      else .error .fail := by
  have other {a : Char} (different : c ≠ a) (word : Str) : (a :: word).isPrefixOf (c :: tail) = Bool.false := by
    show (a == c && _) = Bool.false
    rw [beq_eq_false_iff_ne.mpr different.symm]
    rfl
  have null : "null".toList.isPrefixOf (c :: tail) = Bool.false := other n "ull".toList
  have false_ : "false".toList.isPrefixOf (c :: tail) = Bool.false := other f "alse".toList
  have true_ : "true".toList.isPrefixOf (c :: tail) = Bool.false := other t "rue".toList
  rw [parseValue, null, false_, true_]
  rfl

theorem showInt_cons (n : Int) : ∃ c tail, Text.showInt n = c :: tail ∧ (c = '-' ∨ '0' ≤ c ∧ c ≤ '9') := by
  obtain ⟨c, tail, shape⟩ := List.exists_cons_of_ne_nil (Text.showInt_token n).1
  refine ⟨c, tail, shape, ?_⟩
  rcases Text.showInt_chars n c (by rw [shape]; exact List.mem_cons_self) with minus | digit
  · exact .inl minus
  · exact .inr (Char.isDigit_iff_toNat.mp digit)

theorem numeral_solid {c : Char} (numeral : c = '-' ∨ '0' ≤ c ∧ c ≤ '9') :
    (32 < c.toNat ∧ c ≠ ']' ∧ c ≠ '}') ∧ c ≠ 'n' ∧ c ≠ 'f' ∧ c ≠ 't' ∧ c ≠ '"' := by
  rcases numeral with rfl | ⟨low, high⟩
  · decide
  · have low' : '0'.toNat ≤ c.toNat := low
    have zero : '0'.toNat = 48 := rfl
    refine ⟨⟨by omega, ?_, ?_⟩, ?_, ?_, ?_, ?_⟩ <;> rintro rfl <;> first | exact absurd high (by decide) | exact absurd low (by decide)

theorem printNumber_int (exact_ : P.Exact) {n : Int32} {text : Str} (printed : printNumber n (P.ofInt n.toInt) = .ok text) :
    text = Text.showInt n.toInt := by
  rw [printNumber, exact_.whole, if_pos rfl] at printed
  exact write_ok printed

theorem printValue_solid (exact_ : P.Exact) {fmt : Bool} {item : Item P} (ints : item.Ints) {depth : Nat} {text : Str}
    (printed : printValue fmt item depth = .ok text) : Solid text := by
  cases item with
  | null => cases printed; exact ⟨'n', _, rfl, by decide⟩
  | false => cases printed; exact ⟨'f', _, rfl, by decide⟩
  | true => cases printed; exact ⟨'t', _, rfl, by decide⟩
  | number n d =>
    cases ints
    obtain ⟨c, tail, shape, numeral⟩ := showInt_cons n.toInt
    rw [printNumber_int exact_ printed, shape]
    exact ⟨c, tail, rfl, (numeral_solid numeral).1⟩
  | string s =>
    rw [printValue] at printed
    rw [write_ok printed]
    exact ⟨'"', _, rfl, by decide⟩
  | array child =>
    rw [printValue] at printed
    obtain ⟨entries, _, written⟩ := bind_ok printed
    rw [write_ok written]
    exact ⟨'[', _, rfl, by decide⟩
  | object child =>
    rw [printValue] at printed
    obtain ⟨members, _, written⟩ := bind_ok printed
    rw [write_ok written]
    exact ⟨'{', _, rfl, by decide⟩

theorem stops_cons {c : Char} (stop : c.isDigit = Bool.false ∧ c ≠ '.' ∧ c ≠ 'e' ∧ c ≠ 'E') (rest : Str) : Stops (c :: rest) :=
  ⟨c, rest, rfl, stop⟩

theorem stops_blank {close : Str} (blank : ∀ c ∈ close, c.toNat ≤ 32) {c : Char} (stop : c.isDigit = Bool.false ∧ c ≠ '.' ∧ c ≠ 'e' ∧ c ≠ 'E')
    (rest : Str) : Stops (close ++ c :: rest) := by
  cases close with
  | nil => exact stops_cons stop rest
  | cons d close =>
    have low := blank d List.mem_cons_self
    refine stops_cons ⟨?_, ?_, ?_, ?_⟩ _
    · rw [Bool.eq_false_iff]
      intro digit
      obtain ⟨high, _⟩ := Char.isDigit_iff_toNat.mp digit
      have zero : '0'.toNat = 48 := rfl
      omega
    all_goals
      rintro rfl
      exact absurd low (by decide)

theorem Solid.append {text : Str} (solid : Solid text) (more : Str) : Solid (text ++ more) := by
  obtain ⟨c, tail, rfl, high⟩ := solid
  exact ⟨c, tail ++ more, rfl, high⟩

theorem joinEntries_cons_cons (fmt : Bool) (entry next : Str) (entries : List Str) :
    joinEntries fmt (entry :: next :: entries) = entry ++ ',' :: ((if fmt then [' '] else []) ++ joinEntries fmt (next :: entries)) := rfl

theorem joinEntries_solid {fmt : Bool} {entry : Str} (solid : Solid entry) (entries : List Str) : Solid (joinEntries fmt (entry :: entries)) := by
  cases entries with
  | nil => exact solid
  | cons next entries => exact solid.append _

theorem parseArray_solid {value rest : Str} (solid : Solid value) (fuel : Nat) :
    parseArray (P := P) (fuel + 1) (value ++ rest) = (parseItems fuel (value ++ rest)).map fun (child, value) => (.array child, value) := by
  have skips := solid.skip rest
  obtain ⟨c, tail, rfl, _, bracket, _⟩ := solid
  rw [parseArray, skips]
  exact if_neg bracket

theorem parseObject_solid {value text : Str} (skips : skip value = .ok text) (solid : Solid text) (fuel : Nat) :
    parseObject (P := P) (fuel + 1) value = (parseMembers fuel text).map fun (child, value) => (.object child, value) := by
  obtain ⟨c, tail, rfl, _, _, brace⟩ := solid
  rw [parseObject, skips]
  exact if_neg brace

theorem blank_replicate (fmt : Bool) (depth : Nat) {c : Char} (low : c.toNat ≤ 32) :
    ∀ d ∈ if fmt then List.replicate depth c else [], d.toNat ≤ 32 := by
  intro d member
  cases fmt with
  | false => cases member
  | true => exact List.eq_of_mem_replicate member ▸ low

theorem blank_one (fmt : Bool) {c : Char} (low : c.toNat ≤ 32) : ∀ d ∈ if fmt then [c] else [], d.toNat ≤ 32 :=
  blank_replicate fmt 1 low

/-- The white space before a member, its name and its value, and what follows them. -/
theorem joinMembers_cons (fmt : Bool) (depth : Nat) (name entry : Str) (members : List (Str × Str)) (tail : Str) :
    joinMembers fmt depth ((name, entry) :: members) ++ tail =
      (if fmt then List.replicate depth '\t' else []) ++ (name ++ ':' :: ((if fmt then ['\t'] else []) ++ (entry ++
        ((if members.isEmpty then [] else [',']) ++ ((if fmt then ['\n'] else []) ++ (joinMembers fmt depth members ++ tail)))))) := by
  rw [joinMembers]
  simp only [List.append_assoc, List.cons_append]

theorem skip_joinMembers (fmt : Bool) (depth : Nat) (string entry : Str) (members : List (Str × Str)) (tail : Str) :
    ∃ text, Solid text ∧ skip (joinMembers fmt depth (('"' :: (string.flatMap escape ++ ['"']), entry) :: members) ++ tail) = .ok text := by
  rw [joinMembers_cons, skip_space (blank_replicate fmt depth (by decide)), List.cons_append, skip_cons (by decide)]
  exact ⟨_, ⟨'"', _, rfl, by decide⟩, rfl⟩

mutual

theorem parseValue_printed (exact_ : P.Exact) {fmt : Bool} (item : Item P) (ints : item.Ints) {depth : Nat} {text : Str}
    (printed : printValue fmt item depth = .ok text) {rest : Str} (stops : Stops rest) (fuel : Nat) (enough : 3 * text.length ≤ fuel) :
    parseValue fuel (text ++ rest) = .ok (item.visible, rest) := by
  obtain ⟨fuel, rfl⟩ : ∃ n, fuel = n + 1 := by
    obtain ⟨c, tail, rfl, _⟩ := printValue_solid exact_ ints printed
    rw [List.length_cons] at enough
    exact ⟨fuel - 1, by omega⟩
  cases item with
  | null => cases printed; rw [parseValue]; rfl
  | false => cases printed; rw [parseValue]; rfl
  | true => cases printed; rw [parseValue]; rfl
  | number n d =>
    cases ints
    obtain ⟨c, tail, shape, numeral⟩ := showInt_cons n.toInt
    obtain ⟨_, notN, notF, notT, notQuote⟩ := numeral_solid numeral
    have number := parseNumber_showInt stops exact_ n
    rw [printNumber_int exact_ printed]
    rw [shape, List.cons_append] at number ⊢
    rw [parseValue_cons notN notF notT, if_neg notQuote, if_pos numeral]
    exact number
  | string s =>
    rw [printValue] at printed
    rw [write_ok printed, List.cons_append, parseValue_cons (by decide) (by decide) (by decide), if_pos rfl, List.append_assoc,
      List.singleton_append, parseString_escape]
    rfl
  | array child =>
    rw [printValue] at printed
    obtain ⟨entries, each, written⟩ := bind_ok printed
    obtain rfl := write_ok written
    rw [List.length_cons, List.length_append] at enough
    obtain ⟨fuel, rfl⟩ : ∃ n, fuel = n + 1 := ⟨fuel - 1, by omega⟩
    rw [List.cons_append, parseValue_cons (by decide) (by decide) (by decide), if_neg (by decide), if_neg (by decide), if_pos rfl,
      List.append_assoc, List.singleton_append]
    cases child with
    | nil =>
      cases each
      rfl
    | cons item child =>
      obtain ⟨entry, own, printed⟩ := bind_ok each
      obtain ⟨others, _, done⟩ := bind_ok printed
      cases done
      have all := parseItems_printed exact_ (item :: child) ints (List.cons_ne_nil item child) each
        (rfl : skip (joinEntries fmt (entry :: others) ++ ']' :: rest) = _) fuel (by omega)
      rw [parseArray_solid (joinEntries_solid (printValue_solid exact_ ints.1 own) others), all]
      rfl
  | object child =>
    rw [printValue] at printed
    obtain ⟨members, each, written⟩ := bind_ok printed
    obtain rfl := write_ok written
    simp only [List.length_cons, List.length_append, List.length_nil] at enough
    obtain ⟨fuel, rfl⟩ : ∃ n, fuel = n + 1 := ⟨fuel - 1, by omega⟩
    rw [List.cons_append, parseValue_cons (by decide) (by decide) (by decide), if_neg (by decide), if_neg (by decide), if_neg (by decide),
      if_pos rfl]
    have line := blank_one fmt (show '\n'.toNat ≤ 32 by decide)
    have close := blank_replicate fmt depth (show '\t'.toNat ≤ 32 by decide)
    cases child with
    | nil =>
      cases each
      rw [joinMembers, List.append_nil, List.append_assoc, List.append_assoc, List.singleton_append, parseObject, skip_space line,
        skip_space close, skip_cons (by decide)]
      rfl
    | cons member child =>
      obtain ⟨string, item⟩ := member
      obtain ⟨name, quoted, printed⟩ := bind_ok each
      obtain ⟨entry, own, printed⟩ := bind_ok printed
      obtain ⟨others, _, done⟩ := bind_ok printed
      cases done
      obtain ⟨text, solid, skips⟩ := skip_joinMembers fmt (depth + 1) string entry others
        ((if fmt then List.replicate depth '\t' else []) ++ '}' :: rest)
      obtain rfl := write_ok quoted
      have start := solid.skip []
      rw [List.append_nil] at start
      have all := parseMembers_printed exact_ ((string, item) :: child) ints (List.cons_ne_nil _ child) each close (start.trans skips.symm)
        fuel (by omega)
      have body := (skip_space line _).trans skips
      rw [List.append_assoc, List.append_assoc, List.append_assoc, List.singleton_append, parseObject_solid body solid, all]
      rfl

theorem parseItems_printed (exact_ : P.Exact) {fmt : Bool} (items : List (Item P)) (ints : IntItems items) (some_ : items ≠ []) {depth : Nat}
    {entries : List Str} (printed : printEntries fmt items depth = .ok entries) {value rest : Str}
    (same : skip value = skip (joinEntries fmt entries ++ ']' :: rest)) (fuel : Nat) (enough : 3 * (joinEntries fmt entries).length + 1 ≤ fuel) :
    parseItems fuel value = .ok (visibleItems items, rest) := by
  cases items with
  | nil => exact absurd rfl some_
  | cons item items =>
    obtain ⟨entry, own, printed⟩ := bind_ok printed
    obtain ⟨entries, others, done⟩ := bind_ok printed
    cases done
    have solid := printValue_solid exact_ ints.1 own
    obtain ⟨fuel, rfl⟩ : ∃ n, fuel = n + 1 := ⟨fuel - 1, by omega⟩
    rw [parseItems, same]
    cases items with
    | nil =>
      cases others
      have stop : Stops (']' :: rest) := stops_cons (by decide) rest
      have read := parseValue_printed exact_ item ints.1 own stop fuel (by simp only [joinEntries] at enough; omega)
      simp only [joinEntries, solid.skip, Except.bind, read, skip_cons (c := ']') (by decide), first]
      rfl
    | cons next items =>
      obtain ⟨entry', own', printed'⟩ := bind_ok others
      obtain ⟨entries', others', done'⟩ := bind_ok printed'
      cases done'
      rw [joinEntries_cons_cons, List.length_append, List.length_cons, List.length_append] at enough
      have stop : Stops (',' :: ((if fmt then [' '] else []) ++ joinEntries fmt (entry' :: entries') ++ ']' :: rest)) := stops_cons (by decide) _
      have read := parseValue_printed exact_ item ints.1 own stop fuel (by omega)
      have space : skip ((if fmt then [' '] else []) ++ joinEntries fmt (entry' :: entries') ++ ']' :: rest) =
          skip (joinEntries fmt (entry' :: entries') ++ ']' :: rest) := by
        rw [List.append_assoc]
        refine skip_space (fun c member => ?_) _
        cases fmt with
        | false => cases member
        | true => exact List.mem_singleton.mp member ▸ by decide
      have later := parseItems_printed exact_ (next :: items) ints.2 (List.cons_ne_nil next items) others space fuel (by omega)
      rw [joinEntries_cons_cons, List.append_assoc, List.cons_append, solid.skip]
      simp only [Except.bind, read, skip_cons (c := ',') (by decide), first, if_true, List.tail_cons, later]
      rfl

theorem parseMembers_printed (exact_ : P.Exact) {fmt : Bool} (items : List (Str × Item P)) (ints : IntMembers items) (some_ : items ≠ [])
    {depth : Nat} {members : List (Str × Str)} (printed : printMembers fmt items depth = .ok members) {close : Str}
    (blank : ∀ c ∈ close, c.toNat ≤ 32) {value rest : Str}
    (same : skip value = skip (joinMembers fmt depth members ++ (close ++ '}' :: rest))) (fuel : Nat)
    (enough : 3 * (joinMembers fmt depth members).length + 1 ≤ fuel) : parseMembers fuel value = .ok (visibleMembers items, rest) := by
  cases items with
  | nil => exact absurd rfl some_
  | cons member items =>
    obtain ⟨string, item⟩ := member
    obtain ⟨name, quoted, printed⟩ := bind_ok printed
    obtain ⟨entry, own, printed⟩ := bind_ok printed
    obtain ⟨members, others, done⟩ := bind_ok printed
    cases done
    obtain rfl := write_ok quoted
    have solid := printValue_solid exact_ ints.1 own
    have size := congrArg List.length (joinMembers_cons fmt depth ('"' :: (string.flatMap escape ++ ['"'])) entry members [])
    simp only [List.length_append, List.length_cons, List.length_nil, List.append_nil] at size
    obtain ⟨fuel, rfl⟩ : ∃ n, fuel = n + 1 := ⟨fuel - 1, by omega⟩
    have tab := blank_one fmt (show '\t'.toNat ≤ 32 by decide)
    have line := blank_one fmt (show '\n'.toNat ≤ 32 by decide)
    rw [joinMembers_cons, skip_space (blank_replicate fmt depth (by decide)), List.cons_append, skip_cons (by decide)] at same
    rw [parseMembers, same]
    simp only [Except.bind]
    rw [List.append_assoc, List.singleton_append, parseString_escape]
    simp only [skip_cons (c := ':') (by decide), first, ne_eq, not_true_eq_false, if_false, List.tail_cons]
    rw [skip_space tab, solid.skip]
    cases items with
    | nil =>
      cases others
      have stop : Stops ((if fmt then ['\n'] else []) ++ (close ++ '}' :: rest)) := by
        rw [← List.append_assoc]
        exact stops_blank (fun c member => (List.mem_append.mp member).elim (line c) (blank c)) (by decide) rest
      have read := parseValue_printed exact_ item ints.1 own stop fuel (by omega)
      have ends : skip ((if fmt then ['\n'] else []) ++ (close ++ '}' :: rest)) = .ok ('}' :: rest) := by
        rw [skip_space line, skip_space blank, skip_cons (by decide)]
      simp only [List.isEmpty_nil, if_true, joinMembers, List.nil_append, read, ends]
      rfl
    | cons next items =>
      obtain ⟨string', item'⟩ := next
      obtain ⟨name', quoted', printed'⟩ := bind_ok others
      obtain ⟨entry', own', printed'⟩ := bind_ok printed'
      obtain ⟨members', others', done'⟩ := bind_ok printed'
      cases done'
      have stop : Stops (',' :: ((if fmt then ['\n'] else []) ++
          (joinMembers fmt depth ((name', entry') :: members') ++ (close ++ '}' :: rest)))) := stops_cons (by decide) _
      have read := parseValue_printed exact_ item ints.1 own stop fuel (by omega)
      have later := parseMembers_printed exact_ ((string', item') :: items) ints.2 (List.cons_ne_nil _ items) others blank
        (skip_space line (joinMembers fmt depth ((name', entry') :: members') ++ (close ++ '}' :: rest))) fuel (by omega)
      simp only [List.isEmpty_cons, Bool.false_eq_true, if_false, List.singleton_append, read, skip_cons (c := ',') (by decide), if_true,
        List.tail_cons, later]
      rfl

end

/-! ### Texts -/

theorem parse_printed (exact_ : P.Exact) {fmt : Bool} {item : Item P} (ints : item.Ints) {text : Str}
    (printed : printValue fmt item 0 = .ok text) : parse text = .ok item.visible := by
  have solid := printValue_solid exact_ ints printed
  have stop : Stops ['\x00'] := stops_cons (by decide) []
  have read := parseValue_printed exact_ item ints printed stop (3 * (text ++ ['\x00']).length) (by rw [List.length_append]; omega)
  rw [parse, solid.skip]
  simp only [Except.bind, read]
  rfl

mutual

theorem Item.Ints.fits (exact_ : P.Exact) {item : Item P} (ints : item.Ints) : item.Fits := by
  cases item with
  | number n d =>
    cases ints
    exact .inl (exact_.whole n)
  | array child => exact intItems_fit exact_ ints
  | object child => exact intMembers_fit exact_ ints
  | _ => trivial

theorem intItems_fit (exact_ : P.Exact) {items : List (Item P)} (ints : IntItems items) : FitItems items := by
  cases items with
  | nil => trivial
  | cons item items => exact ⟨ints.1.fits exact_, intItems_fit exact_ ints.2⟩

theorem intMembers_fit (exact_ : P.Exact) {items : List (Str × Item P)} (ints : IntMembers items) : FitMembers items := by
  cases items with
  | nil => trivial
  | cons member items =>
    obtain ⟨string, item⟩ := member
    exact ⟨ints.1.fits exact_, intMembers_fit exact_ ints.2⟩

end

/-- With or without white space, an item with integers is printed, and the text is parsed as the item without the characters that are not
printed. -/
theorem print_parse (exact_ : P.Exact) {item : Item P} (ints : item.Ints) (fmt : Bool) :
    ∃ text, printValue fmt item 0 = .ok text ∧ parse text = .ok item.visible := by
  obtain ⟨text, printed⟩ := (printValue_ok fmt item 0).mpr (ints.fits exact_)
  exact ⟨text, printed, parse_printed exact_ ints printed⟩

/-- Doubles without a fraction, as all numbers of a status are. -/
def Doubles.integers : Doubles where
  Double := Int
  ofInt n := n
  toInt n := Int32.ofInt n
  whole i n := decide (i.toInt = n)
  text n := Text.showInt n
  shift n digit := 10 * n + digit
  scaled negative n exponent := (if negative then -n else n) * 10 ^ exponent.toNat

theorem integers_exact : Doubles.integers.Exact where
  shift _ _ _ _ _ _ := rfl
  positive a _ _ := Int.mul_one a
  negative a _ _ := Int.mul_one (-a)
  toInt := Int32.ofInt_toInt
  whole n := by simp [Doubles.integers]

/-- An answer of the server with a quote, a line end and a bell in its message. -/
theorem print_parse_answer :
    let answer : Item Doubles.integers := .object [("success".toList, .number (-2147483648) (-2147483648 : Int)),
      ("message".toList, .string "a\"b\n\x07".toList), ("list".toList, .array [.null, .true, .array [], .object []])]
    ∃ text, printValue Bool.true answer 0 = .ok text ∧ parse text = .ok answer.visible := by
  intro answer
  exact print_parse integers_exact (show answer.Ints from ⟨rfl, trivial, ⟨trivial, trivial, trivial, trivial, trivial⟩, trivial⟩) Bool.true

end Movid.Json
