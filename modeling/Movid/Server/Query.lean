import Movid.Preset.Reload

/-!
# The set request of the GUI

`mo_set` of the GUI puts the names and values of its arguments into a URL, the web server takes the
URL apart and `web_pipeline_set` takes the names and values off one after the other. The base of the
URL names the server and is not sent.
-/

namespace Movid.Query

open Preset

/-! ### The GUI -/

/-- The loop of `mo_set` over its arguments from the second on. A last one without a partner is
followed by `undefined`, and a function is written as its text. -/
def moSetArguments : List Str → Str
  | [] => []
  | [name] => "&name=".toList ++ name ++ "&value=undefined".toList
  | name :: value :: rest => "&name=".toList ++ name ++ ("&value=".toList ++ value ++ moSetArguments rest)

def moSet (id : Str) (arguments : List Str) : Str := "/pipeline/set?objectname=".toList ++ id ++ moSetArguments arguments

/-- The arguments of a call with names and values and perhaps a callback. -/
def call (pairs : List (Str × Str)) (callback : Option Str) : List Str := pairs.flatMap (fun pair => [pair.1, pair.2]) ++ callback.toList

/-! ### The server -/

def isxdigit (c : Char) : Bool := c.isDigit || ('a' ≤ c && c ≤ 'f') || ('A' ≤ c && c ≤ 'F')

def hexValue (c : Char) : Nat :=
  if c.isDigit then c.toNat - 48 else if 'a' ≤ c then c.toNat - 87 else c.toNat - 55

/-- `evhttp_decode_uri_internal` with `always_decode_plus`. -/
def decodeUri : Str → Str
  | [] => []
  | '+' :: rest => ' ' :: decodeUri rest
  | '%' :: a :: b :: rest =>
    if isxdigit a && isxdigit b then Char.ofNat (16 * hexValue a + hexValue b) :: decodeUri rest
    else '%' :: decodeUri (a :: b :: rest)
  | c :: rest => c :: decodeUri rest

/-- The text before the first `c`, and what follows it unless it is NULL. -/
def strsep (c : Char) (s : Str) : Str × Option Str := (s.takeWhile (· ≠ c), (s.dropWhile (· ≠ c)).tail?)

abbrev Headers := List (Str × Str)

/-- The loop of `evhttp_parse_query`. An argument without `=` ends it, as the end of the text does. -/
def parseArguments : List Str → Headers
  | [] => []
  | argument :: rest =>
    match strsep '=' argument with
    | (_, none) => []
    | (key, some value) => (key, decodeUri value) :: parseArguments rest

def evhttpParseQuery (uri : Str) : Headers :=
  match (strsep '?' uri).2 with
  | none => []
  | some query => parseArguments (query.splitOn '&')

def strcasecmp (s t : Str) : Bool := s.map Char.toLower == t.map Char.toLower

def evhttpFindHeader (headers : Headers) (key : Str) : Option Str :=
  (headers.find? fun header => strcasecmp header.1 key).map (·.2)

def evhttpRemoveHeader (headers : Headers) (key : Str) : Headers := headers.eraseP fun header => strcasecmp header.1 key

/-- The loop of `web_pipeline_set`: the names and values in the order in which they are set. -/
def takeSets : Nat → Headers → List (Str × Str)
  | 0, _ => []
  | fuel + 1, headers =>
    match evhttpFindHeader headers "name".toList, evhttpFindHeader headers "value".toList with
    | some name, some value =>
      (name, value) :: takeSets fuel (evhttpRemoveHeader (evhttpRemoveHeader headers "name".toList) "value".toList)
    | _, _ => []

/-- What the server makes of a URL: the module, and what is set on it. -/
def served (uri : Str) : Option (Str × List (Str × Str)) :=
  let headers := evhttpParseQuery uri
  (evhttpFindHeader headers "objectname".toList).map fun id => (id, takeSets headers.length headers)

/-! ### Decoding -/

/-- No percent sign is followed by two hexadecimal digits. -/
def Unescaped (s : Str) : Prop := ∀ a b, isxdigit a = true → isxdigit b = true → ¬ ['%', a, b] <:+: s

/-- Nothing that separates or is decoded. -/
structure Plain (s : Str) : Prop where
  separator : '&' ∉ s
  plus : '+' ∉ s
  unescaped : Unescaped s

theorem unescaped_cons {c : Char} {s : Str} (here : ∀ a b, isxdigit a = true → isxdigit b = true → ¬ ['%', a, b] <+: c :: s) :
    Unescaped (c :: s) ↔ Unescaped s := by
  simp only [Unescaped, List.infix_cons_iff]
  exact forall₄_congr fun a b first second => not_congr (or_iff_right (here a b first second))

theorem length_decodeUri (s : Str) : (decodeUri s).length ≤ s.length := by
  fun_induction decodeUri s <;> simp only [List.length_cons, List.length_nil] at * <;> omega

theorem decodeUri_eq_iff (s : Str) : decodeUri s = s ↔ '+' ∉ s ∧ Unescaped s := by
  fun_induction decodeUri s with
  | case1 => simp [Unescaped]
  | case2 rest ih => simp
  | case3 a b rest hex ih =>
    have short := length_decodeUri rest
    refine ⟨fun same => ?_, fun plain => ?_⟩
    · have := congrArg List.length same
      simp only [List.length_cons] at this
      omega
    · obtain ⟨first, second⟩ := Bool.and_eq_true_iff.mp hex
      exact absurd ⟨[], rest, rfl⟩ (plain.2 a b first second)
  | case4 a b rest hex ih =>
    have here : ∀ x y, isxdigit x = true → isxdigit y = true → ¬ ['%', x, y] <+: '%' :: a :: b :: rest := by
      rintro x y first second ⟨after, same⟩
      cases same
      exact hex (Bool.and_eq_true_iff.mpr ⟨first, second⟩)
    rw [unescaped_cons here, List.cons_inj_right, ih]
    simp
  | case5 c rest plus percent ih =>
    have here : ∀ x y, isxdigit x = true → isxdigit y = true → ¬ ['%', x, y] <+: c :: rest := by
      rintro x y - - ⟨after, same⟩
      cases same
      exact percent x y after rfl rfl
    have other : '+' ≠ c := fun same => plus same.symm
    rw [unescaped_cons here, List.cons_inj_right, ih, List.mem_cons, not_or, and_iff_right other]

/-! ### Splitting -/

theorem splitOn_cases (s : Str) :
    ('&' ∉ s ∧ s.splitOn '&' = [s]) ∨
    ∃ first rest, s = first ++ '&' :: rest ∧ '&' ∉ first ∧ s.splitOn '&' = first :: rest.splitOn '&' := by
  by_cases member : '&' ∈ s
  · obtain ⟨first, rest, rfl, clean⟩ := List.eq_append_cons_of_mem member
    refine .inr ⟨first, rest, rfl, clean, ?_⟩
    rw [List.splitOn_append_cons_self, List.splitOn_eq_singleton clean]
    rfl
  · exact .inl ⟨member, List.splitOn_eq_singleton member⟩

theorem strsep_append {c : Char} {s : Str} (clean : c ∉ s) (t : Str) : strsep c (s ++ c :: t) = (s, some t) := by
  have before : ∀ x ∈ s, decide (x ≠ c) = true := fun x member => decide_eq_true fun same => clean (same ▸ member)
  rw [strsep, List.takeWhile_append_of_pos before, List.dropWhile_append_of_pos before]
  simp

/-- The header of an argument gets its text up to the first separator. -/
theorem parse_argument (key : Str) (separator : '&' ∉ key) (equals : '=' ∉ key) (s : Str) (more : List Str) :
    ∃ value, (value = s ↔ Plain s) ∧
      parseArguments ((key ++ '=' :: s).splitOn '&' ++ more) = (key, value) :: parseArguments ((s.splitOn '&').tail ++ more) := by
  rcases splitOn_cases s with ⟨clean, whole⟩ | ⟨first, rest, rfl, clean, cut⟩
  · refine ⟨decodeUri s, ?_, ?_⟩
    · rw [decodeUri_eq_iff]
      exact ⟨fun plain => ⟨clean, plain.1, plain.2⟩, fun plain => ⟨plain.plus, plain.unescaped⟩⟩
    · have joined : '&' ∉ key ++ '=' :: s := by simp [separator, clean]
      rw [List.splitOn_eq_singleton joined, whole, List.singleton_append, parseArguments, strsep_append equals]
      rfl
  · refine ⟨decodeUri first, ⟨fun same => ?_, fun plain => absurd plain.separator (by simp)⟩, ?_⟩
    · have short := length_decodeUri first
      have := congrArg List.length same
      simp only [List.length_append, List.length_cons] at this
      omega
    · have joined : '&' ∉ key ++ '=' :: first := by simp [separator, clean]
      have shape : key ++ '=' :: (first ++ '&' :: rest) = (key ++ '=' :: first) ++ '&' :: rest := by simp
      rw [shape, List.splitOn_append_cons_self, List.splitOn_eq_singleton joined, cut, List.singleton_append, List.cons_append,
        parseArguments, strsep_append equals]
      rfl

theorem Plain.tail {s : Str} (plain : Plain s) : (s.splitOn '&').tail = [] := by
  rw [List.splitOn_eq_singleton plain.separator]
  rfl

/-- The arguments of `moSetArguments` as the server splits them. -/
def argumentPieces : List Str → List Str
  | [] => []
  | [name] => ("name".toList ++ '=' :: name).splitOn '&' ++ ["value=undefined".toList]
  | name :: value :: rest =>
    ("name".toList ++ '=' :: name).splitOn '&' ++ (("value".toList ++ '=' :: value).splitOn '&' ++ argumentPieces rest)

theorem argumentPieces_call (name value : Str) (rest : List (Str × Str)) (callback : Option Str) :
    argumentPieces (call ((name, value) :: rest) callback) =
      ("name".toList ++ '=' :: name).splitOn '&' ++ (("value".toList ++ '=' :: value).splitOn '&' ++ argumentPieces (call rest callback)) :=
  rfl

theorem splitOn_moSetArguments (s : Str) (arguments : List Str) :
    (s ++ moSetArguments arguments).splitOn '&' = s.splitOn '&' ++ argumentPieces arguments := by
  fun_induction moSetArguments arguments generalizing s with
  | case1 => simp [argumentPieces]
  | case2 name =>
    show (s ++ '&' :: (("name".toList ++ '=' :: name) ++ '&' :: "value=undefined".toList)).splitOn '&' = _
    rw [List.splitOn_append_cons_self, List.splitOn_append_cons_self]
    rfl
  | case3 name value rest ih =>
    show (s ++ '&' :: (("name".toList ++ '=' :: name) ++ '&' :: (("value".toList ++ '=' :: value) ++ moSetArguments rest))).splitOn '&' = _
    rw [List.splitOn_append_cons_self, List.splitOn_append_cons_self, ih]
    rfl

theorem evhttpParseQuery_moSet (id : Str) (arguments : List Str) :
    evhttpParseQuery (moSet id arguments) =
      parseArguments (("objectname".toList ++ '=' :: id).splitOn '&' ++ argumentPieces arguments) := by
  have shape : moSet id arguments =
      "/pipeline/set".toList ++ '?' :: (("objectname".toList ++ '=' :: id) ++ moSetArguments arguments) := by
    show "/pipeline/set?objectname=".toList ++ id ++ moSetArguments arguments = _
    rw [List.append_assoc, List.append_assoc]
    rfl
  have clean : '?' ∉ "/pipeline/set".toList := by decide
  rw [evhttpParseQuery, shape, strsep_append clean]
  show parseArguments _ = _
  rw [splitOn_moSetArguments]

/-! ### The headers -/

def valuesOf (key : Str) (headers : Headers) : List Str :=
  headers.filterMap fun header => if strcasecmp header.1 key then some header.2 else none

theorem valuesOf_cons_same {k key : Str} (same : strcasecmp k key = true) (v : Str) (headers : Headers) :
    valuesOf key ((k, v) :: headers) = v :: valuesOf key headers := by
  simp [valuesOf, same]

theorem valuesOf_cons_other {k key : Str} (other : strcasecmp k key = false) (v : Str) (headers : Headers) :
    valuesOf key ((k, v) :: headers) = valuesOf key headers := by
  simp [valuesOf, other]

theorem evhttpFindHeader_eq (headers : Headers) (key : Str) : evhttpFindHeader headers key = (valuesOf key headers).head? := by
  induction headers with
  | nil => rfl
  | cons header rest ih =>
    unfold evhttpFindHeader valuesOf at *
    cases same : strcasecmp header.1 key with
    | true => simp [same]
    | false => simpa [same] using ih

theorem valuesOf_remove (headers : Headers) (key : Str) :
    valuesOf key (evhttpRemoveHeader headers key) = (valuesOf key headers).tail := by
  induction headers with
  | nil => rfl
  | cons header rest ih =>
    unfold evhttpRemoveHeader valuesOf at *
    cases same : strcasecmp header.1 key with
    | true => simp [same]
    | false => simpa [same] using ih

theorem valuesOf_remove_other {key other : Str} (different : strcasecmp other key = false) (headers : Headers) :
    valuesOf key (evhttpRemoveHeader headers other) = valuesOf key headers := by
  induction headers with
  | nil => rfl
  | cons header rest ih =>
    unfold evhttpRemoveHeader valuesOf at *
    cases same : strcasecmp header.1 other with
    | true =>
      have miss : strcasecmp header.1 key = false := by
        unfold strcasecmp at *
        grind
      simp [same, miss]
    | false => cases hit : strcasecmp header.1 key <;> simpa [same, hit] using ih

theorem takeSets_eq (headers : Headers) (fuel : Nat) (enough : (valuesOf "name".toList headers).length ≤ fuel) :
    takeSets fuel headers = (valuesOf "name".toList headers).zip (valuesOf "value".toList headers) := by
  induction fuel generalizing headers with
  | zero =>
    have none_ : valuesOf "name".toList headers = [] := List.eq_nil_of_length_eq_zero (Nat.le_zero.mp enough)
    rw [takeSets, none_, List.zip_nil_left]
  | succ fuel ih =>
    have names : valuesOf "name".toList (evhttpRemoveHeader (evhttpRemoveHeader headers "name".toList) "value".toList) =
        (valuesOf "name".toList headers).tail := by
      rw [valuesOf_remove_other (by decide), valuesOf_remove]
    have values : valuesOf "value".toList (evhttpRemoveHeader (evhttpRemoveHeader headers "name".toList) "value".toList) =
        (valuesOf "value".toList headers).tail := by
      rw [valuesOf_remove, valuesOf_remove_other (by decide)]
    rw [takeSets, evhttpFindHeader_eq, evhttpFindHeader_eq]
    rcases shape : valuesOf "name".toList headers with _ | ⟨name, moreNames⟩
    · rfl
    · rcases shape' : valuesOf "value".toList headers with _ | ⟨value, moreValues⟩
      · rfl
      · rw [shape] at names enough
        rw [shape'] at values
        simp only [List.head?_cons, List.zip_cons_cons]
        rw [ih _ (by rw [names]; exact Nat.le_of_succ_le_succ enough), names, values]
        rfl

theorem length_valuesOf (key : Str) (headers : Headers) : (valuesOf key headers).length ≤ headers.length :=
  List.length_filterMap_le _ _

theorem served_eq (uri : Str) :
    served uri = (valuesOf "objectname".toList (evhttpParseQuery uri)).head?.map fun id =>
      (id, (valuesOf "name".toList (evhttpParseQuery uri)).zip (valuesOf "value".toList (evhttpParseQuery uri))) := by
  unfold served
  simp only [evhttpFindHeader_eq]
  rw [takeSets_eq _ _ (length_valuesOf _ _)]

/-- The handler for the pairs that the loop takes off. -/
theorem webPipelineSet_served {P : Platform} (p : Program P) {uri id : Str} {sets : List (Str × Str)} (is : served uri = some (id, sets)) :
    p.webPipelineSet (evhttpFindHeader (evhttpParseQuery uri) "objectname".toList)
        (valuesOf "name".toList (evhttpParseQuery uri)) (valuesOf "value".toList (evhttpParseQuery uri)) =
      match getModuleById p.net id with
      | none => p
      | some r => { p with net := sets.foldl (fun w pair => setOn w r pair.1 pair.2) p.net } := by
  rw [served_eq] at is
  obtain ⟨id', first, same⟩ := Option.map_eq_some_iff.mp is
  cases same
  rw [evhttpFindHeader_eq, first]
  rfl

/-! ### What arrives -/

/-- An argument without `=` comes before any value. -/
def stops : List Str → Bool
  | [] => false
  | argument :: rest =>
    match strsep '=' argument with
    | (_, none) => true
    | (key, some _) => !strcasecmp key "value".toList && stops rest

/-- The text of a callback ends the loop before the value that follows it. -/
def Harmless (text : Str) : Prop := stops (text.splitOn '&').tail = true

theorem stops_iff (pieces : List Str) :
    valuesOf "value".toList (parseArguments (pieces ++ ["value=undefined".toList])) = [] ↔ stops pieces = true := by
  induction pieces with
  | nil => decide
  | cons argument rest ih =>
    rw [List.cons_append, parseArguments, stops]
    split
    · exact iff_of_true rfl rfl
    · rename_i key value _
      cases same : strcasecmp key "value".toList with
      | true =>
        rw [valuesOf_cons_same same]
        exact iff_of_false (List.cons_ne_nil _ _) (by simp)
      | false =>
        rw [valuesOf_cons_other same, ih]
        simp

theorem pieces_arrive (pairs : List (Str × Str)) (callback : Option Str) :
    (valuesOf "name".toList (parseArguments (argumentPieces (call pairs callback)))).zip
        (valuesOf "value".toList (parseArguments (argumentPieces (call pairs callback)))) = pairs ↔
      (∀ pair ∈ pairs, Plain pair.1 ∧ Plain pair.2) ∧ ∀ text ∈ callback, Harmless text := by
  induction pairs with
  | nil =>
    cases callback with
    | none => exact iff_of_true rfl ⟨nofun, nofun⟩
    | some text =>
      show (valuesOf "name".toList (parseArguments (("name".toList ++ '=' :: text).splitOn '&' ++ ["value=undefined".toList]))).zip
        (valuesOf "value".toList (parseArguments (("name".toList ++ '=' :: text).splitOn '&' ++ ["value=undefined".toList]))) = [] ↔ _
      obtain ⟨first, -, parsed⟩ := parse_argument "name".toList (by decide) (by decide) text ["value=undefined".toList]
      rw [parsed, valuesOf_cons_same (by decide), valuesOf_cons_other (by decide)]
      have empty : ∀ (names values : List Str), (first :: names).zip values = [] ↔ values = [] := by
        intro names values
        cases values <;> simp
      rw [empty, stops_iff]
      simp [Harmless]
  | cons pair rest ih =>
    obtain ⟨name, value⟩ := pair
    rw [argumentPieces_call]
    obtain ⟨first, same, parsed⟩ := parse_argument "name".toList (by decide) (by decide) name
      (("value".toList ++ '=' :: value).splitOn '&' ++ argumentPieces (call rest callback))
    rw [parsed, valuesOf_cons_same (by decide), valuesOf_cons_other (by decide)]
    by_cases plain : Plain name
    · obtain ⟨second, same', parsed'⟩ := parse_argument "value".toList (by decide) (by decide) value (argumentPieces (call rest callback))
      rw [plain.tail, List.nil_append, parsed', valuesOf_cons_other (by decide), valuesOf_cons_same (by decide),
        List.zip_cons_cons, List.cons_eq_cons, Prod.mk.injEq, same, same', List.forall_mem_cons]
      by_cases plain' : Plain value
      · rw [plain'.tail, List.nil_append, ih]
        tauto
      · tauto
    · refine iff_of_false (fun arrived => ?_) fun all => plain (all.1 _ List.mem_cons_self).1
      generalize valuesOf "value".toList _ = values at arrived
      cases values with
      | nil => cases arrived
      | cons =>
        rw [List.zip_cons_cons, List.cons_eq_cons, Prod.mk.injEq] at arrived
        exact plain (same.mp arrived.1.1)

/-- A request arrives unchanged exactly when nothing in it needs an encoding and no callback becomes a setting. -/
theorem mo_set_arrives_iff (id : Str) (pairs : List (Str × Str)) (callback : Option Str) :
    served (moSet id (call pairs callback)) = some (id, pairs) ↔
      Plain id ∧ (∀ pair ∈ pairs, Plain pair.1 ∧ Plain pair.2) ∧ ∀ text ∈ callback, Harmless text := by
  obtain ⟨value, same, parsed⟩ := parse_argument "objectname".toList (by decide) (by decide) id (argumentPieces (call pairs callback))
  have named : ∀ headers, valuesOf "objectname".toList (("objectname".toList, value) :: headers) = value :: valuesOf "objectname".toList headers :=
    valuesOf_cons_same (by decide) value
  rw [served_eq, evhttpParseQuery_moSet, parsed, named, valuesOf_cons_other (by decide), valuesOf_cons_other (by decide),
    List.head?_cons, Option.map_some, Option.some.injEq, Prod.mk.injEq, same]
  refine and_congr_right fun plain => ?_
  rw [plain.tail]
  exact pieces_arrive pairs callback

/-- With the callback of `configSendFeedback`; and with a plus sign in a value. -/
theorem mo_set_changes :
    served (moSet "Calibration1".toList
        (call [("gui_feedback".toList, "click;0.5;0.5".toList)] (some "function() \x7b\n\t\t// nothing.\n\t\x7d".toList))) ≠
      some ("Calibration1".toList, [("gui_feedback".toList, "click;0.5;0.5".toList)]) ∧
    served (moSet "Image1".toList (call [("filename".toList, "a+b.png".toList)] none)) ≠
      some ("Image1".toList, [("filename".toList, "a+b.png".toList)]) := by
  decide +kernel

example : served (moSet "Tuio1".toList (call [("port".toList, "3333".toList)] (some "function() \x7b\x7d".toList))) =
    some ("Tuio1".toList, [("port".toList, "3333".toList), ("function() \x7b\x7d".toList, "undefined".toList)]) := by
  decide +kernel

end Movid.Query
