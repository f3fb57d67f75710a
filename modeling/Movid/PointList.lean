import Movid.Tokenize

/-!
# Point lists as texts

`convertToString` prints each point with a comma inside and a semicolon behind it, `convertToPointList` cuts at the semicolons and then
at the commas. `fmt` is what `operator<<` makes of a number.
-/

namespace Movid.PointList

variable {D : Type}

section Code

variable (fmt : D → Str) (atof : Str → D)

/-- The body of the loop of `convertToString`. -/
def printPoint (oss : Str) (point : D × D) : Str := oss ++ fmt point.1 ++ [','] ++ fmt point.2 ++ [';']

def convertToString (points : List (D × D)) : Str := points.foldl (printPoint fmt) []

/-- The body of the loop of `convertToPointList`: a field that is no pair is forgotten. -/
def readPoint (output : List (D × D)) (it : Str) : Option (List (D × D)) := do
  let point ← Utils.tokenizeBy it [',']
  match point with
  | [x, y] => some (output ++ [(atof x, atof y)])
  | _ => some output

def convertToPointList (value : Str) : Option (List (D × D)) := do
  let points ← Utils.tokenizeBy value [';']
  points.foldlM (readPoint atof) []

/-- The point in a field of exactly two parts. -/
def pair (field : Str) : Option (D × D) :=
  match field.splitOn ',' with
  | [x, y] => some (atof x, atof y)
  | _ => none

end Code

variable {fmt : D → Str} {atof : Str → D}

theorem readPoint_eq (output : List (D × D)) (it : Str) : readPoint atof output it = some (output ++ (pair atof it).toList) := by
  unfold readPoint
  rw [Utils.tokenizeBy_eq, Option.bind_eq_bind, Option.bind_some]
  unfold Utils.tokenize pair
  rcases it.splitOn ',' with _ | ⟨x, _ | ⟨y, _ | ⟨z, rest⟩⟩⟩ <;> simp

theorem foldlM_readPoint (fields : List Str) (output : List (D × D)) :
    fields.foldlM (readPoint atof) output = some (output ++ fields.filterMap (pair atof)) := by
  induction fields generalizing output with
  | nil => simp
  | cons field fields ih =>
    rw [List.foldlM_cons, readPoint_eq, Option.bind_eq_bind, Option.bind_some, ih, List.filterMap_cons]
    cases pair atof field <;> simp

theorem convertToPointList_eq (atof : Str → D) (value : Str) :
    convertToPointList atof value = some ((value.splitOn ';').filterMap (pair atof)) := by
  unfold convertToPointList
  rw [Utils.tokenizeBy_eq, Option.bind_eq_bind, Option.bind_some, foldlM_readPoint, List.nil_append]
  rfl

theorem foldl_printPoint (points : List (D × D)) (oss : Str) :
    points.foldl (printPoint fmt) oss = oss ++ points.flatMap fun point => fmt point.1 ++ ',' :: (fmt point.2 ++ [';']) := by
  induction points generalizing oss with
  | nil => simp
  | cons point points ih =>
    rw [List.foldl_cons, ih, List.flatMap_cons, printPoint]
    simp

theorem convertToString_eq (fmt : D → Str) (points : List (D × D)) :
    convertToString fmt points = points.flatMap fun point => fmt point.1 ++ ',' :: (fmt point.2 ++ [';']) :=
  foldl_printPoint points []

theorem pair_printed {v w : D} (first : ',' ∉ fmt v) (second : ',' ∉ fmt w) :
    pair atof (fmt v ++ ',' :: fmt w) = some (atof (fmt v), atof (fmt w)) := by
  unfold pair
  rw [List.splitOn_append_cons_self_of_not_mem first, List.splitOn_eq_singleton second]

/-- The separators that the numbers must not contain. -/
def Plain (fmt : D → Str) : Prop := ∀ v, ',' ∉ fmt v ∧ ';' ∉ fmt v

theorem splitOn_printed (plain : Plain fmt) (point : D × D) (rest : Str) :
    ((fmt point.1 ++ ',' :: (fmt point.2 ++ [';'])) ++ rest).splitOn ';' = (fmt point.1 ++ ',' :: fmt point.2) :: rest.splitOn ';' := by
  have clean : ';' ∉ fmt point.1 ++ ',' :: fmt point.2 := by
    rw [List.mem_append, List.mem_cons]
    rintro (first | comma | second)
    · exact (plain _).2 first
    · exact absurd comma (by decide)
    · exact (plain _).2 second
  have shape : (fmt point.1 ++ ',' :: (fmt point.2 ++ [';'])) ++ rest = (fmt point.1 ++ ',' :: fmt point.2) ++ ';' :: rest := by simp
  rw [shape, List.splitOn_append_cons_self_of_not_mem clean]

theorem filterMap_printed (plain : Plain fmt) (points : List (D × D)) :
    ((points.flatMap fun point => fmt point.1 ++ ',' :: (fmt point.2 ++ [';'])).splitOn ';').filterMap (pair atof) =
      points.map fun point => (atof (fmt point.1), atof (fmt point.2)) := by
  induction points with
  | nil => rfl
  | cons point points ih =>
    rw [List.flatMap_cons, splitOn_printed plain, List.filterMap_cons, pair_printed (plain _).1 (plain _).1, ih]
    rfl

theorem read_printed (plain : Plain fmt) (points : List (D × D)) :
    convertToPointList atof (convertToString fmt points) = some (points.map fun point => (atof (fmt point.1), atof (fmt point.2))) := by
  rw [convertToPointList_eq, convertToString_eq, filterMap_printed plain]

/-- A number that was read once is printed and read as it is. -/
structure Settles (fmt : D → Str) (r : D → D) (v : D) : Prop where
  read : r (r v) = r v
  print : fmt (r v) = fmt v

/-- A point list comes back from its text number by number, and a text gives the points of the fields that are pairs. -/
theorem points_round_trip {r : D → D} (plain : Plain fmt) (reads : ∀ v, atof (fmt v) = r v) (points : List (D × D)) :
    convertToPointList atof (convertToString fmt points) = some (points.map (Prod.map r r)) ∧
      ((∀ point ∈ points, Settles fmt r point.1 ∧ Settles fmt r point.2) →
        convertToString fmt (points.map (Prod.map r r)) = convertToString fmt points ∧
          convertToPointList atof (convertToString fmt (points.map (Prod.map r r))) = some (points.map (Prod.map r r))) ∧
      ∀ value, convertToPointList atof value = some ((value.splitOn ';').filterMap (pair atof)) := by
  have back : convertToPointList atof (convertToString fmt points) = some (points.map (Prod.map r r)) := by
    rw [read_printed plain]
    simp only [reads]
    rfl
  refine ⟨back, fun settles => ?_, convertToPointList_eq atof⟩
  have same : convertToString fmt (points.map (Prod.map r r)) = convertToString fmt points := by
    rw [convertToString_eq, convertToString_eq, List.flatMap_map]
    refine List.flatMap_congr fun point member => ?_
    obtain ⟨first, second⟩ := settles point member
    rw [Prod.map_fst, Prod.map_snd, first.print, second.print]
  exact ⟨same, by rw [same, back]⟩

theorem plain_showInt : Plain Text.showInt := by
  intro v
  constructor <;> intro member <;> exact absurd (Text.showInt_chars v _ member) (by decide)

/-- The two points of a list of whole numbers. -/
theorem whole_points_round_trip :
    convertToPointList Text.readInt (convertToString Text.showInt [(3, -4), (0, 5)]) = some [(3, -4), (0, 5)] ∧
      convertToPointList Text.readInt "1,2;7;;3,4,5;6,8".toList = some [(1, 2), (6, 8)] := by
  obtain ⟨first, -, fields⟩ := points_round_trip (r := id) plain_showInt Text.readInt_showInt [(3, -4), (0, 5)]
  refine ⟨first, (fields _).trans ?_⟩
  decide

end Movid.PointList
