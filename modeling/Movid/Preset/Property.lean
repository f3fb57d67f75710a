import Movid.PointList

/-!
# Properties

A property has a type for good. `set` converts a text to that type, `asString` prints the
value. What the program takes from the C library for floating-point numbers, and whether
OpenCV can load an image file, are parameters.
-/

namespace Movid

namespace Preset

/-- `showF` is `%f` and `showG` is `operator<<`. `grid` is the text that
`moCalibrationModule::buildScreenPoints` makes of the number of columns and rows. -/
structure Platform where
  Double : Type
  atof : Str → Double
  showF : Double → Str
  showG : Double → Str
  grid : Int32 → Int32 → Str
  loads : Str → Bool
  truncate : Double → Int32
  showF_noSpace : ∀ x, Text.NoSpace (showF x)
  showG_ne_nil : ∀ x, showG x ≠ []
  showG_plain : ∀ x, ∀ c ∈ showG x, Text.isSpace c = false ∧ c ≠ ',' ∧ c ≠ ';'
  /-- Six digits survive the way through a double. -/
  showG_atof : ∀ x, showG (atof (showG x)) = showG x

/-- Doubles that are whole numbers, and one image file. -/
def Platform.whole : Platform where
  Double := Int
  atof := Text.readInt
  showF x := Text.showInt x ++ ".000000".toList
  showG := Text.showInt
  grid _ _ := []
  loads name := name == "image.png".toList
  truncate := Int32.ofInt
  showF_noSpace x c member := by
    rcases List.mem_append.mp member with digit | zero
    · exact Text.showInt_noSpace x c digit
    · exact (by decide : Text.NoSpace ".000000".toList) c zero
  showG_ne_nil x := (Text.showInt_token x).1
  showG_plain x c member := by
    refine ⟨Text.showInt_noSpace x c member, ?_, ?_⟩ <;> rintro rfl <;> exact absurd (Text.showInt_chars x _ member) (by decide)
  showG_atof x := congrArg Text.showInt (Text.readInt_showInt x)

inductive PropertyType where
  | bool
  | string
  | integer
  | double
  | pointList
  deriving DecidableEq

inductive Value (P : Platform) where
  | bool (b : Bool)
  | string (s : Str)
  | integer (n : Int32)
  | double (x : P.Double)
  | pointList (points : List (P.Double × P.Double))

namespace Value

variable {P : Platform}

def type : Value P → PropertyType
  | bool _ => .bool
  | string _ => .string
  | integer _ => .integer
  | double _ => .double
  | pointList _ => .pointList

def convertToBool (s : Str) : Bool :=
  s == "True".toList || s == "true".toList || s == "TRUE".toList || s == "1".toList

/-- One field of a point list; one that is no pair is left out. -/
def readPoint (P : Platform) (field : Str) : Option (P.Double × P.Double) :=
  match Utils.tokenize field ',' with
  | [x, y] => some (P.atof x, P.atof y)
  | _ => none

def convertToPointList (P : Platform) (s : Str) : List (P.Double × P.Double) :=
  (Utils.tokenize s ';').filterMap (readPoint P)

/-- What `AUTOCONVERT` makes of a string. -/
def ofString (P : Platform) : PropertyType → Str → Value P
  | .bool, s => bool (convertToBool s)
  | .string, s => string s
  | .integer, s => integer (Text.atoi s)
  | .double, s => double (P.atof s)
  | .pointList, s => pointList (convertToPointList P s)

def showPoint (point : P.Double × P.Double) : Str := P.showG point.1 ++ ',' :: (P.showG point.2 ++ [';'])

/-- A double is printed to a buffer of 64 characters. -/
def asString : Value P → Str
  | bool b => if b then "true".toList else "false".toList
  | string s => s
  | integer n => Text.showInt n.toInt
  | double x => (P.showF x).take 63
  | pointList points => points.flatMap showPoint

def asInteger : Value P → Int32
  | bool b => if b then 1 else 0
  | string s => Text.atoi s
  | integer n => n
  | double x => P.truncate x
  | pointList points => Int32.ofNat points.length

def Stable (v : Value P) : Prop := (ofString P v.type v.asString).asString = v.asString

theorem ofString_type (type : PropertyType) (s : Str) : (ofString P type s).type = type := by
  cases type <;> rfl

theorem plain_showG : PointList.Plain P.showG := fun v =>
  ⟨fun comma => (P.showG_plain v _ comma).2.1 rfl, fun semicolon => (P.showG_plain v _ semicolon).2.2 rfl⟩

/-- The loop over the tokens gives the points. -/
theorem convertToPointList_code (s : Str) : PointList.convertToPointList P.atof s = some (convertToPointList P s) :=
  PointList.convertToPointList_eq P.atof s

/-- The loop over the points prints the text. -/
theorem convertToString_code (points : List (P.Double × P.Double)) :
    PointList.convertToString P.showG points = (pointList points).asString := PointList.convertToString_eq P.showG points

theorem convertToPointList_asString (points : List (P.Double × P.Double)) :
    convertToPointList P (points.flatMap showPoint) =
      points.map fun point => (P.atof (P.showG point.1), P.atof (P.showG point.2)) :=
  PointList.filterMap_printed plain_showG points

theorem stable_of_not_double {v : Value P} (h : v.type ≠ .double) : v.Stable := by
  cases v with
  | bool b => cases b <;> rfl
  | string s => rfl
  | integer n => exact congrArg (fun n => Text.showInt n.toInt) (Text.atoi_showInt n)
  | double x => exact absurd rfl h
  | pointList points =>
    have same (point : P.Double × P.Double) :
        showPoint (P.atof (P.showG point.1), P.atof (P.showG point.2)) = showPoint point := by
      simp only [showPoint, P.showG_atof]
    simp only [Stable, type, ofString, asString, convertToPointList_asString, List.flatMap_map, same]

theorem asString_noSpace {v : Value P} (h : v.type ≠ .string) : Text.NoSpace v.asString := by
  cases v with
  | bool b =>
    have clean : Text.NoSpace (if b then "true".toList else "false".toList) := by
      cases b <;> decide
    exact clean
  | string s => exact absurd rfl h
  | integer n => exact Text.showInt_noSpace _
  | double x => exact fun c member => P.showF_noSpace x c (List.mem_of_mem_take member)
  | pointList points =>
    intro c member
    obtain ⟨point, _, inside⟩ := List.mem_flatMap.mp member
    simp only [showPoint, List.mem_append, List.mem_cons, List.not_mem_nil, or_false] at inside
    rcases inside with first | rfl | second | rfl
    · exact (P.showG_plain _ c first).1
    · rfl
    · exact (P.showG_plain _ c second).1
    · rfl

end Value

structure Property (P : Platform) where
  value : Value P
  isText : Bool
  readOnly : Bool

namespace Property

variable {P : Platform}

def new (value : Value P) : Property P := { value, isText := false, readOnly := false }

def asString (p : Property P) : Str := p.value.asString

/-- `moProperty::set`, without the callbacks. -/
def set (p : Property P) (s : Str) : Property P :=
  if p.readOnly then p else { p with value := Value.ofString P p.value.type s }

def setText (p : Property P) : Property P := { p with isText := true }

def setReadOnly (p : Property P) : Property P := { p with readOnly := true }

theorem set_type (p : Property P) (s : Str) : (p.set s).value.type = p.value.type := by
  unfold set
  split
  · rfl
  · exact Value.ofString_type _ _

end Property

end Preset

end Movid
