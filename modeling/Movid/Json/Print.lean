import Mathlib.Algebra.GroupWithZero.Nat
import Mathlib.Algebra.Ring.Int.Defs
import Movid.Lib.Text
import Movid.Utils

/-!
# JSON texts

The tree of a `cJSON` item and the functions that print it. Each of them allocates a buffer by a size that it has computed before, and writing
past it is not defined.
-/

namespace Movid.Json

/-- `parse_value` and the functions it calls return 0; reading or writing outside of a block is not defined. -/
inductive Failure where
  | undefined
  | fail
  | unfinished
  deriving DecidableEq

/-- The type `double` as far as `cJSON` uses it. -/
structure Doubles where
  Double : Type
  ofInt : Int → Double
  /-- `(int)`. -/
  toInt : Double → Int32
  /-- The test of `print_number` for a number that is printed by `%d`. -/
  whole : Int32 → Double → Bool
  /-- What `sprintf` makes of any other number. -/
  text : Double → Str
  /-- `n * 10.0 + digit`. -/
  shift : Double → Int → Double
  /-- `sign * n * pow(10.0, exponent)`, the sign of which is negative or not. -/
  scaled : Bool → Double → Int → Double

/-- An item with its children. A member of an object has a name. -/
inductive Item (P : Doubles) where
  | null
  | false
  | true
  | number (valueint : Int32) (valuedouble : P.Double)
  | string (valuestring : Str)
  | array (child : List (Item P))
  | object (child : List (Str × Item P))

variable {P : Doubles}

/-- `cJSON_CreateNumber`. -/
def createNumber (num : P.Double) : Item P := .number (P.toInt num) num

/-! ### Printing -/

/-- A text that is written to a new buffer, with a NUL after it. -/
def write (size : Nat) (text : Str) : Except Failure Str := if text.length + 1 ≤ size then .ok text else .error .undefined

def printNumber (valueint : Int32) (valuedouble : P.Double) : Except Failure Str :=
  if P.whole valueint valuedouble then write 21 (Text.showInt valueint.toInt) else write 64 (P.text valuedouble)

/-- The characters that `print_string_ptr` writes for one. Control characters without a letter are dropped. -/
def escape (c : Char) : Str :=
  if 31 < c.toNat ∧ c ≠ '"' ∧ c ≠ '\\' then [c]
  else if c = '\\' then ['\\', '\\']
  else if c = '"' then ['\\', '"']
  else if c = '\x08' then ['\\', 'b']
  else if c = '\x0c' then ['\\', 'f']
  else if c = '\n' then ['\\', 'n']
  else if c = '\r' then ['\\', 'r']
  else if c = '\t' then ['\\', 't']
  else []

/-- Two characters for each that is escaped. -/
def escapedLen (str : Str) : Nat := (str.map fun c => if c.toNat < 32 ∨ c = '"' ∨ c = '\\' then 2 else 1).sum

def printStringPtr (str : Str) : Except Failure Str := write (escapedLen str + 3) ('"' :: (str.flatMap escape ++ ['"']))

/-- The entries of an array, with a comma between them. -/
def joinEntries (fmt : Bool) : List Str → Str
  | [] => []
  | [entry] => entry
  | entry :: entries => entry ++ ',' :: ((if fmt then [' '] else []) ++ joinEntries fmt entries)

/-- The members of an object. With `fmt` each has a line of its own. -/
def joinMembers (fmt : Bool) (depth : Nat) : List (Str × Str) → Str
  | [] => []
  | (name, entry) :: members =>
    (if fmt then List.replicate depth '\t' else []) ++ name ++ ':' :: (if fmt then ['\t'] else []) ++ entry ++
      (if members.isEmpty then [] else [',']) ++ (if fmt then ['\n'] else []) ++ joinMembers fmt depth members

def arrayLen (fmt : Bool) (entries : List Str) : Nat := 5 + (entries.map (·.length + 2 + fmt.toNat)).sum

def objectLen (fmt : Bool) (depth : Nat) (members : List (Str × Str)) : Nat :=
  7 + (if fmt then depth else 0) +
    (members.map fun (name, entry) => entry.length + name.length + 2 + if fmt then 2 + depth else 0).sum

mutual

def printValue (fmt : Bool) : Item P → Nat → Except Failure Str
  | .null, _ => .ok "null".toList
  | .false, _ => .ok "false".toList
  | .true, _ => .ok "true".toList
  | .number valueint valuedouble, _ => printNumber valueint valuedouble
  | .string valuestring, _ => printStringPtr valuestring
  | .array child, depth =>
    (printEntries fmt child (depth + 1)).bind fun entries => write (arrayLen fmt entries) ('[' :: (joinEntries fmt entries ++ [']']))
  | .object child, depth =>
    (printMembers fmt child (depth + 1)).bind fun members =>
      write (objectLen fmt (depth + 1) members) ('{' :: ((if fmt then ['\n'] else []) ++ joinMembers fmt (depth + 1) members ++
        (if fmt then List.replicate depth '\t' else []) ++ ['}']))

def printEntries (fmt : Bool) : List (Item P) → Nat → Except Failure (List Str)
  | [], _ => .ok []
  | item :: items, depth =>
    (printValue fmt item depth).bind fun entry => (printEntries fmt items depth).bind fun entries => .ok (entry :: entries)

def printMembers (fmt : Bool) : List (Str × Item P) → Nat → Except Failure (List (Str × Str))
  | [], _ => .ok []
  | (string, item) :: items, depth =>
    (printStringPtr string).bind fun name =>
      (printValue fmt item depth).bind fun entry => (printMembers fmt items depth).bind fun members => .ok ((name, entry) :: members)

end

/-- `cJSON_Print`. -/
def print (item : Item P) : Except Failure Str := printValue Bool.true item 0

def printUnformatted (item : Item P) : Except Failure Str := printValue Bool.false item 0

end Movid.Json
