import Mathlib.Data.Char
import Movid.Json.Print

/-!
# Parsing JSON

A pointer is what is left of the text and the NUL after it. `skip` takes the NUL for white space and may run past it.
-/

namespace Movid.Json

variable {P : Doubles}

def first : Str → Except Failure Char
  | [] => .error .undefined
  | c :: _ => .ok c

/-- Characters up to 32, the NUL among them. -/
def skip : Str → Except Failure Str
  | [] => .error .undefined
  | c :: value => if c.toNat ≤ 32 then skip value else .ok (c :: value)

/-! ### Numbers -/

/-- `c - '0'` of a signed `char`. -/
def digitVal (c : Char) : Int := (if c.toNat < 128 then (c.toNat : Int) else c.toNat - 256) - 48

def digits (n : P.Double) : Str → Except Failure (P.Double × Str)
  | [] => .error .undefined
  | c :: num => if c.isDigit then digits (P.shift n (digitVal c)) num else .ok (n, c :: num)

/-- After the first character behind the point, which may be any. -/
def fraction (n : P.Double) (scale : Int) : Str → Except Failure (P.Double × Int × Str)
  | [] => .error .undefined
  | c :: num => if c.isDigit then fraction (P.shift n (digitVal c)) (scale - 1) num else .ok (n, scale, c :: num)

def exponent (subscale : Int) : Str → Except Failure (Int × Str)
  | [] => .error .undefined
  | c :: num =>
    if c.isDigit then if 2 ^ 31 ≤ subscale * 10 + digitVal c then .error .undefined else exponent (subscale * 10 + digitVal c) num
    else .ok (subscale, c :: num)

/-- The sign of the exponent and its digits, `num` being behind the letter. -/
def signedExponent (num : Str) : Except Failure (Int × Str) :=
  (first num).bind fun c =>
    if c = '+' then exponent 0 num.tail
    else if c = '-' then (exponent 0 num.tail).map fun (subscale, num) => (-subscale, num)
    else exponent 0 num

/-- A zero, and the digits if the next one is none. -/
def whole (num : Str) : Except Failure (P.Double × Str) :=
  (first num).bind fun zero =>
    let num := if zero = '0' then num.tail else num
    (first num).bind fun c => if '1' ≤ c ∧ c ≤ '9' then digits (P.ofInt 0) num else .ok (P.ofInt 0, num)

def fractional (n : P.Double) (num : Str) : Except Failure (P.Double × Int × Str) :=
  (first num).bind fun point =>
    if point = '.' then (first num.tail).bind fun c => fraction (P.shift n (digitVal c)) (-1) num.tail.tail else .ok (n, 0, num)

def scientific (num : Str) : Except Failure (Int × Str) :=
  (first num).bind fun e => if e = 'e' ∨ e = 'E' then signedExponent num.tail else .ok (0, num)

def parseNumber (num : Str) : Except Failure (Item P × Str) :=
  (first num).bind fun sign =>
    (whole (if sign = '-' then num.tail else num)).bind fun (n, num) =>
      (fractional n num).bind fun (n, scale, num) =>
        (scientific num).bind fun (subscale, num) =>
          .ok (createNumber (P.scaled (decide (sign = '-')) n (scale + subscale)), num)

/-! ### Strings -/

/-- `*ptr != '\"' && (unsigned char)*ptr > 31`. -/
def inString (c : Char) : Bool := c ≠ '"' && 31 < c.toNat

/-- The size that the first loop counts: one for each character, one for each that is escaped. -/
def countLen : Str → Except Failure Nat
  | [] => .error .undefined
  | c :: ptr =>
    if inString c then
      if c = '\\' then
        match ptr with
        | [] => .error .undefined
        | _ :: ptr => (countLen ptr).map (1 + ·)
      else (countLen ptr).map (1 + ·)
    else .ok 0

def hexVal (c : Char) : Option Nat :=
  if c.isDigit then some (c.toNat - 48)
  else if 'a' ≤ c ∧ c ≤ 'f' then some (c.toNat - 87)
  else if 'A' ≤ c ∧ c ≤ 'F' then some (c.toNat - 55)
  else none

/-- `sscanf(ptr, "%4x", &uc)`: white space, then a sign, `0x` and digits in four characters. -/
def scanHex (ptr : Str) : Option (BitVec 32) :=
  let field := (ptr.dropWhile Text.isSpace).take 4
  let (negative, field) := match field with
    | '-' :: field => (Bool.true, field)
    | '+' :: field => (Bool.false, field)
    | field => (Bool.false, field)
  let field := match field with
    | '0' :: 'x' :: field => if (field.head?.bind hexVal).isSome then field else ['0']
    | '0' :: 'X' :: field => if (field.head?.bind hexVal).isSome then field else ['0']
    | field => field
  let values := (field.map hexVal).takeWhile Option.isSome |>.filterMap id
  if values = [] then none
  else
    let uc := BitVec.ofNat 32 (values.foldl (fun uc digit => uc * 16 + digit) 0)
    some (if negative then -uc else uc)

/-- The bytes of a character, as `parse_string` writes them from the last one to the first. -/
def utf8 (uc : BitVec 32) : Str :=
  let byte (b : BitVec 32) : Char := Char.ofNat (b.setWidth 8).toNat
  if uc < 0x80 then [byte uc]
  else if uc < 0x800 then [byte (uc >>> 6 ||| 0xC0), byte ((uc ||| 0x80) &&& 0xBF)]
  else [byte (uc >>> 12 ||| 0xE0), byte ((uc >>> 6 ||| 0x80) &&& 0xBF), byte ((uc ||| 0x80) &&& 0xBF)]

/-- The second loop: the text of the string, and what is left where it ends. -/
def unescape : Str → Except Failure (Str × Str)
  | [] => .error .undefined
  | c :: ptr =>
    if inString c then
      if c = '\\' then
        match ptr with
        | [] => .error .undefined
        | 'b' :: ptr => (unescape ptr).map fun (out, ptr) => ('\x08' :: out, ptr)
        | 'f' :: ptr => (unescape ptr).map fun (out, ptr) => ('\x0c' :: out, ptr)
        | 'n' :: ptr => (unescape ptr).map fun (out, ptr) => ('\n' :: out, ptr)
        | 'r' :: ptr => (unescape ptr).map fun (out, ptr) => ('\r' :: out, ptr)
        | 't' :: ptr => (unescape ptr).map fun (out, ptr) => ('\t' :: out, ptr)
        | 'u' :: a :: b :: c :: d :: ptr =>
          match scanHex (a :: b :: c :: d :: ptr) with
          | none => .error .undefined
          | some uc => (unescape ptr).map fun (out, ptr) => (utf8 uc ++ out, ptr)
        | 'u' :: _ => .error .undefined
        | e :: ptr => (unescape ptr).map fun (out, ptr) => (e :: out, ptr)
      else (unescape ptr).map fun (out, ptr) => (c :: out, ptr)
    else .ok ([], c :: ptr)

/-- The string may end with a control character instead of a quote. A NUL in it ends its text. -/
def parseString (str : Str) : Except Failure (Str × Str) :=
  (first str).bind fun quote =>
    if quote ≠ '"' then .error .fail
    else
      (countLen str.tail).bind fun len =>
        (unescape str.tail).bind fun (out, ptr) =>
          if len < out.length then .error .undefined
          else .ok (out.takeWhile (· ≠ '\x00'), if ptr.head? = some '"' then ptr.tail else ptr)

/-! ### Values -/

mutual

def parseValue : Nat → Str → Except Failure (Item P × Str)
  | 0, _ => .error .unfinished
  | fuel + 1, value =>
    if "null".toList.isPrefixOf value then .ok (.null, value.drop 4)
    else if "false".toList.isPrefixOf value then .ok (.false, value.drop 5)
    else if "true".toList.isPrefixOf value then .ok (.true, value.drop 4)
    else
      (first value).bind fun c =>
        if c = '"' then (parseString value).map fun (s, value) => (.string s, value)
        else if c = '-' ∨ '0' ≤ c ∧ c ≤ '9' then parseNumber value
        else if c = '[' then parseArray fuel value.tail
        else if c = '{' then parseObject fuel value.tail
        else .error .fail

/-- Behind the bracket. -/
def parseArray : Nat → Str → Except Failure (Item P × Str)
  | 0, _ => .error .unfinished
  | fuel + 1, value =>
    (skip value).bind fun value =>
      (first value).bind fun c =>
        if c = ']' then .ok (.array [], value.tail) else (parseItems fuel value).map fun (child, value) => (.array child, value)

/-- An item, and the turns of the loop after it. -/
def parseItems : Nat → Str → Except Failure (List (Item P) × Str)
  | 0, _ => .error .unfinished
  | fuel + 1, value =>
    (skip value).bind fun value =>
      (parseValue fuel value).bind fun (item, value) =>
        (skip value).bind fun value =>
          (first value).bind fun c =>
            if c = ',' then (parseItems fuel value.tail).map fun (items, value) => (item :: items, value)
            else if c = ']' then .ok ([item], value.tail)
            else .error .fail

def parseObject : Nat → Str → Except Failure (Item P × Str)
  | 0, _ => .error .unfinished
  | fuel + 1, value =>
    (skip value).bind fun value =>
      (first value).bind fun c =>
        if c = '}' then .ok (.object [], value.tail) else (parseMembers fuel value).map fun (child, value) => (.object child, value)

def parseMembers : Nat → Str → Except Failure (List (Str × Item P) × Str)
  | 0, _ => .error .unfinished
  | fuel + 1, value =>
    (skip value).bind fun value =>
      (parseString value).bind fun (string, value) =>
        (skip value).bind fun value =>
          (first value).bind fun colon =>
            if colon ≠ ':' then .error .fail
            else
              (skip value.tail).bind fun value =>
                (parseValue fuel value).bind fun (item, value) =>
                  (skip value).bind fun value =>
                    (first value).bind fun c =>
                      if c = ',' then (parseMembers fuel value.tail).map fun (items, value) => ((string, item) :: items, value)
                      else if c = '}' then .ok ([(string, item)], value.tail)
                      else .error .fail

end

/-- `cJSON_Parse`. Two calls at least take a character. -/
def parse (value : Str) : Except Failure (Item P) :=
  (skip (value ++ ['\x00'])).bind fun text => (parseValue (3 * text.length) text).map (·.1)

end Movid.Json
