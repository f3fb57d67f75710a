import Mathlib.Data.List.TakeWhile
import Movid.Lib.BigEndian

/-!
# Numbers and strings of OSC

`WOscUtil` writes numbers as four bytes, the most significant one first. A `WOscString` keeps its text with one to four zeros after it, so
that its size is a multiple of four. A pointer is the memory from there on, and reading past its end is not defined.
-/

namespace Movid.Osc

export BigEndian (Byte)

/-- An `int`, or the bits of a `float`. -/
abbrev Word := BitVec 32

def ch (c : Char) : Byte := BitVec.ofNat 8 c.toNat

/-! ### `WOscUtil` -/

def writeBuffer (arg : Word) : List Byte := BigEndian.bytes 4 arg.toNat

/-- `CharBufToInt` and `CharBufToFloat`. -/
def charBufToInt (buf : List Byte) : Option Word :=
  if 4 ≤ buf.length then some (BitVec.ofNat 32 (BigEndian.value (buf.take 4))) else none

/-- C++ rounds quotients towards zero, which matters for the length of a damaged blob. -/
def getSizeFourByteAligned (length : Int) : Int := length + (4 - length.tmod 4).tmod 4

/-- The string that a pointer points to. -/
def cstring (p : List Byte) : Option (List Byte) := if 0 ∈ p then some (p.takeWhile (· ≠ 0)) else none

/-! ### `WOscString`, as its buffer -/

/-- `PadStringWithZeros`, for a text without zeros. -/
def pad (text : List Byte) : List Byte :=
  text ++ List.replicate ((getSizeFourByteAligned (text.length + 1)).toNat - text.length) 0

/-- `operator+=`. -/
def append (lhs rhs : List Byte) : List Byte := pad (lhs.takeWhile (· ≠ 0) ++ rhs.takeWhile (· ≠ 0))

/-! ### What is read is what was written -/

@[simp] theorem length_writeBuffer (arg : Word) : (writeBuffer arg).length = 4 := BigEndian.length_bytes 4 _

theorem charBufToInt_writeBuffer (arg : Word) (rest : List Byte) : charBufToInt (writeBuffer arg ++ rest) = some arg := by
  have small : arg.toNat < 256 ^ 4 := arg.isLt
  have front : (writeBuffer arg ++ rest).take 4 = writeBuffer arg := List.take_left' (length_writeBuffer arg)
  unfold charBufToInt
  rw [if_pos (by rw [List.length_append, length_writeBuffer]; omega), front, writeBuffer, BigEndian.value_bytes_of_lt small,
    BitVec.ofNat_toNat, BitVec.setWidth_eq]

theorem aligned_spec (length : Nat) :
    4 ∣ (getSizeFourByteAligned length).toNat ∧ length ≤ (getSizeFourByteAligned length).toNat ∧
      ((getSizeFourByteAligned length).toNat : Int) = getSizeFourByteAligned length := by
  have same : getSizeFourByteAligned length = ((length + (4 - length % 4) % 4 : Nat) : Int) := by
    unfold getSizeFourByteAligned
    rw [Int.tmod_eq_emod_of_nonneg (Int.natCast_nonneg length), Int.tmod_eq_emod_of_nonneg (by omega)]
    omega
  rw [same]
  omega

/-- A text and at least one zero. -/
theorem pad_eq (text : List Byte) : ∃ zeros, pad text = text ++ 0 :: List.replicate zeros 0 := by
  have room := (aligned_spec (text.length + 1)).2.1
  rw [Nat.cast_succ] at room
  obtain ⟨n, more⟩ : ∃ n, (getSizeFourByteAligned (text.length + 1)).toNat - text.length = n + 1 :=
    ⟨(getSizeFourByteAligned (text.length + 1)).toNat - text.length - 1, by omega⟩
  exact ⟨n, by rw [pad, more, List.replicate_succ]⟩

theorem length_pad (text : List Byte) : (pad text).length = (getSizeFourByteAligned (text.length + 1)).toNat := by
  have room := (aligned_spec (text.length + 1)).2.1
  rw [Nat.cast_succ] at room
  rw [pad, List.length_append, List.length_replicate]
  omega

theorem dvd_length_pad (text : List Byte) : 4 ∣ (pad text).length := by
  have whole := (aligned_spec (text.length + 1)).1
  rw [Nat.cast_succ] at whole
  rw [length_pad]
  exact whole

variable {text : List Byte}

theorem takeWhile_zero (clean : 0 ∉ text) (rest : List Byte) : (text ++ 0 :: rest).takeWhile (· ≠ 0) = text := by
  have whole : ∀ b ∈ text, decide (b ≠ 0) = true := fun b member => decide_eq_true fun zero => clean (zero ▸ member)
  rw [List.takeWhile_append_of_pos whole, List.takeWhile_cons_of_neg (by simp), List.append_nil]

theorem takeWhile_pad (clean : 0 ∉ text) : (pad text).takeWhile (· ≠ 0) = text := by
  obtain ⟨zeros, shape⟩ := pad_eq text
  rw [shape, takeWhile_zero clean]

theorem append_pad {other : List Byte} (clean : 0 ∉ text) (clean' : 0 ∉ other) : append (pad text) (pad other) = pad (text ++ other) := by
  rw [append, takeWhile_pad clean, takeWhile_pad clean']

theorem cstring_pad (clean : 0 ∉ text) (rest : List Byte) : cstring (pad text ++ rest) = some text := by
  obtain ⟨zeros, shape⟩ := pad_eq text
  unfold cstring
  rw [shape, List.append_assoc, List.cons_append, takeWhile_zero clean, if_pos (by simp)]

theorem zero_not_mem_cstring {p : List Byte} (read : cstring p = some text) : 0 ∉ text := by
  unfold cstring at read
  split at read
  · cases read
    intro member
    simpa using List.mem_takeWhile_imp member
  · cases read

end Movid.Osc
