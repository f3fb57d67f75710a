import Mathlib.Algebra.Ring.Nat
import Mathlib.Tactic.Ring

/-!
# Numbers as bytes, the most significant one first
-/

namespace BigEndian

abbrev Byte := BitVec 8

/-- The last `n` bytes of a number. -/
def bytes : Nat → Nat → List Byte
  | 0, _ => []
  | n + 1, value => BitVec.ofNat 8 (value / 256 ^ n) :: bytes n value

def value (bytes : List Byte) : Nat := bytes.foldl (fun high byte => high * 256 + byte.toNat) 0

@[simp] theorem length_bytes (n v : Nat) : (bytes n v).length = n := by
  induction n with
  | zero => rfl
  | succ n ih => rw [bytes, List.length_cons, ih]

theorem foldl_bytes (n v high : Nat) :
    (bytes n v).foldl (fun high byte => high * 256 + byte.toNat) high = high * 256 ^ n + v % 256 ^ n := by
  induction n generalizing high with
  | zero => simp [bytes, Nat.mod_one]
  | succ n ih =>
    have digits : v % 256 ^ (n + 1) = v % 256 ^ n + 256 ^ n * (v / 256 ^ n % 256) := Nat.mod_pow_succ
    have byte : (BitVec.ofNat 8 (v / 256 ^ n)).toNat = v / 256 ^ n % 256 := BitVec.toNat_ofNat _ _
    rw [bytes, List.foldl_cons, ih, byte, digits, pow_succ]
    ring

theorem value_bytes (n v : Nat) : value (bytes n v) = v % 256 ^ n := by
  rw [value, foldl_bytes, Nat.zero_mul, Nat.zero_add]

theorem value_bytes_of_lt {n v : Nat} (small : v < 256 ^ n) : value (bytes n v) = v := by
  rw [value_bytes, Nat.mod_eq_of_lt small]

end BigEndian
