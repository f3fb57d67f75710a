import Mathlib.Algebra.Group.Int.Defs
import Movid.Blob.Contract
import Movid.Preset.Config

/-!
# The region of interest

`moRoiModule::applyFilter` clamps the four properties one after the other to get a rectangle in the image. Its sums are sums of
`int`.
-/

namespace Movid.Image

open Blobs (Rect Size)
open Preset (Platform Config)

/-- The properties. -/
structure Roi where
  left : Int32
  top : Int32
  width : Int32
  height : Int32
  deriving DecidableEq

/-- Every edge is in the image, as mathematical integers. -/
structure Inside (r : Rect) (src : Size) : Prop where
  left : 0 ≤ r.x.toInt
  top : 0 ≤ r.y.toInt
  width : 0 ≤ r.width.toInt
  height : 0 ≤ r.height.toInt
  right : r.x.toInt + r.width.toInt ≤ src.width.toInt
  bottom : r.y.toInt + r.height.toInt ≤ src.height.toInt

namespace Roi

def ofConfig {P : Platform} (c : Config P) : Roi where
  left := (c.property "left".toList).value.asInteger
  top := (c.property "top".toList).value.asInteger
  width := (c.property "width".toList).value.asInteger
  height := (c.property "height".toList).value.asInteger

theorem ofConfig_construct {P : Platform} (counters : Preset.Counters) :
    ofConfig (Preset.ModuleType.roi.construct P counters).1 = { left := 20, top := 10, width := 200, height := 100 } := by
  rfl

/-- A request of `/pipeline/set` or a preset can make the width any number. -/
theorem ofConfig_set_width {P : Platform} (counters : Preset.Counters) (s : Str) :
    ofConfig ((Preset.ModuleType.roi.construct P counters).1.set "width".toList s) =
      { left := 20, top := 10, width := Text.atoi s, height := 100 } := by
  rfl

/-- The rectangle that `applyFilter` hands to `cvSetImageROI`. -/
def applyFilter (p : Roi) (src : Size) : Rect :=
  let left := if p.left < 0 then 0 else p.left
  let left := if left > src.width then src.width else left
  let top := if p.top < 0 then 0 else p.top
  let top := if top > src.height then src.height else top
  let width := if p.width < 0 then 0 else p.width
  let width := if left + width > src.width then src.width - left else width
  let height := if p.height < 0 then 0 else p.height
  let height := if top + height > src.height then src.height - top else height
  { x := left, y := top, width, height }

/-- The clamp from below. -/
def atLeastZero (a : Int32) : Int32 := if a < 0 then 0 else a

/-- Where the rectangle begins along one axis. -/
def start (offset limit : Int32) : Int32 := if atLeastZero offset > limit then limit else atLeastZero offset

/-- How far it reaches. -/
def extent (start length limit : Int32) : Int32 :=
  if start + atLeastZero length > limit then limit - start else atLeastZero length

theorem applyFilter_eq (p : Roi) (src : Size) :
    p.applyFilter src =
      { x := start p.left src.width, y := start p.top src.height, width := extent (start p.left src.width) p.width src.width,
        height := extent (start p.top src.height) p.height src.height } := rfl

theorem toInt_atLeastZero (a : Int32) : (atLeastZero a).toInt = max 0 a.toInt := by
  unfold atLeastZero
  split
  · rename_i negative
    rw [Int32.lt_iff_toInt_lt, Int32.toInt_zero] at negative
    rw [Int32.toInt_zero, max_eq_left negative.le]
  · rename_i positive
    rw [Int32.lt_iff_toInt_lt, Int32.toInt_zero, not_lt] at positive
    rw [max_eq_right positive]

theorem toInt_start (offset limit : Int32) : (start offset limit).toInt = min (max 0 offset.toInt) limit.toInt := by
  unfold start
  split
  · rename_i beyond
    rw [gt_iff_lt, Int32.lt_iff_toInt_lt, toInt_atLeastZero] at beyond
    rw [min_eq_right beyond.le]
  · rename_i within
    rw [gt_iff_lt, Int32.lt_iff_toInt_lt, toInt_atLeastZero, not_lt] at within
    rw [toInt_atLeastZero, min_eq_left within]

/-- The sum of two numbers that are not negative wraps around once or not at all. -/
theorem toInt_add_of_nonneg {a b : Int32} (first : 0 ≤ a.toInt) (second : 0 ≤ b.toInt) :
    (a + b).toInt = if a.toInt + b.toInt < 2 ^ 31 then a.toInt + b.toInt else a.toInt + b.toInt - 2 ^ 32 := by
  have := a.toInt_lt
  have := b.toInt_lt
  rw [Int32.toInt_add, Int.bmod_def]
  split <;> split <;> omega

theorem toInt_sub_of_nonneg {a b : Int32} (first : 0 ≤ b.toInt) (second : b.toInt ≤ a.toInt) : (a - b).toInt = a.toInt - b.toInt := by
  have := a.toInt_lt
  rw [Int32.toInt_sub, Int.bmod_eq_of_le]
  all_goals omega

/-- A sum that wraps around is negative, and the length stays as it is. -/
theorem extent_inside_iff {start limit : Int32} (low : 0 ≤ start.toInt) (high : start.toInt ≤ limit.toInt) (length : Int32) :
    0 ≤ (extent start length limit).toInt ∧ start.toInt + (extent start length limit).toInt ≤ limit.toInt ↔
      start.toInt + max 0 length.toInt < 2 ^ 31 := by
  have bound := limit.toInt_lt
  have short := length.toInt_lt
  have sum := toInt_add_of_nonneg low (b := atLeastZero length) (by rw [toInt_atLeastZero]; exact le_max_left _ _)
  rw [toInt_atLeastZero] at sum
  unfold extent
  split
  · rename_i beyond
    rw [gt_iff_lt, Int32.lt_iff_toInt_lt, sum] at beyond
    rw [toInt_sub_of_nonneg low high]
    split at beyond <;> omega
  · rename_i within
    rw [gt_iff_lt, Int32.lt_iff_toInt_lt, sum, not_lt] at within
    rw [toInt_atLeastZero]
    split at within <;> omega

/-- The rectangle is inside the image exactly when neither of the two sums leaves the range of `int`. -/
theorem region_inside_iff (p : Roi) {src : Size} (wide : 0 < src.width.toInt) (high : 0 < src.height.toInt) :
    Inside (p.applyFilter src) src ↔
      min (max 0 p.left.toInt) src.width.toInt + max 0 p.width.toInt < 2 ^ 31 ∧
        min (max 0 p.top.toInt) src.height.toInt + max 0 p.height.toInt < 2 ^ 31 := by
  have left := toInt_start p.left src.width
  have top := toInt_start p.top src.height
  have leftLow : 0 ≤ (start p.left src.width).toInt := by omega
  have leftHigh : (start p.left src.width).toInt ≤ src.width.toInt := by omega
  have topLow : 0 ≤ (start p.top src.height).toInt := by omega
  have topHigh : (start p.top src.height).toInt ≤ src.height.toInt := by omega
  rw [applyFilter_eq, ← left, ← top, ← extent_inside_iff leftLow leftHigh, ← extent_inside_iff topLow topHigh]
  constructor
  · intro inside
    exact ⟨⟨inside.width, inside.right⟩, ⟨inside.height, inside.bottom⟩⟩
  · rintro ⟨⟨width, right⟩, ⟨height, bottom⟩⟩
    exact ⟨leftLow, topLow, width, height, right, bottom⟩

/-- The properties of the constructor, on an image of 640 by 480. -/
theorem default_region_inside :
    Inside (applyFilter { left := 20, top := 10, width := 200, height := 100 } { width := 640, height := 480 })
      { width := 640, height := 480 } :=
  (region_inside_iff _ (by decide) (by decide)).mpr (by decide)

/-- The sum 20 + 2147483647 is negative in 32 bits. -/
theorem wide_region_outside :
    ¬ Inside (applyFilter { left := 20, top := 10, width := 2147483647, height := 100 } { width := 640, height := 480 })
      { width := 640, height := 480 } :=
  fun inside => absurd inside.right (by decide)

end Roi

end Movid.Image
