import Mathlib.Data.Finset.Prod
import Mathlib.Data.List.ProdSigma
import Movid.Lib.Selection
import Movid.Tracker.Blob

/-!
# The peaks of PeakFinder

The pixels of an image are bytes from 0 to 255. `findRange` reads them as `char`, which is signed, so the bright half comes out
negative.
-/

namespace Movid.Image

/-- An image with one channel of bytes; the rows start `widthStep` bytes apart. -/
structure Gray where
  width : Nat
  height : Nat
  widthStep : Nat
  imageData : Array UInt8
  stride : width ≤ widthStep
  size : imageData.size = height * widthStep

/-- `doubleToPoint`. -/
structure Peak (D : Type) where
  first : D
  x : Nat
  y : Nat

def Peak.point {D : Type} (p : Peak D) : Nat × Nat := (p.x, p.y)

namespace Gray

def pixel (img : Gray) (i j : Nat) : UInt8 := img.imageData.getD (j * img.widthStep + i) 0

theorem index_lt (img : Gray) {i j : Nat} (column : i < img.width) (row : j < img.height) :
    j * img.widthStep + i < img.imageData.size := by
  calc j * img.widthStep + i < j * img.widthStep + img.widthStep := Nat.add_lt_add_left (column.trans_le img.stride) _
    _ = (j + 1) * img.widthStep := (Nat.succ_mul j img.widthStep).symm
    _ ≤ img.height * img.widthStep := Nat.mul_le_mul_right _ row
    _ = img.imageData.size := img.size.symm

/-- What `(int) data[j * step + i]` gives. -/
def read (img : Gray) (p : Nat × Nat) : Int := (img.pixel p.1 p.2).toInt8.toInt

def value (img : Gray) (p : Nat × Nat) : Int := (img.pixel p.1 p.2).toNat

theorem read_eq (img : Gray) (p : Nat × Nat) : img.read p = if img.value p < 128 then img.value p else img.value p - 256 := by
  have range := (img.pixel p.1 p.2).toNat_lt
  unfold read value
  rw [Int8.toInt, UInt8.toBitVec_toInt8, BitVec.toInt_eq_toNat_cond, UInt8.toNat_toBitVec]
  split <;> split <;> omega

theorem value_bounds (img : Gray) (p : Nat × Nat) : 0 ≤ img.value p ∧ img.value p < 256 := by
  have range := (img.pixel p.1 p.2).toNat_lt
  unfold value
  omega

end Gray

section Code

variable {D : Type} (ops : Doubles D)

def findRange (minValue maxValue : D) (src : Gray) : List (Peak D) :=
  (List.range src.width).flatMap fun i => (List.range src.height).filterMap fun j =>
    let curVal := ops.ofInt (src.read (i, j))
    if ops.lt minValue curVal && ops.lt curVal maxValue then some { first := curVal, x := i, y := j } else none

/-- `_sort_pred`. -/
def sortPred (left right : Peak D) : Bool := ops.lt right.first left.first

def findMaxima (sort : (Peak D → Peak D → Bool) → List (Peak D) → List (Peak D)) (maxPeaks : Nat) (peaks : List (Peak D)) : List (Peak D) :=
  if maxPeaks ≠ 0 ∧ maxPeaks < peaks.length then (sort (sortPred ops) peaks).take maxPeaks else peaks

end Code

/-! ### Values that are read wrong -/

section Misreading

open Selection

variable {α : Type*} [DecidableEq α] {value read : α → Int} {dark bright misread r : Finset α} {m : ℕ}

/-- Bright members are read as if they were darker than all others. `bright` are the ones in a range, `misread` those that are
read in it. -/
structure Misreading (value read : α → Int) (dark bright misread : Finset α) : Prop where
  onDark : ∀ p ∈ dark, read p = value p ∧ 0 ≤ value p ∧ value p < 128
  onBright : ∀ p ∈ bright, read p = value p - 256 ∧ 128 ≤ value p ∧ value p < 256
  onMisread : ∀ p ∈ misread, read p = value p - 256 ∧ 128 ≤ value p ∧ value p < 256
  upper : ∀ p ∈ misread, ∀ q ∈ bright, value p ≤ value q → p ∈ bright
  lower : ∀ p ∈ misread, ∀ q ∈ bright, q ∉ misread → value q ≤ value p

/-- When the strongest members as read are the strongest members. -/
def Harmless (dark bright misread : Finset α) (m : ℕ) : Prop :=
  misread = bright ∧ (m = 0 ∨ (dark ∪ bright).card ≤ m ∨ dark = ∅ ∨ bright = ∅) ∨
  bright = ∅ ∧ m ≠ 0 ∧ m ≤ dark.card ∨
  dark = ∅ ∧ misread ⊆ bright ∧ m ≠ 0 ∧ m ≤ misread.card

namespace Misreading

variable (wrong : Misreading value read dark bright misread)
include wrong

theorem strongest_of_same (same : misread = bright) (plain : m = 0 ∨ (dark ∪ bright).card ≤ m ∨ dark = ∅ ∨ bright = ∅)
    (chosen : Strongest read (dark ∪ misread) m r) : Strongest value (dark ∪ bright) m r := by
  subst same
  rcases or_assoc.mpr plain with enough | rfl | rfl
  · obtain rfl := chosen.eq enough
    exact strongest_self enough
  · refine chosen.congr fun p first q second order => ?_
    rw [Finset.empty_union] at first second
    have := wrong.onMisread p first
    have := wrong.onMisread q second
    omega
  · refine chosen.congr fun p first q second order => ?_
    rw [Finset.union_empty] at first second
    have := wrong.onDark p first
    have := wrong.onDark q second
    omega

/-- Dark members are read as the strongest. -/
theorem strongest_of_no_bright (some : m ≠ 0) (enough : m ≤ dark.card) (chosen : Strongest read (dark ∪ misread) m r) :
    Strongest value dark m r := by
  have inside : r ⊆ dark := by
    intro p member
    by_contra other
    have low := wrong.onMisread p ((Finset.mem_union.mp (chosen.subset member)).resolve_left other)
    have left : ¬dark ⊆ r := by
      intro all
      exact other (Finset.eq_of_subset_of_card_le all ((chosen.card_le some).trans enough) ▸ member)
    obtain ⟨q, inDark, out⟩ := Finset.not_subset.mp left
    have high := wrong.onDark q inDark
    have := chosen.best p member q (Finset.mem_union_left _ inDark) out
    omega
  have fewer : dark.card ≤ (dark ∪ misread).card := Finset.card_le_card Finset.subset_union_left
  refine ⟨inside, fun all => ?_, fun _ few => chosen.card some (few.trans_le fewer), fun p member q inDark out => ?_⟩
  · by_cases few : m < (dark ∪ misread).card
    · exact (Finset.eq_of_subset_of_card_le inside (by rw [chosen.card some few]; exact all.resolve_left some)).ge
    · exact Finset.subset_union_left.trans (chosen.all (Or.inr (Nat.not_lt.mp few)))
  · have := wrong.onDark p (inside member)
    have := wrong.onDark q inDark
    have := chosen.best p member q (Finset.mem_union_left _ inDark) out
    omega

/-- Without dark members the order is right. -/
theorem strongest_of_no_dark (least : misread ⊆ bright) (some : m ≠ 0) (enough : m ≤ misread.card)
    (chosen : Strongest read misread m r) : Strongest value bright m r := by
  have count : r.card = m := by
    rcases enough.lt_or_eq with few | same
    · exact chosen.card some few
    · rw [chosen.eq (Or.inr same.ge), same]
  refine ⟨chosen.subset.trans least, fun all => ?_, fun _ _ => count, fun p member q inBright out => ?_⟩
  · rw [Finset.eq_of_subset_of_card_le (chosen.subset.trans least) (by rw [count]; exact all.resolve_left some)]
  · by_cases seen : q ∈ misread
    · have := wrong.onMisread p (chosen.subset member)
      have := wrong.onMisread q seen
      have := chosen.best p member q seen out
      omega
    · exact wrong.lower p (chosen.subset member) q inBright seen

theorem strongest_of_harmless (harmless : Harmless dark bright misread m) (chosen : Strongest read (dark ∪ misread) m r) :
    Strongest value (dark ∪ bright) m r := by
  rcases harmless with ⟨same, plain⟩ | ⟨rfl, some, enough⟩ | ⟨rfl, least, some, enough⟩
  · exact wrong.strongest_of_same same plain chosen
  · rw [Finset.union_empty]
    exact wrong.strongest_of_no_bright some enough chosen
  · rw [Finset.empty_union] at chosen ⊢
    exact wrong.strongest_of_no_dark least some enough chosen

theorem subset_of_union_subset (all : dark ∪ misread ⊆ dark ∪ bright) : misread ⊆ bright := by
  intro p member
  rcases Finset.mem_union.mp (all (Finset.mem_union_right _ member)) with inDark | inBright
  · have := wrong.onDark p inDark
    have := wrong.onMisread p member
    omega
  · exact inBright

theorem eq_of_union_eq (same : dark ∪ misread = dark ∪ bright) : misread = bright := by
  refine Finset.Subset.antisymm (wrong.subset_of_union_subset same.subset) fun p member => ?_
  rcases Finset.mem_union.mp (same.ge (Finset.mem_union_right _ member)) with inDark | inMisread
  · have := wrong.onDark p inDark
    have := wrong.onBright p member
    omega
  · exact inMisread

/-- No bright member is left out for a dark one. -/
theorem not_dark (strongest : Strongest value (dark ∪ bright) m r) {p q : α} (kept : p ∈ r) (inDark : p ∈ dark) (out : q ∉ r)
    (inBright : q ∈ bright) : False := by
  have := wrong.onDark p inDark
  have := wrong.onBright q inBright
  have := strongest.best p kept q (Finset.mem_union_right _ inBright) out
  omega

/-- As long as something that is read in the range is left out, a bright member in the range means that more are left out. -/
theorem few_of_bright (chosen : Strongest read (dark ∪ misread) m r) (strongest : Strongest value (dark ∪ bright) m r) (some : m ≠ 0)
    (few : m < (dark ∪ misread).card) {b : α} (inBright : b ∈ bright) : m < (dark ∪ bright).card := by
  by_contra many
  have same := strongest.eq (Or.inr (Nat.not_lt.mp many))
  have left : ¬dark ∪ misread ⊆ r := fun all => absurd (Finset.card_le_card all) (by rw [chosen.card some few]; exact Nat.not_le.mpr few)
  obtain ⟨q, member, out⟩ := Finset.not_subset.mp left
  have inMisread : q ∈ misread :=
    (Finset.mem_union.mp member).resolve_left fun inDark => out (same ▸ Finset.mem_union_left _ inDark)
  have kept : b ∈ r := same ▸ Finset.mem_union_right _ inBright
  have below := chosen.best b kept q member out
  have := wrong.onBright b inBright
  have := wrong.onMisread q inMisread
  exact out (same ▸ Finset.mem_union_right _ (wrong.upper q inMisread b inBright (by omega)))

/-- Something dark would be kept, and something bright left out. -/
theorem dark_eq_empty (chosen : Strongest read (dark ∪ misread) m r) (strongest : Strongest value (dark ∪ bright) m r) (some : m ≠ 0)
    (few : m < (dark ∪ misread).card) {b : α} (inBright : b ∈ bright) : dark = ∅ := by
  refine Finset.eq_empty_of_forall_notMem fun p inDark => ?_
  have count := chosen.card some few
  have high := wrong.onDark p inDark
  obtain ⟨d, kept, dDark⟩ : ∃ d ∈ r, d ∈ dark := by
    by_cases kept : p ∈ r
    · exact ⟨p, kept, inDark⟩
    · obtain ⟨x, member⟩ := Finset.card_pos.mp (by omega : 0 < r.card)
      refine ⟨x, member, (Finset.mem_union.mp (chosen.subset member)).resolve_right fun inMisread => ?_⟩
      have := chosen.best x member p (Finset.mem_union_left _ inDark) kept
      have := wrong.onMisread x inMisread
      omega
  have more := wrong.few_of_bright chosen strongest some few inBright
  obtain ⟨q, member, out⟩ := Finset.not_subset.mp
    fun all : dark ∪ bright ⊆ r => absurd (Finset.card_le_card all) (by rw [count]; exact Nat.not_le.mpr more)
  rcases Finset.mem_union.mp member with qDark | qBright
  · by_cases bKept : b ∈ r
    · have := wrong.onDark q qDark
      have := wrong.onBright b inBright
      have := chosen.best b bKept q (Finset.mem_union_left _ qDark) out
      omega
    · exact wrong.not_dark strongest kept dDark bKept inBright
  · exact wrong.not_dark strongest kept dDark out qBright

theorem harmless_of_strongest (chosen : Strongest read (dark ∪ misread) m r) (strongest : Strongest value (dark ∪ bright) m r) :
    Harmless dark bright misread m := by
  by_cases none : m = 0
  · have same := (chosen.eq (Or.inl none)).symm.trans (strongest.eq (Or.inl none))
    exact Or.inl ⟨wrong.eq_of_union_eq same, Or.inl none⟩
  by_cases few : m < (dark ∪ misread).card
  · have count := chosen.card none few
    rcases bright.eq_empty_or_nonempty with rfl | ⟨b, inBright⟩
    · refine Or.inr (Or.inl ⟨rfl, none, ?_⟩)
      rw [← count, ← Finset.union_empty dark]
      exact Finset.card_le_card strongest.subset
    · have noDark := wrong.dark_eq_empty chosen strongest none few inBright
      subst noDark
      rw [Finset.empty_union] at chosen strongest few
      refine Or.inr (Or.inr ⟨rfl, fun p member => ?_, none, few.le⟩)
      by_cases kept : p ∈ r
      · exact strongest.subset kept
      · obtain ⟨x, inside⟩ := Finset.card_pos.mp (by omega : 0 < r.card)
        have := chosen.best x inside p member kept
        have := wrong.onMisread p member
        have := wrong.onMisread x (chosen.subset inside)
        exact wrong.upper p member x (strongest.subset inside) (by omega)
  · obtain rfl := chosen.eq (Or.inr (Nat.not_lt.mp few))
    by_cases more : m < (dark ∪ bright).card
    · have count := strongest.card none more
      have noDark : dark = ∅ := by
        refine Finset.eq_empty_of_forall_notMem fun p inDark => ?_
        obtain ⟨q, member, out⟩ := Finset.not_subset.mp
          fun all : dark ∪ bright ⊆ dark ∪ misread => absurd (Finset.card_le_card all) (by rw [count]; exact Nat.not_le.mpr more)
        have qBright := (Finset.mem_union.mp member).resolve_left fun qDark => out (Finset.mem_union_left _ qDark)
        exact wrong.not_dark strongest (Finset.mem_union_left _ inDark) inDark out qBright
      refine Or.inr (Or.inr ⟨noDark, wrong.subset_of_union_subset strongest.subset, none, ?_⟩)
      rw [noDark, Finset.empty_union] at count
      exact count.ge
    · have enough : m = 0 ∨ (dark ∪ bright).card ≤ m := Or.inr (Nat.not_lt.mp more)
      exact Or.inl ⟨wrong.eq_of_union_eq (strongest.eq enough), or_assoc.mp (Or.inl enough)⟩

/-- The choice by the values as they are read is the right one in exactly these cases. -/
theorem strongest_iff_harmless (chosen : Strongest read (dark ∪ misread) m r) :
    Strongest value (dark ∪ bright) m r ↔ Harmless dark bright misread m :=
  ⟨wrong.harmless_of_strongest chosen, fun harmless => wrong.strongest_of_harmless harmless chosen⟩

end Misreading

end Misreading

/-! ### The pixels in range -/

section Range

open Selection

variable {D : Type} (ops : Doubles D) (minValue maxValue : D) (src : Gray)

def inRange (v : Int) : Bool := ops.lt minValue (ops.ofInt v) && ops.lt (ops.ofInt v) maxValue

/-- Coordinates, in the order in which the loops visit them. -/
def Gray.visits : List (Nat × Nat) := List.range src.width ×ˢ List.range src.height

def Gray.pixels : Finset (Nat × Nat) := Finset.range src.width ×ˢ Finset.range src.height

/-- The pixels with values in range. -/
def wanted : Finset (Nat × Nat) := src.pixels.filter fun p => inRange ops minValue maxValue (src.value p)

def dark : Finset (Nat × Nat) := src.pixels.filter fun p => inRange ops minValue maxValue (src.value p) ∧ src.value p < 128

def bright : Finset (Nat × Nat) := src.pixels.filter fun p => inRange ops minValue maxValue (src.value p) ∧ 128 ≤ src.value p

/-- Bright pixels that come out in the range when they are read as `char`. -/
def misread : Finset (Nat × Nat) :=
  src.pixels.filter fun p => inRange ops minValue maxValue (src.value p - 256) ∧ 128 ≤ src.value p

theorem dark_union_bright : dark ops minValue maxValue src ∪ bright ops minValue maxValue src = wanted ops minValue maxValue src := by
  unfold dark bright wanted
  rw [← Finset.filter_or]
  refine Finset.filter_congr fun p _ => ?_
  rw [← and_or_left]
  exact and_iff_left (lt_or_ge _ _)

theorem dark_union_misread : dark ops minValue maxValue src ∪ misread ops minValue maxValue src =
    src.pixels.filter fun p => inRange ops minValue maxValue (src.read p) := by
  unfold dark misread
  rw [← Finset.filter_or]
  refine Finset.filter_congr fun p _ => ?_
  rw [src.read_eq p]
  split
  · rename_i low
    simp [low, Int.not_le.mpr low]
  · rename_i high
    simp [high, Int.not_lt.mp high]

/-- What doubles do with whole numbers: rounding keeps the order, and small numbers are exact. -/
structure OrdersInts (ops : Doubles D) : Prop where
  exact : ∀ m n : Int, m.natAbs ≤ 2 ^ 31 → n.natAbs ≤ 2 ^ 31 → (ops.lt (ops.ofInt m) (ops.ofInt n) = true ↔ m < n)
  left : ∀ (x : D) (m n : Int), m ≤ n → ops.lt x (ops.ofInt m) = true → ops.lt x (ops.ofInt n) = true
  right : ∀ (x : D) (m n : Int), m ≤ n → ops.lt (ops.ofInt n) x = true → ops.lt (ops.ofInt m) x = true

variable {ops}

theorem OrdersInts.misreading (orders : OrdersInts ops) : Misreading src.value src.read (dark ops minValue maxValue src)
    (bright ops minValue maxValue src) (misread ops minValue maxValue src) := by
  refine ⟨fun p member => ?_, fun p member => ?_, fun p member => ?_, fun p first q second order => ?_, fun p first q second out => ?_⟩
  · obtain ⟨-, -, low⟩ := Finset.mem_filter.mp member
    rw [src.read_eq, if_pos low]
    exact ⟨rfl, (src.value_bounds p).1, low⟩
  · obtain ⟨-, -, high⟩ := Finset.mem_filter.mp member
    rw [src.read_eq, if_neg (Int.not_lt.mpr high)]
    exact ⟨rfl, high, (src.value_bounds p).2⟩
  · obtain ⟨-, -, high⟩ := Finset.mem_filter.mp member
    rw [src.read_eq, if_neg (Int.not_lt.mpr high)]
    exact ⟨rfl, high, (src.value_bounds p).2⟩
  · obtain ⟨inside, range, high⟩ := Finset.mem_filter.mp first
    obtain ⟨-, range', -⟩ := Finset.mem_filter.mp second
    refine Finset.mem_filter.mpr ⟨inside, Bool.and_eq_true_iff.mpr ⟨?_, ?_⟩, high⟩
    · exact orders.left _ _ _ (by omega) (Bool.and_eq_true_iff.mp range).1
    · exact orders.right _ _ _ order (Bool.and_eq_true_iff.mp range').2
  · obtain ⟨-, range, -⟩ := Finset.mem_filter.mp first
    obtain ⟨inside, range', high⟩ := Finset.mem_filter.mp second
    by_contra order
    refine out (Finset.mem_filter.mpr ⟨inside, Bool.and_eq_true_iff.mpr ⟨?_, ?_⟩, high⟩)
    · exact orders.left _ _ _ (by omega) (Bool.and_eq_true_iff.mp range).1
    · exact orders.right _ _ _ (by omega) (Bool.and_eq_true_iff.mp range').2

/-! ### The loops -/

variable (ops)

def peakAt (p : Nat × Nat) : Peak D := { first := ops.ofInt (src.read p), x := p.1, y := p.2 }

theorem findRange_eq : findRange ops minValue maxValue src =
    (src.visits.filter fun p => inRange ops minValue maxValue (src.read p)).map (peakAt ops src) := by
  unfold findRange Gray.visits
  rw [show List.range src.width ×ˢ List.range src.height = (List.range src.width).flatMap fun i => (List.range src.height).map (Prod.mk i)
    from rfl, List.filter_flatMap, List.map_flatMap]
  congr 1
  funext i
  rw [List.filter_map, List.map_map, ← List.filterMap_eq_filter, List.map_filterMap]
  congr 1
  funext j
  show (if inRange ops minValue maxValue (src.read (i, j)) then some (peakAt ops src (i, j)) else none) = _
  rw [Option.guard, Function.comp_apply]
  split_ifs <;> rfl

theorem visits_nodup : src.visits.Nodup := List.nodup_range.product List.nodup_range

theorem visits_toFinset : src.visits.toFinset = src.pixels := by
  ext ⟨i, j⟩
  rw [List.mem_toFinset, Gray.pixels, Finset.mem_product, Finset.mem_range, Finset.mem_range]
  exact List.pair_mem_product.trans (and_congr List.mem_range List.mem_range)

/-- `std::sort`, for numbers: no later peak goes before an earlier one. -/
structure Sorts (ops : Doubles D) (sort : (Peak D → Peak D → Bool) → List (Peak D) → List (Peak D)) : Prop where
  perm : ∀ peaks, (sort (sortPred ops) peaks).Perm peaks
  sorted : ∀ peaks, (∀ p ∈ peaks, ∃ n : Int, p.first = ops.ofInt n) →
    (sort (sortPred ops) peaks).Pairwise fun a b => sortPred ops b a = false

variable {ops} {sort : (Peak D → Peak D → Bool) → List (Peak D) → List (Peak D)}

theorem point_peakAt (points : List (Nat × Nat)) : (points.map (peakAt ops src)).map Peak.point = points := by
  rw [List.map_map]
  exact List.map_id points

/-- Sorting the peaks sorts the pixels by what was read. -/
theorem sorted_points (orders : OrdersInts ops) (sorts : Sorts ops sort) (points : List (Nat × Nat)) :
    ((sort (sortPred ops) (points.map (peakAt ops src))).map Peak.point).Perm points ∧
    ((sort (sortPred ops) (points.map (peakAt ops src))).map Peak.point).Pairwise fun p q => src.read q ≤ src.read p := by
  have perm := sorts.perm (points.map (peakAt ops src))
  have origin : ∀ a ∈ sort (sortPred ops) (points.map (peakAt ops src)), a = peakAt ops src a.point := by
    intro a member
    obtain ⟨p, -, rfl⟩ := List.mem_map.mp (perm.subset member)
    rfl
  refine ⟨(perm.map Peak.point).trans (List.Perm.of_eq (point_peakAt src points)), List.pairwise_map.mpr ?_⟩
  have sorted := sorts.sorted (points.map (peakAt ops src)) fun a member => by
    obtain ⟨p, -, rfl⟩ := List.mem_map.mp member
    exact ⟨_, rfl⟩
  refine sorted.imp_of_mem fun first second order => ?_
  rename_i a b
  rw [origin a first, origin b second, ← Bool.not_eq_true] at order
  have small (p : Nat × Nat) : (src.read p).natAbs ≤ 2 ^ 31 := by
    have bounds := src.value_bounds p
    rw [src.read_eq]
    split <;> omega
  exact Int.not_lt.mp fun less => order ((orders.exact _ _ (small a.point) (small b.point)).mpr less)

theorem findMaxima_points (orders : OrdersInts ops) (sorts : Sorts ops sort) {points : List (Nat × Nat)} (distinct : points.Nodup) (m : Nat) :
    ((findMaxima ops sort m (points.map (peakAt ops src))).map Peak.point).Nodup ∧
    Strongest src.read points.toFinset m ((findMaxima ops sort m (points.map (peakAt ops src))).map Peak.point).toFinset := by
  unfold findMaxima
  rw [List.length_map]
  split
  · rename_i cut
    obtain ⟨perm, sorted⟩ := sorted_points src orders sorts points
    rw [List.map_take]
    exact ⟨(perm.nodup_iff.mpr distinct).sublist (List.take_sublist m _), strongest_take perm distinct sorted cut.1 cut.2⟩
  · rename_i whole
    rw [point_peakAt]
    refine ⟨distinct, strongest_self ?_⟩
    rw [List.toFinset_card_of_nodup distinct]
    omega

/-- The peaks are the strongest pixels as they are read. -/
theorem findMaxima_strongest (orders : OrdersInts ops) (sorts : Sorts ops sort) (m : Nat) :
    ((findMaxima ops sort m (findRange ops minValue maxValue src)).map Peak.point).Nodup ∧
    Strongest src.read (dark ops minValue maxValue src ∪ misread ops minValue maxValue src) m
      ((findMaxima ops sort m (findRange ops minValue maxValue src)).map Peak.point).toFinset := by
  have distinct := (visits_nodup src).filter fun p => inRange ops minValue maxValue (src.read p)
  rw [findRange_eq, dark_union_misread, ← visits_toFinset, ← List.toFinset_filter]
  exact findMaxima_points src orders sorts distinct m

/-- The peaks are the strongest pixels in range in exactly the cases in which the pixels that are read wrong do no harm. -/
theorem peaks_strongest_iff (orders : OrdersInts ops) (sorts : Sorts ops sort) (m : Nat) :
    ((findMaxima ops sort m (findRange ops minValue maxValue src)).map Peak.point).Nodup ∧
      Strongest src.value (wanted ops minValue maxValue src) m
        ((findMaxima ops sort m (findRange ops minValue maxValue src)).map Peak.point).toFinset ↔
    Harmless (dark ops minValue maxValue src) (bright ops minValue maxValue src) (misread ops minValue maxValue src) m := by
  obtain ⟨distinct, strongest⟩ := findMaxima_strongest minValue maxValue src orders sorts m
  rw [and_iff_right distinct, ← dark_union_bright]
  exact (orders.misreading minValue maxValue src).strongest_iff_harmless strongest

end Range

/-! ### Whole numbers in the place of doubles -/

def wholes : Doubles Int where
  add := (· + ·)
  sub := (· - ·)
  mul := (· * ·)
  div := (· / ·)
  sqrt := id
  lt a b := decide (a < b)
  ofInt n := n
  toInt n := n
  pi := 3

theorem wholes_order : OrdersInts wholes :=
  ⟨fun _ _ _ _ => decide_eq_true_iff, fun _ _ _ le lt => decide_eq_true ((of_decide_eq_true lt).trans_le le),
    fun _ _ _ le lt => decide_eq_true (le.trans_lt (of_decide_eq_true lt))⟩

def mergeSort (pred : Peak Int → Peak Int → Bool) (peaks : List (Peak Int)) : List (Peak Int) :=
  peaks.mergeSort fun a b => !pred b a

theorem mergeSort_sorts : Sorts wholes mergeSort where
  perm peaks := List.mergeSort_perm peaks _
  sorted peaks _ := by
    have sorted : (peaks.mergeSort fun a b => !sortPred wholes b a).Pairwise fun a b => (!sortPred wholes b a) = true := by
      refine List.pairwise_mergeSort ?_ ?_ peaks
      · intro a b c first second
        simp only [sortPred, wholes, Bool.not_eq_true', decide_eq_false_iff_not, Int.not_lt] at first second ⊢
        exact second.trans first
      · intro a b
        simp only [sortPred, wholes, Bool.or_eq_true, Bool.not_eq_true', decide_eq_false_iff_not, Int.not_lt]
        exact le_total _ _
    exact sorted.imp fun order => by simpa using order

/-- A row of two pixels. -/
def row (first second : UInt8) : Gray :=
  { width := 2, height := 1, widthStep := 4, imageData := #[first, second, 0, 0], stride := by decide, size := rfl }

theorem dim_row_strongest :
    ((findMaxima wholes mergeSort 1 (findRange wholes 0 255 (row 60 50))).map Peak.point).Nodup ∧
      Selection.Strongest (row 60 50).value (wanted wholes 0 255 (row 60 50)) 1
        ((findMaxima wholes mergeSort 1 (findRange wholes 0 255 (row 60 50))).map Peak.point).toFinset :=
  (peaks_strongest_iff 0 255 (row 60 50) wholes_order mergeSort_sorts 1).mpr (Or.inr (Or.inl ⟨by decide, by decide, by decide⟩))

/-- A bright pixel is in the range, and a dark one is reported. -/
theorem bright_pixel_missed :
    ¬(((findMaxima wholes mergeSort 1 (findRange wholes 0 255 (row 200 50))).map Peak.point).Nodup ∧
      Selection.Strongest (row 200 50).value (wanted wholes 0 255 (row 200 50)) 1
        ((findMaxima wholes mergeSort 1 (findRange wholes 0 255 (row 200 50))).map Peak.point).toFinset) := by
  rintro ⟨-, strongest⟩
  have peaks : (findMaxima wholes mergeSort 1 (findRange wholes 0 255 (row 200 50))).map Peak.point = [(1, 0)] := by decide
  rw [peaks] at strongest
  exact absurd (strongest.best (1, 0) (by decide) (0, 0) (by decide) (by decide)) (by decide)

end Movid.Image
