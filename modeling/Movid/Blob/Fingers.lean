import Mathlib.Algebra.Group.Nat.Defs
import Mathlib.Data.List.Range
import Movid.Blob.Contract
import Movid.Lib.Sweep

/-!
# The merging of fingertips

FingerTipFinder takes the ends of the deepest defects and suppresses every point that is close to an earlier one, whether that one is
suppressed or not.
-/

namespace Movid.Blobs

open Preset (Platform)

variable {P : Platform}

abbrev Point := Int32 × Int32

/-- The depth of a defect is a `float`. -/
structure Defect (D : Type) where
  depth : D
  first : Point
  last : Point

/-- What the merge loops keep: the distances that were computed, and the indices of the points that are merged with another. -/
structure Merging (D : Type) where
  distances : List D
  suppressed : List Nat

structure HandSettings (D : Type) where
  minArea : D
  minDistance : D
  mergeDistance : D
  adaptiveMerge : Bool

section Code

variable {D : Type} [LinearOrder D] (ops : Doubles D) (pow : D → D → D)

/-- The points of the four best defects; `defDepths` is sorted. -/
def choosePoints (minDistance : D) (defDepths : List (Defect D)) : List Point :=
  ((defDepths.take 4).filter fun defect => ¬ minDistance > defect.depth).flatMap fun defect => [defect.first, defect.last]

def distance (p1 p2 : Point) : D :=
  ops.sqrt (ops.add (pow (ops.ofInt (p1.1 - p2.1).toInt) (ops.ofInt 2)) (pow (ops.ofInt (p1.2 - p2.2).toInt) (ops.ofInt 2)))

/-- `_in2`. -/
def in2 : List Nat → Nat → Bool
  | [], _ => false
  | v :: vec, e => if v = e then true else in2 vec e

/-- The body of the two loops, for the points of index `i` and `j`. -/
def mergeStep (mergeDistance : D) (points : List Point) (i : Nat) (m : Merging D) (j : Nat) : Merging D :=
  if in2 m.suppressed j then m
  else
    let distance := distance ops pow (points.getD i (0, 0)) (points.getD j (0, 0))
    { distances := m.distances ++ [distance]
      suppressed := if distance ≤ mergeDistance then m.suppressed ++ [j] else m.suppressed }

def merge (mergeDistance : D) (points : List Point) : Merging D :=
  (List.range points.length).foldl
    (fun m i => (List.range' (i + 1) (points.length - (i + 1))).foldl (mergeStep ops pow mergeDistance points i) m)
    { distances := [], suppressed := [] }

/-- The merge distance that is left for the next image. -/
def adapt (settings : HandSettings D) (count : Nat) (m : Merging D) : D :=
  if settings.adaptiveMerge ∧ 18 ≤ m.distances.length ∧ count - m.suppressed.length ≠ 5 then
    ops.add ((m.distances.mergeSort (· ≤ ·)).getD 2 settings.mergeDistance) (ops.ofInt 1)
  else settings.mergeDistance

/-- `searchFingerTips` up to the drawing, for the largest contour and its defects. A contour that is too small is no hand. -/
def findFingers (settings : HandSettings D) (maxArea : D) (defDepths : List (Defect D)) : Option (Fingers × D) :=
  if maxArea < settings.minArea then none
  else
    let points := choosePoints settings.minDistance defDepths
    let m := merge ops pow settings.mergeDistance points
    some ({ points, suppressed := m.suppressed }, adapt ops settings points.length m)

end Code

/-! ### The loops as one sweep -/

section Sweep

variable {D : Type} [LinearOrder D] {ops : Doubles D} {pow : D → D → D} {mergeDistance : D} {points : List Point}

theorem in2_eq (vec : List Nat) (e : Nat) : in2 vec e = decide (e ∈ vec) := by
  induction vec with
  | nil => rfl
  | cons v vec ih =>
    rw [in2, ih]
    by_cases same : v = e
    · simp [same]
    · simp [same, Ne.symm same]

/-- The pairs of indices in the order of the loops. -/
def pairs (n : Nat) : List (Nat × Nat) := (List.range n).flatMap fun i => (List.range' (i + 1) (n - (i + 1))).map fun j => (i, j)

theorem mem_pairs {n i j : Nat} : (i, j) ∈ pairs n ↔ i < j ∧ j < n := by
  unfold pairs
  simp only [List.mem_flatMap, List.mem_range, List.mem_map, List.mem_range'_1, Prod.mk.injEq]
  constructor
  · rintro ⟨i, -, j, bounds, rfl, rfl⟩
    omega
  · intro bounds
    exact ⟨i, by omega, j, by omega, rfl, rfl⟩

/-- The points of index `i` and `j` are within the merge distance. -/
def Close (ops : Doubles D) (pow : D → D → D) (mergeDistance : D) (points : List Point) (i j : Nat) : Prop :=
  distance ops pow (points.getD i (0, 0)) (points.getD j (0, 0)) ≤ mergeDistance

instance (i j : Nat) : Decidable (Close ops pow mergeDistance points i j) := inferInstanceAs (Decidable (_ ≤ _))

theorem mergeStep_suppressed (i : Nat) (m : Merging D) (j : Nat) :
    (mergeStep ops pow mergeDistance points i m j).suppressed = Sweep.mark (Close ops pow mergeDistance points) m.suppressed (i, j) := by
  unfold mergeStep Sweep.mark Close
  rw [in2_eq]
  by_cases already : j ∈ m.suppressed
  · simp [already]
  · simp [already]

theorem merge_suppressed :
    (merge ops pow mergeDistance points).suppressed = Sweep.sweep (Close ops pow mergeDistance points) (pairs points.length) := by
  have loops : merge ops pow mergeDistance points =
      (pairs points.length).foldl (fun m p => mergeStep ops pow mergeDistance points p.1 m p.2) { distances := [], suppressed := [] } := by
    unfold merge pairs
    rw [List.foldl_flatMap]
    simp only [List.foldl_map]
  rw [loops]
  exact (List.foldl_hom Merging.suppressed fun m p => (mergeStep_suppressed p.1 m p.2).symm).symm

end Sweep

/-! ### What is left -/

section Result

variable (ops : Doubles P.Double)

/-- `static_cast<int>(i + 1)` for the points that are pushed, as a number. -/
def nodeIds (fingers : Fingers) : List Nat := (fingers.points.zipIdx.filter fun p => p.2 ∉ fingers.suppressed).map fun p => p.2 + 1

theorem integer_searchFingerTips (src : Size) (fingers : Fingers) :
    (searchFingerTips (P := P) ops src fingers).map (·.integer "node_id") = (nodeIds fingers).map fun n => some (Int32.ofNat n) := by
  unfold searchFingerTips nodeIds
  rw [List.map_map, List.map_map]
  refine List.map_congr_left fun p _ => ?_
  simp [Container.integer, container, Container.find_put, Preset.Value.asInteger]

theorem nodeIds_eq (fingers : Fingers) :
    nodeIds fingers = ((List.range fingers.points.length).filter fun i => i ∉ fingers.suppressed).map (· + 1) := by
  have indices : fingers.points.zipIdx.map (·.2) = List.range fingers.points.length := by
    rw [List.zipIdx_map_snd, List.range_eq_range']
  unfold nodeIds
  rw [← indices, List.filter_map, List.map_map]
  rfl

theorem nodeIds_nodup (fingers : Fingers) : (nodeIds fingers).Nodup := by
  rw [nodeIds_eq]
  exact (List.nodup_range.filter _).map fun _ _ same => Nat.succ.inj same

theorem mem_nodeIds {fingers : Fingers} {n : Nat} (member : n ∈ nodeIds fingers) : 0 < n ∧ n ≤ fingers.points.length := by
  rw [nodeIds_eq] at member
  obtain ⟨i, inside, rfl⟩ := List.mem_map.mp member
  have small := List.mem_range.mp (List.mem_of_mem_filter inside)
  omega

theorem searchFingerTips_length {fingers : Fingers} (nodup : fingers.suppressed.Nodup)
    (inside : ∀ j ∈ fingers.suppressed, j < fingers.points.length) (src : Size) :
    (searchFingerTips (P := P) ops src fingers).length = fingers.points.length - fingers.suppressed.length := by
  have same := congrArg List.length (integer_searchFingerTips ops src fingers)
  rw [List.length_map, List.length_map, nodeIds_eq, List.length_map] at same
  have all := List.length_eq_length_filter_add (l := List.range fingers.points.length) (fun i => decide (i ∉ fingers.suppressed))
  have merged : ((List.range fingers.points.length).filter fun i => !decide (i ∉ fingers.suppressed)).length = fingers.suppressed.length := by
    refine (List.perm_ext_iff_of_nodup (List.nodup_range.filter _) nodup).mpr (fun j => ?_) |>.length_eq
    simp only [List.mem_filter, List.mem_range, decide_not, Bool.not_not, decide_eq_true_eq]
    exact and_iff_right_of_imp (inside j)
  rw [List.length_range, merged] at all
  omega

variable [LinearOrder P.Double] (pow : P.Double → P.Double → P.Double)

/-- What the merging leaves of the points, for any two of them in the order of the list. -/
structure Separates (mergeDistance : P.Double) (points : List Point) (suppressed : List Nat) : Prop where
  once : suppressed.Nodup
  first : 0 ∉ suppressed
  apart : ∀ i j p q, i < j → points[i]? = some p → points[j]? = some q → i ∉ suppressed → j ∉ suppressed →
    mergeDistance < distance ops pow p q
  close : ∀ j ∈ suppressed, ∃ i p q, i < j ∧ points[i]? = some p ∧ points[j]? = some q ∧ distance ops pow p q ≤ mergeDistance

/-- The fingertips are the points that are not suppressed, under ids of their own. The ids are those of the blobs as long as an
`unsigned int` counts the points. -/
structure Pushes (src : Size) (fingers : Fingers) : Prop where
  count : (searchFingerTips (P := P) ops src fingers).length = fingers.points.length - fingers.suppressed.length
  distinct : (nodeIds fingers).Nodup
  center : 0 ∉ nodeIds fingers
  blobs : (searchFingerTips (P := P) ops src fingers).map (·.integer "node_id") = (nodeIds fingers).map fun n => some (Int32.ofNat n)
  unique : fingers.points.length < 2 ^ 32 → ((searchFingerTips (P := P) ops src fingers).map (·.integer "node_id")).Nodup ∧
    ∀ peak, (searchPalmCenter (P := P) ops src peak).integer "node_id" ∉ (searchFingerTips (P := P) ops src fingers).map (·.integer "node_id")

theorem merge_separates (mergeDistance : P.Double) (points : List Point) :
    Separates ops pow mergeDistance points (merge ops pow mergeDistance points).suppressed := by
  have swept : Sweep.Swept (Close ops pow mergeDistance points) (pairs points.length) (Sweep.sweep _ (pairs points.length)) :=
    Sweep.swept_sweep (pairs points.length)
  rw [merge_suppressed]
  refine ⟨swept.nodup, fun member => ?_, fun i j p q order first second _ out => ?_, fun j member => ?_⟩
  · obtain ⟨i, inside, -⟩ := swept.reason 0 member
    exact Nat.not_lt_zero i (mem_pairs.mp inside).1
  · obtain ⟨inside, -⟩ := List.getElem?_eq_some_iff.mp second
    have far := swept.apart i j (mem_pairs.mpr ⟨order, inside⟩) out
    rw [Close, List.getD_eq_getElem?_getD, List.getD_eq_getElem?_getD, first, second] at far
    exact lt_of_not_ge far
  · obtain ⟨i, inside, near⟩ := swept.reason j member
    obtain ⟨order, last⟩ := mem_pairs.mp inside
    have first := List.getElem?_eq_getElem (order.trans last)
    have second := List.getElem?_eq_getElem last
    rw [Close, List.getD_eq_getElem?_getD, List.getD_eq_getElem?_getD, first, second] at near
    exact ⟨i, _, _, order, first, second, near⟩

theorem ofNat_inj {n m : Nat} (first : n < 2 ^ 32) (second : m < 2 ^ 32) (same : Int32.ofNat n = Int32.ofNat m) : n = m := by
  have values := congrArg (·.toBitVec.toNat) same
  simp only [Int32.toBitVec_ofNat', BitVec.toNat_ofNat] at values
  omega

theorem Separates.pushes {mergeDistance : P.Double} {points : List Point} {suppressed : List Nat}
    (separates : Separates ops pow mergeDistance points suppressed) (src : Size) : Pushes (P := P) ops src ⟨points, suppressed⟩ where
  count := searchFingerTips_length ops separates.once (fun j member => by
    obtain ⟨i, p, q, -, -, second, -⟩ := separates.close j member
    exact (List.getElem?_eq_some_iff.mp second).1) src
  distinct := nodeIds_nodup _
  center := fun member => absurd (mem_nodeIds member).1 (Nat.lt_irrefl 0)
  blobs := integer_searchFingerTips ops src _
  unique short := by
    have range {n : Nat} (member : n ∈ nodeIds ⟨points, suppressed⟩) : 0 < n ∧ n < 2 ^ 32 := by
      obtain ⟨positive, bound⟩ := mem_nodeIds member
      exact ⟨positive, bound.trans_lt short⟩
    rw [integer_searchFingerTips]
    constructor
    · refine List.Nodup.map_on (fun n first m second same => ?_) (nodeIds_nodup _)
      exact ofNat_inj (range first).2 (range second).2 (Option.some.inj same)
    · intro peak member
      obtain ⟨n, inside, same⟩ := List.mem_map.mp member
      have center : (searchPalmCenter (P := P) ops src peak).integer "node_id" = some (Int32.ofNat 0) := by
        simp [searchPalmCenter, Container.integer, container, Container.find_put, Preset.Value.asInteger]
      rw [center] at same
      have null := ofNat_inj (range inside).2 (by decide) (Option.some.inj same)
      exact absurd (range inside).1 (by omega)

/-- Merging leaves points that are further apart than the merge distance, and every one of them is pushed under an id of its own. -/
theorem fingertips_apart (mergeDistance : P.Double) (points : List Point) (src : Size) :
    Separates ops pow mergeDistance points (merge ops pow mergeDistance points).suppressed ∧
      Pushes (P := P) ops src ⟨points, (merge ops pow mergeDistance points).suppressed⟩ :=
  ⟨merge_separates ops pow mergeDistance points, (merge_separates ops pow mergeDistance points).pushes ops pow src⟩

/-- A hand has at most eight ends of defects. -/
theorem choosePoints_length (minDistance : P.Double) (defDepths : List (Defect P.Double)) :
    (choosePoints minDistance defDepths).length ≤ 8 := by
  unfold choosePoints
  have four := (List.length_filter_le (fun defect => decide ¬ minDistance > defect.depth) (defDepths.take 4)).trans (List.length_take_le 4 _)
  rw [List.length_flatMap]
  simp only [List.length_cons, List.length_nil, List.map_const', List.sum_replicate_nat]
  omega

/-- The fingertips of a hand have ids of their own. -/
theorem findFingers_pushes {settings : HandSettings P.Double} {maxArea : P.Double} {defDepths : List (Defect P.Double)} {fingers : Fingers}
    {next : P.Double} (found : findFingers ops pow settings maxArea defDepths = some (fingers, next)) (src : Size) :
    Separates ops pow settings.mergeDistance fingers.points fingers.suppressed ∧
      ((searchFingerTips (P := P) ops src fingers).map (·.integer "node_id")).Nodup := by
  unfold findFingers at found
  split at found
  · cases found
  · cases found
    have separates := merge_separates ops pow settings.mergeDistance (choosePoints settings.minDistance defDepths)
    have short := choosePoints_length settings.minDistance defDepths
    exact ⟨separates, ((separates.pushes ops pow src).unique (short.trans_lt (by decide))).1⟩

end Result

end Movid.Blobs
