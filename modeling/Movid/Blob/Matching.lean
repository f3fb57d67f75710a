import Movid.Lib.Search
import Mathlib.Data.List.Basic

/-!
# The stored contour that matches

`findMatchingShape` of HuObjectFinder goes through the stored contours once and remembers two of them: the one whose bounding box is
most similar, and the one that passed all tests. What the settings consider says which of the two it returns.
-/

namespace Movid.HuObjectFinder

/-- What OpenCV measures on contours. -/
structure Shapes (C D : Type) where
  boundingBoxCheck : C → C → D
  countHolesInContour : C → Nat
  matchShapes : C → C → D
  contourArea : C → D

structure Settings (D : Type) where
  maxMatchScore : D
  maxSizeDifference : D
  minArea : D
  considerHoles : Bool
  considerShape : Bool

/-- The variables of the loop. -/
structure Best (D : Type) where
  minIndex : Int
  minDiffIndex : Int
  minScore : D
  minDiff : D

variable {C D : Type} [LinearOrder D] (shapes : Shapes C D) (settings : Settings D) (cont : C)

def compareBox (s : Best D) (stored : C) (index : Nat) : Best D :=
  let diff := shapes.boundingBoxCheck stored cont
  if diff < s.minDiff then { s with minDiff := diff, minDiffIndex := index } else s

def compareShape (s : Best D) (stored : C) (index : Nat) : Best D :=
  if settings.considerHoles ∧ shapes.countHolesInContour stored ≠ shapes.countHolesInContour cont then s
  else if settings.considerShape then
    let matchscore := shapes.matchShapes stored cont
    if matchscore < s.minScore then { s with minScore := matchscore, minIndex := index } else s
  else { s with minIndex := index }

/-- The body of the loop, at an entry that may be NULL. -/
def compareStored (s : Best D) : Option C × Nat → Best D
  | (none, _) => s
  | (some stored, index) =>
    if shapes.boundingBoxCheck stored cont ≤ settings.maxSizeDifference then
      compareShape shapes settings cont (compareBox shapes cont s stored index) stored index
    else s

/-- The index, or -1, and whether the contour is possibly an object. -/
def findMatchingShape (stored : List (Option C)) : Int × Bool :=
  let s := stored.zipIdx.foldl (compareStored shapes settings cont)
    { minIndex := -1, minDiffIndex := -1, minScore := settings.maxMatchScore, minDiff := settings.maxSizeDifference }
  let possible := decide (s.minDiffIndex ≥ 0) && ((settings.considerHoles || settings.considerShape) && !decide (s.minIndex ≥ 0))
  (if settings.considerShape || settings.considerHoles then s.minIndex else s.minDiffIndex, possible)

/-! ### The contours that are there -/

/-- The entries that are not NULL, with their indices. -/
def present (stored : List (Option C)) : List (C × Nat) := stored.zipIdx.filterMap fun e => e.1.map (·, e.2)

theorem mem_present {stored : List (Option C)} {e : C × Nat} : e ∈ present stored ↔ stored[e.2]? = some (some e.1) := by
  unfold present
  rw [List.mem_filterMap]
  constructor
  · rintro ⟨⟨entry, index⟩, member, same⟩
    obtain ⟨c, rfl, rfl⟩ := Option.map_eq_some_iff.mp same
    exact List.mem_zipIdx_iff_getElem?.mp member
  · intro found
    exact ⟨(some e.1, e.2), List.mem_zipIdx_iff_getElem?.mpr found, rfl⟩

theorem present_inj {stored : List (Option C)} {e f : C × Nat} (first : e ∈ present stored) (second : f ∈ present stored)
    (same : e.2 = f.2) : e = f := by
  have both := (mem_present.mp first).symm.trans (same ▸ mem_present.mp second)
  exact Prod.ext (Option.some.inj (Option.some.inj both)) same

/-- Only they count. -/
theorem foldl_present (stored : List (Option C)) (s : Best D) :
    stored.zipIdx.foldl (compareStored shapes settings cont) s =
      (present stored).foldl (fun s e => compareStored shapes settings cont s (some e.1, e.2)) s := by
  rw [present, List.foldl_filterMap]
  congr 1
  funext s e
  obtain ⟨entry, index⟩ := e
  cases entry <;> rfl

theorem findMatchingShape_congr {stored stored' : List (Option C)} (same : present stored = present stored') :
    findMatchingShape shapes settings cont stored = findMatchingShape shapes settings cont stored' := by
  unfold findMatchingShape
  rw [foldl_present, foldl_present, same]

theorem present_append_replicate (stored : List (Option C)) (n : Nat) : present (stored ++ List.replicate n none) = present stored := by
  unfold present
  rw [List.zipIdx_append, List.filterMap_append]
  refine (congrArg _ (List.filterMap_eq_nil_iff.mpr ?_)).trans (List.append_nil _)
  intro e member
  rw [List.eq_of_mem_replicate (List.fst_mem_of_mem_zipIdx member)]
  rfl

/-! ### What is returned -/

def difference (e : C × Nat) : D := shapes.boundingBoxCheck e.1 cont

def score (e : C × Nat) : D := shapes.matchShapes e.1 cont

/-- The boxes are similar, and the holes as many if that is considered. -/
def Eligible (e : C × Nat) : Prop :=
  difference shapes cont e ≤ settings.maxSizeDifference ∧
    (settings.considerHoles = true → shapes.countHolesInContour e.1 = shapes.countHolesInContour cont)

instance (e : C × Nat) : Decidable (Eligible shapes settings cont e) := inferInstanceAs (Decidable (_ ∧ _))

/-- The index of what was chosen, as the loop writes it. -/
def indexOf : Option (C × Nat) → Int
  | none => -1
  | some e => e.2

/-- The most similar contour was found. -/
structure MostSimilar (stored : List (Option C)) (found : Int × Bool) : Prop where
  shape : settings.considerShape = true →
    (∃ e, Search.Least (Eligible shapes settings cont) (score shapes cont) (present stored) e ∧
      score shapes cont e < settings.maxMatchScore ∧ found.1 = e.2) ∨
    (∀ e ∈ present stored, Eligible shapes settings cont e → settings.maxMatchScore ≤ score shapes cont e) ∧ found.1 = -1
  box : settings.considerShape = false →
    (∃ e ∈ present stored, Eligible shapes settings cont e ∧ difference shapes cont e < settings.maxSizeDifference ∧
      (∀ f ∈ present stored, Eligible shapes settings cont f → difference shapes cont e ≤ difference shapes cont f) ∧
      found.1 = e.2) ∨
    (∀ e ∈ present stored, Eligible shapes settings cont e → settings.maxSizeDifference ≤ difference shapes cont e) ∧ found.1 = -1
  possible : found.2 = true ↔ (∃ e ∈ present stored, difference shapes cont e < settings.maxSizeDifference) ∧
    (settings.considerShape = true ∨ settings.considerHoles = true) ∧ found.1 = -1

/-- The entry that passed all tests and came last. -/
def lastEligible (stored : List (Option C)) : Option (C × Nat) :=
  ((present stored).filter fun e => Eligible shapes settings cont e).getLast?

/-! ### What the loop knows -/

/-- The most similar box among the members of `l`. -/
def Boxed (l : List (C × Nat)) (s : Best D) : Prop :=
  ∃ best, s.minDiffIndex = indexOf best ∧
    Search.Running (fun _ => True) (difference shapes cont) settings.maxSizeDifference l best s.minDiff

/-- The choice among them. -/
structure Chosen (l : List (C × Nat)) (s : Best D) : Prop where
  shape : settings.considerShape = true → ∃ best, s.minIndex = indexOf best ∧
    Search.Running (Eligible shapes settings cont) (score shapes cont) settings.maxMatchScore l best s.minScore
  holes : settings.considerShape = false → s.minIndex = indexOf (l.filter fun e => Eligible shapes settings cont e).getLast?

variable {shapes settings cont} {l : List (C × Nat)} {s : Best D} {e : C × Nat}

theorem Boxed.compareBox (boxed : Boxed shapes settings cont l s) :
    Boxed shapes settings cont (l ++ [e]) (compareBox shapes cont s e.1 e.2) := by
  obtain ⟨best, index, running⟩ := boxed
  simp only [HuObjectFinder.compareBox]
  split
  · rename_i nearer
    exact ⟨some e, rfl, running.pick trivial nearer⟩
  · rename_i farther
    exact ⟨best, index, running.skip fun _ => not_lt.mp farther⟩

theorem Boxed.compareShape (boxed : Boxed shapes settings cont l s) :
    Boxed shapes settings cont l (compareShape shapes settings cont s e.1 e.2) := by
  simp only [HuObjectFinder.compareShape]
  split_ifs <;> exact boxed

theorem Chosen.compareBox (chosen : Chosen shapes settings cont l s) :
    Chosen shapes settings cont l (compareBox shapes cont s e.1 e.2) := by
  simp only [HuObjectFinder.compareBox]
  split_ifs <;> exact ⟨chosen.shape, chosen.holes⟩

theorem Chosen.skip (chosen : Chosen shapes settings cont l s) (unfit : ¬Eligible shapes settings cont e) :
    Chosen shapes settings cont (l ++ [e]) s := by
  refine ⟨fun considered => ?_, fun ignored => ?_⟩
  · obtain ⟨best, index, running⟩ := chosen.shape considered
    exact ⟨best, index, running.skip fun fit => absurd fit unfit⟩
  · rw [List.filter_append, List.filter_singleton, decide_eq_false unfit]
    simpa using chosen.holes ignored

theorem Chosen.compareShape (chosen : Chosen shapes settings cont l s)
    (near : shapes.boundingBoxCheck e.1 cont ≤ settings.maxSizeDifference) :
    Chosen shapes settings cont (l ++ [e]) (compareShape shapes settings cont s e.1 e.2) := by
  simp only [HuObjectFinder.compareShape]
  split
  · rename_i other
    exact chosen.skip fun fit => other.2 (fit.2 other.1)
  · rename_i fit
    have fit : Eligible shapes settings cont e := ⟨near, fun considered => not_not.mp fun other => fit ⟨considered, other⟩⟩
    split
    · rename_i considered
      obtain ⟨best, index, running⟩ := chosen.shape considered
      split
      · rename_i better
        exact ⟨fun _ => ⟨some e, rfl, running.pick fit better⟩, fun ignored => absurd (considered.symm.trans ignored) (by decide)⟩
      · rename_i worse
        exact ⟨fun _ => ⟨best, index, running.skip fun _ => not_lt.mp worse⟩,
          fun ignored => absurd (considered.symm.trans ignored) (by decide)⟩
    · rename_i ignored
      refine ⟨fun considered => absurd considered ignored, fun _ => ?_⟩
      rw [List.filter_append, List.filter_singleton, decide_eq_true fit]
      simp [indexOf]

/-- What the body of the loop keeps. -/
theorem compareStored_keeps (boxed : Boxed shapes settings cont l s) (chosen : Chosen shapes settings cont l s) :
    Boxed shapes settings cont (l ++ [e]) (compareStored shapes settings cont s (some e.1, e.2)) ∧
      Chosen shapes settings cont (l ++ [e]) (compareStored shapes settings cont s (some e.1, e.2)) := by
  simp only [compareStored]
  split
  · rename_i near
    exact ⟨boxed.compareBox.compareShape, chosen.compareBox.compareShape near⟩
  · rename_i far
    obtain ⟨best, index, running⟩ := boxed
    have low := running.min_le
    exact ⟨⟨best, index, running.skip fun _ => low.trans (not_le.mp far).le⟩, chosen.skip fun fit => far fit.1⟩

theorem foldl_keeps (rest : List (C × Nat)) (boxed : Boxed shapes settings cont l s) (chosen : Chosen shapes settings cont l s) :
    Boxed shapes settings cont (l ++ rest) (rest.foldl (fun s e => compareStored shapes settings cont s (some e.1, e.2)) s) ∧
      Chosen shapes settings cont (l ++ rest) (rest.foldl (fun s e => compareStored shapes settings cont s (some e.1, e.2)) s) := by
  induction rest generalizing l s with
  | nil =>
    rw [List.append_nil]
    exact ⟨boxed, chosen⟩
  | cons e rest ih =>
    obtain ⟨boxed, chosen⟩ := compareStored_keeps (e := e) boxed chosen
    have kept := ih boxed chosen
    rwa [List.append_assoc] at kept

theorem indexOf_nonneg {best : Option (C × Nat)} : 0 ≤ indexOf best ↔ best.isSome = true := by
  cases best with
  | none => simp [indexOf]
  | some e => simp [indexOf]

theorem indexOf_eq_neg_one {best : Option (C × Nat)} : indexOf best = -1 ↔ ¬0 ≤ indexOf best := by
  cases best with
  | none => simp [indexOf]
  | some e =>
    simp only [indexOf]
    omega

theorem Chosen.index (chosen : Chosen shapes settings cont l s) : ∃ best : Option (C × Nat), s.minIndex = indexOf best := by
  cases considered : settings.considerShape with
  | true =>
    obtain ⟨best, index, -⟩ := chosen.shape considered
    exact ⟨best, index⟩
  | false => exact ⟨_, chosen.holes considered⟩

variable {stored : List (Option C)}

/-- The loop, and what is made of its variables. -/
theorem findMatchingShape_eq (shapes : Shapes C D) (settings : Settings D) (cont : C) (stored : List (Option C)) :
    ∃ s, Boxed shapes settings cont (present stored) s ∧ Chosen shapes settings cont (present stored) s ∧
      findMatchingShape shapes settings cont stored =
        (if settings.considerShape || settings.considerHoles then s.minIndex else s.minDiffIndex,
          decide (s.minDiffIndex ≥ 0) && ((settings.considerHoles || settings.considerShape) && !decide (s.minIndex ≥ 0))) := by
  let start : Best D := { minIndex := -1, minDiffIndex := -1, minScore := settings.maxMatchScore, minDiff := settings.maxSizeDifference }
  have boxed : Boxed shapes settings cont [] start := ⟨none, rfl, Search.Running.nil⟩
  have chosen : Chosen shapes settings cont [] start := ⟨fun _ => ⟨none, rfl, Search.Running.nil⟩, fun _ => rfl⟩
  obtain ⟨boxed, chosen⟩ := foldl_keeps (present stored) boxed chosen
  rw [← foldl_present] at boxed chosen
  exact ⟨_, boxed, chosen, rfl⟩

theorem Boxed.near_iff (boxed : Boxed shapes settings cont l s) :
    0 ≤ s.minDiffIndex ↔ ∃ e ∈ l, difference shapes cont e < settings.maxSizeDifference := by
  obtain ⟨best, index, running⟩ := boxed
  rw [index, indexOf_nonneg]
  cases best with
  | none =>
    refine ⟨nofun, ?_⟩
    rintro ⟨e, member, near⟩
    exact absurd (running.low e member trivial) (not_le.mpr (running.start rfl ▸ near))
  | some e =>
    obtain ⟨least, near⟩ := running.least
    exact ⟨fun _ => ⟨e, least.mem, near⟩, fun _ => rfl⟩

theorem findMatchingShape_possible (stored : List (Option C)) : (findMatchingShape shapes settings cont stored).2 = true ↔
    (∃ e ∈ present stored, difference shapes cont e < settings.maxSizeDifference) ∧
      (settings.considerShape = true ∨ settings.considerHoles = true) ∧ (findMatchingShape shapes settings cont stored).1 = -1 := by
  obtain ⟨s, boxed, chosen, found⟩ := findMatchingShape_eq shapes settings cont stored
  obtain ⟨best, index⟩ := chosen.index
  have missed : s.minIndex = -1 ↔ ¬0 ≤ s.minIndex := index ▸ indexOf_eq_neg_one
  rw [found, ← boxed.near_iff]
  cases settings.considerShape <;> cases settings.considerHoles <;> simp [missed]

theorem findMatchingShape_shape (considered : settings.considerShape = true) (stored : List (Option C)) :
    (∃ e, Search.Least (Eligible shapes settings cont) (score shapes cont) (present stored) e ∧
      score shapes cont e < settings.maxMatchScore ∧ (findMatchingShape shapes settings cont stored).1 = e.2) ∨
    (∀ e ∈ present stored, Eligible shapes settings cont e → settings.maxMatchScore ≤ score shapes cont e) ∧
      (findMatchingShape shapes settings cont stored).1 = -1 := by
  obtain ⟨s, -, chosen, found⟩ := findMatchingShape_eq shapes settings cont stored
  obtain ⟨best, index, running⟩ := chosen.shape considered
  rw [found, considered, Bool.true_or, if_pos rfl, index]
  cases best with
  | none => exact Or.inr ⟨running.start rfl ▸ running.low, rfl⟩
  | some e =>
    obtain ⟨least, better⟩ := running.least
    exact Or.inl ⟨e, least, better, rfl⟩

/-- Without holes and shape, every similar box is eligible. -/
theorem findMatchingShape_box (shape : settings.considerShape = false) (holes : settings.considerHoles = false)
    (stored : List (Option C)) :
    (∃ e ∈ present stored, Eligible shapes settings cont e ∧ difference shapes cont e < settings.maxSizeDifference ∧
      (∀ f ∈ present stored, Eligible shapes settings cont f → difference shapes cont e ≤ difference shapes cont f) ∧
      (findMatchingShape shapes settings cont stored).1 = e.2) ∨
    (∀ e ∈ present stored, Eligible shapes settings cont e → settings.maxSizeDifference ≤ difference shapes cont e) ∧
      (findMatchingShape shapes settings cont stored).1 = -1 := by
  obtain ⟨s, ⟨best, index, running⟩, -, found⟩ := findMatchingShape_eq shapes settings cont stored
  rw [found, shape, holes, Bool.false_or, if_neg Bool.false_ne_true, index]
  cases best with
  | none => exact Or.inr ⟨fun e member _ => running.start rfl ▸ running.low e member trivial, rfl⟩
  | some e =>
    obtain ⟨least, near⟩ := running.least
    have ignored : settings.considerHoles = true → shapes.countHolesInContour e.1 = shapes.countHolesInContour cont :=
      fun considered => absurd (considered.symm.trans holes) (by decide)
    refine Or.inl ⟨e, least.mem, ⟨near.le, ignored⟩, near, fun f member _ => ?_, rfl⟩
    exact (running.picked e rfl).1 ▸ running.low f member trivial

/-- With holes and no shape, what is returned came last. -/
theorem findMatchingShape_holes (shape : settings.considerShape = false) (holes : settings.considerHoles = true)
    (stored : List (Option C)) :
    (findMatchingShape shapes settings cont stored).1 = indexOf (lastEligible shapes settings cont stored) := by
  obtain ⟨s, -, chosen, found⟩ := findMatchingShape_eq shapes settings cont stored
  rw [found, shape, holes, Bool.or_true, if_pos rfl]
  exact chosen.holes shape

theorem mem_of_lastEligible {e : C × Nat} (last : lastEligible shapes settings cont stored = some e) :
    e ∈ present stored ∧ Eligible shapes settings cont e := by
  obtain ⟨member, fit⟩ := List.mem_filter.mp (List.mem_of_getLast? last)
  exact ⟨member, of_decide_eq_true fit⟩

theorem lastEligible_eq_none : lastEligible shapes settings cont stored = none ↔
    ∀ e ∈ present stored, ¬Eligible shapes settings cont e := by
  rw [lastEligible, List.getLast?_eq_none_iff, List.filter_eq_nil_iff]
  simp only [decide_eq_true_eq]

/-- The result is the most similar contour, but for the last of those that have the same number of holes: it is returned whether
or not its box is the most similar. -/
theorem mostSimilar_iff (shapes : Shapes C D) (settings : Settings D) (cont : C) (stored : List (Option C)) :
    MostSimilar shapes settings cont stored (findMatchingShape shapes settings cont stored) ↔
      (settings.considerShape = false → settings.considerHoles = true →
        ∀ e, lastEligible shapes settings cont stored = some e → difference shapes cont e < settings.maxSizeDifference ∧
          ∀ f ∈ present stored, Eligible shapes settings cont f → difference shapes cont e ≤ difference shapes cont f) := by
  constructor
  · intro similar shape holes e last
    have returned : (findMatchingShape shapes settings cont stored).1 = indexOf (lastEligible shapes settings cont stored) :=
      findMatchingShape_holes shape holes stored
    rw [last] at returned
    rcases similar.box shape with ⟨f, member, fit, near, least, same⟩ | ⟨far, same⟩
    · have both := Int.natCast_inj.mp (same.symm.trans returned)
      obtain rfl := present_inj member (mem_of_lastEligible last).1 both
      exact ⟨near, least⟩
    · rw [returned] at same
      exact absurd (Int.natCast_nonneg e.2) (by rw [show (e.2 : Int) = -1 from same]; decide)
  · intro condition
    refine ⟨fun considered => findMatchingShape_shape considered stored, fun shape => ?_, findMatchingShape_possible stored⟩
    cases holes : settings.considerHoles with
    | false => exact findMatchingShape_box shape holes stored
    | true =>
      have returned : (findMatchingShape shapes settings cont stored).1 = indexOf (lastEligible shapes settings cont stored) :=
        findMatchingShape_holes shape holes stored
      cases last : lastEligible shapes settings cont stored with
      | none =>
        rw [last] at returned
        exact Or.inr ⟨fun e member fit => absurd fit (lastEligible_eq_none.mp last e member), returned⟩
      | some e =>
        obtain ⟨member, fit⟩ := mem_of_lastEligible last
        obtain ⟨near, least⟩ := condition shape holes e last
        rw [last] at returned
        exact Or.inl ⟨e, member, fit, near, least, returned⟩

/-- Contours that are known by their sizes, and have no holes. -/
def sized : Shapes Nat Nat :=
  { boundingBoxCheck a b := max a b - min a b, countHolesInContour _ := 0, matchShapes _ _ := 0, contourArea a := a }

/-- The stored contour of the same size is passed over for a larger one. -/
theorem larger_is_returned : ¬MostSimilar sized
    { maxMatchScore := 1, maxSizeDifference := 1500, minArea := 150, considerHoles := true, considerShape := false } 400
    [some 400, some 900] (findMatchingShape sized
      { maxMatchScore := 1, maxSizeDifference := 1500, minArea := 150, considerHoles := true, considerShape := false } 400
      [some 400, some 900]) := by
  intro similar
  rcases similar.box rfl with ⟨e, member, -, -, least, same⟩ | ⟨-, same⟩
  · have equal : difference sized 400 e ≤ 0 := least (400, 0) (by decide) (by decide)
    have second : e.2 = 1 := (Int.natCast_inj.mp (same.symm.trans (by decide +kernel : _ = ((1 : Nat) : Int))))
    obtain rfl : e = (900, 1) := present_inj member (by decide) second
    exact absurd equal (by decide)
  · exact absurd same (by decide)

end Movid.HuObjectFinder
