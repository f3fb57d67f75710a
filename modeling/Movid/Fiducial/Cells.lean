import Movid.Fiducial.Good

/-!
# The two rows of cells

The cells of the current row up to `x`, and those of the previous row from there on, lead to the regions of their pixels.
-/

namespace Movid.Fiducial

open Failing

variable {source : Nat → UInt8} {w h max x y : Nat} {own : Pixel → Nat} {home : Nat → Nat} {s s' : Segmenter}

/-- The pixels before the one at `x`, `y`. -/
def seen (w x y : Nat) : Set Pixel := {p | p.1 < w ∧ (p.2 < y ∨ p.2 = y ∧ p.1 < x)}

/-- Those of them that are known to be on an edge. -/
def rim (w x y : Nat) : Set Pixel := {p | p ∈ seen w x y ∧ (p.1 = 0 ∨ p.2 = 0 ∨ p.1 + 1 = w ∧ p.2 < y)}

theorem seen_succ (inside : x < w) : seen w (x + 1) y = insert (x, y) (seen w x y) := by
  ext ⟨a, b⟩
  simp only [seen, Set.mem_insert_iff, Set.mem_ofPred_eq, Prod.mk.injEq]
  omega

theorem seen_start : seen w 0 0 = ∅ := by
  refine Set.eq_empty_of_forall_notMem fun p inside => ?_
  simp only [seen, Set.mem_ofPred_eq] at inside
  omega

theorem rim_start : rim w 0 0 = ∅ := by
  unfold rim
  rw [seen_start]
  exact Set.eq_empty_of_forall_notMem fun p marked => marked.1

theorem not_seen : (x, y) ∉ seen w x y := by
  simp only [seen, Set.mem_ofPred_eq]
  omega

theorem seen_line : seen w w y = seen w 0 (y + 1) := by
  ext ⟨a, b⟩
  simp only [seen, Set.mem_ofPred_eq]
  omega

theorem rim_top (inside : x < w) : rim w (x + 1) 0 = insert (x, 0) (rim w x 0) := by
  ext ⟨a, b⟩
  simp only [rim, seen, Set.mem_insert_iff, Set.mem_ofPred_eq, Prod.mk.injEq]
  omega

theorem rim_left (wide : 0 < w) : rim w 1 y = insert (0, y) (rim w 0 y) := by
  ext ⟨a, b⟩
  simp only [rim, seen, Set.mem_insert_iff, Set.mem_ofPred_eq, Prod.mk.injEq]
  omega

theorem rim_centre (right : 0 < x) (below : 0 < y) : rim w (x + 1) y = rim w x y := by
  ext ⟨a, b⟩
  simp only [rim, seen, Set.mem_ofPred_eq]
  omega

theorem rim_line (wide : 0 < w) : rim w 0 (y + 1) = insert (w - 1, y) (rim w w y) := by
  ext ⟨a, b⟩
  simp only [rim, seen, Set.mem_insert_iff, Set.mem_ofPred_eq, Prod.mk.injEq]
  omega

theorem near_seen {q : Pixel} (member : q ∈ seen w x y) (near : Near (x, y) q) :
    0 < x ∧ q = (x - 1, y) ∨ 0 < y ∧ q = (x, y - 1) := by
  obtain ⟨a, b⟩ := q
  simp only [seen, Set.mem_ofPred_eq] at member
  simp only [Near] at near
  simp only [Prod.mk.injEq]
  omega

theorem west_seen (right : 0 < x) (inside : x < w) : (x - 1, y) ∈ seen w x y := ⟨by omega, .inr ⟨rfl, by omega⟩⟩

theorem north_seen (below : 0 < y) (inside : x < w) : (x, y - 1) ∈ seen w x y := ⟨inside, .inl (by omega)⟩

theorem near_west (right : 0 < x) : Near (x, y) (x - 1, y) := .inl ⟨rfl, .inr (by omega)⟩

theorem near_north (below : 0 < y) : Near (x, y) (x, y - 1) := .inr ⟨rfl, .inr (by omega)⟩

/-- Where the pixels to the left and above differ, their regions are tied already: the pixel between them has the colour of one of them. -/
theorem Drawn.corner {pix : Pixel → UInt8} {S M : Set Pixel} {R : Regions} (drawn : Drawn pix w h max S (seen w x y) M own R)
    (right : 0 < x) (below : 0 < y) (inside : x < w)
    (differ : pix (x - 1, y) ≠ pix (x, y - 1)) : Tied R (own (x - 1, y)) (own (x, y - 1)) := by
  have west : (x - 1, y) ∈ seen w x y := west_seen right inside
  have north : (x, y - 1) ∈ seen w x y := north_seen below inside
  have corner : (x - 1, y - 1) ∈ seen w x y := ⟨by omega, .inl (by omega)⟩
  have under : Near (x - 1, y) (x - 1, y - 1) := near_north below
  have beside : Near (x - 1, y - 1) (x, y - 1) := .inl ⟨rfl, .inl (by omega)⟩
  by_cases same : pix (x - 1, y) = pix (x - 1, y - 1)
  · rw [drawn.merged _ west _ corner under same]
    exact drawn.complete _ corner _ north beside (same ▸ differ)
  · have equal : pix (x - 1, y - 1) = pix (x, y - 1) := by
      rcases drawn.binary _ (drawn.done west) with one | one <;> rcases drawn.binary _ (drawn.done north) with two | two <;>
        rcases drawn.binary _ (drawn.done corner) with three | three <;> simp_all
    rw [← drawn.merged _ corner _ north beside equal]
    exact drawn.complete _ west _ corner under same

/-! ### Cells -/

structure Cells (w x y : Nat) (own : Pixel → Nat) (home : Nat → Nat) (s : Segmenter) : Prop where
  current : ∀ i < x, s.currentRow i < s.regionRefCount ∧ home (s.currentRow i) = own (i, y)
  west : 0 < x → s.redirect (s.currentRow (x - 1)) = s.currentRow (x - 1)
  previous : 0 < y → ∀ i, x ≤ i → i < w → s.previousRow i < s.regionRefCount ∧ home (s.previousRow i) = own (i, y - 1)

theorem Cells.setRegions (cells : Cells w x y own home s) (R : Regions) : Cells w x y own home (s.setRegions R) := { cells with }

theorem Points.setRegions {ref : Nat} {p : Pixel} (points : Points own home s ref p) (R : Regions) : Points own home (s.setRegions R) ref p :=
  { points with }

theorem Points.setCurrent {ref : Nat} {p : Pixel} (points : Points own home s ref p) (i cell : Nat) :
    Points own home (s.setCurrent i cell) ref p := { points with }

theorem Cells.points (cells : Cells w x y own home s) (right : 0 < x) : Points own home s (s.currentRow (x - 1)) (x - 1, y) :=
  have cell := cells.current (x - 1) (by omega)
  ⟨cell.1, cells.west right, cell.2⟩

theorem Points.own_update {ref r : Nat} {p q : Pixel} (points : Points own home s ref q) (other : q ≠ p) :
    Points (Function.update own p r) home s ref q :=
  { points with same := points.same.trans (Function.update_of_ne other _ _).symm }

theorem Points.begun {ref r : Nat} {p q : Pixel} (points : Points own home s ref q) (begun : Begun s s' x) (other : q ≠ p) :
    Points (Function.update own p r) (Function.update home s.regionRefCount r) s' ref q where
  inside := by
    rw [begun.count]
    exact Nat.lt_succ_of_lt points.inside
  root := (begun.roots ref points.inside).trans points.root
  same := by
    rw [Function.update_of_ne (Nat.ne_of_lt points.inside), Function.update_of_ne other]
    exact points.same

theorem Begun.points (own : Pixel → Nat) (home : Nat → Nat) (r : Nat) (p : Pixel) (begun : Begun s s' x) :
    Points (Function.update own p r) (Function.update home s.regionRefCount r) s' (s'.currentRow x) p := by
  have cell : s'.currentRow x = s.regionRefCount := by rw [begun.current, Function.update_self]
  rw [cell]
  exact ⟨by rw [begun.count]; exact Nat.lt_succ_self _, begun.root, by rw [Function.update_self, Function.update_self]⟩

theorem Cells.begun {r : Nat} (cells : Cells w x y own home s) (begun : Begun s s' x) :
    Cells w (x + 1) y (Function.update own (x, y) r) (Function.update home s.regionRefCount r) s' := by
  have old {ref : Nat} {q : Pixel} (other : q ≠ (x, y)) (cell : ref < s.regionRefCount ∧ home ref = own q) :
      ref < s'.regionRefCount ∧ Function.update home s.regionRefCount r ref = Function.update own (x, y) r q := by
    rw [begun.count, Function.update_of_ne (Nat.ne_of_lt cell.1), Function.update_of_ne other]
    exact ⟨Nat.lt_succ_of_lt cell.1, cell.2⟩
  have points := begun.points own home r (x, y)
  refine ⟨fun i before => ?_, fun _ => points.root, fun below i after inside => ?_⟩
  · by_cases last : i = x
    · rw [last]
      exact ⟨points.inside, points.same⟩
    · rw [begun.current, Function.update_of_ne last]
      exact old (fun eq => last (congrArg Prod.fst eq)) (cells.current i (by omega))
  · rw [begun.previous]
    refine old (fun eq => ?_) (cells.previous below i (by omega) inside)
    have column := congrArg Prod.fst eq
    show False
    simp only at column
    omega

/-- The pixel gets the region of `q`, to which the cell points. -/
theorem Cells.copy {ref : Nat} {q : Pixel} (cells : Cells w x y own home s) (points : Points own home s ref q) :
    Cells w (x + 1) y (Function.update own (x, y) (own q)) home (s.setCurrent x ref) := by
  refine ⟨fun i before => ?_, fun _ => ?_, fun below i after inside => ?_⟩
  · show Function.update s.currentRow x ref i < s.regionRefCount ∧ home (Function.update s.currentRow x ref i) = _
    by_cases last : i = x
    · rw [last, Function.update_self, Function.update_self]
      exact ⟨points.inside, points.same⟩
    · rw [Function.update_of_ne last, Function.update_of_ne fun eq => last (congrArg Prod.fst eq)]
      exact cells.current i (by omega)
  · show s.redirect (Function.update s.currentRow x ref x) = Function.update s.currentRow x ref x
    rw [Function.update_self]
    exact points.root
  · rw [Function.update_of_ne fun eq => by have column := congrArg Prod.fst eq; simp only at column; omega]
    exact cells.previous below i (by omega) inside

/-- The last cell is redirected to the one above. -/
theorem Cells.merged {r1 r2 : Nat} (cells : Cells w (x + 1) y own home s) (count : s'.regionRefCount = s.regionRefCount)
    (redirect : s'.redirect = Function.update s.redirect (s.currentRow x) (s.previousRow x))
    (current : s'.currentRow = Function.update s.currentRow x (s.previousRow x)) (previous : s'.previousRow = s.previousRow)
    (above : s.previousRow x < s.regionRefCount ∧ s.redirect (s.previousRow x) = s.previousRow x) (apart : s.previousRow x ≠ s.currentRow x)
    (taken : home (s.currentRow x) = r2) (target : home (s.previousRow x) = r1) :
    Cells w (x + 1) y (remap own r1 r2) (fun j => if home j = r2 then r1 else home j) s' := by
  have moved {ref : Nat} {q : Pixel} (cell : ref < s.regionRefCount ∧ home ref = own q) :
      ref < s'.regionRefCount ∧ (if home ref = r2 then r1 else home ref) = remap own r1 r2 q := by
    unfold remap
    rw [count, cell.2]
    exact ⟨cell.1, rfl⟩
  have last := (cells.current x (Nat.lt_succ_self x)).2
  refine ⟨fun i before => ?_, fun _ => ?_, fun below i after inside => ?_⟩
  · rw [current]
    by_cases self : i = x
    · rw [self, Function.update_self, count]
      refine ⟨above.1, ?_⟩
      unfold remap
      rw [← last, taken, if_pos rfl, target]
      split <;> rfl
    · rw [Function.update_of_ne self]
      exact moved (cells.current i before)
  · rw [Nat.add_sub_cancel, redirect, current, Function.update_self, Function.update_of_ne apart]
    exact above.2
  · rw [previous]
    exact moved (cells.previous below i after inside)

/-- The cell above is resolved before the pixel is read. -/
theorem resolvePrevious_ok {S K M : Set Pixel} {E : Pixel → Prop} (good : Good source w h max S K M E own home s)
    (cells : Cells w x y own home s) (below : 0 < y) (inside : x < w) :
    ∃ s', s.resolvePrevious x = .ok s' ∧ Good source w h max S K M E own home s' ∧ Cells w x y own home s' ∧
      Points own home s' (s'.previousRow x) (x, y - 1) ∧ s'.regionRefCount = s.regionRefCount := by
  obtain ⟨within, same⟩ := cells.previous below x (Nat.le_refl x) inside
  obtain ⟨t, result, done, good', settled⟩ := good.resolve within same
  have first : Function.update t.previousRow x result x = result := Function.update_self _ _ _
  refine ⟨{ t with previousRow := Function.update t.previousRow x result }, ?_, ⟨good'.width, good'.height, good'.room, { good'.stored with },
    good'.drawn, good'.bounded⟩, ⟨fun i before => ?_, fun right => ?_, fun _ i after inside => ?_⟩, ?_, settled.count⟩
  · unfold Segmenter.resolvePrevious
    rw [done]
    rfl
  · show t.currentRow i < t.regionRefCount ∧ home (t.currentRow i) = own (i, y)
    rw [settled.current, settled.count]
    exact cells.current i before
  · show t.redirect (t.currentRow (x - 1)) = t.currentRow (x - 1)
    rw [settled.current]
    exact settled.roots _ (cells.west right)
  · show Function.update t.previousRow x result i < t.regionRefCount ∧ home (Function.update t.previousRow x result i) = own (i, y - 1)
    by_cases self : i = x
    · rw [self, first]
      exact ⟨settled.points.inside, settled.points.same⟩
    · rw [Function.update_of_ne self, settled.previous, settled.count]
      exact cells.previous below i after inside
  · show Points own home _ (Function.update t.previousRow x result x) (x, y - 1)
    rw [first]
    exact ⟨settled.points.inside, settled.points.root, settled.points.same⟩

end Movid.Fiducial
