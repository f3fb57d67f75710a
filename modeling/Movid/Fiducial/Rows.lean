import Movid.Fiducial.Scan

/-!
# Rows and edges

The top line, the left and the right edge and the bottom row, whose regions are adjacent to the root.
-/

namespace Movid.Fiducial

open Failing

variable {source : Nat → UInt8} {w h max x y : Nat} {own : Pixel → Nat} {home : Nat → Nat} {s : Segmenter}

/-- The row `y` and those above have been handled. -/
structure Row (source : Nat → UInt8) (w h max y : Nat) (own : Pixel → Nat) (home : Nat → Nat) (s : Segmenter) : Prop where
  good : Good source w h max (seen w 0 (y + 1)) (seen w 0 (y + 1)) (rim w 0 (y + 1)) (fun _ => False) own home s
  current : ∀ i < w, s.currentRow i < s.regionRefCount ∧ home (s.currentRow i) = own (i, y)
  count : s.regionRefCount ≤ (y + 1) * w

/-! ### The top line -/

theorem topFirst_ok (wide : 0 < s.width) (high : 0 < s.height) (binary : source 0 = 0 ∨ source 0 = 255) (refs : s.regionRefCount = 0)
    (regions : s.regionCount = 0) (freed : s.freed = []) :
    ∃ own home s', s.topFirst source = .ok s' ∧ Stage source s.width s.height s.maxAdjacentRegions 1 0 own home s' := by
  have outside (p : Pixel) : p ∉ seen s.width 0 0 := by
    rw [seen_start]
    exact Set.notMem_empty p
  have good : Good source s.width s.height s.maxAdjacentRegions (seen s.width 0 0) (seen s.width 0 0) (rim s.width 0 0) (fun _ => False)
      (fun _ => 0) (fun _ => 0) s := by
    rw [seen_start, rim_start]
    exact ⟨rfl, rfl, rfl, .empty refs regions freed, .empty, fun _ _ => .empty⟩
  have cells : Cells s.width 0 0 (fun _ => 0) (fun _ => 0) s :=
    ⟨fun i before => absurd before (Nat.not_lt_zero i), fun zero => absurd zero (Nat.lt_irrefl 0), fun zero => absurd zero (Nat.lt_irrefl 0)⟩
  have room : s.regionRefCount < s.width * s.height := by
    rw [refs]
    exact Nat.mul_pos wide high
  have colour : pixel source s.width (0, 0) = source 0 := by
    unfold pixel
    rw [Nat.zero_mul]
    rfl
  obtain ⟨r, t, started, begun, good⟩ := good.startCell wide high (outside _) (by rwa [colour]) room
  have points := begun.points (fun _ => 0) (fun _ => 0) r (0, 0)
  have cells := cells.begun (r := r) begun
  obtain ⟨own, updated⟩ : ∃ own : Pixel → Nat, own = Function.update (fun _ => 0) (0, 0) r := ⟨_, rfl⟩
  rw [← updated] at good points cells
  obtain ⟨R, marked, good⟩ := good.markRoot points (.inl rfl) (.inl rfl)
  refine ⟨own, _, t.setRegions R, ?_, ⟨?_, cells.setRegions R, ?_⟩⟩
  · unfold Segmenter.topFirst
    rw [started]
    exact marked
  · have closed := (good.weaken (front own (1 - 1, 0)) fun q _ out => out.elim).close (p := (0, 0)) (.inl rfl)
      (fun q member => absurd member (outside q)) (fun q member => absurd member (outside q))
    rwa [seen_succ wide, rim_top wide]
  · show t.regionRefCount ≤ 0 * s.width + 1
    rw [begun.count, refs]
    omega

theorem Stage.topFlags (stage : Stage source w h max x 0 own home s) :
    Good source w h max (seen w x 0) (seen w x 0) (rim w x 0) (fun _ => False) own home s :=
  stage.good.weaken _ fun p member _ => .inl (stage.good.drawn.marked p ⟨member, .inr (.inl (by have place := member.2; omega))⟩)

theorem Stage.topCell (stage : Stage source w h max x 0 own home s) (right : 0 < x) (inside : x < w) (high : 0 < h)
    (binary : pixel source w (x, 0) = 0 ∨ pixel source w (x, 0) = 255) :
    ∃ own' home' s', Segmenter.topCell source s x = .ok s' ∧ Stage source w h max (x + 1) 0 own' home' s' := by
  have left : (x - 1, 0) ∈ seen w x 0 := west_seen right inside
  have marked : (x - 1, 0) ∈ rim w x 0 := ⟨left, .inr (.inl rfl)⟩
  have colour (i : Nat) : pixel source w (i, 0) = source i := by
    unfold pixel
    rw [Nat.zero_mul, Nat.zero_add]
  have near_top {q : Pixel} (member : q ∈ seen w x 0) (near : Near (x, 0) q) : q = (x - 1, 0) :=
    (near_seen member near).elim And.right fun out => absurd out.1 (Nat.lt_irrefl 0)
  unfold Segmenter.topCell
  by_cases same : pixel source w (x, 0) = pixel source w (x - 1, 0)
  · rw [if_pos (by rwa [colour, colour] at same)]
    have opened := stage.joinWest right inside same
    obtain ⟨own', updated⟩ : ∃ own', own' = Function.update own (x, 0) (own (x - 1, 0)) := ⟨_, rfl⟩
    rw [← updated] at opened
    have joins : own' (x, 0) = own' (x - 1, 0) := by
      rw [updated, Function.update_self]
      exact (own_update not_seen left).symm
    refine ⟨own', home, _, rfl, ⟨?_, opened.cells, opened.count⟩⟩
    have closed := (opened.good.mark (p := (x, 0)) (.inl rfl) joins marked).close (p := (x, 0)) (.inl rfl)
      (fun q member near _ => by rw [near_top member near]; exact joins)
      (fun q member near differ => absurd same (by rwa [near_top member near] at differ))
    rwa [seen_succ inside, rim_top inside]
  · rw [if_neg (by rwa [colour, colour] at same)]
    have other {q : Pixel} (member : q ∈ seen w x 0) : q ≠ (x, 0) := fun eq => not_seen (eq ▸ member)
    obtain ⟨r, t, started, begun, good⟩ :=
      stage.topFlags.startCell inside high not_seen binary (room_below inside high stage.count)
    have cells := stage.cells.begun (r := r) begun
    have points := begun.points own home r (x, 0)
    have west_points := (stage.cells.points right).begun (r := r) begun (other left)
    rw [show s.currentRow (x - 1) = t.currentRow (x - 1) by rw [begun.current, Function.update_of_ne (by omega)]] at west_points
    obtain ⟨own', updated⟩ : ∃ own', own' = Function.update own (x, 0) r := ⟨_, rfl⟩
    rw [← updated] at good points west_points cells
    obtain ⟨R, rooted, good⟩ := good.markRoot points (.inl rfl) (.inr (.inl rfl))
    obtain ⟨R', linked, good, tied, _⟩ := good.makeAdjacent (points.setRegions R) (west_points.setRegions R) (.inl rfl) (.inr left)
      (near_west right) same
    refine ⟨own', _, (t.setRegions R).setRegions R', ?_, ⟨?_, (cells.setRegions R).setRegions R', ?_⟩⟩
    · rw [started]
      simp only [Except.bind]
      rw [rooted]
      exact linked
    · have closed := (good.weaken (front own' (x, 0)) fun q _ out => out.elim).close (p := (x, 0)) (.inl rfl)
        (fun q member near equal => absurd (by rwa [near_top member near] at equal) same)
        (fun q member near _ => by rw [near_top member near]; exact tied)
      rwa [seen_succ inside, rim_top inside]
    · show t.regionRefCount ≤ 0 * w + (x + 1)
      rw [begun.count]
      exact Nat.succ_le_succ stage.count

theorem Stage.topRow (stage : Stage source w h max w 0 own home s) : Row source w h max 0 own home s := by
  refine ⟨?_, stage.cells.current, by simpa using stage.count⟩
  have rims : rim w 0 (0 + 1) = rim w w 0 := by
    ext ⟨a, b⟩
    simp only [rim, seen, Set.mem_ofPred_eq]
    omega
  rw [rims, ← seen_line]
  exact stage.topFlags

/-! ### The other lines -/

theorem Row.leftEdge (row : Row source w h max y own home s) (wide : 0 < w) (inside : y + 1 < h)
    (binary : pixel source w (0, y + 1) = 0 ∨ pixel source w (0, y + 1) = 255) :
    ∃ own' home' s', s.swap.leftEdge source (y + 1) = .ok s' ∧ Stage source w h max 1 (y + 1) own' home' s' := by
  have upper : (0, y) ∈ seen w 0 (y + 1) := ⟨wide, .inl (Nat.lt_succ_self y)⟩
  have marked : (0, y) ∈ rim w 0 (y + 1) := ⟨upper, .inl rfl⟩
  have beside : Near (0, y + 1) (0, y) := .inr ⟨rfl, .inr rfl⟩
  have near_left {q : Pixel} (member : q ∈ seen w 0 (y + 1)) (near : Near (0, y + 1) q) : q = (0, y) :=
    (near_seen member near).elim (fun out => absurd out.1 (Nat.lt_irrefl 0)) And.right
  have swapped : Good source w h max (seen w 0 (y + 1)) (seen w 0 (y + 1)) (rim w 0 (y + 1)) (fun _ => False) own home s.swap :=
    ⟨row.good.width, row.good.height, row.good.room, { row.good.stored with }, row.good.drawn, row.good.bounded⟩
  have cells : Cells w 0 (y + 1) own home s.swap :=
    ⟨fun i before => absurd before (Nat.not_lt_zero i), fun zero => absurd zero (Nat.lt_irrefl 0), fun _ i _ inside => row.current i inside⟩
  obtain ⟨t, done, good, cells, above, count⟩ := resolvePrevious_ok swapped cells (Nat.succ_pos y) wide
  rw [Nat.add_sub_cancel] at above
  have few : t.regionRefCount ≤ (y + 1) * w + 0 := by
    rw [count]
    exact row.count
  have drawn := good.drawn
  unfold Segmenter.leftEdge
  rw [done]
  simp only [Except.bind]
  rw [good.regionOf above]
  simp only
  rw [drawn.colour _ upper, good.width, show source ((y + 1) * w) = pixel source w (0, y + 1) from rfl]
  by_cases same : pixel source w (0, y + 1) = pixel source w (0, y)
  · rw [if_pos same]
    obtain ⟨own', updated⟩ : ∃ own', own' = Function.update own (0, y + 1) (own (0, y)) := ⟨_, rfl⟩
    have onto := good.weaken (front own' (0, y + 1)) fun q _ out => out.elim
    have joined := (onto.join not_seen upper beside same (Nat.le_refl 0) (Nat.le_succ y) ⟨rfl, Nat.le_refl 0⟩
      fun _ _ => .inr (drawn.marked _ marked)).setCurrent 0 (t.previousRow 0)
    have cells' := cells.copy above
    rw [← updated] at joined cells'
    have joins : own' (0, y + 1) = own' (0, y) := by
      rw [updated, Function.update_self]
      exact (own_update not_seen upper).symm
    refine ⟨own', home, _, rfl, ⟨?_, cells', Nat.le_succ_of_le few⟩⟩
    have closed := (joined.mark (p := (0, y + 1)) (.inl rfl) joins marked).close (p := (0, y + 1)) (.inl rfl)
      (fun q member near _ => by rw [near_left member near]; exact joins)
      (fun q member near differ => absurd same (by rwa [near_left member near] at differ))
    rwa [← seen_succ wide, ← rim_left wide] at closed
  · rw [if_neg same]
    have other {q : Pixel} (member : q ∈ seen w 0 (y + 1)) : q ≠ (0, y + 1) := fun eq => not_seen (eq ▸ member)
    obtain ⟨r, u, started, begun, good⟩ := good.startCell wide inside not_seen binary (room_below wide inside few)
    have cells' := cells.begun (r := r) begun
    have points := begun.points own home r (0, y + 1)
    have above' := above.begun (r := r) begun (other upper)
    rw [← begun.previous] at above'
    obtain ⟨own', updated⟩ : ∃ own', own' = Function.update own (0, y + 1) r := ⟨_, rfl⟩
    rw [← updated] at good points above' cells'
    obtain ⟨R, rooted, good⟩ := good.markRoot points (.inl rfl) (.inl rfl)
    obtain ⟨R', linked, good, tied, _⟩ := good.makeAdjacent (points.setRegions R) (above'.setRegions R) (.inl rfl) (.inr upper) beside same
    refine ⟨own', _, (u.setRegions R).setRegions R', ?_, ⟨?_, (cells'.setRegions R).setRegions R', ?_⟩⟩
    · rw [started]
      simp only
      rw [rooted]
      exact linked
    · have closed := (good.weaken (front own' (0, y + 1)) fun q _ out => out.elim).close (p := (0, y + 1)) (.inl rfl)
        (fun q member near equal => absurd (by rwa [near_left member near] at equal) same)
        (fun q member near _ => by rw [near_left member near]; exact tied)
      rwa [← seen_succ wide, ← rim_left wide] at closed
    · show u.regionRefCount ≤ (y + 1) * w + 1
      rw [begun.count]
      exact Nat.succ_le_succ few

theorem Row.line (row : Row source w h max y own home s) (wide : 0 < w) (inside : y + 1 < h)
    (binary : ∀ x < w, pixel source w (x, y + 1) = 0 ∨ pixel source w (x, y + 1) = 255) :
    ∃ own' home' s', Segmenter.line source s (y + 1) = .ok s' ∧ Row source w h max (y + 1) own' home' s' := by
  obtain ⟨own₁, home₁, t, first, stage⟩ := row.leftEdge wide inside (binary 0 wide)
  obtain ⟨u, loop, own₂, home₂, last⟩ := foldlM_range'_ok (a := 1) (n := w - 1) (f := Segmenter.cell source (y + 1))
    (I := fun x s => ∃ own home, Stage source w h max x (y + 1) own home s)
    (fun x s lower upper ⟨own, home, stage⟩ => by
      obtain ⟨own', home', s', done, next⟩ := stage.cell lower (Nat.succ_pos y) (by omega) inside (binary x (by omega))
      exact ⟨s', done, own', home', next⟩) ⟨own₁, home₁, stage⟩
  rw [show 1 + (w - 1) = w by omega] at last
  have points := last.cells.points wide
  have member : (w - 1, y + 1) ∈ seen w w (y + 1) := ⟨by omega, .inr ⟨rfl, by omega⟩⟩
  obtain ⟨R, rooted, good⟩ := last.good.markRoot points member (.inr (.inr (.inl (by show w - 1 + 1 = w; omega))))
  refine ⟨own₂, home₂, u.setRegions R, ?_, ⟨?_, last.cells.current, ?_⟩⟩
  · unfold Segmenter.line
    rw [first]
    simp only [Except.bind]
    rw [stage.good.width, loop]
    simp only
    rw [last.good.width]
    exact rooted
  · rw [rim_line wide, ← seen_line]
    refine good.weaken _ fun q member front => .inl ?_
    have flag := good.drawn.marked (w - 1, y + 1) (.inl rfl)
    rwa [← front.1] at flag
  · show u.regionRefCount ≤ (y + 1 + 1) * w
    have count := last.count
    rw [Nat.succ_mul]
    exact count

end Movid.Fiducial
