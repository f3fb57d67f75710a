import Movid.Fiducial.Cells

/-!
# The scan

One lemma for each way a pixel is handled, and from them the rows and the whole image.
-/

namespace Movid.Fiducial

open Failing

variable {source : Nat → UInt8} {w h max x y : Nat} {own : Pixel → Nat} {home : Nat → Nat} {s : Segmenter}

/-- The pixels up to `p` of its region. -/
def front (own : Pixel → Nat) (p q : Pixel) : Prop := own q = own p ∧ q.1 ≤ p.1

/-- The pixels before the one at `x`, `y` have been handled. -/
structure Stage (source : Nat → UInt8) (w h max x y : Nat) (own : Pixel → Nat) (home : Nat → Nat) (s : Segmenter) : Prop where
  good : Good source w h max (seen w x y) (seen w x y) (rim w x y) (front own (x - 1, y)) own home s
  cells : Cells w x y own home s
  count : s.regionRefCount ≤ y * w + x

/-- Before its neighbours are seen to. -/
structure Opened (source : Nat → UInt8) (w h max x y : Nat) (own : Pixel → Nat) (home : Nat → Nat) (s : Segmenter) : Prop where
  good : Good source w h max (insert (x, y) (seen w x y)) (seen w x y) (rim w x y) (front own (x, y)) own home s
  cells : Cells w (x + 1) y own home s
  count : s.regionRefCount ≤ y * w + x + 1

theorem Opened.close (opened : Opened source w h max x y own home s) (right : 0 < x) (below : 0 < y) (inside : x < w)
    (west : (pixel source w (x, y) = pixel source w (x - 1, y) → own (x, y) = own (x - 1, y)) ∧
      (pixel source w (x, y) ≠ pixel source w (x - 1, y) → Tied s.regions (own (x, y)) (own (x - 1, y))))
    (north : (pixel source w (x, y) = pixel source w (x, y - 1) → own (x, y) = own (x, y - 1)) ∧
      (pixel source w (x, y) ≠ pixel source w (x, y - 1) → Tied s.regions (own (x, y)) (own (x, y - 1)))) :
    Stage source w h max (x + 1) y own home s := by
  refine ⟨?_, opened.cells, opened.count⟩
  have closed := opened.good.close (p := (x, y)) (.inl rfl)
    (fun q member near equal => (near_seen member near).elim (fun ⟨_, eq⟩ => eq ▸ west.1 (eq ▸ equal)) fun ⟨_, eq⟩ => eq ▸ north.1 (eq ▸ equal))
    (fun q member near other => (near_seen member near).elim (fun ⟨_, eq⟩ => eq ▸ west.2 (eq ▸ other)) fun ⟨_, eq⟩ => eq ▸ north.2 (eq ▸ other))
  rwa [seen_succ inside, rim_centre right below]

/-- The pixel has the colour of the one to the left. -/
theorem Stage.joinWest (stage : Stage source w h max x y own home s) (right : 0 < x) (inside : x < w)
    (same : pixel source w (x, y) = pixel source w (x - 1, y)) :
    Opened source w h max x y (Function.update own (x, y) (own (x - 1, y))) home (s.setCurrent x (s.currentRow (x - 1))) := by
  have west : (x - 1, y) ∈ seen w x y := west_seen right inside
  have old {q : Pixel} (member : q ∈ seen w x y) : Function.update own (x, y) (own (x - 1, y)) q = own q := own_update not_seen member
  have good := stage.good.weaken (front (Function.update own (x, y) (own (x - 1, y))) (x, y)) fun q member front => by
    refine .inr ⟨?_, ?_⟩
    · rw [old member, Function.update_self]
      exact front.1
    · have before : q.1 ≤ x - 1 := front.2
      show q.1 ≤ x
      omega
  refine ⟨(good.join not_seen west (near_west right) same (Nat.sub_le x 1) (Nat.le_refl y) ⟨rfl, Nat.le_refl x⟩
    fun wide high => (stage.good.bounded wide high).bottom _ west).setCurrent _ _, stage.cells.copy (stage.cells.points right), ?_⟩
  exact Nat.le_succ_of_le stage.count

/-! ### A cell of the middle -/

theorem Stage.sameCell (stage : Stage source w h max x y own home s) (right : 0 < x) (below : 0 < y) (inside : x < w)
    (above : Points own home s (s.previousRow x) (x, y - 1)) (same : pixel source w (x, y) = pixel source w (x - 1, y)) :
    ∃ own' home' s', s.sameCell source x y = .ok s' ∧ Stage source w h max (x + 1) y own' home' s' := by
  have west : (x - 1, y) ∈ seen w x y := west_seen right inside
  have north : (x, y - 1) ∈ seen w x y := north_seen below inside
  have cornered := stage.good.drawn.corner right below inside
  have opened := stage.joinWest right inside same
  obtain ⟨own', updated⟩ : ∃ own', own' = Function.update own (x, y) (own (x - 1, y)) := ⟨_, rfl⟩
  rw [← updated] at opened
  have own_self : own' (x, y) = own (x - 1, y) := by rw [updated, Function.update_self]
  have own_west : own' (x - 1, y) = own (x - 1, y) := by
    rw [updated]
    exact own_update not_seen west
  have own_north : own' (x, y - 1) = own (x, y - 1) := by
    rw [updated]
    exact own_update not_seen north
  have joins : own' (x, y) = own' (x - 1, y) := own_self.trans own_west.symm
  have north' : (x, y - 1) ∈ insert (x, y) (seen w x y) := .inr north
  obtain ⟨t, cell⟩ : ∃ t, t = s.setCurrent x (s.currentRow (x - 1)) := ⟨_, rfl⟩
  rw [← cell] at opened
  have above' : Points own' home t (t.previousRow x) (x, y - 1) := by
    rw [cell]
    exact ⟨above.inside, above.root, above.same.trans own_north.symm⟩
  have points : Points own' home t (t.currentRow x) (x, y) := by
    have points := opened.cells.points (Nat.succ_pos x)
    rwa [Nat.add_sub_cancel] at points
  have drawn := opened.good.drawn
  have tied (differ : pixel source w (x, y) ≠ pixel source w (x, y - 1)) : Tied t.regions (own' (x, y)) (own' (x, y - 1)) := by
    rw [own_self, own_north, cell]
    exact cornered (same ▸ differ)
  have step : s.sameCell source x y = if t.currentRow x = t.previousRow x then .ok t else
      (t.regionOf (t.previousRow x)).bind fun north => if source (y * t.width + x) = (t.regions north).colour then t.mergeCell x else .ok t := by
    rw [cell]
    rfl
  rw [step]
  by_cases refs : t.currentRow x = t.previousRow x
  · rw [if_pos refs]
    have equal : own' (x, y) = own' (x, y - 1) := by rw [← points.same, refs, above'.same]
    refine ⟨own', home, t, rfl, opened.close right below inside ⟨fun _ => joins, fun differ => absurd same differ⟩ ⟨fun _ => equal, fun differ => ?_⟩⟩
    have colour := drawn.colour (x, y) (.inl rfl)
    rw [equal, drawn.colour _ north'] at colour
    exact absurd colour.symm differ
  · rw [if_neg refs, opened.good.regionOf above']
    simp only [Except.bind]
    rw [drawn.colour _ north', show source (y * t.width + x) = pixel source w (x, y) by rw [opened.good.width]; rfl]
    by_cases equal : pixel source w (x, y) = pixel source w (x, y - 1)
    · rw [if_pos equal]
      have apart : own' (x, y - 1) ≠ own' (x, y) := by
        intro eq
        refine refs (opened.good.stored.forest.single _ points.inside _ above'.inside points.root above'.root ?_)
        rw [points.same, above'.same, eq]
      obtain ⟨u, done, good, redirect, count, current, previous⟩ := opened.good.mergeCell points above' (.inl rfl) north' (near_north below) equal apart
      have cells := opened.cells.merged count redirect current previous
        ⟨above'.inside, above'.root⟩ (Ne.symm refs) points.same above'.same
      have merged_self : remap own' (own' (x, y - 1)) (own' (x, y)) (x, y) = own' (x, y - 1) := if_pos rfl
      have merged_north : remap own' (own' (x, y - 1)) (own' (x, y)) (x, y - 1) = own' (x, y - 1) := if_neg apart
      have merged_west : remap own' (own' (x, y - 1)) (own' (x, y)) (x - 1, y) = own' (x, y - 1) := if_pos joins.symm
      have opened' : Opened source w h max x y (remap own' (own' (x, y - 1)) (own' (x, y)))
          (fun j => if home j = own' (x, y) then own' (x, y - 1) else home j) u := by
        refine ⟨good.weaken _ fun q _ front => .inr ⟨?_, front.2⟩, cells, ?_⟩
        · rw [merged_self]
          exact if_pos front.1
        · rw [count]
          exact opened.count
      refine ⟨_, _, u, done, opened'.close right below inside ⟨fun _ => merged_self.trans merged_west.symm, fun differ => absurd same differ⟩
        ⟨fun _ => merged_self.trans merged_north.symm, fun differ => absurd equal differ⟩⟩
    · rw [if_neg equal]
      exact ⟨own', home, t, rfl, opened.close right below inside ⟨fun _ => joins, fun differ => absurd same differ⟩
        ⟨fun eq => absurd eq equal, tied⟩⟩

theorem room_below (inside : x < w) (inside' : y < h) (count : s.regionRefCount ≤ y * w + x) : s.regionRefCount < w * h := by
  have lines : (y + 1) * w ≤ h * w := Nat.mul_le_mul_right w inside'
  rw [Nat.succ_mul] at lines
  rw [Nat.mul_comm w h]
  omega

/-- The pixel gets a region of its own, which is made adjacent to that above and, if this is another one, to that to the left. -/
theorem Stage.freshCell {t : Segmenter} (good : Good source w h max (seen w x y) (seen w x y) (rim w x y) (fun _ => False) own home t)
    (cells : Cells w x y own home t) (count : t.regionRefCount ≤ y * w + x) (right : 0 < x) (below : 0 < y) (inside : x < w) (inside' : y < h)
    (binary : pixel source w (x, y) = 0 ∨ pixel source w (x, y) = 255) (above : Points own home t (t.previousRow x) (x, y - 1))
    (west : pixel source w (x, y) ≠ pixel source w (x - 1, y)) (north : pixel source w (x, y) ≠ pixel source w (x, y - 1)) :
    ∃ own' home' s', ((t.startCell source x y).bind fun s => (s.makeAdjacent (s.currentRow x) (s.previousRow x)).bind fun s =>
        (s.regionOf (s.currentRow (x - 1))).bind fun west => (s.regionOf (s.previousRow x)).bind fun north =>
          if west ≠ north then s.makeAdjacent (s.currentRow x) (s.currentRow (x - 1)) else .ok s) = .ok s' ∧
      Stage source w h max (x + 1) y own' home' s' := by
  have left : (x - 1, y) ∈ seen w x y := west_seen right inside
  have upper : (x, y - 1) ∈ seen w x y := north_seen below inside
  obtain ⟨r, u, started, begun, good⟩ := good.startCell inside inside' not_seen binary (room_below inside inside' count)
  have cells' := cells.begun (r := r) begun
  have other {q : Pixel} (member : q ∈ seen w x y) : q ≠ (x, y) := fun eq => not_seen (eq ▸ member)
  have own_points := begun.points own home r (x, y)
  have above_points := above.begun (r := r) begun (other upper)
  have west_points := (cells.points right).begun (r := r) begun (other left)
  rw [show t.currentRow (x - 1) = u.currentRow (x - 1) by rw [begun.current, Function.update_of_ne (by omega)]] at west_points
  rw [← begun.previous] at above_points
  obtain ⟨own', updated⟩ : ∃ own', own' = Function.update own (x, y) r := ⟨_, rfl⟩
  obtain ⟨home', updated'⟩ : ∃ home', home' = Function.update home t.regionRefCount r := ⟨_, rfl⟩
  rw [← updated, ← updated'] at good own_points above_points west_points cells'
  have count' : u.regionRefCount ≤ y * w + x + 1 := by
    rw [begun.count]
    exact Nat.succ_le_succ count
  have onto := good.weaken (front own' (x, y)) fun q _ out => out.elim
  obtain ⟨R, linked, good, tied, _⟩ := onto.makeAdjacent own_points above_points (.inl rfl) (.inr upper) (near_north below) north
  rw [started]
  simp only [Except.bind]
  rw [linked]
  simp only
  have west_region := good.regionOf (west_points.setRegions R)
  have north_region := good.regionOf (above_points.setRegions R)
  rw [show (u.setRegions R).currentRow (x - 1) = u.currentRow (x - 1) from rfl, west_region]
  simp only
  rw [show (u.setRegions R).previousRow x = u.previousRow x from rfl, north_region]
  simp only
  by_cases same : own' (x - 1, y) = own' (x, y - 1)
  · rw [if_neg (not_not.mpr same)]
    refine ⟨own', home', _, rfl, Opened.close ⟨good, cells'.setRegions R, count'⟩ right below inside
      ⟨fun eq => absurd eq west, fun _ => ?_⟩ ⟨fun eq => absurd eq north, fun _ => tied⟩⟩
    rw [same]
    exact tied
  · rw [if_pos same]
    obtain ⟨R', linked', good, tied', more⟩ := good.makeAdjacent (own_points.setRegions R) (west_points.setRegions R) (.inl rfl) (.inr left)
      (near_west right) west
    exact ⟨own', home', _, linked', Opened.close ⟨good, (cells'.setRegions R).setRegions R', count'⟩ right below inside
      ⟨fun eq => absurd eq west, fun _ => tied'⟩
      ⟨fun eq => absurd eq north, fun _ => more _ _ (good.drawn.alive (.inl rfl)) (good.drawn.alive (.inr upper)) tied⟩⟩

theorem Stage.otherCell (stage : Stage source w h max x y own home s) (right : 0 < x) (below : 0 < y) (inside : x < w) (inside' : y < h)
    (binary : pixel source w (x, y) = 0 ∨ pixel source w (x, y) = 255) (above : Points own home s (s.previousRow x) (x, y - 1))
    (west : pixel source w (x, y) ≠ pixel source w (x - 1, y)) :
    ∃ own' home' s', s.otherCell source x y = .ok s' ∧ Stage source w h max (x + 1) y own' home' s' := by
  have left : (x - 1, y) ∈ seen w x y := west_seen right inside
  have upper : (x, y - 1) ∈ seen w x y := north_seen below inside
  have west_points := stage.cells.points right
  obtain ⟨R, widened, good⟩ := stage.good.widen left (by omega : x - 1 < w) fun q _ front => front
  have cells := stage.cells.setRegions R
  have above' := above.setRegions R
  have drawn := good.drawn
  unfold Segmenter.otherCell
  rw [stage.good.regionOf west_points]
  simp only [Except.bind]
  rw [widened, show (s.setRegions R).previousRow x = s.previousRow x from rfl, good.regionOf above']
  simp only
  rw [drawn.colour _ upper, show source (y * (s.setRegions R).width + x) = pixel source w (x, y) by rw [good.width]; rfl]
  by_cases north : pixel source w (x, y) = pixel source w (x, y - 1)
  · rw [if_pos north]
    obtain ⟨own', updated⟩ : ∃ own', own' = Function.update own (x, y) (own (x, y - 1)) := ⟨_, rfl⟩
    have onto := (good.weaken (front own' (x, y)) fun q _ out => out.elim).setCurrent x (s.previousRow x)
    have low : ∀ a ∈ seen w x y, a.2 ≤ (x, y).2 := fun a member => by
      have place := member.2
      show a.2 ≤ y
      omega
    have joined := onto.joinBelow not_seen upper (near_north below) north (Nat.le_refl x) low ⟨rfl, Nat.le_refl x⟩ inside'
    have cells' := cells.copy above'
    have cell : ((s.setRegions R).setCurrent x (s.previousRow x)).currentRow x = s.previousRow x := Function.update_self _ _ _
    have own_self : own' (x, y) = own (x, y - 1) := by rw [updated, Function.update_self]
    have own_north : own' (x, y - 1) = own (x, y - 1) := by
      rw [updated]
      exact own_update not_seen upper
    rw [← updated] at joined cells'
    refine ⟨own', home, _, ?_, Opened.close ⟨joined, cells'.setRegions _, Nat.le_succ_of_le stage.count⟩ right below inside
      ⟨fun eq => absurd eq west, fun _ => ?_⟩ ⟨fun _ => own_self.trans own_north.symm, fun eq => absurd north eq⟩⟩
    · rw [cell, onto.regionOf (above'.setCurrent x (s.previousRow x))]
      rfl
    · have cornered := joined.drawn.corner right below inside fun eq => west (north.trans eq.symm)
      rw [own_self.trans own_north.symm]
      exact cornered.symm joined.drawn.linked (joined.drawn.alive (.inr left))
  · rw [if_neg north]
    exact Stage.freshCell good cells stage.count right below inside inside' binary above' west north

theorem Stage.cell (stage : Stage source w h max x y own home s) (right : 0 < x) (below : 0 < y) (inside : x < w) (inside' : y < h)
    (binary : pixel source w (x, y) = 0 ∨ pixel source w (x, y) = 255) :
    ∃ own' home' s', Segmenter.cell source y s x = .ok s' ∧ Stage source w h max (x + 1) y own' home' s' := by
  obtain ⟨t, done, good, cells, above, count⟩ := resolvePrevious_ok stage.good stage.cells below inside
  have stage' : Stage source w h max x y own home t := ⟨good, cells, count ▸ stage.count⟩
  unfold Segmenter.cell
  rw [done]
  simp only [Except.bind]
  rw [good.width, show source (y * w + x - 1) = pixel source w (x - 1, y) by unfold pixel; congr 1; simp only; omega]
  by_cases same : pixel source w (x, y) = pixel source w (x - 1, y)
  · rw [if_pos (show source (y * w + x) = _ from same)]
    exact stage'.sameCell right below inside above same
  · rw [if_neg (show ¬ source (y * w + x) = _ from same)]
    exact stage'.otherCell right below inside inside' binary above same

end Movid.Fiducial
