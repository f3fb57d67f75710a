import Movid.Fiducial.Segmented

/-!
# Other colours

An image with a pixel that is neither black nor white is not segmented: the assertion of `new_region` fails at the first such pixel.
-/

namespace Movid.Fiducial

open Failing

variable {source : Nat → UInt8} {w h max x y : Nat} {own : Pixel → Nat} {home : Nat → Nat} {s s' : Segmenter}

def Binary (colour : UInt8) : Prop := colour = 0 ∨ colour = 255

theorem startCell_binary (width : s.width = w) (done : s.startCell source x y = .ok s') : Binary (pixel source w (x, y)) := by
  unfold Segmenter.startCell at done
  rw [width] at done
  cases made : s.newRegion x y (source (y * w + x)) with
  | error e =>
    rw [made] at done
    cases done
  | ok result =>
    by_cases refused : source (y * w + x) ≠ 0 ∧ source (y * w + x) ≠ 255
    · simp only [Segmenter.newRegion, if_pos refused] at made
      cases made
    · show source (y * w + x) = 0 ∨ source (y * w + x) = 255
      tauto

theorem Stage.topCell_binary (stage : Stage source w h max x 0 own home s) (right : 0 < x) (inside : x < w)
    (done : Segmenter.topCell source s x = .ok s') : Binary (pixel source w (x, 0)) := by
  have left : (x - 1, 0) ∈ seen w x 0 := west_seen right inside
  have colour (i : Nat) : pixel source w (i, 0) = source i := by
    unfold pixel
    rw [Nat.zero_mul, Nat.zero_add]
  unfold Segmenter.topCell at done
  by_cases same : source x = source (x - 1)
  · have west := stage.good.drawn.binary _ left
    rwa [colour, ← same, ← colour] at west
  · rw [if_neg same] at done
    obtain ⟨t, started, _⟩ := bind_ok done
    exact startCell_binary stage.good.width started

theorem Row.leftEdge_binary (row : Row source w h max y own home s) (wide : 0 < w)
    (done : s.swap.leftEdge source (y + 1) = .ok s') : Binary (pixel source w (0, y + 1)) := by
  have upper : (0, y) ∈ seen w 0 (y + 1) := ⟨wide, .inl (Nat.lt_succ_self y)⟩
  have swapped : Good source w h max (seen w 0 (y + 1)) (seen w 0 (y + 1)) (rim w 0 (y + 1)) (fun _ => False) own home s.swap :=
    ⟨row.good.width, row.good.height, row.good.room, { row.good.stored with }, row.good.drawn, row.good.bounded⟩
  have cells : Cells w 0 (y + 1) own home s.swap :=
    ⟨fun i before => absurd before (Nat.not_lt_zero i), fun zero => absurd zero (Nat.lt_irrefl 0), fun _ i _ inside => row.current i inside⟩
  obtain ⟨t, resolved, good, _, above, _⟩ := resolvePrevious_ok swapped cells (Nat.succ_pos y) wide
  rw [Nat.add_sub_cancel] at above
  unfold Segmenter.leftEdge at done
  rw [resolved] at done
  simp only [Except.bind] at done
  rw [good.regionOf above] at done
  simp only at done
  rw [good.drawn.colour _ upper, good.width] at done
  by_cases same : source ((y + 1) * w) = pixel source w (0, y)
  · exact (show pixel source w (0, y + 1) = pixel source w (0, y) from same) ▸ good.drawn.binary _ upper
  · rw [if_neg same] at done
    cases started : t.startCell source 0 (y + 1) with
    | error e =>
      rw [started] at done
      cases done
    | ok u => exact startCell_binary good.width started

theorem Stage.cell_binary (stage : Stage source w h max x y own home s) (right : 0 < x) (below : 0 < y) (inside : x < w)
    (done : Segmenter.cell source y s x = .ok s') : Binary (pixel source w (x, y)) := by
  have left : (x - 1, y) ∈ seen w x y := west_seen right inside
  have upper : (x, y - 1) ∈ seen w x y := north_seen below inside
  obtain ⟨t, resolved, good, cells, above, _⟩ := resolvePrevious_ok stage.good stage.cells below inside
  obtain ⟨R, widened, good'⟩ := good.widen left (by omega : x - 1 < w) fun q _ front => front
  unfold Segmenter.cell at done
  rw [resolved] at done
  simp only [Except.bind] at done
  rw [good.width, show source (y * w + x - 1) = pixel source w (x - 1, y) by unfold pixel; congr 1; simp only; omega] at done
  by_cases same : source (y * w + x) = pixel source w (x - 1, y)
  · exact (show pixel source w (x, y) = pixel source w (x - 1, y) from same) ▸ good.drawn.binary _ left
  · rw [if_neg same] at done
    unfold Segmenter.otherCell at done
    rw [good.regionOf (cells.points right)] at done
    simp only [Except.bind] at done
    rw [widened, show (t.setRegions R).previousRow x = t.previousRow x from rfl, good'.regionOf (above.setRegions R)] at done
    simp only at done
    rw [good'.drawn.colour _ upper, good'.width] at done
    by_cases north : source (y * w + x) = pixel source w (x, y - 1)
    · exact (show pixel source w (x, y) = pixel source w (x, y - 1) from north) ▸ good.drawn.binary _ upper
    · rw [if_neg north] at done
      cases started : (t.setRegions R).startCell source x y with
      | error e =>
        rw [started] at done
        cases done
      | ok u => exact startCell_binary good'.width started

theorem Row.line_binary (row : Row source w h max y own home s) (wide : 0 < w) (inside : y + 1 < h)
    (done : Segmenter.line source s (y + 1) = .ok s') : ∀ x < w, Binary (pixel source w (x, y + 1)) := by
  unfold Segmenter.line at done
  obtain ⟨t, first, done⟩ := bind_ok done
  have edge := row.leftEdge_binary wide first
  obtain ⟨own₁, home₁, t', first', stage⟩ := row.leftEdge wide inside edge
  cases first.symm.trans first'
  obtain ⟨u, loop, _⟩ := bind_ok done
  rw [stage.good.width] at loop
  obtain ⟨rest, _⟩ := foldlM_range'_only (P := fun x => Binary (pixel source w (x, y + 1)))
    (I := fun x s => ∃ own home, Stage source w h max x (y + 1) own home s)
    (fun x s s' lower upper ⟨own, home, stage⟩ turn => by
      have binary := stage.cell_binary lower (Nat.succ_pos y) (by omega) turn
      obtain ⟨own', home', s'', turn', next⟩ := stage.cell lower (Nat.succ_pos y) (by omega) inside binary
      cases turn.symm.trans turn'
      exact ⟨binary, own', home', next⟩) ⟨own₁, home₁, stage⟩ loop
  intro x within
  rcases Nat.eq_zero_or_pos x with rfl | right
  · exact edge
  · exact rest x right (by omega)

/-- All lines. -/
theorem buildRegions_binary (wide : 0 < s.width) (high : 0 < s.height) (done : s.buildRegions source = .ok s') :
    ∀ y < s.height, ∀ x < s.width, Binary (pixel source s.width (x, y)) := by
  obtain ⟨t, first, done⟩ := bind_ok done
  have start : source 0 = 0 ∨ source 0 = 255 := by
    obtain ⟨t', started, _⟩ := bind_ok first
    have binary := startCell_binary (s := { s with regionRefCount := 0, regionCount := 0, freed := [] }) (w := s.width) rfl started
    unfold pixel at binary
    rwa [Nat.zero_mul] at binary
  obtain ⟨own₁, home₁, t', first', stage⟩ := topFirst_ok (s := { s with regionRefCount := 0, regionCount := 0, freed := [] }) wide high
    start rfl rfl rfl
  cases first.symm.trans first'
  obtain ⟨u, top, done⟩ := bind_ok done
  rw [show t.width = s.width from stage.good.width] at top
  obtain ⟨upper, own₂, home₂, stage₂⟩ := foldlM_range'_only (P := fun x => Binary (pixel source s.width (x, 0)))
    (I := fun x t => ∃ own home, Stage source s.width s.height s.maxAdjacentRegions x 0 own home t)
    (fun x t t' lower upper ⟨own, home, stage⟩ turn => by
      have binary := stage.topCell_binary lower (by omega) turn
      obtain ⟨own', home', t'', turn', next⟩ := stage.topCell lower (by omega) high binary
      cases turn.symm.trans turn'
      exact ⟨binary, own', home', next⟩) ⟨own₁, home₁, stage⟩ top
  rw [show 1 + (s.width - 1) = s.width by omega] at stage₂
  obtain ⟨v, lines, _⟩ := bind_ok done
  rw [show u.height = s.height from stage₂.good.height] at lines
  obtain ⟨rest, _⟩ := foldlM_range'_only (P := fun y => ∀ x < s.width, Binary (pixel source s.width (x, y)))
    (I := fun y t => ∃ own home, Row source s.width s.height s.maxAdjacentRegions (y - 1) own home t)
    (fun y t t' lower upper ⟨own, home, row⟩ turn => by
      obtain ⟨y, rfl⟩ : ∃ k, y = k + 1 := ⟨y - 1, by omega⟩
      rw [Nat.add_sub_cancel] at row
      have binary := row.line_binary wide (by omega) turn
      obtain ⟨own', home', t'', turn', next⟩ := row.line wide (by omega) binary
      cases turn.symm.trans turn'
      exact ⟨binary, own', home', next⟩) ⟨own₂, home₂, stage₂.topRow⟩ lines
  intro y below x inside
  rcases Nat.eq_zero_or_pos y with rfl | lower
  · rcases Nat.eq_zero_or_pos x with rfl | right
    · unfold pixel
      rwa [Nat.zero_mul]
    · exact upper x right (by omega)
  · exact rest y lower (by omega) x inside

/-- An image is segmented exactly if all its pixels are black or white. -/
theorem buildRegions_isOk (s : Segmenter) (source : Nat → UInt8) (wide : 0 < s.width) (high : 0 < s.height) :
    (∃ s', s.buildRegions source = .ok s') ↔ ∀ i < s.width * s.height, source i = 0 ∨ source i = 255 := by
  refine ⟨fun ⟨s', done⟩ i inside => ?_, fun binary => ?_⟩
  · have place : pixel source s.width (i % s.width, i / s.width) = source i := congrArg source (Nat.div_add_mod' i s.width)
    rw [← place]
    exact buildRegions_binary wide high done _ (Nat.div_lt_of_lt_mul inside) _ (Nat.mod_lt i wide)
  · obtain ⟨_, _, s', _, done, _⟩ := buildRegions_good s source wide high binary
    exact ⟨s', done⟩

theorem buildRegions_isOk_steps : (∃ s', (Segmenter.allocate 4 3 3).buildRegions steps = .ok s') ↔
    ∀ i < 4 * 3, steps i = 0 ∨ steps i = 255 := buildRegions_isOk (.allocate 4 3 3) steps (by decide) (by decide)

end Movid.Fiducial
