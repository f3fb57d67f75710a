import Mathlib.Order.Bounds.Defs
import Movid.Fiducial.Rows

/-!
# The segmented image

The regions that are in use after `build_regions` are the connected parts of the image.
-/

namespace Movid.Fiducial

open Failing

variable {source : Nat → UInt8} {w h max x : Nat} {own : Pixel → Nat} {home : Nat → Nat} {s : Segmenter}

def image (w h : Nat) : Set Pixel := {p | p.1 < w ∧ p.2 < h}

theorem seen_image : seen w 0 h = image w h := by
  ext ⟨a, b⟩
  simp only [seen, image, Set.mem_ofPred_eq]
  omega

/-- While the cells of the bottom row are marked. -/
structure Bottom (source : Nat → UInt8) (w h max x : Nat) (own : Pixel → Nat) (home : Nat → Nat) (s : Segmenter) : Prop where
  good : ∃ M, Good source w h max (image w h) (image w h) M (fun _ => False) own home s ∧
    ∀ p ∈ image w h, Edge w h p → (p.2 + 1 = h → p.1 < x ∨ p.1 = 0 ∨ p.2 = 0 ∨ p.1 + 1 = w) → p ∈ M
  current : ∀ i < w, s.currentRow i < s.regionRefCount ∧ home (s.currentRow i) = own (i, h - 1)

theorem Bottom.step (bottom : Bottom source w h max x own home s) (high : 0 < h) (inside : x < w) :
    ∃ s', Segmenter.bottomCell s x = .ok s' ∧ Bottom source w h max (x + 1) own home s' := by
  obtain ⟨M, good, marks⟩ := bottom.good
  obtain ⟨within, same⟩ := bottom.current x inside
  have member : (x, h - 1) ∈ image w h := ⟨inside, by show h - 1 < h; omega⟩
  obtain ⟨t, result, done, good, settled⟩ := good.resolve within same
  have first : Function.update t.currentRow x result x = result := Function.update_self _ _ _
  obtain ⟨R, rooted, good⟩ := (good.setCurrent x result).markRoot (settled.points.setCurrent x result) member
    (.inr (.inr (.inr (by show h - 1 + 1 = h; omega))))
  refine ⟨(t.setCurrent x result).setRegions R, ?_, ⟨⟨_, good, fun p inside edge known => ?_⟩, fun i within => ?_⟩⟩
  · unfold Segmenter.bottomCell Segmenter.resolveCurrent
    rw [done]
    show (t.setCurrent x result).markRoot (Function.update t.currentRow x result x) = _
    rw [first]
    exact rooted
  · by_cases self : p = (x, h - 1)
    · exact .inl self
    · refine .inr (marks p inside edge fun low => ?_)
      rcases known low with before | other
      · have differ : p.1 ≠ x := fun eq => self (Prod.ext eq (by show p.2 = h - 1; omega))
        exact .inl (by omega)
      · exact .inr other
  · show Function.update t.currentRow x result i < t.regionRefCount ∧ home (Function.update t.currentRow x result i) = own (i, h - 1)
    by_cases self : i = x
    · rw [self, first]
      exact ⟨settled.points.inside, settled.points.same⟩
    · rw [Function.update_of_ne self, settled.current, settled.count]
      exact bottom.current i within

theorem Stage.topLine (stage : Stage source w h max 1 0 own home s) (wide : 0 < w) (high : 0 < h)
    (binary : ∀ x < w, pixel source w (x, 0) = 0 ∨ pixel source w (x, 0) = 255) :
    ∃ s', (List.range' 1 (w - 1)).foldlM (Segmenter.topCell source) s = .ok s' ∧ ∃ own home, Row source w h max 0 own home s' := by
  obtain ⟨s', loop, own', home', ends⟩ := foldlM_range'_ok (a := 1) (n := w - 1) (f := Segmenter.topCell source)
    (I := fun x s => ∃ own home, Stage source w h max x 0 own home s)
    (fun x s lower upper ⟨own, home, stage⟩ => by
      obtain ⟨own', home', s', done, next⟩ := stage.topCell lower (by omega) high (binary x (by omega))
      exact ⟨s', done, own', home', next⟩) ⟨own, home, stage⟩
  rw [show 1 + (w - 1) = w by omega] at ends
  exact ⟨s', loop, own', home', ends.topRow⟩

theorem Row.lines (row : Row source w h max 0 own home s) (wide : 0 < w) (high : 0 < h)
    (binary : ∀ y < h, ∀ x < w, pixel source w (x, y) = 0 ∨ pixel source w (x, y) = 255) :
    ∃ s', (List.range' 1 (h - 1)).foldlM (Segmenter.line source) s = .ok s' ∧ ∃ own home, Row source w h max (h - 1) own home s' := by
  obtain ⟨s', loop, own', home', ends⟩ := foldlM_range'_ok (a := 1) (n := h - 1) (f := Segmenter.line source)
    (I := fun y s => ∃ own home, Row source w h max (y - 1) own home s)
    (fun y s lower upper ⟨own, home, row⟩ => by
      obtain ⟨y, rfl⟩ : ∃ k, y = k + 1 := ⟨y - 1, by omega⟩
      rw [Nat.add_sub_cancel] at row
      obtain ⟨own', home', s', done, next⟩ := row.line wide (by omega) (binary (y + 1) (by omega))
      exact ⟨s', done, own', home', next⟩) ⟨own, home, row⟩
  rw [show 1 + (h - 1) - 1 = h - 1 by omega] at ends
  exact ⟨s', loop, own', home', ends⟩

/-- After the last line only the bottom row is left, of which the corners are marked. -/
theorem Row.bottom (row : Row source w h max (h - 1) own home s) (high : 0 < h) : Bottom source w h max 0 own home s := by
  have good := row.good
  rw [show h - 1 + 1 = h by omega, seen_image] at good
  refine ⟨⟨_, good, fun p inside edge known => ⟨?_, ?_⟩⟩, row.current⟩
  · rw [seen_image]
    exact inside
  · rcases edge with left | upper | right | low
    · exact .inl left
    · exact .inr (.inl upper)
    · exact .inr (.inr ⟨right, inside.2⟩)
    · rcases known low with before | left | upper | right
      · exact absurd before (Nat.not_lt_zero _)
      · exact .inl left
      · exact .inr (.inl upper)
      · exact .inr (.inr ⟨right, inside.2⟩)

/-- All lines, in any image whose pixels are black or white. -/
theorem buildRegions_good (s : Segmenter) (source : Nat → UInt8) (wide : 0 < s.width) (high : 0 < s.height)
    (binary : ∀ i < s.width * s.height, source i = 0 ∨ source i = 255) :
    ∃ own home s' M, s.buildRegions source = .ok s' ∧
      Good source s.width s.height s.maxAdjacentRegions (image s.width s.height) (image s.width s.height) M (fun _ => False) own home s' ∧
      ∀ p ∈ image s.width s.height, Edge s.width s.height p → p ∈ M := by
  have pixels (y : Nat) (inside' : y < s.height) (x : Nat) (inside : x < s.width) :
      pixel source s.width (x, y) = 0 ∨ pixel source s.width (x, y) = 255 := by
    refine binary _ ?_
    have lines : (y + 1) * s.width ≤ s.height * s.width := Nat.mul_le_mul_right _ inside'
    rw [Nat.succ_mul] at lines
    rw [Nat.mul_comm s.width]
    show y * s.width + x < _
    omega
  obtain ⟨own₁, home₁, t, first, stage⟩ := topFirst_ok (s := { s with regionRefCount := 0, regionCount := 0, freed := [] }) wide high
    (binary 0 (Nat.mul_pos wide high)) rfl rfl rfl
  obtain ⟨u, top, own₂, home₂, row⟩ := stage.topLine wide high (pixels 0 high)
  obtain ⟨v, lines, own₃, home₃, row₃⟩ := row.lines wide high pixels
  obtain ⟨s', last, bottom⟩ := foldlM_range_ok (f := Segmenter.bottomCell) (n := s.width)
    (I := fun x t => Bottom source s.width s.height s.maxAdjacentRegions x own₃ home₃ t)
    (fun x t inside bottom => bottom.step high inside) (row₃.bottom high)
  obtain ⟨M, good, marks⟩ := bottom.good
  refine ⟨own₃, home₃, s', M, ?_, good, fun p inside edge => marks p inside edge fun _ => .inl inside.1⟩
  unfold Segmenter.buildRegions
  simp only
  rw [first]
  simp only [Except.bind]
  rw [show t.width = s.width from stage.good.width, top]
  simp only
  rw [show u.height = s.height from row.good.height, lines]
  simp only
  rw [show v.width = s.width from row₃.good.width, last]

/-! ### What the segmenter is for -/

/-- The regions in use are the connected parts of the image, one for each. -/
structure Parted (source : Nat → UInt8) (w h : Nat) (own : Pixel → Nat) (s : Segmenter) : Prop where
  used : ∀ r, r < s.regionCount ∧ (s.regions r).flags.free = false ↔ ∃ p ∈ image w h, own p = r
  joined : ∀ p ∈ image w h, ∀ q ∈ image w h, own p = own q ↔ Joined (pixel source w) (image w h) p q
  colour : ∀ p ∈ image w h, (s.regions (own p)).colour = pixel source w p

theorem Good.parted {M : Set Pixel} {E : Pixel → Prop} (good : Good source w h max (image w h) (image w h) M E own home s) :
    Parted source w h own s := by
  have drawn := good.drawn
  have stored := good.stored
  refine ⟨fun r => ⟨fun ⟨below, used⟩ => ?_, fun alive => ⟨stored.below r alive, ?_⟩⟩,
    fun p inside q inside' => ⟨drawn.joined p inside q inside', fun joined => ?_⟩, drawn.colour⟩
  · rcases stored.all r below with alive | freed
    · exact alive
    · rw [(stored.free r below).mpr freed] at used
      cases used
  · exact Bool.eq_false_iff.mpr fun flag => stored.apart r ((stored.free r (stored.below r alive)).mp flag) alive
  · induction joined with
    | refl => rfl
    | tail _ step ih =>
      obtain ⟨first, second, near, same⟩ := step
      exact (ih first).trans (drawn.merged _ first _ second near same)

/-- The bounds and flags of a region tell where its part is. -/
structure Framed (w h : Nat) (own : Pixel → Nat) (s : Segmenter) : Prop where
  root : ∀ p ∈ image w h, (s.regions (own p)).flags.adjacentToRoot = true ↔ ∃ q ∈ image w h, own q = own p ∧ Edge w h q
  left : ∀ p ∈ image w h, IsLeast {x : Int | ∃ q ∈ image w h, own q = own p ∧ x = q.1} (s.regions (own p)).left
  top : ∀ p ∈ image w h, IsLeast {y : Int | ∃ q ∈ image w h, own q = own p ∧ y = q.2} (s.regions (own p)).top
  right : ∀ p ∈ image w h, (s.regions (own p)).flags.adjacentToRoot = false →
    IsGreatest {x : Int | ∃ q ∈ image w h, own q = own p ∧ x = q.1} (s.regions (own p)).right
  bottom : ∀ p ∈ image w h, (s.regions (own p)).flags.adjacentToRoot = false →
    IsGreatest {y : Int | ∃ q ∈ image w h, own q = own p ∧ y = q.2} (s.regions (own p)).bottom

theorem Good.framed {M : Set Pixel} (good : Good source w h max (image w h) (image w h) M (fun _ => False) own home s)
    (marks : ∀ p ∈ image w h, Edge w h p → p ∈ M) (wide : w ≤ 32768) (high : h ≤ 32768) : Framed w h own s := by
  have drawn := good.drawn
  have bounded := good.bounded wide high
  have lower {f : Region → Int} {g : Pixel → Nat} (all : ∀ q ∈ image w h, f (s.regions (own q)) ≤ g q)
      (found : ∀ r, Live (image w h) own r → ∃ q ∈ image w h, own q = r ∧ f (s.regions r) = g q) (p : Pixel) (inside : p ∈ image w h) :
      IsLeast {x : Int | ∃ q ∈ image w h, own q = own p ∧ x = g q} (f (s.regions (own p))) := by
    refine ⟨found _ ⟨p, inside, rfl⟩, ?_⟩
    rintro x ⟨q, member, same, rfl⟩
    rw [← same]
    exact all q member
  have upper {f : Region → Int} {g : Pixel → Nat} (found : ∀ r, Live (image w h) own r → ∃ q ∈ image w h, own q = r ∧ f (s.regions r) = g q)
      (p : Pixel) (inside : p ∈ image w h) (all : ∀ q ∈ image w h, own q = own p → g q ≤ f (s.regions (own q))) :
      IsGreatest {x : Int | ∃ q ∈ image w h, own q = own p ∧ x = g q} (f (s.regions (own p))) := by
    refine ⟨found _ ⟨p, inside, rfl⟩, ?_⟩
    rintro x ⟨q, member, same, rfl⟩
    rw [← same]
    exact all q member same
  refine ⟨fun p inside => ⟨fun flag => drawn.border _ (drawn.alive inside) flag, ?_⟩, lower bounded.left bounded.leftmost,
    lower bounded.top bounded.topmost, fun p inside free => upper bounded.rightmost p inside fun q member same => ?_,
    fun p inside free => upper bounded.lowest p inside fun q member same => ?_⟩
  · rintro ⟨q, member, same, edge⟩
    rw [← same]
    exact drawn.marked q (marks q member edge)
  · rcases bounded.right q member with bound | flag | out
    · exact bound
    · rw [same, free] at flag
      cases flag
    · exact out.elim
  · rcases bounded.bottom q member with bound | flag
    · exact bound
    · rw [same, free] at flag
      cases flag

/-- Where the image is not wider or higher than a `short` can tell, a region that is not adjacent to the root has the exact bounds of its part. -/
theorem buildRegions_frames (s : Segmenter) (source : Nat → UInt8) (wide : 0 < s.width) (high : 0 < s.height)
    (narrow : s.width ≤ 32768) (flat : s.height ≤ 32768) (binary : ∀ i < s.width * s.height, source i = 0 ∨ source i = 255) :
    ∃ s' own, s.buildRegions source = .ok s' ∧ Parted source s.width s.height own s' ∧ Framed s.width s.height own s' := by
  obtain ⟨own, home, s', M, done, good, marks⟩ := buildRegions_good s source wide high binary
  exact ⟨s', own, done, good.parted, good.framed marks narrow flat⟩

/-- Two black pixels, each at a corner of the other, part a white one from the rest until the end of the last line. -/
def steps (i : Nat) : UInt8 := if i = 6 ∨ i = 9 then 0 else 255

theorem buildRegions_frames_steps : ∃ s' own, (Segmenter.allocate 4 3 3).buildRegions steps = .ok s' ∧
    Parted steps 4 3 own s' ∧ Framed 4 3 own s' :=
  buildRegions_frames (.allocate 4 3 3) steps (by decide) (by decide) (by decide) (by decide) (by decide +kernel)

/-- The lists of adjacent regions are mutual, as long as they may be, and complete but for what saturation has cost. -/
structure Listed (source : Nat → UInt8) (w h max : Nat) (own : Pixel → Nat) (s : Segmenter) : Prop where
  both : ∀ p ∈ image w h, ∀ q ∈ image w h,
    (s.regions (own p)).adjacentRegions.count (own q) = (s.regions (own q)).adjacentRegions.count (own p)
  room : ∀ p ∈ image w h, (s.regions (own p)).adjacentRegions.length ≤ max
  sound : ∀ p ∈ image w h, ∀ r ∈ (s.regions (own p)).adjacentRegions,
    ∃ a ∈ image w h, ∃ b ∈ image w h, Near a b ∧ own a = own p ∧ own b = r ∧ pixel source w a ≠ pixel source w b
  complete : ∀ p ∈ image w h, ∀ q ∈ image w h, Near p q → pixel source w p ≠ pixel source w q → Tied s.regions (own p) (own q)

theorem Good.listed {M : Set Pixel} {E : Pixel → Prop} (good : Good source w h max (image w h) (image w h) M E own home s) :
    Listed source w h max own s := by
  have drawn := good.drawn
  have linked := drawn.linked
  refine ⟨fun p inside q inside' => linked.both _ _ (drawn.alive inside) (drawn.alive inside'), fun p inside => linked.room _ (drawn.alive inside),
    fun p inside r listed => ?_, drawn.complete⟩
  obtain ⟨a, member, b, member', near, first, second⟩ := drawn.near _ r (drawn.alive inside) listed
  refine ⟨a, member, b, member', near, first, second, ?_⟩
  rw [← drawn.colour a member, ← drawn.colour b member', first, second]
  exact linked.other _ r (drawn.alive inside) listed

theorem buildRegions_lists (s : Segmenter) (source : Nat → UInt8) (wide : 0 < s.width) (high : 0 < s.height)
    (binary : ∀ i < s.width * s.height, source i = 0 ∨ source i = 255) :
    ∃ s' own, s.buildRegions source = .ok s' ∧ Parted source s.width s.height own s' ∧
      Listed source s.width s.height s.maxAdjacentRegions own s' := by
  obtain ⟨own, home, s', M, done, good, _⟩ := buildRegions_good s source wide high binary
  exact ⟨s', own, done, good.parted, good.listed⟩

theorem buildRegions_lists_steps : ∃ s' own, (Segmenter.allocate 4 3 3).buildRegions steps = .ok s' ∧
    Parted steps 4 3 own s' ∧ Listed steps 4 3 3 own s' :=
  buildRegions_lists (.allocate 4 3 3) steps (by decide) (by decide) (by decide +kernel)

/-- The second black pixel is in the list of the white region twice, for `merge_regions` has passed over it. -/
example : ((Segmenter.allocate 4 3 3).buildRegions steps).map (fun s => ((s.regions 0).adjacentRegions, (s.regions 2).adjacentRegions)) =
    .ok ([1, 2, 2], [0, 0]) := by decide +kernel

end Movid.Fiducial
