import Movid.Fiducial.Bounds
import Movid.Fiducial.Stored

/-!
# The steps of the segmenter

Each of them is described by what it makes of the cells, and keeps what is known of the references and regions.
-/

namespace Movid.Fiducial

open Failing

/-- The colour of a pixel of an image of width `w`. -/
def pixel (source : Nat → UInt8) (w : Nat) (p : Pixel) : UInt8 := source (p.2 * w + p.1)

variable {source : Nat → UInt8} {w h max : Nat} {S K M : Set Pixel} {E E' : Pixel → Prop} {own : Pixel → Nat} {home : Nat → Nat}
  {s : Segmenter}

structure Good (source : Nat → UInt8) (w h max : Nat) (S K M : Set Pixel) (E : Pixel → Prop) (own : Pixel → Nat) (home : Nat → Nat)
    (s : Segmenter) : Prop where
  width : s.width = w
  height : s.height = h
  room : s.maxAdjacentRegions = max
  stored : Stored S own home s
  drawn : Drawn (pixel source w) w h max S K M own s.regions
  bounded : w ≤ 32768 → h ≤ 32768 → Bounded S E own s.regions

theorem Good.weaken (E' : Pixel → Prop) (good : Good source w h max S K M E own home s)
    (more : ∀ p ∈ S, E p → (s.regions (own p)).flags.adjacentToRoot = true ∨ E' p) : Good source w h max S K M E' own home s :=
  { good with bounded := fun wide high => (good.bounded wide high).weaken E' more }

/-- The pointer may be followed to the region of the pixel. -/
structure Points (own : Pixel → Nat) (home : Nat → Nat) (s : Segmenter) (ref : Nat) (p : Pixel) : Prop where
  inside : ref < s.regionRefCount
  root : s.redirect ref = ref
  same : home ref = own p

theorem Good.regionOf (good : Good source w h max S K M E own home s) {ref : Nat} {p : Pixel} (points : Points own home s ref p) :
    s.regionOf ref = .ok (own p) := by
  rw [good.stored.regionOf points.inside points.root, points.same]

/-! ### Regions of pixels -/

theorem Good.setCurrent (good : Good source w h max S K M E own home s) (x ref : Nat) :
    Good source w h max S K M E own home (s.setCurrent x ref) := { good with stored := good.stored.setCurrent x ref }

/-- A pixel on an edge of the image. -/
theorem Good.markRoot (good : Good source w h max S K M E own home s) {ref : Nat} {p : Pixel} (points : Points own home s ref p)
    (member : p ∈ S) (edge : Edge w h p) : ∃ R, s.markRoot ref = .ok (s.setRegions R) ∧
      Good source w h max S K (insert p M) E own home (s.setRegions R) := by
  obtain ⟨R, marked⟩ : ∃ R, R = s.regions.setFlags (own p) { (s.regions (own p)).flags with adjacentToRoot := true } := ⟨_, rfl⟩
  have fresh : R (own p) = { s.regions (own p) with flags := { (s.regions (own p)).flags with adjacentToRoot := true } } := by
    rw [marked]
    exact Function.update_self _ _ _
  have others {x : Nat} (other : x ≠ own p) : R x = s.regions x := by
    rw [marked]
    exact Function.update_of_ne other _ _
  have kept {α : Type} (f : Region → α) (same : f (R (own p)) = f (s.regions (own p))) (x : Nat) : f (R x) = f (s.regions x) := by
    rw [marked] at same ⊢
    exact Regions.update_field f ((congrArg f (Function.update_self _ _ _)).symm.trans same) x
  have rooted (x : Nat) : (R x).flags.adjacentToRoot = true ↔ x = own p ∨ (s.regions x).flags.adjacentToRoot = true := by
    by_cases self : x = own p
    · rw [self, fresh]
      exact ⟨fun _ => .inl rfl, fun _ => rfl⟩
    · rw [others self]
      exact (or_iff_right self).symm
  have lists := kept Region.adjacentRegions (by rw [fresh])
  have colours := kept Region.colour (by rw [fresh])
  have full := kept (fun r => r.flags.saturated) (by rw [fresh])
  have lost := kept (fun r => r.flags.fragmented) (by rw [fresh])
  have free := kept (fun r => r.flags.free) (by rw [fresh])
  have ties (a b : Nat) (tied : Tied s.regions a b) : Tied R a b := by
    unfold Tied at tied ⊢
    rwa [lists, full, full, lost, lost]
  have drawn := good.drawn
  have linked := drawn.linked
  refine ⟨R, ?_, ⟨good.width, good.height, good.room, good.stored.setRegions fun r _ => free r, ?_, fun wide high => ?_⟩⟩
  · unfold Segmenter.markRoot
    rw [good.regionOf points, marked]
    rfl
  · refine { drawn with
      marks := Set.insert_subset member drawn.marks
      colour := fun q inside => (colours _).trans (drawn.colour q inside)
      linked := ⟨fun a b => ?_, fun a b => ?_, fun a b => ?_, fun a => ?_, fun a => ?_⟩
      near := fun a b alive listed => drawn.near a b alive (lists a ▸ listed)
      border := fun r alive flag => ?_
      complete := fun a first b second near differ => ties _ _ (drawn.complete a first b second near differ)
      marked := fun q marked => ?_ }
    · show Live S own a → Live S own b → (R a).adjacentRegions.count b = (R b).adjacentRegions.count a
      rw [lists, lists]
      exact linked.both a b
    · show Live S own a → b ∈ (R a).adjacentRegions → _
      rw [lists]
      exact linked.inside a b
    · show Live S own a → b ∈ (R a).adjacentRegions → (R a).colour ≠ (R b).colour
      rw [lists, colours, colours]
      exact linked.other a b
    · show Live S own a → (R a).adjacentRegions.length ≤ max
      rw [lists]
      exact linked.room a
    · show Live S own a → (R a).flags.saturated = true → (R a).adjacentRegions = []
      rw [lists, show (R a).flags.saturated = (s.regions a).flags.saturated from full a]
      exact linked.full a
    · rcases (rooted r).mp flag with rfl | flag
      · exact ⟨p, member, rfl, edge⟩
      · exact drawn.border r alive flag
    · rcases marked with rfl | marked
      · exact (rooted _).mpr (.inl rfl)
      · exact (rooted _).mpr (.inr (drawn.marked q marked))
  · exact (good.bounded wide high).congr _ (fun r _ => kept Region.left (by rw [fresh]) r) (fun r _ => kept Region.top (by rw [fresh]) r)
      (fun r _ => kept Region.right (by rw [fresh]) r) (fun r _ => kept Region.bottom (by rw [fresh]) r)
      fun r _ flag => (rooted r).mpr (.inr flag)

/-- The regions of two neighbours with different colours. -/
theorem Good.makeAdjacent (good : Good source w h max S K M E own home s) {ref ref' : Nat} {p q : Pixel}
    (points : Points own home s ref p) (points' : Points own home s ref' q) (member : p ∈ S) (member' : q ∈ S) (near : Near p q)
    (differ : pixel source w p ≠ pixel source w q) : ∃ R, s.makeAdjacent ref ref' = .ok (s.setRegions R) ∧
      Good source w h max S K M E own home (s.setRegions R) ∧ Tied R (own p) (own q) ∧
      ∀ a b, Live S own a → Live S own b → Tied s.regions a b → Tied R a b := by
  have drawn := good.drawn
  have colours : (s.regions (own p)).colour ≠ (s.regions (own q)).colour := by rwa [drawn.colour p member, drawn.colour q member']
  obtain ⟨R, done, kept, tied⟩ := makeAdjacent_ok drawn.linked (drawn.alive member) (drawn.alive member') colours
  refine ⟨R, ?_, ⟨good.width, good.height, good.room, good.stored.setRegions fun r _ => free_eq (kept.outline r), drawn.tie kept ?_,
    fun wide high => (good.bounded wide high).outline kept.outline⟩, tied, kept.ties⟩
  · unfold Segmenter.makeAdjacent
    rw [good.regionOf points, good.regionOf points', good.room]
    show (s.regions.makeAdjacent max (own p) (own q)).map s.setRegions = _
    rw [done]
    rfl
  · rintro a b (⟨rfl, rfl⟩ | ⟨rfl, rfl⟩)
    · exact ⟨p, member, q, member', near, rfl, rfl⟩
    · exact ⟨q, member', p, member, near.symm, rfl, rfl⟩

theorem Good.close (good : Good source w h max S K M E own home s) {p : Pixel} (member : p ∈ S)
    (same : ∀ q ∈ K, Near p q → pixel source w p = pixel source w q → own p = own q)
    (differ : ∀ q ∈ K, Near p q → pixel source w p ≠ pixel source w q → Tied s.regions (own p) (own q)) :
    Good source w h max S (insert p K) M E own home s := { good with drawn := good.drawn.close member same differ }

theorem Good.mark (good : Good source w h max S K M E own home s) {p q : Pixel} (member : p ∈ S) (same : own p = own q) (marked : q ∈ M) :
    Good source w h max S K (insert p M) E own home s :=
  { good with drawn := good.drawn.mark member (same ▸ good.drawn.marked q marked) }

/-! ### References -/

/-- A reference is resolved in either row. -/
structure Settled (s s' : Segmenter) (ref result : Nat) (own : Pixel → Nat) (home : Nat → Nat) (p : Pixel) : Prop where
  points : Points own home s' result p
  roots : ∀ j, s.redirect j = j → s'.redirect j = j
  count : s'.regionRefCount = s.regionRefCount
  regions : s'.regions = s.regions
  width : s'.width = s.width
  current : s'.currentRow = s.currentRow
  previous : s'.previousRow = s.previousRow

theorem Good.resolve (good : Good source w h max S K M E own home s) {ref : Nat} {p : Pixel} (inside : ref < s.regionRefCount)
    (same : home ref = own p) : ∃ s' result, s.resolve ref = .ok (s', result) ∧ Good source w h max S K M E own home s' ∧
      Settled s s' ref result own home p := by
  obtain ⟨s', result, done, resolved⟩ := good.stored.resolve inside
  obtain ⟨stored, within, root, label, roots, rest⟩ := resolved
  have count : s'.regionRefCount = s.regionRefCount := by rw [rest]
  have regions : s'.regions = s.regions := by rw [rest]
  have width : s'.width = s.width := by rw [rest]
  refine ⟨s', result, done, ⟨width.trans good.width, ?_, ?_, stored, regions ▸ good.drawn, regions ▸ good.bounded⟩,
    ⟨⟨count ▸ within, root, label.trans same⟩, roots, count, regions, width, by rw [rest], by rw [rest]⟩⟩
  · rw [rest]
    exact good.height
  · rw [rest]
    exact good.room

/-! ### Pixels -/

/-- The cell of the pixel gets a reference to a region of its own. -/
structure Begun (s s' : Segmenter) (x : Nat) : Prop where
  count : s'.regionRefCount = s.regionRefCount + 1
  root : s'.redirect s.regionRefCount = s.regionRefCount
  roots : ∀ j < s.regionRefCount, s'.redirect j = s.redirect j
  current : s'.currentRow = Function.update s.currentRow x s.regionRefCount
  previous : s'.previousRow = s.previousRow

theorem Good.startCell (good : Good source w h max S K M E own home s) {x y : Nat} (inside : x < w) (inside' : y < h) (outside : (x, y) ∉ S)
    (binary : pixel source w (x, y) = 0 ∨ pixel source w (x, y) = 255) (room : s.regionRefCount < w * h) :
    ∃ r s', s.startCell source x y = .ok s' ∧ Begun s s' x ∧
      Good source w h max (insert (x, y) S) K M E (Function.update own (x, y) r) (Function.update home s.regionRefCount r) s' := by
  obtain ⟨r, s', done, started⟩ := good.stored.newRegion outside binary (by rwa [good.width, good.height])
  obtain ⟨stored, new, regions, count, root, roots, rest⟩ := started
  have width : s'.width = w := by
    rw [rest]
    exact good.width
  refine ⟨r, s'.setCurrent x s.regionRefCount, ?_, ⟨count, root, roots, ?_, ?_⟩, ⟨width, ?_, ?_, stored.setCurrent _ _, ?_,
    fun wide high => ?_⟩⟩
  · unfold Segmenter.startCell
    rw [show source (y * s.width + x) = pixel source w (x, y) by rw [good.width]; rfl]
    show (s.newRegion (x, y).1 (x, y).2 _).map _ = _
    rw [done]
    rfl
  · show Function.update s'.currentRow x s.regionRefCount = _
    rw [rest]
  · show s'.previousRow = _
    rw [rest]
  · show s'.height = h
    rw [rest]
    exact good.height
  · show s'.maxAdjacentRegions = max
    rw [rest]
    exact good.room
  · show Drawn _ _ _ _ _ _ _ _ s'.regions
    rw [regions]
    exact good.drawn.start outside new binary x y
  · show Bounded _ _ _ s'.regions
    rw [regions]
    exact (good.bounded wide high).start outside new _ (Nat.lt_of_lt_of_le inside wide) (Nat.lt_of_lt_of_le inside' high)

/-- The pixel gets the region of a neighbour. -/
theorem Good.join (good : Good source w h max S K M E own home s) {p q : Pixel} (outside : p ∉ S) (member : q ∈ S) (near : Near p q)
    (same : pixel source w p = pixel source w q) (right : q.1 ≤ p.1) (below : q.2 ≤ p.2) (last : E p)
    (deep : w ≤ 32768 → h ≤ 32768 → p.2 ≤ (s.regions (own q)).bottom ∨ (s.regions (own q)).flags.adjacentToRoot = true) :
    Good source w h max (insert p S) K M E (Function.update own p (own q)) home s where
  width := good.width
  height := good.height
  room := good.room
  stored := good.stored.own_congr fun r => (live_update own outside r).trans (or_iff_right_of_imp fun eq => ⟨q, member, eq.symm⟩)
  drawn := good.drawn.join outside member near same
  bounded wide high := (good.bounded wide high).join outside member right below last (deep wide high)

/-- The pixel gets the region of the one above it, the lower bound of which follows. -/
theorem Good.joinBelow (good : Good source w h max S K M E own home s) {p q : Pixel} (outside : p ∉ S) (member : q ∈ S) (near : Near p q)
    (same : pixel source w p = pixel source w q) (right : q.1 ≤ p.1) (below : ∀ a ∈ S, a.2 ≤ p.2) (last : E p) (inside : p.2 < h) :
    Good source w h max (insert p S) K M E (Function.update own p (own q)) home (s.deepen (own q) p.2) := by
  refine ⟨good.width, good.height, good.room, ?_, ?_, fun wide high => ?_⟩
  · exact (good.stored.own_congr fun r => (live_update own outside r).trans (or_iff_right_of_imp fun eq => ⟨q, member, eq.symm⟩)).setRegions
      fun r _ => Regions.update_field (fun region => region.flags.free) (by rfl) r
  · exact (good.drawn.join outside member near same).congr _ (fun r _ => Regions.update_field Region.adjacentRegions (by rfl) r)
      (fun r _ => Regions.update_field Region.colour (by rfl) r) fun r _ => Regions.update_field Region.flags (by rfl) r
  · exact (good.bounded wide high).joinBelow outside member right below last (Nat.lt_of_lt_of_le inside high)

theorem Good.widen (good : Good source w h max S K M E own home s) {p : Pixel} (member : p ∈ S) (inside : p.1 < w)
    (ends : ∀ q ∈ S, E q → own q = own p ∧ q.1 ≤ p.1) : ∃ R, s.widen (own p) p.1 = s.setRegions R ∧
      Good source w h max S K M (fun _ => False) own home (s.setRegions R) := by
  obtain ⟨R, changed⟩ : ∃ R, R = if (s.regions (own p)).right < p.1 then
      Function.update s.regions (own p) { s.regions (own p) with right := short p.1 } else s.regions := ⟨_, rfl⟩
  have kept {α : Type} (f : Region → α) (same : f { s.regions (own p) with right := short p.1 } = f (s.regions (own p))) (x : Nat) :
      f (R x) = f (s.regions x) := by
    rw [changed]
    split
    · exact Regions.update_field f same x
    · rfl
  refine ⟨R, ?_, ⟨good.width, good.height, good.room, good.stored.setRegions fun r _ => kept (fun r => r.flags.free) rfl r,
    good.drawn.congr _ (fun r _ => kept Region.adjacentRegions rfl r) (fun r _ => kept Region.colour rfl r) (fun r _ => kept Region.flags rfl r),
    fun wide high => ?_⟩⟩
  · unfold Segmenter.widen
    rw [changed]
    split <;> rfl
  · show Bounded S _ own R
    rw [changed]
    exact (good.bounded wide high).widen member (Nat.lt_of_lt_of_le inside wide) ends

/-- The current cell gives its region up to the cell above. -/
theorem Good.mergeCell (good : Good source w h max S K M E own home s) {x : Nat} {p n : Pixel} (points : Points own home s (s.currentRow x) p)
    (points' : Points own home s (s.previousRow x) n) (member : p ∈ S) (member' : n ∈ S) (near : Near p n)
    (same : pixel source w p = pixel source w n) (apart : own n ≠ own p) : ∃ s', s.mergeCell x = .ok s' ∧
      Good source w h max S K M E (remap own (own n) (own p)) (fun j => if home j = own p then own n else home j) s' ∧
      s'.redirect = Function.update s.redirect (s.currentRow x) (s.previousRow x) ∧ s'.regionRefCount = s.regionRefCount ∧
      s'.currentRow = Function.update s.currentRow x (s.previousRow x) ∧ s'.previousRow = s.previousRow := by
  have drawn := good.drawn
  have alive := drawn.alive member
  have alive' := drawn.alive member'
  have colours : (s.regions (own n)).colour = (s.regions (own p)).colour := by rw [drawn.colour p member, drawn.colour n member', same]
  obtain ⟨R, done, merged⟩ := mergeRegions_ok drawn.linked apart alive' alive colours
  have free (r : Nat) : (R r).flags.free = (s.regions.absorb (own n) (own p) r).flags.free := free_eq (merged.outline r)
  have unfreed {r : Nat} (live : Live S own r) : (s.regions r).flags.free = false :=
    Bool.eq_false_iff.mpr fun flag => good.stored.apart r ((good.stored.free r (good.stored.below r live)).mp flag) live
  have frees (r : Nat) : (R r).flags.free = (s.regions r).flags.free := by
    rw [free]
    unfold Regions.absorb
    by_cases self : r = own n
    · rw [self, Function.update_self]
      show ((s.regions (own n)).flags.free || (s.regions (own p)).flags.free) = _
      rw [unfreed alive, unfreed alive']
      rfl
    · rw [Function.update_of_ne self]
  have live := live_remap own apart alive'
  have untouched {r : Nat} (own' : Live S (remap own (own n) (own p)) r) :
      R.setFlags (own p) { Flags.none with free := true } r = R r := Function.update_of_ne ((live r).mp own').2 _ _
  have stored := good.stored.merge points.inside points'.inside points.root points'.root (by rwa [points.same, points'.same])
    (fun r _ => frees r) x
  rw [points.same, points'.same] at stored
  refine ⟨{ s with
      regions := R.setFlags (own p) { Flags.none with free := true }
      freed := own p :: s.freed
      region := Function.update s.region (s.currentRow x) none
      redirect := Function.update s.redirect (s.currentRow x) (s.previousRow x)
      currentRow := Function.update s.currentRow x (s.previousRow x) }, ?_,
    ⟨good.width, good.height, good.room, stored, ?_, fun wide high => ?_⟩, rfl, rfl, rfl, rfl⟩
  · unfold Segmenter.mergeCell
    rw [good.regionOf points, good.regionOf points', good.room]
    show (s.regions.mergeRegions max (own n) (own p)).map _ = _
    rw [done]
    rfl
  · exact (drawn.merge member member' near same apart merged).congr _ (fun r own' => congrArg Region.adjacentRegions (untouched own'))
      (fun r own' => congrArg Region.colour (untouched own')) fun r own' => congrArg Region.flags (untouched own')
  · exact ((good.bounded wide high).merge apart alive' alive merged.outline).congr _
      (fun r own' => congrArg Region.left (untouched own')) (fun r own' => congrArg Region.top (untouched own'))
      (fun r own' => congrArg Region.right (untouched own')) (fun r own' => congrArg Region.bottom (untouched own'))
      fun r own' flag => (congrArg (fun r => r.flags.adjacentToRoot) (untouched own')).trans flag

end Movid.Fiducial
