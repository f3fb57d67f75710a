import Movid.Fiducial.Pixels

/-!
# References and regions

Each reference leads to one that has the region of its pixels, and a region below the count either belongs to pixels or is on the list of freed
ones.
-/

namespace Movid.Fiducial

variable {pix : Pixel → UInt8} {w h max : Nat} {S K M : Set Pixel} {own : Pixel → Nat} {home : Nat → Nat} {s : Segmenter}

structure Stored (S : Set Pixel) (own : Pixel → Nat) (home : Nat → Nat) (s : Segmenter) : Prop where
  forest : Redirect.Forest s.regionRefCount s.redirect home
  holds : ∀ j < s.regionRefCount, s.redirect j = j → s.region j = some (home j)
  named : ∀ j < s.regionRefCount, Live S own (home j)
  below : ∀ r, Live S own r → r < s.regionCount
  freedBelow : ∀ r ∈ s.freed, r < s.regionCount
  apart : ∀ r ∈ s.freed, ¬ Live S own r
  nodup : s.freed.Nodup
  all : ∀ r < s.regionCount, Live S own r ∨ r ∈ s.freed
  free : ∀ r < s.regionCount, (s.regions r).flags.free = true ↔ r ∈ s.freed
  few : s.regionCount ≤ s.regionRefCount

theorem Stored.empty (refs : s.regionRefCount = 0) (regions : s.regionCount = 0) (freed : s.freed = []) : Stored ∅ own home s where
  forest := by
    rw [refs]
    exact .empty
  holds j inside := absurd (refs ▸ inside) (Nat.not_lt_zero j)
  named j inside := absurd (refs ▸ inside) (Nat.not_lt_zero j)
  below r alive := absurd alive (not_live_empty own r)
  freedBelow r listed := absurd (freed ▸ listed) List.not_mem_nil
  apart r _ := not_live_empty own r
  nodup := by
    rw [freed]
    exact List.nodup_nil
  all r below := absurd (regions ▸ below) (Nat.not_lt_zero r)
  free r below := absurd (regions ▸ below) (Nat.not_lt_zero r)
  few := by
    rw [regions]
    exact Nat.zero_le _

theorem Stored.regionOf (stored : Stored S own home s) {ref : Nat} (inside : ref < s.regionRefCount) (root : s.redirect ref = ref) :
    s.regionOf ref = .ok (home ref) := by
  unfold Segmenter.regionOf
  rw [stored.holds ref inside root]

theorem Stored.setRegions (stored : Stored S own home s) {R : Regions} (same : ∀ r < s.regionCount, (R r).flags.free = (s.regions r).flags.free) :
    Stored S own home (s.setRegions R) :=
  { stored with free := fun r below => (iff_of_eq (congrArg (· = true) (same r below))).trans (stored.free r below) }

theorem Stored.setCurrent (stored : Stored S own home s) (x ref : Nat) : Stored S own home (s.setCurrent x ref) := { stored with }

theorem Stored.own_congr {S' : Set Pixel} {own' : Pixel → Nat} (stored : Stored S own home s) (live : ∀ r, Live S' own' r ↔ Live S own r) :
    Stored S' own' home s :=
  { stored with
    named := fun j inside => (live _).mpr (stored.named j inside)
    below := fun r alive => stored.below r ((live r).mp alive)
    apart := fun r member alive => stored.apart r member ((live r).mp alive)
    all := fun r below => (stored.all r below).imp_left (live r).mpr }

/-- The state after `RESOLVE_REGIONREF_REDIRECTS`, which has found the end for the reference. -/
structure Resolved (S : Set Pixel) (own : Pixel → Nat) (home : Nat → Nat) (s : Segmenter) (ref : Nat) (s' : Segmenter) (result : Nat) :
    Prop where
  stored : Stored S own home s'
  inside : result < s.regionRefCount
  root : s'.redirect result = result
  same : home result = home ref
  roots : ∀ j, s.redirect j = j → s'.redirect j = j
  rest : s' = { s with redirect := s'.redirect }

theorem Stored.resolve (stored : Stored S own home s) {ref : Nat} (inside : ref < s.regionRefCount) :
    ∃ s' result, s.resolve ref = .ok (s', result) ∧ Resolved S own home s ref s' result := by
  unfold Segmenter.resolve
  by_cases root : s.redirect ref = ref
  · exact ⟨s, ref, if_pos root, stored, inside, root, rfl, fun _ same => same, rfl⟩
  · rw [if_neg root]
    obtain ⟨e, within, reached, fixed, label⟩ := stored.forest.follow_ends (stored.forest.inside ref inside)
    have same : home e = home ref := label.trans (stored.forest.keeps ref inside)
    have other : e ≠ ref := fun eq => root (eq ▸ fixed)
    rw [reached]
    refine ⟨{ s with redirect := Function.update s.redirect ref e }, e, rfl,
      { stored with forest := stored.forest.compress inside within fixed same, holds := fun j below ends => stored.holds j below ?_ },
      within, ?_, same, fun j ends => ?_, rfl⟩
    · by_cases self : j = ref
      · rw [self] at ends
        exact absurd ((Function.update_self _ _ _).symm.trans ends) other
      · exact (Function.update_of_ne self _ _).symm.trans ends
    · exact (Function.update_of_ne other _ _).trans fixed
    · have self : j ≠ ref := fun eq => root (eq ▸ ends)
      exact (Function.update_of_ne self _ _).trans ends

/-! ### New regions -/

/-- What `new_region` has done for the pixel `p`. -/
structure Started (S : Set Pixel) (own : Pixel → Nat) (home : Nat → Nat) (s : Segmenter) (p : Pixel) (colour : UInt8) (r : Nat)
    (s' : Segmenter) : Prop where
  stored : Stored (insert p S) (Function.update own p r) (Function.update home s.regionRefCount r) s'
  new : ¬ Live S own r
  regions : s'.regions = Function.update s.regions r (.start p.1 p.2 colour)
  count : s'.regionRefCount = s.regionRefCount + 1
  root : s'.redirect s.regionRefCount = s.regionRefCount
  roots : ∀ j < s.regionRefCount, s'.redirect j = s.redirect j
  rest : s' = { s with
    redirect := s'.redirect, region := s'.region, regionRefCount := s'.regionRefCount, regions := s'.regions, regionCount := s'.regionCount,
    freed := s'.freed }

theorem Stored.newRegion (stored : Stored S own home s) {p : Pixel} {colour : UInt8} (outside : p ∉ S) (binary : colour = 0 ∨ colour = 255)
    (room : s.regionRefCount < s.width * s.height) :
    ∃ r s', s.newRegion p.1 p.2 colour = .ok (s', s.regionRefCount) ∧ Started S own home s p colour r s' := by
  have fine : ¬ (colour ≠ 0 ∧ colour ≠ 255) := by tauto
  have few := stored.few
  have cells (r : Nat) (within : r < s.regionRefCount + 1) : r < s.regionRefCount ∨ r = s.regionRefCount := by omega
  have forest {r : Nat} (new : ¬ Live S own r) := stored.forest.add (l := r) fun i inside same => new (same ▸ stored.named i inside)
  have live {r : Nat} := live_update own (r := r) outside
  have holds {r : Nat} : ∀ j < s.regionRefCount + 1, Function.update s.redirect s.regionRefCount s.regionRefCount j = j →
      Function.update s.region s.regionRefCount (some r) j = some (Function.update home s.regionRefCount r j) := by
    intro j within ends
    rcases cells j within with below | rfl
    · rw [Function.update_of_ne (Nat.ne_of_lt below)] at ends
      rw [Function.update_of_ne (Nat.ne_of_lt below), Function.update_of_ne (Nat.ne_of_lt below)]
      exact stored.holds j below ends
    · rw [Function.update_self, Function.update_self]
  have named {r : Nat} : ∀ j < s.regionRefCount + 1, Live (insert p S) (Function.update own p r) (Function.update home s.regionRefCount r j) := by
    intro j within
    rcases cells j within with below | rfl
    · rw [Function.update_of_ne (Nat.ne_of_lt below)]
      exact (live _).mpr (.inr (stored.named j below))
    · rw [Function.update_self]
      exact (live _).mpr (.inl rfl)
  have roots : ∀ j < s.regionRefCount, Function.update s.redirect s.regionRefCount s.regionRefCount j = s.redirect j :=
    fun j below => Function.update_of_ne (Nat.ne_of_lt below) _ _
  unfold Segmenter.newRegion
  cases freed : s.freed with
  | nil =>
    have new : ¬ Live S own s.regionCount := fun alive => Nat.lt_irrefl _ (stored.below _ alive)
    have none (r : Nat) : r ∉ s.freed := by simp [freed]
    simp only [List.headD_nil, List.tail_nil, if_true]
    rw [if_neg fine, if_neg (by omega)]
    refine ⟨s.regionCount, _, rfl, ⟨forest new, holds, named, fun r alive => ?_, fun r member => absurd member List.not_mem_nil,
      fun r member => absurd member List.not_mem_nil, List.nodup_nil, fun r below => .inl ?_, fun r below => ?_, Nat.succ_le_succ few⟩,
      new, rfl, rfl, Function.update_self _ _ _, roots, rfl⟩
    · rcases (live r).mp alive with rfl | alive
      · exact Nat.lt_succ_self _
      · exact Nat.lt_succ_of_lt (stored.below r alive)
    · rcases Nat.lt_succ_iff_lt_or_eq.mp below with below | rfl
      · exact (live r).mpr (.inr ((stored.all r below).resolve_right (none r)))
      · exact (live _).mpr (.inl rfl)
    · show (Function.update s.regions s.regionCount _ r).flags.free = true ↔ _
      rcases Nat.lt_succ_iff_lt_or_eq.mp below with below | rfl
      · rw [Function.update_of_ne (Nat.ne_of_lt below), stored.free r below, freed]
      · rw [Function.update_self]
        exact ⟨fun flag => absurd flag Bool.false_ne_true, fun member => absurd member List.not_mem_nil⟩
  | cons r freed' =>
    have member : r ∈ s.freed := freed ▸ List.mem_cons_self
    have new := stored.apart r member
    have within := stored.freedBelow r member
    have nodup := freed ▸ stored.nodup
    simp only [List.headD_cons, List.tail_cons, List.cons_ne_nil, if_false]
    rw [if_neg fine, if_neg (by omega)]
    refine ⟨r, _, rfl, ⟨forest new, holds, named, fun a alive => ?_, fun a listed => ?_, fun a listed alive => ?_, (List.nodup_cons.mp nodup).2,
      fun a below => ?_, fun a below => ?_, Nat.le_succ_of_le few⟩, new, rfl, rfl, Function.update_self _ _ _, roots, rfl⟩
    · rcases (live a).mp alive with rfl | alive
      · exact within
      · exact stored.below a alive
    · exact stored.freedBelow a (freed ▸ List.mem_cons_of_mem r listed)
    · rcases (live a).mp alive with rfl | alive
      · exact (List.nodup_cons.mp nodup).1 listed
      · exact stored.apart a (freed ▸ List.mem_cons_of_mem r listed) alive
    · rcases stored.all a below with alive | listed
      · exact .inl ((live a).mpr (.inr alive))
      · rw [freed] at listed
        exact (List.mem_cons.mp listed).imp_left fun same => (live a).mpr (.inl same)
    · show (Function.update s.regions r _ a).flags.free = true ↔ a ∈ freed'
      by_cases self : a = r
      · rw [self, Function.update_self]
        exact ⟨fun flag => absurd flag Bool.false_ne_true, fun listed => absurd listed (List.nodup_cons.mp nodup).1⟩
      · rw [Function.update_of_ne self, stored.free a below, freed, List.mem_cons]
        exact or_iff_right self

/-! ### Merged regions -/

/-- The region `r2` is freed and its reference redirected to that of `r1`. -/
theorem Stored.merge (stored : Stored S own home s) {cell cell' : Nat} (inside : cell < s.regionRefCount) (inside' : cell' < s.regionRefCount)
    (root : s.redirect cell = cell) (root' : s.redirect cell' = cell') (other : home cell' ≠ home cell) {R : Regions}
    (same : ∀ r < s.regionCount, (R r).flags.free = (s.regions r).flags.free) (x : Nat) :
    Stored S (remap own (home cell') (home cell)) (fun j => if home j = home cell then home cell' else home j)
      { s with
        regions := R.setFlags (home cell) { Flags.none with free := true }
        freed := home cell :: s.freed
        region := Function.update s.region cell none
        redirect := Function.update s.redirect cell cell'
        currentRow := Function.update s.currentRow x cell' } := by
  have apart : cell ≠ cell' := fun eq => other (eq ▸ rfl)
  have live := live_remap own other (stored.named cell' inside')
  have gone := stored.named cell inside
  refine ⟨stored.forest.unite inside inside' root root' apart, fun j below ends => ?_, fun j below => ?_, fun r alive => ?_, fun r listed => ?_,
    fun r listed alive => ?_, ?_, fun r below => ?_, fun r below => ?_, stored.few⟩
  · have self : j ≠ cell := by
      rintro rfl
      exact apart ((Function.update_self _ _ _).symm.trans ends).symm
    have ends : s.redirect j = j := (Function.update_of_ne self _ _).symm.trans ends
    have differ : home j ≠ home cell := fun eq => self (stored.forest.single j below cell inside ends root eq)
    show Function.update s.region cell none j = some (if home j = home cell then home cell' else home j)
    rw [Function.update_of_ne self, if_neg differ]
    exact stored.holds j below ends
  · rw [live]
    split
    · exact ⟨stored.named cell' inside', other⟩
    · rename_i differ
      exact ⟨stored.named j below, differ⟩
  · exact stored.below r ((live r).mp alive).1
  · rcases List.mem_cons.mp listed with rfl | listed
    · exact stored.below _ gone
    · exact stored.freedBelow r listed
  · rcases List.mem_cons.mp listed with rfl | listed
    · exact ((live _).mp alive).2 rfl
    · exact stored.apart r listed ((live r).mp alive).1
  · exact List.nodup_cons.mpr ⟨fun listed => stored.apart _ listed gone, stored.nodup⟩
  · by_cases self : r = home cell
    · exact .inr (self ▸ List.mem_cons_self)
    · exact (stored.all r below).imp (fun alive => (live r).mpr ⟨alive, self⟩) (List.mem_cons_of_mem _)
  · show (R.setFlags (home cell) _ r).flags.free = true ↔ r ∈ home cell :: s.freed
    unfold Regions.setFlags
    by_cases self : r = home cell
    · rw [self, Function.update_self]
      exact ⟨fun _ => List.mem_cons_self, fun _ => rfl⟩
    · rw [Function.update_of_ne self, same r below, stored.free r below, List.mem_cons]
      exact (or_iff_right self).symm

end Movid.Fiducial
