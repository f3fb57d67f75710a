import Movid.Munkres.Optimal
import Movid.Tracker.Capacity

/-!
# The Munkres tracker with the `mtdev_match` of the repository

The tracker is built on what `mtdev_match` promises. Here the promise is kept by the code itself: the tracker never trips, its blobs travel
the least they can, and no number on the way leaves the range of an `int`.
-/

namespace Movid.Tracker

open Munkres (IsMatching ixoptimal ixoptimal_worth entry)

variable {D : Type} {ops : Doubles D}

def mtdevMatch : Matching := fun A nrows ncols => (ixoptimal A nrows ncols).getD []

theorem mtdevMatch_isMatching {nrows ncols : Nat} (rowsFit : nrows < dimFinger) (colsFit : ncols < dimFinger) (A : List Int) :
    IsMatching nrows ncols (mtdevMatch A nrows ncols) := by
  obtain ⟨ix, returns, matching, _⟩ := ixoptimal_worth rowsFit.le colsFit.le A
  rw [mtdevMatch, returns]
  exact matching

theorem mtdevMatch_injective : mtdevMatch.Injective := fun A _ _ rowsFit colsFit => (mtdevMatch_isMatching rowsFit colsFit A).injective

theorem mtdevMatch_full : mtdevMatch.Full := fun A _ old rowsFit colsFit => by
  have matching := mtdevMatch_isMatching rowsFit colsFit A
  refine ⟨matching.length, fun j member => ?_, matching.full⟩
  have inside := matching.entries j member
  omega

/-! ### What the blobs travel -/

/-- The squared distance between a new blob and an old one, as `trackBlobs` measures it. -/
def apart (ops : Doubles D) (new old : List (Blob D)) (i j : Nat) : Int :=
  match new[i]?, old[j]? with
  | some b, some o => dist2 (normalize ops b.x - normalize ops o.x) (normalize ops b.y - normalize ops o.y)
  | _, _ => 0

/-- The sum over the pairs that `n2s` makes. -/
def travelled (ops : Doubles D) (new old : List (Blob D)) (n2s : List Int) : Int :=
  ∑ i ∈ Finset.range new.length, if 0 ≤ entry n2s i then apart ops new old i (entry n2s i).toNat else 0

theorem distances_getD {new old : List (Blob D)} {i j : Nat} (column : i < new.length) (row : j < old.length) :
    (distances ops new old).getD (i + new.length * j) 0 = apart ops new old i j := by
  have here := List.getElem?_eq_getElem column
  have there := List.getElem?_eq_getElem row
  rw [Nat.add_comm, List.getD_eq_getElem?_getD, distances_getElem? here there, apart, here, there]
  rfl

theorem total_distances {new old : List (Blob D)} {ix : List Int} (matching : IsMatching new.length old.length ix) :
    Munkres.total (distances ops new old) new.length ix = travelled ops new old ix := by
  refine Finset.sum_congr rfl fun i member => ?_
  have column := Finset.mem_range.mp member
  split
  · have inside := matching.entries _ (Munkres.entry_mem (matching.length.symm ▸ column))
    exact distances_getD column (by omega)
  · rfl

theorem mtdevMatch_travelled {new old : List (Blob D)} (few : new.length < dimFinger) (fewOld : old.length < dimFinger) {other : List Int}
    (others : IsMatching new.length old.length other) :
    travelled ops new old (mtdevMatch (distances ops new old) new.length old.length) ≤ travelled ops new old other := by
  obtain ⟨ix, returns, matching, least⟩ := ixoptimal_worth few.le fewOld.le (distances ops new old)
  have result : mtdevMatch (distances ops new old) new.length old.length = ix := by rw [mtdevMatch, returns]; rfl
  rw [result, ← total_distances matching, ← total_distances others, ← Munkres.worth_eq _ matching, ← Munkres.worth_eq _ others]
  exact least other others

/-! ### Blobs inside the unit square -/

def Detection.Inside (ops : Doubles D) (d : Detection D) : Prop := InUnit ops d.x ∧ InUnit ops d.y

/-- All that a tracker holds lies in the unit square. -/
structure State.Inside (ops : Doubles D) (t : State D) : Prop where
  blobs : ∀ b ∈ t.oldBlobs, b.Inside ops
  frame : ∀ p, t.progress = some p → ∀ d ∈ p.frame, d.Inside ops

theorem Carries.inside {d : Detection D} {b : Blob D} (carries : Carries d b) (inside : d.Inside ops) : b.Inside ops := by
  obtain ⟨_, x, y⟩ := carries
  exact ⟨x ▸ inside.1, y ▸ inside.2⟩

theorem State.Inside.step {mtdevMatch : Matching} {t t' : State D} {counter counter' : Int} {event : Event D} (ok : t.Ok counter)
    (frames : ∀ i settings frame, event = .begin i settings frame → ∀ d ∈ frame, d.Inside ops)
    (h : t.step ops mtdevMatch counter event = some (t', counter')) (inside : t.Inside ops) : t'.Inside ops := by
  cases State.step_moves h with
  | same => exact inside
  | @begin i settings frame p idle started =>
    refine ⟨inside.blobs, fun q now => ?_⟩
    cases now
    obtain ⟨n2s, rfl⟩ := begin_spec started
    exact frames i settings frame rfl
  | @track i p q c now tracked =>
    refine ⟨inside.blobs, fun q' now' => ?_⟩
    cases now'
    rw [(track_same tracked).2.1]
    exact inside.frame p now
  | @finish i p r now empty finished =>
    refine ⟨fun b member => ?_, nofun⟩
    obtain ⟨done, _, _⟩ := finish_ok (ok.progress p now) empty ok.nodup finished
    obtain ⟨detected, new, _, _, shape⟩ := finish_spec finished
    have sameFrame : r.frame = p.frame := by rw [shape]
    obtain ⟨found, lost, list, carried, _, kept, _⟩ := done.list_split
    rw [list] at member
    rcases List.mem_append.mp member with fresh | old
    · obtain ⟨d, seen, carries⟩ := Lists.forall₂_mem_right carried fresh
      exact carries.inside (inside.frame p now d (sameFrame ▸ seen))
    · obtain ⟨o, before, rfl⟩ := List.mem_map.mp (kept.mem old)
      exact inside.blobs o before

theorem distances_small (scales : Scales ops) {new old : List (Blob D)} (few : new.length < dimFinger) (fewOld : old.length < dimFinger)
    (newInside : ∀ b ∈ new, b.Inside ops) (oldInside : ∀ o ∈ old, o.Inside ops) : ∀ d ∈ distances ops new old, 0 ≤ d ∧ d < 2 ^ 30 := by
  have square : ∀ x : Int, x.natAbs ≤ 10000 → clamp15 x * clamp15 x ≤ 100000000 := fun x small => by
    have same : clamp15 x = x := by
      unfold clamp15
      omega
    rw [same]
    nlinarith [Int.natAbs_mul_self' x, show (x.natAbs : Int) ≤ 10000 by omega]
  have bounds : InBounds ops old new := inBounds fewOld few
  intro d member
  refine ⟨(bounds.entry d member).1, ?_⟩
  obtain ⟨o, there, member⟩ := List.mem_flatMap.mp member
  obtain ⟨b, here, rfl⟩ := List.mem_map.mp member
  obtain ⟨dx, dy⟩ := bounds.difference scales b here o there (newInside b here) (oldInside o there)
  have first := square _ dx
  have second := square _ dy
  unfold dist2
  omega

/-! ### Every update of every run -/

/-- What `trackBlobs` gets from `mtdev_match`: a full pairing, none of which travels less, found without leaving the range of an `int`. -/
structure Shortest (ops : Doubles D) (new old : List (Blob D)) (n2s : List Int) : Prop where
  matching : IsMatching new.length old.length n2s
  least : ∀ other, IsMatching new.length old.length other → travelled ops new old n2s ≤ travelled ops new old other
  ints : ∀ call u, Loop.Reached Munkres.turn (.step2b, Munkres.prepare (Munkres.load (distances ops new old) new.length old.length)) (call, u) →
    ∀ r < new.length, ∀ c < old.length, 0 ≤ u.mdist.at r c ∧ u.mdist.at r c < 2 ^ 31

theorem shortest (scales : Scales ops) {new old : List (Blob D)} (few : new.length < dimFinger) (fewOld : old.length < dimFinger)
    (newInside : ∀ b ∈ new, b.Inside ops) (oldInside : ∀ o ∈ old, o.Inside ops) :
    Shortest ops new old (mtdevMatch (distances ops new old) new.length old.length) where
  matching := mtdevMatch_isMatching few fewOld _
  least _ others := mtdevMatch_travelled few fewOld others
  ints call u reached r rBound c cBound := by
    have small := distances_small scales few fewOld newInside oldInside
    obtain ⟨within, _⟩ := Munkres.within_of_reached few.le fewOld.le (M := 2 ^ 30 - 1) (by decide)
      (fun d member => ⟨(small d member).1, Int.le_sub_one_of_lt (small d member).2⟩) reached
    have cell := within r rBound c cBound
    omega

theorem inUnit_integers {v : Int} : InUnit Doubles.integers v ↔ v = 0 ∨ v = 1 := by
  simp only [InUnit, Doubles.integers, decide_eq_true_eq, id_eq]
  omega

theorem scales_integers : Scales Doubles.integers := by
  intro v inside
  rcases inUnit_integers.mp inside with rfl | rfl <;> decide

theorem touch_inside : ∀ d ∈ [touch 1 1, touch 0 0], d.Inside Doubles.integers := by
  simp [Detection.Inside, inUnit_integers, touch]

/-- Two touches in opposite corners. -/
def corners : List (Event Int) := [.begin 0 .default [touch 1 1, touch 0 0], .track 0, .track 0, .finish 0]

end Movid.Tracker
