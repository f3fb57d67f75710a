import Mathlib.Tactic.Linarith
import Movid.Tracker.Identity

/-!
# The arrays of the Munkres tracker

`trackBlobs` copies both lists into arrays of `DIM_FINGER` entries. The old list holds lost blobs too, but a
full matching leaves no more of them than a frame has had room for.
-/

namespace Movid.Tracker

variable {D : Type} {ops : Doubles D} {mtdevMatch : Matching}

/-- As many blobs are matched as can be, and the others get -1. -/
def Matching.Full (mtdevMatch : Matching) : Prop :=
  ∀ distances new old, new < dimFinger → old < dimFinger →
    (mtdevMatch distances new old).length = new ∧ (∀ j ∈ mtdevMatch distances new old, j < old) ∧
      (mtdevMatch distances new old).countP (0 ≤ ·) = min new old

def matched (new old : List (Blob D)) : Nat := (ids new).countP (· ∈ ids old)

/-- The size of the largest frame of the updates. -/
def largest (reports : List (Report D)) : Nat := (reports.map (·.frame.length)).foldl max 0

theorem largest_append (reports : List (Report D)) (r : Report D) :
    largest (reports ++ [r]) = max (largest reports) r.frame.length := by
  simp [largest]

theorem lost_length (settings : Settings D) {old new : List (Blob D)} (oldNodup : (ids old).Nodup) (newNodup : (ids new).Nodup) :
    (lost settings old new).length + matched new old ≤ old.length := by
  have fewer : (lost settings old new).length ≤ (ids old).countP fun x => !decide (x ∈ ids new) := by
    show (lost settings old new).length ≤ (old.map (·.blobId)).countP _
    rw [lost, List.countP_map, ← List.countP_eq_length_filter]
    apply List.countP_mono_left
    intro o _ kept
    simpa using (Bool.and_eq_true_iff.mp kept).1
  have whole := List.length_eq_countP_add_countP (fun x => decide (x ∈ ids new)) (l := ids old)
  rw [show (ids old).length = old.length from List.length_map _] at whole
  have counted : matched new old = (ids old).countP fun x => decide (x ∈ ids new) := Lists.countP_mem_comm newNodup oldNodup
  simp only [Bool.not_eq_true, Bool.decide_eq_false] at whole
  omega

/-! ### The loop -/

/-- The entries of `n2s` that are left match what is still to be matched. -/
structure Progress.Planned (p : Progress D) : Prop where
  length : p.n2s.length = p.todo.length
  inside : ∀ j ∈ p.n2s, j < p.old.length
  most : min (p.done.length + p.todo.length) p.old.length ≤ matched p.done p.old + p.n2s.countP (0 ≤ ·)

theorem Progress.Planned.begin (full : mtdevMatch.Full) {settings : Settings D} {oldBlobs : List (Blob D)} {frame : List (Detection D)}
    {p : Progress D} (h : begin ops mtdevMatch .munkres settings oldBlobs frame = some p) : p.Planned := by
  unfold Tracker.begin at h
  simp only [] at h
  split at h
  · rename_i small
    cases h
    obtain ⟨length, inside, most⟩ := full (distances ops (frame.map Detection.clone) (oldBlobs.map .older)) _ _ small.2 small.1
    refine ⟨length, inside, ?_⟩
    rw [most]
    show min (0 + _) _ ≤ _
    rw [Nat.zero_add]
    exact Nat.le_add_left _ _
  · cases h

/-- An old blob is given whenever the entry names one, since no id is the -10 that marks a new one. -/
theorem munkresTrack_of_valid {old : List (Blob D)} {j counter counter' : Int} {blob b : Blob D} (nonneg : ∀ x ∈ ids old, 0 ≤ x)
    (valid : 0 ≤ j) (h : munkresTrack old j counter blob = some (b, counter')) : b.blobId ∈ ids old := by
  unfold munkresTrack at h
  rw [if_pos valid] at h
  obtain ⟨id, pick, h⟩ := Option.map_eq_some_iff.mp h
  have member := List.mem_of_getElem? pick
  split at h
  · have := nonneg id member
    omega
  · cases h
    exact member

theorem Progress.Planned.track {p q : Progress D} {counter counter' : Int} (planned : p.Planned) (nonneg : ∀ x ∈ ids p.old, 0 ≤ x)
    (h : track ops .munkres p counter = some (q, counter')) : q.Planned := by
  cases track_moves h with
  | ended => exact planned
  | @munkres blob b todo j n2s c shape plan now =>
    have length := planned.length
    have most := planned.most
    rw [plan, shape, List.length_cons, List.length_cons] at length
    rw [plan, shape, List.countP_cons, List.length_cons] at most
    have more : matched (p.done ++ [b]) p.old = matched p.done p.old + if b.blobId ∈ ids p.old then 1 else 0 := by
      rw [matched, ids_append, List.countP_append]
      simp [ids, matched, List.countP_cons]
    refine ⟨Nat.succ.inj length, fun k member => planned.inside k (by simp [plan, member]), ?_⟩
    show min ((p.done ++ [b]).length + todo.length) p.old.length ≤ matched (p.done ++ [b]) p.old + n2s.countP (0 ≤ ·)
    rw [more, List.length_append, List.length_singleton]
    by_cases valid : 0 ≤ j
    · rw [if_pos (munkresTrack_of_valid nonneg valid now)]
      rw [if_pos (decide_eq_true valid)] at most
      omega
    · rw [if_neg (by simpa using valid)] at most
      omega

/-! ### The list -/

theorem finish_length {counter : Int} {oldBlobs : List (Blob D)} {p : Progress D} {r : Report D} (ok : p.Ok .munkres counter oldBlobs)
    (planned : p.Planned) (empty : p.todo = []) (oldNodup : (ids oldBlobs).Nodup) (h : finish ops .munkres p = some r) :
    r.list.length ≤ max oldBlobs.length r.frame.length := by
  obtain ⟨done, settings, ids'⟩ := finish_ok ok empty oldNodup h
  obtain ⟨new, angled, list⟩ := done.list
  have idsNew : ids new = ids p.done := (ids_of_forall₂ (fun b b' same => by rw [same]) angled).trans ids'
  have oldNodup' : (ids r.old).Nodup := by
    rw [done.old, ids_older]
    exact oldNodup
  have few := lost_length r.settings oldNodup' (idsNew ▸ ok.nodup)
  have sameOld : r.old = p.old := done.old.trans ok.old.symm
  have oldLength : p.old.length = oldBlobs.length := by rw [ok.old, List.length_map]
  have most := planned.most
  have plan : p.n2s = [] := List.length_eq_zero_iff.mp (by rw [planned.length, empty]; rfl)
  have same : matched new r.old = matched p.done p.old := by rw [matched, idsNew, sameOld, matched]
  have newLength : new.length = p.done.length := by
    have := congrArg List.length idsNew
    simpa [ids] using this
  have frameLength : r.frame.length = p.done.length := by
    have := congrArg List.length ids'
    rw [done.carries.length_eq]
    simpa [ids] using this
  rw [plan, empty] at most
  rw [same, sameOld] at few
  rw [list, List.length_append, List.length_map, sameOld, newLength, frameLength]
  simp only [List.length_nil, List.countP_nil, Nat.add_zero] at most
  omega

/-- A Munkres tracker never holds more blobs than the largest frame had. -/
structure State.Sized (limit : Nat) (t : State D) : Prop where
  nonneg : ∀ x ∈ t.held, 0 ≤ x
  planned : t.kind = .munkres → ∀ p, t.progress = some p → p.Planned
  small : t.kind = .munkres → t.oldBlobs.length ≤ largest t.reports
  current : ∀ p, t.progress = some p → p.frame.length ≤ limit
  past : largest t.reports ≤ limit

theorem State.sized_initial (limit : Nat) (kind : Kind) : (State.initial kind : State D).Sized limit :=
  ⟨by simp [State.held, State.initial, ids], nofun, by simp [State.initial], nofun, by simp [State.initial, largest]⟩

theorem State.Sized.step (full : mtdevMatch.Full) (injective : mtdevMatch.Injective) {limit : Nat} {t t' : State D}
    {counter counter' : Int} {event : Event D} (ok : t.Ok counter) (drawn : 0 ≤ counter)
    (frames : ∀ i settings frame, event = .begin i settings frame → frame.length ≤ limit)
    (h : t.step ops mtdevMatch counter event = some (t', counter')) (sized : t.Sized limit) : t'.Sized limit := by
  have next := ok.step injective h
  have nonneg : ∀ x ∈ t'.held, 0 ≤ x := by
    intro x member
    rcases next.held x member with before | fresh
    · exact sized.nonneg x before
    · omega
  cases State.step_moves h with
  | same => exact sized
  | @begin i settings frame p idle started =>
    refine ⟨nonneg, ?_, sized.small, ?_, sized.past⟩
    · intro munkres q now
      cases now
      rw [show t.kind = .munkres from munkres] at started
      exact .begin full started
    · intro q now
      cases now
      obtain ⟨n2s, rfl⟩ := begin_spec started
      exact frames i settings frame rfl
  | @track i p q c now tracked =>
    refine ⟨nonneg, ?_, sized.small, ?_, sized.past⟩
    · intro munkres q' now'
      cases now'
      rw [show t.kind = .munkres from munkres] at tracked
      refine (sized.planned munkres p now).track (fun x member => sized.nonneg x ?_) tracked
      rw [(ok.progress p now).old, ids_older] at member
      exact List.mem_append_left _ member
    · intro q' now'
      cases now'
      rw [(track_same tracked).2.1]
      exact sized.current p now
  | @finish i p r now empty finished =>
    have grown := largest_append t.reports r
    refine ⟨nonneg, by simp, ?_, by simp, ?_⟩
    · intro munkres
      have munkres : t.kind = .munkres := munkres
      have before := ok.progress p now
      rw [munkres] at finished before
      have fits := finish_length before (sized.planned munkres p now) empty ok.nodup finished
      have small := sized.small munkres
      show r.list.length ≤ largest (t.reports ++ [r])
      omega
    · have frame : r.frame.length ≤ limit := by
        obtain ⟨detected, new, _, _, rfl⟩ := finish_spec finished
        exact sized.current p now
      have past := sized.past
      show largest (t.reports ++ [r]) ≤ limit
      omega

/-! ### The matrix -/

theorem clamp15_bounds (x : Int) : -32767 ≤ clamp15 x ∧ clamp15 x ≤ 32767 := by
  unfold clamp15
  omega

/-- The squares and their sum are 32 bit integers. -/
theorem dist2_bounds (dx dy : Int) : 0 ≤ dist2 dx dy ∧ dist2 dx dy < 2 ^ 31 := by
  have square : ∀ x : Int, 0 ≤ clamp15 x * clamp15 x ∧ clamp15 x * clamp15 x ≤ 32767 * 32767 := by
    intro x
    obtain ⟨low, high⟩ := clamp15_bounds x
    exact ⟨mul_self_nonneg _, by nlinarith⟩
  have first := square dx
  have second := square dy
  unfold dist2
  omega

theorem distances_getElem? {new : List (Blob D)} {i : Nat} {b : Blob D} (column : new[i]? = some b) {old : List (Blob D)} {j : Nat} {o : Blob D}
    (row : old[j]? = some o) : (distances ops new old)[new.length * j + i]? =
      some (dist2 (normalize ops b.x - normalize ops o.x) (normalize ops b.y - normalize ops o.y)) := by
  obtain ⟨inside, _⟩ := List.getElem?_eq_some_iff.mp column
  induction old generalizing j with
  | nil => cases row
  | cons first rest ih =>
    rw [distances, List.flatMap_cons]
    cases j with
    | zero =>
      cases row
      rw [Nat.mul_zero, Nat.zero_add, List.getElem?_append_left (by simpa using inside), List.getElem?_map, column, Option.map_some]
    | succ j =>
      rw [List.getElem?_append_right (by simp [Nat.mul_succ]; omega), List.length_map,
        show new.length * (j + 1) + i - new.length = new.length * j + i by rw [Nat.mul_succ]; omega]
      exact ih row

/-- A coordinate from 0 to 1. -/
def InUnit (ops : Doubles D) (v : D) : Prop :=
  (v = ops.ofInt 0 ∨ ops.lt (ops.ofInt 0) v) ∧ (v = ops.ofInt 1 ∨ ops.lt v (ops.ofInt 1))

/-- Multiplying by 10000 and cutting the fraction off keeps the order. -/
def Scales (ops : Doubles D) : Prop := ∀ v, InUnit ops v → 0 ≤ normalize ops v ∧ normalize ops v ≤ 10000

def Blob.Inside (ops : Doubles D) (b : Blob D) : Prop := InUnit ops b.x ∧ InUnit ops b.y

/-- What `trackBlobs` puts in its arrays fits. -/
structure InBounds (ops : Doubles D) (old new : List (Blob D)) : Prop where
  sn : old.length < dimFinger
  nn : new.length < dimFinger
  index : ∀ (i j : Nat) (b o : Blob D), new[i]? = some b → old[j]? = some o →
    new.length * j + i < dimFinger * dimFinger ∧ (distances ops new old)[new.length * j + i]? =
      some (dist2 (normalize ops b.x - normalize ops o.x) (normalize ops b.y - normalize ops o.y))
  entry : ∀ d ∈ distances ops new old, 0 ≤ d ∧ d < 2 ^ 31
  difference : Scales ops → ∀ b ∈ new, ∀ o ∈ old, b.Inside ops → o.Inside ops →
    (normalize ops b.x - normalize ops o.x).natAbs ≤ 10000 ∧ (normalize ops b.y - normalize ops o.y).natAbs ≤ 10000

theorem inBounds {old new : List (Blob D)} (sn : old.length < dimFinger) (nn : new.length < dimFinger) : InBounds ops old new where
  sn := sn
  nn := nn
  index i j b o column row := by
    obtain ⟨first, _⟩ := List.getElem?_eq_some_iff.mp column
    obtain ⟨second, _⟩ := List.getElem?_eq_some_iff.mp row
    refine ⟨?_, distances_getElem? column row⟩
    have product : new.length * (j + 1) ≤ dimFinger * dimFinger := Nat.mul_le_mul nn.le (by omega)
    rw [Nat.mul_succ] at product
    omega
  entry d member := by
    obtain ⟨o, _, member⟩ := List.mem_flatMap.mp member
    obtain ⟨b, _, rfl⟩ := List.mem_map.mp member
    exact dist2_bounds _ _
  difference scales b _ o _ here there := by
    have bx := scales _ here.1
    have by_ := scales _ here.2
    have ox := scales _ there.1
    have oy := scales _ there.2
    omega

/-- On frames of at most 31 blobs the Munkres tracker never trips its assertions. -/
theorem munkres_never_trips (full : mtdevMatch.Full) (injective : mtdevMatch.Injective) {i : Nat} {events : List (Event D)}
    (frames : ∀ settings frame, Event.begin i settings frame ∈ events → frame.length ≤ 31) {kinds : List Kind} {s : System D}
    (reached : Machine.attempt (System.step ops mtdevMatch) (.initial kinds) events = some s) {t : State D}
    (found : s.trackers[i]? = some t) (munkres : t.kind = .munkres) :
    t.oldBlobs.length ≤ largest t.reports ∧ largest t.reports ≤ 31 ∧
    ∀ settings frame, frame.length ≤ 31 → (begin ops mtdevMatch .munkres settings t.oldBlobs frame).isSome ∧
      InBounds ops (t.oldBlobs.map .older) (frame.map Detection.clone) := by
  have sized : t.Sized 31 := by
    refine System.reached_tracker injective (State.sized_initial 31) ?_ reached found
    intro t t' counter counter' event member here ok drawn h
    refine State.Sized.step full injective ok drawn ?_ h
    rintro j settings frame rfl
    cases here
    exact frames settings frame member
  have small := sized.small munkres
  have past := sized.past
  refine ⟨small, past, ?_⟩
  intro settings frame few
  have sn : (t.oldBlobs.map Blob.older).length < dimFinger := by
    rw [List.length_map, dimFinger]
    omega
  have nn : (frame.map Detection.clone).length < dimFinger := by
    rw [List.length_map, dimFinger]
    omega
  refine ⟨?_, inBounds sn nn⟩
  simp only [begin]
  rw [if_pos ⟨sn, nn⟩]
  rfl

/-- A matching in the order of the lists, as `mtdev_match` gives it for blobs that have not moved. -/
def matchInOrder : Matching := fun _ new old => (List.range new).map fun i => if i < old then i else -1

theorem matchInOrder_injective : matchInOrder.Injective := by
  intro distances new old _ _
  apply List.pairwise_map.mpr
  apply List.pairwise_lt_range.imp
  intro a b less
  split <;> split <;> omega

theorem matchInOrder_full : matchInOrder.Full := by
  intro distances new old _ _
  refine ⟨by simp [matchInOrder], ?_, ?_⟩
  · intro j member
    obtain ⟨i, _, rfl⟩ := List.mem_map.mp member
    split <;> omega
  · rw [matchInOrder, List.countP_map]
    clear * -
    induction new with
    | zero => rw [Nat.zero_min]; rfl
    | succ new ih =>
      rw [List.range_succ, List.countP_append, ih, List.countP_singleton]
      by_cases inside : new < old
      · simp only [Function.comp_apply, if_pos inside]
        rw [if_pos (by simp)]
        omega
      · simp only [Function.comp_apply, if_neg inside]
        rw [if_neg (by simp)]
        omega

/-- Two touches, of which one goes away. -/
def leaving : List (Event Int) :=
  [.begin 0 .default [touch 0 0, touch 1 1], .track 0, .track 0, .finish 0, .begin 0 .default [touch 0 0], .track 0, .finish 0]

theorem munkres_never_trips_leaving :
    ∃ s t, Machine.attempt (System.step Doubles.integers matchInOrder) (.initial [.munkres]) leaving = some s ∧ s.trackers[0]? = some t ∧
      t.oldBlobs.length ≤ largest t.reports ∧
      InBounds Doubles.integers (t.oldBlobs.map .older) ([touch 0 0, touch 1 1].map Detection.clone) := by
  have ran : ((Machine.attempt (System.step Doubles.integers matchInOrder) (.initial [.munkres]) leaving).bind
      fun s => s.trackers[0]?.map fun t => t.kind) = some .munkres := by
    decide +kernel
  obtain ⟨s, reached, ran⟩ := Option.bind_eq_some_iff.mp ran
  obtain ⟨t, found, munkres⟩ := Option.map_eq_some_iff.mp ran
  have small : ∀ settings frame, Event.begin 0 settings frame ∈ leaving → frame.length ≤ 31 := by
    intro settings frame member
    simp only [leaving, List.mem_cons, Event.begin.injEq, List.not_mem_nil, reduceCtorEq, or_false, false_or] at member
    rcases member with ⟨-, -, rfl⟩ | ⟨-, -, rfl⟩ <;> decide
  have safe := munkres_never_trips matchInOrder_full matchInOrder_injective small reached found munkres
  exact ⟨s, t, reached, found, safe.1, (safe.2.2 .default [touch 0 0, touch 1 1] (by decide)).2⟩

end Movid.Tracker
