import Mathlib.Data.List.Chain
import Movid.Blob.Calibration

/-!
# A calibration session

From the moment `calibrate` is switched on until the module switches it off. The frames with one
touch decide which points are recorded.
-/

namespace Movid.Calibration

variable {P : Type} {geometry : Geometry P}

/-- The id of the only touch of a frame. -/
def single (frame : Frame P) : Option Int :=
  match frame.blobs with
  | [touch] => some touch.blobId
  | _ => none

def singles (frames : List (Frame P)) : List Int := frames.filterMap single

/-- The touch was there in `duration + 1` frames and its id is not the one last recorded. -/
def Due (duration : Int) (frames : List (Frame P)) (recorded : List Int) (id : Int) : Prop :=
  List.replicate (duration.toNat + 1) id <:+ singles frames ∧ recorded.getLast? ≠ some id

theorem singles_none {frames : List (Frame P)} {frame : Frame P} (other : single frame = none) :
    singles (frames ++ [frame]) = singles frames := by
  simp [singles, List.filterMap_append, other]

theorem singles_some {frames : List (Frame P)} {frame : Frame P} {id : Int} (only : single frame = some id) :
    singles (frames ++ [frame]) = singles frames ++ [id] := by
  simp [singles, List.filterMap_append, only]

theorem replicate_suffix_concat {k : Nat} {id other : Int} {ids : List Int} :
    List.replicate (k + 1) id <:+ ids ++ [other] ↔ id = other ∧ List.replicate k id <:+ ids := by
  rw [List.replicate_succ', List.suffix_concat_iff]
  constructor
  · rintro (empty | ⟨rest, same, suffix⟩)
    · simp at empty
    · obtain ⟨rfl, last⟩ := List.append_inj' same rfl
      exact ⟨List.singleton_inj.mp last, suffix⟩
  · rintro ⟨rfl, suffix⟩
    exact .inr ⟨_, rfl, suffix⟩

theorem replicate_suffix_iff {k : Nat} {id : Int} {ids : List Int} (other : ids.getLast? ≠ some id) :
    List.replicate k id <:+ ids ↔ k = 0 := by
  cases k with
  | zero => simp
  | succ k =>
    refine ⟨fun suffix => ?_, nofun⟩
    obtain ⟨before, rfl⟩ := suffix
    rw [List.replicate_succ', ← List.append_assoc, List.getLast?_concat] at other
    exact absurd rfl other

namespace State

/-! ### What every state of the module remembers -/

/-- The id last recorded is `last_finished_id`. -/
structure Logged (s : State P) : Prop where
  idle : s.currentTouch = false → s.currentDuration = 0
  finished : s.lastFinishedId = s.recorded.getLast?.getD (-1)
  apart : List.IsChain (· ≠ ·) s.recorded

theorem Logged.new (geometry : Geometry P) : (new geometry).Logged := ⟨fun _ => rfl, rfl, .nil⟩

variable {s t : State P}

theorem Logged.set (logged : s.Logged) (setting : Setting P) : (s.set geometry setting).Logged := by
  obtain ⟨touch, duration, finished, recorded⟩ := set_kept geometry s setting
  exact ⟨by rw [touch, duration]; exact logged.idle, by rw [finished, recorded]; exact logged.finished, by rw [recorded]; exact logged.apart⟩

theorem Logged.discard (logged : s.Logged) : s.discard.Logged := by
  rw [discard_eq]
  exact ⟨logged.idle, logged.finished, logged.apart⟩

theorem Logged.triangulate (logged : s.Logged) (done : s.triangulate = .ok t) : t.Logged := by
  unfold State.triangulate at done
  split_ifs at done
  cases done
  exact ⟨logged.idle, logged.finished, logged.apart⟩

theorem Logged.record (logged : s.Logged) (unfinished : s.lastFinishedId ≠ s.lastId) (point : P) : (s.record point).Logged where
  idle _ := rfl
  finished := by simp [State.record]
  apart := by
    refine logged.apart.append (.singleton _) ?_
    intro last member first same
    rw [Option.mem_def] at member
    obtain rfl : s.lastId = first := by simpa using same
    rw [logged.finished, member] at unfinished
    exact unfinished

theorem Logged.finish (logged : s.Logged) (unfinished : s.lastFinishedId ≠ s.lastId) {point : P} (done : s.finish point = .ok t) :
    t.Logged := by
  obtain ⟨idle, finished, apart⟩ := logged.record unfinished point
  rw [finish_eq] at done
  split_ifs at done
  · exact Logged.triangulate (s := { s.record point with activePoint := 0, calibrate := false, calibrated := true })
      ⟨idle, finished, apart⟩ done
  · cases done
    exact ⟨idle, finished, apart⟩

theorem Logged.take (logged : s.Logged) {touch : Touch P} {stale : P} (taken : s.take geometry touch stale = .ok t) : t.Logged := by
  by_cases same : touch.blobId = s.lastId
  · by_cases finished : s.lastFinishedId = touch.blobId
    · rw [take_finished geometry touch stale same finished] at taken
      cases taken
      exact logged
    · obtain ⟨point, held⟩ := take_same geometry touch stale same finished logged.idle
      rw [held] at taken
      split_ifs at taken
      · cases taken
        exact ⟨nofun, logged.finished, logged.apart⟩
      · exact Logged.finish (s := s.press touch.blobId true (s.currentDuration + 1)) ⟨nofun, logged.finished, logged.apart⟩ finished taken
  · rcases Int.lt_or_le 0 s.durationPerPoint with positive | negative
    · rw [take_other geometry touch stale same positive] at taken
      cases taken
      exact ⟨fun _ => rfl, logged.finished, logged.apart⟩
    · rw [take_other_fault geometry touch stale same negative] at taken
      cases taken

theorem Logged.update (logged : s.Logged) {frame : Frame P} (updated : s.update geometry frame = .ok t) : t.Logged := by
  unfold State.update calibrateFrame at updated
  split_ifs at updated
  · split at updated
    · exact logged.discard.take updated
    · cases updated
      exact logged
  · exact logged.triangulate updated
  · cases updated
    exact logged

theorem Logged.step (logged : s.Logged) {event : Event P} (stepped : s.step geometry event = some t) : t.Logged := by
  cases event with
  | set setting =>
    cases stepped
    exact logged.set setting
  | frame frame => exact logged.update ((step_frame_iff geometry).mp stepped)

/-! ### The session -/

variable (geometry)

/-- A session that began in `s` has recorded `ids` and wants more. -/
structure Counting (s : State P) (ids : List Int) (t : State P) : Prop where
  logged : t.Logged
  on : t.calibrate = true
  screen : t.screenPoints = s.screenPoints
  duration : t.durationPerPoint = s.durationPerPoint
  recorded : t.recorded = s.recorded ++ ids
  active : t.activePoint = ids.length
  more : ids.length < s.screenPoints.length
  collected : 0 < ids.length → t.surfacePoints.length = ids.length

/-- `currentDuration` counts the frames of a touch that is not the one last recorded. -/
structure Collecting (s : State P) (frames : List (Frame P)) (ids : List Int) (t : State P) : Prop extends Counting s ids t where
  last : t.lastId = (singles frames).getLast?.getD (-1)
  held : 0 < t.lastId → t.lastFinishedId ≠ t.lastId →
    t.currentDuration < t.durationPerPoint ∧
    ∀ k : Nat, List.replicate (k + 1) t.lastId <:+ singles frames ↔ (k : Int) ≤ t.currentDuration

structure Ended (s : State P) (ids : List Int) (t : State P) : Prop where
  logged : t.Logged
  off : t.calibrate = false
  calibrated : t.calibrated = true
  settled : t.retriangulate = false
  screen : t.screenPoints = s.screenPoints
  surface : t.surfacePoints.length = s.screenPoints.length
  recorded : t.recorded = s.recorded ++ ids
  active : t.activePoint = 0
  all : ids.length = s.screenPoints.length

variable {frames : List (Frame P)} {ids : List Int}

theorem Collecting.start (logged : s.Logged) (points : 0 < s.screenPoints.length) :
    Collecting s [] [] (s.set geometry (.calibrate true)) where
  logged := logged.set (.calibrate true)
  on := rfl
  screen := rfl
  duration := rfl
  recorded := (List.append_nil _).symm
  active := rfl
  more := points
  collected := nofun
  last := rfl
  held := nofun

theorem Collecting.discard (now : Collecting s frames ids t) :
    Collecting s frames ids t.discard ∧ t.discard.surfacePoints.length = ids.length := by
  have length : (if t.activePoint = 0 then [] else t.surfacePoints).length = ids.length := by
    rw [now.active]
    split_ifs with first
    · exact first.symm
    · exact now.collected (Nat.pos_of_ne_zero first)
  have logged := now.logged.discard
  rw [discard_eq] at logged ⊢
  exact ⟨{ now with logged, collected := fun _ => length }, length⟩

theorem Counting.press (now : Counting s ids t) {id : Int} {currentTouch : Bool} {currentDuration : Int}
    (idle : currentTouch = false → currentDuration = 0) : Counting s ids (t.press id currentTouch currentDuration) :=
  { now with logged := ⟨idle, now.logged.finished, now.logged.apart⟩ }

theorem Counting.finish (now : Counting s ids t) (length : t.surfacePoints.length = ids.length)
    (unfinished : t.lastFinishedId ≠ t.lastId) (last : t.lastId = (singles frames).getLast?.getD (-1)) (point : P) :
    ∃ u, t.finish point = .ok u ∧ u.recorded = t.recorded ++ [t.lastId] ∧
      (Collecting s frames (ids ++ [t.lastId]) u ∨ Ended s (ids ++ [t.lastId]) u) := by
  have logged := now.logged.record unfinished point
  have recorded : t.recorded ++ [t.lastId] = s.recorded ++ (ids ++ [t.lastId]) := by rw [now.recorded, List.append_assoc]
  have surface : (t.surfacePoints ++ [point]).length = (ids ++ [t.lastId]).length := by simp [length]
  have active : t.activePoint + 1 = (ids ++ [t.lastId]).length := by simp [now.active]
  rcases Nat.lt_or_eq_of_le now.more with next | full
  · refine ⟨_, finish_next (by rw [now.screen, now.active]; exact next) point, rfl, .inl ?_⟩
    exact { now with
      logged := ⟨logged.idle, logged.finished, logged.apart⟩, recorded, active, last
      more := by rw [← active, now.active]; exact next
      collected := fun _ => surface
      held := fun _ other => absurd rfl other }
  · have fits : t.activePoint + 1 = t.screenPoints.length := by rw [now.active, now.screen]; exact full
    have equal : t.screenPoints.length = (t.surfacePoints ++ [point]).length := by rw [surface, ← active, fits]
    refine ⟨_, (finish_last fits point).trans (triangulate_ok equal), rfl, .inr ?_⟩
    have all : (ids ++ [t.lastId]).length = s.screenPoints.length := by rw [← active, now.active]; exact full
    exact ⟨⟨logged.idle, logged.finished, logged.apart⟩, rfl, rfl, rfl, now.screen, surface.trans all, recorded, rfl, all⟩

theorem Logged.last_recorded (logged : s.Logged) {id : Int} (real : 0 < id) : s.recorded.getLast? = some id ↔ s.lastFinishedId = id := by
  rw [logged.finished]
  cases s.recorded.getLast? with
  | none =>
    simp only [reduceCtorEq, Option.getD_none, false_iff]
    omega
  | some last => simp

theorem Logged.due_iff (logged : t.Logged) {duration id : Int} (real : 0 < id) {frame : Frame P} (only : single frame = some id) :
    Due duration (frames ++ [frame]) t.recorded id ↔ List.replicate duration.toNat id <:+ singles frames ∧ t.lastFinishedId ≠ id := by
  rw [Due, singles_some only, replicate_suffix_concat, Ne, logged.last_recorded real]
  simp

/-- The touch of the last frame with one is still there, and `currentDuration` says for how long. -/
theorem Collecting.held_iff (now : Collecting s frames ids t) (real : 0 < t.lastId) (unfinished : t.lastFinishedId ≠ t.lastId)
    (positive : 1 ≤ s.durationPerPoint) :
    List.replicate s.durationPerPoint.toNat t.lastId <:+ singles frames ↔ s.durationPerPoint ≤ t.currentDuration + 1 := by
  obtain ⟨d, eq⟩ : ∃ d : Nat, s.durationPerPoint.toNat = d + 1 := ⟨s.durationPerPoint.toNat - 1, by omega⟩
  rw [eq, (now.held real unfinished).2 d]
  omega

theorem Collecting.counted (now : Collecting s frames ids t) (real : 0 < t.lastId) (unfinished : t.lastFinishedId ≠ t.lastId) :
    0 ≤ t.currentDuration := by
  refine ((now.held real unfinished).2 0).mp ?_
  cases last : (singles frames).getLast? with
  | none =>
    rw [now.last, last] at real
    exact absurd real (by decide)
  | some id =>
    obtain ⟨before, same⟩ := List.getLast?_eq_some_iff.mp last
    rw [now.last, last]
    exact ⟨before, same.symm⟩

/-- The touch stays, but not yet long enough. -/
theorem Collecting.stays (now : Collecting s frames ids t) (real : 0 < t.lastId) (unfinished : t.lastFinishedId ≠ t.lastId)
    {frame : Frame P} (only : single frame = some t.lastId) (more : t.currentDuration + 1 < t.durationPerPoint) :
    Collecting s (frames ++ [frame]) ids (t.press t.lastId true (t.currentDuration + 1)) := by
  have pressed : Counting s ids (t.press t.lastId true (t.currentDuration + 1)) := now.press nofun
  have counted := now.counted real unfinished
  refine { pressed with last := ?_, held := fun _ _ => ⟨more, fun k => ?_⟩ }
  · rw [singles_some only, List.getLast?_concat]
    rfl
  · show List.replicate (k + 1) t.lastId <:+ singles (frames ++ [frame]) ↔ (k : Int) ≤ t.currentDuration + 1
    rw [singles_some only, replicate_suffix_concat]
    cases k with
    | zero =>
      simp
      omega
    | succ k =>
      rw [(now.held real unfinished).2 k]
      simp

/-- Another touch than that of the last frame with one. -/
theorem Collecting.changes (now : Collecting s frames ids t) (positive : 1 ≤ s.durationPerPoint) {id : Int}
    (other : (singles frames).getLast? ≠ some id) {frame : Frame P} (only : single frame = some id) :
    Collecting s (frames ++ [frame]) ids (t.press id false 0) := by
  have pressed : Counting s ids (t.press id false 0) := now.press fun _ => rfl
  have duration := now.duration
  refine { pressed with last := ?_, held := fun _ _ => ⟨by show 0 < t.durationPerPoint; omega, fun k => ?_⟩ }
  · rw [singles_some only, List.getLast?_concat]
    rfl
  · show List.replicate (k + 1) id <:+ singles (frames ++ [frame]) ↔ (k : Int) ≤ 0
    rw [singles_some only, replicate_suffix_concat, replicate_suffix_iff other]
    simp

/-- A frame with one touch, in a state that holds no points of an earlier session. -/
theorem Collecting.take (now : Collecting s frames ids t) (length : t.surfacePoints.length = ids.length)
    (positive : 1 ≤ s.durationPerPoint) {frame : Frame P} {touch : Touch P} (only : single frame = some touch.blobId)
    (real : 0 < touch.blobId) (stale : P) :
    ∃ u, t.take geometry touch stale = .ok u ∧
      ((Due s.durationPerPoint (frames ++ [frame]) t.recorded touch.blobId ∧
          u.recorded = t.recorded ++ [touch.blobId] ∧
          (Collecting s (frames ++ [frame]) (ids ++ [touch.blobId]) u ∨ Ended s (ids ++ [touch.blobId]) u)) ∨
        (¬ Due s.durationPerPoint (frames ++ [frame]) t.recorded touch.blobId ∧ Collecting s (frames ++ [frame]) ids u)) := by
  rw [now.logged.due_iff real only]
  have duration := now.duration
  have last : touch.blobId = (singles (frames ++ [frame])).getLast?.getD (-1) := by rw [singles_some only, List.getLast?_concat, Option.getD_some]
  by_cases same : touch.blobId = t.lastId
  · by_cases finished : t.lastFinishedId = touch.blobId
    · refine ⟨t, take_finished geometry touch stale same finished, .inr ⟨fun is => is.2 finished, ?_⟩⟩
      exact { now with last := same.symm.trans last, held := fun _ other => absurd (finished.trans same) other }
    · obtain ⟨point, taken⟩ := take_same geometry touch stale same finished now.logged.idle
      rw [same] at real finished only last taken ⊢
      rw [taken, now.held_iff real finished positive]
      split_ifs with more
      · exact ⟨_, rfl, .inr ⟨fun is => by omega, now.stays real finished only more⟩⟩
      · have pressed : Counting s ids (t.press t.lastId true (t.currentDuration + 1)) := now.press nofun
        obtain ⟨u, done, recorded, goes⟩ := pressed.finish length finished last point
        exact ⟨u, done, .inl ⟨⟨by omega, finished⟩, recorded, goes⟩⟩
  · have other : (singles frames).getLast? ≠ some touch.blobId := by
      intro is
      rw [now.last, is] at same
      exact same rfl
    refine ⟨_, take_other geometry touch stale same (by omega), .inr ⟨fun is => ?_, now.changes positive other only⟩⟩
    have := (replicate_suffix_iff other).mp is.1
    omega

theorem Collecting.update (now : Collecting s frames ids t) (positive : 1 ≤ s.durationPerPoint) {frame : Frame P}
    (tracked : ∀ touch ∈ frame.blobs, 0 < touch.blobId) :
    ∃ u, t.update geometry frame = .ok u ∧
      ((∃ id, single frame = some id ∧ Due s.durationPerPoint (frames ++ [frame]) t.recorded id ∧ u.recorded = t.recorded ++ [id] ∧
          (Collecting s (frames ++ [frame]) (ids ++ [id]) u ∨ Ended s (ids ++ [id]) u)) ∨
        ((∀ id, single frame = some id → ¬ Due s.durationPerPoint (frames ++ [frame]) t.recorded id) ∧
          Collecting s (frames ++ [frame]) ids u)) := by
  unfold State.update calibrateFrame
  rw [if_pos now.on]
  split
  · rename_i touch blobs
    have only : single frame = some touch.blobId := by rw [single, blobs]
    obtain ⟨discarded, length⟩ := now.discard
    have same : t.discard.recorded = t.recorded := by rw [discard_eq]
    obtain ⟨u, taken, cases_⟩ := discarded.take geometry length positive only
      (tracked touch (by rw [blobs]; exact List.mem_singleton_self touch)) frame.stale
    rw [same] at cases_
    refine ⟨u, taken, cases_.imp (fun is => ⟨touch.blobId, only, is⟩) fun is => ⟨?_, is.2⟩⟩
    intro id found
    rw [only] at found
    cases found
    exact is.1
  · rename_i several
    have none_ : single frame = none := by
      unfold single
      split
      · rename_i touch blobs
        exact absurd blobs (several touch)
      · rfl
    refine ⟨t, rfl, .inr ⟨fun id found => absurd (none_.symm.trans found) (Option.some_ne_none id).symm, ?_⟩⟩
    exact { now with last := by rw [singles_none none_]; exact now.last, held := by rw [singles_none none_]; exact now.held }

theorem Ended.update (ended : Ended s ids t) (frame : Frame P) : t.update geometry frame = .ok t := by
  rw [State.update, if_neg (by simp [ended.off]), if_neg (by simp [ended.settled])]

theorem reached_logged {before : List (Event P)} (reached : Machine.attempt (step geometry) (new geometry) before = some s) : s.Logged :=
  Machine.attempt_invariant (fun _ _ _ stepped logged => Logged.step logged stepped) (.new geometry) reached

theorem reached_session (logged : s.Logged) (points : 0 < s.screenPoints.length) (positive : 1 ≤ s.durationPerPoint)
    (frames : List (Frame P)) (tracked : Tracked frames) :
    ∃ t ids, Machine.attempt (step geometry) (s.set geometry (.calibrate true)) (frames.map .frame) = some t ∧
      (Collecting s frames ids t ∨ Ended s ids t) := by
  induction frames using List.reverseRecOn with
  | nil => exact ⟨_, [], rfl, .inl (.start geometry logged points)⟩
  | append_singleton frames frame ih =>
    obtain ⟨t, ids, reached, now⟩ := ih fun frame' member => tracked frame' (List.mem_append_left _ member)
    have next : ∀ u, t.update geometry frame = .ok u →
        Machine.attempt (step geometry) (s.set geometry (.calibrate true)) ((frames ++ [frame]).map .frame) = some u := by
      intro u updated
      rw [List.map_append, Machine.attempt_append, reached]
      show (t.step geometry (.frame frame)).bind _ = some u
      rw [(step_frame_iff geometry).mpr updated]
      rfl
    rcases now with collecting | ended
    · obtain ⟨u, updated, ⟨id, _, _, _, goes⟩ | ⟨_, goes⟩⟩ :=
        collecting.update geometry positive (tracked frame (by simp))
      · exact ⟨u, ids ++ [id], next u updated, goes⟩
      · exact ⟨u, ids, next u updated, .inl goes⟩
    · exact ⟨t, ids, next t (ended.update geometry frame), .inr ended⟩

end State

open State

/-- A session records one point of the surface for each point of the screen. -/
theorem session_collects {before : List (Event P)} {s : State P} (reached : Machine.attempt (step geometry) (new geometry) before = some s)
    (points : 1 ≤ s.screenPoints.length) (positive : 1 ≤ s.durationPerPoint) {frames : List (Frame P)} (tracked : Tracked frames) :
    ∃ t ids, Machine.attempt (step geometry) (s.set geometry (.calibrate true)) (frames.map .frame) = some t ∧
      t.recorded = s.recorded ++ ids ∧
      t.recorded.IsChain (· ≠ ·) ∧
      (0 < t.activePoint → t.surfacePoints.length = t.activePoint) ∧
      (t.calibrate = true ↔ ids.length < s.screenPoints.length) ∧
      (t.calibrate = false → ids.length = s.screenPoints.length ∧ t.calibrated = true ∧
        t.screenPoints = s.screenPoints ∧ t.surfacePoints.length = s.screenPoints.length) ∧
      ∀ frame, (∀ touch ∈ frame.blobs, 0 < touch.blobId) → ∃ u, t.step geometry (.frame frame) = some u ∧
        (u.recorded = t.recorded ∨ ∃ id, u.recorded = t.recorded ++ [id]) ∧
        ∀ id, u.recorded = t.recorded ++ [id] ↔
          t.calibrate = true ∧ single frame = some id ∧ Due s.durationPerPoint (frames ++ [frame]) t.recorded id := by
  obtain ⟨t, ids, ran, now⟩ := reached_session geometry (reached_logged geometry reached) points positive frames tracked
  rcases now with collecting | ended
  · refine ⟨t, ids, ran, collecting.recorded, collecting.logged.apart, ?_, ?_, ?_, ?_⟩
    · rw [collecting.active]
      exact collecting.collected
    · exact ⟨fun _ => collecting.more, fun _ => collecting.on⟩
    · intro off
      cases collecting.on.symm.trans off
    · intro frame real
      obtain ⟨u, updated, is⟩ := collecting.update geometry positive real
      refine ⟨u, (step_frame_iff geometry).mpr updated, ?_⟩
      rcases is with ⟨id, only, due, recorded, _⟩ | ⟨never, still⟩
      · refine ⟨.inr ⟨id, recorded⟩, fun id' => ⟨fun same => ?_, fun is => ?_⟩⟩
        · rw [recorded, List.append_cancel_left_eq] at same
          cases same
          exact ⟨collecting.on, only, due⟩
        · rw [only] at is
          cases is.2.1
          exact recorded
      · have same : u.recorded = t.recorded := still.recorded.trans collecting.recorded.symm
        refine ⟨.inl same, fun id => ⟨fun more => ?_, fun is => absurd is.2.2 (never id is.2.1)⟩⟩
        rw [same] at more
        simp at more
  · refine ⟨t, ids, ran, ended.recorded, ended.logged.apart, ?_, ?_, ?_, ?_⟩
    · rw [ended.active]
      nofun
    · rw [ended.off, ended.all]
      simp
    · exact fun _ => ⟨ended.all, ended.calibrated, ended.screen, ended.surface⟩
    · intro frame _
      refine ⟨t, (step_frame_iff geometry).mpr (ended.update geometry frame), .inl rfl, fun id => ⟨fun more => ?_, fun is => ?_⟩⟩
      · simp at more
      · cases ended.off.symm.trans is.1

/-- Two points, each held for two frames. -/
theorem session_collects_two :
    ∃ s t : State Unit, ∃ ids,
      Machine.attempt (step flat) (new flat) [.set (.screenPoints [(), ()]), .set (.durationPerPoint 1)] = some s ∧
      Machine.attempt (step flat) (s.set flat (.calibrate true)) ([tap flat 1, tap flat 1, tap flat 2, tap flat 2].map .frame) = some t ∧
      t.recorded = s.recorded ++ ids ∧ (t.calibrate = true ↔ ids.length < s.screenPoints.length) := by
  obtain ⟨s, reached, points, positive⟩ : ∃ s : State Unit,
      Machine.attempt (step flat) (new flat) [.set (.screenPoints [(), ()]), .set (.durationPerPoint 1)] = some s ∧
        1 ≤ s.screenPoints.length ∧ 1 ≤ s.durationPerPoint :=
    ⟨_, rfl, by decide, by decide⟩
  have tracked : Tracked [tap flat 1, tap flat 1, tap flat 2, tap flat 2] := by
    unfold Tracked
    decide
  obtain ⟨t, ids, ran, recorded, -, -, session, -⟩ := session_collects reached points positive tracked
  exact ⟨s, t, ids, reached, ran, recorded, session⟩

end Movid.Calibration
