import Mathlib.Data.List.Basic
import Mathlib.Tactic.SplitIfs
import Movid.Lib.Machine

/-!
# The calibration module

While `calibrate` is on, every point of the screen waits for a blob that stays long enough and the
place of that blob is recorded as the matching point of the surface. The properties of the
module can be set between any two frames and their callbacks run at once.
-/

namespace Movid.Calibration

/-- The arithmetic on points: the mean of two, and a node of the grid that `buildScreenPoints` prints. -/
structure Geometry (P : Type) where
  mean : P → P → P
  node : (cols rows : Int) → (x y : Nat) → P

structure Touch (P : Type) where
  blobId : Int
  point : P

/-- A frame. `current_touch` points at a variable of the call that set it, and `stale` is what a
later call finds there. -/
structure Frame (P : Type) where
  blobs : List (Touch P)
  stale : P

/-- A failing assertion of `calibrate` or `triangulate`, or an access that is not valid. -/
inductive Fault where
  | duration
  | touch
  | index
  | sizes
  deriving DecidableEq

/-- `currentTouch` says whether the pointer is not NULL. `recorded` is not in the source: the ids whose
points were recorded so far. -/
structure State (P : Type) where
  rows : Int
  cols : Int
  screenPoints : List P
  surfacePoints : List P
  calibrate : Bool
  durationPerPoint : Int
  retriangulate : Bool
  calibrated : Bool
  activePoint : Nat
  lastId : Int
  lastFinishedId : Int
  currentDuration : Int
  currentTouch : Bool
  recorded : List Int

/-- A property that is set from outside. -/
inductive Setting (P : Type) where
  | rows (value : Int)
  | cols (value : Int)
  | screenPoints (points : List P)
  | surfacePoints (points : List P)
  | calibrate (value : Bool)
  | durationPerPoint (value : Int)

inductive Event (P : Type) where
  | set (setting : Setting P)
  | frame (frame : Frame P)

variable {P : Type} (geometry : Geometry P)

def grid (cols rows : Int) : List P :=
  (List.range cols.toNat).flatMap fun x => (List.range rows.toNat).map fun y => geometry.node cols rows x y

theorem length_grid (cols rows : Int) : (grid geometry cols rows).length = cols.toNat * rows.toNat := by
  simp [grid]

namespace State

def buildScreenPoints (s : State P) : State P := { s with screenPoints := grid geometry s.cols s.rows }

def resetCalibration (s : State P) : State P := { s with lastId := -1, activePoint := 0 }

def surfacepointsChanged (s : State P) : State P :=
  if s.screenPoints.length = s.surfacePoints.length then { s with retriangulate := true, calibrated := true } else s

def setSurfacePoints (s : State P) (points : List P) : State P := { s with surfacePoints := points }.surfacepointsChanged

/-- The callback of `calibrate` and `duration_per_point`. -/
def activateCalibration (s : State P) (value : Bool) : State P := if value then s.resetCalibration else s

/-- The minimum of `rows` and `cols` is for the GUI only. -/
def set (s : State P) : Setting P → State P
  | .rows value => { s with rows := value }.buildScreenPoints geometry
  | .cols value => { s with cols := value }.buildScreenPoints geometry
  | .screenPoints points => { s with screenPoints := points }
  | .surfacePoints points => s.setSurfacePoints points
  | .calibrate value => { s with calibrate := value }.activateCalibration value
  | .durationPerPoint value => { s with durationPerPoint := value }.activateCalibration (value ≠ 0)

def new : State P :=
  { rows := 3, cols := 3, screenPoints := grid geometry 3 3, surfacePoints := [], calibrate := false, durationPerPoint := 50
    retriangulate := false, calibrated := false, activePoint := 0, lastId := -1, lastFinishedId := -1
    currentDuration := 0, currentTouch := false, recorded := [] }

def triangulate (s : State P) : Except Fault (State P) :=
  if s.screenPoints.length = s.surfacePoints.length then .ok { s with retriangulate := false } else .error .sizes

/-- The end of `calibrate` once the touch was there long enough. -/
def finish (s : State P) (point : P) : Except Fault (State P) :=
  let s := { s with
    lastFinishedId := s.lastId, currentTouch := false, currentDuration := 0, recorded := s.recorded ++ [s.lastId] }
  let s := s.setSurfacePoints (s.surfacePoints ++ [point])
  if s.activePoint + 1 = s.screenPoints.length then
    { s with activePoint := 0, calibrate := false, calibrated := true }.triangulate
  else if s.activePoint < s.screenPoints.length then .ok { s with activePoint := s.activePoint + 1 }
  else .error .index

/-- `calibrate` from the assignment of `last_id` on. `point` is what `current_touch` points at. -/
def hold (s : State P) (blobId : Int) (point : Option P) : Except Fault (State P) :=
  let s := { s with lastId := blobId }
  if s.currentDuration < s.durationPerPoint then .ok s
  else
    match point with
    | none => .error .touch
    | some point => s.finish point

/-- At the first point the results of the last session are dropped. -/
def discard (s : State P) : State P := if s.activePoint = 0 then s.setSurfacePoints [] else s

/-- `calibrate` for the only touch of a frame. -/
def take (s : State P) (touch : Touch P) (stale : P) : Except Fault (State P) :=
  if touch.blobId = s.lastId then
    if s.lastFinishedId = touch.blobId then .ok s
    else if s.currentTouch = false ∧ s.currentDuration ≠ 0 then .error .duration
    else
      let point := if s.currentTouch then geometry.mean stale touch.point else geometry.mean touch.point touch.point
      { s with currentTouch := true, currentDuration := s.currentDuration + 1 }.hold touch.blobId (some point)
  else { s with currentTouch := false, currentDuration := 0 }.hold touch.blobId none

/-- `moCalibrationModule::calibrate`. -/
def calibrateFrame (s : State P) (frame : Frame P) : Except Fault (State P) :=
  match frame.blobs with
  | [touch] => s.discard.take geometry touch frame.stale
  | _ => .ok s

/-- `transformPoints` reads none of this state. -/
def update (s : State P) (frame : Frame P) : Except Fault (State P) :=
  if s.calibrate then s.calibrateFrame geometry frame
  else if s.calibrated && s.retriangulate then s.triangulate
  else .ok s

/-- `none` when the module hits a fault. -/
def step (s : State P) : Event P → Option (State P)
  | .set setting => some (s.set geometry setting)
  | .frame frame => (s.update geometry frame).toOption

theorem setSurfacePoints_eq (s : State P) (points : List P) :
    s.setSurfacePoints points =
      { s with
        surfacePoints := points
        retriangulate := s.retriangulate || (s.screenPoints.length == points.length)
        calibrated := s.calibrated || (s.screenPoints.length == points.length) } := by
  by_cases same : s.screenPoints.length = points.length <;> simp [setSurfacePoints, surfacepointsChanged, same]

variable {s t : State P}

theorem discard_eq (s : State P) :
    s.discard =
      { s with
        surfacePoints := if s.activePoint = 0 then [] else s.surfacePoints
        retriangulate := s.retriangulate || (s.activePoint == 0 && s.screenPoints.length == 0)
        calibrated := s.calibrated || (s.activePoint == 0 && s.screenPoints.length == 0) } := by
  by_cases first : s.activePoint = 0
  · simp [discard, setSurfacePoints_eq, first]
  · simp [discard, first, beq_false_of_ne first]

/-! ### The ways through a call -/

theorem triangulate_ok (same : s.screenPoints.length = s.surfacePoints.length) :
    s.triangulate = .ok { s with retriangulate := false } :=
  if_pos same

/-- The state in which `finish` looks at `active_point`. -/
def record (s : State P) (point : P) : State P :=
  { s with
    lastFinishedId := s.lastId
    currentTouch := false
    currentDuration := 0
    recorded := s.recorded ++ [s.lastId]
    surfacePoints := s.surfacePoints ++ [point]
    retriangulate := s.retriangulate || (s.screenPoints.length == s.surfacePoints.length + 1)
    calibrated := s.calibrated || (s.screenPoints.length == s.surfacePoints.length + 1) }

theorem finish_eq (s : State P) (point : P) :
    s.finish point =
      if s.activePoint + 1 = s.screenPoints.length then
        { s.record point with activePoint := 0, calibrate := false, calibrated := true }.triangulate
      else if s.activePoint < s.screenPoints.length then .ok { s.record point with activePoint := s.activePoint + 1 }
      else .error .index := by
  unfold finish
  simp only [setSurfacePoints_eq, List.length_append, List.length_singleton]
  rfl

theorem finish_last (last : s.activePoint + 1 = s.screenPoints.length) (point : P) :
    s.finish point = { s.record point with activePoint := 0, calibrate := false, calibrated := true }.triangulate := by
  rw [finish_eq, if_pos last]

theorem finish_next (next : s.activePoint + 1 < s.screenPoints.length) (point : P) :
    s.finish point = .ok { s.record point with activePoint := s.activePoint + 1 } := by
  rw [finish_eq, if_neg (by omega), if_pos (by omega)]

/-- What a frame notes about its touch. -/
def press (s : State P) (id : Int) (currentTouch : Bool) (currentDuration : Int) : State P :=
  { s with lastId := id, currentTouch, currentDuration }

variable (touch : Touch P) (stale : P)

theorem take_other (other : touch.blobId ≠ s.lastId) (positive : 0 < s.durationPerPoint) :
    s.take geometry touch stale = .ok (s.press touch.blobId false 0) := by
  rw [State.take, if_neg other, hold, if_pos (show (0 : Int) < s.durationPerPoint from positive)]
  rfl

theorem take_other_fault (other : touch.blobId ≠ s.lastId) (negative : s.durationPerPoint ≤ 0) :
    s.take geometry touch stale = .error .touch := by
  rw [State.take, if_neg other, hold, if_neg (show ¬ (0 : Int) < s.durationPerPoint by omega)]

theorem take_finished (same : touch.blobId = s.lastId) (finished : s.lastFinishedId = touch.blobId) :
    s.take geometry touch stale = .ok s := by
  rw [State.take, if_pos same, if_pos finished]

theorem take_same (same : touch.blobId = s.lastId) (unfinished : s.lastFinishedId ≠ touch.blobId)
    (idle : s.currentTouch = false → s.currentDuration = 0) :
    ∃ point, s.take geometry touch stale =
      if s.currentDuration + 1 < s.durationPerPoint then .ok (s.press touch.blobId true (s.currentDuration + 1))
      else (s.press touch.blobId true (s.currentDuration + 1)).finish point := by
  have passes : ¬ (s.currentTouch = false ∧ s.currentDuration ≠ 0) := fun failed => failed.2 (idle failed.1)
  rw [State.take, if_pos same, if_neg unfinished, if_neg passes]
  exact ⟨_, rfl⟩

/-! ### What cannot fail -/

/-- No frames can lead from here to a fault. -/
structure Safe (s : State P) : Prop where
  idle : s.currentTouch = false → s.currentDuration = 0
  duration : s.calibrate = true → 1 ≤ s.durationPerPoint
  index : s.calibrate = true → s.activePoint < s.screenPoints.length
  collected : s.calibrate = true → 0 < s.activePoint → s.surfacePoints.length = s.activePoint
  pending : s.calibrate = false → s.calibrated = true → s.retriangulate = true → s.screenPoints.length = s.surfacePoints.length

theorem Safe.new (geometry : Geometry P) : (new geometry).Safe where
  idle _ := rfl
  duration := nofun
  index := nofun
  collected := nofun
  pending := nofun

/-- `Safe` in a session, when the points of the last one are gone. -/
theorem Safe.on (on : s.calibrate = true) (idle : s.currentTouch = false → s.currentDuration = 0)
    (duration : 1 ≤ s.durationPerPoint) (index : s.activePoint < s.screenPoints.length)
    (collected : 0 < s.activePoint → s.surfacePoints.length = s.activePoint) : s.Safe :=
  ⟨idle, fun _ => duration, fun _ => index, fun _ => collected, fun off => absurd (on.symm.trans off) nofun⟩

theorem length_discard (safe : s.Safe) (on : s.calibrate = true) : s.discard.surfacePoints.length = s.activePoint := by
  rw [discard_eq]
  show (if s.activePoint = 0 then [] else s.surfacePoints).length = s.activePoint
  split_ifs with first
  · exact first.symm
  · exact safe.collected on (Nat.pos_of_ne_zero first)

theorem Safe.discard (safe : s.Safe) (on : s.calibrate = true) : s.discard.Safe := by
  have length := length_discard safe on
  rw [discard_eq] at length ⊢
  exact .on on safe.idle (safe.duration on) (safe.index on) fun _ => length

theorem Safe.finish (safe : s.Safe) (on : s.calibrate = true) (length : s.surfacePoints.length = s.activePoint) (point : P) :
    ∃ t, s.finish point = .ok t ∧ t.Safe := by
  have inside := safe.index on
  rcases Nat.lt_or_eq_of_le inside with next | last
  · refine ⟨_, finish_next next point, .on on (fun _ => rfl) (safe.duration on) next fun _ => ?_⟩
    simp [record, length]
  · refine ⟨_, (finish_last last point).trans (triangulate_ok ?_), fun _ => rfl, nofun, nofun, nofun, fun _ _ => nofun⟩
    simp [record, length, ← last]

theorem Safe.take (safe : s.Safe) (on : s.calibrate = true) (length : s.surfacePoints.length = s.activePoint) (touch : Touch P) (stale : P) :
    ∃ t, s.take geometry touch stale = .ok t ∧ t.Safe := by
  have duration := safe.duration on
  by_cases same : touch.blobId = s.lastId
  · by_cases finished : s.lastFinishedId = touch.blobId
    · exact ⟨s, take_finished geometry touch stale same finished, safe⟩
    · obtain ⟨point, taken⟩ := take_same geometry touch stale same finished safe.idle
      have pressed : (s.press touch.blobId true (s.currentDuration + 1)).Safe :=
        .on on nofun duration (safe.index on) fun _ => length
      rw [taken]
      split_ifs
      · exact ⟨_, rfl, pressed⟩
      · exact pressed.finish on length point
  · exact ⟨_, take_other geometry touch stale same (by omega), .on on (fun _ => rfl) duration (safe.index on) fun _ => length⟩

theorem Safe.update (safe : s.Safe) (frame : Frame P) : ∃ t, s.update geometry frame = .ok t ∧ t.Safe := by
  unfold State.update
  split_ifs with on pending
  · unfold calibrateFrame
    split
    · refine (safe.discard on).take geometry ?_ ?_ _ _
      · simpa [discard_eq] using on
      · rw [length_discard safe on, discard_eq]
    · exact ⟨s, rfl, safe⟩
  · obtain ⟨calibrated, retriangulate⟩ := Bool.and_eq_true_iff.mp pending
    have same := safe.pending (by simpa using on) calibrated retriangulate
    exact ⟨_, triangulate_ok same, safe.idle, safe.duration, safe.index, safe.collected, fun _ _ => nofun⟩
  · exact ⟨s, rfl, safe⟩

theorem step_frame_iff {frame : Frame P} : s.step geometry (.frame frame) = some t ↔ s.update geometry frame = .ok t := by
  show (s.update geometry frame).toOption = some t ↔ _
  cases s.update geometry frame <;> simp [Except.toOption]

/-! ### Settings that fit -/

/-- The screen may get `count` points. -/
def Covers (s : State P) (count : Nat) : Prop :=
  if s.calibrate then s.activePoint < count
  else s.calibrated = true → s.retriangulate = true → count = s.surfacePoints.length

/-- The condition on a setting, in the state that it finds. -/
def Fits (s : State P) : Setting P → Prop
  | .rows value => s.Covers (s.cols.toNat * value.toNat)
  | .cols value => s.Covers (value.toNat * s.rows.toNat)
  | .screenPoints points => s.Covers points.length
  | .surfacePoints points =>
    if s.calibrate then 0 < s.activePoint → points.length = s.activePoint
    else s.calibrated = true → s.retriangulate = true → s.screenPoints.length = points.length
  | .calibrate value =>
    if value then 1 ≤ s.durationPerPoint ∧ 0 < s.screenPoints.length
    else s.calibrated = true → s.retriangulate = true → s.screenPoints.length = s.surfacePoints.length
  | .durationPerPoint value => s.calibrate = true → 1 ≤ value

theorem covers_iff (safe : s.Safe) {r : State P} {points : List P}
    (same : r = { s with rows := r.rows, cols := r.cols, screenPoints := points }) : s.Covers points.length ↔ r.Safe := by
  rw [same]
  unfold Covers
  split_ifs with on
  · exact ⟨fun index => .on on safe.idle (safe.duration on) index (safe.collected on), fun safe => safe.index on⟩
  · have off := Bool.eq_false_iff.mpr on
    exact ⟨fun pending => ⟨safe.idle, fun on' => absurd on' on, fun on' => absurd on' on, fun on' => absurd on' on, fun _ => pending⟩,
      fun safe => safe.pending off⟩

theorem fits_iff (safe : s.Safe) (setting : Setting P) : s.Fits setting ↔ (s.set geometry setting).Safe := by
  cases setting with
  | rows value =>
    show s.Covers _ ↔ _
    rw [← length_grid geometry]
    exact covers_iff safe rfl
  | cols value =>
    show s.Covers _ ↔ _
    rw [← length_grid geometry]
    exact covers_iff safe rfl
  | screenPoints points => exact covers_iff safe rfl
  | surfacePoints points =>
    simp only [Fits, set, setSurfacePoints_eq]
    split_ifs with on
    · exact ⟨fun collected => .on on safe.idle (safe.duration on) (safe.index on) collected, fun safe => safe.collected on⟩
    · have off := Bool.eq_false_iff.mpr on
      constructor
      · intro pending
        refine ⟨safe.idle, fun on' => absurd on' on, fun on' => absurd on' on, fun on' => absurd on' on, fun _ => ?_⟩
        simp only [Bool.or_eq_true, beq_iff_eq]
        rintro (calibrated | same) (retriangulate | same')
        · exact pending calibrated retriangulate
        all_goals assumption
      · intro safe calibrated retriangulate
        exact safe.pending off (by simp [calibrated]) (by simp [retriangulate])
  | calibrate value =>
    cases value with
    | true => exact ⟨fun fits => .on rfl safe.idle fits.1 fits.2 nofun, fun safe => ⟨safe.duration rfl, safe.index rfl⟩⟩
    | false => exact ⟨fun pending => ⟨safe.idle, nofun, nofun, nofun, fun _ => pending⟩, fun safe => safe.pending rfl⟩
  | durationPerPoint value =>
    refine ⟨fun duration => ?_, fun safe on => ?_⟩
    · by_cases zero : value = 0
      · subst value
        exact ⟨safe.idle, duration, safe.index, safe.collected, safe.pending⟩
      · simp only [set, activateCalibration, decide_eq_true zero, if_true]
        exact ⟨safe.idle, duration, fun on => Nat.zero_lt_of_lt (safe.index on), fun _ => nofun, safe.pending⟩
    · by_cases zero : value = 0
      · subst value
        exact safe.duration on
      · simp only [set, activateCalibration, decide_eq_true zero, if_true] at safe
        exact safe.duration on

/-! ### Frames that reach a fault -/

def dab (id : Int) : Touch P := { blobId := id, point := geometry.node 0 0 0 0 }

/-- A frame with one touch. -/
def tap (id : Int) : Frame P := { blobs := [dab geometry id], stale := (dab geometry id).point }

theorem discard_press (s : State P) (id : Int) (currentTouch : Bool) (currentDuration : Int) :
    (s.discard.press id currentTouch currentDuration).discard = s.discard.press id currentTouch currentDuration := by
  by_cases first : s.activePoint = 0
  · simp [discard_eq, press, first]
  · simp [discard_eq, press, first, beq_false_of_ne first]

theorem update_tap (on : s.calibrate = true) (id : Int) :
    s.update geometry (tap geometry id) = s.discard.take geometry (dab geometry id) (dab geometry id).point := by
  rw [State.update, if_pos on]
  rfl

theorem attempt_tap (on : s.calibrate = true) {id : Int} {result : Except Fault (State P)}
    (taken : s.discard.take geometry (dab geometry id) (dab geometry id).point = result) :
    Machine.attempt (step geometry) s [.frame (tap geometry id)] = result.toOption := by
  show (s.update geometry (tap geometry id)).toOption.bind _ = _
  rw [update_tap geometry on, taken]
  cases result <;> rfl

/-- The next frame with the touch that is held. -/
theorem take_held (s : State P) {id : Int} (unfinished : s.lastFinishedId ≠ id) (k : Nat) :
    ∃ point, (s.discard.press id (0 < k) k).discard.take geometry (dab geometry id) (dab geometry id).point =
      if ((k + 1 : Nat) : Int) < s.durationPerPoint then .ok (s.discard.press id true (k + 1 : Nat))
      else (s.discard.press id true (k + 1 : Nat)).finish point := by
  have idle : (s.discard.press id (0 < k) k).currentTouch = false → (s.discard.press id (0 < k) k).currentDuration = 0 := by
    simp [press]
  obtain ⟨point, taken⟩ := take_same geometry (dab geometry id) (dab geometry id).point
    (s := s.discard.press id (0 < k) k) rfl (by rw [discard_eq]; exact unfinished) idle
  refine ⟨point, ?_⟩
  rw [discard_press, taken, discard_eq]
  rfl

theorem hold_taps (on : s.calibrate = true) {id : Int} (other : id ≠ s.lastId) (unfinished : s.lastFinishedId ≠ id) (k : Nat)
    (short : (k : Int) < s.durationPerPoint) :
    Machine.attempt (step geometry) s (List.replicate (k + 1) (.frame (tap geometry id))) =
      some (s.discard.press id (0 < k) k) := by
  have still : ∀ k : Nat, (s.discard.press id (0 < k) k).calibrate = true := by
    intro k
    rw [discard_eq]
    exact on
  induction k with
  | zero =>
    have taken := take_other geometry (dab geometry id) (dab geometry id).point (s := s.discard)
      (by rw [discard_eq]; exact other) (by rw [discard_eq]; exact short)
    exact attempt_tap geometry on taken
  | succ k ih =>
    obtain ⟨point, taken⟩ := take_held geometry s unfinished k
    rw [if_pos short] at taken
    rw [List.replicate_succ', Machine.attempt_append, ih (by omega), Option.bind_some, attempt_tap geometry (still k) taken]
    simp [Except.toOption]

theorem record_taps (on : s.calibrate = true) (positive : 1 ≤ s.durationPerPoint) {id : Int} (other : id ≠ s.lastId)
    (unfinished : s.lastFinishedId ≠ id) :
    ∃ count point, Machine.attempt (step geometry) s (List.replicate count (.frame (tap geometry id))) =
      ((s.discard.press id true s.durationPerPoint).finish point).toOption := by
  obtain ⟨k, length⟩ : ∃ k : Nat, s.durationPerPoint = (k + 1 : Nat) := ⟨(s.durationPerPoint - 1).toNat, by omega⟩
  obtain ⟨point, taken⟩ := take_held geometry s unfinished k
  rw [if_neg (by omega)] at taken
  have still : (s.discard.press id (0 < k) k).calibrate = true := by
    rw [discard_eq]
    exact on
  refine ⟨k + 1 + 1, point, ?_⟩
  rw [List.replicate_succ', Machine.attempt_append, hold_taps geometry on other unfinished k (by omega), Option.bind_some,
    attempt_tap geometry still taken, length]

def Tracked (frames : List (Frame P)) : Prop := ∀ frame ∈ frames, ∀ touch ∈ frame.blobs, 0 < touch.blobId

theorem exists_fresh (a b : Int) : ∃ id : Int, 0 < id ∧ id ≠ a ∧ b ≠ id := by
  by_cases one : (1 : Int) ≠ a ∧ b ≠ 1
  · exact ⟨1, by omega, one⟩
  · by_cases two : (2 : Int) ≠ a ∧ b ≠ 2
    · exact ⟨2, by omega, two⟩
    · exact ⟨3, by omega, by omega, by omega⟩

theorem tracked_replicate (count : Nat) {id : Int} (positive : 0 < id) : Tracked (List.replicate count (tap geometry id)) := by
  intro frame member touch inside
  rw [List.eq_of_mem_replicate member] at inside
  rw [List.mem_singleton.mp inside]
  exact positive

/-- The numbers of points do not match, so that some later point fails. -/
def Stuck (s : State P) : Prop :=
  s.screenPoints.length ≤ s.activePoint ∨ (0 < s.activePoint ∧ s.surfacePoints.length ≠ s.activePoint)

theorem finish_mismatch (mismatch : s.activePoint < s.screenPoints.length → s.surfacePoints.length ≠ s.activePoint) (point : P) :
    (∃ fault, s.finish point = .error fault) ∨
    ∃ t, s.finish point = .ok t ∧ t.Stuck ∧ t.calibrate = s.calibrate ∧ t.durationPerPoint = s.durationPerPoint ∧
      t.screenPoints.length - t.activePoint < s.screenPoints.length - s.activePoint := by
  rcases Nat.lt_trichotomy (s.activePoint + 1) s.screenPoints.length with next | last | past
  · refine .inr ⟨_, finish_next next point, .inr ⟨Nat.succ_pos _, ?_⟩, rfl, rfl, ?_⟩
    · have other := mismatch (by omega)
      simpa [record] using other
    · show s.screenPoints.length - (s.activePoint + 1) < s.screenPoints.length - s.activePoint
      omega
  · refine .inl ⟨.sizes, (finish_last last point).trans (if_neg ?_)⟩
    have other := mismatch (by omega)
    simp only [record, List.length_append, List.length_singleton]
    omega
  · exact .inl ⟨.index, by rw [finish_eq, if_neg (by omega), if_neg (by omega)]⟩

theorem Stuck.finish (stuck : s.Stuck) (id duration : Int) (point : P) :
    (∃ fault, (s.discard.press id true duration).finish point = .error fault) ∨
    ∃ t, (s.discard.press id true duration).finish point = .ok t ∧ t.Stuck ∧ t.calibrate = s.calibrate ∧
      t.durationPerPoint = s.durationPerPoint ∧ t.screenPoints.length - t.activePoint < s.screenPoints.length - s.activePoint := by
  have mismatch : s.activePoint < s.screenPoints.length →
      (if s.activePoint = 0 then [] else s.surfacePoints).length ≠ s.activePoint := by
    intro inside
    obtain ⟨begun, other⟩ := stuck.resolve_left (by omega)
    rwa [if_neg (by omega)]
  have := finish_mismatch (s := s.discard.press id true duration) (by rw [discard_eq]; exact mismatch) point
  rw [discard_eq] at this ⊢
  exact this

/-- A session whose lists do not match ends in a fault once enough points are recorded. -/
theorem Stuck.exists_fault (stuck : s.Stuck) (on : s.calibrate = true) (positive : 1 ≤ s.durationPerPoint) :
    ∃ frames, Tracked frames ∧ Machine.attempt (step geometry) s (frames.map .frame) = none := by
  induction left : s.screenPoints.length - s.activePoint using Nat.strongRecOn generalizing s with
  | ind left ih =>
    obtain ⟨id, real, other, unfinished⟩ := exists_fresh s.lastId s.lastFinishedId
    obtain ⟨count, point, taken⟩ := record_taps geometry on positive other unfinished
    have tracked := tracked_replicate geometry count real
    rw [← List.map_replicate] at taken
    rcases stuck.finish id s.durationPerPoint point with ⟨fault, failed⟩ | ⟨t, done, still, same, duration, nearer⟩
    · refine ⟨_, tracked, ?_⟩
      rw [taken, failed]
      rfl
    · obtain ⟨frames, rest, failed⟩ := ih _ (left ▸ nearer) still (same.trans on) (duration ▸ positive) rfl
      refine ⟨List.replicate count (tap geometry id) ++ frames, ?_, ?_⟩
      · intro frame member
        rcases List.mem_append.mp member with first | later
        · exact tracked frame first
        · exact rest frame later
      · rw [List.map_append, Machine.attempt_append, taken, done]
        exact failed

def Survives (s : State P) : Prop :=
  ∀ frames, Tracked frames → (Machine.attempt (step geometry) s (frames.map .frame)).isSome

theorem Survives.safe (survives : s.Survives geometry) (idle : s.currentTouch = false → s.currentDuration = 0) : s.Safe := by
  have never : ∀ {frames}, Tracked frames → Machine.attempt (step geometry) s (frames.map .frame) ≠ none := by
    intro frames tracked failed
    have := survives frames tracked
    rw [failed] at this
    cases this
  have duration : s.calibrate = true → 1 ≤ s.durationPerPoint := by
    intro on
    by_contra negative
    obtain ⟨id, real, other, _⟩ := exists_fresh s.lastId s.lastFinishedId
    have failed : s.discard.take geometry (dab geometry id) (dab geometry id).point = .error .touch := by
      rw [discard_eq]
      exact take_other_fault geometry _ _ other (by show s.durationPerPoint ≤ 0; omega)
    exact never (tracked_replicate geometry 1 real) (attempt_tap geometry on failed)
  have unstuck : s.calibrate = true → ¬ s.Stuck := by
    intro on stuck
    obtain ⟨frames, tracked, failed⟩ := stuck.exists_fault geometry on (duration on)
    exact never tracked failed
  refine ⟨idle, duration, fun on => ?_, fun on begun => ?_, fun off calibrated retriangulate => ?_⟩
  · exact Nat.lt_of_not_le fun past => unstuck on (.inl past)
  · by_contra other
    exact unstuck on (.inr ⟨begun, other⟩)
  · by_contra other
    refine never (tracked_replicate geometry 1 (show 0 < (1 : Int) by omega)) ?_
    show (s.update geometry (tap geometry 1)).toOption.bind _ = none
    rw [State.update, if_neg (by simp [off]), if_pos (by simp [calibrated, retriangulate]), triangulate, if_neg other]
    rfl

/-! ### Runs -/

def Permits (s : State P) : Event P → Prop
  | .set setting => s.Fits setting
  | .frame _ => True

theorem Safe.step (safe : s.Safe) (event : Event P) (permitted : s.Permits event) : ∃ t, s.step geometry event = some t ∧ t.Safe := by
  cases event with
  | set setting => exact ⟨_, rfl, (fits_iff geometry safe setting).mp permitted⟩
  | frame frame =>
    obtain ⟨t, updated, kept⟩ := safe.update geometry frame
    exact ⟨t, (step_frame_iff geometry).mpr updated, kept⟩

theorem Safe.frames (safe : s.Safe) (frames : List (Frame P)) :
    (Machine.attempt (State.step geometry) s (frames.map .frame)).isSome := by
  induction frames generalizing s with
  | nil => rfl
  | cons frame rest ih =>
    obtain ⟨t, stepped, kept⟩ := safe.step geometry (.frame frame) trivial
    rw [List.map_cons, Machine.attempt, stepped]
    exact ih kept

/-- What no setting touches. -/
theorem set_kept (s : State P) (setting : Setting P) :
    (s.set geometry setting).currentTouch = s.currentTouch ∧ (s.set geometry setting).currentDuration = s.currentDuration ∧
    (s.set geometry setting).lastFinishedId = s.lastFinishedId ∧ (s.set geometry setting).recorded = s.recorded := by
  cases setting with
  | rows | cols | screenPoints => exact ⟨rfl, rfl, rfl, rfl⟩
  | surfacePoints points =>
    rw [set, setSurfacePoints_eq]
    exact ⟨rfl, rfl, rfl, rfl⟩
  | calibrate value => cases value <;> exact ⟨rfl, rfl, rfl, rfl⟩
  | durationPerPoint value =>
    simp only [set, activateCalibration]
    split_ifs <;> exact ⟨rfl, rfl, rfl, rfl⟩

theorem idle_set (setting : Setting P) (idle : s.currentTouch = false → s.currentDuration = 0) :
    (s.set geometry setting).currentTouch = false → (s.set geometry setting).currentDuration = 0 := by
  obtain ⟨touch, duration, -, -⟩ := set_kept geometry s setting
  rwa [touch, duration]

theorem keeps (s : State P) (event : Event P) (t : State P) (permitted : s.Permits event)
    (stepped : s.step geometry event = some t) (safe : s.Safe) : t.Safe := by
  obtain ⟨t', stepped', kept⟩ := safe.step geometry event permitted
  rw [stepped] at stepped'
  cases stepped'
  exact kept

theorem needs (s : State P) (event : Event P) (t : State P) (stepped : s.step geometry event = some t) (safe : s.Safe)
    (survives : t.Survives geometry) : s.Permits event := by
  cases event with
  | set setting =>
    cases stepped
    exact (fits_iff geometry safe setting).mpr (survives.safe geometry (idle_set geometry setting safe.idle))
  | frame frame => trivial

end State

open State

/-- The settings of a run fit when no frames, at any time, can lead to a fault. -/
theorem settings_fit_iff (geometry : Geometry P) (events : List (Event P)) :
    Machine.Allowed (step geometry) Permits (new geometry) events ↔
      ∀ k frames, Tracked frames → (Machine.attempt (step geometry) (new geometry) (events.take k ++ frames.map .frame)).isSome := by
  constructor
  · intro allowed k frames _
    obtain ⟨t, reached, safe⟩ := Machine.allowed_reaches (fun _ event permitted safe => Safe.step geometry safe event permitted)
      (.new geometry) (allowed.take k)
    rw [Machine.attempt_append, reached]
    exact safe.frames geometry frames
  · intro survives
    obtain ⟨t, reached⟩ := Option.isSome_iff_exists.mp (survives events.length [] nofun)
    rw [List.take_length, List.map_nil, List.append_nil] at reached
    have good : ∀ s : State P, s.Safe → s.Survives geometry := fun s safe frames _ => safe.frames geometry frames
    apply (Machine.forall_take_iff_allowed good (keeps geometry) (needs geometry) (Safe.new geometry) reached).mp
    intro k p first frames tracked
    have := survives k frames tracked
    rwa [Machine.attempt_append, first] at this

def flat : Geometry Unit := { mean := fun _ _ => (), node := fun _ _ _ _ => () }

/-- No duration; a list of screen points that is cleared; rows that change after surface points came in. -/
theorem settings_reach_faults :
    (∃ s, Machine.attempt (step flat) (new flat) [.set (.durationPerPoint 0), .set (.calibrate true)] = some s ∧
      s.update flat (tap flat 1) = .error .touch) ∧
    (∃ s, Machine.attempt (step flat) (new flat)
        [.set (.durationPerPoint 1), .set (.calibrate true), .frame (tap flat 1), .set (.screenPoints [])] = some s ∧
      s.update flat (tap flat 1) = .error .index) ∧
    ∃ s, Machine.attempt (step flat) (new flat) [.set (.surfacePoints (List.replicate 9 ())), .set (.rows 4)] = some s ∧
      s.update flat (tap flat 1) = .error .sizes :=
  ⟨⟨_, rfl, rfl⟩, ⟨_, rfl, rfl⟩, ⟨_, rfl, rfl⟩⟩

end Movid.Calibration
