import Movid.Tracker.Identity

/-!
# Angles that are unwrapped

The box of a blob only shows its orientation up to quarter turns. `trackAngles` counts the quarters by the jumps of
what it shows, which is right as long as a jump and a slow turn cannot be mistaken for each other.
-/

namespace Movid.Tracker

variable {D : Type} {ops : Doubles D} {mtdevMatch : Matching}

/-- The finder saw the blob at `theta` degrees. -/
def Shows (ops : Doubles D) (theta : Int) (b : Blob D) : Prop :=
  inTags "volatileangle" b.implements = some true ∧ ∃ rad, b.angle = some rad ∧ ops.toInt (radToDeg ops rad) = theta % 90

/-- An angle that stands for whole degrees, either as it was computed or as it was read. -/
def Degrees (ops : Doubles D) (rad : D) (degrees : Int) : Prop :=
  rad = degToRad ops (ops.ofInt degrees) ∨ ops.toInt (radToDeg ops rad) = degrees

/-- The orientation within the turn, when quarters are counted from the one the blob was first seen in. -/
def turn (start theta : Int) : Int := (theta - 90 * (start / 90)) % 360

theorem turn_bounds (start theta : Int) : 0 ≤ turn start theta ∧ turn start theta < 360 := by
  unfold turn
  omega

/-- The blob has turned to `theta` since it was first seen at `start`. -/
structure Unwound (ops : Doubles D) (start theta : Int) (b : Blob D) : Prop where
  fallenOver : b.fallenOver = some (theta / 90 - start / 90)
  lastAngle : b.lastAngle = some (theta % 90)
  angle : ∃ rad, b.angle = some rad ∧ Degrees ops rad (turn start theta)

/-- A turn that is no faster than the speed allows, and that no quarter turn makes look as slow. -/
def Slow (speed theta theta' : Int) : Prop :=
  (theta' - theta).natAbs ≤ speed ∧ (theta' - theta).natAbs < 90 - speed

theorem tmod_wraps (x : Int) : (x.tmod 360 + 360).tmod 360 = x % 360 := by
  rw [Int.tmod_eq_emod, Int.tmod_eq_emod]
  split <;> split <;> omega

/-! ### One blob -/

theorem trackAngle_first {settings : Settings D} {old : List (Blob D)} {theta : Int} {b : Blob D} (shows : Shows ops theta b)
    (absent : b.blobId ∉ ids old) : ∃ b', trackAngle ops settings old b = some b' ∧ Unwound ops theta theta b' := by
  obtain ⟨tag, rad, angle, degrees⟩ := shows
  refine ⟨{ b with lastAngle := some (theta % 90), fallenOver := some 0 }, ?_, ?_⟩
  · simp only [trackAngle, tag, angle, Option.bind_some, if_true, degrees, find?_of_not_mem absent]
  · refine ⟨by simp, rfl, rad, angle, .inr ?_⟩
    rw [degrees, turn]
    omega

theorem trackAngle_next {settings : Settings D} {old : List (Blob D)} {start theta theta' : Int} {b o : Blob D}
    (shows : Shows ops theta' b) (found : old.find? (·.blobId == b.blobId) = some o) (unwound : Unwound ops start theta o)
    (slow : Slow settings.maxRotationSpeed theta theta') :
    ∃ b', trackAngle ops settings old b = some b' ∧ Unwound ops start theta' b' := by
  obtain ⟨tag, rad, angle, degrees⟩ := shows
  obtain ⟨slow, far⟩ := slow
  -- The box is shown in the next quarter, in the one before or in the same.
  have turned : (if ((theta % 90 - theta' % 90).natAbs : Int) > settings.maxRotationSpeed then
      if theta % 90 > theta' % 90 then theta / 90 - start / 90 + 1 else theta / 90 - start / 90 - 1
      else theta / 90 - start / 90) = theta' / 90 - start / 90 := by
    split
    · split <;> omega
    · omega
  simp only [trackAngle, tag, angle, Option.bind_some, if_true, degrees, found, unwound.fallenOver, unwound.lastAngle, Option.map_some, turned]
  refine ⟨_, rfl, rfl, rfl, _, rfl, .inl ?_⟩
  rw [tmod_wraps, turn]
  congr 3
  omega

theorem Unwound.congr {start theta : Int} {b c : Blob D} (unwound : Unwound ops start theta b) (fallenOver : c.fallenOver = b.fallenOver)
    (lastAngle : c.lastAngle = b.lastAngle) (angle : c.angle = b.angle) : Unwound ops start theta c where
  fallenOver := fallenOver.trans unwound.fallenOver
  lastAngle := lastAngle.trans unwound.lastAngle
  angle := angle ▸ unwound.angle

theorem renewed_unwound {settings : Settings D} {old : List (Blob D)} {start theta : Int} {b : Blob D} (unwound : Unwound ops start theta b) :
    Unwound ops start theta (renewed settings old b) := by
  unfold renewed
  split
  · exact unwound.congr rfl rfl rfl
  · exact unwound

/-! ### The updates of a run -/

/-- The list holds the new blobs as `trackAngles` left them, and the lost blobs as they were. -/
def Report.Turned (ops : Doubles D) (r : Report D) : Prop :=
  ∃ new, r.detected.mapM (trackAngle ops r.settings r.old) = some new ∧
    r.list = new.map (renewed r.settings r.old) ++ lost r.settings r.old new

theorem finish_turned {kind : Kind} {counter : Int} {oldBlobs : List (Blob D)} {p : Progress D} {r : Report D} (ok : p.Ok kind counter oldBlobs)
    (empty : p.todo = []) (oldNodup : (ids oldBlobs).Nodup) (h : finish ops kind p = some r) : r.Turned ops := by
  have done := (finish_ok ok empty oldNodup h).1
  obtain ⟨detected, new, _, angles, rfl⟩ := finish_spec h
  refine ⟨new, angles, ?_⟩
  have angled := (Lists.forall₂_of_mapM angles).imp fun _ _ => trackAngle_angled
  have idsNew : ids new = ids detected := ids_of_forall₂ (fun b b' same => by rw [same]) angled
  refine foldl_retain p.settings ?_ (by rw [idsNew]; exact done.nodup)
  rw [ok.old, ids_older]
  exact oldNodup

theorem System.reached_turned (injective : mtdevMatch.Injective) {kinds : List Kind} {events : List (Event D)} {s : System D}
    (reached : Machine.attempt (System.step ops mtdevMatch) (.initial kinds) events = some s) {i : Nat} {t : State D}
    (found : s.trackers[i]? = some t) : ∀ r ∈ t.reports, r.Turned ops := by
  refine System.reached_tracker injective (I := fun t => ∀ r ∈ t.reports, r.Turned ops) nofun ?_ reached found
  intro t t' counter counter' event _ _ ok _ h kept
  cases State.step_moves h with
  | same => exact kept
  | begin => exact kept
  | track => exact kept
  | finish now empty finished =>
    intro q member
    rcases List.mem_append.mp member with before | last
    · exact kept q before
    · rw [List.mem_singleton.mp last]
      exact finish_turned (ok.progress _ now) empty ok.nodup finished

/-- `x` is found in update `k`. -/
def FoundIn (x : Int) (reports : List (Report D)) (k : Nat) : Prop := ∃ r, reports[k]? = some r ∧ x ∈ ids r.detected

/-- The blob `x` is at `theta k` degrees in update `k`, and turns slowly from one update that finds it to the next. -/
structure Rotates (ops : Doubles D) (x : Int) (theta : Nat → Int) (reports : List (Report D)) : Prop where
  shows : ∀ (k : Nat) (r : Report D), reports[k]? = some r → ∀ b ∈ r.detected, b.blobId = x → Shows ops (theta k) b
  slow : ∀ (k l : Nat) (r : Report D), k < l → FoundIn x reports k → reports[l]? = some r → x ∈ ids r.detected →
    (∀ j, k < j → j < l → ¬ FoundIn x reports j) → Slow r.settings.maxRotationSpeed (theta k) (theta l)

/-- What the list keeps of the blob `x` before update `k`. -/
def Wound (ops : Doubles D) (x : Int) (theta : Nat → Int) (first : Nat) (reports : List (Report D)) (k : Nat) : Prop :=
  ∀ o ∈ listBefore reports k, o.blobId = x →
    ∃ l < k, FoundIn x reports l ∧ (∀ j, l < j → j < k → ¬ FoundIn x reports j) ∧ Unwound ops (theta first) (theta l) o

theorem find?_older {blobs : List (Blob D)} (nodup : (ids blobs).Nodup) {x : Int} (known : x ∈ ids blobs) :
    ∃ o ∈ blobs, o.blobId = x ∧ (blobs.map Blob.older).find? (·.blobId == x) = some o.older := by
  obtain ⟨o, member, rfl⟩ := mem_ids.mp known
  refine ⟨o, member, rfl, ?_⟩
  rw [← ids_older] at nodup
  exact find?_of_mem nodup (List.mem_map.mpr ⟨o, member, rfl⟩)

/-- The blob `x`, found in update `k`, is unwound by `trackAngles`. -/
theorem Wound.track {x : Int} {theta : Nat → Int} {first k : Nat} {reports : List (Report D)} (rotates : Rotates ops x theta reports)
    (wound : Wound ops x theta first reports k) (nodup : (ids (listBefore reports k)).Nodup) {r : Report D} (here : reports[k]? = some r)
    (old : r.old = (listBefore reports k).map .older) (start : x ∉ ids r.old → k = first) {b : Blob D} (member : b ∈ r.detected)
    (same : b.blobId = x) :
    ∃ b', trackAngle ops r.settings r.old b = some b' ∧ Unwound ops (theta first) (theta k) b' := by
  have shows := rotates.shows k r here b member same
  by_cases known : x ∈ ids r.old
  · rw [old, ids_older] at known
    obtain ⟨o, inside, rfl, found⟩ := find?_older nodup known
    obtain ⟨l, earlier, foundIn, since, unwound⟩ := wound o inside rfl
    have slow := rotates.slow l k r earlier foundIn here (mem_ids.mpr ⟨b, member, same⟩) since
    refine trackAngle_next shows ?_ (unwound.congr (c := o.older) rfl rfl rfl) slow
    rw [old, same]
    exact found
  · have now := start known
    subst now
    refine trackAngle_first shows ?_
    rw [same]
    exact known

theorem Wound.next {x : Int} {theta : Nat → Int} {first k : Nat} {reports : List (Report D)} (rotates : Rotates ops x theta reports)
    (wound : Wound ops x theta first reports k) (nodup : (ids (listBefore reports k)).Nodup) {r : Report D} (here : reports[k]? = some r)
    (old : r.old = (listBefore reports k).map .older) (start : x ∈ ids r.detected → x ∉ ids r.old → k = first)
    (turned : r.Turned ops) : Wound ops x theta first reports (k + 1) := by
  intro o member same
  obtain ⟨new, angles, list⟩ := turned
  have tracked := Lists.forall₂_of_mapM angles
  have idsNew : ids new = ids r.detected := ids_of_forall₂ (fun b b' same => by rw [same]) (tracked.imp fun _ _ => trackAngle_angled)
  rw [listBefore, here, Option.map_some, Option.getD_some, list] at member
  rcases List.mem_append.mp member with found | kept
  · obtain ⟨b', inside, rfl⟩ := List.mem_map.mp found
    obtain ⟨b, before, now⟩ := Lists.forall₂_mem_right tracked inside
    have sameId : b.blobId = x := by
      have angled := trackAngle_angled now
      rw [renewed_blobId, angled] at same
      exact same
    have seen : x ∈ ids r.detected := mem_ids.mpr ⟨b, before, sameId⟩
    obtain ⟨b'', now', unwound⟩ := wound.track rotates nodup here old (start seen) before sameId
    obtain rfl : b' = b'' := Option.some.inj (now.symm.trans now')
    exact ⟨k, Nat.lt_succ_self k, ⟨r, here, seen⟩, fun j after until_ => by omega, renewed_unwound unwound⟩
  · obtain ⟨inside, missed⟩ := List.mem_filter.mp kept
    have absent : x ∉ ids r.detected := by
      rw [← idsNew, ← same]
      exact of_decide_eq_true (Bool.and_eq_true_iff.mp missed).1
    rw [old] at inside
    obtain ⟨before, inList, rfl⟩ := List.mem_map.mp inside
    obtain ⟨l, earlier, foundIn, since, unwound⟩ := wound before inList same
    refine ⟨l, earlier.trans (Nat.lt_succ_self k), foundIn, fun j after until_ => ?_, unwound.congr rfl rfl rfl⟩
    rcases Nat.lt_succ_iff_lt_or_eq.mp until_ with sooner | rfl
    · exact since j after sooner
    · rintro ⟨q, here', seen⟩
      obtain rfl : r = q := Option.some.inj (here.symm.trans here')
      exact absent seen

theorem trackAngle_isSome {settings : Settings D} {old : List (Blob D)} {theta : Int} {b : Blob D} (shows : Shows ops theta b)
    (wound : ∀ o, old.find? (·.blobId == b.blobId) = some o → ∃ start last, Unwound ops start last o) :
    (trackAngle ops settings old b).isSome := by
  obtain ⟨tag, rad, angle, -⟩ := shows
  simp only [trackAngle, tag, angle, Option.bind_some, if_true]
  cases found : old.find? (·.blobId == b.blobId) with
  | none => rfl
  | some o =>
    obtain ⟨start, last, unwound⟩ := wound o found
    simp [unwound.fallenOver, unwound.lastAngle]

/-- An id is drawn in one update only. -/
theorem State.Ok.drawn_once {counter : Int} {t : State D} (ok : t.Ok counter) {x : Int} {k first : Nat} {r r₀ : Report D}
    (begins : t.reports[first]? = some r₀) (new : x ∈ ids r₀.detected) (unknown : x ∉ ids r₀.old) (here : t.reports[k]? = some r)
    (seen : x ∈ ids r.detected) (absent : x ∉ ids r.old) : k = first := by
  rcases Nat.lt_trichotomy k first with sooner | same | later
  · exact absurd (List.mem_append_right _ seen) (ok.fresh k first r r₀ sooner here begins x new unknown)
  · exact same
  · exact absurd (List.mem_append_right _ new) (ok.fresh first k r₀ r later begins here x seen absent)

section Track

variable {counter : Int} {t : State D} {x : Int} {theta : Nat → Int} {first : Nat}

theorem State.Ok.wound (ok : t.Ok counter) (turned : ∀ r ∈ t.reports, r.Turned ops) (rotates : Rotates ops x theta t.reports)
    (once : ∀ (k : Nat) (r : Report D), t.reports[k]? = some r → x ∈ ids r.detected → x ∉ ids r.old → k = first) {k : Nat}
    (inside : k ≤ t.reports.length) : Wound ops x theta first t.reports k := by
  induction k with
  | zero => exact fun o member => absurd member List.not_mem_nil
  | succ k ih =>
    have here := List.getElem?_eq_getElem (Nat.lt_of_succ_le inside)
    have before := ih (Nat.le_of_succ_le inside)
    exact before.next rotates (ok.listBefore_nodup k) here (ok.report k _ here).old (once k _ here) (turned _ (List.getElem_mem _))

theorem Wound.detected (ok : t.Ok counter) (turned : ∀ r ∈ t.reports, r.Turned ops) (rotates : Rotates ops x theta t.reports) {k : Nat}
    (wound : Wound ops x theta first t.reports k) {r : Report D} (here : t.reports[k]? = some r) (seen : x ∈ ids r.detected)
    (start : x ∉ ids r.old → k = first) : ∃ b ∈ r.list, b.blobId = x ∧ Unwound ops (theta first) (theta k) b := by
  obtain ⟨b, before, same⟩ := mem_ids.mp seen
  obtain ⟨b', now, unwound⟩ := wound.track rotates (ok.listBefore_nodup k) here (ok.report k r here).old start before same
  obtain ⟨all, angles, list⟩ := turned r (List.mem_of_getElem? here)
  obtain ⟨b'', member, now'⟩ := Lists.forall₂_mem_left (Lists.forall₂_of_mapM angles) before
  obtain rfl : b' = b'' := Option.some.inj (now.symm.trans now')
  refine ⟨renewed r.settings r.old b', ?_, ?_, renewed_unwound unwound⟩
  · rw [list]
    exact List.mem_append_left _ (List.mem_map_of_mem member)
  · rw [renewed_blobId, trackAngle_angled now]
    exact same

/-- The next update finds the angle, too. -/
theorem Wound.next_isSome (wound : Wound ops x theta first t.reports t.reports.length) (last : t.oldBlobs = listBefore t.reports t.reports.length)
    {settings : Settings D} {theta' : Int} {b : Blob D} (same : b.blobId = x) (shows : Shows ops theta' b) :
    (trackAngle ops settings (t.oldBlobs.map .older) b).isSome := by
  refine trackAngle_isSome shows fun o known => ?_
  obtain ⟨before, member, rfl⟩ := List.mem_map.mp (List.mem_of_find?_eq_some known)
  have sameId : before.blobId = x := by
    have := List.find?_some known
    rw [← same]
    simpa using this
  rw [last] at member
  obtain ⟨l, _, _, _, unwound⟩ := wound before member sameId
  exact ⟨_, _, unwound.congr rfl rfl rfl⟩

end Track

/-- `trackAngles` counts the turns of a slow blob: an update always finds its angle, from the one in which it was
first seen on. -/
theorem angles_unwind (injective : mtdevMatch.Injective) {kinds : List Kind} {events : List (Event D)} {s : System D}
    (reached : Machine.attempt (System.step ops mtdevMatch) (.initial kinds) events = some s) {i : Nat} {t : State D}
    (found : s.trackers[i]? = some t) {x : Int} {theta : Nat → Int} (rotates : Rotates ops x theta t.reports) {first : Nat} {r₀ : Report D}
    (begins : t.reports[first]? = some r₀) (new : x ∈ ids r₀.detected) (unknown : x ∉ ids r₀.old) :
    (∀ (k : Nat) r, t.reports[k]? = some r → x ∈ ids r.detected →
      ∃ b ∈ r.list, b.blobId = x ∧ Unwound ops (theta first) (theta k) b ∧
        0 ≤ turn (theta first) (theta k) ∧ turn (theta first) (theta k) < 360) ∧
    ∀ settings theta' b, b.blobId = x → Shows ops theta' b → (trackAngle ops settings (t.oldBlobs.map .older) b).isSome := by
  have ok := (System.reached_ok injective reached).tracker i t found
  have turned := System.reached_turned injective reached found
  have once := fun k r => ok.drawn_once (k := k) (r := r) begins new unknown
  have wound : ∀ k, k ≤ t.reports.length → Wound ops x theta first t.reports k := fun k => ok.wound turned rotates once
  refine ⟨fun k r here seen => ?_, fun settings theta' b same shows => (wound _ le_rfl).next_isSome ok.last same shows⟩
  obtain ⟨inside, _⟩ := List.getElem?_eq_some_iff.mp here
  obtain ⟨b, member, same, unwound⟩ := (wound k inside.le).detected ok turned rotates here seen (once k r here seen)
  exact ⟨b, member, same, unwound, turn_bounds _ _⟩

/-- Integer arithmetic in which angles are degrees. -/
def Doubles.degrees : Doubles Int := { Doubles.integers with pi := 180 }

def turning (theta : Int) : Detection Int :=
  { implements := "pos,volatileangle".toList, x := 1, y := 1, angle := some (theta % 90), fiducialId := none }

/-- A blob that turns back from 10 degrees, 30 at a time. -/
def backwards : List (Event Int) :=
  [10, -20, -50].flatMap fun theta => [.begin 0 .default [turning theta], .track 0, .finish 0]

def backwardsReports : List (Report Int) :=
  ((Machine.attempt (System.step Doubles.degrees matchNothing) (.initial [.greedy]) backwards).bind
    fun s => s.trackers[0]?.map fun t => t.reports).getD []

theorem backwards_rotates : Rotates Doubles.degrees 1 (fun k => 10 - 30 * k) backwardsReports := by
  have length : backwardsReports.length = 3 := by decide +kernel
  have each : ∀ k : Nat, k < 3 → ∀ r ∈ backwardsReports[k]?, r.settings.maxRotationSpeed = 46 ∧ 1 ∈ ids r.detected ∧
      ∀ b ∈ r.detected, inTags "volatileangle" b.implements = some true ∧ b.angle = some ((10 - 30 * (k : Int)) % 90) := by
    decide +kernel
  have within : ∀ (k : Nat) (r : Report Int), backwardsReports[k]? = some r → k < 3 := fun k r here =>
    length ▸ (List.getElem?_eq_some_iff.mp here).1
  constructor
  · intro k r here b member _
    obtain ⟨_, _, shown⟩ := each k (within k r here) r here
    obtain ⟨tag, angle⟩ := shown b member
    refine ⟨tag, _, angle, ?_⟩
    show ((10 - 30 * (k : Int)) % 90) * 1 = _
    exact Int.mul_one _
  · intro k l r later _ here _ between
    obtain ⟨speed, _, _⟩ := each l (within l r here) r here
    have last := within l r here
    by_cases next : l = k + 1
    · subst next
      have step : (10 - 30 * ((k + 1 : Nat) : Int)) - (10 - 30 * (k : Int)) = -30 := by omega
      rw [speed]
      unfold Slow
      rw [step]
      decide
    · have inside : k + 1 < backwardsReports.length := by omega
      obtain ⟨_, seen, _⟩ := each (k + 1) (by omega) _ (List.getElem?_eq_getElem inside)
      exact absurd ⟨_, List.getElem?_eq_getElem inside, seen⟩ (between (k + 1) (Nat.lt_succ_self k) (by omega))

theorem angles_unwind_backwards :
    ∃ r, backwardsReports[2]? = some r ∧ ∃ b ∈ r.list, b.blobId = 1 ∧ b.fallenOver = some (-1) ∧ turn 10 (-50) = 310 ∧
      Unwound Doubles.degrees 10 (-50) b := by
  have ran : ((Machine.attempt (System.step Doubles.degrees matchNothing) (.initial [.greedy]) backwards).bind
      fun s => s.trackers[0]?).isSome := by
    decide +kernel
  obtain ⟨t, ran⟩ := Option.isSome_iff_exists.mp ran
  obtain ⟨s, reached, found⟩ := Option.bind_eq_some_iff.mp ran
  have reports : backwardsReports = t.reports := by
    rw [backwardsReports, reached, Option.bind_some, found]
    rfl
  have first : ∃ r ∈ backwardsReports[0]?, 1 ∈ ids r.detected ∧ 1 ∉ ids r.old := by decide +kernel
  have third : ∃ r ∈ backwardsReports[2]?, 1 ∈ ids r.detected := by decide +kernel
  obtain ⟨r₀, begins, new, unknown⟩ := first
  obtain ⟨r, here, seen⟩ := third
  have rotates := backwards_rotates
  rw [reports] at begins here rotates
  have unwinds := angles_unwind matchNothing_injective reached found rotates begins new unknown
  obtain ⟨b, member, same, unwound, _⟩ := unwinds.1 2 r here seen
  rw [reports]
  exact ⟨r, here, b, member, same, unwound.fallenOver, by decide, unwound⟩

end Movid.Tracker
