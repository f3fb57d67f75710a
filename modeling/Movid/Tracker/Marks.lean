import Movid.Tracker.Rotation

/-!
# What the blobs of a tracker keep

`trackBlobs` gives ids, ages and fiducial ids. A property of the blobs that rests on none of these holds of the new
blobs until `trackAngles` has seen them, and of the old blobs if it makes them so.
-/

namespace Movid.Tracker

variable {D : Type} {ops : Doubles D} {mtdevMatch : Matching}

/-- The same tags, and the same notes for the next `trackAngles`. -/
def SameMarks (b c : Blob D) : Prop := c.implements = b.implements ∧ c.fallenOver = b.fallenOver ∧ c.lastAngle = b.lastAngle

/-- The property rests on the tags and these notes only. -/
def Rests (A : Blob D → Prop) : Prop := ∀ b c, SameMarks b c → A b → A c

theorem copyFid_marks {blob closest b : Blob D} {newIsFid newIsVolatile oldIsFid : Bool}
    (h : copyFid blob closest newIsFid newIsVolatile oldIsFid = some b) : SameMarks blob b := by
  unfold copyFid at h
  split at h
  · obtain ⟨fid, _, h⟩ := Option.bind_eq_some_iff.mp h
    obtain ⟨_, _, same⟩ := Option.map_eq_some_iff.mp h
    cases same
    exact ⟨rfl, rfl, rfl⟩
  · cases h
    exact ⟨rfl, rfl, rfl⟩

theorem greedyTrack_marks {settings : Settings D} {old : List (Blob D)} {reused reused' : List Int} {counter counter' : Int} {blob b : Blob D}
    (h : greedyTrack ops settings old reused counter blob = some (b, reused', counter')) : SameMarks blob b := by
  obtain ⟨newIsFid, _, h⟩ := Option.bind_eq_some_iff.mp h
  obtain ⟨newIsVolatile, _, h⟩ := Option.bind_eq_some_iff.mp h
  obtain ⟨found, _, h⟩ := Option.bind_eq_some_iff.mp h
  split at h
  · obtain ⟨oldIsFid, _, h⟩ := Option.bind_eq_some_iff.mp h
    obtain ⟨copied, copy, same⟩ := Option.map_eq_some_iff.mp h
    cases same
    exact (copyFid_marks copy : SameMarks blob copied)
  · cases h
    exact ⟨rfl, rfl, rfl⟩

theorem munkresTrack_marks {old : List (Blob D)} {j counter counter' : Int} {blob b : Blob D}
    (h : munkresTrack old j counter blob = some (b, counter')) : SameMarks blob b := by
  obtain ⟨id, _, h⟩ := Option.map_eq_some_iff.mp h
  split at h
  · cases h
    exact ⟨rfl, rfl, rfl⟩
  · cases h
    exact ⟨rfl, rfl, rfl⟩

theorem expire_marks {settings : Settings D} {b b' : Blob D} (h : expire settings b = some b') : SameMarks b b' := by
  rw [(expire_spec h).1]
  exact ⟨rfl, rfl, rfl⟩

/-! ### One tracker -/

/-- The old blobs are `A` and the new ones of an update `B`. -/
structure State.Holds (A B : Blob D → Prop) (t : State D) : Prop where
  old : ∀ o ∈ t.oldBlobs, A o
  progress : ∀ p, t.progress = some p → (∀ o ∈ p.old, A o) ∧ ∀ b ∈ p.done ++ p.todo, B b

section Holds

variable {A B : Blob D → Prop}

theorem Progress.Moves.new (restsB : Rests B) {kind : Kind} {p q : Progress D} {counter counter' : Int} (moves : p.Moves ops counter kind q counter')
    (new : ∀ b ∈ p.done ++ p.todo, B b) : ∀ b ∈ q.done ++ q.todo, B b := by
  have next : ∀ blob todo b, p.todo = blob :: todo → SameMarks blob b → ∀ c ∈ (p.done ++ [b]) ++ todo, B c := by
    intro blob todo b shape same c member
    rw [shape] at new
    simp only [List.mem_append, List.mem_cons, List.not_mem_nil, or_false] at member new
    rcases member with (before | rfl) | after
    · exact new c (.inl before)
    · exact restsB blob c same (new blob (.inr (.inl rfl)))
    · exact new c (.inr (.inr after))
  cases moves with
  | ended => exact new
  | greedy shape tracked => exact next _ _ _ shape (greedyTrack_marks tracked)
  | munkres shape _ tracked => exact next _ _ _ shape (munkresTrack_marks tracked)

theorem Progress.detected_new (restsB : Rests B) {kind : Kind} {p : Progress D} {detected : List (Blob D)}
    (h : p.detected kind = some detected) (new : ∀ b ∈ p.done, B b) : ∀ b ∈ detected, B b := by
  cases kind with
  | greedy =>
    intro b' member
    obtain ⟨b, inside, now⟩ := Lists.forall₂_mem_right (Lists.forall₂_of_mapM h) member
    exact restsB b b' (expire_marks now) (new b inside)
  | munkres =>
    cases h
    exact new

theorem finish_old (restsA : Rests A) (restsB : Rests B)
    (turned : ∀ settings old b b', trackAngle ops settings old b = some b' → B b → A b') {kind : Kind} {counter : Int}
    {oldBlobs : List (Blob D)} {p : Progress D} {r : Report D} (ok : p.Ok kind counter oldBlobs) (empty : p.todo = [])
    (nodup : (ids oldBlobs).Nodup) (old : ∀ o ∈ p.old, A o) (new : ∀ b ∈ p.done, B b) (h : finish ops kind p = some r) :
    ∀ b ∈ r.list, A b := by
  obtain ⟨angled, angles, list⟩ := finish_turned ok empty nodup h
  obtain ⟨detected, _, seen, _, rfl⟩ := finish_spec h
  intro b member
  rw [list] at member
  rcases List.mem_append.mp member with found | kept
  · obtain ⟨b', inside, rfl⟩ := List.mem_map.mp found
    obtain ⟨before, here, now⟩ := Lists.forall₂_mem_right (Lists.forall₂_of_mapM angles) inside
    have marked := turned _ _ before b' now (Progress.detected_new restsB seen new before here)
    unfold renewed
    split
    · exact restsA b' _ ⟨rfl, rfl, rfl⟩ marked
    · exact marked
  · exact old b (List.mem_of_mem_filter kept)

theorem State.Holds.step (restsA : Rests A) (restsB : Rests B)
    (turned : ∀ settings old b b', trackAngle ops settings old b = some b' → B b → A b') {t t' : State D} {counter counter' : Int}
    {event : Event D} (ok : t.Ok counter) (frames : ∀ i settings frame, event = .begin i settings frame → ∀ d ∈ frame, B d.clone)
    (h : t.step ops mtdevMatch counter event = some (t', counter')) (holds : t.Holds A B) : t'.Holds A B := by
  cases State.step_moves h with
  | same => exact holds
  | @begin i settings frame p idle started =>
    refine ⟨holds.old, ?_⟩
    intro q now
    cases now
    obtain ⟨n2s, rfl⟩ := begin_spec started
    constructor
    · intro o member
      obtain ⟨before, inside, rfl⟩ := List.mem_map.mp member
      exact restsA before before.older ⟨rfl, rfl, rfl⟩ (holds.old before inside)
    · intro b member
      obtain ⟨d, inside, rfl⟩ := List.mem_map.mp member
      exact frames i settings frame rfl d inside
  | @track i p q c now tracked =>
    refine ⟨holds.old, ?_⟩
    intro q' now'
    cases now'
    obtain ⟨old, new⟩ := holds.progress p now
    rw [(track_same tracked).2.2]
    exact ⟨old, (track_moves tracked).new restsB new⟩
  | @finish i p r now empty finished =>
    obtain ⟨old, new⟩ := holds.progress p now
    refine ⟨?_, by simp⟩
    exact finish_old restsA restsB turned (ok.progress p now) empty ok.nodup old (fun b member => new b (List.mem_append_left _ member)) finished

end Holds

/-! ### All trackers -/

/-- The invariant of the trackers, and what the blobs of each of them keep. -/
structure System.Holds (A B : Nat → Blob D → Prop) (s : System D) : Prop where
  ok : s.Ok
  tracker : ∀ (i : Nat) (t : State D), s.trackers[i]? = some t → t.Holds (A i) (B i)

theorem System.Holds.step (injective : mtdevMatch.Injective) {A B : Nat → Blob D → Prop} (restsA : ∀ i, Rests (A i)) (restsB : ∀ i, Rests (B i))
    (turned : ∀ i settings old b b', trackAngle ops settings old b = some b' → B i b → A i b') {s s' : System D} {event : Event D}
    (frames : ∀ i settings frame, event = .begin i settings frame → ∀ d ∈ frame, B i d.clone) (h : s.step ops mtdevMatch event = some s')
    (holds : s.Holds A B) : s'.Holds A B := by
  refine ⟨holds.ok.step injective h, ?_⟩
  rcases System.step_cases h with rfl | ⟨t, t', counter, found, now, rfl⟩
  · exact holds.tracker
  · obtain ⟨inside, _⟩ := List.getElem?_eq_some_iff.mp found
    intro i u here
    by_cases same : event.tracker = i
    · subst same
      rw [List.getElem?_set_self inside] at here
      cases here
      refine (holds.tracker _ t found).step (restsA _) (restsB _) (turned _) (holds.ok.tracker _ t found) ?_ now
      rintro i settings frame rfl
      exact frames i settings frame rfl
    · rw [List.getElem?_set_ne same] at here
      exact holds.tracker i u here

theorem System.initial_holds (A B : Nat → Blob D → Prop) (kinds : List Kind) : (System.initial kinds : System D).Holds A B := by
  refine ⟨System.initial_ok kinds, fun i t found => ?_⟩
  obtain ⟨kind, _, rfl⟩ := List.mem_map.mp (List.mem_of_getElem? found)
  exact ⟨nofun, nofun⟩

end Movid.Tracker
