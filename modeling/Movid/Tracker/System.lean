import Movid.Tracker.Update
import Movid.Lib.Machine

/-!
# Trackers that share the id counter

Each tracker may run in a thread of its own. All that they share is the counter, which
`pincrement` advances atomically, so a run interleaves the rounds of their `trackBlobs` loops.
-/

namespace Movid.Tracker

variable {D : Type}

/-- A tracker module with the update it is in, and a record of the updates it has done. -/
structure State (D : Type) where
  kind : Kind
  oldBlobs : List (Blob D)
  progress : Option (Progress D)
  reports : List (Report D)

def State.initial (kind : Kind) : State D := { kind, oldBlobs := [], progress := none, reports := [] }

structure System (D : Type) where
  counter : Int
  trackers : List (State D)

/-- `id_counter` is 0 at first. -/
def System.initial (kinds : List Kind) : System D := { counter := 0, trackers := kinds.map .initial }

inductive Event (D : Type) where
  | begin (i : Nat) (settings : Settings D) (frame : List (Detection D))
  | track (i : Nat)
  | finish (i : Nat)

variable (ops : Doubles D) (mtdevMatch : Matching)

/-- What one tracker does at an event, with the counter before and after it. An event that
does not fit the state of the tracker changes nothing. -/
def State.step (t : State D) (counter : Int) : Event D → Option (State D × Int)
  | .begin _ settings frame =>
    match t.progress with
    | some _ => some (t, counter)
    | none =>
      (Tracker.begin ops mtdevMatch t.kind settings t.oldBlobs frame).map fun p =>
        ({ t with progress := some p }, counter)
  | .track _ =>
    match t.progress with
    | none => some (t, counter)
    | some p =>
      (Tracker.track ops t.kind p counter).map fun (p, counter) => ({ t with progress := some p }, counter)
  | .finish _ =>
    match t.progress with
    | none => some (t, counter)
    | some p =>
      if p.todo = [] then
        (Tracker.finish ops t.kind p).map fun report =>
          ({ t with oldBlobs := report.list, progress := none, reports := t.reports ++ [report] }, counter)
      else some (t, counter)

def Event.tracker : Event D → Nat
  | .begin i _ _ => i
  | .track i => i
  | .finish i => i

def System.step (s : System D) (event : Event D) : Option (System D) :=
  match s.trackers[event.tracker]? with
  | none => some s
  | some t =>
    (t.step ops mtdevMatch s.counter event).map fun (t, counter) =>
      { counter, trackers := s.trackers.set event.tracker t }

/-! ### The update of one tracker by itself -/

def trackBlobs (kind : Kind) : Nat → Progress D → Int → Option (Progress D × Int)
  | 0, p, counter => some (p, counter)
  | n + 1, p, counter =>
    (track ops kind p counter).bind fun (p, counter) => trackBlobs kind n p counter

/-- `moAbstractBlobTrackerModule::update`. -/
def update (t : State D) (counter : Int) (settings : Settings D) (frame : List (Detection D)) :
    Option (Report D × Int) :=
  (begin ops mtdevMatch t.kind settings t.oldBlobs frame).bind fun p =>
    (trackBlobs ops t.kind frame.length p counter).bind fun (p, counter) =>
      (finish ops t.kind p).map fun report => (report, counter)

variable {ops mtdevMatch}

/-! ### What a step can do -/

theorem begin_spec {kind : Kind} {settings : Settings D} {oldBlobs : List (Blob D)} {frame : List (Detection D)} {p : Progress D}
    (h : begin ops mtdevMatch kind settings oldBlobs frame = some p) :
    ∃ n2s, p = { settings, frame, old := oldBlobs.map .older, done := [], todo := frame.map Detection.clone, reused := [], n2s } := by
  unfold begin at h
  cases kind with
  | greedy =>
    cases h
    exact ⟨[], rfl⟩
  | munkres =>
    simp only [] at h
    split at h
    · cases h
      exact ⟨_, rfl⟩
    · cases h

/-- The ways through a round of `trackBlobs`. -/
inductive Progress.Moves (ops : Doubles D) (p : Progress D) (counter : Int) : Kind → Progress D → Int → Prop where
  | ended {kind : Kind} (empty : p.todo = []) : p.Moves ops counter kind p counter
  | greedy {blob b : Blob D} {todo : List (Blob D)} {reused : List Int} {counter' : Int} (next : p.todo = blob :: todo)
      (tracked : greedyTrack ops p.settings p.old p.reused counter blob = some (b, reused, counter')) :
      p.Moves ops counter .greedy { p with done := p.done ++ [b], todo, reused } counter'
  | munkres {blob b : Blob D} {todo : List (Blob D)} {j : Int} {n2s : List Int} {counter' : Int} (next : p.todo = blob :: todo)
      (plan : p.n2s = j :: n2s) (tracked : munkresTrack p.old j counter blob = some (b, counter')) :
      p.Moves ops counter .munkres { p with done := p.done ++ [b], todo, n2s } counter'

theorem track_moves {kind : Kind} {p q : Progress D} {counter counter' : Int} (h : track ops kind p counter = some (q, counter')) :
    p.Moves ops counter kind q counter' := by
  unfold track at h
  split at h
  · rename_i empty
    cases h
    exact .ended empty
  · rename_i blob todo next
    cases kind with
    | greedy =>
      obtain ⟨⟨b, reused, c⟩, tracked, same⟩ := Option.map_eq_some_iff.mp h
      cases same
      exact .greedy next tracked
    | munkres =>
      simp only [] at h
      split at h
      · cases h
      · rename_i j n2s plan
        obtain ⟨⟨b, c⟩, tracked, same⟩ := Option.map_eq_some_iff.mp h
        cases same
        exact .munkres next plan tracked

/-- The loop leaves alone what `begin` has prepared for it. -/
theorem track_same {kind : Kind} {p q : Progress D} {counter counter' : Int} (h : track ops kind p counter = some (q, counter')) :
    q.settings = p.settings ∧ q.frame = p.frame ∧ q.old = p.old := by
  cases track_moves h <;> exact ⟨rfl, rfl, rfl⟩

/-- What `finish` gives to `trackAngles`. -/
def Progress.detected (kind : Kind) (p : Progress D) : Option (List (Blob D)) :=
  match kind with
  | .greedy => p.done.mapM (expire p.settings)
  | .munkres => some p.done

theorem finish_spec {kind : Kind} {p : Progress D} {r : Report D} (h : finish ops kind p = some r) :
    ∃ detected new, p.detected kind = some detected ∧ detected.mapM (trackAngle ops p.settings p.old) = some new ∧
      r = { settings := p.settings, frame := p.frame, old := p.old, detected, list := p.old.foldl (retain p.settings) new
            pushed := (p.old.foldl (retain p.settings) new).filter fun blob => p.settings.inWindow blob.age } := by
  obtain ⟨detected, seen, h⟩ := Option.bind_eq_some_iff.mp h
  obtain ⟨new, angles, same⟩ := Option.map_eq_some_iff.mp h
  exact ⟨detected, new, seen, angles, same.symm⟩

/-- The ways through an event. -/
inductive State.Moves (ops : Doubles D) (mtdevMatch : Matching) (t : State D) (counter : Int) : Event D → State D → Int → Prop where
  | same {event : Event D} : t.Moves ops mtdevMatch counter event t counter
  | begin {i : Nat} {settings : Settings D} {frame : List (Detection D)} {p : Progress D} (idle : t.progress = none)
      (started : Tracker.begin ops mtdevMatch t.kind settings t.oldBlobs frame = some p) :
      t.Moves ops mtdevMatch counter (.begin i settings frame) { t with progress := some p } counter
  | track {i : Nat} {p q : Progress D} {counter' : Int} (now : t.progress = some p)
      (tracked : Tracker.track ops t.kind p counter = some (q, counter')) :
      t.Moves ops mtdevMatch counter (.track i) { t with progress := some q } counter'
  | finish {i : Nat} {p : Progress D} {r : Report D} (now : t.progress = some p) (empty : p.todo = [])
      (finished : Tracker.finish ops t.kind p = some r) :
      t.Moves ops mtdevMatch counter (.finish i) { t with oldBlobs := r.list, progress := none, reports := t.reports ++ [r] } counter

theorem State.step_moves {t t' : State D} {counter counter' : Int} {event : Event D}
    (h : t.step ops mtdevMatch counter event = some (t', counter')) : t.Moves ops mtdevMatch counter event t' counter' := by
  cases event with
  | begin i settings frame =>
    simp only [State.step] at h
    split at h
    · cases h
      exact .same
    · rename_i idle
      obtain ⟨p, started, same⟩ := Option.map_eq_some_iff.mp h
      cases same
      exact .begin idle started
  | track i =>
    simp only [State.step] at h
    split at h
    · cases h
      exact .same
    · rename_i p now
      obtain ⟨⟨q, c⟩, tracked, same⟩ := Option.map_eq_some_iff.mp h
      cases same
      exact .track now tracked
  | finish i =>
    simp only [State.step] at h
    split at h
    · cases h
      exact .same
    · rename_i p now
      split at h
      · rename_i empty
        obtain ⟨r, finished, same⟩ := Option.map_eq_some_iff.mp h
        cases same
        exact .finish now empty finished
      · cases h
        exact .same

/-! ### An update that nobody interrupts -/

theorem track_todo {kind : Kind} {p q : Progress D} {counter counter' : Int}
    (h : track ops kind p counter = some (q, counter')) : q.todo = p.todo.tail := by
  cases track_moves h with
  | ended empty =>
    rw [empty]
    rfl
  | greedy next =>
    rw [next]
    rfl
  | munkres next =>
    rw [next]
    rfl

theorem trackBlobs_todo {kind : Kind} {n : Nat} {p q : Progress D} {counter counter' : Int}
    (h : trackBlobs ops kind n p counter = some (q, counter')) : q.todo = p.todo.drop n := by
  induction n generalizing p counter with
  | zero =>
    cases h
    rfl
  | succ n ih =>
    obtain ⟨⟨next, c⟩, first, rest⟩ := Option.bind_eq_some_iff.mp h
    rw [ih rest, track_todo first, List.drop_tail]

theorem attempt_tracks (trackers : List (State D)) {i : Nat} (inside : i < trackers.length) (t : State D)
    (p : Progress D) (counter : Int) (n : Nat) :
    Machine.attempt (System.step ops mtdevMatch) ⟨counter, trackers.set i { t with progress := some p }⟩
        (List.replicate n (.track i)) =
      (trackBlobs ops t.kind n p counter).map fun (p, counter) =>
        ⟨counter, trackers.set i { t with progress := some p }⟩ := by
  induction n generalizing p counter with
  | zero => rfl
  | succ n ih =>
    simp only [List.replicate_succ, Machine.attempt, trackBlobs, System.step, Event.tracker,
      List.getElem?_set_self inside, State.step, List.set_set, Option.map_map]
    cases track ops t.kind p counter with
    | none => rfl
    | some result => exact ih result.1 result.2

/-- A tracker that nobody interrupts does what `update` does. -/
theorem attempt_update (s : System D) {i : Nat} {t : State D} (here : s.trackers[i]? = some t)
    (idle : t.progress = none) (settings : Settings D) (frame : List (Detection D)) :
    Machine.attempt (System.step ops mtdevMatch) s
        (.begin i settings frame :: (List.replicate frame.length (.track i) ++ [.finish i])) =
      (update ops mtdevMatch t s.counter settings frame).map fun (report, counter) =>
        ⟨counter, s.trackers.set i { t with
          oldBlobs := report.list, progress := none, reports := t.reports ++ [report] }⟩ := by
  obtain ⟨inside, _⟩ := List.getElem?_eq_some_iff.mp here
  simp only [Machine.attempt, System.step, Event.tracker, here, State.step, idle, update, Option.map_map]
  cases started : begin ops mtdevMatch t.kind settings t.oldBlobs frame with
  | none => rfl
  | some p =>
    simp only [Option.map_some, Option.bind_some, Function.comp_apply, Machine.attempt_append,
      attempt_tracks s.trackers inside]
    cases tracked : trackBlobs ops t.kind frame.length p s.counter with
    | none => rfl
    | some result =>
      obtain ⟨q, counter⟩ := result
      have finished : q.todo = [] := by
        obtain ⟨n2s, rfl⟩ := begin_spec started
        rw [trackBlobs_todo tracked, List.drop_eq_nil_iff, List.length_map]
      simp only [Option.map_some, Option.bind_some, Machine.attempt, System.step, Event.tracker,
        List.getElem?_set_self inside, State.step, if_pos finished, List.set_set, Option.map_map]
      cases finish ops t.kind q <;> rfl

end Movid.Tracker
