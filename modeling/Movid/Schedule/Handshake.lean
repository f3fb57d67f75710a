import Mathlib.Logic.Function.Basic
import Movid.Lib.Machine

/-!
# The handshake with a worker thread

`notifyUpdate` raises `need_update` and posts the trigger, `stop` raises `want_quit`, posts the
trigger and joins. The worker tests the flags and waits on the trigger in between. Every read or
write of a flag and every operation on the trigger is a step of its own.
-/

namespace Movid.Handshake

/-- Where the worker is in `_thread_process`: `first` and `second` are the two tests of
`needUpdate`, each with the clear that follows it. -/
inductive Worker where
  | loop
  | first
  | clearFirst
  | waiting
  | second
  | clearSecond
  | ready
  | updating
  | exited
  deriving DecidableEq

/-- A call of `notifyUpdate`. `begun` is the number of updates that had begun when it wrote `need_update`. -/
inductive Notifier where
  | idle
  | wrote (begun : Nat)
  | posted (begun : Nat)
  deriving DecidableEq

inductive Stopper where
  | idle
  | flagged
  | posted
  | joined
  deriving DecidableEq

structure State where
  needUpdate : Bool
  wantQuit : Bool
  trigger : Bool
  worker : Worker
  begun : Nat
  notifier : Nat → Notifier
  stopper : Nat → Stopper

inductive Event where
  | worker
  | notifier (i : Nat)
  | stopper (j : Nat)

namespace State

/-- `start` makes a new thread. The trigger and `need_update` are left from before. -/
def start (needUpdate trigger : Bool) : State :=
  { needUpdate, trigger, wantQuit := false, worker := .loop, begun := 0
    notifier := fun _ => .idle, stopper := fun _ => .idle }

/-- `none` while the worker is blocked in `wait`, and after its loop. -/
def work (s : State) : Option State :=
  match s.worker with
  | .loop => some { s with worker := if s.wantQuit then .exited else .first }
  | .first => some { s with worker := if s.needUpdate then .clearFirst else .waiting }
  | .clearFirst => some { s with needUpdate := false, worker := .ready }
  | .waiting => if s.trigger then some { s with trigger := false, worker := .second } else none
  | .second => some { s with worker := if s.needUpdate then .clearSecond else .loop }
  | .clearSecond => some { s with needUpdate := false, worker := .ready }
  | .ready => some { s with begun := s.begun + 1, worker := .updating }
  | .updating => some { s with worker := .loop }
  | .exited => none

def notify (s : State) (i : Nat) : Option State :=
  match s.notifier i with
  | .idle => some { s with needUpdate := true, notifier := Function.update s.notifier i (.wrote s.begun) }
  | .wrote begun => some { s with trigger := true, notifier := Function.update s.notifier i (.posted begun) }
  | .posted _ => none

/-- `waitfor` returns once the worker has left its loop, and `stop` then clears `need_update`. -/
def stop (s : State) (j : Nat) : Option State :=
  match s.stopper j with
  | .idle => some { s with wantQuit := true, stopper := Function.update s.stopper j .flagged }
  | .flagged => some { s with trigger := true, stopper := Function.update s.stopper j .posted }
  | .posted =>
    if s.worker = .exited then some { s with needUpdate := false, stopper := Function.update s.stopper j .joined }
    else none
  | .joined => none

def step (s : State) : Event → Option State
  | .worker => s.work
  | .notifier i => s.notify i
  | .stopper j => s.stop j

/-- The worker is about to update or has left its loop: what is written to `need_update` now needs no
second look. -/
def committed (s : State) : Bool :=
  match s.worker with
  | .clearFirst | .clearSecond | .ready | .exited => true
  | _ => false

/-- Where the worker no longer looks at `want_quit` before it waits. -/
def beforeWait (s : State) : Bool :=
  match s.worker with
  | .first | .waiting => true
  | _ => false

/-- What holds in every state of a run. A notification that no update has followed is still in
`need_update`, and a worker that waits has a post to wake it. -/
structure Sound (s : State) : Prop where
  written : ∀ i k, s.notifier i = .wrote k ∨ s.notifier i = .posted k → k < s.begun ∨ (k = s.begun ∧ (s.needUpdate || s.committed))
  woken : ∀ i k, s.notifier i = .posted k → s.worker = .waiting → k < s.begun ∨ s.trigger
  raised : s.needUpdate → s.worker = .waiting → s.trigger ∨ ∃ i k, s.notifier i = .wrote k
  flagged : ∀ j, s.stopper j ≠ .idle → s.wantQuit
  stopping : ∀ j, s.stopper j = .posted → s.beforeWait → s.trigger
  joined : ∀ j, s.stopper j = .joined → s.worker = .exited

theorem Sound.start (needUpdate trigger : Bool) : (start needUpdate trigger).Sound where
  written := by simp [State.start]
  woken := by simp [State.start]
  raised := by simp [State.start]
  flagged := by simp [State.start]
  stopping := by simp [State.start]
  joined := by simp [State.start]

variable {s t : State}

/-- A step of the worker that begins no update. -/
theorem Sound.move {worker : Worker} {needUpdate trigger : Bool} (sound : s.Sound) (running : s.worker ≠ .exited)
    (kept : s.needUpdate || s.committed → needUpdate || { s with worker, needUpdate, trigger }.committed)
    (blocks : worker = .waiting → needUpdate = false)
    (quits : ∀ j, s.stopper j = .posted → ({ s with worker, needUpdate, trigger } : State).beforeWait → trigger) :
    ({ s with worker, needUpdate, trigger } : State).Sound where
  written i k wrote := (sound.written i k wrote).imp_right fun now => ⟨now.1, kept now.2⟩
  woken i k posted waiting := by
    rcases sound.written i k (.inr posted) with earlier | ⟨_, heard⟩
    · exact .inl earlier
    · have := kept heard
      simp [blocks waiting, committed, show worker = .waiting from waiting] at this
  raised raised waiting := by
    rw [show needUpdate = true from raised] at blocks
    cases blocks waiting
  flagged := sound.flagged
  stopping := quits
  joined j joined := absurd (sound.joined j joined) running

theorem Sound.work (sound : s.Sound) (moved : s.work = some t) : t.Sound := by
  have quitting : ∀ j, s.stopper j = .posted → s.wantQuit := by
    intro j posted
    apply sound.flagged j
    rw [posted]
    nofun
  cases place : s.worker with
  | loop =>
    simp only [State.work, place, Option.some.injEq] at moved
    subst moved
    refine sound.move (by simp [place]) (by simp [committed, place]; grind) (by grind) ?_
    intro j posted
    simp [quitting j posted, beforeWait]
  | first =>
    simp only [State.work, place, Option.some.injEq] at moved
    subst moved
    refine sound.move (by simp [place]) (by simp [committed, place]; grind) (by grind) ?_
    intro j posted _
    exact sound.stopping j posted (by simp [beforeWait, place])
  | clearFirst =>
    simp only [State.work, place, Option.some.injEq] at moved
    subst moved
    exact sound.move (by simp [place]) (by simp [committed]) nofun (by simp [beforeWait])
  | waiting =>
    simp only [State.work, place] at moved
    split at moved
    · cases moved
      exact sound.move (by simp [place]) (by simp [committed, place]) nofun (by simp [beforeWait])
    · cases moved
  | second =>
    simp only [State.work, place, Option.some.injEq] at moved
    subst moved
    refine sound.move (by simp [place]) (by simp [committed, place]; grind) (by grind) ?_
    intro j _ before
    simp only [beforeWait] at before
    grind
  | clearSecond =>
    simp only [State.work, place, Option.some.injEq] at moved
    subst moved
    exact sound.move (by simp [place]) (by simp [committed]) nofun (by simp [beforeWait])
  | ready =>
    simp only [State.work, place, Option.some.injEq] at moved
    subst moved
    exact {
      written := fun i k wrote => .inl (by have := sound.written i k wrote; simp only; omega)
      woken := nofun
      raised := nofun
      flagged := sound.flagged
      stopping := by simp [beforeWait]
      joined := fun j joined => by have := sound.joined j joined; simp [place] at this }
  | updating =>
    simp only [State.work, place, Option.some.injEq] at moved
    subst moved
    exact sound.move (by simp [place]) (by simp [committed, place]) nofun (by simp [beforeWait])
  | exited => simp [State.work, place] at moved

omit s t in
theorem eq_of_update {α : Type} {f : Nat → α} {i i' : Nat} {v w : α} (same : Function.update f i v i' = w) :
    v = w ∨ f i' = w := by
  rw [Function.update_apply] at same
  split at same
  · exact .inl same
  · exact .inr same

theorem Sound.notify {i : Nat} (sound : s.Sound) (moved : s.notify i = some t) : t.Sound := by
  cases place : s.notifier i with
  | idle =>
    simp only [State.notify, place, Option.some.injEq] at moved
    subst moved
    refine { sound with written := ?_, woken := ?_, raised := ?_ }
    · rintro i' k (wrote | posted)
      · rcases eq_of_update wrote with new | old
        · cases new
          exact .inr ⟨rfl, rfl⟩
        · exact (sound.written i' k (.inl old)).imp_right fun now => ⟨now.1, rfl⟩
      · rcases eq_of_update posted with new | old
        · cases new
        · exact (sound.written i' k (.inr old)).imp_right fun now => ⟨now.1, rfl⟩
    · intro i' k posted
      rcases eq_of_update posted with new | old
      · cases new
      · exact sound.woken i' k old
    · intro _ _
      exact .inr ⟨i, s.begun, Function.update_self ..⟩
  | wrote k =>
    simp only [State.notify, place, Option.some.injEq] at moved
    subst moved
    refine { sound with written := ?_, woken := fun _ _ _ _ => .inr rfl, raised := fun _ _ => .inl rfl, stopping := fun _ _ _ => rfl }
    rintro i' k' (wrote | posted)
    · rcases eq_of_update wrote with new | old
      · cases new
      · exact sound.written i' k' (.inl old)
    · rcases eq_of_update posted with new | old
      · cases new
        exact sound.written i k (.inl place)
      · exact sound.written i' k' (.inr old)
  | posted k => simp [State.notify, place] at moved

theorem Sound.stop {j : Nat} (sound : s.Sound) (moved : s.stop j = some t) : t.Sound := by
  cases place : s.stopper j with
  | idle =>
    simp only [State.stop, place, Option.some.injEq] at moved
    subst moved
    refine { sound with flagged := fun _ _ => rfl, stopping := ?_, joined := ?_ }
    · intro j' posted
      rcases eq_of_update posted with new | old
      · cases new
      · exact sound.stopping j' old
    · intro j' joined
      rcases eq_of_update joined with new | old
      · cases new
      · exact sound.joined j' old
  | flagged =>
    simp only [State.stop, place, Option.some.injEq] at moved
    subst moved
    have flag : s.wantQuit := sound.flagged j (by rw [place]; nofun)
    refine { sound with
      woken := fun _ _ _ _ => .inr rfl, raised := fun _ _ => .inl rfl
      flagged := fun _ _ => flag, stopping := fun _ _ _ => rfl, joined := ?_ }
    intro j' joined
    rcases eq_of_update joined with new | old
    · cases new
    · exact sound.joined j' old
  | posted =>
    simp only [State.stop, place] at moved
    split at moved
    case isFalse => cases moved
    case isTrue exited =>
      cases moved
      have flag : s.wantQuit := sound.flagged j (by rw [place]; nofun)
      refine { sound with
        written := ?_, raised := nofun, flagged := fun _ _ => flag, stopping := ?_, joined := fun _ _ => exited }
      · intro i k wrote
        exact (sound.written i k wrote).imp_right fun now => ⟨now.1, by simp [committed, exited]⟩
      · intro j' _ before
        simp [beforeWait, exited] at before
  | joined => simp [State.stop, place] at moved

theorem Sound.step {event : Event} (sound : s.Sound) (moved : s.step event = some t) : t.Sound := by
  cases event with
  | worker => exact sound.work moved
  | notifier i => exact sound.notify moved
  | stopper j => exact sound.stop moved

theorem reached_sound {needUpdate trigger : Bool} {events : List Event}
    (reached : Machine.attempt step (.start needUpdate trigger) events = some s) : s.Sound :=
  Machine.attempt_invariant (fun _ _ _ moved sound => sound.step moved) (.start needUpdate trigger) reached

/-! ### Leaving the loop -/

/-- How far the worker is from leaving its loop once it is told to. -/
def toExit (s : State) : Nat :=
  match s.worker with
  | .exited => 0
  | .loop => 1
  | .updating => 2
  | .ready => 3
  | .clearFirst | .clearSecond => 4
  | .second => 5
  | .waiting => 6
  | .first => 7

theorem work_of_posted {j : Nat} (sound : s.Sound) (posted : s.stopper j = .posted) (running : s.worker ≠ .exited) :
    ∃ t, s.work = some t ∧ t.stopper = s.stopper ∧ t.toExit < s.toExit := by
  have quit : s.wantQuit := sound.flagged j (by rw [posted]; nofun)
  have trigger := sound.stopping j posted
  cases place : s.worker with
  | loop =>
    simp only [State.work, place, quit]
    refine ⟨_, rfl, rfl, ?_⟩
    simp [toExit, place]
  | first =>
    simp only [State.work, place]
    refine ⟨_, rfl, rfl, ?_⟩
    cases raised : s.needUpdate <;> simp [toExit, place]
  | waiting =>
    have woken : s.trigger := trigger (by simp [beforeWait, place])
    simp only [State.work, place, woken]
    refine ⟨_, rfl, rfl, ?_⟩
    simp [toExit, place]
  | second =>
    simp only [State.work, place]
    refine ⟨_, rfl, rfl, ?_⟩
    cases raised : s.needUpdate <;> simp [toExit, place]
  | clearFirst | clearSecond | ready | updating =>
    simp only [State.work, place]
    refine ⟨_, rfl, rfl, ?_⟩
    simp [toExit, place]
  | exited => exact absurd place running

theorem exits_of_posted {j : Nat} (sound : s.Sound) (posted : s.stopper j = .posted) :
    ∃ n t, Machine.attempt step s (List.replicate n .worker) = some t ∧ t.worker = .exited := by
  induction left : s.toExit using Nat.strongRecOn generalizing s with
  | ind left_ ih =>
    subst left
    by_cases exited : s.worker = .exited
    · exact ⟨0, s, rfl, exited⟩
    · obtain ⟨next, moved, same, nearer⟩ := work_of_posted sound posted exited
      obtain ⟨n, t, reached, done⟩ := ih next.toExit nearer (sound.work moved) (same ▸ posted) rfl
      refine ⟨n + 1, t, ?_, done⟩
      rw [List.replicate_succ, Machine.attempt, step, moved]
      exact reached

end State

open State in
/-- No update is forgotten and no stopper waits for a worker that nothing wakes. -/
theorem handshake_sound {needUpdate trigger : Bool} {events : List Event} {s : State}
    (reached : Machine.attempt step (start needUpdate trigger) events = some s) :
    (s.worker = .waiting → s.trigger = false →
      (∀ i begun, s.notifier i = .posted begun → begun < s.begun) ∧
      (∀ j, s.stopper j ≠ .posted ∧ s.stopper j ≠ .joined) ∧
      (s.needUpdate = true → ∃ i begun, s.notifier i = .wrote begun)) ∧
    ∀ j, s.stopper j = .posted →
      ∃ n t, Machine.attempt step s (List.replicate n .worker) = some t ∧ t.worker = .exited := by
  have sound := reached_sound reached
  refine ⟨fun waiting unset => ⟨fun i k posted => ?_, fun j => ⟨fun posted => ?_, fun joined => ?_⟩, fun raised => ?_⟩,
    fun j posted => exits_of_posted sound posted⟩
  · exact (sound.woken i k posted waiting).resolve_right (by simp [unset])
  · have set := sound.stopping j posted (by simp [beforeWait, waiting])
    rw [unset] at set
    cases set
  · have exited := sound.joined j joined
    rw [waiting] at exited
    cases exited
  · exact (sound.raised raised waiting).resolve_left (by simp [unset])

/-- The second notifier writes between the test and the clear; the update that follows covers both. -/
def overlapping : List Event :=
  [.notifier 0, .worker, .worker, .notifier 1, .worker, .notifier 1, .worker, .notifier 0,
    .worker, .worker, .worker, .worker, .worker, .worker, .worker]

theorem handshake_sound_overlapping :
    ∃ s, Machine.attempt State.step (.start false false) overlapping = some s ∧
      s.worker = .waiting ∧ s.trigger = false ∧ s.notifier 1 = .posted 0 ∧
      ∀ i begun, s.notifier i = .posted begun → begun < s.begun := by
  obtain ⟨s, reached, waiting, unset, posted⟩ :
      ∃ s, Machine.attempt State.step (.start false false) overlapping = some s ∧
        s.worker = .waiting ∧ s.trigger = false ∧ s.notifier 1 = .posted 0 :=
    ⟨_, rfl, rfl, rfl, rfl⟩
  exact ⟨s, reached, waiting, unset, posted, ((handshake_sound reached).1 waiting unset).1⟩

end Movid.Handshake
