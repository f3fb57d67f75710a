import Mathlib.Tactic.Common

/-!
# Runs of a deterministic machine

`step` may be any function of the state and an event. A guarded run is one in which every
event meets a condition on the state it finds.
-/

namespace Machine

variable {State Event : Type*} (step : State → Event → State)

def run : State → List Event → State
  | s, [] => s
  | s, event :: rest => run (step s event) rest

@[simp] theorem run_nil (s : State) : run step s [] = s := rfl

@[simp] theorem run_cons (s : State) (event : Event) (rest : List Event) :
    run step s (event :: rest) = run step (step s event) rest := rfl

theorem run_append (s : State) (first second : List Event) :
    run step s (first ++ second) = run step (run step s first) second := by
  induction first generalizing s with
  | nil => rfl
  | cons event rest ih => exact ih (step s event)

/-- Every event of the run meets `ok` in the state before it. -/
def Guarded (ok : State → Event → Prop) : State → List Event → Prop
  | _, [] => True
  | s, event :: rest => ok s event ∧ Guarded ok (step s event) rest

variable {step}

theorem run_invariant {I : State → Prop} (preserved : ∀ s event, I s → I (step s event))
    {s : State} (initial : I s) (events : List Event) : I (run step s events) := by
  induction events generalizing s with
  | nil => exact initial
  | cons event rest ih => exact ih (preserved s event initial)

theorem guarded_invariant {ok : State → Event → Prop} {I : State → Prop}
    (preserved : ∀ s event, ok s event → I s → I (step s event))
    {s : State} (initial : I s) {events : List Event} (guarded : Guarded step ok s events) :
    I (run step s events) := by
  induction events generalizing s with
  | nil => exact initial
  | cons event rest ih => exact ih (preserved s event guarded.1 initial) guarded.2

/-- When the condition on a step says exactly whether the step keeps the property, the runs of which every
state has the property are the ones that meet the condition throughout. -/
theorem forall_take_iff_guarded {ok : State → Event → Prop} {I Good : State → Prop} (good : ∀ s, I s → Good s)
    (keeps : ∀ s event, ok s event → I s → I (step s event)) (needs : ∀ s event, I s → Good (step s event) → ok s event)
    {s : State} (initial : I s) (events : List Event) :
    (∀ n, Good (run step s (events.take n))) ↔ Guarded step ok s events := by
  induction events generalizing s with
  | nil =>
    refine ⟨fun _ => trivial, fun _ n => ?_⟩
    rw [List.take_nil]
    exact good s initial
  | cons event rest ih =>
    constructor
    · intro always
      have now : ok s event := needs s event initial (always 1)
      exact ⟨now, (ih (keeps s event now initial)).mp fun n => always (n + 1)⟩
    · rintro ⟨now, guarded⟩ n
      cases n with
      | zero => exact good s initial
      | succ n => exact (ih (keeps s event now initial)).mpr guarded n

/-! ### Machines that may stop -/

section Attempt

variable (step : State → Event → Option State)

/-- The run of a machine whose step may fail; a failure ends the run. -/
def attempt : State → List Event → Option State
  | s, [] => some s
  | s, event :: rest => (step s event).bind (attempt · rest)

theorem attempt_append (s : State) (first second : List Event) :
    attempt step s (first ++ second) = (attempt step s first).bind (attempt step · second) := by
  induction first generalizing s with
  | nil => rfl
  | cons event rest ih =>
    simp only [List.cons_append, attempt]
    cases step s event with
    | none => rfl
    | some next => exact ih next

variable {step}

theorem attempt_isSome {p : Event → Prop} (can : ∀ s event, (step s event).isSome ↔ p event) (s : State) (events : List Event) :
    (attempt step s events).isSome ↔ ∀ event ∈ events, p event := by
  induction events generalizing s with
  | nil => simp [attempt]
  | cons event rest ih =>
    rw [attempt, List.forall_mem_cons, ← can s event]
    cases step s event with
    | none => simp
    | some next => simp [ih]

/-- An invariant of a run may rely on what the events of the run are. -/
theorem attempt_invariant_of_mem {I : State → Prop} {events : List Event}
    (preserved : ∀ s, ∀ event ∈ events, ∀ t, step s event = some t → I s → I t)
    {s t : State} (initial : I s) (reached : attempt step s events = some t) : I t := by
  induction events generalizing s with
  | nil =>
    cases reached
    exact initial
  | cons event rest ih =>
    obtain ⟨next, first, later⟩ := Option.bind_eq_some_iff.mp reached
    refine ih (fun s event member => preserved s event (List.mem_cons_of_mem _ member)) ?_ later
    exact preserved s event List.mem_cons_self next first initial

theorem attempt_invariant {I : State → Prop} (preserved : ∀ s event t, step s event = some t → I s → I t)
    {s t : State} (initial : I s) {events : List Event} (reached : attempt step s events = some t) : I t :=
  attempt_invariant_of_mem (fun s event _ => preserved s event) initial reached

def Allowed (step : State → Event → Option State) (ok : State → Event → Prop) : State → List Event → Prop
  | _, [] => True
  | s, event :: rest => ok s event ∧ ∀ t, step s event = some t → Allowed step ok t rest

/-- `Allowed` is decided by running the machine. -/
instance decidableAllowed (step : State → Event → Option State) (ok : State → Event → Prop) [∀ s event, Decidable (ok s event)] :
    (s : State) → (events : List Event) → Decidable (Allowed step ok s events)
  | _, [] => isTrue trivial
  | s, event :: rest =>
    match next : step s event with
    | none => decidable_of_iff (ok s event)
      ⟨fun now => ⟨now, fun _ same => by rw [next] at same; cases same⟩, fun allowed => allowed.1⟩
    | some t =>
      have := decidableAllowed step ok t rest
      decidable_of_iff (ok s event ∧ Allowed step ok t rest)
        ⟨fun both => ⟨both.1, fun _ same => by rw [next] at same; cases same; exact both.2⟩,
          fun allowed => ⟨allowed.1, allowed.2 t next⟩⟩

theorem allowed_invariant {ok : State → Event → Prop} {I : State → Prop}
    (preserved : ∀ s event t, ok s event → step s event = some t → I s → I t)
    {s t : State} (initial : I s) {events : List Event} (allowed : Allowed step ok s events)
    (reached : attempt step s events = some t) : I t := by
  induction events generalizing s with
  | nil =>
    cases reached
    exact initial
  | cons event rest ih =>
    obtain ⟨next, first, later⟩ := Option.bind_eq_some_iff.mp reached
    exact ih (preserved s event next allowed.1 first initial) (allowed.2 next first) later

/-- A condition that follows from what the events of the run keep is met throughout. -/
theorem allowed_of_invariant {ok : State → Event → Prop} {I : State → Prop} {events : List Event}
    (preserved : ∀ s, ∀ event ∈ events, ∀ t, step s event = some t → I s → I t) (met : ∀ s, ∀ event ∈ events, I s → ok s event)
    {s : State} (initial : I s) : Allowed step ok s events := by
  induction events generalizing s with
  | nil => trivial
  | cons event rest ih =>
    refine ⟨met s event List.mem_cons_self initial, fun t first => ih ?_ ?_ (preserved s event List.mem_cons_self t first initial)⟩
    · exact fun s event member => preserved s event (List.mem_cons_of_mem _ member)
    · exact fun s event member => met s event (List.mem_cons_of_mem _ member)

/-- Two conditions that agree on what an invariant holds of allow the same runs. -/
theorem allowed_congr {ok ok' : State → Event → Prop} {I : State → Prop}
    (preserved : ∀ s event t, ok s event → step s event = some t → I s → I t)
    (agree : ∀ s event, I s → (ok s event ↔ ok' s event)) {s : State} (initial : I s) (events : List Event) :
    Allowed step ok s events ↔ Allowed step ok' s events := by
  induction events generalizing s with
  | nil => exact Iff.rfl
  | cons event rest ih =>
    refine (and_congr_left' (agree s event initial)).trans (and_congr_right fun met => forall_congr' fun t => ?_)
    exact imp_congr_right fun now => ih (preserved s event t ((agree s event initial).mpr met) now initial)

theorem allowed_reaches {ok : State → Event → Prop} {I : State → Prop}
    (goes : ∀ s event, ok s event → I s → ∃ t, step s event = some t ∧ I t)
    {s : State} (initial : I s) {events : List Event} (allowed : Allowed step ok s events) :
    ∃ t, attempt step s events = some t ∧ I t := by
  induction events generalizing s with
  | nil => exact ⟨s, rfl, initial⟩
  | cons event rest ih =>
    obtain ⟨next, first, kept⟩ := goes s event allowed.1 initial
    obtain ⟨t, reached, last⟩ := ih kept (allowed.2 next first)
    refine ⟨t, ?_, last⟩
    rw [attempt, first]
    exact reached

theorem Allowed.take {ok : State → Event → Prop} {s : State} {events : List Event} (allowed : Allowed step ok s events) (n : ℕ) :
    Allowed step ok s (events.take n) := by
  induction events generalizing s n with
  | nil =>
    rw [List.take_nil]
    trivial
  | cons event rest ih =>
    cases n with
    | zero => trivial
    | succ n => exact ⟨allowed.1, fun t first => ih (allowed.2 t first) n⟩

theorem attempt_take {s t : State} {events : List Event} (reached : attempt step s events = some t) (n : ℕ) :
    ∃ p, attempt step s (events.take n) = some p ∧ attempt step p (events.drop n) = some t := by
  rw [← List.take_append_drop n events, attempt_append] at reached
  exact Option.bind_eq_some_iff.mp reached

/-- The same for a machine that may stop. -/
theorem forall_take_iff_allowed {ok : State → Event → Prop} {I Good : State → Prop} (good : ∀ s, I s → Good s)
    (keeps : ∀ s event t, ok s event → step s event = some t → I s → I t)
    (needs : ∀ s event t, step s event = some t → I s → Good t → ok s event)
    {s t : State} (initial : I s) {events : List Event} (reached : attempt step s events = some t) :
    (∀ n p, attempt step s (events.take n) = some p → Good p) ↔ Allowed step ok s events := by
  induction events generalizing s with
  | nil =>
    refine ⟨fun _ => trivial, fun _ n p same => ?_⟩
    rw [List.take_nil] at same
    cases same
    exact good s initial
  | cons event rest ih =>
    obtain ⟨next, first, last⟩ := Option.bind_eq_some_iff.mp reached
    constructor
    · intro always
      have now : ok s event := needs s event next first initial (always 1 next (by simp [attempt, first]))
      refine ⟨now, fun t' same => ?_⟩
      obtain rfl : next = t' := Option.some.inj (first.symm.trans same)
      refine (ih (keeps s event next now first initial) last).mp fun n p same => always (n + 1) p ?_
      rw [List.take_succ_cons, attempt, first]
      exact same
    · rintro ⟨now, allowed⟩ n p same
      cases n with
      | zero =>
        cases same
        exact good s initial
      | succ n =>
        rw [List.take_succ_cons, attempt, first] at same
        exact (ih (keeps s event next now first initial) last).mpr (allowed next first) n p same

end Attempt

end Machine
