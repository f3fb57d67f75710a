import Mathlib.Data.Set.Basic
import Mathlib.Logic.Function.Basic
import Movid.Graph.Net
import Movid.Lib.Machine

/-!
# Starting and stopping with worker threads

The main thread starts and stops the modules one after the other, while the worker threads of
modules with `use_thread` push. A push that reaches a module which is not started starts it from
`notifyUpdate`. The start or stop of one module and one call of `notifyUpdate` are single steps.
-/

namespace Movid.Lifecycle

/-- What `start` opens and `stop` releases: the capture of a Video or Camera module, the file of
an Image module. -/
inductive Device where
  | none
  | capture
  | image
  deriving DecidableEq

/-- `thread` and `device` are pointers that are not NULL, `workers` counts the threads that run. -/
structure Life where
  isStarted : Bool
  useThread : Bool
  thread : Bool
  workers : Nat
  device : Bool

namespace Life

def new : Life := { isStarted := false, useThread := false, thread := false, workers := 0, device := false }

/-- `moModule::start`. -/
def start (property : Bool) (l : Life) : Life :=
  { l with
    isStarted := true
    useThread := property
    thread := l.thread || property
    workers := if property then l.workers + 1 else l.workers }

/-- `moModule::stop` waits for the thread it knows of. -/
def stop (l : Life) : Life :=
  if l.useThread && l.thread then
    { l with isStarted := false, useThread := false, thread := false, workers := l.workers - 1 }
  else { l with isStarted := false }

def release (l : Life) : Life := { l.stop with device := false }

/-- The `start` of the module; `opens` says whether the device could be opened. -/
def launch (device : Device) (property opens : Bool) (l : Life) : Option Life :=
  match device with
  | .none => some (l.start property)
  | .capture => if l.device then none else some ({ l with device := opens }.start property)
  | .image => some { (if l.device then l.release else l).start property with device := opens }

end Life

/-- The pipeline: itself and then its modules in order, which of them use a thread, what they open,
and which modules a push of a worker reaches. -/
structure Setup where
  modules : List ModuleRef
  useThread : ModuleRef → Bool
  device : ModuleRef → Device
  feeds : ModuleRef → ModuleRef → Bool
  inside : ∀ u d, feeds u d = true → d ∈ modules
  plain : ∀ u d, feeds u d = true → device d = .none

/-- What the main thread is doing: a loop with the modules it has not reached yet, or nothing. -/
inductive Phase where
  | idle
  | starting (rest : List ModuleRef)
  | started
  | stopping (rest : List ModuleRef)
  | stopped
  deriving DecidableEq

structure Threads where
  life : ModuleRef → Life
  phase : Phase
  failed : Bool

/-- `main` is the next round of the loop of the main thread, `push` a call of `notifyUpdate`
of `d` from the worker of `u`. -/
inductive Event where
  | start
  | stop
  | main (opens : Bool)
  | push (u d : ModuleRef)

namespace Threads

def initial : Threads := { life := fun _ => .new, phase := .idle, failed := false }

def set (s : Threads) (r : ModuleRef) (l : Life) : Threads := { s with life := Function.update s.life r l }

variable (setup : Setup)

/-- A failed assertion ends the program. -/
def launch (s : Threads) (r : ModuleRef) (opens : Bool) : Threads :=
  match (s.life r).launch (setup.device r) (setup.useThread r) opens with
  | none => { s with failed := true }
  | some l => s.set r l

/-- `none` is a step that cannot happen. -/
def step (s : Threads) (event : Event) : Option Threads :=
  if s.failed then none else
    match event, s.phase with
    | .start, .starting _ | .start, .stopping _ | .stop, .starting _ | .stop, .stopping _ => none
    | .start, _ => some { s with phase := .starting setup.modules }
    | .stop, _ => some { s with phase := .stopping setup.modules }
    | .main opens, .starting (r :: rest) => some { s.launch setup r opens with phase := .starting rest }
    | .main _, .starting [] => some { s with phase := .started }
    | .main _, .stopping (r :: rest) => some { s.set r (s.life r).release with phase := .stopping rest }
    | .main _, .stopping [] => some { s with phase := .stopped }
    | .main _, _ => none
    | .push u d, _ =>
      if setup.feeds u d && 0 < (s.life u).workers then
        some (if (s.life d).isStarted then s else s.launch setup d false)
      else none

/-! ### The lifecycle -/

/-- At most one worker for each module, no failed assertion, and nothing runs when the pipeline was
stopped. -/
structure Orderly (s : Threads) : Prop where
  single : ∀ r, (s.life r).workers ≤ 1
  holds : s.failed = false
  quiet : s.phase = .stopped → ∀ r ∈ setup.modules, (s.life r).workers = 0 ∧ (s.life r).isStarted = false

/-- The module can be started: it has no worker if it is to get one, and its capture is not open. A
loaded Image module is stopped first. -/
def CanLaunch (s : Threads) (r : ModuleRef) : Prop :=
  match setup.device r with
  | .none => setup.useThread r = true → (s.life r).workers = 0
  | .capture => (setup.useThread r = true → (s.life r).workers = 0) ∧ (s.life r).device = false
  | .image => (s.life r).device = false → setup.useThread r = true → (s.life r).workers = 0

/-- A start finds a module that can be started, and from the beginning of a stop on no push
reaches a stopped module that the stop has passed. -/
def Fits (s : Threads) : Event → Prop
  | .main _ => match s.phase with
    | .starting (r :: _) => CanLaunch setup s r
    | _ => True
  | .push _ d => match s.phase with
    | .stopping rest => (s.life d).isStarted = true ∨ d ∈ rest
    | .stopped => (s.life d).isStarted = true
    | _ => True
  | _ => True

instance (s : Threads) (r : ModuleRef) : Decidable (CanLaunch setup s r) := by
  unfold CanLaunch
  split <;> infer_instance

instance (s : Threads) (event : Event) : Decidable (Fits setup s event) := by
  unfold Fits
  split
  · split <;> infer_instance
  · split <;> infer_instance
  · infer_instance

end Threads

namespace Life

/-- A worker belongs to a started module that knows its thread. -/
def Tidy (property : Bool) (l : Life) : Prop :=
  l.workers = 0 ∨ (l.workers = 1 ∧ l.thread = true ∧ l.useThread = true ∧ l.isStarted = true ∧ property = true)

variable {property : Bool} {l : Life}

theorem Tidy.workers_le (tidy : Tidy property l) : l.workers ≤ 1 := by
  rcases tidy with none | ⟨one, -⟩
  · omega
  · omega

theorem Tidy.workers_of_stopped (tidy : Tidy property l) (stopped : l.isStarted = false) : l.workers = 0 := by
  rcases tidy with none | ⟨-, -, -, started, -⟩
  · exact none
  · rw [stopped] at started
    cases started

theorem Tidy.start (tidy : Tidy property l) (free : property = true → l.workers = 0) : Tidy property (l.start property) := by
  unfold Life.start
  cases property with
  | true => exact Or.inr ⟨by simp [free rfl], by simp, rfl, rfl, rfl⟩
  | false =>
    rcases tidy with none | ⟨-, -, -, -, use⟩
    · exact Or.inl none
    · cases use

theorem Tidy.release (tidy : Tidy property l) : l.release.workers = 0 ∧ l.release.isStarted = false := by
  unfold Life.release Life.stop
  rcases tidy with none | ⟨one, thread, use, -, -⟩
  · split
    · exact ⟨by simp [none], rfl⟩
    · exact ⟨none, rfl⟩
  · rw [if_pos (by rw [thread, use]; rfl)]
    exact ⟨by simp [one], rfl⟩

end Life

namespace Threads

variable {setup : Setup} {s t : Threads}

theorem launch_tidy {r : ModuleRef} (tidy : (s.life r).Tidy (setup.useThread r)) (can : CanLaunch setup s r) (opens : Bool) :
    ∃ l, s.launch setup r opens = s.set r l ∧ l.Tidy (setup.useThread r) := by
  unfold CanLaunch at can
  unfold launch Life.launch
  cases device : setup.device r with
  | none =>
    simp only [device] at can
    exact ⟨_, rfl, tidy.start can⟩
  | capture =>
    simp only [device] at can
    obtain ⟨free, shut⟩ := can
    simp only [shut, Bool.false_eq_true, if_false]
    refine ⟨_, rfl, Life.Tidy.start tidy free⟩
  | image =>
    simp only [device] at can
    refine ⟨_, rfl, ?_⟩
    cases loaded : (s.life r).device with
    | true =>
      obtain ⟨none, -⟩ := tidy.release
      exact Life.Tidy.start (l := (s.life r).release) (Or.inl none) fun _ => none
    | false => exact Life.Tidy.start tidy (can loaded)

structure Inv (setup : Setup) (s : Threads) : Prop where
  tidy : ∀ r, (s.life r).Tidy (setup.useThread r)
  holds : s.failed = false
  passed : ∀ rest, s.phase = .stopping rest → ∀ r ∈ setup.modules, r ∉ rest → (s.life r).isStarted = false
  quiet : s.phase = .stopped → ∀ r ∈ setup.modules, (s.life r).isStarted = false

theorem Inv.initial (setup : Setup) : Inv setup Threads.initial :=
  ⟨fun _ => Or.inl rfl, rfl, fun _ h => (by cases h), fun h => by cases h⟩

theorem set_life (s : Threads) (r x : ModuleRef) (l : Life) : (s.set r l).life x = if x = r then l else s.life x :=
  Function.update_apply ..

theorem set_tidy {r : ModuleRef} {l : Life} (tidy : ∀ r, (s.life r).Tidy (setup.useThread r))
    (new : l.Tidy (setup.useThread r)) (x : ModuleRef) : ((s.set r l).life x).Tidy (setup.useThread x) := by
  rw [set_life]
  split
  · rename_i same
    rw [same]
    exact new
  · exact tidy x

theorem Inv.start_next (inv : Inv setup s) {r : ModuleRef} (can : CanLaunch setup s r) (opens : Bool)
    (rest : List ModuleRef) : Inv setup { s.launch setup r opens with phase := .starting rest } := by
  obtain ⟨l, launched, tidy⟩ := launch_tidy (inv.tidy r) can opens
  rw [launched]
  exact ⟨set_tidy inv.tidy tidy, inv.holds, fun _ h => (by cases h), fun h => by cases h⟩

theorem Inv.stop_next (inv : Inv setup s) {r : ModuleRef} {rest : List ModuleRef} (phase : s.phase = .stopping (r :: rest)) :
    Inv setup { s.set r (s.life r).release with phase := .stopping rest } := by
  obtain ⟨none, stopped⟩ := (inv.tidy r).release
  refine ⟨set_tidy inv.tidy (Or.inl none), inv.holds, fun rest' same x member ahead => ?_, fun h => by cases h⟩
  obtain rfl : rest = rest' := by cases same; rfl
  change ((s.set r (s.life r).release).life x).isStarted = false
  rw [set_life]
  split
  · exact stopped
  · rename_i other
    exact inv.passed _ phase x member fun inside => (List.mem_cons.mp inside).elim other ahead

theorem Inv.push (inv : Inv setup s) {u d : ModuleRef} (feeds : setup.feeds u d = true) (fits : Fits setup s (.push u d))
    (idle : (s.life d).isStarted = false) : Inv setup (s.launch setup d false) := by
  have none := (inv.tidy d).workers_of_stopped idle
  have can : CanLaunch setup s d := by
    unfold CanLaunch
    rw [setup.plain u d feeds]
    exact fun _ => none
  obtain ⟨l, launched, tidy⟩ := launch_tidy (inv.tidy d) can false
  rw [launched]
  simp only [Fits] at fits
  refine ⟨set_tidy inv.tidy tidy, inv.holds, fun rest phase x member ahead => ?_, fun phase => ?_⟩
  · have phase : s.phase = .stopping rest := phase
    rw [phase] at fits
    simp only [idle, Bool.false_eq_true, false_or] at fits
    have other : x ≠ d := fun same => ahead (same ▸ fits)
    change ((s.set d l).life x).isStarted = false
    rw [set_life, if_neg other]
    exact inv.passed rest phase x member ahead
  · have phase : s.phase = .stopped := phase
    rw [phase] at fits
    simp only [idle, Bool.false_eq_true] at fits

theorem Inv.step {event : Event} (fits : Fits setup s event) (h : s.step setup event = some t) (inv : Inv setup s) :
    Inv setup t := by
  unfold Threads.step at h
  rw [if_neg (ne_true_of_eq_false inv.holds)] at h
  split at h
  · cases h
  · cases h
  · cases h
  · cases h
  · cases h
    exact ⟨inv.tidy, inv.holds, fun _ h => (by cases h), fun h => by cases h⟩
  · cases h
    refine ⟨inv.tidy, inv.holds, fun rest same r member ahead => ?_, fun h => by cases h⟩
    cases same
    exact absurd member ahead
  · rename_i opens r rest phase
    cases h
    simp only [Fits, phase] at fits
    exact inv.start_next fits opens rest
  · cases h
    exact ⟨inv.tidy, inv.holds, fun _ h => (by cases h), fun h => by cases h⟩
  · rename_i opens r rest phase
    cases h
    exact inv.stop_next phase
  · rename_i opens phase
    cases h
    exact ⟨inv.tidy, inv.holds, fun _ h => (by cases h), fun _ r member => inv.passed [] phase r member List.not_mem_nil⟩
  · cases h
  · rename_i u d
    split at h
    · rename_i enabled
      cases h
      split
      · exact inv
      · rename_i idle
        exact inv.push (Bool.and_eq_true_iff.mp enabled).1 fits (Bool.eq_false_iff.mpr idle)
    · cases h

theorem Inv.orderly (inv : Inv setup s) : Orderly setup s := by
  refine ⟨fun r => (inv.tidy r).workers_le, inv.holds, fun stopped r member => ?_⟩
  have idle := inv.quiet stopped r member
  exact ⟨(inv.tidy r).workers_of_stopped idle, idle⟩

/-! ### Stops that are under way -/

/-- What `moPipeline::stop` leaves when it returns, if nothing else happens until then. -/
def finish (s : Threads) : Threads :=
  match s.phase with
  | .stopping rest =>
    { s with life := rest.foldl (fun life r => Function.update life r (life r).release) s.life, phase := .stopped }
  | _ => s

theorem finish_eq {rest : List ModuleRef} (phase : s.phase = .stopping rest) : s.finish =
    { s with life := rest.foldl (fun life r => Function.update life r (life r).release) s.life, phase := .stopped } := by
  rw [finish, phase]

theorem finish_cons {r : ModuleRef} {rest : List ModuleRef} (phase : s.phase = .stopping (r :: rest)) :
    s.finish = ({ s.set r (s.life r).release with phase := .stopping rest } : Threads).finish := by
  rw [finish_eq phase]
  rfl

theorem finish_steps {rest : List ModuleRef} (phase : s.phase = .stopping rest) (holds : s.failed = false) :
    Machine.attempt (step setup) s (List.replicate (rest.length + 1) (.main false)) = some s.finish := by
  induction rest generalizing s with
  | nil => simp [Machine.attempt, step, holds, phase, finish_eq phase]
  | cons r rest ih =>
    have first : s.step setup (.main false) = some { s.set r (s.life r).release with phase := .stopping rest } := by
      simp [step, holds, phase]
    rw [List.length_cons, List.replicate_succ, Machine.attempt, first, Option.bind_some, finish_cons phase]
    exact ih rfl holds

theorem Inv.finish_stopping (inv : Inv setup s) {rest : List ModuleRef} (phase : s.phase = .stopping rest) :
    Inv setup s.finish := by
  induction rest generalizing s with
  | nil =>
    rw [finish_eq phase]
    exact ⟨inv.tidy, inv.holds, fun _ h => (by cases h), fun _ r member => inv.passed [] phase r member List.not_mem_nil⟩
  | cons r rest ih =>
    rw [finish_cons phase]
    exact ih (inv.stop_next phase) rfl

theorem Inv.finish (inv : Inv setup s) : Inv setup s.finish := by
  cases phase : s.phase with
  | stopping rest => exact inv.finish_stopping phase
  | _ => rwa [Threads.finish, phase]

theorem finish_life {rest : List ModuleRef} (phase : s.phase = .stopping rest) {d : ModuleRef} (passed : d ∉ rest) :
    s.finish.life d = s.life d := by
  induction rest generalizing s with
  | nil => rw [finish_eq phase, List.foldl_nil]
  | cons r rest ih =>
    rw [finish_cons phase, ih rfl fun inside => passed (List.mem_cons_of_mem _ inside)]
    change (s.set r (s.life r).release).life d = s.life d
    have other : d ≠ r := fun same => passed (same ▸ List.mem_cons_self)
    rw [set_life, if_neg other]

/-! ### Exactly the runs that fit -/

theorem start_single {property : Bool} {l : Life} (single : (l.start property).workers ≤ 1) (use : property = true) :
    l.workers = 0 := by
  unfold Life.start at single
  rw [use] at single
  simp only [if_true] at single
  omega

theorem canLaunch_of_orderly {r : ModuleRef} {opens : Bool} (holds : (s.launch setup r opens).failed = false)
    (single : ((s.launch setup r opens).life r).workers ≤ 1) : CanLaunch setup s r := by
  unfold CanLaunch
  unfold launch Life.launch at holds single
  cases device : setup.device r with
  | none =>
    simp only [device, set_life, if_true] at single
    exact start_single single
  | capture =>
    simp only [device] at holds single
    cases shut : (s.life r).device with
    | true => simp [shut] at holds
    | false =>
      simp only [shut, Bool.false_eq_true, if_false, set_life, if_true] at single
      exact ⟨start_single single, rfl⟩
  | image =>
    intro shut
    simp only [device, shut, Bool.false_eq_true, if_false, set_life, if_true] at single
    exact start_single single

theorem launch_started {u d : ModuleRef} (feeds : setup.feeds u d = true) :
    ((s.launch setup d false).life d).isStarted = true ∧ (s.launch setup d false).phase = s.phase := by
  unfold launch Life.launch
  rw [setup.plain u d feeds]
  simp only [set_life, if_true]
  exact ⟨rfl, rfl⟩

theorem fits_of_orderly {event : Event} (h : s.step setup event = some t) (now : Orderly setup t)
    (later : Orderly setup t.finish) : Fits setup s event := by
  have running : s.failed ≠ true := by
    intro failed
    unfold step at h
    rw [if_pos failed] at h
    cases h
  unfold step at h
  rw [if_neg running] at h
  cases event with
  | start => trivial
  | stop => trivial
  | main opens =>
    simp only [Fits]
    split
    · rename_i r rest phase
      rw [phase] at h
      cases h
      exact canLaunch_of_orderly now.holds (now.single r)
    · trivial
  | push u d =>
    simp only [] at h
    split at h
    · rename_i enabled
      have feeds := (Bool.and_eq_true_iff.mp enabled).1
      cases idle : (s.life d).isStarted with
      | true =>
        simp only [Fits]
        split
        · exact Or.inl idle
        · exact idle
        · trivial
      | false =>
        simp only [idle, Bool.false_eq_true, if_false, Option.some.injEq] at h
        obtain ⟨started, same⟩ := launch_started feeds (s := s)
        rw [h] at started same
        simp only [Fits]
        split
        · rename_i rest phase
          rw [phase] at same
          by_contra bad
          rw [not_or] at bad
          have idle' := (later.quiet (by rw [finish_eq same]) d (setup.inside u d feeds)).2
          rw [finish_life same bad.2, started] at idle'
          cases idle'
        · rename_i phase
          rw [phase] at same
          have idle' := (now.quiet same d (setup.inside u d feeds)).2
          rw [started] at idle'
          cases idle'
        · trivial
    · cases h

/-- The pipeline, a Camera module and a filter behind it; both have `use_thread` set. -/
def filmed : Setup where
  modules := [0, 1, 2]
  useThread r := r = 1 || r = 2
  device r := if r = 1 then .capture else .none
  feeds u d := u = 1 && d = 2
  inside u d fed := by
    have same : d = 2 := of_decide_eq_true (Bool.and_eq_true_iff.mp fed).2
    rw [same]
    decide
  plain u d fed := by
    have same : d = 2 := of_decide_eq_true (Bool.and_eq_true_iff.mp fed).2
    rw [same]
    decide

/-- The filter is stopped last, and no push comes after that. -/
def takeTurns : List Event :=
  [.start, .main false, .main true, .main false, .main false, .push 1 2,
    .stop, .main false, .main false, .main false, .main false]

end Threads

end Movid.Lifecycle
