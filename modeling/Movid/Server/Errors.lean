import Mathlib.Logic.Function.Iterate
import Movid.Server.App

/-!
# The loop over the errors

The main loop asks the pipeline for errors until there is none. Modules take an error back when
it is reported; the pipeline keeps its own.
-/

namespace Movid.Preset

variable {P : Platform} {w : Net (Config P)} {a : App P}

theorem haveError_clearError (w : Net (Config P)) (r x : ModuleRef) :
    haveError (w.clearError r) x = (haveError w x && decide (x ≠ r)) := by
  unfold haveError Net.clearError
  rw [Net.updateModule_modules]
  split
  · rename_i same
    subst same
    cases w.modules x <;> simp
  · rename_i other
    simp [other]

theorem countP_clearError {elements : List ModuleRef} {r : ModuleRef} (inside : r ∈ elements)
    (error : haveError w r = true) :
    elements.countP (haveError (w.clearError r)) < elements.countP (haveError w) := by
  obtain ⟨before, after, rfl⟩ := List.append_of_mem inside
  have weaker (l : List ModuleRef) : l.countP (haveError (w.clearError r)) ≤ l.countP (haveError w) := by
    apply List.countP_mono_left
    intro x _ h
    rw [haveError_clearError] at h
    exact (Bool.and_eq_true_iff.mp h).1
  have gone : haveError (w.clearError r) r = false := by simp [haveError_clearError]
  simp only [List.countP_append, List.countP_cons, gone, error]
  have first := weaker before
  have second := weaker after
  simp only [Bool.false_eq_true, if_false, if_true]
  omega

namespace App

theorem drain_lastInternalError : a.drain.lastInternalError = a.lastInternalError := by
  unfold drain getLastError
  split
  · rfl
  · split <;> rfl

theorem pending_drain (clear : a.lastInternalError = []) (error : a.haveError = true) :
    a.drain.pending < a.pending := by
  unfold haveError at error
  simp only [clear, ne_eq, not_true, decide_false, Bool.false_or] at error
  obtain ⟨x, member, bad⟩ := List.any_eq_true.mp error
  unfold drain getLastError
  rw [if_neg (not_not.mpr clear)]
  cases found : a.net.elements.find? (Preset.haveError a.net) with
  | none => exact absurd bad (List.find?_eq_none.mp found x member)
  | some r =>
    refine Nat.add_lt_add_left ?_ _
    exact countP_clearError (List.mem_of_find?_eq_some found) (List.find?_some found)

theorem iterate_lastInternalError (n : Nat) : (drain^[n] a).lastInternalError = a.lastInternalError := by
  induction n with
  | zero => rfl
  | succ n ih => rw [Function.iterate_succ_apply', drain_lastInternalError, ih]

/-- Every report leaves fewer errors, and at some point there is none. -/
structure Drains (a : App P) : Prop where
  decreases : ∀ n, (drain^[n] a).haveError = true → (drain^[n] a).drain.pending < (drain^[n] a).pending
  ends : ∃ n, (drain^[n] a).haveError = false

theorem ends_of_pending (clear : a.lastInternalError = []) : ∃ n, (drain^[n] a).haveError = false := by
  induction pending : a.pending using Nat.strong_induction_on generalizing a with
  | _ count ih =>
    cases error : a.haveError with
    | false => exact ⟨0, error⟩
    | true =>
      have less := pending_drain clear error
      rw [pending] at less
      obtain ⟨n, done⟩ := ih _ less (a := a.drain) (by rw [drain_lastInternalError, clear]) rfl
      exact ⟨n + 1, done⟩

theorem drains_iff : Drains a ↔ a.lastInternalError = [] := by
  constructor
  · rintro ⟨_, n, done⟩
    by_contra internal
    have stuck : (drain^[n] a).lastInternalError ≠ [] := by rwa [iterate_lastInternalError]
    simp [haveError, stuck] at done
  · intro clear
    refine ⟨fun n error => pending_drain ?_ error, ends_of_pending clear⟩
    rw [iterate_lastInternalError, clear]

end App

/-- A slot is loaded whose file can not be opened. -/
def Request.MissingSlot : Request P → Prop
  | .slotLoad (some idx) none => 1 ≤ (Text.atoi idx).toInt ∧ (Text.atoi idx).toInt ≤ App.slotMax
  | _ => False

namespace App

theorem parse_some (text : Str) : (a.parse (some text)).lastInternalError = a.lastInternalError := by
  unfold parse
  simp only []
  split <;> rfl

theorem webPipelineSlotLoad_lastInternalError (idx file : Option Str) :
    (a.webPipelineSlotLoad idx file).lastInternalError = [] ↔
      a.lastInternalError = [] ∧ ¬ (Request.slotLoad idx file : Request P).MissingSlot := by
  unfold webPipelineSlotLoad
  cases idx with
  | none => exact ⟨fun h => ⟨h, fun missing => missing⟩, fun h => h.1⟩
  | some idx =>
    simp only []
    split
    · rename_i outside
      refine ⟨fun h => ⟨h, fun missing => ?_⟩, fun h => h.1⟩
      cases file with
      | none => exact outside.elim (fun low => by have := missing.1; omega) fun high => by have := missing.2; omega
      | some text => exact missing
    · rename_i inside
      cases file with
      | none =>
        refine ⟨(fun h => nomatch h), fun h => absurd ?_ h.2⟩
        exact ⟨by omega, by omega⟩
      | some text =>
        rw [parse_some]
        exact ⟨fun h => ⟨h, fun missing => missing⟩, fun h => h.1⟩

theorem webPipelineConnect_lastInternalError (source target outidx inidx : Option Str) :
    (a.webPipelineConnect source target outidx inidx).lastInternalError = a.lastInternalError := by
  unfold webPipelineConnect
  split
  · split
    · rfl
    · split
      · rfl
      · split <;> rfl
  · rfl

theorem webPipelineStream_lastInternalError (objectname idx : Option Str) (config : Config P) :
    (a.webPipelineStream objectname idx config).lastInternalError = a.lastInternalError := by
  unfold webPipelineStream
  split
  · rfl
  · split <;> rfl

/-- Only a missing slot leaves an error in the pipeline, and nothing takes it away. -/
theorem step_lastInternalError (request : Request P) : (a.step request).lastInternalError = [] ↔
    a.lastInternalError = [] ∧ ¬ request.MissingSlot := by
  have same {b : App P} {request : Request P} (kept : b.lastInternalError = a.lastInternalError)
      (other : ¬ request.MissingSlot) : b.lastInternalError = [] ↔ a.lastInternalError = [] ∧ ¬ request.MissingSlot := by
    rw [kept]
    exact ⟨fun h => ⟨h, other⟩, fun h => h.1⟩
  cases request with
  | factoryList =>
    refine same ?_ id
    change a.webFactoryList.lastInternalError = _
    unfold webFactoryList
    rfl
  | factoryDescribe name =>
    refine same ?_ id
    change (a.webFactoryDescribe name).lastInternalError = _
    unfold webFactoryDescribe
    split <;> rfl
  | create objectname => exact same rfl id
  | remove objectname =>
    refine same ?_ id
    change (a.webPipelineRemove objectname).lastInternalError = _
    unfold webPipelineRemove
    split <;> rfl
  | connect source target outidx inidx => exact same (webPipelineConnect_lastInternalError source target outidx inidx) id
  | set objectname names values => exact same rfl id
  | stream objectname idx config => exact same (webPipelineStream_lastInternalError objectname idx config) id
  | streamClose r => exact same rfl id
  | start => exact same rfl id
  | stop => exact same rfl id
  | slotLoad idx file => exact webPipelineSlotLoad_lastInternalError idx file
  | moduleError r msg => exact same rfl id
  | report =>
    refine same ?_ id
    change (if a.started then a.drain else a).lastInternalError = _
    split
    · exact drain_lastInternalError
    · rfl

theorem run_lastInternalError (requests : List (Request P)) :
    (Machine.run step a requests).lastInternalError = [] ↔
      a.lastInternalError = [] ∧ ∀ request ∈ requests, ¬ request.MissingSlot := by
  induction requests generalizing a with
  | nil => simp
  | cons request requests ih =>
    rw [Machine.run_cons, ih, step_lastInternalError, and_assoc, List.forall_mem_cons]

/-- The loop over the errors ends after every run in which no missing slot was loaded, and after
no other. -/
theorem run_drains_iff (net : Net (Config P)) (counters : Counters) (delay : Int32) (started : Bool)
    (requests : List (Request P)) : Drains (Machine.run step (boot net counters delay started) requests) ↔
      ∀ request ∈ requests, ¬ request.MissingSlot := by
  rw [drains_iff, run_lastInternalError]
  exact ⟨fun h => h.2, fun h => ⟨rfl, h⟩⟩

/-- A slot that was never saved is loaded, and the pipeline is started. -/
theorem missing_slot_not_drained : ¬ Drains (Machine.run step
    (boot (Net.empty : Net (Config Platform.whole)) ⟨1, 0⟩ 5 false) [.slotLoad (some "3".toList) none, .start]) := by
  rw [drains_iff]
  decide

end App

end Movid.Preset
