import Movid.Schedule.Turns

/-!
# No frame is lost between two polls

A push of `u` flags `d` until the next poll of `d`, which comes before the next poll of `u`,
so `d` processes what `u` pushed last and no value twice.
-/

namespace Movid.Schedule.World

variable {V L : Type} {b : Behaviour V L} {fuel : Nat} {w₀ w v : World V L} {u d : ModuleRef} {o : Nat}

/-- An edge from output `o` of `u` to an input of another module `d` that the frames of `u`
make call `notifyUpdate`. -/
structure Edge (b : Behaviour V L) (w₀ : World V L) (u d : ModuleRef) (o : Nat) : Prop where
  source : u ∈ w₀.net.elements
  target : d ∈ w₀.net.elements
  other : d ≠ u
  observes : d ∈ w₀.net.observers ⟨u, o⟩
  calls : ∀ ku kd, w₀.kindOf u = some ku → w₀.kindOf d = some kd →
    ∀ rest inputs value, .push o value ∈ (b.update ku rest inputs).2 → kd.notifies value

theorem Ok.plain_of_observer (ok : w.Ok) {r : ModuleRef} {s : StreamRef} {kind : Kind} (known : w.kindOf r = some kind)
    (member : r ∈ w.net.observers s) (live : w.net.shape s.owner ≠ none) : kind.polling = false := by
  have used := ok.slotCount_pos member live
  cases found : w.net.modules r with
  | none => simp [Net.slotCount_of_none found] at used
  | some m =>
    have arity := ok.arity_of_some found
    have kind' : m.state.kind = kind := by simpa [kindOf, frame, found] using known
    rw [Net.slotCount_of_some found] at used
    have some := Nat.lt_of_lt_of_le used List.countP_le_length
    rw [arity, kind'] at some
    cases kind <;> first | rfl | cases some

namespace Edge

variable (edge : Edge b w₀ u d o)

include edge in
/-- The polls that do not push leave the value on the edge, and only the one of `d` itself
clears its flag. -/
theorem step_carry {k : Nat} (own : (⟨u, o⟩ : StreamRef) ∉ w₀.relays) (silent : frameAt b fuel w₀ u o k = none)
    (now : worldAt b fuel w₀ k = some w) (next : worldAt b fuel w₀ (k + 1) = some v) :
    v.data ⟨u, o⟩ = w.data ⟨u, o⟩ ∧
      (w₀.slot k ≠ some d → w.needUpdate d = true → v.needUpdate d = true) := by
  have effect := worldAt_effect now
  obtain ⟨r, here⟩ := Option.ne_none_iff_exists'.mp (slot_ne_none (k := k) edge.source)
  rw [worldAt_succ now here] at next
  rw [← effect.relays] at own
  have polled := poll_effect next
  refine ⟨?_, fun elsewhere flag => polled.raised d ?_ flag⟩
  · by_cases same : r = u
    · subst same
      have last : lastPush o (pollActions b w r) = none := by simpa [frameAt, here, now] using silent
      rw [(poll_delivers next own).1, last]
      rfl
    · apply polled.data _
      rintro (pushes | relay)
      · exact same pushes.1.symm
      · exact own relay
  · rintro rfl
    exact elsewhere here

variable (ok : w₀.Ok)

include edge ok

theorem live : w₀.net.shape u ≠ none := ok.wired.element u edge.source

theorem target_kind : ∃ kind, w₀.kindOf d = some kind ∧ kind.polling = false := by
  obtain ⟨kind, known⟩ := ok.live_of_observer edge.observes (edge.live ok)
  exact ⟨kind, known, ok.plain_of_observer known edge.observes (edge.live ok)⟩

theorem updates_target (effect : Effect Set.univ Set.univ w₀ w) : w.updates d = w.needUpdate d := by
  obtain ⟨kind, known, plain⟩ := edge.target_kind ok
  exact updates_of_not_polling ((effect.kindOf d).trans known) plain

/-- A poll that pushes on the edge flags `d` and leaves the value there. -/
theorem step_frame {k : Nat} {value : Option V} (frame : frameAt b fuel w₀ u o k = some value)
    (next : worldAt b fuel w₀ (k + 1) = some v) : v.needUpdate d = true ∧ v.data ⟨u, o⟩ = value := by
  obtain ⟨here, w, now, last⟩ := frameAt_spec frame
  have effect := worldAt_effect now
  rw [worldAt_succ now here] at next
  obtain ⟨ku, rest, inputs, source, _, member⟩ := pollActions_spec (lastPush_mem last)
  obtain ⟨kd, known, _⟩ := edge.target_kind ok
  obtain ⟨stored, told⟩ := poll_delivers next (effect.relays ▸ own_of_frame frame o)
  rw [effect.kindOf] at source
  refine ⟨told value last d kd edge.other ?_ ((effect.kindOf d).trans known) ?_, by rw [stored, last]; rfl⟩
  · rw [effect.observers]
    exact edge.observes
  · exact edge.calls ku kd source known rest inputs value member

variable (single : ∀ kind, w₀.kindOf d = some kind → kind.inputCount = 1)

include single

/-- When the edge leads to the only input of `d`, nothing else flags `d`. -/
theorem step_quiet {k : Nat} (own : (⟨u, o⟩ : StreamRef) ∉ w₀.relays) (silent : frameAt b fuel w₀ u o k = none)
    (now : worldAt b fuel w₀ k = some w) (next : worldAt b fuel w₀ (k + 1) = some v)
    (flag : v.needUpdate d = true) : w₀.slot k ≠ some d ∧ w.needUpdate d = true := by
  have effect := worldAt_effect now
  obtain ⟨r, here⟩ := Option.ne_none_iff_exists'.mp (slot_ne_none (k := k) edge.source)
  rw [worldAt_succ now here] at next
  obtain ⟨kind, known, plain⟩ := edge.target_kind ok
  have known' : w.kindOf d = some kind := (effect.kindOf d).trans known
  have ok' := effect.ok ok
  have alone : ¬∃ s ∈ pushedBy r (pollActions b w r) ∪ w.relays, d ∈ w.net.observers s ∧ v.pushed s = true := by
    rintro ⟨s, inside, member, _⟩
    have live : w.net.shape s.owner ≠ none := by
      rcases inside with ⟨owner, value, done⟩ | relay
      · rw [owner]
        intro dead
        rw [pollActions_of_dead (Net.shape_eq_none.mp dead)] at done
        cases done
      · exact shape_ne_none_of_relay relay
    have first := ok'.input_of_observer known' (single kind known) member live
    have second := ok'.input_of_observer known' (single kind known) (s := ⟨u, o⟩)
      (effect.observers ▸ edge.observes) (effect.live (edge.live ok))
    obtain rfl : s = ⟨u, o⟩ := Option.some.inj (first.symm.trans second)
    rcases inside with ⟨owner, value, done⟩ | relay
    · obtain rfl : u = r := owner
      have last : lastPush o (pollActions b w u) = none := by simpa [frameAt, here, now] using silent
      exact lastPush_eq_none last value done
    · rw [effect.relays] at relay
      exact own relay
  constructor
  · rintro slot
    obtain rfl : r = d := Option.some.inj (here.symm.trans slot)
    exact alone (poll_own_told next known' plain flag)
  · exact (poll_told next known' plain flag).resolve_right alone

theorem quiet_until {i k : Nat} (own : (⟨u, o⟩ : StreamRef) ∉ w₀.relays) (bound : i ≤ k)
    (silent : ∀ j, i ≤ j → j < k → frameAt b fuel w₀ u o j = none)
    (now : worldAt b fuel w₀ i = some w) (clear : w.needUpdate d = false)
    (later : worldAt b fuel w₀ k = some v) : v.needUpdate d = false := by
  induction k, bound using Nat.le_induction generalizing v with
  | base => rwa [Option.some.inj (later.symm.trans now)]
  | succ k bound ih =>
    obtain ⟨z, before⟩ := worldAt_of_le (Nat.le_succ k) later
    have still := ih (fun j low high => silent j low (by omega)) before
    by_contra flag
    have set := (edge.step_quiet ok single own (silent k bound (by omega)) before later (by simpa using flag)).2
    rw [still] at set
    cases set

omit single in
theorem carried {n k : Nat} {value : Option V} (frame : frameAt b fuel w₀ u o n = some value) (bound : n < k)
    (between : ∀ j, n < j → j < k → w₀.slot j ≠ some u ∧ w₀.slot j ≠ some d)
    (later : worldAt b fuel w₀ k = some v) : v.needUpdate d = true ∧ v.data ⟨u, o⟩ = value := by
  induction k, bound using Nat.le_induction generalizing v with
  | base => exact edge.step_frame ok frame later
  | succ k bound ih =>
    obtain ⟨z, before⟩ := worldAt_of_le (Nat.le_succ k) later
    obtain ⟨flag, data⟩ := ih (fun j low high => between j low (by omega)) before
    obtain ⟨notU, notD⟩ := between k bound (by omega)
    obtain ⟨same, keeps⟩ := edge.step_carry (own_of_frame frame o) (frameAt_eq_none_of_ne notU) before later
    exact ⟨keeps notD flag, same.trans data⟩

omit single in
theorem processedAt_target {k : Nat} (now : worldAt b fuel w₀ k = some w) (here : w₀.slot k = some d) :
    processedAt b fuel w₀ d ⟨u, o⟩ k = if w.needUpdate d then some (w.data ⟨u, o⟩) else none := by
  rw [processedAt, if_pos here, now, Option.bind_some, edge.updates_target ok (worldAt_effect now)]

omit single in
theorem target_between {n k : Nat} (first : w₀.slot n = some u) (second : w₀.slot k = some u) (later : n < k) :
    ∃ j, n < j ∧ j < k ∧ w₀.slot j = some d := by
  have spread (i : Nat) (here : w₀.slot i = some u) : i = w₀.pollOf u (i / w₀.width) := by
    rw [pollOf, ← (slot_eq_some ok here).2, Nat.div_add_mod']
  obtain ⟨low, high⟩ := nextPoll_bounds edge.source edge.target edge.other (n / w₀.width)
  rw [← spread n first] at low
  refine ⟨_, low, Nat.lt_of_lt_of_le high ?_, slot_pollOf edge.target _⟩
  have passes : n / w₀.width + 1 ≤ k / w₀.width := by
    rw [spread n first, spread k second] at later
    exact Nat.lt_of_mul_lt_mul_right (Nat.lt_of_add_lt_add_right later)
  rw [spread k second]
  exact Nat.add_le_add_right (Nat.mul_le_mul_right _ passes) _

end Edge

/-! ### Counting frames and updates -/

theorem frames_succ (u : ModuleRef) (o n : Nat) :
    frames b fuel w₀ u o (n + 1) = frames b fuel w₀ u o n ++ (frameAt b fuel w₀ u o n).toList := by
  rw [frames, List.range_succ, List.filterMap_append]
  cases h : frameAt b fuel w₀ u o n <;> simp [frames, h]

theorem processedSince_succ (d u : ModuleRef) (o n : Nat) :
    processedSince b fuel w₀ d u o (n + 1) = processedSince b fuel w₀ d u o n ++
      (if frames b fuel w₀ u o n = [] then none else processedAt b fuel w₀ d ⟨u, o⟩ n).toList := by
  rw [processedSince, List.range_succ, List.filterMap_append]
  cases h : (if frames b fuel w₀ u o n = [] then none else processedAt b fuel w₀ d ⟨u, o⟩ n) <;>
    simp [processedSince, h]

/-- How far `d` is behind `u` before poll `k`: nothing was pushed yet, every frame was
processed, or all but the one that the edge holds. -/
inductive Balance (b : Behaviour V L) (fuel : Nat) (w₀ : World V L) (u d : ModuleRef) (o k : Nat)
    (w : World V L) : Prop
  | early (noFrame : frames b fuel w₀ u o k = []) (noUpdate : processedSince b fuel w₀ d u o k = [])
  | served (started : frames b fuel w₀ u o k ≠ []) (clear : w.needUpdate d = false)
      (all : processedSince b fuel w₀ d u o k = frames b fuel w₀ u o k)
  | owed (flag : w.needUpdate d = true)
      (last : frames b fuel w₀ u o k = processedSince b fuel w₀ d u o k ++ [w.data ⟨u, o⟩])
      (waits : ∃ n < k, w₀.slot n = some u ∧ ∀ j, n < j → j < k → w₀.slot j ≠ some d)

namespace Edge

variable (edge : Edge b w₀ u d o) (ok : w₀.Ok) (single : ∀ kind, w₀.kindOf d = some kind → kind.inputCount = 1)

include edge ok

theorem balance_frame {k : Nat} {value : Option V} (frame : frameAt b fuel w₀ u o k = some value)
    (next : worldAt b fuel w₀ (k + 1) = some v)
    (all : processedSince b fuel w₀ d u o (k + 1) = frames b fuel w₀ u o k) :
    Balance b fuel w₀ u d o (k + 1) v := by
  obtain ⟨flag, data⟩ := edge.step_frame ok frame next
  refine .owed flag ?_ ⟨k, Nat.lt_succ_self k, (frameAt_spec frame).1, fun j low high => by omega⟩
  rw [frames_succ, frame, all, data]
  rfl

include single

theorem step_balance {k : Nat} (now : worldAt b fuel w₀ k = some w) (next : worldAt b fuel w₀ (k + 1) = some v)
    (balance : Balance b fuel w₀ u d o k w) (own : (⟨u, o⟩ : StreamRef) ∉ w₀.relays) :
    Balance b fuel w₀ u d o (k + 1) v := by
  cases balance with
  | early noFrame noUpdate =>
    have still : processedSince b fuel w₀ d u o (k + 1) = [] := by simp [processedSince_succ, noFrame, noUpdate]
    cases frame : frameAt b fuel w₀ u o k with
    | none => exact .early (by simp [frames_succ, noFrame, frame]) still
    | some value => exact edge.balance_frame ok frame next (still.trans noFrame.symm)
  | served started clear all =>
    have idle : processedAt b fuel w₀ d ⟨u, o⟩ k = none := by
      by_cases here : w₀.slot k = some d
      · rw [edge.processedAt_target ok now here, clear]
        rfl
      · exact if_neg here
    have still : processedSince b fuel w₀ d u o (k + 1) = frames b fuel w₀ u o k := by
      simp [processedSince_succ, started, idle, all]
    cases frame : frameAt b fuel w₀ u o k with
    | none =>
      have same : frames b fuel w₀ u o (k + 1) = frames b fuel w₀ u o k := by simp [frames_succ, frame]
      refine .served (same ▸ started) ?_ (still.trans same.symm)
      exact edge.quiet_until ok single own (Nat.le_succ k) (fun j low high => by
        obtain rfl : j = k := by omega
        exact frame) now clear next
    | some value => exact edge.balance_frame ok frame next still
  | owed flag last waits =>
    obtain ⟨n, before, source, between⟩ := waits
    have started : frames b fuel w₀ u o k ≠ [] := by simp [last]
    have silent : frameAt b fuel w₀ u o k = none := by
      apply frameAt_eq_none_of_ne
      intro again
      obtain ⟨j, low, high, polled⟩ := edge.target_between ok source again before
      exact between j low high polled
    have same : frames b fuel w₀ u o (k + 1) = frames b fuel w₀ u o k := by simp [frames_succ, silent]
    by_cases here : w₀.slot k = some d
    · have served := edge.processedAt_target ok now here
      rw [flag, if_pos rfl] at served
      refine .served (same ▸ started) ?_ (by simp [processedSince_succ, started, served, same, ← last])
      by_contra again
      exact (edge.step_quiet ok single own silent now next (by simpa using again)).1 here
    · obtain ⟨data, keeps⟩ := edge.step_carry own silent now next
      have idle : processedAt b fuel w₀ d ⟨u, o⟩ k = none := if_neg here
      refine .owed (keeps here flag) (by simpa [processedSince_succ, started, idle, same, data] using last)
        ⟨n, by omega, source, fun j low high => ?_⟩
      by_cases now : j = k
      · exact now ▸ here
      · exact between j low (by omega)

theorem balanced (own : (⟨u, o⟩ : StreamRef) ∉ w₀.relays) {k : Nat} (now : worldAt b fuel w₀ k = some w) :
    Balance b fuel w₀ u d o k w := by
  induction k generalizing w with
  | zero => exact .early rfl rfl
  | succ k ih =>
    obtain ⟨z, before⟩ := worldAt_of_le (Nat.le_succ k) now
    exact edge.step_balance ok single before now (ih before) own

theorem processed_eq (own : (⟨u, o⟩ : StreamRef) ∉ w₀.relays) (idle : w₀.needUpdate d = false)
    (enough : w₀.net.next < fuel) (n : Nat) :
    processed b fuel w₀ d ⟨u, o⟩ n = processedSince b fuel w₀ d u o n := by
  apply List.filterMap_congr
  intro k _
  split
  · rename_i none
    have silent (j : Nat) (_ : 0 ≤ j) (before : j < k) : frameAt b fuel w₀ u o j = Option.none :=
      List.filterMap_eq_nil_iff.mp none j (List.mem_range.mpr before)
    obtain ⟨w, now⟩ := worldAt_returns (b := b) ok enough k
    have clear := edge.quiet_until ok single own (Nat.zero_le k) silent rfl idle now
    by_cases here : w₀.slot k = some d
    · rw [edge.processedAt_target ok now here, clear]
      rfl
    · exact if_neg here
  · rfl

end Edge

theorem silent_of_relay (relay : (⟨u, o⟩ : StreamRef) ∈ w₀.relays) (n : Nat) : frames b fuel w₀ u o n = [] := by
  apply List.filterMap_eq_nil_iff.mpr
  intro k _
  by_contra frame
  obtain ⟨value, frame⟩ := Option.ne_none_iff_exists'.mp frame
  exact own_of_frame frame o relay

theorem processedSince_of_silent (silent : ∀ k, frames b fuel w₀ u o k = []) (n : Nat) :
    processedSince b fuel w₀ d u o n = [] := by
  apply List.filterMap_eq_nil_iff.mpr
  intro k _
  rw [if_pos (silent k)]

theorem image_arity : ([] : List Str).length = Kind.image.inputCount := rfl

/-- A mask, then an image, and a connection between them. Both have just loaded their file. -/
def maskFirst : List (Event Unit) :=
  [.create { kind := .mask, inputs := ["IplImage".toList], outputs := ["IplImage".toList], rest := (), arity := rfl },
    .create { kind := .image, inputs := [], outputs := ["IplImage".toList], rest := (), arity := image_arity },
    .connect 0 (some (1, 0)) 0, .reload 0, .reload 1]

end Movid.Schedule.World
