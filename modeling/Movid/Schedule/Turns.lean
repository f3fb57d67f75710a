import Movid.Schedule.Relay

/-!
# The polls of successive passes

The polls are numbered over the passes that follow each other with no request in between.
Between two polls of one module every other module is polled once.
-/

namespace Movid.Schedule.World

variable {V L : Type} (b : Behaviour V L) (fuel : Nat) (w₀ : World V L)

def width : Nat := w₀.net.elements.length

/-- The module that poll `k` is for, counted over successive passes. -/
def slot (k : Nat) : Option ModuleRef := w₀.net.elements[k % w₀.width]?

def worldAt : Nat → Option (World V L)
  | 0 => some w₀
  | k + 1 => (worldAt k).bind fun w =>
    match w₀.slot k with
    | some r => w.poll b fuel r
    | none => some w

/-- What poll `k` pushes last on output `o` of `u`, if it is a poll of `u` that pushes there. -/
def frameAt (u : ModuleRef) (o k : Nat) : Option (Option V) :=
  if w₀.slot k = some u then (worldAt b fuel w₀ k).bind fun w => lastPush o (pollActions b w u) else none

/-- The data of the stream during the update of `d`, if poll `k` runs it. -/
def processedAt (d : ModuleRef) (s : StreamRef) (k : Nat) : Option (Option V) :=
  if w₀.slot k = some d then
    (worldAt b fuel w₀ k).bind fun w => if w.updates d then some (w.data s) else none
  else none

/-- The frames of the first `n` polls, one for each pushing update of `u`. -/
def frames (u : ModuleRef) (o n : Nat) : List (Option V) := (List.range n).filterMap (frameAt b fuel w₀ u o)

/-- What the updates of `d` processed in the first `n` polls. -/
def processed (d : ModuleRef) (s : StreamRef) (n : Nat) : List (Option V) :=
  (List.range n).filterMap (processedAt b fuel w₀ d s)

/-- The same from the first push of `u` on. -/
def processedSince (d u : ModuleRef) (o n : Nat) : List (Option V) :=
  (List.range n).filterMap fun k =>
    if frames b fuel w₀ u o k = [] then none else processedAt b fuel w₀ d ⟨u, o⟩ k

variable {b fuel w₀} {w v : World V L} {u d : ModuleRef} {o : Nat}

/-! ### The order of the polls -/

theorem slot_of_lt {p i : Nat} (inside : i < w₀.width) : w₀.slot (p * w₀.width + i) = w₀.net.elements[i]? := by
  unfold slot
  rw [Nat.mul_add_mod_self_right, Nat.mod_eq_of_lt inside]

def position (w₀ : World V L) (r : ModuleRef) : Nat := w₀.net.elements.idxOf r

theorem position_lt {r : ModuleRef} (member : r ∈ w₀.net.elements) : w₀.position r < w₀.width :=
  List.idxOf_lt_length_of_mem member

def pollOf (w₀ : World V L) (r : ModuleRef) (p : Nat) : Nat := p * w₀.width + w₀.position r

theorem slot_pollOf {r : ModuleRef} (member : r ∈ w₀.net.elements) (p : Nat) : w₀.slot (w₀.pollOf r p) = some r := by
  rw [pollOf, slot_of_lt (position_lt member), List.getElem?_eq_getElem (position_lt member)]
  exact congrArg some (List.getElem_idxOf (position_lt member))

theorem slot_eq_some (ok : w₀.Ok) {k : Nat} {r : ModuleRef} (h : w₀.slot k = some r) :
    r ∈ w₀.net.elements ∧ k % w₀.width = w₀.position r := by
  obtain ⟨inside, same⟩ := List.getElem?_eq_some_iff.mp h
  have member : r ∈ w₀.net.elements := same ▸ List.getElem_mem inside
  refine ⟨member, ?_⟩
  rw [← same]
  exact (ok.wired.nodup.idxOf_getElem _ inside).symm

theorem slot_ne_none {k : Nat} {r : ModuleRef} (member : r ∈ w₀.net.elements) : w₀.slot k ≠ none := by
  have positive : 0 < w₀.width := List.length_pos_of_mem member
  have inside : k % w₀.width < w₀.net.elements.length := Nat.mod_lt k positive
  unfold slot
  rw [List.getElem?_eq_getElem inside]
  simp

def nextPoll (w₀ : World V L) (u d : ModuleRef) (p : Nat) : Nat :=
  w₀.pollOf d (if w₀.position u < w₀.position d then p else p + 1)

theorem position_ne (hu : u ∈ w₀.net.elements) (hd : d ∈ w₀.net.elements) (other : d ≠ u) :
    w₀.position d ≠ w₀.position u := by
  intro same
  have first := slot_pollOf hu 0
  have second := slot_pollOf hd 0
  rw [pollOf, same, ← pollOf, first] at second
  exact other (Option.some.inj second).symm

theorem nextPoll_bounds (hu : u ∈ w₀.net.elements) (hd : d ∈ w₀.net.elements) (other : d ≠ u) (p : Nat) :
    w₀.pollOf u p < w₀.nextPoll u d p ∧ w₀.nextPoll u d p < w₀.pollOf u (p + 1) := by
  have iu := position_lt hu
  have id := position_lt hd
  have ne := position_ne hu hd other
  unfold nextPoll pollOf
  split <;> rw [Nat.add_one_mul] <;> omega

theorem slot_between (ok : w₀.Ok) (hu : u ∈ w₀.net.elements) (hd : d ∈ w₀.net.elements) (other : d ≠ u) {p k : Nat}
    (after : w₀.pollOf u p < k) (before : k < w₀.nextPoll u d p) :
    w₀.slot k ≠ some u ∧ w₀.slot k ≠ some d := by
  have bounds := nextPoll_bounds hu hd other p
  unfold pollOf at bounds after
  have iu := position_lt hu
  have id := position_lt hd
  have split := Nat.div_add_mod' k w₀.width
  -- `k` is in pass `q`; only the passes `p` and `p + 1` are near enough.
  have pass (q : Nat) (low : p * w₀.width < q * w₀.width + w₀.width) : p ≤ q := by
    rw [← Nat.succ_mul] at low
    exact Nat.le_of_lt_succ (Nat.lt_of_mul_lt_mul_right low)
  have strict (q q' : Nat) (low : q * w₀.width < q' * w₀.width) : q < q' := Nat.lt_of_mul_lt_mul_right low
  constructor
  · intro same
    rw [(slot_eq_some ok same).2] at split
    have low := strict p (k / w₀.width) (by omega)
    have high := strict (k / w₀.width) (p + 1) (by omega)
    omega
  · intro same
    rw [(slot_eq_some ok same).2] at split
    unfold nextPoll pollOf at before
    split at before
    · have high := strict (k / w₀.width) p (by omega)
      have low := pass (k / w₀.width) (by omega)
      omega
    · have high := strict (k / w₀.width) (p + 1) (by omega)
      have ne := position_ne hu hd other
      have low := strict p (k / w₀.width) (by omega)
      omega

/-! ### What the polls carry -/

theorem worldAt_succ {k : Nat} {r : ModuleRef} (now : worldAt b fuel w₀ k = some w) (here : w₀.slot k = some r) :
    worldAt b fuel w₀ (k + 1) = w.poll b fuel r := by simp [worldAt, now, here]

theorem worldAt_effect {k : Nat} (now : worldAt b fuel w₀ k = some w) : Effect Set.univ Set.univ w₀ w := by
  induction k generalizing w with
  | zero =>
    cases now
    exact .refl ..
  | succ k ih =>
    obtain ⟨before, found, step⟩ := Option.bind_eq_some_iff.mp now
    apply (ih found).trans
    split at step
    · exact (poll_effect step).mono (Set.subset_univ _) (Set.subset_univ _)
    · cases step
      exact .refl ..

theorem worldAt_taken (p : Nat) {i : Nat} (inside : i ≤ w₀.width) :
    worldAt b fuel w₀ (p * w₀.width + i) =
      (worldAt b fuel w₀ (p * w₀.width)).bind fun w => (w₀.net.elements.take i).foldlM (poll b fuel) w := by
  induction i with
  | zero =>
    rw [Nat.add_zero]
    cases worldAt b fuel w₀ (p * w₀.width) <;> rfl
  | succ i ih =>
    have here := slot_of_lt (p := p) (Nat.lt_of_succ_le inside)
    rw [List.getElem?_eq_getElem (Nat.lt_of_succ_le inside)] at here
    rw [← Nat.add_assoc, worldAt, ih (Nat.le_of_succ_le inside), here]
    cases worldAt b fuel w₀ (p * w₀.width) with
    | none => rfl
    | some w =>
      rw [Option.bind_some, Option.bind_some, List.take_succ_eq_append_getElem (Nat.lt_of_succ_le inside),
        List.foldlM_append]
      simp

theorem worldAt_pass (p : Nat) :
    worldAt b fuel w₀ ((p + 1) * w₀.width) = (worldAt b fuel w₀ (p * w₀.width)).bind (pass b fuel) := by
  rw [Nat.add_one_mul, worldAt_taken p (Nat.le_refl _)]
  apply Option.bind_congr
  intro w now
  rw [pass, (worldAt_effect now).elements, width, List.take_length]

theorem worldAt_of_le {k n : Nat} (bound : k ≤ n) (now : worldAt b fuel w₀ n = some w) :
    ∃ w', worldAt b fuel w₀ k = some w' := by
  induction n, bound using Nat.le_induction generalizing w with
  | base => exact ⟨w, now⟩
  | succ n _ ih =>
    obtain ⟨before, found, _⟩ := Option.bind_eq_some_iff.mp now
    exact ih found

theorem lastPush_mem {acts : List (Action V)} {value : Option V} (h : lastPush o acts = some value) :
    .push o value ∈ acts := by
  have member : value ∈ acts.filterMap (Action.on o) := List.mem_of_getLast? h
  obtain ⟨a, inside, on⟩ := List.mem_filterMap.mp member
  cases a with
  | push idx pushed =>
    simp only [Action.on] at on
    split at on
    · rename_i here
      cases on
      exact here ▸ inside
    · cases on
  | stop => cases on

theorem lastPush_eq_none {acts : List (Action V)} (h : lastPush o acts = none) (value : Option V) :
    .push o value ∉ acts := by
  intro member
  have empty : acts.filterMap (Action.on o) = [] := List.getLast?_eq_none_iff.mp h
  have on : value ∈ acts.filterMap (Action.on o) :=
    List.mem_filterMap.mpr ⟨_, member, by simp [Action.on]⟩
  rw [empty] at on
  cases on

theorem pollActions_spec {a : Action V} (member : a ∈ pollActions b w u) :
    ∃ kind rest inputs, w.kindOf u = some kind ∧ kind ≠ .justify ∧ a ∈ (b.update kind rest inputs).2 := by
  have prepared := prepare_effect w u ∅
  unfold pollActions at member
  split at member
  · unfold actions at member
    split at member
    · cases member
    · rename_i job found
      split at member
      · cases member
      · rename_i busy
        refine ⟨job.kind, job.rest, _, ?_, ?_, member⟩
        · rw [← prepared.kindOf, kindOf_eq, found]
          rfl
        · intro justify
          rw [justify] at busy
          exact busy rfl
  · cases member

theorem frameAt_eq_none_of_ne {k : Nat} (elsewhere : w₀.slot k ≠ some u) : frameAt b fuel w₀ u o k = none :=
  if_neg elsewhere

theorem frameAt_spec {k : Nat} {value : Option V} (h : frameAt b fuel w₀ u o k = some value) :
    w₀.slot k = some u ∧ ∃ w, worldAt b fuel w₀ k = some w ∧ lastPush o (pollActions b w u) = some value := by
  unfold frameAt at h
  split at h
  · rename_i here
    exact ⟨here, Option.bind_eq_some_iff.mp h⟩
  · cases h

theorem own_of_frame {k : Nat} {value : Option V} (frame : frameAt b fuel w₀ u o k = some value) (i : Nat) :
    (⟨u, i⟩ : StreamRef) ∉ w₀.relays := by
  obtain ⟨_, w, now, last⟩ := frameAt_spec frame
  obtain ⟨ku, _, _, source, notJustify, _⟩ := pollActions_spec (lastPush_mem last)
  rintro ⟨ports, found, kind⟩
  rw [(worldAt_effect now).kindOf, kindOf, found] at source
  exact notJustify ((Option.some.inj source).symm.trans kind)

theorem worldAt_returns (ok : w₀.Ok) (enough : w₀.net.next < fuel) (k : Nat) :
    ∃ w, worldAt b fuel w₀ k = some w := by
  induction k with
  | zero => exact ⟨w₀, rfl⟩
  | succ k ih =>
    obtain ⟨w, now⟩ := ih
    have effect := worldAt_effect now
    cases here : w₀.slot k with
    | none => exact ⟨w, by simp [worldAt, now, here]⟩
    | some r =>
      rw [worldAt_succ now here]
      exact poll_returns (effect.ok ok) r (effect.next ▸ enough)

end Movid.Schedule.World
