import Mathlib.Data.List.Induction
import Movid.Schedule.Effects

/-!
# What one poll does

A poll of a module changes only its own outputs and what hangs on them, and it leaves the
value that the update pushed last on each of these outputs.
-/

namespace Movid.Schedule.World

variable {V L : Type} {b : Behaviour V L} {w v : World V L} {r x : ModuleRef} {s t : StreamRef} {fuel : Nat}

/-- What the actions push last on the output, if they push on it. -/
def lastPush (idx : Nat) (acts : List (Action V)) : Option (Option V) := (acts.filterMap (Action.on idx)).getLast?

def pushedBy (r : ModuleRef) (acts : List (Action V)) : Set StreamRef :=
  { s | s.owner = r ∧ ∃ value, .push s.idx value ∈ acts }

theorem perform_effect {a : Action V} (h : perform b fuel r w a = some v) :
    Effect {r} (pushedBy r [a] ∪ w.relays) w v := by
  cases a with
  | push idx value =>
    refine (push_effect fuel h).mono (Set.empty_subset _) (Set.union_subset_union_left _ ?_)
    rintro s rfl
    exact ⟨rfl, value, List.mem_singleton_self _⟩
  | stop =>
    cases h
    exact stop_effect ..

theorem performs_effect {acts : List (Action V)} (h : acts.foldlM (perform b fuel r) w = some v) :
    Effect {r} (pushedBy r acts ∪ w.relays) w v := by
  induction acts generalizing w with
  | nil =>
    cases h
    exact .refl ..
  | cons a acts ih =>
    rw [List.foldlM_cons] at h
    obtain ⟨u, first, rest⟩ := Option.bind_eq_some_iff.mp h
    have step := perform_effect first
    have later := ih rest
    rw [step.relays] at later
    have part (l : List (Action V)) (sub : ∀ x ∈ l, x ∈ a :: acts) : pushedBy r l ⊆ pushedBy r (a :: acts) :=
      fun s found => ⟨found.1, found.2.choose, sub _ found.2.choose_spec⟩
    refine (step.mono (Set.Subset.refl _) (Set.union_subset_union_left _ (part [a] ?_))).trans
      (later.mono (Set.Subset.refl _) (Set.union_subset_union_left _ (part acts ?_)))
    · intro x member
      rw [List.mem_singleton.mp member]
      exact List.mem_cons_self
    · exact fun x member => List.mem_cons_of_mem _ member

theorem lastPush_append (idx : Nat) (acts : List (Action V)) (a : Action V) :
    lastPush idx (acts ++ [a]) = (Action.on idx a).or (lastPush idx acts) := by
  unfold lastPush
  rw [List.filterMap_append]
  cases h : Action.on idx a with
  | none => simp [h]
  | some value => simp [h]

/-- The last push on an output decides what the output holds and who is flagged. -/
theorem performs_deliver {acts : List (Action V)} (h : acts.foldlM (perform b fuel r) w = some v)
    {o : Nat} (own : (⟨r, o⟩ : StreamRef) ∉ w.relays) :
    v.data ⟨r, o⟩ = (lastPush o acts).getD (w.data ⟨r, o⟩) ∧
      ∀ value, lastPush o acts = some value → ∀ x kind, x ≠ r → x ∈ w.net.observers ⟨r, o⟩ →
        w.kindOf x = some kind → kind.notifies value → v.needUpdate x = true := by
  induction acts using List.reverseRecOn generalizing v with
  | nil =>
    cases h
    exact ⟨rfl, fun value none => by cases none⟩
  | append_singleton acts a ih =>
    rw [List.foldlM_append] at h
    obtain ⟨u, first, h⟩ := Option.bind_eq_some_iff.mp h
    have last : perform b fuel r u a = some v := by simpa using h
    have before := performs_effect first
    obtain ⟨data, flags⟩ := ih first
    rw [lastPush_append]
    cases a with
    | push idx value =>
      by_cases here : idx = o
      · subst here
        obtain ⟨stored, told⟩ := push_delivers fuel last (before.relays ▸ own)
        simp only [Action.on, if_true, Option.some_or, Option.getD_some, Option.some.injEq]
        refine ⟨stored, ?_⟩
        rintro _ rfl x kind _ member known calls
        exact told x kind (before.observers ▸ member) ((before.kindOf x).trans known) calls
      · have step := push_effect fuel last
        have apart : (⟨r, o⟩ : StreamRef) ∉ ({⟨r, idx⟩} ∪ u.relays : Set StreamRef) := by
          rintro (same | relay)
          · exact here (congrArg StreamRef.idx same).symm
          · exact own (before.relays ▸ relay)
        simp only [Action.on, if_neg here, Option.none_or]
        refine ⟨(step.data _ apart).trans data, fun value found x kind other member known calls => ?_⟩
        exact step.raised x (by simp) (flags value found x kind other member known calls)
    | stop =>
      cases last
      simp only [Action.on, Option.none_or]
      refine ⟨data, fun value found x kind other member known calls => ?_⟩
      have flag := flags value found x kind other member known calls
      exact (stop_effect u r ∅).raised x (by simpa using other) flag

theorem perform_told {a : Action V} (h : perform b fuel r w a = some v) (flag : v.needUpdate x = true) :
    w.needUpdate x = true ∨ ∃ s ∈ pushedBy r [a] ∪ w.relays, x ∈ w.net.observers s ∧ v.pushed s = true := by
  cases a with
  | push idx value =>
    rcases (push_effect fuel h).told x (by simp) flag with before | ⟨s, rfl | relay, member, now⟩
    · exact Or.inl before
    · exact Or.inr ⟨_, Or.inl ⟨rfl, value, List.mem_singleton_self _⟩, member, now⟩
    · exact Or.inr ⟨s, Or.inr relay, member, now⟩
  | stop =>
    cases h
    by_cases same : x = r
    · subst same
      unfold needUpdate stop at flag
      rw [updateJob_job, if_pos rfl] at flag
      cases found : w.job x <;> simp [found] at flag
    · exact (stop_effect w r _).told x (by simpa using same) flag

theorem performs_told {acts : List (Action V)} (h : acts.foldlM (perform b fuel r) w = some v)
    (flag : v.needUpdate x = true) :
    w.needUpdate x = true ∨ ∃ s ∈ pushedBy r acts ∪ w.relays, x ∈ w.net.observers s ∧ v.pushed s = true := by
  induction acts generalizing w with
  | nil =>
    cases h
    exact Or.inl flag
  | cons a acts ih =>
    rw [List.foldlM_cons] at h
    obtain ⟨u, first, rest⟩ := Option.bind_eq_some_iff.mp h
    have step := perform_effect first
    rcases ih rest with before | ⟨s, inside, member, now⟩
    · rcases perform_told first before with old | ⟨s, inside, member, now⟩
      · exact Or.inl old
      · refine Or.inr ⟨s, inside.imp_left ?_, member, (performs_effect rest).pushed s now⟩
        rintro ⟨owner, value, only⟩
        exact ⟨owner, value, by rw [List.mem_singleton.mp only]; exact List.mem_cons_self⟩
    · rw [step.observers] at member
      rw [step.relays] at inside
      refine Or.inr ⟨s, inside.imp_left ?_, member, now⟩
      rintro ⟨owner, value, later⟩
      exact ⟨owner, value, List.mem_cons_of_mem _ later⟩

/-! ### The poll -/

def updates (w : World V L) (r : ModuleRef) : Bool := (w.prepare r).needUpdate r

def pollActions (b : Behaviour V L) (w : World V L) (r : ModuleRef) : List (Action V) :=
  if w.updates r then actions b (w.prepare r) r else []

theorem prepare_effect (w : World V L) (r : ModuleRef) (S : Set StreamRef) : Effect {r} S w (w.prepare r) := by
  unfold prepare
  split
  · exact notifyUpdate_own_effect ..
  · exact .refl ..

theorem poll_cases (h : w.poll b fuel r = some v) :
    (w.updates r = false ∧ v = w.prepare r) ∨
    (w.updates r = true ∧ ∃ job w₁ w₂, (w.prepare r).job r = some job ∧ w₁.data = w.data ∧
      Effect {r} ∅ w w₁ ∧ w₁.needUpdate r = false ∧
      (pollActions b w r).foldlM (perform b fuel r) w₁ = some w₂ ∧
      v = if job.kind = .camera ∧ pollActions b w r ≠ [] then w₂.notifyUpdate r else w₂) := by
  unfold poll at h
  simp only [] at h
  split at h
  · rename_i flag
    have updates : w.updates r = true := flag
    refine Or.inr ⟨flag, ?_⟩
    unfold update at h
    obtain ⟨job, found, h⟩ := Option.bind_eq_some_iff.mp h
    simp only [] at h
    obtain ⟨w₂, performed, last⟩ := Option.map_eq_some_iff.mp h
    have prepared := prepare_effect w r ∅
    refine ⟨job, _, w₂, found, ?_, prepared.trans (consume_effect ..), ?_,
      by rw [pollActions, if_pos updates]; exact performed, by rw [pollActions, if_pos updates]; exact last.symm⟩
    · exact funext fun s => prepared.data s (by simp)
    · unfold needUpdate consume
      rw [updateJob_job, if_pos rfl, found]
      rfl
  · rename_i clear
    cases h
    exact Or.inl ⟨Bool.eq_false_iff.mpr clear, rfl⟩

theorem poll_effect (h : w.poll b fuel r = some v) :
    Effect {r} (pushedBy r (pollActions b w r) ∪ w.relays) w v := by
  rcases poll_cases h with ⟨_, rfl⟩ | ⟨_, job, w₁, w₂, _, _, first, _, performed, rfl⟩
  · exact prepare_effect ..
  · have acts := performs_effect performed
    rw [first.relays] at acts
    have both := (first.mono (Set.Subset.refl _) (Set.empty_subset _)).trans acts
    split
    · exact both.trans (notifyUpdate_own_effect ..)
    · exact both

theorem prepare_of_not_polling {kind : Kind} (known : w.kindOf r = some kind) (plain : kind.polling = false) :
    w.prepare r = w := by
  rw [kindOf_eq] at known
  obtain ⟨job, found, rfl⟩ := Option.map_eq_some_iff.mp known
  simp [prepare, found, plain]

theorem updates_of_not_polling {kind : Kind} (known : w.kindOf r = some kind) (plain : kind.polling = false) :
    w.updates r = w.needUpdate r := by rw [updates, prepare_of_not_polling known plain]

theorem poll_own_told (h : w.poll b fuel r = some v) {kind : Kind} (known : w.kindOf r = some kind)
    (plain : kind.polling = false) (flag : v.needUpdate r = true) :
    ∃ s ∈ pushedBy r (pollActions b w r) ∪ w.relays, r ∈ w.net.observers s ∧ v.pushed s = true := by
  have still := prepare_of_not_polling known plain
  rcases poll_cases h with ⟨clear, rfl⟩ | ⟨_, job, w₁, w₂, found, _, first, clear, performed, rfl⟩
  · rw [updates_of_not_polling known plain] at clear
    rw [still, clear] at flag
    cases flag
  · have notCamera : ¬job.kind = .camera := by
      intro camera
      rw [still] at found
      rw [kindOf_eq, found, Option.map_some, camera, Option.some.injEq] at known
      rw [← known] at plain
      cases plain
    rw [if_neg (fun both => notCamera both.1)] at flag ⊢
    rcases performs_told performed flag with before | told
    · rw [clear] at before
      cases before
    · rw [first.relays, first.observers] at told
      exact told

theorem poll_told (h : w.poll b fuel r = some v) {kind : Kind} (known : w.kindOf x = some kind)
    (plain : kind.polling = false) (flag : v.needUpdate x = true) :
    w.needUpdate x = true ∨
      ∃ s ∈ pushedBy r (pollActions b w r) ∪ w.relays, x ∈ w.net.observers s ∧ v.pushed s = true := by
  by_cases same : x = r
  · subst same
    exact Or.inr (poll_own_told h known plain flag)
  · exact (poll_effect h).told x (by simpa using same) flag

theorem poll_delivers (h : w.poll b fuel r = some v) {o : Nat} (own : (⟨r, o⟩ : StreamRef) ∉ w.relays) :
    v.data ⟨r, o⟩ = (lastPush o (pollActions b w r)).getD (w.data ⟨r, o⟩) ∧
      ∀ value, lastPush o (pollActions b w r) = some value → ∀ x kind, x ≠ r → x ∈ w.net.observers ⟨r, o⟩ →
        w.kindOf x = some kind → kind.notifies value → v.needUpdate x = true := by
  rcases poll_cases h with ⟨clear, rfl⟩ | ⟨_, job, w₁, w₂, _, data, first, _, performed, rfl⟩
  · have none : pollActions b w r = [] := by rw [pollActions, clear]; rfl
    rw [none]
    exact ⟨(prepare_effect w r ∅).data _ (by simp), fun value found => by cases found⟩
  · obtain ⟨stored, told⟩ := performs_deliver performed (first.relays ▸ own)
    rw [data] at stored
    have after : ∀ value, lastPush o (pollActions b w r) = some value → ∀ x kind, x ≠ r →
        x ∈ w.net.observers ⟨r, o⟩ → w.kindOf x = some kind → kind.notifies value →
          w₂.needUpdate x = true := fun value found x kind other member known calls =>
      told value found x kind other (first.observers ▸ member) ((first.kindOf x).trans known) calls
    split
    · refine ⟨stored, fun value found x kind other member known calls => ?_⟩
      exact (notifyUpdate_own_effect w₂ r ∅).raised x (by simpa using other)
        (after value found x kind other member known calls)
    · exact ⟨stored, after⟩

/-! ### Reachable worlds -/

/-- The graph is consistent and every module has the inputs of its kind. -/
structure Ok (w : World V L) : Prop where
  wired : w.net.Wiring ∅
  arity : ∀ r ports, w.frame r = some ports → ports.1.length = ports.2.2.inputCount

theorem shape_eq_frame (w : World V L) (r : ModuleRef) :
    w.net.shape r = (w.frame r).map fun ports => (ports.1.length, ports.2.1) := by
  unfold Net.shape frame
  cases w.net.modules r <;> rfl

theorem slotCount_eq_frame (w : World V L) (r : ModuleRef) (s : StreamRef) :
    w.net.slotCount r s = ((w.frame r).map fun ports => ports.1.countP (·.stream == some s)).getD 0 := by
  unfold Net.slotCount frame
  cases w.net.modules r <;> rfl

theorem Effect.ok {E : Set ModuleRef} {S : Set StreamRef} (effect : Effect E S w v) (ok : w.Ok) : v.Ok where
  wired := by
    have shape : v.net.shape = w.net.shape := by
      funext r
      rw [shape_eq_frame, shape_eq_frame, effect.frame]
    have slots (r : ModuleRef) (s : StreamRef) : v.net.slotCount r s = w.net.slotCount r s := by
      rw [slotCount_eq_frame, slotCount_eq_frame, effect.frame]
    exact ok.wired.congr effect.observers effect.elements effect.next shape slots
  arity := by
    rw [effect.frame]
    exact ok.arity

theorem pass_effect_ok {rs : List ModuleRef} (h : rs.foldlM (poll b fuel) w = some v) (ok : w.Ok) : v.Ok := by
  induction rs generalizing w with
  | nil =>
    cases h
    exact ok
  | cons r rs ih =>
    rw [List.foldlM_cons] at h
    obtain ⟨u, first, rest⟩ := Option.bind_eq_some_iff.mp h
    exact ih rest ((poll_effect first).ok ok)

theorem empty_ok : (empty : World V L).Ok := ⟨Net.Wiring.empty, fun r ports h => by cases h⟩

theorem create_frame (w : World V L) (d : Declaration L) (x : ModuleRef) :
    ({ w with net := w.net.step (.create d.spec) } : World V L).frame x =
      if x = w.net.next then some (d.spec.build.inputs, d.outputs, d.kind) else w.frame x := by
  unfold frame
  by_cases same : x = w.net.next
  · simp [Net.step, Net.webPipelineCreate, Net.addElement, Net.allocate, same, Declaration.spec, ModuleSpec.build]
  · simp [Net.step, Net.webPipelineCreate, Net.addElement, Net.allocate, same, Function.update_of_ne]

theorem frame_of_some {m : Module (Job L)} (found : w.net.modules r = some m) :
    w.frame r = some (m.inputs, m.outputs, m.state.kind) := by simp [frame, found]

theorem Ok.arity_of_some (ok : w.Ok) {m : Module (Job L)} (found : w.net.modules r = some m) :
    m.inputs.length = m.state.kind.inputCount := ok.arity r _ (frame_of_some found)

theorem connect_ok (ok : w.Ok) (r : ModuleRef) (source : Option (ModuleRef × Int)) (n : Int) :
    ({ w with net := w.net.step (.setInput r source n) } : World V L).Ok where
  wired := ok.wired.step (.setInput r source n)
  arity x ports h := by
    by_cases same : x = r
    · subst same
      cases found : w.net.modules x with
      | none =>
        have still : w.net.step (.setInput x source n) = w.net := Net.setInput_of_none found _ n
        rw [still] at h
        exact ok.arity x ports h
      | some m =>
        obtain ⟨m', after, state, _, slots⟩ := Net.setInput_modules_self found
          (source.bind fun output => w.net.getOutput output.1 output.2) n
        have before := ok.arity_of_some found
        rw [frame_of_some (w := { w with net := w.net.step (.setInput x source n) }) after] at h
        cases h
        rcases slots with ⟨_, inputs⟩ | ⟨_, new, _, inputs, _⟩
        · simpa [inputs, state] using before
        · simpa [inputs, state, Module.setSlot] using before
    · have unchanged : (w.net.step (.setInput r source n)).modules x = w.net.modules x :=
        Net.setInput_modules_of_ne w.net same _ n
      unfold frame at h
      rw [show ({ w with net := w.net.step (.setInput r source n) } : World V L).net.modules x = w.net.modules x
        from unchanged] at h
      exact ok.arity x ports h

theorem reload_effect (w : World V L) (r : ModuleRef) : Effect {r} ∅ w (w.reload r) := by
  unfold reload
  split
  · exact .refl ..
  · split
    · exact notifyUpdate_own_effect ..
    · exact .refl ..

theorem create_ok (ok : w.Ok) (d : Declaration L) : ({ w with net := w.net.step (.create d.spec) } : World V L).Ok where
  wired := ok.wired.step (.create d.spec)
  arity x ports found := by
    rw [create_frame] at found
    split at found
    · cases found
      simpa [ModuleSpec.build, Declaration.spec] using d.arity
    · exact ok.arity x ports found

theorem step_ok {event : Event L} (h : w.step b fuel event = some v) (ok : w.Ok) : v.Ok := by
  cases event with
  | create d =>
    cases h
    exact create_ok ok d
  | connect r source n =>
    cases h
    exact connect_ok ok r source n
  | reload r =>
    cases h
    exact (reload_effect w r).ok ok
  | pass => exact pass_effect_ok h ok

theorem reached_ok {events : List (Event L)} (h : Machine.attempt (step b fuel) empty events = some w) : w.Ok :=
  Machine.attempt_invariant (I := Ok) (fun _ _ _ now ok => step_ok now ok) empty_ok h

end Movid.Schedule.World
