import Movid.Schedule.World

/-!
# What a push can change

A push changes the data of its stream and of the streams that `Justify` modules push on in
turn, and sets `need_update` of modules that observe one of these streams. It never clears
the flag of another module and never touches the graph.
-/

namespace Movid.Schedule.World

variable {V L : Type} {b : Behaviour V L} {w v z : World V L} {r x : ModuleRef} {s t : StreamRef}

/-- What the scheduler never changes of a module. -/
def frame (w : World V L) (r : ModuleRef) : Option (List InputPort × List Str × Kind) :=
  (w.net.modules r).map fun m => (m.inputs, m.outputs, m.state.kind)

/-- The streams that are pushed on from inside `notifyData`. -/
def relays (w : World V L) : Set StreamRef := { s | ∃ ports, w.frame s.owner = some ports ∧ ports.2.2 = .justify }

/-- `v` comes from `w` by pushes on streams of `S`; the flags of the modules in `E` are not
spoken about. -/
structure Effect (E : Set ModuleRef) (S : Set StreamRef) (w v : World V L) : Prop where
  observers : v.net.observers = w.net.observers
  elements : v.net.elements = w.net.elements
  next : v.net.next = w.net.next
  frame : v.frame = w.frame
  data : ∀ s, s ∉ S → v.data s = w.data s
  pushed : ∀ s, w.pushed s = true → v.pushed s = true
  raised : ∀ r, r ∉ E → w.needUpdate r = true → v.needUpdate r = true
  told : ∀ r, r ∉ E → v.needUpdate r = true → w.needUpdate r = true ∨
    ∃ s ∈ S, r ∈ w.net.observers s ∧ v.pushed s = true

variable {E : Set ModuleRef} {S : Set StreamRef}

theorem Effect.refl (E : Set ModuleRef) (S : Set StreamRef) (w : World V L) : Effect E S w w :=
  ⟨rfl, rfl, rfl, rfl, fun _ _ => rfl, fun _ h => h, fun _ _ h => h, fun _ _ h => Or.inl h⟩

theorem Effect.trans (first : Effect E S w v) (second : Effect E S v z) : Effect E S w z where
  observers := second.observers.trans first.observers
  elements := second.elements.trans first.elements
  next := second.next.trans first.next
  frame := second.frame.trans first.frame
  data s outside := (second.data s outside).trans (first.data s outside)
  pushed s h := second.pushed s (first.pushed s h)
  raised r outside h := second.raised r outside (first.raised r outside h)
  told r outside h := by
    rcases second.told r outside h with before | ⟨s, inside, member, now⟩
    · rcases first.told r outside before with old | ⟨s, inside, member, now⟩
      · exact Or.inl old
      · exact Or.inr ⟨s, inside, member, second.pushed s now⟩
    · exact Or.inr ⟨s, inside, first.observers ▸ member, now⟩

theorem Effect.mono {E' : Set ModuleRef} {S' : Set StreamRef} (effect : Effect E S w v) (modules : E ⊆ E')
    (streams : S ⊆ S') : Effect E' S' w v where
  observers := effect.observers
  elements := effect.elements
  next := effect.next
  frame := effect.frame
  data s outside := effect.data s fun inside => outside (streams inside)
  pushed := effect.pushed
  raised r outside h := effect.raised r (fun inside => outside (modules inside)) h
  told r outside h := by
    rcases effect.told r (fun inside => outside (modules inside)) h with before | ⟨s, inside, facts⟩
    · exact Or.inl before
    · exact Or.inr ⟨s, streams inside, facts⟩

theorem Effect.quiet (effect : Effect E S w v) (outside : r ∉ E) (apart : ∀ s ∈ S, r ∉ w.net.observers s) :
    v.needUpdate r = w.needUpdate r := by
  cases before : w.needUpdate r with
  | true => exact effect.raised r outside before
  | false =>
    by_contra now
    rcases effect.told r outside (by simpa using now) with flag | ⟨s, inside, member, _⟩
    · rw [before] at flag
      cases flag
    · exact apart s inside member

theorem Effect.relays (effect : Effect E S w v) : v.relays = w.relays := by
  unfold World.relays
  rw [effect.frame]

/-! ### One module -/

theorem updateJob_job (w : World V L) (r x : ModuleRef) (f : Job L → Job L) :
    (w.updateJob r f).job x = if x = r then (w.job r).map f else w.job x := by
  unfold job updateJob
  rw [Net.updateModule_modules]
  split
  · cases w.net.modules r <;> rfl
  · rfl

theorem updateJob_frame (w : World V L) (r : ModuleRef) {f : Job L → Job L} (keeps : ∀ job, (f job).kind = job.kind) :
    (w.updateJob r f).frame = w.frame := by
  funext x
  unfold frame updateJob
  rw [Net.updateModule_modules]
  split
  · rename_i same
    rw [same]
    cases w.net.modules r <;> simp [keeps]
  · rfl

theorem updateJob_needUpdate (w : World V L) (r : ModuleRef) {f : Job L → Job L}
    (keeps : ∀ job, (f job).needUpdate = job.needUpdate) (x : ModuleRef) :
    (w.updateJob r f).needUpdate x = w.needUpdate x := by
  unfold needUpdate
  rw [updateJob_job]
  split
  · rename_i same
    rw [same]
    cases w.job r <;> simp [keeps]
  · rfl

theorem updateJob_needUpdate_of_ne (w : World V L) {r x : ModuleRef} (other : x ≠ r) (f : Job L → Job L) :
    (w.updateJob r f).needUpdate x = w.needUpdate x := by
  unfold needUpdate
  rw [updateJob_job, if_neg other]

theorem updateJob_effect (w : World V L) (r : ModuleRef) (f : Job L → Job L)
    (keeps : ∀ job, (f job).kind = job.kind) (S : Set StreamRef) : Effect {r} S w (w.updateJob r f) where
  observers := rfl
  elements := rfl
  next := rfl
  frame := updateJob_frame w r keeps
  data _ _ := rfl
  pushed _ h := h
  raised x outside h := by rw [updateJob_needUpdate_of_ne w outside]; exact h
  told x outside h := by rw [updateJob_needUpdate_of_ne w outside] at h; exact Or.inl h

theorem notifyUpdate_own_effect (w : World V L) (r : ModuleRef) (S : Set StreamRef) :
    Effect {r} S w (w.notifyUpdate r) := updateJob_effect w r _ (by intro job; rfl) S

theorem stop_effect (w : World V L) (r : ModuleRef) (S : Set StreamRef) : Effect {r} S w (w.stop r) :=
  updateJob_effect w r _ (by intro job; rfl) S

theorem consume_effect (w : World V L) (r : ModuleRef) (rest : L) (S : Set StreamRef) :
    Effect {r} S w (w.consume r rest) := updateJob_effect w r _ (by intro job; rfl) S

theorem updateJob_effect_quiet (w : World V L) (r : ModuleRef) {f : Job L → Job L}
    (kind : ∀ job, (f job).kind = job.kind) (flag : ∀ job, (f job).needUpdate = job.needUpdate)
    (S : Set StreamRef) : Effect ∅ S w (w.updateJob r f) where
  observers := rfl
  elements := rfl
  next := rfl
  frame := updateJob_frame w r kind
  data _ _ := rfl
  pushed _ h := h
  raised x _ h := by rw [updateJob_needUpdate w r flag]; exact h
  told x _ h := by rw [updateJob_needUpdate w r flag] at h; exact Or.inl h

theorem notifyUpdate_needUpdate_self (live : w.job r ≠ none) : (w.notifyUpdate r).needUpdate r = true := by
  unfold needUpdate notifyUpdate
  rw [updateJob_job, if_pos rfl]
  cases found : w.job r with
  | none => exact absurd found live
  | some job => rfl

theorem notifyUpdate_effect (inside : s ∈ S) (member : r ∈ w.net.observers s) (now : w.pushed s = true) :
    Effect ∅ S w (w.notifyUpdate r) where
  observers := rfl
  elements := rfl
  next := rfl
  frame := updateJob_frame w r fun _ => rfl
  data _ _ := rfl
  pushed _ h := h
  raised x _ h := by
    by_cases same : x = r
    · subst same
      apply notifyUpdate_needUpdate_self
      intro dead
      simp [needUpdate, dead] at h
    · rw [notifyUpdate, updateJob_needUpdate_of_ne w same]
      exact h
  told x _ h := by
    by_cases same : x = r
    · exact Or.inr ⟨s, inside, same ▸ member, now⟩
    · rw [notifyUpdate, updateJob_needUpdate_of_ne w same] at h
      exact Or.inl h

theorem store_effect (w : World V L) (s : StreamRef) (value : Option V) (inside : s ∈ S) :
    Effect ∅ S w (w.store s value) where
  observers := rfl
  elements := rfl
  next := rfl
  frame := rfl
  data t outside := by
    have other : t ≠ s := by
      rintro rfl
      exact outside inside
    exact Function.update_of_ne other _ _
  pushed t h := by
    by_cases same : t = s
    · simp [store, same]
    · simpa [store, same] using h
  raised _ _ h := h
  told _ _ h := Or.inl h

/-! ### Pushes -/

theorem mem_relays_of_job {job : Job L} (found : w.job r = some job) (kind : job.kind = .justify) (i : Nat) :
    (⟨r, i⟩ : StreamRef) ∈ w.relays := by
  obtain ⟨m, live, rfl⟩ := Option.map_eq_some_iff.mp found
  exact ⟨(m.inputs, m.outputs, m.state.kind), by simp only [frame, live, Option.map_some], kind⟩

theorem kind_eq_justify {kind : Kind} (h : kind.notifyData = .relay) : kind = .justify := by
  cases kind <;> first | rfl | cases h

theorem notifyData_effect {push : World V L → StreamRef → Option V → Option (World V L)}
    (nested : ∀ w v t value, t ∈ w.relays → push w t value = some v → Effect ∅ w.relays w v)
    (h : notifyData b push s w r = some v) (member : r ∈ w.net.observers s) (now : w.pushed s = true) :
    Effect ∅ ({s} ∪ w.relays) w v := by
  unfold notifyData at h
  obtain ⟨job, found, h⟩ := Option.bind_eq_some_iff.mp h
  have received := updateJob_effect_quiet w r (f := fun j => { j with rest := b.receive job.kind job.rest (w.data s) })
    (fun _ => rfl) (fun _ => rfl) ({s} ∪ w.relays)
  simp only [] at h
  split at h
  · cases h
    exact received.trans (notifyUpdate_effect (Or.inl rfl) member now)
  · split at h
    · cases h
      exact received.trans (notifyUpdate_effect (Or.inl rfl) member now)
    · cases h
      exact received
  · rename_i relay
    have relays' := received.relays
    have inside : (⟨r, 0⟩ : StreamRef) ∈ w.relays := mem_relays_of_job found (kind_eq_justify relay) 0
    have deeper := nested _ _ _ _ (relays' ▸ inside) h
    rw [relays'] at deeper
    exact received.trans (deeper.mono (Set.Subset.refl _) Set.subset_union_right)
  · cases h
    exact received

theorem notifyData_data {push : World V L → StreamRef → Option V → Option (World V L)}
    (nested : ∀ w v t value, t ∈ w.relays → push w t value = some v → Effect ∅ w.relays w v)
    (h : notifyData b push s w r = some v) (outside : t ∉ w.relays) : v.data t = w.data t := by
  unfold notifyData at h
  obtain ⟨job, found, h⟩ := Option.bind_eq_some_iff.mp h
  have received := updateJob_effect_quiet w r (f := fun j => { j with rest := b.receive job.kind job.rest (w.data s) })
    (fun _ => rfl) (fun _ => rfl) w.relays
  simp only [] at h
  split at h
  · cases h
    rfl
  · split at h <;> cases h <;> rfl
  · rename_i relay
    have relays' := received.relays
    have inside : (⟨r, 0⟩ : StreamRef) ∈ w.relays := mem_relays_of_job found (kind_eq_justify relay) 0
    have deeper := nested _ _ _ _ (relays' ▸ inside) h
    rw [relays'] at deeper
    exact (received.trans deeper).data t outside
  · cases h
    rfl

theorem observers_effect {push : World V L → StreamRef → Option V → Option (World V L)}
    (nested : ∀ w v t value, t ∈ w.relays → push w t value = some v → Effect ∅ w.relays w v)
    {rs : List ModuleRef} (h : rs.foldlM (notifyData b push s) w = some v)
    (members : ∀ r ∈ rs, r ∈ w.net.observers s) (now : w.pushed s = true) : Effect ∅ ({s} ∪ w.relays) w v := by
  induction rs generalizing w with
  | nil =>
    cases h
    exact .refl ..
  | cons r rs ih =>
    rw [List.foldlM_cons] at h
    obtain ⟨u, first, rest⟩ := Option.bind_eq_some_iff.mp h
    have step := notifyData_effect nested first (members r List.mem_cons_self) now
    have later := ih rest (fun x inside => step.observers ▸ members x (List.mem_cons_of_mem _ inside))
      (step.pushed s now)
    rw [step.relays] at later
    exact step.trans later

theorem store_pushed (w : World V L) (s : StreamRef) (value : Option V) : (w.store s value).pushed s = true := by
  simp [store]

theorem push_effect (fuel : Nat) {value : Option V} (h : push b fuel w s value = some v) :
    Effect ∅ ({s} ∪ w.relays) w v := by
  induction fuel generalizing w v s value with
  | zero => cases h
  | succ fuel ih =>
    have stored := store_effect w s value (S := {s} ∪ w.relays) (Or.inl rfl)
    have nested (w v : World V L) (t : StreamRef) (value : Option V) (inside : t ∈ w.relays)
        (call : push b fuel w t value = some v) : Effect ∅ w.relays w v :=
      (ih call).mono (Set.Subset.refl _) (Set.union_subset (Set.singleton_subset_iff.mpr inside) (Set.Subset.refl _))
    have told := observers_effect nested h (fun r member => member) (store_pushed w s value)
    rw [stored.relays] at told
    exact stored.trans told

theorem notifyData_needUpdate {push : World V L → StreamRef → Option V → Option (World V L)} {job : Job L}
    (found : w.job r = some job) (calls : job.kind.notifies (w.data s))
    (h : notifyData b push s w r = some v) : v.needUpdate r = true := by
  have live (f : Job L → Job L) : (w.updateJob r f).job r ≠ none := by
    rw [updateJob_job, if_pos rfl, found]
    simp
  unfold notifyData at h
  rw [found, Option.bind_some] at h
  simp only [] at h
  rcases calls with always | ⟨nonNull, some⟩
  · rw [always] at h
    cases h
    exact notifyUpdate_needUpdate_self (live _)
  · rw [nonNull] at h
    simp only [show ((w.updateJob r fun j => { j with rest := b.receive job.kind job.rest (w.data s) }).data s) =
      w.data s from rfl, some, if_true, Option.some.injEq] at h
    rw [← h]
    exact notifyUpdate_needUpdate_self (live _)

def kindOf (w : World V L) (r : ModuleRef) : Option Kind := (w.frame r).map (·.2.2)

theorem kindOf_eq (w : World V L) (r : ModuleRef) : w.kindOf r = (w.job r).map (·.kind) := by
  unfold kindOf frame job
  cases w.net.modules r <;> rfl

theorem Effect.kindOf (effect : Effect E S w v) (r : ModuleRef) : v.kindOf r = w.kindOf r := by
  unfold World.kindOf
  rw [effect.frame]

theorem observers_data {push : World V L → StreamRef → Option V → Option (World V L)}
    (nested : ∀ w v t value, t ∈ w.relays → push w t value = some v → Effect ∅ w.relays w v)
    {rs : List ModuleRef} (h : rs.foldlM (notifyData b push s) w = some v)
    (members : ∀ r ∈ rs, r ∈ w.net.observers s) (now : w.pushed s = true) (outside : t ∉ w.relays) :
    v.data t = w.data t := by
  induction rs generalizing w with
  | nil =>
    cases h
    rfl
  | cons r rs ih =>
    rw [List.foldlM_cons] at h
    obtain ⟨u, first, rest⟩ := Option.bind_eq_some_iff.mp h
    have step := notifyData_effect nested first (members r List.mem_cons_self) now
    have later := ih rest (fun x inside => step.observers ▸ members x (List.mem_cons_of_mem _ inside))
      (step.pushed s now) (step.relays ▸ outside)
    exact later.trans (notifyData_data nested first outside)

theorem observers_notified {push : World V L → StreamRef → Option V → Option (World V L)}
    (nested : ∀ w v t value, t ∈ w.relays → push w t value = some v → Effect ∅ w.relays w v)
    {rs : List ModuleRef} (h : rs.foldlM (notifyData b push s) w = some v)
    (members : ∀ r ∈ rs, r ∈ w.net.observers s) (now : w.pushed s = true) (own : s ∉ w.relays)
    {kind : Kind} (member : x ∈ rs) (known : w.kindOf x = some kind) (calls : kind.notifies (w.data s)) :
    v.needUpdate x = true := by
  induction rs generalizing w with
  | nil => cases member
  | cons r rs ih =>
    rw [List.foldlM_cons] at h
    obtain ⟨u, first, rest⟩ := Option.bind_eq_some_iff.mp h
    have step := notifyData_effect nested first (members r List.mem_cons_self) now
    have later (x : ModuleRef) (inside : x ∈ rs) : x ∈ u.net.observers s :=
      step.observers ▸ members x (List.mem_cons_of_mem _ inside)
    by_cases here : x = r
    · subst here
      rw [kindOf_eq] at known
      obtain ⟨job, found, rfl⟩ := Option.map_eq_some_iff.mp known
      have flag := notifyData_needUpdate found calls first
      exact (observers_effect nested rest later (step.pushed s now)).raised x (by simp) flag
    · have inside : x ∈ rs := (List.mem_cons.mp member).resolve_left here
      apply ih rest later (step.pushed s now) (step.relays ▸ own) inside ((step.kindOf x).trans known)
      rw [notifyData_data nested first own]
      exact calls

/-- After a push on a stream of a module that is no `Justify` the stream holds the value, and
the observers that the value makes call `notifyUpdate` are flagged. -/
theorem push_delivers (fuel : Nat) {value : Option V} (h : push b fuel w s value = some v) (own : s ∉ w.relays) :
    v.data s = value ∧ ∀ x kind, x ∈ w.net.observers s → w.kindOf x = some kind → kind.notifies value →
      v.needUpdate x = true := by
  cases fuel with
  | zero => cases h
  | succ fuel =>
    have stored := store_effect w s value (S := {s} ∪ w.relays) (Or.inl rfl)
    have nested (w v : World V L) (t : StreamRef) (value : Option V) (inside : t ∈ w.relays)
        (call : push b fuel w t value = some v) : Effect ∅ w.relays w v :=
      (push_effect fuel call).mono (Set.Subset.refl _)
        (Set.union_subset (Set.singleton_subset_iff.mpr inside) (Set.Subset.refl _))
    have value' : (w.store s value).data s = value := by simp [store]
    have apart : s ∉ (w.store s value).relays := stored.relays ▸ own
    constructor
    · rw [observers_data nested h (fun r member => member) (store_pushed w s value) apart, value']
    · intro x kind member known calls
      exact observers_notified nested h (fun r member => member) (store_pushed w s value) apart member known
        (by rw [value']; exact calls)

end Movid.Schedule.World
