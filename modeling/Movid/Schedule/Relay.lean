import Movid.Schedule.Pending

/-!
# Pushes end

`Justify` pushes from inside `notifyData`, so a push nests as deep as `Justify` modules stand
behind each other. Each of them has one input: a chain that starts at a stream of another
module never comes back to one of its members, and the number of modules bounds its length.
-/

namespace Movid.Schedule.World

variable {V L : Type} {b : Behaviour V L} {w v : World V L} {r x : ModuleRef} {s s₀ : StreamRef} {fuel : Nat}

/-- The stream that the last module of a chain pushes on. -/
def chainStream (s₀ : StreamRef) : List ModuleRef → StreamRef
  | [] => s₀
  | j :: _ => ⟨j, 0⟩

/-- `Justify` modules, the last one first, each on the output of the one before. -/
def Chain (w : World V L) (s₀ : StreamRef) : List ModuleRef → Prop
  | [] => True
  | j :: rest => w.kindOf j = some .justify ∧ w.input j = some (chainStream s₀ rest) ∧ w.Chain s₀ rest

theorem mem_relays_of_kind (known : w.kindOf r = some .justify) (i : Nat) : (⟨r, i⟩ : StreamRef) ∈ w.relays := by
  obtain ⟨ports, found, kind⟩ := Option.map_eq_some_iff.mp known
  exact ⟨ports, found, kind⟩

theorem Chain.congr (frame : v.frame = w.frame) {chain : List ModuleRef} (h : w.Chain s₀ chain) :
    v.Chain s₀ chain := by
  induction chain with
  | nil => trivial
  | cons j rest ih =>
    obtain ⟨known, slot, tail⟩ := h
    refine ⟨?_, ?_, ih tail⟩
    · rwa [kindOf, frame]
    · rwa [input_eq_frame, frame, ← input_eq_frame]

theorem Chain.member {chain : List ModuleRef} (h : w.Chain s₀ chain) (member : x ∈ chain) :
    w.kindOf x = some .justify ∧ ∃ before, (x :: before) <:+ chain ∧ w.input x = some (chainStream s₀ before) := by
  induction chain with
  | nil => cases member
  | cons j rest ih =>
    obtain ⟨known, slot, tail⟩ := h
    rcases List.mem_cons.mp member with rfl | inside
    · exact ⟨known, rest, List.suffix_refl _, slot⟩
    · obtain ⟨kind, before, part, slot'⟩ := ih tail inside
      exact ⟨kind, before, part.trans (List.suffix_cons ..), slot'⟩

theorem Chain.nodup (own : s₀ ∉ w.relays) {chain : List ModuleRef} (h : w.Chain s₀ chain) : chain.Nodup := by
  induction chain with
  | nil => exact List.nodup_nil
  | cons j rest ih =>
    obtain ⟨_, slot, tail⟩ := h
    have distinct := ih tail
    refine List.nodup_cons.mpr ⟨fun inside => ?_, distinct⟩
    obtain ⟨_, before, part, slot'⟩ := tail.member inside
    have same : chainStream s₀ rest = chainStream s₀ before := Option.some.inj (slot.symm.trans slot')
    cases rest with
    | nil => cases inside
    | cons k rest =>
      cases before with
      | nil =>
        have root : s₀ = ⟨k, 0⟩ := same.symm
        exact own (root ▸ mem_relays_of_kind tail.1 0)
      | cons k' before =>
        obtain rfl : k = k' := congrArg StreamRef.owner same
        obtain ⟨later, whole⟩ := part
        rw [← whole] at distinct
        cases later with
        | nil =>
          cases whole
          simp at distinct
        | cons k'' later =>
          cases whole
          simp at distinct

theorem Ok.lt_next_of_kind (ok : w.Ok) {kind : Kind} (known : w.kindOf r = some kind) : r < w.net.next := by
  by_contra beyond
  have gone := ok.wired.fresh r (Nat.le_of_not_lt beyond)
  simp [kindOf, frame, gone] at known

theorem Chain.length_le (ok : w.Ok) (own : s₀ ∉ w.relays) {chain : List ModuleRef} (h : w.Chain s₀ chain) :
    chain.length ≤ w.net.next := by
  have inside : chain ⊆ List.range w.net.next := fun j member =>
    List.mem_range.mpr (ok.lt_next_of_kind (h.member member).1)
  simpa using (List.subperm_of_subset (h.nodup own) inside).length_le

/-! ### A push, an update and a poll return -/

theorem Ok.live_of_observer (ok : w.Ok) (member : r ∈ w.net.observers s) (live : w.net.shape s.owner ≠ none) :
    ∃ kind, w.kindOf r = some kind := by
  have used := ok.slotCount_pos member live
  cases found : w.net.modules r with
  | none => simp [Net.slotCount_of_none found] at used
  | some m => exact ⟨m.state.kind, by simp [kindOf, frame, found]⟩

theorem Effect.live {E : Set ModuleRef} {S : Set StreamRef} (effect : Effect E S w v)
    (live : w.net.shape r ≠ none) : v.net.shape r ≠ none := by
  rwa [shape_eq_frame, effect.frame, ← shape_eq_frame]

/-- What a chain needs to know of the world is left alone by pushes. -/
structure Rooted (w : World V L) (s₀ : StreamRef) (chain : List ModuleRef) : Prop where
  ok : w.Ok
  own : s₀ ∉ w.relays
  live : w.net.shape s₀.owner ≠ none
  chain : w.Chain s₀ chain

theorem Effect.rooted {E : Set ModuleRef} {S : Set StreamRef} (effect : Effect E S w v) {chain : List ModuleRef}
    (rooted : w.Rooted s₀ chain) : v.Rooted s₀ chain where
  ok := effect.ok rooted.ok
  own := effect.relays ▸ rooted.own
  live := effect.live rooted.live
  chain := rooted.chain.congr effect.frame

theorem Rooted.stream_live {chain : List ModuleRef} (rooted : w.Rooted s₀ chain) :
    w.net.shape (chainStream s₀ chain).owner ≠ none := by
  cases chain with
  | nil => exact rooted.live
  | cons j rest => exact shape_ne_none_of_relay (mem_relays_of_kind rooted.chain.1 0)

section Observers

variable {push : World V L → StreamRef → Option V → Option (World V L)} {chain : List ModuleRef} {n : Nat}

theorem notifyData_returns
    (returns : ∀ z r value, z.Rooted s₀ (r :: chain) → z.net.next = n → ∃ v, push z ⟨r, 0⟩ value = some v)
    (rooted : w.Rooted s₀ chain) (next : w.net.next = n) (member : r ∈ w.net.observers (chainStream s₀ chain)) :
    ∃ v, notifyData b push (chainStream s₀ chain) w r = some v := by
  obtain ⟨kind, known⟩ := rooted.ok.live_of_observer member rooted.stream_live
  have justify (relay : kind.notifyData = .relay) : w.Rooted s₀ (r :: chain) := by
    have same := kind_eq_justify relay
    subst same
    exact { rooted with
      chain := ⟨known, rooted.ok.input_of_observer known rfl member rooted.stream_live, rooted.chain⟩ }
  rw [kindOf_eq] at known
  obtain ⟨job, found, same⟩ := Option.map_eq_some_iff.mp known
  have received := updateJob_effect_quiet w r
    (f := fun j => { j with rest := b.receive job.kind job.rest (w.data (chainStream s₀ chain)) })
    (fun _ => rfl) (fun _ => rfl) ∅
  unfold notifyData
  rw [found, Option.bind_some]
  simp only []
  split
  · exact ⟨_, rfl⟩
  · exact ⟨_, rfl⟩
  · rename_i relay
    exact returns _ r _ (received.rooted (justify (same ▸ relay))) next
  · exact ⟨_, rfl⟩

theorem observers_return
    (nested : ∀ w v t value, t ∈ w.relays → push w t value = some v → Effect ∅ w.relays w v)
    (returns : ∀ z r value, z.Rooted s₀ (r :: chain) → z.net.next = n → ∃ v, push z ⟨r, 0⟩ value = some v)
    {rs : List ModuleRef} (rooted : w.Rooted s₀ chain) (next : w.net.next = n)
    (members : ∀ r ∈ rs, r ∈ w.net.observers (chainStream s₀ chain))
    (now : w.pushed (chainStream s₀ chain) = true) :
    ∃ v, rs.foldlM (notifyData b push (chainStream s₀ chain)) w = some v := by
  induction rs generalizing w with
  | nil => exact ⟨w, rfl⟩
  | cons r rs ih =>
    have member := members r List.mem_cons_self
    obtain ⟨u, first⟩ := notifyData_returns (b := b) returns rooted next member
    have step := notifyData_effect nested first member now
    obtain ⟨v, rest⟩ := ih (step.rooted rooted) (step.next.trans next)
      (fun x inside => step.observers ▸ members x (List.mem_cons_of_mem _ inside)) (step.pushed _ now)
    exact ⟨v, by rw [List.foldlM_cons, first]; exact rest⟩

end Observers

theorem push_returns (fuel : Nat) {chain : List ModuleRef} (rooted : w.Rooted s₀ chain)
    (enough : w.net.next < fuel + chain.length) (value : Option V) :
    ∃ v, push b fuel w (chainStream s₀ chain) value = some v := by
  induction fuel generalizing w chain value with
  | zero =>
    rw [Nat.zero_add] at enough
    exact absurd enough (Nat.not_lt.mpr (rooted.chain.length_le rooted.ok rooted.own))
  | succ fuel ih =>
    have stored := store_effect w (chainStream s₀ chain) value (S := {chainStream s₀ chain} ∪ w.relays) (Or.inl rfl)
    have nested (w v : World V L) (t : StreamRef) (value : Option V) (inside : t ∈ w.relays)
        (call : push b fuel w t value = some v) : Effect ∅ w.relays w v :=
      (push_effect fuel call).mono (Set.Subset.refl _)
        (Set.union_subset (Set.singleton_subset_iff.mpr inside) (Set.Subset.refl _))
    refine observers_return (n := w.net.next) nested (fun z r value longer same => ?_) (stored.rooted rooted) rfl
      (fun r member => member) (store_pushed w _ value)
    refine ih (show z.Rooted s₀ (r :: chain) from longer) ?_ value
    rw [same, List.length_cons, Nat.add_comm chain.length, ← Nat.add_assoc]
    exact enough

theorem performs_return (acts : List (Action V)) (ok : w.Ok) (live : w.net.shape r ≠ none)
    (own : ∀ idx, (⟨r, idx⟩ : StreamRef) ∉ w.relays) (enough : w.net.next < fuel) :
    ∃ v, acts.foldlM (perform b fuel r) w = some v := by
  induction acts generalizing w with
  | nil => exact ⟨w, rfl⟩
  | cons a acts ih =>
    have first : ∃ u, perform b fuel r w a = some u := by
      cases a with
      | push idx value => exact push_returns fuel (show w.Rooted ⟨r, idx⟩ [] from ⟨ok, own idx, live, trivial⟩) enough value
      | stop => exact ⟨_, rfl⟩
    obtain ⟨u, first⟩ := first
    have step := perform_effect first
    obtain ⟨v, rest⟩ := ih (step.ok ok) (step.live live) (fun idx => step.relays ▸ own idx) (step.next ▸ enough)
    exact ⟨v, by rw [List.foldlM_cons, first]; exact rest⟩

/-- No poll hangs: the number of modules is enough fuel. -/
theorem poll_returns (ok : w.Ok) (r : ModuleRef) (enough : w.net.next < fuel) : ∃ v, w.poll b fuel r = some v := by
  have prepared := prepare_effect w r ∅
  unfold poll
  simp only []
  split
  · rename_i flag
    cases found : (w.prepare r).job r with
    | none => simp [needUpdate, found] at flag
    | some job =>
      have known : (w.prepare r).kindOf r = some job.kind := by rw [kindOf_eq, found]; rfl
      unfold update
      rw [found, Option.bind_some]
      simp only [Option.map_eq_some_iff]
      have before := prepared.trans (consume_effect (w.prepare r) r
        (if job.kind.idle then job.rest else (b.update job.kind job.rest ((w.prepare r).inputData r)).1) ∅)
      by_cases idle : job.kind.idle = true
      · have none : actions b (w.prepare r) r = [] := by simp [actions, found, idle]
        rw [none]
        exact ⟨_, _, rfl, rfl⟩
      · have own (idx : Nat) : (⟨r, idx⟩ : StreamRef) ∉ w.relays := by
          rintro ⟨ports, here, kind⟩
          rw [prepared.kindOf, kindOf, here] at known
          have same : ports.2.2 = job.kind := Option.some.inj known
          rw [← same, kind] at idle
          exact idle rfl
        have live : w.net.shape r ≠ none := by
          rw [prepared.kindOf] at known
          obtain ⟨ports, here, _⟩ := Option.map_eq_some_iff.mp known
          rw [shape_eq_frame, here]
          simp
        obtain ⟨v, done⟩ := performs_return (b := b) (actions b (w.prepare r) r) (before.ok ok)
          (before.live live) (fun idx => before.relays ▸ own idx) (before.next ▸ enough)
        exact ⟨_, v, done, rfl⟩
  · exact ⟨_, rfl⟩

end Movid.Schedule.World
