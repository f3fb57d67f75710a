import Movid.Tracker.History

/-! # Track ids are unique among all trackers and never used again -/

namespace Movid.Tracker

variable {D : Type} {ops : Doubles D} {mtdevMatch : Matching}

structure System.Ok (s : System D) : Prop where
  tracker : ∀ (i : Nat) (t : State D), s.trackers[i]? = some t → t.Ok s.counter
  apart : ∀ (i j : Nat) (t u : State D), i ≠ j → s.trackers[i]? = some t → s.trackers[j]? = some u →
    ∀ x ∈ t.held, x ∉ u.held

theorem System.initial_ok (kinds : List Kind) : (System.initial kinds : System D).Ok := by
  have fresh (i : Nat) (t : State D) (found : (System.initial kinds).trackers[i]? = some t) :
      ∃ kind, t = .initial kind := by
    obtain ⟨kind, _, same⟩ := List.mem_map.mp (List.mem_of_getElem? found)
    exact ⟨kind, same.symm⟩
  constructor
  · intro i t found
    obtain ⟨kind, rfl⟩ := fresh i t found
    exact ⟨List.nodup_nil, by simp [State.held, State.initial, ids], by simp [State.initial], rfl,
      by simp [State.initial], by simp [State.initial], by simp [State.held, State.initial, ids],
      by simp [State.initial]⟩
  · intro i j t u _ found _ x member
    obtain ⟨kind, rfl⟩ := fresh i t found
    simp [State.held, State.initial, ids] at member

theorem System.step_cases {s s' : System D} {event : Event D} (h : s.step ops mtdevMatch event = some s') :
    s' = s ∨ ∃ t t' counter, s.trackers[event.tracker]? = some t ∧
      t.step ops mtdevMatch s.counter event = some (t', counter) ∧
      s' = ⟨counter, s.trackers.set event.tracker t'⟩ := by
  unfold System.step at h
  split at h
  · cases h
    exact Or.inl rfl
  · rename_i t found
    obtain ⟨⟨t', counter⟩, now, same⟩ := Option.map_eq_some_iff.mp h
    exact Or.inr ⟨t, t', counter, found, now, same.symm⟩

theorem System.Ok.set {s : System D} (ok : s.Ok) {i : Nat} {t t' : State D} {counter : Int}
    (found : s.trackers[i]? = some t) (next : t.Next t' s.counter counter) :
    (⟨counter, s.trackers.set i t'⟩ : System D).Ok := by
  obtain ⟨inside, _⟩ := List.getElem?_eq_some_iff.mp found
  have here (u : State D) (now : (s.trackers.set i t')[i]? = some u) : u = t' := by
    rw [List.getElem?_set_self inside] at now
    exact (Option.some.inj now).symm
  have elsewhere (j : Nat) (other : i ≠ j) : (s.trackers.set i t')[j]? = s.trackers[j]? :=
    List.getElem?_set_ne other
  -- The ids that are new to the tracker are above the counter that bounds the others.
  have disjoint (j : Nat) (u : State D) (other : i ≠ j) (found' : s.trackers[j]? = some u) :
      ∀ x ∈ t'.held, x ∉ u.held := by
    intro x member inside
    rcases next.held x member with before | drawn
    · exact ok.apart i j t u other found found' x before inside
    · have := (ok.tracker j u found').bounded x inside
      omega
  constructor
  · intro j u now
    by_cases same : i = j
    · subst same
      rw [here u now]
      exact next.ok
    · rw [elsewhere j same] at now
      exact (ok.tracker j u now).mono next.grows
  · intro j k u v other foundj foundk x member inside
    by_cases first : i = j
    · subst first
      rw [here u foundj] at member
      rw [elsewhere k other] at foundk
      exact disjoint k v other foundk x member inside
    · rw [elsewhere j first] at foundj
      by_cases second : i = k
      · subst second
        rw [here v foundk] at inside
        exact disjoint j u first foundj x inside member
      · rw [elsewhere k second] at foundk
        exact ok.apart j k u v other foundj foundk x member inside

theorem System.Ok.step (injective : mtdevMatch.Injective) {s s' : System D} {event : Event D} (ok : s.Ok)
    (h : s.step ops mtdevMatch event = some s') : s'.Ok := by
  rcases System.step_cases h with rfl | ⟨t, t', counter, found, now, rfl⟩
  · exact ok
  · exact ok.set found ((ok.tracker _ t found).step injective now)

theorem System.Ok.attempt (injective : mtdevMatch.Injective) {s s' : System D} {events : List (Event D)}
    (ok : s.Ok) (h : Machine.attempt (System.step ops mtdevMatch) s events = some s') : s'.Ok :=
  Machine.attempt_invariant (I := System.Ok) (fun _ _ _ now ok => ok.step injective now) ok h

theorem System.reached_ok (injective : mtdevMatch.Injective) {kinds : List Kind} {events : List (Event D)}
    {s : System D} (h : Machine.attempt (System.step ops mtdevMatch) (.initial kinds) events = some s) : s.Ok :=
  (System.initial_ok kinds).attempt injective h

/-- What each step of tracker `i` keeps holds of it throughout a run. -/
theorem System.reached_tracker (injective : mtdevMatch.Injective) {i : Nat} {I : State D → Prop} (initial : ∀ kind, I (.initial kind))
    {events : List (Event D)} (step : ∀ (t t' : State D) counter counter', ∀ event ∈ events, event.tracker = i →
      t.Ok counter → 0 ≤ counter → t.step ops mtdevMatch counter event = some (t', counter') → I t → I t')
    {kinds : List Kind} {s : System D} (reached : Machine.attempt (System.step ops mtdevMatch) (.initial kinds) events = some s)
    {t : State D} (found : s.trackers[i]? = some t) : I t := by
  have all : s.Ok ∧ 0 ≤ s.counter ∧ ∀ t, s.trackers[i]? = some t → I t := by
    apply Machine.attempt_invariant_of_mem (I := fun s => s.Ok ∧ 0 ≤ s.counter ∧ ∀ t, s.trackers[i]? = some t → I t) ?_ ?_ reached
    · rintro s event member s' now ⟨ok, drawn, kept⟩
      refine ⟨ok.step injective now, ?_⟩
      rcases System.step_cases now with rfl | ⟨t, t', counter, here, stepped, rfl⟩
      · exact ⟨drawn, kept⟩
      · have next := (ok.tracker _ t here).step injective stepped
        refine ⟨drawn.trans next.grows, fun u after => ?_⟩
        by_cases same : event.tracker = i
        · subst same
          obtain ⟨inside, _⟩ := List.getElem?_eq_some_iff.mp here
          rw [List.getElem?_set_self inside] at after
          cases after
          exact step t _ _ _ event member rfl (ok.tracker _ t here) drawn stepped (kept t here)
        · rw [List.getElem?_set_ne same] at after
          exact kept u after
    · refine ⟨System.initial_ok kinds, le_rfl, fun u here => ?_⟩
      obtain ⟨kind, _, rfl⟩ := List.mem_map.mp (List.mem_of_getElem? here)
      exact initial kind
  exact all.2.2 t found

/-! ### Ids that are gone -/

/-- Tracker `i` has `x` in its list, or `x` was drawn once and nobody holds it. -/
def System.HeldOrGone (i : Nat) (x : Int) (s : System D) : Prop :=
  (∃ t, s.trackers[i]? = some t ∧ x ∈ ids t.oldBlobs) ∨
    (x ≤ s.counter ∧ ∀ t ∈ s.trackers, x ∉ t.held)

theorem System.HeldOrGone.step (injective : mtdevMatch.Injective) {i : Nat} {x : Int} {s s' : System D}
    {event : Event D} (ok : s.Ok) (before : s.HeldOrGone i x) (h : s.step ops mtdevMatch event = some s') :
    s'.HeldOrGone i x := by
  rcases System.step_cases h with rfl | ⟨t, t', counter, found, now, rfl⟩
  · exact before
  have next := (ok.tracker _ t found).step injective now
  obtain ⟨inside, _⟩ := List.getElem?_eq_some_iff.mp found
  rcases before with ⟨u, foundi, member⟩ | ⟨drawn, free⟩
  · by_cases same : event.tracker = i
    · subst same
      obtain rfl : u = t := Option.some.inj (foundi.symm.trans found)
      rcases next.list with list | idle
      · exact Or.inl ⟨t', List.getElem?_set_self inside, list ▸ member⟩
      · by_cases still : x ∈ ids t'.oldBlobs
        · exact Or.inl ⟨t', List.getElem?_set_self inside, still⟩
        · have bound := (ok.tracker _ u found).bounded x (List.mem_append_left _ member)
          refine Or.inr ⟨bound.trans next.grows, fun v present => ?_⟩
          obtain ⟨j, foundj⟩ := List.mem_iff_getElem?.mp present
          by_cases here : event.tracker = j
          · subst here
            rw [List.getElem?_set_self inside] at foundj
            cases foundj
            simpa [State.held, idle] using still
          · rw [List.getElem?_set_ne here] at foundj
            exact ok.apart _ j u v here found foundj x (List.mem_append_left _ member)
    · exact Or.inl ⟨u, by rw [List.getElem?_set_ne same]; exact foundi, member⟩
  · refine Or.inr ⟨drawn.trans next.grows, fun v present => ?_⟩
    rcases List.mem_or_eq_of_mem_set present with old | rfl
    · exact free v old
    · intro member
      rcases next.held x member with before | fresh
      · exact free t (List.mem_of_getElem? found) before
      · omega

theorem System.HeldOrGone.attempt (injective : mtdevMatch.Injective) {i : Nat} {x : Int} {s s' : System D}
    {events : List (Event D)} (ok : s.Ok) (before : s.HeldOrGone i x)
    (h : Machine.attempt (System.step ops mtdevMatch) s events = some s') : s'.HeldOrGone i x :=
  (Machine.attempt_invariant (I := fun s => s.Ok ∧ s.HeldOrGone i x)
    (fun _ _ _ now both => ⟨both.1.step injective now, both.2.step injective both.1 now⟩) ⟨ok, before⟩ h).2

/-- Once it is gone from the list of its tracker, an id is in no list any more. -/
theorem System.gone_forever (injective : mtdevMatch.Injective) {i : Nat} {x : Int} {s₁ s₂ s₃ : System D}
    {second third : List (Event D)} {t₁ t₂ : State D} (ok : s₁.Ok) (held₁ : s₁.trackers[i]? = some t₁)
    (member : x ∈ ids t₁.oldBlobs)
    (later : Machine.attempt (System.step ops mtdevMatch) s₁ second = some s₂)
    (held₂ : s₂.trackers[i]? = some t₂) (gone : x ∉ ids t₂.oldBlobs)
    (last : Machine.attempt (System.step ops mtdevMatch) s₂ third = some s₃) :
    ∀ t ∈ s₃.trackers, x ∉ ids t.oldBlobs := by
  have ok₂ := ok.attempt injective later
  have free : x ≤ s₂.counter ∧ ∀ t ∈ s₂.trackers, x ∉ t.held := by
    rcases System.HeldOrGone.attempt injective ok (Or.inl ⟨t₁, held₁, member⟩) later with ⟨t, found, present⟩ | free
    · rw [held₂] at found
      cases found
      exact absurd present gone
    · exact free
  -- Nobody holds `x` in `s₂`, so it is gone whatever tracker one asks.
  intro t present inside
  rcases System.HeldOrGone.attempt injective (i := s₃.trackers.length) ok₂ (Or.inr free) last with
    ⟨u, beyond, _⟩ | ⟨_, none⟩
  · simp at beyond
  · exact none t present (List.mem_append_left _ inside)

/-! ### The lists of all trackers -/

theorem System.Ok.ids_nodup {s : System D} (ok : s.Ok) : (s.trackers.flatMap fun t => ids t.oldBlobs).Nodup := by
  rw [List.nodup_flatMap]
  constructor
  · intro t member
    obtain ⟨i, found⟩ := List.mem_iff_getElem?.mp member
    exact (ok.tracker i t found).nodup
  · rw [List.pairwise_iff_getElem]
    intro i j insidei insidej earlier x left right
    exact ok.apart i j _ _ (Nat.ne_of_lt earlier) (List.getElem?_eq_getElem insidei)
      (List.getElem?_eq_getElem insidej) x (List.mem_append_left _ left) (List.mem_append_left _ right)

/-- In every interleaving of updates: the ids in all lists are distinct; the list of a tracker
is the one its last update left, and an update puts each blob of its frame there once, beside
blobs of the list before that keep an id of their own; an id that a tracker has dropped never
returns. -/
theorem track_ids_unique (injective : mtdevMatch.Injective) (kinds : List Kind) (events : List (Event D))
    (s : System D)
    (reached : Machine.attempt (System.step ops mtdevMatch) (.initial kinds) events = some s) :
    (s.trackers.flatMap fun t => ids t.oldBlobs).Nodup ∧
    (∀ t ∈ s.trackers, t.oldBlobs = listBefore t.reports t.reports.length ∧
      ∀ (k : Nat) (r : Report D), t.reports[k]? = some r →
        ∃ found lost, r.list = found ++ lost ∧ List.Forall₂ Carries r.frame found ∧
          lost.Sublist ((listBefore t.reports k).map .older) ∧ ∀ b ∈ lost, b.blobId ∉ ids found) ∧
    (∀ (first second third : List (Event D)) (s₁ s₂ : System D), events = first ++ (second ++ third) →
      Machine.attempt (System.step ops mtdevMatch) (.initial kinds) first = some s₁ →
      Machine.attempt (System.step ops mtdevMatch) s₁ second = some s₂ →
      ∀ (i : Nat) (t₁ t₂ : State D) (x : Int), s₁.trackers[i]? = some t₁ → s₂.trackers[i]? = some t₂ →
        x ∈ ids t₁.oldBlobs → x ∉ ids t₂.oldBlobs → ∀ t ∈ s.trackers, x ∉ ids t.oldBlobs) := by
  have ok := System.reached_ok injective reached
  refine ⟨ok.ids_nodup, fun t member => ?_, ?_⟩
  · obtain ⟨i, found⟩ := List.mem_iff_getElem?.mp member
    have tracker := ok.tracker i t found
    refine ⟨tracker.last, fun k r recorded => ?_⟩
    obtain ⟨found, lost, list, carries, ids', sub, apart⟩ := (tracker.report k r recorded).list_split
    exact ⟨found, lost, list, carries, sub, ids' ▸ apart⟩
  · rintro first second third s₁ s₂ rfl now later i t₁ t₂ x held₁ held₂ member gone
    have last : Machine.attempt (System.step ops mtdevMatch) s₂ third = some s := by
      rw [Machine.attempt_append, now, Option.bind_some, Machine.attempt_append, later, Option.bind_some] at reached
      exact reached
    exact System.gone_forever injective (System.reached_ok injective now) held₁ member later held₂ gone last

/-- Integer coordinates and squared distances, to run the trackers on examples. -/
def Doubles.integers : Doubles Int where
  add := (· + ·)
  sub := (· - ·)
  mul := (· * ·)
  div := Int.tdiv
  sqrt := id
  lt := fun a b => decide (a < b)
  ofInt := id
  toInt := id
  pi := 3

/-- A matching that finds no old blob, as `mtdev_match` does while there is none. -/
def matchNothing : Matching := fun _ new _ => List.replicate new (-1)

theorem matchNothing_injective : matchNothing.Injective := by
  intro distances new old _ _
  apply List.pairwise_of_forall_mem_list
  intro j member k _ valid
  obtain ⟨_, rfl⟩ := List.mem_replicate.mp member
  exact absurd valid (by decide)

def Settings.default : Settings Int := { maxAge := 10, minAge := 3, maxRotationSpeed := 46, maxDistance := 1 }

def touch (x y : Int) : Detection Int :=
  { implements := "pos".toList, x, y, angle := none, fiducialId := none }

def overlap : List (Event Int) :=
  [.begin 0 .default [touch 1 1, touch 5 5], .begin 1 .default [touch 2 2], .track 0, .track 1, .track 0,
    .finish 0, .finish 1]

theorem track_ids_unique_overlap :
    (Machine.attempt (System.step Doubles.integers matchNothing) (.initial [.greedy, .munkres]) overlap).map
        (fun s => s.trackers.map fun t => ids t.oldBlobs) = some [[1, 3], [2]] ∧
      ∀ s, Machine.attempt (System.step Doubles.integers matchNothing) (.initial [.greedy, .munkres]) overlap =
        some s → (s.trackers.flatMap fun t => ids t.oldBlobs).Nodup :=
  ⟨by decide, fun s reached => (track_ids_unique matchNothing_injective _ _ s reached).1⟩

end Movid.Tracker
