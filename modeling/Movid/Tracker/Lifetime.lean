import Movid.Tracker.Identity

/-!
# How long a track is reported

The age of one track follows a small automaton of its own: while the track is matched its age
rises to `min_age` and stays there, once it is lost the age rises further until the window ends.
-/

namespace Movid.Tracker

variable {D : Type} {ops : Doubles D} {mtdevMatch : Matching}

/-- The age that the track has in a list, if it is there. -/
def ageIn (blobs : List (Blob D)) (x : Int) : Option Int := (blobs.find? (·.blobId == x)).map (·.age)

/-- The age of a track after a frame, from its age before it and whether it was matched. -/
def nextAge (settings : Settings D) (hit : Bool) (age : Option Int) : Option Int :=
  match age, hit with
  | none, true => some 0
  | none, false => none
  | some a, true => some (settings.renew (a + 1))
  | some a, false => if settings.inWindow (a + 1) then some (a + 1) else none

theorem ageIn_of_mem {blobs : List (Blob D)} (nodup : (ids blobs).Nodup) {b : Blob D} (member : b ∈ blobs) :
    ageIn blobs b.blobId = some b.age := by
  unfold ageIn
  rw [find?_of_mem nodup member]
  rfl

theorem ageIn_of_not_mem {blobs : List (Blob D)} {x : Int} (absent : x ∉ ids blobs) : ageIn blobs x = none := by
  unfold ageIn
  rw [find?_of_not_mem absent]
  rfl

theorem ageIn_eq_some {blobs : List (Blob D)} (nodup : (ids blobs).Nodup) {x a : Int} :
    ageIn blobs x = some a ↔ ∃ b ∈ blobs, b.blobId = x ∧ b.age = a := by
  constructor
  · intro h
    obtain ⟨b, found, rfl⟩ := Option.map_eq_some_iff.mp h
    exact ⟨b, List.mem_of_find?_eq_some found, by simpa using List.find?_some found, rfl⟩
  · rintro ⟨b, member, rfl, rfl⟩
    exact ageIn_of_mem nodup member

theorem mem_ids_iff_ageIn {blobs : List (Blob D)} (nodup : (ids blobs).Nodup) {x : Int} :
    x ∈ ids blobs ↔ ∃ a, ageIn blobs x = some a := by
  constructor
  · intro member
    obtain ⟨b, inside, rfl⟩ := mem_ids.mp member
    exact ⟨b.age, ageIn_of_mem nodup inside⟩
  · rintro ⟨a, h⟩
    obtain ⟨b, inside, same, _⟩ := (ageIn_eq_some nodup).mp h
    exact mem_ids.mpr ⟨b, inside, same⟩

theorem Report.Ok.ageIn_matched {kind : Kind} {before : List (Blob D)} {r : Report D} (ok : r.Ok kind before)
    (nodup : (ids before).Nodup) {x : Int} (calm : ∀ b ∈ r.detected, b.blobId = x → isVolatile b.implements = some false)
    (hit : x ∈ ids r.detected) : ageIn r.list x = nextAge r.settings true (ageIn before x) := by
  obtain ⟨new, angled, list⟩ := ok.list
  have idsNew : ids new = ids r.detected := ids_of_forall₂ (fun b b' same => by rw [same]) angled
  obtain ⟨b, member, rfl⟩ := mem_ids.mp (idsNew ▸ hit)
  have listed : renewed r.settings r.old b ∈ r.list := by
    rw [list]
    exact List.mem_append_left _ (List.mem_map_of_mem member)
  have age := ageIn_of_mem (ok.list_nodup nodup) listed
  rw [renewed_blobId] at age
  rw [age]
  by_cases known : b.blobId ∈ ids before
  · obtain ⟨o, inside, same⟩ := mem_ids.mp known
    have older : o.older ∈ r.old := by rw [ok.old]; exact List.mem_map_of_mem inside
    have found : r.old.find? (·.blobId == b.blobId) = some o.older := by
      rw [← same]
      exact find?_of_mem (by rw [ok.old, ids_older]; exact nodup) older
    rw [← same, ageIn_of_mem nodup inside]
    simp only [renewed, found]
    rfl
  · have unknown : b.blobId ∉ ids r.old := by rw [ok.old, ids_older]; exact known
    obtain ⟨d, origin, same⟩ := Lists.forall₂_mem_right angled member
    have young : b.age = 0 := by
      have zero := ok.young d origin (calm d origin (by rw [same]))
      rw [same]
      exact zero
    rw [ageIn_of_not_mem known]
    simp only [renewed, find?_of_not_mem unknown, nextAge, young]

/-- A blob that is not matched is in the list if its old blob is in the window. -/
theorem Report.Ok.mem_list_of_missed {kind : Kind} {before : List (Blob D)} {r : Report D} (ok : r.Ok kind before) {b : Blob D}
    (missed : b.blobId ∉ ids r.detected) : b ∈ r.list ↔ b ∈ r.old ∧ r.settings.inWindow b.age = true := by
  obtain ⟨new, angled, list⟩ := ok.list
  have idsNew : ids new = ids r.detected := ids_of_forall₂ (fun b b' same => by rw [same]) angled
  rw [list, List.mem_append, lost, List.mem_filter, idsNew, decide_eq_true missed, Bool.true_and]
  refine or_iff_right fun found => missed ?_
  obtain ⟨c, inside, rfl⟩ := List.mem_map.mp found
  rw [renewed_blobId, ← idsNew]
  exact mem_ids.mpr ⟨c, inside, rfl⟩

theorem Report.Ok.ageIn_missed {kind : Kind} {before : List (Blob D)} {r : Report D} (ok : r.Ok kind before)
    (nodup : (ids before).Nodup) {x : Int} (missed : x ∉ ids r.detected) : ageIn r.list x = nextAge r.settings false (ageIn before x) := by
  by_cases known : x ∈ ids before
  · obtain ⟨o, inside, rfl⟩ := mem_ids.mp known
    have older : o.older ∈ r.old := by rw [ok.old]; exact List.mem_map_of_mem inside
    have oldNodup : (ids r.old).Nodup := by rw [ok.old, ids_older]; exact nodup
    rw [ageIn_of_mem nodup inside]
    cases window : r.settings.inWindow (o.age + 1) with
    | true =>
      have listed : o.older ∈ r.list := (ok.mem_list_of_missed (b := o.older) missed).mpr ⟨older, window⟩
      simpa [nextAge, window] using ageIn_of_mem (ok.list_nodup nodup) listed
    | false =>
      simp only [nextAge, window, Bool.false_eq_true, if_false]
      apply ageIn_of_not_mem
      intro member
      obtain ⟨b, listed, same⟩ := mem_ids.mp member
      obtain ⟨origin, inWindow⟩ := (ok.mem_list_of_missed (same ▸ missed)).mp listed
      obtain rfl : b = o.older := List.inj_on_of_nodup_map oldNodup origin older same
      exact Bool.false_ne_true (window.symm.trans inWindow)
  · rw [ageIn_of_not_mem known]
    apply ageIn_of_not_mem
    intro member
    rcases ok.ids_list x member with found | before
    · exact missed found
    · exact known before

theorem Report.Ok.ageIn_list {kind : Kind} {before : List (Blob D)} {r : Report D} (ok : r.Ok kind before)
    (nodup : (ids before).Nodup) {x : Int}
    (calm : ∀ b ∈ r.detected, b.blobId = x → isVolatile b.implements = some false) :
    ageIn r.list x = nextAge r.settings (decide (x ∈ ids r.detected)) (ageIn before x) := by
  by_cases hit : x ∈ ids r.detected
  · rw [decide_eq_true hit]
    exact ok.ageIn_matched nodup calm hit
  · rw [decide_eq_false hit]
    exact ok.ageIn_missed nodup hit

theorem Report.Ok.mem_pushed {kind : Kind} {before : List (Blob D)} {r : Report D} (ok : r.Ok kind before)
    (nodup : (ids before).Nodup) {x : Int} :
    x ∈ ids r.pushed ↔ ∃ a, ageIn r.list x = some a ∧ r.settings.inWindow a = true := by
  have listNodup := ok.list_nodup nodup
  rw [ok.pushed]
  constructor
  · intro member
    obtain ⟨b, inside, same⟩ := mem_ids.mp member
    obtain ⟨listed, window⟩ := List.mem_filter.mp inside
    exact ⟨b.age, same ▸ ageIn_of_mem listNodup listed, window⟩
  · rintro ⟨a, age, window⟩
    obtain ⟨b, listed, same, rfl⟩ := (ageIn_eq_some listNodup).mp age
    exact mem_ids.mpr ⟨b, List.mem_filter.mpr ⟨listed, window⟩, same⟩

/-! ### Runs -/

/-- In the given update some new blob gets the id. -/
def Matched (reports : List (Report D)) (x : Int) (t : Nat) : Prop :=
  ∃ r, reports[t]? = some r ∧ x ∈ ids r.detected

instance (reports : List (Report D)) (x : Int) (t : Nat) : Decidable (Matched reports x t) :=
  decidable_of_iff (x ∈ (reports[t]?.map fun r => ids r.detected).getD [])
    (by cases h : reports[t]? <;> simp [Matched, h])

/-- The track starts here: the id is given to a new blob and no old blob has it. -/
def Born (reports : List (Report D)) (x : Int) (t : Nat) : Prop :=
  Matched reports x t ∧ x ∉ ids (listBefore reports t)

/-- A track of one tracker: its blobs are never volatile, and the window does not change. -/
structure Track (reports : List (Report D)) (minAge maxAge : Int) (x : Int) : Prop where
  window : 0 ≤ minAge ∧ minAge < maxAge
  settings : ∀ r ∈ reports, r.settings.minAge = minAge ∧ r.settings.maxAge = maxAge
  calm : ∀ r ∈ reports, ∀ b ∈ r.detected, b.blobId = x → isVolatile b.implements = some false

section Track

variable {counter minAge maxAge x : Int} {t : State D}

theorem Track.inWindow (track : Track t.reports minAge maxAge x) {k : Nat} {r : Report D}
    (found : t.reports[k]? = some r) (a : Int) :
    r.settings.inWindow a = true ↔ minAge ≤ a ∧ a ≤ maxAge := by
  obtain ⟨low, high⟩ := track.settings r (List.mem_of_getElem? found)
  simp only [Settings.inWindow, low, high, Bool.and_eq_true, decide_eq_true_eq]
  omega

theorem Track.age_next (track : Track t.reports minAge maxAge x) (ok : t.Ok counter) {k : Nat} {r : Report D}
    (found : t.reports[k]? = some r) :
    ageIn (listBefore t.reports (k + 1)) x =
      nextAge r.settings (decide (x ∈ ids r.detected)) (ageIn (listBefore t.reports k) x) := by
  rw [listBefore_succ found]
  exact (ok.report k r found).ageIn_list (ok.listBefore_nodup k) (track.calm r (List.mem_of_getElem? found))

theorem Track.age_matched (track : Track t.reports minAge maxAge x) (ok : t.Ok counter) {t₀ k : Nat}
    (born : Born t.reports x t₀) (matched : ∀ j ≤ k, Matched t.reports x (t₀ + j)) :
    ageIn (listBefore t.reports (t₀ + k + 1)) x = some (min (k : Int) minAge) := by
  have window := track.window
  induction k with
  | zero =>
    obtain ⟨r, found, hit⟩ := born.1
    rw [Nat.add_zero, track.age_next ok found, decide_eq_true hit, ageIn_of_not_mem born.2]
    simp only [nextAge]
    congr 1
    omega
  | succ k ih =>
    obtain ⟨r, found, hit⟩ := matched (k + 1) (Nat.le_refl _)
    have before := ih fun j bound => matched j (Nat.le_succ_of_le bound)
    rw [track.age_next ok found, decide_eq_true hit, ← Nat.add_assoc, before]
    have inside := track.inWindow found (min (k : Int) minAge + 1)
    obtain ⟨low, _⟩ := track.settings r (List.mem_of_getElem? found)
    simp only [nextAge, Settings.renew, low]
    congr 1
    split
    · rename_i yes
      have := inside.mp yes
      omega
    · rename_i no
      have := mt inside.mpr no
      omega

theorem Track.age_missed (track : Track t.reports minAge maxAge x) (ok : t.Ok counter) {k : Nat}
    (bound : k < t.reports.length) (missed : ¬Matched t.reports x k) :
    ageIn (listBefore t.reports (k + 1)) x = (ageIn (listBefore t.reports k) x).bind fun a =>
      if minAge ≤ a + 1 ∧ a + 1 ≤ maxAge then some (a + 1) else none := by
  have found := List.getElem?_eq_getElem bound
  have unseen : x ∉ ids t.reports[k].detected := fun hit => missed ⟨_, found, hit⟩
  rw [track.age_next ok found, decide_eq_false unseen]
  cases ageIn (listBefore t.reports k) x with
  | none => rfl
  | some a => simp only [nextAge, track.inWindow found, Option.bind_some]

theorem Track.age_lost (track : Track t.reports minAge maxAge x) (ok : t.Ok counter) {t₁ j : Nat} {a : Int}
    (last : ageIn (listBefore t.reports (t₁ + 1)) x = some a) (first : 1 ≤ j)
    (bound : t₁ + j < t.reports.length) (unmatched : ∀ i, 1 ≤ i → i ≤ j → ¬Matched t.reports x (t₁ + i)) :
    ageIn (listBefore t.reports (t₁ + j + 1)) x =
      if minAge ≤ a + 1 ∧ (j : Int) ≤ maxAge - a then some (a + j) else none := by
  induction j, first using Nat.le_induction with
  | base =>
    rw [track.age_missed ok bound (unmatched 1 (Nat.le_refl _) (Nat.le_refl _)), last, Option.bind_some]
    congr 1
    apply propext
    omega
  | succ j first ih =>
    have before := ih (by omega) fun i start later => unmatched i start (by omega)
    rw [track.age_missed ok bound (unmatched (j + 1) (by omega) (Nat.le_refl _)), ← Nat.add_assoc, before]
    by_cases on : minAge ≤ a + 1 ∧ (j : Int) ≤ maxAge - a
    · rw [if_pos on, Option.bind_some]
      push_cast
      by_cases still : (j : Int) + 1 ≤ maxAge - a
      · rw [if_pos (by omega), if_pos (by omega), Int.add_assoc]
      · rw [if_neg (by omega), if_neg (by omega)]
    · rw [if_neg on, if_neg (by push_cast; omega)]
      rfl

theorem Track.age_hit (track : Track t.reports minAge maxAge x) (ok : t.Ok counter) {k : Nat} {a : Int}
    (hit : Matched t.reports x k) (before : ageIn (listBefore t.reports k) x = some a)
    (inside : minAge ≤ a + 1 ∧ a + 1 ≤ maxAge) : ageIn (listBefore t.reports (k + 1)) x = some minAge := by
  obtain ⟨r, found, seen⟩ := hit
  obtain ⟨low, _⟩ := track.settings r (List.mem_of_getElem? found)
  rw [track.age_next ok found, decide_eq_true seen, before]
  simp only [nextAge, Settings.renew, (track.inWindow found _).mpr inside, if_true, low]

def Listed (reports : List (Report D)) (x : Int) (k : Nat) : Prop := ∃ r, reports[k]? = some r ∧ x ∈ ids r.list

def Pushed (reports : List (Report D)) (x : Int) (k : Nat) : Prop := ∃ r, reports[k]? = some r ∧ x ∈ ids r.pushed

theorem State.Ok.listed_iff (ok : t.Ok counter) {k : Nat} (bound : k < t.reports.length) :
    Listed t.reports x k ↔ ∃ a, ageIn (listBefore t.reports (k + 1)) x = some a := by
  have found := List.getElem?_eq_getElem bound
  rw [← mem_ids_iff_ageIn (ok.listBefore_nodup (k + 1)), listBefore_succ found]
  simp [Listed, found]

theorem Track.pushed_iff (track : Track t.reports minAge maxAge x) (ok : t.Ok counter) {k : Nat}
    (bound : k < t.reports.length) :
    Pushed t.reports x k ↔
      ∃ a, ageIn (listBefore t.reports (k + 1)) x = some a ∧ minAge ≤ a ∧ a ≤ maxAge := by
  have found := List.getElem?_eq_getElem bound
  have pushed := (ok.report k _ found).mem_pushed (ok.listBefore_nodup k) (x := x)
  simp only [track.inWindow found] at pushed
  rw [listBefore_succ found, ← pushed]
  simp [Pushed, found]

theorem Matched.lt {k : Nat} (hit : Matched t.reports x k) : k < t.reports.length := by
  obtain ⟨r, found, _⟩ := hit
  exact (List.getElem?_eq_some_iff.mp found).1

theorem Track.lost_spec (track : Track t.reports minAge maxAge x) (ok : t.Ok counter) {t₁ j : Nat} {a : Int}
    (low : 0 ≤ a ∧ a ≤ minAge) (last : ageIn (listBefore t.reports (t₁ + 1)) x = some a) (first : 1 ≤ j)
    (bound : t₁ + j < t.reports.length) (unmatched : ∀ i, 1 ≤ i → i ≤ j → ¬Matched t.reports x (t₁ + i)) :
    (Listed t.reports x (t₁ + j) ↔ minAge ≤ a + 1 ∧ (j : Int) ≤ maxAge - a) ∧
      (Pushed t.reports x (t₁ + j) ↔ minAge ≤ a + 1 ∧ (j : Int) ≤ maxAge - a) := by
  rw [ok.listed_iff bound, track.pushed_iff ok bound, track.age_lost ok last first bound unmatched]
  by_cases on : minAge ≤ a + 1 ∧ (j : Int) ≤ maxAge - a
  · simp only [on, and_self, iff_true]
    exact ⟨⟨a + j, rfl⟩, a + j, rfl, by omega, by omega⟩
  · simp [on]

theorem Track.regained (track : Track t.reports minAge maxAge x) (ok : t.Ok counter) {t₁ j : Nat} {a : Int}
    (last : ageIn (listBefore t.reports (t₁ + 1)) x = some a) (first : 1 ≤ j) (low : minAge ≤ a + 1)
    (within : (j : Int) ≤ maxAge - a) (unmatched : ∀ i, 1 ≤ i → i < j → ¬Matched t.reports x (t₁ + i))
    (hit : Matched t.reports x (t₁ + j)) : ageIn (listBefore t.reports (t₁ + j + 1)) x = some minAge := by
  have before : ageIn (listBefore t.reports (t₁ + j)) x = some (a + (j - 1)) := by
    obtain ⟨i, rfl⟩ : ∃ i, j = i + 1 := ⟨j - 1, by omega⟩
    rcases Nat.eq_zero_or_pos i with rfl | positive
    · simpa using last
    · have lost := track.age_lost ok last positive (by have := hit.lt; omega)
        fun k start later => unmatched k start (by omega)
      rw [← Nat.add_assoc, lost, if_pos (by omega)]
      congr 1
      push_cast
      omega
  exact track.age_hit ok hit before (by omega)

end Track

/-- The reported lifetime of a track, in every run of the trackers: it is pushed from its
`min_age`-th match on; after its last match it stays for the rest of the window, or not at
all; a match inside the window brings its age back to `min_age`. -/
theorem track_lifetime (injective : mtdevMatch.Injective) {kinds : List Kind} {events : List (Event D)}
    {s : System D} (reached : Machine.attempt (System.step ops mtdevMatch) (.initial kinds) events = some s)
    {t : State D} (member : t ∈ s.trackers) {minAge maxAge x : Int} (track : Track t.reports minAge maxAge x)
    {t₀ : Nat} (born : Born t.reports x t₀) {k : Nat} (matched : ∀ j ≤ k, Matched t.reports x (t₀ + j)) :
    (Pushed t.reports x (t₀ + k) ↔ minAge ≤ k) ∧
    (∀ j : Nat, 1 ≤ j → t₀ + k + j < t.reports.length →
      (∀ i, 1 ≤ i → i ≤ j → ¬Matched t.reports x (t₀ + k + i)) →
        (Listed t.reports x (t₀ + k + j) ↔
          minAge ≤ min (k : Int) minAge + 1 ∧ (j : Int) ≤ maxAge - min (k : Int) minAge) ∧
        (Pushed t.reports x (t₀ + k + j) ↔
          minAge ≤ min (k : Int) minAge + 1 ∧ (j : Int) ≤ maxAge - min (k : Int) minAge)) ∧
    (∀ j : Nat, 1 ≤ j → minAge ≤ min (k : Int) minAge + 1 → (j : Int) ≤ maxAge - min (k : Int) minAge →
      (∀ i, 1 ≤ i → i < j → ¬Matched t.reports x (t₀ + k + i)) → Matched t.reports x (t₀ + k + j) →
        ageIn (listBefore t.reports (t₀ + k + j + 1)) x = some minAge) := by
  obtain ⟨i, found⟩ := List.mem_iff_getElem?.mp member
  have ok := (System.reached_ok injective reached).tracker i t found
  have age := track.age_matched ok born matched
  have window := track.window
  refine ⟨?_, fun j first bound unmatched => ?_, fun j first low within unmatched hit => ?_⟩
  · rw [track.pushed_iff ok (matched k (Nat.le_refl _)).lt, age]
    simp only [Option.some.injEq, exists_eq_left']
    omega
  · exact track.lost_spec ok (by omega) age first bound unmatched
  · exact track.regained ok age first low within unmatched hit

def seenTwice : Option (System Int) :=
  let settings := { Settings.default with minAge := 1, maxAge := 3 }
  Machine.attempt (System.step Doubles.integers matchNothing) (.initial [.greedy])
    [.begin 0 settings [touch 1 1], .track 0, .finish 0, .begin 0 settings [touch 1 1], .track 0, .finish 0,
      .begin 0 settings [], .finish 0, .begin 0 settings [], .finish 0, .begin 0 settings [], .finish 0]

def State.first (run : Option (System Int)) : State Int :=
  (run.bind fun s => s.trackers.head?).getD (.initial .greedy)

theorem State.first_mem {run : Option (System Int)} {s : System Int} (reached : run = some s)
    (nonempty : (run.map fun s => s.trackers.isEmpty) = some false) : State.first run ∈ s.trackers := by
  rw [reached] at nonempty ⊢
  cases shape : s.trackers with
  | nil => simp [shape] at nonempty
  | cons t rest => simp [State.first, shape]

theorem track_lifetime_seenTwice :
    Track (State.first seenTwice).reports 1 3 1 ∧ Born (State.first seenTwice).reports 1 0 ∧
      Pushed (State.first seenTwice).reports 1 1 ∧ Pushed (State.first seenTwice).reports 1 3 ∧
      ¬Listed (State.first seenTwice).reports 1 4 := by
  have track : Track (State.first seenTwice).reports 1 3 1 := ⟨by decide, by decide, by decide⟩
  have born : Born (State.first seenTwice).reports 1 0 := ⟨by decide, by decide⟩
  have unmatched : ∀ i ≤ 3, 1 ≤ i → ¬Matched (State.first seenTwice).reports 1 (0 + 1 + i) := by decide
  obtain ⟨s, reached⟩ := Option.isSome_iff_exists.mp (show seenTwice.isSome = true by decide)
  have member := State.first_mem reached (by decide)
  obtain ⟨pushed, lost, _⟩ := track_lifetime (k := 1) matchNothing_injective reached member track born (by decide)
  have third := lost 2 (by decide) (by decide) fun i first last => unmatched i (by omega) first
  have fourth := lost 3 (by decide) (by decide) fun i first last => unmatched i last first
  exact ⟨track, born, pushed.mpr (by decide), third.2.mpr (by decide), mt fourth.1.mp (by decide)⟩

end Movid.Tracker
