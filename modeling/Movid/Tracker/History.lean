import Movid.Tracker.Report

/-!
# The invariant of the trackers over whole runs

The ids a tracker holds are at most the counter, and no two trackers hold the same one.
Every recorded update of a tracker starts from the list that the one before it left.
-/

namespace Movid.Tracker

variable {D : Type} {ops : Doubles D} {mtdevMatch : Matching}

/-- The list that the tracker has when it starts its `k`-th update. -/
def listBefore (reports : List (Report D)) : Nat → List (Blob D)
  | 0 => []
  | k + 1 => (reports[k]?.map (·.list)).getD []

/-- The ids in the lists after `trackBlobs`, in one update. -/
def Report.seen (r : Report D) : List Int := ids r.old ++ ids r.detected

/-- The ids of a tracker: those of its list, and those already given in its current update. -/
def State.held (t : State D) : List Int := ids t.oldBlobs ++ (t.progress.map fun p => ids p.done).getD []

structure State.Ok (counter : Int) (t : State D) : Prop where
  nodup : (ids t.oldBlobs).Nodup
  bounded : ∀ x ∈ t.held, x ≤ counter
  progress : ∀ p, t.progress = some p → p.Ok t.kind counter t.oldBlobs
  last : t.oldBlobs = listBefore t.reports t.reports.length
  report : ∀ (k : Nat) (r : Report D), t.reports[k]? = some r → r.Ok t.kind (listBefore t.reports k)
  reported : ∀ r ∈ t.reports, ∀ x ∈ r.seen, x ≤ counter
  unseen : ∀ x ∈ t.held, x ∉ ids t.oldBlobs → ∀ r ∈ t.reports, x ∉ r.seen
  fresh : ∀ (k l : Nat) (r r' : Report D), k < l → t.reports[k]? = some r → t.reports[l]? = some r' →
    ∀ x ∈ ids r'.detected, x ∉ ids r'.old → x ∉ r.seen

theorem State.Ok.mono {counter counter' : Int} {t : State D} (ok : t.Ok counter) (later : counter ≤ counter') :
    t.Ok counter' :=
  { ok with
    bounded := fun x member => (ok.bounded x member).trans later
    progress := fun p now => (ok.progress p now).mono later
    reported := fun r member x inside => (ok.reported r member x inside).trans later }

/-- What one event does to the tracker it is for. -/
structure State.Next (t t' : State D) (counter counter' : Int) : Prop where
  ok : t'.Ok counter'
  grows : counter ≤ counter'
  held : ∀ x ∈ t'.held, x ∈ t.held ∨ (counter < x ∧ x ≤ counter')
  list : t'.oldBlobs = t.oldBlobs ∨ t'.progress = none

theorem State.Ok.same {counter : Int} {t : State D} (ok : t.Ok counter) : t.Next t counter counter :=
  ⟨ok, Int.le_refl _, fun _ member => Or.inl member, Or.inl rfl⟩

theorem State.Ok.begin (injective : mtdevMatch.Injective) {counter : Int} {t : State D} (ok : t.Ok counter)
    {settings : Settings D} {frame : List (Detection D)} {p : Progress D} (idle : t.progress = none)
    (h : Tracker.begin ops mtdevMatch t.kind settings t.oldBlobs frame = some p) :
    t.Next { t with progress := some p } counter counter := by
  have held : State.held { t with progress := some p } = t.held := by
    obtain ⟨n2s, rfl⟩ := begin_spec h
    simp [State.held, idle, ids]
  refine ⟨?_, Int.le_refl _, fun x member => Or.inl (held ▸ member), Or.inl rfl⟩
  refine { ok with bounded := held ▸ ok.bounded, progress := ?_, unseen := held ▸ ok.unseen }
  intro q now
  cases now
  exact begin_ok injective h counter

theorem State.Ok.track {counter counter' : Int} {t : State D} (ok : t.Ok counter) {p q : Progress D}
    (now : t.progress = some p) (h : Tracker.track ops t.kind p counter = some (q, counter')) :
    t.Next { t with progress := some q } counter counter' := by
  have bounded (x : Int) (member : x ∈ ids t.oldBlobs) : x ≤ counter :=
    ok.bounded x (List.mem_append_left _ member)
  have next := track_next (ok.progress p now) ok.nodup bounded h
  have held : ∀ x ∈ State.held { t with progress := some q }, x ∈ t.held ∨ (counter < x ∧ x ≤ counter') := by
    intro x member
    rcases List.mem_append.mp member with list | done
    · exact Or.inl (List.mem_append_left _ list)
    · rcases next.drawn x done with before | list | drawn
      · exact Or.inl (List.mem_append_right _ (by simpa [now] using before))
      · exact Or.inl (List.mem_append_left _ list)
      · exact Or.inr drawn
  have later := ok.mono next.grows
  refine ⟨?_, next.grows, held, Or.inl rfl⟩
  refine { later with bounded := ?_, progress := ?_, unseen := ?_ }
  · intro x member
    rcases held x member with before | drawn
    · exact later.bounded x before
    · exact drawn.2
  · intro q' now'
    cases now'
    exact next.ok
  · intro x member absent r inside
    rcases held x member with before | drawn
    · exact ok.unseen x before absent r inside
    · intro seen
      have := ok.reported r inside x seen
      omega

theorem listBefore_append (reports : List (Report D)) (r : Report D) {k : Nat} (inside : k ≤ reports.length) :
    listBefore (reports ++ [r]) k = listBefore reports k := by
  cases k with
  | zero => rfl
  | succ k => simp [listBefore, List.getElem?_append_left (show k < reports.length from inside)]

theorem State.Ok.finish {counter : Int} {t : State D} (ok : t.Ok counter) {p : Progress D} {r : Report D}
    (now : t.progress = some p) (empty : p.todo = []) (h : Tracker.finish ops t.kind p = some r) :
    t.Next { t with oldBlobs := r.list, progress := none, reports := t.reports ++ [r] } counter counter := by
  obtain ⟨done, _, ids'⟩ := finish_ok (ok.progress p now) empty ok.nodup h
  have detected (x : Int) (member : x ∈ ids r.detected) : x ∈ t.held :=
    List.mem_append_right _ (by rw [now, Option.map_some, Option.getD_some, ← ids']; exact member)
  have old : ids r.old = ids t.oldBlobs := by rw [done.old, ids_older]
  have list (x : Int) (member : x ∈ ids r.list) : x ∈ t.held := by
    rcases done.ids_list x member with new | before
    · exact detected x new
    · exact List.mem_append_left _ before
  have held : ∀ x ∈ State.held
      { t with oldBlobs := r.list, progress := none, reports := t.reports ++ [r] }, x ∈ ids r.list := by
    intro x member
    simpa [State.held] using member
  have split (k : Nat) (q : Report D) (found : (t.reports ++ [r])[k]? = some q) :
      t.reports[k]? = some q ∨ (k = t.reports.length ∧ q = r) := by
    rcases Nat.lt_trichotomy k t.reports.length with before | last | after
    · rw [List.getElem?_append_left before] at found
      exact Or.inl found
    · subst last
      exact Or.inr ⟨rfl, by simpa using found.symm⟩
    · rw [List.getElem?_eq_none (by simp; omega)] at found
      cases found
  refine ⟨⟨done.list_nodup ok.nodup, fun x member => ok.bounded x (list x (held x member)), by simp, ?_, ?_, ?_,
    fun x member absent => absurd (held x member) absent, ?_⟩, Int.le_refl _,
    fun x member => Or.inl (list x (held x member)), Or.inr rfl⟩
  · simp [listBefore]
  · intro k q found
    rcases split k q found with before | ⟨rfl, rfl⟩
    · obtain ⟨inside, _⟩ := List.getElem?_eq_some_iff.mp before
      rw [listBefore_append _ _ (Nat.le_of_lt inside)]
      exact ok.report k q before
    · rw [listBefore_append _ _ (Nat.le_refl _), ← ok.last]
      exact done
  · intro q member x inside
    rcases List.mem_append.mp member with before | last
    · exact ok.reported q before x inside
    · obtain rfl := List.mem_singleton.mp last
      rcases List.mem_append.mp inside with before | new
      · exact ok.bounded x (List.mem_append_left _ (old ▸ before))
      · exact ok.bounded x (detected x new)
  · intro k l q q' earlier foundk foundl x member absent
    have inside : k < t.reports.length := by
      rcases split l q' foundl with before | ⟨rfl, _⟩
      · exact earlier.trans (List.getElem?_eq_some_iff.mp before).1
      · exact earlier
    rw [List.getElem?_append_left inside] at foundk
    rcases split l q' foundl with before | ⟨rfl, rfl⟩
    · exact ok.fresh k l q q' earlier foundk before x member absent
    · exact ok.unseen x (detected x member) (old ▸ absent) q (List.mem_of_getElem? foundk)

theorem State.Ok.step (injective : mtdevMatch.Injective) {counter counter' : Int} {t t' : State D}
    (ok : t.Ok counter) {event : Event D} (h : t.step ops mtdevMatch counter event = some (t', counter')) :
    t.Next t' counter counter' := by
  cases State.step_moves h with
  | same => exact ok.same
  | begin idle started => exact ok.begin injective idle started
  | track now tracked => exact ok.track now tracked
  | finish now empty finished => exact ok.finish now empty finished

theorem listBefore_succ {reports : List (Report D)} {k : Nat} {r : Report D} (found : reports[k]? = some r) :
    listBefore reports (k + 1) = r.list := by simp [listBefore, found]

theorem State.Ok.listBefore_nodup {counter : Int} {t : State D} (ok : t.Ok counter) (k : Nat) :
    (ids (listBefore t.reports k)).Nodup := by
  induction k with
  | zero => exact List.nodup_nil
  | succ k ih =>
    cases found : t.reports[k]? with
    | none => simp [listBefore, found, ids]
    | some r =>
      rw [listBefore_succ found]
      exact (ok.report k r found).list_nodup ih

end Movid.Tracker
