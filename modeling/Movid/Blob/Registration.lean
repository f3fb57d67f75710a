import Mathlib.Data.Char
import Mathlib.Data.List.Perm.Subperm
import Movid.Blob.Matching
import Movid.Lib.Machine
import Movid.Lib.OrderedMap
import Movid.Utils

/-!
# Contours that are registered

A registration puts NULL at the end of the stored contours until a frame has a contour for it. The contour is saved in a property whose
number comes from the number of entries, and a new module reads these properties up to the first number that is missing.
-/

namespace Movid.HuObjectFinder

/-- `cvSave` and `cvLoad`. -/
structure Archive (C : Type) where
  save : C → Str
  load : Str → C

/-- `properties` are the texts, and `recognized` the contours of the frame with their `fiducial_id`. -/
structure Finder (C : Type) where
  minId : Int
  properties : OrderedMap Str Str
  storedContours : List (Option C)
  contoursRestored : Bool
  recognized : List (C × Int)

inductive Event (C D : Type) where
  | register
  | frame (settings : Settings D) (found : List C)

def propName (number : Int) : Str := "stored_contour_".toList ++ Text.showInt number

section Code

variable {C D : Type} [LinearOrder D] (shapes : Shapes C D) (archive : Archive C)

namespace Finder

def fresh (minId : Int) (properties : OrderedMap Str Str) : Finder C :=
  { minId, properties, storedContours := [], contoursRestored := false, recognized := [] }

/-- The callback of `register`. -/
def registerObject (s : Finder C) : Finder C :=
  if s.contoursRestored then { s with storedContours := s.storedContours ++ [none] } else s

def serializeContour (s : Finder C) (cont : C) : Finder C :=
  { s with properties := s.properties.insert (propName (s.minId + s.storedContours.length)) (archive.save cont) }

/-- What a file with the text of a property gives. -/
def loadText (text : Str) : C := archive.load (text ++ ['\n'])

/-- The loop that restores, for at most so many rounds. -/
def restoreLoop (properties : OrderedMap Str Str) : Nat → Int → List C
  | 0, _ => []
  | rounds + 1, curId =>
    match properties.find (propName curId) with
    | none => []
    | some text => loadText archive text :: restoreLoop properties rounds (curId + 1)

/-- There are no more rounds than properties. -/
def restored (s : Finder C) : List C := restoreLoop archive s.properties s.properties.entries.length (s.minId + 1)

def restore (s : Finder C) : Finder C :=
  if s.contoursRestored then s
  else { s with storedContours := s.storedContours ++ (s.restored archive).map some, contoursRestored := true }

/-- The last entry is NULL. -/
def pending (s : Finder C) : Bool :=
  match s.storedContours.getLast? with
  | some none => true
  | _ => false

/-- The loop over the contours of the frame. -/
def lookAt (settings : Settings D) (s : Finder C) : List C → Finder C
  | [] => s
  | cont :: rest =>
    if settings.minArea < shapes.contourArea cont then
      let m := findMatchingShape shapes settings cont s.storedContours
      if s.pending then
        let popped := { s with storedContours := s.storedContours.dropLast }
        if m.1 < 0 then { popped with storedContours := popped.storedContours ++ [some cont] }.serializeContour archive cont
        else popped
      else if m.1 ≥ 0 ∨ m.2 then
        lookAt settings { s with recognized := s.recognized ++ [(cont, if m.2 then -1 else s.minId + m.1)] } rest
      else lookAt settings s rest
    else lookAt settings s rest

/-- `applyFilter`. -/
def applyFilter (s : Finder C) (settings : Settings D) (found : List C) : Finder C :=
  lookAt shapes archive settings ({ s with recognized := [] }.restore archive) found

def step (s : Finder C) : Event C D → Finder C
  | .register => s.registerObject
  | .frame settings found => s.applyFilter shapes archive settings found

end Finder

end Code

/-! ### The numbers of the properties -/

section Numbers

theorem propName_injective : Function.Injective propName := by
  intro m n same
  rw [← Text.readInt_showInt m, List.append_cancel_left same, Text.readInt_showInt]

variable {C : Type} {archive : Archive C} {properties : OrderedMap Str Str} {cur : Int} {l l' : List C}

/-- The contours in the properties from a number up to the first that is missing. -/
def Numbered (archive : Archive C) (properties : OrderedMap Str Str) : Int → List C → Prop
  | cur, [] => properties.find (propName cur) = none
  | cur, c :: rest => (properties.find (propName cur)).map (Finder.loadText archive) = some c ∧ Numbered archive properties (cur + 1) rest

theorem Numbered.unique (first : Numbered archive properties cur l) (second : Numbered archive properties cur l') : l = l' := by
  induction l generalizing cur l' with
  | nil =>
    cases l' with
    | nil => rfl
    | cons c rest =>
      have missing : properties.find (propName cur) = none := first
      have found := second.1
      rw [missing] at found
      cases found
  | cons c rest ih =>
    cases l' with
    | nil =>
      have missing : properties.find (propName cur) = none := second
      have found := first.1
      rw [missing] at found
      cases found
    | cons c' rest' =>
      rw [Option.some.inj (first.1.symm.trans second.1), ih first.2 second.2]

theorem Numbered.missing (numbered : Numbered archive properties cur l) : properties.find (propName (cur + l.length)) = none := by
  induction l generalizing cur with
  | nil => simpa using (show properties.find (propName cur) = none from numbered)
  | cons c rest ih =>
    have missing := ih numbered.2
    rwa [show cur + 1 + (rest.length : Int) = cur + ((c :: rest).length : Int) by
      rw [List.length_cons]
      omega] at missing

/-- A text under the first number that is missing comes last, when the next one is missing too. -/
theorem Numbered.insert (numbered : Numbered archive properties cur l) (text : Str)
    (free : properties.find (propName (cur + l.length + 1)) = none) :
    Numbered archive (properties.insert (propName (cur + l.length)) text) cur (l ++ [Finder.loadText archive text]) := by
  induction l generalizing cur with
  | nil =>
    simp only [List.length_nil, Int.ofNat_zero, Int.add_zero] at free ⊢
    refine ⟨by rw [OrderedMap.find_insert_self]; rfl, ?_⟩
    exact (OrderedMap.find_insert_of_ne _ (fun same => by have := propName_injective same; omega) _).trans free
  | cons c rest ih =>
    have shift : cur + ((c :: rest).length : Int) = cur + 1 + rest.length := by
      rw [List.length_cons]
      omega
    rw [shift] at free ⊢
    refine ⟨?_, ih numbered.2 free⟩
    rw [OrderedMap.find_insert_of_ne _ (fun same => by have := propName_injective same; omega)]
    exact numbered.1

/-- So many properties cannot be there. -/
theorem length_le_of_found {n : Nat} (found : ∀ k < n, properties.find (propName (cur + (k : Int))) ≠ none) :
    n ≤ properties.entries.length := by
  let name (k : Nat) : Str := propName (cur + k)
  have distinct : ((List.range n).map name).Nodup := by
    refine List.nodup_range.map fun k k' same => ?_
    have := propName_injective same
    omega
  have inside : (List.range n).map name ⊆ properties.entries.map (·.1) := by
    intro key member
    obtain ⟨k, below, rfl⟩ := List.mem_map.mp member
    obtain ⟨text, there⟩ := Option.ne_none_iff_exists'.mp (found k (List.mem_range.mp below))
    exact List.mem_map.mpr ⟨_, OrderedMap.mem_of_find there, rfl⟩
  have short := (List.subperm_of_subset distinct inside).length_le
  rwa [List.length_map, List.length_map, List.length_range] at short

theorem restoreLoop_numbered {rounds : Nat} (stops : ∃ k ≤ rounds, properties.find (propName (cur + (k : Int))) = none) :
    Numbered archive properties cur (Finder.restoreLoop archive properties rounds cur) := by
  induction rounds generalizing cur with
  | zero =>
    obtain ⟨k, below, missing⟩ := stops
    obtain rfl := Nat.le_zero.mp below
    rwa [Int.ofNat_zero, Int.add_zero] at missing
  | succ rounds ih =>
    unfold Finder.restoreLoop
    cases here : properties.find (propName cur) with
    | none => exact here
    | some text =>
      refine ⟨by rw [here]; rfl, ih ?_⟩
      obtain ⟨k, below, missing⟩ := stops
      cases k with
      | zero =>
        rw [Int.ofNat_zero, Int.add_zero, here] at missing
        cases missing
      | succ k =>
        refine ⟨k, Nat.le_of_succ_le_succ below, ?_⟩
        rwa [show cur + 1 + (k : Int) = cur + ((k + 1 : Nat) : Int) by omega]

theorem restored_numbered (archive : Archive C) (s : Finder C) : Numbered archive s.properties (s.minId + 1) (s.restored archive) := by
  refine restoreLoop_numbered ?_
  by_contra all
  have found : ∀ k < s.properties.entries.length + 1, s.properties.find (propName (s.minId + 1 + (k : Int))) ≠ none :=
    fun k below missing => all ⟨k, Nat.le_of_lt_succ below, missing⟩
  exact absurd (length_le_of_found found) (Nat.not_succ_le_self _)

end Numbers

/-! ### What a frame does -/

section Frames

variable {C D : Type} [LinearOrder D] {shapes : Shapes C D} {archive : Archive C} {settings : Settings D} {s : Finder C}

namespace Finder

theorem pending_iff : s.pending = true ↔ ∃ front, s.storedContours = front ++ [none] := by
  unfold pending
  rcases List.eq_nil_or_concat s.storedContours with empty | ⟨front, last, stored⟩
  · simp [empty]
  · rw [stored]
    cases last <;> simp

/-- The frame registers `cont`, as far as the state before it says. -/
structure Registers (shapes : Shapes C D) (s : Finder C) (settings : Settings D) (found : List C) (cont : C) : Prop where
  pending : s.pending = true
  first : found.find? (fun cont => settings.minArea < shapes.contourArea cont) = some cont
  unmatched : (findMatchingShape shapes settings cont s.storedContours).1 < 0

/-- What is stored and saved stays. -/
structure Same (s t : Finder C) : Prop where
  minId : t.minId = s.minId
  properties : t.properties = s.properties
  contoursRestored : t.contoursRestored = s.contoursRestored

theorem lookAt_idle (shapes : Shapes C D) (archive : Archive C) (settings : Settings D) (idle : s.pending = false) (found : List C) :
    s.Same (lookAt shapes archive settings s found) ∧ (lookAt shapes archive settings s found).storedContours = s.storedContours := by
  induction found generalizing s with
  | nil => exact ⟨⟨rfl, rfl, rfl⟩, rfl⟩
  | cons cont rest ih =>
    unfold lookAt
    split
    · rw [idle]
      simp only [Bool.false_eq_true, if_false]
      split
      · obtain ⟨same, stored⟩ := ih (s := { s with recognized := s.recognized ++ [(cont, _)] }) idle
        exact ⟨⟨same.minId, same.properties, same.contoursRestored⟩, stored⟩
      · exact ih idle
    · exact ih idle

theorem lookAt_pending (waits : s.pending = true) (found : List C) : lookAt shapes archive settings s found =
    match found.find? (fun cont => settings.minArea < shapes.contourArea cont) with
    | none => s
    | some cont =>
      if (findMatchingShape shapes settings cont s.storedContours).1 < 0 then
        { s with storedContours := s.storedContours.dropLast ++ [some cont] }.serializeContour archive cont
      else { s with storedContours := s.storedContours.dropLast } := by
  induction found with
  | nil => rfl
  | cons cont rest ih =>
    unfold lookAt
    split
    · rename_i large
      rw [List.find?_cons_of_pos (by exact decide_eq_true large)]
    · rename_i small
      rw [List.find?_cons_of_neg (by simpa using small), ih]

/-- A frame leaves what is stored, drops a registration that waits, or registers a contour for it. -/
theorem lookAt_cases (shapes : Shapes C D) (archive : Archive C) (settings : Settings D) (s : Finder C) (found : List C) :
    ((∀ cont, ¬s.Registers shapes settings found cont) ∧ s.Same (lookAt shapes archive settings s found) ∧
      ((lookAt shapes archive settings s found).storedContours = s.storedContours ∨
        s.storedContours = (lookAt shapes archive settings s found).storedContours ++ [none])) ∨
    ∃ front cont, s.Registers shapes settings found cont ∧ s.storedContours = front ++ [none] ∧
      lookAt shapes archive settings s found = { s with
        storedContours := front ++ [some cont]
        properties := s.properties.insert (propName (s.minId + 1 + front.length)) (archive.save cont) } := by
  cases waits : s.pending with
  | false =>
    obtain ⟨same, stored⟩ := lookAt_idle shapes archive settings waits found
    exact Or.inl ⟨fun cont registers => absurd (waits.symm.trans registers.pending) (by decide), same, Or.inl stored⟩
  | true =>
    obtain ⟨front, stored⟩ := pending_iff.mp waits
    rw [lookAt_pending waits, stored, List.dropLast_concat]
    cases first : found.find? (fun cont => settings.minArea < shapes.contourArea cont) with
    | none =>
      exact Or.inl ⟨fun cont registers => (by cases first.symm.trans registers.first), ⟨rfl, rfl, rfl⟩, Or.inl stored⟩
    | some cont =>
      dsimp only
      split
      · rename_i unmatched
        refine Or.inr ⟨front, cont, ⟨waits, first, stored ▸ unmatched⟩, rfl, ?_⟩
        have number : s.minId + ((front ++ [some cont]).length : Int) = s.minId + 1 + front.length := by
          rw [List.length_append, List.length_singleton]
          omega
        simp only [serializeContour, number]
      · rename_i matched
        refine Or.inl ⟨fun cont' registers => ?_, ⟨rfl, rfl, rfl⟩, Or.inr rfl⟩
        obtain rfl := Option.some.inj (first.symm.trans registers.first)
        exact matched (stored ▸ registers.unmatched)

/-! ### Save and load -/

/-- A new finder with the same properties, when it restored them. -/
def reloaded (archive : Archive C) (s : Finder C) : Finder C := (fresh s.minId s.properties).restore archive

/-- The contours come back at their indices, and are recognized as before. -/
structure Identity (shapes : Shapes C D) (archive : Archive C) (s : Finder C) : Prop where
  contours : ∀ (i : Nat) (cont : C), (s.reloaded archive).storedContours[i]? = some (some cont) ↔ s.storedContours[i]? = some (some cont)
  indices : ∀ (settings : Settings D) (cont : C), findMatchingShape shapes settings cont (s.reloaded archive).storedContours =
    findMatchingShape shapes settings cont s.storedContours

theorem reloaded_storedContours (s : Finder C) : (s.reloaded archive).storedContours = (s.restored archive).map some := rfl

/-- Then only registrations that wait come after what is saved. -/
theorem Identity.waiting (identity : s.Identity shapes archive) :
    ∃ n, s.storedContours = (s.restored archive).map some ++ List.replicate n none := by
  have contours := identity.contours
  rw [reloaded_storedContours] at contours
  refine ⟨s.storedContours.length - (s.restored archive).length, List.ext_getElem? fun i => ?_⟩
  by_cases saved : i < (s.restored archive).length
  · have there := (contours i (s.restored archive)[i]).mp (by rw [List.getElem?_map, List.getElem?_eq_getElem saved]; rfl)
    rw [there, List.getElem?_append_left (by rwa [List.length_map]), List.getElem?_map, List.getElem?_eq_getElem saved]
    rfl
  · rw [List.getElem?_append_right (by rw [List.length_map]; omega), List.length_map, List.getElem?_replicate]
    cases entry : s.storedContours[i]? with
    | none =>
      have past := List.getElem?_eq_none_iff.mp entry
      rw [if_neg (by omega)]
    | some entry' =>
      obtain ⟨inside, -⟩ := List.getElem?_eq_some_iff.mp entry
      cases entry' with
      | none => rw [if_pos (by omega)]
      | some cont =>
        have back := (contours i cont).mpr entry
        rw [List.getElem?_map, List.getElem?_eq_none_iff.mpr (by omega)] at back
        cases back

/-- When the last entry is a contour nothing waits. -/
theorem Identity.saved (identity : s.Identity shapes archive) {front : List (Option C)} {cont : C}
    (stored : s.storedContours = front ++ [some cont]) : front ++ [some cont] = (s.restored archive).map some := by
  obtain ⟨n, waiting⟩ := identity.waiting
  cases n with
  | zero => rw [← stored, waiting, List.replicate_zero, List.append_nil]
  | succ n =>
    rw [stored, List.replicate_succ', ← List.append_assoc] at waiting
    cases (List.append_inj' waiting rfl).2

theorem Identity.of_waiting {n : Nat} (stored : s.storedContours = (s.restored archive).map some ++ List.replicate n none) :
    s.Identity shapes archive := by
  refine ⟨fun i cont => ?_, fun settings cont => findMatchingShape_congr _ _ _ ?_⟩
  · rw [reloaded_storedContours, stored]
    by_cases saved : i < ((s.restored archive).map some).length
    · rw [List.getElem?_append_left saved]
    · rw [List.getElem?_append_right (by omega), List.getElem?_eq_none_iff.mpr (by omega), List.getElem?_replicate]
      split <;> simp
  · rw [reloaded_storedContours, stored, present_append_replicate]

/-- At a registration no other one waits, and the number after it is free. -/
def Clean (shapes : Shapes C D) (s : Finder C) : Event C D → Prop
  | .register => True
  | .frame settings found => ∀ cont, s.Registers shapes settings found cont →
      s.storedContours.dropLast.getLast? ≠ some none ∧ s.properties.find (propName (s.minId + s.storedContours.length + 1)) = none

/-- Before the first frame nothing is stored. -/
structure Sound (shapes : Shapes C D) (archive : Archive C) (s : Finder C) : Prop where
  start : s.contoursRestored = false → s.storedContours = []
  identity : s.contoursRestored = true → s.Identity shapes archive

theorem concat_none_ne (front : List (Option C)) (l : List C) : front ++ [none] ≠ l.map some := by
  intro same
  have last : none ∈ l.map some := same ▸ List.mem_append_right _ (List.mem_singleton.mpr rfl)
  simp at last

theorem waiting_concat {front : List (Option C)} {l : List C} {n : Nat} (stored : front ++ [none] = l.map some ++ List.replicate n none) :
    ∃ m, front = l.map some ++ List.replicate m none := by
  cases n with
  | zero =>
    rw [List.replicate_zero, List.append_nil] at stored
    exact absurd stored (concat_none_ne front l)
  | succ m =>
    rw [List.replicate_succ', ← List.append_assoc] at stored
    exact ⟨m, List.append_cancel_right stored⟩

theorem restored_congr {t : Finder C} (minId : t.minId = s.minId) (properties : t.properties = s.properties) :
    t.restored archive = s.restored archive := by
  unfold restored
  rw [minId, properties]

/-- The first frame finds nothing that waits. -/
theorem Sound.restore (sound : s.Sound shapes archive) :
    ∃ r, ({ s with recognized := [] } : Finder C).restore archive = r ∧ r.contoursRestored = true ∧ r.minId = s.minId ∧
      r.properties = s.properties ∧ (∃ n, r.storedContours = (s.restored archive).map some ++ List.replicate n none) ∧
      (s.pending = false ∧ r.pending = false ∨ r.storedContours = s.storedContours) := by
  by_cases restored : s.contoursRestored = true
  · exact ⟨{ s with recognized := [] }, if_pos restored, restored, rfl, rfl, (sound.identity restored).waiting, Or.inr rfl⟩
  · have empty := sound.start (Bool.eq_false_iff.mpr restored)
    refine ⟨{ s with recognized := [], storedContours := (s.restored archive).map some, contoursRestored := true }, ?_, rfl, rfl, rfl,
      ⟨0, (List.append_nil _).symm⟩, Or.inl ⟨?_, ?_⟩⟩
    · refine (if_neg restored).trans ?_
      simp only [empty]
      rfl
    · rw [← Bool.not_eq_true, pending_iff, empty]
      rintro ⟨front, nothing⟩
      exact absurd nothing (by simp)
    · rw [← Bool.not_eq_true, pending_iff]
      rintro ⟨front, stored⟩
      exact concat_none_ne front _ stored.symm

/-- What a frame does to a sound state. -/
theorem Sound.applyFilter_cases (sound : s.Sound shapes archive) (settings : Settings D) (found : List C) {t : Finder C}
    (now : s.applyFilter shapes archive settings found = t) : t.contoursRestored = true ∧ t.minId = s.minId ∧
    (((∀ cont, ¬s.Registers shapes settings found cont) ∧ t.properties = s.properties ∧
        ∃ n, t.storedContours = (s.restored archive).map some ++ List.replicate n none) ∨
      ∃ front cont n, s.Registers shapes settings found cont ∧ s.storedContours = front ++ [none] ∧
        front = (s.restored archive).map some ++ List.replicate n none ∧ t.storedContours = front ++ [some cont] ∧
        t.properties = s.properties.insert (propName (s.minId + 1 + front.length)) (archive.save cont)) := by
  obtain ⟨r, restores, restored, minId, properties, ⟨n, stored⟩, same⟩ := sound.restore
  have now : lookAt shapes archive settings r found = t := by
    rw [← restores]
    exact now
  rcases lookAt_cases shapes archive settings r found with ⟨quiet, kept, left⟩ | registered
  · rw [now] at kept left
    refine ⟨kept.contoursRestored.trans restored, kept.minId.trans minId, Or.inl ⟨fun cont registers => ?_,
      kept.properties.trans properties, ?_⟩⟩
    · rcases same with ⟨idle, -⟩ | same
      · exact absurd (idle.symm.trans registers.pending) (by decide)
      · refine quiet cont ⟨?_, registers.first, by rw [same]; exact registers.unmatched⟩
        rw [pending_iff, same, ← pending_iff]
        exact registers.pending
    · rcases left with left | popped
      · exact ⟨n, left.trans stored⟩
      · exact waiting_concat (popped.symm.trans stored)
  · obtain ⟨front, cont, registers, last, after⟩ := registered
    have same := same.resolve_left fun both => absurd (both.2.symm.trans registers.pending) (by decide)
    obtain ⟨m, waiting⟩ := waiting_concat (last.symm.trans stored)
    rw [now] at after
    subst after
    refine ⟨restored, minId, Or.inr ⟨front, cont, m, ⟨?_, registers.first, same ▸ registers.unmatched⟩, same ▸ last, waiting, rfl, ?_⟩⟩
    · rw [pending_iff, ← same, ← pending_iff]
      exact registers.pending
    · rw [properties, minId]

theorem Sound.registerObject (sound : s.Sound shapes archive) : s.registerObject.Sound shapes archive := by
  unfold Finder.registerObject
  split
  · rename_i restored
    refine ⟨fun start => absurd (restored.symm.trans start) (by decide), fun _ => ?_⟩
    obtain ⟨n, stored⟩ := (sound.identity restored).waiting
    refine Identity.of_waiting (n := n + 1) ?_
    rw [List.replicate_succ', ← List.append_assoc]
    exact congrArg (· ++ [none]) stored
  · exact sound

/-- The properties of a finder after a registration with no other before it. -/
theorem restored_insert {t : Finder C} {text : Str} (minId : t.minId = s.minId)
    (properties : t.properties = s.properties.insert (propName (s.minId + 1 + (s.restored archive).length)) text)
    (free : s.properties.find (propName (s.minId + 1 + (s.restored archive).length + 1)) = none) :
    t.restored archive = s.restored archive ++ [loadText archive text] := by
  have numbered := (restored_numbered archive s).insert text free
  rw [← properties, ← minId] at numbered
  exact (restored_numbered archive t).unique numbered

theorem Sound.applyFilter (roundTrip : ∀ cont, loadText archive (archive.save cont) = cont) (sound : s.Sound shapes archive)
    {found : List C} (clean : s.Clean shapes (.frame settings found)) : (s.applyFilter shapes archive settings found).Sound shapes archive := by
  obtain ⟨restored, minId, quiet | registered⟩ := sound.applyFilter_cases settings found rfl
  · obtain ⟨-, properties, n, stored⟩ := quiet
    refine ⟨fun start => absurd (restored.symm.trans start) (by decide), fun _ => Identity.of_waiting (n := n) ?_⟩
    rw [restored_congr minId properties]
    exact stored
  · obtain ⟨front, cont, n, registers, last, waiting, stored, properties⟩ := registered
    obtain ⟨before, free⟩ := clean cont registers
    have alone : n = 0 := by
      cases n with
      | zero => rfl
      | succ n =>
        rw [last, List.dropLast_concat, waiting, List.replicate_succ', ← List.append_assoc, List.getLast?_concat] at before
        exact absurd rfl before
    obtain rfl := alone
    rw [List.replicate_zero, List.append_nil] at waiting
    subst waiting
    rw [List.length_map] at properties
    rw [last, List.length_append, List.length_map, List.length_singleton,
      show s.minId + (((s.restored archive).length + 1 : Nat) : Int) + 1 = s.minId + 1 + (s.restored archive).length + 1 by omega] at free
    refine ⟨fun start => absurd (restored.symm.trans start) (by decide), fun _ => Identity.of_waiting (n := 0) ?_⟩
    rw [restored_insert minId properties free, roundTrip, List.replicate_zero, List.append_nil, List.map_append]
    exact stored

/-- A frame after which the contours come back was clean. -/
theorem Sound.clean (sound : s.Sound shapes archive) {found : List C}
    (after : (s.applyFilter shapes archive settings found).Identity shapes archive) : s.Clean shapes (.frame settings found) := by
  intro cont registers
  obtain ⟨-, minId, quiet | registered⟩ := sound.applyFilter_cases settings found rfl
  · exact absurd registers (quiet.1 cont)
  · obtain ⟨front, cont', n, -, last, -, stored, properties⟩ := registered
    have saved := after.saved stored
    refine ⟨fun pending => ?_, ?_⟩
    · rw [last, List.dropLast_concat] at pending
      have member : none ∈ front ++ [some cont'] := List.mem_append_left _ (List.mem_of_getLast? pending)
      rw [saved] at member
      simp at member
    · have missing := (restored_numbered archive (s.applyFilter shapes archive settings found)).missing
      have length := congrArg List.length saved
      rw [List.length_append, List.length_singleton, List.length_map] at length
      rw [properties, minId, ← length, OrderedMap.find_insert_of_ne _ fun same => by have := propName_injective same; omega] at missing
      rw [last, List.length_append, List.length_singleton]
      rwa [show s.minId + 1 + ((front.length + 1 : Nat) : Int) = s.minId + ((front.length + 1 : Nat) : Int) + 1 by omega] at missing

theorem Sound.fresh (minId : Int) (properties : OrderedMap Str Str) : (fresh minId properties).Sound shapes archive :=
  ⟨fun _ => rfl, fun restored => by cases restored⟩

/-- A finder gives its contours back after every event of exactly those runs in which every registration is clean. -/
theorem identity_iff_clean (roundTrip : ∀ cont, loadText archive (archive.save cont) = cont) (minId : Int)
    (properties : OrderedMap Str Str) (events : List (Event C D)) :
    (∀ n, (Machine.run (step shapes archive) (fresh minId properties) (events.take n)).contoursRestored = true →
        (Machine.run (step shapes archive) (fresh minId properties) (events.take n)).Identity shapes archive) ↔
      Machine.Guarded (step shapes archive) (Clean shapes) (fresh minId properties) events := by
  refine Machine.forall_take_iff_guarded (I := Sound shapes archive) (fun s sound => sound.identity) ?_ ?_ (Sound.fresh minId properties) events
  · intro s event clean sound
    cases event with
    | register => exact sound.registerObject
    | frame settings found => exact sound.applyFilter roundTrip clean
  · intro s event sound after
    cases event with
    | register => trivial
    | frame settings found =>
      obtain ⟨restored, -⟩ := sound.applyFilter_cases settings found rfl
      exact sound.clean (after restored)

end Finder

end Frames

/-! ### Contours that are their own text -/

namespace Finder

def texts : Archive Str := { save := id, load := List.dropLast }

theorem texts_roundTrip (cont : Str) : loadText texts (texts.save cont) = cont := List.dropLast_concat

/-- The area of a contour is the length of its text, and so is the size of its box. -/
def lengths : Shapes Str Nat :=
  { boundingBoxCheck a b := max a.length b.length - min a.length b.length, countHolesInContour _ := 0, matchShapes _ _ := 0,
    contourArea := List.length }

def standard : Settings Nat :=
  { maxMatchScore := 1, maxSizeDifference := 0, minArea := 0, considerHoles := false, considerShape := true }

def mug : Str := "mug".toList

/-- One registration before a frame. -/
theorem mug_comes_back : (Machine.run (step lengths texts) (fresh 513 .empty)
    [.frame standard [], .register, .frame standard [mug]]).Identity lengths texts := by
  refine (identity_iff_clean texts_roundTrip 513 .empty [.frame standard [], .register, .frame standard [mug]]).mpr ?_ 3 rfl
  refine ⟨fun cont registers => ?_, trivial, fun cont registers => ⟨by decide, by decide⟩, trivial⟩
  exact absurd registers.pending (by decide)

/-- Two registrations before a frame. -/
theorem mug_is_lost : (∀ cont, loadText texts (texts.save cont) = cont) ∧ ¬(Machine.run (step lengths texts) (fresh 513 .empty)
    [.frame standard [], .register, .register, .frame standard [mug]]).Identity lengths texts := by
  refine ⟨texts_roundTrip, fun identity => ?_⟩
  have back := (identity.contours 1 mug).mpr (by decide)
  exact absurd back (by decide)

end Finder

end Movid.HuObjectFinder
