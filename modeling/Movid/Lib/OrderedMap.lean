import Mathlib.Data.List.Lex
import Mathlib.Data.List.Nodup
import Mathlib.Order.Lattice
import Mathlib.Tactic.Common

/-!
# Maps that are walked in the order of their keys

`std::map`, as a list of entries with strictly increasing keys.
-/

structure OrderedMap (κ ν : Type) [LinearOrder κ] where
  entries : List (κ × ν)
  sorted : entries.Pairwise fun a b => a.1 < b.1

namespace OrderedMap

variable {κ ν : Type} [LinearOrder κ]

def find (m : OrderedMap κ ν) (k : κ) : Option ν := (m.entries.find? (·.1 = k)).map (·.2)

/-- The entry goes before the first larger key, in the place of an equal one. -/
def place (k : κ) (v : ν) : List (κ × ν) → List (κ × ν)
  | [] => [(k, v)]
  | e :: rest => if k < e.1 then (k, v) :: e :: rest else if k = e.1 then (k, v) :: rest else e :: place k v rest

theorem mem_place {k : κ} {v : ν} {l : List (κ × ν)} {e : κ × ν} (h : e ∈ place k v l) : e = (k, v) ∨ e ∈ l := by
  induction l with
  | nil => exact Or.inl (List.mem_singleton.mp h)
  | cons a l ih =>
    unfold place at h
    split at h
    · exact List.mem_cons.mp h
    · split at h
      · rcases List.mem_cons.mp h with here | later
        · exact Or.inl here
        · exact Or.inr (List.mem_cons_of_mem _ later)
      · rcases List.mem_cons.mp h with rfl | later
        · exact Or.inr List.mem_cons_self
        · exact (ih later).imp_right (List.mem_cons_of_mem _)

theorem place_sorted (k : κ) (v : ν) {l : List (κ × ν)} (sorted : l.Pairwise fun a b => a.1 < b.1) :
    (place k v l).Pairwise fun a b => a.1 < b.1 := by
  induction l with
  | nil => exact List.pairwise_singleton _ _
  | cons e l ih =>
    obtain ⟨above, tail⟩ := List.pairwise_cons.mp sorted
    unfold place
    split
    · rename_i below
      refine List.pairwise_cons.mpr ⟨fun a member => ?_, sorted⟩
      rcases List.mem_cons.mp member with rfl | later
      · exact below
      · exact below.trans (above a later)
    · rename_i notBelow
      split
      · rename_i same
        exact List.pairwise_cons.mpr ⟨fun a member => same ▸ above a member, tail⟩
      · rename_i other
        refine List.pairwise_cons.mpr ⟨fun a member => ?_, ih tail⟩
        rcases mem_place member with rfl | later
        · exact lt_of_le_of_ne (not_lt.mp notBelow) (Ne.symm other)
        · exact above a later

def insert (m : OrderedMap κ ν) (k : κ) (v : ν) : OrderedMap κ ν := ⟨place k v m.entries, place_sorted k v m.sorted⟩

def empty : OrderedMap κ ν := ⟨[], List.Pairwise.nil⟩

def ofList (entries : List (κ × ν)) : OrderedMap κ ν := entries.foldl (fun m e => m.insert e.1 e.2) empty

theorem mem_ofList {entries : List (κ × ν)} {e : κ × ν} (h : e ∈ (ofList entries).entries) : e ∈ entries := by
  have step (l : List (κ × ν)) (m : OrderedMap κ ν)
      (member : e ∈ (l.foldl (fun m e => m.insert e.1 e.2) m).entries) : e ∈ m.entries ∨ e ∈ l := by
    induction l generalizing m with
    | nil => exact Or.inl member
    | cons a l ih =>
      rcases ih _ member with inside | later
      · rcases mem_place inside with rfl | old
        · exact Or.inr List.mem_cons_self
        · exact Or.inl old
      · exact Or.inr (List.mem_cons_of_mem _ later)
  exact (step entries empty h).resolve_left (by simp [empty])

theorem find?_place_self (k : κ) (v : ν) (l : List (κ × ν)) :
    (place k v l).find? (fun e => decide (e.1 = k)) = some (k, v) := by
  induction l with
  | nil => simp [place]
  | cons e l ih =>
    unfold place
    split
    · simp
    · split
      · simp
      · rename_i other
        rw [List.find?_cons_of_neg (by simpa using Ne.symm other), ih]

theorem find?_place_of_ne {k k' : κ} (other : k' ≠ k) (v : ν) (l : List (κ × ν)) :
    (place k v l).find? (fun e => decide (e.1 = k')) = l.find? (fun e => decide (e.1 = k')) := by
  have skip : decide (k = k') = false := by simpa using Ne.symm other
  induction l with
  | nil => simp [place, skip]
  | cons e l ih =>
    unfold place
    split
    · simp [List.find?_cons, skip]
    · split
      · rename_i same
        simp [skip, ← same]
      · rw [List.find?_cons, List.find?_cons, ih]

@[simp] theorem find_insert_self (m : OrderedMap κ ν) (k : κ) (v : ν) : (m.insert k v).find k = some v := by
  simp [find, insert, find?_place_self]

theorem find_insert_of_ne (m : OrderedMap κ ν) {k k' : κ} (other : k' ≠ k) (v : ν) :
    (m.insert k v).find k' = m.find k' := by simp [find, insert, find?_place_of_ne other]

theorem find_insert (m : OrderedMap κ ν) (k k' : κ) (v : ν) :
    (m.insert k v).find k' = if k' = k then some v else m.find k' := by
  split
  · rename_i same
    rw [same, find_insert_self]
  · rename_i other
    exact find_insert_of_ne m other v

theorem keys_nodup (m : OrderedMap κ ν) : (m.entries.map (·.1)).Nodup :=
  List.pairwise_map.mpr (m.sorted.imp ne_of_lt)

theorem find_of_mem (m : OrderedMap κ ν) {k : κ} {v : ν} (h : (k, v) ∈ m.entries) : m.find k = some v := by
  obtain ⟨e, found⟩ : ∃ e, m.entries.find? (fun e => decide (e.1 = k)) = some e := by
    rw [← Option.isSome_iff_exists, List.find?_isSome]
    exact ⟨(k, v), h, by simp⟩
  have key : e.1 = k := by simpa using List.find?_some found
  have same : e = (k, v) := List.inj_on_of_nodup_map m.keys_nodup (List.mem_of_find?_eq_some found) h key
  simp [find, found, same]

theorem mem_of_find {m : OrderedMap κ ν} {k : κ} {v : ν} (h : m.find k = some v) : (k, v) ∈ m.entries := by
  obtain ⟨e, found, rfl⟩ := Option.map_eq_some_iff.mp h
  have key : e.1 = k := by simpa using List.find?_some found
  exact key ▸ List.mem_of_find?_eq_some found

def map {μ : Type} (f : ν → μ) (m : OrderedMap κ ν) : OrderedMap κ μ :=
  ⟨m.entries.map fun e => (e.1, f e.2), List.pairwise_map.mpr m.sorted⟩

theorem find_map {μ : Type} (f : ν → μ) (m : OrderedMap κ ν) (k : κ) : (m.map f).find k = (m.find k).map f := by
  simp only [find, map, List.find?_map, Option.map_map]
  rfl

end OrderedMap
