import Mathlib.Data.List.Count
import Mathlib.Data.List.Destutter
import Mathlib.Data.List.Forall2
import Mathlib.Data.List.Nodup
import Mathlib.Tactic.Common

/-! Counting in lists of which one entry changes. -/

namespace Lists

variable {α : Type*}

theorem countP_modify (p : α → Bool) (f : α → α) {l : List α} {n : Nat} {a : α} (h : l[n]? = some a) :
    (l.modify n f).countP p + (p a).toNat = l.countP p + (p (f a)).toNat := by
  induction l generalizing n with
  | nil => simp at h
  | cons x l ih =>
    cases n with
    | zero =>
      obtain rfl : x = a := by simpa using h
      simp only [List.modify_zero_cons, List.countP_cons]
      cases p x <;> cases p (f x) <;> simp
    | succ n =>
      have tail := ih (n := n) (by simpa using h)
      simp only [List.modify_succ_cons, List.countP_cons]
      omega

theorem countP_mem_comm [DecidableEq α] {l m : List α} (first : l.Nodup) (second : m.Nodup) :
    l.countP (· ∈ m) = m.countP (· ∈ l) := by
  rw [List.countP_eq_length_filter, List.countP_eq_length_filter]
  refine ((List.perm_ext_iff_of_nodup (first.filter _) (second.filter _)).mpr fun a => ?_).length_eq
  simp [and_comm]

theorem mem_destutter_ne [DecidableEq α] {l : List α} {x : α} : x ∈ l.destutter (· ≠ ·) ↔ x ∈ l := by
  have kept : ∀ (l : List α) (a : α), x ∈ a :: l → x ∈ l.destutter' (· ≠ ·) a := by
    intro l
    induction l with
    | nil => exact fun a member => member
    | cons b l ih =>
      intro a member
      by_cases differ : a ≠ b
      · rw [List.destutter'_cons_pos _ differ]
        rcases List.mem_cons.mp member with rfl | later
        · exact List.mem_cons_self
        · exact List.mem_cons_of_mem _ (ih b later)
      · rw [List.destutter'_cons_neg _ differ]
        obtain rfl := not_not.mp differ
        rcases List.mem_cons.mp member with rfl | later
        · exact ih x List.mem_cons_self
        · exact ih a later
  refine ⟨fun member => (List.destutter_sublist _ l).subset member, fun member => ?_⟩
  cases l with
  | nil => exact member
  | cons a l => exact kept l a member

theorem filter_eq_singleton {l : List α} (nodup : l.Nodup) {p : α → Bool} {a : α} (member : a ∈ l) (only : ∀ b ∈ l, p b = true ↔ b = a) :
    l.filter p = [a] := by
  have same : ∀ b, b ∈ l.filter p ↔ b ∈ [a] := by
    intro b
    rw [List.mem_filter, List.mem_singleton]
    constructor
    · rintro ⟨inside, holds⟩
      exact (only b inside).mp holds
    · rintro rfl
      exact ⟨member, (only b member).mpr rfl⟩
  exact List.perm_singleton.mp ((List.perm_ext_iff_of_nodup (nodup.filter _) (List.nodup_singleton a)).mpr same)

theorem countP_pos_of_getElem? {p : α → Bool} {l : List α} {n : Nat} {a : α} (h : l[n]? = some a)
    (hit : p a = true) : 0 < l.countP p :=
  List.countP_pos_iff.mpr ⟨a, List.mem_of_getElem? h, hit⟩

theorem forall₂_replace {β : Type*} {R : α → β → Prop} {b b' : β} (imp : ∀ a, R a b → R a b') {l : List α}
    {before after : List β} (h : List.Forall₂ R l (before ++ b :: after)) :
    List.Forall₂ R l (before ++ b' :: after) := by
  induction before generalizing l with
  | nil =>
    cases h with
    | cons head tail => exact .cons (imp _ head) tail
  | cons c before ih =>
    cases h with
    | cons head tail => exact .cons head (ih tail)

theorem forall₂_comp {β γ : Type*} {R : α → β → Prop} {S : β → γ → Prop} {T : α → γ → Prop}
    (imp : ∀ a b c, R a b → S b c → T a c) {l : List α} {m : List β} {n : List γ}
    (first : List.Forall₂ R l m) (second : List.Forall₂ S m n) : List.Forall₂ T l n := by
  induction first generalizing n with
  | nil =>
    cases second
    exact .nil
  | cons head _ ih =>
    cases second with
    | cons head' tail => exact .cons (imp _ _ _ head head') (ih tail)

theorem forall₂_mem_right {β : Type*} {R : α → β → Prop} {l : List α} {m : List β} (h : List.Forall₂ R l m)
    {b : β} (member : b ∈ m) : ∃ a ∈ l, R a b := by
  induction h with
  | nil => cases member
  | cons head _ ih =>
    rcases List.mem_cons.mp member with rfl | later
    · exact ⟨_, List.mem_cons_self, head⟩
    · obtain ⟨a, inside, related⟩ := ih later
      exact ⟨a, List.mem_cons_of_mem _ inside, related⟩

theorem forall₂_of_mapM {β : Type*} {f : α → Option β} {l : List α} {l' : List β} (h : l.mapM f = some l') :
    List.Forall₂ (fun a b => f a = some b) l l' := by
  induction l generalizing l' with
  | nil =>
    cases h
    exact .nil
  | cons a l ih =>
    rw [List.mapM_cons] at h
    obtain ⟨b, first, h⟩ := Option.bind_eq_some_iff.mp h
    obtain ⟨rest, tail, h⟩ := Option.bind_eq_some_iff.mp h
    cases h
    exact .cons first (ih tail)

theorem mapM_isSome {β : Type*} {f : α → Option β} {l : List α} : (l.mapM f).isSome ↔ ∀ a ∈ l, (f a).isSome := by
  induction l with
  | nil => simp
  | cons a l ih =>
    rw [List.mapM_cons, List.forall_mem_cons, ← ih]
    cases f a <;> cases l.mapM f <;> simp

theorem foldlM_isSome {σ : Type*} {f : σ → α → Option σ} {p : α → Prop} (step : ∀ s a, (f s a).isSome ↔ p a) {l : List α}
    (s : σ) : (l.foldlM f s).isSome ↔ ∀ a ∈ l, p a := by
  induction l generalizing s with
  | nil => simp
  | cons a l ih =>
    rw [List.foldlM_cons, List.forall_mem_cons, ← step s a]
    cases f s a with
    | none => simp
    | some t => simp [ih]

theorem foldlM_invariant {σ : Type*} {f : σ → α → Option σ} {I : σ → Prop} {l : List α}
    (step : ∀ s, ∀ a ∈ l, ∀ t, f s a = some t → I s → I t) {s t : σ} (h : l.foldlM f s = some t) (initial : I s) : I t := by
  induction l generalizing s with
  | nil =>
    cases h
    exact initial
  | cons a l ih =>
    rw [List.foldlM_cons] at h
    obtain ⟨u, first, rest⟩ := Option.bind_eq_some_iff.mp h
    obtain ⟨here, later⟩ := List.forall_mem_cons.mp fun a member s => step s a member
    exact ih (fun s a member => later a member s) rest (here s u first initial)

theorem modify_findIdx? {p : α → Bool} {f : α → α} {l : List α} {i : Nat} (h : l.findIdx? p = some i)
    (unique : l.Pairwise fun a b => p a = true → p b = false) :
    l.modify i f = l.map fun a => if p a then f a else a := by
  induction l generalizing i with
  | nil => simp at h
  | cons a l ih =>
    rw [List.pairwise_cons] at unique
    cases hit : p a with
    | true =>
      obtain rfl : i = 0 := by simpa [List.findIdx?_cons, hit] using h.symm
      have rest : l.map (fun b => if p b then f b else b) = l := by
        refine (List.map_congr_left fun b member => ?_).trans (List.map_id l)
        simp [unique.1 b member hit]
      simp [hit, rest]
    | false =>
      obtain ⟨j, found, rfl⟩ : ∃ j, l.findIdx? p = some j ∧ j + 1 = i := by
        simpa [List.findIdx?_cons, hit] using h
      simp [hit, ih found unique.2]

theorem forall₂_filterMap_range {β : Type*} {R : α → β → Prop} {l : List α} {f : ℕ → Option β}
    (found : ∀ i a, l[i]? = some a → ∃ b, f i = some b ∧ R a b) :
    List.Forall₂ R l ((List.range l.length).filterMap f) := by
  induction l generalizing f with
  | nil => exact .nil
  | cons a l ih =>
    obtain ⟨b, here, related⟩ := found 0 a rfl
    rw [List.length_cons, List.range_succ_eq_map, List.filterMap_cons, here, List.filterMap_map]
    exact .cons related (ih fun i a later => found (i + 1) a (by simpa using later))

theorem forall₂_mem_left {β : Type*} {R : α → β → Prop} {l : List α} {m : List β} (h : List.Forall₂ R l m)
    {a : α} (member : a ∈ l) : ∃ b ∈ m, R a b := forall₂_mem_right h.flip member

theorem forall₂_iff_forall_mem {β : Type*} {R S : α → β → Prop} {p : α → Prop} {l : List α} {m : List β}
    (h : List.Forall₂ R l m) (iff : ∀ a ∈ l, ∀ b, R a b → (S a b ↔ p a)) :
    List.Forall₂ S l m ↔ ∀ a ∈ l, p a := by
  induction h with
  | nil => simp
  | cons head _ ih =>
    rw [List.forall₂_cons, List.forall_mem_cons, iff _ List.mem_cons_self _ head,
      ih fun a later => iff a (List.mem_cons_of_mem _ later)]

theorem forall₂_imp_of_mem {β : Type*} {R S : α → β → Prop} {l : List α} {m : List β} (h : List.Forall₂ R l m)
    (imp : ∀ a b, a ∈ l → R a b → S a b) : List.Forall₂ S l m := by
  induction h with
  | nil => exact .nil
  | cons head _ ih =>
    exact .cons (imp _ _ List.mem_cons_self head) (ih fun a b later => imp a b (List.mem_cons_of_mem _ later))

theorem forall₂_getLast {β : Type*} {R : α → β → Prop} {l : List α} {a : α} {m : List β} (h : List.Forall₂ R (l ++ [a]) m) :
    ∃ b, m.getLast? = some b ∧ R a b := by
  have reversed := List.forall₂_reverse_iff.mpr h
  rw [List.reverse_append] at reversed
  obtain ⟨b, rest, related, -, back⟩ := List.forall₂_cons_left_iff.mp reversed
  exact ⟨b, by rw [← List.head?_reverse, back]; rfl, related⟩

section Erase

variable {β : Type*} [DecidableEq α] {R : α → β → Prop} {p : α → Bool} {q : β → Bool} {l : List α} {m : List β}

theorem forall₂_erase (h : List.Forall₂ R l m) (agree : ∀ a b, R a b → p a = q b) (nodup : l.Nodup) {x : α}
    (found : l.find? p = some x) : List.Forall₂ R (l.erase x) (m.eraseP q) := by
  induction h with
  | nil => cases found
  | @cons a b l m head tail ih =>
    rw [List.nodup_cons] at nodup
    cases hit : p a with
    | true =>
      rw [List.find?_cons_of_pos hit] at found
      cases found
      rw [List.erase_cons_head, List.eraseP_cons_of_pos (by rw [← agree x b head, hit])]
      exact tail
    | false =>
      rw [List.find?_cons_of_neg (by simp [hit])] at found
      have other : a ≠ x := fun same => nodup.1 (same ▸ List.mem_of_find?_eq_some found)
      rw [List.erase_cons_tail (by simpa using other), List.eraseP_cons_of_neg (by simp [← agree a b head, hit])]
      exact .cons head (ih nodup.2 found)

omit [DecidableEq α] in
theorem eraseP_of_find?_none (h : List.Forall₂ R l m) (agree : ∀ a b, R a b → p a = q b)
    (missing : l.find? p = none) : m.eraseP q = m := by
  apply List.eraseP_of_forall_not
  intro b member hit
  obtain ⟨a, inside, related⟩ := forall₂_mem_right h member
  exact List.find?_eq_none.mp missing a inside (by rw [agree a b related, hit])

end Erase

/-! ### Folds of writes -/

/-- What is read under one key after writes under each key of the list, when a write changes what is read under its own key only. -/
theorem foldl_read {σ ν : Type*} [DecidableEq α] (read : σ → ν) (f : ν → ν) (key : α) {l : List α} (nodup : l.Nodup) (write : σ → α → σ)
    (one : ∀ s, ∀ k ∈ l, read (write s k) = if k = key then f (read s) else read s) (s : σ) :
    read (l.foldl write s) = if key ∈ l then f (read s) else read s := by
  induction l generalizing s with
  | nil => simp
  | cons k l ih =>
    obtain ⟨new, nodup⟩ := List.nodup_cons.mp nodup
    rw [List.foldl_cons, ih nodup fun s k member => one s k (List.mem_cons_of_mem _ member), one s k List.mem_cons_self]
    by_cases same : k = key
    · subst same
      simp [new]
    · have other : key ≠ k := fun h => same h.symm
      simp [same, other]

/-! ### Splitting -/

theorem length_splitOn [DecidableEq α] (l : List α) (a : α) : (l.splitOn a).length = l.count a + 1 := by
  induction l with
  | nil => rfl
  | cons x l ih =>
    rw [List.splitOn_cons_eq_if_modifyHead, List.count_cons]
    split
    · rw [List.length_cons, ih]
    · rw [List.length_modifyHead, ih, Nat.add_zero]

theorem infix_intercalate {pieces : List (List α)} {piece : List α} (sep : List α) (member : piece ∈ pieces) :
    piece <:+: sep.intercalate pieces := by
  induction pieces with
  | nil => cases member
  | cons first rest ih =>
    cases rest with
    | nil =>
      obtain rfl := List.mem_singleton.mp member
      have single : sep.intercalate [piece] = piece := List.intercalate_singleton
      exact ⟨[], [], by rw [single, List.nil_append, List.append_nil]⟩
    | cons second rest =>
      rw [List.intercalate_cons_cons]
      rcases List.mem_cons.mp member with rfl | later
      · rw [List.append_assoc]
        exact (List.prefix_append _ _).isInfix
      · exact (ih later).trans (List.suffix_append _ _).isInfix

theorem infix_of_mem_splitOn [DecidableEq α] {l piece : List α} {a : α} (member : piece ∈ l.splitOn a) : piece <:+: l := by
  have inside := infix_intercalate [a] member
  rwa [List.intercalate_splitOn] at inside

end Lists
