import Movid.Graph.Removal
import Movid.Lib.Lists
import Movid.Preset.Ids
import Movid.Server.App

/-!
# The ids that the program hands out

An id is the name of the type and a number from a counter. `Registry` keeps the types and the
numbers of the modules in the pipeline; it says when two ids are the same.
-/

namespace Movid.Preset

variable {P : Platform} {w : Net (Config P)} {a : App P}

/-! ### Types and numbers -/

/-- What the counter is when the id of the module is made. The trackers have made one for their
base class by then. -/
def ModuleType.number (idcount : UInt32) : ModuleType → UInt32
  | greedyBlobTracker | munkresBlobTracker => idcount + 1
  | _ => idcount

/-- How many ids the constructor makes. -/
def ModuleType.taken : ModuleType → UInt32
  | dump => 0
  | greedyBlobTracker | munkresBlobTracker => 2
  | _ => 1

structure Entry where
  type : ModuleType
  number : UInt32
  deriving DecidableEq

def Entry.digits (e : Entry) : Str := Text.showInt e.number.toNat

/-- A Dump module has no id. -/
def Entry.id (e : Entry) : Str := if e.type = .dump then [] else e.type.name ++ e.digits

/-- The requests that make or delete modules. -/
inductive IdRequest where
  | factoryList
  | create (objectname : Option Str)
  | remove (objectname : Option Str)

def IdRequest.toRequest : IdRequest → Request P
  | factoryList => .factoryList
  | create objectname => .create objectname
  | remove objectname => .remove objectname

structure Registry where
  entries : List Entry
  idcount : UInt32

namespace Registry

variable (r : Registry)

def factoryList : Registry := { r with idcount := ModuleType.list.foldl (fun n t => n + t.taken) r.idcount }

def create (objectname : Option Str) : Registry :=
  match objectname.bind ModuleType.ofName with
  | none => r
  | some t => { entries := r.entries ++ [⟨t, t.number r.idcount⟩], idcount := r.idcount + t.taken }

def remove (objectname : Option Str) : Registry :=
  match objectname with
  | none => r
  | some id => { r with entries := r.entries.eraseP (·.id = id) }

def step : IdRequest → Registry
  | .factoryList => r.factoryList
  | .create objectname => r.create objectname
  | .remove objectname => r.remove objectname

end Registry

/-- Two ids that are the same: a `Tuio2` module may have the id of a `Tuio` module whose number
starts with the digit 2. -/
def Clash (e e' : Entry) : Prop :=
  (e.type = e'.type ∧ e.number = e'.number) ∨
  (e.type = .tuio2 ∧ e'.type = .tuio ∧ e'.digits = '2' :: e.digits) ∨
  (e.type = .tuio ∧ e'.type = .tuio2 ∧ e.digits = '2' :: e'.digits)

instance (e e' : Entry) : Decidable (Clash e e') := inferInstanceAs (Decidable (_ ∨ _))

/-! ### When ids are the same -/

def ModuleType.base : ModuleType → Str
  | tuio2 => "Tuio".toList
  | t => t.name

def Entry.tail (e : Entry) : Str := if e.type = .tuio2 then '2' :: e.digits else e.digits

theorem digits_isDigit (e : Entry) : ∀ c ∈ e.digits, c.isDigit = true := fun _ member => Text.isDigit_of_mem_toDigits member

theorem digits_inj {e e' : Entry} (h : e.digits = e'.digits) : e.number = e'.number := by
  have same := congrArg Text.readInt h
  rw [Entry.digits, Entry.digits, Text.readInt_showInt, Text.readInt_showInt] at same
  exact UInt32.toNat_inj.mp (Int.ofNat.inj same)

theorem id_eq_base (e : Entry) (notDump : e.type ≠ .dump) : e.id = e.type.base ++ e.tail := by
  obtain ⟨t, n⟩ := e
  rw [Entry.id, if_neg notDump, Entry.tail]
  cases t <;> rfl

theorem base_last (t : ModuleType) : ∃ before c, t.base = before ++ [c] ∧ c.isDigit = false := by
  have last : t.base ≠ [] ∧ (t.base.getLast?.map Char.isDigit) = some false := by cases t <;> decide
  obtain ⟨nonempty, noDigit⟩ := last
  rw [List.getLast?_eq_getLast_of_ne_nil nonempty] at noDigit
  exact ⟨t.base.dropLast, t.base.getLast nonempty, (List.dropLast_append_getLast nonempty).symm, by simpa using noDigit⟩

/-- A text ends in one way only with digits after something else. -/
theorem split_digits {before before' ds ds' : Str} {c c' : Char} (h : before ++ [c] ++ ds = before' ++ [c'] ++ ds')
    (noDigit : c.isDigit = false) (noDigit' : c'.isDigit = false) (digits : ∀ d ∈ ds, d.isDigit = true)
    (digits' : ∀ d ∈ ds', d.isDigit = true) : before ++ [c] = before' ++ [c'] ∧ ds = ds' := by
  have tail (x : Str) {y : Char} (z : Str) (last : y.isDigit = false) (all : ∀ d ∈ z, d.isDigit = true) :
      (x ++ [y] ++ z).reverse.takeWhile Char.isDigit = z.reverse := by
    have shape : (x ++ [y] ++ z).reverse = z.reverse ++ y :: x.reverse := by simp
    rw [shape, List.takeWhile_append_of_pos (by simpa using all)]
    simp [last]
  have same : ds.reverse = ds'.reverse := by rw [← tail before ds noDigit digits, h, tail before' ds' noDigit' digits']
  have same := List.reverse_injective same
  subst same
  exact ⟨List.append_cancel_right h, rfl⟩

theorem base_inj {t t' : ModuleType} (h : t.base = t'.base) :
    t = t' ∨ (t = .tuio2 ∧ t' = .tuio) ∨ (t = .tuio ∧ t' = .tuio2) := by
  have named {t t' : ModuleType} (h : t.name = t'.name) : t = t' := by
    have found := ModuleType.ofName_name t
    rw [h, ModuleType.ofName_name] at found
    exact (Option.some.inj found).symm
  have plain {t : ModuleType} (other : t ≠ .tuio2) : t.base = t.name := by
    cases t <;> first | rfl | exact absurd rfl other
  by_cases first : t = .tuio2
  · by_cases second : t' = .tuio2
    · exact Or.inl (first.trans second.symm)
    · rw [first, plain second] at h
      have tuio : ModuleType.tuio.name = t'.name := h
      exact Or.inr (Or.inl ⟨first, (named tuio).symm⟩)
  · by_cases second : t' = .tuio2
    · rw [second, plain first] at h
      have tuio : t.name = ModuleType.tuio.name := h
      exact Or.inr (Or.inr ⟨named tuio, second⟩)
    · rw [plain first, plain second] at h
      exact Or.inl (named h)

theorem tail_isDigit (e : Entry) : ∀ c ∈ e.tail, c.isDigit = true := by
  unfold Entry.tail
  split
  · exact List.forall_mem_cons.mpr ⟨by decide, digits_isDigit e⟩
  · exact digits_isDigit e

theorem id_eq_iff {e e' : Entry} (notDump : e.type ≠ .dump) (notDump' : e'.type ≠ .dump) :
    e.id = e'.id ↔ Clash e e' := by
  rw [id_eq_base e notDump, id_eq_base e' notDump']
  constructor
  · intro h
    obtain ⟨before, c, first, noDigit⟩ := base_last e.type
    obtain ⟨before', c', second, noDigit'⟩ := base_last e'.type
    rw [first, second] at h
    obtain ⟨bases, tails⟩ := split_digits h noDigit noDigit' (tail_isDigit e) (tail_isDigit e')
    rw [← first, ← second] at bases
    unfold Entry.tail at tails
    rcases base_inj bases with same | ⟨left, right⟩ | ⟨left, right⟩
    · refine Or.inl ⟨same, digits_inj ?_⟩
      rw [same] at tails
      split at tails
      · exact List.tail_eq_of_cons_eq tails
      · exact tails
    · refine Or.inr (Or.inl ⟨left, right, ?_⟩)
      rw [left, right] at tails
      exact tails.symm
    · refine Or.inr (Or.inr ⟨left, right, ?_⟩)
      rw [left, right] at tails
      exact tails
  · rintro (⟨types, numbers⟩ | ⟨left, right, digits⟩ | ⟨left, right, digits⟩)
    · unfold Entry.tail Entry.digits
      rw [types, numbers]
    · unfold Entry.tail
      rw [left, right, digits]
      rfl
    · unfold Entry.tail
      rw [left, right, digits]
      rfl

/-- No id is missing and no two ids are the same. -/
structure Sound (entries : List Entry) : Prop where
  named : ∀ e ∈ entries, e.type ≠ .dump
  apart : entries.Pairwise fun e e' => ¬ Clash e e'

theorem id_eq_nil {e : Entry} : e.id = [] ↔ e.type = .dump := by
  unfold Entry.id
  split
  · rename_i dump
    exact ⟨fun _ => dump, fun _ => rfl⟩
  · rename_i other
    refine ⟨fun h => ?_, fun h => absurd h other⟩
    exact absurd (List.append_eq_nil_iff.mp h).1 (ModuleType.name_token e.type).1

theorem sound_iff {entries : List Entry} :
    Sound entries ↔ (entries.map Entry.id).Nodup ∧ ∀ e ∈ entries, e.id ≠ [] := by
  have named : (∀ e ∈ entries, e.id ≠ []) ↔ ∀ e ∈ entries, e.type ≠ .dump :=
    forall₂_congr fun e _ => not_congr id_eq_nil
  rw [named]
  constructor
  · rintro ⟨named, apart⟩
    refine ⟨List.pairwise_map.mpr (apart.imp_of_mem fun first second clear same => clear ?_), named⟩
    exact (id_eq_iff (named _ first) (named _ second)).mp same
  · rintro ⟨distinct, named⟩
    refine ⟨named, (List.pairwise_map.mp distinct).imp_of_mem fun first second different clash => different ?_⟩
    exact (id_eq_iff (named _ first) (named _ second)).mpr clash

/-! ### The program keeps the registry -/

theorem createId_eq (t : ModuleType) (counters : Counters) : t.createId counters =
    (Entry.id ⟨t, t.number counters.idcount⟩, { counters with idcount := counters.idcount + t.taken }) := by
  have two : counters.idcount + 1 + 1 = counters.idcount + 2 := by
    rw [UInt32.add_assoc]
    rfl
  cases t with
  | dump => simp [ModuleType.createId, Entry.id, ModuleType.taken]
  | greedyBlobTracker =>
    rw [ModuleType.taken, ← two]
    rfl
  | munkresBlobTracker =>
    rw [ModuleType.taken, ← two]
    rfl
  | _ => rfl

theorem set_id (c : Config P) (id : Str) (writable : (c.property "id".toList).readOnly = false) :
    (c.set "id".toList id).id = id := by
  unfold Config.id
  rw [Config.property_set, if_pos rfl, Property.set, writable, c.property_type, ModuleType.declaredType_id]
  rfl

theorem construct_eq (t : ModuleType) (counters : Counters) :
    (t.construct P counters).1.id = Entry.id ⟨t, t.number counters.idcount⟩ ∧
      (t.construct P counters).1.type = t ∧ (t.construct P counters).2.idcount = counters.idcount + t.taken := by
  have withId (id : Str) : ((t.blank P).set "id".toList id).id = id :=
    set_id _ id ((constructed_blank t).plain "id".toList).2
  unfold ModuleType.construct
  rw [createId_eq]
  simp only []
  split
  · refine ⟨?_, rfl, rfl⟩
    unfold Config.id
    rw [Config.property_set, if_neg (by decide)]
    exact withId _
  · exact ⟨withId _, rfl, rfl⟩

def Fits (w : Net (Config P)) (x : ModuleRef) (e : Entry) : Prop :=
  ∃ c, w.state x = some c ∧ c.id = e.id ∧ c.type = e.type

/-- The modules of the pipeline are those of the registry, in the same order. -/
structure Matches (p : Program P) (r : Registry) : Prop where
  entries : List.Forall₂ (Fits p.net) p.net.elements r.entries
  nodup : p.net.elements.Nodup
  below : ∀ x ∈ p.net.elements, x < p.net.next
  idcount : p.counters.idcount = r.idcount

theorem foldl_construct_idcount (types : List ModuleType) (counters : Counters) :
    (types.foldl (fun c t => (t.construct P c).2) counters).idcount =
      types.foldl (fun n t => n + t.taken) counters.idcount := by
  induction types generalizing counters with
  | nil => rfl
  | cons t types ih =>
    rw [List.foldl_cons, List.foldl_cons, ih, (construct_eq t counters).2.2]

theorem matches_factoryList {r : Registry} (listed : Matches a.toProgram r) :
    Matches a.webFactoryList.toProgram r.factoryList := by
  unfold App.webFactoryList Registry.factoryList
  refine ⟨listed.entries, listed.nodup, listed.below, ?_⟩
  rw [foldl_construct_idcount, listed.idcount]

theorem matches_create {p : Program P} {r : Registry} (listed : Matches p r) (objectname : Option Str) :
    Matches (p.webPipelineCreate objectname) (r.create objectname) := by
  unfold Program.webPipelineCreate Registry.create
  cases objectname.bind ModuleType.ofName with
  | none => exact listed
  | some t =>
    obtain ⟨id, type, counters⟩ := construct_eq (P := P) t p.counters
    have state := Net.webPipelineCreate_state p.net (t.spec P (t.construct P p.counters).1)
    simp only []
    refine ⟨List.rel_append (Lists.forall₂_imp_of_mem listed.entries fun x e inside fits => ?_)
      (.cons ⟨(t.construct P p.counters).1, ?_, ?_, type⟩ .nil), ?_, fun x inside => ?_, ?_⟩
    · unfold Fits
      rw [state, if_neg (Nat.ne_of_lt (listed.below x inside))]
      exact fits
    · exact (state _).trans (if_pos rfl)
    · rw [id, listed.idcount]
    · exact List.nodup_append.mpr ⟨listed.nodup, List.nodup_singleton _, fun x old y new same => by
        rw [List.mem_singleton.mp new] at same
        exact Nat.ne_of_lt (listed.below x old) same⟩
    · rcases List.mem_append.mp inside with old | new
      · exact Nat.lt_succ_of_lt (listed.below x old)
      · exact List.mem_singleton.mp new ▸ Nat.lt_succ_self _
    · rw [← listed.idcount]
      exact counters

theorem matches_remove {r : Registry} (listed : Matches a.toProgram r) (objectname : Option Str) :
    Matches (a.webPipelineRemove objectname).toProgram (r.remove objectname) := by
  unfold App.webPipelineRemove Registry.remove
  cases objectname with
  | none => exact listed
  | some id =>
    have agree (x : ModuleRef) (e : Entry) (fits : Fits a.net x e) :
        decide ((a.net.modules x).map (·.state.id) = some id) = decide (e.id = id) := by
      obtain ⟨c, state, same, _⟩ := fits
      obtain ⟨m, live, rfl⟩ := Option.map_eq_some_iff.mp state
      rw [live, Option.map_some, same]
      simp
    simp only [Option.bind_some]
    cases found : getModuleById a.net id with
    | none =>
      refine ⟨?_, listed.nodup, listed.below, listed.idcount⟩
      simp only []
      rw [Lists.eraseP_of_find?_none listed.entries agree found]
      exact listed.entries
    | some x =>
      have inside : x ∈ a.net.elements := List.mem_of_find?_eq_some found
      obtain ⟨m, live⟩ : ∃ m, a.net.modules x = some m := by
        have known := List.find?_some found
        cases live : a.net.modules x with
        | none => simp [live] at known
        | some m => exact ⟨m, rfl⟩
      obtain ⟨state, elements, next⟩ := Net.webPipelineRemove_state a.net live inside
      simp only []
      refine ⟨?_, ?_, fun y still => ?_, listed.idcount⟩
      · rw [elements]
        apply Lists.forall₂_imp_of_mem (Lists.forall₂_erase listed.entries agree listed.nodup found)
        intro y e still fits
        unfold Fits
        rw [state, if_neg (listed.nodup.mem_erase_iff.mp still).1]
        exact fits
      · rw [elements]
        exact listed.nodup.erase x
      · rw [elements] at still
        rw [next]
        exact listed.below y (List.mem_of_mem_erase still)

theorem matches_step {r : Registry} (listed : Matches a.toProgram r) (request : IdRequest) :
    Matches (a.step request.toRequest).toProgram (r.step request) := by
  cases request with
  | factoryList => exact matches_factoryList listed
  | create objectname => exact matches_create listed objectname
  | remove objectname => exact matches_remove listed objectname

theorem matches_run {r : Registry} (listed : Matches a.toProgram r) (requests : List IdRequest) :
    Matches (Machine.run App.step a (requests.map IdRequest.toRequest)).toProgram
      (Machine.run Registry.step r requests) := by
  induction requests generalizing a r with
  | nil => exact listed
  | cons request requests ih => exact ih (matches_step listed request)

/-! ### Every module has its own id -/

/-- The ids of the pipeline are there, no two are the same, and each module is found by its id. -/
structure Addressable (w : Net (Config P)) : Prop where
  distinct : ((configs w).map (·.id)).Nodup
  named : ∀ c ∈ configs w, c.id ≠ []
  found : ∀ r ∈ w.elements, ∃ c, w.state r = some c ∧ getModuleById w c.id = some r

theorem matches_ids {p : Program P} {r : Registry} (listed : Matches p r) :
    (configs p.net).map (·.id) = r.entries.map Entry.id := by
  have entries := listed.entries
  unfold configs
  generalize p.net.elements = elements at entries
  generalize r.entries = es at entries
  induction entries with
  | nil => rfl
  | cons first _ ih =>
    obtain ⟨c, state, id, _⟩ := first
    have state : (p.net.modules _).map (·.state) = some c := state
    rw [List.filterMap_cons, state, List.map_cons, List.map_cons, ih, id]

theorem addressable_iff {p : Program P} {r : Registry} (listed : Matches p r) :
    Addressable p.net ↔ Sound r.entries := by
  have ids := matches_ids listed
  have named : (∀ c ∈ configs p.net, c.id ≠ []) ↔ ∀ e ∈ r.entries, e.id ≠ [] := by
    have left := List.forall_mem_map (l := configs p.net) (f := (·.id)) (P := (· ≠ []))
    have right := List.forall_mem_map (l := r.entries) (f := Entry.id) (P := (· ≠ []))
    rw [← left, ← right, ids]
  rw [sound_iff, ← ids, ← named]
  refine ⟨fun h => ⟨h.distinct, h.named⟩, fun h => ⟨h.1, h.2, fun x inside => ?_⟩⟩
  obtain ⟨e, _, c, state, _⟩ := Lists.forall₂_mem_left listed.entries inside
  obtain ⟨m, live, rfl⟩ := Option.map_eq_some_iff.mp state
  refine ⟨m.state, state, getModuleById_of_nodup (fun y other => ?_) h.1 inside live⟩
  obtain ⟨_, _, _, state, _⟩ := Lists.forall₂_mem_left listed.entries other
  obtain ⟨m, live, _⟩ := Option.map_eq_some_iff.mp state
  exact ⟨m, live⟩

theorem matches_boot (counters : Counters) (delay : Int32) (started : Bool) :
    Matches (App.boot (Net.empty : Net (Config P)) counters delay started).toProgram ⟨[], counters.idcount⟩ :=
  ⟨.nil, List.nodup_nil, fun _ inside => (nomatch inside), rfl⟩

/-- After any requests the modules have their own ids exactly when there is no Dump module and no
two of them clash. -/
theorem run_addressable_iff (counters : Counters) (delay : Int32) (started : Bool) (requests : List IdRequest) :
    Addressable (Machine.run App.step (App.boot (Net.empty : Net (Config P)) counters delay started)
      (requests.map IdRequest.toRequest)).net ↔
    Sound (Machine.run Registry.step ⟨[], counters.idcount⟩ requests).entries :=
  addressable_iff (matches_run (matches_boot counters delay started) requests)

/-- A Dump module; and a `Tuio2` module that is followed by nineteen others and a `Tuio` module. -/
theorem run_not_addressable :
    ¬ Addressable (Machine.run App.step (App.boot (Net.empty : Net (Config Platform.whole)) ⟨1, 0⟩ 5 false)
      ([IdRequest.create (some "Dump".toList)].map IdRequest.toRequest)).net ∧
    ¬ Addressable (Machine.run App.step (App.boot (Net.empty : Net (Config Platform.whole)) ⟨1, 0⟩ 5 false)
      ((IdRequest.create (some "Tuio2".toList) :: (List.replicate 19 (IdRequest.create (some "Erode".toList)) ++
        [IdRequest.create (some "Tuio".toList)])).map IdRequest.toRequest)).net := by
  constructor
  · rw [addressable_iff (matches_run (matches_boot ⟨1, 0⟩ 5 false) _)]
    exact fun sound => sound.named ⟨.dump, 1⟩ (by decide) rfl
  · rw [addressable_iff (matches_run (matches_boot ⟨1, 0⟩ 5 false) _)]
    exact fun sound => absurd sound.apart (by decide)

end Movid.Preset
