import Mathlib.Data.List.Induction
import Movid.Osc.Message

/-!
# Messages as an address and a list of arguments

Whatever arguments are added, the arrays and the type tag tell their order, and the bytes are the address, the tags and the arguments one
after the other.
-/

namespace Movid.Osc

/-- Its bytes are read as the blob itself. -/
def WOscBlob.Whole (b : WOscBlob) : Prop := WOscBlob.ofBinary b.buffer = .ok b

/-- What can be told from its bytes. -/
def Arg.Clean : Arg → Prop
  | .text s => 0 ∉ s
  | .blob b => b.Whole
  | _ => True

def Arg.tag : Arg → Byte
  | .int _ => ch 'i'
  | .float _ => ch 'f'
  | .text _ => ch 's'
  | .blob _ => ch 'b'

def Arg.bytes : Arg → List Byte
  | .int n => writeBuffer n
  | .float x => writeBuffer x
  | .text s => pad s
  | .blob b => b.buffer

def ints (args : List Arg) : List Word := args.filterMap fun arg => match arg with
  | .int n => some n
  | _ => none

def floats (args : List Arg) : List Word := args.filterMap fun arg => match arg with
  | .float x => some x
  | _ => none

def strings (args : List Arg) : List (List Byte) := args.filterMap fun arg => match arg with
  | .text s => some (pad s)
  | _ => none

def blobs (args : List Arg) : List WOscBlob := args.filterMap fun arg => match arg with
  | .blob b => some b
  | _ => none

def typeTag (args : List Arg) : List Byte := ch ',' :: args.map Arg.tag

/-- The members of the message with these arguments. -/
def members (address : List Byte) (args : List Arg) : Members where
  address := pad address
  typeTag := pad (typeTag args)
  floats := floats args
  ints := ints args
  strings := strings args
  blobs := blobs args

def encode (address : List Byte) (args : List Arg) : List Byte := pad address ++ pad (typeTag args) ++ args.flatMap Arg.bytes

def message (address : List Byte) (args : List Arg) : WOscMessage :=
  { members address args with buffer := encode address args, bufferLen := (encode address args).length }

/-- The array of blobs is as long as the one of strings, so a blob that is not the first has to come after as many strings. -/
def Arg.Fits (done : List Arg) : Arg → Prop
  | .blob _ => blobs done = [] ∨ (blobs done).length + 1 ≤ (strings done).length
  | _ => True

def Room (args : List Arg) : Prop := ∀ done arg later, args = done ++ arg :: later → arg.Fits done

def build (address : List Byte) (args : List Arg) : Except Failure WOscMessage := (create address).bind fun m => args.foldlM (·.add ·) m

/-! ### The loops over the type tag -/

theorem tagOf_tag (arg : Arg) : tagOf arg.tag = match arg with
    | .int _ => .int
    | .float _ => .float
    | .text _ => .string
    | .blob _ => .blob := by
  cases arg with
  | int n => exact (by decide : tagOf (ch 'i') = .int)
  | float x => exact (by decide : tagOf (ch 'f') = .float)
  | text s => exact (by decide : tagOf (ch 's') = .string)
  | blob b => exact (by decide : tagOf (ch 'b') = .blob)

theorem tag_ne_zero (arg : Arg) : arg.tag ≠ 0 := by
  cases arg with
  | int n => exact (by decide : ch 'i' ≠ 0)
  | float x => exact (by decide : ch 'f' ≠ 0)
  | text s => exact (by decide : ch 's' ≠ 0)
  | blob b => exact (by decide : ch 'b' ≠ 0)

theorem tagOf_comma : tagOf (ch ',') = .skip := by decide

theorem tagOf_zero : tagOf 0 = .stop := by decide

theorem argsLen_tags (args : List Arg) (zeros : List Byte) :
    argsLen (args.map Arg.tag ++ 0 :: zeros) (strings args) (blobs args) = some (args.flatMap Arg.bytes).length := by
  induction args with
  | nil => rw [List.map_nil, List.nil_append, argsLen, tagOf_zero]; rfl
  | cons arg args ih =>
    rw [List.map_cons, List.cons_append, argsLen, tagOf_tag, List.flatMap_cons, List.length_append]
    cases arg with
    | int n => exact (congrArg (Option.map _) ih).trans (by rw [Option.map_some, Arg.bytes, length_writeBuffer])
    | float x => exact (congrArg (Option.map _) ih).trans (by rw [Option.map_some, Arg.bytes, length_writeBuffer])
    | text s => exact congrArg (Option.map _) ih
    | blob b => exact congrArg (Option.map _) ih

theorem argsBuffer_tags (args : List Arg) (zeros : List Byte) :
    argsBuffer (args.map Arg.tag ++ 0 :: zeros) (floats args) (ints args) (strings args) (blobs args) = some (args.flatMap Arg.bytes) := by
  induction args with
  | nil => rw [List.map_nil, List.nil_append, argsBuffer, tagOf_zero]; rfl
  | cons arg args ih =>
    rw [List.map_cons, List.cons_append, argsBuffer, tagOf_tag, List.flatMap_cons]
    cases arg <;> exact congrArg (Option.map _) ih

/-- The bytes are generated, and they fill exactly the buffer that was allocated. -/
theorem generate_members (address : List Byte) (args : List Arg) :
    generateBufferFromMembers (members address args) = .ok (message address args) := by
  obtain ⟨zeros, tags⟩ := pad_eq (typeTag args)
  have lens : argsLen (members address args).typeTag (members address args).strings (members address args).blobs =
      some (args.flatMap Arg.bytes).length := by
    rw [members, tags, typeTag, List.cons_append, argsLen, tagOf_comma]
    exact argsLen_tags args _
  have bytes : argsBuffer (members address args).typeTag (members address args).floats (members address args).ints
      (members address args).strings (members address args).blobs = some (args.flatMap Arg.bytes) := by
    rw [members, tags, typeTag, List.cons_append, argsBuffer, tagOf_comma]
    exact argsBuffer_tags args _
  unfold generateBufferFromMembers
  rw [lens, bytes]
  simp only [within, Except.bind, Nat.lt_irrefl, if_false, message, encode, List.length_append, members, Nat.add_assoc]

/-! ### Adding -/

theorem zero_not_mem_typeTag (args : List Arg) : 0 ∉ typeTag args := by
  unfold typeTag
  rw [List.mem_cons, List.mem_map]
  rintro (none | ⟨arg, _, zero⟩)
  · exact absurd none (by decide)
  · exact tag_ne_zero arg zero

theorem typeTag_add (args : List Arg) (arg : Arg) : append (pad (typeTag args)) (pad [arg.tag]) = pad (typeTag (args ++ [arg])) := by
  have own : 0 ∉ [arg.tag] := fun member => tag_ne_zero arg (List.mem_singleton.mp member).symm
  rw [append_pad (zero_not_mem_typeTag args) own]
  simp [typeTag]

theorem members_add (address : List Byte) (args : List Arg) (arg : Arg) :
    (arg.Fits args → (members address args).add arg = .ok (members address (args ++ [arg]))) ∧
      (¬ arg.Fits args → (members address args).add arg = .error .undefined) := by
  have tags := typeTag_add args arg
  cases arg with
  | int n =>
    refine ⟨fun _ => ?_, fun none => absurd trivial none⟩
    simp only [Members.add, members]
    rw [show ch 'i' = (Arg.int n).tag from rfl, tags]
    simp [ints, floats, strings, blobs]
  | float x =>
    refine ⟨fun _ => ?_, fun none => absurd trivial none⟩
    simp only [Members.add, members]
    rw [show ch 'f' = (Arg.float x).tag from rfl, tags]
    simp [ints, floats, strings, blobs]
  | text s =>
    refine ⟨fun _ => ?_, fun none => absurd trivial none⟩
    simp only [Members.add, members]
    rw [show ch 's' = (Arg.text s).tag from rfl, tags]
    simp [ints, floats, strings, blobs]
  | blob b =>
    have full : (blobs args ≠ [] ∧ (strings args).length < (blobs args).length + 1) ↔ ¬ Arg.Fits args (.blob b) := by
      unfold Arg.Fits
      rw [not_or, Nat.not_le]
    simp only [Members.add, members]
    constructor
    · intro fits
      refine (if_neg (mt full.mp (not_not.mpr fits))).trans ?_
      rw [show ch 'b' = (Arg.blob b).tag from rfl, tags]
      simp [ints, floats, strings, blobs]
    · intro none
      exact if_pos (full.mpr none)

theorem add_message {address : List Byte} {args : List Arg} {arg : Arg} (fits : arg.Fits args) {m : WOscMessage}
    (same : m.toMembers = members address args) : m.add arg = .ok (message address (args ++ [arg])) := by
  rw [WOscMessage.add, same, (members_add address args arg).1 fits]
  exact generate_members address _

theorem add_fails {address : List Byte} {args : List Arg} {arg : Arg} (full : ¬ arg.Fits args) {m : WOscMessage}
    (same : m.toMembers = members address args) : m.add arg = .error .undefined := by
  rw [WOscMessage.add, same, (members_add address args arg).2 full]
  rfl

theorem room_concat {args : List Arg} {arg : Arg} : Room (args ++ [arg]) ↔ Room args ∧ arg.Fits args := by
  constructor
  · intro room
    refine ⟨fun done a later shape => room done a (later ++ [arg]) ?_, room args arg [] rfl⟩
    rw [shape, List.append_assoc, List.cons_append]
  · rintro ⟨room, fits⟩ done a later shape
    rcases List.eq_nil_or_concat later with rfl | ⟨later, last, rfl⟩
    · obtain ⟨rfl, same⟩ := List.append_inj' shape rfl
      obtain rfl := List.head_eq_of_cons_eq same
      exact fits
    · rw [List.concat_eq_append, ← List.cons_append, ← List.append_assoc] at shape
      obtain ⟨front, _⟩ := List.append_inj' shape rfl
      exact room done a later front

theorem create_message {address : List Byte} (slash : address.head? = some (ch '/')) : create address = .ok (message address []) := by
  rw [create, if_neg (not_not.mpr slash)]
  exact generate_members address []

/-- A message can be built exactly when its blobs have room, and then it is the one with these arguments. -/
theorem build_eq {address : List Byte} (slash : address.head? = some (ch '/')) (args : List Arg) :
    (Room args → build address args = .ok (message address args)) ∧ (¬ Room args → build address args = .error .undefined) := by
  unfold build
  rw [create_message slash]
  show (Room args → args.foldlM (·.add ·) (message address []) = _) ∧ (¬ Room args → args.foldlM (·.add ·) (message address []) = _)
  induction args using List.reverseRecOn with
  | nil => exact ⟨fun _ => rfl, fun none => absurd (fun done arg later shape => by simp at shape) none⟩
  | append_singleton args arg ih =>
    rw [List.foldlM_append, room_concat]
    constructor
    · rintro ⟨room, fits⟩
      rw [ih.1 room]
      show (message address args).add arg >>= pure = _
      rw [add_message fits rfl]
      rfl
    · intro none
      by_cases room : Room args
      · rw [ih.1 room]
        show (message address args).add arg >>= pure = _
        rw [add_fails (fun fits => none ⟨room, fits⟩) rfl]
        rfl
      · rw [ih.2 room]
        rfl

/-- A blob that is not the first of its message needs more strings before it than blobs. Then the message is the address, the tags and the
arguments, in a buffer of that size; else the array of blobs is overrun. -/
theorem build_blobs {address : List Byte} (slash : address.head? = some (ch '/')) (args : List Arg) :
    ((∀ done b later, args = done ++ .blob b :: later → blobs done ≠ [] → (blobs done).length < (strings done).length) →
      build address args = .ok (message address args)) ∧
    ((∃ done b later, args = done ++ .blob b :: later ∧ blobs done ≠ [] ∧ (strings done).length ≤ (blobs done).length) →
      build address args = .error .undefined) := by
  constructor
  · intro strings
    refine (build_eq slash args).1 fun done arg later shape => ?_
    cases arg with
    | blob b => exact (Decidable.em (blobs done = [])).imp_right fun others => strings done b later shape others
    | _ => trivial
  · rintro ⟨done, b, later, shape, others, few⟩
    refine (build_eq slash args).2 fun room => ?_
    rcases room done (.blob b) later shape with none | enough
    · exact others none
    · exact absurd few (Nat.not_le.mpr enough)

/-- Two blobs alone are too many. -/
theorem build_blobs_two :
    let b := WOscBlob.ofData [1, 2]
    build ("/a".toList.map ch) [.blob b, .blob b] = .error .undefined ∧
      build ("/a".toList.map ch) [.text [], .text [], .blob b, .blob b] =
        .ok (message ("/a".toList.map ch) [.text [], .text [], .blob b, .blob b]) := by
  intro b
  have fails := (build_blobs (rfl : ("/a".toList.map ch).head? = some (ch '/')) [.blob b, .blob b]).2
    ⟨[.blob b], b, [], rfl, List.cons_ne_nil b [], Nat.zero_le 1⟩
  exact ⟨fails, by decide +kernel⟩

end Movid.Osc
