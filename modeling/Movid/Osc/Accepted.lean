import Movid.Lib.Failing
import Movid.Osc.RoundTrip

/-!
# What the constructor from bytes accepts

Any bytes at all: the loops come to an end, and a bundle that is accepted is made of messages that the `Add` functions could have made. The
exception are blobs with a length of -4 or less, which is not refused; a few of them are kept without a byte of their own.
-/

namespace Movid.Osc

open Failing

/-- The arguments that the loop over the type tag finds. -/
def Arg.Found : Arg → Prop
  | .text s => 0 ∉ s
  | .blob b => ∃ binaryData, WOscBlob.ofBinary binaryData = .ok b
  | _ => True

/-- The arrays that the loop has filled so far. -/
def Filled (address : List Byte) (m : Members) : Prop := ∃ args, m = members address args ∧ Room args ∧ ∀ arg ∈ args, arg.Found

/-- A message with the length that its blobs announce. -/
def Accepted (m : WOscMessage) : Prop := (∀ b ∈ m.blobs, -4 < b.dataLen) → Built m

def Finished (e : Failure) : Prop := e ≠ .unfinished

/-! ### Messages -/

variable {α : Type} {address : List Byte} {m : WOscMessage}

theorem within_ends {read : Option α} {done : α → Prop} (found : ∀ a, read = some a → done a) : Ends (within read) done Finished := by
  cases read with
  | none => exact Failure.noConfusion
  | some a => exact found a rfl

theorem ofBinary_ends (binaryData : List Byte) : Ends (WOscBlob.ofBinary binaryData) (fun b => (Arg.blob b).Found) Finished := by
  cases read : WOscBlob.ofBinary binaryData with
  | ok b => exact ⟨binaryData, read⟩
  | error e =>
    rintro rfl
    unfold WOscBlob.ofBinary at read
    split at read
    · cases read
    · dsimp only at read
      split_ifs at read <;> cases read

theorem add_ends (arg : Arg) (filled : Filled address m.toMembers) (found : arg.Found) :
    Ends (m.add arg) (fun m' => Filled address m'.toMembers) Finished := by
  obtain ⟨args, same, room, all⟩ := filled
  by_cases fits : arg.Fits args
  · rw [add_message fits same]
    refine ⟨args ++ [arg], rfl, room_concat.mpr ⟨room, fits⟩, fun a member => ?_⟩
    rcases List.mem_append.mp member with old | new
    · exact all a old
    · exact List.mem_singleton.mp new ▸ found
  · rw [add_fails fits same]
    exact Failure.noConfusion

theorem readArgs_ends (typeTag data : List Byte) (filled : Filled address m.toMembers) :
    Ends (readArgs typeTag data m) (fun m' => Filled address m'.toMembers) Finished := by
  induction typeTag generalizing data m with
  | nil => exact filled
  | cons b typeTag ih =>
    rw [readArgs]
    cases tagOf b with
    | int => exact (within_ends fun _ _ => trivial).bind fun n _ => (add_ends (.int n) filled trivial).bind fun m' filled' => ih _ filled'
    | float => exact (within_ends fun _ _ => trivial).bind fun x _ => (add_ends (.float x) filled trivial).bind fun m' filled' => ih _ filled'
    | string =>
      exact (within_ends fun s read => zero_not_mem_cstring read).bind fun s clean =>
        (add_ends (.text s) filled clean).bind fun m' filled' => ih _ filled'
    | blob => exact (ofBinary_ends data).bind fun b found => (add_ends (.blob b) filled found).bind fun m' filled' => ih _ filled'
    | skip => exact ih data filled
    | stop => exact filled

theorem head_cstring {data text : List Byte} {first : Byte} (read : cstring data = some text) (head : data.head? = some first)
    (other : first ≠ 0) : text.head? = some first := by
  cases data with
  | nil => cases head
  | cons b data =>
    cases head
    unfold cstring at read
    split at read
    · cases read
      rw [List.takeWhile_cons_of_pos (p := fun b => decide (b ≠ 0)) (decide_eq_true other)]
      rfl
    · cases read

theorem generate_ends {members' : Members} (filled : Filled address members') (slash : address.head? = some (ch '/')) (noZero : 0 ∉ address) :
    Ends (generateBufferFromMembers members') Accepted Finished := by
  obtain ⟨args, rfl, room, all⟩ := filled
  rw [generate_members]
  intro long
  have clean : ∀ arg ∈ args, arg.Clean := by
    intro arg member
    have found := all arg member
    cases arg with
    | int n => trivial
    | float x => trivial
    | text s => exact found
    | blob b =>
      obtain ⟨binaryData, read⟩ := found
      exact whole_of_read read (long b (List.mem_filterMap.mpr ⟨.blob b, member, rfl⟩))
  exact Sendable.built ⟨slash, noZero, clean, room⟩

theorem readMessage_ends (data : List Byte) (bufferLen : Nat) : Ends (readMessage data bufferLen) Accepted Finished := by
  unfold readMessage
  split_ifs with none
  · exact Failure.noConfusion
  · refine (within_ends fun first head => head).bind fun first head => ?_
    split_ifs with other
    · exact Failure.noConfusion
    · refine (within_ends fun address read => read).bind fun address read => ?_
      have slash := head_cstring read (not_not.mp other ▸ head) (by decide)
      have noZero := zero_not_mem_cstring read
      have filled : Filled address (members address []) := ⟨[], rfl, fun done arg later shape => by simp at shape, fun _ none => by cases none⟩
      dsimp only
      split_ifs with short
      · exact generate_ends filled slash noZero
      · refine (within_ends fun _ _ => trivial).bind fun typeTag _ => ?_
        exact (readArgs_ends (m := { members address [] with buffer := [], bufferLen := 0 }) _ _ filled).bind fun m filled' =>
          generate_ends filled' slash noZero

/-! ### Bundles -/

theorem checkSize_ends (relReadPos dataLen : Nat) (rawData : List Byte) :
    Ends (checkSize relReadPos dataLen rawData) (fun size => ∀ n ∈ size, relReadPos + n + 4 ≤ dataLen) Finished := by
  unfold checkSize
  split_ifs
  · exact fun n none => by cases none
  · exact Failure.noConfusion
  · refine (within_ends fun _ _ => trivial).bind fun size _ => ?_
    split_ifs
    · exact Failure.noConfusion
    · exact Failure.noConfusion
    · intro n same
      cases same
      omega

/-- Each element is shorter than what is left, by its size. -/
theorem read_ends (fuel : Nat) :
    (∀ rawData dataLen, dataLen < fuel → Ends (readBundle fuel rawData dataLen) (·.All Accepted) Finished) ∧
      ∀ rawData relReadPos dataLen b, dataLen - relReadPos < fuel → b.All Accepted →
        Ends (readElements fuel rawData relReadPos dataLen b) (·.All Accepted) Finished := by
  induction fuel with
  | zero => exact ⟨fun _ _ none => absurd none (Nat.not_lt_zero _), fun _ _ _ _ none => absurd none (Nat.not_lt_zero _)⟩
  | succ fuel ih =>
    obtain ⟨bundle, elements⟩ := ih
    constructor
    · intro rawData dataLen enough
      rw [readBundle]
      split_ifs
      · exact Failure.noConfusion
      · exact Failure.noConfusion
      · exact (within_ends fun _ _ => trivial).bind fun timeTag _ => .empty timeTag
      · refine (within_ends fun _ _ => trivial).bind fun timeTag _ => ?_
        refine (elements rawData 16 dataLen _ (by omega) (.empty timeTag)).mapError fun e finished => ?_
        cases e <;> first | exact finished | exact Failure.noConfusion
    · intro rawData relReadPos dataLen b enough all
      rw [readElements]
      have sized := checkSize_ends relReadPos dataLen rawData
      split
      · rename_i e same
        exact sized.of_error same
      · exact all
      · rename_i elementSize same
        have inside := sized.of_ok same elementSize rfl
        split
        · exact Failure.noConfusion
        · split_ifs
          · exact (bundle _ elementSize (by omega)).bind fun sub all' => elements rawData _ dataLen _ (by omega) (all.addBundle all')
          · exact (readMessage_ends _ elementSize).bind fun m accepted => elements rawData _ dataLen _ (by omega) (all.addMessage accepted)

/-- The constructor comes to an end on any bytes. What it accepts is written again in the order of the two arrays and without what no
argument takes, and these bytes make the same bundle. -/
theorem readDatagram_again (rawData : List Byte) :
    readDatagram rawData ≠ .error .unfinished ∧
      ∀ b, readDatagram rawData = .ok b → b.All (fun m => ∀ blob ∈ m.blobs, -4 < blob.dataLen) → b.getBufferLen < 2 ^ 31 →
        b.getBuffer.length = b.getBufferLen ∧ 4 ∣ b.getBufferLen ∧ readDatagram b.getBuffer = .ok b := by
  have ends := (read_ends (rawData.length + 2)).1 rawData rawData.length (by omega)
  refine ⟨fun unfinished => ends.of_error unfinished rfl, fun b read long small => ?_⟩
  have well : b.All Built := long.combine (fun m announced accepted => accepted announced) (ends.of_ok read)
  obtain ⟨length, whole⟩ := length_getBuffer well
  exact ⟨length, whole, readDatagram_of_built well small⟩

/-- A bundle before a message, and a message with an unknown tag and bytes that belong to no argument. -/
theorem readDatagram_again_mixed :
    let rawData := header ++ writeToCharArray 1 ++ element 16 (header ++ writeToCharArray 2) ++
      element 20 (pad (["/a".toList.map ch].flatten) ++ pad (",i?".toList.map ch) ++ writeBuffer 5 ++ [1, 2, 3, 4, 5, 6, 7, 8])
    let b := WOscBundle.mk 1 [message ("/a".toList.map ch) [.int 5]] [.mk 2 [] []]
    b.getBuffer ≠ rawData ∧ readDatagram rawData = .ok b ∧ readDatagram b.getBuffer = .ok b := by
  intro rawData b
  have read : readDatagram rawData = .ok b := by decide +kernel
  have long : b.All (fun m => ∀ blob ∈ m.blobs, -4 < blob.dataLen) :=
    ((WOscBundle.All.empty 1).addMessage fun blob none => by cases none).addBundle (.empty 2)
  refine ⟨by decide +kernel, read, ((readDatagram_again rawData).2 b read long (by decide +kernel)).2.2⟩

end Movid.Osc
