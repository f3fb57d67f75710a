import Movid.Osc.Building

/-!
# Reading a message back

The constructor from bytes finds the address, the tags and the arguments where `GenerateBufferFromMembers` has put them, whatever comes after
them in memory.
-/

namespace Movid.Osc

/-! ### Blobs -/

theorem length_ofData (data : List Byte) : (WOscBlob.ofData data).buffer.length = (getSizeFourByteAligned data.length).toNat + 4 := by
  have room := (aligned_spec data.length).2.1
  rw [WOscBlob.ofData, List.length_append, List.length_append, length_writeBuffer, List.length_replicate]
  omega

theorem dvd_aligned (length : Int) : 4 ∣ getSizeFourByteAligned length := by
  unfold getSizeFourByteAligned
  rcases Int.le_total 0 length with positive | negative
  · rw [Int.tmod_eq_emod_of_nonneg positive, Int.tmod_eq_emod_of_nonneg (by omega)]
    omega
  · obtain ⟨n, rfl⟩ := Int.exists_eq_neg_ofNat negative
    rw [Int.neg_tmod, Int.tmod_eq_emod_of_nonneg (Int.natCast_nonneg n), Int.tmod_eq_emod_of_nonneg (by omega)]
    omega

theorem le_aligned (length : Int) : length ≤ getSizeFourByteAligned length := by
  have rest : 0 ≤ 4 - length.tmod 4 := by
    have small := Int.tmod_lt_of_pos length (show (0 : Int) < 4 by decide)
    omega
  have step := Int.tmod_nonneg 4 rest
  unfold getSizeFourByteAligned
  omega

theorem charBufToInt_append {buf : List Byte} {n : Word} (read : charBufToInt buf = some n) (rest : List Byte) :
    charBufToInt (buf ++ rest) = some n := by
  unfold charBufToInt at read ⊢
  split at read
  · rename_i enough
    rw [if_pos (by rw [List.length_append]; omega), List.take_append_of_le_length enough]
    exact read
  · cases read

/-- What the constructor finds: a length, and as many bytes as it asks for, the length among them. -/
theorem ofBinary_spec {binaryData : List Byte} {b : WOscBlob} (read : WOscBlob.ofBinary binaryData = .ok b) :
    ∃ size, charBufToInt binaryData = some size ∧ b.dataLen = size.toInt ∧ b.buffer = binaryData.take b.buffer.length ∧
      (b.buffer.length : Int) = getSizeFourByteAligned size.toInt + 4 ∧ b.buffer.length < 2 ^ 31 := by
  unfold WOscBlob.ofBinary at read
  split at read
  · cases read
  · rename_i size found
    dsimp only at read
    split_ifs at read
    cases read
    have length : (binaryData.take (getSizeFourByteAligned size.toInt + 4).toNat).length = (getSizeFourByteAligned size.toInt + 4).toNat := by
      rw [List.length_take]
      omega
    exact ⟨size, found, rfl, by rw [length], by rw [length]; omega, by rw [length]; omega⟩

/-- A blob that is as long as its length says. -/
theorem ofBinary_of_spec {binaryData : List Byte} (buffer : List Byte) {size : Word} (found : charBufToInt binaryData = some size)
    (long : (buffer.length : Int) = getSizeFourByteAligned size.toInt + 4) (small : buffer.length < 2 ^ 31)
    (front : binaryData.take buffer.length = buffer) : WOscBlob.ofBinary binaryData = .ok { dataLen := size.toInt, buffer := buffer } := by
  have within : buffer.length ≤ binaryData.length := by
    have length := congrArg List.length front
    rw [List.length_take] at length
    omega
  have same : (getSizeFourByteAligned size.toInt + 4).toNat = buffer.length := by omega
  unfold WOscBlob.ofBinary
  rw [found]
  simp only
  rw [if_neg (by omega), if_neg (by omega), if_neg (by omega), same, front]

variable {b : WOscBlob}

theorem WOscBlob.Whole.read (whole : b.Whole) (rest : List Byte) : WOscBlob.ofBinary (b.buffer ++ rest) = .ok b := by
  obtain ⟨size, found, len, _, long, small⟩ := ofBinary_spec whole
  have read := ofBinary_of_spec b.buffer (charBufToInt_append found rest) long small (List.take_left)
  rw [read, ← len]

theorem whole_ofData {data : List Byte} (small : data.length + 8 < 2 ^ 31) : (WOscBlob.ofData data).Whole := by
  obtain ⟨_, room, exact'⟩ := aligned_spec data.length
  have length := length_ofData data
  have size : (BitVec.ofNat 32 data.length).toInt = data.length := by
    rw [BitVec.toInt_eq_toNat_of_lt] <;> rw [BitVec.toNat_ofNat, Nat.mod_eq_of_lt (by omega)]
    omega
  have found : charBufToInt (WOscBlob.ofData data).buffer = some (BitVec.ofNat 32 data.length) := by
    rw [WOscBlob.ofData, List.append_assoc]
    exact charBufToInt_writeBuffer _ _
  have aligned : getSizeFourByteAligned data.length ≤ data.length + 3 := by
    unfold getSizeFourByteAligned
    rw [Int.tmod_eq_emod_of_nonneg (Int.natCast_nonneg _), Int.tmod_eq_emod_of_nonneg (by omega)]
    omega
  have read := ofBinary_of_spec (WOscBlob.ofData data).buffer found (by rw [size]; omega) (by omega)
    (List.take_length)
  rw [WOscBlob.Whole, read, size]
  rfl

/-- What is read is whole again, unless the length is so small that not even its own bytes are kept. -/
theorem whole_of_read {binaryData : List Byte} (read : WOscBlob.ofBinary binaryData = .ok b) (long : -4 < b.dataLen) : b.Whole := by
  obtain ⟨size, found, len, front, length, small⟩ := ofBinary_spec read
  have four : 4 ≤ b.buffer.length := by
    have divides := dvd_aligned size.toInt
    have near := le_aligned size.toInt
    omega
  have again : charBufToInt b.buffer = some size := by
    have enough : 4 ≤ binaryData.length := by
      have shorter := congrArg List.length front
      rw [List.length_take] at shorter
      omega
    rw [← found, front]
    unfold charBufToInt
    rw [List.take_take, List.length_take, Nat.min_eq_left four, if_pos (by omega), if_pos enough]
  have read := ofBinary_of_spec b.buffer again (by omega) small (List.take_length)
  rw [WOscBlob.Whole, read, ← len]

/-! ### Arguments -/

theorem readArgs_tags {address : List Byte} {args : List Arg} (clean : ∀ arg ∈ args, arg.Clean) {done : List Arg} (room : Room (done ++ args))
    (zeros rest : List Byte) {m : WOscMessage} (same : m.toMembers = members address done) :
    ∃ m', readArgs (args.map Arg.tag ++ 0 :: zeros) (args.flatMap Arg.bytes ++ rest) m = .ok m' ∧ m'.toMembers = members address (done ++ args) := by
  induction args generalizing done m with
  | nil =>
    refine ⟨m, ?_, by rw [List.append_nil]; exact same⟩
    rw [List.map_nil, List.nil_append, readArgs, tagOf_zero]
  | cons arg args ih =>
    have fits : arg.Fits done := room done arg args rfl
    have added := add_message fits same
    have room' : Room ((done ++ [arg]) ++ args) := by
      rw [List.append_assoc, List.singleton_append]
      exact room
    obtain ⟨m', reads, same'⟩ := ih (fun a member => clean a (List.mem_cons_of_mem _ member)) room' (m := message address (done ++ [arg])) rfl
    refine ⟨m', ?_, by rw [same', List.append_assoc, List.singleton_append]⟩
    have own := clean arg List.mem_cons_self
    rw [List.map_cons, List.cons_append, readArgs, tagOf_tag, List.flatMap_cons, List.append_assoc]
    cases arg with
    | int n =>
      simp only [Arg.bytes, charBufToInt_writeBuffer, within, Except.bind, added]
      rw [List.drop_left' (length_writeBuffer n)]
      exact reads
    | float x =>
      simp only [Arg.bytes, charBufToInt_writeBuffer, within, Except.bind, added]
      rw [List.drop_left' (length_writeBuffer x)]
      exact reads
    | text s =>
      simp only [Arg.bytes, cstring_pad own, within, Except.bind, added]
      rw [List.drop_left]
      exact reads
    | blob b =>
      simp only [Arg.bytes, own.read, Except.bind, added]
      rw [List.drop_left]
      exact reads

/-! ### Messages -/

/-- What can stand in a message. -/
structure Sendable (address : List Byte) (args : List Arg) : Prop where
  slash : address.head? = some (ch '/')
  noZero : 0 ∉ address
  clean : ∀ arg ∈ args, arg.Clean
  room : Room args

variable {address : List Byte} {args : List Arg}

theorem Sendable.build_ok (sendable : Sendable address args) : build address args = .ok (message address args) :=
  (build_eq sendable.slash args).1 sendable.room

theorem head_encode (slash : address.head? = some (ch '/')) (args : List Arg) (rest : List Byte) :
    (encode address args ++ rest).head? = some (ch '/') := by
  obtain ⟨zeros, shape⟩ := pad_eq address
  cases address with
  | nil => cases slash
  | cons b address =>
    rw [encode, shape]
    exact slash

/-- Whatever follows the message in memory, the constructor from bytes makes the same message. -/
theorem readMessage_encode (sendable : Sendable address args) (rest : List Byte) :
    readMessage (encode address args ++ rest) (encode address args).length = .ok (message address args) := by
  obtain ⟨zeros, tags⟩ := pad_eq (typeTag args)
  have shape : encode address args ++ rest = pad address ++ (pad (typeTag args) ++ (args.flatMap Arg.bytes ++ rest)) := by
    rw [encode, List.append_assoc, List.append_assoc]
  have longer : (pad address).length < (encode address args).length := by
    rw [encode, List.length_append, List.length_append, tags, List.length_append, List.length_cons]
    omega
  have tagRead : cstring ((pad address ++ (pad (typeTag args) ++ (args.flatMap Arg.bytes ++ rest))).drop (pad address).length) =
      some (typeTag args) := by
    rw [List.drop_left, cstring_pad (zero_not_mem_typeTag args)]
  have body : (pad address ++ (pad (typeTag args) ++ (args.flatMap Arg.bytes ++ rest))).drop
      ((pad address).length + (pad (typeTag args)).length) = args.flatMap Arg.bytes ++ rest := by
    rw [← List.drop_drop, List.drop_left, List.drop_left]
  have room : Room ([] ++ args) := sendable.room
  obtain ⟨m, reads, same⟩ := readArgs_tags sendable.clean room (List.replicate zeros 0) rest
    (rfl : ({ members address [] with buffer := [], bufferLen := 0 } : WOscMessage).toMembers = members address [])
  have scan : readArgs (pad (typeTag args)) (args.flatMap Arg.bytes ++ rest)
      { address := pad address, typeTag := pad [ch ','], floats := [], ints := [], strings := [], blobs := [], buffer := [], bufferLen := 0 } =
      .ok m := by
    rw [tags, typeTag, List.cons_append, readArgs, tagOf_comma]
    exact reads
  unfold readMessage
  rw [if_neg (by omega), head_encode sendable.slash, shape, cstring_pad sendable.noZero]
  simp only [within, Except.bind, ne_eq, not_true, if_false]
  rw [if_neg (by omega), tagRead]
  simp only
  rw [body, scan]
  simp only [same]
  exact generate_members address args

/-! ### What a receiver sees -/

/-- The arguments in their order: the tags say from which array the next one comes. -/
def argsOf : List Byte → List Word → List Word → List (List Byte) → List WOscBlob → List Arg
  | [], _, _, _, _ => []
  | b :: typeTag, floats, ints, strings, blobs =>
    match tagOf b with
    | .int => (ints.head?.map Arg.int).toList ++ argsOf typeTag floats ints.tail strings blobs
    | .float => (floats.head?.map Arg.float).toList ++ argsOf typeTag floats.tail ints strings blobs
    | .string => (strings.head?.map fun s => Arg.text (s.takeWhile (· ≠ 0))).toList ++ argsOf typeTag floats ints strings.tail blobs
    | .blob => (blobs.head?.map Arg.blob).toList ++ argsOf typeTag floats ints strings blobs.tail
    | .skip => argsOf typeTag floats ints strings blobs
    | .stop => []

def WOscMessage.contents (m : WOscMessage) : List Byte × List Arg :=
  (m.address.takeWhile (· ≠ 0), argsOf m.typeTag m.floats m.ints m.strings m.blobs)

theorem argsOf_tags (clean : ∀ arg ∈ args, arg.Clean) (zeros : List Byte) :
    argsOf (args.map Arg.tag ++ 0 :: zeros) (floats args) (ints args) (strings args) (blobs args) = args := by
  induction args with
  | nil => rw [List.map_nil, List.nil_append, argsOf, tagOf_zero]
  | cons arg args ih =>
    have rest := ih fun a member => clean a (List.mem_cons_of_mem _ member)
    rw [List.map_cons, List.cons_append, argsOf, tagOf_tag]
    cases arg with
    | int n => exact congrArg (Arg.int n :: ·) rest
    | float x => exact congrArg (Arg.float x :: ·) rest
    | text s =>
      have own : (pad s).takeWhile (· ≠ 0) = s := takeWhile_pad (clean _ List.mem_cons_self)
      exact congrArg₂ (fun s args => Arg.text s :: args) own rest
    | blob b => exact congrArg (Arg.blob b :: ·) rest

theorem Sendable.contents_message (sendable : Sendable address args) : (message address args).contents = (address, args) := by
  obtain ⟨zeros, tags⟩ := pad_eq (typeTag args)
  have all : argsOf (pad (typeTag args)) (floats args) (ints args) (strings args) (blobs args) = args := by
    rw [tags, typeTag, List.cons_append, argsOf, tagOf_comma]
    exact argsOf_tags sendable.clean _
  exact congrArg₂ Prod.mk (takeWhile_pad sendable.noZero) all

end Movid.Osc
