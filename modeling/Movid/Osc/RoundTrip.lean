import Mathlib.Algebra.BigOperators.Ring.List
import Movid.Osc.Bundle

/-!
# Reading a bundle back

Bundles of messages, at any depth: the sizes that are written are the sizes of what follows, and the constructor from bytes builds the tree
again.
-/

namespace Movid.Osc

/-- A message that the constructor and the `Add` functions have made, of strings without zeros and of blobs with a length. -/
def Built (m : WOscMessage) : Prop := ∃ address args, 0 ∉ address ∧ (∀ arg ∈ args, arg.Clean) ∧ build address args = .ok m

/-- What holds of every message of a tree of bundles. -/
inductive WOscBundle.All (P : WOscMessage → Prop) : WOscBundle → Prop
  | mk {timeTag : BitVec 64} {messages : List WOscMessage} {bundles : List WOscBundle}
      (own : ∀ m ∈ messages, P m) (below : ∀ b ∈ bundles, b.All P) : WOscBundle.All P (.mk timeTag messages bundles)

theorem Built.sendable {m : WOscMessage} (built : Built m) : ∃ address args, Sendable address args ∧ m = message address args := by
  obtain ⟨address, args, noZero, clean, done⟩ := built
  have slash : address.head? = some (ch '/') := by
    by_contra other
    rw [build, create, if_pos other] at done
    cases done
  have room : Room args := by
    by_contra none
    rw [(build_eq slash args).2 none] at done
    cases done
  rw [(build_eq slash args).1 room] at done
  exact ⟨address, args, ⟨slash, noZero, clean, room⟩, (Except.ok.inj done).symm⟩

theorem Sendable.built {address : List Byte} {args : List Arg} (sendable : Sendable address args) : Built (message address args) :=
  ⟨address, args, sendable.noZero, sendable.clean, sendable.build_ok⟩

namespace WOscBundle.All

variable {P Q R : WOscMessage → Prop} {b sub : WOscBundle}

theorem empty (timeTag : BitVec 64) : All P (.mk timeTag [] []) := .mk (fun _ none => by cases none) fun _ none => by cases none

theorem addMessage (all : b.All P) {m : WOscMessage} (holds : P m) : (b.addMessage m).All P := by
  cases all with
  | mk own below =>
    refine .mk (fun m' member => ?_) below
    rcases List.mem_append.mp member with old | new
    · exact own m' old
    · exact List.mem_singleton.mp new ▸ holds

theorem addBundle (all : b.All P) (all' : sub.All P) : (b.addBundle sub).All P := by
  cases all with
  | mk own below =>
    refine .mk own fun b' member => ?_
    rcases List.mem_append.mp member with old | new
    · exact below b' old
    · exact List.mem_singleton.mp new ▸ all'

theorem combine (imp : ∀ m, P m → Q m → R m) (all : b.All P) (all' : b.All Q) : b.All R := by
  induction all with
  | mk own _ ih =>
    cases all' with
    | mk own' below' => exact .mk (fun m member => imp m (own m member) (own' m member)) fun b member => ih b member (below' b member)

end WOscBundle.All

/-! ### Sizes -/

theorem element_whole {size : Nat} {buffer : List Byte} (whole : buffer.length = size) :
    element size buffer = writeBuffer (BitVec.ofNat 32 size) ++ buffer := by
  rw [element, ← whole, List.take_length]

theorem length_element {size : Nat} {buffer : List Byte} (whole : buffer.length = size) : (element size buffer).length = 4 + size := by
  rw [element_whole whole, List.length_append, length_writeBuffer, whole]

theorem length_header : header.length = 8 := by decide

theorem length_writeToCharArray (timeTag : BitVec 64) : (writeToCharArray timeTag).length = 8 := BigEndian.length_bytes 8 _

theorem dvd_length_bytes {arg : Arg} (clean : arg.Clean) : 4 ∣ arg.bytes.length := by
  cases arg with
  | int n => exact ⟨1, length_writeBuffer n⟩
  | float x => exact ⟨1, length_writeBuffer x⟩
  | text s => exact dvd_length_pad s
  | blob b =>
    obtain ⟨size, _, _, _, long, _⟩ := ofBinary_spec clean
    have divides := dvd_aligned size.toInt
    show 4 ∣ b.buffer.length
    omega

theorem dvd_length_encode (address : List Byte) {args : List Arg} (clean : ∀ arg ∈ args, arg.Clean) :
    4 ∣ (encode address args).length := by
  have back : 4 ∣ (args.flatMap Arg.bytes).length := by
    rw [List.length_flatMap]
    refine List.dvd_sum fun n member => ?_
    obtain ⟨arg, inside, rfl⟩ := List.mem_map.mp member
    exact dvd_length_bytes (clean arg inside)
  rw [encode, List.length_append, List.length_append]
  exact Nat.dvd_add (Nat.dvd_add (dvd_length_pad _) (dvd_length_pad _)) back

theorem Built.length {m : WOscMessage} (built : Built m) : m.buffer.length = m.bufferLen ∧ 4 ∣ m.bufferLen := by
  obtain ⟨address, args, sendable, rfl⟩ := built.sendable
  exact ⟨rfl, dvd_length_encode address sendable.clean⟩

theorem messages_length {messages : List WOscMessage} (whole : ∀ m ∈ messages, m.buffer.length = m.bufferLen ∧ 4 ∣ m.bufferLen) :
    (messages.flatMap fun m => element m.bufferLen m.buffer).length = (messages.map (4 + ·.bufferLen)).sum ∧
      4 ∣ (messages.map (4 + ·.bufferLen)).sum := by
  constructor
  · rw [List.length_flatMap]
    exact congrArg List.sum (List.map_congr_left fun m member => length_element (whole m member).1)
  · refine List.dvd_sum fun n member => ?_
    obtain ⟨m, inside, rfl⟩ := List.mem_map.mp member
    exact Nat.dvd_add ⟨1, rfl⟩ (whole m inside).2

theorem bundles_length {bundles : List WOscBundle} (whole : ∀ b ∈ bundles, b.getBuffer.length = b.getBufferLen ∧ 4 ∣ b.getBufferLen) :
    (bundlesBuffer bundles).length = bundlesLen bundles ∧ 4 ∣ bundlesLen bundles := by
  induction bundles with
  | nil => exact ⟨rfl, ⟨0, rfl⟩⟩
  | cons b bundles ih =>
    obtain ⟨own, divides⟩ := whole b List.mem_cons_self
    obtain ⟨others, othersDivide⟩ := ih fun x member => whole x (List.mem_cons_of_mem _ member)
    unfold bundlesBuffer bundlesLen
    rw [List.length_append, length_element own, others]
    exact ⟨rfl, Nat.dvd_add (Nat.dvd_add ⟨1, rfl⟩ divides) othersDivide⟩

/-- The size that `GetBufferLen` computes is the size of what `GetBuffer` generates, and a multiple of four. -/
theorem length_getBuffer {b : WOscBundle} (well : b.All Built) : b.getBuffer.length = b.getBufferLen ∧ 4 ∣ b.getBufferLen := by
  induction well with
  | @mk timeTag messages bundles built _ ih =>
    obtain ⟨own, divides⟩ := messages_length fun m member => (built m member).length
    obtain ⟨below, belowDivides⟩ := bundles_length ih
    unfold WOscBundle.getBuffer WOscBundle.getBufferLen
    rw [List.length_append, List.length_append, List.length_append, length_header, length_writeToCharArray, own, below]
    exact ⟨rfl, Nat.dvd_add (Nat.dvd_add ⟨4, rfl⟩ divides) belowDivides⟩

/-! ### Elements -/

/-- The rest of the loop, with fuel for its turns. -/
def Reads (rawData : List Byte) (relReadPos dataLen : Nat) (b r : WOscBundle) : Prop :=
  ∀ fuel, dataLen - relReadPos < fuel → readElements fuel rawData relReadPos dataLen b = .ok r

section

variable {rawData content after : List Byte} {relReadPos dataLen size : Nat} {b r : WOscBundle}

theorem reads_end : Reads rawData dataLen dataLen b b := by
  intro fuel enough
  cases fuel with
  | zero => omega
  | succ fuel => rw [readElements, checkSize, if_pos rfl]

theorem checkSize_element (here : rawData.drop relReadPos = writeBuffer (BitVec.ofNat 32 size) ++ after)
    (inside : relReadPos + 4 + size ≤ dataLen) (small : dataLen < 2 ^ 31) : checkSize relReadPos dataLen rawData = .ok (some size) := by
  have whole : (BitVec.ofNat 32 size).toInt = size := by
    rw [BitVec.toInt_eq_toNat_of_lt] <;> rw [BitVec.toNat_ofNat, Nat.mod_eq_of_lt (by omega)]
    omega
  unfold checkSize
  rw [if_neg (by omega), if_neg (by omega), here, charBufToInt_writeBuffer]
  simp only [within, Except.bind, whole]
  rw [if_neg (by omega), if_neg (by omega), Int.toNat_natCast]

theorem drop_element (here : rawData.drop relReadPos = writeBuffer (BitVec.ofNat 32 size) ++ (content ++ after)) (whole : content.length = size) :
    rawData.drop (relReadPos + 4) = content ++ after ∧ rawData.drop (relReadPos + size + 4) = after := by
  have body : rawData.drop (relReadPos + 4) = content ++ after := by
    rw [← List.drop_drop, here, List.drop_left' (length_writeBuffer _)]
  refine ⟨body, ?_⟩
  rw [show relReadPos + size + 4 = (relReadPos + 4) + size by omega, ← List.drop_drop, body, List.drop_left' whole]

theorem first_element {first : Byte} (body : rawData.drop (relReadPos + 4) = content ++ after) (head : (content ++ after).head? = some first) :
    rawData[relReadPos + 4]? = some first := by
  rw [← List.head?_drop, body, head]

theorem reads_message {m : WOscMessage} (built : Built m)
    (here : rawData.drop relReadPos = element m.bufferLen m.buffer ++ after) (inside : relReadPos + m.bufferLen + 4 ≤ dataLen)
    (small : dataLen < 2 ^ 31) (later : Reads rawData (relReadPos + m.bufferLen + 4) dataLen (b.addMessage m) r) :
    Reads rawData relReadPos dataLen b r := by
  intro fuel enough
  obtain ⟨address, args, sendable, rfl⟩ := built.sendable
  have whole : (encode address args).length = (message address args).bufferLen := rfl
  have shape : (message address args).buffer = encode address args := rfl
  rw [shape, element_whole whole, List.append_assoc] at here
  obtain ⟨body, _⟩ := drop_element here whole
  cases fuel with
  | zero => omega
  | succ fuel =>
    rw [readElements, checkSize_element here (by omega) small]
    simp only [first_element body (head_encode sendable.slash args after)]
    rw [if_neg (by decide), body, ← whole, readMessage_encode sendable after]
    exact later fuel (by omega)

theorem reads_bundle {sub : WOscBundle} (whole : sub.getBuffer.length = sub.getBufferLen)
    (own : ∀ fuel rest, sub.getBufferLen < fuel → readBundle fuel (sub.getBuffer ++ rest) sub.getBufferLen = .ok sub)
    (here : rawData.drop relReadPos = element sub.getBufferLen sub.getBuffer ++ after) (inside : relReadPos + sub.getBufferLen + 4 ≤ dataLen)
    (small : dataLen < 2 ^ 31) (later : Reads rawData (relReadPos + sub.getBufferLen + 4) dataLen (b.addBundle sub) r) :
    Reads rawData relReadPos dataLen b r := by
  intro fuel enough
  have head : (sub.getBuffer ++ after).head? = some (ch '#') := by
    cases sub
    unfold WOscBundle.getBuffer
    rfl
  rw [element_whole whole, List.append_assoc] at here
  obtain ⟨body, _⟩ := drop_element here whole
  cases fuel with
  | zero => omega
  | succ fuel =>
    rw [readElements, checkSize_element here (by omega) small]
    simp only [first_element body head]
    rw [if_pos trivial, body, own fuel after (by omega)]
    exact later fuel (by omega)

theorem drop_after {buffer : List Byte} {size : Nat} (whole : buffer.length = size)
    (here : rawData.drop relReadPos = element size buffer ++ after) : rawData.drop (relReadPos + size + 4) = after := by
  rw [element_whole whole, List.append_assoc] at here
  exact (drop_element here whole).2

theorem reads_messages {messages : List WOscMessage} (built : ∀ m ∈ messages, Built m) {timeTag : BitVec 64} {done : List WOscMessage}
    {bundles : List WOscBundle} (here : rawData.drop relReadPos = (messages.flatMap fun m => element m.bufferLen m.buffer) ++ after)
    (inside : relReadPos + (messages.map (4 + ·.bufferLen)).sum ≤ dataLen) (small : dataLen < 2 ^ 31)
    (later : Reads rawData (relReadPos + (messages.map (4 + ·.bufferLen)).sum) dataLen (.mk timeTag (done ++ messages) bundles) r) :
    Reads rawData relReadPos dataLen (.mk timeTag done bundles) r := by
  induction messages generalizing relReadPos done with
  | nil => simpa using later
  | cons m messages ih =>
    rw [List.flatMap_cons, List.append_assoc] at here
    rw [List.map_cons, List.sum_cons] at inside later
    have own := built m List.mem_cons_self
    refine reads_message own here (by omega) small ?_
    refine ih (fun x member => built x (List.mem_cons_of_mem _ member)) (drop_after own.length.1 here) (by omega) ?_
    rw [List.append_assoc, List.singleton_append, show relReadPos + m.bufferLen + 4 + (messages.map (4 + ·.bufferLen)).sum =
      relReadPos + (4 + m.bufferLen + (messages.map (4 + ·.bufferLen)).sum) by omega]
    exact later

theorem reads_bundles {bundles : List WOscBundle} (whole : ∀ sub ∈ bundles, sub.getBuffer.length = sub.getBufferLen)
    (own : ∀ sub ∈ bundles, ∀ fuel rest, sub.getBufferLen < fuel → sub.getBufferLen < 2 ^ 31 →
      readBundle fuel (sub.getBuffer ++ rest) sub.getBufferLen = .ok sub)
    {timeTag : BitVec 64} {messages : List WOscMessage} {done : List WOscBundle}
    (here : rawData.drop relReadPos = bundlesBuffer bundles ++ after) (inside : relReadPos + bundlesLen bundles ≤ dataLen)
    (small : dataLen < 2 ^ 31) (later : Reads rawData (relReadPos + bundlesLen bundles) dataLen (.mk timeTag messages (done ++ bundles)) r) :
    Reads rawData relReadPos dataLen (.mk timeTag messages done) r := by
  induction bundles generalizing relReadPos done with
  | nil => simpa [bundlesLen] using later
  | cons sub bundles ih =>
    rw [bundlesBuffer, List.append_assoc] at here
    rw [bundlesLen] at inside later
    have wholeSub := whole sub List.mem_cons_self
    refine reads_bundle wholeSub (fun fuel rest enough => own sub List.mem_cons_self fuel rest enough (by omega)) here (by omega) small ?_
    refine ih (fun x member => whole x (List.mem_cons_of_mem _ member)) (fun x member => own x (List.mem_cons_of_mem _ member))
      (drop_after wholeSub here) (by omega) ?_
    rw [List.append_assoc, List.singleton_append, show relReadPos + sub.getBufferLen + 4 + bundlesLen bundles =
      relReadPos + (4 + sub.getBufferLen + bundlesLen bundles) by omega]
    exact later

end

/-! ### Bundles -/

theorem initFromCharArray_write (timeTag : BitVec 64) (rest : List Byte) :
    initFromCharArray (writeToCharArray timeTag ++ rest) = some timeTag := by
  have small : timeTag.toNat < 256 ^ 8 := timeTag.isLt
  have front : (writeToCharArray timeTag ++ rest).take 8 = writeToCharArray timeTag := List.take_left' (length_writeToCharArray timeTag)
  unfold initFromCharArray
  rw [if_pos (by rw [List.length_append, length_writeToCharArray]; omega), front, writeToCharArray, BigEndian.value_bytes_of_lt small,
    BitVec.ofNat_toNat, BitVec.setWidth_eq]

/-- Whatever follows the bundle in memory, the constructor from bytes makes the same bundle. -/
theorem readBundle_getBuffer {b : WOscBundle} (well : b.All Built) :
    ∀ fuel rest, b.getBufferLen < fuel → b.getBufferLen < 2 ^ 31 → readBundle fuel (b.getBuffer ++ rest) b.getBufferLen = .ok b := by
  induction well with
  | @mk timeTag messages bundles built well ih =>
    intro fuel rest enough small
    obtain ⟨own, _⟩ := messages_length fun m member => (built m member).length
    have shape : (WOscBundle.mk timeTag messages bundles).getBuffer ++ rest = header ++ (writeToCharArray timeTag ++
        ((messages.flatMap fun m => element m.bufferLen m.buffer) ++ (bundlesBuffer bundles ++ rest))) := by
      rw [WOscBundle.getBuffer]
      simp only [List.append_assoc]
    have size : (WOscBundle.mk timeTag messages bundles).getBufferLen =
        16 + (messages.map (4 + ·.bufferLen)).sum + bundlesLen bundles := by rw [WOscBundle.getBufferLen]
    have later : Reads ((WOscBundle.mk timeTag messages bundles).getBuffer ++ rest) 16 (WOscBundle.mk timeTag messages bundles).getBufferLen
        (.mk timeTag [] []) (.mk timeTag messages bundles) := by
      have body : ((WOscBundle.mk timeTag messages bundles).getBuffer ++ rest).drop 16 =
          (messages.flatMap fun m => element m.bufferLen m.buffer) ++ (bundlesBuffer bundles ++ rest) := by
        rw [shape, ← List.append_assoc header, List.drop_left' (by rw [List.length_append, length_header, length_writeToCharArray])]
      refine reads_messages built body (by omega) small ?_
      have after : ((WOscBundle.mk timeTag messages bundles).getBuffer ++ rest).drop (16 + (messages.map (4 + ·.bufferLen)).sum) =
          bundlesBuffer bundles ++ rest := by
        rw [← List.drop_drop, body, List.drop_left' own]
      refine reads_bundles (fun sub member => (length_getBuffer (well sub member)).1) ih after (by omega) small ?_
      rw [← size]
      exact reads_end
    cases fuel with
    | zero => omega
    | succ fuel =>
      have front : ((WOscBundle.mk timeTag messages bundles).getBuffer ++ rest).take 8 = header := by
        rw [shape, List.take_left' length_header]
      have clock : initFromCharArray (((WOscBundle.mk timeTag messages bundles).getBuffer ++ rest).drop 8) = some timeTag := by
        rw [shape, List.drop_left' length_header, initFromCharArray_write]
      rw [readBundle, if_neg (by omega), front, clock, if_neg (not_not.mpr rfl)]
      simp only [within, Except.bind]
      split
      · rename_i bare
        have noMessages : messages = [] := by
          cases messages with
          | nil => rfl
          | cons m messages => rw [List.map_cons, List.sum_cons] at size; omega
        have noBundles : bundles = [] := by
          cases bundles with
          | nil => rfl
          | cons b bundles => rw [bundlesLen] at size; omega
        rw [noMessages, noBundles]
      · rw [later fuel (by omega)]
        rfl

theorem readDatagram_of_built {b : WOscBundle} (well : b.All Built) (small : b.getBufferLen < 2 ^ 31) : readDatagram b.getBuffer = .ok b := by
  have read := readBundle_getBuffer well (b.getBufferLen + 2) [] (by omega) small
  rw [List.append_nil] at read
  rw [readDatagram, (length_getBuffer well).1]
  exact read

/-- Any tree of bundles is read back as it was, and its size is the one that `GetBufferLen` computes. -/
theorem readDatagram_getBuffer {b : WOscBundle} (well : b.All Built) (small : b.getBufferLen < 2 ^ 31) :
    b.getBuffer.length = b.getBufferLen ∧ 4 ∣ b.getBufferLen ∧ readDatagram b.getBuffer = .ok b := by
  obtain ⟨length, whole⟩ := length_getBuffer well
  exact ⟨length, whole, readDatagram_of_built well small⟩

/-- A message, with every kind of argument, and a bundle with another. -/
theorem readDatagram_getBuffer_nested :
    let m := message ("/tuio".toList.map ch) [.text ("alive".toList.map ch), .int (-3), .blob (.ofData [1, 2, 3, 4, 5]), .float 0x3f800000]
    let b := WOscBundle.mk 1 [m] [.mk 7 [message ("/a".toList.map ch) []] []]
    b.getBufferLen = 96 ∧ readDatagram b.getBuffer = .ok b := by
  intro m b
  have first : Built m := by
    refine ⟨"/tuio".toList.map ch, [.text ("alive".toList.map ch), .int (-3), .blob (.ofData [1, 2, 3, 4, 5]), .float 0x3f800000],
      by decide, ?_, rfl⟩
    rintro arg member
    simp only [List.mem_cons, List.not_mem_nil, or_false] at member
    rcases member with rfl | rfl | rfl | rfl
    · exact (by decide : 0 ∉ "alive".toList.map ch)
    · trivial
    · exact whole_ofData (by decide)
    · trivial
  have second : Built (message ("/a".toList.map ch) []) := ⟨"/a".toList.map ch, [], by decide, (fun _ none => by cases none), rfl⟩
  have well : b.All Built := (WOscBundle.All.empty 1).addMessage first |>.addBundle ((WOscBundle.All.empty 7).addMessage second)
  have size : b.getBufferLen = 96 := by decide +kernel
  exact ⟨size, (readDatagram_getBuffer well (by rw [size]; decide)).2.2⟩

end Movid.Osc
