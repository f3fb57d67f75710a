import Movid.Osc.Reading

/-!
# OSC bundles

A bundle holds messages and bundles, in two arrays. Each element is written after its size, the messages before the bundles; the constructor
from bytes sorts the elements by their first byte.
-/

namespace Movid.Osc

inductive WOscBundle where
  | mk (timeTag : BitVec 64) (messages : List WOscMessage) (bundles : List WOscBundle)

mutual

def WOscBundle.decEq : ∀ b c : WOscBundle, Decidable (b = c)
  | .mk timeTag messages bundles, .mk timeTag' messages' bundles' =>
    have := bundlesDecEq bundles bundles'
    decidable_of_iff (timeTag = timeTag' ∧ messages = messages' ∧ bundles = bundles') (by rw [WOscBundle.mk.injEq])

def bundlesDecEq : ∀ bs cs : List WOscBundle, Decidable (bs = cs)
  | [], [] => isTrue rfl
  | [], _ :: _ => isFalse nofun
  | _ :: _, [] => isFalse nofun
  | b :: bs, c :: cs =>
    have := b.decEq c
    have := bundlesDecEq bs cs
    decidable_of_iff (b = c ∧ bs = cs) (by rw [List.cons.injEq])

end

instance : DecidableEq WOscBundle := WOscBundle.decEq

def header : List Byte := "#bundle".toList.map ch ++ [0]

/-- `WOscTimeTag::WriteToCharArray`. -/
def writeToCharArray (timeTag : BitVec 64) : List Byte := BigEndian.bytes 8 timeTag.toNat

def initFromCharArray (buffer : List Byte) : Option (BitVec 64) :=
  if 8 ≤ buffer.length then some (BitVec.ofNat 64 (BigEndian.value (buffer.take 8))) else none

/-! ### Writing -/

mutual

def WOscBundle.getBufferLen : WOscBundle → Nat
  | .mk _ messages bundles => 16 + (messages.map (4 + ·.bufferLen)).sum + bundlesLen bundles

def bundlesLen : List WOscBundle → Nat
  | [] => 0
  | b :: bundles => 4 + b.getBufferLen + bundlesLen bundles

end

/-- The size of an element, and as many bytes of it. -/
def element (size : Nat) (buffer : List Byte) : List Byte := writeBuffer (BitVec.ofNat 32 size) ++ buffer.take size

mutual

/-- `GenerateBufferFromElements`. -/
def WOscBundle.getBuffer : WOscBundle → List Byte
  | .mk timeTag messages bundles =>
    header ++ writeToCharArray timeTag ++ messages.flatMap (fun m => element m.bufferLen m.buffer) ++ bundlesBuffer bundles

def bundlesBuffer : List WOscBundle → List Byte
  | [] => []
  | b :: bundles => element b.getBufferLen b.getBuffer ++ bundlesBuffer bundles

end

def WOscBundle.addMessage : WOscBundle → WOscMessage → WOscBundle
  | .mk timeTag messages bundles, m => .mk timeTag (messages ++ [m]) bundles

def WOscBundle.addBundle : WOscBundle → WOscBundle → WOscBundle
  | .mk timeTag messages bundles, b => .mk timeTag messages (bundles ++ [b])

/-! ### Reading -/

/-- `none` stands for `END_OF_BUFFER`. -/
def checkSize (relReadPos dataLen : Nat) (rawData : List Byte) : Except Failure (Option Nat) :=
  if relReadPos = dataLen then .ok none
  else if dataLen < relReadPos + 4 then .error .corruptBundleInitializationData
  else
    (within (charBufToInt (rawData.drop relReadPos))).bind fun size =>
      if 2 ^ 31 ≤ 4 + size.toInt + relReadPos then .error .undefined
      else if (dataLen : Int) < 4 + size.toInt + relReadPos ∨ size.toInt < 0 then .error .corruptBundleInitializationData
      else .ok (some size.toInt.toNat)

/-- The `catch` clauses: what is no exception of the library becomes one. -/
def catches : Failure → Failure
  | .badAlloc => .unknownExceptionDuringInit
  | e => e

mutual

/-- The constructor from bytes: `rawData` is the memory from the bundle on. -/
def readBundle : Nat → List Byte → Nat → Except Failure WOscBundle
  | 0, _, _ => .error .unfinished
  | fuel + 1, rawData, dataLen =>
    if dataLen < 16 then .error .tooFewBundleInitializers
    else if rawData.take 8 ≠ header then .error .invalidBundleTag
    else
      (within (initFromCharArray (rawData.drop 8))).bind fun timeTag =>
        if dataLen = 16 then .ok (.mk timeTag [] []) else (readElements fuel rawData 16 dataLen (.mk timeTag [] [])).mapError catches

/-- The loop over the elements, from `relReadPos` on. -/
def readElements : Nat → List Byte → Nat → Nat → WOscBundle → Except Failure WOscBundle
  | 0, _, _, _, _ => .error .unfinished
  | fuel + 1, rawData, relReadPos, dataLen, b =>
    match checkSize relReadPos dataLen rawData with
    | .error e => .error e
    | .ok none => .ok b
    | .ok (some elementSize) =>
      match rawData[relReadPos + 4]? with
      | none => .error .undefined
      | some first =>
        if first = ch '#' then
          (readBundle fuel (rawData.drop (relReadPos + 4)) elementSize).bind fun sub =>
            readElements fuel rawData (relReadPos + elementSize + 4) dataLen (b.addBundle sub)
        else
          (readMessage (rawData.drop (relReadPos + 4)) elementSize).bind fun m =>
            readElements fuel rawData (relReadPos + elementSize + 4) dataLen (b.addMessage m)

end

/-- Each element takes four bytes at least, so there are fewer turns than bytes. -/
def readDatagram (rawData : List Byte) : Except Failure WOscBundle := readBundle (rawData.length + 2) rawData rawData.length

end Movid.Osc
