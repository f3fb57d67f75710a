import Movid.Osc.Text

/-!
# OSC messages

A `WOscMessage` keeps its arguments in one array for each type, and their order in the type tag. Each `Add` builds the bytes of the message
anew; the constructor that reads bytes adds what the type tag announces.
-/

namespace Movid.Osc

/-- The exceptions of the library, and what C++ leaves open: reading or writing outside an array, and an `int` that overflows. -/
inductive Failure where
  | undefined
  | badAlloc
  | nullBuffer
  | invalidAddressNoSlash
  | tooFewBundleInitializers
  | invalidBundleTag
  | corruptBundleInitializationData
  | unknownExceptionDuringInit
  | unfinished
  deriving DecidableEq

def within {α : Type} (read : Option α) : Except Failure α :=
  match read with
  | some a => .ok a
  | none => .error .undefined

/-! ### `WOscBlob` -/

structure WOscBlob where
  dataLen : Int
  buffer : List Byte
  deriving DecidableEq

def WOscBlob.ofData (data : List Byte) : WOscBlob where
  dataLen := data.length
  buffer := writeBuffer (BitVec.ofNat 32 data.length) ++ data ++
    List.replicate ((getSizeFourByteAligned data.length).toNat - data.length) 0

/-- The constructor that reads a blob from memory. The length it finds there is not checked. -/
def WOscBlob.ofBinary (binaryData : List Byte) : Except Failure WOscBlob :=
  match charBufToInt binaryData with
  | none => .error .undefined
  | some size =>
    let bufferLen := getSizeFourByteAligned size.toInt + 4
    if 2 ^ 31 ≤ bufferLen then .error .undefined
    else if bufferLen < 0 then .error .badAlloc
    else if binaryData.length < bufferLen then .error .undefined
    else .ok { dataLen := size.toInt, buffer := binaryData.take bufferLen.toNat }

/-! ### `WOscMessage` -/

structure Members where
  address : List Byte
  typeTag : List Byte
  floats : List Word
  ints : List Word
  strings : List (List Byte)
  blobs : List WOscBlob
  deriving DecidableEq

structure WOscMessage extends Members where
  buffer : List Byte
  bufferLen : Nat
  deriving DecidableEq

/-- The cases of the loops over the type tag. -/
inductive Tag where
  | int
  | float
  | string
  | blob
  | skip
  | stop
  deriving DecidableEq

def tagOf (b : Byte) : Tag :=
  if b = ch 'i' then .int
  else if b = ch 'f' then .float
  else if b = ch 's' then .string
  else if b = ch 'b' then .blob
  else if b = ch ',' then .skip
  else .stop

/-- The first loop of `GenerateBufferFromMembers`: the room that the arguments need. -/
def argsLen : List Byte → List (List Byte) → List WOscBlob → Option Nat
  | [], _, _ => some 0
  | b :: typeTag, strings, blobs =>
    match tagOf b with
    | .int => (argsLen typeTag strings blobs).map (4 + ·)
    | .float => (argsLen typeTag strings blobs).map (4 + ·)
    | .string => strings.head?.bind fun s => (argsLen typeTag strings.tail blobs).map (s.length + ·)
    | .blob => blobs.head?.bind fun blob => (argsLen typeTag strings blobs.tail).map (blob.buffer.length + ·)
    | .skip => argsLen typeTag strings blobs
    | .stop => some 0

/-- The second loop: their bytes. -/
def argsBuffer : List Byte → List Word → List Word → List (List Byte) → List WOscBlob → Option (List Byte)
  | [], _, _, _, _ => some []
  | b :: typeTag, floats, ints, strings, blobs =>
    match tagOf b with
    | .int => ints.head?.bind fun n => (argsBuffer typeTag floats ints.tail strings blobs).map (writeBuffer n ++ ·)
    | .float => floats.head?.bind fun x => (argsBuffer typeTag floats.tail ints strings blobs).map (writeBuffer x ++ ·)
    | .string => strings.head?.bind fun s => (argsBuffer typeTag floats ints strings.tail blobs).map (s ++ ·)
    | .blob => blobs.head?.bind fun blob => (argsBuffer typeTag floats ints strings blobs.tail).map (blob.buffer ++ ·)
    | .skip => argsBuffer typeTag floats ints strings blobs
    | .stop => some []

/-- The second loop may only fill what the first has made room for. -/
def generateBufferFromMembers (m : Members) : Except Failure WOscMessage :=
  (within (argsLen m.typeTag m.strings m.blobs)).bind fun len =>
    (within (argsBuffer m.typeTag m.floats m.ints m.strings m.blobs)).bind fun args =>
      if len < args.length then .error .undefined
      else .ok { m with
        buffer := m.address ++ m.typeTag ++ args, bufferLen := m.address.length + m.typeTag.length + len }

/-- A new message without arguments. -/
def create (address : List Byte) : Except Failure WOscMessage :=
  if address.head? ≠ some (ch '/') then .error .invalidAddressNoSlash
  else generateBufferFromMembers { address := pad address, typeTag := pad [ch ','], floats := [], ints := [], strings := [], blobs := [] }

/-- The arguments that the four `Add` functions take. -/
inductive Arg where
  | int (n : Word)
  | float (bits : Word)
  | text (s : List Byte)
  | blob (b : WOscBlob)

/-- The arrays after `Add`. The new array of blobs is given the size of the array of strings. -/
def Members.add (m : Members) : Arg → Except Failure Members
  | .int n => .ok { m with typeTag := append m.typeTag (pad [ch 'i']), ints := m.ints ++ [n] }
  | .float x => .ok { m with typeTag := append m.typeTag (pad [ch 'f']), floats := m.floats ++ [x] }
  | .text s => .ok { m with typeTag := append m.typeTag (pad [ch 's']), strings := m.strings ++ [pad s] }
  | .blob b =>
    if m.blobs ≠ [] ∧ m.strings.length < m.blobs.length + 1 then .error .undefined
    else .ok { m with typeTag := append m.typeTag (pad [ch 'b']), blobs := m.blobs ++ [b] }

def WOscMessage.add (m : WOscMessage) (arg : Arg) : Except Failure WOscMessage := (m.toMembers.add arg).bind generateBufferFromMembers

/-! ### Reading -/

/-- The loop over the type tag, `data` being the memory from `pos` on. -/
def readArgs : List Byte → List Byte → WOscMessage → Except Failure WOscMessage
  | [], _, m => .ok m
  | b :: typeTag, data, m =>
    match tagOf b with
    | .int => (within (charBufToInt data)).bind fun n => (m.add (.int n)).bind (readArgs typeTag (data.drop 4))
    | .float => (within (charBufToInt data)).bind fun x => (m.add (.float x)).bind (readArgs typeTag (data.drop 4))
    | .string => (within (cstring data)).bind fun s => (m.add (.text s)).bind (readArgs typeTag (data.drop (pad s).length))
    | .blob => (WOscBlob.ofBinary data).bind fun b => (m.add (.blob b)).bind (readArgs typeTag (data.drop b.buffer.length))
    | .skip => readArgs typeTag data m
    | .stop => .ok m

/-- The constructor from bytes: `data` is the memory from the message on, of which it may take `bufferLen` bytes. -/
def readMessage (data : List Byte) (bufferLen : Nat) : Except Failure WOscMessage :=
  if bufferLen < 1 then .error .nullBuffer
  else
    (within data.head?).bind fun first =>
      if first ≠ ch '/' then .error .invalidAddressNoSlash
      else
        (within (cstring data)).bind fun address =>
          let m : Members := { address := pad address, typeTag := pad [ch ','], floats := [], ints := [], strings := [], blobs := [] }
          if bufferLen ≤ (pad address).length then generateBufferFromMembers m
          else
            (within (cstring (data.drop (pad address).length))).bind fun typeTag =>
              (readArgs (pad typeTag) (data.drop ((pad address).length + (pad typeTag).length)) { m with buffer := [], bufferLen := 0 }).bind
                fun m => generateBufferFromMembers m.toMembers

end Movid.Osc
