import Cobblestone.Wire.Binary

namespace Cobblestone.Wire

open Lib

inductive NbtTag where
  | end
  | byte
  | short
  | int
  | long
  | float
  | double
  | byteArray
  | string
  | list
  | compound
  | intArray
  deriving DecidableEq, Repr

def NbtTag.id : NbtTag → UInt8
  | .end => 0
  | .byte => 1
  | .short => 2
  | .int => 3
  | .long => 4
  | .float => 5
  | .double => 6
  | .byteArray => 7
  | .string => 8
  | .list => 9
  | .compound => 10
  | .intArray => 11

def NbtTag.fromId (id : UInt8) : Except CodecError NbtTag :=
  match id with
  | 0 => .ok .end
  | 1 => .ok .byte
  | 2 => .ok .short
  | 3 => .ok .int
  | 4 => .ok .long
  | 5 => .ok .float
  | 6 => .ok .double
  | 7 => .ok .byteArray
  | 8 => .ok .string
  | 9 => .ok .list
  | 10 => .ok .compound
  | 11 => .ok .intArray
  | _ => .error (.invalidNbtTag id)

@[simp] theorem NbtTag.fromId_ok_iff {id : UInt8} {tag : NbtTag} :
    NbtTag.fromId id = .ok tag ↔ id = tag.id := by
  constructor
  · intro h
    unfold NbtTag.fromId at h
    split at h <;> cases h <;> rfl
  · rintro rfl
    cases tag <;> rfl

mutual

inductive NbtValue where
  | byte (value : Int8)
  | short (value : Int16)
  | int (value : Int32)
  | long (value : Int64)
  | float (bits : UInt32)
  | double (bits : UInt64)
  | byteArray (bytes : Bytes)
  | string (text : String)
  | list (elementType : NbtTag) (values : List NbtValue)
  | compound (entries : List NamedNbt)
  | intArray (values : List Int32)

structure NamedNbt where
  name : String
  value : NbtValue

end

def NbtValue.tag : NbtValue → NbtTag
  | .byte _ => .byte
  | .short _ => .short
  | .int _ => .int
  | .long _ => .long
  | .float _ => .float
  | .double _ => .double
  | .byteArray _ => .byteArray
  | .string _ => .string
  | .list _ _ => .list
  | .compound _ => .compound
  | .intArray _ => .intArray

structure NbtDocument where
  root : NamedNbt

structure NbtLimits where
  maxBytes : Nat
  maxDepth : Nat
  maxCollectionLen : Nat
  maxStringBytes : Nat
  deriving DecidableEq, Repr

def readTag : Reader NbtTag := do
  let id ← readU8
  NbtTag.fromId id

def readString (limits : NbtLimits) : Reader String := do
  let len ← readU16Le
  checkLimit .nbtString len.toNat limits.maxStringBytes
  let bytes ← readExact len.toNat
  fromUtf8 bytes

def readCollectionLen (field : String) (limits : NbtLimits) : Reader Nat := do
  let value ← readI32Le
  let len ← usizeOfI32 field value
  checkLimit .nbtCollection len limits.maxCollectionLen
  pure len

def readEntries (limits : NbtLimits) (readValue : NbtTag → Lib.Reader (Halt CodecError) NbtValue) :
    Nat → Nat → Lib.Reader (Halt CodecError) (List NamedNbt)
  | 0, _ => Reader.outOfFuel
  | fuel + 1, count => do
    let childType ← readTag
    if childType = .end then
      pure []
    else
      checkLimit .nbtCollection (count + 1) limits.maxCollectionLen
      let name ← readString limits
      let value ← readValue childType
      let entries ← readEntries limits readValue fuel (count + 1)
      pure (⟨name, value⟩ :: entries)

def readPayload (limits : NbtLimits) :
    Nat → Nat → NbtTag → Lib.Reader (Halt CodecError) NbtValue
  | 0, _, _ => Reader.outOfFuel
  | fuel + 1, depth, tag => do
    checkLimit .nbtDepth depth limits.maxDepth
    match tag with
    | .end => (throw (.invalidNbtTag NbtTag.end.id) : Except CodecError NbtValue)
    | .byte => do
      let value ← readI8
      pure (.byte value)
    | .short => do
      let value ← readI16Le
      pure (.short value)
    | .int => do
      let value ← readI32Le
      pure (.int value)
    | .long => do
      let value ← readI64Le
      pure (.long value)
    | .float => do
      let bits ← readF32Le
      pure (.float bits)
    | .double => do
      let bits ← readF64Le
      pure (.double bits)
    | .byteArray => do
      let len ← readCollectionLen "NBT byte array length" limits
      let bytes ← readExact len
      pure (.byteArray bytes)
    | .string => do
      let text ← readString limits
      pure (.string text)
    | .list => do
      let elementType ← readTag
      let len ← readCollectionLen "NBT list length" limits
      ensure (!(elementType = .end && len ≠ 0)) (CodecError.invalidNbtList len)
      let values ← (readPayload limits fuel (depth + 1) elementType).times len
      pure (.list elementType values)
    | .compound => do
      let entries ← readEntries limits (readPayload limits fuel (depth + 1)) (fuel + 1) 0
      pure (.compound entries)
    | .intArray => do
      let len ← readCollectionLen "NBT int array length" limits
      let values ← Reader.times readI32Le len
      pure (.intArray values)

def decodeDocument (limits : NbtLimits) (fuel : Nat) : Lib.Reader (Halt CodecError) NbtDocument := do
  let tag ← readTag
  ensure (tag ≠ .end) (CodecError.invalidNbtTag NbtTag.end.id)
  let name ← readString limits
  let value ← readPayload limits fuel 0 tag
  finish
  pure ⟨⟨name, value⟩⟩

def decodeWithin (fuel : Nat) (input : Bytes) (limits : NbtLimits) :
    Except (Halt CodecError) NbtDocument :=
  match checkLimit .nbtBytes input.length limits.maxBytes with
  | .error e => .error (.failed e)
  | .ok _ => (decodeDocument limits fuel input).map Prod.fst

def decodeLe (input : Bytes) (limits : NbtLimits) : Except (Halt CodecError) NbtDocument :=
  decodeWithin (input.length + 1) input limits

def ensureOutputRoom (w : Writer) (additional : Nat) (limits : NbtLimits) : Except CodecError Unit :=
  checkLimit .nbtBytes (w.length + additional) limits.maxBytes

def writeString (w : Writer) (field : String) (value : String) (limits : NbtLimits) :
    Except CodecError Writer := do
  checkLimit .nbtString (len value) limits.maxStringBytes
  let n ← u16OfLen field (len value)
  ensureOutputRoom w (2 + len value) limits
  pure ((w.putU16Le n).putBytes (utf8 value))

def writeI32Len (w : Writer) (field : String) (len : Nat) : Except CodecError Writer :=
  if len < 2147483648 then .ok (w.putI32Le (Int32.ofNat len))
  else .error (.lengthOutOfRange field len 2147483647)

def writeCollectionLen (w : Writer) (field : String) (len : Nat) (limits : NbtLimits) :
    Except CodecError Writer := do
  checkLimit .nbtCollection len limits.maxCollectionLen
  writeI32Len w field len

mutual

def writePayload (limits : NbtLimits) (depth : Nat) (w : Writer) (value : NbtValue) :
    Except CodecError Writer := do
  checkLimit .nbtDepth depth limits.maxDepth
  let w ← (match value with
    | .byte value => pure (w.putI8 value)
    | .short value => pure (w.putI16Le value)
    | .int value => pure (w.putI32Le value)
    | .long value => pure (w.putI64Le value)
    | .float bits => pure (w.putF32Le bits)
    | .double bits => pure (w.putF64Le bits)
    | .byteArray bytes => do
      let w ← writeCollectionLen w "NBT byte array length" bytes.length limits
      ensureOutputRoom w bytes.length limits
      pure (w.putBytes bytes)
    | .string text => writeString w "NBT string" text limits
    | .list elementType values => do
      checkLimit .nbtCollection values.length limits.maxCollectionLen
      ensure (!(elementType = .end && !values.isEmpty)) (CodecError.invalidNbtList values.length)
      let w ← writeI32Len (w.putU8 elementType.id) "NBT list length" values.length
      writeValues limits elementType (depth + 1) w values
    | .compound entries => do
      checkLimit .nbtCollection entries.length limits.maxCollectionLen
      let w ← writeEntries limits (depth + 1) w entries
      pure (w.putU8 NbtTag.end.id)
    | .intArray values => do
      let w ← writeCollectionLen w "NBT int array length" values.length limits
      pure (values.foldl Writer.putI32Le w))
  checkLimit .nbtBytes w.length limits.maxBytes
  pure w

def writeValues (limits : NbtLimits) (elementType : NbtTag) (depth : Nat) (w : Writer) :
    List NbtValue → Except CodecError Writer
  | [] => pure w
  | value :: values => do
    ensure (value.tag = elementType)
      (CodecError.nbtListTypeMismatch elementType.id value.tag.id)
    let w ← writePayload limits depth w value
    writeValues limits elementType depth w values

def writeEntries (limits : NbtLimits) (depth : Nat) (w : Writer) :
    List NamedNbt → Except CodecError Writer
  | [] => pure w
  | ⟨name, value⟩ :: entries => do
    let w ← writeString (w.putU8 value.tag.id) "NBT tag name" name limits
    let w ← writePayload limits depth w value
    writeEntries limits depth w entries

end

def encodeLe (document : NbtDocument) (limits : NbtLimits) : Except CodecError Bytes := do
  let w := Writer.putU8 [] document.root.value.tag.id
  let w ← writeString w "NBT root name" document.root.name limits
  let w ← writePayload limits 0 w document.root.value
  checkLimit .nbtBytes w.length limits.maxBytes
  pure w

end Cobblestone.Wire
