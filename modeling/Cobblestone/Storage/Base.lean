import Cobblestone.Lib.Fields
import Cobblestone.World.Chunk

namespace Cobblestone.Storage

open Lib World

abbrev storageFormatVersion : UInt16 := 1
abbrev chunkRecordVersion : UInt16 := 1
abbrev legacySemanticPayloadVersion : UInt16 := 1
abbrev biomeWordSemanticPayloadVersion : UInt16 := 2
abbrev semanticPayloadVersion : UInt16 := 3
abbrev maxChunkPayloadBytes : Nat := 4 * 1024 * 1024
abbrev maxChunkRecordBytes : Nat := maxChunkPayloadBytes + 64 * 1024

inductive StorageError where
  | io
  | invalidRegionHeader (reason : String)
  | worldMismatch
  | regionCoordinateMismatch (expectedX expectedZ actualX actualZ : Int32)
  | invalidIndexPages
  | indexGenerationExhausted
  | chunkOutsideRegion (x z regionX regionZ : Int32)
  | duplicateChunkInCommit (x z : Int32)
  | corruptChunkRecord (reason : String)
  | corruptChunkPayload (reason : String)
  | unsupportedCompression (method : UInt8)
  | payloadTooLarge (size limit : Nat)
  | recordTooLarge (size limit : Nat)
  | invalidSnapshot (reason : String)
  | indexRecordRevisionMismatch
  | indexRecordCoordinateMismatch
deriving DecidableEq, Repr

-- The checksum and compression crates. Reading a zstd stream through `take(limit)` yields the
-- first `limit` bytes of what was compressed.
structure Crates where
  crc32c : Bytes → UInt32
  encodeAll : Bytes → Except StorageError Bytes
  decode : Bytes → Nat → Except StorageError Bytes
  decode_encodeAll : ∀ {payload stored : Bytes}, encodeAll payload = .ok stored →
    ∀ limit, decode stored limit = .ok (payload.take limit)

def castagnoliByte (crc : UInt32) (byte : UInt8) : UInt32 :=
  (List.range 8).foldl
    (fun crc _ => if crc &&& 1 = 1 then (crc >>> 1) ^^^ 0x82f63b78 else crc >>> 1)
    (crc ^^^ byte.toUInt32)

def castagnoli (bytes : Bytes) : UInt32 := bytes.foldl castagnoliByte 0xffffffff ^^^ 0xffffffff

example : castagnoli [0x31, 0x32, 0x33, 0x34, 0x35, 0x36, 0x37, 0x38, 0x39] = 0xe3069283 := by
  decide +kernel

def Crates.reference : Crates where
  crc32c := castagnoli
  encodeAll payload := .ok payload
  decode stored limit := .ok (stored.take limit)
  decode_encodeAll h limit := by cases h; rfl

def u16Field (offset : Nat) (value : UInt16) : FieldAt UInt8 := (offset, toLE 2 value.toNat)
def u32Field (offset : Nat) (value : UInt32) : FieldAt UInt8 := (offset, toLE 4 value.toNat)
def u64Field (offset : Nat) (value : UInt64) : FieldAt UInt8 := (offset, toLE 8 value.toNat)
def i32Field (offset : Nat) (value : Int32) : FieldAt UInt8 := u32Field offset value.toUInt32

def readU16 (bytes : Bytes) (offset : Nat) : UInt16 := UInt16.ofNat (ofLE (sliceAt offset 2 bytes))
def readU32 (bytes : Bytes) (offset : Nat) : UInt32 := UInt32.ofNat (ofLE (sliceAt offset 4 bytes))
def readU64 (bytes : Bytes) (offset : Nat) : UInt64 := UInt64.ofNat (ofLE (sliceAt offset 8 bytes))
def readI32 (bytes : Bytes) (offset : Nat) : Int32 := (readU32 bytes offset).toInt32

@[simp] theorem u16Field_stop (o : Nat) (v : UInt16) : (u16Field o v).stop = o + 2 := by
  simp [u16Field, FieldAt.stop]

@[simp] theorem u32Field_stop (o : Nat) (v : UInt32) : (u32Field o v).stop = o + 4 := by
  simp [u32Field, FieldAt.stop]

@[simp] theorem u64Field_stop (o : Nat) (v : UInt64) : (u64Field o v).stop = o + 8 := by
  simp [u64Field, FieldAt.stop]

@[simp] theorem i32Field_stop (o : Nat) (v : Int32) : (i32Field o v).stop = o + 4 := by
  simp [i32Field]

@[simp] theorem u16Field_start (o : Nat) (v : UInt16) : (u16Field o v).1 = o := rfl
@[simp] theorem u32Field_start (o : Nat) (v : UInt32) : (u32Field o v).1 = o := rfl
@[simp] theorem u64Field_start (o : Nat) (v : UInt64) : (u64Field o v).1 = o := rfl
@[simp] theorem i32Field_start (o : Nat) (v : Int32) : (i32Field o v).1 = o := rfl

theorem u16_of_le (v : UInt16) : UInt16.ofNat (ofLE (toLE 2 v.toNat)) = v := by
  rw [ofLE_toLE_of_lt (by exact v.toNat_lt), UInt16.ofNat_toNat]

theorem u32_of_le (v : UInt32) : UInt32.ofNat (ofLE (toLE 4 v.toNat)) = v := by
  rw [ofLE_toLE_of_lt (by exact v.toNat_lt), UInt32.ofNat_toNat]

theorem u64_of_le (v : UInt64) : UInt64.ofNat (ofLE (toLE 8 v.toNat)) = v := by
  rw [ofLE_toLE_of_lt (by exact v.toNat_lt), UInt64.ofNat_toNat]

section

variable {bytes : Bytes} {offset : Nat}

theorem readU16_eq {v : UInt16} (h : sliceAt offset 2 bytes = toLE 2 v.toNat) :
    readU16 bytes offset = v := by
  rw [readU16, h, u16_of_le]

theorem readU32_eq {v : UInt32} (h : sliceAt offset 4 bytes = toLE 4 v.toNat) :
    readU32 bytes offset = v := by
  rw [readU32, h, u32_of_le]

theorem readU64_eq {v : UInt64} (h : sliceAt offset 8 bytes = toLE 8 v.toNat) :
    readU64 bytes offset = v := by
  rw [readU64, h, u64_of_le]

theorem readI32_eq {v : Int32} (h : sliceAt offset 4 bytes = toLE 4 v.toUInt32.toNat) :
    readI32 bytes offset = v := by
  rw [readI32, readU32_eq h, Int32.toInt32_toUInt32]

variable {fields : List (FieldAt UInt8)} (hfit : Fits bytes.length fields)

include hfit

theorem readU16_putFields {v : UInt16} (hm : u16Field offset v ∈ fields) :
    readU16 (putFields fields bytes) offset = v :=
  readU16_eq (by simpa using sliceAt_putFields hfit hm)

theorem readU32_putFields {v : UInt32} (hm : u32Field offset v ∈ fields) :
    readU32 (putFields fields bytes) offset = v :=
  readU32_eq (by simpa using sliceAt_putFields hfit hm)

theorem readU64_putFields {v : UInt64} (hm : u64Field offset v ∈ fields) :
    readU64 (putFields fields bytes) offset = v :=
  readU64_eq (by simpa using sliceAt_putFields hfit hm)

theorem readI32_putFields {v : Int32} (hm : i32Field offset v ∈ fields) :
    readI32 (putFields fields bytes) offset = v :=
  readI32_eq (by simpa using sliceAt_putFields hfit hm)

end

def sealBlock (crates : Crates) (n : Nat) (block : Bytes) : Bytes :=
  putFields [u32Field (n - 4) (crates.crc32c (block.take (n - 4)))] block

-- Every fixed header and index page is a zeroed array with fields put into it and a checksum of
-- everything before its last four bytes in those four bytes.
def sealedBlock (crates : Crates) (n : Nat) (fields : List (FieldAt UInt8)) : Bytes :=
  sealBlock crates n (putFields fields (List.replicate n 0))

section

variable (crates : Crates) {n : Nat} (hn : 4 ≤ n) {fields : List (FieldAt UInt8)}
  (hfit : Fits (n - 4) fields) {o : Nat}

include hfit

theorem fields_fit : Fits (List.replicate n (0 : UInt8)).length fields :=
  ⟨hfit.apart, fun f hf => by
    rw [List.length_replicate]
    exact le_trans (hfit.inside f hf) (Nat.sub_le _ _)⟩

theorem length_unsealed : (putFields fields (List.replicate n 0)).length = n := by
  rw [length_putFields (fields_fit hfit).inside, List.length_replicate]

include hn

theorem seal_fits : Fits (putFields fields (List.replicate n 0)).length
    [u32Field (n - 4) (crates.crc32c ((putFields fields (List.replicate n 0)).take (n - 4)))] :=
  ⟨List.pairwise_singleton _ _, by
    rw [length_unsealed hfit]
    simp [Nat.sub_add_cancel hn]⟩

theorem length_sealedBlock : (sealedBlock crates n fields).length = n := by
  rw [sealedBlock, sealBlock, length_putFields (seal_fits crates hn hfit).inside,
    length_unsealed hfit]

theorem sliceAt_sealed {m : Nat} (h : o + m ≤ n - 4) :
    sliceAt o m (sealedBlock crates n fields) =
      sliceAt o m (putFields fields (List.replicate n 0)) := by
  apply sliceAt_putFields_apart (seal_fits crates hn hfit).inside
  simpa using Or.inl h

theorem sealedBlock_crc : crates.crc32c ((sealedBlock crates n fields).take (n - 4)) =
    readU32 (sealedBlock crates n fields) (n - 4) := by
  have ht := sliceAt_sealed crates hn hfit (o := 0) (m := n - 4) (by omega)
  have hr := readU32_putFields (seal_fits crates hn hfit) List.mem_cons_self
  rw [sliceAt_zero, sliceAt_zero] at ht
  rw [ht]
  exact hr.symm

theorem sliceAt_sealedBlock {v : Bytes} (hm : (o, v) ∈ fields) :
    sliceAt o v.length (sealedBlock crates n fields) = v := by
  rw [sliceAt_sealed crates hn hfit (hfit.inside (o, v) hm)]
  exact sliceAt_putFields (fields_fit hfit) hm

theorem getD_sealedBlock {v : UInt8} (hm : (o, [v]) ∈ fields) :
    (sealedBlock crates n fields).getD o 0 = v :=
  getD_of_sliceAt (sliceAt_sealedBlock crates hn hfit hm) 0

theorem readU16_sealedBlock {v : UInt16} (hm : u16Field o v ∈ fields) :
    readU16 (sealedBlock crates n fields) o = v :=
  readU16_eq (by simpa using sliceAt_sealedBlock crates hn hfit hm)

theorem readU32_sealedBlock {v : UInt32} (hm : u32Field o v ∈ fields) :
    readU32 (sealedBlock crates n fields) o = v :=
  readU32_eq (by simpa using sliceAt_sealedBlock crates hn hfit hm)

theorem readU64_sealedBlock {v : UInt64} (hm : u64Field o v ∈ fields) :
    readU64 (sealedBlock crates n fields) o = v :=
  readU64_eq (by simpa using sliceAt_sealedBlock crates hn hfit hm)

theorem readI32_sealedBlock {v : Int32} (hm : i32Field o v ∈ fields) :
    readI32 (sealedBlock crates n fields) o = v :=
  readI32_eq (by simpa using sliceAt_sealedBlock crates hn hfit hm)

theorem readU64_sealedBlock_zero (ho : o + 8 ≤ n - 4)
    (ha : ∀ f ∈ fields, o + 8 ≤ f.1 ∨ f.stop ≤ o) :
    readU64 (sealedBlock crates n fields) o = 0 := by
  apply readU64_eq
  rw [sliceAt_sealed crates hn hfit ho, sliceAt_putFields_apart (fields_fit hfit).inside ha,
    sliceAt_replicate (by omega)]
  exact (toLE_zero 8).symm

end

end Cobblestone.Storage
