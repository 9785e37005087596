import Cobblestone.Storage.Record

namespace Cobblestone.Region

open Lib World Storage

abbrev regionHeaderBytes : Nat := 64
abbrev indexPageBytes : Nat := 16384
abbrev indexPageCount : Nat := 2
abbrev indexEntryCount : Nat := 256
abbrev indexEntryBytes : Nat := 40
abbrev indexHeaderBytes : Nat := 32
abbrev recordAreaOffset : Nat := 32832
abbrev regionMagic : Bytes := [0x43, 0x42, 0x52, 0x47]
abbrev indexMagic : Bytes := [0x43, 0x42, 0x49, 0x58]
abbrev storageRegionEdge : Int := 16

example : recordAreaOffset = regionHeaderBytes + indexPageBytes * indexPageCount := rfl

structure RegionCoord where
  x : Int32
  z : Int32
deriving DecidableEq, Repr

def RegionCoord.forChunk (position : ChunkCoord) : RegionCoord where
  x := Int32.ofInt (position.x.toInt / storageRegionEdge)
  z := Int32.ofInt (position.z.toInt / storageRegionEdge)

def localOffset (n : Int32) : Fin 16 :=
  ⟨(n.toInt % storageRegionEdge).toNat, by simp only [storageRegionEdge]; omega⟩

def RegionCoord.slotOf (position : ChunkCoord) : Fin indexEntryCount :=
  ⟨(localOffset position.z).val * 16 + (localOffset position.x).val, by
    have hx := (localOffset position.x).isLt
    have hz := (localOffset position.z).isLt
    simp only [indexEntryCount]
    omega⟩

def RegionCoord.localIndex (coord : RegionCoord) (position : ChunkCoord) :
    Except StorageError (Fin indexEntryCount) :=
  if RegionCoord.forChunk position ≠ coord then
    .error (.chunkOutsideRegion position.x position.z coord.x coord.z)
  else .ok (RegionCoord.slotOf position)

structure IndexEntry where
  recordOffset : UInt64
  recordLen : UInt32
  recordCrc32c : UInt32
  terrainRevision : UInt64
  lightRevision : UInt64
deriving DecidableEq, Repr

structure RegionIndex where
  generation : UInt64
  entries : Fin indexEntryCount → Option IndexEntry

def RegionIndex.empty (generation : UInt64) : RegionIndex := ⟨generation, fun _ => none⟩

abbrev WorldUuid := { bytes : Bytes // bytes.length = 16 }

def regionHeaderFields (worldUuid : WorldUuid) (coord : RegionCoord) : List (FieldAt UInt8) :=
  [(0, regionMagic),
    u16Field 4 storageFormatVersion,
    u16Field 6 64,
    i32Field 8 coord.x,
    i32Field 12 coord.z,
    (16, worldUuid.val),
    u16Field 32 16,
    u16Field 34 16384,
    (36, [2]),
    u64Field 40 32832]

variable (crates : Crates)

def encodeRegionHeader (worldUuid : WorldUuid) (coord : RegionCoord) : Bytes :=
  sealedBlock crates regionHeaderBytes (regionHeaderFields worldUuid coord)

def validateRegionHeader (header : Bytes) (worldUuid : WorldUuid) (coord : RegionCoord) :
    Except StorageError Unit := do
  ensure (sliceAt 0 4 header = regionMagic) (.invalidRegionHeader "bad magic")
  ensure (readU16 header 4 = storageFormatVersion)
    (.invalidRegionHeader "unsupported format version")
  ensure ((readU16 header 6).toNat = regionHeaderBytes) (.invalidRegionHeader "bad header length")
  ensure (crates.crc32c (header.take 60) = readU32 header 60)
    (.invalidRegionHeader "checksum mismatch")
  ensure ((⟨readI32 header 8, readI32 header 12⟩ : RegionCoord) = coord)
    (.regionCoordinateMismatch coord.x coord.z (readI32 header 8) (readI32 header 12))
  ensure (sliceAt 16 16 header = worldUuid.val) .worldMismatch
  ensure (decide ((readU16 header 32).toNat = 16) &&
      decide ((readU16 header 34).toNat = indexPageBytes) &&
      decide ((header.getD 36 0).toNat = indexPageCount) &&
      decide ((readU64 header 40).toNat = recordAreaOffset))
    (.invalidRegionHeader "fixed layout constants mismatch")

def indexHeaderFields (generation : UInt64) (coord : RegionCoord) : List (FieldAt UInt8) :=
  [(0, indexMagic),
    u16Field 4 storageFormatVersion,
    u16Field 6 16384,
    u64Field 8 generation,
    i32Field 16 coord.x,
    i32Field 20 coord.z,
    u32Field 24 256]

def entryBase (slot : Fin indexEntryCount) : Nat := indexHeaderBytes + slot.val * indexEntryBytes

def entryFields (slot : Fin indexEntryCount) (entry : IndexEntry) : List (FieldAt UInt8) :=
  [u64Field (entryBase slot) entry.recordOffset,
    u32Field (entryBase slot + 8) entry.recordLen,
    u32Field (entryBase slot + 12) entry.recordCrc32c,
    u64Field (entryBase slot + 16) entry.terrainRevision,
    u64Field (entryBase slot + 24) entry.lightRevision]

def slotFields (index : RegionIndex) (slot : Fin indexEntryCount) : List (FieldAt UInt8) :=
  match index.entries slot with
  | none => []
  | some entry => entryFields slot entry

def indexPageFields (index : RegionIndex) (coord : RegionCoord) : List (FieldAt UInt8) :=
  indexHeaderFields index.generation coord ++ (List.finRange indexEntryCount).flatMap (slotFields index)

def encodeIndexPage (index : RegionIndex) (coord : RegionCoord) : Bytes :=
  sealedBlock crates indexPageBytes (indexPageFields index coord)

def indexPageHeaderIsValid (page : Bytes) (coord : RegionCoord) : Bool :=
  decide (sliceAt 0 4 page = indexMagic) && decide (readU16 page 4 = storageFormatVersion) &&
    decide ((readU16 page 6).toNat = indexPageBytes) && decide (readI32 page 16 = coord.x) &&
    decide (readI32 page 20 = coord.z) && decide ((readU32 page 24).toNat = indexEntryCount) &&
    decide (crates.crc32c (page.take (indexPageBytes - 4)) = readU32 page (indexPageBytes - 4))

def entryIsValid (offset : UInt64) (len : UInt32) : Bool :=
  decide (recordAreaOffset ≤ offset.toNat) && decide (len ≠ 0) &&
    decide (len.toNat ≤ maxChunkRecordBytes)

def decodeEntry (page : Bytes) (slot : Fin indexEntryCount) : Option (Option IndexEntry) :=
  let base := entryBase slot
  let recordOffset := readU64 page base
  let recordLen := readU32 page (base + 8)
  if recordOffset = 0 then some none
  else if entryIsValid recordOffset recordLen then
    some (some ⟨recordOffset, recordLen, readU32 page (base + 12), readU64 page (base + 16),
      readU64 page (base + 24)⟩)
  else none

def decodeIndexPage (page : Bytes) (coord : RegionCoord) : Option RegionIndex :=
  if indexPageHeaderIsValid crates page coord = true ∧
      ∀ slot, (decodeEntry page slot).isSome = true then
    some ⟨readU64 page 8, fun slot => (decodeEntry page slot).getD none⟩
  else none

def indexPageOffset (page : Fin 2) : Nat := regionHeaderBytes + page.val * indexPageBytes

def initialBytes (worldUuid : WorldUuid) (coord : RegionCoord) : Bytes :=
  encodeRegionHeader crates worldUuid coord ++ (encodeIndexPage crates (RegionIndex.empty 1) coord ++
    encodeIndexPage crates (RegionIndex.empty 0) coord)

end Cobblestone.Region
