import Cobblestone.Region.FormatRoundTrip

namespace Cobblestone.Region

open Lib World Storage

-- The largest length the file system grants a file; a write past it fails.
abbrev maxFileBytes : Nat := 2 ^ 63 - 1

structure RegionStats where
  fileBytes : Nat
  recordBytes : Nat
  liveBytes : Nat
  deadBytes : Nat
  indexedChunks : Nat
deriving DecidableEq, Repr

structure RegionSaveResult where
  generation : UInt64
  records : Nat
  bytesAppended : Nat
  stats : RegionStats
deriving DecidableEq, Repr

structure RegionFile where
  file : Bytes
  worldUuid : WorldUuid
  coord : RegionCoord
  activePage : Fin 2
  index : RegionIndex

def otherPage : Fin 2 → Fin 2
  | 0 => 1
  | 1 => 0

def pageAt (file : Bytes) (page : Fin 2) : Bytes := sliceAt (indexPageOffset page) indexPageBytes file

def readExactAt (file : Bytes) (offset n : Nat) : Except StorageError Bytes :=
  if offset + n ≤ file.length then .ok (sliceAt offset n file) else .error .io

variable (crates : Crates)

def selectIndex (a b : Option RegionIndex) : Except StorageError (Fin 2 × RegionIndex) :=
  match a, b with
  | some a, some b => if b.generation > a.generation then .ok (1, b) else .ok (0, a)
  | some a, none => .ok (0, a)
  | none, some b => .ok (1, b)
  | none, none => .error .invalidIndexPages

def fromOpenFile (file : Bytes) (worldUuid : WorldUuid) (coord : RegionCoord) :
    Except StorageError RegionFile := do
  let header ← readExactAt file 0 regionHeaderBytes
  validateRegionHeader crates header worldUuid coord
  let pageA ← readExactAt file (indexPageOffset 0) indexPageBytes
  let pageB ← readExactAt file (indexPageOffset 1) indexPageBytes
  let selected ← selectIndex (decodeIndexPage crates pageA coord)
    (decodeIndexPage crates pageB coord)
  pure ⟨file, worldUuid, coord, selected.1, selected.2⟩

-- `file` is what the path holds; a missing file is created empty by the open call itself.
def openOrCreate (file : Bytes) (worldUuid : WorldUuid) (coord : RegionCoord) :
    Except StorageError RegionFile :=
  if file.length = 0 then fromOpenFile crates (initialBytes crates worldUuid coord) worldUuid coord
  else if file.length < recordAreaOffset then
    .error (.invalidRegionHeader "file is shorter than fixed header/index area")
  else fromOpenFile crates file worldUuid coord

def openExisting (path : Option Bytes) (worldUuid : WorldUuid) (coord : RegionCoord) :
    Except StorageError (Option RegionFile) :=
  match path with
  | none => .ok none
  | some file =>
    if file.length < recordAreaOffset then
      .error (.invalidRegionHeader "file is shorter than fixed header/index area")
    else (fromOpenFile crates file worldUuid coord).map some

def entryLen : Option IndexEntry → Nat
  | none => 0
  | some entry => entry.recordLen.toNat

namespace RegionFile

def indexedChunks (r : RegionFile) : Nat :=
  (Finset.univ.filter fun slot => (r.index.entries slot).isSome).card

def liveBytes (r : RegionFile) : Nat := ∑ slot, entryLen (r.index.entries slot)

def stats (r : RegionFile) : Except StorageError RegionStats := do
  ensure (recordAreaOffset ≤ r.file.length)
    (.invalidRegionHeader "record area starts before fixed offset")
  let recordBytes := r.file.length - recordAreaOffset
  ensure (r.liveBytes ≤ recordBytes) (.corruptChunkRecord "indexed live bytes exceed record area")
  pure {
    fileBytes := r.file.length
    recordBytes := recordBytes
    liveBytes := r.liveBytes
    deadBytes := recordBytes - r.liveBytes
    indexedChunks := r.indexedChunks }

end RegionFile

def readIndexedRecord (file : Bytes) (coord : RegionCoord) (slot : Fin indexEntryCount)
    (entry : IndexEntry) : Except StorageError (Bytes × StoredChunk) := do
  let recordLen := entry.recordLen.toNat
  let offset := entry.recordOffset.toNat
  ensure (recordLen ≤ maxChunkRecordBytes) (.recordTooLarge recordLen maxChunkRecordBytes)
  ensure (recordAreaOffset ≤ offset)
    (.corruptChunkRecord "index points into fixed header/index area")
  ensure (offset + recordLen < UInt64.size) (.corruptChunkRecord "record offset overflow")
  ensure (offset + recordLen ≤ file.length)
    (.corruptChunkRecord "index points beyond end of region file")
  let record := sliceAt offset recordLen file
  ensure (crates.crc32c record = entry.recordCrc32c)
    (.corruptChunkRecord "indexed record checksum mismatch")
  let decoded ← decodeChunkRecord crates record
  let decodedSlot ← coord.localIndex decoded.position
  ensure (decodedSlot = slot) .indexRecordCoordinateMismatch
  ensure (decide (decoded.imported.terrainRevision = entry.terrainRevision) &&
      decide (decoded.imported.lightRevision = entry.lightRevision)) .indexRecordRevisionMismatch
  pure (record, decoded)

def loadSlot (file : Bytes) (coord : RegionCoord) (position : ChunkCoord)
    (slot : Fin indexEntryCount) : Option IndexEntry → Except StorageError (Option StoredChunk)
  | none => .ok none
  | some entry => do
    let (_, decoded) ← readIndexedRecord crates file coord slot entry
    ensure (decoded.position = position) .indexRecordCoordinateMismatch
    pure (some decoded)

def loadChunk (r : RegionFile) (position : ChunkCoord) :
    Except StorageError (Option StoredChunk) := do
  let slot ← r.coord.localIndex position
  loadSlot crates r.file r.coord position slot (r.index.entries slot)

structure EncodedRecord where
  slot : Fin indexEntryCount
  terrainRevision : UInt64
  lightRevision : UInt64
  record : Bytes

def encodeBatch (coord : RegionCoord) (policy : CompressionPolicy) :
    (Fin indexEntryCount → Bool) → List ChunkSnapshot → Except StorageError (List EncodedRecord)
  | _, [] => .ok []
  | seen, snapshot :: snapshots => do
    let slot ← coord.localIndex snapshot.position
    ensure (!seen slot) (.duplicateChunkInCommit snapshot.position.x snapshot.position.z)
    let record ← encodeChunkRecordWithPolicy crates snapshot policy []
    let encoded ← encodeBatch coord policy (Function.update seen slot true) snapshots
    pure (⟨slot, snapshot.terrainRevision, snapshot.lightRevision, record⟩ :: encoded)

-- Where an I/O call of one commit fails: a record or page write may stop after `k` bytes.
inductive SaveFault where
  | none
  | seekEnd
  | record (i k : Nat)
  | syncRecords
  | seekPage
  | page (k : Nat)
  | syncPage
  | stats
deriving DecidableEq, Repr

def SaveFault.stopsRecord : SaveFault → Nat → Option Nat
  | .record j k, i => if i = j then some k else Option.none
  | _, _ => Option.none

def writeAllAtEnd (stop : Option Nat) (bytes file : Bytes) : Except StorageError Unit × Bytes :=
  match stop with
  | some k => (.error .io, file ++ bytes.take (min k (maxFileBytes - file.length)))
  | none =>
    if file.length + bytes.length ≤ maxFileBytes then (.ok (), file ++ bytes)
    else (.error .io, file ++ bytes.take (maxFileBytes - file.length))

def EncodedRecord.entryAt (e : EncodedRecord) (offset : Nat) : IndexEntry where
  recordOffset := UInt64.ofNat offset
  recordLen := UInt32.ofNat e.record.length
  recordCrc32c := crates.crc32c e.record
  terrainRevision := e.terrainRevision
  lightRevision := e.lightRevision

abbrev Entries := Fin indexEntryCount → Option IndexEntry

def appendRecords (fault : SaveFault) :
    Nat → List EncodedRecord → Bytes → Entries → Except StorageError Entries × Bytes
  | _, [], file, entries => (.ok entries, file)
  | i, e :: rest, file, entries =>
    match writeAllAtEnd (fault.stopsRecord i) e.record file with
    | (.error error, file) => (.error error, file)
    | (.ok (), written) =>
      appendRecords fault (i + 1) rest written
        (Function.update entries e.slot (some (e.entryAt crates file.length)))

def tornPage (old new : Bytes) (k : Nat) : Bytes := new.take k ++ old.drop k

def commitPage (fault : SaveFault) (r : RegionFile) (next : RegionIndex) :
    Except StorageError Unit × RegionFile :=
  let inactive := otherPage r.activePage
  let page := encodeIndexPage crates next r.coord
  let written := putAt (indexPageOffset inactive) page r.file
  match fault with
  | .seekPage => (.error .io, r)
  | .page k => (.error .io, { r with
      file := putAt (indexPageOffset inactive) (tornPage (pageAt r.file inactive) page k) r.file })
  | .syncPage => (.error .io, { r with file := written })
  | _ => (.ok (), { r with file := written, activePage := inactive, index := next })

def saveStats (fault : SaveFault) (r : RegionFile) : Except StorageError RegionStats :=
  if fault = .stats then .error .io else r.stats

def saveChunks (fault : SaveFault) (r : RegionFile) (snapshots : List ChunkSnapshot)
    (policy : CompressionPolicy) : Except StorageError RegionSaveResult × RegionFile :=
  if snapshots = [] then
    ((saveStats fault r).map fun stats => ⟨r.index.generation, 0, 0, stats⟩, r)
  else match encodeBatch crates r.coord policy (fun _ => false) snapshots with
  | .error error => (.error error, r)
  | .ok encoded =>
    if fault = .seekEnd then (.error .io, r)
    else if r.file.length < recordAreaOffset then
      (.error (.invalidRegionHeader "record area starts before fixed offset"), r)
    else match appendRecords crates fault 0 encoded r.file r.index.entries with
    | (.error error, file) => (.error error, { r with file := file })
    | (.ok entries, file) =>
      if fault = .syncRecords then (.error .io, { r with file := file })
      else match checkedSucc r.index.generation with
      | none => (.error .indexGenerationExhausted, { r with file := file })
      | some generation =>
        match commitPage crates fault { r with file := file } ⟨generation, entries⟩ with
        | (.error error, r) => (.error error, r)
        | (.ok (), committed) =>
          ((saveStats fault committed).map fun stats =>
            ⟨generation, snapshots.length, file.length - r.file.length, stats⟩, committed)

end Cobblestone.Region
