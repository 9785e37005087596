import Cobblestone.Storage.PayloadRoundTrip
import Cobblestone.World.Edits

namespace Cobblestone.World.WorldStore

open Lib

variable (s : WorldStore) (position : ChunkCoord) (x y z : UInt8)

def blockState : Except WorldStoreError UInt16 := do
  let index ← blockIndex x y z
  s.withChunk position fun c => .ok (c.data.states.getD index 0)

def skyLight : Except WorldStoreError UInt8 := do
  let index ← blockIndex x y z
  s.withChunk position fun c => .ok (readNibble c.data.skyLight index)

def blockLight : Except WorldStoreError UInt8 := do
  let index ← blockIndex x y z
  s.withChunk position fun c => .ok (readNibble c.data.blockLight index)

def blockExtraData : Except WorldStoreError UInt16 := do
  let key ← extraKey x y z
  s.withChunk position fun c => .ok ((c.data.extraData[key]?).getD 0)

def terrainRevision : Except WorldStoreError UInt64 :=
  s.withChunk position fun c => .ok c.terrainRevision

def lightRevision : Except WorldStoreError UInt64 :=
  s.withChunk position fun c => .ok c.lightRevision

end Cobblestone.World.WorldStore

namespace Cobblestone.Mutation

open Lib World Storage

inductive MutationError where
  | world (error : WorldStoreError)
  | extraDataCountExceedsU32
  | revisionExceedsPhpRange
  | projectionTruncated
  | snapshotRevisionExceedsPhpRange
  | extraDataLengthMismatch
  | planeLength (plane : String)
  | unsupportedBiome (id : UInt8)
  | coordinates
  | conflict (message : String)
deriving DecidableEq, Repr

variable {α : Type}

def projectExtra (entry : UInt16 × UInt16) : Bytes :=
  toLE 2 entry.1.toNat ++ toLE 2 entry.2.toNat

def projectData (data : ChunkData) : Bytes :=
  data.states.map stateHigh ++ (packNibbles chunkNibbleBytes (data.states.map stateNibble) ++
    (data.skyLight ++ (data.blockLight ++ (data.biomes.flatMap toBigEndian ++ (data.heightMap ++
      (toLE 4 data.extraData.size ++ data.extraData.toList.flatMap projectExtra))))))

def worldSnapshot (store : WorldStore) (position : ChunkCoord) : Except MutationError Bytes :=
  match store.snapshot position with
  | .error e => .error (.world e)
  | .ok snapshot =>
    if snapshot.data.extraData.size < UInt32.size then
      .ok (toLE 8 snapshot.terrainRevision.toNat ++ (toLE 8 snapshot.lightRevision.toNat ++
        projectData snapshot.data))
    else .error .extraDataCountExceedsU32

def containsLocal (coordinate : Nat) : Bool := decide (coordinate < chunkEdge)

def containsY (y : Nat) : Bool := decide (y < worldHeight)

def containsCell (x y z : Nat) : Bool := containsLocal x && containsLocal z && containsY y

namespace ChunkCoordinateKey

def block (x y z : Nat) : Nat := (y <<< 8) ||| (z <<< 4) ||| x

def decodeBlock (key : Nat) : Nat × Nat × Nat := (key &&& 0x0f, (key >>> 8) &&& 0x7f, (key >>> 4) &&& 0x0f)

def column (x z : Nat) : Nat := (z <<< 4) ||| x

def decodeColumn (key : Nat) : Nat × Nat := (key &&& 0x0f, (key >>> 4) &&& 0x0f)

end ChunkCoordinateKey

structure BiomeColumn where
  id : UInt8
  color : UInt32
deriving DecidableEq, Repr

def BiomeColumn.fromWord (word : UInt32) : Except MutationError BiomeColumn :=
  if biomeIdIsSupported (biomeId word) then .ok ⟨biomeId word, biomeColor word⟩
  else .error (.unsupportedBiome (biomeId word))

def BiomeColumn.word (column : BiomeColumn) : UInt32 := (column.id.toUInt32 <<< 24) ||| column.color

structure ChunkSnapshot where
  position : ChunkCoord
  revision : Int64
  blockIds : Bytes
  blockData : Bytes
  skyLight : Bytes
  blockLight : Bytes
  biomeWords : Bytes
  heightMap : Bytes
  extraData : ExtraData
  lightRevision : Int64

namespace ChunkSnapshot

def biomeIds (snapshot : ChunkSnapshot) : Bytes :=
  (List.range chunkColumnCount).map fun index => snapshot.biomeWords.getD (index * 4) 0

def construct (snapshot : ChunkSnapshot) : Except MutationError ChunkSnapshot := do
  ensure (snapshot.blockIds.length = chunkBlockCount) (.planeLength "block-id")
  ensure (snapshot.blockData.length = chunkNibbleBytes) (.planeLength "block data")
  ensure (snapshot.skyLight.length = chunkNibbleBytes) (.planeLength "sky light")
  ensure (snapshot.blockLight.length = chunkNibbleBytes) (.planeLength "block light")
  ensure (snapshot.biomeWords.length = chunkColumnCount * 4 ∧
    snapshot.heightMap.length = chunkColumnCount) (.planeLength "column")
  snapshot.biomeIds.forM fun id => ensure (biomeIdIsSupported id) (.unsupportedBiome id)
  ensure (decide (0 ≤ snapshot.lightRevision)) .snapshotRevisionExceedsPhpRange
  pure snapshot

def cell (x y z : Nat) (read : Nat → α) : Option α :=
  if containsCell x y z then some (read (ChunkCoordinateKey.block x y z)) else none

def blockStateId (snapshot : ChunkSnapshot) (x y z : Nat) : Option UInt16 :=
  cell x y z fun index =>
    joinState (snapshot.blockIds.getD index 0) (readNibble snapshot.blockData index)

def skyLightLevel (snapshot : ChunkSnapshot) (x y z : Nat) : Option UInt8 :=
  cell x y z (readNibble snapshot.skyLight)

def blockLightLevel (snapshot : ChunkSnapshot) (x y z : Nat) : Option UInt8 :=
  cell x y z (readNibble snapshot.blockLight)

def blockExtraDataAt (snapshot : ChunkSnapshot) (x y z : Nat) : Option UInt16 :=
  cell x y z fun index => (snapshot.extraData[UInt16.ofNat index]?).getD 0

def biomeWord (snapshot : ChunkSnapshot) (x z : Nat) : Option UInt32 :=
  if containsLocal x && containsLocal z then
    some (fromBigEndian (sliceAt (ChunkCoordinateKey.column x z * 4) 4 snapshot.biomeWords))
  else none

def biomeColumn (snapshot : ChunkSnapshot) (x z : Nat) : Except MutationError (Option BiomeColumn) :=
  match snapshot.biomeWord x z with
  | none => .ok none
  | some word => (BiomeColumn.fromWord word).map some

end ChunkSnapshot

namespace SnapshotDecoder

abbrev ProjectionReader := Reader MutationError

def take (length : Nat) : ProjectionReader Bytes := Reader.bytes length .projectionTruncated

def takeInt : ProjectionReader Int64 := do
  let bytes ← take 8
  pure (UInt64.ofNat (ofLE bytes)).toInt64

def takeEntry : ProjectionReader (UInt16 × UInt16) := do
  let bytes ← take 4
  pure (UInt16.ofNat (ofLE (sliceAt 0 2 bytes)), UInt16.ofNat (ofLE (sliceAt 2 2 bytes)))

def expectEntries (count : Nat) : ProjectionReader Unit := fun rest =>
  if rest.length / 4 < count ∨ rest.length ≠ count * 4 then .error .extraDataLengthMismatch
  else .ok ((), rest)

def decode (position : ChunkCoord) : ProjectionReader ChunkSnapshot := do
  let terrainRevision ← takeInt
  let lightRevision ← takeInt
  Reader.require (decide (0 ≤ terrainRevision) && decide (0 ≤ lightRevision))
    .snapshotRevisionExceedsPhpRange
  let blockIds ← take chunkBlockCount
  let blockData ← take chunkNibbleBytes
  let skyLight ← take chunkNibbleBytes
  let blockLight ← take chunkNibbleBytes
  let biomeWords ← take (chunkColumnCount * 4)
  let heightMap ← take chunkColumnCount
  let extraCount ← Reader.natLE 4 .projectionTruncated
  expectEntries extraCount
  let entries ← Reader.times takeEntry extraCount
  liftM (ChunkSnapshot.construct
    { position := position, revision := terrainRevision, blockIds := blockIds,
      blockData := blockData, skyLight := skyLight, blockLight := blockLight,
      biomeWords := biomeWords, heightMap := heightMap,
      extraData := (∅ : ExtraData).insertMany entries, lightRevision := lightRevision })

end SnapshotDecoder

namespace Chunk

variable (store : WorldStore) (position : ChunkCoord) (x y z : Nat)

def phpRevision (revision : Except WorldStoreError UInt64) : Except MutationError Int64 :=
  match revision with
  | .error e => .error (.world e)
  | .ok revision =>
    if revision.toNat < 2 ^ 63 then .ok revision.toInt64 else .error .revisionExceedsPhpRange

def revision : Except MutationError Int64 := phpRevision (store.terrainRevision position)

def lightRevision : Except MutationError Int64 := phpRevision (store.lightRevision position)

def snapshot : Except MutationError ChunkSnapshot := do
  let projection ← worldSnapshot store position
  let decoded ← SnapshotDecoder.decode position projection
  pure decoded.1

def cell (get : UInt8 → UInt8 → UInt8 → Except WorldStoreError α) : Except MutationError α :=
  if containsCell x y z then (get (UInt8.ofNat x) (UInt8.ofNat y) (UInt8.ofNat z)).mapError .world
  else .error .coordinates

def blockStateId : Except MutationError UInt16 := cell x y z (store.blockState position)

def skyLight : Except MutationError UInt8 := cell x y z (store.skyLight position)

def blockLight : Except MutationError UInt8 := cell x y z (store.blockLight position)

def blockExtraData : Except MutationError UInt16 := cell x y z (store.blockExtraData position)

def biomeColumn : Except MutationError BiomeColumn :=
  if containsLocal x && containsLocal z then
    match store.biomeWord position (UInt8.ofNat x) (UInt8.ofNat z) with
    | .error e => .error (.world e)
    | .ok word => BiomeColumn.fromWord word
  else .error .coordinates

end Chunk

end Cobblestone.Mutation
