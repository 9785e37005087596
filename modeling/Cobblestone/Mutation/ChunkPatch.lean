import Cobblestone.Mutation.Snapshot
import Cobblestone.World.Patch

namespace Cobblestone.Mutation

open Lib World Storage

abbrev snapshotPrepareThreshold : Nat := 768

structure StagedEdits where
  blocks : List (Nat × UInt16)
  biomes : List (Nat × BiomeColumn)
  extraData : List (Nat × UInt16)
  skyLight : List (Nat × UInt8)
  blockLight : List (Nat × UInt8)
deriving DecidableEq

def StagedEdits.comparisons (edits : StagedEdits) : Nat :=
  edits.blocks.length + edits.biomes.length + edits.extraData.length + edits.skyLight.length +
    edits.blockLight.length

def StagedEdits.terrainChanged (edits : StagedEdits) : Bool :=
  !edits.blocks.isEmpty || !edits.biomes.isEmpty || !edits.extraData.isEmpty

def StagedEdits.lightChanged (edits : StagedEdits) : Bool :=
  !edits.skyLight.isEmpty || !edits.blockLight.isEmpty

structure ChunkPatch where
  position : ChunkCoord
  baseRevision : Int64
  baseLightRevision : Int64
  snapshot : Option ChunkSnapshot
  edits : StagedEdits

structure PreparedChunkPatch where
  position : ChunkCoord
  baseRevision : Int64
  revision : Int64
  baseLightRevision : Int64
  lightRevision : Int64
  edits : StagedEdits

variable {α β : Type}

def orConflict (message : String) : Option α → Except MutationError α
  | some a => .ok a
  | none => .error (.conflict message)

def filterChanged [DecidableEq β] (edits : List (Nat × α)) (value : α → β)
    (current : Nat → Except MutationError β) : Except MutationError (List (Nat × α)) :=
  match edits with
  | [] => .ok []
  | edit :: edits => do
    let stored ← current edit.1
    let rest ← filterChanged edits value current
    pure (if value edit.2 ≠ stored then edit :: rest else rest)

namespace ChunkPatch

variable (store : WorldStore) (patch : ChunkPatch)

-- Every getter reads the projection where one was taken, and the native chunk otherwise.
def cellAtKey (key : Nat) (projected : ChunkSnapshot → Nat → Nat → Nat → Option α)
    (stored : WorldStore → ChunkCoord → Nat → Nat → Nat → Except MutationError α)
    (message : String) : Except MutationError α :=
  let (x, y, z) := ChunkCoordinateKey.decodeBlock key
  match patch.snapshot with
  | some snapshot => orConflict message (projected snapshot x y z)
  | none => stored store patch.position x y z

def blockStateIdAtKey (key : Nat) : Except MutationError UInt16 :=
  patch.cellAtKey store key ChunkSnapshot.blockStateId Chunk.blockStateId
    "snapshot block coordinates became invalid"

def extraDataAtKey (key : Nat) : Except MutationError UInt16 :=
  patch.cellAtKey store key ChunkSnapshot.blockExtraDataAt Chunk.blockExtraData
    "snapshot extra-data coordinates became invalid"

def skyLightAtKey (key : Nat) : Except MutationError UInt8 :=
  patch.cellAtKey store key ChunkSnapshot.skyLightLevel Chunk.skyLight
    "snapshot sky-light coordinates became invalid"

def blockLightAtKey (key : Nat) : Except MutationError UInt8 :=
  patch.cellAtKey store key ChunkSnapshot.blockLightLevel Chunk.blockLight
    "snapshot block-light coordinates became invalid"

def biomeColumnAtKey (key : Nat) : Except MutationError BiomeColumn :=
  let (x, z) := ChunkCoordinateKey.decodeColumn key
  match patch.snapshot with
  | some snapshot => do
    let column ← snapshot.biomeColumn x z
    orConflict "snapshot biome coordinates became invalid" column
  | none => Chunk.biomeColumn store patch.position x z

def biomeWordAtKey (key : Nat) : Except MutationError UInt32 :=
  (patch.biomeColumnAtKey store key).map BiomeColumn.word

def keptEdits : Except MutationError StagedEdits := do
  let blocks ← filterChanged patch.edits.blocks id (patch.blockStateIdAtKey store)
  let biomes ← filterChanged patch.edits.biomes BiomeColumn.word (patch.biomeWordAtKey store)
  let extraData ← filterChanged patch.edits.extraData id (patch.extraDataAtKey store)
  let skyLight ← filterChanged patch.edits.skyLight id (patch.skyLightAtKey store)
  let blockLight ← filterChanged patch.edits.blockLight id (patch.blockLightAtKey store)
  pure ⟨blocks, biomes, extraData, skyLight, blockLight⟩

def primeSnapshotForPrepare : Except MutationError ChunkPatch :=
  if patch.snapshot.isSome ∨ patch.edits.comparisons < snapshotPrepareThreshold then .ok patch
  else do
    let snapshot ← Chunk.snapshot store patch.position
    ensure (snapshot.revision = patch.baseRevision ∧
      snapshot.lightRevision = patch.baseLightRevision)
      (.conflict "chunk changed while mutation snapshot was being captured")
    pure { patch with snapshot := some snapshot }

def prepare : Except MutationError PreparedChunkPatch := do
  let patch ← patch.primeSnapshotForPrepare store
  let revision ← Chunk.revision store patch.position
  ensure (revision = patch.baseRevision)
    (.conflict "chunk terrain changed while mutation was being prepared")
  let lightRevision ← Chunk.lightRevision store patch.position
  ensure (lightRevision = patch.baseLightRevision)
    (.conflict "chunk light changed while mutation was being prepared")
  let kept ← patch.keptEdits store
  ensure (!(kept.terrainChanged && patch.baseRevision = Int64.maxValue))
    (.conflict "chunk terrain revision space exhausted")
  ensure (!(kept.lightChanged && patch.baseLightRevision = Int64.maxValue))
    (.conflict "chunk light revision space exhausted")
  pure
    { position := patch.position
      baseRevision := patch.baseRevision
      revision := if kept.terrainChanged then patch.baseRevision + 1 else patch.baseRevision
      baseLightRevision := patch.baseLightRevision
      lightRevision :=
        if kept.lightChanged then patch.baseLightRevision + 1 else patch.baseLightRevision
      edits := kept }

end ChunkPatch

open WorldStore

-- The payload that crosses to the native side: scalars cut to the widths they are packed in.
def nativePatch (expectedTerrain nextTerrain expectedLight nextLight : Int64) (edits : StagedEdits) :
    World.ChunkPatch where
  expectedTerrainRevision := expectedTerrain.toUInt64
  nextTerrainRevision := nextTerrain.toUInt64
  expectedLightRevision := expectedLight.toUInt64
  nextLightRevision := nextLight.toUInt64
  blocks := edits.blocks.map fun edit => (UInt16.ofNat edit.1, edit.2)
  biomes := edits.biomes.map fun edit => (UInt8.ofNat edit.1, edit.2.word)
  extraData := edits.extraData.map fun edit => (UInt16.ofNat edit.1, edit.2)
  skyLight := edits.skyLight.map fun edit => (UInt16.ofNat edit.1, edit.2)
  blockLight := edits.blockLight.map fun edit => (UInt16.ofNat edit.1, edit.2)

def Chunk.applyPatch (store : WorldStore) (position : ChunkCoord)
    (expectedTerrain nextTerrain expectedLight nextLight : Int64) (edits : StagedEdits) :
    Except MutationError Unit × WorldStore :=
  let applied := store.applyPatch position
    (nativePatch expectedTerrain nextTerrain expectedLight nextLight edits)
  (applied.1.mapError .world, applied.2)

variable {store : WorldStore} {p : ChunkCoord} {c : ChunkRecord} {edits : StagedEdits}

def advanced (base : Int64) (changed : Bool) : Int64 := if changed then base + 1 else base

theorem advanced_succ {n : UInt64} (changed : Bool) (hn : n.toNat < 2 ^ 63) :
    (if changed then checkedSucc n else some n) = some (advanced n.toInt64 changed).toUInt64 := by
  cases changed with
  | false => rfl
  | true =>
    have hlt : n.toNat + 1 < UInt64.size := by
      rw [UInt64.size]
      omega
    rw [if_pos rfl, checkedSucc, if_pos hlt]
    rfl

theorem nativePatch_accepted (edits : StagedEdits) (ht : c.terrainRevision.toNat < 2 ^ 63)
    (hl : c.lightRevision.toNat < 2 ^ 63) :
    PatchAccepted c (nativePatch c.terrainRevision.toInt64
      (advanced c.terrainRevision.toInt64 edits.terrainChanged) c.lightRevision.toInt64
      (advanced c.lightRevision.toInt64 edits.lightChanged) edits) where
  terrain := (UInt64.toUInt64_toInt64 _).symm
  light := (UInt64.toUInt64_toInt64 _).symm
  nextTerrain := by
    have h := advanced_succ edits.terrainChanged ht
    simpa [patchChangesTerrain, nativePatch, StagedEdits.terrainChanged] using h
  nextLight := by
    have h := advanced_succ edits.lightChanged hl
    simpa [patchChangesLight, nativePatch, StagedEdits.lightChanged] using h

theorem applyPatch_accepted {expectedTerrain nextTerrain expectedLight nextLight : Int64}
    (hc : store.chunks p = some c)
    (hvalid : PatchValid (nativePatch expectedTerrain nextTerrain expectedLight nextLight edits))
    (haccepted :
      PatchAccepted c (nativePatch expectedTerrain nextTerrain expectedLight nextLight edits)) :
    ∃ store', Chunk.applyPatch store p expectedTerrain nextTerrain expectedLight nextLight edits =
        (.ok (), store') ∧
      store'.chunks = Function.update store.chunks p
        (some (patched c (nativePatch expectedTerrain nextTerrain expectedLight nextLight edits))) := by
  rcases applyPatch_cases hc (nativePatch expectedTerrain nextTerrain expectedLight nextLight edits) with
    ⟨-, -, heq⟩ | ⟨hno, -⟩
  · rw [Chunk.applyPatch, heq]
    refine ⟨_, rfl, ?_⟩
    dsimp only
    split <;> rfl
  · exact absurd ⟨hvalid, haccepted⟩ hno

end Cobblestone.Mutation
