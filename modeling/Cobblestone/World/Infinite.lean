import Cobblestone.Lib.Effect
import Cobblestone.World.Store

namespace Cobblestone.World

open Lib

abbrev fullLifecycle : UInt8 :=
  chunkLifecycleGenerated ||| chunkLifecyclePopulated ||| chunkLifecycleLightPopulated

structure PopulationChunkPlanes where
  states : List UInt16
  biomeIds : List UInt8
  generationHeightMap : Bytes
  extraData : ExtraData
  chestBlockEntities : List ChestBlockEntity

structure CarvedChunk where
  states : List UInt16
  biomes : List UInt32
  heightMap : Bytes

structure FinalizedChunk where
  heightMap : Bytes
  skyLight : Bytes
  blockLight : Bytes

-- The terrain maths of one seed: the cave stage of a chunk, the structures it starts, and the
-- population of a center together with its eight neighbors.
structure Terrain (γ : Type) where
  carve : ChunkCoord → CarvedChunk
  addFeatures : γ → ChunkCoord → γ
  populate : γ → ChunkCoord → (Fin 9 → PopulationChunkPlanes) →
    γ × (Fin 9 → PopulationChunkPlanes) × FinalizedChunk

structure OverworldInfinite (γ : Type) where
  state : γ
  store : WorldStore

structure InfiniteGenerationResult where
  changedChunks : Nat
  generatedCenter : Bool
deriving DecidableEq, Repr

abbrev Generate (γ : Type) := Effect WorldStoreError (OverworldInfinite γ)

def wrapOffset (center : ChunkCoord) (x z : Int32) : ChunkCoord := ⟨center.x + x, center.z + z⟩

def neighborhoodPosition (center : ChunkCoord) (index : Fin 9) : ChunkCoord :=
  wrapOffset center (Int32.ofNat (index % 3) - 1) (Int32.ofNat (index / 3) - 1)

def postProcessOffsets : List (Int32 × Int32) :=
  [(0, 0), (-1, -1), (0, -1), (1, -1), (-1, 0), (1, 0), (-1, 1), (0, 1), (1, 1)]

def extraKeyToLinearIndex (key : UInt16) : UInt16 :=
  let z := (key >>> 12) &&& 0x0f
  let x := (key >>> 8) &&& 0x0f
  let y := key &&& 0x7f
  (y <<< 8) ||| (z <<< 4) ||| x

def mapExtraKeys (f : UInt16 → UInt16) (extra : ExtraData) : ExtraData :=
  extra.foldl (fun m key value => m.insert (f key) value) ∅

def storeExtraToPopulation (extra : ExtraData) : ExtraData := mapExtraKeys extraKeyToLinearIndex extra

def populationExtraToStore (extra : ExtraData) : ExtraData := mapExtraKeys linearIndexToExtraKey extra

def planesFromSnapshot (s : ChunkSnapshot) : PopulationChunkPlanes where
  states := s.data.states
  biomeIds := s.data.biomes.map biomeId
  generationHeightMap := s.data.heightMap
  extraData := storeExtraToPopulation s.data.extraData
  chestBlockEntities := s.data.chestBlockEntities

def isGenerated (flags : UInt8) : Bool := flags &&& chunkLifecycleGenerated != 0

def isFull (flags : UInt8) : Bool := flags &&& fullLifecycle == fullLifecycle

namespace WorldStore

def generatedAt (s : WorldStore) (p : ChunkCoord) : Bool :=
  (s.chunks p).any fun c => isGenerated c.lifecycleFlags

def fullAt (s : WorldStore) (p : ChunkCoord) : Bool :=
  (s.chunks p).any fun c => isFull c.lifecycleFlags

def neighborhoodSnapshots (s : WorldStore) (center : ChunkCoord) (index : Fin 9) :
    Option ChunkSnapshot :=
  (s.chunks (neighborhoodPosition center index)).map
    fun c => c.snapshot (neighborhoodPosition center index)

end WorldStore

def readySnapshots (snapshots : Fin 9 → Option ChunkSnapshot) : Option (Fin 9 → ChunkSnapshot) :=
  if h : ∀ i, ∃ s, snapshots i = some s ∧ isGenerated s.lifecycleFlags = true then
    some fun i => (snapshots i).get (by obtain ⟨s, hs, -⟩ := h i; simp [hs])
  else none

section

variable {γ : Type} (terrain : Terrain γ)

def installGenerated (position : ChunkCoord) (i : ChunkImport) : Generate γ Bool :=
  .ofOp fun g =>
    let (result, store) := g.store.installGeneratedChunk position i
    (result, { g with store := store })

def updateState (f : γ → γ) : Generate γ Unit := .ofOp fun g => (.ok (), { g with state := f g.state })

def current : Generate γ (OverworldInfinite γ) := .ofOp fun g => (.ok g, g)

def carvedImport (carved : CarvedChunk) : ChunkImport where
  terrainRevision := 0
  lightRevision := 0
  lifecycleFlags := chunkLifecycleGenerated
  data :=
    { states := carved.states
      skyLight := List.replicate chunkNibbleBytes 0
      blockLight := List.replicate chunkNibbleBytes 0
      biomes := carved.biomes
      heightMap := carved.heightMap
      extraData := ∅
      chestBlockEntities := [] }

def ensureGeneratedChunk (position : ChunkCoord) : Generate γ Bool := do
  let g ← current
  if g.store.generatedAt position then pure false
  else
    updateState fun state => terrain.addFeatures state position
    installGenerated position (carvedImport (terrain.carve position))

def populatedImport (preserved : ChunkSnapshot) (planes : PopulationChunkPlanes)
    (finalized : FinalizedChunk) (index : Fin 9) : ChunkImport where
  terrainRevision := 0
  lightRevision := 0
  lifecycleFlags :=
    if index = 4 then fullLifecycle else preserved.lifecycleFlags ||| chunkLifecycleGenerated
  data :=
    { states := planes.states
      skyLight := if index = 4 then finalized.skyLight else preserved.data.skyLight
      blockLight := if index = 4 then finalized.blockLight else preserved.data.blockLight
      biomes := preserved.data.biomes
      heightMap := if index = 4 then finalized.heightMap else planes.generationHeightMap
      extraData := populationExtraToStore planes.extraData
      chestBlockEntities := planes.chestBlockEntities }

def installCounted (position : ChunkCoord) (i : ChunkImport) : Generate γ Nat := do
  let changed ← installGenerated position i
  pure changed.toNat

def populateCenter (target : ChunkCoord) (state : γ) (snapshots : Fin 9 → ChunkSnapshot) :
    Generate γ Nat := do
  let (state, planes, finalized) :=
    terrain.populate state target fun i => planesFromSnapshot (snapshots i)
  updateState fun _ => state
  Effect.sumM (fun i => installCounted (neighborhoodPosition target i)
    (populatedImport (snapshots i) (planes i) finalized i)) (List.finRange 9)

def tryPostProcessCenter (target : ChunkCoord) : Generate γ Nat := do
  let g ← current
  if !g.store.generatedAt target || g.store.fullAt target then pure 0
  else
    match readySnapshots (g.store.neighborhoodSnapshots target) with
    | none => pure 0
    | some snapshots => populateCenter terrain target g.state snapshots

def postProcessArea (generated : ChunkCoord) : Generate γ Nat :=
  Effect.sumM (fun offset => tryPostProcessCenter terrain (wrapOffset generated offset.1 offset.2))
    postProcessOffsets

def generateNeighbor (position : ChunkCoord) : Generate γ Nat := do
  let changed ← ensureGeneratedChunk terrain position
  if changed then
    let n ← postProcessArea terrain position
    pure (1 + n)
  else pure 0

def generateIntoStore (target : ChunkCoord) : Generate γ InfiniteGenerationResult := do
  let g ← current
  if g.store.fullAt target then pure ⟨0, false⟩
  else
    let around ← Effect.sumM (fun i => generateNeighbor terrain (neighborhoodPosition target i))
      (List.finRange 9)
    let center ← postProcessArea terrain target
    let g ← current
    pure ⟨around + center, g.store.fullAt target⟩

end

end Cobblestone.World
