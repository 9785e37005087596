import Cobblestone.World.PopulationLight

namespace Cobblestone.World

open Lib

abbrev chestBlockId : UInt16 := 54

def ChestBlockEntity.place (entity : ChestBlockEntity) : Int32 × Int32 × Int32 :=
  (entity.x, entity.y, entity.z)

-- The first entity at the place is replaced; without one the new entity comes last.
def putEntity (entity : ChestBlockEntity) : List ChestBlockEntity → List ChestBlockEntity
  | [] => [entity]
  | existing :: entities =>
    if existing.place = entity.place then entity :: entities
    else existing :: putEntity entity entities

-- A write of one cell of a chunk's planes; none changes how much of each plane there is.
structure PlanesEdit where
  run : Nat → PopulationChunkPlanes → PopulationChunkPlanes
  states_length : ∀ index planes, (run index planes).states.length = planes.states.length
  biomeIds : ∀ index planes, (run index planes).biomeIds = planes.biomeIds
  generationHeightMap : ∀ index planes,
    (run index planes).generationHeightMap = planes.generationHeightMap

namespace PlanesEdit

def setState (worldX y worldZ : Int32) (value : UInt16) : PlanesEdit where
  run index planes :=
    let previousId := planes.states.getD index 0 >>> 4
    { planes with
      states := planes.states.set index value
      chestBlockEntities :=
        if previousId = chestBlockId ∧ value >>> 4 ≠ chestBlockId then
          planes.chestBlockEntities.filter fun entity => entity.place ≠ (worldX, y, worldZ)
        else planes.chestBlockEntities }
  states_length _ _ := List.length_set
  biomeIds _ _ := rfl
  generationHeightMap _ _ := rfl

def putChestBlockEntity (entity : ChestBlockEntity) : PlanesEdit where
  run _ planes := { planes with chestBlockEntities := putEntity entity planes.chestBlockEntities }
  states_length _ _ := rfl
  biomeIds _ _ := rfl
  generationHeightMap _ _ := rfl

def setExtraData (value : UInt16) : PlanesEdit where
  run index planes :=
    let key := UInt16.ofNat index
    { planes with
      extraData := if value = 0 then planes.extraData.erase key else planes.extraData.insert key value }
  states_length _ _ := rfl
  biomeIds _ _ := rfl
  generationHeightMap _ _ := rfl

end PlanesEdit

namespace PopulationNeighborhood

variable (region : PopulationNeighborhood)

def modify (index : Fin 9) (cell : Nat) (edit : PlanesEdit) : PopulationNeighborhood where
  center := region.center
  chunks := Function.update region.chunks index (edit.run cell (region.chunks index))
  states_length i := by
    by_cases hi : i = index
    · subst hi
      rw [Function.update_self, edit.states_length, region.states_length]
    · rw [Function.update_of_ne hi, region.states_length]
  biomeIds_length i := by
    by_cases hi : i = index
    · subst hi
      rw [Function.update_self, edit.biomeIds, region.biomeIds_length]
    · rw [Function.update_of_ne hi, region.biomeIds_length]
  generationHeightMap_length i := by
    by_cases hi : i = index
    · subst hi
      rw [Function.update_self, edit.generationHeightMap, region.generationHeightMap_length]
    · rw [Function.update_of_ne hi, region.generationHeightMap_length]

-- Every writer checks the height, resolves the column and then writes its chunk.
def write (worldX y worldZ : Int32) (edit : PlanesEdit) : Bool × PopulationNeighborhood :=
  if hy : 0 ≤ y.toInt ∧ y.toInt < worldHeight then
    match region.resolve worldX worldZ with
    | none => (false, region)
    | some (index, localX, localZ) =>
      (true, region.modify index (blockIndex localX ⟨y.toInt.toNat, by omega⟩ localZ) edit)
  else (false, region)

def setState (worldX y worldZ : Int32) (value : UInt16) : Bool × PopulationNeighborhood :=
  region.write worldX y worldZ (.setState worldX y worldZ value)

def putChestBlockEntity (worldX y worldZ : Int32) (items : List ChestItemStack) :
    Bool × PopulationNeighborhood :=
  region.write worldX y worldZ (.putChestBlockEntity ⟨worldX, y, worldZ, items⟩)

def setExtraData (worldX y worldZ : Int32) (value : UInt16) : Bool × PopulationNeighborhood :=
  region.write worldX y worldZ (.setExtraData value)

-- The one place of the features that makes a block entity; the data is the way the chest faces.
def createSmithyChest (worldX y worldZ : Int32) (data : Fin 16) (items : List ChestItemStack) :
    PopulationNeighborhood :=
  if region.blockId worldX y.toInt worldZ = chestBlockId then region
  else
    let placed := (region.setState worldX y worldZ ((chestBlockId <<< 4) ||| UInt16.ofNat data)).2
    (placed.putChestBlockEntity worldX y worldZ items).2

end PopulationNeighborhood

inductive NeighborhoodWrite where
  | setState (worldX y worldZ : Int32) (value : UInt16)
  | setExtraData (worldX y worldZ : Int32) (value : UInt16)
  | createSmithyChest (worldX y worldZ : Int32) (data : Fin 16) (items : List ChestItemStack)

def NeighborhoodWrite.apply (region : PopulationNeighborhood) :
    NeighborhoodWrite → PopulationNeighborhood
  | .setState worldX y worldZ value => (region.setState worldX y worldZ value).2
  | .setExtraData worldX y worldZ value => (region.setExtraData worldX y worldZ value).2
  | .createSmithyChest worldX y worldZ data items =>
    region.createSmithyChest worldX y worldZ data items

-- Population with its features left open: whatever they read and draw, they end in writes.
structure Population (γ : Type) where
  carve : ChunkCoord → CarvedChunk
  addFeatures : γ → ChunkCoord → γ
  features : γ → PopulationNeighborhood → γ × List NeighborhoodWrite

structure PlaneSizes (planes : PopulationChunkPlanes) : Prop where
  states : planes.states.length = chunkBlockCount
  biomeIds : planes.biomeIds.length = chunkColumnCount
  generationHeightMap : planes.generationHeightMap.length = chunkColumnCount

instance (planes : PopulationChunkPlanes) : Decidable (PlaneSizes planes) :=
  decidable_of_iff (planes.states.length = chunkBlockCount ∧
    planes.biomeIds.length = chunkColumnCount ∧
      planes.generationHeightMap.length = chunkColumnCount)
    ⟨fun h => ⟨h.1, h.2.1, h.2.2⟩, fun h => ⟨h.states, h.biomeIds, h.generationHeightMap⟩⟩

def Population.populate {γ : Type} (population : Population γ) (state : γ) (target : ChunkCoord)
    (chunks : Fin 9 → PopulationChunkPlanes) :
    γ × (Fin 9 → PopulationChunkPlanes) × FinalizedChunk :=
  if h : ∀ i, PlaneSizes (chunks i) then
    let region : PopulationNeighborhood :=
      ⟨target, chunks, fun i => (h i).states, fun i => (h i).biomeIds,
        fun i => (h i).generationHeightMap⟩
    let (state, writes) := population.features state region
    let region := writes.foldl NeighborhoodWrite.apply region
    (state, region.chunks, finalizeCenterLighting region)
  else (state, chunks, ⟨[], [], []⟩)

def Population.terrain {γ : Type} (population : Population γ) : Terrain γ where
  carve := population.carve
  addFeatures := population.addFeatures
  populate := population.populate

end Cobblestone.World
