import Cobblestone.Lib.Nibble
import Cobblestone.Lib.Result
import Cobblestone.World.Catalog

namespace Cobblestone.World

open Lib

structure ChunkCoord where
  x : Int32
  z : Int32
deriving DecidableEq, Repr

structure ChestItemStack where
  slot : UInt8
  itemId : Int16
  damage : Int16
  count : UInt8
deriving DecidableEq, Repr

structure ChestBlockEntity where
  x : Int32
  y : Int32
  z : Int32
  items : List ChestItemStack
deriving DecidableEq, Repr

abbrev ExtraData := Std.ExtTreeMap UInt16 UInt16

structure ChunkData where
  states : List UInt16
  skyLight : Bytes
  blockLight : Bytes
  biomes : List UInt32
  heightMap : Bytes
  extraData : ExtraData
  chestBlockEntities : List ChestBlockEntity
deriving DecidableEq

def ChunkData.empty (biomeWord : UInt32) : ChunkData where
  states := List.replicate chunkBlockCount 0
  skyLight := List.replicate chunkNibbleBytes 0
  blockLight := List.replicate chunkNibbleBytes 0
  biomes := List.replicate chunkColumnCount biomeWord
  heightMap := List.replicate chunkColumnCount 0
  extraData := ∅
  chestBlockEntities := []

structure ChunkImport where
  terrainRevision : UInt64
  lightRevision : UInt64
  lifecycleFlags : UInt8
  data : ChunkData
deriving DecidableEq

structure ChunkSnapshot where
  position : ChunkCoord
  terrainRevision : UInt64
  lightRevision : UInt64
  lifecycleFlags : UInt8
  data : ChunkData
deriving DecidableEq

def ChunkSnapshot.toImport (snapshot : ChunkSnapshot) : ChunkImport where
  terrainRevision := snapshot.terrainRevision
  lightRevision := snapshot.lightRevision
  lifecycleFlags := snapshot.lifecycleFlags
  data := snapshot.data

structure ChunkRecord where
  terrainRevision : UInt64
  lightRevision : UInt64
  persistedTerrainRevision : Option UInt64
  persistedLightRevision : Option UInt64
  persistedLifecycleFlags : Option UInt8
  pinCount : UInt32
  lifecycleFlags : UInt8
  data : ChunkData
deriving DecidableEq

def ChunkRecord.empty (biomeWord : UInt32) : ChunkRecord where
  terrainRevision := 0
  lightRevision := 0
  persistedTerrainRevision := none
  persistedLightRevision := none
  persistedLifecycleFlags := none
  pinCount := 0
  lifecycleFlags := 0
  data := ChunkData.empty biomeWord

def ChunkRecord.fromImport (i : ChunkImport) : ChunkRecord where
  terrainRevision := i.terrainRevision
  lightRevision := i.lightRevision
  persistedTerrainRevision := some i.terrainRevision
  persistedLightRevision := some i.lightRevision
  persistedLifecycleFlags := some i.lifecycleFlags
  pinCount := 0
  lifecycleFlags := i.lifecycleFlags
  data := i.data

def ChunkRecord.isDirty (c : ChunkRecord) : Bool :=
  c.persistedTerrainRevision != some c.terrainRevision ||
    c.persistedLightRevision != some c.lightRevision ||
    c.persistedLifecycleFlags != some c.lifecycleFlags

def ChunkRecord.snapshot (c : ChunkRecord) (position : ChunkCoord) : ChunkSnapshot where
  position := position
  terrainRevision := c.terrainRevision
  lightRevision := c.lightRevision
  lifecycleFlags := c.lifecycleFlags
  data := c.data

theorem ChunkRecord.fromImport_not_dirty (i : ChunkImport) :
    (ChunkRecord.fromImport i).isDirty = false := by
  simp [ChunkRecord.fromImport, ChunkRecord.isDirty]

theorem ChunkRecord.not_dirty_iff (c : ChunkRecord) : c.isDirty = false ↔
    c.persistedTerrainRevision = some c.terrainRevision ∧
      c.persistedLightRevision = some c.lightRevision ∧
      c.persistedLifecycleFlags = some c.lifecycleFlags := by
  simp [ChunkRecord.isDirty, and_assoc]

structure ChunkPatch where
  expectedTerrainRevision : UInt64
  nextTerrainRevision : UInt64
  expectedLightRevision : UInt64
  nextLightRevision : UInt64
  blocks : List (UInt16 × UInt16)
  biomes : List (UInt8 × UInt32)
  extraData : List (UInt16 × UInt16)
  skyLight : List (UInt16 × UInt8)
  blockLight : List (UInt16 × UInt8)
deriving DecidableEq

abbrev chunkLifecycleGenerated : UInt8 := 0x01
abbrev chunkLifecyclePopulated : UInt8 := 0x02
abbrev chunkLifecycleLightPopulated : UInt8 := 0x04
abbrev chunkLifecycleMask : UInt8 :=
  chunkLifecycleGenerated ||| chunkLifecyclePopulated ||| chunkLifecycleLightPopulated

inductive ChunkEviction where
  | missing
  | pinned (pins : UInt32)
  | dirty
  | evicted
deriving DecidableEq, Repr

inductive WorldStoreError where
  | chunkMissing (x z : Int32)
  | invalidState (state : UInt16)
  | invalidBlockIndex (index : UInt16)
  | invalidColumnIndex (index : UInt8)
  | invalidBiome (id : UInt8)
  | invalidLight (level : UInt8)
  | invalidLayerRange (startY count : UInt8)
  | invalidImport (field : String)
  | invalidLifecycleFlags (flags : UInt8)
  | pinCountExhausted
  | chunkNotPinned
  | persistedTerrainRevisionAhead (persisted current : UInt64)
  | persistedLightRevisionAhead (persisted current : UInt64)
  | persistedTerrainRevisionRegression (previous requested : UInt64)
  | persistedLightRevisionRegression (previous requested : UInt64)
  | terrainRevisionConflict (expected actual : UInt64)
  | lightRevisionConflict (expected actual : UInt64)
  | invalidTerrainRevisionTransition (expectedNext requested : UInt64)
  | invalidLightRevisionTransition (expectedNext requested : UInt64)
  | terrainRevisionExhausted
  | lightRevisionExhausted
deriving DecidableEq, Repr

def validateBlockIndex (index : UInt16) : Except WorldStoreError Unit :=
  if chunkBlockCount ≤ index.toNat then .error (.invalidBlockIndex index) else .ok ()

def validateColumnIndex (index : UInt8) : Except WorldStoreError Unit :=
  if chunkColumnCount ≤ index.toNat then .error (.invalidColumnIndex index) else .ok ()

def validateLifecycleFlags (flags : UInt8) : Except WorldStoreError Unit :=
  if flags &&& ~~~chunkLifecycleMask != 0 then .error (.invalidLifecycleFlags flags) else .ok ()

def validateState (state : UInt16) : Except WorldStoreError Unit :=
  if worldBlockStateIdIsSupported state then .ok () else .error (.invalidState state)

def validateLight (level : UInt8) : Except WorldStoreError Unit :=
  if level > 0x0f then .error (.invalidLight level) else .ok ()

def validateBiomeWord (word : UInt32) : Except WorldStoreError Unit :=
  if biomeIdIsSupported (biomeId word) then .ok () else .error (.invalidBiome (biomeId word))

def validateImport (i : ChunkImport) : Except WorldStoreError Unit := do
  validateLifecycleFlags i.lifecycleFlags
  ensure (i.data.states.length = chunkBlockCount) (.invalidImport "state")
  ensure (i.data.skyLight.length = chunkNibbleBytes) (.invalidImport "sky-light")
  ensure (i.data.blockLight.length = chunkNibbleBytes) (.invalidImport "block-light")
  ensure (i.data.biomes.length = chunkColumnCount) (.invalidImport "biome")
  i.data.biomes.forM validateBiomeWord
  ensure (i.data.heightMap.length = chunkColumnCount) (.invalidImport "height-map")
  i.data.states.forM validateState

def blockIndex (x y z : UInt8) : Except WorldStoreError Nat :=
  if chunkEdge ≤ x.toNat ∨ chunkEdge ≤ z.toNat ∨ worldHeight ≤ y.toNat then
    .error (.invalidBlockIndex ((y.toUInt16 <<< 8) ||| (z.toUInt16 <<< 4) ||| x.toUInt16))
  else .ok ((y.toNat <<< 8) ||| (z.toNat <<< 4) ||| x.toNat)

def columnIndex (x z : UInt8) : Except WorldStoreError Nat :=
  if chunkEdge ≤ x.toNat ∨ chunkEdge ≤ z.toNat then .error (.invalidColumnIndex ((z <<< 4) ||| x))
  else .ok ((z.toNat <<< 4) ||| x.toNat)

def extraKey (x y z : UInt8) : Except WorldStoreError UInt16 := do
  let _ ← blockIndex x y z
  pure ((z.toUInt16 <<< 12) ||| (x.toUInt16 <<< 8) ||| y.toUInt16)

def linearIndexToExtraKey (index : UInt16) : UInt16 :=
  let x := index &&& 0x0f
  let z := (index >>> 4) &&& 0x0f
  let y := (index >>> 8) &&& 0x7f
  (z <<< 12) ||| (x <<< 8) ||| y

def columnHeight (states : List UInt16) (column : Nat) : UInt8 :=
  match (List.range worldHeight).reverse.find?
      (fun y => states.getD (y * chunkColumnCount + column) 0 != 0) with
  | some y => UInt8.ofNat y
  | none => 0

def recalculateColumnHeight (data : ChunkData) (column : Nat) : ChunkData :=
  { data with heightMap := data.heightMap.set column (columnHeight data.states column) }

@[irreducible]
def recalculateAllHeights (data : ChunkData) : ChunkData :=
  (List.range chunkColumnCount).foldl recalculateColumnHeight data

def checkedSucc (n : UInt64) : Option UInt64 :=
  if n.toNat + 1 < UInt64.size then some (n + 1) else none

theorem checkedSucc_toNat {n m : UInt64} (h : checkedSucc n = some m) : m.toNat = n.toNat + 1 := by
  unfold checkedSucc at h
  split at h
  · next hlt =>
    cases h
    rw [UInt64.toNat_add]
    exact Nat.mod_eq_of_lt (by simpa [UInt64.size] using hlt)
  · cases h

end Cobblestone.World
