import Cobblestone.World.Store

namespace Cobblestone.World

open Lib

namespace WorldStore

variable {α : Type}

-- Every scalar writer is one data edit of a resident chunk under its shard lock.
def editData (s : WorldStore) (position : ChunkCoord) (edit : ChunkData → α × ChunkData) :
    Except WorldStoreError α × WorldStore :=
  s.withChunkMut position fun c => (.ok (edit c.data).1, { c with data := (edit c.data).2 })

def setBlockState (s : WorldStore) (position : ChunkCoord) (x y z : UInt8) (state : UInt16) :
    Except WorldStoreError UInt16 × WorldStore :=
  match validateState state, blockIndex x y z with
  | .error e, _ => (.error e, s)
  | _, .error e => (.error e, s)
  | .ok (), .ok index => s.editData position fun data =>
      let previous := data.states.getD index 0
      if previous ≠ state then
        (previous, recalculateColumnHeight { data with states := data.states.set index state }
          (z.toNat * chunkEdge + x.toNat))
      else (previous, data)

def fillLayers (s : WorldStore) (position : ChunkCoord) (startY count : UInt8) (state : UInt16) :
    Except WorldStoreError Unit × WorldStore :=
  match validateState state with
  | .error e => (.error e, s)
  | .ok () =>
    if count = 0 ∨ worldHeight ≤ startY.toNat ∨ worldHeight < startY.toNat + count.toNat then
      (.error (.invalidLayerRange startY count), s)
    else s.editData position fun data =>
      let first := startY.toNat * chunkColumnCount
      ((), recalculateAllHeights { data with
        states := putAt first (List.replicate (count.toNat * chunkColumnCount) state) data.states })

def setBiomeWord (s : WorldStore) (position : ChunkCoord) (x z : UInt8) (word : UInt32) :
    Except WorldStoreError UInt32 × WorldStore :=
  match validateBiomeWord word, columnIndex x z with
  | .error e, _ => (.error e, s)
  | _, .error e => (.error e, s)
  | .ok (), .ok index => s.editData position fun data =>
      (data.biomes.getD index 0, { data with biomes := data.biomes.set index word })

def biomeWord (s : WorldStore) (position : ChunkCoord) (x z : UInt8) :
    Except WorldStoreError UInt32 := do
  let index ← columnIndex x z
  s.withChunk position fun c => .ok (c.data.biomes.getD index 0)

def setBiome (s : WorldStore) (position : ChunkCoord) (x z biome : UInt8) :
    Except WorldStoreError UInt8 × WorldStore :=
  if biomeIdIsSupported biome = false then (.error (.invalidBiome biome), s)
  else match s.biomeWord position x z with
  | .error e => (.error e, s)
  | .ok previous =>
    let (result, s) := s.setBiomeWord position x z (withBiomeId previous biome)
    (result.map fun _ => biomeId previous, s)

def setBiomeColor (s : WorldStore) (position : ChunkCoord) (x z : UInt8) (color : UInt32) :
    Except WorldStoreError UInt32 × WorldStore :=
  if color > biomeColorMask then (.error (.invalidImport "biome color"), s)
  else match s.biomeWord position x z with
  | .error e => (.error e, s)
  | .ok previous =>
    let (result, s) := s.setBiomeWord position x z (withBiomeColor previous color)
    (result.map fun _ => World.biomeColor previous, s)

def fillBiome (s : WorldStore) (position : ChunkCoord) (biome : UInt8) :
    Except WorldStoreError Unit × WorldStore :=
  if biomeIdIsSupported biome = false then (.error (.invalidBiome biome), s)
  else s.editData position fun data =>
    ((), { data with biomes := data.biomes.map fun word => withBiomeId word biome })

def setSkyLight (s : WorldStore) (position : ChunkCoord) (x y z level : UInt8) :
    Except WorldStoreError UInt8 × WorldStore :=
  match validateLight level, blockIndex x y z with
  | .error e, _ => (.error e, s)
  | _, .error e => (.error e, s)
  | .ok (), .ok index => s.editData position fun data =>
      (readNibble data.skyLight index, { data with skyLight := writeNibble data.skyLight index level })

def fillSkyLightFrom (s : WorldStore) (position : ChunkCoord) (y level : UInt8) :
    Except WorldStoreError Unit × WorldStore :=
  match validateLight level with
  | .error e => (.error e, s)
  | .ok () =>
    if y.toNat > worldHeight then (.error (.invalidLayerRange y 0), s)
    else s.editData position fun data =>
      let first := y.toNat * chunkColumnCount
      let plane := (List.range' first (chunkBlockCount - first)).foldl
        (fun plane index => writeNibble plane index level) data.skyLight
      ((), { data with skyLight := plane })

def setBlockLight (s : WorldStore) (position : ChunkCoord) (x y z level : UInt8) :
    Except WorldStoreError UInt8 × WorldStore :=
  match validateLight level, blockIndex x y z with
  | .error e, _ => (.error e, s)
  | _, .error e => (.error e, s)
  | .ok (), .ok index => s.editData position fun data =>
      (readNibble data.blockLight index,
        { data with blockLight := writeNibble data.blockLight index level })

def recalculateHeightMap (s : WorldStore) (position : ChunkCoord) :
    Except WorldStoreError Unit × WorldStore :=
  s.editData position fun data => ((), recalculateAllHeights data)

def putExtra (extra : ExtraData) (key value : UInt16) : ExtraData :=
  if value = 0 then extra.erase key else extra.insert key value

def setBlockExtraData (s : WorldStore) (position : ChunkCoord) (x y z : UInt8) (value : UInt16) :
    Except WorldStoreError UInt16 × WorldStore :=
  match extraKey x y z with
  | .error e => (.error e, s)
  | .ok key => s.editData position fun data =>
      ((data.extraData[key]?).getD 0, { data with extraData := putExtra data.extraData key value })

def validatePatch (patch : ChunkPatch) : Except WorldStoreError Unit := do
  patch.blocks.forM fun (index, state) => do
    validateBlockIndex index
    validateState state
  patch.biomes.forM fun (index, word) => do
    validateColumnIndex index
    validateBiomeWord word
  patch.extraData.forM fun (index, _) => validateBlockIndex index
  (patch.skyLight ++ patch.blockLight).forM fun (index, level) => do
    validateBlockIndex index
    validateLight level

def patchChangesTerrain (patch : ChunkPatch) : Bool :=
  !(patch.blocks.isEmpty && patch.biomes.isEmpty && patch.extraData.isEmpty)

def patchChangesLight (patch : ChunkPatch) : Bool :=
  !(patch.skyLight.isEmpty && patch.blockLight.isEmpty)

def changeKind (patch : ChunkPatch) : Option WorldChangeKind :=
  if !patchChangesTerrain patch && !patchChangesLight patch then none
  else if !patchChangesLight patch && patch.biomes.isEmpty && patch.extraData.isEmpty &&
      decide (patch.blocks.length ≤ maxPointBlockChanges) then
    some (.blocks patch.blocks)
  else some .fullChunk

def applyBlock (acc : List UInt16 × (Nat → Bool)) (edit : UInt16 × UInt16) :
    List UInt16 × (Nat → Bool) :=
  let index := edit.1.toNat
  if acc.1.getD index 0 ≠ edit.2 then
    (acc.1.set index edit.2, Function.update acc.2 (index &&& 0xff) true)
  else acc

def applyBlocks (states : List UInt16) (edits : List (UInt16 × UInt16)) :
    List UInt16 × (Nat → Bool) :=
  edits.foldl applyBlock (states, fun _ => false)

def applyNibbles (plane : Bytes) (edits : List (UInt16 × UInt8)) : Bytes :=
  edits.foldl (fun plane edit => writeNibble plane edit.1.toNat edit.2) plane

@[irreducible]
def recalculateTouched (data : ChunkData) (touched : Nat → Bool) : ChunkData :=
  (List.range chunkColumnCount).foldl
    (fun data column => if touched column then recalculateColumnHeight data column else data) data

def patchData (data : ChunkData) (patch : ChunkPatch) : ChunkData :=
  let blocks := applyBlocks data.states patch.blocks
  recalculateTouched
    { data with
      states := blocks.1
      biomes := patch.biomes.foldl (fun biomes edit => biomes.set edit.1.toNat edit.2) data.biomes
      extraData := patch.extraData.foldl
        (fun extra edit => putExtra extra (linearIndexToExtraKey edit.1) edit.2) data.extraData
      skyLight := applyNibbles data.skyLight patch.skyLight
      blockLight := applyNibbles data.blockLight patch.blockLight }
    blocks.2

def patchRecord (c : ChunkRecord) (patch : ChunkPatch) : Except WorldStoreError Unit × ChunkRecord :=
  if c.terrainRevision ≠ patch.expectedTerrainRevision then
    (.error (.terrainRevisionConflict patch.expectedTerrainRevision c.terrainRevision), c)
  else if c.lightRevision ≠ patch.expectedLightRevision then
    (.error (.lightRevisionConflict patch.expectedLightRevision c.lightRevision), c)
  else match if patchChangesTerrain patch then checkedSucc c.terrainRevision
      else some c.terrainRevision with
  | none => (.error .terrainRevisionExhausted, c)
  | some terrainNext =>
    if patch.nextTerrainRevision ≠ terrainNext then
      (.error (.invalidTerrainRevisionTransition terrainNext patch.nextTerrainRevision), c)
    else match if patchChangesLight patch then checkedSucc c.lightRevision
        else some c.lightRevision with
    | none => (.error .lightRevisionExhausted, c)
    | some lightNext =>
      if patch.nextLightRevision ≠ lightNext then
        (.error (.invalidLightRevisionTransition lightNext patch.nextLightRevision), c)
      else
        (.ok (), { c with
          data := patchData c.data patch
          terrainRevision := patch.nextTerrainRevision
          lightRevision := patch.nextLightRevision })

structure PatchAccepted (c : ChunkRecord) (patch : ChunkPatch) : Prop where
  terrain : c.terrainRevision = patch.expectedTerrainRevision
  light : c.lightRevision = patch.expectedLightRevision
  nextTerrain : (if patchChangesTerrain patch then checkedSucc c.terrainRevision
    else some c.terrainRevision) = some patch.nextTerrainRevision
  nextLight : (if patchChangesLight patch then checkedSucc c.lightRevision
    else some c.lightRevision) = some patch.nextLightRevision

def patched (c : ChunkRecord) (patch : ChunkPatch) : ChunkRecord :=
  { c with
    data := patchData c.data patch
    terrainRevision := patch.nextTerrainRevision
    lightRevision := patch.nextLightRevision }

@[simp] theorem patched_data (c : ChunkRecord) (patch : ChunkPatch) :
    (patched c patch).data = patchData c.data patch := rfl

@[simp] theorem patched_flags (c : ChunkRecord) (patch : ChunkPatch) :
    (patched c patch).lifecycleFlags = c.lifecycleFlags := rfl

theorem patchRecord_cases (c : ChunkRecord) (patch : ChunkPatch) :
    (∃ e, patchRecord c patch = (.error e, c)) ∨
      (PatchAccepted c patch ∧ patchRecord c patch = (.ok (), patched c patch)) := by
  unfold patchRecord
  by_cases ht : c.terrainRevision = patch.expectedTerrainRevision
  · by_cases hl : c.lightRevision = patch.expectedLightRevision
    · rw [if_neg (not_not.mpr ht), if_neg (not_not.mpr hl)]
      cases hn : (if patchChangesTerrain patch then checkedSucc c.terrainRevision
          else some c.terrainRevision) with
      | none => exact .inl ⟨_, rfl⟩
      | some terrainNext =>
        by_cases htn : patch.nextTerrainRevision = terrainNext
        · cases hm : (if patchChangesLight patch then checkedSucc c.lightRevision
              else some c.lightRevision) with
          | none => exact .inl ⟨.lightRevisionExhausted, by simp [htn]⟩
          | some lightNext =>
            by_cases hln : patch.nextLightRevision = lightNext
            · exact .inr ⟨⟨ht, hl, by rw [hn, htn], by rw [hm, hln]⟩, by simp [htn, hln, patched]⟩
            · exact .inl ⟨.invalidLightRevisionTransition lightNext patch.nextLightRevision,
                by simp [htn, hln]⟩
        · exact .inl ⟨.invalidTerrainRevisionTransition terrainNext patch.nextTerrainRevision,
            by simp [htn]⟩
    · exact .inl ⟨.lightRevisionConflict patch.expectedLightRevision c.lightRevision,
        by rw [if_neg (not_not.mpr ht), if_pos hl]⟩
  · exact .inl ⟨.terrainRevisionConflict patch.expectedTerrainRevision c.terrainRevision,
      by rw [if_pos ht]⟩

def applyPatch (s : WorldStore) (position : ChunkCoord) (patch : ChunkPatch) :
    Except WorldStoreError Unit × WorldStore :=
  match validatePatch patch with
  | .error e => (.error e, s)
  | .ok () =>
    match s.withChunkMut position fun c => patchRecord c patch with
    | (.error e, s) => (.error e, s)
    | (.ok (), s) =>
      match changeKind patch with
      | none => (.ok (), s)
      | some kind => (.ok (), s.recordChange position kind)

end WorldStore

end Cobblestone.World
