import Cobblestone.Lib.OrderedMap
import Cobblestone.Light.Commit
import Cobblestone.Mutation.Prepare
import Cobblestone.Source.Residency

namespace Cobblestone.Mutation

open Lib World Source Storage

def BiomeColumn.Valid (column : BiomeColumn) : Prop :=
  biomeIdIsSupported column.id = true ∧ column.color.toNat < 2 ^ 24

abbrev BiomeId := { id : UInt8 // biomeIdIsSupported id = true }

abbrev ValidColumn := { column : BiomeColumn // column.Valid }

inductive EditError where
  | source (error : ResidencyError)
  | chunk (error : MutationError)
  | value (message : String)
  | logic (message : String)
  | chunkOutOfRange
  | thrown (message : String)

inductive EditCell where
  | block (position : BlockPos)
  | biome (x z : Int)
  | extraData (position : BlockPos)
  | skyLight (position : BlockPos)
  | blockLight (position : BlockPos)
deriving DecidableEq

inductive EditValue where
  | state (stateId : UInt16)
  | column (column : BiomeColumn)
  | extra (data : UInt16)
  | level (level : UInt8)
deriving DecidableEq

namespace EditCell

def isInsideWorld : EditCell → Bool
  | .biome .. => true
  | .block position | .extraData position | .skyLight position | .blockLight position =>
    position.isInsideWorld

def chunk : EditCell → ChunkPos
  | .biome x z => ChunkPos.fromBlock x z
  | .block position | .extraData position | .skyLight position | .blockLight position =>
    position.chunk

end EditCell

-- The other calls of the edit surface convert what these answer.
inductive EditRequest where
  | read (cell : EditCell)
  | setBlockStateId (position : BlockPos) (stateId : Int)
  | setBiomeColumnAt (x z : Int) (biome : ValidColumn)
  | setBiomeAt (x z : Int) (biome : BiomeId)
  | setBiomeColorAt (x z color : Int)
  | setSkyLight (position : BlockPos) (level : Int)
  | setBlockLight (position : BlockPos) (level : Int)

def EditRequest.cell : EditRequest → EditCell
  | .read cell => cell
  | .setBlockStateId position _ => .block position
  | .setBiomeColumnAt x z _ | .setBiomeAt x z _ | .setBiomeColorAt x z _ => .biome x z
  | .setSkyLight position _ => .skyLight position
  | .setBlockLight position _ => .blockLight position

def BlockStateId.assert (stateId : Int) : Except EditError UInt16 :=
  if stateId < 0 ∨ (maxLegacyStateId.toNat : Int) < stateId then
    .error (.value "fixed-target block state id must be in range 0..4095")
  else if Light.BlockType.tryFrom (stateId.toNat >>> 4) = none then
    .error (.value s!"unsupported MCPE 0.15.10 block id {stateId.toNat >>> 4}")
  else .ok (UInt16.ofNat stateId.toNat)

def assertLight (level : Int) : Except EditError UInt8 :=
  if level < 0 ∨ 0x0f < level then
    .error (.value "fixed-target light level must be in range 0..15")
  else .ok (UInt8.ofNat level.toNat)

def BiomeColumn.withId (column : BiomeColumn) (id : BiomeId) : BiomeColumn := { column with id := id }

def BiomeColumn.withColor (column : BiomeColumn) (color : Int) : Except EditError BiomeColumn :=
  if color < 0 ∨ 0xffffff < color then
    .error (.value "fixed-target biome color must be in range 0x000000..0xffffff")
  else .ok { column with color := UInt32.ofNat color.toNat }

def blockKey (position : BlockPos) : Nat :=
  ChunkCoordinateKey.block position.localX position.y.toNat position.localZ

def localColumn (x z : Int) : Nat × Nat :=
  ((ChunkPos.localCoordinate x).toNat, (ChunkPos.localCoordinate z).toNat)

def columnKey (x z : Int) : Nat := ChunkCoordinateKey.column (localColumn x z).1 (localColumn x z).2

-- A patch while the operation writes to it.
structure StagedPatch where
  position : ChunkCoord
  baseRevision : Int64
  baseLightRevision : Int64
  blocks : OrderedMap Nat UInt16
  biomes : OrderedMap Nat BiomeColumn
  skyLight : OrderedMap Nat UInt8
  blockLight : OrderedMap Nat UInt8

namespace StagedPatch

def construct (store : WorldStore) (position : ChunkCoord) : Except MutationError StagedPatch := do
  let baseRevision ← Chunk.revision store position
  let baseLightRevision ← Chunk.lightRevision store position
  pure ⟨position, baseRevision, baseLightRevision, .empty, .empty, .empty, .empty⟩

variable (store : WorldStore) (patch : StagedPatch)

def edits : StagedEdits where
  blocks := patch.blocks.entries
  biomes := patch.biomes.entries
  extraData := []
  skyLight := patch.skyLight.entries
  blockLight := patch.blockLight.entries

def chunkPatch : ChunkPatch where
  position := patch.position
  baseRevision := patch.baseRevision
  baseLightRevision := patch.baseLightRevision
  snapshot := none
  edits := patch.edits

def stagedOr {α : Type} (staged : Option α) (stored : Except MutationError α) : Except EditError α :=
  match staged with
  | some value => .ok value
  | none => stored.mapError .chunk

def blockStateId (key : Nat) : Except EditError UInt16 :=
  stagedOr (patch.blocks.get? key) (patch.chunkPatch.blockStateIdAtKey store key)

def biomeColumn (key : Nat) : Except EditError BiomeColumn :=
  stagedOr (patch.biomes.get? key) (patch.chunkPatch.biomeColumnAtKey store key)

def blockExtraData (key : Nat) : Except EditError UInt16 :=
  stagedOr none (patch.chunkPatch.extraDataAtKey store key)

def skyLightLevel (key : Nat) : Except EditError UInt8 :=
  stagedOr (patch.skyLight.get? key) (patch.chunkPatch.skyLightAtKey store key)

def blockLightLevel (key : Nat) : Except EditError UInt8 :=
  stagedOr (patch.blockLight.get? key) (patch.chunkPatch.blockLightAtKey store key)

def setBlockStateId (key : Nat) (stateId : Int) : Except EditError (UInt16 × StagedPatch) := do
  let state ← BlockStateId.assert stateId
  let previous ← patch.blockStateId store key
  pure (previous, { patch with blocks := patch.blocks.set key state })

def setBiomeColumn (key : Nat) (change : BiomeColumn → Except EditError BiomeColumn) :
    Except EditError (BiomeColumn × StagedPatch) := do
  let previous ← patch.biomeColumn store key
  let biome ← change previous
  pure (previous, { patch with biomes := patch.biomes.set key biome })

def setSkyLight (key : Nat) (level : Int) : Except EditError (UInt8 × StagedPatch) := do
  let level ← assertLight level
  let previous ← patch.skyLightLevel store key
  pure (previous, { patch with skyLight := patch.skyLight.set key level })

def setBlockLight (key : Nat) (level : Int) : Except EditError (UInt8 × StagedPatch) := do
  let level ← assertLight level
  let previous ← patch.blockLightLevel store key
  pure (previous, { patch with blockLight := patch.blockLight.set key level })

def read : EditCell → Except EditError EditValue
  | .block position => (patch.blockStateId store (blockKey position)).map .state
  | .biome x z => (patch.biomeColumn store (columnKey x z)).map .column
  | .extraData position => (patch.blockExtraData store (blockKey position)).map .extra
  | .skyLight position => (patch.skyLightLevel store (blockKey position)).map .level
  | .blockLight position => (patch.blockLightLevel store (blockKey position)).map .level

def answer : EditRequest → Except EditError (EditValue × StagedPatch)
  | .read cell => do
    let value ← patch.read store cell
    pure (value, patch)
  | .setBlockStateId position stateId =>
    (patch.setBlockStateId store (blockKey position) stateId).map (Prod.map .state id)
  | .setBiomeColumnAt x z biome =>
    (patch.setBiomeColumn store (columnKey x z) fun _ => .ok biome).map (Prod.map .column id)
  | .setBiomeAt x z biome =>
    (patch.setBiomeColumn store (columnKey x z) fun previous => .ok (previous.withId biome)).map
      (Prod.map .column id)
  | .setBiomeColorAt x z color =>
    (patch.setBiomeColumn store (columnKey x z) fun previous => previous.withColor color).map
      (Prod.map .column id)
  | .setSkyLight position level =>
    (patch.setSkyLight store (blockKey position) level).map (Prod.map .level id)
  | .setBlockLight position level =>
    (patch.setBlockLight store (blockKey position) level).map (Prod.map .level id)

end StagedPatch

variable {α : Type} {store : WorldStore} {c : ChunkRecord} {patch patch' : StagedPatch}
  {request : EditRequest} {cell other : EditCell} {value seen : EditValue} {x z : Int}
  {q : World.BlockPos}

-- What a chunk holds at a cell.
def valueIn (data : ChunkData) : EditCell → EditValue
  | .block q => .state (data.states.getD (blockKey q) 0)
  | .biome x z => .column (storedColumn data (localColumn x z).1 (localColumn x z).2)
  | .extraData q => .extra (storedExtra data q.localX q.y.toNat q.localZ)
  | .skyLight q => .level (readNibble data.skyLight (blockKey q))
  | .blockLight q => .level (readNibble data.blockLight (blockKey q))

def EditRequest.write (request : EditRequest) (seen : EditValue) : Option (EditCell × EditValue) :=
  match request, seen with
  | .setBlockStateId q stateId, _ => some (.block q, .state (UInt16.ofNat stateId.toNat))
  | .setBiomeColumnAt x z biome, _ => some (.biome x z, .column biome)
  | .setBiomeAt x z biome, .column column => some (.biome x z, .column (column.withId biome))
  | .setBiomeColorAt x z color, .column column =>
    some (.biome x z, .column { column with color := UInt32.ofNat color.toNat })
  | .setSkyLight q level, _ => some (.skyLight q, .level (UInt8.ofNat level.toNat))
  | .setBlockLight q level, _ => some (.blockLight q, .level (UInt8.ofNat level.toNat))
  | _, _ => none

def EditCell.Takes : EditCell → EditValue → Prop
  | .block _, .state state => worldBlockStateIdIsSupported state = true
  | .biome _ _, .column column => column.Valid
  | .skyLight _, .level level | .blockLight _, .level level => level.toNat < 16
  | _, _ => False

namespace StagedPatch

def staged (patch : StagedPatch) : EditCell → Option EditValue
  | .block q => (patch.blocks.get? (blockKey q)).map .state
  | .biome x z => (patch.biomes.get? (columnKey x z)).map .column
  | .extraData _ => none
  | .skyLight q => (patch.skyLight.get? (blockKey q)).map .level
  | .blockLight q => (patch.blockLight.get? (blockKey q)).map .level

def put (patch : StagedPatch) : EditCell → EditValue → StagedPatch
  | .block q, .state state => { patch with blocks := patch.blocks.set (blockKey q) state }
  | .biome x z, .column column => { patch with biomes := patch.biomes.set (columnKey x z) column }
  | .skyLight q, .level level => { patch with skyLight := patch.skyLight.set (blockKey q) level }
  | .blockLight q, .level level =>
    { patch with blockLight := patch.blockLight.set (blockKey q) level }
  | _, _ => patch

end StagedPatch

theorem blockKey_eq_iff {r : World.BlockPos} (hq : q.isInsideWorld = true)
    (hr : r.isInsideWorld = true) (hchunk : q.chunk = r.chunk) :
    blockKey r = blockKey q ↔ q = r :=
  ⟨fun h => Light.cellKey_inj hq hr hchunk h.symm, fun h => h ▸ rfl⟩

theorem localColumn_lt (x z : Int) : (localColumn x z).1 < 16 ∧ (localColumn x z).2 < 16 := by
  simp only [localColumn, ChunkPos.localCoordinate_eq]
  omega

theorem columnKey_eq_iff {x' z' : Int}
    (hchunk : ChunkPos.fromBlock x z = ChunkPos.fromBlock x' z') :
    columnKey x' z' = columnKey x z ↔ x = x' ∧ z = z' := by
  constructor
  · intro h
    have hcolumn := congrArg ChunkCoordinateKey.decodeColumn h.symm
    rw [columnKey, columnKey, decodeColumn_column (localColumn_lt x z).1 (localColumn_lt x z).2,
      decodeColumn_column (localColumn_lt x' z').1 (localColumn_lt x' z').2] at hcolumn
    simp only [localColumn, ChunkPos.localCoordinate_eq, Prod.mk.injEq] at hcolumn
    simp only [ChunkPos.fromBlock, ChunkPos.floorDiv_eq, ChunkPos.mk.injEq] at hchunk
    omega
  · rintro ⟨rfl, rfl⟩
    rfl

-- In one chunk a cell is staged under a key of its own.
theorem staged_put (hcell : cell.isInsideWorld = true) (hother : other.isInsideWorld = true)
    (hchunk : cell.chunk = other.chunk) (htakes : cell.Takes value) :
    (patch.put cell value).staged other = if cell = other then some value else patch.staged other := by
  cases cell <;> cases value <;> first | exact htakes.elim | skip
  all_goals
    cases other <;>
      simp only [StagedPatch.put, StagedPatch.staged, OrderedMap.get?_set, EditCell.block.injEq,
        EditCell.biome.injEq, EditCell.skyLight.injEq, EditCell.blockLight.injEq, reduceCtorEq,
        if_false]
  · simp only [blockKey_eq_iff hcell hother hchunk]
    split <;> rfl
  · simp only [columnKey_eq_iff hchunk]
    split <;> rfl
  · simp only [blockKey_eq_iff hcell hother hchunk]
    split <;> rfl
  · simp only [blockKey_eq_iff hcell hother hchunk]
    split <;> rfl

theorem biomeColor_of_lt {color : UInt32} (h : color.toNat < 2 ^ 24) : biomeColor color = color := by
  apply UInt32.toNat_inj.mp
  rw [biomeColor, UInt32.toNat_and, show biomeColorMask.toNat = 2 ^ 24 - 1 from rfl,
    Nat.and_two_pow_sub_one_eq_mod, Nat.mod_eq_of_lt h]

theorem biomeColor_word {column : BiomeColumn} (h : column.color.toNat < 2 ^ 24) :
    biomeColor column.word = column.color := by
  apply UInt32.toNat_inj.mp
  have hid : (column.id.toNat <<< 24 % 2 ^ 32) % 2 ^ 24 = 0 := by
    rw [Nat.shiftLeft_eq]
    omega
  rw [biomeColor, BiomeColumn.word, UInt32.toNat_and, UInt32.toNat_or, UInt32.toNat_shiftLeft,
    UInt8.toNat_toUInt32, show biomeColorMask.toNat = 2 ^ 24 - 1 from rfl,
    Nat.and_two_pow_sub_one_eq_mod, Nat.or_mod_two_pow, Nat.mod_eq_of_lt h]
  rw [show (24 : UInt32).toNat % 32 = 24 from rfl, hid, Nat.zero_or]

theorem fromWord_word {column : BiomeColumn} (h : column.Valid) :
    (⟨biomeId column.word, biomeColor column.word⟩ : BiomeColumn) = column := by
  have hid : biomeId column.word = column.id := by
    have hword : column.word = withBiomeId column.color column.id := by
      rw [BiomeColumn.word, withBiomeId, biomeColor_of_lt h.2]
    rw [hword, biomeId_withBiomeId]
  rw [hid, biomeColor_word h.2]

theorem storedColumn_valid {data : ChunkData} (hw : data.WellFormed) (x z : Int) :
    (storedColumn data (localColumn x z).1 (localColumn x z).2).Valid := by
  have hlt : ChunkCoordinateKey.column (localColumn x z).1 (localColumn x z).2 <
      data.biomes.length := by
    rw [hw.biomes_length]
    exact column_lt (localColumn_lt x z).1 (localColumn_lt x z).2
  refine ⟨hw.biomes_supported _ ?_, biomeColor_lt _⟩
  rw [List.getD_eq_getElem _ _ hlt]
  exact List.getElem_mem hlt

theorem word_inj {column column' : BiomeColumn} (h : column.Valid) (h' : column'.Valid) :
    column.word = column'.word ↔ column = column' :=
  ⟨fun heq => by rw [← fromWord_word h, ← fromWord_word h', heq], fun heq => heq ▸ rfl⟩

section Reading

variable (hc : store.chunks patch.position = some c)

theorem stagedOr_ok (staged : Option α) (stored : α) :
    StagedPatch.stagedOr staged (.ok stored) = .ok (staged.getD stored) := by
  cases staged <;> rfl

theorem atKey_blockKey (hq : q.isInsideWorld = true) (read : Nat → Nat → Nat → α) :
    atKey read (blockKey q) = read q.localX q.y.toNat q.localZ := by
  rw [atKey, blockKey, decodeBlock_block (Light.inChunk_of_inside hq)]

theorem atColumn_columnKey (x z : Int) (read : Nat → Nat → α) :
    atColumn read (columnKey x z) = read (localColumn x z).1 (localColumn x z).2 := by
  rw [atColumn, columnKey, decodeColumn_column (localColumn_lt x z).1 (localColumn_lt x z).2]

include hc

theorem blockStateId_eq (hq : q.isInsideWorld = true) : patch.blockStateId store (blockKey q) =
    .ok ((patch.blocks.get? (blockKey q)).getD (c.data.states.getD (blockKey q) 0)) := by
  have hread : patch.chunkPatch.blockStateIdAtKey store (blockKey q) = _ :=
    cellAtKey_scalar rfl (fun _ _ _ h => chunk_blockStateId hc h) _ _ _
  rw [StagedPatch.blockStateId, hread, atKey_blockKey hq, stagedOr_ok]
  rfl

theorem skyLightLevel_eq (hq : q.isInsideWorld = true) : patch.skyLightLevel store (blockKey q) =
    .ok ((patch.skyLight.get? (blockKey q)).getD (readNibble c.data.skyLight (blockKey q))) := by
  have hread : patch.chunkPatch.skyLightAtKey store (blockKey q) = _ :=
    cellAtKey_scalar rfl (fun _ _ _ h => chunk_skyLight hc h) _ _ _
  rw [StagedPatch.skyLightLevel, hread, atKey_blockKey hq, stagedOr_ok]
  rfl

theorem blockLightLevel_eq (hq : q.isInsideWorld = true) :
    patch.blockLightLevel store (blockKey q) =
      .ok ((patch.blockLight.get? (blockKey q)).getD (readNibble c.data.blockLight (blockKey q))) := by
  have hread : patch.chunkPatch.blockLightAtKey store (blockKey q) = _ :=
    cellAtKey_scalar rfl (fun _ _ _ h => chunk_blockLight hc h) _ _ _
  rw [StagedPatch.blockLightLevel, hread, atKey_blockKey hq, stagedOr_ok]
  rfl

theorem blockExtraData_eq (hq : q.isInsideWorld = true) :
    patch.blockExtraData store (blockKey q) =
      .ok (storedExtra c.data q.localX q.y.toNat q.localZ) := by
  have hread : patch.chunkPatch.extraDataAtKey store (blockKey q) = _ :=
    cellAtKey_scalar rfl (fun _ _ _ h => chunk_blockExtraData hc h) _ _ _
  rw [StagedPatch.blockExtraData, hread, atKey_blockKey hq, stagedOr_ok]
  rfl

theorem biomeColumn_eq (hw : c.data.WellFormed) (x z : Int) :
    patch.biomeColumn store (columnKey x z) = .ok ((patch.biomes.get? (columnKey x z)).getD
      (storedColumn c.data (localColumn x z).1 (localColumn x z).2)) := by
  have hread : patch.chunkPatch.biomeColumnAtKey store (columnKey x z) =
      .ok (storedColumn c.data (localColumn x z).1 (localColumn x z).2) := by
    obtain ⟨word, hword, hread⟩ :=
      chunk_biomeColumn hc hw (localColumn_lt x z).1 (localColumn_lt x z).2
    rw [ChunkPatch.biomeColumnAtKey, columnKey,
      decodeColumn_column (localColumn_lt x z).1 (localColumn_lt x z).2]
    refine hread.trans ?_
    rw [storedColumn, List.getD_eq_getElem?_getD, hword]
    rfl
  rw [StagedPatch.biomeColumn, hread, stagedOr_ok]

theorem read_eq (hw : c.data.WellFormed) (hcell : cell.isInsideWorld = true) :
    patch.read store cell = .ok ((patch.staged cell).getD (valueIn c.data cell)) := by
  cases cell with
  | block q =>
    rw [StagedPatch.read, blockStateId_eq hc hcell, StagedPatch.staged, valueIn, Option.getD_map]
    rfl
  | biome x z =>
    rw [StagedPatch.read, biomeColumn_eq hc hw, StagedPatch.staged, valueIn, Option.getD_map]
    rfl
  | extraData q =>
    rw [StagedPatch.read, blockExtraData_eq hc hcell]
    rfl
  | skyLight q =>
    rw [StagedPatch.read, skyLightLevel_eq hc hcell, StagedPatch.staged, valueIn, Option.getD_map]
    rfl
  | blockLight q =>
    rw [StagedPatch.read, blockLightLevel_eq hc hcell, StagedPatch.staged, valueIn,
      Option.getD_map]
    rfl

end Reading

def BlockOrigin (position : ChunkCoord) (key : Nat) : Prop :=
  ∃ q : World.BlockPos, q.isInsideWorld = true ∧ q.chunk = position.pos ∧ blockKey q = key

def ColumnOrigin (position : ChunkCoord) (key : Nat) : Prop :=
  ∃ x z, ChunkPos.fromBlock x z = position.pos ∧ columnKey x z = key

-- Every staged edit is a value of its plane at a cell of the chunk.
structure StagedPatch.Sound (patch : StagedPatch) : Prop where
  blocks : ∀ key state, patch.blocks.get? key = some state →
    worldBlockStateIdIsSupported state = true ∧ BlockOrigin patch.position key
  biomes : ∀ key column, patch.biomes.get? key = some column →
    column.Valid ∧ ColumnOrigin patch.position key
  skyLight : ∀ key level, patch.skyLight.get? key = some level →
    level.toNat < 16 ∧ BlockOrigin patch.position key
  blockLight : ∀ key level, patch.blockLight.get? key = some level →
    level.toNat < 16 ∧ BlockOrigin patch.position key

theorem held_set {β : Type} {m : OrderedMap Nat β} {P : Nat → β → Prop}
    (h : ∀ key v, m.get? key = some v → P key v) {k : Nat} {w : β} (hk : P k w) :
    ∀ key v, (m.set k w).get? key = some v → P key v := by
  intro key v hv
  rw [OrderedMap.get?_set] at hv
  split at hv
  · next heq =>
    cases hv
    exact heq ▸ hk
  · exact h key v hv

theorem sound_put (h : patch.Sound) (hcell : cell.isInsideWorld = true)
    (hchunk : cell.chunk = patch.position.pos) (htakes : cell.Takes value) :
    (patch.put cell value).Sound := by
  cases cell <;> cases value <;> first | exact htakes.elim | skip
  · exact { h with blocks := held_set h.blocks ⟨htakes, _, hcell, hchunk, rfl⟩ }
  · exact { h with biomes := held_set h.biomes ⟨htakes, _, _, hchunk, rfl⟩ }
  · exact { h with skyLight := held_set h.skyLight ⟨htakes, _, hcell, hchunk, rfl⟩ }
  · exact { h with blockLight := held_set h.blockLight ⟨htakes, _, hcell, hchunk, rfl⟩ }

theorem put_base (patch : StagedPatch) (cell : EditCell) (value : EditValue) :
    (patch.put cell value).position = patch.position ∧
      (patch.put cell value).baseRevision = patch.baseRevision ∧
      (patch.put cell value).baseLightRevision = patch.baseLightRevision := by
  cases cell <;> cases value <;> exact ⟨rfl, rfl, rfl⟩

private theorem every_block_case_stored :
    Light.BlockType.cases.all (fun entry => worldBlockIdIsSupported (UInt8.ofNat entry.1)) = true := by
  decide +kernel

private theorem every_block_type_stored {id : ℕ} (h : Light.BlockType.tryFrom id ≠ none) :
    worldBlockIdIsSupported (UInt8.ofNat id) = true := by
  obtain ⟨type, htype⟩ := Option.ne_none_iff_exists'.mp h
  obtain ⟨entry, hfound, -⟩ := Option.map_eq_some_iff.mp htype
  have hid : entry.1 = id := by simpa using List.find?_some hfound
  rw [← hid]
  exact List.all_eq_true.mp every_block_case_stored entry (List.mem_of_find?_eq_some hfound)

-- The block types of the edit surface are all known to the native side.
theorem assert_supported {stateId : Int} {state : UInt16}
    (h : BlockStateId.assert stateId = .ok state) :
    state = UInt16.ofNat stateId.toNat ∧ worldBlockStateIdIsSupported state = true := by
  rw [BlockStateId.assert] at h
  split at h
  · cases h
  · next hrange =>
    split at h
    · cases h
    · next htype =>
      cases h
      have hmax : stateId.toNat < 4096 := by
        have hlimit : maxLegacyStateId.toNat = 4095 := rfl
        omega
      have hnat : (UInt16.ofNat stateId.toNat).toNat = stateId.toNat :=
        UInt16.toNat_ofNat_of_lt' (Nat.lt_trans hmax (by decide))
      have hstored := every_block_type_stored htype
      have hbyte : (UInt16.ofNat stateId.toNat >>> 4).toUInt8 = UInt8.ofNat (stateId.toNat >>> 4) := by
        apply UInt8.toNat_inj.mp
        rw [UInt16.toNat_toUInt8, UInt16.toNat_shiftRight, hnat]
        rfl
      refine ⟨rfl, ?_⟩
      rw [worldBlockStateIdIsSupported, Bool.and_eq_true, decide_eq_true_eq, hbyte]
      refine ⟨?_, hstored⟩
      rw [UInt16.le_iff_toNat_le, hnat]
      exact Nat.le_of_lt_succ hmax

theorem assertLight_ok {level : Int} {v : UInt8} (h : assertLight level = .ok v) :
    v = UInt8.ofNat level.toNat ∧ v.toNat < 16 := by
  rw [assertLight] at h
  split at h
  · cases h
  · cases h
    refine ⟨rfl, ?_⟩
    rw [UInt8.toNat_ofNat_of_lt' (show level.toNat < 256 by omega)]
    omega

theorem withColor_ok {column column' : BiomeColumn} {color : Int} (hc : column.Valid)
    (h : column.withColor color = .ok column') :
    column' = { column with color := UInt32.ofNat color.toNat } ∧ column'.Valid := by
  rw [BiomeColumn.withColor] at h
  split at h
  · cases h
  · cases h
    refine ⟨rfl, hc.1, ?_⟩
    dsimp only
    rw [UInt32.toNat_ofNat_of_lt' (show color.toNat < UInt32.size by rw [UInt32.size]; omega)]
    omega

-- What an answered request leaves: it saw the cell through the patch, and staged at most there.
structure Answered (c : ChunkRecord) (patch : StagedPatch) (request : EditRequest) (seen : EditValue)
    (patch' : StagedPatch) : Prop where
  found : seen = (patch.staged request.cell).getD (valueIn c.data request.cell)
  next : patch' = (request.write seen).elim patch fun edit => patch.put edit.1 edit.2
  takes : ∀ edit, request.write seen = some edit → edit.1 = request.cell ∧ edit.1.Takes edit.2

theorem map_prod_ok {ε β δ : Type} {x : Except ε (α × β)} {f : α → δ} {r : δ × β}
    (h : x.map (Prod.map f id) = .ok r) : ∃ a, x = .ok (a, r.2) ∧ r.1 = f a := by
  cases x with
  | error e => cases h
  | ok a =>
    cases h
    exact ⟨a.1, rfl, rfl⟩

section Answering

variable (hc : store.chunks patch.position = some c)

include hc

theorem setBlockStateId_ok (hq : q.isInsideWorld = true) {stateId : Int} {previous : UInt16}
    (h : patch.setBlockStateId store (blockKey q) stateId = .ok (previous, patch')) :
    Answered c patch (.setBlockStateId q stateId) (.state previous) patch' := by
  simp only [StagedPatch.setBlockStateId, bind_ok_iff, blockStateId_eq hc hq] at h
  obtain ⟨state, hstate, _, hprevious, hok⟩ := h
  cases hprevious
  cases hok
  obtain ⟨rfl, hsupported⟩ := assert_supported hstate
  refine ⟨?_, rfl, ?_⟩
  · exact (Option.getD_map ..).symm
  · rintro edit hedit
    cases hedit
    exact ⟨rfl, hsupported⟩

theorem setSkyLight_ok (hq : q.isInsideWorld = true) {level : Int} {previous : UInt8}
    (h : patch.setSkyLight store (blockKey q) level = .ok (previous, patch')) :
    Answered c patch (.setSkyLight q level) (.level previous) patch' := by
  simp only [StagedPatch.setSkyLight, bind_ok_iff, skyLightLevel_eq hc hq] at h
  obtain ⟨v, hv, _, hprevious, hok⟩ := h
  cases hprevious
  cases hok
  obtain ⟨rfl, hlt⟩ := assertLight_ok hv
  refine ⟨?_, rfl, ?_⟩
  · exact (Option.getD_map ..).symm
  · rintro edit hedit
    cases hedit
    exact ⟨rfl, hlt⟩

theorem setBlockLight_ok (hq : q.isInsideWorld = true) {level : Int} {previous : UInt8}
    (h : patch.setBlockLight store (blockKey q) level = .ok (previous, patch')) :
    Answered c patch (.setBlockLight q level) (.level previous) patch' := by
  simp only [StagedPatch.setBlockLight, bind_ok_iff, blockLightLevel_eq hc hq] at h
  obtain ⟨v, hv, _, hprevious, hok⟩ := h
  cases hprevious
  cases hok
  obtain ⟨rfl, hlt⟩ := assertLight_ok hv
  refine ⟨?_, rfl, ?_⟩
  · exact (Option.getD_map ..).symm
  · rintro edit hedit
    cases hedit
    exact ⟨rfl, hlt⟩

theorem setBiomeColumn_ok (hw : c.data.WellFormed) (hs : patch.Sound)
    {change : BiomeColumn → Except EditError BiomeColumn} {previous : BiomeColumn}
    (h : patch.setBiomeColumn store (columnKey x z) change = .ok (previous, patch')) :
    previous.Valid ∧ EditValue.column previous =
        (patch.staged (.biome x z)).getD (valueIn c.data (.biome x z)) ∧
      ∃ column, change previous = .ok column ∧ patch' = patch.put (.biome x z) (.column column) := by
  simp only [StagedPatch.setBiomeColumn, bind_ok_iff, biomeColumn_eq hc hw] at h
  obtain ⟨_, hprevious, column, hcolumn, hok⟩ := h
  cases hprevious
  cases hok
  refine ⟨?_, (Option.getD_map ..).symm, column, hcolumn, rfl⟩
  cases hget : patch.biomes.get? (columnKey x z) with
  | none => exact storedColumn_valid hw x z
  | some v => exact (hs.biomes _ _ hget).1

theorem answer_ok (hw : c.data.WellFormed) (hs : patch.Sound)
    (hinside : request.cell.isInsideWorld = true)
    (h : patch.answer store request = .ok (seen, patch')) : Answered c patch request seen patch' := by
  cases request with
  | read cell =>
    have hread : patch.read store cell = _ := read_eq hc hw hinside
    rw [StagedPatch.answer, hread, ok_bind] at h
    cases h
    exact ⟨rfl, rfl, nofun⟩
  | setBlockStateId q stateId =>
    obtain ⟨previous, hok, rfl⟩ := map_prod_ok h
    exact setBlockStateId_ok hc hinside hok
  | setBiomeColumnAt x z biome =>
    obtain ⟨previous, hok, rfl⟩ := map_prod_ok h
    obtain ⟨-, hseen, column, hcolumn, rfl⟩ := setBiomeColumn_ok hc hw hs hok
    cases hcolumn
    refine ⟨hseen, rfl, fun edit hedit => ?_⟩
    cases hedit
    exact ⟨rfl, biome.2⟩
  | setBiomeAt x z biome =>
    obtain ⟨previous, hok, rfl⟩ := map_prod_ok h
    obtain ⟨hvalid, hseen, column, hcolumn, rfl⟩ := setBiomeColumn_ok hc hw hs hok
    cases hcolumn
    refine ⟨hseen, rfl, fun edit hedit => ?_⟩
    cases hedit
    exact ⟨rfl, biome.2, hvalid.2⟩
  | setBiomeColorAt x z color =>
    obtain ⟨previous, hok, rfl⟩ := map_prod_ok h
    obtain ⟨hvalid, hseen, column, hcolumn, rfl⟩ := setBiomeColumn_ok hc hw hs hok
    obtain ⟨rfl, hcolor⟩ := withColor_ok hvalid hcolumn
    refine ⟨hseen, rfl, fun edit hedit => ?_⟩
    cases hedit
    exact ⟨rfl, hcolor⟩
  | setSkyLight q level =>
    obtain ⟨previous, hok, rfl⟩ := map_prod_ok h
    exact setSkyLight_ok hc hinside hok
  | setBlockLight q level =>
    obtain ⟨previous, hok, rfl⟩ := map_prod_ok h
    exact setBlockLight_ok hc hinside hok

end Answering

end Cobblestone.Mutation
