import Cobblestone.World.Sound

namespace Cobblestone.World

open Lib

inductive StoreOp where
  | ensureChunk (p : ChunkCoord) (biome : UInt8)
  | importChunkIfAbsent (p : ChunkCoord) (i : ChunkImport)
  | importChunk (p : ChunkCoord) (i : ChunkImport)
  | installGeneratedChunk (p : ChunkCoord) (i : ChunkImport)
  | setLifecycleFlags (p : ChunkCoord) (flags : UInt8)
  | pinChunk (p : ChunkCoord)
  | unpinChunk (p : ChunkCoord)
  | markPersisted (p : ChunkCoord) (terrain light : UInt64) (flags : UInt8)
  | tryEvictChunk (p : ChunkCoord)
  | commitTerrainRevision (p : ChunkCoord) (expected next : UInt64)
  | commitLightRevision (p : ChunkCoord) (expected next : UInt64)
  | setBlockState (p : ChunkCoord) (x y z : UInt8) (state : UInt16)
  | fillLayers (p : ChunkCoord) (startY count : UInt8) (state : UInt16)
  | setBiomeWord (p : ChunkCoord) (x z : UInt8) (word : UInt32)
  | setBiome (p : ChunkCoord) (x z biome : UInt8)
  | setBiomeColor (p : ChunkCoord) (x z : UInt8) (color : UInt32)
  | fillBiome (p : ChunkCoord) (biome : UInt8)
  | setSkyLight (p : ChunkCoord) (x y z level : UInt8)
  | fillSkyLightFrom (p : ChunkCoord) (y level : UInt8)
  | setBlockLight (p : ChunkCoord) (x y z level : UInt8)
  | recalculateHeightMap (p : ChunkCoord)
  | setBlockExtraData (p : ChunkCoord) (x y z : UInt8) (value : UInt16)
  | applyPatch (p : ChunkCoord) (patch : ChunkPatch)
  | pruneChangesThrough (sequence : Nat)

def StoreOp.apply : StoreOp → WorldStore → WorldStore
  | .ensureChunk p biome, s => (s.ensureChunk p biome).2
  | .importChunkIfAbsent p i, s => (s.importChunkIfAbsent p i).2
  | .importChunk p i, s => (s.importChunk p i).2
  | .installGeneratedChunk p i, s => (s.installGeneratedChunk p i).2
  | .setLifecycleFlags p flags, s => (s.setLifecycleFlags p flags).2
  | .pinChunk p, s => (s.pinChunk p).2
  | .unpinChunk p, s => (s.unpinChunk p).2
  | .markPersisted p terrain light flags, s => (s.markPersisted p terrain light flags).2
  | .tryEvictChunk p, s => (s.tryEvictChunk p).2
  | .commitTerrainRevision p expected next, s => (s.commitTerrainRevision p expected next).2
  | .commitLightRevision p expected next, s => (s.commitLightRevision p expected next).2
  | .setBlockState p x y z state, s => (s.setBlockState p x y z state).2
  | .fillLayers p startY count state, s => (s.fillLayers p startY count state).2
  | .setBiomeWord p x z word, s => (s.setBiomeWord p x z word).2
  | .setBiome p x z biome, s => (s.setBiome p x z biome).2
  | .setBiomeColor p x z color, s => (s.setBiomeColor p x z color).2
  | .fillBiome p biome, s => (s.fillBiome p biome).2
  | .setSkyLight p x y z level, s => (s.setSkyLight p x y z level).2
  | .fillSkyLightFrom p y level, s => (s.fillSkyLightFrom p y level).2
  | .setBlockLight p x y z level, s => (s.setBlockLight p x y z level).2
  | .recalculateHeightMap p, s => (s.recalculateHeightMap p).2
  | .setBlockExtraData p x y z value, s => (s.setBlockExtraData p x y z value).2
  | .applyPatch p patch, s => (s.applyPatch p patch).2
  | .pruneChangesThrough sequence, s => { s with changes := s.changes.pruneThrough sequence }

def StoreOp.Imports (allowed : ChunkImport → Prop) : StoreOp → Prop
  | .importChunkIfAbsent _ i => allowed i
  | .importChunk _ i => allowed i
  | .installGeneratedChunk _ i => allowed i
  | _ => True

def WorldStore.Reachable (allowed : ChunkImport → Prop) : WorldStore → Prop :=
  Relation.ReflTransGen (fun s t => ∃ op : StoreOp, op.Imports allowed ∧ t = op.apply s)
    WorldStore.new

def WorldStore.AllChunks (holds : ChunkRecord → Prop) (s : WorldStore) : Prop :=
  ∀ p c, s.chunks p = some c → holds c

namespace WorldStore

variable {α : Type} {holds : ChunkRecord → Prop} {s : WorldStore} {p : ChunkCoord}

theorem AllChunks.setChunk (h : s.AllChunks holds) {c : ChunkRecord} (hc : holds c) :
    (s.setChunk p c).AllChunks holds := by
  intro q d hd
  by_cases hq : q = p
  · subst hq
    rw [setChunk_self] at hd
    cases hd
    exact hc
  · rw [setChunk_of_ne s c hq] at hd
    exact h q d hd

theorem AllChunks.removeChunk (h : s.AllChunks holds) : (s.removeChunk p).AllChunks holds := by
  intro q d hd
  by_cases hq : q = p
  · subst hq
    rw [removeChunk_self] at hd
    cases hd
  · rw [removeChunk_of_ne s hq] at hd
    exact h q d hd

theorem AllChunks.withChunkMut (h : s.AllChunks holds)
    {operation : ChunkRecord → Except WorldStoreError α × ChunkRecord}
    (hop : ∀ c, holds c → holds (operation c).2) :
    (s.withChunkMut p operation).2.AllChunks holds := by
  unfold WorldStore.withChunkMut
  cases hc : s.chunks p with
  | none => exact h
  | some c => exact h.setChunk (hop c (h p c hc))

variable {chests : List ChestBlockEntity → Prop}

theorem AllChunks.editData (h : s.AllChunks (ChunkRecord.Sound chests))
    {edit : ChunkData → α × ChunkData} (he : ∀ d, d.Sound chests → (edit d).2.Sound chests) :
    (s.editData p edit).2.AllChunks (ChunkRecord.Sound chests) :=
  h.withChunkMut fun _ hc => ⟨he _ hc.data, hc.flags⟩

theorem ensureChunk_sound (hnil : chests []) (h : s.AllChunks (ChunkRecord.Sound chests))
    (biome : UInt8) : (s.ensureChunk p biome).2.AllChunks (ChunkRecord.Sound chests) := by
  unfold ensureChunk
  split
  · exact h
  · next word hw =>
    split
    · exact h
    · have hempty := ChunkData.empty_wellFormed _ (defaultBiomeWord_supported hw)
      exact h.setChunk ⟨⟨hempty, hnil⟩, by simp [ChunkRecord.empty]⟩

theorem fromImport_sound {i : ChunkImport} (hi : validateImport i = .ok ())
    (hc : chests i.data.chestBlockEntities) : (ChunkRecord.fromImport i).Sound chests := by
  obtain ⟨hf, hw⟩ := validateImport_ok_iff.mp hi
  exact ⟨⟨hw, hc⟩, hf⟩

theorem importChunk_sound (h : s.AllChunks (ChunkRecord.Sound chests)) {i : ChunkImport}
    (hc : chests i.data.chestBlockEntities) :
    (s.importChunk p i).2.AllChunks (ChunkRecord.Sound chests) := by
  unfold importChunk
  split
  · exact h
  · next hi => exact h.setChunk (fromImport_sound hi hc)

theorem importChunkIfAbsent_sound (h : s.AllChunks (ChunkRecord.Sound chests)) {i : ChunkImport}
    (hc : chests i.data.chestBlockEntities) :
    (s.importChunkIfAbsent p i).2.AllChunks (ChunkRecord.Sound chests) := by
  unfold importChunkIfAbsent
  split
  · exact h
  · next hi =>
    split
    · exact h
    · exact h.setChunk (fromImport_sound hi hc)

theorem installOver_sound {c : ChunkRecord} (h : c.Sound chests) {i : ChunkImport}
    (hi : validateImport i = .ok ()) (hc : chests i.data.chestBlockEntities) :
    (installOver c i).2.Sound chests := by
  obtain ⟨hf, hw⟩ := validateImport_ok_iff.mp hi
  unfold installOver
  dsimp only
  split
  · exact h
  · split
    · exact ⟨h.data, h.flags⟩
    · split
      · exact ⟨⟨hw, hc⟩, hf⟩
      · exact ⟨h.data, hf⟩

theorem installGeneratedChunk_sound (h : s.AllChunks (ChunkRecord.Sound chests)) {i : ChunkImport}
    (hc : chests i.data.chestBlockEntities) :
    (s.installGeneratedChunk p i).2.AllChunks (ChunkRecord.Sound chests) := by
  unfold installGeneratedChunk
  split
  · exact h
  · next hi =>
    split
    · obtain ⟨hf, hw⟩ := validateImport_ok_iff.mp hi
      exact h.setChunk ⟨⟨hw, hc⟩, hf⟩
    · next c hs => exact h.setChunk (installOver_sound (h p c hs) hi hc)

theorem patchRecord_sound {c : ChunkRecord} (hc : c.Sound chests) {patch : ChunkPatch}
    (hp : PatchValid patch) : (patchRecord c patch).2.Sound chests := by
  rcases patchRecord_cases c patch with ⟨e, heq⟩ | ⟨-, heq⟩
  · rw [heq]
    exact hc
  · rw [heq]
    constructor
    · rw [patched_data]
      exact patchData_sound hc.data hp
    · exact hc.flags

section

variable (h : s.AllChunks (ChunkRecord.Sound chests))

include h

theorem setLifecycleFlags_sound (flags : UInt8) :
    (s.setLifecycleFlags p flags).2.AllChunks (ChunkRecord.Sound chests) := by
  unfold setLifecycleFlags
  split
  · exact h
  · next hf =>
    exact h.withChunkMut fun c hc => ⟨hc.data, validateLifecycleFlags_ok_iff.mp hf⟩

theorem pinChunk_sound : (s.pinChunk p).2.AllChunks (ChunkRecord.Sound chests) := by
  refine h.withChunkMut fun c hc => ?_
  split
  · exact ⟨hc.data, hc.flags⟩
  · exact hc

theorem unpinChunk_sound : (s.unpinChunk p).2.AllChunks (ChunkRecord.Sound chests) := by
  refine h.withChunkMut fun c hc => ?_
  split
  · exact hc
  · exact ⟨hc.data, hc.flags⟩

theorem markPersisted_sound (terrain light : UInt64) (flags : UInt8) :
    (s.markPersisted p terrain light flags).2.AllChunks (ChunkRecord.Sound chests) := by
  unfold markPersisted
  split
  · exact h
  · refine h.withChunkMut fun c hc => ?_
    unfold markPersistedRecord
    repeat' split
    all_goals first
      | exact hc
      | exact ⟨hc.data, hc.flags⟩

theorem tryEvictChunk_sound : (s.tryEvictChunk p).2.AllChunks (ChunkRecord.Sound chests) := by
  unfold tryEvictChunk
  repeat' split
  all_goals first
    | exact h
    | exact h.removeChunk

theorem commitTerrainRevision_sound (expected next : UInt64) :
    (s.commitTerrainRevision p expected next).2.AllChunks (ChunkRecord.Sound chests) := by
  refine h.withChunkMut fun c hc => ?_
  repeat' split
  all_goals first
    | exact hc
    | exact ⟨hc.data, hc.flags⟩

theorem commitLightRevision_sound (expected next : UInt64) :
    (s.commitLightRevision p expected next).2.AllChunks (ChunkRecord.Sound chests) := by
  refine h.withChunkMut fun c hc => ?_
  repeat' split
  all_goals first
    | exact hc
    | exact ⟨hc.data, hc.flags⟩

theorem setBlockState_sound (x y z : UInt8) (state : UInt16) :
    (s.setBlockState p x y z state).2.AllChunks (ChunkRecord.Sound chests) := by
  unfold setBlockState
  split
  · exact h
  · exact h
  · next hs _ =>
    refine h.editData fun d hd => ?_
    dsimp only
    split
    · exact (hd.setState (validateState_ok_iff.mp hs)).recalculateColumnHeight _
    · exact hd

theorem fillLayers_sound (startY count : UInt8) (state : UInt16) :
    (s.fillLayers p startY count state).2.AllChunks (ChunkRecord.Sound chests) := by
  unfold fillLayers
  split
  · exact h
  · next hs =>
    split
    · exact h
    · next hr =>
      refine h.editData fun d hd => ?_
      dsimp only
      apply ChunkData.Sound.recalculateAllHeights
      apply hd.fillStates _ (validateState_ok_iff.mp hs)
      simp only [not_or, not_le, not_lt] at hr
      rw [← Nat.add_mul, chunkBlockCount, Nat.mul_comm chunkColumnCount]
      exact Nat.mul_le_mul_right _ hr.2.2

theorem setBiomeWord_sound (x z : UInt8) (word : UInt32) :
    (s.setBiomeWord p x z word).2.AllChunks (ChunkRecord.Sound chests) := by
  unfold setBiomeWord
  split
  · exact h
  · exact h
  · next hw _ => exact h.editData fun d hd => hd.setBiome (validateBiomeWord_ok_iff.mp hw)

theorem setBiome_sound (x z biome : UInt8) :
    (s.setBiome p x z biome).2.AllChunks (ChunkRecord.Sound chests) := by
  unfold setBiome
  split
  · exact h
  · cases s.biomeWord p x z with
    | error e => exact h
    | ok previous => exact setBiomeWord_sound h x z _

theorem setBiomeColor_sound (x z : UInt8) (color : UInt32) :
    (s.setBiomeColor p x z color).2.AllChunks (ChunkRecord.Sound chests) := by
  unfold setBiomeColor
  split
  · exact h
  · cases s.biomeWord p x z with
    | error e => exact h
    | ok previous => exact setBiomeWord_sound h x z _

theorem fillBiome_sound (biome : UInt8) :
    (s.fillBiome p biome).2.AllChunks (ChunkRecord.Sound chests) := by
  unfold fillBiome
  split
  · exact h
  · next hb =>
    refine h.editData fun d hd => hd.withBiomes ?_ ?_
    · simpa using hd.wellFormed.biomes_length
    · intro word hw
      obtain ⟨previous, -, rfl⟩ := List.mem_map.mp hw
      rw [biomeId_withBiomeId]
      simpa using hb

theorem setSkyLight_sound (x y z level : UInt8) :
    (s.setSkyLight p x y z level).2.AllChunks (ChunkRecord.Sound chests) := by
  unfold setSkyLight
  split
  · exact h
  · exact h
  · exact h.editData fun d hd => hd.withSkyLight (by simpa using hd.wellFormed.skyLight_length)

theorem fillSkyLightFrom_sound (y level : UInt8) :
    (s.fillSkyLightFrom p y level).2.AllChunks (ChunkRecord.Sound chests) := by
  unfold fillSkyLightFrom
  split
  · exact h
  · split
    · exact h
    · refine h.editData fun d hd => hd.withSkyLight ?_
      refine List.foldlRecOn (motive := fun plane : Bytes => plane.length = chunkNibbleBytes) _ _
        hd.wellFormed.skyLight_length ?_
      intro plane hl index _
      rw [length_writeNibble, hl]

theorem setBlockLight_sound (x y z level : UInt8) :
    (s.setBlockLight p x y z level).2.AllChunks (ChunkRecord.Sound chests) := by
  unfold setBlockLight
  split
  · exact h
  · exact h
  · exact h.editData fun d hd => hd.withBlockLight (by simpa using hd.wellFormed.blockLight_length)

theorem setBlockExtraData_sound (x y z : UInt8) (value : UInt16) :
    (s.setBlockExtraData p x y z value).2.AllChunks (ChunkRecord.Sound chests) := by
  unfold setBlockExtraData
  split
  · exact h
  · exact h.editData fun d hd => hd.withExtraData _

theorem recalculateHeightMap_sound :
    (s.recalculateHeightMap p).2.AllChunks (ChunkRecord.Sound chests) := by
  refine h.editData fun d hd => ?_
  dsimp only
  apply ChunkData.Sound.recalculateAllHeights hd

theorem applyPatch_sound (patch : ChunkPatch) :
    (s.applyPatch p patch).2.AllChunks (ChunkRecord.Sound chests) := by
  unfold applyPatch
  split
  · exact h
  · next hv =>
    have hm : (s.withChunkMut p fun c => patchRecord c patch).2.AllChunks
        (ChunkRecord.Sound chests) :=
      h.withChunkMut fun c hc => patchRecord_sound hc (validatePatch_valid hv)
    split
    · next heq => rwa [heq] at hm
    · next heq =>
      rw [heq] at hm
      split
      · exact hm
      · exact hm

end

end WorldStore

theorem StoreOp.apply_sound {op : StoreOp} {s : WorldStore} {chests : List ChestBlockEntity → Prop}
    (hnil : chests []) (hop : op.Imports fun i => chests i.data.chestBlockEntities)
    (h : s.AllChunks (ChunkRecord.Sound chests)) :
    (op.apply s).AllChunks (ChunkRecord.Sound chests) := by
  cases op with
  | ensureChunk p biome => exact WorldStore.ensureChunk_sound hnil h biome
  | importChunkIfAbsent p i => exact WorldStore.importChunkIfAbsent_sound h hop
  | importChunk p i => exact WorldStore.importChunk_sound h hop
  | installGeneratedChunk p i => exact WorldStore.installGeneratedChunk_sound h hop
  | setLifecycleFlags p flags => exact WorldStore.setLifecycleFlags_sound h flags
  | pinChunk p => exact WorldStore.pinChunk_sound h
  | unpinChunk p => exact WorldStore.unpinChunk_sound h
  | markPersisted p terrain light flags => exact WorldStore.markPersisted_sound h terrain light flags
  | tryEvictChunk p => exact WorldStore.tryEvictChunk_sound h
  | commitTerrainRevision p expected next =>
    exact WorldStore.commitTerrainRevision_sound h expected next
  | commitLightRevision p expected next =>
    exact WorldStore.commitLightRevision_sound h expected next
  | setBlockState p x y z state => exact WorldStore.setBlockState_sound h x y z state
  | fillLayers p startY count state => exact WorldStore.fillLayers_sound h startY count state
  | setBiomeWord p x z word => exact WorldStore.setBiomeWord_sound h x z word
  | setBiome p x z biome => exact WorldStore.setBiome_sound h x z biome
  | setBiomeColor p x z color => exact WorldStore.setBiomeColor_sound h x z color
  | fillBiome p biome => exact WorldStore.fillBiome_sound h biome
  | setSkyLight p x y z level => exact WorldStore.setSkyLight_sound h x y z level
  | fillSkyLightFrom p y level => exact WorldStore.fillSkyLightFrom_sound h y level
  | setBlockLight p x y z level => exact WorldStore.setBlockLight_sound h x y z level
  | recalculateHeightMap p => exact WorldStore.recalculateHeightMap_sound h
  | setBlockExtraData p x y z value => exact WorldStore.setBlockExtraData_sound h x y z value
  | applyPatch p patch => exact WorldStore.applyPatch_sound h patch
  | pruneChangesThrough sequence => exact h

theorem WorldStore.Reachable.sound {allowed : ChunkImport → Prop} {s : WorldStore}
    {chests : List ChestBlockEntity → Prop} (hnil : chests [])
    (hallowed : ∀ i, allowed i → chests i.data.chestBlockEntities)
    (h : WorldStore.Reachable allowed s) : s.AllChunks (ChunkRecord.Sound chests) := by
  induction h with
  | refl =>
    intro p c hc
    cases hc
  | tail _ hstep ih =>
    obtain ⟨op, hop, rfl⟩ := hstep
    refine StoreOp.apply_sound hnil ?_ ih
    cases op <;> first
      | exact hallowed _ hop
      | trivial

end Cobblestone.World
