import Cobblestone.World.Edits

namespace Cobblestone.World

open Lib

structure ChunkData.WellFormed (data : ChunkData) : Prop where
  states_length : data.states.length = chunkBlockCount
  skyLight_length : data.skyLight.length = chunkNibbleBytes
  blockLight_length : data.blockLight.length = chunkNibbleBytes
  biomes_length : data.biomes.length = chunkColumnCount
  heightMap_length : data.heightMap.length = chunkColumnCount
  states_supported : ∀ state ∈ data.states, worldBlockStateIdIsSupported state = true
  biomes_supported : ∀ word ∈ data.biomes, biomeIdIsSupported (biomeId word) = true

structure ChunkData.Sound (chests : List ChestBlockEntity → Prop) (data : ChunkData) : Prop where
  wellFormed : data.WellFormed
  chests_allowed : chests data.chestBlockEntities

structure ChunkRecord.Sound (chests : List ChestBlockEntity → Prop) (c : ChunkRecord) : Prop where
  data : c.data.Sound chests
  flags : c.lifecycleFlags &&& ~~~chunkLifecycleMask = 0

variable {chests : List ChestBlockEntity → Prop}

theorem ChunkData.empty_wellFormed (word : UInt32) (hw : biomeIdIsSupported (biomeId word) = true) :
    (ChunkData.empty word).WellFormed := by
  constructor
  · exact List.length_replicate
  · exact List.length_replicate
  · exact List.length_replicate
  · exact List.length_replicate
  · exact List.length_replicate
  · intro state hs
    rw [List.eq_of_mem_replicate hs]
    rfl
  · intro word' hs
    rw [List.eq_of_mem_replicate hs]
    exact hw

theorem validateLifecycleFlags_ok_iff {flags : UInt8} {u : Unit} :
    validateLifecycleFlags flags = .ok u ↔ flags &&& ~~~chunkLifecycleMask = 0 := by
  unfold validateLifecycleFlags
  split <;> simp_all

theorem validateState_ok_iff {state : UInt16} {u : Unit} :
    validateState state = .ok u ↔ worldBlockStateIdIsSupported state = true := by
  unfold validateState
  split <;> simp_all

theorem validateBiomeWord_ok_iff {word : UInt32} {u : Unit} :
    validateBiomeWord word = .ok u ↔ biomeIdIsSupported (biomeId word) = true := by
  unfold validateBiomeWord
  split <;> simp_all

theorem validateImport_ok_iff {i : ChunkImport} {u : Unit} :
    validateImport i = .ok u ↔
      i.lifecycleFlags &&& ~~~chunkLifecycleMask = 0 ∧ i.data.WellFormed := by
  simp only [validateImport, bind_ok_iff, ensure_ok_iff, exists_const, decide_eq_true_eq,
    forM_ok_iff, validateLifecycleFlags_ok_iff, validateState_ok_iff, validateBiomeWord_ok_iff]
  constructor
  · rintro ⟨hf, hs, hk, hb, hw, hws, hh, hss⟩
    exact ⟨hf, hs, hk, hb, hw, hh, hss, hws⟩
  · rintro ⟨hf, hs, hk, hb, hw, hh, hss, hws⟩
    exact ⟨hf, hs, hk, hb, hw, hws, hh, hss⟩

namespace ChunkData.Sound

variable {data : ChunkData} (h : data.Sound chests)

include h

theorem withStates {states : List UInt16} (hl : states.length = chunkBlockCount)
    (hs : ∀ state ∈ states, worldBlockStateIdIsSupported state = true) :
    ({ data with states := states } : ChunkData).Sound chests :=
  ⟨{ h.wellFormed with states_length := hl, states_supported := hs }, h.chests_allowed⟩

theorem withBiomes {biomes : List UInt32} (hl : biomes.length = chunkColumnCount)
    (hb : ∀ word ∈ biomes, biomeIdIsSupported (biomeId word) = true) :
    ({ data with biomes := biomes } : ChunkData).Sound chests :=
  ⟨{ h.wellFormed with biomes_length := hl, biomes_supported := hb }, h.chests_allowed⟩

theorem withSkyLight {plane : Bytes} (hl : plane.length = chunkNibbleBytes) :
    ({ data with skyLight := plane } : ChunkData).Sound chests :=
  ⟨{ h.wellFormed with skyLight_length := hl }, h.chests_allowed⟩

theorem withBlockLight {plane : Bytes} (hl : plane.length = chunkNibbleBytes) :
    ({ data with blockLight := plane } : ChunkData).Sound chests :=
  ⟨{ h.wellFormed with blockLight_length := hl }, h.chests_allowed⟩

theorem withExtraData (extra : ExtraData) :
    ({ data with extraData := extra } : ChunkData).Sound chests :=
  ⟨{ h.wellFormed with }, h.chests_allowed⟩

theorem recalculateColumnHeight (column : Nat) :
    (World.recalculateColumnHeight data column).Sound chests :=
  ⟨{ h.wellFormed with
      heightMap_length := by
        simpa [World.recalculateColumnHeight] using h.wellFormed.heightMap_length },
    h.chests_allowed⟩

theorem recalculateAllHeights : (World.recalculateAllHeights data).Sound chests := by
  unfold World.recalculateAllHeights
  exact List.foldlRecOn _ _ h fun _ hd column _ => hd.recalculateColumnHeight column

theorem setState {index : Nat} {state : UInt16} (hs : worldBlockStateIdIsSupported state = true) :
    ({ data with states := data.states.set index state } : ChunkData).Sound chests := by
  refine h.withStates (by simpa using h.wellFormed.states_length) ?_
  intro other ho
  rcases List.mem_or_eq_of_mem_set ho with hm | rfl
  · exact h.wellFormed.states_supported other hm
  · exact hs

theorem setBiome {index : Nat} {word : UInt32} (hw : biomeIdIsSupported (biomeId word) = true) :
    ({ data with biomes := data.biomes.set index word } : ChunkData).Sound chests := by
  refine h.withBiomes (by simpa using h.wellFormed.biomes_length) ?_
  intro other ho
  rcases List.mem_or_eq_of_mem_set ho with hm | rfl
  · exact h.wellFormed.biomes_supported other hm
  · exact hw

theorem fillStates {first count : Nat} {state : UInt16} (hr : first + count ≤ chunkBlockCount)
    (hs : worldBlockStateIdIsSupported state = true) :
    ({ data with states := putAt first (List.replicate count state) data.states } :
      ChunkData).Sound chests := by
  refine h.withStates ?_ ?_
  · rw [length_putAt, h.wellFormed.states_length]
    rwa [List.length_replicate, h.wellFormed.states_length]
  · intro other ho
    simp only [putAt, List.mem_append, List.mem_replicate] at ho
    rcases ho with (hm | ⟨-, rfl⟩) | hm
    · exact h.wellFormed.states_supported other (List.mem_of_mem_take hm)
    · exact hs
    · exact h.wellFormed.states_supported other (List.mem_of_mem_drop hm)

end ChunkData.Sound

structure PatchValid (patch : ChunkPatch) : Prop where
  blocks : ∀ edit ∈ patch.blocks, edit.1.toNat < chunkBlockCount ∧
    worldBlockStateIdIsSupported edit.2 = true
  biomes : ∀ edit ∈ patch.biomes, biomeIdIsSupported (biomeId edit.2) = true
  extraData : ∀ edit ∈ patch.extraData, edit.1.toNat < chunkBlockCount
  light : ∀ edit ∈ patch.skyLight ++ patch.blockLight,
    edit.1.toNat < chunkBlockCount ∧ edit.2.toNat < 16

theorem validateBlockIndex_ok_iff {index : UInt16} {u : Unit} :
    validateBlockIndex index = .ok u ↔ index.toNat < chunkBlockCount := by
  unfold validateBlockIndex
  split <;> simp_all

theorem validateColumnIndex_ok (index : UInt8) : validateColumnIndex index = .ok () := by
  have := index.toNat_lt
  rw [validateColumnIndex, if_neg]
  simp only [chunkColumnCount, chunkEdge]
  omega

theorem validateLight_ok_iff {level : UInt8} {u : Unit} :
    validateLight level = .ok u ↔ level.toNat < 16 := by
  unfold validateLight
  split
  · next h =>
    have : 15 < level.toNat := h
    simp
    omega
  · next h =>
    have : ¬ 15 < level.toNat := h
    simp
    omega

theorem validatePatch_valid {patch : ChunkPatch} {u : Unit}
    (h : WorldStore.validatePatch patch = .ok u) : PatchValid patch := by
  simp only [WorldStore.validatePatch, bind_ok_iff, exists_const, forM_ok_iff, Prod.forall,
    validateBlockIndex_ok_iff, validateState_ok_iff, validateBiomeWord_ok_iff,
    validateLight_ok_iff, validateColumnIndex_ok, true_and] at h
  obtain ⟨hblocks, hbiomes, hextra, hlight⟩ := h
  exact ⟨fun edit he => hblocks edit.1 edit.2 he, fun edit he => hbiomes edit.1 edit.2 he,
    fun edit he => hextra edit.1 edit.2 he, fun edit he => hlight edit.1 edit.2 he⟩

theorem length_applyNibbles (plane : Bytes) (edits : List (UInt16 × UInt8)) :
    (WorldStore.applyNibbles plane edits).length = plane.length := by
  induction edits generalizing plane with
  | nil => rfl
  | cons edit edits ih =>
    rw [WorldStore.applyNibbles, List.foldl_cons, ← WorldStore.applyNibbles, ih,
      length_writeNibble]

theorem applyBlocks_sound {data : ChunkData} (h : data.Sound chests)
    {edits : List (UInt16 × UInt16)}
    (he : ∀ edit ∈ edits, worldBlockStateIdIsSupported edit.2 = true) :
    ({ data with states := (WorldStore.applyBlocks data.states edits).1 } : ChunkData).Sound
      chests := by
  refine List.foldlRecOn (motive := fun (acc : List UInt16 × (Nat → Bool)) =>
    ({ data with states := acc.1 } : ChunkData).Sound chests) edits _ h ?_
  intro acc hacc edit hedit
  simp only [WorldStore.applyBlock]
  split
  · exact hacc.setState (he edit hedit)
  · exact hacc

theorem applyBiomes_sound {data : ChunkData} (h : data.Sound chests)
    {edits : List (UInt8 × UInt32)}
    (he : ∀ edit ∈ edits, biomeIdIsSupported (biomeId edit.2) = true) :
    ({ data with biomes := (edits.foldl (fun biomes edit => biomes.set edit.1.toNat edit.2)
        data.biomes) } : ChunkData).Sound chests := by
  refine List.foldlRecOn (motive := fun biomes =>
    ({ data with biomes := biomes } : ChunkData).Sound chests) edits _ h ?_
  intro biomes hb edit hedit
  exact hb.setBiome (he edit hedit)

theorem recalculateTouched_sound {data : ChunkData} (h : data.Sound chests)
    (touched : Nat → Bool) : (WorldStore.recalculateTouched data touched).Sound chests := by
  unfold WorldStore.recalculateTouched
  refine List.foldlRecOn _ _ h ?_
  intro data hd column _
  split
  · exact hd.recalculateColumnHeight column
  · exact hd

theorem patchData_sound {data : ChunkData} (h : data.Sound chests) {patch : ChunkPatch}
    (hp : PatchValid patch) : (WorldStore.patchData data patch).Sound chests := by
  have hblocks := applyBlocks_sound h fun edit he => (hp.blocks edit he).2
  have hbiomes := applyBiomes_sound hblocks hp.biomes
  refine recalculateTouched_sound ?_ _
  refine ((hbiomes.withExtraData _).withSkyLight ?_).withBlockLight ?_
  · exact (length_applyNibbles _ _).trans h.wellFormed.skyLight_length
  · exact (length_applyNibbles _ _).trans h.wellFormed.blockLight_length

end Cobblestone.World
