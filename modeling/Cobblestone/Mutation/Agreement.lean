import Cobblestone.Mutation.ChunkPatch
import Cobblestone.World.Reachable

namespace Cobblestone.Mutation

open Lib World Storage

variable {α : Type} {store : WorldStore} {p : ChunkCoord} {c : ChunkRecord} {x y z : Nat}

def projected (p : ChunkCoord) (c : ChunkRecord) : ChunkSnapshot where
  position := p
  revision := c.terrainRevision.toInt64
  blockIds := c.data.states.map stateHigh
  blockData := packNibbles chunkNibbleBytes (c.data.states.map stateNibble)
  skyLight := c.data.skyLight
  blockLight := c.data.blockLight
  biomeWords := c.data.biomes.flatMap toBigEndian
  heightMap := c.data.heightMap
  extraData := c.data.extraData
  lightRevision := c.lightRevision.toInt64

theorem toInt64_nonneg {v : UInt64} (h : v.toNat < 2 ^ 63) : 0 ≤ v.toInt64 := by
  rw [Int64.le_iff_toInt_le, ← Int64.toInt_toBitVec v.toInt64, UInt64.toBitVec_toInt64,
    BitVec.toInt_eq_toNat_of_lt (by rw [UInt64.toNat_toBitVec]; omega)]
  exact Int.natCast_nonneg _

theorem extraData_size (extra : ExtraData) : extra.size < UInt32.size := by
  have hsub : extra.toList.map Prod.fst ⊆ (List.range 65536).map UInt16.ofNat := by
    intro key _
    exact List.mem_map.mpr ⟨key.toNat, List.mem_range.mpr key.toNat_lt, UInt16.ofNat_toNat⟩
  have hnodup : (extra.toList.map Prod.fst).Nodup := by
    rw [List.Nodup, List.pairwise_map]
    exact Std.ExtTreeMap.distinct_keys_toList.imp fun hne heq => hne (by simpa using heq)
  have hle := (List.subperm_of_subset hnodup hsub).length_le
  rw [List.length_map, Std.ExtTreeMap.length_toList, List.length_map, List.length_range] at hle
  exact Nat.lt_of_le_of_lt hle (by decide)

theorem reads_takeInt (v : UInt64) : Reads SnapshotDecoder.takeInt (toLE 8 v.toNat) v.toInt64 := by
  have h := (Reads.bytes (length_toLE 8 v.toNat) MutationError.projectionTruncated).bind_pure
    fun bytes => (UInt64.ofNat (ofLE bytes)).toInt64
  rwa [u64_of_le] at h

theorem reads_takeEntry (entry : UInt16 × UInt16) :
    Reads SnapshotDecoder.takeEntry (projectExtra entry) entry := by
  have hlen : (projectExtra entry).length = 4 := by simp [projectExtra]
  have h := (Reads.bytes hlen MutationError.projectionTruncated).bind_pure fun bytes =>
    (UInt16.ofNat (ofLE (sliceAt 0 2 bytes)), UInt16.ofNat (ofLE (sliceAt 2 2 bytes)))
  have hkey : sliceAt 0 2 (projectExtra entry) = toLE 2 entry.1.toNat := by
    rw [projectExtra, sliceAt_append_left (by simp)]
    exact List.take_of_length_le (by simp)
  have hvalue : sliceAt 2 2 (projectExtra entry) = toLE 2 entry.2.toNat := by
    rw [projectExtra, sliceAt_append_right (by simp)]
    exact List.take_of_length_le (by simp)
  rwa [hkey, hvalue, u16_of_le, u16_of_le] at h

theorem length_projectExtra (entries : List (UInt16 × UInt16)) :
    (entries.flatMap projectExtra).length = entries.length * 4 := by
  induction entries with
  | nil => rfl
  | cons entry entries ih =>
    rw [List.flatMap_cons, List.length_append, ih, projectExtra, List.length_append, length_toLE,
      length_toLE, List.length_cons]
    omega

theorem sliceAt_biomeWords (words : List UInt32) (i : Nat) (hi : i < words.length) :
    sliceAt (i * 4) 4 (words.flatMap toBigEndian) = toBigEndian words[i] := by
  have hk : i < (words.map toBigEndian).length := by rwa [List.length_map]
  have h := sliceAt_flatten (words.map toBigEndian) i hk
  have hsum : (((words.map toBigEndian).take i).map List.length).sum = i * 4 := by
    have hconst : List.length ∘ toBigEndian = fun _ => 4 := funext length_toBigEndian
    rw [← List.map_take, List.map_map, hconst, List.map_const', List.sum_replicate,
      List.length_take, min_eq_left (by omega), smul_eq_mul]
  rw [hsum, List.getElem_map, length_toBigEndian, ← List.flatMap_def] at h
  exact h

theorem head_toBigEndian (word : UInt32) : (toBigEndian word)[0]? = some (biomeId word) := by
  have hbytes : toBigEndian word = [UInt8.ofNat (word.toNat / 256 / 256 / 256),
      UInt8.ofNat (word.toNat / 256 / 256), UInt8.ofNat (word.toNat / 256), UInt8.ofNat word.toNat] := rfl
  rw [hbytes, List.getElem?_cons_zero, Option.some.injEq]
  apply UInt8.toNat_inj.mp
  rw [UInt8.toNat_ofNat', biomeId, UInt32.toNat_toUInt8, UInt32.toNat_shiftRight,
    Nat.shiftRight_eq_div_pow, Nat.div_div_eq_div_mul, Nat.div_div_eq_div_mul]
  rfl

theorem getD_biomeWords {words : List UInt32} {i : Nat} (hi : i < words.length) :
    (words.flatMap toBigEndian).getD (i * 4) 0 = biomeId words[i] := by
  have h : (sliceAt (i * 4) 4 (words.flatMap toBigEndian))[0]? = (toBigEndian words[i])[0]? := by
    rw [sliceAt_biomeWords words i hi]
  rw [getElem?_sliceAt, if_pos (by decide), head_toBigEndian, Nat.add_zero] at h
  rw [List.getD_eq_getElem?_getD, h]
  rfl

theorem construct_projected (hw : c.data.WellFormed) (hl : c.lightRevision.toNat < 2 ^ 63) :
    (projected p c).construct = .ok (projected p c) := by
  have hids : (projected p c).biomeIds.forM
      (fun id => ensure (biomeIdIsSupported id) (MutationError.unsupportedBiome id)) = .ok () := by
    rw [forM_ok_iff]
    intro id hid
    obtain ⟨i, hi, rfl⟩ := List.mem_map.mp hid
    have hi' : i < c.data.biomes.length := by
      rw [hw.biomes_length]
      exact List.mem_range.mp hi
    rw [show (projected p c).biomeWords.getD (i * 4) 0 = biomeId c.data.biomes[i] from
      getD_biomeWords hi', ensure_ok_iff]
    exact hw.biomes_supported _ (List.getElem_mem hi')
  have hlengths : (projected p c).blockIds.length = chunkBlockCount ∧
      (projected p c).blockData.length = chunkNibbleBytes ∧
      (projected p c).skyLight.length = chunkNibbleBytes ∧
      (projected p c).blockLight.length = chunkNibbleBytes ∧
      (projected p c).biomeWords.length = chunkColumnCount * 4 ∧
      (projected p c).heightMap.length = chunkColumnCount := by
    refine ⟨?_, length_packNibbles _ _, hw.skyLight_length, hw.blockLight_length, ?_,
      hw.heightMap_length⟩
    · exact List.length_map _ |>.trans hw.states_length
    · exact (length_biomes _).trans (by rw [hw.biomes_length])
  obtain ⟨hblocks, hdata, hsky, hblock, hbiomes, hheights⟩ := hlengths
  have hlight : (0 : Int64) ≤ (projected p c).lightRevision := toInt64_nonneg hl
  simp only [ChunkSnapshot.construct, hblocks, hdata, hsky, hblock, hbiomes, hheights, hids, hlight,
    and_self, decide_true, ensure_true, ok_bind]
  rfl

theorem decode_projection (hw : c.data.WellFormed) (ht : c.terrainRevision.toNat < 2 ^ 63)
    (hl : c.lightRevision.toNat < 2 ^ 63) :
    SnapshotDecoder.decode p (toLE 8 c.terrainRevision.toNat ++
      (toLE 8 c.lightRevision.toNat ++ projectData c.data)) = .ok (projected p c, []) := by
  have htake {n : Nat} {b : Bytes} (hb : b.length = n) : Reads (SnapshotDecoder.take n) b b :=
    Reads.bytes hb _
  have hrange : (decide (0 ≤ c.terrainRevision.toInt64) && decide (0 ≤ c.lightRevision.toInt64)) =
      true := by
    rw [decide_eq_true (toInt64_nonneg ht), decide_eq_true (toInt64_nonneg hl)]
    rfl
  have hrequire (rest : Bytes) : Reader.require _ MutationError.snapshotRevisionExceedsPhpRange rest =
      .ok ((), rest) := Reads.require hrange _ rest
  have hcount : c.data.extraData.size < 256 ^ 4 := extraData_size c.data.extraData
  have hentries : c.data.extraData.toList.length = c.data.extraData.size :=
    Std.ExtTreeMap.length_toList
  have hlen : (c.data.extraData.toList.flatMap projectExtra).length =
      c.data.extraData.size * 4 := by
    rw [length_projectExtra, hentries]
  have hexpect : SnapshotDecoder.expectEntries c.data.extraData.size
      (c.data.extraData.toList.flatMap projectExtra) =
        .ok ((), c.data.extraData.toList.flatMap projectExtra) := by
    refine if_neg ?_
    rw [hlen, not_or, not_not]
    exact ⟨by omega, rfl⟩
  have htimes := Reads.times fun entry (_ : entry ∈ c.data.extraData.toList) => reads_takeEntry entry
  rw [hentries] at htimes
  rw [SnapshotDecoder.decode, projectData, (reads_takeInt c.terrainRevision).run,
    (reads_takeInt c.lightRevision).run, Reader.bind_of_ok (hrequire _),
    (htake (by rw [List.length_map, hw.states_length])).run,
    (htake (length_packNibbles _ _)).run, (htake hw.skyLight_length).run,
    (htake hw.blockLight_length).run,
    (htake (by rw [length_biomes, hw.biomes_length])).run, (htake hw.heightMap_length).run,
    (Reads.natLE hcount _).run, Reader.bind_of_ok hexpect,
    ← List.append_nil (c.data.extraData.toList.flatMap projectExtra), htimes.run,
    insertMany_toList]
  change ((projected p c).construct >>= fun snapshot => pure (snapshot, [])) = _
  rw [construct_projected hw hl]
  rfl

theorem chunk_snapshot (hc : store.chunks p = some c) (hw : c.data.WellFormed)
    (ht : c.terrainRevision.toNat < 2 ^ 63) (hl : c.lightRevision.toNat < 2 ^ 63) :
    Chunk.snapshot store p = .ok (projected p c) := by
  have hbytes : worldSnapshot store p = .ok (toLE 8 c.terrainRevision.toNat ++
      (toLE 8 c.lightRevision.toNat ++ projectData c.data)) := by
    rw [worldSnapshot, WorldStore.snapshot, WorldStore.withChunk, hc]
    exact if_pos (extraData_size c.data.extraData)
  rw [Chunk.snapshot, hbytes, ok_bind, decode_projection hw ht hl]
  rfl

structure InChunk (x y z : Nat) : Prop where
  x_lt : x < 16
  y_lt : y < 128
  z_lt : z < 16

theorem InChunk.contains (h : InChunk x y z) : containsCell x y z = true := by
  simp [containsCell, containsLocal, containsY, chunkEdge, worldHeight, h.x_lt, h.y_lt, h.z_lt]

theorem inChunk_of_key (key : Nat) : InChunk (ChunkCoordinateKey.decodeBlock key).1
    (ChunkCoordinateKey.decodeBlock key).2.1 (ChunkCoordinateKey.decodeBlock key).2.2 where
  x_lt := Nat.lt_succ_of_le Nat.and_le_right
  y_lt := Nat.lt_succ_of_le Nat.and_le_right
  z_lt := Nat.lt_succ_of_le Nat.and_le_right

theorem block_lt (h : InChunk x y z) : ChunkCoordinateKey.block x y z < chunkBlockCount := by
  have hx : x < 2 ^ 15 := by have := h.x_lt; omega
  have hy : y <<< 8 < 2 ^ 15 := by
    have := h.y_lt
    rw [Nat.shiftLeft_eq]
    omega
  have hz : z <<< 4 < 2 ^ 15 := by
    have := h.z_lt
    rw [Nat.shiftLeft_eq]
    omega
  exact Nat.or_lt_two_pow (Nat.or_lt_two_pow hy hz) hx

theorem block_eq (h : InChunk x y z) :
    ChunkCoordinateKey.block x y z = 256 * y + 16 * z + x := by
  have hx : x < 2 ^ 4 := h.x_lt
  have hz : z <<< 4 < 2 ^ 8 := by
    have := h.z_lt
    rw [Nat.shiftLeft_eq]
    omega
  have hyz : (16 * y + z) <<< 4 = y <<< 8 + z <<< 4 := by
    simp only [Nat.shiftLeft_eq]
    omega
  rw [ChunkCoordinateKey.block, ← Nat.shiftLeft_add_eq_or_of_lt hz, ← hyz,
    ← Nat.shiftLeft_add_eq_or_of_lt hx, hyz]
  simp only [Nat.shiftLeft_eq]
  omega

theorem decodeBlock_block (h : InChunk x y z) :
    ChunkCoordinateKey.decodeBlock (ChunkCoordinateKey.block x y z) = (x, y, z) := by
  have hx := h.x_lt
  have hy := h.y_lt
  have hz := h.z_lt
  rw [block_eq h, ChunkCoordinateKey.decodeBlock, show 0x0f = 2 ^ 4 - 1 from rfl,
    show 0x7f = 2 ^ 7 - 1 from rfl]
  simp only [Nat.and_two_pow_sub_one_eq_mod, Nat.shiftRight_eq_div_pow, Prod.mk.injEq]
  omega

theorem column_eq (hx : x < 16) (z : Nat) : ChunkCoordinateKey.column x z = 16 * z + x := by
  rw [ChunkCoordinateKey.column, ← Nat.shiftLeft_add_eq_or_of_lt (show x < 2 ^ 4 from hx),
    Nat.shiftLeft_eq]
  omega

theorem decodeColumn_column (hx : x < 16) (hz : z < 16) :
    ChunkCoordinateKey.decodeColumn (ChunkCoordinateKey.column x z) = (x, z) := by
  rw [column_eq hx, ChunkCoordinateKey.decodeColumn, show 0x0f = 2 ^ 4 - 1 from rfl]
  simp only [Nat.and_two_pow_sub_one_eq_mod, Nat.shiftRight_eq_div_pow, Prod.mk.injEq]
  omega

theorem column_lt (hx : x < 16) (hz : z < 16) :
    ChunkCoordinateKey.column x z < chunkColumnCount := by
  have hx' : x < 2 ^ 8 := by omega
  have hz' : z <<< 4 < 2 ^ 8 := by
    rw [Nat.shiftLeft_eq]
    omega
  exact Nat.or_lt_two_pow hz' hx'

theorem toNat_ofNat_small {n : Nat} (h : n < 256) : (UInt8.ofNat n).toNat = n :=
  UInt8.toNat_ofNat_of_lt' h

theorem blockIndex_inChunk (h : InChunk x y z) :
    blockIndex (UInt8.ofNat x) (UInt8.ofNat y) (UInt8.ofNat z) =
      .ok (ChunkCoordinateKey.block x y z) := by
  have hx := h.x_lt
  have hy := h.y_lt
  have hz := h.z_lt
  rw [blockIndex, toNat_ofNat_small (by omega), toNat_ofNat_small (by omega),
    toNat_ofNat_small (by omega), chunkEdge, worldHeight, if_neg (by omega)]
  rfl

theorem columnIndex_inChunk (hx : x < 16) (hz : z < 16) :
    columnIndex (UInt8.ofNat x) (UInt8.ofNat z) = .ok (ChunkCoordinateKey.column x z) := by
  rw [columnIndex, toNat_ofNat_small (by omega), toNat_ofNat_small (by omega),
    chunkEdge, if_neg (by omega)]
  rfl

def extraKeyAt (x y z : Nat) : UInt16 :=
  (UInt16.ofNat z <<< 12) ||| (UInt16.ofNat x <<< 8) ||| UInt16.ofNat y

theorem extraKey_inChunk (h : InChunk x y z) :
    extraKey (UInt8.ofNat x) (UInt8.ofNat y) (UInt8.ofNat z) = .ok (extraKeyAt x y z) := by
  have hwide {n : Nat} (hn : n < 256) : (UInt8.ofNat n).toUInt16 = UInt16.ofNat n := by
    apply UInt16.toNat_inj.mp
    rw [UInt8.toNat_toUInt16, toNat_ofNat_small hn,
      UInt16.toNat_ofNat_of_lt' (Nat.lt_trans hn (by decide))]
  have hx := h.x_lt
  have hy := h.y_lt
  have hz := h.z_lt
  rw [extraKey, blockIndex_inChunk h, ok_bind, hwide (by omega), hwide (by omega),
    hwide (by omega)]
  rfl

-- What the scalar getters return of the block's own cell, and what the projection's accessor
-- finds under the number of the block.
def storedExtra (data : ChunkData) (x y z : Nat) : UInt16 :=
  (data.extraData[extraKeyAt x y z]?).getD 0

def projectedExtra (data : ChunkData) (x y z : Nat) : UInt16 :=
  (data.extraData[UInt16.ofNat (ChunkCoordinateKey.block x y z)]?).getD 0

theorem chunk_cell (h : InChunk x y z) {v : α} {get : UInt8 → UInt8 → UInt8 → Except WorldStoreError α}
    (hv : get (UInt8.ofNat x) (UInt8.ofNat y) (UInt8.ofNat z) = .ok v) :
    Chunk.cell x y z get = .ok v := by
  rw [Chunk.cell, h.contains, if_pos rfl, hv]
  rfl

section Reads

variable (hc : store.chunks p = some c) (h : InChunk x y z)

include hc h

theorem chunk_blockStateId : Chunk.blockStateId store p x y z =
    .ok (c.data.states.getD (ChunkCoordinateKey.block x y z) 0) := by
  refine chunk_cell h ?_
  rw [WorldStore.blockState, blockIndex_inChunk h, ok_bind, WorldStore.withChunk, hc]

theorem chunk_skyLight : Chunk.skyLight store p x y z =
    .ok (readNibble c.data.skyLight (ChunkCoordinateKey.block x y z)) := by
  refine chunk_cell h ?_
  rw [WorldStore.skyLight, blockIndex_inChunk h, ok_bind, WorldStore.withChunk, hc]

theorem chunk_blockLight : Chunk.blockLight store p x y z =
    .ok (readNibble c.data.blockLight (ChunkCoordinateKey.block x y z)) := by
  refine chunk_cell h ?_
  rw [WorldStore.blockLight, blockIndex_inChunk h, ok_bind, WorldStore.withChunk, hc]

theorem chunk_blockExtraData : Chunk.blockExtraData store p x y z =
    .ok (storedExtra c.data x y z) := by
  refine chunk_cell h ?_
  rw [WorldStore.blockExtraData, extraKey_inChunk h, ok_bind, WorldStore.withChunk, hc]
  rfl

end Reads

theorem fromWord_supported {word : UInt32} (h : biomeIdIsSupported (biomeId word) = true) :
    BiomeColumn.fromWord word = .ok ⟨biomeId word, biomeColor word⟩ := if_pos h

theorem chunk_biomeColumn (hc : store.chunks p = some c) (hw : c.data.WellFormed) (hx : x < 16)
    (hz : z < 16) : ∃ word, c.data.biomes[ChunkCoordinateKey.column x z]? = some word ∧
      Chunk.biomeColumn store p x z = .ok ⟨biomeId word, biomeColor word⟩ := by
  have hlt : ChunkCoordinateKey.column x z < c.data.biomes.length := by
    rw [hw.biomes_length]
    exact column_lt hx hz
  refine ⟨c.data.biomes[ChunkCoordinateKey.column x z], List.getElem?_eq_getElem hlt, ?_⟩
  have hword : store.biomeWord p (UInt8.ofNat x) (UInt8.ofNat z) =
      .ok c.data.biomes[ChunkCoordinateKey.column x z] := by
    rw [WorldStore.biomeWord, columnIndex_inChunk hx hz, ok_bind, WorldStore.withChunk, hc]
    exact congrArg Except.ok (List.getD_eq_getElem _ _ hlt)
  have hlocal : (containsLocal x && containsLocal z) = true := by
    simp [containsLocal, chunkEdge, hx, hz]
  rw [Chunk.biomeColumn, hlocal, if_pos rfl, hword]
  exact fromWord_supported (hw.biomes_supported _ (List.getElem_mem hlt))

section Projected

variable (hw : c.data.WellFormed) (h : InChunk x y z)

include hw h

theorem projected_blockStateId : (projected p c).blockStateId x y z =
    some (c.data.states.getD (ChunkCoordinateKey.block x y z) 0) := by
  have hlt : ChunkCoordinateKey.block x y z < c.data.states.length := by
    rw [hw.states_length]
    exact block_lt h
  have hnibbles : ∀ v ∈ c.data.states.map stateNibble, v.toNat < 16 := by
    intro v hv
    obtain ⟨state, -, rfl⟩ := List.mem_map.mp hv
    exact stateNibble_lt state
  have hread := @readNibble_packNibbles chunkNibbleBytes _ hnibbles
    (by rw [List.length_map, hw.states_length]; decide) (ChunkCoordinateKey.block x y z)
    (by rwa [List.length_map])
  have hstate := hw.states_supported _ (List.getElem_mem hlt)
  rw [worldBlockStateIdIsSupported, Bool.and_eq_true, decide_eq_true_eq] at hstate
  rw [ChunkSnapshot.blockStateId, ChunkSnapshot.cell, h.contains, if_pos rfl]
  simp only [projected, hread, List.getElem_map]
  rw [List.getD_eq_getElem _ _ (by rwa [List.length_map]), List.getElem_map,
    joinState_split hstate.1, List.getD_eq_getElem _ _ hlt]

end Projected

theorem projected_biomeColumn (hw : c.data.WellFormed) (hx : x < 16) (hz : z < 16) :
    ∃ word, c.data.biomes[ChunkCoordinateKey.column x z]? = some word ∧
      (projected p c).biomeColumn x z = .ok (some ⟨biomeId word, biomeColor word⟩) := by
  have hlt : ChunkCoordinateKey.column x z < c.data.biomes.length := by
    rw [hw.biomes_length]
    exact column_lt hx hz
  refine ⟨c.data.biomes[ChunkCoordinateKey.column x z], List.getElem?_eq_getElem hlt, ?_⟩
  have hlocal : (containsLocal x && containsLocal z) = true := by
    simp [containsLocal, chunkEdge, hx, hz]
  have hword : (projected p c).biomeWord x z =
      some c.data.biomes[ChunkCoordinateKey.column x z] := by
    rw [ChunkSnapshot.biomeWord, hlocal, if_pos rfl]
    simp only [projected]
    rw [sliceAt_biomeWords _ _ hlt, fromBigEndian_toBigEndian]
  rw [ChunkSnapshot.biomeColumn, hword]
  dsimp only
  rw [fromWord_supported (hw.biomes_supported _ (List.getElem_mem hlt))]
  rfl

theorem filterChanged_ok {β : Type} [DecidableEq β] {value : α → β}
    {current : Nat → Except MutationError β} {stored : Nat → β}
    (h : ∀ key, current key = .ok (stored key)) (edits : List (Nat × α)) :
    filterChanged edits value current =
      .ok (edits.filter fun edit => decide (value edit.2 ≠ stored edit.1)) := by
  induction edits with
  | nil => rfl
  | cons edit edits ih =>
    rw [filterChanged, h, ok_bind, ih, ok_bind, List.filter_cons]
    by_cases hsame : value edit.2 = stored edit.1
    · simp [hsame]
      rfl
    · simp [hsame]
      rfl

theorem filter_eq_filter_iff {p q : α → Bool} {as : List α} :
    as.filter p = as.filter q ↔ ∀ a ∈ as, p a = q a := by
  refine ⟨fun h a ha => ?_, List.filter_congr⟩
  have hmem : a ∈ as.filter p ↔ a ∈ as.filter q := by rw [h]
  rw [List.mem_filter, List.mem_filter] at hmem
  exact Bool.eq_iff_iff.mpr ⟨fun hp => (hmem.mp ⟨ha, hp⟩).2, fun hq => (hmem.mpr ⟨ha, hq⟩).2⟩

def atKey (read : Nat → Nat → Nat → α) (key : Nat) : α :=
  read (ChunkCoordinateKey.decodeBlock key).1 (ChunkCoordinateKey.decodeBlock key).2.1
    (ChunkCoordinateKey.decodeBlock key).2.2

def atColumn (read : Nat → Nat → α) (key : Nat) : α :=
  read (ChunkCoordinateKey.decodeColumn key).1 (ChunkCoordinateKey.decodeColumn key).2

def storedColumn (data : ChunkData) (x z : Nat) : BiomeColumn :=
  let word := data.biomes.getD (ChunkCoordinateKey.column x z) 0
  ⟨biomeId word, biomeColor word⟩

-- What a patch keeps of its edits when the extra data reads as given.
def keptOf (data : ChunkData) (extra : Nat → Nat → Nat → UInt16) (edits : StagedEdits) :
    StagedEdits where
  blocks := edits.blocks.filter fun edit => edit.2 ≠
    atKey (fun x y z => data.states.getD (ChunkCoordinateKey.block x y z) 0) edit.1
  biomes := edits.biomes.filter fun edit => edit.2.word ≠
    (atColumn (storedColumn data) edit.1).word
  extraData := edits.extraData.filter fun edit => edit.2 ≠ atKey extra edit.1
  skyLight := edits.skyLight.filter fun edit => edit.2 ≠
    atKey (fun x y z => readNibble data.skyLight (ChunkCoordinateKey.block x y z)) edit.1
  blockLight := edits.blockLight.filter fun edit => edit.2 ≠
    atKey (fun x y z => readNibble data.blockLight (ChunkCoordinateKey.block x y z)) edit.1

section Kept

variable {patch : ChunkPatch} {snapshot : ChunkSnapshot}

theorem cellAtKey_scalar (hscalar : patch.snapshot = none) {value : Nat → Nat → Nat → α}
    {read : WorldStore → ChunkCoord → Nat → Nat → Nat → Except MutationError α}
    (hread : ∀ x y z, InChunk x y z → read store patch.position x y z = .ok (value x y z))
    (project : ChunkSnapshot → Nat → Nat → Nat → Option α) (message : String) (key : Nat) :
    patch.cellAtKey store key project read message = .ok (atKey value key) := by
  rw [ChunkPatch.cellAtKey, hscalar]
  exact hread _ _ _ (inChunk_of_key key)

theorem cellAtKey_projected (htaken : patch.snapshot = some snapshot) {value : Nat → Nat → Nat → α}
    {project : ChunkSnapshot → Nat → Nat → Nat → Option α}
    (hread : ∀ x y z, InChunk x y z → project snapshot x y z = some (value x y z))
    (read : WorldStore → ChunkCoord → Nat → Nat → Nat → Except MutationError α) (message : String)
    (key : Nat) : patch.cellAtKey store key project read message = .ok (atKey value key) := by
  rw [ChunkPatch.cellAtKey, htaken]
  dsimp only
  rw [hread _ _ _ (inChunk_of_key key)]
  rfl

theorem keptEdits_of_reads {data : ChunkData} {extra : Nat → Nat → Nat → UInt16}
    (hblocks : ∀ key, patch.blockStateIdAtKey store key =
      .ok (atKey (fun x y z => data.states.getD (ChunkCoordinateKey.block x y z) 0) key))
    (hbiomes : ∀ key, patch.biomeColumnAtKey store key = .ok (atColumn (storedColumn data) key))
    (hextra : ∀ key, patch.extraDataAtKey store key = .ok (atKey extra key))
    (hsky : ∀ key, patch.skyLightAtKey store key =
      .ok (atKey (fun x y z => readNibble data.skyLight (ChunkCoordinateKey.block x y z)) key))
    (hblock : ∀ key, patch.blockLightAtKey store key =
      .ok (atKey (fun x y z => readNibble data.blockLight (ChunkCoordinateKey.block x y z)) key)) :
    patch.keptEdits store = .ok (keptOf data extra patch.edits) := by
  have hwords (key : Nat) : patch.biomeWordAtKey store key =
      .ok (atColumn (storedColumn data) key).word := by
    rw [ChunkPatch.biomeWordAtKey, hbiomes]
    rfl
  rw [ChunkPatch.keptEdits, filterChanged_ok hblocks, ok_bind, filterChanged_ok hwords, ok_bind,
    filterChanged_ok hextra, ok_bind, filterChanged_ok hsky, ok_bind, filterChanged_ok hblock,
    ok_bind]
  rfl

theorem keptEdits_scalar (hc : store.chunks patch.position = some c) (hw : c.data.WellFormed)
    (hscalar : patch.snapshot = none) :
    patch.keptEdits store = .ok (keptOf c.data (storedExtra c.data) patch.edits) := by
  refine keptEdits_of_reads ?_ ?_ ?_ ?_ ?_
  · exact cellAtKey_scalar hscalar (fun _ _ _ h => chunk_blockStateId hc h) _ _
  · intro key
    obtain ⟨word, hword, hread⟩ := chunk_biomeColumn hc hw
      (Nat.lt_succ_of_le Nat.and_le_right : (ChunkCoordinateKey.decodeColumn key).1 < 16)
      (Nat.lt_succ_of_le Nat.and_le_right : (ChunkCoordinateKey.decodeColumn key).2 < 16)
    rw [ChunkPatch.biomeColumnAtKey, hscalar]
    refine hread.trans ?_
    rw [atColumn, storedColumn, List.getD_eq_getElem?_getD, hword]
    rfl
  · exact cellAtKey_scalar hscalar (fun _ _ _ h => chunk_blockExtraData hc h) _ _
  · exact cellAtKey_scalar hscalar (fun _ _ _ h => chunk_skyLight hc h) _ _
  · exact cellAtKey_scalar hscalar (fun _ _ _ h => chunk_blockLight hc h) _ _

theorem projected_cell {value : Nat → α} (h : InChunk x y z) :
    ChunkSnapshot.cell x y z value = some (value (ChunkCoordinateKey.block x y z)) := by
  rw [ChunkSnapshot.cell, h.contains, if_pos rfl]

theorem keptEdits_projected (hw : c.data.WellFormed) (htaken : patch.snapshot = some (projected p c)) :
    patch.keptEdits store = .ok (keptOf c.data (projectedExtra c.data) patch.edits) := by
  refine keptEdits_of_reads ?_ ?_ ?_ ?_ ?_
  · exact cellAtKey_projected htaken (fun _ _ _ h => projected_blockStateId hw h) _ _
  · intro key
    obtain ⟨word, hword, hread⟩ := projected_biomeColumn (p := p) hw
      (Nat.lt_succ_of_le Nat.and_le_right : (ChunkCoordinateKey.decodeColumn key).1 < 16)
      (Nat.lt_succ_of_le Nat.and_le_right : (ChunkCoordinateKey.decodeColumn key).2 < 16)
    rw [ChunkPatch.biomeColumnAtKey, htaken]
    dsimp only
    rw [hread, atColumn, storedColumn, List.getD_eq_getElem?_getD, hword]
    rfl
  · exact cellAtKey_projected htaken (fun _ _ _ h => projected_cell h) _ _
  · exact cellAtKey_projected htaken (fun _ _ _ h => projected_cell h) _ _
  · exact cellAtKey_projected htaken (fun _ _ _ h => projected_cell h) _ _

end Kept

theorem keptOf_eq_iff {data : ChunkData} {edits : StagedEdits} :
    keptOf data (storedExtra data) edits = keptOf data (projectedExtra data) edits ↔
      ∀ edit ∈ edits.extraData, (edit.2 = atKey (storedExtra data) edit.1 ↔
        edit.2 = atKey (projectedExtra data) edit.1) := by
  simp only [keptOf, StagedEdits.mk.injEq, true_and, and_true, filter_eq_filter_iff,
    decide_eq_decide, ne_eq, not_iff_not]

end Cobblestone.Mutation
