import Cobblestone.Mutation.ChunkPatch

namespace Cobblestone.Bridge

open Lib World Mutation

-- The little-endian codes of `pack`, `C`, `v`, `V` and `P`, keep the low bytes of the integer.
def pack (width : Nat) (value : Int) : Bytes := toLE width (value % (256 ^ width : Nat)).toNat

structure PhpArray (α : Type) where
  entries : List (Int × α)
  distinct : (entries.map Prod.fst).Nodup

def PhpArray.single {α : Type} (key : Int) (value : α) : PhpArray α :=
  ⟨[(key, value)], List.nodup_singleton _⟩

def PhpArray.count {α : Type} (array : PhpArray α) : Int := array.entries.length

def packEntry (keyWidth valueWidth : Nat) (entry : Int × Int) : Bytes :=
  pack keyWidth entry.1 ++ pack valueWidth entry.2

def wordEntry (entry : Int × BiomeColumn) : Int × Int := (entry.1, (entry.2.word.toNat : Int))

-- What `World::applyPatch` hands over: the revisions, the counts and then every table.
def applyPatchPayload (expectedTerrainRevision nextTerrainRevision expectedLightRevision
    nextLightRevision : Int) (blocks : PhpArray Int) (biomes : PhpArray BiomeColumn)
    (extraData skyLight blockLight : PhpArray Int) : Bytes :=
  (pack 8 expectedTerrainRevision ++ (pack 8 nextTerrainRevision ++
    (pack 8 expectedLightRevision ++ (pack 8 nextLightRevision ++
    (pack 4 blocks.count ++ (pack 4 biomes.count ++ (pack 4 extraData.count ++
    (pack 4 skyLight.count ++ (pack 4 blockLight.count ++
    (blocks.entries.flatMap (packEntry 2 2) ++
    ((biomes.entries.map wordEntry).flatMap (packEntry 1 4) ++
    (extraData.entries.flatMap (packEntry 2 2) ++
    (skyLight.entries.flatMap (packEntry 2 1) ++
    (blockLight.entries.flatMap (packEntry 2 1) ++ []))))))))))))))

namespace PatchReader

def truncated (field : String) : String := "native world patch is truncated at " ++ field

def u8 (field : String) : Reader String UInt8 := do
  let v ← Reader.natLE 1 (truncated field)
  pure (UInt8.ofNat v)

def u16 (field : String) : Reader String UInt16 := do
  let v ← Reader.natLE 2 (truncated field)
  pure (UInt16.ofNat v)

def u32 (field : String) : Reader String UInt32 := do
  let v ← Reader.natLE 4 (truncated field)
  pure (UInt32.ofNat v)

def u64 (field : String) : Reader String UInt64 := do
  let v ← Reader.natLE 8 (truncated field)
  pure (UInt64.ofNat v)

def finish : Reader String Unit := fun rest =>
  if rest = [] then .ok ((), rest) else .error "native world patch has trailing bytes"

end PatchReader

variable {α β : Type}

def readEntry (key : Reader String α) (value : Reader String β) : Reader String (α × β) := do
  let k ← key
  let v ← value
  pure (k, v)

open PatchReader in
def readPatch : Reader String World.ChunkPatch := do
  let expectedTerrainRevision ← u64 "expected terrain revision"
  let nextTerrainRevision ← u64 "next terrain revision"
  let expectedLightRevision ← u64 "expected light revision"
  let nextLightRevision ← u64 "next light revision"
  let blockCount ← u32 "block count"
  let biomeCount ← u32 "biome count"
  let extraCount ← u32 "extra-data count"
  let skyCount ← u32 "sky-light count"
  let blockLightCount ← u32 "block-light count"
  let blocks ← (readEntry (u16 "block index") (u16 "block state")).times blockCount.toNat
  let biomes ← (readEntry (u8 "biome index") (u32 "biome word")).times biomeCount.toNat
  let extraData ←
    (readEntry (u16 "extra-data index") (u16 "extra-data value")).times extraCount.toNat
  let skyLight ← (readEntry (u16 "sky-light index") (u8 "sky-light value")).times skyCount.toNat
  let blockLight ←
    (readEntry (u16 "block-light index") (u8 "block-light value")).times blockLightCount.toNat
  finish
  pure ⟨expectedTerrainRevision, nextTerrainRevision, expectedLightRevision, nextLightRevision,
    blocks, biomes, extraData, skyLight, blockLight⟩

def parsePatch (bytes : Bytes) : Except String World.ChunkPatch := (readPatch bytes).map Prod.fst

theorem reads_pack (width : Nat) (value : Int) (short : String) :
    Reads (Reader.natLE width short) (pack width value) (value % (256 ^ width : Nat)).toNat := by
  have hpos : (0 : Int) < (256 ^ width : Nat) := by
    exact_mod_cast Nat.pow_pos (n := width) (show 0 < 256 by decide)
  have hlt := Int.emod_lt_of_pos value hpos
  have hnonneg := Int.emod_nonneg value hpos.ne'
  exact Reads.natLE (by omega) short

namespace PatchReader

variable (field : String) (value : Int)

theorem reads_u8 : Reads (u8 field) (pack 1 value) (UInt8.ofInt value) :=
  (reads_pack 1 value (truncated field)).bind_pure UInt8.ofNat

theorem reads_u16 : Reads (u16 field) (pack 2 value) (UInt16.ofInt value) :=
  (reads_pack 2 value (truncated field)).bind_pure UInt16.ofNat

theorem reads_u32 : Reads (u32 field) (pack 4 value) (UInt32.ofInt value) :=
  (reads_pack 4 value (truncated field)).bind_pure UInt32.ofNat

theorem reads_u64 : Reads (u64 field) (pack 8 value) (UInt64.ofInt value) :=
  (reads_pack 8 value (truncated field)).bind_pure UInt64.ofNat

end PatchReader

theorem reads_entry {key : Reader String α} {value : Reader String β} {kw vw : Nat} {f : Int → α}
    {g : Int → β} (hkey : ∀ v, Reads key (pack kw v) (f v))
    (hvalue : ∀ v, Reads value (pack vw v) (g v)) (entry : Int × Int) :
    Reads (readEntry key value) (packEntry kw vw entry) (Prod.map f g entry) :=
  (hkey entry.1).bind ((hvalue entry.2).bind_pure (f entry.1, ·))

theorem reads_table {key : Reader String α} {value : Reader String β} {kw vw : Nat} {f : Int → α}
    {g : Int → β} (hkey : ∀ v, Reads key (pack kw v) (f v))
    (hvalue : ∀ v, Reads value (pack vw v) (g v)) {entries : List (Int × Int)} {count : UInt32}
    (hcount : count.toNat = entries.length) :
    Reads ((readEntry key value).times count.toNat) (entries.flatMap (packEntry kw vw))
      (entries.map (Prod.map f g)) := by
  rw [hcount]
  exact Reads.times_map fun entry _ => reads_entry hkey hvalue entry

def PhpArray.InRange (array : PhpArray Int) (keys values : Int) : Prop :=
  ∀ e ∈ array.entries, (0 ≤ e.1 ∧ e.1 < keys) ∧ 0 ≤ e.2 ∧ e.2 < values

-- An array has every key once, so a bound on the keys bounds its size.
theorem PhpArray.length_le {array : PhpArray α} {n : Nat}
    (h : ∀ e ∈ array.entries, 0 ≤ e.1 ∧ e.1 < n) : array.entries.length ≤ n := by
  have hsub : (array.entries.map Prod.fst).toFinset ⊆ Finset.Ico (0 : Int) n := by
    intro key hkey
    obtain ⟨e, he, rfl⟩ := List.mem_map.mp (List.mem_toFinset.mp hkey)
    exact Finset.mem_Ico.mpr (h e he)
  have hcard := Finset.card_le_card hsub
  rw [List.toFinset_card_of_nodup array.distinct, List.length_map, Int.card_Ico] at hcard
  omega

theorem PhpArray.count_toNat {array : PhpArray α} {n : Nat} (hn : n < 2 ^ 32)
    (h : ∀ e ∈ array.entries, 0 ≤ e.1 ∧ e.1 < n) :
    (UInt32.ofInt array.count).toNat = array.entries.length := by
  have hle := PhpArray.length_le h
  rw [PhpArray.count, UInt32.ofInt]
  simp only [UInt32.toNat_ofNat']
  omega

def sentPatch (expectedTerrainRevision nextTerrainRevision expectedLightRevision
    nextLightRevision : Int) (blocks : PhpArray Int) (biomes : PhpArray BiomeColumn)
    (extraData skyLight blockLight : PhpArray Int) : World.ChunkPatch where
  expectedTerrainRevision := UInt64.ofInt expectedTerrainRevision
  nextTerrainRevision := UInt64.ofInt nextTerrainRevision
  expectedLightRevision := UInt64.ofInt expectedLightRevision
  nextLightRevision := UInt64.ofInt nextLightRevision
  blocks := blocks.entries.map (Prod.map UInt16.ofInt UInt16.ofInt)
  biomes := (biomes.entries.map wordEntry).map (Prod.map UInt8.ofInt UInt32.ofInt)
  extraData := extraData.entries.map (Prod.map UInt16.ofInt UInt16.ofInt)
  skyLight := skyLight.entries.map (Prod.map UInt16.ofInt UInt8.ofInt)
  blockLight := blockLight.entries.map (Prod.map UInt16.ofInt UInt8.ofInt)

open PatchReader in
theorem parsePatch_payload (expectedTerrain nextTerrain expectedLight nextLight : Int)
    {blocks : PhpArray Int} {biomes : PhpArray BiomeColumn} {extraData skyLight blockLight : PhpArray Int}
    (hblocks : (UInt32.ofInt blocks.count).toNat = blocks.entries.length)
    (hbiomes : (UInt32.ofInt biomes.count).toNat = biomes.entries.length)
    (hextra : (UInt32.ofInt extraData.count).toNat = extraData.entries.length)
    (hsky : (UInt32.ofInt skyLight.count).toNat = skyLight.entries.length)
    (hlight : (UInt32.ofInt blockLight.count).toNat = blockLight.entries.length) :
    parsePatch (applyPatchPayload expectedTerrain nextTerrain expectedLight nextLight blocks biomes
      extraData skyLight blockLight) = .ok (sentPatch expectedTerrain nextTerrain expectedLight
      nextLight blocks biomes extraData skyLight blockLight) := by
  rw [← List.length_map (f := wordEntry)] at hbiomes
  have h : readPatch (applyPatchPayload expectedTerrain nextTerrain expectedLight nextLight blocks
      biomes extraData skyLight blockLight) = .ok (sentPatch expectedTerrain nextTerrain
      expectedLight nextLight blocks biomes extraData skyLight blockLight, []) := by
    rw [readPatch, applyPatchPayload, (reads_u64 _ _).run, (reads_u64 _ _).run,
      (reads_u64 _ _).run, (reads_u64 _ _).run, (reads_u32 _ _).run, (reads_u32 _ _).run,
      (reads_u32 _ _).run, (reads_u32 _ _).run, (reads_u32 _ _).run,
      (reads_table (reads_u16 _) (reads_u16 _) hblocks).run,
      (reads_table (reads_u8 _) (reads_u32 _) hbiomes).run,
      (reads_table (reads_u16 _) (reads_u16 _) hextra).run,
      (reads_table (reads_u16 _) (reads_u8 _) hsky).run,
      (reads_table (reads_u16 _) (reads_u8 _) hlight).run]
    rfl
  rw [parsePatch, h]
  rfl

abbrev maxPositions : Nat := 4096

def packPosition (position : ChunkCoord) : Bytes :=
  pack 4 (position.x.toInt % 0x100000000) ++ pack 4 (position.z.toInt % 0x100000000)

def encodeLoadBatch (positions : List ChunkCoord) : Except String Bytes :=
  if positions.length > maxPositions then
    .error "native world storage load batch cannot exceed 4096 chunks"
  else .ok (pack 4 positions.length ++ positions.flatMap packPosition)

def readPositions (input : Bytes) : Nat → Nat → List ChunkCoord
  | 0, _ => []
  | count + 1, offset =>
    ⟨Storage.readI32 input offset, Storage.readI32 input (offset + 4)⟩ :: readPositions input count (offset + 8)

def decodeChunkPositions (input : Bytes) : Except String (List ChunkCoord) :=
  if input.length < 4 then .error "chunk position batch is truncated"
  else
    let count := (Storage.readU32 input 0).toNat
    if count > maxPositions then .error "chunk position batch exceeds 4096 entries"
    else if input.length ≠ 4 + count * 8 then .error "chunk position batch length mismatch"
    else .ok (readPositions input count 4)

theorem pack_i32 (v : Int32) : pack 4 (v.toInt % 0x100000000) = toLE 4 v.toUInt32.toNat := by
  have hint : v.toInt = v.toBitVec.toInt := rfl
  have hnat : v.toUInt32.toNat = v.toBitVec.toNat := rfl
  have hlt := v.toBitVec.isLt
  rw [pack, hint, hnat, BitVec.toInt_eq_toNat_cond]
  congr 1
  split <;> omega

theorem length_packPosition (position : ChunkCoord) : (packPosition position).length = 8 := by
  simp [packPosition, pack]

theorem readI32_front (front rest : Bytes) (v : Int32) :
    Storage.readI32 (front ++ (pack 4 (v.toInt % 0x100000000) ++ rest)) front.length = v := by
  have h := sliceAt_append_mid front (toLE 4 v.toUInt32.toNat) rest
  rw [length_toLE, List.append_assoc] at h
  rw [pack_i32]
  exact Storage.readI32_eq h

theorem readPositions_append (front : Bytes) (positions : List ChunkCoord) :
    readPositions (front ++ positions.flatMap packPosition) positions.length front.length =
      positions := by
  induction positions generalizing front with
  | nil => rfl
  | cons position positions ih =>
    have hrest := ih (front ++ packPosition position)
    rw [List.length_append, length_packPosition, List.append_assoc] at hrest
    have hz := readI32_front (front ++ pack 4 (position.x.toInt % 0x100000000))
      (positions.flatMap packPosition) position.z
    rw [List.length_append, List.append_assoc, show (pack 4 _).length = 4 from length_toLE 4 _]
      at hz
    rw [List.flatMap_cons, List.length_cons, readPositions, hrest, packPosition, List.append_assoc,
      readI32_front, hz]

theorem decode_encodeLoadBatch {positions : List ChunkCoord} (h : positions.length ≤ maxPositions) :
    ∃ bytes, encodeLoadBatch positions = .ok bytes ∧ decodeChunkPositions bytes = .ok positions := by
  have hhead : (pack 4 positions.length).length = 4 := length_toLE 4 _
  have hbody : (positions.flatMap packPosition).length = positions.length * 8 := by
    simp [List.length_flatMap, length_packPosition]
  have hcount : (Storage.readU32 (pack 4 positions.length ++ positions.flatMap packPosition) 0).toNat =
      positions.length := by
    have hslice : sliceAt 0 4 (pack 4 positions.length ++ positions.flatMap packPosition) =
        pack 4 positions.length := by
      rw [sliceAt_zero, List.take_append_of_le_length hhead.ge, List.take_of_length_le hhead.le]
    have hmax : maxPositions = 4096 := rfl
    rw [Storage.readU32, hslice, pack, ofLE_toLE]
    simp only [UInt32.toNat_ofNat']
    omega
  refine ⟨_, if_neg (not_lt.mpr h), ?_⟩
  have hread := readPositions_append (pack 4 positions.length) positions
  rw [hhead] at hread
  rw [decodeChunkPositions, if_neg (by rw [List.length_append]; omega)]
  dsimp only
  rw [hcount, if_neg (not_lt.mpr h), if_neg (by rw [List.length_append, hhead, hbody]; omega), hread]

theorem toNat_ofInt8 {v : Int} (h : 0 ≤ v ∧ v < 256) : ((UInt8.ofInt v).toNat : Int) = v := by
  rw [UInt8.ofInt]
  simp only [UInt8.toNat_ofNat']
  omega

theorem toNat_ofInt16 {v : Int} (h : 0 ≤ v ∧ v < 65536) : ((UInt16.ofInt v).toNat : Int) = v := by
  rw [UInt16.ofInt]
  simp only [UInt16.toNat_ofNat']
  omega

theorem ofInt_toNat32 (v : UInt32) : UInt32.ofInt (v.toNat : Int) = v := by
  have hlt : v.toNat < 2 ^ 32 := v.toNat_lt
  have hsame : ((v.toNat : Int) % (2 ^ 32 : Nat)).toNat = v.toNat := by omega
  exact (congrArg UInt32.ofNat hsame).trans UInt32.ofNat_toNat

theorem ofInt_toInt64 (v : Int64) : UInt64.ofInt v.toInt = v.toUInt64 := by
  have hint : v.toInt = v.toBitVec.toInt := rfl
  have hnat : v.toUInt64.toNat = v.toBitVec.toNat := rfl
  have hlt := v.toBitVec.isLt
  apply UInt64.toNat_inj.mp
  rw [UInt64.ofInt, hint, hnat, BitVec.toInt_eq_toNat_cond]
  simp only [UInt64.toNat_ofNat']
  split <;> omega

-- A revision crosses as the same sixty-four bits, so every one in range as the same number.
structure SameRevision (sent : Int64) (received : UInt64) : Prop where
  bits : received.toInt64 = sent
  number : 0 ≤ sent.toInt → (received.toNat : Int) = sent.toInt

theorem sameRevision (v : Int64) : SameRevision v (UInt64.ofInt v.toInt) where
  bits := by rw [ofInt_toInt64, Int64.toInt64_toUInt64]
  number h := by
    have hint : v.toInt = v.toBitVec.toInt := rfl
    have hnat : v.toUInt64.toNat = v.toBitVec.toNat := rfl
    have hlt := v.toBitVec.isLt
    rw [hint, BitVec.toInt_eq_toNat_cond] at h
    rw [ofInt_toInt64, hnat, hint, BitVec.toInt_eq_toNat_cond]
    split <;> split at h <;> omega

structure SentBack (patch : World.ChunkPatch) (expectedTerrain nextTerrain expectedLight
    nextLight : Int64) (blocks : PhpArray Int) (biomes : PhpArray BiomeColumn)
    (extraData skyLight blockLight : PhpArray Int) : Prop where
  expectedTerrain : SameRevision expectedTerrain patch.expectedTerrainRevision
  nextTerrain : SameRevision nextTerrain patch.nextTerrainRevision
  expectedLight : SameRevision expectedLight patch.expectedLightRevision
  nextLight : SameRevision nextLight patch.nextLightRevision
  blocks : patch.blocks.map (fun e => ((e.1.toNat : Int), (e.2.toNat : Int))) = blocks.entries
  biomes : patch.biomes.map (fun e => ((e.1.toNat : Int), e.2)) =
    biomes.entries.map fun e => (e.1, e.2.word)
  extraData : patch.extraData.map (fun e => ((e.1.toNat : Int), (e.2.toNat : Int))) =
    extraData.entries
  skyLight : patch.skyLight.map (fun e => ((e.1.toNat : Int), (e.2.toNat : Int))) = skyLight.entries
  blockLight : patch.blockLight.map (fun e => ((e.1.toNat : Int), (e.2.toNat : Int))) =
    blockLight.entries

theorem map_sent {f : Int → α} {g : Int → β} {m : α → Nat} {n : β → Nat}
    {entries : List (Int × Int)}
    (h : ∀ e ∈ entries, (m (f e.1) : Int) = e.1 ∧ (n (g e.2) : Int) = e.2) :
    (entries.map (Prod.map f g)).map (fun e => ((m e.1 : Int), (n e.2 : Int))) = entries := by
  rw [List.map_map]
  conv_rhs => rw [← List.map_id entries]
  apply List.map_congr_left
  intro e he
  exact Prod.ext (h e he).1 (h e he).2

theorem map_words {entries : List (Int × BiomeColumn)}
    (h : ∀ e ∈ entries, 0 ≤ e.1 ∧ e.1 < (chunkColumnCount : Int)) :
    ((entries.map wordEntry).map (Prod.map UInt8.ofInt UInt32.ofInt)).map
      (fun e => ((e.1.toNat : Int), e.2)) = entries.map fun e => (e.1, e.2.word) := by
  rw [List.map_map, List.map_map]
  apply List.map_congr_left
  intro e he
  exact Prod.ext (toNat_ofInt8 (h e he)) (ofInt_toNat32 e.2.word)

theorem payloads_sent_back (expectedTerrain nextTerrain expectedLight nextLight : Int64)
    (blocks : PhpArray Int) (biomes : PhpArray BiomeColumn)
    (extraData skyLight blockLight : PhpArray Int)
    (hblocks : blocks.InRange chunkBlockCount 0x10000)
    (hbiomes : ∀ e ∈ biomes.entries, 0 ≤ e.1 ∧ e.1 < (chunkColumnCount : Int))
    (hextra : extraData.InRange chunkBlockCount 0x10000)
    (hsky : skyLight.InRange chunkBlockCount 16) (hlight : blockLight.InRange chunkBlockCount 16)
    (positions : List ChunkCoord) :
    (∃ patch, parsePatch (applyPatchPayload expectedTerrain.toInt nextTerrain.toInt
        expectedLight.toInt nextLight.toInt blocks biomes extraData skyLight blockLight) = .ok patch ∧
      SentBack patch expectedTerrain nextTerrain expectedLight nextLight blocks biomes extraData
        skyLight blockLight) ∧
      if positions.length ≤ 4096 then
        ∃ bytes, encodeLoadBatch positions = .ok bytes ∧
          decodeChunkPositions bytes = .ok positions
      else encodeLoadBatch positions =
        .error "native world storage load batch cannot exceed 4096 chunks" := by
  have hcells : chunkBlockCount = 32768 := rfl
  have hcolumns : chunkColumnCount = 256 := rfl
  have hcount {array : PhpArray Int} {limit : Int} (h : array.InRange chunkBlockCount limit) :
      (UInt32.ofInt array.count).toNat = array.entries.length :=
    PhpArray.count_toNat (by omega) fun e he => (h e he).1
  have hwide {array : PhpArray Int} (h : array.InRange chunkBlockCount 0x10000) :
      ∀ e ∈ array.entries, (((UInt16.ofInt e.1).toNat : Int) = e.1 ∧
        ((UInt16.ofInt e.2).toNat : Int) = e.2) := fun e he => by
    have hrange := h e he
    exact ⟨toNat_ofInt16 (by omega), toNat_ofInt16 (by omega)⟩
  have hlevel {array : PhpArray Int} (h : array.InRange chunkBlockCount 16) :
      ∀ e ∈ array.entries, (((UInt16.ofInt e.1).toNat : Int) = e.1 ∧
        ((UInt8.ofInt e.2).toNat : Int) = e.2) := fun e he => by
    have hrange := h e he
    exact ⟨toNat_ofInt16 (by omega), toNat_ofInt8 (by omega)⟩
  refine ⟨⟨_, parsePatch_payload _ _ _ _ (hcount hblocks)
    (PhpArray.count_toNat (by omega) hbiomes) (hcount hextra) (hcount hsky) (hcount hlight), ?_⟩, ?_⟩
  · exact ⟨sameRevision _, sameRevision _, sameRevision _, sameRevision _, map_sent (hwide hblocks),
      map_words hbiomes, map_sent (hwide hextra), map_sent (hlevel hsky), map_sent (hlevel hlight)⟩
  · split
    · next h => exact decode_encodeLoadBatch h
    · next h => exact if_pos (not_le.mp h)

theorem payloads_sent_back_corners :
    (∃ patch, parsePatch (applyPatchPayload (7 : Int64).toInt (8 : Int64).toInt (3 : Int64).toInt
        (4 : Int64).toInt (.single 32767 4095) (.single 255 ⟨1, 0x79c05a⟩) (.single 0 65535)
        (.single 1 15) (.single 2 0)) = .ok patch ∧
      SentBack patch 7 8 3 4 (.single 32767 4095) (.single 255 ⟨1, 0x79c05a⟩) (.single 0 65535)
        (.single 1 15) (.single 2 0)) ∧
      if [(⟨-2147483648, 2147483647⟩ : ChunkCoord)].length ≤ 4096 then
        ∃ bytes, encodeLoadBatch [⟨-2147483648, 2147483647⟩] = .ok bytes ∧
          decodeChunkPositions bytes = .ok [⟨-2147483648, 2147483647⟩]
      else encodeLoadBatch [⟨-2147483648, 2147483647⟩] =
        .error "native world storage load batch cannot exceed 4096 chunks" :=
  payloads_sent_back 7 8 3 4 (.single 32767 4095) (.single 255 ⟨1, 0x79c05a⟩) (.single 0 65535)
    (.single 1 15) (.single 2 0) (by simp [PhpArray.InRange, PhpArray.single])
    (by simp [PhpArray.single]) (by simp [PhpArray.InRange, PhpArray.single])
    (by simp [PhpArray.InRange, PhpArray.single]) (by simp [PhpArray.InRange, PhpArray.single])
    [⟨-2147483648, 2147483647⟩]

theorem ofInt_natCast16 (n : Nat) : UInt16.ofInt (n : Int) = UInt16.ofNat n := by
  apply UInt16.toNat_inj.mp
  rw [UInt16.ofInt]
  simp only [UInt16.toNat_ofNat']
  omega

theorem ofInt_natCast8 (n : Nat) : UInt8.ofInt (n : Int) = UInt8.ofNat n := by
  apply UInt8.toNat_inj.mp
  rw [UInt8.ofInt]
  simp only [UInt8.toNat_ofNat']
  omega

def staged (edits : List (Nat × α)) (value : α → β) (h : (edits.map Prod.fst).Nodup) :
    PhpArray β where
  entries := edits.map fun edit => ((edit.1 : Int), value edit.2)
  distinct := by
    have hkeys : (edits.map fun edit => ((edit.1 : Int), value edit.2)).map Prod.fst =
        (edits.map Prod.fst).map Nat.cast := by simp
    rw [hkeys]
    exact h.map Nat.cast_injective

structure StagedKeys (edits : StagedEdits) : Prop where
  blocks : (edits.blocks.map Prod.fst).Nodup ∧ ∀ e ∈ edits.blocks, e.1 < chunkBlockCount
  biomes : (edits.biomes.map Prod.fst).Nodup ∧ ∀ e ∈ edits.biomes, e.1 < chunkColumnCount
  extraData : (edits.extraData.map Prod.fst).Nodup ∧ ∀ e ∈ edits.extraData, e.1 < chunkBlockCount
  skyLight : (edits.skyLight.map Prod.fst).Nodup ∧ ∀ e ∈ edits.skyLight, e.1 < chunkBlockCount
  blockLight : (edits.blockLight.map Prod.fst).Nodup ∧
    ∀ e ∈ edits.blockLight, e.1 < chunkBlockCount

theorem staged_count {edits : List (Nat × α)} {value : α → β} {n : Nat} (hn : n < 2 ^ 32)
    (h : (edits.map Prod.fst).Nodup ∧ ∀ e ∈ edits, e.1 < n) :
    (UInt32.ofInt (staged edits value h.1).count).toNat =
      (staged edits value h.1).entries.length := by
  apply PhpArray.count_toNat hn
  intro e he
  obtain ⟨edit, hedit, rfl⟩ := List.mem_map.mp he
  have hlt := h.2 edit hedit
  exact ⟨Int.natCast_nonneg _, by dsimp only; omega⟩

-- The bytes of a prepared patch carry exactly the native patch of its staged edits.
theorem parsePatch_staged (expectedTerrain nextTerrain expectedLight nextLight : Int64)
    {edits : StagedEdits} (h : StagedKeys edits) :
    parsePatch (applyPatchPayload expectedTerrain.toInt nextTerrain.toInt expectedLight.toInt
      nextLight.toInt (staged edits.blocks (fun v => (v.toNat : Int)) h.blocks.1)
      (staged edits.biomes id h.biomes.1)
      (staged edits.extraData (fun v => (v.toNat : Int)) h.extraData.1)
      (staged edits.skyLight (fun v => (v.toNat : Int)) h.skyLight.1)
      (staged edits.blockLight (fun v => (v.toNat : Int)) h.blockLight.1)) =
      .ok (nativePatch expectedTerrain nextTerrain expectedLight nextLight edits) := by
  rw [parsePatch_payload _ _ _ _ (staged_count (by decide) h.blocks)
    (staged_count (by decide) h.biomes) (staged_count (by decide) h.extraData)
    (staged_count (by decide) h.skyLight) (staged_count (by decide) h.blockLight), sentPatch,
    nativePatch]
  simp [staged, wordEntry, ofInt_toInt64, ofInt_natCast16, ofInt_natCast8, ofInt_toNat32]

end Cobblestone.Bridge
