import Cobblestone.Storage.RoundTrip

namespace Cobblestone.Storage

open Lib World

-- What the item list of a chest must be for the record codec.
structure ChestFits (entity : ChestBlockEntity) : Prop where
  height : 0 ≤ entity.y ∧ entity.y < 128
  slots : ∀ item ∈ entity.items, item.slot < 27
  distinct : (entity.items.map ChestItemStack.slot).Nodup
  counts : ∀ item ∈ entity.items, item.count ≠ 0

theorem validateItems_ok_iff {seen : UInt8 → Bool} {items : List ChestItemStack} :
    validateItems seen items = .ok () ↔
      (∀ item ∈ items, item.slot < 27) ∧ (∀ item ∈ items, seen item.slot = false) ∧
        (items.map ChestItemStack.slot).Nodup ∧ ∀ item ∈ items, item.count ≠ 0 := by
  induction items generalizing seen with
  | nil => simp [validateItems]
  | cons item items ih =>
    simp only [validateItems, bind_ok_iff, ensure_ok_iff, exists_const, Bool.and_eq_true,
      decide_eq_true_eq, bne_iff_ne, Bool.not_eq_true', List.forall_mem_cons, List.map_cons,
      List.nodup_cons, ih]
    constructor
    · rintro ⟨⟨hslot, hseen⟩, hcount, hslots, hnew, hnodup, hcounts⟩
      refine ⟨⟨hslot, hslots⟩, ⟨hseen, fun other ho => ?_⟩, ⟨?_, hnodup⟩, hcount, hcounts⟩
      · have hother := hnew other ho
        rw [Function.update_apply] at hother
        split at hother
        · cases hother
        · exact hother
      · intro hmem
        obtain ⟨other, ho, heq⟩ := List.mem_map.mp hmem
        have hother := hnew other ho
        simp [heq] at hother
    · rintro ⟨⟨hslot, hslots⟩, ⟨hseen, hnew⟩, ⟨hout, hnodup⟩, hcount, hcounts⟩
      refine ⟨⟨hslot, hseen⟩, hcount, hslots, fun other ho => ?_, hnodup, hcounts⟩
      have hne : other.slot ≠ item.slot := fun heq => hout (heq ▸ List.mem_map_of_mem ho)
      rw [Function.update_of_ne hne]
      exact hnew other ho

theorem ChestFits.length_le {entity : ChestBlockEntity} (h : ChestFits entity) :
    entity.items.length ≤ chestSlotCount := by
  have hsub : entity.items.map ChestItemStack.slot ⊆ (List.range 27).map UInt8.ofNat := by
    intro slot hslot
    obtain ⟨item, hi, rfl⟩ := List.mem_map.mp hslot
    exact List.mem_map.mpr ⟨item.slot.toNat, List.mem_range.mpr (h.slots item hi), by simp⟩
  simpa using (List.subperm_of_subset h.distinct hsub).length_le

theorem validateChestBlockEntity_ok_iff {entity : ChestBlockEntity} :
    validateChestBlockEntity entity = .ok () ↔ ChestFits entity := by
  simp only [validateChestBlockEntity, bind_ok_iff, ensure_ok_iff, exists_const, decide_eq_true_eq,
    yInRange, Bool.and_eq_true, validateItems_ok_iff]
  constructor
  · rintro ⟨hy, -, hslots, -, hdistinct, hcounts⟩
    exact ⟨hy, hslots, hdistinct, hcounts⟩
  · intro h
    exact ⟨h.height, h.length_le, h.slots, fun _ _ => trivial, h.distinct, h.counts⟩

-- What a record can hold beyond the planes.
structure RecordFits (data : ChunkData) : Prop where
  extra : ∀ key ∈ data.extraData, (key &&& 0x00ff).toNat < worldHeight
  chests : ∀ entity ∈ data.chestBlockEntities, ChestFits entity
  count : data.chestBlockEntities.length ≤ chunkBlockCount
  capacity : payloadCapacity data [] ≤ maxChunkPayloadBytes

theorem encodeExtra_isOk_iff {entry : UInt16 × UInt16} :
    (∃ bytes, encodeExtra entry = .ok bytes) ↔ (entry.1 &&& 0x00ff).toNat < worldHeight := by
  constructor
  · rintro ⟨bytes, h⟩
    obtain ⟨linear, hlinear, -⟩ := bind_ok_iff.mp h
    by_contra hy
    rw [extraKeyToLinear, if_pos (Nat.le_of_not_lt hy)] at hlinear
    cases hlinear
  · intro hy
    rw [encodeExtra, extraKeyToLinear, if_neg (Nat.not_le_of_lt hy)]
    exact ⟨_, rfl⟩

theorem encodeExtras_isOk_iff {extra : ExtraData} :
    (∃ encoded, extra.toList.mapM encodeExtra = .ok encoded) ↔
      ∀ key ∈ extra, (key &&& 0x00ff).toNat < worldHeight := by
  rw [mapM_isOk_iff]
  simp only [encodeExtra_isOk_iff]
  constructor
  · intro h key hkey
    have hmem : (key, extra[key]) ∈ extra.toList :=
      Std.ExtTreeMap.mem_toList_iff_getElem?_eq_some.mpr (Std.ExtTreeMap.getElem?_eq_some_getElem hkey)
    exact h _ hmem
  · intro h entry hentry
    have hsome := Std.ExtTreeMap.mem_toList_iff_getElem?_eq_some.mp hentry
    refine h entry.1 ?_
    by_contra hout
    simp [Std.ExtTreeMap.getElem?_eq_none hout] at hsome

theorem encodeSemanticPayload_isOk {data : ChunkData} (hp : PlanesFit data) (h : RecordFits data) :
    ∃ payload, encodeSemanticPayload data [] = .ok payload := by
  have hplanes : planeLengthsMatch data = true := by
    simp only [planeLengthsMatch, hp.states, hp.skyLight, hp.blockLight, hp.biomes, hp.heightMap,
      decide_true, Bool.and_true]
  have hchests : ∀ entity ∈ data.chestBlockEntities, validateChestBlockEntity entity = .ok () :=
    fun entity he => validateChestBlockEntity_ok_iff.mpr (h.chests entity he)
  obtain ⟨extra, hextra⟩ := encodeExtras_isOk_iff.mpr h.extra
  have hsize : data.extraData.size < UInt32.size :=
    lt_of_le_of_lt (extra_size_le hextra) (by decide)
  have hcount : data.chestBlockEntities.length < UInt32.size := lt_of_le_of_lt h.count (by decide)
  simp only [encodeSemanticPayload, bind_ok_iff, ensure_ok_iff, exists_const, decide_eq_true_eq,
    forM_ok_iff, u32TryFrom_of_lt hsize, u32TryFrom_of_lt hcount]
  exact ⟨_, hplanes, hchests, h.capacity, hp.legacy, _, rfl, extra, hextra, _, rfl, [], rfl, rfl⟩

theorem recordFits_of_encoded {data : ChunkData} {payload : Bytes}
    (h : encodeSemanticPayload data [] = .ok payload)
    (hcount : data.chestBlockEntities.length ≤ chunkBlockCount) : RecordFits data := by
  obtain ⟨-, hchests, hcapacity, -, -, extra, -, -, hextra, -⟩ := encodeSemanticPayload_cases h
  exact ⟨encodeExtras_isOk_iff.mp ⟨extra, hextra⟩,
    fun entity he => validateChestBlockEntity_ok_iff.mp (hchests entity he), hcount, hcapacity⟩

variable (crates : Crates)

theorem encodeChunkRecord_of_payload {snapshot : ChunkSnapshot} {policy : CompressionPolicy}
    {extensions : List ExtensionSection} {payload stored : Bytes} {compression : Compression}
    (hpayload : encodeSemanticPayload snapshot.data extensions = .ok payload)
    (hcompress : compressPayload crates policy payload = .ok (compression, stored))
    (hstored : stored.length ≤ maxChunkPayloadBytes) :
    ∃ record, encodeChunkRecordWithPolicy crates snapshot policy extensions = .ok record := by
  have hcap := (encodeSemanticPayload_cases hpayload).2.2.1
  rw [← length_encodeSemanticPayload hpayload] at hcap
  have hsmall : payload.length < UInt32.size := lt_of_le_of_lt hcap (by decide)
  have hsmall' : stored.length < UInt32.size := lt_of_le_of_lt hstored (by decide)
  have hrecord : recordHeaderBytes + stored.length ≤ maxChunkRecordBytes :=
    le_trans (Nat.add_le_add_left hstored _) (by decide)
  simp only [encodeChunkRecordWithPolicy, bind_ok_iff, ensure_ok_iff, exists_const,
    decide_eq_true_eq]
  exact ⟨_, payload, hpayload, (compression, stored), hcompress, hstored, _,
    u32TryFrom_of_lt hsmall _, _, u32TryFrom_of_lt hsmall' _, hrecord, rfl⟩

-- The bound that zstd documents for the result of a compression.
def compressBound (n : Nat) : Nat :=
  n + n / 256 + if n < 131072 then (131072 - n) / 2048 else 0

def Compresses : Prop :=
  ∀ payload, ∃ stored, crates.encodeAll payload = .ok stored ∧
    stored.length ≤ compressBound payload.length

variable {crates}

theorem compressPayload_isOk (hz : Compresses crates) {policy : CompressionPolicy} {payload : Bytes}
    (hcap : payload.length ≤ maxChunkPayloadBytes)
    (hzstd : policy = .zstd → compressBound payload.length ≤ maxChunkPayloadBytes) :
    ∃ compression stored, compressPayload crates policy payload = .ok (compression, stored) ∧
      stored.length ≤ maxChunkPayloadBytes := by
  obtain ⟨compressed, hcompressed, hbound⟩ := hz payload
  cases policy with
  | none => exact ⟨.none, payload, rfl, hcap⟩
  | zstd => exact ⟨.zstd, compressed, by simp [compressPayload, hcompressed, pure, Except.pure],
      hbound.trans (hzstd rfl)⟩
  | adaptive =>
    by_cases hsaves : compressed.length + adaptiveCompressionMinSavings ≤ payload.length
    · exact ⟨.zstd, compressed, by simp [compressPayload, hcompressed, hsaves, pure, Except.pure],
        by omega⟩
    · exact ⟨.none, payload, by simp [compressPayload, hcompressed, hsaves, pure, Except.pure],
        hcap⟩

variable (crates)

-- The chunk goes out as a record and comes back with what was imported.
def SavedAndLoaded (policy : CompressionPolicy) (snapshot : ChunkSnapshot) (p : ChunkCoord)
    (i : ChunkImport) : Prop :=
  ∃ record stored, encodeChunkRecordWithPolicy crates snapshot policy [] = .ok record ∧
    decodeChunkRecord crates record = .ok stored ∧ stored.position = p ∧ stored.imported = i

theorem importChunk_ok {s t : WorldStore} {p : ChunkCoord} {i : ChunkImport}
    (h : s.importChunk p i = (.ok (), t)) : validateImport i = .ok () ∧
      t.snapshot p = .ok ((ChunkRecord.fromImport i).snapshot p) := by
  rw [WorldStore.importChunk] at h
  split at h
  · cases h
  · next hv =>
    cases h
    exact ⟨hv, by simp [WorldStore.snapshot, WorldStore.withChunk]⟩

theorem planesFit_of_wellFormed {data : ChunkData} (h : data.WellFormed) : PlanesFit data where
  states := h.states_length
  skyLight := h.skyLight_length
  blockLight := h.blockLight_length
  biomes := h.biomes_length
  heightMap := h.heightMap_length
  legacy state hs := by
    have hsupported := h.states_supported state hs
    rw [worldBlockStateIdIsSupported, Bool.and_eq_true, decide_eq_true_eq] at hsupported
    exact hsupported.1

theorem recordFits_of_loaded {policy : CompressionPolicy} {p : ChunkCoord} {i : ChunkImport}
    (hi : validateImport i = .ok ())
    (h : SavedAndLoaded crates policy ((ChunkRecord.fromImport i).snapshot p) p i) :
    RecordFits i.data := by
  obtain ⟨record, stored, hencode, hdecode, -⟩ := h
  obtain ⟨hflags, -⟩ := validateImport_ok_iff.mp hi
  have hcount : i.data.chestBlockEntities.length ≤ chunkBlockCount := by
    by_contra hover
    rw [decodeChunkRecord_overflow crates hencode hflags (Nat.lt_of_not_le hover)] at hdecode
    cases hdecode
  obtain ⟨payload, -, -, -, -, hpayload, -⟩ := encodeChunkRecordWithPolicy_cases crates hencode
  exact recordFits_of_encoded hpayload hcount

theorem savedAndLoaded_of_fits (hz : Compresses crates) {policy : CompressionPolicy}
    {p : ChunkCoord} {i : ChunkImport} (hi : validateImport i = .ok ()) (h : RecordFits i.data)
    (hzstd : policy = .zstd → compressBound (payloadCapacity i.data []) ≤ maxChunkPayloadBytes) :
    SavedAndLoaded crates policy ((ChunkRecord.fromImport i).snapshot p) p i := by
  obtain ⟨hflags, hdata⟩ := validateImport_ok_iff.mp hi
  obtain ⟨payload, hpayload⟩ : ∃ payload, encodeSemanticPayload
      ((ChunkRecord.fromImport i).snapshot p).data [] = .ok payload :=
    encodeSemanticPayload_isOk (planesFit_of_wellFormed hdata) h
  have hlength := length_encodeSemanticPayload hpayload
  obtain ⟨compression, stored, hcompress, hstored⟩ :=
    compressPayload_isOk hz (hlength.trans_le h.capacity) fun heq => hlength ▸ hzstd heq
  obtain ⟨record, hrecord⟩ := encodeChunkRecord_of_payload crates hpayload hcompress hstored
  obtain ⟨chunk, hdecode, hposition, himport, -⟩ :=
    decodeChunkRecord_carries crates hrecord hflags h.count
  exact ⟨record, chunk, hrecord, hdecode, hposition, himport⟩

def plainsImport : ChunkImport := (plainsChunk.snapshot origin).toImport

theorem plainsImport_valid : validateImport plainsImport = .ok () :=
  validateImport_ok_iff.mpr ⟨by decide, ChunkData.empty_wellFormed _ (by decide)⟩

theorem reference_compresses : Compresses Crates.reference := fun payload =>
  ⟨payload, rfl, (Nat.le_add_right _ _).trans (Nat.le_add_right _ _)⟩

theorem plainsImport_fits : RecordFits plainsImport.data where
  extra key hkey := absurd hkey Std.ExtTreeMap.not_mem_empty
  chests entity he := absurd he List.not_mem_nil
  count := Nat.zero_le _
  capacity := by decide

def highChest : ChestBlockEntity := ⟨1, 200, 1, []⟩

def highChestImport : ChunkImport :=
  ((chestChunk 0x0192bc59 [highChest]).snapshot origin).toImport

theorem highChestImport_valid : validateImport highChestImport = .ok () := by
  have hempty := ChunkData.empty_wellFormed 0x0192bc59 (by decide)
  exact validateImport_ok_iff.mpr ⟨by decide, { hempty with }⟩

end Cobblestone.Storage

namespace Cobblestone.Storage

open Lib World

-- The documented index of a block whose extra data is kept under the key.
def linearIndex (key : UInt16) : UInt16 := (key <<< 8) ||| (key >>> 8)

def keyY (key : UInt16) : Nat := key.toNat % 256

def keyColumn (key : UInt16) : Nat := key.toNat / 256

def readIndices : Nat → Bytes → List UInt16
  | 0, _ => []
  | n + 1, bytes => readU16 bytes 0 :: readIndices n (bytes.drop 4)

-- The block indices of the extra-data entries, in the order in which they stand in a payload.
def writtenIndices (payload : Bytes) : List UInt16 :=
  let tail := payload.drop (semanticPrefixBytes + biomeWordBytes + chunkColumnCount)
  readIndices (readU32 tail 0).toNat (tail.drop 4)

-- The columns of the entries never rise while their heights fall.
def HeightsFollowColumns (extra : ExtraData) : Prop :=
  ∀ j ∈ extra, ∀ k ∈ extra, keyColumn j < keyColumn k → keyY j ≤ keyY k

theorem toNat_linearIndex (key : UInt16) :
    (linearIndex key).toNat = keyY key * 256 + keyColumn key := by
  have hcolumn : keyColumn key < 2 ^ 8 := by
    have := key.toNat_lt
    rw [keyColumn]
    omega
  have hleft : (key <<< 8).toNat = keyY key <<< 8 := by
    rw [UInt16.toNat_shiftLeft, keyY, Nat.shiftLeft_eq, Nat.shiftLeft_eq]
    simp
    omega
  have hright : (key >>> 8).toNat = keyColumn key := by
    rw [UInt16.toNat_shiftRight, keyColumn, Nat.shiftRight_eq_div_pow]
    simp
  rw [linearIndex, UInt16.toNat_or, hleft, hright, ← Nat.shiftLeft_add_eq_or_of_lt hcolumn,
    Nat.shiftLeft_eq]

theorem extraKeyToLinear_eq {key linear : UInt16} (h : extraKeyToLinear key = .ok linear) :
    linear = linearIndex key := by
  rw [extraKeyToLinear] at h
  split at h
  · cases h
  · cases h
    apply UInt16.toBitVec_inj.mp
    apply BitVec.eq_of_getLsbD_eq
    intro i hi
    interval_cases i <;> simp [linearIndex]

theorem linearIndex_lt_iff {j k : UInt16} (h : j < k) :
    linearIndex j < linearIndex k ↔ (keyColumn j < keyColumn k → keyY j ≤ keyY k) := by
  have hlt : j.toNat < k.toNat := h
  have hj := j.toNat_lt
  have hk := k.toNat_lt
  rw [UInt16.lt_iff_toNat_lt, toNat_linearIndex, toNat_linearIndex]
  simp only [keyY, keyColumn]
  omega

theorem readIndices_entries {entries : List (UInt16 × UInt16)} {encoded : List Bytes}
    (he : List.Forall₂ (fun entry bytes => encodeExtra entry = .ok bytes) entries encoded)
    (rest : Bytes) :
    readIndices entries.length (encoded.flatten ++ rest) =
      entries.map fun entry => linearIndex entry.1 := by
  induction he with
  | nil => rfl
  | @cons entry bytes entries encoded hb _ ih =>
    obtain ⟨linear, hlinear, hbytes⟩ := bind_ok_iff.mp hb
    cases hbytes
    rw [extraKeyToLinear_eq hlinear, List.length_cons, List.flatten_cons, List.map_cons,
      readIndices, List.append_assoc]
    have hread : readU16 (toLE 2 (linearIndex entry.1).toNat ++ toLE 2 entry.2.toNat ++
        (encoded.flatten ++ rest)) 0 = linearIndex entry.1 := readU16_eq (by simp [sliceAt])
    rw [hread, List.drop_left' (by simp), ih]

theorem writtenIndices_encoded {data : ChunkData} {extensions : List ExtensionSection}
    {payload : Bytes} (h : encodeSemanticPayload data extensions = .ok payload) :
    writtenIndices payload = data.extraData.toList.map fun entry => linearIndex entry.1 := by
  obtain ⟨hp, -, -, extraCount, chestCount, extra, sections, hcount, hextra, -, -, rfl⟩ :=
    encodeSemanticPayload_cases h
  have hread : readU32 (toLE 4 extraCount.toNat ++ (extra.flatten ++
      ((toLE 4 chestCount.toNat ++ data.chestBlockEntities.flatMap encodeChest) ++
        sections.flatten))) 0 = extraCount := readU32_eq (by simp [sliceAt])
  rw [writtenIndices, List.drop_left' (length_encodePlanes hp), List.append_assoc]
  rw [hread, List.drop_left' (by simp), hcount, ← Std.ExtTreeMap.length_toList]
  exact readIndices_entries (mapM_ok_iff.mp hextra) _

theorem rel_of_sorted {l : List (UInt16 × UInt16)} {r : UInt16 × UInt16 → UInt16 × UInt16 → Prop}
    (hl : l.Pairwise fun a b => a.1 < b.1) (hr : l.Pairwise r) {a b : UInt16 × UInt16} (ha : a ∈ l)
    (hb : b ∈ l) (hab : a.1 < b.1) : r a b := by
  induction l with
  | nil => cases ha
  | cons x l ih =>
    obtain ⟨hx, hl⟩ := List.pairwise_cons.mp hl
    obtain ⟨hrx, hr⟩ := List.pairwise_cons.mp hr
    rcases List.mem_cons.mp ha with rfl | ha
    · rcases List.mem_cons.mp hb with rfl | hb
      · exact absurd hab (UInt16.lt_irrefl b.1)
      · exact hrx b hb
    · rcases List.mem_cons.mp hb with heq | hb
      · exact absurd hab (UInt16.lt_asymm (heq ▸ hx a ha))
      · exact ih hl hr ha hb

theorem increasing_iff (extra : ExtraData) :
    (extra.toList.map fun entry => linearIndex entry.1).Pairwise (· < ·) ↔
      HeightsFollowColumns extra := by
  have hordered := Std.ExtTreeMap.ordered_keys_toList (t := extra)
  have hsorted : extra.toList.Pairwise fun a b => a.1 < b.1 :=
    hordered.imp fun h => compareOfLessAndEq_eq_lt.mp h
  have hkeys {key : UInt16} (hkey : key ∈ extra) : (key, extra[key]) ∈ extra.toList :=
    Std.ExtTreeMap.mem_toList_iff_getElem?_eq_some.mpr
      (Std.ExtTreeMap.getElem?_eq_some_getElem hkey)
  have hmem {entry : UInt16 × UInt16} (hentry : entry ∈ extra.toList) : entry.1 ∈ extra := by
    have hsome := Std.ExtTreeMap.mem_toList_iff_getElem?_eq_some.mp hentry
    by_contra hout
    simp [Std.ExtTreeMap.getElem?_eq_none hout] at hsome
  rw [List.pairwise_map]
  constructor
  · intro hwritten j hj k hk hcolumns
    have hjk : j < k := by
      have : j.toNat / 256 < k.toNat / 256 := hcolumns
      exact UInt16.lt_iff_toNat_lt.mpr (by omega)
    have hlt := rel_of_sorted hsorted hwritten (hkeys hj) (hkeys hk) hjk
    exact (linearIndex_lt_iff hjk).mp hlt hcolumns
  · intro hfollow
    exact List.Pairwise.imp_of_mem (fun ha hb hab => (linearIndex_lt_iff hab).mpr
      (hfollow _ (hmem ha) _ (hmem hb))) hsorted

-- The entries are written in the order of their keys, which is columns first.
theorem extra_order_iff {data : ChunkData} {extensions : List ExtensionSection} {payload : Bytes}
    (h : encodeSemanticPayload data extensions = .ok payload) :
    (writtenIndices payload).Pairwise (· < ·) ↔ HeightsFollowColumns data.extraData := by
  rw [writtenIndices_encoded h, increasing_iff]

def stackedExtra : ExtraData := ((∅ : ExtraData).insert 1 1).insert 256 1

theorem mem_stackedExtra {key : UInt16} : key ∈ stackedExtra ↔ 256 = key ∨ 1 = key := by
  simp [stackedExtra, Std.ExtTreeMap.mem_insert]

def stackedChunk : ChunkData := { ChunkData.empty 0x0192bc59 with extraData := stackedExtra }

theorem stackedChunk_encoded : ∃ payload, encodeSemanticPayload stackedChunk [] = .ok payload := by
  have hempty := ChunkData.empty_wellFormed 0x0192bc59 (by decide)
  have hplanes : PlanesFit stackedChunk := planesFit_of_wellFormed { hempty with }
  refine encodeSemanticPayload_isOk hplanes ⟨fun key hkey => ?_, fun entity he => ?_, ?_, ?_⟩
  · rcases mem_stackedExtra.mp hkey with rfl | rfl <;> decide
  · cases he
  · exact Nat.zero_le _
  · decide

theorem extra_order_iff_stacked : ∃ payload,
    encodeSemanticPayload stackedChunk [] = .ok payload ∧
      ((writtenIndices payload).Pairwise (· < ·) ↔ HeightsFollowColumns stackedChunk.extraData) := by
  obtain ⟨payload, hpayload⟩ := stackedChunk_encoded
  exact ⟨payload, hpayload, extra_order_iff hpayload⟩

-- Extra data in one block above the floor, and beside it in one on the floor.
theorem stacked_entries_unsorted : ∃ payload, encodeSemanticPayload stackedChunk [] = .ok payload ∧
    ¬ (writtenIndices payload).Pairwise (· < ·) := by
  obtain ⟨payload, hpayload⟩ := stackedChunk_encoded
  refine ⟨payload, hpayload, fun hsorted => ?_⟩
  rw [writtenIndices_encoded hpayload] at hsorted
  have hheights := (increasing_iff stackedExtra).mp hsorted 1 (mem_stackedExtra.mpr (.inr rfl)) 256
    (mem_stackedExtra.mpr (.inl rfl))
  exact absurd (hheights (by decide)) (by decide)

end Cobblestone.Storage
