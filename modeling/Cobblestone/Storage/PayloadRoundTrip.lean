import Cobblestone.Storage.Payload

namespace Cobblestone.Storage

open Lib World

theorem reads_u8 (v : UInt8) : Reads readPayloadU8 [v] v := by
  have h := (Reads.natLE (n := 1) (v := v.toNat) (by exact v.toNat_lt)
    (StorageError.corruptChunkPayload "truncated u8")).bind_pure UInt8.ofNat
  have hv : toLE 1 v.toNat = [v] := by simp [toLE]
  rwa [UInt8.ofNat_toNat, hv] at h

theorem reads_u16 (v : UInt16) : Reads readPayloadU16 (toLE 2 v.toNat) v := by
  have h := (Reads.natLE (n := 2) (v := v.toNat) (by exact v.toNat_lt)
    (StorageError.corruptChunkPayload "truncated u16")).bind_pure UInt16.ofNat
  rwa [UInt16.ofNat_toNat] at h

theorem reads_u32 (v : UInt32) : Reads readPayloadU32 (toLE 4 v.toNat) v := by
  have h := (Reads.natLE (n := 4) (v := v.toNat) (by exact v.toNat_lt)
    (StorageError.corruptChunkPayload "truncated u32")).bind_pure UInt32.ofNat
  rwa [UInt32.ofNat_toNat] at h

theorem reads_i16 (v : Int16) : Reads readPayloadI16 (toLE 2 v.toUInt16.toNat) v := by
  have h := (reads_u16 v.toUInt16).bind_pure UInt16.toInt16
  rwa [Int16.toInt16_toUInt16] at h

theorem reads_i32 (v : Int32) : Reads readPayloadI32 (toLE 4 v.toUInt32.toNat) v := by
  have h := (reads_u32 v.toUInt32).bind_pure UInt32.toInt32
  rwa [Int32.toInt32_toUInt32] at h

theorem reads_require {condition : Bool} {reason : String} (h : condition = true) :
    Reads (requirePayload condition reason) [] () :=
  Reads.require h _

theorem reads_items {seen : UInt8 → Bool} {items : List ChestItemStack}
    (h : validateItems seen items = .ok ()) :
    Reads (readItems items.length seen) (items.flatMap encodeItem) items := by
  induction items generalizing seen with
  | nil => exact Reads.pure []
  | cons item items ih =>
    simp only [validateItems, bind_ok_iff, ensure_ok_iff, exists_const] at h
    obtain ⟨hslot, hcount, hrest⟩ := h
    rw [List.length_cons, readItems, List.flatMap_cons, encodeItem, List.cons_append]
    refine (reads_u8 item.slot).bind ?_
    refine (reads_require hslot).bind_silent ?_
    refine (reads_i16 item.itemId).bind ?_
    refine (reads_i16 item.damage).bind ?_
    refine (reads_u8 item.count).bind ?_
    refine (reads_require hcount).bind_silent ?_
    exact (ih hrest).bind_pure (⟨item.slot, item.itemId, item.damage, item.count⟩ :: ·)

theorem reads_chest {entity : ChestBlockEntity} (h : validateChestBlockEntity entity = .ok ()) :
    Reads readChest (encodeChest entity) entity := by
  simp only [validateChestBlockEntity, bind_ok_iff, ensure_ok_iff, exists_const,
    decide_eq_true_eq] at h
  obtain ⟨hy, hlen, hitems⟩ := h
  have hcount : (UInt8.ofNat entity.items.length).toNat = entity.items.length := by
    rw [UInt8.toNat_ofNat']
    exact Nat.mod_eq_of_lt (lt_of_le_of_lt hlen (by decide))
  refine (reads_i32 entity.x).bind ?_
  refine (reads_i32 entity.y).bind ?_
  refine (reads_i32 entity.z).bind ?_
  refine (reads_require hy).bind_silent ?_
  refine (reads_u8 (UInt8.ofNat entity.items.length)).bind ?_
  refine (reads_require (by simpa [hcount] using hlen)).bind_silent ?_
  rw [hcount]
  exact (reads_items hitems).bind_pure (ChestBlockEntity.mk entity.x entity.y entity.z)

theorem u32TryFrom_toNat {n : Nat} {e : StorageError} {v : UInt32} (h : u32TryFrom n e = .ok v) :
    v.toNat = n := by
  unfold u32TryFrom at h
  split at h
  · next hn =>
    cases h
    exact UInt32.toNat_ofNat_of_lt hn
  · cases h

theorem reads_chests {entities : List ChestBlockEntity} {count : UInt32}
    (hc : count.toNat = entities.length) (hb : entities.length ≤ chunkBlockCount)
    (h : ∀ entity ∈ entities, validateChestBlockEntity entity = .ok ()) :
    Reads readChests (toLE 4 count.toNat ++ entities.flatMap encodeChest) entities := by
  refine (reads_u32 count).bind ?_
  refine (reads_require (by simpa [hc] using hb)).bind_silent ?_
  rw [hc]
  exact Reads.times fun entity he => reads_chest (h entity he)

theorem readChests_overflow {count : UInt32} (h : chunkBlockCount < count.toNat) (rest : Bytes) :
    readChests (toLE 4 count.toNat ++ rest) =
      .error (.corruptChunkPayload "chest block-entity count exceeds block count") := by
  rw [readChests, (reads_u32 count).run]
  apply Reader.bind_error
  have : decide (count.toNat ≤ chunkBlockCount) = false := decide_eq_false (by omega)
  simp only [requirePayload, Reader.require, this]
  rfl

private theorem u16_lt_of_bit {a : UInt16} (h : a.toBitVec.getLsbD 15 = false) :
    a.toNat < 2 ^ 15 := by
  apply Nat.lt_pow_two_of_testBit
  intro i hi
  rw [← UInt16.toNat_toBitVec, BitVec.testBit_toNat]
  rcases Nat.lt_or_ge i 16 with hlt | hge
  · obtain rfl : i = 15 := by omega
    exact h
  · exact BitVec.getLsbD_of_ge _ _ hge

private theorem bit_of_y_lt {key : UInt16} (h : (key &&& 0x00ff).toNat < 2 ^ 7) :
    key.toBitVec.getLsbD 7 = false := by
  have ht : (key &&& 0x00ff).toNat.testBit 7 = false := Nat.testBit_lt_two_pow h
  rw [← UInt16.toNat_toBitVec, BitVec.testBit_toNat] at ht
  simpa using ht

theorem extraKeyToLinear_ok {key linear : UInt16} (h : extraKeyToLinear key = .ok linear) :
    linear.toNat < chunkBlockCount ∧ linearToExtraKey linear = key := by
  simp only [extraKeyToLinear] at h
  split at h
  · cases h
  · next hy =>
    cases h
    have h7 := bit_of_y_lt (Nat.lt_of_not_le hy)
    constructor
    · exact u16_lt_of_bit (by simpa using h7)
    · apply UInt16.toBitVec_inj.mp
      apply BitVec.eq_of_getLsbD_eq
      intro i hi
      interval_cases i <;> simp_all [linearToExtraKey]

theorem encodeExtra_ok {entry : UInt16 × UInt16} {bytes : Bytes}
    (h : encodeExtra entry = .ok bytes) :
    ∃ linear : UInt16, linear.toNat < chunkBlockCount ∧ linearToExtraKey linear = entry.1 ∧
      bytes = toLE 2 linear.toNat ++ toLE 2 entry.2.toNat := by
  obtain ⟨linear, hl, hb⟩ := bind_ok_iff.mp h
  cases hb
  obtain ⟨hlt, hkey⟩ := extraKeyToLinear_ok hl
  exact ⟨linear, hlt, hkey, rfl⟩

theorem length_extraEntries {entries : List (UInt16 × UInt16)} {encoded : List Bytes}
    (he : List.Forall₂ (fun entry bytes => encodeExtra entry = .ok bytes) entries encoded) :
    encoded.flatten.length = encoded.length * 4 := by
  induction he with
  | nil => rfl
  | cons hb _ ih =>
    obtain ⟨linear, -, -, rfl⟩ := encodeExtra_ok hb
    simp only [List.flatten_cons, List.length_append, length_toLE, List.length_cons, ih]
    omega

theorem reads_extraEntries {entries : List (UInt16 × UInt16)} {encoded : List Bytes}
    (he : List.Forall₂ (fun entry bytes => encodeExtra entry = .ok bytes) entries encoded)
    (extra : ExtraData) (hnew : ∀ entry ∈ entries, entry.1 ∉ extra)
    (hd : entries.Pairwise (fun a b => ¬ a.1 = b.1)) :
    Reads (readExtraEntries encoded.length extra) encoded.flatten (extra.insertMany entries) := by
  induction he generalizing extra with
  | nil => simpa [readExtraEntries] using Reads.pure extra
  | @cons entry bytes entries encoded hb _ ih =>
    obtain ⟨linear, hlt, hkey, rfl⟩ := encodeExtra_ok hb
    obtain ⟨hhead, htail⟩ := List.pairwise_cons.mp hd
    rw [List.length_cons, readExtraEntries, List.flatten_cons, List.append_assoc,
      Std.ExtTreeMap.insertMany_cons]
    refine (reads_u16 linear).bind ?_
    refine (reads_u16 entry.2).bind ?_
    refine (reads_require (decide_eq_true hlt)).bind_silent ?_
    have habsent : extra.contains entry.1 = false := by
      rw [← Bool.not_eq_true, Std.ExtTreeMap.contains_iff_mem]
      exact hnew entry List.mem_cons_self
    rw [hkey]
    refine (reads_require (by simp [habsent])).bind_silent ?_
    refine ih _ ?_ htail
    intro other ho
    rw [Std.ExtTreeMap.mem_insert]
    rintro (hc | hm)
    · exact hhead other ho (by simpa using hc)
    · exact hnew other (List.mem_cons_of_mem _ ho) hm

theorem insertMany_toList (extra : ExtraData) :
    (∅ : ExtraData).insertMany extra.toList = extra := by
  apply Std.ExtTreeMap.ext_getElem?
  intro key
  cases hk : extra[key]? with
  | some value =>
    have hm : (key, value) ∈ extra.toList := Std.ExtTreeMap.mem_toList_iff_getElem?_eq_some.mpr hk
    exact Std.ExtTreeMap.getElem?_insertMany_list_of_mem (by simp)
      Std.ExtTreeMap.distinct_keys_toList hm
  | none =>
    rw [Std.ExtTreeMap.getElem?_insertMany_list_of_contains_eq_false]
    · simp
    · simp only [List.contains_eq_mem, decide_eq_false_iff_not, List.mem_map, not_exists, not_and]
      rintro ⟨k, v⟩ hm rfl
      have hs := Std.ExtTreeMap.mem_toList_iff_getElem?_eq_some.mp hm
      simp [hk] at hs

theorem extra_size_le {extra : ExtraData} {encoded : List Bytes}
    (h : extra.toList.mapM encodeExtra = .ok encoded) : extra.size ≤ chunkBlockCount := by
  have hsub : extra.toList.map Prod.fst ⊆
      (List.range chunkBlockCount).map fun i => linearToExtraKey (UInt16.ofNat i) := by
    intro key hkey
    obtain ⟨entry, hm, rfl⟩ := List.mem_map.mp hkey
    obtain ⟨i, hi, rfl⟩ := List.getElem_of_mem hm
    have hf := mapM_ok_iff.mp h
    obtain ⟨linear, hlt, hk, -⟩ := encodeExtra_ok ((List.forall₂_iff_get.mp hf).2 i hi
      (hf.length_eq ▸ hi))
    exact List.mem_map.mpr ⟨linear.toNat, List.mem_range.mpr hlt, by simpa using hk⟩
  have hnodup : (extra.toList.map Prod.fst).Nodup := by
    rw [List.Nodup, List.pairwise_map]
    exact Std.ExtTreeMap.distinct_keys_toList.imp fun hne heq => hne (by simpa using heq)
  have hle := (List.subperm_of_subset hnodup hsub).length_le
  simpa [Std.ExtTreeMap.length_toList] using hle

theorem reads_extra {extra : ExtraData} {encoded : List Bytes} {count : UInt32}
    (hc : count.toNat = extra.size) (h : extra.toList.mapM encodeExtra = .ok encoded) :
    Reads readExtra (toLE 4 count.toNat ++ encoded.flatten) extra := by
  have hf := mapM_ok_iff.mp h
  have hlen : encoded.length = extra.size := by
    rw [← hf.length_eq, Std.ExtTreeMap.length_toList]
  refine (reads_u32 count).bind ?_
  refine (reads_require (by simpa [hc] using extra_size_le h)).bind_silent ?_
  have hr := reads_extraEntries hf ∅ (by simp)
    (Std.ExtTreeMap.distinct_keys_toList.imp fun hne heq => hne (by simpa using heq))
  rw [insertMany_toList, hlen, ← hc] at hr
  refine Reads.bind_atLeast ?_ hr
  rw [hc, ← hlen, length_extraEntries hf]

theorem encodeExtension_ok {extension : ExtensionSection} {bytes : Bytes}
    (h : encodeExtension extension = .ok bytes) :
    ∃ len : UInt32, len.toNat = extension.payload.length ∧
      bytes = [toLE 2 extension.tag.toNat, toLE 2 extension.version.toNat, toLE 4 len.toNat,
        extension.payload].flatten := by
  obtain ⟨len, hl, hb⟩ := bind_ok_iff.mp h
  cases hb
  exact ⟨len, u32TryFrom_toNat hl, by simp⟩

theorem readExtensions_cons (extension : ExtensionSection) {len : UInt32}
    (hl : len.toNat = extension.payload.length) (rest : Bytes) :
    readExtensions ([toLE 2 extension.tag.toNat, toLE 2 extension.version.toNat, toLE 4 len.toNat,
        extension.payload].flatten ++ rest) =
      (readExtensions rest >>= fun sections => .ok (extension :: sections)) := by
  have hseg : [toLE 2 extension.tag.toNat, toLE 2 extension.version.toNat, toLE 4 len.toNat,
      extension.payload].flatten ++ rest = [toLE 2 extension.tag.toNat,
        toLE 2 extension.version.toNat, toLE 4 len.toNat, extension.payload, rest].flatten := by
    simp
  rw [hseg]
  generalize hwhole : [toLE 2 extension.tag.toNat, toLE 2 extension.version.toNat,
    toLE 4 len.toNat, extension.payload, rest] = segments
  have hlength : segments.flatten.length = 8 + extension.payload.length + rest.length := by
    rw [← hwhole]
    simp
    omega
  have htag : readU16 segments.flatten 0 = extension.tag :=
    readU16_eq (by simpa [← hwhole] using sliceAt_flatten segments 0 (by simp [← hwhole]))
  have hversion : readU16 segments.flatten 2 = extension.version :=
    readU16_eq (by simpa [← hwhole] using sliceAt_flatten segments 1 (by simp [← hwhole]))
  have hlen : readU32 segments.flatten 4 = len :=
    readU32_eq (by simpa [← hwhole] using sliceAt_flatten segments 2 (by simp [← hwhole]))
  have hpayload : sliceAt 8 extension.payload.length segments.flatten = extension.payload := by
    simpa [← hwhole] using sliceAt_flatten segments 3 (by simp [← hwhole])
  have hrest : segments.flatten.drop (8 + extension.payload.length) = rest := by
    simpa [← hwhole, ← Nat.add_assoc] using drop_flatten segments 4
  rw [readExtensions, if_neg (by omega), if_neg (by omega)]
  simp only [htag, hversion, hlen, hl, hpayload, hrest]
  rw [if_neg (by omega)]
  rfl

theorem readExtensions_flatten {extensions : List ExtensionSection} {encoded : List Bytes}
    (h : extensions.mapM encodeExtension = .ok encoded) :
    readExtensions encoded.flatten = .ok extensions := by
  have hf := mapM_ok_iff.mp h
  clear h
  induction hf with
  | nil => simp [readExtensions]
  | cons hb _ ih =>
    obtain ⟨len, hl, rfl⟩ := encodeExtension_ok hb
    rw [List.flatten_cons, readExtensions_cons _ hl, ih]
    rfl

theorem length_extensions {extensions : List ExtensionSection} {encoded : List Bytes}
    (h : extensions.mapM encodeExtension = .ok encoded) :
    encoded.flatten.length = extensionBytes extensions := by
  have hf := mapM_ok_iff.mp h
  clear h
  induction hf with
  | nil => rfl
  | cons hb _ ih =>
    obtain ⟨len, hl, rfl⟩ := encodeExtension_ok hb
    rw [List.flatten_cons, List.length_append, ih]
    simp [extensionBytes]
    omega

theorem length_toBigEndian (word : UInt32) : (toBigEndian word).length = 4 := by
  simp [toBigEndian]

theorem fromBigEndian_toBigEndian (word : UInt32) : fromBigEndian (toBigEndian word) = word := by
  rw [fromBigEndian, toBigEndian, List.reverse_reverse, u32_of_le]

theorem bigEndianWords_flatMap (words : List UInt32) :
    bigEndianWords (words.flatMap toBigEndian) = words := by
  induction words with
  | nil => rfl
  | cons word words ih =>
    obtain ⟨a, b, c, d, h⟩ : ∃ a b c d, toBigEndian word = [a, b, c, d] := by
      have hl := length_toBigEndian word
      match toBigEndian word, hl with
      | [a, b, c, d], _ => exact ⟨a, b, c, d, rfl⟩
    rw [List.flatMap_cons, h]
    simp only [List.cons_append, List.nil_append, bigEndianWords, ih]
    rw [← h, fromBigEndian_toBigEndian]

theorem length_biomes (words : List UInt32) :
    (words.flatMap toBigEndian).length = words.length * 4 := by
  induction words with
  | nil => rfl
  | cons word words ih =>
    rw [List.flatMap_cons, List.length_append, ih, length_toBigEndian, List.length_cons]
    omega

theorem stateNibble_lt (state : UInt16) : (stateNibble state).toNat < 16 := by
  have h : state.toNat &&& 15 ≤ 15 := Nat.and_le_right
  simp only [stateNibble, UInt16.toNat_toUInt8, UInt16.toNat_and, UInt16.reduceToNat]
  omega

private theorem high_bits_of_le {state : UInt16} (h : state ≤ maxLegacyStateId) {i : Nat}
    (hi : 12 ≤ i) : state.toBitVec.getLsbD i = false := by
  have hn : state.toNat ≤ 4095 := h
  have hp : (2 : Nat) ^ 12 ≤ 2 ^ i := Nat.pow_le_pow_right (by decide) hi
  have ht : state.toNat.testBit i = false := Nat.testBit_lt_two_pow (by omega)
  rwa [← UInt16.toNat_toBitVec, BitVec.testBit_toNat] at ht

theorem joinState_split {state : UInt16} (h : state ≤ maxLegacyStateId) :
    joinState (stateHigh state) (stateNibble state) = state := by
  apply UInt16.toBitVec_inj.mp
  apply BitVec.eq_of_getLsbD_eq
  intro i hi
  have h12 := high_bits_of_le h (le_refl 12)
  have h13 := high_bits_of_le h (show 12 ≤ 13 by decide)
  have h14 := high_bits_of_le h (show 12 ≤ 14 by decide)
  have h15 := high_bits_of_le h (show 12 ≤ 15 by decide)
  interval_cases i <;> simp_all [joinState, stateHigh, stateNibble, -UInt16.toUInt16_toUInt8]

theorem decodeStates_encode {states : List UInt16} (hl : states.length = chunkBlockCount)
    (h : ∀ state ∈ states, state ≤ maxLegacyStateId) :
    decodeStates (states.map stateHigh) (packNibbles chunkNibbleBytes (states.map stateNibble)) =
      states := by
  apply List.ext_getElem
  · rw [decodeStates, List.length_map, List.length_range, hl]
  · intro i _ hi
    have hn : ∀ v ∈ states.map stateNibble, v.toNat < 16 := by
      intro v hv
      obtain ⟨state, -, rfl⟩ := List.mem_map.mp hv
      exact stateNibble_lt state
    have hread := @readNibble_packNibbles chunkNibbleBytes _ hn
      (by rw [List.length_map, hl]; decide) i (by rwa [List.length_map])
    simp only [decodeStates, List.getElem_map, List.getElem_range, hread]
    rw [List.getD_eq_getElem _ _ (by rwa [List.length_map]), List.getElem_map]
    exact joinState_split (h _ (List.getElem_mem hi))

structure PlanesFit (data : ChunkData) : Prop where
  states : data.states.length = chunkBlockCount
  skyLight : data.skyLight.length = chunkNibbleBytes
  blockLight : data.blockLight.length = chunkNibbleBytes
  biomes : data.biomes.length = chunkColumnCount
  heightMap : data.heightMap.length = chunkColumnCount
  legacy : ∀ state ∈ data.states, state ≤ maxLegacyStateId

def planeSegments (data : ChunkData) (tail : Bytes) : List Bytes :=
  [data.states.map stateHigh, packNibbles chunkNibbleBytes (data.states.map stateNibble),
    data.skyLight, data.blockLight, data.biomes.flatMap toBigEndian, data.heightMap, tail]

theorem encodePlanes_append (data : ChunkData) (tail : Bytes) :
    encodePlanes data ++ tail = (planeSegments data tail).flatten := by
  simp [encodePlanes, planeSegments, List.append_assoc]

theorem encodeSemanticPayload_cases {data : ChunkData} {extensions : List ExtensionSection}
    {payload : Bytes} (h : encodeSemanticPayload data extensions = .ok payload) :
    PlanesFit data ∧ (∀ entity ∈ data.chestBlockEntities, validateChestBlockEntity entity = .ok ()) ∧
      payloadCapacity data extensions ≤ maxChunkPayloadBytes ∧
      ∃ (extraCount chestCount : UInt32) (extra sections : List Bytes),
        extraCount.toNat = data.extraData.size ∧
        data.extraData.toList.mapM encodeExtra = .ok extra ∧
        chestCount.toNat = data.chestBlockEntities.length ∧
        extensions.mapM encodeExtension = .ok sections ∧
        payload = encodePlanes data ++ ((toLE 4 extraCount.toNat ++ extra.flatten) ++
          ((toLE 4 chestCount.toNat ++ data.chestBlockEntities.flatMap encodeChest) ++
            sections.flatten)) := by
  simp only [encodeSemanticPayload, bind_ok_iff, ensure_ok_iff, exists_const, decide_eq_true_eq,
    forM_ok_iff] at h
  obtain ⟨hplanes, hchests, hcapacity, hstates, extraCount, hextraCount, extra, hextra, chestCount,
    hchestCount, sections, hsections, hpayload⟩ := h
  simp only [planeLengthsMatch, Bool.and_eq_true, decide_eq_true_eq] at hplanes
  obtain ⟨⟨⟨⟨hs, hk⟩, hb⟩, hw⟩, hm⟩ := hplanes
  refine ⟨⟨hs, hk, hb, hw, hm, hstates⟩, hchests, hcapacity, extraCount, chestCount, extra,
    sections, u32TryFrom_toNat hextraCount, hextra, u32TryFrom_toNat hchestCount, hsections, ?_⟩
  cases hpayload
  simp only [List.append_assoc]

theorem u32TryFrom_of_lt {n : Nat} (h : n < UInt32.size) (e : StorageError) :
    u32TryFrom n e = .ok (UInt32.ofNat n) :=
  if_pos h

theorem encodeSemanticPayload_plain {data : ChunkData} (hp : PlanesFit data)
    (hv : ∀ entity ∈ data.chestBlockEntities, validateChestBlockEntity entity = .ok ())
    (hcount : data.chestBlockEntities.length < UInt32.size) (hextra : data.extraData = ∅)
    (hcap : payloadCapacity data [] ≤ maxChunkPayloadBytes) :
    ∃ payload, encodeSemanticPayload data [] = .ok payload := by
  have hplanes : planeLengthsMatch data = true := by
    simp only [planeLengthsMatch, hp.states, hp.skyLight, hp.blockLight, hp.biomes, hp.heightMap,
      decide_true, Bool.and_true]
  have hsize : data.extraData.size < UInt32.size := by
    rw [hextra]
    decide
  have hlist : data.extraData.toList = [] := by
    rw [hextra]
    rfl
  simp only [encodeSemanticPayload, bind_ok_iff, ensure_ok_iff, exists_const, decide_eq_true_eq,
    forM_ok_iff, u32TryFrom_of_lt hsize, u32TryFrom_of_lt hcount, hlist]
  exact ⟨_, hplanes, hv, hcap, hp.legacy, _, rfl, [], rfl, _, rfl, [], rfl, rfl⟩

theorem length_chests (entities : List ChestBlockEntity) :
    4 + (entities.flatMap encodeChest).length = chestBytes entities := by
  have hitems (items : List ChestItemStack) : (items.flatMap encodeItem).length = items.length * 6 := by
    induction items with
    | nil => rfl
    | cons item items ih =>
      rw [List.flatMap_cons, List.length_append, ih, List.length_cons]
      simp [encodeItem]
      omega
  induction entities with
  | nil => rfl
  | cons entity entities ih =>
    rw [List.flatMap_cons, List.length_append]
    simp only [chestBytes, List.map_cons, List.sum_cons] at ih ⊢
    simp only [encodeChest, List.length_append, length_toLE, List.length_cons, hitems]
    omega

theorem length_encodePlanes {data : ChunkData} (h : PlanesFit data) :
    (encodePlanes data).length = semanticPrefixBytes + biomeWordBytes + chunkColumnCount := by
  simp only [encodePlanes, List.length_append, List.length_map, length_packNibbles, length_biomes,
    h.states, h.skyLight, h.blockLight, h.biomes, h.heightMap]
  rfl

theorem length_encodeSemanticPayload {data : ChunkData} {extensions : List ExtensionSection}
    {payload : Bytes} (h : encodeSemanticPayload data extensions = .ok payload) :
    payload.length = payloadCapacity data extensions := by
  obtain ⟨hp, -, -, extraCount, chestCount, extra, sections, -, hextra, -, hsections, rfl⟩ :=
    encodeSemanticPayload_cases h
  have hf := mapM_ok_iff.mp hextra
  have hl : extra.length = data.extraData.size := by
    rw [← hf.length_eq, Std.ExtTreeMap.length_toList]
  have hc := length_chests data.chestBlockEntities
  simp only [List.length_append, length_encodePlanes hp, length_toLE, length_extraEntries hf,
    length_extensions hsections, payloadCapacity, semanticBaseBytes, hl, ← hc]
  omega

section

variable {data : ChunkData} (hp : PlanesFit data) (tail : Bytes)

include hp

theorem sliceAt_planes :
    sliceAt 0 chunkBlockCount (encodePlanes data ++ tail) = data.states.map stateHigh ∧
      sliceAt chunkBlockCount chunkNibbleBytes (encodePlanes data ++ tail) =
        packNibbles chunkNibbleBytes (data.states.map stateNibble) ∧
      sliceAt (chunkBlockCount + chunkNibbleBytes) chunkNibbleBytes (encodePlanes data ++ tail) =
        data.skyLight ∧
      sliceAt (chunkBlockCount + chunkNibbleBytes + chunkNibbleBytes) chunkNibbleBytes
        (encodePlanes data ++ tail) = data.blockLight ∧
      sliceAt (chunkBlockCount + chunkNibbleBytes + chunkNibbleBytes + chunkNibbleBytes)
        biomeWordBytes (encodePlanes data ++ tail) = data.biomes.flatMap toBigEndian ∧
      sliceAt (chunkBlockCount + chunkNibbleBytes + chunkNibbleBytes + chunkNibbleBytes +
        biomeWordBytes) chunkColumnCount (encodePlanes data ++ tail) = data.heightMap := by
  rw [encodePlanes_append]
  have hseg (k : Nat) (hk : k < (planeSegments data tail).length) :=
    sliceAt_flatten (planeSegments data tail) k hk
  refine ⟨?_, ?_, ?_, ?_, ?_, ?_⟩
  · simpa [planeSegments, hp.states] using hseg 0 (by simp [planeSegments])
  · simpa [planeSegments, hp.states] using hseg 1 (by simp [planeSegments])
  · simpa [planeSegments, hp.states, hp.skyLight] using hseg 2 (by simp [planeSegments])
  · simpa [planeSegments, hp.states, hp.skyLight, hp.blockLight, ← Nat.add_assoc] using
      hseg 3 (by simp [planeSegments])
  · simpa [planeSegments, hp.states, hp.skyLight, hp.blockLight, length_toBigEndian, hp.biomes,
      ← Nat.add_assoc] using
      hseg 4 (by simp [planeSegments])
  · simpa [planeSegments, hp.states, hp.skyLight, hp.blockLight, length_toBigEndian, hp.biomes,
      hp.heightMap, ← Nat.add_assoc] using hseg 5 (by simp [planeSegments])

theorem drop_planes : (encodePlanes data ++ tail).drop (chunkBlockCount + chunkNibbleBytes +
    chunkNibbleBytes + chunkNibbleBytes + biomeWordBytes + chunkColumnCount) = tail :=
  List.drop_left' (length_encodePlanes hp)

-- The planes are read at fixed offsets; only the tail decides whether the decoder accepts.
theorem decodeSemanticPayload_planes (hlen : 4 ≤ tail.length) :
    decodeSemanticPayload (encodePlanes data ++ tail) semanticPayloadVersion =
      (readTail semanticPayloadVersion tail >>= fun r =>
        readExtensions r.2 >>= fun extensions =>
          .ok ({ data with extraData := r.1.1, chestBlockEntities := r.1.2 }, extensions)) := by
  obtain ⟨hids, hnibbles, hsky, hblock, hbiomes, hheights⟩ := sliceAt_planes hp tail
  have hlong : (decide (semanticPrefixBytes + biomeWordBytes + chunkColumnCount + 4 ≤
      (encodePlanes data ++ tail).length)) = true := by
    rw [List.length_append, length_encodePlanes hp]
    exact decide_eq_true (by omega)
  have hv : biomeBytesOf semanticPayloadVersion = .ok biomeWordBytes := rfl
  have hw : decodeBiomes semanticPayloadVersion (data.biomes.flatMap toBigEndian) =
      .ok data.biomes := congrArg Except.ok (bigEndianWords_flatMap data.biomes)
  simp only [decodeSemanticPayload, hv, ok_bind, hlong, ensure, if_true, hids, hnibbles, hsky,
    hblock, hbiomes, hw, hheights, drop_planes hp tail, decodeStates_encode hp.states hp.legacy]
  rfl

end

theorem readTail_encoded {data : ChunkData} {extraCount chestCount : UInt32} {extra : List Bytes}
    (hec : extraCount.toNat = data.extraData.size)
    (hex : data.extraData.toList.mapM encodeExtra = .ok extra)
    (hcc : chestCount.toNat = data.chestBlockEntities.length)
    (hv : ∀ entity ∈ data.chestBlockEntities, validateChestBlockEntity entity = .ok ())
    (hb : data.chestBlockEntities.length ≤ chunkBlockCount) :
    Reads (readTail semanticPayloadVersion) ((toLE 4 extraCount.toNat ++ extra.flatten) ++
      (toLE 4 chestCount.toNat ++ data.chestBlockEntities.flatMap encodeChest))
      (data.extraData, data.chestBlockEntities) := by
  refine (reads_extra hec hex).bind ?_
  exact (reads_chests hcc hb hv).bind_pure (data.extraData, ·)

theorem decode_encodeSemanticPayload {data : ChunkData} {extensions : List ExtensionSection}
    {payload : Bytes} (h : encodeSemanticPayload data extensions = .ok payload)
    (hb : data.chestBlockEntities.length ≤ chunkBlockCount) :
    decodeSemanticPayload payload semanticPayloadVersion = .ok (data, extensions) := by
  obtain ⟨hp, hchests, -, extraCount, chestCount, extra, sections, hec, hex, hcc, hsec, rfl⟩ :=
    encodeSemanticPayload_cases h
  rw [decodeSemanticPayload_planes hp _ (by simp), ← List.append_assoc,
    readTail_encoded hec hex hcc hchests hb, ok_bind, readExtensions_flatten hsec, ok_bind]

theorem decode_encodeSemanticPayload_overflow {data : ChunkData}
    {extensions : List ExtensionSection} {payload : Bytes}
    (h : encodeSemanticPayload data extensions = .ok payload)
    (hb : chunkBlockCount < data.chestBlockEntities.length) :
    decodeSemanticPayload payload semanticPayloadVersion =
      .error (.corruptChunkPayload "chest block-entity count exceeds block count") := by
  obtain ⟨hp, -, -, extraCount, chestCount, extra, sections, hec, hex, hcc, -, rfl⟩ :=
    encodeSemanticPayload_cases h
  have ht (rest : Bytes) : readTail semanticPayloadVersion ((toLE 4 extraCount.toNat ++
      extra.flatten) ++ ((toLE 4 chestCount.toNat ++ data.chestBlockEntities.flatMap encodeChest) ++
        rest)) = .error (.corruptChunkPayload "chest block-entity count exceeds block count") := by
    rw [readTail, (reads_extra hec hex).run, List.append_assoc]
    exact Reader.bind_error (readChests_overflow (hcc ▸ hb) _)
  rw [decodeSemanticPayload_planes hp _ (by simp), ht, error_bind]

end Cobblestone.Storage
