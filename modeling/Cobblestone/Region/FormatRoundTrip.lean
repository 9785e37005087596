import Cobblestone.Region.Format

namespace Cobblestone.Region

open Lib World Storage

variable (crates : Crates)

section Header

variable (worldUuid : WorldUuid) (coord : RegionCoord)

theorem regionHeaderFields_fit : Fits (regionHeaderBytes - 4) (regionHeaderFields worldUuid coord) := by
  have hu := worldUuid.property
  constructor
  · simp [regionHeaderFields, Apart, FieldAt.stop, u16Field, u32Field, u64Field, i32Field, hu]
  · simp [regionHeaderFields, FieldAt.stop, u16Field, u32Field, u64Field, i32Field,
      regionHeaderBytes, hu]

theorem length_encodeRegionHeader : (encodeRegionHeader crates worldUuid coord).length = 64 :=
  length_sealedBlock crates (by decide) (regionHeaderFields_fit worldUuid coord)

theorem validate_encodeRegionHeader :
    validateRegionHeader crates (encodeRegionHeader crates worldUuid coord) worldUuid coord =
      .ok () := by
  have hfit := regionHeaderFields_fit worldUuid coord
  have hn : 4 ≤ regionHeaderBytes := by decide
  have hmagic : sliceAt 0 4 (encodeRegionHeader crates worldUuid coord) = regionMagic :=
    sliceAt_sealedBlock crates hn hfit (v := regionMagic) (by simp [regionHeaderFields])
  have hversion : readU16 (encodeRegionHeader crates worldUuid coord) 4 = storageFormatVersion :=
    readU16_sealedBlock crates hn hfit (by simp [regionHeaderFields])
  have hlength : readU16 (encodeRegionHeader crates worldUuid coord) 6 = 64 :=
    readU16_sealedBlock crates hn hfit (by simp [regionHeaderFields])
  have hx : readI32 (encodeRegionHeader crates worldUuid coord) 8 = coord.x :=
    readI32_sealedBlock crates hn hfit (by simp [regionHeaderFields])
  have hz : readI32 (encodeRegionHeader crates worldUuid coord) 12 = coord.z :=
    readI32_sealedBlock crates hn hfit (by simp [regionHeaderFields])
  have huuid : sliceAt 16 16 (encodeRegionHeader crates worldUuid coord) = worldUuid.val := by
    have h := sliceAt_sealedBlock crates hn hfit (o := 16) (v := worldUuid.val)
      (by simp [regionHeaderFields])
    rwa [worldUuid.property] at h
  have hedge : readU16 (encodeRegionHeader crates worldUuid coord) 32 = 16 :=
    readU16_sealedBlock crates hn hfit (by simp [regionHeaderFields])
  have hpage : readU16 (encodeRegionHeader crates worldUuid coord) 34 = 16384 :=
    readU16_sealedBlock crates hn hfit (by simp [regionHeaderFields])
  have hcount : (encodeRegionHeader crates worldUuid coord).getD 36 0 = 2 :=
    getD_sealedBlock crates hn hfit (by simp [regionHeaderFields])
  have harea : readU64 (encodeRegionHeader crates worldUuid coord) 40 = 32832 :=
    readU64_sealedBlock crates hn hfit (by simp [regionHeaderFields])
  have hcrc : crates.crc32c ((encodeRegionHeader crates worldUuid coord).take 60) =
      readU32 (encodeRegionHeader crates worldUuid coord) 60 := sealedBlock_crc crates hn hfit
  simp only [validateRegionHeader, hmagic, hversion, hlength, hx, hz, huuid, hedge, hpage, hcount,
    harea, hcrc, decide_true, ensure_true, ok_bind]
  rfl

end Header

section Page

variable (index : RegionIndex) (coord : RegionCoord)

theorem slotFields_bounds {index : RegionIndex} {slot : Fin indexEntryCount} {f : FieldAt UInt8}
    (h : f ∈ slotFields index slot) : entryBase slot ≤ f.1 ∧ f.stop ≤ entryBase slot + 32 := by
  unfold slotFields at h
  split at h
  · cases h
  · simp only [entryFields, List.mem_cons, List.not_mem_nil, or_false] at h
    rcases h with rfl | rfl | rfl | rfl | rfl <;> simp

theorem slotFields_apart {index : RegionIndex} {slot : Fin indexEntryCount} :
    (slotFields index slot).Pairwise Apart := by
  unfold slotFields
  split
  · exact List.Pairwise.nil
  · simp [entryFields, Apart]

theorem entryBase_le (slot : Fin indexEntryCount) : entryBase slot + 32 ≤ 10264 := by
  have := slot.isLt
  simp only [entryBase, indexHeaderBytes, indexEntryBytes, indexEntryCount] at *
  omega

theorem entryBase_lt {a b : Fin indexEntryCount} (h : a < b) : entryBase a + 40 ≤ entryBase b := by
  have : a.val < b.val := h
  simp only [entryBase, indexHeaderBytes, indexEntryBytes]
  omega

theorem indexHeaderFields_bounds {generation : UInt64} {coord : RegionCoord} {f : FieldAt UInt8}
    (h : f ∈ indexHeaderFields generation coord) : f.stop ≤ 28 := by
  simp only [indexHeaderFields, List.mem_cons, List.not_mem_nil, or_false] at h
  rcases h with rfl | rfl | rfl | rfl | rfl | rfl | rfl <;>
    simp [FieldAt.stop, u16Field, u32Field, u64Field, i32Field]

theorem indexPageFields_fit : Fits (indexPageBytes - 4) (indexPageFields index coord) := by
  constructor
  · rw [indexPageFields, List.pairwise_append]
    refine ⟨by simp [indexHeaderFields, Apart, FieldAt.stop, u16Field, u32Field, u64Field, i32Field],
      ?_, ?_⟩
    · rw [List.pairwise_flatMap]
      refine ⟨fun slot _ => slotFields_apart, ?_⟩
      refine (List.pairwise_lt_finRange indexEntryCount).imp ?_
      intro a b hab f hf g hg
      have hf := slotFields_bounds hf
      have hg := slotFields_bounds hg
      have hbase := entryBase_lt hab
      exact .inl (by omega)
    · intro f hf g hg
      obtain ⟨slot, -, hg⟩ := List.mem_flatMap.mp hg
      have hf := indexHeaderFields_bounds hf
      have hg := slotFields_bounds hg
      have : 32 ≤ entryBase slot := Nat.le_add_right _ _
      exact .inl (by omega)
  · intro f hf
    simp only [indexPageBytes]
    rcases List.mem_append.mp hf with hf | hf
    · have := indexHeaderFields_bounds hf
      omega
    · obtain ⟨slot, -, hf⟩ := List.mem_flatMap.mp hf
      have hf := slotFields_bounds hf
      have := entryBase_le slot
      omega

theorem length_encodeIndexPage : (encodeIndexPage crates index coord).length = indexPageBytes :=
  length_sealedBlock crates (by decide) (indexPageFields_fit index coord)

theorem indexPageHeaderIsValid_encode :
    indexPageHeaderIsValid crates (encodeIndexPage crates index coord) coord = true := by
  have hfit := indexPageFields_fit index coord
  have hn : 4 ≤ indexPageBytes := by decide
  have hmem {f : FieldAt UInt8} (h : f ∈ indexHeaderFields index.generation coord) :
      f ∈ indexPageFields index coord := List.mem_append_left _ h
  have hmagic : sliceAt 0 4 (encodeIndexPage crates index coord) = indexMagic :=
    sliceAt_sealedBlock crates hn hfit (v := indexMagic) (hmem (by simp [indexHeaderFields]))
  have hversion : readU16 (encodeIndexPage crates index coord) 4 = storageFormatVersion :=
    readU16_sealedBlock crates hn hfit (hmem (by simp [indexHeaderFields]))
  have hbytes : readU16 (encodeIndexPage crates index coord) 6 = 16384 :=
    readU16_sealedBlock crates hn hfit (hmem (by simp [indexHeaderFields]))
  have hx : readI32 (encodeIndexPage crates index coord) 16 = coord.x :=
    readI32_sealedBlock crates hn hfit (hmem (by simp [indexHeaderFields]))
  have hz : readI32 (encodeIndexPage crates index coord) 20 = coord.z :=
    readI32_sealedBlock crates hn hfit (hmem (by simp [indexHeaderFields]))
  have hcount : readU32 (encodeIndexPage crates index coord) 24 = 256 :=
    readU32_sealedBlock crates hn hfit (hmem (by simp [indexHeaderFields]))
  have hcrc : crates.crc32c ((encodeIndexPage crates index coord).take (indexPageBytes - 4)) =
      readU32 (encodeIndexPage crates index coord) (indexPageBytes - 4) :=
    sealedBlock_crc crates hn hfit
  simp only [indexPageHeaderIsValid, hmagic, hversion, hbytes, hx, hz, hcount, hcrc, decide_true,
    Bool.and_true]
  rfl

theorem readU64_generation :
    readU64 (encodeIndexPage crates index coord) 8 = index.generation :=
  readU64_sealedBlock crates (by decide) (indexPageFields_fit index coord)
    (List.mem_append_left _ (by simp [indexHeaderFields]))

variable {index}

theorem decodeEntry_none {slot : Fin indexEntryCount} (h : index.entries slot = none) :
    decodeEntry (encodeIndexPage crates index coord) slot = some none := by
  have hzero : readU64 (encodeIndexPage crates index coord) (entryBase slot) = 0 := by
    apply readU64_sealedBlock_zero crates (by decide) (indexPageFields_fit index coord)
    · have := entryBase_le slot
      simp only [indexPageBytes]
      omega
    · intro f hf
      rcases List.mem_append.mp hf with hf | hf
      · have := indexHeaderFields_bounds hf
        have : 32 ≤ entryBase slot := Nat.le_add_right _ _
        exact .inr (by omega)
      · obtain ⟨other, -, hf⟩ := List.mem_flatMap.mp hf
        have hb := slotFields_bounds hf
        rcases lt_trichotomy slot other with hlt | rfl | hlt
        · have := entryBase_lt hlt
          exact .inl (by omega)
        · simp [slotFields, h] at hf
        · have := entryBase_lt hlt
          exact .inr (by omega)
  simp only [decodeEntry, hzero, if_true]

theorem decodeEntry_some {slot : Fin indexEntryCount} {entry : IndexEntry}
    (h : index.entries slot = some entry)
    (hv : entryIsValid entry.recordOffset entry.recordLen = true) :
    decodeEntry (encodeIndexPage crates index coord) slot = some (some entry) := by
  have hfit := indexPageFields_fit index coord
  have hn : 4 ≤ indexPageBytes := by decide
  have hmem {f : FieldAt UInt8} (hf : f ∈ entryFields slot entry) :
      f ∈ indexPageFields index coord :=
    List.mem_append_right _ (List.mem_flatMap.mpr ⟨slot, List.mem_finRange slot, by
      rwa [slotFields, h]⟩)
  have hoffset : readU64 (encodeIndexPage crates index coord) (entryBase slot) = entry.recordOffset :=
    readU64_sealedBlock crates hn hfit (hmem (by simp [entryFields]))
  have hlen : readU32 (encodeIndexPage crates index coord) (entryBase slot + 8) = entry.recordLen :=
    readU32_sealedBlock crates hn hfit (hmem (by simp [entryFields]))
  have hcrc : readU32 (encodeIndexPage crates index coord) (entryBase slot + 12) =
      entry.recordCrc32c :=
    readU32_sealedBlock crates hn hfit (hmem (by simp [entryFields]))
  have hterrain : readU64 (encodeIndexPage crates index coord) (entryBase slot + 16) =
      entry.terrainRevision :=
    readU64_sealedBlock crates hn hfit (hmem (by simp [entryFields]))
  have hlight : readU64 (encodeIndexPage crates index coord) (entryBase slot + 24) =
      entry.lightRevision :=
    readU64_sealedBlock crates hn hfit (hmem (by simp [entryFields]))
  have hne : entry.recordOffset ≠ 0 := by
    intro hz
    simp [entryIsValid, hz] at hv
  simp only [decodeEntry, hoffset, hlen, hcrc, hterrain, hlight, hne, hv, if_false, if_true]

def RegionIndex.Valid (index : RegionIndex) : Prop :=
  ∀ slot entry, index.entries slot = some entry →
    entryIsValid entry.recordOffset entry.recordLen = true

theorem decode_encodeIndexPage (hv : index.Valid) :
    decodeIndexPage crates (encodeIndexPage crates index coord) coord = some index := by
  have hentry (slot : Fin indexEntryCount) :
      decodeEntry (encodeIndexPage crates index coord) slot = some (index.entries slot) := by
    cases h : index.entries slot with
    | none => exact decodeEntry_none crates coord h
    | some entry => exact decodeEntry_some crates coord h (hv slot entry h)
  rw [decodeIndexPage, if_pos ⟨indexPageHeaderIsValid_encode crates index coord,
    fun slot => by rw [hentry slot]; rfl⟩]
  simp only [readU64_generation, hentry, Option.getD_some]

end Page

end Cobblestone.Region
