import Cobblestone.Metadata.CodecExact

namespace Cobblestone.Metadata

open Lib Storage Region Wire

abbrev generatorStateVersion : UInt16 := 1
abbrev generatorStateHeaderBytes : Nat := 48
abbrev maxGeneratorStateBytes : Nat := 64 * 1024 * 1024
abbrev generatorStateMagic : Bytes := [0x43, 0x42, 0x47, 0x53]

def generatorStateFields (worldUuid : WorldUuid) (generatorId payloadLen payloadCrc : UInt32) :
    List (FieldAt UInt8) :=
  [(0, generatorStateMagic),
    u16Field 4 generatorStateVersion,
    (8, worldUuid.val),
    u32Field 24 generatorId,
    u32Field 28 payloadLen,
    u32Field 32 payloadCrc]

variable (crates : Crates)

def encodeGeneratorState (worldUuid : WorldUuid) (generatorId : UInt32) (payload : Bytes) :
    Except MetadataError Bytes :=
  if payload.length < UInt32.size then
    .ok (sealedHeader crates generatorStateHeaderBytes 36 (generatorStateFields worldUuid
      generatorId (UInt32.ofNat payload.length) (crates.crc32c payload)) ++ payload)
  else .error (.generatorStateTooLarge payload.length maxGeneratorStateBytes)

-- What `write_generator_state` puts into the file.
def generatorStateFile (worldUuid : WorldUuid) (generatorId : UInt32) (payload : Bytes) :
    Except MetadataError Bytes := do
  ensure (payload.length ≤ maxGeneratorStateBytes)
    (.generatorStateTooLarge payload.length maxGeneratorStateBytes)
  encodeGeneratorState crates worldUuid generatorId payload

def decodeGeneratorState (encoded : Bytes) (worldUuid : WorldUuid) (generatorId : UInt32) :
    Except MetadataError Bytes := do
  ensure (generatorStateHeaderBytes ≤ encoded.length) (.invalidGeneratorState "truncated header")
  ensure (sliceAt 0 4 encoded = generatorStateMagic) (.invalidGeneratorState "bad magic")
  ensure (readU16 encoded 4 = generatorStateVersion) (.invalidGeneratorState "unsupported version")
  ensure (sliceAt 6 2 encoded = [0, 0] && sliceAt 40 8 encoded = List.replicate 8 0)
    (.invalidGeneratorState "reserved bytes are nonzero")
  ensure (crates.crc32c (encoded.take 36) = readU32 encoded 36)
    (.invalidGeneratorState "header checksum mismatch")
  ensure (sliceAt 8 16 encoded = worldUuid.val) .worldMismatch
  ensure (readU32 encoded 24 = generatorId)
    (.generatorStateGeneratorMismatch generatorId (readU32 encoded 24))
  let payloadLen := (readU32 encoded 28).toNat
  ensure (payloadLen ≤ maxGeneratorStateBytes)
    (.generatorStateTooLarge payloadLen maxGeneratorStateBytes)
  ensure (encoded.length = generatorStateHeaderBytes + payloadLen)
    (.invalidGeneratorState "payload length mismatch")
  let payload := encoded.drop generatorStateHeaderBytes
  ensure (crates.crc32c payload = readU32 encoded 32)
    (.invalidGeneratorState "payload checksum mismatch")
  pure payload

-- What `read_generator_state` gives for a file with these bytes.
def readGeneratorStateFile (encoded : Bytes) (worldUuid : WorldUuid) (generatorId : UInt32) :
    Except MetadataError Bytes := do
  let max := generatorStateHeaderBytes + maxGeneratorStateBytes
  ensure (encoded.length ≤ max) (.generatorStateTooLarge encoded.length max)
  decodeGeneratorState crates encoded worldUuid generatorId

@[mk_iff]
structure GeneratorHeaderReads (worldUuid : WorldUuid) (generatorId payloadLen payloadCrc : UInt32)
    (header : Bytes) : Prop where
  magic : sliceAt 0 4 header = generatorStateMagic
  version : readU16 header 4 = generatorStateVersion
  worldUuid : sliceAt 8 16 header = worldUuid.val
  generatorId : readU32 header 24 = generatorId
  payloadLen : readU32 header 28 = payloadLen
  payloadCrc : readU32 header 32 = payloadCrc

variable {crates} {worldUuid : WorldUuid} {generatorId payloadLen payloadCrc : UInt32}
  {payload encoded : Bytes}

theorem generatorStateFields_fit (worldUuid : WorldUuid) (generatorId payloadLen payloadCrc : UInt32) :
    Fits 36 (generatorStateFields worldUuid generatorId payloadLen payloadCrc) := by
  have h : Ascending 0 36 (generatorStateFields worldUuid generatorId payloadLen payloadCrc) := by
    simp [generatorStateFields, Ascending, FieldAt.stop, u16Field, u32Field, worldUuid.property]
  exact h.fits

theorem holds_generatorStateFields_iff {header : Bytes} (h : 48 ≤ header.length) :
    (∀ f ∈ generatorStateFields worldUuid generatorId payloadLen payloadCrc, Holds header f) ↔
      GeneratorHeaderReads worldUuid generatorId payloadLen payloadCrc header := by
  have huuid : Holds header (8, worldUuid.val) ↔ sliceAt 8 16 header = worldUuid.val := by
    rw [Holds, worldUuid.property]
  simp (disch := omega) only [generatorStateFields, List.forall_mem_cons, List.not_mem_nil,
    false_imp_iff, implies_true, and_true, holds_u16_iff, holds_u32_iff, huuid,
    generatorHeaderReads_iff]
  rfl

theorem decode_generatorStateFile (h : payload.length ≤ maxGeneratorStateBytes) :
    ∃ encoded, generatorStateFile crates worldUuid generatorId payload = .ok encoded ∧
      decodeGeneratorState crates encoded worldUuid generatorId = .ok payload := by
  have hsmall : payload.length < UInt32.size := h.trans_lt (by decide)
  have hlen := UInt32.toNat_ofNat_of_lt' hsmall
  have hfit := generatorStateFields_fit worldUuid generatorId (UInt32.ofNat payload.length)
    (crates.crc32c payload)
  have hk : 36 + 4 ≤ generatorStateHeaderBytes := by decide
  have hlength := length_sealedHeader crates hk hfit
  have hcrc := sealedHeader_crc crates hk hfit
  have hreads := (holds_generatorStateFields_iff (by rw [hlength])).mp fun f hf =>
    holds_sealedHeader crates hk hfit hf
  have hpad := sliceAt_sealedHeader_gap crates (o := 6) (m := 2) hk hfit (by decide)
    (.inl (by decide)) (by simp [generatorStateFields, FieldAt.stop, u16Field, u32Field])
  have htail := sliceAt_sealedHeader_gap crates (o := 40) (m := 8) hk hfit (by decide)
    (.inr (by decide)) fun f hf => .inr ((hfit.inside f hf).trans (by decide))
  have hfile : generatorStateFile crates worldUuid generatorId payload =
      .ok (sealedHeader crates generatorStateHeaderBytes 36 (generatorStateFields worldUuid
        generatorId (UInt32.ofNat payload.length) (crates.crc32c payload)) ++ payload) := by
    simp only [generatorStateFile, encodeGeneratorState, h, hsmall, decide_true, ensure_true,
      ok_bind, if_true]
  refine ⟨_, hfile, ?_⟩
  generalize sealedHeader crates generatorStateHeaderBytes 36 (generatorStateFields worldUuid
    generatorId (UInt32.ofNat payload.length) (crates.crc32c payload)) = header at *
  have hlong : decide (generatorStateHeaderBytes ≤ (header ++ payload).length) = true := by
    rw [List.length_append, hlength]
    exact decide_eq_true (Nat.le_add_right _ _)
  have htotal : decide ((header ++ payload).length =
      generatorStateHeaderBytes + payload.length) = true := by
    rw [List.length_append, hlength]
    exact decide_eq_true rfl
  have hhead {o n : Nat} (hb : o + n ≤ 48) : sliceAt o n (header ++ payload) = sliceAt o n header :=
    sliceAt_append_left (by rwa [hlength])
  have htake : (header ++ payload).take 36 = header.take 36 := hhead (o := 0) (n := 36) (by decide)
  have hword (o : Nat) (hb : o + 4 ≤ 48) : readU32 (header ++ payload) o = readU32 header o := by
    rw [readU32, hhead hb, readU32]
  have hv : readU16 (header ++ payload) 4 = readU16 header 4 := by
    rw [readU16, hhead (by decide), readU16]
  have hzeros : List.replicate 2 (0 : UInt8) = [0, 0] := rfl
  simp only [decodeGeneratorState, hlong, hhead (show 0 + 4 ≤ 48 by decide),
    hhead (show 6 + 2 ≤ 48 by decide), hhead (show 40 + 8 ≤ 48 by decide),
    hhead (show 8 + 16 ≤ 48 by decide), hword 24 (by decide), hword 28 (by decide),
    hword 32 (by decide), hword 36 (by decide), hv, htake, hreads.magic, hreads.version,
    hreads.worldUuid, hreads.generatorId, hreads.payloadLen, hreads.payloadCrc, hpad, htail, hzeros,
    hcrc, hlen, h, htotal, List.drop_left' hlength, decide_true, Bool.and_self, ensure_true, ok_bind]
  rfl

theorem generatorStateFile_decoded
    (h : decodeGeneratorState crates encoded worldUuid generatorId = .ok payload) :
    payload.length ≤ maxGeneratorStateBytes ∧
      encoded.length = generatorStateHeaderBytes + payload.length ∧
      generatorStateFile crates worldUuid generatorId payload = .ok encoded := by
  simp only [decodeGeneratorState, bind_ok_iff, ensure_ok_iff, exists_const, decide_eq_true_eq,
    Bool.and_eq_true] at h
  obtain ⟨hlong, hmagic, hversion, ⟨hpad, htail⟩, hcrc, huuid, hid, hbound, htotal, hpayloadCrc,
    hpayload⟩ := h
  cases hpayload
  have hlength : (encoded.take generatorStateHeaderBytes).length = 48 :=
    List.length_take_of_le hlong
  have hsplit := List.take_append_drop generatorStateHeaderBytes encoded
  have hlen : (encoded.drop generatorStateHeaderBytes).length = (readU32 encoded 28).toNat := by
    rw [List.length_drop, htotal]
    omega
  have hhead {o n : Nat} (hb : o + n ≤ 48) :
      sliceAt o n (encoded.take generatorStateHeaderBytes) = sliceAt o n encoded := by
    conv_rhs => rw [← hsplit]
    exact (sliceAt_append_left (by rwa [hlength])).symm
  have hword (o : Nat) (hb : o + 4 ≤ 48) :
      readU32 (encoded.take generatorStateHeaderBytes) o = readU32 encoded o := by
    rw [readU32, hhead hb, readU32]
  have hreads : GeneratorHeaderReads worldUuid generatorId
      (UInt32.ofNat (encoded.drop generatorStateHeaderBytes).length)
      (crates.crc32c (encoded.drop generatorStateHeaderBytes))
      (encoded.take generatorStateHeaderBytes) := by
    constructor
    · exact (hhead (by decide)).trans hmagic
    · rw [readU16, hhead (by decide), ← readU16, hversion]
    · exact (hhead (by decide)).trans huuid
    · rw [hword 24 (by decide), hid]
    · rw [hword 28 (by decide), hlen, UInt32.ofNat_toNat]
    · rw [hword 32 (by decide), hpayloadCrc]
  have hfit := generatorStateFields_fit worldUuid generatorId
    (UInt32.ofNat (encoded.drop generatorStateHeaderBytes).length)
    (crates.crc32c (encoded.drop generatorStateHeaderBytes))
  have hpref : (encoded.take generatorStateHeaderBytes).take 36 = encoded.take 36 :=
    hhead (o := 0) (n := 36) (by decide)
  have hsealed := sealedHeader_eq crates (k := 36) (by decide) hfit hlength
    ((holds_generatorStateFields_iff (by rw [hlength])).mpr hreads)
    (by rw [hpref, hword 36 (by decide), hcrc]) fun i hi hout hapart => by
      have hgap : 6 ≤ i ∧ i < 8 ∨ 40 ≤ i := by
        simp [generatorStateFields, FieldAt.stop, u16Field, u32Field, worldUuid.property] at hapart
        omega
      rcases hgap with ⟨hl, hr⟩ | hl
      · have hslice := (hhead (o := 6) (n := 2) (by decide)).trans hpad
        rw [getElem?_of_sliceAt (v := [0, 0]) hslice hl (by simpa using hr)]
        have hzeros : ([0, 0] : Bytes) = List.replicate 2 0 := rfl
        rw [hzeros, List.getElem?_replicate, if_pos (by omega)]
      · have hslice := (hhead (o := 40) (n := 8) (by decide)).trans htail
        rw [getElem?_of_sliceAt (v := List.replicate 8 0) (by simpa using hslice) hl
          (by simpa using hi), List.getElem?_replicate, if_pos (by omega)]
  refine ⟨hlen ▸ hbound, by rw [hlen, htotal], ?_⟩
  have hsmall : (encoded.drop generatorStateHeaderBytes).length < UInt32.size := by
    rw [hlen]
    exact (readU32 encoded 28).toNat_lt
  have hfits : (encoded.drop generatorStateHeaderBytes).length ≤ maxGeneratorStateBytes := by
    rwa [hlen]
  simp only [generatorStateFile, encodeGeneratorState, hfits, hsmall, decide_true, ensure_true,
    ok_bind, if_true]
  rw [hsealed, hsplit]

theorem readGeneratorStateFile_ok_iff :
    readGeneratorStateFile crates encoded worldUuid generatorId = .ok payload ↔
      decodeGeneratorState crates encoded worldUuid generatorId = .ok payload := by
  simp only [readGeneratorStateFile, bind_ok_iff, ensure_ok_iff, exists_const, decide_eq_true_eq]
  refine ⟨And.right, fun h => ⟨?_, h⟩⟩
  obtain ⟨hbound, hlen, -⟩ := generatorStateFile_decoded h
  rw [hlen]
  exact Nat.add_le_add_left hbound _

theorem metadata_containers_exact (crates : Crates) :
    (∀ metadata, validateMetadata metadata = .ok () →
      ∃ encoded, encodeWorldMetadata crates metadata = .ok encoded ∧
        decodeWorldMetadata crates encoded = .ok metadata) ∧
    (∀ encoded metadata, decodeWorldMetadata crates encoded = .ok metadata →
      payloadVersion encoded = worldMetadataPayloadVersion ∧
          encodeWorldMetadata crates metadata = .ok encoded ∨
        payloadVersion encoded = legacyWorldMetadataPayloadVersion ∧
          metadata.dimension = .overworld ∧
          encodeWorldMetadata crates metadata = .ok (asVersion2 crates encoded) ∧
          payloadVersion (asVersion2 crates encoded) = worldMetadataPayloadVersion ∧
          decodeWorldMetadata crates (asVersion2 crates encoded) = .ok metadata) ∧
    (∀ worldUuid generatorId payload, payload.length ≤ maxGeneratorStateBytes →
      ∃ encoded, generatorStateFile crates worldUuid generatorId payload = .ok encoded ∧
        readGeneratorStateFile crates encoded worldUuid generatorId = .ok payload) ∧
    (∀ worldUuid generatorId payload encoded,
      readGeneratorStateFile crates encoded worldUuid generatorId = .ok payload →
        generatorStateFile crates worldUuid generatorId payload = .ok encoded) := by
  refine ⟨fun metadata h => metadata_round_trip h, fun encoded metadata h => metadata_reencoded h,
    fun worldUuid generatorId payload h => ?_, fun worldUuid generatorId payload encoded h => ?_⟩
  · obtain ⟨encoded, hfile, hdecode⟩ := decode_generatorStateFile h
    exact ⟨encoded, hfile, readGeneratorStateFile_ok_iff.mpr hdecode⟩
  · exact (generatorStateFile_decoded (readGeneratorStateFile_ok_iff.mp h)).2.2

theorem metadata_containers_exact_fresh :
    ∃ encoded, encodeWorldMetadata Crates.reference freshMetadata = .ok encoded ∧
      decodeWorldMetadata Crates.reference encoded = .ok freshMetadata :=
  (metadata_containers_exact Crates.reference).1 freshMetadata freshMetadata_valid

end Cobblestone.Metadata
