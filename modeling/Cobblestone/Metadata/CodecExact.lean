import Cobblestone.Metadata.Codec

namespace Cobblestone.Metadata

open Lib Storage Region Wire

def payloadFieldsOf (metadata : WorldMetadata) : List (FieldAt UInt8) :=
  metadataPayloadFields metadata (UInt32.ofNat (len metadata.name))
    (UInt32.ofNat metadata.generatorSettings.length)

def payloadLength (metadata : WorldMetadata) : Nat :=
  payloadFixedBytes + len metadata.name + metadata.generatorSettings.length

-- The bytes of a payload that says exactly what the metadata says.
structure PayloadOf (metadata : WorldMetadata) (payload : Bytes) : Prop where
  length : payload.length = payloadLength metadata
  fields : ∀ f ∈ payloadFieldsOf metadata, Holds payload f
  reserved : sliceAt 7 1 payload = [0]
  padding : sliceAt 46 2 payload = [0, 0]

structure MetadataValid (metadata : WorldMetadata) : Prop where
  named : 0 < len metadata.name
  nameLen : len metadata.name ≤ maxWorldNameBytes
  settingsLen : metadata.generatorSettings.length ≤ maxGeneratorSettingsBytes
  generation : metadata.generation ≠ 0
  spawnY : yInRange metadata.spawnY = true

variable {metadata : WorldMetadata} {payload : Bytes}

theorem validateMetadata_ok_iff : validateMetadata metadata = .ok () ↔ MetadataValid metadata := by
  simp only [validateMetadata, bind_ok_iff, ensure_ok_iff, exists_const, decide_eq_true_eq,
    bne_iff_ne]
  constructor
  · rintro ⟨h0, h1, h2, h3, h4⟩
    exact ⟨h0, h1, h2, h3, h4⟩
  · exact fun h => ⟨h.named, h.nameLen, h.settingsLen, h.generation, h.spawnY⟩

theorem payloadFieldsOf_ascending (metadata : WorldMetadata) :
    Ascending 0 (payloadLength metadata) (payloadFieldsOf metadata) := by
  simp [payloadFieldsOf, metadataPayloadFields, payloadLength, Ascending, FieldAt.stop, u16Field,
    u32Field, u64Field, i32Field, i64Field, metadata.worldUuid.property, len, payloadFixedBytes]

theorem payloadFieldsOf_fit (metadata : WorldMetadata) :
    Fits (List.replicate (payloadLength metadata) (0 : UInt8)).length (payloadFieldsOf metadata) := by
  rw [List.length_replicate]
  exact (payloadFieldsOf_ascending metadata).fits

theorem PayloadOf.put (metadata : WorldMetadata) :
    PayloadOf metadata
      (putFields (payloadFieldsOf metadata) (List.replicate (payloadLength metadata) 0)) where
  length := by
    rw [length_putFields (payloadFieldsOf_fit metadata).inside, List.length_replicate]
  fields f hf := sliceAt_putFields (payloadFieldsOf_fit metadata) hf
  reserved := by
    rw [sliceAt_putFields_apart (payloadFieldsOf_fit metadata).inside, sliceAt_replicate]
    · rfl
    · rw [payloadLength, payloadFixedBytes]
      omega
    · simp [payloadFieldsOf, metadataPayloadFields, FieldAt.stop, u16Field, u32Field, u64Field,
        i32Field, i64Field, payloadFixedBytes]
      omega
  padding := by
    rw [sliceAt_putFields_apart (payloadFieldsOf_fit metadata).inside, sliceAt_replicate]
    · rfl
    · rw [payloadLength, payloadFixedBytes]
      omega
    · simp [payloadFieldsOf, metadataPayloadFields, FieldAt.stop, u16Field, u32Field, u64Field,
        i32Field, i64Field, metadata.worldUuid.property, payloadFixedBytes]
      omega

theorem PayloadOf.eq (h : PayloadOf metadata payload) :
    putFields (payloadFieldsOf metadata) (List.replicate (payloadLength metadata) 0) = payload := by
  refine putFields_eq (by rw [List.length_replicate, h.length]) (payloadFieldsOf_fit metadata)
    h.fields fun i hi hapart => ?_
  have hlen := h.length
  rw [payloadLength, payloadFixedBytes] at hlen
  have hgap : i = 7 ∨ i = 46 ∨ i = 47 := by
    simp [payloadFieldsOf, metadataPayloadFields, FieldAt.stop, u16Field, u32Field, u64Field,
      i32Field, i64Field, metadata.worldUuid.property, payloadFixedBytes, len] at hapart hlen
    omega
  have hzero : (List.replicate (payloadLength metadata) (0 : UInt8))[i]? = some 0 := by
    rw [List.getElem?_replicate, if_pos (h.length ▸ hi)]
  rw [hzero]
  rcases hgap with rfl | rfl | rfl
  · exact getElem?_of_sliceAt (v := [0]) h.reserved (by decide) (by decide)
  · exact getElem?_of_sliceAt (v := [0, 0]) h.padding (by decide) (by decide)
  · exact getElem?_of_sliceAt (v := [0, 0]) h.padding (by decide) (by decide)

-- What the fields of a payload read as.
@[mk_iff]
structure PayloadReads (metadata : WorldMetadata) (nameLen settingsLen : UInt32)
    (payload : Bytes) : Prop where
  version : readU16 payload 0 = worldMetadataPayloadVersion
  major : payload.getD 2 0 = targetVersionMajor
  minor : payload.getD 3 0 = targetVersionMinor
  patch : payload.getD 4 0 = targetVersionPatch
  timeRunning : payload.getD 5 0 = boolByte metadata.timeRunning
  dimension : payload.getD 6 0 = metadata.dimension.toU8
  gameProtocol : readU32 payload 8 = targetGameProtocol
  raknetProtocol : readU32 payload 12 = targetRaknetProtocol
  worldUuid : sliceAt 16 16 payload = metadata.worldUuid.val
  seed : readI64 payload 32 = metadata.seed
  generatorId : readU32 payload 40 = metadata.generatorId
  generatorSettingsVersion : readU16 payload 44 = metadata.generatorSettingsVersion
  spawnX : readI32 payload 48 = metadata.spawnX
  spawnY : readI32 payload 52 = metadata.spawnY
  spawnZ : readI32 payload 56 = metadata.spawnZ
  time : readI64 payload 60 = metadata.time
  nameLen : readU32 payload 68 = nameLen
  settingsLen : readU32 payload 72 = settingsLen
  name : sliceAt payloadFixedBytes (len metadata.name) payload = utf8 metadata.name
  settings : sliceAt (payloadFixedBytes + len metadata.name) metadata.generatorSettings.length
    payload = metadata.generatorSettings

theorem holds_payloadFields_iff {nameLen settingsLen : UInt32}
    (h : payloadFixedBytes ≤ payload.length) :
    (∀ f ∈ metadataPayloadFields metadata nameLen settingsLen, Holds payload f) ↔
      PayloadReads metadata nameLen settingsLen payload := by
  have hfixed : 76 ≤ payload.length := h
  have huuid : Holds payload (16, metadata.worldUuid.val) ↔
      sliceAt 16 16 payload = metadata.worldUuid.val := by
    rw [Holds, metadata.worldUuid.property]
  simp (disch := omega) only [metadataPayloadFields, List.forall_mem_cons, List.not_mem_nil,
    false_imp_iff, implies_true, and_true, holds_u16_iff, holds_u32_iff, holds_i32_iff,
    holds_i64_iff, holds_byte_iff, huuid, payloadReads_iff]
  rfl

theorem boolByte_ne_zero (flag : Bool) : (boolByte flag != 0) = flag := by
  cases flag <;> rfl

theorem boolByte_of_le {value : UInt8} (h : value ≤ 1) : boolByte (value != 0) = value := by
  have hcases : value = 0 ∨ value = 1 := by
    have hle : value.toNat ≤ 1 := h
    rcases Nat.le_one_iff_eq_zero_or_eq_one.mp hle with hz | ho
    · exact .inl (UInt8.toNat_inj.mp hz)
    · exact .inr (UInt8.toNat_inj.mp ho)
  rcases hcases with rfl | rfl <;> rfl

theorem tryFrom_toU8 (dimension : DimensionId) :
    DimensionId.tryFrom dimension.toU8 = .ok dimension := by
  cases dimension <;> rfl

theorem MetadataValid.nameLen_toNat (h : MetadataValid metadata) :
    (UInt32.ofNat (len metadata.name)).toNat = len metadata.name :=
  UInt32.toNat_ofNat_of_lt' (h.nameLen.trans_lt (by decide))

theorem MetadataValid.settingsLen_toNat (h : MetadataValid metadata) :
    (UInt32.ofNat metadata.generatorSettings.length).toNat = metadata.generatorSettings.length :=
  UInt32.toNat_ofNat_of_lt' (h.settingsLen.trans_lt (by decide))

theorem PayloadOf.fixed_le (h : PayloadOf metadata payload) :
    payloadFixedBytes ≤ payload.length := by
  rw [h.length, payloadLength, Nat.add_assoc]
  exact Nat.le_add_right _ _

theorem PayloadOf.reads (h : PayloadOf metadata payload) :
    PayloadReads metadata (UInt32.ofNat (len metadata.name))
      (UInt32.ofNat metadata.generatorSettings.length) payload :=
  (holds_payloadFields_iff h.fixed_le).mp h.fields

theorem PayloadOf.decode (h : PayloadOf metadata payload) (hv : MetadataValid metadata)
    (hl : payloadFixedBytes ≤ payload.length) :
    decodeMetadataPayload metadata.generation payload hl = .ok metadata := by
  have hr := h.reads
  have hreserved : payload.getD 7 0 = 0 := getD_of_sliceAt h.reserved 0
  have hdimension : decodeDimension worldMetadataPayloadVersion payload = .ok metadata.dimension := by
    have hversion : worldMetadataPayloadVersion ≠ legacyWorldMetadataPayloadVersion := by decide
    simp only [decodeDimension, if_neg hversion, hreserved, hr.dimension, tryFrom_toU8,
      decide_true, ensure_true, ok_bind]
    rfl
  have hname : decodeName (sliceAt payloadFixedBytes (len metadata.name) payload) =
      .ok metadata.name := by
    rw [decodeName, hr.name, fromUtf8_ok_iff.mpr rfl]
  have hsettings : payload.drop (payloadFixedBytes + len metadata.name) =
      metadata.generatorSettings := by
    have hslice := hr.settings
    rw [sliceAt, List.take_of_length_le] at hslice
    · exact hslice
    · rw [List.length_drop, h.length, payloadLength]
      omega
  have huuid : readUuid payload 16 (le_trans (by decide) hl) = metadata.worldUuid :=
    Subtype.ext hr.worldUuid
  have hflag : boolByte metadata.timeRunning ≤ 1 := by cases metadata.timeRunning <;> decide
  have htotal : payloadFixedBytes + len metadata.name + metadata.generatorSettings.length =
      payload.length := h.length.symm
  simp only [decodeMetadataPayload, hr.version, hr.major, hr.minor, hr.patch, hr.timeRunning,
    hr.gameProtocol, hr.raknetProtocol, hr.seed, hr.generatorId, hr.generatorSettingsVersion,
    hr.spawnX, hr.spawnY, hr.spawnZ, hr.time, hr.nameLen, hr.settingsLen, hv.nameLen_toNat,
    hv.settingsLen_toNat, h.padding, hdimension, hname, hsettings, huuid, htotal, hflag,
    boolByte_ne_zero, validateMetadata_ok_iff.mpr hv, or_true, decide_true, Bool.and_self,
    ensure_true, ok_bind]
  rfl

theorem tryFrom_ok {value : UInt8} {dimension : DimensionId}
    (h : DimensionId.tryFrom value = .ok dimension) : value = dimension.toU8 := by
  unfold DimensionId.tryFrom at h
  split at h <;> cases h <;> rfl

theorem decodeDimension_ok {version : UInt16} {dimension : DimensionId}
    (hl : payloadFixedBytes ≤ payload.length)
    (h : decodeDimension version payload = .ok dimension) :
    payload.getD 6 0 = dimension.toU8 ∧ sliceAt 7 1 payload = [0] ∧
      (version = legacyWorldMetadataPayloadVersion → dimension = .overworld) := by
  have hfixed : 76 ≤ payload.length := hl
  have hbyte {o : Nat} {v : UInt8} (ho : o + 1 ≤ payload.length) :
      sliceAt o 1 payload = [v] ↔ payload.getD o 0 = v := holds_byte_iff ho
  rw [decodeDimension] at h
  split at h
  · obtain ⟨_, hpair, heq⟩ := bind_ok_iff.mp h
    cases heq
    rw [ensure_ok_iff, decide_eq_true_eq] at hpair
    have hsix := getElem?_of_sliceAt (i := 6) (v := [0, 0]) hpair (by decide) (by decide)
    have hseven := getElem?_of_sliceAt (i := 7) (v := [0, 0]) hpair (by decide) (by decide)
    refine ⟨?_, (hbyte (by omega)).mpr ?_, fun _ => rfl⟩
    · rw [List.getD_eq_getElem?_getD, hsix]
      rfl
    · rw [List.getD_eq_getElem?_getD, hseven]
      rfl
  · rename_i hversion
    obtain ⟨_, hzero, htry⟩ := bind_ok_iff.mp h
    rw [ensure_ok_iff, decide_eq_true_eq] at hzero
    refine ⟨?_, (hbyte (by omega)).mpr hzero, fun heq => absurd heq hversion⟩
    split at htry
    · rename_i d hd
      cases htry
      exact tryFrom_ok hd
    · cases htry

theorem decodeName_ok {bytes : Bytes} {name : String} (h : decodeName bytes = .ok name) :
    bytes = utf8 name := by
  rw [decodeName] at h
  split at h
  · rename_i text htext
    cases h
    exact fromUtf8_ok_iff.mp htext
  · cases h

theorem decodeMetadataPayload_ok {generation : UInt64} {hl : payloadFixedBytes ≤ payload.length}
    (h : decodeMetadataPayload generation payload hl = .ok metadata) :
    metadata.generation = generation ∧ MetadataValid metadata ∧
      PayloadOf metadata (putFields [u16Field 0 worldMetadataPayloadVersion] payload) ∧
      (readU16 payload 0 = legacyWorldMetadataPayloadVersion →
        metadata.dimension = .overworld) := by
  simp only [decodeMetadataPayload, bind_ok_iff, ensure_ok_iff, exists_const, decide_eq_true_eq,
    Bool.and_eq_true] at h
  obtain ⟨hversion, ⟨⟨⟨⟨hmajor, hminor⟩, hpatch⟩, hgame⟩, hraknet⟩, hflag, dimension, hdimension,
    hpadding, hlengths, name, hname, _, hvalid, heq⟩ := h
  obtain ⟨hsix, hseven, hlegacy⟩ := decodeDimension_ok hl hdimension
  have hfixed : 76 ≤ payload.length := hl
  have hutf := decodeName_ok hname
  have hnameLen : (readU32 payload 68).toNat = len name := by
    rw [len, ← hutf, length_sliceAt]
    rw [← hlengths]
    exact Nat.le_add_right _ _
  have hfit : Fits payload.length [u16Field 0 worldMetadataPayloadVersion] :=
    ⟨List.pairwise_singleton _ _, by simp; omega⟩
  have hsame {o n : Nat} (ho : 2 ≤ o) :
      sliceAt o n (putFields [u16Field 0 worldMetadataPayloadVersion] payload) =
        sliceAt o n payload :=
    sliceAt_putFields_apart hfit.inside (by simp [ho])
  have hbyte {o : Nat} (ho : 2 ≤ o) :
      (putFields [u16Field 0 worldMetadataPayloadVersion] payload).getD o 0 = payload.getD o 0 := by
    rw [List.getD_eq_getElem?_getD, List.getD_eq_getElem?_getD,
      getElem?_putFields_apart hfit.inside (by simp [ho])]
  have hlength : (putFields [u16Field 0 worldMetadataPayloadVersion] payload).length =
      payload.length := length_putFields hfit.inside
  have hsettingsLen : (readU32 payload 72).toNat =
      (payload.drop (payloadFixedBytes + len name)).length := by
    rw [List.length_drop, ← hnameLen]
    omega
  cases heq
  rw [hnameLen] at hvalid hlengths hutf ⊢
  have hvalidity := validateMetadata_ok_iff.mp hvalid
  refine ⟨rfl, hvalidity, ⟨?_, ?_, (hsame (by decide)).trans hseven,
    (hsame (by decide)).trans hpadding⟩, hlegacy⟩
  · rw [hlength, payloadLength, ← hlengths, hsettingsLen]
  · refine (holds_payloadFields_iff (by rwa [hlength])).mpr ?_
    have hsettings : sliceAt (payloadFixedBytes + len name)
        (payload.drop (payloadFixedBytes + len name)).length payload =
          payload.drop (payloadFixedBytes + len name) := by
      rw [sliceAt, List.take_of_length_le (le_refl _)]
    constructor
    · exact readU16_putFields hfit (List.mem_singleton_self _)
    · exact (hbyte (by decide)).trans hmajor
    · exact (hbyte (by decide)).trans hminor
    · exact (hbyte (by decide)).trans hpatch
    · exact (hbyte (by decide)).trans (boolByte_of_le hflag).symm
    · exact (hbyte (by decide)).trans hsix
    · rwa [readU32, hsame (by decide), ← readU32]
    · rwa [readU32, hsame (by decide), ← readU32]
    · exact hsame (by decide)
    · simp only [readI64, readU64, hsame (show 2 ≤ 32 by decide)]
    · simp only [readU32, hsame (show 2 ≤ 40 by decide)]
    · simp only [readU16, hsame (show 2 ≤ 44 by decide)]
    · simp only [readI32, readU32, hsame (show 2 ≤ 48 by decide)]
    · simp only [readI32, readU32, hsame (show 2 ≤ 52 by decide)]
    · simp only [readI32, readU32, hsame (show 2 ≤ 56 by decide)]
    · simp only [readI64, readU64, hsame (show 2 ≤ 60 by decide)]
    · rw [← hnameLen, UInt32.ofNat_toNat, readU32, hsame (by decide), readU32]
    · rw [← hsettingsLen, UInt32.ofNat_toNat, readU32, hsame (by decide), readU32]
    · exact (hsame (by decide)).trans hutf
    · exact (hsame (by rw [payloadFixedBytes]; omega)).trans hsettings

theorem decodeMetadataPayload_version {generation : UInt64}
    {hl : payloadFixedBytes ≤ payload.length}
    (h : decodeMetadataPayload generation payload hl = .ok metadata) :
    readU16 payload 0 = legacyWorldMetadataPayloadVersion ∨
      readU16 payload 0 = worldMetadataPayloadVersion := by
  simp only [decodeMetadataPayload, bind_ok_iff, ensure_ok_iff, exists_const, decide_eq_true_eq] at h
  exact h.1

variable (crates : Crates)

theorem envelopeFields_fit (generation : UInt64) (payloadLen payloadCrc : UInt32) :
    Fits 24 (envelopeFields generation payloadLen payloadCrc) := by
  have h : Ascending 0 24 (envelopeFields generation payloadLen payloadCrc) := by
    simp [envelopeFields, Ascending, FieldAt.stop, u16Field, u32Field, u64Field]
  exact h.fits

def encodedMetadata (generation : UInt64) (payload : Bytes) : Bytes :=
  sealedHeader crates worldMetadataEnvelopeBytes 24
    (envelopeFields generation (UInt32.ofNat payload.length) (crates.crc32c payload)) ++ payload

def payloadVersion (encoded : Bytes) : UInt16 := readU16 (encoded.drop worldMetadataEnvelopeBytes) 0

theorem drop_encodedMetadata (generation : UInt64) (payload : Bytes) :
    (encodedMetadata crates generation payload).drop worldMetadataEnvelopeBytes = payload :=
  List.drop_left' (length_sealedHeader crates (by decide) (envelopeFields_fit _ _ _))

theorem lenToU32_of_lt {n : Nat} (h : n < UInt32.size) : lenToU32 n = .ok (UInt32.ofNat n) :=
  if_pos h

theorem MetadataValid.payloadLength_le (h : MetadataValid metadata) :
    payloadLength metadata ≤ maxWorldMetadataPayloadBytes := by
  have hname := h.nameLen
  have hsettings := h.settingsLen
  rw [payloadLength, payloadFixedBytes]
  rw [maxWorldNameBytes] at hname
  rw [maxGeneratorSettingsBytes] at hsettings
  rw [maxWorldMetadataPayloadBytes]
  omega

theorem encodeWorldMetadata_eq (hv : MetadataValid metadata) (h : PayloadOf metadata payload) :
    encodeWorldMetadata crates metadata = .ok (encodedMetadata crates metadata.generation payload) := by
  have hbound := hv.payloadLength_le
  have hname : len metadata.name < UInt32.size := hv.nameLen.trans_lt (by decide)
  have hsettings : metadata.generatorSettings.length < UInt32.size :=
    hv.settingsLen.trans_lt (by decide)
  have hlen : payload.length < UInt32.size := by
    rw [h.length]
    exact hbound.trans_lt (by decide)
  have hput := h.eq
  rw [payloadFieldsOf] at hput
  rw [payloadLength] at hput hbound
  simp only [encodeWorldMetadata, validateMetadata_ok_iff.mpr hv, ok_bind, hbound, decide_true,
    ensure_true, lenToU32_of_lt hname, lenToU32_of_lt hsettings, hput, lenToU32_of_lt hlen]
  rfl

@[mk_iff]
structure EnvelopeReads (generation : UInt64) (payloadLen payloadCrc : UInt32)
    (envelope : Bytes) : Prop where
  magic : sliceAt 0 4 envelope = worldMetadataMagic
  version : readU16 envelope 4 = storageFormatVersion
  length : readU16 envelope 6 = 32
  generation : readU64 envelope 8 = generation
  payloadLen : readU32 envelope 16 = payloadLen
  payloadCrc : readU32 envelope 20 = payloadCrc

theorem holds_envelopeFields_iff {generation : UInt64} {payloadLen payloadCrc : UInt32}
    {envelope : Bytes} (h : 32 ≤ envelope.length) :
    (∀ f ∈ envelopeFields generation payloadLen payloadCrc, Holds envelope f) ↔
      EnvelopeReads generation payloadLen payloadCrc envelope := by
  simp (disch := omega) only [envelopeFields, List.forall_mem_cons, List.not_mem_nil,
    false_imp_iff, implies_true, and_true, holds_u16_iff, holds_u32_iff, holds_u64_iff,
    envelopeReads_iff]
  rfl

theorem decodeWorldMetadata_encoded {generation : UInt64}
    (hl : payload.length ≤ maxWorldMetadataPayloadBytes)
    (hfixed : payloadFixedBytes ≤ payload.length) :
    decodeWorldMetadata crates (encodedMetadata crates generation payload) =
      decodeMetadataPayload generation payload hfixed := by
  have hfit := envelopeFields_fit generation (UInt32.ofNat payload.length) (crates.crc32c payload)
  have hk : 24 + 4 ≤ worldMetadataEnvelopeBytes := by decide
  have hlength := length_sealedHeader crates hk hfit
  have hcrc := sealedHeader_crc crates hk hfit
  have hreads := (holds_envelopeFields_iff (by rw [hlength])).mp fun f hf =>
    holds_sealedHeader crates hk hfit hf
  have hreserved := sliceAt_sealedHeader_gap crates (o := 28) (m := 4) hk hfit (by decide)
    (.inr (by decide)) fun f hf => .inr ((hfit.inside f hf).trans (by decide))
  have hpayloadLen : (UInt32.ofNat payload.length).toNat = payload.length :=
    UInt32.toNat_ofNat_of_lt' (hl.trans_lt (by decide))
  rw [encodedMetadata]
  generalize sealedHeader crates worldMetadataEnvelopeBytes 24 (envelopeFields generation
    (UInt32.ofNat payload.length) (crates.crc32c payload)) = envelope at *
  have hlong : (decide (worldMetadataEnvelopeBytes ≤ (envelope ++ payload).length)) = true := by
    rw [List.length_append, hlength]
    exact decide_eq_true (Nat.le_add_right _ _)
  have htotal : (decide ((envelope ++ payload).length =
      worldMetadataEnvelopeBytes + payload.length)) = true := by
    rw [List.length_append, hlength]
    exact decide_eq_true rfl
  have hwidth : (decide ((32 : UInt16).toNat = worldMetadataEnvelopeBytes)) = true := rfl
  have hzeros : List.replicate 4 (0 : UInt8) = [0, 0, 0, 0] := rfl
  simp only [decodeWorldMetadata, List.take_left' hlength, List.drop_left' hlength, hreads.magic,
    hreads.version, hreads.length, hreads.generation, hreads.payloadLen, hreads.payloadCrc, hcrc,
    hreserved, hzeros, hpayloadLen, hl, hlong, htotal, hwidth, hfixed, decide_true, ensure_true,
    ok_bind, dif_pos]

-- The version-2 form of an accepted string.
def asVersion2 (encoded : Bytes) : Bytes :=
  let payload := putFields [u16Field 0 worldMetadataPayloadVersion]
    (encoded.drop worldMetadataEnvelopeBytes)
  let envelope := putFields [u32Field 20 (crates.crc32c payload)]
    (encoded.take worldMetadataEnvelopeBytes)
  sealAt crates 24 envelope ++ payload

theorem sealedHeader_envelope {generation : UInt64} {envelope : Bytes} {payloadLen oldCrc crc : UInt32}
    (hlen : envelope.length = worldMetadataEnvelopeBytes)
    (h : EnvelopeReads generation payloadLen oldCrc envelope)
    (hreserved : sliceAt 28 4 envelope = [0, 0, 0, 0]) :
    sealedHeader crates worldMetadataEnvelopeBytes 24 (envelopeFields generation payloadLen crc) =
      sealAt crates 24 (putFields [u32Field 20 crc] envelope) := by
  have hfit : Fits envelope.length [u32Field 20 crc] := u32Field_fits (by rw [hlen]; decide) crc
  have hputLen : (putFields [u32Field 20 crc] envelope).length = worldMetadataEnvelopeBytes :=
    (length_putFields hfit.inside).trans hlen
  have hk : 24 + 4 ≤ (putFields [u32Field 20 crc] envelope).length := by
    rw [hputLen]
    decide
  have hsame {o n : Nat} (ho : o + n ≤ 20 ∨ 28 ≤ o) :
      sliceAt o n (sealAt crates 24 (putFields [u32Field 20 crc] envelope)) =
        sliceAt o n envelope := by
    rw [sliceAt_sealAt crates hk (by omega), sliceAt_putFields_apart hfit.inside]
    simp
    omega
  have hlength : (sealAt crates 24 (putFields [u32Field 20 crc] envelope)).length =
      worldMetadataEnvelopeBytes := (length_sealAt crates hk).trans hputLen
  have hreads : EnvelopeReads generation payloadLen crc
      (sealAt crates 24 (putFields [u32Field 20 crc] envelope)) := by
    constructor
    · rw [hsame (by decide), h.magic]
    · rw [readU16, hsame (by decide), ← readU16, h.version]
    · rw [readU16, hsame (by decide), ← readU16, h.length]
    · rw [readU64, hsame (by decide), ← readU64, h.generation]
    · rw [readU32, hsame (by decide), ← readU32, h.payloadLen]
    · rw [readU32, sliceAt_sealAt crates hk (by decide), ← readU32]
      exact readU32_putFields hfit (List.mem_singleton_self _)
  refine sealedHeader_eq crates (by decide) (envelopeFields_fit _ _ _) hlength
    ((holds_envelopeFields_iff (by rw [hlength])).mpr hreads) (sealAt_crc crates hk)
    fun i hi hout hapart => ?_
  have htail : 28 ≤ i := by
    simp [envelopeFields, FieldAt.stop, u16Field, u32Field, u64Field] at hapart
    omega
  have hi' : i < 32 := hi
  have hslice := (hsame (o := 28) (n := 4) (by decide)).trans hreserved
  rw [getElem?_of_sliceAt (v := [0, 0, 0, 0]) hslice htail (by simpa using hi')]
  have hzeros : ([0, 0, 0, 0] : Bytes) = List.replicate 4 0 := rfl
  rw [hzeros, List.getElem?_replicate, if_pos (by omega)]

theorem decodeWorldMetadata_ok {encoded : Bytes}
    (h : decodeWorldMetadata crates encoded = .ok metadata) :
    ∃ hfixed : payloadFixedBytes ≤ (encoded.drop worldMetadataEnvelopeBytes).length,
      decodeMetadataPayload (readU64 (encoded.take worldMetadataEnvelopeBytes) 8)
        (encoded.drop worldMetadataEnvelopeBytes) hfixed = .ok metadata ∧
      (encoded.take worldMetadataEnvelopeBytes).length = worldMetadataEnvelopeBytes ∧
      EnvelopeReads (readU64 (encoded.take worldMetadataEnvelopeBytes) 8)
        (UInt32.ofNat (encoded.drop worldMetadataEnvelopeBytes).length)
        (crates.crc32c (encoded.drop worldMetadataEnvelopeBytes))
        (encoded.take worldMetadataEnvelopeBytes) ∧
      crates.crc32c ((encoded.take worldMetadataEnvelopeBytes).take 24) =
        readU32 (encoded.take worldMetadataEnvelopeBytes) 24 ∧
      sliceAt 28 4 (encoded.take worldMetadataEnvelopeBytes) = [0, 0, 0, 0] := by
  simp only [decodeWorldMetadata, bind_ok_iff, ensure_ok_iff, exists_const, decide_eq_true_eq] at h
  obtain ⟨hlong, hmagic, hversion, hwidth, hcrc, hreserved, hbound, htotal, hpayloadCrc, h⟩ := h
  split at h
  · rename_i hfixed
    have hlen : (encoded.drop worldMetadataEnvelopeBytes).length =
        (readU32 (encoded.take worldMetadataEnvelopeBytes) 16).toNat := by
      rw [List.length_drop, htotal]
      omega
    refine ⟨hfixed, h, List.length_take_of_le hlong, ⟨hmagic, hversion, ?_, rfl, ?_,
      hpayloadCrc.symm⟩, hcrc, hreserved⟩
    · exact UInt16.toNat_inj.mp hwidth
    · rw [hlen, UInt32.ofNat_toNat]
  · cases h

theorem encode_decoded {encoded : Bytes} (h : decodeWorldMetadata crates encoded = .ok metadata) :
    encodeWorldMetadata crates metadata = .ok (asVersion2 crates encoded) := by
  obtain ⟨hfixed, hdecode, hlen, hreads, -, hreserved⟩ := decodeWorldMetadata_ok crates h
  obtain ⟨hgeneration, hvalid, hpayload, -⟩ := decodeMetadataPayload_ok hdecode
  rw [encodeWorldMetadata_eq crates hvalid hpayload, encodedMetadata, hgeneration, asVersion2]
  have hsameLen : (putFields [u16Field 0 worldMetadataPayloadVersion]
      (encoded.drop worldMetadataEnvelopeBytes)).length =
        (encoded.drop worldMetadataEnvelopeBytes).length := by
    refine length_putFields fun f hf => ?_
    cases List.mem_singleton.mp hf
    rw [u16Field_stop]
    exact le_trans (by decide) hfixed
  rw [hsameLen, sealedHeader_envelope crates hlen hreads hreserved]

theorem asVersion2_self {encoded : Bytes} (h : decodeWorldMetadata crates encoded = .ok metadata)
    (hversion : readU16 (encoded.drop worldMetadataEnvelopeBytes) 0 =
      worldMetadataPayloadVersion) : asVersion2 crates encoded = encoded := by
  obtain ⟨hfixed, -, hlen, hreads, hcrc, -⟩ := decodeWorldMetadata_ok crates h
  have hpayload : putFields [u16Field 0 worldMetadataPayloadVersion]
      (encoded.drop worldMetadataEnvelopeBytes) = encoded.drop worldMetadataEnvelopeBytes := by
    have hroom : 0 + 2 ≤ (encoded.drop worldMetadataEnvelopeBytes).length :=
      le_trans (by decide) hfixed
    refine putFields_eq rfl ⟨List.pairwise_singleton _ _, by simpa using hroom⟩
      (fun f hf => ?_) fun _ _ _ => rfl
    cases List.mem_singleton.mp hf
    exact (holds_u16_iff hroom).mpr hversion
  have henvelope : putFields [u32Field 20 (crates.crc32c (encoded.drop worldMetadataEnvelopeBytes))]
      (encoded.take worldMetadataEnvelopeBytes) = encoded.take worldMetadataEnvelopeBytes :=
    putFields_u32_self (by rw [hlen]; decide) hreads.payloadCrc
  rw [asVersion2, hpayload, henvelope, sealAt_eq crates (by rw [hlen]; decide) hcrc,
    List.take_append_drop]

section

variable {crates} {encoded : Bytes}

theorem encoded_round_trip (hv : MetadataValid metadata)
    (h : encodeWorldMetadata crates metadata = .ok encoded) :
    encoded.length ≤ worldMetadataEnvelopeBytes + maxWorldMetadataPayloadBytes ∧
      payloadVersion encoded = worldMetadataPayloadVersion ∧
      decodeWorldMetadata crates encoded = .ok metadata := by
  have hpayload := PayloadOf.put metadata
  have hbound := hv.payloadLength_le
  rw [← hpayload.length] at hbound
  have hfixed := hpayload.fixed_le
  rw [encodeWorldMetadata_eq crates hv hpayload] at h
  cases h
  refine ⟨?_, ?_, ?_⟩
  · rw [encodedMetadata, List.length_append,
      length_sealedHeader crates (by decide) (envelopeFields_fit _ _ _)]
    exact Nat.add_le_add_left hbound _
  · rw [payloadVersion, drop_encodedMetadata]
    exact hpayload.reads.version
  · rw [decodeWorldMetadata_encoded crates hbound hfixed]
    exact hpayload.decode hv hfixed

theorem metadata_round_trip (h : validateMetadata metadata = .ok ()) :
    ∃ encoded, encodeWorldMetadata crates metadata = .ok encoded ∧
      decodeWorldMetadata crates encoded = .ok metadata := by
  have hv := validateMetadata_ok_iff.mp h
  have hencode := encodeWorldMetadata_eq crates hv (PayloadOf.put metadata)
  exact ⟨_, hencode, (encoded_round_trip hv hencode).2.2⟩

theorem metadata_reencoded
    (h : decodeWorldMetadata crates encoded = .ok metadata) :
    payloadVersion encoded = worldMetadataPayloadVersion ∧
        encodeWorldMetadata crates metadata = .ok encoded ∨
      payloadVersion encoded = legacyWorldMetadataPayloadVersion ∧
        metadata.dimension = .overworld ∧
        encodeWorldMetadata crates metadata = .ok (asVersion2 crates encoded) ∧
        payloadVersion (asVersion2 crates encoded) = worldMetadataPayloadVersion ∧
        decodeWorldMetadata crates (asVersion2 crates encoded) = .ok metadata := by
  obtain ⟨hfixed, hdecode, -⟩ := decodeWorldMetadata_ok crates h
  obtain ⟨-, hvalid, -, hlegacy⟩ := decodeMetadataPayload_ok hdecode
  have hencode := encode_decoded crates h
  rcases decodeMetadataPayload_version hdecode with hversion | hversion
  · exact .inr ⟨hversion, hlegacy hversion, hencode, (encoded_round_trip hvalid hencode).2⟩
  · refine .inl ⟨hversion, ?_⟩
    rwa [asVersion2_self crates h hversion] at hencode

end

def freshMetadata : WorldMetadata where
  generation := 1
  worldUuid := ⟨List.replicate 16 7, rfl⟩
  name := "world"
  seed := -1
  generatorId := 3
  generatorSettingsVersion := 1
  generatorSettings := [1, 2, 3]
  dimension := .overworld
  spawnX := 8
  spawnY := 70
  spawnZ := -8
  time := 0
  timeRunning := true

theorem freshMetadata_valid : validateMetadata freshMetadata = .ok () := by decide

end Cobblestone.Metadata
