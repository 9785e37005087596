import Cobblestone.Storage.PayloadRoundTrip

namespace Cobblestone.Storage

open Lib World

abbrev recordHeaderBytes : Nat := 64
abbrev adaptiveCompressionMinSavings : Nat := 4096
abbrev recordMagic : Bytes := [0x43, 0x42, 0x43, 0x48]

inductive Compression where
  | none
  | zstd
deriving DecidableEq, Repr

inductive CompressionPolicy where
  | none
  | zstd
  | adaptive
deriving DecidableEq, Repr

def Compression.toByte : Compression → UInt8
  | .none => 0
  | .zstd => 1

def Compression.fromByte (value : UInt8) : Except StorageError Compression :=
  if value = 0 then .ok .none
  else if value = 1 then .ok .zstd
  else .error (.unsupportedCompression value)

structure StoredChunk where
  position : ChunkCoord
  compression : Compression
  imported : ChunkImport
  extensions : List ExtensionSection
deriving DecidableEq

variable (crates : Crates)

def compressPayload (policy : CompressionPolicy) (payload : Bytes) :
    Except StorageError (Compression × Bytes) :=
  match policy with
  | .none => .ok (.none, payload)
  | .zstd => do
    let stored ← crates.encodeAll payload
    pure (.zstd, stored)
  | .adaptive => do
    let compressed ← crates.encodeAll payload
    if compressed.length + adaptiveCompressionMinSavings ≤ payload.length then
      pure (.zstd, compressed)
    else pure (.none, payload)

def recordHeaderFields (snapshot : ChunkSnapshot) (compression : Compression)
    (uncompressedLen storedLen payloadCrc : UInt32) : List (FieldAt UInt8) :=
  [(0, recordMagic),
    u16Field 4 chunkRecordVersion,
    u16Field 6 64,
    i32Field 8 snapshot.position.x,
    i32Field 12 snapshot.position.z,
    u64Field 16 snapshot.terrainRevision,
    u64Field 24 snapshot.lightRevision,
    (32, [snapshot.lifecycleFlags]),
    (33, [compression.toByte]),
    u16Field 34 semanticPayloadVersion,
    u32Field 36 uncompressedLen,
    u32Field 40 storedLen,
    u32Field 44 payloadCrc]

def recordHeader (snapshot : ChunkSnapshot) (compression : Compression)
    (uncompressedLen storedLen payloadCrc : UInt32) : Bytes :=
  sealedBlock crates recordHeaderBytes
    (recordHeaderFields snapshot compression uncompressedLen storedLen payloadCrc)

def encodeChunkRecordWithPolicy (snapshot : ChunkSnapshot) (policy : CompressionPolicy)
    (extensions : List ExtensionSection) : Except StorageError Bytes := do
  let payload ← encodeSemanticPayload snapshot.data extensions
  let (compression, stored) ← compressPayload crates policy payload
  ensure (stored.length ≤ maxChunkPayloadBytes)
    (.payloadTooLarge stored.length maxChunkPayloadBytes)
  let uncompressedLen ← u32TryFrom payload.length
    (.payloadTooLarge payload.length (UInt32.size - 1))
  let storedLen ← u32TryFrom stored.length (.payloadTooLarge stored.length (UInt32.size - 1))
  let header := recordHeader crates snapshot compression uncompressedLen storedLen
    (crates.crc32c payload)
  ensure (recordHeaderBytes + stored.length ≤ maxChunkRecordBytes)
    (.recordTooLarge (recordHeaderBytes + stored.length) maxChunkRecordBytes)
  pure (header ++ stored)

def encodeChunkRecord (snapshot : ChunkSnapshot) (compression : Compression)
    (extensions : List ExtensionSection) : Except StorageError Bytes :=
  encodeChunkRecordWithPolicy crates snapshot
    (match compression with
      | .none => .none
      | .zstd => .zstd) extensions

def expandPayload (compression : Compression) (stored : Bytes) (uncompressedLen : Nat) :
    Except StorageError Bytes :=
  match compression with
  | .none => do
    ensure (stored.length = uncompressedLen)
      (.corruptChunkRecord "uncompressed payload length mismatch")
    pure stored
  | .zstd => do
    let decoded ← crates.decode stored (uncompressedLen + 1)
    ensure (decoded.length = uncompressedLen) (.corruptChunkRecord "zstd output length mismatch")
    pure decoded

def semanticVersionIsSupported (version : UInt16) : Bool :=
  version == legacySemanticPayloadVersion || version == biomeWordSemanticPayloadVersion ||
    version == semanticPayloadVersion

def decodeChunkRecord (record : Bytes) : Except StorageError StoredChunk := do
  ensure (recordHeaderBytes ≤ record.length) (.corruptChunkRecord "truncated header")
  ensure (record.length ≤ maxChunkRecordBytes) (.recordTooLarge record.length maxChunkRecordBytes)
  let header := record.take recordHeaderBytes
  ensure (sliceAt 0 4 header = recordMagic) (.corruptChunkRecord "bad magic")
  ensure (readU16 header 4 = chunkRecordVersion) (.corruptChunkRecord "unsupported record version")
  ensure ((readU16 header 6).toNat = recordHeaderBytes) (.corruptChunkRecord "bad header length")
  let semanticVersion := readU16 header 34
  ensure (semanticVersionIsSupported semanticVersion)
    (.corruptChunkRecord "unsupported semantic payload version")
  ensure (crates.crc32c (header.take 60) = readU32 header 60)
    (.corruptChunkRecord "header checksum mismatch")
  let lifecycleFlags := header.getD 32 0
  ensure (lifecycleFlags &&& ~~~chunkLifecycleMask = 0)
    (.corruptChunkRecord "invalid lifecycle flags")
  let compression ← Compression.fromByte (header.getD 33 0)
  let uncompressedLen := (readU32 header 36).toNat
  let storedLen := (readU32 header 40).toNat
  ensure (uncompressedLen ≤ maxChunkPayloadBytes && storedLen ≤ maxChunkPayloadBytes)
    (.payloadTooLarge (max uncompressedLen storedLen) maxChunkPayloadBytes)
  ensure (record.length = recordHeaderBytes + storedLen)
    (.corruptChunkRecord "stored payload length mismatch")
  let payload ← expandPayload crates compression (record.drop recordHeaderBytes) uncompressedLen
  ensure (crates.crc32c payload = readU32 header 44)
    (.corruptChunkRecord "payload checksum mismatch")
  let (data, extensions) ← decodeSemanticPayload payload semanticVersion
  pure {
    position := ⟨readI32 header 8, readI32 header 12⟩
    compression := compression
    imported := {
      terrainRevision := readU64 header 16
      lightRevision := readU64 header 24
      lifecycleFlags := lifecycleFlags
      data := data }
    extensions := extensions }

section

variable (snapshot : ChunkSnapshot) (compression : Compression) (u s c : UInt32)

theorem recordHeaderFields_fit : Fits (recordHeaderBytes - 4)
    (recordHeaderFields snapshot compression u s c) := by
  constructor
  · simp [recordHeaderFields, Apart, FieldAt.stop, u16Field, u32Field, u64Field, i32Field]
  · simp [recordHeaderFields, FieldAt.stop, u16Field, u32Field, u64Field, i32Field,
      recordHeaderBytes]

theorem length_recordHeader : (recordHeader crates snapshot compression u s c).length = 64 :=
  length_sealedBlock crates (by decide) (recordHeaderFields_fit snapshot compression u s c)

structure HeaderReads (header : Bytes) : Prop where
  magic : sliceAt 0 4 header = recordMagic
  version : readU16 header 4 = chunkRecordVersion
  length : readU16 header 6 = 64
  x : readI32 header 8 = snapshot.position.x
  z : readI32 header 12 = snapshot.position.z
  terrainRevision : readU64 header 16 = snapshot.terrainRevision
  lightRevision : readU64 header 24 = snapshot.lightRevision
  lifecycleFlags : header.getD 32 0 = snapshot.lifecycleFlags
  compression : header.getD 33 0 = compression.toByte
  semanticVersion : readU16 header 34 = semanticPayloadVersion
  uncompressedLen : readU32 header 36 = u
  storedLen : readU32 header 40 = s
  payloadCrc : readU32 header 44 = c
  headerCrc : crates.crc32c (header.take 60) = readU32 header 60

theorem recordHeader_reads : HeaderReads crates snapshot compression u s c
    (recordHeader crates snapshot compression u s c) := by
  have hfit := recordHeaderFields_fit snapshot compression u s c
  have hn : 4 ≤ recordHeaderBytes := by decide
  constructor
  · exact sliceAt_sealedBlock crates hn hfit (v := recordMagic) (by simp [recordHeaderFields])
  · exact readU16_sealedBlock crates hn hfit (by simp [recordHeaderFields])
  · exact readU16_sealedBlock crates hn hfit (by simp [recordHeaderFields])
  · exact readI32_sealedBlock crates hn hfit (by simp [recordHeaderFields])
  · exact readI32_sealedBlock crates hn hfit (by simp [recordHeaderFields])
  · exact readU64_sealedBlock crates hn hfit (by simp [recordHeaderFields])
  · exact readU64_sealedBlock crates hn hfit (by simp [recordHeaderFields])
  · exact getD_sealedBlock crates hn hfit (by simp [recordHeaderFields])
  · exact getD_sealedBlock crates hn hfit (by simp [recordHeaderFields])
  · exact readU16_sealedBlock crates hn hfit (by simp [recordHeaderFields])
  · exact readU32_sealedBlock crates hn hfit (by simp [recordHeaderFields])
  · exact readU32_sealedBlock crates hn hfit (by simp [recordHeaderFields])
  · exact readU32_sealedBlock crates hn hfit (by simp [recordHeaderFields])
  · exact sealedBlock_crc crates hn hfit

end

section

variable {snapshot : ChunkSnapshot} {policy : CompressionPolicy}
  {extensions : List ExtensionSection} {record : Bytes}

theorem encodeChunkRecordWithPolicy_cases
    (h : encodeChunkRecordWithPolicy crates snapshot policy extensions = .ok record) :
    ∃ (payload stored : Bytes) (compression : Compression) (u s : UInt32),
      encodeSemanticPayload snapshot.data extensions = .ok payload ∧
      compressPayload crates policy payload = .ok (compression, stored) ∧
      stored.length ≤ maxChunkPayloadBytes ∧
      u.toNat = payload.length ∧ s.toNat = stored.length ∧
      record = recordHeader crates snapshot compression u s (crates.crc32c payload) ++ stored := by
  simp only [encodeChunkRecordWithPolicy, bind_ok_iff, ensure_ok_iff, exists_const,
    decide_eq_true_eq, Prod.exists] at h
  obtain ⟨payload, hpayload, compression, stored, hcompress, hstored, u, hu, s, hs, -, hrecord⟩ := h
  exact ⟨payload, stored, compression, u, s, hpayload, hcompress, hstored, u32TryFrom_toNat hu,
    u32TryFrom_toNat hs, (Except.ok.inj hrecord).symm⟩

theorem expand_compressPayload {payload stored : Bytes} {compression : Compression}
    (h : compressPayload crates policy payload = .ok (compression, stored)) :
    expandPayload crates compression stored payload.length = .ok payload := by
  have hzstd {stored : Bytes} (he : crates.encodeAll payload = .ok stored) :
      expandPayload crates .zstd stored payload.length = .ok payload := by
    have hd := crates.decode_encodeAll he (payload.length + 1)
    rw [List.take_of_length_le (by omega)] at hd
    simp [expandPayload, hd, ensure, pure, Except.pure]
  have hnone : expandPayload crates .none payload payload.length = .ok payload := by
    simp [expandPayload, ensure, pure, Except.pure]
  cases policy with
  | none =>
    cases h
    exact hnone
  | zstd =>
    obtain ⟨z, hz, hp⟩ := bind_ok_iff.mp h
    cases hp
    exact hzstd hz
  | adaptive =>
    obtain ⟨z, hz, hp⟩ := bind_ok_iff.mp h
    split at hp
    · cases hp
      exact hzstd hz
    · cases hp
      exact hnone

theorem fromByte_toByte (compression : Compression) :
    Compression.fromByte compression.toByte = .ok compression := by
  cases compression <;> rfl

-- A record written by the encoder passes every header check, so its payload decides.
theorem decodeChunkRecord_encoded
    (h : encodeChunkRecordWithPolicy crates snapshot policy extensions = .ok record)
    (hflags : snapshot.lifecycleFlags &&& ~~~chunkLifecycleMask = 0) :
    ∃ payload compression, encodeSemanticPayload snapshot.data extensions = .ok payload ∧
      decodeChunkRecord crates record =
        (decodeSemanticPayload payload semanticPayloadVersion >>= fun r => .ok
          { position := snapshot.position
            compression := compression
            imported :=
              { terrainRevision := snapshot.terrainRevision
                lightRevision := snapshot.lightRevision
                lifecycleFlags := snapshot.lifecycleFlags
                data := r.1 }
            extensions := r.2 }) := by
  obtain ⟨payload, stored, compression, u, s, hpayload, hcompress, hstored, hu, hs, hrecord⟩ :=
    encodeChunkRecordWithPolicy_cases crates h
  refine ⟨payload, compression, hpayload, ?_⟩
  have hlh := length_recordHeader crates snapshot compression u s (crates.crc32c payload)
  have hr := recordHeader_reads crates snapshot compression u s (crates.crc32c payload)
  have htake : record.take recordHeaderBytes =
      recordHeader crates snapshot compression u s (crates.crc32c payload) := by
    rw [hrecord, List.take_left' hlh]
  have hdrop : record.drop recordHeaderBytes = stored := by rw [hrecord, List.drop_left' hlh]
  have hlength : record.length = recordHeaderBytes + stored.length := by
    rw [hrecord, List.length_append, hlh]
  have hcap := (encodeSemanticPayload_cases hpayload).2.2.1
  rw [← length_encodeSemanticPayload hpayload] at hcap
  have hexpand := expand_compressPayload crates hcompress
  generalize recordHeader crates snapshot compression u s (crates.crc32c payload) = header at *
  have hlong : (decide (recordHeaderBytes ≤ recordHeaderBytes + stored.length)) = true :=
    decide_eq_true (Nat.le_add_right _ _)
  have hshort : (decide (recordHeaderBytes + stored.length ≤ maxChunkRecordBytes)) = true :=
    decide_eq_true (le_trans (Nat.add_le_add_left hstored _) (by decide))
  have hwidth : (decide ((64 : UInt16).toNat = recordHeaderBytes)) = true := rfl
  have hversion : semanticVersionIsSupported semanticPayloadVersion = true := rfl
  have hbounds : (decide (payload.length ≤ maxChunkPayloadBytes) &&
      decide (stored.length ≤ maxChunkPayloadBytes)) = true := by
    simp only [hcap, hstored, decide_true, Bool.and_true]
  simp only [decodeChunkRecord, htake, hdrop, hlong, hshort, hr.magic, hr.version, hr.length,
    hr.semanticVersion, hr.headerCrc, hr.lifecycleFlags, hr.compression, hr.uncompressedLen,
    hr.storedLen, hr.payloadCrc, hr.x, hr.z, hr.terrainRevision, hr.lightRevision, hflags, hu, hs,
    hbounds, hwidth, hversion, hlength, hexpand, fromByte_toByte, ok_bind, ensure_true, decide_true]
  rfl

def StoredChunk.Carries (stored : StoredChunk) (snapshot : ChunkSnapshot)
    (extensions : List ExtensionSection) : Prop :=
  stored.position = snapshot.position ∧ stored.imported = snapshot.toImport ∧
    stored.extensions = extensions

theorem decodeChunkRecord_carries
    (h : encodeChunkRecordWithPolicy crates snapshot policy extensions = .ok record)
    (hflags : snapshot.lifecycleFlags &&& ~~~chunkLifecycleMask = 0)
    (hchests : snapshot.data.chestBlockEntities.length ≤ chunkBlockCount) :
    ∃ stored, decodeChunkRecord crates record = .ok stored ∧
      stored.Carries snapshot extensions := by
  obtain ⟨payload, compression, hpayload, hdecode⟩ := decodeChunkRecord_encoded crates h hflags
  rw [decode_encodeSemanticPayload hpayload hchests, ok_bind] at hdecode
  exact ⟨_, hdecode, rfl, rfl, rfl⟩

theorem decodeChunkRecord_overflow
    (h : encodeChunkRecordWithPolicy crates snapshot policy extensions = .ok record)
    (hflags : snapshot.lifecycleFlags &&& ~~~chunkLifecycleMask = 0)
    (hchests : chunkBlockCount < snapshot.data.chestBlockEntities.length) :
    decodeChunkRecord crates record =
      .error (.corruptChunkPayload "chest block-entity count exceeds block count") := by
  obtain ⟨payload, compression, hpayload, hdecode⟩ := decodeChunkRecord_encoded crates h hflags
  rw [hdecode, decode_encodeSemanticPayload_overflow hpayload hchests, error_bind]

theorem length_encodedRecord
    (h : encodeChunkRecordWithPolicy crates snapshot policy extensions = .ok record) :
    recordHeaderBytes ≤ record.length ∧ record.length ≤ maxChunkRecordBytes := by
  obtain ⟨payload, stored, compression, u, s, -, -, hstored, -, -, hrecord⟩ :=
    encodeChunkRecordWithPolicy_cases crates h
  rw [hrecord, List.length_append, length_recordHeader]
  exact ⟨Nat.le_add_right _ _, le_trans (Nat.add_le_add_left hstored _) (by decide)⟩

end

end Cobblestone.Storage
