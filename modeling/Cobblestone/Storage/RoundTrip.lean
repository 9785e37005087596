import Cobblestone.Storage.Record
import Cobblestone.World.Reachable

namespace Cobblestone.Storage

open Lib World

variable (crates : Crates)

theorem readChests_length {s t : Bytes} {entities : List ChestBlockEntity}
    (h : readChests s = .ok (entities, t)) : entities.length ≤ chunkBlockCount := by
  obtain ⟨count, u, -, h⟩ := Reader.bind_ok h
  obtain ⟨_, v, hr, h⟩ := Reader.bind_ok h
  obtain ⟨hb, -⟩ := Reader.require_ok hr
  rw [Reader.length_times h]
  exact of_decide_eq_true hb

theorem readTail_chests {version : UInt16} {s t : Bytes} {extra : ExtraData}
    {entities : List ChestBlockEntity} (h : readTail version s = .ok ((extra, entities), t)) :
    entities.length ≤ chunkBlockCount := by
  obtain ⟨extra', u, -, h⟩ := Reader.bind_ok h
  obtain ⟨entities', v, hc, h⟩ := Reader.bind_ok h
  obtain ⟨heq, -⟩ := Reader.pure_ok h
  obtain ⟨rfl, rfl⟩ := Prod.mk.inj heq
  unfold readVersionedChests at hc
  split at hc
  · exact readChests_length hc
  · obtain ⟨rfl, -⟩ := Reader.pure_ok hc
    exact Nat.zero_le _

theorem decodeSemanticPayload_chests {payload : Bytes} {version : UInt16} {data : ChunkData}
    {extensions : List ExtensionSection}
    (h : decodeSemanticPayload payload version = .ok (data, extensions)) :
    data.chestBlockEntities.length ≤ chunkBlockCount := by
  simp only [decodeSemanticPayload, bind_ok_iff] at h
  obtain ⟨biomeBytes, -, -, -, biomes, -, ⟨⟨extra, entities⟩, rest⟩, ht, sections, -, h⟩ := h
  obtain ⟨rfl, -⟩ := Prod.mk.inj (Except.ok.inj h)
  exact readTail_chests ht

theorem decodeChunkRecord_chests {record : Bytes} {stored : StoredChunk}
    (h : decodeChunkRecord crates record = .ok stored) :
    stored.imported.data.chestBlockEntities.length ≤ chunkBlockCount := by
  simp only [decodeChunkRecord, bind_ok_iff] at h
  obtain ⟨-, -, -, -, -, -, -, -, -, -, -, -, -, -, -, -, compression, -, -, -, -, -, payload, -, -, -,
    ⟨data, extensions⟩, hd, h⟩ := h
  rw [← Except.ok.inj h]
  exact decodeSemanticPayload_chests hd

def DecodedImport (i : ChunkImport) : Prop :=
  ∃ record stored, decodeChunkRecord crates record = .ok stored ∧ i = stored.imported

theorem decoded_sound {s : WorldStore} (h : WorldStore.Reachable (DecodedImport crates) s) :
    s.AllChunks (ChunkRecord.Sound fun entities => entities.length ≤ chunkBlockCount) := by
  refine h.sound (Nat.zero_le _) ?_
  rintro i ⟨record, stored, hd, rfl⟩
  exact decodeChunkRecord_chests crates hd

theorem snapshot_ok {s : WorldStore} {p : ChunkCoord} {snapshot : ChunkSnapshot}
    (h : s.snapshot p = .ok snapshot) : ∃ c, s.chunks p = some c ∧ snapshot = c.snapshot p := by
  unfold WorldStore.snapshot WorldStore.withChunk at h
  split at h
  · cases h
  · next c hc => exact ⟨c, hc, (Except.ok.inj h).symm⟩

theorem importChunk_new {chests : List ChestBlockEntity → Prop} {c : ChunkRecord}
    (hc : c.Sound chests) (p : ChunkCoord) :
    WorldStore.new.importChunk p (c.snapshot p).toImport =
      (.ok (), WorldStore.new.setChunk p (ChunkRecord.fromImport (c.snapshot p).toImport)) := by
  have hv : validateImport (c.snapshot p).toImport = .ok () :=
    validateImport_ok_iff.mpr ⟨hc.flags, hc.data.wellFormed⟩
  simp only [WorldStore.importChunk, hv]

theorem record_round_trip {s : WorldStore} (hs : WorldStore.Reachable (DecodedImport crates) s)
    {p : ChunkCoord} {snapshot : ChunkSnapshot} (hp : s.snapshot p = .ok snapshot)
    {policy : CompressionPolicy} {extensions : List ExtensionSection} {record : Bytes}
    (he : encodeChunkRecordWithPolicy crates snapshot policy extensions = .ok record) :
    ∃ stored, decodeChunkRecord crates record = .ok stored ∧
      stored.position = p ∧ stored.imported = snapshot.toImport ∧ stored.extensions = extensions ∧
      ∃ t c, WorldStore.new.importChunk p stored.imported = (.ok (), t) ∧
        t.chunks p = some c ∧ c.snapshot p = snapshot ∧ c.isDirty = false := by
  obtain ⟨c, hc, rfl⟩ := snapshot_ok hp
  have hsound := decoded_sound crates hs p c hc
  obtain ⟨stored, hd, hposition, himport, hextensions⟩ :=
    decodeChunkRecord_carries crates he hsound.flags hsound.data.chests_allowed
  refine ⟨stored, hd, hposition, himport, hextensions,
    WorldStore.new.setChunk p (ChunkRecord.fromImport (c.snapshot p).toImport),
    ChunkRecord.fromImport (c.snapshot p).toImport, ?_, WorldStore.setChunk_self _ _ _, rfl,
    ChunkRecord.fromImport_not_dirty _⟩
  rw [himport]
  exact importChunk_new hsound p

def chestChunk (biomeWord : UInt32) (entities : List ChestBlockEntity) : ChunkRecord :=
  { ChunkRecord.empty biomeWord with
    data := { ChunkData.empty biomeWord with chestBlockEntities := entities } }

theorem chestBytes_lower (entities : List ChestBlockEntity) :
    entities.length ≤ chestBytes entities := by
  induction entities with
  | nil => exact Nat.zero_le _
  | cons entity entities ih =>
    simp only [chestBytes, List.map_cons, List.sum_cons, List.length_cons] at ih ⊢
    omega

theorem encode_chest_chunk (biomeWord : UInt32) (p : ChunkCoord) (entities : List ChestBlockEntity)
    (hv : ∀ entity ∈ entities, validateChestBlockEntity entity = .ok ())
    (hcap : semanticBaseBytes + chestBytes entities ≤ maxChunkPayloadBytes) :
    ∃ record, encodeChunkRecordWithPolicy crates
      ((chestChunk biomeWord entities).snapshot p) .none [] = .ok record := by
  have hlower := chestBytes_lower entities
  have hplanes : PlanesFit (chestChunk biomeWord entities).data := by
    refine ⟨List.length_replicate, List.length_replicate, List.length_replicate,
      List.length_replicate, List.length_replicate, ?_⟩
    intro state hs
    rw [List.eq_of_mem_replicate hs]
    decide
  have hcapacity : payloadCapacity (chestChunk biomeWord entities).data [] ≤
      maxChunkPayloadBytes := hcap
  obtain ⟨payload, hpayload⟩ := encodeSemanticPayload_plain hplanes hv
    (lt_of_le_of_lt (by exact le_trans hlower (le_trans (Nat.le_add_left _ _) hcap)) (by decide)) rfl
    hcapacity
  have hlength := length_encodeSemanticPayload hpayload
  rw [← hlength] at hcapacity
  have hsmall : payload.length < UInt32.size := lt_of_le_of_lt hcapacity (by decide)
  have hrecord : recordHeaderBytes + payload.length ≤ maxChunkRecordBytes :=
    le_trans (Nat.add_le_add_left hcapacity _) (by decide)
  simp only [encodeChunkRecordWithPolicy, bind_ok_iff, ensure_ok_iff, exists_const,
    decide_eq_true_eq]
  exact ⟨_, payload, hpayload, (.none, payload), rfl, hcapacity, _, u32TryFrom_of_lt hsmall _, _,
    u32TryFrom_of_lt hsmall _, hrecord, rfl⟩

def origin : ChunkCoord := ⟨0, 0⟩

def plainsChunk : ChunkRecord := ChunkRecord.empty 0x0192bc59

def plainsStore : WorldStore := (StoreOp.ensureChunk origin 1).apply WorldStore.new

theorem plainsStore_snapshot : plainsStore.snapshot origin = .ok (plainsChunk.snapshot origin) := by
  have hw : defaultBiomeWord 1 = some 0x0192bc59 := by decide
  simp [plainsStore, StoreOp.apply, WorldStore.ensureChunk, hw, WorldStore.containsChunk,
    WorldStore.new, WorldStore.snapshot, WorldStore.withChunk, plainsChunk]

theorem record_round_trip_plains : ∃ record stored,
    encodeChunkRecordWithPolicy Crates.reference (plainsChunk.snapshot origin) .none [] =
      .ok record ∧
    decodeChunkRecord Crates.reference record = .ok stored ∧
    stored.imported = (plainsChunk.snapshot origin).toImport := by
  have hreach : WorldStore.Reachable (DecodedImport Crates.reference) plainsStore :=
    .single ⟨.ensureChunk origin 1, trivial, rfl⟩
  obtain ⟨record, hrecord⟩ := encode_chest_chunk Crates.reference 0x0192bc59 origin [] (by simp)
    (by decide)
  obtain ⟨stored, hd, -, himport, -⟩ :=
    record_round_trip Crates.reference hreach plainsStore_snapshot hrecord
  exact ⟨record, stored, hrecord, hd, himport⟩

end Cobblestone.Storage
