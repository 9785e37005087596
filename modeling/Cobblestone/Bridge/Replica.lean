import Cobblestone.Bridge.WireCache
import Cobblestone.Storage.PayloadRoundTrip
import Cobblestone.Wire.Bootstrap
import Cobblestone.Wire.NbtRoundTrip

namespace Cobblestone.Wire

open Lib

def PacketId.updateBlock : UInt8 := 0x13

abbrev updateBlockFlagNeighbors : UInt8 := 0x01
abbrev updateBlockFlagNetwork : UInt8 := 0x02
abbrev updateBlockFlagPriority : UInt8 := 0x08
abbrev updateBlockFlagAllPriority : UInt8 :=
  updateBlockFlagNeighbors ||| updateBlockFlagNetwork ||| updateBlockFlagPriority

def encodeUpdateBlock (x : Int32) (y : UInt8) (z : Int32) (stateId : UInt16) (flags : UInt8) :
    Except CodecError RawPacket :=
  if 127 < y then .error (.invalidFixedTargetValue "UpdateBlock y" y.toNat 127)
  else if 0x0fff < stateId then
    .error (.invalidFixedTargetValue "UpdateBlock state id" stateId.toNat 0x0fff)
  else if 0x0f < flags then .error (.invalidFixedTargetValue "UpdateBlock flags" flags.toNat 0x0f)
  else
    let body := ((Writer.putI32Be [] x).putI32Be z).putU8 y
    let body := body.putU8 (stateId >>> 4).toUInt8
    .ok ⟨PacketId.updateBlock, body.putU8 ((flags <<< 4) ||| (stateId.toUInt8 &&& 0x0f))⟩

structure BlockUpdate where
  x : Int32
  z : Int32
  y : UInt8
  state : UInt16
deriving DecidableEq

-- From here to `readFullChunk`: the client's end of the two packets that carry blocks.
def BlockUpdate.chunkX (update : BlockUpdate) : Int32 := Int32.ofInt (update.x.toInt / 16)

def BlockUpdate.chunkZ (update : BlockUpdate) : Int32 := Int32.ofInt (update.z.toInt / 16)

def BlockUpdate.index (update : BlockUpdate) : Nat :=
  update.y.toNat * 256 + (update.z.toInt % 16).toNat * 16 + (update.x.toInt % 16).toNat

def readUpdateBlock : Reader BlockUpdate := do
  let x ← readI32Be
  let z ← readI32Be
  let y ← readU8
  let id ← readU8
  let data ← readU8
  finish
  pure ⟨x, z, y, Storage.joinState id (data &&& 0x0f)⟩

def readDocument (limits : NbtLimits) (fuel : Nat) : Lib.Reader (Halt CodecError) NbtDocument := do
  let tag ← readTag
  let name ← readString limits
  let value ← readPayload limits fuel 0 tag
  pure ⟨⟨name, value⟩⟩

def readDocuments : Nat → Bytes → Option (List NbtDocument)
  | 0, _ => none
  | fuel + 1, rest =>
    if rest.isEmpty then some []
    else
      match readDocument blockEntityLimits (rest.length + 1) rest with
      | .error _ => none
      | .ok (document, rest) => (readDocuments fuel rest).map (document :: ·)

def readExtraEntry : Reader (UInt32 × UInt16) := do
  let key ← readLe
  let value ← readU16Le
  pure (key, value)

structure ChunkPlanes where
  x : Int32
  z : Int32
  blockIds : Bytes
  blockData : Bytes
  skyLight : Bytes
  blockLight : Bytes
  heightMap : Bytes
  biomeWords : List UInt32
  extraData : List (UInt32 × UInt16)

def readPlanes : Reader ChunkPlanes := do
  let x ← readI32Be
  let z ← readI32Be
  let _ ← readU8
  let _ ← readU32Be
  let blockIds ← readExact ChunkShape.blockCount
  let blockData ← readExact ChunkShape.nibbleBytes
  let skyLight ← readExact ChunkShape.nibbleBytes
  let blockLight ← readExact ChunkShape.nibbleBytes
  let heightMap ← readExact ChunkShape.columnCount
  let biomeWords ← Lib.Reader.times readU32Be ChunkShape.columnCount
  let count ← (readLe : Reader UInt32)
  let extraData ← Lib.Reader.times readExtraEntry count.toNat
  pure ⟨x, z, blockIds, blockData, skyLight, blockLight, heightMap, biomeWords, extraData⟩

structure ClientChunk where
  states : List UInt16
  skyLight : Bytes
  blockLight : Bytes
  heightMap : Bytes
  biomeWords : List UInt32
  extraData : List (UInt32 × UInt16)
  blockEntities : List NbtDocument

def ClientChunk.setState (chunk : ClientChunk) (index : Nat) (state : UInt16) : ClientChunk :=
  { chunk with states := chunk.states.set index state }

def ChunkPlanes.chunk (planes : ChunkPlanes) (blockEntities : List NbtDocument) : ClientChunk where
  states := Storage.decodeStates planes.blockIds planes.blockData
  skyLight := planes.skyLight
  blockLight := planes.blockLight
  heightMap := planes.heightMap
  biomeWords := planes.biomeWords
  extraData := planes.extraData
  blockEntities := blockEntities

def readFullChunk (body : Bytes) : Option (Int32 × Int32 × ClientChunk) :=
  match readPlanes body with
  | .error _ => none
  | .ok (planes, rest) => (readDocuments (rest.length + 1) rest).map fun blockEntities =>
    (planes.x, planes.z, planes.chunk blockEntities)

theorem encodeUpdateBlock_ok {x z : Int32} {y flags : UInt8} {stateId : UInt16} {packet : RawPacket}
    (h : encodeUpdateBlock x y z stateId flags = .ok packet) :
    stateId ≤ 0x0fff ∧ packet.id = PacketId.updateBlock ∧
      packet.body = Word.toBeBytes x ++ (Word.toBeBytes z ++ (Word.toLeBytes y ++
        (Word.toLeBytes (stateId >>> 4).toUInt8 ++
          Word.toLeBytes ((flags <<< 4) ||| (stateId.toUInt8 &&& 0x0f))))) := by
  unfold encodeUpdateBlock at h
  split at h
  · cases h
  · split at h
    · cases h
    · next hs =>
      split at h
      · cases h
      · cases h
        refine ⟨UInt16.not_lt.mp hs, rfl, ?_⟩
        simp only [Writer.putBe, Writer.putLe, List.nil_append, List.append_assoc]

theorem low_of_flags (flags nibble : UInt8) :
    ((flags <<< 4) ||| (nibble &&& 0x0f)) &&& 0x0f = nibble &&& 0x0f := by
  apply UInt8.toBitVec_inj.mp
  apply BitVec.eq_of_getLsbD_eq
  intro i hi
  interval_cases i <;> simp

theorem readUpdateBlock_encoded {x z : Int32} {y flags : UInt8} {stateId : UInt16}
    {packet : RawPacket} (h : encodeUpdateBlock x y z stateId flags = .ok packet) :
    runReader readUpdateBlock packet.body = .ok ⟨x, z, y, stateId⟩ := by
  obtain ⟨hstate, -, hbody⟩ := encodeUpdateBlock_ok h
  have hjoin : Storage.joinState (stateId >>> 4).toUInt8
      (((flags <<< 4) ||| (stateId.toUInt8 &&& 0x0f)) &&& 0x0f) = stateId := by
    rw [low_of_flags]
    have hnibble : stateId.toUInt8 &&& 0x0f = Storage.stateNibble stateId :=
      (UInt16.toUInt8_and stateId 0x0f).symm
    rw [hnibble]
    exact Storage.joinState_split hstate
  rw [hbody]
  refine runReader_bind (readBe_reads x) ?_
  refine runReader_bind (readBe_reads z) ?_
  refine runReader_bind (readLe_reads y) ?_
  refine runReader_bind (readLe_reads _) ?_
  rw [runReader_last (readLe_reads _), hjoin]

theorem readDocument_bytes {limits : NbtLimits} {document : NbtDocument} {fuel : Nat} {rest : Bytes}
    (hfits : document.Fits limits) (hfuel : (document.bytes ++ rest).length < fuel) :
    readDocument limits fuel (document.bytes ++ rest) = .ok (document, rest) := by
  obtain ⟨⟨name, value⟩⟩ := document
  obtain ⟨hname, hvalue, -⟩ := hfits
  simp only [NbtDocument.bytes, List.length_append, List.append_assoc] at hfuel hname hvalue ⊢
  unfold readDocument
  refine Reader.bind_ok_iff.mpr ⟨_, _, Reader.fueled_ok_iff.mpr (readTag_ok_iff.mpr rfl), ?_⟩
  refine Reader.bind_ok_iff.mpr
    ⟨_, _, Reader.fueled_ok_iff.mpr (readString_ok_iff.mpr ⟨hname, rfl⟩), ?_⟩
  refine Reader.bind_ok_iff.mpr ⟨value, rest, ?_, rfl⟩
  refine (readPayload_ok_iff fuel 0 _ _ ?_ _ _).mpr ⟨⟨rfl, hvalue⟩, rfl⟩
  rw [List.length_append]
  omega

theorem bytes_ne_nil (document : NbtDocument) : document.bytes ≠ [] := by
  intro h
  rw [NbtDocument.bytes, List.append_assoc] at h
  have htag : (tagBytes document.root.value.tag).length = 1 := Word.length_toLeBytes _
  rw [(List.append_eq_nil_iff.mp h).1] at htag
  cases htag

theorem readDocuments_bytes {documents : List NbtDocument}
    (hfits : ∀ document ∈ documents, document.Fits blockEntityLimits) {fuel : Nat}
    (hfuel : documents.length < fuel) :
    readDocuments fuel (documents.flatMap NbtDocument.bytes) = some documents := by
  induction documents generalizing fuel with
  | nil =>
    obtain ⟨fuel, rfl⟩ := Nat.exists_eq_succ_of_ne_zero (Nat.ne_zero_of_lt hfuel)
    rfl
  | cons document documents ih =>
    obtain ⟨fuel, rfl⟩ := Nat.exists_eq_succ_of_ne_zero (Nat.ne_zero_of_lt hfuel)
    rw [List.length_cons] at hfuel
    have hrest : readDocuments fuel (documents.flatMap NbtDocument.bytes) = some documents :=
      ih (fun d hd => hfits d (List.mem_cons_of_mem _ hd)) (by omega)
    have hne : (document.bytes ++ documents.flatMap NbtDocument.bytes).isEmpty = false := by
      rw [List.isEmpty_eq_false_iff]
      exact fun h => bytes_ne_nil document (List.append_eq_nil_iff.mp h).1
    rw [List.flatMap_cons, Nat.succ_eq_add_one, readDocuments, hne, if_neg Bool.false_ne_true,
      readDocument_bytes (hfits document List.mem_cons_self) (Nat.lt_succ_self _)]
    dsimp only
    rw [hrest, Option.map_some]

theorem encodeDocuments_ok {documents : List NbtDocument} {encoded : List Bytes}
    (h : documents.mapM (fun document => encodeLe document blockEntityLimits) = .ok encoded) :
    (∀ document ∈ documents, document.Fits blockEntityLimits) ∧
      encoded = documents.map NbtDocument.bytes := by
  have hall := mapM_ok_iff.mp h
  clear h
  induction hall with
  | nil => exact ⟨nofun, rfl⟩
  | cons hd _ ih =>
    obtain ⟨hfits, rfl⟩ := encodeLe_sound hd
    obtain ⟨hrest, rfl⟩ := ih
    exact ⟨List.forall_mem_cons.mpr ⟨hfits, hrest⟩, rfl⟩

def extraEntryBytes (entry : UInt32 × UInt16) : Bytes :=
  Word.toLeBytes entry.1 ++ Word.toLeBytes entry.2

theorem putExtraEntries_ok {entries : List (UInt32 × UInt16)} {w w' : Writer}
    (h : entries.foldlM putExtraData w = .ok w') : w' = w ++ entries.flatMap extraEntryBytes := by
  induction entries generalizing w with
  | nil =>
    cases h
    exact (List.append_nil _).symm
  | cons entry entries ih =>
    rw [List.foldlM_cons] at h
    obtain ⟨u, hu, hrest⟩ := bind_ok_iff.mp h
    obtain ⟨_, -, hput⟩ := bind_ok_iff.mp hu
    cases hput
    rw [ih hrest, List.flatMap_cons, extraEntryBytes]
    simp only [Writer.putLe, List.append_assoc]

theorem foldl_putU32Be (words : List UInt32) (w : Writer) :
    words.foldl Writer.putU32Be w = w ++ words.flatMap Word.toBeBytes := by
  induction words generalizing w with
  | nil => exact (List.append_nil w).symm
  | cons word words ih =>
    rw [List.foldl_cons, ih, List.flatMap_cons]
    simp only [Writer.putBe, List.append_assoc]

theorem foldl_putBytes (encoded : List Bytes) (w : Writer) :
    encoded.foldl Writer.putBytes w = w ++ encoded.flatten := by
  induction encoded generalizing w with
  | nil => exact (List.append_nil w).symm
  | cons bytes encoded ih =>
    rw [List.foldl_cons, ih, List.flatten_cons]
    simp only [Writer.putBytes, List.append_assoc]

theorem requireLen_ok_iff {field : String} {length expected : Nat} {u : Unit} :
    requireLen field length expected = .ok u ↔ length = expected := by
  unfold requireLen
  split <;> simp_all

theorem u32OfLen_ok {field : String} {length : Nat} {n : UInt32} (h : u32OfLen field length = .ok n) :
    length < UInt32.size ∧ n = UInt32.ofNat length := by
  unfold u32OfLen at h
  split at h
  · next hlt =>
    cases h
    exact ⟨hlt, rfl⟩
  · cases h

-- What an accepted view looks like on the wire.
structure Spelled (v : ChunkWireView) (packet : RawPacket) : Prop where
  blockIds : v.blockIds.length = ChunkShape.blockCount
  blockData : v.blockData.length = ChunkShape.nibbleBytes
  skyLight : v.skyLight.length = ChunkShape.nibbleBytes
  blockLight : v.blockLight.length = ChunkShape.nibbleBytes
  biomeWords : v.biomeWords.length = ChunkShape.columnCount
  heightMap : v.heightMap.length = ChunkShape.columnCount
  extraData : v.extraData.length < UInt32.size
  documents : ∀ document ∈ v.blockEntities, document.Fits blockEntityLimits
  id : packet.id = fullChunkDataId
  body : ∃ payloadLen : UInt32, packet.body = Word.toBeBytes v.chunkX ++ (Word.toBeBytes v.chunkZ ++
    (Word.toLeBytes chunkOrderLayered ++ (Word.toBeBytes payloadLen ++ (v.blockIds ++
      (v.blockData ++ (v.skyLight ++ (v.blockLight ++ (v.heightMap ++
        (v.biomeWords.flatMap Word.toBeBytes ++
          (Word.toLeBytes (UInt32.ofNat v.extraData.length) ++
            (v.extraData.flatMap extraEntryBytes ++
              v.blockEntities.flatMap NbtDocument.bytes)))))))))))

theorem encodeFullChunk_ok {v : ChunkWireView} {packet : RawPacket}
    (h : encodeFullChunk v = .ok packet) : Spelled v packet := by
  unfold encodeFullChunk at h
  obtain ⟨_, hids, h⟩ := bind_ok_iff.mp h
  obtain ⟨_, hdata, h⟩ := bind_ok_iff.mp h
  obtain ⟨_, hsky, h⟩ := bind_ok_iff.mp h
  obtain ⟨_, hblock, h⟩ := bind_ok_iff.mp h
  obtain ⟨_, hbiomes, h⟩ := bind_ok_iff.mp h
  obtain ⟨_, hheights, h⟩ := bind_ok_iff.mp h
  obtain ⟨encoded, hdocuments, h⟩ := bind_ok_iff.mp h
  obtain ⟨count, hcount, h⟩ := bind_ok_iff.mp h
  obtain ⟨payload, hpayload, h⟩ := bind_ok_iff.mp h
  obtain ⟨payloadLen, -, h⟩ := bind_ok_iff.mp h
  cases h
  obtain ⟨hextra, rfl⟩ := u32OfLen_ok hcount
  obtain ⟨hfits, rfl⟩ := encodeDocuments_ok hdocuments
  refine ⟨requireLen_ok_iff.mp hids, requireLen_ok_iff.mp hdata, requireLen_ok_iff.mp hsky,
    requireLen_ok_iff.mp hblock, requireLen_ok_iff.mp hbiomes, requireLen_ok_iff.mp hheights,
    hextra, hfits, rfl, payloadLen, ?_⟩
  rw [foldl_putBytes, putExtraEntries_ok hpayload, foldl_putU32Be, ← List.flatMap_def]
  simp only [Writer.putBe, Writer.putLe, Writer.putBytes, List.nil_append, List.append_assoc]

theorem readExtraEntry_reads (entry : UInt32 × UInt16) :
    Reads readExtraEntry (extraEntryBytes entry) entry :=
  (readLe_reads entry.1).bind ((readLe_reads entry.2).bind_pure _)

theorem readPlanes_spelled {v : ChunkWireView} {packet : RawPacket} (h : Spelled v packet) :
    readPlanes packet.body = .ok (⟨v.chunkX, v.chunkZ, v.blockIds, v.blockData, v.skyLight,
      v.blockLight, v.heightMap, v.biomeWords, v.extraData⟩,
        v.blockEntities.flatMap NbtDocument.bytes) := by
  obtain ⟨payloadLen, hbody⟩ := h.body
  have hbiomes : Reads (Lib.Reader.times readU32Be v.biomeWords.length)
      (v.biomeWords.flatMap Word.toBeBytes) v.biomeWords :=
    .times fun word _ => readBe_reads word
  rw [h.biomeWords] at hbiomes
  have hextra : Reads (Lib.Reader.times readExtraEntry v.extraData.length)
      (v.extraData.flatMap extraEntryBytes) v.extraData :=
    .times fun entry _ => readExtraEntry_reads entry
  have hcount : (UInt32.ofNat v.extraData.length).toNat = v.extraData.length :=
    UInt32.toNat_ofNat_of_lt' h.extraData
  rw [← hcount] at hextra
  rw [hbody, readPlanes, (readBe_reads v.chunkX).run, (readBe_reads v.chunkZ).run,
    (readLe_reads chunkOrderLayered).run, (readBe_reads payloadLen).run,
    (readExact_reads h.blockIds).run, (readExact_reads h.blockData).run,
    (readExact_reads h.skyLight).run, (readExact_reads h.blockLight).run,
    (readExact_reads h.heightMap).run, hbiomes.run, (readLe_reads _).run, hextra.run]
  rfl

theorem readFullChunk_encoded {v : ChunkWireView} {packet : RawPacket}
    (h : encodeFullChunk v = .ok packet) :
    readFullChunk packet.body = some (v.chunkX, v.chunkZ, ⟨Storage.decodeStates v.blockIds v.blockData,
      v.skyLight, v.blockLight, v.heightMap, v.biomeWords, v.extraData, v.blockEntities⟩) := by
  have hspelled := encodeFullChunk_ok h
  have hlength (documents : List NbtDocument) :
      documents.length ≤ (documents.flatMap NbtDocument.bytes).length := by
    induction documents with
    | nil => exact Nat.le_refl 0
    | cons document documents ih =>
      have hpos := List.length_pos_of_ne_nil (bytes_ne_nil document)
      rw [List.flatMap_cons, List.length_append, List.length_cons]
      omega
  have hdocuments := readDocuments_bytes hspelled.documents
    (Nat.lt_succ_of_le (hlength v.blockEntities))
  rw [readFullChunk, readPlanes_spelled hspelled]
  dsimp only
  rw [hdocuments]
  rfl

end Cobblestone.Wire

namespace Cobblestone.Bridge

open Lib World Wire

def shownChunk (data : ChunkData) : ClientChunk where
  states := data.states
  skyLight := data.skyLight
  blockLight := data.blockLight
  heightMap := data.heightMap
  biomeWords := data.biomes
  extraData := data.extraData.toList.map fun entry => (entry.1.toUInt32, entry.2)
  blockEntities := data.chestBlockEntities.map chestNbt

theorem readFullChunk_chunk {p : ChunkCoord} {data : ChunkData} {packet : RawPacket}
    (hdata : data.WellFormed) (h : encodeChunk p data = .ok packet) :
    readFullChunk packet.body = some (p.x, p.z, shownChunk data) := by
  have hstates := Storage.decodeStates_encode hdata.states_length fun state hs =>
    of_decide_eq_true (Bool.and_eq_true _ _ ▸ hdata.states_supported state hs).1
  rw [readFullChunk_encoded h]
  exact congrArg (fun states => some (p.x, p.z, { shownChunk data with states := states })) hstates

end Cobblestone.Bridge
