import Cobblestone.Wire.Packet

namespace Cobblestone.Wire

open Lib

section Readers

variable {α β : Type}

theorem readLe_reads [Word α] (a : α) : Reads (readLe : Reader α) (Word.toLeBytes a) a :=
  fun _ => readLe_ok_iff.mpr rfl

theorem readBe_reads [Word α] (a : α) : Reads (readBe : Reader α) (Word.toBeBytes a) a :=
  fun _ => readBe_ok_iff.mpr rfl

theorem readExact_reads {n : Nat} {bytes : Bytes} (h : bytes.length = n) :
    Reads (readExact n) bytes bytes :=
  fun _ => readExact_ok_iff.mpr ⟨h, rfl⟩

theorem checked_reads {a : β} {x : Except CodecError β} (h : x = .ok a) :
    Reads (liftM x : Reader β) [] a :=
  fun _ => Reader.checked_ok_iff.mpr ⟨h, rfl⟩

theorem checkLimit_reads {kind : LimitKind} {actual limit : Nat} (h : actual ≤ limit) :
    Reads (liftM (checkLimit kind actual limit) : Reader Unit) [] () :=
  checked_reads (checkLimit_ok_iff.mpr h)

theorem ensure_reads {condition : Bool} (h : condition = true) (e : CodecError) :
    Reads (liftM (ensure condition e) : Reader Unit) [] () :=
  checked_reads (ensure_ok_iff.mpr h)

theorem readTriple_reads [Word α] (t : Triple α) :
    Reads (readTriple (readBe : Reader α))
      (Word.toBeBytes t.x ++ (Word.toBeBytes t.y ++ Word.toBeBytes t.z)) t :=
  (readBe_reads t.x).bind ((readBe_reads t.y).bind ((readBe_reads t.z).bind_pure _))

theorem readStringU16_reads {text : String} (h : len text < 65536) :
    Reads readStringU16 (Word.toBeBytes (UInt16.ofNat (len text)) ++ utf8 text) text := by
  have hlen : (UInt16.ofNat (len text)).toNat = len text := UInt16.toNat_ofNat_of_lt' h
  refine (readBe_reads _).bind ?_
  rw [← List.append_nil (utf8 text)]
  exact (readExact_reads hlen.symm).bind (checked_reads (fromUtf8_ok_iff.mpr rfl))

theorem requireFixedByte_reads (field : String) (expected : UInt8) :
    Reads (requireFixedByte field expected) (Word.toLeBytes expected) () := by
  rw [← List.append_nil (Word.toLeBytes expected)]
  exact (readLe_reads expected).bind (ensure_reads (decide_eq_true rfl) _)

theorem runReader_bind {r : Reader α} {k : α → Reader β} {enc body : Bytes} {a : α} {b : β}
    (h : Reads r enc a) (hk : runReader (k a) body = .ok b) :
    runReader (r >>= k) (enc ++ body) = .ok b := by
  rw [runReader, h.run]
  exact hk

theorem runReader_step {r : Reader α} {k : α → Reader β} {body : Bytes} {a : α} {b : β}
    (h : Reads r [] a) (hk : runReader (k a) body = .ok b) : runReader (r >>= k) body = .ok b :=
  runReader_bind h hk

theorem runReader_finish (b : β) : runReader (do finish; pure b) [] = .ok b := rfl

theorem runReader_last {r : Reader α} {f : α → β} {enc : Bytes} {a : α} (h : Reads r enc a) :
    runReader (do let a ← r; finish; pure (f a)) enc = .ok (f a) := by
  rw [← List.append_nil enc]
  exact runReader_bind h (runReader_finish (f a))

end Readers

variable {zlib : Zlib} {limits : CodecLimits}

theorem toU8_ne_zero (started : Bool) : decide (u8OfBool started ≠ 0) = started := by
  cases started <;> rfl

theorem dimensionOf_toU8 (dimension : DimensionId) : dimensionOf dimension.toU8 = .ok dimension := by
  cases dimension <;> rfl

theorem putStringU16_ok_iff {w w' : Writer} {field text : String} :
    w.putStringU16 field text = .ok w' ↔
      len text < 65536 ∧ w' = w ++ (Word.toBeBytes (UInt16.ofNat (len text)) ++ utf8 text) := by
  unfold Writer.putStringU16
  simp only [bind_ok_iff, u16OfLen_ok_iff]
  constructor
  · rintro ⟨_, ⟨hlt, rfl⟩, h⟩
    cases h
    exact ⟨hlt, List.append_assoc _ _ _⟩
  · rintro ⟨hlt, rfl⟩
    exact ⟨_, ⟨hlt, rfl⟩, by rw [← List.append_assoc]; rfl⟩

theorem playStatus_round_trip (packet : PlayStatusPacket) :
    runReader readPlayStatus (Writer.putI32Be [] packet.status) = .ok packet :=
  runReader_last (readBe_reads packet.status)

theorem disconnect_round_trip {packet : DisconnectPacket} {body : Bytes}
    (h : Writer.putStringU16 [] "disconnect message" packet.message = .ok body) :
    runReader readDisconnect body = .ok packet := by
  obtain ⟨hlt, rfl⟩ := putStringU16_ok_iff.mp h
  exact runReader_last (readStringU16_reads hlt)

theorem setTime_round_trip (packet : SetTimePacket) :
    runReader readSetTime ((Writer.putI32Be [] packet.time).putU8 (u8OfBool packet.started)) =
      .ok packet := by
  refine runReader_bind (readBe_reads packet.time) ?_
  rw [runReader_last (readLe_reads _), toU8_ne_zero]

theorem setSpawnPosition_round_trip (packet : SetSpawnPositionPacket) :
    runReader readSetSpawnPosition (Writer.putTripleBe [] packet.position) = .ok packet := by
  have hbody : Writer.putTripleBe [] packet.position =
      Word.toBeBytes packet.position.x ++
        (Word.toBeBytes packet.position.y ++ Word.toBeBytes packet.position.z) := by
    simp only [Writer.putTripleBe, Writer.putBe, List.nil_append, List.append_assoc]
  rw [hbody]
  exact runReader_last (readTriple_reads packet.position)

theorem adventureSettings_new (packet : AdventureSettingsPacket) :
    .new packet.flags packet.userPermission packet.globalPermission = packet := by
  simp only [AdventureSettingsPacket.new, AdventureSettingsPacket.flags, UInt32.toUInt32_toInt32]

theorem adventureSettings_round_trip (packet : AdventureSettingsPacket) :
    runReader readAdventureSettings
      (((Writer.putI32Be [] packet.flags).putI32Be packet.userPermission).putI32Be
        packet.globalPermission) = .ok packet := by
  simp only [Writer.putBe, List.nil_append, List.append_assoc]
  refine runReader_bind (readBe_reads packet.flags) ?_
  refine runReader_bind (readBe_reads packet.userPermission) ?_
  rw [runReader_last (readBe_reads packet.globalPermission), adventureSettings_new]

theorem setDifficulty_round_trip (packet : SetDifficultyPacket) :
    runReader readSetDifficulty (Writer.putI32Be [] packet.difficulty) = .ok packet :=
  runReader_last (readBe_reads packet.difficulty)

theorem startGame_round_trip {packet : StartGamePacket} {body : Bytes}
    (h : writeStartGame packet = .ok body) : runReader readStartGame body = .ok packet := by
  obtain ⟨hlt, hbody⟩ := putStringU16_ok_iff.mp h
  rw [hbody]
  simp only [Writer.putTripleBe, Writer.putBe, Writer.putLe, List.nil_append, List.append_assoc]
  refine runReader_bind (readBe_reads packet.seed) ?_
  refine runReader_bind (readLe_reads packet.dimension.toU8) ?_
  refine runReader_step (checked_reads (dimensionOf_toU8 packet.dimension)) ?_
  refine runReader_bind (readBe_reads packet.generator) ?_
  refine runReader_bind (readBe_reads packet.gamemode) ?_
  refine runReader_bind (readBe_reads packet.entityId) ?_
  rw [← List.append_assoc, ← List.append_assoc, List.append_assoc (Word.toBeBytes packet.spawn.x)]
  refine runReader_bind (readTriple_reads packet.spawn) ?_
  rw [← List.append_assoc, ← List.append_assoc,
    List.append_assoc (Word.toBeBytes packet.positionBits.x)]
  refine runReader_bind (readTriple_reads packet.positionBits) ?_
  refine runReader_bind (requireFixedByte_reads _ 1) ?_
  refine runReader_bind (requireFixedByte_reads _ 1) ?_
  refine runReader_bind (requireFixedByte_reads _ 0) ?_
  exact runReader_last (readStringU16_reads hlt)

theorem compressZlib_ok {input compressed : Bytes} (h : compressZlib zlib input = .ok compressed) :
    zlib.compress input = .ok compressed := by
  unfold compressZlib at h
  cases hc : zlib.compress input with
  | error e =>
    rw [hc] at h
    cases h
  | ok output =>
    rw [hc] at h
    cases h
    rfl

theorem decompressZlibLimited_of_compress (hzlib : zlib.Inverts) {input compressed : Bytes}
    {limit : Nat} (kind : LimitKind) (h : compressZlib zlib input = .ok compressed)
    (hlimit : input.length ≤ limit) :
    decompressZlibLimited zlib compressed limit kind = .ok input := by
  have htake : input.take (limit + 1) = input := List.take_of_length_le (by omega)
  have hread := hzlib input compressed (limit + 1) (compressZlib_ok h)
  rw [htake] at hread
  unfold decompressZlibLimited
  rw [hread]
  exact bind_ok_iff.mpr ⟨input, rfl, bind_ok_iff.mpr ⟨(), checkLimit_ok_iff.mpr hlimit, rfl⟩⟩

@[simp] theorem i32OfLen_ok_iff {field : String} {n : Nat} {v : Int32} :
    i32OfLen field n = .ok v ↔ n < 2147483648 ∧ v = Int32.ofNat n := by
  unfold i32OfLen
  split
  · next h => simp [h, eq_comm]
  · next h => simp [h]

theorem nonnegativeLen_ofNat {field : String} {n : Nat} (h : n < 2147483648) :
    nonnegativeLen field (Int32.ofNat n) = .ok n :=
  usizeOfI32_ok_iff.mpr ⟨h, rfl⟩

theorem login_round_trip (hzlib : zlib.Inverts) {packet : LoginPacket} {body : Bytes}
    (h : encodeLogin zlib packet limits = .ok body) :
    decodeLogin zlib body limits = .ok packet := by
  unfold encodeLogin at h
  obtain ⟨_, hprotocol, h₁⟩ := bind_ok_iff.mp h
  obtain ⟨chainLen, hchain, h₂⟩ := bind_ok_iff.mp h₁
  obtain ⟨skinLen, hskin, h₃⟩ := bind_ok_iff.mp h₂
  obtain ⟨_, hinner, h₄⟩ := bind_ok_iff.mp h₃
  obtain ⟨compressed, hcompressed, h₅⟩ := bind_ok_iff.mp h₄
  obtain ⟨_, hlimit, h₆⟩ := bind_ok_iff.mp h₅
  obtain ⟨compressedLen, hlen, h₇⟩ := bind_ok_iff.mp h₆
  cases h₇
  obtain ⟨hchainLt, rfl⟩ := i32OfLen_ok_iff.mp hchain
  obtain ⟨hskinLt, rfl⟩ := i32OfLen_ok_iff.mp hskin
  obtain ⟨hlenLt, rfl⟩ := i32OfLen_ok_iff.mp hlen
  have hgame : packet.protocol = gameProtocol := by simpa using hprotocol
  have henvelope : runReader (readLoginEnvelope limits)
      (((Writer.putI32Be [] gameProtocol).putI32Be (Int32.ofNat compressed.length)).putBytes
        compressed) = .ok (gameProtocol, compressed) := by
    simp only [Writer.putBe, Writer.putBytes, List.nil_append, List.append_assoc]
    refine runReader_bind (readBe_reads gameProtocol) ?_
    refine runReader_step (ensure_reads (decide_eq_true rfl) _) ?_
    refine runReader_bind (readBe_reads _) ?_
    refine runReader_step (checked_reads (nonnegativeLen_ofNat hlenLt)) ?_
    refine runReader_step (checkLimit_reads (checkLimit_ok_iff.mp hlimit)) ?_
    exact runReader_last (readExact_reads rfl)
  have hpacket : runReader (readLoginInner gameProtocol)
      ((((Writer.putI32Le [] (Int32.ofNat packet.chainData.length)).putBytes
        packet.chainData).putI32Le (Int32.ofNat packet.skinJwt.length)).putBytes packet.skinJwt) =
        .ok packet := by
    simp only [Writer.putLe, Writer.putBytes, List.nil_append, List.append_assoc]
    refine runReader_bind (readLe_reads _) ?_
    refine runReader_step (checked_reads (nonnegativeLen_ofNat hchainLt)) ?_
    refine runReader_bind (readExact_reads rfl) ?_
    refine runReader_bind (readLe_reads _) ?_
    refine runReader_step (checked_reads (nonnegativeLen_ofNat hskinLt)) ?_
    rw [runReader_last (readExact_reads rfl), ← hgame]
  have hinflate := decompressZlibLimited_of_compress hzlib .loginDecompressed hcompressed
    (checkLimit_ok_iff.mp hinner)
  unfold decodeLogin
  exact bind_ok_iff.mpr ⟨_, henvelope, bind_ok_iff.mpr ⟨_, hinflate, hpacket⟩⟩

namespace BatchPacket

@[simp] theorem u32OfLen_ok_iff {field : String} {n : Nat} {v : UInt32} :
    u32OfLen field n = .ok v ↔ n < 4294967296 ∧ v = UInt32.ofNat n := by
  unfold u32OfLen
  split
  · next h => simp [h, eq_comm]
  · next h => simp [h]

def innerBytes (packet : RawPacket) : Bytes :=
  Word.toBeBytes (UInt32.ofNat packet.encodedLen) ++ packet.id :: packet.body

structure InnerFits (limits : CodecLimits) (packet : RawPacket) : Prop where
  limit : packet.encodedLen ≤ limits.maxInnerPacketBytes
  word : packet.encodedLen < 4294967296

theorem writePacket_ok {w w' : Bytes} {packet : RawPacket}
    (h : writePacket limits w packet = .ok w') :
    InnerFits limits packet ∧ w' = w ++ innerBytes packet ∧
      w'.length ≤ limits.maxBatchDecompressedBytes := by
  unfold writePacket at h
  obtain ⟨_, hlimit, h₁⟩ := bind_ok_iff.mp h
  obtain ⟨v, hword, h₂⟩ := bind_ok_iff.mp h₁
  obtain ⟨_, hroom, h₃⟩ := bind_ok_iff.mp h₂
  cases h₃
  obtain ⟨hlt, rfl⟩ := u32OfLen_ok_iff.mp hword
  refine ⟨⟨checkLimit_ok_iff.mp hlimit, hlt⟩, ?_, checkLimit_ok_iff.mp hroom⟩
  rw [RawPacket.writePacketBytes, innerBytes, List.append_assoc]

theorem writePackets_ok {w w' : Bytes} {packets : List RawPacket}
    (h : packets.foldlM (writePacket limits) w = .ok w') :
    (∀ packet ∈ packets, InnerFits limits packet) ∧ w' = w ++ packets.flatMap innerBytes ∧
      (w.length ≤ limits.maxBatchDecompressedBytes →
        w'.length ≤ limits.maxBatchDecompressedBytes) := by
  induction packets generalizing w with
  | nil =>
    cases h
    exact ⟨fun _ hp => absurd hp List.not_mem_nil, by simp, id⟩
  | cons packet packets ih =>
    rw [List.foldlM_cons] at h
    obtain ⟨u, hu, hrest⟩ := bind_ok_iff.mp h
    obtain ⟨hfits, rfl, hroom⟩ := writePacket_ok hu
    obtain ⟨hall, rfl, hend⟩ := ih hrest
    refine ⟨List.forall_mem_cons.mpr ⟨hfits, hall⟩, ?_, fun _ => hend hroom⟩
    rw [List.flatMap_cons, List.append_assoc]

theorem readInnerPacket_reads {count : Nat} {packet : RawPacket} (hfits : InnerFits limits packet)
    (hcount : count + 1 ≤ limits.maxInnerPackets) :
    Reads (readInnerPacket limits count) (innerBytes packet) packet := by
  have hlen : (UInt32.ofNat packet.encodedLen).toNat = packet.encodedLen :=
    UInt32.toNat_ofNat_of_lt' hfits.word
  have hbytes : (packet.id :: packet.body).length = (UInt32.ofNat packet.encodedLen).toNat := by
    rw [hlen, List.length_cons, RawPacket.encodedLen, Nat.add_comm]
  unfold readInnerPacket
  refine (checkLimit_reads hcount).bind_silent ?_
  refine (readBe_reads _).bind ?_
  refine (ensure_reads ?_ _).bind_silent ?_
  · rw [hlen, RawPacket.encodedLen, decide_eq_true_eq]
    omega
  refine (checkLimit_reads (by rw [hlen]; exact hfits.limit)).bind_silent ?_
  rw [← List.append_nil (packet.id :: packet.body)]
  exact (readExact_reads hbytes).bind (checked_reads rfl)

theorem decodePackets_flatMap {packets : List RawPacket} {count : Nat}
    (hfits : ∀ packet ∈ packets, InnerFits limits packet)
    (hcount : count + packets.length ≤ limits.maxInnerPackets) :
    decodePackets limits count (packets.flatMap innerBytes) = .ok packets := by
  induction packets generalizing count with
  | nil =>
    rw [decodePackets]
    rfl
  | cons packet packets ih =>
    obtain ⟨hpacket, hpackets⟩ := List.forall_mem_cons.mp hfits
    rw [List.length_cons] at hcount
    have hread : readInnerPacket limits count (innerBytes packet ++ packets.flatMap innerBytes) =
        .ok (packet, packets.flatMap innerBytes) := readInnerPacket_reads hpacket (by omega) _
    have hrest : decodePackets limits (count + 1) (packets.flatMap innerBytes) = .ok packets :=
      ih hpackets (by omega)
    have hpos : ((packet :: packets).flatMap innerBytes).length ≠ 0 := by
      simp [innerBytes]
    rw [← List.flatMap_cons] at hread
    rw [decodePackets, if_neg hpos]
    split
    · next e he => cases hread.symm.trans he
    · next p rest hp =>
      cases hread.symm.trans hp
      rw [hrest]
      rfl

theorem body_round_trip (hzlib : zlib.Inverts) {batch : BatchPacket} {body : Bytes}
    (h : encodeBody zlib batch limits = .ok body) : decodeBody zlib body limits = .ok batch := by
  unfold encodeBody at h
  obtain ⟨_, hcount, h₁⟩ := bind_ok_iff.mp h
  obtain ⟨uncompressed, hwritten, h₂⟩ := bind_ok_iff.mp h₁
  obtain ⟨compressed, hcompressed, h₃⟩ := bind_ok_iff.mp h₂
  obtain ⟨_, hlimit, h₄⟩ := bind_ok_iff.mp h₃
  obtain ⟨compressedLen, hlen, h₅⟩ := bind_ok_iff.mp h₄
  cases h₅
  obtain ⟨hlt, rfl⟩ := u32OfLen_ok_iff.mp hlen
  obtain ⟨hfits, rfl, hroom⟩ := writePackets_ok hwritten
  rw [List.nil_append] at hcompressed hroom
  have hword : (UInt32.ofNat compressed.length).toNat = compressed.length :=
    UInt32.toNat_ofNat_of_lt' hlt
  have henvelope : runReader (readEnvelope limits)
      ((Writer.putU32Be [] (UInt32.ofNat compressed.length)).putBytes compressed) =
        .ok compressed := by
    simp only [Writer.putBe, Writer.putBytes, List.nil_append]
    refine runReader_bind (readBe_reads _) ?_
    refine runReader_step (checkLimit_reads ?_) ?_
    · rw [hword]
      exact checkLimit_ok_iff.mp hlimit
    · exact runReader_last (readExact_reads hword.symm)
  have hinflate := decompressZlibLimited_of_compress hzlib .batchDecompressed hcompressed
    (hroom (Nat.zero_le _))
  have hpackets : decodePackets limits 0 (batch.packets.flatMap innerBytes) = .ok batch.packets := by
    refine decodePackets_flatMap hfits ?_
    rw [Nat.zero_add]
    exact checkLimit_ok_iff.mp hcount
  unfold decodeBody
  refine bind_ok_iff.mpr ⟨_, henvelope, bind_ok_iff.mpr ⟨_, hinflate, ?_⟩⟩
  exact bind_ok_iff.mpr ⟨_, hpackets, rfl⟩

end BatchPacket

theorem gameFrame_round_trip {raw : RawPacket} {frame : Bytes}
    (h : encodeGameFrame raw limits = .ok frame) : decodeGameFrame frame limits = .ok raw := by
  unfold encodeGameFrame at h
  obtain ⟨_, hlimit, h₁⟩ := bind_ok_iff.mp h
  cases h₁
  have hlen : (raw.writePacketBytes [gameMarker]).length = 1 + raw.encodedLen := by
    simp only [RawPacket.writePacketBytes, RawPacket.encodedLen, List.length_append,
      List.length_cons, List.length_nil]
    omega
  rw [← hlen] at hlimit
  exact bind_ok_iff.mpr ⟨(), checkLimit_ok_iff.mpr (checkLimit_ok_iff.mp hlimit), rfl⟩

theorem bootstrapPacket_round_trip (hzlib : zlib.Inverts) {packet : BootstrapPacket}
    {raw : RawPacket} (h : encodeBootstrapPacket zlib packet limits = .ok raw) :
    decodeBootstrapPacket zlib raw limits = .ok packet := by
  cases packet with
  | login packet =>
    obtain ⟨body, hbody, h⟩ := bind_ok_iff.mp h
    cases h
    exact congrArg (BootstrapPacket.login <$> ·) (login_round_trip hzlib hbody)
  | playStatus packet =>
    cases h
    exact congrArg (BootstrapPacket.playStatus <$> ·) (playStatus_round_trip packet)
  | disconnect packet =>
    obtain ⟨body, hbody, h⟩ := bind_ok_iff.mp h
    cases h
    exact congrArg (BootstrapPacket.disconnect <$> ·) (disconnect_round_trip hbody)
  | setTime packet =>
    cases h
    exact congrArg (BootstrapPacket.setTime <$> ·) (setTime_round_trip packet)
  | startGame packet =>
    obtain ⟨body, hbody, h⟩ := bind_ok_iff.mp h
    cases h
    exact congrArg (BootstrapPacket.startGame <$> ·) (startGame_round_trip hbody)
  | setSpawnPosition packet =>
    cases h
    exact congrArg (BootstrapPacket.setSpawnPosition <$> ·) (setSpawnPosition_round_trip packet)
  | adventureSettings packet =>
    cases h
    exact congrArg (BootstrapPacket.adventureSettings <$> ·) (adventureSettings_round_trip packet)
  | setDifficulty packet =>
    cases h
    exact congrArg (BootstrapPacket.setDifficulty <$> ·) (setDifficulty_round_trip packet)
  | batch packet =>
    obtain ⟨body, hbody, h⟩ := bind_ok_iff.mp h
    cases h
    exact congrArg (BootstrapPacket.batch <$> ·) (BatchPacket.body_round_trip hzlib hbody)

theorem bootstrapFrame_round_trip (zlib : Zlib) (hzlib : zlib.Inverts) (packet : BootstrapPacket)
    (limits : CodecLimits) (frame : Bytes)
    (h : encodeBootstrapFrame zlib packet limits = .ok frame) :
    decodeBootstrapFrame zlib frame limits = .ok packet := by
  obtain ⟨raw, hraw, hframe⟩ := bind_ok_iff.mp h
  exact bind_ok_iff.mpr ⟨raw, gameFrame_round_trip hframe, bootstrapPacket_round_trip hzlib hraw⟩

-- the stream zlib emits for empty input, and a marked copy of anything else
def sampleZlib : Zlib where
  compress input := .ok (if input = [] then [0x78, 0x9c, 3, 0, 0, 0, 0, 1] else 0 :: input)
  readUpTo input n :=
    match input with
    | 0 :: rest => .ok (rest.take n)
    | _ => .ok []

theorem sampleZlib_inverts : sampleZlib.Inverts := by
  intro input compressed n h
  cases input with
  | nil =>
    cases h
    rw [List.take_nil]
    rfl
  | cons x xs =>
    cases h
    rfl

theorem bootstrapFrame_round_trip_emptyBatch :
    decodeBootstrapFrame sampleZlib
      [0xfe, 0x06, 0, 0, 0, 8, 0x78, 0x9c, 3, 0, 0, 0, 0, 1] ⟨64, 64, 64, 64, 64, 4⟩ =
        .ok (.batch ⟨[]⟩) :=
  bootstrapFrame_round_trip sampleZlib sampleZlib_inverts (.batch ⟨[]⟩) ⟨64, 64, 64, 64, 64, 4⟩ _ rfl

end Cobblestone.Wire
