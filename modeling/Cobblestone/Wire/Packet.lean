import Cobblestone.Wire.Nbt

namespace Cobblestone.Wire

open Lib

structure CodecLimits where
  maxFrameBytes : Nat
  maxLoginCompressedBytes : Nat
  maxBatchCompressedBytes : Nat
  maxBatchDecompressedBytes : Nat
  maxInnerPacketBytes : Nat
  maxInnerPackets : Nat
  deriving DecidableEq, Repr

structure RawPacket where
  id : UInt8
  body : Bytes
  deriving DecidableEq, Repr

namespace RawPacket

def fromPacketBytes : Bytes → Except CodecError RawPacket
  | [] => .error .emptyPacket
  | id :: body => .ok ⟨id, body⟩

def encodedLen (packet : RawPacket) : Nat := 1 + packet.body.length

def writePacketBytes (packet : RawPacket) (output : Bytes) : Bytes :=
  output ++ packet.id :: packet.body

end RawPacket

def gameMarker : UInt8 := 0xfe

def decodeGameFrame (input : Bytes) (limits : CodecLimits) : Except CodecError RawPacket := do
  checkLimit .frame input.length limits.maxFrameBytes
  match input with
  | [] => throw (.unexpectedEof 1 0)
  | marker :: packet => do
    ensure (marker = gameMarker) (CodecError.invalidGameMarker marker)
    RawPacket.fromPacketBytes packet

def encodeGameFrame (packet : RawPacket) (limits : CodecLimits) : Except CodecError Bytes := do
  checkLimit .frame (1 + packet.encodedLen) limits.maxFrameBytes
  pure (packet.writePacketBytes [gameMarker])

-- `readUpTo input n` drains a decoder over `input` that stops after `n` bytes of output
structure Zlib where
  compress : Bytes → Except String Bytes
  readUpTo : Bytes → Nat → Except String Bytes

def Zlib.Inverts (zlib : Zlib) : Prop :=
  ∀ input compressed n, zlib.compress input = .ok compressed →
    zlib.readUpTo compressed n = .ok (input.take n)

def compressZlib (zlib : Zlib) (input : Bytes) : Except CodecError Bytes :=
  (zlib.compress input).mapError .compression

def decompressZlibLimited (zlib : Zlib) (input : Bytes) (limit : Nat) (kind : LimitKind) :
    Except CodecError Bytes := do
  let output ← (zlib.readUpTo input (limit + 1)).mapError .compression
  checkLimit kind output.length limit
  pure output

def runReader {α : Type} (r : Reader α) (body : Bytes) : Except CodecError α :=
  (r body).map Prod.fst

structure BatchPacket where
  packets : List RawPacket
  deriving DecidableEq, Repr

namespace BatchPacket

def readEnvelope (limits : CodecLimits) : Reader Bytes := do
  let compressedLen ← readU32Be
  checkLimit .batchCompressed compressedLen.toNat limits.maxBatchCompressedBytes
  let compressed ← readExact compressedLen.toNat
  finish
  pure compressed

def readInnerPacket (limits : CodecLimits) (count : Nat) : Reader RawPacket := do
  checkLimit .innerPacketCount (count + 1) limits.maxInnerPackets
  let packetLen ← readU32Be
  ensure (packetLen.toNat ≠ 0) CodecError.emptyPacket
  checkLimit .innerPacket packetLen.toNat limits.maxInnerPacketBytes
  let bytes ← readExact packetLen.toNat
  RawPacket.fromPacketBytes bytes

theorem readInnerPacket_shorter {limits : CodecLimits} {count : Nat} {inner rest : Bytes}
    {packet : RawPacket} (h : readInnerPacket limits count inner = .ok (packet, rest)) :
    rest.length < inner.length := by
  unfold readInnerPacket at h
  obtain ⟨_, u₁, hcheck, h₁⟩ := Reader.bind_ok h
  obtain ⟨-, rfl⟩ := Reader.checked_ok_iff.mp hcheck
  obtain ⟨packetLen, u₂, hlen, h₂⟩ := Reader.bind_ok h₁
  obtain ⟨_, u₃, hne, h₃⟩ := Reader.bind_ok h₂
  obtain ⟨-, rfl⟩ := Reader.checked_ok_iff.mp hne
  obtain ⟨_, u₄, hlimit, h₄⟩ := Reader.bind_ok h₃
  obtain ⟨-, rfl⟩ := Reader.checked_ok_iff.mp hlimit
  obtain ⟨bytes, u₅, hbytes, h₅⟩ := Reader.bind_ok h₄
  obtain ⟨-, rfl⟩ := Reader.checked_ok_iff.mp h₅
  rw [readBe_ok_iff.mp hlen, (readExact_ok_iff.mp hbytes).2, List.length_append,
    Word.length_toBeBytes, List.length_append]
  change u₅.length < 4 + _
  omega

def decodePackets (limits : CodecLimits) (count : Nat) (inner : Bytes) :
    Except CodecError (List RawPacket) :=
  if inner.length = 0 then .ok []
  else
    match h : readInnerPacket limits count inner with
    | .error e => .error e
    | .ok (packet, rest) =>
      have := readInnerPacket_shorter h
      (packet :: ·) <$> decodePackets limits (count + 1) rest
  termination_by inner.length

def decodeBody (zlib : Zlib) (body : Bytes) (limits : CodecLimits) :
    Except CodecError BatchPacket := do
  let compressed ← runReader (readEnvelope limits) body
  let decompressed ←
    decompressZlibLimited zlib compressed limits.maxBatchDecompressedBytes .batchDecompressed
  let packets ← decodePackets limits 0 decompressed
  pure ⟨packets⟩

def u32OfLen (field : String) (len : Nat) : Except CodecError UInt32 :=
  if len < 4294967296 then .ok (UInt32.ofNat len)
  else .error (.lengthOutOfRange field len 4294967295)

def writePacket (limits : CodecLimits) (uncompressed : Bytes) (packet : RawPacket) :
    Except CodecError Bytes := do
  checkLimit .innerPacket packet.encodedLen limits.maxInnerPacketBytes
  let packetLen ← u32OfLen "batch inner packet length" packet.encodedLen
  let uncompressed := packet.writePacketBytes (uncompressed ++ Word.toBeBytes packetLen)
  checkLimit .batchDecompressed uncompressed.length limits.maxBatchDecompressedBytes
  pure uncompressed

def encodeBody (zlib : Zlib) (batch : BatchPacket) (limits : CodecLimits) :
    Except CodecError Bytes := do
  checkLimit .innerPacketCount batch.packets.length limits.maxInnerPackets
  let uncompressed ← batch.packets.foldlM (writePacket limits) []
  let compressed ← compressZlib zlib uncompressed
  checkLimit .batchCompressed compressed.length limits.maxBatchCompressedBytes
  let compressedLen ← u32OfLen "batch compressed length" compressed.length
  pure ((Writer.putU32Be [] compressedLen).putBytes compressed)

end BatchPacket

namespace PacketId

def login : UInt8 := 0x01
def playStatus : UInt8 := 0x02
def disconnect : UInt8 := 0x05
def batch : UInt8 := 0x06
def setTime : UInt8 := 0x08
def startGame : UInt8 := 0x09
def setSpawnPosition : UInt8 := 0x26
def adventureSettings : UInt8 := 0x31
def setDifficulty : UInt8 := 0x35

end PacketId

def gameProtocol : Int32 := 84

def loginMaxDecompressedBytes : Nat := 2 * 1024 * 1024

structure LoginPacket where
  protocol : Int32
  chainData : Bytes
  skinJwt : Bytes
  deriving DecidableEq, Repr

structure PlayStatusPacket where
  status : Int32
  deriving DecidableEq, Repr

structure DisconnectPacket where
  message : String
  deriving DecidableEq, Repr

structure SetTimePacket where
  time : Int32
  started : Bool
  deriving DecidableEq, Repr

inductive DimensionId where
  | overworld
  | nether
  deriving DecidableEq, Repr

def DimensionId.toU8 : DimensionId → UInt8
  | .overworld => 0
  | .nether => 1

def DimensionId.tryFrom (value : UInt8) : Except UInt8 DimensionId :=
  match value with
  | 0 => .ok .overworld
  | 1 => .ok .nether
  | other => .error other

structure Triple (α : Type) where
  x : α
  y : α
  z : α
  deriving DecidableEq, Repr

structure StartGamePacket where
  seed : Int32
  dimension : DimensionId
  generator : Int32
  gamemode : Int32
  entityId : Int64
  spawn : Triple Int32
  positionBits : Triple UInt32
  levelId : String
  deriving DecidableEq, Repr

structure SetSpawnPositionPacket where
  position : Triple Int32
  deriving DecidableEq, Repr

structure SetDifficultyPacket where
  difficulty : Int32
  deriving DecidableEq, Repr

structure AdventureSettingsPacket where
  flagBits : UInt32
  userPermission : Int32
  globalPermission : Int32
  deriving DecidableEq, Repr

namespace AdventureSettingsPacket

def new (flags userPermission globalPermission : Int32) : AdventureSettingsPacket :=
  ⟨flags.toUInt32, userPermission, globalPermission⟩

def flags (packet : AdventureSettingsPacket) : Int32 := packet.flagBits.toInt32

end AdventureSettingsPacket

inductive BootstrapPacket where
  | login (packet : LoginPacket)
  | playStatus (packet : PlayStatusPacket)
  | disconnect (packet : DisconnectPacket)
  | setTime (packet : SetTimePacket)
  | startGame (packet : StartGamePacket)
  | setSpawnPosition (packet : SetSpawnPositionPacket)
  | adventureSettings (packet : AdventureSettingsPacket)
  | setDifficulty (packet : SetDifficultyPacket)
  | batch (packet : BatchPacket)
  deriving DecidableEq, Repr

def i32OfLen (field : String) (len : Nat) : Except CodecError Int32 :=
  if len < 2147483648 then .ok (Int32.ofNat len) else .error (.lengthOutOfRange field len 2147483647)

def encodeLogin (zlib : Zlib) (packet : LoginPacket) (limits : CodecLimits) :
    Except CodecError Bytes := do
  ensure (packet.protocol = gameProtocol)
    (CodecError.unsupportedProtocol gameProtocol packet.protocol)
  let chainLen ← i32OfLen "login chain length" packet.chainData.length
  let skinLen ← i32OfLen "login skin JWT length" packet.skinJwt.length
  let inner := (Writer.putI32Le [] chainLen).putBytes packet.chainData
  let inner := (inner.putI32Le skinLen).putBytes packet.skinJwt
  checkLimit .loginDecompressed inner.length loginMaxDecompressedBytes
  let compressed ← compressZlib zlib inner
  checkLimit .loginCompressed compressed.length limits.maxLoginCompressedBytes
  let compressedLen ← i32OfLen "login compressed length" compressed.length
  pure (((Writer.putI32Be [] gameProtocol).putI32Be compressedLen).putBytes compressed)

def nonnegativeLen (field : String) (value : Int32) : Except CodecError Nat :=
  usizeOfI32 field value

def readLoginEnvelope (limits : CodecLimits) : Reader (Int32 × Bytes) := do
  let protocol ← readI32Be
  ensure (protocol = gameProtocol) (CodecError.unsupportedProtocol gameProtocol protocol)
  let value ← readI32Be
  let compressedLen ← nonnegativeLen "login compressed length" value
  checkLimit .loginCompressed compressedLen limits.maxLoginCompressedBytes
  let compressed ← readExact compressedLen
  finish
  pure (protocol, compressed)

def readLoginInner (protocol : Int32) : Reader LoginPacket := do
  let chainValue ← readI32Le
  let chainLen ← nonnegativeLen "login chain length" chainValue
  let chainData ← readExact chainLen
  let skinValue ← readI32Le
  let skinLen ← nonnegativeLen "login skin JWT length" skinValue
  let skinJwt ← readExact skinLen
  finish
  pure ⟨protocol, chainData, skinJwt⟩

def decodeLogin (zlib : Zlib) (body : Bytes) (limits : CodecLimits) :
    Except CodecError LoginPacket := do
  let (protocol, compressed) ← runReader (readLoginEnvelope limits) body
  let decompressed ←
    decompressZlibLimited zlib compressed loginMaxDecompressedBytes .loginDecompressed
  runReader (readLoginInner protocol) decompressed

def requireFixedByte (field : String) (expected : UInt8) : Reader Unit := do
  let actual ← readU8
  ensure (actual = expected) (CodecError.invalidFixedByte field expected actual)

def readTriple {α : Type} (r : Reader α) : Reader (Triple α) := do
  let x ← r
  let y ← r
  let z ← r
  pure ⟨x, y, z⟩

def dimensionOf (raw : UInt8) : Except CodecError DimensionId :=
  (DimensionId.tryFrom raw).mapError fun _ =>
    .invalidFixedTargetValue "dimension" raw.toNat DimensionId.nether.toU8.toNat

def readStartGame : Reader StartGamePacket := do
  let seed ← readI32Be
  let dimensionRaw ← readU8
  let dimension ← dimensionOf dimensionRaw
  let generator ← readI32Be
  let gamemode ← readI32Be
  let entityId ← readI64Be
  let spawn ← readTriple readI32Be
  let positionBits ← readTriple readF32Be
  requireFixedByte "start-game flag 1" 1
  requireFixedByte "start-game flag 2" 1
  requireFixedByte "start-game flag 3" 0
  let levelId ← readStringU16
  finish
  pure { seed, dimension, generator, gamemode, entityId, spawn, positionBits, levelId }

def readPlayStatus : Reader PlayStatusPacket := do
  let status ← readI32Be
  finish
  pure ⟨status⟩

def readDisconnect : Reader DisconnectPacket := do
  let message ← readStringU16
  finish
  pure ⟨message⟩

def readSetTime : Reader SetTimePacket := do
  let time ← readI32Be
  let started ← readU8
  finish
  pure ⟨time, started ≠ 0⟩

def readSetSpawnPosition : Reader SetSpawnPositionPacket := do
  let position ← readTriple readI32Be
  finish
  pure ⟨position⟩

def readAdventureSettings : Reader AdventureSettingsPacket := do
  let flags ← readI32Be
  let userPermission ← readI32Be
  let globalPermission ← readI32Be
  finish
  pure (.new flags userPermission globalPermission)

def readSetDifficulty : Reader SetDifficultyPacket := do
  let difficulty ← readI32Be
  finish
  pure ⟨difficulty⟩

def decodeBootstrapPacket (zlib : Zlib) (raw : RawPacket) (limits : CodecLimits) :
    Except CodecError BootstrapPacket :=
  if raw.id = PacketId.login then .login <$> decodeLogin zlib raw.body limits
  else if raw.id = PacketId.playStatus then .playStatus <$> runReader readPlayStatus raw.body
  else if raw.id = PacketId.disconnect then .disconnect <$> runReader readDisconnect raw.body
  else if raw.id = PacketId.setTime then .setTime <$> runReader readSetTime raw.body
  else if raw.id = PacketId.startGame then .startGame <$> runReader readStartGame raw.body
  else if raw.id = PacketId.setSpawnPosition then
    .setSpawnPosition <$> runReader readSetSpawnPosition raw.body
  else if raw.id = PacketId.adventureSettings then
    .adventureSettings <$> runReader readAdventureSettings raw.body
  else if raw.id = PacketId.setDifficulty then
    .setDifficulty <$> runReader readSetDifficulty raw.body
  else if raw.id = PacketId.batch then .batch <$> BatchPacket.decodeBody zlib raw.body limits
  else .error (.unsupportedPacket raw.id)

def Writer.putTripleBe {α : Type} [Word α] (w : Writer) (values : Triple α) : Writer :=
  ((w.putBe values.x).putBe values.y).putBe values.z

def u8OfBool (value : Bool) : UInt8 := if value then 1 else 0

def writeStartGame (packet : StartGamePacket) : Except CodecError Writer := do
  let w := (Writer.putI32Be [] packet.seed).putU8 packet.dimension.toU8
  let w := (w.putI32Be packet.generator).putI32Be packet.gamemode
  let w := (w.putI64Be packet.entityId).putTripleBe packet.spawn
  let w := ((((w.putTripleBe packet.positionBits).putU8 1).putU8 1).putU8 0)
  w.putStringU16 "start-game level id" packet.levelId

def encodeBootstrapPacket (zlib : Zlib) (packet : BootstrapPacket) (limits : CodecLimits) :
    Except CodecError RawPacket :=
  match packet with
  | .login packet => do
    let body ← encodeLogin zlib packet limits
    pure ⟨PacketId.login, body⟩
  | .playStatus packet => pure ⟨PacketId.playStatus, Writer.putI32Be [] packet.status⟩
  | .disconnect packet => do
    let body ← Writer.putStringU16 [] "disconnect message" packet.message
    pure ⟨PacketId.disconnect, body⟩
  | .setTime packet =>
    pure ⟨PacketId.setTime, (Writer.putI32Be [] packet.time).putU8 (u8OfBool packet.started)⟩
  | .startGame packet => do
    let body ← writeStartGame packet
    pure ⟨PacketId.startGame, body⟩
  | .setSpawnPosition packet =>
    pure ⟨PacketId.setSpawnPosition, Writer.putTripleBe [] packet.position⟩
  | .adventureSettings packet =>
    pure ⟨PacketId.adventureSettings,
      ((Writer.putI32Be [] packet.flags).putI32Be packet.userPermission).putI32Be
        packet.globalPermission⟩
  | .setDifficulty packet => pure ⟨PacketId.setDifficulty, Writer.putI32Be [] packet.difficulty⟩
  | .batch packet => do
    let body ← packet.encodeBody zlib limits
    pure ⟨PacketId.batch, body⟩

def encodeBootstrapFrame (zlib : Zlib) (packet : BootstrapPacket) (limits : CodecLimits) :
    Except CodecError Bytes := do
  let raw ← encodeBootstrapPacket zlib packet limits
  encodeGameFrame raw limits

def decodeBootstrapFrame (zlib : Zlib) (input : Bytes) (limits : CodecLimits) :
    Except CodecError BootstrapPacket := do
  let raw ← decodeGameFrame input limits
  decodeBootstrapPacket zlib raw limits

end Cobblestone.Wire
