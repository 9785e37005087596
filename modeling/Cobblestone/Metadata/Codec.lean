import Cobblestone.Metadata.Container
import Cobblestone.Region.Format
import Cobblestone.Wire.Packet

namespace Cobblestone.Metadata

open Lib Storage Region Wire

abbrev worldMetadataEnvelopeBytes : Nat := 32
abbrev legacyWorldMetadataPayloadVersion : UInt16 := 1
abbrev worldMetadataPayloadVersion : UInt16 := 2
abbrev maxWorldMetadataPayloadBytes : Nat := 1024 * 1024
abbrev maxWorldNameBytes : Nat := 4096
abbrev maxGeneratorSettingsBytes : Nat := 512 * 1024
abbrev targetVersionMajor : UInt8 := 0
abbrev targetVersionMinor : UInt8 := 15
abbrev targetVersionPatch : UInt8 := 10
abbrev targetGameProtocol : UInt32 := 84
abbrev targetRaknetProtocol : UInt32 := 8
abbrev worldMetadataMagic : Bytes := [0x43, 0x42, 0x57, 0x4d]
abbrev payloadFixedBytes : Nat := 76

inductive MetadataError where
  | io
  | invalidWorldMetadata (reason : String)
  | worldMetadataTooLarge (size limit : Nat)
  | worldMetadataAlreadyExists
  | metadataGenerationExhausted
  | worldMismatch
  | generatorStateTooLarge (size limit : Nat)
  | invalidGeneratorState (reason : String)
  | generatorStateGeneratorMismatch (expected actual : UInt32)
deriving DecidableEq, Repr

structure WorldMetadata where
  generation : UInt64
  worldUuid : WorldUuid
  name : String
  seed : Int64
  generatorId : UInt32
  generatorSettingsVersion : UInt16
  generatorSettings : Bytes
  dimension : DimensionId
  spawnX : Int32
  spawnY : Int32
  spawnZ : Int32
  time : Int64
  timeRunning : Bool
deriving DecidableEq

def validateMetadata (metadata : WorldMetadata) : Except MetadataError Unit := do
  ensure (0 < len metadata.name) (.invalidWorldMetadata "world name cannot be empty")
  ensure (len metadata.name ≤ maxWorldNameBytes)
    (.worldMetadataTooLarge (len metadata.name) maxWorldNameBytes)
  ensure (metadata.generatorSettings.length ≤ maxGeneratorSettingsBytes)
    (.worldMetadataTooLarge metadata.generatorSettings.length maxGeneratorSettingsBytes)
  ensure (metadata.generation != 0) (.invalidWorldMetadata "metadata generation cannot be zero")
  ensure (yInRange metadata.spawnY)
    (.invalidWorldMetadata "spawn y is outside the fixed-target world height")

def boolByte (flag : Bool) : UInt8 := if flag then 1 else 0

def metadataPayloadFields (metadata : WorldMetadata) (nameLen settingsLen : UInt32) :
    List (FieldAt UInt8) :=
  [u16Field 0 worldMetadataPayloadVersion,
    (2, [targetVersionMajor]),
    (3, [targetVersionMinor]),
    (4, [targetVersionPatch]),
    (5, [boolByte metadata.timeRunning]),
    (6, [metadata.dimension.toU8]),
    u32Field 8 targetGameProtocol,
    u32Field 12 targetRaknetProtocol,
    (16, metadata.worldUuid.val),
    i64Field 32 metadata.seed,
    u32Field 40 metadata.generatorId,
    u16Field 44 metadata.generatorSettingsVersion,
    i32Field 48 metadata.spawnX,
    i32Field 52 metadata.spawnY,
    i32Field 56 metadata.spawnZ,
    i64Field 60 metadata.time,
    u32Field 68 nameLen,
    u32Field 72 settingsLen,
    (payloadFixedBytes, utf8 metadata.name),
    (payloadFixedBytes + len metadata.name, metadata.generatorSettings)]

def envelopeFields (generation : UInt64) (payloadLen payloadCrc : UInt32) : List (FieldAt UInt8) :=
  [(0, worldMetadataMagic),
    u16Field 4 storageFormatVersion,
    u16Field 6 32,
    u64Field 8 generation,
    u32Field 16 payloadLen,
    u32Field 20 payloadCrc]

def lenToU32 (n : Nat) : Except MetadataError UInt32 :=
  if n < UInt32.size then .ok (UInt32.ofNat n)
  else .error (.worldMetadataTooLarge n (UInt32.size - 1))

variable (crates : Crates)

def encodeWorldMetadata (metadata : WorldMetadata) : Except MetadataError Bytes := do
  validateMetadata metadata
  let payloadLen := payloadFixedBytes + len metadata.name + metadata.generatorSettings.length
  ensure (payloadLen ≤ maxWorldMetadataPayloadBytes)
    (.worldMetadataTooLarge payloadLen maxWorldMetadataPayloadBytes)
  let nameLen ← lenToU32 (len metadata.name)
  let settingsLen ← lenToU32 metadata.generatorSettings.length
  let payload := putFields (metadataPayloadFields metadata nameLen settingsLen)
    (List.replicate payloadLen 0)
  let encodedLen ← lenToU32 payload.length
  let envelope := sealedHeader crates worldMetadataEnvelopeBytes 24
    (envelopeFields metadata.generation encodedLen (crates.crc32c payload))
  pure (envelope ++ payload)

def decodeDimension (version : UInt16) (payload : Bytes) : Except MetadataError DimensionId :=
  if version = legacyWorldMetadataPayloadVersion then do
    ensure (sliceAt 6 2 payload = [0, 0])
      (.invalidWorldMetadata "legacy metadata payload reserved bytes are nonzero")
    pure .overworld
  else do
    ensure (payload.getD 7 0 = 0)
      (.invalidWorldMetadata "metadata payload reserved byte is nonzero")
    match DimensionId.tryFrom (payload.getD 6 0) with
    | .ok dimension => pure dimension
    | .error _ => .error (.invalidWorldMetadata "unsupported fixed-target dimension id")

def decodeName (bytes : Bytes) : Except MetadataError String :=
  match fromUtf8 bytes with
  | .ok name => .ok name
  | .error _ => .error (.invalidWorldMetadata "world name is not UTF-8")

def readUuid (bytes : Bytes) (offset : Nat) (h : offset + 16 ≤ bytes.length) : WorldUuid :=
  ⟨sliceAt offset 16 bytes, length_sliceAt h⟩

def decodeMetadataPayload (generation : UInt64) (payload : Bytes)
    (h : payloadFixedBytes ≤ payload.length) : Except MetadataError WorldMetadata := do
  let version := readU16 payload 0
  ensure (version = legacyWorldMetadataPayloadVersion ∨ version = worldMetadataPayloadVersion)
    (.invalidWorldMetadata "unsupported metadata payload version")
  ensure (payload.getD 2 0 = targetVersionMajor && payload.getD 3 0 = targetVersionMinor &&
      payload.getD 4 0 = targetVersionPatch && readU32 payload 8 = targetGameProtocol &&
      readU32 payload 12 = targetRaknetProtocol)
    (.invalidWorldMetadata "fixed-target marker mismatch")
  ensure (payload.getD 5 0 ≤ 1) (.invalidWorldMetadata "invalid time-running flag")
  let dimension ← decodeDimension version payload
  ensure (sliceAt 46 2 payload = [0, 0])
    (.invalidWorldMetadata "metadata payload reserved bytes are nonzero")
  let nameLen := (readU32 payload 68).toNat
  let settingsLen := (readU32 payload 72).toNat
  ensure (payloadFixedBytes + nameLen + settingsLen = payload.length)
    (.invalidWorldMetadata "metadata variable lengths mismatch")
  let name ← decodeName (sliceAt payloadFixedBytes nameLen payload)
  let metadata : WorldMetadata := {
    generation := generation
    worldUuid := readUuid payload 16 (le_trans (by decide) h)
    name := name
    seed := readI64 payload 32
    generatorId := readU32 payload 40
    generatorSettingsVersion := readU16 payload 44
    generatorSettings := payload.drop (payloadFixedBytes + nameLen)
    dimension := dimension
    spawnX := readI32 payload 48
    spawnY := readI32 payload 52
    spawnZ := readI32 payload 56
    time := readI64 payload 60
    timeRunning := payload.getD 5 0 != 0 }
  validateMetadata metadata
  pure metadata

def decodeWorldMetadata (encoded : Bytes) : Except MetadataError WorldMetadata := do
  ensure (worldMetadataEnvelopeBytes ≤ encoded.length) (.invalidWorldMetadata "truncated envelope")
  let envelope := encoded.take worldMetadataEnvelopeBytes
  ensure (sliceAt 0 4 envelope = worldMetadataMagic) (.invalidWorldMetadata "bad magic")
  ensure (readU16 envelope 4 = storageFormatVersion)
    (.invalidWorldMetadata "unsupported storage format version")
  ensure ((readU16 envelope 6).toNat = worldMetadataEnvelopeBytes)
    (.invalidWorldMetadata "bad metadata envelope length")
  ensure (crates.crc32c (envelope.take 24) = readU32 envelope 24)
    (.invalidWorldMetadata "metadata envelope checksum mismatch")
  ensure (sliceAt 28 4 envelope = [0, 0, 0, 0])
    (.invalidWorldMetadata "metadata envelope reserved bytes are nonzero")
  let payloadLen := (readU32 envelope 16).toNat
  ensure (payloadLen ≤ maxWorldMetadataPayloadBytes)
    (.worldMetadataTooLarge payloadLen maxWorldMetadataPayloadBytes)
  ensure (encoded.length = worldMetadataEnvelopeBytes + payloadLen)
    (.invalidWorldMetadata "metadata payload length mismatch")
  let payload := encoded.drop worldMetadataEnvelopeBytes
  ensure (crates.crc32c payload = readU32 envelope 20)
    (.invalidWorldMetadata "metadata payload checksum mismatch")
  if h : payloadFixedBytes ≤ payload.length then
    decodeMetadataPayload (readU64 envelope 8) payload h
  else .error (.invalidWorldMetadata "truncated semantic payload")

end Cobblestone.Metadata
