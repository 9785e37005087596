import Cobblestone.Lib.Reader
import Cobblestone.Storage.Base

namespace Cobblestone.Storage

open Lib World

abbrev semanticPrefixBytes : Nat := chunkBlockCount + chunkNibbleBytes * 3
abbrev legacyBiomeBytes : Nat := chunkColumnCount
abbrev biomeWordBytes : Nat := chunkColumnCount * 4
abbrev semanticBaseBytes : Nat := semanticPrefixBytes + biomeWordBytes + chunkColumnCount + 4
abbrev chestSlotCount : Nat := 27

structure ExtensionSection where
  tag : UInt16
  version : UInt16
  payload : Bytes
deriving DecidableEq, Repr

def yInRange (y : Int32) : Bool := decide (0 ≤ y) && decide (y < 128)

def validateItems (seen : UInt8 → Bool) : List ChestItemStack → Except StorageError Unit
  | [] => .ok ()
  | item :: items => do
    ensure (decide (item.slot < 27) && !seen item.slot)
      (.invalidSnapshot "invalid or duplicate chest slot")
    ensure (item.count != 0) (.invalidSnapshot "zero-count chest item")
    validateItems (Function.update seen item.slot true) items

def validateChestBlockEntity (entity : ChestBlockEntity) : Except StorageError Unit := do
  ensure (yInRange entity.y) (.invalidSnapshot "chest block-entity Y is out of range")
  ensure (entity.items.length ≤ chestSlotCount)
    (.invalidSnapshot "chest item count exceeds slot count")
  validateItems (fun _ => false) entity.items

def extraKeyToLinear (key : UInt16) : Except StorageError UInt16 :=
  let z := (key >>> 12) &&& 0x0f
  let x := (key >>> 8) &&& 0x0f
  let y := key &&& 0x00ff
  if worldHeight ≤ y.toNat then .error (.invalidSnapshot "extra-data internal Y is out of range")
  else .ok ((y <<< 8) ||| (z <<< 4) ||| x)

def linearToExtraKey (index : UInt16) : UInt16 :=
  let x := index &&& 0x0f
  let z := (index >>> 4) &&& 0x0f
  let y := (index >>> 8) &&& 0x7f
  (z <<< 12) ||| (x <<< 8) ||| y

def u32TryFrom (n : Nat) (e : StorageError) : Except StorageError UInt32 :=
  if n < UInt32.size then .ok (UInt32.ofNat n) else .error e

def stateHigh (state : UInt16) : UInt8 := (state >>> 4).toUInt8

def stateNibble (state : UInt16) : UInt8 := (state &&& 0x0f).toUInt8

def joinState (high nibble : UInt8) : UInt16 := (high.toUInt16 <<< 4) ||| nibble.toUInt16

def toBigEndian (word : UInt32) : Bytes := (toLE 4 word.toNat).reverse

def fromBigEndian (bytes : Bytes) : UInt32 := UInt32.ofNat (ofLE bytes.reverse)

def bigEndianWords : Bytes → List UInt32
  | a :: b :: c :: d :: rest => fromBigEndian [a, b, c, d] :: bigEndianWords rest
  | _ => []

def encodeItem (item : ChestItemStack) : Bytes :=
  item.slot :: (toLE 2 item.itemId.toUInt16.toNat ++ (toLE 2 item.damage.toUInt16.toNat ++ [item.count]))

def encodeChest (entity : ChestBlockEntity) : Bytes :=
  toLE 4 entity.x.toUInt32.toNat ++ (toLE 4 entity.y.toUInt32.toNat ++
    (toLE 4 entity.z.toUInt32.toNat ++
      (UInt8.ofNat entity.items.length :: entity.items.flatMap encodeItem)))

def encodeExtra (entry : UInt16 × UInt16) : Except StorageError Bytes := do
  let linear ← extraKeyToLinear entry.1
  pure (toLE 2 linear.toNat ++ toLE 2 entry.2.toNat)

def encodeExtension (s : ExtensionSection) : Except StorageError Bytes := do
  let len ← u32TryFrom s.payload.length (.payloadTooLarge s.payload.length (UInt32.size - 1))
  pure (toLE 2 s.tag.toNat ++ (toLE 2 s.version.toNat ++ (toLE 4 len.toNat ++ s.payload)))

def chestBytes (entities : List ChestBlockEntity) : Nat :=
  4 + (entities.map fun entity => 13 + entity.items.length * 6).sum

def extensionBytes (extensions : List ExtensionSection) : Nat :=
  (extensions.map fun s => 8 + s.payload.length).sum

def payloadCapacity (data : ChunkData) (extensions : List ExtensionSection) : Nat :=
  semanticBaseBytes + data.extraData.size * 4 + chestBytes data.chestBlockEntities +
    extensionBytes extensions

def planeLengthsMatch (data : ChunkData) : Bool :=
  decide (data.states.length = chunkBlockCount) && decide (data.skyLight.length = chunkNibbleBytes) &&
    decide (data.blockLight.length = chunkNibbleBytes) &&
    decide (data.biomes.length = chunkColumnCount) &&
    decide (data.heightMap.length = chunkColumnCount)

def encodePlanes (data : ChunkData) : Bytes :=
  data.states.map stateHigh ++ (packNibbles chunkNibbleBytes (data.states.map stateNibble) ++
    (data.skyLight ++ (data.blockLight ++ (data.biomes.flatMap toBigEndian ++ data.heightMap))))

def encodeSemanticPayload (data : ChunkData) (extensions : List ExtensionSection) :
    Except StorageError Bytes := do
  ensure (planeLengthsMatch data) (.invalidSnapshot "plane length mismatch")
  data.chestBlockEntities.forM validateChestBlockEntity
  ensure (payloadCapacity data extensions ≤ maxChunkPayloadBytes)
    (.payloadTooLarge (payloadCapacity data extensions) maxChunkPayloadBytes)
  data.states.forM fun state => ensure (state ≤ maxLegacyStateId)
    (.invalidSnapshot "state exceeds fixed-target 12-bit range")
  let extraCount ← u32TryFrom data.extraData.size (.invalidSnapshot "extra-data count exceeds u32")
  let extra ← data.extraData.toList.mapM encodeExtra
  let chestCount ← u32TryFrom data.chestBlockEntities.length
    (.invalidSnapshot "chest block-entity count exceeds u32")
  let sections ← extensions.mapM encodeExtension
  pure (encodePlanes data ++ (toLE 4 extraCount.toNat ++ (extra.flatten ++
    (toLE 4 chestCount.toNat ++ (data.chestBlockEntities.flatMap encodeChest ++
      sections.flatten)))))

abbrev PayloadReader := Reader StorageError

def readPayloadU8 : PayloadReader UInt8 := do
  let n ← Reader.natLE 1 (.corruptChunkPayload "truncated u8")
  pure (UInt8.ofNat n)

def readPayloadU16 : PayloadReader UInt16 := do
  let n ← Reader.natLE 2 (.corruptChunkPayload "truncated u16")
  pure (UInt16.ofNat n)

def readPayloadU32 : PayloadReader UInt32 := do
  let n ← Reader.natLE 4 (.corruptChunkPayload "truncated u32")
  pure (UInt32.ofNat n)

def readPayloadI16 : PayloadReader Int16 := do
  let v ← readPayloadU16
  pure v.toInt16

def readPayloadI32 : PayloadReader Int32 := do
  let v ← readPayloadU32
  pure v.toInt32

def requirePayload (condition : Bool) (reason : String) : PayloadReader Unit :=
  Reader.require condition (.corruptChunkPayload reason)

def readExtraEntries : Nat → ExtraData → PayloadReader ExtraData
  | 0, extra => pure extra
  | n + 1, extra => do
    let linear ← readPayloadU16
    let value ← readPayloadU16
    requirePayload (linear.toNat < chunkBlockCount) "extra-data block index out of range"
    requirePayload (!extra.contains (linearToExtraKey linear)) "duplicate extra-data block index"
    readExtraEntries n (extra.insert (linearToExtraKey linear) value)

def readExtra : PayloadReader ExtraData := do
  let count ← readPayloadU32
  requirePayload (count.toNat ≤ chunkBlockCount) "extra-data count exceeds block count"
  Reader.atLeast (count.toNat * 4) (.corruptChunkPayload "truncated extra-data entries")
  readExtraEntries count.toNat ∅

def readItems : Nat → (UInt8 → Bool) → PayloadReader (List ChestItemStack)
  | 0, _ => pure []
  | n + 1, seen => do
    let slot ← readPayloadU8
    requirePayload (decide (slot < 27) && !seen slot) "invalid or duplicate chest slot"
    let itemId ← readPayloadI16
    let damage ← readPayloadI16
    let count ← readPayloadU8
    requirePayload (count != 0) "zero-count chest item"
    let items ← readItems n (Function.update seen slot true)
    pure (⟨slot, itemId, damage, count⟩ :: items)

def readChest : PayloadReader ChestBlockEntity := do
  let x ← readPayloadI32
  let y ← readPayloadI32
  let z ← readPayloadI32
  requirePayload (yInRange y) "chest block-entity Y is out of range"
  let itemCount ← readPayloadU8
  requirePayload (itemCount.toNat ≤ chestSlotCount) "chest item count exceeds slot count"
  let items ← readItems itemCount.toNat (fun _ => false)
  pure ⟨x, y, z, items⟩

def readChests : PayloadReader (List ChestBlockEntity) := do
  let count ← readPayloadU32
  requirePayload (count.toNat ≤ chunkBlockCount) "chest block-entity count exceeds block count"
  readChest.times count.toNat

def readExtensions (rest : Bytes) : Except StorageError (List ExtensionSection) :=
  if rest.length = 0 then .ok []
  else if rest.length < 8 then .error (.corruptChunkPayload "truncated extension header")
  else
    let len := (readU32 rest 4).toNat
    if rest.length - 8 < len then .error (.corruptChunkPayload "truncated extension payload")
    else do
      let sections ← readExtensions (rest.drop (8 + len))
      pure (⟨readU16 rest 0, readU16 rest 2, sliceAt 8 len rest⟩ :: sections)
termination_by rest.length
decreasing_by simp only [List.length_drop]; omega

def biomeBytesOf (semanticVersion : UInt16) : Except StorageError Nat :=
  if semanticVersion = legacySemanticPayloadVersion then .ok legacyBiomeBytes
  else if semanticVersion = biomeWordSemanticPayloadVersion ∨
      semanticVersion = semanticPayloadVersion then .ok biomeWordBytes
  else .error (.corruptChunkPayload "unsupported semantic payload version")

def decodeBiomes (semanticVersion : UInt16) (bytes : Bytes) : Except StorageError (List UInt32) :=
  if semanticVersion = legacySemanticPayloadVersion then
    bytes.mapM fun id => match defaultBiomeWord id with
      | some word => .ok word
      | none => .error (.corruptChunkPayload "unsupported legacy biome id")
  else .ok (bigEndianWords bytes)

def decodeStates (ids data : Bytes) : List UInt16 :=
  (List.range chunkBlockCount).map fun index => joinState (ids.getD index 0) (readNibble data index)

def readVersionedChests (semanticVersion : UInt16) : PayloadReader (List ChestBlockEntity) :=
  if semanticVersion = semanticPayloadVersion then readChests else pure []

def readTail (semanticVersion : UInt16) : PayloadReader (ExtraData × List ChestBlockEntity) := do
  let extra ← readExtra
  let chests ← readVersionedChests semanticVersion
  pure (extra, chests)

def decodeSemanticPayload (payload : Bytes) (semanticVersion : UInt16) :
    Except StorageError (ChunkData × List ExtensionSection) := do
  let biomeBytes ← biomeBytesOf semanticVersion
  ensure (semanticPrefixBytes + biomeBytes + chunkColumnCount + 4 ≤ payload.length)
    (.corruptChunkPayload "truncated base planes")
  let idsEnd := chunkBlockCount
  let dataEnd := idsEnd + chunkNibbleBytes
  let skyEnd := dataEnd + chunkNibbleBytes
  let blockEnd := skyEnd + chunkNibbleBytes
  let biomeEnd := blockEnd + biomeBytes
  let heightEnd := biomeEnd + chunkColumnCount
  let biomes ← decodeBiomes semanticVersion (sliceAt blockEnd biomeBytes payload)
  let ((extra, chests), rest) ← readTail semanticVersion (payload.drop heightEnd)
  let extensions ← readExtensions rest
  pure (
    { states := decodeStates (sliceAt 0 idsEnd payload) (sliceAt idsEnd chunkNibbleBytes payload)
      skyLight := sliceAt dataEnd chunkNibbleBytes payload
      blockLight := sliceAt skyEnd chunkNibbleBytes payload
      biomes := biomes
      heightMap := sliceAt biomeEnd chunkColumnCount payload
      extraData := extra
      chestBlockEntities := chests },
    extensions)

end Cobblestone.Storage
