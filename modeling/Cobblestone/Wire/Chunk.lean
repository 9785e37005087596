import Cobblestone.Wire.Packet

namespace Cobblestone.Wire

open Lib

abbrev fullChunkDataId : UInt8 := 0x34
abbrev chunkOrderLayered : UInt8 := 1

abbrev ChunkShape.blockCount : Nat := 32768
abbrev ChunkShape.nibbleBytes : Nat := 16384
abbrev ChunkShape.columnCount : Nat := 256

structure ChunkWireView where
  chunkX : Int32
  chunkZ : Int32
  blockIds : Bytes
  blockData : Bytes
  skyLight : Bytes
  blockLight : Bytes
  biomeWords : List UInt32
  heightMap : Bytes
  extraData : List (UInt32 × UInt16)
  blockEntities : List NbtDocument

def requireLen (field : String) (length expected : Nat) : Except CodecError Unit :=
  if length = expected then .ok () else .error (.invalidChunkPlaneLength field expected length)

def validateExtraDataKey (key : UInt32) : Except CodecError Unit :=
  let y := key &&& 0xff
  if key > 0xffff ∨ y > 127 then .error (.invalidChunkExtraDataKey key) else .ok ()

def u32OfLen (field : String) (length : Nat) : Except CodecError UInt32 :=
  if length < UInt32.size then .ok (UInt32.ofNat length)
  else .error (.lengthOutOfRange field length (UInt32.size - 1))

def putExtraData (w : Writer) (entry : UInt32 × UInt16) : Except CodecError Writer := do
  validateExtraDataKey entry.1
  pure ((w.putLe entry.1).putU16Le entry.2)

abbrev blockEntityLimits : NbtLimits := ⟨64 * 1024, 16, 256, 1024⟩

def encodeFullChunk (snapshot : ChunkWireView) : Except CodecError RawPacket := do
  requireLen "chunk block ids" snapshot.blockIds.length ChunkShape.blockCount
  requireLen "chunk block data" snapshot.blockData.length ChunkShape.nibbleBytes
  requireLen "chunk sky light" snapshot.skyLight.length ChunkShape.nibbleBytes
  requireLen "chunk block light" snapshot.blockLight.length ChunkShape.nibbleBytes
  requireLen "chunk biome words" snapshot.biomeWords.length ChunkShape.columnCount
  requireLen "chunk height map" snapshot.heightMap.length ChunkShape.columnCount
  let blockEntities ← snapshot.blockEntities.mapM fun document =>
    encodeLe document blockEntityLimits
  let payload := Writer.putBytes [] snapshot.blockIds
  let payload := payload.putBytes snapshot.blockData
  let payload := payload.putBytes snapshot.skyLight
  let payload := payload.putBytes snapshot.blockLight
  let payload := payload.putBytes snapshot.heightMap
  let payload := snapshot.biomeWords.foldl Writer.putU32Be payload
  let extraCount ← u32OfLen "chunk extra-data count" snapshot.extraData.length
  let payload ← snapshot.extraData.foldlM putExtraData (payload.putLe extraCount)
  let payload := blockEntities.foldl Writer.putBytes payload
  let payloadLen ← u32OfLen "full chunk payload" payload.length
  let body := Writer.putI32Be [] snapshot.chunkX
  let body := body.putI32Be snapshot.chunkZ
  let body := body.putU8 chunkOrderLayered
  let body := body.putU32Be payloadLen
  pure ⟨fullChunkDataId, body.putBytes payload⟩

end Cobblestone.Wire
