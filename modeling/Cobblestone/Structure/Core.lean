import Cobblestone.Lib.Cursor
import Cobblestone.World.Chunk

namespace Cobblestone.Structure

open Lib World

inductive StructureOrientation where
  | south
  | west
  | north
  | east
deriving DecidableEq, Repr

namespace StructureOrientation

def toU8 : StructureOrientation → UInt8
  | south => 0
  | west => 1
  | north => 2
  | east => 3

def decode : UInt8 → Option StructureOrientation
  | 0 => some south
  | 1 => some west
  | 2 => some north
  | 3 => some east
  | _ => none

theorem decode_toU8 (orientation : StructureOrientation) : decode orientation.toU8 = some orientation := by
  cases orientation <;> rfl

end StructureOrientation

structure StructureBounds where
  x0 : Int32
  y0 : Int32
  z0 : Int32
  x1 : Int32
  y1 : Int32
  z1 : Int32
deriving DecidableEq, Repr

namespace StructureBounds

def intersectsXz (b : StructureBounds) (x0 z0 x1 z1 : Int32) : Bool :=
  !(b.x1 < x0 || b.x0 > x1 || b.z1 < z0 || b.z0 > z1)

def values (b : StructureBounds) : List Int32 := [b.x0, b.y0, b.z0, b.x1, b.y1, b.z1]

end StructureBounds

def chunkHash (x z : Int32) : Int32 := x * 0x1f1f1f1f ^^^ z

structure StructureStartCore where
  source : ChunkCoord
  bounds : StructureBounds
  generatedChunkPositions : List Int32
deriving DecidableEq, Repr

namespace StructureStartCore

def new (source : ChunkCoord) (bounds : StructureBounds) : StructureStartCore := ⟨source, bounds, []⟩

-- The square of the target that the bounds have to meet reaches one block into the next chunks.
def meets (bounds : StructureBounds) (target : ChunkCoord) : Bool :=
  let cx := target.x * 16
  let cz := target.z * 16
  bounds.intersectsXz cx cz (cx + 16) (cz + 16)

def shouldPostProcess (core : StructureStartCore) (target : ChunkCoord) : Bool :=
  meets core.bounds target && !core.generatedChunkPositions.contains (chunkHash target.x target.z)

def markPostProcessed (core : StructureStartCore) (target : ChunkCoord) : StructureStartCore :=
  let hash := chunkHash target.x target.z
  if core.generatedChunkPositions.contains hash then core
  else { core with generatedChunkPositions := core.generatedChunkPositions ++ [hash] }

def values (core : StructureStartCore) : List Int32 :=
  [core.source.x, core.source.z, core.bounds.x0, core.bounds.y0, core.bounds.z0, core.bounds.x1,
    core.bounds.y1, core.bounds.z1]

def encodeCoreSemantics (core : StructureStartCore) : Bytes := core.values.flatMap Word.toLeBytes

def ofValues : List Int32 → Option StructureStartCore
  | [x, z, x0, y0, z0, x1, y1, z1] => some (new ⟨x, z⟩ ⟨x0, y0, z0, x1, y1, z1⟩)
  | _ => none

def decodeCoreSemantics (bytes : Bytes) : Option StructureStartCore :=
  if bytes.length ≠ 32 then none
  else
    match Cursor.finish (Reader.times Cursor.word 8) bytes with
    | some values => ofValues values
    | none => none

-- What a start is after its state has been written and read back.
def restored (core : StructureStartCore) : StructureStartCore := new core.source core.bounds

end StructureStartCore

section Codec

theorem length_flatMap_words (values : List Int32) :
    (values.flatMap Word.toLeBytes).length = 4 * values.length := by
  induction values with
  | nil => rfl
  | cons v vs ih =>
    rw [List.flatMap_cons, List.length_append, Word.length_toLeBytes, ih, List.length_cons]
    change 4 + 4 * vs.length = 4 * (vs.length + 1)
    omega

theorem length_encodeCoreSemantics (core : StructureStartCore) :
    core.encodeCoreSemantics.length = 32 := length_flatMap_words _

theorem reads_words (values : List Int32) :
    Reads (Reader.times (Cursor.word (α := Int32)) values.length) (values.flatMap Word.toLeBytes)
      values :=
  Reads.times fun v _ => Cursor.reads_word v

theorem decodeCoreSemantics_encodeCoreSemantics (core : StructureStartCore) :
    StructureStartCore.decodeCoreSemantics core.encodeCoreSemantics = some core.restored := by
  have hreads : Reader.times Cursor.word 8 (core.encodeCoreSemantics ++ []) =
      .ok (core.values, []) := reads_words core.values []
  rw [List.append_nil] at hreads
  rw [StructureStartCore.decodeCoreSemantics,
    if_neg (not_not.mpr (length_encodeCoreSemantics core)), Cursor.finish_eq_some.mpr hreads]
  rfl

end Codec

section ChunkHash

variable {x x' z z' : Int32}

theorem mul_hashFactor_inj (h : x * 0x1f1f1f1f = x' * 0x1f1f1f1f) : x = x' := by
  -- the factor is odd, so it has an inverse among the words
  have hinv : (0x1f1f1f1f : Int32) * 3463683295 = 1 := by decide
  calc x = x * (0x1f1f1f1f * 3463683295) := by rw [hinv, Int32.mul_one]
    _ = x' * (0x1f1f1f1f * 3463683295) := by rw [← Int32.mul_assoc, h, Int32.mul_assoc]
    _ = x' := by rw [hinv, Int32.mul_one]

theorem chunkHash_inj_z (h : chunkHash x z = chunkHash x z') : z = z' :=
  (Int32.xor_right_inj _).mp h

theorem chunkHash_inj_x (h : chunkHash x z = chunkHash x' z) : x = x' :=
  mul_hashFactor_inj ((Int32.xor_left_inj _).mp h)

theorem eq_of_chunkHash_eq {a b : ChunkCoord} (h : chunkHash a.x a.z = chunkHash b.x b.z)
    (hline : a.x = b.x ∨ a.z = b.z) : a = b := by
  obtain ⟨ax, az⟩ := a
  obtain ⟨bx, bz⟩ := b
  rcases hline with hx | hz
  · cases hx
    cases chunkHash_inj_z h
    rfl
  · cases hz
    cases chunkHash_inj_x h
    rfl

end ChunkHash

end Cobblestone.Structure
