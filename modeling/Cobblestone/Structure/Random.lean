import Cobblestone.Structure.Core

namespace Cobblestone.Structure

open Lib World

structure MtRandom where
  state : List UInt32
  index : Nat
deriving DecidableEq, Repr

namespace MtRandom

def mtN : Nat := 624

def mtM : Nat := 397

def upperMask : UInt32 := 0x80000000

def lowerMask : UInt32 := 0x7fffffff

def matrixA : UInt32 := 0x9908b0df

def seedStep (previous : UInt32) (index : Nat) : UInt32 :=
  (1812433253 : UInt32) * (previous ^^^ (previous >>> 30)) + UInt32.ofNat index

def new (seed : UInt32) : MtRandom := ⟨(List.range' 1 (mtN - 1)).scanl seedStep seed, mtN⟩

def reseed (_ : MtRandom) (seed : UInt32) : MtRandom := new seed

def twist (here next far : UInt32) : UInt32 :=
  let y := (here &&& upperMask) ||| (next &&& lowerMask)
  far ^^^ (y >>> 1) ^^^ if y &&& 1 = 0 then 0 else matrixA

def temper (value : UInt32) : UInt32 :=
  let value := value ^^^ (value >>> 11)
  let value := value ^^^ ((value <<< 7) &&& 0x9d2c5680)
  let value := value ^^^ ((value <<< 15) &&& 0xefc60000)
  value ^^^ (value >>> 18)

def nextU32 (random : MtRandom) : UInt32 × MtRandom :=
  let random :=
    if random.index > mtN then { new 5489 with index := 0 }
    else if random.index = mtN then { random with index := 0 }
    else random
  let index := random.index
  let word (i : Nat) := random.state.getD i 0
  let value :=
    if index < mtN - mtM then twist (word index) (word (index + 1)) (word (index + mtM))
    else if index < mtN - 1 then twist (word index) (word (index + 1)) (word (index + mtM - mtN))
    else twist (word (mtN - 1)) (word 0) (word (mtM - 1))
  (temper value, ⟨random.state.set index value, index + 1⟩)

-- The f32 that lies nearest to a draw, ties to even.
def toF32 (draw : Nat) : Nat :=
  let unit := 2 ^ (draw.log2 - 23)
  let quotient := draw / unit
  let rest := draw % unit
  if 2 * rest < unit ∨ 2 * rest = unit ∧ quotient % 2 = 0 then quotient * unit
  else (quotient + 1) * unit

-- The float in units of 2 ^ -32.
def nextFloat (random : MtRandom) : Nat × MtRandom :=
  let (value, random) := random.nextU32
  (toF32 value.toNat, random)

def nextInt (random : MtRandom) (bound : UInt32) : UInt32 × MtRandom :=
  let (value, random) := random.nextU32
  (value % bound, random)

def nextPositiveInt (random : MtRandom) : UInt32 × MtRandom :=
  let (value, random) := random.nextU32
  (value >>> 1, random)

end MtRandom

def rangeInclusive (first last : Int32) : List Int32 :=
  (List.range (last.toInt + 1 - first.toInt).toNat).map fun k => first + Int32.ofNat k

def rangeExclusive (first last : Int32) : List Int32 :=
  (List.range (last.toInt - first.toInt).toNat).map fun k => first + Int32.ofNat k

-- Where a bound leaves the range of the coordinates the square is empty.
def structureSourceChunks (center : ChunkCoord) (radius : Int32) : List ChunkCoord :=
  (rangeInclusive (center.x - radius) (center.x + radius)).flatMap fun x =>
    (rangeInclusive (center.z - radius) (center.z + radius)).map fun z => ⟨x, z⟩

def oddScale (value : UInt32) : Int32 := value.toInt32 / 2 * 2 + 1

def structureSourceRandom (seed : UInt32) (source : ChunkCoord) : MtRandom :=
  let random := MtRandom.new seed
  let (xDraw, random) := random.nextPositiveInt
  let (zDraw, random) := random.nextPositiveInt
  let mixed := source.x * oddScale xDraw + source.z * oddScale zDraw
  random.reseed (mixed.toUInt32 ^^^ seed)

section SourceChunks

variable {first last : Int32} {center : ChunkCoord} {radius : Int32}

theorem ofNat_inj_of_lt {k l : Nat} (hk : k < 4294967296) (hl : l < 4294967296)
    (h : Int32.ofNat k = Int32.ofNat l) : k = l := by
  have hbits := congrArg (fun v : Int32 => v.toBitVec.toNat) h
  simp only [Int32.toBitVec_ofNat', BitVec.toNat_ofNat] at hbits
  rwa [Nat.mod_eq_of_lt hk, Nat.mod_eq_of_lt hl] at hbits

theorem rangeInclusive_nodup (first last : Int32) : (rangeInclusive first last).Nodup := by
  have hfirst := first.le_toInt
  have hlast := last.toInt_lt
  refine (List.nodup_range).map_on fun k hk l hl h => ?_
  rw [List.mem_range] at hk hl
  refine ofNat_inj_of_lt (by omega) (by omega) ?_
  exact (Int32.add_right_inj first).mp h

theorem structureSourceChunks_nodup (center : ChunkCoord) (radius : Int32) :
    (structureSourceChunks center radius).Nodup := by
  refine List.nodup_flatMap.mpr ⟨fun x _ => ?_, ?_⟩
  · refine (rangeInclusive_nodup _ _).map fun z z' h => ?_
    cases h
    rfl
  · refine (rangeInclusive_nodup _ _).imp fun hne c hx hx' => ?_
    obtain ⟨z, -, rfl⟩ := List.mem_map.mp hx
    obtain ⟨z', -, h⟩ := List.mem_map.mp hx'
    cases h
    exact hne rfl

end SourceChunks

end Cobblestone.Structure
