import Cobblestone.World.Chunk

namespace Cobblestone.World

structure ChunkPos where
  x : Int
  z : Int
deriving DecidableEq, Repr

structure BlockPos where
  x : Int
  y : Int
  z : Int
deriving DecidableEq, Repr

abbrev minY : Int := 0
abbrev maxY : Int := worldHeight - 1

namespace ChunkPos

def floorDiv (value divisor : Int) : Int :=
  let quotient := value.tdiv divisor
  if value < 0 ∧ value.tmod divisor ≠ 0 then quotient - 1 else quotient

def localCoordinate (coordinate : Int) : Int :=
  let inner := coordinate.tmod chunkEdge
  if inner < 0 then inner + chunkEdge else inner

def fromBlock (x z : Int) : ChunkPos := ⟨floorDiv x chunkEdge, floorDiv z chunkEdge⟩

-- The native side takes chunk coordinates of 32 bits only.
def coord? (p : ChunkPos) : Option ChunkCoord :=
  if -2 ^ 31 ≤ p.x ∧ p.x < 2 ^ 31 ∧ -2 ^ 31 ≤ p.z ∧ p.z < 2 ^ 31 then
    some ⟨Int32.ofInt p.x, Int32.ofInt p.z⟩
  else none

theorem tmod_nonpos {value : Int} (h : value < 0) : value.tmod 16 ≤ 0 := by
  have hneg := Int.tmod_nonneg 16 (show 0 ≤ -value by omega)
  rw [Int.neg_tmod] at hneg
  omega

theorem floorDiv_eq (value : Int) : floorDiv value chunkEdge = value / 16 := by
  have hsum := Int.mul_tdiv_add_tmod value 16
  have hlow := Int.lt_tmod_of_pos value (show (0 : Int) < 16 by decide)
  have hhigh := Int.tmod_lt_of_pos value (show (0 : Int) < 16 by decide)
  have hsign := Int.tmod_nonneg (a := value) 16
  simp only [floorDiv, chunkEdge, Nat.cast_ofNat]
  split_ifs with h
  · have := tmod_nonpos h.1
    omega
  · omega

theorem localCoordinate_eq (coordinate : Int) : localCoordinate coordinate = coordinate % 16 := by
  have hsum := Int.mul_tdiv_add_tmod coordinate 16
  have hlow := Int.lt_tmod_of_pos coordinate (show (0 : Int) < 16 by decide)
  have hhigh := Int.tmod_lt_of_pos coordinate (show (0 : Int) < 16 by decide)
  simp only [localCoordinate, chunkEdge, Nat.cast_ofNat]
  split_ifs with h <;> omega

end ChunkPos

def ChunkCoord.pos (c : ChunkCoord) : ChunkPos := ⟨c.x.toInt, c.z.toInt⟩

theorem ChunkPos.coord?_eq_some {p : ChunkPos} {c : ChunkCoord} : p.coord? = some c ↔ p = c.pos := by
  constructor
  · intro h
    unfold coord? at h
    split_ifs at h with hrange
    cases h
    obtain ⟨hx, hx', hz, hz'⟩ := hrange
    rw [ChunkCoord.pos, Int32.toInt_ofInt_of_le hx hx', Int32.toInt_ofInt_of_le hz hz']
  · rintro rfl
    rw [coord?, ChunkCoord.pos, if_pos ⟨c.x.le_toInt, c.x.toInt_lt, c.z.le_toInt, c.z.toInt_lt⟩,
      Int32.ofInt_toInt, Int32.ofInt_toInt]

namespace BlockPos

variable (p : BlockPos)

def chunk : ChunkPos := ChunkPos.fromBlock p.x p.z

def localX : Nat := (ChunkPos.localCoordinate p.x).toNat

def localZ : Nat := (ChunkPos.localCoordinate p.z).toNat

def isInsideWorld : Bool := decide (minY ≤ p.y) && decide (p.y ≤ maxY)

theorem localX_lt : p.localX < 16 := by
  rw [localX, ChunkPos.localCoordinate_eq]
  omega

theorem localZ_lt : p.localZ < 16 := by
  rw [localZ, ChunkPos.localCoordinate_eq]
  omega

variable {p}

theorem isInsideWorld_iff : p.isInsideWorld = true ↔ 0 ≤ p.y ∧ p.y < 128 := by
  simp only [isInsideWorld, minY, maxY, worldHeight, Bool.and_eq_true, decide_eq_true_eq]
  omega

theorem eq_of_cell {q : BlockPos} (hchunk : p.chunk = q.chunk) (hx : p.localX = q.localX)
    (hy : p.y = q.y) (hz : p.localZ = q.localZ) : p = q := by
  simp only [chunk, ChunkPos.fromBlock, ChunkPos.floorDiv_eq, ChunkPos.mk.injEq] at hchunk
  simp only [localX, localZ, ChunkPos.localCoordinate_eq] at hx hz
  obtain ⟨x, y, z⟩ := p
  obtain ⟨x', y', z'⟩ := q
  simp only [BlockPos.mk.injEq] at *
  omega

end BlockPos

end Cobblestone.World
