import Cobblestone.Structure.Random
import Cobblestone.Structure.Mineshaft
import Cobblestone.Structure.Stronghold
import Cobblestone.Structure.Scattered
import Cobblestone.Structure.Village

namespace Cobblestone.Structure

open Lib World

namespace StructureBounds

def unknown : StructureBounds :=
  ⟨2147483647, 2147483647, 2147483647, -2147483647, -2147483647, -2147483647⟩

def expand (b other : StructureBounds) : StructureBounds :=
  ⟨min b.x0 other.x0, min b.y0 other.y0, min b.z0 other.z0, max b.x1 other.x1, max b.y1 other.y1,
    max b.z1 other.z1⟩

def moveBy (b : StructureBounds) (dx dy dz : Int32) : StructureBounds :=
  ⟨b.x0 + dx, b.y0 + dy, b.z0 + dz, b.x1 + dx, b.y1 + dy, b.z1 + dz⟩

def ySpan (b : StructureBounds) : Int32 := b.y1 - b.y0 + 1

end StructureBounds

def calculateBounds (pieces : List StructureBounds) : StructureBounds :=
  pieces.foldl .expand .unknown

def MineshaftPiecePlan.moveBy (piece : MineshaftPiecePlan) (dx dy dz : Int32) :
    MineshaftPiecePlan :=
  { piece with
    bounds := piece.bounds.moveBy dx dy dz
    extra :=
      match piece.extra with
      | .room entrances => .room (entrances.map (·.moveBy dx dy dz))
      | extra => extra }

def StrongholdPiecePlan.moveBy (piece : StrongholdPiecePlan) (dx dy dz : Int32) :
    StrongholdPiecePlan :=
  { piece with bounds := piece.bounds.moveBy dx dy dz }

-- How the pieces of a start grow out of its first one. A mineshaft's room comes back with its
-- entrances, a stronghold's stairs stay as they are.
structure Builders where
  mineshaft : Bool → MineshaftPiecePlan → MtRandom → List MineshaftPiecePlan × MtRandom
  stronghold : StrongholdPiecePlan → MtRandom → List StrongholdPiecePlan × MtRandom
  village : ChunkCoord → MtRandom → List VillagePiecePlan
  mineshaft_count : ∀ surface room random, (mineshaft surface room random).1.length < 4294967296
  mineshaft_counted : ∀ surface room random, ∀ piece ∈ (mineshaft surface room random).1,
    piece.extra.Counted
  stronghold_count : ∀ stairs random, (stronghold stairs random).1.length + 1 < 4294967296
  village_count : ∀ source random, (village source random).length < 4294967296

def orientationFromU32 : UInt32 → StructureOrientation
  | 0 => .south
  | 1 => .west
  | 2 => .north
  | _ => .east

-- The topmost layer that a start of that span is moved to.
def topLayer (span maxY : Int32) (random : MtRandom) : Int32 :=
  let y1Pos := span + 1
  if y1Pos < maxY then y1Pos + (random.nextInt (maxY - y1Pos).toUInt32).1.toInt32 else y1Pos

def MineshaftPlan.generate (builders : Builders) (source : ChunkCoord) (random : MtRandom)
    (surface : Bool) : MineshaftPlan :=
  let west := source.x * 16 + 2
  let north := source.z * 16 + 2
  let (zDraw, random) := random.nextInt 6
  let (yDraw, random) := random.nextInt 6
  let (xDraw, random) := random.nextInt 6
  let bounds : StructureBounds :=
    ⟨west, 50, north, west + (7 + xDraw.toInt32), 54 + yDraw.toInt32, north + (7 + zDraw.toInt32)⟩
  let (pieces, random) := builders.mineshaft surface ⟨.room, bounds, .south, 0, .room []⟩ random
  let bounds := calculateBounds (pieces.map (·.bounds))
  let dy :=
    if surface then 63 - bounds.y1 + bounds.ySpan / 2 + 5
    else topLayer bounds.ySpan (63 - 10) random - bounds.y1
  ⟨.new source (bounds.moveBy 0 dy 0), surface, pieces.map (·.moveBy 0 dy 0)⟩

def StrongholdPlan.generate (builders : Builders) (source : ChunkCoord) (random : MtRandom) :
    StrongholdPlan :=
  let west := source.x * 16 + 2
  let north := source.z * 16 + 2
  let (draw, random) := random.nextInt 4
  let start : StrongholdPiecePlan :=
    ⟨.stairsDown, ⟨west, 64, north, west + 4, 74, north + 4⟩, orientationFromU32 draw, 0, .opening,
      .stairsDown true⟩
  let (grown, random) := builders.stronghold start random
  let pieces := start :: grown
  let bounds := calculateBounds (pieces.map (·.bounds))
  let dy := topLayer bounds.ySpan 58 random - bounds.y1
  ⟨.new source (bounds.moveBy 0 dy 0), pieces.map (·.moveBy 0 dy 0)⟩

def VillagePlan.generate (builders : Builders) (source : ChunkCoord) (random : MtRandom)
    (candidateSeed : UInt32) (style : VillageStyle) : VillagePlan :=
  let abandoned := ((MtRandom.new candidateSeed).nextInt 50).1 == 0
  let pieces := builders.village source random
  ⟨.new source (calculateBounds (pieces.map (·.bounds))), style, abandoned, pieces⟩

def ScatteredPieceState.new (kind : ScatteredKind) : ScatteredPieceState :=
  ⟨kind, -1, (false, false, false, false), false, false, (false, false), false⟩

section Generated

variable (builders : Builders) (source : ChunkCoord) (random : MtRandom)

theorem moveBy_counted {piece : MineshaftPiecePlan} (h : piece.extra.Counted) (dx dy dz : Int32) :
    (piece.moveBy dx dy dz).extra.Counted := by
  obtain ⟨kind, bounds, orientation, genDepth, extra⟩ := piece
  cases extra with
  | room entrances =>
    change (entrances.map _).length < 4294967296
    rw [List.length_map]
    exact h
  | corridor | crossing | stairs => exact h

theorem mineshaft_generate_counted (surface : Bool) :
    (MineshaftPlan.generate builders source random surface).Counted := by
  refine ⟨?_, fun piece hpiece => ?_⟩
  · rw [MineshaftPlan.generate, List.length_map]
    exact builders.mineshaft_count _ _ _
  · obtain ⟨piece, hgrown, rfl⟩ := List.mem_map.mp hpiece
    exact moveBy_counted (builders.mineshaft_counted _ _ _ piece hgrown) _ _ _

theorem stronghold_generate_source :
    (StrongholdPlan.generate builders source random).core.source = source := rfl

theorem stronghold_generate_count :
    (StrongholdPlan.generate builders source random).pieces.length < 4294967296 := by
  rw [StrongholdPlan.generate, List.length_map, List.length_cons]
  exact builders.stronghold_count _ _

theorem stronghold_generate_orientation :
    ((StrongholdPlan.generate builders source random).pieces.map (·.orientation)).head? =
      some (orientationFromU32 (random.nextInt 4).1) := rfl

end Generated

end Cobblestone.Structure
