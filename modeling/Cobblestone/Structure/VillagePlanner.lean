import Cobblestone.Structure.Plan

namespace Cobblestone.Structure

open Lib World

namespace StructureBounds

def orientBox (footX footY footZ offX offY offZ width height depth : Int32) :
    StructureOrientation → StructureBounds
  | .north =>
    ⟨footX + offX, footY + offY, footZ - depth + 1 + offZ, footX + width - 1 + offX,
      footY + height - 1 + offY, footZ + offZ⟩
  | .south =>
    ⟨footX + offX, footY + offY, footZ + offZ, footX + width - 1 + offX,
      footY + height - 1 + offY, footZ + depth - 1 + offZ⟩
  | .west =>
    ⟨footX - depth + 1 + offZ, footY + offY, footZ + offX, footX + offZ,
      footY + height - 1 + offY, footZ + width - 1 + offX⟩
  | .east =>
    ⟨footX + offZ, footY + offY, footZ + offX, footX + depth - 1 + offZ,
      footY + height - 1 + offY, footZ + width - 1 + offX⟩

variable (b other : StructureBounds)

def intersects : Bool :=
  !(b.x1 < other.x0 || b.x0 > other.x1 || b.z1 < other.z0 || b.z0 > other.z1 ||
    b.y1 < other.y0 || b.y0 > other.y1)

def xSpan : Int32 := b.x1 - b.x0 + 1

def zSpan : Int32 := b.z1 - b.z0 + 1

end StructureBounds

def lowestYPosition : Int32 := 10

def maxDepth : Int32 := 50

def baseRoadDepth : Int32 := 3

def maxOffsetFromStart : Int32 := 7 * 16

namespace VillagePieceKind

-- Width, height and depth.
def dimensions : VillagePieceKind → Option (Int32 × Int32 × Int32)
  | start => some (6, 15, 6)
  | simpleHouse => some (5, 6, 5)
  | smallTemple => some (5, 12, 9)
  | bookHouse => some (9, 9, 6)
  | smallHut => some (4, 6, 5)
  | pigHouse => some (9, 7, 11)
  | doubleFarmland => some (13, 4, 9)
  | farmland => some (7, 4, 9)
  | smithy => some (10, 6, 7)
  | twoRoomHouse => some (9, 7, 12)
  | lightPost => some (3, 4, 2)
  | straightRoad => none

end VillagePieceKind

namespace MtRandom

def nextInclusive (random : MtRandom) (least most : Nat) : Nat × MtRandom :=
  if most ≤ least then (least, random)
  else
    let (draw, random) := random.nextInt (.ofNat (most - least + 1))
    (least + draw.toNat, random)

def nextBoolean (random : MtRandom) : Bool × MtRandom :=
  let (value, random) := random.nextU32
  (value &&& 0x08000000 != 0, random)

end MtRandom

structure PieceWeight where
  kind : VillagePieceKind
  weight : Int
  placeCount : Nat
  maxPlaceCount : Nat
deriving DecidableEq, Repr

namespace PieceWeight

variable (w : PieceWeight)

def isValid : Bool := w.placeCount < w.maxPlaceCount

def doPlace (depth : Int32) : Bool := w.isValid && 0 ≤ depth

end PieceWeight

-- Where a piece is to stand: its foot, the way it faces and how deep it lies in the plan.
structure Site where
  x : Int32
  y : Int32
  z : Int32
  orientation : StructureOrientation
  depth : Int32
deriving DecidableEq, Repr

-- The source of the draws travels with the planner.
structure Planner where
  startBounds : StructureBounds
  villageSize : Int32
  weights : List PieceWeight
  previousPiece : Option VillagePieceKind
  pieces : List VillagePiecePlan
  pendingRoads : List Nat
  pendingHouses : List Nat
  startLocator : Int32 × Int32 × Int32
  random : MtRandom

namespace Planner

variable (p : Planner) (site : Site)

def nextInt (bound : UInt32) : UInt32 × Planner :=
  let (draw, random) := p.random.nextInt bound
  (draw, { p with random := random })

def selectCrop (locator : Int32 × Int32 × Int32) (random : MtRandom) : VillageCrop × MtRandom :=
  let (draw, random) := random.nextInt 3
  if draw ≠ 1 then (.wheat, random)
  else
    let (x, y, z) := locator
    let raw := x * 8976890 + y * 981131 + z
    let hash := raw.toInt64.toUInt64
    (match (hash >>> 3) % 3 with
      | 0 => .potato
      | 1 => .beetroot
      | _ => .carrot, random)

def leafExtra (locator : Int32 × Int32 × Int32) (kind : VillagePieceKind) (random : MtRandom) :
    VillagePieceExtra × MtRandom :=
  match kind with
  | .simpleHouse =>
    let (terrace, random) := random.nextBoolean
    (.simpleHouse terrace, random)
  | .smallHut =>
    let (lowCeiling, random) := random.nextBoolean
    let (table, random) := random.nextInt 3
    (.smallHut lowCeiling table.toUInt8, random)
  | .farmland =>
    let (first, random) := selectCrop locator random
    let (second, random) := selectCrop locator random
    (.farmland first second, random)
  | .doubleFarmland =>
    let (first, random) := selectCrop locator random
    let (second, random) := selectCrop locator random
    let (third, random) := selectCrop locator random
    let (fourth, random) := selectCrop locator random
    (.doubleFarmland first second third fourth, random)
  | _ => (.none, random)

def collides (bounds : StructureBounds) : Bool :=
  p.pieces.any fun piece => piece.bounds.intersects bounds

def totalWeight : Int :=
  if !p.weights.any PieceWeight.isValid then -1 else (p.weights.map (·.weight)).sum

def tooFar : Prop :=
  maxOffsetFromStart < (site.x - p.startBounds.x0).abs ∨
    maxOffsetFromStart < (site.z - p.startBounds.z0).abs

instance : Decidable (p.tooFar site) := inferInstanceAs (Decidable (_ ∨ _))

def createLeaf (kind : VillagePieceKind) : Option Nat × Planner :=
  match kind.dimensions with
  | none => (none, p)
  | some (width, height, pieceDepth) =>
    let bounds := StructureBounds.orientBox site.x site.y site.z 0 0 0 width height pieceDepth
      site.orientation
    if p.collides bounds then (none, p)
    else
      let (extra, random) := leafExtra p.startLocator kind p.random
      (some p.pieces.length, { p with
        pieces := p.pieces ++ [⟨kind, bounds, site.orientation, site.depth, extra, -1, false⟩]
        random := random })

-- A kind has been placed: it is counted, and one that has reached its number is out.
def placed (index : Nat) (weight : PieceWeight) : Planner :=
  let weight := { weight with placeCount := weight.placeCount + 1 }
  let weights := p.weights.set index weight
  { p with
    weights := if weight.isValid then weights else weights.eraseIdx index
    previousPiece := some weight.kind }

-- One of the five attempts: the kind drawn, and the kinds after it as long as they collide.
def tryKinds (p : Planner) (site : Site) (selection : Int) (index : Nat) :
    List PieceWeight → Option (Nat × Planner)
  | [] => none
  | weight :: rest =>
    let selection := selection - weight.weight
    if selection < 0 then
      if !weight.doPlace site.depth ∨
          (p.previousPiece = some weight.kind ∧ 1 < p.weights.length) then none
      else
        match p.createLeaf site weight.kind with
        | (some piece, p) => some (piece, p.placed index weight)
        | (none, p) => tryKinds p site selection (index + 1) rest
    else tryKinds p site selection (index + 1) rest

def attempts (p : Planner) (site : Site) (totalWeight : UInt32) : Nat → Option Nat × Planner
  | 0 => p.createLeaf site .lightPost
  | left + 1 =>
    let (draw, p) := p.nextInt totalWeight
    match p.tryKinds site draw.toNat 0 p.weights with
    | some (piece, p) => (some piece, p)
    | none => attempts p site totalWeight left

def generatePieceFromSmallDoor : Option Nat × Planner :=
  if p.totalWeight ≤ 0 then (none, p) else p.attempts site (.ofNat p.totalWeight.toNat) 5

def generatePiece : Option Nat × Planner :=
  if maxDepth < site.depth ∨ p.tooFar site then (none, p)
  else
    match p.generatePieceFromSmallDoor { site with depth := site.depth + 1 } with
    | (some index, p) => (some index, { p with pendingHouses := p.pendingHouses ++ [index] })
    | (none, p) => (none, p)

-- A road is as many sections of seven blocks long as there is room for.
def roadBounds : Nat → Option StructureBounds
  | 0 => none
  | sections + 1 =>
    let candidate := StructureBounds.orientBox site.x site.y site.z 0 0 0 3 3
      (7 * Int32.ofNat (sections + 1)) site.orientation
    if p.collides candidate then roadBounds sections else some candidate

def generateRoad : Option Nat × Planner :=
  if baseRoadDepth + p.villageSize < site.depth ∨ p.tooFar site then (none, p)
  else
    let (sections, random) := p.random.nextInclusive 3 5
    match p.roadBounds site sections with
    | none => (none, { p with random := random })
    | some bounds =>
      if bounds.y0 ≤ lowestYPosition then (none, { p with random := random })
      else
        let length := max bounds.xSpan bounds.zSpan
        (some p.pieces.length, { p with
          pieces := p.pieces ++ [⟨.straightRoad, bounds, site.orientation, site.depth,
            .straightRoad length, -1, false⟩]
          pendingRoads := p.pendingRoads ++ [p.pieces.length]
          random := random })

def startSites (b : StructureBounds) : List Site :=
  [⟨b.x0 - 1, b.y1 - 4, b.z0 + 1, .west, 0⟩, ⟨b.x1 + 1, b.y1 - 4, b.z0 + 1, .east, 0⟩,
    ⟨b.x0 + 1, b.y1 - 4, b.z0 - 1, .north, 0⟩, ⟨b.x0 + 1, b.y1 - 4, b.z1 + 1, .south, 0⟩]

def addStartChildren : Planner :=
  (startSites p.startBounds).foldl (fun p site => (p.generateRoad site).2) p

def houseLeft (road : VillagePiecePlan) (offset : Int32) : Site :=
  match road.orientation with
  | .north | .south =>
    ⟨road.bounds.x0 - 1, road.bounds.y0, road.bounds.z0 + offset, .west, road.genDepth⟩
  | .west | .east =>
    ⟨road.bounds.x0 + offset, road.bounds.y0, road.bounds.z0 - 1, .north, road.genDepth⟩

def houseRight (road : VillagePiecePlan) (offset : Int32) : Site :=
  match road.orientation with
  | .north | .south =>
    ⟨road.bounds.x1 + 1, road.bounds.y0, road.bounds.z0 + offset, .east, road.genDepth⟩
  | .west | .east =>
    ⟨road.bounds.x0 + offset, road.bounds.y0, road.bounds.z1 + 1, .south, road.genDepth⟩

def roadLeft (road : VillagePiecePlan) : Site :=
  match road.orientation with
  | .north => ⟨road.bounds.x0 - 1, road.bounds.y0, road.bounds.z0, .west, road.genDepth⟩
  | .south => ⟨road.bounds.x0 - 1, road.bounds.y0, road.bounds.z1 - 2, .west, road.genDepth⟩
  | .east => ⟨road.bounds.x1 - 2, road.bounds.y0, road.bounds.z0 - 1, .north, road.genDepth⟩
  | .west => ⟨road.bounds.x0, road.bounds.y0, road.bounds.z0 - 1, .north, road.genDepth⟩

def roadRight (road : VillagePiecePlan) : Site :=
  match road.orientation with
  | .north => ⟨road.bounds.x1 + 1, road.bounds.y0, road.bounds.z0, .east, road.genDepth⟩
  | .south => ⟨road.bounds.x1 + 1, road.bounds.y0, road.bounds.z1 - 2, .east, road.genDepth⟩
  | .east => ⟨road.bounds.x1 - 2, road.bounds.y0, road.bounds.z1 + 1, .south, road.genDepth⟩
  | .west => ⟨road.bounds.x0, road.bounds.y0, road.bounds.z1 + 1, .south, road.genDepth⟩

-- The houses along one side of a road, with a bound on the turns of the loop.
def lineHouses (side : Int32 → Site) (length : Int32) :
    Nat → Int32 → Bool → Planner → Option (Bool × Planner)
  | turns, offset, hasHouses, p =>
    if offset < length - 8 then
      match turns with
      | 0 => none
      | turns + 1 =>
        match p.generatePiece (side offset) with
        | (some piece, p) =>
          match p.pieces[piece]? with
          | none => none
          | some house =>
            let (draw, p) := p.nextInt 5
            lineHouses side length turns
              (offset + max house.bounds.xSpan house.bounds.zSpan + (2 + draw.toInt32)) true p
        | (none, p) =>
          let (draw, p) := p.nextInt 5
          lineHouses side length turns (offset + (2 + draw.toInt32)) hasHouses p
    else some (hasHouses, p)

def branchOff (hasHouses : Bool) : Planner :=
  if hasHouses then
    let (draw, p) := p.nextInt 3
    if 0 < draw then (p.generateRoad site).2 else p
  else p

def addRoadChildren (turns : Nat) (road : VillagePiecePlan) : Option Planner :=
  match road.extra with
  | .straightRoad length =>
    let (draw, p) := p.nextInt 5
    match lineHouses (houseLeft road) length turns draw.toInt32 false p with
    | none => none
    | some (hasHouses, p) =>
      let (draw, p) := p.nextInt 5
      match lineHouses (houseRight road) length turns draw.toInt32 hasHouses p with
      | none => none
      | some (hasHouses, p) =>
        some ((p.branchOff (roadLeft road) hasHouses).branchOff (roadRight road) hasHouses)
  | _ => none

def addChildren (turns index : Nat) : Option Planner :=
  match p.pieces[index]? with
  | none => none
  | some piece => if piece.kind = .straightRoad then p.addRoadChildren turns piece else some p

-- Roads come before houses, each at random among its like.
def takePending : Option (Nat × Planner) :=
  if p.pendingRoads.isEmpty then
    let (position, p) := p.nextInt (.ofNat p.pendingHouses.length)
    p.pendingHouses[position.toNat]?.map fun index =>
      (index, { p with pendingHouses := p.pendingHouses.eraseIdx position.toNat })
  else
    let (position, p) := p.nextInt (.ofNat p.pendingRoads.length)
    p.pendingRoads[position.toNat]?.map fun index =>
      (index, { p with pendingRoads := p.pendingRoads.eraseIdx position.toNat })

def addPending (turns : Nat) : Nat → Planner → Option Planner
  | fuel, p =>
    if p.pendingRoads.isEmpty && p.pendingHouses.isEmpty then some p
    else
      match fuel with
      | 0 => none
      | fuel + 1 => do
        let (index, p) ← p.takePending
        let p ← p.addChildren turns index
        addPending turns fuel p

end Planner

-- A kind, its weight, and the least and the most that may be drawn as its greatest number.
def houseKinds : List (VillagePieceKind × Int × Nat × Nat) :=
  [(.simpleHouse, 4, 2, 4), (.smallTemple, 20, 0, 1), (.bookHouse, 20, 0, 2), (.smallHut, 3, 2, 5),
    (.pigHouse, 15, 0, 2), (.doubleFarmland, 3, 1, 4), (.farmland, 3, 2, 4), (.smithy, 15, 0, 1),
    (.twoRoomHouse, 8, 0, 3)]

def drawWeights : List (VillagePieceKind × Int × Nat × Nat) → MtRandom → List PieceWeight × MtRandom
  | [], random => ([], random)
  | (kind, weight, least, most) :: rest, random =>
    let (count, random) := random.nextInclusive least most
    let (weights, random) := drawWeights rest random
    (⟨kind, weight, 0, count⟩ :: weights, random)

def villageStart (source : ChunkCoord) : StructureBounds :=
  let west := source.x * 16 + 2
  let north := source.z * 16 + 2
  ⟨west, 64, north, west + 5, 78, north + 5⟩

def Planner.new (source : ChunkCoord) (random : MtRandom) : Planner :=
  let (weights, random) := drawWeights houseKinds random
  let (draw, random) := random.nextInt 4
  let b := villageStart source
  { startBounds := b
    villageSize := 0
    weights := weights.filter fun weight => weight.maxPlaceCount != 0
    previousPiece := none
    pieces := [⟨.start, b, orientationFromU32 draw, 0, .none, -1, false⟩]
    pendingRoads := []
    pendingHouses := []
    startLocator := (b.x0 + b.xSpan / 2, b.y0 + b.ySpan / 2, b.z0 + b.zSpan / 2)
    random := random }

-- The plan with its pieces grown, in at most so many turns of its two kinds of loops.
def VillagePlan.generateGrown (turns fuel : Nat) (source : ChunkCoord) (random : MtRandom)
    (candidateSeed : UInt32) (style : VillageStyle) : Option VillagePlan :=
  let abandoned := ((MtRandom.new candidateSeed).nextInt 50).1 == 0
  (Planner.addPending turns fuel (Planner.new source random).addStartChildren).map fun planner =>
    ⟨.new source (calculateBounds (planner.pieces.map (·.bounds))), style, abandoned,
      planner.pieces⟩

end Cobblestone.Structure
