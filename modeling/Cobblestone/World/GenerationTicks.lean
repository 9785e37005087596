import Cobblestone.Structure.Random
import Cobblestone.World.NeighborhoodWrites

namespace Cobblestone.World

open Structure

structure Place where
  x : Int32
  y : Int32
  z : Int32
deriving DecidableEq, Repr

namespace Place

variable (p : Place)

def west : Place := { p with x := p.x - 1 }

def east : Place := { p with x := p.x + 1 }

def north : Place := { p with z := p.z - 1 }

def south : Place := { p with z := p.z + 1 }

def down : Place := { p with y := p.y - 1 }

def up : Place := { p with y := p.y + 1 }

def toward (direction : Fin 4) : Place :=
  match direction with
  | 0 => p.west
  | 1 => p.east
  | 2 => p.north
  | 3 => p.south

end Place

abbrev airId : UInt16 := 0
abbrev stoneId : UInt16 := 1
abbrev cobblestoneId : UInt16 := 4
abbrev flowingWater : UInt16 := 8
abbrev stillWater : UInt16 := 9
abbrev flowingLava : UInt16 := 10
abbrev stillLava : UInt16 := 11
abbrev obsidianId : UInt16 := 49
abbrev fireId : UInt16 := 51

def materialIsSolid (id : UInt16) : Bool :=
  id ∉ [0, 8, 9, 10, 11, 6, 30, 31, 32, 37, 38, 39, 40, 50, 55, 59, 65, 66, 69, 90, 93, 104, 105,
    106, 111, 115, 119, 127, 131, 132, 140, 141, 142, 143, 171, 175, 244]

def waterBlocking (id : UInt16) : Bool :=
  if id ∈ [55, 66, 78, 171] then false
  else if id ∈ [63, 64, 65, 68, 71, 83, 90, 119, 193, 194, 195, 196, 197] then true
  else materialIsSolid id

def flammable (id : UInt16) : Bool :=
  id ∈ [5, 17, 18, 31, 35, 47, 85, 107, 161, 162, 170, 171, 183, 184, 185, 186, 187, 193, 194, 195,
    196, 197]

inductive LiquidMaterial where
  | water
  | lava
deriving DecidableEq, Repr

def liquidMaterialId (id : UInt16) : Option LiquidMaterial :=
  if id = flowingWater ∨ id = stillWater then some .water
  else if id = flowingLava ∨ id = stillLava then some .lava
  else none

-- The liquids that tick.
def flowingMaterial (id : UInt16) : Option LiquidMaterial :=
  if id = flowingWater then some .water else if id = flowingLava then some .lava else none

def waterTickDelay : UInt64 := 5

def lavaTickDelay : UInt64 := 30

def tickDelay : LiquidMaterial → UInt64
  | .water => waterTickDelay
  | .lava => lavaTickDelay

def dropOff : LiquidMaterial → Nat
  | .water => 1
  | .lava => 2

def blockState (id : UInt16) (data : UInt8) : UInt16 := (id <<< 4) ||| data.toUInt16

structure GenerationTick where
  place : Place
  blockId : UInt16
  due : UInt64
  priority : Int32
deriving DecidableEq, Repr

def GenerationTick.isBefore (candidate current : GenerationTick) : Bool :=
  candidate.due < current.due ||
    (candidate.due == current.due && candidate.priority < current.priority)

structure GenerationTickQueue where
  currentTick : UInt64
  pending : List GenerationTick
  random : MtRandom
  instaticking : Bool

namespace GenerationTickQueue

def withSeed (seed : UInt32) : GenerationTickQueue := ⟨1, [], .new seed, false⟩

variable (queue : GenerationTickQueue)

def add (place : Place) (blockId : UInt16) (delay : UInt64) : GenerationTickQueue :=
  { queue with pending := queue.pending ++ [⟨place, blockId, queue.currentTick + delay, 0⟩] }

-- The place and the tick of the first that no other precedes.
def earliest (best : Nat × GenerationTick) : Nat → List GenerationTick → Nat × GenerationTick
  | _, [] => best
  | index, candidate :: rest =>
    earliest (if candidate.isBefore best.2 then (index, candidate) else best) (index + 1) rest

def swapRemove (index : Nat) (ticks : List GenerationTick) : List GenerationTick :=
  match ticks.getLast? with
  | none => []
  | some last => (ticks.set index last).dropLast

def takeNext : Option (GenerationTick × GenerationTickQueue) :=
  match queue.pending with
  | [] => none
  | first :: rest =>
    let (index, tick) := earliest (0, first) 1 rest
    some (tick, { queue with pending := swapRemove index queue.pending })

end GenerationTickQueue

namespace PopulationNeighborhood

variable (region : PopulationNeighborhood) (material : LiquidMaterial)

def stateAt (p : Place) : Option UInt16 := region.state p.x p.y.toInt p.z

def blockIdAt (p : Place) : UInt16 := region.blockId p.x p.y.toInt p.z

def dataAt (p : Place) : UInt8 := ((region.stateAt p).map fun value => (value &&& 0x0f).toUInt8).getD 0

def setStateAt (p : Place) (value : UInt16) : PopulationNeighborhood :=
  (region.setState p.x p.y p.z value).2

def liquidDepth (p : Place) : Option Nat :=
  (region.stateAt p).bind fun value =>
    if liquidMaterialId (value >>> 4) = some material then some (value &&& 0x0f).toNat else none

def liquidMaterialAt (p : Place) : Option LiquidMaterial := liquidMaterialId (region.blockIdAt p)

def solidifyLava (p changed : Place) : PopulationNeighborhood :=
  if changed.y - p.y < 0 then region
  else if region.liquidMaterialAt p ≠ some .lava then region
  else if region.liquidMaterialAt changed ≠ some .water then region
  else if region.dataAt p = 0 then region.setStateAt p (blockState obsidianId 0)
  else if region.dataAt p ≤ 4 then region.setStateAt p (blockState cobblestoneId 0)
  else region

-- The highest liquid beside a cell so far, and how many of them are sources.
def getHighest (best : Int × Nat) (p : Place) : Int × Nat :=
  match region.liquidDepth material p with
  | none => best
  | some depth =>
    let count := if depth = 0 then best.2 + 1 else best.2
    let depth : Int := if 8 ≤ depth then 0 else depth
    (if best.1 < 0 ∨ depth < best.1 then depth else best.1, count)

def canSpreadTo (p : Place) : Bool :=
  match region.stateAt p with
  | none => false
  | some value =>
    let id := value >>> 4
    if liquidMaterialId id = some material ∨ liquidMaterialId id = some .lava then false
    else !waterBlocking id

def opposite (direction origin : Fin 4) : Bool :=
  (direction = 0 && origin = 1) || (direction = 1 && origin = 0) ||
    (direction = 2 && origin = 3) || (direction = 3 && origin = 2)

def slopeScan (pass : Nat) (deeper : Option (Place → Fin 4 → Nat)) (p : Place) (origin : Fin 4) :
    List (Fin 4) → Nat → Nat
  | [], lowest => lowest
  | direction :: rest, lowest =>
    let next := p.toward direction
    if opposite direction origin || waterBlocking (region.blockIdAt next) then
      slopeScan pass deeper p origin rest lowest
    else if region.liquidMaterialAt next = some material then
      slopeScan pass deeper p origin rest lowest
    else if !waterBlocking (region.blockIdAt next.down) then pass
    else
      match deeper with
      | none => slopeScan pass deeper p origin rest lowest
      | some deeper => slopeScan pass (some deeper) p origin rest (min lowest (deeper next direction))

def slopeDistance : Nat → Place → Fin 4 → Nat
  | 0, p, origin => region.slopeScan material 4 none p origin (List.finRange 4) 1000
  | left + 1, p, origin =>
    region.slopeScan material (3 - left) (some (slopeDistance left)) p origin (List.finRange 4) 1000

def spreadDistance (p : Place) (direction : Fin 4) : Nat :=
  let next := p.toward direction
  if waterBlocking (region.blockIdAt next) then 1000
  else if region.liquidMaterialAt next = some material then
    if region.dataAt next = 0 then 1000 else region.slopeDistance material 3 next direction
  else if !waterBlocking (region.blockIdAt next.down) then 0
  else region.slopeDistance material 3 next direction

def getSpread (p : Place) : List (Fin 4) :=
  let lowest := ((List.finRange 4).map (region.spreadDistance material p)).foldl min 1000
  (List.finRange 4).filter fun direction => region.spreadDistance material p direction = lowest

def randomOffset (random : MtRandom) : Int32 × MtRandom :=
  let (value, random) := random.nextInt 3
  (value.toInt32 - 1, random)

def trySpreadFire (p : Place) : Nat → MtRandom → PopulationNeighborhood × MtRandom
  | 0, random => (region, random)
  | left + 1, random =>
    let (dx, random) := randomOffset random
    let (dy, random) := randomOffset random
    let (dz, random) := randomOffset random
    let near : Place := ⟨p.x + dx, p.y + dy, p.z + dz⟩
    if !flammable (region.blockIdAt near) then trySpreadFire p left random
    else
      match [near.east, near.west, near.up, near.down, near.south, near.north].find? fun place =>
          region.blockIdAt place = airId with
      | some place => (region.setStateAt place (blockState fireId 0), random)
      | none => trySpreadFire p left random

-- The depth that a liquid which is no source comes to: none dries it up.
def settledDepth (p : Place) : Option Nat :=
  let (highest, maxCount) := [p.west, p.east, p.south, p.north].foldl (region.getHighest material)
    (-100, 0)
  let depth := highest + dropOff material
  let depth := if 8 ≤ depth ∨ highest < 0 then none else some depth.toNat
  let depth := match region.liquidDepth material p.up with
    | some above => some (if 8 ≤ above then above else above + 8)
    | none => depth
  if 2 ≤ maxCount ∧ material = .water ∧ (materialIsSolid (region.blockIdAt p.down) ∨
      region.liquidDepth material p.down = some 0) then some 0
  else depth

end PopulationNeighborhood

-- The neighborhood with the ticks that are pending in it.
structure TickingRegion where
  region : PopulationNeighborhood
  queue : GenerationTickQueue

namespace TickingRegion

variable (w : TickingRegion)

def addTick (p : Place) (id : UInt16) (delay : UInt64) : TickingRegion :=
  { w with queue := w.queue.add p id delay }

def setStatic (p : Place) (dynamicId : UInt16) : TickingRegion :=
  { w with region := w.region.setStateAt p (blockState (dynamicId + 1) (w.region.dataAt p)) }

def updateLiquidNeighbor (changed : Place) (w : TickingRegion) (p : Place) : TickingRegion :=
  let id := w.region.blockIdAt p
  let region := if id = flowingLava ∨ id = stillLava then w.region.solidifyLava p changed
    else w.region
  if (id = stillWater ∨ id = stillLava) ∧ region.blockIdAt p = id then
    let dynamic := id - 1
    { w with region := region.setStateAt p (blockState dynamic (region.dataAt p)) }.addTick p dynamic
      (tickDelay (if dynamic = flowingWater then .water else .lava))
  else { w with region := region }

def updateLiquidNeighbors (p : Place) : TickingRegion :=
  [p.west, p.east, p.down, p.up, p.north, p.south].foldl (updateLiquidNeighbor p) w

def setWithLiquidUpdates (p : Place) (id : UInt16) (data : UInt8) : TickingRegion :=
  { w with region := w.region.setStateAt p (blockState id data) }.updateLiquidNeighbors p

def trySpreadTo (p : Place) (liquid : UInt16) (material : LiquidMaterial) (depth : Nat) :
    TickingRegion :=
  if !w.region.canSpreadTo material p then w
  else
    let placed : TickingRegion :=
      { w with region := w.region.setStateAt p (blockState liquid (UInt8.ofNat depth)) }
    let updated := if w.queue.instaticking then placed.updateLiquidNeighbors p else placed
    updated.addTick p liquid (tickDelay material)

-- Lava that is about to thicken mostly waits longer for its next tick.
def thickeningDelay (material : LiquidMaterial) (depth : Nat) (newDepth : Option Nat)
    (random : MtRandom) : UInt64 × MtRandom :=
  match newDepth with
  | none => (tickDelay material, random)
  | some newDepth =>
    if material = .lava ∧ depth < 8 ∧ newDepth < 8 ∧ depth < newDepth then
      let (draw, random) := random.nextInt 4
      (if draw ≠ 0 then tickDelay material * 4 else tickDelay material, random)
    else (tickDelay material, random)

-- The first half of a tick: the liquid takes the depth it comes to.
def settle (p : Place) (liquid : UInt16) (material : LiquidMaterial) (depth : Nat)
    (random : MtRandom) : TickingRegion × Option Nat × MtRandom :=
  if 0 < depth then
    let newDepth := w.region.settledDepth material p
    let (delay, random) := thickeningDelay material depth newDepth random
    if newDepth ≠ some depth then
      match newDepth with
      | none => (w.setWithLiquidUpdates p airId 0, none, random)
      | some newDepth =>
        ((w.setWithLiquidUpdates p liquid (UInt8.ofNat newDepth)).addTick p liquid delay,
          some newDepth, random)
    else (w.setStatic p liquid, some depth, random)
  else (w.setStatic p liquid, some depth, random)

-- The second half: it falls, or else it spreads. A liquid that has just dried up still falls.
def spread (p : Place) (liquid : UInt16) (material : LiquidMaterial) (depth : Option Nat) :
    TickingRegion :=
  if w.region.canSpreadTo material p.down then
    if material = .lava ∧ w.region.liquidMaterialAt p.down = some .water then
      w.setWithLiquidUpdates p.down stoneId 0
    else
      w.trySpreadTo p.down liquid material (match depth with
        | none => 7
        | some depth => if 8 ≤ depth then depth else depth + 8)
  else
    match depth with
    | none => w
    | some depth =>
      if depth = 0 ∨ waterBlocking (w.region.blockIdAt p.down) then
        let neighbor := if 8 ≤ depth then 1 else depth + dropOff material
        if neighbor < 8 then
          (w.region.getSpread material p).foldl
            (fun w direction => w.trySpreadTo (p.toward direction) liquid material neighbor) w
        else w
      else w

def tickDynamicLiquid (p : Place) (liquid : UInt16) (random : MtRandom) : TickingRegion × MtRandom :=
  match flowingMaterial liquid, w.region.stateAt p with
  | some material, some current =>
    if current >>> 4 ≠ liquid then (w, random)
    else
      let (region, random) :=
        if liquid = flowingLava then w.region.trySpreadFire p 10 random else (w.region, random)
      let (settled, depth, random) := { w with region := region }.settle p liquid material
        (current &&& 0x0f).toNat random
      (settled.spread p liquid material depth, random)
  | _, _ => (w, random)

def tick (next : GenerationTick) : TickingRegion :=
  if w.region.blockIdAt next.place ≠ next.blockId ∨ next.blockId = airId then w
  else
    let (ticked, random) := w.tickDynamicLiquid next.place next.blockId w.queue.random
    { ticked with queue := { ticked.queue with random := random } }

-- The loop of `drain_generation_ticks`, with a bound on its turns.
def drain : Nat → TickingRegion → Option TickingRegion
  | fuel, w =>
    match w.queue.takeNext with
    | none => some w
    | some (next, queue) =>
      match fuel with
      | 0 => none
      | fuel + 1 => drain fuel ({ w with queue := queue }.tick next)

def drainGenerationTicks (fuel : Nat) : Option TickingRegion :=
  let started := { w with queue := { w.queue with currentTick := .ofNat (2 ^ 64 - 1), instaticking := true } }
  (drain fuel started).map fun drained =>
    { drained with queue := { drained.queue with instaticking := false } }

end TickingRegion

end Cobblestone.World
