import Cobblestone.Lib.Grid

namespace Cobblestone.Biome

open Lib

def wrapI32 (value : Int) : Int := value.bmod 4294967296

def InI32 (value : Int) : Prop := -2147483648 ≤ value ∧ value < 2147483648

theorem wrapI32_of_inI32 {value : Int} (h : InI32 value) : wrapI32 value = value := by
  obtain ⟨hlo, hhi⟩ := h
  exact Int.bmod_eq_of_le (by omega) (by omega)

def addCoord (base : Int) (offset : Nat) : Int := wrapI32 (base + offset)

def lcgA : Int64 := 6364136223846793005

def lcgB : Int64 := 1442695040888963407

def mix (state add : Int64) : Int64 := state * (state * lcgA + lcgB) + add

structure LayerRandom where
  startSalt : Int64
  deriving DecidableEq, Repr

structure ChunkRandom where
  seed : Int64
  startSalt : Int64
  deriving DecidableEq, Repr

namespace LayerRandom

def new (worldSeed seedMixup : Int64) : LayerRandom :=
  let layerSalt := forRange 3 seedMixup fun salt _ => mix salt seedMixup
  ⟨forRange 3 worldSeed fun salt _ => mix salt layerSalt⟩

def unseeded : LayerRandom := ⟨0⟩

def atCoord (random : LayerRandom) (x z : Int) : ChunkRandom :=
  let seed := mix random.startSalt (.ofInt x)
  let seed := mix seed (.ofInt z)
  let seed := mix seed (.ofInt x)
  let seed := mix seed (.ofInt z)
  ⟨seed, random.startSalt⟩

end LayerRandom

def ChunkRandom.next (random : ChunkRandom) (bound : Int32) : Int32 × ChunkRandom :=
  let value := (random.seed >>> 24) % bound.toInt64
  let value := if value < 0 then value + bound.toInt64 else value
  (value.toInt32, { random with seed := mix random.seed random.startSalt })

def ocean : Int32 := 0
def plains : Int32 := 1
def desert : Int32 := 2
def extremeHills : Int32 := 3
def forest : Int32 := 4
def taiga : Int32 := 5
def swampland : Int32 := 6
def river : Int32 := 7
def frozenOcean : Int32 := 10
def frozenRiver : Int32 := 11
def icePlains : Int32 := 12
def iceMountains : Int32 := 13
def mushroomIsland : Int32 := 14
def mushroomShore : Int32 := 15
def beach : Int32 := 16
def desertHills : Int32 := 17
def forestHills : Int32 := 18
def taigaHills : Int32 := 19
def extremeHillsEdge : Int32 := 20
def jungle : Int32 := 21
def jungleHills : Int32 := 22
def jungleEdge : Int32 := 23
def deepOcean : Int32 := 24
def stoneBeach : Int32 := 25
def coldBeach : Int32 := 26
def birchForest : Int32 := 27
def birchForestHills : Int32 := 28
def roofedForest : Int32 := 29
def coldTaiga : Int32 := 30
def coldTaigaHills : Int32 := 31
def megaTaiga : Int32 := 32
def megaTaigaHills : Int32 := 33
def extremeHillsPlus : Int32 := 34
def savanna : Int32 := 35
def savannaPlateau : Int32 := 36
def mesa : Int32 := 37
def mesaPlateauF : Int32 := 38
def mesaPlateau : Int32 := 39
def climateWarm : Int32 := 1
def climateLush : Int32 := 2
def climateCold : Int32 := 3
def climateFreezing : Int32 := 4

inductive EdgeMode where
  | coolWarm
  | heatIce
  | special
  deriving DecidableEq, Repr

inductive Layer where
  | island (random : LayerRandom)
  | zoom (random : LayerRandom) (parent : Layer) (fuzzy : Bool)
  | addIsland (random : LayerRandom) (parent : Layer)
  | removeTooMuchOcean (random : LayerRandom) (parent : Layer)
  | addSnow (random : LayerRandom) (parent : Layer)
  | addEdge (random : LayerRandom) (parent : Layer) (mode : EdgeMode)
  | addMushroomIsland (random : LayerRandom) (parent : Layer)
  | deepOcean (random : LayerRandom) (parent : Layer)
  | riverInit (random : LayerRandom) (parent : Layer)
  | biomeInit (random : LayerRandom) (parent : Layer)
  | biomeEdge (random : LayerRandom) (parent : Layer)
  | regionHills (random : LayerRandom) (parent riverNoise : Layer)
  | rareBiomeSpot (random : LayerRandom) (parent : Layer)
  | river (random : LayerRandom) (parent : Layer)
  | smooth (random : LayerRandom) (parent : Layer)
  | shore (random : LayerRandom) (parent : Layer)
  | riverMixer (random : LayerRandom) (biomes rivers : Layer)
  | voronoiZoom (random : LayerRandom) (parent : Layer)
  deriving DecidableEq, Repr

abbrev Area := Int → Int → Nat → Nat → List Int32

def isOceanic (id : Int32) : Bool := id ∈ [ocean, frozenOcean, deepOcean]

def isShallowOcean (id : Int32) : Bool := id ∈ [ocean, frozenOcean]

def neighborhood (parent : Area) (x z : Int) (width height : Nat)
    (project : Int32 → Int32 → Int32 → Int32 → Int32 → Int → Int → Int32) : List Int32 :=
  let stride := width + 2
  let input := parent (wrapI32 (x - 1)) (wrapI32 (z - 1)) stride (height + 2)
  fillGrid width height 0 fun dx dz =>
    let center := input.getD (dx + 1 + (dz + 1) * stride) 0
    let north := input.getD (dx + 1 + dz * stride) 0
    let east := input.getD (dx + 2 + (dz + 1) * stride) 0
    let west := input.getD (dx + (dz + 1) * stride) 0
    let south := input.getD (dx + 1 + (dz + 2) * stride) 0
    project center north east west south (addCoord x dx) (addCoord z dz)

section Climate

variable (random : LayerRandom)

def islandAt (x z : Int) : Int32 :=
  if ((random.atCoord x z).next 10).1 = 0 then climateWarm else ocean

def islandArea (x z : Int) (width height : Nat) : List Int32 :=
  let out := fillGrid width height 0 fun dx dz => islandAt random (addCoord x dx) (addCoord z dz)
  if x ≤ 0 ∧ z ≤ 0 ∧ x + width > 0 ∧ z + height > 0 then
    out.set ((-x).toNat + (-z).toNat * width) climateWarm
  else out

def drawCorner (state : ChunkRandom × Int32 × Int32) (corner : Int32) :
    ChunkRandom × Int32 × Int32 :=
  let (random, candidate, count) := state
  if corner = ocean then state
  else
    let (draw, random) := random.next count
    (random, if draw = 0 then corner else candidate, count + 1)

def addIslandAt (center nw ne sw se : Int32) (x z : Int) : Int32 :=
  let random := random.atCoord x z
  if center = ocean ∧ (nw ≠ ocean ∨ ne ≠ ocean ∨ sw ≠ ocean ∨ se ≠ ocean) then
    let (random, candidate, _) := [nw, ne, sw, se].foldl drawCorner (random, climateWarm, 1)
    if (random.next 3).1 = 0 ∨ candidate = climateFreezing then candidate else ocean
  else if center > ocean ∧ (nw = ocean ∨ ne = ocean ∨ sw = ocean ∨ se = ocean) then
    if (random.next 5).1 = 0 ∧ center ≠ climateFreezing then ocean else center
  else center

def cornerArea (parent : Area) (x z : Int) (width height : Nat)
    (project : Int32 → Int32 → Int32 → Int32 → Int32 → Int → Int → Int32) : List Int32 :=
  let stride := width + 2
  let input := parent (wrapI32 (x - 1)) (wrapI32 (z - 1)) stride (height + 2)
  fillGrid width height 0 fun dx dz =>
    let nw := input.getD (dx + dz * stride) 0
    let ne := input.getD (dx + 2 + dz * stride) 0
    let sw := input.getD (dx + (dz + 2) * stride) 0
    let se := input.getD (dx + 2 + (dz + 2) * stride) 0
    let center := input.getD (dx + 1 + (dz + 1) * stride) 0
    project center nw ne sw se (addCoord x dx) (addCoord z dz)

def addIslandArea (parent : Area) (x z : Int) (width height : Nat) : List Int32 :=
  cornerArea parent x z width height (addIslandAt random)

def removeTooMuchOceanAt (center n e w s : Int32) (x z : Int) : Int32 :=
  if center = ocean ∧ n = ocean ∧ e = ocean ∧ w = ocean ∧ s = ocean ∧
      ((random.atCoord x z).next 2).1 = 0 then climateWarm
  else center

def removeTooMuchOceanArea (parent : Area) (x z : Int) (width height : Nat) : List Int32 :=
  neighborhood parent x z width height (removeTooMuchOceanAt random)

def addSnowAt (center : Int32) (x z : Int) : Int32 :=
  if center = ocean then ocean
  else
    let draw := ((random.atCoord x z).next 6).1
    if draw = 0 then climateFreezing else if draw = 1 then climateCold else climateWarm

def addSnowArea (parent : Area) (x z : Int) (width height : Nat) : List Int32 :=
  let input := parent (wrapI32 (x - 1)) (wrapI32 (z - 1)) (width + 2) (height + 2)
  let stride := width + 2
  fillGrid width height 0 fun dx dz =>
    addSnowAt random (input.getD (dx + 1 + (dz + 1) * stride) 0) (addCoord x dx) (addCoord z dz)

def addSpecialAt (value : Int32) (x z : Int) : Int32 :=
  if value ≠ ocean then
    let (draw, random) := (random.atCoord x z).next 13
    if draw = 0 then value ||| ((((random.next 15).1 + 1) <<< 8) &&& 0x0f00) else value
  else value

def addEdgeAt (mode : EdgeMode) (center n e w s : Int32) : Int32 :=
  match mode with
  | .coolWarm =>
    if center = climateWarm then
      if [n, e, w, s].any (· ∈ [climateCold, climateFreezing]) then climateLush else center
    else center
  | .heatIce =>
    if center = climateFreezing then
      if [n, e, w, s].any (· ∈ [climateWarm, climateLush]) then climateCold else center
    else center
  | .special => center

-- the pointwise layers map over the parent's own rectangle, by row-major index
def pointwise (parent : Area) (x z : Int) (width height : Nat)
    (project : Int32 → Int → Int → Int32) : List Int32 :=
  (parent x z width height).mapIdx fun index value =>
    project value (addCoord x (index % width)) (addCoord z (index / width))

def addEdgeArea (parent : Area) (mode : EdgeMode) (x z : Int) (width height : Nat) : List Int32 :=
  if mode = .special then pointwise parent x z width height (addSpecialAt random)
  else neighborhood parent x z width height fun center n e w s _ _ => addEdgeAt mode center n e w s

def addMushroomIslandAt (center nw ne sw se : Int32) (x z : Int) : Int32 :=
  if center = ocean ∧ nw = ocean ∧ ne = ocean ∧ sw = ocean ∧ se = ocean ∧
      ((random.atCoord x z).next 100).1 = 0 then mushroomIsland
  else center

def addMushroomIslandArea (parent : Area) (x z : Int) (width height : Nat) : List Int32 :=
  cornerArea parent x z width height (addMushroomIslandAt random)

def deepOceanAt (center n e w s : Int32) : Int32 :=
  if center = ocean ∧ [n, e, w, s].all (· = ocean) then deepOcean else center

def deepOceanArea (parent : Area) (x z : Int) (width height : Nat) : List Int32 :=
  neighborhood parent x z width height fun center n e w s _ _ => deepOceanAt center n e w s

end Climate

section Zoom

def parentSpan (origin : Int) (length shift : Nat) : Int × Nat :=
  let start := origin >>> shift
  let last := (origin + (length - 1 : Nat)) >>> shift
  (start, (last - start + 2).toNat)

def projectCell (out : List Int32) (width height : Nat) (areaX areaZ cellX cellZ : Int) (edge : Nat)
    (value : Nat → Nat → Int32) : List Int32 :=
  let relativeX := cellX - areaX
  let relativeZ := cellZ - areaZ
  forRange edge out fun out localZ =>
    let outZ := relativeZ + localZ
    if outZ < 0 ∨ outZ ≥ height then out
    else
      forRange edge out fun out localX =>
        let outX := relativeX + localX
        if outX < 0 ∨ outX ≥ width then out
        else out.set (outX.toNat + outZ.toNat * width) (value localX localZ)

-- what one parent cell becomes, from its origin, its four corners and the offset inside it
abbrev CellValue := Int → Int → Int32 → Int32 → Int32 → Int32 → Nat → Nat → Int32

-- the loop that `zoom` and `voronoi` share: corners slide along a row of parent cells
def enlargeStep (input : List Int32) (parentX parentZ : Int) (parentWidth shift : Nat)
    (load : Int32 → Int32) (cellValue : CellValue) (x z : Int) (width height : Nat)
    (parentRow : Nat) (state : List Int32 × Int32 × Int32) (parentColumn : Nat) :
    List Int32 × Int32 × Int32 :=
  let (out, upperLeft, lowerLeft) := state
  let upperRight := load (input.getD (parentColumn + 1 + parentRow * parentWidth) 0)
  let lowerRight := load (input.getD (parentColumn + 1 + (parentRow + 1) * parentWidth) 0)
  let cellX := wrapI32 (addCoord parentX parentColumn * 2 ^ shift)
  let cellZ := wrapI32 (addCoord parentZ parentRow * 2 ^ shift)
  let value := cellValue cellX cellZ upperLeft upperRight lowerLeft lowerRight
  (projectCell out width height x z cellX cellZ (2 ^ shift) value, upperRight, lowerRight)

def enlargeRow (input : List Int32) (parentX parentZ : Int) (parentWidth shift : Nat)
    (load : Int32 → Int32) (cellValue : CellValue) (x z : Int) (width height : Nat)
    (out : List Int32) (parentRow : Nat) : List Int32 :=
  let upperLeft := load (input.getD (parentRow * parentWidth) 0)
  let lowerLeft := load (input.getD ((parentRow + 1) * parentWidth) 0)
  (forRange (parentWidth - 1) (out, upperLeft, lowerLeft)
    (enlargeStep input parentX parentZ parentWidth shift load cellValue x z width height parentRow)).1

def enlarge (parent : Area) (shift : Nat) (load : Int32 → Int32) (cellValue : CellValue)
    (x z : Int) (width height : Nat) : List Int32 :=
  let (parentX, parentWidth) := parentSpan x width shift
  let (parentZ, parentHeight) := parentSpan z height shift
  let input := parent parentX parentZ parentWidth parentHeight
  forRange (parentHeight - 1) (List.replicate (width * height) 0)
    (enlargeRow input parentX parentZ parentWidth shift load cellValue x z width height)

def choose2 (random : ChunkRandom) (first second : Int32) : Int32 × ChunkRandom :=
  let (draw, random) := random.next 2
  (if draw = 0 then first else second, random)

def choose4 (random : ChunkRandom) (a b c d : Int32) : Int32 :=
  let draw := (random.next 4).1
  if draw = 0 then a else if draw = 1 then b else if draw = 2 then c else d

def chooseModeOrRandom (random : ChunkRandom) (a b c d : Int32) : Int32 :=
  if b = c ∧ c = d then b
  else if a = b ∧ a = c then a
  else if a = b ∧ a = d then a
  else if a = c ∧ a = d then a
  else if a = b ∧ c ≠ d then a
  else if a = c ∧ b ≠ d then a
  else if a = d ∧ b ≠ c then a
  else if b = c ∧ a ≠ d then b
  else if b = d ∧ a ≠ c then b
  else if c = d ∧ a ≠ b then c
  else choose4 random a b c d

def zoomValue (random : LayerRandom) (fuzzy : Bool) : CellValue :=
  fun worldX worldZ upperLeft upperRight lowerLeft lowerRight localX localZ =>
    let random := random.atCoord worldX worldZ
    let (lower, random) := choose2 random upperLeft lowerLeft
    let (right, random) := choose2 random upperLeft upperRight
    let diagonal :=
      if fuzzy then choose4 random upperLeft upperRight lowerLeft lowerRight
      else chooseModeOrRandom random upperLeft upperRight lowerLeft lowerRight
    [upperLeft, right, lower, diagonal].getD (localX + localZ * 2) 0

def zoomArea (random : LayerRandom) (parent : Area) (fuzzy : Bool) (x z : Int)
    (width height : Nat) : List Int32 :=
  enlarge parent 1 id (zoomValue random fuzzy) x z width height

-- the floating-point side of the last zoom
structure Floats (F : Type) where
  ofLocal : Nat → F
  jitter : LayerRandom → Int → Int → Nat → Nat → F × F
  distanceSquared : F → F → F → F → F
  lt : F → F → Bool

def voronoiValue {F : Type} (floats : Floats F) (random : LayerRandom) : CellValue :=
  fun cellX cellZ upperLeft upperRight lowerLeft lowerRight localX localZ =>
    let (upperLeftX, upperLeftZ) := floats.jitter random cellX cellZ 0 0
    let (upperRightX, upperRightZ) := floats.jitter random (wrapI32 (cellX + 4)) cellZ 4 0
    let (lowerLeftX, lowerLeftZ) := floats.jitter random cellX (wrapI32 (cellZ + 4)) 0 4
    let (lowerRightX, lowerRightZ) :=
      floats.jitter random (wrapI32 (cellX + 4)) (wrapI32 (cellZ + 4)) 4 4
    let xHere := floats.ofLocal localX
    let zHere := floats.ofLocal localZ
    let d0 := floats.distanceSquared xHere zHere upperLeftX upperLeftZ
    let d1 := floats.distanceSquared xHere zHere upperRightX upperRightZ
    let d2 := floats.distanceSquared xHere zHere lowerLeftX lowerLeftZ
    let d3 := floats.distanceSquared xHere zHere lowerRightX lowerRightZ
    if floats.lt d0 d1 && floats.lt d0 d2 && floats.lt d0 d3 then upperLeft
    else if floats.lt d1 d0 && floats.lt d1 d2 && floats.lt d1 d3 then upperRight
    else if floats.lt d2 d0 && floats.lt d2 d1 && floats.lt d2 d3 then lowerLeft
    else lowerRight

def voronoiArea {F : Type} (floats : Floats F) (random : LayerRandom) (parent : Area) (x z : Int)
    (width height : Nat) : List Int32 :=
  enlarge parent 2 (· &&& 0xff) (voronoiValue floats random) (wrapI32 (x - 2)) (wrapI32 (z - 2))
    width height

end Zoom

end Cobblestone.Biome
