import Cobblestone.Biome.Layer

namespace Cobblestone.Biome

open Lib

section Biomes

variable (random : LayerRandom)

def riverInitAt (value : Int32) (x z : Int) : Int32 :=
  if value > ocean then ((random.atCoord x z).next 299999).1 + 2 else ocean

def riverInitArea (parent : Area) (x z : Int) (width height : Nat) : List Int32 :=
  pointwise parent x z width height (riverInitAt random)

def hot : List Int32 := [desert, desert, desert, savanna, savanna, plains]

def lush : List Int32 :=
  [forest, roofedForest, extremeHills, plains, plains, plains, birchForest, swampland]

def cold : List Int32 := [forest, extremeHills, taiga, plains]

def freezing : List Int32 := [icePlains, icePlains, icePlains, coldTaiga]

def drawFrom (random : ChunkRandom) (table : List Int32) : Int32 :=
  table.getD (random.next (.ofNat table.length)).1.toNatClampNeg 0

def biomeInitAt (value : Int32) (x z : Int) : Int32 :=
  let special := (value >>> 8) &&& 0x0f
  let climate := value &&& ~~~0x0f00
  if isOceanic climate ∨ climate = mushroomIsland then climate
  else
    let random := random.atCoord x z
    if climate = climateWarm then
      if special = 0 then drawFrom random hot
      else if (random.next 3).1 = 0 then mesaPlateau else mesaPlateauF
    else if climate = climateLush then
      if special = 0 then drawFrom random lush else jungle
    else if climate = climateCold then
      if special = 0 then drawFrom random cold else megaTaiga
    else if climate = climateFreezing then drawFrom random freezing
    else climate

def biomeInitArea (parent : Area) (x z : Int) (width height : Nat) : List Int32 :=
  pointwise parent x z width height (biomeInitAt random)

inductive BiomeCategory where
  | beach
  | desert
  | mountains
  | forest
  | snowy
  | jungle
  | mesa
  | mushroom
  | ocean
  | plains
  | river
  | savanna
  | swamp
  | taiga
  | stoneBeach
  | other
  deriving DecidableEq, Repr

def biomeCategory (id : Int32) : BiomeCategory :=
  if id ∈ [beach, coldBeach] then .beach
  else if id ∈ [desert, desertHills, 130] then .desert
  else if id ∈ [extremeHills, extremeHillsEdge, extremeHillsPlus, 131, 162] then .mountains
  else if id ∈ [forest, forestHills, birchForest, birchForestHills, roofedForest, 132, 155, 156, 157]
    then .forest
  else if id ∈ [icePlains, iceMountains, 140] then .snowy
  else if id ∈ [jungle, jungleHills, jungleEdge, 149, 151] then .jungle
  else if id ∈ [mesa, mesaPlateauF, mesaPlateau, 165, 166, 167] then .mesa
  else if id ∈ [mushroomIsland, mushroomShore] then .mushroom
  else if id ∈ [ocean, frozenOcean, deepOcean] then .ocean
  else if id ∈ [plains, 129] then .plains
  else if id ∈ [river, frozenRiver] then .river
  else if id ∈ [savanna, savannaPlateau, 163, 164] then .savanna
  else if id ∈ [swampland, 134] then .swamp
  else if id ∈ [taiga, taigaHills, coldTaiga, coldTaigaHills, megaTaiga, megaTaigaHills, 133, 158,
    160, 161] then .taiga
  else if id = stoneBeach then .stoneBeach
  else .other

def biomeSimilar (first second : Int32) : Bool :=
  if first = second then true
  else if first ∈ [mesaPlateauF, mesaPlateau] then second ∈ [mesaPlateauF, mesaPlateau]
  else biomeCategory first ≠ .other ∧ biomeCategory first = biomeCategory second

def jungleCompatible (id : Int32) : Bool :=
  biomeCategory id ∈ [BiomeCategory.jungle, .forest, .taiga] || isOceanic id

def isSnowy (id : Int32) : Bool :=
  id ∈ [frozenOcean, frozenRiver, icePlains, iceMountains, coldBeach, coldTaiga, coldTaigaHills, 140,
    158]

def isMesa (id : Int32) : Bool := id ∈ [mesa, mesaPlateauF, mesaPlateau, 165, 166, 167]

def mutatedBiome (id : Int32) : Option Int32 :=
  [(1, 129), (2, 130), (3, 131), (4, 132), (5, 133), (6, 134), (12, 140), (21, 149), (23, 151),
    (27, 155), (28, 156), (29, 157), (30, 158), (32, 160), (33, 161), (34, 162), (35, 163),
    (36, 164), (37, 165), (38, 166), (39, 167)].lookup id

def replaceEdge (center : Int32) (adjacent : List Int32) (base edge : Int32) : Option Int32 :=
  if center ≠ base then none
  else some (if adjacent.all (biomeSimilar · base) then center else edge)

def biomeEdgeAt (center n e w s : Int32) : Int32 :=
  let adjacent := [n, e, w, s]
  match replaceEdge center adjacent mesaPlateauF mesa with
  | some edge => edge
  | none =>
    match replaceEdge center adjacent mesaPlateau mesa with
    | some edge => edge
    | none =>
      match replaceEdge center adjacent megaTaiga taiga with
      | some edge => edge
      | none =>
        if center = desert then
          if adjacent.contains icePlains then extremeHillsPlus else center
        else if center = swampland ∧ adjacent.any (· ∈ [desert, coldTaiga, icePlains]) then plains
        else if center = swampland ∧ adjacent.contains jungle then jungleEdge
        else center

def biomeEdgeArea (parent : Area) (x z : Int) (width height : Nat) : List Int32 :=
  neighborhood parent x z width height fun center n e w s _ _ => biomeEdgeAt center n e w s

def hillOf (random : ChunkRandom) (biome : Int32) : Int32 :=
  if biome = desert then desertHills
  else if biome = forest then forestHills
  else if biome = birchForest then birchForestHills
  else if biome = roofedForest then plains
  else if biome = taiga then taigaHills
  else if biome = megaTaiga then megaTaigaHills
  else if biome = coldTaiga then coldTaigaHills
  else if biome = plains then if (random.next 3).1 = 0 then forestHills else forest
  else if biome = icePlains then iceMountains
  else if biome = jungle then jungleHills
  else if biome = ocean then deepOcean
  else if biome = extremeHills then extremeHillsPlus
  else if biome = savanna then savannaPlateau
  else if biome ∈ [mesaPlateauF, mesaPlateau] then mesa
  else if biome = deepOcean then
    let (draw, random) := random.next 3
    if draw = 0 then if (random.next 2).1 = 0 then plains else forest else biome
  else biome

def regionHillsAt (biome noiseValue north east west south : Int32) (x z : Int) : Int32 :=
  let remainder := (noiseValue - 2) % 29
  let mutationFlag := remainder = 0
  if remainder = 1 ∧ noiseValue ≥ 2 ∧ ¬isShallowOcean biome then (mutatedBiome biome).getD biome
  else
    let (firstChoice, random) := (random.atCoord x z).next 3
    if ¬mutationFlag ∧ firstChoice ≠ 0 then biome
    else
      let hill := hillOf random biome
      let hill := if mutationFlag ∧ hill ≠ biome then (mutatedBiome hill).getD biome else hill
      if hill = biome then biome
      else if [north, east, west, south].countP (biomeSimilar · biome) ≥ 3 then hill
      else biome

def regionHillsArea (parent riverNoise : Area) (x z : Int) (width height : Nat) : List Int32 :=
  let stride := width + 2
  let px := wrapI32 (x - 1)
  let pz := wrapI32 (z - 1)
  let biomes := parent px pz stride (height + 2)
  let noise := riverNoise px pz stride (height + 2)
  fillGrid width height 0 fun dx dz =>
    let index := dx + 1 + (dz + 1) * stride
    let north := biomes.getD (dx + 1 + dz * stride) 0
    let east := biomes.getD (dx + 2 + (dz + 1) * stride) 0
    let west := biomes.getD (dx + (dz + 1) * stride) 0
    let south := biomes.getD (dx + 1 + (dz + 2) * stride) 0
    regionHillsAt random (biomes.getD index 0) (noise.getD index 0) north east west south
      (addCoord x dx) (addCoord z dz)

def rareBiomeSpotAt (biome : Int32) (x z : Int) : Int32 :=
  if biome = plains ∧ ((random.atCoord x z).next 57).1 = 0 then 129 else biome

def rareBiomeSpotArea (parent : Area) (x z : Int) (width height : Nat) : List Int32 :=
  pointwise parent x z width height (rareBiomeSpotAt random)

def reduceRiverId (id : Int32) : Int32 := if id ≥ 2 then 2 + (id &&& 1) else id

def riverAt (center n e w s : Int32) : Int32 :=
  let center := reduceRiverId center
  if center = reduceRiverId n ∧ center = reduceRiverId e ∧ center = reduceRiverId w ∧
      center = reduceRiverId s then -1
  else river

def riverArea (parent : Area) (x z : Int) (width height : Nat) : List Int32 :=
  neighborhood parent x z width height fun center n e w s _ _ => riverAt center n e w s

def smoothAt (center n e w s : Int32) (x z : Int) : Int32 :=
  if center ≠ w ∨ center ≠ n then
    if w = e ∧ n = s then
      if ((random.atCoord x z).next 2).1 = 0 then w else n
    else
      let center := if w = e then w else center
      if n = s then n else center
  else center

def smoothArea (parent : Area) (x z : Int) (width height : Nat) : List Int32 :=
  neighborhood parent x z width height (smoothAt random)

def shoreAt (center n e w s : Int32) : Int32 :=
  let adjacent := [n, e, w, s]
  if center = mushroomIsland then
    if adjacent.contains ocean then mushroomShore else center
  else if biomeCategory center = .jungle then
    if ¬adjacent.all jungleCompatible then jungleEdge
    else if adjacent.any isOceanic then beach else center
  else if center ∈ [extremeHills, extremeHillsPlus] then
    if adjacent.any isOceanic then stoneBeach else center
  else if isSnowy center then
    if adjacent.any isOceanic then coldBeach else center
  else if center ∈ [mesa, mesaPlateauF] then
    if adjacent.any isOceanic then center
    else if adjacent.all isMesa then center else desert
  else if center ∉ [ocean, deepOcean, river, swampland] ∧ adjacent.any isOceanic then beach
  else center

def shoreArea (parent : Area) (x z : Int) (width height : Nat) : List Int32 :=
  neighborhood parent x z width height fun center n e w s _ _ => shoreAt center n e w s

def riverMixerAt (biome riverValue : Int32) : Int32 :=
  if riverValue ≠ river ∨ isOceanic biome then biome
  else if biome = icePlains then frozenRiver
  else if biome ∈ [mushroomIsland, mushroomShore] then mushroomShore
  else river

def riverMixerArea (biomes rivers : Area) (x z : Int) (width height : Nat) : List Int32 :=
  List.zipWith riverMixerAt (biomes x z width height) (rivers x z width height)

end Biomes

def Layer.area {F : Type} (floats : Floats F) : Layer → Area
  | .island random => islandArea random
  | .zoom random parent fuzzy => zoomArea random (parent.area floats) fuzzy
  | .addIsland random parent => addIslandArea random (parent.area floats)
  | .removeTooMuchOcean random parent => removeTooMuchOceanArea random (parent.area floats)
  | .addSnow random parent => addSnowArea random (parent.area floats)
  | .addEdge random parent mode => addEdgeArea random (parent.area floats) mode
  | .addMushroomIsland random parent => addMushroomIslandArea random (parent.area floats)
  | .deepOcean _ parent => deepOceanArea (parent.area floats)
  | .riverInit random parent => riverInitArea random (parent.area floats)
  | .biomeInit random parent => biomeInitArea random (parent.area floats)
  | .biomeEdge _ parent => biomeEdgeArea (parent.area floats)
  | .regionHills random parent riverNoise =>
    regionHillsArea random (parent.area floats) (riverNoise.area floats)
  | .rareBiomeSpot random parent => rareBiomeSpotArea random (parent.area floats)
  | .river _ parent => riverArea (parent.area floats)
  | .smooth random parent => smoothArea random (parent.area floats)
  | .shore _ parent => shoreArea (parent.area floats)
  | .riverMixer _ biomes rivers => riverMixerArea (biomes.area floats) (rivers.area floats)
  | .voronoiZoom random parent => voronoiArea floats random (parent.area floats)

section Graph

def zoomUnseeded (parent : Layer) : Layer := .zoom .unseeded parent false

def zoom (worldSeed : Int64) (parent : Layer) (seedMixup : Int64) : Layer :=
  .zoom (.new worldSeed seedMixup) parent false

def zoomTimes (worldSeed : Int64) (parent : Layer) (seedMixup : Int64) (count : Nat) : Layer :=
  forRange count parent fun parent _ => zoom worldSeed parent (seedMixup + 1)

def worldSeedOf (seed : Int32) : Int64 := seed.toUInt32.toUInt64.toInt64

def climateLayer (worldSeed : Int64) : Layer :=
  let layer := Layer.island (.new worldSeed 1)
  let layer := Layer.zoom (.new worldSeed 2000) layer true
  let layer := Layer.addIsland (.new worldSeed 1) layer
  let layer := zoom worldSeed layer 2001
  let layer := Layer.addIsland (.new worldSeed 2) layer
  let layer := Layer.addIsland (.new worldSeed 50) layer
  let layer := Layer.addIsland (.new worldSeed 70) layer
  let layer := Layer.removeTooMuchOcean (.new worldSeed 2) layer
  let layer := Layer.addSnow (.new worldSeed 2) layer
  let layer := Layer.addIsland (.new worldSeed 3) layer
  let layer := Layer.addEdge (.new worldSeed 2) layer .coolWarm
  let layer := Layer.addEdge (.new worldSeed 2) layer .heatIce
  let layer := Layer.addEdge (.new worldSeed 3) layer .special
  let layer := zoom worldSeed layer 2002
  let layer := zoom worldSeed layer 2003
  let layer := Layer.addIsland (.new worldSeed 4) layer
  let layer := Layer.addMushroomIsland (.new worldSeed 5) layer
  Layer.deepOcean (.new worldSeed 4) layer

def riverInitLayer (worldSeed : Int64) : Layer :=
  .riverInit (.new worldSeed 100) (climateLayer worldSeed)

def hillsNoiseLayer (worldSeed : Int64) : Layer :=
  zoomUnseeded (zoomUnseeded (riverInitLayer worldSeed))

def riverLayer (worldSeed : Int64) : Layer :=
  let layer := zoomTimes worldSeed (riverInitLayer worldSeed) 1000 2
  let layer := zoomTimes worldSeed layer 1000 4
  let layer := Layer.river (.new worldSeed 1) layer
  .smooth (.new worldSeed 1000) layer

def biomesLayer (worldSeed : Int64) : Layer :=
  let layer := Layer.biomeInit (.new worldSeed 200) (climateLayer worldSeed)
  let layer := zoomTimes worldSeed layer 1000 2
  let layer := Layer.biomeEdge (.new worldSeed 1000) layer
  let layer := Layer.regionHills (.new worldSeed 1000) layer (hillsNoiseLayer worldSeed)
  let layer := Layer.rareBiomeSpot (.new worldSeed 1001) layer
  let layer := zoom worldSeed layer 1000
  let layer := Layer.addIsland (.new worldSeed 3) layer
  let layer := zoom worldSeed layer 1001
  let layer := Layer.shore (.new worldSeed 1000) layer
  let layer := zoom worldSeed layer 1002
  let layer := zoom worldSeed layer 1003
  .smooth (.new worldSeed 1000) layer

def rawLayer (seed : Int32) : Layer :=
  .riverMixer (.new (worldSeedOf seed) 100) (biomesLayer (worldSeedOf seed))
    (riverLayer (worldSeedOf seed))

def finalLayer (seed : Int32) : Layer := .voronoiZoom (.new (worldSeedOf seed) 10) (rawLayer seed)

end Graph

end Cobblestone.Biome
