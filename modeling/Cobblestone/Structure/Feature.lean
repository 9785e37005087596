import Cobblestone.Structure.Plan

namespace Cobblestone.Structure

open Lib World

-- The biome at one point, at full and at quarter scale.
structure OverworldBiomeSource where
  biomeIds : Int32 → Int32 → UInt8
  rawBiomeIds : Int32 → Int32 → UInt8

-- The f32 side of the stronghold search, whose angles only ever meet these operations.
structure Floats (F : Type) where
  -- PI * 2.0 * next_float
  start : Nat → F
  -- the floors of the cosine and the sine times the distance
  center : F → Int32 → Int32 × Int32
  -- PI * 0.6 and PI * 0.25 further
  turn : F → F
  drift : F → F
  -- (value as f32 / 200.0).floor()
  grid : Int32 → Int32

structure Setting (F : Type) where
  seed : Int32
  biomes : OverworldBiomeSource
  floats : Floats F
  builders : Builders
  -- how many rounds of the stronghold search may be waited for
  rounds : Nat

section Mineshaft

def mesaIds : List UInt8 := [37, 38, 39, 165, 166, 167]

def mineshaftCandidate (random : MtRandom) (source : ChunkCoord) : Bool × MtRandom :=
  let (chance, random) := random.nextFloat
  -- 0.004 as an f32, in units of 2 ^ -32
  if chance ≥ 17179870 then (false, random)
  else
    let distance := max source.x.abs source.z.abs
    let (draw, random) := random.nextInt 80
    (decide (draw < distance.toUInt32), random)

structure MineshaftFeature where
  seed : UInt32
  biomes : OverworldBiomeSource

def MineshaftFeature.plan (feature : MineshaftFeature) (builders : Builders) (source : ChunkCoord) :
    Option MineshaftPlan :=
  let random := (structureSourceRandom feature.seed source).nextPositiveInt.2
  let checked := mineshaftCandidate random source
  if !checked.1 then none
  else
    let biome := feature.biomes.biomeIds (source.x * 16) (source.z * 16)
    some (.generate builders source checked.2 (mesaIds.contains biome))

end Mineshaft

section Village

def townSpacing : Int32 := 40

def minTownSeparation : Int32 := 12

structure CandidateCheck where
  candidate : Bool
  random : MtRandom
  seed : UInt32

def candidateIntoRandom (seed : UInt32) (chunk : ChunkCoord) (random : MtRandom) :
    CandidateCheck :=
  let adjustedX := if chunk.x < 0 then chunk.x - (townSpacing - 1) else chunk.x
  let adjustedZ := if chunk.z < 0 then chunk.z - (townSpacing - 1) else chunk.z
  let mixed : Int64 := adjustedX.toInt64 * 341873128712 + adjustedZ.toInt64 * 132897987541 +
    seed.toUInt64.toInt64 + 10387312
  let candidateSeed := mixed.toUInt64.toUInt32
  let random := random.reseed candidateSeed
  let bound := (townSpacing - minTownSeparation).toUInt32
  let (xDraw, random) := random.nextU32
  let centerX := adjustedX / townSpacing * townSpacing + (xDraw % bound).toInt32
  let (zDraw, random) := random.nextU32
  let centerZ := adjustedZ / townSpacing * townSpacing + (zDraw % bound).toInt32
  ⟨chunk.x == centerX && chunk.z == centerZ, random, candidateSeed⟩

def candidateCheck (seed : UInt32) (chunk : ChunkCoord) : CandidateCheck :=
  candidateIntoRandom seed chunk (.new 0)

structure VillageFeature where
  seed : UInt32
  biomes : OverworldBiomeSource

namespace VillageFeature

def biomeAllowed (feature : VillageFeature) (chunk : ChunkCoord) : Bool :=
  let blockX := chunk.x * 16 + 8
  let blockZ := chunk.z * 16 + 8
  [1, 2, 35, 12].contains (feature.biomes.rawBiomeIds (blockX >>> 2) (blockZ >>> 2))

def isFeatureChunkWithRandom (feature : VillageFeature) (chunk : ChunkCoord) (random : MtRandom) :
    Bool × MtRandom :=
  let check := candidateIntoRandom feature.seed chunk random
  (check.candidate && feature.biomeAllowed chunk, check.random)

def styleOf (biome : UInt8) : VillageStyle :=
  if [2, 17].contains biome then .desert
  else if [35, 36, 163, 164].contains biome then .savanna
  else if [5, 12, 30, 31, 158].contains biome then .taiga
  else .plains

def plan (feature : VillageFeature) (builders : Builders) (source : ChunkCoord) :
    Option VillagePlan :=
  let check := candidateCheck feature.seed source
  if !check.candidate || !feature.biomeAllowed source then none
  else
    let biome := feature.biomes.biomeIds (source.x * 16 + 2) (source.z * 16 + 2)
    some (.generate builders source check.random check.seed (styleOf biome))

end VillageFeature

end Village

section Scattered

def scatteredSpacing : Int32 := 32

def scatteredSeparation : Int32 := 8

def scatteredCandidate (random : MtRandom) (source : ChunkCoord) : Bool × MtRandom :=
  let x := if source.x < 0 then source.x - (scatteredSpacing - 1) else source.x
  let z := if source.z < 0 then source.z - (scatteredSpacing - 1) else source.z
  let bound := (scatteredSpacing - scatteredSeparation).toUInt32
  let (xDraw, random) := random.nextInt bound
  let centerX := x / scatteredSpacing * scatteredSpacing + xDraw.toInt32
  let (zDraw, random) := random.nextInt bound
  let centerZ := z / scatteredSpacing * scatteredSpacing + zDraw.toInt32
  (source.x == centerX && source.z == centerZ, random)

structure ScatteredFeature where
  biomes : OverworldBiomeSource

namespace ScatteredFeature

def biomeKind (feature : ScatteredFeature) (source : ChunkCoord) : Option ScatteredKind :=
  let blockX := source.x * 16 + 8
  let blockZ := source.z * 16 + 8
  let biome := feature.biomes.rawBiomeIds (blockX >>> 2) (blockZ >>> 2)
  if [2, 17].contains biome then some .desertPyramid
  else if [21, 22].contains biome then some .junglePyramid
  else if [6, 134].contains biome then some .swamplandHut
  else none

def kindAtSource (feature : ScatteredFeature) (random : MtRandom) (source : ChunkCoord) :
    Option ScatteredKind :=
  if !(scatteredCandidate random source).1 then none else feature.biomeKind source

def plan (feature : ScatteredFeature) (random : MtRandom) (source : ChunkCoord) :
    Option ScatteredPlan :=
  match feature.kindAtSource random source with
  | none => none
  | some kind =>
    let west := source.x * 16
    let north := source.z * 16
    let bounds : StructureBounds :=
      match kind with
      | .desertPyramid => ⟨west, 64, north, west + 20, 78, north + 20⟩
      | .junglePyramid => ⟨west, 64, north, west + 11, 73, north + 14⟩
      | .swamplandHut => ⟨west, 64, north, west + 6, 70, north + 8⟩
    some ⟨.new source bounds, some (.new kind)⟩

end ScatteredFeature

end Scattered

section Stronghold

variable {F : Type}

def totalVillageStrongholds : Nat := 3

def gridSize : Int32 := 200

def gridInset : Int32 := 150

def minStrongholdDistance : Int32 := 10

structure StrongholdFeature where
  seed : UInt32
  villages : VillageFeature
  selectedChunks : Option (List ChunkCoord)

def beyondMinimumDistance (source : ChunkCoord) : Bool :=
  decide (source.x * source.x + source.z * source.z ≥ minStrongholdDistance * minStrongholdDistance)

def centerOfGrid (floats : Floats F) (source : ChunkCoord) : ChunkCoord :=
  ⟨floats.grid source.x * gridSize + gridSize / 2, floats.grid source.z * gridSize + gridSize / 2⟩

def generateAdditionalStronghold (floats : Floats F) (seed : UInt32) (center : ChunkCoord) :
    Option ChunkCoord :=
  if !beyondMinimumDistance center then none
  else
    let gridX := floats.grid center.x
    let gridZ := floats.grid center.z
    let mixed : Int64 := center.x.toInt64 * 784295783249 + center.z.toInt64 * 827828252345 +
      seed.toUInt64.toInt64 + 97858791
    let random := MtRandom.new mixed.toUInt64.toUInt32
    let minX := gridX * gridSize + (gridSize - gridInset)
    let maxX := gridX * gridSize + gridInset
    let minZ := gridZ * gridSize + (gridSize - gridInset)
    let maxZ := gridZ * gridSize + gridInset
    let (xDraw, random) := random.nextInt (maxX - minX).toUInt32
    let (zDraw, random) := random.nextInt (maxZ - minZ).toUInt32
    let (chance, _) := random.nextFloat
    -- 0.25 in units of 2 ^ -32
    if chance < 1073741824 then some ⟨minX + xDraw.toInt32, minZ + zDraw.toInt32⟩ else none

def hasAdditionalStronghold (floats : Floats F) (seed : UInt32) (source : ChunkCoord) : Bool :=
  if !beyondMinimumDistance source then false
  else
    match generateAdditionalStronghold floats seed (centerOfGrid floats source) with
    | none => false
    | some location => location == source

namespace StrongholdFeature

def new (setting : Setting F) : StrongholdFeature :=
  ⟨setting.seed.toUInt32, ⟨setting.seed.toUInt32, setting.biomes⟩, none⟩

-- The chunks around a center, in the order in which they are tried.
def ring (center : Int32 × Int32) : List ChunkCoord :=
  (rangeExclusive (center.1 - 8) (center.1 + 8)).flatMap fun x =>
    (rangeExclusive (center.2 - 8) (center.2 + 8)).map fun z => ⟨x, z⟩

def scan (villages : VillageFeature) : List ChunkCoord → MtRandom → Option ChunkCoord × MtRandom
  | [], random => (none, random)
  | source :: sources, random =>
    let (found, random) := villages.isFeatureChunkWithRandom source random
    if found then (some source, random) else scan villages sources random

def search (floats : Floats F) (villages : VillageFeature) :
    Nat → List ChunkCoord → F → Int32 → MtRandom → Option (List ChunkCoord × MtRandom)
  | rounds, positions, angle, distance, random =>
    if totalVillageStrongholds ≤ positions.length then some (positions, random)
    else
      match rounds with
      | 0 => none
      | rounds + 1 =>
        match scan villages (ring (floats.center angle distance)) random with
        | (some source, random) =>
          search floats villages rounds (positions ++ [source]) (floats.turn angle) (distance + 8)
            random
        | (none, random) =>
          search floats villages rounds positions (floats.drift angle) (distance + 4) random

def generatePositions (setting : Setting F) (feature : StrongholdFeature) (random : MtRandom) :
    Option (List ChunkCoord × MtRandom) :=
  let random := random.reseed feature.seed
  let (draw, random) := random.nextFloat
  let (distance, random) := random.nextInt 16
  search setting.floats feature.villages setting.rounds [] (setting.floats.start draw)
    (40 + distance.toInt32) random

def isFeatureChunk (setting : Setting F) (feature : StrongholdFeature) (random : MtRandom)
    (source : ChunkCoord) : Option (Bool × StrongholdFeature × MtRandom) :=
  let generated :=
    match feature.selectedChunks with
    | some positions => some (positions, random)
    | none => feature.generatePositions setting random
  match generated with
  | none => none
  | some (positions, random) =>
    some (positions.contains source || hasAdditionalStronghold setting.floats feature.seed source,
      { feature with selectedChunks := some positions }, random)

end StrongholdFeature

end Stronghold

end Cobblestone.Structure
