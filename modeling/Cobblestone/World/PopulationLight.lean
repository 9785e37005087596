import Cobblestone.Lib.Flood
import Cobblestone.Lib.Nibble
import Cobblestone.World.BlockPos
import Cobblestone.World.Infinite

namespace Cobblestone.World

open Lib

abbrev neighborhoodEdge : Nat := 48
abbrev neighborhoodArea : Nat := neighborhoodEdge * neighborhoodEdge
abbrev neighborhoodVolume : Nat := neighborhoodArea * worldHeight
abbrev centerOffset : Int32 := 16

structure PopulationNeighborhood where
  center : ChunkCoord
  chunks : Fin 9 → PopulationChunkPlanes
  states_length : ∀ i, (chunks i).states.length = chunkBlockCount
  biomeIds_length : ∀ i, (chunks i).biomeIds.length = chunkColumnCount
  generationHeightMap_length : ∀ i, (chunks i).generationHeightMap.length = chunkColumnCount

namespace PopulationNeighborhood

def blockIndex (x : Fin 16) (y : Fin worldHeight) (z : Fin 16) : Nat :=
  (y.val <<< 8) ||| (z.val <<< 4) ||| x.val

theorem blockIndex_eq (x : Fin 16) (y : Fin worldHeight) (z : Fin 16) :
    blockIndex x y z = 256 * y + 16 * z + x := by
  have hx := x.isLt
  have hz := z.isLt
  rw [blockIndex, Nat.or_assoc, ← Nat.shiftLeft_add_eq_or_of_lt (show x.val < 2 ^ 4 by omega),
    ← Nat.shiftLeft_add_eq_or_of_lt (show z.val <<< 4 + x.val < 2 ^ 8 by
      rw [Nat.shiftLeft_eq]; omega), Nat.shiftLeft_eq, Nat.shiftLeft_eq]
  omega

theorem blockIndex_lt (x : Fin 16) (y : Fin worldHeight) (z : Fin 16) :
    blockIndex x y z < chunkBlockCount := by
  have hx := x.isLt
  have hy := y.isLt
  have hz := z.isLt
  rw [blockIndex_eq]
  simp only [chunkBlockCount, chunkColumnCount, chunkEdge, worldHeight] at *
  omega

def neighborhoodIndex (offsetX offsetZ : Int) : Option (Fin 9) :=
  if h : (-1 ≤ offsetX ∧ offsetX ≤ 1) ∧ -1 ≤ offsetZ ∧ offsetZ ≤ 1 then
    some ⟨(offsetZ + 1).toNat * 3 + (offsetX + 1).toNat, by omega⟩
  else none

variable (region : PopulationNeighborhood)

def originX : Int32 := region.center.x * 16

def originZ : Int32 := region.center.z * 16

def resolve (worldX worldZ : Int32) : Option (Fin 9 × Fin 16 × Fin 16) :=
  let relativeX := (worldX - region.originX).toInt
  let relativeZ := (worldZ - region.originZ).toInt
  if (-16 ≤ relativeX ∧ relativeX < 48) ∧ -16 ≤ relativeZ ∧ relativeZ < 48 then
    (neighborhoodIndex (relativeX / 16) (relativeZ / 16)).map fun index =>
      (index, ⟨(relativeX % 16).toNat, by omega⟩, ⟨(relativeZ % 16).toNat, by omega⟩)
  else none

def state (worldX : Int32) (y : Int) (worldZ : Int32) : Option UInt16 :=
  if hy : 0 ≤ y ∧ y < worldHeight then
    (region.resolve worldX worldZ).map fun (index, localX, localZ) =>
      (region.chunks index).states.get
        ⟨blockIndex localX ⟨y.toNat, by omega⟩ localZ, by
          rw [region.states_length index]
          exact blockIndex_lt _ _ _⟩
  else none

def blockId (worldX : Int32) (y : Int) (worldZ : Int32) : UInt16 :=
  ((region.state worldX y worldZ).map fun value => value >>> (4 : UInt16)).getD 0

-- The block at a place counted from the corner of the neighborhood.
def localBlockId (x y z : Nat) : UInt16 :=
  region.blockId (region.originX + (Int32.ofNat x - centerOffset)) y
    (region.originZ + (Int32.ofNat z - centerOffset))

end PopulationNeighborhood

def targetLightBlock (id : UInt16) : UInt8 :=
  match id.toNat with
  | 8 | 9 | 79 => 3
  | 18 | 30 | 161 => 1
  | 0 | 6 | 20 | 31 | 32 | 37 | 38 | 39 | 40 | 44 | 50 | 51 | 52 | 53 | 54 | 55 | 59 | 60
  | 64 | 65 | 66 | 67 | 69 | 70 | 71 | 78 | 81 | 83 | 85 | 93 | 101 | 102 | 106 | 109
  | 111 | 119 | 120 | 127 | 128 | 131 | 132 | 134 | 140 | 141 | 142 | 143 | 163 | 175
  | 193 | 196 | 198 | 244 => 0
  | _ => 15

def targetLightEmission (id : UInt16) : UInt8 :=
  match id.toNat with
  | 10 | 11 | 51 | 119 => 15
  | 50 => 14
  | 52 => 3
  | 39 => 1
  | _ => 0

theorem targetLightEmission_le (id : UInt16) : (targetLightEmission id).toNat ≤ 15 := by
  unfold targetLightEmission
  split <;> decide

-- One cell of the 48 by 48 columns around the center chunk, counted from their corner.
structure NeighborhoodCell where
  x : Fin neighborhoodEdge
  y : Fin worldHeight
  z : Fin neighborhoodEdge
deriving DecidableEq, Fintype

def neighborhoodColumn (x z : Fin neighborhoodEdge) : Fin neighborhoodArea :=
  ⟨x + z * neighborhoodEdge, by
    have hx := x.isLt
    have hz := z.isLt
    simp only [neighborhoodArea, neighborhoodEdge] at *
    omega⟩

def neighborhoodBlockIndex (p : NeighborhoodCell) : Fin neighborhoodVolume :=
  ⟨p.y * neighborhoodArea + p.z * neighborhoodEdge + p.x, by
    have hx := p.x.isLt
    have hy := p.y.isLt
    have hz := p.z.isLt
    simp only [neighborhoodVolume, neighborhoodArea, neighborhoodEdge, worldHeight] at *
    omega⟩

theorem neighborhoodBlockIndex_injective : Function.Injective neighborhoodBlockIndex := by
  rintro ⟨x, y, z⟩ ⟨x', y', z'⟩ h
  have hx := x.isLt
  have hx' := x'.isLt
  have hz := z.isLt
  have hz' := z'.isLt
  simp only [neighborhoodBlockIndex, Fin.mk.injEq, neighborhoodArea, neighborhoodEdge] at *
  rw [NeighborhoodCell.mk.injEq, Fin.ext_iff, Fin.ext_iff, Fin.ext_iff]
  omega

-- The lowest height from which on up to the top no block dims the light.
def openHeight (dims : Nat → Bool) : Nat → Nat
  | 0 => 0
  | y + 1 => if dims y then y + 1 else openHeight dims y

def dimsLight (id : UInt16) : Bool := targetLightBlock id != 0

def neighborhoodHeight (region : PopulationNeighborhood) (x z : Nat) : Nat :=
  openHeight (fun y => dimsLight (region.localBlockId x y z)) worldHeight

def neighborhoodHeightMap (region : PopulationNeighborhood) : Vector UInt8 neighborhoodArea :=
  Vector.ofFn fun column =>
    UInt8.ofNat (neighborhoodHeight region (column % neighborhoodEdge) (column / neighborhoodEdge))

abbrev NeighborhoodLight := Vector UInt8 neighborhoodVolume

structure LightSpread where
  light : NeighborhoodLight
  queue : List NeighborhoodCell

namespace LightSpread

def dark : LightSpread := ⟨Vector.replicate neighborhoodVolume 0, []⟩

def levelAt (s : LightSpread) (p : NeighborhoodCell) : UInt8 := s.light[neighborhoodBlockIndex p]

def push (s : LightSpread) (p : NeighborhoodCell) (value : UInt8) : LightSpread :=
  ⟨s.light.set (neighborhoodBlockIndex p) value, s.queue ++ [p]⟩

end LightSpread

def lightNeighbors (p : NeighborhoodCell) : List NeighborhoodCell :=
  (if 0 < p.x.val then [{ p with x := ⟨p.x - 1, by omega⟩ }] else []) ++
  (if h : p.x.val + 1 < neighborhoodEdge then [{ p with x := ⟨p.x + 1, h⟩ }] else []) ++
  (if 0 < p.y.val then [{ p with y := ⟨p.y - 1, by omega⟩ }] else []) ++
  (if h : p.y.val + 1 < worldHeight then [{ p with y := ⟨p.y + 1, h⟩ }] else []) ++
  (if 0 < p.z.val then [{ p with z := ⟨p.z - 1, by omega⟩ }] else []) ++
  (if h : p.z.val + 1 < neighborhoodEdge then [{ p with z := ⟨p.z + 1, h⟩ }] else [])

def saturatingSub (a b : UInt8) : UInt8 := if b ≤ a then a - b else 0

theorem toNat_saturatingSub (a b : UInt8) : (saturatingSub a b).toNat = a.toNat - b.toNat := by
  rw [saturatingSub]
  split_ifs with h
  · exact UInt8.toNat_sub_of_le _ _ h
  · rw [UInt8.le_iff_toNat_le] at h
    rw [UInt8.toNat_zero]
    omega

namespace NeighborhoodCell

variable (region : PopulationNeighborhood) (p : NeighborhoodCell)

def attenuation : UInt8 := max (targetLightBlock (region.localBlockId p.x p.y p.z)) 1

def emission : UInt8 := targetLightEmission (region.localBlockId p.x p.y p.z)

end NeighborhoodCell

def relaxNeighbor (region : PopulationNeighborhood) (source : UInt8) (s : LightSpread)
    (p : NeighborhoodCell) : LightSpread :=
  let candidate := saturatingSub source (p.attenuation region)
  if candidate = 0 then s
  else if s.levelAt p < candidate then s.push p candidate
  else s

namespace LightSpread

variable {s : LightSpread} {p : NeighborhoodCell} {value source : UInt8}

def level (s : LightSpread) (p : NeighborhoodCell) : Nat := (s.levelAt p).toNat

theorem level_dark : dark.level = fun _ => 0 := by
  funext p
  simp [level, levelAt, dark]

theorem level_push : (s.push p value).level = Function.update s.level p value.toNat := by
  funext q
  by_cases hq : q = p
  · subst hq
    rw [Function.update_self]
    simp [level, levelAt, push]
  · have hne : (neighborhoodBlockIndex p).val ≠ (neighborhoodBlockIndex q).val := fun h =>
      hq (neighborhoodBlockIndex_injective (Fin.ext h)).symm
    rw [Function.update_of_ne hq]
    simp [level, levelAt, push, Vector.getElem_set_ne _ _ hne]

end LightSpread


namespace NeighborhoodCell

def loss (region : PopulationNeighborhood) (p : NeighborhoodCell) : Nat := (p.attenuation region).toNat

theorem loss_eq (region : PopulationNeighborhood) (p : NeighborhoodCell) :
    p.loss region = max (targetLightBlock (region.localBlockId p.x p.y p.z)).toNat 1 := by
  rw [loss, attenuation, UInt8.max_def, apply_ite UInt8.toNat]
  simp only [UInt8.le_iff_toNat_le]
  rfl

end NeighborhoodCell

section

variable (region : PopulationNeighborhood) (source : UInt8) (s : LightSpread)

theorem relaxNeighbor_cases (p : NeighborhoodCell) :
    (relaxNeighbor region source s p = s ∧ source.toNat ≤ s.level p + p.loss region) ∨
      ∃ value : UInt8, relaxNeighbor region source s p = s.push p value ∧
        value.toNat + p.loss region = source.toNat ∧ s.level p < value.toNat := by
  have hcandidate := toNat_saturatingSub source (p.attenuation region)
  simp only [relaxNeighbor, NeighborhoodCell.loss]
  split_ifs with hzero hmore
  · rw [hzero, UInt8.toNat_zero] at hcandidate
    exact .inl ⟨rfl, by omega⟩
  · rw [UInt8.lt_iff_toNat_lt] at hmore
    exact .inr ⟨_, rfl, by omega, hmore⟩
  · rw [UInt8.lt_iff_toNat_lt] at hmore
    refine .inl ⟨rfl, ?_⟩
    rw [LightSpread.level]
    omega

theorem relaxNeighbors_shade (cells : List NeighborhoodCell) :
    cells.foldl (relaxNeighbor region source) s = s ∨
      Radiance.shade 255 (cells.foldl (relaxNeighbor region source) s).level <
        Radiance.shade 255 s.level := by
  induction cells generalizing s with
  | nil => exact .inl rfl
  | cons p cells ih =>
    rw [List.foldl_cons]
    rcases relaxNeighbor_cases region source s p with ⟨hsame, _⟩ | ⟨value, hpush, _, hlt⟩
    · rw [hsame]
      exact ih s
    · have hbyte := value.toNat_lt
      have hfall : Radiance.shade 255 (s.push p value).level < Radiance.shade 255 s.level := by
        rw [LightSpread.level_push]
        exact Radiance.shade_raised_lt hlt (by omega)
      rw [hpush]
      rcases ih (s.push p value) with hstop | hdeep
      · rw [hstop]
        exact .inr hfall
      · exact .inr (hdeep.trans hfall)

end

-- Every round either leaves the light alone and shortens the queue, or makes some cell brighter.
def propagate (region : PopulationNeighborhood) (s : LightSpread) : NeighborhoodLight :=
  match _hqueue : s.queue with
  | [] => s.light
  | p :: rest =>
    let source := s.levelAt p
    if source ≤ 1 then propagate region ⟨s.light, rest⟩
    else propagate region ((lightNeighbors p).foldl (relaxNeighbor region source) ⟨s.light, rest⟩)
termination_by (Radiance.shade 255 s.level, s.queue.length)
decreasing_by
  · refine Prod.Lex.right _ ?_
    rw [_hqueue, List.length_cons]
    exact Nat.lt_succ_self _
  · rcases relaxNeighbors_shade region (s.levelAt p) ⟨s.light, rest⟩ (lightNeighbors p) with
      hsame | hfall
    · rw [hsame]
      refine Prod.Lex.right _ ?_
      rw [_hqueue, List.length_cons]
      exact Nat.lt_succ_self _
    · exact Prod.Lex.left _ _ hfall

def skySeeds (heights : Vector UInt8 neighborhoodArea) : List NeighborhoodCell :=
  (List.finRange neighborhoodEdge).flatMap fun z =>
    (List.finRange neighborhoodEdge).flatMap fun x =>
      ((List.finRange worldHeight).filter fun y : Fin worldHeight =>
        heights[neighborhoodColumn x z].toNat ≤ y.val).map fun y => ⟨x, y, z⟩

def propagateSkyLight (region : PopulationNeighborhood) (heights : Vector UInt8 neighborhoodArea) :
    NeighborhoodLight :=
  propagate region ((skySeeds heights).foldl (fun s p => s.push p 15) .dark)

def neighborhoodCells : List NeighborhoodCell :=
  (List.finRange worldHeight).flatMap fun y =>
    (List.finRange neighborhoodEdge).flatMap fun z =>
      (List.finRange neighborhoodEdge).map fun x => ⟨x, y, z⟩

def propagateBlockLight (region : PopulationNeighborhood) : NeighborhoodLight :=
  propagate region (neighborhoodCells.foldl
    (fun s p => if p.emission region = 0 then s else s.push p (p.emission region)) .dark)

def toNeighborhood (coordinate : Fin 16) : Fin neighborhoodEdge :=
  ⟨coordinate + 16, by
    have := coordinate.isLt
    simp only [neighborhoodEdge]
    omega⟩

def centerHeightMap (heights : Vector UInt8 neighborhoodArea) : Bytes :=
  List.ofFn fun column : Fin chunkColumnCount =>
    heights[neighborhoodColumn (toNeighborhood ⟨column % 16, Nat.mod_lt _ (by decide)⟩)
      (toNeighborhood ⟨column / 16, Nat.div_lt_of_lt_mul column.isLt⟩)]

-- One cell of the center chunk, counted from the chunk's own corner.
structure CenterCell where
  x : Fin 16
  y : Fin worldHeight
  z : Fin 16

namespace CenterCell

def index (c : CenterCell) : Nat := PopulationNeighborhood.blockIndex c.x c.y c.z

def inNeighborhood (c : CenterCell) : NeighborhoodCell := ⟨toNeighborhood c.x, c.y, toNeighborhood c.z⟩

def all : List CenterCell :=
  (List.finRange worldHeight).flatMap fun y =>
    (List.finRange 16).flatMap fun z => (List.finRange 16).map fun x => ⟨x, y, z⟩

end CenterCell

def packCenterLight (light : NeighborhoodLight) : Bytes :=
  CenterCell.all.foldl (fun packed c =>
    writeNibble packed c.index light[neighborhoodBlockIndex c.inNeighborhood])
    (List.replicate chunkNibbleBytes 0)

def finalizeCenterLighting (region : PopulationNeighborhood) : FinalizedChunk :=
  let heights := neighborhoodHeightMap region
  { heightMap := centerHeightMap heights
    skyLight := packCenterLight (propagateSkyLight region heights)
    blockLight := packCenterLight (propagateBlockLight region) }

end Cobblestone.World

namespace Cobblestone.World

open Lib

variable {region : PopulationNeighborhood} {s : LightSpread} {p q b : NeighborhoodCell}
  {todo cells : List NeighborhoodCell} {source value : UInt8}

theorem NeighborhoodCell.ext_val (hx : p.x.val = q.x.val) (hy : p.y.val = q.y.val)
    (hz : p.z.val = q.z.val) : p = q := by
  cases p
  cases q
  rw [NeighborhoodCell.mk.injEq]
  exact ⟨Fin.ext hx, Fin.ext hy, Fin.ext hz⟩

theorem mem_lightNeighbors : q ∈ lightNeighbors p ↔
    (q.y = p.y ∧ q.z = p.z ∧ (q.x.val + 1 = p.x.val ∨ q.x.val = p.x.val + 1)) ∨
    (q.x = p.x ∧ q.z = p.z ∧ (q.y.val + 1 = p.y.val ∨ q.y.val = p.y.val + 1)) ∨
    (q.x = p.x ∧ q.y = p.y ∧ (q.z.val + 1 = p.z.val ∨ q.z.val = p.z.val + 1)) := by
  obtain ⟨x, y, z⟩ := p
  obtain ⟨x', y', z'⟩ := q
  have hx := x'.isLt
  have hy := y'.isLt
  have hz := z'.isLt
  have hone {c : Prop} [Decidable c] {a : NeighborhoodCell} {r : c → NeighborhoodCell} :
      (a ∈ if h : c then [r h] else []) ↔ ∃ h : c, a = r h := by
    split_ifs with h
    · simp [h]
    · simp [h]
  have hone' {c : Prop} [Decidable c] {a r : NeighborhoodCell} :
      (a ∈ if c then [r] else []) ↔ c ∧ a = r := by
    split_ifs with h
    · simp [h]
    · simp [h]
  simp only [lightNeighbors, List.mem_append, hone, hone', NeighborhoodCell.mk.injEq, Fin.ext_iff,
    exists_prop]
  simp only [neighborhoodEdge, worldHeight] at hx hy hz ⊢
  clear hone hone'
  constructor
  · rintro (((((h | h) | h) | h) | h) | h)
    · exact .inl (by omega)
    · exact .inl (by omega)
    · exact .inr (.inl (by omega))
    · exact .inr (.inl (by omega))
    · exact .inr (.inr (by omega))
    · exact .inr (.inr (by omega))
  · rintro (⟨_, _, h | h⟩ | ⟨_, _, h | h⟩ | ⟨_, _, h | h⟩)
    · exact .inl (.inl (.inl (.inl (.inl (by omega)))))
    · exact .inl (.inl (.inl (.inl (.inr (by omega)))))
    · exact .inl (.inl (.inl (.inr (by omega))))
    · exact .inl (.inl (.inr (by omega)))
    · exact .inl (.inr (by omega))
    · exact .inr (by omega)

theorem lightNeighbors_symm : q ∈ lightNeighbors p ↔ p ∈ lightNeighbors q := by
  rw [mem_lightNeighbors, mem_lightNeighbors]
  simp only [Fin.ext_iff]
  omega

theorem ne_of_mem_lightNeighbors (h : q ∈ lightNeighbors p) : q ≠ p := by
  rintro rfl
  rw [mem_lightNeighbors] at h
  omega

namespace PopulationNeighborhood

def field (region : PopulationNeighborhood) (source : NeighborhoodCell → Nat) :
    Radiance NeighborhoodCell where
  source := source
  loss p := max (targetLightBlock (region.localBlockId p.x p.y p.z)).toNat 1
  near := lightNeighbors
  loss_pos _ := lt_of_lt_of_le Nat.one_pos (le_max_right _ _)

def blockField (region : PopulationNeighborhood) : Radiance NeighborhoodCell :=
  region.field fun p => (targetLightEmission (region.localBlockId p.x p.y p.z)).toNat

def skyField (region : PopulationNeighborhood) : Radiance NeighborhoodCell :=
  region.field fun p => if neighborhoodHeight region p.x p.z ≤ p.y then 15 else 0

end PopulationNeighborhood

section Propagate

variable {shine : NeighborhoodCell → Nat}

theorem relaxNeighbor_flooding (hnear : b ∈ lightNeighbors p)
    (h : (region.field shine).Flooding s.level s.queue b (p :: todo)) :
    (relaxNeighbor region (s.levelAt b) s p).levelAt b = s.levelAt b ∧
      (region.field shine).Flooding (relaxNeighbor region (s.levelAt b) s p).level
        (relaxNeighbor region (s.levelAt b) s p).queue b todo := by
  have hne := ne_of_mem_lightNeighbors hnear
  have hloss : (region.field shine).loss p = p.loss region := (p.loss_eq region).symm
  rcases relaxNeighbor_cases region (s.levelAt b) s p with ⟨hsame, hle⟩ | ⟨value, hpush, hnext, hlt⟩
  · rw [hsame]
    exact ⟨rfl, h.keep (hloss ▸ hle)⟩
  · rw [hpush]
    refine ⟨?_, ?_⟩
    · have hlevel : (s.push p value).level b = s.level b := by
        rw [LightSpread.level_push, Function.update_of_ne hne]
      exact UInt8.toNat_inj.mp hlevel
    · rw [LightSpread.level_push]
      exact h.raise hnear hne (hloss ▸ hnext) hlt

theorem relaxNeighbors_flooding (hsource : s.levelAt b = source)
    (hnear : ∀ p ∈ todo, b ∈ lightNeighbors p)
    (h : (region.field shine).Flooding s.level s.queue b todo) :
    (region.field shine).Flooding (todo.foldl (relaxNeighbor region source) s).level
      (todo.foldl (relaxNeighbor region source) s).queue b [] := by
  induction todo generalizing s with
  | nil => exact h
  | cons p todo ih =>
    obtain ⟨hsame, hnext⟩ := relaxNeighbor_flooding (hnear p List.mem_cons_self) h
    rw [hsource] at hsame hnext
    rw [List.foldl_cons]
    exact ih hsame (fun p hp => hnear p (List.mem_cons_of_mem _ hp)) hnext

def levels (light : NeighborhoodLight) (p : NeighborhoodCell) : UInt8 :=
  light[neighborhoodBlockIndex p]

-- A field of light levels that satisfies the equation in every cell.
def Lights {α : Type*} (f : Radiance α) (light : α → UInt8) : Prop :=
  ∀ a, f.Settled (fun b => (light b).toNat) a

theorem propagate_lights (h : ∃ b, (region.field shine).Flooding s.level s.queue b []) :
    Lights (region.field shine) (levels (propagate region s)) := by
  fun_induction propagate region s with
  | case1 s hqueue =>
    obtain ⟨b, h⟩ := h
    rw [hqueue] at h
    exact h.settled
  | case2 s p rest hqueue source hdim ih =>
    obtain ⟨b, h⟩ := h
    rw [hqueue] at h
    have hpop : (region.field shine).Flooding s.level rest p (lightNeighbors p) :=
      h.pop fun a ha => lightNeighbors_symm.mp ha
    exact ih ⟨p, hpop.skip (UInt8.le_iff_toNat_le.mp hdim)⟩
  | case3 s p rest hqueue source hdim ih =>
    obtain ⟨b, h⟩ := h
    rw [hqueue] at h
    have hpop : (region.field shine).Flooding s.level rest p (lightNeighbors p) :=
      h.pop fun a ha => lightNeighbors_symm.mp ha
    exact ih ⟨p, relaxNeighbors_flooding (s := ⟨s.light, rest⟩) rfl
      (fun a ha => lightNeighbors_symm.mp ha) hpop⟩

end Propagate

section Seeds

theorem pushes_level {value : NeighborhoodCell → UInt8} (cells : List NeighborhoodCell)
    (s : LightSpread) (p : NeighborhoodCell) :
    (cells.foldl (fun s p => s.push p (value p)) s).level p =
      if p ∈ cells then (value p).toNat else s.level p := by
  induction cells generalizing s with
  | nil => rfl
  | cons q cells ih =>
    rw [List.foldl_cons, ih, LightSpread.level_push]
    by_cases hp : p ∈ cells
    · rw [if_pos hp, if_pos (List.mem_cons_of_mem _ hp)]
    · by_cases hq : p = q
      · subst hq
        rw [if_neg hp, if_pos List.mem_cons_self, Function.update_self]
      · rw [if_neg hp, if_neg (by simp [hp, hq]), Function.update_of_ne hq]

theorem pushes_queue {value : NeighborhoodCell → UInt8} (cells : List NeighborhoodCell)
    (s : LightSpread) :
    (cells.foldl (fun s p => s.push p (value p)) s).queue = s.queue ++ cells := by
  induction cells generalizing s with
  | nil => exact (List.append_nil _).symm
  | cons q cells ih =>
    rw [List.foldl_cons, ih]
    exact List.append_assoc _ [q] cells

-- Seeding every cell that shines, and no other, starts from the sources.
theorem seeded_lights {shine : NeighborhoodCell → Nat} {value : NeighborhoodCell → UInt8}
    (hmem : ∀ p, p ∈ cells ↔ shine p ≠ 0) (hvalue : ∀ p ∈ cells, (value p).toNat = shine p) :
    Lights (region.field shine)
      (levels (propagate region (cells.foldl (fun s p => s.push p (value p)) .dark))) := by
  refine propagate_lights ⟨⟨0, 0, 0⟩, ?_⟩
  have hlevel : (cells.foldl (fun s p => s.push p (value p)) LightSpread.dark).level =
      (region.field shine).source := by
    funext p
    rw [pushes_level, LightSpread.level_dark]
    split_ifs with hp
    · exact hvalue p hp
    · by_contra hne
      exact hp ((hmem p).mpr (Ne.symm hne))
  rw [hlevel, pushes_queue]
  exact Radiance.Flooding.lit (fun p hp => (hmem p).mpr hp) _

theorem mem_neighborhoodCells (p : NeighborhoodCell) : p ∈ neighborhoodCells := by
  simp only [neighborhoodCells, List.mem_flatMap, List.mem_map, List.mem_finRange, true_and]
  exact ⟨p.y, p.z, p.x, rfl⟩

theorem propagateBlockLight_lights (region : PopulationNeighborhood) :
    Lights region.blockField (levels (propagateBlockLight region)) := by
  have hfold : propagateBlockLight region = propagate region
      ((neighborhoodCells.filter fun p => p.emission region ≠ 0).foldl
        (fun s p => s.push p (p.emission region)) .dark) := by
    rw [propagateBlockLight, List.foldl_filter]
    simp only [ne_eq, decide_not, Bool.not_eq_true', decide_eq_false_iff_not, ite_not]
  rw [hfold]
  refine seeded_lights (fun p => ?_) fun p _ => rfl
  have hzero : p.emission region = 0 ↔ (p.emission region).toNat = 0 := by
    rw [← UInt8.toNat_inj, UInt8.toNat_zero]
  rw [List.mem_filter, decide_eq_true_eq, ne_eq, hzero]
  exact ⟨fun h => h.2, fun h => ⟨mem_neighborhoodCells p, h⟩⟩

theorem openHeight_le (dims : Nat → Bool) (n : Nat) : openHeight dims n ≤ n := by
  induction n with
  | zero => exact le_rfl
  | succ n ih =>
    rw [openHeight]
    split_ifs
    · exact le_rfl
    · exact ih.trans n.le_succ

theorem openHeight_congr {dims dims' : Nat → Bool} {n : Nat} (h : ∀ y < n, dims y = dims' y) :
    openHeight dims n = openHeight dims' n := by
  induction n with
  | zero => rfl
  | succ n ih => rw [openHeight, openHeight, h n n.lt_succ_self, ih fun y hy => h y (by omega)]

-- What the height says: from there on up nothing dims the light, and just below something does.
theorem openHeight_le_iff {dims : Nat → Bool} {n y : Nat} (hy : y ≤ n) :
    openHeight dims n ≤ y ↔ ∀ z, y ≤ z → z < n → dims z = false := by
  induction n with
  | zero => simp [openHeight]
  | succ n ih =>
    rw [openHeight]
    split_ifs with hdims
    · constructor
      · intro h z hz hn
        omega
      · intro h
        by_contra hlow
        have := h n (by omega) n.lt_succ_self
        rw [hdims] at this
        cases this
    · rcases Nat.lt_or_ge n y with hlt | hle
      · have := openHeight_le dims n
        exact ⟨fun _ z hz hn => by omega, fun _ => by omega⟩
      · rw [ih hle]
        refine ⟨fun h z hz hn => ?_, fun h z hz hn => h z hz (by omega)⟩
        rcases Nat.lt_succ_iff_lt_or_eq.mp hn with hzn | rfl
        · exact h z hz hzn
        · exact Bool.eq_false_iff.mpr hdims

theorem neighborhoodHeightMap_column (region : PopulationNeighborhood) (x z : Fin neighborhoodEdge) :
    (neighborhoodHeightMap region)[neighborhoodColumn x z].toNat = neighborhoodHeight region x z := by
  have hx := x.isLt
  have hmod : (x.val + z.val * neighborhoodEdge) % neighborhoodEdge = x := by
    rw [Nat.add_mul_mod_self_right, Nat.mod_eq_of_lt hx]
  have hdiv : (x.val + z.val * neighborhoodEdge) / neighborhoodEdge = z := by
    rw [Nat.add_mul_div_right _ _ (by decide), Nat.div_eq_of_lt hx, Nat.zero_add]
  have hheight : neighborhoodHeight region x z ≤ 128 := openHeight_le _ _
  simp only [neighborhoodHeightMap, neighborhoodColumn, Fin.getElem_fin, Vector.getElem_ofFn, hmod, hdiv]
  exact UInt8.toNat_ofNat_of_lt' (Nat.lt_of_le_of_lt hheight (by decide))

theorem mem_skySeeds {heights : Vector UInt8 neighborhoodArea} :
    p ∈ skySeeds heights ↔ heights[neighborhoodColumn p.x p.z].toNat ≤ p.y := by
  simp only [skySeeds, List.mem_flatMap, List.mem_map, List.mem_filter, List.mem_finRange, true_and,
    decide_eq_true_eq]
  constructor
  · rintro ⟨z, x, y, hy, rfl⟩
    exact hy
  · intro h
    exact ⟨p.z, p.x, p.y, h, rfl⟩

theorem propagateSkyLight_lights (region : PopulationNeighborhood) :
    Lights region.skyField (levels (propagateSkyLight region (neighborhoodHeightMap region))) := by
  refine seeded_lights (fun p => ?_) fun p hp => ?_
  · rw [mem_skySeeds, neighborhoodHeightMap_column]
    split_ifs with h
    · exact ⟨fun _ => by decide, fun _ => h⟩
    · exact ⟨fun h' => absurd h' h, fun h' => absurd rfl h'⟩
  · rw [mem_skySeeds, neighborhoodHeightMap_column] at hp
    rw [if_pos hp]
    rfl

end Seeds

section Uniqueness

variable {α : Type*} {f : Radiance α} {light light' : α → UInt8}

theorem Lights.unique (h : Lights f light) (h' : Lights f light') : light = light' := by
  have hbyte (light : α → UInt8) (a : α) : (light a).toNat ≤ 255 := Nat.le_of_lt_succ (light a).toNat_lt
  funext a
  exact UInt8.toNat_inj.mp (congrFun (Radiance.settled_unique h h' (hbyte light) (hbyte light')) a)

theorem Lights.le (h : Lights f light) (hsource : ∀ a, f.source a ≤ 15) (a : α) :
    (light a).toNat ≤ 15 :=
  Radiance.settled_le h hsource (fun a => Nat.le_of_lt_succ (light a).toNat_lt) a

theorem exists_unique_lights (hsource : ∀ a, f.source a ≤ 15) : ∃! light, Lights f light := by
  obtain ⟨level, hlevel, hbound⟩ := Radiance.exists_settled hsource
  have hbyte (a : α) : (UInt8.ofNat (level a)).toNat = level a :=
    UInt8.toNat_ofNat_of_lt' (Nat.lt_of_le_of_lt (hbound a) (by decide))
  refine ⟨fun a => UInt8.ofNat (level a), ?_, fun light' h => ?_⟩
  · intro a
    simp only [hbyte]
    exact hlevel a
  · refine h.unique fun a => ?_
    simp only [hbyte]
    exact hlevel a

end Uniqueness

-- A world of any extent, with the blocks of its columns.
structure LightWorld where
  columns : Set (Int × Int)
  blockId : BlockPos → UInt16

namespace LightWorld

variable (world : LightWorld)

def Inside (p : BlockPos) : Prop := (p.x, p.z) ∈ world.columns ∧ p.isInsideWorld = true

def sixNeighbors (p : BlockPos) : List BlockPos :=
  [⟨p.x - 1, p.y, p.z⟩, ⟨p.x + 1, p.y, p.z⟩, ⟨p.x, p.y - 1, p.z⟩, ⟨p.x, p.y + 1, p.z⟩,
    ⟨p.x, p.y, p.z - 1⟩, ⟨p.x, p.y, p.z + 1⟩]

def height (x z : Int) : Nat := openHeight (fun y => dimsLight (world.blockId ⟨x, y, z⟩)) worldHeight

open Classical in
noncomputable def field (source : BlockPos → Nat) : Radiance BlockPos where
  source p := if world.Inside p then source p else 0
  loss p := max (targetLightBlock (world.blockId p)).toNat 1
  near p := if world.Inside p then (sixNeighbors p).filter (world.Inside ·) else []
  loss_pos _ := lt_of_lt_of_le Nat.one_pos (le_max_right _ _)

noncomputable def blockField : Radiance BlockPos :=
  world.field fun p => (targetLightEmission (world.blockId p)).toNat

noncomputable def skyField : Radiance BlockPos :=
  world.field fun p => if world.height p.x p.z ≤ p.y then 15 else 0

variable {world} {source : BlockPos → Nat}

theorem field_source_le (hsource : ∀ p, source p ≤ 15) (p : BlockPos) :
    (world.field source).source p ≤ 15 := by
  simp only [field]
  split_ifs
  · exact hsource p
  · exact Nat.zero_le 15

theorem blockField_source_le (p : BlockPos) : world.blockField.source p ≤ 15 :=
  field_source_le (fun _ => targetLightEmission_le _) p

theorem skyField_source_le (p : BlockPos) : world.skyField.source p ≤ 15 := by
  refine field_source_le (fun p => ?_) p
  split_ifs
  · exact le_rfl
  · exact Nat.zero_le 15

end LightWorld

def NeighborhoodCell.pos (region : PopulationNeighborhood) (p : NeighborhoodCell) : BlockPos :=
  ⟨16 * region.center.x.toInt - 16 + p.x, p.y, 16 * region.center.z.toInt - 16 + p.z⟩

-- The world has the 48 by 48 columns of the neighborhood, with its blocks in them.
def LightWorld.Extends (world : LightWorld) (region : PopulationNeighborhood) : Prop :=
  ∀ p : NeighborhoodCell, world.Inside (p.pos region) ∧
    world.blockId (p.pos region) = region.localBlockId p.x p.y p.z

-- Steps from a cell to beyond the neighborhood.
def NeighborhoodCell.depth (p : NeighborhoodCell) : Nat :=
  min (min (p.x + 1) (48 - p.x)) (min (p.z + 1) (48 - p.z))

section Locality

variable {world : LightWorld}

theorem mem_field_near {source : BlockPos → Nat} {a c : BlockPos} (ha : world.Inside a) :
    c ∈ (world.field source).near a ↔ c ∈ LightWorld.sixNeighbors a ∧ world.Inside c := by
  simp only [LightWorld.field, if_pos ha, List.mem_filter, decide_eq_true_eq]

theorem pos_beside_iff :
    q.pos region ∈ LightWorld.sixNeighbors (p.pos region) ↔ q ∈ lightNeighbors p := by
  rw [mem_lightNeighbors]
  simp only [LightWorld.sixNeighbors, NeighborhoodCell.pos, List.mem_cons, List.not_mem_nil,
    or_false, BlockPos.mk.injEq, Fin.ext_iff]
  constructor
  · rintro (h | h | h | h | h | h)
    · exact .inl (by omega)
    · exact .inl (by omega)
    · exact .inr (.inl (by omega))
    · exact .inr (.inl (by omega))
    · exact .inr (.inr (by omega))
    · exact .inr (.inr (by omega))
  · rintro (⟨_, _, h | h⟩ | ⟨_, _, h | h⟩ | ⟨_, _, h | h⟩)
    · exact .inl (by omega)
    · exact .inr (.inl (by omega))
    · exact .inr (.inr (.inl (by omega)))
    · exact .inr (.inr (.inr (.inl (by omega))))
    · exact .inr (.inr (.inr (.inr (.inl (by omega)))))
    · exact .inr (.inr (.inr (.inr (.inr (by omega)))))

theorem le_depth_iff {n : Nat} : n ≤ p.depth ↔
    n ≤ p.x + 1 ∧ n ≤ 48 - p.x ∧ n ≤ p.z + 1 ∧ n ≤ 48 - p.z := by
  simp only [NeighborhoodCell.depth, le_min_iff, and_assoc]

theorem depth_le_of_near (h : q ∈ lightNeighbors p) : p.depth ≤ q.depth + 1 := by
  have hnear := mem_lightNeighbors.mp h
  obtain ⟨hx, hx', hz, hz'⟩ := le_depth_iff.mp (le_refl p.depth)
  simp only [Fin.ext_iff] at hnear
  rw [← Nat.sub_le_iff_le_add, le_depth_iff]
  rcases hnear with ⟨_, _, _⟩ | ⟨_, _, _⟩ | ⟨_, _, _⟩
  · omega
  · omega
  · omega

-- A step from a cell that is not at the edge stays inside.
theorem exists_cell_of_beside {c : BlockPos} (hdeep : 1 < p.depth) (hin : c.isInsideWorld = true)
    (h : c ∈ LightWorld.sixNeighbors (p.pos region)) : ∃ q : NeighborhoodCell, q.pos region = c := by
  have hx : 0 < p.x.val ∧ p.x.val < 47 ∧ 0 < p.z.val ∧ p.z.val < 47 := by
    have := le_depth_iff.mp hdeep
    omega
  obtain ⟨x, y, z⟩ := c
  have hy : 0 ≤ y ∧ y < 128 := BlockPos.isInsideWorld_iff.mp hin
  have hwindow : 16 * region.center.x.toInt - 16 ≤ x ∧ x < 16 * region.center.x.toInt + 32 ∧
      16 * region.center.z.toInt - 16 ≤ z ∧ z < 16 * region.center.z.toInt + 32 := by
    simp only [LightWorld.sixNeighbors, NeighborhoodCell.pos, List.mem_cons, List.not_mem_nil,
      or_false, BlockPos.mk.injEq] at h
    rcases h with h | h | h | h | h | h <;> omega
  refine ⟨⟨⟨(x - (16 * region.center.x.toInt - 16)).toNat, ?_⟩, ⟨y.toNat, ?_⟩,
    ⟨(z - (16 * region.center.z.toInt - 16)).toNat, ?_⟩⟩, ?_⟩
  · simp only [neighborhoodEdge]
    omega
  · simp only [worldHeight]
    omega
  · simp only [neighborhoodEdge]
    omega
  · simp only [NeighborhoodCell.pos, BlockPos.mk.injEq]
    omega

theorem inset_field {shine : NeighborhoodCell → Nat} {source : BlockPos → Nat}
    (h : world.Extends region) (hsource : ∀ p : NeighborhoodCell, shine p = source (p.pos region)) :
    Radiance.Inset (region.field shine) (world.field source) (NeighborhoodCell.pos region)
      NeighborhoodCell.depth where
  source p := by
    simp only [LightWorld.field, if_pos (h p).1]
    exact hsource p
  loss p := by
    simp only [LightWorld.field, PopulationNeighborhood.field, (h p).2]
  near p q hq := by
    rw [mem_field_near (h p).1]
    exact ⟨pos_beside_iff.mpr hq, (h q).1⟩
  back p hdeep c hc := by
    obtain ⟨hsix, hin⟩ := (mem_field_near (h p).1).mp hc
    obtain ⟨q, rfl⟩ := exists_cell_of_beside hdeep hin.2 hsix
    have hnear : q ∈ lightNeighbors p := pos_beside_iff.mp hsix
    exact ⟨q, hnear, rfl, depth_le_of_near hnear⟩

theorem height_of_extends (h : world.Extends region) (p : NeighborhoodCell) :
    world.height (p.pos region).x (p.pos region).z = neighborhoodHeight region p.x p.z := by
  refine openHeight_congr fun y hy => ?_
  have hcolumn := (h ⟨p.x, ⟨y, hy⟩, p.z⟩).2
  exact congrArg dimsLight hcolumn

-- In the center chunk no light from beyond the neighborhood is left.
theorem lights_agree {shine : NeighborhoodCell → Nat} {source : BlockPos → Nat}
    {light : NeighborhoodCell → UInt8} {outer : BlockPos → UInt8} (h : world.Extends region)
    (hsource : ∀ p : NeighborhoodCell, shine p = source (p.pos region))
    (hbound : ∀ p, source p ≤ 15) (hlight : Lights (region.field shine) light)
    (houter : Lights (world.field source) outer) (hp : 15 < p.depth) :
    light p = outer (p.pos region) := by
  have hinside : ∀ p, (light p).toNat ≤ 15 := hlight.le fun p => by
    rw [show (region.field shine).source p = shine p from rfl, hsource]
    exact hbound _
  have houtside : ∀ p, (outer p).toNat ≤ 15 := houter.le fun p => LightWorld.field_source_le hbound p
  exact UInt8.toNat_inj.mp ((inset_field h hsource).agree hlight (fun p => houter _) hinside
    houtside p hp)

end Locality

section Center

variable {world : LightWorld} {light : NeighborhoodLight} {c : CenterCell}

def CenterCell.pos (region : PopulationNeighborhood) (c : CenterCell) : BlockPos :=
  ⟨16 * region.center.x.toInt + c.x, c.y, 16 * region.center.z.toInt + c.z⟩

theorem inNeighborhood_pos (region : PopulationNeighborhood) (c : CenterCell) :
    c.inNeighborhood.pos region = c.pos region := by
  simp only [NeighborhoodCell.pos, CenterCell.inNeighborhood, toNeighborhood, CenterCell.pos,
    BlockPos.mk.injEq, Nat.cast_add, Nat.cast_ofNat, true_and]
  exact ⟨by omega, by omega⟩

theorem inNeighborhood_deep (c : CenterCell) : 15 < c.inNeighborhood.depth := by
  have hx := c.x.isLt
  have hz := c.z.isLt
  simp only [NeighborhoodCell.depth, CenterCell.inNeighborhood, toNeighborhood]
  omega

theorem CenterCell.index_injective : Function.Injective CenterCell.index := by
  rintro ⟨x, y, z⟩ ⟨x', y', z'⟩ h
  have hx := x.isLt
  have hx' := x'.isLt
  have hz := z.isLt
  have hz' := z'.isLt
  simp only [CenterCell.index, PopulationNeighborhood.blockIndex_eq] at h
  rw [CenterCell.mk.injEq, Fin.ext_iff, Fin.ext_iff, Fin.ext_iff]
  omega

theorem CenterCell.mem_all (c : CenterCell) : c ∈ CenterCell.all := by
  simp only [CenterCell.all, List.mem_flatMap, List.mem_map, List.mem_finRange, true_and]
  exact ⟨c.y, c.z, c.x, rfl⟩

theorem packCenterLight_read (hlight : ∀ p, (levels light p).toNat ≤ 15) (c : CenterCell) :
    readNibble (packCenterLight light) c.index = levels light c.inNeighborhood := by
  have hbytes (c : CenterCell) : c.index / 2 < (List.replicate chunkNibbleBytes (0 : UInt8)).length := by
    have hindex := PopulationNeighborhood.blockIndex_lt c.x c.y c.z
    rw [List.length_replicate, Nat.div_lt_iff_lt_mul Nat.two_pos]
    exact hindex
  exact readNibble_writes CenterCell.index_injective (fun c => Nat.lt_succ_of_le (hlight _)) hbytes
    (.inl (CenterCell.mem_all c))

theorem packCenterLight_length (light : NeighborhoodLight) :
    (packCenterLight light).length = chunkNibbleBytes := by
  rw [packCenterLight, length_writes, List.length_replicate]

theorem centerHeightMap_length (heights : Vector UInt8 neighborhoodArea) :
    (centerHeightMap heights).length = chunkColumnCount := List.length_ofFn

theorem centerHeightMap_column (heights : Vector UInt8 neighborhoodArea) (x z : Fin 16) :
    (centerHeightMap heights).getD (x + z * 16) 0 =
      heights[neighborhoodColumn (toNeighborhood x) (toNeighborhood z)] := by
  have hx := x.isLt
  have hz := z.isLt
  have hcolumn : x.val + z.val * 16 < chunkColumnCount := by
    simp only [chunkColumnCount, chunkEdge]
    omega
  have hmod : (x.val + z.val * 16) % 16 = x := by omega
  have hdiv : (x.val + z.val * 16) / 16 = z := by omega
  rw [List.getD_eq_getElem?_getD, centerHeightMap, List.getElem?_ofFn, dif_pos hcolumn, Option.getD_some]
  simp only [hmod, hdiv]

end Center

-- What the planes of a chunk say, cell by cell.
structure FinalizedChunk.Shows (final : FinalizedChunk) (sky block : CenterCell → UInt8)
    (height : Fin 16 → Fin 16 → Nat) : Prop where
  heightMap_length : final.heightMap.length = chunkColumnCount
  skyLight_length : final.skyLight.length = chunkNibbleBytes
  blockLight_length : final.blockLight.length = chunkNibbleBytes
  heightMap : ∀ x z : Fin 16, (final.heightMap.getD (x + z * 16) 0).toNat = height x z
  skyLight : ∀ c, readNibble final.skyLight c.index = sky c
  blockLight : ∀ c, readNibble final.blockLight c.index = block c

theorem skyField_source_le (region : PopulationNeighborhood) (p : NeighborhoodCell) :
    region.skyField.source p ≤ 15 := by
  simp only [PopulationNeighborhood.skyField, PopulationNeighborhood.field]
  split_ifs
  · exact le_rfl
  · exact Nat.zero_le 15

theorem blockField_source_le (region : PopulationNeighborhood) (p : NeighborhoodCell) :
    region.blockField.source p ≤ 15 := by
  simp only [PopulationNeighborhood.blockField, PopulationNeighborhood.field]
  exact targetLightEmission_le _

section Shows

variable {world : LightWorld} {skyLight blockLight : BlockPos → UInt8}

theorem finalized_height (h : world.Extends region) (x z : Fin 16) :
    ((centerHeightMap (neighborhoodHeightMap region)).getD (x + z * 16) 0).toNat =
      world.height (16 * region.center.x.toInt + x) (16 * region.center.z.toInt + z) := by
  have hheight := height_of_extends h (CenterCell.inNeighborhood ⟨x, 0, z⟩)
  rw [inNeighborhood_pos] at hheight
  rw [centerHeightMap_column, neighborhoodHeightMap_column]
  exact hheight.symm

theorem finalized_sky (h : world.Extends region) (hsky : Lights world.skyField skyLight)
    (c : CenterCell) :
    readNibble (packCenterLight (propagateSkyLight region (neighborhoodHeightMap region))) c.index =
      skyLight (c.pos region) := by
  have hlight := propagateSkyLight_lights region
  rw [packCenterLight_read (hlight.le (skyField_source_le region)), ← inNeighborhood_pos]
  refine lights_agree h (fun p => ?_) (fun p => ?_) hlight hsky (inNeighborhood_deep c)
  · rw [height_of_extends h p]
    simp only [NeighborhoodCell.pos, Nat.cast_le]
  · split_ifs
    · exact le_rfl
    · exact Nat.zero_le 15

theorem finalized_block (h : world.Extends region) (hblock : Lights world.blockField blockLight)
    (c : CenterCell) :
    readNibble (packCenterLight (propagateBlockLight region)) c.index = blockLight (c.pos region) := by
  have hlight := propagateBlockLight_lights region
  rw [packCenterLight_read (hlight.le (blockField_source_le region)), ← inNeighborhood_pos]
  refine lights_agree h (fun p => ?_) (fun p => targetLightEmission_le _) hlight hblock
    (inNeighborhood_deep c)
  rw [(h p).2]

theorem finalizeCenterLighting_shows (h : world.Extends region)
    (hsky : Lights world.skyField skyLight) (hblock : Lights world.blockField blockLight) :
    (finalizeCenterLighting region).Shows (fun c => skyLight (c.pos region))
      (fun c => blockLight (c.pos region))
      (fun x z => world.height (16 * region.center.x.toInt + x) (16 * region.center.z.toInt + z)) := by
  refine ⟨?_, ?_, ?_, ?_, ?_, ?_⟩ <;> simp only [finalizeCenterLighting]
  · exact centerHeightMap_length _
  · exact packCenterLight_length _
  · exact packCenterLight_length _
  · exact finalized_height h
  · exact finalized_sky h hsky
  · exact finalized_block h hblock

end Shows

def airPlanes : PopulationChunkPlanes where
  states := List.replicate chunkBlockCount 0
  biomeIds := List.replicate chunkColumnCount 1
  generationHeightMap := List.replicate chunkColumnCount 0
  extraData := ∅
  chestBlockEntities := []

def airNeighborhood : PopulationNeighborhood where
  center := ⟨0, 0⟩
  chunks _ := airPlanes
  states_length _ := List.length_replicate
  biomeIds_length _ := List.length_replicate
  generationHeightMap_length _ := List.length_replicate

def airWorld : LightWorld := ⟨Set.univ, fun _ => 0⟩

theorem airNeighborhood_blockId (x y z : Nat) : airNeighborhood.localBlockId x y z = 0 := by
  rw [PopulationNeighborhood.localBlockId, PopulationNeighborhood.blockId,
    PopulationNeighborhood.state]
  split_ifs
  · cases airNeighborhood.resolve (airNeighborhood.originX + (Int32.ofNat x - centerOffset))
      (airNeighborhood.originZ + (Int32.ofNat z - centerOffset)) with
    | none => rfl
    | some place =>
      rw [Option.map_some, Option.map_some, Option.getD_some]
      simp only [airNeighborhood, airPlanes, List.get_eq_getElem, List.getElem_replicate]
      decide
  · rfl

theorem airWorld_extends : airWorld.Extends airNeighborhood := by
  intro p
  refine ⟨⟨Set.mem_univ _, BlockPos.isInsideWorld_iff.mpr ?_⟩, ?_⟩
  · have hy := p.y.isLt
    simp only [NeighborhoodCell.pos]
    simp only [worldHeight] at hy
    omega
  · exact (airNeighborhood_blockId p.x p.y p.z).symm

end Cobblestone.World
