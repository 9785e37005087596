import Cobblestone.World.NeighborhoodWrites
import Cobblestone.World.Undo

namespace Cobblestone.World

open Lib WorldStore

-- Where an entity stands in the planes of the chunk at a position, if it stands in that chunk.
def cellOf (p : ChunkCoord) (place : Int32 × Int32 × Int32) : Option Nat :=
  let x := (place.1 - p.x * 16).toInt
  let z := (place.2.2 - p.z * 16).toInt
  let y := place.2.1.toInt
  if (0 ≤ x ∧ x < 16) ∧ (0 ≤ z ∧ z < 16) ∧ 0 ≤ y ∧ y < worldHeight then
    some (256 * y + 16 * z + x).toNat
  else none

def ChestAt (states : List UInt16) (cell : Nat) : Prop := states.getD cell 0 >>> 4 = chestBlockId

-- Every chest entity stands in its chunk on a chest block, and no two stand on one block.
structure ChestsMatch (p : ChunkCoord) (states : List UInt16) (entities : List ChestBlockEntity) :
    Prop where
  chest : ∀ e ∈ entities, ∃ cell, cellOf p e.place = some cell ∧ ChestAt states cell
  nodup : (entities.map ChestBlockEntity.place).Nodup

section Cells

variable {p : ChunkCoord} {place place' : Int32 × Int32 × Int32} {cell : Nat}

theorem sub_cancel32 {a b c : Int32} (h : (a - c).toInt = (b - c).toInt) : a = b := by
  have hsub : a - c = b - c := Int32.toInt_inj.mp h
  have hadd := congrArg (· + c) hsub
  simpa using hadd

theorem cellOf_some (h : cellOf p place = some cell) :
    ((0 ≤ (place.1 - p.x * 16).toInt ∧ (place.1 - p.x * 16).toInt < 16) ∧
      (0 ≤ (place.2.2 - p.z * 16).toInt ∧ (place.2.2 - p.z * 16).toInt < 16) ∧
      0 ≤ place.2.1.toInt ∧ place.2.1.toInt < worldHeight) ∧
    (cell : Int) = 256 * place.2.1.toInt + 16 * (place.2.2 - p.z * 16).toInt +
      (place.1 - p.x * 16).toInt := by
  unfold cellOf at h
  dsimp only at h
  split at h
  · next hin =>
    cases h
    refine ⟨hin, ?_⟩
    omega
  · cases h

theorem cellOf_inj (h : cellOf p place = some cell) (h' : cellOf p place' = some cell) :
    place = place' := by
  obtain ⟨hin, heq⟩ := cellOf_some h
  obtain ⟨hin', heq'⟩ := cellOf_some h'
  have hx : place.1 = place'.1 := sub_cancel32 (c := p.x * 16) (by omega)
  have hz : place.2.2 = place'.2.2 := sub_cancel32 (c := p.z * 16) (by omega)
  have hy : place.2.1 = place'.2.1 := Int32.toInt_inj.mp (by omega)
  exact Prod.ext hx (Prod.ext hy hz)

theorem cellOf_lt (h : cellOf p place = some cell) : cell < chunkBlockCount := by
  obtain ⟨hin, heq⟩ := cellOf_some h
  have hcells : chunkBlockCount = 256 * 128 := rfl
  have hheight : worldHeight = 128 := rfl
  omega

end Cells

section Writes

variable {p : ChunkCoord} {states : List UInt16} {entities : List ChestBlockEntity} {cell : Nat}

theorem chestAt_lt (h : ChestAt states cell) : cell < states.length := by
  by_contra hout
  rw [ChestAt, List.getD_eq_default _ _ (not_lt.mp hout)] at h
  exact absurd h (by decide)

theorem ChestAt.set (h : ChestAt states cell) {index : Nat} {state : UInt16}
    (hstate : cell = index → state >>> 4 = chestBlockId) : ChestAt (states.set index state) cell := by
  by_cases hcell : cell = index
  · subst hcell
    rw [ChestAt, getD_set (chestAt_lt h), if_pos rfl]
    exact hstate rfl
  · rw [ChestAt, List.getD_eq_getElem?_getD, List.getElem?_set_ne (Ne.symm hcell),
      ← List.getD_eq_getElem?_getD]
    exact h

theorem ChestsMatch.of_states {states' : List UInt16} (h : ChestsMatch p states entities)
    (hstates : ∀ e ∈ entities, ∀ cell, cellOf p e.place = some cell → ChestAt states cell →
      ChestAt states' cell) : ChestsMatch p states' entities where
  chest e he := by
    obtain ⟨cell, hcell, hchest⟩ := h.chest e he
    exact ⟨cell, hcell, hstates e he cell hcell hchest⟩
  nodup := h.nodup

theorem ChestsMatch.nil : ChestsMatch p states [] where
  chest e he := by cases he
  nodup := List.nodup_nil

theorem place_putEntity (entity : ChestBlockEntity) (entities : List ChestBlockEntity) :
    (putEntity entity entities).map ChestBlockEntity.place =
      if entity.place ∈ entities.map ChestBlockEntity.place then
        entities.map ChestBlockEntity.place
      else entities.map ChestBlockEntity.place ++ [entity.place] := by
  induction entities with
  | nil => simp [putEntity]
  | cons existing entities ih =>
    rw [putEntity]
    by_cases hsame : existing.place = entity.place
    · rw [if_pos hsame]
      simp [hsame]
    · rw [if_neg hsame, List.map_cons, ih, List.map_cons]
      by_cases hmem : entity.place ∈ entities.map ChestBlockEntity.place
      · rw [if_pos hmem, if_pos (List.mem_cons_of_mem _ hmem)]
      · have hout := List.not_mem_cons_of_ne_of_not_mem (Ne.symm hsame) hmem
        rw [if_neg hmem, if_neg hout, List.cons_append]

theorem mem_putEntity {entity e : ChestBlockEntity} (h : e ∈ putEntity entity entities) :
    e = entity ∨ e ∈ entities := by
  induction entities with
  | nil => exact .inl (List.mem_singleton.mp h)
  | cons existing entities ih =>
    rw [putEntity] at h
    split at h
    · rcases List.mem_cons.mp h with rfl | hmem
      · exact .inl rfl
      · exact .inr (List.mem_cons_of_mem _ hmem)
    · rcases List.mem_cons.mp h with rfl | hmem
      · exact .inr List.mem_cons_self
      · exact (ih hmem).imp_right (List.mem_cons_of_mem _)

theorem ChestsMatch.put (h : ChestsMatch p states entities) {entity : ChestBlockEntity}
    (hcell : cellOf p entity.place = some cell) (hchest : ChestAt states cell) :
    ChestsMatch p states (putEntity entity entities) where
  chest e he := by
    rcases mem_putEntity he with rfl | hmem
    · exact ⟨cell, hcell, hchest⟩
    · exact h.chest e hmem
  nodup := by
    rw [place_putEntity]
    split
    · exact h.nodup
    · next hnew => exact List.nodup_append.mpr ⟨h.nodup, List.nodup_singleton _, by
        rintro a ha b hb rfl
        exact hnew (List.mem_singleton.mp hb ▸ ha)⟩

end Writes

section Neighborhood

variable {region : PopulationNeighborhood} {worldX y worldZ : Int32}

theorem neighborhoodIndex_some {offsetX offsetZ : Int} {index : Fin 9}
    (h : PopulationNeighborhood.neighborhoodIndex offsetX offsetZ = some index) :
    ((index.val % 3 : Nat) : Int) = offsetX + 1 ∧ ((index.val / 3 : Nat) : Int) = offsetZ + 1 := by
  unfold PopulationNeighborhood.neighborhoodIndex at h
  split at h
  · cases h
    dsimp only
    omega
  · cases h

-- Sixteen blocks further on a chunk begins, whatever the coordinates wrap to.
theorem local_coordinate (center world : Int32) {k : Nat} (hk : k < 3)
    (hoffset : (k : Int) = (world - center * 16).toInt / 16 + 1) :
    (world - (center + (Int32.ofNat k - 1)) * 16).toInt = (world - center * 16).toInt % 16 := by
  have hsplit : world - (center + (Int32.ofNat k - 1)) * 16 =
      (world - center * 16) - (Int32.ofNat k - 1) * 16 := by
    rw [Int32.add_mul, Int32.sub_sub]
  have hstep : ((Int32.ofNat k - 1) * 16).toInt = 16 * (k : Int) - 16 := by
    interval_cases k <;> decide
  rw [hsplit, Int32.toInt_sub, hstep]
  generalize (world - center * 16).toInt = relative at *
  rw [Int.bmod_eq_emod_of_lt] <;> omega

theorem cellOf_resolved {index : Fin 9} {localX localZ : Fin 16} {height : Fin worldHeight}
    (h : region.resolve worldX worldZ = some (index, localX, localZ))
    (hy : y.toInt = (height.val : Int)) :
    cellOf (neighborhoodPosition region.center index) (worldX, y, worldZ) =
      some (PopulationNeighborhood.blockIndex localX height localZ) := by
  unfold PopulationNeighborhood.resolve at h
  dsimp only at h
  split at h
  · next hin =>
    obtain ⟨found, hfound, heq⟩ := Option.map_eq_some_iff.mp h
    cases heq
    obtain ⟨hoffsetX, hoffsetZ⟩ := neighborhoodIndex_some hfound
    have hindex := index.isLt
    have hx := local_coordinate region.center.x worldX (k := index % 3) (by omega) hoffsetX
    have hz := local_coordinate region.center.z worldZ (k := index / 3) (by omega) hoffsetZ
    have hheight := height.isLt
    rw [PopulationNeighborhood.blockIndex_eq, cellOf, neighborhoodPosition, wrapOffset]
    dsimp only
    rw [hx, hz, hy, if_pos (by omega)]
    simp only [PopulationNeighborhood.originX, PopulationNeighborhood.originZ] at *
    rw [Option.some.injEq]
    omega
  · cases h

def RegionMatch (region : PopulationNeighborhood) : Prop :=
  ∀ i, ChestsMatch (neighborhoodPosition region.center i) (region.chunks i).states
    (region.chunks i).chestBlockEntities

theorem write_cases (region : PopulationNeighborhood) (worldX y worldZ : Int32) (edit : PlanesEdit) :
    region.write worldX y worldZ edit = (false, region) ∨
      ∃ index localX localZ, ∃ height : Fin worldHeight,
        region.resolve worldX worldZ = some (index, localX, localZ) ∧
          y.toInt = (height.val : Int) ∧ region.write worldX y worldZ edit =
            (true, region.modify index (PopulationNeighborhood.blockIndex localX height localZ) edit) := by
  unfold PopulationNeighborhood.write
  split
  · next hy =>
    cases hplace : region.resolve worldX worldZ with
    | none => exact .inl rfl
    | some place =>
      obtain ⟨index, localX, localZ⟩ := place
      refine .inr ⟨index, localX, localZ, ⟨y.toInt.toNat, by omega⟩, rfl, ?_, rfl⟩
      exact (Int.toNat_of_nonneg hy.1).symm
  · exact .inl rfl

theorem write_of_resolved {index : Fin 9} {localX localZ : Fin 16} {height : Fin worldHeight}
    (hplace : region.resolve worldX worldZ = some (index, localX, localZ))
    (hy : y.toInt = (height.val : Int)) (edit : PlanesEdit) :
    region.write worldX y worldZ edit =
      (true, region.modify index (PopulationNeighborhood.blockIndex localX height localZ) edit) := by
  have hheight := height.isLt
  have hin : 0 ≤ y.toInt ∧ y.toInt < worldHeight := by omega
  have hsame : (⟨y.toInt.toNat, by omega⟩ : Fin worldHeight) = height := Fin.ext (by
    dsimp only
    omega)
  rw [PopulationNeighborhood.write, dif_pos hin, hplace]
  dsimp only
  rw [hsame]

theorem resolve_setState (region : PopulationNeighborhood) (worldX y worldZ : Int32)
    (value : UInt16) (x z : Int32) :
    (region.setState worldX y worldZ value).2.resolve x z = region.resolve x z := by
  rcases write_cases region worldX y worldZ (.setState worldX y worldZ value) with
    heq | ⟨_, _, _, _, -, -, heq⟩
  · rw [PopulationNeighborhood.setState, heq]
  · rw [PopulationNeighborhood.setState, heq]
    rfl

theorem setState_placed {index : Fin 9} {localX localZ : Fin 16} {height : Fin worldHeight}
    (hplace : region.resolve worldX worldZ = some (index, localX, localZ))
    (hy : y.toInt = (height.val : Int)) (value : UInt16) :
    ((region.setState worldX y worldZ value).2.chunks index).states.getD
      (PopulationNeighborhood.blockIndex localX height localZ) 0 = value := by
  have hin : PopulationNeighborhood.blockIndex localX height localZ <
      (region.chunks index).states.length := by
    rw [region.states_length]
    exact PopulationNeighborhood.blockIndex_lt localX height localZ
  rw [PopulationNeighborhood.setState, write_of_resolved hplace hy, PopulationNeighborhood.modify]
  dsimp only
  rw [Function.update_self, PlanesEdit.setState]
  dsimp only
  rw [getD_set hin, if_pos rfl]

theorem RegionMatch.modify (h : RegionMatch region) {index : Fin 9} {cell : Nat} {edit : PlanesEdit}
    (hedit : ChestsMatch (neighborhoodPosition region.center index)
      (edit.run cell (region.chunks index)).states
      (edit.run cell (region.chunks index)).chestBlockEntities) :
    RegionMatch (region.modify index cell edit) := by
  intro i
  rw [PopulationNeighborhood.modify]
  dsimp only
  by_cases hi : i = index
  · subst hi
    rw [Function.update_self]
    exact hedit
  · rw [Function.update_of_ne hi]
    exact h i

-- Overwriting a chest takes its entity away; writing elsewhere moves no entity.
theorem ChestsMatch.setState {p : ChunkCoord} {planes : PopulationChunkPlanes} {cell : Nat}
    (h : ChestsMatch p planes.states planes.chestBlockEntities) {value : UInt16}
    (hcell : cellOf p (worldX, y, worldZ) = some cell) :
    ChestsMatch p ((PlanesEdit.setState worldX y worldZ value).run cell planes).states
      ((PlanesEdit.setState worldX y worldZ value).run cell planes).chestBlockEntities := by
  simp only [PlanesEdit.setState]
  split
  · next hover =>
    constructor
    · intro e he
      obtain ⟨hmem, hplace⟩ := List.mem_filter.mp he
      obtain ⟨other, hother, hchest⟩ := h.chest e hmem
      refine ⟨other, hother, hchest.set fun hsame => ?_⟩
      subst hsame
      exact absurd (cellOf_inj hother hcell) (of_decide_eq_true hplace)
    · exact h.nodup.sublist (List.filter_sublist.map _)
  · next hkeep =>
    refine h.of_states fun e _ other hother hchest => hchest.set fun hsame => ?_
    subst hsame
    by_contra hvalue
    exact hkeep ⟨hchest, hvalue⟩

theorem RegionMatch.setState (h : RegionMatch region) (worldX y worldZ : Int32) (value : UInt16) :
    RegionMatch (region.setState worldX y worldZ value).2 := by
  rcases write_cases region worldX y worldZ (.setState worldX y worldZ value) with
    heq | ⟨index, localX, localZ, height, hplace, hy, heq⟩
  · rw [PopulationNeighborhood.setState, heq]
    exact h
  · rw [PopulationNeighborhood.setState, heq]
    exact h.modify ((h index).setState (cellOf_resolved hplace hy))

theorem RegionMatch.setExtraData (h : RegionMatch region) (worldX y worldZ : Int32)
    (value : UInt16) : RegionMatch (region.setExtraData worldX y worldZ value).2 := by
  rcases write_cases region worldX y worldZ (.setExtraData value) with
    heq | ⟨index, localX, localZ, height, -, -, heq⟩
  · rw [PopulationNeighborhood.setExtraData, heq]
    exact h
  · rw [PopulationNeighborhood.setExtraData, heq]
    exact h.modify (h index)

theorem chest_state (data : Fin 16) :
    ((chestBlockId <<< 4) ||| UInt16.ofNat data) >>> 4 = chestBlockId := by
  revert data
  decide

theorem RegionMatch.createSmithyChest (h : RegionMatch region) (worldX y worldZ : Int32)
    (data : Fin 16) (items : List ChestItemStack) :
    RegionMatch (region.createSmithyChest worldX y worldZ data items) := by
  rw [PopulationNeighborhood.createSmithyChest]
  split
  · exact h
  · have hset := h.setState worldX y worldZ ((chestBlockId <<< 4) ||| UInt16.ofNat data)
    dsimp only
    rcases write_cases (region.setState worldX y worldZ ((chestBlockId <<< 4) ||| UInt16.ofNat data)).2
      worldX y worldZ (.putChestBlockEntity ⟨worldX, y, worldZ, items⟩) with
      heq | ⟨index, localX, localZ, height, hplace, hy, heq⟩
    · rw [PopulationNeighborhood.putChestBlockEntity, heq]
      exact hset
    · rw [PopulationNeighborhood.putChestBlockEntity, heq]
      refine hset.modify ((hset index).put (cellOf_resolved hplace hy) ?_)
      rw [resolve_setState] at hplace
      rw [ChestAt, setState_placed hplace hy]
      exact chest_state data

theorem NeighborhoodWrite.apply_match (h : RegionMatch region) (write : NeighborhoodWrite) :
    RegionMatch (write.apply region) := by
  cases write with
  | setState worldX y worldZ value => exact h.setState worldX y worldZ value
  | setExtraData worldX y worldZ value => exact h.setExtraData worldX y worldZ value
  | createSmithyChest worldX y worldZ data items =>
    exact h.createSmithyChest worldX y worldZ data items

theorem RegionMatch.writes (h : RegionMatch region) (writes : List NeighborhoodWrite) :
    RegionMatch (writes.foldl NeighborhoodWrite.apply region) :=
  List.foldlRecOn (motive := RegionMatch) writes _ h fun _ hregion write _ =>
    NeighborhoodWrite.apply_match hregion write

theorem write_center (region : PopulationNeighborhood) (worldX y worldZ : Int32)
    (edit : PlanesEdit) : (region.write worldX y worldZ edit).2.center = region.center := by
  rcases write_cases region worldX y worldZ edit with heq | ⟨_, _, _, _, -, -, heq⟩
  · rw [heq]
  · rw [heq]
    rfl

theorem NeighborhoodWrite.apply_center (region : PopulationNeighborhood)
    (write : NeighborhoodWrite) : (write.apply region).center = region.center := by
  cases write with
  | setState worldX y worldZ value => exact write_center ..
  | setExtraData worldX y worldZ value => exact write_center ..
  | createSmithyChest worldX y worldZ data items =>
    rw [NeighborhoodWrite.apply, PopulationNeighborhood.createSmithyChest]
    split
    · rfl
    · exact (write_center ..).trans (write_center ..)

theorem writes_center (region : PopulationNeighborhood) (writes : List NeighborhoodWrite) :
    (writes.foldl NeighborhoodWrite.apply region).center = region.center :=
  List.foldlRecOn (motive := fun r : PopulationNeighborhood => r.center = region.center) writes _ rfl
    fun r hr write _ => (NeighborhoodWrite.apply_center r write).trans hr

-- Whatever the features write, the nine chunks leave with their entities on chests.
theorem populate_match {γ : Type} (population : Population γ) (state : γ) (target : ChunkCoord)
    {chunks : Fin 9 → PopulationChunkPlanes}
    (h : ∀ i, ChestsMatch (neighborhoodPosition target i) (chunks i).states
      (chunks i).chestBlockEntities) (i : Fin 9) :
    ChestsMatch (neighborhoodPosition target i)
      ((population.populate state target chunks).2.1 i).states
      ((population.populate state target chunks).2.1 i).chestBlockEntities := by
  rw [Population.populate]
  split
  · next hsizes =>
    dsimp only
    generalize hregion : (⟨target, chunks, fun i => (hsizes i).states, fun i => (hsizes i).biomeIds,
      fun i => (hsizes i).generationHeightMap⟩ : PopulationNeighborhood) = region
    have hcenter : region.center = target := by rw [← hregion]
    have hstart : RegionMatch region := by
      rw [← hregion]
      exact h
    have hwrites := hstart.writes (population.features state region).2 i
    rwa [writes_center, hcenter] at hwrites
  · exact h i

end Neighborhood

end Cobblestone.World
