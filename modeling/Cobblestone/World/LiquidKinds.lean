import Cobblestone.Lib.Settling
import Cobblestone.World.Chests
import Cobblestone.World.GenerationTicks

namespace Cobblestone.World

open Lib

namespace PopulationNeighborhood

variable {region : PopulationNeighborhood} {p q : Place} {value : UInt16}

theorem resolve_inj {x z x' z' : Int32} {place : Fin 9 × Fin 16 × Fin 16}
    (h : region.resolve x z = some place) (h' : region.resolve x' z' = some place) :
    x = x' ∧ z = z' := by
  obtain ⟨index, localX, localZ⟩ := place
  unfold resolve at h h'
  dsimp only at h h'
  split at h
  · split at h'
    · obtain ⟨found, hfound, heq⟩ := Option.map_eq_some_iff.mp h
      obtain ⟨found', hfound', heq'⟩ := Option.map_eq_some_iff.mp h'
      simp only [Prod.mk.injEq, Fin.ext_iff] at heq heq'
      obtain ⟨hX, hZ⟩ := neighborhoodIndex_some hfound
      obtain ⟨hX', hZ'⟩ := neighborhoodIndex_some hfound'
      have hx : (x - region.originX).toInt = (x' - region.originX).toInt := by omega
      have hz : (z - region.originZ).toInt = (z' - region.originZ).toInt := by omega
      exact ⟨by simpa using Int32.toInt_inj.mp hx, by simpa using Int32.toInt_inj.mp hz⟩
    · cases h'
  · cases h

theorem stateAt_eq_some (h : region.stateAt p = some value) :
    ∃ index localX localZ, ∃ height : Fin worldHeight,
      region.resolve p.x p.z = some (index, localX, localZ) ∧ p.y.toInt = (height.val : Int) ∧
        (region.chunks index).states.getD (blockIndex localX height localZ) 0 = value := by
  rw [stateAt, state] at h
  split at h
  · next hy =>
    obtain ⟨⟨index, localX, localZ⟩, hplace, hvalue⟩ := Option.map_eq_some_iff.mp h
    refine ⟨index, localX, localZ, ⟨p.y.toInt.toNat, by omega⟩, hplace, ?_, ?_⟩
    · exact (Int.toNat_of_nonneg hy.1).symm
    · rw [← hvalue, List.getD_eq_getElem _ _ (by
        rw [region.states_length]
        exact blockIndex_lt ..)]
      rfl
  · cases h

theorem stateAt_placed {index : Fin 9} {localX localZ : Fin 16} {height : Fin worldHeight}
    (hplace : region.resolve p.x p.z = some (index, localX, localZ))
    (hy : p.y.toInt = (height.val : Int)) :
    region.stateAt p = some ((region.chunks index).states.getD (blockIndex localX height localZ) 0) := by
  have hheight := height.isLt
  have hsame : (⟨p.y.toInt.toNat, by omega⟩ : Fin worldHeight) = height := Fin.ext (by
    dsimp only
    omega)
  rw [stateAt, state, dif_pos (by omega), hplace, Option.map_some]
  rw [List.getD_eq_getElem _ _ (by rw [region.states_length]; exact blockIndex_lt ..)]
  simp only [hsame]
  rfl

theorem blockIndex_inj {x z x' z' : Fin 16} {y y' : Fin worldHeight}
    (h : blockIndex x y z = blockIndex x' y' z') : x = x' ∧ y = y' ∧ z = z' := by
  have hx := x.isLt
  have hz := z.isLt
  have hx' := x'.isLt
  have hz' := z'.isLt
  rw [blockIndex_eq, blockIndex_eq] at h
  refine ⟨Fin.ext (by omega), Fin.ext (by omega), Fin.ext (by omega)⟩

theorem setStateAt_of_none (h : region.stateAt p = none) : region.setStateAt p value = region := by
  rw [setStateAt, setState]
  rcases write_cases region p.x p.y p.z (.setState p.x p.y p.z value) with
    heq | ⟨index, localX, localZ, height, hplace, hy, -⟩
  · rw [heq]
  · rw [stateAt_placed hplace hy] at h
    cases h

theorem setStateAt_placed {index : Fin 9} {localX localZ : Fin 16} {height : Fin worldHeight}
    (hplace : region.resolve p.x p.z = some (index, localX, localZ))
    (hy : p.y.toInt = (height.val : Int)) : region.setStateAt p value =
      region.modify index (blockIndex localX height localZ) (.setState p.x p.y p.z value) := by
  rw [setStateAt, setState, write_of_resolved hplace hy]

theorem place_ext {index : Fin 9} {localX localZ : Fin 16} {height : Fin worldHeight}
    (hp : region.resolve p.x p.z = some (index, localX, localZ))
    (hpy : p.y.toInt = (height.val : Int))
    (hq : region.resolve q.x q.z = some (index, localX, localZ))
    (hqy : q.y.toInt = (height.val : Int)) : q = p := by
  obtain ⟨hx, hz⟩ := resolve_inj hq hp
  have hy : q.y = p.y := Int32.toInt_inj.mp (hqy.trans hpy.symm)
  cases p
  cases q
  simp_all

theorem modify_resolve {index : Fin 9} {cell : Nat} {edit : PlanesEdit} {x z : Int32} :
    (region.modify index cell edit).resolve x z = region.resolve x z := rfl

-- A write changes the place it is for, if that lies in the neighborhood, and no other.
theorem stateAt_setStateAt : (region.setStateAt p value).stateAt q =
    if q = p then (region.stateAt p).map fun _ => value else region.stateAt q := by
  cases hp : region.stateAt p with
  | none =>
    rw [setStateAt_of_none hp]
    split
    · next hq => rw [hq, hp, Option.map_none]
    · rfl
  | some old =>
    obtain ⟨index, localX, localZ, height, hplace, hy, -⟩ := stateAt_eq_some hp
    rw [setStateAt_placed hplace hy]
    have hset : blockIndex localX height localZ < (region.chunks index).states.length := by
      rw [region.states_length]
      exact blockIndex_lt ..
    by_cases hq : q = p
    · subst hq
      rw [if_pos rfl, stateAt_placed (modify_resolve.trans hplace) hy, modify]
      simp only [Function.update_self, PlanesEdit.setState, Option.map_some]
      rw [getD_set hset, if_pos rfl]
    · rw [if_neg hq]
      cases hqs : region.stateAt q with
      | none =>
        by_contra hne
        obtain ⟨v, hv⟩ := Option.ne_none_iff_exists'.mp hne
        obtain ⟨i, x, z, y, hqplace, hqy, -⟩ := stateAt_eq_some hv
        have hplaced : region.stateAt q = _ := stateAt_placed hqplace hqy
        rw [hqs] at hplaced
        cases hplaced
      | some other =>
        obtain ⟨i, x, z, y, hqplace, hqy, hother⟩ := stateAt_eq_some hqs
        rw [stateAt_placed (modify_resolve.trans hqplace) hqy, modify, ← hother]
        by_cases hi : i = index
        · subst hi
          simp only [Function.update_self, PlanesEdit.setState]
          rw [getD_set hset, if_neg]
          intro hindex
          obtain ⟨rfl, rfl, rfl⟩ := blockIndex_inj hindex
          exact hq (place_ext hplace hy hqplace hqy)
        · simp only [Function.update_of_ne hi]

end PopulationNeighborhood

-- What a cell is to a liquid: still and flowing are alike, and so is all that a liquid may enter.
inductive LiquidKind where
  | blocked
  | vacant
  | liquid (material : LiquidMaterial) (depth : Fin 16)
deriving DecidableEq

def depthOf (value : UInt16) : Fin 16 :=
  ⟨(value &&& 0x0f).toNat, by
    rw [UInt16.toNat_and]
    exact Nat.lt_of_le_of_lt Nat.and_le_right (by decide)⟩

def kindOf (value : UInt16) : LiquidKind :=
  match liquidMaterialId (value >>> 4) with
  | some material => .liquid material (depthOf value)
  | none => if waterBlocking (value >>> 4) then .blocked else .vacant

def LiquidKind.depthIn (material : LiquidMaterial) : LiquidKind → Option (Fin 16)
  | .liquid other depth => if other = material then some depth else none
  | _ => none

@[simp] theorem depthIn_liquid (m : LiquidMaterial) (d : Fin 16) :
    (LiquidKind.liquid m d).depthIn m = some d := if_pos rfl

theorem depthIn_eq_some {m : LiquidMaterial} {k : LiquidKind} {d : Fin 16} :
    k.depthIn m = some d ↔ k = .liquid m d := by
  cases k with
  | blocked => simp [LiquidKind.depthIn]
  | vacant => simp [LiquidKind.depthIn]
  | liquid other depth =>
    by_cases h : other = m
    · subst h
      simp
    · simp [LiquidKind.depthIn, h]

theorem blockState_toNat {id : UInt16} {data : UInt8} (hid : id.toNat < 4096)
    (hdata : data.toNat < 16) : (blockState id data).toNat = id.toNat * 16 + data.toNat := by
  have hshift : (id <<< (4 : UInt16)).toNat = id.toNat <<< 4 := by
    rw [UInt16.toNat_shiftLeft]
    have : id.toNat <<< 4 < 2 ^ 16 := by
      rw [Nat.shiftLeft_eq]
      omega
    exact Nat.mod_eq_of_lt this
  rw [blockState, UInt16.toNat_or, hshift, UInt8.toNat_toUInt16,
    ← Nat.shiftLeft_add_eq_or_of_lt hdata, Nat.shiftLeft_eq]

theorem blockState_id {id : UInt16} {data : UInt8} (hid : id.toNat < 4096)
    (hdata : data.toNat < 16) : blockState id data >>> 4 = id := by
  apply UInt16.toNat_inj.mp
  rw [UInt16.toNat_shiftRight, blockState_toNat hid hdata]
  have hfour : (4 : UInt16).toNat % 16 = 4 := rfl
  rw [hfour, Nat.shiftRight_eq_div_pow]
  omega

theorem depthOf_blockState {id : UInt16} {data : UInt8} (hid : id.toNat < 4096)
    (hdata : data.toNat < 16) : (depthOf (blockState id data)).val = data.toNat := by
  have hval : (depthOf (blockState id data)).val = (blockState id data &&& 0x0f).toNat := rfl
  have hmask : (0x0f : UInt16).toNat = 2 ^ 4 - 1 := rfl
  rw [hval, UInt16.toNat_and, blockState_toNat hid hdata, hmask, Nat.and_two_pow_sub_one_eq_mod]
  omega

theorem kindOf_blockState {id : UInt16} {data : UInt8} {m : LiquidMaterial} {d : Fin 16}
    (hid : liquidMaterialId id = some m) (hd : data.toNat = d) :
    kindOf (blockState id data) = .liquid m d := by
  have hlt : id.toNat < 4096 := by
    rw [liquidMaterialId] at hid
    split at hid
    · next h => rcases h with rfl | rfl <;> decide
    · split at hid
      · next h => rcases h with rfl | rfl <;> decide
      · cases hid
  have hdata : data.toNat < 16 := by omega
  rw [kindOf, blockState_id hlt hdata, hid]
  simp only [LiquidKind.liquid.injEq, true_and]
  exact Fin.ext ((depthOf_blockState hlt hdata).trans hd)

namespace PopulationNeighborhood

variable {region : PopulationNeighborhood} {p q : Place} {value : UInt16} {m : LiquidMaterial}
  {d : Fin 16}

def kinds (region : PopulationNeighborhood) (p : Place) : LiquidKind :=
  ((region.stateAt p).map kindOf).getD .blocked

theorem kinds_of_stateAt (h : region.stateAt p = some value) : region.kinds p = kindOf value := by
  rw [kinds, h]
  rfl

theorem stateAt_of_kinds (h : region.kinds p ≠ .blocked) :
    ∃ value, region.stateAt p = some value ∧ region.kinds p = kindOf value := by
  cases hs : region.stateAt p with
  | none => simp [kinds, hs] at h
  | some value => exact ⟨value, rfl, kinds_of_stateAt hs⟩

theorem kinds_setStateAt (h : region.kinds p ≠ .blocked) :
    (region.setStateAt p value).kinds = Function.update region.kinds p (kindOf value) := by
  obtain ⟨old, hold, -⟩ := stateAt_of_kinds h
  funext q
  rw [kinds, stateAt_setStateAt]
  by_cases hq : q = p
  · subst hq
    simp [hold]
  · rw [if_neg hq, Function.update_of_ne hq]
    rfl

-- A write that keeps what its cell is to a liquid keeps everything.
theorem kinds_setStateAt_same (h : kindOf value = region.kinds p) :
    (region.setStateAt p value).kinds = region.kinds := by
  by_cases hb : region.stateAt p = none
  · rw [setStateAt_of_none hb]
  · obtain ⟨old, hold⟩ := Option.ne_none_iff_exists'.mp hb
    funext q
    rw [kinds, stateAt_setStateAt]
    by_cases hq : q = p
    · subst hq
      simp [hold, h]
    · rw [if_neg hq]
      rfl

theorem blockIdAt_of_stateAt (h : region.stateAt p = some value) :
    region.blockIdAt p = value >>> 4 := by
  rw [blockIdAt, blockId]
  rw [stateAt] at h
  rw [h]
  rfl

theorem blockIdAt_of_none (h : region.stateAt p = none) : region.blockIdAt p = 0 := by
  rw [blockIdAt, blockId]
  rw [stateAt] at h
  rw [h]
  rfl

theorem liquidDepth_eq : region.liquidDepth m p = ((region.kinds p).depthIn m).map Fin.val := by
  rw [liquidDepth]
  cases hs : region.stateAt p with
  | none => simp [kinds, hs, LiquidKind.depthIn]
  | some value =>
    rw [kinds_of_stateAt hs, kindOf, Option.bind_some]
    cases hm : liquidMaterialId (value >>> 4) with
    | none => cases waterBlocking (value >>> 4) <;> rfl
    | some other =>
      by_cases h : other = m
      · subst h
        simp [depthOf]
      · simp [LiquidKind.depthIn, h]

theorem liquidMaterialAt_eq : region.liquidMaterialAt p = some m ↔
    ∃ d, region.kinds p = .liquid m d := by
  rw [liquidMaterialAt]
  cases hs : region.stateAt p with
  | none =>
    rw [blockIdAt_of_none hs, kinds, hs]
    cases m <;> simp <;> decide
  | some value =>
    rw [blockIdAt_of_stateAt hs, kinds_of_stateAt hs, kindOf]
    cases hm : liquidMaterialId (value >>> 4) with
    | none => cases waterBlocking (value >>> 4) <;> simp
    | some other => simp

-- A liquid spreads into what is vacant, and lava into water as well.
theorem canSpreadTo_iff : region.canSpreadTo m p = true ↔
    region.kinds p = .vacant ∨ m = .lava ∧ ∃ d, region.kinds p = .liquid .water d := by
  rw [canSpreadTo]
  cases hs : region.stateAt p with
  | none => simp [kinds, hs]
  | some value =>
    rw [kinds_of_stateAt hs, kindOf]
    cases hm : liquidMaterialId (value >>> 4) with
    | none =>
      simp only [hm]
      cases waterBlocking (value >>> 4) <;> simp
    | some other =>
      have hflows : waterBlocking (value >>> 4) = false := by
        rw [liquidMaterialId] at hm
        split at hm
        · next h => rcases h with h | h <;> rw [h] <;> decide
        · split at hm
          · next h => rcases h with h | h <;> rw [h] <;> decide
          · cases hm
      cases other <;> cases m <;> simp [hm, hflows]

end PopulationNeighborhood

end Cobblestone.World
