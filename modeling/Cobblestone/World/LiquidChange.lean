import Cobblestone.World.LiquidKinds
import Mathlib.Data.List.Induction

namespace Cobblestone.World

open Lib Settling

namespace Place

variable (p : Place)

theorem up_y (h : p.y ≠ Int32.maxValue) : p.up.y.toInt = p.y.toInt + 1 := by
  have hle := Int32.toInt_lt p.y
  have hge := Int32.le_toInt p.y
  have hne : p.y.toInt ≠ 2 ^ 31 - 1 := fun he => h (Int32.toInt_inj.mp he)
  have hadd : p.up.y.toInt = (p.y.toInt + (1 : Int32).toInt).bmod (2 ^ 32) := Int32.toInt_add ..
  have hone : (1 : Int32).toInt = 1 := rfl
  rw [hadd, hone, Int.bmod_eq_of_le] <;> omega

theorem up_down : p.down.up = p := by
  rw [down, up]
  simp

theorem down_up : p.up.down = p := by
  rw [down, up]
  simp

def around : List Place := [p.west, p.east, p.south, p.north]

theorem mem_around_toward (direction : Fin 4) : p ∈ (p.toward direction).around := by
  fin_cases direction <;> simp [toward, around, west, east, north, south]

theorem around_y {q : Place} (h : q ∈ p.around) : q.y = p.y := by
  simp only [around, List.mem_cons, List.not_mem_nil, or_false] at h
  rcases h with rfl | rfl | rfl | rfl <;> rfl

end Place

instance : Finite Place :=
  Finite.of_injective (fun p : Place => (p.x, p.y, p.z)) fun p q h => by
    cases p
    cases q
    simpa using h

def placeBasin : Basin Place where
  above p := if p.y = Int32.maxValue then none else some p.up
  near p q := q ∈ p.around
  level p := p.y.toInt
  level_above := by
    intro p a h
    split at h
    · cases h
    · next hne =>
      cases h
      rw [p.up_y hne]
      omega
  level_near := by
    intro p q h
    rw [p.around_y h]

def head (depth : Nat) : Nat := if 8 ≤ depth then 0 else depth

theorem dropOff_pos (m : LiquidMaterial) : 0 < dropOff m := by cases m <;> decide

def liquidFluid (m : LiquidMaterial) : Fluid (Fin 16) where
  head d := World.head d
  falls d := if 8 ≤ d.val then d else Fin.ofNat 16 (d.val + 8)
  fed h := if h + dropOff m < 8 then some (Fin.ofNat 16 (h + dropOff m)) else none
  thrown d := if 8 ≤ d.val then 1 else Fin.ofNat 16 (d.val + dropOff m)
  head_fed := by
    intro h v hv
    have := dropOff_pos m
    split at hv
    · next hlt =>
      cases hv
      have hval : (Fin.ofNat 16 (h + dropOff m)).val = h + dropOff m := Nat.mod_eq_of_lt (by omega)
      rw [World.head, hval, if_neg (by omega)]
      omega
    · cases hv
  fed_of_le := by
    intro h k hle hk
    split at hk
    · rw [if_pos (by omega)]
      rfl
    · cases hk
  head_thrown := by
    intro d hd
    have := dropOff_pos m
    split at hd
    · next hlt =>
      by_cases h8 : 8 ≤ d.val
      · rw [if_pos h8, World.head, if_pos h8]
        decide
      · rw [World.head, if_neg h8] at hlt ⊢
        have hval : (Fin.ofNat 16 (d.val + dropOff m)).val = d.val + dropOff m :=
          Nat.mod_eq_of_lt (by omega)
        rw [if_neg h8, World.head, hval, if_neg (by omega)]
        omega
    · cases hd

namespace PopulationNeighborhood

variable {region : PopulationNeighborhood} {m : LiquidMaterial} {p q : Place} {d : Fin 16}

def depths (region : PopulationNeighborhood) (m : LiquidMaterial) (p : Place) : Option (Fin 16) :=
  (region.kinds p).depthIn m

theorem liquidDepth_some {depth : Nat} : region.liquidDepth m p = some depth ↔
    ∃ d, region.depths m p = some d ∧ d.val = depth := by
  rw [liquidDepth_eq, depths]
  cases (region.kinds p).depthIn m <;> simp

theorem liquidDepth_none : region.liquidDepth m p = none ↔ region.depths m p = none := by
  rw [liquidDepth_eq, depths]
  cases (region.kinds p).depthIn m <;> simp

-- What the scan of the neighbors has found: nothing, or the one nearest to its source.
theorem getHighest_foldl (places : List Place) :
    let highest := (places.foldl (region.getHighest m) (-100, 0)).1
    (highest < 0 ∧ ∀ q ∈ places, region.depths m q = none) ∨
      ∃ q ∈ places, ∃ d, region.depths m q = some d ∧ highest = (head d : Int) ∧
        ∀ q' ∈ places, ∀ d', region.depths m q' = some d' → head d ≤ head d' := by
  induction places using List.reverseRecOn with
  | nil => exact .inl ⟨by simp, by simp⟩
  | append_singleton places p ih =>
    dsimp only at ih ⊢
    rw [List.foldl_append, List.foldl_cons, List.foldl_nil]
    generalize places.foldl (region.getHighest m) (-100, 0) = best at ih
    rw [getHighest]
    cases hp : region.depths m p with
    | none =>
      rw [liquidDepth_none.mpr hp]
      rcases ih with ⟨hneg, hnone⟩ | ⟨q, hq, d, hd, hbest, hmin⟩
      · refine .inl ⟨hneg, fun q hq => ?_⟩
        rcases List.mem_append.mp hq with hq | hq
        · exact hnone q hq
        · rw [List.mem_singleton.mp hq, hp]
      · refine .inr ⟨q, List.mem_append_left _ hq, d, hd, hbest, fun q' hq' d' hd' => ?_⟩
        rcases List.mem_append.mp hq' with hq' | hq'
        · exact hmin q' hq' d' hd'
        · rw [List.mem_singleton.mp hq', hp] at hd'
          cases hd'
    | some here =>
      rw [liquidDepth_some.mpr ⟨here, hp, rfl⟩]
      have hhead : (if 8 ≤ here.val then (0 : Int) else here.val) = (head here : Int) := by
        rw [head]
        split <;> rfl
      simp only [hhead]
      refine .inr ?_
      rcases ih with ⟨hneg, hnone⟩ | ⟨q, hq, d, hd, hbest, hmin⟩
      · refine ⟨p, by simp, here, hp, if_pos (.inl hneg), fun q' hq' d' hd' => ?_⟩
        rcases List.mem_append.mp hq' with hq' | hq'
        · rw [hnone q' hq'] at hd'
          cases hd'
        · rw [List.mem_singleton.mp hq', hp] at hd'
          cases hd'
          exact le_rfl
      · by_cases hless : (head here : Int) < best.1
        · refine ⟨p, by simp, here, hp, if_pos (.inr hless), fun q' hq' d' hd' => ?_⟩
          rcases List.mem_append.mp hq' with hq' | hq'
          · have := hmin q' hq' d' hd'
            omega
          · rw [List.mem_singleton.mp hq', hp] at hd'
            cases hd'
            exact le_rfl
        · refine ⟨q, List.mem_append_left _ hq, d, hd, ?_, fun q' hq' d' hd' => ?_⟩
          · rw [if_neg (by omega), hbest]
          · rcases List.mem_append.mp hq' with hq' | hq'
            · exact hmin q' hq' d' hd'
            · rw [List.mem_singleton.mp hq', hp] at hd'
              cases hd'
              omega

theorem above_of_free (h : region.kinds p ≠ .blocked) : placeBasin.above p = some p.up := by
  obtain ⟨value, hvalue, -⟩ := stateAt_of_kinds h
  obtain ⟨-, -, -, height, -, hy, -⟩ := stateAt_eq_some hvalue
  have hheight := height.isLt
  refine if_neg fun he => ?_
  have hmax : p.y.toInt = 2 ^ 31 - 1 := by rw [he]; rfl
  have hworld : worldHeight = 128 := rfl
  omega

-- The depth that the tick works out is what the cell comes to, or the infinite-water rule.
theorem settledDepth_cases (h : region.kinds p = .liquid m d) :
    (m = .water ∧ region.settledDepth m p = some 0) ∨
    ∃ v : Option (Fin 16), region.settledDepth m p = v.map Fin.val ∧
      Settles placeBasin (liquidFluid m) (region.depths m) p v := by
  have hfree : region.kinds p ≠ .blocked := by simp [h]
  have habove := above_of_free hfree
  have hscan := @getHighest_foldl region m p.around
  rw [settledDepth]
  dsimp only at hscan ⊢
  rw [Place.around] at hscan
  generalize [p.west, p.east, p.south, p.north].foldl (region.getHighest m) (-100, 0) = best at *
  split
  · next hrule => exact .inl ⟨hrule.2.1, rfl⟩
  · refine .inr ?_
    cases hup : region.depths m p.up with
    | some k =>
      rw [liquidDepth_some.mpr ⟨k, hup, rfl⟩]
      refine ⟨_, ?_, .falls habove hup⟩
      simp only [Option.map_some, Option.some.injEq, liquidFluid]
      split
      · rfl
      · exact (Nat.mod_eq_of_lt (by omega)).symm
    | none =>
      rw [liquidDepth_none.mpr hup]
      have hdry (a : Place) (ha : placeBasin.above p = some a) : region.depths m a = none := by
        rw [habove] at ha
        cases ha
        exact hup
      simp only
      rcases hscan with ⟨hneg, hnone⟩ | ⟨q, hq, k, hk, hbest, hmin⟩
      · refine ⟨none, if_pos (.inr hneg), .dries hdry fun n k hn hk => ?_⟩
        rw [hnone n hn] at hk
        cases hk
      · have hpos := dropOff_pos m
        by_cases hfed : head k + dropOff m < 8
        · have hval : (Fin.ofNat 16 (head k + dropOff m)).val = head k + dropOff m :=
            Nat.mod_eq_of_lt (by omega)
          refine ⟨some (Fin.ofNat 16 (head k + dropOff m)), ?_, .fed hdry hq hk
            (fun n l hn hl => hmin n hn l hl) (if_pos hfed)⟩
          rw [if_neg (by omega), Option.map_some, hval, hbest]
          congr 1
        · refine ⟨none, if_pos (.inl (by omega)), .dries hdry fun n l hn hl => ?_⟩
          have := hmin n hn l hl
          refine if_neg ?_
          change ¬ head l + dropOff m < 8
          omega

end PopulationNeighborhood

-- One change of what the cells are to the liquids.
inductive LiquidChange (x y : Place → LiquidKind) : Prop
  | blocks {p : Place} (hx : x p ≠ .blocked) (hy : y = Function.update x p .blocked)
  | lava (hb : ∀ q, y q = .blocked ↔ x q = .blocked)
      (hf : Flow placeBasin (liquidFluid .lava) (fun q => (x q).depthIn .lava)
        fun q => (y q).depthIn .lava)
  | source {p : Place} {d : Fin 16} (hx : x p = .liquid .water d) (hd : d ≠ 0)
      (hy : y = Function.update x p (.liquid .water 0))
  | water (hb : ∀ q, y q = .blocked ↔ x q = .blocked)
      (hl : ∀ q, (y q).depthIn .lava = (x q).depthIn .lava)
      (hs : ∀ q, y q = .liquid .water 0 ↔ x q = .liquid .water 0)
      (hf : Flow placeBasin (liquidFluid .water) (fun q => (x q).depthIn .water)
        fun q => (y q).depthIn .water)

abbrev LiquidMeasure : Type :=
  Set Place × (Place → Option (Fin 16)) × Set Place × (Place → Option (Fin 16))

def liquidMeasure (x : Place → LiquidKind) : LiquidMeasure :=
  ({p | x p ≠ .blocked}, fun p => (x p).depthIn .lava, {p | x p ≠ .liquid .water 0},
    fun p => (x p).depthIn .water)

def measureLt : LiquidMeasure → LiquidMeasure → Prop :=
  Prod.Lex (· < ·) (Prod.Lex (fun y x => Flow placeBasin (liquidFluid .lava) x y)
    (Prod.Lex (· < ·) fun y x => Flow placeBasin (liquidFluid .water) x y))

theorem measureLt_wellFounded : WellFounded measureLt :=
  wellFounded_lt.prod_lex (flow_wellFounded.prod_lex (wellFounded_lt.prod_lex flow_wellFounded))

theorem fewer {x y : Place → LiquidKind} {k : LiquidKind} {p : Place} (hx : x p ≠ k)
    (hy : y = Function.update x p k) : {q | y q ≠ k} < {q | x q ≠ k} := by
  refine ⟨fun q hq hxq => hq ?_, fun hle => ?_⟩
  · rw [hy]
    by_cases hqp : q = p
    · rw [hqp, Function.update_self]
    · rw [Function.update_of_ne hqp, hxq]
  · exact hle hx (by rw [hy, Function.update_self])

-- Blocked cells stay blocked; while none comes about, lava comes to rest; while it rests, water
-- only gains sources; and while it gains none, it comes to rest itself.
theorem LiquidChange.measure {x y : Place → LiquidKind} (h : LiquidChange x y) :
    measureLt (liquidMeasure y) (liquidMeasure x) := by
  rw [measureLt, Prod.lex_def, Prod.lex_def, Prod.lex_def]
  simp only [liquidMeasure]
  cases h with
  | @blocks p hx hy =>
    exact .inl (fewer hx hy)
  | lava hb hf => exact .inr ⟨by simp [hb], .inl hf⟩
  | @source p d hx hd hy =>
    have hblocked (q : Place) : y q = .blocked ↔ x q = .blocked := by
      by_cases hqp : q = p
      · simp [hy, hqp, hx]
      · simp [hy, hqp]
    have hlava (q : Place) : (y q).depthIn .lava = (x q).depthIn .lava := by
      by_cases hqp : q = p
      · simp [hy, hqp, hx, LiquidKind.depthIn]
      · simp [hy, hqp]
    have hnew : x p ≠ .liquid .water 0 := by simp [hx, hd]
    exact .inr ⟨by simp [hblocked], .inr ⟨by simp [hlava], .inl (fewer hnew hy)⟩⟩
  | water hb hl hs hf =>
    exact .inr ⟨by simp [hb], .inr ⟨by simp [hl], .inr ⟨by simp [hs], hf⟩⟩⟩

theorem liquidChange_wellFounded : WellFounded fun y x : Place → LiquidKind => LiquidChange x y :=
  Subrelation.wf (fun h => h.measure) (InvImage.wf liquidMeasure measureLt_wellFounded)

end Cobblestone.World
