import Cobblestone.World.Store

namespace Cobblestone.Session

open Lib World

def saturate (n : Int) : Int := max Int32.minValue.toInt (min Int32.maxValue.toInt n)

def lowerBound (center radius : Int32) : Int := saturate (center.toInt - radius.toInt)

def upperBound (center radius : Int32) : Int := saturate (center.toInt + radius.toInt)

def viewContains (center : ChunkCoord) (radius : Int32) (position : ChunkCoord) : Bool :=
  decide (lowerBound center.x radius ≤ position.x.toInt) &&
    decide (position.x.toInt ≤ upperBound center.x radius) &&
    decide (lowerBound center.z radius ≤ position.z.toInt) &&
    decide (position.z.toInt ≤ upperBound center.z radius)

-- The inclusive range `low..=high`.
def inclusive (low high : Int) : List Int32 :=
  (List.range (high + 1 - low).toNat).map fun i : Nat => Int32.ofInt (low + (i : Int))

def viewPositions (center : ChunkCoord) (radius : Int32) : List ChunkCoord :=
  (inclusive (lowerBound center.z radius) (upperBound center.z radius)).flatMap fun z =>
    (inclusive (lowerBound center.x radius) (upperBound center.x radius)).map fun x => ⟨x, z⟩

def initialSendPositions (center : ChunkCoord) (radius : Int32) : List ChunkCoord :=
  (inclusive (lowerBound center.x radius) (upperBound center.x radius)).flatMap fun x =>
    (inclusive (lowerBound center.z radius) (upperBound center.z radius)).map fun z => ⟨x, z⟩

-- A stable sort by the distance key that the float arithmetic yields.
def prioritizeForPlayer (priority : ChunkCoord → Int32) (positions : List ChunkCoord) :
    List ChunkCoord :=
  positions.mergeSort fun a b => decide ((priority a).toInt ≤ (priority b).toInt)

structure ChunkViewTransition where
  fromCenter : ChunkCoord
  toCenter : ChunkCoord
  fromRadius : Int32
  toRadius : Int32
  entering : List ChunkCoord
  leaving : List ChunkCoord
deriving DecidableEq

def chunkViewTransition (fromCenter : ChunkCoord) (fromRadius : Int32) (toCenter : ChunkCoord)
    (toRadius : Int32) : Option ChunkViewTransition :=
  if fromCenter = toCenter ∧ fromRadius = toRadius then none
  else some {
    fromCenter := fromCenter
    toCenter := toCenter
    fromRadius := fromRadius
    toRadius := toRadius
    entering := (viewPositions toCenter toRadius).filter fun p => !viewContains fromCenter fromRadius p
    leaving := (viewPositions fromCenter fromRadius).filter fun p => !viewContains toCenter toRadius p }

theorem saturate_bounds (n : Int) :
    Int32.minValue.toInt ≤ saturate n ∧ saturate n ≤ Int32.maxValue.toInt := by
  have hle : Int32.minValue.toInt ≤ Int32.maxValue.toInt := by decide
  simp only [saturate]
  omega

theorem mem_inclusive {low high : Int} (hlow : Int32.minValue.toInt ≤ low)
    (hhigh : high ≤ Int32.maxValue.toInt) {n : Int32} :
    n ∈ inclusive low high ↔ low ≤ n.toInt ∧ n.toInt ≤ high := by
  have hmin : Int32.minValue.toInt = -2147483648 := by decide
  have hmax : Int32.maxValue.toInt = 2147483647 := by decide
  simp only [inclusive, List.mem_map, List.mem_range]
  constructor
  · rintro ⟨i, hi, rfl⟩
    rw [Int32.toInt_ofInt_of_le (by omega) (by omega)]
    omega
  · rintro ⟨hl, hh⟩
    refine ⟨(n.toInt - low).toNat, by omega, ?_⟩
    have hsum : low + ((n.toInt - low).toNat : Int) = n.toInt := by omega
    rw [hsum, Int32.ofInt_toInt]

theorem nodup_inclusive {low high : Int} (hlow : Int32.minValue.toInt ≤ low)
    (hhigh : high ≤ Int32.maxValue.toInt) : (inclusive low high).Nodup := by
  have hmin : Int32.minValue.toInt = -2147483648 := by decide
  have hmax : Int32.maxValue.toInt = 2147483647 := by decide
  refine List.Nodup.map_on ?_ List.nodup_range
  intro i hi j hj h
  rw [List.mem_range] at hi hj
  have h' := congrArg Int32.toInt h
  rw [Int32.toInt_ofInt_of_le (by omega) (by omega),
    Int32.toInt_ofInt_of_le (by omega) (by omega)] at h'
  omega

section

variable {center : ChunkCoord} {radius : Int32} {p : ChunkCoord}

theorem mem_inclusive_bounds {c n : Int32} :
    n ∈ inclusive (lowerBound c radius) (upperBound c radius) ↔
      lowerBound c radius ≤ n.toInt ∧ n.toInt ≤ upperBound c radius :=
  mem_inclusive (saturate_bounds _).1 (saturate_bounds _).2

theorem nodup_bounds (c : Int32) : (inclusive (lowerBound c radius) (upperBound c radius)).Nodup :=
  nodup_inclusive (saturate_bounds _).1 (saturate_bounds _).2

theorem mem_viewPositions : p ∈ viewPositions center radius ↔ viewContains center radius p = true := by
  simp only [viewPositions, List.mem_flatMap, List.mem_map, mem_inclusive_bounds, viewContains,
    Bool.and_eq_true, decide_eq_true_eq]
  constructor
  · rintro ⟨z, hz, x, hx, rfl⟩
    exact ⟨⟨⟨hx.1, hx.2⟩, hz.1⟩, hz.2⟩
  · rintro ⟨⟨⟨h1, h2⟩, h3⟩, h4⟩
    exact ⟨p.z, ⟨h3, h4⟩, p.x, ⟨h1, h2⟩, rfl⟩

theorem mem_initialSendPositions :
    p ∈ initialSendPositions center radius ↔ viewContains center radius p = true := by
  simp only [initialSendPositions, List.mem_flatMap, List.mem_map, mem_inclusive_bounds,
    viewContains, Bool.and_eq_true, decide_eq_true_eq]
  constructor
  · rintro ⟨x, hx, z, hz, rfl⟩
    exact ⟨⟨⟨hx.1, hx.2⟩, hz.1⟩, hz.2⟩
  · rintro ⟨⟨⟨h1, h2⟩, h3⟩, h4⟩
    exact ⟨p.x, ⟨h1, h2⟩, p.z, ⟨h3, h4⟩, rfl⟩

theorem nodup_viewPositions : (viewPositions center radius).Nodup := by
  refine List.nodup_flatMap.mpr ⟨fun z _ => ?_, ?_⟩
  · refine (nodup_bounds center.x).map fun a b h => ?_
    exact congrArg ChunkCoord.x h
  · refine (nodup_bounds center.z).imp fun {a b} hab => ?_
    simp only [Function.onFun, List.disjoint_left, List.mem_map]
    rintro q ⟨x, -, rfl⟩ ⟨x', -, h⟩
    exact hab (congrArg ChunkCoord.z h).symm

theorem nodup_initialSendPositions : (initialSendPositions center radius).Nodup := by
  refine List.nodup_flatMap.mpr ⟨fun x _ => ?_, ?_⟩
  · refine (nodup_bounds center.z).map fun a b h => ?_
    exact congrArg ChunkCoord.z h
  · refine (nodup_bounds center.x).imp fun {a b} hab => ?_
    simp only [Function.onFun, List.disjoint_left, List.mem_map]
    rintro q ⟨z, -, rfl⟩ ⟨z', -, h⟩
    exact hab (congrArg ChunkCoord.x h).symm

theorem initialSendPositions_perm :
    (initialSendPositions center radius).Perm (viewPositions center radius) := by
  rw [List.perm_ext_iff_of_nodup nodup_initialSendPositions nodup_viewPositions]
  intro q
  rw [mem_viewPositions, mem_initialSendPositions]

theorem prioritizeForPlayer_perm (priority : ChunkCoord → Int32) (positions : List ChunkCoord) :
    (prioritizeForPlayer priority positions).Perm positions :=
  List.mergeSort_perm ..

end

end Cobblestone.Session
