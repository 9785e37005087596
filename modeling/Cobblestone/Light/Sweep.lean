import Cobblestone.Light.Cell

namespace Cobblestone.Light

open Lib World Mutation Source

variable {world : MainChunkSource} {update : LightUpdate} {p q : BlockPos} {state : Propagation}

theorem mem_upTo {first last n : Int} : n ∈ upTo first last ↔ first ≤ n ∧ n ≤ last := by
  simp only [upTo, List.mem_map, List.mem_range]
  constructor
  · rintro ⟨i, hi, rfl⟩
    omega
  · intro h
    exact ⟨(n - first).toNat, by omega, by omega⟩

theorem upTo_ascending (first last : Int) : (upTo first last).Pairwise (· < ·) := by
  rw [upTo, List.pairwise_map]
  exact List.pairwise_lt_range.imp fun h => by omega

def lowestY (update : LightUpdate) : Int := max update.min.y World.minY

def highestY (update : LightUpdate) : Int := min update.max.y World.maxY

def columnCells (update : LightUpdate) (x z : Int) : List BlockPos :=
  (upTo (lowestY update) (highestY update)).map fun y => ⟨x, y, z⟩

def rowCells (update : LightUpdate) (x : Int) : List BlockPos :=
  (upTo update.min.z update.max.z).flatMap (columnCells update x)

-- The cells of a region, in the order in which the propagator visits them.
def regionCells (update : LightUpdate) : List BlockPos :=
  (upTo update.min.x update.max.x).flatMap (rowCells update)

theorem mem_column {x z : Int} : p ∈ columnCells update x z ↔
    p.x = x ∧ p.z = z ∧ lowestY update ≤ p.y ∧ p.y ≤ highestY update := by
  rw [columnCells, List.mem_map]
  constructor
  · rintro ⟨y, hy, rfl⟩
    exact ⟨rfl, rfl, mem_upTo.mp hy⟩
  · rintro ⟨rfl, rfl, hy⟩
    exact ⟨p.y, mem_upTo.mpr hy, rfl⟩

theorem mem_row {x : Int} : p ∈ rowCells update x ↔ p.x = x ∧ update.min.z ≤ p.z ∧
    p.z ≤ update.max.z ∧ lowestY update ≤ p.y ∧ p.y ≤ highestY update := by
  simp only [rowCells, List.mem_flatMap, mem_upTo, mem_column]
  constructor
  · rintro ⟨z, ⟨hmin, hmax⟩, hx, rfl, hy⟩
    exact ⟨hx, hmin, hmax, hy⟩
  · rintro ⟨hx, hmin, hmax, hy⟩
    exact ⟨p.z, ⟨hmin, hmax⟩, hx, rfl, hy⟩

theorem mem_cells : p ∈ regionCells update ↔ update.min.x ≤ p.x ∧ p.x ≤ update.max.x ∧
    update.min.z ≤ p.z ∧ p.z ≤ update.max.z ∧ lowestY update ≤ p.y ∧ p.y ≤ highestY update := by
  simp only [regionCells, List.mem_flatMap, mem_upTo, mem_row]
  constructor
  · rintro ⟨x, ⟨hmin, hmax⟩, rfl, h⟩
    exact ⟨hmin, hmax, h⟩
  · rintro ⟨hmin, hmax, h⟩
    exact ⟨p.x, ⟨hmin, hmax⟩, rfl, h⟩

theorem inside_of_mem_cells (h : p ∈ regionCells update) : p.isInsideWorld = true := by
  rw [mem_cells, lowestY, highestY] at h
  simp only [World.minY, World.maxY, worldHeight] at h
  rw [BlockPos.isInsideWorld_iff]
  omega

def Before (p q : BlockPos) : Prop :=
  p.x < q.x ∨ p.x = q.x ∧ (p.z < q.z ∨ p.z = q.z ∧ p.y < q.y)

theorem cells_ordered (update : LightUpdate) : (regionCells update).Pairwise Before := by
  rw [regionCells, List.pairwise_flatMap]
  refine ⟨fun x _ => ?_, (upTo_ascending _ _).imp fun hx p hp q hq => ?_⟩
  · rw [rowCells, List.pairwise_flatMap]
    refine ⟨fun z _ => ?_, (upTo_ascending _ _).imp fun hz p hp q hq => ?_⟩
    · rw [columnCells, List.pairwise_map]
      exact (upTo_ascending _ _).imp fun hy => .inr ⟨rfl, .inr ⟨rfl, hy⟩⟩
    · obtain ⟨hpx, hpz, -⟩ := mem_column.mp hp
      obtain ⟨hqx, hqz, -⟩ := mem_column.mp hq
      exact .inr ⟨by omega, .inl (by omega)⟩
  · have hpx := (mem_row.mp hp).1
    have hqx := (mem_row.mp hq).1
    exact .inl (by omega)

-- What comes later in the order of the visit is still ahead.
theorem ahead_of_before {rest : List BlockPos} (hsuffix : p :: rest <:+ regionCells update)
    (hq : q ∈ regionCells update) (hbefore : Before p q) : q ∈ rest := by
  obtain ⟨done, hdone⟩ := hsuffix
  have hordered := cells_ordered update
  rw [← hdone] at hq hordered
  rcases List.mem_append.mp hq with hq | hq
  · have hqp := (List.pairwise_append.mp hordered).2.2 q hq p (by simp)
    simp only [Before] at hbefore hqp
    omega
  · rcases List.mem_cons.mp hq with rfl | hq
    · simp only [Before] at hbefore
      omega
    · exact hq

theorem available_iff {x y z : Int} {available : Bool}
    (h : WorldLightAccess.neighborhoodAvailable world ⟨x, y, z⟩ = .ok available)
    (hp : p.isInsideWorld = true) (hx : p.x = x) (hz : p.z = z) :
    available = true ↔ Surrounded world p := by
  subst hx hz
  unfold WorldLightAccess.neighborhoodAvailable at h
  split_ifs at h
  cases h
  simp only [List.all_cons, List.all_nil, Bool.and_true, Bool.and_eq_true]
  constructor
  · rintro ⟨hhere, hwest, heast, hnorth, hsouth⟩
    exact ⟨hp, hhere, hwest, heast, hnorth, hsouth⟩
  · intro h
    exact ⟨h.here, h.west, h.east, h.north, h.south⟩

section Rule

variable {I : List BlockPos → Propagation → Prop} {E : Prop}
  (hoverflow : ∀ x z e, update.min.x ≤ x → x ≤ update.max.x → update.min.z ≤ z → z ≤ update.max.z →
    WorldLightAccess.neighborhoodAvailable world ⟨x, update.min.y, z⟩ = .error e → E)
  (hstep : ∀ p rest t, p :: rest <:+ regionCells update → Surrounded world p → I (p :: rest) t →
    Outcome (fun _ => I rest) E (LightPropagator.applyCell world update (highestY update) p t))
  (hskip : ∀ p rest t, ¬ Surrounded world p → I (p :: rest) t → I rest t)

include hskip

theorem skip_cells {cells rest : List BlockPos} (hclosed : ∀ p ∈ cells, ¬ Surrounded world p)
    (h : I (cells ++ rest) state) : I rest state := by
  induction cells with
  | nil => exact h
  | cons p cells ih =>
    exact ih (fun q hq => hclosed q (List.mem_cons_of_mem p hq)) (hskip p _ state (hclosed p (by simp)) h)

include hoverflow hstep

theorem column_outcome {x z : Int} (hx : update.min.x ≤ x ∧ x ≤ update.max.x)
    (hz : update.min.z ≤ z ∧ z ≤ update.max.z) (rest : List BlockPos)
    (hsuffix : columnCells update x z ++ rest <:+ regionCells update)
    (h : I (columnCells update x z ++ rest) state) :
    Outcome (fun _ => I rest) E
      (LightPropagator.applyColumn world update (lowestY update) (highestY update) x z state) := by
  have hcell : ∀ p ∈ columnCells update x z, p.isInsideWorld = true ∧ p.x = x ∧ p.z = z :=
    fun p hp => ⟨inside_of_mem_cells (hsuffix.subset (List.mem_append_left _ hp)),
      (mem_column.mp hp).1, (mem_column.mp hp).2.1⟩
  rw [LightPropagator.applyColumn]
  cases havailable : WorldLightAccess.neighborhoodAvailable world ⟨x, update.min.y, z⟩ with
  | error e => exact hoverflow x z e hx.1 hx.2 hz.1 hz.2 havailable
  | ok available =>
    have hiff : ∀ p ∈ columnCells update x z, (available = true ↔ Surrounded world p) :=
      fun p hp => available_iff havailable (hcell p hp).1 (hcell p hp).2.1 (hcell p hp).2.2
    cases available with
    | false => exact skip_cells hskip (fun p hp hopen => nomatch (hiff p hp).mpr hopen) h
    | true =>
      have hpart : columnCells update x z = (upTo (lowestY update) (highestY update)).flatMap
          fun y => [(⟨x, y, z⟩ : BlockPos)] := List.map_eq_flatMap
      have hopen : ∀ y ∈ upTo (lowestY update) (highestY update), Surrounded world ⟨x, y, z⟩ :=
        fun y hy => (hiff ⟨x, y, z⟩ (List.mem_map_of_mem hy)).mp rfl
      rw [hpart] at hsuffix h
      exact Attempt.outcome_forM (fun y => [(⟨x, y, z⟩ : BlockPos)]) rest
        (fun y hy rest t hrest hinv => hstep _ rest t hrest (hopen y hy) hinv) hsuffix h

theorem apply_outcome (h : I (regionCells update) state) :
    Outcome (fun _ => I []) E (LightPropagator.apply world update state) := by
  rw [LightPropagator.apply]
  split_ifs with hempty
  · refine Attempt.outcome_pure ?_
    have hnone : regionCells update = [] := by
      refine List.eq_nil_iff_forall_not_mem.mpr fun p hp => ?_
      have := (mem_cells.mp hp).2.2.2.2
      simp only [lowestY, highestY] at this
      omega
    rwa [hnone] at h
  · rw [← List.append_nil (regionCells update)] at h
    refine Attempt.outcome_forM (rowCells update) []
      (fun x hx rest t hrest hinv => ?_) (by rw [List.append_nil]) h
    refine Attempt.outcome_forM (columnCells update x) rest
      (fun z hz rest t hrest hinv => ?_) hrest hinv
    exact column_outcome hoverflow hstep hskip (mem_upTo.mp hx) (mem_upTo.mp hz) rest hrest hinv

end Rule

end Cobblestone.Light
