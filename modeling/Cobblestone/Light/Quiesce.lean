import Cobblestone.Light.Sweep

namespace Cobblestone.Light

open Lib World Mutation Source

variable {world : MainChunkSource} {initial update : LightUpdate} {layer : LightLayer}
  {p q : BlockPos} {state t : Propagation} {rest : List LightUpdate}

def chunkCells (coord : ChunkCoord) : Finset BlockPos :=
  (Finset.range 16 ×ˢ Finset.range 128 ×ˢ Finset.range 16).image fun cell =>
    ⟨16 * coord.x.toInt + cell.1, cell.2.1, 16 * coord.z.toInt + cell.2.2⟩

def residentCells (world : MainChunkSource) : Finset BlockPos := world.chunks.biUnion chunkCells

theorem chunkAt_eq_some {position : ChunkPos} {coord : ChunkCoord} :
    chunkAt world position = some coord ↔ position = coord.pos ∧ coord ∈ world.chunks := by
  unfold chunkAt
  constructor
  · intro h
    split at h
    · cases h
    · next found hfound =>
      split_ifs at h with hin
      cases h
      exact ⟨ChunkPos.coord?_eq_some.mp hfound, hin⟩
  · rintro ⟨hpos, hin⟩
    rw [ChunkPos.coord?_eq_some.mpr hpos]
    exact if_pos hin

theorem chunk_eq (p : BlockPos) : p.chunk = ⟨p.x / 16, p.z / 16⟩ := by
  rw [BlockPos.chunk, ChunkPos.fromBlock, ChunkPos.floorDiv_eq, ChunkPos.floorDiv_eq]

theorem Resident.mem_cells (h : Resident world p) : p ∈ residentCells world := by
  obtain ⟨coord, hcoord⟩ := Option.isSome_iff_exists.mp h.chunk
  obtain ⟨hpos, hin⟩ := chunkAt_eq_some.mp hcoord
  have hy := BlockPos.isInsideWorld_iff.mp h.inside
  rw [chunk_eq, ChunkCoord.pos, ChunkPos.mk.injEq] at hpos
  rw [residentCells, Finset.mem_biUnion]
  refine ⟨coord, hin, ?_⟩
  rw [chunkCells, Finset.mem_image]
  refine ⟨((p.x % 16).toNat, p.y.toNat, (p.z % 16).toNat), ?_, ?_⟩
  · simp only [Finset.mem_product, Finset.mem_range]
    omega
  · obtain ⟨x, y, z⟩ := p
    simp only [BlockPos.mk.injEq] at *
    omega

theorem Resident.integers (h : Resident world p) :
    phpInt (p.x - 1) && phpInt (p.x + 1) && phpInt (p.z - 1) && phpInt (p.z + 1) := by
  obtain ⟨coord, hcoord⟩ := Option.isSome_iff_exists.mp h.chunk
  have hpos := (chunkAt_eq_some.mp hcoord).1
  rw [chunk_eq, ChunkCoord.pos, ChunkPos.mk.injEq] at hpos
  have hx := coord.x.le_toInt
  have hx' := coord.x.toInt_lt
  have hz := coord.z.le_toInt
  have hz' := coord.z.toInt_lt
  simp only [phpInt, Bool.and_eq_true, decide_eq_true_eq]
  omega

-- Every queued update, and six more for every change that may still come.
def stir (world : MainChunkSource) (layer : LightLayer) (state : Propagation) : Nat :=
  state.queue.length + 7 * (lightField world layer).potential (residentCells world) maxLightLevel
    (lightLevel world state.access.staged layer)

theorem LightPropagator.CellStep.stir_le {maxY : Int} (h : Faithful world state.access) (hp : Surrounded world p)
    (hcell : CellStep world update maxY p state t) :
    stir world update.layer t ≤ stir world update.layer state := by
  obtain ⟨added, hadded, hfew, -⟩ := hcell.grows
  rcases hcell.relaxed with ⟨-, hstaged, hqueue⟩ | ⟨hne, hstaged, -⟩
  · rw [stir, stir, hstaged, hqueue]
  · have hfall := Radiance.potential_relaxed_lt hp.resident.mem_cells hne
      (lightLevel_le h update.layer p) (value_le_max h update.layer p)
    rw [stir, stir, hstaged, lightLevel_set hp.inside, hadded, List.length_append]
    omega

structure Queued (world : MainChunkSource) (initial : LightUpdate) (state : Propagation) : Prop where
  faithful : Faithful world state.access
  pending : ∀ u ∈ state.pending, u ∈ state.queue
  updates : ∀ u ∈ state.queue, u = initial ∨ PointOf world initial.layer u

theorem Queued.layer_eq (h : Queued world initial state) {u : LightUpdate} (hu : u ∈ state.queue) :
    u.layer = initial.layer := by
  rcases h.updates u hu with rfl | ⟨q, rfl, -⟩
  · rfl
  · rfl

theorem queued_start (world : MainChunkSource) (initial : LightUpdate) :
    Queued world initial (LightEngine.start initial) where
  faithful := faithful_new
  pending _ hu := List.mem_singleton.mpr (Finset.mem_singleton.mp hu)
  updates _ hu := .inl (List.mem_singleton.mp hu)

theorem Queued.step {maxY : Int} (h : Queued world initial state) (hlayer : update.layer = initial.layer)
    (hcell : LightPropagator.CellStep world update maxY p state t) : Queued world initial t where
  faithful := hcell.faithful
  pending := hcell.pending
  updates u hu := by
    obtain ⟨added, hadded, -, hpoints⟩ := hcell.grows
    rw [hadded] at hu
    rcases List.mem_append.mp hu with hu | hu
    · exact h.updates u hu
    · exact .inr (hlayer ▸ hpoints u hu)

def dequeued (state : Propagation) (update : LightUpdate) (rest : List LightUpdate) : Propagation :=
  { state with queue := rest, pending := state.pending.erase update }

theorem Queued.dequeued (h : Queued world initial state) (hqueue : state.queue = update :: rest) :
    Queued world initial (dequeued state update rest) where
  faithful := h.faithful
  pending u hu := by
    obtain ⟨hne, hu⟩ := Finset.mem_erase.mp hu
    have hin := h.pending u hu
    rw [hqueue] at hin
    exact (List.mem_cons.mp hin).resolve_left hne
  updates u hu := h.updates u (by rw [hqueue]; exact List.mem_cons_of_mem _ hu)

-- The region and its neighbours keep within the integers.
structure WithinIntegers (initial : LightUpdate) : Prop where
  west : -2 ^ 63 < initial.min.x
  east : initial.max.x + 1 < 2 ^ 63
  north : -2 ^ 63 < initial.min.z
  south : initial.max.z + 1 < 2 ^ 63

theorem no_overflow (hinitial : WithinIntegers initial)
    (hu : update = initial ∨ PointOf world initial.layer update) {x z : Int} {e : LightError}
    (hx : update.min.x ≤ x) (hx' : x ≤ update.max.x) (hz : update.min.z ≤ z) (hz' : z ≤ update.max.z) :
    WorldLightAccess.neighborhoodAvailable world ⟨x, update.min.y, z⟩ ≠ .error e := by
  have hints : (phpInt (x - 1) && phpInt (x + 1) && phpInt (z - 1) && phpInt (z + 1)) = true := by
    rcases hu with rfl | ⟨q, rfl, hq⟩
    · have hwest := hinitial.west
      have heast := hinitial.east
      have hnorth := hinitial.north
      have hsouth := hinitial.south
      simp only [phpInt, Bool.and_eq_true, decide_eq_true_eq]
      omega
    · have hqx : x = q.x := le_antisymm hx' hx
      have hqz : z = q.z := le_antisymm hz' hz
      rw [hqx, hqz]
      exact hq.integers
  rw [WorldLightAccess.neighborhoodAvailable, if_pos hints]
  exact nofun

def Unsupported (world : MainChunkSource) (initial : LightUpdate) : Prop :=
  ¬ (Readable world ∧ WithinIntegers initial)

-- One update of the queue: what every cell keeps on the way through the region, the update keeps.
theorem process_rule {I : List BlockPos → Propagation → Prop} (h : Queued world initial state)
    (hqueue : state.queue = update :: rest)
    (hstep : ∀ p cells t u, p :: cells <:+ regionCells update → Surrounded world p →
      Queued world initial t → I (p :: cells) t →
      LightPropagator.CellStep world update (highestY update) p t u → I cells u)
    (hskip : ∀ p cells t, ¬ Surrounded world p → I (p :: cells) t → I cells t)
    (hstart : I (regionCells update) (dequeued state update rest)) :
    (∀ t, LightEngine.process world update rest state = .ok t → Queued world initial t ∧ I [] t) ∧
      ∀ e, LightEngine.process world update rest state = .error e → Unsupported world initial := by
  have hin : update ∈ state.queue := by
    rw [hqueue]
    exact List.mem_cons_self
  have hsweep : Outcome (fun _ t => Queued world initial t ∧ I [] t) (Unsupported world initial)
      (LightPropagator.apply world update (dequeued state update rest)) := by
    refine apply_outcome (I := fun cells t => Queued world initial t ∧ I cells t) ?_ ?_ ?_
      ⟨h.dequeued hqueue, hstart⟩
    · intro x z e hx hx' hz hz' he hsupported
      exact no_overflow hsupported.2 (h.updates update hin) hx hx' hz hz' he
    · intro p cells t hsuffix hp ht
      refine Attempt.outcome_mono (Attempt.outcome_weaken
        (LightPropagator.applyCell_outcome update (highestY update) ht.1.faithful ht.1.pending hp)
        fun hunreadable hsupported => hunreadable hsupported.1) fun _ u hu => ?_
      exact ⟨ht.1.step (h.layer_eq hin) hu, hstep p cells t u hsuffix hp ht.1 ht.2 hu⟩
    · exact fun p cells t hp ht => ⟨ht.1, hskip p cells t hp ht.2⟩
  rw [LightEngine.process]
  change Outcome _ _ (LightPropagator.apply world update
    { state with queue := rest, pending := state.pending.erase update }) at hsweep
  generalize LightPropagator.apply world update
    { state with queue := rest, pending := state.pending.erase update } = result at hsweep
  cases result with
  | error e => exact ⟨nofun, fun _ _ => hsweep⟩
  | ok result =>
    refine ⟨fun t ht => ?_, nofun⟩
    cases ht
    exact hsweep

theorem process_stir_lt (h : Queued world initial state) (hqueue : state.queue = update :: rest)
    (ht : LightEngine.process world update rest state = .ok t) :
    Queued world initial t ∧ stir world initial.layer t < stir world initial.layer state := by
  have hlayer := h.layer_eq (hqueue ▸ List.mem_cons_self : update ∈ state.queue)
  have hrule := process_rule (I := fun _ t => stir world initial.layer t ≤
    stir world initial.layer (dequeued state update rest)) h hqueue ?_ (fun _ _ _ _ ht => ht) le_rfl
  · obtain ⟨hqueued, hstir⟩ := hrule.1 t ht
    refine ⟨hqueued, Nat.lt_of_le_of_lt hstir ?_⟩
    simp only [stir, dequeued, hqueue, List.length_cons]
    omega
  · intro p cells t u _ hp hqueued hle hcell
    have hstir := hcell.stir_le hqueued.faithful hp
    rw [hlayer] at hstir
    exact hstir.trans hle

theorem process_error (h : Queued world initial state) (hqueue : state.queue = update :: rest)
    {e : LightError} (he : LightEngine.process world update rest state = .error e) :
    Unsupported world initial :=
  (process_rule (I := fun _ _ => True) h hqueue (fun _ _ _ _ _ _ _ _ _ => trivial)
    (fun _ _ _ _ _ => trivial) trivial).2 e he

inductive Processed (world : MainChunkSource) : Nat → Propagation → Propagation → Prop
  | done (state : Propagation) : Processed world 0 state state
  | next {n : Nat} {state t u : Propagation} {update : LightUpdate} {rest : List LightUpdate}
      (hqueue : state.queue = update :: rest)
      (hprocess : LightEngine.process world update rest state = .ok t)
      (hrest : Processed world n t u) : Processed world (n + 1) state u

theorem Processed.count_le {n : Nat} (hrun : Processed world n state t)
    (h : Queued world initial state) : n + stir world initial.layer t ≤ stir world initial.layer state := by
  induction hrun with
  | done state => exact (Nat.zero_add _).le
  | next hqueue hprocess _ ih =>
    obtain ⟨hqueued, hlt⟩ := process_stir_lt h hqueue hprocess
    have := ih hqueued
    omega

-- A run with enough budget ends with nothing queued, or in what one update throws.
theorem drain_cases (budget : Int) {left : Nat} (done : Nat) (h : Queued world initial state)
    (hleft : stir world initial.layer state ≤ left) :
    (∃ n t, Processed world n state t ∧ t.queue = [] ∧
      LightEngine.drain world budget left done state = .ok (done + n, t)) ∨
    ∃ n t update rest e, Processed world n state t ∧ t.queue = update :: rest ∧
      LightEngine.process world update rest t = .error e ∧ Unsupported world initial ∧
      LightEngine.drain world budget left done state = .error e := by
  induction left generalizing state done with
  | zero =>
    have hempty : state.queue = [] := by
      rw [stir] at hleft
      exact List.eq_nil_of_length_eq_zero (by omega)
    refine .inl ⟨0, state, .done state, hempty, ?_⟩
    rw [LightEngine.drain, hempty]
    rfl
  | succ left ih =>
    rw [LightEngine.drain]
    cases hqueue : state.queue with
    | nil => exact .inl ⟨0, state, .done state, hqueue, rfl⟩
    | cons update rest =>
      dsimp only
      cases hprocess : LightEngine.process world update rest state with
      | error e =>
        exact .inr ⟨0, state, update, rest, e, .done state, hqueue, hprocess,
          process_error h hqueue hprocess, rfl⟩
      | ok t =>
        obtain ⟨hqueued, hlt⟩ := process_stir_lt h hqueue hprocess
        rcases ih (done + 1) hqueued (by omega) with
          ⟨n, u, hrun, hempty, hdrain⟩ | ⟨n, u, update', rest', e, hrun, hrest, herror, hbad, hdrain⟩
        · refine .inl ⟨n + 1, u, .next hqueue hprocess hrun, hempty, hdrain.trans ?_⟩
          rw [Nat.add_assoc, Nat.add_comm 1]
        · exact .inr ⟨n + 1, u, update', rest', e, .next hqueue hprocess hrun, hrest, herror, hbad,
            hdrain⟩

theorem light_engine_quiesces (world : MainChunkSource) (initial : LightUpdate) :
    ∃ bound, (∀ n t, Processed world n (LightEngine.start initial) t → n ≤ bound) ∧
      ∀ budget left, bound ≤ left →
        (∃ n t, Processed world n (LightEngine.start initial) t ∧ t.queue = [] ∧
          LightEngine.drain world budget left 0 (LightEngine.start initial) = .ok (n, t)) ∨
        ∃ n t update rest e, Processed world n (LightEngine.start initial) t ∧
          t.queue = update :: rest ∧ LightEngine.process world update rest t = .error e ∧
          Unsupported world initial ∧
          LightEngine.drain world budget left 0 (LightEngine.start initial) = .error e := by
  have hqueued := queued_start world initial
  refine ⟨stir world initial.layer (LightEngine.start initial), fun n t hrun => ?_,
    fun budget left hleft => ?_⟩
  · have := hrun.count_le hqueued
    omega
  · have hcases := drain_cases budget 0 hqueued hleft
    simpa only [Nat.zero_add] using hcases

end Cobblestone.Light
