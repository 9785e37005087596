import Cobblestone.Light.Engine

namespace Cobblestone.Light

open Lib World Mutation Source Storage

variable (world : MainChunkSource)

def snapshotAt (position : ChunkPos) : Option Mutation.ChunkSnapshot :=
  (chunkAt world position).bind fun coord =>
    (Chunk.snapshot world.nativeStore.store coord).toOption

def blockAt (p : BlockPos) : Option UInt16 :=
  if p.isInsideWorld then
    (snapshotAt world p.chunk).bind fun snapshot =>
      snapshot.blockStateId p.localX p.y.toNat p.localZ
  else none

def propertiesAt (p : BlockPos) : Option BlockLightProperties :=
  (blockAt world p).bind fun stateId => propertiesForStateId stateId.toNat

def storedAt (layer : LightLayer) (p : BlockPos) : Option Nat :=
  if p.isInsideWorld then (snapshotAt world p.chunk).bind (WorldLightAccess.lightOf layer p)
  else none

def skyAt (p : BlockPos) : Option Bool :=
  if p.isInsideWorld then
    (snapshotAt world p.chunk).bind fun snapshot => WorldLightAccess.exposed snapshot p
      (List.range' (p.y.toNat + 1) (worldHeight - (p.y.toNat + 1)))
  else none

abbrev Staged := OrderedMap (LightLayer × BlockPos) Nat

def levelAt (staged : Staged) (layer : LightLayer) (p : BlockPos) : Option Nat :=
  if p.isInsideWorld then
    match staged.get? (layer, p) with
    | some level => some level
    | none => storedAt world layer p
  else none

-- Every resident chunk can be read and holds catalogued blocks only.
def Readable : Prop := ∀ position coord, chunkAt world position = some coord →
  ∃ snapshot, Chunk.snapshot world.nativeStore.store coord = .ok snapshot ∧
    ∀ x y z stateId, snapshot.blockStateId x y z = some stateId →
      (propertiesForStateId stateId.toNat).isSome

structure Faithful (access : WorldLightAccess) : Prop where
  snapshots : ∀ position snapshot, access.snapshots.get? position = some snapshot →
    snapshotAt world position = some snapshot
  staged : ∀ layer p level, access.staged.get? (layer, p) = some level →
    level ≤ maxLightLevel ∧ (storedAt world layer p).isSome

def Answers {α : Type} (access : WorldLightAccess) (v a : α) (t : WorldLightAccess) : Prop :=
  a = v ∧ t.staged = access.staged ∧ Faithful world t

variable {world} {access : WorldLightAccess} {position : ChunkPos} {p : BlockPos}
  {layer : LightLayer} {α β : Type}

theorem faithful_new : Faithful world .new := ⟨nofun, nofun⟩

theorem answers_pure (h : Faithful world access) {E : Prop} (v : α) :
    Outcome (Answers world access v) E ((pure v : Access α) access) := ⟨rfl, rfl, h⟩

theorem answers_bind {m : Access α} {f : α → Access β} {v : α} {w : β} {E : Prop}
    (hm : Outcome (Answers world access v) E (m access))
    (hf : ∀ t, Faithful world t → Outcome (Answers world t w) E (f v t)) :
    Outcome (Answers world access w) E ((m >>= f) access) := by
  refine Attempt.outcome_bind hm fun a t ⟨hv, hstaged, ht⟩ => ?_
  subst hv
  refine Attempt.outcome_mono (hf t ht) fun b u ⟨hw, hu, hfaithful⟩ => ?_
  exact ⟨hw, hu.trans hstaged, hfaithful⟩

theorem snapshotAt_of_chunk {coord : ChunkCoord} (h : chunkAt world position = some coord) :
    snapshotAt world position = (Chunk.snapshot world.nativeStore.store coord).toOption := by
  rw [snapshotAt, h]
  rfl

theorem snapshot_answers (h : Faithful world access) (position : ChunkPos) :
    Outcome (Answers world access (snapshotAt world position)) (¬ Readable world)
      (WorldLightAccess.snapshot world position access) := by
  unfold WorldLightAccess.snapshot
  split
  · next snapshot hcached => exact ⟨(h.snapshots position snapshot hcached).symm, rfl, h⟩
  · split
    · next hnone => exact ⟨by rw [snapshotAt, hnone]; rfl, rfl, h⟩
    · next coord hcoord =>
      split
      · next e he =>
        intro hreadable
        obtain ⟨snapshot, hok, -⟩ := hreadable position coord hcoord
        rw [he] at hok
        cases hok
      · next snapshot hok =>
        have hat : snapshotAt world position = some snapshot := by
          rw [snapshotAt_of_chunk hcoord, hok]
          rfl
        refine ⟨hat.symm, rfl, fun q found hq => ?_, h.staged⟩
        rw [OrderedMap.get?_set] at hq
        split_ifs at hq with hqp
        · cases hq
          rw [hqp, hat]
        · exact h.snapshots q found hq

theorem blockStateId_answers (h : Faithful world access) (p : BlockPos) :
    Outcome (Answers world access (blockAt world p)) (¬ Readable world)
      (WorldLightAccess.blockStateId world p access) := by
  unfold WorldLightAccess.blockStateId blockAt
  split_ifs
  · exact answers_bind (snapshot_answers h p.chunk) fun t ht => answers_pure ht _
  · exact answers_pure h none

theorem authoritativeLight_answers (h : Faithful world access) (layer : LightLayer) (p : BlockPos) :
    Outcome (Answers world access (storedAt world layer p)) (¬ Readable world)
      (WorldLightAccess.authoritativeLight world layer p access) := by
  unfold WorldLightAccess.authoritativeLight storedAt
  split_ifs
  · exact answers_bind (snapshot_answers h p.chunk) fun t ht => answers_pure ht _
  · exact answers_pure h none

theorem canSeeSky_answers (h : Faithful world access) (p : BlockPos) :
    Outcome (Answers world access (skyAt world p)) (¬ Readable world)
      (WorldLightAccess.canSeeSky world p access) := by
  unfold WorldLightAccess.canSeeSky skyAt
  split_ifs
  · exact answers_bind (snapshot_answers h p.chunk) fun t ht => answers_pure ht _
  · exact answers_pure h none

theorem storedLight_answers (h : Faithful world access) (layer : LightLayer) (p : BlockPos) :
    Outcome (Answers world access (levelAt world access.staged layer p)) (¬ Readable world)
      (WorldLightAccess.storedLight world layer p access) := by
  unfold WorldLightAccess.storedLight levelAt
  split_ifs
  · rw [Attempt.bind_apply]
    change Outcome _ _ ((match access.staged.get? (layer, p) with
      | some level => pure (some level)
      | none => WorldLightAccess.authoritativeLight world layer p : Access (Option Nat)) access)
    cases access.staged.get? (layer, p) with
    | some level => exact answers_pure h _
    | none => exact authoritativeLight_answers h layer p
  · exact answers_pure h none

structure Resident (world : MainChunkSource) (p : BlockPos) : Prop where
  inside : p.isInsideWorld = true
  chunk : (chunkAt world p.chunk).isSome

theorem Resident.readable (h : Resident world p) (hworld : Readable world) :
    ∃ snapshot, snapshotAt world p.chunk = some snapshot ∧
      ∀ x y z stateId, snapshot.blockStateId x y z = some stateId →
        (propertiesForStateId stateId.toNat).isSome := by
  obtain ⟨coord, hcoord⟩ := Option.isSome_iff_exists.mp h.chunk
  obtain ⟨snapshot, hok, hstates⟩ := hworld p.chunk coord hcoord
  refine ⟨snapshot, ?_, hstates⟩
  rw [snapshotAt_of_chunk hcoord, hok]
  rfl

theorem cell_isSome {x y z : Nat} (hx : x < 16) (hy : y < 128) (hz : z < 16) (read : Nat → α) :
    (Mutation.ChunkSnapshot.cell x y z read).isSome := by
  simp [Mutation.ChunkSnapshot.cell, containsCell, containsLocal, containsY, chunkEdge, worldHeight,
    hx, hy, hz]

theorem toNat_lt_of_inside (h : p.isInsideWorld = true) : p.y.toNat < 128 := by
  have := BlockPos.isInsideWorld_iff.mp h
  omega

theorem Resident.properties (h : Resident world p) (hworld : Readable world) :
    ∃ properties, propertiesAt world p = some properties := by
  obtain ⟨snapshot, hat, hstates⟩ := h.readable hworld
  obtain ⟨stateId, hstate⟩ := Option.isSome_iff_exists.mp
    (cell_isSome p.localX_lt (toNat_lt_of_inside h.inside) p.localZ_lt fun index =>
      joinState (snapshot.blockIds.getD index 0) (readNibble snapshot.blockData index))
  obtain ⟨properties, hproperties⟩ := Option.isSome_iff_exists.mp (hstates _ _ _ _ hstate)
  refine ⟨properties, ?_⟩
  rw [propertiesAt, blockAt, if_pos h.inside, hat, Option.bind_some]
  exact (congrArg (Option.bind · _) hstate).trans hproperties

theorem lightOf_eq (layer : LightLayer) (p : BlockPos) (h : p.isInsideWorld = true)
    (snapshot : Mutation.ChunkSnapshot) :
    ∃ level : UInt8, WorldLightAccess.lightOf layer p snapshot = some level.toNat ∧
      level.toNat ≤ maxLightLevel := by
  have hread (plane : Bytes) : ∃ level : UInt8,
      (Mutation.ChunkSnapshot.cell p.localX p.y.toNat p.localZ (readNibble plane)).map UInt8.toNat =
        some level.toNat ∧ level.toNat ≤ maxLightLevel := by
    refine ⟨readNibble plane (ChunkCoordinateKey.block p.localX p.y.toNat p.localZ), ?_, ?_⟩
    · simp [Mutation.ChunkSnapshot.cell, containsCell, containsLocal, containsY, chunkEdge,
        worldHeight, p.localX_lt, p.localZ_lt, toNat_lt_of_inside h]
    · have := readNibble_lt plane (ChunkCoordinateKey.block p.localX p.y.toNat p.localZ)
      exact Nat.le_of_lt_succ this
  cases layer with
  | sky => exact hread snapshot.skyLight
  | block => exact hread snapshot.blockLight

theorem Resident.stored (h : Resident world p) (hworld : Readable world) (layer : LightLayer) :
    (storedAt world layer p).isSome := by
  obtain ⟨snapshot, hat, -⟩ := h.readable hworld
  obtain ⟨level, hlevel, -⟩ := lightOf_eq layer p h.inside snapshot
  rw [storedAt, if_pos h.inside, hat, Option.bind_some, hlevel]
  rfl

theorem storedAt_le {level : Nat} (h : storedAt world layer p = some level) :
    level ≤ maxLightLevel := by
  rw [storedAt] at h
  split_ifs at h with hin
  obtain ⟨snapshot, -, hlight⟩ := Option.bind_eq_some_iff.mp h
  obtain ⟨v, hv, hle⟩ := lightOf_eq layer p hin snapshot
  rw [hv] at hlight
  cases hlight
  exact hle

theorem exposed_of_readable {snapshot : Mutation.ChunkSnapshot}
    (hstates : ∀ x y z stateId, snapshot.blockStateId x y z = some stateId →
      (propertiesForStateId stateId.toNat).isSome) {ys : List Nat} (hys : ∀ y ∈ ys, y < 128) :
    (WorldLightAccess.exposed snapshot p ys).isSome := by
  induction ys with
  | nil => rfl
  | cons y ys ih =>
    obtain ⟨stateId, hstate⟩ := Option.isSome_iff_exists.mp
      (cell_isSome p.localX_lt (hys y (by simp)) p.localZ_lt fun index =>
        joinState (snapshot.blockIds.getD index 0) (readNibble snapshot.blockData index))
    change snapshot.blockStateId p.localX y p.localZ = some stateId at hstate
    obtain ⟨properties, hproperties⟩ := Option.isSome_iff_exists.mp (hstates _ _ _ _ hstate)
    rw [WorldLightAccess.exposed, hstate]
    simp only [hproperties]
    split_ifs
    · rfl
    · exact ih fun y' hy' => hys y' (List.mem_cons_of_mem y hy')

theorem Resident.sky (h : Resident world p) (hworld : Readable world) : (skyAt world p).isSome := by
  obtain ⟨snapshot, hat, hstates⟩ := h.readable hworld
  rw [skyAt, if_pos h.inside, hat, Option.bind_some]
  refine exposed_of_readable hstates fun y hy => ?_
  have := (List.mem_range'_1.mp hy).2
  have hin := toNat_lt_of_inside h.inside
  simp only [worldHeight] at this
  omega

end Cobblestone.Light
