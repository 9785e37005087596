import Cobblestone.Mutation.Agreement
import Cobblestone.World.Patch

namespace Cobblestone.Mutation

open Lib World Storage

variable {store : WorldStore} {p : ChunkCoord} {c : ChunkRecord} {patch : ChunkPatch}
  {allowed : ChunkImport → Prop}

theorem phpRevision_ok {v : UInt64} {revision : Int64}
    (h : Chunk.phpRevision (.ok v) = .ok revision) : v.toNat < 2 ^ 63 ∧ revision = v.toInt64 := by
  rw [Chunk.phpRevision] at h
  split at h
  · rename_i hlt
    cases h
    exact ⟨hlt, rfl⟩
  · cases h

theorem revision_ok (hc : store.chunks p = some c) {revision : Int64}
    (h : Chunk.revision store p = .ok revision) :
    c.terrainRevision.toNat < 2 ^ 63 ∧ revision = c.terrainRevision.toInt64 := by
  rw [Chunk.revision, WorldStore.terrainRevision, WorldStore.withChunk, hc] at h
  exact phpRevision_ok h

theorem lightRevision_ok (hc : store.chunks p = some c) {revision : Int64}
    (h : Chunk.lightRevision store p = .ok revision) :
    c.lightRevision.toNat < 2 ^ 63 ∧ revision = c.lightRevision.toInt64 := by
  rw [Chunk.lightRevision, WorldStore.lightRevision, WorldStore.withChunk, hc] at h
  exact phpRevision_ok h

-- The chunk as a patch in preparation finds it: no call came between.
structure Current (store : WorldStore) (patch : ChunkPatch) (c : ChunkRecord) : Prop where
  resident : store.chunks patch.position = some c
  wellFormed : c.data.WellFormed
  revision : Chunk.revision store patch.position = .ok patch.baseRevision
  lightRevision : Chunk.lightRevision store patch.position = .ok patch.baseLightRevision

theorem current_of_reachable (hs : store.Reachable allowed)
    (hc : store.chunks patch.position = some c)
    (hrevision : Chunk.revision store patch.position = .ok patch.baseRevision)
    (hlight : Chunk.lightRevision store patch.position = .ok patch.baseLightRevision) :
    Current store patch c where
  resident := hc
  wellFormed := by
    have hsound : store.AllChunks (ChunkRecord.Sound fun _ => True) :=
      hs.sound trivial fun _ _ => trivial
    exact (hsound patch.position c hc).data.wellFormed
  revision := hrevision
  lightRevision := hlight

namespace Current

variable (h : Current store patch c)

include h

theorem snapshot : Chunk.snapshot store patch.position = .ok (projected patch.position c) :=
  chunk_snapshot h.resident h.wellFormed (revision_ok h.resident h.revision).1
    (lightRevision_ok h.resident h.lightRevision).1

theorem scalar : ({ patch with snapshot := none } : ChunkPatch).keptEdits store =
    .ok (keptOf c.data (storedExtra c.data) patch.edits) :=
  keptEdits_scalar h.resident h.wellFormed rfl

theorem projection : ({ patch with snapshot := some (projected patch.position c) } :
    ChunkPatch).keptEdits store = .ok (keptOf c.data (projectedExtra c.data) patch.edits) :=
  keptEdits_projected h.wellFormed rfl

end Current

def preparedOf (patch : ChunkPatch) (kept : StagedEdits) : PreparedChunkPatch where
  position := patch.position
  baseRevision := patch.baseRevision
  revision := if kept.terrainChanged then patch.baseRevision + 1 else patch.baseRevision
  baseLightRevision := patch.baseLightRevision
  lightRevision := if kept.lightChanged then patch.baseLightRevision + 1 else patch.baseLightRevision
  edits := kept

-- From the threshold on the extra data is compared with what the projection finds.
theorem Current.prepare_eq (h : Current store patch c) (hfirst : patch.snapshot = none)
    (hterrain : patch.baseRevision ≠ Int64.maxValue)
    (hlight : patch.baseLightRevision ≠ Int64.maxValue) :
    patch.prepare store = .ok (preparedOf patch (keptOf c.data
      (if patch.edits.comparisons < snapshotPrepareThreshold then storedExtra c.data
        else projectedExtra c.data) patch.edits)) := by
  obtain ⟨position, base, baseLight, snapshot, edits⟩ := patch
  cases hfirst
  have hrevision := (revision_ok h.resident h.revision).2
  have hlightRevision := (lightRevision_ok h.resident h.lightRevision).2
  have hprime : (ChunkPatch.mk position base baseLight none edits).primeSnapshotForPrepare store =
      .ok (ChunkPatch.mk position base baseLight
        (if edits.comparisons < snapshotPrepareThreshold then none
          else some (projected position c)) edits) := by
    rw [ChunkPatch.primeSnapshotForPrepare]
    by_cases hfew : edits.comparisons < snapshotPrepareThreshold
    · rw [if_pos (.inr hfew), if_pos hfew]
    · rw [if_neg (by simp [hfew]), if_neg hfew, h.snapshot, ok_bind]
      dsimp only
      rw [show (decide ((projected position c).revision = base ∧
        (projected position c).lightRevision = baseLight)) = true from
          decide_eq_true ⟨hrevision.symm, hlightRevision.symm⟩]
      rfl
  have hkept : (ChunkPatch.mk position base baseLight
      (if edits.comparisons < snapshotPrepareThreshold then none
        else some (projected position c)) edits).keptEdits store =
      .ok (keptOf c.data (if edits.comparisons < snapshotPrepareThreshold then storedExtra c.data
        else projectedExtra c.data) edits) := by
    split
    · exact h.scalar
    · exact h.projection
  rw [ChunkPatch.prepare, hprime, ok_bind]
  dsimp only
  rw [h.revision, ok_bind]
  dsimp only
  rw [decide_eq_true rfl, ensure_true, ok_bind, h.lightRevision, ok_bind]
  dsimp only
  rw [decide_eq_true rfl, ensure_true, ok_bind, hkept, ok_bind, decide_eq_false hterrain,
    decide_eq_false hlight, Bool.and_false, Bool.and_false]
  rfl

def PathsAgree (store : WorldStore) (patch : ChunkPatch) : Prop :=
  ∃ snapshot kept, Chunk.snapshot store patch.position = .ok snapshot ∧
    ({ patch with snapshot := none } : ChunkPatch).keptEdits store = .ok kept ∧
    ({ patch with snapshot := some snapshot } : ChunkPatch).keptEdits store = .ok kept

structure ReadsAgree (store : WorldStore) (p : ChunkCoord) (snapshot : ChunkSnapshot) : Prop where
  blocks : ∀ x y z, InChunk x y z → ∃ v, Chunk.blockStateId store p x y z = .ok v ∧
    snapshot.blockStateId x y z = some v
  biomes : ∀ x z, x < 16 → z < 16 → ∃ column, Chunk.biomeColumn store p x z = .ok column ∧
    snapshot.biomeColumn x z = .ok (some column)
  extraData : ∀ x y z, InChunk x y z → ∃ v, Chunk.blockExtraData store p x y z = .ok v ∧
    snapshot.blockExtraDataAt x y z = some v
  skyLight : ∀ x y z, InChunk x y z → ∃ v, Chunk.skyLight store p x y z = .ok v ∧
    snapshot.skyLightLevel x y z = some v
  blockLight : ∀ x y z, InChunk x y z → ∃ v, Chunk.blockLight store p x y z = .ok v ∧
    snapshot.blockLightLevel x y z = some v

theorem readsAgree_iff (hc : store.chunks p = some c) (hw : c.data.WellFormed) :
    ReadsAgree store p (projected p c) ↔
      ∀ x y z, InChunk x y z → storedExtra c.data x y z = projectedExtra c.data x y z := by
  constructor
  · intro h x y z hcell
    obtain ⟨v, hstored, hread⟩ := h.extraData x y z hcell
    rw [chunk_blockExtraData hc hcell] at hstored
    rw [ChunkSnapshot.blockExtraDataAt, projected_cell hcell] at hread
    cases hstored
    exact (Option.some.inj hread).symm
  · intro h
    refine ⟨fun x y z hcell => ?_, fun x z hx hz => ?_, fun x y z hcell => ?_,
      fun x y z hcell => ?_, fun x y z hcell => ?_⟩
    · exact ⟨_, chunk_blockStateId hc hcell, projected_blockStateId hw hcell⟩
    · obtain ⟨word, hword, hstored⟩ := chunk_biomeColumn hc hw hx hz
      obtain ⟨word', hword', hread⟩ := projected_biomeColumn (p := p) hw hx hz
      rw [hword] at hword'
      cases hword'
      exact ⟨_, hstored, hread⟩
    · refine ⟨_, chunk_blockExtraData hc hcell, ?_⟩
      rw [h x y z hcell]
      exact projected_cell hcell
    · exact ⟨_, chunk_skyLight hc hcell, projected_cell hcell⟩
    · exact ⟨_, chunk_blockLight hc hcell, projected_cell hcell⟩

theorem Current.pathsAgree_iff (h : Current store patch c) : PathsAgree store patch ↔
    ∀ edit ∈ patch.edits.extraData, (edit.2 = atKey (storedExtra c.data) edit.1 ↔
      edit.2 = atKey (projectedExtra c.data) edit.1) := by
  rw [← keptOf_eq_iff]
  constructor
  · rintro ⟨snapshot, kept, hsnapshot, hscalar, hprojected⟩
    rw [h.snapshot] at hsnapshot
    cases hsnapshot
    rw [h.scalar] at hscalar
    rw [h.projection] at hprojected
    exact (Except.ok.inj hscalar).trans (Except.ok.inj hprojected).symm
  · intro heq
    exact ⟨_, _, h.snapshot, h.scalar, h.projection.trans (congrArg Except.ok heq.symm)⟩

theorem prepare_paths_agree_iff (hs : store.Reachable allowed)
    (hc : store.chunks patch.position = some c)
    (hrevision : Chunk.revision store patch.position = .ok patch.baseRevision)
    (hlight : Chunk.lightRevision store patch.position = .ok patch.baseLightRevision) :
    (PathsAgree store patch ↔
      ∀ edit ∈ patch.edits.extraData, (edit.2 = atKey (storedExtra c.data) edit.1 ↔
        edit.2 = atKey (projectedExtra c.data) edit.1)) ∧
    ((∃ snapshot, Chunk.snapshot store patch.position = .ok snapshot ∧
        ReadsAgree store patch.position snapshot) ↔
      ∀ x y z, InChunk x y z → storedExtra c.data x y z = projectedExtra c.data x y z) := by
  have h := current_of_reachable hs hc hrevision hlight
  refine ⟨h.pathsAgree_iff, ?_⟩
  rw [← readsAgree_iff hc h.wellFormed, h.snapshot]
  constructor
  · rintro ⟨snapshot, hsnapshot, hreads⟩
    cases hsnapshot
    exact hreads
  · exact fun hreads => ⟨_, rfl, hreads⟩

-- One cell holds extra data, and a large edit clears it.
def lostChunk : ChunkRecord :=
  { bareChunk with data := { bareChunk.data with extraData := WorldStore.putExtra ∅ 0x100 7 } }

def lostStore : WorldStore := (bareStore.setBlockExtraData originChunk 1 0 0 7).2

def lostPatch : ChunkPatch where
  position := originChunk
  baseRevision := 0
  baseLightRevision := 0
  snapshot := none
  edits :=
    { blocks := []
      biomes := []
      extraData := [(1, 0)]
      skyLight := (List.range 767).map fun key => (key, 1)
      blockLight := [] }

theorem lostStore_chunk : lostStore.chunks originChunk = some lostChunk := by
  have hkey : extraKey 1 0 0 = .ok 0x100 := by decide
  rw [lostStore, WorldStore.setBlockExtraData, hkey]
  rfl

theorem lostStore_reachable : lostStore.Reachable fun _ => False :=
  (bareStore_reachable _).tail ⟨.setBlockExtraData originChunk 1 0 0 7, trivial, rfl⟩

theorem lostPatch_current : Current lostStore lostPatch lostChunk := by
  refine current_of_reachable lostStore_reachable lostStore_chunk ?_ ?_
  · rw [Chunk.revision, WorldStore.terrainRevision, WorldStore.withChunk,
      show lostPatch.position = originChunk from rfl, lostStore_chunk]
    rfl
  · rw [Chunk.lightRevision, WorldStore.lightRevision, WorldStore.withChunk,
      show lostPatch.position = originChunk from rfl, lostStore_chunk]
    rfl

theorem lostExtra (key : UInt16) :
    (lostChunk.data.extraData[key]?).getD 0 = if 0x100 = key then 7 else 0 := by
  rw [show lostChunk.data.extraData = WorldStore.putExtra ∅ 0x100 7 from rfl, getElem?_putExtra]
  split
  · rfl
  · simp

theorem storedExtra_lost : atKey (storedExtra lostChunk.data) 1 = 7 :=
  (lostExtra (extraKeyAt 1 0 0)).trans (by decide)

theorem projectedExtra_lost : atKey (projectedExtra lostChunk.data) 1 = 0 :=
  (lostExtra 1).trans (by decide)

theorem prepare_paths_agree_iff_lost : (PathsAgree lostStore lostPatch ↔
      ∀ edit ∈ lostPatch.edits.extraData, (edit.2 = atKey (storedExtra lostChunk.data) edit.1 ↔
        edit.2 = atKey (projectedExtra lostChunk.data) edit.1)) ∧
    ((∃ snapshot, Chunk.snapshot lostStore lostPatch.position = .ok snapshot ∧
        ReadsAgree lostStore lostPatch.position snapshot) ↔
      ∀ x y z, InChunk x y z →
        storedExtra lostChunk.data x y z = projectedExtra lostChunk.data x y z) :=
  prepare_paths_agree_iff lostStore_reachable lostStore_chunk lostPatch_current.revision
    lostPatch_current.lightRevision

theorem large_edit_loses_clear :
    (∃ prepared, lostPatch.prepare lostStore = .ok prepared ∧ prepared.edits.extraData = []) ∧
    (∃ kept, ({ lostPatch with snapshot := none } : ChunkPatch).keptEdits lostStore = .ok kept ∧
      kept.extraData = [(1, 0)]) ∧
    ¬PathsAgree lostStore lostPatch ∧
    ¬∃ snapshot, Chunk.snapshot lostStore originChunk = .ok snapshot ∧
      ReadsAgree lostStore originChunk snapshot := by
  have h := lostPatch_current
  refine ⟨⟨_, h.prepare_eq rfl (by decide) (by decide), ?_⟩, ⟨_, h.scalar, ?_⟩, ?_, ?_⟩
  · have hmany : ¬ lostPatch.edits.comparisons < snapshotPrepareThreshold := by
      simp [lostPatch, StagedEdits.comparisons]
    simp only [preparedOf, keptOf, if_neg hmany]
    simp [lostPatch, projectedExtra_lost]
  · simp only [keptOf]
    simp [lostPatch, storedExtra_lost]
  · rw [h.pathsAgree_iff]
    intro hagree
    have hedit := hagree (1, 0) (by simp [lostPatch])
    rw [storedExtra_lost, projectedExtra_lost] at hedit
    exact absurd (hedit.mpr rfl) (by decide)
  · rintro ⟨snapshot, hsnapshot, hreads⟩
    rw [show originChunk = lostPatch.position from rfl, h.snapshot] at hsnapshot
    cases hsnapshot
    have hcell := (readsAgree_iff lostStore_chunk h.wellFormed).mp hreads 1 0 0
      ⟨by decide, by decide, by decide⟩
    rw [show storedExtra lostChunk.data 1 0 0 = 7 from storedExtra_lost,
      show projectedExtra lostChunk.data 1 0 0 = 0 from projectedExtra_lost] at hcell
    exact absurd hcell (by decide)

end Cobblestone.Mutation
