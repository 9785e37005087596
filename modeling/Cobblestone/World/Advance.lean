import Cobblestone.World.Reachable

namespace Cobblestone.World

open Lib

-- The revisions of a chunk only grow, and what counts as saved stays.
structure Advances (c c' : ChunkRecord) : Prop where
  terrain : c.terrainRevision ≤ c'.terrainRevision
  light : c.lightRevision ≤ c'.lightRevision
  persistedTerrain : c'.persistedTerrainRevision = c.persistedTerrainRevision
  persistedLight : c'.persistedLightRevision = c.persistedLightRevision
  persistedFlags : c'.persistedLifecycleFlags = c.persistedLifecycleFlags

theorem Advances.refl (c : ChunkRecord) : Advances c c :=
  ⟨UInt64.le_refl _, UInt64.le_refl _, rfl, rfl, rfl⟩

theorem Advances.trans {c d e : ChunkRecord} (h : Advances c d) (k : Advances d e) :
    Advances c e where
  terrain := UInt64.le_trans h.terrain k.terrain
  light := UInt64.le_trans h.light k.light
  persistedTerrain := k.persistedTerrain.trans h.persistedTerrain
  persistedLight := k.persistedLight.trans h.persistedLight
  persistedFlags := k.persistedFlags.trans h.persistedFlags

-- The same chunks are resident, and each record has advanced.
structure Advanced (s t : WorldStore) : Prop where
  kept : ∀ p c, s.chunks p = some c → ∃ c', t.chunks p = some c' ∧ Advances c c'
  absent : ∀ p, s.chunks p = none → t.chunks p = none

theorem checkedSucc_le {n m : UInt64} (h : checkedSucc n = some m) : n ≤ m := by
  have := checkedSucc_toNat h
  rw [UInt64.le_iff_toNat_le]
  omega

namespace Advanced

open WorldStore

variable {α : Type} {s t u : WorldStore} {p : ChunkCoord}

theorem refl (s : WorldStore) : Advanced s s := ⟨fun _ c hc => ⟨c, hc, .refl c⟩, fun _ h => h⟩

theorem trans (h : Advanced s t) (k : Advanced t u) : Advanced s u where
  kept p c hc := by
    obtain ⟨d, hd, hcd⟩ := h.kept p c hc
    obtain ⟨e, he, hde⟩ := k.kept p d hd
    exact ⟨e, he, hcd.trans hde⟩
  absent p hp := k.absent p (h.absent p hp)

theorem of_chunks (h : t.chunks = s.chunks) : Advanced s t where
  kept p c hc := ⟨c, by rw [h, hc], .refl c⟩
  absent p hp := by rw [h, hp]

theorem setChunk {c c' : ChunkRecord} (hc : s.chunks p = some c) (h : Advances c c') :
    Advanced s (s.setChunk p c') where
  kept q d hd := by
    by_cases hq : q = p
    · subst hq
      rw [hc] at hd
      cases hd
      exact ⟨c', setChunk_self .., h⟩
    · exact ⟨d, by rw [setChunk_of_ne _ _ hq, hd], .refl d⟩
  absent q hq := by
    have hne : q ≠ p := by
      rintro rfl
      rw [hc] at hq
      cases hq
    rw [setChunk_of_ne _ _ hne, hq]

theorem withChunkMut {operation : ChunkRecord → Except WorldStoreError α × ChunkRecord}
    (h : ∀ c, Advances c (operation c).2) : Advanced s (s.withChunkMut p operation).2 := by
  rw [WorldStore.withChunkMut]
  cases hc : s.chunks p with
  | none => exact .refl s
  | some c => exact setChunk hc (h c)

theorem editData (edit : ChunkData → α × ChunkData) : Advanced s (s.editData p edit).2 :=
  withChunkMut fun _ => ⟨UInt64.le_refl _, UInt64.le_refl _, rfl, rfl, rfl⟩

theorem setBiomeWord (x z : UInt8) (word : UInt32) : Advanced s (s.setBiomeWord p x z word).2 := by
  rw [WorldStore.setBiomeWord]
  split
  · exact .refl s
  · exact .refl s
  · exact editData _

theorem setBiome (x z biome : UInt8) : Advanced s (s.setBiome p x z biome).2 := by
  rw [WorldStore.setBiome]
  split
  · exact .refl s
  · cases s.biomeWord p x z with
    | error e => exact .refl s
    | ok previous => exact setBiomeWord x z _

theorem setBiomeColor (x z : UInt8) (color : UInt32) :
    Advanced s (s.setBiomeColor p x z color).2 := by
  rw [WorldStore.setBiomeColor]
  split
  · exact .refl s
  · cases s.biomeWord p x z with
    | error e => exact .refl s
    | ok previous => exact setBiomeWord x z _

theorem setLifecycleFlags (flags : UInt8) : Advanced s (s.setLifecycleFlags p flags).2 := by
  rw [WorldStore.setLifecycleFlags]
  split
  · exact .refl s
  · exact withChunkMut fun c => ⟨UInt64.le_refl _, UInt64.le_refl _, rfl, rfl, rfl⟩

theorem pinChunk : Advanced s (s.pinChunk p).2 := by
  refine withChunkMut fun c => ?_
  split <;> exact ⟨UInt64.le_refl _, UInt64.le_refl _, rfl, rfl, rfl⟩

theorem unpinChunk : Advanced s (s.unpinChunk p).2 := by
  refine withChunkMut fun c => ?_
  split <;> exact ⟨UInt64.le_refl _, UInt64.le_refl _, rfl, rfl, rfl⟩

theorem commitTerrainRevision (expected next : UInt64) :
    Advanced s (s.commitTerrainRevision p expected next).2 := by
  refine withChunkMut fun c => ?_
  split
  · exact .refl c
  · next hcurrent =>
    cases hn : checkedSucc expected with
    | none => exact .refl c
    | some expectedNext =>
      dsimp only
      split
      · exact .refl c
      · next hnext =>
        rw [not_not] at hcurrent hnext
        refine ⟨?_, UInt64.le_refl _, rfl, rfl, rfl⟩
        rw [hcurrent, hnext]
        exact checkedSucc_le hn

theorem commitLightRevision (expected next : UInt64) :
    Advanced s (s.commitLightRevision p expected next).2 := by
  refine withChunkMut fun c => ?_
  split
  · exact .refl c
  · next hcurrent =>
    cases hn : checkedSucc expected with
    | none => exact .refl c
    | some expectedNext =>
      dsimp only
      split
      · exact .refl c
      · next hnext =>
        rw [not_not] at hcurrent hnext
        refine ⟨UInt64.le_refl _, ?_, rfl, rfl, rfl⟩
        rw [hcurrent, hnext]
        exact checkedSucc_le hn

theorem bumped_le {b : Bool} {n m : UInt64}
    (h : (if b then checkedSucc n else some n) = some m) : n ≤ m := by
  cases b with
  | false =>
    cases h
    exact UInt64.le_refl _
  | true => exact checkedSucc_le h

theorem applyPatch (patch : ChunkPatch) : Advanced s (s.applyPatch p patch).2 := by
  have hpatch : Advanced s (s.withChunkMut p fun c => patchRecord c patch).2 := by
    refine withChunkMut fun c => ?_
    rcases patchRecord_cases c patch with ⟨e, h⟩ | ⟨ha, h⟩
    · rw [h]
      exact .refl c
    · rw [h]
      exact ⟨bumped_le ha.nextTerrain, bumped_le ha.nextLight, rfl, rfl, rfl⟩
  rw [WorldStore.applyPatch]
  split
  · exact .refl s
  · split
    · rename_i heq
      rwa [heq] at hpatch
    · rename_i t heq
      rw [heq] at hpatch
      split
      · exact hpatch
      · exact hpatch.trans (of_chunks rfl)

end Advanced

theorem installOver_advances (c : ChunkRecord) (i : ChunkImport) :
    Advances c (WorldStore.installOver c i).2 := by
  rw [WorldStore.installOver]
  dsimp only
  split
  · exact .refl c
  · next t ht =>
    split
    · exact ⟨Advanced.bumped_le ht, UInt64.le_refl _, rfl, rfl, rfl⟩
    · next l hl =>
      have hadvance := Advanced.bumped_le ht
      have hlight := Advanced.bumped_le hl
      split
      · exact ⟨hadvance, hlight, rfl, rfl, rfl⟩
      · exact ⟨hadvance, hlight, rfl, rfl, rfl⟩

-- The operations that keep the resident chunks and what they count as saved.
def StoreOp.Rewrites : StoreOp → Prop
  | .ensureChunk .. | .importChunkIfAbsent .. | .importChunk .. | .installGeneratedChunk ..
  | .markPersisted .. | .tryEvictChunk .. => False
  | _ => True

theorem StoreOp.advanced {op : StoreOp} (h : op.Rewrites) (s : WorldStore) :
    Advanced s (op.apply s) := by
  cases op with
  | setLifecycleFlags => exact Advanced.setLifecycleFlags _
  | commitTerrainRevision => exact Advanced.commitTerrainRevision _ _
  | commitLightRevision => exact Advanced.commitLightRevision _ _
  | pinChunk => exact Advanced.pinChunk
  | unpinChunk => exact Advanced.unpinChunk
  | setBiomeWord => exact Advanced.setBiomeWord _ _ _
  | setBiome => exact Advanced.setBiome _ _ _
  | setBiomeColor => exact Advanced.setBiomeColor _ _ _
  | recalculateHeightMap => exact Advanced.editData _
  | applyPatch => exact Advanced.applyPatch _
  | pruneChangesThrough => exact Advanced.of_chunks rfl
  | setBlockState | fillLayers | fillBiome | setSkyLight | fillSkyLightFrom | setBlockLight
  | setBlockExtraData =>
    simp only [StoreOp.apply, WorldStore.setBlockState, WorldStore.fillLayers, WorldStore.fillBiome,
      WorldStore.setSkyLight, WorldStore.fillSkyLightFrom, WorldStore.setBlockLight,
      WorldStore.setBlockExtraData]
    repeat' split
    all_goals first
      | exact .refl s
      | exact Advanced.editData _
  | ensureChunk | importChunkIfAbsent | importChunk | installGeneratedChunk | markPersisted
  | tryEvictChunk => exact h.elim

-- What counts as saved is never ahead of the chunk.
structure MarksBehind (c : ChunkRecord) : Prop where
  terrain : ∀ t, c.persistedTerrainRevision = some t → t ≤ c.terrainRevision
  light : ∀ l, c.persistedLightRevision = some l → l ≤ c.lightRevision

theorem MarksBehind.advance {c c' : ChunkRecord} (h : MarksBehind c) (k : Advances c c') :
    MarksBehind c' where
  terrain t ht := UInt64.le_trans (h.terrain t (k.persistedTerrain ▸ ht)) k.terrain
  light l hl := UInt64.le_trans (h.light l (k.persistedLight ▸ hl)) k.light

theorem MarksBehind.fromImport (i : ChunkImport) : MarksBehind (ChunkRecord.fromImport i) where
  terrain t ht := by
    cases ht
    exact UInt64.le_refl _
  light l hl := by
    cases hl
    exact UInt64.le_refl _

theorem MarksBehind.markPersisted {c : ChunkRecord} (h : MarksBehind c) (terrain light : UInt64)
    (flags : UInt8) : MarksBehind (WorldStore.markPersistedRecord c terrain light flags).2 := by
  rw [WorldStore.markPersistedRecord]
  split
  · exact h
  · next ht =>
    split
    · exact h
    · next hl =>
      split
      · exact h
      · split
        · exact h
        · constructor
          · intro t heq
            cases heq
            exact UInt64.not_lt.mp ht
          · intro l heq
            cases heq
            exact UInt64.not_lt.mp hl

namespace WorldStore

variable {s t : WorldStore} {p : ChunkCoord}

theorem AllChunks.advance (h : s.AllChunks MarksBehind) (k : Advanced s t) :
    t.AllChunks MarksBehind := by
  intro q d hd
  cases hq : s.chunks q with
  | none =>
    rw [k.absent q hq] at hd
    cases hd
  | some c =>
    obtain ⟨c', hc', hadvance⟩ := k.kept q c hq
    rw [hc'] at hd
    cases hd
    exact (h q c hq).advance hadvance

end WorldStore

theorem StoreOp.apply_marks {op : StoreOp} {s : WorldStore} (h : s.AllChunks MarksBehind) :
    (op.apply s).AllChunks MarksBehind := by
  cases op with
  | ensureChunk p biome =>
    simp only [StoreOp.apply, WorldStore.ensureChunk]
    split
    · exact h
    · split
      · exact h
      · exact h.setChunk ⟨fun t ht => (by cases ht), fun l hl => (by cases hl)⟩
  | importChunkIfAbsent p i =>
    simp only [StoreOp.apply, WorldStore.importChunkIfAbsent]
    split
    · exact h
    · split
      · exact h
      · exact h.setChunk (.fromImport i)
  | importChunk p i =>
    simp only [StoreOp.apply, WorldStore.importChunk]
    split
    · exact h
    · exact h.setChunk (.fromImport i)
  | installGeneratedChunk p i =>
    simp only [StoreOp.apply, WorldStore.installGeneratedChunk]
    split
    · exact h
    · split
      · exact h.setChunk ⟨fun t ht => (by cases ht), fun l hl => (by cases hl)⟩
      · next c hc => exact h.setChunk ((h p c hc).advance (installOver_advances c i))
  | markPersisted p terrain light flags =>
    simp only [StoreOp.apply, WorldStore.markPersisted]
    split
    · exact h
    · exact h.withChunkMut fun c hc => hc.markPersisted terrain light flags
  | tryEvictChunk p =>
    simp only [StoreOp.apply, WorldStore.tryEvictChunk]
    split
    · exact h
    · split
      · exact h
      · split
        · exact h
        · exact h.removeChunk
  | _ =>
    refine h.advance (StoreOp.advanced ?_ s)
    trivial

theorem WorldStore.Reachable.marks {allowed : ChunkImport → Prop} {s : WorldStore}
    (h : WorldStore.Reachable allowed s) : s.AllChunks MarksBehind := by
  induction h with
  | refl =>
    intro p c hc
    cases hc
  | tail _ hstep ih =>
    obtain ⟨op, -, rfl⟩ := hstep
    exact StoreOp.apply_marks ih

end Cobblestone.World
