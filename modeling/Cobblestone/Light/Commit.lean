import Cobblestone.Light.Quiesce
import Cobblestone.Mutation.Prepare

namespace Cobblestone.Light

open Lib World WorldStore Mutation Source Storage

variable {world : MainChunkSource} {store : WorldStore} {p coord : ChunkCoord} {c : ChunkRecord}
  {layer : LightLayer} {position : ChunkPos} {q r : BlockPos} {group : Group}

theorem lt_of_toInt64_nonneg {v : UInt64} (h : 0 ≤ v.toInt64) : v.toNat < 2 ^ 63 := by
  rw [Int64.le_iff_toInt_le, ← Int64.toInt_toBitVec v.toInt64, UInt64.toBitVec_toInt64] at h
  have hmsb := BitVec.toInt_eq_toNat_cond v.toBitVec
  have hlt := v.toNat_lt
  rw [UInt64.toNat_toBitVec] at hmsb
  split_ifs at hmsb with hhalf
  · omega
  · rw [hmsb] at h
    simp only [Int64.toInt_zero] at h
    omega

theorem snapshot_ok (hw : ∀ c, store.chunks p = some c → c.data.WellFormed)
    {snapshot : Mutation.ChunkSnapshot} (h : Chunk.snapshot store p = .ok snapshot) :
    ∃ c, store.chunks p = some c ∧ c.terrainRevision.toNat < 2 ^ 63 ∧
      c.lightRevision.toNat < 2 ^ 63 ∧ snapshot = projected p c := by
  cases hc : store.chunks p with
  | none =>
    rw [Chunk.snapshot, worldSnapshot, WorldStore.snapshot, withChunk, hc] at h
    cases h
  | some c =>
    have hbytes : worldSnapshot store p = .ok (toLE 8 c.terrainRevision.toNat ++
        (toLE 8 c.lightRevision.toNat ++ projectData c.data)) := by
      rw [worldSnapshot, WorldStore.snapshot, withChunk, hc]
      exact if_pos (extraData_size c.data.extraData)
    have hrange : 0 ≤ c.terrainRevision.toInt64 ∧ 0 ≤ c.lightRevision.toInt64 := by
      by_contra hno
      have hfalse : (decide (0 ≤ c.terrainRevision.toInt64) &&
          decide (0 ≤ c.lightRevision.toInt64)) = false := by
        rw [← Bool.decide_and]
        exact decide_eq_false hno
      rw [Chunk.snapshot, hbytes, ok_bind, SnapshotDecoder.decode,
        (reads_takeInt c.terrainRevision).run, (reads_takeInt c.lightRevision).run, hfalse] at h
      cases h
    have ht := lt_of_toInt64_nonneg hrange.1
    have hl := lt_of_toInt64_nonneg hrange.2
    rw [chunk_snapshot hc (hw c hc) ht hl] at h
    exact ⟨c, rfl, ht, hl, (Except.ok.inj h).symm⟩

def plane (layer : LightLayer) (data : ChunkData) : Bytes :=
  match layer with
  | .sky => data.skyLight
  | .block => data.blockLight

theorem inChunk_of_inside (h : q.isInsideWorld = true) : InChunk q.localX q.y.toNat q.localZ :=
  ⟨q.localX_lt, toNat_lt_of_inside h, q.localZ_lt⟩

theorem cellKey_lt (h : q.isInsideWorld = true) : WorldLightAccess.cellKey q < chunkBlockCount :=
  block_lt (inChunk_of_inside h)

theorem toNat_level {level : Nat} (h : level ≤ maxLightLevel) : (UInt8.ofNat level).toNat = level :=
  toNat_ofNat_small (Nat.lt_of_le_of_lt h (by decide))

theorem cellKey_inj (hq : q.isInsideWorld = true) (hr : r.isInsideWorld = true)
    (hchunk : q.chunk = r.chunk) (h : WorldLightAccess.cellKey q = WorldLightAccess.cellKey r) :
    q = r := by
  have hcell := congrArg ChunkCoordinateKey.decodeBlock h
  rw [WorldLightAccess.cellKey, WorldLightAccess.cellKey, decodeBlock_block (inChunk_of_inside hq),
    decodeBlock_block (inChunk_of_inside hr), Prod.mk.injEq, Prod.mk.injEq] at hcell
  have hqy := BlockPos.isInsideWorld_iff.mp hq
  have hry := BlockPos.isInsideWorld_iff.mp hr
  exact BlockPos.eq_of_cell hchunk hcell.1 (by omega) hcell.2.2

theorem lightOf_projected (layer : LightLayer) (h : q.isInsideWorld = true) :
    WorldLightAccess.lightOf layer q (projected coord c) =
      some (readNibble (plane layer c.data) (WorldLightAccess.cellKey q)).toNat := by
  have hread (bytes : Bytes) : Mutation.ChunkSnapshot.cell q.localX q.y.toNat q.localZ
      (readNibble bytes) = some (readNibble bytes (WorldLightAccess.cellKey q)) := by
    rw [Mutation.ChunkSnapshot.cell, (inChunk_of_inside h).contains, if_pos rfl]
    rfl
  cases layer with
  | sky => exact congrArg (Option.map UInt8.toNat) (hread c.data.skyLight)
  | block => exact congrArg (Option.map UInt8.toNat) (hread c.data.blockLight)

-- A chunk as the light engine finds it: held on the PHP side, resident below, and readable.
structure Loaded (world : MainChunkSource) (position : ChunkPos) (coord : ChunkCoord)
    (c : ChunkRecord) : Prop where
  chunk : chunkAt world position = some coord
  record : world.nativeStore.store.chunks coord = some c
  wellFormed : c.data.WellFormed
  terrain : c.terrainRevision.toNat < 2 ^ 63
  light : c.lightRevision.toNat < 2 ^ 63

def WellFormed (world : MainChunkSource) : Prop :=
  ∀ coord c, world.nativeStore.store.chunks coord = some c → c.data.WellFormed

theorem Loaded.snapshot (h : Loaded world position coord c) :
    snapshotAt world position = some (projected coord c) := by
  rw [snapshotAt_of_chunk h.chunk, chunk_snapshot h.record h.wellFormed h.terrain h.light]
  rfl

theorem loaded_of_snapshot (hw : WellFormed world) {snapshot : Mutation.ChunkSnapshot}
    (h : snapshotAt world position = some snapshot) :
    ∃ coord c, Loaded world position coord c ∧ snapshot = projected coord c := by
  obtain ⟨coord, hcoord, hsnapshot⟩ := Option.bind_eq_some_iff.mp h
  cases hok : Chunk.snapshot world.nativeStore.store coord with
  | error e =>
    rw [hok] at hsnapshot
    cases hsnapshot
  | ok found =>
    rw [hok] at hsnapshot
    cases hsnapshot
    obtain ⟨c, hc, ht, hl, hproj⟩ := snapshot_ok (hw coord) hok
    exact ⟨coord, c, ⟨hcoord, hc, hw coord c hc, ht, hl⟩, hproj⟩

theorem Loaded.stored (h : Loaded world q.chunk coord c) (layer : LightLayer)
    (hq : q.isInsideWorld = true) : storedAt world layer q =
      some (readNibble (plane layer c.data) (WorldLightAccess.cellKey q)).toNat := by
  rw [storedAt, if_pos hq, h.snapshot, Option.bind_some, lightOf_projected layer hq]

theorem inside_of_stored (h : (storedAt world layer q).isSome) : q.isInsideWorld = true := by
  by_contra hout
  rw [storedAt, if_neg hout] at h
  cases h

theorem loaded_of_stored (hw : WellFormed world) (h : (storedAt world layer q).isSome) :
    ∃ coord c, Loaded world q.chunk coord c := by
  rw [storedAt, if_pos (inside_of_stored h)] at h
  cases hsnapshot : snapshotAt world q.chunk with
  | none =>
    rw [hsnapshot] at h
    cases h
  | some snapshot =>
    obtain ⟨coord, c, hloaded, -⟩ := loaded_of_snapshot hw hsnapshot
    exact ⟨coord, c, hloaded⟩

-- The entries of one group: cells of one chunk, each staged once in each layer.
structure SoundEntries (position : ChunkPos) (entries : List StagedEntry) : Prop where
  chunk : ∀ e ∈ entries, e.1.2.chunk = position
  inside : ∀ e ∈ entries, e.1.2.isInsideWorld = true
  level : ∀ e ∈ entries, e.2 ≤ maxLightLevel
  nodup : (entries.map Prod.fst).Nodup

def cellEdits (layer : LightLayer) (entries : List StagedEntry) : List (Nat × UInt8) :=
  (entries.filter fun e => e.1.1 = layer).map fun e =>
    (WorldLightAccess.cellKey e.1.2, UInt8.ofNat e.2)

theorem SoundEntries.cells_nodup {entries : List StagedEntry} (h : SoundEntries position entries)
    (layer : LightLayer) : ((cellEdits layer entries).map Prod.fst).Nodup := by
  have hfilter : ((entries.filter fun e => e.1.1 = layer).map Prod.fst).Nodup :=
    h.nodup.sublist (List.filter_sublist.map Prod.fst)
  rw [cellEdits, List.map_map]
  rw [List.Nodup, List.pairwise_map] at hfilter ⊢
  refine hfilter.imp_of_mem fun {e e'} he he' hne hkey => ?_
  obtain ⟨he, hlayer⟩ := List.mem_filter.mp he
  obtain ⟨he', hlayer'⟩ := List.mem_filter.mp he'
  refine hne (Prod.ext ?_ ?_)
  · exact (of_decide_eq_true hlayer).trans (of_decide_eq_true hlayer').symm
  · exact cellKey_inj (h.inside e he) (h.inside e' he') ((h.chunk e he).trans (h.chunk e' he').symm)
      hkey

theorem mem_layerEdits {entries : List StagedEntry} (h : SoundEntries position entries)
    (layer : LightLayer) (edit : Nat × UInt8) :
    edit ∈ WorldLightAccess.layerEdits layer entries ↔ edit ∈ cellEdits layer entries := by
  have hfold := read_foldl (I := fun _ : OrderedMap Nat UInt8 => True)
    (V := fun _ : Nat × UInt8 => True) (r := OrderedMap.get?) (f := some)
    (w := fun edits edit => edits.set edit.1 edit.2) (fun _ _ _ _ => trivial)
    (fun edits edit k _ _ => by rw [OrderedMap.get?_set]; simp only [eq_comm]) (s := .empty) trivial
    (cellEdits layer entries) (fun _ _ => trivial)
  rw [WorldLightAccess.layerEdits, WorldLightAccess.ksort, List.mem_mergeSort]
  obtain ⟨k, v⟩ := edit
  rw [← OrderedMap.get?_eq_some, ← lastWrite_eq_some_iff (h.cells_nodup layer), ← List.foldl_map
    (f := fun e : StagedEntry => (WorldLightAccess.cellKey e.1.2, UInt8.ofNat e.2))
    (g := fun (edits : OrderedMap Nat UInt8) edit => edits.set edit.1 edit.2)]
  have hget := hfold k
  rw [OrderedMap.get?_empty, cellEdits] at hget
  rw [hget, cellEdits]
  cases lastWrite _ k <;> rfl

theorem layerEdits_nodup (layer : LightLayer) (entries : List StagedEntry) :
    ((WorldLightAccess.layerEdits layer entries).map Prod.fst).Nodup := by
  rw [WorldLightAccess.layerEdits, WorldLightAccess.ksort]
  exact ((List.mergeSort_perm _ _).map Prod.fst).nodup_iff.mpr (OrderedMap.keys_nodup _)

theorem SoundEntries.edit_lt {entries : List StagedEntry} (h : SoundEntries position entries)
    {edit : Nat × UInt8} (hedit : edit ∈ WorldLightAccess.layerEdits layer entries) :
    edit.1 < chunkBlockCount ∧ edit.2.toNat < 16 := by
  rw [mem_layerEdits h, cellEdits] at hedit
  obtain ⟨e, he, rfl⟩ := List.mem_map.mp hedit
  have hin := (List.mem_filter.mp he).1
  refine ⟨cellKey_lt (h.inside e hin), ?_⟩
  rw [toNat_level (h.level e hin)]
  exact Nat.lt_succ_of_le (h.level e hin)

theorem lastWrite_layerEdits {entries : List StagedEntry} (h : SoundEntries q.chunk entries)
    (hq : q.isInsideWorld = true) (layer : LightLayer) (v : UInt8) :
    lastWrite ((WorldLightAccess.layerEdits layer entries).map fun edit =>
        (UInt16.ofNat edit.1, edit.2)) (UInt16.ofNat (WorldLightAccess.cellKey q)) = some v ↔
      ∃ level, ((layer, q), level) ∈ entries ∧ UInt8.ofNat level = v := by
  have hnarrow {n : Nat} (hn : n < chunkBlockCount) : (UInt16.ofNat n).toNat = n :=
    UInt16.toNat_ofNat_of_lt' (Nat.lt_trans hn (by decide))
  have hcell := cellKey_lt hq
  have hnodup : (((WorldLightAccess.layerEdits layer entries).map fun edit =>
      (UInt16.ofNat edit.1, edit.2)).map Prod.fst).Nodup := by
    have hkeys := layerEdits_nodup layer entries
    rw [List.map_map]
    rw [List.Nodup, List.pairwise_map] at hkeys ⊢
    refine hkeys.imp_of_mem fun {e e'} he he' hne hkey => hne ?_
    have hcast := congrArg UInt16.toNat hkey
    rwa [Function.comp_apply, Function.comp_apply, hnarrow (h.edit_lt he).1,
      hnarrow (h.edit_lt he').1] at hcast
  rw [lastWrite_eq_some_iff hnodup, List.mem_map]
  constructor
  · rintro ⟨edit, hedit, heq⟩
    obtain ⟨hkey, rfl⟩ := Prod.mk.inj heq
    have hlt := (h.edit_lt hedit).1
    rw [mem_layerEdits h, cellEdits] at hedit
    obtain ⟨e, he, rfl⟩ := List.mem_map.mp hedit
    obtain ⟨hin, hlayer⟩ := List.mem_filter.mp he
    have hcast := congrArg UInt16.toNat hkey
    rw [hnarrow hlt, hnarrow hcell] at hcast
    have hsame := cellKey_inj (h.inside e hin) hq (h.chunk e hin) hcast
    obtain ⟨⟨l, r⟩, level⟩ := e
    cases hsame
    cases of_decide_eq_true hlayer
    exact ⟨level, hin, rfl⟩
  · rintro ⟨level, hin, rfl⟩
    refine ⟨(WorldLightAccess.cellKey q, UInt8.ofNat level), ?_, rfl⟩
    rw [mem_layerEdits h, cellEdits]
    exact List.mem_map.mpr ⟨((layer, q), level), List.mem_filter.mpr ⟨hin, decide_eq_true rfl⟩, rfl⟩

end Cobblestone.Light
