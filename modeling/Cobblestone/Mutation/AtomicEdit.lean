import Cobblestone.Mutation.Coordinator
import Cobblestone.World.Heights

namespace Cobblestone.Mutation

open Lib World Source Storage

variable {γ α : Type} {store : WorldStore} {c : ChunkRecord} {patch : StagedPatch}
  {prepared : PreparedChunkPatch} {log : EditLog} {p : ChunkCoord}

def keptEdits (patch : StagedPatch) (data : ChunkData) : StagedEdits :=
  keptOf data (storedExtra data) patch.edits

theorem keptOf_projected (data : ChunkData) :
    keptOf data (projectedExtra data) patch.edits = keptEdits patch data :=
  (keptOf_eq_iff.mpr fun _ h => (List.not_mem_nil h).elim).symm

-- A patch that prepares does so on the chunk it was opened on.
theorem prepare_ok (hs : WorldStore.Reachable (fun _ => True) store)
    (hc : store.chunks patch.position = some c)
    (h : patch.chunkPatch.prepare store = .ok prepared) :
    Current store patch.chunkPatch c ∧
      prepared = preparedOf patch.chunkPatch (keptEdits patch c.data) := by
  simp only [ChunkPatch.prepare, bind_ok_iff, ensure_ok_iff, decide_eq_true_eq] at h
  obtain ⟨primed, hprime, revision, hrevision, -, hbase, lightRevision, hlight, -, hbaseLight, kept,
    hkept, -, -, -, -, hok⟩ := h
  have hshape : ∃ snapshot, primed = { patch.chunkPatch with snapshot := snapshot } := by
    rw [ChunkPatch.primeSnapshotForPrepare] at hprime
    split at hprime
    · cases hprime
      exact ⟨none, rfl⟩
    · simp only [bind_ok_iff] at hprime
      obtain ⟨snapshot, -, -, -, hprimed⟩ := hprime
      cases hprimed
      exact ⟨some snapshot, rfl⟩
  obtain ⟨taken, rfl⟩ := hshape
  dsimp only at hrevision hbase hlight hbaseLight
  rw [hbase] at hrevision
  rw [hbaseLight] at hlight
  have hcurrent : Current store patch.chunkPatch c :=
    current_of_reachable hs hc hrevision hlight
  refine ⟨hcurrent, ?_⟩
  have hkeeps : kept = keptEdits patch c.data := by
    rw [ChunkPatch.primeSnapshotForPrepare] at hprime
    split at hprime
    · cases hprime
      exact (Except.ok.inj (hcurrent.scalar.symm.trans hkept)).symm
    · rw [hcurrent.snapshot] at hprime
      simp only [ok_bind, bind_ok_iff] at hprime
      obtain ⟨-, -, hprimed⟩ := hprime
      cases hprimed
      rw [← keptOf_projected]
      exact (Except.ok.inj (hcurrent.projection.symm.trans hkept)).symm
  cases hok
  rw [hkeeps]
  rfl

section Kept

variable {κ β δ : Type} [DecidableEq κ]

theorem ksort_perm {β : Type} (edits : List (Nat × β)) :
    (PreparedChunkPatch.ksort edits).Perm edits := List.mergeSort_perm _ _

theorem ksort_isEmpty {β : Type} (edits : List (Nat × β)) :
    (PreparedChunkPatch.ksort edits).isEmpty = edits.isEmpty := by
  rw [Bool.eq_iff_iff, List.isEmpty_iff, List.isEmpty_iff]
  exact ⟨fun h => List.nil_perm.mp (h ▸ ksort_perm edits),
    fun h => List.perm_nil.mp (h ▸ ksort_perm edits)⟩

-- Sorted and encoded, the kept edits still write each key at most once.
theorem lastWrite_kept (m : OrderedMap Nat β) (changed : Nat × β → Bool) (encode : Nat → κ)
    (f : β → δ) {n key : Nat} (hkey : key < n) (hkeys : ∀ k v, m.get? k = some v → k < n)
    (hinj : ∀ k k', k < n → k' < n → encode k = encode k' → k = k') :
    lastWrite ((PreparedChunkPatch.ksort (m.entries.filter changed)).map fun e =>
        (encode e.1, f e.2)) (encode key) =
      ((m.get? key).filter fun v => changed (key, v)).map f := by
  have hmem : ∀ e, e ∈ PreparedChunkPatch.ksort (m.entries.filter changed) ↔
      m.get? e.1 = some e.2 ∧ changed e = true := by
    intro e
    rw [(ksort_perm _).mem_iff, List.mem_filter, OrderedMap.get?_eq_some]
  have hnodup : ((PreparedChunkPatch.ksort (m.entries.filter changed)).map Prod.fst).Nodup :=
    ((ksort_perm _).map Prod.fst).nodup_iff.mpr
      (m.nodup.sublist (List.filter_sublist.map Prod.fst))
  have hencoded : (((PreparedChunkPatch.ksort (m.entries.filter changed)).map fun e =>
      (encode e.1, f e.2)).map Prod.fst).Nodup := by
    have hcomp : Prod.fst ∘ (fun e : Nat × β => (encode e.1, f e.2)) = encode ∘ Prod.fst := rfl
    rw [List.map_map, hcomp, ← List.map_map]
    refine List.Nodup.map_on ?_ hnodup
    intro k hk k' hk' heq
    obtain ⟨e, he, rfl⟩ := List.mem_map.mp hk
    obtain ⟨e', he', rfl⟩ := List.mem_map.mp hk'
    exact hinj _ _ (hkeys _ _ ((hmem e).mp he).1) (hkeys _ _ ((hmem e').mp he').1) heq
  refine Option.ext fun w => ?_
  rw [lastWrite_eq_some_iff hencoded, List.mem_map, Option.map_eq_some_iff]
  constructor
  · rintro ⟨e, he, heq⟩
    obtain ⟨hget, hchanged⟩ := (hmem e).mp he
    obtain ⟨hencode, rfl⟩ := Prod.mk.inj heq
    have hsame : e.1 = key := hinj _ _ (hkeys _ _ hget) hkey hencode
    subst hsame
    exact ⟨e.2, Option.filter_eq_some_iff.mpr ⟨hget, hchanged⟩, rfl⟩
  · rintro ⟨v, hv, rfl⟩
    obtain ⟨hget, hchanged⟩ := Option.filter_eq_some_iff.mp hv
    exact ⟨(key, v), (hmem (key, v)).mpr ⟨hget, hchanged⟩, rfl⟩

theorem filter_getD [DecidableEq β] (o : Option β) (d : β) :
    (o.filter fun v => decide (v ≠ d)).getD d = o.getD d := by
  cases o with
  | none => rfl
  | some v =>
    by_cases h : v = d
    · simp [Option.filter, h]
    · simp [Option.filter, h]

end Kept

theorem origin_lt {key : Nat} (h : BlockOrigin p key) : key < chunkBlockCount := by
  obtain ⟨q, hq, -, rfl⟩ := h
  exact Light.cellKey_lt hq

theorem columnOrigin_lt {key : Nat} (h : ColumnOrigin p key) : key < chunkColumnCount := by
  obtain ⟨x, z, -, rfl⟩ := h
  exact column_lt (localColumn_lt x z).1 (localColumn_lt x z).2

theorem ofNat16_inj {k k' : Nat} (hk : k < chunkBlockCount) (hk' : k' < chunkBlockCount)
    (h : UInt16.ofNat k = UInt16.ofNat k') : k = k' := by
  have heq := congrArg UInt16.toNat h
  rwa [UInt16.toNat_ofNat_of_lt' (Nat.lt_trans hk (by decide)),
    UInt16.toNat_ofNat_of_lt' (Nat.lt_trans hk' (by decide))] at heq

theorem ofNat8_inj {k k' : Nat} (hk : k < chunkColumnCount) (hk' : k' < chunkColumnCount)
    (h : UInt8.ofNat k = UInt8.ofNat k') : k = k' := by
  have heq := congrArg UInt8.toNat h
  rwa [UInt8.toNat_ofNat_of_lt' hk, UInt8.toNat_ofNat_of_lt' hk'] at heq

def committedPatch (patch : StagedPatch) (c : ChunkRecord) : World.ChunkPatch :=
  let kept := keptEdits patch c.data
  nativePatch c.terrainRevision.toInt64 (advanced c.terrainRevision.toInt64 kept.terrainChanged)
    c.lightRevision.toInt64 (advanced c.lightRevision.toInt64 kept.lightChanged)
    (PreparedChunkPatch.sortedEdits kept)

theorem sortedEdits_changed (edits : StagedEdits) :
    (PreparedChunkPatch.sortedEdits edits).terrainChanged = edits.terrainChanged ∧
      (PreparedChunkPatch.sortedEdits edits).lightChanged = edits.lightChanged := by
  simp only [StagedEdits.terrainChanged, StagedEdits.lightChanged, PreparedChunkPatch.sortedEdits,
    ksort_isEmpty, and_self]

theorem committedPatch_accepted (patch : StagedPatch) (ht : c.terrainRevision.toNat < 2 ^ 63)
    (hl : c.lightRevision.toNat < 2 ^ 63) :
    WorldStore.PatchAccepted c (committedPatch patch c) := by
  have h := nativePatch_accepted (PreparedChunkPatch.sortedEdits (keptEdits patch c.data)) ht hl
  rwa [(sortedEdits_changed _).1, (sortedEdits_changed _).2] at h

theorem mem_kept {β : Type} {m : OrderedMap Nat β} {changed : Nat × β → Bool} {e : Nat × β}
    (h : e ∈ PreparedChunkPatch.ksort (m.entries.filter changed)) : m.get? e.1 = some e.2 :=
  OrderedMap.get?_eq_some.mpr (List.mem_filter.mp ((ksort_perm _).mem_iff.mp h)).1

theorem committedPatch_valid (hs : patch.Sound) (c : ChunkRecord) :
    PatchValid (committedPatch patch c) where
  blocks edit hedit := by
    obtain ⟨e, he, rfl⟩ := List.mem_map.mp hedit
    obtain ⟨hsupported, horigin⟩ := hs.blocks _ _ (mem_kept he)
    have hlt := origin_lt horigin
    refine ⟨?_, hsupported⟩
    rwa [UInt16.toNat_ofNat_of_lt' (Nat.lt_trans hlt (by decide))]
  biomes edit hedit := by
    obtain ⟨e, he, rfl⟩ := List.mem_map.mp hedit
    obtain ⟨hvalid, -⟩ := hs.biomes _ _ (mem_kept he)
    have hcolumn := congrArg BiomeColumn.id (fromWord_word hvalid)
    dsimp only at hcolumn ⊢
    rw [hcolumn]
    exact hvalid.1
  extraData edit hedit := by
    obtain ⟨e, he, -⟩ := List.mem_map.mp hedit
    exact (List.not_mem_nil ((ksort_perm _).mem_iff.mp he)).elim
  light edit hedit := by
    have hbound : ∀ {m : OrderedMap Nat UInt8}, (∀ key level, m.get? key = some level →
        level.toNat < 16 ∧ BlockOrigin patch.position key) → ∀ {changed : Nat × UInt8 → Bool},
        edit ∈ (PreparedChunkPatch.ksort (m.entries.filter changed)).map
          (fun edit => (UInt16.ofNat edit.1, edit.2)) →
        edit.1.toNat < chunkBlockCount ∧ edit.2.toNat < 16 := by
      intro m hm changed hmem
      obtain ⟨e, he, rfl⟩ := List.mem_map.mp hmem
      obtain ⟨hlevel, horigin⟩ := hm _ _ (mem_kept he)
      have hlt := origin_lt horigin
      refine ⟨?_, hlevel⟩
      rwa [UInt16.toNat_ofNat_of_lt' (Nat.lt_trans hlt (by decide))]
    exact (List.mem_append.mp hedit).elim (hbound hs.skyLight) (hbound hs.blockLight)

theorem committedPatch_extraData (patch : StagedPatch) (c : ChunkRecord) :
    (committedPatch patch c).extraData = [] := by
  change ((PreparedChunkPatch.ksort []).map _) = []
  rw [List.perm_nil.mp (ksort_perm [])]
  rfl

theorem blockKey_lt {q : World.BlockPos} (hq : q.isInsideWorld = true) :
    blockKey q < chunkBlockCount := Light.cellKey_lt hq

theorem toNat_blockKey {q : World.BlockPos} (hq : q.isInsideWorld = true) :
    (UInt16.ofNat (blockKey q)).toNat = blockKey q :=
  UInt16.toNat_ofNat_of_lt' (Nat.lt_trans (blockKey_lt hq) (by decide))

theorem toNat_columnKey (x z : Int) : (UInt8.ofNat (columnKey x z)).toNat = columnKey x z :=
  UInt8.toNat_ofNat_of_lt' (column_lt (localColumn_lt x z).1 (localColumn_lt x z).2)

-- An edit that the filter drops writes what is there.
theorem kept_getD {β : Type} [DecidableEq β] {m : OrderedMap Nat β} {takes : β → Prop}
    (hm : ∀ key v, m.get? key = some v → takes v ∧ BlockOrigin p key)
    (read : Nat → Nat → Nat → β) {q : World.BlockPos} (hq : q.isInsideWorld = true) :
    (lastWrite ((PreparedChunkPatch.ksort (m.entries.filter fun edit =>
        decide (edit.2 ≠ atKey read edit.1))).map fun edit => (UInt16.ofNat edit.1, edit.2))
      (UInt16.ofNat (blockKey q))).getD (read q.localX q.y.toNat q.localZ) =
        (m.get? (blockKey q)).getD (read q.localX q.y.toNat q.localZ) := by
  have hkept := lastWrite_kept m (fun edit => decide (edit.2 ≠ atKey read edit.1)) UInt16.ofNat id
    (blockKey_lt hq) (fun k v hk => origin_lt (hm k v hk).2) fun _ _ => ofNat16_inj
  simp only [id_eq, Option.map_id, atKey_blockKey hq] at hkept
  rw [hkept, filter_getD]

section Planes

variable (hw : c.data.WellFormed) (hs : patch.Sound)

include hw hs

theorem committed_planes : PlanesPatched c.data (committedPatch patch c)
    (WorldStore.patchData c.data (committedPatch patch c)) :=
  patchData_planes hw (committedPatch_valid hs c)

theorem committed_column (x z : Int) :
    storedColumn (WorldStore.patchData c.data (committedPatch patch c)) (localColumn x z).1
        (localColumn x z).2 =
      (patch.biomes.get? (columnKey x z)).getD
        (storedColumn c.data (localColumn x z).1 (localColumn x z).2) := by
  have hlast := (committed_planes hw hs).biomes_last (UInt8.ofNat (columnKey x z))
  have hstored := storedColumn_valid hw x z
  have hkept := lastWrite_kept patch.biomes (fun edit => decide (edit.2.word ≠
      (atColumn (storedColumn c.data) edit.1).word)) UInt8.ofNat BiomeColumn.word
    (column_lt (localColumn_lt x z).1 (localColumn_lt x z).2)
    (fun k v hk => columnOrigin_lt (hs.biomes k v hk).2) fun _ _ => ofNat8_inj
  have hwrite : lastWrite (committedPatch patch c).biomes (UInt8.ofNat (columnKey x z)) = _ := hkept
  rw [toNat_columnKey, hwrite] at hlast
  rw [storedColumn, ← columnKey, hlast]
  have hcolumn := atColumn_columnKey x z (storedColumn c.data)
  cases hget : patch.biomes.get? (columnKey x z) with
  | none =>
    rw [← columnKey, hget]
    rfl
  | some column =>
    have hvalid := (hs.biomes _ _ hget).1
    rw [← columnKey, hget]
    by_cases hsame : column = storedColumn c.data (localColumn x z).1 (localColumn x z).2
    · simp only [Option.filter, hcolumn, hsame, ne_eq, not_true_eq_false, decide_false]
      rfl
    · have hword := (word_inj hvalid hstored).not.mpr hsame
      simp only [Option.filter, hcolumn, hword, ne_eq, not_false_eq_true, decide_true, if_true]
      exact fromWord_word hvalid

-- The committed chunk holds the staged value of every cell that has one.
theorem committed_valueIn {cell : EditCell} (hcell : cell.isInsideWorld = true) :
    valueIn (WorldStore.patchData c.data (committedPatch patch c)) cell =
      (patch.staged cell).getD (valueIn c.data cell) := by
  have hplanes := committed_planes hw hs
  cases cell with
  | block q =>
    have hlast := hplanes.states_last (UInt16.ofNat (blockKey q))
    rw [toNat_blockKey hcell] at hlast
    rw [valueIn, hlast, StagedPatch.staged, valueIn, Option.getD_map]
    exact congrArg EditValue.state (kept_getD hs.blocks
      (fun x y z => c.data.states.getD (ChunkCoordinateKey.block x y z) 0) hcell)
  | biome x z =>
    rw [valueIn, committed_column hw hs, StagedPatch.staged, valueIn, Option.getD_map]
  | extraData q =>
    obtain ⟨heights, heq⟩ := patchData_eq c.data (committedPatch patch c)
    rw [heq, committedPatch_extraData]
    rfl
  | skyLight q =>
    have hlast := hplanes.skyLight_last (UInt16.ofNat (blockKey q))
    rw [toNat_blockKey hcell] at hlast
    rw [valueIn, hlast, StagedPatch.staged, valueIn, Option.getD_map]
    exact congrArg EditValue.level (kept_getD hs.skyLight
      (fun x y z => readNibble c.data.skyLight (ChunkCoordinateKey.block x y z)) hcell)
  | blockLight q =>
    have hlast := hplanes.blockLight_last (UInt16.ofNat (blockKey q))
    rw [toNat_blockKey hcell] at hlast
    rw [valueIn, hlast, StagedPatch.staged, valueIn, Option.getD_map]
    exact congrArg EditValue.level (kept_getD hs.blockLight
      (fun x y z => readNibble c.data.blockLight (ChunkCoordinateKey.block x y z)) hcell)

end Planes

def EditCell.isTerrain : EditCell → Bool
  | .block _ | .biome _ _ | .extraData _ => true
  | .skyLight _ | .blockLight _ => false

-- Some write that stands at the end gives a cell of the chunk another value.
def Alters (terrain : Bool) (log : EditLog) (p : ChunkCoord) (data : ChunkData) : Prop :=
  ∃ cell value, cell.isInsideWorld = true ∧ cell.chunk = p.pos ∧ cell.isTerrain = terrain ∧
    lastWrite (writes log) cell = some value ∧ value ≠ valueIn data cell

theorem filter_isEmpty_iff {β : Type} {m : OrderedMap Nat β} {changed : Nat × β → Bool} :
    (m.entries.filter changed).isEmpty = false ↔
      ∃ key v, m.get? key = some v ∧ changed (key, v) = true := by
  rw [List.isEmpty_eq_false_iff_exists_mem]
  simp only [List.mem_filter, Prod.exists, OrderedMap.get?_eq_some]

section Effective

variable (h : Traced log store patch)

include h

theorem kept_terrain_iff (hw : c.data.WellFormed) :
    (keptEdits patch c.data).terrainChanged = true ↔ Alters true log patch.position c.data := by
  simp only [StagedEdits.terrainChanged, keptEdits, keptOf, StagedPatch.edits, Bool.or_eq_true,
    Bool.not_eq_true', filter_isEmpty_iff, decide_eq_true_eq]
  constructor
  · rintro ((⟨key, state, hget, hne⟩ | ⟨key, column, hget, hne⟩) | hnone)
    · obtain ⟨-, q, hq, hchunk, rfl⟩ := h.sound.blocks _ _ hget
      rw [atKey_blockKey hq] at hne
      refine ⟨.block q, .state state, hq, hchunk, rfl, ?_, fun heq => hne (EditValue.state.inj heq)⟩
      rw [← h.staged (.block q) hq hchunk, StagedPatch.staged, hget]
      rfl
    · obtain ⟨-, x, z, hchunk, rfl⟩ := h.sound.biomes _ _ hget
      rw [atColumn_columnKey] at hne
      refine ⟨.biome x z, .column column, rfl, hchunk, rfl, ?_, fun heq => hne ?_⟩
      · rw [← h.staged (.biome x z) rfl hchunk, StagedPatch.staged, hget]
        rfl
      · rw [EditValue.column.inj heq]
    · cases hnone
  · rintro ⟨cell, value, hcell, hchunk, hterrain, hwrite, hne⟩
    rw [← h.staged cell hcell hchunk] at hwrite
    cases cell with
    | block q =>
      obtain ⟨state, hget, rfl⟩ := Option.map_eq_some_iff.mp hwrite
      refine .inl (.inl ⟨blockKey q, state, hget, fun heq => hne (congrArg _ ?_)⟩)
      rwa [atKey_blockKey hcell] at heq
    | biome x z =>
      obtain ⟨column, hget, rfl⟩ := Option.map_eq_some_iff.mp hwrite
      refine .inl (.inr ⟨columnKey x z, column, hget, fun heq => hne (congrArg _ ?_)⟩)
      rw [atColumn_columnKey] at heq
      exact (word_inj (h.sound.biomes _ _ hget).1 (storedColumn_valid hw x z)).mp heq
    | extraData q => cases hwrite
    | skyLight q => cases hterrain
    | blockLight q => cases hterrain

theorem kept_light_iff : (keptEdits patch c.data).lightChanged = true ↔
    Alters false log patch.position c.data := by
  simp only [StagedEdits.lightChanged, keptEdits, keptOf, StagedPatch.edits, Bool.or_eq_true,
    Bool.not_eq_true', filter_isEmpty_iff, decide_eq_true_eq]
  constructor
  · rintro (⟨key, level, hget, hne⟩ | ⟨key, level, hget, hne⟩)
    · obtain ⟨-, q, hq, hchunk, rfl⟩ := h.sound.skyLight _ _ hget
      rw [atKey_blockKey hq] at hne
      refine ⟨.skyLight q, .level level, hq, hchunk, rfl, ?_, fun heq => hne (EditValue.level.inj heq)⟩
      rw [← h.staged (.skyLight q) hq hchunk, StagedPatch.staged, hget]
      rfl
    · obtain ⟨-, q, hq, hchunk, rfl⟩ := h.sound.blockLight _ _ hget
      rw [atKey_blockKey hq] at hne
      refine ⟨.blockLight q, .level level, hq, hchunk, rfl, ?_,
        fun heq => hne (EditValue.level.inj heq)⟩
      rw [← h.staged (.blockLight q) hq hchunk, StagedPatch.staged, hget]
      rfl
  · rintro ⟨cell, value, hcell, hchunk, hterrain, hwrite, hne⟩
    rw [← h.staged cell hcell hchunk] at hwrite
    cases cell with
    | skyLight q =>
      obtain ⟨level, hget, rfl⟩ := Option.map_eq_some_iff.mp hwrite
      refine .inl ⟨blockKey q, level, hget, fun heq => hne (congrArg _ ?_)⟩
      rwa [atKey_blockKey hcell] at heq
    | blockLight q =>
      obtain ⟨level, hget, rfl⟩ := Option.map_eq_some_iff.mp hwrite
      refine .inr ⟨blockKey q, level, hget, fun heq => hne (congrArg _ ?_)⟩
      rwa [atKey_blockKey hcell] at heq
    | block q => cases hterrain
    | biome x z => cases hterrain
    | extraData q => cases hterrain

end Effective

-- The chunk before and after the commit of the writes that a log ends with.
structure Edited (log : EditLog) (p : ChunkCoord) (c c' : ChunkRecord) : Prop where
  cells : ∀ cell, cell.isInsideWorld = true → cell.chunk = p.pos →
    valueIn c'.data cell = (lastWrite (writes log) cell).getD (valueIn c.data cell)
  terrain_altered : Alters true log p c.data →
    c'.terrainRevision.toNat = c.terrainRevision.toNat + 1
  terrain_kept : ¬Alters true log p c.data → c'.terrainRevision = c.terrainRevision
  light_altered : Alters false log p c.data → c'.lightRevision.toNat = c.lightRevision.toNat + 1
  light_kept : ¬Alters false log p c.data → c'.lightRevision = c.lightRevision
  unaltered : ¬Alters true log p c.data → ¬Alters false log p c.data → c' = c
  extraData : c'.data.extraData = c.data.extraData
  chests : c'.data.chestBlockEntities = c.data.chestBlockEntities
  heights : HeightsKept c.data → HeightsKept c'.data
  record : c' = { c with
    data := c'.data
    terrainRevision := c'.terrainRevision
    lightRevision := c'.lightRevision }

theorem edited_unaltered (hterrain : ¬Alters true log p c.data) (hlight : ¬Alters false log p c.data) :
    Edited log p c c where
  cells cell hcell hchunk := by
    cases hwrite : lastWrite (writes log) cell with
    | none => rfl
    | some value =>
      rw [Option.getD_some]
      by_contra hne
      have halters : Alters cell.isTerrain log p c.data :=
        ⟨cell, value, hcell, hchunk, rfl, hwrite, Ne.symm hne⟩
      cases hkind : cell.isTerrain with
      | true => exact hterrain (hkind ▸ halters)
      | false => exact hlight (hkind ▸ halters)
  terrain_altered h := absurd h hterrain
  terrain_kept _ := rfl
  light_altered h := absurd h hlight
  light_kept _ := rfl
  unaltered _ _ := rfl
  extraData := rfl
  chests := rfl
  heights := id
  record := rfl

theorem changes_terrain (patch : StagedPatch) (c : ChunkRecord) :
    WorldStore.patchChangesTerrain (committedPatch patch c) =
      (keptEdits patch c.data).terrainChanged := by
  rw [← (sortedEdits_changed (keptEdits patch c.data)).1]
  simp [WorldStore.patchChangesTerrain, committedPatch, nativePatch, StagedEdits.terrainChanged]

theorem changes_light (patch : StagedPatch) (c : ChunkRecord) :
    WorldStore.patchChangesLight (committedPatch patch c) =
      (keptEdits patch c.data).lightChanged := by
  rw [← (sortedEdits_changed (keptEdits patch c.data)).2]
  simp [WorldStore.patchChangesLight, committedPatch, nativePatch, StagedEdits.lightChanged]

theorem edited_committed (h : Traced log store patch) (hw : c.data.WellFormed)
    (ht : c.terrainRevision.toNat < 2 ^ 63) (hl : c.lightRevision.toNat < 2 ^ 63)
    (hchanged : (keptEdits patch c.data).terrainChanged = true ∨
      (keptEdits patch c.data).lightChanged = true) :
    Edited log patch.position c (WorldStore.patched c (committedPatch patch c)) := by
  have haccepted := committedPatch_accepted patch ht hl
  have hterrain := haccepted.nextTerrain
  have hlight := haccepted.nextLight
  rw [changes_terrain] at hterrain
  rw [changes_light] at hlight
  have hplanes := committed_planes hw h.sound
  have hterrainIff := kept_terrain_iff h hw
  have hlightIff := kept_light_iff h (c := c)
  refine ⟨fun cell hcell hchunk => ?_, fun ha => ?_, fun ha => ?_, fun ha => ?_, fun ha => ?_,
    fun hnt hnl => ?_, ?_, hplanes.chests, fun hh => patchData_heights hh _, rfl⟩
  · rw [← h.staged cell hcell hchunk]
    exact committed_valueIn hw h.sound hcell
  · rw [if_pos (hterrainIff.mpr ha)] at hterrain
    exact checkedSucc_toNat hterrain
  · rw [if_neg (hterrainIff.not.mpr ha)] at hterrain
    exact (Option.some.inj hterrain).symm
  · rw [if_pos (hlightIff.mpr ha)] at hlight
    exact checkedSucc_toNat hlight
  · rw [if_neg (hlightIff.not.mpr ha)] at hlight
    exact (Option.some.inj hlight).symm
  · rcases hchanged with hterrain | hlight
    · exact absurd (hterrainIff.mp hterrain) hnt
    · exact absurd (hlightIff.mp hlight) hnl
  · obtain ⟨heights, heq⟩ := patchData_eq c.data (committedPatch patch c)
    rw [WorldStore.patched_data, heq, committedPatch_extraData]
    rfl

theorem advanced_ne (base : Int64) (changed : Bool) : advanced base changed ≠ base ↔ changed = true := by
  cases changed with
  | false => simp [advanced]
  | true => simp [advanced]

theorem preparedOf_changed (patch : StagedPatch) (kept : StagedEdits) :
    (preparedOf patch.chunkPatch kept).changed = true ↔
      kept.terrainChanged = true ∨ kept.lightChanged = true := by
  rw [PreparedChunkPatch.changed, Bool.or_eq_true, decide_eq_true_eq, decide_eq_true_eq]
  exact or_congr (advanced_ne patch.baseRevision _) (advanced_ne patch.baseLightRevision _)

theorem current_transport {store' : WorldStore} (h : Current store patch.chunkPatch c)
    (hsame : store'.chunks patch.position = store.chunks patch.position) :
    Current store' patch.chunkPatch c where
  resident := hsame.trans h.resident
  wellFormed := h.wellFormed
  revision := by
    have hread := h.revision
    rw [Chunk.revision, WorldStore.terrainRevision, WorldStore.withChunk] at hread ⊢
    rwa [show store'.chunks patch.chunkPatch.position = _ from hsame]
  lightRevision := by
    have hread := h.lightRevision
    rw [Chunk.lightRevision, WorldStore.lightRevision, WorldStore.withChunk] at hread ⊢
    rwa [show store'.chunks patch.chunkPatch.position = _ from hsame]

-- No conflict is left for the commit to meet.
theorem commit_ok (h : Current store patch.chunkPatch c) (hs : patch.Sound)
    (hchanged : (preparedOf patch.chunkPatch (keptEdits patch c.data)).changed = true) :
    ∃ store', (preparedOf patch.chunkPatch (keptEdits patch c.data)).commit store =
        (.ok (), store') ∧
      store'.chunks = Function.update store.chunks patch.position
        (some (WorldStore.patched c (committedPatch patch c))) := by
  obtain ⟨ht, hbase⟩ := revision_ok h.resident h.revision
  obtain ⟨hl, hbaseLight⟩ := lightRevision_ok h.resident h.lightRevision
  have hvalidate : (preparedOf patch.chunkPatch (keptEdits patch c.data)).validate store = .ok () := by
    have hrevision : Chunk.revision store patch.position = .ok patch.baseRevision := h.revision
    have hlight : Chunk.lightRevision store patch.position = .ok patch.baseLightRevision :=
      h.lightRevision
    simp only [PreparedChunkPatch.validate, preparedOf, StagedPatch.chunkPatch, hrevision, hlight,
      ok_bind, decide_true, ensure_true]
  obtain ⟨store', happlied, hchunks⟩ := applyPatch_accepted h.resident
    (committedPatch_valid hs c) (committedPatch_accepted patch ht hl)
  refine ⟨store', ?_, hchunks⟩
  rw [PreparedChunkPatch.commit, hvalidate]
  dsimp only
  rw [if_pos hchanged, ← happlied, ← hbase, ← hbaseLight]
  rfl

-- A patch that was prepared on the chunk that the store still holds.
structure Ready (log : EditLog) (store : WorldStore) (patch : StagedPatch)
    (prepared : PreparedChunkPatch) : Prop where
  traced : Traced log store patch
  current : ∃ c, Current store patch.chunkPatch c ∧
    prepared = preparedOf patch.chunkPatch (keptEdits patch c.data)

theorem commitAll_ready {before : WorldStore} {patches : List StagedPatch}
    {prepared : List PreparedChunkPatch} (hready : List.Forall₂ (Ready log before) patches prepared)
    (hdistinct : (patches.map StagedPatch.position).Nodup) (store : WorldStore)
    (hsame : ∀ patch ∈ patches, store.chunks patch.position = before.chunks patch.position) :
    ∃ store', MutationCoordinator.commitAll prepared store = (.ok (), store') ∧
      (∀ patch ∈ patches, ∀ c, before.chunks patch.position = some c →
        ∃ c', store'.chunks patch.position = some c' ∧ Edited log patch.position c c') ∧
      ∀ p, p ∉ patches.map StagedPatch.position → store'.chunks p = store.chunks p := by
  induction hready generalizing store with
  | nil => exact ⟨store, rfl, nofun, fun _ _ => rfl⟩
  | @cons patch prepared patches rest hfirst hrest ih =>
    obtain ⟨htraced, c, hcurrent, rfl⟩ := hfirst
    rw [List.map_cons, List.nodup_cons] at hdistinct
    obtain ⟨hfresh, hdistinct⟩ := hdistinct
    have hne : ∀ other ∈ patches, other.position ≠ patch.position :=
      fun other hother heq => hfresh (heq ▸ List.mem_map_of_mem hother)
    have hhere := hsame patch List.mem_cons_self
    have hstep : ∃ store₁ c', (MutationCoordinator.commitAll
          (preparedOf patch.chunkPatch (keptEdits patch c.data) :: rest) store =
            MutationCoordinator.commitAll rest store₁) ∧
        store₁.chunks = Function.update store.chunks patch.position (some c') ∧
        Edited log patch.position c c' := by
      rw [MutationCoordinator.commitAll]
      split
      · next hchanged =>
        have hnow := current_transport hcurrent hhere
        obtain ⟨store₁, hcommit, hchunks⟩ := commit_ok hnow htraced.sound hchanged
        refine ⟨store₁, _, by rw [hcommit], hchunks, ?_⟩
        exact edited_committed htraced hcurrent.wellFormed
          (revision_ok hcurrent.resident hcurrent.revision).1
          (lightRevision_ok hcurrent.resident hcurrent.lightRevision).1
          ((preparedOf_changed _ _).mp hchanged)
      · next hchanged =>
        rw [preparedOf_changed, not_or] at hchanged
        refine ⟨store, c, rfl, ?_, ?_⟩
        · rw [← hcurrent.resident, show patch.chunkPatch.position = patch.position from rfl, ← hhere,
            Function.update_eq_self]
        · exact edited_unaltered ((kept_terrain_iff htraced hcurrent.wellFormed).not.mp hchanged.1)
            ((kept_light_iff htraced).not.mp hchanged.2)
    obtain ⟨store₁, c', hrun, hchunks, hedited⟩ := hstep
    have hkept : ∀ p, p ≠ patch.position → store₁.chunks p = store.chunks p :=
      fun p hp => by rw [hchunks, Function.update_of_ne hp]
    obtain ⟨final, hfinal, hpatched, hothers⟩ := ih hdistinct store₁ fun other hother =>
      (hkept _ (hne other hother)).trans (hsame other (List.mem_cons_of_mem _ hother))
    refine ⟨final, hrun.trans hfinal, fun other hother d hd => ?_, fun p hp => ?_⟩
    · rcases List.mem_cons.mp hother with rfl | hother
      · have hresident : before.chunks other.position = some c := hcurrent.resident
        rw [hresident] at hd
        cases hd
        refine ⟨c', ?_, hedited⟩
        rw [hothers _ hfresh, hchunks, Function.update_self]
      · exact hpatched other hother d hd
    · rw [List.map_cons, List.mem_cons, not_or] at hp
      rw [hothers p hp.2, hkept p hp.1]

-- The whole world before and after the commit.
structure Committed (log : EditLog) (s t : WorldStore) : Prop where
  chunks : ∀ p c, s.chunks p = some c → ∃ c', t.chunks p = some c' ∧ Edited log p c c'
  absent : ∀ p, s.chunks p = none → t.chunks p = none

-- Every request was answered with its own earlier writes over the world.
def ReadsOwn (log : EditLog) (store : WorldStore) : Prop :=
  ∀ before request seen after, log = before ++ (request, seen) :: after →
    ∃ p c, request.cell.chunk = p.pos ∧ store.chunks p = some c ∧
      seen = (lastWrite (writes before) request.cell).getD (valueIn c.data request.cell)

theorem valueIn_between {first d c : ChunkRecord} (hfirst : Stamps first d) (hd : Stamps d c)
    (hterrain : c.terrainRevision = first.terrainRevision)
    (hlight : c.lightRevision = first.lightRevision) (cell : EditCell) :
    valueIn d.data cell = valueIn c.data cell := by
  have hterrain' : c.terrainRevision = d.terrainRevision :=
    UInt64.le_antisymm (hterrain ▸ hfirst.terrain) hd.terrain
  have hlight' : c.lightRevision = d.lightRevision :=
    UInt64.le_antisymm (hlight ▸ hfirst.light) hd.light
  obtain ⟨hstates, hbiomes, hextra⟩ := hd.sameTerrain hterrain'
  obtain ⟨hsky, hblock⟩ := hd.sameLight hlight'
  cases cell with
  | block q => rw [valueIn, valueIn, hstates]
  | biome x z => rw [valueIn, valueIn, storedColumn, storedColumn, hbiomes]
  | extraData q => rw [valueIn, valueIn, storedExtra, storedExtra, hextra]
  | skyLight q => rw [valueIn, valueIn, hsky]
  | blockLight q => rw [valueIn, valueIn, hblock]

section Settling

variable {s : EditState γ} {coordinator : MutationCoordinator γ}

theorem Logged.positions (h : Logged log s) :
    (coordinator.orderPatches s.patches).map StagedPatch.position |>.Nodup := by
  have hperm : (coordinator.orderPatches s.patches).Perm (s.patches.entries.map Prod.snd) :=
    List.mergeSort_perm _ _
  have hkeys : (s.patches.entries.map Prod.snd).map StagedPatch.position =
      s.patches.entries.map Prod.fst := by
    rw [List.map_map]
    refine List.map_congr_left fun e he => ?_
    exact (h.patches e.1 e.2 (OrderedMap.get?_eq_some.mpr he)).1
  rw [(hperm.map _).nodup_iff, hkeys]
  exact s.patches.nodup

theorem mem_orderPatches {patches : OrderedMap ChunkCoord StagedPatch} :
    patch ∈ coordinator.orderPatches patches ↔ ∃ p, patches.get? p = some patch := by
  rw [MutationCoordinator.orderPatches, (List.mergeSort_perm _ _).mem_iff, List.mem_map]
  constructor
  · rintro ⟨e, he, rfl⟩
    exact ⟨e.1, OrderedMap.get?_eq_some.mpr he⟩
  · rintro ⟨p, hp⟩
    exact ⟨(p, patch), OrderedMap.get?_eq_some.mp hp, rfl⟩

theorem Logged.traced (h : Logged log s) (hpatch : patch ∈ coordinator.orderPatches s.patches) :
    Traced log s.store patch := by
  obtain ⟨p, hp⟩ := mem_orderPatches.mp hpatch
  exact (h.patches p patch hp).2

theorem Logged.ready (h : Logged log s) {prepared : List PreparedChunkPatch}
    (hprepare : MutationCoordinator.prepareAll s.store (coordinator.orderPatches s.patches) =
      .ok prepared) :
    List.Forall₂ (Ready log s.store) (coordinator.orderPatches s.patches) prepared := by
  simp only [MutationCoordinator.prepareAll, bind_ok_iff] at hprepare
  obtain ⟨found, hfound, -, -, hok⟩ := hprepare
  cases hok
  refine ((List.forall₂_and_left _ _).mpr ⟨fun patch hpatch => h.traced hpatch,
    mapM_ok_iff.mp hfound⟩).imp fun patch prepared hpatch => ?_
  obtain ⟨first, c, hc, -⟩ := hpatch.1.current
  exact ⟨hpatch.1, c, prepare_ok h.reachable hc hpatch.2⟩

theorem toInt64_inj {n m : UInt64} (h : n.toInt64 = m.toInt64) : n = m := by
  rw [← UInt64.toUInt64_toInt64 n, h, UInt64.toUInt64_toInt64]

theorem Logged.readsOwn (h : Logged log s) {prepared : List PreparedChunkPatch}
    (hready : List.Forall₂ (Ready log s.store) (coordinator.orderPatches s.patches) prepared) :
    ReadsOwn log s.store := by
  intro before request seen after hlog
  have hmem : (request, seen) ∈ log := by
    rw [hlog]
    exact List.mem_append_right _ List.mem_cons_self
  obtain ⟨-, p, patch, hpatch, hchunk⟩ := h.requested _ hmem
  have hposition := (h.patches p patch hpatch).1
  subst hposition
  have hordered : patch ∈ coordinator.orderPatches s.patches := mem_orderPatches.mpr ⟨_, hpatch⟩
  obtain ⟨first, c, hc, hopened, -, hbetween⟩ := (h.traced hordered).current
  obtain ⟨d, hfirst, hd, hseen⟩ := hbetween before request seen after hlog hchunk
  have hall : ∀ patch ∈ coordinator.orderPatches s.patches,
      ∃ c, Current s.store patch.chunkPatch c :=
    ((List.forall₂_and_left _ _).mp (hready.imp fun _ _ hpatch =>
      ⟨hpatch.current.imp fun _ => And.left, hpatch⟩)).1
  obtain ⟨c', hcurrent⟩ := hall patch hordered
  have hsame : c' = c := Option.some.inj (hcurrent.resident.symm.trans hc)
  subst hsame
  obtain ⟨-, hterrain⟩ := revision_ok hc hcurrent.revision
  obtain ⟨-, hlight⟩ := lightRevision_ok hc hcurrent.lightRevision
  refine ⟨_, c', hchunk, hc, ?_⟩
  rw [hseen, valueIn_between hfirst hd ?_ ?_]
  · exact toInt64_inj (hterrain.symm.trans hopened.terrain)
  · exact toInt64_inj (hlight.symm.trans hopened.light)

theorem Logged.committed (h : Logged log s) {prepared : List PreparedChunkPatch}
    (hready : List.Forall₂ (Ready log s.store) (coordinator.orderPatches s.patches) prepared) :
    ∃ store', MutationCoordinator.commitAll prepared s.store = (.ok (), store') ∧
      Committed log s.store store' := by
  obtain ⟨store', hcommit, hpatched, hothers⟩ :=
    commitAll_ready hready h.positions s.store fun _ _ => rfl
  refine ⟨store', hcommit, fun p c hc => ?_, fun p hnone => ?_⟩
  · by_cases hp : p ∈ (coordinator.orderPatches s.patches).map StagedPatch.position
    · obtain ⟨patch, hpatch, rfl⟩ := List.mem_map.mp hp
      exact hpatched patch hpatch c hc
    · have hunwritten : ∀ terrain, ¬Alters terrain log p c.data := by
        rintro terrain ⟨cell, value, -, hchunk, -, hwrite, -⟩
        obtain ⟨e, he, hedit⟩ := mem_writes (lastWrite_mem hwrite)
        obtain ⟨-, r, patch, hpatch, hcell⟩ := h.requested e he
        have hr : r = p := pos_inj (hcell.symm.trans (write_cell hedit ▸ hchunk))
        subst hr
        have hkey := (h.patches r patch hpatch).1
        exact hp (List.mem_map.mpr ⟨patch, mem_orderPatches.mpr ⟨r, hpatch⟩, hkey⟩)
      exact ⟨c, (hothers p hp).trans hc, edited_unaltered (hunwritten true) (hunwritten false)⟩
  · have hp : p ∉ (coordinator.orderPatches s.patches).map StagedPatch.position := by
      intro hp
      obtain ⟨patch, hpatch, rfl⟩ := List.mem_map.mp hp
      obtain ⟨first, c, hc, -⟩ := (h.traced hpatch).current
      rw [hc] at hnone
      cases hnone
    exact (hothers p hp).trans hnone

-- Settling an attempt commits all of it or touches nothing.
theorem settle_cases (coordinator : MutationCoordinator γ) (h : Logged log s) (value : α) (allowedChunks : List ChunkPos) :
    ((∃ store', coordinator.settle value allowedChunks s = (.returned value, s.withStore store') ∧
        Committed log s.store store') ∧ ReadsOwn log s.store) ∨
      (∃ e, coordinator.settle value allowedChunks s = (.thrown e, s)) ∨
      ∃ allowedChunks', coordinator.settle value allowedChunks s = (.again allowedChunks', s) := by
  rw [MutationCoordinator.settle]
  split
  · exact .inr (.inr ⟨_, rfl⟩)
  · split
    · exact .inr (.inr ⟨_, rfl⟩)
    · exact .inr (.inl ⟨_, rfl⟩)
    · next prepared hprepare =>
      have hready := h.ready hprepare
      obtain ⟨store', hcommit, hcommitted⟩ := h.committed hready
      rw [hcommit]
      exact .inl ⟨⟨store', rfl, hcommitted⟩, h.readsOwn hready⟩

end Settling

-- One step of serving a chunk: a load worker's, or the source's own.
def ServeStep {γ : Type} (chunks : OwnerSource γ) (s t : InfiniteChunkSource γ) : Prop :=
  (∃ work : LoadWork, t = s.onWorld work.perform) ∨ ∃ p, t = ((chunks.getOrGenerate p).exec s).2

-- What loading and generating chunks for requests leads to, without an edit.
abbrev Served {γ : Type} (chunks : OwnerSource γ) :
    InfiniteChunkSource γ → InfiniteChunkSource γ → Prop := Relation.ReflTransGen (ServeStep chunks)

def ServedState {γ : Type} (chunks : OwnerSource γ) (s t : EditState γ) : Prop :=
  Served chunks s.source t.source

instance {γ : Type} {chunks : OwnerSource γ} : Std.Refl (ServedState chunks) := ⟨fun _ => .refl⟩

instance {γ : Type} {chunks : OwnerSource γ} : IsTrans (EditState γ) (ServedState chunks) :=
  ⟨fun _ _ _ => Relation.ReflTransGen.trans⟩

section Run

variable {s : EditState γ} {coordinator : MutationCoordinator γ}

theorem work_served : Served coordinator.chunks s.source (coordinator.work s).source := by
  have hfold : ∀ (works : List LoadWork) (source : InfiniteChunkSource γ),
      Served coordinator.chunks source
        (source.onWorld fun w => works.foldl (fun w work => work.perform w) w) := by
    intro works
    induction works with
    | nil => exact fun source => .refl
    | cons work works ih =>
      intro source
      exact .head (.inl ⟨work, rfl⟩) (ih (source.onWorld work.perform))
  exact hfold _ s.source

theorem patchForChunk_served (coordinator : MutationCoordinator γ) (position : ChunkPos)
    (s : EditState γ) :
    ServedState coordinator.chunks s (coordinator.patchForChunk position s).2 := by
  rw [MutationCoordinator.patchForChunk]
  cases position.coord? with
  | none => exact .refl
  | some p =>
    dsimp only
    cases s.patches.get? p with
    | some patch => exact .refl
    | none =>
      dsimp only
      have hserved : Served coordinator.chunks s.source
          ((coordinator.chunks.getOrGenerate p).exec (coordinator.work s).source).2 :=
        work_served.tail (.inr ⟨p, rfl⟩)
      rcases hrun : (coordinator.chunks.getOrGenerate p).exec (coordinator.work s).source with
        ⟨e | chunk, source⟩
      · rw [hrun] at hserved
        exact hserved
      · rw [hrun] at hserved
        dsimp only
        cases StagedPatch.construct source.native.store chunk with
        | error e => exact hserved
        | ok patch => exact hserved

theorem perform_served (request : EditRequest) (s : EditState γ) :
    ServedState coordinator.chunks s (coordinator.perform request s).2 := by
  rw [MutationCoordinator.perform]
  split
  · have hserved := patchForChunk_served coordinator request.cell.chunk s
    rcases hrun : coordinator.patchForChunk request.cell.chunk s with ⟨e | patch, t⟩
    · rw [hrun] at hserved
      exact hserved
    · rw [hrun] at hserved
      dsimp only
      cases patch.answer t.store request with
      | error e => exact hserved
      | ok answered => exact hserved
  · exact .refl

-- The attempt that an edit returns from, and what is committed of it.
structure Applied (coordinator : MutationCoordinator γ) (operation : Operation α) (value : α)
    (start before after : EditState γ) : Prop where
  fresh : start.patches = .empty
  ran : operation.run coordinator.perform start = (.ok value, before)
  served : Served coordinator.chunks start.source before.source
  reads : ReadsOwn (operation.log coordinator.perform start) before.store
  committed : Committed (operation.log coordinator.perform start) before.store after.store
  rest : after.source = before.source.onWorld fun w => w.withStore after.store

-- An edit is applied whole, or it only had chunks served.
def AtomicEdit (coordinator : MutationCoordinator γ) (operation : Operation α) (s : EditState γ) :
    Except EditError α × EditState γ → Prop
  | (.ok value, after) => ∃ start before, Served coordinator.chunks s.source start.source ∧
      Applied coordinator operation value start before after
  | (.error _, after) => Served coordinator.chunks s.source after.source

theorem attempts_atomic (coordinator : MutationCoordinator γ) (operation : Operation α) (left : Nat)
    (allowedChunks : List ChunkPos) (s : EditState γ) (hs : WorldStore.Reachable (fun _ => True) s.store) :
    AtomicEdit coordinator operation s (coordinator.attempts operation left allowedChunks s) := by
  induction left generalizing s allowedChunks with
  | zero => exact .refl
  | succ left ih =>
    have hlogged := run_logged coordinator operation hs
    have hserved : ServedState coordinator.chunks { s with patches := .empty }
        (operation.run coordinator.perform { s with patches := .empty }).2 :=
      Dialogue.run_moves perform_served
    rw [MutationCoordinator.attempts, MutationCoordinator.attempt]
    rcases hrun : operation.run coordinator.perform { s with patches := .empty } with ⟨e | value, t⟩
    · rw [hrun] at hserved
      exact hserved
    · rw [hrun] at hserved hlogged
      dsimp only
      rcases settle_cases coordinator hlogged value allowedChunks with
        ⟨⟨store, hsettle, hcommitted⟩, hreads⟩ | ⟨e, hsettle⟩ | ⟨allowedChunks', hsettle⟩
      · rw [hsettle]
        exact ⟨{ s with patches := .empty }, t, .refl, rfl, hrun, hserved, hreads, hcommitted, rfl⟩
      · rw [hsettle]
        exact hserved
      · rw [hsettle]
        have hrest := ih allowedChunks' t hlogged.reachable
        dsimp only
        rcases hresult : coordinator.attempts operation left allowedChunks' t with ⟨e | value, u⟩
        · rw [hresult] at hrest
          exact hserved.trans hrest
        · rw [hresult] at hrest
          obtain ⟨start, before, hstart, happlied⟩ := hrest
          exact ⟨start, before, hserved.trans hstart, happlied⟩

theorem edit_atomic (coordinator : MutationCoordinator γ) (operation : Operation α)
    (hints : List ChunkPos) (s : EditState γ) (hs : WorldStore.Reachable (fun _ => True) s.store) :
    AtomicEdit coordinator operation s (coordinator.run operation hints s) := by
  rw [MutationCoordinator.run]
  split
  · exact .refl
  · have h := attempts_atomic coordinator operation coordinator.maxAttempts hints
      { s with active := true } hs
    rcases hresult : coordinator.attempts operation coordinator.maxAttempts hints
      { s with active := true } with ⟨e | value, t⟩
    · rw [hresult] at h
      exact h
    · rw [hresult] at h
      obtain ⟨start, before, hstart, happlied⟩ := h
      exact ⟨start, before, hstart, { happlied with }⟩

end Run

-- Two chunks of a flat world, one of them met only while the edit runs.
def flatCoordinator : MutationCoordinator Unit where
  chunks := ⟨.flat ⟨[⟨1, 16⟩], 1⟩, false⟩
  workers := fun _ => []
  chunksPerRegion := 8
  maxAttempts := 8
  chunksPerRegion_pos := by decide
  maxAttempts_pos := by decide

def crossingOperation : Operation Unit :=
  .request (.setBlockStateId ⟨-1, 0, 0⟩ 32) fun _ =>
    .request (.setSkyLight ⟨0, 5, 3⟩ 4) fun _ => .done ()

def flatState : EditState Unit := ⟨false, InfiniteChunkSource.emptySource, 0, .empty⟩

theorem edit_atomic_flat : AtomicEdit flatCoordinator crossingOperation flatState
    (flatCoordinator.run crossingOperation [⟨0, 0⟩] flatState) :=
  edit_atomic flatCoordinator crossingOperation [⟨0, 0⟩] flatState .refl

end Cobblestone.Mutation
