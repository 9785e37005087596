import Cobblestone.Light.Commit

namespace Cobblestone.Light

open Lib World WorldStore Mutation Source Storage

variable {world : MainChunkSource} {store : WorldStore} {coord : ChunkCoord} {c : ChunkRecord}
  {layer : LightLayer} {position : ChunkPos} {q : BlockPos} {group : Group}

def groupEdits (group : Group) : StagedEdits where
  blocks := []
  biomes := []
  extraData := []
  skyLight := WorldLightAccess.layerEdits .sky group.entries
  blockLight := WorldLightAccess.layerEdits .block group.entries

def groupPatch (group : Group) : World.ChunkPatch :=
  nativePatch group.snapshot.revision group.snapshot.revision group.snapshot.lightRevision
    (group.snapshot.lightRevision + 1) (groupEdits group)

structure Ready (world : MainChunkSource) (position : ChunkPos) (group : Group) (c : ChunkRecord) :
    Prop where
  loaded : Loaded world position group.chunk c
  snapshot : group.snapshot = projected group.chunk c
  entries : SoundEntries position group.entries
  nonempty : group.entries ≠ []
  room : group.snapshot.lightRevision ≠ Int64.maxValue

namespace Ready

variable (h : Ready world position group c)

include h

theorem lightChanged : (groupEdits group).lightChanged = true := by
  obtain ⟨e, he⟩ := List.exists_mem_of_ne_nil _ h.nonempty
  have hedit : (WorldLightAccess.cellKey e.1.2, UInt8.ofNat e.2) ∈
      WorldLightAccess.layerEdits e.1.1 group.entries := by
    rw [mem_layerEdits h.entries, cellEdits]
    exact List.mem_map_of_mem (List.mem_filter.mpr ⟨he, decide_eq_true rfl⟩)
  rw [StagedEdits.lightChanged, groupEdits]
  cases hlayer : e.1.1 with
  | sky =>
    rw [hlayer] at hedit
    simp [List.ne_nil_of_mem hedit]
  | block =>
    rw [hlayer] at hedit
    simp [List.ne_nil_of_mem hedit]

theorem accepted : PatchAccepted c (groupPatch group) := by
  have haccepted := nativePatch_accepted (groupEdits group) h.loaded.terrain h.loaded.light
  rw [h.lightChanged, show (groupEdits group).terrainChanged = false from rfl] at haccepted
  rw [groupPatch, h.snapshot]
  exact haccepted

theorem valid : PatchValid (groupPatch group) where
  blocks := nofun
  biomes := nofun
  extraData := nofun
  light edit hedit := by
    have hbound : ∀ layer, ∀ edit ∈ (WorldLightAccess.layerEdits layer group.entries).map
        (fun edit => (UInt16.ofNat edit.1, edit.2)), edit.1.toNat < chunkBlockCount ∧ edit.2.toNat < 16 := by
      intro layer edit hedit
      obtain ⟨cell, hcell, rfl⟩ := List.mem_map.mp hedit
      obtain ⟨hkey, hlevel⟩ := h.entries.edit_lt hcell
      refine ⟨?_, hlevel⟩
      rwa [UInt16.toNat_ofNat_of_lt' (Nat.lt_trans hkey (by decide))]
    exact (List.mem_append.mp hedit).elim (hbound .sky edit) (hbound .block edit)

theorem lightRevision : (patched c (groupPatch group)).lightRevision.toNat =
    c.lightRevision.toNat + 1 := by
  have hedits : LightEdits (groupPatch group) := by
    rw [← patchChangesLight_iff]
    have hchanged := h.lightChanged
    simpa [patchChangesLight, groupPatch, nativePatch, StagedEdits.lightChanged] using hchanged
  rw [(patched_revisions h.accepted).2, if_pos hedits]

theorem terrainRevision : (patched c (groupPatch group)).terrainRevision = c.terrainRevision := by
  change group.snapshot.revision.toUInt64 = c.terrainRevision
  rw [h.snapshot]
  exact UInt64.toUInt64_toInt64 _

theorem planes : PlanesPatched c.data (groupPatch group) (patched c (groupPatch group)).data :=
  patchData_planes h.loaded.wellFormed h.valid

theorem read (layer : LightLayer) (hq : q.isInsideWorld = true) :
    readNibble (plane layer (patched c (groupPatch group)).data) (WorldLightAccess.cellKey q) =
      (lastWrite ((WorldLightAccess.layerEdits layer group.entries).map fun edit =>
          (UInt16.ofNat edit.1, edit.2)) (UInt16.ofNat (WorldLightAccess.cellKey q))).getD
        (readNibble (plane layer c.data) (WorldLightAccess.cellKey q)) := by
  have hkey : (UInt16.ofNat (WorldLightAccess.cellKey q)).toNat = WorldLightAccess.cellKey q :=
    UInt16.toNat_ofNat_of_lt' (Nat.lt_trans (cellKey_lt hq) (by decide))
  have hsky := h.planes.skyLight_last (UInt16.ofNat (WorldLightAccess.cellKey q))
  have hblock := h.planes.blockLight_last (UInt16.ofNat (WorldLightAccess.cellKey q))
  rw [hkey] at hsky hblock
  cases layer with
  | sky => exact hsky
  | block => exact hblock

theorem read_entry {level : Nat} (hentry : ((layer, q), level) ∈ group.entries) :
    (readNibble (plane layer (patched c (groupPatch group)).data)
      (WorldLightAccess.cellKey q)).toNat = level := by
  have hq := h.entries.inside _ hentry
  have hchunk := h.entries.chunk _ hentry
  subst hchunk
  have hwrite := (lastWrite_layerEdits h.entries hq layer (UInt8.ofNat level)).mpr ⟨level, hentry, rfl⟩
  rw [h.read layer hq, hwrite, Option.getD_some]
  exact toNat_level (h.entries.level _ hentry)

theorem read_other (hq : q.isInsideWorld = true) (hchunk : q.chunk = position)
    (hno : ∀ level, ((layer, q), level) ∉ group.entries) :
    readNibble (plane layer (patched c (groupPatch group)).data) (WorldLightAccess.cellKey q) =
      readNibble (plane layer c.data) (WorldLightAccess.cellKey q) := by
  subst hchunk
  have hnone : lastWrite ((WorldLightAccess.layerEdits layer group.entries).map fun edit =>
      (UInt16.ofNat edit.1, edit.2)) (UInt16.ofNat (WorldLightAccess.cellKey q)) = none := by
    rw [Option.eq_none_iff_forall_ne_some]
    intro v hv
    obtain ⟨level, hentry, -⟩ := (lastWrite_layerEdits h.entries hq layer v).mp hv
    exact hno level hentry
  rw [h.read layer hq, hnone, Option.getD_none]

theorem lightRevision_lt : (patched c (groupPatch group)).lightRevision.toNat < 2 ^ 63 := by
  have hlight := h.loaded.light
  have hroom := h.room
  rw [h.snapshot] at hroom
  have hne : c.lightRevision.toNat ≠ 2 ^ 63 - 1 := by
    intro heq
    have hmax : c.lightRevision = 0x7fffffffffffffff := UInt64.toNat_inj.mp heq
    exact hroom (congrArg UInt64.toInt64 hmax)
  rw [h.lightRevision]
  omega

theorem loaded_after {world' : MainChunkSource} (hsource : world'.chunks = world.chunks)
    (hrecord : world'.nativeStore.store.chunks group.chunk =
      some (patched c (groupPatch group))) :
    Loaded world' position group.chunk (patched c (groupPatch group)) where
  chunk := by
    rw [← h.loaded.chunk, chunkAt, chunkAt, hsource]
  record := hrecord
  wellFormed := by
    have hsound : c.data.Sound fun _ => True := ⟨h.loaded.wellFormed, trivial⟩
    exact (patchData_sound hsound h.valid).wellFormed
  terrain := by
    rw [h.terrainRevision]
    exact h.loaded.terrain
  light := h.lightRevision_lt

theorem commitGroup_ready (hc : store.chunks group.chunk = some c) :
    ∃ store', WorldLightAccess.commitGroup store group = (.ok (), store') ∧
      store'.chunks = Function.update store.chunks group.chunk
        (some (patched c (groupPatch group))) :=
  applyPatch_accepted hc h.valid h.accepted

end Ready

-- The groups of the staged entries seen so far, in the order of their first entries.
structure Gathered (world : MainChunkSource) (entries : List StagedEntry)
    (groups : OrderedMap ChunkPos Group) : Prop where
  absent : ∀ position, groups.get? position = none → ∀ e ∈ entries, e.1.2.chunk ≠ position
  held : ∀ position group, groups.get? position = some group →
    chunkAt world position = some group.chunk ∧ snapshotAt world position = some group.snapshot ∧
      group.entries = entries.filter (fun e => e.1.2.chunk = position) ∧ group.entries ≠ []

def Effective (world : MainChunkSource) (entry : StagedEntry) : Prop :=
  storedAt world entry.1.1 entry.1.2 ≠ some entry.2

instance (world : MainChunkSource) : DecidablePred (Effective world) :=
  fun _ => inferInstanceAs (Decidable (_ ≠ _))

variable {access : WorldLightAccess} {entries : List StagedEntry} {groups : OrderedMap ChunkPos Group}

theorem Gathered.grow (h : Gathered world entries groups) {entry : StagedEntry} (fresh : Group)
    (hfresh : groups.get? entry.1.2.chunk = some fresh ∨ groups.get? entry.1.2.chunk = none ∧
      chunkAt world entry.1.2.chunk = some fresh.chunk ∧
      snapshotAt world entry.1.2.chunk = some fresh.snapshot ∧ fresh.entries = []) :
    Gathered world (entries ++ [entry])
      (groups.set entry.1.2.chunk { fresh with entries := fresh.entries ++ [entry] }) where
  absent position hnone e he hchunk := by
    rw [OrderedMap.get?_set] at hnone
    split_ifs at hnone with hsame
    rcases List.mem_append.mp he with he | he
    · exact h.absent position hnone e he hchunk
    · rw [List.mem_singleton.mp he] at hchunk
      exact hsame hchunk.symm
  held position group hgroup := by
    rw [OrderedMap.get?_set] at hgroup
    rw [List.filter_append]
    split_ifs at hgroup with hsame
    · cases hgroup
      subst hsame
      have hentry : [entry].filter (fun e => decide (e.1.2.chunk = entry.1.2.chunk)) = [entry] := by
        simp
      rw [hentry]
      rcases hfresh with hheld | ⟨hnone, hchunk, hsnapshot, hempty⟩
      · obtain ⟨hchunk, hsnapshot, hentries, -⟩ := h.held _ fresh hheld
        exact ⟨hchunk, hsnapshot, congrArg (· ++ [entry]) hentries, List.concat_ne_nil _ _⟩
      · have hbefore : entries.filter (fun e => decide (e.1.2.chunk = entry.1.2.chunk)) = [] := by
          rw [List.filter_eq_nil_iff]
          exact fun e he => by simpa using h.absent _ hnone e he
        refine ⟨hchunk, hsnapshot, ?_, List.concat_ne_nil _ _⟩
        rw [hbefore, hempty]
    · have hentry : [entry].filter (fun e => decide (e.1.2.chunk = position)) = [] := by
        rw [List.filter_eq_nil_iff]
        intro e he
        rw [List.mem_singleton.mp he]
        simpa using fun heq => hsame heq.symm
      rw [hentry, List.append_nil]
      exact h.held position group hgroup

theorem addEntry_outcome (h : Faithful world access) (hgroups : Gathered world entries groups)
    (entry : StagedEntry) :
    Outcome (fun groups t => Gathered world (entries ++ [entry].filter (Effective world)) groups ∧
        Faithful world t) True (WorldLightAccess.addEntry world groups entry access) := by
  refine Attempt.outcome_bind (Attempt.outcome_weaken (authoritativeLight_answers h _ _)
    fun _ => trivial) fun stored t ⟨hstored, _, ht⟩ => ?_
  refine Attempt.outcome_bind (Q := fun level u => stored = some level ∧ u = t)
    (Attempt.outcome_orThrow (fun a ha => ⟨ha, rfl⟩) fun _ => trivial) fun level u ⟨hlevel, hu⟩ => ?_
  subst hu
  rw [hstored] at hlevel
  by_cases hsame : level = entry.2
  · rw [if_pos hsame, List.filter_cons_of_neg (by simp [Effective, hlevel, hsame]), List.filter_nil,
      List.append_nil]
    exact Attempt.outcome_pure ⟨hgroups, ht⟩
  · rw [if_neg hsame, List.filter_cons_of_pos (by simp [Effective, hlevel, hsame]), List.filter_nil]
    cases hget : groups.get? entry.1.2.chunk with
    | some group => exact Attempt.outcome_pure ⟨hgroups.grow group (.inl hget), ht⟩
    | none =>
      refine Attempt.outcome_bind (Q := fun coord v => chunkAt world entry.1.2.chunk = some coord ∧ v = u)
        (Attempt.outcome_orThrow (fun a ha => ⟨ha, rfl⟩) fun _ => trivial) fun coord v ⟨hcoord, hv⟩ => ?_
      subst hv
      refine Attempt.outcome_bind (Attempt.outcome_weaken (snapshot_answers ht entry.1.2.chunk)
        fun _ => trivial) fun found w ⟨hfound, _, hw⟩ => ?_
      refine Attempt.outcome_bind (Q := fun snapshot x => found = some snapshot ∧ x = w)
        (Attempt.outcome_orThrow (fun a ha => ⟨ha, rfl⟩) fun _ => trivial)
        fun snapshot x ⟨hsnapshot, hx⟩ => ?_
      subst hx
      rw [hfound] at hsnapshot
      refine Attempt.outcome_pure ⟨?_, hw⟩
      exact hgroups.grow ⟨coord, snapshot, []⟩ (.inr ⟨hget, hcoord, hsnapshot, rfl⟩)

theorem addEntries_outcome (h : Faithful world access) (seen : List StagedEntry)
    (hgroups : Gathered world (seen.filter (Effective world)) groups) (entries : List StagedEntry) :
    Outcome (fun groups _ => Gathered world ((seen ++ entries).filter (Effective world)) groups) True
      (entries.foldlM (WorldLightAccess.addEntry world) groups access) := by
  induction entries generalizing seen groups access with
  | nil =>
    rw [List.append_nil]
    exact Attempt.outcome_pure hgroups
  | cons entry entries ih =>
    rw [List.foldlM_cons]
    refine Attempt.outcome_bind (addEntry_outcome h hgroups entry) fun groups t ⟨hgrown, ht⟩ => ?_
    rw [← List.filter_append] at hgrown
    have hrest := ih ht (seen ++ [entry]) hgrown
    rwa [List.append_assoc, List.singleton_append] at hrest

theorem commitGroups_ready (store : WorldStore) {groups : List Group} (hdistinct : (groups.map Group.chunk).Nodup)
    (hready : ∀ group ∈ groups, ∃ position c, Ready world position group c ∧
      store.chunks group.chunk = some c) :
    ∃ store', WorldLightAccess.commitGroups store groups =
        (.ok (groups.map fun group => group.chunk.pos), store') ∧
      (∀ group ∈ groups, ∀ c, store.chunks group.chunk = some c →
        store'.chunks group.chunk = some (patched c (groupPatch group))) ∧
      ∀ coord, coord ∉ groups.map Group.chunk → store'.chunks coord = store.chunks coord := by
  induction groups generalizing store with
  | nil => exact ⟨store, rfl, nofun, fun _ _ => rfl⟩
  | cons group groups ih =>
    obtain ⟨position, c, hgroup, hc⟩ := hready group (by simp)
    obtain ⟨store', hcommit, hchunks⟩ := hgroup.commitGroup_ready hc
    rw [List.map_cons, List.nodup_cons] at hdistinct
    obtain ⟨hfresh, hdistinct⟩ := hdistinct
    have hkept : ∀ coord, coord ≠ group.chunk → store'.chunks coord = store.chunks coord :=
      fun coord hne => by rw [hchunks, Function.update_of_ne hne]
    have hne : ∀ other ∈ groups, other.chunk ≠ group.chunk :=
      fun other hother heq => hfresh (heq ▸ List.mem_map_of_mem hother)
    obtain ⟨final, hrest, hpatched, hothers⟩ := ih store' hdistinct fun other hother => by
      obtain ⟨position, c, hother', hc⟩ := hready other (List.mem_cons_of_mem _ hother)
      exact ⟨position, c, hother', (hkept _ (hne other hother)).trans hc⟩
    refine ⟨final, ?_, ?_, ?_⟩
    · rw [WorldLightAccess.commitGroups, hcommit]
      dsimp only
      rw [hrest]
      rfl
    · intro other hother d hd
      rcases List.mem_cons.mp hother with rfl | hother
      · rw [hothers _ hfresh, hchunks, Function.update_self]
        rw [hc] at hd
        cases hd
        rfl
      · exact hpatched other hother d ((hkept _ (hne other hother)).trans hd)
    · intro coord hcoord
      rw [List.map_cons, List.mem_cons, not_or] at hcoord
      rw [hothers coord hcoord.2, hkept coord hcoord.1]

end Cobblestone.Light
