import Cobblestone.Light.Groups

namespace Cobblestone.Light

open Lib World WorldStore Mutation Source Storage

variable {world world' : MainChunkSource} {access : WorldLightAccess} {coord : ChunkCoord}
  {c : ChunkRecord} {layer : LightLayer} {position : ChunkPos} {q : BlockPos}

-- What a commit of staged levels leaves: the staged view, and one step of the light revision for
-- each chunk where a level differs from the stored one.
structure Committed (world : MainChunkSource) (staged : Staged) (changed : List ChunkPos)
    (world' : MainChunkSource) : Prop where
  view : ∀ layer q, storedAt world' layer q = levelAt world staged layer q
  changed_iff : ∀ position, position ∈ changed ↔
    ∃ layer q, q.chunk = position ∧ levelAt world staged layer q ≠ storedAt world layer q
  changed_once : changed.Nodup
  bumped : ∀ coord c, world.nativeStore.store.chunks coord = some c → coord.pos ∈ changed →
    ∃ c', world'.nativeStore.store.chunks coord = some c' ∧
      c'.lightRevision.toNat = c.lightRevision.toNat + 1 ∧ c'.terrainRevision = c.terrainRevision ∧
      c'.data.states = c.data.states ∧ c'.data.biomes = c.data.biomes
  kept : ∀ coord, coord.pos ∉ changed →
    world'.nativeStore.store.chunks coord = world.nativeStore.store.chunks coord
  source : world'.chunks = world.chunks
  blocks : ∀ position, (snapshotAt world' position).map Mutation.ChunkSnapshot.blockStateId =
    (snapshotAt world position).map Mutation.ChunkSnapshot.blockStateId

theorem addEntries_gathered (h : Faithful world access) {groups : OrderedMap ChunkPos Group}
    {t : WorldLightAccess}
    (hadd : access.staged.entries.foldlM (WorldLightAccess.addEntry world) .empty access =
      .ok (groups, t)) :
    Gathered world (access.staged.entries.filter (Effective world)) groups := by
  have hempty : Gathered world (([] : List StagedEntry).filter (Effective world)) .empty :=
    ⟨fun _ _ => nofun, nofun⟩
  have hall := addEntries_outcome h [] hempty access.staged.entries
  rw [hadd] at hall
  exact hall

theorem gathered_ready (hw : WellFormed world) (h : Faithful world access)
    {groups : OrderedMap ChunkPos Group}
    (hgroups : Gathered world (access.staged.entries.filter (Effective world)) groups)
    (hpreflight : (groups.entries.map Prod.snd).forM (WorldLightAccess.preflight world) = .ok ())
    {group : Group} (hget : groups.get? position = some group) :
    ∃ c, Ready world position group c := by
  obtain ⟨hchunk, hsnapshot, hentries, hnonempty⟩ := hgroups.held position group hget
  obtain ⟨coord, c, hloaded, hproj⟩ := loaded_of_snapshot hw hsnapshot
  obtain rfl : group.chunk = coord := Option.some.inj (hchunk.symm.trans hloaded.chunk)
  have hmem : ∀ e ∈ group.entries, e ∈ access.staged.entries ∧ e.1.2.chunk = position := by
    intro e he
    rw [hentries] at he
    obtain ⟨he, hpos⟩ := List.mem_filter.mp he
    exact ⟨(List.mem_filter.mp he).1, of_decide_eq_true hpos⟩
  have hstaged : ∀ e ∈ group.entries, e.2 ≤ maxLightLevel ∧ (storedAt world e.1.1 e.1.2).isSome :=
    fun e he => h.staged e.1.1 e.1.2 e.2 (OrderedMap.get?_eq_some.mpr (hmem e he).1)
  refine ⟨c, hloaded, hproj, ⟨fun e he => (hmem e he).2, fun e he => inside_of_stored (hstaged e he).2,
    fun e he => (hstaged e he).1, ?_⟩, hnonempty, ?_⟩
  · rw [hentries]
    exact (access.staged.nodup.sublist ((List.filter_sublist.trans List.filter_sublist).map Prod.fst))
  · have hin : group ∈ groups.entries.map Prod.snd :=
      List.mem_map.mpr ⟨(position, group), OrderedMap.get?_eq_some.mp hget, rfl⟩
    have hone := (forM_ok_iff.mp hpreflight) group hin
    rw [WorldLightAccess.preflight, bind_ok_iff] at hone
    obtain ⟨_, hroom, _⟩ := hone
    simpa using hroom

theorem snapshotAt_congr (hsource : world'.chunks = world.chunks)
    (hkept : ∀ coord, chunkAt world position = some coord →
      world'.nativeStore.store.chunks coord = world.nativeStore.store.chunks coord) :
    snapshotAt world' position = snapshotAt world position := by
  have hchunk : chunkAt world' position = chunkAt world position := by
    rw [chunkAt, chunkAt, hsource]
  rw [snapshotAt, snapshotAt, hchunk]
  refine Option.bind_congr fun coord hcoord => ?_
  rw [Chunk.snapshot, Chunk.snapshot, worldSnapshot, worldSnapshot, WorldStore.snapshot,
    WorldStore.snapshot, withChunk, withChunk, hkept coord hcoord]

-- A chunk whose record stays reads the same; so does every cell of it.
theorem storedAt_congr (hsource : world'.chunks = world.chunks)
    (hkept : ∀ coord, chunkAt world q.chunk = some coord →
      world'.nativeStore.store.chunks coord = world.nativeStore.store.chunks coord) :
    storedAt world' layer q = storedAt world layer q := by
  rw [storedAt, storedAt, snapshotAt_congr hsource hkept]

theorem projected_blocks {d : ChunkRecord} (h : d.data.states = c.data.states) :
    (projected coord d).blockStateId = (projected coord c).blockStateId := by
  funext x y z
  rw [Mutation.ChunkSnapshot.blockStateId, Mutation.ChunkSnapshot.blockStateId, projected, projected, h]

section Groups

variable {groups : OrderedMap ChunkPos Group}

def changedChunks (groups : OrderedMap ChunkPos Group) : List ChunkPos :=
  (groups.entries.map Prod.snd).map fun group => group.chunk.pos

theorem changedChunks_eq (hready : ∀ position group, groups.get? position = some group →
    ∃ c, Ready world position group c) : changedChunks groups = groups.keys := by
  rw [changedChunks, OrderedMap.keys, List.map_map]
  refine List.map_congr_left fun entry hentry => ?_
  obtain ⟨c, hc⟩ := hready entry.1 entry.2 (OrderedMap.get?_eq_some.mpr hentry)
  exact (chunkAt_eq_some.mp hc.loaded.chunk).1.symm

theorem mem_keys_of_changed (h : Faithful world access)
    (hgroups : Gathered world (access.staged.entries.filter (Effective world)) groups)
    (position : ChunkPos) : position ∈ groups.keys ↔
      ∃ layer q, q.chunk = position ∧ levelAt world access.staged layer q ≠ storedAt world layer q := by
  constructor
  · intro hin
    obtain ⟨group, hget⟩ := Option.isSome_iff_exists.mp (OrderedMap.mem_keys.mp hin)
    obtain ⟨-, -, hentries, hnonempty⟩ := hgroups.held position group hget
    obtain ⟨⟨⟨layer, q⟩, level⟩, he⟩ := List.exists_mem_of_ne_nil _ hnonempty
    rw [hentries] at he
    obtain ⟨he, hposition⟩ := List.mem_filter.mp he
    obtain ⟨he, heffective⟩ := List.mem_filter.mp he
    have hget := OrderedMap.get?_eq_some.mpr he
    have hq := inside_of_stored (h.staged layer q level hget).2
    refine ⟨layer, q, of_decide_eq_true hposition, fun heq => ?_⟩
    rw [levelAt, if_pos hq, hget] at heq
    exact of_decide_eq_true heffective heq.symm
  · rintro ⟨layer, q, rfl, hne⟩
    by_contra hout
    have hnone := OrderedMap.get?_eq_none.mpr hout
    apply hne
    by_cases hq : q.isInsideWorld = true
    · rw [levelAt, if_pos hq]
      cases hget : access.staged.get? (layer, q) with
      | none => rfl
      | some level =>
        by_contra hdiff
        refine hgroups.absent q.chunk hnone ((layer, q), level) ?_ rfl
        exact List.mem_filter.mpr ⟨OrderedMap.get?_eq_some.mp hget,
          decide_eq_true fun heq => hdiff heq.symm⟩
    · rw [levelAt, storedAt, if_neg hq, if_neg hq]

theorem ChunkCoord.pos_inj {a b : ChunkCoord} (h : a.pos = b.pos) : a = b :=
  Option.some.inj ((ChunkPos.coord?_eq_some.mpr rfl).symm.trans (ChunkPos.coord?_eq_some.mpr h))

theorem view_committed (hsource : world'.chunks = world.chunks)
    (hgroups : Gathered world (access.staged.entries.filter (Effective world)) groups)
    (hready : ∀ position group, groups.get? position = some group →
      ∃ c, Ready world position group c ∧
        world'.nativeStore.store.chunks group.chunk = some (patched c (groupPatch group)))
    (hothers : ∀ coord : ChunkCoord, groups.get? coord.pos = none →
      world'.nativeStore.store.chunks coord = world.nativeStore.store.chunks coord)
    (layer : LightLayer) (q : BlockPos) :
    storedAt world' layer q = levelAt world access.staged layer q := by
  by_cases hq : q.isInsideWorld = true
  swap
  · rw [storedAt, levelAt, if_neg hq, if_neg hq]
  have heffective : ∀ level, access.staged.get? (layer, q) = some level →
      storedAt world layer q ≠ some level →
      ((layer, q), level) ∈ access.staged.entries.filter (Effective world) := fun level hget hne =>
    List.mem_filter.mpr ⟨OrderedMap.get?_eq_some.mp hget, decide_eq_true hne⟩
  rw [levelAt, if_pos hq]
  cases hget : groups.get? q.chunk with
  | none =>
    rw [storedAt_congr hsource fun coord hcoord => hothers coord (by
      rw [← (chunkAt_eq_some.mp hcoord).1]
      exact hget)]
    cases hstaged : access.staged.get? (layer, q) with
    | none => rfl
    | some level =>
      by_contra hne
      exact hgroups.absent q.chunk hget _ (heffective level hstaged hne) rfl
  | some group =>
    obtain ⟨c, hc, hrecord⟩ := hready q.chunk group hget
    have hentries := (hgroups.held q.chunk group hget).2.2.1
    rw [(hc.loaded_after hsource hrecord).stored layer hq]
    have hmem : ∀ level, ((layer, q), level) ∈ group.entries ↔
        access.staged.get? (layer, q) = some level ∧ storedAt world layer q ≠ some level := by
      intro level
      rw [hentries, List.mem_filter, List.mem_filter, ← OrderedMap.get?_eq_some, decide_eq_true_iff,
        decide_eq_true_iff]
      exact ⟨fun hin => hin.1, fun hin => ⟨hin, rfl⟩⟩
    have hother (hno : ∀ level, ((layer, q), level) ∉ group.entries) :
        some (readNibble (plane layer (patched c (groupPatch group)).data)
          (WorldLightAccess.cellKey q)).toNat = storedAt world layer q := by
      rw [hc.read_other hq rfl hno, hc.loaded.stored layer hq]
    cases hstaged : access.staged.get? (layer, q) with
    | none =>
      refine hother fun level hin => ?_
      rw [hmem, hstaged] at hin
      cases hin.1
    | some level =>
      by_cases hsame : storedAt world layer q = some level
      · refine (hother fun other hin => ?_).trans hsame
        rw [hmem, hstaged] at hin
        cases hin.1
        exact hin.2 hsame
      · exact congrArg some (hc.read_entry ((hmem level).mpr ⟨hstaged, hsame⟩))

end Groups

theorem blocks_committed (hsource : world'.chunks = world.chunks)
    {groups : OrderedMap ChunkPos Group}
    (hready : ∀ position group, groups.get? position = some group →
      ∃ c, Ready world position group c ∧
        world'.nativeStore.store.chunks group.chunk = some (patched c (groupPatch group)))
    (hothers : ∀ coord : ChunkCoord, groups.get? coord.pos = none →
      world'.nativeStore.store.chunks coord = world.nativeStore.store.chunks coord)
    (position : ChunkPos) : (snapshotAt world' position).map Mutation.ChunkSnapshot.blockStateId =
      (snapshotAt world position).map Mutation.ChunkSnapshot.blockStateId := by
  cases hget : groups.get? position with
  | none =>
    rw [snapshotAt_congr hsource fun coord hcoord => hothers coord (by
      rw [← (chunkAt_eq_some.mp hcoord).1]
      exact hget)]
  | some group =>
    obtain ⟨c, hc, hrecord⟩ := hready position group hget
    rw [(hc.loaded_after hsource hrecord).snapshot, hc.loaded.snapshot, Option.map_some,
      Option.map_some, projected_blocks hc.planes.states]

theorem commit_cases (hw : WellFormed world) (h : Faithful world access) :
    (∃ e, access.commit world = (.error e, world)) ∨
    ∃ changed, (access.commit world).1 = .ok changed ∧
      Committed world access.staged changed (access.commit world).2 := by
  rw [WorldLightAccess.commit]
  cases hadd : access.staged.entries.foldlM (WorldLightAccess.addEntry world) .empty access with
  | error e => exact .inl ⟨e, rfl⟩
  | ok result =>
    obtain ⟨groups, t⟩ := result
    dsimp only
    cases hpreflight : (groups.entries.map Prod.snd).forM (WorldLightAccess.preflight world) with
    | error e => exact .inl ⟨e, rfl⟩
    | ok u =>
      have hgroups := addEntries_gathered h hadd
      have hready : ∀ position group, groups.get? position = some group →
          ∃ c, Ready world position group c :=
        fun position group hget => gathered_ready hw h hgroups hpreflight hget
      have hkeys := changedChunks_eq hready
      have hdistinct : ((groups.entries.map Prod.snd).map Group.chunk).Nodup := by
        have hnodup : (changedChunks groups).Nodup := hkeys ▸ groups.keys_nodup
        refine List.Nodup.of_map ChunkCoord.pos ?_
        rw [List.map_map]
        exact hnodup
      obtain ⟨store', hcommit, hpatched, hothers⟩ := commitGroups_ready world.nativeStore.store
        hdistinct fun group hgroup => by
          obtain ⟨⟨position, found⟩, hin, rfl⟩ := List.mem_map.mp hgroup
          obtain ⟨c, hc⟩ := hready position found (OrderedMap.get?_eq_some.mpr hin)
          exact ⟨position, c, hc, hc.loaded.record⟩
      refine .inr ⟨changedChunks groups, congrArg Prod.fst hcommit, ?_⟩
      rw [hcommit]
      have hmem : ∀ position group, groups.get? position = some group →
          group ∈ groups.entries.map Prod.snd := fun position group hget =>
        List.mem_map.mpr ⟨(position, group), OrderedMap.get?_eq_some.mp hget, rfl⟩
      have huntouched : ∀ coord : ChunkCoord, groups.get? coord.pos = none →
          coord ∉ (groups.entries.map Prod.snd).map Group.chunk := by
        intro coord hnone hin
        have hpos : coord.pos ∈ changedChunks groups := by
          obtain ⟨group, hgroup, rfl⟩ := List.mem_map.mp hin
          exact List.mem_map_of_mem hgroup
        rw [hkeys] at hpos
        exact OrderedMap.get?_eq_none.mp hnone hpos
      have hafter : ∀ position group, groups.get? position = some group →
          ∃ c, Ready world position group c ∧
            store'.chunks group.chunk = some (patched c (groupPatch group)) := by
        intro position group hget
        obtain ⟨c, hc⟩ := hready position group hget
        exact ⟨c, hc, hpatched group (hmem position group hget) c hc.loaded.record⟩
      have hkept : ∀ coord : ChunkCoord, groups.get? coord.pos = none →
          store'.chunks coord = world.nativeStore.store.chunks coord :=
        fun coord hnone => hothers coord (huntouched coord hnone)
      refine ⟨view_committed rfl hgroups hafter hkept, fun position => ?_, hkeys ▸ groups.keys_nodup,
        fun coord c hc hin => ?_, fun coord hout => ?_, rfl, blocks_committed rfl hafter hkept⟩
      · rw [hkeys]
        exact mem_keys_of_changed h hgroups position
      · rw [hkeys] at hin
        obtain ⟨group, hget⟩ := Option.isSome_iff_exists.mp (OrderedMap.mem_keys.mp hin)
        obtain ⟨d, hd⟩ := hready coord.pos group hget
        obtain rfl : coord = group.chunk := ChunkCoord.pos_inj (chunkAt_eq_some.mp hd.loaded.chunk).1
        obtain rfl : c = d := Option.some.inj (hc.symm.trans hd.loaded.record)
        exact ⟨_, hpatched group (hmem _ group hget) c hc, hd.lightRevision, hd.terrainRevision,
          hd.planes.states, hd.planes.biomes⟩
      · rw [hkeys] at hout
        exact hkept coord (OrderedMap.get?_eq_none.mpr hout)

theorem drain_processed {initial : LightUpdate} {budget : Int} {left done count : Nat}
    {state t : Propagation} (h : Queued world initial state)
    (hdrain : LightEngine.drain world budget left done state = .ok (count, t)) :
    ∃ n, count = done + n ∧ Processed world n state t ∧ t.queue = [] ∧ Queued world initial t := by
  induction left generalizing done state with
  | zero =>
    rw [LightEngine.drain] at hdrain
    split_ifs at hdrain with hempty
    cases hdrain
    exact ⟨0, rfl, .done _, List.isEmpty_iff.mp hempty, h⟩
  | succ left ih =>
    rw [LightEngine.drain] at hdrain
    cases hqueue : state.queue with
    | nil =>
      rw [hqueue] at hdrain
      cases hdrain
      exact ⟨0, rfl, .done _, hqueue, h⟩
    | cons update rest =>
      rw [hqueue] at hdrain
      cases hprocess : LightEngine.process world update rest state with
      | error e =>
        simp only [hprocess] at hdrain
        cases hdrain
      | ok u =>
        simp only [hprocess] at hdrain
        obtain ⟨n, hcount, hrun, hempty, hqueued⟩ :=
          ih (process_stir_lt h hqueue hprocess).1 hdrain
        exact ⟨n + 1, by omega, .next hqueue hprocess hrun, hempty, hqueued⟩

theorem apply_cases (hw : WellFormed world) (engine : LightEngine) (initial : LightUpdate)
    (budget : Option Int) :
    (∃ e, engine.apply world initial budget = (.error e, world)) ∨
    ∃ n state result, Processed world n (LightEngine.start initial) state ∧ state.queue = [] ∧
      Queued world initial state ∧ (engine.apply world initial budget).1 = .ok result ∧
      result.processedUpdates = n ∧
      Committed world state.access.staged result.changedChunks
        (engine.apply world initial budget).2 := by
  rw [LightEngine.apply]
  split_ifs
  · exact .inl ⟨_, rfl⟩
  · cases hdrain : LightEngine.drain world (budget.getD engine.defaultBudget)
        (budget.getD engine.defaultBudget).toNat 0 (LightEngine.start initial) with
    | error e => exact .inl ⟨e, rfl⟩
    | ok drained =>
      obtain ⟨count, state⟩ := drained
      obtain ⟨n, hcount, hrun, hempty, hqueued⟩ := drain_processed (queued_start world initial) hdrain
      rw [Nat.zero_add] at hcount
      dsimp only
      rcases commit_cases hw hqueued.faithful with ⟨e, he⟩ | ⟨changed, hchanged, hcommitted⟩
      · rw [he]
        exact .inl ⟨e, rfl⟩
      · generalize state.access.commit world = committed at hchanged hcommitted
        obtain ⟨result, world'⟩ := committed
        cases hchanged
        exact .inr ⟨n, state, ⟨count, changed⟩, hrun, hempty, hqueued, rfl, hcount, hcommitted⟩

variable {allowed : ChunkImport → Prop}

theorem wellFormed_of_reachable (hs : world.nativeStore.store.Reachable allowed) :
    WellFormed world := by
  have hsound : world.nativeStore.store.AllChunks (ChunkRecord.Sound fun _ => True) :=
    hs.sound trivial fun _ _ => trivial
  exact fun coord c hc => (hsound coord c hc).data.wellFormed

def bareWorld : MainChunkSource where
  generator :=
    { isInfinite := false
      generate := fun p _ _ => .done p
      populate := fun _ _ _ => .done () }
  seed := 0
  chunks := {originChunk}
  loading := ∅
  evictionQueue := []
  nativeStore := ⟨bareStore, none⟩

end Cobblestone.Light

namespace Cobblestone.Light

open Lib World WorldStore Mutation Source Storage

variable {world world' : MainChunkSource} {initial update : LightUpdate} {layer : LightLayer}
  {p q : BlockPos} {state t : Propagation} {rest : List LightUpdate} {staged : Staged}

-- A neighbour that is not offered lies further on in the region.
theorem offered_or_ahead (hp : p ∈ regionCells update) (hq : q ∈ inWorldNeighbors p) :
    some q ∈ LightPropagator.propagationNeighbors p update.max (highestY update) ∨
      q ∈ regionCells update ∧ Before p q := by
  obtain ⟨hsix, hin⟩ := mem_inWorldNeighbors.mp hq
  have hy := BlockPos.isInsideWorld_iff.mp hin
  have hregion := mem_cells.mp hp
  simp only [LightPropagator.sixNeighbors, List.mem_cons, List.not_mem_nil, or_false] at hsix
  simp only [LightPropagator.propagationNeighbors, List.mem_cons, List.not_mem_nil, or_false,
    Option.some.injEq, mem_cells, Before]
  rcases hsix with rfl | rfl | rfl | rfl | rfl | rfl
  · exact .inl (.inl rfl)
  · by_cases hedge : update.max.x ≤ p.x + 1
    · exact .inl (.inr (.inr (.inr (.inl (if_pos hedge).symm))))
    · exact .inr (by dsimp only; omega)
  · exact .inl (.inr (.inl rfl))
  · by_cases hedge : highestY update ≤ p.y + 1
    · exact .inl (.inr (.inr (.inr (.inr (.inl (if_pos hedge).symm)))))
    · exact .inr (by dsimp only; omega)
  · exact .inl (.inr (.inr (.inl rfl)))
  · by_cases hedge : update.max.z ≤ p.z + 1
    · exact .inl (.inr (.inr (.inr (.inr (.inr (if_pos hedge).symm)))))
    · exact .inr (by dsimp only; omega)

-- Every surrounded cell is settled, or ahead in the region at hand, or in the region of an update
-- that is still queued.
def Covered (world : MainChunkSource) (layer : LightLayer) (ahead : List BlockPos)
    (state : Propagation) : Prop :=
  ∀ q, Surrounded world q →
    (lightField world layer).Settled (lightLevel world state.access.staged layer) q ∨
      q ∈ ahead ∨ ∃ u ∈ state.queue, q ∈ regionCells u

theorem mem_point (hq : q.isInsideWorld = true) : q ∈ regionCells (.point layer q) := by
  have hy := BlockPos.isInsideWorld_iff.mp hq
  rw [mem_cells]
  simp only [LightUpdate.point, lowestY, highestY, World.minY, World.maxY, worldHeight]
  omega

theorem Covered.step {ahead : List BlockPos} (hlayer : update.layer = layer)
    (hsuffix : p :: ahead <:+ regionCells update) (hp : Surrounded world p)
    (hfaithful : Faithful world state.access) (h : Covered world layer (p :: ahead) state)
    (hcell : LightPropagator.CellStep world update (highestY update) p state t) :
    Covered world layer ahead t := by
  subst hlayer
  obtain ⟨added, hadded, -, -⟩ := hcell.grows
  have hqueued : ∀ u ∈ state.queue, u ∈ t.queue := fun u hu => by
    rw [hadded]
    exact List.mem_append_left _ hu
  intro q hq
  rcases hcell.relaxed with ⟨hsame, hstaged, hqueue⟩ | ⟨hne, hstaged, hoffers⟩
  · rw [hstaged]
    by_cases hqp : q = p
    · subst hqp
      exact .inl hsame.symm
    · rcases h q hq with hsettled | hahead | ⟨u, hu, hregion⟩
      · exact .inl hsettled
      · exact .inr (.inl ((List.mem_cons.mp hahead).resolve_left hqp))
      · exact .inr (.inr ⟨u, hqueued u hu, hregion⟩)
  · rw [hstaged, lightLevel_set hp.inside]
    by_cases hqp : q = p
    · subst hqp
      exact .inl (Radiance.settled_relaxed not_mem_inWorldNeighbors_self)
    · rcases h q hq with hsettled | hahead | ⟨u, hu, hregion⟩
      · by_cases hnear : p ∈ inWorldNeighbors q
        · have hback : q ∈ inWorldNeighbors p := mem_inWorldNeighbors.mpr
            ⟨sixNeighbors_symm.mp (mem_inWorldNeighbors.mp hnear).1, hq.inside⟩
          rcases offered_or_ahead (hsuffix.subset (by simp)) hback with hoffered | ⟨hregion, hbefore⟩
          · by_cases hguess : Function.update (lightLevel world state.access.staged update.layer) p
                ((lightField world update.layer).value
                  (lightLevel world state.access.staged update.layer) p) q =
                max ((lightField world update.layer).value
                  (lightLevel world state.access.staged update.layer) p - 1)
                  ((lightField world update.layer).source q)
            · rw [Function.update_of_ne hqp] at hguess
              exact .inl (Radiance.settled_guessed hqp hnear hsettled hguess
                (lightField_loss update.layer q) fun b _ => lightLevel_le hfaithful update.layer b)
            · exact .inr (.inr ⟨_, hoffers q hoffered hq.inside hguess, mem_point hq.inside⟩)
          · exact .inr (.inl (ahead_of_before hsuffix hregion hbefore))
        · exact .inl (Radiance.settled_far hqp hnear hsettled)
      · exact .inr (.inl ((List.mem_cons.mp hahead).resolve_left hqp))
      · exact .inr (.inr ⟨u, hqueued u hu, hregion⟩)

theorem Covered.process (h : Queued world initial state) (hqueue : state.queue = update :: rest)
    (hcovered : Covered world initial.layer [] state)
    (ht : LightEngine.process world update rest state = .ok t) :
    Covered world initial.layer [] t := by
  have hlayer := h.layer_eq (hqueue ▸ List.mem_cons_self : update ∈ state.queue)
  refine ((process_rule (I := fun ahead t => Covered world initial.layer ahead t) h hqueue ?_ ?_ ?_).1
    t ht).2
  · intro p ahead t u hsuffix hp hqueued hcovered hcell
    exact hcovered.step hlayer hsuffix hp hqueued.faithful hcell
  · intro p ahead t hp hcovered q hq
    rcases hcovered q hq with hsettled | hahead | hqueued
    · exact .inl hsettled
    · refine .inr (.inl ((List.mem_cons.mp hahead).resolve_left ?_))
      rintro rfl
      exact hp hq
    · exact .inr (.inr hqueued)
  · intro q hq
    rcases hcovered q hq with hsettled | hahead | ⟨u, hu, hregion⟩
    · exact .inl hsettled
    · cases hahead
    · rw [hqueue] at hu
      rcases List.mem_cons.mp hu with rfl | hu
      · exact .inr (.inl hregion)
      · exact .inr (.inr ⟨u, hu, hregion⟩)

theorem Covered.run {n : Nat} (hrun : Processed world n state t) (h : Queued world initial state)
    (hcovered : Covered world initial.layer [] state) : Covered world initial.layer [] t := by
  induction hrun with
  | done state => exact hcovered
  | next hqueue hprocess _ ih =>
    exact ih (process_stir_lt h hqueue hprocess).1 (hcovered.process h hqueue hprocess)

def storedLevel (world : MainChunkSource) (layer : LightLayer) (q : BlockPos) : Nat :=
  (storedAt world layer q).getD 0

theorem lightLevel_unstaged (world : MainChunkSource) (layer : LightLayer) :
    lightLevel world .empty layer = storedLevel world layer := by
  funext q
  rw [lightLevel, levelAt, storedLevel]
  split_ifs with hq
  · rfl
  · rw [storedAt, if_neg hq]

structure InRegion (update : LightUpdate) (q : BlockPos) : Prop where
  x : update.min.x ≤ q.x ∧ q.x ≤ update.max.x
  y : update.min.y ≤ q.y ∧ q.y ≤ update.max.y
  z : update.min.z ≤ q.z ∧ q.z ≤ update.max.z

theorem InRegion.mem_cells (h : InRegion update q) (hq : q.isInsideWorld = true) :
    q ∈ regionCells update := by
  have hy := BlockPos.isInsideWorld_iff.mp hq
  obtain ⟨hx, hyy, hz⟩ := h
  rw [Light.mem_cells]
  simp only [lowestY, highestY, World.minY, World.maxY, worldHeight]
  omega

theorem exposed_congr {snapshot snapshot' : Mutation.ChunkSnapshot}
    (h : snapshot'.blockStateId = snapshot.blockStateId) (ys : List Nat) :
    WorldLightAccess.exposed snapshot' q ys = WorldLightAccess.exposed snapshot q ys := by
  induction ys with
  | nil => rfl
  | cons y ys ih => rw [WorldLightAccess.exposed, WorldLightAccess.exposed, h, ih]

theorem lightField_congr (h : ∀ position, (snapshotAt world' position).map
      Mutation.ChunkSnapshot.blockStateId = (snapshotAt world position).map
      Mutation.ChunkSnapshot.blockStateId) (layer : LightLayer) :
    lightField world' layer = lightField world layer := by
  have hcases (position : ChunkPos) :
      (snapshotAt world' position = none ∧ snapshotAt world position = none) ∨
        ∃ snapshot' snapshot, snapshotAt world' position = some snapshot' ∧
          snapshotAt world position = some snapshot ∧
          snapshot'.blockStateId = snapshot.blockStateId := by
    have hposition := h position
    cases hafter : snapshotAt world' position with
    | none =>
      rw [hafter] at hposition
      exact .inl ⟨rfl, Option.map_eq_none_iff.mp hposition.symm⟩
    | some snapshot' =>
      rw [hafter] at hposition
      obtain ⟨snapshot, hbefore, heq⟩ := Option.map_eq_some_iff.mp hposition.symm
      exact .inr ⟨snapshot', snapshot, rfl, hbefore, heq.symm⟩
  have hproperties : propertiesAt world' = propertiesAt world := by
    funext q
    rw [propertiesAt, propertiesAt, blockAt, blockAt]
    rcases hcases q.chunk with ⟨hafter, hbefore⟩ | ⟨snapshot', snapshot, hafter, hbefore, heq⟩
    · rw [hafter, hbefore]
    · rw [hafter, hbefore, Option.bind_some, Option.bind_some, heq]
  have hsky : skyAt world' = skyAt world := by
    funext q
    rw [skyAt, skyAt]
    rcases hcases q.chunk with ⟨hafter, hbefore⟩ | ⟨snapshot', snapshot, hafter, hbefore, heq⟩
    · rw [hafter, hbefore]
    · rw [hafter, hbefore, Option.bind_some, Option.bind_some, exposed_congr heq]
  simp only [lightField, sourceAt, hproperties, hsky]

variable {allowed : ChunkImport → Prop}

theorem surrounded_congr (hsource : world'.chunks = world.chunks) :
    Surrounded world' q ↔ Surrounded world q := by
  have hchunk : chunkAt world' = chunkAt world := by
    funext position
    rw [chunkAt, chunkAt, hsource]
  constructor
  · rintro ⟨hinside, hhere, hwest, heast, hnorth, hsouth⟩
    rw [hchunk] at hhere hwest heast hnorth hsouth
    exact ⟨hinside, hhere, hwest, heast, hnorth, hsouth⟩
  · rintro ⟨hinside, hhere, hwest, heast, hnorth, hsouth⟩
    rw [← hchunk] at hhere hwest heast hnorth hsouth
    exact ⟨hinside, hhere, hwest, heast, hnorth, hsouth⟩

-- Wherever the four neighbouring columns are resident, the stored levels solve the equation.
def Solved (world : MainChunkSource) (layer : LightLayer) (q : BlockPos) : Prop :=
  (lightField world layer).Settled (storedLevel world layer) q

theorem bareWorld_wellFormed : WellFormed bareWorld :=
  wellFormed_of_reachable (bareStore_reachable fun _ => False)

theorem bareWorld_loaded {position : ChunkPos} {coord : ChunkCoord} {c : ChunkRecord}
    (h : Loaded bareWorld position coord c) : c = bareChunk := by
  have hcoord : coord = originChunk := Finset.mem_singleton.mp (chunkAt_eq_some.mp h.chunk).2
  have hrecord := h.record
  rw [hcoord] at hrecord
  exact (Option.some.inj hrecord).symm

theorem bareWorld_dark (q : BlockPos) : storedLevel bareWorld .block q = 0 := by
  rw [storedLevel]
  cases hstored : storedAt bareWorld .block q with
  | none => rfl
  | some level =>
    have hsome : (storedAt bareWorld .block q).isSome := by rw [hstored]; rfl
    obtain ⟨coord, c, hloaded⟩ := loaded_of_stored bareWorld_wellFormed hsome
    rw [hloaded.stored .block (inside_of_stored hsome), bareWorld_loaded hloaded] at hstored
    cases hstored
    have hzero : (List.replicate chunkNibbleBytes (0 : UInt8)).getD
        (WorldLightAccess.cellKey q >>> 1) 0 = 0 := by
      rw [List.getD_eq_getElem?_getD, List.getElem?_replicate]
      split <;> rfl
    change (readNibble (List.replicate chunkNibbleBytes 0) (WorldLightAccess.cellKey q)).toNat = 0
    rw [readNibble, hzero]
    split <;> rfl

theorem bareWorld_air {q : BlockPos} (hq : Surrounded bareWorld q) : blockAt bareWorld q = some 0 := by
  obtain ⟨coord, hcoord⟩ := Option.isSome_iff_exists.mp hq.here
  have horigin : coord = originChunk := Finset.mem_singleton.mp (chunkAt_eq_some.mp hcoord).2
  have hrecord : bareWorld.nativeStore.store.chunks originChunk = some bareChunk :=
    setChunk_self WorldStore.new originChunk bareChunk
  subst horigin
  have hloaded : Loaded bareWorld q.chunk originChunk bareChunk :=
    ⟨hcoord, hrecord, bareWorld_wellFormed _ _ hrecord, by decide, by decide⟩
  rw [blockAt, if_pos hq.inside, hloaded.snapshot, Option.bind_some,
    projected_blockStateId hloaded.wellFormed (inChunk_of_inside hq.inside)]
  change some ((List.replicate chunkBlockCount (0 : UInt16)).getD _ 0) = some 0
  rw [List.getD_eq_getElem?_getD, List.getElem?_replicate]
  split <;> rfl

theorem bareWorld_solved {q : BlockPos} (hq : Surrounded bareWorld q) : Solved bareWorld .block q := by
  have hsource : (lightField bareWorld .block).source q ≤ 0 := by
    change (sourceAt bareWorld .block q).getD 0 ≤ 0
    rw [sourceAt, propertiesAt, bareWorld_air hq]
    decide
  have hvalue : (lightField bareWorld .block).value (storedLevel bareWorld .block) q ≤ 0 :=
    Radiance.value_le hsource fun b _ => (bareWorld_dark b).le
  rw [Solved, Radiance.Settled, bareWorld_dark, Nat.le_zero.mp hvalue]

end Cobblestone.Light
