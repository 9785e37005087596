import Cobblestone.World.Chests
import Cobblestone.World.Install

namespace Cobblestone.World

open Lib WorldStore

def ChunkMatches (p : ChunkCoord) (c : ChunkRecord) : Prop :=
  ChestsMatch p c.data.states c.data.chestBlockEntities

def EntityAt (p : ChunkCoord) (c : ChunkRecord) (cell : Nat) : Prop :=
  ∃ e ∈ c.data.chestBlockEntities, cellOf p e.place = some cell

-- The writes that leave a chest under every chest entity, and the imports that bring no stray one.
def StoreOp.KeepsChests (s : WorldStore) : StoreOp → Prop
  | .importChunkIfAbsent p i => validateImport i = .ok () → s.chunks p = none →
      ChestsMatch p i.data.states i.data.chestBlockEntities
  | .importChunk p i => validateImport i = .ok () →
      ChestsMatch p i.data.states i.data.chestBlockEntities
  | .installGeneratedChunk p i => validateImport i = .ok () →
      ChestsMatch p i.data.states i.data.chestBlockEntities
  | .setBlockState p x y z state => validateState state = .ok () →
      ∀ c cell, s.chunks p = some c → EntityAt p c cell → blockIndex x y z = .ok cell →
        state >>> 4 = chestBlockId
  | .fillLayers p startY count state => validateState state = .ok () →
      startY.toNat + count.toNat ≤ worldHeight →
      ∀ c cell, s.chunks p = some c → EntityAt p c cell →
        startY.toNat * chunkColumnCount ≤ cell →
        cell < (startY.toNat + count.toNat) * chunkColumnCount → state >>> 4 = chestBlockId
  | .applyPatch p patch => PatchValid patch →
      ∀ c, s.chunks p = some c → PatchAccepted c patch → ∀ key : UInt16, EntityAt p c key.toNat →
        ∀ state, lastWrite patch.blocks key = some state → state >>> 4 = chestBlockId
  | _ => True

-- Blocks and chest entities of every chunk come unchanged from the store before.
def SameCells (s t : WorldStore) : Prop :=
  ∀ p c', t.chunks p = some c' → ∃ c, s.chunks p = some c ∧ c'.data.states = c.data.states ∧
    c'.data.chestBlockEntities = c.data.chestBlockEntities

abbrev StoreMatches (s : WorldStore) : Prop := ∀ p c, s.chunks p = some c → ChunkMatches p c

section SameCells

variable {α : Type} {s t : WorldStore} {p : ChunkCoord}

theorem SameCells.refl (s : WorldStore) : SameCells s s := fun _ c hc => ⟨c, hc, rfl, rfl⟩

theorem SameCells.keeps (h : SameCells s t) (hs : StoreMatches s) : StoreMatches t := by
  intro p c' hc'
  obtain ⟨c, hc, hstates, hentities⟩ := h p c' hc'
  rw [ChunkMatches, hstates, hentities]
  exact hs p c hc

theorem SameCells.withChunkMut {operation : ChunkRecord → Except WorldStoreError α × ChunkRecord}
    (h : ∀ c, (operation c).2.data.states = c.data.states ∧
      (operation c).2.data.chestBlockEntities = c.data.chestBlockEntities) :
    SameCells s (s.withChunkMut p operation).2 := by
  intro q c' hc'
  rw [WorldStore.withChunkMut] at hc'
  cases hp : s.chunks p with
  | none =>
    rw [hp] at hc'
    exact ⟨c', hc', rfl, rfl⟩
  | some c =>
    rw [hp] at hc'
    by_cases hq : q = p
    · subst hq
      rw [setChunk_self] at hc'
      cases hc'
      exact ⟨c, hp, h c⟩
    · rw [setChunk_of_ne _ _ hq] at hc'
      exact ⟨c', hc', rfl, rfl⟩

theorem SameCells.editData {edit : ChunkData → α × ChunkData}
    (h : ∀ d, (edit d).2.states = d.states ∧ (edit d).2.chestBlockEntities = d.chestBlockEntities) :
    SameCells s (s.editData p edit).2 :=
  SameCells.withChunkMut fun c => h c.data

theorem SameCells.setBiomeWord (x z : UInt8) (word : UInt32) :
    SameCells s (s.setBiomeWord p x z word).2 := by
  rw [WorldStore.setBiomeWord]
  split
  · exact .refl s
  · exact .refl s
  · exact .editData fun _ => ⟨rfl, rfl⟩

theorem recalculateAllHeights_cells (d : ChunkData) :
    (recalculateAllHeights d).states = d.states ∧
      (recalculateAllHeights d).chestBlockEntities = d.chestBlockEntities := by
  obtain ⟨heights, hh⟩ := recalculateTouched_keeps d fun _ => true
  rw [recalculateAllHeights_eq, hh]
  exact ⟨rfl, rfl⟩

theorem markPersisted_cells (terrain light : UInt64) (flags : UInt8) :
    SameCells s (s.markPersisted p terrain light flags).2 := by
  rw [WorldStore.markPersisted]
  split
  · exact .refl s
  · refine .withChunkMut fun c => ?_
    rw [markPersistedRecord]
    repeat' split
    all_goals exact ⟨rfl, rfl⟩

theorem tryEvictChunk_cells : SameCells s (s.tryEvictChunk p).2 := by
  intro q c hc
  rw [tryEvictChunk] at hc
  repeat' split at hc
  · exact ⟨c, hc, rfl, rfl⟩
  · exact ⟨c, hc, rfl, rfl⟩
  · exact ⟨c, hc, rfl, rfl⟩
  · by_cases hq : q = p
    · subst hq
      rw [removeChunk_self] at hc
      cases hc
    · rw [removeChunk_of_ne _ hq] at hc
      exact ⟨c, hc, rfl, rfl⟩

def StoreOp.TouchesCells : StoreOp → Prop
  | .ensureChunk .. | .importChunkIfAbsent .. | .importChunk .. | .installGeneratedChunk ..
  | .setBlockState .. | .fillLayers .. | .applyPatch .. => True
  | _ => False

theorem StoreOp.sameCells {op : StoreOp} (h : ¬op.TouchesCells) (s : WorldStore) :
    SameCells s (op.apply s) := by
  cases op with
  | setLifecycleFlags p flags =>
    rw [StoreOp.apply, WorldStore.setLifecycleFlags]
    split
    · exact .refl s
    · exact .withChunkMut fun _ => ⟨rfl, rfl⟩
  | pinChunk | unpinChunk | commitTerrainRevision | commitLightRevision =>
    refine SameCells.withChunkMut fun c => ?_
    repeat' split
    all_goals exact ⟨rfl, rfl⟩
  | markPersisted p terrain light flags => exact markPersisted_cells terrain light flags
  | tryEvictChunk => exact tryEvictChunk_cells
  | setBiomeWord p x z word => exact .setBiomeWord x z word
  | setBiome p x z biome =>
    rw [StoreOp.apply, WorldStore.setBiome]
    split
    · exact .refl s
    · cases s.biomeWord p x z with
      | error e => exact .refl s
      | ok previous => exact .setBiomeWord x z _
  | setBiomeColor p x z color =>
    rw [StoreOp.apply, WorldStore.setBiomeColor]
    split
    · exact .refl s
    · cases s.biomeWord p x z with
      | error e => exact .refl s
      | ok previous => exact .setBiomeWord x z _
  | recalculateHeightMap => exact .editData recalculateAllHeights_cells
  | pruneChangesThrough => exact SameCells.refl s
  | fillBiome | setSkyLight | fillSkyLightFrom | setBlockLight | setBlockExtraData =>
    simp only [StoreOp.apply, WorldStore.fillBiome, WorldStore.setSkyLight,
      WorldStore.fillSkyLightFrom, WorldStore.setBlockLight, WorldStore.setBlockExtraData]
    repeat' split
    all_goals first
      | exact .refl s
      | exact .editData fun _ => ⟨rfl, rfl⟩
  | ensureChunk | importChunkIfAbsent | importChunk | installGeneratedChunk | setBlockState
  | fillLayers | applyPatch => exact absurd trivial h

end SameCells

-- An installation keeps the data it found or takes all of what it was given.
theorem installOver_data (c : ChunkRecord) (i : ChunkImport) :
    (installOver c i).2.data = c.data ∨ (installOver c i).2.data = i.data := by
  rcases installOver_cases c i with ⟨t, l, changed, -, -, heq⟩ | ⟨-, -, heq⟩ | ⟨t, -, -, -, heq⟩
  · rw [heq, installed]
    dsimp only
    split
    · exact .inr rfl
    · exact .inl rfl
  · rw [heq]
    exact .inl rfl
  · rw [heq]
    exact .inl rfl

theorem ChestAt.putAt {states : List UInt16} {cell off n : Nat} {state : UInt16}
    (hchest : ChestAt states cell) (hin : off + n ≤ states.length)
    (hstate : off ≤ cell → cell < off + n → state >>> 4 = chestBlockId) :
    ChestAt (putAt off (List.replicate n state) states) cell := by
  rw [ChestAt, List.getD_eq_getElem?_getD, getElem?_putAt (by omega), List.length_replicate,
    List.getElem?_replicate]
  rw [ChestAt, List.getD_eq_getElem?_getD] at hchest
  split
  · exact hchest
  · split
    · rw [if_pos (by omega)]
      exact hstate (by omega) (by omega)
    · exact hchest

section Writes

variable {α : Type} {s : WorldStore} {p : ChunkCoord} (h : StoreMatches s)

include h

theorem StoreMatches.setChunk {c : ChunkRecord} (hc : ChunkMatches p c) :
    StoreMatches (s.setChunk p c) := by
  intro q d hd
  by_cases hq : q = p
  · subst hq
    rw [setChunk_self] at hd
    cases hd
    exact hc
  · rw [setChunk_of_ne _ _ hq] at hd
    exact h q d hd

theorem StoreMatches.editData {edit : ChunkData → α × ChunkData}
    (hedit : ∀ c, s.chunks p = some c →
      ChestsMatch p (edit c.data).2.states (edit c.data).2.chestBlockEntities) :
    StoreMatches (s.editData p edit).2 := by
  rw [WorldStore.editData, WorldStore.withChunkMut]
  cases hp : s.chunks p with
  | none => exact h
  | some c => exact h.setChunk (hedit c hp)

theorem StoreMatches.ensureChunk (biome : UInt8) : StoreMatches (s.ensureChunk p biome).2 := by
  rw [WorldStore.ensureChunk]
  split
  · exact h
  · split
    · exact h
    · exact h.setChunk .nil

theorem StoreMatches.importChunk {i : ChunkImport} (hop : (StoreOp.importChunk p i).KeepsChests s) :
    StoreMatches (s.importChunk p i).2 := by
  rw [WorldStore.importChunk]
  split
  · exact h
  · next hvalid => exact h.setChunk (hop hvalid)

theorem StoreMatches.importChunkIfAbsent {i : ChunkImport}
    (hop : (StoreOp.importChunkIfAbsent p i).KeepsChests s) :
    StoreMatches (s.importChunkIfAbsent p i).2 := by
  rw [WorldStore.importChunkIfAbsent]
  split
  · exact h
  · next hvalid =>
    split
    · exact h
    · next habsent => exact h.setChunk (hop hvalid (by simpa [containsChunk] using habsent))

theorem StoreMatches.installGeneratedChunk {i : ChunkImport}
    (hop : (StoreOp.installGeneratedChunk p i).KeepsChests s) :
    StoreMatches (s.installGeneratedChunk p i).2 := by
  rw [WorldStore.installGeneratedChunk]
  split
  · exact h
  · next hvalid =>
    split
    · exact h.setChunk (hop hvalid)
    · next c hc =>
      refine h.setChunk ?_
      rw [ChunkMatches]
      rcases installOver_data c i with heq | heq
      · rw [heq]
        exact h p c hc
      · rw [heq]
        exact hop hvalid

theorem StoreMatches.setBlockState {x y z : UInt8} {state : UInt16}
    (hop : (StoreOp.setBlockState p x y z state).KeepsChests s) :
    StoreMatches (s.setBlockState p x y z state).2 := by
  rw [WorldStore.setBlockState]
  split
  · exact h
  · exact h
  · next index hvalid hindex =>
    refine h.editData fun c hc => ?_
    dsimp only
    split
    · refine ChestsMatch.of_states (h p c hc) fun e he cell hcell hchest => ?_
      exact hchest.set fun hsame => hop hvalid c cell hc ⟨e, he, hcell⟩ (hsame ▸ hindex)
    · exact h p c hc

theorem StoreMatches.fillLayers (hdata : ∀ c, s.chunks p = some c → c.data.WellFormed)
    {startY count : UInt8} {state : UInt16}
    (hop : (StoreOp.fillLayers p startY count state).KeepsChests s) :
    StoreMatches (s.fillLayers p startY count state).2 := by
  rw [WorldStore.fillLayers]
  split
  · exact h
  · next hvalid =>
    split
    · exact h
    · next hrange =>
      simp only [not_or, not_le, not_lt] at hrange
      have hlayers : (startY.toNat + count.toNat) * chunkColumnCount ≤ chunkBlockCount := by
        rw [chunkBlockCount, Nat.mul_comm chunkColumnCount]
        exact Nat.mul_le_mul_right _ hrange.2.2
      rw [Nat.add_mul] at hlayers
      refine h.editData fun c hc => ?_
      dsimp only
      rw [(recalculateAllHeights_cells _).1, (recalculateAllHeights_cells _).2]
      dsimp only
      refine ChestsMatch.of_states (h p c hc) fun e he cell hcell hchest => ?_
      refine hchest.putAt ?_ fun hfirst hlast => ?_
      · rw [(hdata c hc).states_length]
        exact hlayers
      · refine hop hvalid hrange.2.2 c cell hc ⟨e, he, hcell⟩ hfirst ?_
        rw [Nat.add_mul]
        exact hlast

theorem StoreMatches.applyPatch (hdata : ∀ c, s.chunks p = some c → c.data.WellFormed)
    {patch : ChunkPatch} (hop : (StoreOp.applyPatch p patch).KeepsChests s) :
    StoreMatches (s.applyPatch p patch).2 := by
  cases hc : s.chunks p with
  | none =>
    have hsame : (s.applyPatch p patch).2 = s := by
      rw [WorldStore.applyPatch]
      cases validatePatch patch with
      | error e => rfl
      | ok u => rw [WorldStore.withChunkMut, hc]
    rw [hsame]
    exact h
  | some c =>
    rcases applyPatch_cases hc patch with ⟨hvalid, haccepted, heq⟩ | ⟨-, e, heq⟩
    · have hplanes := patchData_planes (hdata c hc) hvalid
      have hmatch : ChunkMatches p (patched c patch) := by
        rw [ChunkMatches, patched_data, hplanes.chests]
        refine ChestsMatch.of_states (h p c hc) fun e he cell hcell hchest => ?_
        have hsize : chunkBlockCount < UInt16.size := by decide
        have hcellsize := cellOf_lt hcell
        have hkey : (UInt16.ofNat cell).toNat = cell := UInt16.toNat_ofNat_of_lt (by omega)
        have hlast := hplanes.states_last (UInt16.ofNat cell)
        rw [hkey] at hlast
        rw [ChestAt, hlast]
        cases hwrite : lastWrite patch.blocks (UInt16.ofNat cell) with
        | none => exact hchest
        | some state =>
          exact hop hvalid c hc haccepted (UInt16.ofNat cell) ⟨e, he, by rw [hkey, hcell]⟩ state hwrite
      rw [heq]
      cases changeKind patch <;> exact h.setChunk hmatch
    · rw [heq]
      exact h

theorem StoreOp.apply_matches (hdata : ∀ p c, s.chunks p = some c → c.data.WellFormed)
    {op : StoreOp} (hop : op.KeepsChests s) : StoreMatches (op.apply s) := by
  by_cases htouch : op.TouchesCells
  · cases op with
    | ensureChunk p biome => exact h.ensureChunk biome
    | importChunkIfAbsent p i => exact h.importChunkIfAbsent hop
    | importChunk p i => exact h.importChunk hop
    | installGeneratedChunk p i => exact h.installGeneratedChunk hop
    | setBlockState p x y z state => exact h.setBlockState hop
    | fillLayers p startY count state => exact h.fillLayers (hdata p) hop
    | applyPatch p patch => exact h.applyPatch (hdata p) hop
    | _ => exact htouch.elim
  · exact (StoreOp.sameCells htouch s).keeps h

end Writes

section Generation

open Effect

variable {γ : Type} {population : Population γ} {target p : ChunkCoord}

abbrev WorldMatches (g : OverworldInfinite γ) : Prop := StoreMatches g.store

theorem installGenerated_matches {i : ChunkImport}
    (hi : ChestsMatch p i.data.states i.data.chestBlockEntities) :
    Moves (keeps (WorldMatches (γ := γ))) (installGenerated p i) :=
  fun _ h => h.installGeneratedChunk fun _ => hi

theorem updateState_matches (f : γ → γ) : Moves (keeps WorldMatches) (updateState f) :=
  fun _ h => h

theorem populateCenter_matches {state : γ} {snapshots : Fin 9 → ChunkSnapshot}
    (h : ∀ i, ChestsMatch (neighborhoodPosition target i) (snapshots i).data.states
      (snapshots i).data.chestBlockEntities) :
    Moves (keeps WorldMatches) (populateCenter population.terrain target state snapshots) := by
  rw [populateCenter]
  refine (updateState_matches _).bind fun _ => Moves.sumM fun i _ => installCounted_moves ?_
  exact installGenerated_matches (populate_match population state target h i)

theorem tryPostProcessCenter_matches :
    Moves (keeps WorldMatches) (tryPostProcessCenter population.terrain target) := by
  refine tryPostProcessCenter_moves fun g snapshots hs hmatches => ?_
  refine populateCenter_matches (fun i => ?_) g hmatches
  have htaken := readySnapshots_some hs i
  rw [neighborhoodSnapshots, Option.map_eq_some_iff] at htaken
  obtain ⟨c, hc, hsnapshot⟩ := htaken
  rw [← hsnapshot]
  exact hmatches _ c hc

theorem generateIntoStore_matches :
    Moves (keeps WorldMatches) (generateIntoStore population.terrain target) :=
  generateIntoStore_moves
    (fun _ => ensureGeneratedChunk_moves updateState_matches (installGenerated_matches .nil))
    fun _ => tryPostProcessCenter_matches

inductive WorldStep where
  | store (op : StoreOp)
  | generate (target : ChunkCoord)

def WorldStep.apply (terrain : Terrain γ) (g : OverworldInfinite γ) :
    WorldStep → OverworldInfinite γ
  | .store op => { g with store := op.apply g.store }
  | .generate target => ((generateIntoStore terrain target).exec g).2

def WorldStep.KeepsChests (g : OverworldInfinite γ) : WorldStep → Prop
  | .store op => op.KeepsChests g.store
  | .generate _ => True

def ChestRun (population : Population γ) (state : γ) : OverworldInfinite γ → Prop :=
  Relation.ReflTransGen
    (fun g h => ∃ step : WorldStep, step.KeepsChests g ∧ h = step.apply population.terrain g)
    ⟨state, WorldStore.new⟩

theorem WorldStep.apply_reachable {terrain : Terrain γ} {g : OverworldInfinite γ}
    (h : g.store.Reachable fun _ => True) (step : WorldStep) :
    (step.apply terrain g).store.Reachable fun _ => True := by
  cases step with
  | store op => exact h.op op
  | generate target => exact generateIntoStore_reachable g h

theorem WorldStep.apply_matches {g : OverworldInfinite γ} (h : WorldMatches g)
    (hreachable : g.store.Reachable fun _ => True) {step : WorldStep} (hstep : step.KeepsChests g) :
    WorldMatches (step.apply population.terrain g) := by
  cases step with
  | store op =>
    have hsound : g.store.AllChunks (ChunkRecord.Sound fun _ => True) :=
      hreachable.sound trivial fun _ _ => trivial
    exact StoreOp.apply_matches h (fun p c hc => (hsound p c hc).data.wellFormed) hstep
  | generate target => exact generateIntoStore_matches g h

theorem ChestRun.invariant {state : γ} {g : OverworldInfinite γ} (h : ChestRun population state g) :
    WorldMatches g ∧ g.store.Reachable fun _ => True := by
  induction h with
  | refl =>
    refine ⟨fun p c hc => ?_, .refl⟩
    cases hc
  | tail _ hstep ih =>
    obtain ⟨step, hkeeps, rfl⟩ := hstep
    exact ⟨WorldStep.apply_matches ih.1 ih.2 hkeeps, WorldStep.apply_reachable ih.2 step⟩

-- A run that breaks no chest with an entity on it keeps every entity on a chest of its chunk.
theorem chest_entities_match_blocks (population : Population γ) (state : γ)
    {g : OverworldInfinite γ} (h : ChestRun population state g) :
    ∀ p c, g.store.chunks p = some c →
      ChestsMatch p c.data.states c.data.chestBlockEntities :=
  h.invariant.1

end Generation

-- A saved chunk with one chest in it, and the patch that breaks the chest.
def smithyImport : ChunkImport where
  terrainRevision := 0
  lightRevision := 0
  lifecycleFlags := 0
  data :=
    { bareChunk.data with
      states := bareChunk.data.states.set 1 866
      chestBlockEntities := [⟨1, 0, 0, []⟩] }

theorem smithyImport_valid : validateImport smithyImport = .ok () := by
  have hempty := bareChunk_wellFormed
  refine validateImport_ok_iff.mpr ⟨by decide, ?_⟩
  refine ⟨by rw [← hempty.1]; exact List.length_set, hempty.2, hempty.3, hempty.4, hempty.5, ?_,
    hempty.7⟩
  intro state hs
  rcases List.mem_or_eq_of_mem_set hs with hs | rfl
  · exact hempty.6 state hs
  · decide

theorem smithy_cell : cellOf originChunk (1, 0, 0) = some 1 := by decide

theorem smithyImport_matches :
    ChestsMatch originChunk smithyImport.data.states smithyImport.data.chestBlockEntities where
  chest e he := by
    rw [List.mem_singleton.mp he]
    refine ⟨1, smithy_cell, ?_⟩
    have hin : 1 < bareChunk.data.states.length := by
      rw [bareChunk_wellFormed.states_length]
      decide
    rw [ChestAt, smithyImport]
    dsimp only
    rw [getD_set hin, if_pos rfl]
    decide
  nodup := List.nodup_singleton _

def smithyChunk : ChunkRecord := ChunkRecord.fromImport smithyImport

def smithyStore : WorldStore := WorldStore.new.setChunk originChunk smithyChunk

theorem smithyStore_imported :
    (StoreOp.importChunk originChunk smithyImport).apply WorldStore.new = smithyStore := by
  rw [StoreOp.apply, importChunk, smithyImport_valid]
  rfl

def bareland : Population Unit where
  carve _ := ⟨[], [], []⟩
  addFeatures _ _ := ()
  features _ _ := ((), [])

theorem chest_entities_match_blocks_smithy :
    ChestsMatch originChunk smithyChunk.data.states smithyChunk.data.chestBlockEntities :=
  chest_entities_match_blocks bareland () (g := ⟨(), smithyStore⟩)
    (.single ⟨.store (.importChunk originChunk smithyImport), fun _ => smithyImport_matches,
      congrArg (OverworldInfinite.mk ()) smithyStore_imported.symm⟩) originChunk smithyChunk
    (setChunk_self WorldStore.new originChunk smithyChunk)

theorem broken_chest_keeps_entity : smithyStore.Reachable (fun i =>
    ChestsMatch originChunk i.data.states i.data.chestBlockEntities) ∧
      ∃ s' c', smithyStore.applyPatch originChunk (stamped smithyChunk [(1, 0)]) = (.ok (), s') ∧
        s'.chunks originChunk = some c' ∧
        ¬ChestsMatch originChunk c'.data.states c'.data.chestBlockEntities := by
  have hc : smithyStore.chunks originChunk = some smithyChunk :=
    setChunk_self WorldStore.new originChunk smithyChunk
  obtain ⟨s', happly⟩ := applyPatch_stamped [(1, 0)] hc (by decide) fun edit he => by
    rw [List.mem_singleton.mp he]
    exact ⟨by decide, by decide⟩
  obtain ⟨hvalid, hend⟩ := applyPatch_ok hc happly
  refine ⟨.single ⟨.importChunk originChunk smithyImport, smithyImport_matches,
    smithyStore_imported.symm⟩, s', _, happly, hend, fun hmatch => ?_⟩
  have hdata : smithyChunk.data.WellFormed := (validateImport_ok_iff.mp smithyImport_valid).2
  have hplanes := patchData_planes hdata hvalid
  rw [patched_data, hplanes.chests] at hmatch
  obtain ⟨cell, hcell, hchest⟩ := hmatch.chest ⟨1, 0, 0, []⟩ List.mem_cons_self
  have hsame : cell = 1 := Option.some.inj (hcell.symm.trans smithy_cell)
  have hair := hplanes.states_last 1
  rw [hsame, ChestAt] at hchest
  have hkey : (1 : UInt16).toNat = 1 := rfl
  rw [hkey] at hair
  rw [hair] at hchest
  exact absurd hchest (by decide)

end Cobblestone.World
