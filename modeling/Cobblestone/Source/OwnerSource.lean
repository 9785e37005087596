import Cobblestone.Source.Residents
import Cobblestone.World.Install

namespace Cobblestone.World

open Lib WorldStore

-- The revisions grow, and while one of them stands still so do the planes it counts for.
structure Stamps (c c' : ChunkRecord) : Prop where
  terrain : c.terrainRevision ≤ c'.terrainRevision
  light : c.lightRevision ≤ c'.lightRevision
  sameTerrain : c'.terrainRevision = c.terrainRevision → c'.data.states = c.data.states ∧
    c'.data.biomes = c.data.biomes ∧ c'.data.extraData = c.data.extraData
  sameLight : c'.lightRevision = c.lightRevision →
    c'.data.skyLight = c.data.skyLight ∧ c'.data.blockLight = c.data.blockLight

theorem Stamps.refl (c : ChunkRecord) : Stamps c c :=
  ⟨UInt64.le_refl _, UInt64.le_refl _, fun _ => ⟨rfl, rfl, rfl⟩, fun _ => ⟨rfl, rfl⟩⟩

theorem Stamps.trans {c d e : ChunkRecord} (h : Stamps c d) (k : Stamps d e) : Stamps c e where
  terrain := UInt64.le_trans h.terrain k.terrain
  light := UInt64.le_trans h.light k.light
  sameTerrain heq := by
    have hmid : d.terrainRevision = c.terrainRevision :=
      UInt64.le_antisymm (heq ▸ k.terrain) h.terrain
    obtain ⟨hstates, hbiomes, hextra⟩ := h.sameTerrain hmid
    obtain ⟨kstates, kbiomes, kextra⟩ := k.sameTerrain (heq.trans hmid.symm)
    exact ⟨kstates.trans hstates, kbiomes.trans hbiomes, kextra.trans hextra⟩
  sameLight heq := by
    have hmid : d.lightRevision = c.lightRevision := UInt64.le_antisymm (heq ▸ k.light) h.light
    obtain ⟨hsky, hblock⟩ := h.sameLight hmid
    obtain ⟨ksky, kblock⟩ := k.sameLight (heq.trans hmid.symm)
    exact ⟨ksky.trans hsky, kblock.trans hblock⟩

theorem Stamps.of_data {c c' : ChunkRecord} (ht : c.terrainRevision ≤ c'.terrainRevision)
    (hl : c.lightRevision ≤ c'.lightRevision) (hd : c'.data = c.data) : Stamps c c' :=
  ⟨ht, hl, fun _ => by simp [hd], fun _ => by simp [hd]⟩

theorem bumped_same {changed : Bool} {n m : UInt64} (h : bumped changed n = some m) (hm : m = n) :
    changed = false := by
  cases changed with
  | false => rfl
  | true =>
    have hsucc := checkedSucc_toNat h
    rw [hm] at hsucc
    omega

theorem installOver_stamps (c : ChunkRecord) (i : ChunkImport) : Stamps c (installOver c i).2 := by
  have hadvance := installOver_advances c i
  rcases installOver_cases c i with ⟨t, l, changed, ht, hl, heq⟩ | ⟨-, -, heq⟩ | ⟨t, -, -, -, heq⟩
  · rw [heq] at hadvance ⊢
    refine ⟨hadvance.terrain, hadvance.light, fun hsame => ?_, fun hsame => ?_⟩
    · have hterrain := bumped_same ht hsame
      simp only [installed]
      split
      · simp only [terrainChanged, Bool.or_eq_false_iff, bne_eq_false_iff_eq] at hterrain
        exact ⟨hterrain.1.1.1.symm, hterrain.1.1.2.symm, hterrain.2.symm⟩
      · exact ⟨rfl, rfl, rfl⟩
    · have hlight := bumped_same hl hsame
      simp only [installed]
      split
      · simp only [lightChanged, Bool.or_eq_false_iff, bne_eq_false_iff_eq] at hlight
        exact ⟨hlight.1.symm, hlight.2.symm⟩
      · exact ⟨rfl, rfl⟩
  · rw [heq]
    exact .refl c
  · rw [heq] at hadvance ⊢
    exact .of_data hadvance.terrain hadvance.light rfl

-- What serving one chunk asks of the store: chunks come in, native generation installs, flags are
-- set, and the flat layers are written at the chunk itself.
def StoreOp.Serves (p : ChunkCoord) : StoreOp → Prop
  | .ensureChunk .. | .importChunkIfAbsent .. | .installGeneratedChunk ..
  | .setLifecycleFlags .. => True
  | .fillLayers q .. | .fillSkyLightFrom q .. => q = p
  | _ => False

def ServeRun (p : ChunkCoord) : WorldStore → WorldStore → Prop :=
  Relation.ReflTransGen fun s t => ∃ op : StoreOp, op.Serves p ∧ t = op.apply s

-- Every resident chunk but the one being served is stamped.
def StampedAway (p : ChunkCoord) (s t : WorldStore) : Prop :=
  ∀ q c, q ≠ p → s.chunks q = some c → ∃ c', t.chunks q = some c' ∧ Stamps c c'

section

variable {s t : WorldStore} {p q : ChunkCoord} {α : Type}

theorem StampedAway.refl (s : WorldStore) : StampedAway p s s :=
  fun _ c _ hc => ⟨c, hc, .refl c⟩

theorem StampedAway.setChunk {c' : ChunkRecord}
    (h : q ≠ p → ∀ c, s.chunks q = some c → Stamps c c') : StampedAway p s (s.setChunk q c') := by
  intro r c hr hc
  by_cases hq : r = q
  · subst hq
    exact ⟨c', setChunk_self .., h hr c hc⟩
  · exact ⟨c, by rw [setChunk_of_ne _ _ hq, hc], .refl c⟩

theorem StampedAway.withChunkMut {operation : ChunkRecord → Except WorldStoreError α × ChunkRecord}
    (h : q ≠ p → ∀ c, Stamps c (operation c).2) :
    StampedAway p s (s.withChunkMut q operation).2 := by
  rw [WorldStore.withChunkMut]
  cases hc : s.chunks q with
  | none => exact .refl s
  | some c =>
    refine .setChunk fun hq d hd => ?_
    rw [hc] at hd
    cases hd
    exact h hq c

theorem StampedAway.editData (edit : ChunkData → α × ChunkData) :
    StampedAway p s (s.editData p edit).2 := StampedAway.withChunkMut fun hp => absurd rfl hp

theorem StampedAway.setAbsent (hq : s.chunks q = none) (c : ChunkRecord) :
    StampedAway p s (s.setChunk q c) := by
  refine .setChunk fun _ d hd => ?_
  rw [hq] at hd
  cases hd

theorem absent_of_contains (h : ¬ s.containsChunk q = true) : s.chunks q = none := by
  simpa [containsChunk] using h

theorem StoreOp.stampedAway {op : StoreOp} (h : op.Serves p) (s : WorldStore) :
    StampedAway p s (op.apply s) := by
  cases op with
  | ensureChunk q biome =>
    simp only [StoreOp.apply, WorldStore.ensureChunk]
    split
    · exact .refl s
    · split
      · exact .refl s
      · next hq => exact .setAbsent (absent_of_contains hq) _
  | importChunkIfAbsent q i =>
    simp only [StoreOp.apply, WorldStore.importChunkIfAbsent]
    split
    · exact .refl s
    · split
      · exact .refl s
      · next hq => exact .setAbsent (absent_of_contains hq) _
  | installGeneratedChunk q i =>
    simp only [StoreOp.apply, WorldStore.installGeneratedChunk]
    split
    · exact .refl s
    · split
      · next hq => exact .setAbsent hq _
      · next c hc =>
        refine .setChunk fun _ d hd => ?_
        rw [hc] at hd
        cases hd
        exact installOver_stamps c i
  | setLifecycleFlags q flags =>
    simp only [StoreOp.apply, WorldStore.setLifecycleFlags]
    split
    · exact .refl s
    · exact .withChunkMut fun _ c => .of_data (UInt64.le_refl _) (UInt64.le_refl _) rfl
  | fillLayers q startY count state =>
    have hq : q = p := h
    subst hq
    simp only [StoreOp.apply, WorldStore.fillLayers]
    split
    · exact .refl s
    · split
      · exact .refl s
      · exact .editData _
  | fillSkyLightFrom q y level =>
    have hq : q = p := h
    subst hq
    simp only [StoreOp.apply, WorldStore.fillSkyLightFrom]
    split
    · exact .refl s
    · split
      · exact .refl s
      · exact .editData _
  | _ => exact h.elim

theorem ServeRun.op (op : StoreOp) (h : op.Serves p) : ServeRun p s (op.apply s) :=
  .single ⟨op, h, rfl⟩

theorem ServeRun.stampedAway (h : ServeRun p s t) : StampedAway p s t := by
  induction h with
  | refl => exact .refl s
  | tail _ hstep ih =>
    obtain ⟨op, hop, rfl⟩ := hstep
    intro q c hq hc
    obtain ⟨d, hd, hcd⟩ := ih q c hq hc
    obtain ⟨e, he, hde⟩ := StoreOp.stampedAway hop _ q d hq hd
    exact ⟨e, he, hcd.trans hde⟩

theorem ServeRun.reachable (h : ServeRun p s t) (hs : WorldStore.Reachable (fun _ => True) s) :
    WorldStore.Reachable (fun _ => True) t := by
  induction h with
  | refl => exact hs
  | tail _ hstep ih =>
    obtain ⟨op, -, rfl⟩ := hstep
    exact ih.op op

end

end Cobblestone.World

namespace Cobblestone.Source

open Lib Effect World WorldStore Async Bridge

structure FlatLayer where
  count : Nat
  stateId : UInt16

structure FlatPreset where
  layers : List FlatLayer
  biome : UInt8

inductive WorldGenerator (γ : Type) where
  | flat (preset : FlatPreset)
  | infinite (terrain : Terrain γ)

namespace InfiniteWorld

variable {γ : Type} {terrain : Terrain γ} {p : ChunkCoord}

def ensureChunk (p : ChunkCoord) (biome : UInt8) : WorldCall γ Unit := do
  let created ← onStore fun s => s.ensureChunk p biome
  if created then update (clearMissing p)

def fillBlockLayers (p : ChunkCoord) (startY count : Nat) (stateId : UInt16) : WorldCall γ Unit :=
  if count = 0 then pure ()
  else onStore fun s => s.fillLayers p (UInt8.ofNat startY) (UInt8.ofNat count) stateId

def fillLayersFrom (p : ChunkCoord) : List FlatLayer → Nat → WorldCall γ Nat
  | [], y => pure y
  | layer :: layers, y =>
    if worldHeight ≤ y then pure y
    else do
      let count := min layer.count (worldHeight - y)
      fillBlockLayers p y count layer.stateId
      fillLayersFrom p layers (y + count)

def fillSkyLightFrom (p : ChunkCoord) (y : Nat) (level : UInt8) : WorldCall γ Unit :=
  onStore fun s => s.fillSkyLightFrom p (UInt8.ofNat y) level

-- `FlatGenerator::generate`.
def generateFlat (preset : FlatPreset) (p : ChunkCoord) : WorldCall γ Unit := do
  ensureChunk p preset.biome
  let y ← fillLayersFrom p preset.layers 0
  fillSkyLightFrom p y 15
  mark p chunkLifecycleGenerated
  mark p chunkLifecycleLightPopulated

-- A native world without storage has no neighborhood to wait for.
def generateDetached (terrain : Terrain γ) (p : ChunkCoord) : WorldCall γ Unit := do
  let _ ← generateChunk terrain p
  pure ()

def Serves (p : ChunkCoord) (w w' : InfiniteWorld γ) : Prop := ServeRun p w.store w'.store

instance : Std.Refl (Serves (γ := γ) p) := ⟨fun _ => .refl⟩

instance : IsTrans (InfiniteWorld γ) (Serves p) := ⟨fun _ _ _ => Relation.ReflTransGen.trans⟩

theorem Serves.of_same {α : Type} {m : WorldCall γ α} (h : Moves SameStore m) :
    Moves (Serves p) m := by
  intro w
  have hsame : (m.exec w).2.store = w.store := h w
  rw [Serves, hsame]
  exact .refl

theorem onStore_serves {α : Type} {op : WorldStore → Except WorldStoreError α × WorldStore}
    (h : ∀ s, ServeRun p s (op s).2) : Moves (Serves (γ := γ) p) (onStore op) :=
  fun w => h w.store

theorem setLifecycleFlags_serves {q : ChunkCoord} {flags : UInt8} :
    Moves (Serves (γ := γ) p) (onStore fun s => s.setLifecycleFlags q flags) :=
  onStore_serves fun _ => .op (.setLifecycleFlags q flags) trivial

theorem lifecycleFlags_serves {q : ChunkCoord} :
    Moves (Serves (γ := γ) p) (lifecycleFlags q) := onStore_serves fun _ => .refl

theorem mark_serves {q : ChunkCoord} {flag : UInt8} : Moves (Serves (γ := γ) p) (mark q flag) :=
  lifecycleFlags_serves.bind fun _ => setLifecycleFlags_serves

theorem applyLoadCompletion_serves (c : LoadCompletion) :
    Moves (Serves (γ := γ) p) (applyLoadCompletion c) := by
  cases c with
  | loaded chunk =>
    refine Moves.bind (update_moves fun w => .refl) fun _ => ?_
    refine Moves.bind (onStore_serves fun _ => ?_) fun _ => Moves.pure ()
    exact .op (.importChunkIfAbsent chunk.position chunk.imported) trivial
  | missing q => exact update_moves fun w => .refl
  | failed failure => exact fail_moves _

theorem pollLoadCompletions_serves (budget : Nat) :
    Moves (Serves (γ := γ) p) (pollLoadCompletions budget) := by
  induction budget with
  | zero => exact Moves.pure 0
  | succ budget ih =>
    refine state_moves.bind fun w => ?_
    cases w.completions with
    | nil => exact Moves.pure 0
    | cons c rest =>
      refine Moves.bind (update_moves fun w => .refl) fun _ => ?_
      exact (applyLoadCompletion_serves c).bind fun _ => ih.bind fun _ => Moves.pure _

theorem generateChunk_serves (q : ChunkCoord) : Moves (Serves p) (generateChunk terrain q) := by
  let R (g h : OverworldInfinite γ) : Prop := ServeRun p g.store h.store
  have hrefl : Std.Refl R := ⟨fun _ => .refl⟩
  have htrans : IsTrans (OverworldInfinite γ) R := ⟨fun _ _ _ => Relation.ReflTransGen.trans⟩
  have hinstall (position : ChunkCoord) (i : ChunkImport) : Moves R (installGenerated position i) :=
    fun g => .op (.installGeneratedChunk position i) trivial
  have hstate (f : γ → γ) : Moves R (updateState f) := fun g => .refl
  have hgenerate : Moves R (generateIntoStore terrain q) := by
    refine generateIntoStore_moves (fun i => ensureGeneratedChunk_moves hstate (hinstall _ _)) ?_
    exact fun center => tryPostProcessCenter_moves fun g _ _ =>
      populateCenter_moves hstate (fun _ _ i => hinstall _ _) g
  exact fun w => hgenerate ⟨w.generator, w.store⟩

theorem prepareGenerationNeighborhood_serves (positions : List ChunkCoord) :
    Moves (Serves (γ := γ) p) (prepareGenerationNeighborhood positions) :=
  (pollLoadCompletions_serves _).bind fun _ => Serves.of_same (requireLoads_same positions)

theorem generateInfinite_serves (q : ChunkCoord) :
    Moves (Serves p) (generateInfinite terrain q) := by
  refine (prepareGenerationNeighborhood_serves _).bind fun ready => ?_
  split
  · refine (generateChunk_serves q).bind fun result => ?_
    split
    · refine Moves.bind (update_moves fun w => ?_) fun _ => Moves.pure true
      rw [Serves, clearMissing_store]
      exact .refl
    · exact Moves.pure true
  · exact Moves.pure false

theorem fillLayersFrom_serves (layers : List FlatLayer) (y : Nat) :
    Moves (Serves (γ := γ) p) (fillLayersFrom p layers y) := by
  induction layers generalizing y with
  | nil => exact Moves.pure y
  | cons layer layers ih =>
    rw [fillLayersFrom]
    split
    · exact Moves.pure y
    · refine Moves.bind ?_ fun _ => ih _
      rw [fillBlockLayers]
      split
      · exact Moves.pure ()
      · exact onStore_serves fun _ => .op (.fillLayers p _ _ _) rfl

theorem generateFlat_serves (preset : FlatPreset) :
    Moves (Serves (γ := γ) p) (generateFlat preset p) := by
  refine Moves.bind ?_ fun _ => (fillLayersFrom_serves _ _).bind fun y => ?_
  · refine Moves.bind (onStore_serves fun _ => .op (.ensureChunk p preset.biome) trivial) ?_
    intro created
    split
    · exact update_moves fun w => .refl
    · exact Moves.pure ()
  · refine Moves.bind (onStore_serves fun _ => .op (.fillSkyLightFrom p _ _) rfl) fun _ => ?_
    exact mark_serves.bind fun _ => mark_serves

end InfiniteWorld

-- What a world is opened with, fixed while its chunks are served.
structure OwnerSource (γ : Type) where
  generator : WorldGenerator γ
  hasStorage : Bool

namespace OwnerSource

open InfiniteChunkSource

variable {γ : Type} (world : OwnerSource γ) (p : ChunkCoord)

def runGenerate : SourceCall γ ChunkCoord :=
  match world.generator with
  | .flat preset => do
    onNative (InfiniteWorld.generateFlat preset p)
    pure p
  | .infinite terrain =>
    if world.hasStorage then InfiniteChunkSource.runGenerate terrain p
    else do
      onNative (InfiniteWorld.generateDetached terrain p)
      pure p

def populate : SourceCall γ Unit :=
  match world.generator with
  | .flat _ => onNative (InfiniteWorld.mark p chunkLifecyclePopulated)
  | .infinite _ => pure ()

def completeInfiniteChunk : SourceCall γ ChunkCoord :=
  match world.generator with
  | .flat _ => pure p
  | .infinite _ => do
    let flags ← onNative (InfiniteWorld.lifecycleFlags p)
    if MainChunkSource.completed flags then pure p
    else
      let _ ← world.runGenerate p
      pure p

def generateBody : SourceCall γ ChunkCoord := do
  let generated ← world.runGenerate p
  if generated ≠ p then fail .wrongPosition
  else
    onNative (InfiniteWorld.mark p chunkLifecycleGenerated)
    world.populate p
    onNative (InfiniteWorld.mark p chunkLifecyclePopulated)
    update (put p)
    pure p

-- The `finally` clears the loading mark however the body ends.
def generate : SourceCall γ ChunkCoord := do
  let s ← state
  if p ∈ s.loading then fail (.alreadyLoading p)
  else .ofOp fun s =>
    let (result, s) := (world.generateBody p).exec (s.enter p)
    (result, s.leave p)

def getOrGenerate : SourceCall γ ChunkCoord := do
  let s ← state
  if p ∈ s.chunks then world.completeInfiniteChunk p
  else if world.hasStorage then
    let status ← onNative (InfiniteWorld.requestStorageLoad p)
    if status = .resident then
      update (adoptNativeResident p)
      world.completeInfiniteChunk p
    else if status = .missing then world.generate p
    else fail (.pending p status)
  else world.generate p

-- With native generation and storage this is the source of an infinite world.
theorem getOrGenerate_infinite (terrain : Terrain γ) :
    (OwnerSource.mk (.infinite terrain) true).getOrGenerate p =
      InfiniteChunkSource.getOrGenerate terrain p := rfl

variable {world p}

def Serves (p : ChunkCoord) (s t : InfiniteChunkSource γ) : Prop :=
  ServeRun p s.native.store t.native.store

instance : Std.Refl (Serves (γ := γ) p) := ⟨fun _ => .refl⟩

instance : IsTrans (InfiniteChunkSource γ) (Serves p) :=
  ⟨fun _ _ _ => Relation.ReflTransGen.trans⟩

theorem onNative_serves {α : Type} {m : WorldCall γ α} (h : Moves (InfiniteWorld.Serves p) m) :
    Moves (Serves p) (onNative m) := fun s => h s.native

theorem put_store (s : InfiniteChunkSource γ) : (s.put p).native = s.native := by
  rw [InfiniteChunkSource.put]
  split <;> rfl

theorem adopted_native (s : InfiniteChunkSource γ) :
    (s.adoptNativeResident p).native = s.native := by
  rw [adoptNativeResident]
  split
  · rfl
  · exact put_store s

theorem runGenerate_serves : Moves (Serves p) (world.runGenerate p) := by
  rw [runGenerate]
  cases world.generator with
  | flat preset =>
    exact (onNative_serves (InfiniteWorld.generateFlat_serves preset)).bind fun _ => Moves.pure p
  | infinite terrain =>
    dsimp only
    split
    · refine (onNative_serves (InfiniteWorld.generateInfinite_serves p)).bind fun generated => ?_
      split
      · exact Moves.pure p
      · exact fail_moves _
    · refine (onNative_serves ?_).bind fun _ => Moves.pure p
      exact (InfiniteWorld.generateChunk_serves p).bind fun _ => Moves.pure ()

theorem completeInfiniteChunk_serves : Moves (Serves p) (world.completeInfiniteChunk p) := by
  rw [completeInfiniteChunk]
  cases world.generator with
  | flat preset => exact Moves.pure p
  | infinite terrain =>
    refine (onNative_serves InfiniteWorld.lifecycleFlags_serves).bind fun flags => ?_
    split
    · exact Moves.pure p
    · exact runGenerate_serves.bind fun _ => Moves.pure p

theorem generateBody_serves : Moves (Serves p) (world.generateBody p) := by
  refine runGenerate_serves.bind fun generated => ?_
  split
  · exact fail_moves _
  · refine (onNative_serves InfiniteWorld.mark_serves).bind fun _ => ?_
    refine Moves.bind ?_ fun _ => (onNative_serves InfiniteWorld.mark_serves).bind fun _ => ?_
    · rw [populate]
      cases world.generator with
      | flat preset => exact onNative_serves InfiniteWorld.mark_serves
      | infinite terrain => exact Moves.pure ()
    · refine Moves.bind (update_moves fun s => ?_) fun _ => Moves.pure p
      rw [Serves, put_store]
      exact .refl

theorem generate_serves : Moves (Serves p) (world.generate p) := by
  refine state_moves.bind fun s => ?_
  split
  · exact fail_moves _
  · exact fun s => generateBody_serves (s.enter p)

theorem getOrGenerate_serves : Moves (Serves p) (world.getOrGenerate p) := by
  refine state_moves.bind fun s => ?_
  split
  · exact completeInfiniteChunk_serves
  · split
    · refine Moves.bind (onNative_serves ?_) fun status => ?_
      · exact InfiniteWorld.Serves.of_same InfiniteWorld.requestStorageLoad_same
      · split
        · refine Moves.bind (update_moves fun s => ?_) fun _ => completeInfiniteChunk_serves
          rw [Serves, adopted_native]
          exact .refl
        · split
          · exact generate_serves
          · exact fail_moves _
    · exact generate_serves

end OwnerSource

end Cobblestone.Source
