import Cobblestone.Bridge.Receipts
import Cobblestone.World.Install

namespace Cobblestone.Bridge

open Lib World Storage Region Async WorldStore WorldBridge

variable {γ : Type} {terrain : Int32 → Terrain γ} {initial : γ}
  {allowed : WorldBridge γ → Action → Prop} {b b' : WorldBridge γ}

-- What is being saved is resident, and none of the receipts that wait is refused.
structure ReceiptSafe (b : WorldBridge γ) : Prop where
  resident : ∀ p ∈ b.persistence.saveInFlight, b.store.containsChunk p = true
  accepted : ∀ receipt rest, b.persistence.saves.completions = .saved receipt ::ₘ rest →
    ((b.receiveSave (.saved receipt) rest).applySaveCompletion (.saved receipt)).1 = .ok ()

theorem ReceiptSafe.spares (h : ReceiptSafe b') : Spares b b' := by
  intro p hp _ heq c hc
  by_contra hfree
  obtain ⟨hpin, hdirty⟩ := not_or.mp hfree
  have hgone : (b.store.tryEvictChunk p).2 = b.store.removeChunk p := by
    rw [tryEvictChunk, hc]
    dsimp only
    rw [if_neg hpin, if_neg hdirty]
  subst heq
  have hresident := h.resident p hp
  simp [containsChunk, withStore, hgone] at hresident

theorem Saving.safe_iff (h : Saving b) : ReceiptSafe b ↔
    ∀ receipt, .saved receipt ∈ b.persistence.saves.completions → Counted b receipt := by
  constructor
  · intro hsafe receipt hmem
    obtain ⟨rest, hrest⟩ := Multiset.exists_cons_of_mem hmem
    exact (h.accepts_iff hrest).mp (hsafe.accepted receipt rest hrest)
  · intro hcounted
    refine ⟨fun p hp => ?_, fun receipt rest hrest => ?_⟩
    · exact Option.isSome_iff_ne_none.mpr (h.resident p hp)
    · exact (h.accepts_iff hrest).mpr (hcounted receipt (hrest ▸ Multiset.mem_cons_self _ _))

theorem Saving.attach {store : WorldStore} (hstore : WorldStore.Reachable (fun _ => True) store)
    (durable : ChunkCoord → Option ChunkSnapshot) (generatorId : UInt32)
    (policy : Option NativeCompactionPolicy) (infinite : Option (NativeInfiniteGenerator γ))
    (generatorState : Option γ) :
    Saving (.attach store durable generatorId policy infinite generatorState) := by
  refine ⟨hstore, fun p => ?_, fun p hp => absurd hp (Finset.notMem_empty p),
    fun s hs => absurd hs (Multiset.notMem_zero _), fun r hr => absurd hr (Multiset.notMem_zero _),
    fun s hs => absurd hs List.not_mem_nil, List.nodup_nil, fun s hs => absurd hs List.not_mem_nil⟩
  simp [WorldBridge.attach, NativeWorldPersistence.attach, SaveDesk.saving]

theorem Saving.run {start : WorldBridge γ} {states : List (WorldBridge γ)} (h : Saving start)
    (hrun : List.IsChain (BridgeStep terrain initial allowed) (start :: states))
    (hspares : List.IsChain Spares (start :: states)) : ∀ b ∈ start :: states, Saving b := by
  induction states generalizing start with
  | nil =>
    intro b hb
    rwa [List.mem_singleton.mp hb]
  | cons next rest ih =>
    rw [List.isChain_cons_cons] at hrun hspares
    intro b hb
    rcases List.mem_cons.mp hb with rfl | hb
    · exact h
    · exact ih (h.step hrun.1 hspares.1) hrun.2 hspares.2 b hb

theorem spares_of_safe {start : WorldBridge γ} {states : List (WorldBridge γ)}
    (h : ∀ b ∈ start :: states, ReceiptSafe b) : List.IsChain Spares (start :: states) := by
  induction states generalizing start with
  | nil => exact List.isChain_singleton _
  | cons next rest ih =>
    have htail : ∀ b ∈ next :: rest, ReceiptSafe b := fun b hb => h b (List.mem_cons_of_mem _ hb)
    exact List.isChain_cons_cons.mpr ⟨(htail next List.mem_cons_self).spares, ih htail⟩

section

variable {b : WorldBridge Unit} {c : ChunkRecord} {allowed : WorldBridge Unit → Action → Prop}

theorem setLifecycleFlags_eq {s : WorldStore} {p : ChunkCoord} {c : ChunkRecord} {flags : UInt8}
    (hf : validateLifecycleFlags flags = .ok ()) (hc : s.chunks p = some c) :
    (s.setLifecycleFlags p flags).2 = s.setChunk p { c with lifecycleFlags := flags } := by
  simp only [WorldStore.setLifecycleFlags, hf, withChunkMut, hc]

theorem edit_flags (hcall : b.call = .idle) (flags : UInt8) : BridgeStep flatTerrain () allowed b
    (b.withStore (b.store.setLifecycleFlags spawn flags).2) := by
  have hedit : BridgeStep flatTerrain () allowed b
      (b.withStore ((StoreOp.setLifecycleFlags spawn flags).apply b.store)) := .edit hcall rfl
  exact hedit

def firstSave : RegionSaveResult := ⟨1, 1, 4096, ⟨36928, 4096, 4096, 0, 1⟩⟩

-- One tick submits the only dirty chunk.
theorem tick_schedules (hcall : b.call = .idle) (hc : b.store.chunks spawn = some c)
    (honly : ∀ p, p ≠ spawn → b.store.chunks p = none) (hdirty : c.isDirty = true)
    (hflight : b.persistence.saveInFlight = ∅) (hqueue : b.persistence.compactionQueue = []) :
    Relation.ReflTransGen (BridgeStep flatTerrain () allowed) b
      ((b.scheduleSave (c.snapshot spawn)).withCall .idle) := by
  have htick : ControlStep b b.call (.polling 0 1 (.tick 1)) := by
    rw [hcall]
    exact .tick (by decide) (by decide)
  have hbatch : DirtyBatch (b.withCall (.collecting 0 1)).store 1
      (b.withCall (.collecting 0 1)).persistence.saveInFlight [c.snapshot spawn] := by
    refine ⟨fun x hx => ?_, List.nodup_singleton _, le_refl _, fun h => absurd h (by simp)⟩
    cases List.mem_singleton.mp hx
    exact ⟨c, hc, hdirty, rfl, by rw [withCall, hflight]; exact Finset.notMem_empty _⟩
  have hnone : DirtyBatch ((b.scheduleSave (c.snapshot spawn)).withCall .guarding).store 1
      ((b.scheduleSave (c.snapshot spawn)).withCall .guarding).persistence.saveInFlight [] := by
    refine ⟨fun x hx => absurd hx List.not_mem_nil, List.nodup_nil, Nat.zero_le _,
      fun _ p d hd _ hout => ?_⟩
    have hne : p ≠ spawn := by
      rintro rfl
      exact hout (Finset.mem_insert_self _ _)
    have hgone : b.store.chunks p = some d := hd
    rw [honly p hne] at hgone
    cases hgone
  have hbusy : ((b.scheduleSave (c.snapshot spawn)).withCall
      (.guarding : Call Unit)).persistence.saveInFlight ≠ ∅ := Finset.insert_ne_empty _ _
  have hcollect : BridgeStep flatTerrain () allowed (b.withCall (.collecting 0 1))
      (b.withCall (.scheduling [c.snapshot spawn] 1)) := .control (.collected hbatch)
  have hpolled : BridgeStep flatTerrain () allowed (b.withCall (.polling 0 1 (.tick 1)))
      (b.withCall (.compactions 0 1)) := .control .polled
  have htaken : BridgeStep flatTerrain () allowed (b.withCall (.compactions 0 1))
      (b.withCall (.collecting 0 1)) := .control .compactionsTaken
  have hsubmit : BridgeStep flatTerrain () allowed (b.withCall (.scheduling [c.snapshot spawn] 1))
      ((b.scheduleSave (c.snapshot spawn)).withCall (.scheduling [] 1)) := .schedule rfl
  have hdone : BridgeStep flatTerrain () allowed
      ((b.scheduleSave (c.snapshot spawn)).withCall (.scheduling [] 1))
      ((b.scheduleSave (c.snapshot spawn)).withCall (.sweeping 0 1)) := .control .scheduled
  have hswept : BridgeStep flatTerrain () allowed
      ((b.scheduleSave (c.snapshot spawn)).withCall (.sweeping 0 1))
      ((b.scheduleSave (c.snapshot spawn)).withCall .guarding) := .control (.swept (.inr hqueue))
  have hpostponed : BridgeStep flatTerrain () allowed
      ((b.scheduleSave (c.snapshot spawn)).withCall .guarding)
      ((b.scheduleSave (c.snapshot spawn)).withCall .idle) :=
    .control (.postponed hnone (.inl hbusy))
  exact (((((((Relation.ReflTransGen.single (.control htick)).tail hpolled).tail htaken).tail
    hcollect).tail hsubmit).tail hdone).tail hswept).tail hpostponed

-- A save receipt for which no chunk is resident.
theorem receipt_refused {γ : Type} {b : WorldBridge γ} {receipt : SaveReceipt}
    {rest : Multiset SaveCompletion} (hf : validateLifecycleFlags receipt.lifecycleFlags = .ok ())
    (hc : b.store.chunks receipt.position = none) :
    ((b.receiveSave (.saved receipt) rest).applySaveCompletion (.saved receipt)).1 =
      .error (.world (.chunkMissing receipt.position.x receipt.position.z)) := by
  have hmark : (b.receiveSave (.saved receipt) rest).store.markPersisted receipt.position
      receipt.terrainRevision receipt.lightRevision receipt.lifecycleFlags =
        (.error (.chunkMissing receipt.position.x receipt.position.z), b.store) := by
    change b.store.markPersisted _ _ _ _ = _
    simp only [markPersisted, hf, withChunkMut, hc]
  simp only [WorldBridge.applySaveCompletion, hmark]

variable (allowed) in
-- The flags of a clean chunk are changed, saved, and set back while the save is in flight.
theorem flags_set_back (hcall : b.call = .idle) (hc : b.store.chunks spawn = some c)
    (honly : ∀ p, p ≠ spawn → b.store.chunks p = none) (hclean : c.isDirty = false)
    (hpin : c.pinCount = 0) (hflags : c.lifecycleFlags = 0) (hsaves : b.persistence.saves = ⟨0, 0, 0⟩)
    (hflight : b.persistence.saveInFlight = ∅) (hqueue : b.persistence.compactionQueue = []) :
    ∃ b' receipt, Relation.ReflTransGen (BridgeStep flatTerrain () allowed) b b' ∧
      spawn ∈ b'.persistence.saveInFlight ∧ b'.store.chunks spawn = none ∧
      b'.persistence.saves.completions = .saved receipt ::ₘ 0 ∧ receipt.position = spawn ∧
      receipt.lifecycleFlags = 1 := by
  let changed : ChunkRecord := { c with lifecycleFlags := 1 }
  have hback : { changed with lifecycleFlags := 0 } = c := by
    obtain ⟨⟩ := c
    cases hflags
    rfl
  have hdirty : changed.isDirty = true := by
    have hpersisted := ((ChunkRecord.not_dirty_iff c).mp hclean).2.2
    rw [hflags] at hpersisted
    simp [ChunkRecord.isDirty, changed, hpersisted]
  have hset : BridgeStep flatTerrain () allowed b
      (b.withStore (b.store.setChunk spawn changed)) := by
    rw [← setLifecycleFlags_eq (by decide) hc]
    exact edit_flags hcall 1
  generalize hsaving : ((b.withStore (b.store.setChunk spawn changed)).scheduleSave
    (changed.snapshot spawn)).withCall .idle = saving
  have hsubmit : Relation.ReflTransGen (BridgeStep flatTerrain () allowed)
      (b.withStore (b.store.setChunk spawn changed)) saving := by
    rw [← hsaving]
    exact tick_schedules hcall (setChunk_self b.store spawn changed)
      (fun p hp => (setChunk_of_ne b.store changed hp).trans (honly p hp)) hdirty hflight hqueue
  have hstore : saving.store.chunks spawn = some changed := by
    rw [← hsaving]
    exact setChunk_self b.store spawn changed
  have hreset : BridgeStep flatTerrain () allowed saving
      (saving.withStore (saving.store.setChunk spawn c)) := by
    rw [← hback, ← setLifecycleFlags_eq (by decide) hstore]
    exact edit_flags (by rw [← hsaving]; rfl) 0
  have hevicted : ((saving.store.setChunk spawn c).tryEvictChunk spawn).2 =
      (saving.store.setChunk spawn c).removeChunk spawn := by
    rw [tryEvictChunk, setChunk_self]
    dsimp only
    rw [if_neg (by simp [hpin]), if_neg (by simp [hclean])]
  have hevict : BridgeStep flatTerrain () allowed (saving.withStore (saving.store.setChunk spawn c))
      (saving.withStore ((saving.store.setChunk spawn c).removeChunk spawn)) := by
    rw [← hevicted]
    have hidle : (saving.withStore (saving.store.setChunk spawn c)).call = .idle := by
      rw [← hsaving]
      rfl
    exact .evict hidle spawn
  have hcommands : saving.persistence.saves = ⟨.save (changed.snapshot spawn) ::ₘ 0, 0, 0⟩ := by
    rw [← hsaving]
    simp [withCall, WorldBridge.scheduleSave, NativeWorldPersistence.scheduleSave, withPersistence,
      withStore, SaveDesk.submit, hsaves]
  have hanswered : saving.persistence.saves.commands = .save (changed.snapshot spawn) ::ₘ 0 := by
    rw [hcommands]
  have hanswer : DiskStep (saving.withStore ((saving.store.setChunk spawn c).removeChunk spawn))
      { (saving.withStore ((saving.store.setChunk spawn c).removeChunk spawn)).withSaves
          (saving.persistence.saves.answer 0
            (.completion (saveCompletion (changed.snapshot spawn) (.finished (.ok firstSave))))) with
        durable := Function.update saving.durable spawn (some (changed.snapshot spawn)) } :=
    .saved hanswered
  refine ⟨_, saveReceipt (changed.snapshot spawn) firstSave,
    ((((Relation.ReflTransGen.single hset).trans hsubmit).tail hreset).tail hevict).tail
      (.disk hanswer), ?_, removeChunk_self _ _, ?_, rfl, rfl⟩
  · rw [← hsaving]
    exact Finset.mem_insert_self _ _
  · change _ ::ₘ saving.persistence.saves.completions = _
    rw [hcommands]
    rfl

variable (allowed) in
-- A chunk that the region files hold is loaded into a world that holds nothing.
theorem spawn_loaded {x : ChunkSnapshot}
    (hvalid : validateImport x.toImport = .ok ()) (hcall : b.call = .idle)
    (hstore : b.store = .new) (hdurable : b.durable spawn = some x)
    (hloads : b.persistence.loads = ⟨∅, 0, 0⟩) (hmissing : b.persistence.loadMissing = ∅) :
    ∃ b', Relation.ReflTransGen (BridgeStep flatTerrain () allowed) b b' ∧ b'.call = .idle ∧
      b'.store = WorldStore.new.setChunk spawn (ChunkRecord.fromImport x.toImport) ∧
      b'.persistence.saves = b.persistence.saves ∧
      b'.persistence.saveInFlight = b.persistence.saveInFlight ∧
      b'.persistence.compactionQueue = b.persistence.compactionQueue := by
  let chunk : StoredChunk := ⟨spawn, .none, x.toImport, []⟩
  have hrequest : BridgeStep flatTerrain () allowed b (b.requestLoad spawn) :=
    .requestLoad hcall (by rw [hstore]; rfl) (by simp [isMissing, hmissing])
      (by rw [hloads]; exact Finset.notMem_empty _)
  have hrequests : (b.requestLoad spawn).persistence.loads.requests = spawn ::ₘ 0 := by
    change spawn ::ₘ b.persistence.loads.requests = _
    rw [hloads]
  have hread : BridgeStep flatTerrain () allowed (b.requestLoad spawn)
      ((b.requestLoad spawn).withLoads
        ((b.requestLoad spawn).persistence.loads.answer 0 (.loaded chunk))) :=
    .disk (.loaded hrequests hdurable rfl rfl)
  generalize hloaded : (b.requestLoad spawn).withLoads
    ((b.requestLoad spawn).persistence.loads.answer 0 (.loaded chunk)) = loaded at hread
  have hcompletions : loaded.persistence.loads.completions = .loaded chunk ::ₘ 0 := by
    rw [← hloaded]
    change _ ::ₘ b.persistence.loads.completions = _
    rw [hloads]
  have hcallLoaded : loaded.call = .idle := by
    rw [← hloaded]
    exact hcall
  have hstoreLoaded : loaded.store = .new := by
    rw [← hloaded]
    exact hstore
  have hcontrol : ControlStep loaded loaded.call (.polling 0 1 (.prepareLoads [])) := by
    rw [hcallLoaded]
    exact .prepareLoads []
  have hpolling : BridgeStep flatTerrain () allowed loaded
      (loaded.withCall (.polling 0 1 (.prepareLoads []))) := .control hcontrol
  let polling := loaded.withCall (.polling 0 1 (.prepareLoads []))
  let imported := (((polling.receiveLoad (.loaded chunk) 0).withPersistence
    ((polling.receiveLoad (.loaded chunk) 0).persistence.clearMissing spawn)).withStore
      (WorldStore.new.setChunk spawn (ChunkRecord.fromImport x.toImport)))
  have himport : loaded.store.importChunkIfAbsent spawn x.toImport =
      (.ok true, WorldStore.new.setChunk spawn (ChunkRecord.fromImport x.toImport)) := by
    rw [hstoreLoaded, importChunkIfAbsent, hvalid]
    rfl
  have happly : (polling.receiveLoad (.loaded chunk) 0).applyLoadCompletion (.loaded chunk) =
      (.ok (), imported) := by
    have hsame : ((polling.receiveLoad (.loaded chunk) 0).withPersistence
        ((polling.receiveLoad (.loaded chunk) 0).persistence.clearMissing chunk.position)).store =
          loaded.store := rfl
    have hchunk : loaded.store.importChunkIfAbsent chunk.position chunk.imported =
        (.ok true, WorldStore.new.setChunk spawn (ChunkRecord.fromImport x.toImport)) := himport
    rw [WorldBridge.applyLoadCompletion.eq_def]
    dsimp only
    rw [hsame, hchunk]
  have hpoll : BridgeStep flatTerrain () allowed polling
      (imported.withCall (.polling 1 1 (.prepareLoads []))) :=
    .pollOne rfl (by decide) hcompletions happly
  have hpolled : BridgeStep flatTerrain () allowed
      (imported.withCall (.polling 1 1 (.prepareLoads []))) (imported.withCall (.preparing [] [])) :=
    .control .polled
  have hprepared : BridgeStep flatTerrain () allowed (imported.withCall (.preparing [] []))
      (imported.withCall .idle) := .control .prepared
  refine ⟨imported.withCall .idle, (((((Relation.ReflTransGen.single hrequest).tail hread).tail
    hpolling).tail hpoll).tail hpolled).tail hprepared, rfl, rfl, ?_, ?_, ?_⟩
  · change loaded.persistence.saves = _
    rw [← hloaded]
    rfl
  · change loaded.persistence.saveInFlight = _
    rw [← hloaded]
    rfl
  · change loaded.persistence.compactionQueue = _
    rw [← hloaded]
    rfl

-- A world that starts with nothing resident and one chunk on disk.
def storedWorld : WorldBridge Unit :=
  .attach .new (Function.update (fun _ => none) spawn (some (bareChunk.snapshot spawn)))
    infiniteGeneratorId none (some ⟨0, (), false⟩) none

theorem storedWorld_attached : Attached storedWorld :=
  ⟨⟨_, _, _, _, _, _, rfl⟩, fun _ _ hc => absurd hc nofun, fun _ => ⟨_, rfl, rfl⟩⟩

end

end Cobblestone.Bridge
