import Cobblestone.Region.Run

namespace Cobblestone.Region

open Lib World Storage

variable {crates : Crates} {r r' : RegionFile} {handle disk : SlotMap}

-- What the open handle indexes, and what another open of the same file would index: they differ
-- while the spare page holds the complete index of a save that was reported as failed.
structure Views (crates : Crates) (r : RegionFile) (handle disk : SlotMap) : Prop where
  inv : RegionInv crates ChestsFit r handle
  disk : (Quiet crates r ∧ disk = handle) ∨
    ∃ index, SpareIndex crates ChestsFit r index disk ∧ r.index.generation < index.generation

theorem Settled.views (h : Settled crates r handle) : Views crates r handle handle :=
  ⟨h.inv, .inl ⟨h.quiet, rfl⟩⟩

theorem Views.reopen (h : Views crates r handle disk) :
    ∃ r', fromOpenFile crates r.file r.worldUuid r.coord = .ok r' ∧ Settled crates r' disk ∧
      r'.coord = r.coord := by
  rcases h.disk with ⟨hq, rfl⟩ | ⟨index, hs, hlt⟩
  · exact ⟨r, h.inv.reopen_quiet hq, ⟨h.inv, hq⟩, rfl⟩
  · obtain ⟨hinv, hq⟩ := h.inv.usingSpare hs hlt
    exact ⟨_, hinv.reopen_quiet hq, ⟨hinv, hq⟩, rfl⟩

theorem Views.grow (h : Views crates r handle disk) {tail : Bytes}
    (hl : (r.file ++ tail).length ≤ maxFileBytes) :
    Views crates (withFile r (r.file ++ tail)) handle disk := by
  refine ⟨h.inv.grow hl, ?_⟩
  rcases h.disk with ⟨hq, hd⟩ | ⟨index, hs, hlt⟩
  · exact .inl ⟨hq.grow h.inv.long tail, hd⟩
  · exact .inr ⟨index, hs.grow h.inv.long tail, hlt⟩

theorem Views.compact (h : Views crates r handle disk) (fault : Option CompactPoint) :
    (Views crates (Region.compact crates fault r).handle handle disk ∨
      Views crates (Region.compact crates fault r).handle handle handle) ∧
      (Region.compact crates fault r).handle.coord = r.coord ∧
      (Region.compact crates fault r).handle.worldUuid = r.worldUuid := by
  have hcase := compact_case h.inv fault
  generalize Region.compact crates fault r = outcome at hcase
  cases hcase with
  | clean hd => exact ⟨.inl h, rfl, rfl⟩
  | kept e he => exact ⟨.inl h, rfl, rfl⟩
  | unsynced hr hf => exact ⟨.inr (Settled.views ⟨hr.inv, hr.quiet⟩), hr.coord, hr.worldUuid⟩
  | done hr hd => exact ⟨.inr (Settled.views ⟨hr.inv, hr.quiet⟩), hr.coord, hr.worldUuid⟩

section

variable {fault : SaveFault} {snapshots : List ChunkSnapshot} {policy : CompressionPolicy}
  {result : Except StorageError RegionSaveResult}

structure SaveViews (crates : Crates) (handle disk : SlotMap) (snapshots : List ChunkSnapshot)
    (result : Except StorageError RegionSaveResult) (r' : RegionFile) (handle' disk' : SlotMap) :
    Prop where
  views : Views crates r' handle' disk'
  indexed : handle' = handle ∨ handle' = putSnapshots handle snapshots
  visible : disk' = disk ∨ disk' = handle ∨ disk' = putSnapshots handle snapshots
  saved : ∀ value, result = .ok value → snapshots ≠ [] →
    handle' = putSnapshots handle snapshots ∧ disk' = putSnapshots handle snapshots

theorem Views.save (h : Views crates r handle disk)
    (hflags : ∀ s ∈ snapshots, s.lifecycleFlags &&& ~~~chunkLifecycleMask = 0)
    (hfit : ∀ s ∈ snapshots, ChestsFit s) (hd : TornDetected crates fault r snapshots policy)
    (ho : SaveOutcome crates fault r snapshots policy result r') :
    ∃ handle' disk', SaveViews crates handle disk snapshots result r' handle' disk' := by
  cases ho with
  | idle hs => exact ⟨handle, disk, h, .inl rfl, .inl rfl, fun _ _ hne => absurd hs hne⟩
  | refused e => exact ⟨handle, disk, h, .inl rfl, .inl rfl, fun _ hr => by cases hr⟩
  | appended hb ha e =>
    obtain ⟨tail, rfl, hl⟩ := appended_grows h.inv hflags hb ha
    exact ⟨handle, disk, h.grow hl, .inl rfl, .inl rfl, fun _ hr => by cases hr⟩
  | @torn file next k hp hf =>
    obtain ⟨hg, hi, hbehind, hspare, -, hnone⟩ := hp.grown h.inv hflags hfit
    have hgrow : Views crates (withFile r file) handle disk := by
      obtain ⟨encoded, hb, ha⟩ := hp.batch
      obtain ⟨tail, rfl, hl⟩ := appended_grows h.inv hflags hb ha
      exact h.grow hl
    rw [hspare]
    have hlen : (tornPageOf crates r next k).length = indexPageBytes :=
      length_tornPage (length_pageAt h.inv.long _) (length_encodeIndexPage crates next r.coord) k
    rcases hd k file next hf hnone with hd | hd | hd
    · obtain ⟨hinv, hq⟩ := hg.writeSpare_unreadable hlen hd
      exact ⟨handle, handle, ⟨hinv, .inl ⟨hq, rfl⟩⟩, .inl rfl, .inr (.inl rfl),
        fun _ hr => by cases hr⟩
    · refine ⟨handle, disk, ?_, .inl rfl, .inl rfl, fun _ hr => by cases hr⟩
      rw [← tornPageOf, hd, ← hspare, writeSpare_same hg]
      exact hgrow
    · refine ⟨handle, _, ?_, .inl rfl, .inr (.inr rfl), fun _ hr => by cases hr⟩
      rw [← tornPageOf, hd]
      have hlt := checkedSucc_lt hp.generation
      exact ⟨hg.writeSpare_index hi hlt hbehind, .inr ⟨next, .written hg hi hlt hbehind, hlt⟩⟩
  | @unsynced file next hp hf =>
    obtain ⟨hg, hi, hbehind, -, -, -⟩ := hp.grown h.inv hflags hfit
    have hlt := checkedSucc_lt hp.generation
    exact ⟨handle, _, ⟨hg.writeSpare_index hi hlt hbehind,
      .inr ⟨next, .written hg hi hlt hbehind, hlt⟩⟩, .inl rfl, .inr (.inr rfl),
      fun _ hr => by cases hr⟩
  | done hp hf =>
    obtain ⟨hg, hi, -, -, -, -⟩ := hp.grown h.inv hflags hfit
    obtain ⟨hinv, hq⟩ := hg.commit hp.generation hi
    exact ⟨_, _, ⟨hinv, .inl ⟨hq, rfl⟩⟩, .inr rfl, .inr (.inr rfl), fun _ _ _ => ⟨rfl, rfl⟩⟩

end

end Cobblestone.Region

namespace Cobblestone.Persistence

open Lib World Storage Region

structure SaveReceipt where
  position : ChunkCoord
  terrainRevision : UInt64
  lightRevision : UInt64
  lifecycleFlags : UInt8
deriving DecidableEq, Repr

inductive SaveCompletion where
  | saved (receipt : SaveReceipt)
  | failed (position : ChunkCoord)

inductive LoadCompletion where
  | loaded (chunk : StoredChunk)
  | missing (position : ChunkCoord)
  | failed (position : ChunkCoord)

-- What a region path holds: nothing, a file whose initialisation was cut short, or the file that
-- the save worker keeps open.
inductive RegionDisk where
  | absent
  | short (file : Bytes)
  | opened (r : RegionFile)

structure PersistentWorld where
  store : WorldStore
  saveInFlight : ChunkCoord → Bool
  saveQueue : List ChunkSnapshot
  saveCompletions : List SaveCompletion
  loadInFlight : ChunkCoord → Bool
  loadQueue : List ChunkCoord
  loadCompletions : List LoadCompletion
  loadMissing : ChunkCoord → Bool
  regions : RegionCoord → RegionDisk
  -- History: the state of the chunk after its creation or its last accepted patch.
  newest : ChunkCoord → Option ChunkSnapshot

def SaveCompletion.position : SaveCompletion → ChunkCoord
  | .saved receipt => receipt.position
  | .failed p => p

def LoadCompletion.position : LoadCompletion → ChunkCoord
  | .loaded chunk => chunk.position
  | .missing p => p
  | .failed p => p

def receiptOf (s : ChunkSnapshot) : SaveReceipt :=
  ⟨s.position, s.terrainRevision, s.lightRevision, s.lifecycleFlags⟩

def SaveCompletion.ofResult (s : ChunkSnapshot) :
    Except StorageError RegionSaveResult → SaveCompletion
  | .ok _ => .saved (receiptOf s)
  | .error _ => .failed s.position

section

variable (crates : Crates) (worldUuid : WorldUuid)

def RegionDisk.path : RegionDisk → Option Bytes
  | .absent => none
  | .short file => some file
  | .opened r => some r.file

def RegionDisk.openForSave (coord : RegionCoord) : RegionDisk → Except StorageError RegionFile
  | .absent => openOrCreate crates [] worldUuid coord
  | .short file => openOrCreate crates file worldUuid coord
  | .opened r => .ok r

def RegionDisk.load (p : ChunkCoord) (d : RegionDisk) : Except StorageError (Option StoredChunk) := do
  match ← openExisting crates d.path worldUuid (RegionCoord.forChunk p) with
  | none => pure none
  | some r => loadChunk crates r p

def LoadCompletion.ofResult (p : ChunkCoord) :
    Except StorageError (Option StoredChunk) → LoadCompletion
  | .ok (some chunk) => .loaded chunk
  | .ok none => .missing p
  | .error _ => .failed p

end

namespace PersistentWorld

def empty : PersistentWorld where
  store := WorldStore.new
  saveInFlight := fun _ => false
  saveQueue := []
  saveCompletions := []
  loadInFlight := fun _ => false
  loadQueue := []
  loadCompletions := []
  loadMissing := fun _ => false
  regions := fun _ => .absent
  newest := fun _ => none

def diskLoad (crates : Crates) (worldUuid : WorldUuid) (w : PersistentWorld) (p : ChunkCoord) :
    Except StorageError (Option StoredChunk) :=
  (w.regions (RegionCoord.forChunk p)).load crates worldUuid p

def createdRecord (flags : UInt8) (data : ChunkData) : ChunkRecord where
  terrainRevision := 0
  lightRevision := 0
  persistedTerrainRevision := none
  persistedLightRevision := none
  persistedLifecycleFlags := none
  pinCount := 0
  lifecycleFlags := flags
  data := data

def create (w : PersistentWorld) (p : ChunkCoord) (c : ChunkRecord) : PersistentWorld :=
  { w with
    store := w.store.setChunk p c
    loadMissing := Function.update w.loadMissing p false
    newest := Function.update w.newest p (some (c.snapshot p)) }

-- The committed state of a resident chunk is what the store holds for it.
def commit (w : PersistentWorld) (p : ChunkCoord) (store : WorldStore) : PersistentWorld :=
  { w with
    store := store
    newest := match store.chunks p with
      | some c => Function.update w.newest p (some (c.snapshot p))
      | none => w.newest }

def withStore (w : PersistentWorld) (store : WorldStore) : PersistentWorld :=
  { w with store := store }

def schedule (w : PersistentWorld) (s : ChunkSnapshot) : PersistentWorld :=
  { w with
    saveQueue := w.saveQueue ++ [s]
    saveInFlight := Function.update w.saveInFlight s.position true }

def finishSave (w : PersistentWorld) (queue : List ChunkSnapshot) (completion : SaveCompletion)
    (coord : RegionCoord) (d : RegionDisk) : PersistentWorld :=
  { w with
    saveQueue := queue
    saveCompletions := w.saveCompletions ++ [completion]
    regions := Function.update w.regions coord d }

def applySaveCompletion (w : PersistentWorld) (rest : List SaveCompletion) :
    SaveCompletion → PersistentWorld
  | .saved receipt =>
    { w with
      saveCompletions := rest
      saveInFlight := Function.update w.saveInFlight receipt.position false
      store := (w.store.markPersisted receipt.position receipt.terrainRevision
        receipt.lightRevision receipt.lifecycleFlags).2 }
  | .failed p =>
    { w with
      saveCompletions := rest
      saveInFlight := Function.update w.saveInFlight p false }

def requestLoad (w : PersistentWorld) (p : ChunkCoord) : PersistentWorld :=
  { w with
    loadQueue := w.loadQueue ++ [p]
    loadInFlight := Function.update w.loadInFlight p true }

def finishLoad (w : PersistentWorld) (queue : List ChunkCoord) (completion : LoadCompletion) :
    PersistentWorld :=
  { w with
    loadQueue := queue
    loadCompletions := w.loadCompletions ++ [completion] }

def applyLoadCompletion (w : PersistentWorld) (rest : List LoadCompletion) :
    LoadCompletion → PersistentWorld
  | .loaded chunk =>
    { w with
      loadCompletions := rest
      loadInFlight := Function.update w.loadInFlight chunk.position false
      loadMissing := Function.update w.loadMissing chunk.position false
      store := (w.store.importChunkIfAbsent chunk.position chunk.imported).2 }
  | .missing p =>
    { w with
      loadCompletions := rest
      loadInFlight := Function.update w.loadInFlight p false
      loadMissing := Function.update w.loadMissing p true }
  | .failed p =>
    { w with
      loadCompletions := rest
      loadInFlight := Function.update w.loadInFlight p false }

def compactRegion (crates : Crates) (w : PersistentWorld) (coord : RegionCoord) (r : RegionFile)
    (fault : Option CompactPoint) : PersistentWorld :=
  { w with
    regions := Function.update w.regions coord (.opened (compact crates fault r).handle) }

end PersistentWorld

open PersistentWorld

-- One step of the main thread, of a save worker or of a load worker. Workers take any queued
-- command and completions arrive in any order.
inductive PersistStep (crates : Crates) (worldUuid : WorldUuid) :
    PersistentWorld → PersistentWorld → Prop where
  | create {w : PersistentWorld} {p : ChunkCoord} (flags : UInt8) (data : ChunkData)
      (hr : w.store.chunks p = none) (hm : w.loadMissing p = true)
      (hflags : validateLifecycleFlags flags = .ok ())
      (hchests : data.chestBlockEntities.length ≤ chunkBlockCount) :
    PersistStep crates worldUuid w (w.create p (createdRecord flags data))
  | patch {w : PersistentWorld} (p : ChunkCoord) (patch : ChunkPatch) :
    PersistStep crates worldUuid w (w.commit p (w.store.applyPatch p patch).2)
  | pin {w : PersistentWorld} (p : ChunkCoord) :
    PersistStep crates worldUuid w (w.withStore (w.store.pinChunk p).2)
  | unpin {w : PersistentWorld} (p : ChunkCoord) :
    PersistStep crates worldUuid w (w.withStore (w.store.unpinChunk p).2)
  | evict {w : PersistentWorld} (p : ChunkCoord) :
    PersistStep crates worldUuid w (w.withStore (w.store.tryEvictChunk p).2)
  | schedule {w : PersistentWorld} {p : ChunkCoord} {c : ChunkRecord}
      (hc : w.store.chunks p = some c) (hd : c.isDirty = true) (hf : w.saveInFlight p = false) :
    PersistStep crates worldUuid w (w.schedule (c.snapshot p))
  | save {w : PersistentWorld} {before after : List ChunkSnapshot} {s : ChunkSnapshot}
      {r : RegionFile} {call : SaveCall} (hq : w.saveQueue = before ++ s :: after)
      (hr : (w.regions (RegionCoord.forChunk s.position)).openForSave crates worldUuid
        (RegionCoord.forChunk s.position) = .ok r)
      (hs : call.snapshots = [s])
      (ht : TornDetected crates call.fault r call.snapshots call.policy) :
    PersistStep crates worldUuid w (w.finishSave (before ++ after)
      (.ofResult s (call.result crates r)) (RegionCoord.forChunk s.position)
      (.opened (call.after crates r)))
  | saveUnopened {w : PersistentWorld} {before after : List ChunkSnapshot} {s : ChunkSnapshot}
      {d : RegionDisk} (hq : w.saveQueue = before ++ s :: after)
      (hd : d = w.regions (RegionCoord.forChunk s.position) ∨
        ((∀ r, w.regions (RegionCoord.forChunk s.position) ≠ .opened r) ∧
          ∃ file : Bytes, file.length < recordAreaOffset ∧ d = .short file)) :
    PersistStep crates worldUuid w (w.finishSave (before ++ after) (.failed s.position)
      (RegionCoord.forChunk s.position) d)
  | saveCompletion {w : PersistentWorld} {before after : List SaveCompletion}
      {completion : SaveCompletion} (hq : w.saveCompletions = before ++ completion :: after) :
    PersistStep crates worldUuid w (w.applySaveCompletion (before ++ after) completion)
  | requestLoad {w : PersistentWorld} {p : ChunkCoord} (hr : w.store.containsChunk p = false)
      (hm : w.loadMissing p = false) (hf : w.loadInFlight p = false) :
    PersistStep crates worldUuid w (w.requestLoad p)
  | load {w : PersistentWorld} {before after : List ChunkCoord} {p : ChunkCoord}
      (hq : w.loadQueue = before ++ p :: after) :
    PersistStep crates worldUuid w (w.finishLoad (before ++ after)
      (.ofResult p (w.diskLoad crates worldUuid p)))
  | loadUnread {w : PersistentWorld} {before after : List ChunkCoord} {p : ChunkCoord}
      (hq : w.loadQueue = before ++ p :: after) :
    PersistStep crates worldUuid w (w.finishLoad (before ++ after) (.failed p))
  | loadCompletion {w : PersistentWorld} {before after : List LoadCompletion}
      {completion : LoadCompletion} (hq : w.loadCompletions = before ++ completion :: after) :
    PersistStep crates worldUuid w (w.applyLoadCompletion (before ++ after) completion)
  | compact {w : PersistentWorld} {coord : RegionCoord} {r : RegionFile}
      (hr : w.regions coord = .opened r) (fault : Option CompactPoint) :
    PersistStep crates worldUuid w (w.compactRegion crates coord r fault)

def PersistReachable (crates : Crates) (worldUuid : WorldUuid) : PersistentWorld → Prop :=
  Relation.ReflTransGen (PersistStep crates worldUuid) PersistentWorld.empty

end Cobblestone.Persistence
