import Cobblestone.Bridge.State

namespace Cobblestone.Bridge

open Lib World Storage Region Async

-- The dirty chunks outside the excluded ones, in the order of the hash maps, cut at the limit.
structure DirtyBatch (s : WorldStore) (limit : Nat) (excluded : Finset ChunkCoord)
    (batch : List ChunkSnapshot) : Prop where
  taken : ∀ x ∈ batch, ∃ c, s.chunks x.position = some c ∧ c.isDirty = true ∧
    x = c.snapshot x.position ∧ x.position ∉ excluded
  nodup : (batch.map ChunkSnapshot.position).Nodup
  bounded : batch.length ≤ limit
  complete : batch.length < limit → ∀ p c, s.chunks p = some c → c.isDirty = true →
    p ∉ excluded → p ∈ batch.map ChunkSnapshot.position

-- The operations of the store that neither create, evict, pin nor mark a chunk.
def isEdit : StoreOp → Bool
  | .setLifecycleFlags .. | .commitTerrainRevision .. | .commitLightRevision ..
  | .setBlockState .. | .fillLayers .. | .setBiomeWord .. | .setBiome .. | .setBiomeColor ..
  | .fillBiome .. | .setSkyLight .. | .fillSkyLightFrom .. | .setBlockLight ..
  | .recalculateHeightMap .. | .setBlockExtraData .. | .applyPatch .. | .pruneChangesThrough .. =>
    true
  | _ => false

def neighborhood (center : ChunkCoord) : List ChunkCoord :=
  (List.finRange 9).map (neighborhoodPosition center)

def AfterPoll.call {γ : Type} : AfterPoll → Call γ
  | .prepareLoads positions => .preparing positions []
  | .tick budget => .compactions 0 budget
  | .generate seed target => .requiring (neighborhood target) true seed target

namespace WorldBridge

variable {γ : Type} (b : WorldBridge γ)

def attach (store : WorldStore) (durable : ChunkCoord → Option ChunkSnapshot)
    (generatorId : UInt32) (policy : Option NativeCompactionPolicy)
    (infinite : Option (NativeInfiniteGenerator γ)) (generatorState : Option γ) :
    WorldBridge γ where
  store := store
  persistence := .attach generatorId policy
  infinite := infinite
  durable := durable
  generatorState := generatorState
  call := .idle

def withCall (call : Call γ) : WorldBridge γ := { b with call := call }

def withStore (store : WorldStore) : WorldBridge γ := { b with store := store }

def withPersistence (n : NativeWorldPersistence) : WorldBridge γ := { b with persistence := n }

def withLoads (loads : LoadDesk) : WorldBridge γ :=
  b.withPersistence { b.persistence with loads := loads }

def withSaves (saves : SaveDesk) : WorldBridge γ :=
  b.withPersistence { b.persistence with saves := saves }

def isMissing (p : ChunkCoord) : Bool := decide (p ∈ b.persistence.loadMissing)

def ensureChunk (p : ChunkCoord) (biome : UInt8) : WorldBridge γ :=
  match b.store.ensureChunk p biome with
  | (.ok true, store) => (b.withStore store).withPersistence (b.persistence.clearMissing p)
  | (_, store) => b.withStore store

-- What `poll_load_completions` does with one completion it has received.
def applyLoadCompletion : LoadCompletion → Except BridgeError Unit × WorldBridge γ
  | .loaded chunk =>
    let b := b.withPersistence (b.persistence.clearMissing chunk.position)
    match b.store.importChunkIfAbsent chunk.position chunk.imported with
    | (.error e, store) => (.error (.world e), b.withStore store)
    | (.ok _, store) => (.ok (), b.withStore store)
  | .missing p =>
    (.ok (), b.withPersistence
      { b.persistence with loadMissing := insert p b.persistence.loadMissing })
  | .failed failure => (.error (.loadFailed failure), b)

def receiveLoad (c : LoadCompletion) (rest : Multiset LoadCompletion) : WorldBridge γ :=
  b.withLoads (b.persistence.loads.receive c.position rest)

def completionPosition : SaveCompletion → ChunkCoord
  | .saved receipt => receipt.position
  | .failed failure => failure.position

def receiveSave (c : SaveCompletion) (rest : Multiset SaveCompletion) : WorldBridge γ :=
  b.withPersistence { b.persistence with
    saves := { b.persistence.saves with completions := rest }
    saveInFlight := b.persistence.saveInFlight.erase (completionPosition c) }

-- What `apply_save_completion` does once the position has left the in-flight set.
def applySaveCompletion : SaveCompletion → Except BridgeError Unit × WorldBridge γ
  | .saved receipt =>
    match b.store.markPersisted receipt.position receipt.terrainRevision receipt.lightRevision
        receipt.lifecycleFlags with
    | (.error e, store) => (.error (.world e), b.withStore store)
    | (.ok (), store) =>
      let (result, n) := b.persistence.recordReceipt receipt
      (result, (b.withStore store).withPersistence n)
  | .failed failure => (.error (.saveFailed failure), b)

def receiveCompaction (rest : Multiset CompactionCompletion) : WorldBridge γ :=
  b.withSaves { b.persistence.saves with compactions := rest }

def applyCompactionCompletion (c : CompactionCompletion) :
    Except BridgeError Bool × WorldBridge γ :=
  let (result, n) := b.persistence.applyCompactionCompletion c
  (result, b.withPersistence n)

def requestLoad (p : ChunkCoord) : WorldBridge γ :=
  b.withLoads (b.persistence.loads.request p)

def scheduleSave (s : ChunkSnapshot) : WorldBridge γ :=
  b.withPersistence (b.persistence.scheduleSave s)

def ensureRuntime (initial : γ) (seed : Int32) : Option (NativeInfiniteGenerator γ) :=
  match b.infinite with
  | some runtime => if runtime.seed = seed then some runtime else none
  | none => some ⟨seed, initial, false⟩

def clearMissingAfterGeneration (positions : List ChunkCoord) : WorldBridge γ :=
  b.withPersistence (positions.foldl NativeWorldPersistence.clearMissing b.persistence)

def runGenerator (terrain : Int32 → Terrain γ) (runtime : NativeInfiniteGenerator γ)
    (target : ChunkCoord) :
    Except WorldStoreError InfiniteGenerationResult × OverworldInfinite γ :=
  (generateIntoStore (terrain runtime.seed) target).exec ⟨runtime.state, b.store⟩

def generate (terrain : Int32 → Terrain γ) (runtime : NativeInfiniteGenerator γ)
    (target : ChunkCoord) : WorldBridge γ :=
  match b.runGenerator terrain runtime target with
  | (.error _, g) =>
    { b with store := g.store, infinite := some { runtime with state := g.state } }
  | (.ok result, g) =>
    let b := { b with
      store := g.store
      infinite := some { runtime with
        state := g.state
        dirty := result.generatedCenter || runtime.dirty } }
    if result.generatedCenter then b.clearMissingAfterGeneration (neighborhood target) else b

def written (state : γ) : WorldBridge γ :=
  { b with
    generatorState := some state
    infinite := b.infinite.map fun runtime => { runtime with dirty := false } }

end WorldBridge

open WorldBridge

-- The workers: what they read from and commit to the region files.
inductive DiskStep {γ : Type} : WorldBridge γ → WorldBridge γ → Prop where
  | saved {b : WorldBridge γ} {s : ChunkSnapshot} {rest : Multiset SaveCommand}
      {result : RegionSaveResult} (hc : b.persistence.saves.commands = .save s ::ₘ rest) :
      DiskStep b { b.withSaves (b.persistence.saves.answer rest
          (.completion (saveCompletion s (.finished (.ok result))))) with
        durable := Function.update b.durable s.position (some s) }
  -- A save that fails may have committed before it did.
  | saveFailed {b : WorldBridge γ} {s : ChunkSnapshot} {rest : Multiset SaveCommand}
      {error : SaveWorkerError} {durable : ChunkCoord → Option ChunkSnapshot}
      (hc : b.persistence.saves.commands = .save s ::ₘ rest)
      (hd : durable = b.durable ∨ durable = Function.update b.durable s.position (some s)) :
      DiskStep b { b.withSaves (b.persistence.saves.answer rest
          (.completion (.failed (saveFailure s error)))) with
        durable := durable }
  | compacted {b : WorldBridge γ} {region : RegionCoord} {rest : Multiset SaveCommand}
      {outcome : Outcome RegionCompactionResult}
      (hc : b.persistence.saves.commands = .compact region ::ₘ rest) :
      DiskStep b (b.withSaves (b.persistence.saves.answer rest
        (.compaction (compactionCompletion region outcome))))
  | loaded {b : WorldBridge γ} {p : ChunkCoord} {rest : Multiset ChunkCoord} {s : ChunkSnapshot}
      {chunk : StoredChunk} (hc : b.persistence.loads.requests = p ::ₘ rest)
      (hd : b.durable p = some s) (hp : chunk.position = p) (hi : chunk.imported = s.toImport) :
      DiskStep b (b.withLoads (b.persistence.loads.answer rest (.loaded chunk)))
  | missing {b : WorldBridge γ} {p : ChunkCoord} {rest : Multiset ChunkCoord}
      (hc : b.persistence.loads.requests = p ::ₘ rest) (hd : b.durable p = none) :
      DiskStep b (b.withLoads (b.persistence.loads.answer rest (.missing p)))
  | loadFailed {b : WorldBridge γ} {p : ChunkCoord} {rest : Multiset ChunkCoord}
      {error : LoadWorkerError} (hc : b.persistence.loads.requests = p ::ₘ rest) :
      DiskStep b (b.withLoads (b.persistence.loads.answer rest (.failed ⟨p, error⟩)))

-- The owner runtime moves on without touching the store, the bookkeeping or the disk. A service
-- that has an answer under way may still report that it has none.
inductive ControlStep {γ : Type} (b : WorldBridge γ) : Call γ → Call γ → Prop where
  | prepareLoads (positions : List ChunkCoord) :
      ControlStep b .idle (.polling 0 (max positions.length 1) (.prepareLoads positions))
  | tick {budget : Nat} (hpos : 0 < budget) (hmax : budget ≤ 4096) :
      ControlStep b .idle (.polling 0 budget (.tick budget))
  | generate (seed : Int32) (target : ChunkCoord) :
      ControlStep b .idle (.polling 0 9 (.generate seed target))
  | flush : ControlStep b .idle .draining
  | polled {completed budget : Nat} {next : AfterPoll} :
      ControlStep b (.polling completed budget next) next.call
  | resident {p : ChunkCoord} {rest : List ChunkCoord} {statuses : List UInt8}
      (hr : b.store.containsChunk p = true) :
      ControlStep b (.preparing (p :: rest) statuses) (.preparing rest (statuses ++ [0]))
  | knownMissing {p : ChunkCoord} {rest : List ChunkCoord} {statuses : List UInt8}
      (hr : b.store.containsChunk p = false) (hm : b.isMissing p = true) :
      ControlStep b (.preparing (p :: rest) statuses) (.preparing rest (statuses ++ [3]))
  | joined {p : ChunkCoord} {rest : List ChunkCoord} {statuses : List UInt8}
      (hr : b.store.containsChunk p = false) (hm : b.isMissing p = false)
      (hf : p ∈ b.persistence.loads.inFlight) :
      ControlStep b (.preparing (p :: rest) statuses) (.preparing rest (statuses ++ [2]))
  | refused {p : ChunkCoord} {rest : List ChunkCoord} {statuses : List UInt8}
      (hr : b.store.containsChunk p = false) (hm : b.isMissing p = false)
      (hf : p ∉ b.persistence.loads.inFlight) :
      ControlStep b (.preparing (p :: rest) statuses) .idle
  | prepared {statuses : List UInt8} : ControlStep b (.preparing [] statuses) .idle
  | satisfied {p : ChunkCoord} {rest : List ChunkCoord} {ready : Bool} {seed : Int32}
      {target : ChunkCoord} (hr : b.store.containsChunk p = true ∨ b.isMissing p = true) :
      ControlStep b (.requiring (p :: rest) ready seed target) (.requiring rest ready seed target)
  | joinedRequired {p : ChunkCoord} {rest : List ChunkCoord} {ready : Bool} {seed : Int32}
      {target : ChunkCoord} (hr : b.store.containsChunk p = false) (hm : b.isMissing p = false)
      (hf : p ∈ b.persistence.loads.inFlight) :
      ControlStep b (.requiring (p :: rest) ready seed target) (.requiring rest false seed target)
  | refusedRequired {p : ChunkCoord} {rest : List ChunkCoord} {ready : Bool} {seed : Int32}
      {target : ChunkCoord} (hr : b.store.containsChunk p = false) (hm : b.isMissing p = false)
      (hf : p ∉ b.persistence.loads.inFlight) :
      ControlStep b (.requiring (p :: rest) ready seed target) .idle
  | unready {seed : Int32} {target : ChunkCoord} :
      ControlStep b (.requiring [] false seed target) .idle
  | ready {seed : Int32} {target : ChunkCoord} :
      ControlStep b (.requiring [] true seed target) (.generating seed target)
  | otherSeed {initial : γ} {seed : Int32} {target : ChunkCoord}
      (hs : b.ensureRuntime initial seed = none) :
      ControlStep b (.generating seed target) .idle
  | compactionsTaken {taken budget : Nat} :
      ControlStep b (.compactions taken budget) (.collecting 0 budget)
  | collected {completed budget : Nat} {batch : List ChunkSnapshot}
      (hb : DirtyBatch b.store budget b.persistence.saveInFlight batch) :
      ControlStep b (.collecting completed budget) (.scheduling batch budget)
  | backpressure {s : ChunkSnapshot} {rest : List ChunkSnapshot} {budget : Nat} :
      ControlStep b (.scheduling (s :: rest) budget) (.sweeping 0 budget)
  | saveClosed {s : ChunkSnapshot} {rest : List ChunkSnapshot} {budget : Nat} :
      ControlStep b (.scheduling (s :: rest) budget) .idle
  | scheduled {budget : Nat} : ControlStep b (.scheduling [] budget) (.sweeping 0 budget)
  | swept {scheduled budget : Nat}
      (hd : scheduled = budget ∨ b.persistence.compactionQueue = []) :
      ControlStep b (.sweeping scheduled budget) .guarding
  | postponed {batch : List ChunkSnapshot}
      (hb : DirtyBatch b.store 1 b.persistence.saveInFlight batch)
      (hu : b.persistence.saveInFlight ≠ ∅ ∨ batch ≠ []) : ControlStep b .guarding .idle
  | permitted (hb : DirtyBatch b.store 1 b.persistence.saveInFlight [])
      (hs : b.persistence.saveInFlight = ∅) : ControlStep b .guarding .persisting
  | drained : ControlStep b .draining .settling
  | settled {batch : List ChunkSnapshot}
      (hb : DirtyBatch b.store flushBatch b.persistence.saveInFlight batch) :
      ControlStep b .settling (.flushing batch)
  | flushBackpressure {s : ChunkSnapshot} {rest : List ChunkSnapshot} :
      ControlStep b (.flushing (s :: rest)) (.checking true)
  | flushClosed {s : ChunkSnapshot} {rest : List ChunkSnapshot} :
      ControlStep b (.flushing (s :: rest)) .idle
  | flushScheduled : ControlStep b (.flushing []) (.checking false)
  | flushed {backpressured : Bool} (hb : DirtyBatch b.store 1 b.persistence.saveInFlight [])
      (hs : b.persistence.saveInFlight = ∅) : ControlStep b (.checking backpressured) .flushed
  | wait {backpressured : Bool} {batch : List ChunkSnapshot}
      (hb : DirtyBatch b.store 1 b.persistence.saveInFlight batch)
      (hu : b.persistence.saveInFlight ≠ ∅ ∨ batch ≠ [])
      (hw : backpressured = true ∨ b.persistence.saveInFlight ≠ ∅) :
      ControlStep b (.checking backpressured) .waiting
  | again {backpressured : Bool} {batch : List ChunkSnapshot}
      (hb : DirtyBatch b.store 1 b.persistence.saveInFlight batch)
      (hu : b.persistence.saveInFlight ≠ ∅ ∨ batch ≠ [])
      (hw : ¬ (backpressured = true ∨ b.persistence.saveInFlight ≠ ∅)) :
      ControlStep b (.checking backpressured) .draining
  | timedOut : ControlStep b .waiting .idle
  | persistAfterFlush : ControlStep b .flushed .persisting
  | nothingToPersist (hn : b.persistence.generatorId ≠ infiniteGeneratorId ∨
      ∀ runtime, b.infinite = some runtime → runtime.dirty = false) :
      ControlStep b .persisting .idle
  | write {runtime : NativeInfiniteGenerator γ}
      (hg : b.persistence.generatorId = infiniteGeneratorId) (hr : b.infinite = some runtime)
      (hd : runtime.dirty = true) : ControlStep b .persisting (.writing runtime.state)

inductive Action where
  | ensureChunk (p : ChunkCoord)
  | generate (seed : Int32) (target : ChunkCoord)

section

variable {γ : Type} (terrain : Int32 → Terrain γ) (initial : γ)
  (allowed : WorldBridge γ → Action → Prop)

inductive BridgeStep : WorldBridge γ → WorldBridge γ → Prop where
  | disk {b b' : WorldBridge γ} (h : DiskStep b b') : BridgeStep b b'
  | control {b : WorldBridge γ} {call : Call γ} (h : ControlStep b b.call call) :
      BridgeStep b (b.withCall call)
  -- The sessions pin and unpin from their own thread.
  | pin {b : WorldBridge γ} (p : ChunkCoord) :
      BridgeStep b (b.withStore (b.store.pinChunk p).2)
  | unpin {b : WorldBridge γ} (p : ChunkCoord) :
      BridgeStep b (b.withStore (b.store.unpinChunk p).2)
  | edit {b : WorldBridge γ} {op : StoreOp} (hcall : b.call = .idle) (he : isEdit op = true) :
      BridgeStep b (b.withStore (op.apply b.store))
  | evict {b : WorldBridge γ} (hcall : b.call = .idle) (p : ChunkCoord) :
      BridgeStep b (b.withStore (b.store.tryEvictChunk p).2)
  | ensureChunk {b : WorldBridge γ} (hcall : b.call = .idle) (p : ChunkCoord) (biome : UInt8)
      (ha : allowed b (.ensureChunk p)) : BridgeStep b (b.ensureChunk p biome)
  | requestLoad {b : WorldBridge γ} {p : ChunkCoord} (hcall : b.call = .idle)
      (hr : b.store.containsChunk p = false) (hm : b.isMissing p = false)
      (hf : p ∉ b.persistence.loads.inFlight) : BridgeStep b (b.requestLoad p)
  | pollOne {b b' : WorldBridge γ} {completed budget : Nat} {next : AfterPoll} {c : LoadCompletion}
      {rest : Multiset LoadCompletion} (hcall : b.call = .polling completed budget next)
      (hb : completed < budget) (hc : b.persistence.loads.completions = c ::ₘ rest)
      (hr : (b.receiveLoad c rest).applyLoadCompletion c = (.ok (), b')) :
      BridgeStep b (b'.withCall (.polling (completed + 1) budget next))
  | pollFailed {b b' : WorldBridge γ} {completed budget : Nat} {next : AfterPoll}
      {c : LoadCompletion} {rest : Multiset LoadCompletion} {error : BridgeError}
      (hcall : b.call = .polling completed budget next) (hb : completed < budget)
      (hc : b.persistence.loads.completions = c ::ₘ rest)
      (hr : (b.receiveLoad c rest).applyLoadCompletion c = (.error error, b')) :
      BridgeStep b (b'.withCall .idle)
  | queued {b : WorldBridge γ} {p : ChunkCoord} {rest : List ChunkCoord} {statuses : List UInt8}
      (hcall : b.call = .preparing (p :: rest) statuses) (hr : b.store.containsChunk p = false)
      (hm : b.isMissing p = false) (hf : p ∉ b.persistence.loads.inFlight) :
      BridgeStep b ((b.requestLoad p).withCall (.preparing rest (statuses ++ [1])))
  | queuedRequired {b : WorldBridge γ} {p : ChunkCoord} {rest : List ChunkCoord} {ready : Bool}
      {seed : Int32} {target : ChunkCoord}
      (hcall : b.call = .requiring (p :: rest) ready seed target)
      (hr : b.store.containsChunk p = false) (hm : b.isMissing p = false)
      (hf : p ∉ b.persistence.loads.inFlight) :
      BridgeStep b ((b.requestLoad p).withCall (.requiring rest false seed target))
  | generate {b : WorldBridge γ} {seed : Int32} {target : ChunkCoord}
      {runtime : NativeInfiniteGenerator γ} (hcall : b.call = .generating seed target)
      (hr : b.ensureRuntime initial seed = some runtime)
      (ha : allowed b (.generate seed target)) :
      BridgeStep b ((b.generate terrain runtime target).withCall .idle)
  | takeCompaction {b b' : WorldBridge γ} {taken budget : Nat} {c : CompactionCompletion}
      {rest : Multiset CompactionCompletion} {failed : Bool}
      (hcall : b.call = .compactions taken budget) (hb : taken < budget)
      (hc : b.persistence.saves.compactions = c ::ₘ rest)
      (hr : (b.receiveCompaction rest).applyCompactionCompletion c = (.ok failed, b')) :
      BridgeStep b (b'.withCall (.compactions (taken + 1) budget))
  | drainCompaction {b b' : WorldBridge γ} {c : CompactionCompletion}
      {rest : Multiset CompactionCompletion} {failed : Bool} (hcall : b.call = .draining)
      (hc : b.persistence.saves.compactions = c ::ₘ rest)
      (hr : (b.receiveCompaction rest).applyCompactionCompletion c = (.ok failed, b')) :
      BridgeStep b b'
  | compactionFailed {b b' : WorldBridge γ} {c : CompactionCompletion}
      {rest : Multiset CompactionCompletion} {error : BridgeError}
      (hcall : b.call = .draining ∨ ∃ taken budget, b.call = .compactions taken budget)
      (hc : b.persistence.saves.compactions = c ::ₘ rest)
      (hr : (b.receiveCompaction rest).applyCompactionCompletion c = (.error error, b')) :
      BridgeStep b (b'.withCall .idle)
  | collectOne {b b' : WorldBridge γ} {completed budget : Nat} {c : SaveCompletion}
      {rest : Multiset SaveCompletion} (hcall : b.call = .collecting completed budget)
      (hb : completed < budget) (hc : b.persistence.saves.completions = c ::ₘ rest)
      (hr : (b.receiveSave c rest).applySaveCompletion c = (.ok (), b')) :
      BridgeStep b (b'.withCall (.collecting (completed + 1) budget))
  | settleOne {b b' : WorldBridge γ} {c : SaveCompletion} {rest : Multiset SaveCompletion}
      (hcall : b.call = .settling) (hc : b.persistence.saves.completions = c ::ₘ rest)
      (hr : (b.receiveSave c rest).applySaveCompletion c = (.ok (), b')) : BridgeStep b b'
  | waitOne {b b' : WorldBridge γ} {c : SaveCompletion} {rest : Multiset SaveCompletion}
      (hcall : b.call = .waiting) (hc : b.persistence.saves.completions = c ::ₘ rest)
      (hr : (b.receiveSave c rest).applySaveCompletion c = (.ok (), b')) :
      BridgeStep b (b'.withCall .draining)
  | saveFailed {b b' : WorldBridge γ} {c : SaveCompletion} {rest : Multiset SaveCompletion}
      {error : BridgeError}
      (hcall : b.call = .settling ∨ b.call = .waiting ∨
        ∃ completed budget, b.call = .collecting completed budget)
      (hc : b.persistence.saves.completions = c ::ₘ rest)
      (hr : (b.receiveSave c rest).applySaveCompletion c = (.error error, b')) :
      BridgeStep b (b'.withCall .idle)
  | schedule {b : WorldBridge γ} {s : ChunkSnapshot} {rest : List ChunkSnapshot} {budget : Nat}
      (hcall : b.call = .scheduling (s :: rest) budget) :
      BridgeStep b ((b.scheduleSave s).withCall (.scheduling rest budget))
  | flushOne {b : WorldBridge γ} {s : ChunkSnapshot} {rest : List ChunkSnapshot}
      (hcall : b.call = .flushing (s :: rest)) :
      BridgeStep b ((b.scheduleSave s).withCall (.flushing rest))
  | skipCompaction {b : WorldBridge γ} {scheduled budget : Nat} {region : RegionCoord}
      {rest : List RegionCoord} (hcall : b.call = .sweeping scheduled budget)
      (hb : scheduled < budget) (hq : b.persistence.compactionQueue = region :: rest)
      (hw : (b.persistence.popCompaction region rest).wantsCompaction region = false) :
      BridgeStep b (b.withPersistence (b.persistence.popCompaction region rest))
  | startCompaction {b : WorldBridge γ} {scheduled budget : Nat} {region : RegionCoord}
      {rest : List RegionCoord} (hcall : b.call = .sweeping scheduled budget)
      (hb : scheduled < budget) (hq : b.persistence.compactionQueue = region :: rest)
      (hw : (b.persistence.popCompaction region rest).wantsCompaction region = true) :
      BridgeStep b ((b.withPersistence
        ((b.persistence.popCompaction region rest).startCompaction region)).withCall
          (.sweeping (scheduled + 1) budget))
  | compactionBackpressure {b : WorldBridge γ} {scheduled budget : Nat} {region : RegionCoord}
      {rest : List RegionCoord} (hcall : b.call = .sweeping scheduled budget)
      (hb : scheduled < budget) (hq : b.persistence.compactionQueue = region :: rest)
      (hw : (b.persistence.popCompaction region rest).wantsCompaction region = true) :
      BridgeStep b ((b.withPersistence
        ((b.persistence.popCompaction region rest).requeueCompaction region)).withCall .guarding)
  | compactionClosed {b : WorldBridge γ} {scheduled budget : Nat} {region : RegionCoord}
      {rest : List RegionCoord} (hcall : b.call = .sweeping scheduled budget)
      (hb : scheduled < budget) (hq : b.persistence.compactionQueue = region :: rest)
      (hw : (b.persistence.popCompaction region rest).wantsCompaction region = true) :
      BridgeStep b ((b.withPersistence (b.persistence.popCompaction region rest)).withCall .idle)
  | written {b : WorldBridge γ} {state : γ} (hcall : b.call = .writing state) :
      BridgeStep b ((b.written state).withCall .idle)
  -- The rename may have happened before the error.
  | writeFailed {b : WorldBridge γ} {state : γ} {file : Option γ} (hcall : b.call = .writing state)
      (hf : file = b.generatorState ∨ file = some state) :
      BridgeStep b ({ b with generatorState := file }.withCall .idle)

-- The bridge right after storage was attached, over whatever region files there are. No chunk that
-- was created before has been marked as saved.
structure Attached (b : WorldBridge γ) : Prop where
  attached : ∃ store durable generatorId policy infinite generatorState,
    b = .attach store durable generatorId policy infinite generatorState
  unsaved : ∀ p c, b.store.chunks p = some c → c.persistedTerrainRevision = none
  restored : b.persistence.generatorId = infiniteGeneratorId →
    ∃ runtime, b.infinite = some runtime ∧ runtime.dirty = false

def BridgeReachable (b : WorldBridge γ) : Prop :=
  ∃ start, Attached start ∧ Relation.ReflTransGen (BridgeStep terrain initial allowed) start b

end

end Cobblestone.Bridge
