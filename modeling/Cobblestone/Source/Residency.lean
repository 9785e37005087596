import Cobblestone.Bridge.Step
import Cobblestone.Source.MainChunkSource

namespace Cobblestone.Source

open Lib World Async Bridge

inductive ResidencyError where
  | pending (p : ChunkCoord) (status : LoadStatus)
  | submit (error : LoadSubmitError)
  | loadFailed (failure : LoadFailure)
  | world (error : WorldStoreError)
  | alreadyLoading (p : ChunkCoord)
  | wrongPosition
  | cellMissing
  | tickBudget
  | evictionBudget
deriving DecidableEq, Repr

abbrev fail {σ α : Type} (error : ResidencyError) : Effect ResidencyError σ α :=
  .ofOp fun s => (.error error, s)

abbrev state {σ : Type} : Effect ResidencyError σ σ := .ofOp fun s => (.ok s, s)

abbrev update {σ : Type} (f : σ → σ) : Effect ResidencyError σ Unit := .ofOp fun s => (.ok (), f s)

-- The native side of an infinite world: the store, the state of the generator, and the loads of
-- the attached storage.
structure InfiniteWorld (γ : Type) where
  store : WorldStore
  generator : γ
  config : ServiceConfig
  loadMissing : Finset ChunkCoord
  inFlight : Finset ChunkCoord
  commands : List ChunkCoord
  reading : List ChunkCoord
  completions : List LoadCompletion

abbrev WorldCall (γ α : Type) := Effect ResidencyError (InfiniteWorld γ) α

namespace InfiniteWorld

variable {γ : Type}

def withStore (store : WorldStore) (w : InfiniteWorld γ) : InfiniteWorld γ :=
  { w with store := store }

def clearMissing (p : ChunkCoord) (w : InfiniteWorld γ) : InfiniteWorld γ :=
  { w with loadMissing := w.loadMissing.erase p }

def onStore {α : Type} (op : WorldStore → Except WorldStoreError α × WorldStore) : WorldCall γ α :=
  .ofOp fun w => ((op w.store).1.mapError .world, w.withStore (op w.store).2)

def workerFull (w : InfiniteWorld γ) (p : ChunkCoord) : Bool :=
  let worker := routeChunkWorker p w.config.workers
  w.config.queueCapacity ≤
    w.commands.countP fun q => routeChunkWorker q w.config.workers = worker

def submit (p : ChunkCoord) (w : InfiniteWorld γ) : InfiniteWorld γ :=
  { w with
    commands := w.commands ++ [p]
    inFlight := insert p w.inFlight }

def request (p : ChunkCoord) : WorldCall γ LoadRequestState := do
  let w ← state
  if p ∈ w.inFlight then pure .joined
  else if w.workerFull p then fail (.submit (.backpressure p))
  else
    update (submit p)
    pure .queued

def applyLoadCompletion : LoadCompletion → WorldCall γ Unit
  | .loaded chunk => do
    update (clearMissing chunk.position)
    let _ ← onStore fun s => s.importChunkIfAbsent chunk.position chunk.imported
    pure ()
  | .missing p => update fun w => { w with loadMissing := insert p w.loadMissing }
  | .failed failure => fail (.loadFailed failure)

def receive (c : LoadCompletion) (rest : List LoadCompletion) (w : InfiniteWorld γ) :
    InfiniteWorld γ :=
  { w with
    completions := rest
    inFlight := w.inFlight.erase c.position }

def pollLoadCompletions : Nat → WorldCall γ Nat
  | 0 => pure 0
  | budget + 1 => do
    let w ← state
    match w.completions with
    | [] => pure 0
    | c :: rest =>
      update (receive c rest)
      applyLoadCompletion c
      let completed ← pollLoadCompletions budget
      pure (completed + 1)

def requestStorageLoad (p : ChunkCoord) : WorldCall γ LoadStatus := do
  let w ← state
  if w.store.containsChunk p then pure .resident
  else if p ∈ w.loadMissing then pure .missing
  else
    match ← request p with
    | .queued => pure .queued
    | .joined => pure .joined

def requestStorageLoads : List ChunkCoord → WorldCall γ (List LoadStatus)
  | [] => pure []
  | p :: rest => do
    let status ← requestStorageLoad p
    let statuses ← requestStorageLoads rest
    pure (status :: statuses)

def prepareStorageLoadBatch (positions : List ChunkCoord) : WorldCall γ (List LoadStatus) := do
  let _ ← pollLoadCompletions (max positions.length 1)
  requestStorageLoads positions

def requireLoads : List ChunkCoord → WorldCall γ Bool
  | [] => pure true
  | p :: rest => do
    let status ← requestStorageLoad p
    let ready ← requireLoads rest
    pure (decide (status = .resident ∨ status = .missing) && ready)

def prepareGenerationNeighborhood (positions : List ChunkCoord) : WorldCall γ Bool := do
  let _ ← pollLoadCompletions (max positions.length 1)
  requireLoads positions

def runGenerator (terrain : Terrain γ) (p : ChunkCoord) (w : InfiniteWorld γ) :
    Except WorldStoreError InfiniteGenerationResult × OverworldInfinite γ :=
  (generateIntoStore terrain p).exec ⟨w.generator, w.store⟩

def generateChunk (terrain : Terrain γ) (p : ChunkCoord) :
    WorldCall γ InfiniteGenerationResult :=
  .ofOp fun w =>
    let (result, g) := w.runGenerator terrain p
    (result.mapError .world, { w with store := g.store, generator := g.state })

def generateInfinite (terrain : Terrain γ) (p : ChunkCoord) : WorldCall γ Bool := do
  let ready ← prepareGenerationNeighborhood (neighborhood p)
  if ready then
    let result ← generateChunk terrain p
    if result.generatedCenter then
      update fun w => (neighborhood p).foldl (fun w q => w.clearMissing q) w
    pure true
  else pure false

-- The receipts of the saves that complete in this tick mark the chunks they are about.
def markPersisted (receipts : List SaveReceipt) : WorldCall γ Unit :=
  receipts.forM fun r => onStore fun s =>
    s.markPersisted r.position r.terrainRevision r.lightRevision r.lifecycleFlags

def storageTick (budget : Int) (receipts : List SaveReceipt) : WorldCall γ Nat := do
  if 0 < budget ∧ budget ≤ 4096 then
    let completed ← pollLoadCompletions budget.toNat
    markPersisted receipts
    pure completed
  else fail .tickBudget

def lifecycleFlags (p : ChunkCoord) : WorldCall γ UInt8 :=
  onStore fun s => (s.withChunk p fun c => .ok c.lifecycleFlags, s)

def mark (p : ChunkCoord) (flag : UInt8) : WorldCall γ Unit := do
  let flags ← lifecycleFlags p
  onStore fun s => s.setLifecycleFlags p (flags ||| flag)

end InfiniteWorld

inductive ChunkUnloadStatus where
  | missing
  | pinned
  | dirty
  | unloaded
deriving DecidableEq, Repr

structure InfiniteChunkSource (γ : Type) where
  native : InfiniteWorld γ
  chunks : Finset ChunkCoord
  cells : Finset ChunkCoord
  loading : Finset ChunkCoord
  evictionQueued : Finset ChunkCoord
  evictionQueue : List ChunkCoord

abbrev SourceCall (γ α : Type) := Effect ResidencyError (InfiniteChunkSource γ) α

namespace InfiniteChunkSource

variable {γ : Type}

def onNative {α : Type} (m : WorldCall γ α) : SourceCall γ α :=
  .ofOp fun s => ((m.exec s.native).1, { s with native := (m.exec s.native).2 })

def enqueue (p : ChunkCoord) (s : InfiniteChunkSource γ) : InfiniteChunkSource γ :=
  { s with
    evictionQueued := insert p s.evictionQueued
    evictionQueue := s.evictionQueue ++ [p] }

def put (p : ChunkCoord) (s : InfiniteChunkSource γ) : InfiniteChunkSource γ :=
  let held := { s with chunks := insert p s.chunks, cells := insert p s.cells }
  if p ∉ s.chunks ∧ p ∉ s.evictionQueued then held.enqueue p else held

def adoptNativeResident (p : ChunkCoord) (s : InfiniteChunkSource γ) : InfiniteChunkSource γ :=
  if p ∈ s.chunks then s else s.put p

variable (terrain : Terrain γ)

-- `InfiniteGenerator::generate`.
def runGenerate (p : ChunkCoord) : SourceCall γ ChunkCoord := do
  let generated ← onNative (InfiniteWorld.generateInfinite terrain p)
  if generated then pure p else fail (.pending p .queued)

def completeInfiniteChunk (p : ChunkCoord) : SourceCall γ ChunkCoord := do
  let flags ← onNative (InfiniteWorld.lifecycleFlags p)
  if MainChunkSource.completed flags then pure p
  else
    let _ ← runGenerate terrain p
    pure p

def generateBody (p : ChunkCoord) : SourceCall γ ChunkCoord := do
  let generated ← runGenerate terrain p
  if generated ≠ p then fail .wrongPosition
  else
    onNative (InfiniteWorld.mark p chunkLifecycleGenerated)
    onNative (InfiniteWorld.mark p chunkLifecyclePopulated)
    update (put p)
    pure p

def enter (p : ChunkCoord) (s : InfiniteChunkSource γ) : InfiniteChunkSource γ :=
  { s with loading := insert p s.loading }

def leave (p : ChunkCoord) (s : InfiniteChunkSource γ) : InfiniteChunkSource γ :=
  { s with loading := s.loading.erase p }

-- The `finally` clears the loading mark however the body ends.
def generate (p : ChunkCoord) : SourceCall γ ChunkCoord := do
  let s ← state
  if p ∈ s.loading then fail (.alreadyLoading p)
  else .ofOp fun s =>
    let (result, s) := (generateBody terrain p).exec (s.enter p)
    (result, s.leave p)

def getOrGenerate (p : ChunkCoord) : SourceCall γ ChunkCoord := do
  let s ← state
  if p ∈ s.chunks then completeInfiniteChunk terrain p
  else
    let status ← onNative (InfiniteWorld.requestStorageLoad p)
    if status = .resident then
      update (adoptNativeResident p)
      completeInfiniteChunk terrain p
    else if status = .missing then generate terrain p
    else fail (.pending p status)

-- The coordinator catches `ChunkLoadPending` and nothing else.
def prepareChunk (p : ChunkCoord) : SourceCall γ Bool :=
  .ofOp fun s =>
    match (getOrGenerate terrain p).exec s with
    | (.ok _, s) => (.ok true, s)
    | (.error (.pending _ _), s) => (.ok false, s)
    | (.error e, s) => (.error e, s)

def prepareEntry (p : ChunkCoord) (status : LoadStatus) : SourceCall γ Bool :=
  if status = .resident ∨ status = .missing then prepareChunk terrain p else pure false

def prepareChunks : List (ChunkCoord × LoadStatus) → SourceCall γ Bool
  | [] => pure true
  | (p, status) :: rest => do
    let prepared ← prepareEntry terrain p status
    let others ← prepareChunks rest
    pure (prepared && others)

-- `Coordinator::prepare`.
def prepare (positions : List ChunkCoord) : SourceCall γ Bool := do
  if positions = [] then pure true
  else
    let statuses ← onNative (InfiniteWorld.prepareStorageLoadBatch positions)
    prepareChunks terrain (positions.zip statuses)

def drop (p : ChunkCoord) (s : InfiniteChunkSource γ) : InfiniteChunkSource γ :=
  { s with chunks := s.chunks.erase p, cells := s.cells.erase p }

def tryEvictBacking (p : ChunkCoord) : SourceCall γ ChunkUnloadStatus :=
  .ofOp fun s =>
    let (eviction, store) := s.native.store.tryEvictChunk p
    let status := match eviction with
      | .missing => ChunkUnloadStatus.missing
      | .pinned _ => .pinned
      | .dirty => .dirty
      | .evicted => .unloaded
    (.ok status, { s with native := s.native.withStore store })

def unload (p : ChunkCoord) : SourceCall γ ChunkUnloadStatus := do
  let s ← state
  if p ∉ s.chunks then pure .missing
  else if p ∉ s.cells then fail .cellMissing
  else
    let status ← tryEvictBacking p
    if status = .unloaded ∨ status = .missing then update (drop p)
    pure status

def dequeue (p : ChunkCoord) (rest : List ChunkCoord) (s : InfiniteChunkSource γ) :
    InfiniteChunkSource γ :=
  { s with
    evictionQueued := s.evictionQueued.erase p
    evictionQueue := rest }

def evictKey (p : ChunkCoord) : SourceCall γ Nat := do
  let s ← state
  if p ∉ s.chunks then pure 0
  else
    let status ← unload p
    if status = .pinned ∨ status = .dirty then
      update (enqueue p)
      pure 0
    else pure 1

def evictLoop : Nat → SourceCall γ Nat
  | 0 => pure 0
  | budget + 1 => do
    let s ← state
    match s.evictionQueue with
    | [] => pure 0
    | p :: rest =>
      update (dequeue p rest)
      let removed ← evictKey p
      let others ← evictLoop budget
      pure (removed + others)

def evictCleanUnpinned (budget : Int) : SourceCall γ Nat :=
  if budget ≤ 0 ∨ 4096 < budget then fail .evictionBudget else evictLoop budget.toNat

end InfiniteChunkSource

-- What the owner runtime calls, and what the load workers and the writers of resident chunks do
-- between its calls.
inductive ResidencyAction where
  | getOrGenerate (p : ChunkCoord)
  | chunkWork (positions : List ChunkCoord)
  | storageTick (budget : Int) (receipts : List SaveReceipt)
  | unload (p : ChunkCoord)
  | evictCleanUnpinned (budget : Int)
  | take (p : ChunkCoord)
  | answer (c : LoadCompletion)
  | write (op : StoreOp) (rewrites : op.Rewrites)

namespace InfiniteChunkSource

variable {γ : Type} (terrain : Terrain γ)

def onWorld (f : InfiniteWorld γ → InfiniteWorld γ) (s : InfiniteChunkSource γ) :
    InfiniteChunkSource γ :=
  { s with native := f s.native }

def take (p : ChunkCoord) (w : InfiniteWorld γ) : InfiniteWorld γ :=
  if p ∈ w.commands then { w with commands := w.commands.erase p, reading := p :: w.reading } else w

def answer (c : LoadCompletion) (w : InfiniteWorld γ) : InfiniteWorld γ :=
  if c.position ∈ w.reading then
    { w with reading := w.reading.erase c.position, completions := w.completions ++ [c] }
  else w

def perform : ResidencyAction → InfiniteChunkSource γ → InfiniteChunkSource γ
  | .getOrGenerate p, s => ((getOrGenerate terrain p).exec s).2
  | .chunkWork positions, s => ((prepare terrain positions).exec s).2
  | .storageTick budget receipts, s => ((onNative (InfiniteWorld.storageTick budget receipts)).exec s).2
  | .unload p, s => ((unload p).exec s).2
  | .evictCleanUnpinned budget, s => ((evictCleanUnpinned budget).exec s).2
  | .take p, s => s.onWorld (take p)
  | .answer c, s => s.onWorld (answer c)
  | .write op _, s => s.onWorld fun w => w.withStore (op.apply w.store)

-- An infinite world right after its storage was attached.
structure Attached (s : InfiniteChunkSource γ) : Prop where
  store : s.native.store = .new
  chunks : s.chunks = ∅
  loading : s.loading = ∅
  evictionQueued : s.evictionQueued = ∅
  evictionQueue : s.evictionQueue = []

end InfiniteChunkSource

end Cobblestone.Source
