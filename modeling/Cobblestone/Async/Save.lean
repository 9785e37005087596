import Cobblestone.Lib.Client
import Cobblestone.Region.Compact

namespace Cobblestone.Async

open Lib World Storage Region

def routeRegionWorker (region : RegionCoord) (workers : Nat) : Nat :=
  let x := region.x.toInt64.toUInt64
  let z := region.z.toInt64.toUInt64
  let mixed := UInt64.ofBitVec ((x * 0x9e3779b97f4a7c15).toBitVec.rotateLeft 17) ^^^
    z * 0xc2b2ae3d27d4eb4f
  mixed.toNat % workers

def routeChunkWorker (position : ChunkCoord) (workers : Nat) : Nat :=
  routeRegionWorker (RegionCoord.forChunk position) workers

structure ServiceConfig where
  workers : Nat
  queueCapacity : Nat
  completionCapacity : Nat

inductive BuildError where
  | invalidConfig (reason : String)
deriving DecidableEq, Repr

def validateConfig (maxWorkers maxQueueCapacity maxCompletionCapacity : Nat)
    (config : ServiceConfig) : Except BuildError Unit := do
  ensure (0 < config.workers && config.workers ≤ maxWorkers)
    (.invalidConfig "workers must be in range 1..=32")
  ensure (0 < config.queueCapacity && config.queueCapacity ≤ maxQueueCapacity)
    (.invalidConfig "queue capacity must be in range 1..=65536")
  ensure (0 < config.completionCapacity && config.completionCapacity ≤ maxCompletionCapacity)
    (.invalidConfig "completion capacity must be in range 1..=65536")

abbrev maxAsyncSaveWorkers : Nat := 32
abbrev maxAsyncSaveQueueCapacity : Nat := 65536
abbrev maxAsyncSaveCompletionCapacity : Nat := 65536

structure AsyncSaveConfig extends ServiceConfig where
  valid : validateConfig maxAsyncSaveWorkers maxAsyncSaveQueueCapacity
    maxAsyncSaveCompletionCapacity toServiceConfig = .ok ()

theorem workers_pos {maxWorkers maxQueue maxCompletion : Nat} {config : ServiceConfig}
    (h : validateConfig maxWorkers maxQueue maxCompletion config = .ok ()) :
    0 < config.workers ∧ 0 < config.completionCapacity := by
  simp only [validateConfig, bind_ok_iff, ensure_ok_iff, Bool.and_eq_true, decide_eq_true_eq] at h
  obtain ⟨-, ⟨hw, -⟩, -, -, hc, -⟩ := h
  exact ⟨hw, hc⟩

def routeRegion {n : Nat} (hn : 0 < n) (region : RegionCoord) : Fin n :=
  ⟨routeRegionWorker region n, Nat.mod_lt _ hn⟩

inductive SaveCommand where
  | save (snapshot : ChunkSnapshot)
  | compact (region : RegionCoord)
deriving DecidableEq

inductive SaveWorkerError where
  | storage (error : StorageError)
  | panic
deriving DecidableEq, Repr

structure SaveReceipt where
  position : ChunkCoord
  terrainRevision : UInt64
  lightRevision : UInt64
  lifecycleFlags : UInt8
  region : RegionCoord
  regionGeneration : UInt64
  bytesAppended : Nat
  regionStats : RegionStats
deriving DecidableEq, Repr

structure SaveFailure where
  position : ChunkCoord
  terrainRevision : UInt64
  lightRevision : UInt64
  lifecycleFlags : UInt8
  error : SaveWorkerError
deriving DecidableEq, Repr

inductive SaveCompletion where
  | saved (receipt : SaveReceipt)
  | failed (failure : SaveFailure)
deriving DecidableEq, Repr

structure CompactionReceipt where
  region : RegionCoord
  generation : UInt64
  records : Nat
  bytesReclaimed : Nat
  before : RegionStats
  after : RegionStats
deriving DecidableEq, Repr

structure CompactionFailure where
  region : RegionCoord
  error : SaveWorkerError
deriving DecidableEq, Repr

inductive CompactionCompletion where
  | compacted (receipt : CompactionReceipt)
  | failed (failure : CompactionFailure)
deriving DecidableEq, Repr

inductive SaveEvent where
  | completion (completion : SaveCompletion)
  | compaction (completion : CompactionCompletion)
deriving DecidableEq, Repr

-- What `catch_unwind` makes of a command: its result, or nothing when it panicked.
inductive Outcome (α : Type) where
  | finished (result : Except StorageError α)
  | panicked

def saveReceipt (s : ChunkSnapshot) (result : RegionSaveResult) : SaveReceipt where
  position := s.position
  terrainRevision := s.terrainRevision
  lightRevision := s.lightRevision
  lifecycleFlags := s.lifecycleFlags
  region := RegionCoord.forChunk s.position
  regionGeneration := result.generation
  bytesAppended := result.bytesAppended
  regionStats := result.stats

def saveFailure (s : ChunkSnapshot) (error : SaveWorkerError) : SaveFailure where
  position := s.position
  terrainRevision := s.terrainRevision
  lightRevision := s.lightRevision
  lifecycleFlags := s.lifecycleFlags
  error := error

def saveCompletion (s : ChunkSnapshot) : Outcome RegionSaveResult → SaveCompletion
  | .finished (.ok result) => .saved (saveReceipt s result)
  | .finished (.error e) => .failed (saveFailure s (.storage e))
  | .panicked => .failed (saveFailure s .panic)

def compactionReceipt (region : RegionCoord) (result : RegionCompactionResult) :
    CompactionReceipt where
  region := region
  generation := result.generation
  records := result.records
  bytesReclaimed := result.bytesReclaimed
  before := result.before
  after := result.after

def compactionCompletion (region : RegionCoord) :
    Outcome RegionCompactionResult → CompactionCompletion
  | .finished (.ok result) => .compacted (compactionReceipt region result)
  | .finished (.error e) => .failed ⟨region, .storage e⟩
  | .panicked => .failed ⟨region, .panic⟩

-- The region files decide the outcome of a command; the worker answers it whatever it is.
inductive SaveWork : SaveCommand → SaveEvent → Prop where
  | save (s : ChunkSnapshot) (outcome : Outcome RegionSaveResult) :
    SaveWork (.save s) (.completion (saveCompletion s outcome))
  | compact (region : RegionCoord) (outcome : Outcome RegionCompactionResult) :
    SaveWork (.compact region) (.compaction (compactionCompletion region outcome))

inductive CompletionKind where
  | save
  | compaction
deriving DecidableEq, Repr

inductive SaveCall where
  | idle
  | receiving (kind : CompletionKind) (timed : Bool)
  | closing (next : Nat)
  | draining (completions : List SaveCompletion)
  | joining (completions : List SaveCompletion)
  | closed

inductive SaveSubmitError where
  | backpressure (snapshot : ChunkSnapshot)
  | closed (snapshot : ChunkSnapshot)

inductive CompactionSubmitError where
  | backpressure (region : RegionCoord)
  | closed (region : RegionCoord)

structure AsyncSaveService (config : AsyncSaveConfig) where
  pool : Pool SaveCommand SaveEvent config.workers
  pendingCompletions : List SaveCompletion
  pendingCompactions : List CompactionCompletion
  observedStopped : Nat
  call : SaveCall
  -- History: the commands accepted, the completions taken from the channel, and those that reached
  -- a caller.
  accepted : List SaveCommand
  received : List SaveEvent
  delivered : List SaveEvent

namespace AsyncSaveService

variable {config : AsyncSaveConfig}

def route (config : AsyncSaveConfig) (region : RegionCoord) : Fin config.workers :=
  routeRegion (workers_pos config.valid).1 region

def start (config : AsyncSaveConfig) : AsyncSaveService config where
  pool := .start
  pendingCompletions := []
  pendingCompactions := []
  observedStopped := 0
  call := .idle
  accepted := []
  received := []
  delivered := []

def submit (s : AsyncSaveService config) (region : RegionCoord) (command : SaveCommand) :
    Except SubmitError (AsyncSaveService config) := do
  let pool ← s.pool.trySend config.queueCapacity (route config region) command
  pure { s with pool := pool, accepted := s.accepted ++ [command] }

def trySave (s : AsyncSaveService config) (snapshot : ChunkSnapshot) :
    Except SaveSubmitError Unit × AsyncSaveService config :=
  match s.submit (RegionCoord.forChunk snapshot.position) (.save snapshot) with
  | .ok s' => (.ok (), s')
  | .error .full => (.error (.backpressure snapshot), s)
  | .error .disconnected => (.error (.closed snapshot), s)

def tryCompact (s : AsyncSaveService config) (region : RegionCoord) :
    Except CompactionSubmitError Unit × AsyncSaveService config :=
  match s.submit region (.compact region) with
  | .ok s' => (.ok (), s')
  | .error .full => (.error (.backpressure region), s)
  | .error .disconnected => (.error (.closed region), s)

def deliver (s : AsyncSaveService config) (e : SaveEvent) : AsyncSaveService config :=
  { s with delivered := s.delivered ++ [e], call := .idle }

-- The four receive calls first look at the buffer of their own kind.
def receive (kind : CompletionKind) (timed : Bool) (s : AsyncSaveService config) :
    AsyncSaveService config :=
  match kind, s.pendingCompletions, s.pendingCompactions with
  | .save, c :: rest, _ => { s with pendingCompletions := rest }.deliver (.completion c)
  | .compaction, _, c :: rest => { s with pendingCompactions := rest }.deliver (.compaction c)
  | _, _, _ => { s with call := .receiving kind timed }

def tryRecvCompletion (s : AsyncSaveService config) : AsyncSaveService config :=
  s.receive .save false

def tryRecvCompaction (s : AsyncSaveService config) : AsyncSaveService config :=
  s.receive .compaction false

def recvCompletionTimeout (s : AsyncSaveService config) : AsyncSaveService config :=
  s.receive .save true

def recvCompactionTimeout (s : AsyncSaveService config) : AsyncSaveService config :=
  s.receive .compaction true

def observe (s : AsyncSaveService config) : AsyncSaveService config :=
  { s with observedStopped := s.observedStopped + 1 }

def buffer (s : AsyncSaveService config) : SaveEvent → AsyncSaveService config
  | .completion c => { s with pendingCompletions := s.pendingCompletions ++ [c] }
  | .compaction c => { s with pendingCompactions := s.pendingCompactions ++ [c] }

def eventKind : SaveEvent → CompletionKind
  | .completion _ => .save
  | .compaction _ => .compaction

-- One round of a receive loop: an event of the other kind is kept for its own callers.
def receiveEvent (kind : CompletionKind) (timed : Bool) (s : AsyncSaveService config) :
    PoolEvent SaveEvent → AsyncSaveService config
  | .completion e => if eventKind e = kind then s.deliver e else s.buffer e
  | .stopped =>
    if timed = true ∧ s.observedStopped + 1 = config.workers then { s.observe with call := .idle }
    else s.observe

def drainEvent (completions : List SaveCompletion) (s : AsyncSaveService config) :
    PoolEvent SaveEvent → AsyncSaveService config
  | .completion (.completion c) => { s with call := .draining (completions ++ [c]) }
  | .completion (.compaction c) => s.buffer (.compaction c)
  | .stopped => s.observe

def takeEvent (s : AsyncSaveService config) (rest : List (PoolEvent SaveEvent)) :
    PoolEvent SaveEvent → AsyncSaveService config
  | .completion e => { s with pool := s.pool.received rest, received := s.received ++ [e] }
  | .stopped => { s with pool := s.pool.received rest }

def withPool (s : AsyncSaveService config) (pool : Pool SaveCommand SaveEvent config.workers) :
    AsyncSaveService config := { s with pool := pool }

def withCall (s : AsyncSaveService config) (call : SaveCall) : AsyncSaveService config :=
  { s with call := call }

def startDraining (s : AsyncSaveService config) : AsyncSaveService config :=
  { s with pendingCompletions := [], call := .draining s.pendingCompletions }

-- The service is consumed: what is still buffered goes with it.
def finish (completions : List SaveCompletion) (s : AsyncSaveService config) :
    AsyncSaveService config :=
  { s with
    pendingCompactions := []
    delivered := s.delivered ++ completions.map .completion
    call := .closed }

end AsyncSaveService

open AsyncSaveService

inductive SaveStep {config : AsyncSaveConfig} :
    AsyncSaveService config → AsyncSaveService config → Prop where
  | trySave {s : AsyncSaveService config} (hcall : s.call = .idle) (snapshot : ChunkSnapshot) :
    SaveStep s (s.trySave snapshot).2
  | tryCompact {s : AsyncSaveService config} (hcall : s.call = .idle) (region : RegionCoord) :
    SaveStep s (s.tryCompact region).2
  | tryRecvCompletion {s : AsyncSaveService config} (hcall : s.call = .idle) :
    SaveStep s s.tryRecvCompletion
  | tryRecvCompaction {s : AsyncSaveService config} (hcall : s.call = .idle) :
    SaveStep s s.tryRecvCompaction
  | recvCompletionTimeout {s : AsyncSaveService config} (hcall : s.call = .idle) :
    SaveStep s s.recvCompletionTimeout
  | recvCompactionTimeout {s : AsyncSaveService config} (hcall : s.call = .idle) :
    SaveStep s s.recvCompactionTimeout
  | receiveEvent {s : AsyncSaveService config} {kind : CompletionKind} {timed : Bool}
      {e : PoolEvent SaveEvent} {rest : List (PoolEvent SaveEvent)}
      (hcall : s.call = .receiving kind timed) (hc : s.pool.channel = e :: rest) :
    SaveStep s ((s.takeEvent rest e).receiveEvent kind timed e)
  | receiveNothing {s : AsyncSaveService config} {kind : CompletionKind} {timed : Bool}
      (hcall : s.call = .receiving kind timed) (hc : s.pool.channel = []) :
    SaveStep s (s.withCall .idle)
  | shutdown {s : AsyncSaveService config} (hcall : s.call = .idle) :
    SaveStep s (s.withCall (.closing 0))
  | closeSender {s : AsyncSaveService config} {i : Fin config.workers}
      (hcall : s.call = .closing i) :
    SaveStep s ((s.withPool (s.pool.closeSender i)).withCall (.closing (i + 1)))
  | startDraining {s : AsyncSaveService config} (hcall : s.call = .closing config.workers) :
    SaveStep s s.startDraining
  | drain {s : AsyncSaveService config} {completions : List SaveCompletion}
      {e : PoolEvent SaveEvent} {rest : List (PoolEvent SaveEvent)}
      (hcall : s.call = .draining completions) (ho : s.observedStopped < config.workers)
      (hc : s.pool.channel = e :: rest) :
    SaveStep s ((s.takeEvent rest e).drainEvent completions e)
  | dropReceiver {s : AsyncSaveService config} {completions : List SaveCompletion}
      (hcall : s.call = .draining completions)
      (ho : config.workers ≤ s.observedStopped ∨
        (s.pool.channel = [] ∧ ∀ i, s.pool.phases i = .exited)) :
    SaveStep s ((s.withPool s.pool.dropReceiver).withCall (.joining completions))
  | finish {s : AsyncSaveService config} {completions : List SaveCompletion}
      (hcall : s.call = .joining completions) (hjoin : ∀ i, s.pool.phases i = .exited) :
    SaveStep s (s.finish completions)
  | worker {s : AsyncSaveService config} {pool : Pool SaveCommand SaveEvent config.workers}
      (hw : WorkerStep SaveWork config.completionCapacity s.pool pool) :
    SaveStep s (s.withPool pool)

def SaveReachable {config : AsyncSaveConfig} : AsyncSaveService config → Prop :=
  Relation.ReflTransGen SaveStep (start config)

end Cobblestone.Async
