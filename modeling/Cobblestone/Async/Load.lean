import Cobblestone.Async.Save

namespace Cobblestone.Async

open Lib World Storage Region

abbrev maxAsyncLoadWorkers : Nat := 32
abbrev maxAsyncLoadQueueCapacity : Nat := 65536
abbrev maxAsyncLoadCompletionCapacity : Nat := 65536

structure AsyncLoadConfig extends ServiceConfig where
  valid : validateConfig maxAsyncLoadWorkers maxAsyncLoadQueueCapacity
    maxAsyncLoadCompletionCapacity toServiceConfig = .ok ()

inductive LoadRequestState where
  | queued
  | joined
deriving DecidableEq, Repr

inductive LoadSubmitError where
  | backpressure (position : ChunkCoord)
  | closed (position : ChunkCoord)
deriving DecidableEq, Repr

inductive LoadWorkerError where
  | storage (error : StorageError)
  | panic
deriving DecidableEq, Repr

structure LoadFailure where
  position : ChunkCoord
  error : LoadWorkerError
deriving DecidableEq, Repr

inductive LoadCompletion where
  | loaded (chunk : StoredChunk)
  | missing (position : ChunkCoord)
  | failed (failure : LoadFailure)

def LoadCompletion.position : LoadCompletion → ChunkCoord
  | .loaded chunk => chunk.position
  | .missing position => position
  | .failed failure => failure.position

def loadCompletion (position : ChunkCoord) : Outcome (Option StoredChunk) → LoadCompletion
  | .finished (.ok (some chunk)) => .loaded chunk
  | .finished (.ok none) => .missing position
  | .finished (.error e) => .failed ⟨position, .storage e⟩
  | .panicked => .failed ⟨position, .panic⟩

-- Whatever `open_existing` made of the file, and whatever the file holds when the record is read.
inductive LoadWork (crates : Crates) : ChunkCoord → LoadCompletion → Prop where
  | unopened (position : ChunkCoord) (e : StorageError) :
    LoadWork crates position (loadCompletion position (.finished (.error e)))
  | absent (position : ChunkCoord) :
    LoadWork crates position (loadCompletion position (.finished (.ok none)))
  | opened (position : ChunkCoord) (r : RegionFile) :
    LoadWork crates position (loadCompletion position (.finished (loadChunk crates r position)))
  | panicked (position : ChunkCoord) : LoadWork crates position (loadCompletion position .panicked)

inductive LoadCall where
  | idle
  | receiving (timed : Bool)
  | closing (next : Nat)
  | draining (completions : List LoadCompletion)
  | joining (completions : List LoadCompletion)
  | closed

structure AsyncLoadService (config : AsyncLoadConfig) where
  pool : Pool ChunkCoord LoadCompletion config.workers
  inFlight : Finset ChunkCoord
  observedStopped : Nat
  call : LoadCall
  -- History: the requests answered `Queued`, the completions taken from the channel, and those
  -- that reached a caller.
  queued : List ChunkCoord
  received : List LoadCompletion
  delivered : List LoadCompletion

namespace AsyncLoadService

variable {config : AsyncLoadConfig}

def route (config : AsyncLoadConfig) (position : ChunkCoord) : Fin config.workers :=
  routeRegion (workers_pos config.valid).1 (RegionCoord.forChunk position)

def start (config : AsyncLoadConfig) : AsyncLoadService config where
  pool := .start
  inFlight := ∅
  observedStopped := 0
  call := .idle
  queued := []
  received := []
  delivered := []

def enqueue (s : AsyncLoadService config) (position : ChunkCoord)
    (pool : Pool ChunkCoord LoadCompletion config.workers) : AsyncLoadService config :=
  { s with
    pool := pool
    inFlight := insert position s.inFlight
    queued := s.queued ++ [position] }

def request (s : AsyncLoadService config) (position : ChunkCoord) :
    Except LoadSubmitError LoadRequestState × AsyncLoadService config :=
  if position ∈ s.inFlight then (.ok .joined, s)
  else
    match s.pool.trySend config.queueCapacity (route config position) position with
    | .ok pool => (.ok .queued, s.enqueue position pool)
    | .error .full => (.error (.backpressure position), s)
    | .error .disconnected => (.error (.closed position), s)

def takeEvent (s : AsyncLoadService config) (rest : List (PoolEvent LoadCompletion)) :
    PoolEvent LoadCompletion → AsyncLoadService config
  | .completion c =>
    { s with
      pool := s.pool.received rest
      inFlight := s.inFlight.erase c.position
      received := s.received ++ [c] }
  | .stopped =>
    { s with pool := s.pool.received rest, observedStopped := s.observedStopped + 1 }

def withPool (s : AsyncLoadService config) (pool : Pool ChunkCoord LoadCompletion config.workers) :
    AsyncLoadService config := { s with pool := pool }

def withCall (s : AsyncLoadService config) (call : LoadCall) : AsyncLoadService config :=
  { s with call := call }

def deliver (s : AsyncLoadService config) (c : LoadCompletion) : AsyncLoadService config :=
  { s with delivered := s.delivered ++ [c], call := .idle }

-- One round of a receive loop, after the event has been taken.
def receiveEvent (timed : Bool) (s : AsyncLoadService config) :
    PoolEvent LoadCompletion → AsyncLoadService config
  | .completion c => s.deliver c
  | .stopped =>
    if timed = true ∧ s.observedStopped = config.workers then s.withCall .idle else s

def drainEvent (completions : List LoadCompletion) (s : AsyncLoadService config) :
    PoolEvent LoadCompletion → AsyncLoadService config
  | .completion c => s.withCall (.draining (completions ++ [c]))
  | .stopped => s

def finish (completions : List LoadCompletion) (s : AsyncLoadService config) :
    AsyncLoadService config :=
  { s with inFlight := ∅, delivered := s.delivered ++ completions, call := .closed }

end AsyncLoadService

open AsyncLoadService

inductive LoadStep (crates : Crates) {config : AsyncLoadConfig} :
    AsyncLoadService config → AsyncLoadService config → Prop where
  | request {s : AsyncLoadService config} (hcall : s.call = .idle) (position : ChunkCoord) :
    LoadStep crates s (s.request position).2
  | tryRecvCompletion {s : AsyncLoadService config} (hcall : s.call = .idle) :
    LoadStep crates s (s.withCall (.receiving false))
  | recvCompletionTimeout {s : AsyncLoadService config} (hcall : s.call = .idle) :
    LoadStep crates s (s.withCall (.receiving true))
  | receiveEvent {s : AsyncLoadService config} {timed : Bool} {e : PoolEvent LoadCompletion}
      {rest : List (PoolEvent LoadCompletion)} (hcall : s.call = .receiving timed)
      (hc : s.pool.channel = e :: rest) :
    LoadStep crates s ((s.takeEvent rest e).receiveEvent timed e)
  | receiveNothing {s : AsyncLoadService config} {timed : Bool} (hcall : s.call = .receiving timed)
      (hc : s.pool.channel = []) : LoadStep crates s (s.withCall .idle)
  | shutdown {s : AsyncLoadService config} (hcall : s.call = .idle) :
    LoadStep crates s (s.withCall (.closing 0))
  | closeSender {s : AsyncLoadService config} {i : Fin config.workers}
      (hcall : s.call = .closing i) :
    LoadStep crates s ((s.withPool (s.pool.closeSender i)).withCall (.closing (i + 1)))
  | startDraining {s : AsyncLoadService config} (hcall : s.call = .closing config.workers) :
    LoadStep crates s (s.withCall (.draining []))
  | drain {s : AsyncLoadService config} {completions : List LoadCompletion}
      {e : PoolEvent LoadCompletion} {rest : List (PoolEvent LoadCompletion)}
      (hcall : s.call = .draining completions) (ho : s.observedStopped < config.workers)
      (hc : s.pool.channel = e :: rest) :
    LoadStep crates s ((s.takeEvent rest e).drainEvent completions e)
  | dropReceiver {s : AsyncLoadService config} {completions : List LoadCompletion}
      (hcall : s.call = .draining completions)
      (ho : config.workers ≤ s.observedStopped ∨
        (s.pool.channel = [] ∧ ∀ i, s.pool.phases i = .exited)) :
    LoadStep crates s ((s.withPool s.pool.dropReceiver).withCall (.joining completions))
  | finish {s : AsyncLoadService config} {completions : List LoadCompletion}
      (hcall : s.call = .joining completions) (hjoin : ∀ i, s.pool.phases i = .exited) :
    LoadStep crates s (s.finish completions)
  | worker {s : AsyncLoadService config} {pool : Pool ChunkCoord LoadCompletion config.workers}
      (hw : WorkerStep (LoadWork crates) config.completionCapacity s.pool pool) :
    LoadStep crates s (s.withPool pool)

def LoadReachable (crates : Crates) {config : AsyncLoadConfig} : AsyncLoadService config → Prop :=
  Relation.ReflTransGen (LoadStep crates) (start config)

end Cobblestone.Async
