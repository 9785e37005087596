import Mathlib.Data.Finset.Basic
import Mathlib.Data.Multiset.Basic
import Cobblestone.Async.Load
import Cobblestone.World.Infinite
import Cobblestone.World.Reachable

namespace Cobblestone.Bridge

open Lib World Storage Region Async

abbrev maxCompactionCandidates : Nat := 4096
abbrev infiniteGeneratorId : UInt32 := 1
abbrev flushBatch : Nat := 256

structure NativeCompactionPolicy where
  minDeadBytes : UInt64
  minDeadPercent : UInt8
deriving DecidableEq, Repr

def NativeCompactionPolicy.accepts (policy : NativeCompactionPolicy) (stats : RegionStats) : Bool :=
  if stats.deadBytes = 0 ∨ stats.recordBytes = 0 then false
  else
    let bytesMatch := decide (policy.minDeadBytes = 0 ∨ policy.minDeadBytes.toNat ≤ stats.deadBytes)
    let percentMatch := decide (policy.minDeadPercent = 0 ∨
      stats.recordBytes * policy.minDeadPercent.toNat ≤ stats.deadBytes * 100)
    bytesMatch && percentMatch

structure NativeInfiniteGenerator (γ : Type) where
  seed : Int32
  state : γ
  dirty : Bool

inductive BridgeError where
  | world (error : WorldStoreError)
  | loadFailed (failure : LoadFailure)
  | saveFailed (failure : SaveFailure)
  | appendByteCountOverflow
  | compactionCompletionCountOverflow
  | compactionFailureCountOverflow
  | reclaimedByteCountOverflow
deriving DecidableEq, Repr

-- A service as its client sees it: commands that no worker has answered, and answers that the
-- client has not taken.
structure SaveDesk where
  commands : Multiset SaveCommand
  completions : Multiset SaveCompletion
  compactions : Multiset CompactionCompletion

structure LoadDesk where
  inFlight : Finset ChunkCoord
  requests : Multiset ChunkCoord
  completions : Multiset LoadCompletion

structure NativeWorldPersistence where
  generatorId : UInt32
  saves : SaveDesk
  loads : LoadDesk
  saveInFlight : Finset ChunkCoord
  loadMissing : Finset ChunkCoord
  saveBytesAppended : UInt64
  regionStats : RegionCoord → Option RegionStats
  compactionPolicy : Option NativeCompactionPolicy
  compactionQueue : List RegionCoord
  compactionQueued : Finset RegionCoord
  compactionInFlight : Finset RegionCoord
  compactionBlocked : Finset RegionCoord
  compactionsCompleted : UInt64
  compactionsFailed : UInt64
  compactionBytesReclaimed : UInt64
  compactionLastError : Option CompactionFailure

inductive AfterPoll where
  | prepareLoads (positions : List ChunkCoord)
  | tick (budget : Nat)
  | generate (seed : Int32) (target : ChunkCoord)

-- Where the owner runtime stands inside a call of the bridge.
inductive Call (γ : Type) where
  | idle
  | polling (completed budget : Nat) (next : AfterPoll)
  | preparing (rest : List ChunkCoord) (statuses : List UInt8)
  | requiring (rest : List ChunkCoord) (ready : Bool) (seed : Int32) (target : ChunkCoord)
  | generating (seed : Int32) (target : ChunkCoord)
  | compactions (taken budget : Nat)
  | collecting (completed budget : Nat)
  | scheduling (rest : List ChunkSnapshot) (budget : Nat)
  | sweeping (scheduled budget : Nat)
  | guarding
  | draining
  | settling
  | flushing (rest : List ChunkSnapshot)
  | checking (backpressured : Bool)
  | waiting
  | flushed
  | persisting
  | writing (state : γ)

structure WorldBridge (γ : Type) where
  store : WorldStore
  persistence : NativeWorldPersistence
  infinite : Option (NativeInfiniteGenerator γ)
  -- What the region files hold for each chunk, and what `generator.cgs` holds.
  durable : ChunkCoord → Option ChunkSnapshot
  generatorState : Option γ
  call : Call γ

def checkedAdd (a : UInt64) (b : Nat) : Option UInt64 :=
  if a.toNat + b < UInt64.size then some (a + UInt64.ofNat b) else none

namespace LoadDesk

def request (d : LoadDesk) (p : ChunkCoord) : LoadDesk :=
  { d with inFlight := insert p d.inFlight, requests := p ::ₘ d.requests }

def receive (d : LoadDesk) (p : ChunkCoord) (rest : Multiset LoadCompletion) : LoadDesk :=
  { d with inFlight := d.inFlight.erase p, completions := rest }

def answer (d : LoadDesk) (rest : Multiset ChunkCoord) (c : LoadCompletion) : LoadDesk :=
  { d with requests := rest, completions := c ::ₘ d.completions }

end LoadDesk

namespace SaveDesk

def submit (d : SaveDesk) (c : SaveCommand) : SaveDesk := { d with commands := c ::ₘ d.commands }

def answer (d : SaveDesk) (rest : Multiset SaveCommand) : SaveEvent → SaveDesk
  | .completion c => { d with commands := rest, completions := c ::ₘ d.completions }
  | .compaction c => { d with commands := rest, compactions := c ::ₘ d.compactions }

end SaveDesk

namespace NativeWorldPersistence

def attach (generatorId : UInt32) (policy : Option NativeCompactionPolicy) :
    NativeWorldPersistence where
  generatorId := generatorId
  saves := ⟨0, 0, 0⟩
  loads := ⟨∅, 0, 0⟩
  saveInFlight := ∅
  loadMissing := ∅
  saveBytesAppended := 0
  regionStats := fun _ => none
  compactionPolicy := policy
  compactionQueue := []
  compactionQueued := ∅
  compactionInFlight := ∅
  compactionBlocked := ∅
  compactionsCompleted := 0
  compactionsFailed := 0
  compactionBytesReclaimed := 0
  compactionLastError := none

def clearMissing (n : NativeWorldPersistence) (p : ChunkCoord) : NativeWorldPersistence :=
  { n with loadMissing := n.loadMissing.erase p }

def maybeQueueCompaction (n : NativeWorldPersistence) (region : RegionCoord) (stats : RegionStats) :
    NativeWorldPersistence :=
  match n.compactionPolicy with
  | none => n
  | some policy =>
    if policy.accepts stats = false ∨ region ∈ n.compactionBlocked ∨ region ∈ n.compactionInFlight ∨
        region ∈ n.compactionQueued ∨ maxCompactionCandidates ≤ n.compactionQueue.length then n
    else
      { n with
        compactionQueued := insert region n.compactionQueued
        compactionQueue := n.compactionQueue ++ [region] }

-- The accounting after a receipt has been marked in the store.
def recordReceipt (n : NativeWorldPersistence) (receipt : SaveReceipt) :
    Except BridgeError Unit × NativeWorldPersistence :=
  match checkedAdd n.saveBytesAppended receipt.bytesAppended with
  | none => (.error .appendByteCountOverflow, n)
  | some total =>
    let n := { n with
      saveBytesAppended := total
      regionStats := Function.update n.regionStats receipt.region (some receipt.regionStats) }
    (.ok (), n.maybeQueueCompaction receipt.region receipt.regionStats)

def applyCompactionCompletion (n : NativeWorldPersistence) :
    CompactionCompletion → Except BridgeError Bool × NativeWorldPersistence
  | .compacted receipt =>
    let n := { n with
      compactionInFlight := n.compactionInFlight.erase receipt.region
      regionStats := Function.update n.regionStats receipt.region (some receipt.after) }
    match checkedAdd n.compactionsCompleted 1 with
    | none => (.error .compactionCompletionCountOverflow, n)
    | some completed =>
      let n := { n with compactionsCompleted := completed }
      match checkedAdd n.compactionBytesReclaimed receipt.bytesReclaimed with
      | none => (.error .reclaimedByteCountOverflow, n)
      | some reclaimed => (.ok false, { n with compactionBytesReclaimed := reclaimed })
  | .failed failure =>
    let n := { n with
      compactionInFlight := n.compactionInFlight.erase failure.region
      compactionBlocked := insert failure.region n.compactionBlocked }
    match checkedAdd n.compactionsFailed 1 with
    | none => (.error .compactionFailureCountOverflow, n)
    | some failed =>
      (.ok true, { n with compactionsFailed := failed, compactionLastError := some failure })

-- Whether the scheduler still wants a region that it takes from its queue.
def wantsCompaction (n : NativeWorldPersistence) (region : RegionCoord) : Bool :=
  if region ∈ n.compactionBlocked ∨ region ∈ n.compactionInFlight then false
  else
    match n.regionStats region, n.compactionPolicy with
    | some stats, some policy => policy.accepts stats
    | _, _ => false

def popCompaction (n : NativeWorldPersistence) (region : RegionCoord) (rest : List RegionCoord) :
    NativeWorldPersistence :=
  { n with
    compactionQueue := rest
    compactionQueued := n.compactionQueued.erase region }

def startCompaction (n : NativeWorldPersistence) (region : RegionCoord) : NativeWorldPersistence :=
  { n with
    saves := n.saves.submit (.compact region)
    compactionInFlight := insert region n.compactionInFlight }

def requeueCompaction (n : NativeWorldPersistence) (region : RegionCoord) : NativeWorldPersistence :=
  { n with
    compactionQueued := insert region n.compactionQueued
    compactionQueue := region :: n.compactionQueue }

def scheduleSave (n : NativeWorldPersistence) (s : ChunkSnapshot) : NativeWorldPersistence :=
  { n with
    saves := n.saves.submit (.save s)
    saveInFlight := insert s.position n.saveInFlight }

end NativeWorldPersistence

end Cobblestone.Bridge
