import Cobblestone.Lib.Script
import Cobblestone.World.Advance

namespace Cobblestone.Source

open Lib World

inductive LoadStatus where
  | resident
  | queued
  | joined
  | missing
deriving DecidableEq, Repr

-- The load side of the persistence that a native world may have attached.
structure NativeStorage where
  loadMissing : Finset ChunkCoord
  inFlight : Finset ChunkCoord
  requests : List ChunkCoord
  queueCapacity : Nat

structure NativeWorld where
  store : WorldStore
  storage : Option NativeStorage

inductive SourceError where
  | pending (p : ChunkCoord) (status : LoadStatus)
  | backpressure
  | alreadyLoading (p : ChunkCoord)
  | wrongPosition
  | native (error : WorldStoreError)
  | thrown (message : String)
deriving DecidableEq, Repr

namespace NativeWorld

variable (native : NativeWorld)

def hasStorage : Bool := native.storage.isSome

def clearMissing (p : ChunkCoord) : NativeWorld :=
  { native with storage := native.storage.map fun storage =>
      { storage with loadMissing := storage.loadMissing.erase p } }

def ensureChunk (p : ChunkCoord) (biome : UInt8) : Except WorldStoreError Bool × NativeWorld :=
  match native.store.ensureChunk p biome with
  | (.ok true, store) => (.ok true, { native with store := store }.clearMissing p)
  | (result, store) => (result, { native with store := store })

-- One chunk that native generation has finished.
def installGenerated (p : ChunkCoord) (i : ChunkImport) : NativeWorld :=
  match native.store.installGeneratedChunk p i with
  | (.ok _, store) => { native with store := store }.clearMissing p
  | (.error _, store) => { native with store := store }

def requestStorageLoad (storage : NativeStorage) (p : ChunkCoord) :
    Except SourceError LoadStatus × NativeWorld :=
  if native.store.containsChunk p then (.ok .resident, native)
  else if p ∈ storage.loadMissing then (.ok .missing, native)
  else if p ∈ storage.inFlight then (.ok .joined, native)
  else if storage.queueCapacity ≤ storage.requests.length then (.error .backpressure, native)
  else
    (.ok .queued, { native with storage := some { storage with
      inFlight := insert p storage.inFlight
      requests := storage.requests ++ [p] } })

def lifecycleFlags (p : ChunkCoord) : Except SourceError UInt8 :=
  (native.store.withChunk p fun c => .ok c.lifecycleFlags).mapError .native

def setLifecycleFlags (p : ChunkCoord) (flags : UInt8) : Except SourceError Unit × NativeWorld :=
  ((native.store.setLifecycleFlags p flags).1.mapError .native,
    { native with store := (native.store.setLifecycleFlags p flags).2 })

def mark (p : ChunkCoord) (flag : UInt8) : Except SourceError Unit × NativeWorld :=
  match native.lifecycleFlags p with
  | .error e => (.error e, native)
  | .ok flags => native.setLifecycleFlags p (flags ||| flag)

end NativeWorld

-- What a generator may ask of the native store: a chunk object of its own, chunks that native
-- generation installs, and the writers of resident chunks.
inductive GeneratorCall where
  | construct (p : ChunkCoord) (biome : UInt8)
  | installGenerated (p : ChunkCoord) (i : ChunkImport)
  | write (op : StoreOp) (rewrites : op.Rewrites)

def GeneratorCall.perform : GeneratorCall → NativeWorld → NativeWorld
  | .construct p biome, native => (native.ensureChunk p biome).2
  | .installGenerated p i, native => native.installGenerated p i
  | .write op _, native => { native with store := op.apply native.store }

abbrev GeneratorScript (α : Type) := Script NativeWorld GeneratorCall String α

structure Generator where
  isInfinite : Bool
  generate : ChunkCoord → Int → NativeWorld → GeneratorScript ChunkCoord
  populate : ChunkCoord → Int → NativeWorld → GeneratorScript Unit

structure MainChunkSource where
  generator : Generator
  seed : Int
  chunks : Finset ChunkCoord
  loading : Finset ChunkCoord
  evictionQueue : List ChunkCoord
  nativeStore : NativeWorld

namespace MainChunkSource

variable (source : MainChunkSource) (p : ChunkCoord)

def withNative (native : NativeWorld) : MainChunkSource := { source with nativeStore := native }

def put : MainChunkSource :=
  { source with
    chunks := insert p source.chunks
    evictionQueue := if p ∉ source.chunks ∧ p ∉ source.evictionQueue then source.evictionQueue ++ [p]
      else source.evictionQueue }

def adoptNativeResident : MainChunkSource := if p ∈ source.chunks then source else source.put p

def runGenerate : Except SourceError ChunkCoord × MainChunkSource :=
  let run := (source.generator.generate p source.seed source.nativeStore).run GeneratorCall.perform
    source.nativeStore
  (run.1.mapError .thrown, source.withNative run.2)

def runPopulate : Except SourceError Unit × MainChunkSource :=
  let run := (source.generator.populate p source.seed source.nativeStore).run GeneratorCall.perform
    source.nativeStore
  (run.1.mapError .thrown, source.withNative run.2)

def mark (flag : UInt8) : Except SourceError Unit × MainChunkSource :=
  ((source.nativeStore.mark p flag).1, source.withNative (source.nativeStore.mark p flag).2)

def completed (flags : UInt8) : Bool :=
  flags &&& chunkLifecyclePopulated != 0 && flags &&& chunkLifecycleLightPopulated != 0

def completeInfiniteChunk : Except SourceError ChunkCoord × MainChunkSource :=
  if source.generator.isInfinite then
    match source.nativeStore.lifecycleFlags p with
    | .error e => (.error e, source)
    | .ok flags =>
      if completed flags then (.ok p, source)
      else
        match source.runGenerate p with
        | (.error e, source) => (.error e, source)
        | (.ok _, source) => (.ok p, source)
  else (.ok p, source)

def populateGenerated : Except SourceError ChunkCoord × MainChunkSource :=
  match source.mark p chunkLifecycleGenerated with
  | (.error e, source) => (.error e, source)
  | (.ok (), source) =>
    match source.runPopulate p with
    | (.error e, source) => (.error e, source)
    | (.ok (), source) =>
      match source.mark p chunkLifecyclePopulated with
      | (.error e, source) => (.error e, source)
      | (.ok (), source) => (.ok p, source.put p)

def generateBody : Except SourceError ChunkCoord × MainChunkSource :=
  match source.runGenerate p with
  | (.error e, source) => (.error e, source)
  | (.ok generated, source) =>
    if generated ≠ p then (.error .wrongPosition, source) else source.populateGenerated p

def enter : MainChunkSource := { source with loading := insert p source.loading }

-- The `finally` clears the loading mark however the body ends.
def generate : Except SourceError ChunkCoord × MainChunkSource :=
  if p ∈ source.loading then (.error (.alreadyLoading p), source)
  else
    let (result, source) := (source.enter p).generateBody p
    (result, { source with loading := source.loading.erase p })

def getOrGenerate : Except SourceError ChunkCoord × MainChunkSource :=
  if p ∈ source.chunks then source.completeInfiniteChunk p
  else
    match source.nativeStore.storage with
    | none => source.generate p
    | some storage =>
      match source.nativeStore.requestStorageLoad storage p with
      | (.error e, native) => (.error e, source.withNative native)
      | (.ok .resident, native) =>
        ((source.withNative native).adoptNativeResident p).completeInfiniteChunk p
      | (.ok .missing, native) => (source.withNative native).generate p
      | (.ok status, native) => (.error (.pending p status), source.withNative native)

end MainChunkSource

end Cobblestone.Source
