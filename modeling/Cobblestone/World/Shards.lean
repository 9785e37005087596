import Cobblestone.Lib.Trace
import Cobblestone.World.Sound

namespace Cobblestone.World

open Lib

abbrev regionChunkEdge : Int := 8

structure RegionId where
  x : Int32
  z : Int32
deriving DecidableEq, Repr

def regionFor (p : ChunkCoord) : RegionId :=
  ⟨Int32.ofInt (p.x.toInt / regionChunkEdge), Int32.ofInt (p.z.toInt / regionChunkEdge)⟩

inductive InsertCall where
  | ensureChunk (biome : UInt8)
  | importChunkIfAbsent (i : ChunkImport)
  | importChunk (i : ChunkImport)

namespace InsertCall

-- Argument checks run before the first lock is taken.
def prepare : InsertCall → Except WorldStoreError ChunkRecord
  | .ensureChunk biome =>
    match defaultBiomeWord biome with
    | none => .error (.invalidBiome biome)
    | some biomeWord => .ok (ChunkRecord.empty biomeWord)
  | .importChunkIfAbsent i => (validateImport i).map fun _ => ChunkRecord.fromImport i
  | .importChunk i => (validateImport i).map fun _ => ChunkRecord.fromImport i

def replaces : InsertCall → Bool
  | .importChunk _ => true
  | _ => false

end InsertCall

-- Where a thread stands between two lock acquisitions. A shard number in a state is the `Arc`
-- that the thread cloned out of the directory.
inductive ThreadState where
  | idle
  | insertLookup (p : ChunkCoord) (call : InsertCall) (c : ChunkRecord)
  | insertCreate (p : ChunkCoord) (call : InsertCall) (c : ChunkRecord)
  | insertShard (p : ChunkCoord) (call : InsertCall) (c : ChunkRecord) (shard : Nat)
  | editLookup (p : ChunkCoord) (edit : ChunkRecord → ChunkRecord)
  | editShard (p : ChunkCoord) (edit : ChunkRecord → ChunkRecord) (shard : Nat)
  | evictLookup (p : ChunkCoord)
  | evictShard (p : ChunkCoord) (shard : Nat)
  | evictDirectory (p : ChunkCoord) (shard : Nat)
  | evictCheck (p : ChunkCoord) (shard : Nat)
  | evictRemove (p : ChunkCoord) (shard : Nat)

structure ShardedStore where
  directory : RegionId → Option Nat
  shards : Nat → ChunkCoord → Option ChunkRecord
  nextShard : Nat
  -- The thread whose directory write guard is still alive while it takes another lock.
  directoryLock : Option Nat
  threads : Nat → ThreadState
  -- History: the last insert or eviction that took effect on the position was an insert.
  present : ChunkCoord → Bool

namespace ShardedStore

def new : ShardedStore := ⟨fun _ => none, fun _ _ => none, 0, none, fun _ => .idle, fun _ => false⟩

def setThread (st : ShardedStore) (t : Nat) (state : ThreadState) : ShardedStore :=
  { st with threads := Function.update st.threads t state }

def setEntry (st : ShardedStore) (shard : Nat) (p : ChunkCoord) (c : Option ChunkRecord) :
    ShardedStore :=
  { st with shards := Function.update st.shards shard (Function.update (st.shards shard) p c) }

def ShardEmpty (st : ShardedStore) (shard : Nat) : Prop := ∀ p, st.shards shard p = none

def insertAt (st : ShardedStore) (shard : Nat) (p : ChunkCoord) (call : InsertCall)
    (c : ChunkRecord) : ShardedStore :=
  if (st.shards shard p).isSome && !call.replaces then st
  else { st.setEntry shard p (some c) with present := Function.update st.present p true }

def takeFrom (st : ShardedStore) (shard : Nat) (p : ChunkCoord) : ShardedStore :=
  { st.setEntry shard p none with present := Function.update st.present p false }

def addShard (st : ShardedStore) (id : RegionId) : ShardedStore :=
  { st with
    directory := Function.update st.directory id (some st.nextShard)
    shards := Function.update st.shards st.nextShard (fun _ => none)
    nextShard := st.nextShard + 1 }

def dropShard (st : ShardedStore) (id : RegionId) : ShardedStore :=
  { st with directory := Function.update st.directory id none, directoryLock := none }

-- A read takes the directory lock in one state and the shard lock in a later one.
def readChunk (looked read : ShardedStore) (p : ChunkCoord) : Option ChunkRecord :=
  match looked.directory (regionFor p) with
  | none => none
  | some shard => read.shards shard p

def containsChunk (st : ShardedStore) (p : ChunkCoord) : Bool := (readChunk st st p).isSome

def NoPendingInsert (st : ShardedStore) (shard : Nat) : Prop :=
  ∀ t p call c, st.threads t ≠ .insertShard p call c shard

end ShardedStore

open ShardedStore

section

variable (cond : ShardedStore → Nat → Prop)

inductive ShardStep : ShardedStore → ShardedStore → Prop where
  | startInsert {st : ShardedStore} {t : Nat} {c : ChunkRecord} (p : ChunkCoord)
      (call : InsertCall) (ht : st.threads t = .idle) (hc : call.prepare = .ok c) :
    ShardStep st (st.setThread t (.insertLookup p call c))
  | insertFound {st : ShardedStore} {t : Nat} {p : ChunkCoord} {call : InsertCall}
      {c : ChunkRecord} {shard : Nat} (ht : st.threads t = .insertLookup p call c)
      (hl : st.directoryLock = none) (hd : st.directory (regionFor p) = some shard) :
    ShardStep st (st.setThread t (.insertShard p call c shard))
  | insertMissing {st : ShardedStore} {t : Nat} {p : ChunkCoord} {call : InsertCall}
      {c : ChunkRecord} (ht : st.threads t = .insertLookup p call c)
      (hl : st.directoryLock = none) (hd : st.directory (regionFor p) = none) :
    ShardStep st (st.setThread t (.insertCreate p call c))
  | insertReuse {st : ShardedStore} {t : Nat} {p : ChunkCoord} {call : InsertCall}
      {c : ChunkRecord} {shard : Nat} (ht : st.threads t = .insertCreate p call c)
      (hl : st.directoryLock = none) (hd : st.directory (regionFor p) = some shard) :
    ShardStep st (st.setThread t (.insertShard p call c shard))
  | insertNew {st : ShardedStore} {t : Nat} {p : ChunkCoord} {call : InsertCall}
      {c : ChunkRecord} (ht : st.threads t = .insertCreate p call c)
      (hl : st.directoryLock = none) (hd : st.directory (regionFor p) = none) :
    ShardStep st ((st.addShard (regionFor p)).setThread t (.insertShard p call c st.nextShard))
  | insertWrite {st : ShardedStore} {t : Nat} {p : ChunkCoord} {call : InsertCall}
      {c : ChunkRecord} {shard : Nat} (ht : st.threads t = .insertShard p call c shard) :
    ShardStep st ((st.insertAt shard p call c).setThread t .idle)
  | startEdit {st : ShardedStore} {t : Nat} (p : ChunkCoord) (edit : ChunkRecord → ChunkRecord)
      (ht : st.threads t = .idle) : ShardStep st (st.setThread t (.editLookup p edit))
  | editFound {st : ShardedStore} {t : Nat} {p : ChunkCoord} {edit : ChunkRecord → ChunkRecord}
      {shard : Nat} (ht : st.threads t = .editLookup p edit) (hl : st.directoryLock = none)
      (hd : st.directory (regionFor p) = some shard) :
    ShardStep st (st.setThread t (.editShard p edit shard))
  | editMissing {st : ShardedStore} {t : Nat} {p : ChunkCoord} {edit : ChunkRecord → ChunkRecord}
      (ht : st.threads t = .editLookup p edit) (hl : st.directoryLock = none)
      (hd : st.directory (regionFor p) = none) : ShardStep st (st.setThread t .idle)
  | editWrite {st : ShardedStore} {t : Nat} {p : ChunkCoord} {edit : ChunkRecord → ChunkRecord}
      {shard : Nat} (ht : st.threads t = .editShard p edit shard) :
    ShardStep st ((st.setEntry shard p ((st.shards shard p).map edit)).setThread t .idle)
  | startEvict {st : ShardedStore} {t : Nat} (p : ChunkCoord) (ht : st.threads t = .idle) :
    ShardStep st (st.setThread t (.evictLookup p))
  | evictFound {st : ShardedStore} {t : Nat} {p : ChunkCoord} {shard : Nat}
      (ht : st.threads t = .evictLookup p) (hl : st.directoryLock = none)
      (hd : st.directory (regionFor p) = some shard) :
    ShardStep st (st.setThread t (.evictShard p shard))
  | evictMissing {st : ShardedStore} {t : Nat} {p : ChunkCoord}
      (ht : st.threads t = .evictLookup p) (hl : st.directoryLock = none)
      (hd : st.directory (regionFor p) = none) : ShardStep st (st.setThread t .idle)
  | evictRefused {st : ShardedStore} {t : Nat} {p : ChunkCoord} {shard : Nat}
      (ht : st.threads t = .evictShard p shard)
      (hr : ∀ c, st.shards shard p = some c → c.pinCount ≠ 0 ∨ c.isDirty = true) :
    ShardStep st (st.setThread t .idle)
  | evictTake {st : ShardedStore} {t : Nat} {p : ChunkCoord} {shard : Nat} {c : ChunkRecord}
      (ht : st.threads t = .evictShard p shard) (hs : st.shards shard p = some c)
      (hp : c.pinCount = 0) (hc : c.isDirty = false) (he : ¬ (st.takeFrom shard p).ShardEmpty shard) :
    ShardStep st ((st.takeFrom shard p).setThread t .idle)
  | evictLast {st : ShardedStore} {t : Nat} {p : ChunkCoord} {shard : Nat} {c : ChunkRecord}
      (ht : st.threads t = .evictShard p shard) (hs : st.shards shard p = some c)
      (hp : c.pinCount = 0) (hc : c.isDirty = false) (he : (st.takeFrom shard p).ShardEmpty shard) :
    ShardStep st ((st.takeFrom shard p).setThread t (.evictDirectory p shard))
  | evictAcquire {st : ShardedStore} {t : Nat} {p : ChunkCoord} {shard : Nat}
      (ht : st.threads t = .evictDirectory p shard) (hl : st.directoryLock = none) :
    ShardStep st ({ st with directoryLock := some t }.setThread t (.evictCheck p shard))
  | evictKeep {st : ShardedStore} {t : Nat} {p : ChunkCoord} {shard : Nat}
      (ht : st.threads t = .evictCheck p shard)
      (hk : ¬ (st.directory (regionFor p) = some shard ∧ st.ShardEmpty shard)) :
    ShardStep st ({ st with directoryLock := none }.setThread t .idle)
  | evictEmpty {st : ShardedStore} {t : Nat} {p : ChunkCoord} {shard : Nat}
      (ht : st.threads t = .evictCheck p shard) (hd : st.directory (regionFor p) = some shard)
      (he : st.ShardEmpty shard) (hc : cond st shard) :
    ShardStep st (st.setThread t (.evictRemove p shard))
  | evictDrop {st : ShardedStore} {t : Nat} {p : ChunkCoord} {shard : Nat}
      (ht : st.threads t = .evictRemove p shard) :
    ShardStep st ((st.dropShard (regionFor p)).setThread t .idle)

def ShardReachable : ShardedStore → Prop := Relation.ReflTransGen (ShardStep cond) ShardedStore.new

def PresentRun (p : ChunkCoord) (st st' : ShardedStore) : Prop :=
  st.present p = true ∧
    Relation.ReflTransGen (fun a b => ShardStep cond a b ∧ b.present p = true) st st'

end

end Cobblestone.World
