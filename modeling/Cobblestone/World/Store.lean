import Cobblestone.World.Chunk

namespace Cobblestone.World

open Lib

abbrev worldChangeLogCapacity : Nat := 8192
abbrev maxPointBlockChanges : Nat := 256

inductive WorldChangeKind where
  | blocks (changes : List (UInt16 × UInt16))
  | fullChunk
deriving DecidableEq, Repr

structure WorldChange where
  sequence : Nat
  position : ChunkCoord
  kind : WorldChangeKind
deriving DecidableEq, Repr

structure WorldChangeLog where
  nextSequence : Nat
  changes : List WorldChange
deriving DecidableEq

def WorldChangeLog.default : WorldChangeLog := ⟨1, []⟩

def WorldChangeLog.latestSequence (log : WorldChangeLog) : Nat := log.nextSequence - 1

def WorldChangeLog.oldestSequence (log : WorldChangeLog) : Nat :=
  match log.changes.head? with
  | some change => change.sequence
  | none => log.latestSequence + 1

def WorldChangeLog.cursorIsStale (log : WorldChangeLog) (cursor : Nat) : Bool :=
  decide (cursor + 1 < log.oldestSequence)

def WorldChangeLog.pruneThrough (log : WorldChangeLog) (sequence : Nat) : WorldChangeLog :=
  { log with changes := log.changes.dropWhile (fun change => change.sequence ≤ sequence) }

def WorldChangeLog.record (log : WorldChangeLog) (position : ChunkCoord)
    (kind : WorldChangeKind) : WorldChangeLog :=
  let kept := if log.changes.length = worldChangeLogCapacity then log.changes.tail else log.changes
  ⟨log.nextSequence + 1, kept ++ [⟨log.nextSequence, position, kind⟩]⟩

structure WorldStore where
  chunks : ChunkCoord → Option ChunkRecord
  changes : WorldChangeLog

namespace WorldStore

def new : WorldStore := ⟨fun _ => none, WorldChangeLog.default⟩

def setChunk (s : WorldStore) (position : ChunkCoord) (c : ChunkRecord) : WorldStore :=
  { s with chunks := Function.update s.chunks position (some c) }

def removeChunk (s : WorldStore) (position : ChunkCoord) : WorldStore :=
  { s with chunks := Function.update s.chunks position none }

def recordChange (s : WorldStore) (position : ChunkCoord) (kind : WorldChangeKind) : WorldStore :=
  { s with changes := s.changes.record position kind }

@[simp] theorem setChunk_self (s : WorldStore) (p : ChunkCoord) (c : ChunkRecord) :
    (s.setChunk p c).chunks p = some c := by
  simp [setChunk]

@[simp] theorem setChunk_of_ne (s : WorldStore) {p q : ChunkCoord} (c : ChunkRecord) (h : q ≠ p) :
    (s.setChunk p c).chunks q = s.chunks q := by
  simp [setChunk, h]

@[simp] theorem setChunk_changes (s : WorldStore) (p : ChunkCoord) (c : ChunkRecord) :
    (s.setChunk p c).changes = s.changes := rfl

@[simp] theorem removeChunk_self (s : WorldStore) (p : ChunkCoord) :
    (s.removeChunk p).chunks p = none := by
  simp [removeChunk]

@[simp] theorem removeChunk_of_ne (s : WorldStore) {p q : ChunkCoord} (h : q ≠ p) :
    (s.removeChunk p).chunks q = s.chunks q := by
  simp [removeChunk, h]

@[simp] theorem removeChunk_changes (s : WorldStore) (p : ChunkCoord) :
    (s.removeChunk p).changes = s.changes := rfl

@[simp] theorem recordChange_chunks (s : WorldStore) (p : ChunkCoord) (k : WorldChangeKind) :
    (s.recordChange p k).chunks = s.chunks := rfl

theorem setChunk_same {s : WorldStore} {p : ChunkCoord} {c : ChunkRecord}
    (h : s.chunks p = some c) : s.setChunk p c = s := by
  rw [setChunk, ← h, Function.update_eq_self]

def containsChunk (s : WorldStore) (position : ChunkCoord) : Bool := (s.chunks position).isSome

def withChunk {α : Type} (s : WorldStore) (position : ChunkCoord)
    (operation : ChunkRecord → Except WorldStoreError α) : Except WorldStoreError α :=
  match s.chunks position with
  | none => .error (.chunkMissing position.x position.z)
  | some c => operation c

def withChunkMut {α : Type} (s : WorldStore) (position : ChunkCoord)
    (operation : ChunkRecord → Except WorldStoreError α × ChunkRecord) :
    Except WorldStoreError α × WorldStore :=
  match s.chunks position with
  | none => (.error (.chunkMissing position.x position.z), s)
  | some c => ((operation c).1, s.setChunk position (operation c).2)

def snapshot (s : WorldStore) (position : ChunkCoord) : Except WorldStoreError ChunkSnapshot :=
  s.withChunk position fun c => .ok (c.snapshot position)

def ensureChunk (s : WorldStore) (position : ChunkCoord) (biome : UInt8) :
    Except WorldStoreError Bool × WorldStore :=
  match defaultBiomeWord biome with
  | none => (.error (.invalidBiome biome), s)
  | some biomeWord =>
    if s.containsChunk position then (.ok false, s)
    else (.ok true, s.setChunk position (ChunkRecord.empty biomeWord))

def importChunkIfAbsent (s : WorldStore) (position : ChunkCoord) (i : ChunkImport) :
    Except WorldStoreError Bool × WorldStore :=
  match validateImport i with
  | .error e => (.error e, s)
  | .ok () =>
    if s.containsChunk position then (.ok false, s)
    else (.ok true, s.setChunk position (ChunkRecord.fromImport i))

def importChunk (s : WorldStore) (position : ChunkCoord) (i : ChunkImport) :
    Except WorldStoreError Unit × WorldStore :=
  match validateImport i with
  | .error e => (.error e, s)
  | .ok () => (.ok (), s.setChunk position (ChunkRecord.fromImport i))

def terrainChanged (c : ChunkRecord) (d : ChunkData) : Bool :=
  c.data.states != d.states || c.data.biomes != d.biomes || c.data.heightMap != d.heightMap ||
    c.data.extraData != d.extraData

def lightChanged (c : ChunkRecord) (d : ChunkData) : Bool :=
  c.data.skyLight != d.skyLight || c.data.blockLight != d.blockLight

-- The two revision bumps run in order and each may fail: a light failure leaves the terrain
-- revision already advanced.
def installOver (c : ChunkRecord) (i : ChunkImport) : Except WorldStoreError Bool × ChunkRecord :=
  let terrain := terrainChanged c i.data
  let light := lightChanged c i.data
  let lifecycle := c.lifecycleFlags != i.lifecycleFlags
  match if terrain then checkedSucc c.terrainRevision else some c.terrainRevision with
  | none => (.error .terrainRevisionExhausted, c)
  | some nextTerrain =>
    let c := { c with terrainRevision := nextTerrain }
    match if light then checkedSucc c.lightRevision else some c.lightRevision with
    | none => (.error .lightRevisionExhausted, c)
    | some nextLight =>
      let c := { c with lightRevision := nextLight }
      let c := if terrain || light then { c with data := i.data } else c
      (.ok (terrain || light || lifecycle), { c with lifecycleFlags := i.lifecycleFlags })

def installGeneratedChunk (s : WorldStore) (position : ChunkCoord) (i : ChunkImport) :
    Except WorldStoreError Bool × WorldStore :=
  match validateImport i with
  | .error e => (.error e, s)
  | .ok () =>
    match s.chunks position with
    | none =>
      (.ok true, s.setChunk position
        { terrainRevision := 0, lightRevision := 0, persistedTerrainRevision := none,
          persistedLightRevision := none, persistedLifecycleFlags := none, pinCount := 0,
          lifecycleFlags := i.lifecycleFlags, data := i.data })
    | some c => ((installOver c i).1, s.setChunk position (installOver c i).2)

def setLifecycleFlags (s : WorldStore) (position : ChunkCoord) (flags : UInt8) :
    Except WorldStoreError Unit × WorldStore :=
  match validateLifecycleFlags flags with
  | .error e => (.error e, s)
  | .ok () => s.withChunkMut position fun c => (.ok (), { c with lifecycleFlags := flags })

def pinChunk (s : WorldStore) (position : ChunkCoord) : Except WorldStoreError UInt32 × WorldStore :=
  s.withChunkMut position fun c =>
    if c.pinCount.toNat + 1 < UInt32.size then
      (.ok (c.pinCount + 1), { c with pinCount := c.pinCount + 1 })
    else (.error .pinCountExhausted, c)

def unpinChunk (s : WorldStore) (position : ChunkCoord) :
    Except WorldStoreError UInt32 × WorldStore :=
  s.withChunkMut position fun c =>
    if c.pinCount = 0 then (.error .chunkNotPinned, c)
    else (.ok (c.pinCount - 1), { c with pinCount := c.pinCount - 1 })

def regressed (persisted : Option UInt64) (revision : UInt64) : Option UInt64 :=
  persisted.filter fun previous => revision < previous

def markPersistedRecord (c : ChunkRecord) (terrainRevision lightRevision : UInt64)
    (lifecycleFlags : UInt8) : Except WorldStoreError Unit × ChunkRecord :=
  if terrainRevision > c.terrainRevision then
    (.error (.persistedTerrainRevisionAhead terrainRevision c.terrainRevision), c)
  else if lightRevision > c.lightRevision then
    (.error (.persistedLightRevisionAhead lightRevision c.lightRevision), c)
  else match regressed c.persistedTerrainRevision terrainRevision with
  | some previous => (.error (.persistedTerrainRevisionRegression previous terrainRevision), c)
  | none =>
    match regressed c.persistedLightRevision lightRevision with
    | some previous => (.error (.persistedLightRevisionRegression previous lightRevision), c)
    | none =>
      (.ok (), { c with
        persistedTerrainRevision := some terrainRevision
        persistedLightRevision := some lightRevision
        persistedLifecycleFlags := some lifecycleFlags })

def markPersisted (s : WorldStore) (position : ChunkCoord) (terrainRevision lightRevision : UInt64)
    (lifecycleFlags : UInt8) : Except WorldStoreError Unit × WorldStore :=
  match validateLifecycleFlags lifecycleFlags with
  | .error e => (.error e, s)
  | .ok () => s.withChunkMut position fun c =>
      markPersistedRecord c terrainRevision lightRevision lifecycleFlags

def tryEvictChunk (s : WorldStore) (position : ChunkCoord) : ChunkEviction × WorldStore :=
  match s.chunks position with
  | none => (.missing, s)
  | some c =>
    if c.pinCount ≠ 0 then (.pinned c.pinCount, s)
    else if c.isDirty then (.dirty, s)
    else (.evicted, s.removeChunk position)

def commitTerrainRevision (s : WorldStore) (position : ChunkCoord) (expected next : UInt64) :
    Except WorldStoreError Unit × WorldStore :=
  s.withChunkMut position fun c =>
    if c.terrainRevision ≠ expected then
      (.error (.terrainRevisionConflict expected c.terrainRevision), c)
    else match checkedSucc expected with
    | none => (.error .terrainRevisionExhausted, c)
    | some expectedNext =>
      if next ≠ expectedNext then
        (.error (.invalidTerrainRevisionTransition expectedNext next), c)
      else (.ok (), { c with terrainRevision := next })

def commitLightRevision (s : WorldStore) (position : ChunkCoord) (expected next : UInt64) :
    Except WorldStoreError Unit × WorldStore :=
  s.withChunkMut position fun c =>
    if c.lightRevision ≠ expected then
      (.error (.lightRevisionConflict expected c.lightRevision), c)
    else match checkedSucc expected with
    | none => (.error .lightRevisionExhausted, c)
    | some expectedNext =>
      if next ≠ expectedNext then
        (.error (.invalidLightRevisionTransition expectedNext next), c)
      else (.ok (), { c with lightRevision := next })

end WorldStore

end Cobblestone.World
