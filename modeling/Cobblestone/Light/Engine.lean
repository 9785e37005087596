import Cobblestone.Lib.OrderedMap
import Cobblestone.Lib.Result
import Cobblestone.Light.Catalog
import Cobblestone.Mutation.ChunkPatch
import Cobblestone.Mutation.Snapshot
import Cobblestone.Source.MainChunkSource
import Cobblestone.World.BlockPos

namespace Cobblestone.Light

open Lib World Mutation Source

inductive LightLayer where
  | sky
  | block
deriving DecidableEq, Repr

structure LightUpdate where
  layer : LightLayer
  min : BlockPos
  max : BlockPos
deriving DecidableEq, Repr

def LightUpdate.point (layer : LightLayer) (position : BlockPos) : LightUpdate :=
  ⟨layer, position, position⟩

inductive LightError where
  | propagation (message : String)
  | budgetExceeded (budget : Int)
  | invalidBudget
  | lightRange
  | coordinateOverflow
  | chunk (error : MutationError)
deriving DecidableEq, Repr

def chunkAt (world : MainChunkSource) (position : ChunkPos) : Option ChunkCoord :=
  match position.coord? with
  | none => none
  | some coord => if coord ∈ world.chunks then some coord else none

structure WorldLightAccess where
  staged : OrderedMap (LightLayer × BlockPos) Nat
  snapshots : OrderedMap ChunkPos Mutation.ChunkSnapshot

def WorldLightAccess.new : WorldLightAccess := ⟨.empty, .empty⟩

abbrev Access := Attempt LightError WorldLightAccess

def phpInt (n : Int) : Bool := decide (-2 ^ 63 ≤ n) && decide (n < 2 ^ 63)

namespace WorldLightAccess

variable (world : MainChunkSource)

-- Four more positions are built here; a coordinate past the integers becomes a float.
def neighborhoodAvailable (position : BlockPos) : Except LightError Bool :=
  if phpInt (position.x - 1) && phpInt (position.x + 1) && phpInt (position.z - 1) &&
      phpInt (position.z + 1) then
    .ok ([position, { position with x := position.x - 1 }, { position with x := position.x + 1 },
      { position with z := position.z - 1 }, { position with z := position.z + 1 }].all
        fun neighbor => (chunkAt world neighbor.chunk).isSome)
  else .error .coordinateOverflow

def snapshot (position : ChunkPos) : Access (Option Mutation.ChunkSnapshot) := fun access =>
  match access.snapshots.get? position with
  | some snapshot => .ok (some snapshot, access)
  | none =>
    match chunkAt world position with
    | none => .ok (none, access)
    | some coord =>
      match Chunk.snapshot world.nativeStore.store coord with
      | .error e => .error (.chunk e)
      | .ok snapshot =>
        .ok (some snapshot, { access with snapshots := access.snapshots.set position snapshot })

def blockStateId (position : BlockPos) : Access (Option UInt16) := do
  if position.isInsideWorld then
    let snapshot ← snapshot world position.chunk
    pure (snapshot.bind fun snapshot =>
      snapshot.blockStateId position.localX position.y.toNat position.localZ)
  else pure none

def lightOf (layer : LightLayer) (position : BlockPos) (snapshot : Mutation.ChunkSnapshot) :
    Option Nat :=
  match layer with
  | .sky => (snapshot.skyLightLevel position.localX position.y.toNat position.localZ).map UInt8.toNat
  | .block =>
    (snapshot.blockLightLevel position.localX position.y.toNat position.localZ).map UInt8.toNat

def authoritativeLight (layer : LightLayer) (position : BlockPos) : Access (Option Nat) := do
  if position.isInsideWorld then
    let snapshot ← snapshot world position.chunk
    pure (snapshot.bind (lightOf layer position))
  else pure none

def storedLight (layer : LightLayer) (position : BlockPos) : Access (Option Nat) := do
  if position.isInsideWorld then
    let access ← get
    match access.staged.get? (layer, position) with
    | some level => pure (some level)
    | none => authoritativeLight world layer position
  else pure none

def setStoredLight (layer : LightLayer) (position : BlockPos) (level : Nat) : Access Bool := do
  if maxLightLevel < level then throw .lightRange
  else
    let current ← storedLight world layer position
    match current with
    | none => pure false
    | some current =>
      if current = level then pure true
      else
        modify fun access => { access with staged := access.staged.set (layer, position) level }
        pure true

def exposed (snapshot : Mutation.ChunkSnapshot) (position : BlockPos) : List Nat → Option Bool
  | [] => some true
  | y :: above =>
    match snapshot.blockStateId position.localX y position.localZ with
    | none => none
    | some stateId =>
      match propertiesForStateId stateId.toNat with
      | none => none
      | some properties =>
        if 0 < properties.lightBlock then some false else exposed snapshot position above

def canSeeSky (position : BlockPos) : Access (Option Bool) := do
  if position.isInsideWorld then
    let snapshot ← snapshot world position.chunk
    pure (snapshot.bind fun snapshot => exposed snapshot position
      (List.range' (position.y.toNat + 1) (worldHeight - (position.y.toNat + 1))))
  else pure none

end WorldLightAccess

end Cobblestone.Light

namespace Cobblestone.Light

open Lib World Mutation Source

structure Propagation where
  access : WorldLightAccess
  queue : List LightUpdate
  pending : Finset LightUpdate

abbrev Propagate := Attempt LightError Propagation

def onAccess {α : Type} (m : Access α) : Propagate α := fun state =>
  match m state.access with
  | .error e => .error e
  | .ok (a, access) => .ok (a, { state with access := access })

def submit (update : LightUpdate) : Propagate Unit := modify fun state =>
  if update ∈ state.pending then state
  else { state with pending := insert update state.pending, queue := state.queue ++ [update] }

-- The integers from the first to the last, as the loops of the propagator count them.
def upTo (first last : Int) : List Int :=
  (List.range (last + 1 - first).toNat).map fun i : Nat => first + (i : Int)

namespace LightPropagator

variable (world : MainChunkSource)

def localSource (layer : LightLayer) (position : BlockPos) (blockEmission : Nat) : Propagate Nat :=
  match layer with
  | .block => pure blockEmission
  | .sky => do
    let exposed ← onAccess (WorldLightAccess.canSeeSky world position)
    let exposed ← Attempt.orThrow (.propagation "sky exposure is unavailable") exposed
    pure (if exposed then maxLightLevel else minLightLevel)

def sixNeighbors (position : BlockPos) : List BlockPos :=
  [{ position with x := position.x - 1 }, { position with x := position.x + 1 },
    { position with y := position.y - 1 }, { position with y := position.y + 1 },
    { position with z := position.z - 1 }, { position with z := position.z + 1 }]

def maxNeighborLight (layer : LightLayer) (position : BlockPos) : Propagate Nat :=
  (sixNeighbors position).foldlM (fun maximum neighbor => do
    if neighbor.isInsideWorld then
      let level ← onAccess (WorldLightAccess.storedLight world layer neighbor)
      let level ← Attempt.orThrow (.propagation "neighbor stored light is unavailable") level
      pure (max maximum level)
    else pure maximum) 0

def propagationNeighbors (position updateMax : BlockPos) (maxY : Int) : List (Option BlockPos) :=
  let positiveX := position.x + 1
  let positiveY := position.y + 1
  let positiveZ := position.z + 1
  [some { position with x := position.x - 1 }, some { position with y := position.y - 1 },
    some { position with z := position.z - 1 },
    if updateMax.x ≤ positiveX then some { position with x := positiveX } else none,
    if maxY ≤ positiveY then some { position with y := positiveY } else none,
    if updateMax.z ≤ positiveZ then some { position with z := positiveZ } else none]

def offer (layer : LightLayer) (inherited : Nat) : Option BlockPos → Propagate Unit
  | none => pure ()
  | some neighbor => do
    if neighbor.isInsideWorld then
      let stateId ← onAccess (WorldLightAccess.blockStateId world neighbor)
      let stateId ← Attempt.orThrow (.propagation "neighbor block state is unavailable") stateId
      let properties ← Attempt.orThrow (.propagation "unsupported neighbor block state")
        (propertiesForStateId stateId.toNat)
      let source ← localSource world layer neighbor properties.lightEmission
      let actual ← onAccess (WorldLightAccess.storedLight world layer neighbor)
      let actual ← Attempt.orThrow (.propagation "neighbor stored light is unavailable") actual
      if actual = max inherited source then pure ()
      else submit (.point layer neighbor)
    else pure ()

def applyCell (update : LightUpdate) (maxY : Int) (position : BlockPos) : Propagate Unit := do
  let stateId ← onAccess (WorldLightAccess.blockStateId world position)
  let stateId ← Attempt.orThrow (.propagation "unsupported or unavailable block state") stateId
  let properties ← Attempt.orThrow (.propagation "unsupported fixed-target block state")
    (propertiesForStateId stateId.toNat)
  let old ← onAccess (WorldLightAccess.storedLight world update.layer position)
  let old ← Attempt.orThrow (.propagation "stored light is unavailable") old
  let source ← localSource world update.layer position properties.lightEmission
  let attenuation := properties.propagationAttenuation
  let propagated ← (if maxLightLevel ≤ attenuation ∧ source = 0 then pure 0
    else do
      let brightest ← maxNeighborLight world update.layer position
      pure (brightest - attenuation) : Propagate Nat)
  let next := max source propagated
  if next = old then pure ()
  else
    let stored ← onAccess (WorldLightAccess.setStoredLight world update.layer position next)
    if stored then
      (propagationNeighbors position update.max maxY).forM (offer world update.layer (next - 1))
    else throw (.propagation "stored light became unavailable")

def applyColumn (update : LightUpdate) (minY maxY : Int) (x z : Int) : Propagate Unit := do
  match WorldLightAccess.neighborhoodAvailable world ⟨x, update.min.y, z⟩ with
  | .error e => throw e
  | .ok false => pure ()
  | .ok true => (upTo minY maxY).forM fun y => applyCell world update maxY ⟨x, y, z⟩

def apply (update : LightUpdate) : Propagate Unit := do
  let minY := max update.min.y World.minY
  let maxY := min update.max.y World.maxY
  if maxY < minY then pure ()
  else
    (upTo update.min.x update.max.x).forM fun x =>
      (upTo update.min.z update.max.z).forM fun z => applyColumn world update minY maxY x z

end LightPropagator

abbrev StagedEntry := (LightLayer × BlockPos) × Nat

structure Group where
  chunk : ChunkCoord
  snapshot : Mutation.ChunkSnapshot
  entries : List StagedEntry

namespace WorldLightAccess

variable (world : MainChunkSource)

def unavailable : LightError := .propagation "light target chunk became unavailable before commit"

def addEntry (groups : OrderedMap ChunkPos Group) (entry : StagedEntry) :
    Access (OrderedMap ChunkPos Group) := do
  let authoritative ← authoritativeLight world entry.1.1 entry.1.2
  let authoritative ← Attempt.orThrow unavailable authoritative
  if authoritative = entry.2 then pure groups
  else
    let position := entry.1.2.chunk
    match groups.get? position with
    | some group => pure (groups.set position { group with entries := group.entries ++ [entry] })
    | none =>
      let chunk ← Attempt.orThrow unavailable (chunkAt world position)
      let snapshot ← snapshot world position
      let snapshot ← Attempt.orThrow unavailable snapshot
      pure (groups.set position ⟨chunk, snapshot, [entry]⟩)

def preflight (group : Group) : Except LightError Unit := do
  ensure (group.snapshot.lightRevision ≠ Int64.maxValue)
    (.propagation "chunk light revision space exhausted")
  let revision ← (Chunk.revision world.nativeStore.store group.chunk).mapError .chunk
  ensure (revision = group.snapshot.revision)
    (.propagation "chunk terrain changed while propagation was staged")
  let lightRevision ← (Chunk.lightRevision world.nativeStore.store group.chunk).mapError .chunk
  ensure (lightRevision = group.snapshot.lightRevision)
    (.propagation "chunk light changed while propagation was staged")

def cellKey (position : BlockPos) : Nat :=
  ChunkCoordinateKey.block position.localX position.y.toNat position.localZ

def ksort {α : Type} (edits : OrderedMap Nat α) : List (Nat × α) :=
  edits.entries.mergeSort fun first second => decide (first.1 ≤ second.1)

def layerEdits (layer : LightLayer) (entries : List StagedEntry) : List (Nat × UInt8) :=
  ksort ((entries.filter fun entry => entry.1.1 = layer).foldl
    (fun edits entry => edits.set (cellKey entry.1.2) (UInt8.ofNat entry.2)) .empty)

def commitGroup (store : WorldStore) (group : Group) : Except MutationError Unit × WorldStore :=
  Chunk.applyPatch store group.chunk group.snapshot.revision group.snapshot.revision
    group.snapshot.lightRevision (group.snapshot.lightRevision + 1)
    { blocks := []
      biomes := []
      extraData := []
      skyLight := layerEdits .sky group.entries
      blockLight := layerEdits .block group.entries }

def commitGroups (store : WorldStore) : List Group → Except LightError (List ChunkPos) × WorldStore
  | [] => (.ok [], store)
  | group :: groups =>
    match commitGroup store group with
    | (.error e, store) => (.error (.chunk e), store)
    | (.ok _, store) =>
      match commitGroups store groups with
      | (.error e, store) => (.error e, store)
      | (.ok changed, store) => (.ok (group.chunk.pos :: changed), store)

def commit (access : WorldLightAccess) : Except LightError (List ChunkPos) × MainChunkSource :=
  match (access.staged.entries.foldlM (addEntry world) .empty) access with
  | .error e => (.error e, world)
  | .ok (groups, _) =>
    let groups := groups.entries.map Prod.snd
    match groups.forM (preflight world) with
    | .error e => (.error e, world)
    | .ok _ =>
      let committed := commitGroups world.nativeStore.store groups
      (committed.1, world.withNative { world.nativeStore with store := committed.2 })

end WorldLightAccess

structure LightPropagationResult where
  processedUpdates : Nat
  changedChunks : List ChunkPos
deriving DecidableEq, Repr

structure LightEngine where
  defaultBudget : Int
  positive : 0 < defaultBudget

namespace LightEngine

variable (world : MainChunkSource)

def fixedTarget : LightEngine := ⟨100000, by decide⟩

def process (update : LightUpdate) (rest : List LightUpdate) (state : Propagation) :
    Except LightError Propagation :=
  (LightPropagator.apply world update
    { state with queue := rest, pending := state.pending.erase update }).map Prod.snd

def drain (budget : Int) : Nat → Nat → Propagation → Except LightError (Nat × Propagation)
  | 0, processed, state =>
    if state.queue.isEmpty then .ok (processed, state) else .error (.budgetExceeded budget)
  | left + 1, processed, state =>
    match state.queue with
    | [] => .ok (processed, state)
    | update :: rest =>
      match process world update rest state with
      | .error e => .error e
      | .ok state => drain budget left (processed + 1) state

def start (initial : LightUpdate) : Propagation := ⟨.new, [initial], {initial}⟩

def apply (engine : LightEngine) (initial : LightUpdate) (budget : Option Int) :
    Except LightError LightPropagationResult × MainChunkSource :=
  let budget := budget.getD engine.defaultBudget
  if budget ≤ 0 then (.error .invalidBudget, world)
  else
    match drain world budget budget.toNat 0 (start initial) with
    | .error e => (.error e, world)
    | .ok (processed, state) =>
      match state.access.commit world with
      | (.error e, world) => (.error e, world)
      | (.ok changed, world) => (.ok ⟨processed, changed⟩, world)

end LightEngine

end Cobblestone.Light
