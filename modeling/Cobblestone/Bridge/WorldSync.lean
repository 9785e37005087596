import Cobblestone.Bridge.Replica
import Cobblestone.Lib.Effect
import Cobblestone.Lib.OrderedMap
import Cobblestone.Session.Sessions
import Cobblestone.Session.Task

namespace Cobblestone.Bridge

open Lib World Wire Session

abbrev maxSyncBatchPackets : Nat := 256

def codecLimits : CodecLimits :=
  ⟨2 * 1024 * 1024, 2 * 1024 * 1024, 2 * 1024 * 1024, 4 * 1024 * 1024, 2 * 1024 * 1024, 256⟩

inductive SyncError where
  | chunkWire (error : ChunkWireError)
  | codec (error : CodecError)
  | xOverflow
  | zOverflow
deriving DecidableEq, Repr

abbrev BlockChanges := Std.ExtTreeMap UInt16 UInt16

inductive PendingChunkSync where
  | blocks (blocks : BlockChanges)
  | fullChunk

-- A hash map whose order the sort below makes irrelevant.
abbrev PendingChanges := OrderedMap ChunkCoord PendingChunkSync

def insertBlocks (blocks : BlockChanges) : List (UInt16 × UInt16) → PendingChunkSync
  | [] => .blocks blocks
  | (index, state) :: changes =>
    let blocks := blocks.insert index state
    if maxPointBlockChanges < blocks.size then .fullChunk else insertBlocks blocks changes

def mergeChange (pending : PendingChanges) (position : ChunkCoord) : WorldChangeKind → PendingChanges
  | .fullChunk => pending.set position .fullChunk
  | .blocks changes =>
    match (pending.get? position).getD (.blocks ∅) with
    | .fullChunk => pending
    | .blocks blocks => pending.set position (insertBlocks blocks changes)

def pendingViewChanges (view : WorldView) (log : WorldChangeLog) : PendingChanges :=
  if log.cursorIsStale view.cursor then
    OrderedMap.setAll .empty .fullChunk view.pinnedChunks
  else
    (log.changes.filter fun change => decide (view.cursor < change.sequence)).foldl
      (fun pending change =>
        if viewContains view.center view.radius change.position then
          mergeChange pending change.position change.kind
        else pending) .empty

def i32 (n : Int) : Option Int32 :=
  if -2147483648 ≤ n ∧ n < 2147483648 then some (Int32.ofInt n) else none

-- `checked_mul` by the edge of a chunk, then `checked_add` of the offset in it.
def blockCoord (chunk : Int32) (offset : UInt16) : Option Int32 :=
  (i32 (chunk.toInt * 16)).bind fun base => i32 (base.toInt + offset.toNat)

def updateBlockPacket (position : ChunkCoord) (index state : UInt16) :
    Except SyncError RawPacket := do
  let y := ((index >>> 8) &&& 0x7f).toUInt8
  let x ← (blockCoord position.x (index &&& 0x0f)).elim (.error .xOverflow) .ok
  let z ← (blockCoord position.z ((index >>> 4) &&& 0x0f)).elim (.error .zOverflow) .ok
  (encodeUpdateBlock x y z state updateBlockFlagAllPriority).mapError .codec

def chunkPacket (world : WorldState) (position : ChunkCoord) :
    Except SyncError RawPacket × WorldState :=
  ((world.chunkWirePacket position).1.mapError .chunkWire, (world.chunkWirePacket position).2)

def changePackets (position : ChunkCoord) :
    PendingChunkSync → Effect SyncError WorldState (List RawPacket)
  | .fullChunk => do
    let packet ← Effect.ofOp fun world => chunkPacket world position
    pure [packet]
  | .blocks blocks => Effect.ofOp fun world =>
    (blocks.toList.mapM fun entry => updateBlockPacket position entry.1 entry.2, world)

def syncPackets : List (ChunkCoord × PendingChunkSync) → Effect SyncError WorldState (List RawPacket)
  | [] => pure []
  | (position, change) :: chunks => do
    let packets ← changePackets position change
    let rest ← syncPackets chunks
    pure (packets ++ rest)

-- The slices of `chunks(MAX_SYNC_BATCH_PACKETS)`.
def packetBatches (packets : List RawPacket) : List (List RawPacket) :=
  if packets.isEmpty then []
  else packets.take maxSyncBatchPackets :: packetBatches (packets.drop maxSyncBatchPackets)
  termination_by packets.length
  decreasing_by
    cases packets with
    | nil => simp at *
    | cons packet packets => simp

def inOrder (a b : ChunkCoord × PendingChunkSync) : Bool :=
  decide (a.1.x.toInt < b.1.x.toInt ∨ a.1.x = b.1.x ∧ a.1.z.toInt ≤ b.1.z.toInt)

def sortedChanges (pending : PendingChanges) : List (ChunkCoord × PendingChunkSync) :=
  pending.entries.mergeSort inOrder

def sessionPacket (packet : RawPacket) : SessionPacket := ⟨packet.id, packet.body⟩

def bootstrapSessionPacket (zlib : Zlib) (packet : BootstrapPacket) :
    Except CodecError SessionPacket :=
  (encodeBootstrapPacket zlib packet codecLimits).map sessionPacket

def batchPacket (zlib : Zlib) (packets : List RawPacket) : Except CodecError SessionPacket :=
  bootstrapSessionPacket zlib (.batch ⟨packets⟩)

inductive QueueResult where
  | sent
  | backpressured
  | gone
deriving DecidableEq, Repr

-- What queueing the batches of one view came to. The answers stand for the command queue of the
-- session, which its own task drains.
structure Queued where
  result : Except SyncError Bool
  accepted : List SessionPacket

def queueBatches (zlib : Zlib) (answer : Nat → QueueResult) (n : Nat) :
    List (List RawPacket) → Queued
  | [] => ⟨.ok true, []⟩
  | packets :: batches =>
    match batchPacket zlib packets with
    | .error e => ⟨.error (.codec e), []⟩
    | .ok batch =>
      match answer n with
      | .sent =>
        let rest := queueBatches zlib answer (n + 1) batches
        ⟨rest.result, batch :: rest.accepted⟩
      | .backpressured => ⟨.ok false, []⟩
      | .gone => ⟨.ok false, []⟩

structure Viewer (wire : Session.Wire) where
  state : SessionState wire
  accepted : List SessionPacket

def Viewer.accept {wire : Session.Wire} (viewer : Viewer wire) (packets : List SessionPacket) :
    Viewer wire := { viewer with accepted := viewer.accepted ++ packets }

section Flush

variable {wire : Session.Wire} (zlib : Zlib)

-- The flag says that the cursor of the view is to be advanced.
structure ViewFlush (wire : Session.Wire) where
  result : Except SyncError Bool
  queued : Nat
  world : WorldState
  viewer : Viewer wire

def flushView (log : WorldChangeLog) (answer : Nat → QueueResult) (world : WorldState)
    (viewer : Viewer wire) : ViewFlush wire :=
  match viewer.state.view with
  | none => ⟨.ok false, 0, world, viewer⟩
  | some view =>
    if view.cursor = log.latestSequence then ⟨.ok false, 0, world, viewer⟩
    else if (pendingViewChanges view log).entries.isEmpty then ⟨.ok true, 0, world, viewer⟩
    else
      match (syncPackets (sortedChanges (pendingViewChanges view log))).exec world with
      | (.error e, world) => ⟨.error e, 0, world, viewer⟩
      | (.ok packets, world) =>
        let queued := queueBatches zlib answer 0 (packetBatches packets)
        ⟨queued.result, queued.accepted.length, world, viewer.accept queued.accepted⟩

structure ViewsFlush (wire : Session.Wire) where
  error : Option SyncError
  queued : Nat
  world : WorldState
  viewers : List (Viewer wire × Bool)

-- An error ends the loop: the views after it are left as they are.
def flushViews (log : WorldChangeLog) (answer : Nat → Nat → QueueResult) (n : Nat)
    (world : WorldState) : List (Viewer wire) → ViewsFlush wire
  | [] => ⟨none, 0, world, []⟩
  | viewer :: viewers =>
    let flushed := flushView zlib log (answer n) world viewer
    match flushed.result with
    | .error e =>
      ⟨some e, flushed.queued, flushed.world, (flushed.viewer, false) :: viewers.map (·, false)⟩
    | .ok completed =>
      let rest := flushViews log answer (n + 1) flushed.world viewers
      ⟨rest.error, flushed.queued + rest.queued, rest.world,
        (flushed.viewer, completed) :: rest.viewers⟩

def Viewer.advance (cursor : Nat) (viewer : Viewer wire) (completed : Bool) : Viewer wire :=
  if completed then { viewer with state := (viewer.state.updateViewCursor cursor).2 } else viewer

def cursors (viewers : List (Viewer wire)) : List Nat :=
  viewers.filterMap fun viewer => viewer.state.view.map WorldView.cursor

-- `answer n` is how the queue of the n-th session takes its batches.
def flushWorldChanges (answer : Nat → Nat → QueueResult) (world : WorldState)
    (viewers : List (Viewer wire)) : Except SyncError Nat × WorldState × List (Viewer wire) :=
  let log := world.store.changes
  if (cursors viewers).isEmpty then
    (.ok 0, (WorldCall.pruneChangesThrough log.latestSequence).apply world, viewers)
  else if (cursors viewers).all fun cursor => decide (cursor = log.latestSequence) then
    (.ok 0, world, viewers)
  else
    let flushed := flushViews zlib log answer 0 world viewers
    match flushed.error with
    | some e => (.error e, flushed.world, flushed.viewers.map Prod.fst)
    | none =>
      let viewers := flushed.viewers.map fun entry => entry.1.advance log.latestSequence entry.2
      let through := (cursors viewers).min?.getD log.latestSequence
      (.ok flushed.queued, (WorldCall.pruneChangesThrough through).apply flushed.world, viewers)

end Flush

section Complete

variable {wire : Session.Wire}

def wirePackets : List ChunkCoord → Effect SyncError WorldState (List RawPacket)
  | [] => pure []
  | position :: positions => do
    let packet ← Effect.ofOp fun world => chunkPacket world position
    let rest ← wirePackets positions
    pure (packet :: rest)

-- `try_complete_chunk_work` holds the session's lock from the plan to the commit.
def tryCompleteChunkWork (answer : QueueResult) (rawChunks : List RawPacket) (world : WorldState)
    (viewer : Viewer wire) : Except StateError ChunkWorkCompletion × WorldState × Viewer wire :=
  match viewer.state.completionPlan (rawChunks.map sessionPacket) with
  | .error e => (.error e, world, viewer)
  | .ok plan =>
    match answer with
    | .backpressured => (.ok .backpressured, world, viewer)
    | .gone => (.ok .gone, world, viewer)
    | .sent =>
      let committed := viewer.state.commitPending world.store
      (committed.1.map fun _ => plan.initial.elim .complete .spawned,
        { world with store := committed.2.2 },
        { viewer with state := committed.2.1 }.accept plan.packets)

def handlePackets : List SessionPacket → SessionState wire → WorldStore →
    SessionState wire × WorldStore
  | [], st, store => (st, store)
  | packet :: packets, st, store =>
    let handled := (st.handlePacket packet store).2
    handlePackets packets handled.1 handled.2

inductive CompleteError where
  | noPendingWork
  | sync (error : SyncError)
  | state (error : StateError)
deriving DecidableEq

-- The inbound packets are those that the session's own task handles while the chunks are encoded.
def completeChunkWork (inbound : List SessionPacket) (answer : QueueResult) (world : WorldState)
    (viewer : Viewer wire) : Except CompleteError ChunkWorkCompletion × WorldState × Viewer wire :=
  match viewer.state.chunkWork with
  | none => (.error .noPendingWork, world, viewer)
  | some work =>
    match (wirePackets work.sendPositions).exec world with
    | (.error e, world) => (.error (.sync e), world, viewer)
    | (.ok packets, world) =>
      let handled := handlePackets inbound viewer.state world.store
      let tried := tryCompleteChunkWork answer packets { world with store := handled.2 }
        { viewer with state := handled.1 }
      (tried.1.mapError .state, tried.2)

end Complete

-- The session's packets under the codecs of the wire crate; the rest of what a session needs of
-- them, floats included, is arbitrary.
def codecWire (zlib : Zlib) (describe : CodecError → String) (rest : Session.Wire) : Session.Wire :=
  { rest with
    encodeBatch := fun packets =>
      (batchPacket zlib (packets.map fun packet => ⟨packet.id, packet.body⟩)).mapError describe
    playerSpawn := (bootstrapSessionPacket zlib (.playStatus ⟨3⟩)).mapError describe }

-- From here on: what a client makes of the packets, in the order the session accepted them.
abbrev ClientWorld := ChunkCoord → Option ClientChunk

namespace ClientWorld

def receive (client : ClientWorld) (packet : RawPacket) : ClientWorld :=
  if packet.id = fullChunkDataId then
    match readFullChunk packet.body with
    | none => client
    | some (x, z, chunk) => Function.update client ⟨x, z⟩ (some chunk)
  else if packet.id = PacketId.updateBlock then
    match runReader readUpdateBlock packet.body with
    | .error _ => client
    | .ok update =>
      let position : ChunkCoord := ⟨update.chunkX, update.chunkZ⟩
      Function.update client position
        ((client position).map fun chunk => chunk.setState update.index update.state)
  else client

def receiveSession (zlib : Zlib) (client : ClientWorld) (packet : SessionPacket) : ClientWorld :=
  if packet.id = PacketId.batch then
    match BatchPacket.decodeBody zlib packet.body codecLimits with
    | .error _ => client
    | .ok batch => batch.packets.foldl receive client
  else client.receive ⟨packet.id, packet.body⟩

end ClientWorld

def Viewer.client {wire : Session.Wire} (zlib : Zlib) (viewer : Viewer wire) : ClientWorld :=
  viewer.accepted.foldl (ClientWorld.receiveSession zlib) fun _ => none

end Cobblestone.Bridge
