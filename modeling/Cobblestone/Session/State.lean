import Cobblestone.Session.View

namespace Cobblestone.Session

open Lib World

abbrev maxDeferredPackets : Nat := 16

namespace PacketId

def login : UInt8 := 0x01
def movePlayer : UInt8 := 0x10
def requestChunkRadius : UInt8 := 0x3d
def chunkRadiusUpdated : UInt8 := 0x3e

end PacketId

structure SessionPacket where
  id : UInt8
  body : Bytes
deriving DecidableEq, Repr

inductive StateError where
  | text (message : String)
  | unexpectedPacket (expected : String) (id : UInt8)
  | chunkNotInView (x z : Int32)
  | packetCountMismatch (expected actual : Nat)
  | radiusBodyLength (length : Nat)
  | codec (message : String)
  | store (error : WorldStoreError)
deriving DecidableEq, Repr

-- The packet bodies and the float arithmetic behind them: what a body decodes to, the chunk of a
-- position, the streaming distance, and the encoders of the packets the session sends.
structure Wire where
  Position : Type
  Bootstrap : Type
  validateLogin : Bytes → Except String Unit
  decodeMovePlayer : Bytes → Except String Position
  validatePosition : Position → Except String ChunkCoord
  streamingDistancePriority : ChunkCoord → Position → Int32
  bootstrapPosition : Bootstrap → Position
  positionChunk : Position → ChunkCoord
  bootstrapPackets : Bootstrap → Except String (List SessionPacket)
  encodeBatch : List SessionPacket → Except String SessionPacket
  playerSpawn : Except String SessionPacket

structure PreparedChunks where
  attached : Bool
  pinned : List ChunkCoord
deriving DecidableEq

namespace PreparedChunks

def new : PreparedChunks := ⟨false, []⟩

def mark (expected : List ChunkCoord) (position : ChunkCoord) (prepared : PreparedChunks)
    (store : WorldStore) : Except StateError Unit × PreparedChunks × WorldStore :=
  if position ∉ expected then (.error (.chunkNotInView position.x position.z), prepared, store)
  else if position ∈ prepared.pinned then (.ok (), prepared, store)
  else
    match store.pinChunk position with
    | (.error e, store) => (.error (.store e), prepared, store)
    | (.ok _, store) => (.ok (), ⟨true, prepared.pinned ++ [position]⟩, store)

def unprepared (prepared : PreparedChunks) (expected : List ChunkCoord) : List ChunkCoord :=
  expected.filter fun position => !prepared.pinned.contains position

def isComplete (prepared : PreparedChunks) (expected : List ChunkCoord) : Bool :=
  decide (prepared.pinned.length = expected.length) && (prepared.unprepared expected).isEmpty

end PreparedChunks

def unpinAll (positions : List ChunkCoord) (store : WorldStore) : WorldStore :=
  positions.foldl (fun store position => (store.unpinChunk position).2) store

def PreparedChunks.drop (prepared : PreparedChunks) (store : WorldStore) : WorldStore :=
  if prepared.attached then unpinAll prepared.pinned store else store

structure WorldView where
  center : ChunkCoord
  radius : Int32
  cursor : Nat
  pinnedChunks : List ChunkCoord
deriving DecidableEq

def dropView (view : Option WorldView) (store : WorldStore) : WorldStore :=
  match view with
  | none => store
  | some view => unpinAll view.pinnedChunks store

inductive JoinPhase where
  | waitingLogin
  | loginPending
  | waitingChunkRadius
  | waitingInitialChunks
  | spawned
deriving DecidableEq, Repr

inductive ChunkWorkKind where
  | initial
  | view
deriving DecidableEq, Repr

inductive PendingWork where
  | initial (requestedRadius effectiveRadius : Int32) (center : ChunkCoord)
      (preparePositions sendPositions : List ChunkCoord) (prepared : PreparedChunks)
  | view (transition : ChunkViewTransition) (prepared : PreparedChunks)
deriving DecidableEq

namespace PendingWork

def kind : PendingWork → ChunkWorkKind
  | .initial .. => .initial
  | .view .. => .view

def preparePositions : PendingWork → List ChunkCoord
  | .initial _ _ _ preparePositions _ _ => preparePositions
  | .view transition _ => transition.entering

def sendPositions : PendingWork → List ChunkCoord
  | .initial _ _ _ _ sendPositions _ => sendPositions
  | .view transition _ => transition.entering

def prepared : PendingWork → PreparedChunks
  | .initial _ _ _ _ _ prepared => prepared
  | .view _ prepared => prepared

def withPrepared (prepared : PreparedChunks) : PendingWork → PendingWork
  | .initial requested effective center prepare send _ =>
    .initial requested effective center prepare send prepared
  | .view transition _ => .view transition prepared

end PendingWork

def dropPending (pending : Option PendingWork) (store : WorldStore) : WorldStore :=
  match pending with
  | none => store
  | some pending => pending.prepared.drop store

inductive InboundAction where
  | loginRequested
  | forward (packet : SessionPacket)
  | consumed
deriving DecidableEq, Repr

structure InitialViewResult where
  requestedRadius : Int32
  effectiveRadius : Int32
  chunksSent : Nat
  encodedBytes : Nat
deriving DecidableEq, Repr

structure CompletionPlan where
  packets : List SessionPacket
  initial : Option InitialViewResult

structure ChunkWork where
  kind : ChunkWorkKind
  positions : List ChunkCoord
  sendPositions : List ChunkCoord
deriving DecidableEq

structure SessionState (wire : Wire) where
  phase : JoinPhase
  maxChunkRadius : Int32
  position : Option wire.Position
  playerChunk : Option ChunkCoord
  desiredRadius : Option Int32
  view : Option WorldView
  pending : Option PendingWork
  deferred : List SessionPacket

def be32 (value : Int32) : Bytes := (toLE 4 value.toUInt32.toNat).reverse

def requestedChunkRadius (body : Bytes) : Except StateError Int32 :=
  match body with
  | [a, b, c, d] =>
    let radius := (UInt32.ofNat (ofLE [d, c, b, a])).toInt32
    if radius ≤ 0 then .error (.text "fixed-target chunk radius must be positive") else .ok radius
  | _ => .error (.radiusBodyLength body.length)

namespace SessionState

variable {wire : Wire}

def new (wire : Wire) (maxChunkRadius : Int32) : SessionState wire where
  phase := .waitingLogin
  maxChunkRadius := maxChunkRadius
  position := none
  playerChunk := none
  desiredRadius := none
  view := none
  pending := none
  deferred := []

-- Assigning `self.pending` drops the work that was there.
def setPending (st : SessionState wire) (pending : Option PendingWork) (store : WorldStore) :
    SessionState wire × WorldStore :=
  ({ st with pending := pending }, dropPending st.pending store)

def sameTransition (pending : Option PendingWork) (t : ChunkViewTransition) : Bool :=
  match pending with
  | some (.view current _) =>
    decide (current.fromCenter = t.fromCenter) && decide (current.fromRadius = t.fromRadius) &&
      decide (current.toCenter = t.toCenter) && decide (current.toRadius = t.toRadius)
  | _ => false

def planViewTransition (st : SessionState wire) (toCenter : ChunkCoord) (toRadius : Int32)
    (player : wire.Position) (store : WorldStore) :
    Except StateError Unit × SessionState wire × WorldStore :=
  match st.view with
  | none => (.error (.text "cannot plan chunk view without an active world view"), st, store)
  | some view =>
    match chunkViewTransition view.center view.radius toCenter toRadius with
    | none => (.ok (), { st with desiredRadius := none }.setPending none store)
    | some transition =>
      let transition := { transition with
        entering := prioritizeForPlayer (fun p => wire.streamingDistancePriority p player)
          transition.entering }
      if sameTransition st.pending transition then (.ok (), st, store)
      else (.ok (), st.setPending (some (.view transition .new)) store)

def liftCodec {α : Type} : Except String α → Except StateError α
  | .ok a => .ok a
  | .error message => .error (.codec message)

def handleWaitingLogin (packet : SessionPacket) (st : SessionState wire) :
    Except StateError InboundAction × SessionState wire :=
  if packet.id ≠ PacketId.login then (.error (.unexpectedPacket "Login" packet.id), st)
  else
    match wire.validateLogin packet.body with
    | .error message => (.error (.codec message), st)
    | .ok () => (.ok .loginRequested, { st with phase := .loginPending })

def handleLoginPending (packet : SessionPacket) (st : SessionState wire) :
    Except StateError InboundAction × SessionState wire :=
  if maxDeferredPackets ≤ st.deferred.length then
    (.error (.text "too many packets arrived while Login acceptance was pending"), st)
  else (.ok .consumed, { st with deferred := st.deferred ++ [packet] })

def initialWork (wire : Wire) (requested effective : Int32) (center : ChunkCoord)
    (player : wire.Position) : PendingWork :=
  .initial requested effective center
    (prioritizeForPlayer (fun p => wire.streamingDistancePriority p player)
      (viewPositions center effective))
    (initialSendPositions center effective) .new

def handleWaitingChunkRadius (packet : SessionPacket) (st : SessionState wire) (store : WorldStore) :
    Except StateError InboundAction × SessionState wire × WorldStore :=
  if packet.id ≠ PacketId.requestChunkRadius then
    (.error (.unexpectedPacket "RequestChunkRadius" packet.id), st, store)
  else
    match requestedChunkRadius packet.body, st.playerChunk, st.position with
    | .error e, _, _ => (.error e, st, store)
    | .ok _, none, _ => (.error (.text "accepted Login lost player spawn chunk"), st, store)
    | .ok _, some _, none => (.error (.text "accepted Login lost player spawn position"), st, store)
    | .ok requested, some center, some player =>
      let work := initialWork wire requested (min requested st.maxChunkRadius) center player
      (.ok .consumed, { st with phase := .waitingInitialChunks }.setPending (some work) store)

def handleWaitingInitialChunks (packet : SessionPacket) : Except StateError InboundAction :=
  if packet.id = PacketId.requestChunkRadius then .ok .consumed
  else .error (.unexpectedPacket "initial chunks are still loading" packet.id)

def handleMovePlayer (packet : SessionPacket) (st : SessionState wire) (store : WorldStore) :
    Except StateError Unit × SessionState wire × WorldStore :=
  match liftCodec (wire.decodeMovePlayer packet.body) with
  | .error e => (.error e, st, store)
  | .ok position =>
    match liftCodec (wire.validatePosition position) with
    | .error e => (.error e, st, store)
    | .ok chunk =>
      let st := { st with position := some position, playerChunk := some chunk }
      match st.desiredRadius, st.view with
      | some radius, _ => st.planViewTransition chunk radius position store
      | none, some view => st.planViewTransition chunk view.radius position store
      | none, none => (.error (.text "spawned session has no active chunk radius"), st, store)

def handleRadiusChange (packet : SessionPacket) (st : SessionState wire) (store : WorldStore) :
    Except StateError Unit × SessionState wire × WorldStore :=
  match requestedChunkRadius packet.body with
  | .error e => (.error e, st, store)
  | .ok requested =>
    let effective := min requested st.maxChunkRadius
    let st := { st with desiredRadius := some effective }
    match st.playerChunk, st.position with
    | none, _ => (.error (.text "spawned session has no player chunk"), st, store)
    | some _, none => (.error (.text "spawned session has no player position"), st, store)
    | some chunk, some position => st.planViewTransition chunk effective position store

def handleSpawned (packet : SessionPacket) (st : SessionState wire) (store : WorldStore) :
    Except StateError InboundAction × SessionState wire × WorldStore :=
  if packet.id = PacketId.movePlayer then
    let (result, st, store) := st.handleMovePlayer packet store
    (result.map fun _ => .forward packet, st, store)
  else if packet.id = PacketId.requestChunkRadius then
    let (result, st, store) := st.handleRadiusChange packet store
    (result.map fun _ => .forward packet, st, store)
  else (.ok (.forward packet), st, store)

def handlePacket (packet : SessionPacket) (st : SessionState wire) (store : WorldStore) :
    Except StateError InboundAction × SessionState wire × WorldStore :=
  match st.phase with
  | .waitingLogin =>
    let (result, st) := st.handleWaitingLogin packet
    (result, st, store)
  | .loginPending =>
    let (result, st) := st.handleLoginPending packet
    (result, st, store)
  | .waitingChunkRadius => st.handleWaitingChunkRadius packet store
  | .waitingInitialChunks => (handleWaitingInitialChunks packet, st, store)
  | .spawned => st.handleSpawned packet store

def takeDeferred (st : SessionState wire) : Option SessionPacket × SessionState wire :=
  if st.phase = .loginPending then (none, st)
  else
    match st.deferred with
    | [] => (none, st)
    | packet :: rest => (some packet, { st with deferred := rest })

def acceptLogin (bootstrap : wire.Bootstrap) (st : SessionState wire) :
    Except StateError (List SessionPacket) × SessionState wire :=
  if st.phase ≠ .loginPending then
    (.error (.text "session is not awaiting Login acceptance"), st)
  else
    match wire.bootstrapPackets bootstrap with
    | .error message => (.error (.codec message), st)
    | .ok packets =>
      (.ok packets, { st with
        position := some (wire.bootstrapPosition bootstrap)
        playerChunk := some (wire.positionChunk (wire.bootstrapPosition bootstrap))
        phase := .waitingChunkRadius })

def rollbackLoginAcceptance (st : SessionState wire) : SessionState wire :=
  if st.phase = .waitingChunkRadius ∧ st.pending = none ∧ st.view = none then
    { st with phase := .loginPending, position := none, playerChunk := none }
  else st

def chunkWork (st : SessionState wire) : Option ChunkWork :=
  st.pending.map fun pending =>
    { kind := pending.kind
      positions := pending.prepared.unprepared pending.preparePositions
      sendPositions := pending.sendPositions }

def markPreparedChunk (position : ChunkCoord) (st : SessionState wire) (store : WorldStore) :
    Except StateError Unit × SessionState wire × WorldStore :=
  match st.pending with
  | none => (.error (.text "session has no pending chunk work"), st, store)
  | some pending =>
    let (result, prepared, store) :=
      pending.prepared.mark pending.preparePositions position store
    (result, { st with pending := some (pending.withPrepared prepared) }, store)

def planPackets (wire : Wire) (rawChunks : List SessionPacket) :
    PendingWork → Except StateError CompletionPlan
  | .initial requested effective _ _ sendPositions _ => do
    let batch ← liftCodec (wire.encodeBatch rawChunks)
    let spawn ← liftCodec wire.playerSpawn
    pure {
      packets := [⟨PacketId.chunkRadiusUpdated, be32 effective⟩, batch, spawn]
      initial := some ⟨requested, effective, sendPositions.length, batch.body.length + 1⟩ }
  | .view transition _ => do
    let radius := if transition.fromRadius ≠ transition.toRadius then
      [(⟨PacketId.chunkRadiusUpdated, be32 transition.toRadius⟩ : SessionPacket)] else []
    let batch ← liftCodec (wire.encodeBatch (radius ++ rawChunks))
    pure ⟨[batch], none⟩

def completionPlan (rawChunks : List SessionPacket) (st : SessionState wire) :
    Except StateError CompletionPlan :=
  match st.pending with
  | none => .error (.text "session has no pending chunk work")
  | some pending => do
    ensure (pending.prepared.isComplete pending.preparePositions)
      (.text "session chunk work is not fully prepared")
    ensure (decide (rawChunks.length = pending.sendPositions.length))
      (.packetCountMismatch pending.sendPositions.length rawChunks.length)
    planPackets wire rawChunks pending

-- `self.pending.take()` moves the work out: on an error it is dropped with its pins.
def failCommit (message : String) (st : SessionState wire) (prepared : PreparedChunks)
    (store : WorldStore) :
    Except StateError (Option InitialViewResult) × SessionState wire × WorldStore :=
  (.error (.text message), st, prepared.drop store)

def commitInitial (requested effective : Int32) (center : ChunkCoord)
    (sendPositions : List ChunkCoord) (prepared : PreparedChunks) (st : SessionState wire)
    (store : WorldStore) :
    Except StateError (Option InitialViewResult) × SessionState wire × WorldStore :=
  if prepared.isComplete sendPositions = false ∧
      prepared.isComplete (viewPositions center effective) = false then
    failCommit "initial chunk work lost prepared pins before commit" st prepared store
  else if prepared.attached = false then
    failCommit "initial chunk work has no native world store" st prepared store
  else
    let view : WorldView :=
      ⟨center, effective, store.changes.latestSequence, viewPositions center effective⟩
    (.ok (some ⟨requested, effective, sendPositions.length, 0⟩),
      { st with view := some view, phase := .spawned, desiredRadius := none },
      dropView st.view store)

def commitView (transition : ChunkViewTransition) (prepared : PreparedChunks)
    (st : SessionState wire) (store : WorldStore) :
    Except StateError (Option InitialViewResult) × SessionState wire × WorldStore :=
  match st.view with
  | none => failCommit "pending view transition lost its active world view" st prepared store
  | some view =>
    if view.center ≠ transition.fromCenter ∨ view.radius ≠ transition.fromRadius then
      failCommit "pending view transition no longer matches the active view" st prepared store
    else if prepared.isComplete transition.entering = false then
      failCommit "view transition lost prepared entering pins before commit" st prepared store
    else
      (.ok none,
        { st with
          view := some { view with
            center := transition.toCenter
            radius := transition.toRadius
            pinnedChunks := viewPositions transition.toCenter transition.toRadius }
          desiredRadius := none },
        unpinAll transition.leaving store)

def commitPending (st : SessionState wire) (store : WorldStore) :
    Except StateError (Option InitialViewResult) × SessionState wire × WorldStore :=
  match st.pending with
  | none => (.error (.text "session has no pending chunk work"), st, store)
  | some (.initial requested effective center _ sendPositions prepared) =>
    { st with pending := none }.commitInitial requested effective center sendPositions prepared store
  | some (.view transition prepared) =>
    { st with pending := none }.commitView transition prepared store

def updateViewCursor (cursor : Nat) (st : SessionState wire) : Bool × SessionState wire :=
  match st.view with
  | none => (false, st)
  | some view => (true, { st with view := some { view with cursor := cursor } })

def drop (st : SessionState wire) (store : WorldStore) : WorldStore :=
  dropPending st.pending (dropView st.view store)

-- What is left of the state once its owner has dropped it: no view, no work, no pins.
def released (st : SessionState wire) : SessionState wire := { st with view := none, pending := none }

end SessionState

def spawnChunk : ChunkCoord := ⟨0, 0⟩

def quietWire : Wire where
  Position := Unit
  Bootstrap := Unit
  validateLogin _ := .ok ()
  decodeMovePlayer _ := .ok ()
  validatePosition _ := .ok spawnChunk
  streamingDistancePriority _ _ := 0
  bootstrapPosition _ := ()
  positionChunk _ := spawnChunk
  bootstrapPackets _ := .ok []
  encodeBatch _ := .ok ⟨0xfe, []⟩
  playerSpawn := .ok ⟨0x02, [0, 0, 0, 3]⟩

end Cobblestone.Session
