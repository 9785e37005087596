import Cobblestone.Session.State
import Cobblestone.Lib.Trace

namespace Cobblestone.Session

open Lib World

inductive SessionDelivery where
  | unreliable
  | unreliableSequenced
  | reliable
  | reliableOrdered
  | reliableSequenced
deriving DecidableEq, Repr

inductive SessionCommand where
  | send (packet : SessionPacket) (delivery : SessionDelivery)
  | sendMany (packets : List (SessionPacket × SessionDelivery))
  | disconnect
deriving DecidableEq

inductive EndReason where
  | stateRejected (error : StateError)
  | eventQueueBackpressure
  | sendFailed
  | ownerDisconnect
  | commandChannelClosed
  | transportFailed
deriving DecidableEq

-- Where `run_session` stands between two atomic actions.
inductive TaskControl where
  | top
  | holding (packet : SessionPacket)
  | selecting
  | received (packet : SessionPacket)
  | reporting (action : InboundAction)
  | leaving (reason : EndReason)
  | unlisted (reason : EndReason)
  | finished
deriving DecidableEq

inductive HostError where
  | unknownSession
  | state (error : StateError)
  | commandBackpressure
  | commandClosed
deriving DecidableEq

inductive ChunkWorkCompletion where
  | complete
  | spawned (result : InitialViewResult)
  | backpressured
  | gone
deriving DecidableEq

-- `arrived` lists what the transport has delivered and `handled` what the state machine has taken
-- up: a packet put aside while login is pending has arrived and is not handled yet.
structure SessionTask (wire : Wire) where
  control : TaskControl
  state : SessionState wire
  commands : List SessionCommand
  capacity : Nat
  arrived : List SessionPacket
  handled : List SessionPacket

namespace SessionTask

variable {wire : Wire}

def new (wire : Wire) (maxChunkRadius : Int32) (capacity : Nat) : SessionTask wire where
  control := .top
  state := .new wire maxChunkRadius
  commands := []
  capacity := capacity
  arrived := []
  handled := []

def trySend (command : SessionCommand) (task : SessionTask wire) :
    Except HostError Unit × SessionTask wire :=
  if task.control = .finished then (.error .commandClosed, task)
  else if task.capacity ≤ task.commands.length then (.error .commandBackpressure, task)
  else (.ok (), { task with commands := task.commands ++ [command] })

def reliably (packets : List SessionPacket) : SessionCommand :=
  .sendMany (packets.map fun packet => (packet, .reliableOrdered))

-- The state stays locked from the acceptance to the roll back.
def acceptLogin (bootstrap : wire.Bootstrap) (task : SessionTask wire) :
    Except HostError Unit × SessionTask wire :=
  match task.state.acceptLogin bootstrap with
  | (.error e, state) => (.error (.state e), { task with state := state })
  | (.ok packets, state) =>
    match { task with state := state }.trySend (reliably packets) with
    | (.ok (), task) => (.ok (), task)
    | (.error e, task) =>
      (.error e, { task with state := task.state.rollbackLoginAcceptance })

def markChunkPrepared (position : ChunkCoord) (task : SessionTask wire) (store : WorldStore) :
    Except HostError Unit × SessionTask wire × WorldStore :=
  match task.state.markPreparedChunk position store with
  | (.ok (), state, store) => (.ok (), { task with state := state }, store)
  | (.error e, state, store) => (.error (.state e), { task with state := state }, store)

def tryCompleteChunkWork (rawChunks : List SessionPacket) (task : SessionTask wire)
    (store : WorldStore) : Except HostError ChunkWorkCompletion × SessionTask wire × WorldStore :=
  match task.state.completionPlan rawChunks with
  | .error e => (.error (.state e), task, store)
  | .ok plan =>
    match task.trySend (reliably plan.packets) with
    | (.error .commandBackpressure, task) => (.ok .backpressured, task, store)
    | (.error _, task) => (.ok .gone, task, store)
    | (.ok (), task) =>
      match task.state.commitPending store with
      | (.error e, state, store) => (.error (.state e), { task with state := state }, store)
      | (.ok _, state, store) =>
        (.ok (match plan.initial with
          | some result => .spawned result
          | none => .complete), { task with state := state }, store)

def updateViewCursor (cursor : Nat) (task : SessionTask wire) : Bool × SessionTask wire :=
  let (found, state) := task.state.updateViewCursor cursor
  (found, { task with state := state })

def endsWith (reason : EndReason) (task : SessionTask wire) : SessionTask wire :=
  { task with control := .leaving reason }

-- `process_inbound` up to the event: the packet is handled unless it is put aside again.
def process (packet : SessionPacket) (task : SessionTask wire) (store : WorldStore) :
    SessionTask wire × WorldStore :=
  let (result, state, store) := task.state.handlePacket packet store
  ({ task with
      state := state
      handled := if task.state.phase = .loginPending then task.handled
        else task.handled ++ [packet]
      control := match result with
        | .ok action => .reporting action
        | .error e => .leaving (.stateRejected e) }, store)

end SessionTask

inductive OwnerCall (wire : Wire) where
  | trySend (command : SessionCommand)
  | acceptLogin (bootstrap : wire.Bootstrap)
  | markChunkPrepared (position : ChunkCoord)
  | tryCompleteChunkWork (rawChunks : List SessionPacket)
  | updateViewCursor (cursor : Nat)

def OwnerCall.apply {wire : Wire} : OwnerCall wire → SessionTask wire → WorldStore →
    SessionTask wire × WorldStore
  | .trySend command, task, store => ((task.trySend command).2, store)
  | .acceptLogin bootstrap, task, store => ((task.acceptLogin bootstrap).2, store)
  | .markChunkPrepared position, task, store => (task.markChunkPrepared position store).2
  | .tryCompleteChunkWork rawChunks, task, store => (task.tryCompleteChunkWork rawChunks store).2
  | .updateViewCursor cursor, task, store => ((task.updateViewCursor cursor).2, store)

-- What a step of the task offers to the bounded event queue, and whether there was room.
inductive Offer where
  | nothing
  | inbound (action : InboundAction) (taken : Bool)
  | disconnected (reason : EndReason) (taken : Bool)
deriving DecidableEq

section

variable {wire : Wire} (cond : SessionTask wire → Prop)

inductive TaskStep : Offer → SessionTask wire × WorldStore → SessionTask wire × WorldStore → Prop
    where
  | takeDeferred {task : SessionTask wire} {store : WorldStore} {packet : SessionPacket}
      {state : SessionState wire} (hc : task.control = .top)
      (ht : task.state.takeDeferred = (some packet, state)) :
      TaskStep .nothing (task, store)
        ({ task with state := state, control := .holding packet }, store)
  | select {task : SessionTask wire} {store : WorldStore} {state : SessionState wire}
      (hc : task.control = .top) (ht : task.state.takeDeferred = (none, state)) :
      TaskStep .nothing (task, store) ({ task with state := state, control := .selecting }, store)
  | handleDeferred {task : SessionTask wire} {store : WorldStore} {packet : SessionPacket}
      (hc : task.control = .holding packet) :
      TaskStep .nothing (task, store) (task.process packet store)
  | receive {task : SessionTask wire} {store : WorldStore} (packet : SessionPacket)
      (hc : task.control = .selecting) :
      TaskStep .nothing (task, store)
        ({ task with control := .received packet, arrived := task.arrived ++ [packet] }, store)
  | handleReceived {task : SessionTask wire} {store : WorldStore} {packet : SessionPacket}
      (hc : task.control = .received packet) (hcond : cond task) :
      TaskStep .nothing (task, store) (task.process packet store)
  | consumed {task : SessionTask wire} {store : WorldStore}
      (hc : task.control = .reporting .consumed) :
      TaskStep .nothing (task, store) ({ task with control := .top }, store)
  | report {task : SessionTask wire} {store : WorldStore} {action : InboundAction}
      (hc : task.control = .reporting action) (ha : action ≠ .consumed) :
      TaskStep (.inbound action true) (task, store) ({ task with control := .top }, store)
  | reportFailed {task : SessionTask wire} {store : WorldStore} {action : InboundAction}
      (hc : task.control = .reporting action) (ha : action ≠ .consumed) :
      TaskStep (.inbound action false) (task, store) (task.endsWith .eventQueueBackpressure, store)
  | command {task : SessionTask wire} {store : WorldStore} {command : SessionCommand}
      {rest : List SessionCommand} (hc : task.control = .selecting)
      (hq : task.commands = command :: rest) (hd : command ≠ .disconnect) :
      TaskStep .nothing (task, store) ({ task with control := .top, commands := rest }, store)
  | commandFailed {task : SessionTask wire} {store : WorldStore} {command : SessionCommand}
      {rest : List SessionCommand} (hc : task.control = .selecting)
      (hq : task.commands = command :: rest) (hd : command ≠ .disconnect) :
      TaskStep .nothing (task, store) ({ task with commands := rest }.endsWith .sendFailed, store)
  | disconnect {task : SessionTask wire} {store : WorldStore} {rest : List SessionCommand}
      (hc : task.control = .selecting) (hq : task.commands = .disconnect :: rest) :
      TaskStep .nothing (task, store)
        ({ task with commands := rest }.endsWith .ownerDisconnect, store)
  | commandsClosed {task : SessionTask wire} {store : WorldStore} (hc : task.control = .selecting)
      (hq : task.commands = []) :
      TaskStep .nothing (task, store) (task.endsWith .commandChannelClosed, store)
  | receiveFailed {task : SessionTask wire} {store : WorldStore}
      (hc : task.control = .selecting) :
      TaskStep .nothing (task, store) (task.endsWith .transportFailed, store)
  | unlist {task : SessionTask wire} {store : WorldStore} {reason : EndReason}
      (hc : task.control = .leaving reason) :
      TaskStep .nothing (task, store)
        ({ task with control := .unlisted reason, state := task.state.released },
          task.state.drop store)
  | finish {task : SessionTask wire} {store : WorldStore} {reason : EndReason} (taken : Bool)
      (hc : task.control = .unlisted reason) :
      TaskStep (.disconnected reason taken) (task, store)
        ({ task with control := .finished }, store)

-- The task beside the owner's calls, each under the state lock and at any moment.
inductive SessionStep : SessionTask wire × WorldStore → SessionTask wire × WorldStore → Prop where
  | task {offer : Offer} {a b : SessionTask wire × WorldStore} (hs : TaskStep cond offer a b) :
      SessionStep a b
  | owner {task : SessionTask wire} {store : WorldStore} (call : OwnerCall wire) :
      SessionStep (task, store) (call.apply task store)

def SessionRun (maxChunkRadius : Int32) (capacity : Nat) (store : WorldStore)
    (a : SessionTask wire × WorldStore) : Prop :=
  Relation.ReflTransGen (SessionStep cond) (.new wire maxChunkRadius capacity, store) a

end

end Cobblestone.Session
