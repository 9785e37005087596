import Cobblestone.Session.Host

namespace Cobblestone.Session

open Lib World SessionTask

inductive CoordinatorError where
  | host (error : HostError)
  | noPendingWork
  | chunkMissing (position : ChunkCoord)
  | codec (message : String)
deriving DecidableEq

-- Where `Coordinator::tick` stands between two native calls.
inductive Coordinator where
  | idle
  | polling (afterSessionId : SessionId)
  | preparing (sessionId : SessionId) (positions : List ChunkCoord) (complete : Bool)
  | marking (sessionId : SessionId) (position : ChunkCoord) (rest : List ChunkCoord)
      (complete : Bool)
  | completing (sessionId : SessionId)
  | encoding (sessionId : SessionId) (sendPositions : List ChunkCoord)
  | submitting (sessionId : SessionId) (packets : List SessionPacket)
  | raised (error : CoordinatorError)
deriving DecidableEq

-- The session whose work item is in hand.
def Coordinator.holds : Coordinator → Option SessionId
  | .preparing id _ _ => some id
  | .marking id _ _ _ => some id
  | .completing id => some id
  | .encoding id _ => some id
  | .submitting id _ => some id
  | _ => none

namespace SessionHost

variable {wire : Wire}

def answersTo (id : SessionId) (entry : HostEntry wire) : Bool :=
  entry.listed && decide (entry.id = id)

def slot (host : SessionHost wire) (id : SessionId) : Option (HostEntry wire) :=
  host.entries.find? (answersTo id)

def pendingWork (host : SessionHost wire) (id : SessionId) : Option PendingWork :=
  (host.slot id).bind fun entry => entry.task.state.pending

def nextChunkWork (host : SessionHost wire) (after : SessionId) : Option (SessionId × ChunkWork) :=
  ((host.entries.filter fun entry => entry.listed && decide (after < entry.id)).mergeSort
    fun a b => decide (a.id ≤ b.id)).findSome?
      fun entry => entry.task.state.chunkWork.map fun work => (entry.id, work)

-- The first entry of the list that answers, with what stands around it.
structure SlotAt (host : SessionHost wire) (id : SessionId) (before : List (HostEntry wire))
    (entry : HostEntry wire) (after : List (HostEntry wire)) : Prop where
  entries : host.entries = before ++ entry :: after
  answers : answersTo id entry = true
  first : ∀ other ∈ before, answersTo id other = false

end SessionHost

open SessionHost

section

variable {wire : Wire} (calm : Coordinator → SessionHost wire → SessionHost wire → Prop)

inductive CoordinatorStep :
    Coordinator × SessionHost wire → Coordinator × SessionHost wire → Prop where
  -- The session tasks, the listener and the world go on between any two calls.
  | native {c : Coordinator} {host host' : SessionHost wire}
      (hs : HostStep (fun _ _ => True) host host') (hcalm : calm c host host') :
      CoordinatorStep (c, host) (c, host')
  | tick {host : SessionHost wire} : CoordinatorStep (.idle, host) (.polling 0, host)
  | pollNone {host : SessionHost wire} {after : SessionId}
      (hn : host.nextChunkWork after = none) :
      CoordinatorStep (.polling after, host) (.idle, host)
  | poll {host : SessionHost wire} {after id : SessionId} {work : ChunkWork}
      (hn : host.nextChunkWork after = some (id, work)) :
      CoordinatorStep (.polling after, host) (.preparing id work.positions true, host)
  -- The storage or the generator still has to produce the chunk.
  | skip {host : SessionHost wire} {id : SessionId} {position : ChunkCoord}
      {rest : List ChunkCoord} {complete : Bool} :
      CoordinatorStep (.preparing id (position :: rest) complete, host)
        (.preparing id rest false, host)
  | prepared {host : SessionHost wire} {id : SessionId} {position : ChunkCoord}
      {rest : List ChunkCoord} {complete : Bool}
      (hresident : host.store.containsChunk position = true) :
      CoordinatorStep (.preparing id (position :: rest) complete, host)
        (.marking id position rest complete, host)
  | mark {host : SessionHost wire} {id : SessionId} {position : ChunkCoord}
      {rest : List ChunkCoord} {complete : Bool} {before after : List (HostEntry wire)}
      {entry : HostEntry wire} {task : SessionTask wire} {store : WorldStore}
      (hslot : host.SlotAt id before entry after)
      (hm : entry.task.markChunkPrepared position host.store = (.ok (), task, store)) :
      CoordinatorStep (.marking id position rest complete, host) (.preparing id rest complete,
        { host with store := store, entries := before ++ { entry with task := task } :: after })
  | markFailed {host : SessionHost wire} {id : SessionId} {position : ChunkCoord}
      {rest : List ChunkCoord} {complete : Bool} {before after : List (HostEntry wire)}
      {entry : HostEntry wire} {task : SessionTask wire} {store : WorldStore} {error : HostError}
      (hslot : host.SlotAt id before entry after)
      (hm : entry.task.markChunkPrepared position host.store = (.error error, task, store)) :
      CoordinatorStep (.marking id position rest complete, host) (.raised (.host error),
        { host with store := store, entries := before ++ { entry with task := task } :: after })
  | markUnknown {host : SessionHost wire} {id : SessionId} {position : ChunkCoord}
      {rest : List ChunkCoord} {complete : Bool} (hslot : host.slot id = none) :
      CoordinatorStep (.marking id position rest complete, host)
        (.raised (.host .unknownSession), host)
  | incomplete {host : SessionHost wire} {id : SessionId} :
      CoordinatorStep (.preparing id [] false, host) (.polling id, host)
  | complete {host : SessionHost wire} {id : SessionId} :
      CoordinatorStep (.preparing id [] true, host) (.completing id, host)
  | chunkWork {host : SessionHost wire} {id : SessionId} {entry : HostEntry wire}
      {work : ChunkWork} (hslot : host.slot id = some entry)
      (hw : entry.task.state.chunkWork = some work) :
      CoordinatorStep (.completing id, host) (.encoding id work.sendPositions, host)
  | chunkWorkNone {host : SessionHost wire} {id : SessionId} {entry : HostEntry wire}
      (hslot : host.slot id = some entry) (hw : entry.task.state.chunkWork = none) :
      CoordinatorStep (.completing id, host) (.raised .noPendingWork, host)
  | chunkWorkUnknown {host : SessionHost wire} {id : SessionId} (hslot : host.slot id = none) :
      CoordinatorStep (.completing id, host) (.raised (.host .unknownSession), host)
  | encode {host : SessionHost wire} {id : SessionId} {positions : List ChunkCoord}
      (packets : List SessionPacket) (hlength : packets.length = positions.length)
      (hresident : ∀ p ∈ positions, host.store.containsChunk p = true) :
      CoordinatorStep (.encoding id positions, host) (.submitting id packets, host)
  | encodeMissing {host : SessionHost wire} {id : SessionId} {positions : List ChunkCoord}
      {position : ChunkCoord} (hmem : position ∈ positions)
      (hmissing : host.store.containsChunk position = false) :
      CoordinatorStep (.encoding id positions, host) (.raised (.chunkMissing position), host)
  | encodeFailed {host : SessionHost wire} {id : SessionId} {positions : List ChunkCoord}
      (message : String) :
      CoordinatorStep (.encoding id positions, host) (.raised (.codec message), host)
  | submit {host : SessionHost wire} {id : SessionId} {packets : List SessionPacket}
      {before after : List (HostEntry wire)} {entry : HostEntry wire} {task : SessionTask wire}
      {store : WorldStore} {completion : ChunkWorkCompletion}
      (hslot : host.SlotAt id before entry after)
      (hc : entry.task.tryCompleteChunkWork packets host.store = (.ok completion, task, store)) :
      CoordinatorStep (.submitting id packets, host) (.polling id,
        { host with store := store, entries := before ++ { entry with task := task } :: after })
  | submitFailed {host : SessionHost wire} {id : SessionId} {packets : List SessionPacket}
      {before after : List (HostEntry wire)} {entry : HostEntry wire} {task : SessionTask wire}
      {store : WorldStore} {error : HostError} (hslot : host.SlotAt id before entry after)
      (hc : entry.task.tryCompleteChunkWork packets host.store = (.error error, task, store)) :
      CoordinatorStep (.submitting id packets, host) (.raised (.host error),
        { host with store := store, entries := before ++ { entry with task := task } :: after })
  | submitUnknown {host : SessionHost wire} {id : SessionId} {packets : List SessionPacket}
      (hslot : host.slot id = none) :
      CoordinatorStep (.submitting id packets, host) (.raised (.host .unknownSession), host)

def CoordinatorRun (eventCapacity commandCapacity : Nat) (maxChunkRadius : Int32) :
    Coordinator × SessionHost wire → Prop :=
  Relation.ReflTransGen (CoordinatorStep calm)
    (.idle, .start wire eventCapacity commandCapacity maxChunkRadius)

end

-- Errors that the session's state gives for work it no longer has.
def StateError.Stale : StateError → Prop
  | .text message => message ∈ ["session has no pending chunk work",
      "session chunk work is not fully prepared",
      "initial chunk work lost prepared pins before commit",
      "pending view transition lost its active world view",
      "pending view transition no longer matches the active view",
      "view transition lost prepared entering pins before commit"]
  | .chunkNotInView _ _ => True
  | .packetCountMismatch _ _ => True
  | _ => False

def CoordinatorError.Stale : CoordinatorError → Prop
  | .host .unknownSession => True
  | .host (.state error) => error.Stale
  | .noPendingWork => True
  | .chunkMissing _ => True
  | _ => False

-- The session in hand stays registered with the work that was polled.
def Undisturbed {wire : Wire} (c : Coordinator) (host host' : SessionHost wire) : Prop :=
  ∀ id, c.holds = some id → host'.pendingWork id = host.pendingWork id

end Cobblestone.Session
