import Cobblestone.Session.Order
import Cobblestone.Session.Sessions

namespace Cobblestone.Session

open Lib World SessionTask

abbrev SessionId := Nat

inductive SessionHostEvent where
  | connected (sessionId : SessionId) (peer : String)
  | loginRequested (sessionId : SessionId)
  | packet (sessionId : SessionId) (packet : SessionPacket)
  | disconnected (sessionId : SessionId) (reason : EndReason)
deriving DecidableEq

def Offer.event (id : SessionId) : Offer → Option SessionHostEvent
  | .nothing => none
  | .inbound .loginRequested _ => some (.loginRequested id)
  | .inbound (.forward packet) _ => some (.packet id packet)
  | .inbound .consumed _ => none
  | .disconnected reason _ => some (.disconnected id reason)

def Offer.taken : Offer → Bool
  | .nothing => false
  | .inbound _ taken => taken
  | .disconnected _ taken => taken

structure HostEntry (wire : Wire) where
  id : SessionId
  listed : Bool
  task : SessionTask wire

-- `entries` are the sessions accepted so far, with `listed` for those in the registry; `enqueued`
-- records every event that found room.
structure SessionHost (wire : Wire) where
  store : WorldStore
  running : Bool
  entries : List (HostEntry wire)
  eventCapacity : Nat
  commandCapacity : Nat
  maxChunkRadius : Int32
  events : List SessionHostEvent
  enqueued : List SessionHostEvent

namespace SessionHost

variable {wire : Wire}

def start (wire : Wire) (eventCapacity commandCapacity : Nat) (maxChunkRadius : Int32) :
    SessionHost wire where
  store := WorldStore.new
  running := true
  entries := []
  eventCapacity := eventCapacity
  commandCapacity := commandCapacity
  maxChunkRadius := maxChunkRadius
  events := []
  enqueued := []

def HasRoom (host : SessionHost wire) : Prop := host.events.length < host.eventCapacity

instance (host : SessionHost wire) : Decidable host.HasRoom :=
  inferInstanceAs (Decidable (host.events.length < host.eventCapacity))

def enqueue (event : SessionHostEvent) (host : SessionHost wire) : SessionHost wire :=
  { host with events := host.events ++ [event], enqueued := host.enqueued ++ [event] }

def offer (event : Option SessionHostEvent) (host : SessionHost wire) : SessionHost wire :=
  match event with
  | none => host
  | some event => if host.HasRoom then host.enqueue event else host

def states (host : SessionHost wire) : Sessions wire :=
  ⟨host.store, host.entries.map fun entry => entry.task.state⟩

end SessionHost

def TaskControl.gone : TaskControl → Bool
  | .unlisted _ => true
  | .finished => true
  | _ => false

section

variable {wire : Wire}

def HostEntry.moved (entry : HostEntry wire) (task : SessionTask wire) : HostEntry wire :=
  { entry with task := task, listed := entry.listed && !task.control.gone }

def HostEntry.closed (entry : HostEntry wire) : HostEntry wire :=
  { entry with
    listed := false
    task := if entry.listed then (entry.task.trySend .disconnect).2 else entry.task }

variable (cond : SessionHost wire → Offer → Prop)

inductive HostStep : SessionHost wire → SessionHost wire → Prop where
  -- Without room for `Connected` the session is closed before it is registered.
  | accept {host : SessionHost wire} (id : SessionId) (peer : String) (hrun : host.running = true)
      (hfresh : ∀ entry ∈ host.entries, entry.id ≠ id) (hroom : host.HasRoom) :
      HostStep host { host.enqueue (.connected id peer) with
        entries := host.entries ++
          [⟨id, true, .new wire host.maxChunkRadius host.commandCapacity⟩] }
  | task {host : SessionHost wire} {before after : List (HostEntry wire)} {entry : HostEntry wire}
      {task : SessionTask wire} {store : WorldStore} {offer : Offer}
      (hentries : host.entries = before ++ entry :: after)
      (hstep : TaskStep (fun _ => True) offer (entry.task, host.store) (task, store))
      (htaken : ∀ event, offer.event entry.id = some event → (offer.taken = true ↔ host.HasRoom))
      (hcond : cond host offer) :
      HostStep host { host.offer (offer.event entry.id) with
        store := store, entries := before ++ entry.moved task :: after }
  | owner {host : SessionHost wire} {before after : List (HostEntry wire)} {entry : HostEntry wire}
      (hentries : host.entries = before ++ entry :: after) (hlisted : entry.listed = true)
      (call : OwnerCall wire) :
      HostStep host { host with
        store := (call.apply entry.task host.store).2
        entries := before ++ { entry with task := (call.apply entry.task host.store).1 } :: after }
  | recvEvent {host : SessionHost wire} {event : SessionHostEvent}
      {rest : List SessionHostEvent} (hevents : host.events = event :: rest) :
      HostStep host { host with events := rest }
  | world {host : SessionHost wire} (op : StoreOp) (hop : StoreOp.KeepsPins op) :
      HostStep host { host with store := op.apply host.store }
  | stop {host : SessionHost wire} (hrun : host.running = true) :
      HostStep host { host with running := false, entries := host.entries.map HostEntry.closed }

def HostRun (eventCapacity commandCapacity : Nat) (maxChunkRadius : Int32) :
    SessionHost wire → Prop :=
  Relation.ReflTransGen (HostStep cond)
    (.start wire eventCapacity commandCapacity maxChunkRadius)

end

variable {wire : Wire} {task : SessionTask wire} {store : WorldStore} {others : ChunkCoord → Nat}
  {host host' : SessionHost wire} {cond : SessionHost wire → Offer → Prop}

section Pins

theorem Balanced.released {st : SessionState wire} (h : Balanced others st store) :
    Balanced others st.released (st.drop store) where
  inv := ⟨fun _ hv => (nomatch hv), fun _ hw => (nomatch hw), fun _ hw => (nomatch hw),
    fun _ => rfl⟩
  balance p := h.drop p

theorem Balanced.process (h : Balanced others task.state store) (packet : SessionPacket) :
    Balanced others (task.process packet store).1.state (task.process packet store).2 :=
  h.handlePacket packet

theorem Balanced.taskStep {allowed : SessionTask wire → Prop} {offer : Offer}
    {a b : SessionTask wire × WorldStore} (h : Balanced others a.1.state a.2)
    (hs : TaskStep allowed offer a b) : Balanced others b.1.state b.2 := by
  cases hs with
  | takeDeferred hc ht =>
    have hd := h.takeDeferred
    rw [ht] at hd
    exact hd
  | select hc ht =>
    have hd := h.takeDeferred
    rw [ht] at hd
    exact hd
  | handleDeferred hc => exact h.process _
  | handleReceived hc hcond => exact h.process _
  | unlist hc => exact h.released
  | receive packet hc => exact h
  | consumed hc => exact h
  | report hc ha => exact h
  | reportFailed hc ha => exact h
  | command hc hq hd => exact h
  | commandFailed hc hq hd => exact h
  | disconnect hc hq => exact h
  | commandsClosed hc hq => exact h
  | receiveFailed hc => exact h
  | finish taken hc => exact h

theorem state_trySend (command : SessionCommand) (task : SessionTask wire) :
    (task.trySend command).2.state = task.state := by
  rcases trySend_cases command task with ⟨e, hs⟩ | hs <;> rw [hs]

theorem Balanced.acceptLoginCall (h : Balanced others task.state store)
    (bootstrap : wire.Bootstrap) : Balanced others (task.acceptLogin bootstrap).2.state store := by
  have ha := h.acceptLogin bootstrap
  rw [SessionTask.acceptLogin]
  generalize task.state.acceptLogin bootstrap = accepted at ha ⊢
  obtain ⟨result, state⟩ := accepted
  cases result with
  | error e => exact ha
  | ok packets =>
    dsimp only
    rcases trySend_cases (reliably packets) { task with state := state } with ⟨e, hs⟩ | hs
    · rw [hs]
      exact ha.rollbackLoginAcceptance
    · rw [hs]
      exact ha

theorem Balanced.markCall (h : Balanced others task.state store) (position : ChunkCoord) :
    Balanced others (task.markChunkPrepared position store).2.1.state
      (task.markChunkPrepared position store).2.2 := by
  have hm := h.markPreparedChunk position
  rw [SessionTask.markChunkPrepared]
  generalize task.state.markPreparedChunk position store = marked at hm ⊢
  obtain ⟨result, state, store'⟩ := marked
  cases result with
  | ok _ => exact hm
  | error e => exact hm

theorem Balanced.completeCall (h : Balanced others task.state store)
    (rawChunks : List SessionPacket) :
    Balanced others (task.tryCompleteChunkWork rawChunks store).2.1.state
      (task.tryCompleteChunkWork rawChunks store).2.2 := by
  have hc := h.commitPending
  rw [SessionTask.tryCompleteChunkWork]
  split
  · exact h
  · rename_i plan _
    rcases trySend_cases (reliably plan.packets) task with ⟨e, hs⟩ | hs
    · rw [hs]
      cases e <;> exact h
    · rw [hs]
      dsimp only
      generalize task.state.commitPending store = committed at hc ⊢
      obtain ⟨result, state, store'⟩ := committed
      cases result with
      | ok _ => exact hc
      | error e => exact hc

theorem Balanced.ownerCall (h : Balanced others task.state store) (call : OwnerCall wire) :
    Balanced others (call.apply task store).1.state (call.apply task store).2 := by
  cases call with
  | trySend command =>
    rw [OwnerCall.apply, state_trySend]
    exact h
  | acceptLogin bootstrap => exact h.acceptLoginCall bootstrap
  | markChunkPrepared position => exact h.markCall position
  | tryCompleteChunkWork rawChunks => exact h.completeCall rawChunks
  | updateViewCursor cursor => exact h.updateViewCursor cursor

theorem states_split {before after : List (HostEntry wire)} {entry : HostEntry wire}
    (hentries : host.entries = before ++ entry :: after) :
    host.states = ⟨host.store, before.map (fun e => e.task.state) ++
      entry.task.state :: after.map fun e => e.task.state⟩ := by
  rw [SessionHost.states, hentries, List.map_append, List.map_cons]

theorem states_replaced {before after : List (HostEntry wire)} {entry entry' : HostEntry wire}
    (h : SessionsInv host.states) (hentries : host.entries = before ++ entry :: after)
    (hb : ∀ others, Balanced others entry.task.state host.store →
      Balanced others entry'.task.state host'.store)
    (hentries' : host'.entries = before ++ entry' :: after) : SessionsInv host'.states := by
  rw [states_split hentries] at h
  rw [states_split hentries']
  exact h.replace (hb _ h.balanced)

@[simp] theorem offer_entries (event : Option SessionHostEvent) (host : SessionHost wire) :
    (host.offer event).entries = host.entries := by
  cases event with
  | none => rfl
  | some event =>
    rw [SessionHost.offer]
    split <;> rfl

-- The books of the pins hold for the whole host, whatever the tasks and the owner do.
theorem states_step (h : SessionsInv host.states) (hs : HostStep cond host host') :
    SessionsInv host'.states := by
  cases hs with
  | accept id peer hrun hfresh hroom =>
    have hconnect := h.step (.connect host.maxChunkRadius)
    have hstates : host.entries.map (fun e => e.task.state) ++
        [SessionState.new wire host.maxChunkRadius] =
        (host.entries ++ [(⟨id, true, .new wire host.maxChunkRadius host.commandCapacity⟩ :
          HostEntry wire)]).map fun e => e.task.state := by
      rw [List.map_append]
      rfl
    rw [hstates] at hconnect
    exact hconnect
  | task hentries hstep htaken hcond =>
    exact states_replaced h hentries (fun _ hb => hb.taskStep hstep) rfl
  | owner hentries hlisted call =>
    exact states_replaced h hentries (fun _ hb => hb.ownerCall call) rfl
  | recvEvent hevents => exact h
  | world op hop => exact h.step (.world op hop)
  | stop hrun =>
    have hstates : (host.entries.map HostEntry.closed).map (fun e => e.task.state) =
        host.entries.map fun e => e.task.state := by
      rw [List.map_map]
      refine List.map_congr_left fun entry _ => ?_
      simp only [Function.comp, HostEntry.closed]
      split
      · exact state_trySend ..
      · rfl
    have hstop : SessionsInv ⟨host.store,
        (host.entries.map HostEntry.closed).map fun e => e.task.state⟩ := by
      rw [hstates]
      exact h
    exact hstop

end Pins

theorem ids_replaced {before after : List (HostEntry wire)} {entry entry' : HostEntry wire}
    (h : (host.entries.map HostEntry.id).Nodup) (hentries : host.entries = before ++ entry :: after)
    (hid : entry'.id = entry.id) : ((before ++ entry' :: after).map HostEntry.id).Nodup := by
  rw [hentries] at h
  simpa only [List.map_append, List.map_cons, hid] using h

-- Session ids are never reused.
theorem ids_step (h : (host.entries.map HostEntry.id).Nodup) (hs : HostStep cond host host') :
    (host'.entries.map HostEntry.id).Nodup := by
  cases hs with
  | accept id peer hrun hfresh hroom =>
    rw [List.map_append]
    refine List.nodup_append.mpr ⟨h, List.nodup_singleton _, ?_⟩
    intro a ha b hb
    obtain ⟨entry, hentry, rfl⟩ := List.mem_map.mp ha
    rw [List.mem_singleton.mp hb]
    exact hfresh entry hentry
  | task hentries hstep htaken hcond => exact ids_replaced h hentries rfl
  | owner hentries hlisted call => exact ids_replaced h hentries rfl
  | recvEvent hevents => exact h
  | world op hop => exact h
  | stop hrun =>
    rw [List.map_map]
    exact h

theorem HostRun.ids {eventCapacity commandCapacity : Nat} {maxChunkRadius : Int32}
    (hrun : HostRun cond eventCapacity commandCapacity maxChunkRadius host) :
    (host.entries.map HostEntry.id).Nodup :=
  invariant_of_run (fun host => (host.entries.map HostEntry.id).Nodup) hrun List.nodup_nil
    fun _ _ h hs => ids_step h hs

end Cobblestone.Session
