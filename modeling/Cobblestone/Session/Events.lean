import Cobblestone.Session.Host

namespace Cobblestone.Session

open Lib World SessionTask

variable {wire : Wire} {task : SessionTask wire} {store : WorldStore}
  {host host' : SessionHost wire} {id : SessionId}

def isConnected (id : SessionId) : SessionHostEvent → Bool
  | .connected other _ => decide (other = id)
  | _ => false

def isDisconnected (id : SessionId) : SessionHostEvent → Bool
  | .disconnected other _ => decide (other = id)
  | _ => false

theorem control_process (packet : SessionPacket) (task : SessionTask wire) (store : WorldStore) :
    (task.process packet store).1.control ≠ .finished := by
  rw [SessionTask.process]
  generalize task.state.handlePacket packet store = outcome
  obtain ⟨result, state, store'⟩ := outcome
  cases result <;> simp

-- Only its last action ends a task, and that action is the report.
theorem control_taskStep {allowed : SessionTask wire → Prop} {offer : Offer}
    {a b : SessionTask wire × WorldStore} (hs : TaskStep allowed offer a b) :
    a.1.control ≠ .finished ∧
      (b.1.control = .finished ↔ ∃ reason taken, offer = .disconnected reason taken) := by
  cases hs with
  | handleDeferred hc => exact ⟨by simp [hc], by simp [control_process]⟩
  | handleReceived hc _ => exact ⟨by simp [hc], by simp [control_process]⟩
  | takeDeferred hc _ => exact ⟨by simp [hc], by simp⟩
  | select hc _ => exact ⟨by simp [hc], by simp⟩
  | receive packet hc => exact ⟨by simp [hc], by simp⟩
  | consumed hc => exact ⟨by simp [hc], by simp⟩
  | report hc _ => exact ⟨by simp [hc], by simp⟩
  | reportFailed hc _ => exact ⟨by simp [hc], by simp [endsWith]⟩
  | command hc _ _ => exact ⟨by simp [hc], by simp⟩
  | commandFailed hc _ _ => exact ⟨by simp [hc], by simp [endsWith]⟩
  | disconnect hc _ => exact ⟨by simp [hc], by simp [endsWith]⟩
  | commandsClosed hc _ => exact ⟨by simp [hc], by simp [endsWith]⟩
  | receiveFailed hc => exact ⟨by simp [hc], by simp [endsWith]⟩
  | unlist hc => exact ⟨by simp [hc], by simp⟩
  | finish taken hc => exact ⟨by simp [hc], by simp⟩

theorem control_trySend (command : SessionCommand) (task : SessionTask wire) :
    (task.trySend command).2.control = task.control := by
  rcases trySend_cases command task with ⟨e, hs⟩ | hs <;> rw [hs]

theorem control_apply (call : OwnerCall wire) (task : SessionTask wire) (store : WorldStore) :
    (call.apply task store).1.control = task.control := by
  cases call with
  | trySend command => exact control_trySend command task
  | acceptLogin bootstrap =>
    rw [OwnerCall.apply, SessionTask.acceptLogin]
    split
    · rfl
    · rename_i packets state _
      have hsend := control_trySend (reliably packets) { task with state := state }
      split
      · rename_i sent hs
        rw [hs] at hsend
        exact hsend
      · rename_i e sent hs
        rw [hs] at hsend
        exact hsend
  | markChunkPrepared position =>
    rw [OwnerCall.apply, SessionTask.markChunkPrepared]
    split <;> rfl
  | tryCompleteChunkWork rawChunks =>
    rw [OwnerCall.apply, SessionTask.tryCompleteChunkWork]
    split
    · rfl
    · rename_i plan _
      rcases trySend_cases (reliably plan.packets) task with ⟨e, hs⟩ | hs
      · rw [hs]
        cases e <;> rfl
      · rw [hs]
        dsimp only
        split <;> rfl
  | updateViewCursor cursor => rfl

def HostEntry.hasId (id : SessionId) (entry : HostEntry wire) : Bool := decide (entry.id = id)

def HostEntry.over (id : SessionId) (entry : HostEntry wire) : Bool :=
  decide (entry.id = id) && decide (entry.task.control = .finished)

-- The queue has room when a task reports its end.
def Reported (host : SessionHost wire) (offer : Offer) : Prop :=
  ∀ reason taken, offer = .disconnected reason taken → host.HasRoom

structure EventBooks (host : SessionHost wire) : Prop where
  connects : ∀ id, host.enqueued.countP (isConnected id) = host.entries.countP (HostEntry.hasId id)
  disconnects : ∀ id,
    host.enqueued.countP (isDisconnected id) = host.entries.countP (HostEntry.over id)
  listed : ∀ entry ∈ host.entries, entry.listed = true → entry.task.control ≠ .finished

theorem enqueued_offer (event : Option SessionHostEvent) (host : SessionHost wire) :
    (host.offer event).enqueued = host.enqueued ++
      if host.HasRoom then event.toList else [] := by
  cases event with
  | none => simp [SessionHost.offer]
  | some event =>
    rw [SessionHost.offer]
    split <;> simp [SessionHost.enqueue]

theorem isConnected_offer (offer : Offer) (other id : SessionId) :
    (offer.event other).toList.countP (isConnected id) = 0 := by
  cases offer with
  | nothing => rfl
  | inbound action taken => cases action <;> simp [Offer.event, isConnected]
  | disconnected reason taken => simp [Offer.event, isConnected]

theorem isDisconnected_inbound (offer : Offer) (other id : SessionId)
    (h : ¬ ∃ reason taken, offer = .disconnected reason taken) :
    (offer.event other).toList.countP (isDisconnected id) = 0 := by
  cases offer with
  | nothing => rfl
  | inbound action taken => cases action <;> simp [Offer.event, isDisconnected]
  | disconnected reason taken => exact absurd ⟨reason, taken, rfl⟩ h

-- Replacing one entry by another of the same id.
theorem EventBooks.replace {before after : List (HostEntry wire)} {entry entry' : HostEntry wire}
    {events : List SessionHostEvent} (h : EventBooks host)
    (hentries : host.entries = before ++ entry :: after)
    (hentries' : host'.entries = before ++ entry' :: after) (hid : entry'.id = entry.id)
    (henqueued : host'.enqueued = host.enqueued ++ events)
    (hconnects : ∀ id, events.countP (isConnected id) = 0)
    (hdisconnects : ∀ id, events.countP (isDisconnected id) + [entry].countP (HostEntry.over id) =
      [entry'].countP (HostEntry.over id))
    (hlisted : entry'.listed = true → entry'.task.control ≠ .finished) : EventBooks host' where
  connects id := by
    have hc := h.connects id
    have hsame : HostEntry.hasId id entry' = HostEntry.hasId id entry := by
      rw [HostEntry.hasId, hid, HostEntry.hasId]
    rw [hentries, List.countP_append, List.countP_cons] at hc
    rw [hentries', henqueued, List.countP_append, List.countP_append, List.countP_cons, hconnects,
      hc, hsame, Nat.add_zero]
  disconnects id := by
    have hd := h.disconnects id
    have hstep := hdisconnects id
    rw [hentries, List.countP_append, List.countP_cons] at hd
    rw [hentries', henqueued, List.countP_append, List.countP_append, List.countP_cons, hd]
    simp only [List.countP_singleton] at hstep
    omega
  listed other ho := by
    rw [hentries'] at ho
    rcases List.mem_append.mp ho with ho | ho
    · exact h.listed other (hentries ▸ List.mem_append_left _ ho)
    · rcases List.mem_cons.mp ho with rfl | ho
      · exact hlisted
      · exact h.listed other (hentries ▸ List.mem_append_right _ (List.mem_cons_of_mem _ ho))

theorem EventBooks.accept (h : EventBooks host) (peer : String) :
    EventBooks { host.enqueue (.connected id peer) with
      entries := host.entries ++ [⟨id, true, .new wire host.maxChunkRadius host.commandCapacity⟩] }
    where
  connects other := by
    have hc := h.connects other
    rw [SessionHost.enqueue, List.countP_append, List.countP_append, hc]
    rfl
  disconnects other := by
    have hd := h.disconnects other
    rw [SessionHost.enqueue, List.countP_append, List.countP_append, hd]
    simp [isDisconnected, HostEntry.over, SessionTask.new]
  listed entry he := by
    rcases List.mem_append.mp he with he | he
    · exact h.listed entry he
    · rw [List.mem_singleton.mp he]
      exact fun _ hc => nomatch hc

theorem over_moved {entry : HostEntry wire} (hcontrol : task.control ≠ .finished) :
    [entry.moved task].countP (HostEntry.over id) = 0 := by
  simp [HostEntry.over, HostEntry.moved, hcontrol]

theorem EventBooks.taskStep {before after : List (HostEntry wire)} {entry : HostEntry wire}
    {offer : Offer} (h : EventBooks host) (hentries : host.entries = before ++ entry :: after)
    (hstep : TaskStep (fun _ => True) offer (entry.task, host.store) (task, store))
    (hcond : Reported host offer) :
    EventBooks { host.offer (offer.event entry.id) with
      store := store, entries := before ++ entry.moved task :: after } := by
  obtain ⟨hrunning, hfinished⟩ := control_taskStep hstep
  have hbefore : ∀ id, [entry].countP (HostEntry.over id) = 0 := by
    simp [HostEntry.over, hrunning]
  refine h.replace hentries rfl rfl (enqueued_offer _ host) (fun id => ?_) (fun id => ?_) ?_
  · split
    · exact isConnected_offer offer entry.id id
    · rfl
  · rw [hbefore, Nat.add_zero]
    by_cases hover : ∃ reason taken, offer = .disconnected reason taken
    · have hroom : host.HasRoom := by
        obtain ⟨reason, taken, ho⟩ := hover
        exact hcond reason taken ho
      have hend : task.control = .finished := hfinished.mpr hover
      obtain ⟨reason, taken, rfl⟩ := hover
      rw [if_pos hroom]
      simp only [Offer.event, Option.toList_some, List.countP_singleton, isDisconnected,
        HostEntry.over, HostEntry.moved, hend, decide_true, Bool.and_true]
      rfl
    · have hnot : task.control ≠ .finished := fun hc => hover (hfinished.mp hc)
      rw [over_moved hnot]
      split
      · exact isDisconnected_inbound offer entry.id id hover
      · rfl
  · intro hl hc
    simp only [HostEntry.moved] at hl hc
    rw [hc] at hl
    simp [TaskControl.gone] at hl

theorem closed_control (entry : HostEntry wire) :
    entry.closed.task.control = entry.task.control := by
  rw [HostEntry.closed]
  dsimp only
  split
  · exact control_trySend ..
  · rfl

theorem EventBooks.stop (h : EventBooks host) :
    EventBooks { host with running := false, entries := host.entries.map HostEntry.closed } where
  connects id := by
    rw [List.countP_map]
    exact h.connects id
  disconnects id := by
    have hsame : HostEntry.over id ∘ HostEntry.closed =
        (HostEntry.over id : HostEntry wire → Bool) := by
      funext entry
      simp only [Function.comp, HostEntry.over, closed_control]
      rfl
    rw [List.countP_map, hsame]
    exact h.disconnects id
  listed entry he hl := by
    obtain ⟨other, -, rfl⟩ := List.mem_map.mp he
    cases hl

theorem EventBooks.step (h : EventBooks host) (hs : HostStep Reported host host') :
    EventBooks host' := by
  cases hs with
  | accept id peer hrun hfresh hroom => exact h.accept peer
  | task hentries hstep htaken hcond => exact h.taskStep hentries hstep hcond
  | owner hentries hlisted call =>
    refine h.replace hentries rfl rfl (List.append_nil _).symm (fun _ => rfl) (fun id => ?_)
      fun hl => ?_
    · simp only [List.countP_nil, Nat.zero_add, HostEntry.over, List.countP_singleton,
        control_apply]
      rfl
    · rw [control_apply]
      exact h.listed _ (by rw [hentries]; simp) hl
  | recvEvent hevents => exact ⟨h.connects, h.disconnects, h.listed⟩
  | world op hop => exact ⟨h.connects, h.disconnects, h.listed⟩
  | stop hrun => exact h.stop

theorem HostRun.books {eventCapacity commandCapacity : Nat} {maxChunkRadius : Int32}
    (hrun : HostRun Reported eventCapacity commandCapacity maxChunkRadius host) : EventBooks host :=
  invariant_of_run EventBooks hrun
    ⟨fun _ => rfl, fun _ => rfl, fun _ he => (nomatch he)⟩
    fun _ _ h hs => h.step hs

-- The report is the last thing a task does, after it has left the registry.
def Paired (host : SessionHost wire) (id : SessionId) : Prop :=
  host.enqueued.countP (isConnected id) = 1 ∧ ∃ entry ∈ host.entries, entry.id = id ∧
    (entry.listed = true → host.enqueued.countP (isDisconnected id) = 0) ∧
    (entry.listed = false → host.enqueued.countP (isDisconnected id) = 1 ∨
      (host.enqueued.countP (isDisconnected id) = 0 ∧ entry.task.control ≠ .finished))

theorem countP_id (h : (host.entries.map HostEntry.id).Nodup) {entry : HostEntry wire}
    (he : entry ∈ host.entries) : host.entries.countP (HostEntry.hasId entry.id) = 1 := by
  have hcount := List.count_eq_one_of_mem h (List.mem_map_of_mem he)
  rw [List.count, List.countP_map] at hcount
  rw [← hcount]
  refine List.countP_congr fun other _ => ?_
  simp [HostEntry.hasId]

theorem countP_over (h : (host.entries.map HostEntry.id).Nodup) {entry : HostEntry wire}
    (he : entry ∈ host.entries) :
    host.entries.countP (HostEntry.over entry.id) =
      if entry.task.control = .finished then 1 else 0 := by
  obtain ⟨before, after, hentries⟩ := List.append_of_mem he
  have hone := countP_id h he
  have hle (l : List (HostEntry wire)) :
      l.countP (HostEntry.over entry.id) ≤ l.countP (HostEntry.hasId entry.id) :=
    List.countP_mono_left fun other _ ho => by
      simp only [HostEntry.over, Bool.and_eq_true] at ho
      exact ho.1
  have hbefore := hle before
  have hafter := hle after
  have hself : HostEntry.hasId entry.id entry = true := by simp [HostEntry.hasId]
  rw [hentries, List.countP_append, List.countP_cons, if_pos hself] at hone
  rw [hentries, List.countP_append, List.countP_cons]
  have hover : HostEntry.over entry.id entry = decide (entry.task.control = .finished) := by
    simp [HostEntry.over]
  rw [hover]
  simp only [decide_eq_true_eq]
  omega

section

variable (wire)

def firstSession : SessionId := 1

def joinedHost (eventCapacity : Nat) : SessionHost wire :=
  { SessionHost.start wire eventCapacity 1 1 with
    entries := [⟨firstSession, true, .new wire 1 1⟩]
    events := [.connected firstSession "peer"]
    enqueued := [.connected firstSession "peer"] }

theorem joinedHost_run (cond : SessionHost wire → Offer → Prop) {eventCapacity : Nat}
    (hcapacity : 0 < eventCapacity) :
    HostRun cond eventCapacity 1 1 (joinedHost wire eventCapacity) := by
  have hstep : HostStep cond (.start wire eventCapacity 1 1) (joinedHost wire eventCapacity) :=
    .accept firstSession "peer" rfl (fun _ he => nomatch he) hcapacity
  exact .single hstep

def unlistedTask : SessionTask wire :=
  { SessionTask.new wire 1 1 with control := .unlisted .transportFailed }

-- The peer is gone and the task has left the registry; its report is still to come.
def unlistedHost (eventCapacity : Nat) : SessionHost wire :=
  { joinedHost wire eventCapacity with entries := [⟨firstSession, false, unlistedTask wire⟩] }

end

theorem HostRun.silent {eventCapacity commandCapacity : Nat} {maxChunkRadius : Int32}
    {cond : SessionHost wire → Offer → Prop} {entry : HostEntry wire}
    (hcond : ∀ host, cond host .nothing)
    (hrun : HostRun cond eventCapacity commandCapacity maxChunkRadius host)
    (hentries : host.entries = [entry])
    (hstep : TaskStep (fun _ => True) .nothing (entry.task, host.store) (task, store)) :
    HostRun cond eventCapacity commandCapacity maxChunkRadius
      { host with store := store, entries := [entry.moved task] } := by
  have hsplit : host.entries = [] ++ entry :: [] := hentries
  exact hrun.tail (.task hsplit hstep (fun _ he => nomatch he) (hcond _))

theorem unlistedHost_run {eventCapacity : Nat} (hcapacity : 0 < eventCapacity)
    {cond : SessionHost wire → Offer → Prop} (hcond : ∀ host, cond host .nothing) :
    HostRun cond eventCapacity 1 1 (unlistedHost wire eventCapacity) := by
  have h₁ := joinedHost_run wire cond hcapacity
  have h₂ := h₁.silent hcond rfl (.select rfl rfl)
  have h₃ := h₂.silent hcond rfl (.receiveFailed rfl)
  exact h₃.silent hcond rfl (.unlist rfl)

end Cobblestone.Session
