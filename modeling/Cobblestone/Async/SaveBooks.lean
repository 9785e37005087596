import Cobblestone.Async.Save

namespace Cobblestone.Async

open Lib World Storage Region AsyncSaveService

-- What a completion has in common with the command it answers.
inductive Ticket where
  | save (position : ChunkCoord) (terrainRevision lightRevision : UInt64) (lifecycleFlags : UInt8)
  | compaction (region : RegionCoord)
deriving DecidableEq, Repr

namespace SaveCommand

def region : SaveCommand → RegionCoord
  | .save s => RegionCoord.forChunk s.position
  | .compact region => region

def kind : SaveCommand → CompletionKind
  | .save _ => .save
  | .compact _ => .compaction

def ticket : SaveCommand → Ticket
  | .save s => .save s.position s.terrainRevision s.lightRevision s.lifecycleFlags
  | .compact region => .compaction region

end SaveCommand

def SaveCompletion.ticket : SaveCompletion → Ticket
  | .saved r => .save r.position r.terrainRevision r.lightRevision r.lifecycleFlags
  | .failed f => .save f.position f.terrainRevision f.lightRevision f.lifecycleFlags

def CompactionCompletion.region : CompactionCompletion → RegionCoord
  | .compacted receipt => receipt.region
  | .failed failure => failure.region

namespace SaveEvent

def ticket : SaveEvent → Ticket
  | .completion c => c.ticket
  | .compaction c => .compaction c.region

def region : SaveEvent → RegionCoord
  | .completion (.saved r) => RegionCoord.forChunk r.position
  | .completion (.failed f) => RegionCoord.forChunk f.position
  | .compaction c => c.region

end SaveEvent

-- The commands of one kind for one region.
def saveLane (config : AsyncSaveConfig) (kind : CompletionKind) (region : RegionCoord) :
    Lane SaveCommand SaveEvent Ticket config.workers where
  worker := route config region
  command c := if c.kind = kind ∧ c.region = region then some c.ticket else none
  event e := if eventKind e = kind ∧ e.region = region then some e.ticket else none

variable {config : AsyncSaveConfig} {s t : AsyncSaveService config} {kind : CompletionKind}
  {region : RegionCoord}

theorem SaveWork.answers {c : SaveCommand} {e : SaveEvent} (h : SaveWork c e) :
    eventKind e = c.kind ∧ e.region = c.region ∧ e.ticket = c.ticket := by
  cases h with
  | save s outcome =>
    cases outcome with
    | finished result => cases result <;> exact ⟨rfl, rfl, rfl⟩
    | panicked => exact ⟨rfl, rfl, rfl⟩
  | compact region outcome =>
    cases outcome with
    | finished result => cases result <;> exact ⟨rfl, rfl, rfl⟩
    | panicked => exact ⟨rfl, rfl, rfl⟩

theorem SaveWork.total (c : SaveCommand) : ∃ e, SaveWork c e := by
  cases c with
  | save s => exact ⟨_, .save s .panicked⟩
  | compact region => exact ⟨_, .compact region .panicked⟩

theorem saveLane_respects : (saveLane config kind region).Respects SaveWork := by
  refine ⟨fun c e h => ?_⟩
  obtain ⟨hk, hr, ht⟩ := h.answers
  simp only [saveLane, hk, hr, ht]

theorem saveLane_worker (c : SaveCommand) (h : (saveLane config kind region).command c ≠ none) :
    route config c.region = (saveLane config kind region).worker := by
  simp only [saveLane, ne_eq, ite_eq_right_iff, not_forall, exists_prop] at h
  rw [h.1.2]
  rfl

namespace SaveCall

def phase : SaveCall → ClientPhase
  | .idle | .receiving _ _ => .serving
  | .closing next => .closing next
  | .draining _ => .draining
  | .joining _ => .joining
  | .closed => .closed

end SaveCall

def AsyncSaveService.client (s : AsyncSaveService config) :
    Client SaveCommand SaveEvent config.workers where
  pool := s.pool
  observed := s.observedStopped
  phase := s.call.phase
  accepted := s.accepted
  received := s.received

abbrev SaveClientStep (config : AsyncSaveConfig) :=
  ClientStep SaveWork (fun c : SaveCommand => route config c.region) config.completionCapacity

theorem submit_ok {command : SaveCommand} (h : s.submit command.region command = .ok t) :
    s.pool.senders (route config command.region) = true ∧
      t = { s with
        pool := s.pool.push (route config command.region) command
        accepted := s.accepted ++ [command] } := by
  rw [submit, bind_ok_iff] at h
  obtain ⟨pool, hp, ht⟩ := h
  obtain ⟨hopen, rfl⟩ := Pool.trySend_ok hp
  exact ⟨hopen, (Except.ok.inj ht).symm⟩

theorem trySave_cases (s : AsyncSaveService config) (snapshot : ChunkSnapshot) :
    (s.trySave snapshot).2 = s ∨
      s.submit (SaveCommand.save snapshot).region (.save snapshot) = .ok (s.trySave snapshot).2 := by
  rw [trySave]
  split
  · rename_i t ht
    exact .inr ht
  · exact .inl rfl
  · exact .inl rfl

theorem tryCompact_cases (s : AsyncSaveService config) (region : RegionCoord) :
    (s.tryCompact region).2 = s ∨
      s.submit (SaveCommand.compact region).region (.compact region) =
        .ok (s.tryCompact region).2 := by
  rw [tryCompact]
  split
  · rename_i t ht
    exact .inr ht
  · exact .inl rfl
  · exact .inl rfl

theorem submit_client {command : SaveCommand} (hcall : s.call = .idle)
    (h : s.submit command.region command = .ok t) : SaveClientStep config s.client t.client := by
  obtain ⟨hopen, rfl⟩ := submit_ok h
  exact .submit command (by rw [client, hcall]; rfl) hopen

theorem receive_client (hcall : s.call = .idle) (kind : CompletionKind) (timed : Bool) :
    (s.receive kind timed).client = s.client := by
  unfold AsyncSaveService.receive
  split <;> simp [client, deliver, hcall, SaveCall.phase]

theorem receiveEvent_client {timed : Bool} {e : PoolEvent SaveEvent}
    {rest : List (PoolEvent SaveEvent)} (hcall : s.call = .receiving kind timed) :
    ((s.takeEvent rest e).receiveEvent kind timed e).client = s.client.receive rest e := by
  cases e with
  | stopped =>
    rw [AsyncSaveService.receiveEvent]
    split <;> simp [client, takeEvent, observe, hcall, SaveCall.phase, Client.receive]
  | completion e =>
    rw [AsyncSaveService.receiveEvent]
    split
    · simp [client, takeEvent, deliver, hcall, SaveCall.phase, Client.receive]
    · cases e <;> simp [client, takeEvent, buffer, hcall, SaveCall.phase, Client.receive]

theorem drainEvent_client {completions : List SaveCompletion} {e : PoolEvent SaveEvent}
    {rest : List (PoolEvent SaveEvent)} (hcall : s.call = .draining completions) :
    ((s.takeEvent rest e).drainEvent completions e).client = s.client.receive rest e := by
  cases e with
  | stopped => rfl
  | completion e =>
    cases e <;> simp [client, takeEvent, drainEvent, buffer, hcall, SaveCall.phase, Client.receive]

theorem SaveStep.client (h : SaveStep s t) :
    (s.client.phase = .serving ∧ t.client = s.client) ∨ SaveClientStep config s.client t.client := by
  have hidle (hcall : s.call = .idle) : s.client.phase = .serving := by
    rw [AsyncSaveService.client, hcall]
    rfl
  have hphase {call : SaveCall} (hcall : s.call = call) : s.client.phase = call.phase := by
    rw [AsyncSaveService.client, hcall]
  cases h with
  | trySave hcall snapshot =>
    rcases trySave_cases s snapshot with he | hs
    · rw [he]
      exact .inl ⟨hidle hcall, rfl⟩
    · exact .inr (submit_client hcall hs)
  | tryCompact hcall region =>
    rcases tryCompact_cases s region with he | hs
    · rw [he]
      exact .inl ⟨hidle hcall, rfl⟩
    · exact .inr (submit_client hcall hs)
  | tryRecvCompletion hcall => exact .inl ⟨hidle hcall, receive_client hcall _ _⟩
  | tryRecvCompaction hcall => exact .inl ⟨hidle hcall, receive_client hcall _ _⟩
  | recvCompletionTimeout hcall => exact .inl ⟨hidle hcall, receive_client hcall _ _⟩
  | recvCompactionTimeout hcall => exact .inl ⟨hidle hcall, receive_client hcall _ _⟩
  | receiveEvent hcall hc =>
    rw [receiveEvent_client hcall]
    exact .inr (.receive (.inl (hphase hcall)) hc)
  | receiveNothing hcall hc =>
    refine .inl ⟨hphase hcall, ?_⟩
    simp [AsyncSaveService.client, withCall, hcall, SaveCall.phase]
  | shutdown hcall => exact .inr (.shutdown (hphase hcall))
  | closeSender hcall => exact .inr (.closeSender (hphase hcall))
  | startDraining hcall => exact .inr (.startDraining (hphase hcall))
  | drain hcall ho hc =>
    rw [drainEvent_client hcall]
    exact .inr (.receive (.inr (hphase hcall)) hc)
  | dropReceiver hcall ho => exact .inr (.dropReceiver (hphase hcall) ho)
  | finish hcall hjoin => exact .inr (.join (hphase hcall) hjoin)
  | worker hw => exact .inr (.worker hw)

theorem SaveReachable.client (h : SaveReachable s) :
    ClientReachable SaveWork (fun c : SaveCommand => route config c.region)
      config.completionCapacity s.client := by
  refine simulation_of_run AsyncSaveService.client (fun a b hs => ?_) h
  rcases hs.client with ⟨-, he⟩ | hstep
  · exact .inl he
  · exact .inr hstep

-- The completions that have left the channel and that no caller has seen.
def AsyncSaveService.held (s : AsyncSaveService config) : CompletionKind → List SaveEvent
  | .save =>
    match s.call with
    | .draining completions | .joining completions => completions.map .completion
    | .closed => []
    | _ => s.pendingCompletions.map .completion
  | .compaction =>
    match s.call with
    | .closed => []
    | _ => s.pendingCompactions.map .compaction

def ofKind (kind : CompletionKind) (events : List SaveEvent) : List SaveEvent :=
  events.filter fun e => eventKind e = kind

theorem ofKind_append (kind : CompletionKind) (a b : List SaveEvent) :
    ofKind kind (a ++ b) = ofKind kind a ++ ofKind kind b := List.filter_append ..

theorem ofKind_same {e : SaveEvent} (h : eventKind e = kind) : ofKind kind [e] = [e] := by
  simp [ofKind, h]

theorem ofKind_other {e : SaveEvent} (h : eventKind e ≠ kind) : ofKind kind [e] = [] := by
  simp [ofKind, h]

theorem ofKind_completions (completions : List SaveCompletion) :
    ofKind kind (completions.map .completion) =
      if kind = .save then completions.map .completion else [] := by
  cases kind <;> simp [ofKind, eventKind]

structure SaveBooks (s : AsyncSaveService config) : Prop where
  unbuffered : ∀ kind timed, s.call = .receiving kind timed → s.held kind = []
  seen : ∀ kind, s.call ≠ .closed ∨ kind = .save →
    ofKind kind s.received = ofKind kind s.delivered ++ s.held kind
  ordered : ∀ kind, ofKind kind s.delivered <+: ofKind kind s.received

theorem SaveBooks.start : SaveBooks (AsyncSaveService.start config) where
  unbuffered _ _ h := nomatch h
  seen kind _ := by cases kind <;> rfl
  ordered _ := List.prefix_rfl

-- Before the last join the order follows from the balance.
theorem SaveBooks.of_seen (hu : ∀ kind timed, s.call = .receiving kind timed → s.held kind = [])
    (hs : ∀ kind, ofKind kind s.received = ofKind kind s.delivered ++ s.held kind) :
    SaveBooks s where
  unbuffered := hu
  seen kind _ := hs kind
  ordered kind := by rw [hs kind]; exact List.prefix_append _ _

theorem SaveBooks.keep (h : SaveBooks s) (hc : s.call ≠ .closed)
    (hr : ∀ kind timed, t.call ≠ .receiving kind timed) (hheld : ∀ kind, t.held kind = s.held kind)
    (hrecv : t.received = s.received) (hdel : t.delivered = s.delivered) : SaveBooks t := by
  refine SaveBooks.of_seen (fun kind timed hk => absurd hk (hr kind timed)) fun kind => ?_
  rw [hrecv, hdel, hheld]
  exact h.seen kind (.inl hc)

theorem SaveBooks.submit {command : SaveCommand} (h : SaveBooks s) (hcall : s.call = .idle)
    (hs : s.submit command.region command = .ok t) : SaveBooks t := by
  obtain ⟨-, rfl⟩ := submit_ok hs
  refine h.keep (by simp [hcall]) (by simp [hcall]) (fun kind => ?_) rfl rfl
  cases kind <;> simp [held, hcall]

theorem SaveBooks.receive (h : SaveBooks s) (hcall : s.call = .idle) (kind : CompletionKind)
    (timed : Bool) : SaveBooks (s.receive kind timed) := by
  have hseen := fun kind => h.seen kind (.inl (by simp [hcall]))
  cases kind with
  | save =>
    cases hp : s.pendingCompletions with
    | nil =>
      simp only [AsyncSaveService.receive, hp]
      refine SaveBooks.of_seen (fun kind' timed' hk => ?_) fun kind' => ?_
      · cases hk
        simp [held]
      · have := hseen kind'
        cases kind' <;> simpa [held, hcall, hp] using this
    | cons c rest =>
      simp only [AsyncSaveService.receive, hp]
      refine SaveBooks.of_seen (fun _ _ hk => nomatch hk) fun kind' => ?_
      have := hseen kind'
      cases kind' <;> simpa [held, hcall, hp, deliver, ofKind, eventKind] using this
  | compaction =>
    cases hp : s.pendingCompactions with
    | nil =>
      simp only [AsyncSaveService.receive, hp]
      refine SaveBooks.of_seen (fun kind' timed' hk => ?_) fun kind' => ?_
      · cases hk
        simp [held]
      · have := hseen kind'
        cases kind' <;> simpa [held, hcall, hp] using this
    | cons c rest =>
      simp only [AsyncSaveService.receive, hp]
      refine SaveBooks.of_seen (fun _ _ hk => nomatch hk) fun kind' => ?_
      have := hseen kind'
      cases kind' <;> simpa [held, hcall, hp, deliver, ofKind, eventKind] using this

section Events

variable {e : PoolEvent SaveEvent} {rest : List (PoolEvent SaveEvent)} {timed : Bool}
  {completions : List SaveCompletion}

theorem SaveBooks.receiveEvent (h : SaveBooks s) (hcall : s.call = .receiving kind timed) :
    SaveBooks ((s.takeEvent rest e).receiveEvent kind timed e) := by
  have hempty := h.unbuffered kind timed hcall
  have hseen := fun kind => h.seen kind (.inl (by simp [hcall]))
  cases e with
  | stopped =>
    rw [AsyncSaveService.receiveEvent]
    split
    · refine SaveBooks.of_seen (fun _ _ hk => nomatch hk) fun kind' => ?_
      have := hseen kind'
      cases kind' <;> simpa [takeEvent, observe, held, hcall] using this
    · refine SaveBooks.of_seen (fun kind' timed' hk => ?_) fun kind' => ?_
      · cases hcall.symm.trans hk
        cases kind <;> simpa [takeEvent, observe, held, hcall] using hempty
      · have := hseen kind'
        cases kind' <;> simpa [takeEvent, observe, held, hcall] using this
  | completion e =>
    rw [AsyncSaveService.receiveEvent]
    split
    · rename_i hkind
      refine SaveBooks.of_seen (fun _ _ hk => nomatch hk) fun kind' => ?_
      have := hseen kind'
      subst hkind
      cases e <;> cases kind' <;>
        simp_all [takeEvent, deliver, held, eventKind, ofKind]
    · rename_i hkind
      refine SaveBooks.of_seen (fun kind' timed' hk => ?_) fun kind' => ?_
      · cases e <;> cases hcall.symm.trans hk <;> cases kind <;>
          simp_all [takeEvent, buffer, held, eventKind]
      · have := hseen kind'
        cases e <;> cases kind' <;> simp_all [takeEvent, buffer, held, eventKind, ofKind]

theorem SaveBooks.drain (h : SaveBooks s) (hcall : s.call = .draining completions) :
    SaveBooks ((s.takeEvent rest e).drainEvent completions e) := by
  have hseen := fun kind => h.seen kind (.inl (by simp [hcall]))
  cases e with
  | stopped =>
    refine SaveBooks.of_seen (fun _ _ hk => by simp [drainEvent, takeEvent, observe, hcall] at hk)
      fun kind' => ?_
    have := hseen kind'
    cases kind' <;> simpa [drainEvent, takeEvent, observe, held, hcall] using this
  | completion e =>
    cases e with
    | completion c =>
      refine SaveBooks.of_seen (fun _ _ hk => nomatch hk) fun kind' => ?_
      have := hseen kind'
      cases kind' <;> simp_all [drainEvent, takeEvent, held, ofKind, eventKind]
    | compaction c =>
      refine SaveBooks.of_seen (fun _ _ hk => by simp [drainEvent, takeEvent, buffer, hcall] at hk)
        fun kind' => ?_
      have := hseen kind'
      cases kind' <;> simp_all [drainEvent, takeEvent, buffer, held, ofKind, eventKind]

end Events

theorem SaveBooks.finish (h : SaveBooks s) {completions : List SaveCompletion}
    (hcall : s.call = .joining completions) : SaveBooks (s.finish completions) := by
  have hseen := fun kind => h.seen kind (.inl (by simp [hcall]))
  have hsave : ofKind .save s.received = ofKind .save (s.finish completions).delivered := by
    rw [AsyncSaveService.finish, ofKind_append, ofKind_completions, if_pos rfl, hseen .save]
    simp [held, hcall]
  refine ⟨fun _ _ hk => (nomatch hk), fun kind hk => ?_, fun kind => ?_⟩
  · rcases hk with hk | rfl
    · exact absurd rfl hk
    · exact hsave.trans (List.append_nil _).symm
  · cases kind with
    | save =>
      rw [← hsave]
      exact List.prefix_rfl
    | compaction =>
      rw [AsyncSaveService.finish, ofKind_append, ofKind_completions, if_neg (by decide),
        List.append_nil]
      exact h.ordered .compaction

theorem SaveBooks.step (h : SaveBooks s) (hs : SaveStep s t) : SaveBooks t := by
  cases hs with
  | trySave hcall snapshot =>
    rcases trySave_cases s snapshot with he | hsub
    · rw [he]
      exact h
    · exact h.submit hcall hsub
  | tryCompact hcall region =>
    rcases tryCompact_cases s region with he | hsub
    · rw [he]
      exact h
    · exact h.submit hcall hsub
  | tryRecvCompletion hcall => exact h.receive hcall .save false
  | tryRecvCompaction hcall => exact h.receive hcall .compaction false
  | recvCompletionTimeout hcall => exact h.receive hcall .save true
  | recvCompactionTimeout hcall => exact h.receive hcall .compaction true
  | receiveEvent hcall hc => exact h.receiveEvent hcall
  | receiveNothing hcall hc =>
    refine h.keep (by simp [hcall]) (by simp [withCall]) (fun kind => ?_) rfl rfl
    cases kind <;> simp [held, withCall, hcall]
  | shutdown hcall =>
    refine h.keep (by simp [hcall]) (by simp [withCall]) (fun kind => ?_) rfl rfl
    cases kind <;> simp [held, withCall, hcall]
  | closeSender hcall =>
    refine h.keep (by simp [hcall]) (by simp [withCall]) (fun kind => ?_) rfl rfl
    cases kind <;> simp [held, withCall, withPool, hcall]
  | startDraining hcall =>
    refine h.keep (by simp [hcall]) (by simp [startDraining]) (fun kind => ?_) rfl rfl
    cases kind <;> simp [held, startDraining, hcall]
  | drain hcall ho hc => exact h.drain hcall
  | dropReceiver hcall ho =>
    refine h.keep (by simp [hcall]) (by simp [withCall]) (fun kind => ?_) rfl rfl
    cases kind <;> simp [held, withCall, withPool, hcall]
  | finish hcall hjoin => exact h.finish hcall
  | worker hw => exact ⟨h.unbuffered, h.seen, h.ordered⟩

theorem SaveReachable.saveBooks (h : SaveReachable s) : SaveBooks s :=
  invariant_of_run SaveBooks h .start fun _ _ hb hs => hb.step hs

end Cobblestone.Async
