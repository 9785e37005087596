import Cobblestone.Async.Load

namespace Cobblestone.Async

open Lib World Storage Region AsyncLoadService

variable {crates : Crates} {config : AsyncLoadConfig} {s t : AsyncLoadService config}
  {p : ChunkCoord}

theorem loadChunk_position {r : RegionFile} {chunk : StoredChunk}
    (h : loadChunk crates r p = .ok (some chunk)) : chunk.position = p := by
  rw [loadChunk, bind_ok_iff] at h
  obtain ⟨slot, -, h⟩ := h
  cases he : r.index.entries slot with
  | none =>
    rw [he] at h
    cases h
  | some entry =>
    rw [he, loadSlot, bind_ok_iff] at h
    obtain ⟨decoded, -, h⟩ := h
    simp only [bind_ok_iff, ensure_ok_iff, decide_eq_true_eq] at h
    obtain ⟨-, hp, h⟩ := h
    cases h
    exact hp

theorem LoadWork.position {c : LoadCompletion} (h : LoadWork crates p c) : c.position = p := by
  cases h with
  | unopened => rfl
  | absent => rfl
  | opened r =>
    cases hr : loadChunk crates r p with
    | error e => rfl
    | ok result =>
      cases result with
      | none => rfl
      | some chunk => exact loadChunk_position hr
  | panicked => rfl

theorem LoadWork.total (p : ChunkCoord) : ∃ c, LoadWork crates p c := ⟨_, .panicked p⟩

-- The requests for one position.
def loadLane (config : AsyncLoadConfig) (p : ChunkCoord) :
    Lane ChunkCoord LoadCompletion ChunkCoord config.workers where
  worker := route config p
  command q := if q = p then some p else none
  event c := if c.position = p then some p else none

theorem loadLane_respects : (loadLane config p).Respects (LoadWork crates) := by
  refine ⟨fun q c h => ?_⟩
  simp only [loadLane, h.position]

theorem loadLane_worker (q : ChunkCoord) (h : (loadLane config p).command q ≠ none) :
    route config q = (loadLane config p).worker := by
  simp only [loadLane, ne_eq, ite_eq_right_iff, not_forall, exists_prop] at h
  rw [h.1]
  rfl

def LoadCall.phase : LoadCall → ClientPhase
  | .idle | .receiving _ => .serving
  | .closing next => .closing next
  | .draining _ => .draining
  | .joining _ => .joining
  | .closed => .closed

def AsyncLoadService.client (s : AsyncLoadService config) :
    Client ChunkCoord LoadCompletion config.workers where
  pool := s.pool
  observed := s.observedStopped
  phase := s.call.phase
  accepted := s.queued
  received := s.received

theorem request_cases (s : AsyncLoadService config) (p : ChunkCoord) :
    (s.request p).2 = s ∨ (p ∉ s.inFlight ∧ s.pool.senders (route config p) = true ∧
      (s.request p).2 = s.enqueue p (s.pool.push (route config p) p)) := by
  rw [request]
  split
  · exact .inl rfl
  · rename_i hp
    split
    · rename_i pool hpool
      obtain ⟨hopen, rfl⟩ := Pool.trySend_ok hpool
      exact .inr ⟨hp, hopen, rfl⟩
    · exact .inl rfl
    · exact .inl rfl

theorem LoadStep.client (h : LoadStep crates s t) :
    (s.client.phase = .serving ∧ t.client = s.client) ∨
      ClientStep (LoadWork crates) (route config) config.completionCapacity s.client t.client := by
  have hphase {call : LoadCall} (hcall : s.call = call) : s.client.phase = call.phase := by
    rw [AsyncLoadService.client, hcall]
  cases h with
  | request hcall p =>
    rcases request_cases s p with he | ⟨-, hopen, he⟩
    · rw [he]
      exact .inl ⟨hphase hcall, rfl⟩
    · rw [he]
      exact .inr (.submit p (hphase hcall) hopen)
  | tryRecvCompletion hcall =>
    refine .inl ⟨hphase hcall, ?_⟩
    simp [AsyncLoadService.client, withCall, hcall, LoadCall.phase]
  | recvCompletionTimeout hcall =>
    refine .inl ⟨hphase hcall, ?_⟩
    simp [AsyncLoadService.client, withCall, hcall, LoadCall.phase]
  | @receiveEvent timed e rest hcall hc =>
    have hview : ((s.takeEvent rest e).receiveEvent timed e).client = s.client.receive rest e := by
      cases e with
      | completion c =>
        simp [AsyncLoadService.client, takeEvent, AsyncLoadService.receiveEvent, deliver, hcall, LoadCall.phase,
          Client.receive]
      | stopped =>
        rw [AsyncLoadService.receiveEvent]
        split <;> simp [AsyncLoadService.client, takeEvent, withCall, hcall, LoadCall.phase,
          Client.receive]
    rw [hview]
    exact .inr (.receive (.inl (hphase hcall)) hc)
  | receiveNothing hcall hc =>
    refine .inl ⟨hphase hcall, ?_⟩
    simp [AsyncLoadService.client, withCall, hcall, LoadCall.phase]
  | shutdown hcall => exact .inr (.shutdown (hphase hcall))
  | closeSender hcall => exact .inr (.closeSender (hphase hcall))
  | startDraining hcall => exact .inr (.startDraining (hphase hcall))
  | @drain completions e rest hcall ho hc =>
    have hview : ((s.takeEvent rest e).drainEvent completions e).client = s.client.receive rest e := by
      cases e <;> simp [AsyncLoadService.client, takeEvent, drainEvent, withCall, hcall,
        LoadCall.phase, Client.receive]
    rw [hview]
    exact .inr (.receive (.inr (hphase hcall)) hc)
  | dropReceiver hcall ho => exact .inr (.dropReceiver (hphase hcall) ho)
  | finish hcall hjoin => exact .inr (.join (hphase hcall) hjoin)
  | worker hw => exact .inr (.worker hw)

theorem LoadReachable.client (h : LoadReachable crates s) :
    ClientReachable (LoadWork crates) (route config) config.completionCapacity s.client := by
  refine simulation_of_run AsyncLoadService.client (fun a b hs => ?_) h
  rcases hs.client with ⟨-, he⟩ | hstep
  · exact .inl he
  · exact .inr hstep

theorem LoadReachable.laneBooks (h : LoadReachable crates s) (p : ChunkCoord) :
    (loadLane config p).Books s.client :=
  h.client.books loadLane_respects loadLane_worker

def AsyncLoadService.held (s : AsyncLoadService config) : List LoadCompletion :=
  match s.call with
  | .draining completions | .joining completions => completions
  | _ => []

def Flight (s : AsyncLoadService config) : Prop :=
  ∀ p, (loadLane config p).transit s.pool = if p ∈ s.inFlight then [p] else []

theorem Flight.enqueue (h : Flight s) (hp : p ∉ s.inFlight) :
    Flight (s.enqueue p (s.pool.push (route config p) p)) := by
  intro q
  rw [AsyncLoadService.enqueue, Lane.transit_push (loadLane_worker p), h q]
  by_cases hq : p = q
  · subst hq
    simp [hp, loadLane]
  · simp [loadLane, hq, Ne.symm hq]

theorem Flight.takeEvent (h : Flight s) {e : PoolEvent LoadCompletion}
    {rest : List (PoolEvent LoadCompletion)} (hc : s.pool.channel = e :: rest) :
    Flight (s.takeEvent rest e) := by
  intro q
  have hq := h q
  rw [Lane.transit_received hc] at hq
  cases e with
  | stopped => exact hq
  | completion c =>
    simp only [AsyncLoadService.takeEvent, Finset.mem_erase]
    by_cases hp : c.position = q
    · have hevent : (loadLane config q).poolEvent (.completion c) = some q := if_pos hp
      rw [hevent] at hq
      by_cases hin : q ∈ s.inFlight
      · simpa [hin, hp] using hq
      · simp [hin] at hq
    · have hevent : (loadLane config q).poolEvent (.completion c) = none := if_neg hp
      rw [hevent] at hq
      simpa [Ne.symm hp] using hq

theorem receiveEvent_frame (timed : Bool) (e : PoolEvent LoadCompletion) :
    (s.receiveEvent timed e).pool = s.pool ∧ (s.receiveEvent timed e).inFlight = s.inFlight := by
  cases e with
  | completion c => exact ⟨rfl, rfl⟩
  | stopped =>
    rw [receiveEvent]
    split <;> exact ⟨rfl, rfl⟩

theorem Flight.step (h : Flight s) (hreach : LoadReachable crates s) (hs : LoadStep crates s t) :
    Flight t := by
  cases hs with
  | request hcall p =>
    rcases request_cases s p with he | ⟨hp, -, he⟩
    · rw [he]
      exact h
    · rw [he]
      exact h.enqueue hp
  | tryRecvCompletion => exact h
  | recvCompletionTimeout => exact h
  | @receiveEvent timed e rest hcall hc =>
    intro q
    obtain ⟨hpool, hin⟩ := receiveEvent_frame (s := s.takeEvent rest e) timed e
    rw [hpool, hin]
    exact h.takeEvent hc q
  | receiveNothing => exact h
  | shutdown => exact h
  | closeSender => exact h
  | startDraining => exact h
  | @drain completions e rest hcall ho hc =>
    have hnext := h.takeEvent hc
    cases e <;> exact hnext
  | dropReceiver => exact h
  | finish hcall hjoin =>
    intro q
    have hbooks := hreach.laneBooks q
    have hdetached : s.client.phase.attached = false := by
      rw [AsyncLoadService.client, hcall]
      rfl
    obtain ⟨hexit, hqueue⟩ := hreach.client.inv.exited hdetached (loadLane config q).worker
    have hempty := hreach.client.inv.emptied hdetached
    simp only [AsyncLoadService.client] at hexit hqueue hempty
    simp [AsyncLoadService.finish, Lane.transit, hempty, hexit, hqueue, Lane.phase]
  | worker hw =>
    intro q
    have hinv := hreach.client.inv
    cases ha : s.client.phase.attached with
    | true =>
      rw [withPool, Lane.transit_step (hreach.laneBooks q).routed loadLane_respects
        (hinv.tidy ha).receiver hw]
      exact h q
    | false => exact absurd hw (not_step_of_exited fun i => (hinv.exited ha i).1)

theorem LoadReachable.flight (h : LoadReachable crates s) : Flight s := by
  induction h with
  | refl => exact fun p => rfl
  | tail hrun hs ih => exact ih.step hrun hs

theorem LoadReachable.seen (h : LoadReachable crates s) : s.received = s.delivered ++ s.held := by
  refine invariant_of_run (fun s => s.received = s.delivered ++ s.held) h rfl fun s t hseen hs => ?_
  cases hs with
  | request hcall p =>
    rcases request_cases s p with he | ⟨hp, -, he⟩
    · rw [he]
      exact hseen
    · rw [he]
      exact hseen
  | tryRecvCompletion hcall => simpa [held, withCall, hcall] using hseen
  | recvCompletionTimeout hcall => simpa [held, withCall, hcall] using hseen
  | @receiveEvent timed e rest hcall hc =>
    cases e with
    | completion c => simpa [held, takeEvent, receiveEvent, deliver, hcall] using hseen
    | stopped =>
      rw [receiveEvent]
      split <;> simpa [held, takeEvent, withCall, hcall] using hseen
  | receiveNothing hcall => simpa [held, withCall, hcall] using hseen
  | shutdown hcall => simpa [held, withCall, hcall] using hseen
  | closeSender hcall => simpa [held, withCall, withPool, hcall] using hseen
  | startDraining hcall => simpa [held, withCall, hcall] using hseen
  | @drain completions e rest hcall ho hc =>
    cases e with
    | completion c =>
      have hheld : s.received = s.delivered ++ completions := by simpa [held, hcall] using hseen
      simp [held, takeEvent, drainEvent, withCall, hheld]
    | stopped => simpa [held, takeEvent, drainEvent, hcall] using hseen
  | dropReceiver hcall => simpa [held, withCall, withPool, hcall] using hseen
  | finish hcall => simpa [held, AsyncLoadService.finish, hcall] using hseen
  | worker hw => exact hseen

namespace AsyncLoadService

-- Commands and completions for the position between the request and the receipt.
def outstanding (s : AsyncLoadService config) (p : ChunkCoord) : Nat :=
  (loadLane config p).outstanding s.pool

def queuedRequests (s : AsyncLoadService config) (p : ChunkCoord) : Nat := s.queued.count p

def answers (s : AsyncLoadService config) (p : ChunkCoord) : Nat :=
  s.delivered.countP fun c => c.position = p

structure Quiescent (crates : Crates) (s : AsyncLoadService config) : Prop where
  idle : s.call = .idle
  channel : s.pool.channel = []
  workers : ∀ pool, ¬ WorkerStep (LoadWork crates) config.completionCapacity s.pool pool

end AsyncLoadService

theorem length_commands (positions : List ChunkCoord) :
    (positions.filterMap (loadLane config p).command).length = positions.count p := by
  induction positions with
  | nil => rfl
  | cons q rest ih =>
    by_cases hq : q = p
    · subst hq
      simp [loadLane] at ih ⊢
      omega
    · simp [loadLane, hq] at ih ⊢
      omega

theorem length_events (completions : List LoadCompletion) :
    (completions.filterMap (loadLane config p).event).length =
      completions.countP fun c => c.position = p := by
  induction completions with
  | nil => rfl
  | cons c rest ih =>
    by_cases hc : c.position = p
    · simp [loadLane, hc] at ih ⊢
      omega
    · simp [loadLane, hc] at ih ⊢
      omega

theorem LoadReachable.outstanding_eq (h : LoadReachable crates s) (p : ChunkCoord) :
    s.outstanding p = if p ∈ s.inFlight then 1 else 0 := by
  have hrouted : (loadLane config p).Routed s.pool := (h.laneBooks p).routed
  rw [outstanding, hrouted.outstanding_eq, h.flight p]
  split <;> rfl

theorem LoadReachable.balance (h : LoadReachable crates s) (p : ChunkCoord) :
    s.queuedRequests p =
      s.answers p + (s.held.countP fun c => c.position = p) + s.outstanding p := by
  have hb := congrArg List.length (h.laneBooks p).balance
  have hrouted : (loadLane config p).Routed s.pool := (h.laneBooks p).routed
  rw [AsyncLoadService.client, List.length_append, length_commands, length_events, h.seen,
    List.countP_append] at hb
  rw [outstanding, hrouted.outstanding_eq]
  exact hb

theorem LoadReachable.closed (h : LoadReachable crates s) (hcall : s.call = .closed) :
    s.answers p = s.queuedRequests p := by
  have hphase : s.client.phase.attached = false := by
    rw [AsyncLoadService.client, hcall]
    rfl
  have hall := congrArg List.length ((h.laneBooks p).closed h.client.inv hphase)
  rw [AsyncLoadService.client, length_commands, length_events, h.seen, List.countP_append] at hall
  simpa [held, hcall, answers, queuedRequests] using hall

theorem LoadReachable.quiescent (h : LoadReachable crates s) (hq : s.Quiescent crates) :
    s.answers p = s.queuedRequests p := by
  have hphase : s.client.phase = .serving := by
    rw [AsyncLoadService.client, hq.idle]
    rfl
  have hall := congrArg List.length ((h.laneBooks p).quiescent h.client.inv hphase LoadWork.total
    (workers_pos config.valid).2 hq.channel hq.workers)
  rw [AsyncLoadService.client, length_commands, length_events, h.seen, List.countP_append] at hall
  simpa [held, hq.idle, answers, queuedRequests] using hall

theorem LoadReachable.moves (h : LoadReachable crates s)
    (hcall : s.call.phase.shuttingDown = true) : ∃ t, LoadStep crates s t := by
  have hmove : ShutdownMove (LoadWork crates) config.completionCapacity s.client :=
    h.client.inv.shutdown_move hcall LoadWork.total (workers_pos config.valid).2
  cases hc : s.call with
  | idle => rw [hc] at hcall; cases hcall
  | receiving => rw [hc] at hcall; cases hcall
  | closed => rw [hc] at hcall; cases hcall
  | closing next =>
    cases hmove with
    | closeSender i hp =>
      simp only [AsyncLoadService.client, hc, LoadCall.phase, ClientPhase.closing.injEq] at hp
      exact ⟨_, .closeSender (i := i) (hp ▸ hc)⟩
    | startDraining hp =>
      simp only [AsyncLoadService.client, hc, LoadCall.phase, ClientPhase.closing.injEq] at hp
      exact ⟨_, .startDraining (hp ▸ hc)⟩
    | receive e rest hp => simp [AsyncLoadService.client, hc, LoadCall.phase] at hp
    | dropReceiver hp => simp [AsyncLoadService.client, hc, LoadCall.phase] at hp
    | join hp => simp [AsyncLoadService.client, hc, LoadCall.phase] at hp
    | worker pool hw => exact ⟨_, .worker hw⟩
  | draining completions =>
    cases hmove with
    | closeSender i hp => simp [AsyncLoadService.client, hc, LoadCall.phase] at hp
    | startDraining hp => simp [AsyncLoadService.client, hc, LoadCall.phase] at hp
    | receive e rest hp ho hch => exact ⟨_, .drain hc ho hch⟩
    | dropReceiver hp hd => exact ⟨_, .dropReceiver hc hd⟩
    | join hp => simp [AsyncLoadService.client, hc, LoadCall.phase] at hp
    | worker pool hw => exact ⟨_, .worker hw⟩
  | joining completions =>
    exact ⟨_, .finish hc fun i => (h.client.inv.exited (by rw [AsyncLoadService.client, hc]; rfl) i).1⟩

theorem load_shutdown_terminates (hcall : s.call.phase.shuttingDown = true) :
    Acc (fun b a : AsyncLoadService config => LoadStep crates a b) s := by
  refine shutdown_acc AsyncLoadService.client (fun a b hs => hs.client) fun hp => ?_
  have hc : s.call.phase = .serving := hp
  rw [hc] at hcall
  cases hcall

theorem loads_accounted (h : LoadReachable crates s) :
    (∀ p, p ∈ s.inFlight ↔ s.outstanding p = 1) ∧
    (∀ p, s.outstanding p ≤ 1) ∧
    (∀ p, s.queuedRequests p =
      s.answers p + (s.held.countP fun c => c.position = p) + s.outstanding p) ∧
    (s.Quiescent crates → ∀ p, s.answers p = s.queuedRequests p) ∧
    (s.call.phase.shuttingDown = true →
      Acc (fun b a : AsyncLoadService config => LoadStep crates a b) s ∧
        ∃ t, LoadStep crates s t) ∧
    (s.call = .closed → ∀ p, s.answers p = s.queuedRequests p) := by
  refine ⟨fun p => ?_, fun p => ?_, h.balance, fun hq p => h.quiescent hq,
    fun hcall => ⟨load_shutdown_terminates hcall, h.moves hcall⟩, fun hcall p => h.closed hcall⟩
  · rw [h.outstanding_eq p]
    split <;> simp_all
  · rw [h.outstanding_eq p]
    split <;> omega

def oneLoader : AsyncLoadConfig where
  workers := 1
  queueCapacity := 1
  completionCapacity := 1
  valid := rfl

theorem loads_accounted_queued : ∃ s : AsyncLoadService oneLoader,
    LoadReachable Crates.reference s ∧ s.queued = [⟨3, 7⟩] ∧ ⟨3, 7⟩ ∈ s.inFlight ∧
      s.outstanding ⟨3, 7⟩ = 1 := by
  have hreach : LoadReachable Crates.reference ((start oneLoader).request ⟨3, 7⟩).2 :=
    Relation.ReflTransGen.refl.tail (.request rfl ⟨3, 7⟩)
  have hin : ⟨3, 7⟩ ∈ ((start oneLoader).request ⟨3, 7⟩).2.inFlight := by decide
  exact ⟨_, hreach, rfl, hin, ((loads_accounted hreach).1 ⟨3, 7⟩).mp hin⟩

end Cobblestone.Async
