import Cobblestone.Async.SaveBooks

namespace Cobblestone.Async

open Lib World Storage Region AsyncSaveService

variable {config : AsyncSaveConfig} {s t : AsyncSaveService config} {kind : CompletionKind}
  {region : RegionCoord}

def SaveCall.shuttingDown (call : SaveCall) : Bool := call.phase.shuttingDown

namespace AsyncSaveService

def submitted (s : AsyncSaveService config) (kind : CompletionKind) (region : RegionCoord) :
    List Ticket :=
  s.accepted.filterMap (saveLane config kind region).command

def answered (s : AsyncSaveService config) (kind : CompletionKind) (region : RegionCoord) :
    List Ticket :=
  s.delivered.filterMap (saveLane config kind region).event

def outstanding (s : AsyncSaveService config) (kind : CompletionKind) (region : RegionCoord) :
    List Ticket :=
  (s.held kind).filterMap (saveLane config kind region).event ++
    (saveLane config kind region).transit s.pool

-- The workers have nothing to do and the main thread has looked at everything they sent.
structure Quiescent (s : AsyncSaveService config) (kind : CompletionKind) : Prop where
  idle : s.call = .idle
  channel : s.pool.channel = []
  workers : ∀ pool, ¬ WorkerStep SaveWork config.completionCapacity s.pool pool
  buffer : s.held kind = []

end AsyncSaveService

theorem saveLane_ofKind (events : List SaveEvent) :
    events.filterMap (saveLane config kind region).event =
      (ofKind kind events).filterMap (saveLane config kind region).event := by
  rw [ofKind, List.filterMap_filter]
  congr 1
  funext e
  by_cases hk : eventKind e = kind <;> simp [saveLane, hk]

theorem SaveReachable.laneBooks (h : SaveReachable s) (kind : CompletionKind)
    (region : RegionCoord) : (saveLane config kind region).Books s.client :=
  h.client.books saveLane_respects saveLane_worker

theorem SaveReachable.ordered (h : SaveReachable s) (kind : CompletionKind) (region : RegionCoord) :
    s.answered kind region <+: s.submitted kind region := by
  obtain ⟨later, hl⟩ := h.saveBooks.ordered kind
  have hb := (h.laneBooks kind region).balance
  refine ⟨later.filterMap (saveLane config kind region).event ++
    (saveLane config kind region).transit s.pool, ?_⟩
  rw [submitted, answered]
  refine Eq.trans ?_ hb.symm
  rw [saveLane_ofKind s.delivered, ← List.append_assoc, ← List.filterMap_append, hl,
    ← saveLane_ofKind]
  rfl

theorem SaveReachable.balance (h : SaveReachable s) (hk : s.call ≠ .closed ∨ kind = .save) :
    s.submitted kind region = s.answered kind region ++ s.outstanding kind region := by
  have hb := (h.laneBooks kind region).balance
  rw [submitted, answered, outstanding]
  refine hb.trans ?_
  have hseen := h.saveBooks.seen kind hk
  rw [saveLane_ofKind s.delivered, ← List.append_assoc, ← List.filterMap_append, ← hseen,
    ← saveLane_ofKind]
  rfl

theorem SaveReachable.quiescent (h : SaveReachable s) (hq : s.Quiescent kind) :
    s.answered kind region = s.submitted kind region := by
  have hphase : s.client.phase = .serving := by
    rw [AsyncSaveService.client, hq.idle]
    rfl
  have hall := (h.laneBooks kind region).quiescent h.client.inv hphase SaveWork.total
    (workers_pos config.valid).2 hq.channel hq.workers
  refine Eq.trans ?_ hall
  have hseen := h.saveBooks.seen kind (.inl (by simp [hq.idle]))
  rw [hq.buffer, List.append_nil] at hseen
  rw [answered, saveLane_ofKind, ← hseen, ← saveLane_ofKind]
  rfl

theorem SaveReachable.closed (h : SaveReachable s) (hcall : s.call = .closed) :
    s.answered .save region = s.submitted .save region := by
  have hphase : s.client.phase.attached = false := by
    rw [AsyncSaveService.client, hcall]
    rfl
  refine Eq.trans ?_ ((h.laneBooks .save region).closed h.client.inv hphase)
  have hseen := h.saveBooks.seen .save (.inr rfl)
  simp only [held, hcall, List.append_nil] at hseen
  rw [answered, saveLane_ofKind, ← hseen, ← saveLane_ofKind]
  rfl

theorem SaveReachable.moves (h : SaveReachable s) (hcall : s.call.shuttingDown = true) :
    ∃ t, SaveStep s t := by
  have hmove := h.client.inv.shutdown_move hcall SaveWork.total (workers_pos config.valid).2
  cases hc : s.call with
  | idle => rw [hc] at hcall; cases hcall
  | receiving => rw [hc] at hcall; cases hcall
  | closed => rw [hc] at hcall; cases hcall
  | closing next =>
    cases hmove with
    | closeSender i hp =>
      simp only [AsyncSaveService.client, hc, SaveCall.phase, ClientPhase.closing.injEq] at hp
      exact ⟨_, .closeSender (i := i) (hp ▸ hc)⟩
    | startDraining hp =>
      simp only [AsyncSaveService.client, hc, SaveCall.phase, ClientPhase.closing.injEq] at hp
      exact ⟨_, .startDraining (hp ▸ hc)⟩
    | receive e rest hp => simp [AsyncSaveService.client, hc, SaveCall.phase] at hp
    | dropReceiver hp => simp [AsyncSaveService.client, hc, SaveCall.phase] at hp
    | join hp => simp [AsyncSaveService.client, hc, SaveCall.phase] at hp
    | worker pool hw => exact ⟨_, .worker hw⟩
  | draining completions =>
    cases hmove with
    | closeSender i hp => simp [AsyncSaveService.client, hc, SaveCall.phase] at hp
    | startDraining hp => simp [AsyncSaveService.client, hc, SaveCall.phase] at hp
    | receive e rest hp ho hch => exact ⟨_, .drain hc ho hch⟩
    | dropReceiver hp hd => exact ⟨_, .dropReceiver hc hd⟩
    | join hp => simp [AsyncSaveService.client, hc, SaveCall.phase] at hp
    | worker pool hw => exact ⟨_, .worker hw⟩
  | joining completions =>
    exact ⟨_, .finish hc fun i => (h.client.inv.exited (by rw [AsyncSaveService.client, hc]; rfl) i).1⟩

theorem shutdown_terminates (hcall : s.call.shuttingDown = true) :
    Acc (fun b a : AsyncSaveService config => SaveStep a b) s := by
  refine shutdown_acc AsyncSaveService.client (fun a b hs => hs.client) fun hp => ?_
  have hc : s.call.phase = .serving := hp
  rw [SaveCall.shuttingDown, hc] at hcall
  cases hcall

theorem commands_answered_once (h : SaveReachable s) :
    (∀ kind region, s.answered kind region <+: s.submitted kind region) ∧
    (s.call ≠ .closed → ∀ kind region,
      s.submitted kind region = s.answered kind region ++ s.outstanding kind region) ∧
    (∀ kind region, s.Quiescent kind → s.answered kind region = s.submitted kind region) ∧
    (s.call.shuttingDown = true →
      Acc (fun b a : AsyncSaveService config => SaveStep a b) s ∧ ∃ t, SaveStep s t) ∧
    (s.call = .closed → ∀ region, s.answered .save region = s.submitted .save region) := by
  refine ⟨h.ordered, fun hcall kind region => h.balance (.inl hcall),
    fun kind region hq => h.quiescent hq, fun hcall => ⟨shutdown_terminates hcall, h.moves hcall⟩,
    fun hcall region => h.closed hcall⟩

section Run

def oneWorker : AsyncSaveConfig where
  workers := 1
  queueCapacity := 2
  completionCapacity := 2
  valid := rfl

def firstWorker : Fin oneWorker.workers := ⟨0, Nat.one_pos⟩

def spawnRegion : RegionCoord := ⟨0, 0⟩

def spawnSnapshot : ChunkSnapshot := ⟨⟨0, 0⟩, 1, 0, 3, ChunkData.empty 0⟩

def lostSave : SaveEvent := .completion (.failed (saveFailure spawnSnapshot (.storage .io)))

def lostCompaction : SaveEvent := .compaction (.failed ⟨spawnRegion, .storage .io⟩)

theorem lostSave_work : SaveWork (.save spawnSnapshot) lostSave :=
  .save spawnSnapshot (.finished (.error .io))

theorem lostCompaction_work : SaveWork (.compact spawnRegion) lostCompaction :=
  .compact spawnRegion (.finished (.error .io))

def submittedBoth : AsyncSaveService oneWorker :=
  (((start oneWorker).trySave spawnSnapshot).2.tryCompact spawnRegion).2

def servedBoth : AsyncSaveService oneWorker :=
  submittedBoth.withPool ((((submittedBoth.pool.take firstWorker [.compact spawnRegion] lostSave).emit firstWorker
    lostSave).take firstWorker [] lostCompaction).emit firstWorker lostCompaction)

theorem servedBoth_reachable : SaveReachable servedBoth := by
  have h1 : SaveReachable submittedBoth :=
    (Relation.ReflTransGen.refl.tail (.trySave rfl spawnSnapshot)).tail (.tryCompact rfl spawnRegion)
  have h2 := h1.tail (.worker (.take (i := firstWorker) rfl rfl lostSave_work))
  have h3 := h2.tail (.worker (.emit (i := firstWorker) rfl rfl (by decide)))
  have h4 := h3.tail (.worker (.take (i := firstWorker) rfl rfl lostCompaction_work))
  exact h4.tail (.worker (.emit (i := firstWorker) rfl rfl (by decide)))

def spawnTicket : Ticket := .save ⟨0, 0⟩ 1 0 3

def compactionTicket : Ticket := .compaction spawnRegion

theorem overtaken : ∃ s : AsyncSaveService oneWorker, SaveReachable s ∧
    s.accepted = [.save spawnSnapshot, .compact spawnRegion] ∧ s.delivered = [lostCompaction] := by
  have h1 := servedBoth_reachable.tail (.tryRecvCompaction rfl)
  have h2 := h1.tail (.receiveEvent rfl rfl)
  have h3 := h2.tail (.receiveEvent rfl rfl)
  exact ⟨_, h3, rfl, rfl⟩

theorem shut_down : ∃ s : AsyncSaveService oneWorker, SaveReachable s ∧ s.call = .closed ∧
    s.accepted = [.save spawnSnapshot, .compact spawnRegion] ∧ s.delivered = [lostSave] := by
  have h1 := servedBoth_reachable.tail (.shutdown rfl)
  have h2 := h1.tail (.closeSender (i := firstWorker) rfl)
  have h3 := h2.tail (.startDraining rfl)
  have h4 := h3.tail (.drain rfl (by decide) rfl)
  have h5 := h4.tail (.drain rfl (by decide) rfl)
  have h6 := h5.tail (.worker (.stop (i := firstWorker) rfl rfl rfl))
  have h7 := h6.tail (.worker (.announce (i := firstWorker) rfl rfl (by decide)))
  have h8 := h7.tail (.drain rfl (by decide) rfl)
  have h9 := h8.tail (.dropReceiver rfl (.inl (by decide)))
  have hexit : ∀ i : Fin oneWorker.workers, i = firstWorker := fun i =>
    Fin.ext (by have := i.isLt; simp [oneWorker] at this; simp [firstWorker]; omega)
  have h10 := h9.tail (.finish rfl fun i => by rw [hexit i]; rfl)
  exact ⟨_, h10, rfl, rfl, rfl⟩

theorem commands_answered_once_shut_down : ∃ s : AsyncSaveService oneWorker, SaveReachable s ∧
    s.call = .closed ∧ s.submitted .save spawnRegion = [spawnTicket] ∧
    s.answered .save spawnRegion = s.submitted .save spawnRegion := by
  obtain ⟨s, hreach, hcall, hacc, -⟩ := shut_down
  refine ⟨s, hreach, hcall, ?_, (commands_answered_once hreach).2.2.2.2 hcall spawnRegion⟩
  rw [submitted, hacc]
  rfl

theorem compaction_completion_overtakes_and_is_dropped :
    (∃ s : AsyncSaveService oneWorker, SaveReachable s ∧
      s.accepted.map SaveCommand.region = [spawnRegion, spawnRegion] ∧
      ¬ s.delivered.map SaveEvent.ticket <+: s.accepted.map SaveCommand.ticket) ∧
    ∃ s : AsyncSaveService oneWorker, SaveReachable s ∧ s.call = .closed ∧
      s.submitted .compaction spawnRegion = [compactionTicket] ∧
      s.answered .compaction spawnRegion = [] := by
  constructor
  · obtain ⟨s, hreach, hacc, hdel⟩ := overtaken
    refine ⟨s, hreach, ?_, ?_⟩
    · rw [hacc]
      rfl
    · rw [hacc, hdel]
      decide
  · obtain ⟨s, hreach, hcall, hacc, hdel⟩ := shut_down
    refine ⟨s, hreach, hcall, ?_, ?_⟩
    · rw [submitted, hacc]
      rfl
    · rw [answered, hdel]
      rfl

end Run

end Cobblestone.Async
