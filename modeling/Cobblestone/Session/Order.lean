import Cobblestone.Session.Task

namespace Cobblestone.Session

open Lib World SessionTask

variable {wire : Wire} {st st' : SessionState wire} {store store' : WorldStore}
  {task : SessionTask wire}

section Deferred

theorem deferred_planViewTransition (st : SessionState wire) (toCenter : ChunkCoord)
    (toRadius : Int32) (player : wire.Position) (store : WorldStore) :
    (st.planViewTransition toCenter toRadius player store).2.1.deferred = st.deferred ∧
      (st.planViewTransition toCenter toRadius player store).2.1.phase = st.phase := by
  rw [SessionState.planViewTransition]
  split
  · exact ⟨rfl, rfl⟩
  · split
    · exact ⟨rfl, rfl⟩
    · dsimp only
      split
      · exact ⟨rfl, rfl⟩
      · exact ⟨rfl, rfl⟩

theorem deferred_handleMovePlayer (st : SessionState wire) (packet : SessionPacket)
    (store : WorldStore) :
    (st.handleMovePlayer packet store).2.1.deferred = st.deferred ∧
      (st.handleMovePlayer packet store).2.1.phase = st.phase := by
  rw [SessionState.handleMovePlayer]
  split
  · exact ⟨rfl, rfl⟩
  · split
    · exact ⟨rfl, rfl⟩
    · dsimp only
      split
      · exact deferred_planViewTransition ..
      · exact deferred_planViewTransition ..
      · exact ⟨rfl, rfl⟩

theorem deferred_handleRadiusChange (st : SessionState wire) (packet : SessionPacket)
    (store : WorldStore) :
    (st.handleRadiusChange packet store).2.1.deferred = st.deferred ∧
      (st.handleRadiusChange packet store).2.1.phase = st.phase := by
  rw [SessionState.handleRadiusChange]
  split
  · exact ⟨rfl, rfl⟩
  · dsimp only
    split
    · exact ⟨rfl, rfl⟩
    · exact ⟨rfl, rfl⟩
    · exact deferred_planViewTransition ..

-- Outside of the pending login no packet is put aside.
theorem deferred_handlePacket (hphase : st.phase ≠ .loginPending) (packet : SessionPacket)
    (store : WorldStore) : (st.handlePacket packet store).2.1.deferred = st.deferred := by
  rw [SessionState.handlePacket]
  cases h : st.phase with
  | waitingLogin =>
    simp only [SessionState.handleWaitingLogin]
    split
    · rfl
    · split
      · rfl
      · rfl
  | loginPending => exact absurd h hphase
  | waitingChunkRadius =>
    simp only [SessionState.handleWaitingChunkRadius]
    split
    · rfl
    · split
      · rfl
      · rfl
      · rfl
      · rfl
  | waitingInitialChunks => rfl
  | spawned =>
    simp only [SessionState.handleSpawned]
    split
    · exact (deferred_handleMovePlayer st packet store).1
    · split
      · exact (deferred_handleRadiusChange st packet store).1
      · rfl

theorem handlePacket_pending (hphase : st.phase = .loginPending) (packet : SessionPacket)
    (store : WorldStore) :
    (∃ e, (st.handlePacket packet store).1 = .error e) ∨
      (st.handlePacket packet store).2.1.deferred = st.deferred ++ [packet] := by
  simp only [SessionState.handlePacket, hphase, SessionState.handleLoginPending]
  split
  · exact .inl ⟨_, rfl⟩
  · exact .inr rfl

theorem takeDeferred_some {packet : SessionPacket} (h : st.takeDeferred = (some packet, st')) :
    st.phase ≠ .loginPending ∧
      ∃ rest, st.deferred = packet :: rest ∧ st' = { st with deferred := rest } := by
  rw [SessionState.takeDeferred] at h
  split at h
  · cases h
  · rename_i hphase
    split at h
    · cases h
    · rename_i packet' rest hd
      cases h
      exact ⟨hphase, rest, hd, rfl⟩

theorem takeDeferred_none (h : st.takeDeferred = (none, st')) :
    st' = st ∧ (st.phase = .loginPending ∨ st.deferred = []) := by
  rw [SessionState.takeDeferred] at h
  split at h
  · rename_i hphase
    cases h
    exact ⟨rfl, .inl hphase⟩
  · split at h
    · rename_i hd
      cases h
      exact ⟨rfl, .inr hd⟩
    · cases h

end Deferred

-- Before the initial chunks are asked for there is neither a view nor pending work.
def Early (st : SessionState wire) : Prop :=
  st.phase ≠ .waitingInitialChunks → st.phase ≠ .spawned → st.pending = none ∧ st.view = none

-- The owner never reorders packets, never returns to the pending login, and wakes the task whenever
-- it accepts one.
structure OwnerKeeps (a b : SessionTask wire) : Prop where
  control : b.control = a.control
  arrived : b.arrived = a.arrived
  handled : b.handled = a.handled
  deferred : b.state.deferred = a.state.deferred
  early : Early b.state
  phase : a.state.phase ≠ .loginPending → b.state.phase ≠ .loginPending
  commands : a.commands ≠ [] → b.commands ≠ []
  woken : a.state.phase = .loginPending → b.state.phase ≠ .loginPending → b.commands ≠ []

theorem OwnerKeeps.state (he : Early st) (hd : st.deferred = task.state.deferred)
    (hp : st.phase = task.state.phase) : OwnerKeeps task { task with state := st } :=
  ⟨rfl, rfl, rfl, hd, he, fun h => hp ▸ h, id, fun h hne => absurd (hp.trans h) hne⟩

theorem OwnerKeeps.refl (he : Early task.state) : OwnerKeeps task task := .state he rfl rfl

theorem OwnerKeeps.pushed {queue : List SessionCommand} (he : Early st)
    (hd : st.deferred = task.state.deferred)
    (hp : task.state.phase ≠ .loginPending → st.phase ≠ .loginPending) (hq : queue ≠ []) :
    OwnerKeeps task { task with state := st, commands := queue } :=
  ⟨rfl, rfl, rfl, hd, he, hp, fun _ => hq, fun _ _ => hq⟩

theorem trySend_cases (command : SessionCommand) (task : SessionTask wire) :
    (∃ e, task.trySend command = (.error e, task)) ∨
      task.trySend command = (.ok (), { task with commands := task.commands ++ [command] }) := by
  rw [SessionTask.trySend]
  split
  · exact .inl ⟨_, rfl⟩
  · split
    · exact .inl ⟨_, rfl⟩
    · exact .inr rfl

theorem OwnerKeeps.trySend (he : Early task.state) (command : SessionCommand) :
    OwnerKeeps task (task.trySend command).2 := by
  rcases trySend_cases command task with ⟨e, hs⟩ | hs
  · rw [hs]
    exact .refl he
  · rw [hs]
    exact .pushed he rfl id (by simp)

theorem accepted {bootstrap : wire.Bootstrap} {packets : List SessionPacket}
    (h : st.acceptLogin bootstrap = (.ok packets, st')) :
    st.phase = .loginPending ∧ st'.phase = .waitingChunkRadius ∧ st'.deferred = st.deferred ∧
      st'.pending = st.pending ∧ st'.view = st.view := by
  rw [SessionState.acceptLogin] at h
  split at h
  · cases h
  · rename_i hphase
    split at h
    · cases h
    · cases h
      exact ⟨not_not.mp hphase, rfl, rfl, rfl, rfl⟩

theorem acceptLogin_error {bootstrap : wire.Bootstrap} {e : StateError}
    (h : st.acceptLogin bootstrap = (.error e, st')) : st' = st := by
  rw [SessionState.acceptLogin] at h
  split at h
  · cases h
    rfl
  · split at h
    · cases h
      rfl
    · cases h

-- A full or closed command queue takes the acceptance back before anyone can see it.
theorem OwnerKeeps.acceptLogin (he : Early task.state) (bootstrap : wire.Bootstrap) :
    OwnerKeeps task (task.acceptLogin bootstrap).2 := by
  rw [SessionTask.acceptLogin]
  cases h : task.state.acceptLogin bootstrap with
  | mk result state =>
    cases result with
    | error e =>
      rw [acceptLogin_error h]
      exact .refl he
    | ok packets =>
      obtain ⟨hphase, hnext, hd, hpending, hview⟩ := accepted h
      obtain ⟨hnone, hempty⟩ := he (by simp [hphase]) (by simp [hphase])
      rw [← hpending] at hnone
      rw [← hview] at hempty
      dsimp only
      rcases trySend_cases (reliably packets) { task with state := state } with ⟨e, hs⟩ | hs
      · rw [hs]
        dsimp only
        rw [SessionState.rollbackLoginAcceptance, if_pos ⟨hnext, hnone, hempty⟩]
        exact .state (fun _ _ => ⟨hnone, hempty⟩) hd hphase.symm
      · rw [hs]
        exact .pushed (fun _ _ => ⟨hnone, hempty⟩) hd (fun _ => by simp [hnext]) (by simp)

theorem OwnerKeeps.markChunkPrepared (he : Early task.state) (position : ChunkCoord)
    (store : WorldStore) : OwnerKeeps task (task.markChunkPrepared position store).2.1 := by
  have hstate : (task.state.markPreparedChunk position store).2.1.deferred = task.state.deferred ∧
      (task.state.markPreparedChunk position store).2.1.phase = task.state.phase ∧
      Early (task.state.markPreparedChunk position store).2.1 := by
    rw [SessionState.markPreparedChunk]
    split
    · exact ⟨rfl, rfl, he⟩
    · rename_i w hw
      refine ⟨rfl, rfl, fun h₁ h₂ => ?_⟩
      cases hw.symm.trans (he h₁ h₂).1
  rw [SessionTask.markChunkPrepared]
  generalize task.state.markPreparedChunk position store = marked at hstate ⊢
  obtain ⟨result, state, store'⟩ := marked
  obtain ⟨hd, hp, he'⟩ := hstate
  cases result with
  | ok _ => exact .state he' hd hp
  | error e => exact .state he' hd hp

theorem commitPending_keeps (he : Early st) (store : WorldStore) :
    (st.commitPending store).2.1.deferred = st.deferred ∧
      (st.phase ≠ .loginPending → (st.commitPending store).2.1.phase ≠ .loginPending) ∧
      Early (st.commitPending store).2.1 := by
  have hearly : ∀ w, st.pending = some w → ∀ {st' : SessionState wire}, st'.phase = st.phase →
      Early st' := by
    intro w hw st' hp h₁ h₂
    cases hw.symm.trans (he (hp ▸ h₁) (hp ▸ h₂)).1
  rw [SessionState.commitPending]
  split
  · exact ⟨rfl, id, he⟩
  · rename_i hw
    rw [SessionState.commitInitial]
    split
    · exact ⟨rfl, id, hearly _ hw rfl⟩
    · split
      · exact ⟨rfl, id, hearly _ hw rfl⟩
      · exact ⟨rfl, fun _ => by simp, fun _ h => absurd rfl h⟩
  · rename_i hw
    rw [SessionState.commitView]
    split
    · exact ⟨rfl, id, hearly _ hw rfl⟩
    · split
      · exact ⟨rfl, id, hearly _ hw rfl⟩
      · split
        · exact ⟨rfl, id, hearly _ hw rfl⟩
        · exact ⟨rfl, id, hearly _ hw rfl⟩

theorem OwnerKeeps.tryCompleteChunkWork (he : Early task.state) (rawChunks : List SessionPacket)
    (store : WorldStore) : OwnerKeeps task (task.tryCompleteChunkWork rawChunks store).2.1 := by
  rw [SessionTask.tryCompleteChunkWork]
  split
  · exact .refl he
  · rename_i plan _
    rcases trySend_cases (reliably plan.packets) task with ⟨e, hs⟩ | hs
    · rw [hs]
      cases e <;> exact .refl he
    · rw [hs]
      obtain ⟨hd, hp, he'⟩ := commitPending_keeps he store
      dsimp only
      generalize task.state.commitPending store = committed at hd hp he' ⊢
      obtain ⟨result, state, store'⟩ := committed
      cases result with
      | ok _ => exact .pushed he' hd hp (by simp)
      | error e => exact .pushed he' hd hp (by simp)

theorem OwnerKeeps.updateViewCursor (he : Early task.state) (cursor : Nat) :
    OwnerKeeps task (task.updateViewCursor cursor).2 := by
  have hstate : (task.state.updateViewCursor cursor).2.deferred = task.state.deferred ∧
      (task.state.updateViewCursor cursor).2.phase = task.state.phase ∧
      Early (task.state.updateViewCursor cursor).2 := by
    rw [SessionState.updateViewCursor]
    split
    · exact ⟨rfl, rfl, he⟩
    · rename_i v hv
      refine ⟨rfl, rfl, fun h₁ h₂ => ?_⟩
      cases hv.symm.trans (he h₁ h₂).2
  exact .state hstate.2.2 hstate.1 hstate.2.1

theorem OwnerKeeps.apply (he : Early task.state) (call : OwnerCall wire) (store : WorldStore) :
    OwnerKeeps task (call.apply task store).1 := by
  cases call with
  | trySend command => exact .trySend he command
  | acceptLogin bootstrap => exact .acceptLogin he bootstrap
  | markChunkPrepared position => exact .markChunkPrepared he position store
  | tryCompleteChunkWork rawChunks => exact .tryCompleteChunkWork he rawChunks store
  | updateViewCursor cursor => exact .updateViewCursor he cursor

theorem early_handlePacket (he : Early st) (packet : SessionPacket) (store : WorldStore) :
    Early (st.handlePacket packet store).2.1 := by
  rw [SessionState.handlePacket]
  cases h : st.phase with
  | waitingLogin =>
    have hnone := he (by simp [h]) (by simp [h])
    simp only [SessionState.handleWaitingLogin]
    split
    · exact he
    · split
      · exact he
      · exact fun _ _ => hnone
  | loginPending =>
    simp only [SessionState.handleLoginPending]
    split
    · exact he
    · exact he
  | waitingChunkRadius =>
    simp only [SessionState.handleWaitingChunkRadius]
    split
    · exact he
    · split
      · exact he
      · exact he
      · exact he
      · exact fun h₁ => absurd rfl h₁
  | waitingInitialChunks => exact he
  | spawned =>
    have hspawned : (st.handleSpawned packet store).2.1.phase = .spawned := by
      simp only [SessionState.handleSpawned]
      split
      · exact (deferred_handleMovePlayer st packet store).2.trans h
      · split
        · exact (deferred_handleRadiusChange st packet store).2.trans h
        · exact h
    exact fun _ h₂ => absurd hspawned h₂

-- Handled, in hand and put aside: together what has arrived, in this order.
def Accounted (task : SessionTask wire) : Prop :=
  match task.control with
  | .top | .selecting | .reporting _ => task.arrived = task.handled ++ task.state.deferred
  | .holding packet => task.arrived = task.handled ++ packet :: task.state.deferred
  | .received packet => task.arrived = task.handled ++ task.state.deferred ++ [packet]
  | .leaving _ | .unlisted _ | .finished => True

structure Orderly (task : SessionTask wire) : Prop where
  inOrder : task.handled <+: task.arrived
  accounted : Accounted task
  -- A task that waits although it could go on has a command to wake it.
  awake : task.control = .selecting → task.state.phase ≠ .loginPending →
    task.state.deferred ≠ [] → task.commands ≠ []

structure TaskInv (task : SessionTask wire) : Prop extends Orderly task where
  early : Early task.state
  holding : ∀ packet, task.control = .holding packet → task.state.phase ≠ .loginPending

-- A packet from the transport is taken up only when none that came before it is waiting.
def Settled (task : SessionTask wire) : Prop :=
  task.state.phase = .loginPending ∨ task.state.deferred = []

theorem TaskInv.new (wire : Wire) (maxChunkRadius : Int32) (capacity : Nat) :
    TaskInv (SessionTask.new wire maxChunkRadius capacity) where
  inOrder := List.prefix_refl _
  accounted := rfl
  awake h := by cases h
  early _ _ := ⟨rfl, rfl⟩
  holding _ h := by cases h

theorem TaskInv.owner (h : TaskInv task) {task' : SessionTask wire} (hk : OwnerKeeps task task') :
    TaskInv task' where
  inOrder := by
    rw [hk.handled, hk.arrived]
    exact h.inOrder
  accounted := by
    have ha := h.accounted
    rw [Accounted] at ha ⊢
    rw [hk.control, hk.arrived, hk.handled, hk.deferred]
    exact ha
  awake hc hp hd := by
    rw [hk.deferred] at hd
    by_cases hphase : task.state.phase = .loginPending
    · exact hk.woken hphase hp
    · exact hk.commands (h.awake (hk.control ▸ hc) hphase hd)
  early := hk.early
  holding packet hc := hk.phase (h.holding packet (hk.control ▸ hc))

-- The shape of a step that only moves on in the loop.
theorem TaskInv.move (h : TaskInv task) {control : TaskControl} {commands : List SessionCommand}
    (hacc : Accounted { task with control := control, commands := commands })
    (hawake : control = .selecting → task.state.phase ≠ .loginPending →
      task.state.deferred ≠ [] → commands ≠ [])
    (hholding : ∀ packet, control ≠ .holding packet) :
    TaskInv { task with control := control, commands := commands } where
  inOrder := h.inOrder
  accounted := hacc
  awake := hawake
  early := h.early
  holding packet hc := absurd hc (hholding packet)

theorem TaskInv.leave (h : TaskInv task) (reason : EndReason) (commands : List SessionCommand) :
    TaskInv ({ task with commands := commands }.endsWith reason) :=
  h.move trivial (fun hc => nomatch hc) (fun _ hc => nomatch hc)

theorem TaskInv.process (h : TaskInv task) {packet : SessionPacket} (store : WorldStore)
    (hnext : (task.state.phase = .loginPending ∧
        task.arrived = task.handled ++ task.state.deferred ++ [packet]) ∨
      (task.state.phase ≠ .loginPending ∧
        task.arrived = task.handled ++ packet :: task.state.deferred)) :
    TaskInv (task.process packet store).1 := by
  have he := early_handlePacket h.early packet store
  rcases hnext with ⟨hphase, harrived⟩ | ⟨hphase, harrived⟩
  · have hcase := handlePacket_pending hphase packet store
    rw [SessionTask.process]
    generalize task.state.handlePacket packet store = outcome at he hcase ⊢
    obtain ⟨result, state, store'⟩ := outcome
    dsimp only at he hcase ⊢
    rw [if_pos hphase]
    cases result with
    | error e => exact ⟨⟨h.inOrder, trivial, fun hc => nomatch hc⟩, he, fun _ hc => nomatch hc⟩
    | ok action =>
      obtain ⟨e, hno⟩ | hd := hcase
      · cases hno
      · refine ⟨⟨h.inOrder, ?_, fun hc => nomatch hc⟩, he, fun _ hc => nomatch hc⟩
        rw [Accounted, harrived, hd, List.append_assoc]
  · have hd := deferred_handlePacket hphase packet store
    have hinOrder : task.handled ++ [packet] <+: task.arrived := by
      refine ⟨task.state.deferred, ?_⟩
      rw [harrived, List.append_assoc]
      rfl
    rw [SessionTask.process]
    generalize task.state.handlePacket packet store = outcome at he hd ⊢
    obtain ⟨result, state, store'⟩ := outcome
    dsimp only at he hd ⊢
    rw [if_neg hphase]
    cases result with
    | error e => exact ⟨⟨hinOrder, trivial, fun hc => nomatch hc⟩, he, fun _ hc => nomatch hc⟩
    | ok action =>
      refine ⟨⟨hinOrder, ?_, fun hc => nomatch hc⟩, he, fun _ hc => nomatch hc⟩
      rw [Accounted, harrived, hd, List.append_assoc]
      rfl

theorem TaskInv.step {offer : Offer} {a b : SessionTask wire × WorldStore} (h : TaskInv a.1)
    (hs : TaskStep Settled offer a b) : TaskInv b.1 := by
  have hacc := h.accounted
  rw [Accounted] at hacc
  cases hs with
  | @takeDeferred task store packet state hc ht =>
    obtain ⟨hphase, rest, hd, rfl⟩ := takeDeferred_some ht
    rw [hc] at hacc
    refine ⟨⟨h.inOrder, ?_, fun hc => nomatch hc⟩, h.early, fun _ _ => hphase⟩
    rw [Accounted, hacc, hd]
  | @select task store state hc ht =>
    obtain ⟨rfl, hquiet⟩ := takeDeferred_none ht
    rw [hc] at hacc
    refine h.move hacc (fun _ hp hd => ?_) (fun _ hc => nomatch hc)
    rcases hquiet with hq | hq
    · exact absurd hq hp
    · exact absurd hq hd
  | handleDeferred hc =>
    rw [hc] at hacc
    exact h.process _ (.inr ⟨h.holding _ hc, hacc⟩)
  | receive packet hc =>
    rw [hc] at hacc
    refine ⟨⟨h.inOrder.trans (List.prefix_append _ _), ?_, fun hc => nomatch hc⟩, h.early,
      fun _ hc => nomatch hc⟩
    rw [Accounted, hacc]
  | @handleReceived task store packet hc hcond =>
    rw [hc] at hacc
    by_cases hphase : task.state.phase = .loginPending
    · exact h.process _ (.inl ⟨hphase, hacc⟩)
    · have hd : task.state.deferred = [] := hcond.resolve_left hphase
      refine h.process _ (.inr ⟨hphase, ?_⟩)
      rw [hd] at hacc ⊢
      rw [hacc, List.append_nil]
  | consumed hc =>
    rw [hc] at hacc
    exact h.move hacc (fun hc => nomatch hc) (fun _ hc => nomatch hc)
  | report hc _ =>
    rw [hc] at hacc
    exact h.move hacc (fun hc => nomatch hc) (fun _ hc => nomatch hc)
  | reportFailed hc _ => exact h.leave _ _
  | command hc hq _ =>
    rw [hc] at hacc
    exact h.move hacc (fun hc => nomatch hc) (fun _ hc => nomatch hc)
  | commandFailed hc hq _ => exact h.leave _ _
  | disconnect hc hq => exact h.leave _ _
  | commandsClosed hc hq => exact h.leave _ _
  | receiveFailed hc => exact h.leave _ _
  | unlist hc =>
    exact ⟨⟨h.inOrder, trivial, fun hc => nomatch hc⟩, fun _ _ => ⟨rfl, rfl⟩, fun _ hc => nomatch hc⟩
  | finish taken hc => exact h.move trivial (fun hc => nomatch hc) (fun _ hc => nomatch hc)

theorem inbound_in_order {maxChunkRadius : Int32} {capacity : Nat} {start : WorldStore}
    {a : SessionTask wire × WorldStore} (hrun : SessionRun Settled maxChunkRadius capacity start a) :
    Orderly a.1 := by
  have hinv : TaskInv a.1 := by
    refine invariant_of_run (fun a => TaskInv a.1) hrun (.new wire maxChunkRadius capacity) ?_
    intro a b h hs
    cases hs with
    | task hs => exact h.step hs
    | owner call => exact h.owner (.apply h.early call _)
  exact hinv.toOrderly

def loginPacket : SessionPacket := ⟨PacketId.login, []⟩

def radiusPacket (radius : UInt8) : SessionPacket :=
  ⟨PacketId.requestChunkRadius, [0, 0, 0, radius]⟩

def waitingTask : SessionTask quietWire :=
  { SessionTask.new quietWire 1 1 with
    control := .selecting
    state := { SessionState.new quietWire 1 with phase := .loginPending }
    arrived := [loginPacket]
    handled := [loginPacket] }

theorem waitingTask_run (cond : SessionTask quietWire → Prop)
    (hcond : ∀ task, task.state.deferred = [] → cond task) :
    SessionRun cond 1 1 WorldStore.new (waitingTask, WorldStore.new) := by
  have h₁ : SessionRun cond 1 1 WorldStore.new _ := .single (.task (.select rfl rfl))
  have h₂ := h₁.tail (.task (.receive loginPacket rfl))
  have h₃ := h₂.tail (.task (.handleReceived rfl (hcond _ rfl)))
  have h₄ := h₃.tail (.task (.report rfl (by simp)))
  exact h₄.tail (.task (.select rfl rfl))

def deferringTask : SessionTask quietWire :=
  { waitingTask with
    state := { waitingTask.state with deferred := [radiusPacket 1] }
    arrived := [loginPacket, radiusPacket 1] }

theorem deferringTask_run (cond : SessionTask quietWire → Prop)
    (hcond : ∀ task, task.state.deferred = [] → cond task) :
    SessionRun cond 1 1 WorldStore.new (deferringTask, WorldStore.new) := by
  have h₁ := (waitingTask_run cond hcond).tail (.task (.receive (radiusPacket 1) rfl))
  have h₂ := h₁.tail (.task (.handleReceived rfl (hcond _ rfl)))
  have h₃ := h₂.tail (.task (.consumed rfl))
  exact h₃.tail (.task (.select rfl rfl))

theorem inbound_in_order_deferring :
    SessionRun Settled 1 1 WorldStore.new (deferringTask, WorldStore.new) ∧
      Orderly deferringTask :=
  have hrun := deferringTask_run Settled fun _ hd => .inr hd
  ⟨hrun, inbound_in_order hrun⟩

-- The login is accepted while the task waits, and the wait ends with the transport's next packet.
theorem received_overtakes_deferred :
    ¬ ∀ a : SessionTask quietWire × WorldStore,
      SessionRun (fun _ => True) 1 1 WorldStore.new a → a.1.handled <+: a.1.arrived := by
  intro hall
  have h₁ := deferringTask_run (fun _ => True) fun _ _ => trivial
  have h₂ := h₁.tail (.owner (.acceptLogin ()))
  have h₃ := h₂.tail (.task (.receive (radiusPacket 2) rfl))
  have h₄ := h₃.tail (.task (.handleReceived rfl trivial))
  have horder : [loginPacket, radiusPacket 2] <+: [loginPacket, radiusPacket 1, radiusPacket 2] :=
    hall _ h₄
  revert horder
  decide

end Cobblestone.Session
