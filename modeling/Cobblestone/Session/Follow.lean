import Cobblestone.Session.Events
import Cobblestone.Session.Sessions

namespace Cobblestone.Session

open Lib World SessionState

variable {wire : Wire} {st st' : SessionState wire} {store store' : WorldStore}

-- The view that a spawned session is heading for.
def SessionState.target (st : SessionState wire) (view : WorldView) (chunk : ChunkCoord) :
    ChunkCoord × Int32 := (chunk, st.desiredRadius.getD view.radius)

def WorldView.place (view : WorldView) : ChunkCoord × Int32 := (view.center, view.radius)

-- The work leads from the view to the target.
def PendingWork.Leads (place target : ChunkCoord × Int32) : PendingWork → Prop
  | .initial .. => False
  | .view t _ => (t.fromCenter, t.fromRadius) = place ∧ (t.toCenter, t.toRadius) = target

structure Following (st : SessionState wire) (view : WorldView) (chunk : ChunkCoord)
    (position : wire.Position) : Prop where
  views : st.view = some view
  stands : st.playerChunk = some chunk
  located : st.position = some position
  idle : st.pending = none ↔ view.place = st.target view chunk
  leads : ∀ w, st.pending = some w → w.Leads view.place (st.target view chunk)

def Follows (st : SessionState wire) : Prop := ∃ view chunk position, Following st view chunk position

-- The player stands where the initial view will be centred.
structure Standing (st : SessionState wire) (chunk : ChunkCoord) (position : wire.Position) : Prop
    where
  views : st.view = none
  stands : st.playerChunk = some chunk
  located : st.position = some position

def Tracks (st : SessionState wire) : Prop :=
  match st.phase with
  | .waitingLogin | .loginPending => st.pending = none ∧ st.view = none
  | .waitingChunkRadius => st.pending = none ∧ ∃ chunk position, Standing st chunk position
  | .waitingInitialChunks => ∃ chunk position, Standing st chunk position ∧
      ∀ w, st.pending = some w → ∃ requested effective prepare send prepared,
        w = .initial requested effective chunk prepare send prepared
  | .spawned => Follows st

theorem tracks_new (wire : Wire) (maxChunkRadius : Int32) : Tracks (.new wire maxChunkRadius) :=
  ⟨rfl, rfl⟩

theorem tracks_waitingChunkRadius (hphase : st.phase = .waitingChunkRadius) :
    Tracks st ↔ st.pending = none ∧ ∃ chunk position, Standing st chunk position := by
  rw [Tracks, hphase]

theorem tracks_waitingInitialChunks (hphase : st.phase = .waitingInitialChunks) :
    Tracks st ↔ ∃ chunk position, Standing st chunk position ∧
      ∀ w, st.pending = some w → ∃ requested effective prepare send prepared,
        w = .initial requested effective chunk prepare send prepared := by
  rw [Tracks, hphase]

theorem tracks_spawned (hphase : st.phase = .spawned) : Tracks st ↔ Follows st := by
  rw [Tracks, hphase]

theorem chunkViewTransition_eq_none {fromCenter toCenter : ChunkCoord} {fromRadius toRadius : Int32} :
    chunkViewTransition fromCenter fromRadius toCenter toRadius = none ↔
      (fromCenter, fromRadius) = (toCenter, toRadius) := by
  rw [chunkViewTransition, Prod.mk.injEq]
  split <;> simp_all

theorem chunkViewTransition_ends {fromCenter toCenter : ChunkCoord} {fromRadius toRadius : Int32}
    {t : ChunkViewTransition}
    (h : chunkViewTransition fromCenter fromRadius toCenter toRadius = some t) :
    (t.fromCenter, t.fromRadius) = (fromCenter, fromRadius) ∧
      (t.toCenter, t.toRadius) = (toCenter, toRadius) := by
  rw [chunkViewTransition] at h
  split at h
  · cases h
  · cases h
    exact ⟨rfl, rfl⟩

theorem sameTransition_leads {t : ChunkViewTransition}
    (h : sameTransition st.pending t = true) :
    ∃ w, st.pending = some w ∧ w.Leads (t.fromCenter, t.fromRadius) (t.toCenter, t.toRadius) := by
  unfold sameTransition at h
  split at h
  · rename_i current prepared hpending
    simp only [Bool.and_eq_true, decide_eq_true_eq] at h
    obtain ⟨⟨⟨hcenter, hradius⟩, hto⟩, htoRadius⟩ := h
    exact ⟨_, hpending, by rw [hcenter, hradius], by rw [hto, htoRadius]⟩
  · cases h

-- Planning for the target settles the pending work, whatever it was before.
theorem planViewTransition_follows (view : WorldView) {chunk : ChunkCoord} {position : wire.Position}
    {toRadius : Int32} (hview : st.view = some view) (hchunk : st.playerChunk = some chunk)
    (hposition : st.position = some position) (hradius : st.desiredRadius.getD view.radius = toRadius)
    (player : wire.Position) :
    Follows (st.planViewTransition chunk toRadius player store).2.1 := by
  rw [SessionState.planViewTransition, hview]
  dsimp only
  cases ht : chunkViewTransition view.center view.radius chunk toRadius with
  | none =>
    have hplace := chunkViewTransition_eq_none.mp ht
    have hsettled : view.place = (chunk, view.radius) := by
      rw [WorldView.place, hplace, (Prod.mk.inj hplace).2]
    exact ⟨view, chunk, position, rfl, hchunk, hposition, iff_of_true rfl hsettled,
      fun _ hw => by cases hw⟩
  | some t =>
    obtain ⟨hfrom, hto⟩ := chunkViewTransition_ends ht
    have hmoved : view.place ≠ st.target view chunk := by
      rw [SessionState.target, hradius]
      intro heq
      rw [chunkViewTransition_eq_none.mpr heq] at ht
      cases ht
    have htarget : (chunk, toRadius) = st.target view chunk := by rw [SessionState.target, hradius]
    dsimp only
    split
    · rename_i hsame
      obtain ⟨w, hw, hleads⟩ := sameTransition_leads hsame
      refine ⟨view, chunk, position, hview, hchunk, hposition, iff_of_false ?_ hmoved, fun w' hw' => ?_⟩
      · rw [hw]
        exact Option.some_ne_none w
      · rw [hw] at hw'
        cases hw'
        rw [hfrom, hto, htarget] at hleads
        exact hleads
    · refine ⟨view, chunk, position, hview, hchunk, hposition,
        iff_of_false (Option.some_ne_none _) hmoved, fun w hw => ?_⟩
      cases hw
      exact ⟨hfrom, hto.trans htarget⟩

-- What the tracked fields say does not depend on the others.
theorem Tracks.frame (h : Tracks st) (hphase : st'.phase = st.phase) (hview : st'.view = st.view)
    (hpending : st'.pending = st.pending) (hchunk : st'.playerChunk = st.playerChunk)
    (hposition : st'.position = st.position) (hradius : st'.desiredRadius = st.desiredRadius) :
    Tracks st' := by
  obtain ⟨phase, maxChunkRadius, position, playerChunk, desiredRadius, view, pending, deferred⟩ := st
  obtain ⟨phase', maxChunkRadius', position', playerChunk', desiredRadius', view', pending',
    deferred'⟩ := st'
  cases hphase
  cases hview
  cases hpending
  cases hchunk
  cases hposition
  cases hradius
  cases phase with
  | waitingLogin | loginPending => exact h
  | waitingChunkRadius =>
    obtain ⟨hp, chunk, position, hs⟩ := h
    exact ⟨hp, chunk, position, hs.views, hs.stands, hs.located⟩
  | waitingInitialChunks =>
    obtain ⟨chunk, position, hs, hw⟩ := h
    exact ⟨chunk, position, ⟨hs.views, hs.stands, hs.located⟩, hw⟩
  | spawned =>
    obtain ⟨view, chunk, position, hf⟩ := h
    exact ⟨view, chunk, position, hf.views, hf.stands, hf.located, hf.idle, hf.leads⟩

theorem Follows.handleMovePlayer (h : Follows st) (packet : SessionPacket) :
    Follows (st.handleMovePlayer packet store).2.1 := by
  rw [SessionState.handleMovePlayer]
  split
  · exact h
  · split
    · exact h
    · obtain ⟨view, chunk, position, hf⟩ := h
      have hview := hf.views
      dsimp only
      cases hradius : st.desiredRadius with
      | none =>
        rw [hview]
        dsimp only
        exact planViewTransition_follows view rfl rfl rfl rfl _
      | some radius =>
        dsimp only
        refine planViewTransition_follows view ?_ rfl rfl rfl _
        exact hview

theorem Follows.handleRadiusChange (h : Follows st) (packet : SessionPacket) :
    Follows (st.handleRadiusChange packet store).2.1 := by
  rw [SessionState.handleRadiusChange]
  split
  · exact h
  · obtain ⟨view, chunk, position, hf⟩ := h
    dsimp only
    rw [hf.stands, hf.located]
    dsimp only
    refine planViewTransition_follows view ?_ rfl rfl rfl _
    exact hf.views

theorem Tracks.handleSpawned (h : Tracks st) (hphase : st.phase = .spawned)
    (packet : SessionPacket) : Tracks (st.handleSpawned packet store).2.1 := by
  have hf := (tracks_spawned hphase).mp h
  simp only [SessionState.handleSpawned]
  split
  · have hkept := (deferred_handleMovePlayer st packet store).2.trans hphase
    exact (tracks_spawned hkept).mpr (hf.handleMovePlayer packet)
  · split
    · have hkept := (deferred_handleRadiusChange st packet store).2.trans hphase
      exact (tracks_spawned hkept).mpr (hf.handleRadiusChange packet)
    · exact h

theorem Tracks.handleWaitingChunkRadius (h : Tracks st) (hphase : st.phase = .waitingChunkRadius)
    (packet : SessionPacket) : Tracks (st.handleWaitingChunkRadius packet store).2.1 := by
  obtain ⟨-, chunk, position, hs⟩ := (tracks_waitingChunkRadius hphase).mp h
  rw [SessionState.handleWaitingChunkRadius]
  split
  · exact h
  · rw [hs.stands, hs.located]
    split
    · exact h
    · rename_i heq
      cases heq
    · rename_i heq
      cases heq
    · rename_i hchunk hposition
      cases hchunk
      cases hposition
      refine ⟨chunk, position, ⟨hs.views, rfl, rfl⟩, fun w hw => ?_⟩
      cases hw
      exact ⟨_, _, _, _, _, rfl⟩

theorem Tracks.handlePacket (h : Tracks st) (packet : SessionPacket) :
    Tracks (st.handlePacket packet store).2.1 := by
  rw [SessionState.handlePacket]
  cases hphase : st.phase with
  | waitingLogin =>
    rw [Tracks, hphase] at h
    simp only [SessionState.handleWaitingLogin]
    split
    · rw [Tracks, hphase]
      exact h
    · split
      · rw [Tracks, hphase]
        exact h
      · exact h
  | loginPending =>
    simp only [SessionState.handleLoginPending]
    split
    · exact h
    · exact h.frame rfl rfl rfl rfl rfl rfl
  | waitingChunkRadius => exact h.handleWaitingChunkRadius hphase packet
  | waitingInitialChunks => exact h
  | spawned => exact h.handleSpawned hphase packet

theorem Tracks.takeDeferred (h : Tracks st) : Tracks st.takeDeferred.2 := by
  rw [SessionState.takeDeferred]
  split
  · exact h
  · split
    · exact h
    · exact h.frame rfl rfl rfl rfl rfl rfl

theorem leads_withPrepared {w : PendingWork} {place target : ChunkCoord × Int32}
    (h : w.Leads place target) (prepared : PreparedChunks) :
    (w.withPrepared prepared).Leads place target := by
  cases w <;> exact h

theorem Tracks.withPrepared (h : Tracks st) {w : PendingWork} (hw : st.pending = some w)
    (prepared : PreparedChunks) :
    Tracks { st with pending := some (w.withPrepared prepared) } := by
  cases hphase : st.phase with
  | waitingLogin | loginPending | waitingChunkRadius =>
    rw [Tracks, hphase, hw] at h
    cases h.1
  | waitingInitialChunks =>
    obtain ⟨chunk, position, hs, hinitial⟩ := (tracks_waitingInitialChunks hphase).mp h
    obtain ⟨requested, effective, prepare, send, old, rfl⟩ := hinitial w hw
    refine (tracks_waitingInitialChunks rfl).mpr
      ⟨chunk, position, ⟨hs.views, hs.stands, hs.located⟩, fun w' hw' => ?_⟩
    cases hw'
    exact ⟨requested, effective, prepare, send, prepared, rfl⟩
  | spawned =>
    obtain ⟨view, chunk, position, hf⟩ := (tracks_spawned hphase).mp h
    refine (tracks_spawned rfl).mpr
      ⟨view, chunk, position, hf.views, hf.stands, hf.located, ?_, fun w' hw' => ?_⟩
    · refine iff_of_false (Option.some_ne_none _) fun heq => ?_
      have hidle := hf.idle.mpr heq
      rw [hw] at hidle
      cases hidle
    · cases hw'
      exact leads_withPrepared (hf.leads w hw) prepared

theorem Tracks.markPreparedChunk (h : Tracks st) (p : ChunkCoord) :
    Tracks (st.markPreparedChunk p store).2.1 := by
  rw [SessionState.markPreparedChunk]
  split
  · exact h
  · rename_i w hw
    exact h.withPrepared hw _

theorem Tracks.updateViewCursor (h : Tracks st) (cursor : Nat) :
    Tracks (st.updateViewCursor cursor).2 := by
  rw [SessionState.updateViewCursor]
  split
  · exact h
  · rename_i view hview
    cases hphase : st.phase with
    | waitingLogin | loginPending =>
      rw [Tracks, hphase, hview] at h
      cases h.2
    | waitingChunkRadius =>
      obtain ⟨-, chunk, position, hs⟩ := (tracks_waitingChunkRadius hphase).mp h
      rw [hs.views] at hview
      cases hview
    | waitingInitialChunks =>
      obtain ⟨chunk, position, hs, -⟩ := (tracks_waitingInitialChunks hphase).mp h
      rw [hs.views] at hview
      cases hview
    | spawned =>
      obtain ⟨view', chunk, position, hf⟩ := (tracks_spawned hphase).mp h
      cases hview.symm.trans hf.views
      exact (tracks_spawned rfl).mpr
        ⟨_, chunk, position, rfl, hf.stands, hf.located, hf.idle, hf.leads⟩

theorem Tracks.acceptLogin (h : Tracks st) (bootstrap : wire.Bootstrap) :
    Tracks (st.acceptLogin bootstrap).2 := by
  rw [SessionState.acceptLogin]
  split
  · exact h
  · rename_i hphase
    rw [not_not] at hphase
    split
    · exact h
    · rw [Tracks, hphase] at h
      exact ⟨h.1, _, _, h.2, rfl, rfl⟩

theorem Tracks.rollbackLoginAcceptance (h : Tracks st) : Tracks st.rollbackLoginAcceptance := by
  rw [SessionState.rollbackLoginAcceptance]
  split
  · rename_i hphase
    exact ⟨hphase.2.1, hphase.2.2⟩
  · exact h

theorem Tracks.commitInitial (h : Tracks st) {requested effective : Int32} {center : ChunkCoord}
    {prepare send : List ChunkCoord} {prepared : PreparedChunks}
    (hw : st.pending = some (.initial requested effective center prepare send prepared)) :
    Tracks ({ st with pending := none }.commitInitial requested effective center send prepared
      store).2.1 := by
  cases hphase : st.phase with
  | waitingLogin | loginPending | waitingChunkRadius =>
    rw [Tracks, hphase, hw] at h
    cases h.1
  | waitingInitialChunks =>
    obtain ⟨chunk, position, hs, hinitial⟩ := (tracks_waitingInitialChunks hphase).mp h
    have hcenter : center = chunk := by
      obtain ⟨_, _, _, _, _, heq⟩ := hinitial _ hw
      cases heq
      rfl
    have hfailed : Tracks { st with phase := .waitingInitialChunks, pending := none } :=
      ⟨chunk, position, ⟨hs.views, hs.stands, hs.located⟩, fun _ hw => by cases hw⟩
    rw [SessionState.commitInitial]
    split
    · exact hfailed
    · split
      · exact hfailed
      · refine (tracks_spawned rfl).mpr
          ⟨_, chunk, position, rfl, hs.stands, hs.located, iff_of_true rfl ?_,
            fun _ hw => by cases hw⟩
        rw [hcenter]
        rfl
  | spawned =>
    obtain ⟨view, chunk, position, hf⟩ := (tracks_spawned hphase).mp h
    exact (hf.leads _ hw).elim

-- The work was planned from the active view, so a fully prepared transition is not refused.
theorem Tracks.commitView (h : Tracks st) {t : ChunkViewTransition} {prepared : PreparedChunks}
    (hw : st.pending = some (.view t prepared)) (hcomplete : prepared.isComplete t.entering = true) :
    Tracks ({ st with pending := none }.commitView t prepared store).2.1 := by
  cases hphase : st.phase with
  | waitingLogin | loginPending | waitingChunkRadius =>
    rw [Tracks, hphase, hw] at h
    cases h.1
  | waitingInitialChunks =>
    obtain ⟨chunk, position, hs, hinitial⟩ := (tracks_waitingInitialChunks hphase).mp h
    obtain ⟨_, _, _, _, _, heq⟩ := hinitial _ hw
    cases heq
  | spawned =>
    obtain ⟨view, chunk, position, hf⟩ := (tracks_spawned hphase).mp h
    obtain ⟨hfrom, hto⟩ := hf.leads _ hw
    obtain ⟨hcenter, hradius⟩ := Prod.mk.inj hfrom
    have hmatches : ¬ (view.center ≠ t.fromCenter ∨ view.radius ≠ t.fromRadius) := by
      rw [hcenter, hradius]
      simp
    rw [SessionState.commitView, hf.views]
    dsimp only
    rw [if_neg hmatches, hcomplete]
    refine (tracks_spawned rfl).mpr
      ⟨_, chunk, position, rfl, hf.stands, hf.located, iff_of_true rfl ?_, fun _ hw => by cases hw⟩
    exact congrArg (·, t.toRadius) (Prod.mk.inj hto).1

theorem Tracks.commitPending (h : Tracks st)
    (hcomplete : ∀ w, st.pending = some w → w.prepared.isComplete w.preparePositions = true) :
    Tracks (st.commitPending store).2.1 := by
  rw [SessionState.commitPending]
  split
  · exact h
  · rename_i hw
    exact h.commitInitial hw
  · rename_i hw
    exact h.commitView hw (hcomplete _ hw)

theorem isComplete_of_completionPlan {rawChunks : List SessionPacket} {plan : CompletionPlan}
    (h : st.completionPlan rawChunks = .ok plan) {w : PendingWork} (hw : st.pending = some w) :
    w.prepared.isComplete w.preparePositions = true := by
  rw [SessionState.completionPlan, hw] at h
  dsimp only at h
  obtain ⟨_, hcomplete, _⟩ := bind_ok_iff.mp h
  exact ensure_ok_iff.mp hcomplete

-- A task that has not left the registry.
def TaskControl.Listed : TaskControl → Prop
  | .unlisted _ | .finished => False
  | _ => True

variable {task task' : SessionTask wire}

theorem Tracks.trySend (h : Tracks task.state) (command : SessionCommand) :
    Tracks (task.trySend command).2.state := by
  rcases trySend_cases command task with ⟨e, hs⟩ | hs <;> rw [hs] <;> exact h

theorem Tracks.taskAcceptLogin (h : Tracks task.state) (bootstrap : wire.Bootstrap) :
    Tracks (task.acceptLogin bootstrap).2.state := by
  have haccepted := h.acceptLogin bootstrap
  rw [SessionTask.acceptLogin]
  generalize task.state.acceptLogin bootstrap = accepted at haccepted ⊢
  obtain ⟨result, state⟩ := accepted
  cases result with
  | error e => exact haccepted
  | ok packets =>
    dsimp only
    rcases trySend_cases (SessionTask.reliably packets) { task with state := state }
      with ⟨e, hs⟩ | hs
    · rw [hs]
      exact haccepted.rollbackLoginAcceptance
    · rw [hs]
      exact haccepted

theorem Tracks.tryCompleteChunkWork (h : Tracks task.state) (rawChunks : List SessionPacket)
    (store : WorldStore) : Tracks (task.tryCompleteChunkWork rawChunks store).2.1.state := by
  rw [SessionTask.tryCompleteChunkWork]
  split
  · exact h
  · rename_i plan hplan
    rcases trySend_cases (SessionTask.reliably plan.packets) task with ⟨e, hs⟩ | hs
    · rw [hs]
      cases e <;> exact h
    · rw [hs]
      have hcommit : Tracks (task.state.commitPending store).2.1 :=
        h.commitPending fun w hw => isComplete_of_completionPlan hplan hw
      dsimp only
      generalize task.state.commitPending store = committed at hcommit ⊢
      obtain ⟨result, state, store'⟩ := committed
      cases result with
      | ok _ => exact hcommit
      | error e => exact hcommit

theorem Tracks.apply (h : Tracks task.state) (call : OwnerCall wire) (store : WorldStore) :
    Tracks (call.apply task store).1.state := by
  cases call with
  | trySend command => exact h.trySend command
  | acceptLogin bootstrap => exact h.taskAcceptLogin bootstrap
  | markChunkPrepared position =>
    have hmarked : Tracks (task.state.markPreparedChunk position store).2.1 :=
      h.markPreparedChunk position
    change Tracks (task.markChunkPrepared position store).2.1.state
    rw [SessionTask.markChunkPrepared]
    generalize task.state.markPreparedChunk position store = marked at hmarked ⊢
    obtain ⟨result, state, store'⟩ := marked
    cases result with
    | ok _ => exact hmarked
    | error e => exact hmarked
  | tryCompleteChunkWork rawChunks => exact h.tryCompleteChunkWork rawChunks store
  | updateViewCursor cursor => exact h.updateViewCursor cursor

def TaskTracks (task : SessionTask wire) : Prop := task.control.Listed → Tracks task.state

theorem TaskTracks.process {task : SessionTask wire} (h : Tracks task.state)
    (packet : SessionPacket) (store : WorldStore) : TaskTracks (task.process packet store).1 :=
  fun _ => h.handlePacket packet

theorem TaskTracks.step {cond : SessionTask wire → Prop} {offer : Offer}
    {a b : SessionTask wire × WorldStore} (h : TaskTracks a.1) (hs : TaskStep cond offer a b) :
    TaskTracks b.1 := by
  cases hs with
  | takeDeferred hc ht =>
    intro _
    have htaken := (h (by rw [hc]; trivial)).takeDeferred
    rwa [ht] at htaken
  | select hc ht =>
    intro _
    have htaken := (h (by rw [hc]; trivial)).takeDeferred
    rwa [ht] at htaken
  | handleDeferred hc => exact .process (h (by rw [hc]; trivial)) _ _
  | receive packet hc => exact fun _ => h (by rw [hc]; trivial)
  | handleReceived hc _ => exact .process (h (by rw [hc]; trivial)) _ _
  | consumed hc => exact fun _ => h (by rw [hc]; trivial)
  | report hc _ => exact fun _ => h (by rw [hc]; trivial)
  | reportFailed hc _ => exact fun _ => h (by rw [hc]; trivial)
  | command hc _ _ => exact fun _ => h (by rw [hc]; trivial)
  | commandFailed hc _ _ => exact fun _ => h (by rw [hc]; trivial)
  | disconnect hc _ => exact fun _ => h (by rw [hc]; trivial)
  | commandsClosed hc _ => exact fun _ => h (by rw [hc]; trivial)
  | receiveFailed hc => exact fun _ => h (by rw [hc]; trivial)
  | unlist _ => exact fun hl => hl.elim
  | finish _ _ => exact fun hl => hl.elim

-- Steps of one session while others may change the world store between them.
inductive FollowStep (cond : SessionTask wire → Prop) (a b : SessionTask wire) : Prop where
  | step (store store' : WorldStore) (hs : SessionStep cond (a, store) (b, store'))

theorem TaskTracks.followStep {cond : SessionTask wire → Prop} {a b : SessionTask wire}
    (h : TaskTracks a) (hs : FollowStep cond a b) : TaskTracks b := by
  obtain ⟨store, store', hs⟩ := hs
  generalize ha : (a, store) = before at hs
  generalize hb : (b, store') = after at hs
  cases hs with
  | task hs =>
    cases ha
    cases hb
    exact h.step hs
  | owner call =>
    cases ha
    have hbefore := congrArg (·.1) hb
    cases hbefore
    intro hl
    change (call.apply a store).1.control.Listed at hl
    rw [control_apply] at hl
    exact (h hl).apply call store

theorem spawned_view_follows_player {wire : Wire} {cond : SessionTask wire → Prop}
    {maxChunkRadius : Int32} {capacity : Nat} {task : SessionTask wire}
    (hrun : Relation.ReflTransGen (FollowStep cond) (.new wire maxChunkRadius capacity) task)
    (hlisted : task.control.Listed) (hspawned : task.state.phase = .spawned) :
    Follows task.state := by
  have hinv : TaskTracks task :=
    invariant_of_run TaskTracks hrun (fun _ => tracks_new wire maxChunkRadius)
      fun _ _ h hs => h.followStep hs
  exact (tracks_spawned hspawned).mp (hinv hlisted)

section Moved

-- A client that stands where its packets say.
def movingWire : Wire := { quietWire with
  Position := ChunkCoord
  decodeMovePlayer := fun body => .ok ⟨Int32.ofNat body.length, 0⟩
  validatePosition := fun position => .ok position
  streamingDistancePriority := fun _ _ => 0
  bootstrapPosition := fun _ => spawnChunk
  positionChunk := id }

def loadedStore : WorldStore := WorldStore.new.setChunk spawnChunk (ChunkRecord.empty 0)

theorem loadedStore_pin : (loadedStore.pinChunk spawnChunk).1 = .ok 1 := rfl

def loadingTask : SessionTask movingWire :=
  { SessionTask.new movingWire 0 2 with
    control := .selecting
    state := { SessionState.new movingWire 0 with
      phase := .waitingInitialChunks
      position := some spawnChunk
      playerChunk := some spawnChunk
      pending := some (initialWork movingWire 1 0 spawnChunk spawnChunk) }
    commands := [SessionTask.reliably []]
    arrived := [loginPacket, radiusPacket 1]
    handled := [loginPacket, radiusPacket 1] }

abbrev FollowRun (task : SessionTask movingWire) : Prop :=
  Relation.ReflTransGen (FollowStep fun _ => True) (.new movingWire 0 2) task

theorem FollowRun.moves {a : SessionTask movingWire} {b : SessionTask movingWire × WorldStore}
    {offer : Offer} (hrun : FollowRun a)
    (hs : TaskStep (fun _ => True) offer (a, loadedStore) b) : FollowRun b.1 :=
  hrun.tail ⟨loadedStore, b.2, .task hs⟩

theorem FollowRun.owner {a : SessionTask movingWire} (hrun : FollowRun a)
    (call : OwnerCall movingWire) : FollowRun (call.apply a loadedStore).1 :=
  hrun.tail ⟨loadedStore, (call.apply a loadedStore).2, .owner call⟩

theorem loadingTask_run : FollowRun loadingTask := by
  have h₀ : FollowRun (.new movingWire 0 2) := .refl
  have h₁ := h₀.moves (.select rfl rfl)
  have h₂ := h₁.moves (.receive loginPacket rfl)
  have h₃ := h₂.moves (.handleReceived rfl trivial)
  have h₄ := h₃.moves (.report rfl (by simp))
  have h₅ := h₄.owner (.acceptLogin ())
  have h₆ := h₅.moves (.select rfl rfl)
  have h₇ := h₆.moves (.receive (radiusPacket 1) rfl)
  have h₈ := h₇.moves (.handleReceived rfl trivial)
  have h₉ := h₈.moves (.consumed rfl)
  exact h₉.moves (.select rfl rfl)

theorem prepares_spawn :
    (initialWork movingWire 1 0 spawnChunk spawnChunk).preparePositions = [spawnChunk] := by
  have hview : viewPositions spawnChunk 0 = [spawnChunk] := by decide
  change prioritizeForPlayer _ (viewPositions spawnChunk 0) = [spawnChunk]
  rw [hview]
  exact List.mergeSort_singleton _

def preparedTask : SessionTask movingWire :=
  { loadingTask with state := { loadingTask.state with
      pending := some ((initialWork movingWire 1 0 spawnChunk spawnChunk).withPrepared
        ⟨true, [spawnChunk]⟩) } }

theorem loadingTask_mark : ∃ store, loadingTask.state.markPreparedChunk spawnChunk loadedStore =
    (.ok (), preparedTask.state, store) := by
  have hmark : ∃ store, PreparedChunks.new.mark
      (initialWork movingWire 1 0 spawnChunk spawnChunk).preparePositions spawnChunk loadedStore =
        (.ok (), ⟨true, [spawnChunk]⟩, store) := by
    rw [prepares_spawn]
    exact ⟨_, rfl⟩
  obtain ⟨store, hmark⟩ := hmark
  refine ⟨store, ?_⟩
  have hpending : loadingTask.state.pending =
      some (initialWork movingWire 1 0 spawnChunk spawnChunk) := rfl
  have hnew : (initialWork movingWire 1 0 spawnChunk spawnChunk).prepared = .new := rfl
  rw [SessionState.markPreparedChunk, hpending]
  dsimp only
  rw [hnew, hmark]
  rfl

theorem preparedTask_run : FollowRun preparedTask := by
  obtain ⟨store, hmark⟩ := loadingTask_mark
  have hrun := loadingTask_run.owner (.markChunkPrepared spawnChunk)
  have happly : ((OwnerCall.markChunkPrepared spawnChunk).apply loadingTask loadedStore).1 =
      preparedTask := by
    change (loadingTask.markChunkPrepared spawnChunk loadedStore).2.1 = preparedTask
    rw [SessionTask.markChunkPrepared, hmark]
    rfl
  rwa [happly] at hrun

def spawnedTask : SessionTask movingWire :=
  { loadingTask with
    state := { loadingTask.state with
      phase := .spawned
      view := some ⟨spawnChunk, 0, 0, viewPositions spawnChunk 0⟩
      pending := none }
    commands := [SessionTask.reliably [], SessionTask.reliably
      [⟨PacketId.chunkRadiusUpdated, be32 0⟩, ⟨0xfe, []⟩, ⟨0x02, [0, 0, 0, 3]⟩]] }

def chunkPacket : SessionPacket := ⟨0x3a, []⟩

theorem spawnedTask_run : FollowRun spawnedTask := by
  have hrun := preparedTask_run.owner (.tryCompleteChunkWork [chunkPacket])
  have hplan : preparedTask.state.completionPlan [chunkPacket] = .ok
      ⟨[⟨PacketId.chunkRadiusUpdated, be32 0⟩, ⟨0xfe, []⟩, ⟨0x02, [0, 0, 0, 3]⟩],
        some ⟨1, 0, 1, 1⟩⟩ := by
    have hpending : preparedTask.state.pending = some ((initialWork movingWire 1 0 spawnChunk
      spawnChunk).withPrepared ⟨true, [spawnChunk]⟩) := rfl
    rw [SessionState.completionPlan, hpending]
    dsimp only
    rw [preparePositions_withPrepared, prepared_withPrepared, prepares_spawn]
    rfl
  have happly : ((OwnerCall.tryCompleteChunkWork [chunkPacket]).apply preparedTask loadedStore).1 =
      spawnedTask := by
    change (preparedTask.tryCompleteChunkWork [chunkPacket] loadedStore).2.1 = spawnedTask
    rw [SessionTask.tryCompleteChunkWork, hplan]
    rfl
  rwa [happly] at hrun

def movePacket : SessionPacket := ⟨PacketId.movePlayer, [0]⟩

def movedTask : SessionTask movingWire :=
  (SessionTask.process movePacket
    { spawnedTask with
      control := .received movePacket
      arrived := [loginPacket, radiusPacket 1, movePacket] } loadedStore).1

theorem movedTask_run : FollowRun movedTask := by
  have hreceived := spawnedTask_run.moves (.receive movePacket rfl)
  exact hreceived.moves (.handleReceived rfl trivial)

-- The player has left the spawn chunk, and the transition to the next one is pending.
theorem spawned_view_follows_moved :
    movedTask.control.Listed ∧ movedTask.state.phase = .spawned ∧
      movedTask.state.pending.isSome = true ∧ Follows movedTask.state :=
  ⟨trivial, rfl, rfl, spawned_view_follows_player movedTask_run trivial rfl⟩

end Moved

end Cobblestone.Session
