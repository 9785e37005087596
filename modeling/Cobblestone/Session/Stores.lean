import Cobblestone.Session.Follow

namespace Cobblestone.Session

open Lib World SessionState

abbrev StoreId := Nat

abbrev Stores := StoreId → WorldStore

-- A session beside the world stores that its view and its prepared chunks hold on to. The first is
-- of use only while there is a view, the second only while the prepared chunks are attached.
structure StoredTask (wire : Wire) where
  task : SessionTask wire
  viewStore : StoreId
  preparedStore : StoreId

namespace StoredTask

variable {wire : Wire}

def new (wire : Wire) (maxChunkRadius : Int32) (capacity : Nat) : StoredTask wire :=
  ⟨.new wire maxChunkRadius capacity, 0, 0⟩

def withState (s : StoredTask wire) (state : SessionState wire) : StoredTask wire :=
  { s with task := { s.task with state := state } }

def onView (s : StoredTask wire) (store : StoreId) : Bool :=
  s.task.state.view.isNone || s.viewStore == store

def matchesStore (s : StoredTask wire) (prepared : PreparedChunks) (store : StoreId) : Bool :=
  !prepared.attached || s.preparedStore == store

def updateStore (stores : Stores) (store : StoreId) (value : WorldStore) : Stores :=
  Function.update stores store value

def markPrepared (s : StoredTask wire) (pending : PendingWork) (store : StoreId)
    (position : ChunkCoord) (stores : Stores) : Except StateError Unit × StoredTask wire × Stores :=
  if position ∉ pending.preparePositions then
    (.error (.chunkNotInView position.x position.z), s, stores)
  else if position ∈ pending.prepared.pinned then (.ok (), s, stores)
  else if !s.matchesStore pending.prepared store then
    (.error (.text "pending session view spans multiple world stores"), s, stores)
  else
    match (stores store).pinChunk position with
    | (.error e, value) => (.error (.store e), s, updateStore stores store value)
    | (.ok _, value) =>
      let prepared : PreparedChunks := ⟨true, pending.prepared.pinned ++ [position]⟩
      let state := { s.task.state with pending := some (pending.withPrepared prepared) }
      (.ok (), { s.withState state with preparedStore := store }, updateStore stores store value)

def markPreparedChunk (s : StoredTask wire) (store : StoreId) (position : ChunkCoord)
    (stores : Stores) : Except StateError Unit × StoredTask wire × Stores :=
  match s.task.state.pending with
  | none => (.error (.text "session has no pending chunk work"), s, stores)
  | some pending =>
    if !s.onView store then
      (.error (.text "pending session view targets a different world store"), s, stores)
    else s.markPrepared pending store position stores

def completionPlan (s : StoredTask wire) (store : StoreId) (rawChunks : List SessionPacket) :
    Except StateError CompletionPlan :=
  match s.task.state.pending with
  | none => .error (.text "session has no pending chunk work")
  | some pending => do
    ensure (pending.prepared.isComplete pending.preparePositions)
      (.text "session chunk work is not fully prepared")
    ensure (s.matchesStore pending.prepared store)
      (.text "session chunk work belongs to a different world store")
    ensure (s.onView store) (.text "session active view belongs to a different world store")
    ensure (decide (rawChunks.length = pending.sendPositions.length))
      (.packetCountMismatch pending.sendPositions.length rawChunks.length)
    planPackets wire rawChunks pending

-- The work has been moved out of the state, and an error drops it with its pins.
def failCommit (message : String) (s : StoredTask wire) (prepared : PreparedChunks)
    (stores : Stores) :
    Except StateError (Option InitialViewResult) × StoredTask wire × Stores :=
  (.error (.text message), s,
    updateStore stores s.preparedStore (prepared.drop (stores s.preparedStore)))

def commitInitial (requested effective : Int32) (center : ChunkCoord)
    (sendPositions : List ChunkCoord) (prepared : PreparedChunks) (s : StoredTask wire)
    (stores : Stores) :
    Except StateError (Option InitialViewResult) × StoredTask wire × Stores :=
  if prepared.isComplete sendPositions = false ∧
      prepared.isComplete (viewPositions center effective) = false then
    failCommit "initial chunk work lost prepared pins before commit" s prepared stores
  else if prepared.attached = false then
    failCommit "initial chunk work has no native world store" s prepared stores
  else
    let view : WorldView := ⟨center, effective, (stores s.preparedStore).changes.latestSequence,
      viewPositions center effective⟩
    let state := { s.task.state with view := some view, phase := .spawned, desiredRadius := none }
    (.ok (some ⟨requested, effective, sendPositions.length, 0⟩),
      { s.withState state with viewStore := s.preparedStore },
      updateStore stores s.viewStore (dropView s.task.state.view (stores s.viewStore)))

def commitView (transition : ChunkViewTransition) (prepared : PreparedChunks)
    (s : StoredTask wire) (stores : Stores) :
    Except StateError (Option InitialViewResult) × StoredTask wire × Stores :=
  match s.task.state.view with
  | none => failCommit "pending view transition lost its active world view" s prepared stores
  | some view =>
    if view.center ≠ transition.fromCenter ∨ view.radius ≠ transition.fromRadius then
      failCommit "pending view transition no longer matches the active view" s prepared stores
    else if s.matchesStore prepared s.viewStore = false then
      failCommit "prepared view transition belongs to a different world store" s prepared stores
    else if prepared.isComplete transition.entering = false then
      failCommit "view transition lost prepared entering pins before commit" s prepared stores
    else
      (.ok none,
        s.withState { s.task.state with
          view := some { view with
            center := transition.toCenter
            radius := transition.toRadius
            pinnedChunks := viewPositions transition.toCenter transition.toRadius }
          desiredRadius := none },
        updateStore stores s.viewStore (unpinAll transition.leaving (stores s.viewStore)))

def commitPending (s : StoredTask wire) (stores : Stores) :
    Except StateError (Option InitialViewResult) × StoredTask wire × Stores :=
  match s.task.state.pending with
  | none => (.error (.text "session has no pending chunk work"), s, stores)
  | some (.initial requested effective center _ sendPositions prepared) =>
    (s.withState { s.task.state with pending := none }).commitInitial requested effective center
      sendPositions prepared stores
  | some (.view transition prepared) =>
    (s.withState { s.task.state with pending := none }).commitView transition prepared stores

def tryCompleteChunkWork (s : StoredTask wire) (store : StoreId) (rawChunks : List SessionPacket)
    (stores : Stores) : Except HostError ChunkWorkCompletion × StoredTask wire × Stores :=
  match s.completionPlan store rawChunks with
  | .error e => (.error (.state e), s, stores)
  | .ok plan =>
    match s.task.trySend (SessionTask.reliably plan.packets) with
    | (.error .commandBackpressure, task) => (.ok .backpressured, { s with task := task }, stores)
    | (.error _, task) => (.ok .gone, { s with task := task }, stores)
    | (.ok (), task) =>
      match { s with task := task }.commitPending stores with
      | (.error e, s, stores) => (.error (.state e), s, stores)
      | (.ok _, s, stores) =>
        (.ok (match plan.initial with
          | some result => .spawned result
          | none => .complete), s, stores)

def updateViewCursor (s : StoredTask wire) (store : StoreId) (cursor : Nat) :
    Bool × StoredTask wire :=
  if s.task.state.view.isSome && s.viewStore != store then (false, s)
  else ((s.task.state.updateViewCursor cursor).1, s.withState (s.task.state.updateViewCursor cursor).2)

end StoredTask

-- The task, the owner's calls and, between any two of them, others at the stores.
inductive StoredStep {wire : Wire} : StoredTask wire → StoredTask wire → Prop where
  | task {s : StoredTask wire} {offer : Offer} {store store' : WorldStore}
      {task' : SessionTask wire}
      (hs : TaskStep (fun _ => True) offer (s.task, store) (task', store')) :
      StoredStep s { s with task := task' }
  | trySend {s : StoredTask wire} (command : SessionCommand) :
      StoredStep s { s with task := (s.task.trySend command).2 }
  | acceptLogin {s : StoredTask wire} (bootstrap : wire.Bootstrap) :
      StoredStep s { s with task := (s.task.acceptLogin bootstrap).2 }
  | markChunkPrepared {s : StoredTask wire} (store : StoreId) (position : ChunkCoord)
      (stores : Stores) : StoredStep s (s.markPreparedChunk store position stores).2.1
  | tryCompleteChunkWork {s : StoredTask wire} (store : StoreId) (rawChunks : List SessionPacket)
      (stores : Stores) : StoredStep s (s.tryCompleteChunkWork store rawChunks stores).2.1
  | updateViewCursor {s : StoredTask wire} (store : StoreId) (cursor : Nat) :
      StoredStep s (s.updateViewCursor store cursor).2

variable {wire : Wire} {st st' : SessionState wire} {s : StoredTask wire} {store : WorldStore}

-- Pending work that can be committed once it is fully prepared.
structure PendingWork.Ready (view : Option WorldView) (w : PendingWork) : Prop where
  attached : w.prepared.attached = false → w.prepared.pinned = []
  placed : match w with
    | .initial _ effective center prepare _ _ =>
      0 ≤ effective.toInt ∧ prepare.Perm (viewPositions center effective)
    | .view t _ => ∃ v, view = some v ∧ v.center = t.fromCenter ∧ v.radius = t.fromRadius

structure ReadyState (st : SessionState wire) : Prop where
  radius : 0 ≤ st.maxChunkRadius.toInt
  ready : ∀ w, st.pending = some w → w.Ready st.view

theorem ReadyState.frame (h : ReadyState st) (hradius : st'.maxChunkRadius = st.maxChunkRadius)
    (hpending : st'.pending = st.pending) (hview : st'.view = st.view) : ReadyState st' := by
  refine ⟨hradius ▸ h.radius, fun w hw => ?_⟩
  rw [hview]
  exact h.ready w (hpending ▸ hw)

theorem ReadyState.idle (h : ReadyState st) (hradius : st'.maxChunkRadius = st.maxChunkRadius)
    (hpending : st'.pending = none) : ReadyState st' := by
  refine ⟨hradius ▸ h.radius, fun w hw => ?_⟩
  rw [hpending] at hw
  cases hw

theorem ReadyState.new (wire : Wire) {maxChunkRadius : Int32} (h : 0 ≤ maxChunkRadius.toInt) :
    ReadyState (SessionState.new wire maxChunkRadius) := ⟨h, nofun⟩

theorem ReadyState.planViewTransition (h : ReadyState st) (toCenter : ChunkCoord) (toRadius : Int32)
    (player : wire.Position) :
    ReadyState (st.planViewTransition toCenter toRadius player store).2.1 := by
  rw [SessionState.planViewTransition]
  split
  · exact h
  · rename_i view hview
    split
    · exact h.idle rfl rfl
    · rename_i t ht
      dsimp only
      split
      · exact h
      · refine ⟨h.radius, fun w hw => ?_⟩
        cases hw
        rw [chunkViewTransition] at ht
        split at ht
        · cases ht
        · cases ht
          exact ⟨fun _ => rfl, view, hview, rfl, rfl⟩

theorem requestedChunkRadius_pos {body : Bytes} {radius : Int32}
    (h : requestedChunkRadius body = .ok radius) : 0 < radius.toInt := by
  unfold requestedChunkRadius at h
  split at h
  · dsimp only at h
    split at h
    · cases h
    · rename_i hpos
      cases h
      rw [Int32.le_iff_toInt_le] at hpos
      exact Int.lt_of_not_ge hpos
  · cases h

theorem min_toInt_nonneg {a b : Int32} (ha : 0 ≤ a.toInt) (hb : 0 ≤ b.toInt) :
    0 ≤ (min a b).toInt := by
  change 0 ≤ (if a ≤ b then a else b).toInt
  split
  · exact ha
  · exact hb

theorem ReadyState.handleWaitingChunkRadius (h : ReadyState st) (packet : SessionPacket) :
    ReadyState (st.handleWaitingChunkRadius packet store).2.1 := by
  rw [SessionState.handleWaitingChunkRadius]
  split
  · exact h
  · split
    · exact h
    · exact h
    · exact h
    · rename_i requested _ _ hrequested _ _
      refine ⟨h.radius, fun w hw => ?_⟩
      cases hw
      have hpos := requestedChunkRadius_pos hrequested
      exact ⟨fun _ => rfl, min_toInt_nonneg hpos.le h.radius, prioritizeForPlayer_perm ..⟩

theorem ReadyState.handleMovePlayer (h : ReadyState st) (packet : SessionPacket) :
    ReadyState (st.handleMovePlayer packet store).2.1 := by
  rw [SessionState.handleMovePlayer]
  split
  · exact h
  · split
    · exact h
    · rename_i position _ _ chunk _
      have hmoved : ReadyState { st with position := some position, playerChunk := some chunk } :=
        h.frame rfl rfl rfl
      dsimp only
      split
      · exact hmoved.planViewTransition ..
      · exact hmoved.planViewTransition ..
      · exact hmoved

theorem ReadyState.handleRadiusChange (h : ReadyState st) (packet : SessionPacket) :
    ReadyState (st.handleRadiusChange packet store).2.1 := by
  rw [SessionState.handleRadiusChange]
  split
  · exact h
  · rename_i requested _
    have hdesired : ReadyState
        { st with desiredRadius := some (min requested st.maxChunkRadius) } := h.frame rfl rfl rfl
    dsimp only
    split
    · exact hdesired
    · exact hdesired
    · exact hdesired.planViewTransition ..

theorem ReadyState.handlePacket (h : ReadyState st) (packet : SessionPacket) :
    ReadyState (st.handlePacket packet store).2.1 := by
  rw [SessionState.handlePacket]
  cases st.phase with
  | waitingLogin =>
    simp only [SessionState.handleWaitingLogin]
    split
    · exact h
    · split
      · exact h
      · exact h.frame rfl rfl rfl
  | loginPending =>
    simp only [SessionState.handleLoginPending]
    split
    · exact h
    · exact h.frame rfl rfl rfl
  | waitingChunkRadius => exact h.handleWaitingChunkRadius packet
  | waitingInitialChunks => exact h
  | spawned =>
    simp only [SessionState.handleSpawned]
    split
    · exact h.handleMovePlayer packet
    · split
      · exact h.handleRadiusChange packet
      · exact h

theorem ReadyState.takeDeferred (h : ReadyState st) : ReadyState st.takeDeferred.2 := by
  rw [SessionState.takeDeferred]
  split
  · exact h
  · split
    · exact h
    · exact h.frame rfl rfl rfl

theorem ReadyState.acceptLogin (h : ReadyState st) (bootstrap : wire.Bootstrap) :
    ReadyState (st.acceptLogin bootstrap).2 := by
  rw [SessionState.acceptLogin]
  split
  · exact h
  · split
    · exact h
    · exact h.frame rfl rfl rfl

theorem ReadyState.rollbackLoginAcceptance (h : ReadyState st) :
    ReadyState st.rollbackLoginAcceptance := by
  rw [SessionState.rollbackLoginAcceptance]
  split
  · exact h.frame rfl rfl rfl
  · exact h

theorem ReadyState.updateViewCursor (h : ReadyState st) (cursor : Nat) :
    ReadyState (st.updateViewCursor cursor).2 := by
  rw [SessionState.updateViewCursor]
  split
  · exact h
  · rename_i view hview
    refine ⟨h.radius, fun w hw => ?_⟩
    obtain ⟨hattached, hplaced⟩ := h.ready w hw
    refine ⟨hattached, ?_⟩
    cases w with
    | initial => exact hplaced
    | view t prepared =>
      obtain ⟨v, hv, hcenter, hradius⟩ := hplaced
      cases hview.symm.trans hv
      exact ⟨_, rfl, hcenter, hradius⟩

theorem ready_withPrepared {view : Option WorldView} {w : PendingWork} (h : w.Ready view)
    {prepared : PreparedChunks} (hattached : prepared.attached = true) :
    (w.withPrepared prepared).Ready view := by
  refine ⟨fun hnot => ?_, ?_⟩
  · rw [prepared_withPrepared, hattached] at hnot
    cases hnot
  · cases w <;> exact h.placed

theorem ReadyState.markPreparedChunk (h : ReadyState s.task.state) (store : StoreId)
    (position : ChunkCoord) (stores : Stores) :
    ReadyState (s.markPreparedChunk store position stores).2.1.task.state := by
  rw [StoredTask.markPreparedChunk]
  split
  · exact h
  · rename_i pending hpending
    split
    · exact h
    · rw [StoredTask.markPrepared]
      split
      · exact h
      · split
        · exact h
        · split
          · exact h
          · split
            · exact h
            · refine ⟨h.radius, fun w hw => ?_⟩
              cases hw
              exact ready_withPrepared (h.ready pending hpending) rfl

-- Nothing is pending once a commit has been tried.
theorem ReadyState.commitPending (h : ReadyState s.task.state) (stores : Stores) :
    ReadyState (s.commitPending stores).2.1.task.state := by
  rw [StoredTask.commitPending]
  split
  · exact h
  · rw [StoredTask.commitInitial]
    split
    · exact h.idle rfl rfl
    · split
      · exact h.idle rfl rfl
      · exact h.idle rfl rfl
  · rw [StoredTask.commitView]
    split
    · exact h.idle rfl rfl
    · split
      · exact h.idle rfl rfl
      · split
        · exact h.idle rfl rfl
        · split
          · exact h.idle rfl rfl
          · exact h.idle rfl rfl

theorem completionPlan_ok {store : StoreId} {rawChunks : List SessionPacket} {plan : CompletionPlan}
    (h : s.completionPlan store rawChunks = .ok plan) :
    ∃ w, s.task.state.pending = some w ∧ w.prepared.isComplete w.preparePositions = true ∧
      s.matchesStore w.prepared store = true ∧ s.onView store = true := by
  rw [StoredTask.completionPlan] at h
  split at h
  · cases h
  · rename_i w hw
    obtain ⟨_, hcomplete, h⟩ := bind_ok_iff.mp h
    obtain ⟨_, hmatches, h⟩ := bind_ok_iff.mp h
    obtain ⟨_, hview, h⟩ := bind_ok_iff.mp h
    exact ⟨w, hw, ensure_ok_iff.mp hcomplete, ensure_ok_iff.mp hmatches, ensure_ok_iff.mp hview⟩

theorem isComplete_perm {prepared : PreparedChunks} {expected other : List ChunkCoord}
    (hperm : expected.Perm other) (h : prepared.isComplete expected = true) :
    prepared.isComplete other = true := by
  simp only [PreparedChunks.isComplete, PreparedChunks.unprepared, Bool.and_eq_true,
    decide_eq_true_eq, List.isEmpty_iff, List.filter_eq_nil_iff] at h ⊢
  exact ⟨h.1.trans hperm.length_eq, fun p hp => h.2 p (hperm.mem_iff.mpr hp)⟩

theorem bounds_self (c : Int32) {radius : Int32} (h : 0 ≤ radius.toInt) :
    lowerBound c radius ≤ c.toInt ∧ c.toInt ≤ upperBound c radius := by
  have hmin : Int32.minValue.toInt = -2147483648 := by decide
  have hmax : Int32.maxValue.toInt = 2147483647 := by decide
  have hlow := c.le_toInt
  have hhigh := c.toInt_lt
  rw [lowerBound, upperBound, saturate, saturate, hmin, hmax]
  omega

theorem center_mem_viewPositions (center : ChunkCoord) {radius : Int32} (h : 0 ≤ radius.toInt) :
    center ∈ viewPositions center radius := by
  obtain ⟨hx, hx'⟩ := bounds_self center.x h
  obtain ⟨hz, hz'⟩ := bounds_self center.z h
  rw [mem_viewPositions, viewContains]
  simp only [hx, hx', hz, hz', decide_true, Bool.and_self]

theorem pinned_of_isComplete {prepared : PreparedChunks} {expected : List ChunkCoord}
    (h : prepared.isComplete expected = true) {p : ChunkCoord} (hp : p ∈ expected) :
    p ∈ prepared.pinned := by
  simp only [PreparedChunks.isComplete, PreparedChunks.unprepared, Bool.and_eq_true,
    List.isEmpty_iff, List.filter_eq_nil_iff, Bool.not_eq_true', Bool.not_eq_false,
    List.contains_iff_mem] at h
  exact h.2 p hp

theorem commitView_ok {t : ChunkViewTransition} {prepared : PreparedChunks} {v : WorldView}
    (hview : s.task.state.view = some v)
    (hplace : ¬ (v.center ≠ t.fromCenter ∨ v.radius ≠ t.fromRadius))
    (hmatches : s.matchesStore prepared s.viewStore = true)
    (hcomplete : prepared.isComplete t.entering = true) (stores : Stores) :
    (s.commitView t prepared stores).1 = .ok none := by
  rw [StoredTask.commitView, hview]
  dsimp only
  rw [if_neg hplace, hmatches, hcomplete]
  rfl

-- What the plan has checked is all that the commit asks for.
theorem commitPending_of_plan (h : ReadyState s.task.state) {store : StoreId}
    {rawChunks : List SessionPacket} {plan : CompletionPlan}
    (hplan : s.completionPlan store rawChunks = .ok plan) (stores : Stores) :
    ∃ result, (s.commitPending stores).1 = .ok result := by
  obtain ⟨w, hw, hcomplete, hmatches, hview⟩ := completionPlan_ok hplan
  obtain ⟨hattached, hplaced⟩ := h.ready w hw
  rw [StoredTask.commitPending, hw]
  cases w with
  | initial requested effective center prepare send prepared =>
    obtain ⟨hradius, hperm⟩ := hplaced
    have hall : prepared.isComplete (viewPositions center effective) = true :=
      isComplete_perm hperm hcomplete
    have hpinned : center ∈ prepared.pinned :=
      pinned_of_isComplete hall (center_mem_viewPositions center hradius)
    -- the view holds at least its centre, so some chunk has attached a store
    have hstore : prepared.attached ≠ false := by
      intro hnot
      have hnone : prepared.pinned = [] := hattached hnot
      rw [hnone] at hpinned
      cases hpinned
    dsimp only
    rw [StoredTask.commitInitial, if_neg (fun hfail => by rw [hall] at hfail; cases hfail.2),
      if_neg hstore]
    exact ⟨_, rfl⟩
  | view t prepared =>
    obtain ⟨v, hv, hcenter, hradius⟩ := hplaced
    have hplace : ¬ (v.center ≠ t.fromCenter ∨ v.radius ≠ t.fromRadius) := by
      rw [hcenter, hradius]
      simp
    have hsame : s.viewStore = store := by
      rw [StoredTask.onView, hv] at hview
      simpa using hview
    have hprepared : (s.withState { s.task.state with pending := none }).matchesStore prepared
        s.viewStore = true := by
      rw [hsame]
      exact hmatches
    have hentering : prepared.isComplete t.entering = true := hcomplete
    have hview : (s.withState { s.task.state with pending := none }).task.state.view = some v := hv
    exact ⟨none, commitView_ok hview hplace hprepared hentering stores⟩

theorem trySend_error {command : SessionCommand} {task task' : SessionTask wire} {e : HostError}
    (h : task.trySend command = (.error e, task')) : task' = task := by
  rcases trySend_cases command task with ⟨e', hs⟩ | hs
  · cases hs.symm.trans h
    rfl
  · cases hs.symm.trans h

theorem trySend_ok {command : SessionCommand} {task task' : SessionTask wire}
    (h : task.trySend command = (.ok (), task')) :
    task' = { task with commands := task.commands ++ [command] } := by
  rcases trySend_cases command task with ⟨e', hs⟩ | hs
  · cases hs.symm.trans h
  · cases hs.symm.trans h
    rfl

theorem commitPending_keeps_commands (s : StoredTask wire) (stores : Stores) :
    (s.commitPending stores).2.1.task.commands = s.task.commands ∧
      (s.commitPending stores).2.1.task.state.pending = none := by
  rw [StoredTask.commitPending]
  split
  · rename_i hnone
    exact ⟨rfl, hnone⟩
  · rw [StoredTask.commitInitial]
    split
    · exact ⟨rfl, rfl⟩
    · split
      · exact ⟨rfl, rfl⟩
      · exact ⟨rfl, rfl⟩
  · rw [StoredTask.commitView]
    split
    · exact ⟨rfl, rfl⟩
    · split
      · exact ⟨rfl, rfl⟩
      · split
        · exact ⟨rfl, rfl⟩
        · split
          · exact ⟨rfl, rfl⟩
          · exact ⟨rfl, rfl⟩

theorem ReadyState.commits (h : ReadyState s.task.state) {store : StoreId}
    {rawChunks : List SessionPacket} {plan : CompletionPlan} {task : SessionTask wire}
    (hplan : s.completionPlan store rawChunks = .ok plan)
    (hsend : s.task.trySend (SessionTask.reliably plan.packets) = (.ok (), task))
    (stores : Stores) : ∃ result, ({ s with task := task }.commitPending stores).1 = .ok result := by
  rw [trySend_ok hsend]
  have hready : ReadyState ({ s with task := { s.task with
      commands := s.task.commands ++ [SessionTask.reliably plan.packets] } } :
        StoredTask wire).task.state := h
  exact commitPending_of_plan hready hplan stores

-- Either nothing happens, or the packets are queued and the work is committed.
inductive Completes (s : StoredTask wire) (store : StoreId) (rawChunks : List SessionPacket)
    (stores : Stores) : Except HostError ChunkWorkCompletion × StoredTask wire × Stores → Prop where
  | planRefused (e : StateError) : Completes s store rawChunks stores (.error (.state e), s, stores)
  | sendRefused (outcome : ChunkWorkCompletion)
      (houtcome : outcome = .backpressured ∨ outcome = .gone) :
      Completes s store rawChunks stores (.ok outcome, s, stores)
  | done (outcome : ChunkWorkCompletion) (plan : CompletionPlan) (s' : StoredTask wire)
      (stores' : Stores)
      (houtcome : outcome = .complete ∨ ∃ result, outcome = .spawned result)
      (hplan : s.completionPlan store rawChunks = .ok plan)
      (hcommands : s'.task.commands = s.task.commands ++ [SessionTask.reliably plan.packets])
      (hpending : s'.task.state.pending = none) :
      Completes s store rawChunks stores (.ok outcome, s', stores')

theorem ReadyState.completes (h : ReadyState s.task.state) (store : StoreId)
    (rawChunks : List SessionPacket) (stores : Stores) :
    Completes s store rawChunks stores (s.tryCompleteChunkWork store rawChunks stores) := by
  rw [StoredTask.tryCompleteChunkWork]
  cases hplan : s.completionPlan store rawChunks with
  | error e => exact .planRefused e
  | ok plan =>
    dsimp only
    cases hsend : s.task.trySend (SessionTask.reliably plan.packets) with
    | mk result task =>
      cases result with
      | error e =>
        rw [trySend_error hsend]
        cases e with
        | commandBackpressure => exact .sendRefused _ (.inl rfl)
        | unknownSession | state | commandClosed => exact .sendRefused _ (.inr rfl)
      | ok _ =>
        obtain ⟨initial, hok⟩ := h.commits hplan hsend stores
        obtain ⟨hcommands, hpending⟩ :=
          commitPending_keeps_commands { s with task := task } stores
        dsimp only
        generalize ({ s with task := task } : StoredTask wire).commitPending stores = committed
          at hok hcommands hpending ⊢
        obtain ⟨result, s', stores'⟩ := committed
        cases hok
        have hpushed : s'.task.commands = s.task.commands ++
            [SessionTask.reliably plan.packets] := by
          rw [hcommands, trySend_ok hsend]
        refine .done _ plan s' stores' ?_ hplan hpushed hpending
        cases plan.initial with
        | none => exact .inl rfl
        | some result => exact .inr ⟨result, rfl⟩

-- The completion of chunk work from a state of the session, whatever its stores hold.
structure AllOrNothing (s : StoredTask wire) (store : StoreId) (rawChunks : List SessionPacket)
    (stores : Stores) : Prop where
  commits : ∀ plan task, s.completionPlan store rawChunks = .ok plan →
    s.task.trySend (SessionTask.reliably plan.packets) = (.ok (), task) →
      ∃ result, ({ s with task := task }.commitPending stores).1 = .ok result
  refused : ∀ outcome s' stores',
    s.tryCompleteChunkWork store rawChunks stores = (outcome, s', stores') →
      outcome = .ok .backpressured ∨ outcome = .ok .gone ∨ (∃ e, outcome = .error e) →
        s' = s ∧ stores' = stores
  accepted : ∀ outcome s' stores',
    s.tryCompleteChunkWork store rawChunks stores = (outcome, s', stores') →
      outcome = .ok .complete ∨ (∃ result, outcome = .ok (.spawned result)) →
        ∃ plan, s.completionPlan store rawChunks = .ok plan ∧
          s'.task.commands = s.task.commands ++ [SessionTask.reliably plan.packets] ∧
            s'.task.state.pending = none

theorem ReadyState.allOrNothing (h : ReadyState s.task.state) (store : StoreId)
    (rawChunks : List SessionPacket) (stores : Stores) : AllOrNothing s store rawChunks stores := by
  have hcompletes := h.completes store rawChunks stores
  refine ⟨fun plan task hplan hsend => h.commits hplan hsend stores, ?_, ?_⟩
  · intro outcome s' stores' heq houtcome
    rw [heq] at hcompletes
    cases hcompletes with
    | planRefused e => exact ⟨rfl, rfl⟩
    | sendRefused _ _ => exact ⟨rfl, rfl⟩
    | done completion plan _ _ hdone _ _ _ =>
      rcases hdone with rfl | ⟨result, rfl⟩ <;> simp at houtcome
  · intro outcome s' stores' heq houtcome
    rw [heq] at hcompletes
    cases hcompletes with
    | planRefused e => simp at houtcome
    | sendRefused _ hrefused => rcases hrefused with rfl | rfl <;> simp at houtcome
    | done completion plan _ _ _ hplan hcommands hpending =>
      exact ⟨plan, hplan, hcommands, hpending⟩

theorem ReadyState.tryCompleteChunkWork (h : ReadyState s.task.state) (store : StoreId)
    (rawChunks : List SessionPacket) (stores : Stores) :
    ReadyState (s.tryCompleteChunkWork store rawChunks stores).2.1.task.state := by
  rw [StoredTask.tryCompleteChunkWork]
  split
  · exact h
  · rename_i plan _
    rcases trySend_cases (SessionTask.reliably plan.packets) s.task with ⟨e, hs⟩ | hs
    · rw [hs]
      cases e <;> exact h
    · rw [hs]
      have hpushed : ReadyState ({ s with task := { s.task with
          commands := s.task.commands ++ [SessionTask.reliably plan.packets] } } :
            StoredTask wire).task.state := h
      have hcommit := hpushed.commitPending stores
      dsimp only
      generalize StoredTask.commitPending _ stores = committed at hcommit ⊢
      obtain ⟨result, s', stores'⟩ := committed
      cases result with
      | ok _ => exact hcommit
      | error e => exact hcommit

variable {task : SessionTask wire}

theorem ReadyState.trySend (h : ReadyState task.state) (command : SessionCommand) :
    ReadyState (task.trySend command).2.state := by
  rcases trySend_cases command task with ⟨e, hs⟩ | hs <;> rw [hs] <;> exact h

theorem ReadyState.taskAcceptLogin (h : ReadyState task.state) (bootstrap : wire.Bootstrap) :
    ReadyState (task.acceptLogin bootstrap).2.state := by
  have haccepted := h.acceptLogin bootstrap
  rw [SessionTask.acceptLogin]
  generalize task.state.acceptLogin bootstrap = accepted at haccepted ⊢
  obtain ⟨result, state⟩ := accepted
  cases result with
  | error e => exact haccepted
  | ok packets =>
    dsimp only
    rcases trySend_cases (SessionTask.reliably packets) { task with state := state }
      with ⟨e, hs⟩ | hs
    · rw [hs]
      exact haccepted.rollbackLoginAcceptance
    · rw [hs]
      exact haccepted

theorem ReadyState.taskStep {cond : SessionTask wire → Prop} {offer : Offer}
    {a b : SessionTask wire × WorldStore} (h : ReadyState a.1.state)
    (hs : TaskStep cond offer a b) : ReadyState b.1.state := by
  cases hs with
  | takeDeferred hc ht =>
    have htaken := h.takeDeferred
    rwa [ht] at htaken
  | select hc ht =>
    have htaken := h.takeDeferred
    rwa [ht] at htaken
  | handleDeferred hc => exact h.handlePacket _
  | handleReceived hc _ => exact h.handlePacket _
  | unlist hc => exact h.idle rfl rfl
  | receive | consumed | report | reportFailed | command | commandFailed | disconnect
  | commandsClosed | receiveFailed | finish => exact h

theorem ReadyState.step {s s' : StoredTask wire} (h : ReadyState s.task.state)
    (hs : StoredStep s s') : ReadyState s'.task.state := by
  cases hs with
  | task hs => exact ReadyState.taskStep (a := (s.task, _)) h hs
  | trySend command => exact h.trySend command
  | acceptLogin bootstrap => exact h.taskAcceptLogin bootstrap
  | markChunkPrepared store position stores => exact h.markPreparedChunk store position stores
  | tryCompleteChunkWork store rawChunks stores =>
    exact h.tryCompleteChunkWork store rawChunks stores
  | updateViewCursor store cursor =>
    rw [StoredTask.updateViewCursor]
    split
    · exact h
    · exact h.updateViewCursor cursor

-- The owner starts the host with a positive radius.
theorem chunk_work_all_or_nothing {wire : Wire} {maxChunkRadius : Int32} {capacity : Nat}
    {s : StoredTask wire} (hradius : 0 ≤ maxChunkRadius.toInt)
    (hrun : Relation.ReflTransGen StoredStep (.new wire maxChunkRadius capacity) s)
    (store : StoreId) (rawChunks : List SessionPacket) (stores : Stores) :
    AllOrNothing s store rawChunks stores := by
  have hready : ReadyState s.task.state :=
    invariant_of_run (fun s => ReadyState s.task.state) hrun (.new wire hradius)
      fun _ _ h hs => h.step hs
  exact hready.allOrNothing store rawChunks stores

section Prepared

abbrev StoredRun (s : StoredTask movingWire) : Prop :=
  Relation.ReflTransGen StoredStep (.new movingWire 0 2) s

theorem StoredRun.moves {s : StoredTask movingWire} {b : SessionTask movingWire × WorldStore}
    {offer : Offer} (hrun : StoredRun s)
    (hs : TaskStep (fun _ => True) offer (s.task, loadedStore) b) :
    StoredRun { s with task := b.1 } :=
  hrun.tail (.task hs)

def preparedSession : StoredTask movingWire := ⟨preparedTask, 0, 0⟩

theorem preparedSession_run : StoredRun preparedSession := by
  have h₀ : StoredRun (.new movingWire 0 2) := .refl
  have h₁ := h₀.moves (.select rfl rfl)
  have h₂ := h₁.moves (.receive loginPacket rfl)
  have h₃ := h₂.moves (.handleReceived rfl trivial)
  have h₄ := h₃.moves (.report rfl (by simp))
  have h₅ := h₄.tail (.acceptLogin ())
  have h₆ := StoredRun.moves h₅ (.select rfl rfl)
  have h₇ := h₆.moves (.receive (radiusPacket 1) rfl)
  have h₈ := h₇.moves (.handleReceived rfl trivial)
  have h₉ := h₈.moves (.consumed rfl)
  have hloading : StoredRun ⟨loadingTask, 0, 0⟩ := h₉.moves (.select rfl rfl)
  have hmarked : ((⟨loadingTask, 0, 0⟩ : StoredTask movingWire).markPreparedChunk 0 spawnChunk
      fun _ => loadedStore).2.1 = preparedSession := by
    have hpending : loadingTask.state.pending =
        some (initialWork movingWire 1 0 spawnChunk spawnChunk) := rfl
    rw [StoredTask.markPreparedChunk, hpending]
    dsimp only
    rw [StoredTask.markPrepared, prepares_spawn]
    rfl
  rw [← hmarked]
  exact hloading.tail (.markChunkPrepared 0 spawnChunk _)

theorem chunk_work_all_or_nothing_prepared :
    preparedSession.task.state.pending.isSome = true ∧
      AllOrNothing preparedSession 0 [chunkPacket] fun _ => loadedStore :=
  ⟨rfl, chunk_work_all_or_nothing (by decide) preparedSession_run 0 [chunkPacket] _⟩

end Prepared

end Cobblestone.Session
