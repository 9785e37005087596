import Cobblestone.Session.Coordinator
import Cobblestone.Session.Events

namespace Cobblestone.Session

open Lib World SessionTask SessionHost

variable {wire : Wire} {st st' : SessionState wire} {task : SessionTask wire}
  {store store' : WorldStore} {host : SessionHost wire} {id : SessionId} {w : PendingWork}

theorem preparePositions_nodup {view : Option WorldView} (h : w.Fits view) :
    w.preparePositions.Nodup := by
  cases w with
  | initial => exact h.2.1.nodup_iff.mpr nodup_viewPositions
  | view t prepared =>
    obtain ⟨v, -, -, -, hentering, -⟩ := h
    exact hentering.nodup_iff.mpr (nodup_viewPositions.filter _)

theorem sendPositions_perm {view : Option WorldView} (h : w.Fits view) :
    w.sendPositions.Perm w.preparePositions := by
  cases w with
  | initial => exact h.2.2.trans h.2.1.symm
  | view t prepared => exact .refl _

-- Every position of the work is pinned.
def AllPrepared (w : PendingWork) : Prop := ∀ p ∈ w.preparePositions, p ∈ w.prepared.pinned

theorem isComplete_of_perm {prepared : PreparedChunks} {expected : List ChunkCoord}
    (h : prepared.pinned.Perm expected) : prepared.isComplete expected = true := by
  simp only [PreparedChunks.isComplete, PreparedChunks.unprepared, Bool.and_eq_true,
    decide_eq_true_eq, List.isEmpty_iff, List.filter_eq_nil_iff, Bool.not_eq_true',
    Bool.not_eq_false, List.contains_iff_mem]
  exact ⟨h.length_eq, fun p hp => h.mem_iff.mpr hp⟩

theorem AllPrepared.perm (hall : AllPrepared w) (h : StateInv st) (hw : st.pending = some w) :
    w.prepared.pinned.Perm w.preparePositions := by
  have hwell := h.prepared w hw
  rw [List.perm_ext_iff_of_nodup hwell.nodup (preparePositions_nodup (h.fits w hw))]
  exact fun p => ⟨hwell.expected p, hall p⟩

theorem completionPlan_error (h : StateInv st) (hw : st.pending = some w) (hall : AllPrepared w)
    {rawChunks : List SessionPacket} (hlength : rawChunks.length = w.sendPositions.length)
    {e : StateError} (he : st.completionPlan rawChunks = .error e) :
    ∃ message, e = .codec message := by
  rw [SessionState.completionPlan, hw] at he
  simp only [isComplete_of_perm (hall.perm h hw), hlength, decide_true, ensure_true, ok_bind] at he
  cases w with
  | initial requested effective center prepare send prepared =>
    simp only [SessionState.planPackets] at he
    cases hb : wire.encodeBatch rawChunks with
    | error message =>
      rw [hb] at he
      exact ⟨message, (Except.error.inj he).symm⟩
    | ok batch =>
      rw [hb] at he
      cases hs : wire.playerSpawn with
      | error message =>
        rw [hs] at he
        exact ⟨message, (Except.error.inj he).symm⟩
      | ok spawn =>
        rw [hs] at he
        cases he
  | view t prepared =>
    simp only [SessionState.planPackets] at he
    generalize hraw : (if t.fromRadius ≠ t.toRadius then
      [(⟨PacketId.chunkRadiusUpdated, be32 t.toRadius⟩ : SessionPacket)] else []) ++ rawChunks =
        raw at he
    cases hb : wire.encodeBatch raw with
    | error message =>
      rw [hb] at he
      exact ⟨message, (Except.error.inj he).symm⟩
    | ok batch =>
      rw [hb] at he
      cases he

-- Nothing changes between the plan and the commit: both run under the state lock.
theorem commitPending_error (h : StateInv st) (hw : st.pending = some w) (hall : AllPrepared w)
    {e : StateError} (he : (st.commitPending store).1 = .error e) :
    e = .text "initial chunk work has no native world store" := by
  have hperm := hall.perm h hw
  have hfits := h.fits w hw
  rw [SessionState.commitPending, hw] at he
  cases w with
  | initial requested effective center prepare send prepared =>
    have hcomplete : prepared.isComplete send = true :=
      isComplete_of_perm (hperm.trans (sendPositions_perm hfits).symm)
    simp only [SessionState.commitInitial, hcomplete, Bool.true_eq_false, false_and, if_false] at he
    split at he
    · exact (Except.error.inj he).symm
    · cases he
  | view t prepared =>
    obtain ⟨v, hview, hcenter, hradius, -, -⟩ := hfits
    have hcomplete : prepared.isComplete t.entering = true := isComplete_of_perm hperm
    simp only [SessionState.commitView, hview, hcenter, hradius, hcomplete, ne_eq,
      not_true_eq_false, or_self, Bool.true_eq_false, if_false] at he
    cases he

theorem complete_not_stale (h : StateInv task.state) (hw : task.state.pending = some w)
    (hall : AllPrepared w) {rawChunks : List SessionPacket}
    (hlength : rawChunks.length = w.sendPositions.length) {error : HostError}
    (he : (task.tryCompleteChunkWork rawChunks store).1 = .error error) :
    ¬ CoordinatorError.Stale (.host error) := by
  rw [SessionTask.tryCompleteChunkWork] at he
  cases hp : task.state.completionPlan rawChunks with
  | error e =>
    rw [hp] at he
    cases he
    obtain ⟨message, rfl⟩ := completionPlan_error h hw hall hlength hp
    exact id
  | ok plan =>
    rw [hp] at he
    rcases trySend_cases (reliably plan.packets) task with ⟨e, hs⟩ | hs
    · simp only [hs] at he
      cases e <;> cases he
    · simp only [hs] at he
      have hcommit : ∀ e, (task.state.commitPending store).1 = .error e →
          e = .text "initial chunk work has no native world store" :=
        fun _ => commitPending_error h hw hall
      generalize task.state.commitPending store = committed at he hcommit
      obtain ⟨result, state, store'⟩ := committed
      cases result with
      | ok _ => cases he
      | error e =>
        cases he
        rw [hcommit e rfl]
        simp [CoordinatorError.Stale, StateError.Stale]

theorem mark_work (hw : st.pending = some w) {position : ChunkCoord}
    (hp : position ∈ w.preparePositions) {result : Except StateError Unit}
    (hm : st.markPreparedChunk position store = (result, st', store')) :
    (∀ e, result = .error e → ∃ error, e = .store error) ∧
      ∃ prepared, st'.pending = some (w.withPrepared prepared) ∧
        (∀ q ∈ w.prepared.pinned, q ∈ prepared.pinned) ∧
        (result = .ok () → position ∈ prepared.pinned) := by
  simp only [SessionState.markPreparedChunk, hw, PreparedChunks.mark, hp, not_true_eq_false,
    if_false] at hm
  split at hm
  · rename_i hmem
    cases hm
    exact ⟨fun _ he => (by cases he), _, rfl, fun _ hq => hq, fun _ => hmem⟩
  · split at hm
    · cases hm
      exact ⟨fun _ he => ⟨_, (Except.error.inj he).symm⟩, _, rfl, fun _ hq => hq,
        fun he => (by cases he)⟩
    · cases hm
      exact ⟨fun _ he => (by cases he), _, rfl, fun _ hq => List.mem_append_left _ hq,
        fun _ => List.mem_append_right _ (List.mem_singleton.mpr rfl)⟩

theorem markChunkPrepared_work (hw : task.state.pending = some w) {position : ChunkCoord}
    (hp : position ∈ w.preparePositions) {task' : SessionTask wire}
    {result : Except HostError Unit}
    (hm : task.markChunkPrepared position store = (result, task', store')) :
    (∀ e, result = .error e → ¬ CoordinatorError.Stale (.host e)) ∧
      ∃ prepared, task'.state.pending = some (w.withPrepared prepared) ∧
        (∀ q ∈ w.prepared.pinned, q ∈ prepared.pinned) ∧
        (result = .ok () → position ∈ prepared.pinned) := by
  rw [SessionTask.markChunkPrepared] at hm
  cases h : task.state.markPreparedChunk position store with
  | mk marked rest =>
    obtain ⟨state, store''⟩ := rest
    obtain ⟨herror, prepared, hpending, hkept, hnew⟩ := mark_work hw hp h
    rw [h] at hm
    cases marked with
    | ok _ =>
      cases hm
      exact ⟨fun _ he => (by cases he), prepared, hpending, hkept, fun _ => hnew rfl⟩
    | error e =>
      cases hm
      obtain ⟨error, rfl⟩ := herror e rfl
      refine ⟨fun e he => ?_, prepared, hpending, hkept, fun he => (by cases he)⟩
      cases he
      exact id

section Slots

variable {before after : List (HostEntry wire)} {entry entry' : HostEntry wire}

theorem SlotAt.slot (h : host.SlotAt id before entry after) : host.slot id = some entry := by
  rw [SessionHost.slot, h.entries, List.find?_eq_some_iff_append]
  refine ⟨h.answers, before, after, rfl, fun other ho => ?_⟩
  rw [h.first other ho]
  rfl

theorem pendingWork_replaced (h : host.SlotAt id before entry after)
    (ha : answersTo id entry' = true) (store : WorldStore) :
    ({ host with store := store, entries := before ++ entry' :: after } :
      SessionHost wire).pendingWork id = entry'.task.state.pending := by
  have hslot : ({ host with store := store, entries := before ++ entry' :: after } :
      SessionHost wire).SlotAt id before entry' after := ⟨rfl, ha, h.first⟩
  rw [SessionHost.pendingWork, SlotAt.slot hslot]
  rfl

theorem pendingWork_at (h : host.SlotAt id before entry after) :
    host.pendingWork id = entry.task.state.pending := by
  rw [SessionHost.pendingWork, SlotAt.slot h]
  rfl

theorem stateInv_of_slot (h : SessionsInv host.states) (hs : host.slot id = some entry) :
    StateInv entry.task.state :=
  h.states _ (List.mem_map_of_mem (List.mem_of_find?_eq_some hs))

theorem slot_of_work (hw : host.pendingWork id = some w) :
    ∃ entry, host.slot id = some entry ∧ entry.task.state.pending = some w :=
  Option.bind_eq_some_iff.mp hw

-- Prepared chunks are pinned, and what is pinned is resident.
theorem resident_of_prepared (h : SessionsInv host.states) (hs : host.slot id = some entry)
    (hw : entry.task.state.pending = some w) {p : ChunkCoord} (hp : p ∈ w.prepared.pinned) :
    host.store.containsChunk p = true := by
  have hbalance := h.balance p
  have hmem : entry.task.state ∈ host.states.sessions :=
    List.mem_map_of_mem (List.mem_of_find?_eq_some hs)
  have hprepares : prepares p entry.task.state = true := by
    simpa [prepares, hw] using hp
  have hcount : 0 < host.states.sessions.countP (prepares p) :=
    List.countP_pos_iff.mpr ⟨_, hmem, hprepares⟩
  have hpins : 0 < pins host.store p := by
    have hb : pins host.store p = pinners host.states.sessions p := hbalance
    rw [hb, pinners]
    omega
  rw [pins] at hpins
  rw [WorldStore.containsChunk]
  cases hc : host.store.chunks p with
  | none =>
    rw [hc] at hpins
    exact absurd hpins (lt_irrefl 0)
  | some c => rfl

end Slots

theorem nextChunkWork_spec {after : SessionId} {work : ChunkWork}
    (h : host.nextChunkWork after = some (id, work)) :
    ∃ entry ∈ host.entries, answersTo id entry = true ∧
      entry.task.state.chunkWork = some work := by
  rw [SessionHost.nextChunkWork] at h
  obtain ⟨entry, hmem, hwork⟩ := List.exists_of_findSome?_eq_some h
  rw [List.mem_mergeSort, List.mem_filter, Bool.and_eq_true] at hmem
  obtain ⟨found, hfound, heq⟩ := Option.map_eq_some_iff.mp hwork
  obtain ⟨rfl, rfl⟩ := Prod.mk.inj heq
  exact ⟨entry, hmem.1, by simp [answersTo, hmem.2.1], hfound⟩

theorem slot_of_answers (hids : (host.entries.map HostEntry.id).Nodup) {entry : HostEntry wire}
    (hmem : entry ∈ host.entries) (ha : answersTo id entry = true) :
    host.slot id = some entry := by
  cases hs : host.slot id with
  | none =>
    have hno := List.find?_eq_none.mp hs entry hmem
    exact absurd ha hno
  | some found =>
    have hfound : answersTo id found = true := List.find?_some hs
    simp only [answersTo, Bool.and_eq_true, decide_eq_true_eq] at ha hfound
    have hsame := List.inj_on_of_nodup_map hids (List.mem_of_find?_eq_some hs) hmem
      (hfound.2.trans ha.2.symm)
    rw [hsame]

-- What is still to be marked belongs to the work, and unless something was skipped the rest is
-- pinned already.
def Prepares (w : PendingWork) (positions : List ChunkCoord) (complete : Bool) : Prop :=
  (∀ p ∈ positions, p ∈ w.preparePositions) ∧
    (complete = true → ∀ p ∈ w.preparePositions, p ∈ w.prepared.pinned ∨ p ∈ positions)

def InHand (w : PendingWork) : Coordinator → Prop
  | .preparing _ positions complete => Prepares w positions complete
  | .marking _ position rest complete => Prepares w (position :: rest) complete
  | .completing _ => AllPrepared w
  | .encoding _ positions => AllPrepared w ∧ positions = w.sendPositions
  | .submitting _ packets => AllPrepared w ∧ packets.length = w.sendPositions.length
  | _ => True

structure CoordinatorInv (c : Coordinator) (host : SessionHost wire) : Prop where
  states : SessionsInv host.states
  ids : (host.entries.map HostEntry.id).Nodup
  hand : ∀ id, c.holds = some id → ∃ w, host.pendingWork id = some w ∧ InHand w c
  fresh : ∀ e, c = .raised e → ¬ e.Stale

section Steps

variable {c c' : Coordinator}

theorem prepares_polled (hw : st.pending = some w) {work : ChunkWork}
    (hc : st.chunkWork = some work) : Prepares w work.positions true := by
  rw [SessionState.chunkWork, hw] at hc
  cases hc
  constructor
  · intro p hp
    exact (List.mem_filter.mp hp).1
  · intro _ p hp
    by_cases hpin : p ∈ w.prepared.pinned
    · exact .inl hpin
    · refine .inr (List.mem_filter.mpr ⟨hp, ?_⟩)
      simpa using hpin

-- A coordinator step that leaves the host alone.
theorem CoordinatorInv.advance (h : CoordinatorInv c host) (hid : c.holds = some id)
    (hholds : c'.holds = some id) (hraised : ∀ e, c' ≠ .raised e)
    (hnext : ∀ w, InHand w c → InHand w c') : CoordinatorInv c' host where
  states := h.states
  ids := h.ids
  hand other ho := by
    obtain rfl : id = other := Option.some.inj (hholds.symm.trans ho)
    obtain ⟨w, hw, hin⟩ := h.hand id hid
    exact ⟨w, hw, hnext w hin⟩
  fresh e he := absurd he (hraised e)

theorem CoordinatorInv.release (h : CoordinatorInv c host) (hholds : c'.holds = none)
    (hraised : ∀ e, c' = .raised e → ¬ e.Stale) : CoordinatorInv c' host where
  states := h.states
  ids := h.ids
  hand id hid := by cases hholds.symm.trans hid
  fresh := hraised

theorem CoordinatorInv.registered (h : CoordinatorInv c host) (hid : c.holds = some id) :
    host.slot id ≠ none := by
  intro hnone
  obtain ⟨w, hw, -⟩ := h.hand id hid
  obtain ⟨entry, hs, -⟩ := slot_of_work hw
  cases hnone.symm.trans hs

theorem CoordinatorInv.atSlot (h : CoordinatorInv c host) (hid : c.holds = some id)
    {entry : HostEntry wire} (hs : host.slot id = some entry) :
    ∃ w, entry.task.state.pending = some w ∧ InHand w c := by
  obtain ⟨w, hw, hin⟩ := h.hand id hid
  obtain ⟨found, hs', hp⟩ := slot_of_work hw
  cases hs.symm.trans hs'
  exact ⟨w, hp, hin⟩

theorem answersTo_withTask {entry : HostEntry wire} (ha : answersTo id entry = true)
    (task : SessionTask wire) : answersTo id { entry with task := task } = true := ha

theorem Prepares.marked {prepared : PreparedChunks} {position : ChunkCoord}
    {rest : List ChunkCoord} {complete : Bool} (h : Prepares w (position :: rest) complete)
    (hkept : ∀ q ∈ w.prepared.pinned, q ∈ prepared.pinned) (hnew : position ∈ prepared.pinned) :
    Prepares (w.withPrepared prepared) rest complete := by
  rw [Prepares, preparePositions_withPrepared, prepared_withPrepared]
  refine ⟨fun p hp => h.1 p (List.mem_cons_of_mem _ hp), fun hc p hp => ?_⟩
  rcases h.2 hc p hp with hpin | hmem
  · exact .inl (hkept p hpin)
  · rcases List.mem_cons.mp hmem with rfl | hmem
    · exact .inl hnew
    · exact .inr hmem

theorem Prepares.skipped {position : ChunkCoord} {rest : List ChunkCoord} {complete : Bool}
    (h : Prepares w (position :: rest) complete) : Prepares w rest false :=
  ⟨fun p hp => h.1 p (List.mem_cons_of_mem _ hp), fun hc => nomatch hc⟩

theorem Prepares.done (h : Prepares w [] true) : AllPrepared w :=
  fun p hp => (h.2 rfl p hp).resolve_right List.not_mem_nil

theorem CoordinatorInv.mark {position : ChunkCoord} {rest : List ChunkCoord} {complete : Bool}
    {before after : List (HostEntry wire)} {entry : HostEntry wire}
    {result : Except HostError Unit} (h : CoordinatorInv (.marking id position rest complete) host)
    (hslot : host.SlotAt id before entry after)
    (hm : entry.task.markChunkPrepared position host.store = (result, task, store)) :
    (result = .ok () → CoordinatorInv (.preparing id rest complete)
      { host with store := store, entries := before ++ { entry with task := task } :: after }) ∧
    ∀ e, result = .error e → CoordinatorInv (.raised (.host e))
      { host with store := store, entries := before ++ { entry with task := task } :: after } := by
  obtain ⟨w, hw, hin⟩ := h.atSlot rfl (SlotAt.slot hslot)
  obtain ⟨herror, prepared, hpending, hkept, hnew⟩ :=
    markChunkPrepared_work hw (hin.1 position List.mem_cons_self) hm
  have hstates : SessionsInv ({ host with
      store := store, entries := before ++ { entry with task := task } :: after } :
        SessionHost wire).states := by
    refine states_replaced h.states hslot.entries (fun others hb => ?_) rfl
    have hmark := hb.markCall position
    rw [hm] at hmark
    exact hmark
  have hids : ((before ++ { entry with task := task } :: after).map HostEntry.id).Nodup :=
    ids_replaced h.ids hslot.entries rfl
  refine ⟨fun hok => ⟨hstates, hids, fun other ho => ?_, fun _ he => nomatch he⟩,
    fun e he => ⟨hstates, hids, fun _ ho => (nomatch ho), fun e' he' => ?_⟩⟩
  · obtain rfl : id = other := Option.some.inj ho
    refine ⟨_, ?_, hin.marked hkept (hnew hok)⟩
    rw [pendingWork_replaced hslot (answersTo_withTask hslot.answers task)]
    exact hpending
  · obtain rfl := Coordinator.raised.inj he'
    exact herror e he

theorem CoordinatorInv.submit {packets : List SessionPacket}
    {before after : List (HostEntry wire)} {entry : HostEntry wire}
    {result : Except HostError ChunkWorkCompletion}
    (h : CoordinatorInv (.submitting id packets) host)
    (hslot : host.SlotAt id before entry after)
    (hc : entry.task.tryCompleteChunkWork packets host.store = (result, task, store)) :
    CoordinatorInv (.polling id)
      { host with store := store, entries := before ++ { entry with task := task } :: after } ∧
    ∀ e, result = .error e → CoordinatorInv (.raised (.host e))
      { host with store := store, entries := before ++ { entry with task := task } :: after } := by
  obtain ⟨w, hw, hall, hlength⟩ := h.atSlot rfl (SlotAt.slot hslot)
  have hinv := stateInv_of_slot h.states (SlotAt.slot hslot)
  have hstates : SessionsInv ({ host with
      store := store, entries := before ++ { entry with task := task } :: after } :
        SessionHost wire).states := by
    refine states_replaced h.states hslot.entries (fun others hb => ?_) rfl
    have hcomplete := hb.completeCall packets
    rw [hc] at hcomplete
    exact hcomplete
  have hids : ((before ++ { entry with task := task } :: after).map HostEntry.id).Nodup :=
    ids_replaced h.ids hslot.entries rfl
  refine ⟨⟨hstates, hids, fun _ ho => (nomatch ho), fun _ he => nomatch he⟩,
    fun e he => ⟨hstates, hids, fun _ ho => (nomatch ho), fun e' he' => ?_⟩⟩
  obtain rfl := Coordinator.raised.inj he'
  have hfirst : (entry.task.tryCompleteChunkWork packets host.store).1 = .error e := by
    rw [hc, he]
  exact complete_not_stale hinv hw hall hlength hfirst

theorem CoordinatorInv.step {a b : Coordinator × SessionHost wire} (h : CoordinatorInv a.1 a.2)
    (hs : CoordinatorStep Undisturbed a b) : CoordinatorInv b.1 b.2 := by
  cases hs with
  | native hs hcalm =>
    refine ⟨states_step h.states hs, ids_step h.ids hs, fun id hid => ?_, h.fresh⟩
    obtain ⟨w, hw, hin⟩ := h.hand id hid
    exact ⟨w, (hcalm id hid).trans hw, hin⟩
  | tick => exact h.release rfl fun _ he => nomatch he
  | pollNone hn => exact h.release rfl fun _ he => nomatch he
  | poll hn =>
    refine ⟨h.states, h.ids, fun other ho => ?_, fun _ he => nomatch he⟩
    cases ho
    obtain ⟨entry, hmem, ha, hwork⟩ := nextChunkWork_spec hn
    obtain ⟨w, hw, -⟩ := Option.map_eq_some_iff.mp hwork
    refine ⟨w, ?_, prepares_polled hw hwork⟩
    rw [SessionHost.pendingWork, slot_of_answers h.ids hmem ha]
    exact hw
  | skip => exact h.advance rfl rfl (fun _ he => nomatch he) fun _ hin => hin.skipped
  | prepared hresident => exact h.advance rfl rfl (fun _ he => nomatch he) fun _ hin => hin
  | mark hslot hm => exact (h.mark hslot hm).1 rfl
  | markFailed hslot hm => exact (h.mark hslot hm).2 _ rfl
  | markUnknown hslot => exact absurd hslot (h.registered rfl)
  | incomplete => exact h.release rfl fun _ he => nomatch he
  | complete => exact h.advance rfl rfl (fun _ he => nomatch he) fun _ hin => hin.done
  | chunkWork hslot hw =>
    refine ⟨h.states, h.ids, fun other ho => ?_, fun _ he => nomatch he⟩
    cases ho
    obtain ⟨w, hp, hall⟩ := h.atSlot rfl hslot
    refine ⟨w, by rw [SessionHost.pendingWork, hslot]; exact hp, hall, ?_⟩
    rw [SessionState.chunkWork, hp] at hw
    cases hw
    rfl
  | chunkWorkNone hslot hw =>
    obtain ⟨w, hp, -⟩ := h.atSlot rfl hslot
    rw [SessionState.chunkWork, hp] at hw
    cases hw
  | chunkWorkUnknown hslot => exact absurd hslot (h.registered rfl)
  | encode packets hlength hresident =>
    refine h.advance rfl rfl (fun _ he => nomatch he) fun w hin => ⟨hin.1, ?_⟩
    rw [hlength, hin.2]
  | encodeMissing hmem hmissing =>
    obtain ⟨w, hw, hall, rfl⟩ := h.hand _ rfl
    obtain ⟨entry, hslot, hp⟩ := slot_of_work hw
    have hfits := (stateInv_of_slot h.states hslot).fits w hp
    have hpinned := hall _ ((sendPositions_perm hfits).mem_iff.mp hmem)
    cases hmissing.symm.trans (resident_of_prepared h.states hslot hp hpinned)
  | encodeFailed message =>
    refine h.release rfl fun e he => ?_
    cases he
    exact id
  | submit hslot hc => exact (h.submit hslot hc).1
  | submitFailed hslot hc => exact (h.submit hslot hc).2 _ rfl
  | submitUnknown hslot => exact absurd hslot (h.registered rfl)

end Steps

theorem HostRun.idle {calm : Coordinator → SessionHost wire → SessionHost wire → Prop}
    {eventCapacity commandCapacity : Nat} {maxChunkRadius : Int32} (hcalm : ∀ a b, calm .idle a b)
    (hrun : HostRun (fun _ _ => True) eventCapacity commandCapacity maxChunkRadius host) :
    CoordinatorRun calm eventCapacity commandCapacity maxChunkRadius (.idle, host) :=
  hrun.lift (fun host => (Coordinator.idle, host)) fun a b hs => .native hs (hcalm a b)

def askingTask : SessionTask quietWire where
  control := .reporting .consumed
  state := joiningState
  commands := [reliably []]
  capacity := 1
  arrived := [loginPacket, radiusPacket 1]
  handled := [loginPacket, radiusPacket 1]

-- One session that has asked for its first chunks.
def askingHost : SessionHost quietWire :=
  { joinedHost quietWire 2 with
    entries := [⟨firstSession, true, askingTask⟩]
    events := [.connected firstSession "peer", .loginRequested firstSession]
    enqueued := [.connected firstSession "peer", .loginRequested firstSession] }

theorem HostRun.only {eventCapacity commandCapacity : Nat} {maxChunkRadius : Int32}
    {entry : HostEntry wire} {offer : Offer}
    (hrun : HostRun (fun _ _ => True) eventCapacity commandCapacity maxChunkRadius host)
    (hentries : host.entries = [entry])
    (hstep : TaskStep (fun _ => True) offer (entry.task, host.store) (task, store))
    (htaken : ∀ event, offer.event entry.id = some event → (offer.taken = true ↔ host.HasRoom)) :
    HostRun (fun _ _ => True) eventCapacity commandCapacity maxChunkRadius
      { host.offer (offer.event entry.id) with store := store, entries := [entry.moved task] } := by
  have hsplit : host.entries = [] ++ entry :: [] := hentries
  exact hrun.tail (.task hsplit hstep htaken trivial)

theorem HostRun.owned {eventCapacity commandCapacity : Nat} {maxChunkRadius : Int32}
    {entry : HostEntry wire}
    (hrun : HostRun (fun _ _ => True) eventCapacity commandCapacity maxChunkRadius host)
    (hentries : host.entries = [entry]) (hlisted : entry.listed = true) (call : OwnerCall wire) :
    HostRun (fun _ _ => True) eventCapacity commandCapacity maxChunkRadius { host with
      store := (call.apply entry.task host.store).2
      entries := [{ entry with task := (call.apply entry.task host.store).1 }] } := by
  have hsplit : host.entries = [] ++ entry :: [] := hentries
  exact hrun.tail (.owner hsplit hlisted call)

theorem askingHost_run : HostRun (fun _ _ => True) 2 1 1 askingHost := by
  have h₁ := joinedHost_run quietWire (fun _ _ => True) Nat.two_pos
  have h₂ := h₁.only rfl (.select rfl rfl) fun _ he => nomatch he
  have h₃ := h₂.only rfl (.receive loginPacket rfl) fun _ he => nomatch he
  have h₄ := h₃.only rfl (.handleReceived rfl trivial) fun _ he => nomatch he
  have h₅ := h₄.only rfl (.report rfl (by simp)) fun _ _ => by decide
  have h₆ := h₅.owned rfl rfl (.acceptLogin ())
  have h₇ := h₆.only rfl (.select rfl rfl) fun _ he => nomatch he
  have h₈ := h₇.only rfl (.receive (radiusPacket 1) rfl) fun _ he => nomatch he
  exact h₈.only rfl (.handleReceived rfl trivial) fun _ he => nomatch he

def askedWork : ChunkWork where
  kind := .initial
  positions := PreparedChunks.new.unprepared
    (SessionState.initialWork quietWire 1 1 spawnChunk ()).preparePositions
  sendPositions := initialSendPositions spawnChunk 1

theorem askingHost_work : askingHost.nextChunkWork 0 = some (firstSession, askedWork) := by
  have hfilter : askingHost.entries.filter (fun entry => entry.listed && decide (0 < entry.id)) =
      [⟨firstSession, true, askingTask⟩] := rfl
  rw [SessionHost.nextChunkWork, hfilter, List.mergeSort_singleton]
  rfl

theorem polled_run {calm : Coordinator → SessionHost quietWire → SessionHost quietWire → Prop}
    (hcalm : ∀ a b, calm .idle a b) : CoordinatorRun calm 2 1 1
      (.preparing firstSession askedWork.positions true, askingHost) := by
  have h₁ := HostRun.idle hcalm askingHost_run
  exact (h₁.tail .tick).tail (.poll askingHost_work)

theorem askedWork_positions : ∃ position rest, askedWork.positions = position :: rest := by
  have hmem : spawnChunk ∈ askedWork.positions := by
    refine List.mem_filter.mpr ⟨?_, rfl⟩
    refine (prioritizeForPlayer_perm _ _).mem_iff.mpr ?_
    rw [mem_viewPositions]
    decide
  exact List.exists_cons_of_ne_nil (List.ne_nil_of_mem hmem)

theorem CoordinatorRun.only {eventCapacity commandCapacity : Nat} {maxChunkRadius : Int32}
    {c : Coordinator} {entry : HostEntry wire}
    (hrun : CoordinatorRun (fun _ _ _ => True) eventCapacity commandCapacity maxChunkRadius (c, host))
    (hentries : host.entries = [entry])
    (hstep : TaskStep (fun _ => True) .nothing (entry.task, host.store) (task, store)) :
    CoordinatorRun (fun _ _ _ => True) eventCapacity commandCapacity maxChunkRadius
      (c, { host with store := store, entries := [entry.moved task] }) := by
  have hsplit : host.entries = [] ++ entry :: [] := hentries
  exact hrun.tail (.native (.task hsplit hstep (fun _ he => nomatch he) trivial) trivial)

theorem containsChunk_ensureChunk (store : WorldStore) (p : ChunkCoord) {biome : UInt8}
    (hb : defaultBiomeWord biome ≠ none) : (store.ensureChunk p biome).2.containsChunk p = true := by
  rw [WorldStore.ensureChunk]
  split
  · rename_i hnone
    exact absurd hnone hb
  · split
    · assumption
    · simp [WorldStore.containsChunk]

end Cobblestone.Session
