import Cobblestone.Session.Pins
import Cobblestone.Lib.Trace

namespace Cobblestone.Session

open Lib World SessionState

variable {wire : Wire} {st st' : SessionState wire} {store store' : WorldStore}
  {others : ChunkCoord → Nat} {p : ChunkCoord}

theorem transition_fits {v : WorldView} {toCenter : ChunkCoord} {toRadius : Int32}
    {t : ChunkViewTransition}
    (ht : chunkViewTransition v.center v.radius toCenter toRadius = some t)
    (priority : ChunkCoord → Int32) (prepared : PreparedChunks) :
    (PendingWork.view { t with entering := prioritizeForPlayer priority t.entering } prepared).Fits
      (some v) := by
  rw [chunkViewTransition] at ht
  split at ht
  · cases ht
  · cases ht
    exact ⟨v, rfl, rfl, rfl, prioritizeForPlayer_perm .., rfl⟩

theorem Balanced.planViewTransition (h : Balanced others st store) (toCenter : ChunkCoord)
    (toRadius : Int32) (player : wire.Position) :
    Balanced others (st.planViewTransition toCenter toRadius player store).2.1
      (st.planViewTransition toCenter toRadius player store).2.2 := by
  rw [SessionState.planViewTransition]
  split
  · exact h
  · rename_i v hv
    split
    · have hframe : Balanced others { st with desiredRadius := none } store := h.frame rfl rfl id
      exact hframe.setPending (fun w hw => nomatch hw)
    · rename_i t ht
      dsimp only
      split
      · exact h
      · refine h.setPending fun w hw => ?_
        cases hw
        refine ⟨rfl, ?_⟩
        rw [hv]
        exact transition_fits ht _ _

theorem initialWork_fits (requested effective : Int32) (center : ChunkCoord)
    (player : wire.Position) : (initialWork wire requested effective center player).Fits none :=
  ⟨rfl, prioritizeForPlayer_perm .., initialSendPositions_perm⟩

theorem Balanced.handleWaitingChunkRadius (h : Balanced others st store)
    (hphase : st.phase ≠ .spawned) (packet : SessionPacket) :
    Balanced others (st.handleWaitingChunkRadius packet store).2.1
      (st.handleWaitingChunkRadius packet store).2.2 := by
  rw [SessionState.handleWaitingChunkRadius]
  split
  · exact h
  · split
    · exact h
    · exact h
    · exact h
    · rename_i requested center player _ _ _
      have hframe : Balanced others { st with phase := .waitingInitialChunks } store :=
        h.frame rfl rfl fun _ => hphase
      refine hframe.setPending fun w hw => ?_
      cases hw
      refine ⟨rfl, ?_⟩
      rw [show ({ st with phase := .waitingInitialChunks } : SessionState wire).view = none from
        h.inv.unspawned hphase]
      exact initialWork_fits ..

theorem Balanced.handleMovePlayer (h : Balanced others st store) (packet : SessionPacket) :
    Balanced others (st.handleMovePlayer packet store).2.1
      (st.handleMovePlayer packet store).2.2 := by
  rw [SessionState.handleMovePlayer]
  split
  · exact h
  · split
    · exact h
    · rename_i position _ _ chunk _
      have hframe : Balanced others
          { st with position := some position, playerChunk := some chunk } store :=
        h.frame rfl rfl id
      dsimp only
      split
      · exact hframe.planViewTransition ..
      · exact hframe.planViewTransition ..
      · exact hframe

theorem Balanced.handleRadiusChange (h : Balanced others st store) (packet : SessionPacket) :
    Balanced others (st.handleRadiusChange packet store).2.1
      (st.handleRadiusChange packet store).2.2 := by
  rw [SessionState.handleRadiusChange]
  split
  · exact h
  · rename_i requested _
    have hframe : Balanced others
        { st with desiredRadius := some (min requested st.maxChunkRadius) } store :=
      h.frame rfl rfl id
    dsimp only
    split
    · exact hframe
    · exact hframe
    · exact hframe.planViewTransition ..

theorem Balanced.handlePacket (h : Balanced others st store) (packet : SessionPacket) :
    Balanced others (st.handlePacket packet store).2.1 (st.handlePacket packet store).2.2 := by
  rw [SessionState.handlePacket]
  cases hphase : st.phase with
  | waitingLogin =>
    simp only [handleWaitingLogin]
    split
    · exact h
    · split
      · exact h
      · exact h.frame rfl rfl fun _ => by simp [hphase]
  | loginPending =>
    simp only [handleLoginPending]
    split
    · exact h
    · exact h.frame rfl rfl id
  | waitingChunkRadius => exact h.handleWaitingChunkRadius (by simp [hphase]) packet
  | waitingInitialChunks => exact h
  | spawned =>
    simp only [handleSpawned]
    split
    · exact h.handleMovePlayer packet
    · split
      · exact h.handleRadiusChange packet
      · exact h

theorem Balanced.takeDeferred (h : Balanced others st store) :
    Balanced others st.takeDeferred.2 store := by
  rw [SessionState.takeDeferred]
  split
  · exact h
  · split
    · exact h
    · exact h.frame rfl rfl id

theorem Balanced.acceptLogin (h : Balanced others st store) (bootstrap : wire.Bootstrap) :
    Balanced others (st.acceptLogin bootstrap).2 store := by
  rw [SessionState.acceptLogin]
  split
  · exact h
  · rename_i hphase
    split
    · exact h
    · refine h.frame rfl rfl fun _ => ?_
      rw [not_not] at hphase
      simp [hphase]

theorem Balanced.rollbackLoginAcceptance (h : Balanced others st store) :
    Balanced others st.rollbackLoginAcceptance store := by
  rw [SessionState.rollbackLoginAcceptance]
  split
  · rename_i hphase
    exact h.frame rfl rfl fun _ => by simp [hphase.1]
  · exact h

theorem preparePositions_withPrepared (w : PendingWork) (prepared : PreparedChunks) :
    (w.withPrepared prepared).preparePositions = w.preparePositions := by
  cases w <;> rfl

theorem prepared_withPrepared (w : PendingWork) (prepared : PreparedChunks) :
    (w.withPrepared prepared).prepared = prepared := by
  cases w <;> rfl

theorem fits_withPrepared {view : Option WorldView} {w : PendingWork} (h : w.Fits view)
    (prepared : PreparedChunks) : (w.withPrepared prepared).Fits view := by
  cases w <;> exact h

theorem mark_spec {prepared : PreparedChunks} {expected : List ChunkCoord}
    (h : prepared.WellFormed expected) (p : ChunkCoord) (store : WorldStore) :
    (prepared.mark expected p store).2.1.WellFormed expected ∧
      ∀ q, pins (prepared.mark expected p store).2.2 q + (if q ∈ prepared.pinned then 1 else 0) =
        pins store q + if q ∈ (prepared.mark expected p store).2.1.pinned then 1 else 0 := by
  rw [PreparedChunks.mark]
  split
  · exact ⟨h, fun q => rfl⟩
  · rename_i hin
    split
    · exact ⟨h, fun q => rfl⟩
    · rename_i hnew
      split
      · rename_i e store' hpin
        exact ⟨h, fun q => by rw [pins_pinChunk_error hpin]⟩
      · rename_i n store' hpin
        refine ⟨⟨?_, ?_, fun ha => (nomatch ha)⟩, fun q => ?_⟩
        · exact List.nodup_append.mpr ⟨h.nodup, List.nodup_singleton _, by
            rintro a ha b hb rfl
            cases List.mem_singleton.mp hb
            exact hnew ha⟩
        · intro q hq
          rcases List.mem_append.mp hq with hq | hq
          · exact h.expected q hq
          · cases List.mem_singleton.mp hq
            exact not_not.mp hin
        · rw [pins_pinChunk_ok hpin]
          by_cases hq : q = p
          · subst hq
            simp [hnew]
          · simp [hq]

theorem Balanced.markPreparedChunk (h : Balanced others st store) (p : ChunkCoord) :
    Balanced others (st.markPreparedChunk p store).2.1 (st.markPreparedChunk p store).2.2 := by
  rw [SessionState.markPreparedChunk]
  split
  · exact h
  · rename_i w hw
    obtain ⟨hwf, hpins⟩ := mark_spec (h.inv.prepared w hw) p store
    generalize w.prepared.mark w.preparePositions p store = marked at hwf hpins ⊢
    obtain ⟨result, prepared, store'⟩ := marked
    dsimp only at hwf hpins ⊢
    refine ⟨⟨h.inv.pinned, fun w' hw' => ?_, fun w' hw' => ?_, h.inv.unspawned⟩, fun q => ?_⟩
    · cases hw'
      rw [prepared_withPrepared, preparePositions_withPrepared]
      exact hwf
    · cases hw'
      exact fits_withPrepared (h.inv.fits w hw) _
    · have hb := h.balance q
      have hq := hpins q
      simp only [viewShare, preparedShare, hw, prepared_withPrepared] at hb ⊢
      omega

-- The same number of pins and none of the expected ones missing.
theorem mem_of_isComplete {prepared : PreparedChunks} {expected : List ChunkCoord}
    (hn : expected.Nodup) (hc : prepared.isComplete expected = true) :
    ∀ q, q ∈ prepared.pinned ↔ q ∈ expected := by
  simp only [PreparedChunks.isComplete, PreparedChunks.unprepared, Bool.and_eq_true,
    decide_eq_true_eq, List.isEmpty_iff, List.filter_eq_nil_iff, Bool.not_eq_true',
    Bool.not_eq_false, List.contains_iff_mem] at hc
  obtain ⟨hlen, hmem⟩ := hc
  have hsub : expected.Subperm prepared.pinned := hn.subperm fun q hq => hmem q hq
  have hperm : expected.Perm prepared.pinned := hsub.perm_of_length_le hlen.le
  intro q
  exact hperm.symm.mem_iff

theorem Balanced.failCommit (h : Balanced others st store) {w : PendingWork}
    (hw : st.pending = some w) (message : String) :
    Balanced others
      (SessionState.failCommit message { st with pending := none } w.prepared store).2.1
      (SessionState.failCommit message { st with pending := none } w.prepared store).2.2 := by
  have hset : Balanced others (st.setPending none store).1 (st.setPending none store).2 :=
    h.setPending fun w hw => nomatch hw
  rw [SessionState.setPending, hw] at hset
  exact hset

theorem Balanced.commitInitial (h : Balanced others st store) {requested effective : Int32}
    {center : ChunkCoord} {prepare send : List ChunkCoord} {prepared : PreparedChunks}
    (hw : st.pending = some (.initial requested effective center prepare send prepared)) :
    Balanced others
      (({ st with pending := none }.commitInitial requested effective center send prepared store).2.1)
      (({ st with pending := none }.commitInitial requested effective center send prepared
        store).2.2) := by
  obtain ⟨hview, -, hsend⟩ := h.inv.fits _ hw
  rw [SessionState.commitInitial]
  split
  · exact h.failCommit hw _
  · rename_i hcomplete
    split
    · exact h.failCommit hw _
    · have hpinned : ∀ q, q ∈ prepared.pinned ↔ q ∈ viewPositions center effective := by
        rw [not_and_or, Bool.not_eq_false, Bool.not_eq_false] at hcomplete
        intro q
        rcases hcomplete with hc | hc
        · rw [mem_of_isComplete (hsend.nodup_iff.mpr nodup_viewPositions) hc q]
          exact hsend.mem_iff
        · exact mem_of_isComplete nodup_viewPositions hc q
      refine ⟨⟨fun v hv => ?_, fun w hw' => (nomatch hw'), fun w hw' => (nomatch hw'),
        fun hne => absurd rfl hne⟩, fun q => ?_⟩
      · cases hv
        rfl
      · have hb := h.balance q
        simp only [viewShare, preparedShare, hview, hw, PendingWork.prepared, hpinned] at hb
        simp only [viewShare, preparedShare, hview, dropView, hb]
        omega

-- Keeping the overlap, adding what enters and releasing what leaves pins the new view.
theorem Balanced.commitView (h : Balanced others st store) {t : ChunkViewTransition}
    {prepared : PreparedChunks} (hw : st.pending = some (.view t prepared)) :
    Balanced others ({ st with pending := none }.commitView t prepared store).2.1
      ({ st with pending := none }.commitView t prepared store).2.2 := by
  obtain ⟨v, hview, hcenter, hradius, hentering, hleaving⟩ := h.inv.fits _ hw
  rw [SessionState.commitView]
  split
  · exact h.failCommit hw _
  · rename_i v' hv'
    obtain rfl : v = v' := Option.some.inj (hview.symm.trans hv')
    split
    · exact h.failCommit hw _
    · split
      · exact h.failCommit hw _
      · rename_i hcomplete
        rw [Bool.not_eq_false] at hcomplete
        have hnodup : t.entering.Nodup := hentering.nodup_iff.mpr (nodup_viewPositions.filter _)
        have hpinned := mem_of_isComplete hnodup hcomplete
        refine ⟨⟨fun v hv => ?_, fun w hw' => (nomatch hw'), fun w hw' => (nomatch hw'),
          fun hne => ?_⟩, fun q => ?_⟩
        · cases hv
          rfl
        · cases (h.inv.unspawned hne).symm.trans hview
        · have hb := h.balance q
          have hkept := h.inv.pinned v hview
          rw [hcenter, hradius] at hkept
          have hleave : t.leaving.Nodup := by
            rw [hleaving]
            exact nodup_viewPositions.filter _
          simp only [viewShare, preparedShare, hview, hw, PendingWork.prepared, hpinned,
            hentering.mem_iff, hkept, List.mem_filter, mem_viewPositions] at hb
          rw [pins_unpinAll hleave, hb]
          simp only [viewShare, preparedShare, hleaving, List.mem_filter, mem_viewPositions]
          cases viewContains t.fromCenter t.fromRadius q <;>
            cases viewContains t.toCenter t.toRadius q <;> simp

theorem Balanced.commitPending (h : Balanced others st store) :
    Balanced others (st.commitPending store).2.1 (st.commitPending store).2.2 := by
  rw [SessionState.commitPending]
  split
  · exact h
  · rename_i hw
    exact h.commitInitial hw
  · rename_i hw
    exact h.commitView hw

-- A commit that succeeds has moved every prepared pin into the view.
theorem commitPending_ok {result : Option InitialViewResult}
    (hok : (st.commitPending store).1 = .ok result) :
    (st.commitPending store).2.1.pending = none ∧
      ∃ w, st.pending = some w ∧ ∃ v, (st.commitPending store).2.1.view = some v ∧
        (v.center, v.radius) = w.target ∧ v.pinnedChunks = viewPositions v.center v.radius := by
  rw [SessionState.commitPending] at hok ⊢
  split at hok
  · cases hok
  · rename_i hw
    rw [SessionState.commitInitial] at hok ⊢
    split at hok
    · cases hok
    · split at hok
      · cases hok
      · rename_i h₁ h₂
        simp only [h₁, h₂, if_false]
        exact ⟨rfl, _, hw, _, rfl, rfl, rfl⟩
  · rename_i hw
    rw [SessionState.commitView] at hok ⊢
    split at hok
    · cases hok
    · split at hok
      · cases hok
      · split at hok
        · cases hok
        · rename_i h₁ h₂
          simp only [h₁, h₂, if_false]
          exact ⟨rfl, _, hw, _, rfl, rfl, rfl⟩

end Cobblestone.Session
