import Cobblestone.Bridge.ViewSync

namespace Cobblestone.Bridge

open Lib Content World WorldStore Wire Session

structure Viewers (wire : Session.Wire) where
  world : WorldState
  viewers : List (Viewer wire)
  left : ChunkCoord → Option ChunkData

-- The data that a chunk was last evicted with.
def leave (left : ChunkCoord → Option ChunkData) (s t : WorldStore) : ChunkCoord → Option ChunkData :=
  fun p => ((s.chunks p).filter fun _ => (t.chunks p).isNone).elim (left p) fun c => some c.data

-- A chunk that comes back has the blocks it left with.
def Returns (left : ChunkCoord → Option ChunkData) (s t : WorldStore) : Prop :=
  ∀ p c, s.chunks p = none → t.chunks p = some c → ∀ data, left p = some data →
    c.data.states = data.states

section System

variable {wire : Session.Wire} {zlib : Zlib}

-- The calls of a session that neither the completion of work nor the flush makes.
def Owned : SessionCall wire → Prop
  | .completionPlan _ => False
  | .commitPending => False
  | .updateViewCursor _ => False
  | _ => True

def Plain (packet : SessionPacket) : Prop :=
  packet.id ≠ PacketId.batch ∧ packet.id ≠ fullChunkDataId ∧ packet.id ≠ PacketId.updateBlock

-- A flush is one step: what the sessions' own tasks do meanwhile moves pins and pending work, and
-- a flush reads neither.
inductive ViewersStep (zlib : Zlib) : Viewers wire → Viewers wire → Prop where
  | connect {world : WorldState} {viewers : List (Viewer wire)}
      {left : ChunkCoord → Option ChunkData} (maxChunkRadius : Int32) :
      ViewersStep zlib ⟨world, viewers, left⟩
        ⟨world, viewers ++ [⟨.new wire maxChunkRadius, []⟩], left⟩
  | call {world : WorldState} {before after : List (Viewer wire)} {viewer : Viewer wire}
      {left : ChunkCoord → Option ChunkData} (call : SessionCall wire) (hcall : Owned call) :
      ViewersStep zlib ⟨world, before ++ viewer :: after, left⟩
        ⟨{ world with store := (call.apply viewer.state world.store).2 },
          before ++ { viewer with state := (call.apply viewer.state world.store).1 } :: after, left⟩
  | drop {world : WorldState} {before after : List (Viewer wire)} {viewer : Viewer wire}
      {left : ChunkCoord → Option ChunkData} :
      ViewersStep zlib ⟨world, before ++ viewer :: after, left⟩
        ⟨{ world with store := viewer.state.drop world.store }, before ++ after, left⟩
  | send {world : WorldState} {before after : List (Viewer wire)} {viewer : Viewer wire}
      {left : ChunkCoord → Option ChunkData} (packet : SessionPacket) (hpacket : Plain packet) :
      ViewersStep zlib ⟨world, before ++ viewer :: after, left⟩
        ⟨world, before ++ viewer.accept [packet] :: after, left⟩
  | world {world : WorldState} {viewers : List (Viewer wire)}
      {left : ChunkCoord → Option ChunkData} (call : WorldCall)
      (hcall : call.Journaled world.store)
      (hreturns : Returns left world.store (call.apply world).store) :
      ViewersStep zlib ⟨world, viewers, left⟩
        ⟨call.apply world, viewers, leave left world.store (call.apply world).store⟩
  | complete {world : WorldState} {before after : List (Viewer wire)} {viewer : Viewer wire}
      {left : ChunkCoord → Option ChunkData} (inbound : List SessionPacket) (answer : QueueResult) :
      ViewersStep zlib ⟨world, before ++ viewer :: after, left⟩
        ⟨(completeChunkWork inbound answer world viewer).2.1,
          before ++ (completeChunkWork inbound answer world viewer).2.2 :: after, left⟩
  | flush {world : WorldState} {viewers : List (Viewer wire)}
      {left : ChunkCoord → Option ChunkData} (answer : Nat → Nat → QueueResult) :
      ViewersStep zlib ⟨world, viewers, left⟩
        ⟨(flushWorldChanges zlib answer world viewers).2.1,
          (flushWorldChanges zlib answer world viewers).2.2, left⟩

def ViewersRun (zlib : Zlib) : Viewers wire → Prop :=
  Relation.ReflTransGen (ViewersStep zlib) ⟨.new, [], fun _ => none⟩

-- What a client shows of its view is what the store holds, but for the changes that the cursor
-- has still to pass.
def ViewKept (zlib : Zlib) (history : List WorldChange) (store : WorldStore) (viewer : Viewer wire) :
    Prop :=
  ∀ view, viewer.state.view = some view → view.cursor ≤ history.length ∧
    ∀ p ∈ view.pinnedChunks, ∃ chunk, viewer.client zlib p = some chunk ∧
      chunk.states.length = chunkBlockCount ∧ ∀ c, store.chunks p = some c →
        Trails (changesAt (history.drop view.cursor) p) (clientContent chunk) (content c.data)

-- What the history says of a chunk that is not resident.
def Away (history : List WorldChange) (store : WorldStore) (left : ChunkCoord → Option ChunkData) :
    Prop :=
  ∀ p, store.chunks p = none → (left p = none ∧ changesAt history p = []) ∨
    ∃ data, left p = some data ∧ Faithful (changesAt history p) (content data)

structure ViewersInv (zlib : Zlib) (sys : Viewers wire) : Prop where
  sessions : SessionsInv ⟨sys.world.store, sys.viewers.map Viewer.state⟩
  transparent : sys.world.Transparent
  fed : ∃ history, Kept history sys.world.store ∧ Away history sys.world.store sys.left ∧
    ∀ viewer ∈ sys.viewers, ViewKept zlib history sys.world.store viewer

variable {s t : WorldStore} {history entries : List WorldChange} {viewer viewer' : Viewer wire}
  {left : ChunkCoord → Option ChunkData} {p : ChunkCoord}

theorem changesAt_drop {n : Nat} (hcursor : n ≤ history.length) (p : ChunkCoord) :
    changesAt ((history ++ entries).drop n) p =
      changesAt (history.drop n) p ++ changesAt entries p := by
  rw [List.drop_append_of_le_length hcursor, changesAt_append]

theorem faithful_of_cells {changes : List (Change UInt16 UInt16)}
    {c c' : Content UInt16 UInt16 ClientRest} (h : Faithful changes c)
    (hcells : ∀ k, c'.cell k = c.cell k) : Faithful changes c' :=
  fun before after heq hnone k v hv => (hcells k).trans (h before after heq hnone k v hv)

theorem leave_evicted {c : ChunkRecord} (hs : s.chunks p = some c) (ht : t.chunks p = none) :
    leave left s t p = some c.data := by
  rw [leave, hs, ht]
  rfl

theorem leave_away (hs : s.chunks p = none) : leave left s t p = left p := by
  rw [leave, hs]
  rfl

theorem Kept.feed (h : Kept history s) (haway : Away history s left) (hfeeds : StoreFeeds s t entries)
    (hsound : t.AllChunks (ChunkRecord.Sound fun _ => True)) (hreturns : Returns left s t) :
    Kept (history ++ entries) t := by
  refine ⟨hfeeds.log history h.log, fun change hchange => ?_, hsound, fun p c' hc' => ?_⟩
  · rcases List.mem_append.mp hchange with hchange | hchange
    · exact h.indexed change hchange
    · exact hfeeds.indices change hchange
  · rw [changesAt_append]
    cases hc : s.chunks p with
    | some c => exact (h.faithful p c hc).feed (hfeeds.kept p c c' hc hc')
    | none =>
      rw [hfeeds.quiet p (.inl hc), List.append_nil]
      rcases haway p hc with ⟨-, hnone⟩ | ⟨data, hdata, hfaithful⟩
      · rw [hnone]
        exact faithful_nil _
      · refine faithful_of_cells hfaithful fun k => ?_
        have hstates := hreturns p c' hc hc' data hdata
        change (c'.data.states.getD k.toNat 0) = data.states.getD k.toNat 0
        rw [hstates]

theorem Away.feed (h : Kept history s) (haway : Away history s left)
    (hfeeds : StoreFeeds s t entries) : Away (history ++ entries) t (leave left s t) := by
  intro p hp
  rw [changesAt_append, hfeeds.quiet p (.inr hp), List.append_nil]
  cases hc : s.chunks p with
  | some c => exact .inr ⟨c.data, leave_evicted hc hp, h.faithful p c hc⟩
  | none =>
    rw [leave_away hc]
    exact haway p hc

-- Nothing left the store and nothing came back.
theorem Away.same (haway : Away history s left) (hsame : ∀ p, t.chunks p = none → s.chunks p = none) :
    Away history t left := fun p hp => haway p (hsame p hp)

theorem ViewKept.feed (h : ViewKept zlib history s viewer) (hfeeds : StoreFeeds s t entries)
    (hresident : ∀ view, viewer.state.view = some view → ∀ p ∈ view.pinnedChunks,
      (s.chunks p).isSome) : ViewKept zlib (history ++ entries) t viewer := by
  intro view hview
  obtain ⟨hcursor, hpinned⟩ := h view hview
  refine ⟨hcursor.trans (List.length_append ▸ Nat.le_add_right _ _), fun p hp => ?_⟩
  obtain ⟨chunk, hchunk, hlength, htrails⟩ := hpinned p hp
  refine ⟨chunk, hchunk, hlength, fun c' hc' => ?_⟩
  obtain ⟨c, hc⟩ := Option.isSome_iff_exists.mp (hresident view hview p hp)
  rw [changesAt_drop hcursor]
  exact (htrails c hc).feed (hfeeds.kept p c c' hc hc')

theorem ViewKept.congr (h : ViewKept zlib history s viewer) (hview : viewer'.state.view = viewer.state.view)
    (hclient : viewer'.client zlib = viewer.client zlib) : ViewKept zlib history s viewer' := by
  intro view hv
  rw [hclient]
  exact h view (hview ▸ hv)

theorem ViewKept.sees (h : ViewKept zlib history s viewer) (hview : viewer'.state.view = viewer.state.view)
    (hsees : Sees s (viewer.client zlib) (viewer'.client zlib)) : ViewKept zlib history s viewer' := by
  intro view hv
  obtain ⟨hcursor, hpinned⟩ := h view (hview ▸ hv)
  refine ⟨hcursor, fun p hp => ?_⟩
  obtain ⟨chunk, hchunk, hlength, htrails⟩ := hpinned p hp
  obtain ⟨chunk', hchunk', hlength', hnear⟩ := hsees p chunk hchunk hlength
  exact ⟨chunk', hchunk', hlength', fun c hc => (htrails c hc).nearer (hnear c hc)⟩

theorem pinned_resident {states : List (SessionState wire)} (h : SessionsInv ⟨s, states⟩)
    {st : SessionState wire} (hst : st ∈ states) {view : WorldView} (hview : st.view = some view)
    (hp : p ∈ view.pinnedChunks) : (s.chunks p).isSome := by
  have hviews : viewPins p st = true := by
    rw [viewPins, hview]
    exact List.contains_iff_mem.mpr hp
  have hpos : 0 < states.countP (viewPins p) := List.countP_pos_iff.mpr ⟨st, hst, hviews⟩
  have hbalance : pins s p = states.countP (viewPins p) + states.countP (prepares p) := h.balance p
  cases hc : s.chunks p with
  | some c => rfl
  | none =>
    rw [pins, hc] at hbalance
    change 0 = _ at hbalance
    omega

theorem repinned_keeps (left : ChunkCoord → Option ChunkData) (h : Repinned s t) :
    (∀ p, t.chunks p = none → s.chunks p = none) ∧ Returns left s t := by
  have hnone : ∀ p, t.chunks p = none → s.chunks p = none := by
    intro p hp
    obtain ⟨n, hn⟩ := h.chunks p
    rw [hp] at hn
    exact Option.map_eq_none_iff.mp hn.symm
  refine ⟨hnone, fun p c' hs hc' => ?_⟩
  obtain ⟨c, hc, -⟩ := h.resident hc'
  cases hs.symm.trans hc

-- A step of the sessions moves nothing that the history tells of.
theorem Kept.repin (h : Kept history s) (haway : Away history s left) (hpins : Repinned s t) :
    Kept history t ∧ Away history t left := by
  obtain ⟨hnone, hreturns⟩ := repinned_keeps left hpins
  have hkept := h.feed haway hpins.feeds (hpins.sound h.sound) hreturns
  rw [List.append_nil] at hkept
  exact ⟨hkept, haway.same hnone⟩

theorem ViewKept.repin (h : ViewKept zlib history s viewer) (hpins : Repinned s t) :
    ViewKept zlib history t viewer := by
  intro view hview
  obtain ⟨hcursor, hpinned⟩ := h view hview
  refine ⟨hcursor, fun p hp => ?_⟩
  obtain ⟨chunk, hchunk, hlength, htrails⟩ := hpinned p hp
  refine ⟨chunk, hchunk, hlength, fun c' hc' => ?_⟩
  obtain ⟨c, hc, n, rfl⟩ := hpins.resident hc'
  exact htrails c hc

-- The viewers around the one that moves are left as they are.
theorem viewers_replaced {before after : List (Viewer wire)} {P Q : Viewer wire → Prop}
    (h : ∀ v ∈ before ++ viewer :: after, P v) (hothers : ∀ v, P v → Q v) (hviewer : Q viewer') :
    ∀ v ∈ before ++ viewer' :: after, Q v := by
  intro v hv
  rcases List.mem_append.mp hv with hv | hv
  · exact hothers v (h v (List.mem_append_left _ hv))
  · rcases List.mem_cons.mp hv with rfl | hv
    · exact hviewer
    · exact hothers v (h v (List.mem_append_right _ (List.mem_cons_of_mem _ hv)))

theorem mark_repins (prepared : PreparedChunks) (expected : List ChunkCoord) (p : ChunkCoord)
    (store : WorldStore) : Repinned store (prepared.mark expected p store).2.2 := by
  rw [PreparedChunks.mark]
  split
  · exact .refl store
  · split
    · exact .refl store
    · have hpin : Repinned store (store.pinChunk p).2 := .pinChunk
      generalize store.pinChunk p = pinned at hpin
      obtain ⟨result, store'⟩ := pinned
      cases result <;> exact hpin

theorem owned_undisturbed {call : SessionCall wire} (hcall : Owned call)
    (st : SessionState wire) (store : WorldStore) :
    (call.apply st store).1.view = st.view ∧ Repinned store (call.apply st store).2 := by
  cases call with
  | completionPlan rawChunks => exact hcall.elim
  | commitPending => exact hcall.elim
  | updateViewCursor cursor => exact hcall.elim
  | handlePacket packet =>
    have h : Undisturbed st store (st.handlePacket packet store).2.1
        (st.handlePacket packet store).2.2 := .handlePacket packet
    exact ⟨h.view, h.store⟩
  | takeDeferred =>
    refine ⟨?_, .refl store⟩
    rw [SessionCall.apply, SessionState.takeDeferred]
    split
    · rfl
    · split <;> rfl
  | acceptLogin bootstrap =>
    refine ⟨?_, .refl store⟩
    rw [SessionCall.apply, SessionState.acceptLogin]
    split
    · rfl
    · split <;> rfl
  | rollbackLoginAcceptance =>
    refine ⟨?_, .refl store⟩
    rw [SessionCall.apply, SessionState.rollbackLoginAcceptance]
    split <;> rfl
  | markPreparedChunk position =>
    rw [SessionCall.apply, SessionState.markPreparedChunk]
    split
    · exact ⟨rfl, .refl store⟩
    · next pending hpending =>
      have hmark := mark_repins pending.prepared pending.preparePositions position store
      generalize pending.prepared.mark pending.preparePositions position store = marked at hmark
      obtain ⟨result, prepared, store'⟩ := marked
      exact ⟨rfl, hmark⟩

theorem handlePackets_undisturbed (packets : List SessionPacket) (st : SessionState wire)
    (store : WorldStore) : Undisturbed st store (handlePackets packets st store).1
      (handlePackets packets st store).2 := by
  induction packets generalizing st store with
  | nil => exact .same rfl rfl
  | cons packet packets ih => exact (Undisturbed.handlePacket packet).trans (ih _ _)

theorem handlePackets_balanced {others : ChunkCoord → Nat} {st : SessionState wire}
    {store : WorldStore} (h : Balanced others st store) (packets : List SessionPacket) :
    Balanced others (handlePackets packets st store).1 (handlePackets packets st store).2 := by
  induction packets generalizing st store with
  | nil => exact h
  | cons packet packets ih => exact ih (h.handlePacket packet)

theorem commitPending_repins (st : SessionState wire) (store : WorldStore) :
    Repinned store (st.commitPending store).2.2 := by
  have hfail (message : String) (st : SessionState wire) (w : PendingWork) :
      Repinned store (SessionState.failCommit message st w.prepared store).2.2 :=
    Repinned.dropPending (some w) store
  rw [SessionState.commitPending]
  split
  · exact .refl store
  · next w requested effective center prepare send prepared hw =>
    rw [SessionState.commitInitial]
    split
    · exact hfail _ _ (.initial requested effective center prepare send prepared)
    · split
      · exact hfail _ _ (.initial requested effective center prepare send prepared)
      · exact .dropView _ store
  · next w transition prepared hw =>
    rw [SessionState.commitView]
    split
    · exact hfail _ _ (.view transition prepared)
    · split
      · exact hfail _ _ (.view transition prepared)
      · split
        · exact hfail _ _ (.view transition prepared)
        · exact .unpinAll _ store

-- What a commit does to the view: the work's positions are sent, and what a transition does not
-- send was pinned before.
theorem commitPending_view {st : SessionState wire} (h : StateInv st) {w : PendingWork}
    (hw : st.pending = some w) (store : WorldStore) :
    (st.commitPending store).2.1.view = st.view ∨
      ∃ view', (st.commitPending store).2.1.view = some view' ∧
        ((view'.cursor = store.changes.latestSequence ∧ ∀ p ∈ view'.pinnedChunks, p ∈ w.sendPositions) ∨
          ∃ view, st.view = some view ∧ view'.cursor = view.cursor ∧
            ∀ p ∈ view'.pinnedChunks, p ∈ w.sendPositions ∨ p ∈ view.pinnedChunks) := by
  rw [SessionState.commitPending, hw]
  cases w with
  | initial requested effective center prepare send prepared =>
    obtain ⟨-, -, hsend⟩ := h.fits _ hw
    dsimp only
    rw [SessionState.commitInitial]
    split
    · exact .inl rfl
    · split
      · exact .inl rfl
      · exact .inr ⟨_, rfl, .inl ⟨rfl, fun p hp => hsend.mem_iff.mpr hp⟩⟩
  | view transition prepared =>
    obtain ⟨v, hv, hcenter, hradius, hentering, -⟩ := h.fits _ hw
    have hpinned := h.pinned v hv
    dsimp only
    rw [SessionState.commitView, hv]
    dsimp only
    split
    · exact .inl rfl
    · split
      · exact .inl rfl
      · refine .inr ⟨_, rfl, .inr ⟨v, rfl, rfl, fun p hp => ?_⟩⟩
        by_cases hfrom : viewContains transition.fromCenter transition.fromRadius p = true
        · refine .inr ?_
          rw [hpinned, hcenter, hradius]
          exact mem_viewPositions.mpr hfrom
        · refine .inl (hentering.mem_iff.mpr (List.mem_filter.mpr ⟨hp, ?_⟩))
          rw [Bool.not_eq_true] at hfrom
          rw [hfrom]
          rfl

end System

section Complete

variable {wire : Session.Wire} {zlib : Zlib} {describe : CodecError → String} {rest : Session.Wire}
  {history : List WorldChange}

theorem receive_plain {packet : SessionPacket} (h : Plain packet) (client : ClientWorld) :
    client.receiveSession zlib packet = client := by
  rw [ClientWorld.receiveSession, if_neg h.1, receive_other h.2.1 h.2.2]

theorem radius_plain (body : List UInt8) : Plain ⟨Session.PacketId.chunkRadiusUpdated, body⟩ := by
  have hbatch : Session.PacketId.chunkRadiusUpdated ≠ PacketId.batch := by decide
  have hchunk : Session.PacketId.chunkRadiusUpdated ≠ fullChunkDataId := by decide
  have hblock : Session.PacketId.chunkRadiusUpdated ≠ PacketId.updateBlock := by decide
  exact ⟨hbatch, hchunk, hblock⟩

theorem liftCodec_ok {α : Type} {result : Except String α} {a : α} :
    SessionState.liftCodec result = .ok a ↔ result = .ok a := by
  cases result <;> simp [SessionState.liftCodec]

theorem encodeBatch_receive (hzlib : zlib.Inverts) {packets : List SessionPacket}
    {batch : SessionPacket} (h : (codecWire zlib describe rest).encodeBatch packets = .ok batch)
    (client : ClientWorld) : client.receiveSession zlib batch =
      (packets.map fun packet => (⟨packet.id, packet.body⟩ : RawPacket)).foldl
        ClientWorld.receive client := by
  change (batchPacket zlib (packets.map fun packet => ⟨packet.id, packet.body⟩)).mapError describe =
    .ok batch at h
  cases hbatch : batchPacket zlib (packets.map fun packet => ⟨packet.id, packet.body⟩) with
  | error e =>
    rw [hbatch] at h
    cases h
  | ok batch' =>
    rw [hbatch] at h
    cases h
    exact batchPacket_receive hzlib hbatch client

theorem playerSpawn_plain {packet : SessionPacket}
    (h : (codecWire zlib describe rest).playerSpawn = .ok packet) : Plain packet := by
  cases h
  exact ⟨by decide, by decide, by decide⟩

theorem map_sessionPacket (packets : List RawPacket) :
    ((packets.map sessionPacket).map fun packet => (⟨packet.id, packet.body⟩ : RawPacket)) =
      packets := by
  rw [List.map_map]
  exact List.map_id _

-- What the packets of a plan come to for the client: the chunks, and at most a radius before them.
theorem plan_receive (hzlib : zlib.Inverts) {st : SessionState (codecWire zlib describe rest)}
    {packets : List RawPacket} {plan : CompletionPlan}
    (h : st.completionPlan (packets.map sessionPacket) = .ok plan) :
    ∃ w, st.pending = some w ∧ w.prepared.isComplete w.preparePositions = true ∧
      packets.length = w.sendPositions.length ∧ ∃ radius : List RawPacket,
        (∀ packet ∈ radius, packet.id = Session.PacketId.chunkRadiusUpdated) ∧
          ∀ client : ClientWorld, plan.packets.foldl (ClientWorld.receiveSession zlib) client =
            (radius ++ packets).foldl ClientWorld.receive client := by
  rw [SessionState.completionPlan] at h
  split at h
  · cases h
  · next w hw =>
    obtain ⟨_, hcomplete, h⟩ := bind_ok_iff.mp h
    obtain ⟨_, hlength, h⟩ := bind_ok_iff.mp h
    have hcount := of_decide_eq_true (ensure_ok_iff.mp hlength)
    rw [List.length_map] at hcount
    refine ⟨w, hw, ensure_ok_iff.mp hcomplete, hcount, ?_⟩
    cases w with
    | initial requested effective center prepare send prepared =>
      obtain ⟨batch, hbatch, h⟩ := bind_ok_iff.mp h
      obtain ⟨spawn, hspawn, h⟩ := bind_ok_iff.mp h
      cases h
      refine ⟨[], fun _ hp => absurd hp List.not_mem_nil, fun client => ?_⟩
      rw [List.foldl_cons, List.foldl_cons, List.foldl_cons, List.foldl_nil,
        receive_plain (radius_plain (be32 effective)),
        encodeBatch_receive hzlib (liftCodec_ok.mp hbatch),
        receive_plain (playerSpawn_plain (liftCodec_ok.mp hspawn)), map_sessionPacket]
      rfl
    | view transition prepared =>
      obtain ⟨batch, hbatch, h⟩ := bind_ok_iff.mp h
      cases h
      have hreceive := encodeBatch_receive hzlib (liftCodec_ok.mp hbatch)
      refine ⟨if transition.fromRadius ≠ transition.toRadius then
        [⟨Session.PacketId.chunkRadiusUpdated, be32 transition.toRadius⟩] else [], ?_, fun client => ?_⟩
      · intro packet hp
        split at hp
        · rw [List.mem_singleton.mp hp]
        · cases hp
      · rw [List.foldl_cons, List.foldl_nil, hreceive, List.map_append, map_sessionPacket]
        split <;> rfl

-- Work that replaced the one the packets were made for starts unprepared: it has nothing to send.
theorem sent_positions {st : SessionState wire} (h : StateInv st) {w w' : PendingWork}
    (hw : st.pending = some w') (hpending : some w' = some w ∨ w'.prepared = .new)
    (hcomplete : w'.prepared.isComplete w'.preparePositions = true) :
    ∀ p ∈ w'.sendPositions, p ∈ w.sendPositions := by
  rcases hpending with heq | hnew
  · rw [Option.some.inj heq]
    exact fun p hp => hp
  · rw [hnew, PreparedChunks.isComplete, Bool.and_eq_true, decide_eq_true_eq] at hcomplete
    have hnone : w'.preparePositions = [] := List.length_eq_zero_iff.mp hcomplete.1.symm
    have hfits := h.fits w' hw
    intro p hp
    cases w' with
    | initial requested effective center prepare send prepared =>
      obtain ⟨-, hprepare, hsend⟩ := hfits
      rw [show prepare = [] from hnone] at hprepare
      exact absurd (hprepare.mem_iff.mpr (hsend.mem_iff.mp hp)) List.not_mem_nil
    | view transition prepared =>
      exact absurd (hnone ▸ hp : p ∈ []) List.not_mem_nil

theorem completeChunkWork_spec (hzlib : zlib.Inverts) {world : WorldState}
    {viewer : Viewer (codecWire zlib describe rest)} {others : ChunkCoord → Nat}
    (hkept : Kept history world.store) (ht : world.Transparent)
    (hbalanced : Balanced others viewer.state world.store)
    (hview : ViewKept zlib history world.store viewer) (inbound : List SessionPacket)
    (answer : QueueResult) :
    let done := (completeChunkWork inbound answer world viewer).2
    done.1.Transparent ∧ Repinned world.store done.1.store ∧
      Balanced others done.2.state done.1.store ∧ ViewKept zlib history done.1.store done.2 := by
  intro done
  have hidle : world.Transparent ∧ Repinned world.store world.store ∧
      Balanced others viewer.state world.store ∧ ViewKept zlib history world.store viewer :=
    ⟨ht, .refl _, hbalanced, hview⟩
  change (completeChunkWork inbound answer world viewer).2.1.Transparent ∧ _
  unfold done completeChunkWork
  cases hwork : viewer.state.chunkWork with
  | none => exact hidle
  | some work =>
    obtain ⟨w, hw, rfl⟩ := Option.map_eq_some_iff.mp hwork
    dsimp only
    rcases hexec : (wirePackets w.sendPositions).exec world with ⟨result, world₁⟩
    have hserves : Serves world world₁ := (wirePackets_serves _).after hexec
    have ht₁ := hserves.transparent ht
    cases result with
    | error e =>
      dsimp only
      rw [hserves.store]
      exact ⟨ht₁, hidle.2⟩
    | ok packets =>
      have hhandled := handlePackets_undisturbed inbound viewer.state world₁.store
      rw [hserves.store] at hhandled
      have hbalanced₁ := handlePackets_balanced hbalanced inbound
      obtain ⟨-, hpackets, hall⟩ := wirePackets_ok ht hexec
      dsimp only
      rw [hserves.store]
      generalize handlePackets inbound viewer.state world.store = handled at hhandled hbalanced₁
      obtain ⟨st, store⟩ := handled
      have hview₀ : ViewKept zlib history world.store { viewer with state := st } :=
        hview.congr hhandled.view rfl
      have hview₁ : ViewKept zlib history store { viewer with state := st } :=
        hview₀.repin hhandled.store
      have ht₂ : ({ world₁ with store := store } : WorldState).Transparent := by
        refine ht₁.revise ?_
        rw [hserves.store]
        exact hhandled.store.revised
      have hrefused : ({ world₁ with store := store } : WorldState).Transparent ∧
          Repinned world.store store ∧ Balanced others st store ∧
            ViewKept zlib history store { viewer with state := st } :=
        ⟨ht₂, hhandled.store, hbalanced₁, hview₁⟩
      dsimp only
      unfold tryCompleteChunkWork
      dsimp only
      cases hplan : st.completionPlan (packets.map sessionPacket) with
      | error e => exact hrefused
      | ok plan =>
        cases answer with
        | backpressured => exact hrefused
        | gone => exact hrefused
        | sent =>
          obtain ⟨w', hw', hcomplete, hlength, radius, hradius, hreceive⟩ := plan_receive hzlib hplan
          have hpending : some w' = some w ∨ w'.prepared = .new := by
            rcases hhandled.pending with hsame | hnew
            · exact .inl (hw'.symm.trans (hsame.trans hw))
            · exact .inr (hnew w' hw')
          have hsent := sent_positions hbalanced₁.inv hw' hpending hcomplete
          have hcommit := commitPending_repins st store
          have hcarried : ∀ packet ∈ radius ++ packets, Carried world.store packet := by
            intro packet hp
            rcases List.mem_append.mp hp with hp | hp
            · have hid := hradius packet hp
              exact .other (by rw [hid]; decide) (by rw [hid]; decide)
            · obtain ⟨p, -, c, hc, hencode⟩ := hpackets packet hp
              exact .chunk hc hencode
          have hclient : ({ viewer with state := st }.accept plan.packets).client zlib =
              (radius ++ packets).foldl ClientWorld.receive (viewer.client zlib) :=
            (client_accept _ _).trans (hreceive _)
          have hsees := sees_all hkept.sound hcarried (viewer.client zlib)
          have hfull : ∀ p ∈ w'.sendPositions, ∀ n, ∃ chunk,
              (radius ++ packets).foldl ClientWorld.receive (viewer.client zlib) p = some chunk ∧
                chunk.states.length = chunkBlockCount ∧ ∀ c, world.store.chunks p = some c →
                  Trails (changesAt (history.drop n) p) (clientContent chunk) (content c.data) := by
            intro p hp n
            obtain ⟨packet, hmem, c, hc, hencode⟩ := hall p (hsent p hp)
            obtain ⟨chunk, hchunk, hl, hshown⟩ := shown_of_chunk hkept.sound hcarried hc hencode
              (List.mem_append_right _ hmem)
            refine ⟨chunk, hchunk, hl, fun c' hc' => ?_⟩
            rw [Option.some.inj (hc'.symm.trans hc), hshown]
            exact .refl _ _
          refine ⟨ht₂.revise hcommit.revised, hhandled.store.trans hcommit,
            hbalanced₁.commitPending, ?_⟩
          refine ViewKept.repin (s := world.store) ?_ (hhandled.store.trans hcommit)
          rcases commitPending_view hbalanced₁.inv hw' store with hsame | ⟨view', hview', hcases⟩
          · refine hview.sees (hsame.trans hhandled.view) ?_
            change Sees _ _ (({ viewer with state := st }.accept plan.packets).client zlib)
            rw [hclient]
            exact hsees
          · intro view hv
            cases hview'.symm.trans hv
            change _ ∧ ∀ p ∈ view'.pinnedChunks, ∃ chunk,
              ({ viewer with state := st }.accept plan.packets).client zlib p = some chunk ∧ _
            rw [hclient]
            rcases hcases with ⟨hcursor, hpinned⟩ | ⟨view, hold, hcursor, hpinned⟩
            · refine ⟨?_, fun p hp => hfull p (hpinned p hp) _⟩
              rw [hcursor, hhandled.store.changes, hkept.log.latestSequence]
            · obtain ⟨hle, hshown⟩ := hview view (hhandled.view ▸ hold)
              rw [hcursor]
              refine ⟨hle, fun p hp => ?_⟩
              rcases hpinned p hp with hp | hp
              · exact hfull p hp _
              · obtain ⟨chunk, hchunk, hl, htrails⟩ := hshown p hp
                obtain ⟨chunk', hchunk', hl', hnear⟩ := hsees p chunk hchunk hl
                exact ⟨chunk', hchunk', hl', fun c hc => (htrails c hc).nearer (hnear c hc)⟩

end Complete

section Flush

variable {wire : Session.Wire} {zlib : Zlib} {history : List WorldChange} {world : WorldState}
  {store : WorldStore} {viewers : List (Viewer wire)} {viewer : Viewer wire}

-- What the round over the views does to one of them, whether its cursor is to advance or not.
structure Flushed (zlib : Zlib) (history : List WorldChange) (store : WorldStore)
    (viewer : Viewer wire) (entry : Viewer wire × Bool) : Prop where
  state : entry.1.state = viewer.state
  sees : Sees store (viewer.client zlib) (entry.1.client zlib)
  shown : entry.2 = true → ∀ view, viewer.state.view = some view →
    ∀ p c chunk, viewContains view.center view.radius p = true → store.chunks p = some c →
      viewer.client zlib p = some chunk → chunk.states.length = chunkBlockCount →
        Trails (changesAt (history.drop view.cursor) p) (clientContent chunk) (content c.data) →
          ∃ chunk', entry.1.client zlib p = some chunk' ∧ clientContent chunk' = content c.data

theorem Flushed.untouched (viewer : Viewer wire) :
    Flushed zlib history store viewer (viewer, false) :=
  ⟨rfl, .refl _ _, fun hflag => by cases hflag⟩

theorem ViewFlushed.entry {flushed : ViewFlush wire}
    (h : ViewFlushed zlib history world viewer flushed) {completed : Bool}
    (hresult : completed = true → flushed.result = .ok true) :
    Flushed zlib history world.store viewer (flushed.viewer, completed) :=
  ⟨h.state, h.sees, fun hflag => h.shown (hresult hflag)⟩

theorem flushViews_spec (hzlib : zlib.Inverts) (hkept : Kept history world.store)
    (ht : world.Transparent) (hpinned : ∀ viewer ∈ viewers, ∀ view, viewer.state.view = some view →
      view.pinnedChunks = viewPositions view.center view.radius)
    (answer : Nat → Nat → QueueResult) (n : Nat) :
    let flushed := flushViews zlib world.store.changes answer n world viewers
    Serves world flushed.world ∧
      List.Forall₂ (Flushed zlib history world.store) viewers flushed.viewers := by
  intro flushed
  change Serves world (flushViews zlib world.store.changes answer n world viewers).world ∧
    List.Forall₂ _ viewers (flushViews zlib world.store.changes answer n world viewers).viewers
  induction viewers generalizing world n with
  | nil => exact ⟨Std.Refl.refl _, .nil⟩
  | cons viewer viewers ih =>
    have hone := flushView_spec hzlib hkept ht (hpinned viewer List.mem_cons_self) (answer n)
    rw [flushViews]
    generalize flushView zlib world.store.changes (answer n) world viewer = flushed at hone
    dsimp only
    cases hresult : flushed.result with
    | error e =>
      refine ⟨hone.serves, .cons (hone.entry fun hflag => by cases hflag) ?_⟩
      exact List.forall₂_map_right_iff.mpr (List.forall₂_same.mpr fun v _ => .untouched v)
    | ok completed =>
      have hstore := hone.serves.store
      have hothers : ∀ viewer ∈ viewers, ∀ view, viewer.state.view = some view →
          view.pinnedChunks = viewPositions view.center view.radius :=
        fun v hv => hpinned v (List.mem_cons_of_mem _ hv)
      have hsame : Kept history flushed.world.store := hstore ▸ hkept
      have hrest := ih hsame (hone.serves.transparent ht) hothers (n + 1)
      rw [hstore] at hrest
      exact ⟨IsTrans.trans _ _ _ hone.serves hrest.1,
        .cons (hone.entry fun hflag => hresult.trans (congrArg Except.ok hflag)) hrest.2⟩

theorem Flushed.kept {entry : Viewer wire × Bool} (h : Flushed zlib history store viewer entry)
    (hlog : LogOf history store.changes) (hview : ViewKept zlib history store viewer)
    (hpinned : ∀ view, viewer.state.view = some view →
      view.pinnedChunks = viewPositions view.center view.radius)
    (hresident : ∀ view, viewer.state.view = some view → ∀ p ∈ view.pinnedChunks,
      (store.chunks p).isSome) :
    ViewKept zlib history store (entry.1.advance store.changes.latestSequence entry.2) := by
  obtain ⟨viewer', completed⟩ := entry
  have hstate : viewer'.state = viewer.state := h.state
  cases completed with
  | false => exact hview.sees (congrArg SessionState.view hstate) h.sees
  | true =>
    intro view' hview'
    change ((viewer'.state.updateViewCursor store.changes.latestSequence).2).view = some view' at hview'
    rw [hstate, SessionState.updateViewCursor] at hview'
    cases hv : viewer.state.view with
    | none =>
      rw [hv] at hview'
      cases hv.symm.trans hview'
    | some view =>
      rw [hv] at hview'
      cases hview'
      refine ⟨hlog.latestSequence.le, fun p hp => ?_⟩
      obtain ⟨chunk, hchunk, hlength, htrails⟩ := (hview view hv).2 p hp
      obtain ⟨c, hc⟩ := Option.isSome_iff_exists.mp (hresident view hv p hp)
      have hin : viewContains view.center view.radius p = true := by
        rw [← mem_viewPositions, ← hpinned view hv]
        exact hp
      obtain ⟨chunk', hchunk', hshown⟩ := h.shown rfl view hv p c chunk hin hc hchunk hlength (htrails c hc)
      obtain ⟨chunk'', hchunk'', hlength', -⟩ := h.sees p chunk hchunk hlength
      rw [← Option.some.inj (hchunk'.symm.trans hchunk'')] at hlength'
      refine ⟨chunk', hchunk', hlength', fun c' hc' => ?_⟩
      rw [← Option.some.inj (hc.symm.trans hc'), hshown]
      exact .refl _ _

-- A cursor moves no pin.
theorem sessions_cursors {cursor : Nat} {states states' : List (SessionState wire)}
    (hmoved : List.Forall₂ (fun st st' => st' = st ∨ st' = (st.updateViewCursor cursor).2) states
      states') (before : List (SessionState wire)) (h : SessionsInv ⟨store, before ++ states⟩) :
    SessionsInv ⟨store, before ++ states'⟩ := by
  induction hmoved generalizing before with
  | nil => exact h
  | @cons st st' states states' hst _ ih =>
    have hone : SessionsInv ⟨store, before ++ st' :: states⟩ := by
      rcases hst with rfl | rfl
      · exact h
      · exact h.replace (h.balanced.updateViewCursor cursor)
    have hrest := ih (before ++ [st']) (by rwa [List.append_assoc])
    rwa [List.append_assoc] at hrest

theorem sessions_prune {states : List (SessionState wire)} (h : SessionsInv ⟨store, states⟩)
    (through : Nat) :
    SessionsInv ⟨{ store with changes := store.changes.pruneThrough through }, states⟩ :=
  ⟨h.states, h.balance⟩

theorem Kept.prune (h : Kept history store) (through : Nat) :
    Kept history { store with changes := store.changes.pruneThrough through } :=
  ⟨h.log.pruneThrough through, h.indexed, h.sound, h.faithful⟩


theorem pinned_viewPositions {states : List (SessionState wire)} (h : SessionsInv ⟨store, states⟩)
    {st : SessionState wire} (hst : st ∈ states) : ∀ view, st.view = some view →
      view.pinnedChunks = viewPositions view.center view.radius :=
  (h.states st hst).pinned

theorem prune_inv {through : Nat} {left : ChunkCoord → Option ChunkData}
    (h : ViewersInv zlib ⟨world, viewers, left⟩) :
    ViewersInv zlib ⟨(WorldCall.pruneChangesThrough through).apply world, viewers, left⟩ := by
  obtain ⟨history, hkept, haway, hviews⟩ := h.fed
  exact ⟨sessions_prune h.sessions through, h.transparent.apply (.pruneChangesThrough through),
    history, hkept.prune through, haway, hviews⟩

theorem forall₂_mem_right {α β : Type} {R : α → β → Prop} {xs : List α} {ys : List β}
    (h : List.Forall₂ R xs ys) {y : β} (hy : y ∈ ys) : ∃ x ∈ xs, R x y := by
  induction h with
  | nil => cases hy
  | cons hxy _ ih =>
    rcases List.mem_cons.mp hy with rfl | hy
    · exact ⟨_, List.mem_cons_self, hxy⟩
    · obtain ⟨x, hx, hr⟩ := ih hy
      exact ⟨x, List.mem_cons_of_mem _ hx, hr⟩

theorem flushWorldChanges_inv (hzlib : zlib.Inverts) {left : ChunkCoord → Option ChunkData}
    (h : ViewersInv zlib ⟨world, viewers, left⟩) (answer : Nat → Nat → QueueResult) :
    ViewersInv zlib ⟨(flushWorldChanges zlib answer world viewers).2.1,
      (flushWorldChanges zlib answer world viewers).2.2, left⟩ := by
  obtain ⟨history, hkept, haway, hviews⟩ := h.fed
  have hmem : ∀ viewer ∈ viewers, viewer.state ∈ viewers.map Viewer.state :=
    fun viewer hv => List.mem_map_of_mem hv
  have hpinned := fun viewer hv => pinned_viewPositions h.sessions (hmem viewer hv)
  rw [flushWorldChanges]
  split
  · exact prune_inv h
  · split
    · exact h
    · obtain ⟨hserves, hround⟩ := flushViews_spec hzlib hkept h.transparent hpinned answer 0
      generalize flushViews zlib world.store.changes answer 0 world viewers = flushed at hserves hround
      obtain ⟨error, queued, world', entries⟩ := flushed
      have hstore : world'.store = world.store := hserves.store
      have ht' := hserves.transparent h.transparent
      cases error with
      | some e =>
        refine ⟨?_, ht', history, hstore ▸ hkept, fun p hp => haway p (hstore ▸ hp), ?_⟩
        · have hstates : List.Forall₂ (· = ·) (viewers.map Viewer.state)
              ((entries.map Prod.fst).map Viewer.state) := by
            rw [List.map_map, List.forall₂_map_left_iff, List.forall₂_map_right_iff]
            exact hround.imp fun _ _ hone => hone.state.symm
          rw [List.forall₂_eq_eq_eq] at hstates
          change SessionsInv ⟨world'.store, (entries.map Prod.fst).map Viewer.state⟩
          rw [← hstates, hstore]
          exact h.sessions
        · intro viewer hviewer
          obtain ⟨entry, hentry, rfl⟩ := List.mem_map.mp hviewer
          obtain ⟨old, hold, hone⟩ := forall₂_mem_right hround hentry
          change ViewKept zlib history world'.store _
          rw [hstore]
          exact (hviews old hold).sees (congrArg SessionState.view hone.state) hone.sees
      | none =>
        refine prune_inv ⟨?_, ht', history, hstore ▸ hkept, fun p hp => haway p (hstore ▸ hp), ?_⟩
        · have hmoved : List.Forall₂ (fun st st' => st' = st ∨
              st' = (st.updateViewCursor world.store.changes.latestSequence).2)
              (viewers.map Viewer.state) ((entries.map fun entry =>
                entry.1.advance world.store.changes.latestSequence entry.2).map Viewer.state) := by
            rw [List.map_map, List.forall₂_map_left_iff, List.forall₂_map_right_iff]
            refine hround.imp fun viewer entry hone => ?_
            obtain ⟨viewer', completed⟩ := entry
            have hstate : viewer'.state = viewer.state := hone.state
            cases completed with
            | false => exact .inl hstate
            | true => exact .inr (congrArg (fun st => (SessionState.updateViewCursor
                world.store.changes.latestSequence st).2) hstate)
          change SessionsInv ⟨world'.store, _⟩
          rw [hstore]
          exact sessions_cursors hmoved [] h.sessions
        · intro viewer hviewer
          obtain ⟨entry, hentry, rfl⟩ := List.mem_map.mp hviewer
          obtain ⟨old, hold, hone⟩ := forall₂_mem_right hround hentry
          change ViewKept zlib history world'.store _
          rw [hstore]
          exact hone.kept hkept.log (hviews old hold) (hpinned old hold) fun view hview p hp =>
            pinned_resident h.sessions (hmem old hold) hview hp

end Flush

section Run

variable {wire : Session.Wire} {zlib : Zlib} {describe : CodecError → String} {rest : Session.Wire}

-- The calls of the world that the sessions leave to others are the store's, but for the packets.
theorem worldCall_store {world : WorldState} {call : WorldCall}
    (hcall : call.Journaled world.store) : (call.apply world).store = world.store ∨
      ∃ op : StoreOp, StoreOp.KeepsPins op ∧ op.Imports (fun _ => True) ∧
        (call.apply world).store = op.apply world.store := by
  cases call with
  | pinChunk p => exact hcall.elim
  | unpinChunk p => exact hcall.elim
  | ensureChunk p biome => exact .inr ⟨.ensureChunk p biome, trivial, trivial, rfl⟩
  | importChunkIfAbsent p i => exact .inr ⟨.importChunkIfAbsent p i, trivial, trivial, rfl⟩
  | installGeneratedChunk p i => exact .inr ⟨.installGeneratedChunk p i, trivial, trivial, rfl⟩
  | applyPatch p patch => exact .inr ⟨.applyPatch p patch, trivial, trivial, rfl⟩
  | setLifecycleFlags p flags => exact .inr ⟨.setLifecycleFlags p flags, trivial, trivial, rfl⟩
  | markPersisted p terrain light flags =>
    exact .inr ⟨.markPersisted p terrain light flags, trivial, trivial, rfl⟩
  | commitTerrainRevision p expected next =>
    exact .inr ⟨.commitTerrainRevision p expected next, trivial, trivial, rfl⟩
  | commitLightRevision p expected next =>
    exact .inr ⟨.commitLightRevision p expected next, trivial, trivial, rfl⟩
  | pruneChangesThrough sequence => exact .inr ⟨.pruneChangesThrough sequence, trivial, trivial, rfl⟩
  | tryEvictChunk p => exact .inr ⟨.tryEvictChunk p, trivial, trivial, tryEvictChunk_store world p⟩
  | chunkWirePacket p => exact .inl (chunkWirePacket_store world p)

theorem drop_repins (st : SessionState wire) (store : WorldStore) :
    Repinned store (st.drop store) :=
  (Repinned.dropView st.view store).trans (.dropPending st.pending _)

theorem map_state (before after : List (Viewer wire)) (viewer : Viewer wire) :
    (before ++ viewer :: after).map Viewer.state =
      before.map Viewer.state ++ viewer.state :: after.map Viewer.state := by
  rw [List.map_append, List.map_cons]

theorem accept_plain {packet : SessionPacket} (hpacket : Plain packet) (viewer : Viewer wire) :
    (viewer.accept [packet]).client zlib = viewer.client zlib := by
  rw [client_accept, List.foldl_cons, List.foldl_nil, receive_plain hpacket]

theorem ViewersInv.step (hzlib : zlib.Inverts)
    {sys sys' : Viewers (codecWire zlib describe rest)} (h : ViewersInv zlib sys)
    (hs : ViewersStep zlib sys sys') : ViewersInv zlib sys' := by
  obtain ⟨history, hkept, haway, hviews⟩ := h.fed
  cases hs with
  | @connect world viewers left maxChunkRadius =>
    refine ⟨?_, h.transparent, history, hkept, haway, fun viewer hviewer => ?_⟩
    · have hsessions := h.sessions.step (.connect maxChunkRadius)
      change SessionsInv ⟨world.store, (viewers ++ [_]).map Viewer.state⟩
      rw [List.map_append]
      exact hsessions
    · rcases List.mem_append.mp hviewer with hviewer | hviewer
      · exact hviews viewer hviewer
      · intro view hview
        rw [List.mem_singleton.mp hviewer] at hview
        cases hview
  | @call world before after viewer left call hcall =>
    have hsessions := h.sessions
    dsimp only at hsessions
    rw [map_state] at hsessions
    obtain ⟨hview, hpins⟩ := owned_undisturbed hcall viewer.state world.store
    obtain ⟨hkept', haway'⟩ := hkept.repin haway hpins
    refine ⟨?_, h.transparent.revise hpins.revised, history, hkept', haway', ?_⟩
    · dsimp only
      rw [map_state]
      exact hsessions.replace (hsessions.balanced.call call)
    · refine viewers_replaced hviews (fun v hv => hv.repin hpins) ?_
      have hviewer := hviews viewer (List.mem_append_right _ List.mem_cons_self)
      have hcalled : ViewKept zlib history world.store
          { viewer with state := (call.apply viewer.state world.store).1 } := hviewer.congr hview rfl
      exact hcalled.repin hpins
  | @drop world before after viewer left =>
    have hsessions := h.sessions
    dsimp only at hsessions
    rw [map_state] at hsessions
    have hpins := drop_repins viewer.state world.store
    obtain ⟨hkept', haway'⟩ := hkept.repin haway hpins
    refine ⟨?_, h.transparent.revise hpins.revised, history, hkept', haway', fun v hv => ?_⟩
    · have hdropped := hsessions.step .drop
      dsimp only
      rw [List.map_append]
      exact hdropped
    · refine (hviews v ?_).repin hpins
      rcases List.mem_append.mp hv with hv | hv
      · exact List.mem_append_left _ hv
      · exact List.mem_append_right _ (List.mem_cons_of_mem _ hv)
  | @send world before after viewer left packet hpacket =>
    have hsessions := h.sessions
    dsimp only at hsessions
    rw [map_state] at hsessions
    refine ⟨?_, h.transparent, history, hkept, haway, ?_⟩
    · dsimp only
      rw [map_state]
      exact hsessions
    · refine viewers_replaced hviews (fun v hv => hv) ?_
      have hviewer := hviews viewer (List.mem_append_right _ List.mem_cons_self)
      exact hviewer.congr rfl (accept_plain hpacket viewer)
  | @world world viewers left call hcall hreturns =>
    obtain ⟨entries, hfeeds⟩ := WorldCall.feeds hcall hkept.sound
    have hsound : (call.apply world).store.AllChunks (ChunkRecord.Sound fun _ => True) := by
      rcases worldCall_store hcall with hsame | ⟨op, -, himports, hop⟩
      · rw [hsame]
        exact hkept.sound
      · rw [hop]
        exact StoreOp.apply_sound trivial himports hkept.sound
    refine ⟨⟨h.sessions.states, fun p => ?_⟩, h.transparent.apply call, history ++ entries,
      hkept.feed haway hfeeds hsound hreturns, haway.feed hkept hfeeds, fun viewer hviewer => ?_⟩
    · have hbalance := h.sessions.balance p
      dsimp only at hbalance ⊢
      rcases worldCall_store hcall with hsame | ⟨op, hpins, -, hop⟩
      · rw [hsame]
        exact hbalance
      · rw [hop, pins_apply hpins]
        exact hbalance
    · refine (hviews viewer hviewer).feed hfeeds fun view hview p hp => ?_
      exact pinned_resident h.sessions (List.mem_map_of_mem hviewer) hview hp
  | @complete world before after viewer left inbound answer =>
    have hsessions := h.sessions
    dsimp only at hsessions
    rw [map_state] at hsessions
    have hviewer := hviews viewer (List.mem_append_right _ List.mem_cons_self)
    obtain ⟨ht', hpins, hbalanced, hview⟩ := completeChunkWork_spec hzlib hkept h.transparent
      hsessions.balanced hviewer inbound answer
    obtain ⟨hkept', haway'⟩ := hkept.repin haway hpins
    refine ⟨?_, ht', history, hkept', haway', ?_⟩
    · dsimp only
      rw [map_state]
      exact hsessions.replace hbalanced
    · exact viewers_replaced hviews (fun v hv => hv.repin hpins) hview
  | flush answer => exact flushWorldChanges_inv hzlib h answer

theorem ViewersRun.inv (hzlib : zlib.Inverts) {sys : Viewers (codecWire zlib describe rest)}
    (hrun : ViewersRun zlib sys) : ViewersInv zlib sys := by
  refine invariant_of_run (ViewersInv zlib) hrun ?_ fun _ _ h hs => h.step hzlib hs
  refine ⟨⟨fun st hst => absurd hst List.not_mem_nil, fun p => rfl⟩, WorldState.transparent_new, [], ?_,
    fun p _ => .inl ⟨rfl, rfl⟩, fun viewer hviewer => absurd hviewer List.not_mem_nil⟩
  refine ⟨.default, fun _ hchange => absurd hchange List.not_mem_nil, fun p c hc => ?_, fun p c hc => ?_⟩
  · cases hc
  · cases hc

end Run

end Cobblestone.Bridge
