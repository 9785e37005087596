import Cobblestone.Bridge.Viewers

namespace Cobblestone.Bridge

open Lib Content World WorldStore Wire Session

section Shows

variable {wire : Session.Wire} {zlib : Zlib} {describe : CodecError → String} {rest : Session.Wire}
  {world : WorldState} {viewers : List (Viewer wire)} {viewer : Viewer wire}

-- A client's copy of a chunk is the store's; only the heights may be old.
structure Shows (chunk : ClientChunk) (data : ChunkData) : Prop where
  states : chunk.states = data.states
  skyLight : chunk.skyLight = data.skyLight
  blockLight : chunk.blockLight = data.blockLight
  biomeWords : chunk.biomeWords = data.biomes
  extraData : chunk.extraData = data.extraData.toList.map fun entry => (entry.1.toUInt32, entry.2)
  blockEntities : chunk.blockEntities = data.chestBlockEntities.map chestNbt

def ShowsView (zlib : Zlib) (store : WorldStore) (viewer : Viewer wire) : Prop :=
  ∀ view, viewer.state.view = some view → ∀ p, viewContains view.center view.radius p = true →
    ∃ c chunk, store.chunks p = some c ∧ viewer.client zlib p = some chunk ∧ Shows chunk c.data

theorem shows_of_content {chunk : ClientChunk} {data : ChunkData}
    (hlength : chunk.states.length = chunkBlockCount) (hdata : data.WellFormed)
    (h : clientContent chunk = content data) : Shows chunk data := by
  have hrest := congrArg Content.rest h
  refine ⟨List.ext_getElem (hlength.trans hdata.states_length.symm) fun n hn hn' => ?_,
    congrArg ClientRest.skyLight hrest, congrArg ClientRest.blockLight hrest,
    congrArg ClientRest.biomeWords hrest, congrArg ClientRest.extraData hrest,
    congrArg ClientRest.blockEntities hrest⟩
  have hcell := congrFun (congrArg Content.cell h) (UInt16.ofNat n)
  change chunk.states.getD (UInt16.ofNat n).toNat 0 = data.states.getD (UInt16.ofNat n).toNat 0 at hcell
  have hsmall : n < UInt16.size := by
    rw [hlength] at hn
    exact hn.trans (by decide)
  rwa [UInt16.toNat_ofNat_of_lt' hsmall, List.getD_eq_getElem _ _ hn, List.getD_eq_getElem _ _ hn']
    at hcell

theorem ViewersInv.shows {sys : Viewers wire} (h : ViewersInv zlib sys) {viewer : Viewer wire}
    (hviewer : viewer ∈ sys.viewers) (hcursor : ∀ view, viewer.state.view = some view →
      view.cursor = sys.world.store.changes.latestSequence) :
    ShowsView zlib sys.world.store viewer := by
  obtain ⟨history, hkept, -, hviews⟩ := h.fed
  intro view hview p hp
  have hmem : viewer.state ∈ sys.viewers.map Viewer.state := List.mem_map_of_mem hviewer
  have hpinned : p ∈ view.pinnedChunks := by
    rw [pinned_viewPositions h.sessions hmem view hview]
    exact mem_viewPositions.mpr hp
  obtain ⟨c, hc⟩ := Option.isSome_iff_exists.mp (pinned_resident h.sessions hmem hview hpinned)
  obtain ⟨chunk, hchunk, hlength, htrails⟩ := (hviews viewer hviewer view hview).2 p hpinned
  have hseen := htrails c hc
  rw [hcursor view hview, hkept.log.latestSequence, List.drop_length] at hseen
  have hcontent := hseen.settled List.not_mem_nil fun k v hv => by cases hv
  exact ⟨c, chunk, hc, hchunk, shows_of_content hlength (hkept.sound p c hc).data.wellFormed hcontent⟩

theorem queueBatches_sent (batches : List (List RawPacket)) (n : Nat) {flag : Bool}
    (h : (queueBatches zlib (fun _ => .sent) n batches).result = .ok flag) : flag = true := by
  induction batches generalizing n with
  | nil =>
    cases h
    rfl
  | cons packets batches ih =>
    rw [queueBatches] at h
    split at h
    · cases h
    · exact ih (n + 1) h

-- A view that has seen everything once the flush is over.
def Settles (log : WorldChangeLog) (viewer : Viewer wire) (completed : Bool) : Prop :=
  completed = true ∨ ∀ view, viewer.state.view = some view → view.cursor = log.latestSequence

theorem flushView_sent (zlib : Zlib) (log : WorldChangeLog) (world : WorldState)
    (viewer : Viewer wire) (completed : Bool)
    (h : (flushView zlib log (fun _ => .sent) world viewer).result = .ok completed) :
    Settles log (flushView zlib log (fun _ => .sent) world viewer).viewer completed := by
  rw [flushView] at h ⊢
  cases hview : viewer.state.view with
  | none => exact .inr fun view hv => by cases hview.symm.trans hv
  | some view =>
    rw [hview] at h
    dsimp only at h ⊢
    split at h
    · next hcursor =>
      rw [if_pos hcursor]
      refine .inr fun other hother => ?_
      rw [← Option.some.inj (hview.symm.trans hother)]
      exact hcursor
    · split at h
      · cases h
        exact .inl rfl
      · split at h
        · cases h
        · exact .inl (queueBatches_sent _ 0 h)

theorem flushViews_sent (zlib : Zlib) (log : WorldChangeLog) (viewers : List (Viewer wire)) (n : Nat)
    (world : WorldState)
    (h : (flushViews zlib log (fun _ _ => .sent) n world viewers).error = none) :
    ∀ entry ∈ (flushViews zlib log (fun _ _ => .sent) n world viewers).viewers,
      Settles log entry.1 entry.2 := by
  induction viewers generalizing n world with
  | nil => exact fun entry hentry => absurd hentry List.not_mem_nil
  | cons viewer viewers ih =>
    rw [flushViews] at h ⊢
    have hone := flushView_sent zlib log world viewer
    generalize flushView zlib log (fun _ => .sent) world viewer = flushed at h hone ⊢
    dsimp only at h ⊢
    cases hresult : flushed.result with
    | error e =>
      rw [hresult] at h
      cases h
    | ok completed =>
      rw [hresult] at h
      intro entry hentry
      rcases List.mem_cons.mp hentry with rfl | hentry
      · exact hone completed hresult
      · exact ih (n + 1) flushed.world h entry hentry

theorem updateViewCursor_view {st : SessionState wire} {cursor : Nat} {view : WorldView}
    (h : (st.updateViewCursor cursor).2.view = some view) : view.cursor = cursor := by
  rw [SessionState.updateViewCursor] at h
  split at h
  · next hnone => cases hnone.symm.trans h
  · cases h
    rfl

theorem advance_settled {log : WorldChangeLog} {completed : Bool} (h : Settles log viewer completed)
    {view : WorldView}
    (hview : (viewer.advance log.latestSequence completed).state.view = some view) :
    view.cursor = log.latestSequence := by
  rw [Viewer.advance] at hview
  rcases h with rfl | hsame
  · exact updateViewCursor_view hview
  · split at hview
    · exact updateViewCursor_view hview
    · exact hsame view hview

theorem flushWorldChanges_settles {n : Nat}
    (hok : (flushWorldChanges zlib (fun _ _ => .sent) world viewers).1 = .ok n) :
    ∀ viewer ∈ (flushWorldChanges zlib (fun _ _ => .sent) world viewers).2.2,
      ∀ view, viewer.state.view = some view →
        view.cursor = world.store.changes.latestSequence := by
  rw [flushWorldChanges] at hok ⊢
  split
  · next hnone =>
    intro viewer hviewer view hview
    have hmem : view.cursor ∈ cursors viewers :=
      List.mem_filterMap.mpr ⟨viewer, hviewer, by rw [hview]; rfl⟩
    rw [List.isEmpty_iff.mp hnone] at hmem
    cases hmem
  · next hsome =>
    rw [if_neg hsome] at hok
    split
    · next hlatest =>
      intro viewer hviewer view hview
      have hmem : view.cursor ∈ cursors viewers :=
        List.mem_filterMap.mpr ⟨viewer, hviewer, by rw [hview]; rfl⟩
      exact of_decide_eq_true (List.all_eq_true.mp hlatest _ hmem)
    · next hbehind =>
      rw [if_neg hbehind] at hok
      have hsettled := flushViews_sent zlib world.store.changes viewers 0 world
      generalize flushViews zlib world.store.changes (fun _ _ => .sent) 0 world viewers = flushed
        at hok hsettled ⊢
      obtain ⟨error, queued, world', entries⟩ := flushed
      cases error with
      | some e => cases hok
      | none =>
        intro viewer hviewer view hview
        obtain ⟨entry, hentry, rfl⟩ := List.mem_map.mp hviewer
        exact advance_settled (hsettled rfl entry hentry) hview

theorem flushView_store (zlib : Zlib) (log : WorldChangeLog) (answer : Nat → QueueResult) (world : WorldState)
    (viewer : Viewer wire) :
    (flushView zlib log answer world viewer).world.store = world.store := by
  rw [flushView]
  cases viewer.state.view with
  | none => rfl
  | some view =>
    dsimp only
    split
    · rfl
    · split
      · rfl
      · rcases hexec : (syncPackets (sortedChanges (pendingViewChanges view log))).exec world with
          ⟨result, world'⟩
        have hserves : Serves world world' := (syncPackets_serves _).after hexec
        cases result <;> exact hserves.store

theorem flushViews_store (zlib : Zlib) (log : WorldChangeLog) (answer : Nat → Nat → QueueResult) (n : Nat)
    (world : WorldState) (viewers : List (Viewer wire)) :
    (flushViews zlib log answer n world viewers).world.store = world.store := by
  induction viewers generalizing n world with
  | nil => rfl
  | cons viewer viewers ih =>
    have hone := flushView_store zlib log (answer n) world viewer
    rw [flushViews]
    generalize flushView zlib log (answer n) world viewer = flushed at hone
    dsimp only
    cases flushed.result with
    | error e => exact hone
    | ok completed => exact (ih (n + 1) flushed.world).trans hone

theorem flushWorldChanges_latest (answer : Nat → Nat → QueueResult) :
    (flushWorldChanges zlib answer world viewers).2.1.store.changes.latestSequence =
      world.store.changes.latestSequence := by
  rw [flushWorldChanges]
  split
  · rfl
  · split
    · rfl
    · have hstore := flushViews_store zlib world.store.changes answer 0 world viewers
      generalize flushViews zlib world.store.changes answer 0 world viewers = flushed at hstore
      obtain ⟨error, queued, world', entries⟩ := flushed
      have hlatest : world'.store.changes.latestSequence = world.store.changes.latestSequence := by
        rw [show world'.store = world.store from hstore]
      cases error <;> exact hlatest

end Shows

section Packets

theorem u32OfLen_within {field : String} {length : Nat} (h : length < UInt32.size) :
    Wire.u32OfLen field length = .ok (UInt32.ofNat length) := if_pos h

theorem bind_succeeds {ε α β : Type} {x : Except ε α} {f : α → Except ε β} {a : α}
    (hx : x = .ok a) (hf : ∃ b, f a = .ok b) : ∃ b, (x >>= f) = .ok b := by
  rw [hx]
  exact hf

-- A chunk without extra data and without chests has a packet, and it is not large.
theorem encodeChunk_bare {p : ChunkCoord} {data : ChunkData} (hdata : data.WellFormed)
    (hextra : data.extraData.toList = []) (hchests : data.chestBlockEntities = []) :
    ∃ packet, encodeChunk p data = .ok packet ∧ packet.body.length = 83217 := by
  have hids : (chunkWireView p data).blockIds.length = ChunkShape.blockCount :=
    (List.length_map _).trans hdata.states_length
  have hblockData : (chunkWireView p data).blockData.length = ChunkShape.nibbleBytes :=
    length_packNibbles _ _
  have hsky : (chunkWireView p data).skyLight.length = ChunkShape.nibbleBytes := hdata.skyLight_length
  have hblock : (chunkWireView p data).blockLight.length = ChunkShape.nibbleBytes :=
    hdata.blockLight_length
  have hheights : (chunkWireView p data).heightMap.length = ChunkShape.columnCount :=
    hdata.heightMap_length
  have hbiomes : ((chunkWireView p data).biomeWords.flatMap Word.toBeBytes).length =
      4 * ChunkShape.columnCount := by
    have hword : ∀ word ∈ data.biomes, (Word.toBeBytes word).length = 4 :=
      fun word _ => Word.length_toBeBytes word
    change (data.biomes.flatMap Word.toBeBytes).length = _
    rw [List.length_flatMap, List.map_congr_left hword, List.map_const', List.sum_replicate_nat,
      hdata.biomes_length, Nat.mul_comm]
    rfl
  have hnoExtra : (chunkWireView p data).extraData = [] := List.map_eq_nil_iff.mpr hextra
  have hnoEntities : (chunkWireView p data).blockEntities = [] := List.map_eq_nil_iff.mpr hchests
  have hencoded : ∃ packet, encodeChunk p data = .ok packet := by
    rw [encodeChunk, encodeFullChunk, hnoExtra, hnoEntities]
    refine bind_succeeds (a := ()) (requireLen_ok_iff.mpr hids) ?_
    refine bind_succeeds (a := ()) (requireLen_ok_iff.mpr hblockData) ?_
    refine bind_succeeds (a := ()) (requireLen_ok_iff.mpr hsky) ?_
    refine bind_succeeds (a := ()) (requireLen_ok_iff.mpr hblock) ?_
    refine bind_succeeds (a := ()) (requireLen_ok_iff.mpr hdata.biomes_length) ?_
    refine bind_succeeds (a := ()) (requireLen_ok_iff.mpr hheights) ?_
    refine bind_succeeds (a := []) rfl ?_
    refine bind_succeeds (u32OfLen_within (by decide)) ?_
    refine bind_succeeds (a := _) rfl ?_
    refine bind_succeeds (u32OfLen_within ?_) ⟨_, rfl⟩
    rw [foldl_putU32Be]
    simp only [Writer.putBytes, Writer.putLe, List.foldl_nil, List.nil_append, List.length_append, hids,
      hblockData, hsky, hblock, hheights, hbiomes, Word.length_toLeBytes]
    decide
  obtain ⟨packet, hpacket⟩ := hencoded
  obtain ⟨payloadLen, hbody⟩ := (encodeFullChunk_ok hpacket).body
  refine ⟨packet, hpacket, ?_⟩
  rw [hbody, hnoExtra, hnoEntities]
  simp only [List.length_append, hids, hblockData, hsky, hblock, hheights, hbiomes,
    Word.length_toLeBytes, Word.length_toBeBytes, List.flatMap_nil, List.length_nil]
  rfl

theorem batchLen_within {field : String} {length : Nat} (h : length < 4294967296) :
    BatchPacket.u32OfLen field length = .ok (UInt32.ofNat length) := if_pos h

theorem batchPacket_one {packet : RawPacket} (hlength : packet.body.length < 100000) :
    ∃ batch, batchPacket sampleZlib [packet] = .ok batch := by
  have hlen : packet.encodedLen = 1 + packet.body.length := rfl
  have hbytes : ∀ length : UInt32,
      (packet.writePacketBytes ([] ++ Word.toBeBytes length)).length = packet.body.length + 5 := by
    intro length
    simp only [RawPacket.writePacketBytes, List.nil_append, List.length_append, List.length_cons,
      Word.length_toBeBytes]
    change 4 + (packet.body.length + 1) = packet.body.length + 5
    omega
  have hwritten : ∃ bytes, BatchPacket.writePacket codecLimits [] packet = .ok bytes ∧
      bytes.length = packet.body.length + 5 := by
    refine ⟨packet.writePacketBytes ([] ++ Word.toBeBytes (UInt32.ofNat packet.encodedLen)), ?_,
      hbytes _⟩
    have hinner : packet.encodedLen ≤ codecLimits.maxInnerPacketBytes := by
      change packet.encodedLen ≤ 2097152
      omega
    have hroom : (packet.writePacketBytes ([] ++ Word.toBeBytes
        (UInt32.ofNat packet.encodedLen))).length ≤ codecLimits.maxBatchDecompressedBytes := by
      rw [hbytes]
      change _ ≤ 4194304
      omega
    refine bind_ok_iff.mpr ⟨(), checkLimit_ok_iff.mpr hinner, ?_⟩
    refine bind_ok_iff.mpr ⟨_, batchLen_within (by omega), ?_⟩
    exact bind_ok_iff.mpr ⟨(), checkLimit_ok_iff.mpr hroom, rfl⟩
  obtain ⟨bytes, hbytes, hsize⟩ := hwritten
  have hnonempty : bytes ≠ [] := by
    rw [← List.length_pos_iff, hsize]
    omega
  have hcompressed : compressZlib sampleZlib bytes = .ok (0 :: bytes) := by
    rw [compressZlib, sampleZlib]
    dsimp only
    rw [if_neg hnonempty]
    rfl
  have hbody : ∃ body, BatchPacket.encodeBody sampleZlib ⟨[packet]⟩ codecLimits = .ok body := by
    have hcount : [packet].length ≤ codecLimits.maxInnerPackets := by
      change 1 ≤ 256
      decide
    rw [BatchPacket.encodeBody]
    refine bind_succeeds (a := ()) (checkLimit_ok_iff.mpr hcount) ?_
    refine bind_succeeds (a := bytes) ?_ ?_
    · rw [List.foldlM_cons, hbytes]
      rfl
    refine bind_succeeds hcompressed ?_
    refine bind_succeeds (a := ()) (checkLimit_ok_iff.mpr ?_) ?_
    · rw [List.length_cons, hsize]
      change _ ≤ 2097152
      omega
    · refine bind_succeeds (batchLen_within ?_) ⟨_, rfl⟩
      rw [List.length_cons, hsize]
      omega
  obtain ⟨body, hbody⟩ := hbody
  refine ⟨⟨PacketId.batch, body⟩, ?_⟩
  rw [batchPacket, bootstrapSessionPacket, encodeBootstrapPacket, hbody]
  rfl

end Packets

section Example

abbrev sampleWire : Session.Wire := codecWire sampleZlib (fun _ => "codec error") quietWire

def joiningViewer : Viewer sampleWire where
  state := { SessionState.new sampleWire 0 with
    phase := .waitingInitialChunks
    position := some ()
    playerChunk := some spawnChunk
    pending := some (.initial 1 0 spawnChunk [spawnChunk] [spawnChunk] .new) }
  accepted := []

def spawnWorld : WorldState := (WorldCall.ensureChunk spawnChunk 1).apply .new

def preparedViewer : Viewer sampleWire :=
  { joiningViewer with
    state := (joiningViewer.state.markPreparedChunk spawnChunk spawnWorld.store).2.1 }

def preparedWorld : WorldState :=
  { spawnWorld with
    store := (joiningViewer.state.markPreparedChunk spawnChunk spawnWorld.store).2.2 }

theorem initialWork_spawn : SessionState.initialWork sampleWire 1 0 spawnChunk () =
    .initial 1 0 spawnChunk [spawnChunk] [spawnChunk] .new := by
  have hview : viewPositions spawnChunk 0 = [spawnChunk] := by decide
  have hsend : initialSendPositions spawnChunk 0 = [spawnChunk] := by decide
  change PendingWork.initial 1 0 spawnChunk (prioritizeForPlayer _ (viewPositions spawnChunk 0))
    (initialSendPositions spawnChunk 0) .new = _
  rw [hview, hsend, prioritizeForPlayer, List.mergeSort_singleton]

theorem ViewersRun.call {wire : Session.Wire} {zlib : Zlib} {world : WorldState} {viewer : Viewer wire}
    {left : ChunkCoord → Option ChunkData} (hrun : ViewersRun zlib ⟨world, [viewer], left⟩)
    (call : SessionCall wire) (hcall : Owned call) :
    ViewersRun zlib ⟨{ world with store := (call.apply viewer.state world.store).2 },
      [{ viewer with state := (call.apply viewer.state world.store).1 }], left⟩ := by
  have hs : ViewersStep zlib ⟨world, [] ++ viewer :: [], left⟩ _ := .call call hcall
  exact hrun.tail hs

theorem ViewersRun.complete {wire : Session.Wire} {zlib : Zlib} {world world' : WorldState}
    {viewer viewer' : Viewer wire} {left : ChunkCoord → Option ChunkData}
    (hrun : ViewersRun zlib ⟨world, [viewer], left⟩)
    (h : (completeChunkWork [] .sent world viewer).2 = (world', viewer')) :
    ViewersRun zlib ⟨world', [viewer'], left⟩ := by
  have hs : ViewersStep zlib ⟨world, [] ++ viewer :: [], left⟩ _ := .complete [] .sent
  rw [h] at hs
  exact hrun.tail hs

theorem joining_run : ViewersRun sampleZlib ⟨.new, [joiningViewer], fun _ => none⟩ := by
  have h₁ : ViewersRun sampleZlib ⟨.new, [⟨SessionState.new sampleWire 0, []⟩], fun _ => none⟩ :=
    .single (.connect 0)
  have h₂ := h₁.call (.handlePacket ⟨Session.PacketId.login, []⟩) trivial
  have h₃ := h₂.call (.acceptLogin ()) trivial
  have h₄ := h₃.call (.handlePacket ⟨Session.PacketId.requestChunkRadius, [0, 0, 0, 1]⟩) trivial
  have hwork : joiningViewer = ⟨{ SessionState.new sampleWire 0 with
      phase := .waitingInitialChunks
      position := some ()
      playerChunk := some spawnChunk
      pending := some (SessionState.initialWork sampleWire 1 0 spawnChunk ()) }, []⟩ := by
    rw [initialWork_spawn]
    rfl
  rw [hwork]
  exact h₄

theorem prepared_run : ViewersRun sampleZlib ⟨preparedWorld, [preparedViewer], fun _ => none⟩ := by
  have hreturns : Returns (fun _ => none) WorldStore.new spawnWorld.store :=
    fun p c hs hc data hleft => by cases hleft
  have hworld : ViewersRun sampleZlib ⟨spawnWorld, [joiningViewer], fun _ => none⟩ :=
    joining_run.tail (.world (.ensureChunk spawnChunk 1) trivial hreturns)
  exact hworld.call (.markPreparedChunk spawnChunk) trivial

theorem spawnWorld_store : spawnWorld.store = WorldStore.new.setChunk spawnChunk bareChunk := rfl

theorem prepared_eq : joiningViewer.state.markPreparedChunk spawnChunk spawnWorld.store =
    (.ok (), { joiningViewer.state with
      pending := some (.initial 1 0 spawnChunk [spawnChunk] [spawnChunk] ⟨true, [spawnChunk]⟩) },
      (spawnWorld.store.pinChunk spawnChunk).2) := by
  have hpending : joiningViewer.state.pending =
    some (.initial 1 0 spawnChunk [spawnChunk] [spawnChunk] .new) := rfl
  have hmem : spawnChunk ∈ [spawnChunk] := List.mem_singleton_self _
  rw [SessionState.markPreparedChunk, hpending]
  dsimp only [PendingWork.prepared, PendingWork.preparePositions]
  rw [PreparedChunks.mark, if_neg (not_not.mpr hmem),
    if_neg (by simp [PreparedChunks.new])]
  rfl

def pinnedChunk : ChunkRecord := { bareChunk with pinCount := 1 }

theorem preparedWorld_store :
    preparedWorld.store.chunks spawnChunk = some pinnedChunk ∧ preparedWorld.store.changes = .default := by
  have hstore : preparedWorld.store = (spawnWorld.store.pinChunk spawnChunk).2 := by
    rw [preparedWorld, prepared_eq]
  have hpin : spawnWorld.store.pinChunk spawnChunk =
      (.ok 1, (WorldStore.new.setChunk spawnChunk bareChunk).setChunk spawnChunk pinnedChunk) := by
    rw [spawnWorld_store, WorldStore.pinChunk, WorldStore.withChunkMut, setChunk_self]
    rfl
  rw [hstore, hpin]
  exact ⟨setChunk_self _ _ _, rfl⟩

theorem preparedViewer_eq : preparedViewer = { joiningViewer with state := { joiningViewer.state with
    pending := some (.initial 1 0 spawnChunk [spawnChunk] [spawnChunk] ⟨true, [spawnChunk]⟩) } } := by
  rw [preparedViewer, prepared_eq]

theorem completeChunkWork_sent {viewer : Viewer sampleWire} {world world' : WorldState}
    {work : ChunkWork} {packets : List RawPacket} {plan : CompletionPlan}
    (hwork : viewer.state.chunkWork = some work)
    (hpackets : (wirePackets work.sendPositions).exec world = (.ok packets, world'))
    (hplan : viewer.state.completionPlan (packets.map sessionPacket) = .ok plan) :
    (completeChunkWork [] .sent world viewer).2 =
      ({ world' with store := (viewer.state.commitPending world'.store).2.2 },
        { viewer with state := (viewer.state.commitPending world'.store).2.1 }.accept plan.packets) := by
  rw [completeChunkWork, hwork]
  dsimp only
  rw [hpackets]
  dsimp only [handlePackets]
  rw [tryCompleteChunkWork, hplan]

theorem preparedViewer_plan {packet : RawPacket} (hlength : packet.body.length < 100000) :
    ∃ plan, preparedViewer.state.completionPlan [sessionPacket packet] = .ok plan := by
  obtain ⟨batch, hbatch⟩ := batchPacket_one hlength
  have hencode : sampleWire.encodeBatch [sessionPacket packet] = .ok batch := by
    change (batchPacket sampleZlib [packet]).mapError _ = _
    rw [hbatch]
    rfl
  rw [preparedViewer_eq, SessionState.completionPlan]
  refine bind_succeeds (a := ()) rfl ?_
  refine bind_succeeds (a := ()) rfl ?_
  refine bind_succeeds (a := batch) ?_ ?_
  · rw [hencode]
    rfl
  · exact bind_succeeds (a := ⟨0x02, [0, 0, 0, 3]⟩) (by rfl) ⟨_, rfl⟩

theorem wirePackets_one {world world' : WorldState} {p : ChunkCoord} {packet : RawPacket}
    (h : chunkPacket world p = (.ok packet, world')) :
    (wirePackets [p]).exec world = (.ok [packet], world') :=
  Effect.bind_ok.mpr ⟨packet, world', h, Effect.bind_ok.mpr ⟨[], world', rfl, rfl⟩⟩

theorem chunkPacket_resident {world : WorldState} (ht : world.Transparent) {p : ChunkCoord}
    {c : ChunkRecord} (hc : world.store.chunks p = some c) {packet : RawPacket}
    (hencode : encodeChunk p c.data = .ok packet) :
    ∃ world', chunkPacket world p = (.ok packet, world') ∧ world'.store = world.store := by
  refine ⟨(world.chunkWirePacket p).2, ?_, chunkWirePacket_store world p⟩
  rw [chunkPacket, ht.packet_eq, freshChunkWirePacket, WorldStore.snapshot, WorldStore.withChunk, hc]
  change (((encodeChunk p c.data).mapError _).mapError _, _) = _
  rw [hencode]
  rfl

abbrev spawnView : WorldView := ⟨spawnChunk, 0, 0, viewPositions spawnChunk 0⟩

theorem committed_spawn {store : WorldStore} (hchanges : store.changes = .default) :
    (preparedViewer.state.commitPending store).2.1.view =
        some spawnView ∧
      (preparedViewer.state.commitPending store).2.2 = store := by
  have hcomplete : PreparedChunks.isComplete ⟨true, [spawnChunk]⟩ [spawnChunk] = true := by decide
  rw [preparedViewer_eq, SessionState.commitPending]
  dsimp only
  have hattached : ¬ (⟨true, [spawnChunk]⟩ : PreparedChunks).attached = false := by decide
  rw [SessionState.commitInitial, if_neg fun h => absurd h.1 (by rw [hcomplete]; decide),
    if_neg hattached]
  refine ⟨?_, rfl⟩
  rw [hchanges]
  rfl

-- One viewer that has joined with a view of a single chunk.
structure Joined (sys : Viewers sampleWire) (viewer : Viewer sampleWire) : Prop where
  run : ViewersRun sampleZlib sys
  viewers : sys.viewers = [viewer]
  view : viewer.state.view = some spawnView
  chunk : sys.world.store.chunks spawnChunk = some pinnedChunk
  changes : sys.world.store.changes = .default
  left : sys.left = fun _ => none

theorem joined : ∃ sys viewer, Joined sys viewer := by
  have ht := (ViewersRun.inv sampleZlib_inverts prepared_run).transparent
  obtain ⟨packet, hencode, hlength⟩ := encodeChunk_bare (p := spawnChunk) bareChunk_wellFormed rfl rfl
  have hsmall : packet.body.length < 100000 := by omega
  obtain ⟨hchunk, hchanges⟩ := preparedWorld_store
  obtain ⟨world, hpacket, hworld⟩ := chunkPacket_resident ht hchunk hencode
  obtain ⟨plan, hplan⟩ := preparedViewer_plan hsmall
  have hwork : preparedViewer.state.chunkWork = some ⟨.initial, [], [spawnChunk]⟩ := by
    rw [preparedViewer_eq]
    rfl
  have hdone := completeChunkWork_sent hwork (wirePackets_one hpacket) hplan
  rw [← hworld] at hchunk hchanges
  obtain ⟨hview, hcommitted⟩ := committed_spawn hchanges
  rw [hcommitted] at hdone
  exact ⟨_, _, prepared_run.complete hdone, rfl, hview, hchunk, hchanges, rfl⟩

def stonePatch : ChunkPatch := ⟨0, 1, 0, 0, [(0, 16)], [], [], [], []⟩

abbrev stoneLog : WorldChangeLog := ⟨2, [⟨1, spawnChunk, .blocks [(0, 16)]⟩]⟩

-- A block has been set since the viewer joined.
structure Behind (sys : Viewers sampleWire) (viewer : Viewer sampleWire) : Prop where
  run : ViewersRun sampleZlib sys
  viewers : sys.viewers = [viewer]
  view : viewer.state.view = some spawnView
  changes : sys.world.store.changes = stoneLog

theorem behind : ∃ sys viewer, Behind sys viewer := by
  obtain ⟨⟨world, viewers, left⟩, viewer, h⟩ := joined
  have hchunk : world.store.chunks spawnChunk = some pinnedChunk := h.chunk
  have hlog : world.store.changes = .default := h.changes
  have hleft : left = fun _ => none := h.left
  have hvalid : WorldStore.validatePatch stonePatch = .ok () := by decide
  have hrecord : ∃ c, WorldStore.patchRecord pinnedChunk stonePatch = (.ok (), c) := ⟨_, rfl⟩
  obtain ⟨c, hrecord⟩ := hrecord
  have hreturns (store : WorldStore) : Returns left world.store store := by
    intro p c hs hc data hdata
    rw [hleft] at hdata
    cases hdata
  have hrun := h.run.tail (.world (.applyPatch spawnChunk stonePatch) trivial (hreturns _))
  refine ⟨_, viewer, hrun, h.viewers, h.view, ?_⟩
  change (world.store.applyPatch spawnChunk stonePatch).2.changes = _
  rw [WorldStore.applyPatch, hvalid, WorldStore.withChunkMut, hchunk]
  dsimp only
  rw [hrecord]
  change world.store.changes.record spawnChunk (.blocks [(0, 16)]) = _
  rw [hlog]
  rfl

theorem pending_stone : (pendingViewChanges spawnView stoneLog).entries =
    [(spawnChunk, .blocks ((∅ : BlockChanges).insert 0 16))] := by
  have hfresh : stoneLog.cursorIsStale spawnView.cursor = false := by decide
  have hin : viewContains spawnView.center spawnView.radius spawnChunk = true := by decide
  rw [pendingViewChanges, hfresh, if_neg Bool.false_ne_true]
  rfl

theorem stone_packets : ∃ packet : RawPacket, packet.body.length < 100000 ∧ ∀ world,
    (syncPackets [(spawnChunk, .blocks ((∅ : BlockChanges).insert 0 16))]).exec world =
      (.ok [packet], world) := by
  refine ⟨_, ?_, fun world => rfl⟩
  decide

theorem flushView_behind {world : WorldState} {viewer : Viewer sampleWire}
    (hview : viewer.state.view = some spawnView) :
    (flushView sampleZlib stoneLog (fun _ => .sent) world viewer).result = .ok true := by
  obtain ⟨packet, hlength, hpackets⟩ := stone_packets
  obtain ⟨batch, hbatch⟩ := batchPacket_one hlength
  have hcursor : spawnView.cursor ≠ stoneLog.latestSequence := by decide
  have hbatches : packetBatches [packet] = [[packet]] := by
    rw [packetBatches, if_neg (by simp), packetBatches]
    rfl
  rw [flushView, hview]
  dsimp only
  rw [if_neg hcursor, sortedChanges, pending_stone, if_neg (by simp), List.mergeSort_singleton,
    hpackets world]
  dsimp only
  rw [hbatches, queueBatches, hbatch]
  rfl

theorem flush_behind {world : WorldState} {viewer : Viewer sampleWire}
    (hview : viewer.state.view = some spawnView) (hchanges : world.store.changes = stoneLog) :
    ∃ n, (flushWorldChanges sampleZlib (fun _ _ => .sent) world [viewer]).1 = .ok n := by
  have hcursors : cursors [viewer] = [0] := by
    rw [cursors, List.filterMap_cons, hview]
    rfl
  have herror : (flushViews sampleZlib stoneLog (fun _ _ => .sent) 0 world [viewer]).error = none := by
    rw [flushViews, flushView_behind hview]
    rfl
  have hnone : ¬ ([0] : List Nat).isEmpty = true := by decide
  have hlate : ¬ ([0] : List Nat).all (fun cursor => decide (cursor = stoneLog.latestSequence)) = true := by
    decide
  rw [flushWorldChanges, hcursors, if_neg hnone, hchanges, if_neg hlate]
  dsimp only
  rw [herror]
  exact ⟨_, rfl⟩

end Example

section Converge

variable {zlib : Zlib} {describe : CodecError → String} {rest : Session.Wire}

end Converge

end Cobblestone.Bridge
