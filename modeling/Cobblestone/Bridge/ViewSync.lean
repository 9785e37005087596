import Cobblestone.Bridge.ViewFeed

namespace Cobblestone.Bridge

open Lib Content World WorldStore Wire Session

theorem i32_some {n : Int} {v : Int32} (h : i32 n = some v) : v.toInt = n := by
  unfold i32 at h
  split at h
  · next hn =>
    cases h
    exact Int32.toInt_ofInt_of_le hn.1 hn.2
  · cases h

theorem blockCoord_some {chunk v : Int32} {offset : UInt16} (h : blockCoord chunk offset = some v) :
    v.toInt = chunk.toInt * 16 + offset.toNat := by
  obtain ⟨base, hbase, hv⟩ := Option.bind_eq_some_iff.mp h
  rw [i32_some hv, i32_some hbase]

theorem low_nibble (n : UInt16) : (n &&& 0x0f).toNat = n.toNat % 16 := by
  rw [UInt16.toNat_and]
  exact Nat.and_two_pow_sub_one_eq_mod n.toNat 4

theorem middle_nibble (n : UInt16) : ((n >>> 4) &&& 0x0f).toNat = n.toNat / 16 % 16 := by
  rw [low_nibble, UInt16.toNat_shiftRight]
  exact congrArg (· % 16) (Nat.shiftRight_eq_div_pow n.toNat 4)

theorem high_bits (n : UInt16) : ((n >>> 8) &&& 0x7f).toUInt8.toNat = n.toNat / 256 % 128 := by
  have hshift : (n >>> 8).toNat = n.toNat / 256 := by
    rw [UInt16.toNat_shiftRight]
    exact Nat.shiftRight_eq_div_pow n.toNat 8
  have hmask : ((n >>> 8) &&& 0x7f).toNat = n.toNat / 256 % 128 := by
    rw [UInt16.toNat_and, hshift]
    exact Nat.and_two_pow_sub_one_eq_mod _ 7
  rw [UInt16.toNat_toUInt8, hmask]
  omega

theorem elim_ok {α β : Type} {o : Option α} {e : β} {a : α} :
    o.elim (.error e) .ok = (.ok a : Except β α) ↔ o = some a := by
  cases o <;> simp

theorem updateBlockPacket_ok {p : ChunkCoord} {index state : UInt16} {packet : RawPacket}
    (h : updateBlockPacket p index state = .ok packet) (hindex : index.toNat < chunkBlockCount) :
    packet.id = PacketId.updateBlock ∧ ∃ update, runReader readUpdateBlock packet.body = .ok update ∧
      update.state = state ∧ update.index = index.toNat ∧
        (⟨update.chunkX, update.chunkZ⟩ : ChunkCoord) = p := by
  obtain ⟨x, hx, h⟩ := bind_ok_iff.mp h
  obtain ⟨z, hz, h⟩ := bind_ok_iff.mp h
  have hxi := blockCoord_some (elim_ok.mp hx)
  have hzi := blockCoord_some (elim_ok.mp hz)
  rw [low_nibble] at hxi
  rw [middle_nibble] at hzi
  have hcount : chunkBlockCount = 32768 := by decide
  have hpx : x.toInt / 16 = p.x.toInt := by omega
  have hpz : z.toInt / 16 = p.z.toInt := by omega
  generalize hencoded : encodeUpdateBlock x ((index >>> 8) &&& 0x7f).toUInt8 z state
    updateBlockFlagAllPriority = encoded at h
  cases encoded with
  | error e => cases h
  | ok packet' =>
    cases h
    refine ⟨(encodeUpdateBlock_ok hencoded).2.1, _, readUpdateBlock_encoded hencoded, rfl, ?_, ?_⟩
    · simp only [BlockUpdate.index, high_bits]
      omega
    · simp only [BlockUpdate.chunkX, BlockUpdate.chunkZ, hpx, hpz, Int32.ofInt_toInt]

-- A packet of the world as it stands, or one that carries no blocks at all.
inductive Carried (store : WorldStore) : RawPacket → Prop where
  | chunk {p : ChunkCoord} {c : ChunkRecord} {packet : RawPacket} (hc : store.chunks p = some c)
      (h : encodeChunk p c.data = .ok packet) : Carried store packet
  | block {p : ChunkCoord} {index state : UInt16} {packet : RawPacket}
      (h : updateBlockPacket p index state = .ok packet) (hindex : index.toNat < chunkBlockCount)
      (hcell : ∀ c, store.chunks p = some c → (content c.data).cell index = state) :
      Carried store packet
  | other {packet : RawPacket} (hchunk : packet.id ≠ fullChunkDataId)
      (hblock : packet.id ≠ PacketId.updateBlock) : Carried store packet

-- Wherever the client knew a chunk, it now knows it at least as well.
def Sees (store : WorldStore) (client client' : ClientWorld) : Prop :=
  ∀ p chunk, client p = some chunk → chunk.states.length = chunkBlockCount →
    ∃ chunk', client' p = some chunk' ∧ chunk'.states.length = chunkBlockCount ∧
      ∀ c, store.chunks p = some c →
        Nearer (content c.data) (clientContent chunk) (clientContent chunk')

section Client

variable {store : WorldStore} {client client' : ClientWorld} {p : ChunkCoord} {c : ChunkRecord}
  {packet : RawPacket} {packets : List RawPacket} {index state : UInt16} {chunk : ClientChunk}

theorem Sees.refl (store : WorldStore) (client : ClientWorld) : Sees store client client :=
  fun _ chunk hchunk hlength => ⟨chunk, hchunk, hlength, fun _ _ => .refl _ _⟩

theorem Sees.trans {client'' : ClientWorld} (h : Sees store client client')
    (h' : Sees store client' client'') : Sees store client client'' := by
  intro p chunk hchunk hlength
  obtain ⟨chunk', hchunk', hlength', hnear⟩ := h p chunk hchunk hlength
  obtain ⟨chunk'', hchunk'', hlength'', hnear'⟩ := h' p chunk' hchunk' hlength'
  exact ⟨chunk'', hchunk'', hlength'', fun c hc => (hnear c hc).trans (hnear' c hc)⟩

theorem receive_chunk (hdata : c.data.WellFormed) (h : encodeChunk p c.data = .ok packet) :
    client.receive packet = Function.update client p (some (shownChunk c.data)) := by
  rw [ClientWorld.receive, if_pos (encodeFullChunk_ok h).id, readFullChunk_chunk hdata h]

theorem receive_block (h : updateBlockPacket p index state = .ok packet)
    (hindex : index.toNat < chunkBlockCount) : client.receive packet =
      Function.update client p ((client p).map fun chunk => chunk.setState index.toNat state) := by
  obtain ⟨hid, update, hread, rfl, hplace, rfl⟩ := updateBlockPacket_ok h hindex
  have hne : packet.id ≠ fullChunkDataId := by
    rw [hid]
    decide
  rw [ClientWorld.receive, if_neg hne, if_pos hid, hread]
  dsimp only
  rw [hplace]

theorem receive_other (hchunk : packet.id ≠ fullChunkDataId)
    (hblock : packet.id ≠ PacketId.updateBlock) : client.receive packet = client := by
  rw [ClientWorld.receive, if_neg hchunk, if_neg hblock]

theorem cell_setState (hlength : chunk.states.length = chunkBlockCount)
    (hindex : index.toNat < chunkBlockCount) (k : UInt16) :
    (clientContent (chunk.setState index.toNat state)).cell k =
      if index = k then state else (clientContent chunk).cell k := by
  rw [clientContent, ClientChunk.setState]
  dsimp only
  rw [getD_set (hlength ▸ hindex)]
  by_cases hk : index = k
  · rw [if_pos hk, if_pos (congrArg UInt16.toNat hk)]
  · rw [if_neg hk, if_neg fun heq => hk (UInt16.toNat_inj.mp heq)]
    rfl

theorem sees_update {updated : Option ClientChunk}
    (h : ∀ chunk, client p = some chunk → chunk.states.length = chunkBlockCount →
      ∃ chunk', updated = some chunk' ∧ chunk'.states.length = chunkBlockCount ∧
        ∀ c, store.chunks p = some c →
          Nearer (content c.data) (clientContent chunk) (clientContent chunk')) :
    Sees store client (Function.update client p updated) := by
  intro q chunk hchunk hlength
  by_cases hq : q = p
  · subst hq
    rw [Function.update_self]
    exact h chunk hchunk hlength
  · rw [Function.update_of_ne hq]
    exact Sees.refl store client q chunk hchunk hlength

variable (hsound : store.AllChunks (ChunkRecord.Sound fun _ => True))

include hsound

theorem Carried.sees (h : Carried store packet) (client : ClientWorld) :
    Sees store client (client.receive packet) := by
  cases h with
  | @chunk p c _ hc h =>
    have hdata := (hsound p c hc).data.wellFormed
    rw [receive_chunk hdata h]
    refine sees_update fun chunk _ _ => ⟨_, rfl, hdata.states_length, fun c' hc' => ?_⟩
    rw [Option.some.inj (hc'.symm.trans hc)]
    exact nearer_self _ _
  | @block p index state _ h hindex hcell =>
    rw [receive_block h hindex]
    refine sees_update fun chunk hchunk hlength => ?_
    rw [hchunk]
    refine ⟨_, rfl, List.length_set.trans hlength, fun c hc => ⟨id, fun k hk => ?_⟩⟩
    rw [cell_setState hlength hindex]
    split
    · next heq => rw [← heq, hcell c hc]
    · exact hk
  | other hchunk hblock =>
    rw [receive_other hchunk hblock]
    exact .refl store client

theorem sees_all (h : ∀ packet ∈ packets, Carried store packet) (client : ClientWorld) :
    Sees store client (packets.foldl ClientWorld.receive client) := by
  induction packets generalizing client with
  | nil => exact .refl store client
  | cons packet packets ih =>
    obtain ⟨hpacket, hpackets⟩ := List.forall_mem_cons.mp h
    exact (hpacket.sees hsound client).trans (ih hpackets _)

-- A chunk that was sent in full is known in full at the end.
theorem shown_of_chunk (h : ∀ packet ∈ packets, Carried store packet) (hc : store.chunks p = some c)
    (hpacket : encodeChunk p c.data = .ok packet) (hmem : packet ∈ packets) :
    ∃ chunk, packets.foldl ClientWorld.receive client p = some chunk ∧
      chunk.states.length = chunkBlockCount ∧ clientContent chunk = content c.data := by
  obtain ⟨before, after, rfl⟩ := List.append_of_mem hmem
  have hdata := (hsound p c hc).data.wellFormed
  have hafter : ∀ packet ∈ after, Carried store packet := fun packet hp =>
    h packet (List.mem_append_right _ (List.mem_cons_of_mem _ hp))
  rw [List.foldl_append, List.foldl_cons, receive_chunk hdata hpacket]
  obtain ⟨chunk, hchunk, hlength, hnear⟩ := sees_all hsound hafter
    (Function.update (before.foldl ClientWorld.receive client) p (some (shownChunk c.data))) p _
      (Function.update_self ..) hdata.states_length
  refine ⟨chunk, hchunk, hlength, Content.ext ((hnear c hc).rest rfl) (funext fun k => ?_)⟩
  exact (hnear c hc).cell k rfl

theorem shown_of_block (h : ∀ packet ∈ packets, Carried store packet) (hc : store.chunks p = some c)
    (hpacket : updateBlockPacket p index ((content c.data).cell index) = .ok packet)
    (hindex : index.toNat < chunkBlockCount) (hmem : packet ∈ packets)
    (hchunk : client p = some chunk) (hlength : chunk.states.length = chunkBlockCount) :
    ∃ chunk', packets.foldl ClientWorld.receive client p = some chunk' ∧
      (clientContent chunk').cell index = (content c.data).cell index := by
  obtain ⟨before, after, rfl⟩ := List.append_of_mem hmem
  have hbefore : ∀ packet ∈ before, Carried store packet := fun packet hp =>
    h packet (List.mem_append_left _ hp)
  have hafter : ∀ packet ∈ after, Carried store packet := fun packet hp =>
    h packet (List.mem_append_right _ (List.mem_cons_of_mem _ hp))
  obtain ⟨chunk₁, hchunk₁, hlength₁, -⟩ := sees_all hsound hbefore client p chunk hchunk hlength
  rw [List.foldl_append, List.foldl_cons, receive_block hpacket hindex, hchunk₁, Option.map_some]
  obtain ⟨chunk₂, hchunk₂, -, hnear⟩ := sees_all hsound hafter
    (Function.update (before.foldl ClientWorld.receive client) p
      (some (chunk₁.setState index.toNat ((content c.data).cell index)))) p _
      (Function.update_self ..) (List.length_set.trans hlength₁)
  refine ⟨chunk₂, hchunk₂, (hnear c hc).cell index ?_⟩
  rw [cell_setState hlength₁ hindex, if_pos rfl]

end Client

-- What is queued for a chunk stands for the changes it was merged from.
def Merged (changes : List (Change UInt16 UInt16)) : Option PendingChunkSync → Prop
  | none => changes = []
  | some .fullChunk => True
  | some (.blocks blocks) => .everything ∉ changes ∧
      ∀ k : UInt16, blocks[k]? = lastWrite (Change.editsOf changes) k

section Pending

variable {changes : List (Change UInt16 UInt16)} {pending : PendingChanges} {p q : ChunkCoord}
  {kind : WorldChangeKind} {history : List WorldChange} {log : WorldChangeLog} {view : WorldView}

theorem insertBlocks_cases {blocks : BlockChanges} {before : List (UInt16 × UInt16)}
    (h : ∀ k : UInt16, blocks[k]? = lastWrite before k) (edits : List (UInt16 × UInt16)) :
    insertBlocks blocks edits = .fullChunk ∨ ∃ blocks' : BlockChanges,
      insertBlocks blocks edits = .blocks blocks' ∧
        ∀ k : UInt16, blocks'[k]? = lastWrite (before ++ edits) k := by
  induction edits generalizing blocks before with
  | nil => exact .inr ⟨blocks, rfl, by simpa using h⟩
  | cons edit edits ih =>
    rw [insertBlocks]
    split
    · exact .inl rfl
    · have hstep : ∀ k : UInt16, (blocks.insert edit.1 edit.2)[k]? = lastWrite (before ++ [edit]) k := by
        intro k
        rw [lastWrite_append_one, ← h, Std.ExtTreeMap.getElem?_insert]
        simp only [Std.LawfulEqCmp.compare_eq_iff_eq]
      have hrest := ih hstep
      rw [List.append_assoc, List.singleton_append] at hrest
      exact hrest

theorem merged_blocks (h : Merged changes (pending.get? p)) (edits : List (UInt16 × UInt16)) :
    Merged (changes ++ [.cells edits]) ((mergeChange pending p (.blocks edits)).get? p) := by
  have hinsert (blocks : BlockChanges)
      (hblocks : .everything ∉ changes ∧ ∀ k : UInt16, blocks[k]? = lastWrite (Change.editsOf changes) k) :
      Merged (changes ++ [.cells edits]) (some (insertBlocks blocks edits)) := by
    rcases insertBlocks_cases hblocks.2 edits with heq | ⟨blocks', heq, hblocks'⟩
    · rw [heq]
      trivial
    · rw [heq]
      refine ⟨fun hmem => ?_, fun k => ?_⟩
      · rcases List.mem_append.mp hmem with hmem | hmem
        · exact hblocks.1 hmem
        · cases List.mem_singleton.mp hmem
      · rw [hblocks', editsOf_append_one]
        rfl
  unfold mergeChange
  cases hget : pending.get? p with
  | none =>
    rw [hget] at h
    rw [Option.getD_none]
    rw [OrderedMap.get?_set, if_pos rfl]
    refine hinsert ∅ ⟨?_, fun k => ?_⟩
    · rw [show changes = [] from h]
      exact List.not_mem_nil
    · rw [show changes = [] from h]
      exact Std.ExtTreeMap.getElem?_empty
  | some change =>
    rw [hget] at h
    cases change with
    | fullChunk =>
      rw [Option.getD_some]
      dsimp only
      rw [hget]
      trivial
    | blocks blocks =>
      rw [Option.getD_some]
      dsimp only
      rw [OrderedMap.get?_set, if_pos rfl]
      exact hinsert blocks h

theorem Merged.merge (h : Merged changes (pending.get? p)) (kind : WorldChangeKind) :
    Merged (changes ++ [toChange kind]) ((mergeChange pending p kind).get? p) := by
  cases kind with
  | blocks edits => exact merged_blocks h edits
  | fullChunk =>
    rw [mergeChange, OrderedMap.get?_set, if_pos rfl]
    trivial

theorem get?_mergeChange_of_ne (hpq : p ≠ q) (kind : WorldChangeKind) :
    (mergeChange pending q kind).get? p = pending.get? p := by
  unfold mergeChange
  cases kind with
  | fullChunk => rw [OrderedMap.get?_set, if_neg hpq]
  | blocks edits =>
    dsimp only
    split
    · rfl
    · rw [OrderedMap.get?_set, if_neg hpq]

-- What the changes after the cursor ask for, chunk by chunk: exact where blocks are named, and
-- nothing in the view is left out.
structure Asked (view : WorldView) (changes : ChunkCoord → List (Change UInt16 UInt16))
    (pending : PendingChanges) : Prop where
  inside : ∀ p, viewContains view.center view.radius p = true → Merged (changes p) (pending.get? p)
  blocks : ∀ p blocks, pending.get? p = some (.blocks blocks) → .everything ∉ changes p ∧
    ∀ k v, (blocks : BlockChanges)[k]? = some v → lastWrite (Change.editsOf (changes p)) k = some v

theorem asked_fold (view : WorldView) (entries : List WorldChange) :
    Asked view (changesAt entries) (entries.foldl (fun pending change =>
      if viewContains view.center view.radius change.position then
        mergeChange pending change.position change.kind
      else pending) .empty) := by
  suffices h : ∀ p, if viewContains view.center view.radius p then
      Merged (changesAt entries p) ((entries.foldl (fun pending change =>
        if viewContains view.center view.radius change.position then
          mergeChange pending change.position change.kind
        else pending) .empty).get? p)
      else (entries.foldl (fun pending change =>
        if viewContains view.center view.radius change.position then
          mergeChange pending change.position change.kind
        else pending) .empty).get? p = none by
    refine ⟨fun p hp => ?_, fun p blocks hget => ?_⟩
    · have := h p
      rwa [if_pos hp] at this
    · have hp := h p
      split at hp
      · rw [hget] at hp
        exact ⟨hp.1, fun k v hv => (hp.2 k).symm.trans hv⟩
      · rw [hget] at hp
        cases hp
  intro p
  induction entries using List.reverseRecOn with
  | nil =>
    split
    · exact rfl
    · exact rfl
  | append_singleton entries change ih =>
    rw [List.foldl_append, List.foldl_cons, List.foldl_nil]
    generalize entries.foldl (fun pending change =>
      if viewContains view.center view.radius change.position then
        mergeChange pending change.position change.kind
      else pending) .empty = pending at ih
    obtain ⟨n, q, kind⟩ := change
    rw [changesAt_append]
    by_cases hpq : q = p
    · subst hpq
      rw [changesAt_self]
      split at ih
      · next hin =>
        rw [if_pos hin, if_pos hin]
        exact ih.merge kind
      · next hout =>
        rw [if_neg hout, if_neg hout]
        exact ih
    · rw [changesAt_other _ hpq, List.append_nil]
      split_ifs at ih ⊢
      · rwa [get?_mergeChange_of_ne (Ne.symm hpq)]
      · exact ih
      · rwa [get?_mergeChange_of_ne (Ne.symm hpq)]
      · exact ih

-- A stale cursor asks for every chunk of the view.
theorem asked_pending (hlog : LogOf history log)
    (hpinned : view.pinnedChunks = viewPositions view.center view.radius) :
    Asked view (changesAt (history.drop view.cursor)) (pendingViewChanges view log) := by
  unfold pendingViewChanges
  split
  · have hget (p : ChunkCoord) :
        (OrderedMap.setAll .empty PendingChunkSync.fullChunk view.pinnedChunks).get? p =
          if p ∈ view.pinnedChunks then some .fullChunk else none :=
      OrderedMap.get?_setAll _ _ _ _
    refine ⟨fun p hp => ?_, fun p blocks hblocks => ?_⟩
    · rw [hget, hpinned, if_pos (mem_viewPositions.mpr hp)]
      trivial
    · rw [hget] at hblocks
      split at hblocks <;> cases hblocks
  · next hs =>
    rw [hlog.after (Bool.not_eq_true _ ▸ hs)]
    exact asked_fold view _

end Pending

-- Asking for packets changes nothing of the world but its cache.
structure Serves (world world' : WorldState) : Prop where
  store : world'.store = world.store
  transparent : world.Transparent → world'.Transparent

instance : Std.Refl Serves := ⟨fun _ => ⟨rfl, id⟩⟩

instance : IsTrans WorldState Serves :=
  ⟨fun _ _ _ h h' => ⟨h'.store.trans h.store, fun ht => h'.transparent (h.transparent ht)⟩⟩

-- What each queued change asks a packet to be.
def Answers (store : WorldStore) (entry : ChunkCoord × PendingChunkSync) (packet : RawPacket) : Prop :=
  match entry.2 with
  | .fullChunk => ∃ c, store.chunks entry.1 = some c ∧ encodeChunk entry.1 c.data = .ok packet
  | .blocks blocks => ∃ k v, (blocks : BlockChanges)[k]? = some v ∧
      updateBlockPacket entry.1 k v = .ok packet

section Packets

variable {world world' : WorldState} {p : ChunkCoord} {packet : RawPacket}
  {packets : List RawPacket}

theorem chunkPacket_serves (p : ChunkCoord) :
    Effect.Moves Serves (Effect.ofOp fun world => chunkPacket world p) :=
  fun world => ⟨chunkWirePacket_store world p, fun h => h.chunkWirePacket⟩

theorem chunkPacket_ok (ht : world.Transparent) (h : chunkPacket world p = (.ok packet, world')) :
    ∃ c, world.store.chunks p = some c ∧ encodeChunk p c.data = .ok packet := by
  have hfresh := (Prod.mk.inj h).1
  rw [ht.packet_eq, freshChunkWirePacket, WorldStore.snapshot, WorldStore.withChunk] at hfresh
  cases hc : world.store.chunks p with
  | none =>
    rw [hc] at hfresh
    cases hfresh
  | some c =>
    rw [hc] at hfresh
    refine ⟨c, rfl, ?_⟩
    change ((encodeChunk p c.data).mapError ChunkWireError.codec).mapError SyncError.chunkWire = _ at hfresh
    cases hencode : encodeChunk p c.data with
    | error e =>
      rw [hencode] at hfresh
      cases hfresh
    | ok packet' =>
      rw [hencode] at hfresh
      cases hfresh
      rfl

theorem changePackets_serves (p : ChunkCoord) (change : PendingChunkSync) :
    Effect.Moves Serves (changePackets p change) := by
  cases change with
  | fullChunk => exact (chunkPacket_serves p).bind fun packet => .pure [packet]
  | blocks blocks => exact fun world => ⟨rfl, id⟩

theorem syncPackets_serves (chunks : List (ChunkCoord × PendingChunkSync)) :
    Effect.Moves Serves (syncPackets chunks) := by
  induction chunks with
  | nil => exact .pure []
  | cons entry chunks ih =>
    exact (changePackets_serves entry.1 entry.2).bind fun packets =>
      ih.bind fun rest => .pure (packets ++ rest)

theorem changePackets_ok (ht : world.Transparent) {change : PendingChunkSync}
    (h : (changePackets p change).exec world = (.ok packets, world')) :
    (∀ packet ∈ packets, Answers world.store (p, change) packet) ∧
      match change with
      | .fullChunk => ∃ packet ∈ packets, Answers world.store (p, .fullChunk) packet
      | .blocks blocks => ∀ k v, (blocks : BlockChanges)[k]? = some v →
          ∃ packet ∈ packets, updateBlockPacket p k v = .ok packet := by
  cases change with
  | fullChunk =>
    obtain ⟨packet, world₁, hpacket, hrest⟩ := Effect.bind_ok.mp h
    cases hrest
    have hanswers : Answers world.store (p, .fullChunk) packet := chunkPacket_ok ht hpacket
    exact ⟨fun other ho => List.mem_singleton.mp ho ▸ hanswers, packet, List.mem_cons_self, hanswers⟩
  | blocks blocks =>
    have hall := mapM_ok_iff.mp (Prod.mk.inj h).1
    refine ⟨fun packet hpacket => ?_, fun k v hkv => ?_⟩
    · obtain ⟨i, hi, rfl⟩ := List.mem_iff_getElem.mp hpacket
      have hlen := hall.length_eq
      have hupdate := hall.get (i := i) (by omega) hi
      refine ⟨_, _, ?_, hupdate⟩
      exact Std.ExtTreeMap.mem_toList_iff_getElem?_eq_some.mp (List.getElem_mem _)
    · have hmem := Std.ExtTreeMap.mem_toList_iff_getElem?_eq_some.mpr hkv
      obtain ⟨i, hi, heq⟩ := List.mem_iff_getElem.mp hmem
      have hlen := hall.length_eq
      have hupdate := hall.get (i := i) hi (by omega)
      rw [List.get_eq_getElem, heq] at hupdate
      exact ⟨_, List.getElem_mem _, hupdate⟩

theorem syncPackets_ok (ht : world.Transparent) {chunks : List (ChunkCoord × PendingChunkSync)}
    (h : (syncPackets chunks).exec world = (.ok packets, world')) :
    (∀ packet ∈ packets, ∃ entry ∈ chunks, Answers world.store entry packet) ∧
      ∀ p, ((p, .fullChunk) ∈ chunks → ∃ packet ∈ packets, Answers world.store (p, .fullChunk) packet) ∧
        ∀ blocks, (p, .blocks blocks) ∈ chunks → ∀ k v, (blocks : BlockChanges)[k]? = some v →
          ∃ packet ∈ packets, updateBlockPacket p k v = .ok packet := by
  induction chunks generalizing world packets with
  | nil =>
    cases h
    exact ⟨fun _ hp => absurd hp List.not_mem_nil, fun p => ⟨fun hp => absurd hp List.not_mem_nil,
      fun _ hp => absurd hp List.not_mem_nil⟩⟩
  | cons entry chunks ih =>
    obtain ⟨first, world₁, hfirst, hrest⟩ := Effect.bind_ok.mp h
    obtain ⟨rest, world₂, hrest, hpure⟩ := Effect.bind_ok.mp hrest
    cases hpure
    have hserves : Serves world world₁ := (changePackets_serves entry.1 entry.2).after hfirst
    obtain ⟨hanswers, hfull⟩ := changePackets_ok ht hfirst
    obtain ⟨hothers, hall⟩ := ih (hserves.transparent ht) hrest
    rw [hserves.store] at hothers hall
    refine ⟨fun packet hp => ?_, fun p => ⟨fun hp => ?_, fun blocks hp k v hkv => ?_⟩⟩
    · rcases List.mem_append.mp hp with hp | hp
      · exact ⟨entry, List.mem_cons_self, hanswers packet hp⟩
      · obtain ⟨other, ho, hanswer⟩ := hothers packet hp
        exact ⟨other, List.mem_cons_of_mem _ ho, hanswer⟩
    · rcases List.mem_cons.mp hp with rfl | hp
      · obtain ⟨packet, hmem, hanswer⟩ := hfull
        exact ⟨packet, List.mem_append_left _ hmem, hanswer⟩
      · obtain ⟨packet, hmem, hanswer⟩ := (hall p).1 hp
        exact ⟨packet, List.mem_append_right _ hmem, hanswer⟩
    · rcases List.mem_cons.mp hp with rfl | hp
      · obtain ⟨packet, hmem, hupdate⟩ := hfull k v hkv
        exact ⟨packet, List.mem_append_left _ hmem, hupdate⟩
      · obtain ⟨packet, hmem, hupdate⟩ := (hall p).2 blocks hp k v hkv
        exact ⟨packet, List.mem_append_right _ hmem, hupdate⟩

theorem wirePackets_serves (positions : List ChunkCoord) :
    Effect.Moves Serves (wirePackets positions) := by
  induction positions with
  | nil => exact .pure []
  | cons p positions ih =>
    exact (chunkPacket_serves p).bind fun packet => ih.bind fun rest => .pure (packet :: rest)

theorem wirePackets_ok (ht : world.Transparent) {positions : List ChunkCoord}
    (h : (wirePackets positions).exec world = (.ok packets, world')) :
    packets.length = positions.length ∧
      (∀ packet ∈ packets, ∃ p ∈ positions, Answers world.store (p, .fullChunk) packet) ∧
        ∀ p ∈ positions, ∃ packet ∈ packets, Answers world.store (p, .fullChunk) packet := by
  induction positions generalizing world packets with
  | nil =>
    cases h
    exact ⟨rfl, fun _ hp => absurd hp List.not_mem_nil, fun _ hp => absurd hp List.not_mem_nil⟩
  | cons q positions ih =>
    obtain ⟨first, world₁, hfirst, hrest⟩ := Effect.bind_ok.mp h
    obtain ⟨rest, world₂, hrest, hpure⟩ := Effect.bind_ok.mp hrest
    cases hpure
    have hserves : Serves world world₁ := (chunkPacket_serves q).after hfirst
    have hanswer : Answers world.store (q, .fullChunk) first := chunkPacket_ok ht hfirst
    obtain ⟨hlength, hothers, hall⟩ := ih (hserves.transparent ht) hrest
    rw [hserves.store] at hothers hall
    refine ⟨congrArg (· + 1) hlength, fun packet hp => ?_, fun p hp => ?_⟩
    · rcases List.mem_cons.mp hp with rfl | hp
      · exact ⟨q, List.mem_cons_self, hanswer⟩
      · obtain ⟨p, hp, hothers⟩ := hothers packet hp
        exact ⟨p, List.mem_cons_of_mem _ hp, hothers⟩
    · rcases List.mem_cons.mp hp with rfl | hp
      · exact ⟨first, List.mem_cons_self, hanswer⟩
      · obtain ⟨packet, hmem, hall⟩ := hall p hp
        exact ⟨packet, List.mem_cons_of_mem _ hmem, hall⟩

end Packets

section Queue

variable {zlib : Zlib} {packets : List RawPacket}

theorem packetBatches_flatten (packets : List RawPacket) : (packetBatches packets).flatten = packets := by
  induction packets using packetBatches.induct with
  | case1 packets hempty =>
    rw [packetBatches, if_pos hempty, List.isEmpty_iff.mp hempty]
    rfl
  | case2 packets hsome ih =>
    rw [packetBatches, if_neg hsome, List.flatten_cons, ih, List.take_append_drop]

theorem batchPacket_receive (hzlib : zlib.Inverts) {batch : SessionPacket}
    (h : batchPacket zlib packets = .ok batch) (client : ClientWorld) :
    client.receiveSession zlib batch = packets.foldl ClientWorld.receive client := by
  rw [batchPacket, bootstrapSessionPacket, encodeBootstrapPacket] at h
  cases hbody : BatchPacket.encodeBody zlib ⟨packets⟩ codecLimits with
  | error e =>
    rw [hbody] at h
    cases h
  | ok body =>
    rw [hbody] at h
    cases h
    have hid : (sessionPacket ⟨PacketId.batch, body⟩).id = PacketId.batch := rfl
    have hdecode : BatchPacket.decodeBody zlib (sessionPacket ⟨PacketId.batch, body⟩).body
        codecLimits = .ok ⟨packets⟩ := BatchPacket.body_round_trip hzlib hbody
    rw [ClientWorld.receiveSession, if_pos hid, hdecode]

theorem queueBatches_cases (hzlib : zlib.Inverts) (answer : Nat → QueueResult) (n : Nat)
    (batches : List (List RawPacket)) :
    ∃ taken, taken <+: batches ∧
      (∀ client : ClientWorld, (queueBatches zlib answer n batches).accepted.foldl
        (ClientWorld.receiveSession zlib) client = taken.flatten.foldl ClientWorld.receive client) ∧
      ((queueBatches zlib answer n batches).result = .ok true → taken = batches) := by
  induction batches generalizing n with
  | nil => exact ⟨[], List.nil_prefix, fun _ => rfl, fun _ => rfl⟩
  | cons packets batches ih =>
    have hnone : ∃ taken : List (List RawPacket), taken <+: packets :: batches ∧
        (∀ client : ClientWorld, client = taken.flatten.foldl ClientWorld.receive client) ∧
          taken = [] := ⟨[], List.nil_prefix, fun _ => rfl, rfl⟩
    obtain ⟨none, hprefix, hclient, -⟩ := hnone
    rw [queueBatches]
    cases hbatch : batchPacket zlib packets with
    | error e => exact ⟨none, hprefix, hclient, fun he => by cases he⟩
    | ok batch =>
      dsimp only
      cases answer n with
      | backpressured => exact ⟨none, hprefix, hclient, fun he => by cases he⟩
      | gone => exact ⟨none, hprefix, hclient, fun he => by cases he⟩
      | sent =>
        obtain ⟨taken, htaken, hreceive, hall⟩ := ih (n + 1)
        refine ⟨packets :: taken, List.cons_prefix_cons.mpr ⟨rfl, htaken⟩, fun client => ?_, fun he => ?_⟩
        · dsimp only
          rw [List.foldl_cons, batchPacket_receive hzlib hbatch, hreceive, List.flatten_cons,
            List.foldl_append]
        · rw [hall he]

end Queue

-- The indices of the history are those of blocks.
def Indexed (history : List WorldChange) : Prop :=
  ∀ change ∈ history, ∀ edits, change.kind = .blocks edits →
    ∀ edit ∈ edits, edit.1.toNat < chunkBlockCount

-- What is known of a world whose journal is kept.
structure Kept (history : List WorldChange) (store : WorldStore) : Prop where
  log : LogOf history store.changes
  indexed : Indexed history
  sound : store.AllChunks (ChunkRecord.Sound fun _ => True)
  faithful : ∀ p c, store.chunks p = some c → Faithful (changesAt history p) (content c.data)

section FlushView

variable {wire : Session.Wire} {zlib : Zlib} {history : List WorldChange} {world : WorldState}
  {viewer : Viewer wire} {view : WorldView} {p : ChunkCoord} {c : ChunkRecord}

theorem changesAt_suffix (history : List WorldChange) (cursor : Nat) (p : ChunkCoord) :
    changesAt (history.drop cursor) p <:+ changesAt history p :=
  (List.IsSuffix.filter _ (List.drop_suffix cursor history)).map _

theorem Indexed.edit (h : Indexed history) {cursor : Nat} {edit : UInt16 × UInt16}
    (hedit : edit ∈ Change.editsOf (changesAt (history.drop cursor) p)) :
    edit.1.toNat < chunkBlockCount := by
  obtain ⟨change, hchange, hmem⟩ := List.mem_flatMap.mp hedit
  obtain ⟨entry, hentry, rfl⟩ := List.mem_map.mp hchange
  have hhistory := List.drop_subset cursor history (List.mem_filter.mp hentry).1
  cases hkind : entry.kind with
  | blocks edits =>
    rw [hkind] at hmem
    exact h entry hhistory edits hkind edit hmem
  | fullChunk =>
    rw [hkind] at hmem
    cases hmem

theorem mem_sortedChanges {pending : PendingChanges} {entry : ChunkCoord × PendingChunkSync} :
    entry ∈ sortedChanges pending ↔ pending.get? entry.1 = some entry.2 := by
  rw [sortedChanges, (List.mergeSort_perm _ _).mem_iff, OrderedMap.get?_eq_some]

-- Every packet that a flush makes tells of the world as it is.
theorem Answers.carried (hkept : Kept history world.store) {pending : PendingChanges}
    (hasked : Asked view (changesAt (history.drop view.cursor)) pending)
    {entry : ChunkCoord × PendingChunkSync} (hentry : entry ∈ sortedChanges pending)
    {packet : RawPacket} (h : Answers world.store entry packet) : Carried world.store packet := by
  obtain ⟨q, change⟩ := entry
  cases change with
  | fullChunk =>
    obtain ⟨d, hd, hpacket⟩ := h
    exact .chunk hd hpacket
  | blocks blocks =>
    obtain ⟨k, v, hkv, hpacket⟩ := h
    obtain ⟨hnone, hlast⟩ := hasked.blocks q blocks (mem_sortedChanges.mp hentry)
    have hwrite := hlast k v hkv
    refine .block hpacket (hkept.indexed.edit (lastWrite_mem hwrite)) fun d hd => ?_
    exact ((hkept.faithful q d hd).suffix (changesAt_suffix _ _ _)).last hnone hwrite

-- The whole of what was asked for settles what the view was behind with.
theorem shown_of_asked (hkept : Kept history world.store) (ht : world.Transparent)
    {pending : PendingChanges} (hasked : Asked view (changesAt (history.drop view.cursor)) pending)
    {packets : List RawPacket} {world' : WorldState}
    (hpackets : (syncPackets (sortedChanges pending)).exec world = (.ok packets, world'))
    (hcarried : ∀ packet ∈ packets, Carried world.store packet)
    (hin : viewContains view.center view.radius p = true) (hc : world.store.chunks p = some c)
    {client : ClientWorld} {chunk : ClientChunk} (hchunk : client p = some chunk)
    (hlength : chunk.states.length = chunkBlockCount)
    (htrails : Trails (changesAt (history.drop view.cursor) p) (clientContent chunk)
      (content c.data)) :
    ∃ chunk', packets.foldl ClientWorld.receive client p = some chunk' ∧
      clientContent chunk' = content c.data := by
  obtain ⟨-, hall⟩ := syncPackets_ok ht hpackets
  obtain ⟨chunk', hchunk', -, hnear⟩ := sees_all hkept.sound hcarried client p chunk hchunk hlength
  have hmerged := hasked.inside p hin
  cases hget : pending.get? p with
  | none =>
    rw [hget] at hmerged
    have htrails' := htrails.nearer (hnear c hc)
    rw [show changesAt (history.drop view.cursor) p = [] from hmerged] at htrails'
    exact ⟨chunk', hchunk', htrails'.settled List.not_mem_nil fun k v hv => by cases hv⟩
  | some change =>
    rw [hget] at hmerged
    cases change with
    | fullChunk =>
      obtain ⟨packet, hmem, d, hd, hpacket⟩ := (hall p).1 (mem_sortedChanges.mpr hget)
      rw [Option.some.inj (hd.symm.trans hc)] at hpacket
      obtain ⟨chunk'', hchunk'', -, hshown⟩ : ∃ chunk, packets.foldl ClientWorld.receive client p =
          some chunk ∧ chunk.states.length = chunkBlockCount ∧ clientContent chunk = content c.data :=
        shown_of_chunk hkept.sound hcarried hc hpacket hmem
      exact ⟨chunk'', hchunk'', hshown⟩
    | blocks blocks =>
      obtain ⟨hnone, hblocks⟩ := hmerged
      refine ⟨chunk', hchunk', (htrails.nearer (hnear c hc)).settled hnone fun k v hv => ?_⟩
      have hcell : (content c.data).cell k = v :=
        ((hkept.faithful p c hc).suffix (changesAt_suffix _ _ _)).last hnone hv
      obtain ⟨packet, hmem, hupdate⟩ :=
        (hall p).2 blocks (mem_sortedChanges.mpr hget) k v ((hblocks k).trans hv)
      rw [← hcell] at hupdate
      obtain ⟨chunk'', hchunk'', hshown⟩ := shown_of_block hkept.sound hcarried hc hupdate
        (hkept.indexed.edit (lastWrite_mem hv)) hmem hchunk hlength
      rw [hchunk'] at hchunk''
      rw [Option.some.inj hchunk'']
      exact hshown

theorem client_accept (viewer : Viewer wire) (packets : List SessionPacket) :
    (viewer.accept packets).client zlib =
      packets.foldl (ClientWorld.receiveSession zlib) (viewer.client zlib) :=
  List.foldl_append ..

structure ViewFlushed (zlib : Zlib) (history : List WorldChange) (world : WorldState)
    (viewer : Viewer wire) (flushed : ViewFlush wire) : Prop where
  serves : Serves world flushed.world
  state : flushed.viewer.state = viewer.state
  sees : Sees world.store (viewer.client zlib) (flushed.viewer.client zlib)
  shown : flushed.result = .ok true → ∀ view, viewer.state.view = some view →
    ∀ p c chunk, viewContains view.center view.radius p = true → world.store.chunks p = some c →
      viewer.client zlib p = some chunk → chunk.states.length = chunkBlockCount →
        Trails (changesAt (history.drop view.cursor) p) (clientContent chunk) (content c.data) →
          ∃ chunk', flushed.viewer.client zlib p = some chunk' ∧ clientContent chunk' = content c.data

theorem flushView_spec (hzlib : zlib.Inverts) (hkept : Kept history world.store)
    (ht : world.Transparent) (hpinned : ∀ view, viewer.state.view = some view →
      view.pinnedChunks = viewPositions view.center view.radius) (answer : Nat → QueueResult) :
    ViewFlushed zlib history world viewer
      (flushView zlib world.store.changes answer world viewer) := by
  rw [flushView]
  cases hview : viewer.state.view with
  | none =>
    exact ⟨Std.Refl.refl _, rfl, .refl _ _, fun he => by cases he⟩
  | some view =>
    have hasked := asked_pending hkept.log (hpinned view hview)
    dsimp only
    split
    · exact ⟨Std.Refl.refl _, rfl, .refl _ _, fun he => by cases he⟩
    · split
      · next hempty =>
        refine ⟨Std.Refl.refl _, rfl, .refl _ _, fun _ other hother p c chunk hin hc hchunk hl htrails => ?_⟩
        rw [← Option.some.inj (hview.symm.trans hother)] at hin htrails
        have hmerged := hasked.inside p hin
        have hget : (pendingViewChanges view world.store.changes).get? p = none := by
          rw [OrderedMap.get?, List.isEmpty_iff.mp hempty]
          rfl
        rw [hget] at hmerged
        rw [show changesAt (history.drop view.cursor) p = [] from hmerged] at htrails
        exact ⟨chunk, hchunk, htrails.settled List.not_mem_nil fun k v hv => by cases hv⟩
      · rcases hexec : (syncPackets (sortedChanges
          (pendingViewChanges view world.store.changes))).exec world with ⟨result, world'⟩
        have hserves : Serves world world' := (syncPackets_serves _).after hexec
        cases result with
        | error e => exact ⟨hserves, rfl, .refl _ _, fun he => by cases he⟩
        | ok packets =>
          have hcarried : ∀ packet ∈ packets, Carried world.store packet := by
            intro packet hp
            obtain ⟨entry, hentry, hanswer⟩ := (syncPackets_ok ht hexec).1 packet hp
            exact hanswer.carried hkept hasked hentry
          obtain ⟨taken, hprefix, hreceive, hwhole⟩ :=
            queueBatches_cases hzlib answer 0 (packetBatches packets)
          have hclient : (viewer.accept (queueBatches zlib answer 0
              (packetBatches packets)).accepted).client zlib = _ := client_accept viewer _
          rw [hreceive] at hclient
          have htaken : ∀ packet ∈ taken.flatten, Carried world.store packet := by
            obtain ⟨rest, hrest⟩ := hprefix
            intro packet hp
            refine hcarried packet ?_
            rw [← packetBatches_flatten packets, ← hrest, List.flatten_append]
            exact List.mem_append_left _ hp
          refine ⟨hserves, rfl, ?_, fun he other hother p c chunk hin hc hchunk hl htrails => ?_⟩
          · dsimp only
            rw [hclient]
            exact sees_all hkept.sound htaken _
          · rw [← Option.some.inj (hview.symm.trans hother)] at hin htrails
            dsimp only
            rw [hclient, hwhole he, packetBatches_flatten]
            exact shown_of_asked hkept ht hasked hexec hcarried hin hc hchunk hl htrails

end FlushView

end Cobblestone.Bridge
