import Cobblestone.Bridge.WorldSync
import Cobblestone.Lib.Feed

namespace Cobblestone.Bridge

open Lib Content World WorldStore Wire Session

-- What a client sees of a chunk beside its blocks. The heights are not kept up to date.
structure ClientRest where
  skyLight : Bytes
  blockLight : Bytes
  biomeWords : List UInt32
  extraData : List (UInt32 × UInt16)
  blockEntities : List NbtDocument

def clientContent (chunk : ClientChunk) : Content UInt16 UInt16 ClientRest where
  rest := ⟨chunk.skyLight, chunk.blockLight, chunk.biomeWords, chunk.extraData, chunk.blockEntities⟩
  cell k := chunk.states.getD k.toNat 0

def content (data : ChunkData) : Content UInt16 UInt16 ClientRest := clientContent (shownChunk data)

def toChange : WorldChangeKind → Change UInt16 UInt16
  | .blocks changes => .cells changes
  | .fullChunk => .everything

def changesAt (history : List WorldChange) (p : ChunkCoord) : List (Change UInt16 UInt16) :=
  (history.filter fun change => decide (change.position = p)).map fun change => toChange change.kind

theorem changesAt_append (first second : List WorldChange) (p : ChunkCoord) :
    changesAt (first ++ second) p = changesAt first p ++ changesAt second p := by
  simp only [changesAt, List.filter_append, List.map_append]

theorem changesAt_self (n : Nat) (p : ChunkCoord) (kind : WorldChangeKind) :
    changesAt [⟨n, p, kind⟩] p = [toChange kind] := by
  simp [changesAt]

theorem changesAt_other (n : Nat) {p q : ChunkCoord} (hpq : p ≠ q) (kind : WorldChangeKind) :
    changesAt [⟨n, p, kind⟩] q = [] := by
  simp [changesAt, hpq]

-- The log holds the end of everything ever recorded.
structure LogOf (history : List WorldChange) (log : WorldChangeLog) : Prop where
  numbered : Numbered WorldChange.sequence 1 history
  next : log.nextSequence = history.length + 1
  window : log.changes <:+ history

namespace LogOf

variable {history : List WorldChange} {log : WorldChangeLog}

theorem default : LogOf [] .default := ⟨Numbered.nil, rfl, List.suffix_rfl⟩

theorem latestSequence (h : LogOf history log) : log.latestSequence = history.length := by
  rw [WorldChangeLog.latestSequence, h.next, Nat.add_sub_cancel]

theorem pruneThrough (h : LogOf history log) (sequence : Nat) :
    LogOf history (log.pruneThrough sequence) :=
  ⟨h.numbered, h.next, (List.dropWhile_suffix _).trans h.window⟩

theorem record (h : LogOf history log) (p : ChunkCoord) (kind : WorldChangeKind) :
    LogOf (history ++ [⟨log.nextSequence, p, kind⟩]) (log.record p kind) := by
  have hkept : (if log.changes.length = worldChangeLogCapacity then log.changes.tail
      else log.changes) <:+ history := by
    split
    · exact (List.tail_suffix _).trans h.window
    · exact h.window
  refine ⟨h.numbered.append_singleton ?_, ?_, ?_⟩
  · rw [h.next, Nat.add_comm]
  · rw [WorldChangeLog.record, h.next, List.length_append, List.length_singleton]
  · exact (List.suffix_append_inj_of_length_eq rfl).mpr ⟨hkept, rfl⟩

theorem changes_numbered (h : LogOf history log) :
    Numbered WorldChange.sequence (1 + (history.length - log.changes.length)) log.changes :=
  h.numbered.suffix h.window

theorem oldestSequence (h : LogOf history log) :
    log.oldestSequence = 1 + (history.length - log.changes.length) := by
  have hnumbered := h.changes_numbered
  have hlatest := h.latestSequence
  unfold WorldChangeLog.oldestSequence
  cases hc : log.changes with
  | nil =>
    simp only [List.head?_nil, hlatest, List.length_nil]
    omega
  | cons change changes =>
    rw [hc] at hnumbered
    exact (Numbered.cons_iff.mp hnumbered).1

-- A cursor that is not stale misses nothing of what came after it.
theorem after (h : LogOf history log) {cursor : Nat} (hs : log.cursorIsStale cursor = false) :
    (log.changes.filter fun change => decide (cursor < change.sequence)) = history.drop cursor := by
  have hlength := h.window.length_le
  rw [WorldChangeLog.cursorIsStale, decide_eq_false_iff_not, h.oldestSequence] at hs
  rw [h.changes_numbered.filter_above cursor, List.suffix_iff_eq_drop.mp h.window, List.drop_drop,
    ← List.suffix_iff_eq_drop.mp h.window]
  congr 1
  omega

end LogOf

-- What a step of the world does to the chunks, and the changes it records for them.
structure StoreFeeds (s t : WorldStore) (entries : List WorldChange) : Prop where
  log : ∀ history, LogOf history s.changes → LogOf (history ++ entries) t.changes
  kept : ∀ p c c', s.chunks p = some c → t.chunks p = some c' →
    Feeds (content c.data) (content c'.data) (changesAt entries p)
  quiet : ∀ p, s.chunks p = none ∨ t.chunks p = none → changesAt entries p = []
  indices : ∀ change ∈ entries, ∀ edits, change.kind = .blocks edits →
    ∀ edit ∈ edits, edit.1.toNat < chunkBlockCount

section Steps

variable {s t : WorldStore} {p : ChunkCoord} {c : ChunkRecord} {α : Type}

def DataKept (s t : WorldStore) : Prop :=
  ∀ p c c', s.chunks p = some c → t.chunks p = some c' → c'.data = c.data

theorem StoreFeeds.unrecorded
    (hlog : ∀ history, LogOf history s.changes → LogOf history t.changes) (hdata : DataKept s t) :
    StoreFeeds s t [] where
  log history h := by
    rw [List.append_nil]
    exact hlog history h
  kept p c c' hc hc' := by
    rw [hdata p c c' hc hc']
    exact .same
  quiet _ _ := rfl
  indices change hchange := absurd hchange List.not_mem_nil

theorem StoreFeeds.same (hchanges : t.changes = s.changes) (hdata : DataKept s t) :
    StoreFeeds s t [] :=
  .unrecorded (fun _ h => by rwa [hchanges]) hdata

theorem DataKept.refl (s : WorldStore) : DataKept s s := by
  intro p c c' hc hc'
  rw [Option.some.inj (hc.symm.trans hc')]

theorem DataKept.setChunk {c' : ChunkRecord} (h : ∀ c, s.chunks p = some c → c'.data = c.data) :
    DataKept s (s.setChunk p c') := by
  intro q d d' hd hd'
  by_cases hq : q = p
  · subst hq
    rw [setChunk_self] at hd'
    cases hd'
    exact h d hd
  · rw [setChunk_of_ne _ _ hq, hd] at hd'
    rw [Option.some.inj hd']

theorem StoreFeeds.refl (s : WorldStore) : StoreFeeds s s [] := .same rfl (.refl s)

theorem StoreFeeds.setChunk {c' : ChunkRecord} (h : ∀ c, s.chunks p = some c → c'.data = c.data) :
    StoreFeeds s (s.setChunk p c') [] := .same rfl (.setChunk h)

theorem StoreFeeds.insert {c' : ChunkRecord} (h : s.chunks p = none) :
    StoreFeeds s (s.setChunk p c') [] := by
  refine .setChunk fun c hc => ?_
  rw [h] at hc
  cases hc

theorem StoreFeeds.withChunkMut {operation : ChunkRecord → Except WorldStoreError α × ChunkRecord}
    (h : ∀ c, (operation c).2.data = c.data) : StoreFeeds s (s.withChunkMut p operation).2 [] := by
  rw [WorldStore.withChunkMut]
  cases hc : s.chunks p with
  | none => exact .refl s
  | some c =>
    refine .setChunk fun d hd => ?_
    rw [Option.some.inj (hd.symm.trans hc)]
    exact h c

theorem StoreFeeds.ensureChunk (biome : UInt8) : StoreFeeds s (s.ensureChunk p biome).2 [] := by
  rw [WorldStore.ensureChunk]
  split
  · exact .refl s
  · split
    · exact .refl s
    · next habsent => exact .insert (absent_of_not_contains habsent)

theorem StoreFeeds.importChunkIfAbsent (i : ChunkImport) :
    StoreFeeds s (s.importChunkIfAbsent p i).2 [] := by
  rw [WorldStore.importChunkIfAbsent]
  split
  · exact .refl s
  · split
    · exact .refl s
    · next habsent => exact .insert (absent_of_not_contains habsent)

theorem installOver_data {i : ChunkImport} (h : InstallSilent c i) :
    (installOver c i).2.data = c.data := by
  rcases h with ⟨ht, hl⟩ | ⟨ht, hn⟩ | ⟨ht, hl, hn⟩
  · simp [installOver, ht, hl]
  · simp [installOver, ht, hn]
  · simp [installOver, ht, hl, hn]

-- An install over a resident chunk goes unrecorded, so it must be one that changes nothing.
theorem StoreFeeds.installGeneratedChunk {i : ChunkImport}
    (h : (JournalOp.installGeneratedChunk p i).Silent s) :
    StoreFeeds s (s.installGeneratedChunk p i).2 [] := by
  rw [WorldStore.installGeneratedChunk]
  split
  · exact .refl s
  · next hvalid =>
    split
    · next habsent => exact .insert habsent
    · next c hc =>
      refine .setChunk fun d hd => ?_
      rw [Option.some.inj (hd.symm.trans hc)]
      exact installOver_data (h c hvalid hc)

theorem StoreFeeds.tryEvictChunk : StoreFeeds s (s.tryEvictChunk p).2 [] := by
  have hremove : StoreFeeds s (s.removeChunk p) [] := by
    refine .same rfl fun q d d' hd hd' => ?_
    by_cases hq : q = p
    · subst hq
      rw [removeChunk_self] at hd'
      cases hd'
    · rw [removeChunk_of_ne _ hq, hd] at hd'
      rw [Option.some.inj hd']
  rw [WorldStore.tryEvictChunk]
  split
  · exact .refl s
  · split
    · exact .refl s
    · split
      · exact .refl s
      · exact hremove

theorem StoreFeeds.pruneThrough (sequence : Nat) :
    StoreFeeds s { s with changes := s.changes.pruneThrough sequence } [] :=
  .unrecorded (fun _ h => h.pruneThrough sequence) (.refl s)

-- The blocks of a patch are what its point entry tells.
theorem content_patched (hd : c.data.WellFormed) {patch : ChunkPatch} (hp : PatchValid patch)
    (hk : changeKind patch = some (.blocks patch.blocks)) :
    content (patched c patch).data = (content c.data).write patch.blocks := by
  obtain ⟨-, hlight, hbiomes, hextra⟩ := changeKind_blocks hk
  obtain ⟨hsky, hblock⟩ := patchChangesLight_false hlight
  obtain ⟨heights, hdata⟩ := patchData_eq c.data patch
  rw [hbiomes, hextra, hsky, hblock] at hdata
  rw [patched_data, hdata]
  refine Content.ext rfl (funext fun k => ?_)
  exact getD_sets UInt16.toNat (fun _ _ => UInt16.toNat_inj.mp) 0 hd.states_length
    (fun edit he => (hp.blocks edit he).1) k

theorem StoreFeeds.applyPatch (hsound : s.AllChunks (ChunkRecord.Sound fun _ => True))
    (patch : ChunkPatch) : ∃ entries, StoreFeeds s (s.applyPatch p patch).2 entries := by
  cases hc : s.chunks p with
  | none =>
    refine ⟨[], ?_⟩
    rw [WorldStore.applyPatch, WorldStore.withChunkMut, hc]
    split <;> exact .refl s
  | some c =>
    rcases applyPatch_cases hc patch with ⟨hvalid, haccepted, heq⟩ | ⟨-, e, heq⟩
    · cases hk : changeKind patch with
      | none =>
        refine ⟨[], ?_⟩
        rw [heq, hk]
        refine .setChunk fun d hd => ?_
        obtain ⟨hterrain, hlight⟩ := changeKind_none hk
        rw [Option.some.inj (hd.symm.trans hc), patched_data,
          patchData_unchanged hterrain hlight]
      | some kind =>
        refine ⟨[⟨s.changes.nextSequence, p, kind⟩], ?_⟩
        rw [heq, hk]
        refine ⟨fun history h => h.record p kind, fun q d d' hd hd' => ?_, fun q hq => ?_,
          fun change hchange edits hedits => ?_⟩
        · by_cases hqp : p = q
          · subst hqp
            dsimp only at hd'
            rw [recordChange_chunks, setChunk_self] at hd'
            cases hc.symm.trans hd
            cases hd'
            rw [changesAt_self]
            cases kind with
            | blocks changes =>
              obtain ⟨rfl, -⟩ := changeKind_blocks hk
              rw [content_patched (hsound p c hc).data.wellFormed hvalid hk]
              exact .cells patch.blocks
            | fullChunk => exact .everything _
          · dsimp only at hd'
            rw [recordChange_chunks, setChunk_of_ne _ _ (Ne.symm hqp), hd] at hd'
            rw [changesAt_other _ hqp, Option.some.inj hd']
            exact .same
        · by_cases hqp : p = q
          · subst hqp
            dsimp only at hq
            rw [recordChange_chunks, setChunk_self, hc] at hq
            rcases hq with hq | hq <;> cases hq
          · exact changesAt_other _ hqp kind
        · rw [List.mem_singleton.mp hchange] at hedits
          rw [show kind = .blocks edits from hedits] at hk
          obtain ⟨rfl, -⟩ := changeKind_blocks hk
          exact fun edit he => (hvalid.blocks edit he).1
    · refine ⟨[], ?_⟩
      rw [heq]
      exact .refl s

end Steps

theorem chunkWirePacket_store (world : WorldState) (p : ChunkCoord) :
    (world.chunkWirePacket p).2.store = world.store := by
  cases hp : world.store.chunks p with
  | none => rw [WorldState.chunkWirePacket_missing hp]
  | some c =>
    rw [WorldState.chunkWirePacket_resident hp]
    split
    · rfl
    · split <;> rfl

theorem tryEvictChunk_store (world : WorldState) (p : ChunkCoord) :
    (world.tryEvictChunk p).2.store = (world.store.tryEvictChunk p).2 := by
  rw [WorldState.tryEvictChunk]
  generalize world.store.tryEvictChunk p = evicted
  obtain ⟨result, store⟩ := evicted
  cases result <;> rfl

-- The calls that keep the journal: no install changes a resident chunk, and pins are the
-- sessions' own.
def WorldCall.Journaled (store : WorldStore) : WorldCall → Prop
  | .installGeneratedChunk p i => (JournalOp.installGeneratedChunk p i).Silent store
  | .pinChunk _ => False
  | .unpinChunk _ => False
  | _ => True

theorem WorldCall.feeds {world : WorldState} {call : WorldCall} (hcall : call.Journaled world.store)
    (hsound : world.store.AllChunks (ChunkRecord.Sound fun _ => True)) :
    ∃ entries, StoreFeeds world.store (call.apply world).store entries := by
  cases call with
  | pinChunk p => exact hcall.elim
  | unpinChunk p => exact hcall.elim
  | applyPatch p patch => exact StoreFeeds.applyPatch hsound patch
  | ensureChunk p biome => exact ⟨[], .ensureChunk biome⟩
  | importChunkIfAbsent p i => exact ⟨[], .importChunkIfAbsent i⟩
  | installGeneratedChunk p i => exact ⟨[], .installGeneratedChunk hcall⟩
  | pruneChangesThrough sequence => exact ⟨[], .pruneThrough sequence⟩
  | setLifecycleFlags p flags =>
    refine ⟨[], ?_⟩
    rw [WorldCall.apply, WorldStore.setLifecycleFlags]
    split
    · exact .refl _
    · exact .withChunkMut fun _ => rfl
  | markPersisted p terrain light flags =>
    refine ⟨[], ?_⟩
    rw [WorldCall.apply, WorldStore.markPersisted]
    split
    · exact .refl _
    · refine .withChunkMut fun c => ?_
      rw [WorldStore.markPersistedRecord]
      repeat' split
      all_goals rfl
  | commitTerrainRevision p expected next =>
    refine ⟨[], .withChunkMut fun c => ?_⟩
    repeat' split
    all_goals rfl
  | commitLightRevision p expected next =>
    refine ⟨[], .withChunkMut fun c => ?_⟩
    repeat' split
    all_goals rfl
  | tryEvictChunk p =>
    refine ⟨[], ?_⟩
    rw [WorldCall.apply, tryEvictChunk_store]
    exact .tryEvictChunk
  | chunkWirePacket p =>
    refine ⟨[], ?_⟩
    rw [WorldCall.apply, chunkWirePacket_store]
    exact .refl _

-- What the sessions do to the store beside counting pins: nothing.
structure Repinned (s t : WorldStore) : Prop where
  changes : t.changes = s.changes
  chunks : ∀ p, ∃ n : UInt32, t.chunks p = (s.chunks p).map fun c => { c with pinCount := n }

namespace Repinned

variable {s t u : WorldStore} {p : ChunkCoord} {c : ChunkRecord}

theorem refl (s : WorldStore) : Repinned s s := by
  refine ⟨rfl, fun p => ?_⟩
  cases hc : s.chunks p with
  | none => exact ⟨0, rfl⟩
  | some c => exact ⟨c.pinCount, rfl⟩

theorem trans (h : Repinned s t) (h' : Repinned t u) : Repinned s u := by
  refine ⟨h'.changes.trans h.changes, fun p => ?_⟩
  obtain ⟨n, hn⟩ := h.chunks p
  obtain ⟨m, hm⟩ := h'.chunks p
  refine ⟨m, ?_⟩
  rw [hm, hn, Option.map_map]
  rfl

theorem setChunk (hc : s.chunks p = some c) (n : UInt32) :
    Repinned s (s.setChunk p { c with pinCount := n }) := by
  refine ⟨rfl, fun q => ?_⟩
  by_cases hq : q = p
  · subst hq
    exact ⟨n, by rw [setChunk_self, hc]; rfl⟩
  · rw [setChunk_of_ne _ _ hq]
    exact (refl s).chunks q

theorem withChunkMut {α : Type} {operation : ChunkRecord → Except WorldStoreError α × ChunkRecord}
    (hop : ∀ c, ∃ n : UInt32, (operation c).2 = { c with pinCount := n }) :
    Repinned s (s.withChunkMut p operation).2 := by
  rw [WorldStore.withChunkMut]
  cases hc : s.chunks p with
  | none => exact refl s
  | some c =>
    obtain ⟨n, hn⟩ := hop c
    dsimp only
    rw [hn]
    exact setChunk hc n

theorem pinChunk : Repinned s (s.pinChunk p).2 := by
  refine withChunkMut fun c => ?_
  split
  · exact ⟨c.pinCount + 1, rfl⟩
  · exact ⟨c.pinCount, rfl⟩

theorem unpinChunk : Repinned s (s.unpinChunk p).2 := by
  refine withChunkMut fun c => ?_
  split
  · exact ⟨c.pinCount, rfl⟩
  · exact ⟨c.pinCount - 1, rfl⟩

theorem unpinAll (positions : List ChunkCoord) (s : WorldStore) :
    Repinned s (Session.unpinAll positions s) := by
  induction positions generalizing s with
  | nil => exact refl s
  | cons p positions ih => exact unpinChunk.trans (ih _)

theorem dropPending (pending : Option PendingWork) (s : WorldStore) :
    Repinned s (Session.dropPending pending s) := by
  cases pending with
  | none => exact refl s
  | some work =>
    rw [Session.dropPending, PreparedChunks.drop]
    split
    · exact unpinAll _ s
    · exact refl s

theorem dropView (view : Option WorldView) (s : WorldStore) :
    Repinned s (Session.dropView view s) := by
  cases view with
  | none => exact refl s
  | some view => exact unpinAll _ s

theorem resident (h : Repinned s t) {c' : ChunkRecord} (hc' : t.chunks p = some c') :
    ∃ c, s.chunks p = some c ∧ ∃ n, c' = { c with pinCount := n } := by
  obtain ⟨n, hn⟩ := h.chunks p
  rw [hc'] at hn
  obtain ⟨c, hc, rfl⟩ := Option.map_eq_some_iff.mp hn.symm
  exact ⟨c, hc, n, rfl⟩

theorem dataKept (h : Repinned s t) : DataKept s t := by
  intro p c c' hc hc'
  obtain ⟨d, hd, n, rfl⟩ := h.resident hc'
  rw [Option.some.inj (hc.symm.trans hd)]

theorem feeds (h : Repinned s t) : StoreFeeds s t [] := .same h.changes h.dataKept

theorem revised (h : Repinned s t) : StoreRevised s t := by
  intro p c hc
  obtain ⟨n, hn⟩ := h.chunks p
  rw [hc, Option.map_some] at hn
  exact ⟨_, hn, .of_data (UInt64.le_refl _) (UInt64.le_refl _) fun _ _ => rfl⟩

theorem sound {chests : List ChestBlockEntity → Prop} (h : Repinned s t)
    (hs : s.AllChunks (ChunkRecord.Sound chests)) : t.AllChunks (ChunkRecord.Sound chests) := by
  intro p c' hc'
  obtain ⟨c, hc, n, rfl⟩ := h.resident hc'
  exact ⟨(hs p c hc).data, (hs p c hc).flags⟩

end Repinned

section Sessions

variable {wire : Session.Wire} {st : SessionState wire} {store : WorldStore}

-- What a call of the session's own may do: it keeps the view, and work that it replaces starts
-- from nothing.
structure Undisturbed (st : SessionState wire) (store : WorldStore) (st' : SessionState wire)
    (store' : WorldStore) : Prop where
  view : st'.view = st.view
  pending : st'.pending = st.pending ∨ ∀ w, st'.pending = some w → w.prepared = .new
  store : Repinned store store'

namespace Undisturbed

theorem same {st' : SessionState wire} (hview : st'.view = st.view)
    (hpending : st'.pending = st.pending) : Undisturbed st store st' store :=
  ⟨hview, .inl hpending, .refl store⟩

theorem trans {st' st'' : SessionState wire} {store' store'' : WorldStore}
    (h : Undisturbed st store st' store') (h' : Undisturbed st' store' st'' store'') :
    Undisturbed st store st'' store'' := by
  refine ⟨h'.view.trans h.view, ?_, h.store.trans h'.store⟩
  rcases h'.pending with hsame | hnew
  · rw [hsame]
    exact h.pending
  · exact .inr hnew

theorem setPending {pending : Option PendingWork} (hnew : ∀ w, pending = some w → w.prepared = .new) :
    Undisturbed st store (st.setPending pending store).1 (st.setPending pending store).2 :=
  ⟨rfl, .inr hnew, .dropPending _ _⟩

theorem planViewTransition (toCenter : ChunkCoord) (toRadius : Int32) (player : wire.Position) :
    Undisturbed st store (st.planViewTransition toCenter toRadius player store).2.1
      (st.planViewTransition toCenter toRadius player store).2.2 := by
  rw [SessionState.planViewTransition]
  split
  · exact same rfl rfl
  · split
    · have hframe : Undisturbed st store { st with desiredRadius := none } store := same rfl rfl
      exact hframe.trans (setPending fun w hw => by cases hw)
    · dsimp only
      split
      · exact same rfl rfl
      · refine setPending fun w hw => ?_
        cases hw
        rfl

theorem handleMovePlayer (packet : SessionPacket) :
    Undisturbed st store (st.handleMovePlayer packet store).2.1
      (st.handleMovePlayer packet store).2.2 := by
  rw [SessionState.handleMovePlayer]
  split
  · exact same rfl rfl
  · split
    · exact same rfl rfl
    · rename_i position _ _ chunk _
      have hframe : Undisturbed st store
          { st with position := some position, playerChunk := some chunk } store := same rfl rfl
      dsimp only
      split
      · exact hframe.trans (planViewTransition ..)
      · exact hframe.trans (planViewTransition ..)
      · exact hframe

theorem handleRadiusChange (packet : SessionPacket) :
    Undisturbed st store (st.handleRadiusChange packet store).2.1
      (st.handleRadiusChange packet store).2.2 := by
  rw [SessionState.handleRadiusChange]
  split
  · exact same rfl rfl
  · rename_i requested _
    have hframe : Undisturbed st store
        { st with desiredRadius := some (min requested st.maxChunkRadius) } store := same rfl rfl
    dsimp only
    split
    · exact hframe
    · exact hframe
    · exact hframe.trans (planViewTransition ..)

theorem handleWaitingChunkRadius (packet : SessionPacket) :
    Undisturbed st store (st.handleWaitingChunkRadius packet store).2.1
      (st.handleWaitingChunkRadius packet store).2.2 := by
  rw [SessionState.handleWaitingChunkRadius]
  split
  · exact same rfl rfl
  · split
    · exact same rfl rfl
    · exact same rfl rfl
    · exact same rfl rfl
    · have hframe : Undisturbed st store { st with phase := .waitingInitialChunks } store :=
        same rfl rfl
      refine hframe.trans (setPending fun w hw => ?_)
      cases hw
      rfl

theorem handlePacket (packet : SessionPacket) :
    Undisturbed st store (st.handlePacket packet store).2.1 (st.handlePacket packet store).2.2 := by
  rw [SessionState.handlePacket]
  cases st.phase with
  | waitingLogin =>
    simp only [SessionState.handleWaitingLogin]
    split
    · exact same rfl rfl
    · split <;> exact same rfl rfl
  | loginPending =>
    simp only [SessionState.handleLoginPending]
    split <;> exact same rfl rfl
  | waitingChunkRadius => exact handleWaitingChunkRadius packet
  | waitingInitialChunks => exact same rfl rfl
  | spawned =>
    simp only [SessionState.handleSpawned]
    split
    · exact handleMovePlayer packet
    · split
      · exact handleRadiusChange packet
      · exact same rfl rfl

end Undisturbed

end Sessions

end Cobblestone.Bridge
