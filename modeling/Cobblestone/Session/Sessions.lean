import Cobblestone.Session.PinAccounting
import Cobblestone.World.Reachable

namespace Cobblestone.Session

open Lib World SessionState

variable {wire : Wire}

structure Sessions (wire : Wire) where
  store : WorldStore
  sessions : List (SessionState wire)

inductive SessionCall (wire : Wire) where
  | handlePacket (packet : SessionPacket)
  | takeDeferred
  | acceptLogin (bootstrap : wire.Bootstrap)
  | rollbackLoginAcceptance
  | markPreparedChunk (position : ChunkCoord)
  | completionPlan (rawChunks : List SessionPacket)
  | commitPending
  | updateViewCursor (cursor : Nat)

-- What a call leaves behind, whether it succeeds or fails. Planning a completion reads only.
def SessionCall.apply : SessionCall wire → SessionState wire → WorldStore →
    SessionState wire × WorldStore
  | .handlePacket packet, st, store => (st.handlePacket packet store).2
  | .takeDeferred, st, store => (st.takeDeferred.2, store)
  | .acceptLogin bootstrap, st, store => ((st.acceptLogin bootstrap).2, store)
  | .rollbackLoginAcceptance, st, store => (st.rollbackLoginAcceptance, store)
  | .markPreparedChunk position, st, store => (st.markPreparedChunk position store).2
  | .completionPlan _, st, store => (st, store)
  | .commitPending, st, store => (st.commitPending store).2
  | .updateViewCursor cursor, st, store => ((st.updateViewCursor cursor).2, store)

-- Everything the world does to its store besides pinning: only a raw import over a resident chunk
-- resets the count, and nothing in the server calls it.
def StoreOp.KeepsPins : StoreOp → Prop
  | .pinChunk _ => False
  | .unpinChunk _ => False
  | .importChunk _ _ => False
  | _ => True

inductive SessionsStep : Sessions wire → Sessions wire → Prop where
  | connect {store : WorldStore} {sessions : List (SessionState wire)} (maxChunkRadius : Int32) :
      SessionsStep ⟨store, sessions⟩ ⟨store, sessions ++ [SessionState.new wire maxChunkRadius]⟩
  | call {store : WorldStore} {before after : List (SessionState wire)} {st : SessionState wire}
      (c : SessionCall wire) :
      SessionsStep ⟨store, before ++ st :: after⟩
        ⟨(c.apply st store).2, before ++ (c.apply st store).1 :: after⟩
  | drop {store : WorldStore} {before after : List (SessionState wire)} {st : SessionState wire} :
      SessionsStep ⟨store, before ++ st :: after⟩ ⟨st.drop store, before ++ after⟩
  | world {store : WorldStore} {sessions : List (SessionState wire)} (op : StoreOp)
      (hop : StoreOp.KeepsPins op) :
      SessionsStep ⟨store, sessions⟩ ⟨op.apply store, sessions⟩

def SessionsRun : Sessions wire → Prop :=
  Relation.ReflTransGen SessionsStep ⟨WorldStore.new, []⟩

def viewPins (p : ChunkCoord) (st : SessionState wire) : Bool :=
  st.view.any fun view => view.pinnedChunks.contains p

def prepares (p : ChunkCoord) (st : SessionState wire) : Bool :=
  st.pending.any fun work => work.prepared.pinned.contains p

def pinners (sessions : List (SessionState wire)) (p : ChunkCoord) : Nat :=
  sessions.countP (viewPins p) + sessions.countP (prepares p)

section World

variable {store : WorldStore} {p q : ChunkCoord} {α : Type}

theorem pins_withChunkMut {operation : ChunkRecord → Except WorldStoreError α × ChunkRecord}
    (hop : ∀ c, (operation c).2.pinCount = c.pinCount) :
    pins (store.withChunkMut p operation).2 q = pins store q := by
  rw [WorldStore.withChunkMut]
  cases hc : store.chunks p with
  | none => rfl
  | some c =>
    rw [pins_setChunk]
    split
    · rename_i hq
      rw [hq, pins, hc, hop]
    · rfl

theorem pins_editData {edit : ChunkData → α × ChunkData} :
    pins (store.editData p edit).2 q = pins store q :=
  pins_withChunkMut fun _ => rfl

theorem pins_insert {c : ChunkRecord} (hnew : store.chunks p = none) (hc : c.pinCount = 0) :
    pins (store.setChunk p c) q = pins store q := by
  rw [pins_setChunk]
  split
  · rename_i hq
    rw [hq, pins, hnew, hc]
    rfl
  · rfl

theorem absent_of_not_contains (h : ¬ store.containsChunk p = true) : store.chunks p = none := by
  simpa [WorldStore.containsChunk] using h

theorem pinCount_installOver (c : ChunkRecord) (i : ChunkImport) :
    (WorldStore.installOver c i).2.pinCount = c.pinCount := by
  unfold WorldStore.installOver
  dsimp only
  split
  · rfl
  · split
    · rfl
    · split <;> rfl

theorem pinCount_patchRecord (c : ChunkRecord) (patch : ChunkPatch) :
    (WorldStore.patchRecord c patch).2.pinCount = c.pinCount := by
  rcases WorldStore.patchRecord_cases c patch with ⟨e, heq⟩ | ⟨-, heq⟩
  · rw [heq]
  · rw [heq]
    rfl

theorem pinCount_markPersistedRecord (c : ChunkRecord) (terrain light : UInt64) (flags : UInt8) :
    (WorldStore.markPersistedRecord c terrain light flags).2.pinCount = c.pinCount := by
  unfold WorldStore.markPersistedRecord
  repeat' split
  all_goals rfl

theorem pins_setBiomeWord (x z : UInt8) (word : UInt32) :
    pins (store.setBiomeWord p x z word).2 q = pins store q := by
  unfold WorldStore.setBiomeWord
  split
  · rfl
  · rfl
  · exact pins_editData

theorem pins_ensureChunk (biome : UInt8) :
    pins (store.ensureChunk p biome).2 q = pins store q := by
  unfold WorldStore.ensureChunk
  split
  · rfl
  · split
    · rfl
    · rename_i hc
      exact pins_insert (absent_of_not_contains hc) rfl

theorem pins_importChunkIfAbsent (i : ChunkImport) :
    pins (store.importChunkIfAbsent p i).2 q = pins store q := by
  unfold WorldStore.importChunkIfAbsent
  split
  · rfl
  · split
    · rfl
    · rename_i hc
      exact pins_insert (absent_of_not_contains hc) rfl

theorem pins_installGeneratedChunk (i : ChunkImport) :
    pins (store.installGeneratedChunk p i).2 q = pins store q := by
  unfold WorldStore.installGeneratedChunk
  split
  · rfl
  · split
    · rename_i hc
      exact pins_insert hc rfl
    · rename_i c hc
      rw [pins_setChunk, pinCount_installOver]
      split
      · rename_i hq
        rw [hq, pins, hc]
      · rfl

theorem pins_applyPatch (patch : ChunkPatch) :
    pins (store.applyPatch p patch).2 q = pins store q := by
  have hpatch : pins (store.withChunkMut p fun c => WorldStore.patchRecord c patch).2 q =
      pins store q := pins_withChunkMut fun c => pinCount_patchRecord c patch
  unfold WorldStore.applyPatch
  generalize store.withChunkMut p (fun c => WorldStore.patchRecord c patch) = result at hpatch ⊢
  obtain ⟨result, store'⟩ := result
  split
  · rfl
  · cases result with
    | error e => exact hpatch
    | ok _ =>
      dsimp only
      split
      · exact hpatch
      · exact hpatch

theorem pins_guarded {α : Type} {e : WorldStoreError} {c : Prop} [Decidable c]
    {next : Except WorldStoreError α × WorldStore} (h : pins next.2 q = pins store q) :
    pins (if c then (.error e, store) else next).2 q = pins store q := by
  split
  · rfl
  · exact h

theorem pins_apply {op : StoreOp} (hop : StoreOp.KeepsPins op) :
    pins (op.apply store) q = pins store q := by
  cases op with
  | pinChunk p => cases hop
  | unpinChunk p => cases hop
  | importChunk p i => cases hop
  | ensureChunk p biome => exact pins_ensureChunk biome
  | importChunkIfAbsent p i => exact pins_importChunkIfAbsent i
  | installGeneratedChunk p i => exact pins_installGeneratedChunk i
  | tryEvictChunk p => exact pins_tryEvictChunk
  | setBiomeWord p x z word => exact pins_setBiomeWord x z word
  | applyPatch p patch => exact pins_applyPatch patch
  | pruneChangesThrough sequence => rfl
  | recalculateHeightMap p => exact pins_editData
  | fillBiome p biome => exact pins_guarded pins_editData
  | setLifecycleFlags p flags =>
    rw [StoreOp.apply, WorldStore.setLifecycleFlags]
    split
    · rfl
    · exact pins_withChunkMut fun _ => rfl
  | markPersisted p terrain light flags =>
    rw [StoreOp.apply, WorldStore.markPersisted]
    split
    · rfl
    · exact pins_withChunkMut fun c => pinCount_markPersistedRecord c terrain light flags
  | commitTerrainRevision p expected next =>
    refine pins_withChunkMut fun c => ?_
    repeat' split
    all_goals rfl
  | commitLightRevision p expected next =>
    refine pins_withChunkMut fun c => ?_
    repeat' split
    all_goals rfl
  | setBiome p x z biome =>
    rw [StoreOp.apply, WorldStore.setBiome]
    split
    · rfl
    · split
      · rfl
      · exact pins_setBiomeWord x z _
  | setBiomeColor p x z color =>
    rw [StoreOp.apply, WorldStore.setBiomeColor]
    split
    · rfl
    · split
      · rfl
      · exact pins_setBiomeWord x z _
  | fillLayers p startY count state =>
    rw [StoreOp.apply, WorldStore.fillLayers]
    split
    · rfl
    · exact pins_guarded pins_editData
  | fillSkyLightFrom p y level =>
    rw [StoreOp.apply, WorldStore.fillSkyLightFrom]
    split
    · rfl
    · exact pins_guarded pins_editData
  | setBlockExtraData p x y z value =>
    rw [StoreOp.apply, WorldStore.setBlockExtraData]
    split
    · rfl
    · exact pins_editData
  | setBlockState p x y z state =>
    rw [StoreOp.apply, WorldStore.setBlockState]
    split
    · rfl
    · rfl
    · exact pins_editData
  | setSkyLight p x y z level =>
    rw [StoreOp.apply, WorldStore.setSkyLight]
    split
    · rfl
    · rfl
    · exact pins_editData
  | setBlockLight p x y z level =>
    rw [StoreOp.apply, WorldStore.setBlockLight]
    split
    · rfl
    · rfl
    · exact pins_editData

end World

variable {store : WorldStore} {before after : List (SessionState wire)} {st : SessionState wire}
  {others : ChunkCoord → Nat} {p : ChunkCoord}

theorem share_eq : viewShare st p + preparedShare st p = pinners [st] p := by
  have hview : viewShare st p = [st].countP (viewPins p) := by
    cases hv : st.view <;> simp [viewShare, viewPins, hv, List.countP_singleton]
  have hprepared : preparedShare st p = [st].countP (prepares p) := by
    cases hw : st.pending <;> simp [preparedShare, prepares, hw, List.countP_singleton]
  rw [hview, hprepared]
  rfl

theorem pinners_append (a b : List (SessionState wire)) :
    pinners (a ++ b) p = pinners a p + pinners b p := by
  simp only [pinners, List.countP_append]
  omega

theorem pinners_cons :
    pinners (st :: after) p = viewShare st p + preparedShare st p + pinners after p := by
  rw [share_eq, ← pinners_append]
  rfl

theorem Balanced.updateViewCursor (h : Balanced others st store) (cursor : Nat) :
    Balanced others (st.updateViewCursor cursor).2 store := by
  rw [SessionState.updateViewCursor]
  split
  · exact h
  · rename_i v hv
    refine ⟨⟨fun w hw => ?_, h.inv.prepared, fun w hw => ?_, fun hne => ?_⟩, fun q => ?_⟩
    · cases hw
      exact h.inv.pinned v hv
    · have hfits := h.inv.fits w hw
      rw [hv] at hfits
      cases w with
      | initial => exact absurd hfits.1 (by simp)
      | view t prepared =>
        obtain ⟨v', hv', hrest⟩ := hfits
        cases hv'
        exact ⟨_, rfl, hrest⟩
    · cases (h.inv.unspawned hne).symm.trans hv
    · have hb := h.balance q
      simpa only [viewShare, preparedShare, hv] using hb

theorem Balanced.call (h : Balanced others st store) (c : SessionCall wire) :
    Balanced others (c.apply st store).1 (c.apply st store).2 := by
  cases c with
  | handlePacket packet => exact h.handlePacket packet
  | takeDeferred => exact h.takeDeferred
  | acceptLogin bootstrap => exact h.acceptLogin bootstrap
  | rollbackLoginAcceptance => exact h.rollbackLoginAcceptance
  | markPreparedChunk position => exact h.markPreparedChunk position
  | completionPlan rawChunks => exact h
  | commitPending => exact h.commitPending
  | updateViewCursor cursor => exact h.updateViewCursor cursor

structure SessionsInv (sys : Sessions wire) : Prop where
  states : ∀ st ∈ sys.sessions, StateInv st
  balance : ∀ p, pins sys.store p = pinners sys.sessions p

-- One session balances against all the others.
theorem SessionsInv.balanced (h : SessionsInv ⟨store, before ++ st :: after⟩) :
    Balanced (pinners (before ++ after)) st store where
  inv := h.states st (by simp)
  balance p := by
    have hb := h.balance p
    simp only [pinners_append, pinners_cons] at hb ⊢
    omega

theorem SessionsInv.replace (h : SessionsInv ⟨store, before ++ st :: after⟩)
    {st' : SessionState wire} {store' : WorldStore}
    (hb : Balanced (pinners (before ++ after)) st' store') :
    SessionsInv ⟨store', before ++ st' :: after⟩ where
  states other ho := by
    rcases List.mem_append.mp ho with ho | ho
    · exact h.states other (List.mem_append_left _ ho)
    · rcases List.mem_cons.mp ho with rfl | ho
      · exact hb.inv
      · exact h.states other (List.mem_append_right _ (List.mem_cons_of_mem _ ho))
  balance p := by
    have hp := hb.balance p
    simp only [pinners_append, pinners_cons] at hp ⊢
    omega

theorem SessionsInv.step {sys sys' : Sessions wire} (h : SessionsInv sys)
    (hs : SessionsStep sys sys') : SessionsInv sys' := by
  cases hs with
  | @connect store sessions maxChunkRadius =>
    refine ⟨fun st hst => ?_, fun p => ?_⟩
    · rcases List.mem_append.mp hst with hst | hst
      · exact h.states st hst
      · rw [List.mem_singleton.mp hst]
        exact .new maxChunkRadius
    · have hb := h.balance p
      rw [pinners_append]
      exact hb
  | call c => exact h.replace (h.balanced.call c)
  | @drop store before after st =>
    refine ⟨fun other ho => h.states other ?_, h.balanced.drop⟩
    rcases List.mem_append.mp ho with ho | ho
    · exact List.mem_append_left _ ho
    · exact List.mem_append_right _ (List.mem_cons_of_mem _ ho)
  | world op hop => exact ⟨h.states, fun p => (pins_apply hop).trans (h.balance p)⟩

theorem SessionsRun.inv {sys : Sessions wire} (hrun : SessionsRun sys) : SessionsInv sys :=
  invariant_of_run SessionsInv hrun ⟨fun _ hst => (nomatch hst), fun _ => rfl⟩
    fun _ _ hinv hs => hinv.step hs

-- After a commit: nothing pending, and beside the other sessions' pins exactly those of the view.
structure CommittedTo (w : PendingWork) (others : List (SessionState wire)) (st : SessionState wire)
    (store : WorldStore) : Prop where
  pending : st.pending = none
  view : st.view.map (fun v => (v.center, v.radius)) = some w.target
  pinned : ∀ p, viewPins p st = viewContains w.target.1 w.target.2 p
  pins : ∀ p, pins store p =
    pinners others p + if viewContains w.target.1 w.target.2 p = true then 1 else 0

theorem SessionsInv.committed (h : SessionsInv ⟨store, before ++ st :: after⟩)
    {result : Option InitialViewResult} (hok : (st.commitPending store).1 = .ok result) :
    ∃ w, st.pending = some w ∧ CommittedTo w (before ++ after) (st.commitPending store).2.1
      (st.commitPending store).2.2 := by
  obtain ⟨hnone, w, hw, v, hv, htarget, hpinned⟩ := commitPending_ok hok
  refine ⟨w, hw, hnone, by rw [hv, ← htarget]; rfl, fun p => ?_, fun p => ?_⟩
  · rw [viewPins, hv, ← htarget, Option.any_some, hpinned, Bool.eq_iff_iff, List.contains_iff_mem,
      mem_viewPositions]
  · have hb := h.balanced.commitPending.balance p
    simpa only [viewShare, preparedShare, hnone, hv, hpinned, mem_viewPositions, ← htarget,
      Nat.add_zero] using hb

theorem pins_accounted {sys : Sessions wire} (hrun : SessionsRun sys) :
    (∀ p, pins sys.store p =
      sys.sessions.countP (viewPins p) + sys.sessions.countP (prepares p)) ∧
    ∀ before st after result, sys.sessions = before ++ st :: after →
      (st.commitPending sys.store).1 = .ok result →
      ∃ w, st.pending = some w ∧ CommittedTo w (before ++ after)
        (st.commitPending sys.store).2.1 (st.commitPending sys.store).2.2 := by
  refine ⟨hrun.inv.balance, fun before st after result hsessions hok => ?_⟩
  have hinv : SessionsInv ⟨sys.store, before ++ st :: after⟩ := by
    rw [← hsessions]
    exact hrun.inv
  exact hinv.committed hok

def joiningState : SessionState quietWire :=
  { SessionState.new quietWire 1 with
    phase := .waitingInitialChunks
    position := some ()
    playerChunk := some spawnChunk
    pending := some (initialWork quietWire 1 1 spawnChunk ()) }

theorem SessionsRun.call (hrun : SessionsRun ⟨store, [st]⟩) (c : SessionCall wire) :
    SessionsRun ⟨(c.apply st store).2, [(c.apply st store).1]⟩ := by
  have hs : SessionsStep ⟨store, [] ++ st :: []⟩
      ⟨(c.apply st store).2, [] ++ (c.apply st store).1 :: []⟩ := .call c
  exact hrun.tail hs

theorem joiningState_run : SessionsRun ⟨WorldStore.new, [joiningState]⟩ := by
  have h₁ : SessionsRun ⟨WorldStore.new, [SessionState.new quietWire 1]⟩ := .single (.connect 1)
  have h₂ := h₁.call (.handlePacket ⟨PacketId.login, []⟩)
  have h₃ := h₂.call (.acceptLogin ())
  exact h₃.call (.handlePacket ⟨PacketId.requestChunkRadius, [0, 0, 0, 1]⟩)

def spawnStore : WorldStore := (WorldStore.new.ensureChunk spawnChunk 1).2

def preparedSystem : Sessions quietWire :=
  ⟨(joiningState.markPreparedChunk spawnChunk spawnStore).2.2,
    [(joiningState.markPreparedChunk spawnChunk spawnStore).2.1]⟩

theorem preparedSystem_run : SessionsRun preparedSystem := by
  have h₁ : SessionsRun ⟨spawnStore, [joiningState]⟩ :=
    joiningState_run.tail (.world (.ensureChunk spawnChunk 1) trivial)
  exact h₁.call (.markPreparedChunk spawnChunk)

theorem pins_accounted_prepared :
    SessionsRun preparedSystem ∧ preparedSystem.sessions.countP (prepares spawnChunk) = 1 ∧
      pins preparedSystem.store spawnChunk = 1 := by
  have hmem : spawnChunk ∈ (initialWork quietWire 1 1 spawnChunk ()).preparePositions := by
    refine (prioritizeForPlayer_perm _ _).mem_iff.mpr ?_
    rw [mem_viewPositions]
    decide
  have hmark : joiningState.markPreparedChunk spawnChunk spawnStore =
      (.ok (), { joiningState with pending := some ((initialWork quietWire 1 1 spawnChunk
        ()).withPrepared ⟨true, [spawnChunk]⟩) }, (spawnStore.pinChunk spawnChunk).2) := by
    have hpending : joiningState.pending = some (initialWork quietWire 1 1 spawnChunk ()) := rfl
    rw [SessionState.markPreparedChunk, hpending]
    dsimp only
    rw [PreparedChunks.mark, if_neg (not_not.mpr hmem),
      if_neg (by simp [initialWork, PendingWork.prepared, PreparedChunks.new])]
    rfl
  have hcount : preparedSystem.sessions.countP (prepares spawnChunk) = 1 := by
    rw [preparedSystem, hmark]
    rfl
  have hview : preparedSystem.sessions.countP (viewPins spawnChunk) = 0 := by
    rw [preparedSystem, hmark]
    rfl
  refine ⟨preparedSystem_run, hcount, ?_⟩
  rw [(pins_accounted preparedSystem_run).1, hcount, hview]

end Cobblestone.Session
