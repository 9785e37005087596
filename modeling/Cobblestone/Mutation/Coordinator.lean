import Cobblestone.Mutation.StagedPatch
import Cobblestone.Source.Covered
import Cobblestone.Source.OwnerSource

namespace Cobblestone.Mutation

open Lib World Source Async

-- What the load workers of a storage do between two requests of the owner runtime.
inductive LoadWork where
  | take (p : ChunkCoord)
  | answer (c : LoadCompletion)

def LoadWork.perform {γ : Type} : LoadWork → InfiniteWorld γ → InfiniteWorld γ
  | .take p => InfiniteChunkSource.take p
  | .answer c => InfiniteChunkSource.answer c

structure EditState (γ : Type) where
  active : Bool
  source : InfiniteChunkSource γ
  clock : Nat
  patches : OrderedMap ChunkCoord StagedPatch

structure MutationCoordinator (γ : Type) where
  chunks : OwnerSource γ
  workers : Nat → List LoadWork
  chunksPerRegion : Int
  maxAttempts : Nat
  chunksPerRegion_pos : 0 < chunksPerRegion
  maxAttempts_pos : 0 < maxAttempts

abbrev Operation (α : Type) := Dialogue EditRequest EditValue EditError α

def EditState.store {γ : Type} (s : EditState γ) : WorldStore := s.source.native.store

def EditState.withStore {γ : Type} (s : EditState γ) (store : WorldStore) : EditState γ :=
  { s with source := s.source.onWorld fun w => w.withStore store }

namespace PreparedChunkPatch

variable (store : WorldStore) (patch : PreparedChunkPatch)

def changed : Bool :=
  decide (patch.revision ≠ patch.baseRevision) || decide (patch.lightRevision ≠ patch.baseLightRevision)

def validate : Except MutationError Unit := do
  let revision ← Chunk.revision store patch.position
  ensure (revision = patch.baseRevision)
    (.conflict "chunk terrain revision changed before mutation commit")
  let lightRevision ← Chunk.lightRevision store patch.position
  ensure (lightRevision = patch.baseLightRevision)
    (.conflict "chunk light revision changed before mutation commit")

def ksort {α : Type} (edits : List (Nat × α)) : List (Nat × α) :=
  edits.mergeSort fun left right => decide (left.1 ≤ right.1)

def sortedEdits (edits : StagedEdits) : StagedEdits where
  blocks := ksort edits.blocks
  biomes := ksort edits.biomes
  extraData := ksort edits.extraData
  skyLight := ksort edits.skyLight
  blockLight := ksort edits.blockLight

def commit : Except MutationError Unit × WorldStore :=
  match patch.validate store with
  | .error e => (.error e, store)
  | .ok () =>
    if patch.changed then
      Chunk.applyPatch store patch.position patch.baseRevision patch.revision
        patch.baseLightRevision patch.lightRevision (sortedEdits patch.edits)
    else (.ok (), store)

end PreparedChunkPatch

namespace MutationCoordinator

variable {γ α : Type} (coordinator : MutationCoordinator γ)

def work (s : EditState γ) : EditState γ :=
  { s with
    source := s.source.onWorld fun w => (coordinator.workers s.clock).foldl (fun w work => work.perform w) w
    clock := s.clock + 1 }

def patchForChunk (position : ChunkPos) (s : EditState γ) :
    Except EditError StagedPatch × EditState γ :=
  match position.coord? with
  | none => (.error .chunkOutOfRange, s)
  | some p =>
    match s.patches.get? p with
    | some patch => (.ok patch, s)
    | none =>
      let s := coordinator.work s
      match (coordinator.chunks.getOrGenerate p).exec s.source with
      | (.error e, source) => (.error (.source e), { s with source := source })
      | (.ok chunk, source) =>
        match StagedPatch.construct source.native.store chunk with
        | .error e => (.error (.chunk e), { s with source := source })
        | .ok patch => (.ok patch, { s with source := source, patches := s.patches.set p patch })

def perform (request : EditRequest) (s : EditState γ) : Except EditError EditValue × EditState γ :=
  if request.cell.isInsideWorld then
    match coordinator.patchForChunk request.cell.chunk s with
    | (.error e, s) => (.error e, s)
    | (.ok patch, s) =>
      match patch.answer s.store request with
      | .error e => (.error e, s)
      | .ok (value, patch) => (.ok value, { s with patches := s.patches.set patch.position patch })
  else (.error (.value "mutation block y must be in fixed-target range 0..127"), s)

def regionOrder (left right : ChunkPos) : Ordering :=
  let region := fun value => ChunkPos.floorDiv value coordinator.chunksPerRegion
  (compare (region left.x) (region right.x)).then <|
    (compare (region left.z) (region right.z)).then <|
      (compare left.x right.x).then (compare left.z right.z)

def orderPatches (patches : OrderedMap ChunkCoord StagedPatch) : List StagedPatch :=
  (patches.entries.map Prod.snd).mergeSort fun left right =>
    (coordinator.regionOrder left.position.pos right.position.pos).isLE

def prepareAll (store : WorldStore) (patches : List StagedPatch) :
    Except MutationError (List PreparedChunkPatch) := do
  let prepared ← patches.mapM fun patch => patch.chunkPatch.prepare store
  prepared.forM fun patch => patch.validate store
  pure prepared

def commitAll : List PreparedChunkPatch → WorldStore → Except MutationError Unit × WorldStore
  | [], store => (.ok (), store)
  | patch :: patches, store =>
    if patch.changed then
      match patch.commit store with
      | (.error e, store) => (.error e, store)
      | (.ok (), store) => commitAll patches store
    else commitAll patches store

inductive Attempted (α : Type) where
  | returned (value : α)
  | thrown (error : EditError)
  | again (allowedChunks : List ChunkPos)

-- Only the preparation is retried when it meets a conflict.
def settle (value : α) (allowedChunks : List ChunkPos) (s : EditState γ) : Attempted α × EditState γ :=
  let patches := coordinator.orderPatches s.patches
  let positions := patches.map fun patch => patch.position.pos
  if positions.any fun position => position ∉ allowedChunks then
    (.again (allowedChunks ++ positions), s)
  else
    match prepareAll s.store patches with
    | .error (.conflict _) => (.again allowedChunks, s)
    | .error e => (.thrown (.chunk e), s)
    | .ok prepared =>
      match commitAll prepared s.store with
      | (.error e, store) => (.thrown (.chunk e), s.withStore store)
      | (.ok (), store) => (.returned value, s.withStore store)

def attempt (operation : Operation α) (allowedChunks : List ChunkPos) (s : EditState γ) :
    Attempted α × EditState γ :=
  match operation.run coordinator.perform { s with patches := .empty } with
  | (.error e, s) => (.thrown e, s)
  | (.ok value, s) => coordinator.settle value allowedChunks s

def attempts (operation : Operation α) :
    Nat → List ChunkPos → EditState γ → Except EditError α × EditState γ
  | 0, _, s =>
    (.error (.chunk (.conflict
      s!"world mutation did not stabilize within {coordinator.maxAttempts} attempts")), s)
  | left + 1, allowedChunks, s =>
    match coordinator.attempt operation allowedChunks s with
    | (.returned value, s) => (.ok value, s)
    | (.thrown e, s) => (.error e, s)
    | (.again allowedChunks, s) => attempts operation left allowedChunks s

def run (operation : Operation α) (hints : List ChunkPos) (s : EditState γ) :
    Except EditError α × EditState γ :=
  if s.active then
    (.error (.logic "nested World::edit() calls are not allowed; use the active WorldEdit"), s)
  else
    let (result, s) :=
      coordinator.attempts operation coordinator.maxAttempts hints { s with active := true }
    (result, { s with active := false })

end MutationCoordinator

variable {γ α : Type} {store : WorldStore} {c first : ChunkRecord} {patch patch' : StagedPatch}
  {request : EditRequest} {seen : EditValue} {log : EditLog} {s : EditState γ} {p : ChunkCoord}
  {coordinator : MutationCoordinator γ}

abbrev EditLog := List (EditRequest × EditValue)

def writes (log : EditLog) : List (EditCell × EditValue) := log.filterMap fun e => e.1.write e.2

theorem lastWrite_writes_append (log : EditLog) (request : EditRequest) (seen : EditValue)
    (cell : EditCell) : lastWrite (writes (log ++ [(request, seen)])) cell =
      (request.write seen).elim (lastWrite (writes log) cell) fun edit =>
        if edit.1 = cell then some edit.2 else lastWrite (writes log) cell := by
  rw [writes, List.filterMap_append, List.filterMap_cons, List.filterMap_nil]
  cases request.write seen with
  | none => rw [List.append_nil]; rfl
  | some edit => exact lastWrite_append_one (writes log) edit cell

theorem split_append_one {ρ : Type} {log before after : List ρ} {e e' : ρ}
    (h : log ++ [e] = before ++ e' :: after) :
    before = log ∧ e' = e ∨ ∃ after', log = before ++ e' :: after' := by
  rcases List.eq_nil_or_concat after with rfl | ⟨after', last, rfl⟩
  · obtain ⟨hlog, he⟩ := List.append_inj' h rfl
    exact .inl ⟨hlog.symm, (List.singleton_inj.mp he).symm⟩
  · rw [List.concat_eq_append, ← List.cons_append, ← List.append_assoc] at h
    exact .inr ⟨after', (List.append_inj' h rfl).1⟩

-- Each request into the chunk saw its own earlier writes over the chunk of that moment, which lies
-- between the chunk the patch was opened on and the chunk of now.
def SeenBetween (log : EditLog) (position : ChunkCoord) (first c : ChunkRecord) : Prop :=
  ∀ before request seen after, log = before ++ (request, seen) :: after →
    request.cell.chunk = position.pos → ∃ d, Stamps first d ∧ Stamps d c ∧
      seen = (lastWrite (writes before) request.cell).getD (valueIn d.data request.cell)

structure OpenedOn (patch : StagedPatch) (first : ChunkRecord) : Prop where
  terrain_lt : first.terrainRevision.toNat < 2 ^ 63
  terrain : patch.baseRevision = first.terrainRevision.toInt64
  light_lt : first.lightRevision.toNat < 2 ^ 63
  light : patch.baseLightRevision = first.lightRevision.toInt64

structure Traced (log : EditLog) (store : WorldStore) (patch : StagedPatch) : Prop where
  sound : patch.Sound
  current : ∃ first c, store.chunks patch.position = some c ∧ OpenedOn patch first ∧
    Stamps first c ∧ SeenBetween log patch.position first c
  staged : ∀ cell, cell.isInsideWorld = true → cell.chunk = patch.position.pos →
    patch.staged cell = lastWrite (writes log) cell

structure Logged {γ : Type} (log : EditLog) (s : EditState γ) : Prop where
  reachable : WorldStore.Reachable (fun _ => True) s.store
  requested : ∀ e ∈ log, e.1.cell.isInsideWorld = true ∧
    ∃ p patch, s.patches.get? p = some patch ∧ e.1.cell.chunk = p.pos
  patches : ∀ p patch, s.patches.get? p = some patch →
    patch.position = p ∧ Traced log s.store patch

theorem SeenBetween.mono {c' : ChunkRecord} (h : SeenBetween log p first c) (hc : Stamps c c') :
    SeenBetween log p first c' := by
  intro before request seen after hlog hchunk
  obtain ⟨d, hfirst, hd, hseen⟩ := h before request seen after hlog hchunk
  exact ⟨d, hfirst, hd.trans hc, hseen⟩

theorem SeenBetween.append_one (h : SeenBetween log p first c) (hc : Stamps first c)
    (hseen : request.cell.chunk = p.pos →
      seen = (lastWrite (writes log) request.cell).getD (valueIn c.data request.cell)) :
    SeenBetween (log ++ [(request, seen)]) p first c := by
  intro before request' seen' after hlog hchunk
  rcases split_append_one hlog with ⟨rfl, heq⟩ | ⟨after', hbefore⟩
  · cases heq
    exact ⟨c, hc, .refl c, hseen hchunk⟩
  · exact h before request' seen' after' hbefore hchunk

theorem pos_inj {p r : ChunkCoord} (h : p.pos = r.pos) : p = r :=
  Option.some.inj ((ChunkPos.coord?_eq_some.mpr rfl).symm.trans (ChunkPos.coord?_eq_some.mpr h))

theorem mem_writes {edit : EditCell × EditValue} (h : edit ∈ writes log) :
    ∃ e ∈ log, e.1.write e.2 = some edit := by
  obtain ⟨e, he, hedit⟩ := List.mem_filterMap.mp h
  exact ⟨e, he, hedit⟩

theorem write_cell {edit : EditCell × EditValue} (h : request.write seen = some edit) :
    edit.1 = request.cell := by
  cases request <;> cases seen <;> simp only [EditRequest.write, Option.some.injEq, reduceCtorEq] at h
  all_goals exact h ▸ rfl

namespace Traced

-- A request into another chunk.
theorem frame (h : Traced log store patch) (hapart : request.cell.chunk ≠ patch.position.pos) :
    Traced (log ++ [(request, seen)]) store patch := by
  obtain ⟨first, c, hc, hopened, hstamps, hbetween⟩ := h.current
  refine ⟨h.sound, ⟨first, c, hc, hopened, hstamps, ?_⟩, fun cell hcell hchunk => ?_⟩
  · exact hbetween.append_one hstamps fun heq => absurd heq hapart
  · rw [lastWrite_writes_append, h.staged cell hcell hchunk]
    cases hwrite : request.write seen with
    | none => rfl
    | some edit =>
      have hne : edit.1 ≠ cell := by
        rintro rfl
        exact hapart (write_cell hwrite ▸ hchunk)
      rw [Option.elim_some, if_neg hne]

theorem answered (h : Traced log store patch) (hs : WorldStore.Reachable (fun _ => True) store)
    (hinside : request.cell.isInsideWorld = true) (hchunk : request.cell.chunk = patch.position.pos)
    (hanswer : patch.answer store request = .ok (seen, patch')) :
    patch'.position = patch.position ∧ Traced (log ++ [(request, seen)]) store patch' := by
  obtain ⟨first, c, hc, hopened, hstamps, hbetween⟩ := h.current
  have hsound : store.AllChunks (ChunkRecord.Sound fun _ => True) :=
    hs.sound trivial fun _ _ => trivial
  obtain ⟨hfound, hnext, htakes⟩ :=
    answer_ok hc (hsound _ c hc).data.wellFormed h.sound hinside hanswer
  have hsees : seen = (lastWrite (writes log) request.cell).getD (valueIn c.data request.cell) := by
    rw [hfound, h.staged _ hinside hchunk]
  have hbetween' : SeenBetween (log ++ [(request, seen)]) patch.position first c :=
    hbetween.append_one hstamps fun _ => hsees
  cases hwrite : request.write seen with
  | none =>
    rw [hwrite, Option.elim_none] at hnext
    subst hnext
    refine ⟨rfl, h.sound, ⟨first, c, hc, hopened, hstamps, hbetween'⟩, fun cell hcell hcellChunk => ?_⟩
    rw [lastWrite_writes_append, hwrite]
    exact h.staged cell hcell hcellChunk
  | some edit =>
    obtain ⟨hsame, hedit⟩ := htakes edit hwrite
    obtain ⟨hposition, hbase, hbaseLight⟩ := put_base patch edit.1 edit.2
    rw [hwrite, Option.elim_some] at hnext
    subst hnext
    refine ⟨hposition, sound_put h.sound (hsame ▸ hinside) (hsame ▸ hchunk) hedit, ?_, ?_⟩
    · rw [hposition]
      refine ⟨first, c, hc, ⟨hopened.terrain_lt, ?_, hopened.light_lt, ?_⟩, hstamps, hbetween'⟩
      · exact hbase.trans hopened.terrain
      · exact hbaseLight.trans hopened.light
    · rw [hposition]
      intro cell hcell hcellChunk
      rw [lastWrite_writes_append, hwrite, Option.elim_some, ← h.staged cell hcell hcellChunk]
      exact staged_put (hsame ▸ hinside) hcell ((hsame ▸ hchunk).trans hcellChunk.symm) hedit

end Traced

theorem resident_of_revision {revision : Int64} (h : Chunk.revision store p = .ok revision) :
    ∃ c, store.chunks p = some c := by
  cases hc : store.chunks p with
  | some c => exact ⟨c, rfl⟩
  | none =>
    rw [Chunk.revision, WorldStore.terrainRevision, WorldStore.withChunk, hc] at h
    cases h

namespace Logged

theorem work (h : Logged log s) (coordinator : MutationCoordinator γ) :
    Logged log (coordinator.work s) := by
  have hstore : (coordinator.work s).store = s.store := by
    change (List.foldl _ s.source.native _).store = s.source.native.store
    refine List.foldlRecOn (motive := fun w : InfiniteWorld γ => w.store = s.source.native.store)
      _ _ rfl fun w hw work _ => ?_
    cases work with
    | take q => exact (InfiniteChunkSource.take_store w).trans hw
    | answer completion => exact (InfiniteChunkSource.answer_store completion w).trans hw
  refine ⟨hstore ▸ h.reachable, h.requested, fun p patch hpatch => ?_⟩
  rw [hstore]
  exact h.patches p patch hpatch

-- Serving a chunk that has no patch yet leaves every patch with a newer chunk at most.
theorem serve (h : Logged log s) (hp : s.patches.get? p = none)
    {source : InfiniteChunkSource γ} (hserve : OwnerSource.Serves p s.source source) :
    Logged log { s with source := source } where
  reachable := ServeRun.reachable hserve h.reachable
  requested := h.requested
  patches r patch hpatch := by
    obtain ⟨hposition, htraced⟩ := h.patches r patch hpatch
    refine ⟨hposition, htraced.sound, ?_, htraced.staged⟩
    obtain ⟨first, c, hc, hopened, hstamps, hseen⟩ := htraced.current
    have hne : patch.position ≠ p := by
      rintro rfl
      rw [← hposition, hp] at hpatch
      cases hpatch
    obtain ⟨c', hc', hnewer⟩ := ServeRun.stampedAway hserve _ c hne hc
    exact ⟨first, c', hc', hopened, hstamps.trans hnewer, hseen.mono hnewer⟩

theorem no_request (h : Logged log s) (hp : s.patches.get? p = none) :
    ∀ e ∈ log, e.1.cell.chunk ≠ p.pos := by
  intro e he hchunk
  obtain ⟨-, r, patch, hpatch, hcell⟩ := h.requested e he
  rw [pos_inj (hchunk.symm.trans hcell), hpatch] at hp
  cases hp

theorem sound_opened (revision lightRevision : Int64) :
    StagedPatch.Sound ⟨p, revision, lightRevision, .empty, .empty, .empty, .empty⟩ :=
  ⟨fun _ _ h => (by cases h), fun _ _ h => (by cases h), fun _ _ h => (by cases h),
    fun _ _ h => (by cases h)⟩

theorem openPatch (h : Logged log s) (hp : s.patches.get? p = none)
    (hopen : StagedPatch.construct s.store p = .ok patch) :
    patch.position = p ∧ Logged log { s with patches := s.patches.set p patch } := by
  simp only [StagedPatch.construct, bind_ok_iff] at hopen
  obtain ⟨revision, hrevision, lightRevision, hlight, hpatch⟩ := hopen
  cases hpatch
  obtain ⟨c, hc⟩ := resident_of_revision hrevision
  have hopened : OpenedOn ⟨p, revision, lightRevision, .empty, .empty, .empty, .empty⟩ c := by
    obtain ⟨hterrain, hbase⟩ := revision_ok hc hrevision
    obtain ⟨hlight, hbaseLight⟩ := lightRevision_ok hc hlight
    exact ⟨hterrain, hbase, hlight, hbaseLight⟩
  have hnone : ∀ cell : EditCell, cell.chunk = p.pos → lastWrite (writes log) cell = none := by
    intro cell hcell
    rw [lastWrite_eq_none_iff]
    rintro edit hedit rfl
    obtain ⟨e, he, hwrite⟩ := mem_writes hedit
    exact h.no_request hp e he (write_cell hwrite ▸ hcell)
  refine ⟨rfl, h.reachable, fun e he => ?_, fun r patch hpatch => ?_⟩
  · obtain ⟨hinside, r, patch, hpatch, hcell⟩ := h.requested e he
    refine ⟨hinside, r, patch, ?_, hcell⟩
    have hne : r ≠ p := by
      rintro rfl
      rw [hp] at hpatch
      cases hpatch
    dsimp only
    rw [OrderedMap.get?_set, if_neg hne, hpatch]
  · dsimp only at hpatch
    rw [OrderedMap.get?_set] at hpatch
    split at hpatch
    · next heq =>
      cases hpatch
      subst heq
      refine ⟨rfl, sound_opened _ _, ⟨c, c, hc, hopened, .refl c, ?_⟩, ?_⟩
      · intro before request seen after hlog hchunk
        have hmem : (request, seen) ∈ log := by
          rw [hlog]
          exact List.mem_append_right _ List.mem_cons_self
        exact absurd hchunk (h.no_request hp _ hmem)
      · intro cell _ hcell
        rw [hnone cell hcell]
        cases cell <;> rfl
    · exact h.patches r patch hpatch

theorem stage (h : Logged log s) (hpatch : s.patches.get? patch.position = some patch)
    (hinside : request.cell.isInsideWorld = true) (hchunk : request.cell.chunk = patch.position.pos)
    (hanswer : patch.answer s.store request = .ok (seen, patch')) :
    Logged (log ++ [(request, seen)])
      { s with patches := s.patches.set patch'.position patch' } := by
  obtain ⟨hposition, htraced'⟩ :=
    (h.patches _ _ hpatch).2.answered h.reachable hinside hchunk hanswer
  rw [hposition]
  refine ⟨h.reachable, fun e he => ?_, fun r other hother => ?_⟩
  · have hheld : ∀ r other, s.patches.get? r = some other →
        ∃ other', (s.patches.set patch.position patch').get? r = some other' := by
      intro r other hother
      rw [OrderedMap.get?_set]
      split
      · exact ⟨_, rfl⟩
      · exact ⟨other, hother⟩
    rcases List.mem_append.mp he with he | he
    · obtain ⟨hcell, r, other, hother, hr⟩ := h.requested e he
      obtain ⟨other', hother'⟩ := hheld r other hother
      exact ⟨hcell, r, other', hother', hr⟩
    · rw [List.mem_singleton] at he
      subst he
      obtain ⟨other', hother'⟩ := hheld _ _ hpatch
      exact ⟨hinside, _, other', hother', hchunk⟩
  · dsimp only at hother
    rw [OrderedMap.get?_set] at hother
    split at hother
    · next heq =>
      cases hother
      exact ⟨hposition.trans heq.symm, htraced'⟩
    · next hne =>
      obtain ⟨hkey, htraced⟩ := h.patches r other hother
      refine ⟨hkey, htraced.frame fun heq => ?_⟩
      exact hne (hkey.symm.trans (pos_inj (heq.symm.trans hchunk)))

end Logged

section

variable {ε σ β : Type}

-- Every answer is the one value.
def Answers (a : α) (m : Effect ε σ α) : Prop := ∀ s b t, m.exec s = (.ok b, t) → b = a

theorem Answers.pure (a : α) : Answers a (pure a : Effect ε σ α) := by
  intro s b t h
  cases h
  rfl

theorem Answers.bind {a : α} {m : Effect ε σ β} {f : β → Effect ε σ α} (h : ∀ b, Answers a (f b)) :
    Answers a (m >>= f) := by
  intro s b t hrun
  obtain ⟨_, _, -, hrest⟩ := Effect.bind_ok.mp hrun
  exact h _ _ _ _ hrest

theorem Answers.fail {σ : Type} {a : α} (error : ResidencyError) :
    Answers a (Source.fail error : Effect ResidencyError σ α) := by
  intro s b t h
  cases h

end

section Answering

variable {world : OwnerSource γ}

theorem runGenerate_answers : Answers p (world.runGenerate p) := by
  rw [OwnerSource.runGenerate]
  cases world.generator with
  | flat preset => exact Answers.bind fun _ => Answers.pure p
  | infinite terrain =>
    dsimp only
    split
    · refine Answers.bind fun generated => ?_
      split
      · exact Answers.pure p
      · exact Answers.fail _
    · exact Answers.bind fun _ => Answers.pure p

theorem completeInfiniteChunk_answers : Answers p (world.completeInfiniteChunk p) := by
  rw [OwnerSource.completeInfiniteChunk]
  cases world.generator with
  | flat preset => exact Answers.pure p
  | infinite terrain =>
    refine Answers.bind fun flags => ?_
    split
    · exact Answers.pure p
    · exact Answers.bind fun _ => Answers.pure p

theorem generateBody_answers : Answers p (world.generateBody p) := by
  refine Answers.bind fun generated => ?_
  split
  · exact Answers.fail _
  · exact Answers.bind fun _ => Answers.bind fun _ => Answers.bind fun _ => Answers.bind fun _ =>
      Answers.pure p

theorem generate_answers : Answers p (world.generate p) := by
  refine Answers.bind fun s => ?_
  split
  · exact Answers.fail _
  · intro s b t h
    rw [Effect.exec_ofOp] at h
    rcases hrun : (world.generateBody p).exec (s.enter p) with ⟨result, u⟩
    rw [hrun] at h
    cases h
    exact generateBody_answers _ _ _ hrun

theorem getOrGenerate_answers : Answers p (world.getOrGenerate p) := by
  refine Answers.bind fun s => ?_
  split
  · exact completeInfiniteChunk_answers
  · split
    · refine Answers.bind fun status => ?_
      split
      · exact Answers.bind fun _ => completeInfiniteChunk_answers
      · split
        · exact generate_answers
        · exact Answers.fail _
    · exact generate_answers

end Answering

theorem patchForChunk_logged (coordinator : MutationCoordinator γ) (h : Logged log s)
    (position : ChunkPos) :
    Logged log (coordinator.patchForChunk position s).2 ∧
      ∀ patch, (coordinator.patchForChunk position s).1 = .ok patch →
        position = patch.position.pos ∧
          (coordinator.patchForChunk position s).2.patches.get? patch.position = some patch := by
  rw [MutationCoordinator.patchForChunk]
  cases hcoord : position.coord? with
  | none => exact ⟨h, nofun⟩
  | some p =>
    have hpos := ChunkPos.coord?_eq_some.mp hcoord
    dsimp only
    cases hp : s.patches.get? p with
    | some patch =>
      refine ⟨h, fun patch' hok => ?_⟩
      cases hok
      have hkey := (h.patches p patch hp).1
      exact ⟨hkey ▸ hpos, hkey ▸ hp⟩
    | none =>
      dsimp only
      have hserve : OwnerSource.Serves p (coordinator.work s).source
          ((coordinator.chunks.getOrGenerate p).exec (coordinator.work s).source).2 :=
        OwnerSource.getOrGenerate_serves _
      rcases hrun : (coordinator.chunks.getOrGenerate p).exec (coordinator.work s).source with
        ⟨e | chunk, source⟩
      · rw [hrun] at hserve
        exact ⟨(h.work coordinator).serve hp hserve, nofun⟩
      · rw [hrun] at hserve
        have hserved := (h.work coordinator).serve hp hserve
        have hchunk := getOrGenerate_answers _ _ _ hrun
        subst hchunk
        dsimp only
        cases hopen : StagedPatch.construct source.native.store chunk with
        | error e => exact ⟨hserved, nofun⟩
        | ok patch =>
          obtain ⟨hposition, hlogged⟩ := hserved.openPatch hp hopen
          refine ⟨hlogged, fun patch' hok => ?_⟩
          cases hok
          exact ⟨hposition ▸ hpos, by simp [hposition]⟩

-- One request of the operation.
theorem perform_logged (request : EditRequest) (log : EditLog) (s : EditState γ) (h : Logged log s) :
    Logged (log ++ Dialogue.answered request (coordinator.perform request s).1)
      (coordinator.perform request s).2 := by
  rw [MutationCoordinator.perform]
  split
  · next hinside =>
    obtain ⟨hlogged, hheld⟩ := patchForChunk_logged coordinator h request.cell.chunk
    rcases hrun : coordinator.patchForChunk request.cell.chunk s with ⟨e | patch, t⟩
    · rw [hrun] at hlogged
      rw [Dialogue.answered, List.append_nil]
      exact hlogged
    · rw [hrun] at hlogged hheld
      obtain ⟨hchunk, hpatch⟩ := hheld patch rfl
      dsimp only
      cases hanswer : patch.answer t.store request with
      | error e =>
        rw [Dialogue.answered, List.append_nil]
        exact hlogged
      | ok answered => exact hlogged.stage hpatch hinside hchunk hanswer
  · rw [Dialogue.answered, List.append_nil]
    exact h

theorem run_logged (coordinator : MutationCoordinator γ) (operation : Operation α)
    (hs : WorldStore.Reachable (fun _ => True) s.store) :
    Logged (operation.log coordinator.perform { s with patches := .empty })
      (operation.run coordinator.perform { s with patches := .empty }).2 := by
  have hstart : Logged [] { s with patches := OrderedMap.empty } :=
    ⟨hs, fun _ he => absurd he List.not_mem_nil, fun _ _ hp => absurd hp (Option.some_ne_none _).symm⟩
  exact Dialogue.run_logged (Q := Logged) perform_logged [] hstart

end Cobblestone.Mutation
