import Cobblestone.Source.Residents
import Cobblestone.Storage.Savable

namespace Cobblestone.Source

open Lib Effect World WorldStore Async Bridge

namespace InfiniteChunkSource

open InfiniteWorld

variable {γ : Type} {terrain : Terrain γ} {s s' : InfiniteChunkSource γ} {p q : ChunkCoord}
  {E F : ChunkCoord → Prop}

-- The chunks that a poll of so many completions lets in are keys already, or expected.
def PollsKeys (s : InfiniteChunkSource γ) (n : Nat) (E : ChunkCoord → Prop) : Prop :=
  ∀ chunk, .loaded chunk ∈ s.native.delivered n → chunk.position ∈ s.chunks ∨ E chunk.position

local instance nineChunks : NeZero 9 := ⟨by decide⟩

-- A generation that finds its neighborhood loaded, and its chunk incomplete, works among keys, and
-- leaves no new chunk behind if it fails.
def GeneratesKeys (terrain : Terrain γ) (s : InfiniteChunkSource γ) (p : ChunkCoord) : Prop :=
  s.PollsKeys 9 (fun _ => False) ∧
    ∀ w, (prepareGenerationNeighborhood (neighborhood p)).exec s.native = (.ok true, w) →
      w.store.fullAt p = false →
      (∀ i, i ≠ 4 → neighborhoodPosition p i ∈ s.chunks) ∧
        (p ∈ s.chunks ∨ ∀ e, (w.runGenerator terrain p).1 = .error e →
          (w.runGenerator terrain p).2.store.chunks p = none)

-- `getOrGenerate` comes to a generation: the chunk is resident and incomplete, or known to be
-- missing on disk.
def needsGeneration (s : InfiniteChunkSource γ) (p : ChunkCoord) : Prop :=
  match s.native.store.chunks p with
  | some c => MainChunkSource.completed c.lifecycleFlags = false
  | none => p ∉ s.chunks ∧ p ∈ s.native.loadMissing

def admitted (p : ChunkCoord) (s : InfiniteChunkSource γ) : InfiniteChunkSource γ :=
  if s.native.store.containsChunk p then s.adoptNativeResident p else s

def ServesKey (terrain : Terrain γ) (s : InfiniteChunkSource γ) (p : ChunkCoord) : Prop :=
  s.needsGeneration p → GeneratesKeys terrain (s.admitted p) p

-- No error cuts the work short before it has come to the chunks it found resident.
def WorkMeets (terrain : Terrain γ) : List (ChunkCoord × LoadStatus) → InfiniteChunkSource γ → Prop
  | [], _ => True
  | (p, status) :: rest, s =>
    (status = .resident ∨ status = .missing → ServesKey terrain s p) ∧
    (∀ e s', (prepareEntry terrain p status).exec s = (.error e, s') →
      ∀ q, (q, .resident) ∈ rest → q ∈ s'.chunks) ∧
    ∀ prepared s', (prepareEntry terrain p status).exec s = (.ok prepared, s') →
      WorkMeets terrain rest s'

def Meets (terrain : Terrain γ) (s : InfiniteChunkSource γ) : ResidencyAction → Prop
  | .getOrGenerate p => ServesKey terrain s p
  | .chunkWork positions => positions ≠ [] →
    s.PollsKeys (max positions.length 1) (· ∈ positions) ∧
    (∀ e s', (onNative (prepareStorageLoadBatch positions)).exec s = (.error e, s') →
      s.PollsKeys (max positions.length 1) (fun _ => False)) ∧
    ∀ statuses s', (onNative (prepareStorageLoadBatch positions)).exec s = (.ok statuses, s') →
      WorkMeets terrain (positions.zip statuses) s'
  | .storageTick budget _ => 0 < budget → budget ≤ 4096 →
    s.PollsKeys budget.toNat (fun _ => False)
  | _ => True

structure Sealed (E : ChunkCoord → Prop) (s : InfiniteChunkSource γ) : Prop where
  sound : Store.Sound s.native.store
  covered : ∀ p, s.native.store.containsChunk p = true → p ∈ s.chunks ∨ E p

theorem Sealed.weaken (h : Sealed E s) (hE : ∀ q, E q → q ∈ s.chunks ∨ F q) : Sealed F s where
  sound := h.sound
  covered q hq := (h.covered q hq).elim .inl (hE q)

theorem Sealed.native (h : Sealed E s) {w : InfiniteWorld γ} {N : ChunkCoord → Prop}
    (ha : Admits N s.native w) (hN : ∀ q, N q → q ∈ s.chunks ∨ F q)
    (hE : ∀ q, E q → q ∈ s.chunks ∨ F q) : Sealed F { s with native := w } where
  sound := ha.sound h.sound
  covered q hq := by
    rcases ha.fresh q hq with hold | hnew
    · exact (h.covered q hold).elim .inl (hE q)
    · exact hN q hnew

theorem Sealed.frame (h : Sealed E s) {w : InfiniteWorld γ}
    (ha : Admits (fun _ => False) s.native w) : Sealed E { s with native := w } :=
  h.native ha (fun _ hq => hq.elim) fun _ => .inr

theorem Sealed.put (h : Sealed (fun q => E q ∨ q = p) s) : Sealed E (s.put p) := by
  have hmem : (s.put p).chunks = insert p s.chunks := by
    rw [InfiniteChunkSource.put]
    split <;> rfl
  have hnative : (s.put p).native = s.native := by
    rw [InfiniteChunkSource.put]
    split <;> rfl
  refine ⟨hnative ▸ h.sound, fun q hq => ?_⟩
  rw [hmem, Finset.mem_insert]
  rcases h.covered q (hnative ▸ hq) with hk | he | rfl
  · exact .inl (.inr hk)
  · exact .inr he
  · exact .inl (.inl rfl)

-- Once asked for, a resident chunk is a key.
theorem Sealed.admitted (h : Sealed (fun q => E q ∨ q = p) s) : Sealed E (s.admitted p) := by
  rw [InfiniteChunkSource.admitted]
  split
  · rw [adoptNativeResident]
    split
    · rename_i hp
      exact h.weaken fun q hq => hq.elim .inr fun he => .inl (he ▸ hp)
    · exact h.put
  · rename_i hp
    refine ⟨h.sound, fun q hq => ?_⟩
    rcases h.covered q hq with hk | he | rfl
    · exact .inl hk
    · exact .inr he
    · exact (hp hq).elim

theorem generateInfinite_cases (w : InfiniteWorld γ) {result : Except ResidencyError Bool}
    {w' : InfiniteWorld γ} (hr : (generateInfinite terrain p).exec w = (result, w')) :
    (∃ answer, (prepareGenerationNeighborhood (neighborhood p)).exec w = (answer, w') ∧
      answer ≠ .ok true ∧ result = answer) ∨
    ∃ u, (prepareGenerationNeighborhood (neighborhood p)).exec w = (.ok true, u) ∧
      w'.store = (u.runGenerator terrain p).2.store ∧
      ((∃ e, (u.runGenerator terrain p).1 = .error e ∧ result = .error (.world e)) ∨
        ∃ done, (u.runGenerator terrain p).1 = .ok done ∧ result = .ok true) := by
  rw [generateInfinite] at hr
  rcases bind_cases hr with ⟨e, he, rfl⟩ | ⟨ready, u, hu, hr⟩
  · exact .inl ⟨_, he, by simp, rfl⟩
  · cases ready with
    | false =>
      cases hr
      exact .inl ⟨_, hu, by simp, rfl⟩
    | true =>
      refine .inr ⟨u, hu, ?_⟩
      rw [if_pos rfl, exec_bind, generateChunk, exec_ofOp] at hr
      rcases hg : u.runGenerator terrain p with ⟨e | done, g⟩
      · simp only [hg] at hr
        cases hr
        exact ⟨rfl, .inl ⟨e, rfl, rfl⟩⟩
      · simp only [hg, Except.mapError] at hr
        cases hd : done.generatedCenter with
        | false =>
          rw [hd] at hr
          cases hr
          exact ⟨rfl, .inr ⟨done, rfl, rfl⟩⟩
        | true =>
          rw [hd, if_pos rfl, exec_bind, exec_ofOp] at hr
          cases hr
          exact ⟨clearMissing_store _ _, .inr ⟨done, rfl, rfl⟩⟩

theorem runGenerator_center {w : InfiniteWorld γ} {done : InfiniteGenerationResult}
    (hd : (w.runGenerator terrain p).1 = .ok done) :
    (w.runGenerator terrain p).2.store.containsChunk p = true := by
  have hg : w.runGenerator terrain p = (.ok done, (w.runGenerator terrain p).2) := by rw [← hd]
  have hfull := (generateIntoStore_center hg).1
  rw [containsChunk]
  cases hc : (w.runGenerator terrain p).2.store.chunks p with
  | none => simp [Full, fullAt, hc] at hfull
  | some c => rfl

-- A generation that ends well makes its chunk resident and no other one that is not a key.
theorem generateInfinite_sealed (h : Sealed E s) (hg : GeneratesKeys terrain s p)
    {result : Except ResidencyError Bool} {w : InfiniteWorld γ}
    (hr : (generateInfinite terrain p).exec s.native = (result, w)) :
    (result = .ok true ∧ Sealed (fun q => E q ∨ q = p) { s with native := w } ∧
      w.store.containsChunk p = true) ∨
    (result ≠ .ok true ∧ Sealed E { s with native := w }) := by
  have hpolled (q : ChunkCoord) (hq : ∃ chunk, .loaded chunk ∈ s.native.delivered 9 ∧
      chunk.position = q) : q ∈ s.chunks ∨ E q := by
    obtain ⟨chunk, hc, rfl⟩ := hq
    exact (hg.1 chunk hc).elim .inl False.elim
  have hprepare := prepareGenerationNeighborhood_admits (p := p) s.native
  rcases generateInfinite_cases s.native hr with ⟨answer, hw, hne, rfl⟩ | ⟨u, hu, hstore, hend⟩
  · rw [hw] at hprepare
    exact .inr ⟨hne, h.native hprepare hpolled fun _ => .inr⟩
  · rw [hu] at hprepare
    have hready : Sealed E { s with native := u } := h.native hprepare hpolled fun _ => .inr
    have hkeys := hg.2 u hu
    have hadmits : Admits (fun q => u.store.fullAt p = false ∧ Around p q) u w :=
      (runGenerator_admits u).trans (.of_store hstore)
    have haround (q : ChunkCoord) (hq : u.store.fullAt p = false ∧ Around p q) (hne : q ≠ p) :
        q ∈ s.chunks := by
      obtain ⟨hf, i, rfl⟩ := hq
      refine (hkeys hf).1 i ?_
      rintro rfl
      exact hne (neighborhoodPosition_center p)
    rcases hend with ⟨e, he, rfl⟩ | ⟨done, hd, rfl⟩
    · refine .inr ⟨by simp, ?_⟩
      refine ⟨hadmits.sound hready.sound, fun q hq => ?_⟩
      rcases hadmits.fresh q hq with hold | hnew
      · exact hready.covered q hold
      · by_cases hqp : q = p
        · subst hqp
          rcases (hkeys hnew.1).2 with hk | hgone
          · exact .inl hk
          · have hgone := hgone e he
            rw [← hstore] at hgone
            simp [containsChunk, hgone] at hq
        · exact .inl (haround q hnew hqp)
    · refine .inl ⟨rfl, ?_, hstore ▸ runGenerator_center hd⟩
      refine ⟨hadmits.sound hready.sound, fun q hq => ?_⟩
      rcases hadmits.fresh q hq with hold | hnew
      · exact (hready.covered q hold).imp_right .inl
      · by_cases hqp : q = p
        · exact .inr (.inr hqp)
        · exact .inl (haround q hnew hqp)

theorem onNative_exec {α : Type} (m : WorldCall γ α) (s : InfiniteChunkSource γ) :
    (onNative m).exec s = ((m.exec s.native).1, { s with native := (m.exec s.native).2 }) := rfl

theorem runGenerate_sealed (h : Sealed E s) (hg : GeneratesKeys terrain s p) :
    (∃ w, (runGenerate terrain p).exec s = (.ok p, { s with native := w }) ∧
      Sealed (fun q => E q ∨ q = p) { s with native := w } ∧ w.store.containsChunk p = true) ∨
    ∃ e w, (runGenerate terrain p).exec s = (.error e, { s with native := w }) ∧
      Sealed E { s with native := w } := by
  rcases hr : (generateInfinite terrain p).exec s.native with ⟨result, w⟩
  have hnative : (onNative (generateInfinite terrain p)).exec s =
      (result, { s with native := w }) := by rw [onNative_exec, hr]
  rcases generateInfinite_sealed h hg hr with ⟨rfl, hs, hc⟩ | ⟨hne, hs⟩
  · refine .inl ⟨w, ?_, hs, hc⟩
    rw [runGenerate, exec_bind_ok hnative]
    rfl
  · cases result with
    | error e => exact .inr ⟨e, w, bind_error hnative, hs⟩
    | ok generated =>
      cases generated with
      | true => exact (hne rfl).elim
      | false =>
        refine .inr ⟨.pending p .queued, w, ?_, hs⟩
        rw [runGenerate, exec_bind_ok hnative]
        rfl

theorem completeInfiniteChunk_sealed (h : Sealed E s) (hp : p ∈ s.chunks)
    (hg : ∀ c, s.native.store.chunks p = some c →
      MainChunkSource.completed c.lifecycleFlags = false → GeneratesKeys terrain s p) :
    Sealed E ((completeInfiniteChunk terrain p).exec s).2 := by
  cases hc : s.native.store.chunks p with
  | none =>
    have hflags : (onNative (lifecycleFlags p)).exec s =
        (.error (.world (.chunkMissing p.x p.z)), s) := by
      rw [onNative_exec, lifecycleFlags, onStore, exec_ofOp, WorldStore.withChunk, hc]
      rfl
    rw [completeInfiniteChunk, bind_error hflags]
    exact h
  | some c =>
    have hflags : (onNative (lifecycleFlags p)).exec s = (.ok c.lifecycleFlags, s) := by
      rw [onNative_exec, lifecycleFlags, onStore, exec_ofOp, WorldStore.withChunk, hc]
      rfl
    rw [completeInfiniteChunk, exec_bind_ok hflags]
    cases hd : MainChunkSource.completed c.lifecycleFlags with
    | true => exact h
    | false =>
      rw [if_neg Bool.false_ne_true]
      rcases runGenerate_sealed h (hg c hc hd) with ⟨w, hw, hs, -⟩ | ⟨e, w, hw, hs⟩
      · rw [exec_bind_ok hw]
        exact hs.weaken fun q hq => hq.elim .inr fun he => .inl (he ▸ hp)
      · rw [bind_error hw]
        exact hs

theorem validateLifecycleFlags_or {flags flag : UInt8} (h : flags &&& ~~~chunkLifecycleMask = 0)
    (hf : flag &&& ~~~chunkLifecycleMask = 0) : validateLifecycleFlags (flags ||| flag) = .ok () := by
  have hor : (flags ||| flag) &&& ~~~chunkLifecycleMask =
      (flags &&& ~~~chunkLifecycleMask) ||| (flag &&& ~~~chunkLifecycleMask) :=
    UInt8.toBitVec_inj.1 BitVec.and_or_distrib_right
  rw [validateLifecycleFlags, hor, h, hf]
  rfl

theorem mark_ok {w : InfiniteWorld γ} {flag : UInt8} (hs : Store.Sound w.store)
    (hp : w.store.containsChunk p = true) (hf : flag &&& ~~~chunkLifecycleMask = 0) :
    ∃ u, (mark p flag).exec w = (.ok (), u) ∧ Admits (fun _ => False) w u ∧
      u.store.containsChunk p = true := by
  obtain ⟨c, hc⟩ := Option.isSome_iff_exists.mp hp
  have hsound : w.store.AllChunks (ChunkRecord.Sound fun _ => True) :=
    hs.sound trivial fun _ _ => trivial
  have hvalid := validateLifecycleFlags_or (hsound p c hc).flags hf
  have hflags : (lifecycleFlags p).exec w = (.ok c.lifecycleFlags, w) := by
    rw [lifecycleFlags, onStore, exec_ofOp, WorldStore.withChunk, hc]
    rfl
  refine ⟨w.withStore (w.store.setLifecycleFlags p (c.lifecycleFlags ||| flag)).2, ?_, ?_, ?_⟩
  · rw [mark, exec_bind_ok hflags, onStore, exec_ofOp, WorldStore.setLifecycleFlags, hvalid]
    simp only [withChunkMut, hc]
    rfl
  · refine ⟨fun hs => hs.op (.setLifecycleFlags p _), fun q hq => .inl ?_⟩
    exact setLifecycleFlags_contains ▸ hq
  · exact setLifecycleFlags_contains.trans hp

theorem generateBody_sealed (h : Sealed E s) (hg : GeneratesKeys terrain s p) :
    Sealed E ((generateBody terrain p).exec s).2 := by
  rcases runGenerate_sealed h hg with ⟨w, hw, hs, hp⟩ | ⟨e, w, hw, hs⟩
  · rw [generateBody, exec_bind_ok hw, if_neg (not_not.mpr rfl)]
    obtain ⟨u, hu, hadmits, hpu⟩ :=
      mark_ok hs.sound hp (show chunkLifecycleGenerated &&& ~~~chunkLifecycleMask = 0 by decide)
    have hs := hs.frame hadmits
    obtain ⟨v, hv, hadmits, -⟩ :=
      mark_ok hs.sound hpu (show chunkLifecyclePopulated &&& ~~~chunkLifecycleMask = 0 by decide)
    have hs := hs.frame hadmits
    have hgenerated : (onNative (mark p chunkLifecycleGenerated)).exec { s with native := w } =
        (.ok (), { s with native := u }) := by rw [onNative_exec, hu]
    have hpopulated : (onNative (mark p chunkLifecyclePopulated)).exec { s with native := u } =
        (.ok (), { s with native := v }) := by rw [onNative_exec, hv]
    rw [exec_bind_ok hgenerated, exec_bind_ok hpopulated]
    exact hs.put
  · rw [generateBody, bind_error hw]
    exact hs

theorem generate_sealed (h : Sealed E s) (hg : GeneratesKeys terrain s p) :
    Sealed E ((generate terrain p).exec s).2 := by
  rw [generate, exec_bind, exec_ofOp]
  simp only
  split
  · exact h
  · rw [exec_ofOp]
    have hin : Sealed E (s.enter p) := ⟨h.sound, h.covered⟩
    have hbody : Sealed E ((generateBody terrain p).exec (s.enter p)).2 := generateBody_sealed hin hg
    exact ⟨hbody.sound, hbody.covered⟩

theorem admitted_of_mem (hp : p ∈ s.chunks) : s.admitted p = s := by
  rw [admitted, adoptNativeResident, if_pos hp, ite_self]

theorem mem_adopt : p ∈ (s.adoptNativeResident p).chunks := by
  rw [adoptNativeResident]
  split
  · assumption
  · rw [InfiniteChunkSource.put]
    split <;> simp [enqueue]

theorem adopt_native : (s.adoptNativeResident p).native = s.native := by
  rw [adoptNativeResident]
  split
  · rfl
  · rw [InfiniteChunkSource.put]
    split <;> rfl

theorem getOrGenerate_sealed (h : Sealed E (s.admitted p)) (hg : ServesKey terrain s p) :
    Sealed E ((getOrGenerate terrain p).exec s).2 := by
  rw [getOrGenerate, exec_bind, exec_ofOp]
  simp only
  by_cases hp : p ∈ s.chunks
  · rw [admitted_of_mem hp] at h
    rw [if_pos hp]
    refine completeInfiniteChunk_sealed h hp fun c hc hd => ?_
    have hneeds : s.needsGeneration p := by
      rw [needsGeneration, hc]
      exact hd
    exact admitted_of_mem hp ▸ hg hneeds
  · rw [if_neg hp]
    cases hc : s.native.store.containsChunk p with
    | true =>
      have hrequest : (onNative (requestStorageLoad p)).exec s = (.ok .resident, s) := by
        rw [onNative_exec, requestStorageLoad_resident hc]
      have hadmitted : s.admitted p = s.adoptNativeResident p := if_pos hc
      rw [hadmitted] at h
      rw [exec_bind_ok hrequest, if_pos rfl, exec_bind, exec_ofOp]
      refine completeInfiniteChunk_sealed h mem_adopt fun c hc hd => ?_
      have hneeds : s.needsGeneration p := by
        rw [needsGeneration, ← adopt_native (p := p), hc]
        exact hd
      exact hadmitted ▸ hg hneeds
    | false =>
      have hadmitted : s.admitted p = s := if_neg (by simp [hc])
      rw [hadmitted] at h
      by_cases hm : p ∈ s.native.loadMissing
      · have hrequest : (onNative (requestStorageLoad p)).exec s = (.ok .missing, s) := by
          rw [onNative_exec, requestStorageLoad_missing hc hm]
        have hnone : s.native.store.chunks p = none := by simpa [containsChunk] using hc
        have hneeds : s.needsGeneration p := by
          rw [needsGeneration, hnone]
          exact ⟨hp, hm⟩
        rw [exec_bind_ok hrequest, if_neg (by decide), if_pos rfl]
        exact generate_sealed h (hadmitted ▸ hg hneeds)
      · rcases hr : (requestStorageLoad p).exec s.native with ⟨e | status, w⟩
        · have hrequest : (onNative (requestStorageLoad p)).exec s =
              (.error e, { s with native := w }) := by rw [onNative_exec, hr]
          rw [bind_error hrequest]
          exact h.frame (.of_store (requestStorageLoad_same.after hr))
        · have hrequest : (onNative (requestStorageLoad p)).exec s =
              (.ok status, { s with native := w }) := by rw [onNative_exec, hr]
          rw [exec_bind_ok hrequest]
          have hs := h.frame (.of_store (requestStorageLoad_same.after hr))
          rcases requestStorageLoad_waits hc hm hr with rfl | rfl <;> exact hs

theorem prepareEntry_error {status : LoadStatus} {e : ResidencyError} :
    (prepareEntry terrain p status).exec s = (.error e, s') →
      status = .resident ∨ status = .missing := by
  intro h
  by_contra hne
  rw [prepareEntry, if_neg hne] at h
  cases h

-- What is left of the work are the chunks that it found resident.
theorem prepareChunks_sealed {work : List (ChunkCoord × LoadStatus)}
    (h : Sealed (fun q => (q, .resident) ∈ work) s) (hw : WorkMeets terrain work s) :
    Sealed (fun _ => False) ((prepareChunks terrain work).exec s).2 := by
  induction work generalizing s with
  | nil => exact h.weaken fun q hq => (List.not_mem_nil hq).elim
  | cons entry rest ih =>
    obtain ⟨p, status⟩ := entry
    obtain ⟨hserve, herror, hnext⟩ := hw
    have hentry : Sealed (fun q => (q, .resident) ∈ rest)
        ((prepareEntry terrain p status).exec s).2 := by
      rw [prepareEntry]
      split
      · rename_i hstatus
        rw [prepareChunk_exec]
        refine getOrGenerate_sealed (Sealed.admitted (h.weaken fun q hq => ?_)) (hserve hstatus)
        rcases List.mem_cons.mp hq with he | hr
        · cases he
          exact .inr (.inr rfl)
        · exact .inr (.inl hr)
      · rename_i hstatus
        refine h.weaken fun q hq => ?_
        rcases List.mem_cons.mp hq with he | hr
        · cases he
          exact (hstatus (.inl rfl)).elim
        · exact .inr hr
    rw [prepareChunks]
    rcases hr : (prepareEntry terrain p status).exec s with ⟨e | prepared, t⟩
    · rw [hr] at hentry
      rw [bind_error hr]
      exact hentry.weaken fun q hq => .inl (herror e t hr q hq)
    · rw [hr] at hentry
      rw [exec_bind_ok hr, exec_bind_pure_snd]
      exact ih hentry (hnext prepared t hr)

theorem prepare_sealed {positions : List ChunkCoord} (h : Sealed (fun _ => False) s)
    (hm : Meets terrain s (.chunkWork positions)) :
    Sealed (fun _ => False) ((prepare terrain positions).exec s).2 := by
  rw [prepare]
  split
  · exact h
  · rename_i hne
    obtain ⟨hpolled, herror, hwork⟩ := hm hne
    have hadmits := prepareStorageLoadBatch_admits positions s.native
    rcases hr : (prepareStorageLoadBatch positions).exec s.native with ⟨e | statuses, w⟩
    · have hbatch : (onNative (prepareStorageLoadBatch positions)).exec s =
          (.error e, { s with native := w }) := by rw [onNative_exec, hr]
      rw [hr] at hadmits
      rw [bind_error hbatch]
      refine h.native hadmits ?_ fun _ => .inr
      rintro q ⟨chunk, hc, rfl⟩
      exact herror e _ hbatch chunk hc
    · have hbatch : (onNative (prepareStorageLoadBatch positions)).exec s =
          (.ok statuses, { s with native := w }) := by rw [onNative_exec, hr]
      rw [hr] at hadmits
      rw [exec_bind_ok hbatch]
      refine prepareChunks_sealed ⟨hadmits.sound h.sound, fun q hq => ?_⟩ (hwork statuses _ hbatch)
      rcases hadmits.fresh q hq with hold | ⟨chunk, hc, rfl⟩
      · exact .inl ((h.covered q hold).resolve_right id)
      · exact (hpolled chunk hc).imp_right (prepareStorageLoadBatch_resident hr hq)

theorem storageTick_sealed {budget : Int} {receipts : List SaveReceipt}
    (h : Sealed E s) (hm : Meets terrain s (.storageTick budget receipts)) :
    Sealed E ((onNative (storageTick budget receipts)).exec s).2 := by
  rw [onNative_exec, storageTick]
  split
  · rename_i hbudget
    have hpolled := poll_admits budget.toNat s.native
    have hkeys (q : ChunkCoord) (hq : ∃ chunk, .loaded chunk ∈ s.native.delivered budget.toNat ∧
        chunk.position = q) : q ∈ s.chunks ∨ E q := by
      obtain ⟨chunk, hc, rfl⟩ := hq
      exact (hm hbudget.1 hbudget.2 chunk hc).imp_right False.elim
    rw [exec_bind]
    generalize (pollLoadCompletions budget.toNat).exec s.native = polled at hpolled ⊢
    obtain ⟨e | completed, u⟩ := polled
    · exact h.native hpolled hkeys fun _ => .inr
    · have hs := h.native hpolled hkeys fun _ => .inr
      rw [exec_bind_pure_snd]
      exact hs.frame (markPersisted_admits receipts u)
  · exact h

theorem tryEvictChunk_contains {w : WorldStore} (hq : (w.tryEvictChunk p).2.containsChunk q = true) :
    w.containsChunk q = true := by
  rw [tryEvictChunk] at hq
  split at hq
  · exact hq
  · split at hq
    · exact hq
    · split at hq
      · exact hq
      · by_cases hqp : q = p
        · subst hqp
          simp [containsChunk] at hq
        · simpa [containsChunk, hqp] using hq

theorem Sealed.evicted (h : Sealed E s) :
    Sealed E { s with native := s.native.withStore (s.native.store.tryEvictChunk p).2 } :=
  ⟨h.sound.op (.tryEvictChunk p), fun q hq => h.covered q (tryEvictChunk_contains hq)⟩

theorem Sealed.drop (h : Sealed E s) (hp : s.native.store.containsChunk p = false) :
    Sealed E (s.drop p) := by
  refine ⟨h.sound, fun q hq => ?_⟩
  have hqp : q ≠ p := by
    rintro rfl
    rw [InfiniteChunkSource.drop] at hq
    simp [hp] at hq
  exact (h.covered q hq).imp_left fun hk => Finset.mem_erase.mpr ⟨hqp, hk⟩

theorem tryEvictChunk_gone {w : WorldStore}
    (h : (w.tryEvictChunk p).1 = .missing ∨ (w.tryEvictChunk p).1 = .evicted) :
    (w.tryEvictChunk p).2.containsChunk p = false := by
  cases hc : w.chunks p with
  | none => simp [tryEvictChunk, containsChunk, hc]
  | some c =>
    rw [tryEvictChunk, hc] at h ⊢
    by_cases hpins : c.pinCount = 0
    · cases hd : c.isDirty with
      | true => simp [hpins, hd] at h
      | false => simp [hpins, hd, containsChunk]
    · simp [hpins] at h

theorem unload_sealed : Moves (keeps (Sealed E)) (unload (γ := γ) p) := by
  intro s h
  rw [unload, exec_bind, exec_ofOp]
  simp only
  split
  · exact h
  · split
    · exact h
    · have hstore : Sealed E { s with
          native := s.native.withStore (s.native.store.tryEvictChunk p).2 } := h.evicted
      have hgone := tryEvictChunk_gone (w := s.native.store) (p := p)
      rw [exec_bind, tryEvictBacking, exec_ofOp]
      generalize s.native.store.tryEvictChunk p = result at hstore hgone ⊢
      obtain ⟨eviction, store⟩ := result
      cases eviction with
      | missing => exact hstore.drop (hgone (.inl rfl))
      | pinned => exact hstore
      | dirty => exact hstore
      | evicted => exact hstore.drop (hgone (.inr rfl))

theorem evictKey_sealed : Moves (keeps (Sealed E)) (evictKey (γ := γ) p) := by
  refine state_moves.bind fun s => ?_
  split
  · exact Moves.pure 0
  · refine unload_sealed.bind fun status => ?_
    split
    · exact Moves.bind (fun s h => ⟨h.sound, h.covered⟩) fun _ => Moves.pure 0
    · exact Moves.pure 1

theorem evictLoop_sealed (budget : Nat) : Moves (keeps (Sealed E)) (evictLoop (γ := γ) budget) := by
  induction budget with
  | zero => exact Moves.pure 0
  | succ budget ih =>
    refine state_moves.bind fun s => ?_
    cases s.evictionQueue with
    | nil => exact Moves.pure 0
    | cons p rest =>
      refine Moves.bind (fun s h => ⟨h.sound, h.covered⟩) fun _ => ?_
      exact evictKey_sealed.bind fun _ => ih.bind fun _ => Moves.pure _

theorem evictCleanUnpinned_sealed (budget : Int) :
    Moves (keeps (Sealed E)) (evictCleanUnpinned (γ := γ) budget) := by
  rw [evictCleanUnpinned]
  split
  · exact fail_moves _
  · exact evictLoop_sealed _

theorem take_store (w : InfiniteWorld γ) : (take p w).store = w.store := by
  rw [take]
  split <;> rfl

theorem answer_store (c : LoadCompletion) (w : InfiniteWorld γ) : (answer c w).store = w.store := by
  rw [answer]
  split <;> rfl

theorem Sealed.perform (h : Sealed (fun _ => False) s) {action : ResidencyAction}
    (hm : Meets terrain s action) : Sealed (fun _ => False) (perform terrain action s) := by
  cases action with
  | getOrGenerate p => exact getOrGenerate_sealed (Sealed.admitted (h.weaken fun _ hq => hq.elim)) hm
  | chunkWork positions => exact prepare_sealed h hm
  | storageTick budget receipts => exact storageTick_sealed h hm
  | unload p => exact unload_sealed s h
  | evictCleanUnpinned budget => exact evictCleanUnpinned_sealed budget s h
  | take p => exact h.frame (.of_store (take_store s.native))
  | answer c => exact h.frame (.of_store (answer_store c s.native))
  | write op rewrites =>
    exact h.frame ⟨fun hs => hs.op op, fun q hq => .inl (rewrites_contains rewrites hq)⟩

theorem Attached.sealed (h : Attached s) : Sealed (fun _ => False) s := by
  refine ⟨h.store ▸ .refl, fun q hq => ?_⟩
  rw [h.store] at hq
  cases hq

-- One action after the other, each in a state that meets the condition.
def Run (terrain : Terrain γ) (meets : InfiniteChunkSource γ → ResidencyAction → Prop) :
    InfiniteChunkSource γ → InfiniteChunkSource γ → Prop :=
  Relation.ReflTransGen fun s t => ∃ action, meets s action ∧ t = s.perform terrain action

theorem Run.queued {meets : InfiniteChunkSource γ → ResidencyAction → Prop}
    (h : Run terrain meets s s') (hs : Queued s) : Queued s' := by
  induction h with
  | refl => exact hs
  | tail _ hstep ih =>
    obtain ⟨action, -, rfl⟩ := hstep
    exact ih.perform action

theorem Run.sealed (h : Run terrain (Meets terrain) s s') (hs : Sealed (fun _ => False) s) :
    Sealed (fun _ => False) s' := by
  induction h with
  | refl => exact hs
  | tail _ hstep ih =>
    obtain ⟨action, hm, rfl⟩ := hstep
    exact ih.perform hm

theorem markPersisted_keeps (receipts : List SaveReceipt) :
    Moves (keeps (Contains (γ := γ) p)) (markPersisted receipts) := by
  induction receipts with
  | nil => exact Moves.pure ()
  | cons r rest ih =>
    exact Moves.bind (fun _ h => markPersisted_contains.trans h) fun _ => ih

-- A tick that takes in the load of a chunk that is not a key leaves it to nobody.
theorem storageTick_covered_iff (h : Sealed (fun _ => False) s) (budget : Int)
    (receipts : List SaveReceipt) :
    (∀ p, (s.perform terrain (.storageTick budget receipts)).native.store.containsChunk p = true →
      p ∈ (s.perform terrain (.storageTick budget receipts)).chunks) ↔
    Meets terrain s (.storageTick budget receipts) := by
  constructor
  · intro hcovered hpos hmax chunk hc
    refine .inl (hcovered chunk.position ?_)
    have hpolled := poll_contains hc
    rw [perform, onNative_exec, storageTick, if_pos ⟨hpos, hmax⟩, exec_bind]
    generalize (pollLoadCompletions budget.toNat).exec s.native = polled at hpolled ⊢
    obtain ⟨e | completed, u⟩ := polled
    · exact hpolled
    · rw [exec_bind_pure_snd]
      exact markPersisted_keeps receipts u hpolled
  · intro hm p hp
    exact ((h.perform hm).covered p hp).resolve_right id

-- So does a generation with a neighbor that is not a key.
theorem runGenerate_strays {w : InfiniteWorld γ} {i : Fin 9}
    (hr : (prepareGenerationNeighborhood (neighborhood p)).exec s.native = (.ok true, w))
    (hf : w.store.fullAt p = false) (hi : neighborhoodPosition p i ∉ s.chunks)
    (hok : (runGenerate terrain p).exec s = (.ok p, s')) :
    s'.native.store.containsChunk (neighborhoodPosition p i) = true ∧
      neighborhoodPosition p i ∉ s'.chunks := by
  rcases hg : (generateInfinite terrain p).exec s.native with ⟨result, v⟩
  have hnative : (onNative (generateInfinite terrain p)).exec s =
      (result, { s with native := v }) := by rw [onNative_exec, hg]
  rw [runGenerate, exec_bind, hnative] at hok
  rcases generateInfinite_cases s.native hg with ⟨answer, hw, hne, rfl⟩ | ⟨u, hu, hstore, hend⟩
  · rw [hr] at hw
    cases hw
    exact (hne rfl).elim
  · rw [hr] at hu
    cases hu
    rcases hend with ⟨e, -, rfl⟩ | ⟨done, hd, rfl⟩
    · cases hok
    · cases hok
      have hrun : w.runGenerator terrain p = (.ok done, (w.runGenerator terrain p).2) := by
        rw [← hd]
      have hgenerated := (generateIntoStore_around hrun hf).1 i
      refine ⟨?_, hi⟩
      rw [hstore, containsChunk]
      cases hc : (w.runGenerator terrain p).2.store.chunks (neighborhoodPosition p i) with
      | none => simp [Generated, generatedAt, hc] at hgenerated
      | some c => rfl

section

def emptySource : InfiniteChunkSource Unit where
  native := ⟨.new, (), ⟨1, 1024, 1024⟩, ∅, ∅, [], [], []⟩
  chunks := ∅
  cells := ∅
  loading := ∅
  evictionQueued := ∅
  evictionQueue := []

theorem emptySource_attached : Attached emptySource := ⟨rfl, rfl, rfl, rfl, rfl⟩

def spawnChunk : Storage.StoredChunk := ⟨spawn, .none, Storage.plainsImport, []⟩

def awaiting : InfiniteChunkSource Unit :=
  { emptySource with
    native := { emptySource.native with
      inFlight := {spawn}
      completions := [.loaded spawnChunk] } }

theorem awaiting_reached : Run (flatTerrain 0) (fun _ _ => True) emptySource awaiting := by
  have hasked : Run (flatTerrain 0) (fun _ _ => True) emptySource
      (emptySource.perform (flatTerrain 0) (.getOrGenerate spawn)) := .single ⟨_, trivial, rfl⟩
  refine (hasked.tail ⟨.take spawn, trivial, rfl⟩).tail ⟨.answer (.loaded spawnChunk), trivial, ?_⟩
  rfl

end

end InfiniteChunkSource

end Cobblestone.Source
