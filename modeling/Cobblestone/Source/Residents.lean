import Cobblestone.Source.Evictable

namespace Cobblestone.Source

open Lib Effect World WorldStore Async Bridge

abbrev Store.Sound (s : WorldStore) : Prop := WorldStore.Reachable (fun _ => True) s

def deliverable : LoadCompletion → Bool
  | .loaded chunk => decide (validateImport chunk.imported = .ok ())
  | .missing _ => true
  | .failed _ => false

theorem exec_bind_pure_snd {σ α β : Type} (m : Effect ResidencyError σ α) (f : α → β) (s : σ) :
    ((m >>= fun a => pure (f a)).exec s).2 = (m.exec s).2 := by
  rw [exec_bind]
  rcases m.exec s with ⟨e | a, t⟩ <;> rfl

namespace InfiniteWorld

variable {γ : Type} {terrain : Terrain γ} {w w' : InfiniteWorld γ} {p q : ChunkCoord}
  {N M : ChunkCoord → Prop}

-- The completions that one poll takes and applies: it stops at the first that fails.
def delivered (n : Nat) (w : InfiniteWorld γ) : List LoadCompletion :=
  (w.completions.take n).takeWhile deliverable

-- Chunks become resident only where the predicate holds.
structure Admits (N : ChunkCoord → Prop) (w w' : InfiniteWorld γ) : Prop where
  sound : Store.Sound w.store → Store.Sound w'.store
  fresh : ∀ p, w'.store.containsChunk p = true → w.store.containsChunk p = true ∨ N p

instance : Std.Refl (Admits (γ := γ) N) := ⟨fun _ => ⟨id, fun _ h => .inl h⟩⟩

theorem Admits.trans {w'' : InfiniteWorld γ} (h : Admits N w w') (k : Admits N w' w'') :
    Admits N w w'' where
  sound hs := k.sound (h.sound hs)
  fresh p hp := (k.fresh p hp).elim (h.fresh p) .inr

instance : IsTrans (InfiniteWorld γ) (Admits N) := ⟨fun _ _ _ => Admits.trans⟩

theorem Admits.weaken (h : Admits N w w') (hN : ∀ p, N p → M p) : Admits M w w' where
  sound := h.sound
  fresh p hp := (h.fresh p hp).imp_right (hN p)

theorem Admits.of_store (h : w'.store = w.store) : Admits N w w' where
  sound hs := h ▸ hs
  fresh _ hp := .inl (h ▸ hp)

theorem Admits.op {op : StoreOp} (h : ∀ p, (op.apply w.store).containsChunk p = true →
    w.store.containsChunk p = true ∨ N p) : Admits N w (w.withStore (op.apply w.store)) :=
  ⟨fun hs => hs.op op, h⟩

theorem rewrites_contains {op : StoreOp} (h : op.Rewrites) {s : WorldStore}
    (hp : (op.apply s).containsChunk p = true) : s.containsChunk p = true := by
  cases hc : s.chunks p with
  | none => simp [containsChunk, (StoreOp.advanced h s).absent p hc] at hp
  | some c => simp [containsChunk, hc]

theorem withChunkMut_contains {α : Type} {s : WorldStore}
    (operation : ChunkRecord → Except WorldStoreError α × ChunkRecord) :
    (s.withChunkMut p operation).2.containsChunk q = s.containsChunk q := by
  rw [WorldStore.withChunkMut]
  cases hc : s.chunks p with
  | none => rfl
  | some c =>
    by_cases hq : q = p
    · subst hq
      simp [containsChunk, hc]
    · simp [containsChunk, hq]

theorem setLifecycleFlags_contains {s : WorldStore} {flags : UInt8} :
    (s.setLifecycleFlags p flags).2.containsChunk q = s.containsChunk q := by
  rw [WorldStore.setLifecycleFlags]
  split
  · rfl
  · exact withChunkMut_contains _

theorem markPersisted_contains {s : WorldStore} {terrain light : UInt64} {flags : UInt8} :
    (s.markPersisted p terrain light flags).2.containsChunk q = s.containsChunk q := by
  rw [WorldStore.markPersisted]
  split
  · rfl
  · exact withChunkMut_contains _

-- Requests leave the store alone.
def SameStore (w w' : InfiniteWorld γ) : Prop := w'.store = w.store

instance : Std.Refl (SameStore (γ := γ)) := ⟨fun _ => rfl⟩

instance : IsTrans (InfiniteWorld γ) SameStore := ⟨fun _ _ _ h k => k.trans h⟩

theorem request_same : Moves SameStore (request (γ := γ) p) := by
  refine state_moves.bind fun w => ?_
  split
  · exact Moves.pure _
  · split
    · exact fail_moves _
    · exact Moves.bind (fun _ => rfl) fun _ => Moves.pure _

theorem requestStorageLoad_same : Moves SameStore (requestStorageLoad (γ := γ) p) := by
  refine state_moves.bind fun w => ?_
  split
  · exact Moves.pure _
  · split
    · exact Moves.pure _
    · refine request_same.bind fun state => ?_
      cases state with
      | queued => exact Moves.pure _
      | joined => exact Moves.pure _

theorem requestStorageLoads_same (positions : List ChunkCoord) :
    Moves SameStore (requestStorageLoads (γ := γ) positions) := by
  induction positions with
  | nil => exact Moves.pure _
  | cons p rest ih => exact requestStorageLoad_same.bind fun _ => ih.bind fun _ => Moves.pure _

theorem requireLoads_same (positions : List ChunkCoord) :
    Moves SameStore (requireLoads (γ := γ) positions) := by
  induction positions with
  | nil => exact Moves.pure _
  | cons p rest ih => exact requestStorageLoad_same.bind fun _ => ih.bind fun _ => Moves.pure _

theorem requestStorageLoad_resident (h : w.store.containsChunk p = true) :
    (requestStorageLoad p).exec w = (.ok .resident, w) := by
  rw [requestStorageLoad, exec_bind, exec_ofOp]
  simp only [h, if_true]
  rfl

theorem requestStorageLoad_missing (h : w.store.containsChunk p = false) (hm : p ∈ w.loadMissing) :
    (requestStorageLoad p).exec w = (.ok .missing, w) := by
  rw [requestStorageLoad, exec_bind, exec_ofOp]
  simp only [h, hm, if_true, Bool.false_eq_true, if_false]
  rfl

-- Neither resident nor known to be missing, it waits for the disk.
theorem requestStorageLoad_waits (h : w.store.containsChunk p = false) (hm : p ∉ w.loadMissing)
    {status : LoadStatus} (hr : (requestStorageLoad p).exec w = (.ok status, w')) :
    status = .queued ∨ status = .joined := by
  rw [requestStorageLoad, exec_bind, exec_ofOp] at hr
  simp only [h, hm, Bool.false_eq_true, if_false] at hr
  obtain ⟨answer, u, -, hr⟩ := bind_ok.mp hr
  cases answer <;> cases hr <;> simp

theorem requestStorageLoad_ok {status : LoadStatus}
    (hr : (requestStorageLoad p).exec w = (.ok status, w')) :
    (status = .resident ↔ w.store.containsChunk p = true) := by
  cases hc : w.store.containsChunk p with
  | true =>
    rw [requestStorageLoad_resident hc] at hr
    cases hr
    simp
  | false =>
    by_cases hm : p ∈ w.loadMissing
    · rw [requestStorageLoad_missing hc hm] at hr
      cases hr
      simp
    · rcases requestStorageLoad_waits hc hm hr with rfl | rfl <;> simp

-- A position of the batch that is resident gets the status of a resident chunk.
theorem requestStorageLoads_resident {positions : List ChunkCoord} {statuses : List LoadStatus}
    (hr : (requestStorageLoads positions).exec w = (.ok statuses, w'))
    (hq : w.store.containsChunk q = true) (hmem : q ∈ positions) :
    (q, LoadStatus.resident) ∈ positions.zip statuses := by
  induction positions generalizing w statuses with
  | nil => cases hmem
  | cons p rest ih =>
    obtain ⟨status, u, hu, hr⟩ := bind_ok.mp hr
    obtain ⟨others, v, hv, hr⟩ := bind_ok.mp hr
    cases hr
    have hstore : u.store = w.store := requestStorageLoad_same.after hu
    rw [List.zip_cons_cons, List.mem_cons]
    by_cases hqp : q = p
    · subst hqp
      exact .inl (by rw [(requestStorageLoad_ok hu).mpr hq])
    · exact .inr (ih hv (hstore ▸ hq) ((List.mem_cons.mp hmem).resolve_left hqp))

section

variable {c : LoadCompletion}

theorem applyLoadCompletion_refused (h : deliverable c = false) (w : InfiniteWorld γ) :
    ∃ e w', (applyLoadCompletion c).exec w = (.error e, w') ∧ w'.store = w.store := by
  cases c with
  | loaded chunk =>
    have hi : validateImport chunk.imported ≠ .ok () := by simpa [deliverable] using h
    obtain ⟨e, he⟩ : ∃ e, validateImport chunk.imported = .error e := by
      cases hv : validateImport chunk.imported with
      | error e => exact ⟨e, rfl⟩
      | ok u => exact (hi hv).elim
    refine ⟨.world e, w.clearMissing chunk.position, ?_, rfl⟩
    rw [applyLoadCompletion, exec_bind, exec_ofOp]
    simp only
    rw [exec_bind, onStore, exec_ofOp, importChunkIfAbsent]
    simp only [clearMissing, he]
    rfl
  | missing => simp [deliverable] at h
  | failed failure => exact ⟨_, w, rfl, rfl⟩

theorem importChunkIfAbsent_contains {s : WorldStore} {i : ChunkImport}
    (hq : (s.importChunkIfAbsent p i).2.containsChunk q = true) :
    s.containsChunk q = true ∨ q = p := by
  rw [importChunkIfAbsent] at hq
  split at hq
  · exact .inl hq
  · split at hq
    · exact .inl hq
    · by_cases hqp : q = p
      · exact .inr hqp
      · exact .inl (by simpa [containsChunk, hqp] using hq)

theorem importChunkIfAbsent_installs {s : WorldStore} {i : ChunkImport}
    (hi : validateImport i = .ok ()) : (s.importChunkIfAbsent p i).2.containsChunk p = true := by
  rw [importChunkIfAbsent, hi]
  simp only
  split
  · assumption
  · simp [containsChunk]

theorem applyLoadCompletion_delivered (h : deliverable c = true) (w : InfiniteWorld γ) :
    ∃ w', (applyLoadCompletion c).exec w = (.ok (), w') ∧ w'.completions = w.completions ∧
      Admits (fun q => ∃ chunk, c = .loaded chunk ∧ chunk.position = q) w w' ∧
      ∀ chunk, c = .loaded chunk → w'.store.containsChunk chunk.position = true := by
  cases c with
  | loaded chunk =>
    have hi : validateImport chunk.imported = .ok () := by simpa [deliverable] using h
    obtain ⟨changed, hchanged⟩ : ∃ changed,
        (w.store.importChunkIfAbsent chunk.position chunk.imported).1 = .ok changed := by
      rw [importChunkIfAbsent, hi]
      simp only
      split
      · exact ⟨false, rfl⟩
      · exact ⟨true, rfl⟩
    have hstore : (onStore fun s => s.importChunkIfAbsent chunk.position chunk.imported).exec
        (w.clearMissing chunk.position) = (.ok changed, (w.clearMissing chunk.position).withStore
          (w.store.importChunkIfAbsent chunk.position chunk.imported).2) := by
      rw [onStore, exec_ofOp]
      simp only [clearMissing, hchanged]
      rfl
    refine ⟨(w.clearMissing chunk.position).withStore
      (w.store.importChunkIfAbsent chunk.position chunk.imported).2, ?_, rfl, ?_, ?_⟩
    · rw [applyLoadCompletion, exec_bind, exec_ofOp]
      simp only
      exact exec_bind_ok hstore
    · refine ⟨fun hs => hs.op (.importChunkIfAbsent chunk.position chunk.imported), fun q hq => ?_⟩
      exact (importChunkIfAbsent_contains hq).imp_right fun hqp => ⟨chunk, rfl, hqp.symm⟩
    · rintro _ ⟨⟩
      exact importChunkIfAbsent_installs hi
  | missing p => exact ⟨_, rfl, rfl, .of_store rfl, by simp⟩
  | failed => simp [deliverable] at h

theorem poll_admits (n : Nat) (w : InfiniteWorld γ) :
    Admits (fun q => ∃ chunk, .loaded chunk ∈ w.delivered n ∧ chunk.position = q) w
      ((pollLoadCompletions n).exec w).2 := by
  induction n generalizing w with
  | zero => exact .of_store rfl
  | succ n ih =>
    rw [pollLoadCompletions, exec_bind, exec_ofOp]
    simp only
    cases hc : w.completions with
    | nil => exact .of_store rfl
    | cons c rest =>
      simp only
      rw [exec_bind, exec_ofOp]
      simp only
      cases hd : deliverable c with
      | false =>
        obtain ⟨e, w', he, hs⟩ := applyLoadCompletion_refused hd (w.receive c rest)
        rw [bind_error he]
        exact .of_store hs
      | true =>
        obtain ⟨w', he, hrest, ha, -⟩ := applyLoadCompletion_delivered hd (w.receive c rest)
        have hlist : w.delivered (n + 1) = c :: w'.delivered n := by
          rw [delivered, delivered, hrest, hc, receive]
          simp [hd]
        rw [exec_bind_ok he, hlist, exec_bind_pure_snd]
        have hreceive : Admits (fun q => ∃ chunk, .loaded chunk ∈ c :: w'.delivered n ∧
            chunk.position = q) w (w.receive c rest) := .of_store rfl
        refine (hreceive.trans (ha.weaken ?_)).trans ((ih w').weaken ?_)
        · rintro q ⟨chunk, rfl, hq⟩
          exact ⟨chunk, List.mem_cons_self, hq⟩
        · rintro q ⟨chunk, hmem, hq⟩
          exact ⟨chunk, List.mem_cons_of_mem c hmem, hq⟩

theorem importChunkIfAbsent_keeps {s : WorldStore} {i : ChunkImport}
    (hq : s.containsChunk q = true) : (s.importChunkIfAbsent p i).2.containsChunk q = true := by
  rw [importChunkIfAbsent]
  split
  · exact hq
  · split
    · exact hq
    · by_cases hqp : q = p
      · subst hqp
        simp [containsChunk]
      · simpa [containsChunk, hqp] using hq

def Contains (p : ChunkCoord) (w : InfiniteWorld γ) : Prop := w.store.containsChunk p = true

theorem applyLoadCompletion_keeps : Moves (keeps (Contains (γ := γ) p)) (applyLoadCompletion c) := by
  cases c with
  | loaded chunk =>
    refine Moves.bind (fun _ h => h) fun _ => Moves.bind (fun _ h => ?_) fun _ => Moves.pure ()
    exact importChunkIfAbsent_keeps h
  | missing => exact fun _ h => h
  | failed => exact fail_moves _

theorem poll_keeps (n : Nat) : Moves (keeps (Contains (γ := γ) p)) (pollLoadCompletions n) := by
  induction n with
  | zero => exact Moves.pure 0
  | succ n ih =>
    refine state_moves.bind fun w => ?_
    cases w.completions with
    | nil => exact Moves.pure 0
    | cons c rest =>
      refine Moves.bind (fun _ h => h) fun _ => applyLoadCompletion_keeps.bind fun _ => ?_
      exact ih.bind fun _ => Moves.pure _

-- What a poll delivers is resident afterwards.
theorem poll_contains {n : Nat} {chunk : Storage.StoredChunk}
    (h : .loaded chunk ∈ w.delivered n) :
    ((pollLoadCompletions n).exec w).2.store.containsChunk chunk.position = true := by
  induction n generalizing w with
  | zero => simp [delivered] at h
  | succ n ih =>
    rw [pollLoadCompletions, exec_bind, exec_ofOp]
    simp only
    cases hc : w.completions with
    | nil => simp [delivered, hc] at h
    | cons c rest =>
      simp only
      rw [exec_bind, exec_ofOp]
      simp only
      rw [delivered, hc, List.take_succ_cons, List.takeWhile_cons] at h
      cases hd : deliverable c with
      | false => simp [hd] at h
      | true =>
        obtain ⟨w', he, hrest, -, hinstalls⟩ := applyLoadCompletion_delivered hd (w.receive c rest)
        rw [exec_bind_ok he, exec_bind_pure_snd]
        rw [hd, if_pos rfl] at h
        rcases List.mem_cons.mp h with rfl | h
        · exact poll_keeps n w' (hinstalls chunk rfl)
        · refine ih ?_
          rw [delivered, hrest]
          exact h

end

theorem markPersisted_admits (receipts : List SaveReceipt) :
    Moves (Admits N) (markPersisted (γ := γ) receipts) := by
  induction receipts with
  | nil => exact Moves.pure ()
  | cons r rest ih =>
    have hmark : Moves (Admits (γ := γ) N) (onStore fun s =>
        s.markPersisted r.position r.terrainRevision r.lightRevision r.lifecycleFlags) := by
      intro w
      refine ⟨fun hs => hs.op (.markPersisted r.position r.terrainRevision r.lightRevision
        r.lifecycleFlags), fun p hp => .inl ?_⟩
      exact markPersisted_contains ▸ hp
    exact hmark.bind fun _ => ih

theorem neighborhood_length (p : ChunkCoord) : (neighborhood p).length = 9 := by
  simp [neighborhood]

-- What the loads let in before a generation.
theorem prepareGenerationNeighborhood_admits (w : InfiniteWorld γ) :
    Admits (fun q => ∃ chunk, .loaded chunk ∈ w.delivered 9 ∧ chunk.position = q) w
      ((prepareGenerationNeighborhood (neighborhood p)).exec w).2 := by
  have hpoll := poll_admits 9 w
  have hnine : max (neighborhood p).length 1 = 9 := by rw [neighborhood_length]; rfl
  rw [prepareGenerationNeighborhood, hnine, exec_bind]
  generalize (pollLoadCompletions 9).exec w = polled at hpoll ⊢
  obtain ⟨e | completed, u⟩ := polled
  · exact hpoll
  · exact hpoll.trans (.of_store (requireLoads_same (neighborhood p) u))

theorem prepareStorageLoadBatch_admits (positions : List ChunkCoord) (w : InfiniteWorld γ) :
    Admits (fun q => ∃ chunk, .loaded chunk ∈ w.delivered (max positions.length 1) ∧
        chunk.position = q) w ((prepareStorageLoadBatch positions).exec w).2 := by
  have hpoll := poll_admits (max positions.length 1) w
  rw [prepareStorageLoadBatch, exec_bind]
  generalize (pollLoadCompletions (max positions.length 1)).exec w = polled at hpoll ⊢
  obtain ⟨e | completed, u⟩ := polled
  · exact hpoll
  · exact hpoll.trans (.of_store (requestStorageLoads_same positions u))

theorem prepareStorageLoadBatch_resident {positions : List ChunkCoord} {statuses : List LoadStatus}
    (hr : (prepareStorageLoadBatch positions).exec w = (.ok statuses, w'))
    (hq : w'.store.containsChunk q = true) (hmem : q ∈ positions) :
    (q, LoadStatus.resident) ∈ positions.zip statuses := by
  obtain ⟨completed, u, -, hr⟩ := bind_ok.mp hr
  have hstore : w'.store = u.store := (requestStorageLoads_same positions).after hr
  exact requestStorageLoads_resident hr (hstore ▸ hq) hmem

theorem clearMissing_store (positions : List ChunkCoord) (w : InfiniteWorld γ) :
    (positions.foldl (fun w q => w.clearMissing q) w).store = w.store := by
  induction positions generalizing w with
  | nil => rfl
  | cons p rest ih => rw [List.foldl_cons, ih]; rfl

-- What the generator leaves behind: nothing new where the chunk is complete, and otherwise chunks
-- of the neighborhood alone.
theorem runGenerator_admits (w : InfiniteWorld γ) :
    Admits (fun q => w.store.fullAt p = false ∧ Around p q) w
      { w with
        store := (w.runGenerator terrain p).2.store
        generator := (w.runGenerator terrain p).2.state } := by
  cases hf : w.store.fullAt p with
  | true =>
    have hrun : (generateIntoStore terrain p).exec ⟨w.generator, w.store⟩ =
        (.ok ⟨0, false⟩, ⟨w.generator, w.store⟩) := generateIntoStore_of_full hf
    refine .of_store ?_
    rw [runGenerator, hrun]
  | false =>
    have hruns : Runs ⟨w.generator, w.store⟩
        ((generateIntoStore terrain p).exec ⟨w.generator, w.store⟩).2 := generateIntoStore_runs _
    have hspread : Spreads (Around p) ⟨w.generator, w.store⟩
        ((generateIntoStore terrain p).exec ⟨w.generator, w.store⟩).2 :=
      generateIntoStore_spreads _
    refine ⟨fun hs => StoreRun.reachable hs hruns, fun q hq => ?_⟩
    cases hc : w.store.chunks q with
    | some c => exact .inl (by simp [containsChunk, hc])
    | none =>
      obtain ⟨c, hc'⟩ := Option.isSome_iff_exists.mp hq
      exact .inr ⟨rfl, (hspread.fresh q c hc hc').1⟩

end InfiniteWorld

end Cobblestone.Source
