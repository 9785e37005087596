import Cobblestone.Bridge.Missing
import Cobblestone.Source.Residency
import Cobblestone.World.Retain

namespace Cobblestone.Source

open Lib Effect World Async Bridge

section

variable {σ α : Type} {R : σ → σ → Prop}

theorem state_moves [Std.Refl R] : Moves R (state (σ := σ)) := fun s => Std.Refl.refl (r := R) s

theorem fail_moves [Std.Refl R] (error : ResidencyError) : Moves R (fail error : Effect _ σ α) :=
  fun s => Std.Refl.refl (r := R) s

theorem update_moves {f : σ → σ} (h : ∀ s, R s (f s)) : Moves R (update f) := h

end

namespace InfiniteChunkSource

variable {γ : Type} {terrain : Terrain γ} {s s' : InfiniteChunkSource γ} {p q : ChunkCoord}

-- Every key waits in the eviction queue, and nothing waits there twice.
structure Queued (s : InfiniteChunkSource γ) : Prop where
  once : s.evictionQueue.Nodup
  flagged : ∀ p, p ∈ s.evictionQueued ↔ p ∈ s.evictionQueue
  listed : ∀ p ∈ s.chunks, p ∈ s.evictionQueue
  celled : ∀ p ∈ s.chunks, p ∈ s.cells

theorem Queued.onNative (h : Queued s) (w : InfiniteWorld γ) : Queued { s with native := w } :=
  ⟨h.once, h.flagged, h.listed, h.celled⟩

theorem Queued.put (h : Queued s) (p : ChunkCoord) : Queued (s.put p) := by
  rw [InfiniteChunkSource.put]
  split
  · rename_i hp
    have hnew : p ∉ s.evictionQueue := fun hq => hp.2 ((h.flagged p).mpr hq)
    refine ⟨?_, fun q => ?_, fun q hq => ?_, fun q hq => ?_⟩
    · refine List.nodup_append.mpr ⟨h.once, List.nodup_singleton p, fun a ha b hb => ?_⟩
      rw [List.mem_singleton.mp hb]
      exact fun he => hnew (he ▸ ha)
    · simp [enqueue, h.flagged, or_comm]
    · rcases Finset.mem_insert.mp hq with rfl | hq
      · simp [enqueue]
      · simp [enqueue, h.listed q hq]
    · rcases Finset.mem_insert.mp hq with rfl | hq
      · simp [enqueue]
      · simp [enqueue, h.celled q hq]
  · rename_i hp
    refine ⟨h.once, h.flagged, fun q hq => ?_, fun q hq => ?_⟩
    · rcases Finset.mem_insert.mp hq with rfl | hq
      · by_cases hc : q ∈ s.chunks
        · exact h.listed q hc
        · refine (h.flagged q).mp ?_
          by_contra hf
          exact hp ⟨hc, hf⟩
      · exact h.listed q hq
    · rcases Finset.mem_insert.mp hq with rfl | hq
      · simp
      · simp [h.celled q hq]

theorem Queued.adopt (h : Queued s) (p : ChunkCoord) : Queued (s.adoptNativeResident p) := by
  rw [adoptNativeResident]
  split
  · exact h
  · exact h.put p

theorem Queued.drop (h : Queued s) (p : ChunkCoord) : Queued (s.drop p) where
  once := h.once
  flagged := h.flagged
  listed q hq := h.listed q (Finset.mem_of_mem_erase hq)
  celled q hq := Finset.mem_erase.mpr
    ⟨Finset.ne_of_mem_erase hq, h.celled q (Finset.mem_of_mem_erase hq)⟩

theorem onNative_moves {α : Type} (m : WorldCall γ α) : Moves (keeps Queued) (onNative m) :=
  fun _ h => h.onNative _

theorem runGenerate_moves : Moves (keeps Queued) (runGenerate terrain p) := by
  refine (onNative_moves _).bind fun generated => ?_
  split
  · exact Moves.pure p
  · exact fail_moves _

theorem completeInfiniteChunk_moves : Moves (keeps Queued) (completeInfiniteChunk terrain p) := by
  refine (onNative_moves _).bind fun flags => ?_
  split
  · exact Moves.pure p
  · exact runGenerate_moves.bind fun _ => Moves.pure p

theorem generateBody_moves : Moves (keeps Queued) (generateBody terrain p) := by
  refine runGenerate_moves.bind fun generated => ?_
  split
  · exact fail_moves _
  · refine (onNative_moves _).bind fun _ => (onNative_moves _).bind fun _ => ?_
    exact (update_moves fun _ h => h.put p).bind fun _ => Moves.pure p

theorem generate_moves : Moves (keeps Queued) (generate terrain p) := by
  refine state_moves.bind fun s => ?_
  split
  · exact fail_moves _
  · intro s h
    have hin : Queued (s.enter p) := ⟨h.once, h.flagged, h.listed, h.celled⟩
    have hbody : Queued ((generateBody terrain p).exec (s.enter p)).2 := generateBody_moves _ hin
    exact ⟨hbody.once, hbody.flagged, hbody.listed, hbody.celled⟩

theorem getOrGenerate_moves : Moves (keeps Queued) (getOrGenerate terrain p) := by
  refine state_moves.bind fun s => ?_
  split
  · exact completeInfiniteChunk_moves
  · refine (onNative_moves _).bind fun status => ?_
    split
    · exact (update_moves fun _ h => h.adopt p).bind fun _ => completeInfiniteChunk_moves
    · split
      · exact generate_moves
      · exact fail_moves _

theorem prepareChunk_exec (s : InfiniteChunkSource γ) :
    ((prepareChunk terrain p).exec s).2 = ((getOrGenerate terrain p).exec s).2 := by
  rw [prepareChunk, exec_ofOp]
  rcases (getOrGenerate terrain p).exec s with ⟨e | _, t⟩
  · cases e <;> rfl
  · rfl

theorem prepareEntry_moves (status : LoadStatus) :
    Moves (keeps Queued) (prepareEntry terrain p status) := by
  rw [prepareEntry]
  split
  · intro s
    rw [prepareChunk_exec]
    exact getOrGenerate_moves s
  · exact Moves.pure false

theorem prepareChunks_moves (work : List (ChunkCoord × LoadStatus)) :
    Moves (keeps Queued) (prepareChunks terrain work) := by
  induction work with
  | nil => exact Moves.pure true
  | cons entry rest ih =>
    obtain ⟨p, status⟩ := entry
    exact (prepareEntry_moves status).bind fun prepared => ih.bind fun others => Moves.pure _

theorem prepare_moves (positions : List ChunkCoord) :
    Moves (keeps Queued) (prepare terrain positions) := by
  rw [prepare]
  split
  · exact Moves.pure true
  · exact (onNative_moves _).bind fun statuses => prepareChunks_moves _

theorem unload_moves : Moves (keeps Queued) (unload (γ := γ) p) := by
  refine state_moves.bind fun s => ?_
  split
  · exact Moves.pure _
  · split
    · exact fail_moves _
    · have hevict : Moves (keeps Queued) (tryEvictBacking (γ := γ) p) := fun _ h => h.onNative _
      refine hevict.bind fun status => ?_
      split
      · exact (update_moves fun _ h => h.drop p).bind fun _ => Moves.pure _
      · exact Moves.pure _

theorem unload_exec (hp : p ∈ s.chunks) (hc : p ∈ s.cells) :
    (unload p).exec s =
      match s.native.store.tryEvictChunk p with
      | (.missing, store) =>
        (.ok .missing, { s with native := s.native.withStore store }.drop p)
      | (.pinned _, store) => (.ok .pinned, { s with native := s.native.withStore store })
      | (.dirty, store) => (.ok .dirty, { s with native := s.native.withStore store })
      | (.evicted, store) =>
        (.ok .unloaded, { s with native := s.native.withStore store }.drop p) := by
  rw [unload, exec_bind, exec_ofOp]
  simp only [hp, hc, not_true_eq_false, if_false]
  rw [exec_bind, tryEvictBacking, exec_ofOp]
  rcases s.native.store.tryEvictChunk p with ⟨eviction, store⟩
  cases eviction <;> rfl

-- Between the two, the key at the head is listed nowhere.
structure Lacks (p : ChunkCoord) (s : InfiniteChunkSource γ) : Prop where
  once : s.evictionQueue.Nodup
  absent : p ∉ s.evictionQueue
  flagged : ∀ q, q ∈ s.evictionQueued ↔ q ∈ s.evictionQueue
  listed : ∀ q ∈ s.chunks, q ≠ p → q ∈ s.evictionQueue
  celled : ∀ q ∈ s.chunks, q ∈ s.cells

theorem Queued.dequeue (h : Queued s) {rest : List ChunkCoord} (hq : s.evictionQueue = p :: rest) :
    Lacks p (s.dequeue p rest) := by
  have honce : p ∉ rest ∧ rest.Nodup := List.nodup_cons.mp (hq ▸ h.once)
  refine ⟨honce.2, honce.1, fun q => ?_, fun q hk hne => ?_, h.celled⟩
  · rw [InfiniteChunkSource.dequeue, Finset.mem_erase, h.flagged, hq, List.mem_cons]
    constructor
    · rintro ⟨hne, he | hr⟩
      · exact (hne he).elim
      · exact hr
    · exact fun hr => ⟨fun he => honce.1 (he ▸ hr), .inr hr⟩
  · have hlisted := h.listed q hk
    rw [hq] at hlisted
    exact (List.mem_cons.mp hlisted).resolve_left hne

theorem Lacks.onNative (h : Lacks p s) (w : InfiniteWorld γ) : Lacks p { s with native := w } :=
  ⟨h.once, h.absent, h.flagged, h.listed, h.celled⟩

theorem Lacks.queued (h : Lacks p s) (hp : p ∉ s.chunks) : Queued s :=
  ⟨h.once, h.flagged, fun q hk => h.listed q hk fun he => hp (he ▸ hk), h.celled⟩

theorem Lacks.drop (h : Lacks p s) : Lacks p (s.drop p) where
  once := h.once
  absent := h.absent
  flagged := h.flagged
  listed q hk := h.listed q (Finset.mem_of_mem_erase hk)
  celled q hk := Finset.mem_erase.mpr
    ⟨Finset.ne_of_mem_erase hk, h.celled q (Finset.mem_of_mem_erase hk)⟩

theorem Lacks.enqueue (h : Lacks p s) : Queued (s.enqueue p) := by
  refine ⟨?_, fun q => ?_, fun q hk => ?_, h.celled⟩
  · refine List.nodup_append.mpr ⟨h.once, List.nodup_singleton p, fun a ha b hb => ?_⟩
    rw [List.mem_singleton.mp hb]
    exact fun he => h.absent (he ▸ ha)
  · simp [InfiniteChunkSource.enqueue, h.flagged, or_comm]
  · by_cases hne : q = p
    · simp [InfiniteChunkSource.enqueue, hne]
    · simp [InfiniteChunkSource.enqueue, h.listed q hk hne]

-- A key that stays goes back to the end of the queue.
theorem evictKey_queued (h : Lacks p s) : Queued ((evictKey p).exec s).2 := by
  rw [evictKey, exec_bind, exec_ofOp]
  simp only
  by_cases hp : p ∈ s.chunks
  · rw [if_neg (not_not.mpr hp), exec_bind, unload_exec hp (h.celled p hp)]
    have hgone (store : WorldStore) :
        Queued ({ s with native := s.native.withStore store }.drop p) :=
      (h.onNative _).drop.queued (by simp [InfiniteChunkSource.drop])
    have hstays (store : WorldStore) :
        Queued ({ s with native := s.native.withStore store }.enqueue p) := (h.onNative _).enqueue
    rcases s.native.store.tryEvictChunk p with ⟨eviction, store⟩
    cases eviction with
    | missing => exact hgone store
    | pinned => exact hstays store
    | dirty => exact hstays store
    | evicted => exact hgone store
  · rw [if_pos hp]
    exact h.queued hp

theorem evictLoop_moves (budget : Nat) : Moves (keeps Queued) (evictLoop (γ := γ) budget) := by
  induction budget with
  | zero => exact Moves.pure 0
  | succ budget ih =>
    intro s h
    rw [evictLoop, exec_bind, exec_ofOp]
    simp only
    cases hq : s.evictionQueue with
    | nil => exact h
    | cons p rest =>
      simp only
      rw [exec_bind, exec_ofOp]
      exact bind_keeps (evictKey_queued (h.dequeue hq)) fun _ => ih.bind fun _ => Moves.pure _

theorem evictCleanUnpinned_moves (budget : Int) :
    Moves (keeps Queued) (evictCleanUnpinned (γ := γ) budget) := by
  rw [evictCleanUnpinned]
  split
  · exact fail_moves _
  · exact evictLoop_moves _

theorem Queued.perform (h : Queued s) (action : ResidencyAction) :
    Queued (perform terrain action s) := by
  cases action with
  | getOrGenerate p => exact getOrGenerate_moves s h
  | chunkWork positions => exact prepare_moves positions s h
  | storageTick => exact h.onNative _
  | unload p => exact unload_moves s h
  | evictCleanUnpinned budget => exact evictCleanUnpinned_moves budget s h
  | take => exact h.onNative _
  | answer => exact h.onNative _
  | write => exact h.onNative _

theorem Attached.queued (h : Attached s) : Queued s where
  once := by simp [h.evictionQueue]
  flagged := by simp [h.evictionQueue, h.evictionQueued]
  listed := by simp [h.chunks]
  celled := by simp [h.chunks]

theorem Queued.count (h : Queued s) (hp : p ∈ s.chunks) : s.evictionQueue.count p = 1 :=
  List.count_eq_one_of_mem h.once (h.listed p hp)

end InfiniteChunkSource

end Cobblestone.Source
