import Cobblestone.Bridge.Step
import Cobblestone.World.Advance
import Cobblestone.World.InfiniteProof

namespace Cobblestone.Bridge

open Lib World Storage Region Async WorldStore

variable {s t : WorldStore} {p : ChunkCoord}

-- The same chunks are resident, with the same marks.
abbrev Steady (s t : WorldStore) : Prop := Grew (fun _ => False) s t

theorem Steady.of_advanced (h : Advanced s t) : Steady s t where
  kept p c hp := by
    obtain ⟨c', hc', hadvance⟩ := h.kept p c hp
    exact ⟨c', hc', hadvance.persistedTerrain⟩
  fresh p c hs ht := by
    rw [h.absent p hs] at ht
    cases ht

theorem pinChunk_steady : Steady s (s.pinChunk p).2 := .of_advanced .pinChunk

theorem unpinChunk_steady : Steady s (s.unpinChunk p).2 := .of_advanced .unpinChunk

theorem edit_rewrites {op : StoreOp} (h : isEdit op = true) : op.Rewrites := by
  cases op <;> trivial

theorem edit_steady {op : StoreOp} (h : isEdit op = true) : Steady s (op.apply s) :=
  .of_advanced (StoreOp.advanced (edit_rewrites h) s)

end Cobblestone.Bridge

namespace Cobblestone.Bridge

open Lib World Storage Region Async WorldStore WorldBridge

variable {γ : Type} {terrain : Int32 → Terrain γ} {initial : γ}
  {allowed : WorldBridge γ → Action → Prop} {b b' : WorldBridge γ} {p q : ChunkCoord}

-- The snapshots that a scheduling loop still has to submit.
def Call.batch : Call γ → List ChunkSnapshot
  | .scheduling rest _ => rest
  | .flushing rest => rest
  | _ => []

-- The positions that a generation still has to look up, once it may run.
def Call.pending : Call γ → Option (ChunkCoord × List ChunkCoord)
  | .requiring rest true _ target => some (target, rest)
  | .generating _ target => some (target, [])
  | _ => none

structure Books (b : WorldBridge γ) : Prop where
  flight : b.persistence.loads.requests +
    b.persistence.loads.completions.map LoadCompletion.position = b.persistence.loads.inFlight.val
  apart : ∀ p ∈ b.persistence.loads.inFlight, p ∉ b.persistence.loadMissing
  absent : ∀ p ∈ b.persistence.loads.inFlight, b.store.chunks p = none
  unread : ∀ p, .missing p ∈ b.persistence.loads.completions → b.durable p = none
  read : ∀ chunk, .loaded chunk ∈ b.persistence.loads.completions →
    b.durable chunk.position ≠ none
  missing : ∀ p ∈ b.persistence.loadMissing, b.store.chunks p = none ∧ b.durable p = none
  saving : ∀ s, .save s ∈ b.persistence.saves.commands →
    b.store.chunks s.position ≠ none ∨ b.durable s.position ≠ none
  receipts : ∀ r, .saved r ∈ b.persistence.saves.completions → b.durable r.position ≠ none
  marks : ∀ p c, b.store.chunks p = some c → c.persistedTerrainRevision ≠ none →
    b.durable p ≠ none

structure CallBooks (b : WorldBridge γ) : Prop where
  batch : ∀ s ∈ b.call.batch, b.store.chunks s.position ≠ none
  required : ∀ target rest, b.call.pending = some (target, rest) → ∀ p ∈ neighborhood target,
    p ∈ rest ∨ b.store.chunks p ≠ none ∨ p ∈ b.persistence.loadMissing

theorem Books.completion_inFlight (h : Books b) {c : LoadCompletion}
    (hc : c ∈ b.persistence.loads.completions) : c.position ∈ b.persistence.loads.inFlight := by
  rw [← Finset.mem_val, ← h.flight, Multiset.mem_add]
  exact .inr (Multiset.mem_map_of_mem _ hc)

theorem Books.request_inFlight (h : Books b) (hp : p ∈ b.persistence.loads.requests) :
    p ∈ b.persistence.loads.inFlight := by
  rw [← Finset.mem_val, ← h.flight, Multiset.mem_add]
  exact .inl hp

theorem Books.grow (h : Books b) {N : ChunkCoord → Prop} {store : WorldStore}
    (hg : Grew N b.store store)
    (hN : ∀ p, N p → p ∉ b.persistence.loads.inFlight ∧ p ∉ b.persistence.loadMissing) :
    Books (b.withStore store) where
  flight := h.flight
  apart := h.apart
  absent p hp := by
    cases hs : store.chunks p with
    | none => exact hs
    | some c => exact absurd hp (hN p (hg.fresh p c (h.absent p hp) hs).1).1
  unread := h.unread
  read := h.read
  missing p hp := by
    refine ⟨?_, (h.missing p hp).2⟩
    cases hs : store.chunks p with
    | none => exact hs
    | some c => exact absurd hp (hN p (hg.fresh p c (h.missing p hp).1 hs).1).2
  saving s hs := by
    refine (h.saving s hs).imp_left fun hr => ?_
    exact Option.isSome_iff_ne_none.mp (hg.isSome (Option.isSome_iff_ne_none.mpr hr))
  receipts := h.receipts
  marks p c hc hm := by
    cases hs : b.store.chunks p with
    | none => exact absurd (hg.fresh p c hs hc).2 hm
    | some d =>
      obtain ⟨c', hc', hmark⟩ := hg.kept p d hs
      cases hc.symm.trans hc'
      exact h.marks p d hs (by rwa [← hmark])

theorem CallBooks.grow (h : CallBooks b) {N : ChunkCoord → Prop} {store : WorldStore}
    (hg : Grew N b.store store) : CallBooks (b.withStore store) := by
  have hr {p : ChunkCoord} (hp : b.store.chunks p ≠ none) : store.chunks p ≠ none :=
    Option.isSome_iff_ne_none.mp (hg.isSome (Option.isSome_iff_ne_none.mpr hp))
  exact ⟨fun s hs => hr (h.batch s hs),
    fun target rest hcall p hp => (h.required target rest hcall p hp).imp_right (Or.imp_left hr)⟩

theorem CallBooks.settled (hb : b.call.batch = []) (hp : b.call.pending = none) : CallBooks b := by
  refine ⟨fun s hs => ?_, fun target rest hcall => ?_⟩
  · rw [hb] at hs
    cases hs
  · rw [hp] at hcall
    cases hcall

theorem Books.clearMissing (h : Books b) (p : ChunkCoord) :
    Books (b.withPersistence (b.persistence.clearMissing p)) where
  flight := h.flight
  apart q hq hm := h.apart q hq (Finset.mem_of_mem_erase hm)
  absent := h.absent
  unread := h.unread
  read := h.read
  missing q hq := h.missing q (Finset.mem_of_mem_erase hq)
  saving := h.saving
  receipts := h.receipts
  marks := h.marks

-- Bookkeeping that only concerns finished saves and compactions.
theorem Books.account (h : Books b) {n : NativeWorldPersistence} (hl : n.loads = b.persistence.loads)
    (hs : n.saves.commands = b.persistence.saves.commands)
    (hc : n.saves.completions = b.persistence.saves.completions)
    (hm : n.loadMissing = b.persistence.loadMissing) : Books (b.withPersistence n) where
  flight := by simpa only [withPersistence, hl] using h.flight
  apart := by simpa only [withPersistence, hl, hm] using h.apart
  absent := by simpa only [withPersistence, hl] using h.absent
  unread := by simpa only [withPersistence, hl] using h.unread
  read := by simpa only [withPersistence, hl] using h.read
  missing := by simpa only [withPersistence, hm] using h.missing
  saving := by simpa only [withPersistence, hs] using h.saving
  receipts := by simpa only [withPersistence, hc] using h.receipts
  marks := h.marks

theorem Books.withCall (h : Books b) (call : Call γ) : Books (b.withCall call) :=
  ⟨h.flight, h.apart, h.absent, h.unread, h.read, h.missing, h.saving, h.receipts, h.marks⟩

theorem Books.receiveLoad (h : Books b) {c : LoadCompletion} {rest : Multiset LoadCompletion}
    (hc : b.persistence.loads.completions = c ::ₘ rest) : Books (b.receiveLoad c rest) := by
  have hsub {d : LoadCompletion} (hd : d ∈ rest) : d ∈ b.persistence.loads.completions := by
    rw [hc]
    exact Multiset.mem_cons_of_mem hd
  constructor
  · have hf := h.flight
    rw [hc, Multiset.map_cons, Multiset.add_cons] at hf
    simp only [WorldBridge.receiveLoad, withLoads, withPersistence, LoadDesk.receive]
    rw [Finset.erase_val, ← hf, Multiset.erase_cons_head]
  · exact fun q hq => h.apart q (Finset.mem_of_mem_erase hq)
  · exact fun q hq => h.absent q (Finset.mem_of_mem_erase hq)
  · exact fun q hq => h.unread q (hsub hq)
  · exact fun chunk hq => h.read chunk (hsub hq)
  · exact h.missing
  · exact h.saving
  · exact h.receipts
  · exact h.marks

theorem receiveLoad_left (b : WorldBridge γ) (c : LoadCompletion) (rest : Multiset LoadCompletion) :
    c.position ∉ (b.receiveLoad c rest).persistence.loads.inFlight :=
  Finset.notMem_erase _ _

-- A chunk that is on disk may be put into the store with any marks.
theorem Books.put (h : Books b) (hf : p ∉ b.persistence.loads.inFlight)
    (hm : p ∉ b.persistence.loadMissing) (hd : b.durable p ≠ none) (c : ChunkRecord) :
    Books (b.withStore (b.store.setChunk p c)) where
  flight := h.flight
  apart := h.apart
  absent q hq := by
    have hne : q ≠ p := ne_of_mem_of_not_mem hq hf
    simpa [withStore, hne] using h.absent q hq
  unread := h.unread
  read := h.read
  missing q hq := by
    have hne : q ≠ p := ne_of_mem_of_not_mem hq hm
    simpa [withStore, hne] using h.missing q hq
  saving s hs := by
    by_cases hp : s.position = p
    · exact .inr (hp ▸ hd)
    · simpa [withStore, hp] using h.saving s hs
  receipts := h.receipts
  marks q d hq hmark := by
    by_cases hp : q = p
    · exact hp ▸ hd
    · rw [withStore, setChunk_of_ne _ _ hp] at hq
      exact h.marks q d hq hmark

theorem Books.importChunkIfAbsent (h : Books b) (hf : p ∉ b.persistence.loads.inFlight)
    (hm : p ∉ b.persistence.loadMissing) (hd : b.durable p ≠ none) (i : ChunkImport) :
    Books (b.withStore (b.store.importChunkIfAbsent p i).2) := by
  rw [WorldStore.importChunkIfAbsent]
  split
  · exact h
  · split
    · exact h
    · exact h.put hf hm hd _

theorem Books.applyLoadCompletion (h : Books b) {c : LoadCompletion}
    {rest : Multiset LoadCompletion} (hc : b.persistence.loads.completions = c ::ₘ rest) :
    Books ((b.receiveLoad c rest).applyLoadCompletion c).2 := by
  have hmem : c ∈ b.persistence.loads.completions := hc ▸ Multiset.mem_cons_self c rest
  have hreceived := h.receiveLoad hc
  have hleft := receiveLoad_left b c rest
  cases c with
  | loaded chunk =>
    have hcleared := hreceived.clearMissing chunk.position
    have hstored := hcleared.importChunkIfAbsent (p := chunk.position) hleft
      (Finset.notMem_erase _ _) (h.read chunk hmem) chunk.imported
    rw [WorldBridge.applyLoadCompletion]
    split
    · rename_i heq
      rwa [heq] at hstored
    · rename_i heq
      rwa [heq] at hstored
  | missing p =>
    have habsent := h.absent p (h.completion_inFlight hmem)
    refine ⟨hreceived.flight, fun q hq hm => ?_, hreceived.absent, hreceived.unread,
      hreceived.read, fun q hq => ?_, hreceived.saving, hreceived.receipts, hreceived.marks⟩
    · rcases Finset.mem_insert.mp hm with rfl | hm
      · exact hleft hq
      · exact hreceived.apart q hq hm
    · rcases Finset.mem_insert.mp hq with rfl | hq
      · exact ⟨habsent, h.unread q hmem⟩
      · exact hreceived.missing q hq
  | failed failure => exact hreceived

theorem Books.receiveSave (h : Books b) {c : SaveCompletion} {rest : Multiset SaveCompletion}
    (hc : b.persistence.saves.completions = c ::ₘ rest) : Books (b.receiveSave c rest) :=
  ⟨h.flight, h.apart, h.absent, h.unread, h.read, h.missing, h.saving,
    fun r hr => h.receipts r (hc ▸ Multiset.mem_cons_of_mem hr), h.marks⟩

theorem maybeQueueCompaction_frame (n : NativeWorldPersistence) (region : RegionCoord)
    (stats : RegionStats) :
    (n.maybeQueueCompaction region stats).loads = n.loads ∧
      (n.maybeQueueCompaction region stats).saves = n.saves ∧
      (n.maybeQueueCompaction region stats).loadMissing = n.loadMissing ∧
      (n.maybeQueueCompaction region stats).saveInFlight = n.saveInFlight := by
  rw [NativeWorldPersistence.maybeQueueCompaction]
  split
  · exact ⟨rfl, rfl, rfl, rfl⟩
  · split <;> exact ⟨rfl, rfl, rfl, rfl⟩

theorem recordReceipt_frame (n : NativeWorldPersistence) (receipt : SaveReceipt) :
    (n.recordReceipt receipt).2.loads = n.loads ∧ (n.recordReceipt receipt).2.saves = n.saves ∧
      (n.recordReceipt receipt).2.loadMissing = n.loadMissing ∧
      (n.recordReceipt receipt).2.saveInFlight = n.saveInFlight := by
  rw [NativeWorldPersistence.recordReceipt]
  split
  · exact ⟨rfl, rfl, rfl, rfl⟩
  · exact maybeQueueCompaction_frame _ _ _

theorem applyCompactionCompletion_frame (n : NativeWorldPersistence) (c : CompactionCompletion) :
    (n.applyCompactionCompletion c).2.loads = n.loads ∧
      (n.applyCompactionCompletion c).2.saves = n.saves ∧
      (n.applyCompactionCompletion c).2.loadMissing = n.loadMissing ∧
      (n.applyCompactionCompletion c).2.saveInFlight = n.saveInFlight := by
  cases c with
  | compacted receipt =>
    rw [NativeWorldPersistence.applyCompactionCompletion]
    dsimp only
    split
    · exact ⟨rfl, rfl, rfl, rfl⟩
    · split <;> exact ⟨rfl, rfl, rfl, rfl⟩
  | failed failure =>
    rw [NativeWorldPersistence.applyCompactionCompletion]
    dsimp only
    split <;> exact ⟨rfl, rfl, rfl, rfl⟩

theorem Books.markPersisted (h : Books b) (hd : b.durable p ≠ none) (terrain light : UInt64)
    (flags : UInt8) : Books (b.withStore (b.store.markPersisted p terrain light flags).2) := by
  rw [WorldStore.markPersisted]
  split
  · exact h
  · rw [WorldStore.withChunkMut]
    cases hc : b.store.chunks p with
    | none => exact h
    | some c =>
      refine h.put (fun hp => ?_) (fun hp => ?_) hd _
      · simp [h.absent p hp] at hc
      · simp [(h.missing p hp).1] at hc

theorem Books.applySaveCompletion (h : Books b) {c : SaveCompletion}
    {rest : Multiset SaveCompletion} (hc : b.persistence.saves.completions = c ::ₘ rest) :
    Books ((b.receiveSave c rest).applySaveCompletion c).2 := by
  have hreceived := h.receiveSave hc
  cases c with
  | saved receipt =>
    have hmem : .saved receipt ∈ b.persistence.saves.completions := hc ▸ Multiset.mem_cons_self _ _
    have hmarked := hreceived.markPersisted (h.receipts receipt hmem) receipt.terrainRevision
      receipt.lightRevision receipt.lifecycleFlags
    rw [WorldBridge.applySaveCompletion]
    split
    · rename_i heq
      rwa [heq] at hmarked
    · rename_i store heq
      rw [heq] at hmarked
      obtain ⟨hl, hs, hm, -⟩ :=
        recordReceipt_frame (b.receiveSave (.saved receipt) rest).persistence receipt
      exact hmarked.account hl (by rw [hs]; rfl) (by rw [hs]; rfl) hm
  | failed failure => exact hreceived

theorem Books.requestLoad (h : Books b) (hr : b.store.containsChunk p = false)
    (hm : b.isMissing p = false) (hf : p ∉ b.persistence.loads.inFlight) :
    Books (b.requestLoad p) where
  flight := by
    have hflight := h.flight
    simp only [WorldBridge.requestLoad, withLoads, withPersistence, LoadDesk.request]
    rw [Finset.insert_val_of_notMem hf, Multiset.cons_add, hflight]
  apart q hq := by
    rcases Finset.mem_insert.mp hq with rfl | hq
    · exact of_decide_eq_false hm
    · exact h.apart q hq
  absent q hq := by
    rcases Finset.mem_insert.mp hq with rfl | hq
    · have hnone : b.store.chunks q = none := by simpa [containsChunk] using hr
      exact hnone
    · exact h.absent q hq
  unread := h.unread
  read := h.read
  missing := h.missing
  saving := h.saving
  receipts := h.receipts
  marks := h.marks

theorem Books.scheduleSave (h : Books b) {s : ChunkSnapshot}
    (hs : b.store.chunks s.position ≠ none) : Books (b.scheduleSave s) where
  flight := h.flight
  apart := h.apart
  absent := h.absent
  unread := h.unread
  read := h.read
  missing := h.missing
  saving t ht := by
    rcases Multiset.mem_cons.mp ht with heq | ht
    · cases heq
      exact .inl hs
    · exact h.saving t ht
  receipts := h.receipts
  marks := h.marks

theorem Books.evict (h : Books b) (p : ChunkCoord) :
    Books (b.withStore (b.store.tryEvictChunk p).2) := by
  rw [tryEvictChunk]
  cases hc : b.store.chunks p with
  | none => exact h
  | some c =>
    dsimp only
    split
    · exact h
    · split
      · exact h
      · rename_i hclean
        have hd : b.durable p ≠ none := by
          refine h.marks p c hc ?_
          rw [((ChunkRecord.not_dirty_iff c).mp (Bool.eq_false_of_not_eq_true hclean)).1]
          exact Option.some_ne_none _
        have hgone {q : ChunkCoord} (hq : b.store.chunks q = none) :
            (b.store.removeChunk p).chunks q = none := by
          by_cases hqp : q = p
          · rw [hqp, removeChunk_self]
          · rw [removeChunk_of_ne _ hqp, hq]
        refine ⟨h.flight, h.apart, fun q hq => hgone (h.absent q hq), h.unread, h.read,
          fun q hq => ⟨hgone (h.missing q hq).1, (h.missing q hq).2⟩, fun s hs => ?_, h.receipts,
          fun q d hq => ?_⟩
        · by_cases hsp : s.position = p
          · exact .inr (hsp ▸ hd)
          · simpa [withStore, hsp] using h.saving s hs
        · by_cases hqp : q = p
          · exact fun _ => hqp ▸ hd
          · rw [withStore, removeChunk_of_ne _ hqp] at hq
            exact h.marks q d hq

-- Positions that are on nobody's list may reach the disk.
theorem Books.commit (h : Books b) {s : ChunkSnapshot}
    (hs : .save s ∈ b.persistence.saves.commands) :
    Books { b with durable := Function.update b.durable s.position (some s) } := by
  have hput {q : ChunkCoord} (hq : b.durable q ≠ none) :
      Function.update b.durable s.position (some s) q ≠ none := by
    by_cases hqs : q = s.position
    · simp [hqs]
    · simpa [hqs] using hq
  have hkeep {q : ChunkCoord} (hr : b.store.chunks q = none) (hd : b.durable q = none) :
      Function.update b.durable s.position (some s) q = none := by
    have hqs : q ≠ s.position := by
      rintro rfl
      exact (h.saving s hs).elim (fun hn => hn hr) (fun hn => hn hd)
    simpa [hqs] using hd
  refine ⟨h.flight, h.apart, h.absent, fun q hq => ?_, fun chunk hq => hput (h.read chunk hq),
    fun q hq => ⟨(h.missing q hq).1, hkeep (h.missing q hq).1 (h.missing q hq).2⟩,
    fun t ht => (h.saving t ht).imp_right hput, fun r hr => hput (h.receipts r hr),
    fun q c hq hm => hput (h.marks q c hq hm)⟩
  exact hkeep (h.absent q (h.completion_inFlight hq)) (h.unread q hq)

-- A worker's answer takes one command; a receipt is only given for what is on disk.
theorem Books.answerSave (h : Books b) {c : SaveCommand} {rest : Multiset SaveCommand}
    (hc : b.persistence.saves.commands = c ::ₘ rest) {e : SaveEvent}
    (he : ∀ r, e = .completion (.saved r) → b.durable r.position ≠ none) :
    Books (b.withSaves (b.persistence.saves.answer rest e)) := by
  have hsub {d : SaveCommand} (hd : d ∈ rest) : d ∈ b.persistence.saves.commands := by
    rw [hc]
    exact Multiset.mem_cons_of_mem hd
  cases e with
  | completion c =>
    refine ⟨h.flight, h.apart, h.absent, h.unread, h.read, h.missing,
      fun s hs => h.saving s (hsub hs), fun r hr => ?_, h.marks⟩
    rcases Multiset.mem_cons.mp hr with heq | hr
    · exact he r (by rw [heq])
    · exact h.receipts r hr
  | compaction c =>
    exact ⟨h.flight, h.apart, h.absent, h.unread, h.read, h.missing,
      fun s hs => h.saving s (hsub hs), h.receipts, h.marks⟩

theorem Books.answerLoad (h : Books b) {rest : Multiset ChunkCoord} {c : LoadCompletion}
    (hc : b.persistence.loads.requests = c.position ::ₘ rest)
    (hm : ∀ q, c = .missing q → b.durable q = none)
    (hl : ∀ chunk, c = .loaded chunk → b.durable chunk.position ≠ none) :
    Books (b.withLoads (b.persistence.loads.answer rest c)) where
  flight := by
    have hf := h.flight
    rw [hc, Multiset.cons_add] at hf
    simp only [withLoads, withPersistence, LoadDesk.answer]
    rw [Multiset.map_cons, Multiset.add_cons, hf]
  apart := h.apart
  absent := h.absent
  unread q hq := by
    rcases Multiset.mem_cons.mp hq with heq | hq
    · exact hm q heq.symm
    · exact h.unread q hq
  read chunk hq := by
    rcases Multiset.mem_cons.mp hq with heq | hq
    · exact hl chunk heq.symm
    · exact h.read chunk hq
  missing := h.missing
  saving := h.saving
  receipts := h.receipts
  marks := h.marks

theorem Books.disk (h : Books b) (hs : DiskStep b b') : Books b' := by
  cases hs with
  | @saved s rest result hc =>
    have hmem : .save s ∈ b.persistence.saves.commands := hc ▸ Multiset.mem_cons_self _ _
    refine (h.commit hmem).answerSave hc fun r hr => ?_
    cases hr
    simp [saveReceipt]
  | @saveFailed s rest error durable hc hd =>
    have hmem : .save s ∈ b.persistence.saves.commands := hc ▸ Multiset.mem_cons_self _ _
    rcases hd with rfl | rfl
    · exact h.answerSave hc fun r hr => nomatch hr
    · exact (h.commit hmem).answerSave hc fun r hr => nomatch hr
  | compacted hc => exact h.answerSave hc fun r hr => nomatch hr
  | @loaded p rest s chunk hc hd hp hi =>
    refine h.answerLoad (by rw [hc, ← hp]; rfl) (fun q hq => nomatch hq) fun d hq => ?_
    cases hq
    rw [hp, hd]
    exact Option.some_ne_none s
  | @missing p rest hc hd =>
    refine h.answerLoad hc (fun q hq => ?_) fun d hq => nomatch hq
    cases hq
    exact hd
  | loadFailed hc => exact h.answerLoad hc (fun q hq => nomatch hq) fun d hq => nomatch hq

theorem clearMissing_fold (positions : List ChunkCoord) (n : NativeWorldPersistence) :
    positions.foldl NativeWorldPersistence.clearMissing n =
      { n with loadMissing := n.loadMissing.filter (· ∉ positions) } := by
  induction positions generalizing n with
  | nil => simp
  | cons p positions ih =>
    rw [List.foldl_cons, ih, NativeWorldPersistence.clearMissing]
    congr 1
    ext q
    simp only [Finset.mem_filter, Finset.mem_erase, List.mem_cons, not_or]
    tauto

theorem Books.clearMissingAfterGeneration (h : Books b) (positions : List ChunkCoord) :
    Books (b.clearMissingAfterGeneration positions) := by
  rw [WorldBridge.clearMissingAfterGeneration]
  induction positions generalizing b with
  | nil => exact h
  | cons p positions ih => exact ih (h.clearMissing p)

theorem mem_neighborhood {target : ChunkCoord} : p ∈ neighborhood target ↔ Around target p := by
  simp [neighborhood, eq_comm]

theorem Books.ensureChunk (h : Books b) (hf : p ∉ b.persistence.loads.inFlight) (biome : UInt8) :
    Books (b.ensureChunk p biome) := by
  rw [WorldBridge.ensureChunk, WorldStore.ensureChunk]
  cases defaultBiomeWord biome with
  | none => exact h
  | some word =>
    cases hr : b.store.containsChunk p with
    | true => exact h
    | false =>
      have hnone : b.store.chunks p = none := by simpa [containsChunk] using hr
      have hg : Grew (· = p) b.store (b.store.setChunk p (ChunkRecord.empty word)) := by
        constructor
        · intro q c hq
          have hne : q ≠ p := by
            rintro rfl
            simp [hnone] at hq
          exact ⟨c, by rw [setChunk_of_ne _ _ hne, hq], rfl⟩
        · intro q c hq hc
          by_cases hqp : q = p
          · subst hqp
            rw [setChunk_self] at hc
            cases hc
            exact ⟨rfl, rfl⟩
          · rw [setChunk_of_ne _ _ hqp, hq] at hc
            cases hc
      refine (h.clearMissing p).grow (N := (· = p)) hg fun q hq => ?_
      subst hq
      exact ⟨hf, Finset.notMem_erase _ _⟩

-- The condition: a chunk is ensured only while no load of it is in flight, and a generation that
-- fails has not made resident a chunk that is recorded as missing.
def calm (terrain : Int32 → Terrain γ) (initial : γ) (b : WorldBridge γ) : Action → Prop
  | .ensureChunk p => p ∉ b.persistence.loads.inFlight
  | .generate seed target => ∀ runtime, b.ensureRuntime initial seed = some runtime →
    ∀ e g, b.runGenerator terrain runtime target = (.error e, g) →
      ∀ p ∈ b.persistence.loadMissing, g.store.chunks p = none

theorem runGenerator_grew (terrain : Int32 → Terrain γ) (b : WorldBridge γ)
    (runtime : NativeInfiniteGenerator γ) (target : ChunkCoord) :
    Grew (Around target) b.store (b.runGenerator terrain runtime target).2.store :=
  generateIntoStore_spreads ⟨runtime.state, b.store⟩

theorem runGenerator_ok {runtime : NativeInfiniteGenerator γ} {target : ChunkCoord}
    {result : InfiniteGenerationResult} {g : OverworldInfinite γ}
    (h : b.runGenerator terrain runtime target = (.ok result, g)) :
    result.generatedCenter = true ∨ g.store = b.store := by
  rw [runGenerator] at h
  rcases generateIntoStore_ok h with hc | hg
  · exact .inl hc
  · exact .inr (by rw [hg])

theorem Books.withInfinite (h : Books b) (infinite : Option (NativeInfiniteGenerator γ)) :
    Books { b with infinite := infinite } :=
  ⟨h.flight, h.apart, h.absent, h.unread, h.read, h.missing, h.saving, h.receipts, h.marks⟩

theorem Books.generate (h : Books b) (hb : CallBooks b) {seed : Int32} {target : ChunkCoord}
    {runtime : NativeInfiniteGenerator γ} (hcall : b.call = .generating seed target)
    (hr : b.ensureRuntime initial seed = some runtime)
    (hcalm : calm terrain initial b (.generate seed target)) :
    Books (b.generate terrain runtime target) := by
  have hgrew := runGenerator_grew terrain b runtime target
  -- Whatever the generation makes resident was recorded as missing, so no load of it is in flight.
  have hfresh : Grew (fun p => Around target p ∧ p ∈ b.persistence.loadMissing) b.store
      (b.runGenerator terrain runtime target).2.store := by
    refine ⟨hgrew.kept, fun p c hn hc => ⟨⟨(hgrew.fresh p c hn hc).1, ?_⟩, (hgrew.fresh p c hn hc).2⟩⟩
    have hp : p ∈ neighborhood target := mem_neighborhood.mpr (hgrew.fresh p c hn hc).1
    rcases hb.required target [] (by rw [hcall]; rfl) p hp with hp | hp | hp
    · cases hp
    · exact absurd hn hp
    · exact hp
  have hok (result : InfiniteGenerationResult) (g : OverworldInfinite γ)
      (hrun : b.runGenerator terrain runtime target = (.ok result, g)) := runGenerator_ok hrun
  have hnone := hcalm runtime hr
  rw [WorldBridge.generate]
  generalize b.runGenerator terrain runtime target = run at hfresh hok hnone
  obtain ⟨result, g⟩ := run
  cases result with
  | error e =>
    refine (h.grow (N := fun _ => False) ⟨hfresh.kept, fun p c hn hc => ?_⟩
      fun _ hp => hp.elim).withInfinite _
    have hm := (hfresh.fresh p c hn hc).1.2
    simp [hnone e g rfl p hm] at hc
  | ok result =>
    cases hcenter : result.generatedCenter with
    | true =>
      have hcleared := h.clearMissingAfterGeneration (neighborhood target)
      rw [WorldBridge.clearMissingAfterGeneration, clearMissing_fold] at hcleared
      have hgen := hcleared.grow hfresh fun p hp =>
        ⟨fun hf => h.apart p hf hp.2, fun hm => ?_⟩
      · simp only [hcenter, if_true, WorldBridge.clearMissingAfterGeneration, clearMissing_fold]
        exact hgen.withInfinite _
      · have hout := (Finset.mem_filter.mp hm).2
        exact absurd (mem_neighborhood.mpr hp.1) (by simpa using hout)
    | false =>
      have hsame := (hok result g rfl).resolve_left (by simp [hcenter])
      have hsteady : Steady b.store g.store := by
        rw [hsame]
        exact Grew.refl b.store
      simp only [hcenter, Bool.false_eq_true, if_false]
      exact (h.grow hsteady fun _ hp => hp.elim).withInfinite _

theorem DirtyBatch.resident {limit : Nat} {excluded : Finset ChunkCoord} {batch : List ChunkSnapshot}
    (h : DirtyBatch b.store limit excluded batch) (s : ChunkSnapshot) (hs : s ∈ batch) :
    b.store.chunks s.position ≠ none := by
  obtain ⟨c, hc, -⟩ := h.taken s hs
  simp [hc]

theorem CallBooks.control (h : CallBooks b) {call : Call γ} (hs : ControlStep b b.call call) :
    CallBooks (b.withCall call) := by
  have hrequired := h.required
  have hbatch := h.batch
  generalize b.call = before at hs hrequired hbatch
  cases hs with
  | polled =>
    rename_i completed budget next
    cases next with
    | generate seed target =>
      refine ⟨fun s hs => absurd hs List.not_mem_nil, fun _ _ hcall p hp => ?_⟩
      cases hcall
      exact .inl hp
    | _ => exact .settled rfl rfl
  | @satisfied p rest ready seed target hr =>
    cases ready with
    | false => exact .settled rfl rfl
    | true =>
      refine ⟨fun s hs => absurd hs List.not_mem_nil, fun _ _ hcall q hq => ?_⟩
      cases hcall
      rcases hrequired target (p :: rest) rfl q hq with hq | hq
      · rcases List.mem_cons.mp hq with rfl | hq
        · rcases hr with hr | hr
          · exact .inr (.inl (Option.isSome_iff_ne_none.mp hr))
          · exact .inr (.inr (of_decide_eq_true hr))
        · exact .inl hq
      · exact .inr hq
  | @ready seed target =>
    refine ⟨fun s hs => absurd hs List.not_mem_nil, fun _ _ hcall q hq => ?_⟩
    cases hcall
    exact hrequired target [] rfl q hq
  | collected hb => exact ⟨hb.resident, fun _ _ hcall => nomatch hcall⟩
  | settled hb => exact ⟨hb.resident, fun _ _ hcall => nomatch hcall⟩
  | _ => exact .settled rfl rfl

structure Sound (b : WorldBridge γ) : Prop where
  books : Books b
  calls : CallBooks b

theorem Sound.idle (h : Books b) : Sound (b.withCall .idle) := ⟨h.withCall _, .settled rfl rfl⟩

theorem Sound.steady (h : Sound b) {store : WorldStore} (hg : Steady b.store store) :
    Sound (b.withStore store) :=
  ⟨h.books.grow hg fun _ hp => hp.elim, h.calls.grow hg⟩

theorem Sound.next (h : Books b) {call : Call γ} (hb : call.batch = []) (hp : call.pending = none) :
    Sound (b.withCall call) :=
  ⟨h.withCall call, .settled hb hp⟩

theorem applySaveCompletion_call {c : SaveCompletion} : (b.applySaveCompletion c).2.call = b.call := by
  cases c with
  | saved receipt =>
    rw [WorldBridge.applySaveCompletion]
    split <;> rfl
  | failed failure => rfl

theorem Books.receiveCompaction (h : Books b) (rest : Multiset CompactionCompletion)
    (c : CompactionCompletion) :
    Books ((b.receiveCompaction rest).applyCompactionCompletion c).2 := by
  obtain ⟨hl, hs, hm, -⟩ := applyCompactionCompletion_frame (b.receiveCompaction rest).persistence c
  have hcommands := congrArg SaveDesk.commands hs
  have hcompletions := congrArg SaveDesk.completions hs
  exact h.account hl hcommands hcompletions hm

theorem Books.afterLoad (h : Books b) {c : LoadCompletion} {rest : Multiset LoadCompletion}
    (hc : b.persistence.loads.completions = c ::ₘ rest) {result : Except BridgeError Unit}
    (hr : (b.receiveLoad c rest).applyLoadCompletion c = (result, b')) : Books b' := by
  have hbooks := h.applyLoadCompletion hc
  rwa [hr] at hbooks

theorem Books.afterSave (h : Books b) {c : SaveCompletion} {rest : Multiset SaveCompletion}
    (hc : b.persistence.saves.completions = c ::ₘ rest) {result : Except BridgeError Unit}
    (hr : (b.receiveSave c rest).applySaveCompletion c = (result, b')) : Books b' := by
  have hbooks := h.applySaveCompletion hc
  rwa [hr] at hbooks

theorem Books.afterCompaction (h : Books b) {c : CompactionCompletion}
    {rest : Multiset CompactionCompletion} {result : Except BridgeError Bool}
    (hr : (b.receiveCompaction rest).applyCompactionCompletion c = (result, b')) : Books b' := by
  have hbooks := h.receiveCompaction rest c
  rwa [hr] at hbooks

theorem Sound.stay (h : Books b) {call : Call γ} (hcall : b.call = call) (hb : call.batch = [])
    (hp : call.pending = none) : Sound b :=
  ⟨h, .settled (hcall ▸ hb) (hcall ▸ hp)⟩

theorem Sound.schedule (h : Sound b) {s : ChunkSnapshot} {rest : List ChunkSnapshot} {call : Call γ}
    (hcall : b.call.batch = s :: rest) (hb : call.batch = rest) (hp : call.pending = none) :
    Sound ((b.scheduleSave s).withCall call) := by
  refine ⟨(h.books.scheduleSave (h.calls.batch s (by simp [hcall]))).withCall _, ?_, ?_⟩
  · intro t ht
    refine h.calls.batch t ?_
    rw [hcall]
    exact List.mem_cons_of_mem _ (hb ▸ ht)
  · intro target positions heq
    cases hp.symm.trans heq

theorem Sound.step (h : Sound b) (hs : BridgeStep terrain initial (calm terrain initial) b b') :
    Sound b' := by
  cases hs with
  | disk hd => exact ⟨h.books.disk hd, by cases hd <;> exact ⟨h.calls.batch, h.calls.required⟩⟩
  | control hc => exact ⟨h.books.withCall _, h.calls.control hc⟩
  | pin p => exact h.steady pinChunk_steady
  | unpin p => exact h.steady unpinChunk_steady
  | edit hcall he => exact h.steady (edit_steady he)
  | evict hcall p => exact .stay (h.books.evict p) hcall rfl rfl
  | ensureChunk hcall p biome ha =>
    have hsame : (b.ensureChunk p biome).call = .idle := by
      rw [WorldBridge.ensureChunk]
      split <;> exact hcall
    exact .stay (h.books.ensureChunk ha biome) hsame rfl rfl
  | requestLoad hcall hr hm hf => exact .stay (h.books.requestLoad hr hm hf) hcall rfl rfl
  | pollOne hcall hb hc hr => exact .next (h.books.afterLoad hc hr) rfl rfl
  | pollFailed hcall hb hc hr => exact .idle (h.books.afterLoad hc hr)
  | queued hcall hr hm hf => exact .next (h.books.requestLoad hr hm hf) rfl rfl
  | queuedRequired hcall hr hm hf => exact .next (h.books.requestLoad hr hm hf) rfl rfl
  | generate hcall hr ha => exact .idle (h.books.generate h.calls hcall hr ha)
  | takeCompaction hcall hb hc hr => exact .next (h.books.afterCompaction hr) rfl rfl
  | drainCompaction hcall hc hr =>
    have hsame := congrArg (fun x => x.2.call) hr
    exact .stay (h.books.afterCompaction hr) (hsame.symm.trans hcall) rfl rfl
  | compactionFailed hcall hc hr => exact .idle (h.books.afterCompaction hr)
  | collectOne hcall hb hc hr => exact .next (h.books.afterSave hc hr) rfl rfl
  | settleOne hcall hc hr =>
    have hsame := congrArg (fun x => x.2.call) hr
    exact .stay (h.books.afterSave hc hr)
      (hsame.symm.trans (applySaveCompletion_call.trans hcall)) rfl rfl
  | waitOne hcall hc hr => exact .next (h.books.afterSave hc hr) rfl rfl
  | saveFailed hcall hc hr => exact .idle (h.books.afterSave hc hr)
  | schedule hcall => exact h.schedule (by rw [hcall]; rfl) rfl rfl
  | flushOne hcall => exact h.schedule (by rw [hcall]; rfl) rfl rfl
  | skipCompaction hcall hb hq hw => exact .stay (h.books.account rfl rfl rfl rfl) hcall rfl rfl
  | @startCompaction scheduled budget region rest hcall hb hq hw =>
    have hbooks : Books (b.withPersistence
        ((b.persistence.popCompaction region rest).startCompaction region)) := by
      refine ⟨h.books.flight, h.books.apart, h.books.absent, h.books.unread, h.books.read,
        h.books.missing, fun s hs => ?_, h.books.receipts, h.books.marks⟩
      rcases Multiset.mem_cons.mp hs with heq | hs
      · cases heq
      · exact h.books.saving s hs
    exact .next hbooks rfl rfl
  | @compactionBackpressure scheduled budget region rest hcall hb hq hw =>
    have hbooks : Books (b.withPersistence
        ((b.persistence.popCompaction region rest).requeueCompaction region)) :=
      h.books.account rfl rfl rfl rfl
    exact .next hbooks rfl rfl
  | @compactionClosed scheduled budget region rest hcall hb hq hw =>
    have hbooks : Books (b.withPersistence (b.persistence.popCompaction region rest)) :=
      h.books.account rfl rfl rfl rfl
    exact .idle hbooks
  | @written state hcall =>
    have hbooks : Books (b.written state) := ⟨h.books.flight, h.books.apart, h.books.absent,
      h.books.unread, h.books.read, h.books.missing, h.books.saving, h.books.receipts, h.books.marks⟩
    exact .idle hbooks
  | @writeFailed state file hcall hf =>
    have hbooks : Books { b with generatorState := file } := ⟨h.books.flight, h.books.apart,
      h.books.absent, h.books.unread, h.books.read, h.books.missing, h.books.saving,
      h.books.receipts, h.books.marks⟩
    exact .idle hbooks

theorem Attached.sound (h : Attached b) : Sound b := by
  obtain ⟨⟨store, durable, generatorId, policy, infinite, generatorState, rfl⟩, hunsaved, -⟩ := h
  refine .stay ⟨rfl, fun p hp => ?_, fun p hp => ?_, fun p hp => ?_, fun p hp => ?_,
    fun p hp => ?_, fun s hs => ?_, fun r hr => ?_, fun p c hc hm => ?_⟩ rfl rfl rfl
  · exact absurd hp (Finset.notMem_empty p)
  · exact absurd hp (Finset.notMem_empty p)
  · exact absurd hp (Multiset.notMem_zero _)
  · exact absurd hp (Multiset.notMem_zero _)
  · exact absurd hp (Finset.notMem_empty p)
  · exact absurd hs (Multiset.notMem_zero _)
  · exact absurd hr (Multiset.notMem_zero _)
  · exact absurd (hunsaved p c hc) hm

-- A load in flight is not recorded as missing; what is recorded as missing is neither resident nor
-- on disk.
structure LoadsConsistent (b : WorldBridge γ) : Prop where
  flight : ∀ p ∈ b.persistence.loads.inFlight, p ∉ b.persistence.loadMissing
  missing : ∀ p ∈ b.persistence.loadMissing, b.store.containsChunk p = false ∧ b.durable p = none

theorem missing_positions_absent (h : BridgeReachable terrain initial (calm terrain initial) b) :
    LoadsConsistent b := by
  obtain ⟨start, hstart, hrun⟩ := h
  have hsound := invariant_of_run Sound hrun hstart.sound fun _ _ hs hstep => hs.step hstep
  refine ⟨hsound.books.apart, fun p hp => ⟨?_, (hsound.books.missing p hp).2⟩⟩
  simp [containsChunk, (hsound.books.missing p hp).1]

section

local instance nineChunks : NeZero 9 := ⟨by decide⟩

def flatTerrain : Int32 → Terrain Unit := fun _ =>
  { carve := fun _ => ⟨List.replicate chunkBlockCount 0, List.replicate chunkColumnCount 0,
      List.replicate chunkColumnCount 0⟩
    addFeatures := fun _ _ => ()
    populate := fun _ _ planes => ((), planes, ⟨(planes 4).generationHeightMap,
      List.replicate chunkNibbleBytes 0, List.replicate chunkNibbleBytes 0⟩) }

def spawn : ChunkCoord := ⟨0, 0⟩

def newWorld : WorldBridge Unit := .attach .new (fun _ => none) infiniteGeneratorId none
  (some ⟨0, (), false⟩) none

theorem newWorld_attached : Attached newWorld :=
  ⟨⟨_, _, _, _, _, _, rfl⟩, fun p c hc => absurd hc nofun, fun _ => ⟨_, rfl, rfl⟩⟩

-- From an idle bridge with one load of the spawn chunk under way, a tick polls the miss.
theorem miss_polled {b : WorldBridge Unit} {allowed : WorldBridge Unit → Action → Prop}
    (h : BridgeReachable flatTerrain () allowed b) (hcall : b.call = .idle)
    (hrequests : b.persistence.loads.requests = {spawn}) (hnone : b.durable spawn = none)
    (hdone : b.persistence.loads.completions = 0) :
    ∃ b', BridgeReachable flatTerrain () allowed b' ∧ spawn ∈ b'.persistence.loadMissing ∧
      b'.store = b.store := by
  obtain ⟨start, hstart, hrun⟩ := h
  have htick : ControlStep b b.call (.polling 0 1 (.tick 1)) := by
    rw [hcall]
    exact .tick (by decide) (by decide)
  have hread := DiskStep.missing (b := b.withCall (.polling 0 1 (.tick 1))) hrequests hnone
  have hanswered : ((b.withCall (.polling 0 1 (.tick 1))).withLoads
      (b.persistence.loads.answer 0 (.missing spawn))).persistence.loads.completions =
        .missing spawn ::ₘ 0 := by
    simp [withLoads, withPersistence, LoadDesk.answer, hdone]
  exact ⟨_, ⟨start, hstart, ((hrun.tail (.control htick)).tail (.disk hread)).tail
    (.pollOne rfl (by decide) hanswered rfl)⟩, Finset.mem_insert_self _ _, rfl⟩

theorem requested_reachable (allowed : WorldBridge Unit → Action → Prop) :
    BridgeReachable flatTerrain () allowed (newWorld.requestLoad spawn) :=
  ⟨newWorld, newWorld_attached, .single (.requestLoad rfl rfl rfl (Finset.notMem_empty _))⟩

theorem missing_positions_absent_polled : ∃ b : WorldBridge Unit,
    BridgeReachable flatTerrain () (calm flatTerrain ()) b ∧
      spawn ∈ b.persistence.loadMissing ∧ LoadsConsistent b := by
  obtain ⟨b, hb, hm, -⟩ := miss_polled (requested_reachable _) rfl rfl rfl rfl
  exact ⟨b, hb, hm, missing_positions_absent hb⟩

theorem ensured_while_loading : ∃ b : WorldBridge Unit,
    BridgeReachable flatTerrain () (fun _ _ => True) b ∧ ¬ LoadsConsistent b := by
  obtain ⟨start, hstart, hrun⟩ := requested_reachable fun _ _ => True
  have hensured : BridgeReachable flatTerrain () (fun _ _ => True)
      ((newWorld.requestLoad spawn).ensureChunk spawn 1) :=
    ⟨start, hstart, hrun.tail (.ensureChunk rfl spawn 1 trivial)⟩
  have hresident : ((newWorld.requestLoad spawn).ensureChunk spawn 1).store.containsChunk spawn =
      true := by
    rfl
  obtain ⟨b, hb, hm, hstore⟩ := miss_polled hensured rfl rfl rfl rfl
  refine ⟨b, hb, fun h => ?_⟩
  rw [← hstore] at hresident
  simp [(h.missing spawn hm).1] at hresident

end

end Cobblestone.Bridge
