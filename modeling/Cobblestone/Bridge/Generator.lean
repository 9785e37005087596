import Cobblestone.Bridge.Missing

namespace Cobblestone.Bridge

open Lib World Storage Region Async WorldStore WorldBridge

variable {γ : Type} {terrain : Int32 → Terrain γ} {initial : γ}
  {allowed : WorldBridge γ → Action → Prop} {b b' : WorldBridge γ} {p q : ChunkCoord}

def savePosition : SaveCommand → Option ChunkCoord
  | .save s => some s.position
  | .compact _ => none

-- The positions whose saves the service has accepted and whose completions are not yet applied.
def SaveDesk.positions (d : SaveDesk) : Multiset ChunkCoord :=
  d.commands.filterMap savePosition + d.completions.map completionPosition

-- Calls that have found nothing dirty and no save in flight.
def Call.settled : Call γ → Bool
  | .flushed => true
  | .persisting => true
  | .writing _ => true
  | _ => false

structure SaveBooks (b : WorldBridge γ) : Prop where
  flight : b.persistence.saves.positions = b.persistence.saveInFlight.val
  nodup : (b.call.batch.map ChunkSnapshot.position).Nodup
  free : ∀ s ∈ b.call.batch, s.position ∉ b.persistence.saveInFlight
  clean : b.call.settled = true → b.persistence.saveInFlight = ∅ ∧
    ∀ p c, b.store.chunks p = some c → c.isDirty = false

theorem SaveBooks.next (hf : b.persistence.saves.positions = b.persistence.saveInFlight.val)
    {call : Call γ} (hb : call.batch = []) (hs : call.settled = false) :
    SaveBooks (b.withCall call) where
  flight := hf
  nodup := by simp [withCall, hb]
  free s h := by
    rw [withCall, hb] at h
    cases h
  clean h := by
    rw [withCall, hs] at h
    cases h

theorem SaveBooks.stay (hf : b.persistence.saves.positions = b.persistence.saveInFlight.val)
    {call : Call γ} (hcall : b.call = call) (hb : call.batch = []) (hs : call.settled = false) :
    SaveBooks b := by
  subst hcall
  exact SaveBooks.next hf hb hs

theorem SaveBooks.withStore (h : SaveBooks b) {store : WorldStore}
    (hclean : (∀ p c, b.store.chunks p = some c → c.isDirty = false) →
      ∀ p c, store.chunks p = some c → c.isDirty = false) : SaveBooks (b.withStore store) :=
  ⟨h.flight, h.nodup, h.free, fun hs => ⟨(h.clean hs).1, hclean (h.clean hs).2⟩⟩

theorem withChunkMut_clean {α : Type} {s : WorldStore}
    {operation : ChunkRecord → Except WorldStoreError α × ChunkRecord}
    (hop : ∀ c, (operation c).2.isDirty = c.isDirty)
    (h : ∀ p c, s.chunks p = some c → c.isDirty = false) :
    ∀ q c, (s.withChunkMut p operation).2.chunks q = some c → c.isDirty = false := by
  intro q c hc
  rw [withChunkMut] at hc
  cases hp : s.chunks p with
  | none =>
    rw [hp] at hc
    exact h q c hc
  | some d =>
    rw [hp] at hc
    by_cases hqp : q = p
    · subst hqp
      rw [setChunk_self] at hc
      cases hc
      rw [hop, h q d hp]
    · rw [setChunk_of_ne _ _ hqp] at hc
      exact h q c hc

theorem positions_submit (d : SaveDesk) (s : ChunkSnapshot) :
    (d.submit (.save s)).positions = s.position ::ₘ d.positions := by
  simp [SaveDesk.positions, SaveDesk.submit, savePosition, Multiset.filterMap_cons_some]

theorem positions_answer {d : SaveDesk} {c : SaveCommand} {rest : Multiset SaveCommand}
    {e : SaveEvent} (hc : d.commands = c ::ₘ rest)
    (he : match e with
      | .completion r => savePosition c = some (completionPosition r)
      | .compaction _ => savePosition c = none) : (d.answer rest e).positions = d.positions := by
  cases e with
  | completion r =>
    rw [SaveDesk.positions, SaveDesk.positions, hc, Multiset.filterMap_cons_some _ _ _ he]
    simp [SaveDesk.answer, Multiset.add_cons, Multiset.cons_add]
  | compaction r =>
    rw [SaveDesk.positions, SaveDesk.positions, hc, Multiset.filterMap_cons_none _ _ he]
    rfl

theorem SaveBooks.disk (h : SaveBooks b) (hs : DiskStep b b') : SaveBooks b' := by
  cases hs with
  | saved hc => exact ⟨(positions_answer hc rfl).trans h.flight, h.nodup, h.free, h.clean⟩
  | saveFailed hc hd => exact ⟨(positions_answer hc rfl).trans h.flight, h.nodup, h.free, h.clean⟩
  | compacted hc => exact ⟨(positions_answer hc rfl).trans h.flight, h.nodup, h.free, h.clean⟩
  | loaded => exact ⟨h.flight, h.nodup, h.free, h.clean⟩
  | missing => exact ⟨h.flight, h.nodup, h.free, h.clean⟩
  | loadFailed => exact ⟨h.flight, h.nodup, h.free, h.clean⟩

theorem DirtyBatch.clean (h : DirtyBatch b.store 1 b.persistence.saveInFlight [])
    (hs : b.persistence.saveInFlight = ∅) (p : ChunkCoord) (c : ChunkRecord)
    (hc : b.store.chunks p = some c) : c.isDirty = false := by
  by_contra hd
  have hp := h.complete (by decide) p c hc (Bool.eq_true_of_not_eq_false hd) (by simp [hs])
  cases hp

theorem SaveBooks.control (h : SaveBooks b) {call : Call γ} (hs : ControlStep b b.call call) :
    SaveBooks (b.withCall call) := by
  have hclean := h.clean
  generalize b.call = before at hs hclean
  cases hs with
  | collected hb => exact ⟨h.flight, hb.nodup, fun s hs => (hb.taken s hs).choose_spec.2.2.2,
      fun hc => nomatch hc⟩
  | settled hb => exact ⟨h.flight, hb.nodup, fun s hs => (hb.taken s hs).choose_spec.2.2.2,
      fun hc => nomatch hc⟩
  | permitted hb hs =>
    exact ⟨h.flight, List.nodup_nil, fun s hs => absurd hs List.not_mem_nil,
      fun _ => ⟨hs, hb.clean hs⟩⟩
  | flushed hb hs =>
    exact ⟨h.flight, List.nodup_nil, fun s hs => absurd hs List.not_mem_nil,
      fun _ => ⟨hs, hb.clean hs⟩⟩
  | persistAfterFlush =>
    exact ⟨h.flight, List.nodup_nil, fun s hs => absurd hs List.not_mem_nil, fun _ => hclean rfl⟩
  | write =>
    exact ⟨h.flight, List.nodup_nil, fun s hs => absurd hs List.not_mem_nil, fun _ => hclean rfl⟩
  | polled =>
    rename_i next
    cases next <;> exact .next h.flight rfl rfl
  | _ => exact .next h.flight rfl rfl

theorem SaveBooks.schedule (h : SaveBooks b) {s : ChunkSnapshot} {rest : List ChunkSnapshot}
    {call : Call γ} (hcall : b.call.batch = s :: rest) (hb : call.batch = rest)
    (hs : call.settled = false) : SaveBooks ((b.scheduleSave s).withCall call) := by
  have hnodup := h.nodup
  rw [hcall, List.map_cons, List.nodup_cons] at hnodup
  have hfree : s.position ∉ b.persistence.saveInFlight := h.free s (by simp [hcall])
  refine ⟨?_, ?_, fun t ht => ?_, fun hc => ?_⟩
  · exact (positions_submit _ s).trans
      ((congrArg _ h.flight).trans (Finset.insert_val_of_notMem hfree).symm)
  · rw [withCall, hb]
    exact hnodup.2
  · rw [withCall, hb] at ht
    have hne : t.position ≠ s.position := by
      intro heq
      exact hnodup.1 (heq ▸ List.mem_map_of_mem ht)
    have hold : t.position ∉ b.persistence.saveInFlight :=
      h.free t (by rw [hcall]; exact List.mem_cons_of_mem _ ht)
    intro hin
    rcases Finset.mem_insert.mp hin with heq | hin
    · exact hne heq
    · exact hold hin
  · rw [withCall, hs] at hc
    cases hc

-- The service and the in-flight set of the bridge agree.
abbrev Flown (n : NativeWorldPersistence) : Prop := n.saves.positions = n.saveInFlight.val

theorem Flown.receiveSave (h : Flown b.persistence) {c : SaveCompletion}
    {rest : Multiset SaveCompletion} (hc : b.persistence.saves.completions = c ::ₘ rest) :
    Flown (b.receiveSave c rest).persistence := by
  have hf := h
  rw [Flown, SaveDesk.positions, hc, Multiset.map_cons, Multiset.add_cons] at hf
  simp only [Flown, WorldBridge.receiveSave, withPersistence, SaveDesk.positions]
  rw [Finset.erase_val, ← hf, Multiset.erase_cons_head]

theorem Flown.afterSave (h : Flown b.persistence) {c : SaveCompletion}
    {rest : Multiset SaveCompletion} (hc : b.persistence.saves.completions = c ::ₘ rest)
    {result : Except BridgeError Unit}
    (hr : (b.receiveSave c rest).applySaveCompletion c = (result, b')) : Flown b'.persistence := by
  have hreceived := h.receiveSave hc
  cases c with
  | saved receipt =>
    obtain ⟨-, hs, -, hf⟩ :=
      recordReceipt_frame (b.receiveSave (.saved receipt) rest).persistence receipt
    rw [WorldBridge.applySaveCompletion] at hr
    split at hr
    · cases hr
      exact hreceived
    · cases hr
      exact (congrArg SaveDesk.positions hs).trans (hreceived.trans (congrArg Finset.val hf).symm)
  | failed failure =>
    cases hr
    exact hreceived

theorem Flown.afterCompaction (h : Flown b.persistence) {c : CompactionCompletion}
    {rest : Multiset CompactionCompletion} {result : Except BridgeError Bool}
    (hr : (b.receiveCompaction rest).applyCompactionCompletion c = (result, b')) :
    Flown b'.persistence := by
  obtain ⟨-, hs, -, hf⟩ := applyCompactionCompletion_frame (b.receiveCompaction rest).persistence c
  have hb : ((b.receiveCompaction rest).applyCompactionCompletion c).2 = b' := congrArg Prod.snd hr
  rw [← hb]
  exact (congrArg SaveDesk.positions hs).trans (h.trans (congrArg Finset.val hf).symm)

theorem Flown.afterLoad (h : Flown b.persistence) {c : LoadCompletion}
    {rest : Multiset LoadCompletion} {result : Except BridgeError Unit}
    (hr : (b.receiveLoad c rest).applyLoadCompletion c = (result, b')) : Flown b'.persistence := by
  cases c with
  | loaded chunk =>
    rw [WorldBridge.applyLoadCompletion] at hr
    split at hr
    · cases hr
      exact h
    · cases hr
      exact h
  | missing p =>
    cases hr
    exact h
  | failed failure =>
    cases hr
    exact h

theorem Flown.ensureChunk (h : Flown b.persistence) (biome : UInt8) :
    Flown (b.ensureChunk p biome).persistence := by
  rw [WorldBridge.ensureChunk]
  split <;> exact h

theorem Flown.generate (h : Flown b.persistence) (runtime : NativeInfiniteGenerator γ)
    (target : ChunkCoord) : Flown (b.generate terrain runtime target).persistence := by
  rw [WorldBridge.generate]
  split
  · exact h
  · dsimp only
    split
    · rw [WorldBridge.clearMissingAfterGeneration, clearMissing_fold]
      exact h
    · exact h

theorem SaveBooks.step (h : SaveBooks b) (hs : BridgeStep terrain initial allowed b b') :
    SaveBooks b' := by
  cases hs with
  | disk hd => exact h.disk hd
  | control hc => exact h.control hc
  | pin p =>
    refine h.withStore fun hc => withChunkMut_clean (fun c => ?_) hc
    split <;> rfl
  | unpin p =>
    refine h.withStore fun hc => withChunkMut_clean (fun c => ?_) hc
    split <;> rfl
  | edit hcall he => exact .stay h.flight hcall rfl rfl
  | evict hcall p => exact .stay h.flight hcall rfl rfl
  | ensureChunk hcall p biome ha =>
    have hsame : (b.ensureChunk p biome).call = .idle := by
      rw [WorldBridge.ensureChunk]
      split <;> exact hcall
    exact .stay (Flown.ensureChunk h.flight biome) hsame rfl rfl
  | requestLoad hcall hr hm hf => exact .stay h.flight hcall rfl rfl
  | pollOne hcall hb hc hr => exact .next (Flown.afterLoad h.flight hr) rfl rfl
  | pollFailed hcall hb hc hr => exact .next (Flown.afterLoad h.flight hr) rfl rfl
  | @queued p rest statuses hcall hr hm hf =>
    have hflown : Flown (b.requestLoad p).persistence := h.flight
    exact .next hflown rfl rfl
  | @queuedRequired p rest ready seed target hcall hr hm hf =>
    have hflown : Flown (b.requestLoad p).persistence := h.flight
    exact .next hflown rfl rfl
  | generate hcall hr ha => exact .next (Flown.generate h.flight _ _) rfl rfl
  | takeCompaction hcall hb hc hr => exact .next (Flown.afterCompaction h.flight hr) rfl rfl
  | drainCompaction hcall hc hr =>
    have hsame := congrArg (fun x => x.2.call) hr
    exact .stay (Flown.afterCompaction h.flight hr) (hsame.symm.trans hcall) rfl rfl
  | compactionFailed hcall hc hr => exact .next (Flown.afterCompaction h.flight hr) rfl rfl
  | collectOne hcall hb hc hr => exact .next (Flown.afterSave h.flight hc hr) rfl rfl
  | settleOne hcall hc hr =>
    have hsame := congrArg (fun x => x.2.call) hr
    exact .stay (Flown.afterSave h.flight hc hr)
      (hsame.symm.trans (applySaveCompletion_call.trans hcall)) rfl rfl
  | waitOne hcall hc hr => exact .next (Flown.afterSave h.flight hc hr) rfl rfl
  | saveFailed hcall hc hr => exact .next (Flown.afterSave h.flight hc hr) rfl rfl
  | schedule hcall => exact h.schedule (by rw [hcall]; rfl) rfl rfl
  | flushOne hcall => exact h.schedule (by rw [hcall]; rfl) rfl rfl
  | skipCompaction hcall hb hq hw => exact .stay h.flight hcall rfl rfl
  | @startCompaction scheduled budget region rest hcall hb hq hw =>
    have hflown : Flown ((b.persistence.popCompaction region rest).startCompaction region) := by
      have hf := h.flight
      rw [SaveDesk.positions] at hf
      simp only [Flown, NativeWorldPersistence.startCompaction, SaveDesk.submit, SaveDesk.positions]
      rw [Multiset.filterMap_cons_none _ _ rfl]
      exact hf
    exact .next (b := b.withPersistence _) hflown rfl rfl
  | @compactionBackpressure scheduled budget region rest hcall hb hq hw =>
    have hflown : Flown ((b.persistence.popCompaction region rest).requeueCompaction region) :=
      h.flight
    exact .next (b := b.withPersistence _) hflown rfl rfl
  | @compactionClosed scheduled budget region rest hcall hb hq hw =>
    have hflown : Flown (b.persistence.popCompaction region rest) := h.flight
    exact .next (b := b.withPersistence _) hflown rfl rfl
  | @written state hcall =>
    have hflown : Flown (b.written state).persistence := h.flight
    exact .next hflown rfl rfl
  | @writeFailed state file hcall hf =>
    have hflown : Flown ({ b with generatorState := file } : WorldBridge γ).persistence := h.flight
    exact .next hflown rfl rfl

theorem Attached.saveBooks (h : Attached b) : SaveBooks b := by
  obtain ⟨⟨store, durable, generatorId, policy, infinite, generatorState, rfl⟩, -, -⟩ := h
  exact .stay rfl rfl rfl rfl

-- No chunk is dirty, and no save is accepted by the service and not yet applied.
structure Settled (b : WorldBridge γ) : Prop where
  clean : ∀ p c, b.store.chunks p = some c → c.isDirty = false
  inFlight : b.persistence.saveInFlight = ∅
  commands : ∀ s, .save s ∉ b.persistence.saves.commands
  completions : b.persistence.saves.completions = 0

theorem SaveBooks.settled (h : SaveBooks b) (hc : b.call.settled = true) : Settled b := by
  obtain ⟨hempty, hclean⟩ := h.clean hc
  have hf := h.flight
  rw [hempty, Finset.empty_val, SaveDesk.positions, add_eq_zero, Multiset.map_eq_zero] at hf
  refine ⟨hclean, hempty, fun s hs => ?_, hf.2⟩
  have hmem : s.position ∈ b.persistence.saves.commands.filterMap savePosition :=
    (Multiset.mem_filterMap _ _).mpr ⟨_, hs, rfl⟩
  rw [hf.1] at hmem
  exact Multiset.notMem_zero _ hmem

theorem applyLoadCompletion_file {c : LoadCompletion} :
    (b.applyLoadCompletion c).2.generatorState = b.generatorState := by
  cases c with
  | loaded chunk =>
    rw [WorldBridge.applyLoadCompletion]
    split <;> rfl
  | missing p => rfl
  | failed failure => rfl

theorem applySaveCompletion_file {c : SaveCompletion} :
    (b.applySaveCompletion c).2.generatorState = b.generatorState := by
  cases c with
  | saved receipt =>
    rw [WorldBridge.applySaveCompletion]
    split <;> rfl
  | failed failure => rfl

theorem BridgeStep.generatorState (hs : BridgeStep terrain initial allowed b b') :
    b'.generatorState = b.generatorState ∨
      ∃ state, b.call = .writing state ∧ b'.generatorState = some state := by
  cases hs with
  | disk hd => cases hd <;> exact .inl rfl
  | written hcall => exact .inr ⟨_, hcall, rfl⟩
  | writeFailed hcall hf => exact hf.imp_right fun hf => ⟨_, hcall, hf⟩
  | ensureChunk hcall p biome ha =>
    rw [WorldBridge.ensureChunk]
    split <;> exact .inl rfl
  | generate hcall hr ha =>
    rw [WorldBridge.generate]
    split
    · exact .inl rfl
    · dsimp only
      split <;> exact .inl rfl
  | pollOne hcall hb hc hr =>
    exact .inl ((congrArg (fun x => x.2.generatorState) hr).symm.trans applyLoadCompletion_file)
  | pollFailed hcall hb hc hr =>
    exact .inl ((congrArg (fun x => x.2.generatorState) hr).symm.trans applyLoadCompletion_file)
  | collectOne hcall hb hc hr =>
    exact .inl ((congrArg (fun x => x.2.generatorState) hr).symm.trans applySaveCompletion_file)
  | settleOne hcall hc hr =>
    exact .inl ((congrArg (fun x => x.2.generatorState) hr).symm.trans applySaveCompletion_file)
  | waitOne hcall hc hr =>
    exact .inl ((congrArg (fun x => x.2.generatorState) hr).symm.trans applySaveCompletion_file)
  | saveFailed hcall hc hr =>
    exact .inl ((congrArg (fun x => x.2.generatorState) hr).symm.trans applySaveCompletion_file)
  | takeCompaction hcall hb hc hr => exact .inl (congrArg (fun x => x.2.generatorState) hr).symm
  | drainCompaction hcall hc hr => exact .inl (congrArg (fun x => x.2.generatorState) hr).symm
  | compactionFailed hcall hc hr => exact .inl (congrArg (fun x => x.2.generatorState) hr).symm
  | _ => exact .inl rfl

-- Every write of `generator.cgs` happens while nothing is dirty or in flight, and so does every
-- successful return of a flush.
structure GeneratorBehind (terrain : Int32 → Terrain γ) (initial : γ)
    (allowed : WorldBridge γ → Action → Prop) (b : WorldBridge γ) : Prop where
  writing : ∀ state, b.call = .writing state → Settled b
  onlyWrites : ∀ b', BridgeStep terrain initial allowed b b' →
    b'.generatorState ≠ b.generatorState →
      ∃ state, b.call = .writing state ∧ b'.generatorState = some state
  flushed : b.call = .flushed → Settled b

theorem newWorld_batch (limit : Nat) (excluded : Finset ChunkCoord) :
    DirtyBatch newWorld.store limit excluded [] where
  taken _ hx := absurd hx List.not_mem_nil
  nodup := List.nodup_nil
  bounded := Nat.zero_le limit
  complete _ _ _ hc := absurd hc nofun

theorem flush_step {before after : Call Unit}
    (h : ControlStep (newWorld.withCall before) before after) :
    BridgeStep flatTerrain () (fun _ _ => True) (newWorld.withCall before)
      (newWorld.withCall after) :=
  .control h

end Cobblestone.Bridge
