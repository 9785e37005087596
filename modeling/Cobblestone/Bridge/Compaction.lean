import Cobblestone.Async.SaveBooks
import Cobblestone.Bridge.Missing

namespace Cobblestone.Bridge

open Lib World Storage Region Async WorldBridge

-- The compactions of a region that were submitted and whose completion nobody has taken.
def SaveDesk.outstanding (d : SaveDesk) (region : RegionCoord) : Nat :=
  d.commands.count (.compact region) +
    (d.compactions.map CompactionCompletion.region).count region

structure Scheduled (n : NativeWorldPersistence) : Prop where
  nodup : n.compactionQueue.Nodup
  queued : ∀ region, region ∈ n.compactionQueue ↔ region ∈ n.compactionQueued
  disjoint : Disjoint n.compactionQueued n.compactionInFlight
  single : ∀ region,
    n.saves.outstanding region = if region ∈ n.compactionInFlight then 1 else 0
  blocked : Disjoint n.compactionBlocked n.compactionInFlight
  bounded : n.compactionQueue.length ≤ maxCompactionCandidates

namespace SaveDesk

variable {d : SaveDesk}

theorem outstanding_submit_save (s : ChunkSnapshot) (region : RegionCoord) :
    (d.submit (.save s)).outstanding region = d.outstanding region := by
  simp [outstanding, submit]

theorem outstanding_submit_compact (region other : RegionCoord) :
    (d.submit (.compact region)).outstanding other =
      d.outstanding other + if other = region then 1 else 0 := by
  simp only [outstanding, submit, Multiset.count_cons, SaveCommand.compact.injEq]
  omega

theorem outstanding_answer {c : SaveCommand} {rest : Multiset SaveCommand} {e : SaveEvent}
    (hc : d.commands = c ::ₘ rest) (hw : SaveWork c e) (region : RegionCoord) :
    (d.answer rest e).outstanding region = d.outstanding region := by
  cases hw with
  | save s outcome => simp [outstanding, answer, hc]
  | compact other outcome =>
    have hregion : (compactionCompletion other outcome).region = other := by
      rcases outcome with (_ | _) | _ <;> rfl
    simp only [outstanding, answer, hc, Multiset.count_cons, Multiset.map_cons, hregion,
      SaveCommand.compact.injEq]
    omega

theorem outstanding_take {c : CompactionCompletion} {rest : Multiset CompactionCompletion}
    (hc : d.compactions = c ::ₘ rest) (region : RegionCoord) :
    d.outstanding region =
      SaveDesk.outstanding { d with compactions := rest } region +
        if region = c.region then 1 else 0 := by
  rw [outstanding, hc, Multiset.map_cons, Multiset.count_cons, ← Nat.add_assoc]
  rfl

end SaveDesk

variable {γ : Type} {terrain : Int32 → Terrain γ} {initial : γ}
  {allowed : WorldBridge γ → Action → Prop} {b b' : WorldBridge γ}
  {n : NativeWorldPersistence} {region : RegionCoord}

namespace Scheduled

theorem attach (generatorId : UInt32) (policy : Option NativeCompactionPolicy) :
    Scheduled (.attach generatorId policy) where
  nodup := List.nodup_nil
  queued _ := by simp [NativeWorldPersistence.attach]
  disjoint := Finset.disjoint_empty_left _
  single _ := by simp [NativeWorldPersistence.attach, SaveDesk.outstanding]
  blocked := Finset.disjoint_empty_left _
  bounded := Nat.zero_le _

theorem withSaves (h : Scheduled n) {saves : SaveDesk}
    (hs : ∀ region, saves.outstanding region = n.saves.outstanding region) :
    Scheduled { n with saves := saves } where
  nodup := h.nodup
  queued := h.queued
  disjoint := h.disjoint
  single r := (hs r).trans (h.single r)
  blocked := h.blocked
  bounded := h.bounded

theorem scheduleSave (h : Scheduled n) (s : ChunkSnapshot) : Scheduled (n.scheduleSave s) :=
  ⟨h.nodup, h.queued, h.disjoint,
    fun r => (SaveDesk.outstanding_submit_save s r).trans (h.single r), h.blocked, h.bounded⟩

theorem maybeQueueCompaction (h : Scheduled n) (stats : RegionStats) :
    Scheduled (n.maybeQueueCompaction region stats) := by
  rw [NativeWorldPersistence.maybeQueueCompaction]
  split
  · exact h
  · split
    · exact h
    · rename_i hfree
      simp only [not_or, not_le] at hfree
      obtain ⟨-, -, hflight, hqueued, hroom⟩ := hfree
      have hout : region ∉ n.compactionQueue := fun hq => hqueued ((h.queued region).mp hq)
      refine ⟨?_, fun r => ?_, ?_, h.single, h.blocked, ?_⟩
      · exact h.nodup.append (List.nodup_singleton region) (by simpa using hout)
      · simp [h.queued r, or_comm]
      · exact Finset.disjoint_insert_left.mpr ⟨hflight, h.disjoint⟩
      · simpa using hroom

theorem recordReceipt (h : Scheduled n) (receipt : SaveReceipt) :
    Scheduled (n.recordReceipt receipt).2 := by
  rw [NativeWorldPersistence.recordReceipt]
  split
  · exact h
  · refine maybeQueueCompaction ?_ _
    exact ⟨h.nodup, h.queued, h.disjoint, h.single, h.blocked, h.bounded⟩

-- Taking a completion frees its region: it was the only one outstanding.
theorem takeCompletion (h : Scheduled n) {c : CompactionCompletion}
    {rest : Multiset CompactionCompletion} (hc : n.saves.compactions = c ::ₘ rest) :
    c.region ∈ n.compactionInFlight ∧ ∀ r,
      SaveDesk.outstanding { n.saves with compactions := rest } r =
        if r ∈ n.compactionInFlight.erase c.region then 1 else 0 := by
  have htake := SaveDesk.outstanding_take hc
  have hflight : c.region ∈ n.compactionInFlight := by
    by_contra hout
    have hcount := htake c.region
    rw [h.single, if_neg hout, if_pos rfl] at hcount
    omega
  refine ⟨hflight, fun r => ?_⟩
  have hcount := htake r
  rw [h.single] at hcount
  by_cases hr : r = c.region
  · subst hr
    simpa [hflight] using hcount.symm
  · simpa [hr] using hcount.symm

theorem applyCompactionCompletion (h : Scheduled n) {c : CompactionCompletion}
    {rest : Multiset CompactionCompletion} (hc : n.saves.compactions = c ::ₘ rest) :
    Scheduled (NativeWorldPersistence.applyCompactionCompletion
      { n with saves := { n.saves with compactions := rest } } c).2 := by
  obtain ⟨hflight, hsingle⟩ := h.takeCompletion hc
  have hdisjoint : Disjoint n.compactionQueued (n.compactionInFlight.erase c.region) :=
    h.disjoint.mono_right (Finset.erase_subset _ _)
  have hblocked : Disjoint n.compactionBlocked (n.compactionInFlight.erase c.region) :=
    h.blocked.mono_right (Finset.erase_subset _ _)
  cases c with
  | compacted receipt =>
    rw [NativeWorldPersistence.applyCompactionCompletion]
    dsimp only
    split
    · exact ⟨h.nodup, h.queued, hdisjoint, hsingle, hblocked, h.bounded⟩
    · split <;> exact ⟨h.nodup, h.queued, hdisjoint, hsingle, hblocked, h.bounded⟩
  | failed failure =>
    have hinsert : Disjoint (insert failure.region n.compactionBlocked)
        (n.compactionInFlight.erase failure.region) :=
      Finset.disjoint_insert_left.mpr ⟨Finset.notMem_erase _ _, hblocked⟩
    rw [NativeWorldPersistence.applyCompactionCompletion]
    dsimp only
    split <;> exact ⟨h.nodup, h.queued, hdisjoint, hsingle, hinsert, h.bounded⟩

section

variable {rest : List RegionCoord}

theorem popCompaction (h : Scheduled n) (hq : n.compactionQueue = region :: rest) :
    Scheduled (n.popCompaction region rest) := by
  have hnodup := h.nodup
  have hqueued := h.queued
  have hbounded := h.bounded
  rw [hq] at hnodup hqueued hbounded
  obtain ⟨hout, hrest⟩ := List.nodup_cons.mp hnodup
  refine ⟨hrest, fun r => ?_, h.disjoint.mono_left (Finset.erase_subset _ _), h.single, h.blocked,
    ?_⟩
  · rw [NativeWorldPersistence.popCompaction, Finset.mem_erase, ← hqueued r, List.mem_cons]
    have hne : r ∈ rest → r ≠ region := fun hr heq => hout (heq ▸ hr)
    tauto
  · exact (Nat.le_succ _).trans hbounded

theorem startCompaction (h : Scheduled n) (hqueued : region ∉ n.compactionQueued)
    (hw : n.wantsCompaction region = true) : Scheduled (n.startCompaction region) := by
  rw [NativeWorldPersistence.wantsCompaction] at hw
  split at hw
  · cases hw
  · rename_i hfree
    obtain ⟨hblocked, hflight⟩ := not_or.mp hfree
    refine ⟨h.nodup, h.queued, ?_, fun r => ?_, ?_, h.bounded⟩
    · exact Finset.disjoint_insert_right.mpr ⟨hqueued, h.disjoint⟩
    · have hcount := SaveDesk.outstanding_submit_compact (d := n.saves) region r
      rw [h.single] at hcount
      refine hcount.trans ?_
      by_cases hr : r = region
      · subst hr
        simp [NativeWorldPersistence.startCompaction, hflight]
      · simp [NativeWorldPersistence.startCompaction, hr]
    · exact Finset.disjoint_insert_right.mpr ⟨hblocked, h.blocked⟩

-- A rejected submission puts the region back where it was taken from.
theorem requeueCompaction (h : Scheduled n) (hq : n.compactionQueue = region :: rest) :
    Scheduled ((n.popCompaction region rest).requeueCompaction region) := by
  have hback : (n.popCompaction region rest).requeueCompaction region = n := by
    have hmem : region ∈ n.compactionQueued := (h.queued region).mp (by simp [hq])
    simp only [NativeWorldPersistence.requeueCompaction, NativeWorldPersistence.popCompaction,
      Finset.insert_erase hmem, ← hq]
  rwa [hback]

end

end Scheduled

-- What one step of the bridge may do to the bookkeeping of the storage.
inductive Bookkeeping (n : NativeWorldPersistence) : NativeWorldPersistence → Prop where
  | loads (loads : LoadDesk) (missing : Finset ChunkCoord) :
      Bookkeeping n { n with loads := loads, loadMissing := missing }
  | answered {c : SaveCommand} {rest : Multiset SaveCommand} {e : SaveEvent}
      (hc : n.saves.commands = c ::ₘ rest) (hw : SaveWork c e) :
      Bookkeeping n { n with saves := n.saves.answer rest e }
  | scheduled (s : ChunkSnapshot) : Bookkeeping n (n.scheduleSave s)
  | received (completions : Multiset SaveCompletion) (flight : Finset ChunkCoord) :
      Bookkeeping n
        { n with saves := { n.saves with completions := completions }, saveInFlight := flight }
  | recorded (completions : Multiset SaveCompletion) (flight : Finset ChunkCoord)
      (receipt : SaveReceipt) :
      Bookkeeping n (NativeWorldPersistence.recordReceipt
        { n with saves := { n.saves with completions := completions }, saveInFlight := flight }
        receipt).2
  | compacted {c : CompactionCompletion} {rest : Multiset CompactionCompletion}
      (hc : n.saves.compactions = c ::ₘ rest) :
      Bookkeeping n (NativeWorldPersistence.applyCompactionCompletion
        { n with saves := { n.saves with compactions := rest } } c).2
  | popped {region : RegionCoord} {rest : List RegionCoord}
      (hq : n.compactionQueue = region :: rest) : Bookkeeping n (n.popCompaction region rest)
  | started {region : RegionCoord} {rest : List RegionCoord}
      (hq : n.compactionQueue = region :: rest)
      (hw : (n.popCompaction region rest).wantsCompaction region = true) :
      Bookkeeping n ((n.popCompaction region rest).startCompaction region)
  | requeued {region : RegionCoord} {rest : List RegionCoord}
      (hq : n.compactionQueue = region :: rest) :
      Bookkeeping n ((n.popCompaction region rest).requeueCompaction region)

theorem Bookkeeping.refl (n : NativeWorldPersistence) : Bookkeeping n n := .loads n.loads n.loadMissing

theorem Bookkeeping.afterSave {c : SaveCompletion} {rest : Multiset SaveCompletion}
    {result : Except BridgeError Unit}
    (hr : (b.receiveSave c rest).applySaveCompletion c = (result, b')) :
    Bookkeeping b.persistence b'.persistence := by
  rw [WorldBridge.applySaveCompletion.eq_def] at hr
  cases c with
  | saved receipt =>
    dsimp only at hr
    split at hr <;> cases hr
    · exact .received rest _
    · exact .recorded rest _ receipt
  | failed failure =>
    cases hr
    exact .received rest _

theorem Bookkeeping.afterCompaction {c : CompactionCompletion}
    {rest : Multiset CompactionCompletion} {result : Except BridgeError Bool}
    (hc : b.persistence.saves.compactions = c ::ₘ rest)
    (hr : (b.receiveCompaction rest).applyCompactionCompletion c = (result, b')) :
    Bookkeeping b.persistence b'.persistence := by
  cases hr
  exact .compacted hc

theorem Bookkeeping.afterLoad {c : LoadCompletion} {rest : Multiset LoadCompletion}
    {result : Except BridgeError Unit}
    (hr : (b.receiveLoad c rest).applyLoadCompletion c = (result, b')) :
    Bookkeeping b.persistence b'.persistence := by
  rw [WorldBridge.applyLoadCompletion.eq_def] at hr
  cases c with
  | loaded chunk =>
    dsimp only at hr
    split at hr <;> (cases hr; exact .loads _ _)
  | missing p =>
    cases hr
    exact .loads _ _
  | failed failure =>
    cases hr
    exact .loads _ _

theorem Bookkeeping.disk (h : DiskStep b b') : Bookkeeping b.persistence b'.persistence := by
  cases h with
  | saved hc => exact .answered hc (.save _ _)
  | @saveFailed s rest error durable hc hd =>
    cases error with
    | storage e => exact .answered hc (.save s (.finished (.error e)))
    | panic => exact .answered hc (.save s .panicked)
  | compacted hc => exact .answered hc (.compact _ _)
  | loaded => exact .loads _ _
  | missing => exact .loads _ _
  | loadFailed => exact .loads _ _

theorem Bookkeeping.ensureChunk (p : ChunkCoord) (biome : UInt8) :
    Bookkeeping b.persistence (b.ensureChunk p biome).persistence := by
  rw [WorldBridge.ensureChunk]
  split <;> exact .loads _ _

theorem Bookkeeping.generate (runtime : NativeInfiniteGenerator γ) (target : ChunkCoord) :
    Bookkeeping b.persistence (b.generate terrain runtime target).persistence := by
  rw [WorldBridge.generate]
  split
  · exact .refl _
  · split
    · rw [WorldBridge.clearMissingAfterGeneration, clearMissing_fold]
      exact .loads _ _
    · exact .refl _

theorem BridgeStep.bookkeeping (h : BridgeStep terrain initial allowed b b') :
    Bookkeeping b.persistence b'.persistence := by
  cases h with
  | disk hd => exact .disk hd
  | control hc => exact .refl _
  | pin p => exact .refl _
  | unpin p => exact .refl _
  | edit hcall he => exact .refl _
  | evict hcall p => exact .refl _
  | ensureChunk hcall p biome ha => exact .ensureChunk p biome
  | requestLoad hcall hr hm hf => exact .loads _ _
  | pollOne hcall hb hc hr => exact (Bookkeeping.afterLoad hr :)
  | pollFailed hcall hb hc hr => exact (Bookkeeping.afterLoad hr :)
  | queued hcall hr hm hf => exact .loads _ _
  | queuedRequired hcall hr hm hf => exact .loads _ _
  | generate hcall hr ha => exact .generate _ _
  | takeCompaction hcall hb hc hr => exact (Bookkeeping.afterCompaction hc hr :)
  | drainCompaction hcall hc hr => exact (Bookkeeping.afterCompaction hc hr :)
  | compactionFailed hcall hc hr => exact (Bookkeeping.afterCompaction hc hr :)
  | collectOne hcall hb hc hr => exact (Bookkeeping.afterSave hr :)
  | settleOne hcall hc hr => exact (Bookkeeping.afterSave hr :)
  | waitOne hcall hc hr => exact (Bookkeeping.afterSave hr :)
  | saveFailed hcall hc hr => exact (Bookkeeping.afterSave hr :)
  | schedule hcall => exact .scheduled _
  | flushOne hcall => exact .scheduled _
  | skipCompaction hcall hb hq hw => exact .popped hq
  | startCompaction hcall hb hq hw => exact .started hq hw
  | compactionBackpressure hcall hb hq hw => exact .requeued hq
  | compactionClosed hcall hb hq hw => exact .popped hq
  | written hcall => exact .refl _
  | writeFailed hcall hf => exact .refl _

theorem Scheduled.step {m : NativeWorldPersistence} (h : Scheduled n) (hs : Bookkeeping n m) :
    Scheduled m := by
  cases hs with
  | loads loads missing =>
    exact ⟨h.nodup, h.queued, h.disjoint, h.single, h.blocked, h.bounded⟩
  | answered hc hw => exact h.withSaves (SaveDesk.outstanding_answer hc hw)
  | scheduled s => exact h.scheduleSave s
  | received completions flight =>
    exact ⟨h.nodup, h.queued, h.disjoint, h.single, h.blocked, h.bounded⟩
  | recorded completions flight receipt =>
    have hreceived : Scheduled
        { n with saves := { n.saves with completions := completions }, saveInFlight := flight } :=
      ⟨h.nodup, h.queued, h.disjoint, h.single, h.blocked, h.bounded⟩
    exact hreceived.recordReceipt receipt
  | compacted hc => exact h.applyCompactionCompletion hc
  | popped hq => exact h.popCompaction hq
  | started hq hw =>
    exact (h.popCompaction hq).startCompaction (Finset.notMem_erase _ _) hw
  | requeued hq => exact h.requeueCompaction hq

theorem maybeQueueCompaction_blocked (n : NativeWorldPersistence) (region : RegionCoord)
    (stats : RegionStats) :
    (n.maybeQueueCompaction region stats).compactionBlocked = n.compactionBlocked := by
  rw [NativeWorldPersistence.maybeQueueCompaction]
  split
  · rfl
  · split <;> rfl

theorem applyCompactionCompletion_blocked (n : NativeWorldPersistence) (c : CompactionCompletion) :
    n.compactionBlocked ⊆ (n.applyCompactionCompletion c).2.compactionBlocked := by
  cases c with
  | compacted receipt =>
    rw [NativeWorldPersistence.applyCompactionCompletion]
    dsimp only
    split
    · exact subset_rfl
    · split <;> exact subset_rfl
  | failed failure =>
    rw [NativeWorldPersistence.applyCompactionCompletion]
    dsimp only
    split <;> exact Finset.subset_insert _ _

theorem Bookkeeping.blocked {m : NativeWorldPersistence} (h : Bookkeeping n m) :
    n.compactionBlocked ⊆ m.compactionBlocked := by
  cases h with
  | recorded completions flight receipt =>
    rw [NativeWorldPersistence.recordReceipt]
    split
    · exact subset_rfl
    · rw [maybeQueueCompaction_blocked]
  | @compacted c rest hc =>
    exact applyCompactionCompletion_blocked
      { n with saves := { n.saves with compactions := rest } } c
  | _ => exact subset_rfl

theorem Scheduled.run (h : Scheduled b.persistence)
    (hrun : Relation.ReflTransGen (BridgeStep terrain initial allowed) b b') :
    Scheduled b'.persistence :=
  invariant_of_run (fun b => Scheduled b.persistence) hrun h fun _ _ hs hstep =>
    hs.step hstep.bookkeeping

theorem blocked_run (hrun : Relation.ReflTransGen (BridgeStep terrain initial allowed) b b') :
    b.persistence.compactionBlocked ⊆ b'.persistence.compactionBlocked :=
  invariant_of_run
    (fun c => b.persistence.compactionBlocked ⊆ c.persistence.compactionBlocked) hrun subset_rfl
    fun _ _ hs hstep => hs.trans hstep.bookkeeping.blocked

theorem Scheduled.unsubmitted (h : Scheduled n) (hb : region ∈ n.compactionBlocked) :
    SaveCommand.compact region ∉ n.saves.commands := by
  have hcount := h.single region
  rw [if_neg (Finset.disjoint_left.mp h.blocked hb), SaveDesk.outstanding] at hcount
  exact Multiset.count_eq_zero.mp (by omega)

end Cobblestone.Bridge
