import Cobblestone.Lib.Trace
import Cobblestone.World.InfiniteProof
import Cobblestone.World.Install

namespace Cobblestone.World

open Lib Effect

inductive PopulationStage where
  | carved
  | postProcessed
deriving DecidableEq

structure PopulationEvent where
  stage : PopulationStage
  position : ChunkCoord
deriving DecidableEq

structure PopulationAttempt where
  event : PopulationEvent
  completed : Bool

-- The same terrain, with a state that also lists in order what it was asked to do.
def Terrain.logged {γ : Type} (terrain : Terrain γ) : Terrain (γ × List PopulationEvent) where
  carve := terrain.carve
  addFeatures state position :=
    (terrain.addFeatures state.1 position, state.2 ++ [⟨.carved, position⟩])
  populate state target planes :=
    let populated := terrain.populate state.1 target planes
    ((populated.1, state.2 ++ [⟨.postProcessed, target⟩]), populated.2)

namespace OverworldInfinite

variable {γ : Type}

def withEmptyLog (g : OverworldInfinite γ) : OverworldInfinite (γ × List PopulationEvent) :=
  ⟨(g.state, []), g.store⟩

def withoutLog (g : OverworldInfinite (γ × List PopulationEvent)) : OverworldInfinite γ :=
  ⟨g.state.1, g.store⟩

@[simp] theorem withoutLog_store (g : OverworldInfinite (γ × List PopulationEvent)) :
    g.withoutLog.store = g.store := rfl

def log (g : OverworldInfinite (γ × List PopulationEvent)) : List PopulationEvent := g.state.2

end OverworldInfinite

section

variable {γ : Type} (terrain : Terrain γ)

def generateAll : List ChunkCoord → OverworldInfinite γ →
    List (Except WorldStoreError InfiniteGenerationResult) × OverworldInfinite γ
  | [], g => ([], g)
  | target :: rest, g =>
    let (result, g) := (generateIntoStore terrain target).exec g
    let (results, g) := generateAll rest g
    (result :: results, g)

def carveChunk (position : ChunkCoord) : Generate γ Bool := do
  updateState fun state => terrain.addFeatures state position
  installGenerated position (carvedImport (terrain.carve position))

-- One carving or one post-processing, with the state it starts from.
inductive PopulationStep : OverworldInfinite γ → PopulationAttempt → OverworldInfinite γ → Prop
  | carve {g : OverworldInfinite γ} {p : ChunkCoord} (hp : ¬Generated p g) :
      PopulationStep g ⟨⟨.carved, p⟩, ((carveChunk terrain p).exec g).1.isOk⟩
        ((carveChunk terrain p).exec g).2
  | postProcess {g : OverworldInfinite γ} {p : ChunkCoord} {snapshots : Fin 9 → ChunkSnapshot}
      (hp : ¬Full p g) (hready : ∀ i, Generated (neighborhoodPosition p i) g)
      (hs : readySnapshots (g.store.neighborhoodSnapshots p) = some snapshots) :
      PopulationStep g
        ⟨⟨.postProcessed, p⟩, ((populateCenter terrain p g.state snapshots).exec g).1.isOk⟩
        ((populateCenter terrain p g.state snapshots).exec g).2

abbrev PopulationPath := StepPath (PopulationStep terrain)

end

variable {γ : Type} {terrain : Terrain γ} {g h : OverworldInfinite γ} {p q target : ChunkCoord}
  {a : PopulationAttempt} {trace : List PopulationAttempt}

theorem failures_of_isOk {ε α : Type} (result : Except ε α) :
    failures result = if result.isOk then 0 else 1 := by
  cases result <;> rfl

theorem traced_of_step {α : Type} {m : Generate γ α} {g : OverworldInfinite γ} {e : PopulationEvent}
    (hstep : PopulationStep terrain g ⟨e, (m.exec g).1.isOk⟩ (m.exec g).2) :
    ∃ trace, PopulationPath terrain g trace (m.exec g).2 ∧
      trace.countP (fun a => !a.completed) = failures (m.exec g).1 := by
  refine ⟨_, .single hstep, ?_⟩
  rw [failures_of_isOk]
  cases (m.exec g).1.isOk <;> rfl

theorem ensureGeneratedChunk_carve (g : OverworldInfinite γ) :
    (ensureGeneratedChunk terrain p).exec g =
      if g.store.generatedAt p then (.ok false, g) else (carveChunk terrain p).exec g := by
  rw [ensureGeneratedChunk_exec]
  rfl

theorem ensureGeneratedChunk_traced :
    Traced (PopulationStep terrain) (fun a => !a.completed) (ensureGeneratedChunk terrain p) := by
  intro g
  rw [ensureGeneratedChunk_carve]
  split
  · exact ⟨[], .nil g, rfl⟩
  · rename_i hp
    exact traced_of_step (.carve hp)

theorem readySnapshots_generated {g : OverworldInfinite γ} {snapshots : Fin 9 → ChunkSnapshot}
    (hs : readySnapshots (g.store.neighborhoodSnapshots target) = some snapshots) (i : Fin 9) :
    Generated (neighborhoodPosition target i) g := by
  obtain ⟨c, hc, hflags⟩ := neighborhood_resident hs i
  rw [readySnapshots] at hs
  split at hs
  · rename_i hall
    obtain ⟨s, hsi, hgen⟩ := hall i
    rw [WorldStore.neighborhoodSnapshots, hc, Option.map_some, Option.some.injEq] at hsi
    rw [Generated, WorldStore.generatedAt, hc, Option.any_some]
    rw [← hsi] at hgen
    exact hgen
  · cases hs

theorem tryPostProcessCenter_traced :
    Traced (PopulationStep terrain) (fun a => !a.completed) (tryPostProcessCenter terrain p) := by
  intro g
  rw [tryPostProcessCenter_exec]
  split
  · exact ⟨[], .nil g, rfl⟩
  · rename_i hcenter
    have hfull : ¬Full p g := fun hf => hcenter (by rw [show g.store.fullAt p = true from hf, Bool.or_true])
    split
    · exact ⟨[], .nil g, rfl⟩
    · rename_i snapshots hs
      exact traced_of_step (.postProcess hfull (readySnapshots_generated hs) hs)

theorem postProcessArea_traced :
    Traced (PopulationStep terrain) (fun a => !a.completed) (postProcessArea terrain p) :=
  Traced.sumM fun _ _ => tryPostProcessCenter_traced

theorem generateNeighbor_traced :
    Traced (PopulationStep terrain) (fun a => !a.completed) (generateNeighbor terrain p) := by
  refine ensureGeneratedChunk_traced.bind fun changed => ?_
  cases changed with
  | false => exact Traced.pure 0
  | true => exact postProcessArea_traced.bind fun n => Traced.pure (1 + n)

theorem current_traced : Traced (PopulationStep terrain) (fun a => !a.completed) current :=
  fun g => ⟨[], .nil g, rfl⟩

theorem generateIntoStore_traced :
    Traced (PopulationStep terrain) (fun a => !a.completed) (generateIntoStore terrain target) := by
  refine current_traced.bind fun g => ?_
  split
  · exact Traced.pure _
  · refine (Traced.sumM fun i _ => generateNeighbor_traced).bind fun around => ?_
    refine postProcessArea_traced.bind fun center => ?_
    exact current_traced.bind fun g => Traced.pure _

def errorCount (results : List (Except WorldStoreError InfiniteGenerationResult)) : Nat :=
  results.countP fun r => !r.isOk

theorem generateAll_traced (terrain : Terrain γ) (targets : List ChunkCoord)
    (g : OverworldInfinite γ) :
    ∃ trace, PopulationPath terrain g trace (generateAll terrain targets g).2 ∧
      trace.countP (fun a => !a.completed) = errorCount (generateAll terrain targets g).1 := by
  induction targets generalizing g with
  | nil => exact ⟨[], .nil g, rfl⟩
  | cons target rest ih =>
    obtain ⟨first, hfirst, hone⟩ : ∃ trace, PopulationPath terrain g trace
        ((generateIntoStore terrain target).exec g).2 ∧ _ := generateIntoStore_traced g
    obtain ⟨more, hmore, hcount⟩ := ih ((generateIntoStore terrain target).exec g).2
    refine ⟨first ++ more, hfirst.append hmore, ?_⟩
    rw [List.countP_append, hone, hcount, generateAll, errorCount, errorCount, List.countP_cons,
      failures_of_isOk, Nat.add_comm]
    cases ((generateIntoStore terrain target).exec g).1.isOk <;> rfl

section

variable {R : OverworldInfinite γ → OverworldInfinite γ → Prop}

theorem carveChunk_moves [Std.Refl R] [IsTrans (OverworldInfinite γ) R]
    (hstate : ∀ f, Moves R (updateState f))
    (hinstall : Moves R (installGenerated p (carvedImport (terrain.carve p)))) :
    Moves R (carveChunk terrain p) :=
  (hstate _).bind fun _ => hinstall

end

theorem PopulationStep.marked {f : UInt8 → Bool} (hf : LifecycleClosed f)
    (hstep : PopulationStep terrain g a h) (hp : Marked f p g) : Marked f p h := by
  cases hstep with
  | @carve q hq =>
    refine carveChunk_moves (fun _ _ h => h) (installGenerated_marked fun heq => ?_) g hp
    exact absurd (heq ▸ hp.generated hf) hq
  | postProcess hq hready hs =>
    refine populateCenter_marked hf (fun i hi => .inl ?_) g hp
    obtain ⟨c, hc, hflags⟩ := neighborhood_resident hs i
    simp only [Marked, hi, hc, Option.any_some] at hp
    rw [hflags]
    exact hp

theorem exec_of_isOk {σ ε α : Type} {m : Effect ε σ α} {s : σ} (h : (m.exec s).1.isOk = true) :
    ∃ b, m.exec s = (.ok b, (m.exec s).2) := by
  generalize m.exec s = r at h
  obtain ⟨result, t⟩ := r
  cases result with
  | error e => cases h
  | ok b => exact ⟨b, rfl⟩

def PopulationStage.reached : PopulationStage → UInt8 → Bool
  | carved => isGenerated
  | postProcessed => isFull

theorem PopulationStage.reached_closed (stage : PopulationStage) : LifecycleClosed stage.reached := by
  cases stage with
  | carved => exact isGenerated_closed
  | postProcessed => exact isFull_closed

theorem PopulationStep.reached (hstep : PopulationStep terrain g a h) (ha : a.completed = true) :
    ¬Marked a.event.stage.reached a.event.position g ∧
      Marked a.event.stage.reached a.event.position h := by
  cases hstep with
  | carve hq =>
    obtain ⟨b, hb⟩ := exec_of_isOk ha
    obtain ⟨-, u, -, hu⟩ := bind_ok.mp hb
    exact ⟨hq, installGenerated_reaches (carvedImport_generated _) _ _ _ hu⟩
  | postProcess hq =>
    obtain ⟨n, hn⟩ := exec_of_isOk ha
    exact ⟨hq, populateCenter_reaches _ _ _ hn⟩

theorem PopulationStep.ready (hstep : PopulationStep terrain g a h)
    (ha : a.event = ⟨.postProcessed, p⟩) (i : Fin 9) : Generated (neighborhoodPosition p i) g := by
  cases hstep with
  | carve => cases ha
  | postProcess _ hready =>
    cases (PopulationEvent.mk.inj ha).2
    exact hready i

theorem PopulationPath.marked {f : UInt8 → Bool} (hf : LifecycleClosed f)
    (hpath : PopulationPath terrain g trace h) : keeps (Marked f p) g h :=
  hpath.moves fun _ _ _ hstep => hstep.marked hf

theorem PopulationPath.count_completed (hpath : PopulationPath terrain g trace h)
    (e : PopulationEvent) : trace.countP (fun a => a.event == e && a.completed) ≤ 1 := by
  have hkeep (s : OverworldInfinite γ) (a : PopulationAttempt) (t : OverworldInfinite γ)
      (hs : PopulationStep terrain s a t) :
      Marked e.stage.reached e.position s → Marked e.stage.reached e.position t :=
    hs.marked e.stage.reached_closed
  refine hpath.countP_le_one hkeep fun s a t hs ha => ?_
  rw [Bool.and_eq_true, beq_iff_eq] at ha
  obtain ⟨rfl, hdone⟩ := ha
  exact hs.reached hdone

theorem countP_and_not_add (f k : PopulationAttempt → Bool) (trace : List PopulationAttempt) :
    trace.countP f ≤ trace.countP (fun a => f a && k a) + trace.countP (fun a => !k a) := by
  induction trace with
  | nil => simp
  | cons a trace ih =>
    simp only [List.countP_cons]
    cases f a <;> cases k a <;> simp <;> omega

theorem PopulationPath.count_event (hpath : PopulationPath terrain g trace h) (e : PopulationEvent) :
    (trace.map (·.event)).count e ≤ 1 + trace.countP fun a => !a.completed := by
  have hsplit := countP_and_not_add (fun a => a.event == e) (·.completed) trace
  rw [List.count, List.countP_map]
  exact hsplit.trans (Nat.add_le_add_right (hpath.count_completed e) _)

section

variable {m n : OverworldInfinite (γ × List PopulationEvent)}

theorem installs_state {γ : Type} (l : List (Fin 9)) (i : Fin 9 → ChunkImport) :
    Moves (fun g h : OverworldInfinite γ => g.state = h.state)
      (sumM (fun index => installCounted (neighborhoodPosition p index) (i index)) l) := by
  have hrefl : Std.Refl fun g h : OverworldInfinite γ => g.state = h.state := ⟨fun _ => rfl⟩
  have htrans : IsTrans (OverworldInfinite γ) fun g h => g.state = h.state :=
    ⟨fun _ _ _ h k => h.trans k⟩
  exact Moves.sumM fun index _ => installCounted_moves fun _ => rfl

theorem populateCenter_exec {γ : Type} (terrain : Terrain γ) (target : ChunkCoord) (state : γ)
    (snapshots : Fin 9 → ChunkSnapshot) (g : OverworldInfinite γ) :
    (populateCenter terrain target state snapshots).exec g =
      let populated := terrain.populate state target fun i => planesFromSnapshot (snapshots i)
      (sumM (fun i => installCounted (neighborhoodPosition target i)
        (populatedImport (snapshots i) (populated.2.1 i) populated.2.2 i)) (List.finRange 9)).exec
          { g with state := populated.1 } := rfl

theorem PopulationStep.logged (hstep : PopulationStep terrain.logged m a n) :
    n.log = m.log ++ [a.event] := by
  cases hstep with
  | carve => rfl
  | @postProcess p snapshots =>
    rw [populateCenter_exec]
    exact (congrArg Prod.snd (installs_state _ _ _)).symm

theorem PopulationPath.logged (hpath : PopulationPath terrain.logged m trace n) :
    n.log = m.log ++ trace.map (·.event) := by
  induction hpath with
  | nil => simp
  | cons hs _ ih => rw [ih, hs.logged, List.map_cons, List.append_assoc, List.singleton_append]

theorem carveChunk_logged :
    Maps OverworldInfinite.withoutLog (carveChunk terrain.logged p) (carveChunk terrain p) :=
  fun _ => rfl

theorem ensureGeneratedChunk_logged :
    Maps OverworldInfinite.withoutLog (ensureGeneratedChunk terrain.logged p)
      (ensureGeneratedChunk terrain p) := by
  intro m
  rw [ensureGeneratedChunk_carve, ensureGeneratedChunk_carve, OverworldInfinite.withoutLog_store]
  by_cases hp : m.store.generatedAt p = true
  · rw [if_pos hp, if_pos hp]
  · rw [if_neg hp, if_neg hp]
    exact carveChunk_logged m

theorem installs_logged {γ : Type} (i : Fin 9 → ChunkImport) :
    Maps (OverworldInfinite.withoutLog (γ := γ))
      (sumM (fun index => installCounted (neighborhoodPosition p index) (i index)) (List.finRange 9))
      (sumM (fun index => installCounted (neighborhoodPosition p index) (i index)) (List.finRange 9)) :=
  Maps.sumM (fun _ => Maps.bind (fun _ => rfl) fun changed => Maps.pure (Bool.toNat changed)) _

theorem populateCenter_logged {snapshots : Fin 9 → ChunkSnapshot} (m) :
    (populateCenter terrain target m.withoutLog.state snapshots).exec m.withoutLog =
      (((populateCenter terrain.logged target m.state snapshots).exec m).1,
        ((populateCenter terrain.logged target m.state snapshots).exec m).2.withoutLog) := by
  rw [populateCenter_exec, populateCenter_exec]
  let populated := terrain.populate m.state.1 target fun i => planesFromSnapshot (snapshots i)
  exact installs_logged
    (fun i => populatedImport (snapshots i) (populated.2.1 i) populated.2.2 i)
    { m with state := (populated.1, m.state.2 ++ [⟨.postProcessed, target⟩]) }

theorem tryPostProcessCenter_logged :
    Maps OverworldInfinite.withoutLog (tryPostProcessCenter terrain.logged target)
      (tryPostProcessCenter terrain target) := by
  intro m
  rw [tryPostProcessCenter_exec, tryPostProcessCenter_exec, OverworldInfinite.withoutLog_store]
  by_cases hskip : (!m.store.generatedAt target || m.store.fullAt target) = true
  · rw [if_pos hskip, if_pos hskip]
  · rw [if_neg hskip, if_neg hskip]
    cases readySnapshots (m.store.neighborhoodSnapshots target) with
    | none => rfl
    | some snapshots => exact populateCenter_logged m

theorem postProcessArea_logged :
    Maps OverworldInfinite.withoutLog (postProcessArea terrain.logged p) (postProcessArea terrain p) :=
  Maps.sumM (fun _ => tryPostProcessCenter_logged) postProcessOffsets

theorem generateNeighbor_logged :
    Maps OverworldInfinite.withoutLog (generateNeighbor terrain.logged p)
      (generateNeighbor terrain p) := by
  refine ensureGeneratedChunk_logged.bind fun changed => ?_
  cases changed with
  | false => exact Maps.pure 0
  | true => exact postProcessArea_logged.bind fun n => Maps.pure (1 + n)

theorem generateIntoStore_logged :
    Maps OverworldInfinite.withoutLog (generateIntoStore terrain.logged target)
      (generateIntoStore terrain target) := by
  intro m
  rw [generateIntoStore_exec, generateIntoStore_exec, OverworldInfinite.withoutLog_store]
  by_cases hfull : m.store.fullAt target = true
  · rw [if_pos hfull, if_pos hfull]
  · rw [if_neg hfull, if_neg hfull]
    refine Maps.bind (Maps.sumM (fun i => generateNeighbor_logged) _) (fun around => ?_) m
    exact postProcessArea_logged.bind fun center _ => rfl

theorem generateAll_logged (targets : List ChunkCoord) (m) :
    generateAll terrain targets m.withoutLog =
      ((generateAll terrain.logged targets m).1,
        (generateAll terrain.logged targets m).2.withoutLog) := by
  induction targets generalizing m with
  | nil => rfl
  | cons target rest ih =>
    rw [generateAll, generateAll, generateIntoStore_logged m]
    simp only [ih]

end

theorem generateAll_append (earlier later : List ChunkCoord) (g : OverworldInfinite γ) :
    generateAll terrain (earlier ++ later) g =
      ((generateAll terrain earlier g).1 ++
          (generateAll terrain later (generateAll terrain earlier g).2).1,
        (generateAll terrain later (generateAll terrain earlier g).2).2) := by
  induction earlier generalizing g with
  | nil => rfl
  | cons target rest ih =>
    rw [List.cons_append, generateAll, generateAll]
    simp only [ih, List.cons_append]

theorem generateAll_moves {R : OverworldInfinite γ → OverworldInfinite γ → Prop} [Std.Refl R]
    [IsTrans (OverworldInfinite γ) R] {targets : List ChunkCoord}
    (h : ∀ target ∈ targets, Moves R (generateIntoStore terrain target)) (g : OverworldInfinite γ) :
    R g (generateAll terrain targets g).2 := by
  induction targets generalizing g with
  | nil => exact Std.Refl.refl (r := R) g
  | cons target rest ih =>
    exact IsTrans.trans _ _ _ (h target (by simp) g) (ih (fun t ht => h t (by simp [ht])) _)

theorem generateAll_marked (terrain : Terrain γ) {f : UInt8 → Bool} (hf : LifecycleClosed f) (targets : List ChunkCoord)
    (g : OverworldInfinite γ) : keeps (Marked f p) g (generateAll terrain targets g).2 := by
  obtain ⟨trace, hpath, -⟩ := generateAll_traced terrain targets g
  exact hpath.marked hf

theorem generateAll_full {targets : List ChunkCoord} {result : InfiniteGenerationResult}
    (h : (target, .ok result) ∈ targets.zip (generateAll terrain targets g).1) :
    Full target (generateAll terrain targets g).2 := by
  induction targets generalizing g with
  | nil => simp [generateAll] at h
  | cons first rest ih =>
    rw [generateAll, List.zip_cons_cons, List.mem_cons] at h
    rcases h with h | h
    · obtain ⟨rfl, hr⟩ := Prod.mk.inj h
      have hm : (generateIntoStore terrain target).exec g =
          (.ok result, ((generateIntoStore terrain target).exec g).2) := by rw [hr]
      exact generateAll_marked terrain isFull_closed rest _ (generateIntoStore_center hm).1
    · exact ih h

theorem generateAll_spreads (targets : List ChunkCoord) (g : OverworldInfinite γ) :
    Spreads (fun p => ∃ target ∈ targets, Around target p) g (generateAll terrain targets g).2 :=
  generateAll_moves (fun target ht g => (generateIntoStore_spreads g).weaken
    fun _ hp => ⟨target, ht, hp⟩) g

def keepsFlags (flags : UInt8) (later : UInt8) : Bool :=
  isGenerated later && flags &&& fullLifecycle &&& later == flags &&& fullLifecycle

theorem keepsFlags_closed (flags : UInt8) : LifecycleClosed (keepsFlags flags) where
  full := by
    have hidem : fullLifecycle &&& fullLifecycle = fullLifecycle := by decide
    have hgen : isGenerated fullLifecycle = true := by decide
    rw [keepsFlags, UInt8.and_assoc, hidem, hgen, Bool.true_and, beq_self_eq_true]
  or later h := by
    rw [keepsFlags, Bool.and_eq_true, beq_iff_eq] at h ⊢
    refine ⟨isGenerated_or later, ?_⟩
    have hor (b : UInt8) : b &&& (later ||| chunkLifecycleGenerated) =
        (b &&& later) ||| (b &&& chunkLifecycleGenerated) :=
      UInt8.toBitVec_inj.1 BitVec.and_or_distrib_left
    have habsorb (b : UInt8) : b ||| (b &&& chunkLifecycleGenerated) = b := by
      refine UInt8.toBitVec_inj.1 (BitVec.eq_of_getElem_eq fun i hi => ?_)
      rw [UInt8.toBitVec_or, UInt8.toBitVec_and, BitVec.getElem_or, BitVec.getElem_and]
      cases b.toBitVec[i] <;> rfl
    rw [hor, h.2, habsorb]
  generated later h := by
    rw [keepsFlags, Bool.and_eq_true] at h
    exact h.1

structure PopulationDiscipline (terrain : Terrain γ) (targets : List ChunkCoord)
    (g : OverworldInfinite γ) : Prop where
  -- The log is kept beside the run and changes nothing in it.
  same_run : generateAll terrain targets g =
    ((generateAll terrain.logged targets g.withEmptyLog).1,
      (generateAll terrain.logged targets g.withEmptyLog).2.withoutLog)
  at_most_once : ∀ e, (generateAll terrain.logged targets g.withEmptyLog).2.log.count e ≤
    1 + errorCount (generateAll terrain targets g).1
  ready : ∀ before p after,
    (generateAll terrain.logged targets g.withEmptyLog).2.log =
        before ++ ⟨.postProcessed, p⟩ :: after →
      ∃ attempts m rest, PopulationPath terrain.logged g.withEmptyLog attempts m ∧
        PopulationPath terrain.logged m rest
          (generateAll terrain.logged targets g.withEmptyLog).2 ∧
        m.log = before ∧ ∀ i, Generated (neighborhoodPosition p i) m
  flags_kept : ∀ earlier later, targets = earlier ++ later → ∀ p c,
    (generateAll terrain earlier g).2.store.chunks p = some c →
      isGenerated c.lifecycleFlags = true →
        ∃ c', (generateAll terrain targets g).2.store.chunks p = some c' ∧
          c.lifecycleFlags &&& fullLifecycle &&& c'.lifecycleFlags =
            c.lifecycleFlags &&& fullLifecycle
  completed : ∀ target result,
    (target, .ok result) ∈ targets.zip (generateAll terrain targets g).1 →
      Full target (generateAll terrain targets g).2 ∧
        (generateIntoStore terrain target).exec (generateAll terrain targets g).2 =
          (.ok ⟨0, false⟩, (generateAll terrain targets g).2)
  spreads : ∀ p, g.store.chunks p = none →
    ((generateAll terrain targets g).2.store.chunks p).isSome →
      ∃ target ∈ targets, Around target p

theorem generateAll_at_most_once (targets : List ChunkCoord) (g : OverworldInfinite γ)
    (e : PopulationEvent) :
    (generateAll terrain.logged targets g.withEmptyLog).2.log.count e ≤
      1 + errorCount (generateAll terrain targets g).1 := by
  obtain ⟨trace, hpath, hfailed⟩ := generateAll_traced terrain.logged targets g.withEmptyLog
  have hlog : (generateAll terrain.logged targets g.withEmptyLog).2.log = trace.map (·.event) :=
    hpath.logged
  have hresults : (generateAll terrain targets g).1 =
      (generateAll terrain.logged targets g.withEmptyLog).1 :=
    congrArg Prod.fst (generateAll_logged targets g.withEmptyLog)
  rw [hlog, hresults, ← hfailed]
  exact hpath.count_event e

theorem generateAll_ready {targets : List ChunkCoord} {g : OverworldInfinite γ}
    {before after : List PopulationEvent}
    (h : (generateAll terrain.logged targets g.withEmptyLog).2.log =
      before ++ ⟨.postProcessed, p⟩ :: after) :
    ∃ attempts m rest, PopulationPath terrain.logged g.withEmptyLog attempts m ∧
      PopulationPath terrain.logged m rest (generateAll terrain.logged targets g.withEmptyLog).2 ∧
      m.log = before ∧ ∀ i, Generated (neighborhoodPosition p i) m := by
  obtain ⟨trace, hpath, -⟩ := generateAll_traced terrain.logged targets g.withEmptyLog
  have hlog : (generateAll terrain.logged targets g.withEmptyLog).2.log = trace.map (·.event) :=
    hpath.logged
  rw [h] at hlog
  obtain ⟨attempts, rest, rfl, hbefore, hrest⟩ := List.map_eq_append_iff.mp hlog.symm
  obtain ⟨a, more, rfl, ha, -⟩ := List.map_eq_cons_iff.mp hrest
  obtain ⟨m, hm, hend⟩ := hpath.split
  refine ⟨attempts, m, a :: more, hm, hend, ?_, ?_⟩
  · rw [PopulationPath.logged hm, hbefore]
    rfl
  · cases hend with
    | cons hstep _ => exact hstep.ready ha

theorem generateAll_flags_kept (earlier later : List ChunkCoord) (g : OverworldInfinite γ)
    {c : ChunkRecord} (hc : (generateAll terrain earlier g).2.store.chunks p = some c)
    (hgen : isGenerated c.lifecycleFlags = true) :
    ∃ c', (generateAll terrain (earlier ++ later) g).2.store.chunks p = some c' ∧
      c.lifecycleFlags &&& fullLifecycle &&& c'.lifecycleFlags =
        c.lifecycleFlags &&& fullLifecycle := by
  have hself (b : UInt8) : b &&& fullLifecycle &&& b = b &&& fullLifecycle := by
    rw [UInt8.and_comm, ← UInt8.and_assoc, UInt8.and_self]
  have hmarked : Marked (keepsFlags c.lifecycleFlags) p (generateAll terrain earlier g).2 := by
    rw [Marked, hc, Option.any_some, keepsFlags, hgen, hself, Bool.true_and, beq_self_eq_true]
  have hlater := generateAll_marked terrain (keepsFlags_closed _) later _ hmarked
  obtain ⟨c', hc', hkeeps⟩ := (Option.any_eq_true _ _).mp hlater
  rw [keepsFlags, Bool.and_eq_true, beq_iff_eq] at hkeeps
  rw [generateAll_append]
  exact ⟨c', hc', hkeeps.2⟩

theorem population_discipline (terrain : Terrain γ) (targets : List ChunkCoord)
    (g : OverworldInfinite γ) : PopulationDiscipline terrain targets g where
  same_run := generateAll_logged targets g.withEmptyLog
  at_most_once := generateAll_at_most_once targets g
  ready _ _ _ h := generateAll_ready h
  flags_kept earlier later h p c hc hgen := by
    subst h
    exact generateAll_flags_kept earlier later g hc hgen
  completed target result h :=
    ⟨generateAll_full h, generateIntoStore_of_full (generateAll_full h)⟩
  spreads p hp hsome := by
    obtain ⟨c, hc⟩ := Option.isSome_iff_exists.mp hsome
    exact ((generateAll_spreads targets g).fresh p c hp hc).1

-- A chunk whose neighborhood misses one position that stays missing is never a center.
def Sidelined (p q : ChunkCoord) (g : OverworldInfinite γ) : Prop :=
  (∀ c, g.store.chunks p = some c → c.lifecycleFlags = chunkLifecycleGenerated) ∧
    g.store.chunks q = none

theorem installGenerated_sidelined {r : ChunkCoord} {i : ChunkImport} (hq : r ≠ q)
    (hi : r = p → i.lifecycleFlags = chunkLifecycleGenerated) :
    Moves (keeps (Sidelined (γ := γ) p q)) (installGenerated r i) := by
  intro g hside
  have hsame : (g.store.installGeneratedChunk r i).2.chunks q = none := by
    rw [WorldStore.installGenerated_of_ne i hq.symm]
    exact hside.2
  refine ⟨fun c hc => ?_, hsame⟩
  cases hp : g.store.chunks p with
  | none =>
    obtain ⟨hpr, -⟩ := (WorldStore.installGenerated_grew i).fresh p c hp hc
    obtain ⟨rfl, hnone⟩ := hpr
    have hc : (g.store.installGeneratedChunk p i).2.chunks p = some c := hc
    rw [WorldStore.installGeneratedChunk] at hc
    split at hc
    · rw [hp] at hc
      cases hc
    · simp only [hp, WorldStore.setChunk_self, Option.some.injEq] at hc
      rw [← hc]
      exact hi rfl
  | some d =>
    obtain ⟨c', hc', hflags⟩ := WorldStore.installGenerated_flags (p := r) i hp
    have hcc : c = c' := Option.some.inj (hc.symm.trans hc')
    subst hcc
    rcases hflags with hflags | ⟨hpr, hflags⟩
    · rw [hflags]
      exact hside.1 d hp
    · rw [hflags]
      exact hi hpr.symm

theorem tryPostProcessCenter_sidelined (hq : Around p q) :
    Moves (keeps (Sidelined p q)) (tryPostProcessCenter terrain target) := by
  refine tryPostProcessCenter_moves fun g snapshots hs hside => ?_
  have hresident (i : Fin 9) : neighborhoodPosition target i ≠ q := by
    intro hi
    obtain ⟨c, hc, -⟩ := neighborhood_resident hs i
    rw [hi, hside.2] at hc
    cases hc
  have hcenter : target ≠ p := by
    rintro rfl
    obtain ⟨i, hi⟩ := hq
    exact hresident i hi.symm
  refine (?_ : Moves (keeps (Sidelined p q)) (populateCenter terrain target g.state snapshots)) g hside
  refine populateCenter_moves (fun _ _ h => h) fun planes finalized i => ?_
  refine installGenerated_sidelined (hresident i) fun hi => ?_
  have h4 : i ≠ 4 := by
    rintro rfl
    exact hcenter ((neighborhoodPosition_center target).symm.trans hi)
  obtain ⟨c, hc, hflags⟩ := neighborhood_resident hs i
  rw [populatedImport, if_neg h4, hflags, hside.1 c (hi ▸ hc), UInt8.or_self]

theorem ensureGeneratedChunk_sidelined {r : ChunkCoord} (hr : r ≠ q) :
    Moves (keeps (Sidelined p q)) (ensureGeneratedChunk terrain r) := by
  intro g hside
  rw [ensureGeneratedChunk_carve]
  split
  · exact hside
  · exact carveChunk_moves (fun _ _ h => h) (installGenerated_sidelined hr fun _ => rfl) g hside

section

variable {first : ChunkCoord} (hfirst : first = neighborhoodPosition target 0)
  (hfull : ¬g.store.fullAt target = true) (hgen : ¬g.store.generatedAt first = true)

include hfirst hfull hgen

-- The first position of the neighborhood is carved over, and its old flags are gone for good.
theorem generateIntoStore_sidelined (hq : Around first q)
    (hout : ∀ i, neighborhoodPosition target i ≠ q) (hnone : g.store.chunks q = none)
    (hcarved : ∃ c, (g.store.installGeneratedChunk first
      (carvedImport (terrain.carve first))).2.chunks first = some c ∧
        c.lifecycleFlags = chunkLifecycleGenerated) :
    Sidelined first q ((generateIntoStore terrain target).exec g).2 := by
  have hensure : Sidelined first q ((ensureGeneratedChunk terrain first).exec g).2 := by
    rw [ensureGeneratedChunk_exec, if_neg hgen]
    obtain ⟨c, hc, hflags⟩ := hcarved
    have hne : q ≠ first := hfirst ▸ (hout 0).symm
    refine ⟨fun d hd => ?_, (WorldStore.installGenerated_of_ne _ hne).trans hnone⟩
    rw [← Option.some.inj (hc.symm.trans hd)]
    exact hflags
  have harea (r : ChunkCoord) : Moves (keeps (Sidelined first q)) (postProcessArea terrain r) :=
    postProcessArea_moves fun _ => tryPostProcessCenter_sidelined hq
  have hneighbor (changed : Bool) : Moves (keeps (Sidelined first q)) (if changed then do
      let n ← postProcessArea terrain first
      pure (1 + n)
    else pure 0) := by
    cases changed with
    | false => exact Moves.pure 0
    | true => exact (harea first).bind fun n => Moves.pure (1 + n)
  have hrest (l : List (Fin 9)) : Moves (keeps (Sidelined first q))
      (sumM (fun i => generateNeighbor terrain (neighborhoodPosition target i)) l) :=
    Moves.sumM fun i _ => generateNeighbor_moves (ensureGeneratedChunk_sidelined (hout i))
      fun _ => tryPostProcessCenter_sidelined hq
  rw [generateIntoStore_exec, if_neg hfull, List.finRange_succ, sumM, ← hfirst]
  refine bind_keeps (bind_keeps (bind_keeps hensure hneighbor) fun n => ?_) fun around => ?_
  · exact (hrest _).bind fun m => Moves.pure (n + m)
  · exact (harea target).bind fun center => current_moves.bind fun g => Moves.pure _

theorem generateIntoStore_refused {e : WorldStoreError}
    (hrefused : g.store.installGeneratedChunk first (carvedImport (terrain.carve first)) =
      (.error e, g.store)) :
    (generateIntoStore terrain target).exec g =
      (.error e, { g with state := terrain.addFeatures g.state first }) := by
  have hensure : (ensureGeneratedChunk terrain first).exec g =
      (.error e, { g with state := terrain.addFeatures g.state first }) := by
    rw [ensureGeneratedChunk_exec, if_neg hgen, installGenerated, exec_ofOp]
    dsimp only
    rw [hrefused]
  rw [generateIntoStore_exec, if_neg hfull, List.finRange_succ, sumM, ← hfirst]
  exact bind_error (bind_error (bind_error hensure))

end

def meadowWord : UInt32 := 0x0192bc59

def stoneCarved : CarvedChunk where
  states := List.replicate chunkBlockCount 16
  biomes := List.replicate chunkColumnCount meadowWord
  heightMap := List.replicate chunkColumnCount 128

def stoneTerrain : Terrain Unit where
  carve _ := stoneCarved
  addFeatures _ _ := ()
  populate _ _ planes :=
    ((), planes, ⟨List.replicate chunkColumnCount 128, List.replicate chunkNibbleBytes 0,
      List.replicate chunkNibbleBytes 0⟩)

theorem stoneTerrain_carve (p : ChunkCoord) : stoneTerrain.carve p = stoneCarved := rfl

def origin : ChunkCoord := ⟨0, 0⟩

local instance nineChunks : NeZero 9 := ⟨by decide⟩

def corner : ChunkCoord := neighborhoodPosition origin 0

-- The store's own calls create the corner chunk and mark it as populated.
def markedStore : WorldStore :=
  ((WorldStore.new.ensureChunk corner 1).2.setLifecycleFlags corner chunkLifecyclePopulated).2

def exhaustedImport : ChunkImport where
  terrainRevision := 0xffffffffffffffff
  lightRevision := 0
  lifecycleFlags := 0
  data := ChunkData.empty meadowWord

def exhaustedStore : WorldStore := (WorldStore.new.importChunk corner exhaustedImport).2

theorem stoneCarved_valid : validateImport (carvedImport stoneCarved) = .ok () := by
  refine validateImport_ok_iff.mpr ⟨by rw [carvedImport]; decide, ?_⟩
  rw [carvedImport, stoneCarved]
  constructor
  · exact List.length_replicate
  · exact List.length_replicate
  · exact List.length_replicate
  · exact List.length_replicate
  · exact List.length_replicate
  · intro state hs
    rw [List.eq_of_mem_replicate hs]
    decide
  · intro word hw
    rw [List.eq_of_mem_replicate hw]
    decide

theorem markedStore_chunks : markedStore.chunks =
    Function.update (fun _ => none) corner
      (some { ChunkRecord.empty meadowWord with lifecycleFlags := chunkLifecyclePopulated }) := by
  have hword : defaultBiomeWord 1 = some meadowWord := by decide
  have hflags : validateLifecycleFlags chunkLifecyclePopulated = .ok () := by decide
  have hensure : (WorldStore.new.ensureChunk corner 1).2 =
      WorldStore.new.setChunk corner (ChunkRecord.empty meadowWord) := by
    rw [WorldStore.ensureChunk, hword]
    rfl
  rw [markedStore, hensure, WorldStore.setLifecycleFlags, hflags]
  simp only [WorldStore.withChunkMut, WorldStore.setChunk_self]
  simp [WorldStore.setChunk, WorldStore.new]

theorem exhaustedStore_chunks : exhaustedStore.chunks =
    Function.update (fun _ => none) corner (some (ChunkRecord.fromImport exhaustedImport)) := by
  have hword : biomeIdIsSupported (biomeId meadowWord) = true := by decide
  have hvalid : validateImport exhaustedImport = .ok () := by
    refine validateImport_ok_iff.mpr ?_
    rw [exhaustedImport]
    exact ⟨by decide, ChunkData.empty_wellFormed meadowWord hword⟩
  rw [exhaustedStore, WorldStore.importChunk, hvalid]
  rfl

theorem markedStore_carved :
    ∃ c, (markedStore.installGeneratedChunk corner (carvedImport stoneCarved)).2.chunks corner =
      some c ∧ c.lifecycleFlags = chunkLifecycleGenerated := by
  have hok : ∃ changed, (markedStore.installGeneratedChunk corner (carvedImport stoneCarved)).1 =
      .ok changed := by
    rw [WorldStore.installGeneratedChunk, stoneCarved_valid, markedStore_chunks]
    simp only [Function.update_self]
    exact installOver_accepted (t := 1) (l := 1) rfl rfl
  obtain ⟨changed, h⟩ := hok
  exact WorldStore.installGenerated_ok h

theorem exhaustedStore_refuses :
    exhaustedStore.installGeneratedChunk corner (carvedImport stoneCarved) =
      (.error .terrainRevisionExhausted, exhaustedStore) := by
  have hchunk : exhaustedStore.chunks corner = some (ChunkRecord.fromImport exhaustedImport) := by
    rw [exhaustedStore_chunks, Function.update_self]
  have hspent : checkedSucc (ChunkRecord.fromImport exhaustedImport).terrainRevision = none := by
    rw [ChunkRecord.fromImport, exhaustedImport]
    rfl
  have hstates : List.replicate chunkBlockCount (0 : UInt16) ≠ List.replicate chunkBlockCount 16 := by
    rw [Ne, List.replicate_right_inj (by decide)]
    decide
  have hdiff : ((ChunkRecord.fromImport exhaustedImport).data.states !=
      (carvedImport stoneCarved).data.states) = true := by
    rw [ChunkRecord.fromImport, exhaustedImport, carvedImport, stoneCarved, ChunkData.empty]
    exact bne_iff_ne.mpr hstates
  have hterrain : WorldStore.terrainChanged (ChunkRecord.fromImport exhaustedImport)
      (carvedImport stoneCarved).data = true := by
    rw [WorldStore.terrainChanged, hdiff, Bool.true_or, Bool.true_or, Bool.true_or]
  rw [WorldStore.installGeneratedChunk, stoneCarved_valid, hchunk]
  dsimp only
  rw [installOver_exhausted hspent hterrain, WorldStore.setChunk_same hchunk]

theorem generateAll_one (terrain : Terrain γ) (target : ChunkCoord) (g : OverworldInfinite γ) :
    (generateAll terrain [target] g).2 = ((generateIntoStore terrain target).exec g).2 := rfl

section

variable {s : WorldStore} {c : ChunkRecord}
  (hs : s.chunks = Function.update (fun _ => none) corner (some c))

include hs

theorem origin_not_full : ¬s.fullAt origin = true := by
  have hne : origin ≠ corner := by decide
  rw [WorldStore.fullAt, hs, Function.update_of_ne hne]
  exact Bool.false_ne_true

theorem corner_not_generated (hc : isGenerated c.lifecycleFlags = false) :
    ¬s.generatedAt corner = true := by
  rw [WorldStore.generatedAt, hs, Function.update_self, Option.any_some, hc]
  exact Bool.false_ne_true

theorem corner_loses_flags (hc : isGenerated c.lifecycleFlags = false)
    (hcarved : ∃ d, (s.installGeneratedChunk corner (carvedImport stoneCarved)).2.chunks corner =
      some d ∧ d.lifecycleFlags = chunkLifecycleGenerated) :
    ((generateAll stoneTerrain [origin] ⟨(), s⟩).2.store.chunks corner).map (·.lifecycleFlags) =
      some chunkLifecycleGenerated := by
  have hout : ∀ i, neighborhoodPosition origin i ≠ neighborhoodPosition corner 0 := by decide
  have hne : neighborhoodPosition corner 0 ≠ corner := by decide
  have hnone : s.chunks (neighborhoodPosition corner 0) = none := by
    rw [hs, Function.update_of_ne hne]
  have hstore : (⟨(), s⟩ : OverworldInfinite Unit).store = s := rfl
  have hside : Sidelined corner (neighborhoodPosition corner 0)
      (generateAll stoneTerrain [origin] ⟨(), s⟩).2 := by
    rw [generateAll_one]
    exact generateIntoStore_sidelined (g := ⟨(), s⟩) rfl (origin_not_full hs)
      (corner_not_generated hs hc) ⟨0, rfl⟩ hout hnone
      (by rw [stoneTerrain_carve, hstore]; exact hcarved)
  have hstart : s.chunks corner = some c := by rw [hs, Function.update_self]
  obtain ⟨d, hd, -⟩ := (generateAll_spreads [origin] ⟨(), s⟩).kept corner c hstart
  rw [hd, Option.map_some, hside.1 d hd]

theorem corner_carved_twice (hc : isGenerated c.lifecycleFlags = false) {e : WorldStoreError}
    (hrefused : s.installGeneratedChunk corner (carvedImport stoneCarved) = (.error e, s)) :
    (generateAll stoneTerrain.logged [origin, origin]
      (OverworldInfinite.withEmptyLog ⟨(), s⟩)).2.log.count ⟨.carved, corner⟩ = 2 := by
  have hrun (log : List PopulationEvent) :
      (generateIntoStore stoneTerrain.logged origin).exec ⟨((), log), s⟩ =
        (.error e, ⟨((), log ++ [⟨.carved, corner⟩]), s⟩) :=
    generateIntoStore_refused (g := ⟨((), log), s⟩) rfl (origin_not_full hs)
      (corner_not_generated hs hc) hrefused
  simp only [generateAll, OverworldInfinite.withEmptyLog, hrun]
  rfl

end

theorem resident_chunks_break_discipline :
    (markedStore.chunks corner).map (·.lifecycleFlags) = some chunkLifecyclePopulated ∧
      ((generateAll stoneTerrain [origin] ⟨(), markedStore⟩).2.store.chunks corner).map
        (·.lifecycleFlags) = some chunkLifecycleGenerated ∧
      (generateAll stoneTerrain.logged [origin, origin]
        (OverworldInfinite.withEmptyLog ⟨(), exhaustedStore⟩)).2.log.count ⟨.carved, corner⟩ = 2 := by
  have hflags : isGenerated chunkLifecyclePopulated = false := by decide
  refine ⟨?_, ?_, ?_⟩
  · rw [markedStore_chunks, Function.update_self]
    rfl
  · exact corner_loses_flags markedStore_chunks hflags markedStore_carved
  · exact corner_carved_twice exhaustedStore_chunks rfl exhaustedStore_refuses

end Cobblestone.World
