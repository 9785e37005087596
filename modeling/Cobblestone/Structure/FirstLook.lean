import Cobblestone.Structure.History

namespace Cobblestone.Structure

open Lib World

section Stronghold

variable {F : Type} (setting : Setting F)

-- The three positions with the stream that their search leaves behind.
def searched : Option (List ChunkCoord × MtRandom) :=
  (StrongholdFeature.new setting).generatePositions setting (.new 0)

def settled (positions : List ChunkCoord) : StrongholdFeature :=
  { StrongholdFeature.new setting with selectedChunks := some positions }

def strongholdAt (positions : List ChunkCoord) (source : ChunkCoord) : Bool :=
  positions.contains source ||
    hasAdditionalStronghold setting.floats setting.seed.toUInt32 source

def strongholdChunk (source : ChunkCoord) : Bool :=
  match searched setting with
  | some (positions, _) => strongholdAt setting positions source
  | none => false

def ownStream (source : ChunkCoord) : MtRandom :=
  (structureSourceRandom setting.seed.toUInt32 source).nextPositiveInt.2

def searchTail : MtRandom :=
  match searched setting with
  | some (_, tail) => tail
  | none => .new 0

def strongholdPlan (stream : ChunkCoord → MtRandom) (source : ChunkCoord) :
    Option StrongholdPlan :=
  if strongholdChunk setting source then
    some (.generate setting.builders source (stream source))
  else none

-- The streams of an application by structures that have yet to search.
def firstStreams (first source : ChunkCoord) : MtRandom :=
  if source = first then searchTail setting else ownStream setting source

variable {setting}

theorem strongholdPlan_eq_some {stream : ChunkCoord → MtRandom} {source : ChunkCoord}
    {start : StrongholdPlan} (h : strongholdPlan setting stream source = some start) :
    start = .generate setting.builders source (stream source) := by
  rw [strongholdPlan] at h
  split at h
  · exact (Option.some.inj h).symm
  · cases h

theorem strongholdPlan_isSome (stream : ChunkCoord → MtRandom) (source : ChunkCoord) :
    (strongholdPlan setting stream source).isSome = strongholdChunk setting source := by
  rw [strongholdPlan]
  cases strongholdChunk setting source <;> rfl

section Search

variable {positions : List ChunkCoord} {tail random : MtRandom} {starts : List StrongholdPlan}
  {source : ChunkCoord}

variable (setting) in
theorem isFeatureChunk_settled (positions : List ChunkCoord) (random : MtRandom)
    (source : ChunkCoord) :
    (settled setting positions).isFeatureChunk setting random source =
      some (strongholdAt setting positions source, settled setting positions, random) := by
  unfold StrongholdFeature.isFeatureChunk
  rfl

theorem generatePositions_new (random : MtRandom) :
    (StrongholdFeature.new setting).generatePositions setting random = searched setting := by
  unfold searched StrongholdFeature.generatePositions MtRandom.reseed
  rfl

variable (setting) in
theorem isFeatureChunk_new (random : MtRandom) (source : ChunkCoord) :
    (StrongholdFeature.new setting).isFeatureChunk setting random source =
      match searched setting with
      | none => none
      | some (positions, tail) =>
        some (strongholdAt setting positions source, settled setting positions, tail) := by
  unfold StrongholdFeature.isFeatureChunk
  rw [show (StrongholdFeature.new setting).selectedChunks = none from rfl]
  dsimp only
  rw [generatePositions_new]
  rfl

theorem strongholdAt_eq (h : searched setting = some (positions, tail)) (source : ChunkCoord) :
    strongholdAt setting positions source = strongholdChunk setting source := by
  rw [strongholdChunk, h]

-- One source, looked at with the stream that the look leaves.
theorem applySource_of_look {feature feature' : StrongholdFeature}
    {stream : ChunkCoord → MtRandom}
    (h : feature.isFeatureChunk setting (ownStream setting source) source =
      some (strongholdChunk setting source, feature', stream source)) :
    OverworldStrongholdStructures.applySource setting ⟨feature, starts⟩ source =
      some ⟨feature', visit (strongholds setting).source (strongholdPlan setting stream) starts
        source⟩ := by
  have hlook : feature.isFeatureChunk setting
      (structureSourceRandom setting.seed.toUInt32 source).nextPositiveInt.2 source =
        some (strongholdChunk setting source, feature', stream source) := h
  unfold OverworldStrongholdStructures.applySource
  dsimp only
  rw [hlook, visit, strongholdPlan]
  dsimp only
  cases strongholdChunk setting source with
  | false =>
    cases knows (strongholds setting).source starts source <;> rfl
  | true =>
    change (if knows (strongholds setting).source starts source = true then _ else _) = _
    cases knows (strongholds setting).source starts source <;> rfl

theorem applySources_settled (h : searched setting = some (positions, tail))
    (sources : List ChunkCoord) (starts : List StrongholdPlan) :
    OverworldStrongholdStructures.applySources setting sources
        ⟨settled setting positions, starts⟩ =
      some ⟨settled setting positions, visitAll (strongholds setting).source
        (strongholdPlan setting (ownStream setting)) starts sources⟩ := by
  induction sources generalizing starts with
  | nil => rfl
  | cons source sources ih =>
    have hlook := isFeatureChunk_settled setting positions
      (ownStream setting source) source
    rw [strongholdAt_eq h] at hlook
    rw [OverworldStrongholdStructures.applySources, applySource_of_look hlook]
    exact ih _

theorem applySources_new (h : searched setting = some (positions, tail)) {sources : List ChunkCoord}
    (hnew : source ∉ sources) (starts : List StrongholdPlan) :
    OverworldStrongholdStructures.applySources setting (source :: sources)
        ⟨.new setting, starts⟩ =
      some ⟨settled setting positions, visitAll (strongholds setting).source
        (strongholdPlan setting (firstStreams setting source)) starts (source :: sources)⟩ := by
  have htail : firstStreams setting source source = tail := by
    rw [firstStreams, if_pos rfl, searchTail, h]
  have hlook := isFeatureChunk_new setting (ownStream setting source) source
  rw [h] at hlook
  dsimp only at hlook
  rw [strongholdAt_eq h, ← htail] at hlook
  rw [OverworldStrongholdStructures.applySources, applySource_of_look hlook]
  dsimp only
  rw [applySources_settled h, visitAll, visitAll, List.foldl_cons]
  refine congrArg (fun starts => some (Run.mk (settled setting positions) starts)) ?_
  refine visitAll_congr (fun s hs => ?_) _
  have hother : s ≠ source := fun heq => hnew (heq ▸ hs)
  rw [strongholdPlan, strongholdPlan, firstStreams, if_neg hother]

theorem applySources_lost (h : searched setting = none) (source : ChunkCoord)
    (sources : List ChunkCoord) (starts : List StrongholdPlan) :
    OverworldStrongholdStructures.applySources setting (source :: sources)
      ⟨.new setting, starts⟩ = none := by
  have hlook := isFeatureChunk_new setting (ownStream setting source) source
  rw [h] at hlook
  have hlost : (StrongholdFeature.new setting).isFeatureChunk setting
      (structureSourceRandom setting.seed.toUInt32 source).nextPositiveInt.2 source = none := hlook
  rw [OverworldStrongholdStructures.applySources]
  unfold OverworldStrongholdStructures.applySource
  dsimp only
  rw [hlost]

end Search

section Looks

variable {runtime runtime' : StrongholdFeature} {starts starts' : List StrongholdPlan}
  {target source : ChunkCoord} {steps : List Step} {r r' : Run StrongholdFeature StrongholdPlan}

inductive Searching (setting : Setting F) : StrongholdFeature → Prop where
  | new : Searching setting (.new setting)
  | settled {positions : List ChunkCoord} {tail : MtRandom}
      (h : searched setting = some (positions, tail)) : Searching setting (settled setting positions)

-- Only structures that have yet to search change the stream of a source, the first one they see.
def lookStream (setting : Setting F) (runtime : StrongholdFeature) (target source : ChunkCoord) :
    MtRandom :=
  if runtime.selectedChunks = none ∧ ((strongholds setting).square target).head? = some source then
    searchTail setting
  else ownStream setting source

variable (setting runtime starts target) in
theorem strongholds_apply :
    (strongholds setting).apply runtime starts target =
      match OverworldStrongholdStructures.applySources setting ((strongholds setting).square target)
        ⟨runtime, starts⟩ with
      | some r => some (r.runtime, r.starts)
      | none => none := by
  unfold strongholds Family.square
  rfl

theorem stronghold_apply_eq (hruntime : Searching setting runtime)
    (h : (strongholds setting).apply runtime starts target = some (runtime', starts')) :
    Searching setting runtime' ∧ starts' = visitAll (strongholds setting).source
      (strongholdPlan setting (lookStream setting runtime target)) starts
        ((strongholds setting).square target) := by
  rw [strongholds_apply] at h
  cases hruntime with
  | @settled positions tail hsearched =>
    have hstream : lookStream setting (settled setting positions) target = ownStream setting := by
      refine funext fun s => if_neg fun hs => ?_
      cases hs.1
    rw [applySources_settled hsearched] at h
    cases h
    rw [hstream]
    exact ⟨.settled hsearched, rfl⟩
  | new =>
    have hnodup := (strongholds setting).square_nodup target
    cases hsquare : (strongholds setting).square target with
    | nil =>
      rw [hsquare] at h
      cases h
      exact ⟨.new, rfl⟩
    | cons first sources =>
      rw [hsquare] at h hnodup
      cases hsearched : searched setting with
      | none =>
        rw [applySources_lost hsearched] at h
        cases h
      | some found =>
        obtain ⟨positions, tail⟩ := found
        have hstream : lookStream setting (.new setting) target = firstStreams setting first := by
          refine funext fun s => ?_
          rw [lookStream, firstStreams, hsquare]
          simp only [List.head?_cons, Option.some_inj, StrongholdFeature.new, true_and, eq_comm]
        rw [applySources_new hsearched (List.nodup_cons.mp hnodup).1] at h
        cases h
        rw [hstream]
        exact ⟨.settled hsearched, rfl⟩

theorem strongholds_codec (starts : List StrongholdPlan) :
    (strongholds setting).decode ((strongholds setting).encode starts) =
      StrongholdStructureState.decode (StrongholdStructureState.encode starts) := by
  unfold strongholds
  rfl

def Drawn (setting : Setting F) (start : StrongholdPlan) : Prop :=
  ∃ random, start = .generate setting.builders start.core.source random

variable (setting) in
theorem visits_strongholds :
    Visits (strongholds setting) (Searching setting) (strongholdChunk setting) (Drawn setting) := by
  refine ⟨.new, ?_, fun starts starts' hstarts h => ?_⟩
  · intro runtime starts target runtime' starts' hruntime h
    obtain ⟨hruntime', heq⟩ := stronghold_apply_eq hruntime h
    refine ⟨hruntime', _, strongholdPlan_isSome _, fun s start hs => ?_, heq⟩
    rw [strongholdPlan_eq_some hs]
    exact ⟨rfl, _, rfl⟩
  · rw [strongholds_codec] at h
    have hplans : ∀ start ∈ starts, start.restored = start ∧
        start.pieces.length < 4294967296 := by
      intro start hstart
      obtain ⟨random, hdrawn⟩ := hstarts start hstart
      rw [hdrawn]
      exact ⟨rfl, stronghold_generate_count _ _ _⟩
    rw [stronghold_reload (fun start hs => (hplans start hs).2) h]
    exact map_restored fun start hs => (hplans start hs).1

-- The start of the source was recorded by structures that had yet to search, as the first chunk
-- that they looked at.
def FirstLook (setting : Setting F) (steps : List Step) (source : ChunkCoord) : Prop :=
  ∃ before target after r r', steps = before ++ .apply target :: after ∧
    (strongholds setting).run before = some r ∧ r.runtime.selectedChunks = none ∧
      ((strongholds setting).square target).head? = some source ∧
        knows (strongholds setting).source r.starts source = false ∧
          (strongholds setting).step r (.apply target) = some r' ∧
            knows (strongholds setting).source r'.starts source = true

theorem FirstLook.append (h : FirstLook setting steps source) (s : Step) :
    FirstLook setting (steps ++ [s]) source := by
  obtain ⟨before, target, after, r, r', rfl, hlook⟩ := h
  exact ⟨before, target, after ++ [s], r, r', by simp, hlook⟩

theorem FirstLook.of_append {s : Step} (h : FirstLook setting (steps ++ [s]) source)
    (hr : (strongholds setting).run steps = some r) :
    FirstLook setting steps source ∨ ∃ target, s = .apply target ∧
      r.runtime.selectedChunks = none ∧
        ((strongholds setting).square target).head? = some source ∧
          knows (strongholds setting).source r.starts source = false := by
  obtain ⟨before, target, after, r₀, r', heq, hbefore, hlook⟩ := h
  rcases List.eq_nil_or_concat' after with rfl | ⟨after, t, rfl⟩
  · obtain ⟨rfl, hs⟩ := List.append_inj' heq rfl
    cases hs
    rw [hr] at hbefore
    cases hbefore
    exact .inr ⟨target, rfl, hlook.1, hlook.2.1, hlook.2.2.1⟩
  · rw [← List.cons_append, ← List.append_assoc] at heq
    obtain ⟨rfl, -⟩ := List.append_inj' heq rfl
    exact .inl ⟨before, target, after, r₀, r', rfl, hbefore, hlook⟩

-- Whatever was recorded on a first look is known from then on.
theorem FirstLook.knows (h : FirstLook setting steps source)
    (hr : (strongholds setting).run steps = some r) :
    knows (strongholds setting).source r.starts source = true := by
  obtain ⟨before, target, after, r₀, r', rfl, hbefore, -, -, -, hstep, hknown⟩ := h
  rw [List.append_cons] at hr
  exact (visits_strongholds setting).knows_later (Family.run_snoc hbefore hstep) hknown hr

-- Where the plan of a start was drawn from.
def plannedStream (setting : Setting F) (steps : List Step) (start : StrongholdPlan) : Prop :=
  (FirstLook setting steps start.core.source →
    start = .generate setting.builders start.core.source (searchTail setting)) ∧
  (¬FirstLook setting steps start.core.source →
    start = .generate setting.builders start.core.source (ownStream setting start.core.source))

theorem plannedStream_of_run (hr : (strongholds setting).run steps = some r) :
    ∀ start ∈ r.starts, plannedStream setting steps start := by
  induction steps using List.reverseRecOn generalizing r with
  | nil =>
    cases hr
    exact nofun
  | append_singleton steps s ih =>
    obtain ⟨r₀, hr₀, hs⟩ := Family.run_concat hr
    have hold : ∀ start ∈ r₀.starts, plannedStream setting (steps ++ [s]) start := by
      intro start hstart
      have hknown : knows (strongholds setting).source r₀.starts start.core.source = true :=
        knows_iff.mpr (List.mem_map_of_mem hstart)
      refine ⟨fun hlook => (ih hr₀ start hstart).1 ?_, fun hlook => (ih hr₀ start hstart).2
        fun hbefore => hlook (hbefore.append s)⟩
      rcases hlook.of_append hr₀ with hbefore | ⟨-, -, -, -, hunknown⟩
      · exact hbefore
      · rw [hknown] at hunknown
        cases hunknown
    cases s with
    | restart =>
      rw [(visits_strongholds setting).restart hr₀ hs]
      exact hold
    | apply target =>
      intro start hstart
      have hruntime := ((visits_strongholds setting).kept hr₀).valid
      obtain ⟨-, heq⟩ := stronghold_apply_eq hruntime (Family.step_apply hs)
      have hkey : ∀ s start, strongholdPlan setting (lookStream setting r₀.runtime target) s =
          some start → (strongholds setting).source start = s := by
        intro s start h
        rw [strongholdPlan_eq_some h]
        rfl
      have hall := hstart
      rw [heq, visitAll_eq hkey ((strongholds setting).square_nodup target), List.mem_append,
        mem_unplanned] at hstart
      rcases hstart with hstart | ⟨s, -, hunknown, hplan⟩
      · exact hold start hstart
      · have hsource := hkey s start hplan
        have hstart := strongholdPlan_eq_some hplan
        rw [← hsource] at hstart hunknown
        rw [lookStream] at hstart
        split at hstart
        · rename_i hfirst
          have hlook : FirstLook setting (steps ++ [.apply target]) start.core.source :=
            ⟨steps, target, [], r₀, r, rfl, hr₀, hfirst.1, hfirst.2, hunknown, hs,
              knows_iff.mpr (List.mem_map_of_mem hall)⟩
          exact ⟨fun _ => hstart, fun hnot => absurd hlook hnot⟩
        · rename_i hnot
          refine ⟨fun hlook => ?_, fun _ => hstart⟩
          rcases hlook.of_append hr₀ with hbefore | ⟨target', htarget, hfirst, hhead, -⟩
          · have hknown := hbefore.knows hr₀
            change knows (strongholds setting).source r₀.starts _ = false at hunknown
            rw [show start.core.source = (strongholds setting).source start from rfl, hunknown]
              at hknown
            cases hknown
          · cases htarget
            exact absurd ⟨hfirst, hhead⟩ hnot

variable (setting) in
theorem plansAgree_strongholds :
    PlansAgree (strongholds setting) (strongholdChunk setting) (FirstLook setting) := by
  have hv := visits_strongholds setting
  refine ⟨?_, fun _ _ _ _ => hv.registers, fun _ _ h => (hv.kept h).once,
    fun _ _ _ => hv.restart⟩
  intro steps steps' r r' hr hr' start hstart start' hstart' hsource hlook
  have hplan := plannedStream_of_run hr start hstart
  have hplan' := plannedStream_of_run hr' start' hstart'
  change start.core.source = start'.core.source at hsource
  change FirstLook setting steps start.core.source ↔
    FirstLook setting steps' start.core.source at hlook
  rw [plannedStream, ← hsource] at hplan'
  cases Classical.em (FirstLook setting steps start.core.source) with
  | inl hfirst => exact (hplan.1 hfirst).trans (hplan'.1 (hlook.mp hfirst)).symm
  | inr hnot => exact (hplan.2 hnot).trans (hplan'.2 fun h => hnot (hlook.mpr h)).symm

end Looks

end Stronghold

theorem structure_plans_history {F : Type} (setting : Setting F) :
    PlansAgree (mineshafts setting)
        (fun s => ((mineshaftFeature setting).plan setting.builders s).isSome) never ∧
      PlansAgree (villages setting)
        (fun s => ((villageFeature setting).plan setting.builders s).isSome) never ∧
      PlansAgree (scattered setting) (fun s => (scatteredPlan setting s).isSome) never ∧
      PlansAgree (strongholds setting) (strongholdChunk setting) (FirstLook setting) :=
  ⟨plansAgree_of_plan (visits_mineshafts setting), plansAgree_of_plan (visits_villages setting),
    plansAgree_of_plan (visits_scattered setting), plansAgree_strongholds setting⟩

section FirstChunk

open StrongholdFeature

variable {F : Type} {floats : Floats F} {villages : VillageFeature}

theorem candidateIntoRandom_reseeds (seed : UInt32) (chunk : ChunkCoord) (random : MtRandom) :
    candidateIntoRandom seed chunk random = candidateIntoRandom seed chunk (.new 0) := by
  unfold candidateIntoRandom MtRandom.reseed
  rfl

theorem isFeatureChunkWithRandom_reseeds (chunk : ChunkCoord) (random : MtRandom) :
    villages.isFeatureChunkWithRandom chunk random =
      villages.isFeatureChunkWithRandom chunk (.new 0) := by
  rw [VillageFeature.isFeatureChunkWithRandom, VillageFeature.isFeatureChunkWithRandom,
    candidateIntoRandom_reseeds]

theorem scan_hit {sources pre post : List ChunkCoord} {source : ChunkCoord}
    (hsources : sources = pre ++ source :: post)
    (hmiss : ∀ c ∈ pre, (villages.isFeatureChunkWithRandom c (.new 0)).1 = false)
    (hhit : (villages.isFeatureChunkWithRandom source (.new 0)).1 = true) (random : MtRandom) :
    scan villages sources random =
      (some source, (candidateIntoRandom villages.seed source (.new 0)).random) := by
  subst hsources
  induction pre generalizing random with
  | nil =>
    rw [List.nil_append, scan, isFeatureChunkWithRandom_reseeds]
    dsimp only
    rw [if_pos hhit, VillageFeature.isFeatureChunkWithRandom]
  | cons c pre ih =>
    rw [List.cons_append, scan, isFeatureChunkWithRandom_reseeds]
    dsimp only
    rw [hmiss c List.mem_cons_self, if_neg Bool.false_ne_true]
    exact ih (fun c' hc' => hmiss c' (List.mem_cons_of_mem _ hc')) _

theorem search_found {rounds : Nat} {positions : List ChunkCoord} {angle : F} {distance : Int32}
    {random random' : MtRandom} {source : ChunkCoord}
    (hcount : positions.length < totalVillageStrongholds)
    (h : scan villages (ring (floats.center angle distance)) random = (some source, random')) :
    search floats villages (rounds + 1) positions angle distance random =
      search floats villages rounds (positions ++ [source]) (floats.turn angle) (distance + 8)
        random' := by
  rw [search, if_neg (Nat.not_le.mpr hcount), h]

theorem search_done {rounds : Nat} {positions : List ChunkCoord} {angle : F} {distance : Int32}
    {random : MtRandom} (hcount : totalVillageStrongholds ≤ positions.length) :
    search floats villages rounds positions angle distance random = some (positions, random) := by
  unfold search
  rw [if_pos hcount]

-- A seed whose search finds a village in each of its first three rounds: what the f32 functions
-- give there, and the biomes of the three villages.
def threeRounds : Floats Nat where
  start _ := 0
  center angle _ := [(15, 45), (-56, 1), (18, -62)].getD angle (0, 0)
  turn angle := angle + 1
  drift angle := angle
  grid value := .ofInt (value.toInt / 200)

def threeVillages : VillageFeature where
  seed := 10885954
  biomes :=
    { biomeIds := fun _ _ => 35
      rawBiomeIds := fun x z => if x = 30 ∧ z = 190 then 2 else 35 }

def threeRoundSetting (builders : Builders) : Setting Nat :=
  ⟨10885954, threeVillages.biomes, threeRounds, builders, 3⟩

theorem first_round (random : MtRandom) :
    scan threeVillages (ring (15, 45)) random =
      (some ⟨7, 47⟩, (candidateIntoRandom 10885954 ⟨7, 47⟩ (.new 0)).random) :=
  scan_hit (List.take_append_drop 10 _).symm (by decide +kernel) (by decide +kernel) random

theorem second_round (random : MtRandom) :
    scan threeVillages (ring (-56, 1)) random =
      (some ⟨-63, 0⟩, (candidateIntoRandom 10885954 ⟨-63, 0⟩ (.new 0)).random) :=
  scan_hit (List.take_append_drop 23 _).symm (by decide +kernel) (by decide +kernel) random

theorem third_round (random : MtRandom) :
    scan threeVillages (ring (18, -62)) random =
      (some ⟨10, -67⟩, (candidateIntoRandom 10885954 ⟨10, -67⟩ (.new 0)).random) :=
  scan_hit (List.take_append_drop 3 _).symm (by decide +kernel) (by decide +kernel) random

theorem search_three_rounds (distance : Int32) (random : MtRandom) :
    search threeRounds threeVillages 3 [] 0 distance random =
      some ([⟨7, 47⟩, ⟨-63, 0⟩, ⟨10, -67⟩],
        (candidateIntoRandom 10885954 ⟨10, -67⟩ (.new 0)).random) :=
  calc search threeRounds threeVillages 3 [] 0 distance random
    _ = search threeRounds threeVillages 2 [⟨7, 47⟩] 1 (distance + 8) _ :=
        search_found (by decide) (first_round random)
    _ = search threeRounds threeVillages 1 [⟨7, 47⟩, ⟨-63, 0⟩] 2 (distance + 8 + 8) _ :=
        search_found (by decide) (second_round _)
    _ = search threeRounds threeVillages 0 [⟨7, 47⟩, ⟨-63, 0⟩, ⟨10, -67⟩] 3 (distance + 8 + 8 + 8)
          _ := search_found (by decide) (third_round _)
    _ = _ := search_done (by decide)

theorem three_rounds (builders : Builders) :
    searched (threeRoundSetting builders) = some ([⟨7, 47⟩, ⟨-63, 0⟩, ⟨10, -67⟩],
      (candidateIntoRandom 10885954 ⟨10, -67⟩ (.new 0)).random) := by
  unfold searched generatePositions
  exact search_three_rounds _ _

theorem generated_source {setting : Setting F} (source : ChunkCoord) (random : MtRandom) :
    (strongholds setting).source (.generate setting.builders source random) = source := by
  rw [Family.source, strongholds]
  exact stronghold_generate_source _ _ _

theorem recorded_first {setting : Setting F} {positions : List ChunkCoord} {tail : MtRandom}
    {target first : ChunkCoord} (h : searched setting = some (positions, tail))
    (hfirst : (structureSourceChunks target 8).head? = some first) :
    ∃ r, (strongholds setting).run [.apply target] = some r ∧
      ∀ source ∈ structureSourceChunks target 8, strongholdChunk setting source = true →
        StrongholdPlan.generate setting.builders source (firstStreams setting first source) ∈
          r.starts := by
  obtain ⟨sources, hsources⟩ := List.head?_eq_some_iff.mp hfirst
  have hnodup := structureSourceChunks_nodup target 8
  have hsquare : (strongholds setting).square target = first :: sources := hsources
  have hbuild : (strongholds setting).build = .new setting := rfl
  have hkey : ∀ s start, strongholdPlan setting (firstStreams setting first) s = some start →
      (strongholds setting).source start = s := by
    intro s start hs
    rw [strongholdPlan_eq_some hs]
    rfl
  rw [hsources] at hnodup ⊢
  refine ⟨⟨settled setting positions, visitAll (strongholds setting).source
    (strongholdPlan setting (firstStreams setting first)) [] (first :: sources)⟩, ?_, ?_⟩
  · rw [Family.run, Family.runFrom, Family.step, hbuild]
    dsimp only
    rw [strongholds_apply, hsquare, applySources_new h (List.nodup_cons.mp hnodup).1]
    rfl
  · intro source hmem hchunk
    dsimp only
    rw [visitAll_eq hkey hnodup, List.nil_append, mem_unplanned]
    exact ⟨source, hmem, rfl, by rw [strongholdPlan, if_pos hchunk]⟩

def bareBuilders : Builders where
  mineshaft _ _ random := ([], random)
  stronghold _ random := ([], random)
  village _ _ := []
  mineshaft_count _ _ _ := Nat.zero_lt_succ _
  mineshaft_counted _ _ _ := nofun
  stronghold_count _ _ := Nat.succ_lt_succ (Nat.zero_lt_succ _)
  village_count _ _ := Nat.zero_lt_succ _

-- The chunk is recorded from the stream of the search when it comes first, from its own when it
-- comes later, and the stairs at its start turn out to face another way.
theorem first_look_turns_the_stairs : Nonempty Builders ∧ ¬∃ builders,
    PlansAgree (strongholds (threeRoundSetting builders))
      (strongholdChunk (threeRoundSetting builders)) never := by
  refine ⟨⟨bareBuilders⟩, fun ⟨builders, hagree⟩ => ?_⟩
  have hsearched := three_rounds builders
  have hchunk : strongholdChunk (threeRoundSetting builders) ⟨7, 47⟩ = true := by
    rw [strongholdChunk, hsearched]
    rfl
  have hcorner : (structureSourceChunks ⟨15, 55⟩ 8).head? = some ⟨7, 47⟩ := by decide +kernel
  have hmiddle : (structureSourceChunks ⟨7, 47⟩ 8).head? = some ⟨-1, 39⟩ := by decide +kernel
  obtain ⟨early, hearly, hrecorded⟩ := recorded_first hsearched hcorner
  obtain ⟨late, hlate, hrecorded'⟩ := recorded_first hsearched hmiddle
  have hfirst := hrecorded ⟨7, 47⟩ (by decide +kernel) hchunk
  have hlater := hrecorded' ⟨7, 47⟩ (by decide +kernel) hchunk
  have hsame := hagree.same _ _ _ _ hearly hlate _ hfirst _ hlater
    ((generated_source _ _).trans (generated_source _ _).symm) ⟨False.elim, False.elim⟩
  have heast : orientationFromU32 ((candidateIntoRandom 10885954 ⟨10, -67⟩ (.new 0)).random.nextInt
      4).1 = .east := by decide +kernel
  have hwest : orientationFromU32 (((structureSourceRandom 10885954 ⟨7, 47⟩).nextPositiveInt.2).nextInt
      4).1 = .west := by decide +kernel
  have htail : firstStreams (threeRoundSetting builders) ⟨7, 47⟩ ⟨7, 47⟩ =
      (candidateIntoRandom 10885954 ⟨10, -67⟩ (.new 0)).random := by
    rw [firstStreams, if_pos rfl, searchTail, hsearched]
  have hown : firstStreams (threeRoundSetting builders) ⟨-1, 39⟩ ⟨7, 47⟩ =
      (structureSourceRandom 10885954 ⟨7, 47⟩).nextPositiveInt.2 := by
    rw [firstStreams, if_neg (by decide), ownStream]
    rfl
  have hturned := congrArg (fun plan : StrongholdPlan => (plan.pieces.map (·.orientation)).head?) hsame
  rw [stronghold_generate_orientation, stronghold_generate_orientation, htail, hown, heast, hwest]
    at hturned
  cases hturned

end FirstChunk

end Cobblestone.Structure
