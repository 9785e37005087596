import Cobblestone.Structure.Apply

namespace Cobblestone.Structure

open Lib World

-- Two runs of a kind that record a start for the same chunk have the same plan for it, unless just
-- one of them recorded it early.
structure PlansAgree {ρ α : Type} (f : Family ρ α) (feature : ChunkCoord → Bool)
    (Early : List Step → ChunkCoord → Prop) : Prop where
  same : ∀ steps steps' r r', f.run steps = some r → f.run steps' = some r' →
    ∀ start ∈ r.starts, ∀ start' ∈ r'.starts, f.source start = f.source start' →
      (Early steps (f.source start) ↔ Early steps' (f.source start)) → start = start'
  registers : ∀ steps target r r', f.run steps = some r → f.step r (.apply target) = some r' →
    Registers f feature target r.starts r'.starts
  once : ∀ steps r, f.run steps = some r → (r.starts.map f.source).Nodup
  restart : ∀ steps r r', f.run steps = some r → f.step r .restart = some r' → r'.starts = r.starts

def never (_ : List Step) (_ : ChunkCoord) : Prop := False

section Plans

variable {α : Type} {f : Family Unit α} {plan : ChunkCoord → Option α}

theorem visits_of_plan
    (happly : ∀ starts target, f.apply () starts target =
      some ((), visitAll f.source plan starts (f.square target)))
    (hsource : ∀ s start, plan s = some start → f.source start = s)
    (hreload : ∀ starts starts', (∀ start ∈ starts, ∃ s, plan s = some start) →
      f.decode (f.encode starts) = some starts' → starts' = starts) :
    Visits f (fun _ => True) (fun s => (plan s).isSome)
      (fun start => plan (f.source start) = some start) := by
  refine ⟨trivial, ?_, fun starts starts' hstarts => hreload starts starts' fun start hs =>
    ⟨_, hstarts start hs⟩⟩
  intro runtime starts target runtime' starts' _ h
  rw [happly] at h
  cases h
  refine ⟨trivial, plan, fun _ => rfl, fun s start hs => ?_, rfl⟩
  cases hsource s start hs
  exact ⟨rfl, hs⟩

theorem plansAgree_of_plan {Early : List Step → ChunkCoord → Prop}
    (hv : Visits f (fun _ => True) (fun s => (plan s).isSome)
      (fun start => plan (f.source start) = some start)) :
    PlansAgree f (fun s => (plan s).isSome) Early := by
  refine ⟨?_, fun _ _ _ _ => hv.registers, fun _ _ h => (hv.kept h).once,
    fun _ _ _ => hv.restart⟩
  intro steps steps' r r' hr hr' start hstart start' hstart' hsource _
  have hplan := (hv.kept hr).planned start hstart
  have hplan' := (hv.kept hr').planned start' hstart'
  rw [hsource, hplan'] at hplan
  cases hplan
  rfl

end Plans

section Families

variable {F : Type} (setting : Setting F)

theorem mineshaft_plan_cases {feature : MineshaftFeature} {builders : Builders} {s : ChunkCoord}
    {start : MineshaftPlan} (h : feature.plan builders s = some start) :
    ∃ random surface, start = .generate builders s random surface := by
  unfold MineshaftFeature.plan at h
  extract_lets random checked at h
  split at h
  · cases h
  · exact ⟨_, _, (Option.some.inj h).symm⟩

theorem village_plan_cases {feature : VillageFeature} {builders : Builders} {s : ChunkCoord}
    {start : VillagePlan} (h : feature.plan builders s = some start) :
    ∃ random candidateSeed style, start = .generate builders s random candidateSeed style := by
  unfold VillageFeature.plan at h
  dsimp only at h
  split at h
  · cases h
  · exact ⟨_, _, _, (Option.some.inj h).symm⟩

theorem scattered_plan_cases {s : ChunkCoord} {start : ScatteredPlan}
    (h : scatteredPlan setting s = some start) :
    ∃ bounds piece, start = ⟨.new s bounds, piece⟩ := by
  unfold scatteredPlan at h
  extract_lets random at h
  unfold ScatteredFeature.plan at h
  cases hkind : (scatteredFeature setting).kindAtSource random s with
  | none =>
    rw [hkind] at h
    cases h
  | some kind =>
    rw [hkind] at h
    exact ⟨_, _, (Option.some.inj h).symm⟩

theorem map_restored {α : Type} {restored : α → α} {starts : List α}
    (h : ∀ start ∈ starts, restored start = start) : starts.map restored = starts :=
  (List.map_congr_left h).trans (List.map_id starts)

theorem mineshafts_codec (starts : List MineshaftPlan) :
    (mineshafts setting).decode ((mineshafts setting).encode starts) =
      MineshaftStructureState.decode (MineshaftStructureState.encode starts) := by
  unfold mineshafts
  rfl

theorem villages_codec (starts : List VillagePlan) :
    (villages setting).decode ((villages setting).encode starts) =
      VillageStructureState.decode (VillageStructureState.encode starts) := by
  unfold villages
  rfl

theorem scattered_codec (starts : List ScatteredPlan) :
    (scattered setting).decode ((scattered setting).encode starts) =
      ScatteredStructureState.decode (ScatteredStructureState.encode starts) := by
  unfold scattered
  rfl

theorem visits_mineshafts :
    Visits (mineshafts setting) (fun _ => True)
      (fun s => ((mineshaftFeature setting).plan setting.builders s).isSome)
      (fun start => (mineshaftFeature setting).plan setting.builders start.core.source =
        some start) := by
  refine visits_of_plan (fun _ _ => rfl) (fun s start hs => ?_) fun starts starts' hstarts h => ?_
  · obtain ⟨random, surface, rfl⟩ := mineshaft_plan_cases hs
    rfl
  · have hplans : ∀ start ∈ starts, start.restored = start ∧ start.Counted := by
      intro start hstart
      obtain ⟨s, hs⟩ := hstarts start hstart
      obtain ⟨random, surface, rfl⟩ := mineshaft_plan_cases hs
      exact ⟨rfl, mineshaft_generate_counted _ _ _ _⟩
    rw [mineshafts_codec] at h
    rw [mineshaft_reload (fun start hs => (hplans start hs).2) h]
    exact map_restored fun start hs => (hplans start hs).1

theorem visits_villages :
    Visits (villages setting) (fun _ => True)
      (fun s => ((villageFeature setting).plan setting.builders s).isSome)
      (fun start => (villageFeature setting).plan setting.builders start.core.source =
        some start) := by
  refine visits_of_plan (fun _ _ => rfl) (fun s start hs => ?_) fun starts starts' hstarts h => ?_
  · obtain ⟨random, candidateSeed, style, rfl⟩ := village_plan_cases hs
    rfl
  · have hplans : ∀ start ∈ starts, start.restored = start ∧
        start.pieces.length < 4294967296 := by
      intro start hstart
      obtain ⟨s, hs⟩ := hstarts start hstart
      obtain ⟨random, candidateSeed, style, rfl⟩ := village_plan_cases hs
      exact ⟨rfl, setting.builders.village_count _ _⟩
    rw [villages_codec] at h
    rw [village_reload (fun start hs => (hplans start hs).2) h]
    exact map_restored fun start hs => (hplans start hs).1

theorem visits_scattered :
    Visits (scattered setting) (fun _ => True) (fun s => (scatteredPlan setting s).isSome)
      (fun start => scatteredPlan setting start.core.source = some start) := by
  refine visits_of_plan (fun _ _ => rfl) (fun s start hs => ?_) fun starts starts' hstarts h => ?_
  · obtain ⟨bounds, piece, rfl⟩ := scattered_plan_cases setting hs
    rfl
  · rw [scattered_codec] at h
    rw [scattered_reload h]
    refine map_restored fun start hstart => ?_
    obtain ⟨s, hs⟩ := hstarts start hstart
    obtain ⟨bounds, piece, rfl⟩ := scattered_plan_cases setting hs
    rfl

end Families

end Cobblestone.Structure
