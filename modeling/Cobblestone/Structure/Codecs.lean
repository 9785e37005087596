import Cobblestone.Structure.Mineshaft
import Cobblestone.Structure.Stronghold
import Cobblestone.Structure.Scattered
import Cobblestone.Structure.Village

namespace Cobblestone.Structure

theorem structure_states_round_trip {mineshafts : List MineshaftPlan}
    {strongholds : List StrongholdPlan} {scattered : List ScatteredPlan}
    {villages : List VillagePlan} (hmineshafts : mineshafts.length ≤ maxCount)
    (hmineshaft : ∀ plan ∈ mineshafts, plan.Fits) (hstrongholds : strongholds.length ≤ maxCount)
    (hstronghold : ∀ plan ∈ strongholds, plan.Fits) (hscattered : scattered.length ≤ maxCount)
    (hvillages : villages.length ≤ maxCount)
    (hvillage : ∀ plan ∈ villages, plan.pieces.length ≤ maxCount) :
    RoundTrips MineshaftStructureState.encode MineshaftStructureState.decode MineshaftPlan.restored
        mineshafts ∧
      RoundTrips StrongholdStructureState.encode StrongholdStructureState.decode
        StrongholdPlan.restored strongholds ∧
      RoundTrips ScatteredStructureState.encode ScatteredStructureState.decode
        ScatteredPlan.restored scattered ∧
      RoundTrips VillageStructureState.encode VillageStructureState.decode VillagePlan.restored
        villages :=
  ⟨mineshaft_roundTrips hmineshafts hmineshaft, stronghold_roundTrips hstrongholds hstronghold,
    scattered_roundTrips hscattered, village_roundTrips hvillages hvillage⟩

theorem structure_states_round_trip_small :
    let bounds : StructureBounds := ⟨0, 50, 0, 8, 55, 8⟩
    let core : StructureStartCore := ⟨⟨0, 0⟩, bounds, [7]⟩
    let mineshaft : MineshaftPlan := ⟨core, true, [⟨.room, bounds, .south, 0, .room [bounds]⟩]⟩
    let stronghold : StrongholdPlan :=
      ⟨core, [⟨.stairsDown, bounds, .east, 0, .opening, .stairsDown true⟩]⟩
    let scattered : ScatteredPlan := ⟨core, none⟩
    let village : VillagePlan :=
      ⟨core, .taiga, false, [⟨.farmland, bounds, .north, 1, .farmland .wheat .carrot, -1, false⟩]⟩
    RoundTrips MineshaftStructureState.encode MineshaftStructureState.decode MineshaftPlan.restored
        [mineshaft] ∧
      RoundTrips StrongholdStructureState.encode StrongholdStructureState.decode
        StrongholdPlan.restored [stronghold] ∧
      RoundTrips ScatteredStructureState.encode ScatteredStructureState.decode
        ScatteredPlan.restored [scattered] ∧
      RoundTrips VillageStructureState.encode VillageStructureState.decode VillagePlan.restored
        [village] := by
  intro bounds core mineshaft stronghold scattered village
  refine structure_states_round_trip (by decide) (fun plan hplan => ?_) (by decide)
    (fun plan hplan => ?_) (by decide) (by decide) (fun plan hplan => ?_)
  · cases List.mem_singleton.mp hplan
    refine ⟨by decide, fun piece hpiece => ?_⟩
    cases List.mem_singleton.mp hpiece
    change [bounds].length ≤ maxCount
    decide
  · cases List.mem_singleton.mp hplan
    refine ⟨by decide, by decide, fun piece hpiece => ?_⟩
    cases List.mem_singleton.mp hpiece
    rfl
  · cases List.mem_singleton.mp hplan
    decide

end Cobblestone.Structure
