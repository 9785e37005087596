import Cobblestone.Lib.Registry
import Cobblestone.Structure.Feature

namespace Cobblestone.Structure

open Lib World

-- The structures of one kind, as the world generator drives them and stores their starts.
structure Family (ρ α : Type) where
  radius : Int32
  core : α → StructureStartCore
  build : ρ
  apply : ρ → List α → ChunkCoord → Option (ρ × List α)
  encode : List α → Bytes
  decode : Bytes → Option (List α)

inductive Step where
  | apply (target : ChunkCoord)
  | restart
deriving DecidableEq, Repr

structure Run (ρ α : Type) where
  runtime : ρ
  starts : List α
deriving DecidableEq, Repr

namespace Family

variable {ρ α : Type} (f : Family ρ α)

def source (start : α) : ChunkCoord := (f.core start).source

def square (target : ChunkCoord) : List ChunkCoord := structureSourceChunks target f.radius

-- A restart builds the structures anew and reads the starts from what was stored of them.
def step (r : Run ρ α) : Step → Option (Run ρ α)
  | .apply target =>
    match f.apply r.runtime r.starts target with
    | some (runtime, starts) => some ⟨runtime, starts⟩
    | none => none
  | .restart =>
    match f.decode (f.encode r.starts) with
    | some starts => some ⟨f.build, starts⟩
    | none => none

def runFrom : List Step → Run ρ α → Option (Run ρ α)
  | [], r => some r
  | s :: steps, r =>
    match f.step r s with
    | some r => runFrom steps r
    | none => none

def run (steps : List Step) : Option (Run ρ α) := f.runFrom steps ⟨f.build, []⟩

end Family

section Families

variable {F : Type} (setting : Setting F)

-- The loop of a kind whose plans depend on the source alone.
def applyPlans {α : Type} (core : α → StructureStartCore) (plan : ChunkCoord → Option α)
    (radius : Int32) (starts : List α) (target : ChunkCoord) : List α :=
  visitAll (fun start => (core start).source) plan starts (structureSourceChunks target radius)

def mineshaftFeature : MineshaftFeature := ⟨setting.seed.toUInt32, setting.biomes⟩

def villageFeature : VillageFeature := ⟨setting.seed.toUInt32, setting.biomes⟩

def scatteredFeature : ScatteredFeature := ⟨setting.biomes⟩

def scatteredPlan (source : ChunkCoord) : Option ScatteredPlan :=
  let random := (structureSourceRandom setting.seed.toUInt32 source).nextPositiveInt.2
  (scatteredFeature setting).plan random source

namespace OverworldMineshaftStructures

def apply (starts : List MineshaftPlan) (target : ChunkCoord) : List MineshaftPlan :=
  applyPlans MineshaftPlan.core ((mineshaftFeature setting).plan setting.builders) 8 starts target

end OverworldMineshaftStructures

namespace OverworldVillageStructures

def apply (starts : List VillagePlan) (target : ChunkCoord) : List VillagePlan :=
  applyPlans VillagePlan.core ((villageFeature setting).plan setting.builders) 4 starts target

end OverworldVillageStructures

namespace OverworldScatteredStructures

def apply (starts : List ScatteredPlan) (target : ChunkCoord) : List ScatteredPlan :=
  applyPlans ScatteredPlan.core (scatteredPlan setting) 8 starts target

end OverworldScatteredStructures

namespace OverworldStrongholdStructures

def applySource (r : Run StrongholdFeature StrongholdPlan) (source : ChunkCoord) :
    Option (Run StrongholdFeature StrongholdPlan) :=
  let random := (structureSourceRandom setting.seed.toUInt32 source).nextPositiveInt.2
  match r.runtime.isFeatureChunk setting random source with
  | none => none
  | some (isFeature, feature, random) =>
    if !isFeature then some ⟨feature, r.starts⟩
    else if knows (fun start : StrongholdPlan => start.core.source) r.starts source then
      some ⟨feature, r.starts⟩
    else some ⟨feature, r.starts ++ [.generate setting.builders source random]⟩

def applySources : List ChunkCoord → Run StrongholdFeature StrongholdPlan →
    Option (Run StrongholdFeature StrongholdPlan)
  | [], r => some r
  | source :: sources, r =>
    match applySource setting r source with
    | some r => applySources sources r
    | none => none

def apply (feature : StrongholdFeature) (starts : List StrongholdPlan) (target : ChunkCoord) :
    Option (StrongholdFeature × List StrongholdPlan) :=
  match applySources setting (structureSourceChunks target 8) ⟨feature, starts⟩ with
  | some r => some (r.runtime, r.starts)
  | none => none

end OverworldStrongholdStructures

def mineshafts : Family Unit MineshaftPlan where
  radius := 8
  core := MineshaftPlan.core
  build := ()
  apply _ starts target := some ((), OverworldMineshaftStructures.apply setting starts target)
  encode := MineshaftStructureState.encode
  decode := MineshaftStructureState.decode

def villages : Family Unit VillagePlan where
  radius := 4
  core := VillagePlan.core
  build := ()
  apply _ starts target := some ((), OverworldVillageStructures.apply setting starts target)
  encode := VillageStructureState.encode
  decode := VillageStructureState.decode

def scattered : Family Unit ScatteredPlan where
  radius := 8
  core := ScatteredPlan.core
  build := ()
  apply _ starts target := some ((), OverworldScatteredStructures.apply setting starts target)
  encode := ScatteredStructureState.encode
  decode := ScatteredStructureState.decode

def strongholds : Family StrongholdFeature StrongholdPlan where
  radius := 8
  core := StrongholdPlan.core
  build := .new setting
  apply := OverworldStrongholdStructures.apply setting
  encode := StrongholdStructureState.encode
  decode := StrongholdStructureState.decode

end Families

section Runs

variable {ρ α : Type} {f : Family ρ α} {r r' r'' : Run ρ α} {steps steps' : List Step}

namespace Family

theorem runFrom_append :
    f.runFrom (steps ++ steps') r = (f.runFrom steps r).bind (f.runFrom steps') := by
  induction steps generalizing r with
  | nil => rfl
  | cons s steps ih =>
    rw [List.cons_append, runFrom, runFrom]
    cases f.step r s with
    | none => rfl
    | some r => exact ih

theorem run_concat {s : Step} (h : f.run (steps ++ [s]) = some r) :
    ∃ r', f.run steps = some r' ∧ f.step r' s = some r := by
  rw [run, runFrom_append, Option.bind_eq_some_iff] at h
  obtain ⟨r', hr', hs⟩ := h
  refine ⟨r', hr', ?_⟩
  rw [runFrom] at hs
  cases hstep : f.step r' s with
  | none =>
    rw [hstep] at hs
    cases hs
  | some r'' =>
    rw [hstep] at hs
    exact hs

theorem run_snoc {s : Step} (h : f.run steps = some r) (hs : f.step r s = some r') :
    f.run (steps ++ [s]) = some r' := by
  rw [run] at h
  rw [run, runFrom_append, h, Option.bind_some, runFrom, hs]
  rfl

theorem step_apply {target : ChunkCoord} (h : f.step r (.apply target) = some r') :
    f.apply r.runtime r.starts target = some (r'.runtime, r'.starts) := by
  rw [step] at h
  split at h
  · rename_i heq
    cases h
    exact heq
  · cases h

theorem step_restart (h : f.step r .restart = some r') :
    f.decode (f.encode r.starts) = some r'.starts ∧ r'.runtime = f.build := by
  rw [step] at h
  split at h
  · rename_i heq
    cases h
    exact ⟨heq, rfl⟩
  · cases h

end Family

end Runs

-- Every application visits the square with plans for exactly the feature chunks, and what is
-- planned comes back from the store as it was.
structure Visits {ρ α : Type} (f : Family ρ α) (Valid : ρ → Prop) (feature : ChunkCoord → Bool)
    (Planned : α → Prop) : Prop where
  build : Valid f.build
  apply : ∀ runtime starts target runtime' starts', Valid runtime →
    f.apply runtime starts target = some (runtime', starts') →
      Valid runtime' ∧ ∃ plan : ChunkCoord → Option α, (∀ s, (plan s).isSome = feature s) ∧
        (∀ s start, plan s = some start → f.source start = s ∧ Planned start) ∧
          starts' = visitAll f.source plan starts (f.square target)
  reload : ∀ starts starts', (∀ start ∈ starts, Planned start) →
    f.decode (f.encode starts) = some starts' → starts' = starts

-- A target registers the feature chunks of its square that were not registered before.
def Registers {ρ α : Type} (f : Family ρ α) (feature : ChunkCoord → Bool) (target : ChunkCoord)
    (before after : List α) : Prop :=
  ∃ added, after = before ++ added ∧ added.map f.source =
    (f.square target).filter fun s => feature s && !knows f.source before s

theorem Family.square_nodup {ρ α : Type} (f : Family ρ α) (target : ChunkCoord) :
    (f.square target).Nodup := structureSourceChunks_nodup target f.radius

theorem Registers.once {ρ α : Type} {f : Family ρ α} {feature : ChunkCoord → Bool}
    {target : ChunkCoord} {before after : List α} (h : Registers f feature target before after)
    (hbefore : (before.map f.source).Nodup) : (after.map f.source).Nodup := by
  obtain ⟨added, rfl, hadded⟩ := h
  rw [List.map_append, hadded]
  refine hbefore.append ((f.square_nodup target).filter _) fun s hs hs' => ?_
  have hknown := (List.mem_filter.mp hs').2
  rw [Bool.and_eq_true, Bool.not_eq_true', knows_iff.mpr hs] at hknown
  exact Bool.noConfusion hknown.2

namespace Visits

variable {ρ α : Type} {f : Family ρ α} {Valid : ρ → Prop} {feature : ChunkCoord → Bool}
  {Planned : α → Prop} {r r' : Run ρ α} {steps : List Step} {target : ChunkCoord}

structure Kept (f : Family ρ α) (Valid : ρ → Prop) (Planned : α → Prop) (r : Run ρ α) : Prop where
  valid : Valid r.runtime
  planned : ∀ start ∈ r.starts, Planned start
  once : (r.starts.map f.source).Nodup

theorem registers_of_valid (hv : Visits f Valid feature Planned) (hr : Valid r.runtime)
    (h : f.step r (.apply target) = some r') : Registers f feature target r.starts r'.starts := by
  obtain ⟨-, plan, hfeature, hplan, heq⟩ := hv.apply _ _ _ _ _ hr (Family.step_apply h)
  have hkey : ∀ s start, plan s = some start → f.source start = s :=
    fun s start hs => (hplan s start hs).1
  rw [visitAll_eq hkey (f.square_nodup target)] at heq
  refine ⟨_, heq, ?_⟩
  rw [map_key_unplanned hkey]
  exact List.filter_congr fun s _ => by rw [hfeature]

theorem Kept.step (hv : Visits f Valid feature Planned) (hk : Kept f Valid Planned r) {s : Step}
    (h : f.step r s = some r') : Kept f Valid Planned r' := by
  cases s with
  | apply target =>
    obtain ⟨hvalid, plan, -, hplan, heq⟩ := hv.apply _ _ _ _ _ hk.valid (Family.step_apply h)
    refine ⟨hvalid, fun start hstart => ?_, (hv.registers_of_valid hk.valid h).once hk.once⟩
    rw [heq, visitAll_eq (fun s start hs => (hplan s start hs).1) (f.square_nodup target),
      List.mem_append, mem_unplanned] at hstart
    rcases hstart with hold | ⟨s, -, -, hs⟩
    · exact hk.planned start hold
    · exact (hplan s start hs).2
  | restart =>
    obtain ⟨hdecode, hbuild⟩ := Family.step_restart h
    have hreload := hv.reload _ _ hk.planned hdecode
    refine ⟨?_, ?_, ?_⟩
    · rw [hbuild]
      exact hv.build
    · rw [hreload]
      exact hk.planned
    · rw [hreload]
      exact hk.once

theorem kept (hv : Visits f Valid feature Planned) (h : f.run steps = some r) :
    Kept f Valid Planned r := by
  induction steps using List.reverseRecOn generalizing r with
  | nil =>
    cases h
    exact ⟨hv.build, nofun, List.nodup_nil⟩
  | append_singleton steps s ih =>
    obtain ⟨r', hr', hs⟩ := Family.run_concat h
    exact (ih hr').step hv hs

theorem registers (hv : Visits f Valid feature Planned) (h : f.run steps = some r)
    (hs : f.step r (.apply target) = some r') : Registers f feature target r.starts r'.starts :=
  hv.registers_of_valid (hv.kept h).valid hs

theorem restart (hv : Visits f Valid feature Planned) (h : f.run steps = some r)
    (hs : f.step r .restart = some r') : r'.starts = r.starts :=
  hv.reload _ _ (hv.kept h).planned (Family.step_restart hs).1

-- What is known stays known.
theorem knows_step (hv : Visits f Valid feature Planned) (h : f.run steps = some r) {s : Step}
    (hs : f.step r s = some r') {source : ChunkCoord} (hknown : knows f.source r.starts source) :
    knows f.source r'.starts source := by
  cases s with
  | apply target =>
    obtain ⟨added, heq, -⟩ := hv.registers h hs
    rw [heq, knows_append, hknown, Bool.true_or]
  | restart => rwa [hv.restart h hs]

theorem knows_later (hv : Visits f Valid feature Planned) (h : f.run steps = some r)
    {source : ChunkCoord} (hknown : knows f.source r.starts source) {later : List Step}
    (hlater : f.run (steps ++ later) = some r') : knows f.source r'.starts source := by
  induction later using List.reverseRecOn generalizing r' with
  | nil =>
    rw [List.append_nil, h] at hlater
    cases hlater
    exact hknown
  | append_singleton later s ih =>
    rw [← List.append_assoc] at hlater
    obtain ⟨r₁, hr₁, hs⟩ := Family.run_concat hlater
    exact hv.knows_step hr₁ hs (ih hr₁)

end Visits

end Cobblestone.Structure
