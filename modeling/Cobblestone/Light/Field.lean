import Cobblestone.Lib.Radiance
import Cobblestone.Light.Reads

namespace Cobblestone.Light

open Lib World Mutation Source

variable (world : MainChunkSource)

def sourceAt (layer : LightLayer) (p : BlockPos) : Option Nat :=
  match layer with
  | .block => (propertiesAt world p).map BlockLightProperties.lightEmission
  | .sky => (skyAt world p).map fun exposed => if exposed then maxLightLevel else minLightLevel

def inWorldNeighbors (p : BlockPos) : List BlockPos :=
  (LightPropagator.sixNeighbors p).filter BlockPos.isInsideWorld

-- What the equation of a layer reads off the blocks; a cell without a catalogued block is dark and
-- loses the least.
def lightField (layer : LightLayer) : Radiance BlockPos where
  source p := (sourceAt world layer p).getD 0
  loss p := ((propertiesAt world p).map BlockLightProperties.propagationAttenuation).getD 1
  near := inWorldNeighbors
  loss_pos p := by
    cases propertiesAt world p with
    | none => exact Nat.one_pos
    | some properties => exact propagationAttenuation_pos properties

def lightLevel (staged : Staged) (layer : LightLayer) (p : BlockPos) : Nat :=
  (levelAt world staged layer p).getD 0

variable {world} {layer : LightLayer} {p q : BlockPos} {staged : Staged} {access : WorldLightAccess}

theorem mem_sixNeighbors : q ∈ LightPropagator.sixNeighbors p ↔
    (q.y = p.y ∧ q.z = p.z ∧ (q.x = p.x - 1 ∨ q.x = p.x + 1)) ∨
      (q.x = p.x ∧ q.z = p.z ∧ (q.y = p.y - 1 ∨ q.y = p.y + 1)) ∨
      (q.x = p.x ∧ q.y = p.y ∧ (q.z = p.z - 1 ∨ q.z = p.z + 1)) := by
  obtain ⟨x, y, z⟩ := p
  obtain ⟨x', y', z'⟩ := q
  simp only [LightPropagator.sixNeighbors, List.mem_cons, List.not_mem_nil, or_false, BlockPos.mk.injEq]
  omega

theorem mem_inWorldNeighbors : q ∈ inWorldNeighbors p ↔
    q ∈ LightPropagator.sixNeighbors p ∧ q.isInsideWorld = true := List.mem_filter

theorem sixNeighbors_symm : q ∈ LightPropagator.sixNeighbors p ↔ p ∈ LightPropagator.sixNeighbors q := by
  rw [mem_sixNeighbors, mem_sixNeighbors]
  omega

theorem not_mem_inWorldNeighbors_self : p ∉ inWorldNeighbors p := by
  rw [mem_inWorldNeighbors, mem_sixNeighbors]
  omega

theorem lightField_source_le (layer : LightLayer) (p : BlockPos) :
    (lightField world layer).source p ≤ maxLightLevel := by
  change (sourceAt world layer p).getD 0 ≤ maxLightLevel
  cases layer with
  | block =>
    rw [sourceAt]
    cases propertiesAt world p with
    | none => exact Nat.zero_le _
    | some properties => exact properties.lightEmission_le
  | sky =>
    rw [sourceAt]
    cases skyAt world p with
    | none => exact Nat.zero_le _
    | some exposed => cases exposed <;> decide

theorem lightField_loss (layer : LightLayer) (p : BlockPos) :
    (lightField world layer).loss p = 1 ∨ maxLightLevel ≤ (lightField world layer).loss p := by
  change ((propertiesAt world p).map _).getD 1 = 1 ∨ maxLightLevel ≤ ((propertiesAt world p).map _).getD 1
  cases hproperties : propertiesAt world p with
  | none => exact .inl rfl
  | some properties =>
    obtain ⟨stateId, -, hstate⟩ := Option.bind_eq_some_iff.mp hproperties
    exact (propagationAttenuation_cases hstate).imp id fun h => h.ge

theorem levelAt_le (h : Faithful world access) {level : Nat}
    (hlevel : levelAt world access.staged layer p = some level) : level ≤ maxLightLevel := by
  rw [levelAt] at hlevel
  split_ifs at hlevel
  cases hstaged : access.staged.get? (layer, p) with
  | none =>
    rw [hstaged] at hlevel
    exact storedAt_le hlevel
  | some found =>
    rw [hstaged] at hlevel
    cases hlevel
    exact (h.staged layer p level hstaged).1

theorem lightLevel_le (h : Faithful world access) (layer : LightLayer) (p : BlockPos) :
    lightLevel world access.staged layer p ≤ maxLightLevel := by
  rw [lightLevel]
  cases hlevel : levelAt world access.staged layer p with
  | none => exact Nat.zero_le _
  | some level => exact levelAt_le h hlevel

theorem lightLevel_of_some {level : Nat} (h : levelAt world staged layer p = some level) :
    lightLevel world staged layer p = level := by
  rw [lightLevel, h]
  rfl

theorem levelAt_isSome (h : Resident world p) (hworld : Readable world) (staged : Staged)
    (layer : LightLayer) : (levelAt world staged layer p).isSome := by
  rw [levelAt, if_pos h.inside]
  cases staged.get? (layer, p) with
  | none => exact h.stored hworld layer
  | some level => rfl

theorem value_le_max (h : Faithful world access) (layer : LightLayer) (p : BlockPos) :
    (lightField world layer).value (lightLevel world access.staged layer) p ≤ maxLightLevel :=
  Radiance.value_le (lightField_source_le layer p) fun q _ => lightLevel_le h layer q

-- A staged level is what the cell holds from then on, in its own layer alone.
theorem lightLevel_set (hp : p.isInsideWorld = true) (level : Nat) :
    lightLevel world (staged.set (layer, p) level) layer =
      Function.update (lightLevel world staged layer) p level := by
  funext q
  by_cases hq : q = p
  · subst hq
    rw [Function.update_self]
    refine lightLevel_of_some ?_
    rw [levelAt, if_pos hp, OrderedMap.get?_set_self]
  · have hkey : (layer, q) ≠ (layer, p) := fun h => hq (congrArg Prod.snd h)
    rw [Function.update_of_ne hq, lightLevel, lightLevel, levelAt, levelAt, OrderedMap.get?_set,
      if_neg hkey]

theorem lightLevel_set_of_ne {other : LightLayer} (hne : other ≠ layer) (level : Nat) :
    lightLevel world (staged.set (layer, p) level) other = lightLevel world staged other := by
  funext q
  have hkey : (other, q) ≠ (layer, p) := fun h => hne (congrArg Prod.fst h)
  rw [lightLevel, lightLevel, levelAt, levelAt, OrderedMap.get?_set, if_neg hkey]

theorem storedAt_isSome_of_level (h : Faithful world access) {level : Nat}
    (hlevel : levelAt world access.staged layer p = some level) : (storedAt world layer p).isSome := by
  rw [levelAt] at hlevel
  split_ifs at hlevel
  cases hstaged : access.staged.get? (layer, p) with
  | none =>
    rw [hstaged] at hlevel
    exact Option.isSome_of_eq_some hlevel
  | some found => exact (h.staged layer p found hstaged).2

theorem Faithful.set (h : Faithful world access) {level : Nat} (hle : level ≤ maxLightLevel)
    (hstored : (storedAt world layer p).isSome) :
    Faithful world { access with staged := access.staged.set (layer, p) level } where
  snapshots := h.snapshots
  staged other q found hfound := by
    rw [OrderedMap.get?_set] at hfound
    split_ifs at hfound with hkey
    · cases hkey
      cases hfound
      exact ⟨hle, hstored⟩
    · exact h.staged other q found hfound

theorem setStoredLight_outcome (h : Faithful world access) (hp : Resident world p) {level : Nat}
    (hle : level ≤ maxLightLevel) (hne : lightLevel world access.staged layer p ≠ level) :
    Outcome (fun stored t => (stored = false ∧ ¬ Readable world) ∨ (stored = true ∧
        t.staged = access.staged.set (layer, p) level ∧ Faithful world t)) (¬ Readable world)
      (WorldLightAccess.setStoredLight world layer p level access) := by
  rw [WorldLightAccess.setStoredLight, if_neg (Nat.not_lt.mpr hle)]
  refine Attempt.outcome_bind (storedLight_answers h layer p) fun current t ⟨hcurrent, hstaged, ht⟩ => ?_
  subst hcurrent
  cases hlevel : levelAt world access.staged layer p with
  | none =>
    refine .inl ⟨rfl, fun hworld => ?_⟩
    have hsome := levelAt_isSome hp hworld access.staged layer
    rw [hlevel] at hsome
    cases hsome
  | some current =>
    have hcurrent : current ≠ level := lightLevel_of_some hlevel ▸ hne
    simp only [if_neg hcurrent]
    refine .inr ⟨rfl, ?_, ht.set hle (storedAt_isSome_of_level h hlevel)⟩
    exact congrArg (fun staged => OrderedMap.set staged (layer, p) level) hstaged

end Cobblestone.Light
