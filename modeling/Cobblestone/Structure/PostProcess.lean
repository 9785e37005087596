import Cobblestone.Structure.Core

namespace Cobblestone.Structure

open Lib World

namespace StructureStartCore

def processStart (core : StructureStartCore) (target : ChunkCoord) : StructureStartCore :=
  if !core.shouldPostProcess target then core else core.markPostProcessed target

-- The scattered features ask first whether the bounds meet the chunk itself.
def processScatteredStart (core : StructureStartCore) (target : ChunkCoord) : StructureStartCore :=
  let x0 := target.x * 16
  let z0 := target.z * 16
  if !core.bounds.intersectsXz x0 z0 (x0 + 15) (z0 + 15) || !core.shouldPostProcess target then core
  else core.markPostProcessed target

end StructureStartCore

inductive StartStep where
  | process (target : ChunkCoord)
  | processScattered (target : ChunkCoord)
  | reload
deriving DecidableEq, Repr

-- A start with the targets that it has been post-processed for since it was planned or read back.
structure StartHistory where
  core : StructureStartCore
  done : List ChunkCoord
deriving DecidableEq, Repr

namespace StartHistory

def planned (source : ChunkCoord) (bounds : StructureBounds) : StartHistory :=
  ⟨.new source bounds, []⟩

-- A target has been post-processed for when the start has come to mark it.
def process (h : StartHistory) (target : ChunkCoord) (core : StructureStartCore) : StartHistory :=
  ⟨core, if core = h.core then h.done else target :: h.done⟩

def step (h : StartHistory) : StartStep → StartHistory
  | .process target => h.process target (h.core.processStart target)
  | .processScattered target => h.process target (h.core.processScatteredStart target)
  | .reload =>
    match StructureStartCore.decodeCoreSemantics h.core.encodeCoreSemantics with
    | some core => ⟨core, []⟩
    | none => h

def run (h : StartHistory) (steps : List StartStep) : StartHistory := steps.foldl step h

end StartHistory

namespace StructureStartCore

variable {core : StructureStartCore} {target : ChunkCoord}

theorem shouldPostProcess_eq_false_iff :
    core.shouldPostProcess target = false ↔
      meets core.bounds target = false ∨
        chunkHash target.x target.z ∈ core.generatedChunkPositions := by
  rw [shouldPostProcess, Bool.and_eq_false_iff, Bool.not_eq_false', List.contains_iff_mem]

theorem markPostProcessed_of_should (h : core.shouldPostProcess target = true) :
    core.markPostProcessed target = { core with
      generatedChunkPositions := core.generatedChunkPositions ++ [chunkHash target.x target.z] } := by
  rw [shouldPostProcess, Bool.and_eq_true, Bool.not_eq_true'] at h
  rw [markPostProcessed, if_neg (by rw [h.2]; exact Bool.false_ne_true)]

theorem processStart_cases (core : StructureStartCore) (target : ChunkCoord) :
    core.processStart target = core ∨ core.processStart target = { core with
      generatedChunkPositions := core.generatedChunkPositions ++ [chunkHash target.x target.z] } := by
  rw [processStart]
  cases h : core.shouldPostProcess target with
  | false => exact .inl rfl
  | true => exact .inr (markPostProcessed_of_should h)

theorem processScatteredStart_cases (core : StructureStartCore) (target : ChunkCoord) :
    core.processScatteredStart target = core ∨ core.processScatteredStart target = { core with
      generatedChunkPositions := core.generatedChunkPositions ++ [chunkHash target.x target.z] } := by
  rw [processScatteredStart]
  split
  · exact .inl rfl
  · rename_i hgo
    rw [Bool.or_eq_true, not_or, Bool.not_eq_true', Bool.not_eq_true', Bool.not_eq_false,
      Bool.not_eq_false] at hgo
    exact .inr (markPostProcessed_of_should hgo.2)

end StructureStartCore

namespace StartHistory

variable {source : ChunkCoord} {bounds : StructureBounds} {h : StartHistory}

structure Remembers (bounds : StructureBounds) (h : StartHistory) : Prop where
  bounds : h.core.bounds = bounds
  done : h.core.generatedChunkPositions = (h.done.map fun u => chunkHash u.x u.z).reverse

theorem Remembers.process (hr : Remembers bounds h) {target : ChunkCoord} {core : StructureStartCore}
    (hcore : core = h.core ∨ core = { h.core with generatedChunkPositions :=
      h.core.generatedChunkPositions ++ [chunkHash target.x target.z] }) :
    Remembers bounds (h.process target core) := by
  rcases hcore with rfl | rfl
  · refine ⟨hr.bounds, ?_⟩
    rw [StartHistory.process, if_pos rfl]
    exact hr.done
  · refine ⟨hr.bounds, ?_⟩
    have hnew : { h.core with generatedChunkPositions :=
        h.core.generatedChunkPositions ++ [chunkHash target.x target.z] } ≠ h.core := by
      intro heq
      have hlength := congrArg (fun core => core.generatedChunkPositions.length) heq
      simp at hlength
    rw [StartHistory.process, if_neg hnew, List.map_cons, List.reverse_cons, ← hr.done]

theorem Remembers.step (hr : Remembers bounds h) (s : StartStep) : Remembers bounds (h.step s) := by
  cases s with
  | process target => exact hr.process (h.core.processStart_cases target)
  | processScattered target => exact hr.process (h.core.processScatteredStart_cases target)
  | reload =>
    rw [StartHistory.step, decodeCoreSemantics_encodeCoreSemantics]
    exact ⟨hr.bounds, rfl⟩

theorem Remembers.run (hr : Remembers bounds h) (steps : List StartStep) :
    Remembers bounds (h.run steps) := by
  induction steps generalizing h with
  | nil => exact hr
  | cons s steps ih => exact ih (hr.step s)

theorem Remembers.shouldPostProcess_iff (hr : Remembers bounds h) (target : ChunkCoord) :
    h.core.shouldPostProcess target = false ↔
      StructureStartCore.meets bounds target = false ∨
        ∃ u ∈ h.done, chunkHash u.x u.z = chunkHash target.x target.z := by
  rw [StructureStartCore.shouldPostProcess_eq_false_iff, hr.bounds, hr.done, List.mem_reverse,
    List.mem_map]

-- What post-processing of a target can be refused for.
structure Refusals (bounds : StructureBounds) (h : StartHistory) (target : ChunkCoord) : Prop where
  iff : h.core.shouldPostProcess target = false ↔
    StructureStartCore.meets bounds target = false ∨
      ∃ u ∈ h.done, chunkHash u.x u.z = chunkHash target.x target.z
  line : h.core.shouldPostProcess target = false → StructureStartCore.meets bounds target = true →
    (∀ u ∈ h.done, u.x = target.x ∨ u.z = target.z) → target ∈ h.done

theorem post_process_refusals (source : ChunkCoord) (bounds : StructureBounds)
    (steps : List StartStep) (target : ChunkCoord) :
    Refusals bounds ((planned source bounds).run steps) target := by
  have hplanned : Remembers bounds (planned source bounds) := ⟨rfl, rfl⟩
  have hr := hplanned.run steps
  refine ⟨hr.shouldPostProcess_iff target, fun hfalse hmeets hline => ?_⟩
  rcases (hr.shouldPostProcess_iff target).mp hfalse with hnot | ⟨u, hu, hhash⟩
  · rw [hmeets] at hnot
    cases hnot
  · rwa [← eq_of_chunkHash_eq hhash (hline u hu)]

-- The start lies on both chunks, and the second is refused for the sake of the first.
theorem refused_by_collision :
    let bounds : StructureBounds := ⟨-16, 40, -16, 31, 50, 31⟩
    let h := (planned ⟨0, 0⟩ bounds).run [.process ⟨-1, -1⟩]
    h.core.shouldPostProcess ⟨1, 1⟩ = false ∧ StructureStartCore.meets bounds ⟨1, 1⟩ = true ∧
      h.done = [⟨-1, -1⟩] := by
  decide

end StartHistory

end Cobblestone.Structure
