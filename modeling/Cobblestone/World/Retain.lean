import Cobblestone.World.Advance
import Cobblestone.World.InfiniteProof

namespace Cobblestone.World

open Lib Effect

-- Resident chunks stay and advance; others may come.
def Retains (s t : WorldStore) : Prop :=
  ∀ p c, s.chunks p = some c → ∃ c', t.chunks p = some c' ∧ Advances c c'

-- The operations that neither take a chunk out of the store nor set what counts as saved.
def StoreOp.Keeps : StoreOp → Prop
  | .importChunk .. | .markPersisted .. | .tryEvictChunk .. => False
  | _ => True

def StoreRun : WorldStore → WorldStore → Prop :=
  Relation.ReflTransGen fun s t => ∃ op : StoreOp, op.Keeps ∧ t = op.apply s

section

variable {s t : WorldStore} {p : ChunkCoord} {γ : Type} {terrain : Terrain γ}
  {target : ChunkCoord}

theorem Retains.refl (s : WorldStore) : Retains s s := fun _ c hc => ⟨c, hc, .refl c⟩

theorem Retains.setAbsent (hp : s.chunks p = none) (c : ChunkRecord) : Retains s (s.setChunk p c) := by
  intro q d hd
  have hne : q ≠ p := by
    rintro rfl
    rw [hp] at hd
    cases hd
  exact ⟨d, by rw [WorldStore.setChunk_of_ne _ _ hne, hd], .refl d⟩

theorem StoreOp.retains {op : StoreOp} (h : op.Keeps) (s : WorldStore) : Retains s (op.apply s) := by
  cases op with
  | importChunk | markPersisted | tryEvictChunk => exact h.elim
  | ensureChunk p biome =>
    simp only [StoreOp.apply, WorldStore.ensureChunk]
    split
    · exact .refl s
    · split
      · exact .refl s
      · rename_i hp
        exact .setAbsent (by simpa [WorldStore.containsChunk] using hp) _
  | importChunkIfAbsent p i =>
    simp only [StoreOp.apply, WorldStore.importChunkIfAbsent]
    split
    · exact .refl s
    · split
      · exact .refl s
      · rename_i hp
        exact .setAbsent (by simpa [WorldStore.containsChunk] using hp) _
  | installGeneratedChunk p i =>
    simp only [StoreOp.apply, WorldStore.installGeneratedChunk]
    split
    · exact .refl s
    · split
      · rename_i hp
        exact .setAbsent hp _
      · rename_i c hp
        exact (Advanced.setChunk hp (installOver_advances c i)).kept
  | _ =>
    refine (StoreOp.advanced ?_ s).kept
    trivial

theorem StoreRun.refl (s : WorldStore) : StoreRun s s := Relation.ReflTransGen.refl

theorem StoreRun.op (op : StoreOp) (h : op.Keeps) : StoreRun s (op.apply s) := .single ⟨op, h, rfl⟩

theorem StoreRun.retains (h : StoreRun s t) : Retains s t := by
  induction h with
  | refl => exact .refl s
  | tail _ hstep ih =>
    obtain ⟨op, hop, rfl⟩ := hstep
    intro p c hc
    obtain ⟨d, hd, hcd⟩ := ih p c hc
    obtain ⟨e, he, hde⟩ := StoreOp.retains hop _ p d hd
    exact ⟨e, he, hcd.trans hde⟩

theorem StoreOp.imports_any (op : StoreOp) : op.Imports fun _ => True := by cases op <;> trivial

theorem WorldStore.Reachable.op (h : WorldStore.Reachable (fun _ => True) s) (op : StoreOp) :
    WorldStore.Reachable (fun _ => True) (op.apply s) := h.tail ⟨op, op.imports_any, rfl⟩

theorem StoreRun.reachable (hs : WorldStore.Reachable (fun _ => True) s) (h : StoreRun s t) :
    WorldStore.Reachable (fun _ => True) t := by
  induction h with
  | refl => exact hs
  | tail _ hstep ih =>
    obtain ⟨op, -, rfl⟩ := hstep
    exact ih.op op

def Runs (g h : OverworldInfinite γ) : Prop := StoreRun g.store h.store

instance : Std.Refl (Runs (γ := γ)) := ⟨fun g => StoreRun.refl g.store⟩

instance : IsTrans (OverworldInfinite γ) Runs := ⟨fun _ _ _ => Relation.ReflTransGen.trans⟩

theorem installGenerated_runs {i : ChunkImport} : Moves (Runs (γ := γ)) (installGenerated p i) :=
  fun _ => StoreRun.op (.installGeneratedChunk p i) trivial

theorem tryPostProcessCenter_runs : Moves Runs (tryPostProcessCenter terrain target) :=
  tryPostProcessCenter_moves fun g _ _ =>
    populateCenter_moves (fun _ h => StoreRun.refl h.store) (fun _ _ _ => installGenerated_runs) g

theorem ensureGeneratedChunk_runs : Moves Runs (ensureGeneratedChunk terrain p) :=
  ensureGeneratedChunk_moves (fun _ g => StoreRun.refl g.store) installGenerated_runs

theorem generateIntoStore_runs : Moves Runs (generateIntoStore terrain target) :=
  generateIntoStore_moves (fun _ => ensureGeneratedChunk_runs) fun _ => tryPostProcessCenter_runs

end

end Cobblestone.World
