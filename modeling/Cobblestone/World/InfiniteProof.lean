import Cobblestone.World.Infinite

namespace Cobblestone.World

open Lib Effect

namespace WorldStore

-- Chunks are only added, at the given positions, and nothing is marked as saved.
structure Grew (N : ChunkCoord → Prop) (s t : WorldStore) : Prop where
  kept : ∀ p c, s.chunks p = some c →
    ∃ c', t.chunks p = some c' ∧ c'.persistedTerrainRevision = c.persistedTerrainRevision
  fresh : ∀ p c, s.chunks p = none → t.chunks p = some c →
    N p ∧ c.persistedTerrainRevision = none

variable {N M : ChunkCoord → Prop} {s t u : WorldStore} {p q : ChunkCoord}

theorem Grew.refl (s : WorldStore) : Grew N s s where
  kept := fun _ c h => ⟨c, h, rfl⟩
  fresh := fun p c hn hs => by simp [hn] at hs

theorem Grew.trans (h : Grew N s t) (k : Grew N t u) : Grew N s u where
  kept p c hp := by
    obtain ⟨c', hp', hm⟩ := h.kept p c hp
    obtain ⟨c'', hp'', hm'⟩ := k.kept p c' hp'
    exact ⟨c'', hp'', hm'.trans hm⟩
  fresh p c hs hu := by
    cases ht : t.chunks p with
    | none => exact k.fresh p c ht hu
    | some c' =>
      obtain ⟨hN, hm⟩ := h.fresh p c' hs ht
      obtain ⟨c'', hp'', hm'⟩ := k.kept p c' ht
      rw [hu] at hp''
      cases hp''
      exact ⟨hN, hm'.trans hm⟩

theorem Grew.weaken (h : Grew N s t) (hN : ∀ p, N p → M p) : Grew M s t where
  kept := h.kept
  fresh p c hs ht := ⟨hN p (h.fresh p c hs ht).1, (h.fresh p c hs ht).2⟩

theorem Grew.isSome (h : Grew N s t) (hp : (s.chunks p).isSome) : (t.chunks p).isSome := by
  obtain ⟨c, hc⟩ := Option.isSome_iff_exists.mp hp
  obtain ⟨c', hc', -⟩ := h.kept p c hc
  simp [hc']

theorem installOver_mark (c : ChunkRecord) (i : ChunkImport) :
    (installOver c i).2.persistedTerrainRevision = c.persistedTerrainRevision := by
  simp only [installOver]
  split
  · rfl
  · split
    · rfl
    · split <;> rfl

theorem installOver_ok_flags {c : ChunkRecord} {i : ChunkImport} {changed : Bool}
    (h : (installOver c i).1 = .ok changed) :
    (installOver c i).2.lifecycleFlags = i.lifecycleFlags := by
  revert h
  simp only [installOver]
  split
  · intro h
    cases h
  · split
    · intro h
      cases h
    · exact fun _ => rfl

theorem installOver_flags (c : ChunkRecord) (i : ChunkImport) :
    (installOver c i).2.lifecycleFlags = c.lifecycleFlags ∨
      (installOver c i).2.lifecycleFlags = i.lifecycleFlags := by
  simp only [installOver]
  split
  · exact .inl rfl
  · split
    · exact .inl rfl
    · exact .inr rfl

theorem installGenerated_of_ne (i : ChunkImport) (h : q ≠ p) :
    (s.installGeneratedChunk p i).2.chunks q = s.chunks q := by
  rw [installGeneratedChunk]
  split
  · rfl
  · split <;> simp [h]

theorem installGenerated_grew (i : ChunkImport) :
    Grew (fun q => q = p ∧ s.chunks p = none) s (s.installGeneratedChunk p i).2 := by
  rw [installGeneratedChunk]
  split
  · exact .refl s
  · split
    · rename_i hp
      constructor
      · intro q c hq
        have hne : q ≠ p := by
          rintro rfl
          simp [hp] at hq
        exact ⟨c, by simpa [hne] using hq, rfl⟩
      · intro q c hq hc
        by_cases hqp : q = p
        · subst hqp
          rw [setChunk_self] at hc
          cases hc
          exact ⟨⟨rfl, hp⟩, rfl⟩
        · rw [setChunk_of_ne _ _ hqp, hq] at hc
          cases hc
    · rename_i c hp
      constructor
      · intro q d hq
        by_cases hqp : q = p
        · subst hqp
          rw [hp] at hq
          cases hq
          exact ⟨_, setChunk_self .., installOver_mark ..⟩
        · exact ⟨d, by simpa [hqp] using hq, rfl⟩
      · intro q d hq hd
        have hne : q ≠ p := by
          rintro rfl
          simp [hp] at hq
        rw [setChunk_of_ne _ _ hne, hq] at hd
        cases hd

-- The flags of a chunk after an installation are its old ones or those of the import.
theorem installGenerated_flags (i : ChunkImport) {c : ChunkRecord} (hq : s.chunks q = some c) :
    ∃ c', (s.installGeneratedChunk p i).2.chunks q = some c' ∧
      (c'.lifecycleFlags = c.lifecycleFlags ∨ (q = p ∧ c'.lifecycleFlags = i.lifecycleFlags)) := by
  by_cases hqp : q = p
  · subst hqp
    rw [installGeneratedChunk]
    split
    · exact ⟨c, hq, .inl rfl⟩
    · rw [hq]
      refine ⟨_, setChunk_self .., ?_⟩
      rcases installOver_flags c i with h | h
      · exact .inl h
      · exact .inr ⟨rfl, h⟩
  · exact ⟨c, by rw [installGenerated_of_ne i hqp, hq], .inl rfl⟩

theorem installGenerated_ok {i : ChunkImport} {changed : Bool}
    (h : (s.installGeneratedChunk p i).1 = .ok changed) :
    ∃ c, (s.installGeneratedChunk p i).2.chunks p = some c ∧
      c.lifecycleFlags = i.lifecycleFlags := by
  revert h
  rw [installGeneratedChunk]
  split
  · intro h
    cases h
  · split
    · exact fun _ => ⟨_, setChunk_self .., rfl⟩
    · exact fun h => ⟨_, setChunk_self .., installOver_ok_flags h⟩

theorem any_keeps {f : UInt8 → Bool} {i : ChunkImport}
    (hi : q = p → (s.chunks q).any (fun c => f c.lifecycleFlags) = true →
      f i.lifecycleFlags = true)
    (h : (s.chunks q).any (fun c => f c.lifecycleFlags) = true) :
    ((s.installGeneratedChunk p i).2.chunks q).any (fun c => f c.lifecycleFlags) = true := by
  cases hq : s.chunks q with
  | none => simp [hq] at h
  | some c =>
    obtain ⟨c', hc', hflags⟩ := installGenerated_flags (p := p) i hq
    rw [hc', Option.any_some]
    rcases hflags with hflags | ⟨hqp, hflags⟩
    · rw [hflags]
      simpa [hq] using h
    · rw [hflags]
      exact hi hqp h

end WorldStore

open WorldStore

variable {γ : Type} {terrain : Terrain γ} {target p : ChunkCoord}

theorem neighborhoodPosition_center (center : ChunkCoord) : neighborhoodPosition center 4 = center := by
  have h : Int32.ofNat ((4 : Fin 9) % 3) - 1 = 0 ∧ Int32.ofNat ((4 : Fin 9) / 3) - 1 = 0 := by decide
  rw [neighborhoodPosition, wrapOffset, h.1, h.2, Int32.add_zero, Int32.add_zero]

theorem neighborhoodPosition_ne {i : Fin 9} (hi : i ≠ 4) : neighborhoodPosition target i ≠ target := by
  have hoff : Int32.ofNat (i % 3) - 1 ≠ 0 ∨ Int32.ofNat (i / 3) - 1 ≠ 0 := by
    revert i
    decide
  intro h
  rw [neighborhoodPosition, wrapOffset, ChunkCoord.mk.injEq] at h
  rcases hoff with hoff | hoff
  · exact hoff (by simpa using h.1)
  · exact hoff (by simpa using h.2)

abbrev Around (target p : ChunkCoord) : Prop := ∃ i, p = neighborhoodPosition target i

-- What a generation may do to the store while it works on the given positions.
def Spreads (N : ChunkCoord → Prop) (g h : OverworldInfinite γ) : Prop := Grew N g.store h.store

instance (N : ChunkCoord → Prop) : Std.Refl (Spreads (γ := γ) N) := ⟨fun g => Grew.refl g.store⟩

instance (N : ChunkCoord → Prop) : IsTrans (OverworldInfinite γ) (Spreads N) :=
  ⟨fun _ _ _ h k => Grew.trans h k⟩

def Generated (p : ChunkCoord) (g : OverworldInfinite γ) : Prop := g.store.generatedAt p = true

def Full (p : ChunkCoord) (g : OverworldInfinite γ) : Prop := g.store.fullAt p = true

theorem isGenerated_of_isFull {flags : UInt8} (h : isFull flags = true) : isGenerated flags = true := by
  have hone : flags &&& chunkLifecycleGenerated =
      (flags &&& fullLifecycle) &&& chunkLifecycleGenerated := by
    rw [UInt8.and_assoc]
    rfl
  rw [isGenerated, hone, beq_iff_eq.mp h]
  decide

theorem isFull_or {flags : UInt8} (h : isFull flags = true) :
    isFull (flags ||| chunkLifecycleGenerated) = true := by
  have hor : (flags ||| chunkLifecycleGenerated) &&& fullLifecycle =
      (flags &&& fullLifecycle) ||| (chunkLifecycleGenerated &&& fullLifecycle) :=
    UInt8.toBitVec_inj.1 BitVec.and_or_distrib_right
  rw [isFull, hor, beq_iff_eq.mp h]
  decide

theorem isGenerated_or (flags : UInt8) : isGenerated (flags ||| chunkLifecycleGenerated) = true := by
  have hor : (flags ||| chunkLifecycleGenerated) &&& chunkLifecycleGenerated =
      chunkLifecycleGenerated :=
    UInt8.toBitVec_inj.1 (BitVec.eq_of_getElem_eq (by simp +contextual))
  rw [isGenerated, hor]
  decide

def Marked (f : UInt8 → Bool) (p : ChunkCoord) (g : OverworldInfinite γ) : Prop :=
  (g.store.chunks p).any (fun c => f c.lifecycleFlags) = true

-- What the population of a center never takes away from the flags of a chunk.
structure LifecycleClosed (f : UInt8 → Bool) : Prop where
  full : f fullLifecycle = true
  or : ∀ flags, f flags = true → f (flags ||| chunkLifecycleGenerated) = true
  generated : ∀ flags, f flags = true → isGenerated flags = true

theorem isFull_closed : LifecycleClosed isFull where
  full := by decide
  or _ h := isFull_or h
  generated _ h := isGenerated_of_isFull h

theorem isGenerated_closed : LifecycleClosed isGenerated where
  full := by decide
  or flags _ := isGenerated_or flags
  generated _ h := h

theorem Marked.generated {f : UInt8 → Bool} (hf : LifecycleClosed f) {g : OverworldInfinite γ}
    (h : Marked f p g) : Generated p g := by
  obtain ⟨c, hc, hflags⟩ := (Option.any_eq_true _ _).mp h
  simp [Generated, generatedAt, hc, hf.generated _ hflags]

theorem Full.generated {g : OverworldInfinite γ} (h : Full p g) : Generated p g :=
  Marked.generated isFull_closed h

section

variable {i : ChunkImport} {f : UInt8 → Bool} {N : ChunkCoord → Prop} {q : ChunkCoord}

theorem current_moves {R : OverworldInfinite γ → OverworldInfinite γ → Prop} [Std.Refl R] :
    Moves R (current (γ := γ)) :=
  fun g => Std.Refl.refl (r := R) g

theorem updateState_spreads (f : γ → γ) :
    Moves (Spreads N) (updateState f) :=
  fun g => Grew.refl g.store

theorem installGenerated_spreads : Moves (Spreads (γ := γ) (· = p)) (installGenerated p i) :=
  fun _ => (installGenerated_grew i).weaken fun _ h => h.1

theorem installGenerated_generated (hi : isGenerated i.lifecycleFlags = true) :
    Moves (keeps (Generated (γ := γ) q)) (installGenerated p i) :=
  fun _ h => any_keeps (fun _ _ => hi) h

theorem installGenerated_marked (hi : q = p → f i.lifecycleFlags = true) :
    Moves (keeps (Marked (γ := γ) f q)) (installGenerated p i) :=
  fun _ h => any_keeps (fun hq _ => hi hq) h

theorem installGenerated_full (hi : q = p → isFull i.lifecycleFlags = true) :
    Moves (keeps (Full (γ := γ) q)) (installGenerated p i) :=
  fun _ h => any_keeps (fun hq _ => hi hq) h

theorem installCounted_moves {R : OverworldInfinite γ → OverworldInfinite γ → Prop} [Std.Refl R]
    [IsTrans (OverworldInfinite γ) R] (h : Moves R (installGenerated p i)) :
    Moves R (installCounted p i) :=
  h.bind fun changed => Moves.pure changed.toNat

theorem installGenerated_reaches (hi : f i.lifecycleFlags = true) :
    Reaches (fun g : OverworldInfinite γ =>
      (g.store.chunks p).any (fun c => f c.lifecycleFlags) = true) (installGenerated p i) := by
  intro g changed h hm
  have hok : (g.store.installGeneratedChunk p i).1 = .ok changed := (Prod.mk.inj hm).1
  have hstore : (g.store.installGeneratedChunk p i).2 = h.store :=
    congrArg OverworldInfinite.store (Prod.mk.inj hm).2
  obtain ⟨c, hc, hflags⟩ := installGenerated_ok hok
  rw [← hstore, hc, Option.any_some, hflags]
  exact hi

end

theorem carvedImport_generated (carved : CarvedChunk) :
    isGenerated (carvedImport carved).lifecycleFlags = true := by
  have h : isGenerated chunkLifecycleGenerated = true := by decide
  exact h

theorem ensureGeneratedChunk_exec (g : OverworldInfinite γ) :
    (ensureGeneratedChunk terrain p).exec g =
      if g.store.generatedAt p then (.ok false, g)
      else (installGenerated p (carvedImport (terrain.carve p))).exec
        { g with state := terrain.addFeatures g.state p } := by
  rw [ensureGeneratedChunk, exec_bind]
  simp only [current, exec_ofOp]
  split
  · rfl
  · rw [exec_bind]
    rfl

theorem ensureGeneratedChunk_spreads : Moves (Spreads (· = p)) (ensureGeneratedChunk terrain p) := by
  intro g
  rw [ensureGeneratedChunk_exec]
  split
  · exact Grew.refl g.store
  · exact installGenerated_spreads { g with state := terrain.addFeatures g.state p }

theorem ensureGeneratedChunk_generated {q : ChunkCoord} :
    Moves (keeps (Generated q)) (ensureGeneratedChunk terrain p) := by
  intro g hq
  rw [ensureGeneratedChunk_exec]
  split
  · exact hq
  · exact installGenerated_generated (carvedImport_generated _) { g with state := terrain.addFeatures g.state p } hq

theorem ensureGeneratedChunk_reaches : Reaches (Generated p) (ensureGeneratedChunk terrain p) := by
  intro g changed h hm
  rw [ensureGeneratedChunk_exec] at hm
  split at hm
  · rename_i hp
    cases hm
    exact hp
  · exact installGenerated_reaches (carvedImport_generated _) _ _ _ hm

theorem populatedImport_generated (preserved : ChunkSnapshot) (planes : PopulationChunkPlanes)
    (finalized : FinalizedChunk) (i : Fin 9) :
    isGenerated (populatedImport preserved planes finalized i).lifecycleFlags = true := by
  by_cases hi : i = 4
  · simp [populatedImport, hi]
    decide
  · simp [populatedImport, hi, isGenerated_or]

-- Every position of the neighborhood is resident: installing there adds no chunk.
def Rewrites (target : ChunkCoord) (g h : OverworldInfinite γ) : Prop :=
  (∀ i, (g.store.chunks (neighborhoodPosition target i)).isSome) →
    Grew (fun _ => False) g.store h.store

instance : Std.Refl (Rewrites (γ := γ) target) := ⟨fun g _ => Grew.refl g.store⟩

instance : IsTrans (OverworldInfinite γ) (Rewrites target) :=
  ⟨fun _ _ _ h k hs => (h hs).trans (k fun i => (h hs).isSome (hs i))⟩

theorem installGenerated_rewrites {i : ChunkImport} {index : Fin 9} :
    Moves (Rewrites (γ := γ) target) (installGenerated (neighborhoodPosition target index) i) := by
  intro g hs
  refine (installGenerated_grew i).weaken fun q hq => ?_
  have := hs index
  simp [hq.2] at this

theorem updateState_rewrites (f : γ → γ) : Moves (Rewrites target) (updateState f) :=
  fun g _ => Grew.refl g.store

section

variable {state : γ} {snapshots : Fin 9 → ChunkSnapshot}

theorem populateCenter_moves {R : OverworldInfinite γ → OverworldInfinite γ → Prop} [Std.Refl R]
    [IsTrans (OverworldInfinite γ) R] (hstate : ∀ f, Moves R (updateState f))
    (hinstall : ∀ planes finalized i, Moves R (installGenerated (neighborhoodPosition target i)
      (populatedImport (snapshots i) planes finalized i))) :
    Moves R (populateCenter terrain target state snapshots) := by
  rw [populateCenter]
  refine (hstate _).bind fun _ => Moves.sumM fun i _ => ?_
  exact installCounted_moves (hinstall _ _ i)

theorem populateCenter_rewrites :
    Moves (Rewrites target) (populateCenter terrain target state snapshots) :=
  populateCenter_moves updateState_rewrites fun _ _ _ => installGenerated_rewrites

theorem populateCenter_generated :
    Moves (keeps (Generated p)) (populateCenter terrain target state snapshots) :=
  populateCenter_moves (fun _ _ h => h) fun _ _ _ =>
    installGenerated_generated (populatedImport_generated ..)

theorem populateCenter_marked {f : UInt8 → Bool} (hf : LifecycleClosed f)
    (hp : ∀ i, p = neighborhoodPosition target i → f (snapshots i).lifecycleFlags = true ∨ i = 4) :
    Moves (keeps (Marked f p)) (populateCenter terrain target state snapshots) := by
  refine populateCenter_moves (fun _ _ h => h) fun planes finalized i => ?_
  refine installGenerated_marked fun hi => ?_
  by_cases h4 : i = 4
  · simpa [populatedImport, h4] using hf.full
  · have hi := (hp i hi).resolve_right h4
    simpa [populatedImport, h4] using hf.or _ hi

theorem populateCenter_full
    (hp : ∀ i, p = neighborhoodPosition target i → isFull (snapshots i).lifecycleFlags = true ∨ i = 4) :
    Moves (keeps (Full p)) (populateCenter terrain target state snapshots) :=
  populateCenter_marked isFull_closed hp

theorem populateCenter_reaches :
    Reaches (Full target) (populateCenter terrain target state snapshots) := by
  intro g n h hm
  rw [populateCenter] at hm
  obtain ⟨-, u, -, hm⟩ := bind_ok.mp hm
  refine Reaches.sumM (a := 4) (List.mem_finRange 4) (fun i _ => ?_) ?_ _ _ _ hm
  · refine installCounted_moves (installGenerated_full fun hi => ?_)
    by_cases h4 : i = 4
    · simp [populatedImport, h4]
      decide
    · exact absurd hi.symm (neighborhoodPosition_ne h4)
  · intro g n h hm
    obtain ⟨changed, v, hv, hm⟩ := bind_ok.mp hm
    cases hm
    have hfull := installGenerated_reaches (f := isFull) (by simp [populatedImport]; decide) _ _ _ hv
    rwa [neighborhoodPosition_center] at hfull

end

theorem tryPostProcessCenter_exec (g : OverworldInfinite γ) :
    (tryPostProcessCenter terrain target).exec g =
      if !g.store.generatedAt target || g.store.fullAt target then (.ok 0, g)
      else match readySnapshots (g.store.neighborhoodSnapshots target) with
        | none => (.ok 0, g)
        | some snapshots => (populateCenter terrain target g.state snapshots).exec g := by
  rw [tryPostProcessCenter, exec_bind]
  simp only [current, exec_ofOp]
  split
  · rfl
  · cases readySnapshots (g.store.neighborhoodSnapshots target) <;> rfl

theorem readySnapshots_some {taken : Fin 9 → Option ChunkSnapshot} {snapshots : Fin 9 → ChunkSnapshot}
    (h : readySnapshots taken = some snapshots) (i : Fin 9) : taken i = some (snapshots i) := by
  rw [readySnapshots] at h
  split at h
  · cases h
    simp
  · cases h

theorem neighborhood_resident {s : WorldStore} {snapshots : Fin 9 → ChunkSnapshot}
    (h : readySnapshots (s.neighborhoodSnapshots target) = some snapshots) (i : Fin 9) :
    ∃ c, s.chunks (neighborhoodPosition target i) = some c ∧
      (snapshots i).lifecycleFlags = c.lifecycleFlags := by
  have hi := readySnapshots_some h i
  rw [neighborhoodSnapshots, Option.map_eq_some_iff] at hi
  obtain ⟨c, hc, hsnap⟩ := hi
  exact ⟨c, hc, by rw [← hsnap]; rfl⟩

theorem readySnapshots_of_generated {g : OverworldInfinite γ}
    (h : ∀ i, Generated (neighborhoodPosition target i) g) :
    ∃ snapshots, readySnapshots (g.store.neighborhoodSnapshots target) = some snapshots := by
  have hready : ∀ i, ∃ s, g.store.neighborhoodSnapshots target i = some s ∧
      isGenerated s.lifecycleFlags = true := by
    intro i
    obtain ⟨c, hc, hflags⟩ := (Option.any_eq_true _ _).mp (h i)
    exact ⟨_, by rw [neighborhoodSnapshots, hc, Option.map_some], hflags⟩
  rw [readySnapshots, dif_pos hready]
  exact ⟨_, rfl⟩

theorem tryPostProcessCenter_moves {R : OverworldInfinite γ → OverworldInfinite γ → Prop}
    [Std.Refl R] (h : ∀ g snapshots,
      readySnapshots (g.store.neighborhoodSnapshots target) = some snapshots →
        R g ((populateCenter terrain target g.state snapshots).exec g).2) :
    Moves R (tryPostProcessCenter terrain target) := by
  intro g
  rw [tryPostProcessCenter_exec]
  split
  · exact Std.Refl.refl (r := R) g
  · split
    · exact Std.Refl.refl (r := R) g
    · rename_i snapshots hs
      exact h g snapshots hs

theorem tryPostProcessCenter_spreads :
    Moves (Spreads fun _ => False) (tryPostProcessCenter terrain target) := by
  refine tryPostProcessCenter_moves fun g snapshots hs => populateCenter_rewrites g fun i => ?_
  obtain ⟨c, hc, -⟩ := neighborhood_resident hs i
  simp [hc]

theorem tryPostProcessCenter_generated :
    Moves (keeps (Generated p)) (tryPostProcessCenter terrain target) :=
  tryPostProcessCenter_moves fun g _ _ => populateCenter_generated g

theorem tryPostProcessCenter_full :
    Moves (keeps (Full p)) (tryPostProcessCenter terrain target) := by
  refine tryPostProcessCenter_moves fun g snapshots hs hp => ?_
  refine populateCenter_full (fun i hi => .inl ?_) g hp
  obtain ⟨c, hc, hflags⟩ := neighborhood_resident hs i
  simp only [Full, fullAt, hi, hc, Option.any_some] at hp
  rw [hflags]
  exact hp

theorem tryPostProcessCenter_ready {g h : OverworldInfinite γ} {n : Nat}
    (hg : ∀ i, Generated (neighborhoodPosition target i) g)
    (hm : (tryPostProcessCenter terrain target).exec g = (.ok n, h)) : Full target h := by
  have hcenter : g.store.generatedAt target = true := by
    have := hg 4
    rwa [neighborhoodPosition_center] at this
  rw [tryPostProcessCenter_exec, hcenter] at hm
  cases hfull : g.store.fullAt target with
  | true =>
    rw [hfull] at hm
    cases hm
    exact hfull
  | false =>
    obtain ⟨snapshots, hs⟩ := readySnapshots_of_generated hg
    rw [hfull, hs] at hm
    exact populateCenter_reaches g n h hm

theorem postProcessArea_moves {R : OverworldInfinite γ → OverworldInfinite γ → Prop} [Std.Refl R]
    [IsTrans (OverworldInfinite γ) R] (h : ∀ center, Moves R (tryPostProcessCenter terrain center)) :
    Moves R (postProcessArea terrain p) :=
  Moves.sumM fun _ _ => h _

theorem postProcessArea_reaches {g h : OverworldInfinite γ} {n : Nat}
    (hg : ∀ i, Generated (neighborhoodPosition target i) g)
    (hm : (postProcessArea terrain target).exec g = (.ok n, h)) : Full target h := by
  rw [postProcessArea, postProcessOffsets] at hm
  obtain ⟨k, m, u, hk, hm⟩ := sumM_cons_ok hm
  have hu : Full target u := by
    have hoff : wrapOffset target 0 0 = target := by simp [wrapOffset]
    rw [hoff] at hk
    exact tryPostProcessCenter_ready hg hk
  exact (Moves.sumM fun _ _ => tryPostProcessCenter_full).after hm hu

theorem generateNeighbor_moves {R : OverworldInfinite γ → OverworldInfinite γ → Prop} [Std.Refl R]
    [IsTrans (OverworldInfinite γ) R] (h : Moves R (ensureGeneratedChunk terrain p))
    (hc : ∀ center, Moves R (tryPostProcessCenter terrain center)) :
    Moves R (generateNeighbor terrain p) := by
  refine h.bind fun changed => ?_
  cases changed with
  | false => exact Moves.pure 0
  | true => exact (postProcessArea_moves hc).bind fun n => Moves.pure (1 + n)

theorem generateNeighbor_reaches : Reaches (Generated p) (generateNeighbor terrain p) := by
  intro g n h hm
  obtain ⟨changed, u, hu, hm⟩ := bind_ok.mp hm
  have hgen := ensureGeneratedChunk_reaches g changed u hu
  have hkeep : Moves (keeps (Generated p)) (if changed = true then do
      let n ← postProcessArea terrain p
      pure (1 + n)
    else pure 0) := by
    cases changed with
    | false => exact Moves.pure 0
    | true =>
      exact (postProcessArea_moves fun _ => tryPostProcessCenter_generated).bind fun n =>
        Moves.pure (1 + n)
  exact hkeep.after hm hgen

theorem generateIntoStore_exec (g : OverworldInfinite γ) :
    (generateIntoStore terrain target).exec g =
      if g.store.fullAt target then (.ok ⟨0, false⟩, g)
      else (do
        let around ← sumM (fun i => generateNeighbor terrain (neighborhoodPosition target i))
          (List.finRange 9)
        let center ← postProcessArea terrain target
        let g ← current
        pure ⟨around + center, g.store.fullAt target⟩ :
          Generate γ InfiniteGenerationResult).exec g := by
  rw [generateIntoStore, exec_bind]
  simp only [current, exec_ofOp]
  split <;> rfl

theorem generateIntoStore_moves {R : OverworldInfinite γ → OverworldInfinite γ → Prop} [Std.Refl R]
    [IsTrans (OverworldInfinite γ) R]
    (hensure : ∀ i, Moves R (ensureGeneratedChunk terrain (neighborhoodPosition target i)))
    (hcenter : ∀ center, Moves R (tryPostProcessCenter terrain center)) :
    Moves R (generateIntoStore terrain target) := by
  intro g
  rw [generateIntoStore_exec]
  split
  · exact Std.Refl.refl (r := R) g
  · refine Moves.bind (Moves.sumM fun i _ => ?_) (fun around => ?_) g
    · exact generateNeighbor_moves (hensure i) hcenter
    · refine (postProcessArea_moves hcenter).bind fun center => ?_
      exact current_moves.bind fun g => Moves.pure _

-- Only positions of the neighborhood become resident, whether the generation succeeds or not.
theorem generateIntoStore_spreads :
    Moves (Spreads (Around target)) (generateIntoStore terrain target) :=
  generateIntoStore_moves
    (fun i g => (ensureGeneratedChunk_spreads g).weaken fun _ hq => ⟨i, hq⟩)
    (fun _ g => (tryPostProcessCenter_spreads g).weaken fun _ h => h.elim)

theorem ensureGeneratedChunk_moves {R : OverworldInfinite γ → OverworldInfinite γ → Prop}
    [Std.Refl R] [IsTrans (OverworldInfinite γ) R] (hstate : ∀ f, Moves R (updateState f))
    (hinstall : Moves R (installGenerated p (carvedImport (terrain.carve p)))) :
    Moves R (ensureGeneratedChunk terrain p) := by
  rw [ensureGeneratedChunk]
  refine current_moves.bind fun g => ?_
  split
  · exact Moves.pure false
  · exact (hstate _).bind fun _ => hinstall

-- A generation that succeeds and has work to do generates the whole neighborhood.
theorem generateIntoStore_around {g h : OverworldInfinite γ} {result : InfiniteGenerationResult}
    (hm : (generateIntoStore terrain target).exec g = (.ok result, h))
    (hf : g.store.fullAt target = false) :
    (∀ i, Generated (neighborhoodPosition target i) h) ∧ Full target h ∧
      result.generatedCenter = true := by
  rw [generateIntoStore_exec, if_neg (by simp [hf])] at hm
  obtain ⟨around, u, hu, hm⟩ := bind_ok.mp hm
  obtain ⟨center, v, hv, hm⟩ := bind_ok.mp hm
  obtain ⟨w, x, hw, hm⟩ := bind_ok.mp hm
  cases hw
  cases hm
  have hgen (i : Fin 9) : Generated (neighborhoodPosition target i) u :=
    Reaches.sumM (List.mem_finRange i)
      (fun _ _ => generateNeighbor_moves ensureGeneratedChunk_generated
        fun _ => tryPostProcessCenter_generated)
      generateNeighbor_reaches g around u hu
  have hfull := postProcessArea_reaches hgen hv
  refine ⟨fun i => ?_, hfull, hfull⟩
  exact (postProcessArea_moves fun _ => tryPostProcessCenter_generated).after hv (hgen i)

-- A generation that succeeds completes its center or finds it complete.
theorem generateIntoStore_center {g h : OverworldInfinite γ} {result : InfiniteGenerationResult}
    (hm : (generateIntoStore terrain target).exec g = (.ok result, h)) :
    Full target h ∧ (result.generatedCenter = true ∨ h = g) := by
  cases hf : g.store.fullAt target with
  | true =>
    rw [generateIntoStore_exec, if_pos hf] at hm
    cases hm
    exact ⟨hf, .inr rfl⟩
  | false =>
    obtain ⟨-, hfull, hdone⟩ := generateIntoStore_around hm hf
    exact ⟨hfull, .inl hdone⟩

theorem generateIntoStore_ok {g h : OverworldInfinite γ} {result : InfiniteGenerationResult}
    (hm : (generateIntoStore terrain target).exec g = (.ok result, h)) :
    result.generatedCenter = true ∨ h = g :=
  (generateIntoStore_center hm).2

theorem generateIntoStore_of_full {g : OverworldInfinite γ} (h : Full target g) :
    (generateIntoStore terrain target).exec g = (.ok ⟨0, false⟩, g) := by
  have hfull : g.store.fullAt target = true := h
  rw [generateIntoStore_exec, if_pos hfull]

end Cobblestone.World
