import Cobblestone.Light.Field

namespace Cobblestone.Light

open Lib World Mutation Source

structure Surrounded (world : MainChunkSource) (p : BlockPos) : Prop where
  inside : p.isInsideWorld = true
  here : (chunkAt world p.chunk).isSome
  west : (chunkAt world { p with x := p.x - 1 : BlockPos }.chunk).isSome
  east : (chunkAt world { p with x := p.x + 1 : BlockPos }.chunk).isSome
  north : (chunkAt world { p with z := p.z - 1 : BlockPos }.chunk).isSome
  south : (chunkAt world { p with z := p.z + 1 : BlockPos }.chunk).isSome

variable {world : MainChunkSource} {layer : LightLayer} {p q : BlockPos}
  {state t : Propagation} {α β : Type}

theorem Surrounded.resident (h : Surrounded world p) : Resident world p := ⟨h.inside, h.here⟩

theorem Surrounded.neighbor (h : Surrounded world p) (hq : q ∈ LightPropagator.sixNeighbors p)
    (hin : q.isInsideWorld = true) : Resident world q := by
  refine ⟨hin, ?_⟩
  simp only [LightPropagator.sixNeighbors, List.mem_cons, List.not_mem_nil, or_false] at hq
  rcases hq with rfl | rfl | rfl | rfl | rfl | rfl
  · exact h.west
  · exact h.east
  · exact h.here
  · exact h.here
  · exact h.north
  · exact h.south

structure Unmoved (world : MainChunkSource) (state t : Propagation) : Prop where
  queue : t.queue = state.queue
  pending : t.pending = state.pending
  staged : t.access.staged = state.access.staged
  faithful : Faithful world t.access

def Finds (world : MainChunkSource) (state : Propagation) (v a : α) (t : Propagation) : Prop :=
  a = v ∧ Unmoved world state t

theorem Unmoved.trans {u : Propagation} (h : Unmoved world state t) (k : Unmoved world t u) :
    Unmoved world state u :=
  ⟨k.queue.trans h.queue, k.pending.trans h.pending, k.staged.trans h.staged, k.faithful⟩

theorem Unmoved.refl (h : Faithful world state.access) : Unmoved world state state :=
  ⟨rfl, rfl, rfl, h⟩

theorem onAccess_outcome {m : Access α} {Q : α → WorldLightAccess → Prop} {E : Prop}
    (h : Outcome Q E (m state.access)) :
    Outcome (fun a t => Q a t.access ∧ t.queue = state.queue ∧ t.pending = state.pending) E
      (onAccess m state) := by
  unfold onAccess
  generalize m state.access = r at h
  cases r with
  | error e => exact h
  | ok r => exact ⟨h, rfl, rfl⟩

theorem onAccess_finds {m : Access α} {v : α} {E : Prop}
    (h : Outcome (Answers world state.access v) E (m state.access)) :
    Outcome (Finds world state v) E (onAccess m state) :=
  Attempt.outcome_mono (onAccess_outcome h) fun _ _ ⟨⟨hv, hstaged, hfaithful⟩, hqueue, hpending⟩ =>
    ⟨hv, hqueue, hpending, hstaged, hfaithful⟩

theorem finds_bind {m : Propagate α} {f : α → Propagate β} {v : α} {E : Prop}
    {R : β → Propagation → Prop} (hm : Outcome (Finds world state v) E (m state))
    (hf : ∀ t, Unmoved world state t → Outcome R E (f v t)) :
    Outcome R E ((m >>= f) state) := by
  refine Attempt.outcome_bind hm fun a t ⟨hv, ht⟩ => ?_
  subst hv
  exact hf t ht

theorem orThrow_bind {o : Option α} {e : LightError} {f : α → Propagate β} {E : Prop}
    {R : β → Propagation → Prop} (hnone : o = none → E)
    (hsome : ∀ a, o = some a → Outcome R E (f a state)) :
    Outcome R E ((Attempt.orThrow e o >>= f) state) := by
  refine Attempt.outcome_bind (Q := fun a t => o = some a ∧ t = state)
    (Attempt.outcome_orThrow (fun a ha => ⟨ha, rfl⟩) hnone) fun a t ⟨ha, ht⟩ => ?_
  subst ht
  exact hsome a ha

-- An update that the propagator submits: one cell of a resident chunk.
def PointOf (world : MainChunkSource) (layer : LightLayer) (u : LightUpdate) : Prop :=
  ∃ q, u = .point layer q ∧ Resident world q

namespace LightPropagator

theorem localSource_finds (h : Faithful world state.access) (hp : Resident world p)
    {properties : BlockLightProperties} (hproperties : propertiesAt world p = some properties) :
    Outcome (Finds world state ((lightField world layer).source p)) (¬ Readable world)
      (localSource world layer p properties.lightEmission state) := by
  cases layer with
  | block =>
    refine Attempt.outcome_pure ⟨?_, .refl h⟩
    change _ = (sourceAt world .block p).getD 0
    rw [sourceAt, hproperties]
    rfl
  | sky =>
    refine finds_bind (onAccess_finds (canSeeSky_answers h p)) fun t ht => ?_
    refine orThrow_bind (fun hnone hworld => ?_) fun exposed hexposed => ?_
    · have hsky := hp.sky hworld
      rw [hnone] at hsky
      cases hsky
    · refine Attempt.outcome_pure ⟨?_, ht⟩
      change _ = (sourceAt world .sky p).getD 0
      rw [sourceAt, hexposed]
      rfl

theorem maxNeighborLight_step (layer : LightLayer) (h : Faithful world state.access) {neighbors : List BlockPos}
    (hnear : ∀ q ∈ neighbors, q.isInsideWorld = true → Resident world q) (brightest : Nat) :
    Outcome (Finds world state (max brightest
        (((neighbors.filter BlockPos.isInsideWorld).map
          (lightLevel world state.access.staged layer)).foldr max 0))) (¬ Readable world)
      ((neighbors.foldlM (fun maximum neighbor => do
        if neighbor.isInsideWorld then
          let level ← onAccess (WorldLightAccess.storedLight world layer neighbor)
          let level ← Attempt.orThrow (.propagation "neighbor stored light is unavailable") level
          pure (max maximum level)
        else pure maximum) brightest : Propagate Nat) state) := by
  induction neighbors generalizing brightest state with
  | nil => exact Attempt.outcome_pure ⟨(Nat.max_zero brightest).symm, .refl h⟩
  | cons q neighbors ih =>
    rw [List.foldlM_cons]
    have hrest := fun q' hq' => hnear q' (List.mem_cons_of_mem q hq')
    by_cases hin : q.isInsideWorld = true
    · rw [List.filter_cons_of_pos hin, List.map_cons, List.foldr_cons]
      simp only [hin, if_true, bind_assoc, pure_bind]
      refine finds_bind (onAccess_finds (storedLight_answers h layer q)) fun t ht => ?_
      refine orThrow_bind (fun hnone hworld => ?_) fun level hlevel => ?_
      · have hsome := levelAt_isSome (hnear q (by simp) hin) hworld state.access.staged layer
        rw [hnone] at hsome
        cases hsome
      · have hih := ih ht.faithful hrest (max brightest level)
        rw [lightLevel_of_some hlevel, ← max_assoc, ← ht.staged]
        exact Attempt.outcome_mono hih fun a u ⟨ha, hu⟩ => ⟨ha, ht.trans hu⟩
    · rw [List.filter_cons_of_neg hin]
      simp only [hin, Bool.false_eq_true, if_false, pure_bind]
      exact ih h hrest brightest

theorem maxNeighborLight_finds (h : Faithful world state.access) (hp : Surrounded world p) :
    Outcome (Finds world state (((inWorldNeighbors p).map
        (lightLevel world state.access.staged layer)).foldr max 0)) (¬ Readable world)
      (maxNeighborLight world layer p state) := by
  have hstep := maxNeighborLight_step layer h
    (fun q hq hin => hp.neighbor (q := q) hq hin) 0
  rw [Nat.zero_max] at hstep
  exact hstep

theorem blockState_bind (h : Faithful world state.access) (hp : Resident world p)
    {e e' : LightError} {f : BlockLightProperties → Propagate β} {R : β → Propagation → Prop}
    (hf : ∀ properties t, propertiesAt world p = some properties → Unmoved world state t →
      Outcome R (¬ Readable world) (f properties t)) :
    Outcome R (¬ Readable world) ((do
      let stateId ← onAccess (WorldLightAccess.blockStateId world p)
      let stateId ← Attempt.orThrow e stateId
      let properties ← Attempt.orThrow e' (propertiesForStateId stateId.toNat)
      f properties : Propagate β) state) := by
  have habsent {o : Option BlockLightProperties} (ho : propertiesAt world p = o) (hnone : o = none) :
      ¬ Readable world := fun hworld => by
    obtain ⟨properties, hproperties⟩ := hp.properties hworld
    rw [hproperties] at ho
    cases ho.trans hnone
  refine finds_bind (onAccess_finds (blockStateId_answers h p)) fun t ht => ?_
  refine orThrow_bind (fun hnone => ?_) fun stateId hstate => ?_
  · exact habsent rfl (by rw [propertiesAt, hnone]; rfl)
  · refine orThrow_bind (fun hnone => ?_) fun properties hproperties => ?_
    · exact habsent rfl (by rw [propertiesAt, hstate]; exact hnone)
    · exact hf properties t (by rw [propertiesAt, hstate]; exact hproperties) ht

-- Nothing is queued, or the one update of the neighbour unless it is pending already.
structure Offered (world : MainChunkSource) (layer : LightLayer) (inherited : Nat)
    (neighbor : Option BlockPos) (state t : Propagation) : Prop where
  staged : t.access.staged = state.access.staged
  faithful : Faithful world t.access
  pending : (∀ u ∈ state.pending, u ∈ state.queue) → ∀ u ∈ t.pending, u ∈ t.queue
  grows : ∃ added, t.queue = state.queue ++ added ∧ added.length ≤ 1 ∧
    ∀ u ∈ added, PointOf world layer u
  offered : (∀ u ∈ state.pending, u ∈ state.queue) → ∀ q, neighbor = some q →
    q.isInsideWorld = true →
    lightLevel world state.access.staged layer q ≠ max inherited ((lightField world layer).source q) →
    .point layer q ∈ t.queue

theorem offered_unmoved (h : Unmoved world state t) {inherited : Nat} {neighbor : Option BlockPos}
    (hno : ∀ q, neighbor = some q → q.isInsideWorld = true →
      lightLevel world state.access.staged layer q =
        max inherited ((lightField world layer).source q)) :
    Offered world layer inherited neighbor state t where
  staged := h.staged
  faithful := h.faithful
  pending hpending := by
    rw [h.pending, h.queue]
    exact hpending
  grows := ⟨[], by rw [h.queue, List.append_nil], Nat.zero_le 1, nofun⟩
  offered _ q hq hin hne := absurd (hno q hq hin) hne

theorem submit_offered (h : Unmoved world state t) (hq : Resident world q) (inherited : Nat) :
    Outcome (fun _ => Offered world layer inherited (some q) state) (¬ Readable world)
      (submit (.point layer q) t) := by
  change Offered _ _ _ _ _ (if LightUpdate.point layer q ∈ t.pending then t else _)
  have hpending : (∀ u ∈ state.pending, u ∈ state.queue) → ∀ u ∈ t.pending, u ∈ t.queue := by
    rw [h.pending, h.queue]
    exact id
  split_ifs with hin
  · refine ⟨h.staged, h.faithful, hpending, ⟨[], ?_, Nat.zero_le 1, nofun⟩, ?_⟩
    · rw [h.queue, List.append_nil]
    · rintro hold _ ⟨⟩ - -
      exact hpending hold _ hin
  · refine ⟨h.staged, h.faithful, fun hold u hu => ?_, ⟨[.point layer q], ?_, le_rfl, ?_⟩, ?_⟩
    · rcases Finset.mem_insert.mp hu with rfl | hu
      · exact List.mem_append_right _ (List.mem_singleton_self _)
      · exact List.mem_append_left _ (hpending hold u hu)
    · exact congrArg (· ++ [LightUpdate.point layer q]) h.queue
    · intro u hu
      exact ⟨q, List.mem_singleton.mp hu, hq⟩
    · rintro - _ ⟨⟩ - -
      exact List.mem_append_right _ (List.mem_singleton_self _)

theorem offer_outcome (layer : LightLayer) (h : Faithful world state.access) {neighbor : Option BlockPos}
    (hnear : ∀ q, neighbor = some q → q.isInsideWorld = true → Resident world q) (inherited : Nat) :
    Outcome (fun _ => Offered world layer inherited neighbor state) (¬ Readable world)
      (offer world layer inherited neighbor state) := by
  cases neighbor with
  | none => exact Attempt.outcome_pure (offered_unmoved (.refl h) nofun)
  | some q =>
    rw [offer]
    split_ifs with hin
    · have hq := hnear q rfl hin
      refine blockState_bind h hq fun properties t hproperties ht => ?_
      refine finds_bind (localSource_finds ht.faithful hq hproperties) fun u hu => ?_
      refine finds_bind (onAccess_finds (storedLight_answers hu.faithful layer q)) fun v hv => ?_
      have hmoved := (ht.trans hu).trans hv
      rw [(ht.trans hu).staged]
      refine orThrow_bind (fun hnone hworld => ?_) fun actual hactual => ?_
      · have hsome := levelAt_isSome hq hworld state.access.staged layer
        rw [hnone] at hsome
        cases hsome
      · split_ifs with heq
        · refine Attempt.outcome_pure (offered_unmoved hmoved ?_)
          rintro _ ⟨⟩ -
          rw [lightLevel_of_some hactual, heq]
        · exact submit_offered hmoved hq inherited
    · refine Attempt.outcome_pure (offered_unmoved (.refl h) ?_)
      rintro _ ⟨⟩ hinside
      exact absurd hinside hin

structure OfferedAll (world : MainChunkSource) (layer : LightLayer) (inherited : Nat)
    (neighbors : List (Option BlockPos)) (state t : Propagation) : Prop where
  staged : t.access.staged = state.access.staged
  faithful : Faithful world t.access
  pending : ∀ u ∈ t.pending, u ∈ t.queue
  grows : ∃ added, t.queue = state.queue ++ added ∧ added.length ≤ neighbors.length ∧
    ∀ u ∈ added, PointOf world layer u
  offered : ∀ q, some q ∈ neighbors → q.isInsideWorld = true →
    lightLevel world state.access.staged layer q ≠ max inherited ((lightField world layer).source q) →
    .point layer q ∈ t.queue

theorem offers_outcome (h : Faithful world state.access) (hpending : ∀ u ∈ state.pending, u ∈ state.queue)
    {neighbors : List (Option BlockPos)}
    (hnear : ∀ q, some q ∈ neighbors → q.isInsideWorld = true → Resident world q) (inherited : Nat) :
    Outcome (fun _ => OfferedAll world layer inherited neighbors state) (¬ Readable world)
      (neighbors.forM (offer world layer inherited) state) := by
  induction neighbors generalizing state with
  | nil =>
    exact Attempt.outcome_pure ⟨rfl, h, hpending, ⟨[], (List.append_nil _).symm, Nat.zero_le _, nofun⟩,
      nofun⟩
  | cons neighbor neighbors ih =>
    rw [List.forM_eq_forM, List.forM_cons]
    have hhead := offer_outcome layer h
      (fun q (hq : neighbor = some q) hin => hnear q (by simp [hq]) hin) inherited
    refine Attempt.outcome_bind hhead fun _ t ht => ?_
    have hrest := ih ht.faithful (ht.pending hpending) fun q hq hin =>
      hnear q (List.mem_cons_of_mem neighbor hq) hin
    refine Attempt.outcome_mono hrest fun _ u hu => ?_
    obtain ⟨first, hfirst, hone, hpoint⟩ := ht.grows
    obtain ⟨added, hadded, hlen, hpoints⟩ := hu.grows
    refine ⟨hu.staged.trans ht.staged, hu.faithful, hu.pending, ⟨first ++ added, ?_, ?_, ?_⟩, ?_⟩
    · rw [hadded, hfirst, List.append_assoc]
    · rw [List.length_append, List.length_cons]
      omega
    · intro update hupdate
      exact (List.mem_append.mp hupdate).elim (hpoint update) (hpoints update)
    · intro q hq hin hne
      rcases List.mem_cons.mp hq with rfl | hq
      · rw [hadded]
        exact List.mem_append_left _ (ht.offered hpending q rfl hin hne)
      · exact hu.offered q hq hin (by rw [ht.staged]; exact hne)

structure CellStep (world : MainChunkSource) (update : LightUpdate) (maxY : Int) (p : BlockPos)
    (state t : Propagation) : Prop where
  faithful : Faithful world t.access
  pending : ∀ u ∈ t.pending, u ∈ t.queue
  grows : ∃ added, t.queue = state.queue ++ added ∧ added.length ≤ 6 ∧
    ∀ u ∈ added, PointOf world update.layer u
  relaxed :
    let level := lightLevel world state.access.staged update.layer
    let next := (lightField world update.layer).value level p
    (next = level p ∧ t.access.staged = state.access.staged ∧ t.queue = state.queue) ∨
      (next ≠ level p ∧ t.access.staged = state.access.staged.set (update.layer, p) next ∧
        ∀ q, some q ∈ propagationNeighbors p update.max maxY → q.isInsideWorld = true →
          Function.update level p next q ≠
            max (next - 1) ((lightField world update.layer).source q) →
          .point update.layer q ∈ t.queue)

theorem mem_propagationNeighbors {updateMax : BlockPos} {maxY : Int}
    (hq : some q ∈ propagationNeighbors p updateMax maxY) : q ∈ sixNeighbors p := by
  rw [mem_sixNeighbors]
  simp only [propagationNeighbors, List.mem_cons, Option.some.injEq, List.not_mem_nil,
    or_false] at hq
  rcases hq with rfl | rfl | rfl | hq | hq | hq
  · simp
  · simp
  · simp
  all_goals
    split_ifs at hq
    cases hq
    simp

theorem length_propagationNeighbors (updateMax : BlockPos) (maxY : Int) :
    (propagationNeighbors p updateMax maxY).length = 6 := rfl

theorem propagated_finds (h : Faithful world state.access) (hp : Surrounded world p)
    {properties : BlockLightProperties} (hproperties : propertiesAt world p = some properties) :
    let f := lightField world layer
    let level := lightLevel world state.access.staged layer
    Outcome (Finds world state (((inWorldNeighbors p).map level).foldr max 0 - f.loss p))
      (¬ Readable world)
      ((if maxLightLevel ≤ properties.propagationAttenuation ∧ f.source p = 0 then pure 0
        else do
          let brightest ← maxNeighborLight world layer p
          pure (brightest - properties.propagationAttenuation) : Propagate Nat) state) := by
  intro f level
  have hloss : f.loss p = properties.propagationAttenuation := by
    change ((propertiesAt world p).map _).getD 1 = _
    rw [hproperties]
    rfl
  rw [hloss]
  split_ifs with hdark
  · refine Attempt.outcome_pure ⟨?_, .refl h⟩
    have hmax : ((inWorldNeighbors p).map level).foldr max 0 ≤ maxLightLevel := by
      refine Radiance.le_of_forall_pos fun v hv hle => ?_
      obtain ⟨q, -, hq⟩ := (le_foldr_max hv _).mp hle
      exact hq.trans (lightLevel_le h layer q)
    omega
  · refine finds_bind (maxNeighborLight_finds h hp) fun t ht => ?_
    exact Attempt.outcome_pure ⟨rfl, ht⟩

theorem applyCell_outcome (update : LightUpdate) (maxY : Int) (h : Faithful world state.access)
    (hpending : ∀ u ∈ state.pending, u ∈ state.queue) (hp : Surrounded world p) :
    Outcome (fun _ => CellStep world update maxY p state) (¬ Readable world)
      (applyCell world update maxY p state) := by
  rw [applyCell]
  refine blockState_bind h hp.resident fun properties t hproperties ht => ?_
  refine finds_bind (onAccess_finds (storedLight_answers ht.faithful update.layer p)) fun u hu => ?_
  refine orThrow_bind (fun hnone hworld => ?_) fun old hold => ?_
  · have hsome := levelAt_isSome hp.resident hworld t.access.staged update.layer
    rw [hnone] at hsome
    cases hsome
  refine finds_bind (localSource_finds hu.faithful hp.resident hproperties) fun v hv => ?_
  refine finds_bind (propagated_finds hv.faithful hp hproperties) fun w hw => ?_
  have hmoved := (ht.trans hu).trans (hv.trans hw)
  have hstaged : v.access.staged = state.access.staged := (ht.trans (hu.trans hv)).staged
  rw [ht.staged] at hold
  have hlevel := lightLevel_of_some hold
  rw [hstaged]
  change Outcome _ _ ((if (lightField world update.layer).value
    (lightLevel world state.access.staged update.layer) p = old then _ else _ : Propagate Unit) w)
  have hpending' : ∀ u ∈ w.pending, u ∈ w.queue := by
    rw [hmoved.pending, hmoved.queue]
    exact hpending
  split_ifs with hsame
  · refine Attempt.outcome_pure ⟨hmoved.faithful, hpending', ⟨[], ?_, Nat.zero_le 6, nofun⟩,
      .inl ⟨hsame.trans hlevel.symm, hmoved.staged, hmoved.queue⟩⟩
    rw [hmoved.queue, List.append_nil]
  · have hne : lightLevel world w.access.staged update.layer p ≠ (lightField world update.layer).value
        (lightLevel world state.access.staged update.layer) p := by
      rw [hmoved.staged, hlevel]
      exact fun heq => hsame heq.symm
    have hset := setStoredLight_outcome hmoved.faithful hp.resident (value_le_max h update.layer p) hne
    refine Attempt.outcome_bind (onAccess_outcome hset) fun stored x ⟨hstored, hqueue, hpend⟩ => ?_
    rcases hstored with ⟨rfl, habsent⟩ | ⟨rfl, hwrite, hfaithful⟩
    · exact habsent
    · rw [hmoved.staged] at hwrite
      refine Attempt.outcome_mono (offers_outcome hfaithful ?_ (fun q hq hin =>
        hp.neighbor (mem_propagationNeighbors hq) hin) _) fun _ y hy => ?_
      · rw [hpend, hqueue]
        exact hpending'
      · refine ⟨hy.faithful, hy.pending, ?_, .inr ⟨fun heq => hsame (heq.trans hlevel),
          hy.staged.trans hwrite, fun q hq hin hdiff => ?_⟩⟩
        · rw [← hmoved.queue, ← hqueue]
          exact hy.grows
        · refine hy.offered q hq hin ?_
          rw [hwrite, lightLevel_set hp.inside]
          exact hdiff

end LightPropagator

end Cobblestone.Light
