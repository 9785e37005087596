import Cobblestone.World.LiquidChange

namespace Cobblestone.World

open Lib Settling Relation PopulationNeighborhood

variable {region : PopulationNeighborhood} {x y z : Place → LiquidKind} {p q : Place}
  {m : LiquidMaterial} {d e : Fin 16}

theorem liquid_inj {m m' : LiquidMaterial} {d d' : Fin 16}
    (h : LiquidKind.liquid m d = .liquid m' d') : m = m' ∧ d = d' := by
  cases h
  exact ⟨rfl, rfl⟩

theorem depthIn_update (k : LiquidKind) :
    (fun q => (Function.update x p k q).depthIn m) =
      Function.update (fun q => (x q).depthIn m) p (k.depthIn m) := by
  funext q
  by_cases hq : q = p
  · rw [hq, Function.update_self, Function.update_self]
  · rw [Function.update_of_ne hq, Function.update_of_ne hq]

theorem update_blocked {k : LiquidKind} (hx : x p ≠ .blocked) (hk : k ≠ .blocked) (q : Place) :
    Function.update x p k q = .blocked ↔ x q = .blocked := by
  by_cases hq : q = p
  · rw [hq, Function.update_self]
    exact iff_of_false hk hx
  · rw [Function.update_of_ne hq]

theorem update_source {k : LiquidKind} (hx : x p ≠ .liquid .water 0)
    (hk : k ≠ .liquid .water 0) (q : Place) :
    Function.update x p k q = .liquid .water 0 ↔ x q = .liquid .water 0 := by
  by_cases hq : q = p
  · rw [hq, Function.update_self]
    exact iff_of_false hk hx
  · rw [Function.update_of_ne hq]

theorem update_lava {k : LiquidKind} (hk : k.depthIn .lava = (x p).depthIn .lava) (q : Place) :
    (Function.update x p k q).depthIn .lava = (x q).depthIn .lava := by
  by_cases hq : q = p
  · rw [hq, Function.update_self, hk]
  · rw [Function.update_of_ne hq]

theorem fills_ne_zero {f : Place → Option (Fin 16)} (h : Fills placeBasin (liquidFluid m) f p d) :
    d ≠ 0 := by
  have hpos := dropOff_pos m
  cases h with
  | @falls a k ha hk =>
    change (if 8 ≤ k.val then k else Fin.ofNat 16 (k.val + 8)) ≠ 0
    split
    · next h8 =>
      rintro rfl
      exact absurd h8 (by decide)
    · intro h0
      have hval : (Fin.ofNat 16 (k.val + 8)).val = k.val + 8 := Nat.mod_eq_of_lt (by omega)
      rw [h0] at hval
      have hzero : (0 : Fin 16).val = 0 := rfl
      omega
  | @spreads n k hn hk hf =>
    intro h0
    have hlt := (liquidFluid m).head_thrown hf
    rw [h0] at hlt
    exact absurd hlt (Nat.not_lt_zero _)

theorem settles_ne_zero {f : Place → Option (Fin 16)}
    (h : Settles placeBasin (liquidFluid m) f p (some d)) : d ≠ 0 := by
  cases h with
  | falls ha hk => exact fills_ne_zero (.falls ha hk)
  | fed ha hn hk hmin hv =>
    have hlt := (liquidFluid m).head_fed hv
    rintro rfl
    exact absurd hlt (Nat.not_lt_zero _)

-- The one way a cell can be filled: vacant, or water that lava comes into.
def Enterable (m : LiquidMaterial) (k : LiquidKind) : Prop :=
  k = .vacant ∨ m = .lava ∧ ∃ d, k = .liquid .water d

theorem Enterable.dry {k : LiquidKind} (h : Enterable m k) : k.depthIn m = none := by
  rcases h with rfl | ⟨rfl, d, rfl⟩ <;> rfl

theorem Enterable.free {k : LiquidKind} (h : Enterable m k) : k ≠ .blocked := by
  rcases h with rfl | ⟨rfl, d, rfl⟩ <;> simp

theorem change_of_fills (hx : Enterable m (x p))
    (hf : Fills placeBasin (liquidFluid m) (fun q => (x q).depthIn m) p d) :
    LiquidChange x (Function.update x p (.liquid m d)) := by
  have hflow : Flow placeBasin (liquidFluid m) (fun q => (x q).depthIn m)
      fun q => (Function.update x p (.liquid m d) q).depthIn m :=
    .fills hx.dry hf (by rw [depthIn_update, depthIn_liquid])
  have hblocked := update_blocked (k := .liquid m d) hx.free (by simp)
  cases m with
  | lava => exact .lava hblocked hflow
  | water =>
    have hvacant : x p = .vacant := hx.resolve_right (by simp)
    refine .water hblocked (update_lava ?_) (update_source ?_ ?_) hflow
    · rw [hvacant]
      rfl
    · simp [hvacant]
    · simpa using fills_ne_zero hf

-- What a cell holds once its liquid has come to a depth, or dried up.
def settledKind (m : LiquidMaterial) : Option (Fin 16) → LiquidKind
  | some d => .liquid m d
  | none => .vacant

theorem depthIn_settledKind (v : Option (Fin 16)) : (settledKind m v).depthIn m = v := by
  cases v <;> simp [settledKind, LiquidKind.depthIn]

theorem change_of_settles (hx : x p = .liquid m d) (hd : d ≠ 0) {v : Option (Fin 16)}
    (hs : Settles placeBasin (liquidFluid m) (fun q => (x q).depthIn m) p v) (hne : v ≠ some d) :
    LiquidChange x (Function.update x p (settledKind m v)) := by
  have hflow : Flow placeBasin (liquidFluid m) (fun q => (x q).depthIn m)
      fun q => (Function.update x p (settledKind m v) q).depthIn m :=
    .settles (by rw [hx, depthIn_liquid]) hs hne (by rw [depthIn_update, depthIn_settledKind])
  have hblocked := update_blocked (x := x) (p := p) (k := settledKind m v) (by simp [hx])
    (by cases v <;> simp [settledKind])
  cases m with
  | lava => exact .lava hblocked hflow
  | water =>
    refine .water hblocked (update_lava ?_) (update_source ?_ ?_) hflow
    · rw [hx]
      cases v <;> rfl
    · simpa [hx] using hd
    · cases v with
      | none => simp [settledKind]
      | some e => simpa [settledKind] using settles_ne_zero hs

theorem change_of_spills (hx : x p = .liquid m d) (hd : d ≠ 0) (ha : placeBasin.above q = some p)
    (hs : Settles placeBasin (liquidFluid m) (fun q => (x q).depthIn m) p none)
    (hq : x q = .vacant) (he : e ≠ 0) :
    LiquidChange x (Function.update (Function.update x p .vacant) q (.liquid m e)) := by
  have hne : q ≠ p := by
    rintro rfl
    rw [hx] at hq
    cases hq
  have hflow : Flow placeBasin (liquidFluid m) (fun q => (x q).depthIn m)
      fun r => (Function.update (Function.update x p .vacant) q (.liquid m e) r).depthIn m := by
    refine .spills ha (by rw [hx, depthIn_liquid]) hs (by rw [hq]; rfl) (v := e) ?_
    rw [depthIn_update, depthIn_update, depthIn_liquid]
    rfl
  have hfree : Function.update x p .vacant q ≠ .blocked := by
    rw [Function.update_of_ne hne, hq]
    simp
  have hblocked (r : Place) : Function.update (Function.update x p .vacant) q (.liquid m e) r =
      .blocked ↔ x r = .blocked :=
    (update_blocked hfree (by simp) r).trans (update_blocked (by simp [hx]) (by simp) r)
  cases m with
  | lava => exact .lava hblocked hflow
  | water =>
    refine .water hblocked (fun r => ?_) (fun r => ?_) hflow
    · rw [update_lava, update_lava]
      · rw [hx]
        rfl
      · rw [Function.update_of_ne hne, hq]
        rfl
    · refine (update_source ?_ (by simpa using he) r).trans (update_source ?_ (by simp) r)
      · rw [Function.update_of_ne hne, hq]
        simp
      · simpa [hx] using hd

theorem dataAt_toNat (h : region.kinds p = .liquid m d) : (region.dataAt p).toNat = d := by
  have hfree : region.kinds p ≠ .blocked := by simp [h]
  obtain ⟨value, hvalue, hkind⟩ := stateAt_of_kinds hfree
  rw [h, kindOf] at hkind
  cases hm : liquidMaterialId (value >>> 4) with
  | none =>
    rw [hm] at hkind
    dsimp only at hkind
    split at hkind <;> cases hkind
  | some other =>
    rw [hm] at hkind
    obtain ⟨-, rfl⟩ := liquid_inj hkind
    rw [dataAt, hvalue, Option.map_some, Option.getD_some, UInt16.toNat_toUInt8]
    exact Nat.mod_eq_of_lt (Nat.lt_of_lt_of_le (depthOf value).isLt (by decide))

theorem kindOf_relabel {id : UInt16} (h : region.kinds p = .liquid m d)
    (hid : liquidMaterialId id = some m) :
    kindOf (blockState id (region.dataAt p)) = region.kinds p := by
  rw [kindOf_blockState hid (dataAt_toNat h), h]

theorem kinds_of_blockIdAt (hm : liquidMaterialId (region.blockIdAt p) = some m) :
    ∃ d, region.kinds p = .liquid m d := liquidMaterialAt_eq.mp hm

theorem kindOf_obsidian : kindOf (blockState obsidianId 0) = .blocked := by decide

theorem kindOf_cobblestone : kindOf (blockState cobblestoneId 0) = .blocked := by decide

theorem kindOf_stone : kindOf (blockState stoneId 0) = .blocked := by decide

theorem kindOf_fire : kindOf (blockState fireId 0) = .blocked := by decide

theorem kindOf_air : kindOf (blockState airId 0) = .vacant := by decide

-- Lava petrifies, or nothing happens.
theorem solidifyLava_cases (region : PopulationNeighborhood) (p changed : Place) :
    region.solidifyLava p changed = region ∨
    (∃ d, region.kinds p = .liquid .lava d) ∧ (∃ d, region.kinds changed = .liquid .water d) ∧
      (region.solidifyLava p changed).kinds = Function.update region.kinds p .blocked := by
  rw [solidifyLava]
  split
  · exact .inl rfl
  · split
    · exact .inl rfl
    · next hlava =>
      split
      · exact .inl rfl
      · next hwater =>
        obtain ⟨d, hd⟩ := liquidMaterialAt_eq.mp (not_not.mp hlava)
        obtain ⟨d', hd'⟩ := liquidMaterialAt_eq.mp (not_not.mp hwater)
        have hfree : region.kinds p ≠ .blocked := by simp [hd]
        split
        · exact .inr ⟨⟨d, hd⟩, ⟨d', hd'⟩, by rw [kinds_setStateAt hfree, kindOf_obsidian]⟩
        · split
          · exact .inr ⟨⟨d, hd⟩, ⟨d', hd'⟩, by rw [kinds_setStateAt hfree, kindOf_cobblestone]⟩
          · exact .inl rfl

-- What the neighbors of a changed cell may come to: lava petrifies next to water, and no more.
structure Petrified (p : Place) (x y : Place → LiquidKind) : Prop where
  steps : ReflTransGen LiquidChange x y
  others : ∀ q, (∀ d, x q ≠ .liquid .lava d) → y q = x q
  calm : (∀ d, x p ≠ .liquid .water d) → y = x

theorem Petrified.refl (p : Place) (x : Place → LiquidKind) : Petrified p x x :=
  ⟨.refl, fun _ _ => rfl, fun _ => rfl⟩

theorem Petrified.trans (h : Petrified p x y) (k : Petrified p y z) : Petrified p x z where
  steps := h.steps.trans k.steps
  others q hq := by
    have hy := h.others q hq
    rw [← hy] at hq ⊢
    exact k.others q hq
  calm hp := by
    have hy := h.calm hp
    subst hy
    exact k.calm hp

theorem Petrified.single (hq : x q = .liquid .lava d) (hp : x p = .liquid .water e)
    (hy : y = Function.update x q .blocked) : Petrified p x y where
  steps := .single (.blocks (by simp [hq]) hy)
  others r hr := by
    have hne : r ≠ q := by
      rintro rfl
      exact hr d hq
    rw [hy, Function.update_of_ne hne]
  calm h := (h e hp).elim

-- A liquid cell keeps its depth while its neighbors are updated.
theorem Petrified.self (h : Petrified p x y) (hp : x p = .liquid m d) : y p = .liquid m d := by
  cases m with
  | water => rw [h.others p (by simp [hp]), hp]
  | lava => rw [h.calm (by simp [hp]), hp]

-- A liquid keeps its cell while it spreads into another.
theorem Petrified.keeps (h : Petrified q x y) (hq : x q = .liquid m e) (hp : x p = .liquid m d) :
    y p = .liquid m d := by
  cases m with
  | water => rw [h.others p (by simp [hp]), hp]
  | lava => rw [h.calm (by simp [hq]), hp]

namespace TickingRegion

variable {w w' : TickingRegion}

def kinds (w : TickingRegion) : Place → LiquidKind := w.region.kinds

theorem updateLiquidNeighbor_petrified (w : TickingRegion) (p q : Place) :
    Petrified p w.kinds (updateLiquidNeighbor p w q).kinds := by
  rw [updateLiquidNeighbor]
  dsimp only
  set solid := if w.region.blockIdAt q = flowingLava ∨ w.region.blockIdAt q = stillLava then
    w.region.solidifyLava q p else w.region with hsolid
  have hfirst : Petrified p w.kinds solid.kinds := by
    rw [hsolid]
    split
    · rcases solidifyLava_cases w.region q p with hsame | ⟨⟨d, hd⟩, ⟨e, he⟩, hkinds⟩
      · rw [hsame]
        exact .refl p _
      · exact .single hd he hkinds
    · exact .refl p _
  split
  · next hstill =>
    obtain ⟨hid, hsame⟩ := hstill
    have hkeep : (solid.setStateAt q
        (blockState (w.region.blockIdAt q - 1) (solid.dataAt q))).kinds = solid.kinds := by
      rcases hid with hid | hid
      · rw [hid] at hsame ⊢
        have hwater : liquidMaterialId (solid.blockIdAt q) = some .water := by
          rw [hsame]
          decide
        obtain ⟨d, hd⟩ := kinds_of_blockIdAt hwater
        exact kinds_setStateAt_same (kindOf_relabel hd (by decide))
      · rw [hid] at hsame ⊢
        have hlava : liquidMaterialId (solid.blockIdAt q) = some .lava := by
          rw [hsame]
          decide
        obtain ⟨d, hd⟩ := kinds_of_blockIdAt hlava
        exact kinds_setStateAt_same (kindOf_relabel hd (by decide))
    refine hfirst.trans ?_
    rw [kinds, addTick, hkeep]
    exact .refl p _
  · exact hfirst

theorem updateLiquidNeighbors_petrified (w : TickingRegion) (p : Place) :
    Petrified p w.kinds (w.updateLiquidNeighbors p).kinds := by
  rw [updateLiquidNeighbors]
  generalize [p.west, p.east, p.down, p.up, p.north, p.south] = places
  induction places generalizing w with
  | nil => exact .refl p _
  | cons q places ih => exact (updateLiquidNeighbor_petrified w p q).trans (ih _)

theorem setWithLiquidUpdates_petrified (w : TickingRegion) {id : UInt16} {data : UInt8}
    {k : LiquidKind} (hp : w.kinds p ≠ .blocked) (hk : kindOf (blockState id data) = k) :
    Petrified p (Function.update w.kinds p k) (w.setWithLiquidUpdates p id data).kinds := by
  have hset : (w.region.setStateAt p (blockState id data)).kinds =
      Function.update w.kinds p (kindOf (blockState id data)) := kinds_setStateAt hp
  rw [← hk, ← hset]
  exact updateLiquidNeighbors_petrified { w with region := _ } p

variable {liquid : UInt16}

theorem ofNat_toNat (d : Fin 16) : (UInt8.ofNat d.val).toNat = d.val := by
  rw [UInt8.toNat_ofNat']
  exact Nat.mod_eq_of_lt (by omega)

theorem trySpreadTo_cases (w : TickingRegion) (hid : liquidMaterialId liquid = some m)
    (d : Fin 16) :
    w.trySpreadTo p liquid m d = w ∨ Enterable m (w.kinds p) ∧
      Petrified p (Function.update w.kinds p (.liquid m d)) (w.trySpreadTo p liquid m d).kinds := by
  rw [trySpreadTo]
  cases hc : w.region.canSpreadTo m p with
  | false => exact .inl rfl
  | true =>
    have henter : Enterable m (w.kinds p) := canSpreadTo_iff.mp hc
    have hset : (w.region.setStateAt p (blockState liquid (UInt8.ofNat d.val))).kinds =
        Function.update w.kinds p (.liquid m d) := by
      rw [kinds_setStateAt henter.free, kindOf_blockState hid (ofNat_toNat d)]
      rfl
    refine .inr ⟨henter, ?_⟩
    rw [← hset]
    simp only [Bool.not_true, Bool.false_eq_true, if_false]
    split
    · exact updateLiquidNeighbors_petrified { w with region := _ } p
    · exact .refl p _

-- Nothing at all has happened, or something has changed for good.
def Progress (w w' : TickingRegion) : Prop := w' = w ∨ TransGen LiquidChange w.kinds w'.kinds

theorem Progress.trans {w'' : TickingRegion} (h : Progress w w') (k : Progress w' w'') :
    Progress w w'' := by
  rcases h with rfl | h
  · exact k
  · rcases k with rfl | k
    · exact .inr h
    · exact .inr (h.trans k)

theorem spreads_progress (hid : liquidMaterialId liquid = some m) (hp : w.kinds p = .liquid m d)
    (hn : placeBasin.near q p) (hf : ((liquidFluid m).fed ((liquidFluid m).head d)).isSome)
    (he : (liquidFluid m).thrown d = e) :
    Progress w (w.trySpreadTo q liquid m e) ∧
      (w.trySpreadTo q liquid m e).kinds p = .liquid m d := by
  rcases trySpreadTo_cases w hid (p := q) e with hsame | ⟨henter, hpetrified⟩
  · rw [hsame]
    exact ⟨.inl rfl, hp⟩
  · have hne : p ≠ q := by
      rintro rfl
      have hdry := henter.dry
      rw [hp, depthIn_liquid] at hdry
      cases hdry
    have hchange : LiquidChange w.kinds (Function.update w.kinds q (.liquid m e)) :=
      change_of_fills henter (he ▸ .spreads hn (by rw [hp, depthIn_liquid]) hf)
    refine ⟨.inr (.head' hchange hpetrified.steps), hpetrified.keeps (Function.update_self ..) ?_⟩
    rw [Function.update_of_ne hne, hp]

theorem above_down (hq : w.kinds p.down ≠ .blocked) : placeBasin.above p.down = some p := by
  have h : placeBasin.above p.down = some p.down.up := above_of_free hq
  rwa [p.up_down] at h

theorem petrify_progress {k : LiquidKind} (hc : LiquidChange w.kinds (Function.update w.kinds q k))
    (hp : Petrified q (Function.update w.kinds q k) w'.kinds) : Progress w w' :=
  .inr (.head' hc hp.steps)

theorem stone_progress (hq : w.kinds q ≠ .blocked) :
    Progress w (w.setWithLiquidUpdates q stoneId 0) :=
  petrify_progress (.blocks hq rfl) (setWithLiquidUpdates_petrified w hq kindOf_stone)

theorem falls_val (d : Fin 16) : ((liquidFluid m).falls d).val = if 8 ≤ d.val then d.val else d.val + 8 := by
  change (if 8 ≤ d.val then d else Fin.ofNat 16 (d.val + 8)).val = _
  split
  · rfl
  · exact Nat.mod_eq_of_lt (by omega)

theorem thrown_val (h : (if 8 ≤ d.val then 1 else d.val + dropOff m) < 8) :
    ((liquidFluid m).thrown d).val = if 8 ≤ d.val then 1 else d.val + dropOff m := by
  change (if 8 ≤ d.val then (1 : Fin 16) else Fin.ofNat 16 (d.val + dropOff m)).val = _
  split
  · rfl
  · next hlt =>
    rw [if_neg hlt] at h
    exact Nat.mod_eq_of_lt (by omega)

theorem fed_isSome (h : (if 8 ≤ d.val then 1 else d.val + dropOff m) < 8) :
    ((liquidFluid m).fed ((liquidFluid m).head d)).isSome := by
  have hdrop : dropOff m ≤ 2 := by cases m <;> decide
  have hlt : head d.val + dropOff m < 8 := by
    rw [head]
    split
    · omega
    · next h8 =>
      rwa [if_neg h8] at h
  change (if head d.val + dropOff m < 8 then some (Fin.ofNat 16 (head d.val + dropOff m))
    else none).isSome
  rw [if_pos hlt]
  rfl

theorem spreads_list (hid : liquidMaterialId liquid = some m) {neighbor : Nat}
    (hneighbor : neighbor = if 8 ≤ d.val then 1 else d.val + dropOff m) (hlt : neighbor < 8)
    (directions : List (Fin 4)) (hp : w.kinds p = .liquid m d) :
    Progress w (directions.foldl
      (fun w direction => w.trySpreadTo (p.toward direction) liquid m neighbor) w) := by
  induction directions generalizing w with
  | nil => exact .inl rfl
  | cons direction directions ih =>
    rw [hneighbor] at hlt
    have hone := spreads_progress (w := w) (q := p.toward direction) hid hp
      (p.mem_around_toward direction) (fed_isSome hlt) rfl
    rw [thrown_val hlt, ← hneighbor] at hone
    exact hone.1.trans (ih hone.2)

theorem spread_progress (hid : liquidMaterialId liquid = some m) (hp : w.kinds p = .liquid m d) :
    Progress w (w.spread p liquid m (some d.val)) := by
  rw [spread]
  cases hcan : w.region.canSpreadTo m p.down with
  | true =>
    have henter : Enterable m (w.kinds p.down) := canSpreadTo_iff.mp hcan
    rw [if_pos rfl]
    split
    · exact stone_progress henter.free
    · rw [← falls_val (m := m)]
      rcases trySpreadTo_cases w hid (p := p.down) ((liquidFluid m).falls d) with
        hsame | ⟨-, hpetrified⟩
      · exact .inl hsame
      · refine petrify_progress (change_of_fills henter ?_) hpetrified
        exact .falls (above_down henter.free) (by rw [hp, depthIn_liquid])
  | false =>
    rw [if_neg Bool.false_ne_true]
    dsimp only
    by_cases hflows : d.val = 0 ∨ waterBlocking (w.region.blockIdAt p.down) = true
    · rw [if_pos hflows]
      by_cases hlt : (if 8 ≤ d.val then 1 else d.val + dropOff m) < 8
      · rw [if_pos hlt]
        exact spreads_list hid rfl hlt _ hp
      · rw [if_neg hlt]
        exact .inl rfl
    · rw [if_neg hflows]
      exact .inl rfl

-- A liquid that has dried up may still fall, in one change with the drying.
theorem spread_dried (hid : liquidMaterialId liquid = some m) (hx : x p = .liquid m d) (hd : d ≠ 0)
    (hs : Settles placeBasin (liquidFluid m) (fun q => (x q).depthIn m) p none)
    (hw : w.kinds = Function.update x p .vacant) :
    TransGen LiquidChange x (w.spread p liquid m none).kinds := by
  have hdries : LiquidChange x w.kinds := hw ▸ change_of_settles hx hd hs (by simp)
  have hrest {w' : TickingRegion} (h : Progress w w') : TransGen LiquidChange x w'.kinds := by
    rcases h with rfl | h
    · exact .single hdries
    · exact .head hdries h
  rw [spread]
  split
  · next hcan =>
    have henter : Enterable m (w.kinds p.down) := canSpreadTo_iff.mp hcan
    split
    · exact hrest (stone_progress henter.free)
    · next hnot =>
      rcases trySpreadTo_cases w hid (p := p.down) 7 with hsame | ⟨-, hpetrified⟩
      · exact hrest (.inl hsame)
      · have hvacant : w.kinds p.down = .vacant := by
          refine henter.resolve_right ?_
          rintro ⟨rfl, hwater⟩
          exact hnot ⟨rfl, liquidMaterialAt_eq.mpr hwater⟩
        have habove := above_down henter.free
        have hne : p.down ≠ p := by
          intro he
          have hlevel := placeBasin.level_above habove
          rw [he] at hlevel
          exact lt_irrefl _ hlevel
        have hq : x p.down = .vacant := by
          rw [hw, Function.update_of_ne hne] at hvacant
          exact hvacant
        rw [hw] at hpetrified
        exact .head' (change_of_spills hx hd habove hs hq (by decide)) hpetrified.steps
  · exact .single hdries

-- Nothing that counts has happened: the queue is as it was, and so are the kinds of the cells.
def Idle (w w' : TickingRegion) : Prop :=
  w'.kinds = w.kinds ∧ w'.queue.pending = w.queue.pending

theorem setStatic_kinds (hid : liquidMaterialId (liquid + 1) = some m)
    (hp : w.kinds p = .liquid m d) : (w.setStatic p liquid).kinds = w.kinds :=
  kinds_setStateAt_same (kindOf_relabel hp hid)

variable {random : Structure.MtRandom}

-- What the first half of a tick leaves to the second.
inductive Settled (w : TickingRegion) (p : Place) (m : LiquidMaterial) (d : Fin 16) :
    TickingRegion → Option Nat → Prop
  | still {w' : TickingRegion} (h : Idle w w') : Settled w p m d w' (some d)
  | changed {w' : TickingRegion} {e : Fin 16} (h : TransGen LiquidChange w.kinds w'.kinds)
      (hp : w'.kinds p = .liquid m e) : Settled w p m d w' (some e)
  | dried {w' : TickingRegion} (hd : d ≠ 0)
      (hs : Settles placeBasin (liquidFluid m) (fun q => (w.kinds q).depthIn m) p none)
      (hw : w'.kinds = Function.update w.kinds p .vacant) : Settled w p m d w' none

theorem settle_settled (hid : liquidMaterialId liquid = some m)
    (hstill : liquidMaterialId (liquid + 1) = some m) (hp : w.kinds p = .liquid m d) :
    Settled w p m d (w.settle p liquid m d random).1 (w.settle p liquid m d random).2.1 := by
  have hstatic : Settled w p m d (w.setStatic p liquid) (some d) :=
    .still ⟨setStatic_kinds hstill hp, rfl⟩
  have hfree : w.kinds p ≠ .blocked := by simp [hp]
  rw [settle]
  split
  · next hpos =>
    have hd : d ≠ 0 := by
      rintro rfl
      exact absurd hpos (by decide)
    dsimp only
    split
    · next hne =>
      rcases settledDepth_cases hp with ⟨rfl, hzero⟩ | ⟨v, hv, hs⟩
      · have hsource : w.region.settledDepth .water p = some (0 : Fin 16).val := hzero
        rw [hsource]
        have hpetrified :=
          setWithLiquidUpdates_petrified w hfree (kindOf_blockState hid (ofNat_toNat 0))
        exact .changed (.head' (.source hp hd rfl) hpetrified.steps)
          (hpetrified.self (Function.update_self ..))
      · cases v with
        | none =>
          have hnone : w.region.settledDepth m p = none := hv
          rw [hnone]
          have hpetrified := setWithLiquidUpdates_petrified w hfree kindOf_air
          exact .dried hd hs (hpetrified.calm (by simp))
        | some e =>
          have hsome : w.region.settledDepth m p = some e.val := hv
          rw [hsome] at hne ⊢
          have hchange : LiquidChange w.kinds (Function.update w.kinds p (.liquid m e)) := by
            refine change_of_settles hp hd hs fun he => hne ?_
            cases he
            rfl
          have hpetrified :=
            setWithLiquidUpdates_petrified w hfree (kindOf_blockState hid (ofNat_toNat e))
          exact .changed (.head' hchange hpetrified.steps)
            (hpetrified.self (Function.update_self ..))
    · exact hstatic
  · exact hstatic

-- Fire only takes the place of air, and liquids do not come through it.
theorem trySpreadFire_cases (region : PopulationNeighborhood) (p : Place) (left : Nat)
    (random : Structure.MtRandom) :
    (region.trySpreadFire p left random).1 = region ∨
      ∃ q, region.kinds q = .vacant ∧
        (region.trySpreadFire p left random).1.kinds = Function.update region.kinds q .blocked := by
  induction left generalizing random with
  | zero => exact .inl rfl
  | succ left ih =>
    unfold trySpreadFire
    dsimp only
    split
    · exact ih _
    · split
      · next place hfound =>
        have hair : region.blockIdAt place = airId := by simpa using List.find?_some hfound
        cases hs : region.stateAt place with
        | none => exact .inl (setStateAt_of_none hs)
        | some value =>
          have hvacant : region.kinds place = .vacant := by
            rw [blockIdAt_of_stateAt hs] at hair
            rw [kinds_of_stateAt hs, kindOf, hair]
            have hdry : liquidMaterialId airId = none := by decide
            have hfree : waterBlocking airId = false := by decide
            rw [hdry]
            dsimp only
            rw [if_neg (by simp [hfree])]
          exact .inr ⟨place, hvacant, by rw [kinds_setStateAt (by simp [hvacant]), kindOf_fire]⟩
      · exact ih _

-- A tick changes nothing that counts, or it changes something for good.
def Steps (w w' : TickingRegion) : Prop := Idle w w' ∨ TransGen LiquidChange w.kinds w'.kinds

theorem Settled.spread {settled : TickingRegion} {depth : Option Nat}
    (h : Settled w p m d settled depth) (hid : liquidMaterialId liquid = some m)
    (hp : w.kinds p = .liquid m d) : Steps w (settled.spread p liquid m depth) := by
  cases h with
  | still h =>
    have hsame := h.1
    rcases spread_progress hid (hsame ▸ hp) with hrest | hchange
    · rw [hrest]
      exact .inl h
    · exact .inr (hsame ▸ hchange)
  | changed h he =>
    rcases spread_progress hid he with hrest | hchange
    · rw [hrest]
      exact .inr h
    · exact .inr (h.trans hchange)
  | dried hd hs hw => exact .inr (spread_dried hid hp hd hs hw)

theorem settle_steps (hid : liquidMaterialId liquid = some m)
    (hstill : liquidMaterialId (liquid + 1) = some m) (hp : w.kinds p = .liquid m d)
    {settled : TickingRegion × Option Nat × Structure.MtRandom}
    (h : w.settle p liquid m d random = settled) :
    Steps w (settled.1.spread p liquid m settled.2.1) := by
  rw [← h]
  exact (settle_settled hid hstill hp).spread hid hp

theorem flowingMaterial_some (h : flowingMaterial liquid = some m) :
    liquidMaterialId liquid = some m ∧ liquidMaterialId (liquid + 1) = some m := by
  rw [flowingMaterial] at h
  split at h
  · next hwater =>
    cases h
    rw [hwater]
    decide
  · split at h
    · next hlava =>
      cases h
      rw [hlava]
      decide
    · cases h

-- Before lava ticks it may set something on fire.
theorem fire_cases {fire : PopulationNeighborhood × Structure.MtRandom}
    (h : (if liquid = flowingLava then w.region.trySpreadFire p 10 random else (w.region, random)) =
      fire) : fire.1 = w.region ∨ ∃ q, w.kinds q = .vacant ∧
        fire.1.kinds = Function.update w.kinds q .blocked := by
  split at h
  · rw [← h]
    exact trySpreadFire_cases w.region p 10 random
  · rw [← h]
    exact .inl rfl

theorem Steps.after_fire {burnt : TickingRegion} {q : Place} (hq : w.kinds q = .vacant)
    (hburnt : burnt.kinds = Function.update w.kinds q .blocked) (h : Steps burnt w') :
    Steps w w' := by
  have hfire : LiquidChange w.kinds burnt.kinds := .blocks (by simp [hq]) hburnt
  rcases h with ⟨hkinds, -⟩ | hchange
  · rw [← hkinds] at hfire
    exact .inr (.single hfire)
  · exact .inr (.head hfire hchange)

theorem tickDynamicLiquid_steps (w : TickingRegion) (p : Place) (liquid : UInt16)
    (random : Structure.MtRandom) : Steps w (w.tickDynamicLiquid p liquid random).1 := by
  have hrest : Steps w w := .inl ⟨rfl, rfl⟩
  rw [tickDynamicLiquid]
  split
  · next m current hm hcurrent =>
    obtain ⟨hid, hstill⟩ := flowingMaterial_some hm
    split
    · exact hrest
    · next hsame =>
      have hp : w.kinds p = .liquid m (depthOf current) := by
        rw [kinds, kinds_of_stateAt hcurrent, kindOf, not_not.mp hsame, hid]
      have hdepth : (current &&& 0x0f).toNat = (depthOf current).val := rfl
      rw [hdepth]
      split
      · next region random hfire =>
        split
        · next settled depth random hsettle =>
          rcases fire_cases hfire with hregion | ⟨q, hq, hkinds⟩
          · dsimp only at hregion
            rw [hregion] at hsettle
            have hsteps := settle_steps hid hstill hp hsettle
            exact hsteps
          · have hne : p ≠ q := by
              rintro rfl
              rw [hp] at hq
              cases hq
            have hburnt : ({ w with region := region } : TickingRegion).kinds =
                Function.update w.kinds q .blocked := hkinds
            have hkept : ({ w with region := region } : TickingRegion).kinds p =
                .liquid m (depthOf current) := by rw [hburnt, Function.update_of_ne hne, hp]
            have hsteps := settle_steps hid hstill hkept hsettle
            exact hsteps.after_fire hq hburnt
  · exact hrest

theorem tick_steps (w : TickingRegion) (next : GenerationTick) : Steps w (w.tick next) := by
  rw [tick]
  split
  · exact .inl ⟨rfl, rfl⟩
  · exact tickDynamicLiquid_steps w next.place next.blockId w.queue.random

end TickingRegion

namespace GenerationTickQueue

variable {queue rest : GenerationTickQueue} {next : GenerationTick}

theorem length_swapRemove {index : Nat} {ticks : List GenerationTick} :
    (swapRemove index ticks).length = ticks.length - 1 := by
  rw [swapRemove]
  split
  · next hlast => simp [List.getLast?_eq_none_iff.mp hlast]
  · rw [List.length_dropLast, List.length_set]

theorem takeNext_none (h : queue.takeNext = none) : queue.pending = [] := by
  rw [takeNext] at h
  split at h
  · next hpending => exact hpending
  · cases h

-- Taking a tick leaves one fewer.
theorem takeNext_some (h : queue.takeNext = some (next, rest)) :
    rest.pending.length < queue.pending.length := by
  rw [takeNext] at h
  split at h
  · cases h
  · next first others hpending =>
    cases h
    rw [length_swapRemove, hpending]
    exact Nat.sub_lt (Nat.succ_pos _) Nat.one_pos

end GenerationTickQueue

namespace TickingRegion

variable {w w' : TickingRegion} {next : GenerationTick}

-- What a turn of the loop brings down: what is still to flow, or else what is still to tick.
def drainMeasure (w : TickingRegion) : (Place → LiquidKind) × Nat :=
  (w.kinds, w.queue.pending.length)

def drainLt (w' w : TickingRegion) : Prop :=
  Prod.Lex (TransGen fun y x => LiquidChange x y) (· < ·) w'.drainMeasure w.drainMeasure

theorem drainLt_wellFounded : WellFounded drainLt :=
  InvImage.wf drainMeasure (liquidChange_wellFounded.transGen.prod_lex Nat.lt_wfRel.wf)

theorem drain_step {rest : GenerationTickQueue} (h : w.queue.takeNext = some (next, rest)) :
    drainLt (({ w with queue := rest } : TickingRegion).tick next) w := by
  have hfewer := GenerationTickQueue.takeNext_some h
  rw [drainLt, Prod.lex_def]
  rcases tick_steps { w with queue := rest } next with ⟨hkinds, hpending⟩ | hchange
  · refine .inr ⟨hkinds, ?_⟩
    change List.length _ < _
    rw [hpending]
    exact hfewer
  · exact .inl (transGen_swap.mp hchange)

-- The loop comes to its end with nothing pending, after as many turns as it takes.
theorem drain_ends (w : TickingRegion) : ∃ turns drained, drained.queue.pending = [] ∧
    ∀ fuel, turns ≤ fuel → drain fuel w = some drained := by
  induction w using drainLt_wellFounded.induction with
  | h w ih =>
    cases hnext : w.queue.takeNext with
    | none =>
      refine ⟨0, w, GenerationTickQueue.takeNext_none hnext, fun fuel _ => ?_⟩
      rw [drain.eq_def]
      dsimp only
      rw [hnext]
    | some taken =>
      obtain ⟨next, rest⟩ := taken
      obtain ⟨turns, drained, hempty, hdrain⟩ := ih _ (drain_step hnext)
      refine ⟨turns + 1, drained, hempty, fun fuel hfuel => ?_⟩
      obtain ⟨left, rfl⟩ := Nat.exists_eq_succ_of_ne_zero (show fuel ≠ 0 by omega)
      rw [drain.eq_def]
      dsimp only
      rw [hnext]
      exact hdrain left (by omega)

-- Whatever the neighborhood holds, whatever is pending and whatever the dice say.
theorem drainGenerationTicks_ends (w : TickingRegion) : ∃ turns drained,
    drained.queue.pending = [] ∧
      ∀ fuel, turns ≤ fuel → w.drainGenerationTicks fuel = some drained := by
  obtain ⟨turns, drained, hempty, hdrain⟩ := drain_ends { w with queue := {
    w.queue with currentTick := .ofNat (2 ^ 64 - 1), instaticking := true } }
  refine ⟨turns, { drained with queue := { drained.queue with instaticking := false } }, hempty,
    fun fuel hfuel => ?_⟩
  rw [drainGenerationTicks]
  dsimp only
  rw [hdrain fuel hfuel, Option.map_some]

end TickingRegion

end Cobblestone.World
