import Cobblestone.Structure.VillageBoxes

namespace Cobblestone.Structure

open Lib World

section Counts

variable {drawn weights : List PieceWeight} {pieces : List VillagePiecePlan} {piece : VillagePiecePlan}

def countKind (kind : VillagePieceKind) (pieces : List VillagePiecePlan) : Nat :=
  pieces.countP fun piece => piece.kind = kind

-- What the weights say of the pieces, and no kind more often than drawn.
structure Counted (drawn weights : List PieceWeight) (pieces : List VillagePiecePlan) : Prop where
  kinds : (weights.map (·.kind)).Nodup
  house : ∀ w ∈ weights, ∃ d ∈ drawn, d.kind = w.kind
  most : ∀ w ∈ weights, ∀ d ∈ drawn, d.kind = w.kind → w.maxPlaceCount ≤ d.maxPlaceCount
  count : ∀ w ∈ weights, w.placeCount = countKind w.kind pieces
  bounded : ∀ d ∈ drawn, countKind d.kind pieces ≤ d.maxPlaceCount

theorem countKind_add (kind : VillagePieceKind) : countKind kind (pieces ++ [piece]) =
    countKind kind pieces + if piece.kind = kind then 1 else 0 := by
  rw [countKind, List.countP_append, List.countP_singleton]
  congr 1
  simp

-- A piece that is no house counts for nothing.
theorem Counted.add_other (h : Counted drawn weights pieces)
    (hother : ∀ d ∈ drawn, d.kind ≠ piece.kind) : Counted drawn weights (pieces ++ [piece]) := by
  refine ⟨h.kinds, h.house, h.most, fun w hw => ?_, fun d hd => ?_⟩
  · obtain ⟨d, hd, hkind⟩ := h.house w hw
    have hne : piece.kind ≠ w.kind := fun he => hother d hd (hkind.trans he.symm)
    rw [countKind_add, if_neg hne, h.count w hw]
    rfl
  · rw [countKind_add, if_neg (hother d hd).symm]
    exact h.bounded d hd

theorem Counted.sublist {fewer : List PieceWeight} (h : Counted drawn weights pieces)
    (hsub : fewer.Sublist weights) : Counted drawn fewer pieces where
  kinds := h.kinds.sublist (hsub.map _)
  house w hw := h.house w (hsub.subset hw)
  most w hw := h.most w (hsub.subset hw)
  count w hw := h.count w (hsub.subset hw)
  bounded := h.bounded

theorem Counted.add_house (h : Counted drawn weights pieces) {index : Nat} {w : PieceWeight}
    (hw : weights[index]? = some w) (hvalid : w.isValid = true) (hkind : piece.kind = w.kind) :
    Counted drawn (weights.set index { w with placeCount := w.placeCount + 1 })
      (pieces ++ [piece]) := by
  obtain ⟨hindex, hget⟩ := List.getElem?_eq_some_iff.mp hw
  have hmem : w ∈ weights := hget ▸ List.getElem_mem hindex
  have hroom : w.placeCount < w.maxPlaceCount := by simpa [PieceWeight.isValid] using hvalid
  have hsame : (weights.set index { w with placeCount := w.placeCount + 1 }).map (·.kind) =
      weights.map (·.kind) := by
    rw [List.map_set]
    refine List.ext_getElem? fun i => ?_
    rw [List.getElem?_set]
    split
    · next hi =>
      subst hi
      simp [hget, hindex]
    · rfl
  -- every other kind is counted as before
  have hrest : ∀ v ∈ weights.set index { w with placeCount := w.placeCount + 1 },
      v = { w with placeCount := w.placeCount + 1 } ∨ v ∈ weights ∧ v.kind ≠ w.kind := by
    intro v hv
    obtain ⟨i, hi⟩ := List.mem_iff_getElem?.mp hv
    rw [List.getElem?_set] at hi
    split at hi
    · exact .inl (Option.some.inj hi).symm
    · next hne =>
      refine .inr ⟨List.mem_of_getElem? hi, fun heq => hne ?_⟩
      obtain ⟨hlt, hgot⟩ := List.getElem?_eq_some_iff.mp hi
      have hnodup := List.nodup_iff_injective_getElem.mp h.kinds
      have hfin := @hnodup ⟨index, by simpa using hindex⟩ ⟨i, by simpa using hlt⟩
        (by simp [hget, hgot, heq])
      simpa using hfin
  refine ⟨hsame ▸ h.kinds, fun v hv => ?_, fun v hv => ?_, fun v hv => ?_, fun d hd => ?_⟩
  · rcases hrest v hv with rfl | ⟨hv, -⟩
    · exact h.house w hmem
    · exact h.house v hv
  · rcases hrest v hv with rfl | ⟨hv, -⟩
    · exact h.most w hmem
    · exact h.most v hv
  · rcases hrest v hv with rfl | ⟨hv, hne⟩
    · rw [countKind_add, if_pos hkind, ← h.count w hmem]
    · rw [countKind_add, if_neg (hkind ▸ hne.symm), h.count v hv]
      rfl
  · rw [countKind_add]
    split
    · next heq =>
      have hmost := h.most w hmem d hd (heq.symm.trans hkind)
      rw [← heq, hkind, ← h.count w hmem]
      omega
    · exact h.bounded d hd

end Counts

-- What holds of the planner at all times, the village starting at those bounds.
structure Planner.Sound (s : StructureBounds) (drawn : List PieceWeight) (p : Planner) : Prop where
  start : p.startBounds = s
  pieces : ∃ first rest, p.pieces = first :: rest ∧ first.kind = .start ∧ first.bounds = s ∧
    ∀ piece ∈ rest, Stands s piece
  apart : p.pieces.Pairwise fun a b => a.bounds.intersects b.bounds = false
  roads : ∀ i ∈ p.pendingRoads, i < p.pieces.length
  houses : ∀ i ∈ p.pendingHouses, i < p.pieces.length
  counted : Counted drawn p.weights p.pieces

-- Nothing is drawn a number for but houses.
def HousesOnly (drawn : List PieceWeight) : Prop :=
  ∀ d ∈ drawn, d.kind ≠ .start ∧ d.kind ≠ .lightPost ∧ d.kind ≠ .straightRoad

namespace Planner

variable {s : StructureBounds} {drawn : List PieceWeight} {p q r : Planner} {site : Site}
  {piece : VillagePiecePlan} {kind : VillagePieceKind}

theorem Sound.redraw (h : Sound s drawn p) (random : MtRandom) :
    Sound s drawn { p with random := random } :=
  ⟨h.start, h.pieces, h.apart, h.roads, h.houses, h.counted⟩

theorem apart_of_clear {bounds : StructureBounds} (h : p.collides bounds = false) :
    ∀ other ∈ p.pieces, other.bounds.intersects bounds = false := by
  simpa [collides] using h

-- A piece that stands clear of the others may join them.
theorem Sound.add (h : Sound s drawn p) (hstart : q.startBounds = p.startBounds)
    (hpieces : q.pieces = p.pieces ++ [piece]) (hstands : Stands s piece)
    (hclear : p.collides piece.bounds = false)
    (hroads : ∀ i ∈ q.pendingRoads, i ∈ p.pendingRoads ∨ i = p.pieces.length)
    (hhouses : ∀ i ∈ q.pendingHouses, i ∈ p.pendingHouses ∨ i = p.pieces.length)
    (hcounted : Counted drawn q.weights q.pieces) : Sound s drawn q := by
  have hlength : q.pieces.length = p.pieces.length + 1 := by rw [hpieces, List.length_append]; rfl
  refine ⟨hstart.trans h.start, ?_, ?_, fun i hi => ?_, fun i hi => ?_, hcounted⟩
  · obtain ⟨first, rest, hfirst, hkind, hbounds, hrest⟩ := h.pieces
    refine ⟨first, rest ++ [piece], by rw [hpieces, hfirst, List.cons_append], hkind, hbounds, ?_⟩
    intro other hother
    rcases List.mem_append.mp hother with hother | hother
    · exact hrest other hother
    · exact List.mem_singleton.mp hother ▸ hstands
  · rw [hpieces]
    refine List.pairwise_append.mpr
      ⟨h.apart, List.pairwise_singleton .., fun other hother new hnew => ?_⟩
    exact List.mem_singleton.mp hnew ▸ apart_of_clear hclear other hother
  · rcases hroads i hi with hi | rfl
    · have := h.roads i hi
      omega
    · omega
  · rcases hhouses i hi with hi | rfl
    · have := h.houses i hi
      omega
    · omega

-- What comes of an attempt to place a piece.
inductive Outcome (s : StructureBounds) (drawn : List PieceWeight) (p : Planner) :
    Option Nat × Planner → Prop
  | nowhere {q : Planner} (sound : Sound s drawn q) (pieces : q.pieces = p.pieces)
      (roads : q.pendingRoads = p.pendingRoads) (houses : q.pendingHouses = p.pendingHouses) :
      Outcome s drawn p (none, q)
  | somewhere {q : Planner} {piece : VillagePiecePlan} (sound : Sound s drawn q)
      (pieces : q.pieces = p.pieces ++ [piece]) (stands : Stands s piece)
      (roads : q.pendingRoads = p.pendingRoads) (houses : q.pendingHouses = p.pendingHouses) :
      Outcome s drawn p (some p.pieces.length, q)

theorem dimensions_some {w h d : Int32} (hdim : kind.dimensions = some (w, h, d)) :
    (1 ≤ w.toInt ∧ w.toInt ≤ 35) ∧ (1 ≤ h.toInt ∧ h.toInt ≤ 35) ∧ (1 ≤ d.toInt ∧ d.toInt ≤ 35) ∧
      kind ≠ .straightRoad := by
  cases kind <;> cases hdim <;> decide

-- A leaf collides, or else it stands where it is asked for.
theorem createLeaf_cases (kind : VillagePieceKind) (hs : Roomy s) (h : Sound s drawn p)
    (hn : Near s site) (hfar : ¬ p.tooFar site) : p.createLeaf site kind = (none, p) ∨
      ∃ piece random, piece.kind = kind ∧ Stands s piece ∧ p.collides piece.bounds = false ∧
        p.createLeaf site kind =
          (some p.pieces.length, { p with pieces := p.pieces ++ [piece], random := random }) := by
  rw [createLeaf]
  split
  · exact .inl rfl
  · next w height d hdim =>
    obtain ⟨hw, hh, hd, hkind⟩ := dimensions_some hdim
    dsimp only
    split
    · exact .inl rfl
    · next hclear =>
      rw [← h.start] at hs hn ⊢
      exact .inr ⟨_, _, rfl, stands_of_clear _ _ _ _ hs hn hfar hw hh hd fun he => (hkind he).elim,
        Bool.eq_false_iff.mpr hclear, rfl⟩

theorem placed_sound (h : Sound s drawn p) {index : Nat} {w : PieceWeight} {random : MtRandom}
    (hw : p.weights[index]? = some w) (hplace : w.doPlace site.depth = true)
    (hkind : piece.kind = w.kind) (hstands : Stands s piece)
    (hclear : p.collides piece.bounds = false) : Outcome s drawn p (some p.pieces.length,
      { p with pieces := p.pieces ++ [piece], random := random }.placed index w) := by
  rw [PieceWeight.doPlace, Bool.and_eq_true] at hplace
  have hcounted := h.counted.add_house hw hplace.1 hkind
  refine .somewhere ?_ rfl hstands rfl rfl
  refine h.add rfl rfl hstands hclear (fun i hi => .inl hi) (fun i hi => .inl hi) ?_
  rw [placed]
  dsimp only
  split
  · exact hcounted
  · exact hcounted.sublist (List.eraseIdx_sublist ..)

section Houses

variable (hs : Roomy s) (hd : HousesOnly drawn) (h : Sound s drawn p) (hn : Near s site)
  (hfar : ¬ p.tooFar site)

include hs hd h hn hfar

theorem createLeaf_lightPost : Outcome s drawn p (p.createLeaf site .lightPost) := by
  rcases createLeaf_cases .lightPost hs h hn hfar with
    hnone | ⟨piece, random, hkind, hstands, hclear, hsome⟩
  · rw [hnone]
    exact .nowhere h rfl rfl rfl
  · rw [hsome]
    refine .somewhere ?_ rfl hstands rfl rfl
    refine h.add rfl rfl hstands hclear (fun i hi => .inl hi) (fun i hi => .inl hi) ?_
    exact h.counted.add_other fun d hmem => hkind ▸ (hd d hmem).2.1

omit hd in
theorem tryKinds_cases {rest : List PieceWeight} {index : Nat} {selection : Int}
    (hrest : rest = p.weights.drop index) : p.tryKinds site selection index rest = none ∨
      ∃ i q, p.tryKinds site selection index rest = some (i, q) ∧ Outcome s drawn p (some i, q) := by
  induction rest generalizing index selection with
  | nil => exact .inl rfl
  | cons w rest ih =>
    have hw : p.weights[index]? = some w := by
      rw [← List.head?_drop, ← hrest]
      rfl
    have hnext : rest = p.weights.drop (index + 1) := by
      rw [← List.tail_drop, ← hrest]
      rfl
    rw [tryKinds]
    split
    · split
      · exact .inl rfl
      · next hgo =>
        rw [not_or] at hgo
        rcases createLeaf_cases w.kind hs h hn hfar with
          hnone | ⟨piece, random, hkind, hstands, hclear, hsome⟩
        · rw [hnone]
          exact ih hnext
        · rw [hsome]
          exact .inr ⟨_, _, rfl, placed_sound h hw (by simpa using hgo.1) hkind hstands
            hclear⟩
    · exact ih hnext

omit hs hd h hn hfar in
theorem Outcome.redrawn {random : MtRandom} {found : Option Nat × Planner}
    (h : Outcome s drawn { p with random := random } found) : Outcome s drawn p found := by
  cases h with
  | nowhere sound pieces roads houses => exact .nowhere sound pieces roads houses
  | somewhere sound pieces stands roads houses => exact .somewhere sound pieces stands roads houses

theorem attempts_outcome (total : UInt32) (left : Nat) :
    Outcome s drawn p (p.attempts site total left) := by
  induction left generalizing p with
  | zero => exact createLeaf_lightPost hs hd h hn hfar
  | succ left ih =>
    have hdrawn := h.redraw (p.random.nextInt total).2
    rw [attempts, nextInt]
    dsimp only
    rcases tryKinds_cases hs hdrawn hn hfar (List.drop_zero (l := p.weights)).symm with
      hnone | ⟨i, q, hsome, houtcome⟩
    · rw [hnone]
      exact (ih hdrawn hfar).redrawn
    · rw [hsome]
      exact houtcome.redrawn

theorem generatePieceFromSmallDoor_outcome :
    Outcome s drawn p (p.generatePieceFromSmallDoor site) := by
  rw [generatePieceFromSmallDoor]
  split
  · exact .nowhere h rfl rfl rfl
  · exact attempts_outcome hs hd h hn hfar _ _

end Houses

def pending (p : Planner) : Nat := p.pendingRoads.length + p.pendingHouses.length

-- What a stretch of the planning does: it only adds pieces, and no more to do than pieces.
structure Leads (s : StructureBounds) (drawn : List PieceWeight) (p q : Planner) : Prop where
  sound : Sound s drawn q
  pieces : p.pieces <+: q.pieces
  pending : q.pending + p.pieces.length ≤ p.pending + q.pieces.length

theorem Leads.refl (h : Sound s drawn p) : Leads s drawn p p := ⟨h, List.prefix_rfl, le_rfl⟩

theorem Leads.trans (h : Leads s drawn p q) (k : Leads s drawn q r) : Leads s drawn p r where
  sound := k.sound
  pieces := h.pieces.trans k.pieces
  pending := by
    have := h.pending
    have := k.pending
    omega

theorem Leads.redraw (h : Sound s drawn p) (random : MtRandom) :
    Leads s drawn p { p with random := random } := ⟨h.redraw random, List.prefix_rfl, le_rfl⟩

theorem roadBounds_some {sections : Nat} {bounds : StructureBounds} (hmost : sections ≤ 5)
    (hb : p.roadBounds site sections = some bounds) : ∃ length : Int32,
      bounds = .orientBox site.x site.y site.z 0 0 0 3 3 length site.orientation ∧
        (7 ≤ length.toInt ∧ length.toInt ≤ 35) ∧ p.collides bounds = false := by
  induction sections with
  | zero => cases hb
  | succ sections ih =>
    rw [roadBounds] at hb
    split at hb
    · exact ih (by omega) hb
    · next hclear =>
      cases hb
      refine ⟨_, rfl, ?_, Bool.eq_false_iff.mpr hclear⟩
      have hsections : sections < 5 := by omega
      clear hmost ih hclear
      revert sections
      decide

theorem nextInclusive_le (random : MtRandom) {least most : Nat} (h : least ≤ most)
    (hmost : most < 4294967295) : (random.nextInclusive least most).1 ≤ most := by
  rw [MtRandom.nextInclusive]
  split
  · exact h
  · next hlt =>
    have hbound : (UInt32.ofNat (most - least + 1)).toNat = most - least + 1 :=
      Nat.mod_eq_of_lt (by omega)
    have hne : UInt32.ofNat (most - least + 1) ≠ 0 := by
      intro h0
      rw [h0] at hbound
      change 0 = _ at hbound
      omega
    have hdraw := nextInt_lt random hne
    dsimp only
    omega

section Places

variable (hs : Roomy s) (hd : HousesOnly drawn) (h : Sound s drawn p) (hn : Near s site)

include hs hd h hn

theorem generatePiece_leads : Leads s drawn p (p.generatePiece site).2 ∧
    ∀ i, (p.generatePiece site).1 = some i →
      ∃ house, (p.generatePiece site).2.pieces[i]? = some house ∧ Stands s house := by
  rw [generatePiece]
  split
  · exact ⟨.refl h, fun i hi => nomatch hi⟩
  · next hgo =>
    rw [not_or] at hgo
    have houtcome : Outcome s drawn p
        (p.generatePieceFromSmallDoor { site with depth := site.depth + 1 }) :=
      generatePieceFromSmallDoor_outcome hs hd h ⟨hn.x, hn.z, hn.y⟩ hgo.2
    generalize p.generatePieceFromSmallDoor { site with depth := site.depth + 1 } = found at *
    cases houtcome with
    | nowhere sound pieces roads houses =>
      refine ⟨⟨sound, by rw [pieces], ?_⟩, fun i hi => nomatch hi⟩
      rw [pending, pending, pieces, roads, houses]
    | @somewhere q piece sound pieces stands roads houses =>
      have hlength : q.pieces.length = p.pieces.length + 1 := by
        rw [pieces, List.length_append]
        rfl
      refine ⟨⟨⟨sound.start, sound.pieces, sound.apart, sound.roads, fun i hi => ?_, sound.counted⟩,
        ⟨[piece], pieces.symm⟩, ?_⟩, fun i hi => ?_⟩
      · rcases List.mem_append.mp hi with hi | hi
        · exact sound.houses i hi
        · rw [List.mem_singleton.mp hi, hlength]
          exact Nat.lt_succ_self _
      · simp only [pending, roads, houses, List.length_append, List.length_singleton, hlength]
        omega
      · cases hi
        exact ⟨piece, by simp [pieces], stands⟩

theorem generateRoad_leads : Leads s drawn p (p.generateRoad site).2 := by
  rw [generateRoad]
  split
  · exact .refl h
  · next hgo =>
    rw [not_or] at hgo
    have hsections : (p.random.nextInclusive 3 5).1 ≤ 5 :=
      nextInclusive_le p.random (by decide) (by decide)
    dsimp only
    split
    · exact .redraw h _
    · next bounds hb =>
      split
      · exact .redraw h _
      · obtain ⟨length, hbounds, hlength, hclear⟩ := roadBounds_some hsections hb
        have hfar := hgo.2
        rw [tooFar, not_or] at hfar
        have hstart := h.start
        rw [← hstart] at hs hn
        have hroad := StructureBounds.toInt_roadLength
          (room_of_within (within_of_not_far hn.x hfar.1) hs.x)
          (room_of_within (within_of_not_far hn.z hfar.2) hs.z) rfl hlength hbounds
        have hstands := stands_of_clear (w := 3) (h := 3) (d := length) .straightRoad site.depth (-1)
          false hs hn hgo.2 (by decide) (by decide) (by omega) fun _ => ⟨_, rfl, hroad⟩
        rw [← hbounds, hstart] at hstands
        refine ⟨h.add rfl rfl hstands hclear (fun i hi => ?_) (fun i hi => .inl hi) ?_,
          ⟨[_], rfl⟩, ?_⟩
        · rcases List.mem_append.mp hi with hi | hi
          · exact .inl hi
          · exact .inr (List.mem_singleton.mp hi)
        · exact h.counted.add_other fun d hmem => (hd d hmem).2.2
        · simp only [pending, List.length_append, List.length_singleton]
          omega

end Places

theorem nextInt_toInt (random : MtRandom) {bound : UInt32} (h : bound ≠ 0)
    (hbound : bound.toNat ≤ 2147483648) : 0 ≤ (random.nextInt bound).1.toInt32.toInt ∧
      (random.nextInt bound).1.toInt32.toInt < bound.toNat := by
  have hlt := nextInt_lt random h
  rw [toInt_toInt32 (by omega)]
  omega

-- The gap between one house and the next.
theorem gap_toInt (random : MtRandom) : 2 ≤ (2 + (random.nextInt 5).1.toInt32).toInt ∧
    (2 + (random.nextInt 5).1.toInt32).toInt ≤ 6 := by
  have hdraw := nextInt_toInt random (show (5 : UInt32) ≠ 0 by decide) (by decide)
  have hfive : (5 : UInt32).toNat = 5 := rfl
  have htwo := two_toInt
  rw [toInt_add_eq (by omega) (by omega)]
  omega

section Runs

variable (hs : Roomy s) (hd : HousesOnly drawn) {length : Int32}

include hs hd

-- Every turn goes at least two blocks along the road.
theorem lineHouses_ends {side : Int32 → Site} (hlength : 1 ≤ length.toInt ∧ length.toInt ≤ 35)
    (hside : ∀ offset : Int32, 0 ≤ offset.toInt → offset.toInt < length.toInt - 8 →
      Near s (side offset)) (n : Nat) (offset : Int32) (hasHouses : Bool) (h : Sound s drawn p)
    (hoffset : 0 ≤ offset.toInt) (hn : length.toInt - 8 ≤ offset.toInt + n) :
    ∃ r, Leads s drawn p r.2 ∧
      ∀ turns, n ≤ turns → lineHouses side length turns offset hasHouses p = some r := by
  have height : (8 : Int32).toInt = 8 := rfl
  have hshort : (length - 8).toInt = length.toInt - 8 := toInt_sub_eq (by omega) (by omega)
  induction n generalizing p offset hasHouses with
  | zero =>
    have hend : ¬ offset < length - 8 := by
      rw [Int32.lt_iff_toInt_lt, hshort]
      omega
    refine ⟨(hasHouses, p), .refl h, fun turns _ => ?_⟩
    rw [lineHouses.eq_def]
    dsimp only
    rw [if_neg hend]
  | succ n ih =>
    by_cases hgo : offset < length - 8
    · have hlt : offset.toInt < length.toInt - 8 := by
        rwa [Int32.lt_iff_toInt_lt, hshort] at hgo
      obtain ⟨hleads, hhouse⟩ := generatePiece_leads hs hd h (hside offset hoffset hlt)
      cases hpiece : p.generatePiece (side offset) with
      | mk found q =>
        rw [hpiece] at hleads hhouse
        have hdrawn := Leads.redraw hleads.sound (q.random.nextInt 5).2
        obtain ⟨hgapl, hgapu⟩ := gap_toInt q.random
        cases found with
        | none =>
          have hnext : (offset + (2 + (q.random.nextInt 5).1.toInt32)).toInt =
              offset.toInt + (2 + (q.random.nextInt 5).1.toInt32).toInt :=
            toInt_add_eq (by omega) (by omega)
          obtain ⟨r, hr, hrun⟩ := ih (offset + (2 + (q.random.nextInt 5).1.toInt32)) hasHouses
            hdrawn.sound (by omega) (by omega)
          refine ⟨r, hleads.trans (hdrawn.trans hr), fun turns hturns => ?_⟩
          obtain ⟨left, rfl⟩ := Nat.exists_eq_succ_of_ne_zero (show turns ≠ 0 by omega)
          rw [lineHouses.eq_def]
          dsimp only
          rw [if_pos hgo, hpiece]
          dsimp only
          exact hrun left (by omega)
        | some i =>
          obtain ⟨house, hi, hstands⟩ := hhouse i rfl
          obtain ⟨hspanl, hspanu⟩ := hstands.span
          have hpast : (offset + max house.bounds.xSpan house.bounds.zSpan).toInt =
              offset.toInt + (max house.bounds.xSpan house.bounds.zSpan).toInt :=
            toInt_add_eq (by omega) (by omega)
          have hnext : (offset + max house.bounds.xSpan house.bounds.zSpan +
              (2 + (q.random.nextInt 5).1.toInt32)).toInt =
              offset.toInt + (max house.bounds.xSpan house.bounds.zSpan).toInt +
                (2 + (q.random.nextInt 5).1.toInt32).toInt := by
            rw [toInt_add_eq (by omega) (by omega), hpast]
          obtain ⟨r, hr, hrun⟩ := ih (offset + max house.bounds.xSpan house.bounds.zSpan +
            (2 + (q.random.nextInt 5).1.toInt32)) true hdrawn.sound (by omega) (by omega)
          refine ⟨r, hleads.trans (hdrawn.trans hr), fun turns hturns => ?_⟩
          obtain ⟨left, rfl⟩ := Nat.exists_eq_succ_of_ne_zero (show turns ≠ 0 by omega)
          rw [lineHouses.eq_def]
          dsimp only
          rw [if_pos hgo, hpiece]
          dsimp only
          rw [hi]
          dsimp only
          exact hrun left (by omega)
    · refine ⟨(hasHouses, p), .refl h, fun turns _ => ?_⟩
      rw [lineHouses.eq_def]
      dsimp only
      rw [if_neg hgo]

theorem branchOff_leads (h : Sound s drawn p) (hn : Near s site) (hasHouses : Bool) :
    Leads s drawn p (p.branchOff site hasHouses) := by
  rw [branchOff]
  split
  · have hdrawn := Leads.redraw h (p.random.nextInt 3).2
    rw [nextInt]
    dsimp only
    split
    · exact hdrawn.trans (generateRoad_leads hs hd hdrawn.sound hn)
    · exact hdrawn
  · exact .refl h

theorem addRoadChildren_ends (h : Sound s drawn p) {road : VillagePiecePlan}
    (hroad : Stands s road) (hkind : road.kind = .straightRoad) :
    ∃ q, Leads s drawn p q ∧ ∀ turns, 35 ≤ turns → p.addRoadChildren turns road = some q := by
  obtain ⟨length, hextra, hlength⟩ := hroad.road hkind
  have hside (offset : Int32) (hl : 0 ≤ offset.toInt) (hu : offset.toInt < length.toInt - 8) :=
    near_house hs hroad hkind hextra hl hu
  have hbranch := near_branch hs hroad
  have hlong : 1 ≤ length.toInt ∧ length.toInt ≤ 35 := by
    have hx := hroad.x_le.trans hroad.le_x
    have hz := hroad.z_le.trans hroad.le_z
    have hwide := hroad.wide
    have hdeep := hroad.deep
    split at hlength <;> omega
  have hdrawn := Leads.redraw h (p.random.nextInt 5).2
  have hleft := nextInt_toInt p.random (show (5 : UInt32) ≠ 0 by decide) (by decide)
  obtain ⟨⟨hasLeft, q⟩, hq, hrunl⟩ := lineHouses_ends hs hd hlong (fun o hl hu => (hside o hl hu).1) 35
    _ false hdrawn.sound hleft.1 (by omega)
  have hdrawn' := Leads.redraw hq.sound (q.random.nextInt 5).2
  have hright := nextInt_toInt q.random (show (5 : UInt32) ≠ 0 by decide) (by decide)
  obtain ⟨⟨hasHouses, r⟩, hr, hrunr⟩ := lineHouses_ends hs hd hlong (fun o hl hu => (hside o hl hu).2)
    35 _ hasLeft hdrawn'.sound hright.1 (by omega)
  have hl := branchOff_leads hs hd hr.sound hbranch.1 hasHouses
  have hb := branchOff_leads hs hd hl.sound hbranch.2 hasHouses
  refine ⟨_, hdrawn.trans (hq.trans (hdrawn'.trans (hr.trans (hl.trans hb)))), fun turns hturns => ?_⟩
  rw [addRoadChildren, hextra]
  dsimp only [nextInt]
  rw [hrunl turns hturns]
  dsimp only
  rw [hrunr turns hturns]

theorem addChildren_ends (h : Sound s drawn p) {index : Nat} (hi : index < p.pieces.length) :
    ∃ q, Leads s drawn p q ∧ ∀ turns, 35 ≤ turns → p.addChildren turns index = some q := by
  have hget := List.getElem?_eq_getElem hi
  by_cases hkind : p.pieces[index].kind = .straightRoad
  · have hstands : Stands s p.pieces[index] := by
      obtain ⟨first, rest, hfirst, hstart, -, hrest⟩ := h.pieces
      have hmem := List.getElem_mem hi
      simp only [hfirst] at hmem hkind ⊢
      rcases List.mem_cons.mp hmem with heq | hmem
      · rw [heq, hstart] at hkind
        cases hkind
      · exact hrest _ hmem
    obtain ⟨q, hq, hrun⟩ := addRoadChildren_ends hs hd h hstands hkind
    refine ⟨q, hq, fun turns hturns => ?_⟩
    rw [addChildren, hget]
    dsimp only
    rw [if_pos hkind, hrun turns hturns]
  · refine ⟨p, .refl h, fun turns _ => ?_⟩
    rw [addChildren, hget]
    dsimp only
    rw [if_neg hkind]

end Runs

theorem Sound.length_le (h : Sound s drawn p) : p.pieces.length ≤ feetLimit + 1 := by
  obtain ⟨first, rest, hfirst, -, -, hrest⟩ := h.pieces
  have hapart := h.apart
  rw [hfirst] at hapart ⊢
  exact Nat.succ_le_succ (length_le_of_stands hrest (List.pairwise_cons.mp hapart).2)

-- A draw among some things is the place of one of them.
theorem draw_lt (random : MtRandom) {things : List Nat} (hne : things ≠ [])
    (hfew : things.length < 4294967296) :
    (random.nextInt (.ofNat things.length)).1.toNat < things.length := by
  have hval : (UInt32.ofNat things.length).toNat = things.length := Nat.mod_eq_of_lt hfew
  have hpos := List.length_pos_iff.mpr hne
  have hne : UInt32.ofNat things.length ≠ 0 := by
    intro h0
    rw [h0] at hval
    change 0 = _ at hval
    omega
  have hdraw := nextInt_lt random hne
  rwa [hval] at hdraw

-- One piece is taken to be looked after, and it is there.
theorem takePending_some (h : Sound s drawn p) (hfew : p.pending ≤ p.pieces.length)
    (hne : ¬ (p.pendingRoads.isEmpty && p.pendingHouses.isEmpty) = true) :
    ∃ index q, p.takePending = some (index, q) ∧ Sound s drawn q ∧ index < q.pieces.length ∧
      q.pieces = p.pieces ∧ q.pending + 1 = p.pending := by
  have hlimit := h.length_le
  rw [pending] at hfew
  have hsquare : feetLimit = 50625 := rfl
  rw [takePending]
  cases hroads : p.pendingRoads.isEmpty with
  | true =>
    have hhouses : p.pendingHouses ≠ [] := by
      rintro heq
      simp [hroads, heq] at hne
    have hlt := draw_lt p.random hhouses (by omega)
    rw [if_pos rfl]
    dsimp only [nextInt]
    rw [List.getElem?_eq_getElem hlt]
    refine ⟨_, _, rfl, ⟨h.start, h.pieces, h.apart, h.roads, fun i hi => ?_, h.counted⟩, ?_, rfl, ?_⟩
    · exact h.houses i (List.mem_of_mem_eraseIdx hi)
    · exact h.houses _ (List.getElem_mem hlt)
    · simp only [pending, List.length_eraseIdx, hlt, if_true]
      omega
  | false =>
    have hnonempty : p.pendingRoads ≠ [] := by
      rintro heq
      simp [heq] at hroads
    have hlt := draw_lt p.random hnonempty (by omega)
    rw [if_neg Bool.false_ne_true]
    dsimp only [nextInt]
    rw [List.getElem?_eq_getElem hlt]
    refine ⟨_, _, rfl, ⟨h.start, h.pieces, h.apart, fun i hi => ?_, h.houses, h.counted⟩, ?_, rfl, ?_⟩
    · exact h.roads i (List.mem_of_mem_eraseIdx hi)
    · exact h.roads _ (List.getElem_mem hlt)
    · simp only [pending, List.length_eraseIdx, hlt, if_true]
      omega

-- What is left to do goes down with every turn, as each new piece takes one of the feet there are.
theorem addPending_ends (hs : Roomy s) (hd : HousesOnly drawn) (n : Nat) (h : Sound s drawn p)
    (hfew : p.pending ≤ p.pieces.length)
    (hn : 2 * (feetLimit + 1 - p.pieces.length) + p.pending ≤ n) : ∃ q, Sound s drawn q ∧
      ∀ turns fuel, 35 ≤ turns → n ≤ fuel → addPending turns fuel p = some q := by
  induction n generalizing p with
  | zero =>
    refine ⟨p, h, fun turns fuel _ _ => ?_⟩
    have hroads : p.pendingRoads = [] := List.eq_nil_of_length_eq_zero (by
      rw [pending] at hn
      omega)
    have hhouses : p.pendingHouses = [] := List.eq_nil_of_length_eq_zero (by
      rw [pending] at hn
      omega)
    rw [addPending.eq_def]
    dsimp only
    rw [hroads, hhouses]
    rfl
  | succ n ih =>
    cases hdone : p.pendingRoads.isEmpty && p.pendingHouses.isEmpty with
    | true =>
      refine ⟨p, h, fun turns fuel _ _ => ?_⟩
      rw [addPending.eq_def]
      dsimp only
      rw [hdone, if_pos rfl]
    | false =>
      obtain ⟨index, q, htake, hq, hindex, hpieces, hpending⟩ :=
        takePending_some h hfew (by simp [hdone])
      obtain ⟨r, hr, hchildren⟩ := addChildren_ends hs hd hq hindex
      have hlimit := hr.sound.length_le
      have hmore := hr.pieces.length_le
      have hdo := hr.pending
      rw [hpieces] at hmore hdo
      obtain ⟨drained, hdrained, hrun⟩ := ih hr.sound (by omega) (by omega)
      refine ⟨drained, hdrained, fun turns fuel hturns hfuel => ?_⟩
      obtain ⟨left, rfl⟩ := Nat.exists_eq_succ_of_ne_zero (show fuel ≠ 0 by omega)
      rw [addPending.eq_def]
      dsimp only
      rw [hdone, if_neg Bool.false_ne_true, htake]
      change (q.addChildren turns index >>= fun p => addPending turns left p) = _
      rw [hchildren turns hturns]
      exact hrun turns left hturns (by omega)

end Planner

section Starts

variable {kinds : List (VillagePieceKind × Int × Nat × Nat)} {random : MtRandom}
  {source : ChunkCoord}

theorem drawWeights_kinds : (drawWeights kinds random).1.map (·.kind) = kinds.map (·.1) := by
  induction kinds generalizing random with
  | nil => rfl
  | cons entry kinds ih =>
    obtain ⟨kind, weight, least, most⟩ := entry
    rw [drawWeights]
    simp [ih]

theorem drawWeights_fresh : ∀ w ∈ (drawWeights kinds random).1, w.placeCount = 0 := by
  induction kinds generalizing random with
  | nil => exact fun w hw => nomatch hw
  | cons entry kinds ih =>
    obtain ⟨kind, weight, least, most⟩ := entry
    rw [drawWeights]
    intro w hw
    rcases List.mem_cons.mp hw with rfl | hw
    · rfl
    · exact ih w hw

theorem housesOnly_drawWeights : HousesOnly (drawWeights houseKinds random).1 := by
  intro d hd
  have hkind : d.kind ∈ houseKinds.map (·.1) := by
    have hmem : d.kind ∈ (drawWeights houseKinds random).1.map (·.kind) := List.mem_map_of_mem hd
    rwa [drawWeights_kinds] at hmem
  revert hkind
  generalize d.kind = kind
  revert kind
  decide

theorem counted_new {piece : VillagePiecePlan} (hstart : piece.kind = .start) :
    Counted (drawWeights houseKinds random).1
      ((drawWeights houseKinds random).1.filter fun w => w.maxPlaceCount != 0) [piece] := by
  have hnone : ∀ d ∈ (drawWeights houseKinds random).1, countKind d.kind [piece] = 0 := by
    intro d hd
    have hne := (housesOnly_drawWeights d hd).1
    have hcount : countKind d.kind ([] ++ [piece]) = _ := countKind_add d.kind
    rwa [hstart, if_neg hne.symm] at hcount
  have hnodup : ((drawWeights houseKinds random).1.map (·.kind)).Nodup := by
    rw [drawWeights_kinds]
    decide
  refine Counted.sublist ⟨hnodup, fun w hw => ⟨w, hw, rfl⟩, fun w hw d hd hkind => ?_,
    fun w hw => ?_, fun d hd => ?_⟩ List.filter_sublist
  · rw [List.inj_on_of_nodup_map hnodup hd hw hkind]
  · rw [hnone w hw, drawWeights_fresh w hw]
  · rw [hnone d hd]
    exact Nat.zero_le _

-- No coordinate that the planner computes from that chunk leaves the range of its words.
def FarFromLimits (source : ChunkCoord) : Prop :=
  (-2147483648 + 160 ≤ source.x.toInt * 16 ∧ source.x.toInt * 16 ≤ 2147483648 - 160) ∧
    (-2147483648 + 160 ≤ source.z.toInt * 16 ∧ source.z.toInt * 16 ≤ 2147483648 - 160)

theorem toInt_origin {c : Int32} (h : -2147483648 + 160 ≤ c.toInt * 16 ∧
    c.toInt * 16 ≤ 2147483648 - 160) : (c * 16 + 2).toInt = c.toInt * 16 + 2 := by
  have hsixteen : (16 : Int32).toInt = 16 := rfl
  have htwo := two_toInt
  have hmul : (c * 16).toInt = c.toInt * 16 := by
    rw [Int32.toInt_mul, hsixteen, Int.bmod_eq_of_le] <;> omega
  rw [toInt_add_eq (by omega) (by omega), hmul, htwo]

theorem FarFromLimits.roomy (h : FarFromLimits source) : Roomy (villageStart source) := by
  obtain ⟨hx, hz⟩ := h
  have hx0 : (villageStart source).x0.toInt = source.x.toInt * 16 + 2 := toInt_origin hx
  have hz0 : (villageStart source).z0.toInt = source.z.toInt * 16 + 2 := toInt_origin hz
  constructor <;> omega

theorem near_startSites (h : FarFromLimits source) :
    ∀ site ∈ Planner.startSites (villageStart source), Near (villageStart source) site := by
  have hs := h.roomy
  obtain ⟨hx, hz⟩ := h
  have hone := one_toInt
  have hfive : (5 : Int32).toInt = 5 := rfl
  have hx0 : (villageStart source).x0.toInt = source.x.toInt * 16 + 2 := toInt_origin hx
  have hz0 : (villageStart source).z0.toInt = source.z.toInt * 16 + 2 := toInt_origin hz
  have hx1 : (villageStart source).x1.toInt = (villageStart source).x0.toInt + 5 := by
    have heast : (villageStart source).x1 = (villageStart source).x0 + 5 := rfl
    rw [heast, toInt_add_eq (by omega) (by omega), hfive]
  have hz1 : (villageStart source).z1.toInt = (villageStart source).z0.toInt + 5 := by
    have hsouth : (villageStart source).z1 = (villageStart source).z0 + 5 := rfl
    rw [hsouth, toInt_add_eq (by omega) (by omega), hfive]
  have hx' := within_add (a := (villageStart source).x0) (v := 1) hs.x ⟨by omega, by omega⟩
  have hz' := within_add (a := (villageStart source).z0) (v := 1) hs.z ⟨by omega, by omega⟩
  have hy : (villageStart source).y1 - 4 = 74 := by
    change (78 : Int32) - 4 = 74
    decide
  intro site hsite
  simp only [Planner.startSites, List.mem_cons, List.not_mem_nil, or_false] at hsite
  rcases hsite with rfl | rfl | rfl | rfl
  · exact ⟨within_sub hs.x ⟨by omega, by omega⟩, hz', hy⟩
  · exact ⟨within_add hs.x ⟨by omega, by omega⟩, hz', hy⟩
  · exact ⟨hx', within_sub hs.z ⟨by omega, by omega⟩, hy⟩
  · exact ⟨hx', within_add hs.z ⟨by omega, by omega⟩, hy⟩

theorem new_sound (source : ChunkCoord) (random : MtRandom) :
    (Planner.new source random).Sound (villageStart source) (drawWeights houseKinds random).1 where
  start := rfl
  pieces := ⟨_, [], rfl, rfl, rfl, fun _ hpiece => nomatch hpiece⟩
  apart := List.pairwise_singleton ..
  roads _ hi := nomatch hi
  houses _ hi := nomatch hi
  counted := counted_new rfl

theorem roads_lead {s : StructureBounds} {drawn : List PieceWeight} {p : Planner} (hs : Roomy s)
    (hd : HousesOnly drawn) (h : p.Sound s drawn) (sites : List Site)
    (hn : ∀ site ∈ sites, Near s site) :
    Planner.Leads s drawn p (sites.foldl (fun p site => (p.generateRoad site).2) p) := by
  induction sites generalizing p with
  | nil => exact .refl h
  | cons site sites ih =>
    have hroad := Planner.generateRoad_leads hs hd h (hn site List.mem_cons_self)
    exact hroad.trans (ih hroad.sound fun other hother => hn other (List.mem_cons_of_mem _ hother))

-- The planning comes to its end, with its pieces apart, near the start and no more than drawn.
theorem generateGrown_ends (source : ChunkCoord) (random : MtRandom) (candidateSeed : UInt32)
    (style : VillageStyle) (h : FarFromLimits source) : ∃ plan needed,
      (∀ turns fuel, needed ≤ turns → needed ≤ fuel →
        VillagePlan.generateGrown turns fuel source random candidateSeed style = some plan) ∧
      plan.pieces.Pairwise (fun a b => a.bounds.intersects b.bounds = false) ∧
      (∃ start rest, plan.pieces = start :: rest ∧ start.bounds = villageStart source ∧
        ∀ piece ∈ rest, Within 112 piece.foot.1 start.bounds.x0 ∧
          Within 112 piece.foot.2 start.bounds.z0) ∧
      ∀ weight ∈ (drawWeights houseKinds random).1,
        countKind weight.kind plan.pieces ≤ weight.maxPlaceCount := by
  have hs := h.roomy
  have hd : HousesOnly (drawWeights houseKinds random).1 := housesOnly_drawWeights
  have hnew := new_sound source random
  have hstart : Planner.Leads _ _ _ (Planner.new source random).addStartChildren :=
    roads_lead hs hd hnew _ (near_startSites h)
  have hfew := hstart.pending
  have hlimit : feetLimit = 50625 := rfl
  have hone : (Planner.new source random).pieces.length = 1 := rfl
  have hnone : (Planner.new source random).pending = 0 := rfl
  obtain ⟨planner, hsound, hrun⟩ := Planner.addPending_ends hs hd 200000 hstart.sound (by omega) (by
    have := hstart.sound.length_le
    omega)
  obtain ⟨first, rest, hfirst, -, hbounds, hrest⟩ := hsound.pieces
  refine ⟨⟨.new source (calculateBounds (planner.pieces.map (·.bounds))), style,
    ((MtRandom.new candidateSeed).nextInt 50).1 == 0, planner.pieces⟩, 200000,
    fun turns fuel hturns hfuel => ?_, hsound.apart, ⟨first, rest, hfirst, hbounds, fun piece hp => ?_⟩,
    hsound.counted.bounded⟩
  · rw [VillagePlan.generateGrown, hrun turns fuel (by omega) hfuel]
    rfl
  · rw [hbounds]
    exact ⟨(hrest piece hp).near_x, (hrest piece hp).near_z⟩

theorem generateGrown_ends_at_a_village : FarFromLimits ⟨10, -12⟩ ∧ ∃ plan needed,
    (∀ turns fuel, needed ≤ turns → needed ≤ fuel → VillagePlan.generateGrown turns fuel ⟨10, -12⟩
      (.new 305419896) 305419896 .plains = some plan) ∧
    plan.pieces.Pairwise fun a b => a.bounds.intersects b.bounds = false := by
  have hfar : FarFromLimits ⟨10, -12⟩ := by
    rw [FarFromLimits]
    decide
  obtain ⟨plan, needed, hrun, hapart, -⟩ :=
    generateGrown_ends ⟨10, -12⟩ (.new 305419896) 305419896 .plains hfar
  exact ⟨hfar, plan, needed, hrun, hapart⟩

-- The planner is what stands behind the growth of a village's pieces.
theorem generateGrown_eq_generate {builders : Builders} {planner : Planner} {turns fuel : Nat}
    (hgrown : Planner.addPending turns fuel (Planner.new source random).addStartChildren =
      some planner) (hbuilders : builders.village source random = planner.pieces)
    (candidateSeed : UInt32) (style : VillageStyle) :
    VillagePlan.generateGrown turns fuel source random candidateSeed style =
      some (VillagePlan.generate builders source random candidateSeed style) := by
  rw [VillagePlan.generateGrown, hgrown, VillagePlan.generate, hbuilders]
  rfl

end Starts

end Cobblestone.Structure
