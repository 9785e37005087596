import Cobblestone.Biome.Source

namespace Cobblestone.Biome

open Lib

def biomeIdIsSupported (id : UInt8) : Bool :=
  id ≤ 8 || (10 ≤ id && id ≤ 39) || (129 ≤ id && id ≤ 134) || id == 140 || id == 149 || id == 151 ||
    (155 ≤ id && id ≤ 158) || (160 ≤ id && id ≤ 167)

-- Where the conversion has no id it panics.
def toBiomeId (id : Int32) : Option UInt8 :=
  if id < 0 ∨ id > 255 then none
  else
    let value := id.toUInt32.toUInt8
    if biomeIdIsSupported value then some value else none

def biomeIds {F : Type} (floats : Floats F) (seed : Int32) (x z : Int) (width height : Nat) :
    Option (List UInt8) :=
  ((finalLayer seed).area floats x z width height).mapM toBiomeId

def rawBiomeIds {F : Type} (floats : Floats F) (seed : Int32) (x z : Int) (width height : Nat) :
    Option (List UInt8) :=
  ((rawLayer seed).area floats x z width height).mapM toBiomeId

-- Whatever rectangle is asked for, its cells hold nothing else.
def Within (ids : Int32 → Prop) (area : Area) : Prop :=
  ∀ x z w h, ∀ id ∈ area x z w h, ids id

section Areas

variable {ids out : Int32 → Prop} {parent : Area}

theorem mem_forRange {n : Nat} {body : List Int32 → Nat → List Int32} {init : List Int32}
    (hinit : ∀ id ∈ init, out id)
    (hbody : ∀ i cells, (∀ id ∈ cells, out id) → ∀ id ∈ body cells i, out id) :
    ∀ id ∈ forRange n init body, out id :=
  forRange_invariant (fun _ cells => ∀ id ∈ cells, out id) hinit fun i cells _ hcells =>
    hbody i cells hcells

theorem mem_set {cells : List Int32} {i : Nat} {value : Int32} (hcells : ∀ id ∈ cells, out id)
    (hvalue : out value) : ∀ id ∈ cells.set i value, out id := by
  intro id hid
  rcases List.mem_or_eq_of_mem_set hid with hold | rfl
  · exact hcells id hold
  · exact hvalue

theorem mem_replicate_zero (hzero : out 0) (n : Nat) : ∀ id ∈ List.replicate n 0, out id := by
  intro id hid
  rw [List.eq_of_mem_replicate hid]
  exact hzero

theorem mem_fillGrid {w h : Nat} {value : Nat → Nat → Int32} (hzero : out 0)
    (hvalue : ∀ dx dz, out (value dx dz)) : ∀ id ∈ fillGrid w h 0 value, out id :=
  mem_forRange (mem_replicate_zero hzero _) fun dz _ hrow =>
    mem_forRange hrow fun dx _ hcells => mem_set hcells (hvalue dx dz)

theorem getD_within {cells : List Int32} (hzero : ids 0) (hcells : ∀ id ∈ cells, ids id) (i : Nat) :
    ids (cells.getD i 0) := by
  rw [List.getD_eq_getElem?_getD]
  cases hi : cells[i]? with
  | none => exact hzero
  | some id => exact hcells id (List.mem_of_getElem? hi)

theorem neighborhood_within (hparent : Within ids parent) (hzero : ids 0) (hout : out 0)
    {project : Int32 → Int32 → Int32 → Int32 → Int32 → Int → Int → Int32}
    (hproject : ∀ c n e w s x z, ids c → ids n → ids e → ids w → ids s →
      out (project c n e w s x z)) :
    Within out fun x z w h => neighborhood parent x z w h project := by
  intro x z w h
  have hread := getD_within hzero (hparent (wrapI32 (x - 1)) (wrapI32 (z - 1)) (w + 2) (h + 2))
  exact mem_fillGrid hout fun dx dz => hproject _ _ _ _ _ _ _ (hread _) (hread _) (hread _)
    (hread _) (hread _)

theorem cornerArea_within (hparent : Within ids parent) (hzero : ids 0) (hout : out 0)
    {project : Int32 → Int32 → Int32 → Int32 → Int32 → Int → Int → Int32}
    (hproject : ∀ c nw ne sw se x z, ids c → ids nw → ids ne → ids sw → ids se →
      out (project c nw ne sw se x z)) :
    Within out fun x z w h => cornerArea parent x z w h project := by
  intro x z w h
  have hread := getD_within hzero (hparent (wrapI32 (x - 1)) (wrapI32 (z - 1)) (w + 2) (h + 2))
  exact mem_fillGrid hout fun dx dz => hproject _ _ _ _ _ _ _ (hread _) (hread _) (hread _)
    (hread _) (hread _)

theorem pointwise_within (hparent : Within ids parent) {project : Int32 → Int → Int → Int32}
    (hproject : ∀ id x z, ids id → out (project id x z)) :
    Within out fun x z w h => pointwise parent x z w h project := by
  intro x z w h id hid
  obtain ⟨i, hi, rfl⟩ := List.mem_mapIdx.mp hid
  exact hproject _ _ _ (hparent x z w h _ (List.getElem_mem hi))

theorem projectCell_within {cells : List Int32} {width height edge : Nat}
    {areaX areaZ cellX cellZ : Int} {value : Nat → Nat → Int32} (hcells : ∀ id ∈ cells, out id)
    (hvalue : ∀ localX localZ, out (value localX localZ)) :
    ∀ id ∈ projectCell cells width height areaX areaZ cellX cellZ edge value, out id := by
  refine mem_forRange hcells fun localZ cells hcells => ?_
  dsimp only
  split
  · exact hcells
  · refine mem_forRange hcells fun localX cells hcells => ?_
    split
    · exact hcells
    · exact mem_set hcells (hvalue localX localZ)

section Enlarged

variable {shift : Nat} {load : Int32 → Int32} {cellValue : CellValue} {loaded : Int32 → Prop}
  (hcell : ∀ cellX cellZ a b c d localX localZ, loaded a → loaded b → loaded c → loaded d →
    out (cellValue cellX cellZ a b c d localX localZ))

include hcell

theorem enlargeRow_within {input : List Int32} {parentX parentZ x z : Int}
    {parentWidth width height row : Nat} {cells : List Int32}
    (hread : ∀ i, loaded (load (input.getD i 0))) (hcells : ∀ id ∈ cells, out id) :
    ∀ id ∈ enlargeRow input parentX parentZ parentWidth shift load cellValue x z width height cells
      row, out id := by
  -- the corners that slide along the row stay loaded ones
  let kept (_ : Nat) (state : List Int32 × Int32 × Int32) : Prop :=
    (∀ id ∈ state.1, out id) ∧ loaded state.2.1 ∧ loaded state.2.2
  have hrow : kept (parentWidth - 1) (forRange (parentWidth - 1)
      (cells, load (input.getD (row * parentWidth) 0), load (input.getD ((row + 1) * parentWidth) 0))
      (enlargeStep input parentX parentZ parentWidth shift load cellValue x z width height row)) := by
    refine forRange_invariant kept ⟨hcells, hread _, hread _⟩ fun column state _ hstate => ?_
    obtain ⟨hdone, hupper, hlower⟩ := hstate
    refine ⟨projectCell_within hdone fun _ _ => ?_, hread _, hread _⟩
    exact hcell _ _ _ _ _ _ _ _ hupper (hread _) hlower (hread _)
  exact hrow.1

theorem enlarge_within (hparent : Within ids parent) (hzero : ids 0) (hout : out 0)
    (hload : ∀ id, ids id → loaded (load id)) :
    Within out (enlarge parent shift load cellValue) := by
  intro x z w h
  refine mem_forRange (mem_replicate_zero hout _) fun row cells hcells => ?_
  exact enlargeRow_within hcell (fun i => hload _ (getD_within hzero (hparent _ _ _ _) i)) hcells

end Enlarged

end Areas

section Zoom

variable {ids : Int32 → Prop}

theorem choose2_within {first second : Int32} (random : ChunkRandom) (hfirst : ids first)
    (hsecond : ids second) : ids (choose2 random first second).1 := by
  dsimp only [choose2]
  split
  · exact hfirst
  · exact hsecond

theorem choose4_within {a b c d : Int32} (random : ChunkRandom) (ha : ids a) (hb : ids b)
    (hc : ids c) (hd : ids d) : ids (choose4 random a b c d) := by
  unfold choose4
  dsimp only
  split_ifs <;> assumption

theorem chooseModeOrRandom_within {a b c d : Int32} (random : ChunkRandom) (ha : ids a)
    (hb : ids b) (hc : ids c) (hd : ids d) : ids (chooseModeOrRandom random a b c d) := by
  have hdraw := choose4_within random ha hb hc hd
  unfold chooseModeOrRandom
  split_ifs <;> assumption

theorem zoomValue_within (random : LayerRandom) (fuzzy : Bool) (hzero : ids 0) (worldX worldZ : Int)
    (a b c d : Int32) (localX localZ : Nat) (ha : ids a) (hb : ids b) (hc : ids c) (hd : ids d) :
    ids (zoomValue random fuzzy worldX worldZ a b c d localX localZ) := by
  unfold zoomValue
  generalize random.atCoord worldX worldZ = draw
  dsimp only
  have hlower := choose2_within draw ha hc
  have hright := choose2_within (choose2 draw a c).2 ha hb
  generalize choose2 draw a c = lower at hlower hright ⊢
  generalize choose2 lower.2 a b = right at hright ⊢
  refine getD_within hzero ?_ _
  simp only [List.forall_mem_cons, List.not_mem_nil, false_imp_iff, implies_true, and_true]
  refine ⟨ha, hright, hlower, ?_⟩
  split
  · exact choose4_within _ ha hb hc hd
  · exact chooseModeOrRandom_within _ ha hb hc hd

theorem zoomArea_within {parent : Area} (random : LayerRandom) (fuzzy : Bool)
    (hparent : Within ids parent) (hzero : ids 0) : Within ids (zoomArea random parent fuzzy) :=
  enlarge_within (fun x z a b c d i j => zoomValue_within random fuzzy hzero x z a b c d i j) hparent
    hzero hzero fun _ hid => hid

theorem drawCorner_within {state : ChunkRandom × Int32 × Int32} {corner : Int32}
    (hcorner : ids corner) (hstate : ids state.2.1) : ids (drawCorner state corner).2.1 := by
  unfold drawCorner
  dsimp only
  split
  · exact hstate
  · dsimp only
    split
    · exact hcorner
    · exact hstate

theorem foldl_drawCorner_within (corners : List Int32) (state : ChunkRandom × Int32 × Int32)
    (hcorners : ∀ corner ∈ corners, ids corner) (hstate : ids state.2.1) :
    ids (corners.foldl drawCorner state).2.1 := by
  induction corners generalizing state with
  | nil => exact hstate
  | cons corner corners ih =>
    rw [List.forall_mem_cons] at hcorners
    exact ih _ hcorners.2 (drawCorner_within hcorners.1 hstate)

theorem addIslandAt_within (random : LayerRandom) (hzero : ids 0) (hwarm : ids 1)
    (c nw ne sw se : Int32) (x z : Int) (hc : ids c) (hnw : ids nw) (hne : ids ne) (hsw : ids sw)
    (hse : ids se) : ids (addIslandAt random c nw ne sw se x z) := by
  unfold addIslandAt
  have hcandidate := foldl_drawCorner_within [nw, ne, sw, se] (random.atCoord x z, climateWarm, 1)
    (by simp [*]) hwarm
  rcases [nw, ne, sw, se].foldl drawCorner (random.atCoord x z, climateWarm, 1) with
    ⟨random, candidate, _⟩
  dsimp only at hcandidate ⊢
  split_ifs
  · exact hcandidate
  · exact hzero
  · exact hzero
  · exact hc
  · exact hc

theorem addIslandArea_within {parent : Area} (random : LayerRandom) (hparent : Within ids parent)
    (hzero : ids 0) (hwarm : ids 1) : Within ids (addIslandArea random parent) :=
  cornerArea_within hparent hzero hzero (addIslandAt_within random hzero hwarm)

end Zoom

section Climate

theorem special_masked (value bits : Int32) :
    (value ||| (bits &&& 0x0f00)) &&& ~~~0x0f00 = value &&& ~~~0x0f00 := by
  apply Int32.toBitVec_inj.mp
  apply BitVec.eq_of_getLsbD_eq
  intro i hi
  simp only [Int32.toBitVec_and, Int32.toBitVec_or, Int32.toBitVec_not, BitVec.getLsbD_and,
    BitVec.getLsbD_or, BitVec.getLsbD_not, hi, decide_true, Bool.true_and]
  cases value.toBitVec.getLsbD i <;> cases bits.toBitVec.getLsbD i <;> simp

-- what is left of a climate value once the special bits are masked off
def Climatic (value : Int32) : Prop := value &&& ~~~0x0f00 ∈ ([0, 1, 2, 3, 4, 14, 24] : List Int32)

instance : DecidablePred Climatic := fun value =>
  inferInstanceAs (Decidable (value &&& ~~~0x0f00 ∈ ([0, 1, 2, 3, 4, 14, 24] : List Int32)))

variable (random : LayerRandom) {parent : Area}

theorem climatic_zero : Climatic 0 := by decide

theorem islandArea_within : Within Climatic (islandArea random) := by
  intro x z w h
  have hfill : ∀ id ∈ fillGrid w h 0 fun dx dz =>
      islandAt random (addCoord x dx) (addCoord z dz), Climatic id := by
    refine mem_fillGrid climatic_zero fun dx dz => ?_
    unfold islandAt
    split <;> decide
  unfold islandArea
  dsimp only
  split
  · exact mem_set hfill (by decide)
  · exact hfill

variable (hparent : Within Climatic parent)

include hparent

theorem removeTooMuchOceanArea_within : Within Climatic (removeTooMuchOceanArea random parent) := by
  refine neighborhood_within hparent climatic_zero climatic_zero fun c n e w s x z hc _ _ _ _ => ?_
  unfold removeTooMuchOceanAt
  split
  · decide
  · exact hc

omit hparent in
theorem addSnowArea_within : Within Climatic (addSnowArea random parent) := by
  refine fun x z w h => mem_fillGrid climatic_zero fun dx dz => ?_
  unfold addSnowAt
  dsimp only
  split_ifs <;> decide

omit hparent in
theorem addSpecialAt_within {value : Int32} (hvalue : Climatic value) (x z : Int) :
    Climatic (addSpecialAt random value x z) := by
  unfold addSpecialAt
  dsimp only
  split
  · split
    · unfold Climatic at hvalue ⊢
      rwa [special_masked]
    · exact hvalue
  · exact hvalue

theorem addEdgeArea_within (mode : EdgeMode) : Within Climatic (addEdgeArea random parent mode) := by
  intro x z w h
  unfold addEdgeArea
  split
  · exact pointwise_within hparent (fun _ x z hid => addSpecialAt_within random hid x z) x z w h
  · refine neighborhood_within hparent climatic_zero climatic_zero (fun c n e w s _ _ hc _ _ _ _ => ?_)
      x z w h
    unfold addEdgeAt
    cases mode
    case coolWarm => dsimp only; split_ifs <;> first | exact hc | decide
    case heatIce => dsimp only; split_ifs <;> first | exact hc | decide
    case special => exact hc

theorem addMushroomIslandArea_within : Within Climatic (addMushroomIslandArea random parent) := by
  refine cornerArea_within hparent climatic_zero climatic_zero fun c _ _ _ _ x z hc _ _ _ _ => ?_
  unfold addMushroomIslandAt
  split
  · decide
  · exact hc

theorem deepOceanArea_within : Within Climatic (deepOceanArea parent) := by
  refine neighborhood_within hparent climatic_zero climatic_zero fun c n e w s _ _ hc _ _ _ _ => ?_
  unfold deepOceanAt
  split
  · decide
  · exact hc

end Climate

section Supported

def Supported (id : Int32) : Prop := (toBiomeId id).isSome

instance : DecidablePred Supported := fun id => inferInstanceAs (Decidable ((toBiomeId id).isSome = true))

theorem supported_zero : Supported 0 := by decide

theorem all_supported {ids : List Int32} (h : (ids.all fun id => decide (Supported id)) = true) :
    ∀ id ∈ ids, Supported id :=
  fun id hid => of_decide_eq_true (List.all_eq_true.mp h id hid)

theorem Supported.ite {p : Prop} [Decidable p] {first second : Int32} (hfirst : Supported first)
    (hsecond : Supported second) : Supported (if p then first else second) := by
  split
  · exact hfirst
  · exact hsecond

theorem Supported.range {id : Int32} (hid : Supported id) : 0 ≤ id ∧ id ≤ 255 := by
  unfold Supported toBiomeId at hid
  split at hid
  · exact absurd hid (by simp)
  · next hrange =>
    rw [not_or] at hrange
    exact ⟨Int32.not_lt.mp hrange.1, Int32.not_lt.mp hrange.2⟩

theorem and_mask_of_range {id : Int32} (hlow : 0 ≤ id) (hhigh : id ≤ 255) : id &&& 0xff = id := by
  have hid : id.toBitVec.toNat < 256 := by
    have hlow := Int32.le_iff_toInt_le.mp hlow
    have hhigh := Int32.le_iff_toInt_le.mp hhigh
    have hcond := BitVec.toInt_eq_toNat_cond id.toBitVec
    rw [show id.toBitVec.toInt = id.toInt from rfl] at hcond
    rw [show (0 : Int32).toInt = 0 from rfl] at hlow
    rw [show (255 : Int32).toInt = 255 from rfl] at hhigh
    split at hcond <;> omega
  apply Int32.toBitVec_inj.mp
  apply BitVec.eq_of_toNat_eq
  rw [Int32.toBitVec_and, BitVec.toNat_and]
  exact (Nat.and_two_pow_sub_one_eq_mod _ 8).trans (Nat.mod_eq_of_lt hid)

theorem Supported.masked {id : Int32} (hid : Supported id) : id &&& 0xff = id :=
  and_mask_of_range hid.range.1 hid.range.2

theorem drawFrom_supported (random : ChunkRandom) {table : List Int32}
    (htable : ∀ id ∈ table, Supported id) : Supported (drawFrom random table) :=
  getD_within supported_zero htable _

variable (random : LayerRandom) {parent : Area}

theorem Climatic.supported {value : Int32} (hvalue : Climatic value) :
    Supported (value &&& ~~~0x0f00) := by
  have hall : ∀ id ∈ ([0, 1, 2, 3, 4, 14, 24] : List Int32), Supported id :=
    all_supported (by decide)
  exact hall _ hvalue

theorem biomeInitAt_supported {value : Int32} (hvalue : Climatic value) (x z : Int) :
    Supported (biomeInitAt random value x z) := by
  have hclimate := hvalue.supported
  unfold biomeInitAt
  dsimp only
  repeat' with_reducible apply Supported.ite
  all_goals first
    | with_reducible exact hclimate
    | with_reducible exact drawFrom_supported _ (all_supported (by decide))
    | decide

theorem biomeInitArea_within (hparent : Within Climatic parent) :
    Within Supported (biomeInitArea random parent) :=
  pointwise_within hparent fun _ x z hid => biomeInitAt_supported random hid x z

theorem mutatedBiome_supported (id : Int32) {other : Int32} (hother : Supported other) :
    Supported ((mutatedBiome id).getD other) := by
  unfold mutatedBiome
  generalize htable : ([_, _, _, _, _, _, _, _, _, _, _, _, _, _, _, _, _, _, _, _, _] :
    List (Int32 × Int32)) = table
  have hall : ∀ biome ∈ table.map Prod.snd, Supported biome := by
    subst htable
    exact all_supported (by decide)
  cases hfound : table.lookup id with
  | none => exact hother
  | some mutated =>
    obtain ⟨before, after, rfl, -⟩ := List.lookup_eq_some_iff.mp hfound
    exact hall mutated (by simp)

theorem hillOf_supported (random : ChunkRandom) {biome : Int32} (hbiome : Supported biome) :
    Supported (hillOf random biome) := by
  unfold hillOf
  dsimp only
  repeat' with_reducible apply Supported.ite
  all_goals first | with_reducible exact hbiome | decide

theorem regionHillsAt_supported {biome : Int32} (hbiome : Supported biome)
    (noise n e w s : Int32) (x z : Int) :
    Supported (regionHillsAt random biome noise n e w s x z) := by
  unfold regionHillsAt
  dsimp only
  generalize (random.atCoord x z).next 3 = draw
  have hhill := hillOf_supported draw.2 hbiome
  generalize hillOf draw.2 biome = hill at hhill ⊢
  repeat' with_reducible apply Supported.ite
  all_goals first
    | with_reducible assumption
    | with_reducible exact mutatedBiome_supported _ hbiome

variable (hparent : Within Supported parent)

include hparent

theorem regionHillsArea_within (noise : Area) :
    Within Supported (regionHillsArea random parent noise) := by
  refine fun x z w h => mem_fillGrid supported_zero fun dx dz => ?_
  exact regionHillsAt_supported random (getD_within supported_zero (hparent _ _ _ _) _) _ _ _ _ _ _ _

omit hparent in
theorem replaceEdge_supported {center base edge id : Int32} {adjacent : List Int32}
    (hcenter : Supported center) (hedge : Supported edge)
    (hid : replaceEdge center adjacent base edge = some id) : Supported id := by
  unfold replaceEdge at hid
  split at hid
  · exact absurd hid (by simp)
  · cases hid
    split
    · exact hcenter
    · exact hedge

theorem biomeEdgeArea_within : Within Supported (biomeEdgeArea parent) := by
  refine neighborhood_within hparent supported_zero supported_zero fun c n e w s _ _ hc _ _ _ _ => ?_
  unfold biomeEdgeAt
  dsimp only
  cases hplateauF : replaceEdge c [n, e, w, s] mesaPlateauF mesa with
  | some edge => exact replaceEdge_supported hc (by decide) hplateauF
  | none =>
    cases hplateau : replaceEdge c [n, e, w, s] mesaPlateau mesa with
    | some edge => exact replaceEdge_supported hc (by decide) hplateau
    | none =>
      cases htaiga : replaceEdge c [n, e, w, s] megaTaiga taiga with
      | some edge => exact replaceEdge_supported hc (by decide) htaiga
      | none =>
        dsimp only
        repeat' with_reducible apply Supported.ite
        all_goals first | with_reducible exact hc | decide

theorem rareBiomeSpotArea_within : Within Supported (rareBiomeSpotArea random parent) := by
  refine pointwise_within hparent fun biome x z hbiome => ?_
  unfold rareBiomeSpotAt
  split
  · decide
  · exact hbiome

theorem smoothArea_within : Within Supported (smoothArea random parent) := by
  refine neighborhood_within hparent supported_zero supported_zero fun c n e w s x z hc hn _ hw _ => ?_
  unfold smoothAt
  dsimp only
  split_ifs <;> assumption

theorem shoreArea_within : Within Supported (shoreArea parent) := by
  refine neighborhood_within hparent supported_zero supported_zero fun c n e w s _ _ hc _ _ _ _ => ?_
  unfold shoreAt
  dsimp only
  repeat' with_reducible apply Supported.ite
  all_goals first | with_reducible exact hc | decide

theorem riverMixerArea_within (rivers : Area) :
    Within Supported (riverMixerArea parent rivers) := by
  intro x z w h id hid
  obtain ⟨i, hi⟩ := List.getElem?_of_mem hid
  obtain ⟨biome, river, hbiome, -, rfl⟩ := List.getElem?_zipWith_eq_some.mp hi
  have hbiome := hparent x z w h biome (List.mem_of_getElem? hbiome)
  unfold riverMixerAt
  repeat' with_reducible apply Supported.ite
  all_goals first | with_reducible exact hbiome | decide

theorem voronoiArea_within {F : Type} (floats : Floats F) :
    Within Supported (voronoiArea floats random parent) := by
  intro x z w h
  have hload (id : Int32) (hid : Supported id) : Supported (id &&& 0xff) := by rwa [hid.masked]
  refine enlarge_within (fun cellX cellZ a b c d localX localZ ha hb hc hd => ?_) hparent
    supported_zero supported_zero hload _ _ w h
  exact .ite ha (.ite hb (.ite hc hd))

end Supported

section Graph

variable {F : Type} (floats : Floats F) {ids : Int32 → Prop}

theorem zoomTimes_within (hzero : ids 0) (worldSeed mixup : Int64) {layer : Layer}
    (hlayer : Within ids (layer.area floats)) (count : Nat) :
    Within ids ((zoomTimes worldSeed layer mixup count).area floats) :=
  forRange_invariant (fun _ (layer : Layer) => Within ids (layer.area floats)) hlayer fun _ _ _ hlayer =>
    zoomArea_within _ _ hlayer hzero

theorem climateLayer_within (worldSeed : Int64) :
    Within Climatic ((climateLayer worldSeed).area floats) := by
  have hzero : Climatic 0 := climatic_zero
  have hwarm : Climatic 1 := by decide
  refine deepOceanArea_within (addMushroomIslandArea_within _ (addIslandArea_within _ ?_ hzero hwarm))
  refine zoomArea_within _ _ (zoomArea_within _ _ ?_ hzero) hzero
  refine addEdgeArea_within _ (addEdgeArea_within _ (addEdgeArea_within _ ?_ _) _) _
  refine addIslandArea_within _ (addSnowArea_within _) hzero hwarm

theorem biomesLayer_within (worldSeed : Int64) :
    Within Supported ((biomesLayer worldSeed).area floats) := by
  have hzero : Supported 0 := supported_zero
  have hone : Supported 1 := by decide
  refine smoothArea_within _ (zoomArea_within _ _ (zoomArea_within _ _ ?_ hzero) hzero)
  refine shoreArea_within (zoomArea_within _ _ (addIslandArea_within _ ?_ hzero hone) hzero)
  refine zoomArea_within _ _ (rareBiomeSpotArea_within _ (regionHillsArea_within _ ?_ _)) hzero
  refine biomeEdgeArea_within (zoomTimes_within floats hzero _ _ ?_ 2)
  exact biomeInitArea_within _ (climateLayer_within floats worldSeed)

theorem rawLayer_within (seed : Int32) : Within Supported ((rawLayer seed).area floats) :=
  riverMixerArea_within (biomesLayer_within floats _) _

theorem finalLayer_within (seed : Int32) : Within Supported ((finalLayer seed).area floats) :=
  voronoiArea_within _ (rawLayer_within floats seed) floats

end Graph

theorem isSome_mapM_toBiomeId {ids : List Int32} (hids : ∀ id ∈ ids, Supported id) :
    (ids.mapM toBiomeId).isSome := by
  induction ids with
  | nil => rfl
  | cons id ids ih =>
    rw [List.forall_mem_cons] at hids
    obtain ⟨head, hhead⟩ := Option.isSome_iff_exists.mp hids.1
    obtain ⟨tail, htail⟩ := Option.isSome_iff_exists.mp (ih hids.2)
    simp [List.mapM_cons, hhead, htail]

theorem biome_ids_all_supported {F : Type} (floats : Floats F) (seed : Int32) (x z : Int)
    (width height : Nat) :
    (∀ id ∈ (finalLayer seed).area floats x z width height, (toBiomeId id).isSome) ∧
      (∀ id ∈ (rawLayer seed).area floats x z width height, (toBiomeId id).isSome) ∧
      (biomeIds floats seed x z width height).isSome ∧
      (rawBiomeIds floats seed x z width height).isSome := by
  have hfinal := finalLayer_within floats seed x z width height
  have hraw := rawLayer_within floats seed x z width height
  exact ⟨hfinal, hraw, isSome_mapM_toBiomeId hfinal, isSome_mapM_toBiomeId hraw⟩

end Cobblestone.Biome
