import Cobblestone.Biome.Enlarge

namespace Cobblestone.Biome

open Lib

-- no coordinate of the rectangle, nor of any rectangle asked of a parent for it, leaves `i32`
def Layer.Unwrapped : Layer → Int → Int → Nat → Nat → Prop
  | .island _, x, z, w, h => FitsI32 x w ∧ FitsI32 z h
  | .zoom _ parent _, x, z, w, h =>
    (FitsI32 x w ∧ FitsI32 z h) ∧ parent.Unwrapped (parentSpan x w 1).1 (parentSpan z h 1).1
      (parentSpan x w 1).2 (parentSpan z h 1).2
  | .addIsland _ parent, x, z, w, h
  | .removeTooMuchOcean _ parent, x, z, w, h
  | .addSnow _ parent, x, z, w, h
  | .addMushroomIsland _ parent, x, z, w, h
  | .deepOcean _ parent, x, z, w, h
  | .biomeEdge _ parent, x, z, w, h
  | .river _ parent, x, z, w, h
  | .smooth _ parent, x, z, w, h
  | .shore _ parent, x, z, w, h => parent.Unwrapped (x - 1) (z - 1) (w + 2) (h + 2)
  | .addEdge _ parent mode, x, z, w, h =>
    if mode = .special then parent.Unwrapped x z w h
    else parent.Unwrapped (x - 1) (z - 1) (w + 2) (h + 2)
  | .riverInit _ parent, x, z, w, h
  | .biomeInit _ parent, x, z, w, h
  | .rareBiomeSpot _ parent, x, z, w, h => parent.Unwrapped x z w h
  | .regionHills _ parent riverNoise, x, z, w, h =>
    parent.Unwrapped (x - 1) (z - 1) (w + 2) (h + 2) ∧
      riverNoise.Unwrapped (x - 1) (z - 1) (w + 2) (h + 2)
  | .riverMixer _ biomes rivers, x, z, w, h => biomes.Unwrapped x z w h ∧ rivers.Unwrapped x z w h
  | .voronoiZoom _ parent, x, z, w, h =>
    ((FitsI32 x w ∧ FitsI32 (x - 2) w) ∧ FitsI32 z h ∧ FitsI32 (z - 2) h) ∧
      parent.Unwrapped (parentSpan (x - 2) w 2).1 (parentSpan (z - 2) h 2).1
        (parentSpan (x - 2) w 2).2 (parentSpan (z - 2) h 2).2

variable {F : Type} (floats : Floats F)

-- the endless map a layer draws, one cell at a time and with no wrapping
def Layer.cell : Layer → CellMap
  | .island random => islandCell random
  | .zoom random parent fuzzy => enlargedCell parent.cell 1 id (zoomValue random fuzzy)
  | .addIsland random parent => cornerCell parent.cell (addIslandAt random)
  | .removeTooMuchOcean random parent => crossCell parent.cell (removeTooMuchOceanAt random)
  | .addSnow random parent => fun x z => addSnowAt random (parent.cell x z) x z
  | .addEdge random parent mode =>
    if mode = .special then fun x z => addSpecialAt random (parent.cell x z) x z
    else crossCell parent.cell fun center n e w s _ _ => addEdgeAt mode center n e w s
  | .addMushroomIsland random parent => cornerCell parent.cell (addMushroomIslandAt random)
  | .deepOcean _ parent => crossCell parent.cell fun center n e w s _ _ => deepOceanAt center n e w s
  | .riverInit random parent => fun x z => riverInitAt random (parent.cell x z) x z
  | .biomeInit random parent => fun x z => biomeInitAt random (parent.cell x z) x z
  | .biomeEdge _ parent => crossCell parent.cell fun center n e w s _ _ => biomeEdgeAt center n e w s
  | .regionHills random parent riverNoise => hillsCell random parent.cell riverNoise.cell
  | .rareBiomeSpot random parent => fun x z => rareBiomeSpotAt random (parent.cell x z) x z
  | .river _ parent => crossCell parent.cell fun center n e w s _ _ => riverAt center n e w s
  | .smooth random parent => crossCell parent.cell (smoothAt random)
  | .shore _ parent => crossCell parent.cell fun center n e w s _ _ => shoreAt center n e w s
  | .riverMixer _ biomes rivers => fun x z => riverMixerAt (biomes.cell x z) (rivers.cell x z)
  | .voronoiZoom random parent => fun x z =>
    enlargedCell parent.cell 2 (· &&& 0xff) (voronoiValue floats random) (x - 2) (z - 2)

variable {x z : Int} {w h : Nat}

theorem fits_of_grown (hx : FitsI32 (x - 1) (w + 2)) : FitsI32 x w := by
  obtain ⟨hlo, hhi⟩ := hx
  exact ⟨by omega, by omega⟩

theorem Layer.Unwrapped.fits {layer : Layer} (hu : layer.Unwrapped x z w h) :
    FitsI32 x w ∧ FitsI32 z h := by
  induction layer generalizing x z w h with
  | island _ => exact hu
  | zoom _ _ _ _ => exact hu.1
  | voronoiZoom _ _ _ => exact ⟨hu.1.1.1, hu.1.2.1⟩
  | addIsland _ _ ih | removeTooMuchOcean _ _ ih | addSnow _ _ ih | addMushroomIsland _ _ ih
  | deepOcean _ _ ih | biomeEdge _ _ ih | river _ _ ih | smooth _ _ ih | shore _ _ ih =>
    exact ⟨fits_of_grown (ih hu).1, fits_of_grown (ih hu).2⟩
  | riverInit _ _ ih | biomeInit _ _ ih | rareBiomeSpot _ _ ih => exact ih hu
  | addEdge _ _ mode ih =>
    unfold Layer.Unwrapped at hu
    split at hu
    · exact ih hu
    · exact ⟨fits_of_grown (ih hu).1, fits_of_grown (ih hu).2⟩
  | regionHills _ _ _ ih _ => exact ⟨fits_of_grown (ih hu.1).1, fits_of_grown (ih hu.1).2⟩
  | riverMixer _ _ _ ih _ => exact ih hu.1

theorem parentSpan_mono {x' : Int} {w' : Nat} (shift : Nat) (hx : x ≤ x')
    (hw : x' + w' ≤ x + w) (hpos : 0 < w') :
    (parentSpan x w shift).1 ≤ (parentSpan x' w' shift).1 ∧
      (parentSpan x' w' shift).1 + (parentSpan x' w' shift).2 ≤
        (parentSpan x w shift).1 + (parentSpan x w shift).2 ∧
      0 < (parentSpan x' w' shift).2 := by
  have hedge : (0 : Int) < 2 ^ shift := by positivity
  have hfirst : x / 2 ^ shift ≤ x' / 2 ^ shift := Int.ediv_le_ediv hedge hx
  have hlast : (x' + (w' - 1 : Nat)) / 2 ^ shift ≤ (x + (w - 1 : Nat)) / 2 ^ shift :=
    Int.ediv_le_ediv hedge (by omega)
  have hspan : x' / 2 ^ shift ≤ (x' + (w' - 1 : Nat)) / 2 ^ shift :=
    Int.ediv_le_ediv hedge (by omega)
  simp only [parentSpan, shiftRight_eq]
  refine ⟨hfirst, by omega, by omega⟩

theorem FitsI32.mono {x' : Int} {w' : Nat} (hfit : FitsI32 x w) (hx : x ≤ x')
    (hw : x' + w' ≤ x + w) : FitsI32 x' w' := by
  obtain ⟨hlo, hhi⟩ := hfit
  exact ⟨by omega, by omega⟩

theorem Layer.Unwrapped.mono {layer : Layer} {x' z' : Int} {w' h' : Nat}
    (hu : layer.Unwrapped x z w h) (hx : x ≤ x') (hw : x' + w' ≤ x + w) (hz : z ≤ z')
    (hh : z' + h' ≤ z + h) (hw' : 0 < w') (hh' : 0 < h') : layer.Unwrapped x' z' w' h' := by
  induction layer generalizing x z w h x' z' w' h' with
  | island _ => exact ⟨hu.1.mono hx hw, hu.2.mono hz hh⟩
  | zoom _ _ _ ih =>
    obtain ⟨hxs, hxl, hxp⟩ := parentSpan_mono 1 hx hw hw'
    obtain ⟨hzs, hzl, hzp⟩ := parentSpan_mono 1 hz hh hh'
    exact ⟨⟨hu.1.1.mono hx hw, hu.1.2.mono hz hh⟩, ih hu.2 hxs hxl hzs hzl hxp hzp⟩
  | voronoiZoom _ _ ih =>
    obtain ⟨hxs, hxl, hxp⟩ := parentSpan_mono 2 (show x - 2 ≤ x' - 2 by omega)
      (show x' - 2 + w' ≤ x - 2 + w by omega) hw'
    obtain ⟨hzs, hzl, hzp⟩ := parentSpan_mono 2 (show z - 2 ≤ z' - 2 by omega)
      (show z' - 2 + h' ≤ z - 2 + h by omega) hh'
    refine ⟨⟨⟨hu.1.1.1.mono hx hw, hu.1.1.2.mono ?_ ?_⟩, hu.1.2.1.mono hz hh, hu.1.2.2.mono ?_ ?_⟩,
      ih hu.2 hxs hxl hzs hzl hxp hzp⟩ <;> omega
  | addIsland _ _ ih | removeTooMuchOcean _ _ ih | addSnow _ _ ih | addMushroomIsland _ _ ih
  | deepOcean _ _ ih | biomeEdge _ _ ih | river _ _ ih | smooth _ _ ih | shore _ _ ih =>
    exact ih hu (by omega) (by omega) (by omega) (by omega) (by omega) (by omega)
  | riverInit _ _ ih | biomeInit _ _ ih | rareBiomeSpot _ _ ih => exact ih hu hx hw hz hh hw' hh'
  | addEdge _ _ mode ih =>
    unfold Layer.Unwrapped at hu ⊢
    split at hu
    · next hmode =>
      rw [if_pos hmode]
      exact ih hu hx hw hz hh hw' hh'
    · next hmode =>
      rw [if_neg hmode]
      exact ih hu (by omega) (by omega) (by omega) (by omega) (by omega) (by omega)
  | regionHills _ _ _ ih ih' =>
    exact ⟨ih hu.1 (by omega) (by omega) (by omega) (by omega) (by omega) (by omega),
      ih' hu.2 (by omega) (by omega) (by omega) (by omega) (by omega) (by omega)⟩
  | riverMixer _ _ _ ih ih' =>
    exact ⟨ih hu.1 hx hw hz hh hw' hh', ih' hu.2 hx hw hz hh hw' hh'⟩

theorem Layer.area_tabulates {layer : Layer} (hu : layer.Unwrapped x z w h) (hw : 0 < w)
    (hh : 0 < h) : Tabulates (layer.cell floats) x z w h (layer.area floats x z w h) := by
  induction layer generalizing x z w h with
  | island random => exact islandArea_tabulates hu.1 hu.2 random
  | zoom random parent fuzzy ih =>
    obtain ⟨⟨hx, hz⟩, hparent⟩ := hu
    obtain ⟨-, -, hxp⟩ := parentSpan_mono 1 le_rfl le_rfl hw
    obtain ⟨-, -, hzp⟩ := parentSpan_mono 1 le_rfl le_rfl hh
    exact enlarge_tabulates hw hh hx hz (by norm_num) hparent.fits.1 hparent.fits.2
      (ih hparent hxp hzp)
  | voronoiZoom random parent ih =>
    obtain ⟨⟨⟨hx, hx'⟩, hz, hz'⟩, hparent⟩ := hu
    obtain ⟨-, -, hxp⟩ := parentSpan_mono 2 le_rfl le_rfl hw
    obtain ⟨-, -, hzp⟩ := parentSpan_mono 2 le_rfl le_rfl hh
    have hshift : Tabulates
        (enlargedCell (parent.cell floats) 2 (· &&& 0xff) (voronoiValue floats random))
        (x - 2) (z - 2) w h (voronoiArea floats random (parent.area floats) x z w h) := by
      unfold voronoiArea
      rw [wrapI32_of_fits hw hx', wrapI32_of_fits hh hz']
      exact enlarge_tabulates hw hh hx' hz' (by norm_num) hparent.fits.1 hparent.fits.2
        (ih hparent hxp hzp)
    refine hshift.congr fun dx dz _ _ => ?_
    dsimp only [Layer.cell]
    rw [show x + dx - 2 = x - 2 + dx by omega, show z + dz - 2 = z - 2 + dz by omega]
  | addIsland random parent ih | addMushroomIsland random parent ih =>
    have hp : parent.Unwrapped (x - 1) (z - 1) (w + 2) (h + 2) := hu
    exact cornerArea_tabulates hp.fits.1 hp.fits.2 (ih hp (by omega) (by omega)) _
  | removeTooMuchOcean _ parent ih | deepOcean _ parent ih | biomeEdge _ parent ih
  | river _ parent ih | smooth _ parent ih | shore _ parent ih =>
    have hp : parent.Unwrapped (x - 1) (z - 1) (w + 2) (h + 2) := hu
    exact neighborhood_tabulates hp.fits.1 hp.fits.2 (ih hp (by omega) (by omega)) _
  | addSnow random parent ih =>
    have hp : parent.Unwrapped (x - 1) (z - 1) (w + 2) (h + 2) := hu
    exact addSnowArea_tabulates hp.fits.1 hp.fits.2 (ih hp (by omega) (by omega)) random
  | riverInit _ _ ih | biomeInit _ _ ih | rareBiomeSpot _ _ ih =>
    exact pointwise_tabulates hu.fits.1 hu.fits.2 (ih hu hw hh) _
  | addEdge random parent mode ih =>
    unfold Layer.Unwrapped at hu
    unfold Layer.area Layer.cell addEdgeArea
    split at hu
    · next hmode =>
      rw [if_pos hmode, if_pos hmode]
      exact pointwise_tabulates hu.fits.1 hu.fits.2 (ih hu hw hh) _
    · next hmode =>
      rw [if_neg hmode, if_neg hmode]
      exact neighborhood_tabulates hu.fits.1 hu.fits.2 (ih hu (by omega) (by omega)) _
  | regionHills random _ _ ih ih' =>
    exact regionHillsArea_tabulates hu.1.fits.1 hu.1.fits.2 (ih hu.1 (by omega) (by omega)) random
      (ih' hu.2 (by omega) (by omega))
  | riverMixer _ _ _ ih ih' => exact riverMixerArea_tabulates (ih hu.1 hw hh) (ih' hu.2 hw hh)

-- how far beyond its own rectangle a layer reads before the next zoom
def Layer.margin : Layer → Nat
  | .island _ => 0
  | .zoom _ _ _ => 0
  | .addIsland _ parent
  | .removeTooMuchOcean _ parent
  | .addSnow _ parent
  | .addEdge _ parent _
  | .addMushroomIsland _ parent
  | .deepOcean _ parent
  | .biomeEdge _ parent
  | .river _ parent
  | .smooth _ parent
  | .shore _ parent => parent.margin + 1
  | .riverInit _ parent
  | .biomeInit _ parent
  | .rareBiomeSpot _ parent => parent.margin
  | .regionHills _ parent riverNoise => max parent.margin riverNoise.margin + 1
  | .riverMixer _ biomes rivers => max biomes.margin rivers.margin
  | .voronoiZoom _ _ => 2

def Layer.Modest : Layer → Prop
  | .island _ => True
  | .zoom _ parent _ => parent.margin ≤ 1000 ∧ parent.Modest
  | .voronoiZoom _ parent => parent.margin ≤ 1000 ∧ parent.Modest
  | .addIsland _ parent
  | .removeTooMuchOcean _ parent
  | .addSnow _ parent
  | .addEdge _ parent _
  | .addMushroomIsland _ parent
  | .deepOcean _ parent
  | .biomeEdge _ parent
  | .river _ parent
  | .smooth _ parent
  | .shore _ parent
  | .riverInit _ parent
  | .biomeInit _ parent
  | .rareBiomeSpot _ parent => parent.Modest
  | .regionHills _ parent riverNoise => parent.Modest ∧ riverNoise.Modest
  | .riverMixer _ biomes rivers => biomes.Modest ∧ rivers.Modest

structure Inside (m : Nat) (x : Int) (w : Nat) : Prop where
  low : -2147483648 + m ≤ x
  high : x + w + m ≤ 2147483648
  nonempty : 0 < w

theorem Inside.fits {m : Nat} (hin : Inside m x w) : FitsI32 x w := by
  obtain ⟨hlo, hhi, -⟩ := hin
  exact ⟨by omega, by omega⟩

theorem Inside.mono {m m' : Nat} (hin : Inside m x w) (hm : m' ≤ m) : Inside m' x w := by
  obtain ⟨hlo, hhi, hpos⟩ := hin
  exact ⟨by omega, by omega, hpos⟩

theorem Inside.grown {m : Nat} (hin : Inside (m + 1) x w) : Inside m (x - 1) (w + 2) := by
  obtain ⟨hlo, hhi, hpos⟩ := hin
  exact ⟨by omega, by omega, by omega⟩

theorem FitsI32.halved {m : Nat} (hfit : FitsI32 x w) (hw : 0 < w) (hm : m ≤ 1000) :
    Inside m (parentSpan x w 1).1 (parentSpan x w 1).2 := by
  obtain ⟨hlo, hhi⟩ := hfit
  simp only [parentSpan, shiftRight_eq]
  exact ⟨by omega, by omega, by omega⟩

theorem FitsI32.quartered {m : Nat} (hfit : FitsI32 x w) (hw : 0 < w) (hm : m ≤ 1000) :
    Inside m (parentSpan x w 2).1 (parentSpan x w 2).2 := by
  obtain ⟨hlo, hhi⟩ := hfit
  simp only [parentSpan, shiftRight_eq]
  exact ⟨by omega, by omega, by omega⟩

theorem FitsI32.shifted {m : Nat} (hin : Inside (m + 2) x w) : FitsI32 (x - 2) w := by
  obtain ⟨hlo, hhi, -⟩ := hin
  exact ⟨by omega, by omega⟩

theorem Layer.unwrapped_of_inside {layer : Layer} (hm : layer.Modest)
    (hx : Inside layer.margin x w) (hz : Inside layer.margin z h) : layer.Unwrapped x z w h := by
  induction layer generalizing x z w h with
  | island _ => exact ⟨hx.fits, hz.fits⟩
  | zoom _ _ _ ih =>
    exact ⟨⟨hx.fits, hz.fits⟩, ih hm.2 (hx.fits.halved hx.nonempty hm.1)
      (hz.fits.halved hz.nonempty hm.1)⟩
  | voronoiZoom _ _ ih =>
    have hx' := FitsI32.shifted (m := 0) hx
    have hz' := FitsI32.shifted (m := 0) hz
    exact ⟨⟨⟨hx.fits, hx'⟩, hz.fits, hz'⟩, ih hm.2 (hx'.quartered hx.nonempty hm.1)
      (hz'.quartered hz.nonempty hm.1)⟩
  | addIsland _ _ ih | removeTooMuchOcean _ _ ih | addSnow _ _ ih | addMushroomIsland _ _ ih
  | deepOcean _ _ ih | biomeEdge _ _ ih | river _ _ ih | smooth _ _ ih | shore _ _ ih =>
    exact ih hm hx.grown hz.grown
  | riverInit _ _ ih | biomeInit _ _ ih | rareBiomeSpot _ _ ih => exact ih hm hx hz
  | addEdge _ _ mode ih =>
    unfold Layer.Unwrapped
    split
    · exact ih hm (hx.mono (Nat.le_succ _)) (hz.mono (Nat.le_succ _))
    · exact ih hm hx.grown hz.grown
  | regionHills _ _ _ ih ih' =>
    exact ⟨ih hm.1 (hx.grown.mono (le_max_left _ _)) (hz.grown.mono (le_max_left _ _)),
      ih' hm.2 (hx.grown.mono (le_max_right _ _)) (hz.grown.mono (le_max_right _ _))⟩
  | riverMixer _ _ _ ih ih' =>
    exact ⟨ih hm.1 (hx.mono (le_max_left _ _)) (hz.mono (le_max_left _ _)),
      ih' hm.2 (hx.mono (le_max_right _ _)) (hz.mono (le_max_right _ _))⟩

theorem rawLayer_modest (seed : Int32) : (rawLayer seed).Modest := by
  simp [rawLayer, biomesLayer, riverLayer, hillsNoiseLayer, riverInitLayer, climateLayer, zoom,
    zoomUnseeded, zoomTimes, forRange_zero, forRange_succ, Layer.Modest, Layer.margin]

theorem margin_rawLayer (seed : Int32) : (rawLayer seed).margin = 2 := by
  simp [rawLayer, biomesLayer, riverLayer, zoom, zoomTimes, forRange_succ, Layer.margin]

theorem rawLayer_unwrapped (seed : Int32) (hx : Inside 2 x w) (hz : Inside 2 z h) :
    (rawLayer seed).Unwrapped x z w h := by
  refine Layer.unwrapped_of_inside (rawLayer_modest seed) ?_ ?_ <;> rwa [margin_rawLayer]

theorem finalLayer_unwrapped (seed : Int32) (hx : Inside 0 (x - 2) (w + 2))
    (hz : Inside 0 (z - 2) (h + 2)) (hw : 0 < w) (hh : 0 < h) :
    (finalLayer seed).Unwrapped x z w h := by
  obtain ⟨hxlo, hxhi, -⟩ := hx
  obtain ⟨hzlo, hzhi, -⟩ := hz
  have hx' : FitsI32 (x - 2) w := ⟨by omega, by omega⟩
  have hz' : FitsI32 (z - 2) h := ⟨by omega, by omega⟩
  exact ⟨⟨⟨⟨by omega, by omega⟩, hx'⟩, ⟨by omega, by omega⟩, hz'⟩,
    rawLayer_unwrapped seed (hx'.quartered hw (by omega)) (hz'.quartered hh (by omega))⟩

theorem Layer.area_cell {layer : Layer} (hu : layer.Unwrapped x z w h) {dx dz : Nat} (hdx : dx < w)
    (hdz : dz < h) :
    (layer.area floats x z w h)[dx + dz * w]? = some (layer.cell floats (x + dx) (z + dz)) :=
  (layer.area_tabulates floats hu (by omega) (by omega)).cell dx dz hdx hdz trivial

theorem Layer.area_single {layer : Layer} (hu : layer.Unwrapped x z w h) {dx dz : Nat}
    (hdx : dx < w) (hdz : dz < h) :
    layer.area floats (x + dx) (z + dz) 1 1 = [layer.cell floats (x + dx) (z + dz)] := by
  have hone : layer.Unwrapped (x + dx) (z + dz) 1 1 :=
    hu.mono (by omega) (by omega) (by omega) (by omega) Nat.one_pos Nat.one_pos
  have hcell := layer.area_cell floats hone Nat.one_pos Nat.one_pos
  have hlength := (layer.area_tabulates floats hone Nat.one_pos Nat.one_pos).length
  obtain ⟨value, hvalue⟩ := List.length_eq_one_iff.mp hlength
  rw [hvalue] at hcell ⊢
  simpa using hcell

theorem biome_layers_seamless (floats : Floats F) :
    (∀ (layer : Layer) (x z : Int) (w h : Nat), layer.Unwrapped x z w h →
      ∀ dx dz, dx < w → dz < h → ∃ value, (layer.area floats x z w h)[dx + dz * w]? = some value ∧
        layer.area floats (x + dx) (z + dz) 1 1 = [value]) ∧
    (∀ (layer : Layer) (x z x' z' : Int) (w h w' h' : Nat), layer.Unwrapped x z w h →
      layer.Unwrapped x' z' w' h' → ∀ dx dz dx' dz' : Nat, dx < w → dz < h → dx' < w' → dz' < h' →
        x + dx = x' + dx' → z + dz = z' + dz' →
          (layer.area floats x z w h)[dx + dz * w]? =
            (layer.area floats x' z' w' h')[dx' + dz' * w']?) ∧
    (∀ (seed : Int32) (x z : Int) (w h : Nat), 0 < w → 0 < h →
      (-2147483648 ≤ x - 2 ∧ x + w ≤ 2147483648) → (-2147483648 ≤ z - 2 ∧ z + h ≤ 2147483648) →
        (finalLayer seed).Unwrapped x z w h) ∧
    ∀ (seed : Int32) (x z : Int) (w h : Nat), 0 < w → 0 < h →
      (-2147483648 ≤ x - 2 ∧ x + w + 2 ≤ 2147483648) →
        (-2147483648 ≤ z - 2 ∧ z + h + 2 ≤ 2147483648) → (rawLayer seed).Unwrapped x z w h := by
  refine ⟨?_, ?_, ?_, ?_⟩
  · intro layer x z w h hu dx dz hdx hdz
    exact ⟨_, layer.area_cell floats hu hdx hdz, layer.area_single floats hu hdx hdz⟩
  · intro layer x z x' z' w h w' h' hu hu' dx dz dx' dz' hdx hdz hdx' hdz' hx hz
    rw [layer.area_cell floats hu hdx hdz, layer.area_cell floats hu' hdx' hdz', hx, hz]
  · intro seed x z w h hw hh hx hz
    refine finalLayer_unwrapped seed ⟨?_, ?_, ?_⟩ ⟨?_, ?_, ?_⟩ hw hh <;> push_cast <;> omega
  · intro seed x z w h hw hh hx hz
    refine rawLayer_unwrapped seed ⟨?_, ?_, hw⟩ ⟨?_, ?_, hh⟩ <;> push_cast <;> omega

def plainFloats : Floats Int where
  ofLocal n := n
  jitter _ _ _ xOffset zOffset := (xOffset, zOffset)
  distanceSquared x z targetX targetZ := (x - targetX) ^ 2 + (z - targetZ) ^ 2
  lt a b := decide (a < b)

theorem biome_layers_seamless_chunk :
    ∃ value, ((finalLayer 42).area plainFloats (-8) (-8) 16 16)[5 + 3 * 16]? = some value ∧
      (finalLayer 42).area plainFloats (-8 + (5 : Nat)) (-8 + (3 : Nat)) 1 1 = [value] :=
  (biome_layers_seamless plainFloats).1 (finalLayer 42) (-8) (-8) 16 16
    ((biome_layers_seamless plainFloats).2.2.1 42 (-8) (-8) 16 16 (by decide) (by decide) (by decide)
      (by decide)) 5 3 (by decide) (by decide)

end Cobblestone.Biome
