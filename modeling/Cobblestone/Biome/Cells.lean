import Cobblestone.Biome.Source

namespace Cobblestone.Biome

open Lib

abbrev CellMap := Int → Int → Int32

def FitsI32 (x : Int) (w : Nat) : Prop := -2147483648 ≤ x ∧ x + w ≤ 2147483648

def crossCell (parent : CellMap)
    (project : Int32 → Int32 → Int32 → Int32 → Int32 → Int → Int → Int32) : CellMap := fun x z =>
  project (parent x z) (parent x (z - 1)) (parent (x + 1) z) (parent (x - 1) z) (parent x (z + 1)) x z

def cornerCell (parent : CellMap)
    (project : Int32 → Int32 → Int32 → Int32 → Int32 → Int → Int → Int32) : CellMap := fun x z =>
  project (parent x z) (parent (x - 1) (z - 1)) (parent (x + 1) (z - 1)) (parent (x - 1) (z + 1))
    (parent (x + 1) (z + 1)) x z

def enlargedCell (parent : CellMap) (shift : Nat) (load : Int32 → Int32) (cellValue : CellValue) :
    CellMap := fun x z =>
  let px := x >>> shift
  let pz := z >>> shift
  cellValue (px * 2 ^ shift) (pz * 2 ^ shift) (load (parent px pz)) (load (parent (px + 1) pz))
    (load (parent px (pz + 1))) (load (parent (px + 1) (pz + 1))) (x - px * 2 ^ shift).toNat
    (z - pz * 2 ^ shift).toNat

-- the rectangle holds, cell by cell, what the map says there
abbrev Tabulates (cell : CellMap) (x z : Int) (w h : Nat) (out : List Int32) : Prop :=
  Shows w h (fun dx dz => cell (x + dx) (z + dz)) out

variable {cell : CellMap} {parent : Area} {x z : Int} {w h : Nat}

theorem addCoord_of_fits {x : Int} {w dx : Nat} (hfit : FitsI32 x w) (hx : dx < w) :
    addCoord x dx = x + dx := by
  obtain ⟨hlo, hhi⟩ := hfit
  exact wrapI32_of_inI32 ⟨by omega, by omega⟩

theorem wrapI32_of_fits {x : Int} {w : Nat} (hw : 0 < w) (hfit : FitsI32 x w) : wrapI32 x = x := by
  obtain ⟨hlo, hhi⟩ := hfit
  exact wrapI32_of_inI32 ⟨by omega, by omega⟩

theorem Tabulates.read {input : List Int32} (hin : Tabulates cell x z w h input) {a b : Nat}
    (ha : a < w) (hb : b < h) {x' z' : Int} (hx : x' = x + a) (hz : z' = z + b) :
    input.getD (a + b * w) 0 = cell x' z' := by
  rw [hx, hz]
  exact Painted.getD hin ha hb 0

section Grown

variable (hx : FitsI32 (x - 1) (w + 2)) (hz : FitsI32 (z - 1) (h + 2))
  (hparent : Tabulates cell (x - 1) (z - 1) (w + 2) (h + 2) (parent (x - 1) (z - 1) (w + 2) (h + 2)))

include hx hz in
theorem grown_fits : FitsI32 x w ∧ FitsI32 z h := by
  obtain ⟨hxlo, hxhi⟩ := hx
  obtain ⟨hzlo, hzhi⟩ := hz
  exact ⟨⟨by omega, by omega⟩, ⟨by omega, by omega⟩⟩

include hx hz hparent

omit hx hz in
theorem grown_read {i j dx dz : Nat} (hi : i ≤ 2) (hj : j ≤ 2) (hdx : dx < w) (hdz : dz < h)
    {x' z' : Int} (hx' : x' = x + dx + i - 1) (hz' : z' = z + dz + j - 1) :
    (parent (x - 1) (z - 1) (w + 2) (h + 2)).getD (dx + i + (dz + j) * (w + 2)) 0 = cell x' z' :=
  hparent.read (by omega) (by omega) (by omega) (by omega)

theorem neighborhood_tabulates
    (project : Int32 → Int32 → Int32 → Int32 → Int32 → Int → Int → Int32) :
    Tabulates (crossCell cell project) x z w h (neighborhood parent x z w h project) := by
  obtain ⟨hxw, hzh⟩ := grown_fits hx hz
  unfold neighborhood
  rw [wrapI32_of_fits (by omega) hx, wrapI32_of_fits (by omega) hz]
  refine (fillGrid_shows w h 0 _).congr fun dx dz hdx hdz => ?_
  have center := grown_read hparent (i := 1) (j := 1) (by omega) (by omega) hdx hdz
    (show x + dx = _ by omega) (show z + dz = _ by omega)
  have north := grown_read hparent (i := 1) (j := 0) (by omega) (by omega) hdx hdz
    (show x + dx = _ by omega) (show z + dz - 1 = _ by omega)
  have east := grown_read hparent (i := 2) (j := 1) (by omega) (by omega) hdx hdz
    (show x + dx + 1 = _ by omega) (show z + dz = _ by omega)
  have west := grown_read hparent (i := 0) (j := 1) (by omega) (by omega) hdx hdz
    (show x + dx - 1 = _ by omega) (show z + dz = _ by omega)
  have south := grown_read hparent (i := 1) (j := 2) (by omega) (by omega) hdx hdz
    (show x + dx = _ by omega) (show z + dz + 1 = _ by omega)
  dsimp only [Nat.add_zero] at north west ⊢
  rw [center, north, east, west, south, addCoord_of_fits hxw hdx, addCoord_of_fits hzh hdz]
  rfl

theorem cornerArea_tabulates
    (project : Int32 → Int32 → Int32 → Int32 → Int32 → Int → Int → Int32) :
    Tabulates (cornerCell cell project) x z w h (cornerArea parent x z w h project) := by
  obtain ⟨hxw, hzh⟩ := grown_fits hx hz
  unfold cornerArea
  rw [wrapI32_of_fits (by omega) hx, wrapI32_of_fits (by omega) hz]
  refine (fillGrid_shows w h 0 _).congr fun dx dz hdx hdz => ?_
  have nw := grown_read hparent (i := 0) (j := 0) (by omega) (by omega) hdx hdz
    (show x + dx - 1 = _ by omega) (show z + dz - 1 = _ by omega)
  have ne := grown_read hparent (i := 2) (j := 0) (by omega) (by omega) hdx hdz
    (show x + dx + 1 = _ by omega) (show z + dz - 1 = _ by omega)
  have sw := grown_read hparent (i := 0) (j := 2) (by omega) (by omega) hdx hdz
    (show x + dx - 1 = _ by omega) (show z + dz + 1 = _ by omega)
  have se := grown_read hparent (i := 2) (j := 2) (by omega) (by omega) hdx hdz
    (show x + dx + 1 = _ by omega) (show z + dz + 1 = _ by omega)
  have center := grown_read hparent (i := 1) (j := 1) (by omega) (by omega) hdx hdz
    (show x + dx = _ by omega) (show z + dz = _ by omega)
  dsimp only [Nat.add_zero] at nw ne sw ⊢
  rw [nw, ne, sw, se, center, addCoord_of_fits hxw hdx, addCoord_of_fits hzh hdz]
  rfl

theorem addSnowArea_tabulates (random : LayerRandom) :
    Tabulates (fun x z => addSnowAt random (cell x z) x z) x z w h
      (addSnowArea random parent x z w h) := by
  obtain ⟨hxw, hzh⟩ := grown_fits hx hz
  unfold addSnowArea
  rw [wrapI32_of_fits (by omega) hx, wrapI32_of_fits (by omega) hz]
  refine (fillGrid_shows w h 0 _).congr fun dx dz hdx hdz => ?_
  have center := grown_read hparent (i := 1) (j := 1) (by omega) (by omega) hdx hdz
    (show x + dx = _ by omega) (show z + dz = _ by omega)
  dsimp only
  rw [center, addCoord_of_fits hxw hdx, addCoord_of_fits hzh hdz]

def hillsCell (random : LayerRandom) (parent noise : CellMap) : CellMap := fun x z =>
  regionHillsAt random (parent x z) (noise x z) (parent x (z - 1)) (parent (x + 1) z)
    (parent (x - 1) z) (parent x (z + 1)) x z

theorem regionHillsArea_tabulates (random : LayerRandom) {noiseCell : CellMap} {noise : Area}
    (hnoise : Tabulates noiseCell (x - 1) (z - 1) (w + 2) (h + 2)
      (noise (x - 1) (z - 1) (w + 2) (h + 2))) :
    Tabulates (hillsCell random cell noiseCell) x z w h
      (regionHillsArea random parent noise x z w h) := by
  obtain ⟨hxw, hzh⟩ := grown_fits hx hz
  unfold regionHillsArea
  rw [wrapI32_of_fits (by omega) hx, wrapI32_of_fits (by omega) hz]
  refine (fillGrid_shows w h 0 _).congr fun dx dz hdx hdz => ?_
  have center := grown_read hparent (i := 1) (j := 1) (by omega) (by omega) hdx hdz
    (show x + dx = _ by omega) (show z + dz = _ by omega)
  have hills := grown_read hnoise (i := 1) (j := 1) (by omega) (by omega) hdx hdz
    (show x + dx = _ by omega) (show z + dz = _ by omega)
  have north := grown_read hparent (i := 1) (j := 0) (by omega) (by omega) hdx hdz
    (show x + dx = _ by omega) (show z + dz - 1 = _ by omega)
  have east := grown_read hparent (i := 2) (j := 1) (by omega) (by omega) hdx hdz
    (show x + dx + 1 = _ by omega) (show z + dz = _ by omega)
  have west := grown_read hparent (i := 0) (j := 1) (by omega) (by omega) hdx hdz
    (show x + dx - 1 = _ by omega) (show z + dz = _ by omega)
  have south := grown_read hparent (i := 1) (j := 2) (by omega) (by omega) hdx hdz
    (show x + dx = _ by omega) (show z + dz + 1 = _ by omega)
  dsimp only [Nat.add_zero] at north west ⊢
  rw [center, hills, north, east, west, south, addCoord_of_fits hxw hdx, addCoord_of_fits hzh hdz]
  rfl

end Grown

theorem pointwise_tabulates (hx : FitsI32 x w) (hz : FitsI32 z h)
    (hparent : Tabulates cell x z w h (parent x z w h)) (project : Int32 → Int → Int → Int32) :
    Tabulates (fun x z => project (cell x z) x z) x z w h (pointwise parent x z w h project) := by
  refine shows_mapIdx hparent fun dx dz hdx hdz => ?_
  have hw : 0 < w := by omega
  rw [Nat.add_mul_mod_self_right, Nat.mod_eq_of_lt hdx, Nat.add_mul_div_right _ _ hw,
    Nat.div_eq_of_lt hdx, Nat.zero_add, addCoord_of_fits hx hdx, addCoord_of_fits hz hdz]

theorem riverMixerArea_tabulates {riverCell : CellMap} {rivers : Area}
    (hparent : Tabulates cell x z w h (parent x z w h))
    (hrivers : Tabulates riverCell x z w h (rivers x z w h)) :
    Tabulates (fun x z => riverMixerAt (cell x z) (riverCell x z)) x z w h
      (riverMixerArea parent rivers x z w h) :=
  shows_zipWith hparent hrivers

def islandCell (random : LayerRandom) : CellMap := fun x z =>
  if x = 0 ∧ z = 0 then climateWarm else islandAt random x z

theorem islandArea_tabulates (hx : FitsI32 x w) (hz : FitsI32 z h) (random : LayerRandom) :
    Tabulates (islandCell random) x z w h (islandArea random x z w h) := by
  have hfill : Tabulates (islandAt random) x z w h
      (fillGrid w h 0 fun dx dz => islandAt random (addCoord x dx) (addCoord z dz)) := by
    refine (fillGrid_shows w h 0 _).congr fun dx dz hdx hdz => ?_
    rw [addCoord_of_fits hx hdx, addCoord_of_fits hz hdz]
  unfold islandArea
  dsimp only
  split
  · next horigin =>
    obtain ⟨hx0, hz0, hxw, hzh⟩ := horigin
    refine ⟨List.length_set.trans hfill.length, fun dx dz hdx hdz _ => ?_⟩
    rw [List.getElem?_set]
    split
    · next heq =>
      obtain ⟨rfl, rfl⟩ := cell_injective (by omega) hdx heq
      rw [if_pos (by rw [hfill.length]; exact cell_lt hdx hdz), islandCell, if_pos (by omega)]
    · next hne =>
      rw [hfill.cell dx dz hdx hdz trivial, islandCell, if_neg]
      rintro ⟨hxe, hze⟩
      exact hne (by congr 2 <;> omega)
  · next horigin =>
    refine hfill.congr fun dx dz hdx hdz => ?_
    rw [islandCell, if_neg]
    omega

end Cobblestone.Biome
