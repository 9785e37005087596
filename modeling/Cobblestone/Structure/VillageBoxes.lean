import Cobblestone.Structure.VillagePlanner
import Mathlib.Data.Finset.Card
import Mathlib.Data.Finset.Prod
import Mathlib.Data.Int.Interval

namespace Cobblestone.Structure

open Lib World

section Words

variable {a b : Int32}

theorem toInt_add_eq (hl : -2147483648 ≤ a.toInt + b.toInt) (hu : a.toInt + b.toInt < 2147483648) :
    (a + b).toInt = a.toInt + b.toInt := by
  rw [Int32.toInt_add, Int.bmod_eq_of_le] <;> omega

theorem toInt_sub_eq (hl : -2147483648 ≤ a.toInt - b.toInt) (hu : a.toInt - b.toInt < 2147483648) :
    (a - b).toInt = a.toInt - b.toInt := by
  rw [Int32.toInt_sub, Int.bmod_eq_of_le] <;> omega

theorem toInt_max (a b : Int32) : (max a b).toInt = max a.toInt b.toInt := by
  have hmax : max a b = if a ≤ b then b else a := rfl
  rw [hmax]
  split
  · next h => exact (max_eq_right (Int32.le_iff_toInt_le.mp h)).symm
  · next h => exact (max_eq_left (le_of_not_ge fun hle => h (Int32.le_iff_toInt_le.mpr hle))).symm

theorem toInt_abs (h : a.toInt ≠ -2147483648) : a.abs.toInt = a.toInt.natAbs := by
  have hbits : a.abs.toInt = a.toBitVec.abs.toInt := rfl
  have hval : a.toInt = a.toBitVec.toInt := rfl
  rw [hbits, hval]
  refine BitVec.toInt_abs_eq_natAbs_of_ne_intMin fun hmin => h ?_
  rw [hval, hmin]
  rfl

theorem toInt_toInt32 {u : UInt32} (h : u.toNat < 2147483648) : u.toInt32.toInt = u.toNat := by
  have hbits : u.toInt32.toInt = u.toBitVec.toInt := rfl
  rw [hbits, BitVec.toInt_eq_toNat_of_lt]
  · rfl
  · change 2 * u.toNat < 2 ^ 32
    omega

theorem nextInt_lt (random : MtRandom) {bound : UInt32} (h : bound ≠ 0) :
    (random.nextInt bound).1.toNat < bound.toNat := by
  change (_ % bound).toNat < _
  rw [UInt32.toNat_mod]
  refine Nat.mod_lt _ (Nat.pos_of_ne_zero fun h0 => h (UInt32.toNat_inj.mp h0))

end Words

namespace StructureBounds

variable {b c : StructureBounds} {x y z w h d : Int32} {o : StructureOrientation}

theorem intersects_eq_true : b.intersects c = true ↔
    c.x0.toInt ≤ b.x1.toInt ∧ b.x0.toInt ≤ c.x1.toInt ∧ c.z0.toInt ≤ b.z1.toInt ∧
      b.z0.toInt ≤ c.z1.toInt ∧ c.y0.toInt ≤ b.y1.toInt ∧ b.y0.toInt ≤ c.y1.toInt := by
  simp [intersects, Int32.lt_iff_toInt_lt]
  omega

-- The corner of a piece that it was placed by.
def foot (b : StructureBounds) : StructureOrientation → Int32 × Int32
  | .north => (b.x0, b.z1)
  | .south => (b.x0, b.z0)
  | .west => (b.x1, b.z0)
  | .east => (b.x0, b.z0)

theorem foot_orientBox : (orientBox x y z 0 0 0 w h d o).foot o = (x, z) := by
  cases o <;> simp [orientBox, foot]

-- Along which axis a piece of that orientation is as long as it is deep.
def alongZ : StructureOrientation → Bool
  | .north | .south => true
  | .west | .east => false

-- A box with the extent that is asked for, standing on its foot.
structure Spans (b : StructureBounds) (x z width depth : Int) : Prop where
  x_le : b.x0.toInt ≤ x
  le_x : x ≤ b.x1.toInt
  z_le : b.z0.toInt ≤ z
  le_z : z ≤ b.z1.toInt
  width : b.x1.toInt = b.x0.toInt + width - 1
  depth : b.z1.toInt = b.z0.toInt + depth - 1

variable {w' d' : Int}

theorem toInt_far {a s : Int32} (hs : 1 ≤ s.toInt ∧ s.toInt ≤ 35)
    (ha : a.toInt + 35 < 2147483648) : (a + s - 1).toInt = a.toInt + s.toInt - 1 := by
  have hle := Int32.le_toInt a
  have hone : (1 : Int32).toInt = 1 := rfl
  have hsum : (a + s).toInt = a.toInt + s.toInt := toInt_add_eq (by omega) (by omega)
  rw [toInt_sub_eq (by omega) (by omega), hsum, hone]

theorem toInt_back {a s : Int32} (hs : 1 ≤ s.toInt ∧ s.toInt ≤ 35)
    (ha : -2147483648 ≤ a.toInt - 35) : (a - s + 1).toInt = a.toInt - s.toInt + 1 := by
  have hlt := Int32.toInt_lt a
  have hone : (1 : Int32).toInt = 1 := rfl
  have hdiff : (a - s).toInt = a.toInt - s.toInt := toInt_sub_eq (by omega) (by omega)
  rw [toInt_add_eq (by omega) (by omega), hdiff, hone]

theorem toInt_span {a c : Int32} (hl : a.toInt ≤ c.toInt) (hu : c.toInt ≤ a.toInt + 34) :
    (c - a + 1).toInt = c.toInt - a.toInt + 1 := by
  have hone : (1 : Int32).toInt = 1 := rfl
  have hdiff : (c - a).toInt = c.toInt - a.toInt := toInt_sub_eq (by omega) (by omega)
  rw [toInt_add_eq (by omega) (by omega), hdiff, hone]

-- Room for a piece on every side of a coordinate.
def Room (a : Int32) : Prop := -2147483648 ≤ a.toInt - 35 ∧ a.toInt + 35 < 2147483648

theorem orientBox_spans (hx : Room x) (hz : Room z) (hw : 1 ≤ w.toInt ∧ w.toInt ≤ 35)
    (hd : 1 ≤ d.toInt ∧ d.toInt ≤ 35) : (orientBox x y z 0 0 0 w h d o).Spans x.toInt z.toInt
      (if alongZ o then w.toInt else d.toInt) (if alongZ o then d.toInt else w.toInt) := by
  have hxw := toInt_far hw hx.2
  have hzw := toInt_far hw hz.2
  have hxd := toInt_far hd hx.2
  have hzd := toInt_far hd hz.2
  have hxb := toInt_back hd hx.1
  have hzb := toInt_back hd hz.1
  cases o <;> simp only [orientBox, alongZ, Int32.add_zero, if_true, Bool.false_eq_true, if_false] <;>
    constructor <;> dsimp only <;> omega

-- The longer side of a road is its length.
theorem toInt_roadLength (hx : Room x) (hz : Room z) (hw : w.toInt = 3)
    (hd : 7 ≤ d.toInt ∧ d.toInt ≤ 35) (hb : b = orientBox x y z 0 0 0 w h d o) :
    (max b.xSpan b.zSpan).toInt = d.toInt := by
  have hspans := orientBox_spans (y := y) (h := h) (o := o) hx hz (by omega : 1 ≤ w.toInt ∧ w.toInt ≤ 35)
    (by omega : 1 ≤ d.toInt ∧ d.toInt ≤ 35)
  rw [← hb] at hspans
  obtain ⟨-, -, -, -, hwidth, hdepth⟩ := hspans
  rw [toInt_max, xSpan, zSpan]
  cases ho : alongZ o <;> simp only [ho, if_true, Bool.false_eq_true, if_false] at hwidth hdepth <;>
    rw [toInt_span (by omega) (by omega), toInt_span (by omega) (by omega)] <;> omega

end StructureBounds

open StructureBounds

def VillagePiecePlan.foot (piece : VillagePiecePlan) : Int32 × Int32 :=
  piece.bounds.foot piece.orientation

-- Within so many blocks of each other.
def Within (d : Int) (a b : Int32) : Prop := -d ≤ a.toInt - b.toInt ∧ a.toInt - b.toInt ≤ d

-- A piece of the village that starts at those bounds.
structure Stands (s : StructureBounds) (piece : VillagePiecePlan) : Prop where
  near_x : Within 112 piece.foot.1 s.x0
  near_z : Within 112 piece.foot.2 s.z0
  x_le : piece.bounds.x0.toInt ≤ piece.foot.1.toInt
  le_x : piece.foot.1.toInt ≤ piece.bounds.x1.toInt
  z_le : piece.bounds.z0.toInt ≤ piece.foot.2.toInt
  le_z : piece.foot.2.toInt ≤ piece.bounds.z1.toInt
  wide : piece.bounds.x1.toInt ≤ piece.bounds.x0.toInt + 34
  deep : piece.bounds.z1.toInt ≤ piece.bounds.z0.toInt + 34
  level : piece.bounds.y0 = 74
  top : 74 ≤ piece.bounds.y1.toInt
  road : piece.kind = .straightRoad → ∃ length, piece.extra = .straightRoad length ∧
    length.toInt = (if alongZ piece.orientation then piece.bounds.z1.toInt - piece.bounds.z0.toInt
      else piece.bounds.x1.toInt - piece.bounds.x0.toInt) + 1

-- A start with room around it: a foot at the very edge, and the longest road from there.
structure Roomy (s : StructureBounds) : Prop where
  x : -2147483648 ≤ s.x0.toInt - 147 ∧ s.x0.toInt + 147 < 2147483648
  z : -2147483648 ≤ s.z0.toInt - 147 ∧ s.z0.toInt + 147 < 2147483648

-- Where the planner ever tries to place something.
structure Near (s : StructureBounds) (site : Site) : Prop where
  x : Within 147 site.x s.x0
  z : Within 147 site.z s.z0
  y : site.y = 74

section Standing

variable {s b : StructureBounds} {p : Planner} {site : Site} {piece other : VillagePiecePlan}
  {offset : Int32}

theorem within_of_not_far {a c : Int32} (h : Within 147 a c)
    (hfar : ¬ maxOffsetFromStart < (a - c).abs) : Within 112 a c := by
  obtain ⟨hl, hu⟩ := h
  have hdiff : (a - c).toInt = a.toInt - c.toInt := toInt_sub_eq (by omega) (by omega)
  have hmost : maxOffsetFromStart.toInt = 112 := rfl
  rw [Int32.lt_iff_toInt_lt, toInt_abs (by omega), hdiff, hmost] at hfar
  exact ⟨by omega, by omega⟩

theorem room_of_within {a c : Int32} (h : Within 112 a c)
    (hc : -2147483648 ≤ c.toInt - 147 ∧ c.toInt + 147 < 2147483648) : Room a := by
  obtain ⟨hl, hu⟩ := h
  exact ⟨by omega, by omega⟩

theorem stands_of_clear (kind : VillagePieceKind) (depth height : Int32) (chest : Bool)
    (hs : Roomy p.startBounds) (hn : Near p.startBounds site) (hfar : ¬ p.tooFar site)
    {w h d : Int32} (hw : 1 ≤ w.toInt ∧ w.toInt ≤ 35) (hh : 1 ≤ h.toInt ∧ h.toInt ≤ 35)
    (hd : 1 ≤ d.toInt ∧ d.toInt ≤ 35) {extra : VillagePieceExtra}
    (hroad : kind = .straightRoad → ∃ length, extra = .straightRoad length ∧
      length.toInt = d.toInt) :
    Stands p.startBounds ⟨kind, orientBox site.x site.y site.z 0 0 0 w h d site.orientation,
      site.orientation, depth, extra, height, chest⟩ := by
  rw [Planner.tooFar, not_or] at hfar
  have hx := within_of_not_far hn.x hfar.1
  have hz := within_of_not_far hn.z hfar.2
  have hspans := orientBox_spans (y := site.y) (h := h) (o := site.orientation)
    (room_of_within hx hs.x) (room_of_within hz hs.z) hw hd
  have hfoot := foot_orientBox (x := site.x) (y := site.y) (z := site.z) (w := w) (h := h) (d := d)
    (o := site.orientation)
  have hy : (orientBox site.x site.y site.z 0 0 0 w h d site.orientation).y0 = site.y := by
    cases site.orientation <;> simp [orientBox]
  have hy' : (orientBox site.x site.y site.z 0 0 0 w h d site.orientation).y1 =
      site.y + h - 1 := by
    cases site.orientation <;> simp [orientBox]
  have hseventy : (74 : Int32).toInt = 74 := rfl
  generalize orientBox site.x site.y site.z 0 0 0 w h d site.orientation = box at *
  have hfx : (box.foot site.orientation).1 = site.x := by rw [hfoot]
  have hfz : (box.foot site.orientation).2 = site.z := by rw [hfoot]
  have hwide := hspans.width
  have hdeep := hspans.depth
  constructor <;> simp only [VillagePiecePlan.foot, hfx, hfz]
  case near_x => exact hx
  case near_z => exact hz
  case x_le => exact hspans.x_le
  case le_x => exact hspans.le_x
  case z_le => exact hspans.z_le
  case le_z => exact hspans.le_z
  case wide => split at hwide <;> omega
  case deep => split at hdeep <;> omega
  case level => rw [hy, hn.y]
  case top =>
    rw [hy', hn.y, toInt_far hh (by rw [hseventy]; omega), hseventy]
    omega
  case road =>
    intro hkind
    obtain ⟨length, hextra, hlength⟩ := hroad hkind
    refine ⟨length, hextra, ?_⟩
    cases ho : alongZ site.orientation <;>
      simp only [ho, if_true, Bool.false_eq_true, if_false] at * <;> omega

theorem within_add {a c v : Int32}
    (hc : -2147483648 ≤ c.toInt - 147 ∧ c.toInt + 147 < 2147483648)
    (hv : -147 ≤ a.toInt + v.toInt - c.toInt ∧ a.toInt + v.toInt - c.toInt ≤ 147) :
    Within 147 (a + v) c := by
  have hsum : (a + v).toInt = a.toInt + v.toInt := toInt_add_eq (by omega) (by omega)
  rw [Within, hsum]
  exact hv

theorem within_sub {a c v : Int32}
    (hc : -2147483648 ≤ c.toInt - 147 ∧ c.toInt + 147 < 2147483648)
    (hv : -147 ≤ a.toInt - v.toInt - c.toInt ∧ a.toInt - v.toInt - c.toInt ≤ 147) :
    Within 147 (a - v) c := by
  have hdiff : (a - v).toInt = a.toInt - v.toInt := toInt_sub_eq (by omega) (by omega)
  rw [Within, hdiff]
  exact hv

-- How far the sides of a standing piece are from the start.
structure Sides (s b : StructureBounds) : Prop where
  x0 : -146 ≤ b.x0.toInt - s.x0.toInt ∧ b.x0.toInt - s.x0.toInt ≤ 112
  x1 : -112 ≤ b.x1.toInt - s.x0.toInt ∧ b.x1.toInt - s.x0.toInt ≤ 146
  z0 : -146 ≤ b.z0.toInt - s.z0.toInt ∧ b.z0.toInt - s.z0.toInt ≤ 112
  z1 : -112 ≤ b.z1.toInt - s.z0.toInt ∧ b.z1.toInt - s.z0.toInt ≤ 146

-- What a house takes of the road that it stands by.
theorem Stands.span (h : Stands s piece) :
    1 ≤ (max piece.bounds.xSpan piece.bounds.zSpan).toInt ∧
      (max piece.bounds.xSpan piece.bounds.zSpan).toInt ≤ 35 := by
  have hx := h.x_le.trans h.le_x
  have hz := h.z_le.trans h.le_z
  have hwide := h.wide
  have hdeep := h.deep
  rw [toInt_max, xSpan, zSpan, toInt_span hx hwide, toInt_span hz hdeep]
  omega

theorem Stands.sides (h : Stands s piece) : Sides s piece.bounds := by
  obtain ⟨⟨hxl, hxu⟩, ⟨hzl, hzu⟩, hx0, hx1, hz0, hz1, hwide, hdeep, -, -, -⟩ := h
  constructor <;> constructor <;> omega

theorem Sides.within (h : Sides s b) : Within 147 b.x0 s.x0 ∧ Within 147 b.z0 s.z0 := by
  obtain ⟨hx0, -, hz0, -⟩ := h
  refine ⟨⟨?_, ?_⟩, ⟨?_, ?_⟩⟩ <;> omega

variable {length : Int32}

theorem one_toInt : (1 : Int32).toInt = 1 := rfl

theorem two_toInt : (2 : Int32).toInt = 2 := rfl

-- A place along a road that leaves room for its last eight blocks.
theorem near_house (hs : Roomy s) (h : Stands s piece) (hkind : piece.kind = .straightRoad)
    (hextra : piece.extra = .straightRoad length) (hl : 0 ≤ offset.toInt)
    (hu : offset.toInt < length.toInt - 8) :
    Near s (Planner.houseLeft piece offset) ∧ Near s (Planner.houseRight piece offset) := by
  obtain ⟨length', hextra', hlength⟩ := h.road hkind
  rw [hextra] at hextra'
  cases hextra'
  obtain ⟨hsx0, hsx1, hsz0, hsz1⟩ := h.sides
  have hone := one_toInt
  cases ho : piece.orientation <;> rw [ho] at hlength <;>
    simp only [alongZ, if_true, Bool.false_eq_true, if_false] at hlength <;>
    simp only [Planner.houseLeft, Planner.houseRight, ho]
  case north | south =>
    have hz := within_add (a := piece.bounds.z0) (v := offset) hs.z ⟨by omega, by omega⟩
    exact ⟨⟨within_sub hs.x ⟨by omega, by omega⟩, hz, h.level⟩,
      ⟨within_add hs.x ⟨by omega, by omega⟩, hz, h.level⟩⟩
  case west | east =>
    have hx := within_add (a := piece.bounds.x0) (v := offset) hs.x ⟨by omega, by omega⟩
    exact ⟨⟨hx, within_sub hs.z ⟨by omega, by omega⟩, h.level⟩,
      ⟨hx, within_add hs.z ⟨by omega, by omega⟩, h.level⟩⟩

theorem near_branch (hs : Roomy s) (h : Stands s piece) :
    Near s (Planner.roadLeft piece) ∧ Near s (Planner.roadRight piece) := by
  have hsides := h.sides
  obtain ⟨hx0, hz0⟩ := hsides.within
  obtain ⟨hsx0, hsx1, hsz0, hsz1⟩ := hsides
  have hone := one_toInt
  have htwo := two_toInt
  have hwest := within_sub (a := piece.bounds.x0) (v := 1) hs.x ⟨by omega, by omega⟩
  have heast := within_add (a := piece.bounds.x1) (v := 1) hs.x ⟨by omega, by omega⟩
  have hnorth := within_sub (a := piece.bounds.z0) (v := 1) hs.z ⟨by omega, by omega⟩
  have hsouth := within_add (a := piece.bounds.z1) (v := 1) hs.z ⟨by omega, by omega⟩
  cases ho : piece.orientation <;> simp only [Planner.roadLeft, Planner.roadRight, ho]
  case north => exact ⟨⟨hwest, hz0, h.level⟩, ⟨heast, hz0, h.level⟩⟩
  case south =>
    have hz := within_sub (a := piece.bounds.z1) (v := 2) hs.z ⟨by omega, by omega⟩
    exact ⟨⟨hwest, hz, h.level⟩, ⟨heast, hz, h.level⟩⟩
  case east =>
    have hx := within_sub (a := piece.bounds.x1) (v := 2) hs.x ⟨by omega, by omega⟩
    exact ⟨⟨hx, hnorth, h.level⟩, ⟨hx, hsouth, h.level⟩⟩
  case west => exact ⟨⟨hx0, hnorth, h.level⟩, ⟨hx0, hsouth, h.level⟩⟩

-- The column over its foot belongs to a standing piece alone.
theorem Stands.foot_ne (h : Stands s piece) (k : Stands s other)
    (hapart : piece.bounds.intersects other.bounds = false) : piece.foot ≠ other.foot := by
  intro hfoot
  have hx : piece.foot.1.toInt = other.foot.1.toInt := by rw [hfoot]
  have hz : piece.foot.2.toInt = other.foot.2.toInt := by rw [hfoot]
  refine absurd hapart (Bool.not_eq_false _ ▸ intersects_eq_true.mpr ?_)
  have hlevel : (74 : Int32).toInt = 74 := rfl
  have hl := h.level
  have kl := k.level
  have ht := h.top
  have kt := k.top
  have hxl := h.x_le
  have hxu := h.le_x
  have hzl := h.z_le
  have hzu := h.le_z
  have kxl := k.x_le
  have kxu := k.le_x
  have kzl := k.z_le
  have kzu := k.le_z
  rw [hl, kl, hlevel]
  refine ⟨?_, ?_, ?_, ?_, ?_, ?_⟩ <;> omega

theorem intersects_comm {b c : StructureBounds} : b.intersects c = c.intersects b := by
  rw [Bool.eq_iff_iff, intersects_eq_true, intersects_eq_true]
  omega

end Standing

-- So many feet there can be at all: one for each column of the square.
def feetLimit : Nat := 225 * 225

theorem length_le_of_stands {s : StructureBounds} {pieces : List VillagePiecePlan}
    (h : ∀ piece ∈ pieces, Stands s piece)
    (hapart : pieces.Pairwise fun a b => a.bounds.intersects b.bounds = false) :
    pieces.length ≤ feetLimit := by
  let column (piece : VillagePiecePlan) : Int × Int := (piece.foot.1.toInt, piece.foot.2.toInt)
  have hnodup : (pieces.map column).Nodup := by
    refine List.pairwise_map.mpr (hapart.imp_of_mem fun ha hb hab heq => ?_)
    refine (h _ ha).foot_ne (h _ hb) hab ?_
    simp only [column, Prod.mk.injEq] at heq
    exact Prod.ext (Int32.toInt_inj.mp heq.1) (Int32.toInt_inj.mp heq.2)
  have hsquare : (pieces.map column).toFinset ⊆
      Finset.Icc (s.x0.toInt - 112) (s.x0.toInt + 112) ×ˢ
        Finset.Icc (s.z0.toInt - 112) (s.z0.toInt + 112) := by
    intro c hc
    obtain ⟨piece, hpiece, rfl⟩ := List.mem_map.mp (List.mem_toFinset.mp hc)
    have hx := (h piece hpiece).near_x
    have hz := (h piece hpiece).near_z
    rw [Within] at hx hz
    simp only [Finset.mem_product, Finset.mem_Icc, column]
    omega
  have hcard := Finset.card_le_card hsquare
  rw [List.toFinset_card_of_nodup hnodup, List.length_map, Finset.card_product, Int.card_Icc,
    Int.card_Icc] at hcard
  have hside (a : Int) : (a + 112 + 1 - (a - 112)).toNat = 225 := by omega
  rwa [hside, hside] at hcard

end Cobblestone.Structure
