import Cobblestone.Biome.Cells

namespace Cobblestone.Biome

open Lib

variable {x z : Int} {w h : Nat}

theorem projectCell_painted {F : Nat → Nat → Int32} {done : Nat → Nat → Prop} {out : List Int32}
    {cellX cellZ : Int} {edge : Nat} {value : Nat → Nat → Int32} (hout : Painted w h F done out)
    (hvalue : ∀ lx lz dx dz : Nat, lx < edge → lz < edge → dx < w → dz < h →
      x + dx = cellX + lx → z + dz = cellZ + lz → value lx lz = F dx dz) :
    Painted w h F
      (fun dx dz => done dx dz ∨
        (cellX ≤ x + dx ∧ x + dx < cellX + edge ∧ cellZ ≤ z + dz ∧ z + dz < cellZ + edge))
      (projectCell out w h x z cellX cellZ edge value) := by
  let rows (k dx dz : Nat) : Prop := done dx dz ∨
    (cellX ≤ x + dx ∧ x + dx < cellX + edge ∧ cellZ ≤ z + dz ∧ z + dz < cellZ + k)
  refine forRange_invariant (fun k out => Painted w h F (rows k) out) ?_ ?_
  · refine hout.mono fun dx dz _ _ hd => hd.resolve_right ?_
    omega
  intro k out hk hrows
  dsimp only
  split
  · refine hrows.mono fun dx dz _ hdz hd => ?_
    rcases hd with hd | ⟨h1, h2, h3, h4⟩
    · exact .inl hd
    · exact .inr ⟨h1, h2, h3, by omega⟩
  next hz =>
  let cells (j dx dz : Nat) : Prop := rows k dx dz ∨
    (cellX ≤ x + dx ∧ x + dx < cellX + j ∧ z + dz = cellZ + k)
  have hrow : Painted w h F (cells edge) (forRange edge out fun out localX =>
      if cellX - x + localX < 0 ∨ cellX - x + localX ≥ w then out
      else out.set ((cellX - x + localX).toNat + (cellZ - z + k).toNat * w) (value localX k)) := by
    refine forRange_invariant (fun j out => Painted w h F (cells j) out) ?_ ?_
    · refine hrows.mono fun dx dz _ _ hd => hd.resolve_right ?_
      omega
    intro j out hj hcells
    split
    · refine hcells.mono fun dx dz hdx _ hd => ?_
      rcases hd with hd | ⟨h1, h2, h3⟩
      · exact .inl hd
      · exact .inr ⟨h1, by omega, h3⟩
    · next hx =>
      have hdx : (cellX - x + j).toNat < w := by omega
      have hdz : (cellZ - z + k).toNat < h := by omega
      have hset := hcells.set hdx hdz (hvalue j k _ _ hj hk hdx hdz (by omega) (by omega))
      refine hset.mono fun dx dz _ _ hd => ?_
      rcases hd with hd | ⟨h1, h2, h3⟩
      · exact .inl (.inl hd)
      · rcases lt_or_ge (x + dx) (cellX + j) with hlt | hge
        · exact .inl (.inr ⟨h1, hlt, h3⟩)
        · exact .inr ⟨by omega, by omega⟩
  refine hrow.mono fun dx dz _ _ hd => ?_
  rcases hd with hd | ⟨h1, h2, h3, h4⟩
  · exact .inl (.inl hd)
  · rcases lt_or_ge (z + dz) (cellZ + k) with hlt | hge
    · exact .inl (.inr ⟨h1, h2, h3, hlt⟩)
    · exact .inr ⟨h1, h2, by omega⟩

theorem ediv_of_between {a q edge : Int} (hlo : q * edge ≤ a) (hhi : a < q * edge + edge) :
    a / edge = q := by
  have hedge : 0 < edge := by omega
  have hle : q ≤ a / edge := (Int.le_ediv_iff_mul_le hedge).mpr hlo
  have hlt : a / edge < q + 1 := by
    rw [Int.ediv_lt_iff_lt_mul hedge, Int.add_mul, Int.one_mul]
    exact hhi
  omega

theorem shiftRight_eq (a : Int) (shift : Nat) : a >>> shift = a / 2 ^ shift := by
  rw [Int.shiftRight_eq_div_pow]
  norm_cast

-- where the parent span starts and stops, in child coordinates
structure Covers (x : Int) (length : Nat) (p : Int) (span shift : Nat) : Prop where
  fits : FitsI32 p span
  low : -2147483648 ≤ p * 2 ^ shift
  first : p * 2 ^ shift ≤ x
  last : x + length ≤ (p + (span - 1 : Nat)) * 2 ^ shift
  high : (p + (span - 1 : Nat) - 1) * 2 ^ shift < 2147483648

theorem parentSpan_covers {length : Nat} (shift : Nat) (hl : 0 < length) (hfit : FitsI32 x length)
    (hshift : (2 ^ shift : Int) ∣ 2147483648)
    (hparent : FitsI32 (parentSpan x length shift).1 (parentSpan x length shift).2) :
    Covers x length (parentSpan x length shift).1 (parentSpan x length shift).2 shift := by
  obtain ⟨hlo, hhi⟩ := hfit
  have hedge : (0 : Int) < 2 ^ shift := by positivity
  obtain ⟨m, hm⟩ := hshift
  have hstart : x / 2 ^ shift * 2 ^ shift ≤ x := Int.ediv_mul_le x (by omega)
  have hfloor : -m ≤ x / 2 ^ shift := by
    rw [Int.le_ediv_iff_mul_le hedge, Int.neg_mul, Int.mul_comm, ← hm]
    omega
  have hle : x / 2 ^ shift ≤ (x + (length - 1 : Nat)) / 2 ^ shift :=
    Int.ediv_le_ediv hedge (by omega)
  have hlast : (x + (length - 1 : Nat)) / 2 ^ shift * 2 ^ shift ≤ x + (length - 1 : Nat) :=
    Int.ediv_mul_le _ (by omega)
  have hnext : x + (length - 1 : Nat) <
      (x + (length - 1 : Nat)) / 2 ^ shift * 2 ^ shift + 2 ^ shift := by
    have hmod := Int.emod_lt_of_pos (x + (length - 1 : Nat)) hedge
    have hsplit := Int.mul_ediv_add_emod (x + (length - 1 : Nat)) (2 ^ shift)
    rw [Int.mul_comm] at hsplit
    omega
  have hcount : x / 2 ^ shift + ((parentSpan x length shift).2 - 1 : Nat) =
      (x + (length - 1 : Nat)) / 2 ^ shift + 1 := by
    simp only [parentSpan, shiftRight_eq]
    omega
  have hmul : -m * 2 ^ shift ≤ x / 2 ^ shift * 2 ^ shift :=
    Int.mul_le_mul_of_nonneg_right hfloor hedge.le
  rw [Int.neg_mul, Int.mul_comm, ← hm] at hmul
  have hfirst : (parentSpan x length shift).1 = x / 2 ^ shift := by
    simp only [parentSpan, shiftRight_eq]
  refine ⟨hparent, ?_, ?_, ?_, ?_⟩
  · rwa [hfirst]
  · rwa [hfirst]
  · rw [hfirst, hcount, Int.add_mul, Int.one_mul]
    omega
  · rw [hfirst, hcount, Int.add_sub_cancel]
    omega

theorem cellOrigin_eq {p : Int} {length span shift j : Nat} (hcover : Covers x length p span shift)
    (hj : j < span - 1) : wrapI32 (addCoord p j * 2 ^ shift) = (p + j) * 2 ^ shift := by
  have hedge : (0 : Int) < 2 ^ shift := by positivity
  have hfirst : p * 2 ^ shift ≤ (p + j) * 2 ^ shift :=
    Int.mul_le_mul_of_nonneg_right (by omega) hedge.le
  have hlast : (p + j) * 2 ^ shift ≤ (p + (span - 1 : Nat) - 1) * 2 ^ shift :=
    Int.mul_le_mul_of_nonneg_right (by omega) hedge.le
  have hlow := hcover.low
  have hhigh := hcover.high
  rw [addCoord_of_fits hcover.fits (by omega), wrapI32_of_inI32 ⟨by omega, by omega⟩]

theorem enlargedCell_eq {cell : CellMap} {shift : Nat} {load : Int32 → Int32}
    {cellValue : CellValue} {px pz x' z' : Int} {lx lz : Nat} (hlx : lx < 2 ^ shift)
    (hlz : lz < 2 ^ shift) (hx : x' = px * 2 ^ shift + lx) (hz : z' = pz * 2 ^ shift + lz) :
    enlargedCell cell shift load cellValue x' z' =
      cellValue (px * 2 ^ shift) (pz * 2 ^ shift) (load (cell px pz)) (load (cell (px + 1) pz))
        (load (cell px (pz + 1))) (load (cell (px + 1) (pz + 1))) lx lz := by
  have hlx' : (lx : Int) < 2 ^ shift := by exact_mod_cast hlx
  have hlz' : (lz : Int) < 2 ^ shift := by exact_mod_cast hlz
  have hpx : x' >>> shift = px := by
    rw [shiftRight_eq]
    exact ediv_of_between (by omega) (by omega)
  have hpz : z' >>> shift = pz := by
    rw [shiftRight_eq]
    exact ediv_of_between (by omega) (by omega)
  have hrx : (x' - px * 2 ^ shift).toNat = lx := by omega
  have hrz : (z' - pz * 2 ^ shift).toNat = lz := by omega
  simp only [enlargedCell, hpx, hpz, hrx, hrz]

section Enlarge

variable {cell : CellMap} {parent : Area} {shift : Nat} {load : Int32 → Int32}
  {cellValue : CellValue} {px pz : Int} {pw ph k : Nat} {input out : List Int32}

-- painted up to column `j` of row `k`, the carried corners being that column's
structure Reached (cell : CellMap) (shift : Nat) (load : Int32 → Int32) (cellValue : CellValue)
    (x z : Int) (w h : Nat) (px pz : Int) (k j : Nat) (state : List Int32 × Int32 × Int32) :
    Prop where
  painted : Painted w h (fun dx dz => enlargedCell cell shift load cellValue (x + dx) (z + dz))
    (fun dx dz => z + dz < (pz + k) * 2 ^ shift ∨
      (z + dz < (pz + k) * 2 ^ shift + 2 ^ shift ∧ x + dx < (px + j) * 2 ^ shift)) state.1
  upperLeft : state.2.1 = load (cell (px + j) (pz + k))
  lowerLeft : state.2.2 = load (cell (px + j) (pz + k + 1))

theorem enlargeStep_reached {j : Nat} {state : List Int32 × Int32 × Int32}
    (hcx : Covers x w px pw shift) (hcz : Covers z h pz ph shift)
    (hin : Tabulates cell px pz pw ph input) (hk : k < ph - 1) (hj : j < pw - 1)
    (hs : Reached cell shift load cellValue x z w h px pz k j state) :
    Reached cell shift load cellValue x z w h px pz k (j + 1)
      (enlargeStep input px pz pw shift load cellValue x z w h k state j) := by
  obtain ⟨out, upperLeft, lowerLeft⟩ := state
  obtain ⟨hpainted, rfl, rfl⟩ := hs
  have hedge : ((2 ^ shift : Nat) : Int) = 2 ^ shift := by norm_cast
  have hcolumn : (px + (j + 1 : Nat)) * (2 ^ shift : Int) = (px + j) * 2 ^ shift + 2 ^ shift := by
    push_cast
    ring
  have hupper := hin.read (show j + 1 < pw by omega) (show k < ph by omega)
    (show px + j + 1 = _ by omega) (show pz + k = _ from rfl)
  have hlower := hin.read (show j + 1 < pw by omega) (show k + 1 < ph by omega)
    (show px + j + 1 = _ by omega) (show pz + k + 1 = _ by omega)
  have hcast : px + ((j + 1 : Nat) : Int) = px + j + 1 := by omega
  unfold enlargeStep
  rw [cellOrigin_eq hcx hj, cellOrigin_eq hcz hk, hupper, hlower]
  refine ⟨?_, by rw [hcast], by rw [hcast]⟩
  refine (projectCell_painted hpainted ?_).mono fun dx dz _ _ hd => ?_
  · intro lx lz dx dz hlx hlz _ _ hdx hdz
    exact (enlargedCell_eq hlx hlz hdx hdz).symm
  · rw [hedge]
    rw [hcolumn] at hd
    rcases hd with hd | ⟨hz, hx⟩
    · exact .inl (.inl hd)
    · rcases lt_or_ge (z + dz) ((pz + k) * 2 ^ shift) with hlt | hge
      · exact .inl (.inl hlt)
      rcases lt_or_ge (x + dx) ((px + j) * 2 ^ shift) with hlt' | hge'
      · exact .inl (.inr ⟨hz, hlt'⟩)
      · exact .inr ⟨hge', hx, hge, hz⟩

theorem enlargeRow_painted (hcx : Covers x w px pw shift) (hcz : Covers z h pz ph shift)
    (hin : Tabulates cell px pz pw ph input) (hk : k < ph - 1) (hpw : 0 < pw)
    (hout : Painted w h (fun dx dz => enlargedCell cell shift load cellValue (x + dx) (z + dz))
      (fun _ dz => z + dz < (pz + k) * 2 ^ shift) out) :
    Painted w h (fun dx dz => enlargedCell cell shift load cellValue (x + dx) (z + dz))
      (fun _ dz => z + dz < (pz + (k + 1 : Nat)) * 2 ^ shift)
      (enlargeRow input px pz pw shift load cellValue x z w h out k) := by
  have hrow : (pz + (k + 1 : Nat)) * (2 ^ shift : Int) = (pz + k) * 2 ^ shift + 2 ^ shift := by
    push_cast
    ring
  have hfirst := hcx.first
  have hlast := hcx.last
  have hstart : Reached cell shift load cellValue x z w h px pz k 0
      (out, load (input.getD (k * pw) 0), load (input.getD ((k + 1) * pw) 0)) := by
    have hupper := hin.read hpw (show k < ph by omega) (show px + (0 : Nat) = _ from rfl)
      (show pz + k = _ from rfl)
    have hlower := hin.read hpw (show k + 1 < ph by omega) (show px + (0 : Nat) = _ from rfl)
      (show pz + k + 1 = _ by omega)
    rw [Nat.zero_add] at hupper hlower
    refine ⟨hout.mono fun dx dz _ _ hd => hd.resolve_right ?_, congrArg load hupper,
      congrArg load hlower⟩
    rw [Nat.cast_zero, Int.add_zero]
    omega
  have hend := forRange_invariant (Reached cell shift load cellValue x z w h px pz k) hstart
    fun j s hj hs => enlargeStep_reached hcx hcz hin hk hj hs
  refine hend.painted.mono fun dx dz _ _ hd => ?_
  rw [hrow] at hd
  exact .inr ⟨hd, by omega⟩

theorem enlarge_tabulates (hw : 0 < w) (hh : 0 < h) (hx : FitsI32 x w) (hz : FitsI32 z h)
    (hshift : (2 ^ shift : Int) ∣ 2147483648)
    (hpx : FitsI32 (parentSpan x w shift).1 (parentSpan x w shift).2)
    (hpz : FitsI32 (parentSpan z h shift).1 (parentSpan z h shift).2)
    (hparent : Tabulates cell (parentSpan x w shift).1 (parentSpan z h shift).1
      (parentSpan x w shift).2 (parentSpan z h shift).2
      (parent (parentSpan x w shift).1 (parentSpan z h shift).1 (parentSpan x w shift).2
        (parentSpan z h shift).2)) :
    Tabulates (enlargedCell cell shift load cellValue) x z w h
      (enlarge parent shift load cellValue x z w h) := by
  have hcx := parentSpan_covers shift hw hx hshift hpx
  have hcz := parentSpan_covers shift hh hz hshift hpz
  unfold enlarge
  generalize parentSpan x w shift = spanX at *
  generalize parentSpan z h shift = spanZ at *
  obtain ⟨px, pw⟩ := spanX
  obtain ⟨pz, ph⟩ := spanZ
  have hfirst := hcz.first
  have hlast := hcz.last
  have hpw : 0 < pw := by
    have hx0 := hcx.first
    have hx1 := hcx.last
    dsimp only at hx0 hx1
    rcases Nat.eq_zero_or_pos pw with rfl | hpos
    · rw [Nat.zero_sub, Nat.cast_zero, Int.add_zero] at hx1
      omega
    · exact hpos
  dsimp only at hfirst hlast ⊢
  have hrows := forRange_invariant
    (fun k out => Painted w h (fun dx dz => enlargedCell cell shift load cellValue (x + dx) (z + dz))
      (fun _ dz => z + dz < (pz + k) * 2 ^ shift) out)
    ((Painted.blank w h _ 0).mono fun dx dz _ _ hd => ?_)
    fun k out hk hout => enlargeRow_painted hcx hcz hparent hk hpw hout
  · dsimp only at hrows
    exact hrows.mono fun dx dz _ hdz _ => by omega
  · rw [Nat.cast_zero, Int.add_zero] at hd
    omega

end Enlarge

end Cobblestone.Biome
