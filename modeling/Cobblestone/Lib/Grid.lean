import Mathlib.Data.List.Basic
import Mathlib.Tactic

namespace Lib

variable {α β σ : Type}

def forRange (n : Nat) (init : σ) (body : σ → Nat → σ) : σ := (List.range n).foldl body init

theorem forRange_zero (init : σ) (body : σ → Nat → σ) : forRange 0 init body = init := rfl

theorem forRange_succ (n : Nat) (init : σ) (body : σ → Nat → σ) :
    forRange (n + 1) init body = body (forRange n init body) n := by
  rw [forRange, List.range_succ, List.foldl_append]
  rfl

theorem forRange_invariant (P : Nat → σ → Prop) {n : Nat} {init : σ} {body : σ → Nat → σ}
    (hinit : P 0 init) (hbody : ∀ i s, i < n → P i s → P (i + 1) (body s i)) :
    P n (forRange n init body) := by
  induction n with
  | zero => exact hinit
  | succ n ih =>
    rw [forRange_succ]
    exact hbody n _ (Nat.lt_succ_self n) (ih fun i s hi => hbody i s (Nat.lt_succ_of_lt hi))

theorem cell_lt {w h dx dz : Nat} (hx : dx < w) (hz : dz < h) : dx + dz * w < w * h := by
  have hmul : (dz + 1) * w ≤ h * w := Nat.mul_le_mul_right w hz
  rw [Nat.add_mul, Nat.one_mul, Nat.mul_comm h] at hmul
  omega

theorem cell_injective {w dx dz dx' dz' : Nat} (hx : dx < w) (hx' : dx' < w)
    (h : dx + dz * w = dx' + dz' * w) : dx = dx' ∧ dz = dz' := by
  have hw : 0 < w := Nat.lt_of_le_of_lt (Nat.zero_le _) hx
  have hz : dz = dz' := by
    have hdiv := congrArg (· / w) h
    simpa [Nat.add_mul_div_right _ _ hw, Nat.div_eq_of_lt hx, Nat.div_eq_of_lt hx'] using hdiv
  subst hz
  exact ⟨by omega, rfl⟩

-- a row-major `w` by `h` sheet, each cell in `done` already holding its value
structure Painted (w h : Nat) (value : Nat → Nat → α) (done : Nat → Nat → Prop) (out : List α) :
    Prop where
  length : out.length = w * h
  cell : ∀ dx dz, dx < w → dz < h → done dx dz → out[dx + dz * w]? = some (value dx dz)

abbrev Shows (w h : Nat) (value : Nat → Nat → α) (out : List α) : Prop :=
  Painted w h value (fun _ _ => True) out

namespace Painted

variable {w h : Nat} {value : Nat → Nat → α} {done done' : Nat → Nat → Prop} {out : List α}

theorem blank (w h : Nat) (value : Nat → Nat → α) (a : α) :
    Painted w h value (fun _ _ => False) (List.replicate (w * h) a) :=
  ⟨List.length_replicate, fun _ _ _ _ hf => hf.elim⟩

theorem mono (hp : Painted w h value done out)
    (hd : ∀ dx dz, dx < w → dz < h → done' dx dz → done dx dz) : Painted w h value done' out :=
  ⟨hp.length, fun dx dz hx hz hdone => hp.cell dx dz hx hz (hd dx dz hx hz hdone)⟩

theorem congr {value' : Nat → Nat → α} (hp : Painted w h value done out)
    (hv : ∀ dx dz, dx < w → dz < h → value dx dz = value' dx dz) : Painted w h value' done out :=
  ⟨hp.length, fun dx dz hx hz hdone => hv dx dz hx hz ▸ hp.cell dx dz hx hz hdone⟩

theorem set (hp : Painted w h value done out) {dx dz : Nat} (hx : dx < w) (hz : dz < h) {a : α}
    (ha : a = value dx dz) :
    Painted w h value (fun x z => done x z ∨ (x = dx ∧ z = dz)) (out.set (dx + dz * w) a) := by
  refine ⟨List.length_set.trans hp.length, fun x z hx' hz' hdone => ?_⟩
  rw [List.getElem?_set]
  split
  · next heq =>
    obtain ⟨rfl, rfl⟩ := cell_injective hx hx' heq
    rw [if_pos (by rw [hp.length]; exact cell_lt hx hz), ha]
  · next hne =>
    rcases hdone with hdone | ⟨rfl, rfl⟩
    · exact hp.cell x z hx' hz' hdone
    · exact absurd rfl hne

theorem getD (hp : Shows w h value out) {dx dz : Nat} (hx : dx < w) (hz : dz < h) (a : α) :
    out.getD (dx + dz * w) a = value dx dz := by
  rw [List.getD_eq_getElem?_getD, hp.cell dx dz hx hz trivial, Option.getD_some]

end Painted

def fillGrid (w h : Nat) (zero : α) (value : Nat → Nat → α) : List α :=
  forRange h (List.replicate (w * h) zero) fun out dz =>
    forRange w out fun out dx => out.set (dx + dz * w) (value dx dz)

theorem fillGrid_shows (w h : Nat) (zero : α) (value : Nat → Nat → α) :
    Shows w h value (fillGrid w h zero value) := by
  have hrows : Painted w h value (fun _ z => z < h) (fillGrid w h zero value) := by
    refine forRange_invariant (fun k out => Painted w h value (fun _ z => z < k) out) ?_ ?_
    · exact (Painted.blank w h value zero).mono fun _ _ _ _ hf => absurd hf (Nat.not_lt_zero _)
    · intro k out hk hout
      have hrow : Painted w h value (fun x z => z < k ∨ (z = k ∧ x < w))
          (forRange w out fun out dx => out.set (dx + k * w) (value dx k)) := by
        refine forRange_invariant
          (fun j out => Painted w h value (fun x z => z < k ∨ (z = k ∧ x < j)) out) ?_ ?_
        · exact hout.mono fun x z _ _ hd => hd.resolve_right fun he => absurd he.2 (Nat.not_lt_zero _)
        · intro j out hj hp
          refine (hp.set hj hk rfl).mono fun x z _ _ hd => ?_
          omega
      exact hrow.mono fun x z hx _ hd => by omega
  exact hrows.mono fun _ z _ hz _ => hz

theorem shows_mapIdx {w h : Nat} {value : Nat → Nat → α} {input : List α} {value' : Nat → Nat → β}
    {f : Nat → α → β} (hp : Shows w h value input)
    (hf : ∀ dx dz, dx < w → dz < h → f (dx + dz * w) (value dx dz) = value' dx dz) :
    Shows w h value' (input.mapIdx f) := by
  refine ⟨List.length_mapIdx.trans hp.length, fun dx dz hx hz _ => ?_⟩
  rw [List.getElem?_mapIdx, hp.cell dx dz hx hz trivial, Option.map_some, hf dx dz hx hz]

theorem shows_zipWith {w h : Nat} {value value' : Nat → Nat → α} {input input' : List α}
    {f : α → α → β} (hp : Shows w h value input) (hp' : Shows w h value' input') :
    Shows w h (fun dx dz => f (value dx dz) (value' dx dz)) (List.zipWith f input input') := by
  refine ⟨by rw [List.length_zipWith, hp.length, hp'.length, Nat.min_self], ?_⟩
  intro dx dz hx hz _
  rw [List.getElem?_zipWith, hp.cell dx dz hx hz trivial, hp'.cell dx dz hx hz trivial]

end Lib
