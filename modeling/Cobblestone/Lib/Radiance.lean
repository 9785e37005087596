import Mathlib.Algebra.BigOperators.Group.Finset.Basic
import Mathlib.Algebra.Order.BigOperators.Group.Finset
import Mathlib.Tactic

namespace Lib

open Finset

-- A cell shines by itself, and receives what its brightest neighbour holds less a loss.
structure Radiance (α : Type*) where
  source : α → Nat
  loss : α → Nat
  near : α → List α
  loss_pos : ∀ a, 0 < loss a

theorem le_foldr_max {α : Type*} {level : α → Nat} {n : Nat} (hn : 0 < n) (l : List α) :
    n ≤ (l.map level).foldr max 0 ↔ ∃ a ∈ l, n ≤ level a := by
  induction l with
  | nil => simp [hn.ne']
  | cons a l ih => rw [List.map_cons, List.foldr_cons, le_max_iff, ih, List.exists_mem_cons_iff]

theorem digits_lt_pow {B : Nat} {f : Nat → Nat} (hf : ∀ v, f v < B) (n : Nat) :
    ∑ v ∈ range n, f v * B ^ v < B ^ n := by
  induction n with
  | zero => simp
  | succ n ih =>
    rw [sum_range_succ]
    calc ∑ v ∈ range n, f v * B ^ v + f n * B ^ n
        < B ^ n + f n * B ^ n := by omega
      _ = (f n + 1) * B ^ n := by ring
      _ ≤ B * B ^ n := Nat.mul_le_mul_right _ (hf n)
      _ = B ^ (n + 1) := by ring

-- The highest digit that differs decides.
theorem digits_lt {B n : Nat} {f g : Nat → Nat} (top : Nat) (hf : ∀ v, f v < B) (htop : top < n)
    (hhigh : ∀ v, top < v → f v = g v) (hlt : f top < g top) :
    ∑ v ∈ range n, f v * B ^ v < ∑ v ∈ range n, g v * B ^ v := by
  induction n, htop using Nat.le_induction with
  | base =>
    rw [sum_range_succ, sum_range_succ]
    calc ∑ v ∈ range top, f v * B ^ v + f top * B ^ top
        < B ^ top + f top * B ^ top := by
          have := digits_lt_pow hf top
          omega
      _ = (f top + 1) * B ^ top := by ring
      _ ≤ g top * B ^ top := Nat.mul_le_mul_right _ hlt
      _ ≤ ∑ v ∈ range top, g v * B ^ v + g top * B ^ top := Nat.le_add_left _ _
  | succ n hn ih =>
    rw [sum_range_succ, sum_range_succ, hhigh n hn]
    omega

namespace Radiance

variable {α : Type*} (f : Radiance α) (level : α → Nat) (a : α)

def value : Nat := max (f.source a) (((f.near a).map level).foldr max 0 - f.loss a)

def Settled : Prop := level a = f.value level a

variable {f level a} {level' : α → Nat} {v bound : Nat}

theorem le_value_iff (hv : 0 < v) :
    v ≤ f.value level a ↔ v ≤ f.source a ∨ ∃ b ∈ f.near a, v + f.loss a ≤ level b := by
  have hsum : 0 < v + f.loss a := by omega
  have hsub (n : Nat) : v ≤ n - f.loss a ↔ v + f.loss a ≤ n := by omega
  rw [value, le_max_iff, hsub, le_foldr_max hsum]

theorem value_congr (h : ∀ b ∈ f.near a, level b = level' b) : f.value level a = f.value level' a := by
  rw [value, value, List.map_congr_left h]

theorem source_le_value : f.source a ≤ f.value level a := le_max_left _ _

theorem le_of_forall_pos {n m : Nat} (h : ∀ v, 0 < v → v ≤ n → v ≤ m) : n ≤ m := by
  cases n with
  | zero => exact Nat.zero_le m
  | succ n => exact h (n + 1) n.succ_pos le_rfl

theorem value_le {n : Nat} (hsource : f.source a ≤ n) (hnear : ∀ b ∈ f.near a, level b ≤ n) :
    f.value level a ≤ n := by
  refine le_of_forall_pos fun v hv hle => ?_
  rcases (le_value_iff hv).mp hle with h | ⟨b, hb, h⟩
  · exact h.trans hsource
  · have := hnear b hb
    omega

-- Two fields that shine alike wherever the depth is positive; one way changes it by one at most.
structure Alike (f g : Radiance α) (depth : α → Nat) : Prop where
  source : ∀ a, 0 < depth a → f.source a = g.source a
  loss : ∀ a, 0 < depth a → f.loss a = g.loss a
  near : ∀ a b, 0 < depth a → 0 < depth b → (b ∈ f.near a ↔ b ∈ g.near a)
  depth : ∀ a b, b ∈ f.near a ∨ b ∈ g.near a → depth a ≤ depth b + 1

namespace Alike

variable {g : Radiance α} {depth : α → Nat}

theorem refl (f : Radiance α) (n : Nat) : Alike f f fun _ => n :=
  ⟨fun _ _ => rfl, fun _ _ => rfl, fun _ _ _ _ => Iff.rfl, fun _ _ _ => by omega⟩

theorem symm (h : Alike f g depth) : Alike g f depth :=
  ⟨fun a ha => (h.source a ha).symm, fun a ha => (h.loss a ha).symm,
    fun a b ha hb => (h.near a b ha hb).symm, fun a b hab => h.depth a b hab.symm⟩

-- From the brightest level down: what holds a level got it from a cell that holds more.
theorem carries (h : Alike f g depth) (hf : ∀ a, 0 < depth a → f.Settled level a)
    (hg : ∀ a, 0 < depth a → g.Settled level' a) (hbound : ∀ a, level a ≤ bound) :
    ∀ k v a, bound < v + k → 0 < v → bound < v + depth a → v ≤ level a → v ≤ level' a := by
  intro k
  induction k with
  | zero =>
    intro v a hk _ _ hv
    have := hbound a
    omega
  | succ k ih =>
    intro v a hk hpos hdeep hv
    have hbright := hbound a
    have hin : 0 < depth a := by omega
    have hgain := f.loss_pos a
    rw [hg a hin, le_value_iff hpos]
    rw [hf a hin, le_value_iff hpos] at hv
    rcases hv with hsource | ⟨b, hb, hlevel⟩
    · exact .inl (h.source a hin ▸ hsource)
    · have hstep := h.depth a b (.inl hb)
      have hnear := hbound b
      refine .inr ⟨b, (h.near a b hin (by omega)).mp hb, ?_⟩
      rw [← h.loss a hin]
      exact ih (v + f.loss a) b (by omega) (by omega) (by omega) hlevel

theorem agree (h : Alike f g depth) (hf : ∀ a, 0 < depth a → f.Settled level a)
    (hg : ∀ a, 0 < depth a → g.Settled level' a) (hbound : ∀ a, level a ≤ bound)
    (hbound' : ∀ a, level' a ≤ bound) (a : α) (ha : bound < depth a) : level a = level' a := by
  apply le_antisymm
  · exact le_of_forall_pos fun v hv hle =>
      h.carries hf hg hbound (bound + 1) v a (by omega) hv (by omega) hle
  · exact le_of_forall_pos fun v hv hle =>
      h.symm.carries hg hf hbound' (bound + 1) v a (by omega) hv (by omega) hle

end Alike

theorem settled_unique (hf : ∀ a, f.Settled level a) (hg : ∀ a, f.Settled level' a)
    (hbound : ∀ a, level a ≤ bound) (hbound' : ∀ a, level' a ≤ bound) : level = level' :=
  funext fun a => (Alike.refl f (bound + 1)).agree (fun a _ => hf a) (fun a _ => hg a) hbound hbound'
    a (Nat.lt_succ_self bound)

-- A cell may still leave the level and come back to it while it holds it without ground.
def unrest (f : Radiance α) (level : α → Nat) (v : Nat) (a : α) : Nat :=
  if level a ≠ v then 1 else if v ≤ f.value level a then 0 else 2

def potential (f : Radiance α) (cells : Finset α) (bound : Nat) (level : α → Nat) : Nat :=
  ∑ v ∈ range (bound + 1), (∑ a ∈ cells, f.unrest level v a) * (2 * cells.card + 1) ^ v

theorem unrest_le : f.unrest level v a ≤ 2 := by
  rw [unrest]
  split_ifs <;> omega

section Update

variable [DecidableEq α] {p : α} {next : Nat}

theorem settled_relaxed (hp : p ∉ f.near p) :
    f.Settled (Function.update level p (f.value level p)) p := by
  rw [Settled, Function.update_self]
  refine value_congr fun b hb => (Function.update_of_ne (fun h => hp ?_) _ _).symm
  exact h ▸ hb

theorem settled_far (hne : a ≠ p) (hp : p ∉ f.near a) (h : f.Settled level a) :
    f.Settled (Function.update level p next) a := by
  rw [Settled, Function.update_of_ne hne, h]
  refine value_congr fun b hb => (Function.update_of_ne (fun h => hp ?_) _ _).symm
  exact h ▸ hb

-- A cell next to the one that changed is settled when it holds what light from there alone would
-- give, if its loss is the least or more than any level.
theorem settled_guessed (hne : a ≠ p) (hp : p ∈ f.near a) (h : f.Settled level a)
    (hguess : level a = max (next - 1) (f.source a)) (hloss : f.loss a = 1 ∨ bound ≤ f.loss a)
    (hbound : ∀ b ∈ f.near a, level b ≤ bound) :
    f.Settled (Function.update level p next) a := by
  rw [Settled, Function.update_of_ne hne]
  apply le_antisymm
  · rcases hloss with hone | hall
    · rw [hguess, max_le_iff]
      refine ⟨le_of_forall_pos fun v hv hle => ?_, source_le_value⟩
      refine (le_value_iff hv).mpr (.inr ⟨p, hp, ?_⟩)
      rw [Function.update_self, hone]
      omega
    · rw [h]
      refine le_of_forall_pos fun v hv hle => ?_
      rcases (le_value_iff hv).mp hle with hsource | ⟨b, hb, hlevel⟩
      · exact hsource.trans source_le_value
      · have := hbound b hb
        omega
  · refine le_of_forall_pos fun v hv hle => ?_
    rcases (le_value_iff hv).mp hle with hsource | ⟨b, hb, hlevel⟩
    · rw [h]
      exact hsource.trans source_le_value
    · have hgain := f.loss_pos a
      by_cases hbp : b = p
      · subst hbp
        rw [Function.update_self] at hlevel
        rw [hguess]
        exact le_max_of_le_left (by omega)
      · rw [Function.update_of_ne hbp] at hlevel
        rw [h]
        exact (le_value_iff hv).mpr (.inr ⟨b, hb, hlevel⟩)

theorem le_value_update_iff (hold : level p ≤ v) (hnew : next ≤ v) (hv : 0 < v) :
    v ≤ f.value (Function.update level p next) a ↔ v ≤ f.value level a := by
  have hgain := f.loss_pos a
  rw [le_value_iff hv, le_value_iff hv]
  refine or_congr Iff.rfl (exists_congr fun b => and_congr Iff.rfl ?_)
  by_cases hb : b = p
  · subst hb
    rw [Function.update_self]
    omega
  · rw [Function.update_of_ne hb]

theorem unrest_update_of_ne (hold : level p ≤ v) (hnew : next ≤ v) (hv : 0 < v) (hne : a ≠ p) :
    f.unrest (Function.update level p next) v a = f.unrest level v a := by
  rw [unrest, unrest, Function.update_of_ne hne]
  simp only [le_value_update_iff hold hnew hv]

theorem unrest_relaxed_lt (hne : f.value level p ≠ level p)
    (hv : v = max (level p) (f.value level p)) :
    f.unrest (Function.update level p (f.value level p)) v p < f.unrest level v p := by
  rw [unrest, unrest, Function.update_self]
  rcases lt_or_gt_of_ne hne with hfall | hrise
  · rw [if_pos (by omega), if_neg (by omega), if_neg (by omega)]
    exact Nat.one_lt_two
  · have hground : v ≤ f.value (Function.update level p (f.value level p)) p := by
      rw [le_value_update_iff (by omega) (by omega) (by omega)]
      omega
    rw [if_neg (by omega), if_pos hground, if_pos (by omega)]
    exact Nat.one_pos

-- The highest level that a change touches comes closer to rest, and none above it moves.
theorem potential_relaxed_lt {cells : Finset α} (hp : p ∈ cells)
    (hne : f.value level p ≠ level p) (hold : level p ≤ bound) (hnew : f.value level p ≤ bound) :
    f.potential cells bound (Function.update level p (f.value level p)) <
      f.potential cells bound level := by
  refine digits_lt (max (level p) (f.value level p)) (fun v => ?_) (by omega) ?_ ?_
  · calc ∑ a ∈ cells, f.unrest (Function.update level p (f.value level p)) v a
        ≤ ∑ _a ∈ cells, 2 := sum_le_sum fun a _ => unrest_le
      _ = 2 * cells.card := by rw [sum_const, smul_eq_mul, mul_comm]
      _ < 2 * cells.card + 1 := Nat.lt_succ_self _
  · intro v hv
    refine sum_congr rfl fun a _ => ?_
    by_cases ha : a = p
    · subst ha
      rw [unrest, unrest, Function.update_self, if_pos (by omega), if_pos (by omega)]
    · exact unrest_update_of_ne (by omega) (by omega) (by omega) ha
  · have hfall := unrest_relaxed_lt hne rfl
    refine sum_lt_sum (fun a _ => ?_) ⟨p, hp, hfall⟩
    by_cases ha : a = p
    · subst ha
      exact hfall.le
    · exact (unrest_update_of_ne (le_max_left _ _) (le_max_right _ _) (by omega) ha).le

end Update

end Radiance

end Lib
