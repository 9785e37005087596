import Mathlib.Data.Set.Finite.Lattice
import Mathlib.Order.OrderIsoNat
import Mathlib.Tactic

namespace Lib

-- How the cells of a basin lie: which one stands above a cell, and which ones beside it.
structure Basin (C : Type) where
  above : C → Option C
  near : C → C → Prop
  level : C → Int
  level_above : ∀ {c a}, above c = some a → level c < level a
  level_near : ∀ {c n}, near c n → level n = level c

-- The depths of a fluid: how far a depth is from its source, what falls from it, what a cell is
-- fed at some distance from the source, and what is thrown into an empty cell.
structure Fluid (V : Type) where
  head : V → Nat
  falls : V → V
  fed : Nat → Option V
  thrown : V → V
  head_fed : ∀ {h v}, fed h = some v → h < head v
  fed_of_le : ∀ {h k}, h ≤ k → (fed k).isSome → (fed h).isSome
  head_thrown : ∀ {v}, (fed (head v)).isSome → head v < head (thrown v)

namespace Settling

variable {C V : Type} (basin : Basin C) (fluid : Fluid V)

-- What a wet cell comes to: the one above has precedence over the best of those beside it.
inductive Settles (x : C → Option V) (c : C) : Option V → Prop
  | falls {a : C} {k : V} (ha : basin.above c = some a) (hk : x a = some k) :
      Settles x c (some (fluid.falls k))
  | fed {n : C} {k v : V} (ha : ∀ a, basin.above c = some a → x a = none) (hn : basin.near c n)
      (hk : x n = some k)
      (hmin : ∀ m l, basin.near c m → x m = some l → fluid.head k ≤ fluid.head l)
      (hv : fluid.fed (fluid.head k) = some v) : Settles x c (some v)
  | dries (ha : ∀ a, basin.above c = some a → x a = none)
      (hd : ∀ n k, basin.near c n → x n = some k → fluid.fed (fluid.head k) = none) :
      Settles x c none

inductive Fills (x : C → Option V) (c : C) : V → Prop
  | falls {a : C} {k : V} (ha : basin.above c = some a) (hk : x a = some k) :
      Fills x c (fluid.falls k)
  | spreads {n : C} {k : V} (hn : basin.near c n) (hk : x n = some k)
      (hf : (fluid.fed (fluid.head k)).isSome) : Fills x c (fluid.thrown k)

variable [DecidableEq C]

-- One change: a wet cell settles, an empty one is filled, or a cell dries up and spills whatever
-- it likes into the empty one below it.
inductive Flow (x y : C → Option V) : Prop
  | settles {c : C} {d : V} {v : Option V} (hc : x c = some d) (hs : Settles basin fluid x c v)
      (hne : v ≠ some d) (hy : y = Function.update x c v)
  | fills {c : C} {v : V} (hc : x c = none) (hf : Fills basin fluid x c v)
      (hy : y = Function.update x c (some v))
  | spills {a c : C} {d v : V} (ha : basin.above c = some a) (hd : x a = some d)
      (hs : Settles basin fluid x a none) (hc : x c = none)
      (hy : y = Function.update (Function.update x a none) c (some v))

variable {basin fluid} {x y : C → Option V} {c : C}

theorem Flow.changes (h : Flow basin fluid x y) : ∃ c, y c ≠ x c := by
  cases h with
  | settles hc hs hne hy => exact ⟨_, by rw [hy, Function.update_self, hc]; exact hne⟩
  | fills hc hf hy => exact ⟨_, by rw [hy, Function.update_self, hc]; simp⟩
  | spills ha hd hs hc hy => exact ⟨_, by rw [hy, Function.update_self, hc]; simp⟩

-- A wet cell changes by settling; an empty one by being filled, unless the one above has changed.
theorem Flow.cell (h : Flow basin fluid x y) (hc : y c ≠ x c) :
    (∃ d, x c = some d ∧ Settles basin fluid x c (y c)) ∨
    (x c = none ∧ ∃ v, y c = some v ∧
      (Fills basin fluid x c v ∨ ∃ a, basin.above c = some a ∧ y a ≠ x a)) := by
  cases h with
  | @settles e d v he hs hne hy =>
    by_cases hce : c = e
    · subst hce
      rw [hy, Function.update_self]
      exact .inl ⟨d, he, hs⟩
    · rw [hy, Function.update_of_ne hce] at hc
      exact (hc rfl).elim
  | @fills e v he hf hy =>
    by_cases hce : c = e
    · subst hce
      rw [hy, Function.update_self]
      exact .inr ⟨he, v, rfl, .inl hf⟩
    · rw [hy, Function.update_of_ne hce] at hc
      exact (hc rfl).elim
  | @spills a e d v ha hd hs he hy =>
    have hne : a ≠ e := by
      rintro rfl
      exact lt_irrefl _ (basin.level_above ha)
    by_cases hce : c = e
    · subst hce
      refine .inr ⟨he, v, by rw [hy, Function.update_self], .inr ⟨a, ha, ?_⟩⟩
      rw [hy, Function.update_of_ne hne, Function.update_self, hd]
      simp
    · by_cases hca : c = a
      · subst hca
        rw [hy, Function.update_of_ne hce, Function.update_self]
        exact .inl ⟨d, hd, hs⟩
      · rw [hy, Function.update_of_ne hce, Function.update_of_ne hca] at hc
        exact (hc rfl).elim

variable (basin fluid) in
-- Where a cell has its new depth from: the one above, or one beside it that is nearer the source.
inductive Rank (x y : C → Option V) (c : C) : Nat → Prop
  | above {a : C} {k : V} (ha : basin.above c = some a) (hk : x a = some k)
      (hy : y c = some (fluid.falls k)) : Rank x y c 0
  | near {n : C} {k v : V} (hn : basin.near c n) (hk : x n = some k)
      (hf : (fluid.fed (fluid.head k)).isSome) (hy : y c = some v)
      (hv : fluid.head k < fluid.head v) : Rank x y c (fluid.head k + 1)

omit [DecidableEq C] in
theorem Settles.of_above {v : Option V} (h : Settles basin fluid x c v) {a : C} {k : V}
    (ha : basin.above c = some a) (hk : x a = some k) : v = some (fluid.falls k) := by
  cases h with
  | falls ha' hk' =>
    rw [ha] at ha'
    cases ha'
    rw [hk] at hk'
    cases hk'
    rfl
  | fed ha' =>
    have := ha' a ha
    simp [hk] at this
  | dries ha' =>
    have := ha' a ha
    simp [hk] at this

omit [DecidableEq C] in
theorem Settles.rank {v : V} (h : Settles basin fluid x c (y c)) (hy : y c = some v) :
    ∃ r, Rank basin fluid x y c r := by
  rw [hy] at h
  cases h with
  | falls ha hk => exact ⟨_, .above ha hk hy⟩
  | fed ha hn hk hmin hv => exact ⟨_, .near hn hk (by simp [hv]) hy (fluid.head_fed hv)⟩

omit [DecidableEq C] in
theorem Fills.rank {v : V} (h : Fills basin fluid x c v) (hy : y c = some v) :
    ∃ r, Rank basin fluid x y c r := by
  cases h with
  | falls ha hk => exact ⟨_, .above ha hk hy⟩
  | spreads hn hk hf => exact ⟨_, .near hn hk hf hy (fluid.head_thrown hf)⟩

theorem Flow.rank (h : Flow basin fluid x y) (hc : y c ≠ x c) {v : V} (hy : y c = some v)
    (ha : ∀ a, basin.above c = some a → y a = x a) : ∃ r, Rank basin fluid x y c r := by
  rcases h.cell hc with ⟨d, -, hs⟩ | ⟨-, w, hw, hf | ⟨a, haa, hne⟩⟩
  · exact hs.rank hy
  · exact hf.rank hw
  · exact (hne (ha a haa)).elim

section

variable (basin fluid) in
-- A run of changes that comes back to where it was.
structure Cycle (x : Nat → C → Option V) (period : Nat) : Prop where
  flow : ∀ i, Flow basin fluid (x i) (x (i + 1))
  positive : 0 < period
  returns : ∀ i, x (i + period) = x i

variable {x : Nat → C → Option V} {period i j t : Nat}

theorem Cycle.returns_often (h : Cycle basin fluid x period) (k : Nat) :
    x (i + k * period) = x i := by
  induction k with
  | zero => rw [Nat.zero_mul, Nat.add_zero]
  | succ k ih => rw [Nat.succ_mul, ← Nat.add_assoc, h.returns, ih]

omit [DecidableEq C] in
theorem last_change (ht : x (t + 1) c ≠ x t c) (hj : t < j) :
    ∃ i, x (i + 1) c ≠ x i c ∧ x (i + 1) c = x j c := by
  induction j, hj using Nat.le_induction with
  | base => exact ⟨t, ht, rfl⟩
  | succ j hj ih =>
    by_cases hc : x (j + 1) c = x j c
    · obtain ⟨i, hi, hij⟩ := ih
      exact ⟨i, hi, hij.trans hc.symm⟩
    · exact ⟨j, hc, rfl⟩

-- In a cell that ever changes, every depth has come by a change.
theorem Cycle.assigned (h : Cycle basin fluid x period)
    (ht : x (t + 1) c ≠ x t c) (i : Nat) : ∃ j, x (j + 1) c ≠ x j c ∧ x (j + 1) c = x i c := by
  have hlate : t < i + (t + 1) * period := by
    have := Nat.le_mul_of_pos_right (t + 1) h.positive
    omega
  obtain ⟨j, hj, hji⟩ := last_change ht hlate
  exact ⟨j, hj, by rw [hji, h.returns_often]⟩

omit [DecidableEq C] in
theorem frozen (h : ∀ i, x (i + 1) c = x i c) (i : Nat) : x i c = x 0 c := by
  induction i with
  | zero => rfl
  | succ i ih => rw [h, ih]

variable (h : Cycle basin fluid x period) (L : Int)
  (hL : ∀ c i, x (i + 1) c ≠ x i c → basin.level c ≤ L)

omit [DecidableEq C] in
include hL in
-- Above the topmost level with a change nothing moves.
theorem above_still (hc : basin.level c = L) {a : C} (ha : basin.above c = some a) (i : Nat) :
    x (i + 1) a = x i a := by
  by_contra hne
  have := hL a i hne
  have := basin.level_above ha
  omega

include h hL in
theorem Cycle.rank (hc : basin.level c = L) (hi : x (i + 1) c ≠ x i c) {v : V}
    (hv : x (i + 1) c = some v) : ∃ r, Rank basin fluid (x i) (x (i + 1)) c r :=
  (h.flow i).rank hi hv fun _ ha => above_still L hL hc ha i

include h hL in
-- What falls into a cell of that level stays.
theorem Cycle.not_falls (hc : basin.level c = L) (hi : x (i + 1) c ≠ x i c) :
    ¬ Rank basin fluid (x i) (x (i + 1)) c 0 := by
  intro hr
  obtain ⟨ha, hk, hy⟩ := hr
  rename_i a k
  have habove (j : Nat) : x j a = some k := by
    have hstill := frozen fun j => above_still L hL hc ha j
    rw [hstill j, ← hstill i, hk]
  have hstays (j : Nat) (hj : i + 1 ≤ j) : x j c = some (fluid.falls k) := by
    induction j, hj using Nat.le_induction with
    | base => exact hy
    | succ j hj ih =>
      by_contra hne
      have hne' : x (j + 1) c ≠ x j c := by rwa [ih]
      rcases (h.flow j).cell hne' with ⟨d, -, hs⟩ | ⟨hnone, -⟩
      · exact hne (hs.of_above ha (habove j))
      · rw [ih] at hnone
        cases hnone
  have hround := hstays (i + period) (by have := h.positive; omega)
  rw [h.returns] at hround
  exact hi (hy.trans hround.symm)

variable {r : Nat} (hmin : ∀ c j, basin.level c = L → x (j + 1) c ≠ x j c →
  ∀ k, Rank basin fluid (x j) (x (j + 1)) c k → r ≤ k)

include h hL hmin in
-- The neighbor that the nearest change goes back to never changes itself.
theorem Cycle.source_still {n : C} {k : V} (hn : basin.level n = L) (hk : x i n = some k)
    (hr : r = fluid.head k + 1) (j : Nat) : x (j + 1) n = x j n := by
  by_contra hne
  obtain ⟨t, ht, hti⟩ := h.assigned hne i
  rw [hk] at hti
  obtain ⟨q, hq⟩ := h.rank L hL hn ht hti
  have hle := hmin n t hn ht q hq
  cases hq with
  | above => omega
  | near hn' hk' hf hy hv =>
    rw [hti] at hy
    cases hy
    omega

omit [DecidableEq C] in
include hmin in
-- Beside it, a wet cell that changes comes to what it feeds.
theorem settles_fed (hc : basin.level c = L) (hj : x (j + 1) c ≠ x j c) {n : C} {k w : V}
    (hn : basin.near c n) (hk : x j n = some k) (hr : r = fluid.head k + 1)
    (hw : fluid.fed (fluid.head k) = some w) (hs : Settles basin fluid (x j) c (x (j + 1) c)) :
    x (j + 1) c = some w := by
  generalize hv : x (j + 1) c = v at hs
  cases hs with
  | falls ha hk' =>
    have := hmin c j hc hj 0 (.above ha hk' hv)
    omega
  | fed ha hn' hk' hbest hv' =>
    have hle := hmin c j hc hj _ (.near hn' hk' (by simp [hv']) hv (fluid.head_fed hv'))
    have hge := hbest n k hn hk
    have heq : fluid.head k = fluid.head _ := le_antisymm (by omega) hge
    rw [← hv', ← heq, hw]
  | dries ha hd =>
    have := hd n k hn hk
    simp [hw] at this

include h hL hmin in
-- Once such a cell has changed, it has at most one more depth to come to, and not the one before.
theorem Cycle.not_near (hc : basin.level c = L) (hi : x (i + 1) c ≠ x i c) {n : C} {k v : V}
    (hn : basin.near c n) (hk : x i n = some k) (hf : (fluid.fed (fluid.head k)).isSome)
    (hv : x (i + 1) c = some v) : r ≠ fluid.head k + 1 := by
  intro hr
  obtain ⟨w, hw⟩ := Option.isSome_iff_exists.mp hf
  have hnL : basin.level n = L := (basin.level_near hn).trans hc
  have hsource (j : Nat) : x j n = some k := by
    have hstill := frozen fun j => h.source_still L hL hmin hnL hk hr j
    rw [hstill j, ← hstill i, hk]
  have hwet (j : Nat) (hj : i + 1 ≤ j) : x j c = some v ∨ x j c = some w := by
    induction j, hj using Nat.le_induction with
    | base => exact .inl hv
    | succ j hj ih =>
      by_cases hne : x (j + 1) c = x j c
      · rwa [hne]
      · rcases (h.flow j).cell hne with ⟨d, -, hs⟩ | ⟨hnone, -⟩
        · exact .inr (settles_fed L hmin hc hne hn (hsource j) hr hw hs)
        · simp [hnone] at ih
  have hround := hwet (i + period) (by have := h.positive; omega)
  rw [h.returns] at hround
  rcases hround with hsame | hfed
  · exact hi (hv.trans hsame.symm)
  · rcases (h.flow i).cell hi with ⟨d, -, hs⟩ | ⟨hnone, -⟩
    · exact hi ((settles_fed L hmin hc hi hn hk hr hw hs).trans hfed.symm)
    · rw [hnone] at hfed
      cases hfed

theorem no_cycle [Finite C] : ¬ Cycle basin fluid x period := by
  intro h
  obtain ⟨c₀, hc₀⟩ := (h.flow 0).changes
  obtain ⟨top, ⟨i₀, hi₀⟩, htop⟩ := Set.exists_max_image {c | ∃ i, x (i + 1) c ≠ x i c}
    basin.level (Set.toFinite _) ⟨c₀, 0, hc₀⟩
  have hL (c : C) (i : Nat) (hi : x (i + 1) c ≠ x i c) : basin.level c ≤ basin.level top :=
    htop c ⟨i, hi⟩
  have hranked : ∃ r c j, basin.level c = basin.level top ∧ x (j + 1) c ≠ x j c ∧
      Rank basin fluid (x j) (x (j + 1)) c r := by
    cases hd : x (i₀ + 1) top with
    | some v =>
      obtain ⟨r, hr⟩ := h.rank _ hL rfl hi₀ hd
      exact ⟨r, top, i₀, rfl, hi₀, hr⟩
    | none =>
      obtain ⟨d, hd'⟩ := Option.ne_none_iff_exists'.mp (hd ▸ hi₀).symm
      obtain ⟨j, hj, hji⟩ := h.assigned hi₀ i₀
      obtain ⟨r, hr⟩ := h.rank _ hL rfl hj (hji.trans hd')
      exact ⟨r, top, j, rfl, hj, hr⟩
  classical
  obtain ⟨c, i, hc, hi, hrank⟩ := Nat.find_spec hranked
  have hmin (c : C) (j : Nat) (hc : basin.level c = basin.level top)
      (hj : x (j + 1) c ≠ x j c) (k : Nat) (hk : Rank basin fluid (x j) (x (j + 1)) c k) :
      Nat.find hranked ≤ k := Nat.find_min' hranked ⟨c, j, hc, hj, hk⟩
  generalize Nat.find hranked = r at hrank hmin
  cases hrank with
  | above ha hk hy => exact h.not_falls _ hL hc hi (.above ha hk hy)
  | near hn hk hf hy hv => exact h.not_near _ hL hmin hc hi hn hk hf hy rfl

end

-- A fluid comes to rest, whatever it starts from and in whatever order its cells change.
theorem flow_wellFounded [Finite C] [Finite V] :
    WellFounded fun y x : C → Option V => Flow basin fluid x y := by
  rw [wellFounded_iff_isEmpty_descending_chain]
  refine ⟨fun ⟨f, hf⟩ => ?_⟩
  obtain ⟨i, j, hne, hij⟩ := Finite.exists_ne_map_eq_of_infinite f
  wlog hlt : i < j generalizing i j
  · exact this j i hne.symm hij.symm (by omega)
  have hcycle : Cycle basin fluid (fun m => f (i + m % (j - i))) (j - i) := by
    refine ⟨fun m => ?_, by omega, fun m => by simp⟩
    have hm := Nat.mod_lt m (show j - i > 0 by omega)
    have hstep := hf (i + m % (j - i))
    by_cases hwrap : m % (j - i) + 1 = j - i
    · have hback : (m + 1) % (j - i) = 0 := by
        rw [← Nat.mod_add_mod, hwrap, Nat.mod_self]
      have hend : i + m % (j - i) + 1 = j := by omega
      rw [hend, ← hij] at hstep
      simpa [hback] using hstep
    · have hnext : (m + 1) % (j - i) = m % (j - i) + 1 := by
        rw [← Nat.mod_add_mod, Nat.mod_eq_of_lt (by omega)]
      rw [hnext, ← Nat.add_assoc]
      exact hstep
  exact no_cycle hcycle

end Settling

end Lib
