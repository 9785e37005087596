import Mathlib.Algebra.BigOperators.Group.Finset.Basic
import Mathlib.Algebra.Order.BigOperators.Group.Finset
import Mathlib.Order.Interval.Finset.Nat
import Mathlib.Tactic

namespace Lib

variable {ι : Type} [Fintype ι] {len : ι → Nat} {lo hi : Nat} (start : ι → Nat)

theorem sum_length_le (hin : ∀ i, 0 < len i → lo ≤ start i ∧ start i + len i ≤ hi)
    (hapart : ∀ i j, i ≠ j → 0 < len i → 0 < len j →
      start i + len i ≤ start j ∨ start j + len j ≤ start i) :
    ∑ i, len i ≤ hi - lo := by
  have hdisjoint : ((Finset.univ : Finset ι) : Set ι).PairwiseDisjoint
      fun i => Finset.Ico (start i) (start i + len i) := by
    intro i _ j _ hij
    rw [Function.onFun, Finset.disjoint_left]
    intro a hi' hj'
    rw [Finset.mem_Ico] at hi' hj'
    rcases hapart i j hij (by omega) (by omega) with h | h <;> omega
  have hsubset : Finset.univ.biUnion (fun i => Finset.Ico (start i) (start i + len i)) ⊆
      Finset.Ico lo hi := by
    intro a ha
    obtain ⟨i, -, ha⟩ := Finset.mem_biUnion.mp ha
    rw [Finset.mem_Ico] at ha ⊢
    have := hin i (by omega)
    omega
  calc ∑ i, len i = ∑ i, (Finset.Ico (start i) (start i + len i)).card := by simp
    _ = (Finset.univ.biUnion fun i => Finset.Ico (start i) (start i + len i)).card :=
        (Finset.card_biUnion hdisjoint).symm
    _ ≤ (Finset.Ico lo hi).card := Finset.card_le_card hsubset
    _ = hi - lo := Nat.card_Ico lo hi

end Lib
