import Mathlib.Order.Lattice
import Mathlib.Data.Multiset.AddSub

namespace Lib

variable {α : Type*} [LinearOrder α]

-- Position 0 is its own parent, so the root needs no case of its own.
def HeapOrdered (a : Array α) : Prop :=
  ∀ (i : Nat) (x y : α), a[(i - 1) / 2]? = some x → a[i]? = some y → x ≤ y

def siftUp (a : Array α) (index : Nat) : Array α :=
  if h : 0 < index ∧ index < a.size then
    if a[index] < a[(index - 1) / 2] then
      siftUp (a.swap ((index - 1) / 2) index) ((index - 1) / 2)
    else a
  else a
termination_by index
decreasing_by omega

def smallestChild (a : Array α) (index : Nat) (h : 2 * index + 1 < a.size) : Nat :=
  if hr : 2 * index + 2 < a.size then
    if a[2 * index + 2] < a[2 * index + 1] then 2 * index + 2 else 2 * index + 1
  else 2 * index + 1

theorem smallestChild_cases (a : Array α) (index : Nat) (h : 2 * index + 1 < a.size) :
    smallestChild a index h = 2 * index + 1 ∨
      smallestChild a index h = 2 * index + 2 ∧ 2 * index + 2 < a.size := by
  unfold smallestChild
  split_ifs with hr hlt
  · exact .inr ⟨rfl, hr⟩
  · exact .inl rfl
  · exact .inl rfl

theorem smallestChild_lt (a : Array α) (index : Nat) (h : 2 * index + 1 < a.size) :
    smallestChild a index h < a.size := by
  rcases smallestChild_cases a index h with hc | ⟨hc, hr⟩ <;> omega

theorem lt_smallestChild (a : Array α) (index : Nat) (h : 2 * index + 1 < a.size) :
    index < smallestChild a index h := by
  rcases smallestChild_cases a index h with hc | ⟨hc, -⟩ <;> omega

def siftDown (a : Array α) (index : Nat) : Array α :=
  if h : 2 * index + 1 < a.size then
    have hs := smallestChild_lt a index h
    if a[smallestChild a index h] < a[index] then
      siftDown (a.swap index (smallestChild a index h)) (smallestChild a index h)
    else a
  else a
termination_by a.size - index
decreasing_by
  have := lt_smallestChild a index h
  simp only [Array.size_swap]
  omega

-- Every edge but the one into `i` is in order, and so are `i`'s children under its parent.
structure SiftUpReady (a : Array α) (i : Nat) : Prop where
  index_lt : i < a.size
  edges : ∀ (j : Nat) (x y : α), j ≠ i → a[(j - 1) / 2]? = some x → a[j]? = some y → x ≤ y
  around : ∀ (j : Nat) (x y : α), 0 < i → 0 < j → (j - 1) / 2 = i →
    a[(i - 1) / 2]? = some x → a[j]? = some y → x ≤ y

-- Every edge but those out of `i` is in order, and so are `i`'s children under its parent.
structure SiftDownReady (a : Array α) (i : Nat) : Prop where
  edges : ∀ (j : Nat) (x y : α), j = 0 ∨ (j - 1) / 2 ≠ i →
    a[(j - 1) / 2]? = some x → a[j]? = some y → x ≤ y
  around : ∀ (j : Nat) (x y : α), 0 < i → 0 < j → (j - 1) / 2 = i →
    a[(i - 1) / 2]? = some x → a[j]? = some y → x ≤ y

theorem SiftUpReady.swap {a : Array α} {i : Nat} (h : SiftUpReady a i) (hpos : 0 < i)
    (hlt : getElem a i h.index_lt < getElem a ((i - 1) / 2) (by have := h.index_lt; omega)) :
    SiftUpReady (a.swap ((i - 1) / 2) i (by have := h.index_lt; omega) h.index_lt)
      ((i - 1) / 2) := by
  have hi := h.index_lt
  have hp : (i - 1) / 2 < a.size := by omega
  have hai : a[i]? = some a[i] := Array.getElem?_eq_getElem hi
  have hap : a[(i - 1) / 2]? = some a[(i - 1) / 2] := Array.getElem?_eq_getElem hp
  refine ⟨by simpa using hp, ?_, ?_⟩
  · intro j x y hj hx hy
    rw [Array.getElem?_swap] at hx hy
    by_cases hij : i = j
    · subst hij
      rw [if_pos rfl] at hy
      rw [if_neg (by omega), if_pos rfl] at hx
      cases hx
      cases hy
      exact hlt.le
    · rw [if_neg hij, if_neg (Ne.symm hj)] at hy
      have hji : j ≠ i := Ne.symm hij
      by_cases hpi : i = (j - 1) / 2
      · rw [if_pos hpi] at hx
        cases hx
        exact h.around j _ y hpos (by omega) hpi.symm hap hy
      · rw [if_neg hpi] at hx
        by_cases hpp : (i - 1) / 2 = (j - 1) / 2
        · rw [if_pos hpp] at hx
          cases hx
          exact hlt.le.trans (h.edges j _ y hji (by rw [← hpp]; exact hap) hy)
        · rw [if_neg hpp] at hx
          exact h.edges j x y hji hx hy
  · intro j x y hpos' hj hpj hx hy
    rw [Array.getElem?_swap] at hx hy
    rw [if_neg (by omega), if_neg (by omega)] at hx
    have hup : x ≤ a[(i - 1) / 2] := h.edges ((i - 1) / 2) x _ (by omega) hx hap
    by_cases hij : i = j
    · rw [if_pos hij] at hy
      cases hy
      exact hup
    · rw [if_neg hij, if_neg (by omega)] at hy
      exact hup.trans (h.edges j _ y (Ne.symm hij) (by rw [hpj]; exact hap) hy)

theorem SiftUpReady.done {a : Array α} {i : Nat} (h : SiftUpReady a i)
    (hstop : 0 < i → ¬getElem a i h.index_lt < getElem a ((i - 1) / 2) (by have := h.index_lt; omega)) :
    HeapOrdered a := by
  intro j x y hx hy
  by_cases hji : j = i
  · subst hji
    rcases Nat.eq_zero_or_pos j with rfl | hpos
    · rw [hy] at hx
      cases hx
      exact le_refl _
    · obtain ⟨_, rfl⟩ := Array.getElem?_eq_some_iff.mp hx
      obtain ⟨_, rfl⟩ := Array.getElem?_eq_some_iff.mp hy
      exact not_lt.mp (hstop hpos)
  · exact h.edges j x y hji hx hy

theorem siftUp_ordered {a : Array α} {i : Nat} (h : SiftUpReady a i) :
    HeapOrdered (siftUp a i) := by
  induction a, i using siftUp.induct with
  | case1 a i hi hlt ih =>
    rw [siftUp, dif_pos hi, if_pos hlt]
    exact ih (h.swap hi.1 hlt)
  | case2 a i hi hlt =>
    rw [siftUp, dif_pos hi, if_neg hlt]
    exact h.done fun _ => hlt
  | case3 a i hi =>
    rw [siftUp, dif_neg hi]
    exact h.done fun hpos => absurd ⟨hpos, h.index_lt⟩ hi

theorem siftUp_perm (a : Array α) (i : Nat) : (siftUp a i).Perm a := by
  induction a, i using siftUp.induct with
  | case1 a i hi hlt ih =>
    rw [siftUp, dif_pos hi, if_pos hlt]
    exact ih.trans (Array.swap_perm _ _)
  | case2 a i hi hlt =>
    rw [siftUp, dif_pos hi, if_neg hlt]
  | case3 a i hi =>
    rw [siftUp, dif_neg hi]

theorem smallestChild_le {a : Array α} {i : Nat} (h : 2 * i + 1 < a.size) {j : Nat} {y : α}
    (hj : 0 < j) (hp : (j - 1) / 2 = i) (hy : a[j]? = some y) :
    getElem a (smallestChild a i h) (smallestChild_lt a i h) ≤ y := by
  obtain ⟨hlt, rfl⟩ := Array.getElem?_eq_some_iff.mp hy
  have hj : j = 2 * i + 1 ∨ j = 2 * i + 2 := by omega
  unfold smallestChild
  rcases hj with rfl | rfl <;> split_ifs <;> grind

theorem SiftDownReady.swap {a : Array α} {i c : Nat} (hr : SiftDownReady a i) (hi : i < a.size)
    (hs : c < a.size) (his : i < c) (hpc : (c - 1) / 2 = i)
    (hmin : ∀ {j : Nat} {y : α}, 0 < j → (j - 1) / 2 = i → a[j]? = some y → a[c] ≤ y)
    (hlt : a[c] < a[i]) : SiftDownReady (a.swap i c) c := by
  have hac : a[c]? = some a[c] := Array.getElem?_eq_getElem hs
  refine ⟨?_, ?_⟩
  · intro j x y hj hx hy
    rw [Array.getElem?_swap] at hx hy
    by_cases hcj : c = j
    · subst hcj
      rw [if_pos rfl] at hy
      rw [if_neg (by omega), if_pos hpc.symm] at hx
      cases hx
      cases hy
      exact hlt.le
    · rw [if_neg hcj] at hy
      by_cases hij : i = j
      · subst hij
        rw [if_pos rfl] at hy
        cases hy
        rw [if_neg (by omega)] at hx
        rcases Nat.eq_zero_or_pos i with rfl | hpos
        · rw [if_pos (by omega)] at hx
          cases hx
          exact le_refl _
        · rw [if_neg (by omega)] at hx
          exact hr.around c x _ hpos (by omega) hpc hx hac
      · rw [if_neg hij] at hy
        by_cases hpi : i = (j - 1) / 2
        · rw [if_neg (by omega), if_pos hpi] at hx
          cases hx
          exact hmin (by omega) hpi.symm hy
        · rw [if_neg (by omega), if_neg hpi] at hx
          exact hr.edges j x y (.inr (Ne.symm hpi)) hx hy
  · intro j x y _ hj hpj hx hy
    rw [Array.getElem?_swap] at hx hy
    rw [if_neg (by omega), if_pos hpc.symm] at hx
    rw [if_neg (by omega), if_neg (by omega)] at hy
    cases hx
    exact hr.edges j _ y (.inr (by omega)) (by rw [hpj]; exact hac) hy

theorem SiftDownReady.done {a : Array α} {i : Nat} (hr : SiftDownReady a i)
    (hstop : ∀ h : 2 * i + 1 < a.size,
      ¬getElem a (smallestChild a i h) (smallestChild_lt a i h) < a[i]) : HeapOrdered a := by
  intro j x y hx hy
  by_cases hp : j = 0 ∨ (j - 1) / 2 ≠ i
  · exact hr.edges j x y hp hx hy
  · obtain ⟨hj, hpi⟩ := not_or.mp hp
    have hpi := not_not.mp hpi
    obtain ⟨hlt, rfl⟩ := Array.getElem?_eq_some_iff.mp hy
    obtain ⟨hlt', rfl⟩ := Array.getElem?_eq_some_iff.mp hx
    have h : 2 * i + 1 < a.size := by omega
    have hle := not_lt.mp (hstop h)
    subst hpi
    exact hle.trans (smallestChild_le h (by omega) rfl hy)

theorem siftDown_ordered {a : Array α} {i : Nat} (h : SiftDownReady a i) :
    HeapOrdered (siftDown a i) := by
  induction a, i using siftDown.induct with
  | case1 a i hi _ hlt ih =>
    have hc := smallestChild_cases a i hi
    rw [siftDown, dif_pos hi, if_pos hlt]
    exact ih (h.swap _ (smallestChild_lt a i hi) (lt_smallestChild a i hi) (by omega)
      (smallestChild_le hi) hlt)
  | case2 a i hi _ hlt =>
    rw [siftDown, dif_pos hi, if_neg hlt]
    exact h.done fun _ => hlt
  | case3 a i hi =>
    rw [siftDown, dif_neg hi]
    exact h.done fun h => absurd h hi

theorem siftDown_perm (a : Array α) (i : Nat) : (siftDown a i).Perm a := by
  induction a, i using siftDown.induct with
  | case1 a i hi _ hlt ih =>
    rw [siftDown, dif_pos hi, if_pos hlt]
    exact ih.trans (Array.swap_perm _ _)
  | case2 a i hi _ hlt =>
    rw [siftDown, dif_pos hi, if_neg hlt]
  | case3 a i hi =>
    rw [siftDown, dif_neg hi]

theorem HeapOrdered.root_le {a : Array α} (h : HeapOrdered a) {x : α} (hx : a[0]? = some x)
    (i : Nat) {y : α} (hy : a[i]? = some y) : x ≤ y := by
  induction i using Nat.strongRecOn generalizing y with
  | ind i ih =>
    rcases Nat.eq_zero_or_pos i with rfl | hpos
    · rw [hy] at hx
      cases hx
      exact le_refl _
    · obtain ⟨hlt, -⟩ := Array.getElem?_eq_some_iff.mp hy
      have hp : a[(i - 1) / 2]? = some a[(i - 1) / 2] := Array.getElem?_eq_getElem (by omega)
      exact (ih _ (by omega) hp).trans (h i _ y hp hy)

theorem HeapOrdered.push {a : Array α} (h : HeapOrdered a) (x : α) :
    SiftUpReady (a.push x) a.size where
  index_lt := by simp
  edges := by
    intro j y z hj hy hz
    have hlt : j < a.size := by
      have := (Array.getElem?_eq_some_iff.mp hz).1
      simp only [Array.size_push] at this
      omega
    rw [Array.getElem?_push, if_neg (by omega)] at hy hz
    exact h j y z hy hz
  around := by
    intro j y z _ _ hp _ hz
    have := (Array.getElem?_eq_some_iff.mp hz).1
    simp only [Array.size_push] at this
    omega

theorem HeapOrdered.setRoot {a : Array α} (h : HeapOrdered a) (x : α) :
    SiftDownReady (a.setIfInBounds 0 x) 0 where
  edges := by
    intro j y z hj hy hz
    rcases Nat.eq_zero_or_pos j with rfl | hpos
    · rw [hz] at hy
      cases hy
      exact le_refl _
    · have hp : (j - 1) / 2 ≠ 0 := by omega
      rw [Array.getElem?_setIfInBounds_ne (by omega)] at hy hz
      exact h j y z hy hz
  around := fun _ _ _ hpos => absurd hpos (lt_irrefl 0)

theorem HeapOrdered.popLast {a : Array α} (h : HeapOrdered a) : HeapOrdered a.pop := by
  intro j x y hx hy
  rw [Array.getElem?_pop] at hx hy
  split_ifs at hx hy with h₁ h₂
  exact h j x y hx hy

structure BinaryHeap (α : Type*) [LinearOrder α] where
  items : Array α
  ordered : HeapOrdered items

namespace BinaryHeap

def empty : BinaryHeap α := ⟨#[], fun _ _ _ hx => by simp at hx⟩

def push (h : BinaryHeap α) (x : α) : BinaryHeap α :=
  ⟨siftUp (h.items.push x) h.items.size, siftUp_ordered (h.ordered.push x)⟩

def peek (h : BinaryHeap α) : Option α := h.items[0]?

def afterPop (items : Array α) : Array α :=
  match items.back? with
  | none => items
  | some last =>
    if items.pop.isEmpty then items.pop else siftDown (items.pop.setIfInBounds 0 last) 0

theorem afterPop_ordered {items : Array α} (h : HeapOrdered items) :
    HeapOrdered (afterPop items) := by
  unfold afterPop
  split
  · exact h
  · split_ifs
    · exact h.popLast
    · exact siftDown_ordered (h.popLast.setRoot _)

def pop (h : BinaryHeap α) : Option (α × BinaryHeap α) :=
  h.peek.map fun root => (root, ⟨afterPop h.items, afterPop_ordered h.ordered⟩)

def contents (h : BinaryHeap α) : Multiset α := h.items.toList

variable {h : BinaryHeap α}

@[simp] theorem contents_empty : (empty : BinaryHeap α).contents = 0 := rfl

@[simp] theorem contents_push (x : α) : (h.push x).contents = x ::ₘ h.contents := by
  have hp := Array.perm_iff_toList_perm.mp (siftUp_perm (h.items.push x) h.items.size)
  rw [Array.toList_push] at hp
  exact (Quot.sound hp).trans (Quot.sound (List.perm_append_singleton x _))

theorem peek_eq_none : h.peek = none ↔ h.contents = 0 := by
  simp [peek, contents]

theorem peek_mem {x : α} (hp : h.peek = some x) : x ∈ h.contents := by
  exact Array.mem_toList_iff.mpr (Array.mem_of_getElem? hp)

theorem peek_le {x y : α} (hp : h.peek = some x) (hy : y ∈ h.contents) : x ≤ y := by
  obtain ⟨i, hi⟩ := Array.mem_iff_getElem?.mp (Array.mem_toList_iff.mp hy)
  exact h.ordered.root_le hp i hi

theorem afterPop_perm {items : Array α} {root : α} (hroot : items[0]? = some root) :
    (root :: (afterPop items).toList).Perm items.toList := by
  obtain ⟨l, last, rfl⟩ : ∃ l last, items = (⟨l ++ [last]⟩ : Array α) := by
    rcases items with ⟨l⟩
    rcases List.eq_nil_or_concat l with rfl | ⟨l, last, rfl⟩
    · simp at hroot
    · exact ⟨l, last, by simp⟩
  cases l with
  | nil =>
    simp only [List.nil_append, List.getElem?_toArray, List.getElem?_cons_zero,
      Option.some.injEq] at hroot
    subst hroot
    simp [afterPop]
  | cons r l =>
    simp only [List.cons_append, List.getElem?_toArray, List.getElem?_cons_zero,
      Option.some.injEq] at hroot
    subst hroot
    have hp := Array.perm_iff_toList_perm.mp (siftDown_perm (#[last] ++ l.toArray) 0)
    have he : afterPop (⟨r :: l ++ [last]⟩ : Array α) = siftDown (#[last] ++ l.toArray) 0 := by
      have hlast : (r :: (l ++ [last])).getLast? = some last := by
        rw [← List.cons_append, List.getLast?_concat]
      have hrest : (r :: (l ++ [last])).dropLast = r :: l := by
        rw [← List.cons_append, List.dropLast_concat]
      simp [afterPop, hlast, hrest]
    rw [he]
    refine (hp.cons r).trans ?_
    simpa using (List.perm_append_singleton last l).symm.cons r

theorem pop_some {x : α} {h' : BinaryHeap α} (hp : h.pop = some (x, h')) :
    h.peek = some x ∧ h.contents = x ::ₘ h'.contents := by
  unfold pop at hp
  cases hroot : h.peek with
  | none => simp [hroot] at hp
  | some root =>
    simp only [hroot, Option.map_some, Option.some.injEq, Prod.mk.injEq] at hp
    obtain ⟨rfl, rfl⟩ := hp
    exact ⟨rfl, (Quot.sound (afterPop_perm hroot)).symm⟩

theorem pop_of_peek {x : α} (hp : h.peek = some x) :
    ∃ h', h.pop = some (x, h') ∧ h.contents = x ::ₘ h'.contents := by
  have he : h.pop = some (x, ⟨afterPop h.items, afterPop_ordered h.ordered⟩) := by
    simp [pop, hp]
  exact ⟨_, he, (pop_some he).2⟩

end BinaryHeap

end Lib
