import Cobblestone.Lib.Bytes

namespace Lib

variable {α : Type}

abbrev FieldAt (α : Type) := Nat × List α

def FieldAt.stop (f : FieldAt α) : Nat := f.1 + f.2.length

def Apart (f g : FieldAt α) : Prop := f.stop ≤ g.1 ∨ g.stop ≤ f.1

def Holds (b : List α) (f : FieldAt α) : Prop := sliceAt f.1 f.2.length b = f.2

def putFields (fields : List (FieldAt α)) (b : List α) : List α :=
  fields.foldl (fun b f => putAt f.1 f.2 b) b

structure Fits (n : Nat) (fields : List (FieldAt α)) : Prop where
  apart : fields.Pairwise Apart
  inside : ∀ f ∈ fields, f.stop ≤ n

theorem Fits.tail {n : Nat} {f : FieldAt α} {fields : List (FieldAt α)} (h : Fits n (f :: fields)) :
    Fits n fields :=
  ⟨(List.pairwise_cons.mp h.apart).2, fun g hg => h.inside g (List.mem_cons_of_mem _ hg)⟩

-- Fields in the order in which they stand in the block.
def Ascending (o n : Nat) : List (FieldAt α) → Prop
  | [] => o ≤ n
  | f :: fields => o ≤ f.1 ∧ Ascending f.stop n fields

theorem Ascending.after {o n : Nat} {fields : List (FieldAt α)} (h : Ascending o n fields) :
    o ≤ n ∧ ∀ f ∈ fields, o ≤ f.1 ∧ f.stop ≤ n := by
  induction fields generalizing o with
  | nil => exact ⟨h, fun f hf => absurd hf List.not_mem_nil⟩
  | cons f fields ih =>
    obtain ⟨ho, hrest⟩ := h
    obtain ⟨hn, hall⟩ := ih hrest
    have hf : f.1 ≤ f.stop := Nat.le_add_right _ _
    refine ⟨by omega, fun g hg => ?_⟩
    rcases List.mem_cons.mp hg with rfl | hg
    · exact ⟨ho, hn⟩
    · exact ⟨by have := (hall g hg).1; omega, (hall g hg).2⟩

theorem Ascending.fits {o n : Nat} {fields : List (FieldAt α)} (h : Ascending o n fields) :
    Fits n fields := by
  refine ⟨?_, fun f hf => (h.after.2 f hf).2⟩
  induction fields generalizing o with
  | nil => exact .nil
  | cons f fields ih =>
    exact .cons (fun g hg => .inl (h.2.after.2 g hg).1) (ih h.2)

theorem length_putFields {fields : List (FieldAt α)} {b : List α}
    (h : ∀ f ∈ fields, f.stop ≤ b.length) : (putFields fields b).length = b.length := by
  induction fields generalizing b with
  | nil => rfl
  | cons f fields ih =>
    have hf : f.1 + f.2.length ≤ b.length := h f List.mem_cons_self
    have hl := length_putAt hf
    rw [putFields, List.foldl_cons, ← putFields, ih, hl]
    intro g hg
    rw [hl]
    exact h g (List.mem_cons_of_mem _ hg)

theorem sliceAt_putFields_apart {fields : List (FieldAt α)} {b : List α} {o n : Nat}
    (h : ∀ f ∈ fields, f.stop ≤ b.length)
    (ha : ∀ f ∈ fields, o + n ≤ f.1 ∨ f.stop ≤ o) :
    sliceAt o n (putFields fields b) = sliceAt o n b := by
  induction fields generalizing b with
  | nil => rfl
  | cons f fields ih =>
    have hf : f.1 + f.2.length ≤ b.length := h f List.mem_cons_self
    have hl := length_putAt hf
    rw [putFields, List.foldl_cons, ← putFields, ih]
    · exact sliceAt_putAt_disjoint (by omega) (ha f List.mem_cons_self)
    · intro g hg
      rw [hl]
      exact h g (List.mem_cons_of_mem _ hg)
    · exact fun g hg => ha g (List.mem_cons_of_mem _ hg)

theorem sliceAt_putFields {fields : List (FieldAt α)} {b : List α} (h : Fits b.length fields)
    {o : Nat} {v : List α} (hm : (o, v) ∈ fields) :
    sliceAt o v.length (putFields fields b) = v := by
  induction fields generalizing b with
  | nil => cases hm
  | cons f fields ih =>
    have hf : f.1 + f.2.length ≤ b.length := h.inside f List.mem_cons_self
    have hl := length_putAt hf
    have ht : Fits (putAt f.1 f.2 b).length fields := hl ▸ h.tail
    rw [putFields, List.foldl_cons, ← putFields]
    rcases List.mem_cons.mp hm with rfl | hm
    · rw [sliceAt_putFields_apart ht.inside]
      · exact sliceAt_putAt_self (by simp only at hf; omega)
      · exact fun g hg => (List.pairwise_cons.mp h.apart).1 g hg
    · exact ih ht hm

theorem Holds.putFields_apart {fields : List (FieldAt α)} {b : List α} {f : FieldAt α}
    (h : Holds b f) (hin : ∀ g ∈ fields, g.stop ≤ b.length) (ha : ∀ g ∈ fields, Apart f g) :
    Holds (putFields fields b) f := by
  rw [Holds, sliceAt_putFields_apart hin ha, h]

theorem getElem?_of_sliceAt {o i : Nat} {b v : List α} (h : sliceAt o v.length b = v) (hl : o ≤ i)
    (hr : i < o + v.length) : b[i]? = v[i - o]? := by
  have hat := getElem?_sliceAt o v.length b (i - o)
  rw [h, if_pos (by omega), Nat.add_sub_cancel' hl] at hat
  exact hat.symm

theorem getElem?_putFields_apart {fields : List (FieldAt α)} {b : List α} {i : Nat}
    (h : ∀ f ∈ fields, f.stop ≤ b.length) (ha : ∀ f ∈ fields, i < f.1 ∨ f.stop ≤ i) :
    (putFields fields b)[i]? = b[i]? := by
  have hsame : sliceAt i 1 (putFields fields b) = sliceAt i 1 b := sliceAt_putFields_apart h ha
  have hat := congrArg (·[0]?) hsame
  simpa only [getElem?_sliceAt, Nat.zero_lt_one, if_true, Nat.add_zero] using hat

-- Two blocks that differ in nothing but the fields become the same.
theorem putFields_eq {fields : List (FieldAt α)} {b target : List α} (hlen : b.length = target.length)
    (hfit : Fits b.length fields) (hread : ∀ f ∈ fields, Holds target f)
    (hgap : ∀ i < target.length, (∀ f ∈ fields, i < f.1 ∨ f.stop ≤ i) →
      target[i]? = b[i]?) : putFields fields b = target := by
  apply List.ext_getElem?
  intro i
  by_cases hi : i < target.length
  · by_cases hcover : ∃ f ∈ fields, f.1 ≤ i ∧ i < f.stop
    · obtain ⟨f, hf, hl, hr⟩ := hcover
      rw [getElem?_of_sliceAt (sliceAt_putFields hfit hf) hl hr,
        getElem?_of_sliceAt (hread f hf) hl hr]
    · have hapart : ∀ f ∈ fields, i < f.1 ∨ f.stop ≤ i := fun f hf => by
        by_contra hin
        exact hcover ⟨f, hf, by omega⟩
      rw [getElem?_putFields_apart hfit.inside hapart, hgap i hi hapart]
  · rw [List.getElem?_eq_none (by rw [length_putFields hfit.inside]; omega),
      List.getElem?_eq_none (by omega)]

end Lib
