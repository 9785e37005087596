import Mathlib.Data.List.Nodup

namespace Lib

variable {κ β : Type*} [DecidableEq κ]

-- A map that remembers the order in which its keys were first written.
structure OrderedMap (κ β : Type*) where
  entries : List (κ × β)
  nodup : (entries.map Prod.fst).Nodup

namespace OrderedMap

def replaced (k : κ) (v : β) (entries : List (κ × β)) : List (κ × β) :=
  entries.map fun e => if e.1 = k then (k, v) else e

theorem map_fst_replaced (k : κ) (v : β) (entries : List (κ × β)) :
    (replaced k v entries).map Prod.fst = entries.map Prod.fst := by
  rw [replaced, List.map_map]
  refine List.map_congr_left fun e _ => ?_
  simp only [Function.comp_apply]
  split_ifs with h
  · exact h.symm
  · rfl

def empty : OrderedMap κ β := ⟨[], List.nodup_nil⟩

def keys (m : OrderedMap κ β) : List κ := m.entries.map Prod.fst

def count (m : OrderedMap κ β) : Nat := m.entries.length

def get? (m : OrderedMap κ β) (k : κ) : Option β :=
  (m.entries.find? fun e => decide (e.1 = k)).map Prod.snd

def set (m : OrderedMap κ β) (k : κ) (v : β) : OrderedMap κ β :=
  if h : k ∈ m.keys then ⟨replaced k v m.entries, by rw [map_fst_replaced]; exact m.nodup⟩
  else ⟨m.entries ++ [(k, v)], by
    rw [List.map_append, List.nodup_append]
    refine ⟨m.nodup, List.nodup_singleton _, ?_⟩
    rintro a ha b hb rfl
    rw [List.map_singleton, List.mem_singleton] at hb
    subst hb
    exact h ha⟩

def unset (m : OrderedMap κ β) (k : κ) : OrderedMap κ β :=
  ⟨m.entries.filter fun e => decide (e.1 ≠ k),
    m.nodup.sublist (List.filter_sublist.map Prod.fst)⟩

variable {m : OrderedMap κ β} {k : κ} {v : β}

theorem get?_eq_some : m.get? k = some v ↔ (k, v) ∈ m.entries := by
  unfold get?
  constructor
  · intro h
    obtain ⟨e, he, rfl⟩ := Option.map_eq_some_iff.mp h
    have hk := List.find?_some he
    simp only [decide_eq_true_eq] at hk
    exact hk ▸ List.mem_of_find?_eq_some he
  · intro h
    have hsome : (m.entries.find? fun e => decide (e.1 = k)).isSome :=
      List.find?_isSome.mpr ⟨(k, v), h, by simp⟩
    obtain ⟨e, he⟩ := Option.isSome_iff_exists.mp hsome
    have hk := List.find?_some he
    simp only [decide_eq_true_eq] at hk
    have heq := List.inj_on_of_nodup_map m.nodup (List.mem_of_find?_eq_some he) h hk
    rw [he, heq]
    rfl

theorem mem_keys : k ∈ m.keys ↔ (m.get? k).isSome := by
  rw [Option.isSome_iff_exists, keys, List.mem_map]
  constructor
  · rintro ⟨e, he, rfl⟩
    exact ⟨e.2, get?_eq_some.mpr he⟩
  · rintro ⟨v, hv⟩
    exact ⟨(k, v), get?_eq_some.mp hv, rfl⟩

theorem get?_eq_none : m.get? k = none ↔ k ∉ m.keys := by
  rw [mem_keys, Bool.not_eq_true, Option.isSome_eq_false_iff, Option.isNone_iff_eq_none]

omit [DecidableEq κ] in
theorem keys_nodup (m : OrderedMap κ β) : m.keys.Nodup := m.nodup

@[simp] theorem get?_empty (k : κ) : (empty : OrderedMap κ β).get? k = none := rfl

theorem get?_set (m : OrderedMap κ β) (k j : κ) (v : β) :
    (m.set k v).get? j = if j = k then some v else m.get? j := by
  by_cases hk : k ∈ m.keys
  · rw [set, dif_pos hk]
    by_cases hj : j = k
    · subst hj
      rw [if_pos rfl, get?_eq_some]
      obtain ⟨e, he, hfst⟩ := List.mem_map.mp hk
      exact List.mem_map.mpr ⟨e, he, by rw [if_pos hfst]⟩
    · rw [if_neg hj]
      refine Option.ext fun w => ?_
      rw [get?_eq_some, get?_eq_some]
      constructor
      · intro h
        obtain ⟨e, he, heq⟩ := List.mem_map.mp h
        split_ifs at heq with hfst
        · exact absurd (congrArg Prod.fst heq).symm hj
        · exact heq ▸ he
      · exact fun h => List.mem_map.mpr ⟨(j, w), h, if_neg hj⟩
  · rw [set, dif_neg hk]
    refine Option.ext fun w => ?_
    rw [get?_eq_some, List.mem_append, List.mem_singleton, Prod.mk.injEq]
    by_cases hj : j = k
    · subst hj
      have hnone : (j, w) ∉ m.entries := fun h => hk (List.mem_map.mpr ⟨_, h, rfl⟩)
      simp only [hnone, if_true, true_and, false_or, Option.some.injEq, eq_comm]
    · simp only [hj, false_and, or_false, if_false, get?_eq_some]

theorem get?_unset (m : OrderedMap κ β) (k j : κ) :
    (m.unset k).get? j = if j = k then none else m.get? j := by
  refine Option.ext fun w => ?_
  rw [get?_eq_some, unset, List.mem_filter]
  by_cases hj : j = k
  · simp [hj]
  · simp only [hj, if_false, get?_eq_some, ne_eq, not_false_eq_true, decide_true, and_true]

@[simp] theorem get?_set_self : (m.set k v).get? k = some v := by
  rw [get?_set, if_pos rfl]

@[simp] theorem get?_unset_self : (m.unset k).get? k = none := by
  rw [get?_unset, if_pos rfl]

theorem get?_unset_some {j : κ} (h : (m.unset k).get? j = some v) :
    j ≠ k ∧ m.get? j = some v := by
  rw [get?_unset] at h
  split_ifs at h with hj
  exact ⟨hj, h⟩

def setAll (m : OrderedMap κ β) (v : β) (ks : List κ) : OrderedMap κ β :=
  ks.foldl (fun m k => m.set k v) m

theorem get?_setAll (m : OrderedMap κ β) (v : β) (ks : List κ) (j : κ) :
    (m.setAll v ks).get? j = if j ∈ ks then some v else m.get? j := by
  induction ks generalizing m with
  | nil => rfl
  | cons first ks ih =>
    rw [setAll, List.foldl_cons, ← setAll, ih, get?_set]
    by_cases hf : j = first
    · simp [hf]
    · simp [hf]

section Held

variable [DecidableEq β]

-- Only the keys that still hold the value go.
def unsetHeld (m : OrderedMap κ β) (v : β) (ks : List κ) : OrderedMap κ β :=
  ks.foldl (fun m k => if m.get? k = some v then m.unset k else m) m

theorem get?_unsetHeld (m : OrderedMap κ β) (v : β) (ks : List κ) (j : κ) :
    (m.unsetHeld v ks).get? j = if j ∈ ks ∧ m.get? j = some v then none else m.get? j := by
  induction ks generalizing m with
  | nil => simp [unsetHeld]
  | cons first ks ih =>
    rw [unsetHeld, List.foldl_cons, ← unsetHeld, ih]
    by_cases hfirst : m.get? first = some v
    · rw [if_pos hfirst, get?_unset]
      by_cases hf : j = first
      · subst hf
        simp [hfirst]
      · simp [hf]
    · rw [if_neg hfirst]
      by_cases hf : j = first
      · subst hf
        simp [hfirst]
      · simp [hf]

end Held

end OrderedMap

end Lib
