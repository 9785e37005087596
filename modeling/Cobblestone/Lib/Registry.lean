import Mathlib.Data.List.Nodup

namespace Lib

variable {κ α : Type} [DecidableEq κ]

section Visit

variable (key : α → κ) (plan : κ → Option α)

def knows (entries : List α) (k : κ) : Bool := entries.any fun entry => key entry = k

def visit (entries : List α) (k : κ) : List α :=
  if knows key entries k then entries
  else
    match plan k with
    | some entry => entries ++ [entry]
    | none => entries

def visitAll (entries : List α) (keys : List κ) : List α := keys.foldl (visit key plan) entries

-- What a visit of the keys has to add to the entries.
def unplanned (entries : List α) (keys : List κ) : List α :=
  (keys.filter fun k => !knows key entries k).filterMap plan

end Visit

section Visits

variable {key : α → κ} {plan : κ → Option α}

theorem knows_iff {entries : List α} {k : κ} :
    knows key entries k = true ↔ k ∈ entries.map key := by
  rw [knows, List.any_eq_true, List.mem_map]
  refine exists_congr fun entry => and_congr_right fun _ => ?_
  exact decide_eq_true_iff

theorem knows_append (entries added : List α) (k : κ) :
    knows key (entries ++ added) k = (knows key entries k || knows key added k) :=
  List.any_append

theorem visit_eq (entries : List α) (k : κ) :
    visit key plan entries k = entries ++ unplanned key plan entries [k] := by
  rw [visit, unplanned, List.filter_singleton]
  cases knows key entries k with
  | true => exact (List.append_nil entries).symm
  | false =>
    change (match plan k with
      | some entry => entries ++ [entry]
      | none => entries) = entries ++ List.filterMap plan [k]
    rw [List.filterMap_cons]
    cases plan k with
    | none => exact (List.append_nil entries).symm
    | some entry => rfl

theorem visitAll_congr {plan' : κ → Option α} {keys : List κ} (h : ∀ k ∈ keys, plan k = plan' k)
    (entries : List α) : visitAll key plan entries keys = visitAll key plan' entries keys := by
  induction keys generalizing entries with
  | nil => rfl
  | cons k keys ih =>
    change visitAll key plan (visit key plan entries k) keys =
      visitAll key plan' (visit key plan' entries k) keys
    rw [ih fun l hl => h l (List.mem_cons_of_mem _ hl), visit, visit, h k List.mem_cons_self]

theorem mem_unplanned {entries : List α} {keys : List κ} {entry : α} :
    entry ∈ unplanned key plan entries keys ↔
      ∃ k ∈ keys, knows key entries k = false ∧ plan k = some entry := by
  simp only [unplanned, List.mem_filterMap, List.mem_filter, Bool.not_eq_true', and_assoc]

theorem unplanned_cons (entries : List α) (k : κ) (keys : List κ) :
    unplanned key plan entries (k :: keys) =
      unplanned key plan entries [k] ++ unplanned key plan entries keys := by
  rw [unplanned, unplanned, unplanned, ← List.filterMap_append, ← List.filter_append]
  rfl

variable (hkey : ∀ k entry, plan k = some entry → key entry = k)

include hkey

-- The entry of one key says nothing about the keys that come after it.
theorem unplanned_after {entries : List α} {k : κ} {keys : List κ} (hk : k ∉ keys) :
    unplanned key plan (entries ++ unplanned key plan entries [k]) keys =
      unplanned key plan entries keys := by
  refine congrArg (List.filterMap plan) (List.filter_congr fun k' hk' => ?_)
  rw [knows_append]
  have hother : knows key (unplanned key plan entries [k]) k' = false := by
    rw [Bool.eq_false_iff, Ne, knows_iff, List.mem_map]
    rintro ⟨entry, hentry, rfl⟩
    obtain ⟨l, hl, -, hplan⟩ := mem_unplanned.mp hentry
    cases List.mem_singleton.mp hl
    rw [hkey _ _ hplan] at hk'
    exact hk hk'
  rw [hother, Bool.or_false]

theorem visitAll_eq {keys : List κ} (hnodup : keys.Nodup) (entries : List α) :
    visitAll key plan entries keys = entries ++ unplanned key plan entries keys := by
  induction keys generalizing entries with
  | nil => exact (List.append_nil entries).symm
  | cons k keys ih =>
    obtain ⟨hk, hkeys⟩ := List.nodup_cons.mp hnodup
    change visitAll key plan (visit key plan entries k) keys = _
    rw [visit_eq, ih hkeys, unplanned_after hkey hk, List.append_assoc, ← unplanned_cons]

-- Exactly the keys that have a plan and no entry yet, each once and in their order.
theorem map_key_unplanned (entries : List α) (keys : List κ) :
    (unplanned key plan entries keys).map key =
      keys.filter fun k => (plan k).isSome && !knows key entries k := by
  induction keys with
  | nil => rfl
  | cons k keys ih =>
    rw [unplanned_cons, List.map_append, ih, List.filter_cons, unplanned, List.filter_singleton]
    cases hknown : knows key entries k with
    | true => simp
    | false =>
      cases hplan : plan k with
      | none => simp [hplan]
      | some entry => simp [hplan, hkey k entry hplan]

end Visits

end Lib
