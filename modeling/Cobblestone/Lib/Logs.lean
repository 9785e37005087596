import Mathlib.Data.List.Basic
import Mathlib.Tactic

namespace Lib

variable {α : Type} {stamp : α → Nat} {first : Nat} {entry : α} {entries : List α}

-- The entries carry the numbers from `first` on, in order and without a gap.
def Numbered (stamp : α → Nat) (first : Nat) (entries : List α) : Prop :=
  entries.map stamp = List.range' first entries.length

namespace Numbered

@[simp] theorem nil : Numbered stamp first [] := rfl

@[simp] theorem cons_iff :
    Numbered stamp first (entry :: entries) ↔
      stamp entry = first ∧ Numbered stamp (first + 1) entries := by
  simp [Numbered, List.range'_succ]

theorem append_singleton (h : Numbered stamp first entries)
    (he : stamp entry = first + entries.length) : Numbered stamp first (entries ++ [entry]) := by
  have hmap : entries.map stamp = List.range' first entries.length := h
  rw [Numbered, List.map_append, hmap, List.length_append, List.map_singleton, he,
    List.length_singleton, List.range'_concat, Nat.one_mul]

theorem drop (h : Numbered stamp first entries) (count : Nat) :
    Numbered stamp (first + min count entries.length) (entries.drop count) := by
  induction entries generalizing first count with
  | nil => simp
  | cons entry entries ih =>
    cases count with
    | zero => simpa using h
    | succ count =>
      have hrest := ih (cons_iff.mp h).2 count
      have hfirst : first + min (count + 1) (entries.length + 1) =
          first + 1 + min count entries.length := by omega
      rw [List.drop_succ_cons, List.length_cons, hfirst]
      exact hrest

-- A window that ends where the whole ends starts as far in as it is shorter.
theorem suffix (h : Numbered stamp first entries) {window : List α} (hw : window <:+ entries) :
    Numbered stamp (first + (entries.length - window.length)) window := by
  have hdrop := h.drop (entries.length - window.length)
  rw [← List.suffix_iff_eq_drop.mp hw, Nat.min_eq_left (Nat.sub_le _ _)] at hdrop
  exact hdrop

theorem filter_above (h : Numbered stamp first entries) (cursor : Nat) :
    entries.filter (fun entry => decide (cursor < stamp entry)) =
      entries.drop (cursor + 1 - first) := by
  induction entries generalizing first with
  | nil => simp
  | cons entry entries ih =>
    obtain ⟨hentry, hrest⟩ := cons_iff.mp h
    rw [List.filter_cons, hentry, ih hrest]
    by_cases hc : cursor < first
    · have hzero : cursor + 1 - first = 0 := by omega
      have hzero' : cursor + 1 - (first + 1) = 0 := by omega
      simp [hc, hzero, hzero']
    · have hsucc : cursor + 1 - first = cursor + 1 - (first + 1) + 1 := by omega
      simp [hc, hsucc]

end Numbered

end Lib

namespace Lib

variable {σ κ β γ : Type} [DecidableEq κ]

-- The value that a list of writes leaves at a key.
def lastWrite (edits : List (κ × β)) (k : κ) : Option β :=
  edits.foldl (fun found edit => if edit.1 = k then some edit.2 else found) none

theorem lastWrite_append_one (edits : List (κ × β)) (edit : κ × β) (k : κ) :
    lastWrite (edits ++ [edit]) k = if edit.1 = k then some edit.2 else lastWrite edits k := by
  rw [lastWrite, List.foldl_append]
  rfl

theorem lastWrite_mem {edits : List (κ × β)} {k : κ} {v : β} (h : lastWrite edits k = some v) :
    (k, v) ∈ edits := by
  induction edits using List.reverseRecOn with
  | nil => cases h
  | append_singleton edits edit ih =>
    rw [lastWrite_append_one] at h
    split at h
    · next hk =>
      cases h
      subst hk
      exact List.mem_append_right _ (List.mem_singleton_self _)
    · exact List.mem_append_left _ (ih h)

theorem lastWrite_eq_none_iff {edits : List (κ × β)} {k : κ} :
    lastWrite edits k = none ↔ ∀ edit ∈ edits, edit.1 ≠ k := by
  induction edits using List.reverseRecOn with
  | nil => simp [lastWrite]
  | append_singleton edits edit ih =>
    rw [lastWrite_append_one]
    by_cases hk : edit.1 = k
    · rw [if_pos hk]
      refine ⟨fun h => (by cases h), fun h => absurd hk (h edit ?_)⟩
      exact List.mem_append_right _ (List.mem_singleton_self edit)
    · simp only [if_neg hk, ih, List.mem_append, List.mem_singleton]
      refine ⟨fun h e he => he.elim (h e) fun heq => heq ▸ hk, fun h e he => h e (.inl he)⟩

theorem lastWrite_eq_some_iff {edits : List (κ × β)} (hnodup : (edits.map Prod.fst).Nodup) {k : κ}
    {v : β} : lastWrite edits k = some v ↔ (k, v) ∈ edits := by
  refine ⟨lastWrite_mem, fun h => ?_⟩
  induction edits using List.reverseRecOn with
  | nil => cases h
  | append_singleton edits edit ih =>
    rw [List.map_append, List.nodup_append] at hnodup
    obtain ⟨hedits, -, hapart⟩ := hnodup
    rw [lastWrite_append_one]
    rcases List.mem_append.mp h with hmem | hlast
    · have hne : edit.1 ≠ k := fun heq => hapart k (List.mem_map_of_mem hmem) k (by simp [heq]) rfl
      rw [if_neg hne, ih hedits hmem]
    · rw [← List.mem_singleton.mp hlast, if_pos rfl]

-- A fold of writes reads back as the last write, or as what was there before.
theorem read_foldl {I : σ → Prop} {V : κ × β → Prop} {r : σ → κ → γ} {w : σ → κ × β → σ}
    {f : β → γ} (hinv : ∀ s edit, I s → V edit → I (w s edit))
    (hread : ∀ s edit k, I s → V edit → r (w s edit) k = if edit.1 = k then f edit.2 else r s k)
    {s : σ} (hs : I s) (edits : List (κ × β)) (hv : ∀ edit ∈ edits, V edit) (k : κ) :
    r (edits.foldl w s) k = ((lastWrite edits k).map f).getD (r s k) := by
  induction edits using List.reverseRecOn with
  | nil => rfl
  | append_singleton edits edit ih =>
    have hrest : ∀ e ∈ edits, V e := fun e he => hv e (List.mem_append_left _ he)
    have hlast : V edit := hv edit (List.mem_append_right _ (List.mem_singleton_self edit))
    have hfold : I (edits.foldl w s) :=
      List.foldlRecOn edits w hs fun t ht e he => hinv t e ht (hrest e he)
    rw [List.foldl_append, List.foldl_cons, List.foldl_nil, hread _ _ _ hfold hlast,
      lastWrite_append_one, ih hrest]
    split <;> rfl

end Lib
