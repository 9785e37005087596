import Cobblestone.Lib.Logs

namespace Lib

variable {κ β ρ : Type}

-- A content of cells beside a rest, and the changes a journal tells a reader of it: some cells, or
-- that everything may differ.
@[ext]
structure Content (κ β ρ : Type) where
  rest : ρ
  cell : κ → β

inductive Change (κ β : Type) where
  | cells (edits : List (κ × β))
  | everything

namespace Change

def edits : Change κ β → List (κ × β)
  | .cells edits => edits
  | .everything => []

def editsOf (changes : List (Change κ β)) : List (κ × β) := changes.flatMap edits

end Change

open Change

namespace Content

theorem editsOf_append_one (changes : List (Change κ β)) (change : Change κ β) :
    editsOf (changes ++ [change]) = editsOf changes ++ change.edits := by
  rw [editsOf, List.flatMap_append, List.flatMap_singleton]
  rfl

theorem eq_append_of_append_one {changes before after : List (Change κ β)} {change : Change κ β}
    (h : changes ++ [change] = before ++ after) :
    after = [] ∨ ∃ after', after = after' ++ [change] ∧ changes = before ++ after' := by
  rcases List.eq_nil_or_concat after with rfl | ⟨after', last, rfl⟩
  · exact .inl rfl
  · rw [List.concat_eq_append, ← List.append_assoc] at h
    obtain ⟨hchanges, hlast⟩ := List.append_inj' h rfl
    rw [List.concat_eq_append, ← List.singleton_inj.mp hlast]
    exact .inr ⟨after', rfl, hchanges⟩

-- A replica that agrees with the content wherever the other one does.
structure Nearer (c replica replica' : Content κ β ρ) : Prop where
  rest : replica.rest = c.rest → replica'.rest = c.rest
  cell : ∀ k, replica.cell k = c.cell k → replica'.cell k = c.cell k

theorem Nearer.refl (c replica : Content κ β ρ) : Nearer c replica replica := ⟨id, fun _ => id⟩

theorem Nearer.trans {c replica replica' replica'' : Content κ β ρ} (h : Nearer c replica replica')
    (h' : Nearer c replica' replica'') : Nearer c replica replica'' :=
  ⟨fun hrest => h'.rest (h.rest hrest), fun k hk => h'.cell k (h.cell k hk)⟩

theorem nearer_self (c replica : Content κ β ρ) : Nearer c replica c := ⟨fun _ => rfl, fun _ _ => rfl⟩

end Content

variable [DecidableEq κ]

theorem lastWrite_append (first second : List (κ × β)) (k : κ) :
    lastWrite (first ++ second) k = (lastWrite second k).or (lastWrite first k) := by
  induction second using List.reverseRecOn with
  | nil => rw [List.append_nil]; rfl
  | append_singleton second edit ih =>
    rw [← List.append_assoc, lastWrite_append_one, lastWrite_append_one, ih]
    split <;> rfl

namespace Content

def write (c : Content κ β ρ) (edits : List (κ × β)) : Content κ β ρ :=
  ⟨c.rest, fun k => (lastWrite edits k).getD (c.cell k)⟩

-- What happens to a content, and what the journal is told of it.
inductive Feeds (c : Content κ β ρ) : Content κ β ρ → List (Change κ β) → Prop where
  | same : Feeds c c []
  | cells (edits : List (κ × β)) : Feeds c (c.write edits) [.cells edits]
  | everything (c' : Content κ β ρ) : Feeds c c' [.everything]

-- Whatever suffix of the changes a reader has still to see, its last write to a cell is what the
-- cell holds, unless the suffix says that everything may differ.
def Faithful (changes : List (Change κ β)) (c : Content κ β ρ) : Prop :=
  ∀ before after, changes = before ++ after → .everything ∉ after →
    ∀ k v, lastWrite (editsOf after) k = some v → c.cell k = v

-- What a reader with these changes still to see may rely on.
def Trails (changes : List (Change κ β)) (replica c : Content κ β ρ) : Prop :=
  .everything ∈ changes ∨ (replica.rest = c.rest ∧
    ∀ k, lastWrite (editsOf changes) k = none → replica.cell k = c.cell k)

variable {changes after new : List (Change κ β)} {replica replica' c c' : Content κ β ρ}

theorem faithful_nil (c : Content κ β ρ) : Faithful ([] : List (Change κ β)) c := by
  intro before after h _ k v hv
  rw [(List.append_eq_nil_iff.mp h.symm).2] at hv
  cases hv

theorem Faithful.write (h : Faithful changes c) (edits : List (κ × β)) :
    Faithful (changes ++ [.cells edits]) (c.write edits) := by
  intro before after heq hnone k v hv
  rcases eq_append_of_append_one heq with rfl | ⟨after', rfl, hchanges⟩
  · cases hv
  · rw [editsOf_append_one, lastWrite_append] at hv
    have hkept : .everything ∉ after' := fun hmem => hnone (List.mem_append_left _ hmem)
    change (lastWrite edits k).getD (c.cell k) = v
    cases hedit : lastWrite edits k with
    | some w =>
      rw [Change.edits, hedit, Option.some_or] at hv
      exact Option.some.inj hv
    | none =>
      rw [Change.edits, hedit, Option.none_or] at hv
      exact h before after' hchanges hkept k v hv

theorem faithful_everything (changes : List (Change κ β)) (c : Content κ β ρ) :
    Faithful (changes ++ [.everything]) c := by
  intro before after heq hnone k v hv
  rcases eq_append_of_append_one heq with rfl | ⟨after', rfl, -⟩
  · cases hv
  · exact absurd (List.mem_append_right _ List.mem_cons_self) hnone

theorem Faithful.feed (h : Faithful changes c) (hfeed : Feeds c c' new) :
    Faithful (changes ++ new) c' := by
  cases hfeed with
  | same => rwa [List.append_nil]
  | cells edits => exact h.write edits
  | everything => exact faithful_everything changes c'

theorem Faithful.suffix (h : Faithful changes c) (hsuffix : after <:+ changes) :
    Faithful after c := by
  obtain ⟨front, rfl⟩ := hsuffix
  intro before rest heq
  exact h (front ++ before) rest (by rw [heq, List.append_assoc])

-- What a reader finds when it folds the changes it has still to see.
theorem Faithful.last (h : Faithful changes c) (hnone : .everything ∉ changes) {k : κ} {v : β}
    (hv : lastWrite (editsOf changes) k = some v) : c.cell k = v := h [] changes rfl hnone k v hv

theorem Trails.refl (changes : List (Change κ β)) (c : Content κ β ρ) : Trails changes c c :=
  .inr ⟨rfl, fun _ _ => rfl⟩

theorem Trails.write (h : Trails changes replica c) (edits : List (κ × β)) :
    Trails (changes ++ [.cells edits]) replica (c.write edits) := by
  rcases h with hall | ⟨hrest, hcells⟩
  · exact .inl (List.mem_append_left _ hall)
  · refine .inr ⟨hrest, fun k hk => ?_⟩
    rw [editsOf_append_one, lastWrite_append, Option.or_eq_none_iff] at hk
    have hedits : lastWrite edits k = none := hk.1
    change replica.cell k = (lastWrite edits k).getD (c.cell k)
    rw [hedits, Option.getD_none]
    exact hcells k hk.2

theorem Trails.feed (h : Trails changes replica c) (hfeed : Feeds c c' new) :
    Trails (changes ++ new) replica c' := by
  cases hfeed with
  | same => rwa [List.append_nil]
  | cells edits => exact h.write edits
  | everything => exact .inl (List.mem_append_right _ List.mem_cons_self)

-- A replica brought up to date early, in part or as a whole, does no harm.
theorem Trails.nearer (h : Trails changes replica c) (hnear : Nearer c replica replica') :
    Trails changes replica' c := by
  rcases h with hall | ⟨hrest, hcells⟩
  · exact .inl hall
  · exact .inr ⟨hnear.rest hrest, fun k hk => hnear.cell k (hcells k hk)⟩

-- Once every cell written since has been brought up to date, the reader sees the content.
theorem Trails.settled (h : Trails changes replica c) (hnone : .everything ∉ changes)
    (hcells : ∀ k v, lastWrite (editsOf changes) k = some v → replica.cell k = c.cell k) :
    replica = c := by
  obtain ⟨hrest, hsame⟩ := h.resolve_left hnone
  refine Content.ext hrest (funext fun k => ?_)
  cases hk : lastWrite (editsOf changes) k with
  | none => exact hsame k hk
  | some v => exact hcells k v hk

end Content

end Lib
