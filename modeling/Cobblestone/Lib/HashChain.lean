import Mathlib.Data.List.Basic

-- One singly linked list holds all the entries of a hash table, bucket by bucket; a bucket keeps
-- the entry that stands before its first one.
namespace Lib

inductive Before where
  | empty
  | beforeBegin
  | after (index : Nat)
deriving DecidableEq, Repr

def Linked (next : Nat → Option (Option Nat)) : Option Nat → List Nat → Prop
  | head, [] => head = none
  | head, x :: xs => head = some x ∧ ∃ tail, next x = some tail ∧ Linked next tail xs

section Grouped

variable {α κ : Type} (key : α → κ)

def Grouped : List α → Prop
  | [] => True
  | x :: xs => (∀ y ∈ xs, key y = key x → xs.head?.map key = some (key x)) ∧ Grouped xs

theorem grouped_cons_new {x : α} {xs : List α} (h : Grouped key xs)
    (hnew : ∀ y ∈ xs, key y ≠ key x) : Grouped key (x :: xs) :=
  ⟨fun y hy heq => absurd heq (hnew y hy), h⟩

theorem grouped_cons_front {x y : α} {xs : List α} (h : Grouped key (y :: xs))
    (hkey : key y = key x) : Grouped key (x :: y :: xs) :=
  ⟨fun _ _ _ => congrArg some hkey, h⟩

theorem grouped_insert (xs ys : List α) {x y : α} (h : Grouped key (xs ++ y :: ys))
    (hfirst : ∀ z ∈ xs, key z ≠ key x) (hkey : key y = key x) :
    Grouped key (xs ++ x :: y :: ys) := by
  induction xs with
  | nil => exact grouped_cons_front key h hkey
  | cons a xs ih =>
    have ha := hfirst a List.mem_cons_self
    have hrest : ∀ z ∈ xs, key z ≠ key x := fun z hz => hfirst z (List.mem_cons_of_mem a hz)
    refine ⟨fun z hz hza => ?_, ih h.2 hrest⟩
    have hold : z ∈ xs ++ y :: ys := by
      rcases List.mem_append.mp hz with hz | hz
      · exact List.mem_append_left _ hz
      · rcases List.mem_cons.mp hz with rfl | hz
        · exact absurd hza.symm ha
        · exact List.mem_append_right xs hz
    have hhead := h.1 z hold hza
    cases xs with
    | nil => exact absurd (Option.some.inj hhead).symm (fun heq => ha (heq.trans hkey))
    | cons b xs => exact hhead

theorem Grouped.between {key : α → κ} {xs : List α} (h : Grouped key xs) {i j k : Nat}
    (hij : i ≤ j) (hjk : j ≤ k) (hk : k < xs.length) (heq : key xs[i] = key xs[k]) :
    key xs[j] = key xs[i] := by
  induction xs generalizing i j k with
  | nil => cases hk
  | cons x xs ih =>
    cases i with
    | succ i =>
      obtain ⟨j, rfl⟩ := Nat.exists_eq_add_of_le' (Nat.le_trans (Nat.le_add_left 1 i) hij)
      obtain ⟨k, rfl⟩ := Nat.exists_eq_add_of_le' (Nat.le_trans (Nat.le_add_left 1 j) hjk)
      exact ih h.2 (Nat.le_of_succ_le_succ hij) (Nat.le_of_succ_le_succ hjk)
        (Nat.lt_of_succ_lt_succ hk) heq
    | zero =>
      cases j with
      | zero => rfl
      | succ j =>
        obtain ⟨k, rfl⟩ := Nat.exists_eq_add_of_le' (Nat.le_trans (Nat.le_add_left 1 j) hjk)
        have hk' : k < xs.length := Nat.lt_of_succ_lt_succ hk
        have hlast : key x = key xs[k] := heq
        -- the next entry has the key of `x` as well, and stands no further from the last one
        have hhead := h.1 xs[k] (List.getElem_mem hk') hlast.symm
        have hpos : 0 < xs.length := Nat.lt_of_le_of_lt (Nat.zero_le k) hk'
        have hfirst : key xs[0] = key x := by
          cases xs with
          | nil => cases hk'
          | cons y ys => exact Option.some.inj hhead
        have hj := ih h.2 (Nat.zero_le j) (Nat.le_of_succ_le_succ hjk) hk' (hfirst.trans hlast)
        exact hj.trans hfirst

end Grouped

section Before

variable {κ : Type} [DecidableEq κ] (key : Nat → κ)

def afterOf (b : κ) : Nat → List Nat → Before
  | _, [] => .empty
  | p, x :: xs => if key x = b then .after p else afterOf b x xs

def beforeOf (b : κ) : List Nat → Before
  | [] => .empty
  | x :: xs => if key x = b then .beforeBegin else afterOf key b x xs

theorem afterOf_of_notMem {b : κ} {p : Nat} {xs : List Nat} (h : ∀ x ∈ xs, key x ≠ b) :
    afterOf key b p xs = .empty := by
  induction xs generalizing p with
  | nil => rfl
  | cons x xs ih =>
    rw [afterOf, if_neg (h x List.mem_cons_self)]
    exact ih fun y hy => h y (List.mem_cons_of_mem x hy)

theorem afterOf_append {b : κ} {p q : Nat} {xs ys : List Nat} (h : ∀ x ∈ xs, key x ≠ b)
    (hq : key q ≠ b) : afterOf key b p (xs ++ q :: ys) = afterOf key b q ys := by
  induction xs generalizing p with
  | nil => rw [List.nil_append, afterOf, if_neg hq]
  | cons x xs ih =>
    rw [List.cons_append, afterOf, if_neg (h x List.mem_cons_self)]
    exact ih fun y hy => h y (List.mem_cons_of_mem x hy)

theorem afterOf_eq_empty {b : κ} {p : Nat} {xs : List Nat} (h : afterOf key b p xs = .empty) :
    ∀ x ∈ xs, key x ≠ b := by
  induction xs generalizing p with
  | nil => exact fun x hx => nomatch hx
  | cons x xs ih =>
    rw [afterOf] at h
    split at h
    · cases h
    · rename_i hx
      intro y hy
      rcases List.mem_cons.mp hy with rfl | hy
      · exact hx
      · exact ih h y hy

theorem afterOf_ne_beforeBegin {b : κ} {p : Nat} {xs : List Nat} :
    afterOf key b p xs ≠ .beforeBegin := by
  induction xs generalizing p with
  | nil => exact nofun
  | cons x xs ih =>
    rw [afterOf]
    split
    · exact nofun
    · exact ih

theorem afterOf_eq_after {b : κ} {p q : Nat} {xs : List Nat} (hp : key p ≠ b)
    (h : afterOf key b p xs = .after q) :
    ∃ pre x post, p :: xs = pre ++ q :: x :: post ∧ key x = b ∧ key q ≠ b ∧
      ∀ y ∈ pre, key y ≠ b := by
  induction xs generalizing p with
  | nil => cases h
  | cons x xs ih =>
    rw [afterOf] at h
    split at h
    · rename_i hx
      cases h
      exact ⟨[], x, xs, rfl, hx, hp, fun _ hy => nomatch hy⟩
    · rename_i hx
      obtain ⟨pre, y, post, heq, hy, hq, hpre⟩ := ih hx h
      refine ⟨p :: pre, y, post, by rw [heq, List.cons_append], hy, hq, fun z hz => ?_⟩
      rcases List.mem_cons.mp hz with rfl | hz
      · exact hp
      · exact hpre z hz

theorem beforeOf_eq_empty {b : κ} {xs : List Nat} (h : beforeOf key b xs = .empty) :
    ∀ x ∈ xs, key x ≠ b := by
  cases xs with
  | nil => exact fun x hx => nomatch hx
  | cons x xs =>
    rw [beforeOf] at h
    split at h
    · cases h
    · rename_i hx
      intro y hy
      rcases List.mem_cons.mp hy with rfl | hy
      · exact hx
      · exact afterOf_eq_empty key h y hy

theorem beforeOf_eq_beforeBegin {b : κ} {xs : List Nat} (h : beforeOf key b xs = .beforeBegin) :
    ∃ x post, xs = x :: post ∧ key x = b := by
  cases xs with
  | nil => cases h
  | cons x xs =>
    rw [beforeOf] at h
    split at h
    · rename_i hx
      exact ⟨x, xs, rfl, hx⟩
    · exact absurd h (afterOf_ne_beforeBegin key)

theorem beforeOf_eq_after {b : κ} {q : Nat} {xs : List Nat} (h : beforeOf key b xs = .after q) :
    ∃ pre x post, xs = pre ++ q :: x :: post ∧ key x = b ∧ key q ≠ b ∧ ∀ y ∈ pre, key y ≠ b := by
  cases xs with
  | nil => cases h
  | cons x xs =>
    rw [beforeOf] at h
    split at h
    · cases h
    · rename_i hx
      exact afterOf_eq_after key hx h

-- A new first entry takes over the bucket whose entries the list began with.
theorem afterOf_eq_beforeOf {b : κ} {p : Nat} {xs : List Nat}
    (h : ∀ x, xs.head? = some x → key x ≠ b) : afterOf key b p xs = beforeOf key b xs := by
  cases xs with
  | nil => rfl
  | cons x xs => rw [afterOf, beforeOf, if_neg (h x rfl), if_neg (h x rfl)]

theorem beforeOf_insert (b : κ) (pre post : List Nat) {p i x : Nat} (hkey : key i = key x) :
    beforeOf key b (pre ++ p :: i :: x :: post) = beforeOf key b (pre ++ p :: x :: post) := by
  have hpair : afterOf key b p (i :: x :: post) = afterOf key b p (x :: post) := by
    by_cases hx : key x = b
    · simp [afterOf, hkey, hx]
    · simp [afterOf, hkey, hx]
  have hafter (q : Nat) (xs : List Nat) : afterOf key b q (xs ++ p :: i :: x :: post) =
      afterOf key b q (xs ++ p :: x :: post) := by
    induction xs generalizing q with
    | nil =>
      rw [List.nil_append, List.nil_append, afterOf, hpair]
      rfl
    | cons y ys ih =>
      simp only [List.cons_append, afterOf]
      rw [ih]
  cases pre with
  | nil =>
    rw [List.nil_append, List.nil_append, beforeOf, hpair]
    rfl
  | cons y ys => simp only [List.cons_append, beforeOf, hafter]

end Before

namespace Linked

variable {next next' : Nat → Option (Option Nat)} {head : Option Nat} {xs : List Nat}

theorem congr (h : Linked next head xs) (hsame : ∀ x ∈ xs, next' x = next x) :
    Linked next' head xs := by
  induction xs generalizing head with
  | nil => exact h
  | cons x xs ih =>
    obtain ⟨hhead, tail, hnext, htail⟩ := h
    refine ⟨hhead, tail, (hsame x List.mem_cons_self).trans hnext, ih htail fun y hy => ?_⟩
    exact hsame y (List.mem_cons_of_mem x hy)

theorem insert (pre post : List Nat) {p i : Nat}
    (h : Linked next head (pre ++ p :: post)) (hnodup : (pre ++ p :: post).Nodup)
    (hp : next' p = some (some i)) (hi : next' i = next p)
    (hsame : ∀ x ∈ pre ++ p :: post, x ≠ p → next' x = next x) :
    Linked next' head (pre ++ p :: i :: post) := by
  induction pre generalizing head with
  | nil =>
    obtain ⟨hhead, tail, hnext, htail⟩ := h
    refine ⟨hhead, some i, hp, rfl, tail, hi.trans hnext, htail.congr fun y hy => ?_⟩
    refine hsame y (List.mem_cons_of_mem p hy) ?_
    rintro rfl
    exact (List.nodup_cons.mp hnodup).1 hy
  | cons a pre ih =>
    obtain ⟨hhead, tail, hnext, htail⟩ := h
    have ha : a ≠ p := by
      rintro rfl
      exact (List.nodup_cons.mp hnodup).1 (List.mem_append_right pre List.mem_cons_self)
    refine ⟨hhead, tail, (hsame a List.mem_cons_self ha).trans hnext, ?_⟩
    exact ih htail (List.nodup_cons.mp hnodup).2 fun y hy => hsame y (List.mem_cons_of_mem a hy)

end Linked

end Lib
