import Cobblestone.Lib.Word

namespace Lib

variable {α β : Type}

abbrev Cursor (α : Type) := Reader Unit α

namespace Cursor

open Word

def take (count : Nat) : Cursor Bytes := Reader.bytes count ()

def fail : Cursor α := fun _ => .error ()

def word [Word α] : Cursor α := do
  let value ← take (width α)
  pure (ofLeBytes value)

def bool : Cursor Bool := do
  let value ← word (α := UInt8)
  pure (value != 0)

def ofOption : Option α → Cursor α
  | some a => pure a
  | none => fail

def finish (r : Cursor α) (bytes : Bytes) : Option α :=
  match r bytes with
  | .ok (a, []) => some a
  | _ => none

theorem finish_eq_some {r : Cursor α} {bytes : Bytes} {a : α} :
    finish r bytes = some a ↔ r bytes = .ok (a, []) := by
  rw [finish]
  split
  · rename_i b heq
    rw [heq]
    exact ⟨fun h => by cases h; rfl, fun h => by cases h; rfl⟩
  · rename_i hne
    exact ⟨nofun, fun h => absurd h (hne a)⟩

def bit (value : Bool) : UInt8 := if value then 1 else 0

theorem reads_word [Word α] (a : α) : Reads word (toLeBytes a) a := by
  have h := (Reads.bytes (length_toLeBytes a) ()).bind_pure (ofLeBytes (α := α))
  rwa [ofLeBytes_toLeBytes] at h

theorem reads_u8 (a : UInt8) : Reads word [a] a := by
  have h := reads_word a
  rwa [show toLeBytes a = [a] by simp [toLeBytes, toLE, Word.toNat, width]] at h

theorem reads_bool (b : Bool) : Reads bool [bit b] b := by
  have h := (reads_u8 (bit b)).bind_pure (fun value => value != 0)
  cases b <;> exact h

theorem reads_ofOption {o : Option α} {a : α} (h : o = some a) : Reads (ofOption o) [] a := by
  subst h
  exact Reads.pure a

theorem reads_times_map {r : Cursor β} {encode : α → Bytes} {f : α → β} {as : List α}
    (h : ∀ a ∈ as, Reads r (encode a) (f a)) :
    Reads (r.times as.length) (as.flatMap encode) (as.map f) := by
  induction as with
  | nil => exact Reads.pure []
  | cons a as ih =>
    rw [List.length_cons, Reader.times, List.flatMap_cons, List.map_cons]
    refine (h a List.mem_cons_self).bind ?_
    exact (ih fun b hb => h b (List.mem_cons_of_mem _ hb)).bind_pure (f a :: ·)

end Cursor

-- What the reader accepts does not depend on the bytes after it.
def Extends (r : Cursor α) : Prop :=
  ∀ s a t, r s = .ok (a, t) → ∀ q, r (s ++ q) = .ok (a, t ++ q)

namespace Extends

variable {r : Cursor α} {k : α → Cursor β}

theorem pure (a : α) : Extends (Pure.pure a : Cursor α) := by
  intro s b t h q
  obtain ⟨rfl, rfl⟩ := Reader.pure_ok h
  rfl

theorem fail : Extends (Cursor.fail : Cursor α) := fun _ _ _ h => nomatch h

theorem bind (hr : Extends r) (hk : ∀ a, Extends (k a)) : Extends (r >>= k) := by
  intro s b t h q
  obtain ⟨a, u, ha, hb⟩ := Reader.bind_ok h
  rw [Reader.bind_of_ok (hr s a u ha q)]
  exact hk a u b t hb q

theorem map (hr : Extends r) (f : α → β) :
    Extends (do let a ← r; Pure.pure (f a)) :=
  hr.bind fun a => pure (f a)

theorem take (count : Nat) : Extends (Cursor.take count) := by
  intro s a t h q
  rw [Cursor.take, Reader.bytes] at h ⊢
  split at h
  · cases h
  · rename_i hlen
    cases h
    have hle : count ≤ s.length := Nat.le_of_not_lt hlen
    have hlonger : ¬ (s ++ q).length < count := by
      rw [List.length_append]
      omega
    rw [if_neg hlonger, List.take_append_of_le_length hle, List.drop_append_of_le_length hle]

theorem word [Word α] : Extends (Cursor.word (α := α)) := (take _).map _

theorem bool : Extends Cursor.bool := word.map _

theorem ofOption (o : Option α) : Extends (Cursor.ofOption o) := by
  cases o with
  | none => exact fail
  | some a => exact pure a

theorem require (condition : Bool) : Extends (Reader.require condition ()) := by
  intro s a t h q
  obtain ⟨hc, heq⟩ := Reader.require_ok h
  cases heq
  rw [Reader.require, if_pos hc]

theorem times (hr : Extends r) (n : Nat) : Extends (r.times n) := by
  induction n with
  | zero => exact pure []
  | succ n ih => exact hr.bind fun a => ih.map _

theorem ite {condition : Prop} [Decidable condition] {r' : Cursor α} (hr : Extends r)
    (hr' : Extends r') : Extends (if condition then r else r') := by
  split
  · exact hr
  · exact hr'

-- A reader that accepts the whole of the bytes accepts no strict prefix of them and no extension.
theorem finish_unextended (hr : Extends r) {pre suf : Bytes} {a b : α}
    (hwhole : Cursor.finish r (pre ++ suf) = some a) (hpre : Cursor.finish r pre = some b) :
    suf = [] := by
  rw [Cursor.finish_eq_some] at hwhole hpre
  rw [hr pre b [] hpre suf] at hwhole
  cases hwhole
  rfl

end Extends

-- If the reader accepts the bytes and what follows them, it has read this value out of them.
def Yields (r : Cursor α) (enc : Bytes) (a : α) : Prop :=
  ∀ rest b t, r (enc ++ rest) = .ok (b, t) → b = a ∧ t = rest

theorem Reads.yields {r : Cursor α} {enc : Bytes} {a : α} (h : Reads r enc a) : Yields r enc a := by
  intro rest b t hr
  rw [h rest] at hr
  cases hr
  exact ⟨rfl, rfl⟩

namespace Yields

variable {r : Cursor α} {k : α → Cursor β} {enc enc' : Bytes} {a : α} {b : β}

theorem fail : Yields (Cursor.fail : Cursor α) enc a := fun _ _ _ h => nomatch h

theorem require (condition : Bool) : Yields (Reader.require condition ()) [] () := by
  intro rest b t h
  obtain ⟨-, heq⟩ := Reader.require_ok h
  cases heq
  exact ⟨rfl, rfl⟩

theorem bind (h : Yields r enc a) (hk : Yields (k a) enc' b) : Yields (r >>= k) (enc ++ enc') b := by
  intro rest c t hr
  rw [List.append_assoc] at hr
  obtain ⟨a', u, ha, hb⟩ := Reader.bind_ok hr
  obtain ⟨rfl, rfl⟩ := h _ _ _ ha
  exact hk _ _ _ hb

theorem bind_silent (h : Yields r [] a) (hk : Yields (k a) enc b) : Yields (r >>= k) enc b :=
  h.bind hk

theorem bind_pure (h : Yields r enc a) (f : α → β) :
    Yields (do let x ← r; Pure.pure (f x)) enc (f a) := by
  have hb := h.bind (k := fun x => Pure.pure (f x)) (Reads.pure (f a)).yields
  rwa [List.append_nil] at hb

theorem times_map {r : Cursor β} {encode : α → Bytes} {f : α → β} {as : List α}
    (h : ∀ a ∈ as, Yields r (encode a) (f a)) :
    Yields (r.times as.length) (as.flatMap encode) (as.map f) := by
  induction as with
  | nil => exact (Reads.pure []).yields
  | cons a as ih =>
    rw [List.length_cons, Reader.times, List.flatMap_cons, List.map_cons]
    refine (h a List.mem_cons_self).bind ?_
    exact (ih fun b hb => h b (List.mem_cons_of_mem _ hb)).bind_pure (f a :: ·)

theorem finish (h : Yields r enc a) {rest : Bytes} {b : α}
    (hr : Cursor.finish r (enc ++ rest) = some b) : b = a ∧ rest = [] := by
  obtain ⟨hb, ht⟩ := h rest b [] (Cursor.finish_eq_some.mp hr)
  exact ⟨hb, ht.symm⟩

end Yields

end Lib
