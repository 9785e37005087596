import Cobblestone.Lib.Bytes

namespace Lib

variable {ε α β : Type}

abbrev Reader (ε α : Type) := StateT Bytes (Except ε) α

namespace Reader

def bytes (n : Nat) (short : ε) : Reader ε Bytes := fun rest =>
  if rest.length < n then .error short else .ok (rest.take n, rest.drop n)

def natLE (n : Nat) (short : ε) : Reader ε Nat := do
  let b ← bytes n short
  pure (ofLE b)

def require (condition : Bool) (e : ε) : Reader ε Unit := fun rest =>
  if condition then .ok ((), rest) else .error e

def atLeast (n : Nat) (short : ε) : Reader ε Unit := fun rest =>
  if rest.length < n then .error short else .ok ((), rest)

def times (r : Reader ε α) : Nat → Reader ε (List α)
  | 0 => pure []
  | n + 1 => do
    let a ← r
    let as ← times r n
    pure (a :: as)

theorem bind_ok {r : Reader ε α} {k : α → Reader ε β} {s t : Bytes} {b : β}
    (h : (r >>= k) s = .ok (b, t)) : ∃ a u, r s = .ok (a, u) ∧ k a u = .ok (b, t) := by
  cases hr : r s with
  | error e => simp [bind, StateT.bind, Except.bind, hr] at h
  | ok p => exact ⟨p.1, p.2, rfl, by simpa [bind, StateT.bind, Except.bind, hr] using h⟩

theorem bind_of_ok {r : Reader ε α} {k : α → Reader ε β} {s t : Bytes} {a : α}
    (h : r s = .ok (a, t)) : (r >>= k) s = k a t := by
  simp [bind, StateT.bind, Except.bind, h]

theorem bind_error {r : Reader ε α} {k : α → Reader ε β} {s : Bytes} {e : ε}
    (h : r s = .error e) : (r >>= k) s = .error e := by
  simp [bind, StateT.bind, Except.bind, h]

theorem require_ok {condition : Bool} {e : ε} {s : Bytes} {p : Unit × Bytes}
    (h : require condition e s = .ok p) : condition = true ∧ p = ((), s) := by
  unfold require at h
  split at h
  · next hc => exact ⟨hc, by cases h; rfl⟩
  · cases h

theorem pure_ok {a b : α} {s t : Bytes} (h : (pure a : Reader ε α) s = .ok (b, t)) :
    b = a ∧ t = s := by
  cases h
  exact ⟨rfl, rfl⟩

theorem length_times {r : Reader ε α} {n : Nat} {s t : Bytes} {as : List α}
    (h : times r n s = .ok (as, t)) : as.length = n := by
  induction n generalizing s t as with
  | zero =>
    obtain ⟨rfl, -⟩ := pure_ok h
    rfl
  | succ n ih =>
    obtain ⟨a, u, -, h⟩ := bind_ok h
    obtain ⟨bs, v, hb, h⟩ := bind_ok h
    obtain ⟨rfl, -⟩ := pure_ok h
    simp [ih hb]

end Reader

def Reads (r : Reader ε α) (enc : Bytes) (a : α) : Prop := ∀ rest, r (enc ++ rest) = .ok (a, rest)

namespace Reads

theorem run {r : Reader ε α} {enc : Bytes} {a : α} (h : Reads r enc a) (k : α → Reader ε β)
    (rest : Bytes) : (r >>= k) (enc ++ rest) = k a rest :=
  Reader.bind_of_ok (h rest)

theorem pure (a : α) : Reads (Pure.pure a : Reader ε α) [] a := fun _ => rfl

theorem bind {r : Reader ε α} {k : α → Reader ε β} {enc enc' : Bytes} {a : α} {b : β}
    (h : Reads r enc a) (hk : Reads (k a) enc' b) : Reads (r >>= k) (enc ++ enc') b := by
  intro rest
  rw [List.append_assoc, h.run k]
  exact hk rest

theorem bind_silent {r : Reader ε α} {k : α → Reader ε β} {enc : Bytes} {a : α} {b : β}
    (h : Reads r [] a) (hk : Reads (k a) enc b) : Reads (r >>= k) enc b := h.bind hk

theorem bind_pure {r : Reader ε α} {enc : Bytes} {a : α} (h : Reads r enc a) (f : α → β) :
    Reads (do let x ← r; Pure.pure (f x)) enc (f a) := by
  have hb := h.bind (k := fun x => Pure.pure (f x)) (Reads.pure (f a))
  rwa [List.append_nil] at hb

theorem bytes {n : Nat} {b : Bytes} (h : b.length = n) (short : ε) :
    Reads (Reader.bytes n short) b b := by
  intro rest
  subst h
  simp [Reader.bytes]

theorem natLE {n v : Nat} (h : v < 256 ^ n) (short : ε) :
    Reads (Reader.natLE n short) (toLE n v) v := by
  have hr := (Reads.bytes (length_toLE n v) short).bind_pure ofLE
  rwa [ofLE_toLE_of_lt h] at hr

theorem require {condition : Bool} (h : condition = true) (e : ε) :
    Reads (Reader.require condition e) [] () := by
  intro rest
  simp [Reader.require, h]

theorem bind_atLeast {n : Nat} {short : ε} {k : Unit → Reader ε β} {enc : Bytes} {b : β}
    (hn : n ≤ enc.length) (hk : Reads (k ()) enc b) :
    Reads (Reader.atLeast n short >>= k) enc b := by
  intro rest
  have hl : ¬ (enc ++ rest).length < n := by
    rw [List.length_append]
    omega
  rw [Reader.bind_of_ok (t := enc ++ rest) (a := ()) (if_neg hl)]
  exact hk rest

theorem times_map {γ : Type} {r : Reader ε α} {encode : γ → Bytes} {f : γ → α} {cs : List γ}
    (h : ∀ c ∈ cs, Reads r (encode c) (f c)) :
    Reads (r.times cs.length) (cs.flatMap encode) (cs.map f) := by
  induction cs with
  | nil => exact Reads.pure []
  | cons c cs ih =>
    rw [List.length_cons, Reader.times, List.flatMap_cons]
    refine (h c List.mem_cons_self).bind ?_
    exact (ih fun b hb => h b (List.mem_cons_of_mem _ hb)).bind_pure (f c :: ·)

theorem times {r : Reader ε α} {encode : α → Bytes} {as : List α}
    (h : ∀ a ∈ as, Reads r (encode a) a) :
    Reads (r.times as.length) (as.flatMap encode) as := by
  have hmap := times_map (f := id) h
  rwa [List.map_id] at hmap

end Reads

-- Whatever the reader accepts, it takes exactly `n` bytes and does not look beyond them.
def Consumes (r : Reader ε α) (n : Nat) : Prop :=
  ∀ s a t, r s = .ok (a, t) → ∃ pre, s = pre ++ t ∧ pre.length = n ∧ Reads r pre a

namespace Consumes

theorem pure (a : α) : Consumes (Pure.pure a : Reader ε α) 0 := by
  intro s b t h
  obtain ⟨rfl, rfl⟩ := Reader.pure_ok h
  exact ⟨[], rfl, rfl, Reads.pure b⟩

theorem bind {r : Reader ε α} {k : α → Reader ε β} {n m : Nat} (hr : Consumes r n)
    (hk : ∀ a, Consumes (k a) m) : Consumes (r >>= k) (n + m) := by
  intro s b t h
  obtain ⟨a, u, ha, hb⟩ := Reader.bind_ok h
  obtain ⟨pre, rfl, hn, hpre⟩ := hr s a u ha
  obtain ⟨mid, rfl, hm, hmid⟩ := hk a u b t hb
  exact ⟨pre ++ mid, (List.append_assoc _ _ _).symm, by rw [List.length_append, hn, hm],
    hpre.bind hmid⟩

theorem bytes (n : Nat) (short : ε) : Consumes (Reader.bytes n short) n := by
  intro s b t h
  rw [Reader.bytes] at h
  split at h
  · cases h
  · next hlen =>
    cases h
    have htake : (s.take n).length = n := List.length_take_of_le (Nat.le_of_not_lt hlen)
    exact ⟨s.take n, (List.take_append_drop n s).symm, htake, Reads.bytes htake short⟩

theorem natLE (n : Nat) (short : ε) : Consumes (Reader.natLE n short) n :=
  (bytes n short).bind fun _ => pure _

theorem require (condition : Bool) (e : ε) : Consumes (Reader.require condition e) 0 := by
  intro s u t h
  obtain ⟨hc, heq⟩ := Reader.require_ok h
  cases heq
  exact ⟨[], rfl, rfl, Reads.require hc e⟩

end Consumes

end Lib
