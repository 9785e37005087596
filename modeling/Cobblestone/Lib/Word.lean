import Cobblestone.Lib.Reader

namespace Lib

variable {ε α β : Type}

theorem toLE_ofLE (b : Bytes) : toLE b.length (ofLE b) = b := by
  induction b with
  | nil => rfl
  | cons x xs ih =>
    have hx : x.toNat < 256 := x.toNat_lt
    have hd : (x.toNat + 256 * ofLE xs) / 256 = ofLE xs := by omega
    have hm : UInt8.ofNat (x.toNat + 256 * ofLE xs) = x := by
      apply UInt8.toNat_inj.mp
      rw [UInt8.toNat_ofNat']
      omega
    rw [List.length_cons, ofLE, toLE, hm, hd, ih]

theorem ofLE_lt (b : Bytes) : ofLE b < 256 ^ b.length := by
  induction b with
  | nil => simp [ofLE]
  | cons x xs ih =>
    have hx : x.toNat < 256 := x.toNat_lt
    rw [List.length_cons, ofLE, Nat.pow_succ']
    omega

class Word (α : Type) where
  width : Nat
  toNat : α → Nat
  ofNat : Nat → α
  toNat_lt : ∀ a, toNat a < 256 ^ width
  ofNat_toNat : ∀ a, ofNat (toNat a) = a
  toNat_ofNat : ∀ n, n < 256 ^ width → toNat (ofNat n) = n

namespace Word

instance : Word UInt8 where
  width := 1
  toNat := UInt8.toNat
  ofNat := UInt8.ofNat
  toNat_lt a := a.toNat_lt
  ofNat_toNat _ := UInt8.ofNat_toNat
  toNat_ofNat _ h := UInt8.toNat_ofNat_of_lt' h

instance : Word UInt16 where
  width := 2
  toNat := UInt16.toNat
  ofNat := UInt16.ofNat
  toNat_lt a := a.toNat_lt
  ofNat_toNat _ := UInt16.ofNat_toNat
  toNat_ofNat _ h := UInt16.toNat_ofNat_of_lt' h

instance : Word UInt32 where
  width := 4
  toNat := UInt32.toNat
  ofNat := UInt32.ofNat
  toNat_lt a := a.toNat_lt
  ofNat_toNat _ := UInt32.ofNat_toNat
  toNat_ofNat _ h := UInt32.toNat_ofNat_of_lt' h

instance : Word UInt64 where
  width := 8
  toNat := UInt64.toNat
  ofNat := UInt64.ofNat
  toNat_lt a := a.toNat_lt
  ofNat_toNat _ := UInt64.ofNat_toNat
  toNat_ofNat _ h := UInt64.toNat_ofNat_of_lt' h

instance : Word Int8 where
  width := 1
  toNat a := a.toUInt8.toNat
  ofNat n := (UInt8.ofNat n).toInt8
  toNat_lt a := a.toUInt8.toNat_lt
  ofNat_toNat a := by rw [UInt8.ofNat_toNat, Int8.toInt8_toUInt8]
  toNat_ofNat n h := by rw [UInt8.toUInt8_toInt8, UInt8.toNat_ofNat_of_lt' h]

instance : Word Int16 where
  width := 2
  toNat a := a.toUInt16.toNat
  ofNat n := (UInt16.ofNat n).toInt16
  toNat_lt a := a.toUInt16.toNat_lt
  ofNat_toNat a := by rw [UInt16.ofNat_toNat, Int16.toInt16_toUInt16]
  toNat_ofNat n h := by rw [UInt16.toUInt16_toInt16, UInt16.toNat_ofNat_of_lt' h]

instance : Word Int32 where
  width := 4
  toNat a := a.toUInt32.toNat
  ofNat n := (UInt32.ofNat n).toInt32
  toNat_lt a := a.toUInt32.toNat_lt
  ofNat_toNat a := by rw [UInt32.ofNat_toNat, Int32.toInt32_toUInt32]
  toNat_ofNat n h := by rw [UInt32.toUInt32_toInt32, UInt32.toNat_ofNat_of_lt' h]

instance : Word Int64 where
  width := 8
  toNat a := a.toUInt64.toNat
  ofNat n := (UInt64.ofNat n).toInt64
  toNat_lt a := a.toUInt64.toNat_lt
  ofNat_toNat a := by rw [UInt64.ofNat_toNat, Int64.toInt64_toUInt64]
  toNat_ofNat n h := by rw [UInt64.toUInt64_toInt64, UInt64.toNat_ofNat_of_lt' h]

variable [Word α]

def toLeBytes (a : α) : Bytes := toLE (width α) (toNat a)

def ofLeBytes (b : Bytes) : α := ofNat (ofLE b)

def toBeBytes (a : α) : Bytes := (toLeBytes a).reverse

def ofBeBytes (b : Bytes) : α := ofLeBytes b.reverse

@[simp] theorem length_toLeBytes (a : α) : (toLeBytes a).length = width α := length_toLE _ _

@[simp] theorem length_toBeBytes (a : α) : (toBeBytes a).length = width α := by
  rw [toBeBytes, List.length_reverse, length_toLeBytes]

theorem ofLeBytes_toLeBytes (a : α) : ofLeBytes (toLeBytes a) = a := by
  rw [ofLeBytes, toLeBytes, ofLE_toLE_of_lt (toNat_lt a), ofNat_toNat]

theorem toLeBytes_ofLeBytes {b : Bytes} (h : b.length = width α) :
    toLeBytes (ofLeBytes b : α) = b := by
  rw [toLeBytes, ofLeBytes, toNat_ofNat _ (h ▸ ofLE_lt b), ← h, toLE_ofLE]

theorem ofBeBytes_toBeBytes (a : α) : ofBeBytes (toBeBytes a) = a := by
  rw [ofBeBytes, toBeBytes, List.reverse_reverse, ofLeBytes_toLeBytes]

theorem toBeBytes_ofBeBytes {b : Bytes} (h : b.length = width α) :
    toBeBytes (ofBeBytes b : α) = b := by
  rw [toBeBytes, ofBeBytes, toLeBytes_ofLeBytes (List.length_reverse.trans h), List.reverse_reverse]

end Word

namespace Reader

theorem bind_ok_iff {r : Reader ε α} {k : α → Reader ε β} {s t : Bytes} {b : β} :
    (r >>= k) s = .ok (b, t) ↔ ∃ a u, r s = .ok (a, u) ∧ k a u = .ok (b, t) := by
  refine ⟨bind_ok, ?_⟩
  rintro ⟨a, u, hr, hk⟩
  rw [bind_of_ok hr, hk]

theorem pure_ok_iff {a b : α} {s t : Bytes} :
    (pure a : Reader ε α) s = .ok (b, t) ↔ a = b ∧ s = t := by
  refine ⟨fun h => ?_, ?_⟩
  · obtain ⟨rfl, rfl⟩ := pure_ok h
    exact ⟨rfl, rfl⟩
  · rintro ⟨rfl, rfl⟩
    rfl

-- `n` bounds the inputs on which the element reader is known to be exact
theorem times_ok_iff {r : Reader ε α} {good : α → Prop} {enc : α → Bytes} {n : Nat}
    (h : ∀ s, s.length ≤ n → ∀ a t, r s = .ok (a, t) ↔ good a ∧ s = enc a ++ t) :
    ∀ (k : Nat) (s : Bytes), s.length ≤ n → ∀ as t,
      times r k s = .ok (as, t) ↔
        as.length = k ∧ (∀ a ∈ as, good a) ∧ s = as.flatMap enc ++ t := by
  intro k
  induction k with
  | zero =>
    intro s _ as t
    rw [times, pure_ok_iff, List.length_eq_zero_iff]
    constructor
    · rintro ⟨rfl, rfl⟩
      exact ⟨rfl, fun _ ha => absurd ha List.not_mem_nil, rfl⟩
    · rintro ⟨rfl, -, hs⟩
      exact ⟨rfl, hs⟩
  | succ k ih =>
    intro s hs as t
    rw [times, bind_ok_iff]
    constructor
    · rintro ⟨a, u, hr, hk⟩
      obtain ⟨ha, rfl⟩ := (h s hs a u).mp hr
      obtain ⟨bs, v, hb, hp⟩ := bind_ok hk
      obtain ⟨rfl, rfl⟩ := pure_ok_iff.mp hp
      have hu : u.length ≤ n := by
        rw [List.length_append] at hs
        omega
      obtain ⟨hl, hg, rfl⟩ := (ih u hu bs v).mp hb
      refine ⟨by rw [List.length_cons, hl], ?_, by rw [List.flatMap_cons, List.append_assoc]⟩
      exact fun b hb => (List.mem_cons.mp hb).elim (fun e => e ▸ ha) (hg b)
    · rintro ⟨hl, hg, rfl⟩
      cases as with
      | nil => simp at hl
      | cons a as =>
        rw [List.flatMap_cons, List.append_assoc] at hs ⊢
        have hu : (as.flatMap enc ++ t).length ≤ n := by
          rw [List.length_append] at hs
          omega
        refine ⟨a, as.flatMap enc ++ t, ?_, ?_⟩
        · exact (h _ hs a _).mpr ⟨hg a List.mem_cons_self, rfl⟩
        · refine bind_ok_iff.mpr ⟨as, t, ?_, rfl⟩
          refine (ih _ hu as t).mpr ⟨by simpa using hl, ?_, rfl⟩
          exact fun b hb => hg b (List.mem_cons_of_mem _ hb)

end Reader

end Lib
