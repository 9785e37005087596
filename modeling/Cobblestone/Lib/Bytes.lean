import Mathlib.Data.List.Basic
import Mathlib.Tactic

namespace Lib

variable {α : Type}

abbrev Bytes := List UInt8

def sliceAt (off n : Nat) (b : List α) : List α := (b.drop off).take n

def putAt (off : Nat) (v b : List α) : List α := b.take off ++ v ++ b.drop (off + v.length)

theorem getElem?_sliceAt (off n : Nat) (b : List α) (i : Nat) :
    (sliceAt off n b)[i]? = if i < n then b[off + i]? else none := by
  simp [sliceAt, List.getElem?_take, List.getElem?_drop]

theorem getElem?_putAt {off : Nat} {v b : List α} (h : off ≤ b.length) (i : Nat) :
    (putAt off v b)[i]? =
      if i < off then b[i]? else if i < off + v.length then v[i - off]? else b[i]? := by
  have ht : (b.take off).length = off := List.length_take_of_le h
  rw [putAt, List.append_assoc]
  split
  · next hi => rw [List.getElem?_append_left (by omega), List.getElem?_take_of_lt hi]
  · next hi =>
    rw [List.getElem?_append_right (by omega), ht]
    split
    · next hv => rw [List.getElem?_append_left (by omega)]
    · next hv =>
      rw [List.getElem?_append_right (by omega), List.getElem?_drop]
      congr 1
      omega

@[simp] theorem length_sliceAt {off n : Nat} {b : List α} (h : off + n ≤ b.length) :
    (sliceAt off n b).length = n := by
  simp only [sliceAt, List.length_take, List.length_drop]
  omega

@[simp] theorem length_putAt {off : Nat} {v b : List α} (h : off + v.length ≤ b.length) :
    (putAt off v b).length = b.length := by
  simp only [putAt, List.length_append, List.length_take, List.length_drop]
  omega

theorem sliceAt_putAt_self {off : Nat} {v b : List α} (h : off ≤ b.length) :
    sliceAt off v.length (putAt off v b) = v := by
  apply List.ext_getElem?
  intro i
  rw [getElem?_sliceAt, getElem?_putAt h]
  split
  · next hi => rw [if_neg (by omega), if_pos (by omega)]; congr 1; omega
  · next hi => exact (List.getElem?_eq_none (by omega)).symm

theorem sliceAt_putAt_disjoint {o n off : Nat} {v b : List α} (h : off ≤ b.length)
    (hd : o + n ≤ off ∨ off + v.length ≤ o) :
    sliceAt o n (putAt off v b) = sliceAt o n b := by
  apply List.ext_getElem?
  intro i
  rw [getElem?_sliceAt, getElem?_sliceAt, getElem?_putAt h]
  split
  · next hi =>
    rcases hd with hd | hd
    · rw [if_pos (by omega)]
    · rw [if_neg (by omega), if_neg (by omega)]
  · rfl

theorem sliceAt_append_left {o n : Nat} {a c : List α} (h : o + n ≤ a.length) :
    sliceAt o n (a ++ c) = sliceAt o n a := by
  apply List.ext_getElem?
  intro i
  rw [getElem?_sliceAt, getElem?_sliceAt]
  split
  · rw [List.getElem?_append_left (by omega)]
  · rfl

theorem sliceAt_append_right {o n : Nat} {a c : List α} (h : a.length ≤ o) :
    sliceAt o n (a ++ c) = sliceAt (o - a.length) n c := by
  apply List.ext_getElem?
  intro i
  rw [getElem?_sliceAt, getElem?_sliceAt]
  split
  · rw [List.getElem?_append_right (by omega)]
    congr 1
    omega
  · rfl

theorem sliceAt_zero_length (a : List α) : sliceAt 0 a.length a = a := by
  simp [sliceAt]

theorem sliceAt_append_mid (a v c : List α) : sliceAt a.length v.length (a ++ v ++ c) = v := by
  rw [List.append_assoc, sliceAt_append_right (le_refl _), Nat.sub_self,
    sliceAt_append_left (by omega), sliceAt_zero_length]

theorem sliceAt_flatten (segments : List (List α)) (k : Nat) (h : k < segments.length) :
    sliceAt ((segments.take k).map List.length).sum segments[k].length segments.flatten =
      segments[k] := by
  have hs : segments.flatten =
      (segments.take k).flatten ++ segments[k] ++ (segments.drop (k + 1)).flatten := by
    conv_lhs => rw [← List.take_append_drop k segments, List.drop_eq_getElem_cons h]
    rw [List.flatten_append, List.flatten_cons, List.append_assoc]
  rw [hs, ← List.length_flatten, sliceAt_append_mid]

theorem drop_flatten (segments : List (List α)) (k : Nat) :
    segments.flatten.drop ((segments.take k).map List.length).sum = (segments.drop k).flatten := by
  conv_lhs => rw [← List.take_append_drop k segments, List.flatten_append]
  rw [List.take_append_drop, ← List.length_flatten, List.drop_left]

theorem sliceAt_sliceAt {o n o' n' : Nat} {b : List α} (h : o' + n' ≤ n) :
    sliceAt o' n' (sliceAt o n b) = sliceAt (o + o') n' b := by
  apply List.ext_getElem?
  intro i
  rw [getElem?_sliceAt, getElem?_sliceAt, getElem?_sliceAt]
  split
  · rw [if_pos (by omega)]
    congr 1
    omega
  · rfl

theorem getD_of_sliceAt {o : Nat} {b : List α} {v : α} (h : sliceAt o 1 b = [v]) (d : α) :
    b.getD o d = v := by
  have hi := congrArg (fun l => l[0]?) h
  simp only [getElem?_sliceAt, Nat.zero_lt_one, if_true, Nat.add_zero, List.getElem?_cons_zero] at hi
  rw [List.getD_eq_getElem?_getD, hi, Option.getD_some]

theorem sliceAt_zero (n : Nat) (b : List α) : sliceAt 0 n b = b.take n := rfl

theorem sliceAt_replicate {o n m : Nat} {x : α} (h : o + n ≤ m) :
    sliceAt o n (List.replicate m x) = List.replicate n x := by
  simp only [sliceAt, List.drop_replicate, List.take_replicate]
  congr 1
  omega

theorem putAt_end (v b : List α) : putAt b.length v b = b ++ v := by
  simp [putAt]

theorem putAt_append {off : Nat} {v a c : List α} (h : off + v.length ≤ a.length) :
    putAt off v (a ++ c) = putAt off v a ++ c := by
  simp only [putAt, List.take_append_of_le_length (show off ≤ a.length by omega),
    List.drop_append_of_le_length h, List.append_assoc]

def toLE : Nat → Nat → Bytes
  | 0, _ => []
  | k + 1, n => UInt8.ofNat n :: toLE k (n / 256)

def ofLE : Bytes → Nat
  | [] => 0
  | b :: bs => b.toNat + 256 * ofLE bs

@[simp] theorem length_toLE (k n : Nat) : (toLE k n).length = k := by
  induction k generalizing n with
  | zero => rfl
  | succ k ih => simp [toLE, ih]

theorem ofLE_toLE (k n : Nat) : ofLE (toLE k n) = n % 256 ^ k := by
  induction k generalizing n with
  | zero => simp [toLE, ofLE, Nat.mod_one]
  | succ k ih =>
    have hb : (UInt8.ofNat n).toNat = n % 256 := UInt8.toNat_ofNat'
    rw [toLE, ofLE, ih, hb, Nat.pow_succ', Nat.mod_mul]

theorem ofLE_toLE_of_lt {k n : Nat} (h : n < 256 ^ k) : ofLE (toLE k n) = n := by
  rw [ofLE_toLE, Nat.mod_eq_of_lt h]

theorem toLE_zero (k : Nat) : toLE k 0 = List.replicate k 0 := by
  induction k with
  | zero => rfl
  | succ k ih => simp [toLE, ih, List.replicate_succ]

end Lib
