import Cobblestone.Lib.Bytes

namespace Lib

def readNibble (bytes : Bytes) (index : Nat) : UInt8 :=
  let value := bytes.getD (index >>> 1) 0
  if index &&& 1 = 0 then value &&& (0x0f : UInt8) else (value >>> (4 : UInt8)) &&& (0x0f : UInt8)

theorem readNibble_lt (bytes : Bytes) (index : Nat) : (readNibble bytes index).toNat < 16 := by
  have hlow (value : UInt8) : (value &&& (0x0f : UInt8)).toNat < 16 := by
    rw [UInt8.toNat_and]
    exact Nat.lt_succ_of_le Nat.and_le_right
  rw [readNibble]
  split
  · exact hlow _
  · exact hlow _

def writeNibble (bytes : Bytes) (index : Nat) (value : UInt8) : Bytes :=
  let byte := bytes.getD (index >>> 1) 0
  bytes.set (index >>> 1)
    (if index &&& 1 = 0 then (byte &&& (0xf0 : UInt8)) ||| value else (byte &&& (0x0f : UInt8)) ||| (value <<< (4 : UInt8)))

private theorem byte_ext {a b : UInt8} (h : ∀ i < 8, a.toBitVec.getLsbD i = b.toBitVec.getLsbD i) :
    a = b := by
  apply UInt8.toBitVec_inj.mp
  exact BitVec.eq_of_getLsbD_eq (fun i hi => h i hi)

private theorem high_bits_clear {v : UInt8} (h : v.toNat < 16) :
    v.toBitVec.getLsbD 4 = false ∧ v.toBitVec.getLsbD 5 = false ∧
      v.toBitVec.getLsbD 6 = false ∧ v.toBitVec.getLsbD 7 = false := by
  have clear (i : Nat) (hi : 4 ≤ i) : v.toBitVec.getLsbD i = false := by
    have hp : (2 : Nat) ^ 4 ≤ 2 ^ i := Nat.pow_le_pow_right (by decide) hi
    have ht : v.toNat.testBit i = false := Nat.testBit_lt_two_pow (by omega)
    rwa [← UInt8.toNat_toBitVec, BitVec.testBit_toNat] at ht
  exact ⟨clear 4 (by decide), clear 5 (by decide), clear 6 (by decide), clear 7 (by decide)⟩

theorem low_of_low (b : UInt8) {v : UInt8} (h : v.toNat < 16) :
    ((b &&& (0xf0 : UInt8)) ||| v) &&& (0x0f : UInt8) = v := by
  apply byte_ext
  intro i hi
  have hc := high_bits_clear h
  interval_cases i <;> simp_all

theorem high_of_high (b : UInt8) {v : UInt8} (h : v.toNat < 16) :
    (((b &&& (0x0f : UInt8)) ||| (v <<< (4 : UInt8))) >>> (4 : UInt8)) &&& (0x0f : UInt8) = v := by
  apply byte_ext
  intro i hi
  have hc := high_bits_clear h
  interval_cases i <;> simp_all

theorem high_of_low (b : UInt8) {v : UInt8} (h : v.toNat < 16) :
    (((b &&& (0xf0 : UInt8)) ||| v) >>> (4 : UInt8)) &&& (0x0f : UInt8) = (b >>> (4 : UInt8)) &&& (0x0f : UInt8) := by
  apply byte_ext
  intro i hi
  have hc := high_bits_clear h
  interval_cases i <;> simp_all

theorem low_of_high (b v : UInt8) :
    ((b &&& (0x0f : UInt8)) ||| (v <<< (4 : UInt8))) &&& (0x0f : UInt8) = b &&& (0x0f : UInt8) := by
  apply byte_ext
  intro i hi
  interval_cases i <;> simp

@[simp] theorem length_writeNibble (bytes : Bytes) (index : Nat) (value : UInt8) :
    (writeNibble bytes index value).length = bytes.length := by
  simp [writeNibble]

theorem half_eq (index : Nat) : index >>> 1 = index / 2 := by
  simp [Nat.shiftRight_eq_div_pow]

theorem parity_eq (index : Nat) : index &&& 1 = index % 2 := Nat.and_one_is_mod index

theorem readNibble_writeNibble_self {bytes : Bytes} {index : Nat} {value : UInt8}
    (hi : index / 2 < bytes.length) (hv : value.toNat < 16) :
    readNibble (writeNibble bytes index value) index = value := by
  simp only [readNibble, writeNibble, half_eq, parity_eq, List.getD_eq_getElem?_getD,
    List.getElem?_set_self hi, Option.getD_some]
  split
  · exact low_of_low _ hv
  · exact high_of_high _ hv

theorem readNibble_writeNibble_of_ne {bytes : Bytes} {i j : Nat} {value : UInt8}
    (hi : i / 2 < bytes.length) (hv : value.toNat < 16) (hne : i ≠ j) :
    readNibble (writeNibble bytes i value) j = readNibble bytes j := by
  simp only [readNibble, writeNibble, half_eq, parity_eq, List.getD_eq_getElem?_getD]
  by_cases hb : i / 2 = j / 2
  · rw [hb, List.getElem?_set_self (by omega), Option.getD_some]
    rcases Nat.mod_two_eq_zero_or_one i with he | he <;>
      rcases Nat.mod_two_eq_zero_or_one j with hj | hj
    · omega
    · rw [if_pos he, if_neg (by omega), if_neg (by omega)]
      exact high_of_low _ hv
    · rw [if_neg (show ¬ i % 2 = 0 by omega), if_pos hj, if_pos hj]
      exact low_of_high _ _
    · omega
  · rw [List.getElem?_set_ne hb]

def packNibbles (size : Nat) (values : List UInt8) : Bytes :=
  (values.zipIdx).foldl (fun bytes p => writeNibble bytes p.2 p.1) (List.replicate size 0)

private theorem pack_fold_length (values : List UInt8) (k : Nat) (bytes : Bytes) :
    ((values.zipIdx k).foldl (fun bytes p => writeNibble bytes p.2 p.1) bytes).length =
      bytes.length := by
  induction values generalizing k bytes with
  | nil => rfl
  | cons v values ih => simp [ih]

@[simp] theorem length_packNibbles (size : Nat) (values : List UInt8) :
    (packNibbles size values).length = size := by
  rw [packNibbles, pack_fold_length, List.length_replicate]

private theorem pack_fold_read (values : List UInt8) (k : Nat) (bytes : Bytes)
    (hv : ∀ v ∈ values, v.toNat < 16) (hl : k + values.length ≤ 2 * bytes.length) (i : Nat) :
    readNibble ((values.zipIdx k).foldl (fun bytes p => writeNibble bytes p.2 p.1) bytes) i =
      if k ≤ i then (values[i - k]?).getD (readNibble bytes i) else readNibble bytes i := by
  induction values generalizing k bytes with
  | nil => simp
  | cons v values ih =>
    simp only [List.length_cons] at hl
    have hvv : v.toNat < 16 := hv v (by simp)
    rw [List.zipIdx_cons, List.foldl_cons, ih (k + 1) _ (fun w hw => hv w (by simp [hw]))
      (by simp; omega)]
    rcases Nat.lt_trichotomy i k with hlt | heq | hgt
    · rw [if_neg (by omega), if_neg (by omega),
        readNibble_writeNibble_of_ne (by omega) hvv (by omega)]
    · subst heq
      rw [if_neg (by omega), if_pos (le_refl _), Nat.sub_self,
        readNibble_writeNibble_self (by omega) hvv]
      rfl
    · rw [if_pos (by omega), if_pos (by omega),
        readNibble_writeNibble_of_ne (by omega) hvv (by omega),
        show i - k = (i - (k + 1)) + 1 by omega, List.getElem?_cons_succ]

theorem readNibble_packNibbles {size : Nat} {values : List UInt8}
    (hv : ∀ v ∈ values, v.toNat < 16) (hl : values.length ≤ 2 * size) {i : Nat}
    (hi : i < values.length) :
    readNibble (packNibbles size values) i = values[i] := by
  rw [packNibbles, pack_fold_read values 0 _ hv (by simpa using hl) i]
  simp [List.getElem?_eq_getElem hi]

section Writes

variable {ι : Type*} {index : ι → Nat} {value : ι → UInt8}

theorem length_writes (cells : List ι) (bytes : Bytes) :
    (cells.foldl (fun bytes a => writeNibble bytes (index a) (value a)) bytes).length =
      bytes.length := by
  induction cells generalizing bytes with
  | nil => rfl
  | cons a cells ih => rw [List.foldl_cons, ih, length_writeNibble]

theorem readNibble_writes (hindex : Function.Injective index) (hvalue : ∀ a, (value a).toNat < 16)
    {cells : List ι} {bytes : Bytes} (hbytes : ∀ a, index a / 2 < bytes.length) {a : ι}
    (ha : a ∈ cells ∨ readNibble bytes (index a) = value a) :
    readNibble (cells.foldl (fun bytes a => writeNibble bytes (index a) (value a)) bytes) (index a) =
      value a := by
  induction cells generalizing bytes with
  | nil => exact ha.resolve_left List.not_mem_nil
  | cons b cells ih =>
    rw [List.foldl_cons]
    refine ih (fun a => by rw [length_writeNibble]; exact hbytes a) ?_
    by_cases hab : b = a
    · rw [hab]
      exact .inr (readNibble_writeNibble_self (hbytes a) (hvalue a))
    · rcases ha with hmem | hread
      · exact .inl ((List.mem_cons.mp hmem).resolve_left (Ne.symm hab))
      · refine .inr ?_
        rw [readNibble_writeNibble_of_ne (hbytes b) (hvalue b) fun h => hab (hindex h)]
        exact hread

end Writes

end Lib
