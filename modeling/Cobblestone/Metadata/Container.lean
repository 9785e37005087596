import Cobblestone.Lib.Word
import Cobblestone.Storage.Base

namespace Cobblestone.Metadata

open Lib Storage

def i64Field (offset : Nat) (value : Int64) : FieldAt UInt8 := u64Field offset value.toUInt64

def readI64 (bytes : Bytes) (offset : Nat) : Int64 := (readU64 bytes offset).toInt64

section

variable {bytes : Bytes} {offset : Nat}

theorem holds_u16_iff {v : UInt16} (h : offset + 2 ≤ bytes.length) :
    Holds bytes (u16Field offset v) ↔ readU16 bytes offset = v := by
  constructor
  · intro hv
    exact readU16_eq (by simpa [Holds, u16Field] using hv)
  · rintro rfl
    have hslice : sliceAt offset 2 bytes = toLE 2 (readU16 bytes offset).toNat :=
      (Word.toLeBytes_ofLeBytes (α := UInt16) (length_sliceAt h)).symm
    simpa [Holds, u16Field] using hslice

theorem holds_u32_iff {v : UInt32} (h : offset + 4 ≤ bytes.length) :
    Holds bytes (u32Field offset v) ↔ readU32 bytes offset = v := by
  constructor
  · intro hv
    exact readU32_eq (by simpa [Holds, u32Field] using hv)
  · rintro rfl
    have hslice : sliceAt offset 4 bytes = toLE 4 (readU32 bytes offset).toNat :=
      (Word.toLeBytes_ofLeBytes (α := UInt32) (length_sliceAt h)).symm
    simpa [Holds, u32Field] using hslice

theorem holds_u64_iff {v : UInt64} (h : offset + 8 ≤ bytes.length) :
    Holds bytes (u64Field offset v) ↔ readU64 bytes offset = v := by
  constructor
  · intro hv
    exact readU64_eq (by simpa [Holds, u64Field] using hv)
  · rintro rfl
    have hslice : sliceAt offset 8 bytes = toLE 8 (readU64 bytes offset).toNat :=
      (Word.toLeBytes_ofLeBytes (α := UInt64) (length_sliceAt h)).symm
    simpa [Holds, u64Field] using hslice

theorem holds_i32_iff {v : Int32} (h : offset + 4 ≤ bytes.length) :
    Holds bytes (i32Field offset v) ↔ readI32 bytes offset = v := by
  rw [i32Field, holds_u32_iff h, readI32]
  exact ⟨fun hv => by rw [hv, Int32.toInt32_toUInt32], fun hv => by rw [← hv, UInt32.toUInt32_toInt32]⟩

theorem holds_i64_iff {v : Int64} (h : offset + 8 ≤ bytes.length) :
    Holds bytes (i64Field offset v) ↔ readI64 bytes offset = v := by
  rw [i64Field, holds_u64_iff h, readI64]
  exact ⟨fun hv => by rw [hv, Int64.toInt64_toUInt64], fun hv => by rw [← hv, UInt64.toUInt64_toInt64]⟩

theorem holds_byte_iff {v : UInt8} (h : offset + 1 ≤ bytes.length) :
    Holds bytes (offset, [v]) ↔ bytes.getD offset 0 = v := by
  have hslice : sliceAt offset 1 bytes = [bytes.getD offset 0] := by
    rw [sliceAt, List.drop_eq_getElem_cons h, List.getD_eq_getElem _ _ h]
    rfl
  rw [Holds, List.length_singleton, hslice, List.singleton_inj]

end

variable (crates : Crates)

-- The checksum of everything before it, put at `k`.
def sealAt (k : Nat) (block : Bytes) : Bytes :=
  putFields [u32Field k (crates.crc32c (block.take k))] block

def sealedHeader (n k : Nat) (fields : List (FieldAt UInt8)) : Bytes :=
  sealAt crates k (putFields fields (List.replicate n 0))

section

variable {k : Nat} {block : Bytes} (hk : k + 4 ≤ block.length)

include hk

theorem u32Field_fits (v : UInt32) : Fits block.length [u32Field k v] :=
  ⟨List.pairwise_singleton _ _, by simpa using hk⟩

theorem length_sealAt : (sealAt crates k block).length = block.length :=
  length_putFields (u32Field_fits hk _).inside

theorem sliceAt_sealAt {o m : Nat} (h : o + m ≤ k ∨ k + 4 ≤ o) :
    sliceAt o m (sealAt crates k block) = sliceAt o m block :=
  sliceAt_putFields_apart (u32Field_fits hk _).inside (by simpa using h)

theorem sealAt_crc :
    crates.crc32c ((sealAt crates k block).take k) = readU32 (sealAt crates k block) k := by
  have hpref : (sealAt crates k block).take k = block.take k :=
    sliceAt_sealAt crates hk (o := 0) (m := k) (.inl (by omega))
  rw [hpref]
  exact (readU32_putFields (u32Field_fits hk _) (List.mem_singleton_self _)).symm

theorem putFields_u32_self {v : UInt32} (h : readU32 block k = v) :
    putFields [u32Field k v] block = block := by
  subst h
  refine putFields_eq rfl (u32Field_fits hk _) (fun f hf => ?_) fun _ _ _ => rfl
  cases List.mem_singleton.mp hf
  exact (holds_u32_iff hk).mpr rfl

theorem sealAt_eq (h : crates.crc32c (block.take k) = readU32 block k) :
    sealAt crates k block = block :=
  putFields_u32_self hk h.symm

end

section

variable {n k : Nat} (hk : k + 4 ≤ n) {fields : List (FieldAt UInt8)} (hfit : Fits k fields)

include hk hfit

theorem header_fields_fit : Fits (List.replicate n (0 : UInt8)).length fields :=
  ⟨hfit.apart, fun f hf => by
    rw [List.length_replicate]
    exact (hfit.inside f hf).trans (by omega)⟩

theorem length_header_fields : (putFields fields (List.replicate n (0 : UInt8))).length = n := by
  rw [length_putFields (header_fields_fit hk hfit).inside, List.length_replicate]

theorem length_sealedHeader : (sealedHeader crates n k fields).length = n := by
  rw [sealedHeader, length_sealAt, length_header_fields hk hfit]
  rwa [length_header_fields hk hfit]

theorem holds_sealedHeader {f : FieldAt UInt8} (hf : f ∈ fields) :
    Holds (sealedHeader crates n k fields) f := by
  have hlen : k + 4 ≤ (putFields fields (List.replicate n (0 : UInt8))).length := by
    rwa [length_header_fields hk hfit]
  rw [Holds, sealedHeader, sliceAt_sealAt crates hlen (.inl (hfit.inside f hf))]
  exact sliceAt_putFields (header_fields_fit hk hfit) hf

theorem sealedHeader_crc : crates.crc32c ((sealedHeader crates n k fields).take k) =
    readU32 (sealedHeader crates n k fields) k :=
  sealAt_crc crates (by rwa [length_header_fields hk hfit])

theorem sliceAt_sealedHeader_gap {o m : Nat} (hm : o + m ≤ n) (hseal : o + m ≤ k ∨ k + 4 ≤ o)
    (ha : ∀ f ∈ fields, o + m ≤ f.1 ∨ f.stop ≤ o) :
    sliceAt o m (sealedHeader crates n k fields) = List.replicate m 0 := by
  rw [sealedHeader, sliceAt_sealAt crates (by rwa [length_header_fields hk hfit]) hseal,
    sliceAt_putFields_apart (header_fields_fit hk hfit).inside ha, sliceAt_replicate hm]

theorem sealedHeader_eq {block : Bytes} (hlen : block.length = n)
    (hread : ∀ f ∈ fields, Holds block f)
    (hcrc : crates.crc32c (block.take k) = readU32 block k)
    (hgap : ∀ i < n, i < k ∨ k + 4 ≤ i → (∀ f ∈ fields, i < f.1 ∨ f.stop ≤ i) →
      block[i]? = some 0) : sealedHeader crates n k fields = block := by
  subst hlen
  -- The header without its checksum is the block with zeros in the checksum's place.
  have hlen0 : (putFields [u32Field k 0] block).length = block.length :=
    length_putFields (u32Field_fits hk 0).inside
  have hunsealed : putFields fields (List.replicate block.length 0) =
      putFields [u32Field k 0] block := by
    refine putFields_eq (by rw [List.length_replicate, hlen0]) (header_fields_fit hk hfit)
      (fun f hf => ?_) fun i hi hapart => ?_
    · refine (hread f hf).putFields_apart (u32Field_fits hk 0).inside fun g hg => ?_
      cases List.mem_singleton.mp hg
      exact .inl (hfit.inside f hf)
    · rw [hlen0] at hi
      have hzero : (List.replicate block.length (0 : UInt8))[i]? = some 0 := by simp [hi]
      rw [hzero]
      by_cases hin : k ≤ i ∧ i < k + 4
      · have hslice := sliceAt_putFields (u32Field_fits hk 0) (List.mem_singleton_self _)
        rw [getElem?_of_sliceAt hslice hin.1 (by simpa [u32Field] using hin.2)]
        have hbyte : toLE 4 (0 : UInt32).toNat = List.replicate 4 0 := toLE_zero 4
        rw [hbyte, List.getElem?_replicate, if_pos (by omega)]
      · rw [getElem?_putFields_apart (u32Field_fits hk 0).inside (by simp; omega)]
        exact hgap i hi (by omega) hapart
  have hpref : (putFields [u32Field k 0] block).take k = block.take k :=
    sliceAt_putFields_apart (u32Field_fits hk 0).inside (o := 0) (n := k) (by simp)
  rw [sealedHeader, hunsealed, sealAt, hpref, hcrc]
  refine putFields_eq hlen0 ?_ (fun f hf => ?_) fun i hi hapart => ?_
  · rw [hlen0]
    exact u32Field_fits hk _
  · cases List.mem_singleton.mp hf
    exact (holds_u32_iff hk).mpr rfl
  · rw [getElem?_putFields_apart (u32Field_fits hk 0).inside]
    simpa using hapart

end

end Cobblestone.Metadata
