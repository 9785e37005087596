import Cobblestone.Lib.Fuel
import Cobblestone.Lib.Result

namespace Cobblestone.Wire

open Lib

inductive LimitKind where
  | frame
  | loginCompressed
  | batchCompressed
  | batchDecompressed
  | innerPacket
  | innerPacketCount
  | loginDecompressed
  | nbtBytes
  | nbtDepth
  | nbtCollection
  | nbtString
  deriving DecidableEq, Repr

inductive CodecError where
  | unexpectedEof (needed remaining : Nat)
  | invalidGameMarker (actual : UInt8)
  | negativeLength (field : String) (value : Int32)
  | lengthOutOfRange (field : String) (value max : Nat)
  | limitExceeded (kind : LimitKind) (limit actual : Nat)
  | invalidChunkPlaneLength (field : String) (expected actual : Nat)
  | invalidChunkExtraDataKey (key : UInt32)
  | trailingBytes (remaining : Nat)
  | emptyPacket
  | unsupportedPacket (id : UInt8)
  | unsupportedProtocol (expected actual : Int32)
  | invalidUtf8
  | invalidNbtTag (id : UInt8)
  | invalidNbtList (length : Nat)
  | nbtListTypeMismatch (expected actual : UInt8)
  | invalidFixedTargetValue (field : String) (value max : Nat)
  | invalidFixedByte (field : String) (expected actual : UInt8)
  | compression (message : String)
  deriving DecidableEq, Repr

abbrev Reader (α : Type) := Lib.Reader CodecError α

abbrev Writer := Bytes

variable {α : Type} [Word α]

def checkLimit (kind : LimitKind) (actual limit : Nat) : Except CodecError Unit :=
  if actual > limit then .error (.limitExceeded kind limit actual) else .ok ()

@[simp] theorem checkLimit_ok_iff {kind : LimitKind} {actual limit : Nat} {u : Unit} :
    checkLimit kind actual limit = .ok u ↔ actual ≤ limit := by
  unfold checkLimit
  split
  · next h => simp [Nat.not_le.mpr h]
  · next h => simp [Nat.le_of_not_lt h]

def readExact (len : Nat) : Reader Bytes := fun rest =>
  if rest.length < len then .error (.unexpectedEof len rest.length)
  else .ok (rest.take len, rest.drop len)

theorem readExact_ok_iff {len : Nat} {s b t : Bytes} :
    readExact len s = .ok (b, t) ↔ b.length = len ∧ s = b ++ t := by
  unfold readExact
  split
  · next h =>
    constructor
    · intro e
      cases e
    · rintro ⟨rfl, rfl⟩
      rw [List.length_append] at h
      omega
  · next h =>
    constructor
    · intro e
      cases e
      exact ⟨List.length_take_of_le (Nat.le_of_not_lt h), (List.take_append_drop len s).symm⟩
    · rintro ⟨rfl, rfl⟩
      simp

def readLe : Reader α := do
  let bytes ← readExact (Word.width α)
  pure (Word.ofLeBytes bytes)

def readBe : Reader α := do
  let bytes ← readExact (Word.width α)
  pure (Word.ofBeBytes bytes)

theorem readLe_ok_iff {s t : Bytes} {a : α} :
    readLe s = .ok (a, t) ↔ s = Word.toLeBytes a ++ t := by
  unfold readLe
  rw [Reader.bind_ok_iff]
  constructor
  · rintro ⟨b, u, hb, hp⟩
    obtain ⟨hl, rfl⟩ := readExact_ok_iff.mp hb
    obtain ⟨rfl, rfl⟩ := Reader.pure_ok_iff.mp hp
    rw [Word.toLeBytes_ofLeBytes hl]
  · rintro rfl
    refine ⟨Word.toLeBytes a, t, readExact_ok_iff.mpr ⟨Word.length_toLeBytes a, rfl⟩, ?_⟩
    rw [Word.ofLeBytes_toLeBytes]
    rfl

theorem readBe_ok_iff {s t : Bytes} {a : α} :
    readBe s = .ok (a, t) ↔ s = Word.toBeBytes a ++ t := by
  unfold readBe
  rw [Reader.bind_ok_iff]
  constructor
  · rintro ⟨b, u, hb, hp⟩
    obtain ⟨hl, rfl⟩ := readExact_ok_iff.mp hb
    obtain ⟨rfl, rfl⟩ := Reader.pure_ok_iff.mp hp
    rw [Word.toBeBytes_ofBeBytes hl]
  · rintro rfl
    refine ⟨Word.toBeBytes a, t, readExact_ok_iff.mpr ⟨Word.length_toBeBytes a, rfl⟩, ?_⟩
    rw [Word.ofBeBytes_toBeBytes]
    rfl

abbrev readU8 : Reader UInt8 := readLe
abbrev readI8 : Reader Int8 := readLe
abbrev readU16Be : Reader UInt16 := readBe
abbrev readU16Le : Reader UInt16 := readLe
abbrev readI16Le : Reader Int16 := readLe
abbrev readU32Be : Reader UInt32 := readBe
abbrev readI32Be : Reader Int32 := readBe
abbrev readI64Be : Reader Int64 := readBe
abbrev readF32Be : Reader UInt32 := readBe
abbrev readI32Le : Reader Int32 := readLe
abbrev readI64Le : Reader Int64 := readLe
abbrev readF32Le : Reader UInt32 := readLe
abbrev readF64Le : Reader UInt64 := readLe

namespace Writer

def putLe (w : Writer) (a : α) : Writer := w ++ Word.toLeBytes a

def putBe (w : Writer) (a : α) : Writer := w ++ Word.toBeBytes a

def putBytes (w : Writer) (bytes : Bytes) : Writer := w ++ bytes

abbrev putU8 (w : Writer) (value : UInt8) : Writer := putLe w value
abbrev putI8 (w : Writer) (value : Int8) : Writer := putLe w value
abbrev putU16Be (w : Writer) (value : UInt16) : Writer := putBe w value
abbrev putU16Le (w : Writer) (value : UInt16) : Writer := putLe w value
abbrev putI16Le (w : Writer) (value : Int16) : Writer := putLe w value
abbrev putU32Be (w : Writer) (value : UInt32) : Writer := putBe w value
abbrev putI32Be (w : Writer) (value : Int32) : Writer := putBe w value
abbrev putI64Be (w : Writer) (value : Int64) : Writer := putBe w value
abbrev putF32Be (w : Writer) (bits : UInt32) : Writer := putBe w bits
abbrev putI32Le (w : Writer) (value : Int32) : Writer := putLe w value
abbrev putI64Le (w : Writer) (value : Int64) : Writer := putLe w value
abbrev putF32Le (w : Writer) (bits : UInt32) : Writer := putLe w bits
abbrev putF64Le (w : Writer) (bits : UInt64) : Writer := putLe w bits

end Writer

def finish : Reader Unit := fun rest =>
  if rest.length = 0 then .ok ((), rest) else .error (.trailingBytes rest.length)

theorem finish_ok_iff {s t : Bytes} {u : Unit} : finish s = .ok (u, t) ↔ s = [] ∧ t = [] := by
  unfold finish
  split
  · next h =>
    rw [List.length_eq_zero_iff] at h
    subst h
    simp [eq_comm]
  · next h =>
    rw [List.length_eq_zero_iff] at h
    simp [h]

def utf8 (text : String) : Bytes := text.toByteArray.data.toList

def fromUtf8 (bytes : Bytes) : Except CodecError String :=
  match String.fromUTF8? ⟨bytes.toArray⟩ with
  | some text => .ok text
  | none => .error .invalidUtf8

@[simp] theorem fromUtf8_ok_iff {bytes : Bytes} {text : String} :
    fromUtf8 bytes = .ok text ↔ bytes = utf8 text := by
  have hiff : String.fromUTF8? ⟨bytes.toArray⟩ = some text ↔ bytes = utf8 text := by
    unfold String.fromUTF8? utf8
    constructor
    · intro h
      split at h
      · cases h
        rfl
      · cases h
    · rintro rfl
      have hv : ByteArray.IsValidUTF8 ⟨text.toByteArray.data.toList.toArray⟩ := text.isValidUTF8
      rw [dif_pos hv]
      rfl
  rw [← hiff]
  unfold fromUtf8
  split
  · next h => simp [h]
  · next h => simp [h]

def len (text : String) : Nat := (utf8 text).length

def usizeOfI32 (field : String) (value : Int32) : Except CodecError Nat :=
  if value.toInt < 0 then .error (.negativeLength field value) else .ok value.toInt.toNat

theorem usizeOfI32_ok_iff {field : String} {v : Int32} {n : Nat} :
    usizeOfI32 field v = .ok n ↔ n < 2147483648 ∧ v = Int32.ofNat n := by
  have hv := v.toInt_lt
  unfold usizeOfI32
  split
  · next hneg =>
    constructor
    · intro h
      cases h
    · rintro ⟨hlt, rfl⟩
      rw [Int32.toInt_ofNat_of_lt hlt] at hneg
      omega
  · next hpos =>
    constructor
    · intro h
      cases h
      refine ⟨by omega, ?_⟩
      have hcast : ((v.toInt.toNat : Nat) : Int) = v.toInt := Int.toNat_of_nonneg (by omega)
      rw [← Int32.ofInt_eq_ofNat, hcast, Int32.ofInt_toInt]
    · rintro ⟨hlt, rfl⟩
      rw [Int32.toInt_ofNat_of_lt hlt, Int.toNat_natCast]

def readStringU16 : Reader String := do
  let len ← readU16Be
  let bytes ← readExact len.toNat
  fromUtf8 bytes

def u16OfLen (field : String) (len : Nat) : Except CodecError UInt16 :=
  if len < 65536 then .ok (UInt16.ofNat len) else .error (.lengthOutOfRange field len 65535)

@[simp] theorem u16OfLen_ok_iff {field : String} {len : Nat} {n : UInt16} :
    u16OfLen field len = .ok n ↔ len < 65536 ∧ n = UInt16.ofNat len := by
  unfold u16OfLen
  split
  · next h => simp [h, eq_comm]
  · next h => simp [h]

def Writer.putStringU16 (w : Writer) (field : String) (value : String) :
    Except CodecError Writer := do
  let n ← u16OfLen field (len value)
  pure ((w.putU16Be n).putBytes (utf8 value))

end Cobblestone.Wire
