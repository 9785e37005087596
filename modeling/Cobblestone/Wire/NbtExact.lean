import Cobblestone.Wire.Nbt

namespace Cobblestone.Wire

open Lib

def NbtLimits.FitsString (limits : NbtLimits) (text : String) : Prop :=
  len text ≤ limits.maxStringBytes ∧ len text < 65536

def NbtLimits.FitsLen (limits : NbtLimits) (n : Nat) : Prop :=
  n ≤ limits.maxCollectionLen ∧ n < 2147483648

def stringBytes (text : String) : Bytes := Word.toLeBytes (UInt16.ofNat (len text)) ++ utf8 text

def lenBytes (n : Nat) : Bytes := Word.toLeBytes (Int32.ofNat n)

def tagBytes (tag : NbtTag) : Bytes := Word.toLeBytes tag.id

mutual

def NbtValue.bytes : NbtValue → Bytes
  | .byte value => Word.toLeBytes value
  | .short value => Word.toLeBytes value
  | .int value => Word.toLeBytes value
  | .long value => Word.toLeBytes value
  | .float bits => Word.toLeBytes bits
  | .double bits => Word.toLeBytes bits
  | .byteArray bytes => lenBytes bytes.length ++ bytes
  | .string text => stringBytes text
  | .list elementType values => tagBytes elementType ++ lenBytes values.length ++ valuesBytes values
  | .compound entries => entriesBytes entries ++ tagBytes .end
  | .intArray values => lenBytes values.length ++ values.flatMap Word.toLeBytes

def valuesBytes : List NbtValue → Bytes
  | [] => []
  | value :: values => value.bytes ++ valuesBytes values

def entriesBytes : List NamedNbt → Bytes
  | [] => []
  | ⟨name, value⟩ :: entries =>
    tagBytes value.tag ++ stringBytes name ++ value.bytes ++ entriesBytes entries

end

mutual

def NbtValue.Fits (limits : NbtLimits) (depth : Nat) (value : NbtValue) : Prop :=
  depth ≤ limits.maxDepth ∧
    match value with
    | .byteArray bytes => limits.FitsLen bytes.length
    | .string text => limits.FitsString text
    | .list elementType values =>
      limits.FitsLen values.length ∧ (elementType = .end → values = []) ∧
        ValuesFit limits (depth + 1) elementType values
    | .compound entries =>
      entries.length ≤ limits.maxCollectionLen ∧ EntriesFit limits (depth + 1) entries
    | .intArray values => limits.FitsLen values.length
    | _ => True

def ValuesFit (limits : NbtLimits) (depth : Nat) (elementType : NbtTag) : List NbtValue → Prop
  | [] => True
  | value :: values =>
    value.tag = elementType ∧ value.Fits limits depth ∧ ValuesFit limits depth elementType values

def EntriesFit (limits : NbtLimits) (depth : Nat) : List NamedNbt → Prop
  | [] => True
  | ⟨name, value⟩ :: entries =>
    limits.FitsString name ∧ value.Fits limits depth ∧ EntriesFit limits depth entries

end

variable {limits : NbtLimits} {depth : Nat} {w w' s t : Bytes} {value : NbtValue}

theorem readTag_ok_iff {tag : NbtTag} : readTag s = .ok (tag, t) ↔ s = tagBytes tag ++ t := by
  unfold readTag
  rw [Reader.bind_ok_iff]
  constructor
  · rintro ⟨id, u, hid, htag⟩
    obtain ⟨hfrom, rfl⟩ := Reader.checked_ok_iff.mp htag
    rw [readLe_ok_iff.mp hid, NbtTag.fromId_ok_iff.mp hfrom]
    rfl
  · rintro rfl
    refine ⟨tag.id, t, readLe_ok_iff.mpr rfl, ?_⟩
    exact Reader.checked_ok_iff.mpr ⟨NbtTag.fromId_ok_iff.mpr rfl, rfl⟩

theorem readString_ok_iff {text : String} :
    readString limits s = .ok (text, t) ↔ limits.FitsString text ∧ s = stringBytes text ++ t := by
  unfold readString
  constructor
  · intro h
    obtain ⟨n, u, hn, h⟩ := Reader.bind_ok h
    obtain ⟨_, u', hcheck, h⟩ := Reader.bind_ok h
    obtain ⟨hlimit, rfl⟩ := Reader.checked_ok_iff.mp hcheck
    obtain ⟨bytes, v, hbytes, h⟩ := Reader.bind_ok h
    obtain ⟨htext, rfl⟩ := Reader.checked_ok_iff.mp h
    obtain ⟨hlen, rfl⟩ := readExact_ok_iff.mp hbytes
    obtain rfl := fromUtf8_ok_iff.mp htext
    have hn' : UInt16.ofNat (len text) = n := by
      unfold len
      rw [hlen, UInt16.ofNat_toNat]
    have hle := checkLimit_ok_iff.mp hlimit
    have hlt := n.toNat_lt
    refine ⟨⟨by unfold len; omega, by unfold len; omega⟩, ?_⟩
    rw [readLe_ok_iff.mp hn, stringBytes, hn', List.append_assoc]
  · rintro ⟨⟨hle, hlt⟩, rfl⟩
    have hn : (UInt16.ofNat (len text)).toNat = len text := UInt16.toNat_ofNat_of_lt' hlt
    rw [stringBytes, List.append_assoc]
    refine Reader.bind_ok_iff.mpr ⟨_, _, readLe_ok_iff.mpr rfl, ?_⟩
    refine Reader.bind_ok_iff.mpr ⟨(), _, Reader.checked_ok_iff.mpr ⟨?_, rfl⟩, ?_⟩
    · rwa [checkLimit_ok_iff, hn]
    · refine Reader.bind_ok_iff.mpr ⟨utf8 text, t, readExact_ok_iff.mpr ⟨hn.symm, rfl⟩, ?_⟩
      exact Reader.checked_ok_iff.mpr ⟨fromUtf8_ok_iff.mpr rfl, rfl⟩

theorem readCollectionLen_ok_iff {field : String} {n : Nat} :
    readCollectionLen field limits s = .ok (n, t) ↔ limits.FitsLen n ∧ s = lenBytes n ++ t := by
  unfold readCollectionLen
  constructor
  · intro h
    obtain ⟨v, u, hv, h⟩ := Reader.bind_ok h
    obtain ⟨m, u', hcast, h⟩ := Reader.bind_ok h
    obtain ⟨hm, rfl⟩ := Reader.checked_ok_iff.mp hcast
    obtain ⟨_, v', hcheck, h⟩ := Reader.bind_ok h
    obtain ⟨hlimit, rfl⟩ := Reader.checked_ok_iff.mp hcheck
    obtain ⟨rfl, rfl⟩ := Reader.pure_ok_iff.mp h
    obtain ⟨hlt, rfl⟩ := usizeOfI32_ok_iff.mp hm
    exact ⟨⟨checkLimit_ok_iff.mp hlimit, hlt⟩, readLe_ok_iff.mp hv⟩
  · rintro ⟨⟨hle, hlt⟩, rfl⟩
    refine Reader.bind_ok_iff.mpr ⟨_, _, readLe_ok_iff.mpr rfl, ?_⟩
    refine Reader.bind_ok_iff.mpr ⟨n, t, Reader.checked_ok_iff.mpr ⟨?_, rfl⟩, ?_⟩
    · exact usizeOfI32_ok_iff.mpr ⟨hlt, rfl⟩
    · refine Reader.bind_ok_iff.mpr ⟨(), t, Reader.checked_ok_iff.mpr ⟨?_, rfl⟩, rfl⟩
      exact checkLimit_ok_iff.mpr hle

theorem length_stringBytes (text : String) : (stringBytes text).length = 2 + len text := by
  rw [stringBytes, List.length_append, Word.length_toLeBytes]
  rfl

theorem writeString_ok_iff {field text : String} :
    writeString w field text limits = .ok w' ↔
      limits.FitsString text ∧ w.length + (stringBytes text).length ≤ limits.maxBytes ∧
        w' = w ++ stringBytes text := by
  unfold writeString ensureOutputRoom
  simp only [bind_ok_iff, checkLimit_ok_iff, u16OfLen_ok_iff, length_stringBytes, exists_and_left,
    exists_eq_left, and_assoc]
  constructor
  · rintro ⟨hle, hlt, hroom, _, _, h⟩
    cases h
    exact ⟨⟨hle, hlt⟩, hroom, by rw [stringBytes, ← List.append_assoc]; rfl⟩
  · rintro ⟨⟨hle, hlt⟩, hroom, rfl⟩
    refine ⟨hle, hlt, hroom, (), (), ?_⟩
    rw [stringBytes, ← List.append_assoc]
    rfl

theorem writeI32Len_ok_iff {field : String} {n : Nat} :
    writeI32Len w field n = .ok w' ↔ n < 2147483648 ∧ w' = w ++ lenBytes n := by
  unfold writeI32Len
  split
  · next h => simp [h, eq_comm, lenBytes, Writer.putLe]
  · next h => simp [h]

theorem writeCollectionLen_ok_iff {field : String} {n : Nat} :
    writeCollectionLen w field n limits = .ok w' ↔
      limits.FitsLen n ∧ w' = w ++ lenBytes n := by
  unfold writeCollectionLen
  simp only [bind_ok_iff, checkLimit_ok_iff, writeI32Len_ok_iff]
  constructor
  · rintro ⟨_, hle, hlt, hw⟩
    exact ⟨⟨hle, hlt⟩, hw⟩
  · rintro ⟨⟨hle, hlt⟩, hw⟩
    exact ⟨(), hle, hlt, hw⟩

theorem foldl_putI32Le (values : List Int32) :
    values.foldl Writer.putI32Le w = w ++ values.flatMap Word.toLeBytes := by
  induction values generalizing w with
  | nil => simp
  | cons v values ih =>
    rw [List.foldl_cons, ih, List.flatMap_cons, ← List.append_assoc]
    rfl

mutual

theorem writePayload_sound (value : NbtValue) (depth : Nat) (w w' : Bytes)
    (h : writePayload limits depth w value = .ok w') :
    value.Fits limits depth ∧ w' = w ++ value.bytes := by
  unfold writePayload at h
  obtain ⟨_, hdepth, h⟩ := bind_ok_iff.mp h
  obtain ⟨v, hv, h⟩ := bind_ok_iff.mp h
  obtain ⟨_, -, h⟩ := bind_ok_iff.mp h
  cases h
  rw [checkLimit_ok_iff] at hdepth
  cases value with
  | byte _ | short _ | int _ | long _ | float _ | double _ =>
    cases hv
    exact ⟨⟨hdepth, trivial⟩, rfl⟩
  | byteArray bytes =>
    obtain ⟨u, hu, hv⟩ := bind_ok_iff.mp hv
    obtain ⟨_, -, hv⟩ := bind_ok_iff.mp hv
    obtain ⟨hfits, rfl⟩ := writeCollectionLen_ok_iff.mp hu
    cases hv
    exact ⟨⟨hdepth, hfits⟩, by rw [NbtValue.bytes, ← List.append_assoc]; rfl⟩
  | string text =>
    obtain ⟨hfits, -, rfl⟩ := writeString_ok_iff.mp hv
    exact ⟨⟨hdepth, hfits⟩, rfl⟩
  | list elementType values =>
    obtain ⟨_, hle, hv⟩ := bind_ok_iff.mp hv
    obtain ⟨_, hend, hv⟩ := bind_ok_iff.mp hv
    obtain ⟨u, hu, hv⟩ := bind_ok_iff.mp hv
    obtain ⟨hlt, rfl⟩ := writeI32Len_ok_iff.mp hu
    obtain ⟨hfits, rfl⟩ := writeValues_sound values elementType _ _ _ hv
    refine ⟨⟨hdepth, ⟨checkLimit_ok_iff.mp hle, hlt⟩, ?_, hfits⟩, ?_⟩
    · rintro rfl
      simpa using hend
    · simp only [NbtValue.bytes, tagBytes, Writer.putLe, List.append_assoc]
  | compound entries =>
    obtain ⟨_, hle, hv⟩ := bind_ok_iff.mp hv
    obtain ⟨u, hu, hv⟩ := bind_ok_iff.mp hv
    obtain ⟨hfits, rfl⟩ := writeEntries_sound entries _ _ _ hu
    cases hv
    refine ⟨⟨hdepth, checkLimit_ok_iff.mp hle, hfits⟩, ?_⟩
    simp only [NbtValue.bytes, tagBytes, Writer.putLe, List.append_assoc]
  | intArray values =>
    obtain ⟨u, hu, hv⟩ := bind_ok_iff.mp hv
    obtain ⟨hfits, rfl⟩ := writeCollectionLen_ok_iff.mp hu
    cases hv
    refine ⟨⟨hdepth, hfits⟩, ?_⟩
    rw [foldl_putI32Le, NbtValue.bytes, ← List.append_assoc]

theorem writeValues_sound (values : List NbtValue) (elementType : NbtTag) (depth : Nat)
    (w w' : Bytes) (h : writeValues limits elementType depth w values = .ok w') :
    ValuesFit limits depth elementType values ∧ w' = w ++ valuesBytes values := by
  cases values with
  | nil =>
    cases h
    exact ⟨trivial, by rw [valuesBytes, List.append_nil]⟩
  | cons value values =>
    rw [writeValues] at h
    obtain ⟨_, htag, h⟩ := bind_ok_iff.mp h
    obtain ⟨u, hu, h⟩ := bind_ok_iff.mp h
    obtain ⟨hvalue, rfl⟩ := writePayload_sound value _ _ _ hu
    obtain ⟨hvalues, rfl⟩ := writeValues_sound values elementType _ _ _ h
    refine ⟨⟨by simpa using htag, hvalue, hvalues⟩, ?_⟩
    rw [valuesBytes, List.append_assoc]

theorem writeEntries_sound (entries : List NamedNbt) (depth : Nat) (w w' : Bytes)
    (h : writeEntries limits depth w entries = .ok w') :
    EntriesFit limits depth entries ∧ w' = w ++ entriesBytes entries := by
  match entries, h with
  | [], h =>
    cases h
    exact ⟨trivial, by rw [entriesBytes, List.append_nil]⟩
  | ⟨name, value⟩ :: entries, h =>
    rw [writeEntries] at h
    obtain ⟨u, hu, h⟩ := bind_ok_iff.mp h
    obtain ⟨v, hv, h⟩ := bind_ok_iff.mp h
    obtain ⟨hname, -, rfl⟩ := writeString_ok_iff.mp hu
    obtain ⟨hvalue, rfl⟩ := writePayload_sound value _ _ _ hv
    obtain ⟨hentries, rfl⟩ := writeEntries_sound entries _ _ _ h
    refine ⟨⟨hname, hvalue, hentries⟩, ?_⟩
    simp only [entriesBytes, tagBytes, Writer.putLe, List.append_assoc]

end

mutual

theorem writePayload_complete (value : NbtValue) (depth : Nat) (w : Bytes)
    (hfits : value.Fits limits depth) (hroom : w.length + value.bytes.length ≤ limits.maxBytes) :
    writePayload limits depth w value = .ok (w ++ value.bytes) := by
  unfold NbtValue.Fits at hfits
  obtain ⟨hdepth, hbody⟩ := hfits
  have hlast : (w ++ value.bytes).length ≤ limits.maxBytes := by rwa [List.length_append]
  unfold writePayload
  refine bind_ok_iff.mpr ⟨(), checkLimit_ok_iff.mpr hdepth, ?_⟩
  refine bind_ok_iff.mpr ⟨w ++ value.bytes, ?_, bind_ok_iff.mpr ⟨(), checkLimit_ok_iff.mpr hlast, rfl⟩⟩
  cases value with
  | byte _ | short _ | int _ | long _ | float _ | double _ => rfl
  | byteArray bytes =>
    refine bind_ok_iff.mpr ⟨_, writeCollectionLen_ok_iff.mpr ⟨hbody, rfl⟩, ?_⟩
    refine bind_ok_iff.mpr ⟨(), ?_, ?_⟩
    · rw [ensureOutputRoom, checkLimit_ok_iff]
      simpa [NbtValue.bytes, Nat.add_assoc] using hroom
    · rw [NbtValue.bytes, ← List.append_assoc]
      rfl
  | string text => exact writeString_ok_iff.mpr ⟨hbody, hroom, rfl⟩
  | list elementType values =>
    obtain ⟨⟨hle, hlt⟩, hend, hvalues⟩ := hbody
    rw [NbtValue.bytes, List.length_append, List.length_append] at hroom
    refine bind_ok_iff.mpr ⟨(), checkLimit_ok_iff.mpr hle, ?_⟩
    refine bind_ok_iff.mpr ⟨(), ?_, ?_⟩
    · rw [ensure_ok_iff]
      by_cases he : elementType = .end
      · simp [he, hend he]
      · simp [he]
    · refine bind_ok_iff.mpr ⟨_, writeI32Len_ok_iff.mpr ⟨hlt, rfl⟩, ?_⟩
      rw [writeValues_complete values elementType (depth + 1) _ hvalues]
      · simp only [NbtValue.bytes, tagBytes, Writer.putLe, List.append_assoc]
      · simp only [Writer.putLe, List.length_append, tagBytes] at hroom ⊢
        omega
  | compound entries =>
    obtain ⟨hle, hentries⟩ := hbody
    rw [NbtValue.bytes, List.length_append] at hroom
    refine bind_ok_iff.mpr ⟨(), checkLimit_ok_iff.mpr hle, ?_⟩
    refine bind_ok_iff.mpr ⟨_, writeEntries_complete entries (depth + 1) w hentries (by omega), ?_⟩
    rw [NbtValue.bytes, ← List.append_assoc]
    rfl
  | intArray values =>
    refine bind_ok_iff.mpr ⟨_, writeCollectionLen_ok_iff.mpr ⟨hbody, rfl⟩, ?_⟩
    rw [foldl_putI32Le, NbtValue.bytes, ← List.append_assoc]
    rfl

theorem writeValues_complete (values : List NbtValue) (elementType : NbtTag) (depth : Nat)
    (w : Bytes) (hfits : ValuesFit limits depth elementType values)
    (hroom : w.length + (valuesBytes values).length ≤ limits.maxBytes) :
    writeValues limits elementType depth w values = .ok (w ++ valuesBytes values) := by
  cases values with
  | nil =>
    rw [valuesBytes, List.append_nil]
    rfl
  | cons value values =>
    obtain ⟨htag, hvalue, hvalues⟩ := hfits
    rw [valuesBytes, List.length_append] at hroom
    rw [writeValues, valuesBytes, ← List.append_assoc]
    refine bind_ok_iff.mpr ⟨(), by simp [htag], ?_⟩
    refine bind_ok_iff.mpr ⟨_, writePayload_complete value depth w hvalue (by omega), ?_⟩
    exact writeValues_complete values elementType depth _ hvalues (by rw [List.length_append]; omega)

theorem writeEntries_complete (entries : List NamedNbt) (depth : Nat) (w : Bytes)
    (hfits : EntriesFit limits depth entries)
    (hroom : w.length + (entriesBytes entries).length ≤ limits.maxBytes) :
    writeEntries limits depth w entries = .ok (w ++ entriesBytes entries) := by
  match entries, hfits, hroom with
  | [], _, _ =>
    rw [entriesBytes, List.append_nil]
    rfl
  | ⟨name, value⟩ :: entries, hfits, hroom =>
    obtain ⟨hname, hvalue, hentries⟩ := hfits
    simp only [entriesBytes, List.length_append] at hroom
    rw [writeEntries, entriesBytes, List.append_assoc, List.append_assoc, ← List.append_assoc,
      ← List.append_assoc, ← List.append_assoc]
    refine bind_ok_iff.mpr ⟨w ++ tagBytes value.tag ++ stringBytes name, ?_, ?_⟩
    · refine writeString_ok_iff.mpr ⟨hname, ?_, rfl⟩
      change (w ++ tagBytes value.tag).length + _ ≤ _
      rw [List.length_append]
      omega
    · refine bind_ok_iff.mpr ⟨_, writePayload_complete value depth _ hvalue ?_, ?_⟩
      · simp only [List.length_append]
        omega
      · refine writeEntries_complete entries depth _ hentries ?_
        simp only [List.length_append]
        omega

end

theorem valuesBytes_eq (values : List NbtValue) : valuesBytes values = values.flatMap NbtValue.bytes := by
  induction values with
  | nil => rfl
  | cons value values ih => rw [valuesBytes, List.flatMap_cons, ih]

theorem valuesFit_iff {elementType : NbtTag} (values : List NbtValue) :
    ValuesFit limits depth elementType values ↔
      ∀ value ∈ values, value.tag = elementType ∧ value.Fits limits depth := by
  induction values with
  | nil => simp [ValuesFit]
  | cons value values ih => rw [ValuesFit, ih, List.forall_mem_cons, and_assoc]

theorem length_tagBytes (tag : NbtTag) : (tagBytes tag).length = 1 := Word.length_toLeBytes _

theorem tag_ne_end (value : NbtValue) : value.tag ≠ .end := by
  cases value <;> simp [NbtValue.tag]

-- what the payload reader accepts on inputs of fewer than `n` bytes
def ReadsPayloads (limits : NbtLimits) (n depth : Nat)
    (readValue : NbtTag → Lib.Reader (Halt CodecError) NbtValue) : Prop :=
  ∀ tag s, s.length < n → ∀ value t, readValue tag s = .ok (value, t) ↔
    (value.tag = tag ∧ value.Fits limits depth) ∧ s = value.bytes ++ t

theorem readEntries_ok_iff {readValue : NbtTag → Lib.Reader (Halt CodecError) NbtValue} {n : Nat}
    (hread : ReadsPayloads limits n depth readValue) (fuel count : Nat) (s : Bytes)
    (hn : s.length ≤ n) (hfuel : s.length < fuel) (entries : List NamedNbt) (t : Bytes) :
    readEntries limits readValue fuel count s = .ok (entries, t) ↔
      (entries = [] ∨ count + entries.length ≤ limits.maxCollectionLen) ∧
        EntriesFit limits depth entries ∧ s = entriesBytes entries ++ tagBytes .end ++ t := by
  induction fuel generalizing count s entries t with
  | zero => omega
  | succ fuel ih =>
    rw [readEntries, Reader.bind_ok_iff]
    constructor
    · rintro ⟨tag, u, htag, h⟩
      have hs := readTag_ok_iff.mp (Reader.fueled_ok_iff.mp htag)
      subst hs
      rw [List.length_append, length_tagBytes] at hn hfuel
      split at h
      · next hend =>
        obtain ⟨rfl, rfl⟩ := Reader.pure_ok_iff.mp h
        exact ⟨.inl rfl, trivial, by rw [hend]; rfl⟩
      · next hend =>
        obtain ⟨_, u', hcheck, h₁⟩ := Reader.bind_ok h
        obtain ⟨hcount, rfl⟩ := Reader.fueled_checked_ok_iff.mp hcheck
        obtain ⟨name, v, hname, h₂⟩ := Reader.bind_ok h₁
        obtain ⟨hfitsName, rfl⟩ := readString_ok_iff.mp (Reader.fueled_ok_iff.mp hname)
        rw [List.length_append] at hn hfuel
        obtain ⟨value, v', hvalue, h₃⟩ := Reader.bind_ok h₂
        obtain ⟨⟨rfl, hfits⟩, rfl⟩ := (hread _ _ (by omega) _ _).mp hvalue
        rw [List.length_append] at hn hfuel
        obtain ⟨rest, v'', hrest, h₄⟩ := Reader.bind_ok h₃
        obtain ⟨hroom, hrestFits, rfl⟩ := (ih _ _ (by omega) (by omega) _ _).mp hrest
        obtain ⟨rfl, rfl⟩ := Reader.pure_ok_iff.mp h₄
        refine ⟨.inr ?_, ⟨hfitsName, hfits, hrestFits⟩, ?_⟩
        · have hle := checkLimit_ok_iff.mp hcount
          rcases hroom with rfl | hroom
          · simpa using hle
          · rw [List.length_cons]
            omega
        · simp only [entriesBytes, List.append_assoc]
    · rintro ⟨hroom, hfits, rfl⟩
      match entries, hroom, hfits with
      | [], _, _ =>
        refine ⟨.end, t, Reader.fueled_ok_iff.mpr (readTag_ok_iff.mpr rfl), ?_⟩
        rw [if_pos rfl]
        rfl
      | ⟨name, value⟩ :: entries, hroom, hfits =>
        obtain ⟨hname, hvalue, hentries⟩ := hfits
        have hroom := hroom.resolve_left (List.cons_ne_nil _ _)
        rw [List.length_cons] at hroom
        simp only [entriesBytes, List.append_assoc, List.length_append, length_tagBytes] at hn hfuel ⊢
        refine ⟨value.tag, _, Reader.fueled_ok_iff.mpr (readTag_ok_iff.mpr rfl), ?_⟩
        rw [if_neg (tag_ne_end value)]
        refine Reader.bind_ok_iff.mpr ⟨(), _, Reader.fueled_checked_ok_iff.mpr ⟨?_, rfl⟩, ?_⟩
        · exact checkLimit_ok_iff.mpr (by omega)
        refine Reader.bind_ok_iff.mpr
          ⟨name, _, Reader.fueled_ok_iff.mpr (readString_ok_iff.mpr ⟨hname, rfl⟩), ?_⟩
        refine Reader.bind_ok_iff.mpr ⟨value, _, (hread _ _ ?_ _ _).mpr ⟨⟨rfl, hvalue⟩, rfl⟩, ?_⟩
        · simp only [List.length_append, length_tagBytes]
          omega
        refine Reader.bind_ok_iff.mpr ⟨entries, t, (ih _ _ ?_ ?_ _ _).mpr ⟨.inr ?_, hentries, ?_⟩, rfl⟩
        · simp only [List.length_append, length_tagBytes]
          omega
        · simp only [List.length_append, length_tagBytes]
          omega
        · omega
        · rw [List.append_assoc]

theorem fueled_pure_ok_iff {α β : Type} {r : Reader α} {f : α → β} {b : β} :
    ((do let a ← r; pure (f a) : Lib.Reader (Halt CodecError) β) s = .ok (b, t)) ↔
      ∃ a, r s = .ok (a, t) ∧ b = f a := by
  rw [Reader.bind_ok_iff]
  constructor
  · rintro ⟨a, u, hr, hp⟩
    obtain ⟨rfl, rfl⟩ := Reader.pure_ok_iff.mp hp
    exact ⟨a, Reader.fueled_ok_iff.mp hr, rfl⟩
  · rintro ⟨a, hr, rfl⟩
    exact ⟨a, t, Reader.fueled_ok_iff.mpr hr, rfl⟩

theorem readInts_ok_iff (n : Nat) {values : List Int32} :
    (Reader.times (liftM readI32Le : Lib.Reader (Halt CodecError) Int32) n) s = .ok (values, t) ↔
      values.length = n ∧ s = values.flatMap Word.toLeBytes ++ t := by
  have hexact : ∀ u : Bytes, u.length ≤ s.length → ∀ (a : Int32) v,
      (liftM readI32Le : Lib.Reader (Halt CodecError) Int32) u = .ok (a, v) ↔
        True ∧ u = Word.toLeBytes a ++ v := by
    intro u _ a v
    rw [Reader.fueled_ok_iff, readLe_ok_iff, true_and]
  simpa using Reader.times_ok_iff hexact n s le_rfl values t

theorem readValues_ok_iff {readValue : NbtTag → Lib.Reader (Halt CodecError) NbtValue} {n : Nat}
    (hread : ReadsPayloads limits n depth readValue) (elementType : NbtTag) (k : Nat)
    (hn : s.length < n) {values : List NbtValue} :
    (readValue elementType).times k s = .ok (values, t) ↔
      values.length = k ∧ ValuesFit limits depth elementType values ∧
        s = valuesBytes values ++ t := by
  rw [valuesFit_iff, valuesBytes_eq]
  have hexact : ∀ u : Bytes, u.length ≤ s.length → ∀ value v, readValue elementType u = .ok (value, v) ↔
      (value.tag = elementType ∧ value.Fits limits depth) ∧ u = value.bytes ++ v :=
    fun u hu value v => hread elementType u (by omega) value v
  exact Reader.times_ok_iff hexact k s le_rfl values t

theorem readPayload_sound {fuel : Nat}
    (ih : ∀ depth, ReadsPayloads limits fuel depth (readPayload limits fuel depth)) {tag : NbtTag}
    (hs : s.length < fuel + 1) (h : readPayload limits (fuel + 1) depth tag s = .ok (value, t)) :
    (value.tag = tag ∧ value.Fits limits depth) ∧ s = value.bytes ++ t := by
  unfold readPayload at h
  obtain ⟨_, u, hcheck, hbody⟩ := Reader.bind_ok h
  obtain ⟨hle, rfl⟩ := Reader.fueled_checked_ok_iff.mp hcheck
  have hdepth := checkLimit_ok_iff.mp hle
  clear h
  cases tag with
  | «end» => cases (Reader.fueled_checked_ok_iff.mp hbody).1
  | byte | short | int | long | float | double =>
    obtain ⟨v, hv, rfl⟩ := fueled_pure_ok_iff.mp hbody
    exact ⟨⟨rfl, hdepth, trivial⟩, readLe_ok_iff.mp hv⟩
  | string =>
    obtain ⟨text, htext, rfl⟩ := fueled_pure_ok_iff.mp hbody
    obtain ⟨hfits, hs⟩ := readString_ok_iff.mp htext
    exact ⟨⟨rfl, hdepth, hfits⟩, hs⟩
  | byteArray =>
    obtain ⟨n, u, hn, hrest⟩ := Reader.bind_ok hbody
    obtain ⟨hfits, rfl⟩ := readCollectionLen_ok_iff.mp (Reader.fueled_ok_iff.mp hn)
    obtain ⟨bytes, hbytes, rfl⟩ := fueled_pure_ok_iff.mp hrest
    obtain ⟨rfl, rfl⟩ := readExact_ok_iff.mp hbytes
    exact ⟨⟨rfl, hdepth, hfits⟩, by rw [NbtValue.bytes, List.append_assoc]⟩
  | intArray =>
    obtain ⟨n, u, hn, hrest⟩ := Reader.bind_ok hbody
    obtain ⟨hfits, rfl⟩ := readCollectionLen_ok_iff.mp (Reader.fueled_ok_iff.mp hn)
    obtain ⟨values, v, hvalues, hp⟩ := Reader.bind_ok hrest
    obtain ⟨rfl, rfl⟩ := Reader.pure_ok_iff.mp hp
    obtain ⟨rfl, rfl⟩ := (readInts_ok_iff _).mp hvalues
    exact ⟨⟨rfl, hdepth, hfits⟩, by rw [NbtValue.bytes, List.append_assoc]⟩
  | list =>
    obtain ⟨elementType, u, htag, hrest⟩ := Reader.bind_ok hbody
    have hu := readTag_ok_iff.mp (Reader.fueled_ok_iff.mp htag)
    subst hu
    obtain ⟨n, v, hn, hrest'⟩ := Reader.bind_ok hrest
    obtain ⟨hfits, rfl⟩ := readCollectionLen_ok_iff.mp (Reader.fueled_ok_iff.mp hn)
    obtain ⟨_, v', hend, hloop⟩ := Reader.bind_ok hrest'
    obtain ⟨hne, rfl⟩ := Reader.fueled_checked_ok_iff.mp hend
    obtain ⟨values, v', hvalues, hp⟩ := Reader.bind_ok hloop
    obtain ⟨rfl, rfl⟩ := Reader.pure_ok_iff.mp hp
    simp only [List.length_append, length_tagBytes] at hs
    obtain ⟨rfl, hvaluesFit, rfl⟩ := (readValues_ok_iff (ih (depth + 1)) _ _ (by omega)).mp hvalues
    refine ⟨⟨rfl, hdepth, hfits, ?_, hvaluesFit⟩, by simp only [NbtValue.bytes, List.append_assoc]⟩
    rintro rfl
    simpa using hne
  | compound =>
    obtain ⟨entries, v, hentries, hp⟩ := Reader.bind_ok hbody
    obtain ⟨rfl, rfl⟩ := Reader.pure_ok_iff.mp hp
    obtain ⟨hroom, hfits, rfl⟩ :=
      (readEntries_ok_iff (ih (depth + 1)) _ _ _ (by omega) hs _ _).mp hentries
    refine ⟨⟨rfl, hdepth, ?_, hfits⟩, rfl⟩
    rcases hroom with rfl | hroom
    · exact Nat.zero_le _
    · omega

theorem readPayload_complete {fuel : Nat}
    (ih : ∀ depth, ReadsPayloads limits fuel depth (readPayload limits fuel depth))
    (hs : (value.bytes ++ t).length < fuel + 1) (hfits : value.Fits limits depth) :
    readPayload limits (fuel + 1) depth value.tag (value.bytes ++ t) = .ok (value, t) := by
  unfold NbtValue.Fits at hfits
  obtain ⟨hdepth, hbody⟩ := hfits
  unfold readPayload
  refine Reader.bind_ok_iff.mpr
    ⟨(), _, Reader.fueled_checked_ok_iff.mpr ⟨checkLimit_ok_iff.mpr hdepth, rfl⟩, ?_⟩
  cases value with
  | byte v | short v | int v | long v | float v | double v =>
    exact fueled_pure_ok_iff.mpr ⟨v, readLe_ok_iff.mpr rfl, rfl⟩
  | string text => exact fueled_pure_ok_iff.mpr ⟨text, readString_ok_iff.mpr ⟨hbody, rfl⟩, rfl⟩
  | byteArray bytes =>
    rw [NbtValue.bytes, List.append_assoc]
    refine Reader.bind_ok_iff.mpr
      ⟨_, _, Reader.fueled_ok_iff.mpr (readCollectionLen_ok_iff.mpr ⟨hbody, rfl⟩), ?_⟩
    exact fueled_pure_ok_iff.mpr ⟨bytes, readExact_ok_iff.mpr ⟨rfl, rfl⟩, rfl⟩
  | intArray values =>
    rw [NbtValue.bytes, List.append_assoc]
    refine Reader.bind_ok_iff.mpr
      ⟨_, _, Reader.fueled_ok_iff.mpr (readCollectionLen_ok_iff.mpr ⟨hbody, rfl⟩), ?_⟩
    exact Reader.bind_ok_iff.mpr ⟨values, t, (readInts_ok_iff _).mpr ⟨rfl, rfl⟩, rfl⟩
  | list elementType values =>
    obtain ⟨hlen, hend, hvalues⟩ := hbody
    simp only [NbtValue.bytes, List.append_assoc, List.length_append, length_tagBytes] at hs ⊢
    refine Reader.bind_ok_iff.mpr
      ⟨elementType, _, Reader.fueled_ok_iff.mpr (readTag_ok_iff.mpr rfl), ?_⟩
    refine Reader.bind_ok_iff.mpr
      ⟨_, _, Reader.fueled_ok_iff.mpr (readCollectionLen_ok_iff.mpr ⟨hlen, rfl⟩), ?_⟩
    refine Reader.bind_ok_iff.mpr ⟨(), _, Reader.fueled_checked_ok_iff.mpr ⟨?_, rfl⟩, ?_⟩
    · rw [ensure_ok_iff]
      by_cases he : elementType = .end
      · simp [he, hend he]
      · simp [he]
    · refine Reader.bind_ok_iff.mpr ⟨values, t, ?_, rfl⟩
      refine (readValues_ok_iff (ih (depth + 1)) _ _ ?_).mpr ⟨rfl, hvalues, rfl⟩
      rw [List.length_append]
      omega
  | compound entries =>
    obtain ⟨hle, hentries⟩ := hbody
    refine Reader.bind_ok_iff.mpr ⟨entries, t, ?_, rfl⟩
    refine (readEntries_ok_iff (ih (depth + 1)) _ _ _ (by omega) hs _ _).mpr ⟨.inr ?_, hentries, rfl⟩
    omega

theorem readPayload_ok_iff (fuel depth : Nat) :
    ReadsPayloads limits fuel depth (readPayload limits fuel depth) := by
  induction fuel generalizing depth with
  | zero => exact fun _ _ hs => absurd hs (Nat.not_lt_zero _)
  | succ fuel ih =>
    intro tag s hs value t
    constructor
    · exact readPayload_sound ih hs
    · rintro ⟨⟨rfl, hfits⟩, rfl⟩
      exact readPayload_complete ih hs hfits

end Cobblestone.Wire
