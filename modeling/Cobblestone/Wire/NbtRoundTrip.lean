import Cobblestone.Wire.NbtExact

namespace Cobblestone.Wire

open Lib

variable {limits : NbtLimits}

theorem readTag_settled (n : Nat) :
    Settled n 1 (liftM readTag : Lib.Reader (Halt CodecError) NbtTag) (liftM readTag) := by
  refine Settled.fueled fun s tag t h => ?_
  rw [readTag_ok_iff.mp h, List.length_append, length_tagBytes]
  omega

theorem readString_settled (n : Nat) :
    Settled n 0 (liftM (readString limits) : Lib.Reader (Halt CodecError) String)
      (liftM (readString limits)) := by
  refine Settled.fueled fun s text t h => ?_
  rw [(readString_ok_iff.mp h).2, List.length_append]
  omega

theorem readCollectionLen_settled (n : Nat) (field : String) :
    Settled n 0 (liftM (readCollectionLen field limits) : Lib.Reader (Halt CodecError) Nat)
      (liftM (readCollectionLen field limits)) := by
  refine Settled.fueled fun s len t h => ?_
  rw [(readCollectionLen_ok_iff.mp h).2, List.length_append]
  omega

theorem readExact_settled (n len : Nat) :
    Settled n 0 (liftM (readExact len) : Lib.Reader (Halt CodecError) Bytes)
      (liftM (readExact len)) := by
  refine Settled.fueled fun s bytes t h => ?_
  rw [(readExact_ok_iff.mp h).2, List.length_append]
  omega

theorem readLe_settled {α : Type} [Word α] (n : Nat) :
    Settled n 0 (liftM (readLe : Reader α) : Lib.Reader (Halt CodecError) α) (liftM readLe) := by
  refine Settled.fueled fun s a t h => ?_
  rw [readLe_ok_iff.mp h, List.length_append]
  omega

section Loop

variable {readValue readValue' : NbtTag → Lib.Reader (Halt CodecError) NbtValue} {n : Nat}

theorem readEntries_step_settled (hread : ∀ tag, Settled n 0 (readValue tag) (readValue' tag))
    {fuel fuel' : Nat}
    (hrest : ∀ count, Settled n 0 (readEntries limits readValue fuel count)
      (readEntries limits readValue' fuel' count)) (count : Nat) :
    Settled (n + 1) 0 (readEntries limits readValue (fuel + 1) count)
      (readEntries limits readValue' (fuel' + 1) count) := by
  unfold readEntries
  refine ((readTag_settled (n + 1)).bind (d := 0) fun tag => ?_).mono le_rfl (by omega)
  split
  · exact Settled.pure n []
  · refine (Settled.checked n _).andThen fun _ => ?_
    refine (readString_settled n).andThen fun name => ?_
    refine (hread tag).andThen fun value => ?_
    exact (hrest (count + 1)).andThen fun entries => Settled.pure n (⟨name, value⟩ :: entries)

theorem readEntries_settled (hread : ∀ tag, Settled n 0 (readValue tag) (readValue' tag))
    {fuel fuel' : Nat} (hf : n < fuel) (hf' : n < fuel') (count : Nat) :
    Settled (n + 1) 0 (readEntries limits readValue fuel count)
      (readEntries limits readValue' fuel' count) := by
  induction n generalizing fuel fuel' count with
  | zero =>
    obtain ⟨fuel, rfl⟩ := Nat.exists_eq_add_of_lt hf
    obtain ⟨fuel', rfl⟩ := Nat.exists_eq_add_of_lt hf'
    exact readEntries_step_settled hread (fun _ s hs => absurd hs (Nat.not_lt_zero _)) count
  | succ n ih =>
    obtain ⟨fuel, rfl⟩ := Nat.exists_eq_add_of_lt hf
    obtain ⟨fuel', rfl⟩ := Nat.exists_eq_add_of_lt hf'
    refine readEntries_step_settled hread (fun count => ?_) count
    exact ih (fun tag => (hread tag).mono (by omega) le_rfl) (by omega) (by omega) count

end Loop

theorem readPayload_settled (n : Nat) {fuel fuel' : Nat} (hf : n ≤ fuel) (hf' : n ≤ fuel')
    (depth : Nat) (tag : NbtTag) :
    Settled n 0 (readPayload limits fuel depth tag) (readPayload limits fuel' depth tag) := by
  induction n generalizing fuel fuel' depth tag with
  | zero => exact fun s hs => absurd hs (Nat.not_lt_zero _)
  | succ n ih =>
    obtain ⟨fuel, rfl⟩ := Nat.exists_eq_add_of_le' (show 1 ≤ fuel by omega)
    obtain ⟨fuel', rfl⟩ := Nat.exists_eq_add_of_le' (show 1 ≤ fuel' by omega)
    have hchild := fun tag => ih (show n ≤ fuel by omega) (show n ≤ fuel' by omega) (depth + 1) tag
    unfold readPayload
    refine (Settled.checked (n + 1) _).andThen fun _ => ?_
    cases tag with
    | «end» => exact Settled.checked (n + 1) _
    | byte | short | int | long | float | double =>
      exact (readLe_settled (n + 1)).andThen fun v => Settled.pure (n + 1) _
    | string => exact (readString_settled (n + 1)).andThen fun text => Settled.pure (n + 1) _
    | byteArray =>
      refine (readCollectionLen_settled (n + 1) _).andThen fun len => ?_
      exact (readExact_settled (n + 1) len).andThen fun bytes => Settled.pure (n + 1) _
    | intArray =>
      refine (readCollectionLen_settled (n + 1) _).andThen fun len => ?_
      exact ((readLe_settled (n + 1)).times len).andThen fun values => Settled.pure (n + 1) _
    | list =>
      refine ((readTag_settled (n + 1)).bind (d := 0) fun elementType => ?_).mono le_rfl (by omega)
      refine (readCollectionLen_settled n _).andThen fun len => ?_
      refine (Settled.checked n _).andThen fun _ => ?_
      exact ((hchild elementType).times len).andThen fun values => Settled.pure n _
    | compound =>
      refine Settled.andThen (readEntries_settled hchild ?_ ?_ 0) fun entries => Settled.pure (n + 1) _
      · omega
      · omega

theorem decodeDocument_settled {n fuel fuel' : Nat} (hf : n ≤ fuel) (hf' : n ≤ fuel') :
    Settled n 0 (decodeDocument limits fuel) (decodeDocument limits fuel') := by
  unfold decodeDocument
  refine ((readTag_settled n).mono le_rfl (by omega)).andThen fun tag => ?_
  refine (Settled.checked n _).andThen fun _ => ?_
  refine (readString_settled n).andThen fun name => ?_
  refine (readPayload_settled n hf hf' 0 tag).andThen fun value => ?_
  refine Settled.andThen (Settled.fueled fun s u t h => ?_) fun _ => Settled.pure n _
  obtain ⟨rfl, rfl⟩ := finish_ok_iff.mp h
  exact le_rfl

end Cobblestone.Wire

namespace Cobblestone.Wire

open Lib

variable {limits : NbtLimits} {input output s t : Bytes} {document : NbtDocument}

def NbtDocument.bytes (document : NbtDocument) : Bytes :=
  tagBytes document.root.value.tag ++ stringBytes document.root.name ++ document.root.value.bytes

def NbtDocument.Fits (limits : NbtLimits) (document : NbtDocument) : Prop :=
  limits.FitsString document.root.name ∧ document.root.value.Fits limits 0 ∧
    document.bytes.length ≤ limits.maxBytes

theorem encodeLe_sound (h : encodeLe document limits = .ok output) :
    document.Fits limits ∧ output = document.bytes := by
  unfold encodeLe at h
  obtain ⟨u, hu, h⟩ := bind_ok_iff.mp h
  obtain ⟨v, hv, h⟩ := bind_ok_iff.mp h
  obtain ⟨_, hlast, h⟩ := bind_ok_iff.mp h
  cases h
  obtain ⟨hname, -, rfl⟩ := writeString_ok_iff.mp hu
  obtain ⟨hvalue, rfl⟩ := writePayload_sound _ _ _ _ hv
  exact ⟨⟨hname, hvalue, checkLimit_ok_iff.mp hlast⟩, rfl⟩

theorem encodeLe_complete (h : document.Fits limits) :
    encodeLe document limits = .ok document.bytes := by
  obtain ⟨hname, hvalue, hbytes⟩ := h
  have hlength := hbytes
  simp only [NbtDocument.bytes, List.length_append] at hlength
  unfold encodeLe
  refine bind_ok_iff.mpr ⟨_, writeString_ok_iff.mpr ⟨hname, ?_, rfl⟩, ?_⟩
  · change (tagBytes _).length + _ ≤ _
    omega
  refine bind_ok_iff.mpr ⟨document.bytes, writePayload_complete _ 0 _ hvalue ?_, ?_⟩
  · change (tagBytes _ ++ _).length + _ ≤ _
    rw [List.length_append]
    exact hlength
  · exact bind_ok_iff.mpr ⟨(), checkLimit_ok_iff.mpr hbytes, rfl⟩

theorem decodeDocument_sound {fuel : Nat} (hfuel : s.length < fuel)
    (h : decodeDocument limits fuel s = .ok (document, t)) :
    limits.FitsString document.root.name ∧ document.root.value.Fits limits 0 ∧
      s = document.bytes := by
  unfold decodeDocument at h
  obtain ⟨tag, u, htag, h₁⟩ := Reader.bind_ok h
  have hs := readTag_ok_iff.mp (Reader.fueled_ok_iff.mp htag)
  obtain ⟨_, u₁, hend, h₂⟩ := Reader.bind_ok h₁
  obtain ⟨-, rfl⟩ := Reader.fueled_checked_ok_iff.mp hend
  obtain ⟨name, u₂, hname, h₃⟩ := Reader.bind_ok h₂
  obtain ⟨hnameFits, hu⟩ := readString_ok_iff.mp (Reader.fueled_ok_iff.mp hname)
  obtain ⟨value, u₃, hvalue, h₄⟩ := Reader.bind_ok h₃
  have hlt : u₂.length < fuel := by
    rw [hs, hu, List.length_append, List.length_append] at hfuel
    omega
  obtain ⟨⟨rfl, hvalueFits⟩, hu₂⟩ := (readPayload_ok_iff fuel 0 _ _ hlt _ _).mp hvalue
  obtain ⟨_, u₄, hfinish, h₅⟩ := Reader.bind_ok h₄
  obtain ⟨hu₃, -⟩ := finish_ok_iff.mp (Reader.fueled_ok_iff.mp hfinish)
  obtain ⟨rfl, -⟩ := Reader.pure_ok_iff.mp h₅
  refine ⟨hnameFits, hvalueFits, ?_⟩
  rw [hs, hu, hu₂, hu₃, List.append_nil, NbtDocument.bytes, List.append_assoc]

theorem decodeDocument_complete {fuel : Nat} (hfuel : document.bytes.length < fuel)
    (h : document.Fits limits) :
    decodeDocument limits fuel document.bytes = .ok (document, []) := by
  obtain ⟨⟨name, value⟩⟩ := document
  obtain ⟨hname, hvalue, -⟩ := h
  simp only [NbtDocument.bytes, List.length_append, List.append_assoc] at hfuel hname hvalue ⊢
  unfold decodeDocument
  refine Reader.bind_ok_iff.mpr ⟨_, _, Reader.fueled_ok_iff.mpr (readTag_ok_iff.mpr rfl), ?_⟩
  refine Reader.bind_ok_iff.mpr ⟨(), _, Reader.fueled_checked_ok_iff.mpr ⟨?_, rfl⟩, ?_⟩
  · simpa using tag_ne_end value
  refine Reader.bind_ok_iff.mpr
    ⟨_, _, Reader.fueled_ok_iff.mpr (readString_ok_iff.mpr ⟨hname, rfl⟩), ?_⟩
  refine Reader.bind_ok_iff.mpr ⟨value, [], ?_, ?_⟩
  · refine (readPayload_ok_iff fuel 0 _ _ (by omega) _ _).mpr ⟨⟨rfl, hvalue⟩, ?_⟩
    rw [List.append_nil]
  · exact Reader.bind_ok_iff.mpr ⟨(), [], Reader.fueled_ok_iff.mpr rfl, rfl⟩

theorem decodeLe_sound (h : decodeLe input limits = .ok document) :
    document.Fits limits ∧ input = document.bytes := by
  unfold decodeLe decodeWithin at h
  split at h
  · cases h
  · next hlimit =>
    cases hd : decodeDocument limits (input.length + 1) input with
    | error e =>
      rw [hd] at h
      cases h
    | ok p =>
      rw [hd] at h
      cases h
      obtain ⟨hname, hvalue, hinput⟩ := decodeDocument_sound (Nat.lt_succ_self _) hd
      exact ⟨⟨hname, hvalue, hinput ▸ checkLimit_ok_iff.mp hlimit⟩, hinput⟩

theorem decodeLe_complete (h : document.Fits limits) :
    decodeLe document.bytes limits = .ok document := by
  unfold decodeLe decodeWithin
  rw [checkLimit_ok_iff (u := ()) |>.mpr h.2.2, decodeDocument_complete (Nat.lt_succ_self _) h]
  rfl

theorem decodeWithin_settled {fuel : Nat} (hfuel : input.length < fuel) :
    decodeWithin fuel input limits = decodeLe input limits ∧
      decodeLe input limits ≠ .error .outOfFuel := by
  have hsettled : Settled (input.length + 1) 0 (decodeDocument limits (input.length + 1))
      (decodeDocument limits fuel) := decodeDocument_settled le_rfl hfuel
  obtain ⟨heq, hhalt, -⟩ := hsettled input (Nat.lt_succ_self _)
  unfold decodeLe decodeWithin
  rw [← heq]
  refine ⟨rfl, ?_⟩
  split
  · nofun
  · intro he
    cases hd : decodeDocument limits (input.length + 1) input with
    | error e =>
      rw [hd] at he
      cases he
      exact hhalt hd
    | ok p =>
      rw [hd] at he
      cases he

theorem nbt_codec_exact (limits : NbtLimits) :
    (∀ document bytes, encodeLe document limits = .ok bytes →
        decodeLe bytes limits = .ok document) ∧
      (∀ input document, decodeLe input limits = .ok document →
        encodeLe document limits = .ok input) ∧
      ∀ input fuel, input.length < fuel →
        decodeWithin fuel input limits = decodeLe input limits ∧
          decodeLe input limits ≠ .error .outOfFuel := by
  refine ⟨?_, ?_, fun input fuel => decodeWithin_settled⟩
  · intro document bytes h
    obtain ⟨hfits, rfl⟩ := encodeLe_sound h
    exact decodeLe_complete hfits
  · intro input document h
    obtain ⟨hfits, rfl⟩ := decodeLe_sound h
    exact encodeLe_complete hfits

def signDocument : NbtDocument :=
  ⟨⟨"", .compound [⟨"x", .int (-3)⟩, ⟨"items", .list .end []⟩, ⟨"Text1", .string "hé"⟩]⟩⟩

theorem nbt_codec_exact_sign :
    ∃ bytes, encodeLe signDocument ⟨64, 2, 4, 8⟩ = .ok bytes ∧
      decodeLe bytes ⟨64, 2, 4, 8⟩ = .ok signDocument :=
  have h : ∃ bytes, encodeLe signDocument ⟨64, 2, 4, 8⟩ = .ok bytes := ⟨_, rfl⟩
  h.elim fun bytes hb => ⟨bytes, hb, (nbt_codec_exact ⟨64, 2, 4, 8⟩).1 signDocument bytes hb⟩

end Cobblestone.Wire
