import Cobblestone.Storage.RoundTrip

namespace Cobblestone.Storage

open Lib World

abbrev migratedHeightEnd : Nat := semanticPrefixBytes + biomeWordBytes + chunkColumnCount

-- A version-2 payload with an empty chest list behind its extra data.
def insertChestCount (payload : Bytes) : Bytes :=
  let extraCount := (readU32 payload migratedHeightEnd).toNat
  let extraEnd := migratedHeightEnd + 4 + extraCount * 4
  payload.take extraEnd ++ (toLE 4 0 ++ payload.drop extraEnd)

-- A version-1 payload with each biome id replaced by the word of its default color.
def withBiomeWords (payload : Bytes) : Bytes :=
  let ids := sliceAt semanticPrefixBytes legacyBiomeBytes payload
  payload.take semanticPrefixBytes ++
    (ids.flatMap (fun id => toBigEndian ((defaultBiomeWord id).getD 0)) ++
      payload.drop (semanticPrefixBytes + legacyBiomeBytes))

theorem consumes_u16 : Consumes readPayloadU16 2 :=
  (Consumes.natLE 2 _).bind fun _ => .pure _

theorem consumes_u32 : Consumes readPayloadU32 4 :=
  (Consumes.natLE 4 _).bind fun _ => .pure _

theorem consumes_extraEntries (n : Nat) (extra : ExtraData) :
    Consumes (readExtraEntries n extra) (n * 4) := by
  induction n generalizing extra with
  | zero =>
    rw [Nat.zero_mul]
    exact .pure extra
  | succ n ih =>
    have hsize : (n + 1) * 4 = 2 + (2 + (0 + (0 + n * 4))) := by omega
    rw [hsize]
    refine consumes_u16.bind fun linear => consumes_u16.bind fun value => ?_
    exact (Consumes.require _ _).bind fun _ => (Consumes.require _ _).bind fun _ => ih _

theorem readPayloadU32_value {s t : Bytes} {v : UInt32} (h : readPayloadU32 s = .ok (v, t)) :
    readU32 s 0 = v := by
  obtain ⟨n, u, hn, hv⟩ := Reader.bind_ok h
  obtain ⟨bytes, w, hbytes, hn⟩ := Reader.bind_ok hn
  obtain ⟨rfl, -⟩ := Reader.pure_ok hv
  obtain ⟨rfl, -⟩ := Reader.pure_ok hn
  rw [Reader.bytes] at hbytes
  split at hbytes <;> cases hbytes
  rfl

-- What the extra-data section takes of the payload.
theorem readExtra_consumes {s t : Bytes} {extra : ExtraData} (h : readExtra s = .ok (extra, t)) :
    ∃ pre, s = pre ++ t ∧ pre.length = 4 + (readU32 s 0).toNat * 4 ∧ Reads readExtra pre extra := by
  obtain ⟨count, u, hcount, hguarded⟩ := Reader.bind_ok h
  obtain ⟨_, v, hrange, hroomy⟩ := Reader.bind_ok hguarded
  obtain ⟨_, w, hroom, hentries⟩ := Reader.bind_ok hroomy
  obtain ⟨hbound, heq⟩ := Reader.require_ok hrange
  cases heq
  have hsame : w = u := by
    rw [Reader.atLeast] at hroom
    split at hroom <;> cases hroom
    rfl
  subst hsame
  have hvalue := readPayloadU32_value hcount
  obtain ⟨head, rfl, hhead, hreadsHead⟩ := consumes_u32 s count w hcount
  obtain ⟨body, rfl, hbody, hreadsBody⟩ := consumes_extraEntries count.toNat ∅ w extra t hentries
  refine ⟨head ++ body, (List.append_assoc _ _ _).symm, ?_, ?_⟩
  · rw [List.length_append, hhead, hbody, hvalue]
  · refine hreadsHead.bind ?_
    refine (reads_require hbound).bind_silent ?_
    exact Reads.bind_atLeast (le_of_eq hbody.symm) hreadsBody

theorem readTail_plain {version : UInt16} (hv : version ≠ semanticPayloadVersion) (s : Bytes) :
    readTail version s = (readExtra >>= fun extra => pure (extra, [])) s := by
  simp only [readTail, readVersionedChests, if_neg hv, pure_bind]

theorem reads_noChests : Reads readChests (toLE 4 0) [] := by
  have h : Reads readChests (toLE 4 (0 : UInt32).toNat ++ [].flatMap encodeChest) [] :=
    reads_chests rfl (Nat.zero_le _) fun entity he => absurd he List.not_mem_nil
  simpa using h

section

variable {pre heights tail : Bytes}

-- The sections of a payload, read one by one.
def decodeSections (version : UInt16) (pre biomes heights tail : Bytes) :
    Except StorageError (ChunkData × List ExtensionSection) := do
  let words ← decodeBiomes version biomes
  let ((extra, chests), rest) ← readTail version tail
  let extensions ← readExtensions rest
  pure (
    { states := decodeStates (sliceAt 0 chunkBlockCount pre)
        (sliceAt chunkBlockCount chunkNibbleBytes pre)
      skyLight := sliceAt (chunkBlockCount + chunkNibbleBytes) chunkNibbleBytes pre
      blockLight := sliceAt (chunkBlockCount + chunkNibbleBytes + chunkNibbleBytes) chunkNibbleBytes pre
      biomes := words
      heightMap := heights
      extraData := extra
      chestBlockEntities := chests },
    extensions)

theorem decodeSemanticPayload_sections {version : UInt16} {biomes : Bytes}
    (hv : biomeBytesOf version = .ok biomes.length) (hpre : pre.length = semanticPrefixBytes)
    (hheights : heights.length = chunkColumnCount) (htail : 4 ≤ tail.length) :
    decodeSemanticPayload (pre ++ (biomes ++ (heights ++ tail))) version =
      decodeSections version pre biomes heights tail := by
  have hpref : semanticPrefixBytes =
      chunkBlockCount + chunkNibbleBytes + chunkNibbleBytes + chunkNibbleBytes := rfl
  rw [hpref] at hpre
  have hleft {o n : Nat} (h : o + n ≤ pre.length) :
      sliceAt o n (pre ++ (biomes ++ (heights ++ tail))) = sliceAt o n pre := sliceAt_append_left h
  have hids := hleft (o := 0) (n := chunkBlockCount) (by omega)
  have hnibbles := hleft (o := chunkBlockCount) (n := chunkNibbleBytes) (by omega)
  have hsky := hleft (o := chunkBlockCount + chunkNibbleBytes) (n := chunkNibbleBytes) (by omega)
  have hblock := hleft (o := chunkBlockCount + chunkNibbleBytes + chunkNibbleBytes)
    (n := chunkNibbleBytes) (by omega)
  have hbiomes : sliceAt (chunkBlockCount + chunkNibbleBytes + chunkNibbleBytes + chunkNibbleBytes)
      biomes.length (pre ++ (biomes ++ (heights ++ tail))) = biomes := by
    rw [← hpre, ← List.append_assoc, sliceAt_append_mid]
  have hmap : sliceAt (chunkBlockCount + chunkNibbleBytes + chunkNibbleBytes + chunkNibbleBytes +
      biomes.length) chunkColumnCount (pre ++ (biomes ++ (heights ++ tail))) = heights := by
    rw [← hpre, ← hheights, ← List.length_append, ← List.append_assoc, ← List.append_assoc,
      sliceAt_append_mid]
  have hrest : (pre ++ (biomes ++ (heights ++ tail))).drop (chunkBlockCount + chunkNibbleBytes +
      chunkNibbleBytes + chunkNibbleBytes + biomes.length + chunkColumnCount) = tail := by
    rw [← hpre, ← hheights, ← List.append_assoc, ← List.append_assoc]
    exact List.drop_left' (by simp only [List.length_append])
  have hlong : decide (semanticPrefixBytes + biomes.length + chunkColumnCount + 4 ≤
      (pre ++ (biomes ++ (heights ++ tail))).length) = true := by
    rw [hpref, ← hpre, ← hheights]
    simp only [List.length_append, decide_eq_true_eq]
    omega
  simp only [decodeSemanticPayload, hv, ok_bind, hlong, ensure_true, hids, hnibbles, hsky, hblock,
    hbiomes, hmap, hrest, decodeSections]

end

theorem exists_sections {n : Nat} {payload : Bytes}
    (h : semanticPrefixBytes + n + chunkColumnCount + 4 ≤ payload.length) :
    ∃ pre biomes heights tail, payload = pre ++ (biomes ++ (heights ++ tail)) ∧
      pre.length = semanticPrefixBytes ∧ biomes.length = n ∧
      heights.length = chunkColumnCount ∧ 4 ≤ tail.length := by
  refine ⟨payload.take semanticPrefixBytes, (payload.drop semanticPrefixBytes).take n,
    ((payload.drop semanticPrefixBytes).drop n).take chunkColumnCount,
    ((payload.drop semanticPrefixBytes).drop n).drop chunkColumnCount, ?_, ?_, ?_, ?_, ?_⟩
  · rw [List.take_append_drop, List.take_append_drop, List.take_append_drop]
  · exact List.length_take_of_le (by omega)
  · exact List.length_take_of_le (by rw [List.length_drop]; omega)
  · exact List.length_take_of_le (by rw [List.length_drop, List.length_drop]; omega)
  · rw [List.length_drop, List.length_drop, List.length_drop]
    omega

theorem decodeSemanticPayload_long {payload : Bytes} {version : UInt16} {n : Nat}
    (hv : biomeBytesOf version = .ok n) {r : ChunkData × List ExtensionSection}
    (h : decodeSemanticPayload payload version = .ok r) :
    semanticPrefixBytes + n + chunkColumnCount + 4 ≤ payload.length := by
  rw [decodeSemanticPayload, hv, ok_bind] at h
  obtain ⟨_, hlong, -⟩ := bind_ok_iff.mp h
  simpa using hlong

theorem insertChestCount_append {base head rest : Bytes} (hbase : base.length = migratedHeightEnd)
    (hhead : head.length = 4 + (readU32 (head ++ rest) 0).toNat * 4) :
    insertChestCount (base ++ (head ++ rest)) = base ++ (head ++ (toLE 4 0 ++ rest)) := by
  have hread : readU32 (base ++ (head ++ rest)) migratedHeightEnd = readU32 (head ++ rest) 0 := by
    rw [readU32, readU32, sliceAt_append_right (le_of_eq hbase), hbase, Nat.sub_self]
  have hend : migratedHeightEnd + 4 + (readU32 (head ++ rest) 0).toNat * 4 =
      (base ++ head).length := by
    rw [List.length_append, hbase, hhead, Nat.add_assoc]
  rw [insertChestCount, hread, hend, ← List.append_assoc base head rest, List.take_left,
    List.drop_left, List.append_assoc]

theorem readTail_migrated {head rest : Bytes} {extra : ExtraData} (h : Reads readExtra head extra) :
    readTail semanticPayloadVersion (head ++ (toLE 4 0 ++ rest)) = .ok ((extra, []), rest) := by
  have hread : Reads (readTail semanticPayloadVersion) (head ++ toLE 4 0) (extra, []) :=
    h.bind (reads_noChests.bind_pure (extra, ·))
  rw [← List.append_assoc]
  exact hread rest

theorem migrate_biome_words {payload : Bytes} {r : ChunkData × List ExtensionSection}
    (h : decodeSemanticPayload payload biomeWordSemanticPayloadVersion = .ok r) :
    decodeSemanticPayload (insertChestCount payload) semanticPayloadVersion = .ok r := by
  obtain ⟨pre, biomes, heights, tail, rfl, hpre, hbiomes, hheights, htail⟩ :=
    exists_sections (decodeSemanticPayload_long rfl h)
  rw [decodeSemanticPayload_sections (by rw [hbiomes]; rfl) hpre hheights htail] at h
  obtain ⟨words, hwords, hrest⟩ := bind_ok_iff.mp h
  obtain ⟨⟨⟨extra, chests⟩, rest⟩, htailRead, hextensions⟩ := bind_ok_iff.mp hrest
  rw [readTail_plain (by decide)] at htailRead
  obtain ⟨extra', rest', hextra, hpair⟩ := Reader.bind_ok htailRead
  obtain ⟨hpair, hsame⟩ := Reader.pure_ok hpair
  cases hpair
  subst hsame
  obtain ⟨head, rfl, hhead, hreads⟩ := readExtra_consumes hextra
  have hbase : (pre ++ (biomes ++ heights)).length = migratedHeightEnd := by
    simp only [List.length_append, hpre, hbiomes, hheights]
    rfl
  have hinserted := insertChestCount_append hbase hhead
  rw [List.append_assoc, List.append_assoc, List.append_assoc, List.append_assoc] at hinserted
  rw [hinserted, decodeSemanticPayload_sections (by rw [hbiomes]; rfl) hpre hheights
    (by simp only [List.length_append, hhead]; omega), decodeSections]
  have hsame : decodeBiomes semanticPayloadVersion biomes = .ok words := hwords
  rw [hsame, ok_bind, readTail_migrated hreads, ok_bind]
  exact hextensions

theorem withBiomeWords_append {pre ids rest : Bytes} (hpre : pre.length = semanticPrefixBytes)
    (hids : ids.length = legacyBiomeBytes) :
    withBiomeWords (pre ++ (ids ++ rest)) =
      pre ++ (ids.flatMap (fun id => toBigEndian ((defaultBiomeWord id).getD 0)) ++ rest) := by
  have hslice : sliceAt semanticPrefixBytes legacyBiomeBytes (pre ++ (ids ++ rest)) = ids := by
    rw [← hpre, ← hids, ← List.append_assoc, sliceAt_append_mid]
  have hdrop : (pre ++ (ids ++ rest)).drop (semanticPrefixBytes + legacyBiomeBytes) = rest := by
    rw [← hpre, ← hids, ← List.length_append, ← List.append_assoc, List.drop_left]
  rw [withBiomeWords, hslice, hdrop, List.take_left' hpre]

theorem decodeBiomes_legacy {ids : Bytes} {words : List UInt32}
    (h : decodeBiomes legacySemanticPayloadVersion ids = .ok words) :
    ids.flatMap (fun id => toBigEndian ((defaultBiomeWord id).getD 0)) = words.flatMap toBigEndian ∧
      words.length = ids.length := by
  rw [decodeBiomes, if_pos rfl] at h
  have hf := mapM_ok_iff.mp h
  clear h
  induction hf with
  | nil => exact ⟨rfl, rfl⟩
  | @cons id word ids words hword _ ih =>
    have hdefault : defaultBiomeWord id = some word := by
      split at hword
      · next w heq =>
        cases hword
        exact heq
      · cases hword
    rw [List.flatMap_cons, List.flatMap_cons, List.length_cons, List.length_cons, ih.1, ih.2,
      hdefault, Option.getD_some]
    exact ⟨rfl, rfl⟩

theorem migrate_biome_ids {payload : Bytes} {r : ChunkData × List ExtensionSection}
    (h : decodeSemanticPayload payload legacySemanticPayloadVersion = .ok r) :
    decodeSemanticPayload (withBiomeWords payload) biomeWordSemanticPayloadVersion = .ok r := by
  obtain ⟨pre, ids, heights, tail, rfl, hpre, hids, hheights, htail⟩ :=
    exists_sections (decodeSemanticPayload_long rfl h)
  rw [decodeSemanticPayload_sections (by rw [hids]; rfl) hpre hheights htail] at h
  obtain ⟨words, hwords, hrest⟩ := bind_ok_iff.mp h
  obtain ⟨hbytes, hlength⟩ := decodeBiomes_legacy hwords
  have hwidth : (words.flatMap toBigEndian).length = biomeWordBytes := by
    rw [length_biomes, hlength, hids]
  rw [withBiomeWords_append hpre hids, hbytes,
    decodeSemanticPayload_sections (by rw [hwidth]; rfl) hpre hheights htail, decodeSections]
  have hdecoded : decodeBiomes biomeWordSemanticPayloadVersion (words.flatMap toBigEndian) =
      .ok words := congrArg Except.ok (bigEndianWords_flatMap words)
  rw [hdecoded, ok_bind, readTail_plain (by decide)]
  rw [readTail_plain (by decide)] at hrest
  exact hrest

theorem decodeBiomes_unsupported {ids : Bytes} {id : UInt8} (hid : id ∈ ids)
    (h : defaultBiomeWord id = none) : decodeBiomes legacySemanticPayloadVersion ids =
      .error (.corruptChunkPayload "unsupported legacy biome id") := by
  rw [decodeBiomes, if_pos rfl]
  induction ids with
  | nil => cases hid
  | cons other ids ih =>
    rw [List.mapM_cons]
    rcases List.mem_cons.mp hid with rfl | hid
    · rw [h, error_bind]
    · cases hother : defaultBiomeWord other with
      | none => rfl
      | some word => rw [ok_bind, ih hid, error_bind]

theorem unsupported_biome_rejected {payload : Bytes} {id : UInt8}
    (hid : id ∈ sliceAt semanticPrefixBytes legacyBiomeBytes payload)
    (h : defaultBiomeWord id = none) :
    decodeSemanticPayload payload legacySemanticPayloadVersion =
      .error (.corruptChunkPayload
        (if semanticPrefixBytes + legacyBiomeBytes + chunkColumnCount + 4 ≤ payload.length then
          "unsupported legacy biome id" else "truncated base planes")) := by
  split
  · next hlong =>
    obtain ⟨pre, ids, heights, tail, rfl, hpre, hids, hheights, htail⟩ := exists_sections hlong
    rw [← hpre, ← hids, ← List.append_assoc, sliceAt_append_mid] at hid
    rw [decodeSemanticPayload_sections (by rw [hids]; rfl) hpre hheights htail, decodeSections,
      decodeBiomes_unsupported hid h, error_bind]
  · next hshort =>
    rw [decodeSemanticPayload]
    have hwidth : biomeBytesOf legacySemanticPayloadVersion = .ok legacyBiomeBytes := rfl
    rw [hwidth, ok_bind, ensure_false (decide_eq_false hshort), error_bind]

-- A payload of an older version means what its migrated form means.
theorem legacy_migration (payload : Bytes) :
    (∀ r, decodeSemanticPayload payload biomeWordSemanticPayloadVersion = .ok r →
      decodeSemanticPayload (insertChestCount payload) semanticPayloadVersion = .ok r) ∧
    (∀ r, decodeSemanticPayload payload legacySemanticPayloadVersion = .ok r →
      decodeSemanticPayload (withBiomeWords payload) biomeWordSemanticPayloadVersion = .ok r) ∧
    ∀ id ∈ sliceAt semanticPrefixBytes legacyBiomeBytes payload, defaultBiomeWord id = none →
      decodeSemanticPayload payload legacySemanticPayloadVersion =
        .error (.corruptChunkPayload
          (if semanticPrefixBytes + legacyBiomeBytes + chunkColumnCount + 4 ≤ payload.length then
            "unsupported legacy biome id" else "truncated base planes")) :=
  ⟨fun _ => migrate_biome_words, fun _ => migrate_biome_ids, fun _ => unsupported_biome_rejected⟩

def legacyPayload (id : UInt8) : Bytes :=
  List.replicate semanticPrefixBytes 0 ++ (List.replicate legacyBiomeBytes id ++
    (List.replicate chunkColumnCount 0 ++ toLE 4 0))

theorem legacyPayload_decodes : ∃ r,
    decodeSemanticPayload (legacyPayload 1) legacySemanticPayloadVersion = .ok r := by
  have hwords (n : Nat) : decodeBiomes legacySemanticPayloadVersion (List.replicate n 1) =
      .ok (List.replicate n 0x0192bc59) := by
    have hword : defaultBiomeWord 1 = some 0x0192bc59 := by decide
    rw [decodeBiomes, if_pos rfl, mapM_ok_iff, List.forall₂_iff_get]
    simp [hword]
  have hextra : readExtra (toLE 4 0) = .ok (∅, []) := by
    have hreads : Reads readExtra (toLE 4 (0 : UInt32).toNat ++ List.flatten []) ∅ :=
      reads_extra rfl rfl
    simpa using hreads []
  have hpure : (pure (∅, []) : PayloadReader (ExtraData × List ChestBlockEntity)) [] =
      .ok ((∅, []), []) := rfl
  have hnone : readExtensions [] = .ok [] := by simp [readExtensions]
  rw [legacyPayload, decodeSemanticPayload_sections (by rw [List.length_replicate]; rfl)
    List.length_replicate List.length_replicate (by simp), decodeSections, hwords, ok_bind,
    readTail_plain (by decide), Reader.bind_of_ok hextra, hpure]
  simp only [ok_bind, hnone]
  exact ⟨_, rfl⟩

theorem legacy_migration_plains :
    (∃ r, decodeSemanticPayload (withBiomeWords (legacyPayload 1)) biomeWordSemanticPayloadVersion =
        .ok r ∧
      decodeSemanticPayload (insertChestCount (withBiomeWords (legacyPayload 1)))
        semanticPayloadVersion = .ok r) ∧
    ∃ e, decodeSemanticPayload (legacyPayload 9) legacySemanticPayloadVersion = .error e := by
  obtain ⟨r, hr⟩ := legacyPayload_decodes
  have hwords := (legacy_migration (legacyPayload 1)).2.1 r hr
  refine ⟨⟨r, hwords, (legacy_migration (withBiomeWords (legacyPayload 1))).1 r hwords⟩, ?_⟩
  have hid : (9 : UInt8) ∈ sliceAt semanticPrefixBytes legacyBiomeBytes (legacyPayload 9) := by
    have hslice := sliceAt_append_mid (List.replicate semanticPrefixBytes (0 : UInt8))
      (List.replicate legacyBiomeBytes 9) (List.replicate chunkColumnCount 0 ++ toLE 4 0)
    rw [List.length_replicate, List.length_replicate, List.append_assoc] at hslice
    rw [legacyPayload, hslice]
    exact List.mem_replicate.mpr ⟨by decide, rfl⟩
  exact ⟨_, (legacy_migration (legacyPayload 9)).2.2 9 hid (by decide)⟩

end Cobblestone.Storage
