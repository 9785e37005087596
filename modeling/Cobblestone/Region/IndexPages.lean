import Cobblestone.Region.Compact

namespace Cobblestone.Region

open Lib World Storage

section Decoded

variable {crates : Crates} {coord : RegionCoord} {worldUuid : WorldUuid} {index : RegionIndex}
  {r : RegionFile}

theorem decodeEntry_valid {page : Bytes} {slot : Fin indexEntryCount} {entry : IndexEntry}
    (h : decodeEntry page slot = some (some entry)) :
    entryIsValid entry.recordOffset entry.recordLen = true := by
  simp only [decodeEntry] at h
  split at h
  · cases h
  · split at h
    · next hv =>
      cases h
      exact hv
    · cases h

theorem decodeIndexPage_valid {page : Bytes} (h : decodeIndexPage crates page coord = some index) :
    index.Valid := by
  unfold decodeIndexPage at h
  split at h
  · next hpage =>
    cases h
    intro slot entry he
    obtain ⟨decoded, hd⟩ := Option.isSome_iff_exists.mp (hpage.2 slot)
    simp only [hd, Option.getD_some] at he
    rw [he] at hd
    exact decodeEntry_valid hd
  · cases h

theorem selectIndex_mem {a b : Option RegionIndex} {selected : Fin 2 × RegionIndex}
    (h : selectIndex a b = .ok selected) : a = some selected.2 ∨ b = some selected.2 := by
  cases a with
  | none =>
    cases b with
    | none => cases h
    | some b =>
      cases h
      exact .inr rfl
  | some a =>
    cases b with
    | none =>
      cases h
      exact .inl rfl
    | some b =>
      simp only [selectIndex] at h
      split at h
      · cases h
        exact .inr rfl
      · cases h
        exact .inl rfl

theorem fromOpenFile_valid {file : Bytes} (h : fromOpenFile crates file worldUuid coord = .ok r) :
    r.index.Valid := by
  simp only [fromOpenFile, bind_ok_iff] at h
  obtain ⟨header, -, -, -, pageA, -, pageB, -, selected, hs, hr⟩ := h
  cases hr
  rcases selectIndex_mem hs with ha | hb
  · exact decodeIndexPage_valid ha
  · exact decodeIndexPage_valid hb

theorem openOrCreate_valid {file : Bytes} (h : openOrCreate crates file worldUuid coord = .ok r) :
    r.index.Valid := by
  unfold openOrCreate at h
  split at h
  · exact fromOpenFile_valid h
  · split at h
    · cases h
    · exact fromOpenFile_valid h

theorem openExisting_valid {path : Option Bytes}
    (h : openExisting crates path worldUuid coord = .ok (some r)) : r.index.Valid := by
  cases path with
  | none => cases h
  | some file =>
    simp only [openExisting] at h
    split at h
    · cases h
    · cases ho : fromOpenFile crates file worldUuid coord with
      | error e =>
        rw [ho] at h
        cases h
      | ok opened =>
        rw [ho] at h
        cases h
        exact fromOpenFile_valid ho

end Decoded

-- The index values a commit or a compaction hands to the page encoder, whether or not the
-- write that follows succeeds.
inductive Builds (crates : Crates) (r : RegionFile) : RegionIndex → Prop where
  | saved {fault : SaveFault} {snapshots : List ChunkSnapshot} {policy : CompressionPolicy}
      {encoded : List EncodedRecord} {file : Bytes} {entries : Entries} {generation : UInt64}
      (nonempty : snapshots ≠ [])
      (batch : encodeBatch crates r.coord policy (fun _ => false) snapshots = .ok encoded)
      (long : recordAreaOffset ≤ r.file.length)
      (written : appendRecords crates fault 0 encoded r.file r.index.entries = (.ok entries, file))
      (next : checkedSucc r.index.generation = some generation) :
      Builds crates r ⟨generation, entries⟩
  | fallback {fault : Option CompactPoint} {built : Bytes × Entries}
      (rewritten : rewriteRecords crates r fault (List.finRange indexEntryCount)
        (initialBytes crates r.worldUuid r.coord) (fun _ => none) = .ok built) :
      Builds crates r ⟨r.index.generation, built.2⟩
  | compacted {fault : Option CompactPoint} {built : Bytes × Entries} {generation : UInt64}
      (rewritten : rewriteRecords crates r fault (List.finRange indexEntryCount)
        (initialBytes crates r.worldUuid r.coord) (fun _ => none) = .ok built)
      (next : checkedSucc r.index.generation = some generation) :
      Builds crates r ⟨generation, built.2⟩

-- Every handle a process can hold: opened from whatever bytes the path had, then saved
-- through and compacted with any outcome of each call.
inductive Held (crates : Crates) : RegionFile → Prop where
  | created {file : Bytes} {worldUuid : WorldUuid} {coord : RegionCoord} {r : RegionFile}
      (opened : openOrCreate crates file worldUuid coord = .ok r) : Held crates r
  | existing {path : Option Bytes} {worldUuid : WorldUuid} {coord : RegionCoord} {r : RegionFile}
      (opened : openExisting crates path worldUuid coord = .ok (some r)) : Held crates r
  | saved {r : RegionFile} (held : Held crates r) (fault : SaveFault)
      (snapshots : List ChunkSnapshot) (policy : CompressionPolicy) :
      Held crates (saveChunks crates fault r snapshots policy).2
  | compacted {r : RegionFile} (held : Held crates r) (fault : Option CompactPoint) :
      Held crates (compact crates fault r).handle

section Built

variable {crates : Crates} {r : RegionFile} {index : RegionIndex} {generation : UInt64}

theorem entryIsValid_iff {offset : UInt64} {len : UInt32} :
    entryIsValid offset len = true ↔
      recordAreaOffset ≤ offset.toNat ∧ len ≠ 0 ∧ len.toNat ≤ maxChunkRecordBytes := by
  simp [entryIsValid, and_assoc]

theorem RegionIndex.Valid.update (hv : index.Valid) {slot : Fin indexEntryCount}
    {entry : IndexEntry} (he : entryIsValid entry.recordOffset entry.recordLen = true)
    (generation : UInt64) :
    RegionIndex.Valid ⟨generation, Function.update index.entries slot (some entry)⟩ := by
  intro other found hf
  by_cases ho : other = slot
  · subst ho
    simp only [Function.update_self] at hf
    cases hf
    exact he
  · simp only [Function.update_of_ne ho] at hf
    exact hv other found hf

theorem EncodedAs.entry_valid {coord : RegionCoord} {policy : CompressionPolicy}
    {snapshot : ChunkSnapshot} {e : EncodedRecord} (he : EncodedAs crates coord policy snapshot e)
    {offset : Nat} (hlow : recordAreaOffset ≤ offset) (hhigh : offset ≤ maxFileBytes) :
    entryIsValid (e.entryAt crates offset).recordOffset (e.entryAt crates offset).recordLen =
      true := by
  have hlen := length_encodedRecord crates he.encoded
  have hrecord := entryAt_len he offset
  have hstart : (e.entryAt crates offset).recordOffset.toNat = offset := entryAt_start hhigh
  refine entryIsValid_iff.mpr ⟨le_of_le_of_eq hlow hstart.symm, ?_, hrecord ▸ hlen.2⟩
  intro hzero
  rw [hzero] at hrecord
  have hheader : 0 < recordHeaderBytes := by decide
  have : (0 : UInt32).toNat = 0 := rfl
  omega

theorem writeAllAtEnd_ok {stop : Option Nat} {bytes file file' : Bytes}
    (h : writeAllAtEnd stop bytes file = (.ok (), file')) :
    file' = file ++ bytes ∧ file.length + bytes.length ≤ maxFileBytes := by
  cases stop with
  | some k => cases h
  | none =>
    simp only [writeAllAtEnd] at h
    split at h
    · next hfit =>
      cases h
      exact ⟨rfl, hfit⟩
    · cases h

theorem appendRecords_valid {coord : RegionCoord} {policy : CompressionPolicy}
    {snapshots : List ChunkSnapshot} {encoded : List EncodedRecord}
    (hall : List.Forall₂ (EncodedAs crates coord policy) snapshots encoded)
    {fault : SaveFault} {i : Nat} {file file' : Bytes} {entries next : Entries}
    (hlow : recordAreaOffset ≤ file.length) (hv : RegionIndex.Valid ⟨generation, entries⟩)
    (ha : appendRecords crates fault i encoded file entries = (.ok next, file')) :
    RegionIndex.Valid ⟨generation, next⟩ := by
  induction hall generalizing i file entries with
  | nil =>
    cases ha
    exact hv
  | @cons snapshot e snapshots encoded he _ ih =>
    rw [appendRecords] at ha
    cases hw : writeAllAtEnd (fault.stopsRecord i) e.record file with
    | mk result written =>
      rw [hw] at ha
      cases result with
      | error error => cases ha
      | ok u =>
        obtain ⟨rfl, hfit⟩ := writeAllAtEnd_ok hw
        have hentry := he.entry_valid hlow (le_trans (Nat.le_add_right _ _) hfit)
        refine ih ?_ (hv.update hentry generation) ha
        rw [List.length_append]
        omega

theorem readIndexedRecord_length {file : Bytes} {coord : RegionCoord} {slot : Fin indexEntryCount}
    {entry : IndexEntry} {read : Bytes × StoredChunk}
    (h : readIndexedRecord crates file coord slot entry = .ok read) :
    read.1.length = entry.recordLen.toNat ∧ entry.recordLen.toNat ≤ maxChunkRecordBytes := by
  simp only [readIndexedRecord, bind_ok_iff, ensure_ok_iff] at h
  obtain ⟨-, hmax, -, -, -, -, -, hinside, -, -, decoded, -, slot', -, -, -, -, -, hr⟩ := h
  cases hr
  exact ⟨length_sliceAt (of_decide_eq_true hinside), of_decide_eq_true hmax⟩

-- Each copied record keeps its length, so the room left for the remaining slots shrinks by at
-- most one largest record a step and every offset stays inside a u64.
theorem rewriteRecords_valid (hv : r.index.Valid) {fault : Option CompactPoint}
    {slots : List (Fin indexEntryCount)} {temp : Bytes} {entries : Entries} {built : Bytes × Entries}
    (hlow : recordAreaOffset ≤ temp.length)
    (hroom : temp.length + slots.length * maxChunkRecordBytes < UInt64.size)
    (he : RegionIndex.Valid ⟨generation, entries⟩)
    (h : rewriteRecords crates r fault slots temp entries = .ok built) :
    RegionIndex.Valid ⟨generation, built.2⟩ := by
  induction slots generalizing temp entries with
  | nil =>
    cases h
    exact he
  | cons slot slots ih =>
    rw [List.length_cons, Nat.succ_mul] at hroom
    rw [rewriteRecords] at h
    cases hs : r.index.entries slot with
    | none =>
      rw [hs] at h
      exact ih hlow ((Nat.add_le_add_left (Nat.le_add_right _ _) _).trans_lt hroom) he h
    | some entry =>
      rw [hs] at h
      simp only [bind_ok_iff] at h
      obtain ⟨read, hread, -, -, hrest⟩ := h
      obtain ⟨hlength, hmax⟩ := readIndexedRecord_length hread
      obtain ⟨-, hne, -⟩ := entryIsValid_iff.mp (hv slot entry hs)
      have hoffset : (UInt64.ofNat temp.length).toNat = temp.length :=
        UInt64.toNat_ofNat_of_lt ((Nat.le_add_right _ _).trans_lt hroom)
      have hgrown : (temp ++ read.1).length ≤ temp.length + maxChunkRecordBytes := by
        rw [List.length_append, hlength]
        exact Nat.add_le_add_left hmax _
      refine ih ?_ ?_ (he.update ?_ generation) hrest
      · rw [List.length_append]
        exact le_trans hlow (Nat.le_add_right _ _)
      · rw [Nat.add_comm (slots.length * _), ← Nat.add_assoc] at hroom
        exact (Nat.add_le_add_right hgrown _).trans_lt hroom
      · exact entryIsValid_iff.mpr ⟨le_of_le_of_eq hlow hoffset.symm, hne, hmax⟩

theorem rewritten_valid (hv : r.index.Valid) {fault : Option CompactPoint}
    {built : Bytes × Entries}
    (h : rewriteRecords crates r fault (List.finRange indexEntryCount)
      (initialBytes crates r.worldUuid r.coord) (fun _ => none) = .ok built) :
    RegionIndex.Valid ⟨generation, built.2⟩ := by
  refine rewriteRecords_valid hv (le_of_eq (length_initialBytes crates _ _).symm) ?_
    (emptyIndex_valid generation) h
  rw [length_initialBytes, List.length_finRange]
  decide

theorem Builds.valid (h : Builds crates r index) (hv : r.index.Valid) : index.Valid := by
  cases h with
  | saved nonempty batch long written next =>
    exact appendRecords_valid (encodeBatch_ok crates batch) long hv written
  | fallback rewritten => exact rewritten_valid hv rewritten
  | compacted rewritten next => exact rewritten_valid hv rewritten

theorem saveChunks_index (fault : SaveFault) (snapshots : List ChunkSnapshot)
    (policy : CompressionPolicy) :
    (saveChunks crates fault r snapshots policy).2.index = r.index ∨
      Builds crates r (saveChunks crates fault r snapshots policy).2.index := by
  unfold saveChunks
  split
  · exact .inl rfl
  · next hs =>
    cases hb : encodeBatch crates r.coord policy (fun _ => false) snapshots with
    | error e => exact .inl rfl
    | ok encoded =>
      dsimp only
      split
      · exact .inl rfl
      · split
        · exact .inl rfl
        · next hlong =>
          cases ha : appendRecords crates fault 0 encoded r.file r.index.entries with
          | mk result file =>
            cases result with
            | error e => exact .inl rfl
            | ok entries =>
              dsimp only
              split
              · exact .inl rfl
              · cases hg : checkedSucc r.index.generation with
                | none => exact .inl rfl
                | some generation =>
                  have hbuilt : Builds crates r ⟨generation, entries⟩ :=
                    .saved hs hb (Nat.le_of_not_lt hlong) ha hg
                  cases fault with
                  | seekPage => exact .inl rfl
                  | page k => exact .inl rfl
                  | syncPage => exact .inl rfl
                  | _ => exact .inr hbuilt

theorem buildReplacement_index {fault : Option CompactPoint} {next : UInt64}
    {replacement : RegionFile} (hg : checkedSucc r.index.generation = some next)
    (h : buildReplacement crates r fault next = .ok replacement) :
    Builds crates r replacement.index := by
  simp only [buildReplacement, bind_ok_iff] at h
  obtain ⟨-, -, -, -, built, hbuilt, -, -, -, -, -, -, hr⟩ := h
  cases hr
  exact .compacted hbuilt hg

theorem compact_index (fault : Option CompactPoint) :
    (compact crates fault r).handle.index = r.index ∨
      Builds crates r (compact crates fault r).handle.index := by
  unfold compact
  cases statsAt .statsBefore fault r with
  | error e => exact .inl rfl
  | ok before =>
    dsimp only
    split
    · exact .inl rfl
    · cases hg : checkedSucc r.index.generation with
      | none => exact .inl rfl
      | some next =>
        dsimp only
        cases hb : buildReplacement crates r fault next with
        | error e => exact .inl rfl
        | ok replacement =>
          have hbuilt := buildReplacement_index hg hb
          dsimp only
          cases statsAt .statsAfter fault replacement with
          | error e => exact .inl rfl
          | ok after =>
            dsimp only
            split
            · exact .inl rfl
            · split
              · exact .inl rfl
              · split
                · exact .inr hbuilt
                · exact .inr hbuilt

theorem Held.valid (h : Held crates r) : r.index.Valid := by
  induction h with
  | created opened => exact openOrCreate_valid opened
  | existing opened => exact openExisting_valid opened
  | saved held fault snapshots policy ih =>
    rcases @saveChunks_index crates _ fault snapshots policy with hsame | hbuilt
    · rw [hsame]
      exact ih
    · exact hbuilt.valid ih
  | compacted held fault ih =>
    rcases @compact_index crates _ fault with hsame | hbuilt
    · rw [hsame]
      exact ih
    · exact hbuilt.valid ih

end Built

theorem indexPage_codec (crates : Crates) :
    (∀ (index : RegionIndex) (coord : RegionCoord), index.Valid →
      decodeIndexPage crates (encodeIndexPage crates index coord) coord = some index) ∧
    (∀ (snapshot : ChunkSnapshot) (policy : CompressionPolicy)
      (extensions : List ExtensionSection) (record : Bytes),
      encodeChunkRecordWithPolicy crates snapshot policy extensions = .ok record →
        record.length ≤ maxChunkRecordBytes) ∧
    ∀ r, Held crates r → ∀ index, Builds crates r index →
      index.Valid ∧
        decodeIndexPage crates (encodeIndexPage crates index r.coord) r.coord = some index := by
  refine ⟨fun index coord hv => decode_encodeIndexPage crates coord hv, ?_, ?_⟩
  · intro snapshot policy extensions record hrecord
    exact (length_encodedRecord crates hrecord).2
  · intro r hr index hb
    have hv := hb.valid hr.valid
    exact ⟨hv, decode_encodeIndexPage crates r.coord hv⟩

end Cobblestone.Region
