import Cobblestone.Region.Invariant

namespace Cobblestone.Region

open Lib World Storage

variable {crates : Crates} {file : Bytes} {coord : RegionCoord} {entries : Entries} {m : SlotMap}
  {slot : Fin indexEntryCount} {e : IndexEntry} {snapshot : ChunkSnapshot}

def ChestsFit (snapshot : ChunkSnapshot) : Prop :=
  snapshot.data.chestBlockEntities.length ≤ chunkBlockCount

-- Every check before the decoder passes on a record the region itself stored.
theorem Stored.read_eq (h : Stored crates file coord slot e snapshot)
    (hl : file.length ≤ maxFileBytes) :
    readIndexedRecord crates file coord slot e =
      (decodeChunkRecord crates (recordAt file e) >>= fun decoded =>
        coord.localIndex decoded.position >>= fun decodedSlot =>
          ensure (decodedSlot = slot) .indexRecordCoordinateMismatch >>= fun _ =>
            ensure (decide (decoded.imported.terrainRevision = e.terrainRevision) &&
              decide (decoded.imported.lightRevision = e.lightRevision))
              .indexRecordRevisionMismatch >>= fun _ => .ok (recordAt file e, decoded)) := by
  have hstop : e.recordOffset.toNat + e.recordLen.toNat ≤ file.length := h.inside
  have hstart : recordAreaOffset ≤ e.recordOffset.toNat := h.after
  have hsize : e.recordOffset.toNat + e.recordLen.toNat < UInt64.size :=
    lt_of_le_of_lt (le_trans hstop hl) (by decide)
  have hcrc : crates.crc32c (sliceAt e.recordOffset.toNat e.recordLen.toNat file) =
      e.recordCrc32c := h.crc
  simp only [readIndexedRecord, h.length.2, hstop, hstart, hsize, hcrc, decide_true, ensure_true,
    ok_bind]
  rfl

theorem Stored.read (h : Stored crates file coord slot e snapshot) (hl : file.length ≤ maxFileBytes)
    (hc : ChestsFit snapshot) :
    ∃ decoded, readIndexedRecord crates file coord slot e = .ok (recordAt file e, decoded) ∧
      decoded.Carries snapshot [] := by
  obtain ⟨policy, he⟩ := h.encoded
  obtain ⟨decoded, hd, hcarries⟩ := decodeChunkRecord_carries crates he h.flags hc
  refine ⟨decoded, ?_, hcarries⟩
  obtain ⟨hp, hi, -⟩ := hcarries
  rw [h.read_eq hl, hd, ok_bind, hp, h.placed, ok_bind, hi]
  simp only [ChunkSnapshot.toImport, h.terrain, h.light, decide_true, Bool.and_self, ensure_true,
    ok_bind]

theorem Stored.read_overflow (h : Stored crates file coord slot e snapshot)
    (hl : file.length ≤ maxFileBytes) (hc : ¬ ChestsFit snapshot) :
    readIndexedRecord crates file coord slot e =
      .error (.corruptChunkPayload "chest block-entity count exceeds block count") := by
  obtain ⟨policy, he⟩ := h.encoded
  rw [h.read_eq hl, decodeChunkRecord_overflow crates he h.flags (Nat.lt_of_not_le hc), error_bind]

theorem Stored.chests_of_read (h : Stored crates file coord slot e snapshot)
    (hl : file.length ≤ maxFileBytes) {result : Bytes × StoredChunk}
    (hr : readIndexedRecord crates file coord slot e = .ok result) : ChestsFit snapshot := by
  by_contra hc
  rw [h.read_overflow hl hc] at hr
  cases hr

theorem writeAllAtEnd_spec {stop : Option Nat} {bytes file' : Bytes} {result : Except StorageError Unit}
    (hl : file.length ≤ maxFileBytes) (h : writeAllAtEnd stop bytes file = (result, file')) :
    (∃ tail, file' = file ++ tail) ∧ file'.length ≤ maxFileBytes ∧
      (result = .ok () → file' = file ++ bytes ∧ stop = none) := by
  unfold writeAllAtEnd at h
  cases stop with
  | some k =>
    obtain ⟨rfl, rfl⟩ := Prod.mk.inj h
    refine ⟨⟨_, rfl⟩, ?_, fun hr => by cases hr⟩
    rw [List.length_append, List.length_take]
    omega
  | none =>
    dsimp only at h
    split at h
    · next hfit =>
      obtain ⟨rfl, rfl⟩ := Prod.mk.inj h
      exact ⟨⟨_, rfl⟩, by rwa [List.length_append], fun _ => ⟨rfl, rfl⟩⟩
    · obtain ⟨rfl, rfl⟩ := Prod.mk.inj h
      refine ⟨⟨_, rfl⟩, ?_, fun hr => by cases hr⟩
      rw [List.length_append, List.length_take]
      omega

section

variable {policy : CompressionPolicy} {snapshots : List ChunkSnapshot}
  {encoded : List EncodedRecord}

theorem appendRecords_spec
    (hall : List.Forall₂ (EncodedAs crates coord policy) snapshots encoded)
    (hflags : ∀ s ∈ snapshots, s.lifecycleFlags &&& ~~~chunkLifecycleMask = 0)
    (h : Indexes crates file coord entries m) (hlow : recordAreaOffset ≤ file.length)
    (hl : file.length ≤ maxFileBytes) {fault : SaveFault} {i : Nat} {file' : Bytes}
    {result : Except StorageError Entries}
    (ha : appendRecords crates fault i encoded file entries = (result, file')) :
    (∃ tail, file' = file ++ tail) ∧ file'.length ≤ maxFileBytes ∧
      ∀ next, result = .ok next →
        Indexes crates file' coord next (putSnapshots m snapshots) ∧
          (snapshots ≠ [] → file.length < file'.length) ∧
          appendRecords crates .none i encoded file entries = (.ok next, file') := by
  induction hall generalizing i file entries m with
  | nil =>
    obtain ⟨rfl, rfl⟩ := Prod.mk.inj ha
    refine ⟨⟨[], by simp⟩, hl, ?_⟩
    intro next hn
    cases hn
    exact ⟨h, fun hne => absurd rfl hne, rfl⟩
  | @cons s r snapshots encoded he _ ih =>
    rw [appendRecords] at ha
    cases hw : writeAllAtEnd (fault.stopsRecord i) r.record file with
    | mk written file₁ =>
      obtain ⟨⟨tail₁, rfl⟩, hl₁, hok⟩ := writeAllAtEnd_spec hl hw
      rw [hw] at ha
      cases written with
      | error error =>
        obtain ⟨rfl, rfl⟩ := Prod.mk.inj ha
        exact ⟨⟨tail₁, rfl⟩, hl₁, fun next hn => by cases hn⟩
      | ok u =>
        obtain ⟨hfile, hstop⟩ := hok rfl
        rw [hfile] at ha hl₁
        have hstep := h.appended he (hflags s List.mem_cons_self) hlow hl
        have hlong := (length_encodedRecord crates he.encoded).1
        obtain ⟨⟨tail, rfl⟩, hl', hnext⟩ := ih (fun x hx => hflags x (List.mem_cons_of_mem _ hx))
          hstep (by rw [List.length_append]; omega) hl₁ ha
        refine ⟨⟨r.record ++ tail, by rw [List.append_assoc]⟩, hl', ?_⟩
        intro next hn
        obtain ⟨hi, -, hsame⟩ := hnext next hn
        refine ⟨hi, fun _ => ?_, ?_⟩
        · simp only [List.length_append, recordHeaderBytes] at hlong ⊢
          omega
        · have hnone : writeAllAtEnd (SaveFault.none.stopsRecord i) r.record file =
              (.ok (), file ++ r.record) := by
            rw [← hfile, ← hw, hstop]
            rfl
          rw [appendRecords, hnone]
          exact hsame

end

theorem liveBytes_le {entries : Entries} (h : Indexes crates file coord entries m) {hi : Nat}
    (hhi : ∀ slot e, entries slot = some e → e.stop ≤ hi) :
    ∑ slot, entryLen (entries slot) ≤ hi - recordAreaOffset := by
  have hcases (slot : Fin indexEntryCount) (hpos : 0 < entryLen (entries slot)) :
      ∃ e, entries slot = some e := by
    cases he : entries slot with
    | none =>
      rw [he] at hpos
      cases hpos
    | some e => exact ⟨e, rfl⟩
  apply sum_length_le fun slot => ((entries slot).map IndexEntry.start).getD 0
  · intro slot hpos
    obtain ⟨e, he⟩ := hcases slot hpos
    obtain ⟨s, -, hs⟩ := h.stored slot e he
    simp only [he, Option.map_some, Option.getD_some, entryLen]
    exact ⟨hs.after, hhi slot e he⟩
  · intro a b hab ha hb
    obtain ⟨ea, hea⟩ := hcases a ha
    obtain ⟨eb, heb⟩ := hcases b hb
    simp only [hea, heb, Option.map_some, Option.getD_some, entryLen]
    exact h.apart a b ea eb hab hea heb

end Cobblestone.Region
