import Cobblestone.Lib.Intervals
import Cobblestone.Region.File

namespace Cobblestone.Region

open Lib World Storage

variable (crates : Crates)

abbrev SlotMap := Fin indexEntryCount → Option ChunkSnapshot

namespace IndexEntry

def start (e : IndexEntry) : Nat := e.recordOffset.toNat

def stop (e : IndexEntry) : Nat := e.start + e.recordLen.toNat

end IndexEntry

def recordAt (file : Bytes) (e : IndexEntry) : Bytes := sliceAt e.start e.recordLen.toNat file

structure Stored (file : Bytes) (coord : RegionCoord) (slot : Fin indexEntryCount) (e : IndexEntry)
    (snapshot : ChunkSnapshot) : Prop where
  encoded : ∃ policy, encodeChunkRecordWithPolicy crates snapshot policy [] = .ok (recordAt file e)
  crc : crates.crc32c (recordAt file e) = e.recordCrc32c
  terrain : e.terrainRevision = snapshot.terrainRevision
  light : e.lightRevision = snapshot.lightRevision
  placed : coord.localIndex snapshot.position = .ok slot
  flags : snapshot.lifecycleFlags &&& ~~~chunkLifecycleMask = 0
  after : recordAreaOffset ≤ e.start
  inside : e.stop ≤ file.length

def EntriesApart (entries : Entries) : Prop :=
  ∀ a b ea eb, a ≠ b → entries a = some ea → entries b = some eb →
    ea.stop ≤ eb.start ∨ eb.stop ≤ ea.start

structure Indexes (file : Bytes) (coord : RegionCoord) (entries : Entries) (m : SlotMap) : Prop where
  stored : ∀ slot e, entries slot = some e →
    ∃ snapshot, m slot = some snapshot ∧ Stored crates file coord slot e snapshot
  empty : ∀ slot, entries slot = none → m slot = none
  apart : EntriesApart entries

structure Extends (file grown : Bytes) : Prop where
  length : file.length ≤ grown.length
  records : ∀ {o n}, recordAreaOffset ≤ o → o + n ≤ file.length → sliceAt o n grown = sliceAt o n file

namespace Extends

theorem refl (file : Bytes) : Extends file file := ⟨le_refl _, fun _ _ => rfl⟩

theorem trans {a b c : Bytes} (hab : Extends a b) (hbc : Extends b c) : Extends a c :=
  ⟨le_trans hab.length hbc.length, fun ho hn =>
    (hbc.records ho (le_trans hn hab.length)).trans (hab.records ho hn)⟩

theorem append (file tail : Bytes) : Extends file (file ++ tail) :=
  ⟨by simp, fun _ hn => sliceAt_append_left hn⟩

theorem putAt {off : Nat} {v file : Bytes} (hv : off + v.length ≤ recordAreaOffset)
    (hl : recordAreaOffset ≤ file.length) : Extends file (Lib.putAt off v file) := by
  refine ⟨le_of_eq (length_putAt (le_trans hv hl)).symm, fun ho _ => ?_⟩
  exact sliceAt_putAt_disjoint (by omega) (.inr (le_trans hv ho))

end Extends

section

variable {crates} {file grown : Bytes} {coord : RegionCoord} {entries : Entries} {m : SlotMap}

theorem Stored.length {slot : Fin indexEntryCount} {e : IndexEntry} {snapshot : ChunkSnapshot}
    (h : Stored crates file coord slot e snapshot) :
    recordHeaderBytes ≤ e.recordLen.toNat ∧ e.recordLen.toNat ≤ maxChunkRecordBytes := by
  obtain ⟨policy, he⟩ := h.encoded
  have hl := length_encodedRecord crates he
  rwa [recordAt, length_sliceAt h.inside] at hl

theorem Stored.extends {slot : Fin indexEntryCount} {e : IndexEntry} {snapshot : ChunkSnapshot}
    (h : Stored crates file coord slot e snapshot) (hx : Extends file grown) :
    Stored crates grown coord slot e snapshot := by
  have hr : recordAt grown e = recordAt file e := hx.records h.after h.inside
  exact { h with
    encoded := hr ▸ h.encoded
    crc := hr ▸ h.crc
    inside := le_trans h.inside hx.length }

theorem Indexes.extends (h : Indexes crates file coord entries m) (hx : Extends file grown) :
    Indexes crates grown coord entries m where
  stored slot e he := by
    obtain ⟨snapshot, hm, hs⟩ := h.stored slot e he
    exact ⟨snapshot, hm, hs.extends hx⟩
  empty := h.empty
  apart := h.apart

theorem Indexes.valid (h : Indexes crates file coord entries m) (generation : UInt64) :
    (RegionIndex.mk generation entries).Valid := by
  intro slot e he
  obtain ⟨snapshot, -, hs⟩ := h.stored slot e he
  have hl := hs.length
  have hne : e.recordLen ≠ 0 := by
    rintro hz
    rw [hz] at hl
    exact absurd hl.1 (by decide)
  have ha : recordAreaOffset ≤ e.recordOffset.toNat := hs.after
  simp [entryIsValid, ha, hne, hl.2]

theorem indexes_empty (file : Bytes) (coord : RegionCoord) :
    Indexes crates file coord (fun _ => none) (fun _ => none) where
  stored _ _ h := by cases h
  empty _ _ := rfl
  apart _ _ _ _ _ h := by cases h

theorem Indexes.mem_iff (h : Indexes crates file coord entries m) (slot : Fin indexEntryCount) :
    entries slot = none ↔ m slot = none := by
  refine ⟨h.empty slot, fun hm => ?_⟩
  cases he : entries slot with
  | none => rfl
  | some e =>
    obtain ⟨snapshot, hs, -⟩ := h.stored slot e he
    rw [hm] at hs
    cases hs

end

structure EncodedAs (coord : RegionCoord) (policy : CompressionPolicy) (snapshot : ChunkSnapshot)
    (e : EncodedRecord) : Prop where
  placed : coord.localIndex snapshot.position = .ok e.slot
  encoded : encodeChunkRecordWithPolicy crates snapshot policy [] = .ok e.record
  terrain : e.terrainRevision = snapshot.terrainRevision
  light : e.lightRevision = snapshot.lightRevision

theorem encodeBatch_ok {coord : RegionCoord} {policy : CompressionPolicy}
    {seen : Fin indexEntryCount → Bool} {snapshots : List ChunkSnapshot}
    {encoded : List EncodedRecord}
    (h : encodeBatch crates coord policy seen snapshots = .ok encoded) :
    List.Forall₂ (EncodedAs crates coord policy) snapshots encoded := by
  induction snapshots generalizing seen encoded with
  | nil =>
    cases h
    exact .nil
  | cons snapshot snapshots ih =>
    simp only [encodeBatch, bind_ok_iff] at h
    obtain ⟨slot, hslot, -, -, record, hrecord, rest, hrest, h⟩ := h
    cases h
    exact .cons ⟨hslot, hrecord, rfl, rfl⟩ (ih hrest)

def putSnapshot (m : SlotMap) (snapshot : ChunkSnapshot) : SlotMap :=
  Function.update m (RegionCoord.slotOf snapshot.position) (some snapshot)

def putSnapshots (m : SlotMap) (snapshots : List ChunkSnapshot) : SlotMap :=
  snapshots.foldl putSnapshot m

theorem localIndex_ok {coord : RegionCoord} {position : ChunkCoord} {slot : Fin indexEntryCount}
    (h : coord.localIndex position = .ok slot) :
    RegionCoord.forChunk position = coord ∧ slot = RegionCoord.slotOf position := by
  unfold RegionCoord.localIndex at h
  split at h
  · cases h
  · next hc => exact ⟨not_not.mp hc, (Except.ok.inj h).symm⟩

section

variable {crates} {file : Bytes} {coord : RegionCoord} {entries : Entries} {m : SlotMap}
  {snapshot : ChunkSnapshot} {policy : CompressionPolicy} {e : EncodedRecord}

theorem entryAt_start {e : EncodedRecord} {n : Nat} (hn : n ≤ maxFileBytes) :
    (e.entryAt crates n).start = n :=
  UInt64.toNat_ofNat_of_lt (lt_of_le_of_lt hn (by decide))

theorem entryAt_len (he : EncodedAs crates coord policy snapshot e) (n : Nat) :
    (e.entryAt crates n).recordLen.toNat = e.record.length :=
  UInt32.toNat_ofNat_of_lt
    (lt_of_le_of_lt (length_encodedRecord crates he.encoded).2 (by decide))

theorem recordAt_appended (he : EncodedAs crates coord policy snapshot e)
    (hl : file.length ≤ maxFileBytes) :
    recordAt (file ++ e.record) (e.entryAt crates file.length) = e.record := by
  rw [recordAt, entryAt_start hl, entryAt_len he, sliceAt_append_right (le_refl _), Nat.sub_self,
    sliceAt_zero_length]

theorem Stored.appended (he : EncodedAs crates coord policy snapshot e)
    (hf : snapshot.lifecycleFlags &&& ~~~chunkLifecycleMask = 0)
    (hlow : recordAreaOffset ≤ file.length) (hl : file.length ≤ maxFileBytes) :
    Stored crates (file ++ e.record) coord e.slot (e.entryAt crates file.length) snapshot where
  encoded := ⟨policy, by rw [recordAt_appended he hl]; exact he.encoded⟩
  crc := by rw [recordAt_appended he hl]; rfl
  terrain := he.terrain
  light := he.light
  placed := he.placed
  flags := hf
  after := by rwa [entryAt_start hl]
  inside := by
    have hstart := @entryAt_start crates e _ hl
    rw [IndexEntry.stop, hstart, entryAt_len he, List.length_append]

theorem Indexes.place (h : Indexes crates file coord entries m) {record : Bytes}
    {slot : Fin indexEntryCount} {x : IndexEntry}
    (hx : Stored crates (file ++ record) coord slot x snapshot) (hstart : file.length ≤ x.start) :
    Indexes crates (file ++ record) coord (Function.update entries slot (some x))
      (Function.update m slot (some snapshot)) := by
  have hbelow (other : Fin indexEntryCount) (y : IndexEntry) (hy : entries other = some y) :
      y.stop ≤ x.start := by
    obtain ⟨s, -, hs⟩ := h.stored other y hy
    exact le_trans hs.inside hstart
  constructor
  · intro other y hy
    by_cases heq : other = slot
    · subst heq
      rw [Function.update_self] at hy
      cases hy
      exact ⟨snapshot, Function.update_self _ _ _, hx⟩
    · rw [Function.update_of_ne heq] at hy
      obtain ⟨s, hm, hs⟩ := h.stored other y hy
      exact ⟨s, by rw [Function.update_of_ne heq, hm], hs.extends (Extends.append file record)⟩
  · intro other hy
    by_cases heq : other = slot
    · rw [heq, Function.update_self] at hy
      cases hy
    · rw [Function.update_of_ne heq] at hy ⊢
      exact h.empty other hy
  · intro a b ea eb hab ha hb
    by_cases haslot : a = slot
    · subst haslot
      rw [Function.update_self] at ha
      rw [Function.update_of_ne (Ne.symm hab)] at hb
      cases ha
      exact .inr (hbelow b eb hb)
    · rw [Function.update_of_ne haslot] at ha
      by_cases hbslot : b = slot
      · subst hbslot
        rw [Function.update_self] at hb
        cases hb
        exact .inl (hbelow a ea ha)
      · rw [Function.update_of_ne hbslot] at hb
        exact h.apart a b ea eb hab ha hb

theorem Indexes.appended (h : Indexes crates file coord entries m)
    (he : EncodedAs crates coord policy snapshot e)
    (hf : snapshot.lifecycleFlags &&& ~~~chunkLifecycleMask = 0)
    (hlow : recordAreaOffset ≤ file.length) (hl : file.length ≤ maxFileBytes) :
    Indexes crates (file ++ e.record) coord
      (Function.update entries e.slot (some (e.entryAt crates file.length)))
      (putSnapshot m snapshot) := by
  rw [putSnapshot, ← (localIndex_ok he.placed).2]
  exact h.place (Stored.appended he hf hlow hl) (le_of_eq (entryAt_start hl).symm)

end

end Cobblestone.Region
