import Cobblestone.Region.Save

namespace Cobblestone.Region

open Lib World Storage

variable (crates : Crates) (worldUuid : WorldUuid) (coord : RegionCoord)

local instance bothPages : NeZero 2 := ⟨by decide⟩

def freshRegion : RegionFile :=
  ⟨initialBytes crates worldUuid coord, worldUuid, coord, 0, RegionIndex.empty 1⟩

def initialSegments : List Bytes :=
  [encodeRegionHeader crates worldUuid coord, encodeIndexPage crates (RegionIndex.empty 1) coord,
    encodeIndexPage crates (RegionIndex.empty 0) coord]

theorem initialBytes_flatten :
    initialBytes crates worldUuid coord = (initialSegments crates worldUuid coord).flatten := by
  simp [initialBytes, initialSegments]

theorem length_initialBytes : (initialBytes crates worldUuid coord).length = recordAreaOffset := by
  rw [initialBytes, List.length_append, List.length_append, length_encodeRegionHeader,
    length_encodeIndexPage, length_encodeIndexPage]
  rfl

theorem initial_header : sliceAt 0 regionHeaderBytes (initialBytes crates worldUuid coord) =
    encodeRegionHeader crates worldUuid coord := by
  have h := sliceAt_flatten (initialSegments crates worldUuid coord) 0 (by simp [initialSegments])
  rw [← initialBytes_flatten] at h
  simpa [initialSegments, length_encodeRegionHeader] using h

theorem initial_pageA : pageAt (initialBytes crates worldUuid coord) 0 =
    encodeIndexPage crates (RegionIndex.empty 1) coord := by
  have h := sliceAt_flatten (initialSegments crates worldUuid coord) 1 (by simp [initialSegments])
  rw [← initialBytes_flatten] at h
  simpa [initialSegments, length_encodeRegionHeader, length_encodeIndexPage, pageAt,
    indexPageOffset] using h

theorem initial_pageB : pageAt (initialBytes crates worldUuid coord) 1 =
    encodeIndexPage crates (RegionIndex.empty 0) coord := by
  have h := sliceAt_flatten (initialSegments crates worldUuid coord) 2 (by simp [initialSegments])
  rw [← initialBytes_flatten] at h
  simpa [initialSegments, length_encodeRegionHeader, length_encodeIndexPage, pageAt,
    indexPageOffset] using h

theorem emptyIndex_valid (generation : UInt64) : (RegionIndex.empty generation).Valid := by
  intro slot entry h
  cases h

theorem freshRegion_inv (allowed : ChunkSnapshot → Prop) :
    RegionInv crates allowed (freshRegion crates worldUuid coord) (fun _ => none) ∧
      Quiet crates (freshRegion crates worldUuid coord) := by
  have hlen := length_initialBytes crates worldUuid coord
  have hempty : IndexedBy crates allowed (initialBytes crates worldUuid coord) coord
      (fun _ => none) (fun _ => none) := ⟨indexes_empty _ coord, fun _ _ h => by cases h⟩
  refine ⟨⟨initial_header crates worldUuid coord, le_of_eq hlen.symm, ?_,
    initial_pageA crates worldUuid coord, hempty, .inr ⟨RegionIndex.empty 0, _,
      initial_pageB crates worldUuid coord, hempty, .inl ?_⟩⟩, ?_⟩
  · have : (initialBytes crates worldUuid coord).length ≤ maxFileBytes := by
      rw [hlen]
      decide
    exact this
  · exact (by decide : (0 : UInt64) < 1)
  · intro index hd
    have hb : decodeIndexPage crates (sparePage (freshRegion crates worldUuid coord)) coord =
        some (RegionIndex.empty 0) := by
      rw [sparePage]
      exact (congrArg (fun page => decodeIndexPage crates page coord)
        (initial_pageB crates worldUuid coord)).trans
          (decode_encodeIndexPage crates coord (emptyIndex_valid 0))
    cases hb.symm.trans hd
    exact (by decide : (0 : UInt64) < 1)

theorem fromOpenFile_initial :
    fromOpenFile crates (initialBytes crates worldUuid coord) worldUuid coord =
      .ok (freshRegion crates worldUuid coord) := by
  obtain ⟨hinv, hquiet⟩ := freshRegion_inv crates worldUuid coord (fun _ => True)
  exact hinv.reopen_quiet hquiet

def OpensEmpty (file : Bytes) : Prop :=
  ∃ r, openOrCreate crates file worldUuid coord = .ok r ∧
    ∀ p, RegionCoord.forChunk p = coord → loadChunk crates r p = .ok none

theorem fresh_loads_nothing (p : ChunkCoord) (hp : RegionCoord.forChunk p = coord) :
    loadChunk crates (freshRegion crates worldUuid coord) p = .ok none := by
  have hslot : coord.localIndex p = .ok (RegionCoord.slotOf p) := if_neg (not_not.mpr hp)
  have hcoord : (freshRegion crates worldUuid coord).coord = coord := rfl
  rw [loadChunk, hcoord, hslot, ok_bind]
  rfl

-- Creation writes into the final path, so every proper non-empty prefix is a file the next open
-- refuses instead of initialising again.
theorem interrupted_creation_iff {k : Nat} (hk : k ≤ (initialBytes crates worldUuid coord).length) :
    OpensEmpty crates worldUuid coord ((initialBytes crates worldUuid coord).take k) ↔
      k = 0 ∨ k = recordAreaOffset := by
  have hlen := length_initialBytes crates worldUuid coord
  have htake : ((initialBytes crates worldUuid coord).take k).length = k := by
    rw [List.length_take]
    omega
  constructor
  · rintro ⟨r, hr, -⟩
    by_contra hne
    rw [not_or] at hne
    rw [openOrCreate, htake, if_neg hne.1, if_pos (by omega)] at hr
    cases hr
  · rintro (rfl | rfl)
    · refine ⟨freshRegion crates worldUuid coord, ?_, fresh_loads_nothing crates worldUuid coord⟩
      rw [openOrCreate, htake, if_pos rfl, fromOpenFile_initial]
    · refine ⟨freshRegion crates worldUuid coord, ?_, fresh_loads_nothing crates worldUuid coord⟩
      rw [← hlen, List.take_length, openOrCreate_long (le_of_eq hlen.symm), fromOpenFile_initial]

def zeroUuid : WorldUuid := ⟨List.replicate 16 0, List.length_replicate⟩

def originRegion : RegionCoord := ⟨0, 0⟩

theorem interrupted_creation_iff_one :
    1 ≤ (initialBytes Crates.reference zeroUuid originRegion).length ∧
      (OpensEmpty Crates.reference zeroUuid originRegion
        ((initialBytes Crates.reference zeroUuid originRegion).take 1) ↔
          1 = 0 ∨ 1 = recordAreaOffset) := by
  have h : 1 ≤ (initialBytes Crates.reference zeroUuid originRegion).length := by
    rw [length_initialBytes]
    decide
  exact ⟨h, interrupted_creation_iff Crates.reference zeroUuid originRegion h⟩

theorem interrupted_creation_refused :
    ¬ ∀ k ≤ (initialBytes Crates.reference zeroUuid originRegion).length,
      OpensEmpty Crates.reference zeroUuid originRegion
        ((initialBytes Crates.reference zeroUuid originRegion).take k) := by
  intro hall
  have hlen := length_initialBytes Crates.reference zeroUuid originRegion
  obtain ⟨r, hr, -⟩ := hall 1 (by rw [hlen]; decide)
  have htake : ((initialBytes Crates.reference zeroUuid originRegion).take 1).length = 1 := by
    rw [List.length_take, hlen]
    rfl
  rw [openOrCreate, htake, if_neg (by decide), if_pos (by decide)] at hr
  cases hr

end Cobblestone.Region

namespace Cobblestone.Region

open Lib World Storage

variable {crates : Crates} {allowed : ChunkSnapshot → Prop} {r : RegionFile} {m : SlotMap}

def statsOf (r : RegionFile) : RegionStats where
  fileBytes := r.file.length
  recordBytes := r.file.length - recordAreaOffset
  liveBytes := r.liveBytes
  deadBytes := r.file.length - recordAreaOffset - r.liveBytes
  indexedChunks := r.indexedChunks

theorem RegionInv.liveBytes_le (h : RegionInv crates allowed r m) :
    r.liveBytes ≤ r.file.length - recordAreaOffset := by
  apply Region.liveBytes_le h.live.indexes
  intro slot e he
  obtain ⟨s, -, hs⟩ := h.live.indexes.stored slot e he
  exact hs.inside

theorem RegionInv.stats_eq (h : RegionInv crates allowed r m) : r.stats = .ok (statsOf r) := by
  simp only [RegionFile.stats, h.long, h.liveBytes_le, decide_true, ensure_true, ok_bind]
  rfl

theorem RegionInv.behind_dead (h : RegionInv crates allowed r m) (hb : Behind r) :
    0 < (statsOf r).deadBytes := by
  obtain ⟨bound, hlow, hlt, hstop⟩ := hb
  have hlive : r.liveBytes ≤ bound - recordAreaOffset := Region.liveBytes_le h.live.indexes hstop
  simp only [statsOf]
  omega

theorem RegionInv.quiet_of_no_dead (h : RegionInv crates allowed r m)
    (hd : (statsOf r).deadBytes = 0) : Quiet crates r := by
  intro index hi
  rcases h.spare with hn | ⟨other, m', hs⟩
  · rw [hn] at hi
    cases hi
  · cases hs.decode.symm.trans hi
    rcases hs.order with hlt | ⟨-, hb⟩
    · exact hlt
    · have := h.behind_dead hb
      omega

theorem toInt_ediv_ofInt {a b : Int32}
    (h : Int32.ofInt (a.toInt / storageRegionEdge) = Int32.ofInt (b.toInt / storageRegionEdge)) :
    a.toInt / storageRegionEdge = b.toInt / storageRegionEdge := by
  have ha := a.toInt_lt
  have ha' := a.le_toInt
  have hb := b.toInt_lt
  have hb' := b.le_toInt
  have h' := congrArg Int32.toInt h
  simp only [storageRegionEdge] at h' ⊢
  rwa [Int32.toInt_ofInt_of_le (by omega) (by omega),
    Int32.toInt_ofInt_of_le (by omega) (by omega)] at h'

theorem localOffset_eq {a b : Int32} (h : localOffset a = localOffset b) :
    a.toInt % storageRegionEdge = b.toInt % storageRegionEdge := by
  have h' := congrArg Fin.val h
  simp only [localOffset, storageRegionEdge] at h' ⊢
  omega

theorem int32_ext_of_div_mod {a b : Int32}
    (hd : a.toInt / storageRegionEdge = b.toInt / storageRegionEdge)
    (hm : a.toInt % storageRegionEdge = b.toInt % storageRegionEdge) : a = b := by
  apply Int32.toInt_inj.mp
  rw [← Int.mul_ediv_add_emod a.toInt storageRegionEdge, hd, hm, Int.mul_ediv_add_emod]

theorem position_ext {p q : ChunkCoord} (hr : RegionCoord.forChunk p = RegionCoord.forChunk q)
    (hs : RegionCoord.slotOf p = RegionCoord.slotOf q) : p = q := by
  have hx := congrArg RegionCoord.x hr
  have hz := congrArg RegionCoord.z hr
  have hv := congrArg Fin.val hs
  have hpx := (localOffset p.x).isLt
  have hqx := (localOffset q.x).isLt
  simp only [RegionCoord.slotOf] at hv
  have hlx : localOffset p.x = localOffset q.x := Fin.ext (by omega)
  have hlz : localOffset p.z = localOffset q.z := Fin.ext (by omega)
  have hxe := int32_ext_of_div_mod (toInt_ediv_ofInt hx) (localOffset_eq hlx)
  have hze := int32_ext_of_div_mod (toInt_ediv_ofInt hz) (localOffset_eq hlz)
  cases p
  cases q
  simp_all

theorem localIndex_of_forChunk {coord : RegionCoord} {p : ChunkCoord}
    (h : RegionCoord.forChunk p = coord) : coord.localIndex p = .ok (RegionCoord.slotOf p) :=
  if_neg (not_not.mpr h)

theorem load_none (h : RegionInv crates allowed r m) {p : ChunkCoord}
    (hp : RegionCoord.forChunk p = r.coord) (hm : m (RegionCoord.slotOf p) = none) :
    loadChunk crates r p = .ok none := by
  have he := (h.live.indexes.mem_iff _).mpr hm
  rw [loadChunk, localIndex_of_forChunk hp, ok_bind, he]
  rfl

theorem load_some (h : RegionInv crates allowed r m) {p : ChunkCoord}
    (hp : RegionCoord.forChunk p = r.coord) {s : ChunkSnapshot}
    (hm : m (RegionCoord.slotOf p) = some s) (hc : ChestsFit s) :
    s.position = p ∧ ∃ stored, loadChunk crates r p = .ok (some stored) ∧ stored.Carries s [] := by
  cases he : r.index.entries (RegionCoord.slotOf p) with
  | none =>
    rw [h.live.indexes.empty _ he] at hm
    cases hm
  | some e =>
    obtain ⟨s', hm', hs⟩ := h.live.indexes.stored _ e he
    obtain rfl : s' = s := Option.some.inj (hm'.symm.trans hm)
    obtain ⟨hr, hslot⟩ := localIndex_ok hs.placed
    have hpos : s'.position = p := position_ext (hr.trans hp.symm) hslot.symm
    obtain ⟨decoded, hread, hcarries⟩ := hs.read h.short hc
    refine ⟨hpos, decoded, ?_, hcarries⟩
    have hd : decoded.position = p := hcarries.1.trans hpos
    rw [loadChunk, localIndex_of_forChunk hp, ok_bind, he, loadSlot, hread, ok_bind]
    simp only [hd, decide_true, ensure_true, ok_bind]
    rfl

theorem load_overflow (h : RegionInv crates allowed r m) {p : ChunkCoord}
    (hp : RegionCoord.forChunk p = r.coord) {s : ChunkSnapshot}
    (hm : m (RegionCoord.slotOf p) = some s) (hc : ¬ ChestsFit s) :
    loadChunk crates r p =
      .error (.corruptChunkPayload "chest block-entity count exceeds block count") := by
  cases he : r.index.entries (RegionCoord.slotOf p) with
  | none =>
    rw [h.live.indexes.empty _ he] at hm
    cases hm
  | some e =>
    obtain ⟨s', hm', hs⟩ := h.live.indexes.stored _ e he
    obtain rfl : s' = s := Option.some.inj (hm'.symm.trans hm)
    rw [loadChunk, localIndex_of_forChunk hp, ok_bind, he, loadSlot, hs.read_overflow h.short hc,
      error_bind]

end Cobblestone.Region

namespace Cobblestone.Region

open Lib World Storage

structure RegionCompactionResult where
  generation : UInt64
  records : Nat
  bytesReclaimed : Nat
  before : RegionStats
  after : RegionStats
deriving DecidableEq, Repr

-- The I/O calls of a compaction in program order; each may fail, or the process may stop at it.
inductive CompactPoint where
  | statsBefore
  | createTemp
  | initializeRegion
  | copyRecord (slot : Fin indexEntryCount)
  | syncRecords
  | writePages
  | syncPages
  | statsAfter
  | rename
  | syncParent
deriving DecidableEq, Repr

structure CompactOutcome where
  result : Except StorageError RegionCompactionResult
  path : Bytes
  handle : RegionFile

variable (crates : Crates)

def rewriteRecords (r : RegionFile) (fault : Option CompactPoint) :
    List (Fin indexEntryCount) → Bytes → Entries → Except StorageError (Bytes × Entries)
  | [], temp, entries => .ok (temp, entries)
  | slot :: slots, temp, entries =>
    match r.index.entries slot with
    | none => rewriteRecords r fault slots temp entries
    | some entry => do
      let read ← readIndexedRecord crates r.file r.coord slot entry
      ensure (fault ≠ some (.copyRecord slot)) .io
      rewriteRecords r fault slots (temp ++ read.1)
        (Function.update entries slot
          (some { entry with recordOffset := UInt64.ofNat temp.length }))

local instance twoPages : NeZero 2 := ⟨by decide⟩

def buildReplacement (r : RegionFile) (fault : Option CompactPoint) (nextGeneration : UInt64) :
    Except StorageError RegionFile := do
  ensure (fault ≠ some .createTemp) .io
  ensure (fault ≠ some .initializeRegion) .io
  let built ← rewriteRecords crates r fault (List.finRange indexEntryCount)
    (initialBytes crates r.worldUuid r.coord) (fun _ => none)
  ensure (fault ≠ some .syncRecords) .io
  ensure (fault ≠ some .writePages) .io
  ensure (fault ≠ some .syncPages) .io
  let fallback := encodeIndexPage crates ⟨r.index.generation, built.2⟩ r.coord
  let active := encodeIndexPage crates ⟨nextGeneration, built.2⟩ r.coord
  pure { r with
    file := putAt (indexPageOffset 0) active (putAt (indexPageOffset 1) fallback built.1)
    activePage := 0
    index := ⟨nextGeneration, built.2⟩ }

def statsAt (point : CompactPoint) (fault : Option CompactPoint) (r : RegionFile) :
    Except StorageError RegionStats :=
  if fault = some point then .error .io else r.stats

def compact (fault : Option CompactPoint) (r : RegionFile) : CompactOutcome :=
  match statsAt .statsBefore fault r with
  | .error e => ⟨.error e, r.file, r⟩
  | .ok before =>
    if before.deadBytes = 0 then
      ⟨.ok ⟨r.index.generation, before.indexedChunks, 0, before, before⟩, r.file, r⟩
    else match checkedSucc r.index.generation with
    | none => ⟨.error .indexGenerationExhausted, r.file, r⟩
    | some nextGeneration =>
      match buildReplacement crates r fault nextGeneration with
      | .error e => ⟨.error e, r.file, r⟩
      | .ok replacement =>
        match statsAt .statsAfter fault replacement with
        | .error e => ⟨.error e, r.file, r⟩
        | .ok after =>
          if before.fileBytes < after.fileBytes then
            ⟨.error (.corruptChunkRecord "compaction increased region file size"), r.file, r⟩
          else if fault = some .rename then ⟨.error .io, r.file, r⟩
          else if fault = some .syncParent then ⟨.error .io, replacement.file, replacement⟩
          else
            ⟨.ok ⟨nextGeneration, replacement.indexedChunks, before.fileBytes - after.fileBytes,
              before, after⟩, replacement.file, replacement⟩

section

variable {crates} {allowed : ChunkSnapshot → Prop} {r : RegionFile} {m : SlotMap}

structure SameRecord (coord : RegionCoord) (slot : Fin indexEntryCount) (file file' : Bytes)
    (e e' : IndexEntry) : Prop where
  bytes : recordAt file e = recordAt file' e'
  stored : ∃ s, Stored crates file coord slot e s ∧ Stored crates file' coord slot e' s

def SameEntry (crates : Crates) (coord : RegionCoord) (slot : Fin indexEntryCount)
    (file file' : Bytes) : Option IndexEntry → Option IndexEntry → Prop
  | none, none => True
  | some e, some e' => @SameRecord crates coord slot file file' e e'
  | _, _ => False

def SameRecords (crates : Crates) (a b : RegionFile) : Prop :=
  a.coord = b.coord ∧ ∀ slot, SameEntry crates a.coord slot a.file b.file
    (a.index.entries slot) (b.index.entries slot)

theorem SameRecord.read {coord : RegionCoord} {slot : Fin indexEntryCount} {file file' : Bytes}
    {e e' : IndexEntry} (h : @SameRecord crates coord slot file file' e e')
    (hl : file.length ≤ maxFileBytes) (hl' : file'.length ≤ maxFileBytes) :
    readIndexedRecord crates file coord slot e = readIndexedRecord crates file' coord slot e' := by
  obtain ⟨s, hs, hs'⟩ := h.stored
  rw [hs.read_eq hl, hs'.read_eq hl', h.bytes, hs.terrain, hs.light, hs'.terrain, hs'.light]

theorem SameRecords.load {a b : RegionFile} (h : SameRecords crates a b)
    (ha : a.file.length ≤ maxFileBytes) (hb : b.file.length ≤ maxFileBytes) (p : ChunkCoord) :
    loadChunk crates a p = loadChunk crates b p := by
  unfold loadChunk
  rw [← h.1]
  cases hslot : a.coord.localIndex p with
  | error e => rfl
  | ok slot =>
    simp only [ok_bind]
    have hs := h.2 slot
    cases hea : a.index.entries slot with
    | none =>
      cases heb : b.index.entries slot with
      | none => rfl
      | some e' =>
        rw [hea, heb] at hs
        exact hs.elim
    | some e =>
      cases heb : b.index.entries slot with
      | none =>
        rw [hea, heb] at hs
        exact hs.elim
      | some e' =>
        rw [hea, heb] at hs
        rw [loadSlot, loadSlot, SameRecord.read hs ha hb]

theorem sameRecords_of_extends (h : RegionInv crates allowed r m) {other : RegionFile}
    (hc : r.coord = other.coord) (he : other.index.entries = r.index.entries)
    (hx : Extends r.file other.file) : SameRecords crates r other := by
  refine ⟨hc, fun slot => ?_⟩
  rw [he]
  cases hs : r.index.entries slot with
  | none => trivial
  | some e =>
    obtain ⟨s, -, hst⟩ := h.live.indexes.stored slot e hs
    exact ⟨(hx.records hst.after hst.inside).symm, s, hst, hst.extends hx⟩

end

end Cobblestone.Region
