import Cobblestone.Region.Crowded

namespace Cobblestone.Region

open Lib World Storage

structure Represents (crates : Crates) (r : RegionFile) : Prop where
  apart : EntriesApart r.index.entries
  inside : ∀ slot e, r.index.entries slot = some e →
    recordAreaOffset ≤ e.start ∧ e.start < e.stop ∧ e.stop ≤ r.file.length
  decodes : ∀ slot e, r.index.entries slot = some e →
    ∃ stored, decodeChunkRecord crates (recordAt r.file e) = .ok stored ∧
      r.coord.localIndex stored.position = .ok slot ∧
      stored.imported.terrainRevision = e.terrainRevision ∧
      stored.imported.lightRevision = e.lightRevision ∧
      readIndexedRecord crates r.file r.coord slot e = .ok (recordAt r.file e, stored)
  area : ∃ stats, r.stats = .ok stats ∧
    stats.liveBytes + stats.deadBytes = r.file.length - recordAreaOffset
  compacts : ∀ fault e, (compact crates fault r).result = .error e →
    e = .io ∨ e = .indexGenerationExhausted
  reopens : ∃ r', openOrCreate crates r.file r.worldUuid r.coord = .ok r' ∧
    openExisting crates (some r.file) r.worldUuid r.coord = .ok (some r')

variable {crates : Crates} {allowed : ChunkSnapshot → Prop} {r : RegionFile} {m : SlotMap}

theorem RegionInv.area (h : RegionInv crates allowed r m) : ∃ stats, r.stats = .ok stats ∧
    stats.liveBytes + stats.deadBytes = r.file.length - recordAreaOffset := by
  refine ⟨statsOf r, h.stats_eq, ?_⟩
  have hlive : r.liveBytes ≤ r.file.length - recordAreaOffset := h.liveBytes_le
  simp only [statsOf]
  omega

theorem RegionInv.compact_error (h : RegionInv crates allowed r m)
    (hc : ∀ s, allowed s → ChestsFit s) {fault : Option CompactPoint} {e : StorageError}
    (he : (Region.compact crates fault r).result = .error e) :
    e = .io ∨ e = .indexGenerationExhausted := by
  have hcase := compact_case h fault
  generalize Region.compact crates fault r = outcome at hcase he
  cases hcase with
  | clean hd => cases he
  | kept error hk => exact Except.error.inj he ▸ hk hc
  | unsynced hr hf => exact .inl (Except.error.inj he).symm
  | done hr hd => cases he

theorem RegionInv.reopens (h : RegionInv crates allowed r m) :
    ∃ r', openOrCreate crates r.file r.worldUuid r.coord = .ok r' ∧
      openExisting crates (some r.file) r.worldUuid r.coord = .ok (some r') := by
  obtain ⟨r', -, ho, -, -, -⟩ := h.reopen
  refine ⟨r', ?_, ?_⟩
  · rw [openOrCreate_long h.long, ho]
  · rw [openExisting_long h.long, ho]
    rfl

theorem RegionInv.represents (h : RegionInv crates ChestsFit r m) : Represents crates r where
  apart := h.live.indexes.apart
  inside := by
    intro slot e he
    obtain ⟨s, -, hs⟩ := h.live.indexes.stored slot e he
    have hlen := hs.length.1
    refine ⟨hs.after, ?_, hs.inside⟩
    simp only [IndexEntry.stop, recordHeaderBytes] at hlen ⊢
    omega
  decodes := by
    intro slot e he
    obtain ⟨s, hm, hs⟩ := h.live.indexes.stored slot e he
    have hfit := h.live.allowed slot s hm
    obtain ⟨policy, hencode⟩ := hs.encoded
    obtain ⟨stored, hd, hp, hi, -⟩ := decodeChunkRecord_carries crates hencode hs.flags hfit
    obtain ⟨decoded, hread, -⟩ := hs.read h.short hfit
    have heq : decoded = stored := by
      have hread' := hread
      rw [hs.read_eq h.short, hd, ok_bind] at hread'
      obtain ⟨_, -, hread'⟩ := bind_ok_iff.mp hread'
      obtain ⟨_, -, hread'⟩ := bind_ok_iff.mp hread'
      obtain ⟨_, -, hread'⟩ := bind_ok_iff.mp hread'
      exact (Prod.mk.inj (Except.ok.inj hread')).2.symm
    refine ⟨stored, hd, ?_, ?_, ?_, heq ▸ hread⟩
    · rw [hp]
      exact hs.placed
    · rw [hi]
      exact hs.terrain.symm
    · rw [hi]
      exact hs.light.symm
  area := h.area
  compacts := fun _ _ he => h.compact_error (fun _ hs => hs) he
  reopens := h.reopens

theorem region_representation {worldUuid : WorldUuid} {coord : RegionCoord}
    (h : RegionReachable crates SaveCall.ChestsFit worldUuid coord r) : Represents crates r := by
  obtain ⟨m, hinv⟩ := h.inv ChestsFit fun _ _ hc => hc
  exact hinv.represents

section

variable {entities : List ChestBlockEntity}

def chestCall (entities : List ChestBlockEntity) : SaveCall :=
  ⟨.none, [chestSnapshot entities], .none⟩

theorem chestCall_proper (crates : Crates) (r : RegionFile) : (chestCall entities).Proper crates r where
  fromStore := List.forall_mem_singleton.mpr (chestSnapshot_fromStore entities)
  torn := by
    intro k file next hf
    cases hf

theorem chestCall_step (crates : Crates) (cond : RegionFile → SaveCall → Prop) (r : RegionFile)
    (entities : List ChestBlockEntity) (hc : cond r (chestCall entities)) :
    RegionStep crates cond r (saveChunks crates .none r [chestSnapshot entities] .none).2 :=
  .save (chestCall entities) (chestCall_proper crates r) hc

end

theorem region_representation_plains : ∃ value r,
    saveChunks Crates.reference .none (freshRegion Crates.reference zeroUuid originRegion)
      [chestSnapshot []] .none = (.ok value, r) ∧ Represents Crates.reference r := by
  obtain ⟨r, hsaved⟩ := chest_saved Crates.reference (fun _ => True) [] (by simp)
    (by decide) trivial rfl
  obtain ⟨value, hsave⟩ := hsaved.ok
  refine ⟨value, r, hsave, ?_⟩
  have hstep := chestCall_step Crates.reference SaveCall.ChestsFit
    (freshRegion Crates.reference zeroUuid originRegion) []
    (List.forall_mem_singleton.mpr (Nat.zero_le _))
  rw [hsave] at hstep
  exact region_representation (.single hstep)

theorem region_representation_crowded :
    ¬ ∀ r, RegionReachable Crates.reference (fun _ _ => True) zeroUuid originRegion r →
      Represents Crates.reference r := by
  intro hall
  obtain ⟨r, hsaved⟩ := chest_saved Crates.reference (fun _ => True) crowdedChests crowded_valid
    crowded_capacity trivial rfl
  obtain ⟨value, hsave⟩ := hsaved.ok
  have hstep := chestCall_step Crates.reference (fun _ _ => True)
    (freshRegion Crates.reference zeroUuid originRegion) crowdedChests trivial
  rw [hsave] at hstep
  have hrep := hall _ (.single hstep)
  have hinv := hsaved.inv
  have hm := Function.update_self (RegionCoord.slotOf origin) (some (chestSnapshot crowdedChests))
    (fun _ => none : SlotMap)
  cases he : r.index.entries (RegionCoord.slotOf origin) with
  | none =>
    have hnone := hinv.live.indexes.empty _ he
    cases hnone.symm.trans hm
  | some e =>
    obtain ⟨s, hs, hstored⟩ := hinv.live.indexes.stored _ e he
    obtain rfl : s = chestSnapshot crowdedChests := Option.some.inj (hs.symm.trans hm)
    obtain ⟨stored, -, -, -, -, hread⟩ := hrep.decodes _ e he
    exact crowded_not_fit (hstored.chests_of_read hinv.short hread)

end Cobblestone.Region

namespace Cobblestone.Region

open Lib World Storage

def SameLoads (crates : Crates) (a b : RegionFile) : Prop :=
  ∀ p, loadChunk crates a p = loadChunk crates b p

def ReopensAs (crates : Crates) (file : Bytes) (r : RegionFile) : Prop :=
  ∃ r', openOrCreate crates file r.worldUuid r.coord = .ok r' ∧ SameLoads crates r' r

def PageCorrupted (crates : Crates) (coord : RegionCoord) (page : Bytes) : Prop :=
  page.length = indexPageBytes ∧ decodeIndexPage crates page coord = none

variable {crates : Crates} {allowed : ChunkSnapshot → Prop} {r r' : RegionFile} {m : SlotMap}

theorem reopen_corrupted (h : RegionInv crates allowed r m) {i : Fin 2} {page : Bytes}
    (hp : PageCorrupted crates r.coord page) {index : RegionIndex}
    (hi : decodeIndexPage crates (pageAt r.file (otherPage i)) r.coord = some index) :
    openOrCreate crates (putAt (indexPageOffset i) page r.file) r.worldUuid r.coord =
      .ok ⟨putAt (indexPageOffset i) page r.file, r.worldUuid, r.coord, otherPage i, index⟩ := by
  have hlong : recordAreaOffset ≤ (putAt (indexPageOffset i) page r.file).length := by
    rw [length_putPage h.long hp.1]
    exact h.long
  have hkept : pageAt (putAt (indexPageOffset i) page r.file) (otherPage i) =
      pageAt r.file (otherPage i) := by
    have hother := pageAt_putAt_other h.long hp.1 (otherPage i)
    rwa [otherPage_otherPage] at hother
  have hbad : pageAt (putAt (indexPageOffset i) page r.file) (otherPage (otherPage i)) = page := by
    rw [otherPage_otherPage]
    exact pageAt_putAt_self h.long hp.1 i
  rw [openOrCreate_long hlong, fromOpenFile_eq hlong ((header_putAt h.long hp.1 i).trans h.header),
    selectIndex_active (i := otherPage i) (hkept ▸ hi)]
  · rfl
  · intro other ho
    rw [hbad, hp.2] at ho
    cases ho

theorem SameRecords.sameLoads (hs : SameRecords crates r r') (h : RegionInv crates allowed r m)
    (hl : r'.file.length ≤ maxFileBytes) : SameLoads crates r' r :=
  fun p => (hs.load h.short hl p).symm

theorem corrupted_reopensAs (h : RegionInv crates allowed r m) {i : Fin 2} {page : Bytes}
    (hp : PageCorrupted crates r.coord page) {index : RegionIndex}
    (hi : decodeIndexPage crates (pageAt r.file (otherPage i)) r.coord = some index)
    (he : index.entries = r.index.entries) :
    ReopensAs crates (putAt (indexPageOffset i) page r.file) r := by
  refine ⟨_, reopen_corrupted h hp hi, ?_⟩
  have hsame : SameRecords crates r
      ⟨putAt (indexPageOffset i) page r.file, r.worldUuid, r.coord, otherPage i, index⟩ :=
    sameRecords_of_extends h rfl he (extends_putAt h.long hp.1 i)
  exact hsame.sameLoads h ((length_putPage h.long hp.1 i).trans_le h.short)

theorem SameLoads.trans {a b c : RegionFile} (hab : SameLoads crates a b)
    (hbc : SameLoads crates b c) : SameLoads crates a c :=
  fun p => (hab p).trans (hbc p)

theorem Replacement.sameLoads (h : RegionInv crates allowed r m) {next : UInt64}
    (hr : Replacement crates allowed r m next r') : SameLoads crates r' r :=
  hr.same.sameLoads h hr.inv.short

theorem Replacement.reopensAs (h : RegionInv crates allowed r m) {next : UInt64}
    (hr : Replacement crates allowed r m next r') : ReopensAs crates r'.file r := by
  refine ⟨r', ?_, hr.sameLoads h⟩
  rw [← hr.worldUuid, ← hr.coord, openOrCreate_long hr.inv.long]
  exact hr.inv.reopen_quiet hr.quiet

theorem Replacement.survives (h : RegionInv crates allowed r m) {next : UInt64}
    (hr : Replacement crates allowed r m next r') {i : Fin 2} {page : Bytes}
    (hp : PageCorrupted crates r.coord page) :
    ReopensAs crates (putAt (indexPageOffset i) page r'.file) r := by
  rw [← hr.coord] at hp
  have hpages : ∃ index, decodeIndexPage crates (pageAt r'.file (otherPage i)) r'.coord =
      some index ∧ index.entries = r'.index.entries := by
    by_cases hi : otherPage i = r'.activePage
    · exact ⟨r'.index, hi ▸ hr.inv.decode_active, rfl⟩
    · have hspare : otherPage i = otherPage r'.activePage := by
        revert hi
        generalize r'.activePage = j
        revert i j
        decide
      refine ⟨⟨r.index.generation, r'.index.entries⟩, ?_, rfl⟩
      have hfallback := hr.fallback
      rw [sparePage, ← hspare, ← hr.coord] at hfallback
      rw [hfallback]
      exact decode_encodeIndexPage crates r'.coord (hr.inv.live.indexes.valid r.index.generation)
  obtain ⟨index, hi, he⟩ := hpages
  obtain ⟨opened, ho, hloads⟩ := corrupted_reopensAs hr.inv hp hi he
  rw [hr.worldUuid, hr.coord] at ho
  exact ⟨opened, ho, hloads.trans (hr.sameLoads h)⟩

structure CompactedWell (crates : Crates) (r : RegionFile) (outcome : CompactOutcome)
    (result : RegionCompactionResult) : Prop where
  handle : SameLoads crates outcome.handle r
  reopened : ReopensAs crates outcome.path r
  before : r.stats = .ok result.before
  after : outcome.handle.stats = .ok result.after
  no_dead : result.after.deadBytes = 0
  reclaimed : result.bytesReclaimed = result.before.deadBytes
  survives : result.before.deadBytes ≠ 0 → ∀ i page, PageCorrupted crates r.coord page →
    ReopensAs crates (putAt (indexPageOffset i) page outcome.path) r

inductive CompactFailed (crates : Crates) (fault : Option CompactPoint) (r : RegionFile)
    (outcome : CompactOutcome) : Prop where
  | unchanged (hpath : outcome.path = r.file) (hhandle : outcome.handle = r)
  | renamed (hf : fault = some .syncParent) (hhandle : SameLoads crates outcome.handle r)
      (hpath : ReopensAs crates outcome.path r)

theorem compact_clean (h : RegionInv crates allowed r m) (hd : (statsOf r).deadBytes = 0) :
    compact crates none r =
      ⟨.ok ⟨r.index.generation, r.indexedChunks, 0, statsOf r, statsOf r⟩, r.file, r⟩ := by
  have hstats : statsAt .statsBefore none r = .ok (statsOf r) := h.stats_eq
  simp only [compact, hstats, hd, if_true]
  rfl

theorem freshSaved_reachable {fresh : RegionFile}
    (hfresh : fresh = freshRegion crates zeroUuid originRegion) {fault : SaveFault}
    (hf : ∀ k, fault ≠ .page k) {result : Except StorageError RegionSaveResult}
    (hsave : saveChunks crates fault fresh [chestSnapshot []] .none = (result, r)) :
    RegionReachable crates (fun _ _ => True) zeroUuid originRegion r := by
  have hproper : SaveCall.Proper crates ⟨fault, [chestSnapshot []], .none⟩ fresh :=
    ⟨List.forall_mem_singleton.mpr (chestSnapshot_fromStore []), fun k _ _ hk => absurd hk (hf k)⟩
  have hstep : RegionStep crates (fun _ _ => True) fresh _ := .save _ hproper trivial
  rw [SaveCall.after, hsave] at hstep
  rw [RegionReachable, ← hfresh]
  exact .single hstep

def zeroPage : Bytes := List.replicate indexPageBytes 0

theorem zeroPage_corrupted (crates : Crates) (coord : RegionCoord) :
    PageCorrupted crates coord zeroPage := by
  refine ⟨List.length_replicate, ?_⟩
  have hmagic : sliceAt 0 4 zeroPage = List.replicate 4 0 := sliceAt_replicate (by decide)
  have hheader : indexPageHeaderIsValid crates zeroPage coord = false := by
    rw [indexPageHeaderIsValid, hmagic]
    rfl
  rw [decodeIndexPage, hheader]
  exact if_neg fun h => Bool.false_ne_true h.1

theorem clean_fallback_lost (crates : Crates) : ∃ r result r',
    RegionReachable crates (fun _ _ => True) zeroUuid originRegion r ∧
      (compact crates none r).result = .ok result ∧
      openOrCreate crates (putAt (indexPageOffset 1) zeroPage (compact crates none r).path) zeroUuid
        originRegion = .ok r' ∧
      loadChunk crates r' origin = .ok none ∧
      ∃ stored, loadChunk crates r origin = .ok (some stored) := by
  obtain ⟨r, hsaved⟩ := chest_saved crates (fun _ => True) [] (by simp)
    (by decide) trivial rfl
  obtain ⟨value, hsave⟩ := hsaved.ok
  have hinv := hsaved.inv
  have hcoord : r.coord = originRegion := hsaved.coord
  have huuid : r.worldUuid = zeroUuid := hsaved.worldUuid
  have hpage : r.activePage = 1 := hsaved.page
  have hspare : pageAt r.file (otherPage 1) =
      encodeIndexPage crates (RegionIndex.empty 1) r.coord := by
    rw [← hpage, hcoord]
    exact hsaved.spare
  have hclean := compact_clean hinv (hsaved.no_dead rfl (length_initialBytes crates _ _))
  have hopen := reopen_corrupted (i := 1) hinv (zeroPage_corrupted crates r.coord)
    (hspare ▸ decode_encodeIndexPage crates r.coord (emptyIndex_valid 1))
  have hm : putSnapshot (fun _ => none) (chestSnapshot []) (RegionCoord.slotOf origin) =
      some (chestSnapshot []) := Function.update_self _ _ _
  obtain ⟨-, stored, hload, -⟩ := load_some hinv (origin_placed.trans hcoord.symm) hm
    (Nat.zero_le _)
  rw [hcoord, huuid] at hopen
  refine ⟨r, _, _, freshSaved_reachable rfl (by simp) hsave,
    by rw [hclean], by rw [hclean]; exact hopen, ?_, stored, hload⟩
  rw [loadChunk, localIndex_of_forChunk origin_placed, ok_bind]
  rfl

theorem rewriteRecords_none (crates : Crates) (hnone : r.index.entries = fun _ => none)
    (fault : Option CompactPoint) (slots : List (Fin indexEntryCount)) (temp : Bytes)
    (entries : Entries) : rewriteRecords crates r fault slots temp entries = .ok (temp, entries) := by
  induction slots with
  | nil => rfl
  | cons slot slots ih =>
    rw [rewriteRecords, hnone]
    exact ih

theorem compact_unsynced (h : RegionInv crates allowed r m)
    (hnone : r.index.entries = fun _ => none) (hd : (statsOf r).deadBytes ≠ 0) (next : UInt64)
    (hg : checkedSucc r.index.generation = some next) :
    (compact crates (some .syncParent) r).result = .error .io ∧
      (compact crates (some .syncParent) r).path ≠ r.file := by
  have hstats : statsAt .statsBefore (some .syncParent) r = .ok (statsOf r) := h.stats_eq
  obtain ⟨r', hb⟩ : ∃ r', buildReplacement crates r (some .syncParent) next = .ok r' := by
    unfold buildReplacement
    rw [rewriteRecords_none crates hnone]
    exact ⟨_, rfl⟩
  have hr := buildReplacement_ok h hg hb
  obtain ⟨hle, hdead, -⟩ := hr.smaller h
  have hafter : statsAt .statsAfter (some .syncParent) r' = .ok (statsOf r') := hr.inv.stats_eq
  have hsize : ¬ (statsOf r).fileBytes < (statsOf r').fileBytes := not_lt.mpr hle
  have hcompact : compact crates (some .syncParent) r = ⟨.error .io, r'.file, r'⟩ := by
    unfold compact
    rw [hstats]
    dsimp only
    rw [if_neg hd, hg]
    dsimp only
    rw [hb]
    dsimp only
    rw [hafter]
    dsimp only
    rw [if_neg hsize, if_neg (by simp), if_pos rfl]
  rw [hcompact]
  refine ⟨rfl, fun heq => ?_⟩
  have hlen := congrArg List.length heq
  dsimp only at hlen
  omega

theorem unsynced_rename_changes_path (crates : Crates) : ∃ r,
    RegionReachable crates (fun _ _ => True) zeroUuid originRegion r ∧
      (compact crates (some .syncParent) r).result = .error .io ∧
      (compact crates (some .syncParent) r).path ≠ r.file := by
  obtain ⟨record, hrecord⟩ := encode_chest_chunk crates 0x0192bc59 origin []
    (by simp) (by decide)
  have hbatch := encodeBatch_one (s := chestSnapshot []) (localIndex_of_forChunk origin_placed)
    hrecord
  have hlen := length_initialBytes crates zeroUuid originRegion
  generalize hfresh : freshRegion crates zeroUuid originRegion = fresh
  have hfile : fresh.file.length = recordAreaOffset := by
    rw [← hfresh]
    exact hlen
  have hcoord : fresh.coord = originRegion := by rw [← hfresh]; rfl
  have hentries : fresh.index = RegionIndex.empty 1 := by rw [← hfresh]; rfl
  have hsave : saveChunks crates (.record 0 1) fresh [chestSnapshot []] .none =
      (.error .io, withFile fresh (fresh.file ++ record.take 1)) := by
    have hstop : min 1 (maxFileBytes - fresh.file.length) = 1 := by
      rw [hfile]
      rfl
    rw [← hcoord] at hbatch
    rw [saveChunks, if_neg (by simp), hbatch]
    dsimp only
    rw [if_neg (by simp), if_neg (by rw [hfile]; exact lt_irrefl _)]
    simp only [appendRecords, SaveFault.stopsRecord, if_true, writeAllAtEnd, hstop]
    rfl
  have hreach := freshSaved_reachable hfresh.symm (by simp) hsave
  obtain ⟨m, hinv⟩ := hreach.inv (fun _ => True) fun _ _ _ _ _ => trivial
  refine ⟨_, hreach, compact_unsynced hinv ?_ ?_ 2 ?_⟩
  · rw [withFile, hentries]
    rfl
  · have hlower := (length_encodedRecord crates hrecord).1
    have hlive : (withFile fresh (fresh.file ++ record.take 1)).liveBytes = 0 := by
      rw [RegionFile.liveBytes, withFile, hentries]
      exact Finset.sum_const_zero
    have hlength : (withFile fresh (fresh.file ++ record.take 1)).file.length =
        recordAreaOffset + 1 := by
      rw [withFile, List.length_append, List.length_take, hfile]
      simp only [recordHeaderBytes] at hlower
      omega
    simp only [statsOf, hlive, hlength]
    decide
  · rw [withFile, hentries]
    decide

end Cobblestone.Region
