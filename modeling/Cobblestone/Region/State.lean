import Cobblestone.Region.Records

namespace Cobblestone.Region

open Lib World Storage

section Pages

variable {file page tail : Bytes} (hl : recordAreaOffset ≤ file.length)

theorem indexPageOffset_le (i : Fin 2) : indexPageOffset i + indexPageBytes ≤ recordAreaOffset := by
  fin_cases i <;> decide

theorem otherPage_ne (i : Fin 2) : otherPage i ≠ i := by
  fin_cases i <;> decide

@[simp] theorem otherPage_otherPage (i : Fin 2) : otherPage (otherPage i) = i := by
  fin_cases i <;> rfl

theorem page_apart (i : Fin 2) :
    indexPageOffset i + indexPageBytes ≤ indexPageOffset (otherPage i) ∨
      indexPageOffset (otherPage i) + indexPageBytes ≤ indexPageOffset i := by
  fin_cases i <;> decide

theorem header_before_page (i : Fin 2) : regionHeaderBytes ≤ indexPageOffset i :=
  Nat.le_add_right _ _

include hl

theorem length_pageAt (i : Fin 2) : (pageAt file i).length = indexPageBytes :=
  length_sliceAt (le_trans (indexPageOffset_le i) hl)

theorem pageAt_append (i : Fin 2) : pageAt (file ++ tail) i = pageAt file i :=
  sliceAt_append_left (le_trans (indexPageOffset_le i) hl)

theorem header_append : sliceAt 0 regionHeaderBytes (file ++ tail) = sliceAt 0 regionHeaderBytes file :=
  sliceAt_append_left (le_trans (by decide) hl)

variable (hp : page.length = indexPageBytes)

include hp

theorem pageAt_putAt_self (i : Fin 2) : pageAt (putAt (indexPageOffset i) page file) i = page := by
  have h := indexPageOffset_le i
  rw [pageAt, ← hp]
  exact sliceAt_putAt_self (by omega)

theorem pageAt_putAt_other (i : Fin 2) :
    pageAt (putAt (indexPageOffset (otherPage i)) page file) i = pageAt file i := by
  have h := indexPageOffset_le (otherPage i)
  refine sliceAt_putAt_disjoint (by omega) ?_
  rw [hp]
  exact page_apart i

theorem header_putAt (i : Fin 2) : sliceAt 0 regionHeaderBytes (putAt (indexPageOffset i) page file) =
    sliceAt 0 regionHeaderBytes file := by
  have h := indexPageOffset_le i
  refine sliceAt_putAt_disjoint (by omega) (.inl ?_)
  rw [Nat.zero_add]
  exact header_before_page i

theorem extends_putAt (i : Fin 2) : Extends file (putAt (indexPageOffset i) page file) :=
  Extends.putAt (by rw [hp]; exact indexPageOffset_le i) hl

theorem length_putPage (i : Fin 2) : (putAt (indexPageOffset i) page file).length = file.length :=
  length_putAt (by rw [hp]; exact le_trans (indexPageOffset_le i) hl)

end Pages

variable (crates : Crates) (allowed : ChunkSnapshot → Prop)

structure IndexedBy (file : Bytes) (coord : RegionCoord) (entries : Entries) (m : SlotMap) :
    Prop where
  indexes : Indexes crates file coord entries m
  allowed : ∀ slot s, m slot = some s → allowed s

def Behind (r : RegionFile) : Prop :=
  ∃ bound, recordAreaOffset ≤ bound ∧ bound < r.file.length ∧
    ∀ slot e, r.index.entries slot = some e → e.stop ≤ bound

def sparePage (r : RegionFile) : Bytes := pageAt r.file (otherPage r.activePage)

-- What the page that the handle does not use may hold: nothing readable, an older index, or the
-- index of a commit whose final sync was reported as failed.
structure SpareIndex (r : RegionFile) (index : RegionIndex) (m : SlotMap) : Prop where
  page : sparePage r = encodeIndexPage crates index r.coord
  indexed : IndexedBy crates allowed r.file r.coord index.entries m
  order : index.generation < r.index.generation ∨
    (r.index.generation < index.generation ∧ Behind r)

structure RegionInv (r : RegionFile) (m : SlotMap) : Prop where
  header : sliceAt 0 regionHeaderBytes r.file = encodeRegionHeader crates r.worldUuid r.coord
  long : recordAreaOffset ≤ r.file.length
  short : r.file.length ≤ maxFileBytes
  active : pageAt r.file r.activePage = encodeIndexPage crates r.index r.coord
  live : IndexedBy crates allowed r.file r.coord r.index.entries m
  spare : decodeIndexPage crates (sparePage r) r.coord = none ∨
    ∃ index m', SpareIndex crates allowed r index m'

def Quiet (r : RegionFile) : Prop :=
  ∀ index, decodeIndexPage crates (sparePage r) r.coord = some index →
    index.generation < r.index.generation

section

variable {crates allowed} {r : RegionFile} {m : SlotMap}

theorem IndexedBy.extends {file grown : Bytes} {coord : RegionCoord} {entries : Entries}
    (h : IndexedBy crates allowed file coord entries m) (hx : Extends file grown) :
    IndexedBy crates allowed grown coord entries m :=
  ⟨h.indexes.extends hx, h.allowed⟩

theorem RegionInv.decode_active (h : RegionInv crates allowed r m) :
    decodeIndexPage crates (pageAt r.file r.activePage) r.coord = some r.index := by
  rw [h.active]
  exact decode_encodeIndexPage crates r.coord (h.live.indexes.valid r.index.generation)

theorem SpareIndex.decode {index : RegionIndex} {m' : SlotMap}
    (h : SpareIndex crates allowed r index m') :
    decodeIndexPage crates (sparePage r) r.coord = some index := by
  rw [h.page]
  exact decode_encodeIndexPage crates r.coord (h.indexed.indexes.valid index.generation)

theorem fromOpenFile_eq {file : Bytes} {worldUuid : WorldUuid} {coord : RegionCoord}
    (hl : recordAreaOffset ≤ file.length)
    (hh : sliceAt 0 regionHeaderBytes file = encodeRegionHeader crates worldUuid coord) :
    fromOpenFile crates file worldUuid coord =
      (selectIndex (decodeIndexPage crates (pageAt file 0) coord)
        (decodeIndexPage crates (pageAt file 1) coord) >>= fun p =>
          .ok ⟨file, worldUuid, coord, p.1, p.2⟩) := by
  have hread (offset n : Nat) (h : offset + n ≤ recordAreaOffset) :
      readExactAt file offset n = .ok (sliceAt offset n file) := if_pos (le_trans h hl)
  have hheader := hread 0 regionHeaderBytes (by decide)
  have hpage (i : Fin 2) : readExactAt file (indexPageOffset i) indexPageBytes =
      .ok (pageAt file i) := hread _ _ (indexPageOffset_le i)
  rw [hh] at hheader
  rw [fromOpenFile, hheader, ok_bind, validate_encodeRegionHeader, ok_bind, hpage 0, ok_bind,
    hpage 1, ok_bind]
  rfl

theorem selectIndex_active {i : Fin 2} {file : Bytes} {coord : RegionCoord} {index : RegionIndex}
    (ha : decodeIndexPage crates (pageAt file i) coord = some index)
    (hs : ∀ other, decodeIndexPage crates (pageAt file (otherPage i)) coord = some other →
      other.generation < index.generation) :
    selectIndex (decodeIndexPage crates (pageAt file 0) coord)
      (decodeIndexPage crates (pageAt file 1) coord) = .ok (i, index) := by
  rcases Fin.exists_fin_two.mp ⟨i, rfl⟩ with rfl | rfl
  · rw [ha]
    cases hb : decodeIndexPage crates (pageAt file 1) coord with
    | none => rfl
    | some other => exact if_neg (UInt64.lt_asymm (hs other hb))
  · rw [ha]
    cases hb : decodeIndexPage crates (pageAt file 0) coord with
    | none => rfl
    | some other => exact if_pos (hs other hb)

theorem RegionInv.reopen_quiet (h : RegionInv crates allowed r m) (hq : Quiet crates r) :
    fromOpenFile crates r.file r.worldUuid r.coord = .ok r := by
  rw [fromOpenFile_eq h.long h.header, selectIndex_active h.decode_active hq]
  rfl

theorem openOrCreate_long {file : Bytes} (hl : recordAreaOffset ≤ file.length)
    (worldUuid : WorldUuid) (coord : RegionCoord) :
    openOrCreate crates file worldUuid coord = fromOpenFile crates file worldUuid coord := by
  have hz : file.length ≠ 0 := by
    intro hz
    rw [hz] at hl
    exact absurd hl (by decide)
  rw [openOrCreate, if_neg hz, if_neg (not_lt.mpr hl)]

def usingSpare (r : RegionFile) (index : RegionIndex) : RegionFile :=
  { r with activePage := otherPage r.activePage, index := index }

theorem RegionInv.usingSpare (h : RegionInv crates allowed r m) {index : RegionIndex} {m' : SlotMap}
    (hs : SpareIndex crates allowed r index m') (hlt : r.index.generation < index.generation) :
    RegionInv crates allowed (usingSpare r index) m' ∧ Quiet crates (usingSpare r index) := by
  have hspare : sparePage (Region.usingSpare r index) = pageAt r.file r.activePage := by
    simp [sparePage, Region.usingSpare]
  have hdecode : decodeIndexPage crates (sparePage (Region.usingSpare r index)) r.coord =
      some r.index := hspare ▸ h.decode_active
  refine ⟨⟨h.header, h.long, h.short, hs.page, hs.indexed, .inr ⟨r.index, m, ?_⟩⟩, ?_⟩
  · exact ⟨hspare.trans h.active, h.live, .inl hlt⟩
  · intro other ho
    cases hdecode.symm.trans ho
    exact hlt

theorem RegionInv.reopen (h : RegionInv crates allowed r m) :
    ∃ r' m', fromOpenFile crates r.file r.worldUuid r.coord = .ok r' ∧
      RegionInv crates allowed r' m' ∧ Quiet crates r' ∧ r'.file = r.file := by
  rcases h.spare with hn | ⟨index, m', hs⟩
  · have hq : Quiet crates r := by
      intro index hi
      rw [hn] at hi
      cases hi
    exact ⟨r, m, h.reopen_quiet hq, h, hq, rfl⟩
  · rcases hs.order with hlt | ⟨hlt, -⟩
    · have hq : Quiet crates r := by
        intro other ho
        cases hs.decode.symm.trans ho
        exact hlt
      exact ⟨r, m, h.reopen_quiet hq, h, hq, rfl⟩
    · obtain ⟨hinv, hq⟩ := h.usingSpare hs hlt
      exact ⟨_, m', hinv.reopen_quiet hq, hinv, hq, rfl⟩

end

end Cobblestone.Region
