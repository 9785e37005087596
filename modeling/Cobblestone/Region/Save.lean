import Cobblestone.Region.State

namespace Cobblestone.Region

open Lib World Storage

variable {crates : Crates} {allowed : ChunkSnapshot → Prop} {r : RegionFile} {m : SlotMap}

def withFile (r : RegionFile) (file : Bytes) : RegionFile := { r with file := file }

def writeSpare (r : RegionFile) (page : Bytes) : RegionFile :=
  { r with file := putAt (indexPageOffset (otherPage r.activePage)) page r.file }

def committed (crates : Crates) (r : RegionFile) (next : RegionIndex) : RegionFile :=
  { writeSpare r (encodeIndexPage crates next r.coord) with
    activePage := otherPage r.activePage
    index := next }

theorem Behind.extends (h : Behind r) {file : Bytes} (hl : r.file.length ≤ file.length) :
    Behind (withFile r file) := by
  obtain ⟨bound, hlow, hlt, hstop⟩ := h
  exact ⟨bound, hlow, lt_of_lt_of_le hlt hl, hstop⟩

theorem sparePage_grow (hl : recordAreaOffset ≤ r.file.length) (tail : Bytes) :
    sparePage (withFile r (r.file ++ tail)) = sparePage r := pageAt_append hl _

theorem SpareIndex.grow {index : RegionIndex} (hs : SpareIndex crates allowed r index m)
    (hl : recordAreaOffset ≤ r.file.length) (tail : Bytes) :
    SpareIndex crates allowed (withFile r (r.file ++ tail)) index m := by
  have hx := Extends.append r.file tail
  exact ⟨(sparePage_grow hl tail).trans hs.page, hs.indexed.extends hx,
    hs.order.imp id fun ho => ⟨ho.1, ho.2.extends hx.length⟩⟩

theorem RegionInv.grow (h : RegionInv crates allowed r m) {tail : Bytes}
    (hl : (r.file ++ tail).length ≤ maxFileBytes) :
    RegionInv crates allowed (withFile r (r.file ++ tail)) m := by
  have hx := Extends.append r.file tail
  refine ⟨(header_append h.long).trans h.header, le_trans h.long hx.length, hl,
    (pageAt_append h.long _).trans h.active, h.live.extends hx, ?_⟩
  rw [sparePage_grow h.long]
  refine h.spare.imp id ?_
  rintro ⟨index, m', hs⟩
  exact ⟨index, m', hs.grow h.long tail⟩

theorem Quiet.grow (hq : Quiet crates r) (hl : recordAreaOffset ≤ r.file.length) (tail : Bytes) :
    Quiet crates (withFile r (r.file ++ tail)) := by
  intro index hi
  rw [sparePage_grow hl] at hi
  exact hq index hi

section

variable {page : Bytes} (h : RegionInv crates allowed r m) (hp : page.length = indexPageBytes)

include h hp

theorem sparePage_writeSpare : sparePage (writeSpare r page) = page :=
  pageAt_putAt_self h.long hp _

theorem active_writeSpare :
    pageAt (writeSpare r page).file r.activePage = pageAt r.file r.activePage :=
  pageAt_putAt_other h.long hp _

theorem extends_writeSpare : Extends r.file (writeSpare r page).file :=
  extends_putAt h.long hp _

theorem length_writeSpare : (writeSpare r page).file.length = r.file.length :=
  length_putPage h.long hp _

theorem header_writeSpare : sliceAt 0 regionHeaderBytes (writeSpare r page).file =
    encodeRegionHeader crates r.worldUuid r.coord :=
  (header_putAt h.long hp _).trans h.header

theorem RegionInv.writeSpare_unreadable (hd : decodeIndexPage crates page r.coord = none) :
    RegionInv crates allowed (writeSpare r page) m ∧ Quiet crates (writeSpare r page) := by
  have hspare := sparePage_writeSpare h hp
  have hnone : decodeIndexPage crates (sparePage (writeSpare r page)) r.coord = none := by
    rw [hspare, hd]
  refine ⟨⟨header_writeSpare h hp, by rw [length_writeSpare h hp]; exact h.long,
    by rw [length_writeSpare h hp]; exact h.short, (active_writeSpare h hp).trans h.active,
    h.live.extends (extends_writeSpare h hp), .inl hnone⟩, ?_⟩
  intro index hi
  cases hnone.symm.trans hi

end

theorem writeSpare_same (h : RegionInv crates allowed r m) : writeSpare r (sparePage r) = r := by
  have hle := indexPageOffset_le (otherPage r.activePage)
  have hl := h.long
  have hfile : putAt (indexPageOffset (otherPage r.activePage)) (sparePage r) r.file = r.file := by
    rw [putAt, sparePage, pageAt, length_sliceAt (by omega), sliceAt, List.append_assoc,
      ← List.drop_drop, List.take_append_drop, List.take_append_drop]
  rw [writeSpare, hfile]

theorem SpareIndex.written (h : RegionInv crates allowed r m) {index : RegionIndex}
    {m' : SlotMap} (hi : IndexedBy crates allowed r.file r.coord index.entries m')
    (ho : r.index.generation < index.generation) (hb : Behind r) :
    SpareIndex crates allowed (writeSpare r (encodeIndexPage crates index r.coord)) index m' := by
  have hp := length_encodeIndexPage crates index r.coord
  exact ⟨sparePage_writeSpare h hp, hi.extends (extends_writeSpare h hp),
    .inr ⟨ho, hb.extends (le_of_eq (length_writeSpare h hp).symm)⟩⟩

theorem RegionInv.writeSpare_index (h : RegionInv crates allowed r m) {index : RegionIndex}
    {m' : SlotMap} (hi : IndexedBy crates allowed r.file r.coord index.entries m')
    (ho : r.index.generation < index.generation) (hb : Behind r) :
    RegionInv crates allowed (writeSpare r (encodeIndexPage crates index r.coord)) m := by
  have hp := length_encodeIndexPage crates index r.coord
  exact ⟨header_writeSpare h hp, by rw [length_writeSpare h hp]; exact h.long,
    by rw [length_writeSpare h hp]; exact h.short, (active_writeSpare h hp).trans h.active,
    h.live.extends (extends_writeSpare h hp), .inr ⟨index, m', .written h hi ho hb⟩⟩

theorem checkedSucc_lt {n k : UInt64} (h : checkedSucc n = some k) : n < k := by
  have := checkedSucc_toNat h
  exact UInt64.lt_iff_toNat_lt.mpr (by omega)

theorem sparePage_committed (h : RegionInv crates allowed r m) (next : RegionIndex) :
    sparePage (committed crates r next) = encodeIndexPage crates r.index r.coord := by
  have ha := (active_writeSpare h (length_encodeIndexPage crates next r.coord)).trans h.active
  simpa [sparePage, committed] using ha

theorem RegionInv.commit (h : RegionInv crates allowed r m) {next : RegionIndex} {m' : SlotMap}
    (hg : checkedSucc r.index.generation = some next.generation)
    (hi : IndexedBy crates allowed r.file r.coord next.entries m') :
    RegionInv crates allowed (committed crates r next) m' ∧ Quiet crates (committed crates r next) := by
  have hp := length_encodeIndexPage crates next r.coord
  have hspare := sparePage_committed h next
  have hx := extends_writeSpare h hp
  refine ⟨⟨header_writeSpare h hp, le_trans h.long hx.length,
    (length_writeSpare h hp).trans_le h.short, sparePage_writeSpare h hp, hi.extends hx,
    .inr ⟨r.index, m, hspare, h.live.extends hx, .inl (checkedSucc_lt hg)⟩⟩, ?_⟩
  intro index hd
  rw [hspare] at hd
  have hold := decode_encodeIndexPage crates r.coord (h.live.indexes.valid r.index.generation)
  cases hold.symm.trans hd
  exact checkedSucc_lt hg

structure Prepared (crates : Crates) (fault : SaveFault) (r : RegionFile)
    (snapshots : List ChunkSnapshot) (policy : CompressionPolicy) (file : Bytes)
    (next : RegionIndex) : Prop where
  nonempty : snapshots ≠ []
  batch : ∃ encoded, encodeBatch crates r.coord policy (fun _ => false) snapshots = .ok encoded ∧
    appendRecords crates fault 0 encoded r.file r.index.entries = (.ok next.entries, file)
  generation : checkedSucc r.index.generation = some next.generation

def newPage (crates : Crates) (r : RegionFile) (next : RegionIndex) : Bytes :=
  encodeIndexPage crates next r.coord

inductive SaveOutcome (crates : Crates) (fault : SaveFault) (r : RegionFile)
    (snapshots : List ChunkSnapshot) (policy : CompressionPolicy) :
    Except StorageError RegionSaveResult → RegionFile → Prop where
  | idle (hs : snapshots = []) (result : Except StorageError RegionSaveResult) :
    SaveOutcome crates fault r snapshots policy result r
  | refused (e : StorageError) : SaveOutcome crates fault r snapshots policy (.error e) r
  | appended {encoded : List EncodedRecord} {appendResult : Except StorageError Entries}
      {file : Bytes}
      (hb : encodeBatch crates r.coord policy (fun _ => false) snapshots = .ok encoded)
      (ha : appendRecords crates fault 0 encoded r.file r.index.entries = (appendResult, file))
      (e : StorageError) :
    SaveOutcome crates fault r snapshots policy (.error e) (withFile r file)
  | torn {file : Bytes} {next : RegionIndex} {k : Nat}
      (hp : Prepared crates fault r snapshots policy file next) (hf : fault = .page k) :
    SaveOutcome crates fault r snapshots policy (.error .io) (writeSpare (withFile r file)
      (tornPage (sparePage (withFile r file)) (newPage crates r next) k))
  | unsynced {file : Bytes} {next : RegionIndex}
      (hp : Prepared crates fault r snapshots policy file next) (hf : fault = .syncPage) :
    SaveOutcome crates fault r snapshots policy (.error .io)
      (writeSpare (withFile r file) (newPage crates r next))
  | done {file : Bytes} {next : RegionIndex}
      (hp : Prepared crates fault r snapshots policy file next)
      (hf : fault ≠ .syncPage ∧ ∀ k, fault ≠ .page k) :
    SaveOutcome crates fault r snapshots policy
      ((saveStats fault (committed crates (withFile r file) next)).map fun stats =>
        ⟨next.generation, snapshots.length, file.length - r.file.length, stats⟩)
      (committed crates (withFile r file) next)

theorem encodedAs_placed {coord : RegionCoord} {policy : CompressionPolicy}
    {snapshots : List ChunkSnapshot} {encoded : List EncodedRecord}
    (hall : List.Forall₂ (EncodedAs crates coord policy) snapshots encoded) :
    ∀ s ∈ snapshots, RegionCoord.forChunk s.position = coord := by
  induction hall with
  | nil =>
    intro s hs
    cases hs
  | cons he _ ih =>
    intro s hs
    rcases List.mem_cons.mp hs with rfl | hs
    · exact (localIndex_ok he.placed).1
    · exact ih s hs

theorem Prepared.placed {fault : SaveFault} {snapshots : List ChunkSnapshot}
    {policy : CompressionPolicy} {file : Bytes} {next : RegionIndex}
    (hp : Prepared crates fault r snapshots policy file next) :
    ∀ s ∈ snapshots, RegionCoord.forChunk s.position = r.coord := by
  obtain ⟨encoded, hb, -⟩ := hp.batch
  exact encodedAs_placed (encodeBatch_ok crates hb)

theorem saveChunks_outcome (crates : Crates) (fault : SaveFault) (r : RegionFile)
    (snapshots : List ChunkSnapshot) (policy : CompressionPolicy) :
    SaveOutcome crates fault r snapshots policy (saveChunks crates fault r snapshots policy).1
      (saveChunks crates fault r snapshots policy).2 := by
  unfold saveChunks
  by_cases hs : snapshots = []
  · rw [if_pos hs]
    exact .idle hs _
  · rw [if_neg hs]
    cases hb : encodeBatch crates r.coord policy (fun _ => false) snapshots with
    | error e => exact .refused e
    | ok encoded =>
      dsimp only
      split
      · exact .refused .io
      · split
        · exact .refused _
        · cases ha : appendRecords crates fault 0 encoded r.file r.index.entries with
          | mk appendResult file =>
            cases appendResult with
            | error e => exact .appended hb ha e
            | ok entries =>
              dsimp only
              split
              · exact .appended hb ha .io
              · cases hg : checkedSucc r.index.generation with
                | none => exact .appended hb ha .indexGenerationExhausted
                | some generation =>
                  have hp : Prepared crates fault r snapshots policy file ⟨generation, entries⟩ :=
                    ⟨hs, ⟨encoded, hb, ha⟩, hg⟩
                  cases fault with
                  | seekPage => exact .appended hb ha .io
                  | page k => exact .torn hp rfl
                  | syncPage => exact .unsynced hp rfl
                  | _ => exact .done hp ⟨by simp, by simp⟩

theorem SaveOutcome.coord {fault : SaveFault} {snapshots : List ChunkSnapshot}
    {policy : CompressionPolicy} {result : Except StorageError RegionSaveResult} {r' : RegionFile}
    (ho : SaveOutcome crates fault r snapshots policy result r') : r'.coord = r.coord := by
  cases ho <;> rfl

section

variable {fault : SaveFault} {snapshots : List ChunkSnapshot} {policy : CompressionPolicy}
  {file : Bytes} {next : RegionIndex}

theorem putSnapshots_allowed (hm : ∀ slot s, m slot = some s → allowed s)
    (hs : ∀ s ∈ snapshots, allowed s) :
    ∀ slot s, putSnapshots m snapshots slot = some s → allowed s := by
  refine List.foldlRecOn (motive := fun (m : SlotMap) => ∀ slot s, m slot = some s → allowed s)
    snapshots putSnapshot hm ?_
  intro m' hm' snapshot hmem slot s hslot
  by_cases heq : slot = RegionCoord.slotOf snapshot.position
  · rw [heq, putSnapshot, Function.update_self] at hslot
    cases hslot
    exact hs snapshot hmem
  · rw [putSnapshot, Function.update_of_ne heq] at hslot
    exact hm' slot s hslot

variable (h : RegionInv crates allowed r m)
  (hflags : ∀ s ∈ snapshots, s.lifecycleFlags &&& ~~~chunkLifecycleMask = 0)

include h hflags

theorem appended_grows {encoded : List EncodedRecord} {result : Except StorageError Entries}
    (hb : encodeBatch crates r.coord policy (fun _ => false) snapshots = .ok encoded)
    (ha : appendRecords crates fault 0 encoded r.file r.index.entries = (result, file)) :
    ∃ tail, file = r.file ++ tail ∧ (r.file ++ tail).length ≤ maxFileBytes := by
  obtain ⟨⟨tail, rfl⟩, hl, -⟩ := appendRecords_spec (encodeBatch_ok crates hb) hflags
    h.live.indexes h.long h.short ha
  exact ⟨tail, rfl, hl⟩

theorem Prepared.grown (hp : Prepared crates fault r snapshots policy file next)
    (hallowed : ∀ s ∈ snapshots, allowed s) :
    RegionInv crates allowed (withFile r file) m ∧
      IndexedBy crates allowed file r.coord next.entries (putSnapshots m snapshots) ∧
      Behind (withFile r file) ∧ sparePage (withFile r file) = sparePage r ∧
      (Quiet crates r → Quiet crates (withFile r file)) ∧
      Prepared crates .none r snapshots policy file next := by
  obtain ⟨encoded, hb, ha⟩ := hp.batch
  obtain ⟨⟨tail, rfl⟩, hl, hnext⟩ := appendRecords_spec (encodeBatch_ok crates hb) hflags
    h.live.indexes h.long h.short ha
  obtain ⟨hi, hgrow, hsame⟩ := hnext next.entries rfl
  refine ⟨h.grow hl, ⟨hi, putSnapshots_allowed h.live.allowed hallowed⟩, ?_,
    pageAt_append h.long _, fun hq => hq.grow h.long tail,
    ⟨hp.nonempty, ⟨encoded, hb, hsame⟩, hp.generation⟩⟩
  refine ⟨r.file.length, h.long, hgrow hp.nonempty, ?_⟩
  intro slot e he
  obtain ⟨s, -, hs⟩ := h.live.indexes.stored slot e he
  exact hs.inside

end

def tornPageOf (crates : Crates) (r : RegionFile) (next : RegionIndex) (k : Nat) : Bytes :=
  tornPage (sparePage r) (newPage crates r next) k

theorem length_tornPage {old new : Bytes} (ho : old.length = indexPageBytes)
    (hn : new.length = indexPageBytes) (k : Nat) : (tornPage old new k).length = indexPageBytes := by
  rw [tornPage, List.length_append, List.length_take, List.length_drop]
  omega

-- A page write that stopped midway leaves the old page, the new page, or bytes its checksum rejects.
def TornDetected (crates : Crates) (fault : SaveFault) (r : RegionFile)
    (snapshots : List ChunkSnapshot) (policy : CompressionPolicy) : Prop :=
  ∀ k file next, fault = .page k → Prepared crates .none r snapshots policy file next →
    decodeIndexPage crates (tornPageOf crates r next k) r.coord = none ∨
      tornPageOf crates r next k = sparePage r ∨
      tornPageOf crates r next k = newPage crates r next

-- No failure is reported once the new page has reached the file.
def PageSettled (crates : Crates) (fault : SaveFault) (r : RegionFile)
    (snapshots : List ChunkSnapshot) (policy : CompressionPolicy) : Prop :=
  fault ≠ .syncPage ∧ ∀ k file next, fault = .page k →
    Prepared crates .none r snapshots policy file next →
    tornPageOf crates r next k ≠ newPage crates r next

section

variable {fault : SaveFault} {snapshots : List ChunkSnapshot} {policy : CompressionPolicy}
  {result : Except StorageError RegionSaveResult} {r' : RegionFile}

theorem RegionInv.save (h : RegionInv crates allowed r m)
    (hflags : ∀ s ∈ snapshots, s.lifecycleFlags &&& ~~~chunkLifecycleMask = 0)
    (hallowed : ∀ s ∈ snapshots, allowed s)
    (hd : TornDetected crates fault r snapshots policy)
    (ho : SaveOutcome crates fault r snapshots policy result r') :
    ∃ m', RegionInv crates allowed r' m' := by
  cases ho with
  | idle hs => exact ⟨m, h⟩
  | refused e => exact ⟨m, h⟩
  | appended hb ha e =>
    obtain ⟨tail, rfl, hl⟩ := appended_grows h hflags hb ha
    exact ⟨m, h.grow hl⟩
  | @torn file next k hp hf =>
    obtain ⟨hg, hi, hbehind, hspare, -, hnone⟩ := hp.grown h hflags hallowed
    rw [hspare]
    have hlen : (tornPageOf crates r next k).length = indexPageBytes :=
      length_tornPage (length_pageAt h.long _) (length_encodeIndexPage crates next r.coord) k
    rcases hd k file next hf hnone with hd | hd | hd
    · exact ⟨m, (hg.writeSpare_unreadable hlen hd).1⟩
    · refine ⟨m, ?_⟩
      rw [← tornPageOf, hd, ← hspare, writeSpare_same hg]
      exact hg
    · refine ⟨m, ?_⟩
      rw [← tornPageOf, hd]
      exact hg.writeSpare_index hi (checkedSucc_lt hp.generation) hbehind
  | unsynced hp hf =>
    obtain ⟨hg, hi, hbehind, -, -, -⟩ := hp.grown h hflags hallowed
    exact ⟨m, hg.writeSpare_index hi (checkedSucc_lt hp.generation) hbehind⟩
  | done hp hf =>
    obtain ⟨hg, hi, -, -, -, -⟩ := hp.grown h hflags hallowed
    exact ⟨_, (hg.commit hp.generation hi).1⟩

theorem RegionInv.save_quiet (h : RegionInv crates allowed r m) (hq : Quiet crates r)
    (hflags : ∀ s ∈ snapshots, s.lifecycleFlags &&& ~~~chunkLifecycleMask = 0)
    (hallowed : ∀ s ∈ snapshots, allowed s)
    (hd : TornDetected crates fault r snapshots policy)
    (hs : PageSettled crates fault r snapshots policy)
    (ho : SaveOutcome crates fault r snapshots policy result r') :
    Quiet crates r' ∧
      ((RegionInv crates allowed r' m ∧ ∀ value, result = .ok value → snapshots = []) ∨
        (RegionInv crates allowed r' (putSnapshots m snapshots) ∧
          (∀ s ∈ snapshots, RegionCoord.forChunk s.position = r.coord) ∧
          ∃ f : RegionStats → RegionSaveResult, result = (saveStats fault r').map f)) := by
  cases ho with
  | idle hnil => exact ⟨hq, .inl ⟨h, fun _ _ => hnil⟩⟩
  | refused e => exact ⟨hq, .inl ⟨h, fun _ hr => by cases hr⟩⟩
  | appended hb ha e =>
    obtain ⟨tail, rfl, hl⟩ := appended_grows h hflags hb ha
    exact ⟨hq.grow h.long tail, .inl ⟨h.grow hl, fun _ hr => by cases hr⟩⟩
  | @torn file next k hp hf =>
    obtain ⟨hg, hi, hbehind, hspare, hquiet, hnone⟩ := hp.grown h hflags hallowed
    rw [hspare]
    have hlen : (tornPageOf crates r next k).length = indexPageBytes :=
      length_tornPage (length_pageAt h.long _) (length_encodeIndexPage crates next r.coord) k
    rcases hd k file next hf hnone with hd | hd | hd
    · obtain ⟨hinv, hq'⟩ := hg.writeSpare_unreadable hlen hd
      exact ⟨hq', .inl ⟨hinv, fun _ hr => by cases hr⟩⟩
    · rw [← tornPageOf, hd, ← hspare, writeSpare_same hg]
      exact ⟨hquiet hq, .inl ⟨hg, fun _ hr => by cases hr⟩⟩
    · exact absurd hd (hs.2 k file next hf hnone)
  | unsynced hp hf => exact absurd hf hs.1
  | done hp hf =>
    obtain ⟨hg, hi, -, -, -, -⟩ := hp.grown h hflags hallowed
    obtain ⟨hinv, hq'⟩ := hg.commit hp.generation hi
    exact ⟨hq', .inr ⟨hinv, hp.placed, _, rfl⟩⟩

end

end Cobblestone.Region
