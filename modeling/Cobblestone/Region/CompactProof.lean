import Cobblestone.Region.Compact

namespace Cobblestone.Region

open Lib World Storage

variable {crates : Crates} {allowed : ChunkSnapshot → Prop} {r : RegionFile} {m : SlotMap}

def movedTo (e : IndexEntry) (offset : Nat) : IndexEntry :=
  { e with recordOffset := UInt64.ofNat offset }

theorem movedTo_start {e : IndexEntry} {n : Nat} (hn : n ≤ maxFileBytes) :
    (movedTo e n).start = n :=
  UInt64.toNat_ofNat_of_lt (lt_of_le_of_lt hn (by decide))

theorem recordAt_moved {file temp : Bytes} {e : IndexEntry} (hin : e.stop ≤ file.length)
    (hl : temp.length ≤ maxFileBytes) :
    recordAt (temp ++ recordAt file e) (movedTo e temp.length) = recordAt file e := by
  have hlen : (recordAt file e).length = e.recordLen.toNat := length_sliceAt hin
  have hslice := sliceAt_zero_length (recordAt file e)
  rw [hlen] at hslice
  rw [recordAt, movedTo_start hl, movedTo, sliceAt_append_right (le_refl _), Nat.sub_self, hslice]

theorem Stored.moved {file temp : Bytes} {coord : RegionCoord} {slot : Fin indexEntryCount}
    {e : IndexEntry} {s : ChunkSnapshot} (h : Stored crates file coord slot e s)
    (hlow : recordAreaOffset ≤ temp.length) (hl : temp.length ≤ maxFileBytes) :
    Stored crates (temp ++ recordAt file e) coord slot (movedTo e temp.length) s where
  encoded := by rw [recordAt_moved h.inside hl]; exact h.encoded
  crc := by rw [recordAt_moved h.inside hl]; exact h.crc
  terrain := h.terrain
  light := h.light
  placed := h.placed
  flags := h.flags
  after := by rwa [movedTo_start hl]
  inside := by
    have hlen : (recordAt file e).length = e.recordLen.toNat := length_sliceAt h.inside
    rw [IndexEntry.stop, movedTo_start hl, List.length_append, hlen]
    exact le_refl _

structure Rewritten (r : RegionFile) (m : SlotMap) (slots : List (Fin indexEntryCount))
    (temp : Bytes) (entries : Entries) (m₀ : SlotMap) (temp' : Bytes) (entries' : Entries) :
    Prop where
  grows : ∃ tail, temp' = temp ++ tail
  length : temp'.length = temp.length + (slots.map fun slot => entryLen (r.index.entries slot)).sum
  indexes : Indexes crates temp' r.coord entries' fun slot => if slot ∈ slots then m slot else m₀ slot
  same : ∀ slot ∈ slots, SameEntry crates r.coord slot r.file temp' (r.index.entries slot)
    (entries' slot)
  lens : ∀ slot ∈ slots, entryLen (entries' slot) = entryLen (r.index.entries slot)
  kept : ∀ slot ∉ slots, entries' slot = entries slot

theorem SameEntry.extends {coord : RegionCoord} {slot : Fin indexEntryCount} {file temp grown : Bytes}
    {e e' : Option IndexEntry} (h : SameEntry crates coord slot file temp e e')
    (hx : Extends temp grown) : SameEntry crates coord slot file grown e e' := by
  match e, e', h with
  | none, none, _ => trivial
  | some e, some e', h =>
    obtain ⟨s, hs, hs'⟩ := h.stored
    exact ⟨h.bytes.trans (hx.records hs'.after hs'.inside).symm, s, hs, hs'.extends hx⟩

theorem rewriteRecords_spec (h : RegionInv crates allowed r m) {fault : Option CompactPoint}
    {slots : List (Fin indexEntryCount)} {temp temp' : Bytes} {entries entries' : Entries}
    {m₀ : SlotMap} (hi : Indexes crates temp r.coord entries m₀)
    (hlow : recordAreaOffset ≤ temp.length)
    (hroom : temp.length + (slots.map fun slot => entryLen (r.index.entries slot)).sum ≤ maxFileBytes)
    (hfresh : ∀ slot ∈ slots, entries slot = none) (hnodup : slots.Nodup)
    (hr : rewriteRecords crates r fault slots temp entries = .ok (temp', entries')) :
    @Rewritten crates r m slots temp entries m₀ temp' entries' := by
  induction slots generalizing temp entries m₀ with
  | nil =>
    obtain ⟨rfl, rfl⟩ := Prod.mk.inj (Except.ok.inj hr)
    exact ⟨⟨[], by simp⟩, by simp, by simpa using hi, by simp, by simp, fun _ _ => rfl⟩
  | cons slot slots ih =>
    obtain ⟨hnotin, hnodup⟩ := List.nodup_cons.mp hnodup
    simp only [List.map_cons, List.sum_cons] at hroom
    cases he : r.index.entries slot with
    | none =>
      rw [rewriteRecords, he] at hr
      rw [he] at hroom
      have hw := ih hi hlow (by simpa [entryLen] using hroom)
        (fun s hs => hfresh s (List.mem_cons_of_mem _ hs)) hnodup hr
      have hkept : entries' slot = none := (hw.kept slot hnotin).trans (hfresh slot List.mem_cons_self)
      refine ⟨hw.grows, by simpa [he, entryLen] using hw.length, ?_, ?_, ?_, ?_⟩
      · convert hw.indexes using 1
        funext other
        by_cases heq : other = slot
        · subst heq
          rw [if_pos List.mem_cons_self, if_neg hnotin, h.live.indexes.empty other he]
          exact (hi.empty other (hfresh other List.mem_cons_self)).symm
        · simp [heq]
      · intro other ho
        rcases List.mem_cons.mp ho with rfl | ho
        · rw [he, hkept]
          trivial
        · exact hw.same other ho
      · intro other ho
        rcases List.mem_cons.mp ho with rfl | ho
        · rw [he, hkept]
        · exact hw.lens other ho
      · exact fun other ho => hw.kept other (fun hm => ho (List.mem_cons_of_mem _ hm))
    | some e =>
      obtain ⟨s, hm, hs⟩ := h.live.indexes.stored slot e he
      rw [rewriteRecords, he] at hr
      rw [he] at hroom
      obtain ⟨read, hread, hr⟩ := bind_ok_iff.mp hr
      obtain ⟨_, -, hr⟩ := bind_ok_iff.mp hr
      obtain ⟨decoded, hd, -⟩ := hs.read h.short (hs.chests_of_read h.short hread)
      obtain rfl : read = (recordAt r.file e, decoded) := Except.ok.inj (hread.symm.trans hd)
      have hlen : (recordAt r.file e).length = e.recordLen.toNat := length_sliceAt hs.inside
      have hshort : temp.length ≤ maxFileBytes := le_trans (Nat.le_add_right _ _) hroom
      have hplaced := hi.place (hs.moved hlow hshort) (le_of_eq (movedTo_start hshort).symm)
      have hentry : entryLen (some e) = e.recordLen.toNat := rfl
      have hw := ih hplaced (by rw [List.length_append]; omega)
        (by rw [List.length_append, hlen]; omega)
        (fun other ho => by
          rw [Function.update_of_ne (fun heq : other = slot => hnotin (heq ▸ ho))]
          exact hfresh other (List.mem_cons_of_mem _ ho)) hnodup hr
      obtain ⟨tail, htail⟩ := hw.grows
      have hkept : entries' slot = some (movedTo e temp.length) := by
        rw [hw.kept slot hnotin, Function.update_self]
      refine ⟨⟨recordAt r.file e ++ tail, by rw [htail, List.append_assoc]⟩, ?_, ?_, ?_, ?_, ?_⟩
      · rw [hw.length, List.length_append, hlen, List.map_cons, List.sum_cons, he, hentry]
        omega
      · convert hw.indexes using 1
        funext other
        by_cases heq : other = slot
        · subst heq
          rw [if_pos List.mem_cons_self, if_neg hnotin, Function.update_self, hm]
        · simp [heq]
      · intro other ho
        rcases List.mem_cons.mp ho with rfl | ho
        · rw [he, hkept, htail]
          have hmoved : SameEntry crates r.coord other r.file (temp ++ recordAt r.file e) (some e)
              (some (movedTo e temp.length)) :=
            ⟨(recordAt_moved hs.inside hshort).symm, s, hs, hs.moved hlow hshort⟩
          exact hmoved.extends (.append _ tail)
        · exact hw.same other ho
      · intro other ho
        rcases List.mem_cons.mp ho with rfl | ho
        · rw [he, hkept]
          rfl
        · exact hw.lens other ho
      · intro other ho
        rw [List.mem_cons, not_or] at ho
        rw [hw.kept other ho.2, Function.update_of_ne ho.1]

theorem rewriteRecords_error (h : RegionInv crates allowed r m)
    (hc : ∀ s, allowed s → ChestsFit s) {fault : Option CompactPoint} {slots : List (Fin indexEntryCount)} {temp : Bytes} {entries : Entries} {error : StorageError}
    (hr : rewriteRecords crates r fault slots temp entries = .error error) : error = .io := by
  induction slots generalizing temp entries with
  | nil => cases hr
  | cons slot slots ih =>
    rw [rewriteRecords] at hr
    cases he : r.index.entries slot with
    | none =>
      rw [he] at hr
      exact ih hr
    | some e =>
      obtain ⟨s, hm, hs⟩ := h.live.indexes.stored slot e he
      obtain ⟨decoded, hd, -⟩ := hs.read h.short (hc s (h.live.allowed slot s hm))
      rw [he] at hr
      simp only [hd, ok_bind] at hr
      by_cases hf : fault = some (.copyRecord slot)
      · simp only [hf, ne_eq, not_true_eq_false, decide_false, ensure_false, error_bind] at hr
        exact (Except.error.inj hr).symm
      · simp only [ne_eq, hf, not_false_eq_true, decide_true, ensure_true, ok_bind] at hr
        exact ih hr

structure Replacement (crates : Crates) (allowed : ChunkSnapshot → Prop) (r : RegionFile)
    (m : SlotMap) (next : UInt64) (r' : RegionFile) : Prop where
  inv : RegionInv crates allowed r' m
  quiet : Quiet crates r'
  same : SameRecords crates r r'
  length : r'.file.length = recordAreaOffset + r.liveBytes
  live : r'.liveBytes = r.liveBytes
  chunks : r'.indexedChunks = r.indexedChunks
  coord : r'.coord = r.coord
  worldUuid : r'.worldUuid = r.worldUuid
  generation : r'.index.generation = next
  fallback : sparePage r' = encodeIndexPage crates ⟨r.index.generation, r'.index.entries⟩ r.coord

theorem replacement_of_rewritten (h : RegionInv crates allowed r m) {next : UInt64}
    (hg : checkedSucc r.index.generation = some next) {file : Bytes} {entries : Entries}
    (hw : @Rewritten crates r m (List.finRange indexEntryCount)
      (initialBytes crates r.worldUuid r.coord) (fun _ => none) (fun _ => none) file entries) :
    Replacement crates allowed r m next { r with
      file := putAt (indexPageOffset 0) (encodeIndexPage crates ⟨next, entries⟩ r.coord)
        (putAt (indexPageOffset 1)
          (encodeIndexPage crates ⟨r.index.generation, entries⟩ r.coord) file)
      activePage := 0
      index := ⟨next, entries⟩ } := by
  have hactive := length_encodeIndexPage crates ⟨next, entries⟩ r.coord
  have hfallback := length_encodeIndexPage crates ⟨r.index.generation, entries⟩ r.coord
  have hinitial := length_initialBytes crates r.worldUuid r.coord
  have hlen : file.length = recordAreaOffset + r.liveBytes := by
    rw [hw.length, hinitial, RegionFile.liveBytes, Fin.sum_univ_def]
  have hlong : recordAreaOffset ≤ file.length := by omega
  have hlong₁ : recordAreaOffset ≤ (putAt (indexPageOffset 1)
      (encodeIndexPage crates ⟨r.index.generation, entries⟩ r.coord) file).length := by
    rwa [length_putPage hlong hfallback]
  have hx := (extends_putAt hlong hfallback 1).trans (extends_putAt hlong₁ hactive 0)
  have hlive : r.liveBytes ≤ r.file.length - recordAreaOffset := h.liveBytes_le
  have hshort := h.short
  have hlong₀ := h.long
  obtain ⟨tail, htail⟩ := hw.grows
  have hpage : pageAt (putAt (indexPageOffset 0) (encodeIndexPage crates ⟨next, entries⟩ r.coord)
      (putAt (indexPageOffset 1)
        (encodeIndexPage crates ⟨r.index.generation, entries⟩ r.coord) file)) 1 =
      encodeIndexPage crates ⟨r.index.generation, entries⟩ r.coord :=
    (pageAt_putAt_other hlong₁ hactive 1).trans (pageAt_putAt_self hlong hfallback 1)
  have hindexes : Indexes crates file r.coord entries m := by
    simpa using hw.indexes
  have hindexed : IndexedBy crates allowed _ r.coord entries m :=
    ⟨hindexes.extends hx, h.live.allowed⟩
  have hdecode := decode_encodeIndexPage crates r.coord (hindexes.valid r.index.generation)
  constructor
  case inv =>
    refine ⟨?_, le_trans hlong hx.length, ?_, pageAt_putAt_self hlong₁ hactive 0, hindexed,
      .inr ⟨⟨r.index.generation, entries⟩, m, hpage, hindexed, .inl (checkedSucc_lt hg)⟩⟩
    · rw [header_putAt hlong₁ hactive, header_putAt hlong hfallback, htail,
        header_append (le_of_eq hinitial.symm), initial_header]
    · rw [length_putPage hlong₁ hactive, length_putPage hlong hfallback, hlen]
      omega
  case quiet =>
    intro index hi
    have hspare : decodeIndexPage crates (encodeIndexPage crates ⟨r.index.generation, entries⟩
        r.coord) r.coord = some index := hpage ▸ hi
    cases hdecode.symm.trans hspare
    exact checkedSucc_lt hg
  case same =>
    refine ⟨rfl, fun slot => ?_⟩
    exact (hw.same slot (List.mem_finRange slot)).extends hx
  case length =>
    rw [length_putPage hlong₁ hactive, length_putPage hlong hfallback, hlen]
  case live => exact Finset.sum_congr rfl fun slot _ => hw.lens slot (List.mem_finRange slot)
  case chunks =>
    refine congrArg Finset.card (Finset.filter_congr fun slot _ => ?_)
    have hs := hw.same slot (List.mem_finRange slot)
    show (entries slot).isSome ↔ (r.index.entries slot).isSome
    cases he : r.index.entries slot <;> cases he' : entries slot <;> simp_all [SameEntry]
  case coord => rfl
  case worldUuid => rfl
  case generation => rfl
  case fallback => exact hpage

variable {fault : Option CompactPoint}

theorem buildReplacement_ok (h : RegionInv crates allowed r m) {next : UInt64}
    (hg : checkedSucc r.index.generation = some next) {r' : RegionFile}
    (hb : buildReplacement crates r fault next = .ok r') :
    Replacement crates allowed r m next r' := by
  simp only [buildReplacement, bind_ok_iff] at hb
  obtain ⟨-, -, -, -, ⟨file, entries⟩, hw, -, -, -, -, -, -, hr⟩ := hb
  rw [← Except.ok.inj hr]
  have hinitial := length_initialBytes crates r.worldUuid r.coord
  have hlive : r.liveBytes ≤ r.file.length - recordAreaOffset := h.liveBytes_le
  have hshort := h.short
  have hlong := h.long
  refine replacement_of_rewritten h hg (rewriteRecords_spec h (indexes_empty _ _)
    (le_of_eq hinitial.symm) ?_ (fun _ _ => rfl) (List.nodup_finRange _) hw)
  rw [hinitial, ← Fin.sum_univ_def]
  exact (by omega : recordAreaOffset + r.liveBytes ≤ maxFileBytes)

theorem buildReplacement_error (h : RegionInv crates allowed r m)
    (hc : ∀ s, allowed s → ChestsFit s) {next : UInt64} {error : StorageError}
    (hb : buildReplacement crates r fault next = .error error) : error = .io := by
  have hensure {point : CompactPoint} {next : Unit → Except StorageError RegionFile}
      (he : (ensure (fault ≠ some point) .io >>= next) = .error error) :
      error = .io ∨ next () = .error error := by
    by_cases hf : fault = some point
    · left
      simpa [hf, ensure_false, error_bind, eq_comm] using he
    · right
      simpa [hf, ensure_true, ok_bind] using he
  unfold buildReplacement at hb
  rcases hensure hb with h₁ | hb
  · exact h₁
  rcases hensure hb with h₁ | hb
  · exact h₁
  cases hw : rewriteRecords crates r fault (List.finRange indexEntryCount)
      (initialBytes crates r.worldUuid r.coord) (fun _ => none) with
  | error e =>
    rw [hw, error_bind] at hb
    exact Except.error.inj hb ▸ rewriteRecords_error h hc hw
  | ok built =>
    rw [hw, ok_bind] at hb
    rcases hensure hb with h₁ | hb
    · exact h₁
    rcases hensure hb with h₁ | hb
    · exact h₁
    rcases hensure hb with h₁ | hb
    · exact h₁
    cases hb

inductive CompactCase (crates : Crates) (allowed : ChunkSnapshot → Prop) (r : RegionFile)
    (m : SlotMap) (fault : Option CompactPoint) : CompactOutcome → Prop where
  | clean (hd : (statsOf r).deadBytes = 0) : CompactCase crates allowed r m fault
    ⟨.ok ⟨r.index.generation, r.indexedChunks, 0, statsOf r, statsOf r⟩, r.file, r⟩
  | kept (e : StorageError)
      (he : (∀ s, allowed s → ChestsFit s) → e = .io ∨ e = .indexGenerationExhausted) :
    CompactCase crates allowed r m fault ⟨.error e, r.file, r⟩
  | unsynced {next : UInt64} {r' : RegionFile} (hr : Replacement crates allowed r m next r')
      (hf : fault = some .syncParent) :
    CompactCase crates allowed r m fault ⟨.error .io, r'.file, r'⟩
  | done {next : UInt64} {r' : RegionFile} (hr : Replacement crates allowed r m next r')
      (hd : (statsOf r).deadBytes ≠ 0) :
    CompactCase crates allowed r m fault
      ⟨.ok ⟨next, r'.indexedChunks, (statsOf r).deadBytes, statsOf r, statsOf r'⟩, r'.file, r'⟩

theorem Replacement.smaller (h : RegionInv crates allowed r m) {next : UInt64} {r' : RegionFile}
    (hr : Replacement crates allowed r m next r') :
    r'.file.length ≤ r.file.length ∧ r.file.length - r'.file.length = (statsOf r).deadBytes ∧
      (statsOf r').deadBytes = 0 := by
  have hlive : r.liveBytes ≤ r.file.length - recordAreaOffset := h.liveBytes_le
  have hlong := h.long
  have hlen := hr.length
  have hsame := hr.live
  simp only [statsOf]
  omega

theorem RegionInv.statsAt (h : RegionInv crates allowed r m) (point : CompactPoint)
    (fault : Option CompactPoint) :
    statsAt point fault r = .error .io ∨ statsAt point fault r = .ok (statsOf r) := by
  rw [Region.statsAt]
  split
  · exact .inl rfl
  · exact .inr h.stats_eq

theorem compact_case (h : RegionInv crates allowed r m) (fault : Option CompactPoint) :
    CompactCase crates allowed r m fault (compact crates fault r) := by
  unfold compact
  rcases h.statsAt .statsBefore fault with hbefore | hbefore
  · rw [hbefore]
    exact .kept _ fun _ => .inl rfl
  rw [hbefore]
  dsimp only
  split
  · next hd => exact .clean hd
  · next hd =>
    cases hg : checkedSucc r.index.generation with
    | none => exact .kept _ fun _ => .inr rfl
    | some next =>
      dsimp only
      cases hb : buildReplacement crates r fault next with
      | error e => exact .kept e fun hc => .inl (buildReplacement_error h hc hb)
      | ok r' =>
        have hr := buildReplacement_ok h hg hb
        obtain ⟨hle, hdead, -⟩ := hr.smaller h
        have hsize : ¬ (statsOf r).fileBytes < (statsOf r').fileBytes := not_lt.mpr hle
        have hbytes : (statsOf r).fileBytes - (statsOf r').fileBytes = (statsOf r).deadBytes :=
          hdead
        dsimp only
        rcases hr.inv.statsAt .statsAfter fault with hafter | hafter
        · rw [hafter]
          exact .kept _ fun _ => .inl rfl
        rw [hafter]
        dsimp only
        rw [if_neg hsize, hbytes]
        split
        · exact .kept _ fun _ => .inl rfl
        · split
          · next hf => exact .unsynced hr hf
          · exact .done hr hd

end Cobblestone.Region
