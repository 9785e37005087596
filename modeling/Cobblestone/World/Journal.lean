import Cobblestone.World.Reachable

namespace Cobblestone.World

open Lib WorldStore

inductive JournalOp where
  | applyPatch (p : ChunkCoord) (patch : ChunkPatch)
  | installGeneratedChunk (p : ChunkCoord) (i : ChunkImport)

def JournalOp.apply : JournalOp → WorldStore → WorldStore
  | .applyPatch p patch, s => (s.applyPatch p patch).2
  | .installGeneratedChunk p i, s => (s.installGeneratedChunk p i).2

def ChunkChanged (c c' : ChunkRecord) : Prop :=
  terrainChanged c c'.data = true ∨ lightChanged c c'.data = true ∨
    c.terrainRevision ≠ c'.terrainRevision ∨ c.lightRevision ≠ c'.lightRevision

def WorldChangeKind.Covers : WorldChangeKind → ChunkRecord → ChunkRecord → Prop
  | .fullChunk, _, _ => True
  | .blocks changes, c, c' =>
    c'.data.states = (applyBlocks c.data.states changes).1 ∧ c'.data.biomes = c.data.biomes ∧
      c'.data.extraData = c.data.extraData ∧ lightChanged c c'.data = false ∧
      c'.lightRevision = c.lightRevision

def Journals (s t : WorldStore) : Prop :=
  ∀ p c c', s.chunks p = some c → t.chunks p = some c' → ChunkChanged c c' →
    ∃ kind : WorldChangeKind, t.changes = s.changes.record p kind ∧ kind.Covers c c'

theorem ChunkChanged.irrefl (c : ChunkRecord) : ¬ ChunkChanged c c := by
  simp [ChunkChanged, terrainChanged, lightChanged]

theorem journals_self (s : WorldStore) : Journals s s := by
  intro p c c' hc hc' hchange
  cases hc.symm.trans hc'
  exact absurd hchange (ChunkChanged.irrefl c)

section Patch

variable {c : ChunkRecord} {patch : ChunkPatch}

theorem recalculateTouched_none (data : ChunkData) :
    recalculateTouched data (fun _ => false) = data := by
  unfold recalculateTouched
  induction List.range chunkColumnCount with
  | nil => rfl
  | cons column columns ih => exact ih

theorem recalculateTouched_keeps (data : ChunkData) (touched : Nat → Bool) :
    ∃ heights, recalculateTouched data touched = { data with heightMap := heights } := by
  unfold recalculateTouched
  generalize List.range chunkColumnCount = columns
  induction columns generalizing data with
  | nil => exact ⟨data.heightMap, rfl⟩
  | cons column columns ih =>
    rw [List.foldl_cons]
    split
    · obtain ⟨heights, hh⟩ := ih (recalculateColumnHeight data column)
      exact ⟨heights, hh⟩
    · exact ih data

theorem changeKind_none (h : changeKind patch = none) :
    patchChangesTerrain patch = false ∧ patchChangesLight patch = false := by
  unfold changeKind at h
  split at h
  · next hk => simpa using hk
  · split at h <;> cases h

theorem changeKind_blocks {changes : List (UInt16 × UInt16)}
    (h : changeKind patch = some (.blocks changes)) :
    changes = patch.blocks ∧ patchChangesLight patch = false ∧ patch.biomes = [] ∧
      patch.extraData = [] := by
  unfold changeKind at h
  split at h
  · cases h
  · split at h
    · next hk =>
      simp only [Bool.and_eq_true, Bool.not_eq_true', List.isEmpty_iff] at hk
      cases h
      exact ⟨rfl, hk.1.1.1, hk.1.1.2, hk.1.2⟩
    · cases h

theorem patchChangesLight_false (h : patchChangesLight patch = false) :
    patch.skyLight = [] ∧ patch.blockLight = [] := by
  simpa [patchChangesLight, List.isEmpty_iff] using h

theorem patchChangesTerrain_false (h : patchChangesTerrain patch = false) :
    patch.blocks = [] ∧ patch.biomes = [] ∧ patch.extraData = [] := by
  simpa [patchChangesTerrain, List.isEmpty_iff, and_assoc] using h

theorem patchData_unchanged (hterrain : patchChangesTerrain patch = false)
    (hlight : patchChangesLight patch = false) (data : ChunkData) : patchData data patch = data := by
  obtain ⟨hsky, hblock⟩ := patchChangesLight_false hlight
  obtain ⟨hblocks, hbiomes, hextra⟩ := patchChangesTerrain_false hterrain
  simp only [patchData, hblocks, hbiomes, hextra, hsky, hblock, applyBlocks, applyNibbles,
    List.foldl_nil, recalculateTouched_none]

theorem patched_unchanged (ha : PatchAccepted c patch) (hk : changeKind patch = none) :
    ¬ ChunkChanged c (patched c patch) := by
  obtain ⟨hterrain, hlight⟩ := changeKind_none hk
  have hdata : patchData c.data patch = c.data := patchData_unchanged hterrain hlight c.data
  have hnt := ha.nextTerrain
  have hnl := ha.nextLight
  rw [hterrain, if_neg (by simp)] at hnt
  rw [hlight, if_neg (by simp)] at hnl
  have heq : patched c patch = c := by
    rw [patched, hdata, ← Option.some.inj hnt, ← Option.some.inj hnl]
  rw [heq]
  exact ChunkChanged.irrefl c

theorem patched_covered (ha : PatchAccepted c patch) {kind : WorldChangeKind}
    (hk : changeKind patch = some kind) : kind.Covers c (patched c patch) := by
  cases kind with
  | fullChunk => trivial
  | blocks changes =>
    obtain ⟨rfl, hlight, hbiomes, hextra⟩ := changeKind_blocks hk
    obtain ⟨hsky, hblock⟩ := patchChangesLight_false hlight
    have hnl := ha.nextLight
    rw [hlight, if_neg (by simp)] at hnl
    simp only [WorldChangeKind.Covers, patched_data, patchData, hbiomes, hextra, hsky, hblock,
      applyNibbles, List.foldl_nil]
    obtain ⟨heights, hh⟩ := recalculateTouched_keeps
      { c.data with states := (applyBlocks c.data.states patch.blocks).1 }
      (applyBlocks c.data.states patch.blocks).2
    rw [hh]
    exact ⟨rfl, rfl, rfl, by simp [lightChanged], (Option.some.inj hnl).symm⟩

end Patch

theorem applyPatch_journals (s : WorldStore) (p : ChunkCoord) (patch : ChunkPatch) :
    Journals s (s.applyPatch p patch).2 := by
  unfold applyPatch
  cases hv : validatePatch patch with
  | error e => exact journals_self s
  | ok u =>
    unfold withChunkMut
    cases hc : s.chunks p with
    | none => exact journals_self s
    | some c =>
      dsimp only
      rcases patchRecord_cases c patch with ⟨e, he⟩ | ⟨ha, he⟩
      · rw [he]
        dsimp only
        rw [setChunk_same hc]
        exact journals_self s
      · rw [he]
        dsimp only
        intro q d d' hd hd' hchange
        by_cases hq : q = p
        · subst hq
          cases hc.symm.trans hd
          cases hk : changeKind patch with
          | none =>
            rw [hk] at hd'
            dsimp only at hd'
            rw [setChunk_self] at hd'
            cases hd'
            exact absurd hchange (patched_unchanged ha hk)
          | some kind =>
            rw [hk] at hd'
            dsimp only at hd'
            rw [recordChange_chunks, setChunk_self] at hd'
            cases hd'
            exact ⟨kind, rfl, patched_covered ha hk⟩
        · have hsame : d' = d := by
            have hkeep : ((s.setChunk p (patched c patch)).chunks q) = some d' := by
              cases hk : changeKind patch with
              | none =>
                rw [hk] at hd'
                exact hd'
              | some kind =>
                rw [hk] at hd'
                exact hd'
            rw [setChunk_of_ne _ _ hq, hd] at hkeep
            exact (Option.some.inj hkeep).symm
          rw [hsame] at hchange
          exact absurd hchange (ChunkChanged.irrefl d)

section Install

variable {c : ChunkRecord} {i : ChunkImport}

-- The generated planes equal the resident ones, or the first revision to advance is exhausted.
def InstallSilent (c : ChunkRecord) (i : ChunkImport) : Prop :=
  (terrainChanged c i.data = false ∧ lightChanged c i.data = false) ∨
    (terrainChanged c i.data = true ∧ checkedSucc c.terrainRevision = none) ∨
    (terrainChanged c i.data = false ∧ lightChanged c i.data = true ∧
      checkedSucc c.lightRevision = none)

theorem checkedSucc_ne {n k : UInt64} (h : checkedSucc n = some k) : n ≠ k := by
  have hk := checkedSucc_toNat h
  rintro rfl
  omega

theorem installOver_silent (h : InstallSilent c i) : ¬ ChunkChanged c (installOver c i).2 := by
  rcases h with ⟨ht, hl⟩ | ⟨ht, hn⟩ | ⟨ht, hl, hn⟩
  · have heq : (installOver c i).2 = { c with lifecycleFlags := i.lifecycleFlags } := by
      simp [installOver, ht, hl]
    rw [heq]
    exact ChunkChanged.irrefl c
  · have heq : (installOver c i).2 = c := by
      simp [installOver, ht, hn]
    rw [heq]
    exact ChunkChanged.irrefl c
  · have heq : (installOver c i).2 = c := by
      simp [installOver, ht, hl, hn]
    rw [heq]
    exact ChunkChanged.irrefl c

theorem installOver_changed (h : ¬ InstallSilent c i) : ChunkChanged c (installOver c i).2 := by
  cases ht : terrainChanged c i.data with
  | true =>
    cases hn : checkedSucc c.terrainRevision with
    | none => exact absurd (.inr (.inl ⟨ht, hn⟩)) h
    | some nextTerrain =>
      refine .inr (.inr (.inl ?_))
      have hne := checkedSucc_ne hn
      cases hm : (if lightChanged c i.data then checkedSucc c.lightRevision
          else some c.lightRevision) with
      | none => simpa [installOver, ht, hn, hm] using hne
      | some nextLight => simpa [installOver, ht, hn, hm] using hne
  | false =>
    cases hl : lightChanged c i.data with
    | false => exact absurd (.inl ⟨ht, hl⟩) h
    | true =>
      cases hn : checkedSucc c.lightRevision with
      | none => exact absurd (.inr (.inr ⟨ht, hl, hn⟩)) h
      | some nextLight =>
        refine .inr (.inr (.inr ?_))
        simpa [installOver, ht, hl, hn] using checkedSucc_ne hn

end Install

def JournalOp.Silent : JournalOp → WorldStore → Prop
  | .applyPatch _ _, _ => True
  | .installGeneratedChunk p i, s =>
    ∀ c, validateImport i = .ok () → s.chunks p = some c → InstallSilent c i

theorem record_ne (log : WorldChangeLog) (p : ChunkCoord) (kind : WorldChangeKind) :
    log ≠ log.record p kind := by
  intro heq
  have hnext := congrArg WorldChangeLog.nextSequence heq
  simp [WorldChangeLog.record] at hnext

theorem installGeneratedChunk_journals_iff (s : WorldStore) (p : ChunkCoord) (i : ChunkImport) :
    Journals s (s.installGeneratedChunk p i).2 ↔
      (JournalOp.installGeneratedChunk p i).Silent s := by
  unfold installGeneratedChunk JournalOp.Silent
  cases hv : validateImport i with
  | error e => exact ⟨fun _ _ h => (by cases hv.symm.trans h), fun _ => journals_self s⟩
  | ok u =>
    cases hc : s.chunks p with
    | none =>
      refine ⟨fun _ _ _ h => (by cases hc.symm.trans h), fun _ q d d' hd hd' hchange => ?_⟩
      by_cases hq : q = p
      · subst hq
        cases hc.symm.trans hd
      · dsimp only at hd'
        rw [setChunk_of_ne _ _ hq] at hd'
        cases hd.symm.trans hd'
        exact absurd hchange (ChunkChanged.irrefl d)
    | some c =>
      dsimp only
      constructor
      · intro hj d _ hd
        cases hc.symm.trans hd
        by_contra hs
        obtain ⟨kind, hlog, -⟩ := hj p c _ hc (setChunk_self _ _ _) (installOver_changed hs)
        exact record_ne s.changes p kind hlog
      · intro hs q d d' hd hd' hchange
        by_cases hq : q = p
        · subst hq
          rw [setChunk_self] at hd'
          cases hc.symm.trans hd
          cases hd'
          exact absurd hchange (installOver_silent (hs c hv hc))
        · rw [setChunk_of_ne _ _ hq] at hd'
          cases hd.symm.trans hd'
          exact absurd hchange (ChunkChanged.irrefl d)

theorem journal_complete_iff (s : WorldStore) (op : JournalOp) :
    Journals s (op.apply s) ↔ op.Silent s := by
  cases op with
  | applyPatch p patch => exact ⟨fun _ => trivial, fun _ => applyPatch_journals s p patch⟩
  | installGeneratedChunk p i => exact installGeneratedChunk_journals_iff s p i

def bareChunk : ChunkRecord := ChunkRecord.empty 0x0192bc59

def originChunk : ChunkCoord := ⟨0, 0⟩

-- A resident chunk of air, and generator output that places one stone block in it.
def bareStore : WorldStore := WorldStore.new.setChunk originChunk bareChunk

def stoneImport : ChunkImport where
  terrainRevision := 0
  lightRevision := 0
  lifecycleFlags := 0
  data := { bareChunk.data with states := bareChunk.data.states.set 0 16 }

theorem stoneImport_valid : validateImport stoneImport = .ok () := by
  have hempty := ChunkData.empty_wellFormed 0x0192bc59 (by decide)
  refine validateImport_ok_iff.mpr ⟨by decide, ?_⟩
  refine ⟨by rw [← hempty.1]; exact List.length_set, hempty.2, hempty.3, hempty.4, hempty.5, ?_,
    hempty.7⟩
  intro state hs
  rcases List.mem_or_eq_of_mem_set hs with hs | rfl
  · exact hempty.6 state hs
  · decide

theorem bareStore_reachable (allowed : ChunkImport → Prop) : bareStore.Reachable allowed := by
  refine .single ⟨.ensureChunk originChunk 1, trivial, ?_⟩
  have hword : defaultBiomeWord 1 = some 0x0192bc59 := by decide
  simp [StoreOp.apply, ensureChunk, hword, containsChunk, WorldStore.new, bareStore, bareChunk]

theorem journal_incomplete_on_resident :
    bareStore = (StoreOp.ensureChunk originChunk 1).apply WorldStore.new ∧
      ¬ Journals bareStore ((JournalOp.installGeneratedChunk originChunk stoneImport).apply
        bareStore) := by
  constructor
  · have hw : defaultBiomeWord 1 = some 0x0192bc59 := by decide
    simp [StoreOp.apply, WorldStore.ensureChunk, hw, WorldStore.containsChunk, WorldStore.new,
      bareStore, bareChunk]
  · intro hj
    have hs := (installGeneratedChunk_journals_iff bareStore originChunk stoneImport).mp hj bareChunk
      stoneImport_valid (setChunk_self _ _ _)
    have hlong : bareChunk.data.states.length = chunkBlockCount := List.length_replicate
    have hstates : bareChunk.data.states ≠ stoneImport.data.states := by
      intro heq
      have hmem : (16 : UInt16) ∈ stoneImport.data.states :=
        List.mem_set (by rw [hlong]; decide) 16
      rw [← heq] at hmem
      exact absurd (List.eq_of_mem_replicate hmem) (by decide)
    have hterrain : terrainChanged bareChunk stoneImport.data = true := by
      simp [terrainChanged, hstates]
    rcases hs with ⟨ht, -⟩ | ⟨-, hn⟩ | ⟨ht, -, -⟩
    · cases hterrain.symm.trans ht
    · revert hn
      decide
    · cases hterrain.symm.trans ht

end Cobblestone.World
