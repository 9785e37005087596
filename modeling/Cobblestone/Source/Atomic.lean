import Cobblestone.Source.MainChunkSource
import Cobblestone.World.Install

namespace Cobblestone.Source

open Lib World

variable {native : NativeWorld} {source : MainChunkSource} {store : WorldStore} {p q : ChunkCoord}

def GeneratorCall.Makes (p : ChunkCoord) : GeneratorCall → Prop
  | .construct q biome => q = p ∧ (defaultBiomeWord biome).isSome
  | .installGenerated q i => q = p ∧ validateImport i = .ok ()
  | .write .. => False

-- Not resident, and known to have no durable record where storage is attached.
structure Awaits (p : ChunkCoord) (native : NativeWorld) : Prop where
  absent : native.store.chunks p = none
  missing : ∀ storage, native.storage = some storage → p ∈ storage.loadMissing

def Resident (p : ChunkCoord) (native : NativeWorld) : Prop := (native.store.chunks p).isSome

theorem Awaits.withStore (h : Awaits p native) (hp : store.chunks p = none) :
    Awaits p { native with store := store } := ⟨hp, h.missing⟩

theorem Awaits.clearMissing (h : Awaits p native) (hq : q ≠ p) :
    Awaits p (native.clearMissing q) where
  absent := h.absent
  missing storage hstorage := by
    obtain ⟨before, hbefore, rfl⟩ := Option.map_eq_some_iff.mp hstorage
    exact Finset.mem_erase.mpr ⟨hq.symm, h.missing before hbefore⟩

theorem isSome_setChunk {c : ChunkRecord} (h : (store.chunks p).isSome) :
    ((store.setChunk q c).chunks p).isSome := by
  by_cases hp : p = q
  · subst hp
    rw [WorldStore.setChunk_self]
    rfl
  · rwa [WorldStore.setChunk_of_ne _ _ hp]

theorem ensureChunk_cases (store : WorldStore) (q : ChunkCoord) (biome : UInt8) :
    (∃ result, result ≠ .ok true ∧ store.ensureChunk q biome = (result, store) ∧
        ((defaultBiomeWord biome).isSome → (store.chunks q).isSome)) ∨
      ∃ word, defaultBiomeWord biome = some word ∧
        store.ensureChunk q biome = (.ok true, store.setChunk q (ChunkRecord.empty word)) := by
  rw [WorldStore.ensureChunk]
  cases hword : defaultBiomeWord biome with
  | none =>
    refine .inl ⟨.error (.invalidBiome biome), ?_, rfl, ?_⟩
    · simp
    · simp
  | some word =>
    dsimp only
    split
    · next hcontains => exact .inl ⟨.ok false, by simp, rfl, fun _ => hcontains⟩
    · exact .inr ⟨word, rfl, rfl⟩

theorem installGeneratedChunk_cases (store : WorldStore) (q : ChunkCoord) (i : ChunkImport) :
    (∃ e, validateImport i = .error e ∧ store.installGeneratedChunk q i = (.error e, store)) ∨
      ∃ result c, validateImport i = .ok () ∧
        store.installGeneratedChunk q i = (result, store.setChunk q c) := by
  rw [WorldStore.installGeneratedChunk]
  cases validateImport i with
  | error e => exact .inl ⟨e, rfl, rfl⟩
  | ok u =>
    refine .inr ?_
    cases store.chunks q with
    | none => exact ⟨_, _, rfl, rfl⟩
    | some c => exact ⟨_, _, rfl, rfl⟩

theorem Awaits.ensureChunk (h : Awaits p native) {biome : UInt8}
    (hother : ¬(GeneratorCall.construct q biome).Makes p) :
    Awaits p (native.ensureChunk q biome).2 := by
  rw [NativeWorld.ensureChunk]
  rcases ensureChunk_cases native.store q biome with ⟨result, hne, heq, -⟩ | ⟨word, hword, heq⟩
  · rw [heq]
    split
    · next hresult =>
      cases hresult
      exact absurd rfl hne
    · next hresult =>
      cases hresult
      exact h
  · have hq : q ≠ p := fun hq => hother ⟨hq, by rw [hword]; rfl⟩
    rw [heq]
    refine Awaits.clearMissing (h.withStore ?_) hq
    rw [WorldStore.setChunk_of_ne _ _ hq.symm]
    exact h.absent

theorem Awaits.installGenerated (h : Awaits p native) {i : ChunkImport}
    (hother : ¬(GeneratorCall.installGenerated q i).Makes p) :
    Awaits p (native.installGenerated q i) := by
  rw [NativeWorld.installGenerated]
  rcases installGeneratedChunk_cases native.store q i with ⟨e, -, heq⟩ | ⟨result, c, hi, heq⟩
  · rw [heq]
    exact h
  · have hq : q ≠ p := fun hq => hother ⟨hq, hi⟩
    have habsent : (native.store.setChunk q c).chunks p = none := by
      rw [WorldStore.setChunk_of_ne _ _ hq.symm]
      exact h.absent
    rw [heq]
    cases result with
    | error e => exact h.withStore habsent
    | ok changed => exact Awaits.clearMissing (h.withStore habsent) hq

theorem Awaits.perform (call : GeneratorCall) (native : NativeWorld) (hother : ¬call.Makes p)
    (h : Awaits p native) : Awaits p (call.perform native) := by
  cases call with
  | construct q biome => exact h.ensureChunk hother
  | installGenerated q i => exact h.installGenerated hother
  | write op rewrites => exact h.withStore ((op.advanced rewrites native.store).absent p h.absent)

theorem Resident.perform (call : GeneratorCall) (native : NativeWorld) (h : Resident p native) :
    Resident p (call.perform native) := by
  cases call with
  | construct q biome =>
    rw [GeneratorCall.perform, NativeWorld.ensureChunk]
    rcases ensureChunk_cases native.store q biome with ⟨result, hne, heq, -⟩ | ⟨word, -, heq⟩
    · rw [heq]
      split
      · next hresult =>
        cases hresult
        exact h
      · next hresult =>
        cases hresult
        exact h
    · rw [heq]
      exact isSome_setChunk h
  | installGenerated q i =>
    rw [GeneratorCall.perform, NativeWorld.installGenerated]
    rcases installGeneratedChunk_cases native.store q i with ⟨e, -, heq⟩ | ⟨result, c, -, heq⟩
    · rw [heq]
      exact h
    · rw [heq]
      cases result with
      | error e => exact isSome_setChunk h
      | ok changed => exact isSome_setChunk h
  | write op rewrites =>
    obtain ⟨c, hc⟩ := Option.isSome_iff_exists.mp h
    obtain ⟨c', hc', -⟩ := (op.advanced rewrites native.store).kept p c hc
    exact Option.isSome_iff_exists.mpr ⟨c', hc'⟩

theorem resident_of_makes (call : GeneratorCall) (native : NativeWorld) (h : call.Makes p) :
    Resident p (call.perform native) := by
  cases call with
  | construct q biome =>
    obtain ⟨rfl, hbiome⟩ := h
    rw [GeneratorCall.perform, NativeWorld.ensureChunk]
    rcases ensureChunk_cases native.store q biome with ⟨result, hne, heq, hcontains⟩ |
      ⟨word, -, heq⟩
    · have hresident : (native.store.chunks q).isSome := hcontains hbiome
      rw [heq]
      split
      · next hresult =>
        cases hresult
        exact hresident
      · next hresult =>
        cases hresult
        exact hresident
    · rw [heq]
      exact Option.isSome_iff_exists.mpr ⟨_, WorldStore.setChunk_self ..⟩
  | installGenerated q i =>
    obtain ⟨rfl, hi⟩ := h
    rw [GeneratorCall.perform, NativeWorld.installGenerated]
    rcases installGeneratedChunk_cases native.store q i with ⟨e, he, -⟩ | ⟨result, c, -, heq⟩
    · rw [hi] at he
      cases he
    · rw [heq]
      cases result with
      | error e => exact Option.isSome_iff_exists.mpr ⟨_, WorldStore.setChunk_self ..⟩
      | ok changed => exact Option.isSome_iff_exists.mpr ⟨_, WorldStore.setChunk_self ..⟩
  | write op rewrites => exact h.elim

namespace MainChunkSource

def generateCalls (source : MainChunkSource) (p : ChunkCoord) : List GeneratorCall :=
  (source.generator.generate p source.seed source.nativeStore).calls GeneratorCall.perform
    source.nativeStore

def populateCalls (source : MainChunkSource) (p : ChunkCoord) : List GeneratorCall :=
  (source.generator.populate p source.seed source.nativeStore).calls GeneratorCall.perform
    source.nativeStore

def bodyCalls (source : MainChunkSource) (p : ChunkCoord) : List GeneratorCall :=
  source.generateCalls p ++
    match source.runGenerate p with
    | (.error _, _) => []
    | (.ok generated, source) =>
      if generated ≠ p then []
      else
        match source.mark p chunkLifecycleGenerated with
        | (.error _, _) => []
        | (.ok (), source) => source.populateCalls p

-- Every call to the native store that the generator gets to make.
def callsMade (source : MainChunkSource) (p : ChunkCoord) : List GeneratorCall :=
  (source.enter p).bodyCalls p

structure Ungenerated (source : MainChunkSource) (p : ChunkCoord) : Prop where
  unknown : p ∉ source.chunks
  awaits : Awaits p source.nativeStore
  idle : p ∉ source.loading

theorem Ungenerated.getOrGenerate (h : source.Ungenerated p) :
    source.getOrGenerate p = source.generate p := by
  rw [MainChunkSource.getOrGenerate, if_neg h.unknown]
  cases hstorage : source.nativeStore.storage with
  | none => rfl
  | some storage =>
    have hcontains : ¬source.nativeStore.store.containsChunk p = true := by
      rw [WorldStore.containsChunk, h.awaits.absent]
      exact Bool.false_ne_true
    have hrequest : source.nativeStore.requestStorageLoad storage p =
        (.ok .missing, source.nativeStore) := by
      rw [NativeWorld.requestStorageLoad, if_neg hcontains,
        if_pos (h.awaits.missing storage hstorage)]
    dsimp only
    rw [hrequest]
    rfl

theorem awaits_runGenerate (h : Awaits p source.nativeStore)
    (hcalls : ∀ call ∈ source.generateCalls p, ¬call.Makes p) :
    Awaits p (source.runGenerate p).2.nativeStore :=
  Script.run_keeps (fun call native hother hawaits => hawaits.perform call native hother) hcalls h

theorem resident_runGenerate {call : GeneratorCall} (hcall : call ∈ source.generateCalls p)
    (hmakes : call.Makes p) : Resident p (source.runGenerate p).2.nativeStore :=
  Script.run_reaches (fun call native => resident_of_makes call native)
    (fun call native => Resident.perform call native) hcall hmakes

theorem resident_runPopulate (h : Resident p source.nativeStore) :
    Resident p (source.runPopulate p).2.nativeStore :=
  Script.run_always (fun call native => Resident.perform call native) h

theorem resident_mark {flag : UInt8} (h : (source.mark p flag).1 = .ok ()) :
    Resident p source.nativeStore ∧ Resident p (source.mark p flag).2.nativeStore := by
  have hflags : Resident p source.nativeStore := by
    cases hp : source.nativeStore.store.chunks p with
    | some c => exact Option.isSome_iff_exists.mpr ⟨c, hp⟩
    | none =>
      rw [mark, NativeWorld.mark, NativeWorld.lifecycleFlags, WorldStore.withChunk, hp] at h
      cases h
  refine ⟨hflags, ?_⟩
  rw [mark, NativeWorld.mark]
  split
  · exact hflags
  · exact Resident.perform (.write (.setLifecycleFlags p _) trivial) source.nativeStore hflags

theorem mark_not_thrown {flag : UInt8} {message : String} :
    (source.mark p flag).1 ≠ .error (.thrown message) := by
  have hnative {α : Type} (x : Except WorldStoreError α) :
      x.mapError SourceError.native ≠ .error (.thrown message) := by
    cases x with
    | error e => exact fun h => nomatch h
    | ok a => exact fun h => nomatch h
  rw [mark, NativeWorld.mark]
  cases hflags : source.nativeStore.lifecycleFlags p with
  | error e =>
    intro h
    exact hnative _ (hflags.trans (congrArg Except.error (Except.error.inj h)))
  | ok flags => exact hnative _

theorem exists_makes_of_resident (h : Awaits p source.nativeStore)
    (hresident : Resident p (source.runGenerate p).2.nativeStore) :
    ∃ call ∈ source.generateCalls p, call.Makes p := by
  by_contra hnone
  have hcalls : ∀ call ∈ source.generateCalls p, ¬call.Makes p :=
    fun call hcall hmakes => hnone ⟨call, hcall, hmakes⟩
  rw [Resident, (awaits_runGenerate h hcalls).absent] at hresident
  cases hresident

theorem populateGenerated_thrown {message : String}
    (h : (source.populateGenerated p).1 = .error (.thrown message)) :
    Resident p source.nativeStore ∧ Resident p (source.populateGenerated p).2.nativeStore := by
  rw [populateGenerated] at *
  cases hmark : source.mark p chunkLifecycleGenerated with
  | mk result marked =>
    rw [hmark] at h
    cases result with
    | error e =>
      have herror : e = .thrown message := Except.error.inj h
      exact (mark_not_thrown
        (show (source.mark p _).1 = .error (.thrown message) by rw [hmark, herror])).elim
    | ok u =>
      obtain ⟨hbefore, hafter⟩ := resident_mark
        (show (source.mark p chunkLifecycleGenerated).1 = .ok () by rw [hmark])
      rw [hmark] at hafter
      have hpopulated : Resident p (marked.runPopulate p).2.nativeStore := resident_runPopulate hafter
      refine ⟨hbefore, ?_⟩
      dsimp only at h ⊢
      cases hpop : marked.runPopulate p with
      | mk result populated =>
        rw [hpop] at h hpopulated
        cases result with
        | error e => exact hpopulated
        | ok u =>
          cases hlast : populated.mark p chunkLifecyclePopulated with
          | mk result last =>
            dsimp only at h
            rw [hlast] at h
            cases result with
            | error e =>
              have herror : e = .thrown message := Except.error.inj h
              exact (mark_not_thrown
                (show (populated.mark p _).1 = .error (.thrown message) by rw [hlast, herror])).elim
            | ok u => cases h

-- The body fails through its generator either in `generate`, or in `populate` with the chunk
-- there already.
theorem generateBody_thrown {message : String}
    (h : (source.generateBody p).1 = .error (.thrown message)) :
    ((source.generateBody p).2 = (source.runGenerate p).2 ∧
        source.bodyCalls p = source.generateCalls p) ∨
      (Resident p (source.runGenerate p).2.nativeStore ∧
        Resident p (source.generateBody p).2.nativeStore) := by
  rw [generateBody, bodyCalls] at *
  cases hrun : source.runGenerate p with
  | mk result after =>
    rw [hrun] at h
    cases result with
    | error e => exact .inl ⟨rfl, List.append_nil _⟩
    | ok generated =>
      dsimp only at h ⊢
      by_cases hwrong : generated ≠ p
      · rw [if_pos hwrong] at h
        cases h
      · rw [if_neg hwrong] at h ⊢
        exact .inr (populateGenerated_thrown h)

-- What a failed call owes its caller.
structure Undone (source : MainChunkSource) (p : ChunkCoord) : Prop where
  unknown : p ∉ source.chunks
  absent : source.nativeStore.store.chunks p = none
  again : source.getOrGenerate p = source.generate p

theorem Ungenerated.undone (h : source.Ungenerated p) : source.Undone p :=
  ⟨h.unknown, h.awaits.absent, h.getOrGenerate⟩

theorem generate_failure_undone_iff {message : String} (hfresh : source.Ungenerated p)
    (hthrown : (source.getOrGenerate p).1 = .error (.thrown message)) :
    (source.getOrGenerate p).2.Undone p ↔ ∀ call ∈ source.callsMade p, ¬call.Makes p := by
  have hrun : source.getOrGenerate p = (((source.enter p).generateBody p).1,
      { ((source.enter p).generateBody p).2 with
        loading := ((source.enter p).generateBody p).2.loading.erase p }) := by
    rw [hfresh.getOrGenerate, MainChunkSource.generate, if_neg hfresh.idle]
  rw [hrun] at hthrown ⊢
  have hawaits : Awaits p (source.enter p).nativeStore := hfresh.awaits
  rcases generateBody_thrown hthrown with ⟨hbody, hcalls⟩ | ⟨hgenerated, hresident⟩
  · rw [callsMade, hcalls, hbody]
    constructor
    · intro hundone call hcall hmakes
      have hresident := resident_runGenerate hcall hmakes
      rw [Resident, hundone.absent] at hresident
      cases hresident
    · intro hnone
      refine Ungenerated.undone ⟨hfresh.unknown, awaits_runGenerate hawaits hnone, ?_⟩
      exact Finset.notMem_erase p _
  · constructor
    · intro hundone
      rw [Resident, hundone.absent] at hresident
      cases hresident
    · intro hnone
      obtain ⟨call, hcall, hmakes⟩ := exists_makes_of_resident hawaits hgenerated
      exact absurd hmakes (hnone call (List.mem_append_left _ hcall))

theorem ensureChunk_inserted {biome : UInt8}
    (h : native.store.ensureChunk p biome = (.ok true, store)) :
    native.ensureChunk p biome = (.ok true, { native with store := store }.clearMissing p) := by
  rw [NativeWorld.ensureChunk, h]

-- A chunk that the native store holds is never generated again while storage is attached.
theorem getOrGenerate_adopts {storage : NativeStorage} {c : ChunkRecord}
    (hunknown : p ∉ source.chunks) (hstorage : source.nativeStore.storage = some storage)
    (hresident : source.nativeStore.store.chunks p = some c)
    (hfinite : source.generator.isInfinite = false) :
    source.getOrGenerate p = (.ok p, source.put p) := by
  have hcontains : source.nativeStore.store.containsChunk p = true := by
    rw [WorldStore.containsChunk, hresident]
    rfl
  have hrequest : source.nativeStore.requestStorageLoad storage p =
      (.ok .resident, source.nativeStore) := by
    rw [NativeWorld.requestStorageLoad, if_pos hcontains]
  have hadopt : (source.withNative source.nativeStore).adoptNativeResident p = source.put p :=
    if_neg hunknown
  have hput : (source.put p).generator.isInfinite = false := hfinite
  rw [MainChunkSource.getOrGenerate, if_neg hunknown, hstorage]
  dsimp only
  rw [hrequest]
  dsimp only
  rw [hadopt, completeInfiniteChunk, hput]
  rfl

def throwingGenerator : Generator where
  isInfinite := false
  generate p _ _ := .call (.construct p 1) fun _ => .throw "generation failed"
  populate _ _ _ := .done ()

def throwingSource : MainChunkSource where
  generator := throwingGenerator
  seed := 0
  chunks := ∅
  loading := ∅
  evictionQueue := []
  nativeStore := ⟨WorldStore.new, some ⟨{originChunk}, ∅, [], 1⟩⟩

theorem throwingSource_ungenerated : throwingSource.Ungenerated originChunk where
  unknown := Finset.notMem_empty _
  awaits := ⟨rfl, fun _ h => by cases h; exact Finset.mem_singleton_self _⟩
  idle := Finset.notMem_empty _

-- The chunk object that the generator made outlives the throw.
def leftSource : MainChunkSource :=
  { throwingSource with nativeStore := ⟨bareStore, some ⟨∅, ∅, [], 1⟩⟩ }

theorem throwingSource_run : throwingSource.getOrGenerate originChunk =
    (.error (.thrown "generation failed"), leftSource) := by
  have hword : defaultBiomeWord 1 = some 0x0192bc59 := by decide
  have hensure : WorldStore.new.ensureChunk originChunk 1 = (.ok true, bareStore) := by
    rw [WorldStore.ensureChunk, hword]
    rfl
  have hconstruct : (GeneratorCall.construct originChunk 1).perform throwingSource.nativeStore =
      leftSource.nativeStore := by
    rw [GeneratorCall.perform, ensureChunk_inserted hensure]
    rfl
  have hgenerate : (throwingSource.enter originChunk).runGenerate originChunk =
      (.error (.thrown "generation failed"),
        (throwingSource.enter originChunk).withNative leftSource.nativeStore) := by
    rw [← hconstruct]
    rfl
  rw [throwingSource_ungenerated.getOrGenerate, generate,
    if_neg throwingSource_ungenerated.idle, generateBody, hgenerate]
  rfl

theorem generate_failure_undone_iff_throwing :
    (throwingSource.getOrGenerate originChunk).2.Undone originChunk ↔
      ∀ call ∈ throwingSource.callsMade originChunk, ¬call.Makes originChunk :=
  generate_failure_undone_iff throwingSource_ungenerated (by rw [throwingSource_run])

theorem throwing_generator_leaves_empty_chunk :
    throwingSource.Ungenerated originChunk ∧
    throwingSource.getOrGenerate originChunk =
      (.error (.thrown "generation failed"), leftSource) ∧
    leftSource.nativeStore.store.chunks originChunk = some bareChunk ∧
    bareChunk.isDirty = true ∧
    leftSource.getOrGenerate originChunk = (.ok originChunk, leftSource.put originChunk) ∧
    (leftSource.put originChunk).nativeStore.store.chunks originChunk = some bareChunk ∧
    ¬leftSource.Undone originChunk := by
  have hresident : leftSource.nativeStore.store.chunks originChunk = some bareChunk :=
    WorldStore.setChunk_self WorldStore.new originChunk bareChunk
  refine ⟨throwingSource_ungenerated, throwingSource_run, hresident, by decide, ?_, hresident,
    fun h => ?_⟩
  · exact getOrGenerate_adopts (Finset.notMem_empty _) rfl hresident rfl
  · have habsent := h.absent
    rw [hresident] at habsent
    cases habsent

end MainChunkSource

end Cobblestone.Source
