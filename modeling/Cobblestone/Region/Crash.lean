import Cobblestone.Region.Refine

namespace Cobblestone.Region

open Lib World Storage

-- Byte by byte a page under rewrite shows its old or its new content; only the two unmixed
-- pages pass the checksum.
structure TornMix (crates : Crates) (coord : RegionCoord) (old new page : Bytes) : Prop where
  length : page.length = indexPageBytes
  mixed : ∀ i : Nat, page[i]? = old[i]? ∨ page[i]? = new[i]?
  detected : page ≠ old → page ≠ new → decodeIndexPage crates page coord = none

-- What a file may hold when the process dies inside a save: the synced file with some of the
-- appended bytes, or all records with the spare page in any state of its rewrite.
inductive CrashImage (crates : Crates) (r : RegionFile) (snapshots : List ChunkSnapshot)
    (policy : CompressionPolicy) : Bytes → Prop where
  | appending {tail : Bytes} (hl : (r.file ++ tail).length ≤ maxFileBytes) :
    CrashImage crates r snapshots policy (r.file ++ tail)
  | paging {file page : Bytes} {next : RegionIndex}
      (hp : Prepared crates .none r snapshots policy file next)
      (hm : TornMix crates r.coord (sparePage r) (newPage crates r next) page) :
    CrashImage crates r snapshots policy (writeSpare (withFile r file) page).file

inductive DurableStep (crates : Crates) (cond : RegionFile → SaveCall → Prop) :
    RegionFile → RegionFile → Prop where
  | run {r r' : RegionFile} (h : RegionStep crates cond r r') : DurableStep crates cond r r'
  | crash {r r' : RegionFile} {image : Bytes} (call : SaveCall) (hp : call.Proper crates r)
      (hc : cond r call) (hi : CrashImage crates r call.snapshots call.policy image)
      (ho : openOrCreate crates image r.worldUuid r.coord = .ok r') : DurableStep crates cond r r'

def DurableReachable (crates : Crates) (cond : RegionFile → SaveCall → Prop) (worldUuid : WorldUuid)
    (coord : RegionCoord) : RegionFile → Prop :=
  Relation.ReflTransGen (DurableStep crates cond) (freshRegion crates worldUuid coord)

structure Recovers (crates : Crates) (r : RegionFile) (call : SaveCall) (image : Bytes)
    (r' : RegionFile) : Prop where
  opened : openOrCreate crates image r.worldUuid r.coord = .ok r'
  index : r'.index = r.index ∨
    r'.index = (saveChunks crates .none r call.snapshots call.policy).2.index
  records : ∀ slot e, r'.index.entries slot = some e →
    ∃ stored, readIndexedRecord crates image r.coord slot e = .ok (recordAt image e, stored)
  loads : ∀ p, RegionCoord.forChunk p = r.coord → ∃ value, loadChunk crates r' p = .ok value

variable {crates : Crates} {allowed : ChunkSnapshot → Prop} {r r' : RegionFile} {m : SlotMap}

theorem Prepared.saved {snapshots : List ChunkSnapshot} {policy : CompressionPolicy} {file : Bytes}
    {next : RegionIndex} (hp : Prepared crates .none r snapshots policy file next)
    (hl : recordAreaOffset ≤ r.file.length) :
    (saveChunks crates .none r snapshots policy).2 = committed crates (withFile r file) next := by
  obtain ⟨encoded, hb, ha⟩ := hp.batch
  rw [saveChunks, if_neg hp.nonempty, hb]
  dsimp only
  rw [if_neg (by simp), if_neg (not_lt.mpr hl), ha]
  dsimp only
  rw [if_neg (by simp), hp.generation]
  rfl

theorem Settled.recovers (h : Settled crates r' m) {call : SaveCall} (hu : r'.worldUuid = r.worldUuid)
    (hc : r'.coord = r.coord)
    (hi : r'.index = r.index ∨
      r'.index = (saveChunks crates .none r call.snapshots call.policy).2.index) :
    Recovers crates r call r'.file r' where
  opened := by
    rw [← hu, ← hc]
    exact h.openOrCreate
  index := hi
  records := by
    intro slot e he
    obtain ⟨s, hm, hs⟩ := h.inv.live.indexes.stored slot e he
    obtain ⟨stored, hread, -⟩ := hs.read h.inv.short (h.inv.live.allowed slot s hm)
    exact ⟨stored, hc ▸ hread⟩
  loads := by
    intro p hp
    rw [← hc] at hp
    cases hm : m (RegionCoord.slotOf p) with
    | none => exact ⟨none, load_none h.inv hp hm⟩
    | some s =>
      obtain ⟨-, stored, hload, -⟩ := load_some h.inv hp hm (h.inv.live.allowed _ s hm)
      exact ⟨some stored, hload⟩

theorem Settled.crash (h : Settled crates r m) {call : SaveCall}
    (hfrom : ∀ s ∈ call.snapshots, FromStore s) (hfit : call.ChestsFit r) {image : Bytes}
    (hi : CrashImage crates r call.snapshots call.policy image) :
    ∃ r' m', Settled crates r' m' ∧ Recovers crates r call image r' := by
  have hflags : ∀ s ∈ call.snapshots, s.lifecycleFlags &&& ~~~chunkLifecycleMask = 0 :=
    fun s hs => (hfrom s hs).flags
  cases hi with
  | @appending tail hl =>
    have hsettled : Settled crates (withFile r (r.file ++ tail)) m :=
      ⟨h.inv.grow hl, h.quiet.grow h.inv.long tail⟩
    exact ⟨_, m, hsettled, hsettled.recovers rfl rfl (.inl rfl)⟩
  | @paging file page next hp hm =>
    obtain ⟨hgrown, hindexed, -, hspare, hquiet, -⟩ := hp.grown h.inv hflags hfit
    by_cases hold : page = sparePage r
    · have hsettled : Settled crates (withFile r file) m := ⟨hgrown, hquiet h.quiet⟩
      rw [hold, ← hspare, writeSpare_same hgrown]
      exact ⟨_, m, hsettled, hsettled.recovers rfl rfl (.inl rfl)⟩
    · by_cases hnew : page = newPage crates r next
      · obtain ⟨hinv, hq⟩ := hgrown.commit hp.generation hindexed
        have hsettled : Settled crates (committed crates (withFile r file) next) _ := ⟨hinv, hq⟩
        rw [hnew]
        refine ⟨_, _, hsettled, hsettled.recovers rfl rfl (.inr ?_)⟩
        rw [hp.saved h.inv.long]
      · obtain ⟨hinv, hq⟩ := hgrown.writeSpare_unreadable hm.length (hm.detected hold hnew)
        have hsettled : Settled crates (writeSpare (withFile r file) page) m := ⟨hinv, hq⟩
        exact ⟨_, m, hsettled, hsettled.recovers rfl rfl (.inl rfl)⟩

theorem DurableStep.settled (h : ∃ m, Settled crates r m)
    (hs : DurableStep crates (fun r call => call.Sanctioned crates r) r r') :
    ∃ m, Settled crates r' m := by
  obtain ⟨m, h⟩ := h
  cases hs with
  | crash call hp hc hi ho =>
    obtain ⟨opened, m', hsettled, hrecovers⟩ := h.crash hp.fromStore hc.1 hi
    cases hrecovers.opened.symm.trans ho
    exact ⟨m', hsettled⟩
  | run hs =>
    cases hs with
    | save call hp hc =>
      obtain ⟨hquiet, ⟨hinv, -⟩ | ⟨hinv, -⟩⟩ := h.inv.save_quiet h.quiet hp.flags hc.1 hp.torn
        hc.2.1 (saveChunks_outcome crates call.fault r call.snapshots call.policy)
      · exact ⟨m, hinv, hquiet⟩
      · exact ⟨_, hinv, hquiet⟩
    | compact fault => exact ⟨m, (h.compact fault).1⟩
    | openOrCreate ho =>
      cases h.openOrCreate.symm.trans ho
      exact ⟨m, h⟩
    | openExisting ho =>
      cases h.openExisting.symm.trans ho
      exact ⟨m, h⟩

theorem chest_durable {entities : List ChestBlockEntity} (cond : RegionFile → SaveCall → Prop)
    (hsaved : SavesOne crates allowed (freshRegion crates zeroUuid originRegion) (fun _ => none)
      (chestSnapshot entities) .none r)
    (hc : cond (freshRegion crates zeroUuid originRegion) (chestCall entities)) :
    DurableReachable crates cond zeroUuid originRegion r := by
  obtain ⟨value, hsave⟩ := hsaved.ok
  have hstep := chestCall_step crates cond _ entities hc
  rw [hsave] at hstep
  exact .single (.run hstep)

end Cobblestone.Region
