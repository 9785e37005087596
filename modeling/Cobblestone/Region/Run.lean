import Cobblestone.Lib.Trace
import Cobblestone.Region.CompactProof
import Cobblestone.Storage.RoundTrip

namespace Cobblestone.Region

open Lib World Storage

def FromStore (snapshot : ChunkSnapshot) : Prop :=
  ∃ store p, WorldStore.Reachable (fun _ => True) store ∧ store.snapshot p = .ok snapshot

theorem FromStore.flags {snapshot : ChunkSnapshot} (h : FromStore snapshot) :
    snapshot.lifecycleFlags &&& ~~~chunkLifecycleMask = 0 := by
  obtain ⟨store, p, hreach, hp⟩ := h
  obtain ⟨c, hc, rfl⟩ := snapshot_ok hp
  have hsound : c.Sound fun _ => True := hreach.sound trivial (fun _ _ => trivial) p c hc
  exact hsound.flags

structure SaveCall where
  fault : SaveFault
  snapshots : List ChunkSnapshot
  policy : CompressionPolicy

variable (crates : Crates)

namespace SaveCall

def result (call : SaveCall) (r : RegionFile) : Except StorageError RegionSaveResult :=
  (saveChunks crates call.fault r call.snapshots call.policy).1

def after (call : SaveCall) (r : RegionFile) : RegionFile :=
  (saveChunks crates call.fault r call.snapshots call.policy).2

structure Proper (call : SaveCall) (r : RegionFile) : Prop where
  fromStore : ∀ s ∈ call.snapshots, FromStore s
  torn : TornDetected crates call.fault r call.snapshots call.policy

theorem Proper.flags {crates : Crates} {call : SaveCall} {r : RegionFile}
    (h : call.Proper crates r) :
    ∀ s ∈ call.snapshots, s.lifecycleFlags &&& ~~~chunkLifecycleMask = 0 :=
  fun s hs => (h.fromStore s hs).flags

def ChestsFit (_ : RegionFile) (call : SaveCall) : Prop := ∀ s ∈ call.snapshots, Region.ChestsFit s

-- Additionally no failure is reported once the new index page is complete in the file.
def Sanctioned (r : RegionFile) (call : SaveCall) : Prop :=
  call.ChestsFit r ∧ PageSettled crates call.fault r call.snapshots call.policy ∧
    call.fault ≠ .stats

end SaveCall

inductive RegionStep (cond : RegionFile → SaveCall → Prop) : RegionFile → RegionFile → Prop where
  | save {r : RegionFile} (call : SaveCall) (hp : call.Proper crates r) (hc : cond r call) :
    RegionStep cond r (call.after crates r)
  | compact {r : RegionFile} (fault : Option CompactPoint) :
    RegionStep cond r (compact crates fault r).handle
  | openOrCreate {r r' : RegionFile}
      (h : openOrCreate crates r.file r.worldUuid r.coord = .ok r') : RegionStep cond r r'
  | openExisting {r r' : RegionFile}
      (h : openExisting crates (some r.file) r.worldUuid r.coord = .ok (some r')) :
    RegionStep cond r r'

def RegionReachable (cond : RegionFile → SaveCall → Prop) (worldUuid : WorldUuid)
    (coord : RegionCoord) : RegionFile → Prop :=
  Relation.ReflTransGen (RegionStep crates cond) (freshRegion crates worldUuid coord)

section

variable {crates} {allowed : ChunkSnapshot → Prop} {r r' : RegionFile} {m : SlotMap}

theorem compact_path (fault : Option CompactPoint) (r : RegionFile) :
    (compact crates fault r).path = (compact crates fault r).handle.file := by
  unfold compact
  repeat' split
  all_goals rfl

theorem openExisting_long {file : Bytes} (hl : recordAreaOffset ≤ file.length)
    (worldUuid : WorldUuid) (coord : RegionCoord) :
    openExisting crates (some file) worldUuid coord =
      (fromOpenFile crates file worldUuid coord).map some :=
  if_neg (not_lt.mpr hl)

theorem opened_openOrCreate (h : RegionInv crates allowed r m)
    (ho : openOrCreate crates r.file r.worldUuid r.coord = .ok r') :
    fromOpenFile crates r.file r.worldUuid r.coord = .ok r' := by
  rwa [openOrCreate_long h.long] at ho

theorem opened_openExisting (h : RegionInv crates allowed r m)
    (ho : openExisting crates (some r.file) r.worldUuid r.coord = .ok (some r')) :
    fromOpenFile crates r.file r.worldUuid r.coord = .ok r' := by
  rw [openExisting_long h.long] at ho
  cases hf : fromOpenFile crates r.file r.worldUuid r.coord with
  | error e =>
    rw [hf] at ho
    cases ho
  | ok opened =>
    rw [hf] at ho
    rw [Option.some.inj (Except.ok.inj ho)]

theorem RegionInv.opened (h : RegionInv crates allowed r m)
    (ho : fromOpenFile crates r.file r.worldUuid r.coord = .ok r') :
    ∃ m', RegionInv crates allowed r' m' := by
  obtain ⟨opened, m', hf, hinv, -, -⟩ := h.reopen
  rw [← Except.ok.inj (hf.symm.trans ho)]
  exact ⟨m', hinv⟩

theorem RegionInv.compact (h : RegionInv crates allowed r m) (fault : Option CompactPoint) :
    RegionInv crates allowed (Region.compact crates fault r).handle m := by
  have hcase := compact_case h fault
  generalize Region.compact crates fault r = outcome at hcase
  cases hcase with
  | clean hd => exact h
  | kept e he => exact h
  | unsynced hr hf => exact hr.inv
  | done hr hd => exact hr.inv

structure Settled (crates : Crates) (r : RegionFile) (m : SlotMap) : Prop where
  inv : RegionInv crates ChestsFit r m
  quiet : Quiet crates r

theorem Settled.openOrCreate (h : Settled crates r m) :
    openOrCreate crates r.file r.worldUuid r.coord = .ok r := by
  rw [openOrCreate_long h.inv.long]
  exact h.inv.reopen_quiet h.quiet

theorem Settled.openExisting (h : Settled crates r m) :
    openExisting crates (some r.file) r.worldUuid r.coord = .ok (some r) := by
  rw [openExisting_long h.inv.long, h.inv.reopen_quiet h.quiet]
  rfl

theorem Settled.compact (h : Settled crates r m) (fault : Option CompactPoint) :
    Settled crates (Region.compact crates fault r).handle m ∧
      (Region.compact crates fault r).handle.coord = r.coord := by
  have hcase := compact_case h.inv fault
  generalize Region.compact crates fault r = outcome at hcase
  cases hcase with
  | clean hd => exact ⟨h, rfl⟩
  | kept e he => exact ⟨h, rfl⟩
  | unsynced hr hf => exact ⟨⟨hr.inv, hr.quiet⟩, hr.coord⟩
  | done hr hd => exact ⟨⟨hr.inv, hr.quiet⟩, hr.coord⟩

theorem freshRegion_settled (crates : Crates) (worldUuid : WorldUuid) (coord : RegionCoord) :
    Settled crates (freshRegion crates worldUuid coord) (fun _ => none) :=
  ⟨(freshRegion_inv crates worldUuid coord ChestsFit).1,
    (freshRegion_inv crates worldUuid coord ChestsFit).2⟩

variable {cond : RegionFile → SaveCall → Prop}

theorem RegionStep.inv (hcond : ∀ r call, cond r call → ∀ s ∈ call.snapshots, allowed s)
    (h : ∃ m, RegionInv crates allowed r m) (hs : RegionStep crates cond r r') :
    ∃ m, RegionInv crates allowed r' m := by
  obtain ⟨m, h⟩ := h
  cases hs with
  | save call hp hc =>
    exact h.save hp.flags (hcond r call hc) hp.torn (saveChunks_outcome crates _ r _ _)
  | compact fault => exact ⟨m, h.compact fault⟩
  | openOrCreate ho => exact h.opened (opened_openOrCreate h ho)
  | openExisting ho => exact h.opened (opened_openExisting h ho)

theorem RegionReachable.inv (allowed : ChunkSnapshot → Prop)
    (hcond : ∀ r call, cond r call → ∀ s ∈ call.snapshots, allowed s)
    {worldUuid : WorldUuid} {coord : RegionCoord}
    (h : RegionReachable crates cond worldUuid coord r) : ∃ m, RegionInv crates allowed r m :=
  invariant_of_run (fun r => ∃ m, RegionInv crates allowed r m) h
    ⟨_, (freshRegion_inv crates worldUuid coord allowed).1⟩
    fun _ _ hinv hs => RegionStep.inv hcond hinv hs

end

end Cobblestone.Region
