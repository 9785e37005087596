import Cobblestone.Region.CompactMeaning

namespace Cobblestone.Region

open Lib World Storage

abbrev RegionMap := ChunkCoord → Option ChunkSnapshot

namespace RegionMap

def put (c : RegionMap) (snapshot : ChunkSnapshot) : RegionMap :=
  Function.update c snapshot.position (some snapshot)

def save (c : RegionMap) (snapshots : List ChunkSnapshot) : RegionMap := snapshots.foldl put c

end RegionMap

-- The file handle beside the map of snapshots whose save has returned success.
inductive TracedStep (crates : Crates) (cond : RegionFile → SaveCall → Prop) :
    RegionFile × RegionMap → RegionFile × RegionMap → Prop where
  | saved {r : RegionFile} {c : RegionMap} {value : RegionSaveResult} (call : SaveCall)
      (hp : call.Proper crates r) (hc : cond r call) (hr : call.result crates r = .ok value) :
    TracedStep crates cond (r, c) (call.after crates r, c.save call.snapshots)
  | failed {r : RegionFile} {c : RegionMap} {e : StorageError} (call : SaveCall)
      (hp : call.Proper crates r) (hc : cond r call) (hr : call.result crates r = .error e) :
    TracedStep crates cond (r, c) (call.after crates r, c)
  | compact {r : RegionFile} {c : RegionMap} (fault : Option CompactPoint) :
    TracedStep crates cond (r, c) ((compact crates fault r).handle, c)
  | openOrCreate {r r' : RegionFile} {c : RegionMap}
      (h : openOrCreate crates r.file r.worldUuid r.coord = .ok r') :
    TracedStep crates cond (r, c) (r', c)
  | openExisting {r r' : RegionFile} {c : RegionMap}
      (h : openExisting crates (some r.file) r.worldUuid r.coord = .ok (some r')) :
    TracedStep crates cond (r, c) (r', c)

def TracedRun (crates : Crates) (cond : RegionFile → SaveCall → Prop) (worldUuid : WorldUuid)
    (coord : RegionCoord) : RegionFile × RegionMap → Prop :=
  Relation.ReflTransGen (TracedStep crates cond)
    (freshRegion crates worldUuid coord, fun _ => none)

def LoadsAs (crates : Crates) (r : RegionFile) (p : ChunkCoord) : Option ChunkSnapshot → Prop
  | none => loadChunk crates r p = .ok none
  | some snapshot => snapshot.position = p ∧
    ∃ stored, loadChunk crates r p = .ok (some stored) ∧ stored.Carries snapshot []

def LoadsCommitted (crates : Crates) (r : RegionFile) (c : RegionMap) : Prop :=
  ∀ p, RegionCoord.forChunk p = r.coord → LoadsAs crates r p (c p)

def Agrees (coord : RegionCoord) (c : RegionMap) (m : SlotMap) : Prop :=
  ∀ p, RegionCoord.forChunk p = coord → c p = m (RegionCoord.slotOf p)

theorem Agrees.put {coord : RegionCoord} {c : RegionMap} {m : SlotMap} (h : Agrees coord c m)
    {s : ChunkSnapshot} (hs : RegionCoord.forChunk s.position = coord) :
    Agrees coord (c.put s) (putSnapshot m s) := by
  intro p hp
  by_cases heq : p = s.position
  · subst heq
    rw [RegionMap.put, putSnapshot, Function.update_self, Function.update_self]
  · have hslot : RegionCoord.slotOf p ≠ RegionCoord.slotOf s.position :=
      fun hslot => heq (position_ext (hp.trans hs.symm) hslot)
    rw [RegionMap.put, putSnapshot, Function.update_of_ne heq, Function.update_of_ne hslot]
    exact h p hp

theorem Agrees.save {coord : RegionCoord} {snapshots : List ChunkSnapshot} {c : RegionMap}
    {m : SlotMap} (h : Agrees coord c m)
    (hs : ∀ s ∈ snapshots, RegionCoord.forChunk s.position = coord) :
    Agrees coord (c.save snapshots) (putSnapshots m snapshots) := by
  induction snapshots generalizing c m with
  | nil => exact h
  | cons s snapshots ih =>
    exact ih (h.put (hs s List.mem_cons_self)) fun x hx => hs x (List.mem_cons_of_mem _ hx)

variable {crates : Crates} {r r' : RegionFile} {c : RegionMap} {m : SlotMap}

structure TracedInv (crates : Crates) (r : RegionFile) (c : RegionMap) (m : SlotMap) : Prop where
  settled : Settled crates r m
  agrees : Agrees r.coord c m

theorem TracedInv.loads (h : TracedInv crates r c m) : LoadsCommitted crates r c := by
  intro p hp
  rw [h.agrees p hp]
  cases hm : m (RegionCoord.slotOf p) with
  | none => exact load_none h.settled.inv hp hm
  | some s => exact load_some h.settled.inv hp hm (h.settled.inv.live.allowed _ s hm)

theorem TracedInv.save (h : TracedInv crates r c m) {call : SaveCall}
    (hp : call.Proper crates r) (hc : call.Sanctioned crates r) :
    (∀ value, call.result crates r = .ok value →
      ∃ m', TracedInv crates (call.after crates r) (c.save call.snapshots) m') ∧
    (∀ e, call.result crates r = .error e → ∃ m', TracedInv crates (call.after crates r) c m') := by
  obtain ⟨hchests, hsettled, hstats⟩ := hc
  have ho := saveChunks_outcome crates call.fault r call.snapshots call.policy
  have hcoord : (call.after crates r).coord = r.coord := ho.coord
  obtain ⟨hquiet, ⟨hinv, hempty⟩ | ⟨hinv, hplaced, f, hresult⟩⟩ :=
    h.settled.inv.save_quiet h.settled.quiet hp.flags hchests hp.torn hsettled ho
  · refine ⟨fun value hr => ⟨m, ⟨hinv, hquiet⟩, ?_⟩, fun e _ => ⟨m, ⟨hinv, hquiet⟩, ?_⟩⟩
    · rw [hempty value hr, hcoord]
      exact h.agrees
    · rw [hcoord]
      exact h.agrees
  · refine ⟨fun value hr => ⟨_, ⟨hinv, hquiet⟩, ?_⟩, fun e hr => ?_⟩
    · rw [hcoord]
      exact h.agrees.save hplaced
    · have hok : call.result crates r = .ok (f (statsOf (call.after crates r))) := by
        rw [SaveCall.result, hresult, saveStats, if_neg hstats]
        exact congrArg (Except.map f) hinv.stats_eq
      cases hok.symm.trans hr

theorem TracedStep.inv {a b : RegionFile × RegionMap} (h : ∃ m, TracedInv crates a.1 a.2 m)
    (hs : TracedStep crates (fun r call => call.Sanctioned crates r) a b) :
    ∃ m, TracedInv crates b.1 b.2 m := by
  obtain ⟨m, h⟩ := h
  cases hs with
  | saved call hp hc hr => exact (h.save hp hc).1 _ hr
  | failed call hp hc hr => exact (h.save hp hc).2 _ hr
  | compact fault =>
    obtain ⟨hsettled, hcoord⟩ := h.settled.compact fault
    exact ⟨m, hsettled, hcoord.symm ▸ h.agrees⟩
  | openOrCreate ho =>
    cases h.settled.openOrCreate.symm.trans ho
    exact ⟨m, h⟩
  | openExisting ho =>
    cases h.settled.openExisting.symm.trans ho
    exact ⟨m, h⟩

theorem region_refines_map {worldUuid : WorldUuid} {coord : RegionCoord}
    (hrun : TracedRun crates (fun r call => call.Sanctioned crates r) worldUuid coord (r, c)) :
    LoadsCommitted crates r c ∧
      openOrCreate crates r.file r.worldUuid r.coord = .ok r ∧
      openExisting crates (some r.file) r.worldUuid r.coord = .ok (some r) := by
  have hinit : TracedInv crates (freshRegion crates worldUuid coord) (fun _ => none)
      (fun _ => none) := ⟨freshRegion_settled crates worldUuid coord, fun _ _ => rfl⟩
  obtain ⟨m, h⟩ := invariant_of_run (fun a => ∃ m, TracedInv crates a.1 a.2 m) hrun ⟨_, hinit⟩
    fun _ _ hinv hs => TracedStep.inv hinv hs
  exact ⟨h.loads, h.settled.openOrCreate, h.settled.openExisting⟩

section

variable {entities : List ChestBlockEntity} {cond : RegionFile → SaveCall → Prop}

def chestMap (entities : List ChestBlockEntity) : RegionMap :=
  RegionMap.save (fun _ => none) [chestSnapshot entities]

theorem chestMap_origin : chestMap entities origin = some (chestSnapshot entities) := by
  have hput : chestMap entities = RegionMap.put (fun _ => none) (chestSnapshot entities) := rfl
  rw [hput]
  exact Function.update_self origin _ _

theorem traced_one {call : SaveCall} {fresh : RegionFile} {value : RegionSaveResult}
    (hp : call.Proper crates fresh) (hc : cond fresh call)
    (hsave : saveChunks crates call.fault fresh call.snapshots call.policy = (.ok value, r)) :
    TracedStep crates cond (fresh, c) (r, c.save call.snapshots) := by
  have hresult : call.result crates fresh = .ok value := by rw [SaveCall.result, hsave]
  have hafter : call.after crates fresh = r := by rw [SaveCall.after, hsave]
  rw [← hafter]
  exact .saved call hp hc hresult

theorem chest_traced {allowed : ChunkSnapshot → Prop} (cond : RegionFile → SaveCall → Prop)
    (hsaved : SavesOne crates allowed (freshRegion crates zeroUuid originRegion) (fun _ => none)
      (chestSnapshot entities) .none r)
    (hc : cond (freshRegion crates zeroUuid originRegion) (chestCall entities)) :
    TracedRun crates cond zeroUuid originRegion (r, chestMap entities) := by
  obtain ⟨value, hsave⟩ := hsaved.ok
  exact .single (traced_one (chestCall_proper crates _) hc hsave)

theorem chestCall_sanctioned (hfit : ChestsFit (chestSnapshot entities)) (r : RegionFile) :
    (chestCall entities).Sanctioned crates r :=
  ⟨List.forall_mem_singleton.mpr hfit, ⟨by simp [chestCall], by simp [chestCall]⟩,
    by simp [chestCall]⟩

end

theorem region_refines_map_plains : ∃ r,
    TracedRun Crates.reference (fun r call => call.Sanctioned Crates.reference r) zeroUuid
      originRegion (r, chestMap []) ∧ LoadsCommitted Crates.reference r (chestMap []) := by
  obtain ⟨r, hsaved⟩ := chest_saved Crates.reference (fun _ => True) [] (by simp)
    (by decide) trivial rfl
  have hrun := chest_traced (fun r call => call.Sanctioned Crates.reference r) hsaved
    (chestCall_sanctioned (Nat.zero_le _) _)
  exact ⟨r, hrun, (region_refines_map hrun).1⟩

theorem region_refines_map_crowded :
    ¬ ∀ r c, TracedRun Crates.reference (fun _ _ => True) zeroUuid originRegion (r, c) →
      LoadsCommitted Crates.reference r c := by
  intro hall
  obtain ⟨r, hsaved⟩ := chest_saved Crates.reference (fun _ => True) crowdedChests crowded_valid
    crowded_capacity trivial rfl
  have hloads := hall r _ (chest_traced _ hsaved trivial)
  have hplaced : RegionCoord.forChunk origin = r.coord := origin_placed.trans hsaved.coord.symm
  have horigin := hloads origin hplaced
  rw [chestMap_origin] at horigin
  obtain ⟨-, stored, hload, -⟩ := horigin
  have hm : putSnapshot (fun _ => none) (chestSnapshot crowdedChests) (RegionCoord.slotOf origin) =
      some (chestSnapshot crowdedChests) := Function.update_self _ _ _
  rw [load_overflow hsaved.inv hplaced hm crowded_not_fit] at hload
  cases hload

theorem appendRecords_syncPage (crates : Crates) (i : Nat) (encoded : List EncodedRecord)
    (file : Bytes) (entries : Entries) :
    appendRecords crates .syncPage i encoded file entries =
      appendRecords crates .none i encoded file entries := by
  induction encoded generalizing i file entries with
  | nil => rfl
  | cons e rest ih =>
    have hstop : SaveFault.syncPage.stopsRecord i = SaveFault.none.stopsRecord i := rfl
    simp only [appendRecords, hstop, ih]

theorem Prepared.unsynced {snapshots : List ChunkSnapshot} {policy : CompressionPolicy}
    {file : Bytes} {next : RegionIndex} (hp : Prepared crates .none r snapshots policy file next)
    (hl : recordAreaOffset ≤ r.file.length) :
    saveChunks crates .syncPage r snapshots policy =
      (.error .io, writeSpare (withFile r file) (newPage crates r next)) := by
  obtain ⟨encoded, hb, ha⟩ := hp.batch
  rw [saveChunks, if_neg hp.nonempty, hb]
  dsimp only
  rw [if_neg (by simp), if_neg (not_lt.mpr hl), appendRecords_syncPage, ha]
  dsimp only
  rw [if_neg (by simp), hp.generation]
  rfl

theorem unsynced_reopened {entities : List ChestBlockEntity} {allowed : ChunkSnapshot → Prop}
    (hsaved : SavesOne crates allowed r m (chestSnapshot entities) .none r')
    (hl : recordAreaOffset ≤ r.file.length) (c : RegionMap)
    {cond : RegionFile → SaveCall → Prop}
    (hc : cond r ⟨.syncPage, [chestSnapshot entities], .none⟩) :
    Relation.ReflTransGen (TracedStep crates cond) (r, c) (r', c) := by
  obtain ⟨file, next, hp, hr⟩ := hsaved.prepared
  have hsave := hp.unsynced hl
  have hproper : SaveCall.Proper crates ⟨.syncPage, [chestSnapshot entities], .none⟩ r :=
    ⟨List.forall_mem_singleton.mpr (chestSnapshot_fromStore entities), fun k _ _ hk => by cases hk⟩
  have hfailed := TracedStep.failed (c := c) _ hproper hc (congrArg Prod.fst hsave)
  rw [SaveCall.after, hsave] at hfailed
  have hopen : openOrCreate crates (writeSpare (withFile r file) (newPage crates r next)).file
      r.worldUuid r.coord = .ok r' := by
    have hreopen := hsaved.inv.reopen_quiet hsaved.quiet
    rw [hsaved.coord, hsaved.worldUuid, ← openOrCreate_long hsaved.inv.long] at hreopen
    rw [← hreopen, hr]
    rfl
  exact (Relation.ReflTransGen.single hfailed).tail (.openOrCreate hopen)

-- A save that failed only in its last sync is found again by the next open.
theorem failed_save_resurfaces : ∃ r c,
    TracedRun Crates.reference (fun r call => call.ChestsFit r) zeroUuid originRegion (r, c) ∧
      ¬ LoadsCommitted Crates.reference r c := by
  obtain ⟨r, hsaved⟩ := chest_saved Crates.reference ChestsFit [] (by simp)
    (by decide) (Nat.zero_le _) rfl
  have hlong := (freshRegion_settled Crates.reference zeroUuid originRegion).inv.long
  refine ⟨r, fun _ => none, unsynced_reopened hsaved hlong _
    (List.forall_mem_singleton.mpr (Nat.zero_le _)), fun hloads => ?_⟩
  have hplaced : RegionCoord.forChunk origin = r.coord := origin_placed.trans hsaved.coord.symm
  have hm : putSnapshot (fun _ => none) (chestSnapshot []) (RegionCoord.slotOf origin) =
      some (chestSnapshot []) := Function.update_self _ _ _
  obtain ⟨-, stored, hload, -⟩ := load_some hsaved.inv hplaced hm (Nat.zero_le _)
  cases hload.symm.trans (hloads origin hplaced)

end Cobblestone.Region
