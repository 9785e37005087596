import Cobblestone.Bridge.Missing
import Cobblestone.World.Retain

namespace Cobblestone.Bridge

open Lib World Storage Region Async WorldStore WorldBridge

theorem edit_keeps {op : StoreOp} (h : isEdit op = true) : op.Keeps := by
  cases op <;> trivial

def savedPosition : SaveCommand → Option ChunkCoord
  | .save s => some s.position
  | .compact _ => none

-- The saves of a position that were submitted and whose completion nobody has taken.
def SaveDesk.saving (d : SaveDesk) (p : ChunkCoord) : Nat :=
  (d.commands.map savedPosition).count (some p) + (d.completions.map completionPosition).count p

-- A mark with these revisions and flags is accepted by the chunk.
structure Covers (c : ChunkRecord) (terrain light : UInt64) (flags : UInt8) : Prop where
  terrainReached : terrain ≤ c.terrainRevision
  lightReached : light ≤ c.lightRevision
  terrainMark : ∀ t, c.persistedTerrainRevision = some t → t ≤ terrain
  lightMark : ∀ l, c.persistedLightRevision = some l → l ≤ light
  valid : validateLifecycleFlags flags = .ok ()

def Covered (s : WorldStore) (p : ChunkCoord) (terrain light : UInt64) (flags : UInt8) : Prop :=
  ∃ c, s.chunks p = some c ∧ Covers c terrain light flags

def Covered.of (s : WorldStore) (x : ChunkSnapshot) : Prop :=
  Covered s x.position x.terrainRevision x.lightRevision x.lifecycleFlags

structure Saving {γ : Type} (b : WorldBridge γ) : Prop where
  store : WorldStore.Reachable (fun _ => True) b.store
  single : ∀ p, b.persistence.saves.saving p = if p ∈ b.persistence.saveInFlight then 1 else 0
  resident : ∀ p ∈ b.persistence.saveInFlight, b.store.chunks p ≠ none
  commands : ∀ s, .save s ∈ b.persistence.saves.commands → Covered.of b.store s
  receipts : ∀ r, .saved r ∈ b.persistence.saves.completions →
    Covered b.store r.position r.terrainRevision r.lightRevision r.lifecycleFlags
  batch : ∀ s ∈ b.call.batch, Covered.of b.store s
  nodup : (b.call.batch.map ChunkSnapshot.position).Nodup
  fresh : ∀ s ∈ b.call.batch, s.position ∉ b.persistence.saveInFlight

variable {γ : Type} {terrain : Int32 → Terrain γ} {initial : γ}
  {allowed : WorldBridge γ → Action → Prop} {b b' : WorldBridge γ} {s t : WorldStore}
  {p : ChunkCoord} {c c' : ChunkRecord} {t' l' : UInt64} {f' : UInt8}

theorem Covers.advance (h : Covers c t' l' f') (k : Advances c c') : Covers c' t' l' f' where
  terrainReached := UInt64.le_trans h.terrainReached k.terrain
  lightReached := UInt64.le_trans h.lightReached k.light
  terrainMark u hu := h.terrainMark u (k.persistedTerrain ▸ hu)
  lightMark u hu := h.lightMark u (k.persistedLight ▸ hu)
  valid := h.valid

theorem Covered.retain (h : Covered s p t' l' f') (k : Retains s t) : Covered t p t' l' f' := by
  obtain ⟨c, hc, hcovers⟩ := h
  obtain ⟨c', hc', hadvance⟩ := k p c hc
  exact ⟨c', hc', hcovers.advance hadvance⟩

theorem Covered.congr (h : Covered s p t' l' f') (hp : t.chunks p = s.chunks p) :
    Covered t p t' l' f' := by
  obtain ⟨c, hc, hcovers⟩ := h
  exact ⟨c, hp.trans hc, hcovers⟩

theorem regressed_none {mark : Option UInt64} {revision : UInt64}
    (h : ∀ u, mark = some u → u ≤ revision) : regressed mark revision = none := by
  cases mark with
  | none => rfl
  | some u =>
    have hu := h u rfl
    simpa [regressed] using hu

theorem Covers.marked (h : Covers c t' l' f') : markPersistedRecord c t' l' f' =
    (.ok (), { c with
      persistedTerrainRevision := some t'
      persistedLightRevision := some l'
      persistedLifecycleFlags := some f' }) := by
  rw [markPersistedRecord, if_neg (UInt64.not_lt.mpr h.terrainReached),
    if_neg (UInt64.not_lt.mpr h.lightReached),
    regressed_none h.terrainMark, regressed_none h.lightMark]

theorem Covered.marked (h : Covered s p t' l' f') : ∃ c, s.chunks p = some c ∧
    s.markPersisted p t' l' f' = (.ok (), s.setChunk p { c with
      persistedTerrainRevision := some t'
      persistedLightRevision := some l'
      persistedLifecycleFlags := some f' }) := by
  obtain ⟨c, hc, hcovers⟩ := h
  refine ⟨c, hc, ?_⟩
  rw [markPersisted, hcovers.valid]
  simp only [withChunkMut, hc, hcovers.marked]

-- A chunk covers its own snapshot.
theorem Saving.snapshot (h : Saving b) (hc : b.store.chunks p = some c) :
    Covered.of b.store (c.snapshot p) := by
  have hmarks := h.store.marks p c hc
  have hall : b.store.AllChunks (ChunkRecord.Sound fun _ => True) :=
    h.store.sound trivial fun _ _ => trivial
  have hsound := hall p c hc
  exact ⟨c, hc, UInt64.le_refl _, UInt64.le_refl _, hmarks.terrain, hmarks.light,
    validateLifecycleFlags_ok_iff.mpr hsound.flags⟩

theorem Saving.command_inFlight (h : Saving b) {s : ChunkSnapshot}
    (hs : .save s ∈ b.persistence.saves.commands) : s.position ∈ b.persistence.saveInFlight := by
  by_contra hout
  have hcount := h.single s.position
  rw [if_neg hout, SaveDesk.saving] at hcount
  have hmem : some s.position ∈ b.persistence.saves.commands.map savedPosition :=
    Multiset.mem_map_of_mem savedPosition hs
  have hpos := Multiset.count_pos.mpr hmem
  omega

theorem Saving.completion_inFlight (h : Saving b) {e : SaveCompletion}
    (he : e ∈ b.persistence.saves.completions) :
    completionPosition e ∈ b.persistence.saveInFlight := by
  by_contra hout
  have hcount := h.single (completionPosition e)
  rw [if_neg hout, SaveDesk.saving] at hcount
  have hpos := Multiset.count_pos.mpr (Multiset.mem_map_of_mem completionPosition he)
  omega

-- A step that submits, answers and takes no save and keeps what is resident.
theorem Saving.steady (h : Saving b)
    (hcommands : ∀ s, .save s ∈ b'.persistence.saves.commands →
      .save s ∈ b.persistence.saves.commands)
    (hcompletions : b'.persistence.saves.completions = b.persistence.saves.completions)
    (hsaving : ∀ p, b'.persistence.saves.saving p = b.persistence.saves.saving p)
    (hflight : b'.persistence.saveInFlight = b.persistence.saveInFlight)
    (hbatch : b'.call.batch = [] ∨ b'.call.batch = b.call.batch)
    (hstore : StoreRun b.store b'.store) : Saving b' := by
  have hr := hstore.retains
  have hsub {s : ChunkSnapshot} (hs : s ∈ b'.call.batch) : s ∈ b.call.batch := by
    rcases hbatch with heq | heq
    · rw [heq] at hs
      cases hs
    · rwa [heq] at hs
  constructor
  · exact hstore.reachable h.store
  · intro p
    rw [hflight, hsaving]
    exact h.single p
  · rw [hflight]
    intro p hp
    obtain ⟨c, hc⟩ := Option.ne_none_iff_exists'.mp (h.resident p hp)
    obtain ⟨c', hc', -⟩ := hr p c hc
    rw [hc']
    exact Option.some_ne_none _
  · exact fun s hs => (h.commands s (hcommands s hs)).retain hr
  · rw [hcompletions]
    exact fun r hmem => (h.receipts r hmem).retain hr
  · exact fun s hs => (h.batch s (hsub hs)).retain hr
  · rcases hbatch with heq | heq
    · rw [heq]
      exact List.nodup_nil
    · rw [heq]
      exact h.nodup
  · rw [hflight]
    exact fun s hs => h.fresh s (hsub hs)

theorem Saving.frame (h : Saving b) (hsaves : b'.persistence.saves = b.persistence.saves)
    (hflight : b'.persistence.saveInFlight = b.persistence.saveInFlight)
    (hbatch : b'.call.batch = [] ∨ b'.call.batch = b.call.batch)
    (hstore : StoreRun b.store b'.store) : Saving b' :=
  h.steady (fun _ hs => hsaves ▸ hs) (by rw [hsaves]) (fun _ => by rw [hsaves]) hflight hbatch hstore

theorem saveCompletion_position (s : ChunkSnapshot) (outcome : Outcome RegionSaveResult) :
    completionPosition (saveCompletion s outcome) = s.position := by
  rcases outcome with (_ | _) | _ <;> rfl

theorem SaveDesk.saving_answer {d : SaveDesk} {command : SaveCommand} {rest : Multiset SaveCommand}
    {e : SaveEvent} (hc : d.commands = command ::ₘ rest) (hw : SaveWork command e)
    (p : ChunkCoord) : (d.answer rest e).saving p = d.saving p := by
  cases hw with
  | save s outcome =>
    simp only [saving, answer, hc, Multiset.map_cons, Multiset.count_cons, savedPosition,
      saveCompletion_position, Option.some.injEq]
    omega
  | compact region outcome =>
    simp [saving, answer, hc, savedPosition]

theorem Saving.answer (h : Saving b) {command : SaveCommand} {rest : Multiset SaveCommand}
    {e : SaveEvent} (hc : b.persistence.saves.commands = command ::ₘ rest)
    (hw : SaveWork command e)
    (durable : ChunkCoord → Option ChunkSnapshot) :
    Saving { b.withSaves (b.persistence.saves.answer rest e) with durable := durable } := by
  have hsub {s : ChunkSnapshot} (hs : .save s ∈ rest) : .save s ∈ b.persistence.saves.commands :=
    hc ▸ Multiset.mem_cons_of_mem hs
  refine ⟨h.store, fun p => (SaveDesk.saving_answer hc hw p).trans (h.single p), h.resident,
    fun s hs => ?_, fun r hr => ?_, h.batch, h.nodup, h.fresh⟩
  · cases hw <;> exact h.commands s (hsub hs)
  · cases hw with
    | compact region outcome => exact h.receipts r hr
    | save s outcome =>
      rcases Multiset.mem_cons.mp hr with heq | hr
      · rcases outcome with (_ | result) | _
        · cases heq
        · cases heq
          exact h.commands s (hc ▸ Multiset.mem_cons_self _ _)
        · cases heq
      · exact h.receipts r hr

theorem Saving.disk (h : Saving b) (hd : DiskStep b b') : Saving b' := by
  cases hd with
  | saved hc => exact h.answer hc (.save _ (.finished (.ok _))) _
  | @saveFailed s rest error durable hc _ =>
    cases error with
    | storage e => exact h.answer hc (.save s (.finished (.error e))) durable
    | panic => exact h.answer hc (.save s .panicked) durable
  | compacted hc => exact h.answer hc (.compact _ _) b.durable
  | loaded | missing | loadFailed => exact h.frame rfl rfl (.inr rfl) (.refl _)

theorem Saving.taken (h : Saving b) {e : SaveCompletion} {rest : Multiset SaveCompletion}
    (hc : b.persistence.saves.completions = e ::ₘ rest) (hbatch : b'.call.batch = [])
    (hsaves : b'.persistence.saves = { b.persistence.saves with completions := rest })
    (hflight : b'.persistence.saveInFlight =
      b.persistence.saveInFlight.erase (completionPosition e))
    (hreach : WorldStore.Reachable (fun _ => True) b'.store)
    (hother : ∀ q, q ≠ completionPosition e → b'.store.chunks q = b.store.chunks q) : Saving b' := by
  have hflying := h.completion_inFlight (hc ▸ Multiset.mem_cons_self e rest)
  have hcount (p : ChunkCoord) : b.persistence.saves.saving p =
      b'.persistence.saves.saving p + if p = completionPosition e then 1 else 0 := by
    rw [hsaves, SaveDesk.saving, SaveDesk.saving, hc, Multiset.map_cons, Multiset.count_cons]
    exact (Nat.add_assoc _ _ _).symm
  have hsingle (p : ChunkCoord) : b'.persistence.saves.saving p =
      if p ∈ b'.persistence.saveInFlight then 1 else 0 := by
    have hp := hcount p
    rw [h.single] at hp
    rw [hflight]
    by_cases heq : p = completionPosition e
    · subst heq
      simpa [hflying] using hp.symm
    · simpa [heq] using hp.symm
  -- Nothing else is outstanding for the position whose completion was taken.
  have hgone : b'.persistence.saves.saving (completionPosition e) = 0 := by
    rw [hsingle, hflight, if_neg (Finset.notMem_erase _ _)]
  obtain ⟨hnocommand, hnocompletion⟩ := Nat.add_eq_zero_iff.mp hgone
  have hcommand {s : ChunkSnapshot} (hs : .save s ∈ b'.persistence.saves.commands) :
      s.position ≠ completionPosition e := by
    intro heq
    refine Multiset.count_eq_zero.mp hnocommand ?_
    rw [← heq]
    exact Multiset.mem_map_of_mem savedPosition hs
  have hreceipt {r : SaveReceipt} (hr : .saved r ∈ b'.persistence.saves.completions) :
      r.position ≠ completionPosition e := by
    intro heq
    refine Multiset.count_eq_zero.mp hnocompletion ?_
    rw [← heq]
    exact Multiset.mem_map_of_mem completionPosition hr
  refine ⟨hreach, hsingle, fun p hp => ?_, fun s hs => ?_, fun r hr => ?_, ?_, ?_, ?_⟩
  · rw [hflight] at hp
    rw [hother p (Finset.ne_of_mem_erase hp)]
    exact h.resident p (Finset.mem_of_mem_erase hp)
  · have hs' : .save s ∈ b.persistence.saves.commands := by rwa [hsaves] at hs
    exact (h.commands s hs').congr (hother _ (hcommand hs))
  · have hr' : .saved r ∈ rest := by rwa [hsaves] at hr
    exact (h.receipts r (hc ▸ Multiset.mem_cons_of_mem hr')).congr (hother _ (hreceipt hr))
  · rw [hbatch]
    exact fun s hs => absurd hs List.not_mem_nil
  · rw [hbatch]
    exact List.nodup_nil
  · rw [hbatch]
    exact fun s hs => absurd hs List.not_mem_nil

-- What the receipt adds to the byte count fits.
def Counted (b : WorldBridge γ) (receipt : SaveReceipt) : Prop :=
  b.persistence.saveBytesAppended.toNat + receipt.bytesAppended < UInt64.size

theorem recordReceipt_ok_iff {n : NativeWorldPersistence} {receipt : SaveReceipt} :
    (n.recordReceipt receipt).1 = .ok () ↔
      n.saveBytesAppended.toNat + receipt.bytesAppended < UInt64.size := by
  rw [NativeWorldPersistence.recordReceipt, checkedAdd]
  split
  · rename_i hnone
    simpa using hnone
  · rename_i hsome
    split at hsome
    · simpa using ‹_›
    · cases hsome

-- A receipt that is waiting is marked in its chunk, and what then is recorded may only overflow.
theorem Saving.receipt (h : Saving b) {receipt : SaveReceipt} {rest : Multiset SaveCompletion}
    (hc : b.persistence.saves.completions = .saved receipt ::ₘ rest) :
    ∃ c, b.store.chunks receipt.position = some c ∧
      (b.receiveSave (.saved receipt) rest).applySaveCompletion (.saved receipt) =
        (((b.receiveSave (.saved receipt) rest).persistence.recordReceipt receipt).1,
          (b.withStore (b.store.setChunk receipt.position { c with
            persistedTerrainRevision := some receipt.terrainRevision
            persistedLightRevision := some receipt.lightRevision
            persistedLifecycleFlags := some receipt.lifecycleFlags })).withPersistence
              ((b.receiveSave (.saved receipt) rest).persistence.recordReceipt receipt).2) := by
  have hcovered := h.receipts receipt (hc ▸ Multiset.mem_cons_self _ _)
  obtain ⟨c, hp, hmark⟩ := hcovered.marked
  have hmark' : (b.receiveSave (.saved receipt) rest).store.markPersisted receipt.position
      receipt.terrainRevision receipt.lightRevision receipt.lifecycleFlags = _ := hmark
  refine ⟨c, hp, ?_⟩
  simp only [WorldBridge.applySaveCompletion, hmark']
  rfl

theorem Saving.accepts_iff (h : Saving b) {receipt : SaveReceipt} {rest : Multiset SaveCompletion}
    (hc : b.persistence.saves.completions = .saved receipt ::ₘ rest) :
    ((b.receiveSave (.saved receipt) rest).applySaveCompletion (.saved receipt)).1 = .ok () ↔
      Counted b receipt := by
  obtain ⟨c, -, heq⟩ := h.receipt hc
  rw [heq]
  exact recordReceipt_ok_iff

theorem Saving.take (h : Saving b) {e : SaveCompletion} {rest : Multiset SaveCompletion}
    {result : Except BridgeError Unit} {call : Call γ} (hcall : call.batch = [])
    (hc : b.persistence.saves.completions = e ::ₘ rest)
    (hr : (b.receiveSave e rest).applySaveCompletion e = (result, b')) :
    Saving (b'.withCall call) := by
  cases e with
  | failed failure =>
    cases hr
    exact h.taken hc hcall rfl rfl h.store fun _ _ => rfl
  | saved receipt =>
    obtain ⟨c, hp, heq⟩ := h.receipt hc
    rw [heq] at hr
    cases hr
    obtain ⟨-, hsaves, -, hflight⟩ :=
      recordReceipt_frame (b.receiveSave (.saved receipt) rest).persistence receipt
    refine h.taken hc hcall hsaves hflight ?_ fun q hq => setChunk_of_ne _ _ hq
    obtain ⟨c', hp', hmark⟩ := (h.receipts receipt (hc ▸ Multiset.mem_cons_self _ _)).marked
    cases hp.symm.trans hp'
    have hop := h.store.op (.markPersisted receipt.position receipt.terrainRevision
      receipt.lightRevision receipt.lifecycleFlags)
    rwa [StoreOp.apply, hmark] at hop

theorem Saving.schedule (h : Saving b) {s : ChunkSnapshot} {rest : List ChunkSnapshot}
    {call : Call γ} (hbatch : b.call.batch = s :: rest) (hcall : call.batch = rest) :
    Saving ((b.scheduleSave s).withCall call) := by
  have hs : s ∈ b.call.batch := by simp [hbatch]
  have hsub {t : ChunkSnapshot} (ht : t ∈ call.batch) : t ∈ b.call.batch := by
    rw [hbatch]
    exact List.mem_cons_of_mem _ (hcall ▸ ht)
  have hnodup := h.nodup
  rw [hbatch, List.map_cons, List.nodup_cons] at hnodup
  have hnew := h.fresh s hs
  have hcovered := h.batch s hs
  refine ⟨h.store, fun p => ?_, fun p hp => ?_, fun t ht => ?_, h.receipts,
    fun t ht => h.batch t (hsub ht), hcall ▸ hnodup.2, fun t ht => ?_⟩
  · have hcount : (b.persistence.saves.submit (.save s)).saving p =
        b.persistence.saves.saving p + if p = s.position then 1 else 0 := by
      simp only [SaveDesk.saving, SaveDesk.submit, Multiset.map_cons, Multiset.count_cons,
        savedPosition, Option.some.injEq]
      omega
    refine hcount.trans ?_
    rw [h.single]
    by_cases heq : p = s.position
    · subst heq
      simp [WorldBridge.scheduleSave, NativeWorldPersistence.scheduleSave, withCall,
        withPersistence, hnew]
    · simp [WorldBridge.scheduleSave, NativeWorldPersistence.scheduleSave, withCall,
        withPersistence, heq]
  · rcases Finset.mem_insert.mp hp with rfl | hp
    · obtain ⟨c, hc, -⟩ := hcovered
      exact Option.ne_none_iff_exists'.mpr ⟨c, hc⟩
    · exact h.resident p hp
  · rcases Multiset.mem_cons.mp ht with heq | ht
    · cases heq
      exact hcovered
    · exact h.commands t ht
  · intro hmem
    rcases Finset.mem_insert.mp hmem with heq | hmem
    · refine hnodup.1 ?_
      rw [← heq]
      exact List.mem_map_of_mem (hcall ▸ ht)
    · exact h.fresh t (hsub ht) hmem

-- An eviction that is refused or concerns a chunk without a save in flight.
theorem Saving.evict (h : Saving b) (hcall : b.call = .idle)
    (hp : p ∈ b.persistence.saveInFlight → ∀ c, b.store.chunks p = some c →
      c.pinCount ≠ 0 ∨ c.isDirty = true) :
    Saving (b.withStore (b.store.tryEvictChunk p).2) := by
  have hreach : WorldStore.Reachable (fun _ => True) (b.store.tryEvictChunk p).2 :=
    h.store.op (.tryEvictChunk p)
  rw [tryEvictChunk] at hreach ⊢
  cases hc : b.store.chunks p with
  | none => exact h
  | some c =>
    rw [hc] at hreach
    dsimp only at hreach ⊢
    split
    · exact h
    · rename_i hpin
      split
      · exact h
      · rename_i hdirty
        rw [if_neg hpin, if_neg hdirty] at hreach
        have hout : p ∉ b.persistence.saveInFlight := fun hmem =>
          (hp hmem c hc).elim hpin hdirty
        have hsame {q : ChunkCoord} (hq : q ∈ b.persistence.saveInFlight) :
            (b.store.removeChunk p).chunks q = b.store.chunks q :=
          removeChunk_of_ne _ (ne_of_mem_of_not_mem hq hout)
        have hbatch : b.call.batch = [] := by
          rw [hcall]
          rfl
        refine ⟨hreach, h.single, fun q hq => ?_, fun s hs => ?_, fun r hr => ?_, ?_, h.nodup,
          h.fresh⟩
        · exact (hsame hq).symm ▸ h.resident q hq
        · exact (h.commands s hs).congr (hsame (h.command_inFlight hs))
        · exact (h.receipts r hr).congr (hsame (h.completion_inFlight hr))
        · exact fun s hs => absurd (hbatch ▸ hs) List.not_mem_nil

theorem Saving.collect (h : Saving b) {limit : Nat} {batch : List ChunkSnapshot} {call : Call γ}
    (hb : DirtyBatch b.store limit b.persistence.saveInFlight batch) (hcall : call.batch = batch) :
    Saving (b.withCall call) := by
  subst hcall
  refine ⟨h.store, h.single, h.resident, h.commands, h.receipts, fun s hs => ?_, hb.nodup,
    fun s hs => ?_⟩
  · obtain ⟨c, hc, -, heq, -⟩ := hb.taken s hs
    rw [heq]
    exact h.snapshot hc
  · obtain ⟨_, -, -, -, hout⟩ := hb.taken s hs
    exact hout

theorem Saving.enter (h : Saving b) {call : Call γ} (hcall : call.batch = []) :
    Saving (b.withCall call) :=
  h.frame rfl rfl (.inl hcall) (.refl _)

theorem Saving.control (h : Saving b) {before call : Call γ} (hs : ControlStep b before call) :
    Saving (b.withCall call) := by
  cases hs with
  | collected hb => exact h.collect hb rfl
  | settled hb => exact h.collect hb rfl
  | @polled completed budget next => cases next <;> exact h.enter rfl
  | _ => exact h.enter rfl

theorem applyLoadCompletion_run {c : LoadCompletion} {rest : Multiset LoadCompletion}
    {result : Except BridgeError Unit}
    (hr : (b.receiveLoad c rest).applyLoadCompletion c = (result, b')) :
    StoreRun b.store b'.store := by
  rw [WorldBridge.applyLoadCompletion.eq_def] at hr
  cases c with
  | loaded chunk =>
    have hrun : StoreRun b.store
        (b.store.importChunkIfAbsent chunk.position chunk.imported).2 :=
      .op (.importChunkIfAbsent chunk.position chunk.imported) trivial
    dsimp only at hr
    split at hr
    all_goals
      rename_i store heq
      cases hr
      have hsame : (b.store.importChunkIfAbsent chunk.position chunk.imported).2 = store :=
        congrArg Prod.snd heq
      exact hsame ▸ hrun
  | missing p =>
    cases hr
    exact .refl _
  | failed failure =>
    cases hr
    exact .refl _

theorem Saving.load (h : Saving b) {c : LoadCompletion} {rest : Multiset LoadCompletion}
    {result : Except BridgeError Unit} {call : Call γ} (hcall : call.batch = [])
    (hr : (b.receiveLoad c rest).applyLoadCompletion c = (result, b')) :
    Saving (b'.withCall call) := by
  have hrun := applyLoadCompletion_run hr
  have hsame : b'.persistence.saves = b.persistence.saves ∧
      b'.persistence.saveInFlight = b.persistence.saveInFlight := by
    rw [WorldBridge.applyLoadCompletion.eq_def] at hr
    cases c with
    | loaded chunk =>
      dsimp only at hr
      split at hr <;> (cases hr; exact ⟨rfl, rfl⟩)
    | missing p =>
      cases hr
      exact ⟨rfl, rfl⟩
    | failed failure =>
      cases hr
      exact ⟨rfl, rfl⟩
  exact h.frame hsame.1 hsame.2 (.inl hcall) hrun

theorem Saving.ensureChunk (h : Saving b) (p : ChunkCoord) (biome : UInt8) :
    Saving (b.ensureChunk p biome) := by
  have hrun : StoreRun b.store (b.store.ensureChunk p biome).2 :=
    .op (.ensureChunk p biome) trivial
  rw [WorldBridge.ensureChunk]
  split <;> (rename_i heq; rw [heq] at hrun; exact h.frame rfl rfl (.inr rfl) hrun)

theorem Saving.generate (h : Saving b) {runtime : NativeInfiniteGenerator γ} {target : ChunkCoord} :
    Saving ((b.generate terrain runtime target).withCall .idle) := by
  have hrun : StoreRun b.store (b.runGenerator terrain runtime target).2.store :=
    generateIntoStore_runs ⟨runtime.state, b.store⟩
  rw [WorldBridge.generate]
  split
  · rename_i heq
    rw [heq] at hrun
    exact h.frame rfl rfl (.inl rfl) hrun
  · rename_i heq
    rw [heq] at hrun
    split
    · refine h.frame ?_ ?_ (.inl rfl) hrun
      · simp only [withCall, clearMissingAfterGeneration, clearMissing_fold]
        rfl
      · simp only [withCall, clearMissingAfterGeneration, clearMissing_fold]
        rfl
    · exact h.frame rfl rfl (.inl rfl) hrun

theorem Saving.compaction (h : Saving b) {c : CompactionCompletion}
    {rest : Multiset CompactionCompletion} {result : Except BridgeError Bool} {call : Call γ}
    (hcall : call.batch = [])
    (hr : (b.receiveCompaction rest).applyCompactionCompletion c = (result, b')) :
    Saving (b'.withCall call) := by
  obtain ⟨-, hs, -, hflight⟩ := applyCompactionCompletion_frame (b.receiveCompaction rest).persistence c
  have hb : b' = (b.receiveCompaction rest).withPersistence
      ((b.receiveCompaction rest).persistence.applyCompactionCompletion c).2 :=
    (congrArg Prod.snd hr).symm
  subst hb
  have hcommands := congrArg SaveDesk.commands hs
  have hcompletions := congrArg SaveDesk.completions hs
  have hsaving (p : ChunkCoord) := congrArg (SaveDesk.saving · p) hs
  have hsub (s : ChunkSnapshot) := (congrArg (SaveCommand.save s ∈ ·) hcommands).mp
  exact h.steady hsub hcompletions hsaving hflight (.inl hcall) (.refl _)

-- No call of `try_evict_chunk` takes a chunk away whose save is in flight.
def Spares (b b' : WorldBridge γ) : Prop :=
  ∀ p ∈ b.persistence.saveInFlight, b.call = .idle →
    b' = b.withStore (b.store.tryEvictChunk p).2 →
      ∀ c, b.store.chunks p = some c → c.pinCount ≠ 0 ∨ c.isDirty = true

theorem withCall_self (b : WorldBridge γ) : b.withCall b.call = b := rfl

theorem Saving.step (h : Saving b) (hs : BridgeStep terrain initial allowed b b')
    (hspares : Spares b b') : Saving b' := by
  cases hs with
  | disk hd => exact h.disk hd
  | control hc => exact h.control hc
  | pin p => exact h.frame rfl rfl (.inr rfl) (.op (.pinChunk p) trivial)
  | unpin p => exact h.frame rfl rfl (.inr rfl) (.op (.unpinChunk p) trivial)
  | edit hcall he => exact h.frame rfl rfl (.inr rfl) (.op _ (edit_keeps he))
  | evict hcall p => exact h.evict hcall fun hp => hspares p hp hcall rfl
  | ensureChunk hcall p biome ha => exact h.ensureChunk p biome
  | requestLoad hcall hr hm hf => exact h.frame rfl rfl (.inr rfl) (.refl _)
  | pollOne hcall hb hc hr => exact h.load rfl hr
  | pollFailed hcall hb hc hr => exact h.load rfl hr
  | queued hcall hr hm hf => exact h.frame rfl rfl (.inl rfl) (.refl _)
  | queuedRequired hcall hr hm hf => exact h.frame rfl rfl (.inl rfl) (.refl _)
  | generate hcall hr ha => exact h.generate
  | takeCompaction hcall hb hc hr => exact h.compaction rfl hr
  | drainCompaction hcall hc hr =>
    have hsame := congrArg (fun x => x.2.call) hr
    exact withCall_self b' ▸ h.compaction (by rw [← hsame]; exact congrArg Call.batch hcall) hr
  | compactionFailed hcall hc hr => exact h.compaction rfl hr
  | collectOne hcall hb hc hr => exact h.take rfl hc hr
  | settleOne hcall hc hr =>
    have hsame := congrArg (fun x => x.2.call) hr
    have hsettling : b'.call = .settling := hsame.symm.trans (applySaveCompletion_call.trans hcall)
    exact withCall_self b' ▸ h.take (by rw [hsettling]; rfl) hc hr
  | waitOne hcall hc hr => exact h.take rfl hc hr
  | saveFailed hcall hc hr => exact h.take rfl hc hr
  | schedule hcall => exact h.schedule (by rw [hcall]; rfl) rfl
  | flushOne hcall => exact h.schedule (by rw [hcall]; rfl) rfl
  | skipCompaction hcall hb hq hw => exact h.frame rfl rfl (.inr rfl) (.refl _)
  | @startCompaction scheduled budget region rest hcall hb hq hw =>
    refine h.steady (fun s hs => ?_) rfl (fun p => ?_) rfl (.inl rfl) (.refl _)
    · rcases Multiset.mem_cons.mp hs with heq | hs
      · cases heq
      · exact hs
    · change ((b.persistence.popCompaction region rest).saves.submit (.compact region)).saving p = _
      simp only [SaveDesk.saving, SaveDesk.submit, Multiset.map_cons, savedPosition,
        Multiset.count_cons]
      simp
      rfl
  | compactionBackpressure hcall hb hq hw => exact h.frame rfl rfl (.inl rfl) (.refl _)
  | compactionClosed hcall hb hq hw => exact h.frame rfl rfl (.inl rfl) (.refl _)
  | written hcall => exact h.frame rfl rfl (.inl rfl) (.refl _)
  | writeFailed hcall hf => exact h.frame rfl rfl (.inl rfl) (.refl _)

end Cobblestone.Bridge
