import Cobblestone.Lib.Logs
import Cobblestone.World.Journal

namespace Cobblestone.World

open Lib WorldStore

variable {s : WorldStore} {p : ChunkCoord} {c : ChunkRecord} {patch : ChunkPatch}

theorem validatePatch_ok_iff {u : Unit} : validatePatch patch = .ok u ↔ PatchValid patch := by
  refine ⟨validatePatch_valid, fun h => ?_⟩
  simp only [validatePatch, bind_ok_iff, exists_const, forM_ok_iff, Prod.forall,
    validateBlockIndex_ok_iff, validateState_ok_iff, validateBiomeWord_ok_iff,
    validateLight_ok_iff, validateColumnIndex_ok, true_and]
  exact ⟨fun index state he => h.blocks (index, state) he,
    fun index word he => h.biomes (index, word) he,
    fun index value he => h.extraData (index, value) he,
    fun index level he => h.light (index, level) he⟩

theorem patchRecord_of_accepted (h : PatchAccepted c patch) :
    patchRecord c patch = (.ok (), patched c patch) := by
  unfold patchRecord
  rw [if_neg (not_not.mpr h.terrain), if_neg (not_not.mpr h.light), h.nextTerrain]
  simp only [ne_eq, not_true_eq_false, if_false, h.nextLight]
  rfl

theorem patchRecord_ok_iff : (patchRecord c patch).1 = .ok () ↔ PatchAccepted c patch := by
  constructor
  · intro h
    rcases patchRecord_cases c patch with ⟨e, he⟩ | ⟨ha, -⟩
    · rw [he] at h
      cases h
    · exact ha
  · intro h
    rw [patchRecord_of_accepted h]

theorem applyPatch_cases (hc : s.chunks p = some c) (patch : ChunkPatch) :
    (PatchValid patch ∧ PatchAccepted c patch ∧
      s.applyPatch p patch = (.ok (),
        match changeKind patch with
        | none => s.setChunk p (patched c patch)
        | some kind => (s.setChunk p (patched c patch)).recordChange p kind)) ∨
      (¬(PatchValid patch ∧ PatchAccepted c patch) ∧ ∃ e, s.applyPatch p patch = (.error e, s)) := by
  cases hv : validatePatch patch with
  | error e =>
    refine .inr ⟨fun h => ?_, e, by rw [applyPatch, hv]⟩
    rw [validatePatch_ok_iff (u := ()).mpr h.1] at hv
    cases hv
  | ok u =>
    have hvalid := validatePatch_ok_iff.mp hv
    have hrecord : (s.withChunkMut p fun c => patchRecord c patch) =
        ((patchRecord c patch).1, s.setChunk p (patchRecord c patch).2) := by
      rw [withChunkMut, hc]
    rcases patchRecord_cases c patch with ⟨e, he⟩ | ⟨ha, hok⟩
    · refine .inr ⟨fun h => ?_, e, ?_⟩
      · have := patchRecord_ok_iff.mpr h.2
        rw [he] at this
        cases this
      · rw [applyPatch, hv]
        dsimp only
        rw [hrecord, he, setChunk_same hc]
    · refine .inl ⟨hvalid, ha, ?_⟩
      rw [applyPatch, hv]
      dsimp only
      rw [hrecord, hok]
      cases changeKind patch <;> rfl

-- The block edits skip what is already there; the plane is the same as writing every edit.
theorem applyBlocks_states (states : List UInt16) (edits : List (UInt16 × UInt16)) :
    (applyBlocks states edits).1 =
      edits.foldl (fun states edit => states.set edit.1.toNat edit.2) states := by
  suffices h : ∀ acc : List UInt16 × (Nat → Bool), (edits.foldl applyBlock acc).1 =
      edits.foldl (fun states edit => states.set edit.1.toNat edit.2) acc.1 from h _
  induction edits with
  | nil => exact fun _ => rfl
  | cons edit edits ih =>
    intro acc
    have hset : (applyBlock acc edit).1 = acc.1.set edit.1.toNat edit.2 := by
      rw [applyBlock]
      split
      · rfl
      · next h =>
        rw [not_not, List.getD_eq_getElem?_getD] at h
        apply List.ext_getElem?
        intro i
        by_cases hi : edit.1.toNat = i
        · subst hi
          rw [List.getElem?_set_self']
          cases hget : acc.1[edit.1.toNat]? with
          | none => rfl
          | some v =>
            rw [hget] at h
            exact congrArg some h
        · rw [List.getElem?_set_ne hi]
    rw [List.foldl_cons, List.foldl_cons, ih, hset]

theorem patchData_eq (data : ChunkData) (patch : ChunkPatch) :
    ∃ heights, patchData data patch =
      { data with
        states := patch.blocks.foldl (fun states edit => states.set edit.1.toNat edit.2) data.states
        biomes := patch.biomes.foldl (fun biomes edit => biomes.set edit.1.toNat edit.2) data.biomes
        extraData := patch.extraData.foldl
          (fun extra edit => putExtra extra (linearIndexToExtraKey edit.1) edit.2) data.extraData
        skyLight := patch.skyLight.foldl
          (fun plane edit => writeNibble plane edit.1.toNat edit.2) data.skyLight
        blockLight := patch.blockLight.foldl
          (fun plane edit => writeNibble plane edit.1.toNat edit.2) data.blockLight
        heightMap := heights } := by
  rw [patchData]
  obtain ⟨heights, hh⟩ := recalculateTouched_keeps _ (applyBlocks data.states patch.blocks).2
  rw [hh, ← applyBlocks_states]
  exact ⟨heights, rfl⟩

theorem getD_set {α : Type} {xs : List α} {i j : Nat} (hi : i < xs.length) (v d : α) :
    (xs.set i v).getD j d = if i = j then v else xs.getD j d := by
  rw [List.getD_eq_getElem?_getD, List.getD_eq_getElem?_getD]
  by_cases h : i = j
  · subst h
    rw [if_pos rfl, List.getElem?_set_self hi, Option.getD_some]
  · rw [if_neg h, List.getElem?_set_ne h]

theorem getElem?_putExtra (extra : ExtraData) (key value k : UInt16) :
    (putExtra extra key value)[k]? =
      if key = k then (if value = 0 then none else some value) else extra[k]? := by
  by_cases hv : value = 0
  · simp only [putExtra, if_pos hv, Std.ExtTreeMap.getElem?_erase, Std.LawfulEqCmp.compare_eq_iff_eq]
  · simp only [putExtra, if_neg hv, Std.ExtTreeMap.getElem?_insert,
      Std.LawfulEqCmp.compare_eq_iff_eq]

theorem readNibble_writes {plane : Bytes} (hl : plane.length = chunkNibbleBytes)
    {edits : List (UInt16 × UInt8)}
    (he : ∀ edit ∈ edits, edit.1.toNat < chunkBlockCount ∧ edit.2.toNat < 16) (k : UInt16) :
    readNibble (applyNibbles plane edits) k.toNat =
      (lastWrite edits k).getD (readNibble plane k.toNat) := by
  have hread : ∀ (plane : Bytes) (edit : UInt16 × UInt8) (k : UInt16),
      plane.length = chunkNibbleBytes → edit.1.toNat < chunkBlockCount ∧ edit.2.toNat < 16 →
        readNibble (writeNibble plane edit.1.toNat edit.2) k.toNat =
          if edit.1 = k then edit.2 else readNibble plane k.toNat := by
    intro plane edit k hl hv
    have hbound : edit.1.toNat / 2 < plane.length := by
      rw [hl]
      have hpair : chunkBlockCount = 2 * chunkNibbleBytes := rfl
      have := hv.1
      omega
    by_cases hk : edit.1 = k
    · rw [if_pos hk, ← hk, readNibble_writeNibble_self hbound hv.2]
    · have hne : edit.1.toNat ≠ k.toNat := fun h => hk (UInt16.toNat_inj.mp h)
      rw [if_neg hk, readNibble_writeNibble_of_ne hbound hv.2 hne]
  have hfold := read_foldl (r := fun plane (k : UInt16) => readNibble plane k.toNat) (f := id)
    (fun plane edit hl _ => (length_writeNibble plane edit.1.toNat edit.2).trans hl) hread hl edits
    he k
  rwa [Option.map_id] at hfold

theorem getD_sets {κ α : Type} [DecidableEq κ] {n : Nat} (toNat : κ → Nat)
    (hinj : ∀ a b, toNat a = toNat b → a = b) (d : α) {xs : List α} (hl : xs.length = n)
    {edits : List (κ × α)} (he : ∀ edit ∈ edits, toNat edit.1 < n) (k : κ) :
    (edits.foldl (fun xs edit => xs.set (toNat edit.1) edit.2) xs).getD (toNat k) d =
      (lastWrite edits k).getD (xs.getD (toNat k) d) := by
  have hread : ∀ (xs : List α) (edit : κ × α) (k : κ), xs.length = n → toNat edit.1 < n →
      (xs.set (toNat edit.1) edit.2).getD (toNat k) d =
        if edit.1 = k then edit.2 else xs.getD (toNat k) d := by
    intro xs edit k hl hv
    rw [getD_set (hl ▸ hv)]
    by_cases hk : edit.1 = k
    · rw [if_pos hk, if_pos (congrArg toNat hk)]
    · rw [if_neg hk, if_neg fun h => hk (hinj _ _ h)]
  have hfold := read_foldl (I := fun xs : List α => xs.length = n)
    (r := fun xs (k : κ) => xs.getD (toNat k) d) (f := id)
    (fun xs edit hl _ => List.length_set.trans hl) hread hl edits he k
  rwa [Option.map_id] at hfold

theorem getElem?_putExtras (extra : ExtraData) (edits : List (UInt16 × UInt16)) (k : UInt16) :
    (edits.foldl (fun extra edit => putExtra extra edit.1 edit.2) extra)[k]? =
      ((lastWrite edits k).map fun value => if value = 0 then none else some value).getD extra[k]? :=
  read_foldl (I := fun _ => True) (V := fun _ => True)
    (r := fun (extra : ExtraData) (k : UInt16) => extra[k]?)
    (fun _ _ _ _ => trivial) (fun extra edit k _ _ => getElem?_putExtra extra edit.1 edit.2 k)
    trivial edits (fun _ _ => trivial) k

-- What the planes of a chunk hold after the edits of a patch, in the order of the edit lists.
structure PlanesPatched (data : ChunkData) (patch : ChunkPatch) (data' : ChunkData) : Prop where
  states : data'.states =
    patch.blocks.foldl (fun states edit => states.set edit.1.toNat edit.2) data.states
  states_last : ∀ k : UInt16, data'.states.getD k.toNat 0 =
    (lastWrite patch.blocks k).getD (data.states.getD k.toNat 0)
  biomes : data'.biomes =
    patch.biomes.foldl (fun biomes edit => biomes.set edit.1.toNat edit.2) data.biomes
  biomes_last : ∀ k : UInt8, data'.biomes.getD k.toNat 0 =
    (lastWrite patch.biomes k).getD (data.biomes.getD k.toNat 0)
  extraData_last : ∀ key : UInt16, data'.extraData[key]? =
    ((lastWrite (patch.extraData.map fun edit => (linearIndexToExtraKey edit.1, edit.2)) key).map
      fun value => if value = 0 then none else some value).getD data.extraData[key]?
  skyLight : data'.skyLight = applyNibbles data.skyLight patch.skyLight
  skyLight_last : ∀ k : UInt16, readNibble data'.skyLight k.toNat =
    (lastWrite patch.skyLight k).getD (readNibble data.skyLight k.toNat)
  blockLight : data'.blockLight = applyNibbles data.blockLight patch.blockLight
  blockLight_last : ∀ k : UInt16, readNibble data'.blockLight k.toNat =
    (lastWrite patch.blockLight k).getD (readNibble data.blockLight k.toNat)
  chests : data'.chestBlockEntities = data.chestBlockEntities

theorem patchData_planes {data : ChunkData} (hd : data.WellFormed) (hp : PatchValid patch) :
    PlanesPatched data patch (patchData data patch) := by
  obtain ⟨heights, heq⟩ := patchData_eq data patch
  have hsky : ∀ edit ∈ patch.skyLight, edit.1.toNat < chunkBlockCount ∧ edit.2.toNat < 16 :=
    fun edit he => hp.light edit (List.mem_append_left _ he)
  have hblock : ∀ edit ∈ patch.blockLight, edit.1.toNat < chunkBlockCount ∧ edit.2.toNat < 16 :=
    fun edit he => hp.light edit (List.mem_append_right _ he)
  rw [heq]
  refine ⟨rfl, fun k => ?_, rfl, fun k => ?_, fun key => ?_, rfl, ?_, rfl, ?_, rfl⟩
  · exact getD_sets UInt16.toNat (fun _ _ => UInt16.toNat_inj.mp) 0 hd.states_length
      (fun edit he => (hp.blocks edit he).1) k
  · exact getD_sets UInt8.toNat (fun _ _ => UInt8.toNat_inj.mp) 0 hd.biomes_length
      (fun edit _ => edit.1.toNat_lt) k
  · rw [← getElem?_putExtras, List.foldl_map]
  · exact readNibble_writes hd.skyLight_length hsky
  · exact readNibble_writes hd.blockLight_length hblock

abbrev TerrainEdits (patch : ChunkPatch) : Prop :=
  patch.blocks ≠ [] ∨ patch.biomes ≠ [] ∨ patch.extraData ≠ []

abbrev LightEdits (patch : ChunkPatch) : Prop := patch.skyLight ≠ [] ∨ patch.blockLight ≠ []

abbrev PointEdits (patch : ChunkPatch) : Prop :=
  ¬LightEdits patch ∧ patch.biomes = [] ∧ patch.extraData = [] ∧
    patch.blocks.length ≤ maxPointBlockChanges

structure PatchApplied (s t : WorldStore) (p : ChunkCoord) (c : ChunkRecord) (patch : ChunkPatch) :
    Prop where
  chunk : ∃ c', t.chunks p = some c' ∧ PlanesPatched c.data patch c'.data ∧
    c'.terrainRevision.toNat = c.terrainRevision.toNat + (if TerrainEdits patch then 1 else 0) ∧
    c'.lightRevision.toNat = c.lightRevision.toNat + (if LightEdits patch then 1 else 0) ∧
    c'.lifecycleFlags = c.lifecycleFlags ∧ c'.pinCount = c.pinCount ∧
    c'.persistedTerrainRevision = c.persistedTerrainRevision ∧
    c'.persistedLightRevision = c.persistedLightRevision ∧
    c'.persistedLifecycleFlags = c.persistedLifecycleFlags
  others : ∀ q, q ≠ p → t.chunks q = s.chunks q
  no_entry : ¬TerrainEdits patch → ¬LightEdits patch → t.changes = s.changes
  point_entry : TerrainEdits patch ∨ LightEdits patch → PointEdits patch →
    t.changes = s.changes.record p (.blocks patch.blocks)
  full_entry : TerrainEdits patch ∨ LightEdits patch → ¬PointEdits patch →
    t.changes = s.changes.record p .fullChunk

theorem patchChangesTerrain_iff : patchChangesTerrain patch = true ↔ TerrainEdits patch := by
  simp [patchChangesTerrain, TerrainEdits, or_iff_not_imp_left]

theorem patchChangesLight_iff : patchChangesLight patch = true ↔ LightEdits patch := by
  simp [patchChangesLight, LightEdits, or_iff_not_imp_left]

theorem bumped_toNat {b : Bool} {n m : UInt64}
    (h : (if b then checkedSucc n else some n) = some m) : m.toNat = n.toNat + (if b then 1 else 0) := by
  cases b with
  | false =>
    cases h
    rfl
  | true => exact checkedSucc_toNat h

theorem patched_revisions (h : PatchAccepted c patch) :
    (patched c patch).terrainRevision.toNat =
        c.terrainRevision.toNat + (if TerrainEdits patch then 1 else 0) ∧
      (patched c patch).lightRevision.toNat =
        c.lightRevision.toNat + (if LightEdits patch then 1 else 0) := by
  have hterrain := bumped_toNat h.nextTerrain
  have hlight := bumped_toNat h.nextLight
  simp only [patchChangesTerrain_iff] at hterrain
  simp only [patchChangesLight_iff] at hlight
  exact ⟨hterrain, hlight⟩

theorem changeKind_eq (patch : ChunkPatch) : changeKind patch =
    if ¬TerrainEdits patch ∧ ¬LightEdits patch then none
    else if PointEdits patch then some (.blocks patch.blocks) else some .fullChunk := by
  rw [changeKind]
  simp only [Bool.and_eq_true, Bool.not_eq_true', ← Bool.not_eq_true, patchChangesTerrain_iff,
    patchChangesLight_iff, decide_eq_true_eq, List.isEmpty_iff, PointEdits, and_assoc]

theorem applied_of_accepted (hd : c.data.WellFormed) (hp : PatchValid patch)
    (ha : PatchAccepted c patch) :
    PatchApplied s (match changeKind patch with
      | none => s.setChunk p (patched c patch)
      | some kind => (s.setChunk p (patched c patch)).recordChange p kind) p c patch := by
  obtain ⟨hterrain, hlight⟩ := patched_revisions ha
  have hplanes : PlanesPatched c.data patch (patched c patch).data := by
    rw [patched_data]
    exact patchData_planes hd hp
  rw [changeKind_eq]
  constructor
  · refine ⟨patched c patch, ?_, hplanes, hterrain, hlight, rfl, rfl, rfl, rfl, rfl⟩
    split_ifs <;> exact setChunk_self ..
  · intro q hq
    split_ifs <;> exact setChunk_of_ne _ _ hq
  · intro hnt hnl
    rw [if_pos ⟨hnt, hnl⟩]
    rfl
  · intro hany hpoint
    rw [if_neg (by tauto), if_pos hpoint]
    rfl
  · intro hany hpoint
    rw [if_neg (by tauto), if_neg hpoint]
    rfl

theorem applyPatch_exact {allowed : ChunkImport → Prop} (hs : s.Reachable allowed)
    (hc : s.chunks p = some c) (patch : ChunkPatch) :
    ((s.applyPatch p patch).1 = .ok () ↔ PatchValid patch ∧ PatchAccepted c patch) ∧
      ((s.applyPatch p patch).1 = .ok () → PatchApplied s (s.applyPatch p patch).2 p c patch) ∧
      (∀ e, (s.applyPatch p patch).1 = .error e → (s.applyPatch p patch).2 = s) := by
  have hsound : s.AllChunks (ChunkRecord.Sound fun _ => True) :=
    hs.sound trivial fun _ _ => trivial
  have hd : c.data.WellFormed := (hsound p c hc).data.wellFormed
  rcases applyPatch_cases hc patch with ⟨hp, ha, heq⟩ | ⟨hno, e, heq⟩
  · rw [heq]
    refine ⟨⟨fun _ => ⟨hp, ha⟩, fun _ => rfl⟩, fun _ => applied_of_accepted hd hp ha, ?_⟩
    intro e he
    cases he
  · rw [heq]
    refine ⟨⟨fun h => ?_, fun h => absurd h hno⟩, fun h => ?_, fun _ _ => rfl⟩
    · cases h
    · cases h

def stonePatch : ChunkPatch where
  expectedTerrainRevision := 0
  nextTerrainRevision := 1
  expectedLightRevision := 0
  nextLightRevision := 0
  blocks := [(0, 16), (0, 32)]
  biomes := []
  extraData := []
  skyLight := []
  blockLight := []

theorem applyPatch_exact_stone :
    (bareStore.applyPatch originChunk stonePatch).1 = .ok () ∧
      PatchApplied bareStore (bareStore.applyPatch originChunk stonePatch).2 originChunk bareChunk
        stonePatch := by
  obtain ⟨hiff, happlied, -⟩ := applyPatch_exact (bareStore_reachable fun _ => False)
    (setChunk_self WorldStore.new originChunk bareChunk) stonePatch
  have hvalid : PatchValid stonePatch := by
    constructor <;> simp [stonePatch]
    decide
  have haccepted : PatchAccepted bareChunk stonePatch := ⟨rfl, rfl, rfl, rfl⟩
  have hok := hiff.mpr ⟨hvalid, haccepted⟩
  exact ⟨hok, happlied hok⟩

end Cobblestone.World
