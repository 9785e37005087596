import Cobblestone.World.PopulationLight
import Cobblestone.World.Heights
import Cobblestone.World.Retain

namespace Cobblestone.World

open Lib WorldStore

variable {states : List UInt16} {edits : List (UInt16 × UInt16)} {data : ChunkData}

def columnOf (index : UInt16) : Nat := index.toNat % chunkColumnCount

theorem columnOf_lt (index : UInt16) : columnOf index < chunkColumnCount :=
  Nat.mod_lt _ (by decide)

-- The edits of the patch that writes back what stood at the edited positions.
def previousStates (states : List UInt16) (edits : List (UInt16 × UInt16)) :
    List (UInt16 × UInt16) :=
  edits.map fun edit => (edit.1, states.getD edit.1.toNat 0)

abbrev InChunk (edits : List (UInt16 × UInt16)) : Prop :=
  ∀ edit ∈ edits, edit.1.toNat < chunkBlockCount

theorem inChunk_previousStates (h : InChunk edits) : InChunk (previousStates states edits) := by
  intro edit he
  obtain ⟨source, hsource, rfl⟩ := List.mem_map.mp he
  exact h source hsource

def Differs (states : List UInt16) (edits : List (UInt16 × UInt16)) (column : Nat) : Prop :=
  ∃ edit ∈ edits, columnOf edit.1 = column ∧ states.getD edit.1.toNat 0 ≠ edit.2

theorem length_applyBlocks (states : List UInt16) (edits : List (UInt16 × UInt16)) :
    (applyBlocks states edits).1.length = states.length := by
  rw [applyBlocks_states]
  exact List.foldlRecOn (motive := fun xs : List UInt16 => xs.length = states.length) edits _ rfl
    fun xs hxs edit _ => List.length_set.trans hxs

theorem getD_applyBlocks (hl : states.length = chunkBlockCount) (h : InChunk edits) (k : UInt16) :
    (applyBlocks states edits).1.getD k.toNat 0 =
      (lastWrite edits k).getD (states.getD k.toNat 0) := by
  rw [applyBlocks_states]
  exact getD_sets UInt16.toNat (fun _ _ => UInt16.toNat_inj.mp) 0 hl h k

theorem applyBlocks_append_one (states : List UInt16) (edits : List (UInt16 × UInt16))
    (edit : UInt16 × UInt16) :
    applyBlocks states (edits ++ [edit]) = applyBlock (applyBlocks states edits) edit := by
  rw [applyBlocks, List.foldl_append]
  rfl

theorem applyBlock_touched (acc : List UInt16 × (Nat → Bool)) (edit : UInt16 × UInt16)
    (column : Nat) : (applyBlock acc edit).2 column = true ↔
      acc.2 column = true ∨ columnOf edit.1 = column ∧ acc.1.getD edit.1.toNat 0 ≠ edit.2 := by
  have hcolumn : edit.1.toNat &&& 0xff = columnOf edit.1 := Nat.and_two_pow_sub_one_eq_mod _ 8
  rw [applyBlock]
  split
  · next hne =>
    rw [hcolumn]
    by_cases hc : column = columnOf edit.1
    · subst hc
      exact ⟨fun _ => .inr ⟨rfl, hne⟩, fun _ => Function.update_self ..⟩
    · simp [Function.update_of_ne hc, Ne.symm hc]
  · next heq => exact ⟨.inl, fun h => h.resolve_right fun hr => heq hr.2⟩

-- A column is redone when some edit in it is not what stood there, whatever the edits before it.
theorem touched_iff_differs (hl : states.length = chunkBlockCount) (h : InChunk edits)
    (column : Nat) : (applyBlocks states edits).2 column = true ↔ Differs states edits column := by
  induction edits using List.reverseRecOn with
  | nil => simp [applyBlocks, Differs]
  | append_singleton edits edit ih =>
    have hrest : InChunk edits := fun e he => h e (List.mem_append_left _ he)
    have hsplit : Differs states (edits ++ [edit]) column ↔ Differs states edits column ∨
        columnOf edit.1 = column ∧ states.getD edit.1.toNat 0 ≠ edit.2 := by
      simp only [Differs, List.mem_append, List.mem_singleton, or_and_right, exists_or,
        exists_eq_left]
    rw [applyBlocks_append_one, applyBlock_touched, ih hrest, hsplit, getD_applyBlocks hl hrest]
    cases hlast : lastWrite edits edit.1 with
    | none => rfl
    | some written =>
      have hbefore (hne : states.getD edit.1.toNat 0 ≠ written) (hc : columnOf edit.1 = column) :
          Differs states edits column := ⟨(edit.1, written), lastWrite_mem hlast, hc, hne⟩
      rw [Option.getD_some]
      constructor
      · rintro (hin | ⟨hc, hne⟩)
        · exact .inl hin
        · by_cases heq : states.getD edit.1.toNat 0 = edit.2
          · exact .inl (hbefore (heq ▸ hne.symm) hc)
          · exact .inr ⟨hc, heq⟩
      · rintro (hin | ⟨hc, hne⟩)
        · exact .inl hin
        · by_cases heq : written = edit.2
          · exact .inl (hbefore (heq ▸ hne) hc)
          · exact .inr ⟨hc, heq⟩

section

variable {touched : Nat → Bool} {columns : List Nat} {column : Nat}

theorem recalculateColumn_height (hl : data.heightMap.length = chunkColumnCount) {other : Nat}
    (ho : other < chunkColumnCount) (column : Nat) :
    (recalculateColumnHeight data other).heightMap.getD column 0 =
      if other = column then columnHeight data.states other else data.heightMap.getD column 0 :=
  getD_set (hl ▸ ho) _ _

theorem recalculateColumns_kept (hl : data.heightMap.length = chunkColumnCount)
    (hin : ∀ c ∈ columns, c < chunkColumnCount) (h : column ∈ columns → touched column = false) :
    (columns.foldl (fun data column =>
        if touched column then recalculateColumnHeight data column else data) data).heightMap.getD
      column 0 = data.heightMap.getD column 0 := by
  induction columns generalizing data with
  | nil => rfl
  | cons other columns ih =>
    have hrest : ∀ c ∈ columns, c < chunkColumnCount := fun c hc => hin c (List.mem_cons_of_mem _ hc)
    have htail : column ∈ columns → touched column = false := fun hc => h (List.mem_cons_of_mem _ hc)
    rw [List.foldl_cons]
    cases ht : touched other with
    | false => rw [if_neg Bool.false_ne_true, ih hl hrest htail]
    | true =>
      have hne : other ≠ column := by
        rintro rfl
        rw [h List.mem_cons_self] at ht
        cases ht
      rw [if_pos rfl, ih (List.length_set.trans hl) hrest htail,
        recalculateColumn_height hl (hin other List.mem_cons_self), if_neg hne]

theorem recalculateColumns_redone (hl : data.heightMap.length = chunkColumnCount)
    (hin : ∀ c ∈ columns, c < chunkColumnCount) (hc : column ∈ columns)
    (ht : touched column = true) :
    (columns.foldl (fun data column =>
        if touched column then recalculateColumnHeight data column else data) data).heightMap.getD
      column 0 = columnHeight data.states column := by
  induction columns generalizing data with
  | nil => cases hc
  | cons other columns ih =>
    have hrest : ∀ c ∈ columns, c < chunkColumnCount := fun c hc => hin c (List.mem_cons_of_mem _ hc)
    have hother := hin other List.mem_cons_self
    have hlength : (if touched other then recalculateColumnHeight data other
        else data).heightMap.length = chunkColumnCount := by
      split
      · exact List.length_set.trans hl
      · exact hl
    have hstates : (if touched other then recalculateColumnHeight data other else data).states =
        data.states := by
      split <;> rfl
    rw [List.foldl_cons]
    by_cases hmem : column ∈ columns
    · rw [ih hlength hrest hmem, hstates]
    · rcases List.mem_cons.mp hc with rfl | htail
      · rw [recalculateColumns_kept hlength hrest fun h => absurd h hmem, if_pos ht,
          recalculateColumn_height hl hother, if_pos rfl]
      · exact absurd htail hmem

theorem recalculateTouched_height (hl : data.heightMap.length = chunkColumnCount)
    (touched : Nat → Bool) (hc : column < chunkColumnCount) :
    (WorldStore.recalculateTouched data touched).heightMap.getD column 0 =
      if touched column = true then columnHeight data.states column
      else data.heightMap.getD column 0 := by
  have hall : ∀ c ∈ List.range chunkColumnCount, c < chunkColumnCount := by
    intro c hin
    rwa [List.mem_range] at hin
  unfold WorldStore.recalculateTouched
  split
  · next ht => exact recalculateColumns_redone hl hall (by simpa using hc) ht
  · next ht => exact recalculateColumns_kept hl hall fun _ => Bool.not_eq_true _ ▸ ht

end

theorem length_recalculateTouched (data : ChunkData) (touched : Nat → Bool) :
    (WorldStore.recalculateTouched data touched).heightMap.length = data.heightMap.length := by
  unfold WorldStore.recalculateTouched
  refine List.foldlRecOn (motive := fun d : ChunkData => d.heightMap.length = data.heightMap.length)
    _ _ rfl fun d hd column _ => ?_
  split
  · exact List.length_set.trans hd
  · exact hd

theorem length_patchData_heightMap (data : ChunkData) (patch : ChunkPatch) :
    (patchData data patch).heightMap.length = data.heightMap.length := by
  rw [patchData, length_recalculateTouched]

-- The heights after a patch: computed anew in the columns it changes, as they were elsewhere.
theorem patchData_height (hs : data.states.length = chunkBlockCount)
    (hl : data.heightMap.length = chunkColumnCount) {patch : ChunkPatch} (h : InChunk patch.blocks)
    {column : Nat} (hc : column < chunkColumnCount) :
    (Differs data.states patch.blocks column → (patchData data patch).heightMap.getD column 0 =
        columnHeight (applyBlocks data.states patch.blocks).1 column) ∧
      (¬Differs data.states patch.blocks column →
        (patchData data patch).heightMap.getD column 0 = data.heightMap.getD column 0) := by
  have hheight : (patchData data patch).heightMap.getD column 0 =
      if (applyBlocks data.states patch.blocks).2 column = true then
        columnHeight (applyBlocks data.states patch.blocks).1 column
      else data.heightMap.getD column 0 := by
    rw [patchData, recalculateTouched_height]
    · exact hl
    · exact hc
  rw [← touched_iff_differs hs h, hheight]
  exact ⟨fun ht => if_pos ht, fun ht => if_neg ht⟩

theorem lastWrite_previousStates (k : UInt16) :
    lastWrite (previousStates states edits) k =
      (lastWrite edits k).map fun _ => states.getD k.toNat 0 := by
  cases hprevious : lastWrite (previousStates states edits) k with
  | none =>
    have hnone : lastWrite edits k = none := by
      refine lastWrite_eq_none_iff.mpr fun edit he => ?_
      have hmem : (edit.1, states.getD edit.1.toNat 0) ∈ previousStates states edits :=
        List.mem_map.mpr ⟨edit, he, rfl⟩
      have hkey := lastWrite_eq_none_iff.mp hprevious _ hmem
      exact hkey
    rw [hnone]
    rfl
  | some state =>
    obtain ⟨edit, he, heq⟩ := List.mem_map.mp (lastWrite_mem hprevious)
    cases heq
    cases hlast : lastWrite edits edit.1 with
    | none => exact absurd rfl (lastWrite_eq_none_iff.mp hlast edit he)
    | some written => rfl

theorem ext_states {xs ys : List UInt16} (hx : xs.length = chunkBlockCount)
    (hy : ys.length = chunkBlockCount) (h : ∀ k : UInt16, xs.getD k.toNat 0 = ys.getD k.toNat 0) :
    xs = ys := by
  apply List.ext_getElem (hx.trans hy.symm)
  intro i hi hi'
  have hsize : chunkBlockCount < UInt16.size := by decide
  have hk : (UInt16.ofNat i).toNat = i := UInt16.toNat_ofNat_of_lt (by omega)
  have heq := h (UInt16.ofNat i)
  rwa [hk, List.getD_eq_getElem _ _ hi, List.getD_eq_getElem _ _ hi'] at heq

theorem states_restored (hl : states.length = chunkBlockCount) (h : InChunk edits) :
    (applyBlocks (applyBlocks states edits).1 (previousStates states edits)).1 = states := by
  have hmid : (applyBlocks states edits).1.length = chunkBlockCount :=
    (length_applyBlocks states edits).trans hl
  refine ext_states ((length_applyBlocks _ _).trans hmid) hl fun k => ?_
  rw [getD_applyBlocks hmid (inChunk_previousStates h), getD_applyBlocks hl h,
    lastWrite_previousStates]
  cases lastWrite edits k <;> rfl

-- What is still different when the undo runs differed when the edits ran.
theorem differs_of_undo (hl : states.length = chunkBlockCount) (h : InChunk edits) {column : Nat}
    (hd : Differs (applyBlocks states edits).1 (previousStates states edits) column) :
    Differs states edits column := by
  obtain ⟨edit, he, hcolumn, hne⟩ := hd
  obtain ⟨source, hsource, rfl⟩ := List.mem_map.mp he
  dsimp only at hcolumn hne
  rw [getD_applyBlocks hl h] at hne
  cases hlast : lastWrite edits source.1 with
  | none => exact absurd rfl (lastWrite_eq_none_iff.mp hlast source hsource)
  | some written =>
    rw [hlast, Option.getD_some] at hne
    exact ⟨(source.1, written), lastWrite_mem hlast, hcolumn, hne.symm⟩

theorem columnHeight_of_not_differs (hl : states.length = chunkBlockCount) (h : InChunk edits)
    {column : Nat} (hc : column < chunkColumnCount)
    (hd : ¬Differs (applyBlocks states edits).1 (previousStates states edits) column) :
    columnHeight (applyBlocks states edits).1 column = columnHeight states column := by
  refine columnHeight_congr fun y => ?_
  rw [stateAt, stateAt]
  by_cases hin : y * chunkColumnCount + column < chunkBlockCount
  · have hsize : chunkBlockCount < UInt16.size := by decide
    have hk : (UInt16.ofNat (y * chunkColumnCount + column)).toNat = y * chunkColumnCount + column :=
      UInt16.toNat_ofNat_of_lt (by omega)
    have hcolumn : columnOf (UInt16.ofNat (y * chunkColumnCount + column)) = column := by
      rw [columnOf, hk, Nat.mul_add_mod_of_lt hc]
    generalize UInt16.ofNat (y * chunkColumnCount + column) = k at hk hcolumn
    rw [← hk]
    cases hlast : lastWrite edits k with
    | none =>
      rw [getD_applyBlocks hl h, hlast]
      rfl
    | some written =>
      by_contra hne
      refine hd ⟨(k, states.getD k.toNat 0), ?_, hcolumn, hne⟩
      exact List.mem_map.mpr ⟨(k, written), lastWrite_mem hlast, rfl⟩
  · rw [List.getD_eq_default _ _ (by rw [length_applyBlocks, hl]; omega),
      List.getD_eq_default _ _ (by rw [hl]; omega)]

structure BlockPatch (patch : ChunkPatch) (edits : List (UInt16 × UInt16)) : Prop where
  blocks : patch.blocks = edits
  biomes : patch.biomes = []
  extraData : patch.extraData = []
  skyLight : patch.skyLight = []
  blockLight : patch.blockLight = []

variable {patch edit undo : ChunkPatch}

theorem patchData_blocks (data : ChunkData) (h : BlockPatch patch edits) : ∃ heights, patchData data patch =
    { data with states := (applyBlocks data.states edits).1, heightMap := heights } := by
  obtain ⟨heights, heq⟩ := patchData_eq data patch
  rw [h.blocks, h.biomes, h.extraData, h.skyLight, h.blockLight, ← applyBlocks_states] at heq
  exact ⟨heights, heq⟩

-- The edited columns have the height a patch gives them.
def EditedHeights (data : ChunkData) (edits : List (UInt16 × UInt16)) : Prop :=
  ∀ edit ∈ edits, data.states.getD edit.1.toNat 0 ≠ edit.2 →
    data.heightMap.getD (columnOf edit.1) 0 = columnHeight data.states (columnOf edit.1)

theorem editedHeights_iff : EditedHeights data edits ↔ ∀ column, Differs data.states edits column →
    data.heightMap.getD column 0 = columnHeight data.states column := by
  constructor
  · rintro h column ⟨edit, he, rfl, hne⟩
    exact h edit he hne
  · intro h edit he hne
    exact h (columnOf edit.1) ⟨edit, he, rfl, hne⟩

theorem undone_height (hd : data.WellFormed) (h : InChunk edits) (hedit : BlockPatch edit edits)
    (hundo : BlockPatch undo (previousStates data.states edits)) {column : Nat}
    (hc : column < chunkColumnCount) :
    (Differs data.states edits column → (patchData (patchData data edit) undo).heightMap.getD column 0 =
        columnHeight data.states column) ∧
      (¬Differs data.states edits column →
        (patchData (patchData data edit) undo).heightMap.getD column 0 =
          data.heightMap.getD column 0) := by
  have hstates : (patchData data edit).states = (applyBlocks data.states edits).1 := by
    obtain ⟨heights, hmid⟩ := patchData_blocks data hedit
    rw [hmid]
  have hmidlength : (patchData data edit).states.length = chunkBlockCount := by
    rw [hstates, length_applyBlocks, hd.states_length]
  have hfirst := patchData_height hd.states_length hd.heightMap_length (hedit.blocks ▸ h) hc
  have hsecond := patchData_height hmidlength
    ((length_patchData_heightMap data edit).trans hd.heightMap_length)
    (hundo.blocks ▸ inChunk_previousStates h) hc
  rw [hedit.blocks] at hfirst
  rw [hundo.blocks, hstates, states_restored hd.states_length h] at hsecond
  constructor
  · intro hdiffers
    by_cases hstill : Differs (applyBlocks data.states edits).1 (previousStates data.states edits) column
    · exact hsecond.1 hstill
    · rw [hsecond.2 hstill, hfirst.1 hdiffers,
        columnHeight_of_not_differs hd.states_length h hc hstill]
  · intro hsame
    rw [hsecond.2 fun hstill => hsame (differs_of_undo hd.states_length h hstill), hfirst.2 hsame]

theorem undone_data (hd : data.WellFormed) (h : InChunk edits) (hedit : BlockPatch edit edits)
    (hundo : BlockPatch undo (previousStates data.states edits)) :
    patchData (patchData data edit) undo =
      { data with heightMap := (patchData (patchData data edit) undo).heightMap } := by
  obtain ⟨heights, hmid⟩ := patchData_blocks data hedit
  obtain ⟨heights', hend⟩ := patchData_blocks (patchData data edit) hundo
  rw [hend, hmid]
  dsimp only
  rw [states_restored hd.states_length h]

theorem undo_data_iff (hd : data.WellFormed) (h : InChunk edits) (hedit : BlockPatch edit edits)
    (hundo : BlockPatch undo (previousStates data.states edits)) :
    patchData (patchData data edit) undo = data ↔ EditedHeights data edits := by
  rw [editedHeights_iff]
  constructor
  · intro hsame column hdiffers
    obtain ⟨source, -, hcolumn, -⟩ := id hdiffers
    have hheight := (undone_height hd h hedit hundo (hcolumn ▸ columnOf_lt source.1)).1 hdiffers
    rwa [hsame] at hheight
  · intro hheights
    have hlength : (patchData (patchData data edit) undo).heightMap.length =
        data.heightMap.length := by
      rw [length_patchData_heightMap, length_patchData_heightMap]
    have hmap : (patchData (patchData data edit) undo).heightMap = data.heightMap := by
      apply List.ext_getElem hlength
      intro column hc hc'
      obtain ⟨hchanged, hkept⟩ :=
        undone_height hd h hedit hundo (hd.heightMap_length ▸ hc' : column < chunkColumnCount)
      rw [← List.getD_eq_getElem _ 0 hc, ← List.getD_eq_getElem _ 0 hc']
      by_cases hdiffers : Differs data.states edits column
      · rw [hchanged hdiffers, hheights column hdiffers]
      · exact hkept hdiffers
    rw [undone_data hd h hedit hundo, hmap]

section

variable {s s' s'' : WorldStore} {p : ChunkCoord} {c : ChunkRecord}
  {allowed : ChunkImport → Prop}

theorem applyPatch_ok (hc : s.chunks p = some c) (h : s.applyPatch p patch = (.ok (), s')) :
    PatchValid patch ∧ s'.chunks p = some (patched c patch) := by
  rcases applyPatch_cases hc patch with ⟨hvalid, -, heq⟩ | ⟨-, e, heq⟩
  · rw [heq] at h
    cases h
    refine ⟨hvalid, ?_⟩
    split <;> exact setChunk_self ..
  · rw [heq] at h
    cases h

theorem undo_restores_iff (hs : s.Reachable allowed) (hc : s.chunks p = some c)
    (hedit : BlockPatch edit edits) (hundo : BlockPatch undo (previousStates c.data.states edits))
    (hfirst : s.applyPatch p edit = (.ok (), s')) (hsecond : s'.applyPatch p undo = (.ok (), s'')) :
    ∃ c', s''.chunks p = some c' ∧ (c'.data = c.data ↔ EditedHeights c.data edits) := by
  have hsound : s.AllChunks (ChunkRecord.Sound fun _ => True) :=
    hs.sound trivial fun _ _ => trivial
  have hd : c.data.WellFormed := (hsound p c hc).data.wellFormed
  obtain ⟨hvalid, hmid⟩ := applyPatch_ok hc hfirst
  obtain ⟨-, hend⟩ := applyPatch_ok hmid hsecond
  have hin : InChunk edits := fun e he => (hvalid.blocks e (hedit.blocks ▸ he)).1
  exact ⟨_, hend, undo_data_iff hd hin hedit hundo⟩

-- The patch of some block edits as a caller stamps it with the revisions of the chunk.
def stamped (c : ChunkRecord) (edits : List (UInt16 × UInt16)) : ChunkPatch where
  expectedTerrainRevision := c.terrainRevision
  nextTerrainRevision := if edits.isEmpty then c.terrainRevision else c.terrainRevision + 1
  expectedLightRevision := c.lightRevision
  nextLightRevision := c.lightRevision
  blocks := edits
  biomes := []
  extraData := []
  skyLight := []
  blockLight := []

theorem stamped_blockPatch (c : ChunkRecord) (edits : List (UInt16 × UInt16)) :
    BlockPatch (stamped c edits) edits := ⟨rfl, rfl, rfl, rfl, rfl⟩

theorem stamped_accepted (edits : List (UInt16 × UInt16))
    (hroom : c.terrainRevision.toNat + 1 < UInt64.size) : PatchAccepted c (stamped c edits) where
  terrain := rfl
  light := rfl
  nextTerrain := by
    cases edits with
    | nil => rfl
    | cons edit edits => simp [patchChangesTerrain, stamped, checkedSucc, hroom]
  nextLight := rfl

theorem applyPatch_stamped (edits : List (UInt16 × UInt16)) (hc : s.chunks p = some c)
    (hroom : c.terrainRevision.toNat + 1 < UInt64.size)
    (hvalid : ∀ edit ∈ edits, edit.1.toNat < chunkBlockCount ∧
      worldBlockStateIdIsSupported edit.2 = true) :
    ∃ s', s.applyPatch p (stamped c edits) = (.ok (), s') := by
  rcases applyPatch_cases hc (stamped c edits) with ⟨-, -, heq⟩ | ⟨hno, -⟩
  · exact ⟨_, heq⟩
  · refine absurd ⟨?_, stamped_accepted edits hroom⟩ hno
    constructor
    · exact hvalid
    all_goals simp [stamped]

-- Both patches go through: what stood in a chunk is a supported state.
theorem undo_runs (edits : List (UInt16 × UInt16)) (hs : s.Reachable allowed) (hc : s.chunks p = some c)
    (hroom : c.terrainRevision.toNat + 2 < UInt64.size)
    (hvalid : ∀ edit ∈ edits, edit.1.toNat < chunkBlockCount ∧
      worldBlockStateIdIsSupported edit.2 = true) :
    ∃ s' s'', s.applyPatch p (stamped c edits) = (.ok (), s') ∧
      s'.applyPatch p (stamped (patched c (stamped c edits))
        (previousStates c.data.states edits)) = (.ok (), s'') := by
  have hsound : s.AllChunks (ChunkRecord.Sound fun _ => True) :=
    hs.sound trivial fun _ _ => trivial
  have hd : c.data.WellFormed := (hsound p c hc).data.wellFormed
  obtain ⟨s', hfirst⟩ := applyPatch_stamped edits hc (by omega) hvalid
  have hmid := (applyPatch_ok hc hfirst).2
  have hroom' : (patched c (stamped c edits)).terrainRevision.toNat + 1 < UInt64.size := by
    have hrevision := (patched_revisions (stamped_accepted (c := c) edits (by omega))).1
    split at hrevision <;> omega
  obtain ⟨s'', hsecond⟩ := applyPatch_stamped (previousStates c.data.states edits) hmid
    hroom' fun edit he => by
      obtain ⟨source, hsource, rfl⟩ := List.mem_map.mp he
      have hin := (hvalid source hsource).1
      refine ⟨hin, hd.states_supported _ ?_⟩
      rw [← hd.states_length] at hin
      rw [List.getD_eq_getElem _ _ hin]
      exact List.getElem_mem hin
  exact ⟨s', s'', hfirst, hsecond⟩

end

section

variable {γ : Type} {terrain : Terrain γ} {target : ChunkCoord}

open Effect

-- What generation writes is among the installations of a reachable store.
theorem generateIntoStore_reachable :
    Moves (keeps fun g : OverworldInfinite γ => g.store.Reachable fun _ => True)
      (generateIntoStore terrain target) :=
  fun g h => (generateIntoStore_runs g).reachable h

end

theorem undo_restores_iff_pillar : ∃ s' s'' c',
    bareStore.applyPatch originChunk (stamped bareChunk [(0, 16)]) = (.ok (), s') ∧
      s'.applyPatch originChunk (stamped (patched bareChunk (stamped bareChunk [(0, 16)]))
        (previousStates bareChunk.data.states [(0, 16)])) = (.ok (), s'') ∧
      s''.chunks originChunk = some c' ∧
      (c'.data = bareChunk.data ↔ EditedHeights bareChunk.data [(0, 16)]) := by
  have hs := bareStore_reachable fun _ => True
  have hc : bareStore.chunks originChunk = some bareChunk :=
    setChunk_self WorldStore.new originChunk bareChunk
  obtain ⟨s', s'', hfirst, hsecond⟩ := undo_runs [(0, 16)] hs hc (by decide) fun edit he => by
    rw [List.mem_singleton.mp he]
    exact ⟨by decide, by decide⟩
  obtain ⟨c', hc', hiff⟩ := undo_restores_iff hs hc (stamped_blockPatch _ _)
    (stamped_blockPatch _ _) hfirst hsecond
  exact ⟨s', s'', c', hfirst, hsecond, hc', hiff⟩

-- A generated chunk: one layer of stone, with the heights and the light that generation gives it.
def groundStates : List UInt16 :=
  List.replicate chunkColumnCount 16 ++ List.replicate (chunkBlockCount - chunkColumnCount) 0

theorem groundStates_length : groundStates.length = chunkBlockCount := by
  rw [groundStates, List.length_append, List.length_replicate, List.length_replicate,
    Nat.add_sub_cancel' (by decide)]

theorem groundStates_get {index : Nat} (h : index < groundStates.length) :
    groundStates[index] = if index < chunkColumnCount then 16 else 0 := by
  simp only [groundStates, List.getElem_append, List.length_replicate, List.getElem_replicate,
    dite_eq_ite]

def groundPlanes : PopulationChunkPlanes where
  states := groundStates
  biomeIds := List.replicate chunkColumnCount 1
  generationHeightMap := List.replicate chunkColumnCount 0
  extraData := ∅
  chestBlockEntities := []

theorem groundPlanes_biomes : groundPlanes.biomeIds.length = chunkColumnCount :=
  List.length_replicate

theorem groundPlanes_heights : groundPlanes.generationHeightMap.length = chunkColumnCount :=
  List.length_replicate

def groundNeighborhood : PopulationNeighborhood where
  center := ⟨0, 0⟩
  chunks _ := groundPlanes
  states_length _ := groundStates_length
  biomeIds_length _ := groundPlanes_biomes
  generationHeightMap_length _ := groundPlanes_heights

theorem groundNeighborhood_blockId {y : Nat} (hy : y < worldHeight) :
    groundNeighborhood.localBlockId 16 y 16 = if y = 0 then 1 else 0 := by
  have hplace : groundNeighborhood.resolve
      (groundNeighborhood.originX + (Int32.ofNat 16 - centerOffset))
      (groundNeighborhood.originZ + (Int32.ofNat 16 - centerOffset)) = some (4, 0, 0) := by decide
  rw [PopulationNeighborhood.localBlockId, PopulationNeighborhood.blockId,
    PopulationNeighborhood.state, dif_pos ⟨by omega, by omega⟩, hplace]
  rw [Option.map_some, Option.map_some, Option.getD_some]
  simp only [groundNeighborhood, groundPlanes, List.get_eq_getElem, groundStates_get,
    PopulationNeighborhood.blockIndex_eq, Int.toNat_natCast]
  by_cases hzero : y = 0
  · subst hzero
    decide
  · rw [if_neg, if_neg hzero]
    · rfl
    · simp only [chunkColumnCount, chunkEdge]
      omega

theorem groundNeighborhood_height : neighborhoodHeight groundNeighborhood 16 16 = 1 := by
  have hdims : ∀ y < worldHeight,
      dimsLight (groundNeighborhood.localBlockId 16 y 16) = decide (y = 0) := by
    intro y hy
    rw [groundNeighborhood_blockId hy]
    split
    · next hzero =>
      rw [decide_eq_true hzero]
      decide
    · next hzero =>
      rw [decide_eq_false hzero]
      decide
  rw [neighborhoodHeight, openHeight_congr hdims]
  decide

def groundImport : ChunkImport where
  terrainRevision := 0
  lightRevision := 0
  lifecycleFlags := fullLifecycle
  data :=
    { states := groundStates
      skyLight := (finalizeCenterLighting groundNeighborhood).skyLight
      blockLight := (finalizeCenterLighting groundNeighborhood).blockLight
      biomes := List.replicate chunkColumnCount 0x0192bc59
      heightMap := (finalizeCenterLighting groundNeighborhood).heightMap
      extraData := ∅
      chestBlockEntities := [] }

theorem groundImport_valid : validateImport groundImport = .ok () := by
  refine validateImport_ok_iff.mpr ⟨by decide, ?_⟩
  refine ⟨groundStates_length, ?_, ?_, List.length_replicate, ?_, ?_, ?_⟩
  · simp only [groundImport, finalizeCenterLighting]
    exact packCenterLight_length _
  · simp only [groundImport, finalizeCenterLighting]
    exact packCenterLight_length _
  · simp only [groundImport, finalizeCenterLighting]
    exact centerHeightMap_length _
  · intro state hs
    rcases List.mem_append.mp hs with hstone | hair
    · rw [List.eq_of_mem_replicate hstone]
      decide
    · rw [List.eq_of_mem_replicate hair]
      decide
  · intro word hw
    rw [List.eq_of_mem_replicate hw]
    decide

theorem ground_generatedHeight : groundImport.data.heightMap.getD 0 0 = 1 := by
  have hcolumn := centerHeightMap_column (neighborhoodHeightMap groundNeighborhood) 0 0
  have hheight := neighborhoodHeightMap_column groundNeighborhood (toNeighborhood 0) (toNeighborhood 0)
  have hone : neighborhoodHeight groundNeighborhood (toNeighborhood 0) (toNeighborhood 0) = 1 :=
    groundNeighborhood_height
  rw [← hcolumn, hone] at hheight
  simp only [groundImport, finalizeCenterLighting]
  exact UInt8.toNat_inj.mp hheight

theorem ground_columnHeight : columnHeight groundStates 0 = 0 := by
  rcases columnHeight_isColumnHeight groundStates 0 with ⟨hheight, hstate, -⟩ | ⟨hzero, -⟩
  · have hcells : chunkBlockCount = worldHeight * chunkColumnCount := rfl
    have hcolumns : chunkColumnCount = 256 := rfl
    have hin : (columnHeight groundStates 0).toNat * chunkColumnCount + 0 < groundStates.length := by
      rw [groundStates_length, hcells, Nat.add_zero]
      exact Nat.mul_lt_mul_of_pos_right hheight (by decide)
    rw [stateAt, List.getD_eq_getElem _ _ hin, groundStates_get] at hstate
    have hlow : (columnHeight groundStates 0).toNat * chunkColumnCount + 0 < chunkColumnCount := by
      by_contra hhigh
      exact hstate (if_neg hhigh)
    apply UInt8.toNat_inj.mp
    rw [hcolumns] at hlow
    rw [UInt8.toNat_zero]
    omega
  · exact UInt8.toNat_inj.mp hzero

def groundChunk : ChunkRecord := ChunkRecord.fromImport groundImport

def groundStore : WorldStore := WorldStore.new.setChunk originChunk groundChunk

theorem groundStore_reachable : groundStore.Reachable fun _ => True := by
  refine .single ⟨.importChunk originChunk groundImport, trivial, ?_⟩
  rw [StoreOp.apply, importChunk, groundImport_valid]
  rfl

-- Taking the stone away and putting it back lowers the height by one.
theorem undo_lowers_height : groundStore.Reachable (fun _ => True) ∧
    groundStore.chunks originChunk = some groundChunk ∧
      ∃ s' s'' c', groundStore.applyPatch originChunk (stamped groundChunk [(0, 0)]) = (.ok (), s') ∧
        s'.applyPatch originChunk (stamped (patched groundChunk (stamped groundChunk [(0, 0)]))
          (previousStates groundChunk.data.states [(0, 0)])) = (.ok (), s'') ∧
        s''.chunks originChunk = some c' ∧ c'.data ≠ groundChunk.data := by
  have hc : groundStore.chunks originChunk = some groundChunk :=
    setChunk_self WorldStore.new originChunk groundChunk
  obtain ⟨s', s'', hfirst, hsecond⟩ := undo_runs [(0, 0)] groundStore_reachable hc (by decide)
    fun edit he => by
      rw [List.mem_singleton.mp he]
      exact ⟨by decide, by decide⟩
  obtain ⟨-, hmid⟩ := applyPatch_ok hc hfirst
  obtain ⟨-, hend⟩ := applyPatch_ok hmid hsecond
  refine ⟨groundStore_reachable, hc, s', s'', _, hfirst, hsecond, hend, fun hsame => ?_⟩
  have hwellFormed : groundChunk.data.WellFormed := (validateImport_ok_iff.mp groundImport_valid).2
  have hin : InChunk [(0, 0)] := fun e he => by
    rw [List.mem_singleton.mp he]
    decide
  have hheights := (undo_data_iff hwellFormed hin (stamped_blockPatch _ _)
    (stamped_blockPatch _ _)).mp hsame (0, 0) List.mem_cons_self
  have hstone : groundStates.getD (0 : UInt16).toNat 0 ≠ 0 := by
    have hlong : 0 < groundStates.length := by
      rw [groundStates_length]
      decide
    rw [UInt16.toNat_zero, List.getD_eq_getElem _ _ hlong, groundStates_get, if_pos (by decide)]
    decide
  have hheight := hheights hstone
  have hzero : columnOf 0 = 0 := rfl
  rw [hzero] at hheight
  exact absurd (ground_generatedHeight.symm.trans (hheight.trans ground_columnHeight)) (by decide)

end Cobblestone.World
