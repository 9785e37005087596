import Cobblestone.World.Patch

namespace Cobblestone.World

open Lib WorldStore

theorem find?_range_reverse {n y : Nat} {f : Nat → Bool} :
    (List.range n).reverse.find? f = some y ↔
      y < n ∧ f y = true ∧ ∀ z, y < z → z < n → f z = false := by
  induction n with
  | zero => simp
  | succ n ih =>
    rw [List.range_succ, List.reverse_append, List.reverse_singleton, List.singleton_append,
      List.find?_cons]
    cases hf : f n with
    | true =>
      constructor
      · rintro ⟨⟩
        exact ⟨y.lt_succ_self, hf, fun z hz hn => absurd hz (by omega)⟩
      · rintro ⟨hy, -, hmax⟩
        rcases Nat.lt_succ_iff_lt_or_eq.mp hy with hlt | rfl
        · rw [hmax n hlt n.lt_succ_self] at hf
          cases hf
        · rfl
    | false =>
      rw [ih]
      constructor
      · rintro ⟨hy, hfy, hmax⟩
        refine ⟨by omega, hfy, fun z hz hn => ?_⟩
        rcases Nat.lt_succ_iff_lt_or_eq.mp hn with hlt | rfl
        · exact hmax z hz hlt
        · exact hf
      · rintro ⟨hy, hfy, hmax⟩
        refine ⟨?_, hfy, fun z hz hn => hmax z hz (by omega)⟩
        rcases Nat.lt_succ_iff_lt_or_eq.mp hy with hlt | rfl
        · exact hlt
        · rw [hf] at hfy
          cases hfy

def stateAt (states : List UInt16) (y column : Nat) : UInt16 :=
  states.getD (y * chunkColumnCount + column) 0

-- The highest block of a column that is not air, or 0 in a column of air.
def IsColumnHeight (states : List UInt16) (column height : Nat) : Prop :=
  (height < worldHeight ∧ stateAt states height column ≠ 0 ∧
      ∀ y, height < y → y < worldHeight → stateAt states y column = 0) ∨
    (height = 0 ∧ ∀ y, y < worldHeight → stateAt states y column = 0)

theorem columnHeight_isColumnHeight (states : List UInt16) (column : Nat) :
    IsColumnHeight states column (columnHeight states column).toNat := by
  rw [columnHeight]
  cases hfind : (List.range worldHeight).reverse.find?
      (fun y => states.getD (y * chunkColumnCount + column) 0 != 0) with
  | none =>
    refine .inr ⟨rfl, fun y hy => ?_⟩
    have := List.find?_eq_none.mp hfind y (by simpa using hy)
    simpa [stateAt] using this
  | some y =>
    obtain ⟨hy, hstate, hmax⟩ := find?_range_reverse.mp hfind
    have hbyte : (UInt8.ofNat y).toNat = y := by
      rw [UInt8.toNat_ofNat']
      exact Nat.mod_eq_of_lt (hy.trans (by decide))
    dsimp only
    rw [hbyte]
    refine .inl ⟨hy, by simpa [stateAt] using hstate, fun z hz hn => ?_⟩
    simpa [stateAt] using hmax z hz hn

theorem columnHeight_congr {states states' : List UInt16} {column : Nat}
    (h : ∀ y, stateAt states' y column = stateAt states y column) :
    columnHeight states' column = columnHeight states column := by
  have hsame : (fun y => states'.getD (y * chunkColumnCount + column) 0 != 0) =
      fun y => states.getD (y * chunkColumnCount + column) 0 != 0 := by
    funext y
    exact congrArg (· != 0) (h y)
  rw [columnHeight, columnHeight, hsame]

-- The stored heights are those of the stored states, up to columns that are still to be redone.
structure HeightsStale (stale : Nat → Bool) (data : ChunkData) : Prop where
  states_length : data.states.length = chunkBlockCount
  heightMap_length : data.heightMap.length = chunkColumnCount
  heights : ∀ column, column < chunkColumnCount → stale column = false →
    data.heightMap.getD column 0 = columnHeight data.states column

abbrev HeightsKept (data : ChunkData) : Prop := HeightsStale (fun _ => false) data

variable {data : ChunkData} {stale : Nat → Bool}

theorem HeightsKept.empty (word : UInt32) : HeightsKept (ChunkData.empty word) where
  states_length := List.length_replicate
  heightMap_length := List.length_replicate
  heights column hc _ := by
    have hair : ∀ y, (ChunkData.empty word).states.getD (y * chunkColumnCount + column) 0 = 0 := by
      intro y
      rw [ChunkData.empty, List.getD_eq_getElem?_getD, List.getElem?_replicate]
      split <;> rfl
    have hnone : (List.range worldHeight).reverse.find? (fun y =>
        (ChunkData.empty word).states.getD (y * chunkColumnCount + column) 0 != 0) = none := by
      refine List.find?_eq_none.mpr fun y _ => ?_
      rw [hair y]
      decide
    rw [columnHeight, hnone]
    exact List.getD_replicate _ hc

theorem HeightsStale.weaken {stale' : Nat → Bool} (h : HeightsStale stale data)
    (hsub : ∀ column, column < chunkColumnCount → stale' column = false → stale column = false) :
    HeightsStale stale' data where
  states_length := h.states_length
  heightMap_length := h.heightMap_length
  heights column hc hs := h.heights column hc (hsub column hc hs)

theorem stateAt_set {states : List UInt16} {index y column : Nat} (state : UInt16)
    (hc : column < chunkColumnCount) (h : index % chunkColumnCount ≠ column) :
    stateAt (states.set index state) y column = stateAt states y column := by
  have hne : index ≠ y * chunkColumnCount + column := by
    rintro rfl
    rw [Nat.mul_add_mod_of_lt hc] at h
    exact h rfl
  rw [stateAt, stateAt, List.getD_eq_getElem?_getD, List.getElem?_set_ne hne,
    ← List.getD_eq_getElem?_getD]

theorem HeightsStale.setState (h : HeightsStale stale data) (index : Nat) (state : UInt16) :
    HeightsStale (Function.update stale (index % chunkColumnCount) true)
      { data with states := data.states.set index state } where
  states_length := List.length_set.trans h.states_length
  heightMap_length := h.heightMap_length
  heights column hc hs := by
    have hne : index % chunkColumnCount ≠ column := by
      rintro rfl
      rw [Function.update_self] at hs
      cases hs
    rw [Function.update_of_ne hne.symm] at hs
    rw [columnHeight_congr fun y => stateAt_set state hc hne]
    exact h.heights column hc hs

theorem HeightsStale.recalculateColumn (h : HeightsStale stale data) (column : Nat) :
    HeightsStale (fun other => stale other && other != column)
      (recalculateColumnHeight data column) where
  states_length := h.states_length
  heightMap_length := List.length_set.trans h.heightMap_length
  heights other ho hs := by
    rw [recalculateColumnHeight]
    dsimp only
    by_cases hcol : column = other
    · subst hcol
      rw [List.getD_eq_getElem?_getD, List.getElem?_set_self (by rw [h.heightMap_length]; exact ho),
        Option.getD_some]
    · rw [List.getD_eq_getElem?_getD, List.getElem?_set_ne hcol, ← List.getD_eq_getElem?_getD]
      refine h.heights other ho ?_
      have hne : (other != column) = true := bne_iff_ne.mpr (Ne.symm hcol)
      rwa [hne, Bool.and_true] at hs

theorem HeightsStale.recalculateColumns {touched : Nat → Bool}
    (hsub : ∀ column, stale column = true → touched column = true) (h : HeightsStale stale data)
    (columns : List Nat) :
    HeightsStale (fun column => stale column && !columns.contains column)
      (columns.foldl (fun data column =>
        if touched column then recalculateColumnHeight data column else data) data) := by
  induction columns generalizing data stale with
  | nil => simpa using h
  | cons column columns ih =>
    have hstep : HeightsStale (fun other => stale other && other != column)
        (if touched column then recalculateColumnHeight data column else data) := by
      by_cases ht : touched column = true
      · rw [if_pos ht]
        exact h.recalculateColumn column
      · rw [if_neg ht]
        refine h.weaken fun other _ ho => ?_
        by_contra hstale
        rw [Bool.not_eq_false] at hstale
        rw [hstale, Bool.true_and, bne_eq_false_iff_eq] at ho
        exact ht (ho ▸ hsub other hstale)
    rw [List.foldl_cons]
    refine (ih (fun other ho => ?_) hstep).weaken fun other _ ho => ?_
    · rw [Bool.and_eq_true] at ho
      exact hsub other ho.1
    · rw [List.contains_cons] at ho
      cases hs : stale other with
      | false => rfl
      | true =>
        rw [hs, Bool.true_and, Bool.not_eq_false', Bool.or_eq_true] at ho
        rcases ho with heq | hmem
        · rw [beq_iff_eq] at heq
          simp [heq]
        · rw [hmem, Bool.not_true, Bool.and_false]

theorem HeightsStale.recalculateTouched {touched : Nat → Bool} (h : HeightsStale touched data) :
    HeightsKept (WorldStore.recalculateTouched data touched) := by
  unfold WorldStore.recalculateTouched
  refine (h.recalculateColumns (fun _ hc => hc) (List.range chunkColumnCount)).weaken
    fun column hc _ => ?_
  have hmem : (List.range chunkColumnCount).contains column = true := by simpa using hc
  rw [hmem, Bool.not_true, Bool.and_false]

theorem recalculateAllHeights_eq (data : ChunkData) :
    recalculateAllHeights data = WorldStore.recalculateTouched data fun _ => true := by
  unfold recalculateAllHeights WorldStore.recalculateTouched
  simp only [if_true]

theorem HeightsStale.recalculateAll (hs : data.states.length = chunkBlockCount)
    (hh : data.heightMap.length = chunkColumnCount) : HeightsKept (recalculateAllHeights data) := by
  rw [recalculateAllHeights_eq]
  refine HeightsStale.recalculateTouched ⟨hs, hh, fun column _ h => ?_⟩
  cases h

theorem applyBlocks_stale (h : HeightsKept data) (edits : List (UInt16 × UInt16)) :
    HeightsStale (applyBlocks data.states edits).2
      { data with states := (applyBlocks data.states edits).1 } := by
  refine List.foldlRecOn (motive := fun acc : List UInt16 × (Nat → Bool) =>
    HeightsStale acc.2 { data with states := acc.1 }) edits applyBlock h fun acc hacc edit _ => ?_
  rw [applyBlock]
  split
  · have hcolumn : edit.1.toNat &&& 0xff = edit.1.toNat % chunkColumnCount :=
      Nat.and_two_pow_sub_one_eq_mod _ 8
    rw [hcolumn]
    exact hacc.setState edit.1.toNat edit.2
  · exact hacc

theorem patchData_heights (h : HeightsKept data) (patch : ChunkPatch) :
    HeightsKept (patchData data patch) := by
  have hblocks := applyBlocks_stale h patch.blocks
  exact HeightsStale.recalculateTouched
    ⟨hblocks.states_length, hblocks.heightMap_length, hblocks.heights⟩

theorem blockIndex_column {x y z : UInt8} {index : Nat} (h : blockIndex x y z = .ok index) :
    index % chunkColumnCount = z.toNat * chunkEdge + x.toNat := by
  unfold blockIndex at h
  split at h
  · cases h
  · next hb =>
    cases h
    simp only [not_or, not_le, chunkEdge, worldHeight] at hb
    obtain ⟨hx, hz, hy⟩ := hb
    have hzx : z.toNat <<< 4 ||| x.toNat = z.toNat * 16 + x.toNat := by
      rw [← Nat.shiftLeft_add_eq_or_of_lt (by omega), Nat.shiftLeft_eq]
    have hyzx : y.toNat <<< 8 ||| (z.toNat * 16 + x.toNat) =
        y.toNat * 256 + (z.toNat * 16 + x.toNat) := by
      rw [← Nat.shiftLeft_add_eq_or_of_lt (by omega), Nat.shiftLeft_eq]
    rw [Nat.or_assoc, hzx, hyzx]
    exact Nat.mul_add_mod_of_lt (by omega)

def StoreOp.EditsBlocks : StoreOp → Prop
  | .setBlockState .. => True
  | .fillLayers .. => True
  | .applyPatch .. => True
  | .recalculateHeightMap .. => True
  | _ => False

def StoreOp.run (ops : List StoreOp) (s : WorldStore) : WorldStore :=
  ops.foldl (fun s op => op.apply s) s

abbrev HeightsKeptAt (p : ChunkCoord) (s : WorldStore) : Prop :=
  ∀ c, s.chunks p = some c → HeightsKept c.data

section

variable {s : WorldStore} {p q : ChunkCoord} (h : HeightsKeptAt p s)

include h

theorem HeightsKeptAt.setChunk {c : ChunkRecord} (hc : q = p → HeightsKept c.data) :
    HeightsKeptAt p (s.setChunk q c) := by
  intro d hd
  by_cases hq : p = q
  · subst hq
    rw [setChunk_self] at hd
    cases hd
    exact hc rfl
  · rw [setChunk_of_ne _ _ hq] at hd
    exact h d hd

theorem HeightsKeptAt.editData {α : Type} {edit : ChunkData → α × ChunkData}
    (he : ∀ d, HeightsKept d → HeightsKept (edit d).2) : HeightsKeptAt p (s.editData q edit).2 := by
  rw [WorldStore.editData, withChunkMut]
  cases hq : s.chunks q with
  | none => exact h
  | some c => exact h.setChunk fun hqp => he c.data (h c (hqp ▸ hq))

theorem setBlockState_heights (x y z : UInt8) (state : UInt16) :
    HeightsKeptAt p (s.setBlockState q x y z state).2 := by
  unfold WorldStore.setBlockState
  split
  · exact h
  · exact h
  · next index _ hindex =>
    refine h.editData fun d hd => ?_
    dsimp only
    split
    · rw [← blockIndex_column hindex]
      refine ((hd.setState _ state).recalculateColumn _).weaken fun column _ _ => ?_
      by_cases hcol : column = index % chunkColumnCount
      · simp [hcol]
      · simp [Function.update_of_ne hcol]
    · exact hd

theorem fillLayers_heights (startY count : UInt8) (state : UInt16) :
    HeightsKeptAt p (s.fillLayers q startY count state).2 := by
  unfold WorldStore.fillLayers
  split
  · exact h
  · split
    · exact h
    · next hr =>
      refine h.editData fun d hd => ?_
      refine HeightsStale.recalculateAll ?_ hd.heightMap_length
      simp only [not_or, not_le, not_lt] at hr
      rw [length_putAt, hd.states_length]
      rw [List.length_replicate, hd.states_length, ← Nat.add_mul, chunkBlockCount,
        Nat.mul_comm chunkColumnCount]
      exact Nat.mul_le_mul_right _ hr.2.2

theorem recalculateHeightMap_heights : HeightsKeptAt p (s.recalculateHeightMap q).2 :=
  h.editData fun _ hd => HeightsStale.recalculateAll hd.states_length hd.heightMap_length

theorem applyPatch_heights (patch : ChunkPatch) : HeightsKeptAt p (s.applyPatch q patch).2 := by
  cases hq : s.chunks q with
  | none =>
    have hsame : (s.applyPatch q patch).2 = s := by
      rw [applyPatch]
      cases validatePatch patch with
      | error e => rfl
      | ok u => rw [withChunkMut, hq]
    rw [hsame]
    exact h
  | some c =>
    rcases applyPatch_cases hq patch with ⟨-, -, heq⟩ | ⟨-, e, heq⟩
    · have hset : HeightsKeptAt p (s.setChunk q (patched c patch)) :=
        h.setChunk fun hqp => patchData_heights (h c (hqp ▸ hq)) patch
      rw [heq]
      cases changeKind patch with
      | none => exact hset
      | some kind => exact hset
    · rw [heq]
      exact h

theorem StoreOp.apply_heights {op : StoreOp} (hop : op.EditsBlocks) :
    HeightsKeptAt p (op.apply s) := by
  cases op with
  | setBlockState q x y z state => exact setBlockState_heights h x y z state
  | fillLayers q startY count state => exact fillLayers_heights h startY count state
  | applyPatch q patch => exact applyPatch_heights h patch
  | recalculateHeightMap q => exact recalculateHeightMap_heights h
  | _ => exact hop.elim

theorem StoreOp.run_heights {ops : List StoreOp} (hops : ∀ op ∈ ops, op.EditsBlocks) :
    HeightsKeptAt p (StoreOp.run ops s) :=
  List.foldlRecOn ops _ h fun _ ht op hop => StoreOp.apply_heights ht (hops op hop)

end

-- Whatever the block edits are, every stored height is the height of the column's blocks.
theorem height_map_exact (s : WorldStore) (p : ChunkCoord) (biome : UInt8) (ops : List StoreOp)
    (hp : s.chunks p = none) (hops : ∀ op ∈ ops, op.EditsBlocks) {c : ChunkRecord}
    (hc : (StoreOp.run ops (s.ensureChunk p biome).2).chunks p = some c) {column : Nat}
    (hcolumn : column < chunkColumnCount) :
    IsColumnHeight c.data.states column (c.data.heightMap.getD column 0).toNat := by
  have hstart : HeightsKeptAt p (s.ensureChunk p biome).2 := by
    intro d hd
    rw [ensureChunk] at hd
    cases hword : defaultBiomeWord biome with
    | none =>
      rw [hword] at hd
      rw [hp] at hd
      cases hd
    | some word =>
      rw [hword] at hd
      dsimp only at hd
      rw [containsChunk, hp, Option.isSome_none, if_neg Bool.false_ne_true, setChunk_self] at hd
      cases hd
      exact HeightsKept.empty word
  have hkept := StoreOp.run_heights hstart hops c hc
  rw [hkept.heights column hcolumn rfl]
  exact columnHeight_isColumnHeight c.data.states column

theorem height_map_exact_pillar :
    ∃ c, (StoreOp.run [.setBlockState originChunk 0 5 0 16]
        (WorldStore.new.ensureChunk originChunk 1).2).chunks originChunk = some c ∧
      IsColumnHeight c.data.states 0 (c.data.heightMap.getD 0 0).toNat := by
  have hword : defaultBiomeWord 1 = some 0x0192bc59 := by decide
  have hstate : validateState 16 = .ok () := by decide
  have hindex : blockIndex 0 5 0 = .ok 1280 := by decide
  have hsome : ((StoreOp.run [.setBlockState originChunk 0 5 0 16]
      (WorldStore.new.ensureChunk originChunk 1).2).chunks originChunk).isSome := by
    simp [StoreOp.run, StoreOp.apply, ensureChunk, hword, containsChunk, WorldStore.new,
      setBlockState, hstate, hindex, editData, withChunkMut]
  obtain ⟨c, hc⟩ := Option.isSome_iff_exists.mp hsome
  refine ⟨c, hc, ?_⟩
  refine height_map_exact WorldStore.new originChunk 1 _ rfl ?_ hc (by decide)
  intro op hop
  rw [List.mem_singleton.mp hop]
  trivial

end Cobblestone.World
