import Cobblestone.Region.Run

namespace Cobblestone.Region

open Lib World Storage

variable {crates : Crates} {allowed : ChunkSnapshot → Prop} {r : RegionFile} {m : SlotMap}

theorem encodeBatch_one {coord : RegionCoord} {s : ChunkSnapshot} {slot : Fin indexEntryCount}
    (hslot : coord.localIndex s.position = .ok slot) {policy : CompressionPolicy} {record : Bytes}
    (he : encodeChunkRecordWithPolicy crates s policy [] = .ok record) :
    encodeBatch crates coord policy (fun _ => false) [s] =
      .ok [⟨slot, s.terrainRevision, s.lightRevision, record⟩] := by
  simp only [encodeBatch, hslot, he, Bool.not_false, ensure_true, ok_bind]
  rfl

structure SavesOne (crates : Crates) (allowed : ChunkSnapshot → Prop) (r : RegionFile) (m : SlotMap)
    (s : ChunkSnapshot) (policy : CompressionPolicy) (r' : RegionFile) : Prop where
  ok : ∃ value, saveChunks crates .none r [s] policy = (.ok value, r')
  prepared : ∃ file next, Prepared crates .none r [s] policy file next ∧
    r' = committed crates (withFile r file) next
  inv : RegionInv crates allowed r' (putSnapshot m s)
  quiet : Quiet crates r'
  page : r'.activePage = otherPage r.activePage
  spare : sparePage r' = encodeIndexPage crates r.index r.coord
  coord : r'.coord = r.coord
  worldUuid : r'.worldUuid = r.worldUuid
  no_dead : r.index.entries = (fun _ => none) → r.file.length = recordAreaOffset →
    (statsOf r').deadBytes = 0

theorem sum_entryLen_single (slot : Fin indexEntryCount) (e : IndexEntry) :
    ∑ other, entryLen (Function.update (fun _ => none : Entries) slot (some e) other) =
      e.recordLen.toNat := by
  rw [Finset.sum_eq_single slot]
  · rw [Function.update_self]
    rfl
  · intro other _ hne
    rw [Function.update_of_ne hne]
    rfl
  · intro hmem
    exact absurd (Finset.mem_univ slot) hmem

theorem saveChunks_one (h : RegionInv crates allowed r m) {s : ChunkSnapshot}
    {slot : Fin indexEntryCount} (hslot : r.coord.localIndex s.position = .ok slot)
    {policy : CompressionPolicy} {record : Bytes}
    (he : encodeChunkRecordWithPolicy crates s policy [] = .ok record)
    (hroom : r.file.length + record.length ≤ maxFileBytes) {generation : UInt64}
    (hg : checkedSucc r.index.generation = some generation)
    (hflags : s.lifecycleFlags &&& ~~~chunkLifecycleMask = 0) (hs : allowed s) :
    ∃ r', SavesOne crates allowed r m s policy r' := by
  have hbatch := encodeBatch_one hslot he
  have hencoded : EncodedAs crates r.coord policy s
      ⟨slot, s.terrainRevision, s.lightRevision, record⟩ := ⟨hslot, he, rfl, rfl⟩
  have hwrite : writeAllAtEnd (SaveFault.none.stopsRecord 0) record r.file =
      (.ok (), r.file ++ record) := if_pos hroom
  have happend : appendRecords crates .none 0
      [⟨slot, s.terrainRevision, s.lightRevision, record⟩] r.file r.index.entries =
      (.ok (Function.update r.index.entries slot (some
        (EncodedRecord.entryAt crates ⟨slot, s.terrainRevision, s.lightRevision, record⟩
          r.file.length))), r.file ++ record) := by
    rw [appendRecords, hwrite]
    rfl
  generalize hentry : EncodedRecord.entryAt crates
    ⟨slot, s.terrainRevision, s.lightRevision, record⟩ r.file.length = e at happend
  have hp : Prepared crates .none r [s] policy (r.file ++ record)
      ⟨generation, Function.update r.index.entries slot (some e)⟩ :=
    ⟨by simp, ⟨_, hbatch, happend⟩, hg⟩
  obtain ⟨hgrown, hi, -, -, -, -⟩ := hp.grown h (List.forall_mem_singleton.mpr hflags)
    (List.forall_mem_singleton.mpr hs)
  obtain ⟨hinv, hquiet⟩ := hgrown.commit hp.generation hi
  refine ⟨_, ⟨⟨⟨generation, 1, (r.file ++ record).length - r.file.length, statsOf (committed crates
    (withFile r (r.file ++ record)) ⟨generation, Function.update r.index.entries slot (some e)⟩)⟩,
    ?_⟩, ⟨_, _, hp, rfl⟩, hinv, hquiet, rfl, sparePage_committed hgrown _, rfl, rfl, ?_⟩⟩
  · rw [saveChunks, if_neg (by simp), hbatch]
    dsimp only
    rw [if_neg (by simp), if_neg (not_lt.mpr h.long), happend]
    dsimp only
    rw [if_neg (by simp), hg]
    exact Prod.ext (congrArg (Except.map _) hinv.stats_eq) rfl
  · intro hnone hlen
    have hlength := length_writeSpare hgrown (length_encodeIndexPage crates
      ⟨generation, Function.update r.index.entries slot (some e)⟩ r.coord)
    have hrecord : e.recordLen.toNat = record.length := by
      rw [← hentry]
      exact entryAt_len hencoded _
    have hlive : ∑ other, entryLen (Function.update r.index.entries slot (some e) other) =
        record.length := by
      rw [hnone, sum_entryLen_single, hrecord]
    have hfile : (withFile r (r.file ++ record)).file.length = r.file.length + record.length :=
      List.length_append
    have hdead : (statsOf (committed crates (withFile r (r.file ++ record))
        ⟨generation, Function.update r.index.entries slot (some e)⟩)).deadBytes =
        (writeSpare (withFile r (r.file ++ record)) (encodeIndexPage crates
          ⟨generation, Function.update r.index.entries slot (some e)⟩ r.coord)).file.length -
          recordAreaOffset -
          ∑ other, entryLen (Function.update r.index.entries slot (some e) other) := rfl
    rw [hdead, hlive]
    omega

section

variable (entities : List ChestBlockEntity)

def chestSnapshot : ChunkSnapshot := (chestChunk 0x0192bc59 entities).snapshot origin

theorem chestSnapshot_fromStore : FromStore (chestSnapshot entities) := by
  have hsound : (chestChunk 0x0192bc59 entities).Sound (fun _ => True) := by
    have hempty := ChunkData.empty_wellFormed 0x0192bc59 (by decide)
    exact ⟨⟨⟨hempty.1, hempty.2, hempty.3, hempty.4, hempty.5, hempty.6, hempty.7⟩, trivial⟩,
      by simp [chestChunk, ChunkRecord.empty]⟩
  refine ⟨(StoreOp.importChunk origin (chestSnapshot entities).toImport).apply WorldStore.new,
    origin, .single ⟨.importChunk origin (chestSnapshot entities).toImport, trivial, rfl⟩, ?_⟩
  rw [StoreOp.apply, chestSnapshot, importChunk_new hsound]
  simp only [WorldStore.snapshot, WorldStore.withChunk, WorldStore.setChunk_self]
  rfl

variable {entities}

theorem origin_placed : RegionCoord.forChunk origin = originRegion := by decide

theorem chest_saved (crates : Crates) (allowed : ChunkSnapshot → Prop)
    (entities : List ChestBlockEntity)
    (hv : ∀ entity ∈ entities, validateChestBlockEntity entity = .ok ())
    (hcap : semanticBaseBytes + chestBytes entities ≤ maxChunkPayloadBytes)
    (hs : allowed (chestSnapshot entities)) (hr : r = freshRegion crates zeroUuid originRegion) :
    ∃ r', SavesOne crates allowed r (fun _ => none) (chestSnapshot entities) .none r' := by
  obtain ⟨record, hrecord⟩ := encode_chest_chunk crates 0x0192bc59 origin entities hv hcap
  have hlen := (length_encodedRecord crates hrecord).2
  have hfile : r.file.length = recordAreaOffset := by
    rw [hr]
    exact length_initialBytes crates zeroUuid originRegion
  have hcoord : r.coord = originRegion := by rw [hr]; rfl
  have hgeneration : r.index.generation = 1 := by rw [hr]; rfl
  have hinv : RegionInv crates allowed r (fun _ => none) := by
    rw [hr]
    exact (freshRegion_inv crates zeroUuid originRegion allowed).1
  have hslot : r.coord.localIndex (chestSnapshot entities).position =
      .ok (RegionCoord.slotOf origin) := by
    rw [hcoord]
    exact localIndex_of_forChunk origin_placed
  have hroom : r.file.length + record.length ≤ maxFileBytes :=
    le_trans (Nat.add_le_add (le_of_eq hfile) hlen) (by decide)
  have hg : checkedSucc r.index.generation = some 2 := by
    rw [hgeneration]
    decide
  exact saveChunks_one hinv hslot hrecord hroom hg (chestSnapshot_fromStore entities).flags hs

end

def emptyChest : ChestBlockEntity := ⟨0, 0, 0, []⟩

-- One block entity more than a chunk has blocks: the encoder accepts it, the decoder does not.
def crowdedChests : List ChestBlockEntity := List.replicate (chunkBlockCount + 1) emptyChest

theorem crowded_not_fit : ¬ ChestsFit (chestSnapshot crowdedChests) := by
  have hlen : crowdedChests.length = chunkBlockCount + 1 := List.length_replicate
  have hchests : (chestSnapshot crowdedChests).data.chestBlockEntities = crowdedChests := rfl
  rw [ChestsFit, hchests, hlen]
  omega

theorem crowded_valid : ∀ entity ∈ crowdedChests, validateChestBlockEntity entity = .ok () := by
  intro entity he
  rw [List.eq_of_mem_replicate he]
  decide

theorem chestBytes_replicate (n : ℕ) (entity : ChestBlockEntity) :
    chestBytes (List.replicate n entity) = 4 + n * (13 + entity.items.length * 6) := by
  rw [chestBytes, List.map_replicate, List.sum_replicate, smul_eq_mul]

theorem crowded_capacity : semanticBaseBytes + chestBytes crowdedChests ≤ maxChunkPayloadBytes := by
  rw [crowdedChests, chestBytes_replicate]
  decide

end Cobblestone.Region
