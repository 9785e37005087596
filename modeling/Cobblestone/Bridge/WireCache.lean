import Cobblestone.Lib.VersionedCache
import Cobblestone.Wire.Chunk
import Cobblestone.World.Install
import Cobblestone.World.Patch

namespace Cobblestone.Bridge

open Lib World Wire

abbrev maxChunkWireCacheEntries : Nat := 4096

inductive ChunkWireError where
  | world (error : WorldStoreError)
  | codec (error : CodecError)
deriving DecidableEq, Repr

structure CachedChunkWire where
  terrainRevision : UInt64
  lightRevision : UInt64
  packet : RawPacket
deriving DecidableEq

abbrev ChunkWireCache := Finmap fun _ : ChunkCoord => CachedChunkWire

structure WorldState where
  store : WorldStore
  chunkWireCache : ChunkWireCache

def WorldState.new : WorldState := ⟨WorldStore.new, ∅⟩

def chestItemNbt (item : ChestItemStack) : NbtValue :=
  .compound [⟨"id", .short item.itemId⟩, ⟨"Count", .byte item.count.toInt8⟩,
    ⟨"Damage", .short item.damage⟩, ⟨"Slot", .byte item.slot.toInt8⟩]

def chestNbt (chest : ChestBlockEntity) : NbtDocument :=
  ⟨⟨"", .compound [⟨"id", .string "Chest"⟩, ⟨"x", .int chest.x⟩, ⟨"y", .int chest.y⟩,
    ⟨"z", .int chest.z⟩, ⟨"Items", .list .compound (chest.items.map chestItemNbt)⟩]⟩⟩

def chunkWireView (position : ChunkCoord) (data : ChunkData) : ChunkWireView where
  chunkX := position.x
  chunkZ := position.z
  blockIds := data.states.map fun state : UInt16 => (state >>> 4).toUInt8
  blockData := packNibbles ChunkShape.nibbleBytes
    (data.states.map fun state : UInt16 => (state &&& 0x0f).toUInt8)
  skyLight := data.skyLight
  blockLight := data.blockLight
  biomeWords := data.biomes
  heightMap := data.heightMap
  extraData := data.extraData.toList.map fun entry => (entry.1.toUInt32, entry.2)
  blockEntities := data.chestBlockEntities.map chestNbt

def encodeChunk (position : ChunkCoord) (data : ChunkData) : Except CodecError RawPacket :=
  encodeFullChunk (chunkWireView position data)

def CachedChunkWire.matches (cached : CachedChunkWire) (snapshot : ChunkSnapshot) : Bool :=
  cached.terrainRevision == snapshot.terrainRevision &&
    cached.lightRevision == snapshot.lightRevision

def ChunkWireCache.store (cache : ChunkWireCache) (position : ChunkCoord)
    (cached : CachedChunkWire) : ChunkWireCache :=
  let room := if maxChunkWireCacheEntries ≤ cache.keys.card ∧ position ∉ cache then ∅ else cache
  room.insert position cached

namespace WorldState

def chunkWirePacket (state : WorldState) (position : ChunkCoord) :
    Except ChunkWireError RawPacket × WorldState :=
  match state.store.snapshot position with
  | .error e => (.error (.world e), state)
  | .ok snapshot =>
    match (state.chunkWireCache.lookup position).filter (·.matches snapshot) with
    | some cached => (.ok cached.packet, state)
    | none =>
      match encodeChunk position snapshot.data with
      | .error e => (.error (.codec e), state)
      | .ok packet =>
        match state.store.withChunk position (fun c => .ok c.terrainRevision),
            state.store.withChunk position (fun c => .ok c.lightRevision) with
        | .error e, _ => (.error (.world e), state)
        | .ok _, .error e => (.error (.world e), state)
        | .ok currentTerrain, .ok currentLight =>
          if currentTerrain = snapshot.terrainRevision ∧ currentLight = snapshot.lightRevision then
            (.ok packet, { state with
              chunkWireCache := state.chunkWireCache.store position
                ⟨snapshot.terrainRevision, snapshot.lightRevision, packet⟩ })
          else (.ok packet, state)

def tryEvictChunk (state : WorldState) (position : ChunkCoord) : ChunkEviction × WorldState :=
  match state.store.tryEvictChunk position with
  | (.evicted, store) => (.evicted, ⟨store, state.chunkWireCache.erase position⟩)
  | (result, store) => (result, { state with store := store })

end WorldState

-- What the call would return with no cache.
def freshChunkWirePacket (store : WorldStore) (position : ChunkCoord) :
    Except ChunkWireError RawPacket :=
  match store.snapshot position with
  | .error e => .error (.world e)
  | .ok snapshot => (encodeChunk position snapshot.data).mapError .codec

inductive WorldCall where
  | ensureChunk (p : ChunkCoord) (biome : UInt8)
  | importChunkIfAbsent (p : ChunkCoord) (i : ChunkImport)
  | installGeneratedChunk (p : ChunkCoord) (i : ChunkImport)
  | applyPatch (p : ChunkCoord) (patch : ChunkPatch)
  | setLifecycleFlags (p : ChunkCoord) (flags : UInt8)
  | pinChunk (p : ChunkCoord)
  | unpinChunk (p : ChunkCoord)
  | markPersisted (p : ChunkCoord) (terrain light : UInt64) (flags : UInt8)
  | commitTerrainRevision (p : ChunkCoord) (expected next : UInt64)
  | commitLightRevision (p : ChunkCoord) (expected next : UInt64)
  | pruneChangesThrough (sequence : Nat)
  | tryEvictChunk (p : ChunkCoord)
  | chunkWirePacket (p : ChunkCoord)

def WorldCall.apply (state : WorldState) : WorldCall → WorldState
  | .ensureChunk p biome => { state with store := (state.store.ensureChunk p biome).2 }
  | .importChunkIfAbsent p i => { state with store := (state.store.importChunkIfAbsent p i).2 }
  | .installGeneratedChunk p i => { state with store := (state.store.installGeneratedChunk p i).2 }
  | .applyPatch p patch => { state with store := (state.store.applyPatch p patch).2 }
  | .setLifecycleFlags p flags => { state with store := (state.store.setLifecycleFlags p flags).2 }
  | .pinChunk p => { state with store := (state.store.pinChunk p).2 }
  | .unpinChunk p => { state with store := (state.store.unpinChunk p).2 }
  | .markPersisted p terrain light flags =>
    { state with store := (state.store.markPersisted p terrain light flags).2 }
  | .commitTerrainRevision p expected next =>
    { state with store := (state.store.commitTerrainRevision p expected next).2 }
  | .commitLightRevision p expected next =>
    { state with store := (state.store.commitLightRevision p expected next).2 }
  | .pruneChangesThrough sequence =>
    { state with store := { state.store with changes := state.store.changes.pruneThrough sequence } }
  | .tryEvictChunk p => (state.tryEvictChunk p).2
  | .chunkWirePacket p => (state.chunkWirePacket p).2

def chunkStamping : Stamping ChunkCoord CachedChunkWire ChunkRecord (Nat × Nat) where
  stamp cached := (cached.terrainRevision.toNat, cached.lightRevision.toNat)
  version c := (c.terrainRevision.toNat, c.lightRevision.toNat)
  right p cached c := encodeChunk p c.data = .ok cached.packet

theorem stamp_eq_version {cached : CachedChunkWire} {c : ChunkRecord} :
    chunkStamping.stamp cached = chunkStamping.version c ↔
      cached.terrainRevision = c.terrainRevision ∧ cached.lightRevision = c.lightRevision := by
  rw [chunkStamping, Prod.mk.injEq, UInt64.toNat_inj, UInt64.toNat_inj]

theorem unbumped_of_same {changed : Bool} {revision : UInt64}
    (h : bumped changed revision = some revision) : changed = false := by
  cases changed with
  | false => rfl
  | true => exact absurd rfl (checkedSucc_ne h)

def Revised (c c' : ChunkRecord) : Prop := chunkStamping.Follows c c'

theorem Revised.refl (c : ChunkRecord) : Revised c c := Stamping.Follows.refl c

theorem Revised.of_data {c c' : ChunkRecord} (ht : c.terrainRevision ≤ c'.terrainRevision)
    (hl : c.lightRevision ≤ c'.lightRevision) (hdata : c'.terrainRevision = c.terrainRevision →
      c'.lightRevision = c.lightRevision → c'.data = c.data) : Revised c c' where
  later := ⟨UInt64.le_iff_toNat_le.mp ht, UInt64.le_iff_toNat_le.mp hl⟩
  same heq p cached h := by
    obtain ⟨hterrain, hlight⟩ := Prod.mk.inj heq
    have hsame := hdata (UInt64.toNat_inj.mp hterrain) (UInt64.toNat_inj.mp hlight)
    change encodeChunk p c'.data = .ok cached.packet
    rw [hsame]
    exact h

theorem Revised.of_advances {c c' : ChunkRecord} (h : Advances c c') (hdata : c'.data = c.data) :
    Revised c c' := .of_data h.terrain h.light fun _ _ => hdata

theorem revised_patched {c : ChunkRecord} {patch : ChunkPatch}
    (h : WorldStore.PatchAccepted c patch) : Revised c (WorldStore.patched c patch) := by
  refine .of_data (Advanced.bumped_le h.nextTerrain) (Advanced.bumped_le h.nextLight) ?_
  intro hterrain hlight
  have hnextTerrain := h.nextTerrain
  have hnextLight := h.nextLight
  rw [show patch.nextTerrainRevision = c.terrainRevision from hterrain] at hnextTerrain
  rw [show patch.nextLightRevision = c.lightRevision from hlight] at hnextLight
  refine patchData_unchanged ?_ ?_ c.data
  · exact unbumped_of_same hnextTerrain
  · exact unbumped_of_same hnextLight

theorem revised_installOver (c : ChunkRecord) (i : ChunkImport) :
    Revised c (WorldStore.installOver c i).2 := by
  rcases installOver_cases c i with ⟨t, l, changed, ht, hl, h⟩ | ⟨-, -, h⟩ | ⟨t, ht, -, -, h⟩
  · rw [h]
    refine .of_data (Advanced.bumped_le ht) (Advanced.bumped_le hl) fun hterrain hlight => ?_
    rw [show t = c.terrainRevision from hterrain] at ht
    rw [show l = c.lightRevision from hlight] at hl
    change (if _ then _ else _) = _
    rw [unbumped_of_same ht, unbumped_of_same hl]
    exact if_neg Bool.false_ne_true
  · rw [h]
    exact .refl c
  · rw [h]
    exact .of_data (Advanced.bumped_le ht) (UInt64.le_refl _) fun _ _ => rfl

def StoreRevised (s t : WorldStore) : Prop :=
  ∀ p c, s.chunks p = some c → ∃ c', t.chunks p = some c' ∧ Revised c c'

namespace StoreRevised

variable {α : Type} {s : WorldStore} {p : ChunkCoord}

theorem of_chunks {t : WorldStore} (h : t.chunks = s.chunks) : StoreRevised s t := by
  intro p c hc
  exact ⟨c, by rw [h, hc], .refl c⟩

theorem refl (s : WorldStore) : StoreRevised s s := of_chunks rfl

theorem setChunk {c' : ChunkRecord} (h : ∀ c, s.chunks p = some c → Revised c c') :
    StoreRevised s (s.setChunk p c') := by
  intro q d hd
  by_cases hq : q = p
  · subst hq
    exact ⟨c', WorldStore.setChunk_self .., h d hd⟩
  · exact ⟨d, by rw [WorldStore.setChunk_of_ne _ _ hq, hd], .refl d⟩

theorem setChunk_absent {c' : ChunkRecord} (h : s.chunks p = none) :
    StoreRevised s (s.setChunk p c') := by
  refine setChunk fun c hc => ?_
  rw [h] at hc
  cases hc

theorem withChunkMut {operation : ChunkRecord → Except WorldStoreError α × ChunkRecord}
    (h : ∀ c, Revised c (operation c).2) : StoreRevised s (s.withChunkMut p operation).2 := by
  rw [WorldStore.withChunkMut]
  cases hc : s.chunks p with
  | none => exact .refl s
  | some c =>
    refine setChunk fun d hd => ?_
    rw [hc] at hd
    cases hd
    exact h c

theorem ensureChunk (biome : UInt8) : StoreRevised s (s.ensureChunk p biome).2 := by
  rw [WorldStore.ensureChunk]
  split
  · exact .refl s
  · split
    · exact .refl s
    · next habsent => exact setChunk_absent (by simpa [WorldStore.containsChunk] using habsent)

theorem importChunkIfAbsent (i : ChunkImport) : StoreRevised s (s.importChunkIfAbsent p i).2 := by
  rw [WorldStore.importChunkIfAbsent]
  split
  · exact .refl s
  · split
    · exact .refl s
    · next habsent => exact setChunk_absent (by simpa [WorldStore.containsChunk] using habsent)

theorem installGeneratedChunk (i : ChunkImport) :
    StoreRevised s (s.installGeneratedChunk p i).2 := by
  rw [WorldStore.installGeneratedChunk]
  split
  · exact .refl s
  · split
    · next habsent => exact setChunk_absent habsent
    · next c hc =>
      refine setChunk fun d hd => ?_
      rw [hc] at hd
      cases hd
      exact revised_installOver c i

theorem applyPatch (patch : ChunkPatch) : StoreRevised s (s.applyPatch p patch).2 := by
  cases hc : s.chunks p with
  | none =>
    rw [WorldStore.applyPatch, WorldStore.withChunkMut, hc]
    split <;> exact .refl s
  | some c =>
    rcases applyPatch_cases hc patch with ⟨-, ha, h⟩ | ⟨-, e, h⟩
    · have hset : StoreRevised s (s.setChunk p (WorldStore.patched c patch)) := by
        refine setChunk fun d hd => ?_
        rw [hc] at hd
        cases hd
        exact revised_patched ha
      rw [h]
      cases WorldStore.changeKind patch with
      | none => exact hset
      | some kind => exact hset
    · rw [h]
      exact .refl s

theorem setLifecycleFlags (flags : UInt8) : StoreRevised s (s.setLifecycleFlags p flags).2 := by
  rw [WorldStore.setLifecycleFlags]
  split
  · exact .refl s
  · exact withChunkMut fun c => .of_data (UInt64.le_refl _) (UInt64.le_refl _) fun _ _ => rfl

theorem withChunkMut_data {operation : ChunkRecord → Except WorldStoreError α × ChunkRecord}
    (hdata : ∀ c, (operation c).2.data = c.data)
    (h : Advanced s (s.withChunkMut p operation).2) :
    StoreRevised s (s.withChunkMut p operation).2 := by
  intro q c hc
  obtain ⟨c', hc', hadvances⟩ := h.kept q c hc
  refine ⟨c', hc', .of_advances hadvances ?_⟩
  rw [WorldStore.withChunkMut] at hc'
  cases hp : s.chunks p with
  | none =>
    rw [hp, hc] at hc'
    cases hc'
    rfl
  | some d =>
    rw [hp] at hc'
    by_cases hq : q = p
    · subst hq
      rw [hc] at hp
      cases hp
      rw [WorldStore.setChunk_self] at hc'
      cases hc'
      exact hdata c
    · rw [WorldStore.setChunk_of_ne _ _ hq, hc] at hc'
      cases hc'
      rfl

theorem pinChunk : StoreRevised s (s.pinChunk p).2 := by
  refine withChunkMut_data (fun c => ?_) Advanced.pinChunk
  split <;> rfl

theorem unpinChunk : StoreRevised s (s.unpinChunk p).2 := by
  refine withChunkMut_data (fun c => ?_) Advanced.unpinChunk
  split <;> rfl

theorem markPersisted (terrain light : UInt64) (flags : UInt8) :
    StoreRevised s (s.markPersisted p terrain light flags).2 := by
  rw [WorldStore.markPersisted]
  split
  · exact .refl s
  · refine withChunkMut fun c => ?_
    rw [WorldStore.markPersistedRecord]
    repeat' split
    all_goals exact .of_data (UInt64.le_refl _) (UInt64.le_refl _) fun _ _ => rfl

theorem commitTerrainRevision (expected next : UInt64) :
    StoreRevised s (s.commitTerrainRevision p expected next).2 := by
  refine withChunkMut_data (fun c => ?_) (Advanced.commitTerrainRevision expected next)
  repeat' split
  all_goals rfl

theorem commitLightRevision (expected next : UInt64) :
    StoreRevised s (s.commitLightRevision p expected next).2 := by
  refine withChunkMut_data (fun c => ?_) (Advanced.commitLightRevision expected next)
  repeat' split
  all_goals rfl

end StoreRevised

namespace WorldState

variable {state : WorldState} {p : ChunkCoord} {c : ChunkRecord}

structure Transparent (state : WorldState) : Prop where
  sound : chunkStamping.Sound state.chunkWireCache state.store.chunks

theorem transparent_new : WorldState.new.Transparent := ⟨.empty _⟩

theorem Transparent.revise (h : state.Transparent) {store : WorldStore}
    (hstore : StoreRevised state.store store) : ({ state with store := store }).Transparent :=
  ⟨h.sound.follow hstore⟩

theorem Transparent.tryEvictChunk (h : state.Transparent) :
    (state.tryEvictChunk p).2.Transparent := by
  rw [WorldState.tryEvictChunk, WorldStore.tryEvictChunk]
  split
  · next store heq =>
    split at heq
    · cases heq
    · split at heq
      · cases heq
      · split at heq
        · cases heq
        · cases heq
          exact ⟨h.sound.erase fun q hq => WorldStore.removeChunk_of_ne _ hq⟩
  · next result store hne heq =>
    refine h.revise ?_
    split at heq
    · cases heq
      exact .refl _
    · split at heq
      · cases heq
        exact .refl _
      · split at heq
        · cases heq
          exact .refl _
        · cases heq
          exact absurd rfl hne

theorem chunkWirePacket_missing (hp : state.store.chunks p = none) :
    state.chunkWirePacket p = (.error (.world (.chunkMissing p.x p.z)), state) := by
  rw [chunkWirePacket, WorldStore.snapshot, WorldStore.withChunk, hp]

-- The revisions read after the encoding are those of the snapshot: nothing runs in between.
theorem chunkWirePacket_resident (hp : state.store.chunks p = some c) :
    state.chunkWirePacket p =
      match (state.chunkWireCache.lookup p).filter (·.matches (c.snapshot p)) with
      | some cached => (.ok cached.packet, state)
      | none =>
        match encodeChunk p c.data with
        | .error e => (.error (.codec e), state)
        | .ok packet =>
          (.ok packet, { state with
            chunkWireCache := state.chunkWireCache.store p
              ⟨c.terrainRevision, c.lightRevision, packet⟩ }) := by
  simp only [chunkWirePacket, WorldStore.snapshot, WorldStore.withChunk, hp, ChunkRecord.snapshot]
  split
  · rfl
  · cases encodeChunk p c.data with
    | error e => rfl
    | ok packet => exact if_pos ⟨trivial, trivial⟩

theorem Transparent.hit (h : state.Transparent) (hp : state.store.chunks p = some c)
    {cached : CachedChunkWire}
    (hcached : (state.chunkWireCache.lookup p).filter (·.matches (c.snapshot p)) = some cached) :
    encodeChunk p c.data = .ok cached.packet := by
  obtain ⟨hlookup, hmatches⟩ := Option.filter_eq_some_iff.mp hcached
  rw [CachedChunkWire.matches, Bool.and_eq_true, beq_iff_eq, beq_iff_eq] at hmatches
  exact h.sound.hit hlookup hp (stamp_eq_version.mpr hmatches)

theorem Transparent.store (h : state.Transparent) (hp : state.store.chunks p = some c)
    {packet : RawPacket} (hpacket : encodeChunk p c.data = .ok packet) :
    (WorldState.mk state.store (state.chunkWireCache.store p
      ⟨c.terrainRevision, c.lightRevision, packet⟩)).Transparent := by
  have hroom : chunkStamping.Sound (if maxChunkWireCacheEntries ≤ state.chunkWireCache.keys.card ∧
      p ∉ state.chunkWireCache then ∅ else state.chunkWireCache) state.store.chunks := by
    split
    · exact .empty _
    · exact h.sound
  exact ⟨hroom.insert hp (stamp_eq_version.mpr ⟨rfl, rfl⟩) hpacket⟩

theorem Transparent.chunkWirePacket (h : state.Transparent) :
    (state.chunkWirePacket p).2.Transparent := by
  cases hp : state.store.chunks p with
  | none =>
    rw [chunkWirePacket_missing hp]
    exact h
  | some c =>
    rw [chunkWirePacket_resident hp]
    split
    · exact h
    · split
      · exact h
      · next packet hpacket => exact h.store hp hpacket

theorem Transparent.apply (h : state.Transparent) (call : WorldCall) :
    (call.apply state).Transparent := by
  cases call with
  | ensureChunk p biome => exact h.revise (.ensureChunk biome)
  | importChunkIfAbsent p i => exact h.revise (.importChunkIfAbsent i)
  | installGeneratedChunk p i => exact h.revise (.installGeneratedChunk i)
  | applyPatch p patch => exact h.revise (.applyPatch patch)
  | setLifecycleFlags p flags => exact h.revise (.setLifecycleFlags flags)
  | pinChunk p => exact h.revise .pinChunk
  | unpinChunk p => exact h.revise .unpinChunk
  | markPersisted p terrain light flags => exact h.revise (.markPersisted terrain light flags)
  | commitTerrainRevision p expected next => exact h.revise (.commitTerrainRevision expected next)
  | commitLightRevision p expected next => exact h.revise (.commitLightRevision expected next)
  | pruneChangesThrough sequence => exact h.revise (.of_chunks rfl)
  | tryEvictChunk p => exact h.tryEvictChunk
  | chunkWirePacket p => exact h.chunkWirePacket

def run (calls : List WorldCall) : WorldState := calls.foldl WorldCall.apply new

theorem transparent_run (calls : List WorldCall) : (run calls).Transparent := by
  refine List.foldlRecOn calls _ transparent_new ?_
  intro state h call _
  exact h.apply call

theorem Transparent.packet_eq (h : state.Transparent) (p : ChunkCoord) :
    (state.chunkWirePacket p).1 = freshChunkWirePacket state.store p := by
  cases hp : state.store.chunks p with
  | none => rw [chunkWirePacket_missing hp, freshChunkWirePacket, WorldStore.snapshot,
      WorldStore.withChunk, hp]
  | some c =>
    have hfresh : freshChunkWirePacket state.store p = (encodeChunk p c.data).mapError .codec := by
      rw [freshChunkWirePacket, WorldStore.snapshot, WorldStore.withChunk, hp]
      rfl
    rw [hfresh, chunkWirePacket_resident hp]
    split
    · next cached hcached =>
      rw [h.hit hp hcached]
      rfl
    · cases encodeChunk p c.data with
      | error e => rfl
      | ok packet => rfl

theorem wire_cache_transparent (calls : List WorldCall) (p : ChunkCoord) :
    ((run calls).chunkWirePacket p).1 = freshChunkWirePacket (run calls).store p :=
  (transparent_run calls).packet_eq p

end WorldState

end Cobblestone.Bridge
