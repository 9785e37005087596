import Cobblestone.Session.State

namespace Cobblestone.Session

open Lib World SessionState

def pins (store : WorldStore) (p : ChunkCoord) : Nat :=
  match store.chunks p with
  | none => 0
  | some c => c.pinCount.toNat

section Store

variable {store store' : WorldStore} {p q : ChunkCoord}

theorem pins_setChunk (c : ChunkRecord) :
    pins (store.setChunk p c) q = if q = p then c.pinCount.toNat else pins store q := by
  by_cases h : q = p
  · subst h
    simp [pins]
  · simp [pins, h]

theorem pins_unpinChunk :
    pins (store.unpinChunk p).2 q = pins store q - if q = p then 1 else 0 := by
  simp only [WorldStore.unpinChunk, WorldStore.withChunkMut]
  cases hc : store.chunks p with
  | none =>
    by_cases h : q = p
    · subst h
      simp [pins, hc]
    · simp [h]
  | some c =>
    rw [pins_setChunk]
    by_cases h : q = p
    · subst h
      simp only [if_true, pins, hc]
      split
      · rename_i hz
        simp [hz]
      · rename_i hz
        have hpos : 1 ≤ c.pinCount := by
          rw [UInt32.le_iff_toNat_le]
          have hne : c.pinCount.toNat ≠ 0 := fun h => hz (UInt32.toNat_inj.mp h)
          exact Nat.one_le_iff_ne_zero.mpr hne
        rw [UInt32.toNat_sub_of_le _ _ hpos]
        rfl
    · simp [h]

theorem pins_unpinAll {positions : List ChunkCoord} (hn : positions.Nodup) (store : WorldStore)
    (q : ChunkCoord) :
    pins (unpinAll positions store) q = pins store q - if q ∈ positions then 1 else 0 := by
  induction positions generalizing store with
  | nil => simp [unpinAll]
  | cons p rest ih =>
    obtain ⟨hp, hrest⟩ := List.nodup_cons.mp hn
    have hstep : unpinAll (p :: rest) store = unpinAll rest (store.unpinChunk p).2 := rfl
    rw [hstep, ih hrest, pins_unpinChunk]
    by_cases hq : q = p
    · subst hq
      simp [hp]
    · simp [hq]

theorem pins_pinChunk_ok {n : UInt32} (h : store.pinChunk p = (.ok n, store')) :
    pins store' q = pins store q + if q = p then 1 else 0 := by
  simp only [WorldStore.pinChunk, WorldStore.withChunkMut] at h
  cases hc : store.chunks p with
  | none => simp [hc] at h
  | some c =>
    simp only [hc, Prod.mk.injEq] at h
    obtain ⟨hok, rfl⟩ := h
    rw [pins_setChunk]
    by_cases hq : q = p
    · subst hq
      split at hok
      · rename_i hlt
        rw [if_pos rfl, if_pos hlt, if_pos rfl, pins, hc]
        rw [UInt32.toNat_add]
        exact Nat.mod_eq_of_lt hlt
      · cases hok
    · simp [hq]

theorem pins_pinChunk_error {e : WorldStoreError} (h : store.pinChunk p = (.error e, store')) :
    pins store' q = pins store q := by
  simp only [WorldStore.pinChunk, WorldStore.withChunkMut] at h
  cases hc : store.chunks p with
  | none =>
    simp only [hc, Prod.mk.injEq] at h
    rw [h.2]
  | some c =>
    simp only [hc, Prod.mk.injEq] at h
    obtain ⟨hok, rfl⟩ := h
    split at hok
    · cases hok
    · rename_i hfull
      rw [if_neg hfull, WorldStore.setChunk_same hc]

theorem pins_tryEvictChunk : pins (store.tryEvictChunk p).2 q = pins store q := by
  rw [WorldStore.tryEvictChunk]
  split
  · rfl
  · rename_i c hc
    split
    · rfl
    · rename_i hz
      split
      · rfl
      · by_cases hq : q = p
        · subst hq
          simp only [ne_eq, not_not] at hz
          simp [pins, hc, hz]
        · simp [pins, hq]

end Store

variable {wire : Wire} {st st' : SessionState wire} {store store' : WorldStore}
  {others : ChunkCoord → Nat} {p : ChunkCoord}

def viewShare (st : SessionState wire) (p : ChunkCoord) : Nat :=
  match st.view with
  | none => 0
  | some view => if p ∈ view.pinnedChunks then 1 else 0

def preparedShare (st : SessionState wire) (p : ChunkCoord) : Nat :=
  match st.pending with
  | none => 0
  | some work => if p ∈ work.prepared.pinned then 1 else 0

-- The view that the pending work leads to.
def PendingWork.target : PendingWork → ChunkCoord × Int32
  | .initial _ effective center _ _ _ => (center, effective)
  | .view t _ => (t.toCenter, t.toRadius)

structure PreparedChunks.WellFormed (prepared : PreparedChunks) (expected : List ChunkCoord) :
    Prop where
  nodup : prepared.pinned.Nodup
  expected : ∀ q ∈ prepared.pinned, q ∈ expected
  attached : prepared.attached = false → prepared.pinned = []

-- The geometry of the pending work agrees with the active view it was planned from.
def PendingWork.Fits (view : Option WorldView) : PendingWork → Prop
  | .initial _ effective center prepare send _ =>
    view = none ∧ prepare.Perm (viewPositions center effective) ∧
      send.Perm (viewPositions center effective)
  | .view t _ => ∃ v, view = some v ∧ v.center = t.fromCenter ∧ v.radius = t.fromRadius ∧
      t.entering.Perm ((viewPositions t.toCenter t.toRadius).filter
        fun p => !viewContains t.fromCenter t.fromRadius p) ∧
      t.leaving = (viewPositions t.fromCenter t.fromRadius).filter
        fun p => !viewContains t.toCenter t.toRadius p

structure StateInv (st : SessionState wire) : Prop where
  pinned : ∀ v, st.view = some v → v.pinnedChunks = viewPositions v.center v.radius
  prepared : ∀ w, st.pending = some w → w.prepared.WellFormed w.preparePositions
  fits : ∀ w, st.pending = some w → w.Fits st.view
  unspawned : st.phase ≠ .spawned → st.view = none

-- The pins of the store are this session's and, for the rest, those of the others.
structure Balanced (others : ChunkCoord → Nat) (st : SessionState wire) (store : WorldStore) :
    Prop where
  inv : StateInv st
  balance : ∀ p, pins store p = others p + (viewShare st p + preparedShare st p)

theorem StateInv.new (maxChunkRadius : Int32) : StateInv (SessionState.new wire maxChunkRadius) where
  pinned _ h := nomatch h
  prepared _ h := nomatch h
  fits _ h := nomatch h
  unspawned _ := rfl

theorem PreparedChunks.WellFormed.new (expected : List ChunkCoord) :
    PreparedChunks.new.WellFormed expected where
  nodup := List.nodup_nil
  expected _ h := nomatch h
  attached _ := rfl

-- Dropping prepared chunks gives back exactly their pins.
theorem PreparedChunks.WellFormed.pins_drop {prepared : PreparedChunks} {expected : List ChunkCoord}
    (h : prepared.WellFormed expected) (store : WorldStore) (p : ChunkCoord) :
    pins (prepared.drop store) p = pins store p - if p ∈ prepared.pinned then 1 else 0 := by
  rw [PreparedChunks.drop]
  split
  · exact pins_unpinAll h.nodup store p
  · rename_i ha
    simp [h.attached (by simpa using ha)]

theorem StateInv.pins_dropPending (h : StateInv st) (store : WorldStore) (p : ChunkCoord) :
    pins (dropPending st.pending store) p = pins store p - preparedShare st p := by
  cases hp : st.pending with
  | none => simp [dropPending, preparedShare, hp]
  | some w =>
    have hw := (h.prepared w hp).pins_drop store p
    simpa [dropPending, preparedShare, hp] using hw

theorem StateInv.pins_dropView (h : StateInv st) :
    pins (dropView st.view store) p = pins store p - viewShare st p := by
  cases hv : st.view with
  | none => simp [dropView, viewShare, hv]
  | some v =>
    have hn : v.pinnedChunks.Nodup := by
      rw [h.pinned v hv]
      exact nodup_viewPositions
    have hw := pins_unpinAll hn store p
    simpa [dropView, viewShare, hv] using hw

theorem Balanced.drop (h : Balanced others st store) (p : ChunkCoord) :
    pins (st.drop store) p = others p := by
  rw [SessionState.drop, h.inv.pins_dropPending, h.inv.pins_dropView, h.balance p]
  omega

-- Changes that leave the view and the pending work alone.
theorem Balanced.frame (h : Balanced others st store) (hv : st'.view = st.view)
    (hp : st'.pending = st.pending) (hphase : st'.phase ≠ .spawned → st.phase ≠ .spawned) :
    Balanced others st' store where
  inv := {
    pinned := fun v hview => h.inv.pinned v (hv ▸ hview)
    prepared := fun w hw => h.inv.prepared w (hp ▸ hw)
    fits := fun w hw => hv ▸ h.inv.fits w (hp ▸ hw)
    unspawned := fun hne => hv ▸ h.inv.unspawned (hphase hne) }
  balance q := by
    have hb := h.balance q
    simpa only [viewShare, preparedShare, hv, hp] using hb

theorem Balanced.setPending (h : Balanced others st store) {pending : Option PendingWork}
    (hnew : ∀ w, pending = some w → w.prepared = .new ∧ w.Fits st.view) :
    Balanced others (st.setPending pending store).1 (st.setPending pending store).2 where
  inv := {
    pinned := h.inv.pinned
    prepared := fun w hw => by
      rw [(hnew w hw).1]
      exact .new _
    fits := fun w hw => (hnew w hw).2
    unspawned := h.inv.unspawned }
  balance q := by
    have hb := h.balance q
    have hd := h.inv.pins_dropPending store q
    have hzero : preparedShare (st.setPending pending store).1 q = 0 := by
      cases hp : pending with
      | none => simp [SessionState.setPending, preparedShare]
      | some w => simp [SessionState.setPending, preparedShare, (hnew w hp).1, PreparedChunks.new]
    have hview : viewShare (st.setPending pending store).1 q = viewShare st q := rfl
    rw [hzero, hview, SessionState.setPending, hd]
    omega

end Cobblestone.Session
