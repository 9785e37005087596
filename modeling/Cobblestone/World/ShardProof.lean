import Cobblestone.World.Shards

namespace Cobblestone.World

open Lib ShardedStore

variable {st st' : ShardedStore} {t : Nat} {shard : Nat} {p : ChunkCoord}

namespace ShardedStore

@[simp] theorem setThread_self (st : ShardedStore) (t : Nat) (state : ThreadState) :
    (st.setThread t state).threads t = state := Function.update_self _ _ _

@[simp] theorem setThread_of_ne (st : ShardedStore) {t u : Nat} (state : ThreadState) (h : u ≠ t) :
    (st.setThread t state).threads u = st.threads u := Function.update_of_ne h _ _

theorem setEntry_cases (st : ShardedStore) (shard : Nat) (p : ChunkCoord) (c : Option ChunkRecord)
    (other : Nat) (q : ChunkCoord) :
    (other = shard ∧ q = p ∧ (st.setEntry shard p c).shards other q = c) ∨
      (¬ (other = shard ∧ q = p) ∧
        (st.setEntry shard p c).shards other q = st.shards other q) := by
  by_cases ho : other = shard
  · by_cases hq : q = p
    · refine .inl ⟨ho, hq, ?_⟩
      simp [ho, hq, setEntry]
    · refine .inr ⟨fun h => hq h.2, ?_⟩
      simp [ho, hq, setEntry]
  · refine .inr ⟨fun h => ho h.1, ?_⟩
    simp [ho, setEntry]

end ShardedStore

-- A guard of the directory that outlives one critical section.
def ThreadState.HoldsDirectory : ThreadState → Prop
  | .evictCheck _ _ => True
  | .evictRemove _ _ => True
  | _ => False

structure ShardInv (st : ShardedStore) : Prop where
  allocated : ∀ id shard, st.directory id = some shard → shard < st.nextShard
  placed : ∀ shard p c, st.shards shard p = some c → st.directory (regionFor p) = some shard
  pending : ∀ t p call c shard, st.threads t = .insertShard p call c shard →
    st.directory (regionFor p) = some shard
  present : ∀ p, st.present p = true → ∃ shard c, st.shards shard p = some c
  locked : ∀ t, (st.threads t).HoldsDirectory → st.directoryLock = some t
  dropping : ∀ t p shard, st.threads t = .evictRemove p shard →
    st.directory (regionFor p) = some shard ∧ st.ShardEmpty shard ∧ st.NoPendingInsert shard

theorem shardInv_new : ShardInv ShardedStore.new where
  allocated _ _ h := by cases h
  placed _ _ _ h := by cases h
  pending _ _ _ _ _ h := by cases h
  present _ h := by cases h
  locked _ h := h.elim
  dropping _ _ _ h := by cases h

-- What a critical section may do to the shared state while one thread moves on.
structure Compatible (st st' : ShardedStore) (t : Nat) : Prop where
  others : ∀ u, u ≠ t → st'.threads u = st.threads u
  allocated : ∀ id shard, st'.directory id = some shard → shard < st'.nextShard
  placed : ∀ shard p c, st'.shards shard p = some c → st'.directory (regionFor p) = some shard
  directory : ∀ id shard, st.directory id = some shard → st'.directory id = some shard
  present : ∀ p, st'.present p = true → ∃ shard c, st'.shards shard p = some c
  emptied : ∀ shard, st.ShardEmpty shard → st.NoPendingInsert shard → st'.ShardEmpty shard

theorem ShardInv.keep (h : ShardInv st) (hc : Compatible st st' t)
    (hpending : ∀ p call c shard, st'.threads t = .insertShard p call c shard →
      st'.directory (regionFor p) = some shard ∧ st.directoryLock = none)
    (hholds : ¬ (st'.threads t).HoldsDirectory) (hlock : st'.directoryLock = st.directoryLock) :
    ShardInv st' where
  allocated := hc.allocated
  placed := hc.placed
  pending := by
    intro u p call c shard hu
    by_cases heq : u = t
    · exact (hpending p call c shard (heq ▸ hu)).1
    · rw [hc.others u heq] at hu
      exact hc.directory _ _ (h.pending u p call c shard hu)
  present := hc.present
  locked := by
    intro u hu
    by_cases heq : u = t
    · exact absurd (heq ▸ hu) hholds
    · rw [hc.others u heq] at hu
      rw [hlock]
      exact h.locked u hu
  dropping := by
    intro u p shard hu
    by_cases heq : u = t
    · rw [heq] at hu
      rw [hu] at hholds
      exact absurd trivial hholds
    · rw [hc.others u heq] at hu
      obtain ⟨hd, he, hn⟩ := h.dropping u p shard hu
      refine ⟨hc.directory _ _ hd, hc.emptied shard he hn, ?_⟩
      intro v q call c hv
      by_cases hvt : v = t
      · have hheld := h.locked u (by rw [hu]; trivial)
        have hfree := (hpending q call c shard (hvt ▸ hv)).2
        rw [hheld] at hfree
        cases hfree
      · rw [hc.others v hvt] at hv
        exact hn v q call c hv

theorem compatible_setThread (h : ShardInv st) (state : ThreadState) :
    Compatible st (st.setThread t state) t where
  others _ hu := setThread_of_ne st state hu
  allocated := h.allocated
  placed := h.placed
  directory _ _ hd := hd
  present := h.present
  emptied _ he _ := he

theorem ShardInv.move (h : ShardInv st) {state : ThreadState} (hholds : ¬ state.HoldsDirectory)
    (hinsert : ∀ p call c shard, state ≠ .insertShard p call c shard) :
    ShardInv (st.setThread t state) := by
  refine h.keep (compatible_setThread h state) ?_ (by rwa [setThread_self]) rfl
  intro p call c shard hs
  rw [setThread_self] at hs
  exact absurd hs (hinsert p call c shard)

theorem ShardInv.moveInsert (h : ShardInv st) {call : InsertCall} {c : ChunkRecord}
    (hl : st.directoryLock = none) (hd : st.directory (regionFor p) = some shard) :
    ShardInv (st.setThread t (.insertShard p call c shard)) := by
  refine h.keep (compatible_setThread h _) ?_ (by rw [setThread_self]; exact id) rfl
  intro q call' c' shard' hs
  rw [setThread_self] at hs
  cases hs
  exact ⟨hd, hl⟩

theorem compatible_write (h : ShardInv st) {state : ThreadState} {c : Option ChunkRecord}
    {present : ChunkCoord → Bool}
    (hplaced : ∀ d, c = some d → st.directory (regionFor p) = some shard)
    (hpresent : ∀ q, present q = true → st.present q = true ∨ q = p)
    (hsome : present p = true → c.isSome = true ∨ ∃ other d, other ≠ shard ∧
      st.shards other p = some d)
    (hempty : st.ShardEmpty shard → st.NoPendingInsert shard → c = none) :
    Compatible st ({ st.setEntry shard p c with present := present }.setThread t state) t where
  others _ hu := setThread_of_ne _ state hu
  allocated := h.allocated
  placed := by
    intro other q d hd
    rcases setEntry_cases st shard p c other q with ⟨ho, hq, heq⟩ | ⟨-, heq⟩
    · rw [ho, hq]
      exact hplaced d (heq.symm.trans hd)
    · exact h.placed other q d (heq.symm.trans hd)
  directory _ _ hd := hd
  present := by
    intro q hq
    by_cases heq : q = p
    · subst heq
      rcases hsome hq with hc | ⟨other, d, hne, hd⟩
      · obtain ⟨d, rfl⟩ := Option.isSome_iff_exists.mp hc
        refine ⟨shard, d, ?_⟩
        rcases setEntry_cases st shard q (some d) shard q with ⟨-, -, hw⟩ | ⟨hno, -⟩
        · exact hw
        · exact absurd ⟨rfl, rfl⟩ hno
      · refine ⟨other, d, ?_⟩
        rcases setEntry_cases st shard q c other q with ⟨ho, -, -⟩ | ⟨-, hw⟩
        · exact absurd ho hne
        · exact hw.trans hd
    · rcases hpresent q hq with hold | hnew
      · obtain ⟨other, d, hd⟩ := h.present q hold
        refine ⟨other, d, ?_⟩
        rcases setEntry_cases st shard p c other q with ⟨-, hqp, -⟩ | ⟨-, hw⟩
        · exact absurd hqp heq
        · exact hw.trans hd
      · exact absurd hnew heq
  emptied := by
    intro other he hn q
    rcases setEntry_cases st shard p c other q with ⟨ho, -, hw⟩ | ⟨-, hw⟩
    · rw [ho] at he hn
      exact hw.trans (hempty he hn)
    · exact hw.trans (he q)

theorem ShardInv.write (h : ShardInv st) {c : Option ChunkRecord} {present : ChunkCoord → Bool}
    {state : ThreadState}
    (hc : Compatible st ({ st.setEntry shard p c with present := present }.setThread t state) t)
    (hholds : ¬ state.HoldsDirectory)
    (hinsert : ∀ p call c shard, state ≠ .insertShard p call c shard) :
    ShardInv ({ st.setEntry shard p c with present := present }.setThread t state) := by
  refine h.keep hc ?_ (by rwa [setThread_self]) rfl
  intro q call d other hs
  rw [setThread_self] at hs
  exact absurd hs (hinsert q call d other)

theorem ShardInv.insertWrite (h : ShardInv st) {call : InsertCall} {c : ChunkRecord}
    (ht : st.threads t = .insertShard p call c shard) :
    ShardInv ((st.insertAt shard p call c).setThread t .idle) := by
  unfold insertAt
  split
  · exact h.move id (fun _ _ _ _ => by simp)
  · refine h.write (compatible_write h ?_ ?_ ?_ ?_) id (fun _ _ _ _ => by simp)
    · exact fun _ _ => h.pending t p call c shard ht
    · intro q hq
      by_cases heq : q = p
      · exact .inr heq
      · rw [Function.update_of_ne heq] at hq
        exact .inl hq
    · exact fun _ => .inl rfl
    · exact fun _ hn => absurd ht (hn t p call c)

theorem ShardInv.editWrite (h : ShardInv st) (edit : ChunkRecord → ChunkRecord) :
    ShardInv ((st.setEntry shard p ((st.shards shard p).map edit)).setThread t .idle) := by
  have hw : Compatible st ({ st.setEntry shard p ((st.shards shard p).map edit) with
      present := st.present }.setThread t .idle) t := by
    refine compatible_write h ?_ (fun _ hq => .inl hq) ?_ ?_
    · intro d hd
      obtain ⟨e, he, -⟩ := Option.map_eq_some_iff.mp hd
      exact h.placed shard p e he
    · intro hp
      obtain ⟨other, d, hd⟩ := h.present p hp
      by_cases ho : other = shard
      · left
        rw [← ho, hd]
        rfl
      · exact .inr ⟨other, d, ho, hd⟩
    · intro he _
      rw [he p]
      rfl
  exact h.write hw id (fun _ _ _ _ => by simp)

theorem ShardInv.evictTake (h : ShardInv st) {state : ThreadState}
    (hholds : ¬ state.HoldsDirectory)
    (hinsert : ∀ p call c shard, state ≠ .insertShard p call c shard) :
    ShardInv ((st.takeFrom shard p).setThread t state) := by
  unfold takeFrom
  refine h.write (compatible_write h ?_ ?_ ?_ ?_) hholds hinsert
  · intro d hd
    cases hd
  · intro q hq
    by_cases heq : q = p
    · exact .inr heq
    · rw [Function.update_of_ne heq] at hq
      exact .inl hq
  · intro hp
    rw [Function.update_self] at hp
    cases hp
  · exact fun _ _ => rfl

theorem ShardInv.fresh (h : ShardInv st) : st.ShardEmpty st.nextShard := by
  intro q
  cases hq : st.shards st.nextShard q with
  | none => rfl
  | some c => exact absurd (h.allocated _ _ (h.placed _ q c hq)) (lt_irrefl _)

theorem addShard_shards (h : ShardInv st) (id : RegionId) :
    (st.addShard id).shards = st.shards := by
  have hfresh : st.shards st.nextShard = fun _ => none := funext h.fresh
  rw [addShard, ← hfresh, Function.update_eq_self]

theorem compatible_addShard (h : ShardInv st) (hd : st.directory (regionFor p) = none)
    (state : ThreadState) :
    Compatible st ((st.addShard (regionFor p)).setThread t state) t := by
  have hkeep (id : RegionId) (other : Nat) (hid : st.directory id = some other) :
      (st.addShard (regionFor p)).directory id = some other := by
    have hne : id ≠ regionFor p := by
      rintro rfl
      cases hd.symm.trans hid
    exact (Function.update_of_ne hne _ _).trans hid
  have hshards := addShard_shards h (regionFor p)
  refine ⟨fun _ hu => setThread_of_ne _ state hu, ?_, ?_, hkeep, ?_, ?_⟩
  · intro id other hid
    by_cases heq : id = regionFor p
    · subst heq
      have hnew : (st.addShard (regionFor p)).directory (regionFor p) = some st.nextShard :=
        Function.update_self (regionFor p) _ _
      cases hnew.symm.trans hid
      exact Nat.lt_succ_self _
    · have hold : st.directory id = some other := (Function.update_of_ne heq _ _).symm.trans hid
      exact Nat.lt_succ_of_lt (h.allocated id other hold)
  · intro other q d hq
    exact hkeep _ _ (h.placed other q d ((congrFun (congrFun hshards other) q).symm.trans hq))
  · intro q hq
    obtain ⟨other, d, hold⟩ := h.present q hq
    exact ⟨other, d, (congrFun (congrFun hshards other) q).trans hold⟩
  · intro other he _ q
    exact (congrFun (congrFun hshards other) q).trans (he q)

theorem ShardInv.insertNew (h : ShardInv st) {call : InsertCall} {c : ChunkRecord}
    (hl : st.directoryLock = none) (hd : st.directory (regionFor p) = none) :
    ShardInv ((st.addShard (regionFor p)).setThread t (.insertShard p call c st.nextShard)) := by
  refine h.keep (compatible_addShard h hd _) ?_ (by rw [setThread_self]; exact id) rfl
  intro q call' c' shard' hs
  rw [setThread_self] at hs
  cases hs
  exact ⟨Function.update_self _ _ _, hl⟩

theorem ShardInv.evictAcquire (h : ShardInv st) (hl : st.directoryLock = none) :
    ShardInv ({ st with directoryLock := some t }.setThread t (.evictCheck p shard)) where
  allocated := h.allocated
  placed := h.placed
  pending := by
    intro u q call c other hu
    by_cases heq : u = t
    · rw [heq, setThread_self] at hu
      cases hu
    · rw [setThread_of_ne _ _ heq] at hu
      exact h.pending u q call c other hu
  present := h.present
  locked := by
    intro u hu
    by_cases heq : u = t
    · rw [heq]
      rfl
    · rw [setThread_of_ne _ _ heq] at hu
      cases hl.symm.trans (h.locked u hu)
  dropping := by
    intro u q other hu
    by_cases heq : u = t
    · rw [heq, setThread_self] at hu
      cases hu
    · rw [setThread_of_ne _ _ heq] at hu
      have hu' : st.threads u = .evictRemove q other := hu
      have hheld := h.locked u (by rw [hu']; trivial)
      cases hl.symm.trans hheld

theorem ShardInv.only_holder (h : ShardInv st) (ht : (st.threads t).HoldsDirectory) {u : Nat}
    (hu : (st.threads u).HoldsDirectory) : u = t :=
  Option.some.inj ((h.locked u hu).symm.trans (h.locked t ht))

theorem ShardInv.evictKeep (h : ShardInv st) (ht : st.threads t = .evictCheck p shard) :
    ShardInv ({ st with directoryLock := none }.setThread t .idle) := by
  have hholder : (st.threads t).HoldsDirectory := by
    rw [ht]
    trivial
  constructor
  case allocated => exact h.allocated
  case placed => exact h.placed
  case present => exact h.present
  case pending =>
    intro u q call c other hu
    by_cases heq : u = t
    · rw [heq, setThread_self] at hu
      cases hu
    · rw [setThread_of_ne _ _ heq] at hu
      exact h.pending u q call c other hu
  case locked =>
    intro u hu
    by_cases heq : u = t
    · rw [heq, setThread_self] at hu
      exact hu.elim
    · rw [setThread_of_ne _ _ heq] at hu
      exact absurd (h.only_holder hholder hu) heq
  case dropping =>
    intro u q other hu
    by_cases heq : u = t
    · rw [heq, setThread_self] at hu
      cases hu
    · rw [setThread_of_ne _ _ heq] at hu
      have hu' : st.threads u = .evictRemove q other := hu
      exact absurd (h.only_holder hholder (by rw [hu']; trivial)) heq

theorem ShardInv.evictEmpty (h : ShardInv st) (ht : st.threads t = .evictCheck p shard)
    (hd : st.directory (regionFor p) = some shard) (he : st.ShardEmpty shard)
    (hn : st.NoPendingInsert shard) : ShardInv (st.setThread t (.evictRemove p shard)) := by
  have hholder : (st.threads t).HoldsDirectory := by
    rw [ht]
    trivial
  constructor
  case allocated => exact h.allocated
  case placed => exact h.placed
  case present => exact h.present
  case pending =>
    intro u q call c other hu
    by_cases heq : u = t
    · rw [heq, setThread_self] at hu
      cases hu
    · rw [setThread_of_ne _ _ heq] at hu
      exact h.pending u q call c other hu
  case locked =>
    intro u hu
    by_cases heq : u = t
    · rw [heq]
      exact h.locked t hholder
    · rw [setThread_of_ne _ _ heq] at hu
      exact h.locked u hu
  case dropping =>
    intro u q other hu
    by_cases heq : u = t
    · rw [heq, setThread_self] at hu
      cases hu
      refine ⟨hd, he, fun v q' call c hv => ?_⟩
      by_cases hvt : v = t
      · rw [hvt, setThread_self] at hv
        cases hv
      · rw [setThread_of_ne _ _ hvt] at hv
        exact hn v q' call c hv
    · rw [setThread_of_ne _ _ heq] at hu
      have hu' : st.threads u = .evictRemove q other := hu
      exact absurd (h.only_holder hholder (by rw [hu']; trivial)) heq

theorem ShardInv.evictDrop (h : ShardInv st) (ht : st.threads t = .evictRemove p shard) :
    ShardInv ((st.dropShard (regionFor p)).setThread t .idle) := by
  have hholder : (st.threads t).HoldsDirectory := by
    rw [ht]
    trivial
  obtain ⟨hd, he, hn⟩ := h.dropping t p shard ht
  have hkeep (id : RegionId) (other : Nat) (hid : st.directory id = some other)
      (hne : other ≠ shard) : (st.dropShard (regionFor p)).directory id = some other := by
    have hid' : id ≠ regionFor p := by
      rintro rfl
      exact hne (Option.some.inj (hid.symm.trans hd))
    exact (Function.update_of_ne hid' _ _).trans hid
  constructor
  case allocated =>
    intro id other hid
    by_cases heq : id = regionFor p
    · have hnone : (st.dropShard (regionFor p)).directory id = none := by
        rw [heq]
        exact Function.update_self (regionFor p) _ _
      cases hnone.symm.trans hid
    · exact h.allocated id other ((Function.update_of_ne heq _ _).symm.trans hid)
  case placed =>
    intro other q c hq
    refine hkeep _ _ (h.placed other q c hq) ?_
    rintro rfl
    cases (he q).symm.trans hq
  case present => exact h.present
  case pending =>
    intro u q call c other hu
    by_cases heq : u = t
    · rw [heq, setThread_self] at hu
      cases hu
    · rw [setThread_of_ne _ _ heq] at hu
      refine hkeep _ _ (h.pending u q call c other hu) ?_
      rintro rfl
      exact hn u q call c hu
  case locked =>
    intro u hu
    by_cases heq : u = t
    · rw [heq, setThread_self] at hu
      exact hu.elim
    · rw [setThread_of_ne _ _ heq] at hu
      exact absurd (h.only_holder hholder hu) heq
  case dropping =>
    intro u q other hu
    by_cases heq : u = t
    · rw [heq, setThread_self] at hu
      cases hu
    · rw [setThread_of_ne _ _ heq] at hu
      have hu' : st.threads u = .evictRemove q other := hu
      exact absurd (h.only_holder hholder (by rw [hu']; trivial)) heq

theorem ShardStep.inv (h : ShardInv st) (hs : ShardStep NoPendingInsert st st') : ShardInv st' := by
  cases hs with
  | startInsert p call ht hc => exact h.move id (by simp)
  | insertFound ht hl hd => exact h.moveInsert hl hd
  | insertMissing ht hl hd => exact h.move id (by simp)
  | insertReuse ht hl hd => exact h.moveInsert hl hd
  | insertNew ht hl hd => exact h.insertNew hl hd
  | insertWrite ht => exact h.insertWrite ht
  | startEdit p edit ht => exact h.move id (by simp)
  | editFound ht hl hd => exact h.move id (by simp)
  | editMissing ht hl hd => exact h.move id (by simp)
  | editWrite ht => exact h.editWrite _
  | startEvict p ht => exact h.move id (by simp)
  | evictFound ht hl hd => exact h.move id (by simp)
  | evictMissing ht hl hd => exact h.move id (by simp)
  | evictRefused ht hr => exact h.move id (by simp)
  | evictTake ht hs hp hc he => exact h.evictTake id (by simp)
  | evictLast ht hs hp hc he => exact h.evictTake id (by simp)
  | evictAcquire ht hl => exact h.evictAcquire hl
  | evictKeep ht hk => exact h.evictKeep ht
  | evictEmpty ht hd he hc => exact h.evictEmpty ht hd he hc
  | evictDrop ht => exact h.evictDrop ht

theorem ShardReachable.inv (h : ShardReachable NoPendingInsert st) : ShardInv st :=
  invariant_of_run ShardInv h shardInv_new fun _ _ hinv hs => ShardStep.inv hinv hs

theorem ShardInv.present_directory (h : ShardInv st) (hp : st.present p = true) :
    ∃ shard c, st.directory (regionFor p) = some shard ∧ st.shards shard p = some c := by
  obtain ⟨shard, c, hc⟩ := h.present p hp
  exact ⟨shard, c, h.placed shard p c hc, hc⟩

theorem ShardStep.directory_kept (h : ShardInv st) (hp : st.present p = true)
    (hs : ShardStep NoPendingInsert st st') :
    st'.directory (regionFor p) = st.directory (regionFor p) := by
  obtain ⟨shard, c, hd, hc⟩ := h.present_directory hp
  cases hs with
  | insertNew ht hl hnone =>
    refine Function.update_of_ne ?_ _ _
    intro heq
    rw [← heq, hd] at hnone
    cases hnone
  | evictDrop ht =>
    obtain ⟨hdrop, he, -⟩ := h.dropping _ _ _ ht
    refine Function.update_of_ne ?_ _ _
    intro heq
    rw [← heq, hd] at hdrop
    cases hdrop
    cases (he p).symm.trans hc
  | insertWrite ht =>
    unfold insertAt
    split <;> rfl
  | _ => rfl

theorem insert_never_lost (hreach : ShardReachable NoPendingInsert st)
    (hrun : PresentRun NoPendingInsert p st st') :
    (readChunk st st' p).isSome = true ∧ st'.containsChunk p = true := by
  obtain ⟨hp, hrun⟩ := hrun
  have hinv := hreach.inv
  have hend : ShardInv st' ∧ st'.present p = true ∧
      st'.directory (regionFor p) = st.directory (regionFor p) := by
    refine invariant_of_run (fun b => ShardInv b ∧ b.present p = true ∧
      b.directory (regionFor p) = st.directory (regionFor p)) hrun ⟨hinv, hp, rfl⟩ ?_
    rintro a b ⟨ha, hpa, hda⟩ ⟨hs, hpb⟩
    exact ⟨hs.inv ha, hpb, (hs.directory_kept ha hpa).trans hda⟩
  obtain ⟨hinv', hp', hd⟩ := hend
  obtain ⟨shard, c, hshard, hc⟩ := hinv'.present_directory hp'
  refine ⟨?_, ?_⟩
  · rw [readChunk, ← hd, hshard]
    exact Option.isSome_iff_exists.mpr ⟨c, hc⟩
  · rw [containsChunk, readChunk, hshard]
    exact Option.isSome_iff_exists.mpr ⟨c, hc⟩

def airImport : ChunkImport where
  terrainRevision := 0
  lightRevision := 0
  lifecycleFlags := 0
  data := ChunkData.empty 0x0192bc59

def airChunk : ChunkRecord := ChunkRecord.fromImport airImport

def airCall : InsertCall := .importChunk airImport

theorem airCall_prepare : airCall.prepare = .ok airChunk := by
  have hvalid : validateImport airImport = .ok () :=
    validateImport_ok_iff.mpr ⟨by decide, ChunkData.empty_wellFormed _ (by decide)⟩
  rw [airCall, InsertCall.prepare, hvalid]
  rfl

def nearChunk : ChunkCoord := ⟨0, 0⟩

def farChunk : ChunkCoord := ⟨1, 0⟩

def importedStore : ShardedStore :=
  (((((ShardedStore.new.setThread 0 (.insertLookup nearChunk airCall airChunk)).setThread 0
    (.insertCreate nearChunk airCall airChunk)).addShard (regionFor nearChunk)).setThread 0
    (.insertShard nearChunk airCall airChunk 0)).insertAt 0 nearChunk airCall airChunk).setThread 0
    .idle

theorem importedStore_reachable (cond : ShardedStore → Nat → Prop) :
    ShardReachable cond importedStore := by
  have h₁ : ShardReachable cond _ := .single (.startInsert (t := 0) nearChunk airCall rfl
    airCall_prepare)
  have h₂ := h₁.tail (.insertMissing (t := 0) rfl rfl rfl)
  have h₃ := h₂.tail (.insertNew (t := 0) rfl rfl rfl)
  exact h₃.tail (.insertWrite (t := 0) rfl)

-- The second thread evicts the only chunk of the shard and stops before the directory lock.
def emptiedStore : ShardedStore :=
  (((importedStore.setThread 1 (.evictLookup nearChunk)).setThread 1
    (.evictShard nearChunk 0)).takeFrom 0 nearChunk).setThread 1 (.evictDirectory nearChunk 0)

theorem emptiedStore_shards : emptiedStore.shards = fun _ _ => none := by
  funext shard q
  simp [emptiedStore, takeFrom, setEntry, setThread, importedStore, insertAt, addShard, airCall,
    InsertCall.replaces, ShardedStore.new]

theorem emptiedStore_reachable (cond : ShardedStore → Nat → Prop) :
    ShardReachable cond emptiedStore := by
  have h₁ := (importedStore_reachable cond).tail (.startEvict (t := 1) nearChunk rfl)
  have h₂ := h₁.tail (.evictFound (t := 1) rfl rfl rfl)
  refine h₂.tail (.evictLast (t := 1) (c := airChunk) rfl rfl rfl
    (ChunkRecord.fromImport_not_dirty airImport) ?_)
  intro q
  exact congrFun (congrFun emptiedStore_shards 0) q

-- The first thread looks the shard up again before the second thread drops it.
def orphanedStore : ShardedStore :=
  ((({ (emptiedStore.setThread 0 (.insertLookup farChunk airCall airChunk)).setThread 0
    (.insertShard farChunk airCall airChunk 0) with directoryLock := some 1 }.setThread 1
    (.evictCheck nearChunk 0)).setThread 1 (.evictRemove nearChunk 0)).dropShard
    (regionFor nearChunk)).setThread 1 .idle

theorem orphanedStore_reachable : ShardReachable (fun _ _ => True) orphanedStore := by
  have h₁ := (emptiedStore_reachable fun _ _ => True).tail
    (.startInsert (t := 0) farChunk airCall rfl airCall_prepare)
  have h₂ := h₁.tail (.insertFound (t := 0) rfl rfl rfl)
  have h₃ := h₂.tail (.evictAcquire (t := 1) (p := nearChunk) rfl rfl)
  have h₄ := h₃.tail (.evictEmpty (t := 1) rfl rfl
    (fun q => congrFun (congrFun emptiedStore_shards 0) q) trivial)
  exact h₄.tail (.evictDrop (t := 1) rfl)

def lostStore : ShardedStore :=
  (orphanedStore.insertAt 0 farChunk airCall airChunk).setThread 0 .idle

theorem insert_never_lost_imported :
    importedStore.present nearChunk = true ∧ importedStore.containsChunk nearChunk = true := by
  have hp : importedStore.present nearChunk = true := rfl
  exact ⟨hp, (insert_never_lost (importedStore_reachable _) ⟨hp, .refl⟩).2⟩

theorem insert_lost_in_dropped_shard :
    ¬ ∀ st p, ShardReachable (fun _ _ => True) st → st.present p = true →
      st.containsChunk p = true := by
  intro hall
  have hreach : ShardReachable (fun _ _ => True) lostStore :=
    orphanedStore_reachable.tail (.insertWrite (t := 0) rfl)
  have hpresent : lostStore.present farChunk = true := rfl
  have hmissing : lostStore.containsChunk farChunk = false := rfl
  cases hmissing.symm.trans (hall lostStore farChunk hreach hpresent)

end Cobblestone.World
