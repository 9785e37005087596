import Mathlib.Data.List.Perm.Subperm
import Mathlib.Data.List.Range
import Cobblestone.Lib.HashChain
import Cobblestone.Structure.Core

namespace Cobblestone.Structure

open Lib World

def gnu49VillageBucketCounts : List Nat := [11, 23, 47, 97, 199, 409, 823, 1741, 3739, 7517]

def targetHash (source : ChunkCoord) : Nat := (chunkHash source.x source.z).toUInt32.toNat

-- Everything but the last definitions is for any hash of the sources.
variable (hash : ChunkCoord → Nat)

def targetChunkBucket (source : ChunkCoord) (bucketCount : Nat) : Nat :=
  hash source % bucketCount

structure GnuTable where
  bucketCount : Nat
  nextResize : Nat
  bucketBefore : List Before
  next : List (Option Nat)
  head : Option Nat
deriving DecidableEq, Repr

-- Reads and writes at an index that may be out of range; `none` stands for a panic.
def setAt {α : Type} (xs : List α) (index : Nat) (value : α) : Option (List α) :=
  if index < xs.length then some (xs.set index value) else none

-- The bucket of the old first entry comes after the new one; it must have been the first bucket.
def moveOldHead (sources : List ChunkCoord) (index : Nat) (t : GnuTable) : Option (List Before) :=
  match t.head with
  | none => some t.bucketBefore
  | some oldHead => do
    let oldSource ← sources[oldHead]?
    let oldBefore ← t.bucketBefore[targetChunkBucket hash oldSource t.bucketCount]?
    if oldBefore = .beforeBegin then
      setAt t.bucketBefore (targetChunkBucket hash oldSource t.bucketCount) (.after index)
    else none

def gnu49InsertNode (sources : List ChunkCoord) (index : Nat) (t : GnuTable) : Option GnuTable := do
  let source ← sources[index]?
  let before ← t.bucketBefore[targetChunkBucket hash source t.bucketCount]?
  match before with
  | .empty =>
    let next ← setAt t.next index t.head
    let bucketBefore ← moveOldHead hash sources index t
    let bucketBefore ← setAt bucketBefore (targetChunkBucket hash source t.bucketCount) .beforeBegin
    pure { t with next := next, bucketBefore := bucketBefore, head := some index }
  | .beforeBegin =>
    let next ← setAt t.next index t.head
    pure { t with next := next, head := some index }
  | .after before =>
    let following ← t.next[before]?
    let next ← setAt t.next index following
    let next ← setAt next before (some index)
    pure { t with next := next }

-- The walk along the list; more steps than there are nodes would be a cycle.
def walkFrom (next : List (Option Nat)) : Nat → Option Nat → Option (List Nat)
  | _, none => some []
  | 0, some _ => none
  | fuel + 1, some index => do
    let head ← next[index]?
    let order ← walkFrom next fuel head
    pure (index :: order)

def linkedIterationOrder (head : Option Nat) (next : List (Option Nat)) : Option (List Nat) :=
  walkFrom next next.length head

def gnu49Reinsert (sources : List ChunkCoord) (t : GnuTable) (oldIndex : Nat) : Option GnuTable := do
  let next ← setAt t.next oldIndex none
  gnu49InsertNode hash sources oldIndex { t with next := next }

def gnu49Grow (sources : List ChunkCoord) (t : GnuTable) (elementCountAfter : Nat) :
    Option GnuTable :=
  if elementCountAfter ≥ t.nextResize then
    if elementCountAfter ≥ t.bucketCount then do
      let requested := max (elementCountAfter + 1) (t.bucketCount * 2)
      let newBucketCount ← gnu49VillageBucketCounts.find? (requested ≤ ·)
      let oldOrder ← linkedIterationOrder t.head t.next
      let cleared : GnuTable := { t with
        bucketCount := newBucketCount
        nextResize := newBucketCount
        bucketBefore := List.replicate newBucketCount .empty
        head := none }
      oldOrder.foldlM (gnu49Reinsert hash sources) cleared
    else some { t with nextResize := t.bucketCount }
  else some t

def gnu49Step (sources : List ChunkCoord) (t : GnuTable) (index : Nat) : Option GnuTable := do
  let grown ← gnu49Grow hash sources t (index + 1)
  gnu49InsertNode hash sources index grown

def gnu49EmptyTable (count : Nat) : GnuTable where
  bucketCount := 11
  nextResize := 11
  bucketBefore := List.replicate 11 .empty
  next := List.replicate count none
  head := none

def gnu49Table (sources : List ChunkCoord) : Option GnuTable :=
  (List.range sources.length).foldlM (gnu49Step hash sources) (gnu49EmptyTable sources.length)

def gnu49UnorderedMapIterationOrder (sources : List ChunkCoord) : Option (List Nat) :=
  if sources.isEmpty then some []
  else do
    let t ← gnu49Table targetHash sources
    linkedIterationOrder t.head t.next

section Walk

theorem walkFrom_linked {next : List (Option Nat)} {head : Option Nat} {order : List Nat}
    (h : Linked (next[·]?) head order) {fuel : Nat} (hfuel : order.length ≤ fuel) :
    walkFrom next fuel head = some order := by
  induction order generalizing head fuel with
  | nil =>
    cases (h : head = none)
    cases fuel <;> rfl
  | cons x xs ih =>
    obtain ⟨rfl, tail, hnext, htail⟩ := h
    obtain ⟨fuel, rfl⟩ := Nat.exists_eq_add_of_le' (Nat.le_trans (Nat.le_add_left 1 _) hfuel)
    have hrest := ih htail (Nat.le_of_succ_le_succ hfuel)
    have hread : next[x]? = some tail := hnext
    simp [walkFrom, hread, hrest]

end Walk

section Table

variable {sources : List ChunkCoord} {t : GnuTable} {order : List Nat}

-- The bucket of an entry; an index without a source has none.
def bucketOf (sources : List ChunkCoord) (bucketCount index : Nat) : Option Nat :=
  (sources[index]?).map fun source => targetChunkBucket hash source bucketCount

theorem bucketOf_eq {index : Nat} (h : index < sources.length) (n : Nat) :
    bucketOf hash sources n index = some (targetChunkBucket hash sources[index] n) := by
  rw [bucketOf, List.getElem?_eq_getElem h, Option.map_some]

theorem targetChunkBucket_lt (source : ChunkCoord) {n : Nat} (h : 0 < n) :
    targetChunkBucket hash source n < n := Nat.mod_lt _ h

structure Chained (sources : List ChunkCoord) (t : GnuTable) (order : List Nat) : Prop where
  buckets : 0 < t.bucketCount
  width : t.bucketBefore.length = t.bucketCount
  nodes : t.next.length = sources.length
  linked : Linked (t.next[·]?) t.head order
  valid : ∀ index ∈ order, index < sources.length
  nodup : order.Nodup
  grouped : Grouped (bucketOf hash sources t.bucketCount) order
  before : ∀ b, b < t.bucketCount →
    t.bucketBefore[b]? = some (beforeOf (bucketOf hash sources t.bucketCount) (some b) order)

structure Inserted (sources : List ChunkCoord) (index : Nat) (t t' : GnuTable) (order : List Nat) :
    Prop where
  chained : ∃ order', Chained hash sources t' order' ∧ order'.Perm (index :: order)
  bucketCount : t'.bucketCount = t.bucketCount
  nextResize : t'.nextResize = t.nextResize

variable {hash}

theorem setAt_eq_some {α : Type} {xs : List α} {index : Nat} (h : index < xs.length) (value : α) :
    setAt xs index value = some (xs.set index value) := if_pos h

theorem linked_push {next : List (Option Nat)} {head : Option Nat}
    (h : Linked (next[·]?) head order) {index : Nat} (hindex : index < next.length)
    (hfresh : index ∉ order) :
    Linked ((next.set index head)[·]?) (some index) (index :: order) := by
  refine ⟨rfl, head, List.getElem?_set_self hindex, h.congr fun x hx => ?_⟩
  refine List.getElem?_set_ne ?_
  rintro rfl
  exact hfresh hx

theorem linked_insert {next : List (Option Nat)} {head following : Option Nat} {pre post : List Nat}
    {p index : Nat} (h : Linked (next[·]?) head (pre ++ p :: post))
    (hnodup : (pre ++ p :: post).Nodup) (hindex : index < next.length)
    (hfresh : index ∉ pre ++ p :: post) (hp : next[p]? = some following) :
    Linked (((next.set index following).set p (some index))[·]?) head (pre ++ p :: index :: post) := by
  have hpi : p ≠ index := by
    rintro rfl
    exact hfresh (List.mem_append_right pre List.mem_cons_self)
  have hplen : p < next.length := (List.getElem?_eq_some_iff.mp hp).1
  refine h.insert pre post hnodup ?_ ?_ fun x hx hxp => ?_
  · exact List.getElem?_set_self (by rw [List.length_set]; exact hplen)
  · rw [List.getElem?_set_ne hpi, List.getElem?_set_self hindex, hp]
  · have hxi : index ≠ x := by
      rintro rfl
      exact hfresh hx
    change ((next.set index following).set p (some index))[x]? = next[x]?
    rw [List.getElem?_set_ne (Ne.symm hxp), List.getElem?_set_ne hxi]

theorem beforeOf_push_self {κ : Type} [DecidableEq κ] (key : Nat → κ) (index : Nat)
    (order : List Nat) : beforeOf key (key index) (index :: order) = .beforeBegin := if_pos rfl

theorem beforeOf_push_ne {κ : Type} [DecidableEq κ] (key : Nat → κ) {b : κ} {index : Nat}
    (order : List Nat) (h : key index ≠ b) :
    beforeOf key b (index :: order) = afterOf key b index order := if_neg h

variable {index : Nat}

theorem Chained.before_index (h : Chained hash sources t order) (hindex : index < sources.length) :
    t.bucketBefore[targetChunkBucket hash sources[index] t.bucketCount]? = some
      (beforeOf (bucketOf hash sources t.bucketCount) (bucketOf hash sources t.bucketCount index) order) := by
  rw [bucketOf_eq hash hindex]
  exact h.before _ (targetChunkBucket_lt hash _ h.buckets)

section Insert

variable {source : ChunkCoord} {next : List (Option Nat)} {buckets : List Before}

theorem insertNode_empty {moved : List Before} (hsource : sources[index]? = some source)
    (hbefore : t.bucketBefore[targetChunkBucket hash source t.bucketCount]? = some .empty)
    (hnext : setAt t.next index t.head = some next)
    (hmove : moveOldHead hash sources index t = some moved)
    (hset : setAt moved (targetChunkBucket hash source t.bucketCount) .beforeBegin = some buckets) :
    gnu49InsertNode hash sources index t =
      some { t with next := next, bucketBefore := buckets, head := some index } := by
  rw [gnu49InsertNode]
  simp [hsource, hbefore, hnext, hmove, hset]

theorem insertNode_beforeBegin (hsource : sources[index]? = some source)
    (hbefore : t.bucketBefore[targetChunkBucket hash source t.bucketCount]? = some .beforeBegin)
    (hnext : setAt t.next index t.head = some next) :
    gnu49InsertNode hash sources index t = some { t with next := next, head := some index } := by
  rw [gnu49InsertNode]
  simp [hsource, hbefore, hnext]

theorem insertNode_after {p : Nat} {following : Option Nat} {next' : List (Option Nat)}
    (hsource : sources[index]? = some source)
    (hbefore : t.bucketBefore[targetChunkBucket hash source t.bucketCount]? = some (.after p))
    (hp : t.next[p]? = some following) (hnext : setAt t.next index following = some next)
    (hnext' : setAt next p (some index) = some next') :
    gnu49InsertNode hash sources index t = some { t with next := next' } := by
  rw [gnu49InsertNode]
  simp [hsource, hbefore, hp, hnext, hnext']

theorem moveOldHead_nil (h : t.head = none) :
    moveOldHead hash sources index t = some t.bucketBefore := by
  rw [moveOldHead, h]

theorem moveOldHead_cons {oldHead : Nat} (h : t.head = some oldHead)
    (hsource : sources[oldHead]? = some source)
    (hbefore : t.bucketBefore[targetChunkBucket hash source t.bucketCount]? = some .beforeBegin)
    (hset : setAt t.bucketBefore (targetChunkBucket hash source t.bucketCount) (.after index) =
      some buckets) :
    moveOldHead hash sources index t = some buckets := by
  rw [moveOldHead, h]
  simp [hsource, hbefore, hset]

end Insert

theorem Chained.push (h : Chained hash sources t order) (hindex : index < sources.length)
    (hfresh : index ∉ order)
    (hgrouped : Grouped (bucketOf hash sources t.bucketCount) (index :: order)) (buckets : List Before)
    (hwidth : buckets.length = t.bucketCount)
    (hself : buckets[targetChunkBucket hash sources[index] t.bucketCount]? = some .beforeBegin)
    (hothers : ∀ b, b < t.bucketCount → b ≠ targetChunkBucket hash sources[index] t.bucketCount →
      buckets[b]? = some (afterOf (bucketOf hash sources t.bucketCount) (some b) index order)) :
    Inserted hash sources index t { t with
      next := t.next.set index t.head, bucketBefore := buckets, head := some index } order := by
  have hnode : index < t.next.length := h.nodes ▸ hindex
  refine ⟨⟨index :: order, ⟨h.buckets, hwidth, by rw [List.length_set, h.nodes],
    linked_push h.linked hnode hfresh, ?_, List.nodup_cons.mpr ⟨hfresh, h.nodup⟩, hgrouped, ?_⟩,
    .refl _⟩, rfl, rfl⟩
  · intro x hx
    rcases List.mem_cons.mp hx with rfl | hx
    · exact hindex
    · exact h.valid x hx
  · intro b hb
    have hkey := bucketOf_eq hash hindex t.bucketCount
    by_cases hbucket : b = targetChunkBucket hash sources[index] t.bucketCount
    · subst hbucket
      change buckets[_]? = _
      rw [hself, ← hkey, beforeOf_push_self]
    · have hne : bucketOf hash sources t.bucketCount index ≠ some b := by
        rw [hkey]
        exact fun heq => hbucket (Option.some.inj heq).symm
      change buckets[b]? = _
      rw [hothers b hb hbucket, beforeOf_push_ne _ order hne]

-- A new first entry of a bucket that has none: what follows it is the old first entry, whose
-- bucket now comes after it.
theorem Chained.insert_empty (h : Chained hash sources t order) (hindex : index < sources.length)
    (hfresh : index ∉ order)
    (hempty : beforeOf (bucketOf hash sources t.bucketCount) (bucketOf hash sources t.bucketCount index) order =
      .empty) :
    ∃ t', gnu49InsertNode hash sources index t = some t' ∧ Inserted hash sources index t t' order := by
  have hbefore := h.before_index hindex
  rw [hempty] at hbefore
  have hnew := beforeOf_eq_empty _ hempty
  have hnode : index < t.next.length := h.nodes ▸ hindex
  have hgrouped := grouped_cons_new _ h.grouped hnew
  have hsource : sources[index]? = some sources[index] := List.getElem?_eq_getElem hindex
  have hbucket : targetChunkBucket hash sources[index] t.bucketCount < t.bucketBefore.length := by
    rw [h.width]
    exact targetChunkBucket_lt hash _ h.buckets
  cases order with
  | nil =>
    have hhead : t.head = none := h.linked
    refine ⟨_, ?_, h.push hindex hfresh hgrouped (t.bucketBefore.set
      (targetChunkBucket hash sources[index] t.bucketCount) .beforeBegin) ?_ ?_ ?_⟩
    · exact insertNode_empty hsource hbefore (setAt_eq_some hnode _) (moveOldHead_nil hhead)
        (setAt_eq_some hbucket _)
    · rw [List.length_set, h.width]
    · exact List.getElem?_set_self hbucket
    · intro b hb hne
      rw [List.getElem?_set_ne hne.symm, h.before b hb]
      rfl
  | cons x xs =>
    have hhead : t.head = some x := h.linked.1
    have hx : x < sources.length := h.valid x List.mem_cons_self
    have hkeyx := bucketOf_eq hash hx t.bucketCount
    have holdBefore : t.bucketBefore[targetChunkBucket hash sources[x] t.bucketCount]? =
        some .beforeBegin := by
      rw [h.before_index hx, beforeOf_push_self]
    have hold : targetChunkBucket hash sources[x] t.bucketCount < t.bucketBefore.length := by
      rw [h.width]
      exact targetChunkBucket_lt hash _ h.buckets
    have hbucket' : targetChunkBucket hash sources[index] t.bucketCount <
        (t.bucketBefore.set (targetChunkBucket hash sources[x] t.bucketCount) (.after index)).length := by
      rw [List.length_set]
      exact hbucket
    refine ⟨_, ?_, h.push hindex hfresh hgrouped ((t.bucketBefore.set
      (targetChunkBucket hash sources[x] t.bucketCount) (.after index)).set
      (targetChunkBucket hash sources[index] t.bucketCount) .beforeBegin) ?_ ?_ ?_⟩
    · have hmove := moveOldHead_cons hhead (List.getElem?_eq_getElem hx) holdBefore
        (setAt_eq_some hold (.after index))
      exact insertNode_empty hsource hbefore (setAt_eq_some hnode _) hmove
        (setAt_eq_some hbucket' _)
    · rw [List.length_set, List.length_set, h.width]
    · exact List.getElem?_set_self hbucket'
    · intro b hb hne
      rw [List.getElem?_set_ne hne.symm, afterOf]
      by_cases hbx : b = targetChunkBucket hash sources[x] t.bucketCount
      · subst hbx
        rw [List.getElem?_set_self hold, if_pos hkeyx]
      · have hxb : bucketOf hash sources t.bucketCount x ≠ some b := by
          rw [hkeyx]
          exact fun heq => hbx (Option.some.inj heq).symm
        rw [List.getElem?_set_ne (Ne.symm hbx), h.before b hb, beforeOf, if_neg hxb, if_neg hxb]

-- A new first entry of the bucket that the list begins with.
theorem Chained.insert_beforeBegin (h : Chained hash sources t order) (hindex : index < sources.length)
    (hfresh : index ∉ order)
    (hbegin : beforeOf (bucketOf hash sources t.bucketCount) (bucketOf hash sources t.bucketCount index) order =
      .beforeBegin) :
    ∃ t', gnu49InsertNode hash sources index t = some t' ∧ Inserted hash sources index t t' order := by
  have hbefore := h.before_index hindex
  rw [hbegin] at hbefore
  obtain ⟨x, post, rfl, hx⟩ := beforeOf_eq_beforeBegin _ hbegin
  have hnode : index < t.next.length := h.nodes ▸ hindex
  refine ⟨_, ?_, h.push hindex hfresh (grouped_cons_front _ h.grouped hx) t.bucketBefore
    h.width hbefore ?_⟩
  · exact insertNode_beforeBegin (List.getElem?_eq_getElem hindex) hbefore (setAt_eq_some hnode _)
  · intro b hb hne
    rw [h.before b hb, afterOf_eq_beforeOf]
    rintro y hy
    cases hy
    rw [hx, bucketOf_eq hash hindex]
    exact fun heq => hne (Option.some.inj heq).symm

-- A new first entry of a bucket that comes after another one.
theorem Chained.insert_after (h : Chained hash sources t order) (hindex : index < sources.length)
    (hfresh : index ∉ order) {p : Nat}
    (hafter : beforeOf (bucketOf hash sources t.bucketCount) (bucketOf hash sources t.bucketCount index) order =
      .after p) :
    ∃ t', gnu49InsertNode hash sources index t = some t' ∧ Inserted hash sources index t t' order := by
  have hbefore := h.before_index hindex
  rw [hafter] at hbefore
  obtain ⟨pre, x, post, rfl, hx, hp, hpre⟩ := beforeOf_eq_after _ hafter
  have hnode : index < t.next.length := h.nodes ▸ hindex
  have hpmem : p ∈ pre ++ p :: x :: post := List.mem_append_right pre List.mem_cons_self
  have hpnode : p < t.next.length := h.nodes ▸ h.valid p hpmem
  have hfollowing : t.next[p]? = some t.next[p] := List.getElem?_eq_getElem hpnode
  have hperm : (pre ++ p :: index :: x :: post).Perm (index :: (pre ++ p :: x :: post)) := by
    have hmiddle : ((pre ++ [p]) ++ index :: x :: post).Perm (index :: ((pre ++ [p]) ++ x :: post)) :=
      List.perm_middle
    simpa only [List.append_assoc, List.singleton_append] using hmiddle
  have hgrouped : Grouped (bucketOf hash sources t.bucketCount) ((pre ++ [p]) ++ index :: x :: post) := by
    refine grouped_insert _ (pre ++ [p]) post ?_ ?_ hx
    · simpa only [List.append_assoc, List.singleton_append] using h.grouped
    · intro z hz
      rcases List.mem_append.mp hz with hz | hz
      · exact hpre z hz
      · cases List.mem_singleton.mp hz
        exact hp
  refine ⟨{ t with next := (t.next.set index t.next[p]).set p (some index) }, ?_,
    ⟨⟨pre ++ p :: index :: x :: post, ⟨h.buckets, h.width, ?_, ?_, ?_, ?_, ?_, ?_⟩, hperm⟩,
      rfl, rfl⟩⟩
  · have hpset : p < (t.next.set index t.next[p]).length := by
      rw [List.length_set]
      exact hpnode
    exact insertNode_after (List.getElem?_eq_getElem hindex) hbefore hfollowing
      (setAt_eq_some hnode _) (setAt_eq_some hpset _)
  · rw [List.length_set, List.length_set, h.nodes]
  · exact linked_insert h.linked h.nodup hnode hfresh hfollowing
  · intro y hy
    rcases List.mem_cons.mp (hperm.mem_iff.mp hy) with rfl | hy
    · exact hindex
    · exact h.valid y hy
  · exact hperm.nodup_iff.mpr (List.nodup_cons.mpr ⟨hfresh, h.nodup⟩)
  · simpa only [List.append_assoc, List.singleton_append] using hgrouped
  · intro b hb
    rw [beforeOf_insert _ _ pre post hx.symm]
    exact h.before b hb

theorem Chained.insert (h : Chained hash sources t order) (hindex : index < sources.length)
    (hfresh : index ∉ order) :
    ∃ t', gnu49InsertNode hash sources index t = some t' ∧ Inserted hash sources index t t' order := by
  cases hcase : beforeOf (bucketOf hash sources t.bucketCount) (bucketOf hash sources t.bucketCount index)
      order with
  | empty => exact h.insert_empty hindex hfresh hcase
  | beforeBegin => exact h.insert_beforeBegin hindex hfresh hcase
  | after p => exact h.insert_after hindex hfresh hcase

theorem Chained.order_length_le (h : Chained hash sources t order) : order.length ≤ sources.length := by
  have hsub : order ⊆ List.range sources.length :=
    fun x hx => List.mem_range.mpr (h.valid x hx)
  have hle := (h.nodup.subperm hsub).length_le
  rwa [List.length_range] at hle

theorem Chained.iterates (h : Chained hash sources t order) :
    linkedIterationOrder t.head t.next = some order :=
  walkFrom_linked h.linked (h.nodes ▸ h.order_length_le)

theorem Chained.reinsert (h : Chained hash sources t order) (hindex : index < sources.length)
    (hfresh : index ∉ order) :
    ∃ t', gnu49Reinsert hash sources t index = some t' ∧ Inserted hash sources index t t' order := by
  have hnode : index < t.next.length := h.nodes ▸ hindex
  have hcleared : Chained hash sources { t with next := t.next.set index none } order := by
    refine { h with nodes := by rw [List.length_set, h.nodes], linked := h.linked.congr ?_ }
    intro x hx
    refine List.getElem?_set_ne ?_
    rintro rfl
    exact hfresh hx
  obtain ⟨t', hinsert, hinserted⟩ := hcleared.insert hindex hfresh
  exact ⟨t', by simp [gnu49Reinsert, setAt_eq_some hnode, hinsert], hinserted.chained,
    hinserted.bucketCount, hinserted.nextResize⟩

theorem Chained.reinsert_all (h : Chained hash sources t order) {old : List Nat}
    (hold : ∀ x ∈ old, x < sources.length) (hnodup : (old ++ order).Nodup) :
    ∃ t' order', old.foldlM (gnu49Reinsert hash sources) t = some t' ∧ Chained hash sources t' order' ∧
      order'.Perm (old ++ order) ∧ t'.bucketCount = t.bucketCount ∧
      t'.nextResize = t.nextResize := by
  induction old generalizing t order with
  | nil => exact ⟨t, order, rfl, h, .refl _, rfl, rfl⟩
  | cons x old ih =>
    obtain ⟨hx, hrest⟩ := List.nodup_cons.mp hnodup
    have hfresh : x ∉ order := fun hmem => hx (List.mem_append_right old hmem)
    obtain ⟨t₁, hstep, hinserted⟩ := h.reinsert (hold x List.mem_cons_self) hfresh
    obtain ⟨order₁, hchained, hperm⟩ := hinserted.chained
    have hperm' : (old ++ order₁).Perm (x :: old ++ order) := by
      refine (hperm.append_left old).trans ?_
      exact List.perm_middle
    obtain ⟨t₂, order₂, hfold, hchained₂, hperm₂, hcount, hresize⟩ :=
      ih hchained (fun y hy => hold y (List.mem_cons_of_mem x hy)) (hperm'.nodup_iff.mpr hnodup)
    refine ⟨t₂, order₂, ?_, hchained₂, hperm₂.trans hperm', hcount.trans hinserted.bucketCount,
      hresize.trans hinserted.nextResize⟩
    rw [List.foldlM_cons, hstep]
    exact hfold

-- After `count` insertions.
structure Filled (hash : ChunkCoord → Nat) (sources : List ChunkCoord) (t : GnuTable) (count : Nat) :
    Prop where
  chained : ∃ order, Chained hash sources t order ∧ order.Perm (List.range count)
  policy : t.bucketCount ∈ gnu49VillageBucketCounts
  resize : t.nextResize = t.bucketCount
  room : count < t.bucketCount

theorem filled_empty (hash : ChunkCoord → Nat) (sources : List ChunkCoord) :
    Filled hash sources (gnu49EmptyTable sources.length) 0 := by
  have hpos : 0 < 11 := by decide
  have hpolicy : 11 ∈ gnu49VillageBucketCounts := by decide
  refine ⟨⟨[], ⟨hpos, List.length_replicate, List.length_replicate, rfl, nofun, List.nodup_nil,
    trivial, fun b hb => ?_⟩, .refl _⟩, hpolicy, rfl, hpos⟩
  exact List.getElem?_replicate_of_lt hb

theorem next_bucketCount {bucketCount : Nat} (hpolicy : bucketCount ∈ gnu49VillageBucketCounts)
    (hle : bucketCount ≤ 4096) :
    ∃ larger, gnu49VillageBucketCounts.find? (bucketCount * 2 ≤ ·) = some larger ∧
      larger ∈ gnu49VillageBucketCounts ∧ bucketCount < larger := by
  have hall : ∀ n ∈ gnu49VillageBucketCounts, n ≤ 4096 →
      ∃ larger ∈ gnu49VillageBucketCounts,
        gnu49VillageBucketCounts.find? (n * 2 ≤ ·) = some larger ∧ n < larger := by
    decide
  obtain ⟨larger, hmem, hfind, hlt⟩ := hall bucketCount hpolicy hle
  exact ⟨larger, hfind, hmem, hlt⟩

theorem policy_pos {bucketCount : Nat} (h : bucketCount ∈ gnu49VillageBucketCounts) :
    0 < bucketCount := by
  have hall : ∀ n ∈ gnu49VillageBucketCounts, 0 < n := by decide
  exact hall bucketCount h

variable (hash) in
theorem chained_cleared (hnodes : t.next.length = sources.length) {bucketCount : Nat}
    (hpos : 0 < bucketCount) :
    Chained hash sources { t with
      bucketCount := bucketCount
      nextResize := bucketCount
      bucketBefore := List.replicate bucketCount .empty
      head := none } [] :=
  ⟨hpos, List.length_replicate, hnodes, rfl, nofun, List.nodup_nil, trivial,
    fun _ hb => List.getElem?_replicate_of_lt hb⟩

theorem Filled.grow {count : Nat} (h : Filled hash sources t count) (hcount : count + 1 ≤ 4096) :
    ∃ t', gnu49Grow hash sources t (count + 1) = some t' ∧ Filled hash sources t' count ∧
      count + 1 < t'.bucketCount := by
  obtain ⟨order, hchained, hperm⟩ := h.chained
  rw [gnu49Grow, h.resize]
  have hroom := h.room
  split
  · rename_i hfull
    have hcountEq : t.bucketCount = count + 1 := by omega
    obtain ⟨larger, hfind, hmem, hlt⟩ := next_bucketCount h.policy (by omega)
    have hrequested : max (count + 1 + 1) (t.bucketCount * 2) = t.bucketCount * 2 := by
      rw [hcountEq]
      omega
    have hcleared := chained_cleared hash hchained.nodes (policy_pos hmem)
    have hnodup : (order ++ []).Nodup := by
      rw [List.append_nil]
      exact hchained.nodup
    obtain ⟨t', order', hfold, hchained', hperm', hbuckets, hresize⟩ :=
      hcleared.reinsert_all hchained.valid hnodup
    rw [List.append_nil] at hperm'
    refine ⟨t', ?_, ⟨⟨order', hchained', hperm'.trans hperm⟩, ?_, ?_, ?_⟩, ?_⟩
    · simp only [hrequested, hfind, hchained.iterates, Option.bind_eq_bind, Option.bind_some]
      exact hfold
    · rw [hbuckets]
      exact hmem
    · rw [hresize, hbuckets]
    · rw [hbuckets]
      change count < larger
      omega
    · rw [hbuckets]
      change count + 1 < larger
      omega
  · rename_i hfits
    exact ⟨t, rfl, h, by omega⟩

theorem Filled.step {count : Nat} (h : Filled hash sources t count) (hcount : count + 1 ≤ 4096)
    (hindex : count < sources.length) :
    ∃ t', gnu49Step hash sources t count = some t' ∧ Filled hash sources t' (count + 1) := by
  obtain ⟨grown, hgrow, hfilled, hroom⟩ := h.grow hcount
  obtain ⟨order, hchained, hperm⟩ := hfilled.chained
  have hfresh : count ∉ order := by
    rw [hperm.mem_iff, List.mem_range]
    exact Nat.lt_irrefl count
  obtain ⟨t', hinsert, hinserted⟩ := hchained.insert hindex hfresh
  obtain ⟨order', hchained', hperm'⟩ := hinserted.chained
  refine ⟨t', by simp [gnu49Step, hgrow, hinsert], ⟨order', hchained', ?_⟩, ?_, ?_, ?_⟩
  · rw [List.range_succ]
    exact (hperm'.trans (hperm.cons count)).trans (List.perm_append_singleton count _).symm
  · rw [hinserted.bucketCount]
    exact hfilled.policy
  · rw [hinserted.nextResize, hinserted.bucketCount, hfilled.resize]
  · rw [hinserted.bucketCount]
    exact hroom

theorem filled_run (hash : ChunkCoord → Nat) (sources : List ChunkCoord)
    (hbound : sources.length ≤ 4096) {count : Nat} (hcount : count ≤ sources.length) :
    ∃ t, (List.range count).foldlM (gnu49Step hash sources) (gnu49EmptyTable sources.length) =
      some t ∧ Filled hash sources t count := by
  induction count with
  | zero => exact ⟨_, rfl, filled_empty hash sources⟩
  | succ count ih =>
    obtain ⟨t, hfold, hfilled⟩ := ih (Nat.le_of_succ_le hcount)
    obtain ⟨t', hstep, hfilled'⟩ := hfilled.step (hcount.trans hbound) hcount
    refine ⟨t', ?_, hfilled'⟩
    rw [List.range_succ, List.foldlM_append, hfold]
    simp [hstep]

end Table

-- An iteration order of the table: every entry once, the entries of a bucket together.
structure IterationOrder (sources : List ChunkCoord) (bucketCount : Nat) (order : List Nat) :
    Prop where
  perm : order.Perm (List.range sources.length)
  contiguous : ∀ i j k (hij : i ≤ j) (hjk : j ≤ k) (hk : k < order.length),
    bucketOf targetHash sources bucketCount order[i] =
        bucketOf targetHash sources bucketCount order[k] →
      bucketOf targetHash sources bucketCount order[j] =
        bucketOf targetHash sources bucketCount order[i]

theorem gnu49_iteration_order_groups_buckets (sources : List ChunkCoord)
    (hbound : sources.length ≤ 4096) :
    ∃ table order, gnu49Table targetHash sources = some table ∧
      gnu49UnorderedMapIterationOrder sources = some order ∧
      IterationOrder sources table.bucketCount order := by
  obtain ⟨t, hfold, hfilled⟩ := filled_run targetHash sources hbound (Nat.le_refl _)
  obtain ⟨order, hchained, hperm⟩ := hfilled.chained
  refine ⟨t, order, hfold, ?_, hperm, fun i j k hij hjk hk heq => ?_⟩
  · rw [gnu49UnorderedMapIterationOrder]
    split
    · rename_i hempty
      have hlength : sources.length = 0 := by
        rw [List.isEmpty_iff.mp hempty]
        rfl
      rw [hlength, List.range_zero, List.perm_nil] at hperm
      rw [hperm]
    · rw [gnu49Table, hfold, Option.bind_eq_bind, Option.bind_some]
      exact hchained.iterates
  · exact hchained.grouped.between hij hjk hk heq

theorem gnu49_iteration_order_of_three :
    ∃ table order, gnu49Table targetHash [⟨0, 0⟩, ⟨0, 11⟩, ⟨3, -5⟩] = some table ∧
      gnu49UnorderedMapIterationOrder [⟨0, 0⟩, ⟨0, 11⟩, ⟨3, -5⟩] = some order ∧
      IterationOrder [⟨0, 0⟩, ⟨0, 11⟩, ⟨3, -5⟩] table.bucketCount order :=
  gnu49_iteration_order_groups_buckets [⟨0, 0⟩, ⟨0, 11⟩, ⟨3, -5⟩] (by decide)

end Cobblestone.Structure
