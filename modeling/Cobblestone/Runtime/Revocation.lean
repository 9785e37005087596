import Cobblestone.Runtime.Ownership

namespace Cobblestone.Runtime

open Lib

variable {α : Type} {a b : OwnedArena α} {g : Grant}

-- Everything one operation can do to the slots. An epoch never goes back while a value lives.
inductive ArenaMove (a : Arena (OwnedValue α)) : Arena (OwnedValue α) → Prop where
  | stay : ArenaMove a a
  | reuse {index : UInt32} {free : List UInt32} {slot : Slot (OwnedValue α)} (value : OwnedValue α)
      (hfree : a.free = index :: free) (hslot : a.slots[index.toNat]? = some slot) :
      ArenaMove a
        ⟨a.slots.set index.toNat { slot with value := some value }, free, a.len + 1⟩
  | push (value : OwnedValue α) (hfree : a.free = []) (hlen : a.slots.length < UInt32.size) :
      ArenaMove a ⟨a.slots ++ [⟨1, some value, false⟩], [], a.len + 1⟩
  | rewrite {index : UInt32} {slot : Slot (OwnedValue α)} {old : OwnedValue α} (new : OwnedValue α)
      (hslot : a.slots[index.toNat]? = some slot) (hold : slot.value = some old)
      (hepoch : old.epoch.toNat ≤ new.epoch.toNat) :
      ArenaMove a (a.setSlot index { slot with value := some new })
  | release {index next : UInt32} {slot : Slot (OwnedValue α)} {old : OwnedValue α}
      (hslot : a.slots[index.toNat]? = some slot) (hold : slot.value = some old)
      (hnext : checkedSucc32 slot.generation = some next) :
      ArenaMove a
        ⟨a.slots.set index.toNat { slot with value := none, generation := next }, index :: a.free,
          a.len - 1⟩
  | retire {index : UInt32} {slot : Slot (OwnedValue α)} {old : OwnedValue α}
      (hslot : a.slots[index.toNat]? = some slot) (hold : slot.value = some old)
      (hnext : checkedSucc32 slot.generation = none) :
      ArenaMove a
        ⟨a.slots.set index.toNat { slot with value := none, retired := true }, a.free, a.len - 1⟩

theorem slotOf_eq_some {a : Arena α} {h : Handle} {slot : Slot α} :
    a.slotOf h = some slot ↔
      a.slots[h.index.toNat]? = some slot ∧ slot.generation = h.generation := by
  simp [Arena.slotOf, Option.filter_eq_some_iff]

theorem get_eq_some {a : Arena α} {h : Handle} {value : α} :
    a.get h = some value ↔ ∃ slot, a.slots[h.index.toNat]? = some slot ∧
      slot.generation = h.generation ∧ slot.value = some value := by
  simp only [Arena.get, Option.bind_eq_some_iff, slotOf_eq_some]
  exact ⟨fun ⟨slot, ⟨hs, hg⟩, hv⟩ => ⟨slot, hs, hg, hv⟩, fun ⟨slot, hs, hg, hv⟩ =>
    ⟨slot, ⟨hs, hg⟩, hv⟩⟩

theorem authorize_ok {state : OwnedValue α} :
    a.authorize g = .ok state ↔
      a.arena.get g.handle = some state ∧ state.owner = g.owner ∧ state.epoch = g.epoch := by
  rw [OwnedArena.authorize, OwnedArena.state]
  cases hget : a.arena.get g.handle with
  | none => simp
  | some found =>
    rw [ok_bind, assertOwnerAndEpoch]
    constructor
    · intro h
      split at h
      · cases h
      · split at h
        · cases h
        · rename_i howner hepoch
          cases h
          exact ⟨rfl, not_not.mp howner, not_not.mp hepoch⟩
    · rintro ⟨hfound, howner, hepoch⟩
      cases hfound
      rw [if_neg (not_not.mpr howner), if_neg (not_not.mpr hepoch)]
      rfl

theorem update_move {h : Handle} {old new : OwnedValue α} (hget : a.arena.get h = some old)
    (hepoch : old.epoch.toNat ≤ new.epoch.toNat) : ArenaMove a.arena (a.arena.update h new) := by
  obtain ⟨slot, hslot, hgen, hold⟩ := get_eq_some.mp hget
  rw [Arena.update, slotOf_eq_some.mpr ⟨hslot, hgen⟩]
  exact .rewrite new hslot hold hepoch

theorem OwnedStep.move (h : OwnedStep a b) : ArenaMove a.arena b.arena := by
  cases h with
  | insert owner value =>
    rw [OwnedArena.insert, Arena.insert]
    cases hfree : a.arena.free with
    | nil =>
      by_cases hlen : a.arena.slots.length < UInt32.size
      · simp only [hlen, if_true]
        exact .push _ hfree hlen
      · simp only [hlen, if_false]
        exact .stay
    | cons index free =>
      cases hslot : a.arena.slots[index.toNat]? with
      | none =>
        simp only [hslot]
        exact .stay
      | some slot =>
        simp only [hslot]
        exact .reuse _ hfree hslot
  | write g write =>
    rw [OwnedArena.getMut]
    split
    · exact .stay
    · rename_i state hok
      exact update_move (authorize_ok.mp hok).1 (Nat.le_refl _)
  | transfer g newOwner =>
    rw [OwnedArena.transfer]
    split
    · exact .stay
    · rename_i state hok
      split
      · exact .stay
      · rename_i next hnext
        refine update_move (authorize_ok.mp hok).1 ?_
        rw [OwnershipEpoch.next_toNat hnext]
        exact Nat.le_succ _
  | remove g =>
    rw [OwnedArena.remove]
    split
    · exact .stay
    · rename_i state hok
      obtain ⟨slot, hslot, hgen, hold⟩ := get_eq_some.mp (authorize_ok.mp hok).1
      rw [Arena.remove, slotOf_eq_some.mpr ⟨hslot, hgen⟩]
      simp only [hold]
      cases hnext : checkedSucc32 slot.generation with
      | some next => exact .release hslot hold hnext
      | none => exact .retire hslot hold hnext

def Slot.isLive (slot : Slot α) : Bool := slot.value.isSome

structure Tidy (a : Arena α) : Prop where
  live : a.len = a.slots.countP Slot.isLive
  nodup : a.free.Nodup
  vacant : ∀ i ∈ a.free, ∃ slot, a.slots[i.toNat]? = some slot ∧ slot.value = none ∧
    slot.retired = false
  retired : ∀ (i : Nat) slot, a.slots[i]? = some slot → slot.retired = true →
    slot.value = none ∧ checkedSucc32 slot.generation = none
  addressable : a.slots.length ≤ UInt32.size

theorem set_slot {slots : List (Slot α)} {i j : Nat} {slot new : Slot α}
    (hi : slots[i]? = some slot) :
    (slots.set i new)[j]? = if i = j then some new else slots[j]? := by
  have hlt : i < slots.length := (List.getElem?_eq_some_iff.mp hi).1
  rw [List.getElem?_set, if_pos hlt]

theorem countP_set_slot {slots : List (Slot α)} {i : Nat} {slot : Slot α} (new : Slot α)
    (hi : slots[i]? = some slot) :
    (slots.set i new).countP Slot.isLive + slot.isLive.toNat =
      slots.countP Slot.isLive + new.isLive.toNat := by
  induction slots generalizing i with
  | nil => simp at hi
  | cons head rest ih =>
    cases i with
    | zero =>
      simp only [List.getElem?_cons_zero, Option.some.injEq] at hi
      subst hi
      simp only [List.set_cons_zero, List.countP_cons]
      cases head.isLive <;> cases new.isLive <;> simp
    | succ i =>
      simp only [List.getElem?_cons_succ] at hi
      have hrest := ih hi
      simp only [List.set_cons_succ, List.countP_cons]
      omega

theorem Tidy.vacant_ne (h : Tidy a.arena) {i index : UInt32} {slot : Slot (OwnedValue α)}
    (hi : i ∈ a.arena.free) (hslot : a.arena.slots[index.toNat]? = some slot)
    (hlive : slot.value ≠ none) : index.toNat ≠ i.toNat := by
  intro heq
  obtain ⟨found, hfound, hnone, -⟩ := h.vacant i hi
  rw [← heq, hslot] at hfound
  cases hfound
  exact hlive hnone

theorem Tidy.move (h : Tidy a.arena) {arena : Arena (OwnedValue α)} (hm : ArenaMove a.arena arena) :
    Tidy arena := by
  cases hm with
  | stay => exact h
  | @reuse index free slot value hfree hslot =>
    obtain ⟨found, hfound, hnone, hfresh⟩ := h.vacant index (by simp [hfree])
    cases hslot.symm.trans hfound
    have hnodup := h.nodup
    rw [hfree, List.nodup_cons] at hnodup
    refine ⟨?_, hnodup.2, fun i hi => ?_, fun i s hs hr => ?_, ?_⟩
    · have hcount := countP_set_slot { slot with value := some value } hslot
      simp only [Slot.isLive, hnone, Option.isSome_none, Bool.toNat_false, Option.isSome_some,
        Bool.toNat_true] at hcount
      have hlive := h.live
      dsimp only
      omega
    · obtain ⟨s, hs, hv, hr⟩ := h.vacant i (by simp [hfree, hi])
      have hne : index.toNat ≠ i.toNat := by
        intro heq
        exact hnodup.1 (UInt32.toNat_inj.mp heq ▸ hi)
      exact ⟨s, by rw [set_slot hslot, if_neg hne, hs], hv, hr⟩
    · rw [set_slot hslot] at hs
      split at hs
      · cases hs
        exact absurd hr (by simp [hfresh])
      · exact h.retired i s hs hr
    · simpa using h.addressable
  | push value hfree hlen =>
    refine ⟨?_, List.nodup_nil, fun i hi => absurd hi List.not_mem_nil, fun i s hs hr => ?_, ?_⟩
    · simp [List.countP_append, Slot.isLive, h.live]
    · rcases Nat.lt_trichotomy i a.arena.slots.length with hi | hi | hi
      · rw [List.getElem?_append_left hi] at hs
        exact h.retired i s hs hr
      · subst hi
        simp only [List.getElem?_concat_length, Option.some.injEq] at hs
        subst hs
        cases hr
      · rw [List.getElem?_eq_none (by simpa using hi)] at hs
        cases hs
    · simpa using hlen
  | @rewrite index slot old new hslot hold hepoch =>
    refine ⟨?_, h.nodup, fun i hi => ?_, fun i s hs hr => ?_, ?_⟩
    · have hcount := countP_set_slot { slot with value := some new } hslot
      simp only [Slot.isLive, hold, Option.isSome_some] at hcount
      have hlive := h.live
      simp only [Arena.setSlot]
      omega
    · obtain ⟨s, hs, hv, hr⟩ := h.vacant i hi
      have hne := h.vacant_ne hi hslot (by simp [hold])
      exact ⟨s, by rw [Arena.setSlot, set_slot hslot, if_neg hne, hs], hv, hr⟩
    · rw [Arena.setSlot, set_slot hslot] at hs
      split at hs
      · cases hs
        have := (h.retired index.toNat slot hslot hr).1
        simp [hold] at this
      · exact h.retired i s hs hr
    · simpa [Arena.setSlot] using h.addressable
  | @release index next slot old hslot hold hnext =>
    have hfresh : slot.retired = false := by
      by_contra hr
      have := (h.retired index.toNat slot hslot (Bool.eq_true_of_not_eq_false hr)).1
      simp [hold] at this
    have hout : index ∉ a.arena.free := fun hi => h.vacant_ne hi hslot (by simp [hold]) rfl
    refine ⟨?_, List.nodup_cons.mpr ⟨hout, h.nodup⟩, fun i hi => ?_, fun i s hs hr => ?_, ?_⟩
    · have hcount := countP_set_slot { slot with value := none, generation := next } hslot
      simp only [Slot.isLive, hold, Option.isSome_none, Bool.toNat_false, Option.isSome_some,
        Bool.toNat_true] at hcount
      have hlive := h.live
      dsimp only
      omega
    · rcases List.mem_cons.mp hi with rfl | hi
      · refine ⟨{ slot with value := none, generation := next }, ?_, rfl, hfresh⟩
        rw [set_slot hslot, if_pos rfl]
      · obtain ⟨s, hs, hv, hr⟩ := h.vacant i hi
        have hne := h.vacant_ne hi hslot (by simp [hold])
        exact ⟨s, by rw [set_slot hslot, if_neg hne, hs], hv, hr⟩
    · rw [set_slot hslot] at hs
      split at hs
      · cases hs
        exact absurd hr (by simp [hfresh])
      · exact h.retired i s hs hr
    · simpa using h.addressable
  | @retire index slot old hslot hold hnext =>
    refine ⟨?_, h.nodup, fun i hi => ?_, fun i s hs hr => ?_, ?_⟩
    · have hcount := countP_set_slot { slot with value := none, retired := true } hslot
      simp only [Slot.isLive, hold, Option.isSome_none, Bool.toNat_false, Option.isSome_some,
        Bool.toNat_true] at hcount
      have hlive := h.live
      dsimp only
      omega
    · obtain ⟨s, hs, hv, hr⟩ := h.vacant i hi
      have hne := h.vacant_ne hi hslot (by simp [hold])
      exact ⟨s, by rw [set_slot hslot, if_neg hne, hs], hv, hr⟩
    · rw [set_slot hslot] at hs
      split at hs
      · cases hs
        exact ⟨rfl, hnext⟩
      · exact h.retired i s hs hr
    · simpa using h.addressable

-- No later value of the slot can carry the generation and the epoch again.
def Spent (a : Arena (OwnedValue α)) (index generation : UInt32) (epoch : OwnershipEpoch) : Prop :=
  ∃ slot, a.slots[index.toNat]? = some slot ∧ (generation.toNat < slot.generation.toNat ∨
    (generation = slot.generation ∧ (slot.retired = true ∨
      ∃ v, slot.value = some v ∧ epoch.toNat < v.epoch.toNat)))

theorem Spent.move (h : Tidy a.arena) {arena : Arena (OwnedValue α)} (hm : ArenaMove a.arena arena)
    {index generation : UInt32} {epoch : OwnershipEpoch}
    (hs : Spent a.arena index generation epoch) : Spent arena index generation epoch := by
  obtain ⟨slot, hslot, hspent⟩ := hs
  -- A slot that is not touched stays spent.
  have hkeep {i : UInt32} {old new : Slot (OwnedValue α)} (hi : a.arena.slots[i.toNat]? = some old)
      (hspent' : old = slot → generation.toNat < new.generation.toNat ∨
        (generation = new.generation ∧ (new.retired = true ∨
          ∃ v, new.value = some v ∧ epoch.toNat < v.epoch.toNat))) :
      ∃ s, (a.arena.slots.set i.toNat new)[index.toNat]? = some s ∧
        (generation.toNat < s.generation.toNat ∨ (generation = s.generation ∧
          (s.retired = true ∨ ∃ v, s.value = some v ∧ epoch.toNat < v.epoch.toNat))) := by
    by_cases hne : i.toNat = index.toNat
    · rw [hne, hslot] at hi
      cases hi
      refine ⟨new, ?_, hspent' rfl⟩
      rw [hne, set_slot hslot, if_pos rfl]
    · exact ⟨slot, by rw [set_slot hi, if_neg hne, hslot], hspent⟩
  cases hm with
  | stay => exact ⟨slot, hslot, hspent⟩
  | @reuse i free old value hfree hi =>
    refine hkeep hi fun heq => ?_
    obtain ⟨found, hfound, hnone, hfresh⟩ := h.vacant i (by simp [hfree])
    cases hi.symm.trans hfound
    subst heq
    rcases hspent with hlt | ⟨-, hr | ⟨v, hv, -⟩⟩
    · exact .inl hlt
    · exact absurd hr (by simp [hfresh])
    · exact absurd hv (by simp [hnone])
  | push value hfree hlen =>
    refine ⟨slot, ?_, hspent⟩
    rw [List.getElem?_append_left (List.getElem?_eq_some_iff.mp hslot).1, hslot]
  | rewrite new hi hold hepoch =>
    refine hkeep hi fun heq => ?_
    subst heq
    rcases hspent with hlt | ⟨hgen, hr | ⟨v, hv, hlt⟩⟩
    · exact .inl hlt
    · exact .inr ⟨hgen, .inl hr⟩
    · cases hold.symm.trans hv
      exact .inr ⟨hgen, .inr ⟨new, rfl, by omega⟩⟩
  | release hi hold hnext =>
    refine hkeep hi fun heq => ?_
    subst heq
    have hsucc := checkedSucc32_toNat hnext
    rcases hspent with hlt | ⟨hgen, -⟩
    · exact .inl (by simp only; omega)
    · exact .inl (by simp only [hgen]; omega)
  | retire hi hold hnext =>
    refine hkeep hi fun heq => ?_
    subst heq
    rcases hspent with hlt | ⟨hgen, -⟩
    · exact .inl hlt
    · exact .inr ⟨hgen, .inl rfl⟩

theorem Tidy.start : Tidy (OwnedArena.new : OwnedArena α).arena where
  live := rfl
  nodup := List.nodup_nil
  vacant _ hi := absurd hi List.not_mem_nil
  retired i slot hs := by simp [OwnedArena.new, Arena.new] at hs
  addressable := Nat.zero_le _

theorem OwnedReachable.tidy (h : OwnedReachable a) : Tidy a.arena :=
  invariant_of_run (fun s => Tidy s.arena) h Tidy.start fun _ _ ht hs => ht.move hs.move

theorem OwnedRun.tidy (h : OwnedRun a b) (ht : Tidy a.arena) : Tidy b.arena :=
  invariant_of_run (fun s => Tidy s.arena) h ht fun _ _ ht hs => ht.move hs.move

theorem OwnedRun.spent (h : OwnedRun a b) (ht : Tidy a.arena) {index generation : UInt32}
    {epoch : OwnershipEpoch} (hs : Spent a.arena index generation epoch) :
    Spent b.arena index generation epoch :=
  (invariant_of_run (fun s => Tidy s.arena ∧ Spent s.arena index generation epoch) h ⟨ht, hs⟩
    fun _ _ hinv hstep => ⟨hinv.1.move hstep.move, hinv.2.move hinv.1 hstep.move⟩).2

-- No operation accepts the grant.
structure Revoked (a : OwnedArena α) (g : Grant) : Prop where
  get : ∃ e, a.get g = .error e
  getMut : ∀ write, ∃ e, a.getMut g write = (.error e, a)
  transfer : ∀ newOwner, ∃ e, a.transfer g newOwner = (.error e, a)
  remove : ∃ e, a.remove g = (.error e, a)

theorem Revoked.of_authorize {e : OwnershipError} (h : a.authorize g = .error e) : Revoked a g where
  get := ⟨e, by rw [OwnedArena.get, h]; rfl⟩
  getMut _ := ⟨e, by rw [OwnedArena.getMut, h]⟩
  transfer _ := ⟨e, by rw [OwnedArena.transfer, h]⟩
  remove := ⟨e, by rw [OwnedArena.remove, h]⟩

theorem Spent.revoked (ht : Tidy a.arena) (h : Spent a.arena g.handle.index g.handle.generation g.epoch) :
    Revoked a g := by
  cases hauth : a.authorize g with
  | error e => exact .of_authorize hauth
  | ok state =>
    obtain ⟨hget, -, hepoch⟩ := authorize_ok.mp hauth
    obtain ⟨slot, hslot, hgen, hvalue⟩ := get_eq_some.mp hget
    obtain ⟨found, hfound, hspent⟩ := h
    cases hslot.symm.trans hfound
    rcases hspent with hlt | ⟨-, hr | ⟨v, hv, hlt⟩⟩
    · rw [hgen] at hlt
      exact absurd hlt (Nat.lt_irrefl _)
    · have hnone := (ht.retired _ slot hslot hr).1
      simp [hvalue] at hnone
    · cases hvalue.symm.trans hv
      rw [hepoch] at hlt
      exact absurd hlt (Nat.lt_irrefl _)

def RetiredAt (a : Arena (OwnedValue α)) (index : UInt32) : Prop :=
  ∃ slot, a.slots[index.toNat]? = some slot ∧ slot.retired = true

theorem RetiredAt.move (h : Tidy a.arena) {arena : Arena (OwnedValue α)}
    (hm : ArenaMove a.arena arena) {index : UInt32} (hr : RetiredAt a.arena index) :
    RetiredAt arena index := by
  obtain ⟨slot, hslot, hretired⟩ := hr
  have hempty := (h.retired _ slot hslot hretired).1
  have hkeep {i : UInt32} {old : Slot (OwnedValue α)} (new : Slot (OwnedValue α))
      (hi : a.arena.slots[i.toNat]? = some old) (hold : old ≠ slot) :
      ∃ s, (a.arena.slots.set i.toNat new)[index.toNat]? = some s ∧ s.retired = true := by
    have hne : i.toNat ≠ index.toNat := by
      intro heq
      rw [heq, hslot] at hi
      cases hi
      exact hold rfl
    exact ⟨slot, by rw [set_slot hi, if_neg hne, hslot], hretired⟩
  cases hm with
  | stay => exact ⟨slot, hslot, hretired⟩
  | @reuse i free old value hfree hi =>
    refine hkeep _ hi fun heq => ?_
    obtain ⟨found, hfound, -, hfresh⟩ := h.vacant i (by simp [hfree])
    cases hi.symm.trans hfound
    rw [heq, hretired] at hfresh
    cases hfresh
  | push value hfree hlen =>
    refine ⟨slot, ?_, hretired⟩
    rw [List.getElem?_append_left (List.getElem?_eq_some_iff.mp hslot).1, hslot]
  | rewrite new hi hold hepoch => exact hkeep _ hi fun heq => by simp [heq, hempty] at hold
  | release hi hold hnext => exact hkeep _ hi fun heq => by simp [heq, hempty] at hold
  | retire hi hold hnext => exact hkeep _ hi fun heq => by simp [heq, hempty] at hold

theorem RetiredAt.insert_ne (h : Tidy a.arena) {index : UInt32} (hr : RetiredAt a.arena index)
    {owner : RuntimeId} {value : α} {handle : Handle} {epoch : OwnershipEpoch}
    (hi : (a.insert owner value).1 = .ok (handle, epoch)) : handle.index ≠ index := by
  obtain ⟨slot, hslot, hretired⟩ := hr
  rw [OwnedArena.insert, Arena.insert] at hi
  cases hfree : a.arena.free with
  | nil =>
    simp only [hfree] at hi
    split at hi
    · rename_i hok
      split at hok
      · rename_i hlen
        cases hok
        cases hi
        have hlt := (List.getElem?_eq_some_iff.mp hslot).1
        intro heq
        rw [← heq, UInt32.toNat_ofNat_of_lt' hlen] at hlt
        exact Nat.lt_irrefl _ hlt
      · cases hok
    · cases hi
  | cons i free =>
    obtain ⟨found, hfound, -, hfresh⟩ := h.vacant i (by simp [hfree])
    simp only [hfree, hfound] at hi
    cases hi
    rintro rfl
    cases hslot.symm.trans hfound
    rw [hretired] at hfresh
    cases hfresh

theorem transfer_spent {newOwner : RuntimeId} {epoch : OwnershipEpoch}
    (h : (a.transfer g newOwner).1 = .ok epoch) :
    Spent (a.transfer g newOwner).2.arena g.handle.index g.handle.generation g.epoch := by
  rw [OwnedArena.transfer] at h ⊢
  cases hauth : a.authorize g with
  | error e => simp [hauth] at h
  | ok state =>
    obtain ⟨hget, -, hepoch⟩ := authorize_ok.mp hauth
    obtain ⟨slot, hslot, hgen, hvalue⟩ := get_eq_some.mp hget
    cases hnext : state.epoch.next with
    | none => simp [hauth, hnext] at h
    | some next =>
      simp only [hnext, Arena.update, slotOf_eq_some.mpr ⟨hslot, hgen⟩, Arena.setSlot]
      have hlater : g.epoch.toNat < next.toNat := by
        rw [OwnershipEpoch.next_toNat hnext, hepoch]
        exact Nat.lt_succ_self _
      refine ⟨{ slot with value := some { state with owner := newOwner, epoch := next } }, ?_,
        .inr ⟨hgen.symm, .inr ⟨_, rfl, hlater⟩⟩⟩
      rw [set_slot hslot, if_pos rfl]

theorem remove_spent {value : α} (h : (a.remove g).1 = .ok value) :
    Spent (a.remove g).2.arena g.handle.index g.handle.generation g.epoch ∧
      (checkedSucc32 g.handle.generation = none → RetiredAt (a.remove g).2.arena g.handle.index) := by
  rw [OwnedArena.remove] at h ⊢
  cases hauth : a.authorize g with
  | error e => simp [hauth] at h
  | ok state =>
    obtain ⟨hget, -, hepoch⟩ := authorize_ok.mp hauth
    obtain ⟨slot, hslot, hgen, hvalue⟩ := get_eq_some.mp hget
    simp only [Arena.remove, slotOf_eq_some.mpr ⟨hslot, hgen⟩, hvalue]
    cases hnext : checkedSucc32 slot.generation with
    | some next =>
      refine ⟨⟨_, by rw [set_slot hslot, if_pos rfl], .inl ?_⟩, fun hmax => ?_⟩
      · have hsucc := checkedSucc32_toNat hnext
        rw [← hgen]
        dsimp only
        omega
      · rw [← hgen, hnext] at hmax
        cases hmax
    | none =>
      have hset : (a.arena.slots.set g.handle.index.toNat
          { slot with value := none, retired := true })[g.handle.index.toNat]? =
            some { slot with value := none, retired := true } := by
        rw [set_slot hslot, if_pos rfl]
      exact ⟨⟨_, hset, .inr ⟨hgen.symm, .inl rfl⟩⟩, fun _ => ⟨_, hset, rfl⟩⟩

structure OwnershipSound (a : OwnedArena α) : Prop where
  transferred : ∀ g newOwner epoch, (a.transfer g newOwner).1 = .ok epoch →
    ∀ b, OwnedRun (a.transfer g newOwner).2 b → Revoked b g
  removed : ∀ g value, (a.remove g).1 = .ok value → ∀ b, OwnedRun (a.remove g).2 b → Revoked b g
  len : a.len = a.arena.slots.countP Slot.isLive
  freeDistinct : a.arena.free.Nodup
  freeVacant : ∀ i ∈ a.arena.free, ∃ slot, a.arena.slots[i.toNat]? = some slot ∧ slot.value = none
  exhausted : ∀ g value, (a.remove g).1 = .ok value → checkedSucc32 g.handle.generation = none →
    ∀ b, OwnedRun (a.remove g).2 b → ∀ owner v handle epoch,
      (b.insert owner v).1 = .ok (handle, epoch) → handle.index ≠ g.handle.index

theorem grants_revoked (h : OwnedReachable a) : OwnershipSound a := by
  have htidy := h.tidy
  have htransfer (g : Grant) (newOwner : RuntimeId) : Tidy (a.transfer g newOwner).2.arena :=
    htidy.move (OwnedStep.transfer g newOwner).move
  have hremove (g : Grant) : Tidy (a.remove g).2.arena := htidy.move (OwnedStep.remove g).move
  refine ⟨fun g newOwner epoch hok b hrun => ?_, fun g value hok b hrun => ?_, htidy.live,
    htidy.nodup, fun i hi => ?_, fun g value hok hmax b hrun owner v handle epoch hins => ?_⟩
  · exact (hrun.spent (htransfer g newOwner) (transfer_spent hok)).revoked
      (hrun.tidy (htransfer g newOwner))
  · exact (hrun.spent (hremove g) (remove_spent hok).1).revoked (hrun.tidy (hremove g))
  · obtain ⟨slot, hslot, hnone, -⟩ := htidy.vacant i hi
    exact ⟨slot, hslot, hnone⟩
  · have hretired := (invariant_of_run (fun s => Tidy s.arena ∧ RetiredAt s.arena g.handle.index)
      hrun ⟨hremove g, (remove_spent hok).2 hmax⟩
      fun _ _ hinv hstep => ⟨hinv.1.move hstep.move, hinv.2.move hinv.1 hstep.move⟩)
    exact hretired.2.insert_ne hretired.1 hins

-- A value that one owner hands to another and that the second one removes.
def handedOver : OwnedArena Nat :=
  ((OwnedArena.new.insert 1 7).2.transfer ⟨⟨0, 1⟩, 1, 0⟩ 2).2

theorem grants_revoked_handedOver :
    (handedOver.remove ⟨⟨0, 1⟩, 2, 1⟩).1 = .ok 7 ∧
      Revoked ((handedOver.remove ⟨⟨0, 1⟩, 2, 1⟩).2.insert 2 8).2 ⟨⟨0, 1⟩, 2, 1⟩ := by
  have hrun : OwnedReachable handedOver :=
    (Relation.ReflTransGen.single (.insert 1 7)).tail (.transfer ⟨⟨0, 1⟩, 1, 0⟩ 2)
  have hok : (handedOver.remove ⟨⟨0, 1⟩, 2, 1⟩).1 = .ok 7 := by rfl
  exact ⟨hok, (grants_revoked hrun).removed _ _ hok _ (.single (.insert 2 8))⟩

end Cobblestone.Runtime
