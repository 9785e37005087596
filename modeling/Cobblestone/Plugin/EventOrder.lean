import Cobblestone.Plugin.Registries

namespace Cobblestone.Plugin

open Lib

abbrev Hierarchy := String → String → Bool

structure Subscription where
  event : String
  id : Nat
  active : Bool
deriving DecidableEq, Repr

-- The dispatcher, and every handle it has given out, oldest first.
structure EventBus where
  dispatcher : Dispatcher
  subscriptions : List Subscription

inductive BusCall where
  | listen (event : String)
  | cancel (index : Nat)
  | dispatch (event : String)
deriving DecidableEq, Repr

-- The listeners that are called: what the first of them to throw lets out ends the loop.
def calledUntil {α : Type*} (throws : α → Bool) : List α → List α
  | [] => []
  | listener :: rest => listener :: if throws listener then [] else calledUntil throws rest

namespace EventBus

def new : EventBus := ⟨.new, []⟩

def listen (bus : EventBus) (event : String) : EventBus :=
  match bus.dispatcher.listen event with
  | .error _ => bus
  | .ok (id, dispatcher) => ⟨dispatcher, bus.subscriptions ++ [⟨event, id, true⟩]⟩

def cancel (bus : EventBus) (index : Nat) : EventBus :=
  match bus.subscriptions[index]? with
  | none => bus
  | some s =>
    if s.active = false then bus
    else ⟨(bus.dispatcher.remove s.event s.id).2, bus.subscriptions.set index { s with active := false }⟩

variable (isA : Hierarchy)

def dispatch (bus : EventBus) (event : String) : EventBus :=
  { bus with dispatcher := (bus.dispatcher.resolvedListeners isA event).2 }

-- Listeners that throw do so when they are called; no listener changes the registrations.
def invoked (bus : EventBus) (event : String) (throws : String × Nat → Bool) : List (String × Nat) :=
  calledUntil throws (bus.dispatcher.resolvedListeners isA event).1

def step (bus : EventBus) : BusCall → EventBus
  | .listen event => bus.listen event
  | .cancel index => bus.cancel index
  | .dispatch event => bus.dispatch isA event

def run (calls : List BusCall) : EventBus := calls.foldl (step isA) new

end EventBus

def Heard (isA : Hierarchy) (event listened : String) : Prop :=
  event = listened ∨ isA event listened = true

instance (isA : Hierarchy) (event listened : String) : Decidable (Heard isA event listened) :=
  inferInstanceAs (Decidable (_ ∨ _))

-- The live listeners for the event's class and its supertypes, in the order of registration.
def EventBus.registered (isA : Hierarchy) (bus : EventBus) (event : String) : List (String × Nat) :=
  (bus.subscriptions.filter fun s => decide (s.active = true ∧ Heard isA event s.event)).map fun s =>
    (s.event, s.id)

-- No listener of a class comes after one of a class whose group stands further down the table.
def InOrder (isA : Hierarchy) (listeners : Listeners) (event : String) : Prop :=
  listeners.entries.Pairwise fun e f =>
    Heard isA event e.1 → Heard isA event f.1 → ∀ i ∈ e.2.keys, ∀ j ∈ f.2.keys, i < j

section Called

variable {α : Type*} {throws : α → Bool} {l : List α}

theorem length_calledUntil_le : (calledUntil throws l).length ≤ l.length := by
  induction l with
  | nil => exact le_rfl
  | cons x l ih =>
    rw [calledUntil]
    split_ifs
    · exact Nat.succ_le_succ (Nat.zero_le _)
    · exact Nat.succ_le_succ ih

theorem calledUntil_isPrefix : calledUntil throws l <+: l := by
  induction l with
  | nil => exact List.prefix_rfl
  | cons x l ih =>
    rw [calledUntil]
    split_ifs
    · exact List.prefix_cons_inj x |>.mpr (List.nil_prefix)
    · exact List.prefix_cons_inj x |>.mpr ih

theorem calledUntil_eq_self :
    calledUntil throws l = l ↔ ∀ x ∈ l.dropLast, throws x = false := by
  induction l with
  | nil => simp [calledUntil]
  | cons x l ih =>
    cases l with
    | nil => simp [calledUntil]
    | cons y l =>
      rw [calledUntil, List.dropLast_cons_cons, List.forall_mem_cons, ← ih, List.cons_inj_right]
      cases throws x with
      | false => simp
      | true => simp

end Called

theorem keys_set_of_notMem {κ β : Type*} [DecidableEq κ] {m : OrderedMap κ β} {k : κ} {v : β}
    (h : k ∉ m.keys) : (m.set k v).keys = m.keys ++ [k] := by
  rw [OrderedMap.set, dif_neg h, OrderedMap.keys, OrderedMap.keys, List.map_append]
  rfl

theorem mem_entries_set {κ β : Type*} [DecidableEq κ] {m : OrderedMap κ β} {k : κ} {v : β}
    {e : κ × β} (h : e ∈ (m.set k v).entries) : e = (k, v) ∨ e ∈ m.entries := by
  obtain ⟨k', v'⟩ := e
  have hget := OrderedMap.get?_eq_some.mpr h
  rw [OrderedMap.get?_set] at hget
  split_ifs at hget with hk
  · cases hget
    exact .inl (by rw [hk])
  · exact .inr (OrderedMap.get?_eq_some.mp hget)

-- Within a class the listeners stand in the order of their ids.
def Grouped (listeners : Listeners) : Prop :=
  ∀ e ∈ listeners.entries, e.2.keys.Pairwise (· < ·)

theorem Grouped.group {listeners : Listeners} (h : Grouped listeners) (event : String) :
    ((listeners.get? event).getD .empty).keys.Pairwise (· < ·) := by
  cases hg : listeners.get? event with
  | none => exact List.Pairwise.nil
  | some ids => exact h _ (OrderedMap.get?_eq_some.mp hg)

theorem mem_group {listeners : Listeners} {event : String} {id : Nat} :
    id ∈ ((listeners.get? event).getD .empty).keys ↔ listeners.has event id = true := by
  rw [OrderedMap.mem_keys, Listeners.has]
  cases listeners.get? event with
  | none => exact Iff.rfl
  | some ids => exact Iff.rfl

theorem Grouped.add {listeners : Listeners} (h : Grouped listeners) {event : String} {id : Nat}
    (hnew : ∀ j, listeners.has event j = true → j < id) : Grouped (listeners.add event id) := by
  intro e he
  rcases mem_entries_set he with rfl | hold
  · have hlt : ∀ j ∈ ((listeners.get? event).getD .empty).keys, j < id := fun j hj =>
      hnew j (mem_group.mp hj)
    have hfresh : id ∉ ((listeners.get? event).getD .empty).keys := fun hid =>
      Nat.lt_irrefl id (hlt id hid)
    rw [keys_set_of_notMem hfresh, List.pairwise_append]
    refine ⟨h.group event, List.pairwise_singleton _ _, fun j hj k hk => ?_⟩
    rw [List.mem_singleton.mp hk]
    exact hlt j hj
  · exact h e hold

theorem Grouped.drop {listeners : Listeners} (h : Grouped listeners) (event : String) (id : Nat) :
    Grouped (listeners.drop event id) := by
  have hrest : (((listeners.get? event).getD .empty).unset id).keys.Pairwise (· < ·) :=
    (h.group event).sublist (List.filter_sublist.map Prod.fst)
  intro e he
  rw [Listeners.drop] at he
  split_ifs at he with hempty
  · exact h e (List.mem_of_mem_filter he)
  · rcases mem_entries_set he with rfl | hold
    · exact hrest
    · exact h e hold

theorem mem_set_iff {α : Type*} {l : List α} {index : Nat} {a old x : α} (hl : l.Nodup)
    (hold : l[index]? = some old) : x ∈ l.set index a ↔ x = a ∨ x ∈ l ∧ x ≠ old := by
  have hindex : index < l.length := (List.getElem?_eq_some_iff.mp hold).1
  have hinj {i j : Nat} (hi : l[i]? = some x) (hj : l[j]? = some x) : i = j :=
    (List.getElem?_inj (List.getElem?_eq_some_iff.mp hi).1 hl).mp (hi.trans hj.symm)
  simp only [List.mem_iff_getElem?, List.getElem?_set]
  constructor
  · rintro ⟨j, hj⟩
    by_cases hij : index = j
    · rw [if_pos hij, if_pos hindex] at hj
      cases hj
      exact .inl rfl
    · rw [if_neg hij] at hj
      refine .inr ⟨⟨j, hj⟩, fun hx => hij (hinj (hx ▸ hold) hj)⟩
  · rintro (rfl | ⟨⟨j, hj⟩, hne⟩)
    · exact ⟨index, by rw [if_pos rfl, if_pos hindex]⟩
    · refine ⟨j, ?_⟩
      rw [if_neg ?_, hj]
      rintro rfl
      rw [hold] at hj
      cases hj
      exact hne rfl

theorem map_set_of_eq {α β : Type*} {l : List α} {index : Nat} {a old : α} {f : α → β}
    (hold : l[index]? = some old) (h : f a = f old) : (l.set index a).map f = l.map f := by
  refine List.ext_getElem? fun i => ?_
  rw [List.getElem?_map, List.getElem?_map, List.getElem?_set]
  split_ifs with hi hlt
  · subst hi
    rw [hold, Option.map_some, Option.map_some, h]
  · subst hi
    rw [List.getElem?_eq_none (by omega)]
  · rfl

-- What a run keeps between the dispatcher and the handles it gave out.
structure EventBus.Sound (isA : Hierarchy) (bus : EventBus) : Prop where
  live : ∀ event id, bus.dispatcher.listeners.has event id = true ↔
    ⟨event, id, true⟩ ∈ bus.subscriptions
  issued : ∀ s ∈ bus.subscriptions, s.id < bus.dispatcher.nextListenerId
  ordered : bus.subscriptions.Pairwise fun s t => s.id < t.id
  grouped : Grouped bus.dispatcher.listeners
  cached : ∀ event found, bus.dispatcher.resolved.get? event = some found →
    found = Dispatcher.resolvedFor isA bus.dispatcher.listeners event

namespace EventBus.Sound

variable {isA : Hierarchy} {bus : EventBus} {event : String}

theorem new : EventBus.new.Sound isA where
  live _ _ := by simp [EventBus.new, Dispatcher.new, Listeners.has]
  issued _ h := by cases h
  ordered := .nil
  grouped _ h := by cases h
  cached _ _ h := by cases h

theorem listen (h : bus.Sound isA) (event : String) : (bus.listen event).Sound isA := by
  rw [EventBus.listen, Dispatcher.listen]
  split_ifs with hempty
  · exact h
  · refine ⟨fun event' id => ?_, fun s hs => ?_, ?_, ?_, fun _ _ hg => ?_⟩
    · rw [Listeners.has_add, h.live, List.mem_append, List.mem_singleton, Subscription.mk.injEq]
      tauto
    · rcases List.mem_append.mp hs with hold | hnew
      · exact (h.issued s hold).trans (Nat.lt_succ_self _)
      · rw [List.mem_singleton.mp hnew]
        exact Nat.lt_succ_self _
    · rw [List.pairwise_append]
      refine ⟨h.ordered, List.pairwise_singleton _ _, fun s hs t ht => ?_⟩
      rw [List.mem_singleton.mp ht]
      exact h.issued s hs
    · exact h.grouped.add fun j hj => bus.dispatcher.issued event j hj
    · cases hg

theorem cancel (h : bus.Sound isA) (index : Nat) : (bus.cancel index).Sound isA := by
  rw [EventBus.cancel]
  cases hs : bus.subscriptions[index]? with
  | none => exact h
  | some s =>
    dsimp only
    split_ifs with hactive
    · exact h
    · rw [Bool.not_eq_false] at hactive
      obtain ⟨event, id, active⟩ := s
      subst hactive
      have hheld := (h.live event id).mpr (List.mem_of_getElem? hs)
      have hnodup := h.ordered.imp fun {s t} hlt (heq : s = t) => by
        rw [heq] at hlt
        exact Nat.lt_irrefl _ hlt
      rw [Dispatcher.remove, if_neg (by rw [hheld]; exact Bool.noConfusion)]
      refine ⟨fun event' id' => ?_, fun t ht => ?_, ?_, h.grouped.drop _ _, fun _ _ hg => by cases hg⟩
      · rw [Listeners.has_drop, h.live, mem_set_iff hnodup hs, ne_eq, Subscription.mk.injEq,
          Subscription.mk.injEq]
        tauto
      · rcases (mem_set_iff hnodup hs).mp ht with rfl | ⟨hold, _⟩
        · exact h.issued ⟨event, id, true⟩ (List.mem_of_getElem? hs)
        · exact h.issued t hold
      · have hids := map_set_of_eq (f := Subscription.id) (a := ⟨event, id, false⟩) hs rfl
        rw [← List.pairwise_map (f := Subscription.id) (R := (· < ·)), hids, List.pairwise_map]
        exact h.ordered

theorem dispatch (h : bus.Sound isA) (event : String) : (bus.dispatch isA event).Sound isA := by
  rw [EventBus.dispatch, Dispatcher.resolvedListeners]
  split
  · exact h
  · refine ⟨h.live, h.issued, h.ordered, h.grouped, fun event' found hg => ?_⟩
    rw [OrderedMap.get?_set] at hg
    split_ifs at hg with he
    · cases hg
      rw [he]
    · exact h.cached event' found hg

theorem step (h : bus.Sound isA) (call : BusCall) : (bus.step isA call).Sound isA := by
  cases call with
  | listen event => exact h.listen event
  | cancel index => exact h.cancel index
  | dispatch event => exact h.dispatch event

theorem run (isA : Hierarchy) (calls : List BusCall) : (EventBus.run isA calls).Sound isA := by
  induction calls using List.reverseRecOn with
  | nil => exact new
  | append_singleton calls call ih =>
    rw [EventBus.run, List.foldl_append]
    exact ih.step call

-- A cached resolution is the one that would be made now.
theorem resolved (h : bus.Sound isA) (event : String) :
    (bus.dispatcher.resolvedListeners isA event).1 =
      Dispatcher.resolvedFor isA bus.dispatcher.listeners event := by
  rw [Dispatcher.resolvedListeners]
  split
  · rename_i found hfound
    exact h.cached event found hfound
  · rfl

end EventBus.Sound

section Order

variable {isA : Hierarchy} {bus : EventBus} {event : String} {listeners : Listeners}

def Before (l m : String × Nat) : Prop := l.2 < m.2

theorem mem_resolvedFor {l : String × Nat} :
    l ∈ Dispatcher.resolvedFor isA listeners event ↔
      Heard isA event l.1 ∧ listeners.has l.1 l.2 = true := by
  constructor
  · intro h
    refine ⟨?_, Dispatcher.has_resolvedFor h⟩
    obtain ⟨e, he, hl⟩ := List.mem_flatMap.mp h
    split_ifs at hl with hheard
    · obtain ⟨id, _, rfl⟩ := List.mem_map.mp hl
      exact hheard
    · cases hl
  · rintro ⟨hheard, hhas⟩
    rw [← mem_group] at hhas
    cases hg : listeners.get? l.1 with
    | none =>
      rw [hg] at hhas
      cases hhas
    | some ids =>
      rw [hg, Option.getD_some] at hhas
      refine List.mem_flatMap.mpr ⟨(l.1, ids), OrderedMap.get?_eq_some.mp hg, ?_⟩
      rw [if_pos (show event = l.1 ∨ isA event l.1 = true from hheard)]
      exact List.mem_map.mpr ⟨l.2, hhas, rfl⟩

theorem resolvedFor_pairwise (h : Grouped listeners) :
    (Dispatcher.resolvedFor isA listeners event).Pairwise Before ↔ InOrder isA listeners event := by
  rw [Dispatcher.resolvedFor, List.pairwise_flatMap]
  have hgroups : ∀ e ∈ listeners.entries, (if event = e.1 ∨ isA event e.1 = true then
      e.2.keys.map fun id => (e.1, id) else []).Pairwise Before := fun e he => by
    split_ifs
    · exact List.pairwise_map.mpr (h e he)
    · exact .nil
  rw [and_iff_right hgroups, InOrder]
  refine List.Pairwise.iff fun e f => ?_
  constructor
  · intro h he hf i hi j hj
    rw [if_pos (show event = e.1 ∨ isA event e.1 = true from he),
      if_pos (show event = f.1 ∨ isA event f.1 = true from hf)] at h
    exact h (e.1, i) (List.mem_map.mpr ⟨i, hi, rfl⟩) (f.1, j) (List.mem_map.mpr ⟨j, hj, rfl⟩)
  · intro h x hx y hy
    split_ifs at hx hy with he hf
    · obtain ⟨i, hi, rfl⟩ := List.mem_map.mp hx
      obtain ⟨j, hj, rfl⟩ := List.mem_map.mp hy
      exact h he hf i hi j hj
    · cases hy
    · cases hx
    · cases hx

theorem mem_registered {l : String × Nat} : l ∈ bus.registered isA event ↔
    Heard isA event l.1 ∧ ⟨l.1, l.2, true⟩ ∈ bus.subscriptions := by
  rw [EventBus.registered, List.mem_map]
  constructor
  · rintro ⟨⟨event', id, active⟩, hs, rfl⟩
    obtain ⟨hmem, hlive⟩ := List.mem_filter.mp hs
    obtain ⟨rfl, hheard⟩ := of_decide_eq_true hlive
    exact ⟨hheard, hmem⟩
  · rintro ⟨hheard, hmem⟩
    exact ⟨_, List.mem_filter.mpr ⟨hmem, decide_eq_true ⟨rfl, hheard⟩⟩, rfl⟩

theorem registered_pairwise (h : bus.Sound isA) : (bus.registered isA event).Pairwise Before :=
  List.pairwise_map.mpr (h.ordered.sublist List.filter_sublist)

theorem nodup_of_before {l : List (String × Nat)} (h : l.Pairwise Before) : l.Nodup := by
  refine List.Pairwise.imp (fun {x y} (hlt : x.2 < y.2) heq => ?_) h
  rw [heq] at hlt
  exact Nat.lt_irrefl _ hlt

theorem resolvedFor_nodup (h : Grouped listeners) :
    (Dispatcher.resolvedFor isA listeners event).Nodup := by
  refine List.nodup_flatMap.mpr ⟨fun e he => ?_, ?_⟩
  · split_ifs
    · exact nodup_of_before (List.pairwise_map.mpr (h e he))
    · exact List.nodup_nil
  · refine (List.pairwise_map.mp listeners.nodup).imp fun {e f} hne l hl hl' => ?_
    dsimp only at hl hl'
    split_ifs at hl hl' with he hf
    · obtain ⟨i, _, rfl⟩ := List.mem_map.mp hl
      obtain ⟨j, _, hj⟩ := List.mem_map.mp hl'
      exact hne (congrArg Prod.fst hj).symm
    · cases hl'
    · cases hl
    · cases hl

-- Whatever the order, every live listener is called exactly once.
theorem resolved_perm (h : bus.Sound isA) (event : String) :
    (Dispatcher.resolvedFor isA bus.dispatcher.listeners event).Perm (bus.registered isA event) := by
  refine (List.perm_ext_iff_of_nodup (resolvedFor_nodup h.grouped)
    (nodup_of_before (registered_pairwise h))).mpr fun l => ?_
  rw [mem_resolvedFor, mem_registered, h.live]

theorem resolved_eq_registered_iff (h : bus.Sound isA) (event : String) :
    Dispatcher.resolvedFor isA bus.dispatcher.listeners event = bus.registered isA event ↔
      InOrder isA bus.dispatcher.listeners event := by
  rw [← resolvedFor_pairwise h.grouped]
  constructor
  · intro heq
    rw [heq]
    exact registered_pairwise h
  · intro hsorted
    refine List.Perm.eq_of_pairwise (fun l m _ _ hlm hml => ?_) hsorted (registered_pairwise h)
      (resolved_perm h event)
    exact absurd hlm (Nat.lt_asymm hml)

end Order

theorem dispatch_order_exact (isA : Hierarchy) (calls : List BusCall) (event : String)
    (throws : String × Nat → Bool) :
    let bus := EventBus.run isA calls
    (bus.dispatcher.resolvedListeners isA event).1.Perm (bus.registered isA event) ∧
    (bus.invoked isA event throws = bus.registered isA event ↔
      InOrder isA bus.dispatcher.listeners event ∧
        ∀ l ∈ (bus.registered isA event).dropLast, throws l = false) := by
  intro bus
  have h : bus.Sound isA := .run isA calls
  have hperm := resolved_perm h event
  rw [EventBus.invoked, h.resolved, ← resolved_eq_registered_iff h]
  refine ⟨hperm, ?_⟩
  constructor
  · intro hcalled
    have hall : calledUntil throws (Dispatcher.resolvedFor isA bus.dispatcher.listeners event) =
        Dispatcher.resolvedFor isA bus.dispatcher.listeners event :=
      calledUntil_isPrefix.eq_of_length (by rw [hcalled, hperm.length_eq])
    have heq := hall.symm.trans hcalled
    exact ⟨heq, heq ▸ calledUntil_eq_self.mp hall⟩
  · rintro ⟨heq, hquiet⟩
    rw [heq]
    exact calledUntil_eq_self.mpr hquiet

-- A player joins: its class is listened to, then its supertype, then its class once more.
theorem dispatch_order_joined :
    let isA : Hierarchy := fun event listened => event == "PlayerJoin" && listened == "PlayerEvent"
    let bus := EventBus.run isA [.listen "PlayerJoin", .listen "PlayerEvent", .listen "PlayerJoin"]
    bus.registered isA "PlayerJoin" = [("PlayerJoin", 1), ("PlayerEvent", 2), ("PlayerJoin", 3)] ∧
    bus.invoked isA "PlayerJoin" (fun _ => false) =
      [("PlayerJoin", 1), ("PlayerJoin", 3), ("PlayerEvent", 2)] := by
  decide

end Cobblestone.Plugin
