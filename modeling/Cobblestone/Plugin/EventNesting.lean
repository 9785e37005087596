import Cobblestone.Plugin.EventOrder
import Mathlib.Logic.Relation

namespace Cobblestone.Plugin

open Lib

-- What a scope has to undo: a subscription, or anything else, which counts as code that it calls.
inductive CleanupItem where
  | subscription (index : Nat)
  | callback
deriving DecidableEq, Repr

structure SceneScope where
  cleanup : List CleanupItem
  closed : Bool
  loaded : Bool
deriving DecidableEq, Repr

-- One call under way: code of the server or a plugin, a dispatch with the listeners it has still to
-- call, enable() or disable() of a plugin, or the closing of its scope with what is left to undo.
inductive Frame where
  | code
  | dispatching (rest : List (String × Nat))
  | enabling (scope : Nat)
  | disabling (scope : Nat)
  | closing (scope : Nat) (rest : List CleanupItem)
deriving DecidableEq, Repr

-- `owners` names the scope that made each subscription, `released` the scopes that are closed for good.
structure Scene where
  bus : EventBus
  owners : List (Option Nat)
  scopes : List SceneScope
  released : List Nat
  stack : List Frame

namespace Scene

def start : Scene := ⟨.new, [], [], [], [.code]⟩

def listen (s : Scene) (event : String) (owner : Option Nat) : Scene :=
  { s with bus := s.bus.listen event, owners := s.owners ++ [owner] }

def own (s : Scene) (scope : Nat) (item : CleanupItem) : Scene :=
  { s with scopes := s.scopes.modify scope fun state => { state with cleanup := state.cleanup ++ [item] } }

def cancel (s : Scene) (index : Nat) : Scene := { s with bus := s.bus.cancel index }

def isOpen (s : Scene) (scope : Nat) : Bool := (s.scopes[scope]?).any fun state => !state.closed

def isClosed (s : Scene) (scope : Nat) : Bool := (s.scopes[scope]?).any SceneScope.closed

def isLoaded (s : Scene) (scope : Nat) : Bool := (s.scopes[scope]?).any SceneScope.loaded

def cleanupOf (s : Scene) (scope : Nat) : List CleanupItem :=
  ((s.scopes[scope]?).map SceneScope.cleanup).getD []

def setLoaded (s : Scene) (scope : Nat) (loaded : Bool) : Scene :=
  { s with scopes := s.scopes.modify scope fun state => { state with loaded := loaded } }

def withStack (s : Scene) (stack : List Frame) : Scene := { s with stack := stack }

-- close() sets the flag first and then undoes the newest registration first.
def close (s : Scene) (scope : Nat) (rest : List Frame) : Scene :=
  if s.isOpen scope then
    { s with
      scopes := s.scopes.modify scope fun state => { state with closed := true }
      stack := .closing scope (s.cleanupOf scope).reverse :: rest }
  else s.withStack rest

end Scene

inductive Act where
  | invoke (listener : String × Nat)
  | cancel (index : Nat)
  | other
deriving DecidableEq, Repr

-- Code on top of the stack may do anything that the API lets it do, return or throw.
inductive SceneStep (isA : Hierarchy) : Scene → Act → Scene → Prop where
  | listen {s : Scene} {rest : List Frame} (event : String) (h : s.stack = .code :: rest)
      (hevent : event ≠ "") : SceneStep isA s .other (s.listen event none)
  | on {s : Scene} {rest : List Frame} {scope : Nat} (event : String) (h : s.stack = .code :: rest)
      (hevent : event ≠ "") (hopen : s.isOpen scope = true) :
      SceneStep isA s .other
        ((s.listen event (some scope)).own scope (.subscription s.bus.subscriptions.length))
  | own {s : Scene} {rest : List Frame} {scope : Nat} (h : s.stack = .code :: rest)
      (hopen : s.isOpen scope = true) : SceneStep isA s .other (s.own scope .callback)
  | cancel {s : Scene} {rest : List Frame} (index : Nat) (h : s.stack = .code :: rest) :
      SceneStep isA s (.cancel index) (s.cancel index)
  | dispatch {s : Scene} {rest : List Frame} (event : String) (h : s.stack = .code :: rest) :
      SceneStep isA s .other
        { s with
          bus := s.bus.dispatch isA event
          stack := .dispatching (s.bus.dispatcher.resolvedListeners isA event).1 :: s.stack }
  | call {s : Scene} {rest : List Frame} {listener : String × Nat} {others : List (String × Nat)}
      (h : s.stack = .dispatching (listener :: others) :: rest) :
      SceneStep isA s (.invoke listener) (s.withStack (.code :: .dispatching others :: rest))
  | called {s : Scene} {rest : List Frame} {others : List (String × Nat)}
      (h : s.stack = .code :: .dispatching others :: rest) :
      SceneStep isA s .other (s.withStack (.dispatching others :: rest))
  | dispatched {s : Scene} {rest : List Frame} (h : s.stack = .dispatching [] :: rest) :
      SceneStep isA s .other (s.withStack rest)
  | threw {s : Scene} {rest : List Frame} {others : List (String × Nat)}
      (h : s.stack = .code :: .dispatching others :: rest) :
      SceneStep isA s .other (s.withStack rest)
  | load {s : Scene} {rest : List Frame} (h : s.stack = .code :: rest) :
      SceneStep isA s .other
        { s with
          scopes := s.scopes ++ [⟨[], false, false⟩]
          stack := .code :: .enabling s.scopes.length :: s.stack }
  | enabled {s : Scene} {rest : List Frame} {scope : Nat}
      (h : s.stack = .code :: .enabling scope :: rest) :
      SceneStep isA s .other ((s.setLoaded scope true).withStack rest)
  | rollBack {s : Scene} {rest : List Frame} {scope : Nat}
      (h : s.stack = .code :: .enabling scope :: rest) : SceneStep isA s .other (s.close scope rest)
  | unload {s : Scene} {rest : List Frame} {scope : Nat} (h : s.stack = .code :: rest)
      (hloaded : s.isLoaded scope = true) :
      SceneStep isA s .other
        ((s.setLoaded scope false).withStack (.code :: .disabling scope :: s.stack))
  | disabled {s : Scene} {rest : List Frame} {scope : Nat}
      (h : s.stack = .code :: .disabling scope :: rest) : SceneStep isA s .other (s.close scope rest)
  | logFailed {s : Scene} {rest : List Frame} {scope : Nat}
      (h : s.stack = .code :: .disabling scope :: rest) : SceneStep isA s .other (s.withStack rest)
  | undo {s : Scene} {rest : List Frame} {scope index : Nat} {items : List CleanupItem}
      (h : s.stack = .closing scope (.subscription index :: items) :: rest) :
      SceneStep isA s (.cancel index) ((s.cancel index).withStack (.closing scope items :: rest))
  | undoOther {s : Scene} {rest : List Frame} {scope : Nat} {items : List CleanupItem}
      (h : s.stack = .closing scope (.callback :: items) :: rest) :
      SceneStep isA s .other (s.withStack (.code :: .closing scope items :: rest))
  | undone {s : Scene} {rest : List Frame} {scope : Nat} {items : List CleanupItem}
      (h : s.stack = .code :: .closing scope items :: rest) :
      SceneStep isA s .other (s.withStack (.closing scope items :: rest))
  | closed {s : Scene} {rest : List Frame} {scope : Nat} (h : s.stack = .closing scope [] :: rest) :
      SceneStep isA s .other
        { s with
          scopes := s.scopes.modify scope fun state => { state with cleanup := [] }
          released := scope :: s.released
          stack := rest }

def Frame.pending : Frame → List (String × Nat)
  | .dispatching rest => rest
  | _ => []

def Scene.pending (s : Scene) : List (String × Nat) := s.stack.flatMap Frame.pending

-- The subscription is cancelled, or the plugin that made it is gone.
def Silenced (s : Scene) (listener : String × Nat) : Prop :=
  ∃ (index : Nat) (active : Bool), s.bus.subscriptions[index]? = some ⟨listener.1, listener.2, active⟩ ∧
    (active = false ∨ ∃ scope ∈ s.released, s.owners[index]? = some (some scope))

-- The step cancels no listener that a dispatch under way has still to call.
def Timely (s : Scene) : Act → Prop
  | .cancel index => ∀ event id, s.bus.subscriptions[index]? = some ⟨event, id, true⟩ →
      (event, id) ∉ s.pending
  | _ => True

def TimelyRun (isA : Hierarchy) : Scene → Scene → Prop :=
  Relation.ReflTransGen fun s t => ∃ act, SceneStep isA s act t ∧ Timely s act

def SceneRun (isA : Hierarchy) : Scene → Scene → Prop :=
  Relation.ReflTransGen fun s t => ∃ act, SceneStep isA s act t

def Frame.closing? : Frame → Option (Nat × List CleanupItem)
  | .closing scope rest => some (scope, rest)
  | _ => none

def Scene.closings (s : Scene) : List (Nat × List CleanupItem) := s.stack.filterMap Frame.closing?

-- A live subscription of a scope is still on the scope's list, or on what is left of its closing.
def Scene.Holds (s : Scene) (scope index : Nat) : Prop :=
  (s.isOpen scope = true ∧ .subscription index ∈ s.cleanupOf scope) ∨
    ∃ items, (scope, items) ∈ s.closings ∧ .subscription index ∈ items

structure Scene.Sound (isA : Hierarchy) (s : Scene) : Prop where
  bus : s.bus.Sound isA
  owners : s.owners.length = s.bus.subscriptions.length
  pending : ∀ l ∈ s.pending, ⟨l.1, l.2, true⟩ ∈ s.bus.subscriptions
  held : ∀ (index scope : Nat) (event : String) (id : Nat),
    s.bus.subscriptions[index]? = some ⟨event, id, true⟩ → s.owners[index]? = some (some scope) →
      s.Holds scope index
  once : (s.closings.map Prod.fst).Nodup
  closing : ∀ scope ∈ s.closings.map Prod.fst, s.isClosed scope = true
  released : ∀ scope ∈ s.released, s.isClosed scope = true ∧ scope ∉ s.closings.map Prod.fst

section Bus

variable {bus : EventBus} {event : String} {index i : Nat}

theorem listen_subscriptions (h : event ≠ "") : (bus.listen event).subscriptions =
    bus.subscriptions ++ [⟨event, bus.dispatcher.nextListenerId, true⟩] := by
  rw [EventBus.listen, Dispatcher.listen, if_neg h]

theorem cancel_subscriptions : (bus.cancel index).subscriptions[i]? =
    (bus.subscriptions[i]?).map fun s => if i = index then { s with active := false } else s := by
  rw [EventBus.cancel]
  cases hs : bus.subscriptions[index]? with
  | none =>
    by_cases hi : i = index
    · rw [hi, hs]
      rfl
    · simp only [hi, if_false, Option.map_id']
  | some s =>
    obtain ⟨event, id, active⟩ := s
    by_cases hi : i = index
    · subst hi
      have hlt : i < bus.subscriptions.length := (List.getElem?_eq_some_iff.mp hs).1
      cases active with
      | false => simp [hs]
      | true =>
        dsimp only
        rw [if_neg Bool.noConfusion, List.getElem?_set_self hlt, hs, Option.map_some, if_pos rfl]
    · simp only [hi, if_false, Option.map_id']
      split_ifs
      · rfl
      · exact List.getElem?_set_ne (Ne.symm hi)

theorem cancel_length : (bus.cancel index).subscriptions.length = bus.subscriptions.length := by
  rw [EventBus.cancel]
  split
  · rfl
  · split_ifs
    · rfl
    · exact List.length_set

theorem active_of_cancel {id : Nat}
    (h : (bus.cancel index).subscriptions[i]? = some ⟨event, id, true⟩) :
    i ≠ index ∧ bus.subscriptions[i]? = some ⟨event, id, true⟩ := by
  rw [cancel_subscriptions] at h
  obtain ⟨s, hs, heq⟩ := Option.map_eq_some_iff.mp h
  split_ifs at heq with hi
  · cases heq
  · exact ⟨hi, heq ▸ hs⟩

end Bus

section Scopes

variable {s : Scene} {scope p : Nat} {item : CleanupItem} {loaded : Bool}

theorem any_modify {α : Type*} {l : List α} {i j : Nat} {f : α → α} {g : α → Bool}
    (h : ∀ a, g (f a) = g a) : ((l.modify i f)[j]?).any g = (l[j]?).any g := by
  rw [List.getElem?_modify]
  cases l[j]? with
  | none => rfl
  | some a =>
    by_cases hij : i = j
    · simp [hij, h]
    · simp [hij]

theorem isOpen_own : (s.own scope item).isOpen p = s.isOpen p := any_modify fun _ => rfl

theorem isClosed_own : (s.own scope item).isClosed p = s.isClosed p := any_modify fun _ => rfl

theorem isOpen_setLoaded : (s.setLoaded scope loaded).isOpen p = s.isOpen p :=
  any_modify fun _ => rfl

theorem isClosed_setLoaded : (s.setLoaded scope loaded).isClosed p = s.isClosed p :=
  any_modify fun _ => rfl

theorem cleanupOf_setLoaded : (s.setLoaded scope loaded).cleanupOf p = s.cleanupOf p := by
  simp only [Scene.cleanupOf, Scene.setLoaded, List.getElem?_modify]
  cases s.scopes[p]? with
  | none => rfl
  | some state => by_cases h : scope = p <;> simp [h]

theorem cleanupOf_own : (s.own scope item).cleanupOf p =
    if scope = p ∧ (s.scopes[p]?).isSome then s.cleanupOf p ++ [item] else s.cleanupOf p := by
  simp only [Scene.cleanupOf, Scene.own, List.getElem?_modify]
  cases s.scopes[p]? with
  | none => simp
  | some state => by_cases h : scope = p <;> simp [h]

theorem exists_of_isOpen (h : s.isOpen p = true) : (s.scopes[p]?).isSome = true := by
  rw [Scene.isOpen] at h
  cases hp : s.scopes[p]? with
  | none =>
    rw [hp] at h
    cases h
  | some state => rfl

theorem not_isOpen_of_isClosed (h : s.isClosed p = true) : s.isOpen p = false := by
  rw [Scene.isClosed] at h
  rw [Scene.isOpen]
  cases hp : s.scopes[p]? with
  | none => rfl
  | some state =>
    rw [hp, Option.any_some] at h
    rw [Option.any_some, h]
    rfl

end Scopes

namespace Scene.Sound

variable {isA : Hierarchy} {s : Scene} {event : String} {owner : Option Nat} {scope index : Nat}
  {item : CleanupItem} {loaded : Bool} {stack rest : List Frame}

-- The stack moves on: nothing new is to be called, and each closing keeps what it has still to cancel.
theorem restack (h : s.Sound isA) (hpending : ∀ l ∈ stack.flatMap Frame.pending, l ∈ s.pending)
    (hscopes : (stack.filterMap Frame.closing?).map Prod.fst = s.closings.map Prod.fst)
    (hitems : ∀ scope items index event id, (scope, items) ∈ s.closings →
      .subscription index ∈ items → s.bus.subscriptions[index]? = some ⟨event, id, true⟩ →
      ∃ items', (scope, items') ∈ stack.filterMap Frame.closing? ∧ .subscription index ∈ items') :
    (s.withStack stack).Sound isA where
  bus := h.bus
  owners := h.owners
  pending l hl := h.pending l (hpending l hl)
  held index scope event id hs howner := by
    rcases h.held index scope event id hs howner with hopen | ⟨items, hclosing, hitem⟩
    · exact .inl hopen
    · exact .inr (hitems scope items index event id hclosing hitem hs)
  once := by
    rw [Scene.closings, Scene.withStack, hscopes]
    exact h.once
  closing := by
    rw [Scene.closings, Scene.withStack, hscopes]
    exact h.closing
  released := by
    rw [Scene.closings, Scene.withStack, hscopes]
    exact h.released

theorem restack_same (h : s.Sound isA) (hpending : ∀ l ∈ stack.flatMap Frame.pending, l ∈ s.pending)
    (hclosings : stack.filterMap Frame.closing? = s.closings) : (s.withStack stack).Sound isA :=
  h.restack hpending (congrArg (List.map Prod.fst) hclosings)
    fun _ items _ _ _ hclosing hitem _ => ⟨items, hclosings ▸ hclosing, hitem⟩

theorem restack_of {old : List Frame} (h : s.Sound isA) (hstack : s.stack = old)
    (hpending : ∀ l ∈ stack.flatMap Frame.pending, l ∈ old.flatMap Frame.pending)
    (hclosings : stack.filterMap Frame.closing? = old.filterMap Frame.closing?) :
    (s.withStack stack).Sound isA := by
  subst hstack
  exact h.restack_same hpending hclosings

theorem start : Scene.start.Sound isA where
  bus := EventBus.Sound.new
  owners := rfl
  pending _ hl := by cases hl
  held _ _ _ _ hs := by cases hs
  once := .nil
  closing _ hscope := by cases hscope
  released _ hscope := by cases hscope

theorem own (h : s.Sound isA) (scope : Nat) (item : CleanupItem) : (s.own scope item).Sound isA where
  bus := h.bus
  owners := h.owners
  pending := h.pending
  held index p event id hs howner := by
    rcases h.held index p event id hs howner with ⟨hopen, hitem⟩ | hclosing
    · refine .inl ⟨isOpen_own.trans hopen, ?_⟩
      rw [cleanupOf_own]
      split_ifs
      · exact List.mem_append_left _ hitem
      · exact hitem
    · exact .inr hclosing
  once := h.once
  closing p hp := isClosed_own.trans (h.closing p hp)
  released p hp := ⟨isClosed_own.trans (h.released p hp).1, (h.released p hp).2⟩

theorem listen (h : s.Sound isA) (hevent : event ≠ "")
    (hheld : ∀ scope, owner = some scope → s.Holds scope s.bus.subscriptions.length) :
    (s.listen event owner).Sound isA where
  bus := h.bus.listen event
  owners := by
    simp only [Scene.listen, listen_subscriptions hevent, List.length_append, h.owners,
      List.length_singleton]
  pending l hl := by
    rw [Scene.listen, listen_subscriptions hevent]
    exact List.mem_append_left _ (h.pending l hl)
  held index scope event' id hs howner := by
    simp only [Scene.listen, listen_subscriptions hevent] at hs howner
    rcases Nat.lt_trichotomy index s.bus.subscriptions.length with hlt | rfl | hgt
    · rw [List.getElem?_append_left hlt] at hs
      rw [List.getElem?_append_left (h.owners ▸ hlt)] at howner
      exact h.held index scope event' id hs howner
    · rw [← h.owners, List.getElem?_concat_length, Option.some.injEq] at howner
      exact hheld scope howner
    · rw [List.getElem?_eq_none (by rw [List.length_append, List.length_singleton]; omega)] at hs
      cases hs
  once := h.once
  closing := h.closing
  released := h.released

theorem on (h : s.Sound isA) (hevent : event ≠ "") (hopen : s.isOpen scope = true) :
    ((s.listen event (some scope)).own scope
      (.subscription s.bus.subscriptions.length)).Sound isA := by
  refine (h.own scope (.subscription s.bus.subscriptions.length)).listen hevent fun p hp => ?_
  cases hp
  refine .inl ⟨isOpen_own.trans hopen, ?_⟩
  rw [cleanupOf_own, if_pos ⟨rfl, exists_of_isOpen hopen⟩]
  exact List.mem_append_right _ (List.mem_singleton.mpr rfl)

theorem cancel (h : s.Sound isA) (htimely : Timely s (.cancel index)) : (s.cancel index).Sound isA where
  bus := h.bus.cancel index
  owners := h.owners.trans cancel_length.symm
  pending l hl := by
    obtain ⟨i, hi⟩ := List.mem_iff_getElem?.mp (h.pending l hl)
    by_cases hindex : i = index
    · subst hindex
      exact absurd hl (htimely l.1 l.2 hi)
    · refine List.mem_iff_getElem?.mpr ⟨i, ?_⟩
      rw [Scene.cancel, cancel_subscriptions, hi, Option.map_some, if_neg hindex]
  held i scope event id hs howner := h.held i scope event id (active_of_cancel hs).2 howner
  once := h.once
  closing := h.closing
  released := h.released

theorem dispatch (h : s.Sound isA) (event : String) :
    Scene.Sound isA { s with
      bus := s.bus.dispatch isA event
      stack := .dispatching (s.bus.dispatcher.resolvedListeners isA event).1 :: s.stack } where
  bus := h.bus.dispatch event
  owners := h.owners
  pending l hl := by
    rw [Scene.pending, List.flatMap_cons, List.mem_append] at hl
    rcases hl with hfound | hpending
    · change l ∈ (s.bus.dispatcher.resolvedListeners isA event).1 at hfound
      rw [h.bus.resolved, mem_resolvedFor, h.bus.live] at hfound
      exact hfound.2
    · exact h.pending l hpending
  held := h.held
  once := h.once
  closing := h.closing
  released := h.released

theorem setLoaded (h : s.Sound isA) (scope : Nat) (loaded : Bool) :
    (s.setLoaded scope loaded).Sound isA where
  bus := h.bus
  owners := h.owners
  pending := h.pending
  held index p event id hs howner := by
    rcases h.held index p event id hs howner with ⟨hopen, hitem⟩ | hclosing
    · refine .inl ⟨isOpen_setLoaded.trans hopen, ?_⟩
      rw [cleanupOf_setLoaded]
      exact hitem
    · exact .inr hclosing
  once := h.once
  closing p hp := isClosed_setLoaded.trans (h.closing p hp)
  released p hp := ⟨isClosed_setLoaded.trans (h.released p hp).1, (h.released p hp).2⟩

theorem scopes_append_of_isOpen (state : SceneScope) {p : Nat} (h : s.isOpen p = true) :
    (s.scopes ++ [state])[p]? = s.scopes[p]? := by
  obtain ⟨found, hfound⟩ := Option.isSome_iff_exists.mp (exists_of_isOpen h)
  exact List.getElem?_append_left (List.getElem?_eq_some_iff.mp hfound).1

theorem isClosed_append {state : SceneScope} {p : Nat} (h : s.isClosed p = true) :
    Scene.isClosed { s with scopes := s.scopes ++ [state] } p = true := by
  rw [Scene.isClosed] at h ⊢
  cases hp : s.scopes[p]? with
  | none =>
    rw [hp] at h
    cases h
  | some found =>
    rw [List.getElem?_append_left (List.getElem?_eq_some_iff.mp hp).1]
    exact h

theorem addScope (h : s.Sound isA) (state : SceneScope) :
    Scene.Sound isA { s with scopes := s.scopes ++ [state] } where
  bus := h.bus
  owners := h.owners
  pending := h.pending
  held index p event id hs howner := by
    rcases h.held index p event id hs howner with ⟨hopen, hitem⟩ | hclosing
    · have hscope := scopes_append_of_isOpen state hopen
      refine .inl ⟨?_, ?_⟩
      · rw [Scene.isOpen, hscope]
        exact hopen
      · rw [Scene.cleanupOf, hscope]
        exact hitem
    · exact .inr hclosing
  once := h.once
  closing p hp := isClosed_append (h.closing p hp)
  released p hp := ⟨isClosed_append (h.released p hp).1, (h.released p hp).2⟩

theorem close (h : s.Sound isA) (scope : Nat)
    (hpending : ∀ l ∈ rest.flatMap Frame.pending, l ∈ s.pending)
    (hclosings : rest.filterMap Frame.closing? = s.closings) : (s.close scope rest).Sound isA := by
  rw [Scene.close]
  split_ifs with hopen
  · have hfresh : scope ∉ s.closings.map Prod.fst := fun hmem => by
      rw [not_isOpen_of_isClosed (h.closing scope hmem)] at hopen
      cases hopen
    have hclosed (p : Nat) (hp : s.isClosed p = true ∨ p = scope) : Scene.isClosed { s with
        scopes := s.scopes.modify scope fun state => { state with closed := true }
        stack := .closing scope (s.cleanupOf scope).reverse :: rest } p = true := by
      rw [Scene.isClosed, List.getElem?_modify]
      rcases hp with hp | rfl
      · rw [Scene.isClosed] at hp
        cases hs : s.scopes[p]? with
        | none =>
          rw [hs] at hp
          cases hp
        | some state =>
          rw [hs, Option.any_some] at hp
          by_cases hscope : scope = p <;> simp [hscope, hp]
      · obtain ⟨state, hs⟩ := Option.isSome_iff_exists.mp (exists_of_isOpen hopen)
        simp [hs]
    have hall : (Frame.closing scope (s.cleanupOf scope).reverse :: rest).filterMap Frame.closing? =
        (scope, (s.cleanupOf scope).reverse) :: s.closings := by
      rw [← hclosings]
      rfl
    refine ⟨h.bus, h.owners, fun l hl => ?_, fun index p event id hs howner => ?_, ?_, ?_, ?_⟩
    · rw [Scene.pending, List.flatMap_cons] at hl
      exact h.pending l (hpending l hl)
    · rcases h.held index p event id hs howner with ⟨hstill, hitem⟩ | ⟨items, hclosing, hitem⟩
      · by_cases hp : p = scope
        · subst hp
          refine .inr ⟨_, ?_, List.mem_reverse.mpr hitem⟩
          rw [Scene.closings, hall]
          exact List.mem_cons_self
        · refine .inl ⟨?_, ?_⟩
          · rw [Scene.isOpen, List.getElem?_modify_ne _ _ (Ne.symm hp)]
            exact hstill
          · rw [Scene.cleanupOf, List.getElem?_modify_ne _ _ (Ne.symm hp)]
            exact hitem
      · refine .inr ⟨items, ?_, hitem⟩
        rw [Scene.closings, hall]
        exact List.mem_cons_of_mem _ hclosing
    · rw [Scene.closings, hall, List.map_cons, List.nodup_cons]
      exact ⟨hfresh, h.once⟩
    · intro p hp
      rw [Scene.closings, hall, List.map_cons, List.mem_cons] at hp
      rcases hp with rfl | hp
      · exact hclosed _ (.inr rfl)
      · exact hclosed p (.inl (h.closing p hp))
    · intro p hp
      obtain ⟨hgone, hnot⟩ := h.released p hp
      refine ⟨hclosed p (.inl hgone), ?_⟩
      rw [Scene.closings, hall, List.map_cons, List.mem_cons, not_or]
      refine ⟨?_, hnot⟩
      rintro rfl
      rw [not_isOpen_of_isClosed hgone] at hopen
      cases hopen
  · exact h.restack_same hpending hclosings

theorem close_of {old : List Frame} (h : s.Sound isA) (scope : Nat) (hstack : s.stack = old)
    (hpending : ∀ l ∈ rest.flatMap Frame.pending, l ∈ old.flatMap Frame.pending)
    (hclosings : rest.filterMap Frame.closing? = old.filterMap Frame.closing?) :
    (s.close scope rest).Sound isA := by
  subst hstack
  exact h.close scope hpending hclosings

theorem closed (h : s.Sound isA) (hstack : s.stack = .closing scope [] :: rest) :
    Scene.Sound isA { s with
      scopes := s.scopes.modify scope fun state => { state with cleanup := [] }
      released := scope :: s.released
      stack := rest } := by
  have hclosings : s.closings = (scope, []) :: rest.filterMap Frame.closing? := by
    rw [Scene.closings, hstack]
    rfl
  have hpending : s.pending = rest.flatMap Frame.pending := by
    rw [Scene.pending, hstack, List.flatMap_cons]
    rfl
  have hgone := h.closing scope (by rw [hclosings, List.map_cons]; exact List.mem_cons_self)
  have hnodup := h.once
  rw [hclosings, List.map_cons, List.nodup_cons] at hnodup
  have hclosed (p : Nat) (hp : s.isClosed p = true) : Scene.isClosed { s with
      scopes := s.scopes.modify scope fun state => { state with cleanup := [] }
      released := scope :: s.released
      stack := rest } p = true := by
    refine Eq.trans ?_ hp
    exact any_modify fun _ => rfl
  refine ⟨h.bus, h.owners, fun l hl => h.pending l (hpending ▸ hl),
    fun index p event id hs howner => ?_, hnodup.2, fun p hp => ?_, fun p hp => ?_⟩
  · rcases h.held index p event id hs howner with ⟨hstill, hitem⟩ | ⟨items, hclosing, hitem⟩
    · have hne : scope ≠ p := by
        rintro rfl
        rw [not_isOpen_of_isClosed hgone] at hstill
        cases hstill
      refine .inl ⟨?_, ?_⟩
      · rw [Scene.isOpen, List.getElem?_modify_ne _ _ hne]
        exact hstill
      · rw [Scene.cleanupOf, List.getElem?_modify_ne _ _ hne]
        exact hitem
    · rw [hclosings, List.mem_cons] at hclosing
      rcases hclosing with heq | hrest
      · cases heq
        cases hitem
      · exact .inr ⟨items, hrest, hitem⟩
  · refine hclosed p (h.closing p ?_)
    rw [hclosings, List.map_cons]
    exact List.mem_cons_of_mem _ hp
  · rcases List.mem_cons.mp hp with rfl | hold
    · exact ⟨hclosed _ hgone, hnodup.1⟩
    · obtain ⟨hclosedp, hnot⟩ := h.released p hold
      rw [hclosings, List.map_cons, List.mem_cons, not_or] at hnot
      exact ⟨hclosed p hclosedp, hnot.2⟩

theorem step {t : Scene} {act : Act} (h : s.Sound isA) (htimely : Timely s act)
    (hstep : SceneStep isA s act t) : t.Sound isA := by
  cases hstep with
  | listen event hstack hevent => exact h.listen hevent fun _ hp => by cases hp
  | on event hstack hevent hopen => exact h.on hevent hopen
  | own hstack hopen => exact h.own _ _
  | cancel index hstack => exact h.cancel htimely
  | dispatch event hstack => exact h.dispatch event
  | call hstack =>
    refine h.restack_of hstack (fun l hl => ?_) rfl
    exact List.mem_cons_of_mem _ hl
  | called hstack => exact h.restack_of hstack (fun l hl => hl) rfl
  | dispatched hstack => exact h.restack_of hstack (fun l hl => hl) rfl
  | threw hstack =>
    refine h.restack_of hstack (fun l hl => ?_) rfl
    rw [List.flatMap_cons, List.flatMap_cons]
    exact List.mem_append_right _ (List.mem_append_right _ hl)
  | load hstack => exact (h.addScope _).restack_same (fun l hl => hl) rfl
  | enabled hstack => exact (h.setLoaded _ true).restack_of hstack (fun l hl => hl) rfl
  | rollBack hstack => exact h.close_of _ hstack (fun l hl => hl) rfl
  | unload hstack hloaded => exact (h.setLoaded _ false).restack_same (fun l hl => hl) rfl
  | disabled hstack => exact h.close_of _ hstack (fun l hl => hl) rfl
  | logFailed hstack => exact h.restack_of hstack (fun l hl => hl) rfl
  | @undo rest scope index items hstack =>
    have hclosings : s.closings = (scope, .subscription index :: items) :: rest.filterMap Frame.closing? := by
      rw [Scene.closings, hstack]
      rfl
    refine (h.cancel htimely).restack (fun l hl => ?_) ?_ ?_
    · change l ∈ s.pending
      rw [Scene.pending, hstack]
      exact hl
    · change _ = s.closings.map Prod.fst
      rw [hclosings]
      rfl
    · intro p found i event id hclosing hitem hs
      change (p, found) ∈ s.closings at hclosing
      rw [hclosings, List.mem_cons] at hclosing
      rcases hclosing with heq | hrest
      · cases heq
        refine ⟨items, List.mem_cons_self, (List.mem_cons.mp hitem).resolve_left fun heq => ?_⟩
        cases heq
        exact (active_of_cancel hs).1 rfl
      · exact ⟨found, List.mem_cons_of_mem _ hrest, hitem⟩
  | @undoOther rest scope items hstack =>
    have hclosings : s.closings = (scope, .callback :: items) :: rest.filterMap Frame.closing? := by
      rw [Scene.closings, hstack]
      rfl
    refine h.restack (fun l hl => ?_) ?_ ?_
    · rw [Scene.pending, hstack]
      exact hl
    · rw [hclosings]
      rfl
    · intro p found i event id hclosing hitem hs
      rw [hclosings, List.mem_cons] at hclosing
      rcases hclosing with heq | hrest
      · cases heq
        exact ⟨items, List.mem_cons_self, (List.mem_cons.mp hitem).resolve_left (by rintro ⟨⟩)⟩
      · exact ⟨found, List.mem_cons_of_mem _ hrest, hitem⟩
  | undone hstack => exact h.restack_of hstack (fun l hl => hl) rfl
  | closed hstack => exact h.closed hstack

theorem run {t : Scene} (h : s.Sound isA) (hrun : TimelyRun isA s t) : t.Sound isA := by
  induction hrun with
  | refl => exact h
  | tail _ hstep ih =>
    obtain ⟨act, hstep, htimely⟩ := hstep
    exact ih.step htimely hstep

end Scene.Sound

section Silence

variable {isA : Hierarchy} {s t : Scene} {act : Act} {listener : String × Nat}

-- Handles, their owners and the closed scopes are never taken back.
structure Scene.Keeps (s t : Scene) : Prop where
  subscriptions : ∀ (index : Nat) (event : String) (id : Nat) (active : Bool),
    s.bus.subscriptions[index]? = some ⟨event, id, active⟩ →
    ∃ active', t.bus.subscriptions[index]? = some ⟨event, id, active'⟩ ∧ (active = false → active' = false)
  owners : ∀ (index : Nat) (owner : Option Nat), s.owners[index]? = some owner → t.owners[index]? = some owner
  released : ∀ scope ∈ s.released, scope ∈ t.released

theorem Scene.Keeps.same (hbus : t.bus.subscriptions = s.bus.subscriptions) (howners : t.owners = s.owners)
    (hreleased : ∀ scope ∈ s.released, scope ∈ t.released) : s.Keeps t where
  subscriptions _ _ _ active hs := ⟨active, hbus ▸ hs, fun h => h⟩
  owners _ _ ho := howners ▸ ho
  released := hreleased

theorem Scene.Keeps.cancel (index : Nat) (hbus : t.bus = s.bus.cancel index) (howners : t.owners = s.owners)
    (hreleased : t.released = s.released) : s.Keeps t where
  subscriptions i event id active hs := by
    rw [hbus, cancel_subscriptions, hs, Option.map_some]
    split_ifs
    · exact ⟨false, rfl, fun _ => rfl⟩
    · exact ⟨active, rfl, fun h => h⟩
  owners i owner ho := howners ▸ ho
  released scope hscope := hreleased ▸ hscope

theorem Scene.Keeps.listen {event : String} (hevent : event ≠ "") {owner : Option Nat}
    (hbus : t.bus = s.bus.listen event) (howners : t.owners = s.owners ++ [owner])
    (hreleased : t.released = s.released) : s.Keeps t where
  subscriptions index event' id active hs := by
    refine ⟨active, ?_, fun h => h⟩
    rw [hbus, listen_subscriptions hevent,
      List.getElem?_append_left (List.getElem?_eq_some_iff.mp hs).1]
    exact hs
  owners index owner' ho := by
    rw [howners, List.getElem?_append_left (List.getElem?_eq_some_iff.mp ho).1]
    exact ho
  released scope hscope := hreleased ▸ hscope

theorem SceneStep.keeps (h : SceneStep isA s act t) : s.Keeps t := by
  cases h with
  | listen event hstack hevent => exact .listen hevent rfl rfl rfl
  | on event hstack hevent hopen => exact .listen hevent rfl rfl rfl
  | cancel index hstack => exact .cancel index rfl rfl rfl
  | @undo rest scope index items hstack => exact .cancel index rfl rfl rfl
  | rollBack hstack =>
    rw [Scene.close]
    split_ifs
    · exact .same rfl rfl fun _ h => h
    · exact .same rfl rfl fun _ h => h
  | disabled hstack =>
    rw [Scene.close]
    split_ifs
    · exact .same rfl rfl fun _ h => h
    · exact .same rfl rfl fun _ h => h
  | closed hstack => exact .same rfl rfl fun _ h => List.mem_cons_of_mem _ h
  | own => exact .same rfl rfl fun _ h => h
  | dispatch => exact .same rfl rfl fun _ h => h
  | call => exact .same rfl rfl fun _ h => h
  | called => exact .same rfl rfl fun _ h => h
  | dispatched => exact .same rfl rfl fun _ h => h
  | threw => exact .same rfl rfl fun _ h => h
  | load => exact .same rfl rfl fun _ h => h
  | enabled => exact .same rfl rfl fun _ h => h
  | unload => exact .same rfl rfl fun _ h => h
  | logFailed => exact .same rfl rfl fun _ h => h
  | undoOther => exact .same rfl rfl fun _ h => h
  | undone => exact .same rfl rfl fun _ h => h

theorem Silenced.step (h : Silenced s listener) (hkeeps : s.Keeps t) : Silenced t listener := by
  obtain ⟨index, active, hs, hwhy⟩ := h
  obtain ⟨active', ht, hstays⟩ := hkeeps.subscriptions index _ _ active hs
  refine ⟨index, active', ht, ?_⟩
  rcases hwhy with hcancelled | ⟨scope, hscope, howner⟩
  · exact .inl (hstays hcancelled)
  · exact .inr ⟨scope, hkeeps.released scope hscope, hkeeps.owners index _ howner⟩

theorem Silenced.run (h : Silenced s listener) (hrun : TimelyRun isA s t) : Silenced t listener := by
  induction hrun with
  | refl => exact h
  | tail _ hstep ih =>
    obtain ⟨act, hstep, _⟩ := hstep
    exact ih.step hstep.keeps

theorem Silenced.not_live (h : Silenced s listener) (hs : s.Sound isA) :
    ⟨listener.1, listener.2, true⟩ ∉ s.bus.subscriptions := by
  intro hlive
  obtain ⟨index, active, hindex, hwhy⟩ := h
  obtain ⟨i, hi⟩ := List.mem_iff_getElem?.mp hlive
  have hsame : i = index := by
    have hids : (s.bus.subscriptions.map Subscription.id).Nodup :=
      (List.pairwise_map.mpr hs.bus.ordered).imp fun hlt => Nat.ne_of_lt hlt
    have hi' : (s.bus.subscriptions.map Subscription.id)[i]? = some listener.2 := by
      rw [List.getElem?_map, hi]
      rfl
    have hindex' : (s.bus.subscriptions.map Subscription.id)[index]? = some listener.2 := by
      rw [List.getElem?_map, hindex]
      rfl
    exact (List.getElem?_inj (List.getElem?_eq_some_iff.mp hi').1 hids).mp (hi'.trans hindex'.symm)
  subst hsame
  rw [hi, Option.some.injEq, Subscription.mk.injEq] at hindex
  obtain ⟨-, -, rfl⟩ := hindex
  rcases hwhy with hcancelled | ⟨scope, hscope, howner⟩
  · cases hcancelled
  · obtain ⟨hclosed, hnot⟩ := hs.released scope hscope
    rcases hs.held i scope _ _ hi howner with ⟨hopen, _⟩ | ⟨items, hclosing, _⟩
    · rw [not_isOpen_of_isClosed hclosed] at hopen
      cases hopen
    · exact hnot (List.mem_map.mpr ⟨_, hclosing, rfl⟩)

theorem SceneStep.pending_of_invoke (h : SceneStep isA s (.invoke listener) t) :
    listener ∈ s.pending := by
  cases h with
  | call hstack =>
    rw [Scene.pending, hstack]
    exact List.mem_cons_self

def noParents : Hierarchy := fun _ _ => false

def joinedOnce : Scene := Scene.start.listen "PlayerJoin" none

def joinedTwice : Scene := joinedOnce.listen "PlayerJoin" none

def joining : Scene :=
  { joinedTwice with
    bus := joinedTwice.bus.dispatch noParents "PlayerJoin"
    stack := [.code, .dispatching [("PlayerJoin", 2)], .code] }

end Silence

end Cobblestone.Plugin
