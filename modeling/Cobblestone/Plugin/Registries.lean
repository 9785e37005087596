import Cobblestone.Task.Scheduler

namespace Cobblestone.Plugin

open Lib Cobblestone.Task

inductive RegistryError where
  | emptyEvent
  | rootTaken (name : String)
  | badDefinition (message : String)
  | scheduler (error : SchedulerError)
deriving DecidableEq, Repr

def RegistryError.message : RegistryError → String
  | .emptyEvent => "event class must not be empty"
  | .rootTaken name => "command root is already registered: " ++ name
  | .badDefinition message => message
  | .scheduler error => error.message

abbrev Listeners := OrderedMap String (OrderedMap Nat Unit)

def Listeners.has (listeners : Listeners) (event : String) (id : Nat) : Bool :=
  ((listeners.get? event).bind (·.get? id)).isSome

def Listeners.add (listeners : Listeners) (event : String) (id : Nat) : Listeners :=
  listeners.set event (((listeners.get? event).getD .empty).set id ())

def Listeners.drop (listeners : Listeners) (event : String) (id : Nat) : Listeners :=
  let remaining := ((listeners.get? event).getD .empty).unset id
  if remaining.entries = [] then listeners.unset event else listeners.set event remaining

theorem Listeners.has_add (listeners : Listeners) (event event' : String) (id id' : Nat) :
    (listeners.add event id).has event' id' = true ↔
      event' = event ∧ id' = id ∨ listeners.has event' id' = true := by
  simp only [Listeners.has, Listeners.add, OrderedMap.get?_set]
  by_cases he : event' = event
  · subst he
    cases hl : listeners.get? event' with
    | none => by_cases hid : id' = id <;> simp [OrderedMap.get?_set, hid]
    | some found => by_cases hid : id' = id <;> simp [OrderedMap.get?_set, hid]
  · simp [he]

theorem Listeners.has_drop (listeners : Listeners) (event event' : String) (id id' : Nat) :
    (listeners.drop event id).has event' id' = true ↔
      ¬(event' = event ∧ id' = id) ∧ listeners.has event' id' = true := by
  unfold Listeners.drop
  dsimp only
  split_ifs with hempty
  · have hgone : ∀ j, (((listeners.get? event).getD .empty).unset id).get? j = none := by
      intro j
      rw [OrderedMap.get?_eq_none, OrderedMap.keys, hempty]
      exact List.not_mem_nil
    simp only [Listeners.has, OrderedMap.get?_unset]
    by_cases he : event' = event
    · subst he
      have hj := hgone id'
      rw [OrderedMap.get?_unset] at hj
      cases hl : listeners.get? event' with
      | none => simp
      | some found =>
        by_cases hid : id' = id
        · simp [hid]
        · rw [if_neg hid, hl, Option.getD_some] at hj
          simp [hj]
    · simp [he]
  · simp only [Listeners.has, OrderedMap.get?_set]
    by_cases he : event' = event
    · subst he
      cases hl : listeners.get? event' with
      | none => by_cases hid : id' = id <;> simp [OrderedMap.get?_unset, hid]
      | some found => by_cases hid : id' = id <;> simp [OrderedMap.get?_unset, hid]
    · simp [he]

-- The cache of resolved listeners never outlives the listeners it was built from.
structure Dispatcher where
  listeners : Listeners
  resolved : OrderedMap String (List (String × Nat))
  nextListenerId : Nat
  issued : ∀ event id, listeners.has event id = true → id < nextListenerId
  cached : ∀ event found, resolved.get? event = some found →
    ∀ l ∈ found, listeners.has l.1 l.2 = true

namespace Dispatcher

def new : Dispatcher := ⟨.empty, .empty, 1, nofun, nofun⟩

def listen (d : Dispatcher) (event : String) : Except RegistryError (Nat × Dispatcher) :=
  if event = "" then .error .emptyEvent
  else
    .ok (d.nextListenerId,
      { listeners := d.listeners.add event d.nextListenerId
        resolved := .empty
        nextListenerId := d.nextListenerId + 1
        issued := by
          intro event' id h
          rcases (d.listeners.has_add _ _ _ _).mp h with ⟨-, rfl⟩ | h
          · exact Nat.lt_succ_self _
          · exact (d.issued event' id h).trans (Nat.lt_succ_self _)
        cached := nofun })

def remove (d : Dispatcher) (event : String) (id : Nat) : Bool × Dispatcher :=
  if d.listeners.has event id = false then (false, d)
  else
    (true,
      { listeners := d.listeners.drop event id
        resolved := .empty
        nextListenerId := d.nextListenerId
        issued := fun event' id' h => d.issued event' id' ((d.listeners.has_drop _ _ _ _).mp h).2
        cached := nofun })

def resolvedFor (isA : String → String → Bool) (listeners : Listeners) (event : String) :
    List (String × Nat) :=
  listeners.entries.flatMap fun e =>
    if event = e.1 ∨ isA event e.1 = true then e.2.keys.map fun id => (e.1, id) else []

theorem has_resolvedFor {isA : String → String → Bool} {listeners : Listeners} {event : String}
    {l : String × Nat} (h : l ∈ resolvedFor isA listeners event) :
    listeners.has l.1 l.2 = true := by
  obtain ⟨e, he, hl⟩ := List.mem_flatMap.mp h
  split_ifs at hl with hc
  · obtain ⟨id, hid, rfl⟩ := List.mem_map.mp hl
    have hget : listeners.get? e.1 = some e.2 := OrderedMap.get?_eq_some.mpr he
    rw [Listeners.has, hget]
    exact OrderedMap.mem_keys.mp hid
  · exact absurd hl List.not_mem_nil

-- What dispatch() asks for before it calls the listeners.
def resolvedListeners (isA : String → String → Bool) (d : Dispatcher) (event : String) :
    List (String × Nat) × Dispatcher :=
  match d.resolved.get? event with
  | some found => (found, d)
  | none =>
    (resolvedFor isA d.listeners event,
      { d with
        resolved := d.resolved.set event (resolvedFor isA d.listeners event)
        cached := by
          intro event' found hg
          rw [OrderedMap.get?_set] at hg
          split_ifs at hg with he
          · cases hg
            exact fun l hl => has_resolvedFor hl
          · exact d.cached event' found hg })

end Dispatcher

-- A root as CommandTree::register() sees it: its names, and the message if compile() rejects its tree.
structure Literal where
  names : List String
  rejected : Option String
deriving DecidableEq, Repr

structure CommandTree where
  registrations : OrderedMap Nat (List String)
  roots : OrderedMap String Nat
  nextBindingId : Nat
  issued : ∀ id names, registrations.get? id = some names → id < nextBindingId
  rooted : ∀ name id, roots.get? name = some id →
    ∃ names, registrations.get? id = some names ∧ name ∈ names

def bindRoots (roots : OrderedMap String Nat) (id : Nat) (names : List String) :
    OrderedMap String Nat :=
  names.foldl (fun roots name => roots.set name id) roots

def unbindRoots (roots : OrderedMap String Nat) (id : Nat) (names : List String) :
    OrderedMap String Nat :=
  names.foldl (fun roots name => if roots.get? name = some id then roots.unset name else roots) roots

theorem get?_bindRoots (roots : OrderedMap String Nat) (id : Nat) (names : List String)
    (name : String) :
    (bindRoots roots id names).get? name = if name ∈ names then some id else roots.get? name :=
  roots.get?_setAll id names name

theorem get?_unbindRoots (roots : OrderedMap String Nat) (id : Nat) (names : List String)
    (name : String) :
    (unbindRoots roots id names).get? name =
      if name ∈ names ∧ roots.get? name = some id then none else roots.get? name :=
  roots.get?_unsetHeld id names name

namespace CommandTree

def new : CommandTree := ⟨.empty, .empty, 1, nofun, nofun⟩

def register (t : CommandTree) (root : Literal) : Except RegistryError (Nat × CommandTree) :=
  match root.names.find? fun name => (t.roots.get? name).isSome with
  | some name => .error (.rootTaken name)
  | none =>
    match root.rejected with
    | some message => .error (.badDefinition message)
    | none =>
      .ok (t.nextBindingId,
        { registrations := t.registrations.set t.nextBindingId root.names
          roots := bindRoots t.roots t.nextBindingId root.names
          nextBindingId := t.nextBindingId + 1
          issued := by
            intro id names hg
            rw [OrderedMap.get?_set] at hg
            split_ifs at hg with hid
            · exact hid ▸ Nat.lt_succ_self _
            · exact (t.issued id names hg).trans (Nat.lt_succ_self _)
          rooted := by
            intro name id hg
            rw [get?_bindRoots] at hg
            split_ifs at hg with hn
            · cases hg
              exact ⟨root.names, OrderedMap.get?_set_self, hn⟩
            · obtain ⟨names, hnames, hmem⟩ := t.rooted name id hg
              have hne : id ≠ t.nextBindingId := (t.issued id names hnames).ne
              exact ⟨names, by rw [OrderedMap.get?_set, if_neg hne, hnames], hmem⟩ })

def remove (t : CommandTree) (id : Nat) : Bool × CommandTree :=
  match hg : t.registrations.get? id with
  | none => (false, t)
  | some names =>
    (true,
      { registrations := t.registrations.unset id
        roots := unbindRoots t.roots id names
        nextBindingId := t.nextBindingId
        issued := fun id' names' hg' => t.issued id' names' (OrderedMap.get?_unset_some hg').2
        rooted := by
          intro name id' hg'
          rw [get?_unbindRoots] at hg'
          split_ifs at hg' with hn
          obtain ⟨names', hnames, hmem⟩ := t.rooted name id' hg'
          have hne : id' ≠ id := by
            rintro rfl
            cases hg.symm.trans hnames
            exact hn ⟨hmem, hg'⟩
          exact ⟨names', by rw [OrderedMap.get?_unset, if_neg hne, hnames], hmem⟩ })

end CommandTree

structure Registries where
  events : Dispatcher
  commands : CommandTree
  scheduler : Scheduler

-- What a scope hands out for each kind of registration.
inductive Registration where
  | listener (event : String) (id : Nat)
  | command (id : Nat)
  | task (id : Nat)
  | fiber (id : Nat)
deriving DecidableEq, Repr

namespace Registries

def new : Registries := ⟨.new, .new, .new⟩

def holds (r : Registries) : Registration → Prop
  | .listener event id => r.events.listeners.has event id = true
  | .command id => (r.commands.registrations.get? id).isSome
  | .task id => (r.scheduler.tasks.get? id).isSome
  | .fiber id => (r.scheduler.fibers.get? id).isSome

def issued (r : Registries) : Registration → Prop
  | .listener _ id => id < r.events.nextListenerId
  | .command id => id < r.commands.nextBindingId
  | .task id => id < r.scheduler.nextTaskId
  | .fiber id => id < r.scheduler.nextFiberId

def untouched (r r' : Registries) : Registration → Prop
  | .listener event id => r'.events.listeners.has event id = r.events.listeners.has event id
  | .command id => r'.commands.registrations.get? id = r.commands.registrations.get? id ∧
      ∀ name, r'.commands.roots.get? name = some id ↔ r.commands.roots.get? name = some id
  | .task id => r'.scheduler.tasks.get? id = r.scheduler.tasks.get? id
  | .fiber id => r'.scheduler.fibers.get? id = r.scheduler.fibers.get? id ∧
      r'.scheduler.pendingFibers.get? id = r.scheduler.pendingFibers.get? id ∧
      r'.scheduler.sleeping.get? id = r.scheduler.sleeping.get? id

def release (r : Registries) : Registration → Registries
  | .listener event id => { r with events := (r.events.remove event id).2 }
  | .command id => { r with commands := (r.commands.remove id).2 }
  | .task id => { r with scheduler := (r.scheduler.cancelScheduledTask id).2 }
  | .fiber id => { r with scheduler := (r.scheduler.cancelFiber id).2 }

end Registries

end Cobblestone.Plugin
