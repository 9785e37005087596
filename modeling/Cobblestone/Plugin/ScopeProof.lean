import Cobblestone.Plugin.Plugins

namespace Cobblestone.Plugin

open Lib Cobblestone.Task

variable {r r' r'' : Registries} {target x : Registration} {w w' w'' : Workspace}

namespace Registries

theorem untouched_refl (x : Registration) : r.untouched r x := by
  cases x <;> simp [untouched]

theorem untouched.trans (h : r.untouched r' x) (h' : r'.untouched r'' x) : r.untouched r'' x := by
  cases x with
  | listener event id => exact Eq.trans h' h
  | command id => exact ⟨h'.1.trans h.1, fun name => (h'.2 name).trans (h.2 name)⟩
  | task id => exact Eq.trans h' h
  | fiber id => exact ⟨h'.1.trans h.1, h'.2.1.trans h.2.1, h'.2.2.trans h.2.2⟩

theorem untouched.holds (h : r.untouched r' x) : r'.holds x ↔ r.holds x := by
  cases x with
  | listener event id => exact iff_of_eq (congrArg (· = true) h)
  | command id => rw [Registries.holds, Registries.holds, h.1]
  | task id =>
    have he : r'.scheduler.tasks.get? id = r.scheduler.tasks.get? id := h
    rw [Registries.holds, Registries.holds, he]
  | fiber id => rw [Registries.holds, Registries.holds, h.1]

theorem no_root {id : Nat} (h : ¬r.holds (.command id)) (name : String) :
    r.commands.roots.get? name ≠ some id := by
  intro hr
  obtain ⟨names, hnames, -⟩ := r.commands.rooted name id hr
  exact h (by rw [holds, hnames]; rfl)

end Registries

structure Admits (r r' : Registries) (target : Registration) : Prop where
  fresh : ¬r.issued target
  granted : r'.issued target
  issued : ∀ x, r.issued x → r'.issued x
  others : ∀ x, x ≠ target → r.untouched r' x

structure Releases (r r' : Registries) (target : Registration) : Prop where
  issued : ∀ x, r'.issued x ↔ r.issued x
  gone : ¬r'.holds target
  others : ∀ x, x ≠ target → r.untouched r' x

theorem listen_admits {event : String} {id : Nat} {events : Dispatcher}
    (h : r.events.listen event = .ok (id, events)) :
    Admits r { r with events := events } (.listener event id) := by
  unfold Dispatcher.listen at h
  split_ifs at h with he
  cases h
  refine ⟨lt_irrefl _, Nat.lt_succ_self _, ?_, ?_⟩
  · intro x hx
    cases x with
    | listener event' id' => exact Nat.lt_succ_of_lt hx
    | command id' => exact hx
    | task id' => exact hx
    | fiber id' => exact hx
  · intro x hx
    cases x with
    | listener event' id' =>
      refine Bool.eq_iff_iff.mpr ((r.events.listeners.has_add _ _ _ _).trans ?_)
      refine or_iff_right ?_
      rintro ⟨rfl, rfl⟩
      exact hx rfl
    | command id' => exact ⟨rfl, fun _ => Iff.rfl⟩
    | task id' => rfl
    | fiber id' => exact ⟨rfl, rfl, rfl⟩

theorem register_admits {root : Literal} {id : Nat} {commands : CommandTree}
    (h : r.commands.register root = .ok (id, commands)) :
    Admits r { r with commands := commands } (.command id) := by
  unfold CommandTree.register at h
  cases hfind : root.names.find? fun name => (r.commands.roots.get? name).isSome with
  | some name => simp [hfind] at h
  | none =>
    cases hrejected : root.rejected with
    | some message => simp [hfind, hrejected] at h
    | none =>
      simp only [hfind, hrejected, Except.ok.injEq, Prod.mk.injEq] at h
      obtain ⟨rfl, rfl⟩ := h
      have hfree : ∀ name ∈ root.names, r.commands.roots.get? name = none := by
        intro name hname
        simpa using List.find?_eq_none.mp hfind name hname
      refine ⟨lt_irrefl _, Nat.lt_succ_self _, ?_, ?_⟩
      · intro x hx
        cases x with
        | listener event' id' => exact hx
        | command id' => exact Nat.lt_succ_of_lt hx
        | task id' => exact hx
        | fiber id' => exact hx
      · intro x hx
        cases x with
        | listener event' id' => rfl
        | command id' =>
          have hne : id' ≠ r.commands.nextBindingId := fun he => hx (congrArg _ he)
          refine ⟨by rw [OrderedMap.get?_set, if_neg hne], fun name => ?_⟩
          rw [get?_bindRoots]
          split_ifs with hname
          · rw [hfree name hname]
            simp only [Option.some.injEq, reduceCtorEq, iff_false]
            exact Ne.symm hne
          · rfl
        | task id' => rfl
        | fiber id' => exact ⟨rfl, rfl, rfl⟩

theorem enlist_admits (due : Nat) (interval : Option Nat) :
    Admits r { r with scheduler := r.scheduler.enlist due interval }
      (.task r.scheduler.nextTaskId) := by
  refine ⟨lt_irrefl _, Nat.lt_succ_self _, ?_, ?_⟩
  · intro x hx
    cases x with
    | listener event' id' => exact hx
    | command id' => exact hx
    | task id' => exact Nat.lt_succ_of_lt hx
    | fiber id' => exact hx
  · intro x hx
    cases x with
    | listener event' id' => rfl
    | command id' => exact ⟨rfl, fun _ => Iff.rfl⟩
    | task id' =>
      have hne : id' ≠ r.scheduler.nextTaskId := fun he => hx (congrArg _ he)
      simp only [Registries.untouched, Scheduler.enlist, OrderedMap.get?_set, if_neg hne]
    | fiber id' => exact ⟨rfl, rfl, rfl⟩

theorem spawn_admits :
    Admits r { r with scheduler := r.scheduler.spawn } (.fiber r.scheduler.nextFiberId) := by
  refine ⟨lt_irrefl _, Nat.lt_succ_self _, ?_, ?_⟩
  · intro x hx
    cases x with
    | listener event' id' => exact hx
    | command id' => exact hx
    | task id' => exact hx
    | fiber id' => exact Nat.lt_succ_of_lt hx
  · intro x hx
    cases x with
    | listener event' id' => rfl
    | command id' => exact ⟨rfl, fun _ => Iff.rfl⟩
    | task id' => rfl
    | fiber id' =>
      have hne : id' ≠ r.scheduler.nextFiberId := fun he => hx (congrArg _ he)
      simp only [Registries.untouched, Scheduler.spawn, OrderedMap.get?_set, if_neg hne, and_self]

def Attempt.Sound (attempt : Attempt) : Prop :=
  ∀ r target r', attempt r = .ok (target, r') → Admits r r' target

theorem on_sound (event : String) : (Attempt.on event).Sound := by
  intro r target r' h
  unfold Attempt.on at h
  cases hl : r.events.listen event with
  | error error => simp [hl, Except.map] at h
  | ok found =>
    rw [hl] at h
    cases h
    exact listen_admits hl

theorem command_sound (root : Literal) : (Attempt.command root).Sound := by
  intro r target r' h
  unfold Attempt.command at h
  cases hl : r.commands.register root with
  | error error => simp [hl, Except.map] at h
  | ok found =>
    rw [hl] at h
    cases h
    exact register_admits hl

theorem after_sound (delayTicks : Int) : (Attempt.after delayTicks).Sound := by
  intro r target r' h
  unfold Attempt.after Scheduler.schedule at h
  split_ifs at h with hneg
  cases h
  exact enlist_admits _ _

theorem every_sound (intervalTicks : Int) : (Attempt.every intervalTicks).Sound := by
  intro r target r' h
  unfold Attempt.every Scheduler.repeatTask at h
  split_ifs at h with hneg
  cases h
  exact enlist_admits _ _

theorem task_sound : Attempt.task.Sound := by
  intro r target r' h
  cases h
  exact spawn_admits

theorem remove_listener_releases (event : String) (id : Nat) :
    Releases r { r with events := (r.events.remove event id).2 } (.listener event id) := by
  unfold Dispatcher.remove
  split_ifs with hgone
  · refine ⟨fun x => by cases x <;> rfl, ?_, fun x _ => by cases x <;> simp [Registries.untouched]⟩
    simpa [Registries.holds] using hgone
  · refine ⟨fun x => by cases x <;> rfl, ?_, ?_⟩
    · intro hheld
      exact ((r.events.listeners.has_drop _ _ _ _).mp hheld).1 ⟨rfl, rfl⟩
    · intro x hx
      cases x with
      | listener event' id' =>
        refine Bool.eq_iff_iff.mpr ((r.events.listeners.has_drop _ _ _ _).trans ?_)
        refine and_iff_right ?_
        rintro ⟨rfl, rfl⟩
        exact hx rfl
      | command id' => exact ⟨rfl, fun _ => Iff.rfl⟩
      | task id' => rfl
      | fiber id' => exact ⟨rfl, rfl, rfl⟩

theorem remove_command_releases (id : Nat) :
    Releases r { r with commands := (r.commands.remove id).2 } (.command id) := by
  unfold CommandTree.remove
  split
  · rename_i hg
    refine ⟨fun x => by cases x <;> rfl, ?_, fun x _ => by cases x <;> simp [Registries.untouched]⟩
    simp [Registries.holds, hg]
  · rename_i names hg
    refine ⟨fun x => by cases x <;> rfl, ?_, ?_⟩
    · simp [Registries.holds]
    · intro x hx
      cases x with
      | listener event' id' => rfl
      | command id' =>
        have hne : id' ≠ id := fun he => hx (congrArg _ he)
        refine ⟨by rw [OrderedMap.get?_unset, if_neg hne], fun name => ?_⟩
        rw [get?_unbindRoots]
        split_ifs with hname
        · rw [hname.2]
          simp only [Option.some.injEq, false_iff]
          exact Ne.symm hne
        · rfl
      | task id' => rfl
      | fiber id' => exact ⟨rfl, rfl, rfl⟩

theorem compact_fibers (s : Scheduler) :
    s.compactTaskQueueIfNeeded.nextTaskId = s.nextTaskId ∧
      s.compactTaskQueueIfNeeded.nextFiberId = s.nextFiberId ∧
      s.compactTaskQueueIfNeeded.tasks = s.tasks ∧
      s.compactTaskQueueIfNeeded.fibers = s.fibers ∧
      s.compactTaskQueueIfNeeded.pendingFibers = s.pendingFibers ∧
      s.compactTaskQueueIfNeeded.sleeping = s.sleeping := by
  unfold Scheduler.compactTaskQueueIfNeeded
  split_ifs <;> exact ⟨rfl, rfl, rfl, rfl, rfl, rfl⟩

theorem cancel_task_releases (id : Nat) :
    Releases r { r with scheduler := (r.scheduler.cancelScheduledTask id).2 } (.task id) := by
  unfold Scheduler.cancelScheduledTask
  split_ifs with hgone
  · refine ⟨fun x => by cases x <;> rfl, ?_, fun x _ => by cases x <;> simp [Registries.untouched]⟩
    simpa [Registries.holds] using hgone
  · obtain ⟨h₁, h₂, h₃, h₄, h₅, h₆⟩ := compact_fibers
      { r.scheduler with
        tasks := r.scheduler.tasks.unset id
        staleTaskEntries := r.scheduler.staleTaskEntries + 1 }
    refine ⟨fun x => ?_, ?_, ?_⟩
    · cases x <;> simp only [Registries.issued, h₁, h₂]
    · simp [Registries.holds, h₃]
    · intro x hx
      cases x with
      | listener event' id' => rfl
      | command id' => exact ⟨rfl, fun _ => Iff.rfl⟩
      | task id' =>
        have hne : id' ≠ id := fun he => hx (congrArg _ he)
        simp only [Registries.untouched, h₃, OrderedMap.get?_unset, if_neg hne]
      | fiber id' =>
        simp only [Registries.untouched, h₄, h₅, h₆, and_self]

theorem cancel_fiber_releases (id : Nat) :
    Releases r { r with scheduler := (r.scheduler.cancelFiber id).2 } (.fiber id) := by
  unfold Scheduler.cancelFiber
  split_ifs with hgone
  · refine ⟨fun x => by cases x <;> rfl, ?_, fun x _ => by cases x <;> simp [Registries.untouched]⟩
    simpa [Registries.holds] using hgone
  · refine ⟨fun x => by cases x <;> rfl, ?_, ?_⟩
    · simp [Registries.holds, Scheduler.forgetFiber]
    · intro x hx
      cases x with
      | listener event' id' => rfl
      | command id' => exact ⟨rfl, fun _ => Iff.rfl⟩
      | task id' => rfl
      | fiber id' =>
        have hne : id' ≠ id := fun he => hx (congrArg _ he)
        simp only [Registries.untouched, Scheduler.forgetFiber, OrderedMap.get?_unset, if_neg hne,
          and_self]

theorem release_releases (target : Registration) : Releases r (r.release target) target := by
  cases target with
  | listener event id => exact remove_listener_releases event id
  | command id => exact remove_command_releases id
  | task id => exact cancel_task_releases id
  | fiber id => exact cancel_fiber_releases id

-- Identities are issued once, so what is gone stays gone.
structure Drifts (r r' : Registries) : Prop where
  issued : ∀ x, r.issued x → r'.issued x
  absent : ∀ x, r.issued x → ¬r.holds x → ¬r'.holds x

theorem Drifts.of_admits {target : Registration} (h : Admits r r' target) : Drifts r r' where
  issued := h.issued
  absent x hx hn := by
    have hne : x ≠ target := by
      rintro rfl
      exact h.fresh hx
    rwa [(h.others x hne).holds]

theorem Drifts.of_releases {target : Registration} (h : Releases r r' target) : Drifts r r' where
  issued x := (h.issued x).mpr
  absent x hx hn := by
    by_cases hxt : x = target
    · rw [hxt]
      exact h.gone
    · rwa [(h.others x hxt).holds]

theorem Drifts.refl (r : Registries) : Drifts r r := ⟨fun _ hx => hx, fun _ _ hn => hn⟩

theorem Drifts.trans (h : Drifts r r') (h' : Drifts r' r'') : Drifts r r'' where
  issued x hx := h'.issued x (h.issued x hx)
  absent x hx hn := h'.absent x (h.issued x hx) (h.absent x hx hn)

-- What one piece of plugin code does to the registries and its scope, seen from outside.
structure Evolves (w w' : Workspace) : Prop where
  drift : Drifts w.registries w'.registries
  kept : ∀ (i : Nat) (h : Handle), w.scope.handles[i]? = some h →
    ∃ h' : Handle, w'.scope.handles[i]? = some h' ∧ h'.target = h.target ∧
      (h.cancelled = true → h'.cancelled = true)
  fresh : ∀ (i : Nat) (h : Handle), w.scope.handles.length ≤ i → w'.scope.handles[i]? = some h →
    ¬w.registries.issued h.target
  others : ∀ x, (∀ h ∈ w'.scope.handles, h.target ≠ x) → w.registries.untouched w'.registries x
  callbacks : w.scope.callbacks ≤ w'.scope.callbacks

structure ScopeBooks (r : Registries) (scope : PluginScope) : Prop where
  issued : ∀ h ∈ scope.handles, r.issued h.target
  gone : ∀ h ∈ scope.handles, h.cancelled = true → ¬r.holds h.target

theorem Evolves.refl (w : Workspace) : Evolves w w where
  drift := .refl _
  kept _ h hh := ⟨h, hh, rfl, fun hc => hc⟩
  fresh _ _ hle hh := absurd (List.getElem?_eq_some_iff.mp hh).1 (not_lt.mpr hle)
  others x _ := Registries.untouched_refl x
  callbacks := le_refl _

theorem Evolves.length_le (h : Evolves w w') :
    w.scope.handles.length ≤ w'.scope.handles.length := by
  by_contra hlt
  have hlast := List.getElem?_eq_getElem (not_le.mp hlt)
  obtain ⟨h', hh', -⟩ := h.kept _ _ hlast
  exact absurd (List.getElem?_eq_some_iff.mp hh').1 (lt_irrefl _)

theorem Evolves.trans (h : Evolves w w') (h' : Evolves w' w'') : Evolves w w'' where
  drift := h.drift.trans h'.drift
  kept i handle hh := by
    obtain ⟨handle', hh', ht, hc⟩ := h.kept i handle hh
    obtain ⟨handle'', hh'', ht', hc'⟩ := h'.kept i handle' hh'
    exact ⟨handle'', hh'', ht'.trans ht, fun hcancelled => hc' (hc hcancelled)⟩
  fresh i handle hle hh := by
    by_cases hlt : i < w'.scope.handles.length
    · have hget := List.getElem?_eq_getElem hlt
      obtain ⟨handle', hh', ht, -⟩ := h'.kept i _ hget
      cases hh.symm.trans hh'
      rw [ht]
      exact h.fresh i _ hle hget
    · exact fun hi => h'.fresh i handle (not_lt.mp hlt) hh (h.drift.issued _ hi)
  others x hx := by
    refine (h.others x fun handle hmem => ?_).trans (h'.others x hx)
    obtain ⟨i, hi⟩ := List.mem_iff_getElem?.mp hmem
    obtain ⟨handle', hh', ht, -⟩ := h'.kept i handle hi
    exact ht ▸ hx handle' (List.mem_of_getElem? hh')
  callbacks := h.callbacks.trans h'.callbacks

theorem mem_set_handle {handles : List Handle} {index : Nat} {handle h : Handle}
    (hm : h ∈ handles.set index handle) : h = handle ∨ h ∈ handles :=
  (List.mem_or_eq_of_mem_set hm).symm

theorem register_evolves {attempt : Attempt} (hs : attempt.Sound) (w : Workspace) :
    Evolves w (PluginScope.register attempt w).2 := by
  unfold PluginScope.register
  split_ifs with hclosed
  · exact .refl w
  · cases ha : attempt w.registries with
    | error error => exact .refl w
    | ok found =>
      obtain ⟨target, registries⟩ := found
      have hadmits := hs _ _ _ ha
      refine ⟨.of_admits hadmits, ?_, ?_, ?_, le_refl _⟩
      · intro i handle hh
        refine ⟨handle, ?_, rfl, fun hc => hc⟩
        change (w.scope.handles ++ [⟨target, false⟩])[i]? = some handle
        rw [List.getElem?_append_left (List.getElem?_eq_some_iff.mp hh).1, hh]
      · intro i handle hle hh
        change (w.scope.handles ++ [⟨target, false⟩])[i]? = some handle at hh
        rw [List.getElem?_append_right hle] at hh
        obtain ⟨hlt, rfl⟩ := List.getElem?_eq_some_iff.mp hh
        simp only [List.getElem_singleton]
        exact hadmits.fresh
      · intro x hx
        have hne : target ≠ x := hx ⟨target, false⟩ (List.mem_append_right _ List.mem_cons_self)
        exact hadmits.others x hne.symm

theorem register_books {attempt : Attempt} (hs : attempt.Sound)
    (h : ScopeBooks w.registries w.scope) :
    ScopeBooks (PluginScope.register attempt w).2.registries
      (PluginScope.register attempt w).2.scope := by
  unfold PluginScope.register
  split_ifs with hclosed
  · exact h
  · cases ha : attempt w.registries with
    | error error => exact h
    | ok found =>
      obtain ⟨target, registries⟩ := found
      have hadmits := hs _ _ _ ha
      refine ⟨?_, ?_⟩
      · intro handle hm
        rcases List.mem_append.mp hm with hold | hnew
        · exact hadmits.issued _ (h.issued handle hold)
        · cases List.mem_singleton.mp hnew
          exact hadmits.granted
      · intro handle hm hc
        rcases List.mem_append.mp hm with hold | hnew
        · have hne : handle.target ≠ target :=
            fun he => hadmits.fresh (he ▸ h.issued handle hold)
          rw [(hadmits.others _ hne).holds]
          exact h.gone handle hold hc
        · cases List.mem_singleton.mp hnew
          cases hc

theorem cancel_evolves (w : Workspace) (index : Nat) : Evolves w (w.cancel index) := by
  unfold Workspace.cancel
  cases hg : w.scope.handles[index]? with
  | none => exact .refl w
  | some handle =>
    cases hc : handle.cancelled with
    | true =>
      simp only [hc, if_true]
      exact .refl w
    | false =>
      simp only [hc, Bool.false_eq_true, if_false]
      have hr := release_releases (r := w.registries) handle.target
      refine ⟨.of_releases hr, ?_, ?_, ?_, le_refl _⟩
      · intro i h hh
        rw [List.getElem?_set]
        split_ifs with hi hlt
        · subst hi
          cases hg.symm.trans hh
          exact ⟨_, rfl, rfl, fun _ => rfl⟩
        · subst hi
          exact absurd (List.getElem?_eq_some_iff.mp hg).1 hlt
        · exact ⟨h, hh, rfl, fun hcancelled => hcancelled⟩
      · intro i h hle hh
        have := (List.getElem?_eq_some_iff.mp hh).1
        simp only [List.length_set] at this
        omega
      · intro x hx
        have hlt := (List.getElem?_eq_some_iff.mp hg).1
        have hne : handle.target ≠ x :=
          hx { handle with cancelled := true } (List.mem_set hlt _)
        exact hr.others x hne.symm

theorem cancel_books (h : ScopeBooks w.registries w.scope) (index : Nat) :
    ScopeBooks (w.cancel index).registries (w.cancel index).scope := by
  unfold Workspace.cancel
  cases hg : w.scope.handles[index]? with
  | none => exact h
  | some handle =>
    cases hc : handle.cancelled with
    | true =>
      simp only [hc, if_true]
      exact h
    | false =>
      simp only [hc, Bool.false_eq_true, if_false]
      have hr := release_releases (r := w.registries) handle.target
      have hm := List.mem_of_getElem? hg
      refine ⟨?_, ?_⟩
      · intro h' hm'
        rw [hr.issued]
        rcases mem_set_handle hm' with rfl | hm'
        · exact h.issued handle hm
        · exact h.issued h' hm'
      · intro h' hm' hc'
        by_cases ht : h'.target = handle.target
        · rw [ht]
          exact hr.gone
        · rw [(hr.others _ ht).holds]
          rcases mem_set_handle hm' with rfl | hm'
          · exact absurd rfl ht
          · exact h.gone h' hm' hc'

theorem cancel_cancelled {index : Nat} {h : Handle}
    (hg : (w.cancel index).scope.handles[index]? = some h) : h.cancelled = true := by
  unfold Workspace.cancel at hg
  cases hold : w.scope.handles[index]? with
  | none => simp only [hold, reduceCtorEq] at hg
  | some handle =>
    cases hc : handle.cancelled with
    | true =>
      simp only [hold, hc, if_true, Option.some.injEq] at hg
      rw [← hg, hc]
    | false =>
      simp only [hold, hc, Bool.false_eq_true, if_false] at hg
      rw [List.getElem?_set, if_pos rfl] at hg
      split_ifs at hg
      cases hg
      rfl

@[simp] theorem cancel_closed (w : Workspace) (index : Nat) :
    (w.cancel index).scope.closed = w.scope.closed := by
  unfold Workspace.cancel
  split
  · rfl
  · split_ifs <;> rfl

@[simp] theorem cancel_cleanup (w : Workspace) (index : Nat) :
    (w.cancel index).scope.cleanup = w.scope.cleanup ∧
      (w.cancel index).scope.callbacks = w.scope.callbacks ∧
      (w.cancel index).scope.ran = w.scope.ran := by
  unfold Workspace.cancel
  split
  · exact ⟨rfl, rfl, rfl⟩
  · split_ifs <;> exact ⟨rfl, rfl, rfl⟩

theorem length_cancel (w : Workspace) (index : Nat) :
    (w.cancel index).scope.handles.length = w.scope.handles.length := by
  unfold Workspace.cancel
  split
  · rfl
  · split_ifs
    · rfl
    · exact List.length_set

def Owned.callback? : Owned → Option Nat
  | .callback id => some id
  | .handle _ => none

-- While a scope is open every handle and every callback waits in its cleanup list; once closed it only shrinks.
structure Open (scope : PluginScope) : Prop where
  handles : ∀ i, i < scope.handles.length → .handle i ∈ scope.cleanup
  callbacks : scope.cleanup.filterMap Owned.callback? = List.range scope.callbacks
  ran : scope.ran = []

-- What a closed scope's code still may do: cancel what it holds.
structure Frozen (w w' : Workspace) : Prop where
  closed : w'.scope.closed = true
  length : w'.scope.handles.length = w.scope.handles.length
  callbacks : w'.scope.callbacks = w.scope.callbacks
  cleanup : w'.scope.cleanup = w.scope.cleanup

theorem Frozen.trans (h : Frozen w w') (h' : Frozen w' w'') : Frozen w w'' :=
  ⟨h'.closed, h'.length.trans h.length, h'.callbacks.trans h.callbacks,
    h'.cleanup.trans h.cleanup⟩

structure Acts (w w' : Workspace) : Prop where
  evolves : Evolves w w'
  books : ScopeBooks w.registries w.scope → ScopeBooks w'.registries w'.scope
  opened : w.scope.closed = false → w'.scope.closed = false ∧ (Open w.scope → Open w'.scope)
  frozen : w.scope.closed = true → Frozen w w' ∧ w'.scope.ran = w.scope.ran

theorem Acts.refl (w : Workspace) : Acts w w :=
  ⟨.refl w, fun h => h, fun h => ⟨h, fun ho => ho⟩, fun h => ⟨⟨h, rfl, rfl, rfl⟩, rfl⟩⟩

theorem Acts.trans (h : Acts w w') (h' : Acts w' w'') : Acts w w'' where
  evolves := h.evolves.trans h'.evolves
  books hb := h'.books (h.books hb)
  opened hc := by
    obtain ⟨hc', ho⟩ := h.opened hc
    obtain ⟨hc'', ho'⟩ := h'.opened hc'
    exact ⟨hc'', fun hopen => ho' (ho hopen)⟩
  frozen hc := by
    obtain ⟨hf, hr⟩ := h.frozen hc
    obtain ⟨hf', hr'⟩ := h'.frozen hf.closed
    exact ⟨hf.trans hf', hr'.trans hr⟩

theorem register_acts {attempt : Attempt} (hs : attempt.Sound) (w : Workspace) :
    Acts w (PluginScope.register attempt w).2 := by
  refine ⟨register_evolves hs w, register_books hs, ?_, ?_⟩
  · intro hc
    unfold PluginScope.register
    simp only [hc, Bool.false_eq_true, if_false]
    cases attempt w.registries with
    | error error => exact ⟨hc, fun ho => ho⟩
    | ok found =>
      refine ⟨hc, fun ho => ⟨?_, ?_, ho.ran⟩⟩
      · intro i hi
        simp only [PluginScope.hand, PluginScope.own, List.length_append, List.length_singleton] at hi ⊢
        rcases Nat.lt_succ_iff_lt_or_eq.mp hi with hi | rfl
        · exact List.mem_append_left _ (ho.handles i hi)
        · exact List.mem_append_right _ List.mem_cons_self
      · simp only [PluginScope.hand, PluginScope.own, List.filterMap_append, ho.callbacks]
        exact List.append_nil _
  · intro hc
    unfold PluginScope.register
    rw [if_pos hc]
    exact ⟨⟨hc, rfl, rfl, rfl⟩, rfl⟩

theorem cleanup_acts (w : Workspace) : Acts w (PluginScope.cleanupWith w).2 := by
  unfold PluginScope.cleanupWith
  cases hc : w.scope.closed with
  | true => exact .refl w
  | false =>
    simp only [Bool.false_eq_true, if_false]
    refine ⟨⟨.refl _, fun i h hh => ⟨h, hh, rfl, fun hc => hc⟩, ?_,
      fun x _ => Registries.untouched_refl x, Nat.le_succ _⟩, fun hb => ⟨hb.issued, hb.gone⟩, ?_,
      ?_⟩
    · intro i h hle hh
      exact absurd (List.getElem?_eq_some_iff.mp hh).1 (not_lt.mpr hle)
    · refine fun _ => ⟨hc, fun ho => ⟨fun i hi => ?_, ?_, ho.ran⟩⟩
      · exact List.mem_append_left _ (ho.handles i hi)
      · simp only [PluginScope.own, List.filterMap_append, ho.callbacks, List.range_succ]
        rfl
    · exact fun h => nomatch hc.symm.trans h

theorem cancel_acts (w : Workspace) (index : Nat) : Acts w (w.cancel index) where
  evolves := cancel_evolves w index
  books h := cancel_books h index
  opened hc := by
    obtain ⟨h₁, h₂, h₃⟩ := cancel_cleanup w index
    refine ⟨by rw [cancel_closed, hc], fun ho => ⟨?_, ?_, ?_⟩⟩
    · intro i hi
      rw [length_cancel] at hi
      rw [h₁]
      exact ho.handles i hi
    · rw [h₁, h₂, ho.callbacks]
    · rw [h₃, ho.ran]
  frozen hc := by
    obtain ⟨h₁, h₂, h₃⟩ := cancel_cleanup w index
    exact ⟨⟨by rw [cancel_closed, hc], length_cancel w index, h₂, h₁⟩, h₃⟩

theorem action_acts (action : Action) (w : Workspace) : Acts w (action.run w).2 := by
  cases action with
  | on event => exact register_acts (on_sound event) w
  | command root => exact register_acts (command_sound root) w
  | after delayTicks => exact register_acts (after_sound delayTicks) w
  | every intervalTicks => exact register_acts (every_sound intervalTicks) w
  | task => exact register_acts task_sound w
  | cleanup => exact cleanup_acts w
  | cancel index => exact cancel_acts w index

theorem runSteps_acts (steps : List (Action × Bool)) (w : Workspace) : Acts w (runSteps steps w).2 := by
  induction steps generalizing w with
  | nil => exact .refl w
  | cons step rest ih =>
    obtain ⟨action, catches⟩ := step
    have ha := action_acts action w
    rw [runSteps]
    split
    · rename_i w' heq
      rw [heq] at ha
      exact ha.trans (ih w')
    · rename_i error w' heq
      rw [heq] at ha
      split_ifs
      · exact ha.trans (ih w')
      · exact ha

theorem script_acts (script : Script) (w : Workspace) : Acts w (script.run w).2 := by
  have ha := runSteps_acts script.steps w
  unfold Script.run
  split <;> rename_i heq <;> rw [heq] at ha <;> exact ha

structure Released (r : Registries) (scope : PluginScope) : Prop where
  closed : scope.closed = true
  absent : ∀ h ∈ scope.handles, ¬r.holds h.target
  rootless : ∀ h ∈ scope.handles, ∀ id, h.target = .command id →
    ∀ name, r.commands.roots.get? name ≠ some id
  ran : scope.ran = (List.range scope.callbacks).reverse

structure Closing (w w' : Workspace) (owned : List Owned) : Prop where
  evolves : Evolves w w'
  books : ScopeBooks w.registries w.scope → ScopeBooks w'.registries w'.scope
  frozen : Frozen w w'
  ran : w'.scope.ran = w.scope.ran ++ owned.filterMap Owned.callback?
  cancelled : ∀ i, .handle i ∈ owned → ∀ h, w'.scope.handles[i]? = some h → h.cancelled = true

theorem ranCallback_acts (w : Workspace) (id : Nat) : Evolves w (w.ranCallback id) :=
  ⟨.refl _, fun _ h hh => ⟨h, hh, rfl, fun hc => hc⟩,
    fun _ _ hle hh => absurd (List.getElem?_eq_some_iff.mp hh).1 (not_lt.mpr hle),
    fun x _ => Registries.untouched_refl x, le_refl _⟩

theorem owned_closing (callbacks : Nat → Script) (owned : Owned) (hc : w.scope.closed = true) :
    Closing w (owned.run callbacks w).2 [owned] := by
  cases owned with
  | handle index =>
    have ha := cancel_acts w index
    obtain ⟨hf, hr⟩ := ha.frozen hc
    refine ⟨ha.evolves, ha.books, hf, hr.trans (List.append_nil _).symm, ?_⟩
    intro i hi h hg
    cases List.mem_singleton.mp hi
    exact cancel_cancelled hg
  | callback id =>
    have ha := script_acts (callbacks id) (w.ranCallback id)
    obtain ⟨hf, hr⟩ := ha.frozen hc
    refine ⟨(ranCallback_acts w id).trans ha.evolves, fun hb => ha.books ⟨hb.issued, hb.gone⟩,
      ⟨hf.closed, hf.length, hf.callbacks, hf.cleanup⟩, hr, ?_⟩
    intro i hi
    cases List.mem_singleton.mp hi

-- A cleanup that throws is only remembered: the loop goes on to the next one.
theorem closeLoop_closing (callbacks : Nat → Script) (owned : List Owned)
    (hc : w.scope.closed = true) : Closing w (closeLoop callbacks owned w).2 owned := by
  induction owned generalizing w with
  | nil =>
    exact ⟨.refl w, fun h => h, ⟨hc, rfl, rfl, rfl⟩, (List.append_nil _).symm, nofun⟩
  | cons first rest ih =>
    have hfirst := owned_closing callbacks first hc
    have hrest := ih hfirst.frozen.closed
    refine ⟨hfirst.evolves.trans hrest.evolves, fun hb => hrest.books (hfirst.books hb),
      hfirst.frozen.trans hrest.frozen, ?_, ?_⟩
    · rw [closeLoop, hrest.ran, hfirst.ran, List.append_assoc, ← List.filterMap_append]
      rfl
    · intro i hi h hg
      rcases List.mem_cons.mp hi with rfl | hi
      · have hlt := (List.getElem?_eq_some_iff.mp hg).1
        rw [closeLoop, hrest.frozen.length] at hlt
        have hget := List.getElem?_eq_getElem hlt
        obtain ⟨h', hg', -, hcancelled⟩ := hrest.evolves.kept i _ hget
        cases hg.symm.trans hg'
        exact hcancelled (hfirst.cancelled i List.mem_cons_self _ hget)
      · exact hrest.cancelled i hi h hg

theorem close_spec (callbacks : Nat → Script) (hb : ScopeBooks w.registries w.scope)
    (hc : w.scope.closed = false) (ho : Open w.scope) :
    Evolves w (PluginScope.close callbacks w).2 ∧
      ScopeBooks (PluginScope.close callbacks w).2.registries
        (PluginScope.close callbacks w).2.scope ∧
      Released (PluginScope.close callbacks w).2.registries
        (PluginScope.close callbacks w).2.scope := by
  unfold PluginScope.close
  simp only [hc, Bool.false_eq_true, if_false]
  generalize hw : ({ w with scope := { w.scope with closed := true } } : Workspace) = w₀
  have hclosed : w₀.scope.closed = true := by rw [← hw]
  have hsame : w₀.scope.handles = w.scope.handles ∧ w₀.registries = w.registries ∧
      w₀.scope.cleanup = w.scope.cleanup ∧ w₀.scope.callbacks = w.scope.callbacks ∧
      w₀.scope.ran = w.scope.ran := by
    rw [← hw]
    exact ⟨rfl, rfl, rfl, rfl, rfl⟩
  obtain ⟨hhandles, hregistries, hcleanup, hcallbacks, hran⟩ := hsame
  have hb₀ : ScopeBooks w₀.registries w₀.scope := by
    refine ⟨?_, ?_⟩
    · rw [hhandles, hregistries]
      exact hb.issued
    · rw [hhandles, hregistries]
      exact hb.gone
  have hcl := closeLoop_closing callbacks w.scope.cleanup.reverse hclosed
  generalize closeLoop callbacks w.scope.cleanup.reverse w₀ = result at hcl
  obtain ⟨failure, w'⟩ := result
  have hbooks := hcl.books hb₀
  have hcancelled : ∀ h ∈ w'.scope.handles, h.cancelled = true := by
    intro h hm
    obtain ⟨i, hi⟩ := List.mem_iff_getElem?.mp hm
    have hlt := (List.getElem?_eq_some_iff.mp hi).1
    rw [hcl.frozen.length, hhandles] at hlt
    exact hcl.cancelled i (List.mem_reverse.mpr (ho.handles i hlt)) h hi
  have habsent : ∀ h ∈ w'.scope.handles, ¬w'.registries.holds h.target :=
    fun h hm => hbooks.gone h hm (hcancelled h hm)
  refine ⟨⟨?_, ?_, ?_, ?_, ?_⟩, ⟨hbooks.issued, hbooks.gone⟩,
    ⟨hcl.frozen.closed, habsent, ?_, ?_⟩⟩
  · rw [← hregistries]
    exact hcl.evolves.drift
  · rw [← hhandles]
    exact hcl.evolves.kept
  · rw [← hhandles, ← hregistries]
    exact hcl.evolves.fresh
  · rw [← hregistries]
    exact hcl.evolves.others
  · rw [← hcallbacks]
    exact hcl.evolves.callbacks
  · intro h hm id ht name
    exact Registries.no_root (ht ▸ habsent h hm) name
  · rw [hcl.ran, hran, ho.ran, List.filterMap_reverse, ho.callbacks, hcl.frozen.callbacks,
      hcallbacks]
    rfl

end Cobblestone.Plugin
