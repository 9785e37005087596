import Cobblestone.Plugin.Plugins
import Cobblestone.Plugin.ScopeProof

namespace Cobblestone.Plugin

open Lib Cobblestone.Task

variable {r r' : Registries} {x : Registration}

theorem Drifts.of_scheduler {s : Scheduler} (hnext : r.scheduler.nextTaskId ≤ s.nextTaskId)
    (hfiber : r.scheduler.nextFiberId ≤ s.nextFiberId)
    (htasks : ∀ id, r.scheduler.tasks.get? id = none → id < r.scheduler.nextTaskId →
      s.tasks.get? id = none)
    (hfibers : ∀ id, r.scheduler.fibers.get? id = none → id < r.scheduler.nextFiberId →
      s.fibers.get? id = none) : Drifts r { r with scheduler := s } where
  issued x hx := by
    cases x with
    | listener event id => exact hx
    | command id => exact hx
    | task id => exact Nat.lt_of_lt_of_le hx hnext
    | fiber id => exact Nat.lt_of_lt_of_le hx hfiber
  absent x hx hn := by
    cases x with
    | listener event id => exact hn
    | command id => exact hn
    | task id =>
      have hnone := htasks id (Option.not_isSome_iff_eq_none.mp hn) hx
      simp [Registries.holds, hnone]
    | fiber id =>
      have hnone := hfibers id (Option.not_isSome_iff_eq_none.mp hn) hx
      simp [Registries.holds, hnone]

structure SchedulerDrifts (s s' : Scheduler) : Prop where
  nextTaskId : s.nextTaskId ≤ s'.nextTaskId
  nextFiberId : s.nextFiberId ≤ s'.nextFiberId
  tasks : ∀ id, s.tasks.get? id = none → id < s.nextTaskId → s'.tasks.get? id = none
  fibers : ∀ id, s.fibers.get? id = none → id < s.nextFiberId → s'.fibers.get? id = none

theorem SchedulerDrifts.of_eq {s s' : Scheduler} (h₁ : s'.nextTaskId = s.nextTaskId)
    (h₂ : s'.nextFiberId = s.nextFiberId) (h₃ : s'.tasks = s.tasks) (h₄ : s'.fibers = s.fibers) :
    SchedulerDrifts s s' :=
  ⟨h₁.ge, h₂.ge, fun id hn _ => by rw [h₃, hn], fun id hn _ => by rw [h₄, hn]⟩

theorem enlist_drifts (s : Scheduler) (due : Nat) (interval : Option Nat) :
    SchedulerDrifts s (s.enlist due interval) := by
  refine ⟨Nat.le_succ _, le_refl _, fun id hn hlt => ?_, fun id hn _ => hn⟩
  rw [Scheduler.enlist, OrderedMap.get?_set, if_neg hlt.ne, hn]

theorem forget_drifts (s : Scheduler) (fiberId : Nat) : SchedulerDrifts s (s.forgetFiber fiberId) := by
  refine ⟨le_refl _, le_refl _, fun id hn _ => hn, fun id hn _ => ?_⟩
  rw [Scheduler.forgetFiber, OrderedMap.get?_unset, hn, ite_self]

theorem unset_drifts (s : Scheduler) (taskId : Nat) : SchedulerDrifts s (s.taskThrew taskId) := by
  refine ⟨le_refl _, le_refl _, fun id hn _ => ?_, fun id hn _ => hn⟩
  rw [Scheduler.taskThrew, OrderedMap.get?_unset, hn, ite_self]

theorem perform_drifts (s : Scheduler) (c : Call) : SchedulerDrifts s (s.perform c).2 := by
  have hidle : SchedulerDrifts s s := .of_eq rfl rfl rfl rfl
  cases c with
  | schedule delayTicks =>
    by_cases hneg : delayTicks < 0
    · simpa only [Scheduler.perform, Scheduler.schedule, if_pos hneg] using hidle
    · simpa only [Scheduler.perform, Scheduler.schedule, if_neg hneg] using enlist_drifts s _ _
  | repeatTask intervalTicks =>
    by_cases hneg : intervalTicks ≤ 0
    · simpa only [Scheduler.perform, Scheduler.repeatTask, if_pos hneg] using hidle
    · simpa only [Scheduler.perform, Scheduler.repeatTask, if_neg hneg] using enlist_drifts s _ _
  | spawn =>
    refine ⟨le_refl _, Nat.le_succ _, fun id hn _ => hn, fun id hn hlt => ?_⟩
    change (s.fibers.set s.nextFiberId ()).get? id = none
    rw [OrderedMap.get?_set, if_neg hlt.ne, hn]
  | cancelTask taskId =>
    by_cases hgone : (s.tasks.get? taskId).isNone
    · simpa only [Scheduler.perform, Scheduler.cancelScheduledTask, if_pos hgone] using hidle
    · simp only [Scheduler.perform, Scheduler.cancelScheduledTask, if_neg hgone]
      obtain ⟨h₁, h₂, h₃, h₄, -, -⟩ := compact_fibers
        { s with
          tasks := s.tasks.unset taskId
          staleTaskEntries := s.staleTaskEntries + 1 }
      refine ⟨h₁.ge, h₂.ge, fun id hn _ => ?_, fun id hn _ => ?_⟩
      · simp only [h₃]
        rw [OrderedMap.get?_unset, hn, ite_self]
      · simp only [h₄]
        exact hn
  | cancelFiber fiberId =>
    by_cases hgone : (s.fibers.get? fiberId).isNone
    · simpa only [Scheduler.perform, Scheduler.cancelFiber, if_pos hgone] using hidle
    · simpa only [Scheduler.perform, Scheduler.cancelFiber, if_neg hgone] using
        forget_drifts s fiberId
  | shutdown => exact ⟨le_refl _, le_refl _, fun _ _ _ => rfl, fun _ _ _ => rfl⟩

theorem fiberStopped_drifts (s : Scheduler) (fiberId : Nat) (next : Control)
    (outcome : FiberOutcome) :
    SchedulerDrifts s (s.fiberStopped fiberId next outcome).2.scheduler := by
  unfold Scheduler.fiberStopped
  split
  · exact forget_drifts s fiberId
  · split
    · exact .of_eq rfl rfl rfl rfl
    · exact forget_drifts s fiberId
  · split
    · exact .of_eq rfl rfl rfl rfl
    · exact .of_eq rfl rfl rfl rfl
  · split
    · exact .of_eq rfl rfl rfl rfl
    · exact forget_drifts s fiberId

theorem taskReturned_drifts (s : Scheduler) (taskId : Nat) (scheduled : ScheduledTask) :
    SchedulerDrifts s (s.taskReturned taskId scheduled) := by
  unfold Scheduler.taskReturned
  cases hg : s.tasks.get? taskId with
  | none => exact .of_eq rfl rfl rfl rfl
  | some current =>
    cases scheduled.interval with
    | none => exact unset_drifts s taskId
    | some interval =>
      refine ⟨le_refl _, le_refl _, fun id hn _ => ?_, fun id hn _ => hn⟩
      have hne : id ≠ taskId := by
        rintro rfl
        exact nomatch hn.symm.trans hg
      change (s.tasks.set taskId _).get? id = none
      rw [OrderedMap.get?_set, if_neg hne, hn]

theorem step_drifts {s : Scheduler} {control : Control} {events : List Event} {m : Machine}
    (h : Task.Step ⟨s, control⟩ events m) : SchedulerDrifts s m.scheduler := by
  cases h with
  | call c _ => exact perform_drifts s c
  | tick => exact .of_eq rfl rfl rfl rfl
  | runDueTasks =>
    unfold Scheduler.runDueTasks Scheduler.tasksDone
    split
    · exact .of_eq rfl rfl rfl rfl
    · split_ifs
      · exact .of_eq rfl rfl rfl rfl
      · split
        · exact .of_eq rfl rfl rfl rfl
        · split
          · exact .of_eq rfl rfl rfl rfl
          · split_ifs
            · exact .of_eq rfl rfl rfl rfl
            · exact .of_eq rfl rfl rfl rfl
  | taskReturned => exact taskReturned_drifts s _ _
  | taskThrew => exact unset_drifts s _
  | startPendingFibers =>
    unfold Scheduler.startPendingFibers
    split
    · exact .of_eq rfl rfl rfl rfl
    · split
      · exact .of_eq rfl rfl rfl rfl
      · exact .of_eq rfl rfl rfl rfl
  | startedFiberStopped outcome => exact fiberStopped_drifts s _ _ outcome
  | wakeSleepingFibers =>
    unfold Scheduler.wakeSleepingFibers Scheduler.wakesDone
    split
    · exact .of_eq rfl rfl rfl rfl
    · split_ifs
      · exact .of_eq rfl rfl rfl rfl
      · split
        · exact .of_eq rfl rfl rfl rfl
        · split_ifs
          · exact .of_eq rfl rfl rfl rfl
          · split
            · exact .of_eq rfl rfl rfl rfl
            · exact .of_eq rfl rfl rfl rfl
  | wokenFiberStopped outcome => exact fiberStopped_drifts s _ _ outcome

theorem Outside.drifts (h : Outside r r') : Drifts r r' := by
  cases h with
  | listen hl => exact .of_admits (listen_admits hl)
  | removeListener event id => exact .of_releases (remove_listener_releases event id)
  | dispatch isA event =>
    unfold Dispatcher.resolvedListeners
    split
    · exact ⟨fun _ hx => hx, fun _ _ hn => hn⟩
    · exact ⟨fun x hx => by cases x <;> exact hx, fun x _ hn => by cases x <;> exact hn⟩
  | registerCommand hl => exact .of_admits (register_admits hl)
  | removeCommand id => exact .of_releases (remove_command_releases id)
  | scheduler hs =>
    have hd := step_drifts hs
    exact .of_scheduler hd.nextTaskId hd.nextFiberId hd.tasks hd.fibers

end Cobblestone.Plugin
