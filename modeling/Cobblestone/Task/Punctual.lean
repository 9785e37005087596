import Cobblestone.Task.SchedulerProof

namespace Cobblestone.Task

open Lib

variable {log events : List Event} {s s' : Scheduler} {m m' : Machine} {id : Nat} {e : Event}
  {running : Option Nat} {frontier : Nat} {rest : List Nat}

def Scheduler.taskSide (s : Scheduler) :
    Nat × Nat × DueQueue × OrderedMap Nat ScheduledTask :=
  (s.tick, s.nextTaskId, s.taskQueue, s.tasks)

def Scheduler.fiberSide (s : Scheduler) :
    Nat × Nat × DueQueue × OrderedMap Nat Unit × OrderedMap Nat Unit × OrderedMap Nat Nat :=
  (s.tick, s.nextFiberId, s.sleepQueue, s.fibers, s.pendingFibers, s.sleeping)

theorem TaskBooks.congr (h : TaskBooks log s running frontier) (hs : s'.taskSide = s.taskSide) :
    TaskBooks log s' running frontier := by
  cases s
  cases s'
  simp only [Scheduler.taskSide, Prod.mk.injEq] at hs
  obtain ⟨rfl, rfl, rfl, rfl⟩ := hs
  exact ⟨h.clock, h.issued, h.listed, h.current, h.bound, h.deadline, h.period, h.positive,
    h.queued, h.overdue⟩

theorem FiberBooks.congr (h : FiberBooks log s running rest frontier)
    (hs : s'.fiberSide = s.fiberSide) : FiberBooks log s' running rest frontier := by
  cases s
  cases s'
  simp only [Scheduler.fiberSide, Prod.mk.injEq] at hs
  obtain ⟨rfl, rfl, rfl, rfl, rfl, rfl⟩ := hs
  exact ⟨h.clock, h.bound, h.issued, h.below, h.asleep, h.waiting, h.alive, h.apart, h.awake,
    h.queued, h.late, h.snapshot⟩

@[simp] theorem fiberSide_compact :
    s.compactTaskQueueIfNeeded.fiberSide = s.fiberSide := by
  unfold Scheduler.compactTaskQueueIfNeeded
  split_ifs <;> rfl

def Control.task : Control → Option Nat
  | .inTask taskId _ => some taskId
  | _ => none

def Control.fiber : Control → Option Nat
  | .inStart fiberId _ | .inWake fiberId => some fiberId
  | _ => none

def Control.snapshot : Control → List Nat
  | .startingFibers rest | .inStart _ rest => rest
  | _ => []

def Control.taskFrontier (tick : Nat) : Control → Nat
  | .runningTasks | .inTask _ _ => tick
  | _ => tick + 1

def Control.wakeFrontier (tick : Nat) : Control → Nat
  | .idle => tick + 1
  | _ => tick

structure Books (log : List Event) (m : Machine) : Prop where
  tasks : TaskBooks log m.scheduler m.control.task (m.control.taskFrontier m.scheduler.tick)
  fibers : FiberBooks log m.scheduler m.control.fiber m.control.snapshot
    (m.control.wakeFrontier m.scheduler.tick)
  held : ∀ id scheduled, m.control = .inTask id scheduled → period id log = scheduled.interval

theorem Books.start : Books [] .new where
  tasks := ⟨rfl, fun _ hk => absurd hk not_known_nil, nofun, nofun, le_refl _, fun _ => rfl,
    nofun, nofun, nofun, nofun⟩
  fibers := ⟨rfl, le_refl _, nofun, nofun, fun _ => rfl, fun _ => rfl, fun _ h => h.elim nofun nofun,
    nofun, nofun, nofun, nofun, ⟨List.nodup_nil, nofun⟩⟩
  held := nofun

structure Performed (log events : List Event) (s s' : Scheduler) (running fiber : Option Nat)
    (frontier : Nat) (rest : List Nat) (wakes : Nat) : Prop where
  tasks : TaskBooks (events ++ log) s' running frontier
  fibers : FiberBooks (events ++ log) s' fiber rest wakes
  punctual : Punctual (events ++ log)
  period : ∀ id, known id log → period id (events ++ log) = Task.period id log
  tick : s'.tick = s.tick

theorem perform_spec {fiber : Option Nat} {wakes : Nat} (ht : TaskBooks log s running frontier)
    (hf : FiberBooks log s fiber rest wakes) (hp : Punctual log) (c : Call) :
    Performed log (s.perform c).1 s (s.perform c).2 running fiber frontier rest wakes := by
  have hidle : Performed log [] s s running fiber frontier rest wakes :=
    ⟨ht, hf, hp, fun _ _ => rfl, rfl⟩
  cases c with
  | schedule delayTicks =>
    by_cases hneg : delayTicks < 0
    · simpa only [Scheduler.perform, Scheduler.schedule, if_pos hneg] using hidle
    · simp only [Scheduler.perform, Scheduler.schedule, if_neg hneg]
      have hd : ∀ id, deadline id (.scheduled s.nextTaskId delayTicks.toNat :: log) =
          if s.nextTaskId = id then some (s.tick + max 1 delayTicks.toNat)
          else deadline id log := by
        intro id
        rw [deadline, ht.clock]
      have hper : ∀ id, Task.period id (.scheduled s.nextTaskId delayTicks.toNat :: log) =
          if s.nextTaskId = id then none else Task.period id log := by
        intro id
        split_ifs with hid
        · subst hid
          exact (unknown_spec ht.fresh).1
        · rfl
      exact ⟨ht.enlist rfl (by omega) (fun _ h => by cases h) hd hper, (hf.ofTasks rfl).congr rfl,
        hp.cons ht.fresh, fun _ _ => rfl, rfl⟩
  | repeatTask intervalTicks =>
    by_cases hneg : intervalTicks ≤ 0
    · simpa only [Scheduler.perform, Scheduler.repeatTask, if_pos hneg] using hidle
    · simp only [Scheduler.perform, Scheduler.repeatTask, if_neg hneg]
      have hpos : 0 < intervalTicks.toNat := by omega
      have hd : ∀ id, deadline id (.repeated s.nextTaskId intervalTicks.toNat :: log) =
          if s.nextTaskId = id then some (s.tick + intervalTicks.toNat) else deadline id log := by
        intro id
        rw [deadline, ht.clock]
      refine ⟨ht.enlist rfl (by omega) (by rintro n ⟨⟩; exact hpos) hd fun _ => rfl,
        (hf.ofTasks rfl).congr rfl, hp.cons ⟨hpos, ht.fresh⟩, ?_, rfl⟩
      intro id hk
      have hne : s.nextTaskId ≠ id := by
        rintro rfl
        exact ht.fresh hk
      exact if_neg hne
  | spawn =>
    have hnew : ∀ e ∈ log, e.fiber? ≠ some s.nextFiberId :=
      fun e he hid => lt_irrefl _ (hf.issued e he _ hid)
    exact ⟨(ht.ofFibers rfl).congr rfl, hf.spawn, hp.cons hnew, fun _ _ => rfl, rfl⟩
  | cancelTask taskId =>
    cases hg : s.tasks.get? taskId with
    | none =>
      simpa only [Scheduler.perform, Scheduler.cancelScheduledTask, hg, Option.isNone_none,
        if_true] using hidle
    | some task =>
      simp only [Scheduler.perform, Scheduler.cancelScheduledTask, hg, Option.isNone_some,
        Bool.false_eq_true, if_false]
      have hk := ht.listed taskId task hg
      have hdrop : TaskBooks (.cancelled taskId :: log)
          { s with
            tasks := s.tasks.unset taskId
            staleTaskEntries := s.staleTaskEntries + 1 } running frontier :=
        (ht.drop (.inl rfl)).congr rfl
      exact ⟨hdrop.compact, (hf.ofTasks rfl).congr fiberSide_compact, hp.cons hk, fun _ _ => rfl,
        compact_tick⟩
  | cancelFiber fiberId =>
    cases hg : s.fibers.get? fiberId with
    | none =>
      simpa only [Scheduler.perform, Scheduler.cancelFiber, hg, Option.isNone_none,
        if_true] using hidle
    | some _ =>
      simp only [Scheduler.perform, Scheduler.cancelFiber, hg, Option.isNone_some,
        Bool.false_eq_true, if_false]
      exact ⟨(ht.ofFibers rfl).congr rfl, hf.ended, hp.cons trivial, fun _ _ => rfl, rfl⟩
  | shutdown => exact ⟨ht.shutdown, hf.shutdown, hp.cons trivial, fun _ _ => rfl, rfl⟩

structure Keeps (log events : List Event) (m : Machine) : Prop where
  books : Books (events ++ log) m
  punctual : Punctual (events ++ log)

theorem TaskBooks.due_later (h : TaskBooks log s none frontier)
    (hq : ∀ due, s.taskQueue.peekDue = some due → s.tick < due) {task : ScheduledTask}
    (hg : s.tasks.get? id = some task) : s.tick < task.due :=
  DueQueue.lt_due_of_mem hq (h.queued id task hg nofun)

theorem TaskBooks.deadline_later (h : TaskBooks log s none frontier)
    (hq : ∀ due, s.taskQueue.peekDue = some due → s.tick < due) {due : Nat}
    (hd : Task.deadline id log = some due) : s.tick < due := by
  rw [h.deadline] at hd
  cases hg : s.tasks.get? id with
  | none =>
    rw [booked_of_none hg] at hd
    cases hd
  | some task =>
    rw [booked_of_get hg] at hd
    cases hd
    exact h.due_later hq hg

theorem keeps_tasksDone (ht : TaskBooks log s none s.tick) (hf : FiberBooks log s none [] s.tick)
    (hp : Punctual log) (hq : ∀ due, s.taskQueue.peekDue = some due → s.tick < due) :
    Keeps log s.tasksDone.1 s.tasksDone.2 where
  books :=
    { tasks := ht.loopOver (.inr rfl) fun _ _ _ hg => ht.due_later hq hg
      fibers := (hf.ofTasks rfl).listed
      held := nofun }
  punctual := hp.cons ⟨ht.clock.symm, fun _ _ hd => ht.deadline_later hq hd⟩

theorem keeps_runDueTasks (ht : TaskBooks log s none s.tick) (hf : FiberBooks log s none [] s.tick)
    (hp : Punctual log) : Keeps log s.runDueTasks.1 s.runDueTasks.2 := by
  unfold Scheduler.runDueTasks
  cases hpeek : s.taskQueue.peekDue with
  | none => exact keeps_tasksDone ht hf hp (by rw [hpeek]; nofun)
  | some due =>
    by_cases hlt : s.tick < due
    · simp only [if_pos hlt]
      exact keeps_tasksDone ht hf hp (by rw [hpeek]; rintro _ ⟨⟩; exact hlt)
    · simp only [if_neg hlt]
      cases hpop : s.taskQueue.pop with
      | none =>
        unfold DueQueue.peekDue at hpeek
        obtain ⟨root, hroot, -⟩ := Option.map_eq_some_iff.mp hpeek
        obtain ⟨_, he, -⟩ := BinaryHeap.pop_of_peek hroot
        exact nomatch hpop.symm.trans he
      | some popped =>
        obtain ⟨entry, queue⟩ := popped
        have hdue := DueQueue.peekDue_of_pop hpop
        rw [hpeek] at hdue
        cases hdue
        cases hg : s.tasks.get? entry.id with
        | none =>
          simp only [hg]
          refine ⟨⟨ht.popped hpop ?_, hf.congr rfl, nofun⟩, hp⟩
          exact fun task hg' => nomatch hg.symm.trans hg'
        | some task =>
          simp only [hg]
          by_cases hmatch : task.due ≠ entry.due
          · rw [if_pos hmatch]
            refine ⟨⟨(ht.popped hpop ?_ : TaskBooks log { s with taskQueue := queue } _ _),
              hf.congr rfl, nofun⟩, hp⟩
            rintro task' hg'
            cases hg.symm.trans hg'
            exact hmatch
          · rw [if_neg hmatch]
            have hd : task.due = entry.due := not_not.mp hmatch
            have hdeadline : deadline entry.id log = some entry.due := by
              rw [ht.deadline, booked_of_get hg, hd]
            refine ⟨⟨ht.runs hpop hg, (hf.ofTasks rfl).congr rfl, ?_⟩, hp.cons ?_⟩
            · rintro id scheduled ⟨⟩
              exact ht.period _ _ hg
            · exact ⟨ht.clock.symm, entry.due, hdeadline, not_lt.mp hlt, fun t' hle hlt' =>
                ht.overdue _ task t' hg nofun (hd ▸ hle) hlt'⟩

theorem keeps_startPendingFibers (ht : TaskBooks log s none (s.tick + 1))
    (hf : FiberBooks log s none rest s.tick) (hp : Punctual log) :
    Keeps log (s.startPendingFibers rest).1 (s.startPendingFibers rest).2 := by
  unfold Scheduler.startPendingFibers
  cases rest with
  | nil => exact ⟨⟨ht, hf, nofun⟩, hp⟩
  | cons id rest =>
    cases hg : s.fibers.get? id with
    | none =>
      simp only [hg]
      exact ⟨⟨ht.congr rfl, hf.skipped hg, nofun⟩, hp⟩
    | some _ =>
      simp only [hg]
      have hsome : (s.fibers.get? id).isSome := by
        rw [hg]
        rfl
      have hwaiting : waiting id log = true := by
        rw [hf.waiting]
        exact (hf.snapshot.2 id List.mem_cons_self).2 hsome
      exact ⟨⟨(ht.ofFibers rfl).congr rfl, hf.started hsome, nofun⟩,
        hp.cons ⟨hf.clock.symm, hwaiting⟩⟩

theorem keeps_wakesDone (ht : TaskBooks log s none (s.tick + 1))
    (hf : FiberBooks log s none [] s.tick) (hp : Punctual log)
    (hq : ∀ wake, s.sleepQueue.peekDue = some wake → s.tick < wake) :
    Keeps log s.wakesDone.1 s.wakesDone.2 := by
  have hlater : ∀ id wake, s.sleeping.get? id = some wake → s.tick < wake :=
    fun id wake hg => DueQueue.lt_due_of_mem hq (hf.queued id wake hg)
  refine ⟨⟨ht.ofFibers rfl, (hf.noted (.inl rfl)).tickOver (.inr hlater), nofun⟩, hp.cons ?_⟩
  refine ⟨hf.clock.symm, fun id wake hd => hlater id wake ?_⟩
  rw [← hf.asleep, hd]

theorem keeps_wakeSleepingFibers (ht : TaskBooks log s none (s.tick + 1))
    (hf : FiberBooks log s none [] s.tick) (hp : Punctual log) :
    Keeps log s.wakeSleepingFibers.1 s.wakeSleepingFibers.2 := by
  unfold Scheduler.wakeSleepingFibers
  cases hpeek : s.sleepQueue.peekDue with
  | none => exact keeps_wakesDone ht hf hp (by rw [hpeek]; nofun)
  | some wake =>
    by_cases hlt : s.tick < wake
    · simp only [if_pos hlt]
      exact keeps_wakesDone ht hf hp (by rw [hpeek]; rintro _ ⟨⟩; exact hlt)
    · simp only [if_neg hlt]
      cases hpop : s.sleepQueue.pop with
      | none =>
        unfold DueQueue.peekDue at hpeek
        obtain ⟨root, hroot, -⟩ := Option.map_eq_some_iff.mp hpeek
        obtain ⟨_, he, -⟩ := BinaryHeap.pop_of_peek hroot
        exact nomatch hpop.symm.trans he
      | some popped =>
        obtain ⟨entry, queue⟩ := popped
        have hdue := DueQueue.peekDue_of_pop hpop
        rw [hpeek] at hdue
        cases hdue
        by_cases hstale : s.sleeping.get? entry.id ≠ some entry.due
        · simp only [if_pos hstale]
          exact ⟨⟨ht.congr rfl, hf.popped hpop hstale, nofun⟩, hp⟩
        · have hs : s.sleeping.get? entry.id = some entry.due := not_not.mp hstale
          have hasleep : asleep entry.id log = some entry.due := by rw [hf.asleep, hs]
          have halive := hf.alive entry.id (.inl (by rw [hs]; rfl))
          obtain ⟨fiber, hg⟩ := Option.isSome_iff_exists.mp halive
          simp only [if_neg hstale, hg]
          exact ⟨⟨(ht.ofFibers rfl).congr rfl, hf.woke hpop hs, nofun⟩, hp.cons
            ⟨hf.clock.symm, entry.due, hasleep, not_lt.mp hlt, fun t' hle hlt' =>
              hf.late _ _ t' hs hle hlt'⟩⟩

theorem keeps_fiberStopped {next : Control} (ht : TaskBooks log s none (s.tick + 1))
    (hf : FiberBooks log s (some id) rest s.tick) (hp : Punctual log)
    (hnext : ∀ {log : List Event} {s : Scheduler}, TaskBooks log s none (s.tick + 1) →
      FiberBooks log s none rest s.tick → Books log ⟨s, next⟩)
    (outcome : FiberOutcome) :
    Keeps log (s.fiberStopped id next outcome).1 (s.fiberStopped id next outcome).2 := by
  have hgone : Keeps log [] ⟨s, next⟩ := ⟨hnext ht hf.between, hp⟩
  have hended : Keeps log [.fiberEnded id] ⟨s.forgetFiber id, next⟩ :=
    ⟨hnext ((ht.ofFibers rfl).congr rfl) hf.ended.between, hp.cons trivial⟩
  have hleft : Keeps log [.fibersLeft s.tick, .fiberEnded id] ⟨s.forgetFiber id, .idle⟩ := by
    have hsettled : FiberBooks (.fibersLeft s.tick :: .fiberEnded id :: log) (s.forgetFiber id)
        none [] s.tick := hf.ended.settle.noted (.inr rfl)
    have hpunctual : Punctual (.fiberEnded id :: log) := hp.cons trivial
    refine ⟨⟨((ht.ofFibers rfl).ofFibers rfl).congr rfl, ?_, nofun⟩,
      hpunctual.cons hf.clock.symm⟩
    exact hsettled.tickOver (.inl (.inr List.mem_cons_self))
  cases outcome with
  | threw => exact hleft
  | terminated =>
    cases hg : s.fibers.get? id with
    | none => simpa only [Scheduler.fiberStopped, hg] using hgone
    | some _ => simpa only [Scheduler.fiberStopped, hg] using hended
  | suspended =>
    cases hg : s.fibers.get? id with
    | none => simpa only [Scheduler.fiberStopped, hg] using hgone
    | some _ => simpa only [Scheduler.fiberStopped, hg] using hleft
  | slept sleep =>
    cases hg : s.fibers.get? id with
    | none => simpa only [Scheduler.fiberStopped, hg] using hgone
    | some _ =>
      simp only [Scheduler.fiberStopped, hg]
      refine ⟨hnext ((ht.ofFibers rfl).congr rfl) (hf.slept sleep (by rw [hg]; rfl)),
        hp.cons ⟨sleep.positive, ?_⟩⟩
      rw [hf.asleep, (hf.awake id rfl).1]

theorem Books.step (h : Books log m) (hp : Punctual log) (hs : Step m events m') :
    Keeps log events m' := by
  cases hs with
  | call c hy =>
    obtain ⟨ht, hf, hp', hperiod, htick⟩ := perform_spec h.tasks h.fibers hp c
    refine ⟨⟨?_, ?_, ?_⟩, hp'⟩
    · simpa only [htick] using ht
    · simpa only [htick] using hf
    · rintro id scheduled ⟨⟩
      rw [hperiod id (h.tasks.current id rfl)]
      exact h.held id scheduled rfl
  | @tick s =>
    have hnow : Justified log (.ticked (s.tick + 1)) := by
      rw [Justified, h.tasks.clock]
    exact ⟨⟨h.tasks.ticked, h.fibers.ticked, fun _ _ h => by cases h⟩, hp.cons hnow⟩
  | runDueTasks => exact keeps_runDueTasks h.tasks h.fibers hp
  | @taskReturned s id scheduled =>
    have hside : (s.taskReturned id scheduled).fiberSide = s.fiberSide := by
      unfold Scheduler.taskReturned
      cases s.tasks.get? id <;> cases scheduled.interval <;> rfl
    have htick : (s.taskReturned id scheduled).tick = s.tick := congrArg Prod.fst hside
    have hint : ∀ current, s.tasks.get? id = some current →
        current.interval = scheduled.interval := by
      intro current hg
      rw [← h.tasks.period id current hg]
      exact h.held id scheduled rfl
    refine ⟨⟨?_, ?_, fun _ _ h => by cases h⟩, hp⟩
    · change TaskBooks log (s.taskReturned id scheduled) none (s.taskReturned id scheduled).tick
      rw [htick]
      exact h.tasks.returned hint
    · change FiberBooks log (s.taskReturned id scheduled) none [] (s.taskReturned id scheduled).tick
      rw [htick]
      exact h.fibers.congr hside
  | @taskThrew s id scheduled =>
    have hdrop : TaskBooks (.threw id :: log) (s.taskThrew id) none s.tick :=
      (h.tasks.drop (.inr rfl)).weaken OrderedMap.get?_unset_self rfl
    have hfibers : FiberBooks (.tasksLeft s.tick :: .threw id :: log) (s.taskThrew id) none []
        s.tick := ((h.fibers.ofTasks rfl).ofTasks rfl).congr rfl
    refine ⟨⟨hdrop.loopOver (.inl rfl) (fun hne => absurd rfl hne),
      hfibers.tickOver (.inl (.inl List.mem_cons_self)), fun _ _ h => by cases h⟩, ?_⟩
    have hpunctual : Punctual (.threw id :: log) := hp.cons (h.tasks.current id rfl)
    exact hpunctual.cons hdrop.clock.symm
  | startPendingFibers => exact keeps_startPendingFibers h.tasks h.fibers hp
  | @startedFiberStopped _ _ rest outcome =>
    have hnext : ∀ {log : List Event} {s : Scheduler}, TaskBooks log s none (s.tick + 1) →
        FiberBooks log s none rest s.tick → Books log ⟨s, .startingFibers rest⟩ :=
      fun ht hf => ⟨ht, hf, fun _ _ h => by cases h⟩
    exact keeps_fiberStopped h.tasks h.fibers hp hnext outcome
  | wakeSleepingFibers => exact keeps_wakeSleepingFibers h.tasks h.fibers hp
  | wokenFiberStopped outcome =>
    have hnext : ∀ {log : List Event} {s : Scheduler}, TaskBooks log s none (s.tick + 1) →
        FiberBooks log s none [] s.tick → Books log ⟨s, .wakingFibers⟩ :=
      fun ht hf => ⟨ht, hf, fun _ _ h => by cases h⟩
    exact keeps_fiberStopped h.tasks h.fibers hp hnext outcome

theorem Run.keeps (h : Run log m) : Books log m ∧ Punctual log := by
  induction h with
  | start => exact ⟨.start, .nil⟩
  | step _ hs ih =>
    have hk := ih.1.step ih.2 hs
    exact ⟨hk.books, hk.punctual⟩

def throwingLog : List Event :=
  [.ran 2 2, .ticked 2, .tasksLeft 1, .threw 1, .ran 1 1, .ticked 1, .scheduled 2 1, .scheduled 1 1]

theorem throwing_run : ∃ m, Run throwingLog m :=
  Run.of_moves [.call (.schedule 1), .call (.schedule 1), .go, .go, .taskThrows, .go, .go]
    (by decide +kernel)

end Cobblestone.Task
