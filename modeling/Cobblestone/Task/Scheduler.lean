import Cobblestone.Lib.BinaryHeap
import Cobblestone.Lib.OrderedMap
import Cobblestone.Task.Timetable
import Mathlib.Data.Prod.Lex

namespace Cobblestone.Task

open Lib

@[ext]
structure Entry where
  due : Nat
  id : Nat
deriving DecidableEq, Repr

def Entry.key (e : Entry) : ℕ ×ₗ ℕ := toLex (e.due, e.id)

theorem Entry.key_injective : Function.Injective Entry.key := by
  intro a b h
  have := toLex.injective h
  exact Entry.ext (congrArg Prod.fst this) (congrArg Prod.snd this)

instance : LinearOrder Entry := LinearOrder.lift' Entry.key Entry.key_injective

theorem Entry.before {left right : Entry} :
    left < right ↔ left.due < right.due ∨ left.due = right.due ∧ left.id < right.id :=
  Prod.Lex.toLex_lt_toLex

theorem Entry.due_le {left right : Entry} (h : left ≤ right) : left.due ≤ right.due := by
  rcases Prod.Lex.toLex_le_toLex.mp h with h | h
  · exact h.le
  · exact h.1.le

abbrev DueQueue := BinaryHeap Entry

namespace DueQueue

def peekDue (queue : DueQueue) : Option Nat := queue.peek.map Entry.due

def push (queue : DueQueue) (due id : Nat) : DueQueue := BinaryHeap.push queue ⟨due, id⟩

def clear : DueQueue := BinaryHeap.empty

variable {queue rest : DueQueue} {e : Entry}

@[simp] theorem contents_push (due id : Nat) :
    (queue.push due id).contents = ⟨due, id⟩ ::ₘ queue.contents :=
  BinaryHeap.contents_push _

@[simp] theorem contents_clear : clear.contents = 0 := rfl

theorem lt_due_of_mem {tick : Nat} (h : ∀ due, queue.peekDue = some due → tick < due)
    (he : e ∈ queue.contents) : tick < e.due := by
  cases hp : queue.peek with
  | none =>
    rw [BinaryHeap.peek_eq_none.mp hp] at he
    exact absurd he (Multiset.notMem_zero e)
  | some root =>
    have hlt := h root.due (by rw [peekDue, hp]; rfl)
    exact hlt.trans_le (Entry.due_le (BinaryHeap.peek_le hp he))

theorem peekDue_of_pop (h : queue.pop = some (e, rest)) : queue.peekDue = some e.due := by
  rw [peekDue, (BinaryHeap.pop_some h).1]
  rfl

theorem mem_of_pop (h : queue.pop = some (e, rest)) {e' : Entry} (hne : e' ≠ e)
    (hm : e' ∈ queue.contents) : e' ∈ rest.contents := by
  rw [(BinaryHeap.pop_some h).2, Multiset.mem_cons] at hm
  exact hm.resolve_left hne

end DueQueue

end Cobblestone.Task

namespace Cobblestone.Task

open Lib

inductive SchedulerError where
  | negativeDelay
  | nonPositiveInterval
deriving DecidableEq, Repr

def SchedulerError.message : SchedulerError → String
  | .negativeDelay => "delay ticks must be non-negative"
  | .nonPositiveInterval => "repeat interval must be positive"

structure Sleep where
  ticks : Nat
  positive : 0 < ticks

structure ScheduledTask where
  due : Nat
  interval : Option Nat
deriving DecidableEq, Repr

structure Scheduler where
  tick : Nat
  nextTaskId : Nat
  nextFiberId : Nat
  staleTaskEntries : Nat
  taskQueue : DueQueue
  sleepQueue : DueQueue
  tasks : OrderedMap Nat ScheduledTask
  fibers : OrderedMap Nat Unit
  pendingFibers : OrderedMap Nat Unit
  sleeping : OrderedMap Nat Nat

namespace Scheduler

def new : Scheduler where
  tick := 0
  nextTaskId := 1
  nextFiberId := 1
  staleTaskEntries := 0
  taskQueue := DueQueue.clear
  sleepQueue := DueQueue.clear
  tasks := .empty
  fibers := .empty
  pendingFibers := .empty
  sleeping := .empty

def enlist (s : Scheduler) (due : Nat) (interval : Option Nat) : Scheduler :=
  { s with
    nextTaskId := s.nextTaskId + 1
    tasks := s.tasks.set s.nextTaskId ⟨due, interval⟩
    taskQueue := s.taskQueue.push due s.nextTaskId }

def schedule (s : Scheduler) (delayTicks : Int) : Except SchedulerError Scheduler :=
  if delayTicks < 0 then .error .negativeDelay
  else .ok (s.enlist (s.tick + max 1 delayTicks.toNat) none)

def repeatTask (s : Scheduler) (intervalTicks : Int) : Except SchedulerError Scheduler :=
  if intervalTicks ≤ 0 then .error .nonPositiveInterval
  else .ok (s.enlist (s.tick + intervalTicks.toNat) (some intervalTicks.toNat))

def spawn (s : Scheduler) : Scheduler :=
  { s with
    nextFiberId := s.nextFiberId + 1
    fibers := s.fibers.set s.nextFiberId ()
    pendingFibers := s.pendingFibers.set s.nextFiberId () }

def shutdown (s : Scheduler) : Scheduler :=
  { s with
    tasks := .empty
    pendingFibers := .empty
    sleeping := .empty
    fibers := .empty
    staleTaskEntries := 0
    taskQueue := DueQueue.clear
    sleepQueue := DueQueue.clear }

def compactTaskQueueIfNeeded (s : Scheduler) : Scheduler :=
  if s.tasks.entries = [] then
    { s with taskQueue := DueQueue.clear, staleTaskEntries := 0 }
  else if s.staleTaskEntries < 1024 ∨ s.staleTaskEntries < s.tasks.count then s
  else
    { s with
      taskQueue := s.tasks.entries.foldl (fun queue e => queue.push e.2.due e.1) DueQueue.clear
      staleTaskEntries := 0 }

def cancelScheduledTask (s : Scheduler) (taskId : Nat) : Bool × Scheduler :=
  if (s.tasks.get? taskId).isNone then (false, s)
  else
    (true, compactTaskQueueIfNeeded
      { s with
        tasks := s.tasks.unset taskId
        staleTaskEntries := s.staleTaskEntries + 1 })

def forgetFiber (s : Scheduler) (fiberId : Nat) : Scheduler :=
  { s with
    fibers := s.fibers.unset fiberId
    pendingFibers := s.pendingFibers.unset fiberId
    sleeping := s.sleeping.unset fiberId }

def cancelFiber (s : Scheduler) (fiberId : Nat) : Bool × Scheduler :=
  if (s.fibers.get? fiberId).isNone then (false, s) else (true, s.forgetFiber fiberId)

end Scheduler

-- What user code may ask for: between two ticks, inside a task, or inside a fiber.
inductive Call where
  | schedule (delayTicks : Int)
  | repeatTask (intervalTicks : Int)
  | spawn
  | cancelTask (taskId : Nat)
  | cancelFiber (fiberId : Nat)
  | shutdown
deriving DecidableEq, Repr

def Scheduler.perform (s : Scheduler) : Call → List Event × Scheduler
  | .schedule delayTicks =>
    match s.schedule delayTicks with
    | .error _ => ([], s)
    | .ok s' => ([.scheduled s.nextTaskId delayTicks.toNat], s')
  | .repeatTask intervalTicks =>
    match s.repeatTask intervalTicks with
    | .error _ => ([], s)
    | .ok s' => ([.repeated s.nextTaskId intervalTicks.toNat], s')
  | .spawn => ([.spawned s.nextFiberId], s.spawn)
  | .cancelTask taskId =>
    match s.cancelScheduledTask taskId with
    | (false, s') => ([], s')
    | (true, s') => ([.cancelled taskId], s')
  | .cancelFiber fiberId =>
    match s.cancelFiber fiberId with
    | (false, s') => ([], s')
    | (true, s') => ([.fiberEnded fiberId], s')
  | .shutdown => ([.shutdown], s.shutdown)

-- Where tick() stands. A callback holds the entry of the task table as it was when the loop read it.
inductive Control where
  | idle
  | runningTasks
  | inTask (taskId : Nat) (scheduled : ScheduledTask)
  | startingFibers (rest : List Nat)
  | inStart (fiberId : Nat) (rest : List Nat)
  | wakingFibers
  | inWake (fiberId : Nat)

def Control.yields : Control → Bool
  | .idle | .inTask _ _ | .inStart _ _ | .inWake _ => true
  | _ => false

structure Machine where
  scheduler : Scheduler
  control : Control

def Machine.new : Machine := ⟨.new, .idle⟩

inductive FiberOutcome where
  | slept (sleep : Sleep)
  | suspended
  | terminated
  | threw

namespace Scheduler

def tasksDone (s : Scheduler) : List Event × Machine :=
  ([.tasksDone s.tick], ⟨s, .startingFibers s.pendingFibers.keys⟩)

-- One pass of the loop, up to the callback if the popped entry is live.
def runDueTasks (s : Scheduler) : List Event × Machine :=
  match s.taskQueue.peekDue with
  | none => s.tasksDone
  | some due =>
    if s.tick < due then s.tasksDone
    else
      match s.taskQueue.pop with
      | none => s.tasksDone
      | some (entry, queue) =>
        match s.tasks.get? entry.id with
        | none =>
          ([], ⟨{ s with taskQueue := queue, staleTaskEntries := s.staleTaskEntries - 1 },
            .runningTasks⟩)
        | some scheduled =>
          if scheduled.due ≠ entry.due then ([], ⟨{ s with taskQueue := queue }, .runningTasks⟩)
          else
            ([.ran entry.id s.tick],
              ⟨{ s with taskQueue := queue }, .inTask entry.id scheduled⟩)

def taskReturned (s : Scheduler) (taskId : Nat) (scheduled : ScheduledTask) : Scheduler :=
  match s.tasks.get? taskId with
  | none => s
  | some current =>
    match scheduled.interval with
    | none => { s with tasks := s.tasks.unset taskId }
    | some interval =>
      { s with
        tasks := s.tasks.set taskId { current with due := s.tick + interval }
        taskQueue := s.taskQueue.push (s.tick + interval) taskId }

def taskThrew (s : Scheduler) (taskId : Nat) : Scheduler :=
  { s with tasks := s.tasks.unset taskId }

def startPendingFibers (s : Scheduler) : List Nat → List Event × Machine
  | [] => ([], ⟨s, .wakingFibers⟩)
  | fiberId :: rest =>
    match s.fibers.get? fiberId with
    | none => ([], ⟨{ s with pendingFibers := s.pendingFibers.unset fiberId }, .startingFibers rest⟩)
    | some _ =>
      ([.started fiberId s.tick],
        ⟨{ s with pendingFibers := s.pendingFibers.unset fiberId }, .inStart fiberId rest⟩)

def wakesDone (s : Scheduler) : List Event × Machine := ([.wakesDone s.tick], ⟨s, .idle⟩)

def wakeSleepingFibers (s : Scheduler) : List Event × Machine :=
  match s.sleepQueue.peekDue with
  | none => s.wakesDone
  | some wake =>
    if s.tick < wake then s.wakesDone
    else
      match s.sleepQueue.pop with
      | none => s.wakesDone
      | some (entry, queue) =>
        if s.sleeping.get? entry.id ≠ some entry.due then
          ([], ⟨{ s with sleepQueue := queue }, .wakingFibers⟩)
        else
          match s.fibers.get? entry.id with
          | none =>
            ([], ⟨{ s with sleepQueue := queue, sleeping := s.sleeping.unset entry.id },
              .wakingFibers⟩)
          | some _ =>
            ([.woke entry.id s.tick],
              ⟨{ s with sleepQueue := queue, sleeping := s.sleeping.unset entry.id },
                .inWake entry.id⟩)

def sleepFiber (s : Scheduler) (fiberId : Nat) (sleep : Sleep) : Scheduler :=
  { s with
    sleeping := s.sleeping.set fiberId (s.tick + sleep.ticks)
    sleepQueue := s.sleepQueue.push (s.tick + sleep.ticks) fiberId }

-- What follows Fiber::start() and Fiber::resume(), with captureFiberState().
def fiberStopped (s : Scheduler) (fiberId : Nat) (next : Control) :
    FiberOutcome → List Event × Machine
  | .threw => ([.fibersLeft s.tick, .fiberEnded fiberId], ⟨s.forgetFiber fiberId, .idle⟩)
  | .terminated =>
    match s.fibers.get? fiberId with
    | none => ([], ⟨s, next⟩)
    | some _ => ([.fiberEnded fiberId], ⟨s.forgetFiber fiberId, next⟩)
  | .slept sleep =>
    match s.fibers.get? fiberId with
    | none => ([], ⟨s, next⟩)
    | some _ => ([.slept fiberId sleep.ticks], ⟨s.sleepFiber fiberId sleep, next⟩)
  | .suspended =>
    match s.fibers.get? fiberId with
    | none => ([], ⟨s, next⟩)
    | some _ => ([.fibersLeft s.tick, .fiberEnded fiberId], ⟨s.forgetFiber fiberId, .idle⟩)

end Scheduler

inductive Step : Machine → List Event → Machine → Prop where
  | call {s : Scheduler} {control : Control} (c : Call) (h : control.yields = true) :
    Step ⟨s, control⟩ (s.perform c).1 ⟨(s.perform c).2, control⟩
  | tick {s : Scheduler} :
    Step ⟨s, .idle⟩ [.ticked (s.tick + 1)] ⟨{ s with tick := s.tick + 1 }, .runningTasks⟩
  | runDueTasks {s : Scheduler} :
    Step ⟨s, .runningTasks⟩ s.runDueTasks.1 s.runDueTasks.2
  | taskReturned {s : Scheduler} {taskId : Nat} {scheduled : ScheduledTask} :
    Step ⟨s, .inTask taskId scheduled⟩ [] ⟨s.taskReturned taskId scheduled, .runningTasks⟩
  | taskThrew {s : Scheduler} {taskId : Nat} {scheduled : ScheduledTask} :
    Step ⟨s, .inTask taskId scheduled⟩ [.tasksLeft s.tick, .threw taskId]
      ⟨s.taskThrew taskId, .idle⟩
  | startPendingFibers {s : Scheduler} {rest : List Nat} :
    Step ⟨s, .startingFibers rest⟩ (s.startPendingFibers rest).1 (s.startPendingFibers rest).2
  | startedFiberStopped {s : Scheduler} {fiberId : Nat} {rest : List Nat} (outcome : FiberOutcome) :
    Step ⟨s, .inStart fiberId rest⟩ (s.fiberStopped fiberId (.startingFibers rest) outcome).1
      (s.fiberStopped fiberId (.startingFibers rest) outcome).2
  | wakeSleepingFibers {s : Scheduler} :
    Step ⟨s, .wakingFibers⟩ s.wakeSleepingFibers.1 s.wakeSleepingFibers.2
  | wokenFiberStopped {s : Scheduler} {fiberId : Nat} (outcome : FiberOutcome) :
    Step ⟨s, .inWake fiberId⟩ (s.fiberStopped fiberId .wakingFibers outcome).1
      (s.fiberStopped fiberId .wakingFibers outcome).2

inductive Run : List Event → Machine → Prop where
  | start : Run [] .new
  | step {log events : List Event} {m m' : Machine} (h : Run log m) (hs : Step m events m') :
    Run (events ++ log) m'

-- The steps as a function of what user code does, to compute runs with.
inductive Move where
  | call (c : Call)
  | go
  | taskReturns
  | taskThrows
  | fiberStops (outcome : FiberOutcome)

def Machine.move : Machine → Move → Option (List Event × Machine)
  | ⟨s, control⟩, .call c =>
    if control.yields then some ((s.perform c).1, ⟨(s.perform c).2, control⟩) else none
  | ⟨s, .idle⟩, .go =>
    some ([.ticked (s.tick + 1)], ⟨{ s with tick := s.tick + 1 }, .runningTasks⟩)
  | ⟨s, .runningTasks⟩, .go => some s.runDueTasks
  | ⟨s, .startingFibers rest⟩, .go => some (s.startPendingFibers rest)
  | ⟨s, .wakingFibers⟩, .go => some s.wakeSleepingFibers
  | ⟨s, .inTask taskId scheduled⟩, .taskReturns =>
    some ([], ⟨s.taskReturned taskId scheduled, .runningTasks⟩)
  | ⟨s, .inTask taskId _⟩, .taskThrows =>
    some ([.tasksLeft s.tick, .threw taskId], ⟨s.taskThrew taskId, .idle⟩)
  | ⟨s, .inStart fiberId rest⟩, .fiberStops outcome =>
    some (s.fiberStopped fiberId (.startingFibers rest) outcome)
  | ⟨s, .inWake fiberId⟩, .fiberStops outcome =>
    some (s.fiberStopped fiberId .wakingFibers outcome)
  | _, _ => none

theorem Machine.move_step {m m' : Machine} {events : List Event} {move : Move}
    (h : m.move move = some (events, m')) : Step m events m' := by
  obtain ⟨s, control⟩ := m
  cases move with
  | call c =>
    simp only [Machine.move] at h
    split_ifs at h with hy
    cases h
    exact .call c hy
  | go =>
    cases control with
    | idle =>
      cases h
      exact .tick
    | runningTasks =>
      have he : s.runDueTasks = (events, m') := Option.some.inj h
      have hs := @Step.runDueTasks s
      rwa [he] at hs
    | startingFibers rest =>
      have he : s.startPendingFibers rest = (events, m') := Option.some.inj h
      have hs := @Step.startPendingFibers s rest
      rwa [he] at hs
    | wakingFibers =>
      have he : s.wakeSleepingFibers = (events, m') := Option.some.inj h
      have hs := @Step.wakeSleepingFibers s
      rwa [he] at hs
    | inTask taskId scheduled => cases h
    | inStart fiberId rest => cases h
    | inWake fiberId => cases h
  | taskReturns =>
    cases control <;> cases h
    exact .taskReturned
  | taskThrows =>
    cases control <;> cases h
    exact .taskThrew
  | fiberStops outcome =>
    cases control with
    | inStart fiberId rest =>
      have he : s.fiberStopped fiberId (.startingFibers rest) outcome = (events, m') :=
        Option.some.inj h
      have hs := @Step.startedFiberStopped s fiberId rest outcome
      rwa [he] at hs
    | inWake fiberId =>
      have he : s.fiberStopped fiberId .wakingFibers outcome = (events, m') := Option.some.inj h
      have hs := @Step.wokenFiberStopped s fiberId outcome
      rwa [he] at hs
    | idle => cases h
    | runningTasks => cases h
    | inTask taskId scheduled => cases h
    | startingFibers rest => cases h
    | wakingFibers => cases h

def Machine.moves : List Move → List Event × Machine → Option (List Event × Machine)
  | [], state => some state
  | move :: rest, (log, m) =>
    match m.move move with
    | none => none
    | some (events, m') => Machine.moves rest (events ++ log, m')

theorem Run.moves {moves : List Move} {log log' : List Event} {m m' : Machine} (h : Run log m)
    (hm : Machine.moves moves (log, m) = some (log', m')) : Run log' m' := by
  induction moves generalizing log m with
  | nil =>
    cases hm
    exact h
  | cons move rest ih =>
    rw [Machine.moves] at hm
    split at hm
    · cases hm
    · rename_i hmove
      exact ih (h.step (Machine.move_step hmove)) hm

theorem Run.of_moves (moves : List Move) {log : List Event}
    (h : (Machine.moves moves ([], .new)).map Prod.fst = some log) : ∃ m, Run log m := by
  obtain ⟨⟨log', m⟩, hm, rfl⟩ := Option.map_eq_some_iff.mp h
  exact ⟨m, Run.start.moves hm⟩

end Cobblestone.Task
