import Cobblestone.Task.SchedulerProof

namespace Cobblestone.Task

open Lib

def intMax : Nat := 9223372036854775807

-- An addition past the largest integer is a float, and `push` takes integers only.
inductive Answer where
  | handle (id : Nat)
  | answered (cancelled : Bool)
  | done
  | refused (error : SchedulerError)
  | typeError
deriving DecidableEq, Repr

namespace Scheduler

def enlistInt (s : Scheduler) (due : Nat) (interval : Option Nat) : Answer × Scheduler :=
  let listed := { s with
    nextTaskId := s.nextTaskId + 1
    tasks := s.tasks.set s.nextTaskId ⟨due, interval⟩ }
  if due ≤ intMax then
    (.handle s.nextTaskId, { listed with taskQueue := s.taskQueue.push due s.nextTaskId })
  else (.typeError, listed)

def scheduleInt (s : Scheduler) (delayTicks : Int) : Answer × Scheduler :=
  if delayTicks < 0 then (.refused .negativeDelay, s)
  else s.enlistInt (s.tick + max 1 delayTicks.toNat) none

def repeatInt (s : Scheduler) (intervalTicks : Int) : Answer × Scheduler :=
  if intervalTicks ≤ 0 then (.refused .nonPositiveInterval, s)
  else s.enlistInt (s.tick + intervalTicks.toNat) (some intervalTicks.toNat)

-- The flag says whether every push went through.
def pushEach : List (Nat × ScheduledTask) → DueQueue → Bool × DueQueue
  | [], queue => (true, queue)
  | e :: rest, queue =>
    if e.2.due ≤ intMax then pushEach rest (queue.push e.2.due e.1) else (false, queue)

def compactInt (s : Scheduler) : Bool × Scheduler :=
  if s.tasks.entries = [] then
    (true, { s with taskQueue := DueQueue.clear, staleTaskEntries := 0 })
  else if s.staleTaskEntries < 1024 ∨ s.staleTaskEntries < s.tasks.count then (true, s)
  else
    match pushEach s.tasks.entries DueQueue.clear with
    | (true, queue) => (true, { s with taskQueue := queue, staleTaskEntries := 0 })
    | (false, queue) => (false, { s with taskQueue := queue })

def cancelInt (s : Scheduler) (taskId : Nat) : Answer × Scheduler :=
  if (s.tasks.get? taskId).isNone then (.answered false, s)
  else
    match compactInt { s with
      tasks := s.tasks.unset taskId
      staleTaskEntries := s.staleTaskEntries + 1 } with
    | (true, s') => (.answered true, s')
    | (false, s') => (.typeError, s')

def performInt (s : Scheduler) : Call → Answer × Scheduler
  | .schedule delayTicks => s.scheduleInt delayTicks
  | .repeatTask intervalTicks => s.repeatInt intervalTicks
  | .spawn => (.handle s.nextFiberId, s.spawn)
  | .cancelTask taskId => s.cancelInt taskId
  | .cancelFiber fiberId => (.answered (s.cancelFiber fiberId).1, (s.cancelFiber fiberId).2)
  | .shutdown => (.done, s.shutdown)

def taskReturnedInt (s : Scheduler) (taskId : Nat) (scheduled : ScheduledTask) : Machine :=
  match s.tasks.get? taskId with
  | none => ⟨s, .runningTasks⟩
  | some current =>
    match scheduled.interval with
    | none => ⟨{ s with tasks := s.tasks.unset taskId }, .runningTasks⟩
    | some interval =>
      let rearmed := { s with
        tasks := s.tasks.set taskId { current with due := s.tick + interval } }
      if s.tick + interval ≤ intMax then
        ⟨{ rearmed with taskQueue := s.taskQueue.push (s.tick + interval) taskId }, .runningTasks⟩
      else ⟨rearmed, .idle⟩

def sleepInt (s : Scheduler) (fiberId : Nat) (sleep : Sleep) : Bool × Scheduler :=
  let asleep := { s with sleeping := s.sleeping.set fiberId (s.tick + sleep.ticks) }
  if s.tick + sleep.ticks ≤ intMax then
    (true, { asleep with sleepQueue := s.sleepQueue.push (s.tick + sleep.ticks) fiberId })
  else (false, asleep)

-- Nothing catches the error of the push: it leaves tick().
def fiberStoppedInt (s : Scheduler) (fiberId : Nat) (next : Control) : FiberOutcome → Machine
  | .slept sleep =>
    match s.fibers.get? fiberId with
    | none => ⟨s, next⟩
    | some _ =>
      match s.sleepInt fiberId sleep with
      | (true, s') => ⟨s', next⟩
      | (false, s') => ⟨s', .idle⟩
  | outcome => (s.fiberStopped fiberId next outcome).2

end Scheduler

def Machine.moveInt : Machine → Move → Option Machine
  | ⟨s, control⟩, .call c =>
    if control.yields then some ⟨(s.performInt c).2, control⟩ else none
  | ⟨s, .inTask taskId scheduled⟩, .taskReturns => some (s.taskReturnedInt taskId scheduled)
  | ⟨s, .inStart fiberId rest⟩, .fiberStops outcome =>
    some (s.fiberStoppedInt fiberId (.startingFibers rest) outcome)
  | ⟨s, .inWake fiberId⟩, .fiberStops outcome =>
    some (s.fiberStoppedInt fiberId .wakingFibers outcome)
  | m, move => (m.move move).map Prod.snd

inductive RunInt (allowed : Machine → Move → Prop) : Machine → Prop where
  | start : RunInt allowed .new
  | step {m m' : Machine} (move : Move) (h : RunInt allowed m) (ha : allowed m move)
      (hm : m.moveInt move = some m') : RunInt allowed m'

-- The due tick the move computes, if it computes one, is still an integer.
def Machine.Fits : Machine → Move → Prop
  | ⟨s, _⟩, .call (.schedule delayTicks) =>
    0 ≤ delayTicks → s.tick + max 1 delayTicks.toNat ≤ intMax
  | ⟨s, _⟩, .call (.repeatTask intervalTicks) =>
    0 < intervalTicks → s.tick + intervalTicks.toNat ≤ intMax
  | ⟨s, .inTask taskId scheduled⟩, .taskReturns =>
    ∀ interval, scheduled.interval = some interval → (s.tasks.get? taskId).isSome →
      s.tick + interval ≤ intMax
  | ⟨s, .inStart fiberId _⟩, .fiberStops (.slept sleep) =>
    (s.fibers.get? fiberId).isSome → s.tick + sleep.ticks ≤ intMax
  | ⟨s, .inWake fiberId⟩, .fiberStops (.slept sleep) =>
    (s.fibers.get? fiberId).isSome → s.tick + sleep.ticks ≤ intMax
  | _, _ => True

namespace Scheduler

structure Bounded (s : Scheduler) : Prop where
  due : ∀ id task, s.tasks.get? id = some task → task.due ≤ intMax
  issued : ∀ id task, s.tasks.get? id = some task → id < s.nextTaskId
  wake : ∀ id wake, s.sleeping.get? id = some wake → wake ≤ intMax

variable {s s' : Scheduler}

-- Most moves only take entries out of the tables.
theorem Bounded.of_fewer (h : s.Bounded) (hnext : s.nextTaskId ≤ s'.nextTaskId)
    (htasks : ∀ id task, s'.tasks.get? id = some task → s.tasks.get? id = some task)
    (hsleeping : ∀ id wake, s'.sleeping.get? id = some wake → s.sleeping.get? id = some wake) :
    s'.Bounded where
  due id task hg := h.due id task (htasks id task hg)
  issued id task hg := (h.issued id task (htasks id task hg)).trans_le hnext
  wake id wake hg := h.wake id wake (hsleeping id wake hg)

theorem bounded_new : new.Bounded where
  due _ _ hg := nomatch hg
  issued _ _ hg := nomatch hg
  wake _ _ hg := nomatch hg

theorem Bounded.fresh (h : s.Bounded) : s.tasks.get? s.nextTaskId = none := by
  cases hg : s.tasks.get? s.nextTaskId with
  | none => rfl
  | some task => exact absurd (h.issued _ _ hg) (lt_irrefl _)

theorem enlistInt_of_le {due : Nat} (interval : Option Nat) (hdue : due ≤ intMax) :
    s.enlistInt due interval = (.handle s.nextTaskId, s.enlist due interval) :=
  if_pos hdue

theorem enlistInt_of_gt {due : Nat} (interval : Option Nat) (hdue : ¬due ≤ intMax) :
    s.enlistInt due interval = (.typeError, { s with
      nextTaskId := s.nextTaskId + 1
      tasks := s.tasks.set s.nextTaskId ⟨due, interval⟩ }) :=
  if_neg hdue

theorem Bounded.enlist (h : s.Bounded) {due : Nat} (interval : Option Nat) (hdue : due ≤ intMax) :
    (s.enlist due interval).Bounded where
  due id task hg := by
    rw [Scheduler.enlist, OrderedMap.get?_set] at hg
    split at hg
    · cases hg
      exact hdue
    · exact h.due id task hg
  issued id task hg := by
    rw [Scheduler.enlist, OrderedMap.get?_set] at hg
    split at hg
    · next hid => exact hid ▸ Nat.lt_succ_self _
    · exact (h.issued id task hg).trans (Nat.lt_succ_self _)
  wake := h.wake

theorem pushEach_of_le {entries : List (Nat × ScheduledTask)}
    (hentries : ∀ e ∈ entries, e.2.due ≤ intMax) (queue : DueQueue) :
    pushEach entries queue =
      (true, entries.foldl (fun queue e => DueQueue.push queue e.2.due e.1) queue) := by
  induction entries generalizing queue with
  | nil => rfl
  | cons e rest ih =>
    rw [List.forall_mem_cons] at hentries
    rw [pushEach, if_pos hentries.1, ih hentries.2]
    rfl

theorem pushEach_of_gt {entries : List (Nat × ScheduledTask)} {e : Nat × ScheduledTask}
    (he : e ∈ entries) (hdue : ¬e.2.due ≤ intMax) (queue : DueQueue) :
    (pushEach entries queue).1 = false := by
  induction entries generalizing queue with
  | nil => exact absurd he List.not_mem_nil
  | cons e' rest ih =>
    rw [pushEach]
    split
    · next hle =>
      rcases List.mem_cons.mp he with rfl | he
      · exact absurd hle hdue
      · exact ih he _
    · rfl

theorem Bounded.compactInt (h : s.Bounded) :
    s.compactInt = (true, s.compactTaskQueueIfNeeded) := by
  have hentries : ∀ e ∈ s.tasks.entries, e.2.due ≤ intMax := fun e he =>
    h.due e.1 e.2 (OrderedMap.get?_eq_some.mpr he)
  unfold Scheduler.compactInt Scheduler.compactTaskQueueIfNeeded
  rw [pushEach_of_le hentries]
  split_ifs <;> rfl

theorem Bounded.unset (h : s.Bounded) (taskId stale : Nat) :
    Bounded { s with tasks := s.tasks.unset taskId, staleTaskEntries := stale } :=
  h.of_fewer le_rfl (fun _ _ hg => (OrderedMap.get?_unset_some hg).2) fun _ _ hg => hg

-- With integers in the table, cancelling is what it is without the bound.
theorem Bounded.cancelInt (h : s.Bounded) (taskId : Nat) :
    s.cancelInt taskId =
      (.answered (s.cancelScheduledTask taskId).1, (s.cancelScheduledTask taskId).2) := by
  unfold Scheduler.cancelInt cancelScheduledTask
  split
  · rfl
  · rw [(h.unset taskId (s.staleTaskEntries + 1)).compactInt]

theorem Bounded.compact (h : s.Bounded) : s.compactTaskQueueIfNeeded.Bounded := by
  refine h.of_fewer compact_nextTaskId.ge (fun id task hg => ?_) fun id wake hg => ?_
  · rwa [compact_tasks] at hg
  · unfold compactTaskQueueIfNeeded at hg
    split_ifs at hg <;> exact hg

theorem Bounded.cancelScheduledTask (h : s.Bounded) (taskId : Nat) :
    (s.cancelScheduledTask taskId).2.Bounded := by
  unfold Scheduler.cancelScheduledTask
  split
  · exact h
  · exact (h.unset taskId _).compact

theorem Bounded.forgetFiber (h : s.Bounded) (fiberId : Nat) : (s.forgetFiber fiberId).Bounded :=
  h.of_fewer le_rfl (fun _ _ hg => hg) fun _ _ hg => (OrderedMap.get?_unset_some hg).2

theorem scheduleInt_of_nonneg {delayTicks : Int} (hdelay : 0 ≤ delayTicks) :
    s.scheduleInt delayTicks = s.enlistInt (s.tick + max 1 delayTicks.toNat) none :=
  if_neg hdelay.not_gt

theorem repeatInt_of_pos {intervalTicks : Int} (hinterval : 0 < intervalTicks) :
    s.repeatInt intervalTicks =
      s.enlistInt (s.tick + intervalTicks.toNat) (some intervalTicks.toNat) :=
  if_neg hinterval.not_ge

theorem Bounded.performInt (h : s.Bounded) {control : Control} {c : Call}
    (hfits : Machine.Fits ⟨s, control⟩ (.call c)) : (s.performInt c).2.Bounded := by
  cases c with
  | schedule delayTicks =>
    rcases lt_or_ge delayTicks 0 with hneg | hdelay
    · rwa [Scheduler.performInt, scheduleInt, if_pos hneg]
    · rw [Scheduler.performInt, scheduleInt_of_nonneg hdelay, enlistInt_of_le none (hfits hdelay)]
      exact h.enlist none (hfits hdelay)
  | repeatTask intervalTicks =>
    rcases le_or_gt intervalTicks 0 with hneg | hinterval
    · rwa [Scheduler.performInt, repeatInt, if_pos hneg]
    · rw [Scheduler.performInt, repeatInt_of_pos hinterval, enlistInt_of_le _ (hfits hinterval)]
      exact h.enlist _ (hfits hinterval)
  | spawn => exact h.of_fewer le_rfl (fun _ _ hg => hg) fun _ _ hg => hg
  | cancelTask taskId =>
    rw [Scheduler.performInt, h.cancelInt]
    exact h.cancelScheduledTask taskId
  | cancelFiber fiberId =>
    dsimp only [Scheduler.performInt, Scheduler.cancelFiber]
    split
    · exact h
    · exact h.forgetFiber fiberId
  | shutdown => exact h.of_fewer le_rfl (fun _ _ hg => nomatch hg) fun _ _ hg => nomatch hg

theorem Bounded.taskReturnedInt (h : s.Bounded) {taskId : Nat} {scheduled : ScheduledTask}
    (hfits : Machine.Fits ⟨s, .inTask taskId scheduled⟩ .taskReturns) :
    (s.taskReturnedInt taskId scheduled).scheduler.Bounded := by
  unfold Scheduler.taskReturnedInt
  cases hg : s.tasks.get? taskId with
  | none => exact h
  | some current =>
    cases hi : scheduled.interval with
    | none => exact h.unset taskId _
    | some interval =>
      have hdue := hfits interval hi (by rw [hg]; rfl)
      dsimp only
      rw [if_pos hdue]
      refine ⟨fun id task hg' => ?_, fun id task hg' => ?_, h.wake⟩
      · rw [OrderedMap.get?_set] at hg'
        split at hg'
        · cases hg'
          exact hdue
        · exact h.due id task hg'
      · rw [OrderedMap.get?_set] at hg'
        split at hg'
        · next hid => exact hid ▸ h.issued taskId current hg
        · exact h.issued id task hg'

theorem sleepInt_of_le {fiberId : Nat} {sleep : Sleep} (hwake : s.tick + sleep.ticks ≤ intMax) :
    s.sleepInt fiberId sleep = (true, s.sleepFiber fiberId sleep) :=
  if_pos hwake

theorem sleepInt_of_gt {fiberId : Nat} {sleep : Sleep} (hwake : ¬s.tick + sleep.ticks ≤ intMax) :
    s.sleepInt fiberId sleep =
      (false, { s with sleeping := s.sleeping.set fiberId (s.tick + sleep.ticks) }) :=
  if_neg hwake

theorem Bounded.sleepFiber (h : s.Bounded) {fiberId : Nat} {sleep : Sleep}
    (hwake : s.tick + sleep.ticks ≤ intMax) : (s.sleepFiber fiberId sleep).Bounded where
  due := h.due
  issued := h.issued
  wake id wake hg := by
    rw [Scheduler.sleepFiber, OrderedMap.get?_set] at hg
    split at hg
    · cases hg
      exact hwake
    · exact h.wake id wake hg

theorem Bounded.fiberStoppedInt (h : s.Bounded) {fiberId : Nat} {next : Control}
    {outcome : FiberOutcome} (hfits : ∀ sleep, outcome = .slept sleep →
      (s.fibers.get? fiberId).isSome → s.tick + sleep.ticks ≤ intMax) :
    (s.fiberStoppedInt fiberId next outcome).scheduler.Bounded := by
  cases outcome with
  | slept sleep =>
    dsimp only [Scheduler.fiberStoppedInt]
    cases hg : s.fibers.get? fiberId with
    | none => exact h
    | some _ =>
      have hwake := hfits sleep rfl (by rw [hg]; rfl)
      rw [sleepInt_of_le hwake]
      exact h.sleepFiber hwake
  | suspended =>
    dsimp only [Scheduler.fiberStoppedInt, fiberStopped]
    cases s.fibers.get? fiberId with
    | none => exact h
    | some _ => exact h.forgetFiber fiberId
  | terminated =>
    dsimp only [Scheduler.fiberStoppedInt, fiberStopped]
    cases s.fibers.get? fiberId with
    | none => exact h
    | some _ => exact h.forgetFiber fiberId
  | threw => exact h.forgetFiber fiberId

theorem Bounded.runDueTasks (h : s.Bounded) : s.runDueTasks.2.scheduler.Bounded := by
  unfold Scheduler.runDueTasks tasksDone
  split
  · exact h
  split_ifs
  · exact h
  split
  · exact h
  split
  · exact h.of_fewer le_rfl (fun _ _ hg => hg) fun _ _ hg => hg
  split_ifs <;> exact h.of_fewer le_rfl (fun _ _ hg => hg) fun _ _ hg => hg

theorem Bounded.startPendingFibers (h : s.Bounded) (fibers : List Nat) :
    (s.startPendingFibers fibers).2.scheduler.Bounded := by
  cases fibers with
  | nil => exact h
  | cons fiberId rest =>
    dsimp only [Scheduler.startPendingFibers]
    cases s.fibers.get? fiberId <;>
      exact h.of_fewer le_rfl (fun _ _ hg => hg) fun _ _ hg => hg

theorem Bounded.wakeSleepingFibers (h : s.Bounded) : s.wakeSleepingFibers.2.scheduler.Bounded := by
  have hunset (queue : DueQueue) (fiberId : Nat) : Bounded { s with
      sleepQueue := queue, sleeping := s.sleeping.unset fiberId } :=
    h.of_fewer le_rfl (fun _ _ hg => hg) fun _ _ hg => (OrderedMap.get?_unset_some hg).2
  unfold Scheduler.wakeSleepingFibers wakesDone
  split
  · exact h
  split_ifs
  · exact h
  split
  · exact h
  split_ifs
  · exact h.of_fewer le_rfl (fun _ _ hg => hg) fun _ _ hg => hg
  split <;> exact hunset _ _

end Scheduler

variable {m m' : Machine} {move : Move}

theorem Machine.Fits.moveInt_bounded (hfits : m.Fits move) (hm : m.moveInt move = some m')
    (h : m.scheduler.Bounded) : m'.scheduler.Bounded := by
  obtain ⟨s, control⟩ := m
  cases move with
  | call c =>
    simp only [Machine.moveInt] at hm
    split_ifs at hm
    cases hm
    exact h.performInt hfits
  | go =>
    cases control with
    | idle =>
      cases hm
      exact h.of_fewer le_rfl (fun _ _ hg => hg) fun _ _ hg => hg
    | runningTasks =>
      cases hm
      exact h.runDueTasks
    | startingFibers rest =>
      cases hm
      exact h.startPendingFibers rest
    | wakingFibers =>
      cases hm
      exact h.wakeSleepingFibers
    | inTask taskId scheduled => cases hm
    | inStart fiberId rest => cases hm
    | inWake fiberId => cases hm
  | taskReturns =>
    cases control with
    | inTask taskId scheduled =>
      cases hm
      exact h.taskReturnedInt hfits
    | _ => cases hm
  | taskThrows =>
    cases control with
    | inTask taskId scheduled =>
      cases hm
      exact h.unset taskId _
    | _ => cases hm
  | fiberStops outcome =>
    cases control with
    | inStart fiberId rest =>
      cases hm
      refine h.fiberStoppedInt ?_
      rintro sleep rfl
      exact hfits
    | inWake fiberId =>
      cases hm
      refine h.fiberStoppedInt ?_
      rintro sleep rfl
      exact hfits
    | _ => cases hm

theorem RunInt.bounded (h : RunInt Machine.Fits m) : m.scheduler.Bounded := by
  induction h with
  | start => exact Scheduler.bounded_new
  | step _ _ hfits hm ih => exact hfits.moveInt_bounded hm ih

namespace Scheduler

variable {s : Scheduler}

-- The task is taken on under a fresh id, or the call throws and table and queue are as before.
def KeepsTasks (s : Scheduler) (due : Nat) (interval : Option Nat) (outcome : Answer × Scheduler) :
    Prop :=
  (s.tasks.get? s.nextTaskId = none ∧ outcome = (.handle s.nextTaskId, s.enlist due interval)) ∨
    (((∃ error, outcome.1 = .refused error) ∨ outcome.1 = .typeError) ∧
      outcome.2.tasks = s.tasks ∧ outcome.2.taskQueue = s.taskQueue)

def KeepsSleepers (s : Scheduler) (fiberId : Nat) (sleep : Sleep) (outcome : Bool × Scheduler) :
    Prop :=
  outcome = (true, s.sleepFiber fiberId sleep) ∨
    (outcome.1 = false ∧ outcome.2.sleeping = s.sleeping ∧ outcome.2.sleepQueue = s.sleepQueue)

-- A cancelled handle answers, and the tasks of the other handles keep their entries.
def CancelsOnly (s : Scheduler) (taskId : Option Nat) (outcome : Answer × Scheduler) : Prop :=
  (∃ cancelled, outcome.1 = .answered cancelled) ∧
    ∀ id task, some id ≠ taskId → s.tasks.get? id = some task →
      outcome.2.tasks.get? id = some task ∧
        (⟨task.due, id⟩ ∈ s.taskQueue.contents → ⟨task.due, id⟩ ∈ outcome.2.taskQueue.contents)

theorem Bounded.keepsTasks_iff (h : s.Bounded) (due : Nat) (interval : Option Nat) :
    s.KeepsTasks due interval (s.enlistInt due interval) ↔ due ≤ intMax := by
  constructor
  · intro hkeeps
    by_contra hdue
    rw [enlistInt_of_gt interval hdue] at hkeeps
    rcases hkeeps with ⟨-, heq⟩ | ⟨-, htasks, -⟩
    · exact nomatch congrArg Prod.fst heq
    · refine hdue (h.due s.nextTaskId ⟨due, interval⟩ ?_)
      rw [← htasks]
      exact OrderedMap.get?_set_self
  · intro hdue
    exact .inl ⟨h.fresh, enlistInt_of_le interval hdue⟩

theorem Bounded.keepsSleepers_iff (h : s.Bounded) (fiberId : Nat) (sleep : Sleep) :
    s.KeepsSleepers fiberId sleep (s.sleepInt fiberId sleep) ↔ s.tick + sleep.ticks ≤ intMax := by
  constructor
  · intro hkeeps
    by_contra hwake
    rw [sleepInt_of_gt hwake] at hkeeps
    rcases hkeeps with heq | ⟨-, hsleeping, -⟩
    · exact nomatch congrArg Prod.fst heq
    · refine hwake (h.wake fiberId (s.tick + sleep.ticks) ?_)
      rw [← hsleeping]
      exact OrderedMap.get?_set_self
  · intro hwake
    exact .inl (sleepInt_of_le hwake)

theorem Bounded.cancelsOnly_task (h : s.Bounded) (taskId : Nat) :
    s.CancelsOnly (some taskId) (s.performInt (.cancelTask taskId)) := by
  rw [Scheduler.performInt, h.cancelInt]
  refine ⟨⟨_, rfl⟩, fun id task hid hg => ?_⟩
  have hunset : (s.tasks.unset taskId).get? id = some task := by
    rwa [OrderedMap.get?_unset, if_neg fun heq => hid (congrArg some heq)]
  unfold Scheduler.cancelScheduledTask
  split
  · exact ⟨hg, fun hq => hq⟩
  · refine ⟨?_, fun hq => mem_compacted hunset hq⟩
    rwa [compact_tasks]

theorem cancelsOnly_fiber (fiberId : Nat) :
    s.CancelsOnly none (s.performInt (.cancelFiber fiberId)) := by
  refine ⟨⟨_, rfl⟩, fun id task _ hg => ?_⟩
  dsimp only [performInt, Scheduler.cancelFiber]
  split <;> exact ⟨hg, fun hq => hq⟩

theorem compactInt_fails_iff (s : Scheduler) : s.compactInt.1 = false ↔ 1024 ≤ s.staleTaskEntries ∧
    s.tasks.count ≤ s.staleTaskEntries ∧ ∃ e ∈ s.tasks.entries, ¬e.2.due ≤ intMax := by
  unfold Scheduler.compactInt
  split
  · next hempty => simp [hempty]
  split
  · simp only [Bool.true_eq_false, false_iff, not_and]
    intro h1 h2
    omega
  next hmany =>
  rw [not_or, not_lt, not_lt] at hmany
  by_cases hfloat : ∃ e ∈ s.tasks.entries, ¬e.2.due ≤ intMax
  · obtain ⟨e, he, hdue⟩ := hfloat
    have hfail := pushEach_of_gt he hdue DueQueue.clear
    rcases hpush : pushEach s.tasks.entries DueQueue.clear with ⟨finished, queue⟩
    rw [hpush] at hfail
    cases hfail
    exact iff_of_true rfl ⟨hmany.1, hmany.2, e, he, hdue⟩
  · rw [pushEach_of_le (by simpa using hfloat)]
    exact iff_of_false nofun fun hall => hfloat hall.2.2

-- One float in the table is enough for a cancellation to throw, however many tasks are sound.
theorem cancelInt_throws_iff (taskId : Nat) : (s.cancelInt taskId).1 = .typeError ↔
    (s.tasks.get? taskId).isSome ∧ 1024 ≤ s.staleTaskEntries + 1 ∧
      (s.tasks.unset taskId).count ≤ s.staleTaskEntries + 1 ∧
      ∃ e ∈ (s.tasks.unset taskId).entries, ¬e.2.due ≤ intMax := by
  unfold Scheduler.cancelInt
  cases hg : s.tasks.get? taskId with
  | none => simp
  | some task =>
    let cancelled := { s with
      tasks := s.tasks.unset taskId
      staleTaskEntries := s.staleTaskEntries + 1 }
    have hfails := cancelled.compactInt_fails_iff
    rw [if_neg (by simp), Option.isSome_some, eq_self, true_and]
    refine Iff.trans ?_ hfails
    change (match cancelled.compactInt with
      | (true, s') => (Answer.answered true, s')
      | (false, s') => (Answer.typeError, s')).1 = .typeError ↔ _
    rcases cancelled.compactInt with ⟨finished, s'⟩
    cases finished <;> simp

end Scheduler

theorem scheduler_intact_while_ints {m : Machine} (h : RunInt Machine.Fits m) :
    let s := m.scheduler
    (∀ delayTicks : Int, 0 ≤ delayTicks →
      (s.KeepsTasks (s.tick + max 1 delayTicks.toNat) none (s.performInt (.schedule delayTicks)) ↔
        s.tick + max 1 delayTicks.toNat ≤ intMax)) ∧
    (∀ intervalTicks : Int, 0 < intervalTicks →
      (s.KeepsTasks (s.tick + intervalTicks.toNat) (some intervalTicks.toNat)
        (s.performInt (.repeatTask intervalTicks)) ↔ s.tick + intervalTicks.toNat ≤ intMax)) ∧
    (∀ fiberId sleep, s.KeepsSleepers fiberId sleep (s.sleepInt fiberId sleep) ↔
      s.tick + sleep.ticks ≤ intMax) ∧
    (∀ taskId, s.CancelsOnly (some taskId) (s.performInt (.cancelTask taskId))) ∧
    ∀ fiberId, s.CancelsOnly none (s.performInt (.cancelFiber fiberId)) := by
  have hbounded := h.bounded
  refine ⟨fun delayTicks hdelay => ?_, fun intervalTicks hinterval => ?_,
    hbounded.keepsSleepers_iff, hbounded.cancelsOnly_task, fun _ => Scheduler.cancelsOnly_fiber _⟩
  · rw [Scheduler.performInt, Scheduler.scheduleInt_of_nonneg hdelay]
    exact hbounded.keepsTasks_iff _ _
  · rw [Scheduler.performInt, Scheduler.repeatInt_of_pos hinterval]
    exact hbounded.keepsTasks_iff _ _

def firstTickOver : Machine := ⟨{ Scheduler.new with tick := 1 }, .idle⟩

theorem firstTickOver_run : RunInt Machine.Fits firstTickOver := by
  have h1 : RunInt Machine.Fits ⟨{ Scheduler.new with tick := 1 }, .runningTasks⟩ :=
    .step .go .start trivial rfl
  have h2 : RunInt Machine.Fits ⟨{ Scheduler.new with tick := 1 }, .startingFibers []⟩ :=
    .step .go h1 trivial rfl
  have h3 : RunInt Machine.Fits ⟨{ Scheduler.new with tick := 1 }, .wakingFibers⟩ :=
    .step .go h2 trivial rfl
  exact .step .go h3 trivial rfl

theorem scheduler_intact_after_tick :
    let s := firstTickOver.scheduler
    s.KeepsTasks 11 none (s.performInt (.schedule 10)) :=
  ((scheduler_intact_while_ints firstTickOver_run).1 10 (by decide)).mpr
    (by simp [firstTickOver, intMax])

-- One tick in, the longest delay leaves an entry no queue knows of, under an error.
theorem longest_delay_leaves_entry : RunInt Machine.Fits firstTickOver ∧
    let s := firstTickOver.scheduler
    let outcome := s.performInt (.schedule intMax)
    outcome.1 = .typeError ∧ s.tasks.get? 1 = none ∧
      outcome.2.tasks.get? 1 = some ⟨intMax + 1, none⟩ ∧ outcome.2.taskQueue = s.taskQueue ∧
      ¬s.KeepsTasks (s.tick + max 1 intMax) none outcome := by
  have hmax : max 1 intMax = intMax := by simp [intMax]
  have hout : firstTickOver.scheduler.performInt (.schedule intMax) = (.typeError,
      { firstTickOver.scheduler with
        nextTaskId := 2, tasks := OrderedMap.empty.set 1 ⟨intMax + 1, none⟩ }) := by
    rw [Scheduler.performInt, Scheduler.scheduleInt_of_nonneg (Int.natCast_nonneg _),
      Int.toNat_natCast, hmax, Nat.add_comm]
    exact Scheduler.enlistInt_of_gt none (Nat.not_succ_le_self _)
  dsimp only
  rw [hout]
  refine ⟨firstTickOver_run, rfl, rfl, OrderedMap.get?_set_self, rfl, ?_⟩
  rintro (⟨-, heq⟩ | ⟨-, htasks, -⟩)
  · exact nomatch congrArg Prod.fst heq
  · have hentry : (OrderedMap.empty.set 1 (⟨intMax + 1, none⟩ : ScheduledTask)).get? 1 = none :=
      congrArg (fun tasks => tasks.get? 1) htasks
    rw [OrderedMap.get?_set_self] at hentry
    exact nomatch hentry

end Cobblestone.Task
