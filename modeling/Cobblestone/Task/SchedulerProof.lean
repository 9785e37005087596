import Cobblestone.Task.Scheduler

namespace Cobblestone.Task

open Lib

variable {log past : List Event} {s s' : Scheduler} {m m' : Machine} {id : Nat}

def Scheduler.booked (s : Scheduler) (running : Option Nat) (id : Nat) : Option Nat :=
  (s.tasks.get? id).bind fun task =>
    if running = some id then task.interval.map (s.tick + ·) else some task.due

-- `running` is the task whose callback is on the stack, and the task loops below `frontier` are over.
structure TaskBooks (log : List Event) (s : Scheduler) (running : Option Nat) (frontier : Nat) :
    Prop where
  clock : now log = s.tick
  issued : ∀ id, known id log → id < s.nextTaskId
  listed : ∀ id task, s.tasks.get? id = some task → known id log
  current : ∀ id, running = some id → known id log
  bound : frontier ≤ s.tick + 1
  deadline : ∀ id, deadline id log = s.booked running id
  period : ∀ id task, s.tasks.get? id = some task → period id log = task.interval
  positive : ∀ id task interval, s.tasks.get? id = some task → task.interval = some interval →
    0 < interval
  queued : ∀ id task, s.tasks.get? id = some task → running ≠ some id →
    ⟨task.due, id⟩ ∈ s.taskQueue.contents
  overdue : ∀ id task t, s.tasks.get? id = some task → running ≠ some id → task.due ≤ t →
    t < frontier → .tasksLeft t ∈ log

structure FiberBooks (log : List Event) (s : Scheduler) (running : Option Nat)
    (rest : List Nat) (frontier : Nat) : Prop where
  clock : now log = s.tick
  bound : frontier ≤ s.tick + 1
  issued : ∀ e ∈ log, ∀ id, e.fiber? = some id → id < s.nextFiberId
  below : ∀ id, (s.fibers.get? id).isSome → id < s.nextFiberId
  asleep : ∀ id, asleep id log = s.sleeping.get? id
  waiting : ∀ id, waiting id log = (s.pendingFibers.get? id).isSome
  alive : ∀ id, (s.sleeping.get? id).isSome ∨ (s.pendingFibers.get? id).isSome →
    (s.fibers.get? id).isSome
  apart : ∀ id, (s.pendingFibers.get? id).isSome → s.sleeping.get? id = none
  awake : ∀ id, running = some id → s.sleeping.get? id = none ∧ s.pendingFibers.get? id = none ∧
    id < s.nextFiberId
  queued : ∀ id wake, s.sleeping.get? id = some wake → ⟨wake, id⟩ ∈ s.sleepQueue.contents
  late : ∀ id wake t, s.sleeping.get? id = some wake → wake ≤ t → t < frontier →
    .tasksLeft t ∈ log ∨ .fibersLeft t ∈ log
  snapshot : rest.Nodup ∧ ∀ id ∈ rest, id < s.nextFiberId ∧
    ((s.fibers.get? id).isSome → (s.pendingFibers.get? id).isSome)

def Event.ofTasks : Event → Bool
  | .scheduled _ _ | .repeated _ _ | .cancelled _ | .ran _ _ | .threw _ | .tasksDone _
  | .tasksLeft _ => true
  | _ => false

def Event.ofFibers : Event → Bool
  | .spawned _ | .started _ _ | .slept _ _ | .woke _ _ | .fiberEnded _ | .wakesDone _
  | .fibersLeft _ => true
  | _ => false

variable {e : Event} {running : Option Nat} {frontier : Nat} {rest : List Nat}

theorem now_cons (h : ∀ t, e ≠ .ticked t) : now (e :: log) = now log := by
  cases e with
  | ticked t => exact absurd rfl (h t)
  | _ => rfl

theorem TaskBooks.ofFibers (h : TaskBooks log s running frontier) (he : e.ofFibers = true) :
    TaskBooks (e :: log) s running frontier where
  clock := by rw [now_cons (by rintro t rfl; cases he), h.clock]
  issued id hk := by
    rcases known_cons.mp hk with hid | hk
    · cases e <;> simp_all [Event.task?, Event.ofFibers]
    · exact h.issued id hk
  listed id task hg := known_cons.mpr (.inr (h.listed id task hg))
  current id hr := known_cons.mpr (.inr (h.current id hr))
  bound := h.bound
  deadline id := by
    rw [← h.deadline id]
    cases e <;> simp_all [Task.deadline, Event.ofFibers]
  period id task hg := by
    rw [← h.period id task hg]
    cases e <;> simp_all [Task.period, Event.ofFibers]
  positive := h.positive
  queued := h.queued
  overdue id task t hg hr hd ht := List.mem_cons_of_mem e (h.overdue id task t hg hr hd ht)

theorem FiberBooks.ofTasks (h : FiberBooks log s running rest frontier) (he : e.ofTasks = true) :
    FiberBooks (e :: log) s running rest frontier where
  clock := by rw [now_cons (by rintro t rfl; cases he), h.clock]
  bound := h.bound
  issued e' he' id hid := by
    rcases List.mem_cons.mp he' with rfl | he'
    · cases e' <;> simp_all [Event.fiber?, Event.ofTasks]
    · exact h.issued e' he' id hid
  below := h.below
  asleep id := by
    rw [← h.asleep id]
    cases e <;> simp_all [Task.asleep, Event.ofTasks]
  waiting id := by
    rw [← h.waiting id]
    cases e <;> simp_all [Task.waiting, Event.ofTasks]
  alive := h.alive
  apart := h.apart
  awake := h.awake
  queued := h.queued
  late id wake t hg hw ht := (h.late id wake t hg hw ht).imp (List.mem_cons_of_mem e)
    (List.mem_cons_of_mem e)
  snapshot := h.snapshot

theorem booked_of_none (h : s.tasks.get? id = none) : s.booked running id = none := by
  rw [Scheduler.booked, h]
  rfl

theorem booked_of_get {task : ScheduledTask} (h : s.tasks.get? id = some task) :
    s.booked none id = some task.due := by
  rw [Scheduler.booked, h, Option.bind_some, if_neg nofun]

theorem booked_other (h : running ≠ some id) : s.booked running id = s.booked none id := by
  rw [Scheduler.booked, Scheduler.booked]
  simp only [h, reduceCtorEq]

theorem TaskBooks.unlisted (h : TaskBooks log s running frontier) :
    s.tasks.get? s.nextTaskId = none := by
  cases hg : s.tasks.get? s.nextTaskId with
  | none => rfl
  | some task => exact absurd (h.issued _ (h.listed _ _ hg)) (lt_irrefl _)

theorem TaskBooks.fresh (h : TaskBooks log s running frontier) : ¬known s.nextTaskId log :=
  fun hk => lt_irrefl _ (h.issued _ hk)

theorem TaskBooks.enlist (h : TaskBooks log s running frontier) {due : Nat} {interval : Option Nat}
    (he : e.task? = some s.nextTaskId) (hdue : s.tick < due)
    (hpos : ∀ n, interval = some n → 0 < n)
    (hdeadline : ∀ id, Task.deadline id (e :: log) =
      if s.nextTaskId = id then some due else Task.deadline id log)
    (hperiod : ∀ id, Task.period id (e :: log) =
      if s.nextTaskId = id then interval else Task.period id log) :
    TaskBooks (e :: log) (s.enlist due interval) running frontier := by
  have hfresh := h.fresh
  have hrun : running ≠ some s.nextTaskId := fun hr => hfresh (h.current _ hr)
  refine ⟨?_, ?_, ?_, ?_, h.bound, ?_, ?_, ?_, ?_, ?_⟩
  · rw [now_cons (by rintro t rfl; cases he)]
    exact h.clock
  · intro id hk
    rcases known_cons.mp hk with hid | hk
    · rw [he] at hid
      cases hid
      exact Nat.lt_succ_self _
    · exact (h.issued id hk).trans (Nat.lt_succ_self _)
  · intro id task hg
    rw [Scheduler.enlist, OrderedMap.get?_set] at hg
    split_ifs at hg with hid
    · subst hid
      exact known_cons.mpr (.inl he)
    · exact known_cons.mpr (.inr (h.listed id task hg))
  · exact fun id hr => known_cons.mpr (.inr (h.current id hr))
  · intro id
    rw [hdeadline, Scheduler.booked, Scheduler.enlist, OrderedMap.get?_set]
    by_cases hid : s.nextTaskId = id
    · subst hid
      rw [if_pos rfl, if_pos rfl, Option.bind_some, if_neg hrun]
    · rw [if_neg hid, if_neg (Ne.symm hid), h.deadline]
      rfl
  · intro id task hg
    rw [Scheduler.enlist, OrderedMap.get?_set] at hg
    rw [hperiod]
    by_cases hid : s.nextTaskId = id
    · subst hid
      rw [if_pos rfl] at hg ⊢
      cases hg
      rfl
    · rw [if_neg (Ne.symm hid)] at hg
      rw [if_neg hid, h.period id task hg]
  · intro id task n hg hn
    rw [Scheduler.enlist, OrderedMap.get?_set] at hg
    split_ifs at hg with hid
    · cases hg
      exact hpos n hn
    · exact h.positive id task n hg hn
  · intro id task hg hr
    rw [Scheduler.enlist, OrderedMap.get?_set] at hg
    rw [Scheduler.enlist, DueQueue.contents_push, Multiset.mem_cons]
    split_ifs at hg with hid
    · cases hg
      exact .inl (by rw [hid])
    · exact .inr (h.queued id task hg hr)
  · intro id task t hg hr hd ht
    rw [Scheduler.enlist, OrderedMap.get?_set] at hg
    split_ifs at hg with hid
    · cases hg
      have := h.bound
      simp only at hd
      omega
    · exact List.mem_cons_of_mem _ (h.overdue id task t hg hr hd ht)

theorem TaskBooks.drop (h : TaskBooks log s running frontier)
    (he : e = .cancelled id ∨ e = .threw id) :
    TaskBooks (e :: log) { s with tasks := s.tasks.unset id } running frontier where
  clock := by
    rw [now_cons (by rintro t rfl; simp at he)]
    exact h.clock
  issued id' hk' := by
    rcases known_cons.mp hk' with hid | hk'
    · rcases he with rfl | rfl <;> cases hid
    · exact h.issued id' hk'
  listed id' task hg := known_cons.mpr (.inr (h.listed id' task (OrderedMap.get?_unset_some hg).2))
  current id' hr := known_cons.mpr (.inr (h.current id' hr))
  bound := h.bound
  deadline id' := by
    have hd : Task.deadline id' (e :: log) =
        if id = id' then none else Task.deadline id' log := by
      rcases he with rfl | rfl <;> rfl
    rw [hd, Scheduler.booked, OrderedMap.get?_unset]
    by_cases hid : id = id'
    · rw [if_pos hid, if_pos hid.symm]
      rfl
    · rw [if_neg hid, if_neg (Ne.symm hid), h.deadline]
      rfl
  period id' task hg := by
    rw [← h.period id' task (OrderedMap.get?_unset_some hg).2]
    rcases he with rfl | rfl <;> rfl
  positive id' task n hg := h.positive id' task n (OrderedMap.get?_unset_some hg).2
  queued id' task hg := h.queued id' task (OrderedMap.get?_unset_some hg).2
  overdue id' task t hg hr hd ht := List.mem_cons_of_mem _
    (h.overdue id' task t (OrderedMap.get?_unset_some hg).2 hr hd ht)

theorem mem_pushed {entries : List (Nat × ScheduledTask)} {queue : DueQueue} {entry : Entry}
    (h : entry ∈ queue.contents ∨ ∃ e ∈ entries, entry = ⟨e.2.due, e.1⟩) :
    entry ∈ (entries.foldl (fun queue e => DueQueue.push queue e.2.due e.1) queue).contents := by
  induction entries generalizing queue with
  | nil =>
    rcases h with h | ⟨e, he, -⟩
    · exact h
    · exact absurd he List.not_mem_nil
  | cons e entries ih =>
    refine ih ?_
    rw [DueQueue.contents_push, Multiset.mem_cons]
    rcases h with h | ⟨e', he', rfl⟩
    · exact .inl (.inr h)
    · rcases List.mem_cons.mp he' with rfl | he'
      · exact .inl (.inl rfl)
      · exact .inr ⟨e', he', rfl⟩

theorem mem_compacted {task : ScheduledTask} (hg : s.tasks.get? id = some task)
    (hq : ⟨task.due, id⟩ ∈ s.taskQueue.contents) :
    ⟨task.due, id⟩ ∈ s.compactTaskQueueIfNeeded.taskQueue.contents := by
  have hm := OrderedMap.get?_eq_some.mp hg
  unfold Scheduler.compactTaskQueueIfNeeded
  split_ifs with hempty hfew
  · rw [hempty] at hm
    exact absurd hm List.not_mem_nil
  · exact hq
  · exact mem_pushed (.inr ⟨_, hm, rfl⟩)

@[simp] theorem compact_tick : s.compactTaskQueueIfNeeded.tick = s.tick := by
  unfold Scheduler.compactTaskQueueIfNeeded
  split_ifs <;> rfl

@[simp] theorem compact_tasks : s.compactTaskQueueIfNeeded.tasks = s.tasks := by
  unfold Scheduler.compactTaskQueueIfNeeded
  split_ifs <;> rfl

@[simp] theorem compact_nextTaskId : s.compactTaskQueueIfNeeded.nextTaskId = s.nextTaskId := by
  unfold Scheduler.compactTaskQueueIfNeeded
  split_ifs <;> rfl

theorem TaskBooks.compact (h : TaskBooks log s running frontier) :
    TaskBooks log s.compactTaskQueueIfNeeded running frontier where
  clock := by rw [compact_tick, h.clock]
  issued := by simpa using h.issued
  listed := by simpa using h.listed
  current := h.current
  bound := by simpa using h.bound
  deadline id := by simpa [Scheduler.booked] using h.deadline id
  period := by simpa using h.period
  positive := by simpa using h.positive
  queued id task hg hr := by
    rw [compact_tasks] at hg
    exact mem_compacted hg (h.queued id task hg hr)
  overdue := by simpa using h.overdue

-- The popped entry goes; what it said is either stale or belongs to the task about to run.
theorem TaskBooks.popped (h : TaskBooks log s none frontier) {entry : Entry} {queue : DueQueue}
    {stale : Nat} (hp : s.taskQueue.pop = some (entry, queue))
    (hstale : ∀ task, s.tasks.get? entry.id = some task → task.due ≠ entry.due) :
    TaskBooks log { s with taskQueue := queue, staleTaskEntries := stale } none frontier := by
  refine ⟨h.clock, h.issued, h.listed, h.current, h.bound, h.deadline, h.period, h.positive, ?_,
    h.overdue⟩
  intro id task hg hr
  refine DueQueue.mem_of_pop hp ?_ (h.queued id task hg hr)
  rintro rfl
  exact hstale task hg rfl

theorem TaskBooks.runs (h : TaskBooks log s none frontier) {entry : Entry} {queue : DueQueue}
    {task : ScheduledTask} (hp : s.taskQueue.pop = some (entry, queue))
    (hg : s.tasks.get? entry.id = some task) :
    TaskBooks (.ran entry.id s.tick :: log) { s with taskQueue := queue } (some entry.id)
      frontier := by
  refine ⟨h.clock, ?_, ?_, ?_, h.bound, ?_, h.period, h.positive, ?_, ?_⟩
  · intro id hk
    exact h.issued id ((known_cons.mp hk).resolve_left fun h => by cases h)
  · exact fun id task hg => known_cons.mpr (.inr (h.listed id task hg))
  · rintro id hr
    cases hr
    exact known_cons.mpr (.inr (h.listed _ _ hg))
  · intro id
    rw [Task.deadline]
    by_cases hid : entry.id = id
    · subst hid
      rw [if_pos rfl, h.period _ _ hg, Scheduler.booked, hg, Option.bind_some, if_pos rfl]
    · rw [if_neg hid, h.deadline, booked_other fun heq => hid (Option.some.inj heq)]
      rfl
  · intro id task' hg' hr
    refine DueQueue.mem_of_pop hp ?_ (h.queued id task' hg' fun h => by cases h)
    rintro rfl
    exact hr rfl
  · intro id task' t hg' hr hd ht
    exact List.mem_cons_of_mem _ (h.overdue id task' t hg' (fun h => by cases h) hd ht)

theorem TaskBooks.returned (h : TaskBooks log s (some id) frontier) {task : ScheduledTask}
    (hint : ∀ current, s.tasks.get? id = some current → current.interval = task.interval) :
    TaskBooks log (s.taskReturned id task) none frontier := by
  have hother : ∀ id', id' ≠ id → s.booked (some id) id' = s.booked none id' :=
    fun id' hne => booked_other fun heq => hne (Option.some.inj heq).symm
  unfold Scheduler.taskReturned
  cases hg : s.tasks.get? id with
  | none =>
    have hne : ∀ {id' task'}, s.tasks.get? id' = some task' → some id ≠ some id' := by
      rintro id' task' hg' ⟨rfl⟩
      exact nomatch hg.symm.trans hg'
    refine ⟨h.clock, h.issued, h.listed, nofun, h.bound, ?_, h.period, h.positive, ?_, ?_⟩
    · intro id'
      rw [h.deadline]
      by_cases hid : id' = id
      · rw [hid, booked_of_none hg, booked_of_none hg]
      · exact hother id' hid
    · exact fun id' task' hg' _ => h.queued id' task' hg' (hne hg')
    · exact fun id' task' t hg' _ => h.overdue id' task' t hg' (hne hg')
  | some current =>
    have hbooked : s.booked (some id) id = task.interval.map (s.tick + ·) := by
      rw [Scheduler.booked, hg, Option.bind_some, if_pos rfl, hint current hg]
    cases hi : task.interval with
    | none =>
      refine ⟨h.clock, h.issued, ?_, nofun, h.bound, ?_, ?_, ?_, ?_, ?_⟩
      · exact fun id' task' hg' => h.listed id' task' (OrderedMap.get?_unset_some hg').2
      · intro id'
        rw [h.deadline]
        by_cases hid : id' = id
        · subst hid
          rw [hbooked, hi, booked_of_none OrderedMap.get?_unset_self]
          rfl
        · rw [hother id' hid, Scheduler.booked, Scheduler.booked, OrderedMap.get?_unset,
            if_neg hid]
      · exact fun id' task' hg' => h.period id' task' (OrderedMap.get?_unset_some hg').2
      · exact fun id' task' n hg' => h.positive id' task' n (OrderedMap.get?_unset_some hg').2
      · intro id' task' hg' _
        obtain ⟨hne, hg'⟩ := OrderedMap.get?_unset_some hg'
        exact h.queued id' task' hg' fun heq => hne (Option.some.inj heq).symm
      · intro id' task' t hg' _
        obtain ⟨hne, hg'⟩ := OrderedMap.get?_unset_some hg'
        exact h.overdue id' task' t hg' fun heq => hne (Option.some.inj heq).symm
    | some interval =>
      have hpos := h.positive id current interval hg ((hint current hg).trans hi)
      refine ⟨h.clock, h.issued, ?_, nofun, h.bound, ?_, ?_, ?_, ?_, ?_⟩
      · intro id' task' hg'
        rw [OrderedMap.get?_set] at hg'
        split_ifs at hg' with hid
        · exact hid ▸ h.current id rfl
        · exact h.listed id' task' hg'
      · intro id'
        rw [h.deadline]
        by_cases hid : id' = id
        · subst hid
          rw [hbooked, hi, booked_of_get OrderedMap.get?_set_self]
          rfl
        · rw [hother id' hid, Scheduler.booked, Scheduler.booked, OrderedMap.get?_set, if_neg hid]
      · intro id' task' hg'
        rw [OrderedMap.get?_set] at hg'
        split_ifs at hg' with hid
        · cases hg'
          rw [hid, h.period id current hg]
        · exact h.period id' task' hg'
      · intro id' task' n hg' hn
        rw [OrderedMap.get?_set] at hg'
        split_ifs at hg' with hid
        · cases hg'
          exact h.positive id current n hg hn
        · exact h.positive id' task' n hg' hn
      · intro id' task' hg' _
        rw [OrderedMap.get?_set] at hg'
        rw [DueQueue.contents_push, Multiset.mem_cons]
        split_ifs at hg' with hid
        · cases hg'
          exact .inl (by rw [hid])
        · exact .inr (h.queued id' task' hg' fun heq => hid (Option.some.inj heq).symm)
      · intro id' task' t hg' _ hd ht
        rw [OrderedMap.get?_set] at hg'
        split_ifs at hg' with hid
        · cases hg'
          have := h.bound
          simp only at hd
          omega
        · exact h.overdue id' task' t hg' (fun heq => hid (Option.some.inj heq).symm) hd ht

theorem TaskBooks.ticked (h : TaskBooks log s none (s.tick + 1)) :
    TaskBooks (.ticked (s.tick + 1) :: log) { s with tick := s.tick + 1 } none (s.tick + 1) :=
  ⟨rfl, fun id hk => h.issued id ((known_cons.mp hk).resolve_left nofun),
    fun id task hg => known_cons.mpr (.inr (h.listed id task hg)), nofun, Nat.le_succ _,
    h.deadline, h.period, h.positive, h.queued,
    fun id task t hg hr hd ht => List.mem_cons_of_mem _ (h.overdue id task t hg hr hd ht)⟩

theorem TaskBooks.loopOver (h : TaskBooks log s none s.tick)
    (he : e = .tasksLeft s.tick ∨ e = .tasksDone s.tick)
    (hdone : e ≠ .tasksLeft s.tick → ∀ id task, s.tasks.get? id = some task → s.tick < task.due) :
    TaskBooks (e :: log) s none (s.tick + 1) where
  clock := by
    rw [now_cons (by rintro t rfl; simp at he)]
    exact h.clock
  issued id hk := by
    refine h.issued id ((known_cons.mp hk).resolve_left ?_)
    rcases he with rfl | rfl <;> nofun
  listed id task hg := known_cons.mpr (.inr (h.listed id task hg))
  current := nofun
  bound := le_refl _
  deadline id := by
    rw [← h.deadline id]
    rcases he with rfl | rfl <;> rfl
  period id task hg := by
    rw [← h.period id task hg]
    rcases he with rfl | rfl <;> rfl
  positive := h.positive
  queued := h.queued
  overdue id task t hg hr hd ht := by
    rcases Nat.lt_succ_iff_lt_or_eq.mp ht with ht | rfl
    · exact List.mem_cons_of_mem _ (h.overdue id task t hg hr hd ht)
    · by_cases hl : e = .tasksLeft s.tick
      · exact hl ▸ List.mem_cons_self
      · exact absurd (hdone hl id task hg) (not_lt.mpr hd)

theorem TaskBooks.weaken (h : TaskBooks log s running frontier) (hr : s.tasks.get? id = none) :
    running = some id → TaskBooks log s none frontier := by
  rintro rfl
  have hne : ∀ {id' task}, s.tasks.get? id' = some task → some id ≠ some id' := by
    rintro id' task hg ⟨rfl⟩
    exact nomatch hr.symm.trans hg
  refine ⟨h.clock, h.issued, h.listed, nofun, h.bound, ?_, h.period, h.positive, ?_, ?_⟩
  · intro id'
    rw [h.deadline]
    cases hg : s.tasks.get? id' with
    | none => rw [booked_of_none hg, booked_of_none hg]
    | some task => exact booked_other (hne hg)
  · exact fun id' task hg _ => h.queued id' task hg (hne hg)
  · exact fun id' task t hg _ => h.overdue id' task t hg (hne hg)

theorem TaskBooks.shutdown (h : TaskBooks log s running frontier) :
    TaskBooks (.shutdown :: log) s.shutdown running frontier :=
  ⟨h.clock, fun id hk => h.issued id ((known_cons.mp hk).resolve_left nofun), nofun,
    fun id hr => known_cons.mpr (.inr (h.current id hr)), h.bound, fun _ => rfl, nofun, nofun,
    nofun, nofun⟩

theorem FiberBooks.settle (h : FiberBooks log s running rest frontier) :
    FiberBooks log s none [] frontier :=
  { h with awake := nofun, snapshot := ⟨List.nodup_nil, nofun⟩ }

theorem FiberBooks.between (h : FiberBooks log s running rest frontier) :
    FiberBooks log s none rest frontier :=
  { h with awake := nofun }

theorem FiberBooks.noted (h : FiberBooks log s running rest frontier) {t : Nat}
    (he : e = .wakesDone t ∨ e = .fibersLeft t) :
    FiberBooks (e :: log) s running rest frontier where
  clock := by
    rw [now_cons (by rintro t' rfl; simp at he)]
    exact h.clock
  bound := h.bound
  issued e' he' id hid := by
    rcases List.mem_cons.mp he' with rfl | he'
    · rcases he with rfl | rfl <;> cases hid
    · exact h.issued e' he' id hid
  below := h.below
  asleep id := by
    rw [← h.asleep id]
    rcases he with rfl | rfl <;> rfl
  waiting id := by
    rw [← h.waiting id]
    rcases he with rfl | rfl <;> rfl
  alive := h.alive
  apart := h.apart
  awake := h.awake
  queued := h.queued
  late id wake t hg hw ht := (h.late id wake t hg hw ht).imp (List.mem_cons_of_mem e)
    (List.mem_cons_of_mem e)
  snapshot := h.snapshot

-- A tick is over for the sleepers when it was left, or when nobody is due any more.
theorem FiberBooks.tickOver (h : FiberBooks log s none [] s.tick)
    (hover : (.tasksLeft s.tick ∈ log ∨ .fibersLeft s.tick ∈ log) ∨
      ∀ id wake, s.sleeping.get? id = some wake → s.tick < wake) :
    FiberBooks log s none [] (s.tick + 1) where
  clock := h.clock
  bound := le_refl _
  issued := h.issued
  below := h.below
  asleep := h.asleep
  waiting := h.waiting
  alive := h.alive
  apart := h.apart
  awake := h.awake
  queued := h.queued
  late id wake t hg hw ht := by
    rcases Nat.lt_succ_iff_lt_or_eq.mp ht with ht | rfl
    · exact h.late id wake t hg hw ht
    · exact hover.elim (fun hl => hl) fun hd => absurd (hd id wake hg) (not_lt.mpr hw)
  snapshot := h.snapshot

theorem FiberBooks.ticked (h : FiberBooks log s none [] (s.tick + 1)) :
    FiberBooks (.ticked (s.tick + 1) :: log) { s with tick := s.tick + 1 } none [] (s.tick + 1) where
  clock := rfl
  bound := Nat.le_succ _
  issued e he id hid := by
    rcases List.mem_cons.mp he with rfl | he
    · cases hid
    · exact h.issued e he id hid
  below := h.below
  asleep := h.asleep
  waiting := h.waiting
  alive := h.alive
  apart := h.apart
  awake := h.awake
  queued := h.queued
  late id wake t hg hw ht := (h.late id wake t hg hw ht).imp (List.mem_cons_of_mem _)
    (List.mem_cons_of_mem _)
  snapshot := h.snapshot

theorem FiberBooks.listed (h : FiberBooks log s none [] frontier) :
    FiberBooks log s none s.pendingFibers.keys frontier :=
  { h with
    snapshot := ⟨s.pendingFibers.keys_nodup, fun id hid =>
      have hp := OrderedMap.mem_keys.mp hid
      ⟨h.below id (h.alive id (.inr hp)), fun _ => hp⟩⟩ }

theorem FiberBooks.unstarted (h : FiberBooks log s running rest frontier) :
    s.pendingFibers.get? s.nextFiberId = none ∧ s.sleeping.get? s.nextFiberId = none := by
  have hnone : ¬(s.fibers.get? s.nextFiberId).isSome := fun hf => lt_irrefl _ (h.below _ hf)
  refine ⟨?_, ?_⟩
  · exact Option.not_isSome_iff_eq_none.mp fun hp => hnone (h.alive _ (.inr hp))
  · exact Option.not_isSome_iff_eq_none.mp fun hp => hnone (h.alive _ (.inl hp))

theorem FiberBooks.spawn (h : FiberBooks log s running rest frontier) :
    FiberBooks (.spawned s.nextFiberId :: log) s.spawn running rest frontier where
  clock := h.clock
  bound := h.bound
  issued e he id hid := by
    rcases List.mem_cons.mp he with rfl | he
    · cases hid
      exact Nat.lt_succ_self _
    · exact (h.issued e he id hid).trans (Nat.lt_succ_self _)
  below id hf := by
    rw [Scheduler.spawn, OrderedMap.get?_set] at hf
    split_ifs at hf with hid
    · exact hid ▸ Nat.lt_succ_self _
    · exact (h.below id hf).trans (Nat.lt_succ_self _)
  asleep := h.asleep
  waiting id := by
    rw [Scheduler.spawn, OrderedMap.get?_set, Task.waiting, h.waiting]
    by_cases hid : s.nextFiberId = id
    · rw [if_pos hid, if_pos hid.symm]
      rfl
    · rw [if_neg hid, if_neg (Ne.symm hid)]
  alive id hp := by
    rw [Scheduler.spawn, OrderedMap.get?_set] at hp ⊢
    split_ifs with hid
    · rfl
    · rw [if_neg hid] at hp
      exact h.alive id hp
  apart id hp := by
    rw [Scheduler.spawn, OrderedMap.get?_set] at hp
    split_ifs at hp with hid
    · exact hid ▸ h.unstarted.2
    · exact h.apart id hp
  awake id hr := by
    obtain ⟨hs, hp, hlt⟩ := h.awake id hr
    refine ⟨hs, ?_, hlt.trans (Nat.lt_succ_self _)⟩
    rw [Scheduler.spawn, OrderedMap.get?_set, if_neg hlt.ne, hp]
  queued := h.queued
  late id wake t hg hw ht := (h.late id wake t hg hw ht).imp (List.mem_cons_of_mem _)
    (List.mem_cons_of_mem _)
  snapshot := by
    refine ⟨h.snapshot.1, fun id hid => ?_⟩
    obtain ⟨hlt, hp⟩ := h.snapshot.2 id hid
    refine ⟨hlt.trans (Nat.lt_succ_self _), ?_⟩
    rw [Scheduler.spawn, OrderedMap.get?_set, OrderedMap.get?_set, if_neg hlt.ne, if_neg hlt.ne]
    exact hp

theorem isSome_unset {β : Type} {map : OrderedMap Nat β} {j : Nat}
    (h : ((map.unset j).get? id).isSome) : id ≠ j ∧ (map.get? id).isSome := by
  rw [OrderedMap.get?_unset] at h
  split_ifs at h with hid
  · cases h
  · exact ⟨hid, h⟩

theorem FiberBooks.ended (h : FiberBooks log s running rest frontier) :
    FiberBooks (.fiberEnded id :: log) (s.forgetFiber id) running rest frontier where
  clock := h.clock
  bound := h.bound
  issued e he id hid := by
    rcases List.mem_cons.mp he with rfl | he
    · cases hid
    · exact h.issued e he id hid
  below id' hf := h.below id' (isSome_unset hf).2
  asleep id' := by
    rw [Scheduler.forgetFiber, OrderedMap.get?_unset, Task.asleep, h.asleep]
    simp only [eq_comm]
  waiting id' := by
    rw [Scheduler.forgetFiber, OrderedMap.get?_unset, Task.waiting, h.waiting]
    by_cases hid : id = id'
    · rw [if_pos hid, if_pos hid.symm]
      rfl
    · rw [if_neg hid, if_neg (Ne.symm hid)]
  alive id' hp := by
    have hp : id' ≠ id ∧ ((s.sleeping.get? id').isSome ∨ (s.pendingFibers.get? id').isSome) := by
      rcases hp with hp | hp
      · exact (isSome_unset hp).imp_right .inl
      · exact (isSome_unset hp).imp_right .inr
    rw [Scheduler.forgetFiber, OrderedMap.get?_unset, if_neg hp.1]
    exact h.alive id' hp.2
  apart id' hp := by
    obtain ⟨hne, hp⟩ := isSome_unset hp
    rw [Scheduler.forgetFiber, OrderedMap.get?_unset, if_neg hne]
    exact h.apart id' hp
  awake id' hr := by
    obtain ⟨hs, hp, hlt⟩ := h.awake id' hr
    rw [Scheduler.forgetFiber, OrderedMap.get?_unset, OrderedMap.get?_unset, hs, hp]
    exact ⟨ite_self _, ite_self _, hlt⟩
  queued id' wake hg := h.queued id' wake (OrderedMap.get?_unset_some hg).2
  late id' wake t hg hw ht :=
    (h.late id' wake t (OrderedMap.get?_unset_some hg).2 hw ht).imp (List.mem_cons_of_mem _)
      (List.mem_cons_of_mem _)
  snapshot := by
    refine ⟨h.snapshot.1, fun id' hid => ?_⟩
    obtain ⟨hlt, hp⟩ := h.snapshot.2 id' hid
    refine ⟨hlt, fun hf => ?_⟩
    obtain ⟨hne, hf⟩ := isSome_unset hf
    rw [Scheduler.forgetFiber, OrderedMap.get?_unset, if_neg hne]
    exact hp hf

theorem FiberBooks.skipped (h : FiberBooks log s none (id :: rest) frontier)
    (hf : s.fibers.get? id = none) :
    FiberBooks log { s with pendingFibers := s.pendingFibers.unset id } none rest frontier := by
  have hp : s.pendingFibers.get? id = none := by
    refine Option.not_isSome_iff_eq_none.mp fun hp => ?_
    have := h.alive id (.inr hp)
    rw [hf] at this
    cases this
  have hsame : ∀ id', (s.pendingFibers.unset id).get? id' = s.pendingFibers.get? id' := by
    intro id'
    rw [OrderedMap.get?_unset]
    split_ifs with hid
    · rw [hid, hp]
    · rfl
  refine ⟨h.clock, h.bound, h.issued, h.below, h.asleep, ?_, ?_, ?_, nofun, h.queued, h.late, ?_⟩
  · simpa only [hsame] using h.waiting
  · simpa only [hsame] using h.alive
  · simpa only [hsame] using h.apart
  · refine ⟨h.snapshot.1.of_cons, fun id' hid => ?_⟩
    simpa only [hsame] using h.snapshot.2 id' (List.mem_cons_of_mem _ hid)

theorem FiberBooks.started (h : FiberBooks log s none (id :: rest) frontier)
    (hf : (s.fibers.get? id).isSome) :
    FiberBooks (.started id s.tick :: log)
      { s with pendingFibers := s.pendingFibers.unset id } (some id) rest frontier := by
  have hhead := h.snapshot.2 id List.mem_cons_self
  refine ⟨h.clock, h.bound, ?_, h.below, h.asleep, ?_, ?_, ?_, ?_, h.queued, ?_, ?_⟩
  · intro e he id' hid
    rcases List.mem_cons.mp he with rfl | he
    · cases hid
    · exact h.issued e he id' hid
  · intro id'
    rw [OrderedMap.get?_unset, Task.waiting, h.waiting]
    by_cases hid : id = id'
    · rw [if_pos hid, if_pos hid.symm]
      rfl
    · rw [if_neg hid, if_neg (Ne.symm hid)]
  · exact fun id' hp => h.alive id' (hp.imp_right fun hp => (isSome_unset hp).2)
  · exact fun id' hp => h.apart id' (isSome_unset hp).2
  · rintro id' hr
    cases hr
    exact ⟨h.apart id (hhead.2 hf), OrderedMap.get?_unset_self, hhead.1⟩
  · exact fun id' wake t hg hw ht => (h.late id' wake t hg hw ht).imp (List.mem_cons_of_mem _)
      (List.mem_cons_of_mem _)
  · refine ⟨h.snapshot.1.of_cons, fun id' hid => ?_⟩
    have hne : id' ≠ id := by
      rintro rfl
      exact h.snapshot.1.notMem hid
    rw [OrderedMap.get?_unset, if_neg hne]
    exact h.snapshot.2 id' (List.mem_cons_of_mem _ hid)

theorem FiberBooks.popped (h : FiberBooks log s none rest frontier) {entry : Entry}
    {queue : DueQueue} (hp : s.sleepQueue.pop = some (entry, queue))
    (hstale : s.sleeping.get? entry.id ≠ some entry.due) :
    FiberBooks log { s with sleepQueue := queue } none rest frontier := by
  refine ⟨h.clock, h.bound, h.issued, h.below, h.asleep, h.waiting, h.alive, h.apart, nofun, ?_,
    h.late, h.snapshot⟩
  intro id wake hg
  refine DueQueue.mem_of_pop hp ?_ (h.queued id wake hg)
  rintro rfl
  exact hstale hg

theorem FiberBooks.woke (h : FiberBooks log s none [] frontier) {entry : Entry} {queue : DueQueue}
    (hp : s.sleepQueue.pop = some (entry, queue))
    (hg : s.sleeping.get? entry.id = some entry.due) :
    FiberBooks (.woke entry.id s.tick :: log)
      { s with sleepQueue := queue, sleeping := s.sleeping.unset entry.id } (some entry.id) []
      frontier := by
  have halive := h.alive entry.id (.inl (by rw [hg]; rfl))
  refine ⟨h.clock, h.bound, ?_, h.below, ?_, h.waiting, ?_, ?_, ?_, ?_, ?_, h.snapshot⟩
  · intro e he id' hid
    rcases List.mem_cons.mp he with rfl | he
    · cases hid
    · exact h.issued e he id' hid
  · intro id
    rw [OrderedMap.get?_unset, Task.asleep, h.asleep]
    simp only [eq_comm]
  · exact fun id hp => h.alive id (hp.imp_left fun hp => (isSome_unset hp).2)
  · intro id hp
    rw [OrderedMap.get?_unset, h.apart id hp, ite_self]
  · rintro id hr
    cases hr
    refine ⟨OrderedMap.get?_unset_self, ?_, h.below _ halive⟩
    refine Option.not_isSome_iff_eq_none.mp fun hp => ?_
    exact nomatch (h.apart _ hp).symm.trans hg
  · intro id wake hg'
    obtain ⟨hne, hg'⟩ := OrderedMap.get?_unset_some hg'
    refine DueQueue.mem_of_pop hp ?_ (h.queued id wake hg')
    rintro rfl
    exact hne rfl
  · exact fun id wake t hg' hw ht =>
      (h.late id wake t (OrderedMap.get?_unset_some hg').2 hw ht).imp (List.mem_cons_of_mem _)
        (List.mem_cons_of_mem _)

theorem FiberBooks.slept (h : FiberBooks log s (some id) rest frontier) (sleep : Sleep)
    (hf : (s.fibers.get? id).isSome) :
    FiberBooks (.slept id sleep.ticks :: log) (s.sleepFiber id sleep) none rest frontier := by
  have hpos := sleep.positive
  refine ⟨h.clock, h.bound, ?_, h.below, ?_, h.waiting, ?_, ?_, nofun, ?_, ?_, h.snapshot⟩
  · intro e he id' hid
    rcases List.mem_cons.mp he with rfl | he
    · cases hid
    · exact h.issued e he id' hid
  · intro id'
    rw [Scheduler.sleepFiber, OrderedMap.get?_set, Task.asleep, h.asleep, h.clock]
    simp only [eq_comm]
  · intro id' hp
    rw [Scheduler.sleepFiber, OrderedMap.get?_set] at hp
    by_cases hid : id' = id
    · exact hid ▸ hf
    · rw [if_neg hid] at hp
      exact h.alive id' hp
  · intro id' hp
    have hne : id' ≠ id := by
      rintro rfl
      rw [Scheduler.sleepFiber, (h.awake id' rfl).2.1] at hp
      cases hp
    rw [Scheduler.sleepFiber, OrderedMap.get?_set, if_neg hne]
    exact h.apart id' hp
  · intro id' wake hg
    rw [Scheduler.sleepFiber, OrderedMap.get?_set] at hg
    rw [Scheduler.sleepFiber, DueQueue.contents_push, Multiset.mem_cons]
    split_ifs at hg with hid
    · cases hg
      exact .inl (by rw [hid])
    · exact .inr (h.queued id' wake hg)
  · intro id' wake t hg hw ht
    rw [Scheduler.sleepFiber, OrderedMap.get?_set] at hg
    split_ifs at hg with hid
    · cases hg
      have := h.bound
      omega
    · exact (h.late id' wake t hg hw ht).imp (List.mem_cons_of_mem _) (List.mem_cons_of_mem _)

theorem FiberBooks.shutdown (h : FiberBooks log s running rest frontier) :
    FiberBooks (.shutdown :: log) s.shutdown running rest frontier where
  clock := h.clock
  bound := h.bound
  issued e he id hid := by
    rcases List.mem_cons.mp he with rfl | he
    · cases hid
    · exact h.issued e he id hid
  below := nofun
  asleep _ := rfl
  waiting _ := rfl
  alive _ hp := hp.elim nofun nofun
  apart := nofun
  awake id hr := ⟨rfl, rfl, (h.awake id hr).2.2⟩
  queued := nofun
  late := nofun
  snapshot := ⟨h.snapshot.1, fun id hid => ⟨(h.snapshot.2 id hid).1, nofun⟩⟩

end Cobblestone.Task
