import Mathlib.Data.List.Infix

namespace Cobblestone.Task

-- What a scheduler was asked to do and what it did, newest first.
inductive Event where
  | ticked (t : Nat)
  | scheduled (id delayTicks : Nat)
  | repeated (id intervalTicks : Nat)
  | cancelled (id : Nat)
  | ran (id t : Nat)
  | threw (id : Nat)
  | tasksDone (t : Nat)
  | tasksLeft (t : Nat)
  | spawned (id : Nat)
  | started (id t : Nat)
  | slept (id ticks : Nat)
  | woke (id t : Nat)
  | fiberEnded (id : Nat)
  | wakesDone (t : Nat)
  | fibersLeft (t : Nat)
  | shutdown
deriving DecidableEq, Repr

def now : List Event → Nat
  | [] => 0
  | .ticked t :: _ => t
  | _ :: past => now past

def Event.task? : Event → Option Nat
  | .scheduled id _ | .repeated id _ => some id
  | _ => none

def Event.fiber? : Event → Option Nat
  | .spawned id => some id
  | _ => none

def known (id : Nat) (past : List Event) : Prop := ∃ e ∈ past, e.task? = some id

def period (id : Nat) : List Event → Option Nat
  | [] => none
  | .repeated j ticks :: past => if j = id then some ticks else period id past
  | _ :: past => period id past

-- The tick a task is next due at, as the calls and callbacks so far determine it.
def deadline (id : Nat) : List Event → Option Nat
  | [] => none
  | .scheduled j delayTicks :: past =>
    if j = id then some (now past + max 1 delayTicks) else deadline id past
  | .repeated j ticks :: past => if j = id then some (now past + ticks) else deadline id past
  | .ran j t :: past => if j = id then (period id past).map (t + ·) else deadline id past
  | .cancelled j :: past | .threw j :: past => if j = id then none else deadline id past
  | .shutdown :: _ => none
  | _ :: past => deadline id past

def asleep (id : Nat) : List Event → Option Nat
  | [] => none
  | .slept j ticks :: past => if j = id then some (now past + ticks) else asleep id past
  | .woke j _ :: past | .fiberEnded j :: past => if j = id then none else asleep id past
  | .shutdown :: _ => none
  | _ :: past => asleep id past

def waiting (id : Nat) : List Event → Bool
  | [] => false
  | .spawned j :: past => if j = id then true else waiting id past
  | .started j _ :: past | .fiberEnded j :: past => if j = id then false else waiting id past
  | .shutdown :: _ => false
  | _ :: past => waiting id past

-- A task runs at its deadline, or later only if every task loop since then was left by an exception;
-- once a loop is done nothing due remains.
def Justified (past : List Event) : Event → Prop
  | .ticked t => t = now past + 1
  | .scheduled id _ => ¬known id past
  | .repeated id ticks => 0 < ticks ∧ ¬known id past
  | .ran id t => t = now past ∧ ∃ due, deadline id past = some due ∧ due ≤ t ∧
      ∀ t', due ≤ t' → t' < t → .tasksLeft t' ∈ past
  | .tasksDone t => t = now past ∧ ∀ id due, deadline id past = some due → t < due
  | .tasksLeft t => t = now past
  | .spawned id => ∀ e ∈ past, e.fiber? ≠ some id
  | .started id t => t = now past ∧ waiting id past = true
  | .slept id ticks => 0 < ticks ∧ asleep id past = none
  | .woke id t => t = now past ∧ ∃ wake, asleep id past = some wake ∧ wake ≤ t ∧
      ∀ t', wake ≤ t' → t' < t → .tasksLeft t' ∈ past ∨ .fibersLeft t' ∈ past
  | .wakesDone t => t = now past ∧ ∀ id wake, asleep id past = some wake → t < wake
  | .fibersLeft t => t = now past
  | .cancelled id | .threw id => known id past
  | .fiberEnded _ | .shutdown => True

def Punctual (log : List Event) : Prop :=
  ∀ past e, e :: past <:+ log → Justified past e

def runs (id : Nat) : List Event → Nat
  | [] => 0
  | .ran j _ :: past => if j = id then runs id past + 1 else runs id past
  | _ :: past => runs id past

variable {log past : List Event} {e : Event} {id : Nat}

theorem Punctual.nil : Punctual [] := by
  intro past e h
  exact absurd (List.suffix_nil.mp h) (List.cons_ne_nil e past)

theorem Punctual.cons (h : Punctual log) (he : Justified log e) : Punctual (e :: log) := by
  intro past e' hs
  rcases List.suffix_cons_iff.mp hs with heq | hs
  · cases heq
    exact he
  · exact h past e' hs

theorem Punctual.tail (h : Punctual (e :: log)) : Punctual log :=
  fun past e' hs => h past e' (hs.trans (List.suffix_cons e log))

theorem Punctual.head (h : Punctual (e :: log)) : Justified log e :=
  h log e (List.suffix_refl _)

theorem known_cons : known id (e :: past) ↔ e.task? = some id ∨ known id past := by
  simp [known]

theorem not_known_nil : ¬known id [] := by
  simp [known]

theorem known.mono {later : List Event} (h : known id past) : known id (later ++ past) := by
  obtain ⟨e, he, hid⟩ := h
  exact ⟨e, List.mem_append_right _ he, hid⟩

theorem unknown_spec (h : ¬known id log) :
    period id log = none ∧
    (Punctual log → deadline id log = none ∧ runs id log = 0) := by
  induction log with
  | nil => exact ⟨rfl, fun _ => ⟨rfl, rfl⟩⟩
  | cons e past ih =>
    obtain ⟨he, hpast⟩ := not_or.mp (known_cons.not.mp h)
    obtain ⟨hperiod, hrest⟩ := ih hpast
    refine ⟨?_, fun hp => ?_⟩
    · cases e <;> simp_all [period, Event.task?]
    · obtain ⟨hdeadline, hcount⟩ := hrest hp.tail
      have hhead := hp.head
      cases e with
      | ran j t =>
        obtain ⟨-, due, hdue, -⟩ := hhead
        have hj : j ≠ id := by
          rintro rfl
          exact nomatch hdeadline.symm.trans hdue
        exact ⟨by rw [deadline, if_neg hj, hdeadline], by rw [runs, if_neg hj, hcount]⟩
      | _ => simp_all [deadline, Event.task?, runs]

theorem deadline_known (hp : Punctual log) {due : Nat} (h : deadline id log = some due) :
    known id log := by
  by_contra hk
  rw [((unknown_spec hk).2 hp).1] at h
  cases h

-- Once a known task has no deadline it never gets one back: ids are not issued twice.
theorem spent_spec {later : List Event} (hp : Punctual (later ++ past)) (hk : known id past)
    (hd : deadline id past = none) :
    deadline id (later ++ past) = none ∧ ∀ t, .ran id t ∉ later := by
  induction later with
  | nil => exact ⟨hd, fun t => List.not_mem_nil⟩
  | cons e later ih =>
    obtain ⟨hnone, hran⟩ := ih hp.tail
    have hhead := hp.head
    have hknown : known id (later ++ past) := hk.mono
    cases e with
    | ran j t =>
      obtain ⟨-, due, hdue, -⟩ := hhead
      have hj : j ≠ id := by
        rintro rfl
        exact nomatch hnone.symm.trans hdue
      exact ⟨by rw [List.cons_append, deadline, if_neg hj, hnone],
        fun t' => by simpa [Ne.symm hj] using hran t'⟩
    | scheduled j | repeated j =>
      have hj : j ≠ id := fun hj => by simp_all [Justified]
      simpa [deadline, hj] using ⟨hnone, hran⟩
    | _ => simp_all [deadline]

theorem Punctual.cancelled {later : List Event} (hp : Punctual (later ++ .cancelled id :: past))
    (t : Nat) : .ran id t ∉ later := by
  have hk : known id past := hp past _ ⟨later, rfl⟩
  exact (spent_spec hp (known_cons.mpr (.inr hk)) (if_pos rfl)).2 t

theorem Punctual.threw {later : List Event} (hp : Punctual (later ++ .threw id :: past))
    (t : Nat) : .ran id t ∉ later := by
  have hk : known id past := hp past _ ⟨later, rfl⟩
  exact (spent_spec hp (known_cons.mpr (.inr hk)) (if_pos rfl)).2 t

theorem oneShot_spec (hp : Punctual log) {delayTicks : Nat} (h : .scheduled id delayTicks ∈ log) :
    period id log = none ∧ (runs id log = 0 ∨
      runs id log = 1 ∧ deadline id log = none) := by
  induction log with
  | nil => cases h
  | cons e past ih =>
    have hhead := hp.head
    rcases List.mem_cons.mp h with rfl | h
    · obtain ⟨hperiod, hrest⟩ := unknown_spec hhead
      exact ⟨hperiod, .inl (hrest hp.tail).2⟩
    · obtain ⟨hperiod, hcount⟩ := ih hp.tail h
      have hk : known id past := ⟨_, h, rfl⟩
      cases e with
      | ran j t =>
        refine ⟨hperiod, ?_⟩
        obtain ⟨-, due, hdue, -⟩ := hhead
        rcases hcount with hcount | ⟨hcount, hnone⟩
        · by_cases hj : j = id
          · exact .inr ⟨by rw [runs, if_pos hj, hcount], by rw [deadline, if_pos hj, hperiod]; rfl⟩
          · exact .inl (by rw [runs, if_neg hj, hcount])
        · have hj : j ≠ id := by
            rintro rfl
            exact nomatch hnone.symm.trans hdue
          exact .inr ⟨by rw [runs, if_neg hj, hcount], by rw [deadline, if_neg hj, hnone]⟩
      | scheduled j | repeated j =>
        have hj : j ≠ id := fun hj => by simp_all [Justified]
        simpa [period, deadline, runs, hj] using ⟨hperiod, hcount⟩
      | _ =>
        simp only [period, deadline, runs]
        exact ⟨hperiod, hcount.imp_right fun ⟨h₁, h₂⟩ => ⟨h₁, by simp [h₂]⟩⟩

theorem Punctual.oneShot (hp : Punctual log) {delayTicks : Nat}
    (h : .scheduled id delayTicks ∈ log) : runs id log ≤ 1 := by
  rcases (oneShot_spec hp h).2 with hcount | ⟨hcount, -⟩ <;> omega

end Cobblestone.Task
