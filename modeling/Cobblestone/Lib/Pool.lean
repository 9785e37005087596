import Mathlib.Algebra.BigOperators.Fin
import Mathlib.Algebra.Order.BigOperators.Group.Finset
import Mathlib.Data.List.Basic
import Mathlib.Logic.Function.Basic
import Mathlib.Tactic

namespace Lib

inductive WorkerPhase (ε : Type*) where
  | waiting
  | sending (event : ε)
  | stopping
  | exited

inductive PoolEvent (ε : Type*) where
  | completion (event : ε)
  | stopped

-- Workers with a bounded command queue each, sharing one bounded completion channel.
structure Pool (γ ε : Type*) (n : Nat) where
  queues : Fin n → List γ
  senders : Fin n → Bool
  phases : Fin n → WorkerPhase ε
  channel : List (PoolEvent ε)
  receiver : Bool

inductive SubmitError where
  | full
  | disconnected
deriving DecidableEq, Repr

namespace Pool

variable {γ ε κ : Type*} {n : Nat}

def start : Pool γ ε n where
  queues := fun _ => []
  senders := fun _ => true
  phases := fun _ => .waiting
  channel := []
  receiver := true

def push (s : Pool γ ε n) (i : Fin n) (c : γ) : Pool γ ε n :=
  { s with queues := Function.update s.queues i (s.queues i ++ [c]) }

def hasExited (s : Pool γ ε n) (i : Fin n) : Bool :=
  match s.phases i with
  | .exited => true
  | _ => false

def trySend (capacity : Nat) (s : Pool γ ε n) (i : Fin n) (c : γ) :
    Except SubmitError (Pool γ ε n) :=
  if s.senders i = false then .error .disconnected
  else if s.hasExited i = true then .error .disconnected
  else if capacity ≤ (s.queues i).length then .error .full
  else .ok (s.push i c)

def take (s : Pool γ ε n) (i : Fin n) (rest : List γ) (e : ε) : Pool γ ε n :=
  { s with
    queues := Function.update s.queues i rest
    phases := Function.update s.phases i (.sending e) }

def emit (s : Pool γ ε n) (i : Fin n) (e : ε) : Pool γ ε n :=
  { s with
    channel := s.channel ++ [.completion e]
    phases := Function.update s.phases i .waiting }

def stop (s : Pool γ ε n) (i : Fin n) : Pool γ ε n :=
  { s with phases := Function.update s.phases i .stopping }

def announce (s : Pool γ ε n) (i : Fin n) : Pool γ ε n :=
  { s with
    channel := s.channel ++ [.stopped]
    phases := Function.update s.phases i .exited }

def abandon (s : Pool γ ε n) (i : Fin n) : Pool γ ε n :=
  { s with phases := Function.update s.phases i .exited }

def received (s : Pool γ ε n) (rest : List (PoolEvent ε)) : Pool γ ε n :=
  { s with channel := rest }

def closeSender (s : Pool γ ε n) (i : Fin n) : Pool γ ε n :=
  { s with senders := Function.update s.senders i false }

def dropReceiver (s : Pool γ ε n) : Pool γ ε n := { s with receiver := false }

theorem trySend_ok {capacity : Nat} {s s' : Pool γ ε n} {i : Fin n} {c : γ}
    (h : s.trySend capacity i c = .ok s') : s.senders i = true ∧ s' = s.push i c := by
  rw [trySend] at h
  split at h
  · cases h
  · rename_i hs
    split at h
    · cases h
    · split at h
      · cases h
      · exact ⟨Bool.eq_true_of_not_eq_false hs, (Except.ok.inj h).symm⟩

end Pool

open Pool

-- The loop of one worker: receive a command, work, send the completion; announce the end once the
-- queue is drained and its sender is gone; leave at once when nobody can receive.
inductive WorkerStep {γ ε : Type*} {n : Nat} (work : γ → ε → Prop) (capacity : Nat) :
    Pool γ ε n → Pool γ ε n → Prop where
  | take {s : Pool γ ε n} {i : Fin n} {c : γ} {rest : List γ} {e : ε} (hp : s.phases i = .waiting)
      (hq : s.queues i = c :: rest) (hw : work c e) : WorkerStep work capacity s (s.take i rest e)
  | emit {s : Pool γ ε n} {i : Fin n} {e : ε} (hp : s.phases i = .sending e)
      (hr : s.receiver = true) (hc : s.channel.length < capacity) :
    WorkerStep work capacity s (s.emit i e)
  | stop {s : Pool γ ε n} {i : Fin n} (hp : s.phases i = .waiting) (hq : s.queues i = [])
      (hs : s.senders i = false) : WorkerStep work capacity s (s.stop i)
  | announce {s : Pool γ ε n} {i : Fin n} (hp : s.phases i = .stopping)
      (hr : s.receiver = true) (hc : s.channel.length < capacity) :
    WorkerStep work capacity s (s.announce i)
  | abandon {s : Pool γ ε n} {i : Fin n}
      (hp : s.phases i = .stopping ∨ ∃ e, s.phases i = .sending e) (hr : s.receiver = false) :
    WorkerStep work capacity s (s.abandon i)

-- A sub-stream of the commands that is always handled by the same worker.
structure Lane (γ ε κ : Type*) (n : Nat) where
  worker : Fin n
  command : γ → Option κ
  event : ε → Option κ

namespace Lane

variable {γ ε κ : Type*} {n : Nat}

def phase (l : Lane γ ε κ n) : WorkerPhase ε → List κ
  | .sending e => (l.event e).toList
  | _ => []

def poolEvent (l : Lane γ ε κ n) : PoolEvent ε → Option κ
  | .completion e => l.event e
  | .stopped => none

-- What was submitted on the lane and not yet received, oldest first.
def transit (l : Lane γ ε κ n) (s : Pool γ ε n) : List κ :=
  s.channel.filterMap l.poolEvent ++ l.phase (s.phases l.worker) ++
    (s.queues l.worker).filterMap l.command

structure Routed (l : Lane γ ε κ n) (s : Pool γ ε n) : Prop where
  queued : ∀ i, i ≠ l.worker → ∀ c ∈ s.queues i, l.command c = none
  sending : ∀ i, i ≠ l.worker → ∀ e, s.phases i = .sending e → l.event e = none

structure Respects (l : Lane γ ε κ n) (work : γ → ε → Prop) : Prop where
  answer : ∀ c e, work c e → l.event e = l.command c

variable {l : Lane γ ε κ n} {s s' : Pool γ ε n} {work : γ → ε → Prop} {capacity : Nat}

theorem Routed.start : l.Routed (Pool.start : Pool γ ε n) := by
  refine ⟨fun i _ c hc => ?_, fun i _ e he => ?_⟩
  · cases hc
  · cases he

theorem transit_start : l.transit (Pool.start : Pool γ ε n) = [] := rfl

theorem Routed.filterMap_nil (h : l.Routed s) {i : Fin n} (hi : i ≠ l.worker) :
    (s.queues i).filterMap l.command = [] :=
  List.filterMap_eq_nil_iff.mpr (h.queued i hi)

theorem transit_received {e : PoolEvent ε} {rest : List (PoolEvent ε)}
    (hc : s.channel = e :: rest) :
    l.transit s = (l.poolEvent e).toList ++ l.transit (s.received rest) := by
  simp only [transit, received, hc, List.filterMap_cons]
  cases l.poolEvent e <;> simp

theorem Routed.received (h : l.Routed s) (rest : List (PoolEvent ε)) : l.Routed (s.received rest) :=
  ⟨h.queued, h.sending⟩

theorem Routed.closeSender (h : l.Routed s) (i : Fin n) : l.Routed (s.closeSender i) :=
  ⟨h.queued, h.sending⟩

theorem Routed.dropReceiver (h : l.Routed s) : l.Routed s.dropReceiver :=
  ⟨h.queued, h.sending⟩

@[simp] theorem transit_closeSender (i : Fin n) : l.transit (s.closeSender i) = l.transit s := rfl

@[simp] theorem transit_dropReceiver : l.transit s.dropReceiver = l.transit s := rfl

theorem filterMap_event (e : ε) : [e].filterMap l.event = (l.event e).toList := by
  cases he : l.event e <;> simp [he]

theorem Routed.push (h : l.Routed s) {i : Fin n} {c : γ} (hc : l.command c ≠ none → i = l.worker) :
    l.Routed (s.push i c) := by
  refine ⟨fun j hj d hd => ?_, h.sending⟩
  by_cases hji : j = i
  · subst hji
    simp only [Pool.push, Function.update_self] at hd
    rcases List.mem_append.mp hd with hd | hd
    · exact h.queued j hj d hd
    · cases List.mem_singleton.mp hd
      by_contra hn
      exact hj (hc hn)
  · simp only [Pool.push, Function.update_of_ne hji] at hd
    exact h.queued j hj d hd

theorem transit_push {i : Fin n} {c : γ} (hc : l.command c ≠ none → i = l.worker) :
    l.transit (s.push i c) = l.transit s ++ (l.command c).toList := by
  simp only [transit, Pool.push]
  by_cases hi : l.worker = i
  · subst hi
    rw [Function.update_self, List.filterMap_append, ← List.append_assoc]
    cases hk : l.command c <;> simp [hk]
  · have hn : l.command c = none := by
      by_contra hn
      exact hi (hc hn).symm
    rw [Function.update_of_ne hi, hn, Option.toList_none, List.append_nil]

theorem Routed.step (h : l.Routed s) (hw : l.Respects work) (hs : WorkerStep work capacity s s') :
    l.Routed s' := by
  have hphase {i : Fin n} {p : WorkerPhase ε} (hp : ∀ e, p = .sending e → i ≠ l.worker →
      l.event e = none) : ∀ j, j ≠ l.worker → ∀ e, Function.update s.phases i p j = .sending e →
      l.event e = none := by
    intro j hj e he
    by_cases hji : j = i
    · subst hji
      rw [Function.update_self] at he
      exact hp e he hj
    · rw [Function.update_of_ne hji] at he
      exact h.sending j hj e he
  cases hs with
  | @take i c rest e hp hq hwork =>
    refine ⟨fun j hj d hd => ?_, hphase fun e' he' hi => ?_⟩
    · by_cases hji : j = i
      · subst hji
        simp only [Pool.take, Function.update_self] at hd
        exact h.queued j hj d (hq ▸ List.mem_cons_of_mem c hd)
      · simp only [Pool.take, Function.update_of_ne hji] at hd
        exact h.queued j hj d hd
    · cases he'
      rw [hw.answer c e hwork]
      exact h.queued i hi c (hq ▸ List.mem_cons_self)
  | emit => exact ⟨h.queued, hphase fun e he _ => nomatch he⟩
  | stop => exact ⟨h.queued, hphase fun e he _ => nomatch he⟩
  | announce => exact ⟨h.queued, hphase fun e he _ => nomatch he⟩
  | abandon => exact ⟨h.queued, hphase fun e he _ => nomatch he⟩

-- While somebody can still receive, working moves a command along its lane and loses nothing.
theorem transit_step (h : l.Routed s) (hw : l.Respects work) (hr : s.receiver = true)
    (hs : WorkerStep work capacity s s') : l.transit s' = l.transit s := by
  cases hs with
  | @take i c rest e hp hq hwork =>
    simp only [transit, Pool.take]
    by_cases hi : l.worker = i
    · subst hi
      rw [Function.update_self, Function.update_self, hp, hq]
      cases hk : l.command c <;> simp [phase, hw.answer c e hwork, hk]
    · rw [Function.update_of_ne hi, Function.update_of_ne hi]
  | @emit i e hp hrecv hcap =>
    simp only [transit, Pool.emit, List.filterMap_append, List.filterMap_cons, List.filterMap_nil,
      poolEvent]
    by_cases hi : l.worker = i
    · subst hi
      rw [Function.update_self, hp]
      cases hk : l.event e <;> simp [phase, hk]
    · rw [Function.update_of_ne hi, h.sending i (Ne.symm hi) e hp]
      simp
  | @stop i hp hq hsend =>
    simp only [transit, Pool.stop]
    by_cases hi : l.worker = i
    · subst hi
      rw [Function.update_self, hp]
      rfl
    · rw [Function.update_of_ne hi]
  | @announce i hp hrecv hcap =>
    simp only [transit, Pool.announce, List.filterMap_append, List.filterMap_cons,
      List.filterMap_nil, poolEvent, List.append_nil]
    by_cases hi : l.worker = i
    · subst hi
      rw [Function.update_self, hp]
      rfl
    · rw [Function.update_of_ne hi]
  | abandon _ hrecv =>
    rw [hr] at hrecv
    cases hrecv

end Lane

theorem sum_replace {ι : Type*} [Fintype ι] [DecidableEq ι] {f g : ι → Nat} {i : ι}
    (h : ∀ j, j ≠ i → f j = g j) : ∑ j, f j + g i = ∑ j, g j + f i := by
  have hrest : ∑ j ∈ Finset.univ.erase i, f j = ∑ j ∈ Finset.univ.erase i, g j :=
    Finset.sum_congr rfl fun j hj => h j (Finset.ne_of_mem_erase hj)
  rw [← Finset.add_sum_erase _ f (Finset.mem_univ i), ← Finset.add_sum_erase _ g (Finset.mem_univ i),
    hrest]
  omega

-- Everything on the lane wherever it is, not only with the lane's own worker.
def Lane.outstanding {γ ε κ : Type*} {n : Nat} (l : Lane γ ε κ n) (s : Pool γ ε n) : Nat :=
  (s.channel.filterMap l.poolEvent).length +
    ∑ i, ((l.phase (s.phases i)).length + ((s.queues i).filterMap l.command).length)

theorem Lane.Routed.outstanding_eq {γ ε κ : Type*} {n : Nat} {l : Lane γ ε κ n} {s : Pool γ ε n}
    (h : l.Routed s) : l.outstanding s = (l.transit s).length := by
  have hother : ∀ i ∈ Finset.univ, i ≠ l.worker →
      (l.phase (s.phases i)).length + ((s.queues i).filterMap l.command).length = 0 := by
    intro i _ hi
    rw [h.filterMap_nil hi]
    cases hp : s.phases i with
    | sending e => simp [Lane.phase, h.sending i hi e hp]
    | _ => rfl
  rw [Lane.outstanding, Finset.sum_eq_single l.worker hother (by simp), Lane.transit,
    List.length_append, List.length_append, Nat.add_assoc]

namespace Pool

variable {γ ε κ : Type*} {n : Nat}

def isStopped : PoolEvent ε → Bool
  | .completion _ => false
  | .stopped => true

def stoppedCount (s : Pool γ ε n) : Nat := s.channel.countP isStopped

def exitedCount (s : Pool γ ε n) : Nat := ∑ i, if s.hasExited i then 1 else 0

def phaseWeight : WorkerPhase ε → Nat
  | .waiting => 3
  | .sending _ => 5
  | .stopping => 2
  | .exited => 0

-- An upper bound for the worker and receive steps that can still happen.
def weight (s : Pool γ ε n) : Nat :=
  ∑ i, (3 * (s.queues i).length + phaseWeight (s.phases i)) + s.channel.length

structure Tidy (observed : Nat) (s : Pool γ ε n) : Prop where
  receiver : s.receiver = true
  drained : ∀ i, s.phases i = .stopping ∨ s.phases i = .exited →
    s.queues i = [] ∧ s.senders i = false
  counted : s.stoppedCount + observed = s.exitedCount
  last : ∀ e, s.channel.getLast? = some (.completion e) → ∃ i, s.hasExited i = false

variable {s s' : Pool γ ε n} {work : γ → ε → Prop} {capacity observed : Nat}

theorem hasExited_iff {i : Fin n} : s.hasExited i = true ↔ s.phases i = .exited := by
  rw [hasExited]
  cases s.phases i <;> simp

theorem exitedCount_replace {i : Fin n} (h : ∀ j, j ≠ i → s'.hasExited j = s.hasExited j) :
    s'.exitedCount + (if s.hasExited i then 1 else 0) =
      s.exitedCount + (if s'.hasExited i then 1 else 0) := by
  apply sum_replace (f := fun j => if s'.hasExited j then 1 else 0)
    (g := fun j => if s.hasExited j then 1 else 0)
  intro j hj
  simp only [h j hj]

theorem exitedCount_received (rest : List (PoolEvent ε)) :
    (s.received rest).exitedCount = s.exitedCount := rfl

theorem exitedCount_le : s.exitedCount ≤ n := by
  calc s.exitedCount ≤ ∑ _i : Fin n, 1 := Finset.sum_le_sum fun i _ => by split <;> omega
    _ = n := by simp

theorem all_exited (h : n ≤ s.exitedCount) (i : Fin n) : s.phases i = .exited := by
  rw [← hasExited_iff]
  by_contra hi
  have hlt : s.exitedCount < ∑ _i : Fin n, 1 := by
    refine Finset.sum_lt_sum (fun j _ => by split <;> omega) ⟨i, Finset.mem_univ i, ?_⟩
    simp [hi]
  simp at hlt
  omega

theorem Tidy.start : Tidy 0 (Pool.start : Pool γ ε n) := by
  refine ⟨rfl, fun i hi => ?_, ?_, fun e he => ?_⟩
  · rcases hi with hi | hi <;> cases hi
  · simp [stoppedCount, exitedCount, hasExited, Pool.start]
  · cases he

theorem hasExited_phases {i : Fin n} (h : s'.phases i = s.phases i) :
    s'.hasExited i = s.hasExited i := by
  rw [hasExited, hasExited, h]

theorem Tidy.push (h : Tidy observed s) {i : Fin n} {c : γ} (hs : s.senders i = true) :
    Tidy observed (s.push i c) := by
  refine ⟨h.receiver, fun j hj => ?_, h.counted, h.last⟩
  have hne : j ≠ i := by
    rintro rfl
    have hclosed := (h.drained j hj).2
    rw [hs] at hclosed
    cases hclosed
  have hold := h.drained j hj
  exact ⟨by simpa [Pool.push, Function.update_of_ne hne] using hold.1, hold.2⟩

theorem Tidy.closeSender (h : Tidy observed s) (i : Fin n) : Tidy observed (s.closeSender i) := by
  refine ⟨h.receiver, fun j hj => ⟨(h.drained j hj).1, ?_⟩, h.counted, h.last⟩
  by_cases hji : j = i
  · subst hji
    exact Function.update_self ..
  · exact (Function.update_of_ne hji ..).trans (h.drained j hj).2

theorem Tidy.received {e : ε} {rest : List (PoolEvent ε)} (h : Tidy observed s)
    (hc : s.channel = .completion e :: rest) : Tidy observed (s.received rest) := by
  refine ⟨h.receiver, h.drained, ?_, fun e' he' => ?_⟩
  · have hcount := h.counted
    rw [exitedCount_received, ← hcount]
    simp [stoppedCount, hc, isStopped, Pool.received]
  · refine h.last e' ?_
    rw [hc, List.getLast?_cons]
    simp only [Pool.received] at he'
    simp [he']

theorem Tidy.observe {rest : List (PoolEvent ε)} (h : Tidy observed s)
    (hc : s.channel = .stopped :: rest) : Tidy (observed + 1) (s.received rest) := by
  refine ⟨h.receiver, h.drained, ?_, fun e he => ?_⟩
  · have hcount := h.counted
    rw [exitedCount_received, ← hcount]
    simp only [stoppedCount, hc, isStopped, Pool.received, List.countP_cons, if_true]
    omega
  · refine h.last e ?_
    rw [hc, List.getLast?_cons]
    simp only [Pool.received] at he
    simp [he]

theorem phases_update {i : Fin n} {p q : WorkerPhase ε} {j : Fin n}
    (h : Function.update s.phases i p j = q) : (j = i ∧ p = q) ∨ s.phases j = q := by
  by_cases hji : j = i
  · subst hji
    rw [Function.update_self] at h
    exact .inl ⟨rfl, h⟩
  · rw [Function.update_of_ne hji] at h
    exact .inr h

theorem hasExited_update {i : Fin n} {p : WorkerPhase ε}
    (h : s'.phases = Function.update s.phases i p) (j : Fin n) (hj : j ≠ i) :
    s'.hasExited j = s.hasExited j := by
  apply hasExited_phases
  rw [h, Function.update_of_ne hj]

theorem exitedCount_running {i : Fin n} {p : WorkerPhase ε}
    (h : s'.phases = Function.update s.phases i p) (hi : s.phases i ≠ .exited) (hp : p ≠ .exited) :
    s'.exitedCount = s.exitedCount := by
  have hsum := exitedCount_replace (hasExited_update h)
  have hold : s.hasExited i = false := by
    rw [← Bool.not_eq_true, hasExited_iff]
    exact hi
  have hnew : s'.hasExited i = false := by
    rw [← Bool.not_eq_true, hasExited_iff, h, Function.update_self]
    exact hp
  simpa [hold, hnew] using hsum

theorem exitedCount_exits {i : Fin n} (h : s'.phases = Function.update s.phases i .exited)
    (hi : s.phases i ≠ .exited) : s'.exitedCount = s.exitedCount + 1 := by
  have hsum := exitedCount_replace (hasExited_update h)
  have hold : s.hasExited i = false := by
    rw [← Bool.not_eq_true, hasExited_iff]
    exact hi
  have hnew : s'.hasExited i = true := by
    rw [hasExited_iff, h, Function.update_self]
  simpa [hold, hnew] using hsum

theorem Tidy.running (h : Tidy observed s) {i : Fin n} {p : WorkerPhase ε}
    (hphases : s'.phases = Function.update s.phases i p)
    (hp : p ≠ .exited) {e : ε} (hl : s.channel.getLast? = some (.completion e)) :
    ∃ j, s'.hasExited j = false := by
  obtain ⟨j, hj⟩ := h.last e hl
  by_cases hji : j = i
  · refine ⟨i, ?_⟩
    rw [← Bool.not_eq_true, hasExited_iff, hphases, Function.update_self]
    exact hp
  · exact ⟨j, (hasExited_update hphases j hji).trans hj⟩

theorem Tidy.step (h : Tidy observed s) (hs : WorkerStep work capacity s s') :
    Tidy observed s' := by
  cases hs with
  | @take i c rest e hp hq hwork =>
    refine ⟨h.receiver, fun j hj => ?_, ?_, fun e' he' => ?_⟩
    · have hne : j ≠ i := by
        rintro rfl
        simp [Pool.take] at hj
      simp only [Pool.take, Function.update_of_ne hne] at hj ⊢
      exact h.drained j hj
    · rw [exitedCount_running (s := s) rfl (by simp [hp]) (by simp), ← h.counted]
      rfl
    · exact h.running (show (s.take i rest e).phases = _ from rfl) (by simp) he'
  | @emit i e hp hrecv hcap =>
    refine ⟨h.receiver, fun j hj => ?_, ?_, fun e' he' => ⟨i, ?_⟩⟩
    · have hne : j ≠ i := by
        rintro rfl
        simp [Pool.emit] at hj
      simp only [Pool.emit, Function.update_of_ne hne] at hj ⊢
      exact h.drained j hj
    · rw [exitedCount_running (s := s) rfl (by simp [hp]) (by simp), ← h.counted]
      simp [stoppedCount, Pool.emit, isStopped]
    · rw [← Bool.not_eq_true, hasExited_iff]
      simp [Pool.emit]
  | @stop i hp hq hsend =>
    refine ⟨h.receiver, fun j hj => ?_, ?_, fun e' he' => ?_⟩
    · by_cases hji : j = i
      · subst hji
        exact ⟨hq, hsend⟩
      · simp only [Pool.stop, Function.update_of_ne hji] at hj
        exact h.drained j hj
    · rw [exitedCount_running (s := s) rfl (by simp [hp]) (by simp), ← h.counted]
      rfl
    · exact h.running (show (s.stop i).phases = _ from rfl) (by simp) he'
  | @announce i hp hrecv hcap =>
    refine ⟨h.receiver, fun j hj => ?_, ?_, fun e' he' => ?_⟩
    · by_cases hji : j = i
      · subst hji
        exact h.drained j (.inl hp)
      · simp only [Pool.announce, Function.update_of_ne hji] at hj
        exact h.drained j hj
    · rw [exitedCount_exits (s := s) rfl (by simp [hp]), ← h.counted]
      simp only [stoppedCount, Pool.announce, isStopped, List.countP_append, List.countP_cons,
        List.countP_nil, if_true]
      omega
    · simp [Pool.announce] at he'
  | abandon _ hrecv =>
    rw [h.receiver] at hrecv
    cases hrecv

-- Once every worker's last message has been seen, nothing is left in the pool.
theorem Tidy.finished (h : Tidy observed s) (ho : n ≤ observed) :
    (∀ i, s.phases i = .exited) ∧ s.channel = [] := by
  have hcount := h.counted
  have hall : ∀ i, s.phases i = .exited := all_exited (by omega)
  refine ⟨hall, ?_⟩
  have hle := exitedCount_le (s := s)
  have hnone : s.stoppedCount = 0 := by omega
  cases hl : s.channel.getLast? with
  | none => exact List.getLast?_eq_none_iff.mp hl
  | some e =>
    cases e with
    | completion e =>
      obtain ⟨i, hi⟩ := h.last e hl
      rw [hasExited_iff.mpr (hall i)] at hi
      cases hi
    | stopped =>
      have hmem := List.mem_of_getLast? hl
      exact absurd rfl (List.countP_eq_zero.mp hnone _ hmem)

theorem Tidy.disconnected (h : Tidy observed s) (hc : s.channel = [])
    (hall : ∀ i, s.phases i = .exited) : n ≤ observed := by
  have hcount := h.counted
  have hexited : s.exitedCount = n := by
    simp [exitedCount, hasExited_iff.mpr (hall _)]
  simp only [stoppedCount, hc, List.countP_nil] at hcount
  omega

theorem Tidy.transit_nil (h : Tidy observed s) (ho : n ≤ observed) (l : Lane γ ε κ n) :
    l.transit s = [] := by
  obtain ⟨hall, hc⟩ := h.finished ho
  have hq := (h.drained l.worker (.inr (hall l.worker))).1
  simp [Lane.transit, hc, hall, hq, Lane.phase]

def workerWeight (s : Pool γ ε n) (i : Fin n) : Nat :=
  3 * (s.queues i).length + phaseWeight (s.phases i)

theorem weight_replace (s s' : Pool γ ε n) {i : Fin n}
    (h : ∀ j, j ≠ i → s'.workerWeight j = s.workerWeight j) :
    s'.weight + s.channel.length + s.workerWeight i =
      s.weight + s'.channel.length + s'.workerWeight i := by
  have hsum := sum_replace h
  simp only [weight, workerWeight] at hsum ⊢
  omega

theorem weight_step (hs : WorkerStep work capacity s s') : s'.weight < s.weight := by
  cases hs with
  | @take i c rest e hp hq hwork =>
    have hsum := weight_replace s (s.take i rest e) (i := i) fun j hj => by
      simp [workerWeight, Pool.take, Function.update_of_ne hj]
    simp [workerWeight, Pool.take, hp, hq, phaseWeight] at hsum ⊢
    omega
  | @emit i e hp hrecv hcap =>
    have hsum := weight_replace s (s.emit i e) (i := i) fun j hj => by
      simp [workerWeight, Pool.emit, Function.update_of_ne hj]
    simp [workerWeight, Pool.emit, hp, phaseWeight] at hsum ⊢
    omega
  | @stop i hp hq hsend =>
    have hsum := weight_replace s (s.stop i) (i := i) fun j hj => by
      simp [workerWeight, Pool.stop, Function.update_of_ne hj]
    simp [workerWeight, Pool.stop, hp, phaseWeight] at hsum ⊢
    omega
  | @announce i hp hrecv hcap =>
    have hsum := weight_replace s (s.announce i) (i := i) fun j hj => by
      simp [workerWeight, Pool.announce, Function.update_of_ne hj]
    simp [workerWeight, Pool.announce, hp, phaseWeight] at hsum ⊢
    omega
  | @abandon i hp hrecv =>
    have hsum := weight_replace s (s.abandon i) (i := i) fun j hj => by
      simp [workerWeight, Pool.abandon, Function.update_of_ne hj]
    rcases hp with hp | ⟨e, hp⟩ <;> simp [workerWeight, Pool.abandon, hp, phaseWeight] at hsum ⊢ <;>
      omega

theorem senders_step (hs : WorkerStep work capacity s s') : s'.senders = s.senders := by
  cases hs <;> rfl

theorem weight_received {e : PoolEvent ε} {rest : List (PoolEvent ε)} (hc : s.channel = e :: rest) :
    (s.received rest).weight + 1 = s.weight := by
  simp only [weight, Pool.received, hc, List.length_cons]
  omega

section Progress

variable (hw : ∀ c, ∃ e, work c e) (hr : s.receiver = true) (hc : s.channel.length < capacity)

include hw hr hc

-- With room in the channel only a worker that waits for a command, or has left, cannot move.
theorem step_of_busy {i : Fin n} (hi : s.phases i ≠ .exited)
    (hb : s.phases i = .waiting → s.queues i ≠ [] ∨ s.senders i = false) :
    ∃ s', WorkerStep work capacity s s' := by
  cases hp : s.phases i with
  | waiting =>
    cases hq : s.queues i with
    | nil =>
      rcases hb hp with hne | hs
      · exact absurd hq hne
      · exact ⟨_, .stop hp hq hs⟩
    | cons c rest =>
      obtain ⟨e, he⟩ := hw c
      exact ⟨_, .take hp hq he⟩
  | sending e => exact ⟨_, .emit hp hr hc⟩
  | stopping => exact ⟨_, .announce hp hr hc⟩
  | exited => exact absurd hp hi

theorem quiescent_transit (hq : ∀ s', ¬ WorkerStep work capacity s s') (hempty : s.channel = [])
    (ht : Tidy observed s) (l : Lane γ ε κ n) : l.transit s = [] := by
  have hstuck : s.phases l.worker = .exited ∨
      (s.phases l.worker = .waiting ∧ s.queues l.worker = []) := by
    by_contra hn
    rw [not_or] at hn
    obtain ⟨s', hs'⟩ := step_of_busy hw hr hc hn.1 fun hp => .inl fun he => hn.2 ⟨hp, he⟩
    exact hq s' hs'
  rcases hstuck with hp | ⟨hp, he⟩
  · have he := (ht.drained l.worker (.inr hp)).1
    simp [Lane.transit, hempty, hp, he, Lane.phase]
  · simp [Lane.transit, hempty, hp, he, Lane.phase]

end Progress

end Pool

end Lib
