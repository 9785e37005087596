import Cobblestone.Lib.BinaryHeap
import Mathlib.Data.List.Induction
import Mathlib.Data.Multiset.AddSub
import Mathlib.Data.Prod.Lex
import Mathlib.Order.Lattice

namespace Cobblestone.Task

open Lib

-- A due tick and an identity as the queue itself takes them: any two integers.
@[ext]
structure QueueEntry where
  due : Int
  id : Int
deriving DecidableEq, Repr

def QueueEntry.key (e : QueueEntry) : ℤ ×ₗ ℤ := toLex (e.due, e.id)

theorem QueueEntry.key_injective : Function.Injective QueueEntry.key := by
  intro a b h
  have hpair := toLex.injective h
  exact QueueEntry.ext (congrArg Prod.fst hpair) (congrArg Prod.snd hpair)

instance : LinearOrder QueueEntry := LinearOrder.lift' QueueEntry.key QueueEntry.key_injective

theorem QueueEntry.before {left right : QueueEntry} :
    left < right ↔ left.due < right.due ∨ left.due = right.due ∧ left.id < right.id :=
  Prod.Lex.toLex_lt_toLex

abbrev QueueHeap := BinaryHeap QueueEntry

namespace QueueHeap

def peekDue (queue : QueueHeap) : Option Int := queue.peek.map QueueEntry.due

def push (queue : QueueHeap) (due id : Int) : QueueHeap := BinaryHeap.push queue ⟨due, id⟩

def clear : QueueHeap := BinaryHeap.empty

end QueueHeap

inductive QueueCall where
  | push (due id : Int)
  | pop
  | clear
deriving DecidableEq, Repr

-- The queue, with what was pushed to it and popped from it since it was last cleared.
structure QueueLedger where
  queue : QueueHeap
  pushed : Multiset QueueEntry
  returned : Multiset QueueEntry

namespace QueueLedger

def new : QueueLedger := ⟨QueueHeap.clear, 0, 0⟩

def step (s : QueueLedger) : QueueCall → QueueLedger
  | .push due id => { s with queue := s.queue.push due id, pushed := ⟨due, id⟩ ::ₘ s.pushed }
  | .pop =>
    match s.queue.pop with
    | none => s
    | some (e, rest) => { s with queue := rest, returned := e ::ₘ s.returned }
  | .clear => ⟨QueueHeap.clear, 0, 0⟩

def run (calls : List QueueCall) : QueueLedger := calls.foldl step new

def Balanced (s : QueueLedger) : Prop := s.returned + s.queue.contents = s.pushed

variable {s : QueueLedger}

theorem Balanced.step (h : s.Balanced) (call : QueueCall) : (s.step call).Balanced := by
  cases call with
  | push due id =>
    rw [Balanced, QueueLedger.step, QueueHeap.push, BinaryHeap.contents_push, Multiset.add_cons]
    exact congrArg (⟨due, id⟩ ::ₘ ·) h
  | pop =>
    rw [QueueLedger.step]
    split
    · exact h
    · rename_i e rest hpop
      rw [Balanced, Multiset.cons_add, ← Multiset.add_cons, ← (BinaryHeap.pop_some hpop).2]
      exact h
  | clear => exact Multiset.add_zero 0

theorem run_balanced (calls : List QueueCall) : (run calls).Balanced := by
  induction calls using List.reverseRecOn with
  | nil => exact Multiset.add_zero 0
  | append_singleton calls call ih =>
    rw [run, List.foldl_append]
    exact ih.step call

end QueueLedger

theorem queue_pop_least {queue rest : QueueHeap} {e : QueueEntry} (h : queue.pop = some (e, rest)) :
    e ∈ queue.contents ∧ rest.contents = queue.contents.erase e ∧
      ∀ other ∈ queue.contents, e.due < other.due ∨ e.due = other.due ∧ e.id ≤ other.id := by
  obtain ⟨hpeek, hcontents⟩ := BinaryHeap.pop_some h
  refine ⟨BinaryHeap.peek_mem hpeek, ?_, fun other hother => ?_⟩
  · rw [hcontents, Multiset.erase_cons_head]
  · exact Prod.Lex.toLex_le_toLex.mp (BinaryHeap.peek_le hpeek hother)

theorem queue_pop_none {queue : QueueHeap} : queue.pop = none ↔ queue.contents = 0 := by
  rw [BinaryHeap.pop, Option.map_eq_none_iff, BinaryHeap.peek_eq_none]

theorem queue_peekDue (queue : QueueHeap) :
    queue.peekDue = queue.pop.map fun popped => popped.1.due := by
  rw [QueueHeap.peekDue, BinaryHeap.pop, Option.map_map]
  rfl

-- What pop answers on a queue with these contents, and what it leaves.
def PopsLeast (queue : QueueHeap) : Prop :=
  match queue.pop with
  | none => queue.contents = 0
  | some (e, rest) =>
    e ∈ queue.contents ∧ rest.contents = queue.contents.erase e ∧
      ∀ other ∈ queue.contents, e.due < other.due ∨ e.due = other.due ∧ e.id ≤ other.id

theorem popsLeast (queue : QueueHeap) : PopsLeast queue := by
  rw [PopsLeast]
  split
  · rename_i hpop
    exact queue_pop_none.mp hpop
  · rename_i e rest hpop
    exact queue_pop_least hpop

theorem due_queue_priority (calls : List QueueCall) :
    let s := QueueLedger.run calls
    s.returned + s.queue.contents = s.pushed ∧ PopsLeast s.queue ∧
      s.queue.peekDue = s.queue.pop.map fun popped => popped.1.due :=
  ⟨QueueLedger.run_balanced calls, popsLeast _, queue_peekDue _⟩

end Cobblestone.Task
