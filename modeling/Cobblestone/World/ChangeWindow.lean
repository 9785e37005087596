import Cobblestone.Lib.Logs
import Cobblestone.World.Store

namespace Cobblestone.World

open Lib

abbrev maxSequence : Nat := 2 ^ 64 - 1

structure WorldChangeLogSnapshot where
  oldestSequence : Nat
  latestSequence : Nat
  changes : List WorldChange
deriving DecidableEq

namespace WorldChangeLogSnapshot

-- The cursor is a u64 and its increment saturates.
def cursorIsStale (log : WorldChangeLogSnapshot) (cursor : UInt64) : Bool :=
  decide (min (cursor.toNat + 1) maxSequence < log.oldestSequence)

def changesAfter (log : WorldChangeLogSnapshot) (cursor : UInt64) : List WorldChange :=
  log.changes.filter fun change => decide (cursor.toNat < change.sequence)

end WorldChangeLogSnapshot

namespace WorldChangeLog

def changeLogSnapshot (log : WorldChangeLog) : WorldChangeLogSnapshot :=
  ⟨log.oldestSequence, log.latestSequence, log.changes⟩

-- At the last u64 the checked addition panics before the deque is touched; the lock is
-- poisoned and later calls go on with the log as it was.
def recordChange (log : WorldChangeLog) (position : ChunkCoord) (kind : WorldChangeKind) :
    WorldChangeLog :=
  if log.nextSequence = maxSequence then log else log.record position kind

end WorldChangeLog

inductive LogOp where
  | recordChange (position : ChunkCoord) (kind : WorldChangeKind)
  | pruneChangesThrough (sequence : UInt64)
deriving DecidableEq

namespace LogOp

def apply (log : WorldChangeLog) : LogOp → WorldChangeLog
  | .recordChange position kind => log.recordChange position kind
  | .pruneChangesThrough sequence => log.pruneThrough sequence.toNat

def appended (log : WorldChangeLog) : LogOp → List WorldChange
  | .recordChange position kind =>
    if log.nextSequence = maxSequence then [] else [⟨log.nextSequence, position, kind⟩]
  | .pruneChangesThrough _ => []

def runFrom (log : WorldChangeLog) : List LogOp → WorldChangeLog
  | [] => log
  | op :: ops => runFrom (op.apply log) ops

-- Every change the run appends, evicted and pruned ones included.
def historyFrom (log : WorldChangeLog) : List LogOp → List WorldChange
  | [] => []
  | op :: ops => op.appended log ++ historyFrom (op.apply log) ops

def run (ops : List LogOp) : WorldChangeLog := runFrom WorldChangeLog.default ops

def history (ops : List LogOp) : List WorldChange := historyFrom WorldChangeLog.default ops

end LogOp

structure WorldChangeLog.WindowOf (history : List WorldChange) (log : WorldChangeLog) : Prop where
  numbered : Numbered WorldChange.sequence 1 history
  next : log.nextSequence = history.length + 1
  window : log.changes <:+ history
  bounded : log.changes.length ≤ worldChangeLogCapacity
  inRange : log.nextSequence ≤ maxSequence

namespace WorldChangeLog.WindowOf

variable {log : WorldChangeLog} {history : List WorldChange}

theorem default : WindowOf [] WorldChangeLog.default where
  numbered := Numbered.nil
  next := rfl
  window := List.suffix_rfl
  bounded := Nat.zero_le _
  inRange := by decide

theorem pruneThrough (h : WindowOf history log) (sequence : Nat) :
    WindowOf history (log.pruneThrough sequence) where
  numbered := h.numbered
  next := h.next
  window := (List.dropWhile_suffix _).trans h.window
  bounded := (List.dropWhile_suffix _).length_le.trans h.bounded
  inRange := h.inRange

theorem record (h : WindowOf history log) (position : ChunkCoord) (kind : WorldChangeKind)
    (hroom : log.nextSequence ≠ maxSequence) :
    WindowOf (history ++ [⟨log.nextSequence, position, kind⟩]) (log.record position kind) := by
  have hnext := h.next
  have hbounded := h.bounded
  have hrange := h.inRange
  have hcapacity : 0 < worldChangeLogCapacity := by decide
  refine ⟨h.numbered.append_singleton ?_, ?_, ?_, ?_, ?_⟩
  · simp only [hnext]
    omega
  · simp [WorldChangeLog.record, hnext]
  · have hkept : (if log.changes.length = worldChangeLogCapacity then log.changes.tail
        else log.changes) <:+ history := by
      split
      · exact (List.tail_suffix _).trans h.window
      · exact h.window
    exact (List.suffix_append_inj_of_length_eq rfl).mpr ⟨hkept, rfl⟩
  · simp only [WorldChangeLog.record, List.length_append, List.length_singleton]
    split
    · rw [List.length_tail]
      omega
    · omega
  · exact Nat.lt_of_le_of_ne hrange hroom

theorem apply (h : WindowOf history log) (op : LogOp) :
    WindowOf (history ++ op.appended log) (op.apply log) := by
  cases op with
  | recordChange position kind =>
    simp only [LogOp.apply, LogOp.appended, WorldChangeLog.recordChange]
    split
    · rw [List.append_nil]
      exact h
    · next hroom => exact h.record position kind hroom
  | pruneChangesThrough sequence =>
    rw [LogOp.appended, List.append_nil]
    exact h.pruneThrough _

theorem runFrom (h : WindowOf history log) (ops : List LogOp) :
    WindowOf (history ++ LogOp.historyFrom log ops) (LogOp.runFrom log ops) := by
  induction ops generalizing log history with
  | nil =>
    rw [LogOp.historyFrom, List.append_nil]
    exact h
  | cons op ops ih =>
    rw [LogOp.historyFrom, ← List.append_assoc]
    exact ih (h.apply op)

theorem run (ops : List LogOp) : WindowOf (LogOp.history ops) (LogOp.run ops) :=
  default.runFrom ops

theorem length_le (h : WindowOf history log) : log.changes.length ≤ history.length :=
  h.window.length_le

theorem latestSequence (h : WindowOf history log) : log.latestSequence = history.length := by
  rw [WorldChangeLog.latestSequence, h.next, Nat.add_sub_cancel]

theorem changes_numbered (h : WindowOf history log) :
    Numbered WorldChange.sequence (1 + (history.length - log.changes.length)) log.changes :=
  h.numbered.suffix h.window

theorem oldestSequence (h : WindowOf history log) :
    log.oldestSequence = 1 + (history.length - log.changes.length) := by
  have hnumbered := h.changes_numbered
  unfold WorldChangeLog.oldestSequence
  cases hc : log.changes with
  | nil =>
    simp only [List.head?_nil, h.latestSequence, List.length_nil]
    omega
  | cons change changes =>
    rw [hc] at hnumbered
    exact (Numbered.cons_iff.mp hnumbered).1

-- Stale means that the change right after the cursor has left the window.
theorem cursorIsStale_iff (h : WindowOf history log) (cursor : UInt64) :
    log.changeLogSnapshot.cursorIsStale cursor = true ↔
      cursor.toNat + log.changes.length < history.length := by
  have hlength := h.length_le
  have hnext := h.next
  have hrange := h.inRange
  simp only [WorldChangeLogSnapshot.cursorIsStale, changeLogSnapshot, h.oldestSequence,
    decide_eq_true_eq]
  omega

theorem changesAfter (h : WindowOf history log) {cursor : UInt64}
    (hs : log.changeLogSnapshot.cursorIsStale cursor = false) :
    log.changeLogSnapshot.changesAfter cursor = history.drop cursor.toNat := by
  have hfresh : ¬ cursor.toNat + log.changes.length < history.length := by
    rw [← h.cursorIsStale_iff, hs]
    exact Bool.false_ne_true
  have hlength := h.length_le
  have hwindow := List.suffix_iff_eq_drop.mp h.window
  have hdrop := h.changes_numbered.filter_above cursor.toNat
  rw [WorldChangeLogSnapshot.changesAfter, changeLogSnapshot, hdrop]
  rw [hwindow, List.drop_drop, ← hwindow]
  congr 1
  omega

theorem sequences_after (h : WindowOf history log) (cursor : Nat) :
    (history.drop cursor).map WorldChange.sequence =
      List.range' (cursor + 1) (log.latestSequence - cursor) := by
  have hdrop := h.numbered.drop cursor
  rw [Numbered, List.length_drop] at hdrop
  rw [hdrop, h.latestSequence]
  rcases Nat.le_total cursor history.length with hc | hc
  · rw [Nat.min_eq_left hc, Nat.add_comm]
  · rw [Nat.sub_eq_zero_of_le hc]
    rfl

end WorldChangeLog.WindowOf

theorem changeLog_window (ops : List LogOp) :
    let log := (LogOp.run ops).changeLogSnapshot
    log.changes.map WorldChange.sequence = List.range' log.oldestSequence log.changes.length ∧
    log.oldestSequence + log.changes.length = log.latestSequence + 1 ∧
    log.latestSequence = (LogOp.history ops).length ∧
    log.changes.length ≤ worldChangeLogCapacity ∧
    ∀ cursor : UInt64, log.cursorIsStale cursor = false →
      log.changesAfter cursor = (LogOp.history ops).drop cursor.toNat ∧
      (log.changesAfter cursor).map WorldChange.sequence =
        List.range' (cursor.toNat + 1) (log.latestSequence - cursor.toNat) := by
  intro log
  have h := WorldChangeLog.WindowOf.run ops
  have holdest := h.oldestSequence
  have hlatest := h.latestSequence
  have hlength := h.length_le
  refine ⟨?_, ?_, hlatest, h.bounded, fun cursor hs => ⟨h.changesAfter hs, ?_⟩⟩
  · have hnumbered := h.changes_numbered
    rw [← holdest] at hnumbered
    exact hnumbered
  · change (LogOp.run ops).oldestSequence + (LogOp.run ops).changes.length =
      (LogOp.run ops).latestSequence + 1
    omega
  · rw [h.changesAfter hs]
    exact h.sequences_after cursor.toNat

end Cobblestone.World
