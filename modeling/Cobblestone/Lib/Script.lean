import Mathlib.Data.List.Basic
import Mathlib.Order.Defs.Unbundled

namespace Lib

-- Code that is not fixed: it sees the state that each of its calls leaves.
inductive Script (σ C ε α : Type) where
  | done (a : α)
  | throw (e : ε)
  | call (c : C) (next : σ → Script σ C ε α)

namespace Script

variable {σ C ε α : Type} (perform : C → σ → σ)

def run : Script σ C ε α → σ → Except ε α × σ
  | done a, s => (.ok a, s)
  | throw e, s => (.error e, s)
  | call c next, s => run (next (perform c s)) (perform c s)

def calls : Script σ C ε α → σ → List C
  | done _, _ => []
  | throw _, _ => []
  | call c next, s => c :: calls (next (perform c s)) (perform c s)

variable {perform} {script : Script σ C ε α} {s : σ}

theorem run_keeps {keeps : C → Prop} {Q : σ → Prop}
    (hstep : ∀ c s, keeps c → Q s → Q (perform c s))
    (hcalls : ∀ c ∈ script.calls perform s, keeps c) (hs : Q s) : Q (script.run perform s).2 := by
  induction script generalizing s with
  | done a => exact hs
  | throw e => exact hs
  | call c next ih =>
    have hhead : keeps c := hcalls c List.mem_cons_self
    have htail : ∀ d ∈ (next (perform c s)).calls perform (perform c s), keeps d :=
      fun d hd => hcalls d (List.mem_cons_of_mem c hd)
    exact ih (perform c s) htail (hstep c s hhead hs)

theorem run_always {Q : σ → Prop} (hstep : ∀ c s, Q s → Q (perform c s)) (hs : Q s) :
    Q (script.run perform s).2 :=
  @run_keeps σ C ε α perform script s (fun _ => True) Q (fun c s _ => hstep c s)
    (fun _ _ => trivial) hs

-- What one call brings about and no call undoes holds at the end of the run.
theorem run_reaches {makes : C → Prop} {Q : σ → Prop} (hmake : ∀ c s, makes c → Q (perform c s))
    (hstep : ∀ c s, Q s → Q (perform c s)) {c : C} (hc : c ∈ script.calls perform s)
    (hmakes : makes c) : Q (script.run perform s).2 := by
  induction script generalizing s with
  | done a => cases hc
  | throw e => cases hc
  | call d next ih =>
    rcases List.mem_cons.mp hc with rfl | htail
    · have hmade : Q (perform c s) := hmake c s hmakes
      change Q ((next (perform c s)).run perform (perform c s)).2
      exact run_always hstep hmade
    · exact ih (perform d s) htail

end Script

-- Code that learns of the state only what its requests answer, an error included.
inductive Dialogue (R A ε α : Type) where
  | done (a : α)
  | throw (e : ε)
  | request (r : R) (next : Except ε A → Dialogue R A ε α)

namespace Dialogue

variable {σ R A ε α : Type} (perform : R → σ → Except ε A × σ)

def run : Dialogue R A ε α → σ → Except ε α × σ
  | done a, s => (.ok a, s)
  | throw e, s => (.error e, s)
  | request r next, s => run (next (perform r s).1) (perform r s).2

def answered (r : R) : Except ε A → List (R × A)
  | .ok a => [(r, a)]
  | .error _ => []

-- The requests that were answered, in the order they were made.
def log : Dialogue R A ε α → σ → List (R × A)
  | done _, _ => []
  | throw _, _ => []
  | request r next, s => answered r (perform r s).1 ++ log (next (perform r s).1) (perform r s).2

variable {perform} {dialogue : Dialogue R A ε α} {s : σ}

theorem run_logged {Q : List (R × A) → σ → Prop}
    (hstep : ∀ r log s, Q log s → Q (log ++ answered r (perform r s).1) (perform r s).2)
    (before : List (R × A)) (hs : Q before s) :
    Q (before ++ dialogue.log perform s) (dialogue.run perform s).2 := by
  induction dialogue generalizing s before with
  | done a =>
    rw [log, List.append_nil]
    exact hs
  | throw e =>
    rw [log, List.append_nil]
    exact hs
  | request r next ih =>
    rw [log, run, ← List.append_assoc]
    exact ih _ _ (hstep r before s hs)

theorem run_moves {T : σ → σ → Prop} [Std.Refl T] [IsTrans σ T]
    (hstep : ∀ r s, T s (perform r s).2) : T s (dialogue.run perform s).2 := by
  have hstart : T s s := Std.Refl.refl s
  exact run_logged (Q := fun (_ : List (R × A)) t => T s t)
    (fun r _ t ht => IsTrans.trans _ _ _ ht (hstep r t)) [] hstart

end Dialogue

end Lib
