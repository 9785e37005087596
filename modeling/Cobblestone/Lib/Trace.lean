import Cobblestone.Lib.Effect
import Mathlib.Logic.Relation

namespace Lib

variable {σ : Type*} {step : σ → σ → Prop} {s t : σ}

theorem invariant_of_run (inv : σ → Prop) (hrun : Relation.ReflTransGen step s t) (hinit : inv s)
    (hstep : ∀ a b, inv a → step a b → inv b) : inv t := by
  induction hrun with
  | refl => exact hinit
  | tail _ hs ih => exact hstep _ _ ih hs

theorem simulation_of_run {τ : Type*} {abstract : τ → τ → Prop} (view : σ → τ)
    (hsim : ∀ a b, step a b → view b = view a ∨ abstract (view a) (view b))
    (hrun : Relation.ReflTransGen step s t) : Relation.ReflTransGen abstract (view s) (view t) := by
  induction hrun with
  | refl => exact .refl
  | tail _ hs ih =>
    rcases hsim _ _ hs with he | hstep
    · rw [he]
      exact ih
    · exact ih.tail hstep

end Lib

namespace Lib

inductive StepPath {σ τ : Type} (step : σ → τ → σ → Prop) : σ → List τ → σ → Prop
  | nil (s : σ) : StepPath step s [] s
  | cons {s t u : σ} {a : τ} {trace : List τ} (h : step s a t) (rest : StepPath step t trace u) :
      StepPath step s (a :: trace) u

namespace StepPath

variable {σ τ : Type} {step : σ → τ → σ → Prop} {s t u : σ} {before after trace : List τ} {a : τ}

theorem single (h : step s a t) : StepPath step s [a] t := .cons h (.nil t)

theorem append (h : StepPath step s before t) (k : StepPath step t after u) :
    StepPath step s (before ++ after) u := by
  induction h with
  | nil => exact k
  | cons hs _ ih => exact .cons hs (ih k)

theorem split (h : StepPath step s (before ++ after) u) :
    ∃ t, StepPath step s before t ∧ StepPath step t after u := by
  induction before generalizing s with
  | nil => exact ⟨s, .nil s, h⟩
  | cons a before ih =>
    cases h with
    | cons hs rest =>
      obtain ⟨t, hb, ha⟩ := ih rest
      exact ⟨t, .cons hs hb, ha⟩

theorem moves (h : StepPath step s trace t) {R : σ → σ → Prop} [Std.Refl R] [IsTrans σ R]
    (hstep : ∀ s a t, step s a t → R s t) : R s t := by
  induction h with
  | nil s => exact Std.Refl.refl (r := R) s
  | cons hs _ ih => exact IsTrans.trans _ _ _ (hstep _ _ _ hs) ih

section

variable {P : σ → Prop} {mark : τ → Bool}

-- A marked step leaves the predicate true, and none is taken where it holds.
theorem countP_eq_zero (h : StepPath step s trace t) (hkeep : ∀ s a t, step s a t → P s → P t)
    (hmark : ∀ s a t, step s a t → mark a = true → ¬P s) (hs : P s) : trace.countP mark = 0 := by
  induction h with
  | nil => rfl
  | @cons s t u a trace hst _ ih =>
    have ha : ¬mark a = true := fun ha => hmark s a t hst ha hs
    rw [List.countP_cons_of_neg ha]
    exact ih (hkeep s a t hst hs)

theorem countP_le_one (h : StepPath step s trace t) (hkeep : ∀ s a t, step s a t → P s → P t)
    (hmark : ∀ s a t, step s a t → mark a = true → ¬P s ∧ P t) : trace.countP mark ≤ 1 := by
  induction h with
  | nil => simp
  | @cons s t u a trace hst rest ih =>
    by_cases ha : mark a = true
    · have hzero := rest.countP_eq_zero hkeep (fun s a t h hm => (hmark s a t h hm).1)
        (hmark s a t hst ha).2
      rw [List.countP_cons_of_pos ha, hzero]
    · rw [List.countP_cons_of_neg ha]
      exact ih

end

end StepPath

namespace Effect

variable {ε σ τ α β : Type}

def failures (result : Except ε α) : Nat :=
  match result with
  | .ok _ => 0
  | .error _ => 1

-- Every run is a path of steps, of which exactly the last one of a failing run has failed.
def Traced (step : σ → τ → σ → Prop) (failed : τ → Bool) (m : Effect ε σ α) : Prop :=
  ∀ s, ∃ trace, StepPath step s trace (m.exec s).2 ∧
    trace.countP failed = failures (m.exec s).1

section

variable {step : σ → τ → σ → Prop} {failed : τ → Bool}

theorem Traced.pure (a : α) : Traced step failed (Pure.pure a : Effect ε σ α) :=
  fun s => ⟨[], .nil s, rfl⟩

theorem Traced.bind {m : Effect ε σ α} {f : α → Effect ε σ β} (hm : Traced step failed m)
    (hf : ∀ a, Traced step failed (f a)) : Traced step failed (m >>= f) := by
  intro s
  obtain ⟨trace, hpath, hcount⟩ := hm s
  rw [exec_bind]
  generalize m.exec s = r at hpath hcount
  obtain ⟨result, t⟩ := r
  cases result with
  | error e => exact ⟨trace, hpath, hcount⟩
  | ok a =>
    obtain ⟨rest, hrest, hmore⟩ := hf a t
    refine ⟨trace ++ rest, hpath.append hrest, ?_⟩
    rw [List.countP_append, hcount, hmore]
    exact Nat.zero_add _

theorem Traced.sumM {f : α → Effect ε σ Nat} {l : List α} (hf : ∀ a ∈ l, Traced step failed (f a)) :
    Traced step failed (sumM f l) := by
  induction l with
  | nil => exact Traced.pure 0
  | cons a rest ih =>
    refine (hf a (by simp)).bind fun n => (ih fun b hb => hf b (by simp [hb])).bind fun m => ?_
    exact Traced.pure _

end

-- The second computation does on the image of a state what the first does on the state.
def Maps (f : σ → τ) (m : Effect ε σ α) (m' : Effect ε τ α) : Prop :=
  ∀ s, m'.exec (f s) = ((m.exec s).1, f (m.exec s).2)

section

variable {f : σ → τ}

theorem Maps.pure (a : α) : Maps f (Pure.pure a : Effect ε σ α) (Pure.pure a) := fun _ => rfl

theorem Maps.bind {m : Effect ε σ α} {m' : Effect ε τ α} {k : α → Effect ε σ β}
    {k' : α → Effect ε τ β} (hm : Maps f m m') (hk : ∀ a, Maps f (k a) (k' a)) :
    Maps f (m >>= k) (m' >>= k') := by
  intro s
  rw [exec_bind, exec_bind, hm s]
  generalize m.exec s = r
  obtain ⟨result, t⟩ := r
  cases result with
  | error e => rfl
  | ok a => exact hk a t

theorem Maps.sumM {m : α → Effect ε σ Nat} {m' : α → Effect ε τ Nat} (h : ∀ a, Maps f (m a) (m' a))
    (l : List α) : Maps f (sumM m l) (sumM m' l) := by
  induction l with
  | nil => exact Maps.pure 0
  | cons a rest ih => exact (h a).bind fun n => ih.bind fun m => Maps.pure (n + m)

end

end Effect

end Lib
