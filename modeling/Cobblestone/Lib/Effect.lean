import Mathlib.Order.Defs.Unbundled
import Mathlib.Tactic

namespace Lib

-- A computation that keeps what it has written when it fails.
abbrev Effect (ε σ : Type) := ExceptT ε (StateM σ)

variable {ε σ α β : Type}

namespace Effect

def exec (m : Effect ε σ α) (s : σ) : Except ε α × σ := (StateT.run (ExceptT.run m) s).run

def ofOp (op : σ → Except ε α × σ) : Effect ε σ α := ExceptT.mk (StateT.mk fun s => pure (op s))

@[simp] theorem exec_ofOp (op : σ → Except ε α × σ) (s : σ) : (ofOp op).exec s = op s := rfl

@[simp] theorem exec_pure (a : α) (s : σ) : (pure a : Effect ε σ α).exec s = (.ok a, s) := rfl

theorem exec_bind (m : Effect ε σ α) (f : α → Effect ε σ β) (s : σ) :
    (m >>= f).exec s = match m.exec s with
      | (.ok a, s') => (f a).exec s'
      | (.error e, s') => (.error e, s') := by
  rw [exec, exec]
  simp only [ExceptT.run_bind, StateT.run_bind]
  generalize (ExceptT.run m).run s = r
  obtain ⟨result, s'⟩ := r
  cases result <;> rfl

theorem bind_ok {m : Effect ε σ α} {f : α → Effect ε σ β} {s t : σ} {b : β} :
    (m >>= f).exec s = (.ok b, t) ↔ ∃ a u, m.exec s = (.ok a, u) ∧ (f a).exec u = (.ok b, t) := by
  rw [exec_bind]
  generalize m.exec s = r
  obtain ⟨result, u⟩ := r
  cases result with
  | error e => simp
  | ok a => simp

-- Every run, also a failing one, moves the state along the relation.
def Moves (R : σ → σ → Prop) (m : Effect ε σ α) : Prop := ∀ s, R s (m.exec s).2

-- A run that succeeds reaches the predicate.
def Reaches (Q : σ → Prop) (m : Effect ε σ α) : Prop := ∀ s a t, m.exec s = (.ok a, t) → Q t

def keeps (Q : σ → Prop) (s t : σ) : Prop := Q s → Q t

instance (Q : σ → Prop) : Std.Refl (keeps Q) := ⟨fun _ h => h⟩

instance (Q : σ → Prop) : IsTrans σ (keeps Q) := ⟨fun _ _ _ h k hs => k (h hs)⟩

section

variable {R : σ → σ → Prop}

theorem Moves.pure [Std.Refl R] (a : α) : Moves R (Pure.pure a : Effect ε σ α) :=
  fun s => Std.Refl.refl (r := R) s

theorem Moves.bind [IsTrans σ R] {m : Effect ε σ α} {f : α → Effect ε σ β} (hm : Moves R m)
    (hf : ∀ a, Moves R (f a)) : Moves R (m >>= f) := by
  intro s
  have h := hm s
  rw [exec_bind]
  generalize m.exec s = r at h
  obtain ⟨result, t⟩ := r
  cases result with
  | error e => exact h
  | ok a => exact IsTrans.trans _ _ _ h (hf a t)

theorem Moves.after {m : Effect ε σ α} (h : Moves R m) {s t : σ} {a : Except ε α}
    (hm : m.exec s = (a, t)) : R s t := by
  have := h s
  rwa [hm] at this

end

-- What holds once the first computation has run, and what follows never loses.
theorem bind_keeps {Q : σ → Prop} {m : Effect ε σ α} {f : α → Effect ε σ β} {s : σ}
    (hm : Q (m.exec s).2) (hf : ∀ a, Moves (keeps Q) (f a)) : Q ((m >>= f).exec s).2 := by
  rw [exec_bind]
  generalize m.exec s = r at hm
  obtain ⟨result, t⟩ := r
  cases result with
  | error e => exact hm
  | ok a => exact hf a t hm

theorem exec_bind_ok {m : Effect ε σ α} {f : α → Effect ε σ β} {s t : σ} {a : α}
    (hm : m.exec s = (.ok a, t)) : (m >>= f).exec s = (f a).exec t := by
  rw [exec_bind, hm]

theorem bind_cases {m : Effect ε σ α} {f : α → Effect ε σ β} {s t : σ} {result : Except ε β}
    (h : (m >>= f).exec s = (result, t)) :
    (∃ e, m.exec s = (.error e, t) ∧ result = .error e) ∨
      ∃ a u, m.exec s = (.ok a, u) ∧ (f a).exec u = (result, t) := by
  rcases hm : m.exec s with ⟨e | a, u⟩
  · rw [exec_bind, hm] at h
    cases h
    exact .inl ⟨e, rfl, rfl⟩
  · exact .inr ⟨a, u, rfl, exec_bind_ok hm ▸ h⟩

theorem bind_error {m : Effect ε σ α} {f : α → Effect ε σ β} {s t : σ} {e : ε}
    (hm : m.exec s = (.error e, t)) : (m >>= f).exec s = (.error e, t) := by
  rw [exec_bind, hm]

def sumM (f : α → Effect ε σ Nat) : List α → Effect ε σ Nat
  | [] => pure 0
  | a :: rest => do
    let n ← f a
    let m ← sumM f rest
    pure (n + m)

theorem Moves.sumM {R : σ → σ → Prop} [Std.Refl R] [IsTrans σ R] {f : α → Effect ε σ Nat}
    {l : List α} (hf : ∀ a ∈ l, Moves R (f a)) : Moves R (sumM f l) := by
  induction l with
  | nil => exact Moves.pure 0
  | cons a rest ih =>
    refine (hf a (by simp)).bind fun n => (ih fun b hb => hf b (by simp [hb])).bind fun m => ?_
    exact Moves.pure _

theorem sumM_cons_ok {f : α → Effect ε σ Nat} {a : α} {rest : List α} {s t : σ} {n : Nat}
    (h : (sumM f (a :: rest)).exec s = (.ok n, t)) :
    ∃ k m u, (f a).exec s = (.ok k, u) ∧ (sumM f rest).exec u = (.ok m, t) := by
  obtain ⟨k, u, hk, h⟩ := bind_ok.mp h
  obtain ⟨m, v, hm, h⟩ := bind_ok.mp h
  rw [exec_pure] at h
  cases h
  exact ⟨k, m, u, hk, hm⟩

-- What one element reaches and none loses is there at the end.
theorem Reaches.sumM {Q : σ → Prop} {f : α → Effect ε σ Nat} {l : List α} {a : α} (ha : a ∈ l)
    (hf : ∀ b ∈ l, Moves (keeps Q) (f b)) (hr : Reaches Q (f a)) : Reaches Q (sumM f l) := by
  induction l with
  | nil => cases ha
  | cons b rest ih =>
    intro s n t h
    obtain ⟨k, m, u, hk, hm⟩ := sumM_cons_ok h
    rcases List.mem_cons.mp ha with rfl | ha
    · exact (Moves.sumM fun c hc => hf c (by simp [hc])).after hm (hr s k u hk)
    · exact ih ha (fun c hc => hf c (by simp [hc])) u m t hm

end Effect

end Lib
