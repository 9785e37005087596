import Mathlib.Data.List.Basic
import Mathlib.Data.List.Forall2
import Mathlib.Tactic

namespace Lib

variable {ε α β : Type}

def ensure (condition : Bool) (e : ε) : Except ε Unit := if condition then .ok () else .error e

@[simp] theorem ensure_ok_iff {condition : Bool} {e : ε} {u : Unit} :
    ensure condition e = .ok u ↔ condition = true := by
  cases condition <;> simp [ensure]

@[simp] theorem ensure_true (e : ε) : ensure true e = .ok () := rfl

theorem ensure_false {condition : Bool} {e : ε} (h : condition = false) :
    ensure condition e = .error e := by
  simp [ensure, h]

@[simp] theorem bind_ok_iff {x : Except ε α} {f : α → Except ε β} {b : β} :
    (x >>= f) = .ok b ↔ ∃ a, x = .ok a ∧ f a = .ok b := by
  cases x <;> simp [bind, Except.bind]

@[simp] theorem ok_bind (a : α) (f : α → Except ε β) :
    ((Except.ok a : Except ε α) >>= f) = f a := rfl

@[simp] theorem error_bind (e : ε) (f : α → Except ε β) :
    ((Except.error e : Except ε α) >>= f) = .error e := rfl

theorem forM_ok_iff {f : α → Except ε Unit} {l : List α} {u : Unit} :
    l.forM f = .ok u ↔ ∀ a ∈ l, f a = .ok () := by
  induction l with
  | nil => simp [pure, Except.pure]
  | cons a l ih =>
    rw [List.forM_eq_forM, List.forM_cons, bind_ok_iff, List.forall_mem_cons]
    exact ⟨fun ⟨_, ha, hl⟩ => ⟨ha, ih.mp hl⟩, fun ⟨ha, hl⟩ => ⟨(), ha, ih.mpr hl⟩⟩

theorem mapM_ok_iff {f : α → Except ε β} {l : List α} {bs : List β} :
    l.mapM f = .ok bs ↔ List.Forall₂ (fun a b => f a = .ok b) l bs := by
  induction l generalizing bs with
  | nil => simp [pure, Except.pure, eq_comm]
  | cons a l ih =>
    rw [List.mapM_cons, bind_ok_iff]
    constructor
    · rintro ⟨b, hb, h⟩
      obtain ⟨cs, hcs, h⟩ := bind_ok_iff.mp h
      cases h
      exact .cons hb (ih.mp hcs)
    · rintro (_ | ⟨hb, hcs⟩)
      exact ⟨_, hb, bind_ok_iff.mpr ⟨_, ih.mpr hcs, rfl⟩⟩

theorem mapM_isOk_iff {f : α → Except ε β} {l : List α} :
    (∃ bs, l.mapM f = .ok bs) ↔ ∀ a ∈ l, ∃ b, f a = .ok b := by
  simp only [mapM_ok_iff]
  induction l with
  | nil => simp
  | cons a l ih =>
    rw [List.forall_mem_cons, ← ih]
    constructor
    · rintro ⟨_, _ | ⟨hb, hbs⟩⟩
      exact ⟨⟨_, hb⟩, _, hbs⟩
    · rintro ⟨⟨b, hb⟩, bs, hbs⟩
      exact ⟨b :: bs, .cons hb hbs⟩

end Lib

namespace Lib

-- A computation whose writes are lost when it fails.
abbrev Attempt (ε σ α : Type) := StateT σ (Except ε) α

variable {ε σ τ α β : Type}

-- A result that is as promised, or a failure for the given reason.
def Outcome (Q : α → σ → Prop) (E : Prop) : Except ε (α × σ) → Prop
  | .ok (a, s) => Q a s
  | .error _ => E

namespace Attempt

def orThrow (e : ε) : Option α → Attempt ε σ α
  | some a => pure a
  | none => throw e

variable {m : Attempt ε σ α} {f : α → Attempt ε σ β} {s : σ} {Q Q' : α → σ → Prop}
  {R : β → σ → Prop} {E : Prop}

theorem bind_apply (m : Attempt ε σ α) (f : α → Attempt ε σ β) (s : σ) :
    (m >>= f) s = match m s with
      | .ok (a, t) => f a t
      | .error e => .error e := by
  change (m s >>= fun r => f r.1 r.2) = _
  cases m s <;> rfl

theorem outcome_pure {a : α} (h : Q a s) : Outcome Q E ((pure a : Attempt ε σ α) s) := h

theorem outcome_bind (hm : Outcome Q E (m s)) (hf : ∀ a t, Q a t → Outcome R E (f a t)) :
    Outcome R E ((m >>= f) s) := by
  rw [bind_apply]
  generalize m s = r at hm
  cases r with
  | error e => exact hm
  | ok r => exact hf r.1 r.2 hm

theorem outcome_mono (hm : Outcome Q E (m s)) (h : ∀ a t, Q a t → Q' a t) : Outcome Q' E (m s) := by
  generalize m s = r at hm
  cases r with
  | error e => exact hm
  | ok r => exact h r.1 r.2 hm

theorem outcome_and (hm : Outcome Q E (m s)) (hm' : Outcome Q' True (m s)) :
    Outcome (fun a t => Q a t ∧ Q' a t) E (m s) := by
  generalize m s = r at hm hm'
  cases r with
  | error e => exact hm
  | ok r => exact ⟨hm, hm'⟩

theorem outcome_orThrow {e : ε} {o : Option α} (hsome : ∀ a, o = some a → Q a s)
    (hnone : o = none → E) : Outcome Q E ((orThrow e o : Attempt ε σ α) s) := by
  cases o with
  | none => exact hnone rfl
  | some a => exact hsome a rfl

theorem outcome_ok {a : α} {t : σ} (hm : Outcome Q E (m s)) (h : m s = .ok (a, t)) : Q a t := by
  rwa [h] at hm

theorem outcome_weaken {E' : Prop} (hm : Outcome Q E (m s)) (h : E → E') : Outcome Q E' (m s) := by
  generalize m s = r at hm
  cases r with
  | error e => exact h hm
  | ok r => exact hm

-- A loop works off a list part by part; the invariant says what is left of it.
theorem outcome_forM {γ : Type} {I : List γ → σ → Prop} {body : β → Attempt ε σ Unit}
    (part : β → List γ) {all : List γ} (rest : List γ) {l : List β}
    (hstep : ∀ b ∈ l, ∀ rest t, part b ++ rest <:+ all → I (part b ++ rest) t →
      Outcome (fun _ => I rest) E (body b t))
    (hall : l.flatMap part ++ rest <:+ all) (hl : I (l.flatMap part ++ rest) s) :
    Outcome (fun _ => I rest) E (l.forM body s) := by
  induction l generalizing s with
  | nil => exact hl
  | cons b l ih =>
    rw [List.flatMap_cons, List.append_assoc] at hall hl
    rw [List.forM_eq_forM, List.forM_cons]
    refine outcome_bind (hstep b (by simp) _ s hall hl) fun _ t ht => ?_
    refine ih (fun c hc => hstep c (List.mem_cons_of_mem b hc)) ?_ ht
    exact (List.suffix_append (part b) _).trans hall

end Attempt

end Lib
