import Mathlib.Order.Lattice

namespace Lib

variable {σ κ ο ε : Type*}

-- Who holds a place, and the epoch under which it is or was last held.
structure Tenure (ο ε : Type*) where
  holder : Option ο
  epoch : ε
deriving DecidableEq, Repr

namespace Tenure

variable {a b c : Tenure ο ε} {o o' : ο} {e e' : ε}

def Holds (a : Tenure ο ε) (o : ο) (e : ε) : Prop := a.holder = some o ∧ a.epoch = e

theorem Holds.unique (h : a.Holds o e) (k : a.Holds o' e') : o = o' ∧ e = e' :=
  ⟨Option.some.inj (h.1.symm.trans k.1), h.2.symm.trans k.2⟩

variable [LinearOrder ε]

-- A holder gives way only to a later epoch.
structure Fenced (a b : Tenure ο ε) : Prop where
  kept : a.epoch ≤ b.epoch
  raised : ∀ o, a.holder = some o → b.holder ≠ some o → a.epoch < b.epoch

theorem Fenced.refl (a : Tenure ο ε) : Fenced a a := ⟨le_refl _, fun _ h hne => absurd h hne⟩

theorem Fenced.trans (h : Fenced a b) (k : Fenced b c) : Fenced a c where
  kept := h.kept.trans k.kept
  raised o ha hc := by
    by_cases hb : b.holder = some o
    · exact h.kept.trans_lt (k.raised o hb hc)
    · exact (h.raised o ha hb).trans_le k.kept

theorem Fenced.later (h : Fenced a b) (ha : a.Holds o e) (hb : b.Holds o' e') :
    o = o' ∧ e = e' ∨ e < e' := by
  obtain ⟨ho, rfl⟩ := ha
  obtain ⟨ho', rfl⟩ := hb
  by_cases hsame : o = o'
  · subst hsame
    rcases h.kept.eq_or_lt with heq | hlt
    · exact .inl ⟨rfl, heq⟩
    · exact .inr hlt
  · refine .inr (h.raised o ho fun hb => hsame ?_)
    exact Option.some.inj (hb.symm.trans ho')

-- What has lost its place does not get it back.
theorem Fenced.stale (h : Fenced a b) (k : Fenced b c) (ha : a.Holds o e) (hb : ¬b.Holds o e) :
    ¬c.Holds o e := by
  rintro ⟨-, hc⟩
  obtain ⟨ho, rfl⟩ := ha
  have hlt : a.epoch < b.epoch := by
    by_cases hholder : b.holder = some o
    · exact h.kept.lt_of_ne fun heq => hb ⟨hholder, heq.symm⟩
    · exact h.raised o ho hholder
  exact absurd hc (hlt.trans_le k.kept).ne'

theorem Fenced.foldl {step : σ → κ → σ} {tenure : σ → Tenure ο ε}
    (hstep : ∀ s k, Fenced (tenure s) (tenure (step s k))) (ks : List κ) (s : σ) :
    Fenced (tenure s) (tenure (ks.foldl step s)) := by
  induction ks generalizing s with
  | nil => exact .refl _
  | cons k ks ih => exact (hstep s k).trans (ih (step s k))

end Tenure

end Lib
