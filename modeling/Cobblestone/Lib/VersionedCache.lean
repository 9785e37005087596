import Mathlib.Data.Finmap
import Mathlib.Order.Basic

namespace Lib

-- Results computed from versioned sources and kept under the version they were computed at.
structure Stamping (K E A V : Type) where
  stamp : E → V
  version : A → V
  right : K → E → A → Prop

namespace Stamping

variable {K E A V : Type} [PartialOrder V] (S : Stamping K E A V)

structure Follows (a b : A) : Prop where
  later : S.version a ≤ S.version b
  same : S.version b = S.version a → ∀ k e, S.right k e a → S.right k e b

structure Current (k : K) (e : E) (a : A) : Prop where
  past : S.stamp e ≤ S.version a
  exact : S.stamp e = S.version a → S.right k e a

variable {S} {k : K} {e : E} {a b c : A}

theorem Follows.refl (a : A) : S.Follows a a := ⟨le_refl _, fun _ _ _ h => h⟩

theorem Follows.trans (h : S.Follows a b) (g : S.Follows b c) : S.Follows a c where
  later := h.later.trans g.later
  same heq k e hright := by
    have hback : S.version c ≤ S.version b := heq ▸ h.later
    have hmiddle : S.version c = S.version b := le_antisymm hback g.later
    exact g.same hmiddle k e (h.same (hmiddle.symm.trans heq) k e hright)

theorem Follows.of_newer (hle : S.version a ≤ S.version b) (hne : S.version b ≠ S.version a) :
    S.Follows a b := ⟨hle, fun h => absurd h hne⟩

-- An entry that a later source makes right again was already right before.
theorem Current.follow (h : S.Current k e a) (g : S.Follows a b) : S.Current k e b where
  past := h.past.trans g.later
  exact heq := by
    have hversion : S.version b = S.version a := le_antisymm (heq ▸ h.past) g.later
    exact g.same hversion k e (h.exact (heq.trans hversion))

variable [DecidableEq K] {cache : Finmap fun _ : K => E} {source after : K → Option A}

variable (S) in
def Sound (cache : Finmap fun _ : K => E) (source : K → Option A) : Prop :=
  ∀ k e, cache.lookup k = some e → ∃ a, source k = some a ∧ S.Current k e a

theorem Sound.empty (source : K → Option A) : S.Sound ∅ source := by
  intro k e h
  rw [Finmap.lookup_empty] at h
  cases h

theorem Sound.follow (h : S.Sound cache source)
    (hstep : ∀ k a, source k = some a → ∃ b, after k = some b ∧ S.Follows a b) :
    S.Sound cache after := by
  intro k e he
  obtain ⟨a, ha, hcurrent⟩ := h k e he
  obtain ⟨b, hb, hfollows⟩ := hstep k a ha
  exact ⟨b, hb, hcurrent.follow hfollows⟩

theorem Sound.erase (h : S.Sound cache source) (hother : ∀ j, j ≠ k → after j = source j) :
    S.Sound (cache.erase k) after := by
  intro j e he
  by_cases hj : j = k
  · subst hj
    rw [Finmap.lookup_erase] at he
    cases he
  · rw [Finmap.lookup_erase_ne hj] at he
    rw [hother j hj]
    exact h j e he

theorem Sound.insert (h : S.Sound cache source) (ha : source k = some a)
    (hversion : S.stamp e = S.version a) (hright : S.right k e a) :
    S.Sound (cache.insert k e) source := by
  intro j d hd
  by_cases hj : j = k
  · subst hj
    rw [Finmap.lookup_insert] at hd
    cases hd
    exact ⟨a, ha, hversion.le, fun _ => hright⟩
  · rw [Finmap.lookup_insert_of_ne _ hj] at hd
    exact h j d hd

theorem Sound.hit (h : S.Sound cache source) (he : cache.lookup k = some e) (ha : source k = some a)
    (hversion : S.stamp e = S.version a) : S.right k e a := by
  obtain ⟨b, hb, hcurrent⟩ := h k e he
  rw [ha] at hb
  cases hb
  exact hcurrent.exact hversion

end Stamping

end Lib
