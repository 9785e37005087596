import Cobblestone.Lib.Word

namespace Lib

variable {ε α β : Type}

inductive Halt (ε : Type) where
  | outOfFuel
  | failed (e : ε)
  deriving DecidableEq, Repr

namespace Reader

def fueled (r : Reader ε α) : Reader (Halt ε) α := fun s =>
  match r s with
  | .ok p => .ok p
  | .error e => .error (.failed e)

instance : MonadLift (StateT Bytes (Except ε)) (StateT Bytes (Except (Halt ε))) where
  monadLift := fueled

def outOfFuel : Reader (Halt ε) α := fun _ => .error .outOfFuel

theorem fueled_ok_iff {r : Reader ε α} {s : Bytes} {p : α × Bytes} :
    (liftM r : Reader (Halt ε) α) s = .ok p ↔ r s = .ok p := by
  change fueled r s = .ok p ↔ _
  cases h : r s <;> simp [fueled, h]

theorem fueled_failed {r : Reader ε α} {s : Bytes} :
    (liftM r : Reader (Halt ε) α) s ≠ .error .outOfFuel := by
  change fueled r s ≠ _
  cases h : r s <;> simp [fueled, h]

theorem checked_ok_iff {x : Except ε α} {s t : Bytes} {a : α} :
    (liftM x : Reader ε α) s = .ok (a, t) ↔ x = .ok a ∧ s = t := by
  cases x with
  | error e => simp [liftM, monadLift, MonadLift.monadLift, StateT.lift, bind, Except.bind]
  | ok b =>
    simp [liftM, monadLift, MonadLift.monadLift, StateT.lift, bind, Except.bind, pure, Except.pure]

theorem fueled_checked_ok_iff {x : Except ε α} {s t : Bytes} {a : α} :
    (liftM x : Reader (Halt ε) α) s = .ok (a, t) ↔ x = .ok a ∧ s = t :=
  fueled_ok_iff.trans checked_ok_iff

end Reader

-- on inputs shorter than `n` the two readers agree, neither runs dry, and both take `c` bytes or more
def Settled (n c : Nat) (r r' : Reader (Halt ε) α) : Prop :=
  ∀ s, s.length < n →
    r s = r' s ∧ r s ≠ .error .outOfFuel ∧ ∀ a t, r s = .ok (a, t) → t.length + c ≤ s.length

namespace Settled

theorem mono {n m c d : Nat} {r r' : Reader (Halt ε) α} (h : Settled n c r r') (hn : m ≤ n)
    (hc : d ≤ c) : Settled m d r r' := by
  intro s hs
  obtain ⟨heq, hhalt, htake⟩ := h s (by omega)
  exact ⟨heq, hhalt, fun a t ht => Nat.le_trans (by omega) (htake a t ht)⟩

theorem pure (n : Nat) (a : α) :
    Settled n 0 (Pure.pure a : Reader (Halt ε) α) (Pure.pure a) := by
  intro s _
  refine ⟨rfl, nofun, ?_⟩
  intro b t h
  obtain ⟨-, rfl⟩ := Reader.pure_ok_iff.mp h
  exact le_rfl

theorem bind {n c d : Nat} {r r' : Reader (Halt ε) α} {k k' : α → Reader (Halt ε) β}
    (h : Settled n c r r') (hk : ∀ a, Settled (n - c) d (k a) (k' a)) :
    Settled n (c + d) (r >>= k) (r' >>= k') := by
  intro s hs
  obtain ⟨heq, hhalt, htake⟩ := h s hs
  cases hr : r s with
  | error e =>
    rw [Reader.bind_error hr, Reader.bind_error (heq ▸ hr)]
    refine ⟨rfl, fun he => hhalt ?_, nofun⟩
    cases he
    exact hr
  | ok p =>
    obtain ⟨a, t⟩ := p
    have hlen := htake a t hr
    rw [Reader.bind_of_ok hr, Reader.bind_of_ok (heq ▸ hr)]
    obtain ⟨heq', hhalt', htake'⟩ := hk a t (by omega)
    refine ⟨heq', hhalt', fun b u hu => ?_⟩
    have := htake' b u hu
    omega

theorem andThen {n : Nat} {r r' : Reader (Halt ε) α} {k k' : α → Reader (Halt ε) β}
    (h : Settled n 0 r r') (hk : ∀ a, Settled n 0 (k a) (k' a)) :
    Settled n 0 (r >>= k) (r' >>= k') := h.bind hk

theorem fueled {n c : Nat} {r : Reader ε α}
    (h : ∀ s a t, r s = .ok (a, t) → t.length + c ≤ s.length) :
    Settled n c (liftM r : Reader (Halt ε) α) (liftM r) := fun s _ =>
  ⟨rfl, Reader.fueled_failed, fun a t ht => h s a t (Reader.fueled_ok_iff.mp ht)⟩

theorem checked (n : Nat) (x : Except ε α) :
    Settled n 0 (liftM x : Reader (Halt ε) α) (liftM x) := by
  refine fueled fun s a t h => ?_
  obtain ⟨-, rfl⟩ := Reader.checked_ok_iff.mp h
  exact le_rfl

theorem times {n : Nat} {r r' : Reader (Halt ε) α} (h : Settled n 0 r r') (k : Nat) :
    Settled n 0 (r.times k) (r'.times k) := by
  induction k with
  | zero => exact pure n []
  | succ k ih => exact h.andThen fun a => ih.andThen fun as => pure n (a :: as)

end Settled

end Lib
