import Cobblestone.Lib.Radiance

namespace Lib

open Finset

namespace Radiance

variable {α : Type*} {f : Radiance α} {level level' : α → Nat} {bound : Nat}

theorem value_mono (h : ∀ a, level a ≤ level' a) (a : α) : f.value level a ≤ f.value level' a := by
  refine le_of_forall_pos fun v hv hle => (le_value_iff hv).mpr ?_
  rcases (le_value_iff hv).mp hle with hsource | ⟨b, hb, hlevel⟩
  · exact .inl hsource
  · exact .inr ⟨b, hb, hlevel.trans (h b)⟩

-- The brightest cell of a settled field is a source.
theorem settled_le (hf : ∀ a, f.Settled level a) (hsource : ∀ a, f.source a ≤ bound) {height : Nat}
    (hheight : ∀ a, level a ≤ height) (a : α) : level a ≤ bound := by
  suffices h : ∀ k v a, height < v + k → 0 < v → v ≤ level a → v ≤ bound from
    le_of_forall_pos fun v hv hle => h (height + 1) v a (by omega) hv hle
  intro k
  induction k with
  | zero =>
    intro v a hk _ hle
    have := hheight a
    omega
  | succ k ih =>
    intro v a hk hv hle
    rw [hf a, le_value_iff hv] at hle
    rcases hle with hlit | ⟨b, _, hlevel⟩
    · exact hlit.trans (hsource a)
    · have hgain := f.loss_pos a
      have := ih (v + f.loss a) b (by omega) (by omega) hlevel
      omega

def rounds (f : Radiance α) : Nat → α → Nat
  | 0 => f.source
  | n + 1 => f.value (f.rounds n)

theorem rounds_le (hsource : ∀ a, f.source a ≤ bound) (n : Nat) (a : α) : f.rounds n a ≤ bound := by
  induction n generalizing a with
  | zero => exact hsource a
  | succ n ih => exact value_le (hsource a) fun b _ => ih b

-- A level is reached after as many rounds as it lies below the brightest source.
theorem le_rounds_iff (hsource : ∀ a, f.source a ≤ bound) {n v : Nat} (hv : 0 < v)
    (hn : bound ≤ v + n) (a : α) : v ≤ f.rounds (n + 1) a ↔ v ≤ f.rounds n a := by
  induction n generalizing v a with
  | zero =>
    have hgain := f.loss_pos a
    rw [rounds, rounds, le_value_iff hv]
    refine ⟨fun h => ?_, .inl⟩
    rcases h with hlit | ⟨b, _, hlevel⟩
    · exact hlit
    · exact absurd (hlevel.trans (hsource b)) (by omega)
  | succ n ih =>
    have hgain := f.loss_pos a
    rw [rounds, le_value_iff hv, rounds, le_value_iff hv]
    refine or_congr Iff.rfl (exists_congr fun b => and_congr Iff.rfl ?_)
    exact ih (by omega) (by omega) b

theorem exists_settled (hsource : ∀ a, f.source a ≤ bound) :
    ∃ level : α → Nat, (∀ a, f.Settled level a) ∧ ∀ a, level a ≤ bound := by
  refine ⟨f.rounds bound, fun a => ?_, rounds_le hsource bound⟩
  apply le_antisymm
  · exact le_of_forall_pos fun v hv hle => (le_rounds_iff hsource hv (by omega) a).mpr hle
  · exact le_of_forall_pos fun v hv hle => (le_rounds_iff hsource hv (by omega) a).mp hle

-- While `b` shines on the cells in `todo`, every way along which light may still spread starts in
-- the queue or leads from `b` to one of them.
structure Flooding (f : Radiance α) (level : α → Nat) (queue : List α) (b : α) (todo : List α) :
    Prop where
  sourced : ∀ a, f.source a ≤ level a
  grounded : ∀ a, level a ≤ f.value level a
  covered : ∀ a, ∀ c ∈ f.near a, level c ≤ level a + f.loss a ∨ c ∈ queue ∨ c = b ∧ a ∈ todo

namespace Flooding

variable {queue todo : List α} {a b c : α}

theorem lit (hqueue : ∀ a, f.source a ≠ 0 → a ∈ queue) (b : α) : Flooding f f.source queue b [] where
  sourced _ := le_rfl
  grounded _ := source_le_value
  covered a c _ := by
    rcases Nat.eq_zero_or_pos (f.source c) with hdark | hlit
    · exact .inl (by omega)
    · exact .inr (.inl (hqueue c hlit.ne'))

theorem pop (h : Flooding f level (b :: queue) c []) (htodo : ∀ a, b ∈ f.near a → a ∈ todo) :
    Flooding f level queue b todo where
  sourced := h.sourced
  grounded := h.grounded
  covered a c hc := by
    rcases h.covered a c hc with hle | hqueued | ⟨_, hnone⟩
    · exact .inl hle
    · rcases List.mem_cons.mp hqueued with rfl | hrest
      · exact .inr (.inr ⟨rfl, htodo a hc⟩)
      · exact .inr (.inl hrest)
    · cases hnone

theorem skip (h : Flooding f level queue b todo) (hdim : level b ≤ 1) :
    Flooding f level queue b [] where
  sourced := h.sourced
  grounded := h.grounded
  covered a c hc := by
    rcases h.covered a c hc with hle | hqueued | ⟨rfl, _⟩
    · exact .inl hle
    · exact .inr (.inl hqueued)
    · have := f.loss_pos a
      exact .inl (by omega)

theorem keep (h : Flooding f level queue b (a :: todo)) (hle : level b ≤ level a + f.loss a) :
    Flooding f level queue b todo where
  sourced := h.sourced
  grounded := h.grounded
  covered d c hc := by
    rcases h.covered d c hc with hd | hqueued | ⟨rfl, htodo⟩
    · exact .inl hd
    · exact .inr (.inl hqueued)
    · rcases List.mem_cons.mp htodo with rfl | hrest
      · exact .inl hle
      · exact .inr (.inr ⟨rfl, hrest⟩)

theorem raise [DecidableEq α] {next : Nat} (h : Flooding f level queue b (a :: todo))
    (hb : b ∈ f.near a) (hne : b ≠ a) (hnext : next + f.loss a = level b) (hlt : level a < next) :
    Flooding f (Function.update level a next) (queue ++ [a]) b todo := by
  have hup (d : α) : level d ≤ Function.update level a next d := by
    by_cases hd : d = a
    · rw [hd, Function.update_self]
      exact hlt.le
    · rw [Function.update_of_ne hd]
  refine ⟨fun d => (h.sourced d).trans (hup d), fun d => ?_, fun d c hc => ?_⟩
  · by_cases hd : d = a
    · subst hd
      rw [Function.update_self]
      refine (le_value_iff (by omega)).mpr (.inr ⟨b, hb, ?_⟩)
      rw [Function.update_of_ne hne]
      omega
    · rw [Function.update_of_ne hd]
      exact (h.grounded d).trans (value_mono hup d)
  · by_cases hca : c = a
    · exact .inr (.inl (by simp [hca]))
    · rw [Function.update_of_ne hca]
      rcases h.covered d c hc with hle | hqueued | ⟨rfl, htodo⟩
      · exact .inl (hle.trans (Nat.add_le_add_right (hup d) _))
      · exact .inr (.inl (List.mem_append_left _ hqueued))
      · rcases List.mem_cons.mp htodo with rfl | hrest
        · rw [Function.update_self]
          exact .inl (by omega)
        · exact .inr (.inr ⟨rfl, hrest⟩)

theorem settled (h : Flooding f level [] b []) (a : α) : f.Settled level a := by
  refine le_antisymm (h.grounded a) (le_of_forall_pos fun v hv hle => ?_)
  rcases (le_value_iff hv).mp hle with hsource | ⟨c, hc, hlevel⟩
  · exact hsource.trans (h.sourced a)
  · rcases h.covered a c hc with hcovered | hnone | ⟨_, hnone⟩
    · omega
    · cases hnone
    · cases hnone

end Flooding

-- What is missing to full brightness falls with every cell that is raised.
def shade (bound : Nat) [Fintype α] (level : α → Nat) : Nat := ∑ a, (bound - level a)

theorem shade_raised_lt [Fintype α] [DecidableEq α] {a : α} {next : Nat} (hlt : level a < next)
    (hbound : next ≤ bound) : shade bound (Function.update level a next) < shade bound level := by
  refine sum_lt_sum (fun d _ => ?_) ⟨a, mem_univ a, ?_⟩
  · by_cases hd : d = a
    · rw [hd, Function.update_self]
      omega
    · rw [Function.update_of_ne hd]
  · rw [Function.update_self]
    omega

-- A field inside a larger one: its edge is where the depth is one, and all that is deeper shines
-- alike.
structure Inset {β : Type*} (f : Radiance α) (g : Radiance β) (place : α → β) (depth : α → Nat) :
    Prop where
  source : ∀ a, f.source a = g.source (place a)
  loss : ∀ a, f.loss a = g.loss (place a)
  near : ∀ a, ∀ b ∈ f.near a, place b ∈ g.near (place a)
  back : ∀ a, 1 < depth a → ∀ c ∈ g.near (place a), ∃ b ∈ f.near a, place b = c ∧ depth a ≤ depth b + 1

namespace Inset

variable {β : Type*} {g : Radiance β} {place : α → β} {depth : α → Nat} {outer : β → Nat}

theorem carries (h : Inset f g place depth) (hf : ∀ a, f.Settled level a)
    (hg : ∀ a, g.Settled outer (place a)) (hbound : ∀ a, level a ≤ bound) :
    ∀ k v a, bound < v + k → 0 < v → v ≤ level a → v ≤ outer (place a) := by
  intro k
  induction k with
  | zero =>
    intro v a hk _ hv
    have := hbound a
    omega
  | succ k ih =>
    intro v a hk hpos hv
    have hgain := f.loss_pos a
    rw [hg a, le_value_iff hpos]
    rw [hf a, le_value_iff hpos] at hv
    rcases hv with hsource | ⟨b, hb, hlevel⟩
    · exact .inl (h.source a ▸ hsource)
    · refine .inr ⟨place b, h.near a b hb, ?_⟩
      rw [← h.loss a]
      exact ih (v + f.loss a) b (by omega) (by omega) hlevel

-- Light from beyond the edge has lost more on its way than it ever held.
theorem carries_back (h : Inset f g place depth) (hf : ∀ a, f.Settled level a)
    (hg : ∀ a, g.Settled outer (place a)) (hbound : ∀ c, outer c ≤ bound) :
    ∀ k v a, bound < v + k → 0 < v → bound < v + depth a → v ≤ outer (place a) → v ≤ level a := by
  intro k
  induction k with
  | zero =>
    intro v a hk _ _ hv
    have := hbound (place a)
    omega
  | succ k ih =>
    intro v a hk hpos hdeep hv
    have hgain := f.loss_pos a
    rw [hf a, le_value_iff hpos]
    rw [hg a, le_value_iff hpos, ← h.source a, ← h.loss a] at hv
    rcases hv with hsource | ⟨c, hc, hlevel⟩
    · exact .inl hsource
    · have hnear := hbound c
      obtain ⟨b, hb, rfl, hstep⟩ := h.back a (by omega) c hc
      exact .inr ⟨b, hb, ih (v + f.loss a) b (by omega) (by omega) (by omega) hlevel⟩

theorem agree (h : Inset f g place depth) (hf : ∀ a, f.Settled level a)
    (hg : ∀ a, g.Settled outer (place a)) (hbound : ∀ a, level a ≤ bound)
    (hbound' : ∀ c, outer c ≤ bound) (a : α) (ha : bound < depth a) : level a = outer (place a) := by
  apply le_antisymm
  · exact le_of_forall_pos fun v hv hle => h.carries hf hg hbound (bound + 1) v a (by omega) hv hle
  · exact le_of_forall_pos fun v hv hle =>
      h.carries_back hf hg hbound' (bound + 1) v a (by omega) hv (by omega) hle

end Inset

end Radiance

end Lib
