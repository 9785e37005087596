import Cobblestone.Structure.Random

namespace Cobblestone.Structure

namespace MtRandom

def drawFrom (random : MtRandom) : Nat → UInt32 × MtRandom
  | 0 => random.nextU32
  | n + 1 => (drawFrom random n).2.nextU32

end MtRandom

-- The generator as it is defined: a block of 624 words, twisted as a whole before it is read.
namespace Mt19937

open MtRandom

def initWord (seed : UInt32) : Nat → UInt32
  | 0 => seed
  | i + 1 => seedStep (initWord seed i) (i + 1)

def init (seed : UInt32) : List UInt32 := (List.range mtN).map (initWord seed)

def twistWord (block : List UInt32) (kk : Nat) : List UInt32 :=
  block.set kk (twist (block.getD kk 0) (block.getD ((kk + 1) % mtN) 0) (block.getD ((kk + mtM) % mtN) 0))

def twistUpTo (block : List UInt32) (n : Nat) : List UInt32 := (List.range n).foldl twistWord block

def nextBlock (block : List UInt32) : List UInt32 := twistUpTo block mtN

def block (seed : UInt32) : Nat → List UInt32
  | 0 => init seed
  | k + 1 => nextBlock (block seed k)

def word (seed : UInt32) (n : Nat) : UInt32 := (block seed (n / mtN)).getD (n % mtN) 0

def output (seed : UInt32) (n : Nat) : UInt32 := temper (word seed (n + mtN))

variable {seed : UInt32} {b : List UInt32} {i j n : Nat}

@[simp] theorem length_twistWord : (twistWord b i).length = b.length := List.length_set

theorem twistUpTo_zero : twistUpTo b 0 = b := rfl

theorem twistUpTo_succ : twistUpTo b (n + 1) = twistWord (twistUpTo b n) n := by
  rw [twistUpTo, List.range_succ, List.foldl_append]
  rfl

@[simp] theorem length_twistUpTo : (twistUpTo b n).length = b.length := by
  induction n with
  | zero => rfl
  | succ n ih => rw [twistUpTo_succ, length_twistWord, ih]

theorem getD_twistWord_of_ne (h : i ≠ j) : (twistWord b i).getD j 0 = b.getD j 0 := by
  simp only [twistWord, List.getD_eq_getElem?_getD, List.getElem?_set_ne h]

theorem getD_twistWord_self (h : i < b.length) : (twistWord b i).getD i 0 =
    twist (b.getD i 0) (b.getD ((i + 1) % mtN) 0) (b.getD ((i + mtM) % mtN) 0) := by
  rw [twistWord, List.getD_eq_getElem?_getD, List.getElem?_set_self h, Option.getD_some]

-- A word that the loop has not come to yet is the old one, and it keeps what the loop gave it.
theorem getD_twistUpTo_of_le (h : n ≤ i) : (twistUpTo b n).getD i 0 = b.getD i 0 := by
  induction n with
  | zero => rfl
  | succ n ih => rw [twistUpTo_succ, getD_twistWord_of_ne (by omega), ih (by omega)]

theorem getD_twistUpTo_of_lt (h : i < n) :
    (twistUpTo b n).getD i 0 = (twistUpTo b (i + 1)).getD i 0 := by
  induction n, h using Nat.le_induction with
  | base => rfl
  | succ n hn ih => rw [twistUpTo_succ, getD_twistWord_of_ne (by omega), ih]

theorem length_block (k : Nat) : (block seed k).length = mtN := by
  induction k with
  | zero => rw [block, init, List.length_map, List.length_range]
  | succ k ih => rw [block, nextBlock, length_twistUpTo, ih]

theorem word_block (k : Nat) (hi : i < mtN) : word seed (mtN * k + i) = (block seed k).getD i 0 := by
  have hpos : 0 < mtN := by decide
  rw [word, Nat.mul_add_div hpos, Nat.div_eq_of_lt hi, Nat.add_zero, Nat.mul_add_mod,
    Nat.mod_eq_of_lt hi]

-- What the loop reads `d` words further on, when it stands at word `i` of a block.
theorem getD_ahead (k : Nat) {d : Nat} (hi : i < mtN) (hd : 0 < d) (hd' : d < mtN) :
    (twistUpTo (block seed k) i).getD ((i + d) % mtN) 0 = word seed (mtN * k + i + d) := by
  rcases Nat.lt_or_ge (i + d) mtN with hahead | hwrap
  · rw [Nat.mod_eq_of_lt hahead, getD_twistUpTo_of_le (by omega), Nat.add_assoc, word_block k hahead]
  · have hmod : (i + d) % mtN = i + d - mtN := by
      rw [Nat.mod_eq_sub_mod hwrap, Nat.mod_eq_of_lt (by omega)]
    have hnext : mtN * k + i + d = mtN * (k + 1) + (i + d - mtN) := by
      rw [Nat.mul_add]
      omega
    rw [hmod, hnext, word_block _ (by omega), block, nextBlock,
      getD_twistUpTo_of_lt (show i + d - mtN < mtN by omega),
      getD_twistUpTo_of_lt (show i + d - mtN < i by omega)]

-- Word by word the twist of the whole block is one linear recurrence.
theorem word_recurrence (seed : UInt32) (n : Nat) :
    word seed (n + mtN) = twist (word seed n) (word seed (n + 1)) (word seed (n + mtM)) := by
  have hi : n % mtN < mtN := Nat.mod_lt _ (by decide)
  have hn : n = mtN * (n / mtN) + n % mtN := (Nat.div_add_mod n mtN).symm
  have hnext : mtN * (n / mtN) + n % mtN + mtN = mtN * (n / mtN + 1) + n % mtN := by
    rw [Nat.mul_add, Nat.mul_one, Nat.add_right_comm]
  rw [hn, hnext, word_block _ hi, block, nextBlock, getD_twistUpTo_of_lt hi, twistUpTo_succ,
    getD_twistWord_self (by rw [length_twistUpTo, length_block]; exact hi),
    getD_twistUpTo_of_le le_rfl, getD_ahead _ hi (by decide) (by decide),
    getD_ahead _ hi (by decide) (by decide), word_block _ hi]

end Mt19937

namespace MtRandom

open Mt19937

variable {seed : UInt32} {random : MtRandom} {n : Nat}

theorem scanl_seedStep (seed : UInt32) (n k : Nat) :
    (List.range' (n + 1) k).scanl seedStep (initWord seed n) =
      (List.range (k + 1)).map fun i => initWord seed (n + i) := by
  induction k generalizing n with
  | zero => rfl
  | succ k ih =>
    rw [List.range'_succ, List.scanl_cons, List.range_succ_eq_map, List.map_cons, List.map_map]
    have hstep : seedStep (initWord seed n) (n + 1) = initWord seed (n + 1) := rfl
    rw [hstep, ih]
    refine congrArg₂ List.cons rfl (List.map_congr_left fun i _ => ?_)
    exact congrArg (initWord seed) (by omega)

theorem new_state (seed : UInt32) : (new seed).state = init seed := by
  have h := scanl_seedStep seed 0 (mtN - 1)
  have hzero (i : Nat) : initWord seed (0 + i) = initWord seed i := by rw [Nat.zero_add]
  simp only [hzero] at h
  exact h

-- After `n` draws the block at hand is twisted up to the word that the next draw takes.
structure After (seed : UInt32) (n : Nat) (random : MtRandom) : Prop where
  state : random.state = twistUpTo (block seed (n / mtN)) (n % mtN)
  index : random.index = if n % mtN = 0 then mtN else n % mtN

theorem after_new (seed : UInt32) : After seed 0 (new seed) where
  state := by
    rw [Nat.zero_div, Nat.zero_mod, twistUpTo_zero]
    exact new_state seed
  index := by
    rw [Nat.zero_mod, if_pos rfl, new]

-- The three branches of the draw read the same two neighbours, with and without wrapping around.
theorem nextU32_twist (hindex : random.index = if i = 0 then mtN else i) (hi : i < mtN) :
    random.nextU32 =
      (temper (twist (random.state.getD i 0) (random.state.getD ((i + 1) % mtN) 0)
        (random.state.getD ((i + mtM) % mtN) 0)), ⟨twistWord random.state i, i + 1⟩) := by
  have hreset : (if random.index > mtN then { new 5489 with index := 0 }
      else if random.index = mtN then { random with index := 0 } else random) =
      ⟨random.state, i⟩ := by
    rw [if_neg (by rw [hindex]; split_ifs <;> omega)]
    by_cases hzero : i = 0
    · rw [if_pos hzero] at hindex
      rw [if_pos hindex, hzero]
    · rw [if_neg hzero] at hindex
      rw [if_neg (by omega), ← hindex]
  have hbranches : (if i < mtN - mtM then
        twist (random.state.getD i 0) (random.state.getD (i + 1) 0) (random.state.getD (i + mtM) 0)
      else if i < mtN - 1 then
        twist (random.state.getD i 0) (random.state.getD (i + 1) 0)
          (random.state.getD (i + mtM - mtN) 0)
      else twist (random.state.getD (mtN - 1) 0) (random.state.getD 0 0)
        (random.state.getD (mtM - 1) 0)) =
      twist (random.state.getD i 0) (random.state.getD ((i + 1) % mtN) 0)
        (random.state.getD ((i + mtM) % mtN) 0) := by
    have hN : mtN = 624 := rfl
    have hM : mtM = 397 := rfl
    by_cases hfirst : i < mtN - mtM
    · rw [if_pos hfirst, Nat.mod_eq_of_lt (show i + 1 < mtN by omega),
        Nat.mod_eq_of_lt (show i + mtM < mtN by omega)]
    · rw [if_neg hfirst]
      have hfar : (i + mtM) % mtN = i + mtM - mtN := by
        rw [Nat.mod_eq_sub_mod (by omega), Nat.mod_eq_of_lt (by omega)]
      by_cases hsecond : i < mtN - 1
      · rw [if_pos hsecond, Nat.mod_eq_of_lt (show i + 1 < mtN by omega), hfar]
      · obtain rfl : i = mtN - 1 := by omega
        rw [if_neg hsecond]
        rfl
  simp only [nextU32, hreset, hbranches]
  rfl

theorem After.next (h : After seed n random) :
    random.nextU32.1 = output seed n ∧ After seed (n + 1) random.nextU32.2 := by
  have hpos : 0 < mtN := by decide
  have hi : n % mtN < mtN := Nat.mod_lt _ hpos
  have hn : mtN * (n / mtN) + n % mtN = n := Nat.div_add_mod n mtN
  rw [nextU32_twist h.index hi, h.state, getD_twistUpTo_of_le le_rfl,
    getD_ahead _ hi (by decide) (by decide), getD_ahead _ hi (by decide) (by decide), hn,
    ← word_block _ hi, hn, ← word_recurrence]
  refine ⟨rfl, ?_⟩
  rw [← twistUpTo_succ]
  rcases Nat.lt_or_ge (n % mtN + 1) mtN with hmore | hfull
  · have hmod : (n + 1) % mtN = n % mtN + 1 := by
      rw [Nat.add_mod, Nat.mod_eq_of_lt (show 1 < mtN by decide), Nat.mod_eq_of_lt hmore]
    have hdiv : (n + 1) / mtN = n / mtN := by
      rw [← hn, Nat.add_assoc, Nat.mul_add_div hpos, Nat.div_eq_of_lt hmore, Nat.mul_add_div hpos,
        Nat.div_eq_of_lt hi]
    refine ⟨?_, ?_⟩
    · rw [hmod, hdiv]
    · rw [hmod, if_neg (Nat.succ_ne_zero _)]
  · have hlast : n % mtN + 1 = mtN := by omega
    have hnext : n + 1 = mtN * (n / mtN + 1) := by
      rw [Nat.mul_add]
      omega
    refine ⟨?_, ?_⟩
    · rw [hnext, Nat.mul_mod_right, Nat.mul_div_cancel_left _ hpos, hlast, twistUpTo_zero, block,
        nextBlock]
    · rw [hnext, Nat.mul_mod_right, if_pos rfl]
      exact hlast

theorem drawFrom_after (seed : UInt32) (n : Nat) :
    ((new seed).drawFrom n).1 = output seed n ∧ After seed (n + 1) ((new seed).drawFrom n).2 := by
  induction n with
  | zero => exact (after_new seed).next
  | succ n ih => exact ih.2.next

end MtRandom

end Cobblestone.Structure
