import Mathlib

namespace Cobblestone.World

abbrev chunkEdge : Nat := 16
abbrev worldHeight : Nat := 128
abbrev chunkColumnCount : Nat := chunkEdge * chunkEdge
abbrev chunkBlockCount : Nat := chunkColumnCount * worldHeight
abbrev chunkNibbleBytes : Nat := chunkBlockCount / 2
abbrev maxLegacyStateId : UInt16 := 0x0fff
abbrev biomeColorMask : UInt32 := 0x00ffffff

def within (lo hi : Nat) (id : UInt8) : Bool := decide (lo ≤ id.toNat) && decide (id.toNat ≤ hi)

def biomeIdIsSupported (id : UInt8) : Bool :=
  within 0 8 id || within 10 39 id || within 129 134 id || within 140 140 id ||
    within 149 149 id || within 151 151 id || within 155 158 id || within 160 167 id

def defaultColor (id : UInt8) : Option UInt32 :=
  match id.toNat with
  | 0 => some 0x8eb871
  | 1 => some 0x92bc59
  | 2 => some 0xbfb655
  | 3 => some 0x8ab589
  | 4 => some 0x7ac05b
  | 5 => some 0x87b684
  | 6 => some 0x6a7039
  | 7 => some 0x8eb871
  | 8 => some 0x000000
  | 10 => some 0x80b497
  | 11 => some 0x80b497
  | 12 => some 0x80b497
  | 13 => some 0x80b497
  | 14 => some 0x56cb40
  | 15 => some 0x56cb40
  | 16 => some 0x92bc59
  | 17 => some 0xbfb655
  | 18 => some 0x7ac05b
  | 19 => some 0x87b684
  | 20 => some 0x8ab589
  | 21 => some 0x59cb3c
  | 22 => some 0x59cb3c
  | 23 => some 0x64c940
  | 24 => some 0x8eb871
  | 25 => some 0x8ab589
  | 26 => some 0x83b493
  | 27 => some 0x89bb67
  | 28 => some 0x89bb67
  | 29 => some 0x517a32
  | 30 => some 0x80b497
  | 31 => some 0x80b497
  | 32 => some 0x87b780
  | 33 => some 0x87b780
  | 34 => some 0x8ab589
  | 35 => some 0xbfb655
  | 36 => some 0xbfb655
  | 37 => some 0x90814d
  | 38 => some 0x90814d
  | 39 => some 0x90814d
  | 129 => some 0x92bc59
  | 130 => some 0xbfb655
  | 131 => some 0x8ab589
  | 132 => some 0x7ac05b
  | 133 => some 0x87b684
  | 134 => some 0x6a7039
  | 140 => some 0x80b497
  | 149 => some 0x59cb3c
  | 151 => some 0x64c940
  | 155 => some 0x7ac05b
  | 156 => some 0x7ac05b
  | 157 => some 0x517a32
  | 158 => some 0x80b497
  | 160 => some 0x87b684
  | 161 => some 0x87b780
  | 162 => some 0x8ab589
  | 163 => some 0x83c344
  | 164 => some 0x83c344
  | 165 => some 0x90814d
  | 166 => some 0x90814d
  | 167 => some 0x90814d
  | _ => none

def defaultBiomeWord (id : UInt8) : Option UInt32 :=
  (defaultColor id).map fun color => (id.toUInt32 <<< 24) ||| color

def biomeId (word : UInt32) : UInt8 := (word >>> 24).toUInt8

def biomeColor (word : UInt32) : UInt32 := word &&& biomeColorMask

def withBiomeId (word : UInt32) (id : UInt8) : UInt32 := (id.toUInt32 <<< 24) ||| biomeColor word

def withBiomeColor (word color : UInt32) : UInt32 :=
  (word &&& 0xff000000) ||| (color &&& biomeColorMask)

def worldBlockIdIsSupported (id : UInt8) : Bool :=
  within 0 35 id || within 37 83 id || within 85 121 id || within 123 129 id ||
    within 131 136 id || within 139 159 id || within 161 165 id || within 167 167 id ||
    within 170 175 id || within 178 187 id || within 193 199 id || within 243 250 id || within 255 255 id

def worldBlockStateIdIsSupported (state : UInt16) : Bool :=
  decide (state ≤ maxLegacyStateId) && worldBlockIdIsSupported (state >>> 4).toUInt8

private theorem byte_of_shifted (id : UInt8) (low : UInt32) (h : low.toNat < 2 ^ 24) :
    (((id.toUInt32 <<< 24) ||| low) >>> 24).toUInt8 = id := by
  apply UInt8.toNat_inj.mp
  have hid := id.toNat_lt
  have hl : low.toNat >>> 24 = 0 := by
    rw [Nat.shiftRight_eq_div_pow]
    exact Nat.div_eq_of_lt h
  have hs : id.toNat <<< 24 % 2 ^ 32 = id.toNat <<< 24 :=
    Nat.mod_eq_of_lt (by rw [Nat.shiftLeft_eq]; omega)
  simp only [UInt32.toNat_toUInt8, UInt32.toNat_shiftRight, UInt32.toNat_or,
    UInt32.toNat_shiftLeft, UInt8.toNat_toUInt32, Nat.shiftRight_or_distrib, UInt32.reduceToNat,
    Nat.reduceMod, hl, Nat.or_zero, hs, Nat.shiftLeft_shiftRight]
  omega

private def colorChecked (n : Fin 256) : Bool :=
  match defaultColor (UInt8.ofNat n) with
  | none => true
  | some color => biomeIdIsSupported (UInt8.ofNat n) && decide (color.toNat < 2 ^ 24)

private theorem every_color_checked : ∀ n : Fin 256, colorChecked n = true := by
  decide +kernel

theorem defaultBiomeWord_supported {id : UInt8} {word : UInt32}
    (h : defaultBiomeWord id = some word) : biomeIdIsSupported (biomeId word) = true := by
  obtain ⟨color, hc, rfl⟩ := Option.map_eq_some_iff.mp h
  have hn := every_color_checked ⟨id.toNat, id.toNat_lt⟩
  simp only [colorChecked, UInt8.ofNat_toNat, hc, Bool.and_eq_true, decide_eq_true_eq] at hn
  rw [biomeId, byte_of_shifted id color hn.2]
  exact hn.1

theorem biomeColor_lt (word : UInt32) : (biomeColor word).toNat < 2 ^ 24 := by
  have h : word.toNat &&& 0x00ffffff ≤ 0x00ffffff := Nat.and_le_right
  simp only [biomeColor, biomeColorMask, UInt32.toNat_and, UInt32.reduceToNat]
  omega

theorem biomeId_withBiomeId (word : UInt32) (id : UInt8) : biomeId (withBiomeId word id) = id :=
  byte_of_shifted id _ (biomeColor_lt word)

theorem biomeId_withBiomeColor (word color : UInt32) :
    biomeId (withBiomeColor word color) = biomeId word := by
  apply UInt8.toNat_inj.mp
  have hw : word.toNat >>> 24 < 256 := by
    have := word.toNat_lt
    rw [Nat.shiftRight_eq_div_pow]
    omega
  have hm : (word.toNat >>> 24) &&& 255 = word.toNat >>> 24 := by
    rw [show (255 : Nat) = 2 ^ 8 - 1 from rfl, Nat.and_two_pow_sub_one_eq_mod]
    exact Nat.mod_eq_of_lt hw
  simp only [biomeId, withBiomeColor, biomeColorMask, UInt32.toNat_toUInt8,
    UInt32.toNat_shiftRight, UInt32.toNat_or, UInt32.toNat_and, UInt32.reduceToNat, Nat.reduceMod,
    Nat.shiftRight_or_distrib, Nat.shiftRight_and_distrib, Nat.or_zero, Nat.and_zero,
    Nat.reduceShiftRight, hm]

end Cobblestone.World
