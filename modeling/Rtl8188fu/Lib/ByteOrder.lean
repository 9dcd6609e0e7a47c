import Mathlib.Data.Nat.Bitwise
import Mathlib.Data.Nat.ModEq
import Mathlib.Tactic.Common

namespace ByteOrder

inductive Order where
  | little
  | big
  deriving DecidableEq, Repr

def word : Order → UInt8 → UInt8 → ℕ
  | .little, a, b => a.toNat + 256 * b.toNat
  | .big, a, b => 256 * a.toNat + b.toNat

def low (n : ℕ) : UInt8 := UInt8.ofNat n

def high (n : ℕ) : UInt8 := UInt8.ofNat (n / 256)

def unword : Order → ℕ → List UInt8
  | .little, n => [low n, high n]
  | .big, n => [high n, low n]

def swap (n : ℕ) : ℕ := 256 * (n % 256) + n / 256 % 256

def htons : Order → ℕ → ℕ
  | .little, n => swap n
  | .big, n => n % 65536

variable {e : Order} {a b : UInt8} {n : ℕ}

theorem word_lt (e : Order) (a b : UInt8) : word e a b < 65536 := by
  have ha := a.toNat_lt
  have hb := b.toNat_lt
  cases e with
  | little =>
    simp only [word]
    omega
  | big =>
    simp only [word]
    omega

@[simp] theorem toNat_low (n : ℕ) : (low n).toNat = n % 256 := UInt8.toNat_ofNat'

@[simp] theorem toNat_high (n : ℕ) : (high n).toNat = n / 256 % 256 := UInt8.toNat_ofNat'

@[simp] theorem length_unword (e : Order) (n : ℕ) : (unword e n).length = 2 := by
  cases e with
  | little => rfl
  | big => rfl

theorem low_word_big (a b : UInt8) : low (word .big a b) = b := by
  refine UInt8.toNat_inj.mp ?_
  have hb := b.toNat_lt
  simp only [toNat_low, word]
  omega

theorem high_word_big (a b : UInt8) : high (word .big a b) = a := by
  refine UInt8.toNat_inj.mp ?_
  have ha := a.toNat_lt
  have hb := b.toNat_lt
  simp only [toNat_high, word]
  omega

theorem unword_word (e : Order) (a b : UInt8) : unword e (word e a b) = [a, b] := by
  have ha := a.toNat_lt
  have hb := b.toNat_lt
  cases e with
  | big => rw [unword, high_word_big, low_word_big]
  | little =>
    have hlow : low (word .little a b) = a := by
      refine UInt8.toNat_inj.mp ?_
      simp only [toNat_low, word]
      omega
    have hhigh : high (word .little a b) = b := by
      refine UInt8.toNat_inj.mp ?_
      simp only [toNat_high, word]
      omega
    rw [unword, hlow, hhigh]

theorem exists_word (e : Order) (h : n < 65536) : ∃ a b, word e a b = n := by
  cases e with
  | big =>
    refine ⟨high n, low n, ?_⟩
    simp only [word, toNat_high, toNat_low]
    omega
  | little =>
    refine ⟨low n, high n, ?_⟩
    simp only [word, toNat_high, toNat_low]
    omega

theorem word_eq_zero : word e a b = 0 ↔ a.toNat = 0 ∧ b.toNat = 0 := by
  cases e with
  | big =>
    simp only [word]
    omega
  | little =>
    simp only [word]
    omega

theorem and_two_pow_zero (n i : ℕ) : n &&& 2 ^ i = 0 ↔ n / 2 ^ i % 2 = 0 := by
  rw [Nat.and_two_pow, Nat.testBit_eq_decide_div_mod_eq]
  cases Nat.mod_two_eq_zero_or_one (n / 2 ^ i) with
  | inl h => simp [h]
  | inr h => simp [h]

theorem or_two_pow {i : ℕ} (h : n &&& 2 ^ i = 0) : n ||| 2 ^ i = n + 2 ^ i := by
  have hn : n < 2 ^ (n + i + 1) := Nat.lt_of_lt_of_le Nat.lt_two_pow_self
    (Nat.pow_le_pow_right (by decide) (by omega))
  have hi : 2 ^ i < 2 ^ (n + i + 1) := Nat.pow_lt_pow_right (by decide) (by omega)
  have hdouble : 2 ^ (n + i + 2) = 2 ^ (n + i + 1) + 2 ^ (n + i + 1) := by
    rw [Nat.pow_succ, Nat.mul_two]
  have hword (k : ℕ) (hk : k < 2 ^ (n + i + 1)) : (BitVec.ofNat (n + i + 2) k).toNat = k := by
    rw [BitVec.toNat_ofNat, Nat.mod_eq_of_lt (by omega)]
  have hdisjoint : BitVec.ofNat (n + i + 2) n &&& BitVec.ofNat (n + i + 2) (2 ^ i) = 0#_ := by
    refine BitVec.eq_of_toNat_eq ?_
    rw [BitVec.toNat_and, hword n hn, hword _ hi, h, BitVec.toNat_ofNat, Nat.zero_mod]
  have hsum := congrArg BitVec.toNat (BitVec.add_eq_or_of_and_eq_zero _ _ hdisjoint)
  rw [BitVec.toNat_add, BitVec.toNat_or, hword n hn, hword _ hi, Nat.mod_eq_of_lt (by omega)] at hsum
  exact hsum.symm

theorem word_little (a b : UInt8) : word .little a b = swap (word .big a b) := by
  have ha := a.toNat_lt
  have hb := b.toNat_lt
  simp only [word, swap]
  omega

theorem word_little_modEq (a b : UInt8) : word .little a b ≡ 256 * word .big a b [MOD 65535] := by
  simp only [word]
  have hsplit : 256 * (256 * a.toNat + b.toNat) = a.toNat + 256 * b.toNat + 65535 * a.toNat := by
    omega
  rw [hsplit, Nat.ModEq, Nat.add_mul_mod_self_left]

def scale : Order → ℕ
  | .little => 256
  | .big => 1

theorem scale_coprime (e : Order) : Nat.gcd 65535 (scale e) = 1 := by
  cases e with
  | little => decide
  | big => decide

theorem word_modEq (e : Order) (a b : UInt8) : word e a b ≡ scale e * word .big a b [MOD 65535] := by
  cases e with
  | little => exact word_little_modEq a b
  | big => rw [scale, Nat.one_mul]

theorem scale_cancel {x y : ℕ} (h : scale e * x ≡ scale e * y [MOD 65535]) : x ≡ y [MOD 65535] :=
  Nat.ModEq.cancel_left_of_coprime (scale_coprime e) h

end ByteOrder
