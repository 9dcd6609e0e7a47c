import Rtl8188fu.Lib.ByteMemory
import Rtl8188fu.Lib.ByteOrder

namespace OnesComplement

open ByteMemory ByteOrder

def fold (n : ℕ) : ℕ := if n < 65536 then n else fold (n % 65536 + n / 65536)
termination_by n
decreasing_by omega

def words (e : Order) : List UInt8 → ℕ
  | [] => 0
  | [a] => word e a 0
  | a :: b :: bs => word e a b + words e bs

variable {e : Order} {n k : ℕ} {bs cs : List UInt8} {a b : UInt8}

theorem fold_small (h : n < 65536) : fold n = n := by
  rw [fold, if_pos h]

theorem fold_carry (h : ¬ n < 65536) : fold n = fold (n % 65536 + n / 65536) := by
  rw [fold, if_neg h]

theorem carry_modEq (n : ℕ) : n % 65536 + n / 65536 ≡ n [MOD 65535] := by
  have hsplit : n = n % 65536 + n / 65536 + 65535 * (n / 65536) := by omega
  have hmod : (n % 65536 + n / 65536 + 65535 * (n / 65536)) % 65535 =
      (n % 65536 + n / 65536) % 65535 := Nat.add_mul_mod_self_left ..
  rw [← hsplit] at hmod
  exact hmod.symm

theorem fold_modEq (n : ℕ) : fold n ≡ n [MOD 65535] := by
  induction n using Nat.strongRecOn with
  | _ n ih =>
    cases Decidable.em (n < 65536) with
    | inl h => rw [fold_small h]
    | inr h =>
      rw [fold_carry h]
      exact (ih _ (by omega)).trans (carry_modEq n)

theorem fold_lt (n : ℕ) : fold n < 65536 := by
  induction n using Nat.strongRecOn with
  | _ n ih =>
    cases Decidable.em (n < 65536) with
    | inl h => rwa [fold_small h]
    | inr h =>
      rw [fold_carry h]
      exact ih _ (by omega)

theorem fold_pos (h : 0 < n) : 0 < fold n := by
  induction n using Nat.strongRecOn with
  | _ n ih =>
    cases Decidable.em (n < 65536) with
    | inl hlt => rwa [fold_small hlt]
    | inr hlt =>
      rw [fold_carry hlt]
      exact ih _ (by omega) (by omega)

theorem fold_full_iff (h : 0 < n) : fold n = 65535 ↔ n ≡ 0 [MOD 65535] := by
  have hlt := fold_lt n
  have hpos := fold_pos h
  have hmod := fold_modEq n
  constructor
  · intro hfull
    rw [hfull] at hmod
    exact hmod.symm
  · intro hzero
    have hdvd : 65535 ∣ fold n := (Nat.modEq_zero_iff_dvd).mp (hmod.trans hzero)
    have hle := Nat.le_of_dvd hpos hdvd
    omega

theorem complement_modEq {c f : ℕ} (hc : c < 65536) :
    65535 - fold (65535 - c + f) + f ≡ c [MOD 65535] := by
  have hlt := fold_lt (65535 - c + f)
  have hfold : c + fold (65535 - c + f) ≡ c + (65535 - c + f) [MOD 65535] :=
    (fold_modEq _).add_left c
  have hright : c + (65535 - c + f) = 65535 - fold (65535 - c + f) + f + fold (65535 - c + f) := by
    omega
  rw [hright] at hfold
  exact (Nat.ModEq.add_right_cancel' _ hfold).symm

theorem complement_zero {c f : ℕ} (hc : c < 65536) (hf : 0 < f) :
    65535 - fold (65535 - c + f) = 0 ↔ c ≡ f [MOD 65535] := by
  have hlt := fold_lt (65535 - c + f)
  have hpos : 0 < 65535 - c + f := by omega
  have hfull := fold_full_iff hpos
  have hzero : 65535 - c + f ≡ 0 [MOD 65535] ↔ c ≡ f [MOD 65535] := by
    have hshift : c + (65535 - c + f) = f + 65535 := by omega
    have hturn : f + 65535 ≡ f [MOD 65535] := Nat.add_mod_right f 65535
    rw [← hshift] at hturn
    constructor
    · intro h
      exact (h.add_left c).symm.trans hturn
    · intro h
      exact Nat.ModEq.add_left_cancel' c (hturn.trans h.symm)
  rw [← hzero, ← hfull]
  omega

@[simp] theorem words_nil (e : Order) : words e [] = 0 := rfl

@[simp] theorem words_pair (e : Order) (a b : UInt8) (bs : List UInt8) :
    words e (a :: b :: bs) = word e a b + words e bs := rfl

theorem words_append (h : bs.length % 2 = 0) : words e (bs ++ cs) = words e bs + words e cs := by
  induction hn : bs.length using Nat.strongRecOn generalizing bs with
  | _ n ih =>
    rcases bs with _ | ⟨a, _ | ⟨b, bs⟩⟩
    · rw [List.nil_append, words_nil, Nat.zero_add]
    · simp at h
    · simp only [List.length_cons] at h hn
      simp only [List.cons_append, words_pair]
      rw [ih bs.length (by omega) (by omega) rfl, Nat.add_assoc]

theorem words_read_add (e : Order) (m : Mem UInt8) (a : ℕ) {k : ℕ} (hk : k % 2 = 0) (n : ℕ) :
    words e (read m a (k + n)) = words e (read m a k) + words e (read m (a + k) n) := by
  rw [read_add]
  exact words_append (by rw [length_read, hk])

theorem words_zero (e : Order) (n : ℕ) : words e (List.replicate n 0) = 0 := by
  induction n using Nat.strongRecOn with
  | _ n ih =>
    rcases n with _ | _ | n
    · rfl
    · cases e with
      | little => rfl
      | big => rfl
    · have hword : word e 0 0 = 0 := word_eq_zero.mpr ⟨rfl, rfl⟩
      rw [List.replicate_succ, List.replicate_succ, words_pair, hword, ih n (by omega)]

theorem words_modEq (e : Order) (bs : List UInt8) :
    words e bs ≡ scale e * words .big bs [MOD 65535] := by
  induction hn : bs.length using Nat.strongRecOn generalizing bs with
  | _ n ih =>
    rcases bs with _ | ⟨a, _ | ⟨b, bs⟩⟩
    · exact Nat.ModEq.rfl
    · exact word_modEq e a 0
    · simp only [List.length_cons] at hn
      simp only [words_pair, Nat.mul_add]
      exact (word_modEq e a b).add (ih bs.length (by omega) bs rfl)

end OnesComplement
