import Mathlib.Algebra.Order.Group.Int
import Mathlib.Data.Int.ModEq
import Mathlib.Data.List.Basic
import Mathlib.Logic.Function.Basic

namespace SerialNumber

def Precedes (h a b : ℤ) : Prop :=
  h ≤ (a - b) % (2 * h)

instance (h a b : ℤ) : Decidable (Precedes h a b) :=
  inferInstanceAs (Decidable (_ ≤ _))

variable {h a b p q : ℤ}

theorem sub_emod_lift {m : ℤ} (ha : a % m = p % m) (hb : b % m = q % m) :
    (a - b) % m = (p - q) % m :=
  Int.ModEq.sub ha hb

theorem emod_of_neg (hp : p < 0) (hh : -h ≤ p) : p % (2 * h) = p + 2 * h := by
  rw [← Int.add_emod_right, Int.emod_eq_of_lt (by omega) (by omega)]

theorem precedes_lift (ha : a % (2 * h) = p % (2 * h)) (hb : b % (2 * h) = q % (2 * h))
    (hlow : -h ≤ p - q) (hhigh : p - q < h) : Precedes h a b ↔ p < q := by
  rw [Precedes, sub_emod_lift ha hb]
  cases Decidable.em (p < q) with
  | inl hpq =>
    rw [emod_of_neg (by omega) hlow]
    exact iff_of_true (by omega) hpq
  | inr hpq =>
    rw [Int.emod_eq_of_lt (by omega) (by omega)]
    exact iff_of_false (by omega) hpq

end SerialNumber

namespace ReplayCounter

variable {K : Type} {last : K → ℕ} {accepted : K → List ℕ}

structure Tracks (last : K → ℕ) (accepted : K → List ℕ) : Prop where
  newest : ∀ {k p rest}, accepted k = p :: rest → last k = p
  increasing : ∀ k, (accepted k).Pairwise (· > ·)

def Fresh (accepted : K → List ℕ) (k : K) (n : ℕ) : Prop :=
  ∀ p ∈ accepted k, p < n

theorem tracks_empty (last : K → ℕ) : Tracks last fun _ => [] where
  newest h := by cases h
  increasing _ := List.Pairwise.nil

theorem fresh_iff (h : Tracks last accepted) (k : K) (n : ℕ) :
    Fresh accepted k n ↔ (accepted k ≠ [] → last k < n) := by
  have hincreasing := h.increasing k
  unfold Fresh
  cases hk : accepted k with
  | nil => simp
  | cons p rest =>
    rw [hk, List.pairwise_cons] at hincreasing
    rw [h.newest hk]
    constructor
    · exact fun hfresh _ => hfresh p (List.mem_cons_self ..)
    · intro hlt q hq
      have hpn := hlt (List.cons_ne_nil _ _)
      rcases List.mem_cons.mp hq with rfl | hq
      · exact hpn
      · exact Nat.lt_trans (hincreasing.1 q hq) hpn

theorem Tracks.push [DecidableEq K] (h : Tracks last accepted) {k : K} {n : ℕ}
    (hn : Fresh accepted k n) :
    Tracks (Function.update last k n) (Function.update accepted k (n :: accepted k)) where
  newest := by
    intro j p rest hj
    cases Decidable.em (j = k) with
    | inl hjk =>
      subst hjk
      rw [Function.update_self] at hj ⊢
      exact (List.cons.inj hj).1
    | inr hjk =>
      rw [Function.update_of_ne hjk] at hj ⊢
      exact h.newest hj
  increasing := by
    intro j
    cases Decidable.em (j = k) with
    | inl hjk =>
      subst hjk
      rw [Function.update_self, List.pairwise_cons]
      exact ⟨hn, h.increasing j⟩
    | inr hjk =>
      rw [Function.update_of_ne hjk]
      exact h.increasing j

end ReplayCounter
