import Mathlib.Data.List.Basic
import Mathlib.Tactic.Common

namespace Bitmap

variable {w : ℕ}

def isSet (m : BitVec w) (i : ℕ) : Bool := m.getLsbD i

def insert (m : BitVec w) (i : ℕ) : BitVec w := m ||| BitVec.twoPow w i

def erase (m : BitVec w) (i : ℕ) : BitVec w := m &&& ~~~BitVec.twoPow w i

@[simp] theorem isSet_empty (i : ℕ) : isSet 0#w i = false := by
  simp [isSet]

theorem isSet_insert (m : BitVec w) {i : ℕ} (hi : i < w) (j : ℕ) :
    isSet (insert m i) j = true ↔ isSet m j = true ∨ j = i := by
  simp only [isSet, insert, BitVec.getLsbD_or, BitVec.getLsbD_twoPow, Bool.or_eq_true,
    Bool.and_eq_true, decide_eq_true_eq, hi, true_and]
  exact or_congr_right eq_comm

theorem isSet_erase (m : BitVec w) (i j : ℕ) :
    isSet (erase m i) j = true ↔ isSet m j = true ∧ j ≠ i := by
  simp only [isSet, erase, BitVec.getLsbD_and, BitVec.getLsbD_not, BitVec.getLsbD_twoPow,
    Bool.and_eq_true, decide_eq_true_eq, Bool.not_eq_true']
  constructor
  · rintro ⟨hj, hlt, hne⟩
    refine ⟨hj, ?_⟩
    rintro rfl
    simp [hlt] at hne
  · rintro ⟨hj, hne⟩
    refine ⟨hj, BitVec.lt_of_getLsbD hj, ?_⟩
    simp [Ne.symm hne]

end Bitmap
