import Mathlib.Tactic.Common
import Rtl8188fu.Lib.ByteMemory

namespace AlignedRecords

open ByteMemory

variable {B : Type} {k a : ℕ} {m : Mem B} {r : List B} {rs : List (List B)} {bs : List B}

def padLen (k n : ℕ) : ℕ := (k - n % k) % k

inductive Encodes (k : ℕ) : List (List B) → List B → Prop
  | nil : Encodes k [] []
  | last (r : List B) : Encodes k [r] r
  | cons (r pad : List B) {rs : List (List B)} {bs : List B} :
    pad.length = padLen k r.length → rs ≠ [] → Encodes k rs bs → Encodes k (r :: rs) (r ++ pad ++ bs)

theorem padLen_eq (hk : 0 < k) (n : ℕ) :
    padLen k n = if k - n % k = k then 0 else k - n % k := by
  have hlt := Nat.mod_lt n hk
  rw [padLen]
  split
  · rename_i h
    rw [h, Nat.mod_self]
  · exact Nat.mod_eq_of_lt (by omega)

theorem Encodes.length_le (h : Encodes k (r :: rs) bs) : r.length ≤ bs.length := by
  cases h with
  | last => exact Nat.le_refl _
  | cons _ pad hpad hne htail =>
    rw [List.append_assoc, List.length_append]
    exact Nat.le_add_right _ _

theorem Encodes.head_holds (h : Encodes k (r :: rs) bs) (hm : Holds m a bs) : Holds m a r := by
  cases h with
  | last => exact hm
  | cons _ pad hpad hne htail => exact hm.left.left

theorem Encodes.tail_holds (h : Encodes k (r :: rs) bs) (hne : rs ≠ []) (hm : Holds m a bs) :
    ∃ tail, Encodes k rs tail ∧ bs.length = r.length + padLen k r.length + tail.length ∧
      Holds m (a + r.length + padLen k r.length) tail := by
  cases h with
  | last => exact absurd rfl hne
  | cons _ pad hpad _ htail =>
    refine ⟨_, htail, by rw [List.length_append, List.length_append, hpad], ?_⟩
    have hright := hm.right
    rwa [List.length_append, hpad, ← Nat.add_assoc] at hright

theorem Encodes.only (h : Encodes k [r] bs) : bs = r := by
  cases h with
  | last => rfl
  | cons _ pad hpad hne htail => exact absurd rfl hne

theorem Encodes.length_gt {n : ℕ} (h : Encodes k rs bs) (hlong : ∀ r ∈ rs, n < r.length)
    (hne : rs ≠ []) : n < bs.length := by
  cases rs with
  | nil => exact absurd rfl hne
  | cons r rs => exact Nat.lt_of_lt_of_le (hlong r List.mem_cons_self) h.length_le

end AlignedRecords
