import Mathlib.Data.Set.Function
import Rtl8188fu.Lib.ByteMemory

namespace ByteMemory

variable {B : Type} {m m' m'' : Mem B} {S T : Set ℕ} {i : ℕ}

def Changes (S : Set ℕ) (m m' : Mem B) : Prop := Set.EqOn m' m Sᶜ

def span (a n : ℕ) : Set ℕ := {i | a ≤ i ∧ i < a + n}

theorem Changes.refl (S : Set ℕ) (m : Mem B) : Changes S m m := Set.eqOn_refl m _

theorem Changes.trans (h : Changes S m m') (h' : Changes S m' m'') : Changes S m m'' :=
  Set.EqOn.trans h' h

theorem Changes.mono (h : Changes S m m') (hsub : S ⊆ T) : Changes T m m' :=
  Set.EqOn.mono (Set.compl_subset_compl.mpr hsub) h

theorem Changes.union (h : Changes S m m') (h' : Changes T m' m'') : Changes (S ∪ T) m m'' :=
  (h.mono Set.subset_union_left).trans (h'.mono Set.subset_union_right)

theorem Changes.eq (h : Changes S m m') (hi : i ∉ S) : m' i = m i := h hi

theorem changes_write (m : Mem B) (a : ℕ) (bs : List B) :
    Changes (span a bs.length) m (write m a bs) := by
  intro i hi
  cases Decidable.em (i < a) with
  | inl hlt => exact write_below m bs hlt
  | inr hlt => exact write_above m (Nat.le_of_not_lt fun h => hi ⟨Nat.le_of_not_lt hlt, h⟩)

structure Spliced (m m' : Mem B) (base limit cut removed inserted : ℕ) (S : Set ℕ) : Prop where
  kept : ∀ j, j + removed < limit → base + inserted + j ∉ S →
    m' (base + inserted + j) = m (base + if j < cut then j else j + removed)

end ByteMemory
