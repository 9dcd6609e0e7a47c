import Mathlib.Data.Finset.Card
import Mathlib.Logic.Function.Basic

namespace Census

variable {I K : Type} [DecidableEq K]

def members (s : Finset I) (cls : I → Option K) (k : K) : Finset I :=
  s.filter fun i => cls i = some k

def census (s : Finset I) (cls : I → Option K) (k : K) : ℕ := (members s cls k).card

variable {s : Finset I} {cls : I → Option K} {i : I} {b : Option K} {k : K}

theorem mem_members {j : I} : j ∈ members s cls k ↔ j ∈ s ∧ cls j = some k := Finset.mem_filter

theorem census_le : census s cls k ≤ s.card := Finset.card_filter_le _ _

theorem census_pos (hi : i ∈ s) (hk : cls i = some k) : 0 < census s cls k :=
  Finset.card_pos.mpr ⟨i, mem_members.mpr ⟨hi, hk⟩⟩

variable [DecidableEq I]

theorem erase_members_update :
    (members s (Function.update cls i b) k).erase i = (members s cls k).erase i := by
  ext j
  simp only [Finset.mem_erase, mem_members, and_congr_right_iff]
  intro hne _
  rw [Function.update_of_ne hne]

theorem census_erase (hi : i ∈ s) (cls : I → Option K) (k : K) :
    census s cls k = ((members s cls k).erase i).card + if cls i = some k then 1 else 0 := by
  cases Decidable.em (cls i = some k) with
  | inl hk =>
    have hmem := mem_members.mpr ⟨hi, hk⟩
    rw [if_pos hk, Finset.card_erase_add_one hmem]
    rfl
  | inr hk =>
    have hmem : i ∉ members s cls k := fun h => hk (mem_members.mp h).2
    rw [if_neg hk, Finset.erase_eq_of_notMem hmem]
    rfl

theorem census_update (hi : i ∈ s) (cls : I → Option K) (b : Option K) (k : K) :
    census s (Function.update cls i b) k + (if cls i = some k then 1 else 0) =
      census s cls k + if b = some k then 1 else 0 := by
  have hnew := census_erase hi (Function.update cls i b) k
  have hold := census_erase hi cls k
  rw [Function.update_self, erase_members_update] at hnew
  omega

end Census
