import Mathlib.Data.List.Basic
import Mathlib.Tactic.Common

namespace BoundedMemory

structure Access (O : Type) where
  object : O
  first : ℕ
  count : ℕ
  deriving DecidableEq, Repr

variable {O : Type} (size : O → ℕ)

def Inside (a : Access O) : Prop :=
  a.count = 0 ∨ a.first + a.count ≤ size a.object

instance (a : Access O) : Decidable (Inside size a) :=
  inferInstanceAs (Decidable (_ ∨ _))

def AllInside (as : List (Access O)) : Prop :=
  ∀ a ∈ as, Inside size a

instance (as : List (Access O)) : Decidable (AllInside size as) :=
  inferInstanceAs (Decidable (∀ a ∈ as, Inside size a))

@[simp] theorem allInside_nil : AllInside size [] := by
  simp [AllInside]

@[simp] theorem allInside_cons (a : Access O) (as : List (Access O)) :
    AllInside size (a :: as) ↔ Inside size a ∧ AllInside size as := by
  simp [AllInside]

@[simp] theorem allInside_append (as bs : List (Access O)) :
    AllInside size (as ++ bs) ↔ AllInside size as ∧ AllInside size bs := by
  simp [AllInside, or_imp, forall_and]

theorem inside_from_start (o : O) (n : ℕ) : Inside size ⟨o, 0, n⟩ ↔ n ≤ size o := by
  simp only [Inside, Nat.zero_add]
  omega

variable {B : Type} {n : ℕ}

def overlay (v : Vector B n) (first : ℕ) (bs : List B) : Vector B n :=
  Vector.ofFn fun i => if first ≤ i then (bs[i - first]?).getD v[i] else v[i]

def read (v : Vector B n) (outside : ℕ → B) (i : ℕ) : B :=
  if h : i < n then v[i] else outside (i - n)

theorem read_inside (v : Vector B n) (outside : ℕ → B) {i : ℕ} (hi : i < n) :
    read v outside i = v[i] := by
  simp [read, hi]

theorem map_read_take (v : Vector B n) (outside : ℕ → B) {k : ℕ} (hk : k ≤ n) :
    (List.range k).map (read v outside) = v.toList.take k := by
  refine List.ext_getElem (by simp [hk]) fun i hi hi' => ?_
  have hlt : i < n := by
    rw [List.length_map, List.length_range] at hi
    omega
  simp [read_inside v outside hlt]

theorem overlay_prefix (v w : Vector B n) (outside : ℕ → B) {k : ℕ} (hk : k ≤ n) :
    (overlay v 0 ((List.range k).map (read w outside))).toList =
      w.toList.take k ++ v.toList.drop k := by
  refine List.ext_getElem (by simp; omega) fun i hi hi' => ?_
  have hlt : i < n := by simpa using hi
  cases Decidable.em (i < k) with
  | inl hik => simp [overlay, hik, hk, read_inside w outside hlt]
  | inr hik =>
    have hki : k ≤ i := Nat.not_lt.mp hik
    have hsub : k + (i - k) = i := by omega
    simp [overlay, hk, hki, hsub]

def terminatorReach [BEq B] (v : Vector B n) (nul : B) : ℕ := v.toList.findIdx (· == nul) + 1

theorem terminatorReach_le [BEq B] [LawfulBEq B] (v : Vector B n) (nul : B) :
    terminatorReach v nul ≤ n ↔ nul ∈ v.toList := by
  have hlt : v.toList.findIdx (· == nul) < n ↔ ∃ x ∈ v.toList, (x == nul) = true := by
    rw [← List.findIdx_lt_length, Vector.length_toList]
  rw [terminatorReach, Nat.succ_le_iff, hlt]
  simp

def splice (bs : List B) (first : ℕ) (cs : List B) : List B :=
  bs.take first ++ (cs.take (bs.length - first) ++ bs.drop (first + cs.length))

theorem length_splice (bs : List B) (first : ℕ) (cs : List B) :
    (splice bs first cs).length = bs.length := by
  simp only [splice, List.length_append, List.length_take, List.length_drop]
  omega

theorem take_splice_zero {bs cs : List B} (h : cs.length ≤ bs.length) :
    (splice bs 0 cs).take cs.length = cs := by
  simp [splice, List.take_of_length_le h]

theorem splice_append {bs cs ds : List B} (h : ds.length = cs.length) :
    splice (bs ++ cs) bs.length ds = bs ++ ds := by
  rw [splice, List.take_left, List.length_append, Nat.add_sub_cancel_left,
    List.take_of_length_le (Nat.le_of_eq h), List.drop_of_length_le (by simp [h]), List.append_nil]

end BoundedMemory
