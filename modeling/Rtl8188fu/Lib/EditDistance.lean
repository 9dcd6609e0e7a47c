import Mathlib.Data.List.Basic
import Mathlib.Order.Bounds.Basic
import Mathlib.Tactic.Common

namespace EditDistance

variable {A : Type}

inductive Edit : List A → List A → Prop
  | insert (l : List A) (x : A) (r : List A) : Edit (l ++ r) (l ++ x :: r)
  | delete (l : List A) (x : A) (r : List A) : Edit (l ++ x :: r) (l ++ r)
  | substitute (l : List A) (x y : A) (r : List A) : Edit (l ++ x :: r) (l ++ y :: r)

inductive Edits : ℕ → List A → List A → Prop
  | refl (a : List A) : Edits 0 a a
  | step {n : ℕ} {a b c : List A} (first : Edit a b) (rest : Edits n b c) : Edits (n + 1) a c

section Paths

variable {a b : List A} {n : ℕ}

theorem Edit.cons (z : A) (h : Edit a b) : Edit (z :: a) (z :: b) := by
  cases h with
  | insert l x r => exact .insert (z :: l) x r
  | delete l x r => exact .delete (z :: l) x r
  | substitute l x y r => exact .substitute (z :: l) x y r

theorem Edit.reverse (h : Edit a b) : Edit a.reverse b.reverse := by
  cases h with
  | insert l x r => simpa using Edit.insert r.reverse x l.reverse
  | delete l x r => simpa using Edit.delete r.reverse x l.reverse
  | substitute l x y r => simpa using Edit.substitute r.reverse x y l.reverse

theorem Edits.cons (z : A) (h : Edits n a b) : Edits n (z :: a) (z :: b) := by
  induction h with
  | refl a => exact .refl _
  | step first rest ih => exact .step (first.cons z) ih

theorem Edits.reverse (h : Edits n a b) : Edits n a.reverse b.reverse := by
  induction h with
  | refl a => exact .refl _
  | step first rest ih => exact .step first.reverse ih

theorem edits_reverse_iff : Edits n a.reverse b.reverse ↔ Edits n a b := by
  constructor
  · intro h
    simpa using h.reverse
  · exact Edits.reverse

theorem edits_zero_iff : Edits 0 a b ↔ a = b := by
  constructor
  · intro h
    cases h with
    | refl => rfl
  · rintro rfl
    exact .refl a

theorem edits_from_nil (b : List A) : Edits b.length [] b := by
  induction b with
  | nil => exact .refl []
  | cons y b ih => exact .step (.insert [] y []) (ih.cons y)

theorem edits_to_nil (a : List A) : Edits a.length a [] := by
  induction a with
  | nil => exact .refl []
  | cons x a ih => exact .step (.delete [] x a) ih

end Paths

variable [DecidableEq A]

def mismatch (x y : A) : ℕ := if x = y then 0 else 1

def dist : List A → List A → ℕ
  | [], b => b.length
  | a, [] => a.length
  | x :: a, y :: b => min (min (dist a (y :: b) + 1) (dist (x :: a) b + 1)) (dist a b + mismatch x y)
termination_by a b => a.length + b.length

section Dist

variable {a b : List A} {x y : A}

@[simp] theorem dist_nil_left (b : List A) : dist [] b = b.length := by
  rw [dist]

@[simp] theorem dist_nil_right (a : List A) : dist a [] = a.length := by
  cases a with
  | nil => rw [dist]
  | cons x a =>
    rw [dist]
    exact List.cons_ne_nil x a

theorem dist_cons_cons : dist (x :: a) (y :: b) =
    min (min (dist a (y :: b) + 1) (dist (x :: a) b + 1)) (dist a b + mismatch x y) := by
  rw [dist]

theorem mismatch_le : mismatch x y ≤ 1 := by
  rw [mismatch]
  split <;> omega

theorem dist_insert_le (a : List A) (y : A) (b : List A) : dist a (y :: b) ≤ dist a b + 1 := by
  cases a with
  | nil => simp
  | cons x a =>
    rw [dist_cons_cons]
    omega

theorem dist_self (a : List A) : dist a a = 0 := by
  induction a with
  | nil => simp
  | cons x a ih =>
    have hsame : mismatch x x = 0 := if_pos rfl
    rw [dist_cons_cons, hsame]
    omega

def Close (a b : List A) : Prop := ∀ c, dist a c ≤ dist b c + 1

theorem close_delete (x : A) (r : List A) : Close (x :: r) r := by
  intro c
  cases c with
  | nil => simp
  | cons y c =>
    rw [dist_cons_cons]
    omega

theorem close_insert (x : A) (r : List A) : Close r (x :: r) := by
  intro c
  induction c with
  | nil =>
    simp only [dist_nil_right, List.length_cons]
    omega
  | cons y c ih =>
    have hlonger := dist_insert_le r y c
    rw [dist_cons_cons]
    omega

theorem close_substitute (x z : A) (r : List A) : Close (x :: r) (z :: r) := by
  intro c
  induction c with
  | nil => simp
  | cons y c ih =>
    have hx : mismatch x y ≤ 1 := mismatch_le
    rw [dist_cons_cons, dist_cons_cons]
    omega

theorem Close.cons (z : A) (h : Close a b) : Close (z :: a) (z :: b) := by
  intro c
  induction c with
  | nil =>
    have hnil := h []
    simp only [dist_nil_right, List.length_cons] at hnil ⊢
    omega
  | cons y c ih =>
    have hlong := h (y :: c)
    have hshort := h c
    rw [dist_cons_cons, dist_cons_cons]
    omega

theorem Close.append (h : Close a b) (l : List A) : Close (l ++ a) (l ++ b) := by
  induction l with
  | nil => exact h
  | cons z l ih => exact ih.cons z

theorem Edit.close (h : Edit a b) : Close a b := by
  cases h with
  | insert l x r => exact (close_insert x r).append l
  | delete l x r => exact (close_delete x r).append l
  | substitute l x y r => exact (close_substitute x y r).append l

theorem dist_le {n : ℕ} (h : Edits n a b) : dist a b ≤ n := by
  induction h with
  | refl a => exact Nat.le_of_eq (dist_self a)
  | step first rest ih =>
    have hclose := first.close
    exact Nat.le_trans (hclose _) (Nat.succ_le_succ ih)

theorem edits_substitute {n : ℕ} (h : Edits n a b) :
    Edits (n + mismatch x y) (x :: a) (y :: b) := by
  cases Decidable.em (x = y) with
  | inl heq =>
    subst heq
    rw [mismatch, if_pos rfl]
    exact h.cons x
  | inr hne =>
    rw [mismatch, if_neg hne]
    exact .step (.substitute [] x y a) (h.cons y)

theorem edits_dist (a b : List A) : Edits (dist a b) a b := by
  induction hn : a.length + b.length using Nat.strongRecOn generalizing a b with
  | ind n ih =>
    cases a with
    | nil =>
      rw [dist_nil_left]
      exact edits_from_nil b
    | cons x a =>
      cases b with
      | nil =>
        rw [dist_nil_right]
        exact edits_to_nil (x :: a)
      | cons y b =>
        simp only [List.length_cons] at hn
        rw [dist_cons_cons]
        have hdelete : Edits (dist a (y :: b) + 1) (x :: a) (y :: b) :=
          .step (.delete [] x a) (ih _ (by simp only [List.length_cons]; omega) _ _ rfl)
        have hinsert : Edits (dist (x :: a) b + 1) (x :: a) (y :: b) := by
          have hrest := ih _ (by simp only [List.length_cons]; omega) (x :: a) b rfl
          exact .step (.insert [] y (x :: a)) (hrest.cons y)
        have hboth : Edits (dist a b + mismatch x y) (x :: a) (y :: b) :=
          edits_substitute (ih _ (by omega) a b rfl)
        rcases Nat.le_total (min (dist a (y :: b) + 1) (dist (x :: a) b + 1))
          (dist a b + mismatch x y) with h | h
        · rw [Nat.min_eq_left h]
          rcases Nat.le_total (dist a (y :: b) + 1) (dist (x :: a) b + 1) with h' | h'
          · rw [Nat.min_eq_left h']
            exact hdelete
          · rw [Nat.min_eq_right h']
            exact hinsert
        · rw [Nat.min_eq_right h]
          exact hboth

theorem dist_isLeast (a b : List A) : IsLeast {n | Edits n a b} (dist a b) :=
  ⟨edits_dist a b, fun _ h => dist_le h⟩

theorem dist_reverse_isLeast (a b : List A) :
    IsLeast {n | Edits n a b} (dist a.reverse b.reverse) := by
  have hleast := dist_isLeast a.reverse b.reverse
  simp only [edits_reverse_iff] at hleast
  exact hleast

theorem dist_eq_zero_iff : dist a b = 0 ↔ a = b := by
  constructor
  · intro h
    have hpath := edits_dist a b
    rw [h] at hpath
    exact edits_zero_iff.mp hpath
  · rintro rfl
    exact dist_self a

end Dist

end EditDistance
