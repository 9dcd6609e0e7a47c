import Mathlib.Data.List.Perm.Basic
import Mathlib.Order.Lattice
import Mathlib.Tactic.Common

namespace ExchangeSort

variable {α β : Type}

-- one turn of the outer loop: its position takes whatever precedes it from the positions behind
def pass (less : α → α → Bool) (x : α) : List α → α × List α
  | [] => (x, [])
  | y :: ys =>
    if less y x then
      let r := pass less y ys
      (r.1, x :: r.2)
    else
      let r := pass less x ys
      (r.1, y :: r.2)

def loop (less : α → α → Bool) : ℕ → List α → List α
  | 0, xs => xs
  | _ + 1, [] => []
  | n + 1, x :: xs =>
    let r := pass less x xs
    r.1 :: loop less n r.2

def sort (less : α → α → Bool) (xs : List α) : List α := loop less xs.length xs

variable {less : α → α → Bool}

theorem pass_perm (x : α) (xs : List α) :
    ((pass less x xs).1 :: (pass less x xs).2).Perm (x :: xs) := by
  induction xs generalizing x with
  | nil => exact .refl _
  | cons y ys ih =>
    rw [pass]
    split
    · calc
        (pass less y ys).1 :: x :: (pass less y ys).2
        _ |>.Perm (x :: (pass less y ys).1 :: (pass less y ys).2) := .swap ..
        _ |>.Perm (x :: y :: ys) := (ih y).cons x
    · calc
        (pass less x ys).1 :: y :: (pass less x ys).2
        _ |>.Perm (y :: (pass less x ys).1 :: (pass less x ys).2) := .swap ..
        _ |>.Perm (y :: x :: ys) := (ih x).cons y
        _ |>.Perm (x :: y :: ys) := .swap ..

theorem loop_perm (n : ℕ) (xs : List α) : (loop less n xs).Perm xs := by
  induction n generalizing xs with
  | zero => exact .refl _
  | succ n ih =>
    cases xs with
    | nil => exact .refl _
    | cons x xs => exact ((ih _).cons _).trans (pass_perm x xs)

theorem sort_perm (xs : List α) : (sort less xs).Perm xs :=
  loop_perm xs.length xs

variable [LinearOrder β] {key : α → β} (hless : ∀ a b, less a b = true ↔ key a < key b)

include hless

theorem pass_le (x : α) (xs : List α) : key (pass less x xs).1 ≤ key x := by
  induction xs generalizing x with
  | nil => exact le_rfl
  | cons y ys ih =>
    rw [pass]
    split
    · rename_i hyx
      exact le_trans (ih y) (le_of_lt ((hless y x).mp hyx))
    · exact ih x

theorem pass_least (x : α) (xs : List α) :
    ∀ y ∈ (pass less x xs).2, key (pass less x xs).1 ≤ key y := by
  induction xs generalizing x with
  | nil => exact nofun
  | cons z zs ih =>
    rw [pass]
    split
    · rename_i hzx
      refine List.forall_mem_cons.mpr ⟨?_, ih z⟩
      exact le_trans (pass_le hless z zs) (le_of_lt ((hless z x).mp hzx))
    · rename_i hzx
      refine List.forall_mem_cons.mpr ⟨?_, ih x⟩
      exact le_trans (pass_le hless x zs) (not_lt.mp fun hlt => hzx ((hless z x).mpr hlt))

theorem loop_sorted (n : ℕ) (xs : List α) (hn : xs.length ≤ n) :
    (loop less n xs).Pairwise fun a b => key a ≤ key b := by
  induction n generalizing xs with
  | zero =>
    rw [List.length_eq_zero_iff.mp (Nat.le_zero.mp hn)]
    exact .nil
  | succ n ih =>
    cases xs with
    | nil => exact .nil
    | cons x xs =>
      have hlen : (pass less x xs).2.length ≤ n := by
        have hperm : (pass less x xs).2.length + 1 = xs.length + 1 := (pass_perm x xs).length_eq
        rw [List.length_cons] at hn
        omega
      refine .cons (fun y hy => ?_) (ih _ hlen)
      exact pass_least hless x xs y ((loop_perm n _).mem_iff.mp hy)

theorem sort_sorted (xs : List α) : (sort less xs).Pairwise fun a b => key a ≤ key b :=
  loop_sorted hless xs.length xs (Nat.le_refl _)

end ExchangeSort
