import Mathlib.Data.List.Basic
import Mathlib.Tactic.Common

namespace NextFit

variable {α : Type} {size : α → ℕ} {cap : ℕ} {g b xs : List α} {x : α}

def load (size : α → ℕ) : List α → ℕ
  | [] => 0
  | x :: xs => size x + load size xs

def pack (size : α → ℕ) (cap : ℕ) : List α → List α → List (List α)
  | [], [] => []
  | x :: g, [] => [x :: g]
  | [], y :: ys => pack size cap [y] ys
  | x :: g, y :: ys =>
    if load size (x :: g) + size y < cap then pack size cap (x :: g ++ [y]) ys
    else (x :: g) :: pack size cap [y] ys

theorem load_append (size : α → ℕ) (xs ys : List α) :
    load size (xs ++ ys) = load size xs + load size ys := by
  induction xs with
  | nil => simp [load]
  | cons x xs ih => simp only [List.cons_append, load, ih, Nat.add_assoc]

theorem load_flatten_pos (hpos : ∀ x, 0 < size x) (h : xs ≠ []) : 0 < load size xs := by
  cases xs with
  | nil => exact absurd rfl h
  | cons x xs => exact Nat.lt_of_lt_of_le (hpos x) (Nat.le_add_right _ _)

theorem pack_nil (h : g ≠ []) : pack size cap g [] = [g] := by
  cases g with
  | nil => exact absurd rfl h
  | cons x g => rfl

theorem pack_fits (h : g ≠ []) (hfits : load size g + size x < cap) :
    pack size cap g (x :: xs) = pack size cap (g ++ [x]) xs := by
  cases g with
  | nil => exact absurd rfl h
  | cons y g => rw [pack, if_pos hfits]

theorem pack_next (h : g ≠ []) (hfull : ¬ load size g + size x < cap) :
    pack size cap g (x :: xs) = g :: pack size cap [x] xs := by
  cases g with
  | nil => exact absurd rfl h
  | cons y g => rw [pack, if_neg hfull]

theorem pack_flatten (size : α → ℕ) (cap : ℕ) (g xs : List α) :
    (pack size cap g xs).flatten = g ++ xs := by
  induction xs generalizing g with
  | nil =>
    cases g with
    | nil => rfl
    | cons y g => simp [pack]
  | cons x xs ih =>
    cases g with
    | nil => exact ih [x]
    | cons y g =>
      cases Decidable.em (load size (y :: g) + size x < cap) with
      | inl hfits =>
        rw [pack_fits (List.cons_ne_nil _ _) hfits, ih, List.append_assoc]
        rfl
      | inr hfull =>
        rw [pack_next (List.cons_ne_nil _ _) hfull, List.flatten_cons, ih]
        rfl

theorem ne_nil_of_mem_pack (h : b ∈ pack size cap g xs) : b ≠ [] := by
  induction xs generalizing g with
  | nil =>
    cases g with
    | nil => exact absurd h List.not_mem_nil
    | cons y g =>
      rw [List.mem_singleton.mp h]
      exact List.cons_ne_nil _ _
  | cons x xs ih =>
    cases g with
    | nil => exact @ih [x] h
    | cons y g =>
      cases Decidable.em (load size (y :: g) + size x < cap) with
      | inl hfits =>
        rw [pack_fits (List.cons_ne_nil _ _) hfits] at h
        exact ih h
      | inr hfull =>
        rw [pack_next (List.cons_ne_nil _ _) hfull] at h
        rcases List.mem_cons.mp h with rfl | hrest
        · exact List.cons_ne_nil _ _
        · exact ih hrest

theorem load_lt_of_mem_pack (hg : load size g < cap) (hxs : ∀ x ∈ xs, size x < cap)
    (h : b ∈ pack size cap g xs) : load size b < cap := by
  induction xs generalizing g with
  | nil =>
    cases g with
    | nil => exact absurd h List.not_mem_nil
    | cons y g =>
      rw [List.mem_singleton.mp h]
      exact hg
  | cons x xs ih =>
    have hx : load size [x] < cap := by
      simpa [load] using hxs x List.mem_cons_self
    have hrest : ∀ y ∈ xs, size y < cap := fun y hy => hxs y (List.mem_cons_of_mem _ hy)
    cases g with
    | nil => exact @ih [x] hx hrest h
    | cons y g =>
      cases Decidable.em (load size (y :: g) + size x < cap) with
      | inl hfits =>
        rw [pack_fits (List.cons_ne_nil _ _) hfits] at h
        refine ih ?_ hrest h
        rw [load_append]
        simpa [load] using hfits
      | inr hfull =>
        rw [pack_next (List.cons_ne_nil _ _) hfull] at h
        rcases List.mem_cons.mp h with rfl | hlater
        · exact hg
        · exact ih hx hrest hlater

theorem load_take_lt (hpos : ∀ x, 0 < size x) {gs : List (List α)} (hne : ∀ g ∈ gs, g ≠ []) {n : ℕ}
    (hn : n < gs.length) : load size (gs.take n).flatten < load size gs.flatten := by
  induction gs generalizing n with
  | nil => exact absurd hn (Nat.not_lt_zero n)
  | cons g gs ih =>
    cases n with
    | zero =>
      have hg := hne g List.mem_cons_self
      have hflat : (g :: gs).flatten ≠ [] := by
        rw [List.flatten_cons]
        exact List.append_ne_nil_of_left_ne_nil hg _
      exact load_flatten_pos hpos hflat
    | succ n =>
      have hlater := ih (fun b hb => hne b (List.mem_cons_of_mem _ hb)) (Nat.lt_of_succ_lt_succ hn)
      rw [List.take_succ_cons, List.flatten_cons, List.flatten_cons, load_append, load_append]
      exact Nat.add_lt_add_left hlater _

end NextFit
