import Mathlib.Data.List.Basic
import Mathlib.Tactic.Common

namespace BoundedFifo

variable {A : Type}

inductive Op (A : Type) where
  | push (a : A)
  | pop
deriving DecidableEq

inductive Outcome (A : Type) where
  | pushed
  | full
  | popped (a : A)
  | empty
deriving DecidableEq

structure History (A : Type) where
  pushed : List A
  popped : List A
deriving DecidableEq

namespace History

variable (h : History A)

def pending : ℕ := h.pushed.length - h.popped.length

structure InOrder (cap : ℕ) : Prop where
  order : h.popped <+: h.pushed
  bounded : h.pending ≤ cap

def record : Op A → Outcome A → History A
  | .push a, .pushed => { h with pushed := h.pushed ++ [a] }
  | .pop, .popped a => { h with popped := h.popped ++ [a] }
  | _, _ => h

def Allows (cap : ℕ) : Op A → Outcome A → Prop
  | .push _, .pushed => h.pending ≠ cap
  | .push _, .full => h.pending = cap
  | .pop, .popped a => h.pushed[h.popped.length]? = some a
  | .pop, .empty => h.pending = 0
  | _, _ => False

instance [DecidableEq A] (cap : ℕ) (op : Op A) (out : Outcome A) :
    Decidable (h.Allows cap op out) :=
  match op, out with
  | .push _, .pushed => inferInstanceAs (Decidable (_ ≠ _))
  | .push _, .full => inferInstanceAs (Decidable (_ = _))
  | .pop, .popped _ => inferInstanceAs (Decidable (_ = _))
  | .pop, .empty => inferInstanceAs (Decidable (_ = _))
  | .push _, .popped _ => inferInstanceAs (Decidable False)
  | .push _, .empty => inferInstanceAs (Decidable False)
  | .pop, .pushed => inferInstanceAs (Decidable False)
  | .pop, .full => inferInstanceAs (Decidable False)

end History

section Order

variable {h : History A} {cap : ℕ}

theorem pushed_length (hin : h.InOrder cap) : h.pushed.length = h.popped.length + h.pending := by
  have hle := hin.order.length_le
  rw [History.pending]
  omega

theorem inOrder_push (hin : h.InOrder cap) {a : A} (hroom : h.pending ≠ cap) :
    (h.record (.push a) .pushed).InOrder cap := by
  have hlen := pushed_length hin
  have hle := hin.bounded
  constructor
  · exact hin.order.trans (List.prefix_append _ _)
  · simp only [History.pending, History.record, List.length_append, List.length_singleton]
    omega

theorem inOrder_pop (hin : h.InOrder cap) {a : A} (hhead : h.pushed[h.popped.length]? = some a) :
    (h.record .pop (.popped a)).InOrder cap := by
  have hle := hin.bounded
  obtain ⟨rest, hrest⟩ := hin.order
  rw [← hrest, List.getElem?_append_right (Nat.le_refl _), Nat.sub_self] at hhead
  constructor
  · cases rest with
    | nil => exact absurd hhead (Option.some_ne_none a).symm
    | cons b bs =>
      obtain rfl := Option.some_inj.mp hhead
      refine ⟨bs, ?_⟩
      simp only [History.record, List.append_assoc, List.singleton_append]
      exact hrest
  · simp only [History.pending, History.record, List.length_append, List.length_singleton]
    rw [History.pending] at hle
    omega

theorem inOrder_record (hin : h.InOrder cap) {op : Op A} {out : Outcome A}
    (hallows : h.Allows cap op out) : (h.record op out).InOrder cap := by
  cases op with
  | push a =>
    cases out with
    | pushed => exact inOrder_push hin hallows
    | full => exact hin
    | popped b => exact hallows.elim
    | empty => exact hallows.elim
  | pop =>
    cases out with
    | pushed => exact hallows.elim
    | full => exact hallows.elim
    | popped b => exact inOrder_pop hin hallows
    | empty => exact hin

end Order

end BoundedFifo
