import Mathlib.Data.List.Basic
import Mathlib.Tactic.Common

namespace Reassembly

variable {F B : Type} (body : F → List B) (trailer : F → ℕ)

def stripped (f : F) : List B := (body f).take ((body f).length - trailer f)

def joined : List F → List B
  | [] => []
  | [f] => body f
  | f :: g :: rest => stripped body trailer f ++ joined (g :: rest)

variable {body trailer}

theorem take_append_body {pre : List B} {f : F} (h : trailer f ≤ (body f).length) :
    (pre ++ body f).take ((pre ++ body f).length - trailer f) = pre ++ stripped body trailer f := by
  have hlen : (pre ++ body f).length - trailer f = pre.length + ((body f).length - trailer f) := by
    rw [List.length_append]
    omega
  rw [hlen, List.take_length_add_append, stripped]

theorem take_stripped {f : F} {k : ℕ} (h : k + trailer f ≤ (body f).length) :
    (stripped body trailer f).take k = (body f).take k := by
  rw [stripped, List.take_take, Nat.min_eq_left (by omega)]

theorem take_joined {f : F} {k : ℕ} (h : k + trailer f ≤ (body f).length) (rest : List F) :
    (joined body trailer (f :: rest)).take k = (body f).take k := by
  cases rest with
  | nil => rfl
  | cons g rest =>
    have hlen : k ≤ (stripped body trailer f).length := by
      rw [stripped, List.length_take]
      omega
    rw [joined, List.take_append_of_le_length hlen, take_stripped h]

theorem le_length_joined {f : F} {k : ℕ} (h : k + trailer f ≤ (body f).length)
    (rest : List F) : k ≤ (joined body trailer (f :: rest)).length := by
  have htake := congrArg List.length (take_joined h rest)
  rw [List.length_take, List.length_take] at htake
  omega

end Reassembly
