import Mathlib.Algebra.Order.Group.Int
import Mathlib.Data.List.Nodup
import Mathlib.Logic.Function.Basic
import Mathlib.Tactic.Common

structure Latches (C : Type) where
  num : C → ℤ
  set : C → Bool

namespace Latches

variable {C : Type}

def others (l : Latches C) (c : C) : ℤ := l.num c - (l.set c).toNat

theorem bit_inj {a b : Bool} : (a.toNat : ℤ) = b.toNat ↔ a = b := by
  cases a <;> cases b <;> decide

theorem num_eq (l : Latches C) (c : C) : l.num c = l.others c + (l.set c).toNat := by
  rw [others, Int.sub_add_cancel]

section

variable [DecidableEq C]

def raise (l : Latches C) (c : C) : Latches C where
  num := Function.update l.num c (l.num c + 1)
  set := Function.update l.set c true

def lower (l : Latches C) (c : C) : Latches C where
  num := Function.update l.num c (l.num c - 1)
  set := Function.update l.set c false

def write (l : Latches C) (c : C) (b : Bool) : Latches C where
  num := Function.update l.num c (l.others c + b.toNat)
  set := Function.update l.set c b

theorem raise_eq_write {l : Latches C} {c : C} (h : l.set c = false) :
    l.raise c = l.write c true := by
  simp [raise, write, others, h]

theorem lower_eq_write {l : Latches C} {c : C} (h : l.set c = true) :
    l.lower c = l.write c false := by
  simp [lower, write, others, h]

theorem write_self {l : Latches C} {c : C} {b : Bool} (h : l.set c = b) : l.write c b = l := by
  subst h
  simp [write, ← num_eq]

@[simp] theorem others_write (l : Latches C) (c : C) (b : Bool) : (l.write c b).others = l.others := by
  funext d
  rcases eq_or_ne d c with rfl | hd
  · simp [others, write]
  · simp [others, write, hd]

@[simp] theorem set_write (l : Latches C) (c : C) (b : Bool) :
    (l.write c b).set = Function.update l.set c b := rfl

@[simp] theorem num_write (l : Latches C) (c : C) (b : Bool) :
    (l.write c b).num c = l.others c + b.toNat := by
  simp [write]

theorem num_write_ne (l : Latches C) {c d : C} (h : d ≠ c) (b : Bool) :
    (l.write c b).num d = l.num d := by
  simp [write, h]

end

def tips (l : Latches C) (c : C) (b : Bool) : Bool := decide (l.others c = 0) && l.set c != b

theorem tips_write_ne [DecidableEq C] {l : Latches C} {c d : C} (h : d ≠ c) (a b : Bool) :
    (l.write c a).tips d b = l.tips d b := by
  simp [tips, h]

theorem num_pos_iff {l : Latches C} {c : C} (h : 0 ≤ l.others c) :
    0 < l.num c ↔ 0 < l.others c ∨ l.set c = true := by
  rw [num_eq]
  cases l.set c
  · simp
  · simp only [Bool.toNat_true, or_true, iff_true]
    omega

theorem tips_iff {l m : Latches C} {c : C} (h : 0 ≤ l.others c) (hothers : m.others c = l.others c) :
    l.tips c (m.set c) = true ↔ ¬(0 < l.num c ↔ 0 < m.num c) := by
  rw [num_pos_iff h, num_pos_iff (hothers ▸ h), hothers, tips]
  rcases h.eq_or_lt with h0 | hpos
  · rw [← h0]
    cases l.set c <;> cases m.set c <;> simp
  · simp [hpos, hpos.ne']

end Latches

namespace Tally

variable {K V : Type} [DecidableEq K]

theorem find?_eq_none_of_notMem {key : V → K} {k : K} {vs : List V} (h : k ∉ vs.map key) :
    vs.find? (fun v => key v = k) = none := by
  refine List.find?_eq_none.mpr fun v hv hk => h ?_
  rw [← of_decide_eq_true hk]
  exact List.mem_map_of_mem hv

theorem countP_split {key : V → K} {vs : List V} (hnodup : (vs.map key).Nodup) (k : K)
    (p : V → Bool) :
    vs.countP p = (vs.filter (fun v => key v ≠ k)).countP p +
      ((vs.find? (fun v => key v = k)).any p).toNat := by
  induction vs with
  | nil => rfl
  | cons v vs ih =>
    have hrest := List.nodup_cons.mp hnodup
    rw [List.countP_cons, ih hrest.2]
    cases Decidable.em (key v = k) with
    | inl hk =>
      rw [List.filter_cons_of_neg (by simp [hk]), List.find?_cons_of_pos (by simp [hk]),
        find?_eq_none_of_notMem (hk ▸ hrest.1)]
      cases hp : p v <;> simp [hp]
    | inr hk =>
      rw [List.filter_cons_of_pos (by simp [hk]), List.find?_cons_of_neg (by simp [hk]),
        List.countP_cons]
      omega

theorem nodup_cons_without {key : V → K} {vs : List V} {v : V} {k : K}
    (hnodup : (vs.map key).Nodup) (hv : key v = k) :
    ((v :: vs.filter (fun v => key v ≠ k)).map key).Nodup := by
  refine List.nodup_cons.mpr ⟨fun hmem => ?_, ?_⟩
  · obtain ⟨w, hw, hkey⟩ := List.mem_map.mp hmem
    exact absurd (hkey.trans hv) (by simpa using (List.mem_filter.mp hw).2)
  · exact hnodup.sublist (List.filter_sublist.map key)

end Tally
