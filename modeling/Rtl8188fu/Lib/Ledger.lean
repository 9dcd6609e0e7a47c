import Mathlib.Data.Int.Cast.Basic
import Mathlib.Data.List.Nodup
import Mathlib.Data.List.Perm.Basic
import Mathlib.Tactic.Common

namespace Ledger

variable {R A : Type}

theorem flatMap_filter_of_nil {F : A → List R} {p : A → Bool} {xs : List A}
    (h : ∀ x ∈ xs, p x = false → F x = []) : (xs.filter p).flatMap F = xs.flatMap F := by
  induction xs with
  | nil => rfl
  | cons x xs ih =>
    have hrest := ih fun y hy => h y (List.mem_cons_of_mem x hy)
    cases hp : p x with
    | true => rw [List.filter_cons_of_pos hp, List.flatMap_cons, List.flatMap_cons, hrest]
    | false =>
      rw [List.filter_cons_of_neg (by simp [hp]), List.flatMap_cons, hrest,
        h x List.mem_cons_self hp, List.nil_append]

structure Balanced (all held free queued : List R) (cnt : ℤ) : Prop where
  owned : (held ++ (free ++ queued)).Perm all
  count : cnt = free.length

namespace Balanced

variable {all held free queued : List R} {cnt : ℤ}

theorem nodup (h : Balanced all held free queued cnt) (hall : all.Nodup) :
    (held ++ (free ++ queued)).Nodup :=
  h.owned.nodup_iff.mpr hall

theorem nodup_queued (h : Balanced all held free queued cnt) (hall : all.Nodup) :
    queued.Nodup :=
  (List.nodup_append.mp (List.nodup_append.mp (h.nodup hall)).2.1).2.1

end Balanced

variable [DecidableEq R]

def without (r : R) (rs : List R) : List R := rs.filter (· != r)

theorem without_of_notMem {r : R} {rs : List R} (h : r ∉ rs) : without r rs = rs := by
  refine List.filter_eq_self.mpr fun s hs => bne_iff_ne.mpr ?_
  rintro rfl
  exact h hs

theorem cons_without_perm {r : R} {rs : List R} (hnodup : rs.Nodup) (h : r ∈ rs) :
    (r :: without r rs).Perm rs := by
  rw [without, ← hnodup.erase_eq_filter r]
  exact (List.perm_cons_erase h).symm

namespace Balanced

variable {all held held' free queued queued' : List R} {cnt : ℤ} {r : R}

theorem move (h : Balanced all held free queued cnt)
    (hmove : (held' ++ queued').Perm (held ++ queued)) : Balanced all held' free queued' cnt := by
  refine ⟨List.perm_iff_count.mpr fun s => ?_, h.count⟩
  have howned := h.owned.count_eq s
  have hcount := hmove.count_eq s
  simp only [List.count_append] at howned hcount ⊢
  omega

theorem take (h : Balanced all held (r :: free) queued cnt) :
    Balanced all (r :: held) free queued (cnt - 1) := by
  refine ⟨List.perm_iff_count.mpr fun s => ?_, ?_⟩
  · have howned := h.owned.count_eq s
    simp only [List.count_append, List.count_cons] at howned ⊢
    omega
  · have hcount := h.count
    rw [List.length_cons] at hcount
    omega

theorem release (h : Balanced all (r :: held) free queued cnt) (hall : all.Nodup) :
    Balanced all held (without r free ++ [r]) (without r queued) (cnt + 1) := by
  have hnodup := h.nodup hall
  rw [List.cons_append, List.nodup_cons, List.mem_append, List.mem_append, not_or, not_or] at hnodup
  obtain ⟨⟨-, hfree, hqueued⟩, -⟩ := hnodup
  rw [without_of_notMem hfree, without_of_notMem hqueued]
  refine ⟨List.perm_iff_count.mpr fun s => ?_, ?_⟩
  · have howned := h.owned.count_eq s
    simp only [List.count_append, List.count_cons, List.count_nil] at howned ⊢
    omega
  · have hcount := h.count
    rw [List.length_append, List.length_singleton]
    omega

theorem reclaim (h : Balanced all held free queued cnt) (hall : all.Nodup) (hr : r ∈ queued) :
    Balanced all held (without r free ++ [r]) (without r queued) (cnt + 1) := by
  have hperm := cons_without_perm (h.nodup_queued hall) hr
  have hheld : Balanced all (r :: held) free (without r queued) cnt := by
    refine h.move ?_
    exact List.perm_middle.symm.trans (List.Perm.append_left held hperm)
  have hfree := hheld.release hall
  rwa [@without_of_notMem _ _ r (without r queued) (by simp [without])] at hfree

end Balanced

theorem flatMap_update {F G : A → List R} {x : A} {xs : List A} (hnodup : xs.Nodup) (hx : x ∈ xs)
    (hne : ∀ y ∈ xs, y ≠ x → G y = F y) :
    (xs.flatMap G ++ F x).Perm (xs.flatMap F ++ G x) := by
  induction xs with
  | nil => exact absurd hx List.not_mem_nil
  | cons y xs ih =>
    obtain ⟨hy, hxs⟩ := List.nodup_cons.mp hnodup
    refine List.perm_iff_count.mpr fun r => ?_
    rcases List.mem_cons.mp hx with rfl | hmem
    · have hsame : xs.flatMap G = xs.flatMap F := List.flatMap_congr fun z hz =>
        hne z (List.mem_cons_of_mem _ hz) fun heq => hy (heq ▸ hz)
      simp only [List.flatMap_cons, hsame, List.count_append]
      omega
    · have hrest := (ih hxs hmem fun z hz => hne z (List.mem_cons_of_mem _ hz)).count_eq r
      have hhead := hne y List.mem_cons_self fun heq => hy (heq ▸ hmem)
      simp only [List.flatMap_cons, hhead, List.count_append] at hrest ⊢
      omega

end Ledger
