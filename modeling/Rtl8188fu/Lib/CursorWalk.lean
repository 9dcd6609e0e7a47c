import Mathlib.Data.List.Basic
import Mathlib.Tactic.Common

namespace CursorWalk

structure Walk where
  inside : ℕ → Bool
  found : ℕ → Bool
  next : ℕ → ℕ

variable {w : Walk} {i j k limit : ℕ} {r : Option ℕ}

def run (w : Walk) : ℕ → ℕ → Option (Option ℕ)
  | 0, _ => none
  | fuel + 1, i =>
    if w.inside i then
      if w.found i then some (some i) else run w fuel (w.next i)
    else some none

def Finishes (w : Walk) (i : ℕ) (r : Option ℕ) : Prop := ∃ fuel, run w fuel i = some r

inductive Visits (w : Walk) : ℕ → ℕ → Prop
  | here {i : ℕ} : w.inside i = true → Visits w i i
  | later {i j : ℕ} : w.inside i = true → w.found i = false → Visits w (w.next i) j → Visits w i j

theorem run_succ (w : Walk) (fuel i : ℕ) : run w (fuel + 1) i =
    if w.inside i then
      if w.found i then some (some i) else run w fuel (w.next i)
    else some none := rfl

theorem run_outside (fuel : ℕ) (h : w.inside i = false) : run w (fuel + 1) i = some none := by
  rw [run_succ, h, if_neg Bool.false_ne_true]

theorem run_found (fuel : ℕ) (h : w.inside i = true) (hfound : w.found i = true) :
    run w (fuel + 1) i = some (some i) := by
  rw [run_succ, h, hfound, if_pos rfl, if_pos rfl]

theorem run_next (fuel : ℕ) (h : w.inside i = true) (hfound : w.found i = false) :
    run w (fuel + 1) i = run w fuel (w.next i) := by
  rw [run_succ, h, hfound, if_pos rfl, if_neg Bool.false_ne_true]

theorem run_mono {fuel : ℕ} (h : run w fuel i = some r) (more : ℕ) :
    run w (fuel + more) i = some r := by
  induction fuel generalizing i with
  | zero => cases h
  | succ fuel ih =>
    rw [Nat.succ_add]
    cases hin : w.inside i with
    | false =>
      rw [run_outside _ hin] at h ⊢
      exact h
    | true =>
      cases hfound : w.found i with
      | true =>
        rw [run_found _ hin hfound] at h ⊢
        exact h
      | false =>
        rw [run_next _ hin hfound] at h ⊢
        exact ih h

theorem Finishes.unique {r' : Option ℕ} (h : Finishes w i r) (h' : Finishes w i r') : r = r' := by
  obtain ⟨fuel, hrun⟩ := h
  obtain ⟨fuel', hrun'⟩ := h'
  have hmore := run_mono hrun fuel'
  rw [Nat.add_comm, run_mono hrun' fuel] at hmore
  exact (Option.some.inj hmore).symm

theorem finishes_next (h : w.inside i = true) (hfound : w.found i = false) :
    Finishes w i r ↔ Finishes w (w.next i) r := by
  constructor
  · rintro ⟨fuel, hrun⟩
    cases fuel with
    | zero => cases hrun
    | succ fuel =>
      rw [run_next _ h hfound] at hrun
      exact ⟨fuel, hrun⟩
  · rintro ⟨fuel, hrun⟩
    exact ⟨fuel + 1, (run_next _ h hfound).trans hrun⟩

theorem Visits.inside (h : Visits w i j) : w.inside j = true := by
  induction h with
  | here hin => exact hin
  | later _ _ _ ih => exact ih

theorem Visits.start (h : Visits w i j) : w.inside i = true := by
  cases h with
  | here hin => exact hin
  | later hin _ _ => exact hin

theorem Visits.finishes (h : Visits w i j) : Finishes w i r ↔ Finishes w j r := by
  induction h with
  | here _ => exact Iff.rfl
  | later hin hfound _ ih => exact (finishes_next hin hfound).trans ih

theorem Visits.found_finishes (h : Visits w i j) (hfound : w.found j = true) :
    Finishes w i (some j) :=
  h.finishes.mpr ⟨1, run_found 0 h.inside hfound⟩

theorem forall_visits {P : ℕ → Prop} (h : w.inside i = true) :
    (∀ j, Visits w i j → P j) ↔ P i ∧ (w.found i = false → ∀ j, Visits w (w.next i) j → P j) := by
  constructor
  · intro hall
    exact ⟨hall i (.here h), fun hfound j hj => hall j (.later h hfound hj)⟩
  · rintro ⟨hhere, hlater⟩ j hj
    cases hj with
    | here _ => exact hhere
    | later _ hfound hj => exact hlater hfound j hj

theorem forall_visits_outside {P : ℕ → Prop} (h : w.inside i = false) (j : ℕ) :
    Visits w i j → P j := by
  intro hj
  have hin := hj.start
  rw [h] at hin
  cases hin

theorem run_some {fuel : ℕ} (h : run w fuel i = some (some j)) :
    Visits w i j ∧ w.found j = true := by
  induction fuel generalizing i with
  | zero => cases h
  | succ fuel ih =>
    cases hin : w.inside i with
    | false =>
      rw [run_outside _ hin] at h
      cases h
    | true =>
      cases hfound : w.found i with
      | true =>
        rw [run_found _ hin hfound] at h
        cases h
        exact ⟨.here hin, hfound⟩
      | false =>
        rw [run_next _ hin hfound] at h
        obtain ⟨hvisits, hj⟩ := ih h
        exact ⟨.later hin hfound hvisits, hj⟩

theorem finishes_some_iff : Finishes w i (some j) ↔ Visits w i j ∧ w.found j = true := by
  constructor
  · rintro ⟨fuel, hrun⟩
    exact run_some hrun
  · rintro ⟨hvisits, hfound⟩
    exact hvisits.found_finishes hfound

theorem not_finishes_of_stall (h : Visits w i j) (hfound : w.found j = false)
    (hstall : w.next j = j) : ¬ Finishes w i r := by
  rw [h.finishes]
  rintro ⟨fuel, hrun⟩
  induction fuel with
  | zero => cases hrun
  | succ fuel ih =>
    rw [run_next _ h.inside hfound, hstall] at hrun
    exact ih hrun

theorem run_bounded (hlimit : ∀ j, w.inside j = true → j < limit)
    (hnext : ∀ j, Visits w i j → w.found j = false → j < w.next j) :
    ∃ r, run w (limit - i + 1) i = some r := by
  induction hleft : limit - i using Nat.strongRecOn generalizing i with
  | _ left ih =>
    cases hin : w.inside i with
    | false => exact ⟨none, run_outside _ hin⟩
    | true =>
      cases hfound : w.found i with
      | true => exact ⟨some i, run_found _ hin hfound⟩
      | false =>
        have hlt := hnext i (.here hin) hfound
        have hroom := hlimit i hin
        obtain ⟨r, hrun⟩ := ih (limit - w.next i) (by omega)
          (fun j hj hjfound => hnext j (.later hin hfound hj) hjfound) rfl
        refine ⟨r, ?_⟩
        rw [run_next _ hin hfound]
        have hmore := run_mono hrun (left - (limit - w.next i + 1))
        rwa [Nat.add_sub_cancel' (by omega)] at hmore

theorem Finishes.run_within (h : Finishes w i r) (hlimit : ∀ j, w.inside j = true → j < limit)
    (hle : ∀ j, j ≤ w.next j) : run w (limit - i + 1) i = some r := by
  obtain ⟨r', hrun⟩ := run_bounded hlimit fun j hj hfound =>
    Nat.lt_of_le_of_ne (hle j) fun hstall => not_finishes_of_stall hj hfound hstall.symm h
  rw [hrun, Finishes.unique ⟨_, hrun⟩ h]

theorem run_congr {w' : Walk} (hinside : ∀ j, w.inside j = w'.inside j)
    (hfound : ∀ j, w.inside j = true → w.found j = w'.found j)
    (hnext : ∀ j, w.inside j = true → w.next j = w'.next j) (fuel : ℕ) :
    run w fuel i = run w' fuel i := by
  induction fuel generalizing i with
  | zero => rfl
  | succ fuel ih =>
    cases hin : w.inside i with
    | false => rw [run_outside _ hin, run_outside _ ((hinside i).symm.trans hin)]
    | true =>
      have hin' := (hinside i).symm.trans hin
      cases hhit : w.found i with
      | true => rw [run_found _ hin hhit, run_found _ hin' ((hfound i hin).symm.trans hhit)]
      | false =>
        rw [run_next _ hin hhit, run_next _ hin' ((hfound i hin).symm.trans hhit), hnext i hin]
        exact ih

theorem finishes_iff (hlimit : ∀ j, w.inside j = true → j < limit) (hle : ∀ j, j ≤ w.next j) :
    (∃ r, Finishes w i r) ↔ ∀ j, Visits w i j → w.found j = false → w.next j ≠ j := by
  constructor
  · rintro ⟨r, hfin⟩ j hj hfound hstall
    exact not_finishes_of_stall hj hfound hstall hfin
  · intro h
    obtain ⟨r, hrun⟩ := run_bounded hlimit fun j hj hfound =>
      Nat.lt_of_le_of_ne (hle j) (h j hj hfound).symm
    exact ⟨r, _, hrun⟩

def find (w : Walk) (limit i : ℕ) : Option ℕ := (run w (limit - i + 1) i).getD none

def trace (w : Walk) : ℕ → ℕ → List ℕ
  | 0, _ => []
  | fuel + 1, i =>
    if w.inside i then
      i :: if w.found i then [] else trace w fuel (w.next i)
    else []

structure Advances (w : Walk) (limit : ℕ) : Prop where
  inside : ∀ j, w.inside j = true → j < limit
  next : ∀ j, j < w.next j

theorem Advances.finishes (h : Advances w limit) (i : ℕ) : Finishes w i (find w limit i) := by
  obtain ⟨r, hrun⟩ := run_bounded h.inside (i := i) fun j _ _ => h.next j
  rw [find, hrun]
  exact ⟨_, hrun⟩

theorem Advances.find_eq (h : Advances w limit) (hr : Finishes w i r) : find w limit i = r :=
  (h.finishes i).unique hr

theorem Advances.find_eq_some (h : Advances w limit) :
    find w limit i = some j ↔ Visits w i j ∧ w.found j = true := by
  rw [← finishes_some_iff]
  constructor
  · intro hfind
    rw [← hfind]
    exact h.finishes i
  · exact h.find_eq

theorem Advances.find_outside (h : Advances w limit) (hin : w.inside i = false) :
    find w limit i = none :=
  h.find_eq ⟨1, run_outside 0 hin⟩

theorem Advances.find_found (h : Advances w limit) (hin : w.inside i = true)
    (hfound : w.found i = true) : find w limit i = some i :=
  h.find_eq ⟨1, run_found 0 hin hfound⟩

theorem Advances.find_next (h : Advances w limit) (hin : w.inside i = true)
    (hfound : w.found i = false) : find w limit i = find w limit (w.next i) :=
  h.find_eq ((finishes_next hin hfound).mpr (h.finishes _))

theorem trace_found (fuel : ℕ) (h : w.inside i = true) (hfound : w.found i = true) :
    trace w (fuel + 1) i = [i] := by
  simp only [trace, h, hfound, if_true]

theorem trace_next (fuel : ℕ) (h : w.inside i = true) (hfound : w.found i = false) :
    trace w (fuel + 1) i = i :: trace w fuel (w.next i) := by
  simp only [trace, h, hfound, if_true, Bool.false_eq_true, if_false]

theorem mem_trace {fuel : ℕ} (h : j ∈ trace w fuel i) : Visits w i j := by
  induction fuel generalizing i with
  | zero => exact absurd h List.not_mem_nil
  | succ fuel ih =>
    simp only [trace] at h
    cases hin : w.inside i with
    | false =>
      rw [hin, if_neg Bool.false_ne_true] at h
      exact absurd h List.not_mem_nil
    | true =>
      rw [hin, if_pos rfl, List.mem_cons] at h
      rcases h with rfl | hrest
      · exact .here hin
      · cases hfound : w.found i with
        | true =>
          rw [hfound, if_pos rfl] at hrest
          exact absurd hrest List.not_mem_nil
        | false =>
          rw [hfound, if_neg Bool.false_ne_true] at hrest
          exact .later hin hfound (ih hrest)

theorem Advances.mem_trace_iff (h : Advances w limit) {fuel : ℕ} (hfuel : limit ≤ i + fuel) :
    j ∈ trace w fuel i ↔ Visits w i j := by
  refine ⟨mem_trace, fun hj => ?_⟩
  induction hj generalizing fuel with
  | here hin =>
    have hlt := h.inside _ hin
    cases fuel with
    | zero => omega
    | succ fuel =>
      simp only [trace, hin, if_true]
      exact List.mem_cons_self
  | @later i j hin hfound _ ih =>
    have hlt := h.inside _ hin
    have hnext := h.next i
    cases fuel with
    | zero => omega
    | succ fuel =>
      simp only [trace, hin, hfound, if_true, Bool.false_eq_true, if_false]
      exact List.mem_cons_of_mem _ (ih (by omega))

theorem Advances.trace_fuel (h : Advances w limit) {fuel fuel' : ℕ} (hfuel : limit ≤ i + fuel)
    (hfuel' : limit ≤ i + fuel') : trace w fuel i = trace w fuel' i := by
  have hstop {i : ℕ} (hi : limit ≤ i) : w.inside i = false :=
    eq_false_of_ne_true fun hin => by
      have hlt := h.inside i hin
      omega
  induction fuel generalizing fuel' i with
  | zero =>
    cases fuel' with
    | zero => rfl
    | succ fuel' => rw [trace, trace, hstop (i := i) hfuel, if_neg Bool.false_ne_true]
  | succ fuel ih =>
    cases fuel' with
    | zero => rw [trace, trace, hstop (i := i) hfuel', if_neg Bool.false_ne_true]
    | succ fuel' =>
      have hnext := h.next i
      rw [trace, trace, ih (by omega) (by omega : limit ≤ w.next i + fuel')]

section Fold

variable {S : Type} {f : S → ℕ → Option S} {g : S → ℕ → S} {s : S}

def fold (w : Walk) (f : S → ℕ → Option S) : ℕ → ℕ → S → Option S
  | 0, _, _ => none
  | fuel + 1, i, s =>
    if w.inside i then (f s i).bind fun t => fold w f fuel (w.next i) t else some s

def visited (w : Walk) (limit i : ℕ) : List ℕ := trace w (limit - i) i

theorem Advances.visited_cons (h : Advances w limit) (hin : w.inside i = true)
    (hfound : w.found i = false) : visited w limit i = i :: visited w limit (w.next i) := by
  have hlt := h.inside i hin
  have hnext := h.next i
  obtain ⟨fuel, hfuel⟩ : ∃ fuel, limit - i = fuel + 1 := ⟨limit - i - 1, by omega⟩
  rw [visited, visited, hfuel, trace_next fuel hin hfound]
  exact congrArg _ (h.trace_fuel (by omega) (by omega))

theorem visited_nil (hin : w.inside i = false) : visited w limit i = [] := by
  rw [visited]
  cases limit - i with
  | zero => rfl
  | succ fuel => rw [trace, hin, if_neg Bool.false_ne_true]

theorem Advances.mem_visited (h : Advances w limit) : j ∈ visited w limit i ↔ Visits w i j :=
  h.mem_trace_iff (by omega)

theorem Advances.fold_eq_foldlM (h : Advances w limit) (hfound : ∀ j, w.found j = false)
    (f : S → ℕ → Option S) {fuel : ℕ} (hfuel : limit ≤ i + fuel) :
    fold w f (fuel + 1) i s = (visited w limit i).foldlM f s := by
  induction fuel generalizing i s with
  | zero =>
    have hin : w.inside i = false := eq_false_of_ne_true fun hin => by
      have hlt := h.inside i hin
      omega
    rw [fold, hin, if_neg Bool.false_ne_true, visited_nil hin]
    rfl
  | succ fuel ih =>
    rw [fold]
    cases hin : w.inside i with
    | false =>
      rw [if_neg Bool.false_ne_true, visited_nil hin]
      rfl
    | true =>
      have hnext := h.next i
      rw [if_pos rfl, h.visited_cons hin (hfound i), List.foldlM_cons]
      exact congrArg _ (funext fun t => ih (by omega))

theorem foldlM_some (hf : ∀ s j, f s j = some (g s j)) (js : List ℕ) :
    js.foldlM f s = some (js.foldl g s) := by
  induction js generalizing s with
  | nil => rfl
  | cons j js ih =>
    rw [List.foldlM_cons, hf, List.foldl_cons]
    exact ih

theorem Advances.fold_eq (h : Advances w limit) (hfound : ∀ j, w.found j = false)
    (hf : ∀ s j, f s j = some (g s j)) {fuel : ℕ} (hfuel : limit ≤ i + fuel) :
    fold w f (fuel + 1) i s = some ((visited w limit i).foldl g s) :=
  (h.fold_eq_foldlM hfound f hfuel).trans (foldlM_some hf _)

end Fold

structure Shifted (w w' : Walk) (d : ℕ) : Prop where
  inside : ∀ i, w.inside (i + d) = w'.inside i
  found : ∀ i, w.found (i + d) = w'.found i
  next : ∀ i, w.next (i + d) = w'.next i + d

section Shifted

variable {w' : Walk} {d : ℕ}

theorem Shifted.run (h : Shifted w w' d) (fuel i : ℕ) :
    run w fuel (i + d) = (run w' fuel i).map (Option.map (· + d)) := by
  induction fuel generalizing i with
  | zero => rfl
  | succ fuel ih =>
    rw [CursorWalk.run, CursorWalk.run, h.inside, h.found, h.next, ih]
    cases w'.inside i with
    | false => rfl
    | true =>
      cases w'.found i with
      | false => rfl
      | true => rfl

theorem Shifted.trace (h : Shifted w w' d) (fuel i : ℕ) :
    trace w fuel (i + d) = (trace w' fuel i).map (· + d) := by
  induction fuel generalizing i with
  | zero => rfl
  | succ fuel ih =>
    rw [CursorWalk.trace, CursorWalk.trace, h.inside, h.found, h.next, ih]
    cases w'.inside i with
    | false => rfl
    | true =>
      cases w'.found i with
      | false => rfl
      | true => rfl

theorem Shifted.find (h : Shifted w w' d) (limit i : ℕ) :
    find w limit (i + d) = (find w' (limit - d) i).map (· + d) := by
  rw [CursorWalk.find, CursorWalk.find, h.run, Nat.sub_sub, Nat.add_comm d i]
  cases CursorWalk.run w' (limit - (i + d) + 1) i with
  | none => rfl
  | some r => rfl

end Shifted

end CursorWalk
