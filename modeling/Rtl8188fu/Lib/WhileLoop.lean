import Mathlib.Data.List.Basic
import Mathlib.Tactic.Common

namespace WhileLoop

inductive Turn (S : Type) where
  | again : S → Turn S
  | leave : S → Turn S

structure Loop (S : Type) where
  guard : S → Bool
  body : S → Turn S

variable {S : Type} {l : Loop S} {s t r r' : S}

def run (l : Loop S) : ℕ → S → Option S
  | 0, _ => none
  | fuel + 1, s =>
    if l.guard s then
      match l.body s with
      | .again t => run l fuel t
      | .leave t => some t
    else some s

def Ends (l : Loop S) (s r : S) : Prop := ∃ fuel, run l fuel s = some r

theorem run_done (fuel : ℕ) (h : l.guard s = false) : run l (fuel + 1) s = some s := by
  simp only [run, h, Bool.false_eq_true, if_false]

theorem run_leave (fuel : ℕ) (h : l.guard s = true) (hbody : l.body s = .leave t) :
    run l (fuel + 1) s = some t := by
  simp only [run, h, hbody, if_true]

theorem run_again (fuel : ℕ) (h : l.guard s = true) (hbody : l.body s = .again t) :
    run l (fuel + 1) s = run l fuel t := by
  simp only [run, h, hbody, if_true]

theorem run_mono {fuel : ℕ} (h : run l fuel s = some r) (more : ℕ) :
    run l (fuel + more) s = some r := by
  induction fuel generalizing s with
  | zero => cases h
  | succ fuel ih =>
    rw [Nat.succ_add]
    cases hguard : l.guard s with
    | false =>
      rw [run_done _ hguard] at h ⊢
      exact h
    | true =>
      cases hbody : l.body s with
      | again t =>
        rw [run_again _ hguard hbody] at h ⊢
        exact ih h
      | leave t =>
        rw [run_leave _ hguard hbody] at h ⊢
        exact h

theorem Ends.unique (h : Ends l s r) (h' : Ends l s r') : r = r' := by
  obtain ⟨fuel, hrun⟩ := h
  obtain ⟨fuel', hrun'⟩ := h'
  have hmore := run_mono hrun fuel'
  rw [Nat.add_comm, run_mono hrun' fuel] at hmore
  exact (Option.some.inj hmore).symm

theorem ends_done (h : l.guard s = false) : Ends l s s := ⟨1, run_done 0 h⟩

theorem ends_leave (h : l.guard s = true) (hbody : l.body s = .leave t) : Ends l s t :=
  ⟨1, run_leave 0 h hbody⟩

theorem ends_again (h : l.guard s = true) (hbody : l.body s = .again t) (ht : Ends l t r) :
    Ends l s r := by
  obtain ⟨fuel, hrun⟩ := ht
  exact ⟨fuel + 1, (run_again fuel h hbody).trans hrun⟩

theorem ends_leave_iff (h : l.guard s = true) (hbody : l.body s = .leave t) :
    Ends l s r ↔ r = t := by
  constructor
  · intro hr
    exact hr.unique (ends_leave h hbody)
  · rintro rfl
    exact ends_leave h hbody

theorem ends_again_iff (h : l.guard s = true) (hbody : l.body s = .again t) :
    Ends l s r ↔ Ends l t r := by
  constructor
  · rintro ⟨fuel, hrun⟩
    cases fuel with
    | zero => cases hrun
    | succ fuel =>
      rw [run_again fuel h hbody] at hrun
      exact ⟨fuel, hrun⟩
  · exact ends_again h hbody

theorem not_ends_of_stuck (h : l.guard s = true) (hbody : l.body s = .again s) : ¬ Ends l s r := by
  rintro ⟨fuel, hrun⟩
  induction fuel with
  | zero => cases hrun
  | succ fuel ih =>
    rw [run_again fuel h hbody] at hrun
    exact ih hrun

theorem Ends.run_within (μ : S → ℕ)
    (hless : ∀ s t, l.guard s = true → l.body s = .again t → t = s ∨ μ t < μ s) (h : Ends l s r)
    {fuel : ℕ} (hfuel : μ s < fuel) : run l fuel s = some r := by
  induction fuel generalizing s with
  | zero => exact absurd hfuel (Nat.not_lt_zero _)
  | succ fuel ih =>
    cases hguard : l.guard s with
    | false => rw [run_done fuel hguard, h.unique (ends_done hguard)]
    | true =>
      cases hbody : l.body s with
      | leave t => rw [run_leave fuel hguard hbody, h.unique (ends_leave hguard hbody)]
      | again t =>
        rw [run_again fuel hguard hbody]
        rcases hless s t hguard hbody with rfl | hlt
        · exact absurd h (not_ends_of_stuck hguard hbody)
        · exact ih ((ends_again_iff hguard hbody).mp h) (by omega)

theorem run_of_measure (μ : S → ℕ)
    (hless : ∀ s t, l.guard s = true → l.body s = .again t → μ t < μ s) {fuel : ℕ}
    (hfuel : μ s < fuel) : ∃ r, run l fuel s = some r := by
  induction fuel generalizing s with
  | zero => exact absurd hfuel (Nat.not_lt_zero _)
  | succ fuel ih =>
    cases hguard : l.guard s with
    | false => exact ⟨s, run_done fuel hguard⟩
    | true =>
      cases hbody : l.body s with
      | leave t => exact ⟨t, run_leave fuel hguard hbody⟩
      | again t =>
        have ht : μ t < fuel := by
          have := hless s t hguard hbody
          omega
        obtain ⟨r, hrun⟩ := ih ht
        exact ⟨r, (run_again fuel hguard hbody).trans hrun⟩

theorem ends_of_measure (μ : S → ℕ)
    (hless : ∀ s t, l.guard s = true → l.body s = .again t → μ t < μ s) (s : S) :
    ∃ r, Ends l s r ∧ ∀ fuel, μ s < fuel → run l fuel s = some r := by
  obtain ⟨r, hrun⟩ := run_of_measure μ hless (Nat.lt_succ_self (μ s))
  refine ⟨r, ⟨_, hrun⟩, fun fuel hfuel => ?_⟩
  obtain ⟨r', hrun'⟩ := run_of_measure μ hless hfuel
  rw [hrun', Ends.unique ⟨_, hrun'⟩ ⟨_, hrun⟩]

theorem Ends.invariant {inv post : S → Prop} (h : Ends l s r) (hs : inv s)
    (hdone : ∀ s, inv s → l.guard s = false → post s)
    (hagain : ∀ s t, inv s → l.guard s = true → l.body s = .again t → inv t)
    (hleave : ∀ s t, inv s → l.guard s = true → l.body s = .leave t → post t) : post r := by
  obtain ⟨fuel, hrun⟩ := h
  induction fuel generalizing s with
  | zero => cases hrun
  | succ fuel ih =>
    cases hguard : l.guard s with
    | false =>
      rw [run_done fuel hguard] at hrun
      cases hrun
      exact hdone _ hs hguard
    | true =>
      cases hbody : l.body s with
      | again t =>
        rw [run_again fuel hguard hbody] at hrun
        exact ih (hagain s t hs hguard hbody) hrun
      | leave t =>
        rw [run_leave fuel hguard hbody] at hrun
        cases hrun
        exact hleave s _ hs hguard hbody

def Along (l : Loop S) (ok : S → Prop) : ℕ → S → Prop
  | 0, _ => True
  | fuel + 1, s => l.guard s = true → ok s ∧ ∀ t, l.body s = .again t → Along l ok fuel t

def Throughout (l : Loop S) (ok : S → Prop) (s : S) : Prop := ∀ fuel, Along l ok fuel s

theorem throughout_done {ok : S → Prop} (h : l.guard s = false) : Throughout l ok s := by
  intro fuel
  cases fuel with
  | zero => trivial
  | succ fuel => exact fun hguard => absurd (h.symm.trans hguard) Bool.false_ne_true

theorem throughout_again {ok : S → Prop} (h : l.guard s = true) (hbody : l.body s = .again t) :
    Throughout l ok s ↔ ok s ∧ Throughout l ok t := by
  constructor
  · exact fun hall => ⟨(hall 1 h).1, fun fuel => (hall (fuel + 1) h).2 t hbody⟩
  · rintro ⟨hok, hrest⟩ fuel
    cases fuel with
    | zero => trivial
    | succ fuel =>
      refine fun _ => ⟨hok, fun t' ht' => ?_⟩
      cases hbody.symm.trans ht'
      exact hrest fuel

def turns (l : Loop S) : ℕ → S → Option S
  | 0, s => some s
  | n + 1, s =>
    if l.guard s then
      match l.body s with
      | .again t => turns l n t
      | .leave _ => none
    else none

theorem turns_again (n : ℕ) (h : l.guard s = true) (hbody : l.body s = .again t) :
    turns l (n + 1) s = turns l n t := by
  simp only [turns, h, hbody, if_true]

theorem turns_succ {n : ℕ} (h : turns l (n + 1) s = some r) :
    ∃ t, l.guard s = true ∧ l.body s = .again t ∧ turns l n t = some r := by
  cases hguard : l.guard s with
  | false =>
    simp only [turns, hguard, Bool.false_eq_true, if_false] at h
    cases h
  | true =>
    cases hbody : l.body s with
    | again t =>
      rw [turns_again n hguard hbody] at h
      exact ⟨t, rfl, rfl, h⟩
    | leave t =>
      simp only [turns, hguard, hbody, if_true] at h
      cases h

theorem turns_add {m n : ℕ} (h : turns l m s = some t) : turns l (m + n) s = turns l n t := by
  induction m generalizing s with
  | zero =>
    cases h
    rw [Nat.zero_add]
  | succ m ih =>
    obtain ⟨u, hguard, hbody, hrest⟩ := turns_succ h
    rw [Nat.succ_add, turns_again _ hguard hbody]
    exact ih hrest

theorem throughout_iff_turns {ok : S → Prop} :
    Throughout l ok s ↔ ∀ n t, turns l n s = some t → l.guard t = true → ok t := by
  constructor
  · intro hall n
    induction n generalizing s with
    | zero =>
      rintro t ht hguard
      cases ht
      exact (hall 1 hguard).1
    | succ n ih =>
      intro t ht
      obtain ⟨u, hguard, hbody, hrest⟩ := turns_succ ht
      exact ih ((throughout_again hguard hbody).mp hall).2 t hrest
  · intro hall fuel
    induction fuel generalizing s with
    | zero => trivial
    | succ fuel ih =>
      refine fun hguard => ⟨hall 0 s rfl hguard, fun t hbody => ih fun n r hr => ?_⟩
      rw [← turns_again n hguard hbody] at hr
      exact hall (n + 1) r hr

theorem turns_invariant {inv : S → Prop} (hs : inv s)
    (hagain : ∀ s t, inv s → l.guard s = true → l.body s = .again t → inv t) {n : ℕ}
    (h : turns l n s = some r) : inv r := by
  induction n generalizing s with
  | zero =>
    cases h
    exact hs
  | succ n ih =>
    obtain ⟨t, hguard, hbody, hrest⟩ := turns_succ h
    exact ih (hagain s t hs hguard hbody) hrest

end WhileLoop
