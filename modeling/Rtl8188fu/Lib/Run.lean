import Mathlib.Data.List.Basic
import Mathlib.Data.List.Induction

namespace Run

variable {S E : Type}

def exec (step : S → E → S) (s : S) (es : List E) : S :=
  es.foldl step s

def Each (step : S → E → S) (ok : S → E → Prop) : S → List E → Prop
  | _, [] => True
  | s, e :: es => ok s e ∧ Each step ok (step s e) es

instance eachDecidable (step : S → E → S) (ok : S → E → Prop) [∀ s e, Decidable (ok s e)] :
    (s : S) → (es : List E) → Decidable (Each step ok s es)
  | _, [] => .isTrue trivial
  | s, e :: es =>
    have := eachDecidable step ok (step s e) es
    inferInstanceAs (Decidable (_ ∧ _))

@[simp] theorem exec_nil (step : S → E → S) (s : S) : exec step s [] = s := rfl

@[simp] theorem exec_cons (step : S → E → S) (s : S) (e : E) (es : List E) :
    exec step s (e :: es) = exec step (step s e) es := rfl

@[simp] theorem exec_concat (step : S → E → S) (s : S) (e : E) (es : List E) :
    exec step s (es ++ [e]) = step (exec step s es) e := by
  simp [exec]

@[simp] theorem each_nil (step : S → E → S) (ok : S → E → Prop) (s : S) : Each step ok s [] :=
  trivial

@[simp] theorem each_cons (step : S → E → S) (ok : S → E → Prop) (s : S) (e : E) (es : List E) :
    Each step ok s (e :: es) ↔ ok s e ∧ Each step ok (step s e) es := Iff.rfl

theorem each_append (step : S → E → S) (ok : S → E → Prop) (s : S) (es fs : List E) :
    Each step ok s (es ++ fs) ↔ Each step ok s es ∧ Each step ok (exec step s es) fs := by
  induction es generalizing s with
  | nil => simp
  | cons e es ih => simp [ih, and_assoc]

theorem exec_invariant (step : S → E → S) (inv : S → Prop)
    (hstep : ∀ s e, inv s → inv (step s e)) {s : S} (hs : inv s) (es : List E) :
    inv (exec step s es) := by
  induction es generalizing s with
  | nil => exact hs
  | cons e es ih => exact ih (hstep s e hs)

theorem each_invariant (step : S → E → S) (ok : S → E → Prop) (inv : S → Prop)
    (hstep : ∀ s e, inv s → ok s e → inv (step s e)) {s : S} (hs : inv s) {es : List E}
    (hes : Each step ok s es) : inv (exec step s es) := by
  induction es generalizing s with
  | nil => exact hs
  | cons e es ih => exact ih (hstep s e hs hes.1) hes.2

theorem each_iff (step : S → E → S) (ok good : S → E → Prop) (inv : S → Prop)
    (hiff : ∀ s e, inv s → (ok s e ↔ good s e))
    (hstep : ∀ s e, inv s → ok s e → inv (step s e)) {s : S} (hs : inv s) (es : List E) :
    Each step ok s es ↔ Each step good s es := by
  induction es generalizing s with
  | nil => simp
  | cons e es ih =>
    simp only [each_cons]
    constructor
    · exact fun h => ⟨(hiff s e hs).mp h.1, (ih (hstep s e hs h.1)).mp h.2⟩
    · intro h
      have he := (hiff s e hs).mpr h.1
      exact ⟨he, (ih (hstep s e hs he)).mpr h.2⟩

theorem each_of_each (step : S → E → S) (given good : S → E → Prop) (inv : S → Prop)
    (hgood : ∀ s e, inv s → given s e → good s e)
    (hstep : ∀ s e, inv s → given s e → inv (step s e)) {s : S} (hs : inv s) {es : List E}
    (hes : Each step given s es) : Each step good s es := by
  induction es generalizing s with
  | nil => trivial
  | cons e es ih => exact ⟨hgood s e hs hes.1, ih (hstep s e hs hes.1) hes.2⟩

def total (step : S → E → S) (cost : S → E → ℕ) : S → List E → ℕ
  | _, [] => 0
  | s, e :: es => cost s e + total step cost (step s e) es

theorem total_mul (step : S → E → S) (cost : S → E → ℕ) (k : ℕ) (s : S) (es : List E) :
    total step (fun s e => k * cost s e) s es = k * total step cost s es := by
  induction es generalizing s with
  | nil => rfl
  | cons e es ih => rw [total, total, ih, Nat.mul_add]

theorem potential_bound (step : S → E → S) (ok : S → E → Prop) (inv : S → Prop)
    (potential : S → ℕ) (cost gain : S → E → ℕ)
    (hpay : ∀ s e, inv s → ok s e → potential (step s e) + cost s e ≤ potential s + gain s e)
    (hstep : ∀ s e, inv s → ok s e → inv (step s e)) {s : S} (hs : inv s) {es : List E}
    (hes : Each step ok s es) :
    potential (exec step s es) + total step cost s es ≤ potential s + total step gain s es := by
  induction es generalizing s with
  | nil => exact Nat.le_refl _
  | cons e es ih =>
    have hhead := hpay s e hs hes.1
    have htail := ih (hstep s e hs hes.1) hes.2
    simp only [exec_cons, total]
    omega

def Since (step : S → E → S) (done : S → E → Prop) (holds : S → Prop) (s : S) (es : List E) :
    Prop :=
  ∃ before e rest, es = before ++ e :: rest ∧ done (exec step s before) e ∧
    ∀ mid, mid <+: rest → holds (exec step s (before ++ e :: mid))

theorem Since.concat {step : S → E → S} {done : S → E → Prop} {holds : S → Prop} {s : S}
    {es : List E} (h : Since step done holds s es) {e : E}
    (hholds : holds (exec step s (es ++ [e]))) : Since step done holds s (es ++ [e]) := by
  obtain ⟨before, d, rest, rfl, hdone, hkept⟩ := h
  refine ⟨before, d, rest ++ [e], by simp, hdone, fun mid hmid => ?_⟩
  rcases List.prefix_concat_iff.mp hmid with rfl | hmid
  · simpa using hholds
  · exact hkept mid hmid

theorem Since.of_done {step : S → E → S} {done : S → E → Prop} {holds : S → Prop} {s : S}
    {es : List E} {e : E} (hdone : done (exec step s es) e)
    (hholds : holds (exec step s (es ++ [e]))) : Since step done holds s (es ++ [e]) := by
  refine ⟨es, e, [], rfl, hdone, fun mid hmid => ?_⟩
  rw [List.prefix_nil.mp hmid]
  exact hholds

theorem since_of_each (step : S → E → S) (given done : S → E → Prop) (holds inv : S → Prop)
    (hcause : ∀ s e, inv s → given s e → holds (step s e) → holds s ∨ done s e)
    (hstep : ∀ s e, inv s → given s e → inv (step s e)) {s : S} (hs : inv s) (hinit : ¬ holds s)
    {es : List E} (hes : Each step given s es) (hholds : holds (exec step s es)) :
    Since step done holds s es := by
  induction es using List.reverseRecOn with
  | nil => exact absurd hholds hinit
  | append_singleton es e ih =>
    obtain ⟨hbefore, hgiven, -⟩ := (each_append step given s es [e]).mp hes
    have hinv := each_invariant step given inv hstep hs hbefore
    have hafter : holds (step (exec step s es) e) := by simpa using hholds
    rcases hcause _ e hinv hgiven hafter with hold | hdone
    · exact (ih hbefore hold).concat hholds
    · exact Since.of_done hdone hholds

theorem exec_since (step : S → E → S) (holds : S → Prop) (sets : S → E → Prop) (ends : E → Prop)
    {s : S} (hs : ¬ holds s) (es : List E)
    (hstep : ∀ pre e post, es = pre ++ e :: post →
      (holds (step (exec step s pre) e) ↔
        sets (exec step s pre) e ∨ holds (exec step s pre) ∧ ¬ ends e)) :
    holds (exec step s es) ↔ ∃ pre e post, es = pre ++ e :: post ∧
      sets (exec step s pre) e ∧ ∀ e' ∈ post, ¬ ends e' := by
  induction es using List.reverseRecOn with
  | nil =>
    refine iff_of_false hs ?_
    rintro ⟨pre, e, post, hsplit, -, -⟩
    exact List.cons_ne_nil e post (List.append_eq_nil_iff.mp hsplit.symm).2
  | append_singleton es e ih =>
    have hbefore := ih fun pre e' post hsplit => hstep pre e' (post ++ [e]) (by
      rw [hsplit, List.append_assoc, List.cons_append])
    rw [exec_concat, hstep es e [] rfl, hbefore]
    constructor
    · rintro (hset | ⟨⟨pre, e', post, rfl, hset, hkept⟩, hend⟩)
      · exact ⟨es, e, [], rfl, hset, fun e' he' => absurd he' List.not_mem_nil⟩
      · refine ⟨pre, e', post ++ [e], by rw [List.append_assoc, List.cons_append], hset, ?_⟩
        intro e'' he''
        cases List.mem_append.mp he'' with
        | inl hpost => exact hkept e'' hpost
        | inr hlast => exact List.mem_singleton.mp hlast ▸ hend
    · rintro ⟨pre, e', post, hsplit, hset, hkept⟩
      rcases List.eq_nil_or_concat post with rfl | ⟨post, last, rfl⟩
      · obtain ⟨rfl, hlast⟩ := List.append_inj' hsplit rfl
        obtain rfl := (List.cons.inj hlast).1
        exact .inl hset
      · rw [List.concat_eq_append] at hsplit hkept
        rw [← List.cons_append, ← List.append_assoc] at hsplit
        obtain ⟨rfl, hlast⟩ := List.append_inj' hsplit rfl
        obtain rfl := (List.cons.inj hlast).1
        refine .inr ⟨⟨pre, e', post, rfl, hset, fun e'' he'' => ?_⟩, ?_⟩
        · exact hkept e'' (List.mem_append_left _ he'')
        · exact hkept e (List.mem_append_right _ List.mem_cons_self)

end Run
