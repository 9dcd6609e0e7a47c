import Mathlib.Data.List.Basic
import Mathlib.Tactic.Common

namespace StreamCipher

variable {S B K : Type} (next : S → S × K) (combine : B → K → B)

def run : S → List B → S × List B
  | s, [] => (s, [])
  | s, b :: bs =>
    let r := run (next s).1 bs
    (r.1, combine b (next s).2 :: r.2)

def skip : S → ℕ → S
  | s, 0 => s
  | s, n + 1 => skip (next s).1 n

theorem run_fst (s : S) (bs : List B) : (run next combine s bs).1 = skip next s bs.length := by
  induction bs generalizing s with
  | nil => rfl
  | cons b bs ih => exact ih (next s).1

@[simp] theorem length_run (s : S) (bs : List B) :
    (run next combine s bs).2.length = bs.length := by
  induction bs generalizing s with
  | nil => rfl
  | cons b bs ih => exact congrArg Nat.succ (ih (next s).1)

theorem run_append (s : S) (bs cs : List B) :
    (run next combine s (bs ++ cs)).2 =
      (run next combine s bs).2 ++ (run next combine (skip next s bs.length) cs).2 := by
  induction bs generalizing s with
  | nil => rfl
  | cons b bs ih => exact congrArg (List.cons (combine b (next s).2)) (ih (next s).1)

theorem run_run (hinv : ∀ b k, combine (combine b k) k = b) (s : S) (bs : List B) :
    (run next combine s (run next combine s bs).2).2 = bs := by
  induction bs generalizing s with
  | nil => rfl
  | cons b bs ih =>
    have hrest := ih (next s).1
    simp only [run, hinv, List.cons.injEq, true_and]
    exact hrest

end StreamCipher

namespace BlockMode

section Mask

variable {B K : Type} (combine : B → K → B)

theorem zipWith_twice (hinv : ∀ b k, combine (combine b k) k = b) (bs : List B) (ks : List K)
    (h : bs.length ≤ ks.length) :
    List.zipWith combine (List.zipWith combine bs ks) ks = bs := by
  induction bs generalizing ks with
  | nil => rfl
  | cons b bs ih =>
    cases ks with
    | nil => cases h
    | cons k ks =>
      have hrest := ih ks (Nat.le_of_succ_le_succ h)
      rw [List.zipWith_cons_cons, List.zipWith_cons_cons, hinv, hrest]

theorem zipWith_eq_iff (hinv : ∀ b k, combine (combine b k) k = b) {bs cs : List B} {ks : List K}
    (hb : bs.length ≤ ks.length) (hc : cs.length ≤ ks.length) :
    bs = List.zipWith combine cs ks ↔ List.zipWith combine bs ks = cs := by
  constructor
  · rintro rfl
    exact zipWith_twice combine hinv cs ks hc
  · rintro rfl
    exact (zipWith_twice combine hinv bs ks hb).symm

end Mask

variable {S B K : Type} (w : ℕ) (next : S → S) (pad : S → List K) (combine : B → K → B)

def mask : ℕ → S → List B → List B
  | 0, s, bs => List.zipWith combine bs (pad s)
  | n + 1, s, bs =>
    List.zipWith combine (bs.take w) (pad s) ++ mask n (next s) (bs.drop w)

def stream (s : S) (bs : List B) : List B := mask w next pad combine (bs.length / w) s bs

variable {w next pad combine}

theorem length_mask (hpad : ∀ s, (pad s).length = w) {n : ℕ} {s : S} {bs : List B}
    (h : bs.length ≤ n * w + w) : (mask w next pad combine n s bs).length = bs.length := by
  induction n generalizing s bs with
  | zero =>
    rw [mask, List.length_zipWith, hpad]
    omega
  | succ n ih =>
    have hsplit : (n + 1) * w = n * w + w := Nat.succ_mul n w
    have hrest : (bs.drop w).length ≤ n * w + w := by
      rw [List.length_drop]
      omega
    rw [mask, List.length_append, List.length_zipWith, ih hrest, hpad, List.length_take,
      List.length_drop]
    omega

theorem mask_twice (hpad : ∀ s, (pad s).length = w) (hinv : ∀ b k, combine (combine b k) k = b)
    {n : ℕ} {s : S} {bs : List B} (hwhole : n * w ≤ bs.length) (h : bs.length ≤ n * w + w) :
    mask w next pad combine n s (mask w next pad combine n s bs) = bs := by
  induction n generalizing s bs with
  | zero =>
    rw [mask, mask]
    exact zipWith_twice combine hinv _ _ (by rw [hpad]; omega)
  | succ n ih =>
    have hsplit : (n + 1) * w = n * w + w := Nat.succ_mul n w
    have hfirst : (List.zipWith combine (bs.take w) (pad s)).length = w := by
      rw [List.length_zipWith, hpad, List.length_take]
      omega
    have hback : List.zipWith combine (List.zipWith combine (bs.take w) (pad s)) (pad s) =
        bs.take w := by
      refine zipWith_twice combine hinv _ _ ?_
      rw [hpad]
      exact List.length_take_le w bs
    have hrest : mask w next pad combine n (next s)
        (mask w next pad combine n (next s) (bs.drop w)) = bs.drop w := by
      refine ih ?_ ?_
      · rw [List.length_drop]
        omega
      · rw [List.length_drop]
        omega
    rw [mask, mask, List.take_left' hfirst, List.drop_left' hfirst, hback, hrest,
      List.take_append_drop]

theorem div_bounds (hw : 0 < w) (l : ℕ) : l / w * w ≤ l ∧ l ≤ l / w * w + w :=
  ⟨Nat.div_mul_le_self l w, Nat.le_of_lt (Nat.lt_div_mul_add hw)⟩

theorem length_stream (hw : 0 < w) (hpad : ∀ s, (pad s).length = w) (s : S) (bs : List B) :
    (stream w next pad combine s bs).length = bs.length :=
  length_mask hpad (div_bounds hw bs.length).2

theorem stream_twice (hw : 0 < w) (hpad : ∀ s, (pad s).length = w)
    (hinv : ∀ b k, combine (combine b k) k = b) (s : S) (bs : List B) :
    stream w next pad combine s (stream w next pad combine s bs) = bs := by
  have hlen : (mask w next pad combine (bs.length / w) s bs).length = bs.length :=
    length_stream hw hpad s bs
  rw [stream, stream, hlen]
  exact mask_twice hpad hinv (div_bounds hw bs.length).1 (div_bounds hw bs.length).2

end BlockMode

structure Sealing (P C T : Type) where
  tag : P → T
  hide : T → P → C
  reveal : T → C → P
  reveal_hide : ∀ t p, reveal t (hide t p) = p
  hide_reveal : ∀ t c, hide t (reveal t c) = c

namespace Sealing

variable {P C T : Type} (s : Sealing P C T)

def wrap (p : P) : C × T := (s.hide (s.tag p) p, s.tag p)

def unwrap [DecidableEq T] (c : C) (t : T) : Option P :=
  if s.tag (s.reveal t c) = t then some (s.reveal t c) else none

theorem unwrap_eq_some [DecidableEq T] {c : C} {t : T} {p : P} :
    s.unwrap c t = some p ↔ s.wrap p = (c, t) := by
  unfold unwrap wrap
  constructor
  · intro h
    obtain ⟨htag, hp⟩ := Option.ite_none_right_eq_some.mp h
    obtain rfl := Option.some.inj hp
    rw [htag, s.hide_reveal]
  · intro h
    obtain ⟨hc, rfl⟩ := Prod.mk.inj h
    subst hc
    rw [s.reveal_hide, if_pos rfl]

end Sealing
