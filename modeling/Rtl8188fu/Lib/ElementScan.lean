import Mathlib.Algebra.Order.Group.Int
import Rtl8188fu.Lib.Tlv
import Rtl8188fu.Lib.WhileLoop

namespace ElementScan

open ByteMemory WhileLoop

structure Scan (α : Type) where
  obj : α
  p : ℕ
  len : ℤ
  reach : ℕ
  late : Bool

structure Handler (α : Type) where
  more : α → Bool
  handle : ℕ → α → α
  reads : ℕ → α → ℕ

variable {α C : Type}

def size (mem : Mem UInt8) (p : ℕ) : ℕ := (mem (p + 1)).toNat + 2

def advance (mem : Mem UInt8) (h : Handler α) (s : Scan α) : Scan α where
  obj := h.handle s.p s.obj
  p := s.p + size mem s.p
  len := s.len - size mem s.p
  reach := max s.reach (s.p + max 2 (h.reads s.p s.obj))
  late := s.late || decide (s.len < 0)

def loop (mem : Mem UInt8) (h : Handler α) : Loop (Scan α) where
  guard s := decide (s.len ≠ 0) && h.more s.obj
  body s := .again (advance mem h s)

structure Rules (C : Type) where
  more : C → Bool
  next : ℕ → C → C
  reads : ℕ → C → ℕ
  bad : ℕ → C → Bool

structure Tracks (h : Handler α) (r : Rules C) (abs : α → C) (wild : α → Bool) : Prop where
  more : ∀ a, h.more a = r.more (abs a)
  next : ∀ p a, abs (h.handle p a) = r.next p (abs a)
  reads : ∀ p a, h.reads p a = r.reads p (abs a)
  wild : ∀ p a, wild (h.handle p a) = (wild a || r.bad p (abs a))

inductive Fits (mem : Mem UInt8) (r : Rules C) (n : ℕ) (fin : C → Prop) : ℕ → ℤ → C → Prop
  | done {p : ℕ} {c : C} : fin c → Fits mem r n fin p 0 c
  | full {p : ℕ} {len : ℤ} {c : C} : r.more c = false → fin c → Fits mem r n fin p len c
  | more {p : ℕ} {len : ℤ} {c : C} : 0 < len → r.more c = true →
      p + max 2 (r.reads p c) ≤ n → r.bad p c = false →
      Fits mem r n fin (p + size mem p) (len - size mem p) (r.next p c) → Fits mem r n fin p len c

structure Clean (n : ℕ) (wild : α → Bool) (s : Scan α) : Prop where
  reach : s.reach ≤ n
  late : s.late = false
  wild : wild s.obj = false

section Law

variable {mem : Mem UInt8} {h : Handler α} {r : Rules C} {abs : α → C} {wild : α → Bool} {n : ℕ}
  {fin : C → Prop} {s t : Scan α}

theorem guard_iff : (loop mem h).guard s = true ↔ s.len ≠ 0 ∧ h.more s.obj = true := by
  simp [loop]

theorem guard_false : (loop mem h).guard s = false ↔ s.len = 0 ∨ h.more s.obj = false := by
  rw [← Bool.not_eq_true, guard_iff, not_and_or, not_not, Bool.not_eq_true]

theorem clean_advance (ht : Tracks h r abs wild) :
    Clean n wild (advance mem h s) ↔
      Clean n wild s ∧ 0 ≤ s.len ∧ s.p + max 2 (r.reads s.p (abs s.obj)) ≤ n ∧
        r.bad s.p (abs s.obj) = false := by
  constructor
  · rintro ⟨hreach, hlate, hwild⟩
    rw [advance] at hreach hlate hwild
    dsimp only at hreach hlate hwild
    rw [ht.reads, max_le_iff] at hreach
    rw [Bool.or_eq_false_iff, decide_eq_false_iff_not, not_lt] at hlate
    rw [ht.wild, Bool.or_eq_false_iff] at hwild
    exact ⟨⟨hreach.1, hlate.1, hwild.1⟩, hlate.2, hreach.2, hwild.2⟩
  · rintro ⟨hclean, hlen, hreads, hbad⟩
    refine ⟨?_, ?_, ?_⟩
    · rw [advance, ht.reads]
      exact max_le hclean.reach hreads
    · rw [advance]
      dsimp only
      rw [hclean.late, Bool.false_or, decide_eq_false_iff_not, not_lt]
      exact hlen
    · rw [advance, ht.wild, hclean.wild, hbad]
      rfl

theorem fits_of_guard_false (ht : Tracks h r abs wild) (hguard : (loop mem h).guard s = false)
    (hfin : fin (abs s.obj)) : Fits mem r n fin s.p s.len (abs s.obj) := by
  cases guard_false.mp hguard with
  | inl hzero =>
    rw [hzero]
    exact .done hfin
  | inr hmore =>
    rw [ht.more] at hmore
    exact .full hmore hfin

theorem fits_of_run (ht : Tracks h r abs wild) {fuel : ℕ} (hrun : run (loop mem h) fuel s = some t)
    (hclean : Clean n wild t) (hfin : fin (abs t.obj)) :
    Clean n wild s ∧ Fits mem r n fin s.p s.len (abs s.obj) := by
  induction fuel generalizing s with
  | zero => cases hrun
  | succ fuel ih =>
    cases hguard : (loop mem h).guard s with
    | false =>
      rw [run_done fuel hguard] at hrun
      cases hrun
      exact ⟨hclean, fits_of_guard_false ht hguard hfin⟩
    | true =>
      rw [run_again fuel hguard rfl] at hrun
      obtain ⟨hnext, hfits⟩ := ih hrun
      obtain ⟨hhere, hlen, hreads, hbad⟩ := (clean_advance ht).mp hnext
      obtain ⟨hne, hmore⟩ := guard_iff.mp hguard
      rw [ht.more] at hmore
      refine ⟨hhere, .more (lt_of_le_of_ne hlen hne.symm) hmore hreads hbad ?_⟩
      rw [← ht.next]
      exact hfits

theorem ends_of_fits (ht : Tracks h r abs wild) {p : ℕ} {len : ℤ} {c : C}
    (hfits : Fits mem r n fin p len c) {s : Scan α} (hp : s.p = p) (hlen : s.len = len)
    (hc : abs s.obj = c) (hclean : Clean n wild s) :
    ∃ t, Ends (loop mem h) s t ∧ Clean n wild t ∧ fin (abs t.obj) := by
  induction hfits generalizing s with
  | done hfin =>
    refine ⟨s, ends_done (guard_false.mpr (.inl hlen)), hclean, ?_⟩
    rw [hc]
    exact hfin
  | full hmore hfin =>
    refine ⟨s, ends_done (guard_false.mpr (.inr ?_)), hclean, ?_⟩
    · rw [ht.more, hc]
      exact hmore
    · rw [hc]
      exact hfin
  | more hpos hmore hreads hbad _ ih =>
    subst hp hlen hc
    have hguard : (loop mem h).guard s = true :=
      guard_iff.mpr ⟨ne_of_gt hpos, (ht.more _).trans hmore⟩
    have hnext : Clean n wild (advance mem h s) :=
      (clean_advance ht).mpr ⟨hclean, le_of_lt hpos, hreads, hbad⟩
    obtain ⟨t, hends, hrest⟩ := ih rfl rfl (ht.next _ _) hnext
    exact ⟨t, ends_again hguard rfl hends, hrest⟩

theorem clean_iff_fits (ht : Tracks h r abs wild) :
    (∃ t, Ends (loop mem h) s t ∧ Clean n wild t ∧ fin (abs t.obj)) ↔
      Clean n wild s ∧ Fits mem r n fin s.p s.len (abs s.obj) := by
  constructor
  · rintro ⟨t, ⟨fuel, hrun⟩, hclean, hfin⟩
    exact fits_of_run ht hrun hclean hfin
  · rintro ⟨hclean, hfits⟩
    exact ends_of_fits ht hfits rfl rfl rfl hclean

end Law

section Encoded

open Tlv

variable {mem : Mem UInt8} {h : Handler α} {es fs : List Element} {p : ℕ} {a : α}

def foldAt (h : Handler α) : ℕ → List Element → α → α
  | _, [], a => a
  | p, e :: es, a => foldAt h (p + e.bytes.length) es (h.handle p a)

theorem foldAt_append (h : Handler α) (p : ℕ) (es fs : List Element) (a : α) :
    foldAt h p (es ++ fs) a = foldAt h (p + (encode es).length) fs (foldAt h p es a) := by
  induction es generalizing p a with
  | nil => rfl
  | cons e es ih =>
    rw [List.cons_append, foldAt, ih, foldAt, encode_cons, List.length_append, Nat.add_assoc]

theorem size_holds {e : Element} {rest : List UInt8} (hholds : Holds mem p (e.bytes ++ rest)) :
    size mem p = e.bytes.length := by
  rw [size, holds_len hholds, Element.length_bytes]

theorem ends_encoded (hholds : Holds mem p (encode es))
    (hmore : ∀ pre e post, es = pre ++ e :: post → h.more (foldAt h p pre a) = true) (reach : ℕ) :
    ∃ reach', Ends (loop mem h) ⟨a, p, (encode es).length, reach, false⟩
      ⟨foldAt h p es a, p + (encode es).length, 0, reach', false⟩ := by
  induction es generalizing p a reach with
  | nil => exact ⟨reach, ends_done (guard_false.mpr (.inl rfl))⟩
  | cons e es ih =>
    rw [encode_cons] at hholds ⊢
    have hsize := size_holds hholds
    have hguard : (loop mem h).guard ⟨a, p, (e.bytes ++ encode es).length, reach, false⟩ = true := by
      refine guard_iff.mpr ⟨?_, hmore [] e es rfl⟩
      show ((e.bytes ++ encode es).length : ℤ) ≠ 0
      rw [List.length_append, Element.length_bytes]
      omega
    obtain ⟨reach', hends⟩ := ih (p := p + e.bytes.length) (a := h.handle p a) hholds.right
      (fun pre f post hsplit => hmore (e :: pre) f post (congrArg (e :: ·) hsplit))
      (max reach (p + max 2 (h.reads p a)))
    refine ⟨reach', ends_again hguard rfl ?_⟩
    rw [List.length_append, ← Nat.add_assoc]
    have hnext : advance mem h ⟨a, p, (e.bytes.length + (encode es).length : ℕ), reach, false⟩ =
        ⟨h.handle p a, p + e.bytes.length, (encode es).length,
          max reach (p + max 2 (h.reads p a)), false⟩ := by
      rw [advance, hsize]
      congr 1
      push_cast
      omega
    rw [hnext]
    exact hends

end Encoded

end ElementScan
