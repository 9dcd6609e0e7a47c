import Rtl8188fu.Lib.Tlv

namespace ByteMemory

structure Splice (B : Type) where
  dst : ℕ
  new : List B
  adv : ℕ
  src : ℕ
  len : ℕ

namespace Splice

variable {B : Type} {m : Mem B} {a : ℕ} {xs ys zs : List B} {s : Splice B} {moves : Bool}

def apply (moves : Bool) (s : Splice B) (m : Mem B) : Mem B :=
  if moves then write (write m s.dst s.new) (s.dst + s.adv) (read m s.src s.len)
  else write m s.dst s.new

def laid (moves : Bool) (s : Splice B) (m : Mem B) : List B :=
  read m (if moves then s.src else s.dst + s.adv) s.len

theorem length_laid (moves : Bool) (s : Splice B) (m : Mem B) : (s.laid moves m).length = s.len :=
  length_read m _ _

theorem holds_apply (hpre : Holds m a xs) (hdst : s.dst = a + xs.length)
    (hadv : s.adv = s.new.length) : Holds (s.apply moves m) a (xs ++ (s.new ++ s.laid moves m)) := by
  have hput : Holds (write m s.dst s.new) a (xs ++ s.new) := hpre.write_end hdst
  have hend : s.dst + s.adv = a + (xs ++ s.new).length := by
    rw [hdst, hadv, List.length_append, Nat.add_assoc]
  rw [← List.append_assoc]
  cases moves with
  | true => exact hput.write_end hend
  | false =>
    refine hput.append (.of_read ?_)
    rw [length_laid, ← hend]
    refine read_congr fun i hi _ => write_above m ?_
    rw [← hadv]
    exact hi

theorem holds_new (hadv : s.adv = s.new.length) : Holds (s.apply moves m) s.dst s.new := by
  have hempty : Holds m s.dst [] := fun i hi => absurd hi (Nat.not_lt_zero i)
  have hall : Holds (s.apply moves m) s.dst ([] ++ (s.new ++ s.laid moves m)) :=
    holds_apply hempty rfl hadv
  rw [List.nil_append] at hall
  exact hall.left

theorem holds_apply_iff (hpre : Holds m a xs) (hdst : s.dst = a + xs.length)
    (hadv : s.adv = s.new.length) (hlen : zs.length = s.new.length + s.len) :
    Holds (s.apply moves m) a (xs ++ zs) ↔ s.new ++ s.laid moves m = zs := by
  have hhere : Holds (s.apply moves m) a (xs ++ (s.new ++ s.laid moves m)) :=
    holds_apply hpre hdst hadv
  have hsame : (xs ++ (s.new ++ s.laid moves m)).length = (xs ++ zs).length := by
    rw [List.length_append, List.length_append, List.length_append, length_laid, hlen]
  constructor
  · intro h
    refine List.append_cancel_left_eq xs _ _ |>.mp ?_
    rw [← hhere.read, hsame, h.read]
  · rintro rfl
    exact hhere

end Splice

end ByteMemory

namespace Tlv

open ByteMemory

variable {m : Mem UInt8} {a : ℕ} {p : Element → Bool} {t u : Element}
  {ts us pre old post news : List Element} {s : Splice UInt8} {moves : Bool}

theorem encode_one (t : Element) : encode [t] = t.bytes := by
  rw [encode_cons, encode_nil, List.append_nil]

theorem length_encode_one (t : Element) : (encode [t]).length = t.body.length + 2 := by
  rw [encode_one, Element.length_bytes]

def substFirst (p : Element → Bool) (ts : List Element) : List Element → List Element
  | [] => []
  | u :: us => if p u then ts ++ us else u :: substFirst p ts us

theorem substFirst_absent (h : ∀ u ∈ us, p u = false) (ts : List Element) :
    substFirst p ts us = us := by
  induction us with
  | nil => rfl
  | cons u us ih =>
    obtain ⟨hhead, hrest⟩ := List.forall_mem_cons.mp h
    rw [substFirst, hhead, if_neg Bool.false_ne_true, ih hrest]

theorem substFirst_past (hbefore : ∀ u ∈ pre, p u = false) (ts us : List Element) :
    substFirst p ts (pre ++ us) = pre ++ substFirst p ts us := by
  induction pre with
  | nil => rfl
  | cons u pre ih =>
    obtain ⟨hhead, hrest⟩ := List.forall_mem_cons.mp hbefore
    rw [List.cons_append, substFirst, hhead, if_neg Bool.false_ne_true, ih hrest, List.cons_append]

theorem substFirst_first (hbefore : ∀ u ∈ pre, p u = false) (hhit : p t = true)
    (ts post : List Element) : substFirst p ts (pre ++ t :: post) = pre ++ (ts ++ post) := by
  rw [substFirst_past hbefore, substFirst, if_pos hhit]

theorem find?_first (hbefore : ∀ u ∈ pre, p u = false) (hhit : p t = true) :
    (pre ++ t :: post).find? p = some t := by
  refine List.find?_eq_some_iff_append.mpr ⟨hhit, pre, post, rfl, fun u hu => ?_⟩
  rw [hbefore u hu]
  rfl

theorem substFirst_self_iff (hbefore : ∀ u ∈ pre, p u = false) (hhit : p t = true) :
    substFirst p [u] (pre ++ t :: post) = pre ++ t :: post ↔ u = t := by
  rw [substFirst_first hbefore hhit, List.append_cancel_left_eq, List.singleton_append,
    List.cons_eq_cons, and_iff_left rfl]

theorem substFirst_eq_iff (p : Element → Bool) (u : Element) (ts : List Element) :
    substFirst p [u] ts = ts ↔ ∀ t ∈ ts.find? p, t = u := by
  rcases split_first p ts with hnone | ⟨pre, t, post, rfl, hbefore, hhit⟩
  · refine iff_of_true (substFirst_absent hnone [u]) fun t ht => ?_
    have hmem := List.mem_of_find?_eq_some ht
    exact absurd (List.find?_some ht) (Bool.eq_false_iff.mp (hnone t hmem))
  · rw [substFirst_self_iff hbefore hhit, find?_first hbefore hhit]
    simp only [Option.mem_some_iff, forall_eq', eq_comm]

theorem holds_unique {xs ys : List UInt8} (h : Holds m a (t.bytes ++ xs))
    (h' : Holds m a (u.bytes ++ ys)) : t = u := by
  have hlen : t.bytes.length = u.bytes.length := by
    rw [Element.length_bytes, Element.length_bytes, ← holds_len h, ← holds_len h']
  have hsame : t.bytes = u.bytes := by
    rw [← h.left.read, hlen, h'.left.read]
  exact (Element.bytes_inj (congrArg (· ++ []) hsame)).1

theorem holds_splice_iff {bs : List UInt8} (h : Holds m a (bs ++ encode (pre ++ (old ++ post))))
    (hdst : s.dst = a + (bs ++ encode pre).length) (hnew : s.new = encode news)
    (hadv : s.adv = s.new.length) (hlen : s.len = (encode post).length) :
    Holds (s.apply moves m) a (bs ++ encode (pre ++ (news ++ post))) ↔
      s.laid moves m = encode post := by
  have hpre : Holds m a (bs ++ encode pre) := by
    rw [encode_append, ← List.append_assoc] at h
    exact h.left
  rw [encode_append, ← List.append_assoc, encode_append,
    Splice.holds_apply_iff hpre hdst hadv (by rw [List.length_append, hnew, hlen]), hnew,
    List.append_cancel_left_eq]

theorem laid_iff {bs : List UInt8} (h : Holds m a (bs ++ encode (pre ++ (old ++ post))))
    (hsrc : s.src = a + (bs ++ encode pre).length + (encode old).length)
    (hlen : s.len = (encode post).length) :
    s.laid moves m = encode post ↔
      moves = true ∨ read m (s.dst + s.adv) (encode post).length = encode post := by
  have htail : read m s.src s.len = encode post := by
    rw [encode_append, encode_append, ← List.append_assoc] at h
    have hpost := h.right.right
    rw [← hsrc] at hpost
    exact hpost.read_eq hlen
  rw [Splice.laid]
  cases moves with
  | true => exact iff_of_true htail (.inl rfl)
  | false =>
    rw [if_neg Bool.false_ne_true, hlen]
    exact ⟨.inr, fun h => h.resolve_left Bool.false_ne_true⟩

end Tlv
