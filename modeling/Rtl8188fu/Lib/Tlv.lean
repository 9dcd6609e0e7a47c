import Mathlib.Data.UInt
import Rtl8188fu.Lib.ByteMemory

namespace Tlv

open ByteMemory

@[ext] structure Element where
  id : UInt8
  body : List UInt8
  short : body.length < 256

def Element.bytes (t : Element) : List UInt8 := t.id :: UInt8.ofNat t.body.length :: t.body

def encode (ts : List Element) : List UInt8 := ts.flatMap Element.bytes

variable {m : Mem UInt8} {a : ℕ} {t u : Element} {ts us : List Element} {rest : List UInt8}

@[simp] theorem Element.length_bytes (t : Element) : t.bytes.length = t.body.length + 2 := rfl

theorem Element.toNat_length (t : Element) : (UInt8.ofNat t.body.length).toNat = t.body.length := by
  rw [UInt8.toNat_ofNat']
  exact Nat.mod_eq_of_lt t.short

@[simp] theorem encode_nil : encode [] = [] := rfl

@[simp] theorem encode_cons (t : Element) (ts : List Element) :
    encode (t :: ts) = t.bytes ++ encode ts := List.flatMap_cons

@[simp] theorem encode_append (ts us : List Element) : encode (ts ++ us) = encode ts ++ encode us :=
  List.flatMap_append

theorem encode_eq_nil (h : encode ts = []) : ts = [] := by
  cases ts with
  | nil => rfl
  | cons t ts => exact absurd h nofun

theorem Element.bytes_inj {xs ys : List UInt8} (h : t.bytes ++ xs = u.bytes ++ ys) :
    t = u ∧ xs = ys := by
  obtain ⟨hid, htail⟩ := List.cons.inj h
  obtain ⟨hlen, hbody⟩ := List.cons.inj htail
  have hsize : t.body.length = u.body.length := by
    rw [← t.toNat_length, hlen, u.toNat_length]
  obtain ⟨hsame, hrest⟩ := List.append_inj hbody hsize
  exact ⟨Element.ext hid hsame, hrest⟩

theorem encode_injective : Function.Injective encode := by
  intro ts us h
  induction ts generalizing us with
  | nil => exact (encode_eq_nil h.symm).symm
  | cons t ts ih =>
    cases us with
    | nil => exact absurd h nofun
    | cons u us =>
      rw [encode_cons, encode_cons] at h
      obtain ⟨rfl, hrest⟩ := Element.bytes_inj h
      rw [ih hrest]

section InMemory

theorem holds_id (h : Holds m a (t.bytes ++ rest)) : m a = t.id := h 0 (by simp [Element.bytes])

theorem holds_len (h : Holds m a (t.bytes ++ rest)) : (m (a + 1)).toNat = t.body.length := by
  rw [h 1 (by simp [Element.bytes])]
  exact t.toNat_length

theorem holds_tail (h : Holds m a (t.bytes ++ rest)) : Holds m (a + 2) (t.body ++ rest) := by
  have hsplit : Holds m a ([t.id, UInt8.ofNat t.body.length] ++ (t.body ++ rest)) := h
  exact hsplit.right

theorem holds_elements (h : Holds m a (encode (ts ++ t :: us))) :
    Holds m (a + (encode ts).length) (t.bytes ++ encode us) := by
  rw [encode_append, encode_cons] at h
  exact h.right

end InMemory

def Stuck (bs : List UInt8) : Prop := ∀ (t : Element) (xs : List UInt8), bs ≠ t.bytes ++ xs

theorem exists_encode (bs : List UInt8) : ∃ ts rest, bs = encode ts ++ rest ∧ Stuck rest := by
  induction hsize : bs.length using Nat.strongRecOn generalizing bs with
  | _ size ih =>
    cases Classical.em (Stuck bs) with
    | inl hstuck => exact ⟨[], bs, rfl, hstuck⟩
    | inr hgoes =>
      obtain ⟨t, xs, rfl⟩ : ∃ t xs, bs = Element.bytes t ++ xs := by
        by_contra hnone
        exact hgoes fun t xs heq => hnone ⟨t, xs, heq⟩
      rw [List.length_append, Element.length_bytes] at hsize
      obtain ⟨ts, rest, hts, hstuck⟩ := ih xs.length (by omega) xs rfl
      refine ⟨t :: ts, rest, ?_, hstuck⟩
      rw [encode_cons, List.append_assoc, ← hts]

theorem Stuck.eq_nil (h : Stuck rest) (heq : encode ts ++ rest = encode us) : rest = [] := by
  induction ts generalizing us with
  | nil =>
    cases us with
    | nil => exact heq
    | cons u us => exact absurd heq (h u (encode us))
  | cons t ts ih =>
    cases us with
    | nil => exact absurd heq nofun
    | cons u us =>
      rw [encode_cons, encode_cons, List.append_assoc] at heq
      exact ih (Element.bytes_inj heq).2

theorem Stuck.cases (h : Stuck rest) :
    rest.length < 2 ∨ ∃ id len xs, rest = id :: len :: xs ∧ xs.length < len.toNat := by
  match rest with
  | [] => exact .inl (Nat.succ_pos _)
  | [_] => exact .inl (Nat.lt_succ_self _)
  | id :: len :: xs =>
    refine .inr ⟨id, len, xs, rfl, Nat.lt_of_not_le fun hle => ?_⟩
    have hsize : (xs.take len.toNat).length = len.toNat := List.length_take_of_le hle
    have hshort : (xs.take len.toNat).length < 256 := by
      rw [hsize]
      exact len.toNat_lt
    refine h ⟨id, xs.take len.toNat, hshort⟩ (xs.drop len.toNat) ?_
    simp only [Element.bytes, hsize, UInt8.ofNat_toNat, List.cons_append, List.take_append_drop]

theorem stuck_of_claim {id len : UInt8} {xs : List UInt8} (h : xs.length < len.toNat) :
    Stuck (id :: len :: xs) := by
  intro t ys heq
  obtain ⟨_, htail⟩ := List.cons.inj heq
  obtain ⟨hlen, hbody⟩ := List.cons.inj htail
  have hsize : xs.length = t.body.length + ys.length :=
    (congrArg List.length hbody).trans List.length_append
  rw [hlen, t.toNat_length] at h
  omega

theorem split_first (p : Element → Bool) (ts : List Element) :
    (∀ t ∈ ts, p t = false) ∨
      ∃ pre t post, ts = pre ++ t :: post ∧ (∀ u ∈ pre, p u = false) ∧ p t = true := by
  cases hfind : ts.find? p with
  | none => exact .inl fun t ht => Bool.eq_false_of_not_eq_true (List.find?_eq_none.mp hfind t ht)
  | some t =>
    obtain ⟨ht, pre, post, rfl, hpre⟩ := List.find?_eq_some_iff_append.mp hfind
    exact .inr ⟨pre, t, post, rfl, fun u hu => by simpa using hpre u hu, ht⟩

end Tlv

namespace Tlv

def decodeFrom : ℕ → List UInt8 → List Element × List UInt8
  | 0, bs => ([], bs)
  | fuel + 1, id :: len :: xs =>
    if h : len.toNat ≤ xs.length then
      let r := decodeFrom fuel (xs.drop len.toNat)
      (⟨id, xs.take len.toNat, by rw [List.length_take_of_le h]; exact len.toNat_lt⟩ :: r.1, r.2)
    else ([], id :: len :: xs)
  | _ + 1, bs => ([], bs)

def decode (bs : List UInt8) : List Element × List UInt8 := decodeFrom bs.length bs

variable {t : Element} {ts : List Element} {bs rest xs : List UInt8} {fuel : ℕ}

theorem decodeFrom_element (fuel : ℕ) (t : Element) (xs : List UInt8) :
    decodeFrom (fuel + 1) (t.bytes ++ xs) =
      (t :: (decodeFrom fuel xs).1, (decodeFrom fuel xs).2) := by
  have hsplit : t.bytes ++ xs = t.id :: UInt8.ofNat t.body.length :: (t.body ++ xs) := rfl
  have hroom : (UInt8.ofNat t.body.length).toNat ≤ (t.body ++ xs).length := by
    rw [t.toNat_length, List.length_append]
    exact Nat.le_add_right _ _
  rw [hsplit, decodeFrom, dif_pos hroom]
  simp only [t.toNat_length, List.drop_left, List.take_left]

theorem decodeFrom_stuck (h : Stuck rest) (fuel : ℕ) : decodeFrom fuel rest = ([], rest) := by
  cases fuel with
  | zero => rfl
  | succ fuel =>
    match rest with
    | [] => rfl
    | [_] => rfl
    | id :: len :: xs =>
      have hpast : ¬ len.toNat ≤ xs.length := by
        cases h.cases with
        | inl hshort =>
          rw [List.length_cons, List.length_cons] at hshort
          omega
        | inr hlong =>
          obtain ⟨_, _, _, hsame, hlt⟩ := hlong
          obtain ⟨-, htail⟩ := List.cons.inj hsame
          obtain ⟨rfl, rfl⟩ := List.cons.inj htail
          exact Nat.not_le.mpr hlt
      rw [decodeFrom, dif_neg hpast]

theorem decodeFrom_encode (h : Stuck rest) (hfuel : ts.length ≤ fuel) :
    decodeFrom fuel (encode ts ++ rest) = (ts, rest) := by
  induction ts generalizing fuel with
  | nil => exact decodeFrom_stuck h fuel
  | cons t ts ih =>
    obtain ⟨fuel, rfl⟩ := Nat.exists_eq_add_of_le' (Nat.lt_of_lt_of_le (Nat.succ_pos _) hfuel)
    rw [encode_cons, List.append_assoc, decodeFrom_element, ih (Nat.le_of_succ_le_succ hfuel)]

theorem decode_encode (h : Stuck rest) : decode (encode ts ++ rest) = (ts, rest) := by
  refine decodeFrom_encode h ?_
  have hlen (us : List Element) : us.length ≤ (encode us).length := by
    induction us with
    | nil => exact Nat.le_refl 0
    | cons u us ih =>
      rw [encode_cons, List.length_append, Element.length_bytes, List.length_cons]
      omega
  rw [List.length_append]
  exact Nat.le_trans (hlen ts) (Nat.le_add_right _ _)

theorem encode_decode (bs : List UInt8) :
    encode (decode bs).1 ++ (decode bs).2 = bs ∧ Stuck (decode bs).2 := by
  obtain ⟨ts, rest, rfl, hstuck⟩ := exists_encode bs
  rw [decode_encode hstuck]
  exact ⟨rfl, hstuck⟩

end Tlv
