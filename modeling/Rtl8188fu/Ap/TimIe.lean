import Mathlib.Data.UInt
import Rtl8188fu.Lib.ByteMemory

namespace Ap

open ByteMemory

structure TimBmp where
  bytes : List UInt8
  nonempty : 0 < bytes.length
  bounded : bytes.length ≤ 251

def bmpByte (bmp : List UInt8) (i : ℕ) : UInt8 := bmp.getD i 0

def rtwBmpIsSet (bmp : List UInt8) (id : ℕ) : Bool := (bmpByte bmp (id / 8)).toNat.testBit (id % 8)

def rtwBmpNotEmpty (bmp : List UInt8) : Bool := bmp.any fun b => b ≠ 0

def firstOctet (bmp : List UInt8) : ℕ :=
  ((List.range bmp.length).find? fun i => bmpByte bmp i ≠ 0).getD bmp.length

def lastOctet (bmp : List UInt8) : ℕ :=
  ((List.range bmp.length).reverse.find? fun i => 0 < i ∧ bmpByte bmp i ≠ 0).getD 0

structure TimSpan where
  n1 : UInt8
  bmpLen : UInt8

def timSpan (bmp : List UInt8) : TimSpan :=
  if rtwBmpNotEmpty bmp then
    let n1 := UInt8.ofNat (firstOctet bmp) &&& 0xfe
    ⟨n1, UInt8.ofNat (lastOctet bmp) - n1 + 1⟩
  else ⟨0, 1⟩

def eidTim : UInt8 := 5

def timIe (dtimCnt dtimPeriod : UInt8) (bmp : List UInt8) : List UInt8 :=
  let s := timSpan bmp
  ([eidTim, 2 + 1 + s.bmpLen, dtimCnt, dtimPeriod,
    (if rtwBmpIsSet bmp 0 then 1 else 0) ||| s.n1] : List UInt8) ++
      (bmp.drop s.n1.toNat).take s.bmpLen.toNat

structure TimSet where
  mem : Mem UInt8
  ret : UInt8

def rtwSetTimIe (m : Mem UInt8) (dtimCnt dtimPeriod : UInt8) (bmp : List UInt8) (timIePtr : ℕ) :
    TimSet :=
  ⟨write m timIePtr (timIe dtimCnt dtimPeriod bmp), 2 + 2 + 1 + (timSpan bmp).bmpLen⟩

section Decode

variable (ie : List UInt8)

def timControl : UInt8 := ie.getD 4 0

def timOffset : ℕ := 2 * (timControl ie >>> 1).toNat

def timPartial : List UInt8 := (ie.drop 5).take ((ie.getD 1 0).toNat - 3)

def timGroup : Bool := timControl ie &&& 1 ≠ 0

def timBit (aid : ℕ) : Bool :=
  decide (timOffset ie ≤ aid / 8) &&
    ((timPartial ie).getD (aid / 8 - timOffset ie) 0).toNat.testBit (aid % 8)

end Decode

structure Announces (bmp : List UInt8) (ie : List UInt8) : Prop where
  group : timGroup ie = rtwBmpIsSet bmp 0
  stations : ∀ aid ≥ 1, timBit ie aid = rtwBmpIsSet bmp aid
  length : (ie.getD 1 0).toNat + 2 = ie.length

section Span

variable {bmp : List UInt8} {i : ℕ}

theorem bmpByte_inside (h : i < bmp.length) : bmpByte bmp i = bmp[i] := by
  rw [bmpByte, List.getD_eq_getElem?_getD, List.getElem?_eq_getElem h]
  rfl

theorem bmpByte_outside (h : bmp.length ≤ i) : bmpByte bmp i = 0 := by
  rw [bmpByte, List.getD_eq_getElem?_getD, List.getElem?_eq_none h]
  rfl

theorem lt_of_bmpByte (h : bmpByte bmp i ≠ 0) : i < bmp.length := by
  by_contra hout
  exact h (bmpByte_outside (Nat.le_of_not_lt hout))

theorem notEmpty_iff : rtwBmpNotEmpty bmp = true ↔ ∃ i, bmpByte bmp i ≠ 0 := by
  simp only [rtwBmpNotEmpty, List.any_eq_true, decide_eq_true_eq]
  constructor
  · rintro ⟨b, hb, hne⟩
    obtain ⟨i, hi, rfl⟩ := List.getElem_of_mem hb
    exact ⟨i, by rwa [bmpByte_inside hi]⟩
  · rintro ⟨i, hne⟩
    have hi := lt_of_bmpByte hne
    rw [bmpByte_inside hi] at hne
    exact ⟨_, List.getElem_mem hi, hne⟩

theorem before_firstOctet (h : i < firstOctet bmp) : bmpByte bmp i = 0 := by
  cases Nat.lt_or_ge i bmp.length with
  | inr hout => exact bmpByte_outside hout
  | inl hi =>
    by_contra hne
    cases hfind : (List.range bmp.length).find? fun i => bmpByte bmp i ≠ 0 with
    | none =>
      have hall := List.find?_eq_none.mp hfind i (List.mem_range.mpr hi)
      exact hall (decide_eq_true hne)
    | some k =>
      rw [firstOctet, hfind, Option.getD_some] at h
      have hbefore := (List.find?_range_eq_some.mp hfind).2.2 i h
      simp [hne] at hbefore

theorem firstOctet_lt (h : rtwBmpNotEmpty bmp = true) : firstOctet bmp < bmp.length := by
  obtain ⟨i, hne⟩ := notEmpty_iff.mp h
  have hi := lt_of_bmpByte hne
  by_contra hout
  exact hne (before_firstOctet (by omega))

theorem firstOctet_ne (h : rtwBmpNotEmpty bmp = true) : bmpByte bmp (firstOctet bmp) ≠ 0 := by
  obtain ⟨i, hne⟩ := notEmpty_iff.mp h
  cases hfind : (List.range bmp.length).find? fun i => bmpByte bmp i ≠ 0 with
  | none =>
    have hall := List.find?_eq_none.mp hfind i (List.mem_range.mpr (lt_of_bmpByte hne))
    exact absurd (decide_eq_true hne) hall
  | some k =>
    rw [firstOctet, hfind, Option.getD_some]
    have hfound := List.find?_some hfind
    exact of_decide_eq_true hfound

theorem lastOctet_ne (h : 0 < lastOctet bmp) : bmpByte bmp (lastOctet bmp) ≠ 0 := by
  cases hfind : (List.range bmp.length).reverse.find? fun i => 0 < i ∧ bmpByte bmp i ≠ 0 with
  | none =>
    rw [lastOctet, hfind] at h
    exact absurd h (Nat.lt_irrefl 0)
  | some k =>
    rw [lastOctet, hfind, Option.getD_some]
    have hfound := List.find?_some hfind
    exact (of_decide_eq_true hfound).2

theorem after_lastOctet (hpos : 0 < i) (h : lastOctet bmp < i) : bmpByte bmp i = 0 := by
  by_contra hne
  have hi := lt_of_bmpByte hne
  cases hfind : (List.range bmp.length).reverse.find? fun i => 0 < i ∧ bmpByte bmp i ≠ 0 with
  | none =>
    have hall := List.find?_eq_none.mp hfind i (by simpa using hi)
    exact hall (decide_eq_true ⟨hpos, hne⟩)
  | some k =>
    rw [lastOctet, hfind, Option.getD_some] at h
    obtain ⟨hk, pre, post, hsplit, hpre⟩ := List.find?_eq_some_iff_append.mp hfind
    have hsorted : (pre ++ k :: post).Pairwise (· > ·) := by
      rw [← hsplit, List.pairwise_reverse]
      exact List.pairwise_lt_range
    have hmem : i ∈ pre ++ k :: post := by
      rw [← hsplit]
      simpa using hi
    rw [List.mem_append, List.mem_cons] at hmem
    rcases hmem with hmem | rfl | hmem
    · have hfalse := hpre i hmem
      simp [hne, hpos] at hfalse
    · exact absurd h (Nat.lt_irrefl _)
    · have hlt := (List.pairwise_cons.mp (List.pairwise_append.mp hsorted).2.1).1 i hmem
      omega

theorem lastOctet_lt (h : 0 < bmp.length) : lastOctet bmp < bmp.length := by
  cases hfind : (List.range bmp.length).reverse.find? fun i => 0 < i ∧ bmpByte bmp i ≠ 0 with
  | none => rwa [lastOctet, hfind]
  | some k =>
    rw [lastOctet, hfind, Option.getD_some]
    simpa using List.mem_of_find?_eq_some hfind

theorem firstOctet_even_le (h : rtwBmpNotEmpty bmp = true) :
    firstOctet bmp / 2 * 2 ≤ lastOctet bmp := by
  have hfirst : firstOctet bmp ≤ lastOctet bmp ∨ firstOctet bmp = 0 := by
    by_contra hboth
    obtain ⟨i, hne⟩ := notEmpty_iff.mp h
    cases Nat.lt_or_ge i (firstOctet bmp) with
    | inl hlt => exact hne (before_firstOctet hlt)
    | inr hge => exact hne (after_lastOctet (by omega) (by omega))
  omega

end Span

theorem even_octet {n : ℕ} (h : n < 256) : (UInt8.ofNat n &&& 0xfe).toNat = n / 2 * 2 := by
  have hall : ∀ k : Fin 256, (UInt8.ofNat k.val &&& 0xfe).toNat = k.val / 2 * 2 := by
    decide +kernel
  exact hall ⟨n, h⟩

structure SpanLaw (bmp : List UInt8) (lo len : ℕ) : Prop where
  n1 : (timSpan bmp).n1.toNat = lo
  bmpLen : (timSpan bmp).bmpLen.toNat = len
  even : lo % 2 = 0
  within : lo + len ≤ bmp.length
  positive : 0 < len
  low : ∀ i < lo, bmpByte bmp i = 0
  high : ∀ i, lo + len ≤ i → bmpByte bmp i = 0
  front : len = 1 ∨ bmpByte bmp lo ≠ 0 ∨ bmpByte bmp (lo + 1) ≠ 0
  back : len = 1 ∨ bmpByte bmp (lo + len - 1) ≠ 0

theorem timSpan_law (b : TimBmp) : ∃ lo len, SpanLaw b.bytes lo len := by
  have hpos := b.nonempty
  have hbound := b.bounded
  cases hempty : rtwBmpNotEmpty b.bytes with
  | false =>
    have hnone : ∀ i, bmpByte b.bytes i = 0 := by
      intro i
      by_contra hne
      rw [notEmpty_iff.mpr ⟨i, hne⟩] at hempty
      cases hempty
    have hspan : timSpan b.bytes = ⟨0, 1⟩ := by
      rw [timSpan, hempty]
      rfl
    refine ⟨0, 1, ?_, ?_, rfl, by omega, Nat.one_pos, fun i _ => hnone i, fun i _ => hnone i,
      .inl rfl, .inl rfl⟩
    · rw [hspan]
      rfl
    · rw [hspan]
      rfl
  | true =>
    have hfirst := firstOctet_lt hempty
    have hlast := lastOctet_lt hpos
    have hle := firstOctet_even_le hempty
    have hn1 : (UInt8.ofNat (firstOctet b.bytes) &&& 0xfe).toNat =
        firstOctet b.bytes / 2 * 2 := even_octet (by omega)
    have hn2 : (UInt8.ofNat (lastOctet b.bytes)).toNat = lastOctet b.bytes := by
      rw [UInt8.toNat_ofNat']
      exact Nat.mod_eq_of_lt (by omega)
    have hspan : timSpan b.bytes = ⟨UInt8.ofNat (firstOctet b.bytes) &&& 0xfe,
        UInt8.ofNat (lastOctet b.bytes) - (UInt8.ofNat (firstOctet b.bytes) &&& 0xfe) + 1⟩ := by
      rw [timSpan, hempty]
      rfl
    refine ⟨firstOctet b.bytes / 2 * 2, lastOctet b.bytes - firstOctet b.bytes / 2 * 2 + 1, ?_, ?_,
      by omega, by omega, Nat.succ_pos _, fun i hi => before_firstOctet (by omega),
      fun i hi => after_lastOctet (by omega) (by omega), .inr ?_, ?_⟩
    · rw [hspan]
      exact hn1
    · rw [hspan]
      dsimp only
      have hone : (1 : UInt8).toNat = 1 := rfl
      rw [UInt8.toNat_add, UInt8.toNat_sub, hn1, hn2, hone]
      omega
    · have hfront := firstOctet_ne hempty
      cases Nat.mod_two_eq_zero_or_one (firstOctet b.bytes) with
      | inl heven =>
        have hlo : firstOctet b.bytes / 2 * 2 = firstOctet b.bytes := by omega
        exact .inl (by rwa [hlo])
      | inr hodd =>
        have hlo : firstOctet b.bytes / 2 * 2 + 1 = firstOctet b.bytes := by omega
        exact .inr (by rwa [hlo])
    · cases Nat.eq_zero_or_pos (lastOctet b.bytes) with
      | inl hzero =>
        left
        omega
      | inr hback =>
        have hhi : firstOctet b.bytes / 2 * 2 +
            (lastOctet b.bytes - firstOctet b.bytes / 2 * 2 + 1) - 1 = lastOctet b.bytes := by
          omega
        exact .inr (by
          rw [hhi]
          exact lastOctet_ne hback)

section Element

variable {bmp : List UInt8} {lo len : ℕ}

theorem length_timIe (h : SpanLaw bmp lo len) (cnt period : UInt8) :
    (timIe cnt period bmp).length = 5 + len := by
  have hwithin := h.within
  rw [timIe, List.length_append, h.n1, h.bmpLen, List.length_take, List.length_drop,
    Nat.min_eq_left (by omega)]
  rfl

theorem control_law {n : ℕ} (h : n < 256) (heven : n % 2 = 0) (b : Bool) :
    2 * (((if b then 1 else 0) ||| UInt8.ofNat n) >>> (1 : UInt8)).toNat = n ∧
      decide ((((if b then 1 else 0) ||| UInt8.ofNat n) &&& (1 : UInt8)) ≠ 0) = b := by
  have hall : ∀ (b : Bool) (k : Fin 256), k.val % 2 = 0 →
      2 * (((if b then 1 else 0) ||| UInt8.ofNat k.val) >>> (1 : UInt8)).toNat = k.val ∧
        decide ((((if b then 1 else 0) ||| UInt8.ofNat k.val) &&& (1 : UInt8)) ≠ 0) = b := by
    decide +kernel
  exact hall b ⟨n, h⟩ heven

theorem timPartial_eq (h : SpanLaw bmp lo len) (hbound : bmp.length ≤ 251) (cnt period : UInt8) :
    timPartial (timIe cnt period bmp) = (bmp.drop lo).take len := by
  have hwithin := h.within
  have hlen : ((timIe cnt period bmp).getD 1 0).toNat = 3 + len := by
    change (2 + 1 + (timSpan bmp).bmpLen : UInt8).toNat = _
    have hthree : (2 + 1 : UInt8).toNat = 3 := rfl
    rw [UInt8.toNat_add, h.bmpLen, hthree]
    omega
  have hdrop : (timIe cnt period bmp).drop 5 =
      (bmp.drop (timSpan bmp).n1.toNat).take (timSpan bmp).bmpLen.toNat := rfl
  rw [timPartial, hlen, Nat.add_sub_cancel_left, hdrop, h.n1, h.bmpLen, List.take_take,
    Nat.min_self]

theorem timIe_announces (h : SpanLaw bmp lo len) (hbound : bmp.length ≤ 251) (cnt period : UInt8) :
    Announces bmp (timIe cnt period bmp) := by
  have hwithin := h.within
  have hpos := h.positive
  have hn1 : (timSpan bmp).n1 = UInt8.ofNat lo := by
    rw [← h.n1, UInt8.ofNat_toNat]
  have hcontrol : timControl (timIe cnt period bmp) =
      (if rtwBmpIsSet bmp 0 then 1 else 0) ||| UInt8.ofNat lo := by
    rw [← hn1]
    rfl
  obtain ⟨hoffset, hgroup⟩ := control_law (by omega) h.even (rtwBmpIsSet bmp 0)
  rw [← hcontrol] at hoffset hgroup
  refine ⟨hgroup, fun aid _ => ?_, ?_⟩
  · have hoff : timOffset (timIe cnt period bmp) = lo := hoffset
    rw [timBit, hoff, timPartial_eq h hbound, rtwBmpIsSet]
    cases Nat.lt_or_ge (aid / 8) lo with
    | inl hlow =>
      rw [h.low _ hlow, decide_eq_false (Nat.not_le_of_lt hlow)]
      simp
    | inr hge =>
      rw [decide_eq_true hge, Bool.true_and]
      cases Nat.lt_or_ge (aid / 8) (lo + len) with
      | inl hin =>
        have hbyte : ((bmp.drop lo).take len).getD (aid / 8 - lo) 0 = bmpByte bmp (aid / 8) := by
          rw [bmpByte, List.getD_eq_getElem?_getD, List.getD_eq_getElem?_getD,
            List.getElem?_take_of_lt (by omega), List.getElem?_drop]
          exact congrArg (fun k => (bmp[k]?).getD 0) (by omega)
        rw [hbyte]
      | inr hout =>
        rw [h.high _ hout, List.getD_eq_getElem?_getD, List.getElem?_eq_none (by
          rw [List.length_take]
          omega)]
        rfl
  · rw [length_timIe h]
    change (2 + 1 + (timSpan bmp).bmpLen : UInt8).toNat + 2 = _
    have hthree : (2 + 1 : UInt8).toNat = 3 := rfl
    rw [UInt8.toNat_add, h.bmpLen, hthree]
    omega

end Element

structure FullSpan (bmp : List UInt8) : Prop where
  length : bmp.length = 251
  front : bmpByte bmp 0 ≠ 0 ∨ bmpByte bmp 1 ≠ 0
  back : bmpByte bmp 250 ≠ 0

structure TimRight (m : Mem UInt8) (bmp : List UInt8) (timIePtr n : ℕ) (r : TimSet) : Prop where
  announces : Announces bmp (read r.mem timIePtr n)
  returned : r.ret.toNat = n
  outside : ∀ i, i < timIePtr ∨ timIePtr + n ≤ i → r.mem i = m i

section Returned

variable {bmp : List UInt8} {lo len : ℕ}

theorem FullSpan.span (hfull : FullSpan bmp) (h : SpanLaw bmp lo len) : lo = 0 ∧ len = 251 := by
  have hlength := hfull.length
  have hwithin := h.within
  have heven := h.even
  have hlo : lo ≤ 1 := by
    by_contra hgt
    cases hfull.front with
    | inl hne => exact hne (h.low 0 (by omega))
    | inr hne => exact hne (h.low 1 (by omega))
  have hhi : 250 < lo + len := by
    by_contra hle
    exact hfull.back (h.high 250 (by omega))
  omega

theorem fullSpan_of_span (hbound : bmp.length ≤ 251) (h : SpanLaw bmp lo 251) :
    FullSpan bmp := by
  have hwithin := h.within
  have hlo : lo = 0 := by omega
  subst hlo
  refine ⟨by omega, ?_, ?_⟩
  · cases h.front with
    | inl hone => omega
    | inr hfront => exact hfront
  · cases h.back with
    | inl hone => omega
    | inr hback => exact hback

theorem returned_length (h : SpanLaw bmp lo len) (hbound : bmp.length ≤ 251) (m : Mem UInt8)
    (cnt period : UInt8) (timIePtr : ℕ) :
    (rtwSetTimIe m cnt period bmp timIePtr).ret.toNat = (timIe cnt period bmp).length ↔
      len ≠ 251 := by
  have hwithin := h.within
  have hret : (rtwSetTimIe m cnt period bmp timIePtr).ret.toNat = (5 + len) % 256 := by
    change (2 + 2 + 1 + (timSpan bmp).bmpLen : UInt8).toNat = _
    have hfive : (2 + 2 + 1 : UInt8).toNat = 5 := rfl
    rw [UInt8.toNat_add, h.bmpLen, hfive]
  rw [hret, length_timIe h]
  omega

end Returned

theorem tim_law (m : Mem UInt8) (dtimCnt dtimPeriod : UInt8) (b : TimBmp) (timIePtr : ℕ) :
    TimRight m b.bytes timIePtr (timIe dtimCnt dtimPeriod b.bytes).length
        (rtwSetTimIe m dtimCnt dtimPeriod b.bytes timIePtr) ↔ ¬ FullSpan b.bytes := by
  obtain ⟨lo, len, h⟩ := timSpan_law b
  have hbound := b.bounded
  have hret := returned_length h hbound m dtimCnt dtimPeriod timIePtr
  constructor
  · intro hright hfull
    exact hret.mp hright.returned (hfull.span h).2
  · intro hnot
    have hlen : len ≠ 251 := by
      rintro rfl
      exact hnot (fullSpan_of_span hbound h)
    refine ⟨?_, hret.mpr hlen, fun i hi => ?_⟩
    · have hie : read (rtwSetTimIe m dtimCnt dtimPeriod b.bytes timIePtr).mem timIePtr
          (timIe dtimCnt dtimPeriod b.bytes).length = timIe dtimCnt dtimPeriod b.bytes :=
        (holds_write m timIePtr _).read_eq rfl
      rw [hie]
      exact timIe_announces h hbound dtimCnt dtimPeriod
    · cases hi with
      | inl hlow => exact write_below m _ hlow
      | inr hhigh => exact write_above m hhigh

def wholeBmp : TimBmp where
  bytes := 2 :: (List.replicate 249 0 ++ [128])
  nonempty := Nat.succ_pos _
  bounded := by decide +kernel

theorem whole_map_returns_zero :
    (rtwSetTimIe (fun _ => 0) 0 1 wholeBmp.bytes 0).ret = 0 ∧
      (timIe 0 1 wholeBmp.bytes).length = 256 ∧
      ¬ TimRight (fun _ => 0) wholeBmp.bytes 0 (timIe 0 1 wholeBmp.bytes).length
          (rtwSetTimIe (fun _ => 0) 0 1 wholeBmp.bytes 0) := by
  have hlen : (timIe 0 1 wholeBmp.bytes).length = 256 := by
    decide +kernel
  have hret : (rtwSetTimIe (fun _ => 0) 0 1 wholeBmp.bytes 0).ret = 0 := by
    change (2 + 2 + 1 + (timSpan wholeBmp.bytes).bmpLen : UInt8) = 0
    decide +kernel
  refine ⟨hret, hlen, fun hright => ?_⟩
  have hreturned := hright.returned
  rw [hret, hlen] at hreturned
  cases hreturned

example : timIe 0 1 [1, 0, 0, 0x10] = ([5, 7, 0, 1, 1, 1, 0, 0, 0x10] : List UInt8) := by
  decide

example : timIe 0 1 [0, 0, 0, 0x10] = ([5, 5, 0, 1, 2, 0, 0x10] : List UInt8) := by
  decide

end Ap
