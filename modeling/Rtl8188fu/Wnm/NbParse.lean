import Mathlib.Data.List.GetD
import Rtl8188fu.Ie.BssDelete
import Rtl8188fu.Lib.Tlv
import Rtl8188fu.Wnm.NbReport

namespace Wnm

open ByteMemory CursorWalk Tlv
open Ie (rtwGetIe rtwGetIeSearch getIeWalk u32Sub asInt)

def foundPref : List Element → List UInt8 → Option UInt8
  | [], id :: _ :: x :: _ => if id = candPrefSubeid then some x else none
  | [], _ => none
  | u :: us, rest => if u.id = candPrefSubeid then u.body.head? else foundPref us rest

theorem foundPref_cons (u : Element) (us : List Element) (rest : List UInt8) :
    foundPref (u :: us) rest =
      if u.id = candPrefSubeid then u.body.head? else foundPref us rest := by
  rw [foundPref]

def areaPref (area : List UInt8) : Option UInt8 := foundPref (decode area).1 (decode area).2

def isPref (u : Element) : Bool := decide (u.id = candPrefSubeid)

def wantPref (area : List UInt8) : UInt8 :=
  (((decode area).1.find? isPref).bind (·.body.head?)).getD 0

def NbRptHdr.fields (h : NbRptHdr) : NbRptHdr := { h with pad := 0 }

def rptOf (t : Element) : NbRptHdr := (nbRptAt (fun i => t.bytes.getD i 0) 0).fields

section Pref

variable {m : Mem UInt8} {base o s : ℕ} {us : List Element} {rest : List UInt8}

def prefWalk (m : Mem UInt8) (base s : ℕ) : Walk := getIeWalk m base candPrefSubeid.toNat (s - 2)

theorem prefWalk_found {i : ℕ} :
    (prefWalk m base s).found i = decide (m (base + i) = candPrefSubeid) := by
  refine decide_eq_decide.mpr ?_
  rw [Nat.cast_inj, UInt8.toNat_inj]

theorem find_stuck (hstuck : Stuck rest) (h : Holds m (base + o) rest) (hs : o + rest.length = s) :
    ((find (prefWalk m base s) (s - 2) o).filter fun i => m (base + i + 1) ≠ 0).map
      (fun i => m (base + i + 2)) = foundPref [] rest := by
  have hadv : Advances (prefWalk m base s) (s - 2) := Ie.getIeWalk_advances m base _ _
  match rest with
  | [] | [_] | [_, _] =>
    have hout : (prefWalk m base s).inside o = false := by
      refine decide_eq_false ?_
      simp only [List.length_cons, List.length_nil] at hs
      omega
    rw [hadv.find_outside hout]
    rfl
  | id :: len :: x :: xs =>
    have hin : (prefWalk m base s).inside o = true := by
      refine decide_eq_true ?_
      simp only [List.length_cons] at hs
      omega
    have hid : m (base + o) = id := h 0 (by simp)
    have hlen : m (base + o + 1) = len := h 1 (by simp)
    have hx : m (base + o + 2) = x := h 2 (by simp)
    have hpast : (x :: xs).length < len.toNat := by
      cases hstuck.cases with
      | inl hshort => simp only [List.length_cons] at hshort; omega
      | inr hlong =>
        obtain ⟨_, _, _, hsame, hlt⟩ := hlong
        obtain ⟨-, htail⟩ := List.cons.inj hsame
        obtain ⟨rfl, rfl⟩ := List.cons.inj htail
        exact hlt
    rw [foundPref]
    cases Decidable.em (id = candPrefSubeid) with
    | inl hhit =>
      have hnonzero : m (base + o + 1) ≠ 0 := by
        rw [hlen]
        rintro rfl
        exact absurd hpast (Nat.not_lt_zero _)
      rw [hadv.find_found hin (prefWalk_found.trans (by rw [hid]; exact decide_eq_true hhit)),
        Option.filter_some, decide_eq_true hnonzero, if_pos rfl, if_pos hhit, Option.map_some, hx]
    | inr hmiss =>
      have hnext : (prefWalk m base s).next o = o + (len.toNat + 2) := by
        rw [← hlen]
        rfl
      have hout : (prefWalk m base s).inside (o + (len.toNat + 2)) = false := by
        refine decide_eq_false ?_
        simp only [List.length_cons] at hs hpast
        omega
      rw [hadv.find_next hin (prefWalk_found.trans (by rw [hid]; exact decide_eq_false hmiss)),
        if_neg hmiss]
      rw [hnext, hadv.find_outside hout]
      rfl

theorem find_pref (hstuck : Stuck rest) (h : Holds m (base + o) (encode us ++ rest))
    (hs : o + (encode us ++ rest).length = s) :
    ((find (prefWalk m base s) (s - 2) o).filter fun i => m (base + i + 1) ≠ 0).map
      (fun i => m (base + i + 2)) = foundPref us rest := by
  have hadv : Advances (prefWalk m base s) (s - 2) := Ie.getIeWalk_advances m base _ _
  induction us generalizing o with
  | nil => exact find_stuck hstuck h hs
  | cons u us ih =>
    rw [encode_cons, List.append_assoc] at h hs
    have hid := holds_id h
    have hlen := holds_len h
    have hnext : (prefWalk m base s).next o = o + u.bytes.length := nextElement_encoded h
    have hrest := h.right
    rw [Nat.add_assoc] at hrest
    rw [List.length_append, Element.length_bytes] at hs
    have hlater := ih hrest (by rw [Element.length_bytes]; omega)
    rw [foundPref]
    cases Nat.lt_or_ge o (s - 2) with
    | inr hout =>
      have hshut : (prefWalk m base s).inside o = false := decide_eq_false (Nat.not_lt.mpr hout)
      have hempty : u.body = [] := List.length_eq_zero_iff.mp (by omega)
      have hnothing : encode us ++ rest = [] := List.length_eq_zero_iff.mp (by omega)
      obtain ⟨hus, hnil⟩ := List.append_eq_nil_iff.mp hnothing
      rw [hadv.find_outside hshut, encode_eq_nil hus, hnil, hempty]
      split <;> rfl
    | inl hin =>
      have hopen : (prefWalk m base s).inside o = true := decide_eq_true hin
      cases Decidable.em (u.id = candPrefSubeid) with
      | inl hhit =>
        rw [hadv.find_found hopen (prefWalk_found.trans (by rw [hid]; exact decide_eq_true hhit)),
          if_pos hhit, Option.filter_some]
        cases hbody : u.body with
        | nil =>
          have hzero : m (base + o + 1) = 0 := by
            rw [hbody, List.length_nil] at hlen
            exact UInt8.toNat_inj.mp hlen
          rw [decide_eq_false (not_not.mpr hzero), if_neg Bool.false_ne_true]
          rfl
        | cons x xs =>
          have hnonzero : m (base + o + 1) ≠ 0 := by
            intro hzero
            rw [hzero, hbody, List.length_cons] at hlen
            exact absurd hlen (Nat.succ_ne_zero _).symm
          have hx : m (base + o + 2) = x := by
            have htail := holds_tail h
            rw [hbody] at htail
            exact htail 0 (Nat.succ_pos _)
          rw [decide_eq_true hnonzero, if_pos rfl, Option.map_some, hx, List.head?_cons]
      | inr hmiss =>
        rw [hadv.find_next hopen (prefWalk_found.trans (by rw [hid]; exact decide_eq_false hmiss)),
          if_neg hmiss]
        rw [hnext]
        exact hlater

theorem prefLimit {len : ℕ} (h : len < 256) : (asInt (u32Sub len 15)).toNat = len - 13 - 2 := by
  cases Nat.lt_or_ge len 15 with
  | inl hlt =>
    have hneg := Ie.u32Sub_short hlt (by decide)
    omega
  | inr hge =>
    rw [Ie.u32Sub_of_le hge, Ie.asInt_small (by omega)]
    omega

variable {t : Element}

theorem holds_area (h : Holds m base (t.bytes ++ rest)) (hbody : 13 ≤ t.body.length) :
    Holds m (base + 15) (t.body.drop 13) := by
  have hcontent := (holds_tail h).left.drop hbody
  rwa [Nat.add_assoc] at hcontent

theorem candPref_found (m : Mem UInt8) (base len : ℕ) (h : len < 256) :
    candPref m base len =
      ((find (prefWalk m (base + 15) (len - 13)) (len - 13 - 2) 0).filter
        fun i => m (base + 15 + i + 1) ≠ 0).map (base + 15 + ·) := by
  rw [candPref, Ie.rtwGetIe_find, prefLimit h, Option.filter_map]
  rfl

theorem candPref_value (h : Holds m base (t.bytes ++ rest)) (hbody : 13 ≤ t.body.length) :
    (candPref m base t.body.length).map (fun op => m (op + 2)) = areaPref (t.body.drop 13) := by
  have harea := holds_area h hbody
  obtain ⟨hsplit, hstuck⟩ := encode_decode (t.body.drop 13)
  have hfound := @find_pref m (base + 15) 0 (t.body.length - 13) _ _ hstuck
    (by rwa [hsplit]) (by rw [hsplit, List.length_drop, Nat.zero_add])
  rw [candPref_found m base _ t.short, Option.map_map]
  exact hfound

theorem candPrefReads_inside :
    ∀ o ∈ candPrefReads m base t.body.length, base ≤ o ∧ o < base + t.bytes.length := by
  intro o ho
  rw [Element.length_bytes]
  rw [candPrefReads, List.mem_append] at ho
  cases ho with
  | inl hwalk =>
    obtain ⟨i, hi, rfl⟩ := List.mem_map.mp hwalk
    obtain ⟨j, hj, hij⟩ := (Ie.getIe_runs _ _ _ _).mem_readOffsets.mp hi
    have hlt : j < (asInt (u32Sub t.body.length 15)).toNat := of_decide_eq_true hj.inside
    rw [prefLimit t.short] at hlt
    have hnear : i = j ∨ i = j + 1 := by
      simpa only [rtwGetIeSearch, List.mem_cons, List.not_mem_nil, or_false] using hij
    omega
  | inr hvalue =>
    obtain ⟨op, hop, rfl⟩ := List.mem_map.mp hvalue
    rw [Option.mem_toList, candPref_found m base _ t.short] at hop
    obtain ⟨j, hj, rfl⟩ := Option.map_eq_some_iff.mp hop
    have hadv : Advances (prefWalk m (base + 15) (t.body.length - 13)) (t.body.length - 13 - 2) :=
      Ie.getIeWalk_advances m (base + 15) _ _
    have hvisits := (hadv.find_eq_some.mp (Option.filter_eq_some_iff.mp hj).1).1
    have hlt := hadv.inside j hvisits.inside
    omega

end Pref

def Complete (t : Element) : Prop := t.id = nbRptElem ∧ 13 ≤ t.body.length

instance (t : Element) : Decidable (Complete t) := inferInstanceAs (Decidable (_ ∧ _))

def Taken (xs : List UInt8) : Prop :=
  7 ≤ xs.length ∧ xs.getD 0 0 = nbRptElem ∧ (xs.getD 1 0).toNat ≤ xs.length

instance (xs : List UInt8) : Decidable (Taken xs) := inferInstanceAs (Decidable (_ ∧ _))

def hdrAt (xs : List UInt8) : NbRptHdr := nbRptAt (fun i => xs.getD i 0) 0

def subelements (t : Element) : List UInt8 := t.body.drop 13

def codePref (fromBtm : Bool) (t : Element) : UInt8 :=
  if fromBtm then (areaPref (subelements t)).getD 0 else 0

def candsOf (fromBtm : Bool) : List Element → List UInt8 → List WnmBtmCant
  | [], _ => []
  | t :: ts, tail =>
    ⟨hdrAt (t.bytes ++ (encode ts ++ tail)), codePref fromBtm t⟩ :: candsOf fromBtm ts tail

def anyPref (fromBtm : Bool) (ts : List Element) : Bool :=
  ts.any fun t => fromBtm && (areaPref (subelements t)).isSome

section Loop

variable {fromBtm : Bool} {m : Mem UInt8} {ptr pend n : ℕ} {t : Element} {ts : List Element}
variable {xs tail : List UInt8}

theorem nbRptAt_eq (h : Holds m ptr xs) (hroom : 16 ≤ xs.length) : nbRptAt m ptr = hdrAt xs := by
  have hbyte (i : ℕ) (hi : i < 16) : m (ptr + i) = xs.getD (0 + i) 0 := by
    rw [Nat.zero_add, h i (Nat.lt_of_lt_of_le hi hroom), List.getD_eq_getElem]
  rw [hdrAt, nbRptAt, nbRptAt, NbRptHdr.mk.injEq]
  refine ⟨hbyte 0 (by decide), hbyte 1 (by decide), ?_, ?_, hbyte 12 (by decide),
    hbyte 13 (by decide), hbyte 14 (by decide), hbyte 15 (by decide)⟩
  · refine Vector.ext fun i hi => ?_
    rw [Vector.getElem_ofFn, Vector.getElem_ofFn, Nat.add_assoc, Nat.add_assoc]
    exact hbyte (2 + i) (by omega)
  · refine Vector.ext fun i hi => ?_
    rw [Vector.getElem_ofFn, Vector.getElem_ofFn, Nat.add_assoc, Nat.add_assoc]
    exact hbyte (8 + i) (by omega)

theorem getD_held (h : Holds m ptr tail) {i : ℕ} (hi : i < tail.length) :
    m (ptr + i) = tail.getD i 0 := by
  rw [List.getD_eq_getElem _ _ hi]
  exact h i hi

theorem length_nbElemLoop (fromBtm : Bool) (m : Mem UInt8) (pend n ptr elemLen subelemLen : ℕ) :
    (nbElemLoop fromBtm m pend n ptr elemLen subelemLen).entries.length ≤ n := by
  induction n generalizing ptr elemLen subelemLen with
  | zero => exact Nat.le_refl 0
  | succ n ih =>
    rw [nbElemLoop]
    split
    · exact Nat.zero_le _
    · split
      · exact Nat.zero_le _
      · exact Nat.succ_le_succ (ih _ _ _)

theorem nbElemLoop_stop (h : Holds m ptr tail) (hpend : ptr + tail.length = pend)
    (hstop : n = 0 ∨ ¬ Taken tail) :
    ∃ reads, nbElemLoop fromBtm m pend n ptr tail.length (m (ptr + 1)).toNat = ⟨[], false, reads⟩ ∧
      ∀ o ∈ reads, ptr ≤ o ∧ o < pend := by
  cases n with
  | zero => exact ⟨[], rfl, fun o ho => absurd ho List.not_mem_nil⟩
  | succ n =>
    have hrefused := hstop.resolve_left (Nat.succ_ne_zero n)
    rw [nbElemLoop]
    cases Decidable.em (pend < ptr + 7 ∨ tail.length < (m (ptr + 1)).toNat) with
    | inl hshut =>
      rw [if_pos hshut]
      exact ⟨[], rfl, fun o ho => absurd ho List.not_mem_nil⟩
    | inr hopen =>
      have hid : m ptr = tail.getD 0 0 := getD_held h (show 0 < tail.length by omega)
      have hlen := getD_held h (show 1 < tail.length by omega)
      have hother : m ptr ≠ nbRptElem := by
        intro hsame
        refine hrefused ⟨by omega, hid.symm.trans hsame, ?_⟩
        rw [← hlen]
        omega
      rw [if_neg hopen, if_pos hother]
      refine ⟨[ptr], rfl, fun o ho => ?_⟩
      rw [List.mem_singleton.mp ho]
      omega

theorem nbElemLoop_takes (h : Holds m ptr tail) (hpend : ptr + tail.length = pend)
    (htaken : Taken tail) :
    (nbElemLoop fromBtm m pend (n + 1) ptr tail.length (m (ptr + 1)).toNat).entries ≠ [] := by
  obtain ⟨hroom, hid, hlen⟩ := htaken
  have hhere : m ptr = nbRptElem := (getD_held h (show 0 < tail.length by omega)).trans hid
  rw [← getD_held h (by omega)] at hlen
  rw [nbElemLoop, if_neg (by omega), if_neg (not_not.mpr hhere)]
  exact List.cons_ne_nil _ _

theorem nbElemLoop_step (h : Holds m ptr (t.bytes ++ xs)) (ht : Complete t)
    (hpend : ptr + (t.bytes ++ xs).length = pend) :
    nbElemLoop fromBtm m pend (n + 1) ptr (t.bytes ++ xs).length (m (ptr + 1)).toNat =
      let next := ptr + t.bytes.length
      let r := nbElemLoop fromBtm m pend n next xs.length (m (next + 1)).toNat
      { entries := ⟨nbRptAt m ptr, codePref fromBtm t⟩ :: r.entries
        bfound := (fromBtm && (areaPref (subelements t)).isSome) || r.bfound
        reads := ptr :: (if fromBtm then candPrefReads m ptr t.body.length else []) ++
          (next + 1) :: (List.range 16).map (ptr + ·) ++ r.reads } := by
  have hid : m ptr = nbRptElem := (holds_id h).trans ht.1
  have hlen := holds_len h
  have hbody := ht.2
  have hvalue := candPref_value h hbody
  rw [List.length_append, Element.length_bytes] at hpend
  have hopen : ¬ (pend < ptr + 7 ∨ (t.bytes ++ xs).length < t.body.length) := by
    rw [List.length_append, Element.length_bytes]
    omega
  have hleft : u32Sub (t.bytes ++ xs).length (t.body.length + 2) = xs.length := by
    rw [List.length_append, Element.length_bytes, Ie.u32Sub_of_le (Nat.le_add_right _ _),
      Nat.add_sub_cancel_left]
  rw [nbElemLoop, hlen, if_neg hopen, if_neg (not_not.mpr hid), hleft]
  cases fromBtm with
  | false => rfl
  | true =>
    have hsome : (candPref m ptr t.body.length).isSome = (areaPref (subelements t)).isSome := by
      rw [subelements, ← hvalue, Option.isSome_map]
    have hbyte : ((candPref m ptr t.body.length).map fun op => m (op + 2)).getD 0 =
        codePref true t := congrArg (Option.getD · 0) hvalue
    simp only [if_true, Bool.true_and, hsome, hbyte, Element.length_bytes]

theorem nbElemLoop_leading (h : Holds m ptr (encode ts ++ tail)) (hts : ∀ t ∈ ts, Complete t)
    (hpend : ptr + (encode ts ++ tail).length = pend) (hn : ts.length ≤ n)
    (hroom : ts = [] ∨ 2 ≤ tail.length) :
    ∃ reads,
      nbElemLoop fromBtm m pend n ptr (encode ts ++ tail).length (m (ptr + 1)).toNat =
        (let next := ptr + (encode ts).length
        let r := nbElemLoop fromBtm m pend (n - ts.length) next tail.length (m (next + 1)).toNat
        ⟨candsOf fromBtm ts tail ++ r.entries, anyPref fromBtm ts || r.bfound, reads ++ r.reads⟩) ∧
      ∀ o ∈ reads, ptr ≤ o ∧ o < pend := by
  induction ts generalizing ptr n with
  | nil => exact ⟨[], rfl, fun o ho => absurd ho List.not_mem_nil⟩
  | cons t ts ih =>
    have htail : 2 ≤ tail.length := hroom.resolve_left (List.cons_ne_nil t ts)
    obtain ⟨n, rfl⟩ := Nat.exists_eq_add_of_le' (Nat.lt_of_lt_of_le (Nat.succ_pos _) hn)
    have ht := hts t List.mem_cons_self
    have hbody := ht.2
    rw [encode_cons, List.append_assoc] at h hpend ⊢
    have hlong : 16 ≤ (t.bytes ++ (encode ts ++ tail)).length := by
      rw [List.length_append, List.length_append, Element.length_bytes]
      omega
    have hnext : ptr + t.bytes.length + (encode ts ++ tail).length = pend := by
      rw [← hpend, @List.length_append _ t.bytes, Nat.add_assoc]
    have hahead : 2 ≤ (encode ts ++ tail).length := by
      rw [List.length_append]
      omega
    obtain ⟨reads, hloop, hreads⟩ := ih h.right (fun u hu => hts u (List.mem_cons_of_mem t hu))
      hnext (Nat.le_of_succ_le_succ hn) (.inr htail)
    refine ⟨ptr :: (if fromBtm then candPrefReads m ptr t.body.length else []) ++
      (ptr + t.bytes.length + 1) :: (List.range 16).map (ptr + ·) ++ reads,
      (nbElemLoop_step h ht hpend).trans ?_, ?_⟩
    · have hend : ptr + (t.bytes ++ encode ts).length = ptr + t.bytes.length + (encode ts).length := by
        rw [List.length_append, Nat.add_assoc]
      simp only [hloop, nbRptAt_eq h hlong]
      rw [hend, List.length_cons, Nat.add_sub_add_right, ElemScan.mk.injEq]
      exact ⟨rfl, (Bool.or_assoc _ _ _).symm, (List.append_assoc _ _ _).symm⟩
    · intro o ho
      have hsize := Element.length_bytes t
      simp only [List.mem_append, List.mem_cons, List.mem_map, List.mem_range] at ho
      rcases ho with ((rfl | hpref) | rfl | ⟨i, hi, rfl⟩) | hlater
      · omega
      · cases fromBtm with
        | false => exact absurd hpref List.not_mem_nil
        | true =>
          have hin := candPrefReads_inside o hpref
          omega
      · omega
      · omega
      · have hin := hreads o hlater
        omega

theorem nbElemLoop_room (h : Holds m ptr (encode ts ++ tail)) (hts : ∀ t ∈ ts, Complete t)
    (hpend : ptr + (encode ts ++ tail).length = pend) (hn : ts.length ≤ n)
    (hreads : ∀ o ∈ (nbElemLoop fromBtm m pend n ptr (encode ts ++ tail).length
      (m (ptr + 1)).toNat).reads, o < pend) : ts = [] ∨ 2 ≤ tail.length := by
  induction ts generalizing ptr n with
  | nil => exact .inl rfl
  | cons t ts ih =>
    obtain ⟨n, rfl⟩ := Nat.exists_eq_add_of_le' (Nat.lt_of_lt_of_le (Nat.succ_pos _) hn)
    have ht := hts t List.mem_cons_self
    rw [encode_cons, List.append_assoc] at h hpend hreads
    have hnext : ptr + t.bytes.length + (encode ts ++ tail).length = pend := by
      rw [← hpend, @List.length_append _ t.bytes, Nat.add_assoc]
    rw [nbElemLoop_step h ht hpend] at hreads
    have hlast := hreads (ptr + t.bytes.length + 1) (by simp)
    refine .inr ((ih h.right (fun u hu => hts u (List.mem_cons_of_mem t hu)) hnext
      (Nat.le_of_succ_le_succ hn) fun o ho => hreads o (List.mem_append_right _ ho)).elim ?_ id)
    rintro rfl
    rw [encode_nil, List.nil_append] at hnext
    omega

end Loop

end Wnm
