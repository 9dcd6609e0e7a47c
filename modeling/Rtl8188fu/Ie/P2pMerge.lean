import Rtl8188fu.Ie.RemoveIe

namespace Ie

open ByteMemory CursorWalk Tlv

structure Merged where
  bytes : List UInt8
  len : UInt8

def elOui : List UInt8 := eidVendorSpecific :: 0x00 :: p2pOui

def ieListWalk (m : Mem) (inIe inLen : ℕ) : Walk where
  inside i := decide (i < inLen)
  found _ := false
  next i := nextElement m inIe i

def addP2pLen (m : Mem) (inIe : ℕ) (len : ℤ) (i : ℕ) : ℤ :=
  if isVendorIe m p2pOui (inIe + i) then len + ((m (inIe + i + 1)).toNat - 4) else len

def rtwGetP2pMergedIesLen (m : Mem) (inIe inLen : ℕ) : Option ℕ :=
  (fold (ieListWalk m inIe inLen) (fun len i => some (addP2pLen m inIe len i)) (inLen + 1) 0
    0).map fun len => ((len + 4) % 2 ^ 32).toNat

def mergeP2pIe (m : Mem) (inIe : ℕ) (s : Merged) (i : ℕ) : Option Merged :=
  if isVendorIe m p2pOui (inIe + i) then
    let length := (m (inIe + i + 1)).toNat
    -- the size handed to memcpy is unsigned: below the OUI the copy leaves every buffer
    if length < 4 then none
    else some ⟨s.bytes ++ read m (inIe + i + 2 + 4) (length - 4), s.len + UInt8.ofNat (length - 4)⟩
  else some s

def rtwP2pMergeIes (m : Mem) (inIe inLen mergeIe : ℕ) : Option (List UInt8 × ℕ) :=
  if mergeIe ≠ 0 then
    (fold (ieListWalk m inIe inLen) (mergeP2pIe m inIe) (inLen + 1) 0 ⟨elOui, 0⟩).map
      fun s => (s.bytes, s.len.toNat + 4)
  else some ([], 0)

def isP2p (t : Element) : Bool := decide (t.id = eidVendorSpecific ∧ p2pOui <+: t.body)

def p2pAttributes (ts : List Element) : List UInt8 :=
  (ts.filter isP2p).flatMap fun t => t.body.drop 4

def MergeLaw (m : Mem) (inIe mergeIe : ℕ) (ts : List Element) : Prop :=
  ∃ r, rtwP2pMergeIes m inIe (encode ts).length mergeIe = some r ∧
    r.1.take 1 ++ r.1.drop 2 = eidVendorSpecific :: (p2pOui ++ p2pAttributes ts) ∧
    rtwGetP2pMergedIesLen m inIe (encode ts).length = some r.2

def MergedIe (m : Mem) (inIe mergeIe : ℕ) (ts : List Element) : Prop :=
  ∃ r, rtwP2pMergeIes m inIe (encode ts).length mergeIe = some r ∧
    ∃ t : Element, r.1 = t.bytes ∧ t.id = eidVendorSpecific ∧ t.body = p2pOui ++ p2pAttributes ts

def NoShortP2p (m : Mem) (inIe : ℕ) : ℕ → List Element → Prop
  | _, [] => True
  | o, t :: ts => (isVendorIe m p2pOui (inIe + o) = true → 4 ≤ t.body.length) ∧
      NoShortP2p m inIe (o + t.bytes.length) ts

structure Mergeable (m : Mem) (inIe mergeIe : ℕ) (ts : List Element) : Prop where
  target : mergeIe ≠ 0
  long : NoShortP2p m inIe 0 ts
  small : (p2pAttributes ts).length < 256

section Merge

variable {m : Mem} {inIe mergeIe o : ℕ} {t : Element} {ts : List Element} {s : Merged}

theorem ieListWalk_advances (m : Mem) (inIe inLen : ℕ) : Advances (ieListWalk m inIe inLen) inLen where
  inside _ h := of_decide_eq_true h
  next j := lt_nextElement m inIe j

theorem visited_ieList (h : Holds m inIe (encode ts)) :
    visited (ieListWalk m inIe (encode ts).length) (encode ts).length 0 = positions 0 ts := by
  apply visited_encoded (ieListWalk_advances m inIe _) (fun _ => rfl) (fun _ => rfl)
    fun _ => rfl
  · exact h
  · exact Nat.zero_add _

theorem isP2p_iff (h : Holds m (inIe + o) (t.bytes ++ encode ts))
    (hlong : isVendorIe m p2pOui (inIe + o) = true → 4 ≤ t.body.length) :
    isP2p t = isVendorIe m p2pOui (inIe + o) := by
  rw [Bool.eq_iff_iff, isP2p, decide_eq_true_iff, isVendorIe_iff, holds_id h]
  refine and_congr_right fun hid => ⟨fun hprefix => ?_, fun hheld => ?_⟩
  · exact (holds_tail h).left.restrict hprefix
  · have hsize : p2pOui.length ≤ t.body.length :=
      hlong (isVendorIe_iff.mpr ⟨(holds_id h).trans hid, hheld⟩)
    exact ((holds_tail h).left.prefix_iff hsize).mp hheld

theorem p2pAttributes_cons (t : Element) (ts : List Element) : p2pAttributes (t :: ts) =
    (if isP2p t then t.body.drop 4 else []) ++ p2pAttributes ts := by
  cases hp2p : isP2p t with
  | true =>
    rw [p2pAttributes, List.filter_cons_of_pos hp2p, List.flatMap_cons, if_pos rfl]
    rfl
  | false =>
    have hskip : ¬isP2p t = true := ne_true_of_eq_false hp2p
    rw [p2pAttributes, List.filter_cons_of_neg hskip, if_neg Bool.false_ne_true]
    rfl

theorem holds_next (h : Holds m (inIe + o) (t.bytes ++ encode ts)) :
    Holds m (inIe + (o + t.bytes.length)) (encode ts) := by
  have hright := h.right
  rwa [Nat.add_assoc] at hright

theorem mergeP2pIe_long (h : Holds m (inIe + o) (t.bytes ++ encode ts))
    (hlong : isVendorIe m p2pOui (inIe + o) = true → 4 ≤ t.body.length) :
    mergeP2pIe m inIe s o = some ⟨s.bytes ++ (if isP2p t then t.body.drop 4 else []),
      s.len + UInt8.ofNat (if isP2p t then t.body.drop 4 else []).length⟩ := by
  rw [mergeP2pIe, isP2p_iff h hlong]
  cases hp2p : isVendorIe m p2pOui (inIe + o) with
  | false => simp
  | true =>
    have hsize := hlong hp2p
    have hattributes : read m (inIe + o + 2 + 4) (t.body.length - 4) = t.body.drop 4 := by
      have hbody := (holds_tail h).left
      rw [← List.take_append_drop 4 t.body] at hbody
      have hrest := hbody.right
      rw [List.length_take_of_le hsize] at hrest
      exact hrest.read_eq List.length_drop.symm
    simp only [if_true, holds_len h, if_neg (Nat.not_lt.mpr hsize), hattributes, List.length_drop]

theorem mergeP2pIe_short (h : Holds m (inIe + o) (t.bytes ++ encode ts))
    (hshort : ¬(isVendorIe m p2pOui (inIe + o) = true → 4 ≤ t.body.length)) :
    mergeP2pIe m inIe s o = none := by
  obtain ⟨hp2p, hsize⟩ := Classical.not_imp.mp hshort
  simp only [mergeP2pIe, hp2p, if_true, holds_len h, if_pos (Nat.lt_of_not_le hsize)]

theorem merge_long (h : Holds m (inIe + o) (encode ts)) (hlong : NoShortP2p m inIe o ts) :
    (positions o ts).foldlM (mergeP2pIe m inIe) s =
      some ⟨s.bytes ++ p2pAttributes ts, s.len + UInt8.ofNat (p2pAttributes ts).length⟩ := by
  induction ts generalizing o s with
  | nil => simp [positions, p2pAttributes]
  | cons t ts ih =>
    rw [encode_cons] at h
    rw [positions, List.foldlM_cons, mergeP2pIe_long h hlong.1]
    refine (ih (holds_next h) hlong.2).trans ?_
    rw [p2pAttributes_cons, List.append_assoc, List.length_append, UInt8.ofNat_add, UInt8.add_assoc]

theorem merge_short (h : Holds m (inIe + o) (encode ts)) (hshort : ¬NoShortP2p m inIe o ts) :
    (positions o ts).foldlM (mergeP2pIe m inIe) s = none := by
  induction ts generalizing o s with
  | nil => exact absurd trivial hshort
  | cons t ts ih =>
    rw [encode_cons] at h
    rw [positions, List.foldlM_cons]
    cases Decidable.em (isVendorIe m p2pOui (inIe + o) = true → 4 ≤ t.body.length) with
    | inl hlong =>
      rw [mergeP2pIe_long h hlong]
      exact ih (holds_next h) fun hrest => hshort ⟨hlong, hrest⟩
    | inr hhead =>
      rw [mergeP2pIe_short h hhead]
      rfl

theorem addP2pLen_long (h : Holds m (inIe + o) (t.bytes ++ encode ts))
    (hlong : isVendorIe m p2pOui (inIe + o) = true → 4 ≤ t.body.length) (len : ℤ) :
    addP2pLen m inIe len o = len + (if isP2p t then t.body.drop 4 else []).length := by
  rw [addP2pLen, isP2p_iff h hlong]
  cases hp2p : isVendorIe m p2pOui (inIe + o) with
  | false => simp
  | true =>
    have hsize := hlong hp2p
    simp only [if_true, holds_len h, List.length_drop]
    omega

theorem added_long (h : Holds m (inIe + o) (encode ts)) (hlong : NoShortP2p m inIe o ts) (len : ℤ) :
    (positions o ts).foldl (addP2pLen m inIe) len = len + (p2pAttributes ts).length := by
  induction ts generalizing o len with
  | nil => simp [positions, p2pAttributes]
  | cons t ts ih =>
    rw [encode_cons] at h
    rw [positions, List.foldl_cons, addP2pLen_long h hlong.1, ih (holds_next h) hlong.2,
      p2pAttributes_cons, List.length_append, Int.natCast_add, Int.add_assoc]

theorem merge_eq (h : Holds m inIe (encode ts)) (htarget : mergeIe ≠ 0)
    (hlong : NoShortP2p m inIe 0 ts) : rtwP2pMergeIes m inIe (encode ts).length mergeIe =
      some (elOui ++ p2pAttributes ts, (UInt8.ofNat (p2pAttributes ts).length).toNat + 4) := by
  rw [rtwP2pMergeIes, if_pos htarget,
    (ieListWalk_advances m inIe _).fold_eq_foldlM (fun _ => rfl) _ (Nat.le_add_left _ _),
    visited_ieList h, merge_long h hlong, UInt8.zero_add]
  rfl

theorem merge_fails (h : Holds m inIe (encode ts)) (htarget : mergeIe ≠ 0)
    (hshort : ¬NoShortP2p m inIe 0 ts) :
    rtwP2pMergeIes m inIe (encode ts).length mergeIe = none := by
  rw [rtwP2pMergeIes, if_pos htarget,
    (ieListWalk_advances m inIe _).fold_eq_foldlM (fun _ => rfl) _ (Nat.le_add_left _ _),
    visited_ieList h, merge_short h hshort]
  rfl

theorem p2pAttributes_length_le (ts : List Element) :
    (p2pAttributes ts).length + 4 ≤ (encode ts).length ∨ p2pAttributes ts = [] := by
  induction ts with
  | nil => exact .inr rfl
  | cons t ts ih =>
    rw [p2pAttributes_cons, encode_cons, List.length_append, List.length_append,
      Element.length_bytes]
    cases hp2p : isP2p t with
    | true =>
      have hprefix : p2pOui <+: t.body := (of_decide_eq_true hp2p).2
      have hsize := hprefix.length_le
      have hfour : p2pOui.length = 4 := rfl
      rw [if_pos rfl, List.length_drop]
      rcases ih with hle | hnil
      · exact .inl (by omega)
      · rw [hnil, List.length_nil]
        exact .inl (by omega)
    | false =>
      rw [if_neg Bool.false_ne_true, List.length_nil, List.nil_append]
      rcases ih with hle | hnil
      · exact .inl (by omega)
      · exact .inr hnil

theorem merged_len_eq (h : Holds m inIe (encode ts)) (hlong : NoShortP2p m inIe 0 ts)
    (hsize : (encode ts).length < 2 ^ 32) : rtwGetP2pMergedIesLen m inIe (encode ts).length =
      some ((p2pAttributes ts).length + 4) := by
  rw [rtwGetP2pMergedIesLen, (ieListWalk_advances m inIe _).fold_eq (fun _ => rfl)
    (fun _ _ => rfl) (Nat.le_add_left _ _), visited_ieList h, added_long h hlong, Int.zero_add,
    Option.map_some, Option.some.injEq]
  rcases p2pAttributes_length_le ts with hle | hnil
  · omega
  · rw [hnil]
    rfl

theorem merged_bytes (ts : List Element) : (elOui ++ p2pAttributes ts).take 1 ++
    (elOui ++ p2pAttributes ts).drop 2 = eidVendorSpecific :: (p2pOui ++ p2pAttributes ts) := rfl

theorem mergeLaw_iff (h : Holds m inIe (encode ts)) (hsize : (encode ts).length < 2 ^ 32) :
    MergeLaw m inIe mergeIe ts ↔ Mergeable m inIe mergeIe ts := by
  constructor
  · rintro ⟨r, hr, hbytes, hlen⟩
    have htarget : mergeIe ≠ 0 := by
      rintro rfl
      rw [rtwP2pMergeIes, if_neg (not_not.mpr rfl)] at hr
      rw [← Option.some.inj hr] at hbytes
      exact absurd hbytes (List.cons_ne_nil _ _).symm
    have hlong : NoShortP2p m inIe 0 ts := by
      by_contra hshort
      rw [merge_fails h htarget hshort] at hr
      exact Option.some_ne_none r hr.symm
    rw [merge_eq h htarget hlong] at hr
    rw [merged_len_eq h hlong hsize, ← Option.some.inj hr, Option.some.injEq,
      UInt8.toNat_ofNat', Nat.add_right_cancel_iff] at hlen
    refine ⟨htarget, hlong, ?_⟩
    rw [hlen]
    exact Nat.mod_lt _ (by decide)
  · rintro ⟨htarget, hlong, hsmall⟩
    refine ⟨_, merge_eq h htarget hlong, merged_bytes ts, ?_⟩
    rw [merged_len_eq h hlong hsize, UInt8.toNat_ofNat', Nat.mod_eq_of_lt hsmall]

theorem not_mergedIe (h : Holds m inIe (encode ts)) : ¬MergedIe m inIe mergeIe ts := by
  rintro ⟨r, hr, t, hbytes, -, hbody⟩
  cases Decidable.em (mergeIe = 0) with
  | inl hnull =>
    rw [rtwP2pMergeIes, if_neg (not_not.mpr hnull)] at hr
    rw [← Option.some.inj hr] at hbytes
    exact absurd hbytes (List.cons_ne_nil _ _).symm
  | inr htarget =>
    have hlong : NoShortP2p m inIe 0 ts := by
      by_contra hshort
      rw [merge_fails h htarget hshort] at hr
      exact Option.some_ne_none r hr.symm
    rw [merge_eq h htarget hlong] at hr
    rw [← Option.some.inj hr] at hbytes
    have hlen : (0 : UInt8) = UInt8.ofNat t.body.length :=
      (List.cons.inj (List.cons.inj hbytes).2).1
    have hzero : t.body.length = 0 := by
      rw [← t.toNat_length, ← hlen]
      rfl
    rw [hbody, List.length_append] at hzero
    exact absurd hzero (Nat.ne_of_gt (Nat.add_pos_left (by decide) _))

theorem p2p_merge_iff (m : Mem) (inIe mergeIe : ℕ) (ts : List Element)
    (h : Holds m inIe (encode ts)) (hsize : (encode ts).length < 2 ^ 32) :
    ¬MergedIe m inIe mergeIe ts ∧
      (MergeLaw m inIe mergeIe ts ↔ Mergeable m inIe mergeIe ts) :=
  ⟨not_mergedIe h, mergeLaw_iff h hsize⟩

end Merge

def oneP2pIe : List Element := [⟨221, p2pOui ++ [13], by decide⟩]

theorem p2p_merge_iff_one :
    let m := memOf (encode oneP2pIe) 0x1000
    ¬MergedIe m 0x1000 0x2000 oneP2pIe ∧
      (MergeLaw m 0x1000 0x2000 oneP2pIe ↔ Mergeable m 0x1000 0x2000 oneP2pIe) :=
  p2p_merge_iff _ _ _ _ (.of_read (by decide)) (by decide)

def splitOui : List Element := [⟨221, [0x50, 0x6f, 0x9a], by decide⟩, emptyElement 0x09]

theorem short_p2p_ie_merged :
    ¬MergedIe (memOf (encode oneP2pIe) 0x1000) 0x1000 0x2000 oneP2pIe ∧
      ¬MergeLaw (memOf (encode splitOui) 0x1000) 0x1000 0x2000 splitOui := by
  have hstored : Holds (memOf (encode splitOui) 0x1000) 0x1000 (encode splitOui) :=
    .of_read (by decide)
  refine ⟨not_mergedIe (.of_read (by decide)), fun hlaw => ?_⟩
  have hmergeable := (mergeLaw_iff hstored (by decide)).mp hlaw
  exact absurd (hmergeable.long.1 (by decide)) (by decide)

end Ie
