import Rtl8188fu.Wnm.NbParse

namespace Wnm

open ByteMemory Tlv

structure BtmRspHdr where
  dialogToken : UInt8
  status : UInt8
  terminationDelay : UInt8
  bssid : List UInt8
  pcandidates : List WnmBtmCant
  candidatesNum : ℕ

structure RspWalk where
  cands : List WnmBtmCant
  reads : List ℕ

structure RspRun where
  rsp : BtmRspHdr
  room : ℕ
  reads : List ℕ

-- in units of sizeof(struct wnm_btm_cant)
def rtwWnmBtmRspCandidatesSzGet (m : Mem UInt8) (frameLen : ℕ) : ℕ :=
  if frameLen ≤ 5 then 0
  else if (m 3 ≠ 0 ∧ m 3 ≠ 6) ∨ frameLen < 23 then 0
  else if m 3 = 0 then (frameLen - 5 - 6) / 18
  else (frameLen - 5) / 18

def rspCant (m : Mem UInt8) (ptr : ℕ) : WnmBtmCant where
  nbRpt := (nbRptAt m ptr).fields
  preference := if m (ptr + 15) = candPrefSubeid then m (ptr + 17) else 0

def rspCantReads (m : Mem UInt8) (ptr : ℕ) : List ℕ :=
  (List.range 16).map (ptr + ·) ++ if m (ptr + 15) = candPrefSubeid then [ptr + 17] else []

def rspWalk (m : Mem UInt8) (pend ptr : ℕ) : RspWalk :=
  if ptr < pend then
    if m ptr ≠ nbRptElem then ⟨[], [ptr]⟩
    else
      let w := rspWalk m pend (ptr + (m (ptr + 1)).toNat + 2)
      ⟨rspCant m ptr :: w.cands, rspCantReads m ptr ++ w.reads⟩
  else ⟨[], []⟩
termination_by pend - ptr

def rspStart (m : Mem UInt8) : ℕ := if m 3 = 0 then 5 + 6 else 5

def rtwWnmProcessBtmRsp (m : Mem UInt8) (frameLen : ℕ) (pcandidates : Bool) :
    BtmRspHdr × List ℕ :=
  let none : BtmRspHdr := ⟨0, 0, 0, List.replicate 6 0, [], 0⟩
  if frameLen = 0 then (none, [])
  else
    let hdr := { none with dialogToken := m 2, status := m 3, terminationDelay := m 4 }
    if frameLen ≤ 5 then (hdr, [2, 3, 4])
    else
      let accepted := m 3 = 0 ∧ 11 ≤ frameLen
      let hdr := if accepted then { hdr with bssid := read m 5 6 } else hdr
      let reads := [2, 3, 4] ++ if accepted then [5, 6, 7, 8, 9, 10] else []
      if (m 3 = 0 ∨ m 3 = 6) ∧ 23 ≤ frameLen then
        let ptr := rspStart m
        let w := rspWalk m (ptr + frameLen) ptr
        if pcandidates then
          ({ hdr with pcandidates := w.cands, candidatesNum := w.cands.length }, reads ++ w.reads)
        else (hdr, reads ++ w.reads)
      else (hdr, reads)

def onActionWnmBtmRsp (malloc : Bool) (m : Mem UInt8) (frameLen : ℕ) : RspRun :=
  let sz := rtwWnmBtmRspCandidatesSzGet m frameLen
  let r := rtwWnmProcessBtmRsp m frameLen (decide (0 < sz) && malloc)
  ⟨r.1, sz, (if 5 < frameLen then [3] else []) ++ r.2⟩

structure WholeReport (t : Element) : Prop where
  complete : Complete t
  subelements : ∃ us, subelements t = encode us

structure BtmRspFrame where
  header : List UInt8
  bssid : List UInt8
  reports : List Element
  headerLen : header.length = 5
  bssidLen : bssid.length = if header.getD 3 0 = 0 then 6 else 0
  whole : ∀ t ∈ reports, WholeReport t
  listed : header.getD 3 0 ≠ 0 → header.getD 3 0 ≠ 6 → reports = []

def BtmRspFrame.bytes (f : BtmRspFrame) : List UInt8 := f.header ++ f.bssid ++ encode f.reports

def reportCant (t : Element) : WnmBtmCant := ⟨rptOf t, wantPref (subelements t)⟩

structure BtmRspLaw (malloc : Bool) (m : Mem UInt8) (frameLen : ℕ) : Prop where
  fits : (onActionWnmBtmRsp malloc m frameLen).rsp.pcandidates.length ≤
    (onActionWnmBtmRsp malloc m frameLen).room
  inside : ∀ o ∈ (onActionWnmBtmRsp malloc m frameLen).reads, o < frameLen
  stored : (onActionWnmBtmRsp malloc m frameLen).room = 0 ∨ malloc = true →
    ∀ f : BtmRspFrame, read m 0 frameLen = f.bytes →
      (onActionWnmBtmRsp malloc m frameLen).rsp.candidatesNum = f.reports.length ∧
        (onActionWnmBtmRsp malloc m frameLen).rsp.pcandidates = f.reports.map reportCant

-- the number of elements passed before the walk stops; none when it leaves the frame
def reportCount (slack : ℕ) : List UInt8 → Option ℕ
  | [] => none
  | x :: xs =>
    if x ≠ nbRptElem then some 0
    else if xs.length < 15 ∨ xs.getD 14 0 = candPrefSubeid ∧ xs.length < 17 then none
    else
      let n := (xs.getD 0 0).toNat + 1
      if xs.length + slack ≤ n then some 1
      else (reportCount slack (xs.drop n)).map (· + 1)
termination_by bs => bs.length
decreasing_by
  simp only [List.length_drop, List.length_cons]
  omega

def ListWalked (m : Mem UInt8) (frameLen : ℕ) : Prop := (m 3 = 0 ∨ m 3 = 6) ∧ 23 ≤ frameLen

def LoneReport (m : Mem UInt8) (frameLen : ℕ) : Prop :=
  m 3 = 6 ∧ m 5 = nbRptElem ∧
    (frameLen = 20 ∧ m 6 = 13 ∨ frameLen = 22 ∧ m 6 = 15 ∧ m 21 = 0)

structure BtmRspClear (malloc : Bool) (m : Mem UInt8) (frameLen : ℕ) : Prop where
  header : 5 ≤ frameLen
  walked : ListWalked m frameLen →
    ∃ n, reportCount (rspStart m) (read m (rspStart m) (frameLen - rspStart m)) = some n ∧
      (malloc = true → rtwWnmBtmRspCandidatesSzGet m frameLen ≠ 0 →
        n ≤ rtwWnmBtmRspCandidatesSzGet m frameLen)
  several : ¬ LoneReport m frameLen

end Wnm

namespace Wnm

open ByteMemory Tlv

section Count

variable {slack : ℕ} {x : UInt8} {xs : List UInt8}

def ShortReport (xs : List UInt8) : Prop :=
  xs.length < 15 ∨ xs.getD 14 0 = candPrefSubeid ∧ xs.length < 17

instance (xs : List UInt8) : Decidable (ShortReport xs) := inferInstanceAs (Decidable (_ ∨ _))

theorem reportCount_cases (slack : ℕ) : reportCount slack [] = none ∧
    ∀ x xs, reportCount slack (x :: xs) =
      if x ≠ nbRptElem then some 0
      else if ShortReport xs then none
      else if xs.length + slack ≤ (xs.getD 0 0).toNat + 1 then some 1
      else (reportCount slack (xs.drop ((xs.getD 0 0).toNat + 1))).map (· + 1) := by
  refine ⟨?_, fun x xs => ?_⟩
  · rw [reportCount]
  · rw [reportCount]
    rfl

theorem reportCount_nil : reportCount slack [] = none := (reportCount_cases slack).1

theorem reportCount_other (h : x ≠ nbRptElem) : reportCount slack (x :: xs) = some 0 := by
  rw [(reportCount_cases slack).2, if_pos h]

theorem reportCount_short (h : ShortReport xs) : reportCount slack (nbRptElem :: xs) = none := by
  rw [(reportCount_cases slack).2, if_neg (not_not.mpr rfl), if_pos h]

theorem reportCount_past (h : ¬ ShortReport xs)
    (hpast : xs.length + slack ≤ (xs.getD 0 0).toNat + 1) :
    reportCount slack (nbRptElem :: xs) = some 1 := by
  rw [(reportCount_cases slack).2, if_neg (not_not.mpr rfl), if_neg h, if_pos hpast]

theorem reportCount_step (h : ¬ ShortReport xs)
    (hnext : ¬ xs.length + slack ≤ (xs.getD 0 0).toNat + 1) :
    reportCount slack (nbRptElem :: xs) =
      (reportCount slack (xs.drop ((xs.getD 0 0).toNat + 1))).map (· + 1) := by
  rw [(reportCount_cases slack).2, if_neg (not_not.mpr rfl), if_neg h, if_neg hnext]

theorem reportCount_encode {ts : List Element} (hslack : 0 < slack) (h : ∀ t ∈ ts, Complete t) :
    reportCount slack (encode ts) = none := by
  induction ts with
  | nil => exact reportCount_nil
  | cons t ts ih =>
    have hid := (h t List.mem_cons_self).1
    have hsplit : encode (t :: ts) =
        nbRptElem :: (UInt8.ofNat t.body.length :: (t.body ++ encode ts)) := by
      rw [encode_cons, ← hid]
      rfl
    rw [hsplit]
    cases Decidable.em (ShortReport (UInt8.ofNat t.body.length :: (t.body ++ encode ts))) with
    | inl hshort => exact reportCount_short hshort
    | inr hlong =>
      have hlen : ((UInt8.ofNat t.body.length :: (t.body ++ encode ts)).getD 0 0).toNat + 1 =
          t.body.length + 1 := congrArg (· + 1) t.toNat_length
      have hnext : ¬ (UInt8.ofNat t.body.length :: (t.body ++ encode ts)).length + slack ≤
          t.body.length + 1 := by
        rw [List.length_cons, List.length_append]
        omega
      rw [reportCount_step hlong (by rw [hlen]; exact hnext), hlen, List.drop_succ_cons,
        List.drop_left, ih fun u hu => h u (List.mem_cons_of_mem t hu)]
      rfl

end Count

section Walk

variable {m : Mem UInt8} {frameLen pend ptr slack : ℕ}

theorem cantReads_inside (hptr : ptr < frameLen) :
    (∀ o ∈ rspCantReads m ptr, o < frameLen) ↔
      ¬ ShortReport (read m (ptr + 1) (frameLen - (ptr + 1))) := by
  rw [rspCantReads, ShortReport, length_read, List.forall_mem_append]
  have hfirst : (∀ o ∈ (List.range 16).map (ptr + ·), o < frameLen) ↔ ptr + 15 < frameLen := by
    constructor
    · exact fun h => h (ptr + 15) (List.mem_map.mpr ⟨15, by decide, rfl⟩)
    · intro h o ho
      obtain ⟨i, hi, rfl⟩ := List.mem_map.mp ho
      rw [List.mem_range] at hi
      omega
  rw [hfirst]
  cases Nat.lt_or_ge (ptr + 15) frameLen with
  | inr hshort =>
    exact iff_of_false (fun h => by omega) fun h => h (.inl (by omega))
  | inl hroom =>
    have hbyte : (read m (ptr + 1) (frameLen - (ptr + 1))).getD 14 0 = m (ptr + 15) :=
      getD_read m _ _ (by omega)
    rw [hbyte]
    split
    · rename_i hpref
      rw [List.forall_mem_singleton]
      constructor
      · rintro ⟨-, hlast⟩ (hshort | ⟨-, hshort⟩) <;> omega
      · intro h
        refine ⟨hroom, ?_⟩
        by_contra hlast
        exact h (.inr ⟨hpref, by omega⟩)
    · rename_i hother
      refine iff_of_true ⟨hroom, fun o ho => absurd ho List.not_mem_nil⟩ ?_
      rintro (hshort | ⟨hpref, -⟩)
      · omega
      · exact hother hpref

theorem cantReads_first : ptr ∈ rspCantReads m ptr :=
  List.mem_append_left _ (List.mem_map.mpr ⟨0, by decide, rfl⟩)

theorem rspWalk_outside (hin : ptr < pend) (hpast : frameLen ≤ ptr) :
    ¬ ∀ o ∈ (rspWalk m pend ptr).reads, o < frameLen := by
  intro h
  rw [rspWalk, if_pos hin] at h
  split at h
  · exact absurd (h ptr List.mem_cons_self) (Nat.not_lt_of_le hpast)
  · exact absurd (h ptr (List.mem_append_left _ cantReads_first)) (Nat.not_lt_of_le hpast)

structure WalkTold (m : Mem UInt8) (frameLen : ℕ) (w : RspWalk) (told : Option ℕ) : Prop where
  inside : (∀ o ∈ w.reads, o < frameLen) ↔ told ≠ none
  count : ∀ n, told = some n → w.cands.length = n

theorem rspWalk_told (hslack : 0 < slack) (hpend : pend = frameLen + slack)
    (hptr : ptr ≤ frameLen) :
    WalkTold m frameLen (rspWalk m pend ptr) (reportCount slack (read m ptr (frameLen - ptr))) := by
  induction hn : frameLen - ptr using Nat.strongRecOn generalizing ptr with
  | ind n ih =>
    cases Nat.lt_or_ge ptr frameLen with
    | inr hend =>
      have hzero : n = 0 := by omega
      have hnil : reportCount slack (read m ptr n) = none := by
        rw [hzero]
        exact reportCount_nil
      rw [hnil]
      refine ⟨iff_of_false (rspWalk_outside (by omega) hend) fun h => h rfl, ?_⟩
      exact fun k hk => absurd hk (Option.some_ne_none k).symm
    | inl hlt =>
      obtain ⟨k, rfl⟩ : ∃ k, n = k + 1 := ⟨n - 1, by omega⟩
      have hk : k = frameLen - (ptr + 1) := by omega
      have hinside : ptr < pend := by omega
      rw [read_succ, rspWalk, if_pos hinside]
      cases Decidable.em (m ptr = nbRptElem) with
      | inr hother =>
        rw [if_pos hother, reportCount_other hother]
        constructor
        · refine iff_of_true (fun o ho => ?_) (Option.some_ne_none 0)
          rw [List.mem_singleton.mp ho]
          exact hlt
        · exact fun j hj => Option.some_inj.mp hj
      | inl helem =>
        rw [if_neg (not_not.mpr helem), helem]
        have hreads := cantReads_inside (m := m) hlt
        rw [← hk] at hreads
        dsimp only
        cases Decidable.em (ShortReport (read m (ptr + 1) k)) with
        | inl hshort =>
          rw [reportCount_short hshort]
          refine ⟨iff_of_false (fun h => ?_) fun h => h rfl,
            fun j hj => absurd hj (Option.some_ne_none j).symm⟩
          exact hreads.mp (fun o ho => h o (List.mem_append_left _ ho)) hshort
        | inr hlong =>
          have hroom : 15 ≤ k := by
            by_contra hless
            exact hlong (.inl (by rw [length_read]; omega))
          have hlen : (read m (ptr + 1) k).getD 0 0 = m (ptr + 1) := getD_read m _ _ (by omega)
          have hcant := hreads.mpr hlong
          cases Nat.lt_or_ge ((m (ptr + 1)).toNat + 1) (k + slack) with
          | inr hpast =>
            have hout : ¬ ptr + (m (ptr + 1)).toNat + 2 < pend := by omega
            rw [reportCount_past hlong (by rw [hlen, length_read]; exact hpast), rspWalk,
              if_neg hout]
            constructor
            · refine iff_of_true ?_ (Option.some_ne_none 1)
              rw [List.append_nil]
              exact hcant
            · exact fun j hj => Option.some_inj.mp hj
          | inl hnext =>
            have hstep : ¬ (read m (ptr + 1) k).length + slack ≤
                ((read m (ptr + 1) k).getD 0 0).toNat + 1 := by
              rw [hlen, length_read]
              omega
            rw [reportCount_step hlong hstep, hlen]
            have hrest : WalkTold m frameLen (rspWalk m pend (ptr + (m (ptr + 1)).toNat + 2))
                (reportCount slack ((read m (ptr + 1) k).drop ((m (ptr + 1)).toNat + 1))) := by
              cases Nat.lt_or_ge frameLen (ptr + (m (ptr + 1)).toNat + 2) with
              | inl hjump =>
                have hnil : (read m (ptr + 1) k).drop ((m (ptr + 1)).toNat + 1) = [] := by
                  refine List.drop_eq_nil_of_le ?_
                  rw [length_read]
                  omega
                rw [hnil, reportCount_nil]
                refine ⟨iff_of_false (rspWalk_outside (by omega) (Nat.le_of_lt hjump))
                  fun h => h rfl, fun j hj => absurd hj (Option.some_ne_none j).symm⟩
              | inr hwithin =>
                have hsplit : k = ((m (ptr + 1)).toNat + 1) +
                    (frameLen - (ptr + (m (ptr + 1)).toNat + 2)) := by omega
                have hdrop : (read m (ptr + 1) k).drop ((m (ptr + 1)).toNat + 1) =
                    read m (ptr + (m (ptr + 1)).toNat + 2)
                      (frameLen - (ptr + (m (ptr + 1)).toNat + 2)) := by
                  rw [hsplit, drop_read]
                  congr 1
                  omega
                rw [hdrop]
                exact ih _ (by omega) hwithin rfl
            constructor
            · rw [List.forall_mem_append, and_iff_right hcant, hrest.inside, ne_eq, ne_eq,
                Option.map_eq_none_iff]
            · intro j hj
              obtain ⟨i, hi, rfl⟩ := Option.map_eq_some_iff.mp hj
              rw [List.length_cons, hrest.count i hi]

end Walk

section Frames

variable {m : Mem UInt8} {frameLen : ℕ} {f : BtmRspFrame}

theorem length_btmRspFrame (f : BtmRspFrame) :
    f.bytes.length = 5 + f.bssid.length + (encode f.reports).length := by
  rw [BtmRspFrame.bytes, List.length_append, List.length_append, f.headerLen]

theorem frameLen_of_bytes (h : read m 0 frameLen = f.bytes) :
    frameLen = 5 + f.bssid.length + (encode f.reports).length := by
  rw [← length_btmRspFrame, ← h, length_read]

theorem status_of_bytes (h : read m 0 frameLen = f.bytes) : f.header.getD 3 0 = m 3 := by
  have hlen := frameLen_of_bytes h
  have hread : (read m 0 frameLen).getD 3 0 = m (0 + 3) := getD_read m _ _ (by omega)
  rw [h, Nat.zero_add, BtmRspFrame.bytes, List.append_assoc, List.getD_append _ _ _ _
    (by rw [f.headerLen]; decide)] at hread
  exact hread

theorem start_of_bytes (h : read m 0 frameLen = f.bytes) : 5 + f.bssid.length = rspStart m := by
  rw [f.bssidLen, status_of_bytes h, rspStart]
  split <;> rfl

theorem reports_of_bytes (h : read m 0 frameLen = f.bytes) :
    read m (rspStart m) (frameLen - rspStart m) = encode f.reports := by
  have hlen := frameLen_of_bytes h
  rw [start_of_bytes h] at hlen
  have hdrop : (read m 0 frameLen).drop (rspStart m) = encode f.reports := by
    rw [h, BtmRspFrame.bytes]
    refine List.drop_left' ?_
    rw [List.length_append, f.headerLen, start_of_bytes h]
  have hsplit : frameLen = rspStart m + (frameLen - rspStart m) := by omega
  rw [hsplit, drop_read, Nat.zero_add] at hdrop
  exact hdrop

theorem walked_past_end (h : read m 0 frameLen = f.bytes) :
    reportCount (rspStart m) (read m (rspStart m) (frameLen - rspStart m)) = none := by
  have hpos : 0 < rspStart m := by
    rw [rspStart]
    split <;> decide
  rw [reports_of_bytes h]
  exact reportCount_encode hpos fun t ht => (f.whole t ht).complete

theorem report_length {t : Element} (h : WholeReport t) : 15 ≤ t.bytes.length := by
  have hbody := h.complete.2
  rw [Element.length_bytes]
  omega

theorem length_encode_ne_one (us : List Element) : (encode us).length ≠ 1 := by
  cases us with
  | nil => decide
  | cons u us =>
    rw [encode_cons, List.length_append, Element.length_bytes]
    omega

theorem lone_of_bytes (h : read m 0 frameLen = f.bytes) (hwalk : ¬ ListWalked m frameLen)
    (hsome : f.reports ≠ []) : LoneReport m frameLen := by
  have hstatus := status_of_bytes h
  have hlen := frameLen_of_bytes h
  have hbody := reports_of_bytes h
  rw [start_of_bytes h] at hlen
  cases hreports : f.reports with
  | nil => exact absurd hreports hsome
  | cons t ts =>
    have ht : t ∈ f.reports := by
      rw [hreports]
      exact List.mem_cons_self
    have hlong := report_length (f.whole t ht)
    obtain ⟨us, hus⟩ := (f.whole t ht).subelements
    have hcomplete := (f.whole t ht).complete
    rw [hreports] at hlen hbody
    have hsix : m 3 = 6 := by
      by_contra hne
      cases Decidable.em (m 3 = 0) with
      | inl hzero =>
        refine hwalk ⟨.inl hzero, ?_⟩
        rw [rspStart, if_pos hzero, encode_cons, List.length_append] at hlen
        omega
      | inr hother =>
        exact hsome (f.listed (by rw [hstatus]; exact hother) (by rw [hstatus]; exact hne))
    have hnot : ¬ 23 ≤ frameLen := fun hge => hwalk ⟨.inr hsix, hge⟩
    have hstart : rspStart m = 5 := if_neg (by rw [hsix]; decide)
    rw [hstart] at hlen hbody
    cases ts with
    | cons u ts =>
      have hu : u ∈ f.reports := by
        rw [hreports]
        exact List.mem_cons_of_mem t List.mem_cons_self
      have hlong' := report_length (f.whole u hu)
      rw [encode_cons, encode_cons, List.length_append, List.length_append] at hlen
      omega
    | nil =>
      rw [encode_cons, encode_nil, List.append_nil] at hlen hbody
      have hsize : frameLen - 5 = t.bytes.length := by omega
      rw [hsize] at hbody
      have hholds : Holds m 5 t.bytes := .of_read hbody
      have hid : m 5 = nbRptElem := (hholds 0 (by omega)).trans hcomplete.1
      have hbyte : m 6 = UInt8.ofNat t.body.length := hholds 1 (by omega)
      have hsub : t.body.length - 13 = (encode us).length := by
        rw [← hus, subelements, List.length_drop]
      have hone := length_encode_ne_one us
      have hmin := hcomplete.2
      rw [Element.length_bytes] at hlen
      refine ⟨hsix, hid, ?_⟩
      have hcases : t.body.length = 13 ∨ t.body.length = 15 := by omega
      cases hcases with
      | inl hbare =>
        refine .inl ⟨by omega, ?_⟩
        rw [hbyte, hbare]
        rfl
      | inr hempty =>
        refine .inr ⟨by omega, ?_, ?_⟩
        · rw [hbyte, hempty]
          rfl
        · have htwo : (encode us).length = 2 := by omega
          cases us with
          | nil => exact absurd htwo (by decide)
          | cons u us =>
            rw [encode_cons, List.length_append, Element.length_bytes] at htwo
            have hdrop := hholds.drop (show 15 ≤ t.bytes.length by omega)
            have hrest : t.bytes.drop 15 = u.bytes ++ encode us := hus
            rw [hrest] at hdrop
            have hlast := holds_len hdrop
            exact UInt8.toNat_inj.mp (by rw [hlast, UInt8.toNat_zero]; omega)

theorem bytes_of_lone (h : LoneReport m frameLen) :
    ∃ f : BtmRspFrame, read m 0 frameLen = f.bytes ∧ f.reports ≠ [] := by
  obtain ⟨hsix, hid, hshape⟩ := h
  have hstatus : (read m 0 5).getD 3 0 = m 3 := getD_read m _ _ (by decide)
  have hbuild (n : ℕ) (hn : n < 256) (hlen : m 6 = UInt8.ofNat n) (hlow : 13 ≤ n)
      (hsub : ∃ us, (read m 7 n).drop 13 = encode us) (hframe : frameLen = 7 + n) :
      ∃ f : BtmRspFrame, read m 0 frameLen = f.bytes ∧ f.reports ≠ [] := by
    have hshort : (read m 7 n).length < 256 := by
      rw [length_read]
      exact hn
    have hone : (⟨nbRptElem, read m 7 n, hshort⟩ : Element).bytes =
        nbRptElem :: UInt8.ofNat n :: read m 7 n := by
      rw [Element.bytes, length_read]
    have hbytes : read m 0 frameLen =
        read m 0 5 ++ [] ++ encode [⟨nbRptElem, read m 7 n, hshort⟩] := by
      have hfive := read_add m 0 5 (n + 2)
      have hsixth := read_succ m 5 (n + 1)
      have hseventh := read_succ m 6 n
      rw [List.append_nil, encode_cons, encode_nil, List.append_nil, hone, hframe,
        show 7 + n = 5 + (n + 2) by omega, hfive, hsixth, hseventh, ← hlen, ← hid]
    refine ⟨⟨read m 0 5, [], [⟨nbRptElem, read m 7 n, hshort⟩], length_read m 0 5, ?_, ?_, ?_⟩,
      hbytes, List.cons_ne_nil _ _⟩
    · rw [hstatus, hsix]
      rfl
    · intro t ht
      obtain rfl := List.mem_singleton.mp ht
      have hlong : 13 ≤ (read m 7 n).length := by
        rw [length_read]
        exact hlow
      exact ⟨⟨rfl, hlong⟩, hsub⟩
    · rw [hstatus]
      exact fun _ hne => absurd hsix hne
  cases hshape with
  | inl hbare =>
    refine hbuild 13 (by decide) hbare.2 (Nat.le_refl _) ⟨[], ?_⟩ hbare.1
    exact List.drop_eq_nil_of_le (Nat.le_of_eq (length_read m 7 13))
  | inr hempty =>
    obtain ⟨hlen, hsize, hzero⟩ := hempty
    refine hbuild 15 (by decide) hsize (by decide) ⟨[⟨m 20, [], by decide⟩], ?_⟩ hlen
    have hdrop := drop_read m 7 13 2
    have hbytes : read m 20 2 = [m 20, m 21] := rfl
    rw [hdrop, hbytes, hzero]
    rfl

end Frames

section Law

variable {malloc : Bool} {m : Mem UInt8} {frameLen : ℕ}

theorem room_unlisted (h : ¬ ListWalked m frameLen) :
    rtwWnmBtmRspCandidatesSzGet m frameLen = 0 := by
  rw [rtwWnmBtmRspCandidatesSzGet]
  split
  · rfl
  · rw [if_pos]
    cases Nat.lt_or_ge frameLen 23 with
    | inl hshort => exact .inr hshort
    | inr hlong =>
      refine .inl ⟨fun hzero => h ⟨.inl hzero, hlong⟩, fun hsix => h ⟨.inr hsix, hlong⟩⟩

theorem run_unlisted (hlen : 5 ≤ frameLen) (h : ¬ ListWalked m frameLen) :
    (∀ o ∈ (onActionWnmBtmRsp malloc m frameLen).reads, o < frameLen) ∧
      (onActionWnmBtmRsp malloc m frameLen).rsp.pcandidates = [] ∧
      (onActionWnmBtmRsp malloc m frameLen).rsp.candidatesNum = 0 := by
  have hpos : frameLen ≠ 0 := by omega
  have hbranch : ¬ ((m 3 = 0 ∨ m 3 = 6) ∧ 23 ≤ frameLen) := h
  have hheader : ∀ o ∈ [2, 3, 4], o < frameLen := by
    intro o ho
    simp only [List.mem_cons, List.not_mem_nil, or_false] at ho
    omega
  rw [onActionWnmBtmRsp, rtwWnmProcessBtmRsp, if_neg hpos]
  dsimp only
  cases Nat.lt_or_ge 5 frameLen with
  | inr hle =>
    rw [if_pos hle, if_neg (Nat.not_lt_of_le hle)]
    exact ⟨hheader, rfl, rfl⟩
  | inl hgt =>
    rw [if_neg (Nat.not_le_of_lt hgt), if_neg hbranch, if_pos hgt]
    refine ⟨?_, by dsimp only; split <;> rfl, by dsimp only; split <;> rfl⟩
    rw [List.forall_mem_append, List.forall_mem_append, List.forall_mem_singleton]
    refine ⟨by omega, hheader, ?_⟩
    split
    · rename_i haccept
      intro o ho
      simp only [List.mem_cons, List.not_mem_nil, or_false] at ho
      omega
    · exact fun o ho => absurd ho List.not_mem_nil

theorem run_listed (h : ListWalked m frameLen) :
    ((∀ o ∈ (onActionWnmBtmRsp malloc m frameLen).reads, o < frameLen) ↔
      ∀ o ∈ (rspWalk m (rspStart m + frameLen) (rspStart m)).reads, o < frameLen) ∧
    (onActionWnmBtmRsp malloc m frameLen).rsp.pcandidates =
      if rtwWnmBtmRspCandidatesSzGet m frameLen ≠ 0 ∧ malloc = true then
        (rspWalk m (rspStart m + frameLen) (rspStart m)).cands
      else [] := by
  have hlong := h.2
  have hpos : frameLen ≠ 0 := by omega
  have hbranch : (m 3 = 0 ∨ m 3 = 6) ∧ 23 ≤ frameLen := h
  have hfive : ¬ frameLen ≤ 5 := by omega
  have hpast : ∀ o ∈ [2, 3, 4] ++ (if m 3 = 0 ∧ 11 ≤ frameLen then [5, 6, 7, 8, 9, 10] else []),
      o < frameLen := by
    intro o ho
    have hsmall : o ≤ 10 := by
      revert ho
      split
      · simp only [List.cons_append, List.nil_append, List.mem_cons, List.not_mem_nil, or_false]
        omega
      · simp only [List.append_nil, List.mem_cons, List.not_mem_nil, or_false]
        omega
    omega
  have hthree : (3 : ℕ) < frameLen := by omega
  rw [onActionWnmBtmRsp, rtwWnmProcessBtmRsp, if_neg hpos]
  dsimp only
  rw [if_neg hfive, if_pos hbranch, if_pos (show 5 < frameLen by omega)]
  have hstored : (decide (0 < rtwWnmBtmRspCandidatesSzGet m frameLen) && malloc) = true ↔
      rtwWnmBtmRspCandidatesSzGet m frameLen ≠ 0 ∧ malloc = true := by
    rw [Bool.and_eq_true, decide_eq_true_iff, Nat.pos_iff_ne_zero]
  cases Decidable.em
    (rtwWnmBtmRspCandidatesSzGet m frameLen ≠ 0 ∧ malloc = true) with
  | inl hyes =>
    rw [if_pos (hstored.mpr hyes), if_pos hyes]
    refine ⟨?_, rfl⟩
    rw [List.forall_mem_append, List.forall_mem_singleton, List.forall_mem_append]
    exact ⟨fun hall => hall.2.2, fun hall => ⟨hthree, hpast, hall⟩⟩
  | inr hno =>
    rw [if_neg fun hyes => hno (hstored.mp hyes), if_neg hno]
    refine ⟨?_, by split <;> rfl⟩
    rw [List.forall_mem_append, List.forall_mem_singleton, List.forall_mem_append]
    exact ⟨fun hall => hall.2.2, fun hall => ⟨hthree, hpast, hall⟩⟩

theorem header_past (hpos : frameLen ≠ 0) (hshort : frameLen < 5) :
    ¬ ∀ o ∈ (onActionWnmBtmRsp malloc m frameLen).reads, o < frameLen := by
  intro h
  have hfour : 4 ∈ (onActionWnmBtmRsp malloc m frameLen).reads := by
    rw [onActionWnmBtmRsp, rtwWnmProcessBtmRsp, if_neg hpos]
    dsimp only
    rw [if_pos (show frameLen ≤ 5 by omega)]
    exact List.mem_append_right _ (show 4 ∈ [2, 3, 4] by decide)
  have hlt := h 4 hfour
  omega

theorem law_listed (h : ListWalked m frameLen) :
    BtmRspLaw malloc m frameLen ↔ BtmRspClear malloc m frameLen := by
  have hlong := h.2
  have hstart : 0 < rspStart m := by
    rw [rspStart]
    split <;> decide
  have hwithin : rspStart m ≤ frameLen := by
    rw [rspStart]
    split <;> omega
  obtain ⟨hinside, hstored⟩ := @run_listed malloc m frameLen h
  have htold := rspWalk_told hstart (Nat.add_comm (rspStart m) frameLen) hwithin (m := m)
  rw [htold.inside] at hinside
  constructor
  · intro hlaw
    obtain ⟨n, hn⟩ := Option.ne_none_iff_exists'.mp (hinside.mp hlaw.inside)
    refine ⟨by omega, fun _ => ⟨n, hn, fun hmalloc hroom => ?_⟩, ?_⟩
    · have hfits := hlaw.fits
      rw [hstored, if_pos ⟨hroom, hmalloc⟩, htold.count n hn] at hfits
      exact hfits
    · rintro ⟨-, -, (⟨hlen, -⟩ | ⟨hlen, -⟩)⟩ <;> omega
  · intro hclear
    obtain ⟨n, hn, hroom⟩ := hclear.walked h
    refine ⟨?_, hinside.mpr ?_, fun _ f hf => ?_⟩
    · rw [hstored]
      split
      · rename_i hyes
        rw [htold.count n hn]
        exact hroom hyes.2 hyes.1
      · exact Nat.zero_le _
    · rw [hn]
      exact Option.some_ne_none n
    · exact absurd (hn.symm.trans (walked_past_end hf)) (Option.some_ne_none n)

theorem law_unlisted (hlen : 5 ≤ frameLen) (h : ¬ ListWalked m frameLen) :
    BtmRspLaw malloc m frameLen ↔ BtmRspClear malloc m frameLen := by
  obtain ⟨hinside, hcands, hnum⟩ := @run_unlisted malloc m frameLen hlen h
  constructor
  · intro hlaw
    refine ⟨hlen, fun hw => absurd hw h, fun hlone => ?_⟩
    obtain ⟨f, hf, hsome⟩ := bytes_of_lone hlone
    have hcount := (hlaw.stored (.inl (room_unlisted h)) f hf).1
    rw [hnum] at hcount
    exact hsome (List.length_eq_zero_iff.mp hcount.symm)
  · intro hclear
    refine ⟨?_, hinside, fun _ f hf => ?_⟩
    · rw [hcands]
      exact Nat.zero_le _
    · have hnil : f.reports = [] := by
        by_contra hsome
        exact hclear.several (lone_of_bytes hf h hsome)
      rw [hcands, hnum, hnil]
      exact ⟨rfl, rfl⟩

theorem law_empty (malloc : Bool) (m : Mem UInt8) : BtmRspLaw malloc m 0 := by
  refine ⟨Nat.zero_le _, fun o ho => absurd ho List.not_mem_nil, fun _ f hf => ?_⟩
  have hlen := frameLen_of_bytes hf
  omega

theorem btm_rsp_law (malloc : Bool) (m : Mem UInt8) (frameLen : ℕ) :
    BtmRspLaw malloc m frameLen ↔ frameLen = 0 ∨ BtmRspClear malloc m frameLen := by
  cases Decidable.em (frameLen = 0) with
  | inl hzero =>
    rw [hzero]
    exact iff_of_true (law_empty malloc m) (.inl rfl)
  | inr hpos =>
    rw [or_iff_right hpos]
    cases Nat.lt_or_ge frameLen 5 with
    | inl hshort =>
      refine iff_of_false (fun h => header_past hpos hshort h.inside) fun h => ?_
      have hheader := h.header
      omega
    | inr hlen =>
      cases Classical.em (ListWalked m frameLen) with
      | inl hwalk => exact law_listed hwalk
      | inr hno => exact law_unlisted hlen hno

end Law

def wholeResponse : List UInt8 :=
  [10, 8, 1, 0, 0, 2, 0, 0, 0, 0, 1, 0x34, 13, 2, 0, 0, 0, 0, 1, 0, 0, 0, 0, 81, 6, 7]

theorem whole_response_read_past : ¬ BtmRspLaw true (fun i => wholeResponse.getD i 0) 26 := by
  intro h
  exact absurd (h.inside 26) (by decide +kernel)

end Wnm
