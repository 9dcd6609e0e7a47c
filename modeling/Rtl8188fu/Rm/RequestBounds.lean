import Rtl8188fu.Rm.RequestParse

namespace Rm

open ByteMemory ElementScan

structure Counts where
  ids : ℕ
  rpts : ℕ
  ssid : ℕ

def MeasReqObj.counts (q : MeasReqObj) : Counts :=
  ⟨q.opt.optId.length, q.opt.apChRpt.length, q.opt.ssidLength.toNat⟩

section Rules

variable (env : ParseEnv) (mem : Mem UInt8)

def countBcnElem (p : ℕ) (c : Counts) : Counts :=
  if mem p = bcnReqSsid then { c with ids := c.ids + 1, ssid := (mem (p + 1)).toNat }
  else if mem p = bcnReqRepInfo then c
  else if mem p = bcnReqRepDetail then { c with ids := c.ids + 1 }
  else if mem p = bcnReqReq then if env.alloc p then { c with ids := c.ids + 1 } else c
  else if mem p = bcnReqApChRep then
    if bcnReqOptApChRptMaxNum < c.rpts then c
    else { c with ids := c.ids + 1, rpts := c.rpts + 1 }
  else c

def badReport (p rpts : ℕ) : Bool :=
  !env.alloc p || decide (chListLen mem p < 0) || decide (bcnReqOptApChRptMaxNum ≤ rpts)

def bcnRules : Rules Counts where
  more c := c.ids < bcnReqOptMaxNum
  next := countBcnElem env mem
  reads p c := bcnElemReads env mem p c.rpts
  bad p c := decide (mem p = bcnReqApChRep) && decide (c.rpts ≤ bcnReqOptApChRptMaxNum) &&
    badReport env mem p c.rpts

def condRules (repInfo : UInt8) : Rules Counts where
  more _ := true
  next _ c := c
  reads p _ := if mem p = repInfo then 4 else 2
  bad _ _ := false

end Rules

section Tracks

variable {env : ParseEnv} {mem : Mem UInt8} {p : ℕ} {q : MeasReqObj}

@[simp] theorem rmEnCapChkAndSet_counts (cap : RmCapEn → Bool) (en : RmCapEn) :
    (q.rmEnCapChkAndSet cap en).counts = q.counts := by
  unfold MeasReqObj.rmEnCapChkAndSet
  split <;> rfl

@[simp] theorem rmEnCapChkAndSet_opt (cap : RmCapEn → Bool) (en : RmCapEn) :
    (q.rmEnCapChkAndSet cap en).opt = q.opt := by
  unfold MeasReqObj.rmEnCapChkAndSet
  split <;> rfl

@[simp] theorem rmEnCapChkAndSet_wild (cap : RmCapEn → Bool) (en : RmCapEn) :
    (q.rmEnCapChkAndSet cap en).wild = q.wild := by
  unfold MeasReqObj.rmEnCapChkAndSet
  split <;> rfl

@[simp] theorem pushOptId_counts (eid : UInt8) :
    (q.pushOptId eid).counts = { q.counts with ids := q.counts.ids + 1 } := by
  simp [MeasReqObj.pushOptId, MeasReqObj.counts]

theorem rmParseSsid_counts :
    (rmParseSsid mem p q).counts = { q.counts with ssid := (mem (p + 1)).toNat } := by
  simp [rmParseSsid, MeasReqObj.counts]

theorem rmParseReq_counts : (rmParseReq env mem p q).counts = q.counts := by
  unfold rmParseReq
  split <;> rfl

theorem rmParseApChRep_counts :
    (rmParseApChRep env mem p q).counts = { q.counts with rpts := q.counts.rpts + 1 } := by
  simp [rmParseApChRep, MeasReqObj.counts]

theorem parseBcnElem_counts (p : ℕ) (q : MeasReqObj) :
    (parseBcnElem env mem p q).counts = countBcnElem env mem p q.counts := by
  have hrpts : q.opt.apChRpt.length = q.counts.rpts := rfl
  unfold parseBcnElem countBcnElem
  rw [hrpts]
  split
  · rw [pushOptId_counts, rmParseSsid_counts]
  · split
    · exact rmEnCapChkAndSet_counts _ _
    · split
      · exact pushOptId_counts _
      · split
        · split
          · rw [pushOptId_counts, rmParseReq_counts]
          · exact rmParseReq_counts
        · split
          · split
            · rfl
            · rw [rmParseApChRep_counts, pushOptId_counts]
          · rfl

theorem rmParseReq_wild : (rmParseReq env mem p q).wild = q.wild := by
  unfold rmParseReq
  split <;> rfl

theorem parseBcnElem_wild (p : ℕ) (q : MeasReqObj) :
    (parseBcnElem env mem p q).wild = (q.wild || (bcnRules env mem).bad p q.counts) := by
  have hother (hid : mem p ≠ bcnReqApChRep) : (bcnRules env mem).bad p q.counts = false := by
    simp [bcnRules, hid]
  unfold parseBcnElem
  split
  · next hid => rw [hother (by rw [hid]; decide), Bool.or_false]; rfl
  · split
    · next hid => rw [hother (by rw [hid]; decide), Bool.or_false]; exact rmEnCapChkAndSet_wild _ _
    · split
      · next hid => rw [hother (by rw [hid]; decide), Bool.or_false]; rfl
      · split
        · next hid =>
          rw [hother (by rw [hid]; decide), Bool.or_false]
          split <;> exact rmParseReq_wild
        · split
          · next hid =>
            split
            · next hfull =>
              have hbad : (bcnRules env mem).bad p q.counts = false := by
                simp [bcnRules, MeasReqObj.counts, hfull]
              rw [hbad, Bool.or_false]
            · next hroom =>
              simp [rmParseApChRep, MeasReqObj.pushOptId, bcnRules, badReport, MeasReqObj.counts,
                hid, Nat.le_of_not_lt hroom, Bool.or_assoc]
          · next hid => rw [hother hid, Bool.or_false]

theorem bcn_tracks (env : ParseEnv) (mem : Mem UInt8) :
    Tracks (bcnElements env mem) (bcnRules env mem) MeasReqObj.counts MeasReqObj.wild where
  more _ := rfl
  next := parseBcnElem_counts
  reads _ _ := rfl
  wild := parseBcnElem_wild

theorem parseCondElem_counts (repInfo : UInt8) (en : RmCapEn) (p : ℕ) (q : MeasReqObj) :
    (parseCondElem env mem repInfo en p q).counts = q.counts := by
  unfold parseCondElem
  split
  · exact rmEnCapChkAndSet_counts _ _
  · rfl

theorem parseCondElem_wild (repInfo : UInt8) (en : RmCapEn) (p : ℕ) (q : MeasReqObj) :
    (parseCondElem env mem repInfo en p q).wild = q.wild := by
  unfold parseCondElem
  split
  · exact rmEnCapChkAndSet_wild _ _
  · rfl

theorem cond_tracks (env : ParseEnv) (mem : Mem UInt8) (repInfo : UInt8) (en : RmCapEn) :
    Tracks (condElements env mem repInfo en) (condRules mem repInfo) MeasReqObj.counts
      MeasReqObj.wild where
  more _ := rfl
  next := parseCondElem_counts repInfo en
  reads _ _ := rfl
  wild p q := (parseCondElem_wild repInfo en p q).trans (Bool.or_false _).symm

end Tracks

section Bounds

variable {env : ParseEnv} {mem : Mem UInt8} {q : MeasReqObj} {s : Scan MeasReqObj} {n : ℕ}

structure Roomy (q : MeasReqObj) : Prop where
  ids : q.counts.ids ≤ bcnReqOptMaxNum
  rpts : q.wild = false → q.counts.rpts ≤ bcnReqOptApChRptMaxNum

theorem countBcnElem_ids (p : ℕ) (c : Counts) : (countBcnElem env mem p c).ids ≤ c.ids + 1 := by
  unfold countBcnElem
  repeat' split
  all_goals simp

theorem countBcnElem_rpts {p : ℕ} {c : Counts} (hroom : c.rpts ≤ bcnReqOptApChRptMaxNum)
    (hbad : (bcnRules env mem).bad p c = false) :
    (countBcnElem env mem p c).rpts ≤ bcnReqOptApChRptMaxNum := by
  unfold countBcnElem
  repeat' split
  all_goals try exact hroom
  next hid _ =>
    have hless : c.rpts < bcnReqOptApChRptMaxNum := by
      simp only [bcnRules, hid, decide_true, hroom, Bool.true_and, badReport,
        Bool.or_eq_false_iff, decide_eq_false_iff_not, not_le] at hbad
      exact hbad.2
    exact hless

theorem Roomy.bcnElem (h : Roomy q) (hmore : q.moreOptIds = true) (p : ℕ) :
    Roomy (parseBcnElem env mem p q) where
  ids := by
    rw [parseBcnElem_counts]
    exact (countBcnElem_ids p q.counts).trans (of_decide_eq_true hmore)
  rpts hwild := by
    rw [parseBcnElem_wild, Bool.or_eq_false_iff] at hwild
    rw [parseBcnElem_counts]
    exact countBcnElem_rpts (h.rpts hwild.1) hwild.2

theorem Roomy.condElem (h : Roomy q) (repInfo : UInt8) (en : RmCapEn) (p : ℕ) :
    Roomy (parseCondElem env mem repInfo en p q) where
  ids := by
    rw [parseCondElem_counts]
    exact h.ids
  rpts hwild := by
    rw [parseCondElem_wild] at hwild
    rw [parseCondElem_counts]
    exact h.rpts hwild

theorem parseElements_invariant {inv : MeasReqObj → Prop} {hd : Handler MeasReqObj}
    (hkeep : ∀ p q, inv q → hd.more q = true → inv (hd.handle p q)) {fuel p reach : ℕ} {len : ℤ}
    (hq : inv { q with optSElemLen := len })
    (hrun : parseElements mem hd fuel p len reach q = some s) : inv s.obj := by
  refine @WhileLoop.Ends.invariant _ (ElementScan.loop mem hd) _ _ (fun s => inv s.obj)
    (fun s => inv s.obj) ⟨fuel, hrun⟩ hq (fun _ hs _ => hs) ?_ fun s t _ _ hbody => ?_
  · intro s t hs hguard hbody
    cases hbody
    exact hkeep s.p s.obj hs (guard_iff.mp hguard).2
  · cases hbody

theorem Roomy.parseElements (h : Roomy q) {hd : Handler MeasReqObj}
    (hkeep : ∀ p q, Roomy q → hd.more q = true → Roomy (hd.handle p q)) {fuel p reach : ℕ}
    {len : ℤ} (hrun : Rm.parseElements mem hd fuel p len reach q = some s) : Roomy s.obj := by
  have hstart : Roomy { q with optSElemLen := len } := ⟨h.ids, h.rpts⟩
  exact parseElements_invariant hkeep hstart hrun

theorem Roomy.rmParseMeasReq (h : q.counts = ⟨0, 0, 0⟩) {fuel pbody reach : ℕ}
    (hrun : Rm.rmParseMeasReq env mem fuel pbody reach q = some s) : Roomy s.obj := by
  unfold Rm.rmParseMeasReq at hrun
  dsimp only at hrun
  generalize hstart : (if (measFields mem pbody q).mType = bcnReq then
    bcnFields mem pbody (measFields mem pbody q) else measFields mem pbody q) = start at hrun
  have hzero : start.counts = ⟨0, 0, 0⟩ := by
    rw [← hstart, ← h]
    split <;> rfl
  have hroomy : Roomy start := by
    constructor
    · rw [hzero]
      exact Nat.zero_le _
    · rw [hzero]
      exact fun _ => Nat.zero_le _
  split at hrun
  · cases hrun
    exact hroomy
  · split at hrun
    · exact hroomy.parseElements (fun p q hq hmore => hq.bcnElem hmore p) hrun
    · split at hrun
      · exact hroomy.parseElements (fun p q hq _ => hq.condElem _ _ p) hrun
      · split at hrun
        · exact hroomy.parseElements (fun p q hq _ => hq.condElem _ _ p) hrun
        · cases hrun
          exact hroomy

end Bounds

section Law

variable {env : ParseEnv} {mem : Mem UInt8} {n : ℕ}

def Handled (mType : UInt8) : Prop := mType = bcnReq ∨ mType = chLoadReq ∨ mType = noiseHistoReq

def ShortSsid (c : Counts) : Prop := c.ssid ≤ sizeofSsid

def sElemLen (mem : Mem UInt8) : ℤ := (mem 6).toNat - ((measHead (mem 9) : ℤ) - 2)

def Nested (env : ParseEnv) (mem : Mem UInt8) (n : ℕ) : Prop :=
  if mem 9 = bcnReq then
    Fits mem (bcnRules env mem) n ShortSsid 23 (sElemLen mem) ⟨0, 0, 0⟩
  else Fits mem (condRules mem 1) n ShortSsid 16 (sElemLen mem) ⟨0, 0, 0⟩

def Acceptable (env : ParseEnv) (mem : Mem UInt8) (n : ℕ) : Prop :=
  10 ≤ n ∧ (mem 5 = measReqIe → Handled (mem 9) →
    5 + measHead (mem 9) ≤ n ∧ (0 < sElemLen mem → Nested env mem n))

structure Received.Contained (n : ℕ) (r : Received) : Prop where
  reads : r.reach ≤ n
  stops : r.late = false
  stores : r.q.wild = false
  ids : r.q.opt.optId.length ≤ bcnReqOptMaxNum
  rpts : r.q.opt.apChRpt.length ≤ bcnReqOptApChRptMaxNum
  ssid : r.q.opt.ssidLength.toNat ≤ sizeofSsid

theorem parseElements_iff {h : Handler MeasReqObj} {r : Rules Counts}
    (ht : Tracks h r MeasReqObj.counts MeasReqObj.wild) {q : MeasReqObj} (hwild : q.wild = false)
    (p : ℕ) (len : ℤ) (reach : ℕ) :
    (∃ fuel s, parseElements mem h fuel p len reach q = some s ∧ Clean n MeasReqObj.wild s ∧
        ShortSsid s.obj.counts) ↔ reach ≤ n ∧ Fits mem r n ShortSsid p len q.counts := by
  have hiff := @clean_iff_fits _ _ mem h r MeasReqObj.counts MeasReqObj.wild n ShortSsid
    ⟨{ q with optSElemLen := len }, p, len, reach, false⟩ ht
  constructor
  · rintro ⟨fuel, s, hrun, hclean, hssid⟩
    obtain ⟨hstart, hfits⟩ := hiff.mp ⟨s, ⟨fuel, hrun⟩, hclean, hssid⟩
    exact ⟨hstart.reach, hfits⟩
  · rintro ⟨hreach, hfits⟩
    obtain ⟨s, ⟨fuel, hrun⟩, hclean, hssid⟩ := hiff.mpr ⟨⟨hreach, rfl, hwild⟩, hfits⟩
    exact ⟨fuel, s, hrun, hclean, hssid⟩

theorem rmParseMeasReq_iff {q : MeasReqObj} (hq : q.counts = ⟨0, 0, 0⟩) (hwild : q.wild = false)
    (htype : q.mType = mem 9) (hhandled : Handled (mem 9)) :
    (∃ fuel s, rmParseMeasReq env mem fuel 5 10 q = some s ∧ Clean n MeasReqObj.wild s ∧
        ShortSsid s.obj.counts) ↔
      5 + measHead (mem 9) ≤ n ∧ (0 < sElemLen mem → Nested env mem n) := by
  generalize hstart : (if (measFields mem 5 q).mType = bcnReq then
    bcnFields mem 5 (measFields mem 5 q) else measFields mem 5 q) = start
  have hzero : start.counts = ⟨0, 0, 0⟩ := by
    rw [← hstart, ← hq]
    split <;> rfl
  have hclean : start.wild = false := by
    rw [← hstart, ← hwild]
    split <;> rfl
  have hkept : start.mType = mem 9 := by
    rw [← hstart, ← htype]
    split <;> rfl
  have hhead : max 10 (5 + measHead (mem 9)) = 5 + measHead (mem 9) := by
    unfold measHead
    split <;> rfl
  unfold rmParseMeasReq
  dsimp only
  rw [hstart, hkept, hhead]
  have hlen : ((mem (5 + 1)).toNat : ℤ) - ((measHead (mem 9) : ℤ) - 2) = sElemLen mem := rfl
  rw [hlen]
  cases Decidable.em (sElemLen mem ≤ 0) with
  | inl hnone =>
    simp only [if_pos hnone]
    constructor
    · rintro ⟨fuel, s, hs, hsclean, -⟩
      cases hs
      exact ⟨hsclean.reach, fun hpos => absurd hpos (not_lt.mpr hnone)⟩
    · rintro ⟨hreach, -⟩
      refine ⟨0, _, rfl, ⟨hreach, rfl, hclean⟩, ?_⟩
      rw [hzero]
      exact Nat.zero_le _
  | inr hsome =>
    have hpos : 0 < sElemLen mem := not_le.mp hsome
    simp only [if_neg hsome, hpos, true_imp_iff]
    unfold Nested
    cases Decidable.em (mem 9 = bcnReq) with
    | inl hbcn =>
      simp only [if_pos hbcn]
      have hiff := @parseElements_iff mem n _ _ (bcn_tracks env mem) start hclean 23 (sElemLen mem) 23
      rw [hzero] at hiff
      have hsize : 5 + measHead (mem 9) = 23 := by rw [hbcn]; rfl
      rw [hsize]
      exact hiff
    | inr hother =>
      have hsize : 5 + measHead (mem 9) = 16 := by rw [measHead, if_neg hother]
      have hiff := fun en => @parseElements_iff mem n _ _ (cond_tracks env mem 1 en) start hclean 16
        (sElemLen mem) 16
      rw [hzero] at hiff
      simp only [if_neg hother, hsize]
      cases Decidable.em (mem 9 = chLoadReq) with
      | inl hload =>
        simp only [if_pos hload]
        exact hiff .chLoad
      | inr hnot =>
        have hnoise : mem 9 = noiseHistoReq := by
          rcases hhandled with h | h | h
          · exact absurd h hother
          · exact absurd h hnot
          · exact h
        simp only [if_neg hnot, if_pos hnoise]
        exact hiff .noiseHisto

theorem rmEnCapChkAndSet_mType (cap : RmCapEn → Bool) (en : RmCapEn) (q : MeasReqObj) :
    (q.rmEnCapChkAndSet cap en).mType = q.mType := by
  unfold MeasReqObj.rmEnCapChkAndSet
  split <;> rfl

structure Fresh (mem : Mem UInt8) (q : MeasReqObj) : Prop where
  counts : q.counts = ⟨0, 0, 0⟩
  wild : q.wild = false
  mType : q.mType = mem 9

theorem measHeader_fresh (mem : Mem UInt8) : Fresh mem (measHeader mem) := ⟨rfl, rfl, rfl⟩

theorem Fresh.rmEnCapChkAndSet {q : MeasReqObj} (h : Fresh mem q) (cap : RmCapEn → Bool)
    (en : RmCapEn) : Fresh mem (q.rmEnCapChkAndSet cap en) :=
  ⟨(rmEnCapChkAndSet_counts cap en).trans h.counts, (rmEnCapChkAndSet_wild cap en).trans h.wild,
    (rmEnCapChkAndSet_mType cap en q).trans h.mType⟩

theorem Fresh.chkBcnMode {q : MeasReqObj} (h : Fresh mem q) (cap : RmCapEn → Bool) :
    Fresh mem (Rm.chkBcnMode cap q) := by
  unfold Rm.chkBcnMode
  split
  · exact h.rmEnCapChkAndSet _ _
  · split
    · exact h.rmEnCapChkAndSet _ _
    · split
      · exact h.rmEnCapChkAndSet _ _
      · exact ⟨h.counts, h.wild, h.mType⟩

theorem contained_ofScan {q : MeasReqObj} (h : Fresh mem q) {fuel : ℕ} {s : Scan MeasReqObj}
    (hrun : rmParseMeasReq env mem fuel 5 10 q = some s) :
    (Received.ofScan s).Contained n ↔ Clean n MeasReqObj.wild s ∧ ShortSsid s.obj.counts := by
  have hroomy := Roomy.rmParseMeasReq h.counts hrun
  constructor
  · exact fun hin => ⟨⟨hin.reads, hin.stops, hin.stores⟩, hin.ssid⟩
  · rintro ⟨hclean, hssid⟩
    exact ⟨hclean.reach, hclean.late, hclean.wild, hroomy.ids, hroomy.rpts hclean.wild, hssid⟩

theorem parsed_iff {q : MeasReqObj} (h : Fresh mem q) (hhandled : Handled (mem 9)) :
    (∃ fuel r, (rmParseMeasReq env mem fuel 5 10 q).map Received.ofScan = some r ∧
        r.Contained n) ↔
      5 + measHead (mem 9) ≤ n ∧ (0 < sElemLen mem → Nested env mem n) := by
  rw [← rmParseMeasReq_iff h.counts h.wild h.mType hhandled]
  refine exists_congr fun fuel => ⟨?_, ?_⟩
  · rintro ⟨r, hr, hin⟩
    obtain ⟨s, hs, rfl⟩ := Option.map_eq_some_iff.mp hr
    exact ⟨s, hs, (contained_ofScan h hs).mp hin⟩
  · rintro ⟨s, hs, hclean⟩
    exact ⟨.ofScan s, by rw [hs]; rfl, (contained_ofScan h hs).mpr hclean⟩

theorem unparsed_iff {q : MeasReqObj} (hcounts : q.counts = ⟨0, 0, 0⟩)
    (hwild : q.wild = false) (enqueued : Bool) :
    (∃ _ : ℕ, ∃ r, some (⟨q, 10, false, enqueued⟩ : Received) = some r ∧ r.Contained n) ↔ 10 ≤ n := by
  constructor
  · rintro ⟨-, r, hr, hin⟩
    cases hr
    exact hin.reads
  · intro hn
    have hids : q.opt.optId.length = 0 := congrArg Counts.ids hcounts
    have hrpts : q.opt.apChRpt.length = 0 := congrArg Counts.rpts hcounts
    have hssid : q.opt.ssidLength.toNat = 0 := congrArg Counts.ssid hcounts
    exact ⟨0, _, rfl, hn, rfl, hwild, hids.le.trans (Nat.zero_le _), hrpts.le.trans (Nat.zero_le _),
      hssid.le.trans (Nat.zero_le _)⟩

theorem request_law (env : ParseEnv) (mem : Mem UInt8) (n : ℕ) :
    (∃ fuel r, rmRecvRadioMensReq env mem fuel = some r ∧ r.Contained n) ↔
      Acceptable env mem n := by
  have hfresh := measHeader_fresh mem
  have hbig : 10 ≤ 5 + measHead (mem 9) := by
    unfold measHead
    split <;> decide
  unfold rmRecvRadioMensReq Acceptable
  dsimp only
  have heid : (measHeader mem).eId = mem 5 := rfl
  rw [heid, hfresh.mType]
  cases Decidable.em (mem 5 = measReqIe) with
  | inr hother =>
    simp only [if_pos hother, hother, false_imp_iff, and_true]
    exact unparsed_iff hfresh.counts hfresh.wild false
  | inl hid =>
    simp only [if_neg (not_not.mpr hid)]
    simp only [hid, true_imp_iff]
    have hparsed (hhandled : Handled (mem 9)) : (10 ≤ n ∧ (Handled (mem 9) →
        5 + measHead (mem 9) ≤ n ∧ (0 < sElemLen mem → Nested env mem n))) ↔
        5 + measHead (mem 9) ≤ n ∧ (0 < sElemLen mem → Nested env mem n) :=
      ⟨fun h => h.2 hhandled, fun h => ⟨hbig.trans h.1, fun _ => h⟩⟩
    cases Decidable.em (mem 9 = bcnReq) with
    | inl hbcn =>
      simp only [if_pos hbcn]
      rw [hparsed (.inl hbcn)]
      exact parsed_iff (hfresh.chkBcnMode env.cap) (.inl hbcn)
    | inr hnbcn =>
      simp only [if_neg hnbcn]
      cases Decidable.em (mem 9 = chLoadReq) with
      | inl hload =>
        simp only [if_pos hload]
        rw [hparsed (.inr (.inl hload))]
        exact parsed_iff (hfresh.rmEnCapChkAndSet env.cap .chLoad) (.inr (.inl hload))
      | inr hnload =>
        simp only [if_neg hnload]
        cases Decidable.em (mem 9 = noiseHistoReq) with
        | inl hnoise =>
          simp only [if_pos hnoise]
          rw [hparsed (.inr (.inr hnoise))]
          exact parsed_iff (hfresh.rmEnCapChkAndSet env.cap .noiseHisto) (.inr (.inr hnoise))
        | inr hnnoise =>
          simp only [if_neg hnnoise]
          have hnot : ¬ Handled (mem 9) := by
            rintro (h | h | h)
            · exact hnbcn h
            · exact hnload h
            · exact hnnoise h
          simp only [hnot, false_imp_iff, and_true]
          have hrefused : Fresh mem ((measHeader mem).rmSetRepMode measRepModIncap) :=
            ⟨hfresh.counts, hfresh.wild, hfresh.mType⟩
          exact unparsed_iff hrefused.counts hrefused.wild true

def capable : ParseEnv := ⟨fun _ => true, fun _ => true⟩

def overlongVendorElement : List UInt8 :=
  [5, 0, 1, 0, 0, 38, 18, 1, 0, 5, 81, 1, 0, 0, 0, 0, 0, 255, 255, 255, 255, 255, 255, 221, 10]

def frameAt (bytes : List UInt8) : Mem UInt8 := fun i => bytes.getD i 0

theorem overlong_not_stopped :
    ¬ ∃ fuel r, rmRecvRadioMensReq capable (frameAt overlongVendorElement) fuel = some r ∧
      r.Contained overlongVendorElement.length := by
  rintro ⟨fuel, r, hrun, hin⟩
  have hparsed : (rmParseMeasReq capable (frameAt overlongVendorElement) fuel 5 10
      (chkBcnMode capable.cap (measHeader (frameAt overlongVendorElement)))).map Received.ofScan = some r :=
    hrun
  have hfresh := (measHeader_fresh (frameAt overlongVendorElement)).chkBcnMode capable.cap
  have hfits := (parsed_iff hfresh (.inl rfl)).mp ⟨fuel, r, hparsed, hin⟩
  have hnested : Fits (frameAt overlongVendorElement) (bcnRules capable _) 25 ShortSsid 23 2
      ⟨0, 0, 0⟩ := hfits.2 (by decide)
  cases hnested with
  | full hmore _ => exact absurd hmore (by decide)
  | more _ _ _ _ hnext =>
    cases hnext with
    | full hmore _ => exact absurd hmore (by decide)
    | more hpos _ _ _ _ => exact absurd hpos (by decide)

end Law

end Rm
