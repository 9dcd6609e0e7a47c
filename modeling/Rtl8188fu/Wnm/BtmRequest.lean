import Rtl8188fu.Wnm.SurveyLaw

namespace Wnm

open ByteMemory Tlv
open Ie (u32Sub)

def bssTerminationIncluded : UInt8 := 0x08

def essDisassocImminent : UInt8 := 0x10

def wnmBtmTermDurSubeid : UInt8 := 0x04

structure BtmTermDuration where
  id : UInt8
  len : UInt8
  tsf : Vector UInt8 8
  duration : Vector UInt8 2
  deriving DecidableEq

structure BtmReqHdr where
  dialogToken : UInt8
  reqMode : UInt8
  disassocTimer : Vector UInt8 2
  validityInterval : UInt8
  termDuration : BtmTermDuration
  deriving DecidableEq

structure MboReason where
  apCapInd : UInt8
  reason : UInt8
  delay : Vector UInt8 2

def rtwMboBuildWnmBtmreqReasonIes : Option MboReason → List UInt8
  | none => []
  | some r =>
    [221, 14, 0x50, 0x6f, 0x9a, 0x16, 0x1, 1, r.apCapInd, 0x6, 1, r.reason, 0x8, 2] ++ r.delay.toList

def BtmTermDuration.bytes (d : BtmTermDuration) : List UInt8 :=
  [d.id, d.len] ++ (d.tsf.toList ++ d.duration.toList)

def WnmBtmCant.bytes (c : WnmBtmCant) : List UInt8 :=
  [c.nbRpt.id, c.nbRpt.len] ++ (c.nbRpt.bssid.toList ++ (c.nbRpt.bssInfo.toList ++
    ([c.nbRpt.regClass, c.nbRpt.chNum, c.nbRpt.phyType] ++ [candPrefSubeid, 1, c.preference])))

def termBytes (hdr : BtmReqHdr) : List UInt8 :=
  if hdr.reqMode &&& bssTerminationIncluded ≠ 0 then hdr.termDuration.bytes else []

-- an empty list stands for purl == NULL and for url_len == 0
def urlBytes (hdr : BtmReqHdr) (purl : List UInt8) : List UInt8 :=
  if 0 < purl.length ∧ hdr.reqMode &&& essDisassocImminent ≠ 0 then
    UInt8.ofNat purl.length :: purl
  else []

def rtwWnmBuildBtmReqIes (phdr : BtmReqHdr) (purl : List UInt8) (pcandidates : List WnmBtmCant)
    (mbo : Option MboReason) : List UInt8 :=
  ([phdr.dialogToken, phdr.reqMode] ++ (phdr.disassocTimer.toList ++ [phdr.validityInterval])) ++
    (termBytes phdr ++ (urlBytes phdr purl ++ (pcandidates.flatMap WnmBtmCant.bytes ++
      rtwMboBuildWnmBtmreqReasonIes mbo)))

def rtwWnmBtmReqHdrParsing (m : Mem UInt8) (pframe : ℕ) : BtmReqHdr where
  dialogToken := m (pframe + 2)
  reqMode := m (pframe + 3)
  disassocTimer := Vector.ofFn fun i => m (pframe + 4 + i)
  validityInterval := m (pframe + 6)
  termDuration :=
    if m (pframe + 3) &&& bssTerminationIncluded ≠ 0 ∧ m (pframe + 7) = wnmBtmTermDurSubeid then
      { id := m (pframe + 7)
        len := m (pframe + 8)
        tsf := Vector.ofFn fun i => m (pframe + 9 + i)
        duration := Vector.ofFn fun i => m (pframe + 17 + i) }
    else ⟨0, 0, Vector.replicate 8 0, Vector.replicate 2 0⟩

def rtwWnmBtmCandidatesOffsetGet (m : Mem UInt8) (pframe : ℕ) : ℕ :=
  let offset := 7 + if m (pframe + 3) &&& bssTerminationIncluded ≠ 0 then 12 else 0
  if m (pframe + 3) &&& essDisassocImminent ≠ 0 then 1 + (m (pframe + offset)).toNat else offset

structure BtmReqRun where
  reqHdr : BtmReqHdr
  offset : ℕ
  survey : Option SurveyRun

def rtwWnmProcessBtmReq (malloc : Bool) (m : Mem UInt8) (pframe frameLen : ℕ) (nb : NbInfo) :
    BtmReqRun :=
  let offset := rtwWnmBtmCandidatesOffsetGet m pframe
  { reqHdr := rtwWnmBtmReqHdrParsing m pframe
    offset := offset
    survey :=
      if offset = 0 ∨ u32Sub frameLen offset ≤ 15 then none
      else some (rtwWnmBtmCandidatesSurvey malloc m (pframe + offset) (u32Sub frameLen offset) true nb) }

def BtmReqRun.candidates (r : BtmReqRun) : List WnmBtmCant :=
  (r.survey.map SurveyRun.candidates).getD []

structure BtmReq where
  hdr : BtmReqHdr
  url : List UInt8
  cands : List WnmBtmCant
  mbo : Option MboReason
  termId : hdr.reqMode &&& bssTerminationIncluded ≠ 0 → hdr.termDuration.id = wnmBtmTermDurSubeid
  urlSize : hdr.reqMode &&& essDisassocImminent ≠ 0 → 1 ≤ url.length ∧ url.length ≤ 255
  few : cands.length ≤ rtwMaxNbRptNum
  shaped : ∀ c ∈ cands, c.nbRpt.id = nbRptElem ∧ c.nbRpt.len = 0x10

def BtmReq.ies (q : BtmReq) : List UInt8 := rtwWnmBuildBtmReqIes q.hdr q.url q.cands q.mbo

-- category WNM and action BTM request stand before the elements
def BtmReq.body (q : BtmReq) : List UInt8 := [10, 7] ++ q.ies

def BtmReq.firstCandidate (q : BtmReq) : ℕ := 7 + ((termBytes q.hdr).length + (urlBytes q.hdr q.url).length)

def WnmBtmCant.shown (c : WnmBtmCant) : NbRptHdr × UInt8 := (c.nbRpt.fields, c.preference)

structure RoundTrip (q : BtmReq) (m : Mem UInt8) (pframe : ℕ) (run : BtmReqRun) : Prop where
  dialogToken : run.reqHdr.dialogToken = q.hdr.dialogToken
  reqMode : run.reqHdr.reqMode = q.hdr.reqMode
  disassocTimer : run.reqHdr.disassocTimer = q.hdr.disassocTimer
  validityInterval : run.reqHdr.validityInterval = q.hdr.validityInterval
  termDuration : q.hdr.reqMode &&& bssTerminationIncluded ≠ 0 →
    run.reqHdr.termDuration = q.hdr.termDuration
  offset : run.offset = q.firstCandidate
  parsed : (rtwWnmNbElemParsing true m (pframe + run.offset)
    (u32Sub q.body.length run.offset)).entries.map WnmBtmCant.shown = q.cands.map WnmBtmCant.shown
  processed : (run.candidates.map WnmBtmCant.shown).Perm (q.cands.map WnmBtmCant.shown)

section Header

variable {m : Mem UInt8} {pframe k : ℕ} {q : BtmReq}

theorem vector_held {n : ℕ} {v : Vector UInt8 n} (h : Holds m k v.toList) :
    (Vector.ofFn fun i => m (k + i)) = v := by
  refine Vector.ext fun i hi => ?_
  rw [Vector.getElem_ofFn, h i (by rwa [Vector.length_toList]), Vector.getElem_toList]

theorem pair_held {x y : UInt8} (h : Holds m k [x, y]) : m k = x ∧ m (k + 1) = y :=
  ⟨h 0 (Nat.succ_pos _), h 1 (Nat.lt_succ_self _)⟩

theorem fixed_held (h : Holds m pframe q.body) :
    m (pframe + 2) = q.hdr.dialogToken ∧ m (pframe + 3) = q.hdr.reqMode ∧
      (Vector.ofFn fun i => m (pframe + 4 + i)) = q.hdr.disassocTimer ∧
      m (pframe + 6) = q.hdr.validityInterval := by
  have hfixed := h.right.left
  have htimer := hfixed.right.left
  have hlast := hfixed.right.right
  rw [Vector.length_toList] at hlast
  obtain ⟨htoken, hmode⟩ := pair_held hfixed.left
  exact ⟨htoken, hmode, vector_held htimer, hlast 0 (Nat.succ_pos _)⟩

theorem options_held (h : Holds m pframe q.body) :
    Holds m (pframe + 7) (termBytes q.hdr ++ (urlBytes q.hdr q.url ++
      (q.cands.flatMap WnmBtmCant.bytes ++ rtwMboBuildWnmBtmreqReasonIes q.mbo))) := by
  have hrest := h.right.right
  simp only [List.length_append, List.length_cons, List.length_nil, Vector.length_toList,
    Nat.add_assoc] at hrest
  exact hrest

theorem candidates_held (h : Holds m pframe q.body) :
    Holds m (pframe + q.firstCandidate)
      (q.cands.flatMap WnmBtmCant.bytes ++ rtwMboBuildWnmBtmreqReasonIes q.mbo) := by
  have hrest := (options_held h).right.right
  rw [Nat.add_assoc, Nat.add_assoc] at hrest
  exact hrest

theorem termDuration_held (h : Holds m pframe q.body)
    (hterm : q.hdr.reqMode &&& bssTerminationIncluded ≠ 0) :
    (rtwWnmBtmReqHdrParsing m pframe).termDuration = q.hdr.termDuration := by
  have hbytes := (options_held h).left
  rw [termBytes, if_pos hterm] at hbytes
  obtain ⟨hid, hlen⟩ := pair_held hbytes.left
  have htsf : Holds m (pframe + 9) q.hdr.termDuration.tsf.toList := hbytes.right.left
  have htail := hbytes.right.right
  rw [Vector.length_toList] at htail
  have hduration : Holds m (pframe + 17) q.hdr.termDuration.duration.toList := htail
  have hshown : m (pframe + 3) &&& bssTerminationIncluded ≠ 0 ∧ m (pframe + 7) = wnmBtmTermDurSubeid := by
    rw [(fixed_held h).2.1, hid]
    exact ⟨hterm, q.termId hterm⟩
  rw [rtwWnmBtmReqHdrParsing]
  simp only [if_pos hshown]
  rw [hid, hlen, vector_held htsf, vector_held hduration]

theorem length_termBytes (hdr : BtmReqHdr) :
    (termBytes hdr).length = if hdr.reqMode &&& bssTerminationIncluded ≠ 0 then 12 else 0 := by
  rw [termBytes]
  split
  · simp only [BtmTermDuration.bytes, List.length_append, List.length_cons, List.length_nil,
      Vector.length_toList]
  · rfl

theorem offset_clear (h : Holds m pframe q.body)
    (hess : q.hdr.reqMode &&& essDisassocImminent = 0) :
    rtwWnmBtmCandidatesOffsetGet m pframe = q.firstCandidate := by
  have hmode := (fixed_held h).2.1
  have hclear : ¬ (q.hdr.reqMode &&& essDisassocImminent ≠ 0) := not_not.mpr hess
  have hnourl : urlBytes q.hdr q.url = [] := if_neg fun hurl => hclear hurl.2
  rw [rtwWnmBtmCandidatesOffsetGet, hmode, if_neg hclear, BtmReq.firstCandidate, hnourl,
    length_termBytes]
  rfl

theorem offset_imminent (h : Holds m pframe q.body)
    (hess : q.hdr.reqMode &&& essDisassocImminent ≠ 0) :
    rtwWnmBtmCandidatesOffsetGet m pframe = 1 + q.url.length ∧
      7 + (1 + q.url.length) ≤ q.firstCandidate := by
  have hmode := (fixed_held h).2.1
  obtain ⟨hsome, hshort⟩ := q.urlSize hess
  have hwritten : 0 < q.url.length ∧ q.hdr.reqMode &&& essDisassocImminent ≠ 0 := ⟨hsome, hess⟩
  have hurl := (options_held h).right.left
  have hsize : (UInt8.ofNat q.url.length).toNat = q.url.length := by
    rw [UInt8.toNat_ofNat']
    exact Nat.mod_eq_of_lt (by omega)
  rw [length_termBytes, urlBytes, if_pos hwritten] at hurl
  have hlen := hurl 0 (Nat.succ_pos _)
  rw [List.getElem_cons_zero, Nat.add_zero, Nat.add_assoc] at hlen
  refine ⟨?_, ?_⟩
  · rw [rtwWnmBtmCandidatesOffsetGet, hmode, if_pos hess]
    simp only [hlen, hsize]
  · rw [BtmReq.firstCandidate, urlBytes, if_pos hwritten, List.length_cons]
    omega

end Header

section Candidates

variable {m : Mem UInt8} {ptr pend n : ℕ} {ts : List Element} {tail xs : List UInt8}
variable {c : WnmBtmCant} {cs : List WnmBtmCant}

def candBody (c : WnmBtmCant) : List UInt8 :=
  (c.nbRpt.bssid.toList ++ (c.nbRpt.bssInfo.toList ++
    [c.nbRpt.regClass, c.nbRpt.chNum, c.nbRpt.phyType])) ++ [candPrefSubeid, 1, c.preference]

theorem length_candBody (c : WnmBtmCant) : (candBody c).length = 16 := by
  simp only [candBody, List.length_append, List.length_cons, List.length_nil, Vector.length_toList]

def candElement (c : WnmBtmCant) : Element :=
  ⟨nbRptElem, candBody c, by rw [length_candBody]; decide⟩

theorem candElement_complete (c : WnmBtmCant) : Complete (candElement c) :=
  ⟨rfl, (by decide : 13 ≤ 16).trans_eq (length_candBody c).symm⟩

theorem bytes_candElement (h : c.nbRpt.id = nbRptElem ∧ c.nbRpt.len = 0x10) :
    c.bytes = (candElement c).bytes := by
  have hlen : UInt8.ofNat (candBody c).length = 0x10 := by
    rw [length_candBody]
    rfl
  rw [WnmBtmCant.bytes, Element.bytes]
  simp only [candElement, hlen]
  rw [h.1, h.2, candBody]
  simp only [List.append_assoc]
  rfl

theorem encode_candidates (h : ∀ c ∈ cs, c.nbRpt.id = nbRptElem ∧ c.nbRpt.len = 0x10) :
    cs.flatMap WnmBtmCant.bytes = encode (cs.map candElement) := by
  induction cs with
  | nil => rfl
  | cons c cs ih =>
    rw [List.flatMap_cons, List.map_cons, encode_cons, bytes_candElement (h c List.mem_cons_self),
      ih fun d hd => h d (List.mem_cons_of_mem c hd)]

theorem rptOf_candElement (h : c.nbRpt.id = nbRptElem ∧ c.nbRpt.len = 0x10) :
    rptOf (candElement c) = c.nbRpt.fields := by
  have hheld : Holds (fun i => c.bytes.getD i 0) 0 c.bytes := by
    intro i hi
    simp only [Nat.zero_add]
    exact List.getD_eq_getElem _ _ hi
  have hbssid := hheld.right.left
  have hinfo := hheld.right.right.left
  have hfixed := hheld.right.right.right.left
  rw [Vector.length_toList] at hinfo
  rw [Vector.length_toList, Vector.length_toList] at hfixed
  rw [rptOf, ← bytes_candElement h, nbRptAt, NbRptHdr.fields, NbRptHdr.fields, NbRptHdr.mk.injEq]
  exact ⟨rfl, rfl, vector_held hbssid, vector_held hinfo, hfixed 0 (Nat.succ_pos _),
    hfixed 1 (Nat.succ_lt_succ (Nat.succ_pos _)), hfixed 2 (Nat.lt_succ_self _), rfl⟩

theorem codePref_candElement (c : WnmBtmCant) : codePref true (candElement c) = c.preference := by
  have hstuck : Stuck [] := fun t xs heq => List.cons_ne_nil _ _ heq.symm
  have harea : subelements (candElement c) =
      encode [⟨candPrefSubeid, [c.preference], (by decide : 1 < 256)⟩] ++ [] := by
    refine List.drop_left' ?_
    simp only [List.length_append, List.length_cons, List.length_nil, Vector.length_toList]
  rw [codePref, if_pos rfl, harea, areaPref, decode_encode hstuck, foundPref_cons, if_pos rfl]
  rfl

theorem shown_candsOf (h : ∀ c ∈ cs, c.nbRpt.id = nbRptElem ∧ c.nbRpt.len = 0x10)
    (tail : List UInt8) :
    (candsOf true (cs.map candElement) tail).map WnmBtmCant.shown = cs.map WnmBtmCant.shown := by
  have hcomplete : ∀ t ∈ cs.map candElement, Complete t := by
    intro t ht
    obtain ⟨c, -, rfl⟩ := List.mem_map.mp ht
    exact candElement_complete c
  refine (candsOf_fields hcomplete tail).trans ?_
  rw [List.map_map]
  refine List.map_congr_left fun c hc => ?_
  rw [Function.comp_apply, rptOf_candElement (h c hc), codePref_candElement]
  rfl

theorem nbElemLoop_long {fromBtm : Bool} (h : Holds m ptr (encode ts ++ tail))
    (hts : ∀ t ∈ ts, Complete t ∧ 14 ≤ t.body.length)
    (hpend : ptr + (encode ts ++ tail).length = pend) (hn : ts.length ≤ n) (hstop : ¬ Taken tail) :
    (nbElemLoop fromBtm m pend n ptr (encode ts ++ tail).length (m (ptr + 1)).toNat).entries =
      candsOf fromBtm ts tail := by
  induction ts generalizing ptr n with
  | nil =>
    obtain ⟨reads, hloop, -⟩ := @nbElemLoop_stop fromBtm m ptr pend n tail h hpend (.inr hstop)
    rw [encode_nil, List.nil_append, hloop]
    rfl
  | cons t ts ih =>
    obtain ⟨n, rfl⟩ := Nat.exists_eq_add_of_le' (Nat.lt_of_lt_of_le (Nat.succ_pos _) hn)
    obtain ⟨ht, hbody⟩ := hts t List.mem_cons_self
    rw [encode_cons, List.append_assoc] at h hpend ⊢
    have hlong : 16 ≤ (t.bytes ++ (encode ts ++ tail)).length := by
      rw [List.length_append, Element.length_bytes]
      omega
    have hnext : ptr + t.bytes.length + (encode ts ++ tail).length = pend := by
      rw [← hpend, @List.length_append _ t.bytes, Nat.add_assoc]
    rw [nbElemLoop_step h ht hpend]
    simp only [nbRptAt_eq h hlong, ih h.right (fun u hu => hts u (List.mem_cons_of_mem t hu)) hnext
      (Nat.le_of_succ_le_succ hn)]
    rfl

theorem mbo_refused (mbo : Option MboReason) : ¬ Taken (rtwMboBuildWnmBtmreqReasonIes mbo) := by
  cases mbo with
  | none => exact fun h => absurd h.1 (Nat.not_succ_le_zero _)
  | some r => exact fun h => absurd h.2.1 (by decide : (221 : UInt8) ≠ nbRptElem)

end Candidates

section Law

variable {malloc : Bool} {nb : NbInfo} {q : BtmReq} {m : Mem UInt8} {pframe : ℕ}

def BtmReq.offered (q : BtmReq) : List UInt8 :=
  encode (q.cands.map candElement) ++ rtwMboBuildWnmBtmreqReasonIes q.mbo

theorem BtmReq.offered_eq (q : BtmReq) :
    q.cands.flatMap WnmBtmCant.bytes ++ rtwMboBuildWnmBtmreqReasonIes q.mbo = q.offered := by
  rw [offered, encode_candidates q.shaped]

theorem length_body (q : BtmReq) : q.body.length = q.firstCandidate + q.offered.length := by
  rw [← q.offered_eq]
  simp only [BtmReq.body, BtmReq.ies, rtwWnmBuildBtmReqIes, BtmReq.firstCandidate,
    List.length_append, List.length_cons, List.length_nil, Vector.length_toList]
  omega

theorem left_offered (q : BtmReq) : u32Sub q.body.length q.firstCandidate = q.offered.length := by
  rw [length_body, Ie.u32Sub_of_le (Nat.le_add_right _ _), Nat.add_sub_cancel_left]

theorem parsed_candidates (h : Holds m pframe q.body) :
    (rtwWnmNbElemParsing true m (pframe + q.firstCandidate) q.offered.length).entries.map
      WnmBtmCant.shown = q.cands.map WnmBtmCant.shown := by
  have hheld := candidates_held h
  rw [q.offered_eq] at hheld
  have hlong : ∀ t ∈ q.cands.map candElement, Complete t ∧ 14 ≤ t.body.length := by
    intro t ht
    obtain ⟨c, -, rfl⟩ := List.mem_map.mp ht
    exact ⟨candElement_complete c, (by decide : 14 ≤ 16).trans_eq (length_candBody c).symm⟩
  have hfew : (q.cands.map candElement).length ≤ rtwMaxNbRptNum := by
    rw [List.length_map]
    exact q.few
  rw [← shown_candsOf q.shaped (rtwMboBuildWnmBtmreqReasonIes q.mbo)]
  exact congrArg (List.map WnmBtmCant.shown)
    (nbElemLoop_long hheld hlong rfl hfew (mbo_refused q.mbo))

theorem process_survey (h : Holds m pframe q.body) (hess : q.hdr.reqMode &&& essDisassocImminent = 0) :
    (rtwWnmProcessBtmReq malloc m pframe q.body.length nb).survey =
      if q.offered.length ≤ 15 then none
      else some (rtwWnmBtmCandidatesSurvey malloc m (pframe + q.firstCandidate) q.offered.length
        true nb) := by
  have hoffset := offset_clear h hess
  have hpos : q.firstCandidate ≠ 0 := by
    rw [BtmReq.firstCandidate]
    omega
  rw [rtwWnmProcessBtmReq]
  simp only [hoffset, left_offered, hpos, false_or]

theorem offered_short (hshort : q.offered.length ≤ 15) : q.cands = [] := by
  cases hcands : q.cands with
  | nil => rfl
  | cons c cs =>
    rw [BtmReq.offered, hcands, List.map_cons, encode_cons, List.length_append, List.length_append,
      Element.length_bytes] at hshort
    have hbody : (candElement c).body.length = 16 := length_candBody c
    omega

theorem processed_candidates (h : Holds m pframe q.body)
    (hess : q.hdr.reqMode &&& essDisassocImminent = 0) (hmalloc : malloc = true) :
    ((rtwWnmProcessBtmReq malloc m pframe q.body.length nb).candidates.map WnmBtmCant.shown).Perm
      (q.cands.map WnmBtmCant.shown) := by
  rw [BtmReqRun.candidates, process_survey h hess]
  cases Nat.lt_or_ge 15 q.offered.length with
  | inr hshort =>
    rw [if_pos hshort, offered_short hshort]
    rfl
  | inl hlong =>
    rw [if_neg (Nat.not_le.mpr hlong), ← parsed_candidates h]
    have hheld := candidates_held h
    rw [q.offered_eq] at hheld
    exact (survey_perm (e := ⟨malloc, true, _, m, _, hheld⟩)
      (fun hrefused => Bool.false_ne_true (hrefused.2.symm.trans hmalloc)) nb).map _

theorem refused_candidates (h : Holds m pframe q.body)
    (hess : q.hdr.reqMode &&& essDisassocImminent = 0) (hmalloc : malloc = false) :
    (rtwWnmProcessBtmReq malloc m pframe q.body.length nb).candidates = [] := by
  rw [BtmReqRun.candidates, process_survey h hess]
  split
  · rfl
  · rw [hmalloc]
    rfl

theorem btm_request_law (malloc : Bool) (nb : NbInfo) (q : BtmReq) (m : Mem UInt8) (pframe : ℕ) :
    RoundTrip q (write m pframe q.body) pframe
        (rtwWnmProcessBtmReq malloc (write m pframe q.body) pframe q.body.length nb) ↔
      q.hdr.reqMode &&& essDisassocImminent = 0 ∧ (malloc = true ∨ q.cands = []) := by
  have h := holds_write m pframe q.body
  obtain ⟨htoken, hmode, htimer, hvalid⟩ := fixed_held h
  constructor
  · intro hright
    have hess : q.hdr.reqMode &&& essDisassocImminent = 0 := by
      by_contra hess
      obtain ⟨hoffset, hlater⟩ := offset_imminent h hess
      have hsame : rtwWnmBtmCandidatesOffsetGet (write m pframe q.body) pframe = q.firstCandidate :=
        hright.offset
      omega
    refine ⟨hess, ?_⟩
    cases malloc with
    | true => exact .inl rfl
    | false =>
      have hnone := hright.processed.length_eq
      rw [refused_candidates h hess rfl, List.length_map, List.length_map] at hnone
      exact .inr (List.length_eq_zero_iff.mp hnone.symm)
  · rintro ⟨hess, hmalloc⟩
    have hoffset : (rtwWnmProcessBtmReq malloc (write m pframe q.body) pframe q.body.length
        nb).offset = q.firstCandidate := offset_clear h hess
    refine ⟨htoken, hmode, htimer, hvalid, termDuration_held h, hoffset, ?_, ?_⟩
    · rw [hoffset, left_offered]
      exact parsed_candidates h
    · cases hmalloc with
      | inl hmalloc => exact processed_candidates h hess hmalloc
      | inr hnone =>
        cases malloc with
        | true => exact processed_candidates h hess rfl
        | false =>
          rw [refused_candidates h hess rfl, hnone]

def imminentRequest : BtmReq where
  hdr := ⟨1, 0x10, Vector.replicate 2 0, 0, ⟨0, 0, Vector.replicate 8 0, Vector.replicate 2 0⟩⟩
  url := [0x61]
  cands := [⟨⟨nbRptElem, 0x10, Vector.replicate 6 2, Vector.replicate 4 0, 81, 6, 7, 0⟩, 255⟩]
  mbo := none
  termId := by decide
  urlSize := by decide
  few := by decide
  shaped := by decide

theorem imminent_offset_misplaced :
    ¬ RoundTrip imminentRequest (write (fun _ => 0) 0 imminentRequest.body) 0
      (rtwWnmProcessBtmReq true (write (fun _ => 0) 0 imminentRequest.body) 0
        imminentRequest.body.length .init) := fun h =>
  absurd h.offset (by decide +kernel)

end Law

end Wnm
