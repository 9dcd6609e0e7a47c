import Rtl8188fu.Lib.NextFit
import Rtl8188fu.Lib.Tlv
import Rtl8188fu.Rm.BeaconReport

namespace Rm

open ByteMemory NextFit Tlv

def reportedBody (opt : BcnReqOpt) (net : WlanNetwork) : Option (List UInt8) :=
  if opt.repDetail = 0 ∨ 2 < opt.repDetail then none else some (reportedContent opt net)

structure IsReport (r : Reporter) (net : WlanNetwork) (e : Element) : Prop where
  id : e.id = r.eId
  bare : reportedBody r.opt net = none → e.body = reportFixed r net
  nested : ∀ content, reportedBody r.opt net = some content →
    ∃ d : Element, d.id = 1 ∧ d.body = content ∧ e.body = reportFixed r net ++ d.bytes

def CarriesReports (r : Reporter) (nets : List WlanNetwork) (frame : List UInt8) : Prop :=
  ∃ es, List.Forall₂ (IsReport r) nets es ∧
    frame = [r.category, r.actionCode, r.diagToken] ++ encode es

def matched (env : ReportEnv) (r : Reporter) (nets : List WlanNetwork) : List WlanNetwork :=
  nets.filter (matchesRequest env r)

structure Complete (env : ReportEnv) (r : Reporter) (nets : List WlanNetwork) (out : Issued) : Prop where
  reports : ∃ groups, groups.flatten = matched env r nets ∧
    List.Forall₂ (CarriesReports r) groups out.frames
  fits : ∀ frame ∈ out.frames, wlanHdrLen + frame.length ≤ maxXmitExtbufSz
  few : out.pktNum ≤ maxBufNum
  freed : out.leaked = 0
  stores : out.wild = false

def reportSize (r : Reporter) (net : WlanNetwork) : ℕ :=
  31 + match reportedBody r.opt net with
    | none => 0
    | some content => content.length + 2

def bufRoom : ℕ := maxXmitExtbufSz - 24 - 4

def bins (env : ReportEnv) (r : Reporter) (nets : List WlanNetwork) : List (List WlanNetwork) :=
  pack (reportSize r) bufRoom [] (matched env r nets)

structure Reportable (env : ReportEnv) (r : Reporter) (nets : List WlanNetwork) : Prop where
  short : ∀ net ∈ matched env r nets, ∀ content, reportedBody r.opt net = some content →
    content.length ≤ 224
  tmpBuf : matched env r nets ≠ [] → env.tmpBuf = true
  alloc : ∀ i < (bins env r nets).length, env.alloc i = true
  few : (bins env r nets).length ≤ maxBufNum
  frames : (bins env r nets).length ≤ env.mgtFrames

section Elements

variable {r : Reporter} {net : WlanNetwork} {e : Element} {nets : List WlanNetwork}
  {es : List Element}

theorem reportSize_none (h : reportedBody r.opt net = none) : reportSize r net = 31 := by
  simp [reportSize, h]

theorem reportSize_some {content : List UInt8} (h : reportedBody r.opt net = some content) :
    reportSize r net = content.length + 33 := by
  rw [reportSize, h, Nat.add_comm]

theorem length_reportFixed (r : Reporter) (net : WlanNetwork) :
    (reportFixed r net).length = 29 := by
  simp [reportFixed, net.station]

theorem length_rmGenBcnDetailElem (r : Reporter) (net : WlanNetwork) :
    (rmGenBcnDetailElem r.opt net).length = reportSize r net - 31 := by
  unfold rmGenBcnDetailElem reportSize reportedBody
  split <;> simp

theorem length_rmGenBcnRepIe (r : Reporter) (net : WlanNetwork) :
    (rmGenBcnRepIe r net).length = reportSize r net := by
  have hle : 31 ≤ reportSize r net := Nat.le_add_right _ _
  unfold rmGenBcnRepIe
  dsimp only
  rw [List.length_set, List.length_append, List.length_append, length_reportFixed,
    length_rmGenBcnDetailElem, List.length_cons, List.length_singleton]
  omega

theorem IsReport.length_bytes (h : IsReport r net e) : e.bytes.length = reportSize r net := by
  rw [Element.length_bytes]
  cases hbody : reportedBody r.opt net with
  | none => rw [reportSize_none hbody, h.bare hbody, length_reportFixed]
  | some content =>
    obtain ⟨d, -, hd, he⟩ := h.nested content hbody
    rw [reportSize_some hbody, he, List.length_append, length_reportFixed, Element.length_bytes, hd]
    omega

theorem IsReport.short (h : IsReport r net e) {content : List UInt8}
    (hbody : reportedBody r.opt net = some content) : content.length ≤ 224 := by
  have hsize := h.length_bytes
  have hless := e.short
  rw [Element.length_bytes, reportSize_some hbody] at hsize
  omega

theorem length_encode_reports (h : List.Forall₂ (IsReport r) nets es) :
    (encode es).length = load (reportSize r) nets := by
  induction h with
  | nil => rfl
  | cons hhere _ ih => rw [encode_cons, List.length_append, hhere.length_bytes, ih, load]

theorem isReport_generated (hshort : ∀ content, reportedBody r.opt net = some content →
    content.length ≤ 224) : ∃ e, IsReport r net e ∧ rmGenBcnRepIe r net = e.bytes := by
  have hsize := length_rmGenBcnRepIe r net
  cases hbody : reportedBody r.opt net with
  | none =>
    have hdetail : rmGenBcnDetailElem r.opt net = [] := by
      unfold reportedBody at hbody
      unfold rmGenBcnDetailElem
      split at hbody
      · next hnone => rw [if_pos hnone]
      · cases hbody
    have hfixed : (reportFixed r net).length < 256 := by
      rw [length_reportFixed]
      decide
    refine ⟨⟨r.eId, reportFixed r net, hfixed⟩, ⟨rfl, fun _ => rfl, fun content hsome => ?_⟩, ?_⟩
    · cases hbody.symm.trans hsome
    · rw [rmGenBcnRepIe, hdetail, List.append_nil]
      rfl
  | some content =>
    have hcontent : content.length ≤ 224 := hshort content hbody
    have hsmall : content.length < 256 := lt_of_le_of_lt hcontent (by decide)
    have hdetail : rmGenBcnDetailElem r.opt net =
        Element.bytes ⟨1, content, hsmall⟩ := by
      unfold reportedBody at hbody
      unfold rmGenBcnDetailElem
      split at hbody
      · cases hbody
      · next hsome =>
        cases hbody
        rw [if_neg hsome]
        rfl
    have hlong : (reportFixed r net ++ Element.bytes ⟨1, content, hsmall⟩).length < 256 := by
      rw [List.length_append, length_reportFixed, Element.length_bytes]
      dsimp only
      omega
    refine ⟨⟨r.eId, reportFixed r net ++ Element.bytes ⟨1, content, hsmall⟩, hlong⟩,
      ⟨rfl, fun hnone => ?_, fun content' hsome => ?_⟩, ?_⟩
    · cases hbody.symm.trans hnone
    · cases hbody.symm.trans hsome
      exact ⟨⟨1, content, hsmall⟩, rfl, rfl, rfl⟩
    · rw [rmGenBcnRepIe, hdetail]
      rfl

end Elements

section Retrieval

variable {env : ReportEnv} {r : Reporter} {net : WlanNetwork} {nets g : List WlanNetwork}
  {groups : List (List WlanNetwork)}

def payload (r : Reporter) (g : List WlanNetwork) : List UInt8 := g.flatMap (rmGenBcnRepIe r)

def openGroup (g : List WlanNetwork) : List (List WlanNetwork) := if g = [] then [] else [g]

def holding (r : Reporter) (groups : List (List WlanNetwork)) (g : List WlanNetwork) : ScanBufs where
  full := groups.map (payload r)
  cur := if g = [] then none else some (payload r g)
  failed := false
  wild := decide (maxBufNum < (groups ++ openGroup g).length)

theorem length_payload (r : Reporter) (g : List WlanNetwork) :
    (payload r g).length = load (reportSize r) g := by
  induction g with
  | nil => rfl
  | cons net g ih =>
    rw [payload, List.flatMap_cons, List.length_append, length_rmGenBcnRepIe, load]
    exact congrArg _ ih

theorem reportSize_pos (r : Reporter) (net : WlanNetwork) : 0 < reportSize r net :=
  Nat.lt_of_lt_of_le (by decide) (Nat.le_add_right 31 _)

theorem fits_iff (used len : ℕ) : ScanBufs.fits used len = true ↔ used + len < bufRoom := by
  rw [ScanBufs.fits, decide_eq_true_iff, bufRoom, maxXmitExtbufSz]
  omega

theorem wild_small (b : Bool) (hshort : reportSize r net ≤ 257) :
    (b || decide (maxXmitExtbufSz < (rmGenBcnRepIe r net).length)) = b := by
  rw [length_rmGenBcnRepIe, decide_eq_false, Bool.or_false]
  exact Nat.not_lt.mpr (hshort.trans (by decide))

theorem openPacket_eq (hshort : reportSize r net ≤ 257) {s : ScanBufs}
    (hs : s.full = groups.map (payload r)) (hok : s.failed = false)
    (hwild : s.wild = decide (maxBufNum < groups.length)) :
    s.openPacket env.alloc (rmGenBcnRepIe r net) =
      if env.alloc groups.length then holding r groups [net] else { s with failed := true } := by
  have hidx : s.bufIdx = groups.length := by rw [ScanBufs.bufIdx, hs, List.length_map]
  have hfits : ScanBufs.fits 0 (rmGenBcnRepIe r net).length = true := by
    rw [fits_iff, length_rmGenBcnRepIe, Nat.zero_add]
    exact lt_of_le_of_lt hshort (by decide)
  have hopened : (decide (maxBufNum < groups.length) || decide (maxBufNum ≤ groups.length)) =
      decide (maxBufNum < (groups ++ openGroup [net]).length) := by
    rw [← Bool.decide_or, List.length_append]
    refine decide_eq_decide.mpr ?_
    show _ ↔ maxBufNum < groups.length + 1
    omega
  rw [ScanBufs.openPacket, hidx]
  cases env.alloc groups.length with
  | false => rfl
  | true =>
    rw [if_pos rfl, if_pos rfl, if_pos hfits, hwild, hopened, holding, ← hs, payload,
      List.flatMap_singleton, hok]
    rfl

theorem wild_holding_nil (r : Reporter) (groups : List (List WlanNetwork)) :
    (holding r groups []).wild = decide (maxBufNum < groups.length) := by
  simp [holding, openGroup]

theorem newPacket_first (hshort : reportSize r net ≤ 257) :
    (holding r groups []).newPacket env.alloc (rmGenBcnRepIe r net) =
      if env.alloc groups.length then holding r groups [net]
      else { holding r groups [] with failed := true } := by
  unfold ScanBufs.newPacket
  rw [wild_small _ hshort]
  exact openPacket_eq hshort rfl rfl (wild_holding_nil r groups)

theorem newPacket_fits (hshort : reportSize r net ≤ 257) (hg : g ≠ [])
    (hfits : load (reportSize r) g + reportSize r net < bufRoom) :
    (holding r groups g).newPacket env.alloc (rmGenBcnRepIe r net) =
      holding r groups (g ++ [net]) := by
  have hlen : (holding r groups g).myLen = load (reportSize r) g := by
    rw [ScanBufs.myLen, holding, if_neg hg, ← length_payload]
    rfl
  have hpos : (holding r groups g).myLen ≠ 0 := by
    rw [hlen]
    exact Nat.ne_of_gt (load_flatten_pos (reportSize_pos r) hg)
  have hroom : ScanBufs.fits (holding r groups g).myLen (rmGenBcnRepIe r net).length = true := by
    rw [fits_iff, hlen, length_rmGenBcnRepIe]
    exact hfits
  have hg' : g ++ [net] ≠ [] := List.append_ne_nil_of_left_ne_nil hg _
  unfold ScanBufs.newPacket
  dsimp only
  rw [wild_small _ hshort]
  show (if (holding r groups g).myLen = 0 then _ else _) = _
  rw [if_neg hpos]
  show (if ScanBufs.fits (holding r groups g).myLen (rmGenBcnRepIe r net).length = true then _ else _) = _
  rw [if_pos hroom]
  simp only [holding, openGroup, if_neg hg, if_neg hg', payload, List.flatMap_append,
    List.flatMap_singleton, Option.map_some, List.length_append]
  rfl

theorem newPacket_next (hshort : reportSize r net ≤ 257) (hg : g ≠ [])
    (hfull : ¬ load (reportSize r) g + reportSize r net < bufRoom) :
    (holding r groups g).newPacket env.alloc (rmGenBcnRepIe r net) =
      if env.alloc (groups.length + 1) then holding r (groups ++ [g]) [net]
      else { holding r (groups ++ [g]) [] with failed := true } := by
  have hlen : (holding r groups g).myLen = load (reportSize r) g := by
    rw [ScanBufs.myLen, holding, if_neg hg, ← length_payload]
    rfl
  have hpos : (holding r groups g).myLen ≠ 0 := by
    rw [hlen]
    exact Nat.ne_of_gt (load_flatten_pos (reportSize_pos r) hg)
  have hroom : ¬ ScanBufs.fits (holding r groups g).myLen (rmGenBcnRepIe r net).length = true := by
    rw [fits_iff, hlen, length_rmGenBcnRepIe]
    exact hfull
  have hclosed : ({ holding r groups g with
      full := (holding r groups g).full ++ (holding r groups g).cur.toList
      cur := none } : ScanBufs) = holding r (groups ++ [g]) [] := by
    simp only [holding, openGroup, if_neg hg, if_true, List.map_append, List.map_singleton,
      Option.toList_some, List.append_nil]
  unfold ScanBufs.newPacket
  dsimp only
  rw [wild_small _ hshort]
  show (if (holding r groups g).myLen = 0 then _ else _) = _
  rw [if_neg hpos]
  show (if ScanBufs.fits (holding r groups g).myLen (rmGenBcnRepIe r net).length = true then _ else _) = _
  rw [if_neg hroom]
  have hopened := @openPacket_eq env r net (groups ++ [g]) hshort _ rfl rfl
    (wild_holding_nil r (groups ++ [g]))
  rw [List.length_append, List.length_singleton] at hopened
  rw [← hopened, ← hclosed]

theorem matched_pos (hmatch : matchesRequest env r net = true) :
    matched env r (net :: nets) = net :: matched env r nets := by
  rw [matched, List.filter_cons, if_pos hmatch]
  rfl

theorem matched_neg (hmatch : ¬ matchesRequest env r net = true) :
    matched env r (net :: nets) = matched env r nets := by
  rw [matched, List.filter_cons, if_neg hmatch]
  rfl

theorem retrieveLoop_pos (hmatch : matchesRequest env r net = true) (s : ScanBufs) :
    retrieveLoop env r (net :: nets) s =
      if (s.newPacket env.alloc (rmGenBcnRepIe r net)).failed then
        s.newPacket env.alloc (rmGenBcnRepIe r net)
      else retrieveLoop env r nets (s.newPacket env.alloc (rmGenBcnRepIe r net)) := by
  rw [retrieveLoop, if_pos hmatch]

def packed (r : Reporter) (g ms : List WlanNetwork) : List (List WlanNetwork) :=
  pack (reportSize r) bufRoom g ms

def Opens (r : Reporter) (groups : List (List WlanNetwork)) (g ms : List WlanNetwork) (i : ℕ) :
    Prop :=
  (groups ++ openGroup g).length ≤ i ∧ i < (groups ++ packed r g ms).length

inductive Outcome (env : ReportEnv) (r : Reporter) (groups : List (List WlanNetwork))
    (g ms : List WlanNetwork) (t : ScanBufs) : Prop
  | served (gs : List (List WlanNetwork)) (g' : List WlanNetwork) :
      (∀ i, Opens r groups g ms i → env.alloc i = true) →
      gs ++ openGroup g' = groups ++ packed r g ms → t = holding r gs g' →
      (g' = [] → g = [] ∧ ms = []) → Outcome env r groups g ms t
  | starved (i : ℕ) : Opens r groups g ms i → env.alloc i = false → t.failed = true → t.cur = none →
      Outcome env r groups g ms t

theorem Outcome.moved {groups' : List (List WlanNetwork)} {g' ms ms' : List WlanNetwork}
    {t : ScanBufs} (h : Outcome env r groups' g' ms' t) (hne : g' ≠ [])
    (hpacked : groups ++ packed r g ms = groups' ++ packed r g' ms')
    (hopened : ∀ i, (groups ++ openGroup g).length ≤ i → i < (groups' ++ openGroup g').length →
      env.alloc i = true)
    (hle : (groups ++ openGroup g).length ≤ (groups' ++ openGroup g').length) :
    Outcome env r groups g ms t := by
  cases h with
  | served gs gl hall hgs ht hend =>
    refine .served gs gl (fun i hi => ?_) (hgs.trans hpacked.symm) ht
      fun hnil => absurd (hend hnil).1 hne
    cases Nat.lt_or_ge i (groups' ++ openGroup g').length with
    | inl hlt => exact hopened i hi.1 hlt
    | inr hge => exact hall i ⟨hge, hpacked ▸ hi.2⟩
  | starved i hi hnone hfailed hcur =>
    exact .starved i ⟨hle.trans hi.1, hpacked ▸ hi.2⟩ hnone hfailed hcur

theorem packed_pos (r : Reporter) (ms : List WlanNetwork) (hg : g ≠ []) :
    1 ≤ (packed r g ms).length := by
  cases hpack : packed r g ms with
  | nil =>
    have hflat := pack_flatten (reportSize r) bufRoom g ms
    rw [← packed, hpack] at hflat
    exact absurd (List.append_eq_nil_iff.mp hflat.symm).1 hg
  | cons b bs => exact Nat.succ_pos _

theorem length_openGroup (hg : g ≠ []) : (groups ++ openGroup g).length = groups.length + 1 := by
  rw [openGroup, if_neg hg, List.length_append, List.length_singleton]

theorem length_openGroup_nil : (groups ++ openGroup []).length = groups.length := by
  rw [openGroup, if_pos rfl, List.append_nil]

theorem retrieveLoop_outcome (hshort : ∀ net ∈ matched env r nets, reportSize r net ≤ 257) :
    Outcome env r groups g (matched env r nets) (retrieveLoop env r nets (holding r groups g)) := by
  induction nets generalizing groups g with
  | nil =>
    have hpacked : groups ++ openGroup g = groups ++ packed r g [] := by cases g <;> rfl
    refine .served groups g (fun i hi => ?_) hpacked rfl fun hg => ⟨hg, rfl⟩
    have hlt := hi.2
    rw [matched, List.filter_nil, ← hpacked] at hlt
    exact absurd hlt (Nat.not_lt.mpr hi.1)
  | cons net nets ih =>
    cases Decidable.em (matchesRequest env r net = true) with
    | inr hmatch =>
      rw [matched_neg hmatch] at hshort ⊢
      rw [retrieveLoop, if_neg hmatch]
      exact ih hshort
    | inl hmatch =>
      rw [matched_pos hmatch] at hshort ⊢
      have hhere := hshort net List.mem_cons_self
      have hrest : ∀ net ∈ matched env r nets, reportSize r net ≤ 257 := fun n hn =>
        hshort n (List.mem_cons_of_mem _ hn)
      have hsome : [net] ≠ [] := List.cons_ne_nil _ _
      have hone := packed_pos r (matched env r nets) hsome
      rw [retrieveLoop_pos hmatch]
      cases Decidable.em (g = []) with
      | inl hg =>
        -- the first matching network opens the first buffer
        subst hg
        have hpacked : groups ++ packed r [] (net :: matched env r nets) =
            groups ++ packed r [net] (matched env r nets) := rfl
        rw [newPacket_first hhere]
        cases halloc : env.alloc groups.length with
        | true =>
          refine (ih hrest).moved hsome hpacked (fun i hge hlt => ?_) ?_
          · rw [length_openGroup_nil] at hge
            rw [length_openGroup hsome] at hlt
            have hi : i = groups.length := by omega
            rw [hi, halloc]
          · rw [length_openGroup_nil, length_openGroup hsome]
            exact Nat.le_succ _
        | false =>
          refine .starved groups.length ⟨length_openGroup_nil.le, ?_⟩ halloc rfl rfl
          rw [hpacked, List.length_append]
          exact Nat.lt_add_of_pos_right hone
      | inr hg =>
        cases Decidable.em (load (reportSize r) g + reportSize r net < bufRoom) with
        | inl hfits =>
          have hg' : g ++ [net] ≠ [] := List.append_ne_nil_of_left_ne_nil hg _
          have hpacked : groups ++ packed r g (net :: matched env r nets) =
              groups ++ packed r (g ++ [net]) (matched env r nets) :=
            congrArg (groups ++ ·) (pack_fits hg hfits)
          rw [newPacket_fits hhere hg hfits]
          refine (ih hrest).moved hg' hpacked (fun i hge hlt => ?_) ?_
          · rw [length_openGroup hg] at hge
            rw [length_openGroup hg'] at hlt
            exact absurd hlt (Nat.not_lt.mpr hge)
          · rw [length_openGroup hg, length_openGroup hg']
        | inr hfull =>
          have hpacked : groups ++ packed r g (net :: matched env r nets) =
              groups ++ [g] ++ packed r [net] (matched env r nets) := by
            rw [packed, pack_next hg hfull, List.append_assoc]
            rfl
          have hclosed : (groups ++ [g]).length = groups.length + 1 := List.length_append
          rw [newPacket_next hhere hg hfull]
          cases halloc : env.alloc (groups.length + 1) with
          | true =>
            refine (ih hrest).moved hsome hpacked (fun i hge hlt => ?_) ?_
            · rw [length_openGroup hg] at hge
              rw [length_openGroup hsome, hclosed] at hlt
              have hi : i = groups.length + 1 := by omega
              rw [hi, halloc]
            · rw [length_openGroup hg, length_openGroup hsome, hclosed]
              exact Nat.le_succ _
          | false =>
            refine .starved (groups.length + 1) ⟨(length_openGroup hg).le, ?_⟩ halloc rfl rfl
            rw [hpacked, List.length_append, hclosed]
            exact Nat.lt_add_of_pos_right hone

end Retrieval

section Law

variable {env : ReportEnv} {r : Reporter} {nets g : List WlanNetwork}
  {groups : List (List WlanNetwork)} {frames : List (List UInt8)}

def Short (r : Reporter) (net : WlanNetwork) : Prop :=
  ∀ content, reportedBody r.opt net = some content → content.length ≤ 224

theorem Short.size_le {net : WlanNetwork} (h : Short r net) : reportSize r net ≤ 257 := by
  cases hbody : reportedBody r.opt net with
  | none =>
    rw [reportSize_none hbody]
    decide
  | some content =>
    have hle := h content hbody
    rw [reportSize_some hbody]
    omega

def frameOf (r : Reporter) (pbuf : List UInt8) : List UInt8 :=
  [r.category, r.actionCode, r.diagToken] ++ pbuf

theorem carries_payload (h : ∀ net ∈ g, Short r net) :
    CarriesReports r g (frameOf r (payload r g)) := by
  have hes : ∃ es, List.Forall₂ (IsReport r) g es ∧ payload r g = encode es := by
    induction g with
    | nil => exact ⟨[], .nil, rfl⟩
    | cons net g ih =>
      obtain ⟨es, hes, hpayload⟩ := ih fun n hn => h n (List.mem_cons_of_mem _ hn)
      obtain ⟨e, he, hbytes⟩ := isReport_generated (h net List.mem_cons_self)
      refine ⟨e :: es, .cons he hes, ?_⟩
      rw [payload, List.flatMap_cons, hbytes, encode_cons, ← hpayload, payload]
  obtain ⟨es, hes, hpayload⟩ := hes
  exact ⟨es, hes, by rw [frameOf, hpayload]⟩

theorem short_of_carried (h : List.Forall₂ (CarriesReports r) groups frames) :
    ∀ net ∈ groups.flatten, Short r net := by
  induction h with
  | nil => exact fun _ hn => absurd hn List.not_mem_nil
  | cons hhere _ ih =>
    intro net hn
    rw [List.flatten_cons, List.mem_append] at hn
    cases hn with
    | inr hlater => exact ih net hlater
    | inl hin =>
      obtain ⟨es, hes, -⟩ := hhere
      clear ih
      induction hes with
      | nil => exact absurd hin List.not_mem_nil
      | cons he _ ihes =>
        rcases List.mem_cons.mp hin with rfl | hrest
        · exact fun content hbody => he.short hbody
        · exact ihes hrest

def framesTotal : List (List UInt8) → ℕ
  | [] => 0
  | frame :: frames => frame.length - 3 + framesTotal frames

theorem framesTotal_carried (h : List.Forall₂ (CarriesReports r) groups frames) :
    framesTotal frames = load (reportSize r) groups.flatten := by
  induction h with
  | nil => rfl
  | cons hhere _ ih =>
    obtain ⟨es, hes, rfl⟩ := hhere
    rw [framesTotal, ih, List.flatten_cons, load_append, ← length_encode_reports hes,
      List.length_append]
    simp

theorem carries_bins (h : ∀ g ∈ groups, ∀ net ∈ g, Short r net) :
    List.Forall₂ (CarriesReports r) groups (groups.map fun g => frameOf r (payload r g)) := by
  induction groups with
  | nil => exact .nil
  | cons g groups ih =>
    exact .cons (carries_payload (h g List.mem_cons_self))
      (ih fun b hb => h b (List.mem_cons_of_mem _ hb))

theorem bins_flatten (env : ReportEnv) (r : Reporter) (nets : List WlanNetwork) :
    (bins env r nets).flatten = matched env r nets := pack_flatten _ _ _ _

theorem bins_eq_nil (h : matched env r nets = []) : bins env r nets = [] := by
  rw [bins, h]
  rfl

theorem matched_eq_nil_of_carried (hflat : groups.flatten = matched env r nets)
    (h : List.Forall₂ (CarriesReports r) groups []) : matched env r nets = [] := by
  cases h
  exact hflat.symm

theorem start_eq_holding (r : Reporter) : ScanBufs.start = holding r [] [] := rfl

theorem bufs_holding (r : Reporter) (groups : List (List WlanNetwork)) (g : List WlanNetwork) :
    (holding r groups g).bufs = (groups ++ openGroup g).map (payload r) := by
  rw [ScanBufs.bufs, holding, openGroup]
  cases Decidable.em (g = []) with
  | inl hg => rw [if_pos hg, if_pos hg, Option.toList_none, List.append_nil, List.append_nil]
  | inr hg =>
    rw [if_neg hg, if_neg hg, Option.toList_some, List.map_append]
    rfl

structure Served (env : ReportEnv) (r : Reporter) (nets : List WlanNetwork) (s : ScanBufs) : Prop where
  alloc : ∀ i < (bins env r nets).length, env.alloc i = true
  bufs : s.bufs = (bins env r nets).map (payload r)
  pktNum : s.pktNum = (bins env r nets).length
  wild : s.wild = decide (maxBufNum < (bins env r nets).length)

structure Starved (env : ReportEnv) (r : Reporter) (nets : List WlanNetwork) (s : ScanBufs) : Prop where
  alloc : ∃ i < (bins env r nets).length, env.alloc i = false
  pktNum : s.pktNum = 0

theorem served_or_starved (htmp : env.tmpBuf = true)
    (hshort : ∀ net ∈ matched env r nets, Short r net) :
    Served env r nets (retrieveScanResult env r nets) ∨
      Starved env r nets (retrieveScanResult env r nets) := by
  rw [retrieveScanResult, if_pos htmp, start_eq_holding r]
  have houtcome := @retrieveLoop_outcome env r nets [] [] fun net hn => (hshort net hn).size_le
  have hopens : ∀ i, Opens r [] [] (matched env r nets) i ↔ i < (bins env r nets).length :=
    fun i => ⟨fun hi => hi.2, fun hi => ⟨Nat.zero_le i, hi⟩⟩
  cases houtcome with
  | served gs gl hall hgs ht hend =>
    have hbins : gs ++ openGroup gl = bins env r nets := hgs
    refine .inl ⟨fun i hi => hall i ((hopens i).mpr hi), ?_, ?_, ?_⟩
    · rw [ht, bufs_holding, hbins]
    · rw [ht, ← hbins]
      cases Decidable.em (gl = []) with
      | inl hnil =>
        have hempty := bins_eq_nil (hend hnil).2
        rw [hbins, hempty, ScanBufs.pktNum, holding, if_pos hnil]
        rfl
      | inr hsome =>
        rw [length_openGroup hsome, ScanBufs.pktNum, ScanBufs.bufIdx, holding, if_neg hsome,
          List.length_map]
        rfl
    · rw [ht, holding, hbins]
  | starved i hi hnone _ hcur =>
    refine .inr ⟨⟨i, (hopens i).mp hi, hnone⟩, ?_⟩
    rw [ScanBufs.pktNum, hcur]
    rfl

theorem issued_served (h : Served env r nets (retrieveScanResult env r nets)) :
    (issueBeaconRep env r nets).frames =
        ((bins env r nets).take env.mgtFrames).map (fun g => frameOf r (payload r g)) ∧
      (issueBeaconRep env r nets).pktNum = (bins env r nets).length ∧
      (issueBeaconRep env r nets).leaked = 0 ∧
      (issueBeaconRep env r nets).wild = decide (maxBufNum < (bins env r nets).length) := by
  have hall : (retrieveScanResult env r nets).bufs.length = (bins env r nets).length := by
    rw [h.bufs, List.length_map]
  refine ⟨?_, h.pktNum, ?_, h.wild⟩
  · show List.map _ _ = _
    rw [h.pktNum, ← hall, List.take_length, h.bufs, ← List.map_take, List.map_map]
    rfl
  · show (List.drop _ _).length = 0
    rw [h.pktNum, ← hall, List.drop_length]
    rfl

theorem frames_of_pktNum_zero (h : (retrieveScanResult env r nets).pktNum = 0) :
    (issueBeaconRep env r nets).frames = [] := by
  show List.map _ _ = _
  rw [h, List.take_zero, List.take_nil, List.map_nil]

theorem complete_unserved (h : (issueBeaconRep env r nets).frames = [])
    (hcomplete : Complete env r nets (issueBeaconRep env r nets)) : matched env r nets = [] := by
  obtain ⟨groups, hflat, hcarried⟩ := hcomplete.reports
  rw [h] at hcarried
  exact matched_eq_nil_of_carried hflat hcarried

theorem reportable_of_unmatched (h : matched env r nets = []) : Reportable env r nets where
  short net hn := absurd (h ▸ hn) List.not_mem_nil
  tmpBuf hne := absurd h hne
  alloc i hi := by
    rw [bins_eq_nil h] at hi
    exact absurd hi (Nat.not_lt_zero i)
  few := by
    rw [bins_eq_nil h]
    exact Nat.zero_le _
  frames := by
    rw [bins_eq_nil h]
    exact Nat.zero_le _

theorem Complete.short (h : Complete env r nets (issueBeaconRep env r nets)) :
    ∀ net ∈ matched env r nets, Short r net := by
  obtain ⟨groups, hflat, hcarried⟩ := h.reports
  rw [← hflat]
  exact short_of_carried hcarried

theorem Complete.enough_frames (h : Complete env r nets (issueBeaconRep env r nets))
    (hserved : Served env r nets (retrieveScanResult env r nets)) :
    (bins env r nets).length ≤ env.mgtFrames := by
  obtain ⟨groups, hflat, hcarried⟩ := h.reports
  have hshort : ∀ g ∈ (bins env r nets).take env.mgtFrames, ∀ net ∈ g, Short r net := by
    intro g hg net hn
    refine h.short net ?_
    rw [← bins_flatten]
    exact List.mem_flatten.mpr ⟨g, List.mem_of_mem_take hg, hn⟩
  have hsent := framesTotal_carried (carries_bins hshort)
  rw [← (issued_served hserved).1, framesTotal_carried hcarried, hflat, ← bins_flatten] at hsent
  by_contra hless
  have hfewer := load_take_lt (reportSize_pos r)
    (fun g hg => ne_nil_of_mem_pack hg) (Nat.lt_of_not_le hless)
  exact absurd hsent (Nat.ne_of_gt hfewer)

theorem reportable_of_complete (h : Complete env r nets (issueBeaconRep env r nets)) :
    Reportable env r nets := by
  cases htmp : env.tmpBuf with
  | false =>
    have hstart : retrieveScanResult env r nets = .start := by
      rw [retrieveScanResult, htmp, if_neg Bool.false_ne_true]
    exact reportable_of_unmatched (complete_unserved
      (frames_of_pktNum_zero (by rw [hstart]; rfl)) h)
  | true =>
    cases served_or_starved htmp h.short with
    | inr hstarved =>
      exact reportable_of_unmatched (complete_unserved (frames_of_pktNum_zero hstarved.pktNum) h)
    | inl hserved =>
      refine ⟨h.short, fun _ => htmp, hserved.alloc, ?_, h.enough_frames hserved⟩
      have hfew := h.few
      rw [(issued_served hserved).2.1] at hfew
      exact hfew

theorem complete_of_unmatched (h : matched env r nets = [])
    (hfew : env.tmpBuf = true → Served env r nets (retrieveScanResult env r nets)) :
    Complete env r nets (issueBeaconRep env r nets) := by
  have hempty := bins_eq_nil h
  cases htmp : env.tmpBuf with
  | false =>
    have hstart : retrieveScanResult env r nets = .start := by
      rw [retrieveScanResult, htmp, if_neg Bool.false_ne_true]
    have hframes := frames_of_pktNum_zero (show (retrieveScanResult env r nets).pktNum = 0 by
      rw [hstart]
      rfl)
    refine ⟨⟨[], h.symm, hframes ▸ .nil⟩, ?_, ?_, ?_, ?_⟩
    · rw [hframes]
      exact fun _ hf => absurd hf List.not_mem_nil
    · show (retrieveScanResult env r nets).pktNum ≤ _
      rw [hstart]
      exact Nat.zero_le _
    · show (List.drop _ (retrieveScanResult env r nets).bufs).length = 0
      rw [hstart]
      rfl
    · show (retrieveScanResult env r nets).wild = false
      rw [hstart]
      rfl
  | true =>
    obtain ⟨hframes, hpktNum, hleaked, hwild⟩ := issued_served (hfew htmp)
    rw [hempty] at hpktNum hwild
    rw [hempty, List.take_nil, List.map_nil] at hframes
    refine ⟨⟨[], h.symm, hframes ▸ .nil⟩, ?_, hpktNum.le.trans (Nat.zero_le _), hleaked, hwild⟩
    rw [hframes]
    exact fun _ hf => absurd hf List.not_mem_nil

theorem complete_of_served (hserved : Served env r nets (retrieveScanResult env r nets))
    (h : Reportable env r nets) : Complete env r nets (issueBeaconRep env r nets) := by
  obtain ⟨hframes, hpktNum, hleaked, hwild⟩ := issued_served hserved
  rw [List.take_of_length_le h.frames] at hframes
  have hshort : ∀ g ∈ bins env r nets, ∀ net ∈ g, Short r net := by
    intro g hg net hn
    refine h.short net ?_
    rw [← bins_flatten]
    exact List.mem_flatten.mpr ⟨g, hg, hn⟩
  refine ⟨⟨bins env r nets, bins_flatten env r nets, hframes ▸ carries_bins hshort⟩, ?_,
    hpktNum.le.trans h.few, hleaked, hwild.trans (decide_eq_false (Nat.not_lt.mpr h.few))⟩
  intro frame hf
  rw [hframes] at hf
  obtain ⟨g, hg, rfl⟩ := List.mem_map.mp hf
  have hroom : load (reportSize r) g < bufRoom := by
    have hnil : load (reportSize r) ([] : List WlanNetwork) < bufRoom :=
      (by decide : 0 < bufRoom)
    refine load_lt_of_mem_pack hnil (fun net hn => ?_) hg
    exact lt_of_le_of_lt (Short.size_le (h.short net hn)) (by decide)
  have hlen : (frameOf r (payload r g)).length = 3 + load (reportSize r) g := by
    rw [frameOf, List.length_append, length_payload]
    rfl
  rw [hlen]
  have hcap : bufRoom = 1508 := rfl
  have hhead : wlanHdrLen = 24 := rfl
  have hmax : maxXmitExtbufSz = 1536 := rfl
  omega

theorem complete_of_reportable (h : Reportable env r nets) :
    Complete env r nets (issueBeaconRep env r nets) := by
  have hserved : env.tmpBuf = true → Served env r nets (retrieveScanResult env r nets) := by
    intro htmp
    cases served_or_starved htmp h.short with
    | inl hserved => exact hserved
    | inr hstarved =>
      obtain ⟨i, hi, hnone⟩ := hstarved.alloc
      exact absurd (hnone.symm.trans (h.alloc i hi)) Bool.false_ne_true
  cases Decidable.em (matched env r nets = []) with
  | inl hnone => exact complete_of_unmatched hnone hserved
  | inr hsome => exact complete_of_served (hserved (h.tmpBuf hsome)) h

theorem beacon_report_law (env : ReportEnv) (r : Reporter) (nets : List WlanNetwork) :
    Complete env r nets (issueBeaconRep env r nets) ↔ Reportable env r nets :=
  ⟨reportable_of_complete, complete_of_reportable⟩

def plentiful : ReportEnv := ⟨true, fun _ => true, 1, fun _ => true⟩

def wildcardReporter : Reporter where
  category := 5
  actionCode := 1
  diagToken := 1
  eId := 39
  len := 0
  mToken := 1
  mMode := 0
  mType := 5
  opClass := 81
  chNum := 1
  measStartTime := 0
  measEndTime := 0
  freeRunCounterValid := false
  bssid := List.replicate 6 0xff
  opt := { BcnReqOpt.zeroed with repDetail := 2 }
  chSet := [1]

def richBeacon : WlanNetwork where
  macAddress := [2, 0, 0, 0, 0, 1]
  station := rfl
  ssidLength := 0
  ssid _ := 0
  dsConfig := 1
  rcpi := 100
  rsni := 50
  freeCnt := 0
  ieLength := 300
  ies _ := 0

theorem rich_beacon_malformed :
    ¬ Complete plentiful wildcardReporter [richBeacon]
      (issueBeaconRep plentiful wildcardReporter [richBeacon]) := by
  intro h
  have hmatch : matchesRequest plentiful wildcardReporter richBeacon = true := by decide
  have hin : richBeacon ∈ matched plentiful wildcardReporter [richBeacon] := by
    rw [matched_pos hmatch]
    exact List.mem_cons_self
  have hshort := h.short richBeacon hin (read richBeacon.ies 0 296) rfl
  rw [length_read] at hshort
  exact absurd hshort (by decide)

end Law

end Rm
