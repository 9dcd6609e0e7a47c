import Rtl8188fu.Mbo.Disallowed

namespace Mbo

open Tlv

-- RTW_MBO_MAX_CH_LIST_NUM is the fourteen 2.4 GHz channels of this chip
def maxChListNum : ℕ := 14

def maxChRptNum : ℕ := 32

-- sizeof(struct npref_ch) with the four-byte size_t of the target
def nprefChSize : ℕ := 24

structure Call where
  opClass : UInt8
  ch : UInt8
  prefe : UInt8
  res : UInt8
  deriving DecidableEq

structure NprefCh where
  opClass : UInt8
  chs : List UInt8
  preference : UInt8
  reason : UInt8
  deriving DecidableEq

def Call.names (c : Call) (r : NprefCh) : Bool :=
  decide (r.opClass = c.opClass ∧ r.preference = c.prefe ∧ r.reason = c.res)

def Call.fresh (c : Call) : NprefCh := ⟨c.opClass, [c.ch], c.prefe, c.res⟩

def nonPrefChanExist (r : NprefCh) (ch : UInt8) : Bool := decide (ch ∈ r.chs)

-- none: the write to chs[nm_of_ch] falls outside the array
def nonPrefChanAdd (r : NprefCh) (c : Call) : Option NprefCh :=
  if nonPrefChanExist r c.ch then some r
  else if r.chs.length < maxChListNum then some { r with chs := r.chs ++ [c.ch] }
  else none

def nonPrefChanGet (rpts : List NprefCh) (c : Call) : Option ℕ := rpts.findIdx? c.names

def nonPrefChansUpdate (rpts : List NprefCh) (c : Call) : Option (List NprefCh) :=
  if maxChRptNum ≤ rpts.length then some rpts
  else if rpts.length = 0 then some [c.fresh]
  else
    match nonPrefChanGet rpts c with
    | none => some (rpts ++ [c.fresh])
    | some i => (rpts[i]?).bind fun r => (nonPrefChanAdd r c).map (rpts.set i ·)

def updates (calls : List Call) : Option (List NprefCh) := calls.foldlM nonPrefChansUpdate []

def Apart (r s : NprefCh) : Prop :=
  ¬ (r.opClass = s.opClass ∧ r.preference = s.preference ∧ r.reason = s.reason)

structure Sound (rpts : List NprefCh) : Prop where
  few : rpts.length ≤ maxChRptNum
  apart : rpts.Pairwise Apart
  room : ∀ r ∈ rpts, r.chs.length ≤ maxChListNum
  once : ∀ r ∈ rpts, r.chs.Nodup

def Fits (rpts : List NprefCh) (c : Call) : Prop :=
  maxChRptNum ≤ rpts.length ∨ ∀ r ∈ rpts, c.names r = true →
    c.ch ∈ r.chs ∨ r.chs.length < maxChListNum

section Update

variable {rpts rpts' pre post : List NprefCh} {r s : NprefCh} {c : Call}

theorem apart_symm (h : Apart r s) : Apart s r :=
  fun hsame => h ⟨hsame.1.symm, hsame.2.1.symm, hsame.2.2.symm⟩

theorem names_iff : c.names r = true ↔ r.opClass = c.opClass ∧ r.preference = c.prefe ∧
    r.reason = c.res := decide_eq_true_iff

theorem get_cases (rpts : List NprefCh) (c : Call) :
    (nonPrefChanGet rpts c = none ∧ ∀ r ∈ rpts, c.names r = false) ∨
      ∃ pre r post, rpts = pre ++ r :: post ∧ nonPrefChanGet rpts c = some pre.length ∧
        c.names r = true := by
  cases hget : nonPrefChanGet rpts c with
  | none => exact .inl ⟨rfl, List.findIdx?_eq_none_iff.mp hget⟩
  | some i =>
    obtain ⟨hi, hname, -⟩ := List.findIdx?_eq_some_iff_getElem.mp hget
    refine .inr ⟨rpts.take i, rpts[i], rpts.drop (i + 1), ?_, ?_, hname⟩
    · rw [List.getElem_cons_drop, List.take_append_drop]
    · rw [List.length_take, Nat.min_eq_left (Nat.le_of_lt hi)]

theorem update_full (h : maxChRptNum ≤ rpts.length) : nonPrefChansUpdate rpts c = some rpts :=
  if_pos h

theorem update_new (h : rpts.length < maxChRptNum) (hnew : nonPrefChanGet rpts c = none) :
    nonPrefChansUpdate rpts c = some (rpts ++ [c.fresh]) := by
  rw [nonPrefChansUpdate, if_neg (Nat.not_le.mpr h), hnew]
  split
  · rename_i hempty
    rw [List.eq_nil_of_length_eq_zero hempty, List.nil_append]
  · rfl

theorem update_named (h : (pre ++ r :: post).length < maxChRptNum)
    (hget : nonPrefChanGet (pre ++ r :: post) c = some pre.length) :
    nonPrefChansUpdate (pre ++ r :: post) c =
      (nonPrefChanAdd r c).map fun r' => pre ++ r' :: post := by
  have hnonempty : ¬ (pre ++ r :: post).length = 0 := by
    rw [List.length_append, List.length_cons]
    omega
  rw [nonPrefChansUpdate, if_neg (Nat.not_le.mpr h), if_neg hnonempty, hget]
  have hat : (pre ++ r :: post)[pre.length]? = some r := by
    rw [List.getElem?_append_right (Nat.le_refl _), Nat.sub_self, List.getElem?_cons_zero]
  simp only [hat, Option.bind_some, List.set_append_right _ _ (Nat.le_refl _), Nat.sub_self,
    List.set_cons_zero]

theorem add_some (h : c.ch ∈ r.chs ∨ r.chs.length < maxChListNum) :
    nonPrefChanAdd r c = some r ∧ c.ch ∈ r.chs ∨
      nonPrefChanAdd r c = some { r with chs := r.chs ++ [c.ch] } ∧ c.ch ∉ r.chs ∧
        r.chs.length < maxChListNum := by
  cases Decidable.em (c.ch ∈ r.chs) with
  | inl hin => exact .inl ⟨if_pos (decide_eq_true hin), hin⟩
  | inr hout =>
    have hroom := h.resolve_left hout
    have hexist : ¬ nonPrefChanExist r c.ch = true := fun hyes => hout (of_decide_eq_true hyes)
    exact .inr ⟨by rw [nonPrefChanAdd, if_neg hexist, if_pos hroom], hout, hroom⟩

theorem add_none (h : ¬ (c.ch ∈ r.chs ∨ r.chs.length < maxChListNum)) :
    nonPrefChanAdd r c = none := by
  rw [not_or] at h
  have hexist : ¬ nonPrefChanExist r c.ch = true := fun hyes => h.1 (of_decide_eq_true hyes)
  rw [nonPrefChanAdd, if_neg hexist, if_neg h.2]

theorem Sound.nil : Sound [] :=
  ⟨Nat.zero_le _, .nil, fun _ hr => absurd hr List.not_mem_nil, fun _ hr => absurd hr List.not_mem_nil⟩

theorem Sound.append (h : Sound rpts) (hfew : rpts.length < maxChRptNum)
    (hnew : ∀ r ∈ rpts, c.names r = false) : Sound (rpts ++ [c.fresh]) := by
  refine ⟨?_, ?_, ?_, ?_⟩
  · rw [List.length_append, List.length_singleton]
    omega
  · refine List.pairwise_append.mpr ⟨h.apart, List.pairwise_singleton _ _, fun r hr s hs hsame => ?_⟩
    rw [List.mem_singleton.mp hs] at hsame
    exact Bool.false_ne_true ((hnew r hr).symm.trans (names_iff.mpr hsame))
  · intro r hr
    cases List.mem_append.mp hr with
    | inl hold => exact h.room r hold
    | inr hlast =>
      rw [List.mem_singleton.mp hlast]
      exact (by decide : 1 ≤ maxChListNum)
  · intro r hr
    cases List.mem_append.mp hr with
    | inl hold => exact h.once r hold
    | inr hlast =>
      rw [List.mem_singleton.mp hlast]
      exact List.nodup_singleton _

theorem Sound.extend (h : Sound (pre ++ r :: post)) (hout : c.ch ∉ r.chs)
    (hroom : r.chs.length < maxChListNum) :
    Sound (pre ++ { r with chs := r.chs ++ [c.ch] } :: post) := by
  have hcases {s : NprefCh} (hs : s ∈ pre ++ { r with chs := r.chs ++ [c.ch] } :: post) :
      s ∈ pre ++ r :: post ∨ s = { r with chs := r.chs ++ [c.ch] } := by
    rw [List.mem_append, List.mem_cons] at hs ⊢
    rcases hs with hs | rfl | hs
    · exact .inl (.inl hs)
    · exact .inr rfl
    · exact .inl (.inr (.inr hs))
  refine ⟨?_, ?_, fun s hs => ?_, fun s hs => ?_⟩
  · have hfew := h.few
    rw [List.length_append, List.length_cons] at hfew ⊢
    exact hfew
  · have hapart := h.apart
    rw [List.pairwise_append, List.pairwise_cons] at hapart ⊢
    obtain ⟨hpre, ⟨hhere, hpost⟩, hcross⟩ := hapart
    refine ⟨hpre, ⟨hhere, hpost⟩, fun p hp s hs => ?_⟩
    cases List.mem_cons.mp hs with
    | inl hsame =>
      rw [hsame]
      exact hcross p hp r List.mem_cons_self
    | inr hlater => exact hcross p hp s (List.mem_cons_of_mem r hlater)
  · cases hcases hs with
    | inl hold => exact h.room s hold
    | inr hsame =>
      rw [hsame, List.length_append, List.length_singleton]
      exact hroom
  · cases hcases hs with
    | inl hold => exact h.once s hold
    | inr hsame =>
      rw [hsame]
      have hr : r ∈ pre ++ r :: post := List.mem_append_right _ List.mem_cons_self
      refine List.nodup_append.mpr ⟨h.once r hr, List.nodup_singleton _, fun x hx y hy hxy => ?_⟩
      rw [hxy, List.mem_singleton.mp hy] at hx
      exact hout hx

theorem named_once (h : (pre ++ r :: post).Pairwise Apart) (hr : c.names r = true)
    (hs : s ∈ pre ++ r :: post) (hname : c.names s = true) : s = r := by
  obtain ⟨hclass, hpref, hreason⟩ := names_iff.mp hr
  obtain ⟨hclass', hpref', hreason'⟩ := names_iff.mp hname
  have hsame : s.opClass = r.opClass ∧ s.preference = r.preference ∧ s.reason = r.reason :=
    ⟨hclass'.trans hclass.symm, hpref'.trans hpref.symm, hreason'.trans hreason.symm⟩
  rw [List.pairwise_append, List.pairwise_cons] at h
  obtain ⟨-, ⟨hhere, -⟩, hcross⟩ := h
  rw [List.mem_append, List.mem_cons] at hs
  rcases hs with hs | rfl | hs
  · exact absurd hsame (hcross s hs r List.mem_cons_self)
  · rfl
  · exact absurd hsame (apart_symm (hhere s hs))

theorem update_sound (h : Sound rpts) (hfits : Fits rpts c) :
    ∃ rpts', nonPrefChansUpdate rpts c = some rpts' ∧ Sound rpts' := by
  cases Nat.lt_or_ge rpts.length maxChRptNum with
  | inr hfull => exact ⟨rpts, update_full hfull, h⟩
  | inl hfew =>
    have hfits' := hfits.resolve_left (Nat.not_le.mpr hfew)
    rcases get_cases rpts c with ⟨hget, hnew⟩ | ⟨pre, r, post, rfl, hget, hname⟩
    · exact ⟨_, update_new hfew hget, h.append hfew hnew⟩
    · have hr : r ∈ pre ++ r :: post := List.mem_append_right _ List.mem_cons_self
      rcases add_some (hfits' r hr hname) with ⟨hadd, -⟩ | ⟨hadd, hout, hroom⟩
      · exact ⟨_, by rw [update_named hfew hget, hadd, Option.map_some], h⟩
      · exact ⟨_, by rw [update_named hfew hget, hadd, Option.map_some], h.extend hout hroom⟩

theorem update_overflows (h : Sound rpts) (hfits : ¬ Fits rpts c) :
    nonPrefChansUpdate rpts c = none := by
  rw [Fits, not_or, Nat.not_le] at hfits
  obtain ⟨hfew, hover⟩ := hfits
  rcases get_cases rpts c with ⟨hget, hnew⟩ | ⟨pre, r, post, rfl, hget, hname⟩
  · refine absurd (fun s hs hsname => ?_) hover
    exact absurd ((hnew s hs).symm.trans hsname) Bool.false_ne_true
  · rw [update_named hfew hget, add_none, Option.map_none]
    intro hroom
    refine hover fun s hs hsname => ?_
    rw [named_once h.apart hname hs hsname]
    exact hroom

end Update

def attrNprefChRpt : UInt8 := 2

def attrCellDataCap : UInt8 := 3

inductive AttrId where
  | nprefChRpt
  | cellDataCap

structure CellData where
  conn : UInt8
  logoTest : Bool
  supplicantIe : Option (List UInt8)

def CellData.value (d : CellData) : UInt8 :=
  match d.supplicantIe with
  | some [x] => if d.logoTest then d.conn else x
  | _ => d.conn

def nprefOffset (r : NprefCh) : ℕ := r.chs.length + 3 + 2

def rtwMboAttrSzGet (rpts : List NprefCh) : AttrId → ℕ
  | .nprefChRpt => (rpts.map nprefOffset).sum
  | .cellDataCap => 3

def buildMboIeHdr (payloadLen : UInt8) : List UInt8 :=
  Ie.eidVendorSpecific :: UInt8.ofNat (payloadLen.toNat + 4) :: wfaMboOui

def buildCellDataCapAttr (d : CellData) : List UInt8 := [attrCellDataCap, 1, d.value]

def nprefSubelement (r : NprefCh) : List UInt8 :=
  attrNprefChRpt :: UInt8.ofNat (r.chs.length + 3) :: r.opClass :: (r.chs ++ [r.preference, r.reason])

def constructLoop (bufLen : ℕ) : ℕ → List NprefCh → Option (List UInt8)
  | _, [] => some []
  | plen, r :: rs =>
    if bufLen ≤ plen + nprefOffset r then none
    else (constructLoop bufLen (plen + nprefOffset r) rs).map (nprefSubelement r ++ ·)

def constructNprefChRptAttr (rpts : List NprefCh) (bufLen : ℕ) : Option (List UInt8) :=
  if rpts.length = 0 then none else constructLoop bufLen 0 rpts

def buildNprefChRptAttr (allocated : Bool) (rpts : List NprefCh) : List UInt8 :=
  if allocated then (constructNprefChRptAttr rpts (rpts.length * nprefChSize)).getD [] else []

-- frame: the request up to and with the supported operating classes
def buildAssocReqIes (frame : List UInt8) (d : CellData) (allocated : Bool) (rpts : List NprefCh) :
    List UInt8 :=
  let len := rtwMboAttrSzGet rpts .cellDataCap + rtwMboAttrSzGet rpts .nprefChRpt
  if len = 0 ∨ len < 3 then frame
  else
    frame ++ (buildMboIeHdr (UInt8.ofNat len) ++ buildCellDataCapAttr d ++
      buildNprefChRptAttr allocated rpts)

def ReportAttr (r : NprefCh) (a : Element) : Prop :=
  a.id = attrNprefChRpt ∧ a.body = r.opClass :: (r.chs ++ [r.preference, r.reason])

def cellElement (d : CellData) : Element :=
  ⟨attrCellDataCap, [d.value], (by decide : 1 < 256)⟩

def CellAttr (d : CellData) (a : Element) : Prop := a.id = attrCellDataCap ∧ a.body = [d.value]

structure ElementLaw (frame : List UInt8) (d : CellData) (allocated : Bool)
    (rpts : List NprefCh) : Prop where
  written : ∃ len body cell reports,
    buildAssocReqIes frame d allocated rpts = frame ++ Ie.eidVendorSpecific :: len :: body ∧
      len.toNat = body.length ∧ body = wfaMboOui ++ encode (cell :: reports) ∧
        CellAttr d cell ∧ List.Forall₂ ReportAttr rpts reports

def Payload (rpts : List NprefCh) : ℕ := (rpts.map fun r => r.chs.length + 5).sum

section Build

variable {rpts : List NprefCh} {r : NprefCh} {frame : List UInt8} {d : CellData} {a : Element}
  {as : List Element} {allocated : Bool}

theorem attrSz_eq (rpts : List NprefCh) : rtwMboAttrSzGet rpts .nprefChRpt = Payload rpts := rfl

theorem payload_cons (r : NprefCh) (rs : List NprefCh) :
    Payload (r :: rs) = r.chs.length + 5 + Payload rs := by
  rw [Payload, List.map_cons, List.sum_cons, Payload]

theorem length_subelement (r : NprefCh) : (nprefSubelement r).length = r.chs.length + 5 := by
  rw [nprefSubelement, List.length_cons, List.length_cons, List.length_cons, List.length_append]
  rfl

theorem reportAttr_bytes (h : ReportAttr r a) : a.bytes = nprefSubelement r := by
  obtain ⟨hid, hbody⟩ := h
  have hlen : a.body.length = r.chs.length + 3 := by
    rw [hbody, List.length_cons, List.length_append]
    rfl
  rw [Element.bytes, hid, hlen, hbody, nprefSubelement]

theorem reports_bytes (h : List.Forall₂ ReportAttr rpts as) :
    encode as = rpts.flatMap nprefSubelement ∧ (encode as).length = Payload rpts := by
  induction h with
  | nil => exact ⟨rfl, rfl⟩
  | @cons r a rs as hhead _ ih =>
    rw [encode_cons, reportAttr_bytes hhead, ih.1, List.flatMap_cons]
    refine ⟨rfl, ?_⟩
    rw [List.length_append, length_subelement, ← ih.1, ih.2, payload_cons]

theorem reports_exist (h : ∀ r ∈ rpts, r.chs.length ≤ maxChListNum) :
    ∃ as, List.Forall₂ ReportAttr rpts as := by
  induction rpts with
  | nil => exact ⟨[], .nil⟩
  | cons r rs ih =>
    obtain ⟨as, has⟩ := ih fun s hs => h s (List.mem_cons_of_mem r hs)
    have hroom := h r List.mem_cons_self
    have hshort : (r.opClass :: (r.chs ++ [r.preference, r.reason])).length < 256 := by
      rw [maxChListNum] at hroom
      rw [List.length_cons, List.length_append, List.length_cons, List.length_singleton]
      omega
    exact ⟨⟨attrNprefChRpt, _, hshort⟩ :: as, .cons ⟨rfl, rfl⟩ has⟩

theorem constructLoop_eq {bufLen plen : ℕ} (h : ∀ r ∈ rpts, r.chs.length ≤ maxChListNum)
    (hroom : plen + rpts.length * nprefChSize ≤ bufLen) :
    constructLoop bufLen plen rpts = some (rpts.flatMap nprefSubelement) := by
  induction rpts generalizing plen with
  | nil => rfl
  | cons r rs ih =>
    have hr := h r List.mem_cons_self
    rw [maxChListNum] at hr
    rw [List.length_cons, nprefChSize] at hroom
    have hfits : ¬ bufLen ≤ plen + nprefOffset r := by
      rw [nprefOffset]
      omega
    have hrest : plen + nprefOffset r + rs.length * nprefChSize ≤ bufLen := by
      rw [nprefOffset, nprefChSize]
      omega
    rw [constructLoop, if_neg hfits, ih (fun s hs => h s (List.mem_cons_of_mem r hs)) hrest,
      Option.map_some, List.flatMap_cons]

theorem build_reports (h : ∀ r ∈ rpts, r.chs.length ≤ maxChListNum) :
    buildNprefChRptAttr true rpts = rpts.flatMap nprefSubelement := by
  rw [buildNprefChRptAttr, if_pos rfl, constructNprefChRptAttr]
  split
  · rename_i hempty
    rw [List.eq_nil_of_length_eq_zero hempty]
    rfl
  · rw [constructLoop_eq h (Nat.le_of_eq (Nat.zero_add _)), Option.getD_some]

theorem buildAssocReq_eq : buildAssocReqIes frame d allocated rpts =
    frame ++ Ie.eidVendorSpecific :: UInt8.ofNat (Payload rpts + 7) ::
      (wfaMboOui ++ (attrCellDataCap :: 1 :: [d.value] ++ buildNprefChRptAttr allocated rpts)) := by
  have hlen : ¬ (rtwMboAttrSzGet rpts .cellDataCap + rtwMboAttrSzGet rpts .nprefChRpt = 0 ∨
      rtwMboAttrSzGet rpts .cellDataCap + rtwMboAttrSzGet rpts .nprefChRpt < 3) := by
    have hcell : rtwMboAttrSzGet rpts .cellDataCap = 3 := rfl
    omega
  have hbyte : UInt8.ofNat ((UInt8.ofNat (3 + Payload rpts)).toNat + 4) =
      UInt8.ofNat (Payload rpts + 7) := by
    rw [← UInt8.toNat_inj, UInt8.toNat_ofNat', UInt8.toNat_ofNat', UInt8.toNat_ofNat']
    omega
  rw [buildAssocReqIes, if_neg hlen, attrSz_eq, rtwMboAttrSzGet, buildMboIeHdr, hbyte,
    buildCellDataCapAttr]
  simp only [List.cons_append, List.append_assoc]

theorem cellAttr_bytes (h : CellAttr d a) : a.bytes = attrCellDataCap :: 1 :: [d.value] := by
  rw [Element.bytes, h.1, h.2]
  rfl

theorem element_written (h : ElementLaw frame d allocated rpts) :
    ∃ reports, List.Forall₂ ReportAttr rpts reports ∧
      buildNprefChRptAttr allocated rpts = encode reports ∧ Payload rpts + 7 < 256 := by
  obtain ⟨len, body, cell, reports, hbuild, hlen, rfl, hcell, hreports⟩ := h
  rw [buildAssocReq_eq] at hbuild
  have hrest := List.append_cancel_left hbuild
  obtain ⟨-, htail⟩ := List.cons.inj hrest
  obtain ⟨rfl, hbody⟩ := List.cons.inj htail
  rw [encode_cons, cellAttr_bytes hcell] at hbody hlen
  refine ⟨reports, hreports, List.append_cancel_left (List.append_cancel_left hbody), ?_⟩
  rw [UInt8.toNat_ofNat', List.length_append, List.length_append, (reports_bytes hreports).2] at hlen
  have hoff : wfaMboOui.length + ((attrCellDataCap :: 1 :: [d.value]).length + Payload rpts) =
      Payload rpts + 7 := by
    have hhead : wfaMboOui.length = 4 := rfl
    rw [hhead, List.length_cons, List.length_cons, List.length_singleton]
    omega
  rw [hoff] at hlen
  omega

theorem element_of_reports (hreports : List.Forall₂ ReportAttr rpts as)
    (hbuild : buildNprefChRptAttr allocated rpts = encode as) (hlen : Payload rpts + 7 < 256) :
    ElementLaw frame d allocated rpts := by
  have hcell : CellAttr d (cellElement d) := ⟨rfl, rfl⟩
  refine ⟨UInt8.ofNat (Payload rpts + 7), _, cellElement d, as, ?_, ?_, rfl, hcell, hreports⟩
  · rw [buildAssocReq_eq, hbuild, encode_cons, cellAttr_bytes hcell]
  · rw [UInt8.toNat_ofNat', Nat.mod_eq_of_lt hlen, encode_cons, List.length_append,
      List.length_append, (reports_bytes hreports).2, cellAttr_bytes hcell]
    have hhead : wfaMboOui.length = 4 := rfl
    rw [hhead, List.length_cons, List.length_cons, List.length_singleton]
    omega

theorem element_law (h : ∀ r ∈ rpts, r.chs.length ≤ maxChListNum) :
    ElementLaw frame d allocated rpts ↔
      Payload rpts + 7 < 256 ∧ (allocated = true ∨ rpts = []) := by
  constructor
  · intro hlaw
    obtain ⟨reports, hreports, hbuild, hlen⟩ := element_written hlaw
    refine ⟨hlen, ?_⟩
    cases allocated with
    | true => exact .inl rfl
    | false =>
      have hnone : encode reports = [] := hbuild.symm
      rw [encode_eq_nil hnone] at hreports
      exact .inr (List.forall₂_nil_right_iff.mp hreports)
  · rintro ⟨hlen, hready⟩
    obtain ⟨as, has⟩ := reports_exist h
    refine element_of_reports has ?_ hlen
    rw [(reports_bytes has).1]
    cases hready with
    | inl hyes =>
      rw [hyes]
      exact build_reports h
    | inr hempty =>
      rw [hempty]
      cases allocated <;> rfl

end Build

structure Kept (calls : List Call) (frame : List UInt8) (d : CellData) (allocated : Bool) : Prop where
  reached : ∃ rpts, updates calls = some rpts ∧ Sound rpts ∧ ElementLaw frame d allocated rpts

def Roomy (calls : List Call) : Prop :=
  ∀ pre c post, calls = pre ++ c :: post → ∀ rpts, updates pre = some rpts → Fits rpts c

section Runs

variable {calls pre post : List Call} {c : Call} {rpts : List NprefCh}

theorem updates_split (pre : List Call) (c : Call) (post : List Call) :
    updates (pre ++ c :: post) = (updates pre).bind fun rpts =>
      (nonPrefChansUpdate rpts c).bind fun rpts' => post.foldlM nonPrefChansUpdate rpts' := by
  rw [updates, List.foldlM_append]
  rfl

theorem Roomy.init (h : Roomy (calls ++ [c])) : Roomy calls := by
  rintro pre c' post rfl
  exact h pre c' (post ++ [c]) (by rw [List.append_assoc, List.cons_append])

theorem Roomy.sound (h : Roomy calls) : ∃ rpts, updates calls = some rpts ∧ Sound rpts := by
  induction calls using List.reverseRecOn with
  | nil => exact ⟨[], rfl, .nil⟩
  | append_singleton calls c ih =>
    obtain ⟨rpts, hrun, hsound⟩ := ih h.init
    obtain ⟨rpts', hstep, hsound'⟩ := update_sound hsound (h calls c [] rfl rpts hrun)
    refine ⟨rpts', ?_, hsound'⟩
    rw [updates_split, hrun, Option.bind_some, hstep, Option.bind_some]
    rfl

theorem updates_concat (h : updates (calls ++ [c]) = some rpts) :
    ∃ rpts', updates calls = some rpts' ∧ nonPrefChansUpdate rpts' c = some rpts := by
  rw [updates_split] at h
  obtain ⟨rpts', hrun, hstep⟩ := Option.bind_eq_some_iff.mp h
  obtain ⟨last, hlast, hend⟩ := Option.bind_eq_some_iff.mp hstep
  have hsame : last = rpts := Option.some_inj.mp hend
  rw [hsame] at hlast
  exact ⟨rpts', hrun, hlast⟩

theorem roomy_of_some (h : updates calls = some rpts) : Roomy calls := by
  induction calls using List.reverseRecOn generalizing rpts with
  | nil =>
    intro pre c post hsplit
    exact absurd hsplit.symm (List.append_ne_nil_of_right_ne_nil pre (List.cons_ne_nil c post))
  | append_singleton calls c ih =>
    obtain ⟨before, hrun, hstep⟩ := updates_concat h
    have hroomy := ih hrun
    intro pre c' post hsplit rpts' hpre
    rcases List.eq_nil_or_concat post with rfl | ⟨post', x, rfl⟩
    · obtain ⟨rfl, hlast⟩ := List.append_inj' hsplit rfl
      obtain ⟨rfl, -⟩ := List.cons.inj hlast
      obtain ⟨rpts'', hrun', hsound⟩ := hroomy.sound
      have hsame : rpts'' = rpts' := Option.some_inj.mp (hrun'.symm.trans hpre)
      have hbefore : before = rpts' := Option.some_inj.mp (hrun.symm.trans hpre)
      rw [hsame] at hsound
      rw [hbefore] at hstep
      by_contra hover
      rw [update_overflows hsound hover] at hstep
      exact absurd hstep.symm (Option.some_ne_none _)
    · rw [List.concat_eq_append, ← List.cons_append, ← List.append_assoc] at hsplit
      exact hroomy pre c' post' (List.append_inj' hsplit rfl).1 rpts' hpre

theorem assoc_req_law (calls : List Call) (frame : List UInt8) (d : CellData) (allocated : Bool) :
    Kept calls frame d allocated ↔ Roomy calls ∧ ∀ rpts, updates calls = some rpts →
      Payload rpts + 7 < 256 ∧ (allocated = true ∨ rpts = []) := by
  constructor
  · rintro ⟨rpts, hrun, hsound, helement⟩
    refine ⟨roomy_of_some hrun, fun rpts' hrun' => ?_⟩
    obtain rfl := Option.some_inj.mp (hrun.symm.trans hrun')
    exact (element_law hsound.room).mp helement
  · rintro ⟨hroomy, hbuild⟩
    obtain ⟨rpts, hrun, hsound⟩ := hroomy.sound
    exact ⟨rpts, hrun, hsound, (element_law hsound.room).mpr (hbuild rpts hrun)⟩

def fifteenChannels : List Call :=
  (List.range 15).map fun i => ⟨115, UInt8.ofNat (i + 36), 0, 0⟩

theorem fifteenth_channel_past_array : ¬ Kept fifteenChannels [] ⟨1, false, none⟩ true := by
  rintro ⟨rpts, hrun, -⟩
  have hnone : updates fifteenChannels = none := by decide
  exact absurd (hrun.symm.trans hnone) (Option.some_ne_none rpts)

end Runs

end Mbo
