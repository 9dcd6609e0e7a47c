import Rtl8188fu.Rm.ChannelSet

namespace Rm

open ByteMemory ElementScan Tlv

structure SentOpt where
  bssid : List UInt8
  ssid : List UInt8
  repDetail : UInt8
  reqId : List UInt8
  apChRpt : List (Option OperatingClass)
  station : bssid.length = 6
  ssidRoom : ssid.length ≤ sizeofSsid
  reqRoom : reqId.length ≤ bcnReqOptMaxNum
  slots : apChRpt.length ≤ bcnReqOptApChRptMaxNum
  whole : ∀ op, some op ∈ apChRpt → op.len = op.channel.length

def genReports : List (Option OperatingClass) → List UInt8 → List UInt8
  | some op :: ops, pframe =>
    genReports ops (pframe ++ [bcnReqApChRep] ++ [.ofNat (op.len.toNat + 1)] ++
      [.ofInt op.globalOpClass] ++ op.channel.take op.len.toNat)
  | _, pframe => pframe

def rmGenBcnReqSElem (o : SentOpt) : List UInt8 :=
  let pframe := [bcnReqActive] ++ o.bssid
  let l : UInt8 := .ofNat (min 32 o.ssid.length)
  let pframe := if 0 < l ∧ l ≤ 32 then pframe ++ [bcnReqSsid] ++ [l] ++ o.ssid.take l.toNat
    else pframe
  let pframe := pframe ++ [bcnReqRepDetail] ++ [1] ++ [o.repDetail]
  let pframe := if 0 < o.reqId.length then
      pframe ++ [bcnReqReq] ++ [.ofNat o.reqId.length] ++ o.reqId
    else pframe
  genReports o.apChRpt pframe

def liveReports : List (Option OperatingClass) → List OperatingClass
  | some op :: ops => op :: liveReports ops
  | _ => []

section Elements

variable (o : SentOpt)

def ssidElement : Element where
  id := bcnReqSsid
  body := o.ssid
  short := lt_of_le_of_lt o.ssidRoom (by decide)

def detailElement : Element where
  id := bcnReqRepDetail
  body := [o.repDetail]
  short := by simp

def reqElement : Element where
  id := bcnReqReq
  body := o.reqId
  short := lt_of_le_of_lt o.reqRoom (by decide)

def reportElement (op : OperatingClass) : Element where
  id := bcnReqApChRep
  body := .ofInt op.globalOpClass :: op.channel
  short := lt_of_le_of_lt (Nat.succ_le_succ op.room) (by decide)

def ssidElements : List Element := if o.ssid = [] then [] else [ssidElement o]

def reqElements : List Element := if o.reqId = [] then [] else [reqElement o]

def reportElements : List Element := (liveReports o.apChRpt).map reportElement

def optElements : List Element :=
  ssidElements o ++ ([detailElement o] ++ (reqElements o ++ reportElements o))

end Elements

section Encoder

variable {o : SentOpt} {op : OperatingClass} {ops : List (Option OperatingClass)}

theorem mem_liveReports (h : op ∈ liveReports ops) : some op ∈ ops := by
  induction ops with
  | nil => exact absurd h List.not_mem_nil
  | cons x ops ih =>
    cases x with
    | none => exact absurd h List.not_mem_nil
    | some op' =>
      rcases List.mem_cons.mp h with rfl | hrest
      · exact List.mem_cons_self
      · exact List.mem_cons_of_mem _ (ih hrest)

theorem length_liveReports (ops : List (Option OperatingClass)) :
    (liveReports ops).length ≤ ops.length := by
  induction ops with
  | nil => exact Nat.le_refl 0
  | cons x ops ih =>
    cases x with
    | none => exact Nat.zero_le _
    | some op => exact Nat.succ_le_succ ih

theorem genReports_eq (h : ∀ op, some op ∈ ops → op.len = op.channel.length)
    (pframe : List UInt8) :
    genReports ops pframe = pframe ++ encode ((liveReports ops).map reportElement) := by
  induction ops generalizing pframe with
  | nil => exact (List.append_nil pframe).symm
  | cons x ops ih =>
    cases x with
    | none => exact (List.append_nil pframe).symm
    | some op =>
      have hlen : op.len.toNat = op.channel.length := by
        rw [h op List.mem_cons_self]
        rfl
      rw [genReports, ih fun op' hop' => h op' (List.mem_cons_of_mem _ hop')]
      rw [liveReports, List.map_cons, encode_cons, hlen, List.take_length]
      simp [Element.bytes, reportElement]

theorem rmGenBcnReqSElem_eq (o : SentOpt) :
    rmGenBcnReqSElem o = ([bcnReqActive] ++ o.bssid) ++ encode (optElements o) := by
  have hmin : min 32 o.ssid.length = o.ssid.length := min_eq_right o.ssidRoom
  have hssid : ∀ pframe : List UInt8,
      (if 0 < UInt8.ofNat o.ssid.length ∧ UInt8.ofNat o.ssid.length ≤ 32 then
        pframe ++ [bcnReqSsid] ++ [UInt8.ofNat o.ssid.length] ++
          o.ssid.take (UInt8.ofNat o.ssid.length).toNat else pframe) =
        pframe ++ encode (ssidElements o) := by
    intro pframe
    have hnat : (UInt8.ofNat o.ssid.length).toNat = o.ssid.length := (ssidElement o).toNat_length
    have hroom : UInt8.ofNat o.ssid.length ≤ 32 := by
      rw [UInt8.le_iff_toNat_le, hnat]
      exact o.ssidRoom
    unfold ssidElements
    cases Decidable.em (o.ssid = []) with
    | inl hnone => simp [hnone]
    | inr hsome =>
      have hpos : 0 < UInt8.ofNat o.ssid.length := by
        rw [UInt8.lt_iff_toNat_lt, hnat]
        exact List.length_pos_iff.mpr hsome
      rw [if_pos ⟨hpos, hroom⟩, if_neg hsome, hnat, List.take_length]
      simp [Element.bytes, ssidElement]
  have hreq : ∀ pframe : List UInt8,
      (if 0 < o.reqId.length then
        pframe ++ [bcnReqReq] ++ [UInt8.ofNat o.reqId.length] ++ o.reqId else pframe) =
        pframe ++ encode (reqElements o) := by
    intro pframe
    unfold reqElements
    cases Decidable.em (o.reqId = []) with
    | inl hnone => simp [hnone]
    | inr hsome =>
      rw [if_pos (List.length_pos_iff.mpr hsome), if_neg hsome]
      simp [Element.bytes, reqElement]
  unfold rmGenBcnReqSElem
  dsimp only
  rw [hmin, hssid, hreq, genReports_eq o.whole]
  simp [optElements, reportElements, Element.bytes, detailElement]

theorem length_optElements (o : SentOpt) : (optElements o).length < bcnReqOptMaxNum := by
  have hssid : (ssidElements o).length ≤ 1 := by
    unfold ssidElements
    split <;> simp
  have hreq : (reqElements o).length ≤ 1 := by
    unfold reqElements
    split <;> simp
  have hrpts : (reportElements o).length ≤ 12 := by
    rw [reportElements, List.length_map]
    exact (length_liveReports o.apChRpt).trans o.slots
  simp only [optElements, List.length_append, List.length_singleton]
  have hmax : bcnReqOptMaxNum = 16 := rfl
  omega

end Encoder

structure OptView where
  ssidLength : UInt32
  ssid : Fin sizeofSsid → UInt8
  repDetail : UInt8
  reqStart : Option (List UInt8)
  reqLen : UInt8
  apChRpt : List OperatingClass
  wild : Bool

def MeasReqObj.view (q : MeasReqObj) : OptView :=
  ⟨q.opt.ssidLength, q.opt.ssid, q.opt.repDetail, q.opt.reqStart, q.opt.reqLen, q.opt.apChRpt, q.wild⟩

def sentClass (op : OperatingClass) : OperatingClass where
  globalOpClass := (UInt8.ofInt op.globalOpClass).toNat
  len := op.channel.length
  channel := op.channel
  room := op.room

def reportsAlloc (env : ParseEnv) : ℕ → List OperatingClass → Bool
  | _, [] => true
  | p, op :: ops => env.alloc p && reportsAlloc env (p + (reportElement op).bytes.length) ops

section Decoder

variable {env : ParseEnv} {mem : Mem UInt8} {o : SentOpt} {op : OperatingClass} {p : ℕ}
  {q : MeasReqObj} {rest : List UInt8}

def keptSsid (o : SentOpt) (old : Fin sizeofSsid → UInt8) : Fin sizeofSsid → UInt8 := fun i =>
  if i.val < min o.ssid.length (sizeofSsid - 1) then o.ssid.getD i.val 0 else old i

theorem view_ssid (h : Holds mem p ((ssidElement o).bytes ++ rest)) :
    (parseBcnElem env mem p q).view =
      { q.view with
        ssidLength := (UInt8.ofNat o.ssid.length).toUInt32
        ssid := keptSsid o q.opt.ssid } := by
  have hid : mem p = bcnReqSsid := holds_id h
  have hlen : mem (p + 1) = UInt8.ofNat o.ssid.length := h 1 (by simp [Element.bytes])
  have hnat : (mem (p + 1)).toNat = o.ssid.length := holds_len h
  have hbody : Holds mem (p + 2) o.ssid := (holds_tail h).left
  have hssid : (rmParseSsid mem p q).opt.ssid = keptSsid o q.opt.ssid := by
    funext i
    simp only [rmParseSsid, keptSsid, hnat]
    split
    · next hi =>
      have hin : i.val < o.ssid.length := lt_of_lt_of_le hi (min_le_left _ _)
      rw [hbody i.val hin, List.getD_eq_getElem _ _ hin]
    · rfl
  have hview : (rmParseSsid mem p q).view = { q.view with
      ssidLength := (mem (p + 1)).toUInt32
      ssid := (rmParseSsid mem p q).opt.ssid } := rfl
  rw [parseBcnElem, if_pos hid]
  exact hview.trans (by rw [hssid, hlen])

theorem view_detail (h : Holds mem p ((detailElement o).bytes ++ rest)) :
    (parseBcnElem env mem p q).view = { q.view with repDetail := o.repDetail } := by
  have hid : mem p = bcnReqRepDetail := holds_id h
  have hbody : mem (p + 2) = o.repDetail := h 2 (by simp [Element.bytes, detailElement])
  rw [parseBcnElem, hid, if_neg (by decide), if_neg (by decide), if_pos rfl, hbody]
  rfl

theorem view_req (h : Holds mem p ((reqElement o).bytes ++ rest)) :
    (parseBcnElem env mem p q).view =
      if env.alloc p then
        { q.view with
          reqStart := some o.reqId
          reqLen := UInt8.ofNat o.reqId.length }
      else { q.view with reqStart := none } := by
  have hid : mem p = bcnReqReq := holds_id h
  have hlen : mem (p + 1) = UInt8.ofNat o.reqId.length := h 1 (by simp [Element.bytes])
  have hread : read mem (p + 2) (mem (p + 1)).toNat = o.reqId :=
    (holds_tail h).left.read_eq (holds_len h)
  rw [parseBcnElem, hid, if_neg (by decide), if_neg (by decide), if_neg (by decide), if_pos rfl,
    rmParseReq, hread, hlen]
  split <;> rfl

theorem receivedClass_eq (h : Holds mem p ((reportElement op).bytes ++ rest)) :
    receivedClass mem p = sentClass op := by
  have hlen : (mem (p + 1)).toNat = op.channel.length + 1 := holds_len h
  have hclass : mem (p + 2) = UInt8.ofInt op.globalOpClass :=
    h 2 (by simp [Element.bytes, reportElement])
  have hbody : Holds mem (p + 2) ([UInt8.ofInt op.globalOpClass] ++ op.channel) :=
    (holds_tail h).left
  have hchannels : Holds mem (p + 3) op.channel := hbody.right
  have hlist : chListLen mem p = op.channel.length := by
    rw [chListLen, hlen]
    omega
  have hcopied : (copiedChs mem p).toNat = op.channel.length := by
    have hroom := op.room
    rw [copiedChs, hlist]
    omega
  simp only [receivedClass, sentClass, hclass, hlist, hcopied, hchannels.read_eq]

theorem view_report (h : Holds mem p ((reportElement op).bytes ++ rest))
    (hroom : q.opt.apChRpt.length < bcnReqOptApChRptMaxNum) :
    (parseBcnElem env mem p q).view =
      { q.view with
        apChRpt := q.opt.apChRpt ++ [sentClass op]
        wild := q.wild || !env.alloc p } := by
  have hid : mem p = bcnReqApChRep := holds_id h
  have hlen : (mem (p + 1)).toNat = op.channel.length + 1 := holds_len h
  have hlist : decide (chListLen mem p < 0) = false := by
    rw [chListLen, hlen]
    exact decide_eq_false (by omega)
  have hslot : decide (bcnReqOptApChRptMaxNum ≤ q.opt.apChRpt.length) = false :=
    decide_eq_false (Nat.not_le.mpr hroom)
  have hview : (rmParseApChRep env mem p (q.pushOptId (mem p))).view = { q.view with
      apChRpt := q.opt.apChRpt ++ [receivedClass mem p]
      wild := q.wild || !env.alloc p || decide (chListLen mem p < 0) ||
        decide (bcnReqOptApChRptMaxNum ≤ q.opt.apChRpt.length) } := rfl
  rw [hid, hlist, hslot, Bool.or_false, Bool.or_false, receivedClass_eq h] at hview
  rw [parseBcnElem, hid, if_neg (by decide), if_neg (by decide), if_neg (by decide),
    if_neg (by decide), if_pos rfl, if_neg (Nat.not_lt.mpr hroom.le)]
  exact hview

theorem view_reports {ops : List OperatingClass}
    (h : Holds mem p (encode (ops.map reportElement)))
    (hroom : q.opt.apChRpt.length + ops.length ≤ bcnReqOptApChRptMaxNum) :
    (foldAt (bcnElements env mem) p (ops.map reportElement) q).view =
      { q.view with
        apChRpt := q.opt.apChRpt ++ ops.map sentClass
        wild := q.wild || !reportsAlloc env p ops } := by
  induction ops generalizing p q with
  | nil =>
    simp only [List.map_nil, foldAt, reportsAlloc, Bool.not_true, Bool.or_false, List.append_nil]
    rfl
  | cons op ops ih =>
    rw [List.map_cons, encode_cons] at h
    rw [List.length_cons] at hroom
    have hview := @view_report env mem op p q _ h (by omega)
    have hrpts : (parseBcnElem env mem p q).opt.apChRpt = q.opt.apChRpt ++ [sentClass op] :=
      congrArg OptView.apChRpt hview
    have hwild : (parseBcnElem env mem p q).wild = (q.wild || !env.alloc p) :=
      congrArg OptView.wild hview
    have hrest := ih (q := parseBcnElem env mem p q) h.right (by
      rw [hrpts, List.length_append, List.length_singleton]
      omega)
    rw [List.map_cons, foldAt]
    refine hrest.trans ?_
    rw [hview, hrpts, hwild, List.append_assoc, reportsAlloc, Bool.not_and, Bool.or_assoc]
    rfl

theorem view_ssidElements (h : Holds mem p (encode (ssidElements o) ++ rest))
    (hzero : q.opt.ssidLength = 0) :
    (foldAt (bcnElements env mem) p (ssidElements o) q).view =
      { q.view with
        ssidLength := (UInt8.ofNat o.ssid.length).toUInt32
        ssid := keptSsid o q.opt.ssid } := by
  unfold ssidElements at h ⊢
  cases Decidable.em (o.ssid = []) with
  | inl hnone =>
    have hkept : keptSsid o q.opt.ssid = q.opt.ssid := by
      funext i
      rw [keptSsid, hnone]
      exact if_neg (by simp)
    rw [if_pos hnone, foldAt, hkept, hnone]
    have hlen : (UInt8.ofNat ([] : List UInt8).length).toUInt32 = q.opt.ssidLength := by
      rw [hzero]
      rfl
    rw [hlen]
    rfl
  | inr hsome =>
    rw [if_neg hsome] at h ⊢
    rw [encode_cons, encode_nil, List.append_nil] at h
    exact view_ssid h

theorem view_reqElements (h : Holds mem p (encode (reqElements o) ++ rest))
    (hnone : q.opt.reqStart = none) :
    (foldAt (bcnElements env mem) p (reqElements o) q).view =
      if o.reqId ≠ [] ∧ env.alloc p = true then
        { q.view with
          reqStart := some o.reqId
          reqLen := UInt8.ofNat o.reqId.length }
      else q.view := by
  unfold reqElements at h ⊢
  cases Decidable.em (o.reqId = []) with
  | inl hempty =>
    rw [if_pos hempty, foldAt, if_neg fun hboth => hboth.1 hempty]
  | inr hsome =>
    rw [if_neg hsome] at h ⊢
    rw [encode_cons, encode_nil, List.append_nil] at h
    refine (view_req h).trans ?_
    cases halloc : env.alloc p with
    | true => rw [if_pos rfl, if_pos ⟨hsome, rfl⟩]
    | false =>
      rw [if_neg Bool.false_ne_true, if_neg fun hboth => absurd hboth.2 Bool.false_ne_true, ← hnone]
      rfl

end Decoder

section Law

variable {env : ParseEnv} {mem : Mem UInt8} {o : SentOpt} {p : ℕ}

def startObj : MeasReqObj := { MeasReqObj.zeroed with opt.repDetail := 2 }

def reqAt (p : ℕ) (o : SentOpt) : ℕ := p + (encode (ssidElements o)).length + 3

def reportsAt (p : ℕ) (o : SentOpt) : ℕ := reqAt p o + (encode (reqElements o)).length

def parsedView (env : ParseEnv) (p : ℕ) (o : SentOpt) : OptView where
  ssidLength := (UInt8.ofNat o.ssid.length).toUInt32
  ssid := keptSsid o fun _ => 0
  repDetail := o.repDetail
  reqStart := if o.reqId ≠ [] ∧ env.alloc (reqAt p o) = true then some o.reqId else none
  reqLen := if o.reqId ≠ [] ∧ env.alloc (reqAt p o) = true then .ofNat o.reqId.length else 0
  apChRpt := (liveReports o.apChRpt).map sentClass
  wild := !reportsAlloc env (reportsAt p o) (liveReports o.apChRpt)

theorem view_optElements (h : Holds mem p (encode (optElements o))) (len : ℤ) :
    (foldAt (bcnElements env mem) p (optElements o) { startObj with optSElemLen := len }).view =
      parsedView env p o := by
  rw [optElements, encode_append, encode_append, encode_append] at h
  have hssid := @view_ssidElements env mem o p { startObj with optSElemLen := len } _ h rfl
  rw [optElements, foldAt_append]
  generalize foldAt (bcnElements env mem) p (ssidElements o) { startObj with optSElemLen := len } =
    q at hssid ⊢
  have hdetail : Holds mem (p + (encode (ssidElements o)).length)
      ((detailElement o).bytes ++ (encode (reqElements o) ++ encode (reportElements o))) := h.right
  have hview := @view_detail env mem o _ q _ hdetail
  rw [hssid] at hview
  have hat : p + (encode (ssidElements o)).length + (encode [detailElement o]).length = reqAt p o :=
    rfl
  rw [foldAt_append, hat]
  show (foldAt (bcnElements env mem) (reqAt p o) (reqElements o ++ reportElements o)
    (parseBcnElem env mem (p + (encode (ssidElements o)).length) q)).view = _
  generalize parseBcnElem env mem (p + (encode (ssidElements o)).length) q = q at hview ⊢
  have hreqs : Holds mem (reqAt p o) (encode (reqElements o) ++ encode (reportElements o)) :=
    hdetail.right
  have hreq := @view_reqElements env mem o _ q _ hreqs (congrArg OptView.reqStart hview)
  rw [hview] at hreq
  rw [foldAt_append]
  show (foldAt (bcnElements env mem) (reportsAt p o) (reportElements o) _).view = _
  generalize foldAt (bcnElements env mem) (reqAt p o) (reqElements o) q = q at hreq ⊢
  have hrpts : q.opt.apChRpt = [] := by
    have hsame : q.view.apChRpt = [] := by
      rw [hreq]
      split <;> rfl
    exact hsame
  have hwild : q.wild = false := by
    have hsame : q.view.wild = false := by
      rw [hreq]
      split <;> rfl
    exact hsame
  have hreports : Holds mem (reportsAt p o) (encode ((liveReports o.apChRpt).map reportElement)) :=
    hreqs.right
  have hroom : q.opt.apChRpt.length + (liveReports o.apChRpt).length ≤ bcnReqOptApChRptMaxNum := by
    rw [hrpts, List.length_nil, Nat.zero_add]
    exact (length_liveReports o.apChRpt).trans o.slots
  refine (view_reports hreports hroom).trans ?_
  rw [hreq, hrpts, hwild, parsedView]
  split <;> rfl

structure Recovers (o : SentOpt) (v : OptView) : Prop where
  stores : v.wild = false
  ssidLength : v.ssidLength.toNat = o.ssid.length
  ssid : ∀ i : Fin sizeofSsid, i.val < o.ssid.length → v.ssid i = o.ssid.getD i.val 0
  repDetail : v.repDetail = o.repDetail
  ids : v.reqStart.getD [] = o.reqId
  idsLen : v.reqLen.toNat = o.reqId.length
  rpts : v.apChRpt = liveReports o.apChRpt

structure Carried (env : ParseEnv) (p : ℕ) (o : SentOpt) : Prop where
  ssid : ∀ b, o.ssid[sizeofSsid - 1]? = some b → b = 0
  reqBuffer : o.reqId ≠ [] → env.alloc (reqAt p o) = true
  buffers : reportsAlloc env (reportsAt p o) (liveReports o.apChRpt) = true
  classes : ∀ op ∈ liveReports o.apChRpt, 0 ≤ op.globalOpClass ∧ op.globalOpClass < 256

theorem parsed_ssid_iff (o : SentOpt) :
    (∀ i : Fin sizeofSsid, i.val < o.ssid.length →
        keptSsid o (fun _ => 0) i = o.ssid.getD i.val 0) ↔
      ∀ b, o.ssid[sizeofSsid - 1]? = some b → b = 0 := by
  constructor
  · intro hall b hb
    obtain ⟨hlast, rfl⟩ := List.getElem?_eq_some_iff.mp hb
    have hkept := hall ⟨sizeofSsid - 1, by decide⟩ hlast
    rw [keptSsid, if_neg (by simp), List.getD_eq_getElem _ _ hlast] at hkept
    exact hkept.symm
  · intro hlast i hi
    rw [keptSsid]
    split
    · rfl
    · next hcut =>
      have hroom := o.ssidRoom
      have hmax : i.val = sizeofSsid - 1 := by
        have := i.isLt
        rw [lt_min_iff, not_and_or] at hcut
        omega
      rw [List.getD_eq_getElem _ _ hi]
      refine (hlast _ ?_).symm
      rw [← hmax]
      exact List.getElem?_eq_getElem hi

theorem parsed_req_iff (env : ParseEnv) (p : ℕ) (o : SentOpt) :
    ((parsedView env p o).reqStart.getD [] = o.reqId ∧
        (parsedView env p o).reqLen.toNat = o.reqId.length) ↔
      (o.reqId ≠ [] → env.alloc (reqAt p o) = true) := by
  simp only [parsedView]
  cases Decidable.em (o.reqId = []) with
  | inl hempty => simp [hempty]
  | inr hsome =>
    cases halloc : env.alloc (reqAt p o) with
    | true =>
      have hlen : (UInt8.ofNat o.reqId.length).toNat = o.reqId.length := (reqElement o).toNat_length
      rw [if_pos ⟨hsome, rfl⟩, if_pos ⟨hsome, rfl⟩]
      exact iff_of_true ⟨rfl, hlen⟩ fun _ => rfl
    | false => simp [hsome, eq_comm]

theorem sentClass_eq_iff {op : OperatingClass} (hwhole : op.len = op.channel.length) :
    sentClass op = op ↔ 0 ≤ op.globalOpClass ∧ op.globalOpClass < 256 := by
  have hbyte : ((UInt8.ofInt op.globalOpClass).toNat : ℤ) = op.globalOpClass % 256 := by
    unfold UInt8.ofInt
    rw [UInt8.toNat_ofNat']
    omega
  have hclass : sentClass op = op ↔ op.globalOpClass % 256 = op.globalOpClass := by
    rw [← hbyte]
    constructor
    · exact fun h => congrArg OperatingClass.globalOpClass h
    · intro h
      cases op with
      | mk globalOpClass len channel room =>
        simp only [sentClass, OperatingClass.mk.injEq, and_true]
        exact ⟨h, hwhole.symm⟩
  rw [hclass]
  omega

theorem parsed_rpts_iff (o : SentOpt) :
    (liveReports o.apChRpt).map sentClass = liveReports o.apChRpt ↔
      ∀ op ∈ liveReports o.apChRpt, 0 ≤ op.globalOpClass ∧ op.globalOpClass < 256 := by
  have hid := @List.map_inj_left _ _ (liveReports o.apChRpt) sentClass id
  rw [List.map_id] at hid
  refine hid.trans (forall₂_congr fun op hop => ?_)
  exact sentClass_eq_iff (o.whole op (mem_liveReports hop))

theorem recovers_iff (env : ParseEnv) (p : ℕ) (o : SentOpt) :
    Recovers o (parsedView env p o) ↔ Carried env p o := by
  have hlength : (parsedView env p o).ssidLength.toNat = o.ssid.length := by
    rw [parsedView, UInt8.toNat_toUInt32]
    exact (ssidElement o).toNat_length
  constructor
  · intro h
    exact ⟨(parsed_ssid_iff o).mp h.ssid, (parsed_req_iff env p o).mp ⟨h.ids, h.idsLen⟩,
      Bool.not_eq_eq_eq_not.mp h.stores, (parsed_rpts_iff o).mp h.rpts⟩
  · intro h
    obtain ⟨hids, hidsLen⟩ := (parsed_req_iff env p o).mpr h.reqBuffer
    exact ⟨Bool.not_eq_eq_eq_not.mpr h.buffers, hlength, (parsed_ssid_iff o).mpr h.ssid, rfl, hids,
      hidsLen, (parsed_rpts_iff o).mpr h.classes⟩

theorem optIds_le (env : ParseEnv) (mem : Mem UInt8) (p : ℕ) (es : List Element) (q : MeasReqObj) :
    (foldAt (bcnElements env mem) p es q).counts.ids ≤ q.counts.ids + es.length := by
  induction es generalizing p q with
  | nil => exact Nat.le_refl _
  | cons e es ih =>
    have hrest := ih (p + e.bytes.length) (parseBcnElem env mem p q)
    rw [parseBcnElem_counts] at hrest
    have hhere := @countBcnElem_ids env mem p q.counts
    rw [List.length_cons]
    exact hrest.trans (by omega)

theorem parse_sent (h : Holds mem p (encode (optElements o))) :
    ∃ s, WhileLoop.Ends (ElementScan.loop mem (bcnElements env mem))
      ⟨{ startObj with optSElemLen := (encode (optElements o)).length }, p,
        (encode (optElements o)).length, 0, false⟩ s ∧ s.obj.view = parsedView env p o := by
  have hmore : ∀ pre e post, optElements o = pre ++ e :: post →
      (bcnElements env mem).more (foldAt (bcnElements env mem) p pre
        { startObj with optSElemLen := (encode (optElements o)).length }) = true := by
    intro pre e post hsplit
    have hids := optIds_le env mem p pre
      { startObj with optSElemLen := (encode (optElements o)).length }
    have hcount := length_optElements o
    rw [hsplit, List.length_append, List.length_cons] at hcount
    have hzero : ({ startObj with optSElemLen := (encode (optElements o)).length } :
      MeasReqObj).counts.ids = 0 := rfl
    exact decide_eq_true (lt_of_le_of_lt hids (by omega))
  obtain ⟨reach, hends⟩ := ends_encoded h hmore 0
  exact ⟨_, hends, view_optElements h _⟩

def Parses (env : ParseEnv) (m : Mem UInt8) (a : ℕ) (o : SentOpt) (s : Scan MeasReqObj) : Prop :=
  ∃ fuel, rmParseBcnReqSElem env (write m a (rmGenBcnReqSElem o)) fuel (a + 7)
    ((rmGenBcnReqSElem o).length - 7) 0 startObj = some s

theorem parses_generated (env : ParseEnv) (m : Mem UInt8) (a : ℕ) (o : SentOpt) :
    ∃ s, (∀ t, Parses env m a o t ↔ t = s) ∧ s.obj.view = parsedView env (a + 7) o := by
  have hhead : ([bcnReqActive] ++ o.bssid).length = 7 := by
    rw [List.length_append, o.station]
    rfl
  have hholds : Holds (write m a (rmGenBcnReqSElem o)) (a + 7) (encode (optElements o)) := by
    have hall := holds_write m a (rmGenBcnReqSElem o)
    generalize write m a (rmGenBcnReqSElem o) = mem at hall ⊢
    rw [rmGenBcnReqSElem_eq] at hall
    have hright := hall.right
    rwa [hhead] at hright
  have hlen : ((rmGenBcnReqSElem o).length - 7 : ℤ) = (encode (optElements o)).length := by
    rw [rmGenBcnReqSElem_eq, List.length_append, hhead]
    omega
  obtain ⟨s, hends, hview⟩ := @parse_sent env _ o _ hholds
  rw [← hlen] at hends
  refine ⟨s, fun t => ⟨fun hrun => WhileLoop.Ends.unique hrun hends, ?_⟩, hview⟩
  rintro rfl
  exact hends

theorem round_trip_law (env : ParseEnv) (m : Mem UInt8) (a : ℕ) (o : SentOpt) :
    (∃ s, Parses env m a o s ∧ Recovers o s.obj.view) ↔ Carried env (a + 7) o := by
  obtain ⟨s, hparses, hview⟩ := parses_generated env m a o
  rw [← recovers_iff, ← hview]
  constructor
  · rintro ⟨t, hrun, hrecovers⟩
    rw [(hparses t).mp hrun] at hrecovers
    exact hrecovers
  · exact fun hrecovers => ⟨s, (hparses s).mpr rfl, hrecovers⟩

def longSsid : SentOpt where
  bssid := List.replicate 6 0xff
  ssid := List.replicate 32 65
  repDetail := 2
  reqId := []
  apChRpt := []
  station := rfl
  ssidRoom := by decide
  reqRoom := by decide
  slots := by decide
  whole _ h := absurd h List.not_mem_nil

theorem long_ssid_cut :
    ¬ ∃ s, Parses capable (frameAt []) 0 longSsid s ∧ Recovers longSsid s.obj.view := by
  obtain ⟨s, hparses, hview⟩ := parses_generated capable (frameAt []) 0 longSsid
  rintro ⟨t, hrun, hrecovers⟩
  rw [(hparses t).mp hrun, hview] at hrecovers
  have hlast := hrecovers.ssid ⟨31, by decide⟩ (by decide)
  exact absurd hlast (by decide)

end Law

end Rm
