import Rtl8188fu.Recv.PnCheck

namespace Recv

def frameControl (p : List UInt8) : ℕ := le16 p 0

def getFrameType (p : List UInt8) : ℕ := frameControl p / 4 % 4

def getFrameSubType (p : List UInt8) : ℕ := frameControl p / 4 % 64 * 4

def wifiMgtType : ℕ := 0

def wifiCtrlType : ℕ := 1

def wifiDataType : ℕ := 2

def bitAt (n i : ℕ) : Bool := n / 2 ^ i % 2 = 1

def getSeqCtrl (p : List UInt8) : ℕ := le16 p 22

def RxPktAttrib.ofHeader (pattrib : RxPktAttrib) (p : List UInt8) : RxPktAttrib :=
  { pattrib with
    toFrDs := ⟨frameControl p / 256 % 4, Nat.mod_lt _ (by decide)⟩
    fragNum := ⟨getSeqCtrl p % 16, Nat.mod_lt _ (by decide)⟩
    seqNum := ⟨getSeqCtrl p / 16, by have := le16_lt p 22; unfold getSeqCtrl; omega⟩
    mfrag := bitAt (frameControl p) 10
    privacy := bitAt (frameControl p) 14
    order := bitAt (frameControl p) 15 }

def setIceIvLen : SecurityType → ℕ × ℕ
  | .wep40 | .wep104 => (4, 4)
  | .tkip => (8, 4)
  | .aes => (8, 8)
  | .gcmp | .gcmp256 => (8, 16)
  | .ccmp256 => (8, 16)
  | .sms4 => (18, 16)
  | _ => (0, 0)

def getEncryAlgo (sec : SecurityPriv) (psta : StaInfo) (bmcst : Bool) : SecurityType :=
  match sec.dot11AuthAlgrthm with
  | .dot118021X => if bmcst then sec.dot118021XGrpPrivacy else psta.dot118021XPrivacy
  | _ => sec.dot11PrivacyAlgrthm

def RecvFrame.addressed (f : RecvFrame) (dst src bssid : MacAddr) : RecvFrame :=
  { f with attrib := { f.attrib with
      ra := macAt f.rxData 4, ta := macAt f.rxData 10, dst := dst, src := src, bssid := bssid } }

def senderOf (a : Adapter) (f : RecvFrame) (unknown : RxRet) :
    Except RxRet (RecvFrame × StaInfo) :=
  match rtwGetStainfo a.stapriv f.attrib.ta with
  | none => .error unknown
  | some psta => .ok (f, psta)

def dataSenderOf (a : Adapter) (f : RecvFrame) (unknown : RxRet) :
    Except RxRet (RecvFrame × StaInfo) :=
  match senderOf a f unknown with
  | .error ret => .error ret
  | .ok p => if bitAt (getFrameSubType f.rxData) 6 then .error .handled else .ok p

def rtwStaRxDataValidateHdr (a : Adapter) (f : RecvFrame) : Except RxRet (RecvFrame × StaInfo) :=
  let whdr := f.rxData
  let notFromSelf (f : RecvFrame) : Except RxRet (RecvFrame × StaInfo) :=
    if !f.attrib.amsdu && a.macAddr == f.attrib.src then .error .fail else dataSenderOf a f .fail
  if f.attrib.toFrDs = 0 then
    let f := f.addressed (macAt whdr 4) (macAt whdr 10) (macAt whdr 16)
    if f.attrib.bssid ≠ f.attrib.src then .error .fail else senderOf a f .fail
  else if !(a.fwState.asoc || a.fwState.underLinking) then .error .fail
  else if f.attrib.toFrDs = 2 then
    notFromSelf (f.addressed (macAt whdr 4) (macAt whdr 16) (macAt whdr 10))
  else if f.attrib.toFrDs = 3 then
    notFromSelf (f.addressed (macAt whdr 16) (macAt whdr 24) (macAt whdr 10))
  else .error .handled

def rtwApRxDataValidateHdr (a : Adapter) (f : RecvFrame) : Except RxRet (RecvFrame × StaInfo) :=
  let whdr := f.rxData
  if !a.fwState.asoc then .error .fail
  else if f.attrib.toFrDs = 1 then
    if isMcast (macAt whdr 4) then .error .fail
    else dataSenderOf a (f.addressed (macAt whdr 16) (macAt whdr 10) (macAt whdr 4)) .handled
  else if f.attrib.toFrDs = 3 then
    let bssid := if isMcast (macAt whdr 4) then f.attrib.bssid else macAt whdr 4
    dataSenderOf a (f.addressed (macAt whdr 16) (macAt whdr 24) bssid) .handled
  else .error .handled

def sta2staDataFrame (a : Adapter) (f : RecvFrame) : Except RxRet (RecvFrame × StaInfo) :=
  let zero : MacAddr := Vector.replicate 6 0
  if !a.fwState.adhoc then .error .fail
  else if a.macAddr = f.attrib.src then .error .fail
  else if a.macAddr ≠ f.attrib.dst && !isMcast f.attrib.dst then .error .fail
  else if f.attrib.bssid = zero || a.bssid = zero || f.attrib.bssid ≠ a.bssid then .error .fail
  else senderOf a f .fail

def otherRxDataValidateHdr (a : Adapter) (f : RecvFrame) : Except RxRet (RecvFrame × StaInfo) :=
  let whdr := f.rxData
  if f.attrib.toFrDs = 0 then
    sta2staDataFrame a (f.addressed (macAt whdr 4) (macAt whdr 10) (macAt whdr 16))
  else if f.attrib.toFrDs = 1 then .error .handled
  else .error .fail

def a4Shift (pattrib : RxPktAttrib) : ℕ := if pattrib.toFrDs = 3 then 6 else 0

def RecvFrame.parseAmsdu (f : RecvFrame) : RecvFrame :=
  { f with attrib := { f.attrib with
    amsdu := f.attrib.qos && bitAt (le16 f.rxData (24 + a4Shift f.attrib)) 7 } }

def rxDataValidateHdr (a : Adapter) (f : RecvFrame) : Except RxRet (RecvFrame × StaInfo) :=
  let f := f.parseAmsdu
  if a.fwState.ap then rtwApRxDataValidateHdr a f
  else if a.fwState.station then rtwStaRxDataValidateHdr a f
  else otherRxDataValidateHdr a f

def parseQc (f : RecvFrame) (psta : StaInfo) : RecvFrame :=
  let pattrib := f.attrib
  let qc := le16 f.rxData (24 + a4Shift pattrib)
  { f with
    psta := some psta.macAddr
    preorderCtrl := none
    attrib := { pattrib with
      priority := if pattrib.qos then ⟨qc % 16, Nat.mod_lt _ (by decide)⟩ else 0
      hdrlen := (if pattrib.qos then 26 else 24) + a4Shift pattrib + (if pattrib.order then 4 else 0) } }

def seqCtrl (pattrib : RxPktAttrib) : ℕ := 16 * pattrib.seqNum + pattrib.fragNum

def recvDecache (c : StaRxcache) (pattrib : RxPktAttrib) : Option StaRxcache :=
  let tid := pattrib.priority
  if pattrib.qos then
    if isMcast pattrib.ra then
      if seqCtrl pattrib = c.bmcTidRxseq tid then none
      else some { c with bmcTidRxseq := Function.update c.bmcTidRxseq tid (seqCtrl pattrib) }
    else if seqCtrl pattrib = c.tidRxseq tid then none
    else some { c with tidRxseq := Function.update c.tidRxseq tid (seqCtrl pattrib) }
  else if isMcast pattrib.ra then
    if seqCtrl pattrib = c.nonqosBmcRxseq then none else some { c with nonqosBmcRxseq := seqCtrl pattrib }
  else if seqCtrl pattrib = c.nonqosRxseq then none
  else some { c with nonqosRxseq := seqCtrl pattrib }

def setEncrypt (sec : SecurityPriv) (psta : StaInfo) (f : RecvFrame) : RecvFrame :=
  let encrypt := getEncryAlgo sec psta (isMcast f.attrib.ra)
  { f with attrib :=
    if f.attrib.privacy then
      { f.attrib with
        encrypt := encrypt
        ivLen := (setIceIvLen encrypt).1
        icvLen := (setIceIvLen encrypt).2 }
    else { f.attrib with encrypt := .noPrivacy, ivLen := 0, icvLen := 0 } }

def etherTypeAt (p : List UInt8) (i : ℕ) : ℕ := 256 * byteAt p i + byteAt p (i + 1)

def eapolType : ℕ := 0x888e

def RecvFrame.etherType (f : RecvFrame) : ℕ :=
  etherTypeAt f.rxData (f.attrib.hdrlen + f.attrib.ivLen + 6)

def dropUnprotected (a : Adapter) (psta : StaInfo) (f : RecvFrame) : Bool :=
  if a.securitypriv.dot11PrivacyAlgrthm = .noPrivacy then false
  else if isMcast f.attrib.ra then !f.attrib.privacy
  else if a.securitypriv.dot11AuthAlgrthm = .dot118021X then
    !f.attrib.privacy && f.etherType != eapolType || !f.attrib.privacy && f.attrib.amsdu ||
      f.etherType == eapolType && a.fwState.ap && psta.dot118021XPrivacy == .noPrivacy &&
        a.macAddr != f.attrib.dst
  else !f.attrib.privacy

structure Validated where
  adapter : Adapter
  frame : RecvFrame
  ret : RxRet

def protect (a : Adapter) (psta : StaInfo) (f : RecvFrame) : Validated :=
  let f := setEncrypt a.securitypriv psta f
  ⟨a, f, if dropUnprotected a psta f then .fail else .success⟩

def checkPn (a : Adapter) (psta : StaInfo) (f : RecvFrame) : Validated :=
  if isMcast f.attrib.ra then
    match recvBcastPnDecache a.fwState.station a.securitypriv f with
    | none => ⟨a, f, .fail⟩
    | some sec => protect { a with securitypriv := sec } psta f
  else
    let f := { f with preorderCtrl := if f.attrib.qos then some f.attrib.priority else none }
    let psta := { psta with rxcache := recvUcastPnDecache psta.rxcache f }
    protect { a with stapriv := setStainfo a.stapriv psta } psta f

def decacheDataFrame (a : Adapter) (f : RecvFrame) : Except RxRet (RecvFrame × StaInfo) :=
  match rxDataValidateHdr a f with
  | .error ret => .error ret
  | .ok (f, psta) =>
    if psta.amsduDisable && f.attrib.amsdu then .error .fail
    else
      let f := parseQc f psta
      match recvDecache psta.rxcache f.attrib with
      | none => .error .fail
      | some rxcache => .ok (f, { psta with rxcache := rxcache })

def validateRecvDataFrame (a : Adapter) (f : RecvFrame) : Validated :=
  match decacheDataFrame a f with
  | .error ret => ⟨a, f, ret⟩
  | .ok (f, psta) => checkPn { a with stapriv := setStainfo a.stapriv psta } psta f

theorem senderOf_ok {a : Adapter} {f g : RecvFrame} {psta : StaInfo} {unknown : RxRet}
    (h : senderOf a f unknown = .ok (g, psta)) :
    g = f ∧ rtwGetStainfo a.stapriv f.attrib.ta = some psta := by
  unfold senderOf at h
  split at h
  · cases h
  · rename_i hget
    cases h
    exact ⟨rfl, hget⟩

theorem dataSenderOf_ok {a : Adapter} {f g : RecvFrame} {psta : StaInfo} {unknown : RxRet}
    (h : dataSenderOf a f unknown = .ok (g, psta)) :
    g = f ∧ rtwGetStainfo a.stapriv f.attrib.ta = some psta := by
  unfold dataSenderOf at h
  split at h
  · cases h
  · rename_i hsender
    split at h
    · cases h
    · cases h
      exact senderOf_ok hsender

theorem senderOf_error {a : Adapter} {f : RecvFrame} {unknown ret : RxRet}
    (hunknown : unknown ≠ .success) (h : senderOf a f unknown = .error ret) : ret ≠ .success := by
  unfold senderOf at h
  split at h
  · cases h
    exact hunknown
  · cases h

theorem dataSenderOf_error {a : Adapter} {f : RecvFrame} {unknown ret : RxRet}
    (hunknown : unknown ≠ .success) (h : dataSenderOf a f unknown = .error ret) :
    ret ≠ .success := by
  unfold dataSenderOf at h
  split at h
  · rename_i hsender
    cases h
    exact senderOf_error hunknown hsender
  · split at h
    · cases h
      decide
    · cases h

structure FrameBody where
  slot : ℕ
  keytrack : ℤ
  data : List UInt8
  spare : List UInt8
  mfrag : Bool
  privacy : Bool

def RecvFrame.body (f : RecvFrame) : FrameBody :=
  ⟨f.slot, f.keytrack, f.data, f.spare, f.attrib.mfrag, f.attrib.privacy⟩

theorem rtwStaRxDataValidateHdr_ok {a : Adapter} {f g : RecvFrame} {psta : StaInfo}
    (h : rtwStaRxDataValidateHdr a f = .ok (g, psta)) :
    g.body = f.body ∧ rtwGetStainfo a.stapriv g.attrib.ta = some psta := by
  unfold rtwStaRxDataValidateHdr at h
  dsimp only at h
  split at h
  · split at h
    · cases h
    · obtain ⟨rfl, hget⟩ := senderOf_ok h
      exact ⟨rfl, hget⟩
  split at h
  · cases h
  split at h
  · split at h
    · cases h
    · obtain ⟨rfl, hget⟩ := dataSenderOf_ok h
      exact ⟨rfl, hget⟩
  split at h
  · split at h
    · cases h
    · obtain ⟨rfl, hget⟩ := dataSenderOf_ok h
      exact ⟨rfl, hget⟩
  · cases h

theorem rtwApRxDataValidateHdr_ok {a : Adapter} {f g : RecvFrame} {psta : StaInfo}
    (h : rtwApRxDataValidateHdr a f = .ok (g, psta)) :
    g.body = f.body ∧ rtwGetStainfo a.stapriv g.attrib.ta = some psta := by
  unfold rtwApRxDataValidateHdr at h
  dsimp only at h
  split at h
  · cases h
  split at h
  · split at h
    · cases h
    · obtain ⟨rfl, hget⟩ := dataSenderOf_ok h
      exact ⟨rfl, hget⟩
  split at h
  · obtain ⟨rfl, hget⟩ := dataSenderOf_ok h
    exact ⟨rfl, hget⟩
  · cases h

theorem otherRxDataValidateHdr_ok {a : Adapter} {f g : RecvFrame} {psta : StaInfo}
    (h : otherRxDataValidateHdr a f = .ok (g, psta)) :
    g.body = f.body ∧ rtwGetStainfo a.stapriv g.attrib.ta = some psta := by
  unfold otherRxDataValidateHdr at h
  dsimp only at h
  split at h
  · unfold sta2staDataFrame at h
    dsimp only at h
    split at h
    · cases h
    split at h
    · cases h
    split at h
    · cases h
    split at h
    · cases h
    · obtain ⟨rfl, hget⟩ := senderOf_ok h
      exact ⟨rfl, hget⟩
  · split at h <;> cases h

theorem rxDataValidateHdr_ok {a : Adapter} {f g : RecvFrame} {psta : StaInfo}
    (h : rxDataValidateHdr a f = .ok (g, psta)) :
    g.body = f.body ∧ rtwGetStainfo a.stapriv g.attrib.ta = some psta := by
  change g.body = f.parseAmsdu.body ∧ _
  unfold rxDataValidateHdr at h
  dsimp only at h
  split at h
  · exact rtwApRxDataValidateHdr_ok h
  · split at h
    · exact rtwStaRxDataValidateHdr_ok h
    · exact otherRxDataValidateHdr_ok h

theorem rxDataValidateHdr_error {a : Adapter} {f : RecvFrame} {ret : RxRet}
    (h : rxDataValidateHdr a f = .error ret) : ret ≠ .success := by
  have hfail {g : RecvFrame} (h : dataSenderOf a g .fail = .error ret) : ret ≠ .success :=
    dataSenderOf_error (by decide) h
  have hhandled {g : RecvFrame} (h : dataSenderOf a g .handled = .error ret) : ret ≠ .success :=
    dataSenderOf_error (by decide) h
  have hsender {g : RecvFrame} (h : senderOf a g .fail = .error ret) : ret ≠ .success :=
    senderOf_error (by decide) h
  unfold rxDataValidateHdr rtwApRxDataValidateHdr rtwStaRxDataValidateHdr otherRxDataValidateHdr
    sta2staDataFrame at h
  dsimp only at h
  grind

theorem decacheDataFrame_error {a : Adapter} {f : RecvFrame} {ret : RxRet}
    (h : decacheDataFrame a f = .error ret) : ret ≠ .success := by
  unfold decacheDataFrame at h
  split at h
  · rename_i hhdr
    cases h
    exact rxDataValidateHdr_error hhdr
  · split at h
    · cases h
      decide
    · dsimp only at h
      split at h
      · cases h
        decide
      · cases h

theorem decacheDataFrame_ok {a : Adapter} {f g : RecvFrame} {psta : StaInfo}
    (h : decacheDataFrame a f = .ok (g, psta)) :
    g.body = f.body ∧ ∃ old ∈ a.stapriv, ∃ rxcache, psta = { old with rxcache := rxcache } := by
  unfold decacheDataFrame at h
  split at h
  · cases h
  · rename_i hhdr
    obtain ⟨hbody, hget⟩ := rxDataValidateHdr_ok hhdr
    split at h
    · cases h
    · dsimp only at h
      split at h
      · cases h
      · cases h
        exact ⟨hbody, _, mem_of_get hget, _, rfl⟩

theorem protect_body (a : Adapter) (psta : StaInfo) (f : RecvFrame) :
    (protect a psta f).frame.body = f.body := by
  unfold protect setEncrypt
  dsimp only
  split <;> rfl

theorem checkPn_body (a : Adapter) (psta : StaInfo) (f : RecvFrame) :
    (checkPn a psta f).frame.body = f.body := by
  unfold checkPn
  split
  · split
    · rfl
    · exact protect_body ..
  · exact protect_body ..

theorem validateRecvDataFrame_body (a : Adapter) (f : RecvFrame) :
    (validateRecvDataFrame a f).frame.body = f.body := by
  unfold validateRecvDataFrame
  split
  · rfl
  · rename_i hok
    exact (checkPn_body ..).trans (decacheDataFrame_ok hok).1

end Recv
