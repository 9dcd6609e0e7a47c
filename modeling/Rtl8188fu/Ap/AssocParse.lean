import Rtl8188fu.Ie.Rsn
import Rtl8188fu.Recv.Frame

namespace Ap

open Ie
open Recv (SecurityType)

structure StaState where
  asoc : Bool
  authNull : Bool
  authState : Bool
  authSuccess : Bool
  assocState : Bool
  assocSuccess : Bool
  deriving DecidableEq, Repr

@[ext]
structure StaFlags where
  shortPreamble : Bool
  wme : Bool
  mfp : Bool
  ht : Bool
  wps : Bool
  maybeWps : Bool
  vht : Bool
  wds : Bool
  multiAp : Bool
  amsduDisable : Bool
  nonerp : Bool
  deriving DecidableEq, Repr

structure StaInfo where
  state : StaState
  flags : StaFlags
  capability : ℕ
  authalg : ℕ
  authSeq : ℕ
  chgTxt : List UInt8
  expireTo : ℕ
  bpairwiseKeyInstalled : Bool
  bssrateset : List UInt8
  dot8021xalg : ℕ
  wpaPsk : ℕ
  wpaGroupCipher : ℕ
  wpa2GroupCipher : ℕ
  wpaPairwiseCipher : ℕ
  wpa2PairwiseCipher : ℕ
  akmSuiteType : ℕ
  wpaIe : List UInt8
  qosOption : Bool
  qosInfo : UInt8
  maxSpLen : UInt8
  hasLegacyAc : Bool
  uapsdVo : ℕ
  uapsdVi : ℕ
  uapsdBe : ℕ
  uapsdBk : ℕ
  htOption : Bool
  htCap : List UInt8
  htOp : List UInt8
  opPresent : Bool
  deriving DecidableEq, Repr

def StaState.zero : StaState := ⟨false, false, false, false, false, false⟩

def StaFlags.zero : StaFlags :=
  ⟨false, false, false, false, false, false, false, false, false, false, false⟩

def htCapLen : ℕ := 26
def htOpIeLen : ℕ := 22
def wpaIeSize : ℕ := 32

def StaInfo.zero : StaInfo where
  state := .zero
  flags := .zero
  capability := 0
  authalg := 0
  authSeq := 0
  chgTxt := List.replicate 128 0
  expireTo := 0
  bpairwiseKeyInstalled := false
  bssrateset := []
  dot8021xalg := 0
  wpaPsk := 0
  wpaGroupCipher := 0
  wpa2GroupCipher := 0
  wpaPairwiseCipher := 0
  wpa2PairwiseCipher := 0
  akmSuiteType := 0
  wpaIe := List.replicate wpaIeSize 0
  qosOption := false
  qosInfo := 0
  maxSpLen := 0
  hasLegacyAc := false
  uapsdVo := 0
  uapsdVi := 0
  uapsdBe := 0
  uapsdBk := 0
  htOption := false
  htCap := List.replicate htCapLen 0
  htOp := List.replicate htOpIeLen 0
  opPresent := false

def statsSuccessful : ℕ := 0
def statsFailure : ℕ := 1
def statsCapFail : ℕ := 10
def statsNoSuppAlg : ℕ := 13
def statsOutOfAuthSeq : ℕ := 14
def statsChallengeFail : ℕ := 15
def statsUnableHandleSta : ℕ := 17
def statsRefusedTemporarily : ℕ := 30
def statusRobustMgmtFramePolicyViolation : ℕ := 31
def statusInvalidIe : ℕ := 40
def statusGroupCipherNotValid : ℕ := 41
def statusPairwiseCipherNotValid : ℕ := 42
def statusAkmpNotValid : ℕ := 43
def statusCipherRejectedPerPolicy : ℕ := 46
def statusInvalidPmkid : ℕ := 53

inductive AmsduMode where
  | nonSpp
  | spp
  | allDrop
  deriving DecidableEq, Repr

def wlanAuthOpen : ℕ := 0
def wlanAuthSae : ℕ := 3

structure ApCfg where
  dot11AuthAlgrthm : ℕ
  dot11PrivacyAlgrthm : SecurityType
  wpaPsk : ℕ
  wpaGroupCipher : ℕ
  wpa2GroupCipher : ℕ
  wpaPairwiseCipher : ℕ
  wpa2PairwiseCipher : ℕ
  akmp : ℕ
  mfpOpt : ℕ
  dot11wCipher : SecurityType
  authTypeSae : Bool
  amsduMode : AmsduMode
  wpsBeaconIe : Option UInt8
  ssid : List UInt8
  qosOption : Bool
  htOption : Bool
  authTo : ℕ
  assocTo : ℕ
  expireTo : ℕ

structure RxFrame where
  data : Mem
  len : ℕ

def wlanHdrA3Len : ℕ := 24

def RxFrame.reassoc (f : RxFrame) : Bool := f.data 0 &&& 0xfc == 0x20

def RxFrame.ieOffset (f : RxFrame) : ℕ := if f.reassoc then 10 else 4

def RxFrame.ies (f : RxFrame) : ℕ := wlanHdrA3Len + f.ieOffset

def RxFrame.iesLen (f : RxFrame) : ℕ := f.len - f.ies

structure AssocEnv where
  forceAsocFail : ℕ
  cachedPmkid : Bool
  p2pStatus : ℕ
  mboAssocDisallow : Bool
  elemsAllocated : Bool

def securityTypeBipToGmcs : SecurityType → ℕ
  | .bipCmac128 => cipherBipCmac128
  | .bipGmac128 => cipherBipGmac128
  | .bipGmac256 => cipherBipGmac256
  | .bipCmac256 => cipherBipCmac256
  | _ => 0

def rtwCheckAmsduDisable (mode : AmsduMode) (sppOpt : ℕ) : Bool :=
  match mode with
  | .nonSpp => sppOpt &&& 2 != 0
  | .spp => sppOpt &&& 1 == 0
  | .allDrop => true

def check (p : StaInfo × ℕ) (next : StaInfo → StaInfo × ℕ) : StaInfo × ℕ :=
  if p.2 = statsSuccessful then next p.1 else p

def wlanCapabilityShortPreamble : ℕ := 0x20

def rtwApParseStaCapability (sta : StaInfo) (capability : ℕ) : StaInfo :=
  { sta with
    capability := capability
    flags := { sta.flags with
      shortPreamble := capability &&& wlanCapabilityShortPreamble != 0 } }

def updateBrateTblForSoftAP (bssrateset : List UInt8) : List UInt8 :=
  bssrateset.map fun b => if b &&& 0x7f ∈ [2, 4, 11, 22] then b ||| 0x80 else b

def rtwApParseStaSupportedRates (sta : StaInfo) (f : RxFrame) : StaInfo × ℕ :=
  let rateSet := rtwIesGetSupportedRate f.data f.ies f.iesLen
  if rateSet = [] then (sta, statsFailure)
  else
    let bssrateset := updateBrateTblForSoftAP rateSet
    ({ sta with
      bssrateset := bssrateset
      flags := { sta.flags with
        nonerp := bssrateset.all fun b => (b &&& 0x7f).toNat ≤ 22 } }, statsSuccessful)

structure WpaPick where
  sta : StaInfo
  status : ℕ
  wpaIe : Option Elem
  gmcs : ℕ
  mfpOpt : ℕ
  sppOpt : ℕ

def clearSecurity (sta : StaInfo) : StaInfo :=
  { sta with
    dot8021xalg := 0
    wpaPsk := 0
    wpaGroupCipher := 0
    wpa2GroupCipher := 0
    wpaPairwiseCipher := 0
    wpa2PairwiseCipher := 0
    wpaIe := List.replicate wpaIeSize 0 }

def pickWpa2 (cfg : ApCfg) (m : Mem) (sta : StaInfo) (ie : Elem) : WpaPick :=
  match rtwParseWpa2Ie m (ie.pos - 2) (ie.len + 2) with
  | none => ⟨sta, statusInvalidIe, some ie, 0, mfpNo, 0⟩
  | some w =>
    let sta := { sta with
      dot8021xalg := 1
      wpaPsk := sta.wpaPsk ||| 2
      wpa2GroupCipher := w.groupCipher &&& cfg.wpa2GroupCipher
      wpa2PairwiseCipher := w.pairwiseCipher &&& cfg.wpa2PairwiseCipher
      akmSuiteType := w.akm }
    let status :=
      if w.akm &&& akmTypeSae ≠ 0 ∧ w.mfpOpt = mfpNo then statusRobustMgmtFramePolicyViolation
      else if cfg.akmp &&& w.akm = 0 then statusAkmpNotValid
      else if sta.wpa2GroupCipher = 0 then statusGroupCipherNotValid
      else if sta.wpa2PairwiseCipher = 0 then statusPairwiseCipherNotValid
      else statsSuccessful
    ⟨sta, status, some ie, w.gmcs, w.mfpOpt, w.sppOpt⟩

def pickWpa (cfg : ApCfg) (m : Mem) (sta : StaInfo) (ie : Elem) : WpaPick :=
  match rtwParseWpaIe m (ie.pos - 2) (ie.len + 2) with
  | none => ⟨sta, statusInvalidIe, some ie, 0, mfpNo, 0⟩
  | some (groupCipher, pairwiseCipher) =>
    let sta := { sta with
      dot8021xalg := 1
      wpaPsk := sta.wpaPsk ||| 1
      wpaGroupCipher := groupCipher &&& cfg.wpaGroupCipher
      wpaPairwiseCipher := pairwiseCipher &&& cfg.wpaPairwiseCipher }
    let status :=
      if sta.wpaGroupCipher = 0 then statusGroupCipherNotValid
      else if sta.wpaPairwiseCipher = 0 then statusPairwiseCipherNotValid
      else statsSuccessful
    ⟨sta, status, some ie, 0, mfpNo, 0⟩

def pick (cfg : ApCfg) (m : Mem) (sta : StaInfo) (elems : Elems) : WpaPick :=
  match if cfg.wpaPsk &&& 2 ≠ 0 then elems.rsnIe else none with
  | some ie => pickWpa2 cfg m sta ie
  | none =>
    match if cfg.wpaPsk &&& 1 ≠ 0 then elems.wpaIe else none with
    | some ie => pickWpa cfg m sta ie
    | none => ⟨sta, statsSuccessful, none, 0, mfpNo, 0⟩

def setAmsduDisable (cfg : ApCfg) (sppOpt : ℕ) (sta : StaInfo) : StaInfo :=
  if cfg.dot11PrivacyAlgrthm ≠ .noPrivacy ∧ rtwCheckAmsduDisable cfg.amsduMode sppOpt then
    { sta with flags := { sta.flags with amsduDisable := true } }
  else sta

def checkMfp (cfg : ApCfg) (gmcs mfpOpt : ℕ) (sta : StaInfo) : StaInfo × ℕ :=
  if (cfg.mfpOpt = mfpRequired ∧ mfpOpt < mfpOptional) ∨
      (mfpOpt = mfpRequired ∧ cfg.mfpOpt < mfpOptional) then
    (sta, statusRobustMgmtFramePolicyViolation)
  else
    let both := cfg.mfpOpt ≥ mfpOptional ∧ mfpOpt ≥ mfpOptional
    let sta := if both then { sta with flags := { sta.flags with mfp := true } } else sta
    if sta.flags.mfp ∧ both ∧ securityTypeBipToGmcs cfg.dot11wCipher ≠ gmcs then
      (sta, statusCipherRejectedPerPolicy)
    else (sta, statsSuccessful)

def checkPmkid (cfg : ApCfg) (env : AssocEnv) (sta : StaInfo) : StaInfo × ℕ :=
  if cfg.authTypeSae ∧ sta.akmSuiteType &&& akmTypeSae ≠ 0 ∧ sta.authalg = wlanAuthOpen ∧
      env.cachedPmkid = false then
    (sta, statusInvalidPmkid)
  else (sta, statsSuccessful)

def checkWps (cfg : ApCfg) (m : Mem) (elems : Elems) (wpaIe : Option Elem) (sta : StaInfo) :
    StaInfo × ℕ :=
  let sta := { sta with flags := { sta.flags with wps := false, maybeWps := false } }
  match wpaIe with
  | none =>
    let sta :=
      if elems.wpsIe.isSome then { sta with flags := { sta.flags with wps := true } }
      else { sta with flags := { sta.flags with maybeWps := true } }
    if cfg.wpaPsk > 0 ∧ cfg.wpsBeaconIe = some 0 then (sta, statsUnableHandleSta)
    else (sta, statsSuccessful)
  | some ie =>
    if cfg.wpaPsk = 0 then (sta, statusInvalidIe)
    else if elems.wpsIe.isSome then
      ({ sta with flags := { sta.flags with wps := true } }, statsSuccessful)
    else
      let copyLen := min wpaIeSize (ie.len + 2)
      ({ sta with wpaIe := bytes m (ie.pos - 2) copyLen ++ sta.wpaIe.drop copyLen },
        statsSuccessful)

def rtwApParseStaSecurityIe (cfg : ApCfg) (env : AssocEnv) (m : Mem) (sta : StaInfo)
    (elems : Elems) : StaInfo × ℕ :=
  let p := pick cfg m (clearSecurity sta) elems
  check (p.sta, p.status) fun sta =>
    check (checkMfp cfg p.gmcs p.mfpOpt (setAmsduDisable cfg p.sppOpt sta)) fun sta =>
      check (checkPmkid cfg env sta) fun sta => checkWps cfg m elems p.wpaIe sta

def wmmIe : List UInt8 := [0x00, 0x50, 0xf2, 0x02, 0x00, 0x01]

def wmmOf (cfg : ApCfg) (f : RxFrame) : Option UInt8 :=
  if cfg.qosOption then
    (rtwGetIeEx f.data f.ies f.iesLen eidVendorSpecific wmmIe).map fun p => f.data (p + 8)
  else none

def uapsdOf (qosInfo bit : UInt8) : ℕ :=
  if qosInfo &&& 0x0f != 0 && qosInfo &&& bit != 0 then 3 else 0

def rtwApParseStaWmmIe (cfg : ApCfg) (sta : StaInfo) (f : RxFrame) : StaInfo :=
  match wmmOf cfg f with
  | none =>
    { sta with
      flags := { sta.flags with wme := false }
      qosOption := false
      qosInfo := 0
      hasLegacyAc := true
      uapsdVo := 0
      uapsdVi := 0
      uapsdBe := 0
      uapsdBk := 0 }
  | some qosInfo =>
    { sta with
      flags := { sta.flags with wme := true }
      qosOption := true
      qosInfo := qosInfo
      maxSpLen := (qosInfo >>> 5) &&& 0x3
      hasLegacyAc := qosInfo &&& 0x0f != 0x0f
      uapsdVo := uapsdOf qosInfo 1
      uapsdVi := uapsdOf qosInfo 2
      uapsdBk := uapsdOf qosInfo 4
      uapsdBe := uapsdOf qosInfo 8 }

def htCapOf (cfg : ApCfg) (m : Mem) (elems : Elems) : Option (List UInt8) :=
  if cfg.htOption then
    elems.htCapabilities.bind fun e =>
      if e.len ≥ htCapLen then some (bytes m e.pos htCapLen) else none
  else none

def htOpOf (cfg : ApCfg) (m : Mem) (elems : Elems) : Option (List UInt8) :=
  (htCapOf cfg m elems).bind fun _ => elems.htOperation.bind fun e =>
    if e.len = htOpIeLen then some (bytes m e.pos htOpIeLen) else none

def rtwApParseStaHtIe (cfg : ApCfg) (m : Mem) (sta : StaInfo) (elems : Elems) : StaInfo :=
  let sta := { sta with flags := { sta.flags with ht := false } }
  if cfg.htOption = false then sta
  else
    let sta := { sta with htCap := List.replicate htCapLen 0 }
    match htCapOf cfg m elems with
    | none => sta
    | some htCap =>
      let sta := { sta with flags := { sta.flags with ht := true, wme := true }, htCap := htCap }
      match htOpOf cfg m elems with
      | none => sta
      | some htOp => { sta with htOp := htOp, opPresent := true }

def rtwApParseStaVhtIe (sta : StaInfo) : StaInfo :=
  { sta with flags := { sta.flags with vht := false } }

def rejectTkipHt (sta : StaInfo) : StaInfo :=
  if (sta.flags.ht ∨ sta.flags.vht) ∧ (sta.wpa2PairwiseCipher &&& cipherTkip ≠ 0 ∨
      sta.wpaPairwiseCipher &&& cipherTkip ≠ 0) then
    { sta with flags := { sta.flags with ht := false, vht := false } }
  else sta

def rtwApParseStaMultiApIe (sta : StaInfo) : StaInfo :=
  { sta with flags := { sta.flags with multiAp := false } }

def ssidMatches (cfg : ApCfg) (m : Mem) (elems : Elems) : Bool :=
  match elems.ssid with
  | none => false
  | some e => e.len != 0 && e.len == cfg.ssid.length && memcmp m e.pos cfg.ssid

def assocChecks (cfg : ApCfg) (env : AssocEnv) (f : RxFrame) (sta : StaInfo) : StaInfo × ℕ :=
  if env.forceAsocFail ≠ 0 then (sta, env.forceAsocFail)
  else match rtwIeee80211ParseElems f.data f.ies f.iesLen with
  | none => (sta, statsFailure)
  | some elems =>
    let sta := rtwApParseStaCapability sta (le16 f.data wlanHdrA3Len)
    if ssidMatches cfg f.data elems = false then (sta, statsFailure)
    else
      check (rtwApParseStaSupportedRates sta f) fun sta =>
        check (rtwApParseStaSecurityIe cfg env f.data sta elems) fun sta =>
          let sta := rtwApParseStaWmmIe cfg sta f
          let sta := rtwApParseStaVhtIe (rtwApParseStaHtIe cfg f.data sta elems)
          let sta := rejectTkipHt sta
          if env.p2pStatus > 0 then (sta, statsCapFail)
          else (rtwApParseStaMultiApIe sta, statsSuccessful)

end Ap
