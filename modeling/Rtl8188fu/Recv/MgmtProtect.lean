import Rtl8188fu.Recv.Decryptor

namespace Recv

open BoundedMemory

def wifiAction : ℕ := 0xD0

def wifiDeauth : ℕ := 0xC0

def wifiDisassoc : ℕ := 0xA0

def categoryIsGroupPrivacy (category : ℕ) : Bool := category == 13 || category == 14

def categoryIsNonRobust (category : ℕ) : Bool :=
  category == 4 || category == 7 || category == 11 || category == 15 || category == 21 ||
    category == 0x7f

def categoryIsRobust (category : ℕ) : Bool := !categoryIsNonRobust category

def actionCategory (p : List UInt8) : ℕ := byteAt p 24

def groupProtected (subtype category : ℕ) : Bool :=
  subtype == wifiAction && categoryIsRobust category || subtype == wifiDeauth ||
    subtype == wifiDisassoc

def unicastProtected (psta : StaInfo) (subtype category : ℕ) : Bool :=
  subtype == wifiDeauth || subtype == wifiDisassoc ||
    subtype == wifiAction && categoryIsRobust category && psta.bpairwiseKeyInstalled

def bipMicLen (gmcs : SecurityType) : ℕ := if gmcs = .bipCmac128 then 8 else 16

def bipMmeOffset (gmcs : SecurityType) : ℕ := if bipMicLen gmcs = 8 then 18 else 26

def bipAad (gmcs : SecurityType) (whdrPos : List UInt8) : List UInt8 :=
  [whdrPos.getD 0 0, whdrPos.getD 1 0 &&& 0xc7] ++ (whdrPos.drop 4).take 18 ++
    (whdrPos.drop 24).take (whdrPos.length - 24 - bipMicLen gmcs) ++
    List.replicate (bipMicLen gmcs) 0

def mmeIpn (mme : List UInt8) : ℕ :=
  byteAt mme 4 + 2 ^ 8 * byteAt mme 5 + 2 ^ 16 * byteAt mme 6 + 2 ^ 24 * byteAt mme 7 +
    2 ^ 32 * byteAt mme 8 + 2 ^ 40 * byteAt mme 9

structure BipVerified where
  ret : RxRet
  ipn : ℕ

variable (crypto : Crypto)

def rtwBipVerify (gmcs : SecurityType) (pktLen : ℕ) (whdrPos key : List UInt8) (keyid ipn : ℕ) :
    BipVerified :=
  let flen := whdrPos.length
  let micLen := bipMicLen gmcs
  if flen < 24 ∨ flen - 24 < micLen then ⟨.handled, ipn⟩
  else
    let mme := whdrPos.drop (flen - bipMmeOffset gmcs)
    if byteAt mme 0 ≠ 76 then ⟨.handled, ipn⟩
    else if le16 mme 2 ≠ keyid then ⟨.fail, ipn⟩
    else if mmeIpn mme ≤ ipn then ⟨.fail, ipn⟩
    else
      match crypto.calculateBipMic gmcs whdrPos pktLen key (bipAad gmcs whdrPos) with
      | none => ⟨.fail, ipn⟩
      | some mic =>
        if mic.take micLen = whdrPos.drop (flen - micLen) then ⟨.success, mmeIpn mme⟩
        else ⟨.fail, ipn⟩

def SecurityPriv.bipVerify (sec : SecurityPriv) (f : RecvFrame) : BipVerified :=
  rtwBipVerify crypto sec.dot11wCipher f.attrib.pktLen f.data
    (sec.dot11wBipKey sec.dot11wBipKeyid) sec.dot11wBipKeyid sec.dot11wBipRxpn

structure MgmtChecked where
  adapter : Adapter
  frame : RecvFrame
  pass : Bool
  freed : Bool

def mgmtPrepared (psta : StaInfo) (f : RecvFrame) : RecvFrame :=
  let encrypt := psta.dot118021XPrivacy
  { f with attrib := { f.attrib with
      bdecrypted := false
      encrypt := encrypt
      hdrlen := 24
      ivLen := (setIceIvLen encrypt).1
      icvLen := (setIceIvLen encrypt).2
      ra := macAt f.rxData 4
      ta := macAt f.rxData 10 } }

def mgmtDataLen (f : RecvFrame) : ℕ := f.attrib.pktLen - f.pastIv - f.attrib.icvLen

def mgmtIvRemoved (f : RecvFrame) : RecvFrame :=
  let moved := f.writeAt f.attrib.hdrlen ((f.rxData.drop f.pastIv).take (mgmtDataLen f))
  { moved with attrib := { f.attrib with
      pktLen := f.attrib.pktLen - f.attrib.ivLen - f.attrib.icvLen } }

def decryptMgmt (a : Adapter) (psta : StaInfo) (f : RecvFrame) : MgmtChecked :=
  let f := mgmtPrepared psta f
  if f.attrib.pktLen < f.pastIv + f.attrib.icvLen then ⟨a, f, false, false⟩
  else
    match decryptor crypto a f with
    | none => ⟨a, f, false, true⟩
    | some g => ⟨a, mgmtIvRemoved g, true, false⟩

def bipVerifyMgmt (a : Adapter) (f : RecvFrame) : MgmtChecked :=
  let r := a.securitypriv.bipVerify crypto f
  ⟨{ a with securitypriv := { a.securitypriv with dot11wBipRxpn := r.ipn } }, f,
    r.ret == .success, false⟩

def validateMgmtProtect (a : Adapter) (psta : Option StaInfo) (f : RecvFrame) : MgmtChecked :=
  if !a.securitypriv.binstallBipKey then ⟨a, f, true, false⟩
  else
    let subtype := getFrameSubType f.rxData
    let category := actionCategory f.rxData
    match psta.filter StaInfo.mfp with
    | none => ⟨a, f, !f.attrib.privacy, false⟩
    | some psta =>
      if f.attrib.privacy then decryptMgmt crypto a psta f
      else if isMcast (macAt f.rxData 4) then
        if subtype = wifiAction ∧ categoryIsGroupPrivacy category then ⟨a, f, false, false⟩
        else if groupProtected subtype category then bipVerifyMgmt crypto a f
        else ⟨a, f, true, false⟩
      else if unicastProtected psta subtype category then ⟨a, f, false, false⟩
      else ⟨a, f, true, false⟩

theorem rtwBipVerify_cases (gmcs : SecurityType) (pktLen : ℕ) (whdrPos key : List UInt8)
    (keyid ipn : ℕ) :
    let r := rtwBipVerify crypto gmcs pktLen whdrPos key keyid ipn
    (r.ret ≠ .success ∧ r.ipn = ipn) ∨ (r.ret = .success ∧ ipn < r.ipn) := by
  simp only [rtwBipVerify]
  by_cases hshort : whdrPos.length < 24 ∨ whdrPos.length - 24 < bipMicLen gmcs
  · simp [hshort]
  rw [if_neg hshort]
  split
  · simp
  split
  · simp
  split
  · simp
  rename_i hipn
  split
  · simp
  split
  · exact Or.inr ⟨rfl, Nat.lt_of_not_le hipn⟩
  · simp

end Recv
