import Rtl8188fu.Lib.BoundedMemory
import Rtl8188fu.Recv.DataFrame

namespace Recv

open BoundedMemory

structure Crypto where
  arcfour : (key iv payload : List UInt8) → List UInt8
  tkip : (key : List UInt8) → (ta : MacAddr) → (iv payload : List UInt8) → Option (List UInt8)
  ccmp : (key : List UInt8) → (keyLen hdrlen : ℕ) → (pframe : List UInt8) → Option (List UInt8)
  gcmp : (key : List UInt8) → (keyLen hdrlen : ℕ) → (pframe : List UInt8) → Option (List UInt8)
  seccalctkipmic : (key pframe payload : List UInt8) → (priority : Fin 16) → List UInt8
  calculateBipMic : SecurityType → (whdrPos : List UInt8) → (pktLen : ℕ) →
    (key aad : List UInt8) → Option (List UInt8)

def Crypto.rejecting : Crypto where
  arcfour _ _ payload := payload
  tkip _ _ _ _ := none
  ccmp _ _ _ _ := none
  gcmp _ _ _ _ := none
  seccalctkipmic _ _ _ _ := []
  calculateBipMic _ _ _ _ _ := none

namespace RecvFrame

def pastIv (f : RecvFrame) : ℕ := f.attrib.hdrlen + f.attrib.ivLen

def writeAt (f : RecvFrame) (first : ℕ) (bs : List UInt8) : RecvFrame :=
  { f with data := splice f.data first bs }

end RecvFrame

variable (crypto : Crypto)

def rtwWepDecrypt (a : Adapter) (f : RecvFrame) : RecvFrame :=
  f.writeAt f.pastIv
    (crypto.arcfour (a.securitypriv.dot11DefKey f.attrib.keyIndex) (f.iv.take 3)
      (f.data.drop f.pastIv))

def rtwTkipDecrypt (a : Adapter) (f : RecvFrame) : Option RecvFrame :=
  match rtwGetStainfo a.stapriv f.attrib.ta with
  | none => none
  | some stainfo =>
    if isMcast f.attrib.ra && !a.securitypriv.binstallGrpkey then none
    else
      let prwskey := if isMcast f.attrib.ra then a.securitypriv.dot118021XGrpKey f.attrib.keyIndex
        else stainfo.dot118021xUncstKey
      (crypto.tkip prwskey f.attrib.ta (f.iv.take 8) (f.data.drop f.pastIv)).map
        (f.writeAt f.pastIv)

def prwskey (a : Adapter) (f : RecvFrame) : Option (List UInt8) :=
  match rtwGetStainfo a.stapriv f.attrib.ta with
  | none => none
  | some stainfo =>
    if isMcast f.attrib.ra then
      if !a.securitypriv.binstallGrpkey then none
      else if a.securitypriv.dot118021XGrpKeyid ≠ f.attrib.keyIndex then none
      else some (a.securitypriv.dot118021XGrpKey f.attrib.keyIndex)
    else some stainfo.dot118021xUncstKey

def rtwAesDecrypt (a : Adapter) (f : RecvFrame) : Option RecvFrame :=
  match prwskey a f with
  | none => none
  | some key =>
    (crypto.ccmp key (if f.attrib.encrypt = .ccmp256 then 32 else 16) f.attrib.hdrlen f.data).map
      (f.writeAt (f.attrib.hdrlen + 8))

def rtwGcmpDecrypt (a : Adapter) (f : RecvFrame) : Option RecvFrame :=
  match prwskey a f with
  | none => none
  | some key =>
    (crypto.gcmp key (if f.attrib.encrypt = .gcmp256 then 32 else 16) f.attrib.hdrlen f.data).map
      (f.writeAt (f.attrib.hdrlen + 8))

def swDecrypt (a : Adapter) (f : RecvFrame) : Option RecvFrame :=
  match f.attrib.encrypt with
  | .wep40 | .wep104 => some (rtwWepDecrypt crypto a f)
  | .tkip => rtwTkipDecrypt crypto a f
  | .aes | .ccmp256 => rtwAesDecrypt crypto a f
  | .gcmp | .gcmp256 => rtwGcmpDecrypt crypto a f
  | _ => some f

theorem map_writeAt {f g : RecvFrame} {first : ℕ} {o : Option (List UInt8)}
    (h : o.map (f.writeAt first) = some g) : ∃ bs, g = { f with data := bs } := by
  obtain ⟨bs, -, rfl⟩ := Option.map_eq_some_iff.mp h
  exact ⟨_, rfl⟩

theorem swDecrypt_data {a : Adapter} {f g : RecvFrame} (h : swDecrypt crypto a f = some g) :
    ∃ bs, g = { f with data := bs } := by
  unfold swDecrypt rtwTkipDecrypt rtwAesDecrypt rtwGcmpDecrypt at h
  split at h
  · exact ⟨_, (Option.some.inj h).symm⟩
  · exact ⟨_, (Option.some.inj h).symm⟩
  · split at h
    · cases h
    · split at h
      · cases h
      · exact map_writeAt h
  · split at h
    · cases h
    · exact map_writeAt h
  · split at h
    · cases h
    · exact map_writeAt h
  · split at h
    · cases h
    · exact map_writeAt h
  · split at h
    · cases h
    · exact map_writeAt h
  · exact ⟨f.data, (Option.some.inj h).symm⟩

def decryptor (a : Adapter) (f : RecvFrame) : Option RecvFrame :=
  let f :=
    if f.attrib.encrypt = .noPrivacy then f
    else { f with attrib := { f.attrib with keyIndex := ivKeyId f.iv } }
  (if f.attrib.encrypt ≠ .noPrivacy && !f.attrib.bdecrypted then swDecrypt crypto a f
    else some f).map fun f => { f with attrib := { f.attrib with bdecrypted := true } }

theorem decryptor_noPrivacy {a : Adapter} {f g : RecvFrame} (h : decryptor crypto a f = some g)
    (hnone : f.attrib.encrypt = .noPrivacy) :
    g = { f with attrib := { f.attrib with bdecrypted := true } } := by
  simpa [decryptor, hnone, eq_comm] using h

theorem decryptor_data {a : Adapter} {f g : RecvFrame} (h : decryptor crypto a f = some g) :
    ∃ bs k, g = { f with
      data := bs, attrib := { f.attrib with keyIndex := k, bdecrypted := true } } := by
  by_cases hnone : f.attrib.encrypt = .noPrivacy
  · exact ⟨f.data, f.attrib.keyIndex, decryptor_noPrivacy crypto h hnone⟩
  unfold decryptor at h
  obtain ⟨d, hd, rfl⟩ := Option.map_eq_some_iff.mp h
  rw [if_neg hnone] at hd
  split at hd
  · obtain ⟨bs, rfl⟩ := swDecrypt_data crypto hd
    exact ⟨bs, _, rfl⟩
  · cases hd
    exact ⟨f.data, _, rfl⟩

def recvframeChkmic (a : Adapter) (f : RecvFrame) : Option RecvFrame :=
  let pattrib := f.attrib
  if pattrib.encrypt ≠ .tkip then some f
  else
    match rtwGetStainfo a.stapriv pattrib.ta with
    | none => some (f.recvframePullTail 8)
    | some stainfo =>
      if isMcast pattrib.ra && !a.securitypriv.binstallGrpkey then none
      else if f.len ≤ pattrib.hdrlen then none
      else if f.len < f.pastIv + pattrib.icvLen + 8 then none
      else
        let datalen := f.len - f.pastIv - pattrib.icvLen - 8
        let mickey := if isMcast pattrib.ra then
            a.securitypriv.dot118021XGrprxmickey pattrib.keyIndex
          else stainfo.dot11tkiprxmickey
        let payload := f.data.drop f.pastIv
        if crypto.seccalctkipmic mickey f.data (payload.take datalen) pattrib.priority =
            (payload.drop datalen).take 8 then
          some (f.recvframePullTail 8)
        else none

end Recv
