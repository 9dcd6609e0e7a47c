import Rtl8188fu.Recv.MgmtProtect
import Rtl8188fu.Recv.PnCheck

namespace Xmit

open Recv (MacAddr SecurityType byteAt isMcast getEncryAlgo)

structure SecurityPriv extends Recv.SecurityPriv where
  dot11PrivacyKeyIndex : ℕ
  dot118021XGrptxmickey : ℕ → List UInt8
  dot11wBipTxpn : ℕ
  swEncrypt : Bool
  hwDecrypted : Bool

structure StaInfo extends Recv.StaInfo where
  dot11txpn : ℕ
  dot11tkiptxmickey : List UInt8
  asoc : Bool
  txseqTid : Fin 16 → ℕ

inductive EapType where
  | nonEapol
  | eapol14
  | eapol24
  | eapol34
  | eapol44
  deriving DecidableEq

inductive KeyType where
  | rightKey
  | wrongKey
  | noKey
  deriving DecidableEq

structure PktAttrib where
  subtype : ℕ
  etherType : UInt16
  dst : MacAddr
  src : MacAddr
  ta : MacAddr
  ra : MacAddr
  pktHdrlen : ℕ
  hdrlen : ℕ
  pktlen : ℕ
  lastTxcmdsz : ℕ
  nrFrags : ℕ
  encrypt : SecurityType
  bswenc : Bool
  keyIdx : ℕ
  ivLen : ℕ
  icvLen : ℕ
  iv : List UInt8
  icv : Vector UInt8 16
  qosEn : Bool
  priority : Fin 16
  mdata : Bool
  eosp : Bool
  amsdu : Bool
  keyType : KeyType
  uncstKey : List UInt8
  tkipTxMicKey : List UInt8

def tsc (pn i : ℕ) : UInt8 := UInt8.ofNat (pn / 256 ^ i)

def nextPn (limit pn : ℕ) : ℕ := if pn = limit then 0 else (pn + 1) % 2 ^ 64

def keyIdBits (keyidx : ℕ) : UInt8 := UInt8.ofNat (keyidx % 4 * 64)

def wepIv (pn keyidx : ℕ) : List UInt8 := [tsc pn 0, tsc pn 1, tsc pn 2, keyIdBits keyidx]

def tkipIv (pn keyidx : ℕ) : List UInt8 :=
  [tsc pn 1, (tsc pn 1 ||| 0x20) &&& 0x7f, tsc pn 0, 0x20 ||| keyIdBits keyidx, tsc pn 2, tsc pn 3,
    tsc pn 4, tsc pn 5]

def aesIv (pn keyidx : ℕ) : List UInt8 :=
  [tsc pn 0, tsc pn 1, 0, 0x20 ||| keyIdBits keyidx, tsc pn 2, tsc pn 3, tsc pn 4, tsc pn 5]

def keyLen : SecurityType → ℕ
  | .ccmp256 | .gcmp256 | .bipCmac256 | .bipGmac256 => 32
  | _ => 16

def memcpyKey (dst src : List UInt8) (n : ℕ) : List UInt8 := src.take n ++ dst.drop n

structure SecInfo where
  attrib : PktAttrib
  psta : StaInfo
  pass : Bool

def secKeyIdx (sec : SecurityPriv) (bmcast : Bool) : ℕ :=
  match sec.dot11AuthAlgrthm with
  | .dot11Open | .dot11Shared | .dot11Auto => sec.dot11PrivacyKeyIndex % 256
  | .dot118021X => if bmcast then sec.dot118021XGrpKeyid % 256 else 0
  | .dot11Wapi => 0

def secAlgo (sec : SecurityPriv) (psta : StaInfo) (etherType : UInt16) (bmcast : Bool) :
    SecurityType :=
  let encrypt := getEncryAlgo sec.toSecurityPriv psta.toStaInfo bmcast
  if (encrypt = .wep40 ∨ encrypt = .wep104) ∧ etherType = 0x888e then .noPrivacy else encrypt

def secIv (sec : SecurityPriv) (psta : StaInfo) (bmcast : Bool) (p : PktAttrib) : SecInfo :=
  let kid := if bmcast then p.keyIdx else 0
  match p.encrypt with
  | .wep40 | .wep104 =>
    let pn := nextPn 0xffffff psta.dot11txpn
    ⟨{ p with ivLen := 4, icvLen := 4, iv := wepIv pn p.keyIdx }, { psta with dot11txpn := pn }, true⟩
  | .tkip =>
    if !sec.busetkipkey then ⟨{ p with ivLen := 8, icvLen := 4 }, psta, false⟩
    else
      let pn := nextPn 0xffffffffffff psta.dot11txpn
      ⟨{ p with ivLen := 8, icvLen := 4, iv := tkipIv pn kid, tkipTxMicKey := psta.dot11tkiptxmickey },
        { psta with dot11txpn := pn }, true⟩
  | .aes =>
    let pn := nextPn 0xffffffffffff psta.dot11txpn
    ⟨{ p with ivLen := 8, icvLen := 8, iv := aesIv pn kid }, { psta with dot11txpn := pn }, true⟩
  | .gcmp | .gcmp256 | .ccmp256 =>
    let pn := nextPn 0xffffffffffff psta.dot11txpn
    ⟨{ p with ivLen := 8, icvLen := 16, iv := aesIv pn kid }, { psta with dot11txpn := pn }, true⟩
  | _ => ⟨{ p with ivLen := 0, icvLen := 0 }, psta, true⟩

def secEncrypts (sec : SecurityPriv) (bmcast conflict : Bool) (eapolType : EapType)
    (encrypt : SecurityType) : Bool :=
  encrypt ≠ .noPrivacy && (sec.swEncrypt || !sec.hwDecrypted || bmcast && conflict ||
    eapolType == .eapol44)

structure SecContext where
  mpState : Bool
  respondsNonenc : Bool
  bmcConflict : Bool
  eapolType : EapType

def updateAttribSecInfo (sec : SecurityPriv) (c : SecContext) (psta : StaInfo) (p : PktAttrib) :
    SecInfo :=
  let bmcast := isMcast p.ra
  let p := { p with
    uncstKey := memcpyKey p.uncstKey (List.replicate 16 0) 16
    tkipTxMicKey := memcpyKey p.tkipTxMicKey (List.replicate 16 0) 16 }
  let plain := psta.ieee8021xBlocked ||
    (c.eapolType == .eapol24 || c.eapolType == .eapol44) && c.respondsNonenc
  if plain && p.etherType ≠ 0x888e && !c.mpState then
    ⟨{ p with encrypt := .noPrivacy }, psta, false⟩
  else
    let p :=
      if plain then { p with encrypt := .noPrivacy }
      else { p with
        encrypt := secAlgo sec psta p.etherType bmcast, keyIdx := secKeyIdx sec bmcast }
    let r := secIv sec psta bmcast p
    if !r.pass then r
    else
      let p := r.attrib
      let p :=
        if p.encrypt = .noPrivacy then p
        else { p with
          uncstKey := memcpyKey p.uncstKey psta.dot118021xUncstKey (keyLen p.encrypt) }
      ⟨{ p with bswenc := secEncrypts sec bmcast c.bmcConflict c.eapolType p.encrypt }, r.psta, true⟩

theorem updateAttribSecInfo_pass {sec : SecurityPriv} {c : SecContext} {psta : StaInfo}
    {p : PktAttrib} (hpass : (updateAttribSecInfo sec c psta p).pass = true) :
    ∃ enc kid key micKey ukey,
      (enc = .noPrivacy ∨ enc = secAlgo sec psta p.etherType (isMcast p.ra)) ∧
      let r := secIv sec psta (isMcast p.ra)
        { p with encrypt := enc, keyIdx := kid, uncstKey := key, tkipTxMicKey := micKey }
      r.pass = true ∧ updateAttribSecInfo sec c psta p = ⟨{ r.attrib with
        uncstKey := ukey
        bswenc := secEncrypts sec (isMcast p.ra) c.bmcConflict c.eapolType r.attrib.encrypt },
        r.psta, true⟩ := by
  revert hpass
  unfold updateAttribSecInfo
  extract_lets bmcast p1 plain q r p2 p3
  split
  · simp
  · intro hpass
    have hq : ∃ enc kid, (enc = .noPrivacy ∨ enc = secAlgo sec psta p.etherType bmcast) ∧
        q = { p1 with encrypt := enc, keyIdx := kid } := by
      cases Decidable.em (plain = true) with
      | inl hplain => exact ⟨.noPrivacy, _, .inl rfl, if_pos hplain⟩
      | inr hplain => exact ⟨_, _, .inr rfl, if_neg hplain⟩
    obtain ⟨enc, kid, henc, hq⟩ := hq
    have hr : r.pass = true := by
      by_contra hr
      rw [if_pos (by simpa using hr)] at hpass
      exact hr hpass
    have hp3 : ∃ key, p3 = { p2 with uncstKey := key } := by
      cases Decidable.em (p2.encrypt = .noPrivacy) with
      | inl hplain => exact ⟨_, if_pos hplain⟩
      | inr hplain => exact ⟨_, if_neg hplain⟩
    obtain ⟨ukey, hp3⟩ := hp3
    refine ⟨enc, kid, p1.uncstKey, p1.tkipTxMicKey, ukey, henc, ?_⟩
    rw [if_neg (by simp [hr]), hp3]
    have hre : r = secIv sec psta bmcast { p1 with encrypt := enc, keyIdx := kid } := by rw [← hq]
    rw [show p2 = r.attrib from rfl, hre]
    exact ⟨hre ▸ hr, rfl⟩

theorem tsc_sum {pn : ℕ} (hpn : pn < 2 ^ 48) :
    (tsc pn 0).toNat + 2 ^ 8 * (tsc pn 1).toNat + 2 ^ 16 * (tsc pn 2).toNat +
      2 ^ 24 * (tsc pn 3).toNat + 2 ^ 32 * (tsc pn 4).toNat + 2 ^ 40 * (tsc pn 5).toNat = pn := by
  have hbyte (i : ℕ) : (tsc pn i).toNat = pn / 256 ^ i % 256 := UInt8.toNat_ofNat'
  rw [hbyte, hbyte, hbyte, hbyte, hbyte, hbyte]
  omega

def SecurityPriv.zero : SecurityPriv :=
  { Recv.SecurityPriv.zero with
    dot11PrivacyKeyIndex := 0
    dot118021XGrptxmickey := fun _ => List.replicate 16 0
    dot11wBipTxpn := 0
    swEncrypt := false
    hwDecrypted := true }

def StaInfo.rtwAllocStainfo (hwaddr : MacAddr) : StaInfo :=
  { Recv.rtwAllocStainfo hwaddr with
    dot11txpn := 0
    dot11tkiptxmickey := List.replicate 16 0
    asoc := false
    txseqTid := fun _ => 0 }

def PktAttrib.zero : PktAttrib where
  subtype := 0
  etherType := 0
  dst := Vector.replicate 6 0
  src := Vector.replicate 6 0
  ta := Vector.replicate 6 0
  ra := Vector.replicate 6 0
  pktHdrlen := 0
  hdrlen := 0
  pktlen := 0
  lastTxcmdsz := 0
  nrFrags := 0
  encrypt := .noPrivacy
  bswenc := false
  keyIdx := 0
  ivLen := 0
  icvLen := 0
  iv := []
  icv := Vector.replicate 16 0
  qosEn := false
  priority := 0
  mdata := false
  eosp := false
  amsdu := false
  keyType := .rightKey
  uncstKey := List.replicate 32 0
  tkipTxMicKey := List.replicate 32 0

end Xmit
