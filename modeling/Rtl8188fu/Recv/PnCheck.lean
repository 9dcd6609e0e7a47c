import Mathlib.Logic.Function.Basic
import Rtl8188fu.Recv.Adapter

namespace Recv

def pn48 (pn0 pn1 : ℕ) (iv : List UInt8) : ℕ :=
  pn0 + 2 ^ 8 * pn1 + 2 ^ 16 * byteAt iv 4 + 2 ^ 24 * byteAt iv 5 + 2 ^ 32 * byteAt iv 6 +
    2 ^ 40 * byteAt iv 7

def ivKeyId (iv : List UInt8) : Fin 4 :=
  ⟨byteAt iv 3 / 64, by have := byteAt_lt iv 3; omega⟩

def rtwIvToPn (iv : List UInt8) (encAlgo : SecurityType) : Option (ℕ × Fin 4) :=
  match encAlgo with
  | .tkip => some (pn48 (byteAt iv 2) (byteAt iv 0) iv, ivKeyId iv)
  | .aes | .gcmp | .ccmp256 | .gcmp256 => some (pn48 (byteAt iv 0) (byteAt iv 1) iv, ivKeyId iv)
  | _ => none

def validPnChk (new old : BitVec 64) : Bool :=
  old == 0#64 || (old - new) &&& 0x800000000000#64 != 0

def RecvFrame.iv (f : RecvFrame) : List UInt8 := f.rxData.drop f.attrib.hdrlen

def recvUcastPnDecache (rxcache : StaRxcache) (f : RecvFrame) : StaRxcache :=
  let tid := f.attrib.priority
  match rtwIvToPn f.iv f.attrib.encrypt, rtwIvToPn (rxcache.iv tid) f.attrib.encrypt with
  | some (pktPn, _), some (currPn, _) =>
    if validPnChk (BitVec.ofNat 64 pktPn) (BitVec.ofNat 64 currPn) then
      { rxcache with lastTid := tid, iv := Function.update rxcache.iv tid (f.iv.take 8) }
    else rxcache
  | _, _ => rxcache

def recvBcastPnDecache (isSta : Bool) (sec : SecurityPriv) (f : RecvFrame) : Option SecurityPriv :=
  match rtwIvToPn f.iv f.attrib.encrypt with
  | some (pktPn, keyId) =>
    if isSta then
      if validPnChk (BitVec.ofNat 64 pktPn) (sec.ivSeq keyId) then
        some { sec with ivSeq := Function.update sec.ivSeq keyId (BitVec.ofNat 64 pktPn) }
      else none
    else some sec
  | none => some sec

theorem pn48_lt {pn0 pn1 : ℕ} (h0 : pn0 < 256) (h1 : pn1 < 256) (iv : List UInt8) :
    pn48 pn0 pn1 iv < 2 ^ 48 := by
  have h4 := byteAt_lt iv 4
  have h5 := byteAt_lt iv 5
  have h6 := byteAt_lt iv 6
  have h7 := byteAt_lt iv 7
  unfold pn48
  omega

theorem rtwIvToPn_lt {iv : List UInt8} {encAlgo : SecurityType} {pn : ℕ} {keyId : Fin 4}
    (h : rtwIvToPn iv encAlgo = some (pn, keyId)) : pn < 2 ^ 48 := by
  have htkip := pn48_lt (byteAt_lt iv 2) (byteAt_lt iv 0) iv
  have hother := pn48_lt (byteAt_lt iv 0) (byteAt_lt iv 1) iv
  cases encAlgo <;> simp only [rtwIvToPn, reduceCtorEq, Option.some.injEq, Prod.mk.injEq] at h <;>
    omega

theorem bit47_iff (x : BitVec 64) :
    (x &&& 0x800000000000#64 != 0) = true ↔ x.toNat / 2 ^ 47 % 2 = 1 := by
  have htwo : (0x800000000000#64 : BitVec 64) = BitVec.twoPow 64 47 := by decide
  have hbit : x.getLsbD 47 = decide (x.toNat / 2 ^ 47 % 2 = 1) := Nat.testBit_eq_decide_div_mod_eq
  rw [htwo, BitVec.and_twoPow, hbit]
  have hne : BitVec.twoPow 64 47 ≠ 0#64 := by decide
  by_cases h : x.toNat / 2 ^ 47 % 2 = 1 <;> simp [hne]

theorem validPnChk_iff {pn old : ℕ} (hpn : pn < 2 ^ 48) (hold : old < 2 ^ 48) :
    validPnChk (BitVec.ofNat 64 pn) (BitVec.ofNat 64 old) = true ↔
      old = 0 ∨ (old < pn ∧ pn ≤ old + 2 ^ 47) ∨ pn + 2 ^ 47 ≤ old := by
  have hzero : (BitVec.ofNat 64 old == 0#64) = true ↔ old = 0 := by
    rw [beq_iff_eq, ← BitVec.toNat_inj, BitVec.toNat_ofNat, BitVec.toNat_zero]
    omega
  rw [validPnChk, Bool.or_eq_true, hzero, bit47_iff, BitVec.toNat_sub, BitVec.toNat_ofNat,
    BitVec.toNat_ofNat]
  omega

end Recv
