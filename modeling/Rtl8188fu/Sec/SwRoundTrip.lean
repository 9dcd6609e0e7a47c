import Rtl8188fu.Sec.SwFragments
import Rtl8188fu.Recv.Decryptor

namespace Sec

open Recv (MacAddr SecurityType RecvFrame Adapter Crypto StaInfo isMcast rtwGetStainfo setIceIvLen
  swDecrypt rtwWepDecrypt rtwTkipDecrypt)
open Xmit (PktAttrib SwCipher XmitFrame Fragment swencryptLoop hwHdrOffset swKey)
open ByteMemory (Mem Holds read)
open BoundedMemory (splice)

def IcvMatches (decrypted : List UInt8) : Prop :=
  decrypted.drop (decrypted.length - 4) = icvBytes (decrypted.take (decrypted.length - 4))

instance (decrypted : List UInt8) : Decidable (IcvMatches decrypted) :=
  inferInstanceAs (Decidable (_ = _))

def swCrypto (other : Crypto) : Crypto :=
  { other with
    arcfour := fun key iv payload => decryptFragment (wepkey key iv) payload
    tkip := fun key ta iv payload =>
      let decrypted := decryptFragment (tkipRc4key key ta iv) payload
      if (iv ++ decrypted).drop (iv.length + decrypted.length - 4) =
          icvBytes (decrypted.take (decrypted.length - 4)) then
        some decrypted
      else none }

def rxKey (a : Adapter) (f : RecvFrame) : Option (List UInt8) :=
  if f.attrib.encrypt = .tkip then
    match rtwGetStainfo a.stapriv f.attrib.ta with
    | none => none
    | some stainfo =>
      if isMcast f.attrib.ra then
        if a.securitypriv.binstallGrpkey then
          some ((a.securitypriv.dot118021XGrpKey f.attrib.keyIndex).take 16)
        else none
      else some (stainfo.dot118021xUncstKey.take 16)
  else some (a.securitypriv.dot11DefKey f.attrib.keyIndex)

def body (f : RecvFrame) : List UInt8 := f.data.drop f.pastIv

def decrypted (key : List UInt8) (f : RecvFrame) : List UInt8 :=
  decryptFragment (rc4Key f.attrib.encrypt key f.attrib.ta f.iv) (body f)

variable (crypto : Crypto) {a : Adapter} {f : RecvFrame} {key : List UInt8}

structure Carried (e : SecurityType) (key : List UInt8) (a : Adapter) (f : RecvFrame) : Prop where
  encrypt : f.attrib.encrypt = e
  key : rxKey a f = some key
  icv : f.pastIv + 4 ≤ f.len

theorem length_decrypted : (decrypted key f).length = f.len - f.pastIv := by
  rw [decrypted, length_decryptFragment, body, List.length_drop, RecvFrame.len]

theorem tkipRc4key_take (key : List UInt8) (ta : MacAddr) (iv : List UInt8) :
    tkipRc4key (key.take 16) ta iv = tkipRc4key key ta iv := by
  simp [tkipRc4key, List.take_take]

theorem rtwWepDecrypt_eq (he : f.attrib.encrypt ≠ .tkip) (hkey : rxKey a f = some key) :
    rtwWepDecrypt (swCrypto crypto) a f = f.writeAt f.pastIv (decrypted key f) := by
  rw [rxKey, if_neg he, Option.some.injEq] at hkey
  subst hkey
  simp [rtwWepDecrypt, swCrypto, decrypted, rc4Key, he, wepkey, body, List.take_take]

theorem rtwTkipDecrypt_eq (h : Carried .tkip key a f) :
    rtwTkipDecrypt (swCrypto crypto) a f =
      if IcvMatches (decrypted key f) then some (f.writeAt f.pastIv (decrypted key f)) else none := by
  have hlen := @length_decrypted f key
  have hicv := h.icv
  have hstep : ∀ prwskey : List UInt8, prwskey.take 16 = key →
      ((swCrypto crypto).tkip prwskey f.attrib.ta (f.iv.take 8) (f.data.drop f.pastIv)).map
        (f.writeAt f.pastIv) =
      if IcvMatches (decrypted key f) then some (f.writeAt f.pastIv (decrypted key f)) else none := by
    intro prwskey hprwskey
    have hdec : decryptFragment (tkipRc4key prwskey f.attrib.ta (f.iv.take 8)) (f.data.drop f.pastIv) =
        decrypted key f := by
      rw [← tkipRc4key_take, hprwskey, decrypted, rc4Key, if_pos h.encrypt, body]
    have htail : (f.iv.take 8 ++ decrypted key f).drop
        ((f.iv.take 8).length + (decrypted key f).length - 4) =
        (decrypted key f).drop ((decrypted key f).length - 4) := by
      rw [Nat.add_sub_assoc (by omega), List.drop_length_add_append]
    have htest : (swCrypto crypto).tkip prwskey f.attrib.ta (f.iv.take 8) (f.data.drop f.pastIv) =
        if IcvMatches (decrypted key f) then some (decrypted key f) else none := by
      simp only [swCrypto, hdec, htail]
      rfl
    rw [htest]
    cases Decidable.em (IcvMatches (decrypted key f)) with
    | inl hm =>
      rw [if_pos hm, if_pos hm]
      rfl
    | inr hm =>
      rw [if_neg hm, if_neg hm]
      rfl
  have hkey := h.key
  rw [rxKey, if_pos h.encrypt] at hkey
  unfold rtwTkipDecrypt
  cases hsta : rtwGetStainfo a.stapriv f.attrib.ta with
  | none => simp [hsta] at hkey
  | some stainfo =>
    simp only [hsta] at hkey ⊢
    cases hm : isMcast f.attrib.ra with
    | false =>
      simp only [hm, Bool.false_eq_true, if_false, Option.some.injEq] at hkey
      simpa [hm] using hstep _ hkey
    | true =>
      cases hg : a.securitypriv.binstallGrpkey with
      | false => simp [hm, hg] at hkey
      | true =>
        simp only [hm, hg, if_true, Option.some.injEq] at hkey
        simpa [hm, hg] using hstep _ hkey

theorem swDecrypt_eq {e : SecurityType} (hcipher : rc4Cipher e = true) (h : Carried e key a f) :
    swDecrypt (swCrypto crypto) a f =
      if e = .tkip ∧ ¬ IcvMatches (decrypted key f) then none
      else some (f.writeAt f.pastIv (decrypted key f)) := by
  have he := h.encrypt
  unfold swDecrypt
  rw [he]
  cases e with
  | wep40 => simp [rtwWepDecrypt_eq crypto (by simp [he]) h.key]
  | wep104 => simp [rtwWepDecrypt_eq crypto (by simp [he]) h.key]
  | tkip =>
    simp only [rtwTkipDecrypt_eq crypto h, true_and]
    cases Decidable.em (IcvMatches (decrypted key f)) with
    | inl hm => rw [if_pos hm, if_neg (not_not.mpr hm)]
    | inr hm => rw [if_neg hm, if_pos hm]
  | _ => cases hcipher

def Sealed (key : List UInt8) (f : RecvFrame) : Prop :=
  ∃ payload, body f = encryptFragment (rc4Key f.attrib.encrypt key f.attrib.ta f.iv) payload

theorem icvMatches_append (payload : List UInt8) : IcvMatches (payload ++ icvBytes payload) := by
  have hlen : (payload ++ icvBytes payload).length - 4 = payload.length := by simp
  rw [IcvMatches, hlen, List.drop_left, List.take_left]

theorem icvMatches_iff : IcvMatches (decrypted key f) ↔ Sealed key f := by
  constructor
  · intro h
    refine ⟨(decrypted key f).take ((decrypted key f).length - 4), ?_⟩
    rw [encryptFragment_eq, ← h, List.take_append_drop, decrypted, decryptFragment_twice]
  · rintro ⟨payload, hbody⟩
    rw [decrypted, hbody, decryptFragment_encryptFragment]
    exact icvMatches_append payload

structure Received (key : List UInt8) (p : PktAttrib) (m : Mem UInt8) (g : Fragment) (a : Adapter)
    (f : RecvFrame) : Prop where
  data : f.data = read m g.start g.size
  hdrlen : f.attrib.hdrlen = p.hdrlen
  ivLen : f.attrib.ivLen = p.ivLen
  encrypt : f.attrib.encrypt = p.encrypt
  ta : f.attrib.ta = p.ta
  key : rxKey a f = some key

variable (other : SwCipher) (sec : Xmit.SecurityPriv) (fragLen : ℕ)

def swEncrypt (x : XmitFrame) : XmitFrame :=
  if x.attrib.encrypt = .tkip then rtwTkipEncrypt other sec fragLen x
  else rtwWepEncrypt other sec fragLen x

def RoundTrip (x : XmitFrame) : Prop :=
  ∀ g ∈ fragments x.attrib fragLen x.attrib.nrFrags (x.bufAddr + hwHdrOffset x), ∀ a f,
    Received (swKey sec x.attrib) x.attrib (swEncrypt other sec fragLen x).mem g a f →
      swDecrypt (swCrypto crypto) a f = some { f with
        data := header x.attrib x.mem g ++
          (plain x.attrib x.mem g ++ icvBytes (plain x.attrib x.mem g)) }

theorem swEncrypt_eq {x : XmitFrame} (hcipher : rc4Cipher x.attrib.encrypt = true) :
    swEncrypt other sec fragLen x = encryptFragments other sec fragLen x := by
  unfold swEncrypt rtwTkipEncrypt rtwWepEncrypt
  cases he : x.attrib.encrypt with
  | wep40 => rfl
  | wep104 => rfl
  | tkip => rfl
  | _ => simp [he, rc4Cipher] at hcipher

theorem xmitframeSwencrypt_eq {x : XmitFrame} (hcipher : rc4Cipher x.attrib.encrypt = true)
    (hsw : x.attrib.bswenc = true) :
    Xmit.xmitframeSwencrypt (swCipher other) sec fragLen x = swEncrypt other sec fragLen x := by
  have hall : Xmit.swEncrypts x.attrib.encrypt = true := by
    cases he : x.attrib.encrypt with
    | wep40 => rfl
    | wep104 => rfl
    | tkip => rfl
    | _ => simp [he, rc4Cipher] at hcipher
  rw [swEncrypt_eq other sec fragLen hcipher, Xmit.xmitframeSwencrypt, hsw, hall]
  rfl

theorem round_trip {x : XmitFrame} (h : Laid x.attrib fragLen) :
    RoundTrip crypto other sec fragLen x := by
  intro g hg a f hf
  have hroom := fragments_room h.lastRoom h.fragRoom hg
  have hicv := h.icvLen
  rw [swEncrypt_eq other sec fragLen h.cipher] at hf
  have hair : Holds (encryptFragments other sec fragLen x).mem g.start
      (onAir (swKey sec x.attrib) x.attrib x.mem g) :=
    swencryptLoop_fragment other h.cipher h.ivLen h.icvLen h.lastRoom h.fragRoom hg
  have hheader : (header x.attrib x.mem g).length = f.pastIv := by
    rw [header, ByteMemory.length_read, RecvFrame.pastIv, hf.hdrlen, hf.ivLen]
  have hplain : (plain x.attrib x.mem g).length = g.size - f.pastIv - 4 := by
    rw [plain, ByteMemory.length_read, RecvFrame.pastIv, hf.hdrlen, hf.ivLen, hicv]
    omega
  have hpast : f.pastIv + 4 ≤ g.size := by
    rw [RecvFrame.pastIv, hf.hdrlen, hf.ivLen]
    omega
  have hdata : f.data = onAir (swKey sec x.attrib) x.attrib x.mem g := by
    rw [hf.data]
    apply hair.read_eq
    rw [onAir, List.length_append, hheader, length_encryptFragment, hplain]
    omega
  have hlen : f.len = g.size := by
    rw [RecvFrame.len, hf.data, ByteMemory.length_read]
  have hiv : rc4Key x.attrib.encrypt (swKey sec x.attrib) x.attrib.ta f.iv =
      rc4Key x.attrib.encrypt (swKey sec x.attrib) x.attrib.ta
        ((header x.attrib x.mem g).drop x.attrib.hdrlen) := by
    have htake : f.iv.take x.attrib.ivLen = (header x.attrib x.mem g).drop x.attrib.hdrlen := by
      have hcut : x.attrib.hdrlen ≤ (header x.attrib x.mem g).length := by
        rw [header, ByteMemory.length_read]
        exact Nat.le_add_right _ _
      rw [RecvFrame.iv, RecvFrame.rxData, hdata, hf.hdrlen, onAir, List.append_assoc,
        List.drop_append_of_le_length hcut]
      apply List.take_left'
      rw [List.length_drop, header, ByteMemory.length_read, Nat.add_sub_cancel_left]
    rw [← htake]
    exact (rc4Key_take _ _ _ _ (Nat.le_of_eq h.ivLen.symm) h.cipher).symm
  have hdec : decrypted (swKey sec x.attrib) f =
      plain x.attrib x.mem g ++ icvBytes (plain x.attrib x.mem g) := by
    rw [decrypted, body, hdata, onAir, ← hheader, List.drop_left, hf.encrypt, hf.ta, hiv,
      decryptFragment_encryptFragment]
  have hcarried : Carried x.attrib.encrypt (swKey sec x.attrib) a f :=
    ⟨hf.encrypt, hf.key, hlen ▸ hpast⟩
  rw [swDecrypt_eq crypto h.cipher hcarried, if_neg (fun hbad => hbad.2 (hdec ▸ icvMatches_append _)),
    hdec, RecvFrame.writeAt, hdata, onAir, ← hheader, BoundedMemory.splice_append]
  rw [List.length_append, length_icvBytes, length_encryptFragment]

def wepStation : Adapter where
  fwState := ⟨false, true, false, false, true, false⟩
  macAddr := Recv.localAddr 1
  bssid := Recv.localAddr 2
  securitypriv := { Recv.SecurityPriv.zero with dot11DefKey := fun _ => List.replicate 5 0 }
  stapriv := []
  recvpriv := Recv.rtwInitRecvPriv

theorem received_exists (m : Mem UInt8) (p : PktAttrib) (g : Fragment)
    (hcipher : p.encrypt = .tkip → key.length ≤ 16) : ∃ a f, Received key p m g a f := by
  let psta : StaInfo := { Recv.rtwAllocStainfo (Recv.hashAddr p.ta) with dot118021xUncstKey := key }
  let a : Adapter := { wepStation with
    securitypriv := { Recv.SecurityPriv.zero with dot11DefKey := fun _ => key }
    stapriv := [psta] }
  let f : RecvFrame := { Recv.rtwInitRecvframe 0 with
    attrib := { Recv.RxPktAttrib.zero with
      encrypt := p.encrypt, hdrlen := p.hdrlen, ivLen := p.ivLen, ta := p.ta }
    data := read m g.start g.size }
  refine ⟨a, f, rfl, rfl, rfl, rfl, rfl, ?_⟩
  cases Decidable.em (p.encrypt = .tkip) with
  | inl he =>
    have hsta : rtwGetStainfo a.stapriv f.attrib.ta = some psta := by
      simp [rtwGetStainfo, a, psta, f, Recv.rtwAllocStainfo]
    have hra : isMcast (Vector.replicate 6 0) = false := by decide
    rw [rxKey, if_pos he, hsta]
    simp [f, Recv.RxPktAttrib.zero, hra, psta, List.take_of_length_le (hcipher he)]
  | inr he => rw [rxKey, if_neg he]

def ReportsMismatch (key : List UInt8) (a : Adapter) (f : RecvFrame) : Prop :=
  ¬ IcvMatches (decrypted key f) → swDecrypt (swCrypto crypto) a f = none

theorem reportsMismatch_iff {e : SecurityType} (hcipher : rc4Cipher e = true)
    (h : Carried e key a f) : ReportsMismatch crypto key a f ↔ e = .tkip ∨ Sealed key f := by
  rw [ReportsMismatch, swDecrypt_eq crypto hcipher h, ← icvMatches_iff]
  constructor
  · intro hreport
    by_contra hbad
    obtain ⟨hwep, hm⟩ := not_or.mp hbad
    have hnone := hreport hm
    rw [if_neg fun hand => hwep hand.1] at hnone
    cases hnone
  · rintro (htkip | hm) hbad
    · exact if_pos ⟨htkip, hbad⟩
    · exact absurd hm hbad

theorem softwareLaw_iff {x : XmitFrame} (hlaid : Laid x.attrib fragLen)
    (hf : Carried x.attrib.encrypt key a f) :
    RoundTrip crypto other sec fragLen x ∧ ReportsMismatch crypto key a f ↔
      x.attrib.encrypt = .tkip ∨ Sealed key f := by
  rw [reportsMismatch_iff crypto hlaid.cipher hf]
  exact and_iff_right (round_trip crypto other sec fragLen hlaid)

theorem software_cipher_law {x : XmitFrame} (hlaid : Laid x.attrib fragLen)
    (hf : Carried x.attrib.encrypt key a f) :
    RoundTrip crypto other sec fragLen x ∧ ReportsMismatch crypto key a f ↔
      x.attrib.encrypt = .tkip ∨ Sealed key f :=
  softwareLaw_iff crypto other sec fragLen hlaid hf

def idleCipher : SwCipher where
  crypt e _ _ _ payload := payload ++ List.replicate (Xmit.icvLength e) 0xff
  length_crypt := by simp

def twoFragments (e : SecurityType) : XmitFrame where
  attrib := { PktAttrib.zero with
    encrypt := e, hdrlen := 24, ivLen := (setIceIvLen e).1, icvLen := 4, nrFrags := 2,
    lastTxcmdsz := 40 }
  bufAddr := 0
  pktOffset := 1
  mem := fun i => UInt8.ofNat i

theorem laid_twoFragments {e : SecurityType} (he : rc4Cipher e = true) :
    Laid (twoFragments e).attrib 256 := by
  cases e with
  | wep40 => exact ⟨he, rfl, rfl, by decide, fun _ => by decide⟩
  | wep104 => exact ⟨he, rfl, rfl, by decide, fun _ => by decide⟩
  | tkip => exact ⟨he, rfl, rfl, by decide, fun _ => by decide⟩
  | _ => cases he

def forgedFragment : RecvFrame :=
  { Recv.rtwInitRecvframe 0 with
    attrib := { Recv.RxPktAttrib.zero with encrypt := .wep40, hdrlen := 24, ivLen := 4, icvLen := 4 }
    data := List.replicate 28 0 ++
      decryptFragment (wepkey (List.replicate 5 0) [0, 0, 0]) [1, 0, 0, 0] }

theorem carried_forgedFragment : Carried .wep40 (List.replicate 5 0) wepStation forgedFragment := by
  refine ⟨rfl, rfl, ?_⟩
  simp [forgedFragment, RecvFrame.len, RecvFrame.pastIv]

theorem decrypted_forgedFragment :
    decrypted (List.replicate 5 0) forgedFragment = [1, 0, 0, 0] := by
  have hbody : body forgedFragment =
      decryptFragment (wepkey (List.replicate 5 0) [0, 0, 0]) [1, 0, 0, 0] := List.drop_left' rfl
  rw [decrypted, hbody]
  exact decryptFragment_twice _ _

theorem forgedFragment_not_sealed : ¬ Sealed (List.replicate 5 0) forgedFragment := by
  rw [← icvMatches_iff, decrypted_forgedFragment]
  decide

theorem software_cipher_law_wep :
    RoundTrip Crypto.rejecting idleCipher Xmit.SecurityPriv.zero 256 (twoFragments .wep40) ∧
        ReportsMismatch Crypto.rejecting (List.replicate 5 0) wepStation forgedFragment ↔
      (twoFragments .wep40).attrib.encrypt = .tkip ∨
        Sealed (List.replicate 5 0) forgedFragment :=
  software_cipher_law _ _ _ _ (laid_twoFragments rfl) carried_forgedFragment

theorem forged_wep_fragment_accepted :
    ¬ (RoundTrip Crypto.rejecting idleCipher Xmit.SecurityPriv.zero 256 (twoFragments .wep40) ∧
      ReportsMismatch Crypto.rejecting (List.replicate 5 0) wepStation forgedFragment) := by
  rw [softwareLaw_iff _ _ _ _ (laid_twoFragments rfl) carried_forgedFragment]
  rintro (htkip | hsealed)
  · cases htkip
  · exact forgedFragment_not_sealed hsealed

end Sec
