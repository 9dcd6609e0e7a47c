import Rtl8188fu.Sec.Aes
import Rtl8188fu.Sec.Ccmp
import Rtl8188fu.Sec.SwRoundTrip

namespace Sec

open Recv (SecurityType RecvFrame Adapter Crypto swDecrypt prwskey)
open Xmit (PktAttrib XmitFrame Fragment fragPayload rnd4 rnd4_le hwHdrOffset icvLength keyLen swKey)
open ByteMemory
open BoundedMemory (splice)

structure AesEnv where
  aes : List UInt8 → Block → Block
  spp : Bool

namespace Swcrypto

variable (env : AesEnv) (key : List UInt8) (keyLen hdrlen : ℕ) (frame : List UInt8)

def rtwCcmpEncrypt (plen : ℕ) : Option (List UInt8) :=
  if keyLen = 16 then
    ccmpEncrypt (env.aes (key.take 16)) env.spp frame (hdrlen + plen) hdrlen none 0
  else if keyLen = 32 then
    ccmp256Encrypt (env.aes (key.take 32)) env.spp frame (hdrlen + plen) hdrlen none 0
  else none

-- for a frame of at least hdrlen bytes: plen - hdrlen wraps for a shorter one
def rtwCcmpDecrypt : Option (List UInt8) :=
  if keyLen = 16 then ccmpDecrypt (env.aes (key.take 16)) env.spp frame (frame.drop hdrlen)
  else if keyLen = 32 then
    ccmp256Decrypt (env.aes (key.take 32)) env.spp frame (frame.drop hdrlen)
  else none

def rtwGcmpEncrypt (plen : ℕ) : Option (List UInt8) :=
  gcmpEncrypt (env.aes (key.take keyLen)) env.spp frame (hdrlen + plen) hdrlen none 0

def rtwGcmpDecrypt : Option (List UInt8) :=
  gcmpDecrypt (env.aes (key.take keyLen)) env.spp frame (frame.drop hdrlen)

end Swcrypto

def aeadLoop (enc : List UInt8 → ℕ → Option (List UInt8)) (p : PktAttrib) (fragLen : ℕ) :
    ℕ → ℕ → Mem UInt8 → Mem UInt8
  | 0, _, m => m
  | left + 1, pframe, m =>
    let plen := fragPayload p fragLen p.lastTxcmdsz p.icvLen left
    let m := match enc (read m pframe (p.hdrlen + 8 + plen)) plen with
      | none => m
      | some bs => write m pframe bs
    aeadLoop enc p fragLen left (rnd4 (pframe + fragLen)) m

section Transmit

variable (env : AesEnv) (sec : Xmit.SecurityPriv) (fragLen : ℕ)

def aeadFragments (enc : List UInt8 → ℕ → Option (List UInt8)) (x : XmitFrame) : XmitFrame :=
  { x with
    mem := aeadLoop enc x.attrib fragLen x.attrib.nrFrags (x.bufAddr + hwHdrOffset x) x.mem }

def rtwAesEncrypt (x : XmitFrame) : XmitFrame :=
  let e := x.attrib.encrypt
  if e = .aes ∨ e = .ccmp256 then
    aeadFragments fragLen
      (Swcrypto.rtwCcmpEncrypt env (swKey sec x.attrib) (if e = .ccmp256 then 32 else 16)
        x.attrib.hdrlen) x
  else x

def rtwGcmpEncrypt (x : XmitFrame) : XmitFrame :=
  let e := x.attrib.encrypt
  if e = .gcmp ∨ e = .gcmp256 then
    aeadFragments fragLen
      (Swcrypto.rtwGcmpEncrypt env (swKey sec x.attrib) (if e = .gcmp256 then 32 else 16)
        x.attrib.hdrlen) x
  else x

def xmitframeSwencrypt (other : Xmit.SwCipher) (x : XmitFrame) : XmitFrame :=
  if x.attrib.bswenc then
    match x.attrib.encrypt with
    | .wep40 | .wep104 => rtwWepEncrypt other sec fragLen x
    | .tkip => rtwTkipEncrypt other sec fragLen x
    | .aes | .ccmp256 => rtwAesEncrypt env sec fragLen x
    | .gcmp | .gcmp256 => rtwGcmpEncrypt env sec fragLen x
    | _ => x
  else x

end Transmit

def aesCrypto (env : AesEnv) (other : Crypto) : Crypto :=
  { other with ccmp := Swcrypto.rtwCcmpDecrypt env, gcmp := Swcrypto.rtwGcmpDecrypt env }

def ccmCipher : SecurityType → Bool
  | .aes | .ccmp256 => true
  | _ => false

def aeadCipher : SecurityType → Bool
  | .aes | .ccmp256 | .gcmp | .gcmp256 => true
  | _ => false

variable (env : AesEnv) (e : SecurityType) (key : List UInt8)

def aadNonce (hdr data : List UInt8) : AadNonce :=
  if ccmCipher e then ccmpAadNonce env.spp hdr data else gcmpAadNonce env.spp hdr data

def frameSealing (an : AadNonce) : Sealing (List UInt8) (List UInt8) (List UInt8) :=
  if ccmCipher e then ccmSealing (env.aes key) (icvLength e) an.nonce an.aad
  else gcmSealing (env.aes key) an.nonce an.aad

def aeadBody (hdrlen : ℕ) (head plain : List UInt8) : List UInt8 :=
  let r := (frameSealing env e key (aadNonce env e head (head.drop hdrlen))).wrap plain
  r.1 ++ r.2

def marked (head : List UInt8) : List UInt8 := if ccmCipher e then setIswep head else head

section Frames

variable {env e key} {hdrlen plen : ℕ} {head body plain : List UInt8}

theorem covered_append {iswep spp : Bool} (h : 32 ≤ head.length) :
    Covered iswep spp (head ++ body) head := by
  have hbyte (i : ℕ) (hi : i < 32) : (head ++ body).getD i 0 = head.getD i 0 := by
    rw [List.getD_append _ _ _ _ (by omega)]
  have hslice (i n : ℕ) (hi : i + n ≤ 32) : ((head ++ body).drop i).take n = (head.drop i).take n := by
    rw [List.drop_append_of_le_length (by omega), List.take_append_of_le_length]
    rw [List.length_drop]
    omega
  have hword (i : ℕ) (hi : i + 1 < 32) : getLe16 (head ++ body) i = getLe16 head i := by
    rw [getLe16, getLe16, hbyte i (by omega), hbyte (i + 1) hi]
  have hqos : qosAt (head ++ body) < 32 := by
    unfold qosAt
    split <;> decide
  refine ⟨?_, hslice 4 18 (by decide), ?_, fun _ => hslice 24 6 (by decide), fun _ => ?_⟩
  · rw [hdrFc, hdrFc, hword 0 (by decide)]
  · rw [hword 22 (by decide)]
  · rw [hbyte _ hqos]

theorem pnBytes_append (h : 8 ≤ head.length) : pnBytes (head ++ body) = pnBytes head := by
  have hbyte (i : ℕ) (hi : i < 8) : (head ++ body).getD i 0 = head.getD i 0 := by
    rw [List.getD_append _ _ _ _ (by omega)]
  simp only [pnBytes, List.map_cons, List.map_nil, hbyte 7 (by decide), hbyte 6 (by decide),
    hbyte 5 (by decide), hbyte 4 (by decide), hbyte 1 (by decide), hbyte 0 (by decide)]

theorem aadNonce_congr {h h' data data' : List UInt8} (hlen : 32 ≤ h.length) (hlen' : 32 ≤ h'.length)
    (hc : Covered (ccmCipher e) env.spp h h') (hpn : pnBytes data = pnBytes data') :
    aadNonce env e h data = aadNonce env e h' data' := by
  unfold aadNonce
  cases hcc : ccmCipher e with
  | true =>
    rw [hcc] at hc
    exact (ccmpAadNonce_eq_iff hlen hlen').mpr ⟨hc, hpn⟩
  | false =>
    rw [hcc] at hc
    exact (gcmpAadNonce_eq_iff hlen hlen').mpr ⟨hc, hpn⟩

theorem length_frameAad (iswep spp : Bool) (hdr : List UInt8) :
    (frameAad iswep spp hdr).length ≤ 30 := by
  unfold frameAad aadQos
  dsimp only
  simp only [List.length_append, length_putLe16]
  have haddrs : ((hdr.drop 4).take 18).length ≤ 18 := List.length_take_le _ _
  have haddr4 : (if fourAddr (hdrFc hdr) then (hdr.drop 24).take 6 else []).length ≤ 6 := by
    split
    · exact List.length_take_le _ _
    · exact Nat.zero_le _
  have hqos (b : UInt8) : (if isQosData (hdrFc hdr) then [b, 0] else []).length ≤ 2 := by
    split
    · exact Nat.le_refl 2
    · exact Nat.zero_le _
  have hqos := hqos (if spp then hdr.getD (qosAt hdr) 0 &&& ~~~0x70
    else hdr.getD (qosAt hdr) 0 &&& ~~~0x70 &&& ~~~0x80)
  omega

theorem length_tag (he : aeadCipher e = true) (an : AadNonce) (plain : List UInt8) :
    ((frameSealing env e key an).wrap plain).2.length = icvLength e := by
  have hccm (m : ℕ) (hm : m ≤ 16) (nonce aad : List UInt8) :
      ((ccmSealing (env.aes key) m nonce aad).wrap plain).2.length = m := by
    have hx (x : Block) : x.toList.length = 16 := Vector.length_toList
    simp only [Sealing.wrap, ccmSealing, aesCcmEncrAuth, xorBytes, List.length_zipWith,
      List.length_take, length_aesCcmPad, hx]
    omega
  unfold frameSealing
  cases e with
  | aes => exact hccm 8 (by decide) _ _
  | ccmp256 => exact hccm 16 (by decide) _ _
  | gcmp => exact length_aesGcmTag _
  | gcmp256 => exact length_aesGcmTag _
  | _ => cases he

theorem length_hidden (an : AadNonce) (plain : List UInt8) :
    ((frameSealing env e key an).wrap plain).1.length = plain.length := by
  unfold frameSealing
  cases ccmCipher e with
  | true => exact length_aesCcmEncr _ _
  | false => exact length_aesGcmCrypt _ _

theorem length_aeadBody (he : aeadCipher e = true) (hdrlen : ℕ) (head plain : List UInt8) :
    (aeadBody env e key hdrlen head plain).length = plain.length + icvLength e := by
  rw [aeadBody, List.length_append, length_tag he, length_hidden]

theorem unwrap_body (he : aeadCipher e = true) {an : AadNonce} {body : List UInt8}
    (hlen : icvLength e ≤ body.length) :
    (frameSealing env e key an).unwrap (body.take (body.length - icvLength e))
        (body.drop (body.length - icvLength e)) = some plain ↔
      body = ((frameSealing env e key an).wrap plain).1 ++
        ((frameSealing env e key an).wrap plain).2 := by
  have htag := @length_tag env e key he an plain
  rw [Sealing.unwrap_eq_some]
  constructor
  · intro h
    rw [h, List.take_append_drop]
  · intro h
    generalize (frameSealing env e key an).wrap plain = r at h htag
    subst h
    rw [List.length_append, htag, Nat.add_sub_cancel, List.take_left, List.drop_left]

theorem drop_data (hhead : head.length = hdrlen + 8) (body : List UInt8) (n : ℕ) :
    ((head ++ body).drop hdrlen).drop (8 + n) = body.drop n := by
  rw [List.drop_drop, ← Nat.add_assoc, ← hhead, List.drop_length_add_append]

theorem aadNonce_append (h24 : 24 ≤ hdrlen) (hhead : head.length = hdrlen + 8)
    (body : List UInt8) : aadNonce env e (head ++ body) ((head ++ body).drop hdrlen) =
      aadNonce env e head (head.drop hdrlen) := by
  refine aadNonce_congr ?_ (by omega) (covered_append (by omega)) ?_
  · rw [List.length_append]
    omega
  · rw [List.drop_append_of_le_length (by omega)]
    refine pnBytes_append ?_
    rw [List.length_drop]
    omega

variable (env e) in
def aeadDecrypt (k : List UInt8) (hdrlen : ℕ) (frame : List UInt8) : Option (List UInt8) :=
  if ccmCipher e then Swcrypto.rtwCcmpDecrypt env k (keyLen e) hdrlen frame
  else Swcrypto.rtwGcmpDecrypt env k (keyLen e) hdrlen frame

variable (env e) in
def openBody (k : List UInt8) (hdrlen : ℕ) (head body : List UInt8) : Option (List UInt8) :=
  if body.length < icvLength e then none
  else
    (frameSealing env e (k.take (keyLen e)) (aadNonce env e head (head.drop hdrlen))).unwrap
      (body.take (body.length - icvLength e)) (body.drop (body.length - icvLength e))

section Decrypt

variable (hhead : head.length = hdrlen + 8)

include hhead

theorem length_data (body : List UInt8) (n : ℕ) :
    ((head ++ body).drop hdrlen).length < 8 + n ↔ body.length < n := by
  rw [List.length_drop, List.length_append]
  omega

theorem ccmpDecryptWith_eq {m : ℕ} (hm : m ≤ 16) (aes : Block → Block) (spp : Bool) :
    ccmpDecryptWith aes spp m (head ++ body) ((head ++ body).drop hdrlen) =
      if body.length < m then none
      else
        let an := ccmpAadNonce spp (head ++ body) ((head ++ body).drop hdrlen)
        (ccmSealing aes m an.nonce an.aad).unwrap (body.take (body.length - m))
          (body.drop (body.length - m)) := by
  have hmlen : ((head ++ body).drop hdrlen).length - 8 - m = body.length - m := by
    rw [List.length_drop, List.length_append]
    omega
  unfold ccmpDecryptWith
  dsimp only
  rw [hmlen, drop_data hhead, ← Nat.add_zero 8, drop_data hhead, List.drop_zero]
  cases Nat.lt_or_ge body.length m with
  | inl hlt => rw [if_pos hlt, if_pos ((length_data hhead body m).mpr hlt)]
  | inr hge =>
    rw [if_neg (Nat.not_lt.mpr hge), if_neg fun h => Nat.not_lt.mpr hge
      ((length_data hhead body m).mp h)]
    refine aesCcmAd_eq aes (length_frameAad _ _ _) hm ?_
    rw [List.length_drop]
    omega

theorem gcmpDecrypt_eq (aes : Block → Block) (spp : Bool) :
    gcmpDecrypt aes spp (head ++ body) ((head ++ body).drop hdrlen) =
      if body.length < 16 then none
      else
        let an := gcmpAadNonce spp (head ++ body) ((head ++ body).drop hdrlen)
        (gcmSealing aes an.nonce an.aad).unwrap (body.take (body.length - 16))
          (body.drop (body.length - 16)) := by
  have hmlen : ((head ++ body).drop hdrlen).length - 8 - 16 = body.length - 16 := by
    rw [List.length_drop, List.length_append]
    omega
  unfold gcmpDecrypt
  dsimp only
  rw [hmlen, drop_data hhead, ← Nat.add_zero 8, drop_data hhead, List.drop_zero]
  cases Nat.lt_or_ge body.length 16 with
  | inl hlt => rw [if_pos hlt, if_pos ((length_data hhead body 16).mpr hlt)]
  | inr hge =>
    rw [if_neg (Nat.not_lt.mpr hge), if_neg fun h => Nat.not_lt.mpr hge
      ((length_data hhead body 16).mp h)]
    refine aesGcmAd_eq aes ?_
    rw [List.length_drop]
    omega

theorem aeadDecrypt_eq (he : aeadCipher e = true) (h24 : 24 ≤ hdrlen) (k : List UInt8) :
    aeadDecrypt env e k hdrlen (head ++ body) = openBody env e k hdrlen head body := by
  have han := @aadNonce_append env e hdrlen head h24 hhead body
  have hccm {m : ℕ} (hm : m ≤ 16) (aes : Block → Block) :=
    @ccmpDecryptWith_eq hdrlen head body hhead m hm aes env.spp
  have hgcm (aes : Block → Block) := @gcmpDecrypt_eq hdrlen head body hhead aes env.spp
  unfold openBody
  rw [← han]
  cases e with
  | aes => exact hccm (by decide) _
  | ccmp256 => exact hccm (by decide) _
  | gcmp => exact hgcm _
  | gcmp256 => exact hgcm _
  | _ => cases he

end Decrypt

theorem openBody_eq_some (he : aeadCipher e = true) {k : List UInt8} :
    openBody env e k hdrlen head body = some plain ↔
      body = aeadBody env e (k.take (keyLen e)) hdrlen head plain := by
  unfold openBody
  cases Nat.lt_or_ge body.length (icvLength e) with
  | inl hlt =>
    rw [if_pos hlt]
    refine iff_of_false nofun fun h => ?_
    have hlen := congrArg List.length h
    rw [length_aeadBody he] at hlen
    omega
  | inr hge =>
    rw [if_neg (Nat.not_lt.mpr hge)]
    exact unwrap_body he hge

variable (env) (other : Crypto) {a : Adapter} {f g : RecvFrame}

def headOf (f : RecvFrame) : List UInt8 := f.data.take (f.attrib.hdrlen + 8)

def bodyOf (f : RecvFrame) : List UInt8 := f.data.drop (f.attrib.hdrlen + 8)

theorem swDecrypt_aead (he : aeadCipher f.attrib.encrypt = true) :
    swDecrypt (aesCrypto env other) a f = match prwskey a f with
      | none => none
      | some k => (aeadDecrypt env f.attrib.encrypt k f.attrib.hdrlen f.data).map
          (f.writeAt (f.attrib.hdrlen + 8)) := by
  unfold swDecrypt Recv.rtwAesDecrypt Recv.rtwGcmpDecrypt aeadDecrypt
  cases hf : f.attrib.encrypt with
  | aes => rfl
  | ccmp256 => rfl
  | gcmp => rfl
  | gcmp256 => rfl
  | _ =>
    rw [hf] at he
    cases he

theorem splice_body {head c t p : List UInt8} (h : p.length = c.length) :
    splice (head ++ (c ++ t)) head.length p = head ++ (p ++ t) := by
  have hdrop : (head ++ (c ++ t)).drop (head.length + p.length) = t := by
    rw [h, List.drop_length_add_append, List.drop_left]
  rw [splice, List.take_left, hdrop, List.length_append, List.length_append,
    Nat.add_sub_cancel_left, List.take_of_length_le (by omega)]

theorem aeadDecrypt_short (he : aeadCipher e = true) {frame : List UInt8}
    (h : frame.length < hdrlen + 8) (k : List UInt8) : aeadDecrypt env e k hdrlen frame = none := by
  have hlen (m : ℕ) : (frame.drop hdrlen).length < 8 + m := by
    rw [List.length_drop]
    omega
  cases e with
  | aes => exact if_pos (hlen 8)
  | ccmp256 => exact if_pos (hlen 16)
  | gcmp => exact if_pos (hlen 16)
  | gcmp256 => exact if_pos (hlen 16)
  | _ => cases he

def Opened (key plain : List UInt8) (f g : RecvFrame) : Prop :=
  bodyOf f = aeadBody env f.attrib.encrypt key f.attrib.hdrlen (headOf f) plain ∧
    g = { f with data := headOf f ++ (plain ++ (bodyOf f).drop plain.length) }

theorem opened_writeAt {key plain : List UInt8} (he : aeadCipher f.attrib.encrypt = true)
    (hroom : f.attrib.hdrlen + 8 ≤ f.len)
    (hbody : bodyOf f = aeadBody env f.attrib.encrypt key f.attrib.hdrlen (headOf f) plain) :
    f.writeAt (f.attrib.hdrlen + 8) plain =
      { f with data := headOf f ++ (plain ++ (bodyOf f).drop plain.length) } := by
  have hhead : (headOf f).length = f.attrib.hdrlen + 8 := List.length_take_of_le hroom
  have hdata : f.data = headOf f ++ ((bodyOf f).take plain.length ++ (bodyOf f).drop plain.length) := by
    rw [List.take_append_drop]
    exact (List.take_append_drop _ _).symm
  have hlen : plain.length = ((bodyOf f).take plain.length).length := by
    rw [List.length_take, hbody, length_aeadBody he]
    omega
  have hsplice := @splice_body (headOf f) _ ((bodyOf f).drop plain.length) _ hlen
  rw [← hdata, hhead] at hsplice
  rw [RecvFrame.writeAt, hsplice]

theorem aeadDecrypt_iff {k plain : List UInt8} (he : aeadCipher f.attrib.encrypt = true)
    (h24 : 24 ≤ f.attrib.hdrlen) :
    aeadDecrypt env f.attrib.encrypt k f.attrib.hdrlen f.data = some plain ↔
      f.attrib.hdrlen + 8 ≤ f.len ∧
        bodyOf f = aeadBody env f.attrib.encrypt (k.take (keyLen f.attrib.encrypt)) f.attrib.hdrlen
          (headOf f) plain := by
  cases Nat.lt_or_ge f.len (f.attrib.hdrlen + 8) with
  | inl hlt =>
    rw [aeadDecrypt_short env he hlt]
    exact iff_of_false nofun fun h => Nat.not_lt.mpr h.1 hlt
  | inr hroom =>
    have hhead : (headOf f).length = f.attrib.hdrlen + 8 := List.length_take_of_le hroom
    have hdata : f.data = headOf f ++ bodyOf f := (List.take_append_drop _ _).symm
    rw [and_iff_right hroom, hdata, aeadDecrypt_eq hhead he h24]
    exact openBody_eq_some he

theorem swDecrypt_iff (he : aeadCipher f.attrib.encrypt = true) (h24 : 24 ≤ f.attrib.hdrlen) :
    swDecrypt (aesCrypto env other) a f = some g ↔
      f.attrib.hdrlen + 8 ≤ f.len ∧ ∃ k plain, prwskey a f = some k ∧
        Opened env (k.take (keyLen f.attrib.encrypt)) plain f g := by
  rw [swDecrypt_aead env other he]
  constructor
  · intro h
    cases hkey : prwskey a f with
    | none =>
      rw [hkey] at h
      cases h
    | some k =>
      rw [hkey] at h
      obtain ⟨plain, hplain, rfl⟩ := Option.map_eq_some_iff.mp h
      obtain ⟨hroom, hbody⟩ := (aeadDecrypt_iff env he h24).mp hplain
      exact ⟨hroom, k, plain, rfl, hbody, opened_writeAt env he hroom hbody⟩
  · rintro ⟨hroom, k, plain, hkey, hbody, rfl⟩
    have hplain := (aeadDecrypt_iff env he h24).mpr ⟨hroom, hbody⟩
    rw [hkey]
    dsimp only
    rw [hplain, Option.map_some, opened_writeAt env he hroom hbody]

end Frames

section Encrypt

variable {hdrlen : ℕ} {head plain : List UInt8}

def aeadEncrypt (hdrlen : ℕ) (frame : List UInt8) (plen : ℕ) : Option (List UInt8) :=
  if ccmCipher e then Swcrypto.rtwCcmpEncrypt env key (keyLen e) hdrlen frame plen
  else Swcrypto.rtwGcmpEncrypt env key (keyLen e) hdrlen frame plen

def aeadOnAir (hdrlen : ℕ) (head plain : List UInt8) : List UInt8 :=
  marked e head ++ aeadBody env e (key.take (keyLen e)) hdrlen (marked e head) plain

@[simp] theorem length_marked (head : List UInt8) : (marked e head).length = head.length := by
  unfold marked setIswep
  split
  · exact List.length_modify _ _ _
  · rfl

theorem cleartext_eq (mark : List UInt8 → List UInt8) (hhead : head.length = hdrlen + 8) :
    cleartext mark (head ++ plain) hdrlen none 0 = ⟨mark head, plain⟩ := by
  rw [cleartext, ← hhead, List.take_left, List.drop_left]

theorem ccmpEncryptWith_eq (h24 : 24 ≤ hdrlen) (hhead : head.length = hdrlen + 8) {m : ℕ}
    (hm : m ≤ 16) (aes : Block → Block) (spp : Bool) :
    ccmpEncryptWith aes spp m (head ++ plain) (hdrlen + plain.length) hdrlen none 0 =
      let an := ccmpAadNonce spp (setIswep head) ((setIswep head).drop hdrlen)
      let r := (ccmSealing aes m an.nonce an.aad).wrap plain
      some (setIswep head ++ (r.1 ++ r.2)) := by
  have haad : (ccmpAadNonce spp (setIswep head) ((setIswep head).drop hdrlen)).aad.length ≤ 30 :=
    length_frameAad _ _ _
  unfold ccmpEncryptWith
  rw [if_neg (by omega), cleartext_eq setIswep hhead, Nat.add_sub_cancel_left]
  dsimp only
  rw [List.take_length, aesCcmAe_eq aes haad hm, Option.map_some, List.append_assoc]

theorem gcmpEncrypt_eq (h24 : 24 ≤ hdrlen) (hhead : head.length = hdrlen + 8)
    (aes : Block → Block) (spp : Bool) :
    gcmpEncrypt aes spp (head ++ plain) (hdrlen + plain.length) hdrlen none 0 =
      let an := gcmpAadNonce spp head (head.drop hdrlen)
      let r := (gcmSealing aes an.nonce an.aad).wrap plain
      some (head ++ (r.1 ++ r.2)) := by
  unfold gcmpEncrypt
  rw [if_neg (by omega), cleartext_eq id hhead, Nat.add_sub_cancel_left]
  dsimp only [id]
  rw [List.take_length, aesGcmAe_eq, List.append_assoc]

theorem aeadEncrypt_eq (he : aeadCipher e = true) (h24 : 24 ≤ hdrlen)
    (hhead : head.length = hdrlen + 8) :
    aeadEncrypt env e key hdrlen (head ++ plain) plain.length =
      some (aeadOnAir env e key hdrlen head plain) := by
  have hccm {m : ℕ} (hm : m ≤ 16) (aes : Block → Block) :=
    @ccmpEncryptWith_eq hdrlen head plain h24 hhead m hm aes env.spp
  have hgcm (aes : Block → Block) := @gcmpEncrypt_eq hdrlen head plain h24 hhead aes env.spp
  cases e with
  | aes => exact hccm (by decide) _
  | ccmp256 => exact hccm (by decide) _
  | gcmp => exact hgcm _
  | gcmp256 => exact hgcm _
  | _ => cases he

end Encrypt

structure AeadLaid (p : PktAttrib) (fragLen : ℕ) : Prop where
  cipher : aeadCipher p.encrypt = true
  hdrlen : 24 ≤ p.hdrlen
  ivLen : p.ivLen = 8
  icvLen : p.icvLen = icvLength p.encrypt
  lastRoom : p.hdrlen + p.ivLen + p.icvLen ≤ p.lastTxcmdsz
  fragRoom : 1 < p.nrFrags → p.hdrlen + p.ivLen + p.icvLen ≤ fragLen

section Loop

variable {env key} {p : PktAttrib} {fragLen n pframe : ℕ} {m m' : Mem UInt8} {g : Fragment}
  {enc : List UInt8 → ℕ → Option (List UInt8)}

theorem length_aeadOnAir (he : aeadCipher p.encrypt = true) (hiv : p.ivLen = 8)
    (hicv : p.icvLen = icvLength p.encrypt) (hroom : p.hdrlen + p.ivLen + p.icvLen ≤ g.size) :
    (aeadOnAir env p.encrypt key p.hdrlen (header p m g) (plain p m g)).length = g.size := by
  rw [aeadOnAir, List.length_append, length_marked, length_aeadBody he, header, length_read, plain,
    length_read]
  omega

theorem aeadLoop_below {i : ℕ} (hi : i < pframe) : aeadLoop enc p fragLen n pframe m i = m i := by
  induction n generalizing pframe m with
  | zero => rfl
  | succ n ih =>
    have hround := rnd4_le (pframe + fragLen)
    rw [aeadLoop, ih (by omega)]
    cases enc (read m pframe (p.hdrlen + 8 + fragPayload p fragLen p.lastTxcmdsz p.icvLen n))
        (fragPayload p fragLen p.lastTxcmdsz p.icvLen n) with
    | none => rfl
    | some bs => exact write_below _ _ hi

theorem aeadLoop_fragment (h : AeadLaid { p with nrFrags := n } fragLen)
    (hg : g ∈ fragments p fragLen n pframe) :
    Holds (aeadLoop (aeadEncrypt env p.encrypt key p.hdrlen) p fragLen n pframe m) g.start
      (aeadOnAir env p.encrypt key p.hdrlen (header p m g) (plain p m g)) := by
  have he : aeadCipher p.encrypt = true := h.cipher
  have h24 : 24 ≤ p.hdrlen := h.hdrlen
  have hiv : p.ivLen = 8 := h.ivLen
  have hicv : p.icvLen = icvLength p.encrypt := h.icvLen
  have hlast : p.hdrlen + p.ivLen + p.icvLen ≤ p.lastTxcmdsz := h.lastRoom
  have hfrag : 1 < n → p.hdrlen + p.ivLen + p.icvLen ≤ fragLen := h.fragRoom
  clear h
  induction n generalizing pframe m with
  | zero => cases hg
  | succ n ih =>
    have hround := rnd4_le (pframe + fragLen)
    let first : Fragment := ⟨pframe, if n = 0 then p.lastTxcmdsz else fragLen⟩
    have hsize : p.hdrlen + p.ivLen + p.icvLen ≤ first.size :=
      fragments_room hlast hfrag List.mem_cons_self
    let body := aeadOnAir env p.encrypt key p.hdrlen (header p m first) (plain p m first)
    have hbody : body.length = first.size := length_aeadOnAir he hiv hicv hsize
    have hframe : read m pframe (p.hdrlen + 8 + (plain p m first).length) =
        header p m first ++ plain p m first := by
      rw [read_add, header, plain, length_read, hiv, ← Nat.add_assoc]
    have hplen : fragPayload p fragLen p.lastTxcmdsz p.icvLen n = (plain p m first).length := by
      rw [plain, length_read]
      rfl
    have hstep : aeadLoop (aeadEncrypt env p.encrypt key p.hdrlen) p fragLen (n + 1) pframe m =
        aeadLoop (aeadEncrypt env p.encrypt key p.hdrlen) p fragLen n (rnd4 (pframe + fragLen))
          (write m pframe body) := by
      rw [aeadLoop, hplen, hframe, aeadEncrypt_eq env _ key he h24 (by rw [header, length_read, hiv])]
    rw [hstep]
    rcases List.mem_cons.mp hg with rfl | hg
    · refine (holds_write m pframe body).congr fun i _ hi => ?_
      cases n with
      | zero => rfl
      | succ n =>
        have hlen : first.size = fragLen := rfl
        exact aeadLoop_below (by omega)
    · have hstart := fragments_start hg
      have hn : 0 < n := by
        cases n with
        | zero => cases hg
        | succ n => exact Nat.succ_pos n
      have hlen : first.size = fragLen := if_neg (Nat.ne_of_gt hn)
      have hsame : ∀ i, g.start ≤ i → write m pframe body i = m i := by
        intro i hi
        exact write_above _ (by omega)
      have hheader : header p (write m pframe body) g = header p m g :=
        read_congr fun i hi _ => hsame i hi
      have hplain : plain p (write m pframe body) g = plain p m g :=
        read_congr fun i hi _ => hsame i (by omega)
      rw [← hheader, ← hplain]
      exact ih hg fun hmore => hfrag (by omega)

end Loop

variable {env}

theorem aeadBody_congr {hdrlen : ℕ} {h h' : List UInt8}
    (han : aadNonce env e h (h.drop hdrlen) = aadNonce env e h' (h'.drop hdrlen)) (plain : List UInt8) :
    aeadBody env e key hdrlen h plain = aeadBody env e key hdrlen h' plain := by
  rw [aeadBody, aeadBody, han]

variable (env) in
structure Heard (key : List UInt8) (p : PktAttrib) (m : Mem UInt8) (g : Fragment) (a : Adapter)
    (f : RecvFrame) : Prop where
  encrypt : f.attrib.encrypt = p.encrypt
  hdrlen : f.attrib.hdrlen = p.hdrlen
  key : ∃ k, prwskey a f = some k ∧ k.take (keyLen p.encrypt) = key
  length : f.len = g.size
  covered : Covered (ccmCipher p.encrypt) env.spp (read m g.start g.size) f.data
  pn : pnBytes ((read m g.start g.size).drop p.hdrlen) = pnBytes (f.data.drop p.hdrlen)
  body : bodyOf f = (read m g.start g.size).drop (p.hdrlen + 8)

variable (env) in
def AeadRoundTrip (otherTx : Xmit.SwCipher) (otherRx : Crypto) (sec : Xmit.SecurityPriv)
    (fragLen : ℕ) (x : XmitFrame) : Prop :=
  ∀ g ∈ fragments x.attrib fragLen x.attrib.nrFrags (x.bufAddr + hwHdrOffset x), ∀ a f,
    Heard env (swKey sec x.attrib) x.attrib (xmitframeSwencrypt env sec fragLen otherTx x).mem g a f →
      swDecrypt (aesCrypto env otherRx) a f = some { f with
        data := headOf f ++ (plain x.attrib x.mem g ++
          (bodyOf f).drop (plain x.attrib x.mem g).length) }

theorem swKey_take {p : PktAttrib} (he : aeadCipher p.encrypt = true) (sec : Xmit.SecurityPriv) :
    (swKey sec p).take (keyLen p.encrypt) = swKey sec p := by
  unfold swKey
  cases h : p.encrypt with
  | aes => exact List.take_take
  | ccmp256 => exact List.take_take
  | gcmp => exact List.take_take
  | gcmp256 => exact List.take_take
  | _ =>
    rw [h] at he
    cases he

theorem xmitframeSwencrypt_aead {x : XmitFrame} (he : aeadCipher x.attrib.encrypt = true)
    (hsw : x.attrib.bswenc = true) (sec : Xmit.SecurityPriv) (fragLen : ℕ) (other : Xmit.SwCipher) :
    (xmitframeSwencrypt env sec fragLen other x).mem =
      aeadLoop (aeadEncrypt env x.attrib.encrypt (swKey sec x.attrib) x.attrib.hdrlen) x.attrib fragLen
        x.attrib.nrFrags (x.bufAddr + hwHdrOffset x) x.mem := by
  unfold xmitframeSwencrypt rtwAesEncrypt rtwGcmpEncrypt
  rw [if_pos hsw]
  cases h : x.attrib.encrypt with
  | aes => rfl
  | ccmp256 => rfl
  | gcmp => rfl
  | gcmp256 => rfl
  | _ =>
    rw [h] at he
    cases he

theorem aead_round_trip {x : XmitFrame} {fragLen : ℕ} (h : AeadLaid x.attrib fragLen)
    (hsw : x.attrib.bswenc = true) (otherTx : Xmit.SwCipher) (otherRx : Crypto)
    (sec : Xmit.SecurityPriv) : AeadRoundTrip env otherTx otherRx sec fragLen x := by
  intro g hg a f hf
  have he := h.cipher
  have hiv := h.ivLen
  have hicv := h.icvLen
  have h24 := h.hdrlen
  have hroom := fragments_room h.lastRoom h.fragRoom hg
  obtain ⟨k, hkey, hk⟩ := hf.key
  let head := marked x.attrib.encrypt (header x.attrib x.mem g)
  let body := aeadBody env x.attrib.encrypt (swKey sec x.attrib) x.attrib.hdrlen head
    (plain x.attrib x.mem g)
  have hhead : head.length = x.attrib.hdrlen + 8 := by
    rw [length_marked, header, length_read, hiv]
  have hair : read (xmitframeSwencrypt env sec fragLen otherTx x).mem g.start g.size = head ++ body := by
    have hholds : Holds (xmitframeSwencrypt env sec fragLen otherTx x).mem g.start
        (aeadOnAir env x.attrib.encrypt (swKey sec x.attrib) x.attrib.hdrlen
          (header x.attrib x.mem g) (plain x.attrib x.mem g)) := by
      rw [xmitframeSwencrypt_aead he hsw]
      exact aeadLoop_fragment h hg
    rw [hholds.read_eq (length_aeadOnAir he hiv hicv hroom).symm, aeadOnAir, swKey_take he]
  have hcovered := hf.covered
  have hpn := hf.pn
  have hbody := hf.body
  rw [hair] at hcovered hpn hbody
  rw [← hhead, List.drop_left] at hbody
  have hroomRx : f.attrib.hdrlen + 8 ≤ f.len := by
    rw [hf.hdrlen, hf.length]
    omega
  have hheadRx : (headOf f).length = x.attrib.hdrlen + 8 := by
    rw [← hf.hdrlen]
    exact List.length_take_of_le hroomRx
  have hdata : f.data = headOf f ++ bodyOf f := (List.take_append_drop _ _).symm
  have hnonce : aadNonce env x.attrib.encrypt head (head.drop x.attrib.hdrlen) =
      aadNonce env x.attrib.encrypt (headOf f) ((headOf f).drop x.attrib.hdrlen) := by
    rw [← aadNonce_append h24 hhead body, ← aadNonce_append h24 hheadRx (bodyOf f), ← hdata]
    refine aadNonce_congr ?_ ?_ hcovered hpn
    · rw [List.length_append]
      omega
    · have hlen : f.data.length = g.size := hf.length
      omega
  refine (swDecrypt_iff env otherRx (hf.encrypt ▸ he) (hf.hdrlen ▸ h24)).mpr
    ⟨hroomRx, k, plain x.attrib x.mem g, hkey, ?_, rfl⟩
  rw [hf.encrypt, hf.hdrlen, hk, hbody]
  exact aeadBody_congr _ _ hnonce _

theorem heard_exists (m : Mem UInt8) (p : PktAttrib) (g : Fragment)
    (hkey : key.take (keyLen p.encrypt) = key) : ∃ a f, Heard env key p m g a f := by
  let psta : Recv.StaInfo :=
    { Recv.rtwAllocStainfo (Recv.hashAddr p.ta) with dot118021xUncstKey := key }
  let f : RecvFrame := { Recv.rtwInitRecvframe 0 with
    attrib := { Recv.RxPktAttrib.zero with encrypt := p.encrypt, hdrlen := p.hdrlen, ta := p.ta }
    data := read m g.start g.size }
  have hsta : Recv.rtwGetStainfo [psta] f.attrib.ta = some psta := by
    simp [Recv.rtwGetStainfo, psta, f, Recv.rtwAllocStainfo]
  have hra : Recv.isMcast (Vector.replicate 6 0) = false := by decide
  have hprwskey : prwskey { wepStation with stapriv := [psta] } f = some key := by
    rw [prwskey, hsta]
    simp [f, Recv.RxPktAttrib.zero, hra, psta]
  refine ⟨{ wepStation with stapriv := [psta] }, f, rfl, rfl, ⟨key, hprwskey, hkey⟩, ?_, ?_, rfl, rfl⟩
  · rw [RecvFrame.len, length_read]
  · exact ⟨rfl, rfl, rfl, fun _ => rfl, fun _ => rfl⟩

def keyed (f : RecvFrame) : RecvFrame :=
  { f with attrib := { f.attrib with keyIndex := Recv.ivKeyId f.iv } }

variable (env) in
def Accepted (a : Adapter) (f g : RecvFrame) : Prop :=
  f.attrib.hdrlen + 8 ≤ f.len ∧ ∃ k plain, prwskey a (keyed f) = some k ∧
    bodyOf f = aeadBody env f.attrib.encrypt (k.take (keyLen f.attrib.encrypt)) f.attrib.hdrlen
      (headOf f) plain ∧
    g = { f with
      data := headOf f ++ (plain ++ (bodyOf f).drop plain.length)
      attrib := { f.attrib with keyIndex := Recv.ivKeyId f.iv, bdecrypted := true } }

-- a frame shorter than its header is none of rtwCcmpDecrypt's
theorem decryptor_accepts_exactly (other : Crypto) {a : Adapter} {f g : RecvFrame}
    (he : aeadCipher f.attrib.encrypt = true) (h24 : 24 ≤ f.attrib.hdrlen)
    (_hlen : f.attrib.hdrlen ≤ f.len) (hsw : f.attrib.bdecrypted = false) :
    Recv.decryptor (aesCrypto env other) a f = some g ↔ Accepted env a f g := by
  have hprivacy : f.attrib.encrypt ≠ .noPrivacy := by
    intro hnone
    rw [hnone] at he
    cases he
  have hdec : Recv.decryptor (aesCrypto env other) a f =
      (swDecrypt (aesCrypto env other) a (keyed f)).map fun f =>
        { f with attrib := { f.attrib with bdecrypted := true } } := by
    unfold Recv.decryptor
    simp [hprivacy, hsw, keyed]
  have hiff (d : RecvFrame) := @swDecrypt_iff env other a (keyed f) d he h24
  rw [hdec, Option.map_eq_some_iff]
  constructor
  · rintro ⟨d, hd, rfl⟩
    obtain ⟨hroom, k, plain, hkey, hbody, rfl⟩ := (hiff d).mp hd
    exact ⟨hroom, k, plain, hkey, hbody, rfl⟩
  · rintro ⟨hroom, k, plain, hkey, hbody, rfl⟩
    exact ⟨_, (hiff _).mpr ⟨hroom, k, plain, hkey, hbody, rfl⟩, rfl⟩

def aesFragments (e : SecurityType) : XmitFrame where
  attrib := { PktAttrib.zero with
    encrypt := e, hdrlen := 26, ivLen := 8, icvLen := icvLength e, bswenc := true, nrFrags := 2,
    lastTxcmdsz := 64 }
  bufAddr := 0
  pktOffset := 1
  mem := fun i => UInt8.ofNat i

def aesEnv (spp : Bool) : AesEnv := ⟨aesEncrypt, spp⟩

theorem aead_round_trip_two : AeadRoundTrip (aesEnv false) idleCipher Crypto.rejecting
    Xmit.SecurityPriv.zero 256 (aesFragments .aes) :=
  aead_round_trip ⟨rfl, by decide, rfl, rfl, by decide, fun _ => by decide⟩ rfl _ _ _

def gcmpFrame : RecvFrame :=
  { Recv.rtwInitRecvframe 0 with
    attrib := { Recv.RxPktAttrib.zero with encrypt := .gcmp, hdrlen := 24 }
    data := List.replicate 60 0 }

theorem decryptor_accepts_exactly_gcmp :
    Recv.decryptor (aesCrypto (aesEnv false) Crypto.rejecting) wepStation gcmpFrame = some gcmpFrame ↔
      Accepted (aesEnv false) wepStation gcmpFrame gcmpFrame :=
  decryptor_accepts_exactly _ rfl (by decide) (by decide) rfl

end Sec
