import Rtl8188fu.Sec.Gcm

namespace Sec

def getLe16 (bs : List UInt8) (i : ℕ) : UInt16 :=
  (bs.getD (i + 1) 0).toUInt16 <<< 8 ||| (bs.getD i 0).toUInt16

def putLe16 (v : UInt16) : List UInt8 := [v.toUInt8, (v >>> 8).toUInt8]

def hdrFc (hdr : List UInt8) : UInt16 := getLe16 hdr 0

def fourAddr (fc : UInt16) : Bool := fc &&& 0x0300 = 0x0300

def isData (fc : UInt16) : Bool := fc &&& 0x000c = 0x0008

def isQosData (fc : UInt16) : Bool := isData fc && fc &&& 0x00f0 &&& 0x0080 ≠ 0

def qosAt (hdr : List UInt8) : ℕ := if fourAddr (hdrFc hdr) then 30 else 24

def aadFc (fc : UInt16) : UInt16 :=
  let masked := if isData fc then fc &&& ~~~0x0070 else fc
  let masked := if isQosData fc then masked &&& ~~~0x8000 else masked
  masked &&& ~~~(0x0800 ||| 0x1000 ||| 0x2000)

def aadQos (spp : Bool) (hdr : List UInt8) : List UInt8 :=
  let qc := hdr.getD (qosAt hdr) 0 &&& ~~~0x70
  [if spp then qc else qc &&& ~~~0x80, 0]

def frameAad (iswep spp : Bool) (hdr : List UInt8) : List UInt8 :=
  let fc := aadFc (hdrFc hdr)
  putLe16 (if iswep then fc ||| 0x4000 else fc) ++ (hdr.drop 4).take 18 ++
    putLe16 (getLe16 hdr 22 &&& ~~~0xfff0) ++
    (if fourAddr (hdrFc hdr) then (hdr.drop 24).take 6 else []) ++
    if isQosData (hdrFc hdr) then aadQos spp hdr else []

def addr2 (hdr : List UInt8) : List UInt8 := (hdr.drop 10).take 6

def pnBytes (data : List UInt8) : List UInt8 := [7, 6, 5, 4, 1, 0].map fun i => data.getD i 0

def ccmpFlags (hdr : List UInt8) : UInt8 :=
  let fc := hdrFc hdr
  if isData fc then
    if isQosData fc then hdr.getD (qosAt hdr) 0 &&& 0x0f else 0
  else if fc &&& 0x000c = 0x0000 then 0x10 else 0

structure AadNonce where
  aad : List UInt8
  nonce : List UInt8

def ccmpAadNonce (spp : Bool) (hdr data : List UInt8) : AadNonce where
  aad := frameAad true spp hdr
  nonce := ccmpFlags hdr :: addr2 hdr ++ pnBytes data

def gcmpAadNonce (spp : Bool) (hdr data : List UInt8) : AadNonce where
  aad := frameAad false spp hdr
  nonce := addr2 hdr ++ pnBytes data

def pnHeader (pn : Vector UInt8 6) (keyid : ℕ) : List UInt8 :=
  [pn.get 5, pn.get 4, 0, (0x20 : UInt8) ||| UInt8.ofNat keyid <<< 6, pn.get 3, pn.get 2, pn.get 1, pn.get 0]

def setIswep (hdr : List UInt8) : List UInt8 := hdr.modify 1 (· ||| 0x40)

structure Cleartext where
  crypt : List UInt8
  pdata : List UInt8

def cleartext (mark : List UInt8 → List UInt8) (frame : List UInt8) (hdrlen : ℕ)
    (pn : Option (Vector UInt8 6)) (keyid : ℕ) : Cleartext :=
  match pn with
  | none => ⟨mark (frame.take (hdrlen + 8)), frame.drop (hdrlen + 8)⟩
  | some pn => ⟨mark (frame.take hdrlen) ++ pnHeader pn keyid, frame.drop hdrlen⟩

section Frames

variable (aesEncrypt : Block → Block) (spp : Bool)

def ccmpDecryptWith (m : ℕ) (hdr data : List UInt8) : Option (List UInt8) :=
  if data.length < 8 + m then none
  else
    let mlen := data.length - 8 - m
    let an := ccmpAadNonce spp hdr data
    aesCcmAd aesEncrypt m an.nonce ((data.drop 8).take mlen) an.aad (data.drop (8 + mlen))

def ccmpDecrypt (hdr data : List UInt8) : Option (List UInt8) :=
  ccmpDecryptWith aesEncrypt spp 8 hdr data

def ccmp256Decrypt (hdr data : List UInt8) : Option (List UInt8) :=
  ccmpDecryptWith aesEncrypt spp 16 hdr data

def ccmpEncryptWith (m : ℕ) (frame : List UInt8) (len hdrlen : ℕ) (pn : Option (Vector UInt8 6))
    (keyid : ℕ) : Option (List UInt8) :=
  if len < hdrlen ∨ hdrlen < 24 then none
  else
    let plen := len - hdrlen
    let c := cleartext setIswep frame hdrlen pn keyid
    let an := ccmpAadNonce spp c.crypt (c.crypt.drop hdrlen)
    (aesCcmAe aesEncrypt m an.nonce (c.pdata.take plen) an.aad).map fun r => c.crypt ++ r.1 ++ r.2

def ccmpEncrypt (frame : List UInt8) (len hdrlen : ℕ) (pn : Option (Vector UInt8 6)) (keyid : ℕ) :
    Option (List UInt8) :=
  ccmpEncryptWith aesEncrypt spp 8 frame len hdrlen pn keyid

def ccmp256Encrypt (frame : List UInt8) (len hdrlen : ℕ) (pn : Option (Vector UInt8 6))
    (keyid : ℕ) : Option (List UInt8) :=
  ccmpEncryptWith aesEncrypt spp 16 frame len hdrlen pn keyid

def gcmpDecrypt (hdr data : List UInt8) : Option (List UInt8) :=
  if data.length < 8 + 16 then none
  else
    let mlen := data.length - 8 - 16
    let an := gcmpAadNonce spp hdr data
    aesGcmAd aesEncrypt an.nonce ((data.drop 8).take mlen) an.aad (data.drop (8 + mlen))

def gcmpEncrypt (frame : List UInt8) (len hdrlen : ℕ) (pn : Option (Vector UInt8 6)) (keyid : ℕ) :
    Option (List UInt8) :=
  if len < hdrlen ∨ hdrlen < 24 then none
  else
    let plen := len - hdrlen
    let c := cleartext id frame hdrlen pn keyid
    let an := gcmpAadNonce spp c.crypt (c.crypt.drop hdrlen)
    let r := aesGcmAe aesEncrypt an.nonce (c.pdata.take plen) an.aad
    some (c.crypt ++ r.1 ++ r.2)

end Frames

theorem or_eq_or {x y c : UInt16} : x ||| c = y ||| c ↔ x &&& ~~~c = y &&& ~~~c := by
  simp only [← UInt16.toBitVec_inj, UInt16.toBitVec_or, UInt16.toBitVec_and, UInt16.toBitVec_not]
  constructor
  · intro h
    refine BitVec.eq_of_getElem_eq fun i hi => ?_
    have hbit := congrArg (fun v => v[i]) h
    simp only [BitVec.getElem_or, BitVec.getElem_and, BitVec.getElem_not] at hbit ⊢
    grind
  · intro h
    refine BitVec.eq_of_getElem_eq fun i hi => ?_
    have hbit := congrArg (fun v => v[i]) h
    simp only [BitVec.getElem_or, BitVec.getElem_and, BitVec.getElem_not] at hbit ⊢
    grind

theorem putLe16_inj {v w : UInt16} : putLe16 v = putLe16 w ↔ v = w := by
  constructor
  · intro h
    obtain ⟨hlow, hhigh⟩ : v.toUInt8 = w.toUInt8 ∧ (v >>> 8).toUInt8 = (w >>> 8).toUInt8 := by
      simpa [putLe16] using h
    have hlow' := congrArg UInt8.toNat hlow
    have hhigh' := congrArg UInt8.toNat hhigh
    have hv := v.toNat_lt
    have hw := w.toNat_lt
    simp [Nat.shiftRight_eq_div_pow] at hlow' hhigh'
    refine UInt16.toNat_inj.mp ?_
    omega
  · rintro rfl
    rfl

@[simp] theorem length_putLe16 (v : UInt16) : (putLe16 v).length = 2 := rfl

def fcMask (fc : UInt16) : UInt16 :=
  if isQosData fc then 0x478f else if isData fc then 0xc78f else 0xc7ff

def fcCovered (iswep : Bool) (fc : UInt16) : UInt16 :=
  if iswep then fcMask fc &&& ~~~0x4000 else fcMask fc

def qosMask (spp : Bool) : UInt8 := if spp then 0x8f else 0x0f

structure Covered (iswep spp : Bool) (h h' : List UInt8) : Prop where
  fc : hdrFc h &&& fcCovered iswep (hdrFc h) = hdrFc h' &&& fcCovered iswep (hdrFc h')
  addrs : (h.drop 4).take 18 = (h'.drop 4).take 18
  frag : getLe16 h 22 &&& 0x000f = getLe16 h' 22 &&& 0x000f
  addr4 : fourAddr (hdrFc h) = true → (h.drop 24).take 6 = (h'.drop 24).take 6
  qos : isQosData (hdrFc h) = true →
    h.getD (qosAt h) 0 &&& qosMask spp = h'.getD (qosAt h) 0 &&& qosMask spp

section Coverage

variable {iswep spp : Bool} {fc fc' : UInt16} {h h' data data' : List UInt8}

theorem isData_of_isQosData (hq : isQosData fc = true) : isData fc = true :=
  (Bool.and_eq_true_iff.mp hq).1

theorem aadFc_eq (fc : UInt16) : aadFc fc = fc &&& fcMask fc := by
  unfold aadFc fcMask
  cases hq : isQosData fc with
  | true =>
    simp only [isData_of_isQosData hq, if_true, UInt16.and_assoc]
    rfl
  | false =>
    cases hd : isData fc with
    | true =>
      simp only [Bool.false_eq_true, if_true, if_false, UInt16.and_assoc]
      rfl
    | false => rfl

theorem aadFc_marked : ((if iswep then aadFc fc ||| 0x4000 else aadFc fc) =
    if iswep then aadFc fc' ||| 0x4000 else aadFc fc') ↔
      fc &&& fcCovered iswep fc = fc' &&& fcCovered iswep fc' := by
  rw [aadFc_eq, aadFc_eq]
  cases iswep with
  | true =>
    simp only [fcCovered, if_true]
    rw [or_eq_or, UInt16.and_assoc, UInt16.and_assoc]
  | false => rfl

theorem fcCovered_kind (iswep : Bool) (fc : UInt16) : fcCovered iswep fc &&& 0x038c = 0x038c := by
  have hall : ∀ i q d : Bool,
      (if i then (if q then (0x478f : UInt16) else if d then 0xc78f else 0xc7ff) &&& ~~~0x4000
        else if q then 0x478f else if d then 0xc78f else 0xc7ff) &&& 0x038c = 0x038c := by decide
  exact hall iswep (isQosData fc) (isData fc)

theorem kind_eq (hfc : fc &&& fcCovered iswep fc = fc' &&& fcCovered iswep fc') :
    fc &&& 0x038c = fc' &&& 0x038c := by
  have hand := congrArg (· &&& (0x038c : UInt16)) hfc
  simpa only [UInt16.and_assoc, fcCovered_kind] using hand

theorem kinds_eq (hkind : fc &&& 0x038c = fc' &&& 0x038c) (mask : UInt16)
    (hmask : (0x038c : UInt16) &&& mask = mask) : fc &&& mask = fc' &&& mask := by
  rw [← hmask, ← UInt16.and_assoc, ← UInt16.and_assoc, hkind]

theorem fourAddr_eq (hkind : fc &&& 0x038c = fc' &&& 0x038c) : fourAddr fc = fourAddr fc' := by
  rw [fourAddr, fourAddr, kinds_eq hkind _ rfl]

theorem isData_eq (hkind : fc &&& 0x038c = fc' &&& 0x038c) : isData fc = isData fc' := by
  rw [isData, isData, kinds_eq hkind _ rfl]

theorem isQosData_eq (hkind : fc &&& 0x038c = fc' &&& 0x038c) : isQosData fc = isQosData fc' := by
  rw [isQosData, isQosData, isData_eq hkind, UInt16.and_assoc, UInt16.and_assoc,
    kinds_eq hkind _ rfl]

theorem aadQos_eq : aadQos spp h = [h.getD (qosAt h) 0 &&& qosMask spp, 0] := by
  unfold aadQos qosMask
  cases spp with
  | true => rfl
  | false =>
    simp only [Bool.false_eq_true, if_false, UInt8.and_assoc]
    rfl

theorem frameAad_eq_iff (hlen : 32 ≤ h.length) (hlen' : 32 ≤ h'.length) :
    frameAad iswep spp h = frameAad iswep spp h' ↔ Covered iswep spp h h' := by
  have hfcs := @aadFc_marked iswep (hdrFc h) (hdrFc h')
  have haddrs (g : List UInt8) (hg : 32 ≤ g.length) : ((g.drop 4).take 18).length = 18 := by
    rw [List.length_take, List.length_drop]
    omega
  have haddr4 (g : List UInt8) (hg : 32 ≤ g.length) : ((g.drop 24).take 6).length = 6 := by
    rw [List.length_take, List.length_drop]
    omega
  unfold frameAad
  dsimp only
  constructor
  · intro heq
    simp only [List.append_assoc] at heq
    obtain ⟨hfc, heq⟩ := List.append_inj heq (by rw [length_putLe16, length_putLe16])
    obtain ⟨ha, heq⟩ := List.append_inj heq (by rw [haddrs h hlen, haddrs h' hlen'])
    obtain ⟨hseq, heq⟩ := List.append_inj heq (by rw [length_putLe16, length_putLe16])
    have hfc := hfcs.mp (putLe16_inj.mp hfc)
    have hkind := kind_eq hfc
    rw [← fourAddr_eq hkind, ← isQosData_eq hkind] at heq
    obtain ⟨h4, hq⟩ := List.append_inj heq (by
      cases fourAddr (hdrFc h) with
      | true => exact (haddr4 h hlen).trans (haddr4 h' hlen').symm
      | false => rfl)
    refine ⟨hfc, ha, putLe16_inj.mp hseq, fun hon => ?_, fun hon => ?_⟩
    · rwa [hon, if_pos rfl, if_pos rfl] at h4
    · rw [hon, if_pos rfl, if_pos rfl, aadQos_eq, aadQos_eq, qosAt, qosAt, ← fourAddr_eq hkind] at hq
      exact (List.cons.inj hq).1
  · intro hc
    have hkind := kind_eq hc.fc
    have hat : qosAt h' = qosAt h := by rw [qosAt, qosAt, fourAddr_eq hkind]
    rw [hfcs.mpr hc.fc, hc.addrs, ← fourAddr_eq hkind, ← isQosData_eq hkind, aadQos_eq, aadQos_eq, hat]
    have hfrag : getLe16 h 22 &&& ~~~0xfff0 = getLe16 h' 22 &&& ~~~0xfff0 := hc.frag
    rw [hfrag]
    refine congrArg₂ _ (congrArg _ ?_) ?_
    · cases h4 : fourAddr (hdrFc h) with
      | true => rw [if_pos rfl, if_pos rfl, hc.addr4 h4]
      | false => rfl
    · cases hq : isQosData (hdrFc h) with
      | true => rw [if_pos rfl, if_pos rfl, hc.qos hq]
      | false => rfl

theorem addr2_slice (g : List UInt8) : addr2 g = (((g.drop 4).take 18).drop 6).take 6 := by
  rw [addr2, List.drop_take, List.drop_drop, List.take_take]
  rfl

theorem Covered.ccmpFlags (hc : Covered iswep spp h h') : ccmpFlags h = ccmpFlags h' := by
  have hkind := kind_eq hc.fc
  unfold Sec.ccmpFlags
  dsimp only
  rw [← isData_eq hkind, ← isQosData_eq hkind, ← kinds_eq hkind 0x000c rfl, qosAt, qosAt,
    ← fourAddr_eq hkind, ← qosAt]
  cases hq : isQosData (hdrFc h) with
  | true =>
    have hlow := congrArg (· &&& (0x0f : UInt8)) (hc.qos hq)
    have hmask : qosMask spp &&& 0x0f = 0x0f := by cases spp <;> rfl
    simp only [UInt8.and_assoc, hmask] at hlow
    rw [hlow]
  | false => rfl

theorem Covered.addr2 (hc : Covered iswep spp h h') : addr2 h = addr2 h' := by
  rw [addr2_slice, addr2_slice, hc.addrs]

theorem ccmpAadNonce_eq_iff (hlen : 32 ≤ h.length) (hlen' : 32 ≤ h'.length) :
    ccmpAadNonce spp h data = ccmpAadNonce spp h' data' ↔
      Covered true spp h h' ∧ pnBytes data = pnBytes data' := by
  unfold ccmpAadNonce
  rw [AadNonce.mk.injEq, frameAad_eq_iff hlen hlen']
  refine and_congr_right fun hc => ?_
  rw [hc.ccmpFlags, hc.addr2, List.cons_append, List.cons_append, List.cons.injEq, and_iff_right rfl,
    List.append_right_inj]

theorem gcmpAadNonce_eq_iff (hlen : 32 ≤ h.length) (hlen' : 32 ≤ h'.length) :
    gcmpAadNonce spp h data = gcmpAadNonce spp h' data' ↔
      Covered false spp h h' ∧ pnBytes data = pnBytes data' := by
  unfold gcmpAadNonce
  rw [AadNonce.mk.injEq, frameAad_eq_iff hlen hlen']
  refine and_congr_right fun hc => ?_
  rw [hc.addr2, List.append_right_inj]

theorem authenticated_fields (spp : Bool) {h h' data data' : List UInt8} (hlen : 32 ≤ h.length)
    (hlen' : 32 ≤ h'.length) :
    (ccmpAadNonce spp h data = ccmpAadNonce spp h' data' ↔
        Covered true spp h h' ∧ pnBytes data = pnBytes data') ∧
      (gcmpAadNonce spp h data = gcmpAadNonce spp h' data' ↔
        Covered false spp h h' ∧ pnBytes data = pnBytes data') :=
  ⟨ccmpAadNonce_eq_iff hlen hlen', gcmpAadNonce_eq_iff hlen hlen'⟩

theorem authenticated_fields_retry :
    (ccmpAadNonce false (0x88 :: 0x49 :: List.replicate 32 0) [] =
        ccmpAadNonce false (0x88 :: 0x41 :: List.replicate 32 0) [] ↔
        Covered true false (0x88 :: 0x49 :: List.replicate 32 0)
          (0x88 :: 0x41 :: List.replicate 32 0) ∧ pnBytes [] = pnBytes []) ∧
      (gcmpAadNonce false (0x88 :: 0x49 :: List.replicate 32 0) [] =
        gcmpAadNonce false (0x88 :: 0x41 :: List.replicate 32 0) [] ↔
        Covered false false (0x88 :: 0x49 :: List.replicate 32 0)
          (0x88 :: 0x41 :: List.replicate 32 0) ∧ pnBytes [] = pnBytes []) :=
  authenticated_fields false (by decide) (by decide)

end Coverage

end Sec
