import Rtl8188fu.Xmit.Attrib

namespace Xmit

open Recv (MacAddr SecurityType byteAt le16 isMcast getFrameSubType wifiAction wifiDeauth wifiDisassoc
  categoryIsGroupPrivacy categoryIsNonRobust categoryIsRobust actionCategory bipMicLen bipMmeOffset
  bipAad mmeIpn rtwBipVerify Crypto)

structure BipMac where
  omac1 : (keyLen : ℕ) → (key data : List UInt8) → Option (Vector UInt8 16)
  gmac : (keyLen : ℕ) → (key nonce data : List UInt8) → Option (Vector UInt8 16)

def gmacNonce (whdrPos : List UInt8) (len : ℕ) : List UInt8 :=
  (whdrPos.drop 10).take 6 ++ ((whdrPos.drop (len - 22)).take 6).reverse

def rtwCalculateBipMic (m : BipMac) (gmcs : SecurityType) (whdrPos : List UInt8) (len : ℕ)
    (key data : List UInt8) : Option (List UInt8) :=
  match gmcs with
  | .bipCmac128 => (m.omac1 16 (key.take 16) data).map Vector.toList
  | .bipCmac256 => (m.omac1 32 (key.take 32) data).map Vector.toList
  | .bipGmac128 => (m.gmac 16 (key.take 16) (gmacNonce whdrPos len) data).map Vector.toList
  | .bipGmac256 => (m.gmac 32 (key.take 32) (gmacNonce whdrPos len) data).map Vector.toList
  | _ => none

def rtwSetIe (pframe : List UInt8) (index : UInt8) (len : ℕ) (source : List UInt8) : List UInt8 :=
  pframe ++ [index, UInt8.ofNat len] ++ source.take len

def mmeCont (keyid txpn : ℕ) : List UInt8 :=
  [UInt8.ofNat keyid, 0] ++ (List.range 8).map (tsc txpn) ++ List.replicate 14 0

def bipTxAad (pframe : List UInt8) : List UInt8 :=
  [pframe.getD 0 0, pframe.getD 1 0 &&& 0xc7] ++ (pframe.drop 4).take 18 ++ pframe.drop 24

structure MgmtCtx where
  sec : SecurityPriv
  psta : Option StaInfo
  bcmc : Option StaInfo

structure MgmtXmit where
  ctx : MgmtCtx
  attrib : PktAttrib
  frame : List UInt8
  res : Bool

def bipProtect (m : BipMac) (c : MgmtCtx) (p : PktAttrib) (frame : List UInt8) : MgmtXmit :=
  let sec := c.sec
  let txpn := (sec.dot11wBipTxpn + 1) % 2 ^ 64
  let c := { c with sec := { sec with dot11wBipTxpn := txpn } }
  let mmeClen := if sec.dot11wCipher = .bipCmac128 then 16 else 24
  let frame := rtwSetIe frame 76 mmeClen (mmeCont sec.dot11wBipKeyid txpn)
  let p := { p with pktlen := frame.length, lastTxcmdsz := frame.length }
  match rtwCalculateBipMic m sec.dot11wCipher frame frame.length
      (sec.dot11wBipKey sec.dot11wBipKeyid) (bipTxAad frame) with
  | none => ⟨c, p, frame, false⟩
  | some mic =>
    let micLen := bipMicLen sec.dot11wCipher
    ⟨c, p, frame.take (frame.length - micLen) ++ mic.take micLen, true⟩

def mgmtLens : SecurityType → Option (ℕ × ℕ)
  | .aes => some (8, 8)
  | .ccmp256 | .gcmp | .gcmp256 => some (8, 16)
  | _ => none

structure MgmtEncrypted where
  pn : ℕ
  attrib : PktAttrib
  frame : List UInt8
  res : Bool

def setPrivacy (frame : List UInt8) : List UInt8 := frame.modify 1 (· ||| 0x40)

def mgmtEncrypt (swencrypt : PktAttrib → List UInt8 → List UInt8) (cipher : SecurityType)
    (pn kid : ℕ) (p : PktAttrib) (frame : List UInt8) : MgmtEncrypted :=
  let p := if p.keyType ≠ .noKey then { p with encrypt := cipher, bswenc := true } else p
  match mgmtLens p.encrypt with
  | none => ⟨pn, p, frame, false⟩
  | some (ivLen, icvLen) =>
    let pn := nextPn 0xffffffffffff pn
    let p := { p with ivLen := ivLen, icvLen := icvLen, iv := aesIv pn kid }
    let tail := if p.bswenc then p.icv.toList.take icvLen else []
    let pktlen := frame.length + ivLen + icvLen
    let p := { p with pktlen := pktlen, lastTxcmdsz := pktlen }
    let frame := setPrivacy (frame.take p.hdrlen ++ p.iv ++ frame.drop p.hdrlen ++ tail)
    ⟨pn, p, if p.bswenc then swencrypt p frame else frame, true⟩

def uncstMgmtKey (psta : StaInfo) (p : PktAttrib) : List UInt8 :=
  let key := memcpyKey p.uncstKey psta.dot118021xUncstKey (keyLen psta.dot118021XPrivacy)
  if p.keyType = .wrongKey then key.set 0 0xff else key

def rtwMgmtXmitframeCoalesce (m : BipMac) (swencrypt : PktAttrib → List UInt8 → List UInt8)
    (zmalloc : Bool) (c : MgmtCtx) (p : PktAttrib) (frame : List UInt8) : MgmtXmit :=
  let subtype := getFrameSubType frame
  let category := actionCategory frame
  if subtype ≠ wifiDeauth ∧ subtype ≠ wifiDisassoc ∧ subtype ≠ wifiAction then ⟨c, p, frame, true⟩
  else if subtype = wifiAction ∧ categoryIsNonRobust category = true then ⟨c, p, frame, true⟩
  else if isMcast p.ra then
    if !zmalloc then ⟨c, p, frame, false⟩
    else if subtype = wifiAction ∧ categoryIsGroupPrivacy category = true then
      match c.bcmc with
      | none => ⟨c, p, frame, false⟩
      | some psta =>
        if !c.sec.binstallGrpkey then ⟨c, p, frame, false⟩
        else
          let r := mgmtEncrypt swencrypt c.sec.dot118021XGrpPrivacy psta.dot11txpn
            c.sec.dot118021XGrpKeyid p frame
          ⟨{ c with bcmc := some { psta with dot11txpn := r.pn } }, r.attrib, r.frame, r.res⟩
    else if !c.sec.binstallBipKey then ⟨c, p, frame, true⟩
    else bipProtect m c p frame
  else
    match c.psta with
    | none => ⟨c, p, frame, false⟩
    | some psta =>
      if !psta.mfp then ⟨c, p, frame, true⟩
      else if !psta.bpairwiseKeyInstalled then ⟨c, p, frame, false⟩
      else if !zmalloc then ⟨c, p, frame, false⟩
      else
        let r := mgmtEncrypt swencrypt psta.dot118021XPrivacy psta.dot11txpn 0
          { p with uncstKey := uncstMgmtKey psta p } frame
        ⟨{ c with psta := some { psta with dot11txpn := r.pn } }, r.attrib, r.frame, r.res⟩

theorem slice_append {xs : List UInt8} {i n : ℕ} (h : i + n ≤ xs.length) (ys : List UInt8) :
    ((xs ++ ys).drop i).take n = (xs.drop i).take n := by
  rw [List.drop_append_of_le_length (by omega), List.take_append_of_le_length]
  rw [List.length_drop]
  omega

def BipMac.verifier (m : BipMac) : Crypto :=
  { Crypto.rejecting with calculateBipMic := rtwCalculateBipMic m }

theorem verifier_calculateBipMic (m : BipMac) :
    m.verifier.calculateBipMic = rtwCalculateBipMic m :=
  rfl

def SameButFlags (g g' : List UInt8) : Prop :=
  ∃ a b b' rest, g = a :: b :: rest ∧ g' = a :: b' :: rest ∧ b' &&& 0xc7 = b &&& 0xc7

theorem bipAad_flags {gmcs : SecurityType} {g g' : List UInt8} (h : SameButFlags g g') :
    bipAad gmcs g' = bipAad gmcs g := by
  obtain ⟨a, b, b', rest, rfl, rfl, hflags⟩ := h
  simp [bipAad, hflags]

theorem rtwCalculateBipMic_flags {m : BipMac} {gmcs : SecurityType} {g g' : List UInt8} {len : ℕ}
    (hlen : 24 ≤ len) (h : SameButFlags g g') (key data : List UInt8) :
    rtwCalculateBipMic m gmcs g' len key data = rtwCalculateBipMic m gmcs g len key data := by
  obtain ⟨a, b, b', rest, rfl, rfl, -⟩ := h
  have hnonce : gmacNonce (a :: b' :: rest) len = gmacNonce (a :: b :: rest) len := by
    obtain ⟨n, rfl⟩ := Nat.exists_eq_add_of_le hlen
    rw [gmacNonce, gmacNonce, show 24 + n - 22 = n + 2 by omega]
    rfl
  unfold rtwCalculateBipMic
  rw [hnonce]

theorem rtwBipVerify_flags {m : BipMac} {gmcs : SecurityType} {g g' : List UInt8} {len : ℕ}
    (hlen : 24 ≤ len) (hmme : bipMmeOffset gmcs + 2 ≤ g.length) (h : SameButFlags g g')
    (key : List UInt8) (keyid ipn : ℕ) :
    rtwBipVerify m.verifier gmcs len g' key keyid ipn =
      rtwBipVerify m.verifier gmcs len g key keyid ipn := by
  have haad := @bipAad_flags gmcs _ _ h
  have hmic := @rtwCalculateBipMic_flags m gmcs _ _ _ hlen h
  have hsame (n : ℕ) (hn : 2 ≤ n) : g'.length = g.length ∧ g'.drop n = g.drop n := by
    obtain ⟨a, b, b', rest, rfl, rfl, -⟩ := h
    obtain ⟨n, rfl⟩ := Nat.exists_eq_add_of_le hn
    rw [Nat.add_comm 2 n]
    exact ⟨rfl, rfl⟩
  have hoffset : bipMicLen gmcs ≤ bipMmeOffset gmcs := by
    unfold bipMmeOffset bipMicLen
    split <;> simp
  unfold rtwBipVerify
  dsimp only
  rw [(hsame 2 le_rfl).1, (hsame (g.length - bipMmeOffset gmcs) (by omega)).2,
    (hsame (g.length - bipMicLen gmcs) (by omega)).2, haad, verifier_calculateBipMic, hmic]

def mmePrefix (gmcs : SecurityType) (keyid txpn : ℕ) : List UInt8 :=
  [76, UInt8.ofNat (bipMicLen gmcs + 8), UInt8.ofNat keyid, 0, tsc txpn 0, tsc txpn 1, tsc txpn 2,
    tsc txpn 3, tsc txpn 4, tsc txpn 5]

theorem bipMicLen_cases (gmcs : SecurityType) :
    gmcs = .bipCmac128 ∧ bipMicLen gmcs = 8 ∧ bipMmeOffset gmcs = 18 ∨
      gmcs ≠ .bipCmac128 ∧ bipMicLen gmcs = 16 ∧ bipMmeOffset gmcs = 26 := by
  cases Decidable.em (gmcs = .bipCmac128) with
  | inl h =>
    subst h
    exact .inl ⟨rfl, rfl, rfl⟩
  | inr h => exact .inr ⟨h, by simp [bipMicLen, h], by simp [bipMmeOffset, bipMicLen, h]⟩

theorem rtwSetIe_mme (gmcs : SecurityType) (frame : List UInt8) (keyid : ℕ) {txpn : ℕ}
    (hpn : txpn < 2 ^ 48) :
    rtwSetIe frame 76 (if gmcs = .bipCmac128 then 16 else 24) (mmeCont keyid txpn) =
      frame ++ mmePrefix gmcs keyid txpn ++ List.replicate (bipMicLen gmcs) 0 := by
  have h6 : tsc txpn 6 = 0 := by
    rw [tsc, Nat.div_eq_of_lt (by omega)]
    rfl
  have h7 : tsc txpn 7 = 0 := by
    rw [tsc, Nat.div_eq_of_lt (by omega)]
    rfl
  have hrange : (List.range 8).map (tsc txpn) = [tsc txpn 0, tsc txpn 1, tsc txpn 2, tsc txpn 3,
      tsc txpn 4, tsc txpn 5, 0, 0] := by
    change [tsc txpn 0, tsc txpn 1, tsc txpn 2, tsc txpn 3, tsc txpn 4, tsc txpn 5, tsc txpn 6,
      tsc txpn 7] = _
    rw [h6, h7]
  unfold rtwSetIe mmeCont mmePrefix
  rw [hrange]
  rcases bipMicLen_cases gmcs with ⟨hg, hmic, -⟩ | ⟨hg, hmic, -⟩
  · rw [if_pos hg, hmic]
    simp
  · rw [if_neg hg, hmic]
    simp

theorem mmeIpn_prefix (gmcs : SecurityType) (keyid : ℕ) {txpn : ℕ} (hpn : txpn < 2 ^ 48)
    (mic : List UInt8) : mmeIpn (mmePrefix gmcs keyid txpn ++ mic) = txpn :=
  tsc_sum hpn

theorem bipTxAad_eq {gmcs : SecurityType} {frame : List UInt8} (hlen : 24 ≤ frame.length)
    (keyid txpn : ℕ) {mic : List UInt8} (hmic : mic.length = bipMicLen gmcs) :
    bipTxAad (frame ++ mmePrefix gmcs keyid txpn ++ List.replicate (bipMicLen gmcs) 0) =
      bipAad gmcs (frame ++ mmePrefix gmcs keyid txpn ++ mic) := by
  obtain ⟨a, b, rest, rfl⟩ : ∃ a b rest, frame = a :: b :: rest := by
    match frame, hlen with
    | a :: b :: rest, _ => exact ⟨a, b, rest, rfl⟩
  have hrest : 22 ≤ rest.length := by simpa using hlen
  generalize hpre : mmePrefix gmcs keyid txpn = pre
  have hdrop (tail : List UInt8) : ((a :: b :: rest) ++ pre ++ tail).drop 24 =
      rest.drop 22 ++ pre ++ tail := by
    simp [List.drop_append_of_le_length, hrest]
  have haddr (tail : List UInt8) : (((a :: b :: rest) ++ pre ++ tail).drop 4).take 18 =
      (rest.drop 2).take 18 := by
    rw [List.append_assoc, slice_append (by simp; omega)]
    rfl
  have hbody : (rest.drop 22 ++ pre ++ mic).take
      (((a :: b :: rest) ++ pre ++ mic).length - 24 - bipMicLen gmcs) = rest.drop 22 ++ pre := by
    refine List.take_left' ?_
    simp
    omega
  unfold bipTxAad bipAad
  rw [hdrop, hdrop, haddr, haddr, hbody]
  simp

theorem gmacNonce_eq {frame pre : List UInt8} (hlen : 24 ≤ frame.length) (hpre : pre.length = 10)
    {mic mic' : List UInt8} (hmic : mic.length = 16) (hmic' : mic'.length = 16) :
    gmacNonce (frame ++ pre ++ mic) (frame ++ pre ++ mic).length =
      gmacNonce (frame ++ pre ++ mic') (frame ++ pre ++ mic').length := by
  have hfirst (tail : List UInt8) : ((frame ++ pre ++ tail).drop 10).take 6 =
      (frame.drop 10).take 6 := by
    rw [List.append_assoc, slice_append (by omega)]
  have hipn {tail : List UInt8} (htail : tail.length = 16) :
      ((frame ++ pre ++ tail).drop ((frame ++ pre ++ tail).length - 22)).take 6 =
        (pre.drop 4).take 6 := by
    have hat : (frame ++ pre ++ tail).length - 22 = frame.length + 4 := by
      simp only [List.length_append, hpre, htail]
      omega
    rw [hat, List.append_assoc, List.drop_append, List.drop_of_length_le (by omega),
      List.nil_append, Nat.add_sub_cancel_left, slice_append (by omega)]
  rw [gmacNonce, gmacNonce, hfirst, hfirst, hipn hmic, hipn hmic']

theorem rtwCalculateBipMic_length {m : BipMac} {gmcs : SecurityType} {whdrPos key data mic : List UInt8}
    {len : ℕ} (h : rtwCalculateBipMic m gmcs whdrPos len key data = some mic) : mic.length = 16 := by
  unfold rtwCalculateBipMic at h
  split at h
  · obtain ⟨v, -, rfl⟩ := Option.map_eq_some_iff.mp h
    exact v.length_toList
  · obtain ⟨v, -, rfl⟩ := Option.map_eq_some_iff.mp h
    exact v.length_toList
  · obtain ⟨v, -, rfl⟩ := Option.map_eq_some_iff.mp h
    exact v.length_toList
  · obtain ⟨v, -, rfl⟩ := Option.map_eq_some_iff.mp h
    exact v.length_toList
  · cases h

theorem rtwCalculateBipMic_eq {m : BipMac} {gmcs : SecurityType} {frame pre : List UInt8}
    (hlen : 24 ≤ frame.length) (hpre : pre.length = 10) {mic mic' : List UInt8}
    (hmic : mic.length = bipMicLen gmcs) (hmic' : mic'.length = bipMicLen gmcs)
    (key data : List UInt8) :
    rtwCalculateBipMic m gmcs (frame ++ pre ++ mic) (frame ++ pre ++ mic).length key data =
      rtwCalculateBipMic m gmcs (frame ++ pre ++ mic') (frame ++ pre ++ mic').length key data := by
  rcases bipMicLen_cases gmcs with ⟨rfl, -, -⟩ | ⟨-, h16, -⟩
  · rfl
  · rw [h16] at hmic hmic'
    unfold rtwCalculateBipMic
    rw [gmacNonce_eq hlen hpre hmic hmic']

def BipFrame (m : BipMac) (gmcs : SecurityType) (key frame : List UInt8) (keyid txpn : ℕ)
    (g : List UInt8) : Prop :=
  ∃ mic, mic.length = bipMicLen gmcs ∧ g = frame ++ mmePrefix gmcs keyid txpn ++ mic ∧
    ∃ full, rtwCalculateBipMic m gmcs g g.length key (bipAad gmcs g) = some full ∧
      full.take (bipMicLen gmcs) = mic

theorem bipProtect_frame {m : BipMac} {c : MgmtCtx} {p : PktAttrib} {frame : List UInt8}
    (hlen : 24 ≤ frame.length) (hpn : c.sec.dot11wBipTxpn + 1 < 2 ^ 48)
    (hres : (bipProtect m c p frame).res = true) :
    BipFrame m c.sec.dot11wCipher (c.sec.dot11wBipKey c.sec.dot11wBipKeyid) frame
      c.sec.dot11wBipKeyid (c.sec.dot11wBipTxpn + 1) (bipProtect m c p frame).frame := by
  have htxpn : (c.sec.dot11wBipTxpn + 1) % 2 ^ 64 = c.sec.dot11wBipTxpn + 1 :=
    Nat.mod_eq_of_lt (by omega)
  unfold bipProtect at hres ⊢
  dsimp only at hres ⊢
  rw [htxpn, rtwSetIe_mme _ frame _ hpn] at hres ⊢
  generalize hpre : mmePrefix c.sec.dot11wCipher c.sec.dot11wBipKeyid
    (c.sec.dot11wBipTxpn + 1) = pre at hres ⊢
  have hprelen : pre.length = 10 := by
    rw [← hpre]
    rfl
  generalize c.sec.dot11wCipher = gmcs at hpre hres ⊢
  generalize c.sec.dot11wBipKey c.sec.dot11wBipKeyid = key at hres ⊢
  cases hmic : rtwCalculateBipMic m gmcs (frame ++ pre ++ List.replicate (bipMicLen gmcs) 0)
      (frame ++ pre ++ List.replicate (bipMicLen gmcs) 0).length key
      (bipTxAad (frame ++ pre ++ List.replicate (bipMicLen gmcs) 0)) with
  | none =>
    rw [hmic] at hres
    cases hres
  | some full =>
    have hfull := rtwCalculateBipMic_length hmic
    have hle : bipMicLen gmcs ≤ 16 := by
      rcases bipMicLen_cases gmcs with ⟨-, h, -⟩ | ⟨-, h, -⟩ <;> omega
    have htag : (full.take (bipMicLen gmcs)).length = bipMicLen gmcs := by
      rw [List.length_take]
      omega
    have hcut : (frame ++ pre ++ List.replicate (bipMicLen gmcs) (0 : UInt8)).take
        ((frame ++ pre ++ List.replicate (bipMicLen gmcs) (0 : UInt8)).length - bipMicLen gmcs) =
          frame ++ pre := by
      refine List.take_left' ?_
      simp only [List.length_append, List.length_replicate]
      omega
    dsimp only
    rw [hcut]
    refine ⟨_, htag, by rw [hpre], full, ?_, rfl⟩
    rw [rtwCalculateBipMic_eq hlen hprelen htag (List.length_replicate ..) key, ← hpre,
      ← bipTxAad_eq hlen c.sec.dot11wBipKeyid (c.sec.dot11wBipTxpn + 1) htag, hpre]
    exact hmic

theorem rtwBipVerify_of_bipFrame {m : BipMac} {gmcs : SecurityType} {key frame g : List UInt8}
    {keyid txpn : ℕ} (hlen : 24 ≤ frame.length) (hkeyid : keyid < 256) (hpn : txpn < 2 ^ 48)
    (h : BipFrame m gmcs key frame keyid txpn g) (ipn : ℕ) :
    rtwBipVerify m.verifier gmcs g.length g key keyid ipn =
      if txpn ≤ ipn then ⟨.fail, ipn⟩ else ⟨.success, txpn⟩ := by
  obtain ⟨mic, hmic, rfl, full, hfull, rfl⟩ := h
  generalize hpre : mmePrefix gmcs keyid txpn = pre at hfull ⊢
  have hprelen : pre.length = 10 := by
    rw [← hpre]
    rfl
  have hoffset : bipMmeOffset gmcs = 10 + bipMicLen gmcs := by
    rcases bipMicLen_cases gmcs with ⟨-, h, h'⟩ | ⟨-, h, h'⟩ <;> omega
  have hglen : (frame ++ pre ++ full.take (bipMicLen gmcs)).length =
      frame.length + (10 + bipMicLen gmcs) := by
    simp only [List.length_append, hprelen, hmic]
    omega
  have hmme : (frame ++ pre ++ full.take (bipMicLen gmcs)).drop
      ((frame ++ pre ++ full.take (bipMicLen gmcs)).length - bipMmeOffset gmcs) =
        pre ++ full.take (bipMicLen gmcs) := by
    rw [hglen, hoffset, Nat.add_sub_cancel, List.append_assoc, List.drop_left]
  have htail : (frame ++ pre ++ full.take (bipMicLen gmcs)).drop
      ((frame ++ pre ++ full.take (bipMicLen gmcs)).length - bipMicLen gmcs) =
        full.take (bipMicLen gmcs) := by
    refine List.drop_left' ?_
    rw [hglen, List.length_append, hprelen]
    omega
  have hid : le16 (pre ++ full.take (bipMicLen gmcs)) 2 = keyid := by
    rw [← hpre]
    change (UInt8.ofNat keyid).toNat + 256 * 0 = keyid
    rw [UInt8.toNat_ofNat']
    omega
  have htag : byteAt (pre ++ full.take (bipMicLen gmcs)) 0 = 76 := by
    rw [← hpre]
    rfl
  have hipn : mmeIpn (pre ++ full.take (bipMicLen gmcs)) = txpn := by
    rw [← hpre]
    exact mmeIpn_prefix gmcs keyid hpn _
  unfold rtwBipVerify
  dsimp only
  rw [hmme, htail, if_neg (by rw [hglen]; omega), if_neg (not_not_intro htag),
    if_neg (not_not_intro hid), hipn]
  split
  · rfl
  · rw [verifier_calculateBipMic]
    rw [hfull]
    exact if_pos rfl

theorem rtwMgmtXmitframeCoalesce_bip {m : BipMac}
    {swencrypt : PktAttrib → List UInt8 → List UInt8} {zmalloc : Bool} {c : MgmtCtx} {p : PktAttrib}
    {frame : List UInt8} (hcast : isMcast p.ra = true) (hinstall : c.sec.binstallBipKey = true)
    (hsub : getFrameSubType frame = wifiDeauth ∨ getFrameSubType frame = wifiDisassoc ∨
      getFrameSubType frame = wifiAction ∧ categoryIsRobust (actionCategory frame) = true ∧
        categoryIsGroupPrivacy (actionCategory frame) = false)
    (hres : (rtwMgmtXmitframeCoalesce m swencrypt zmalloc c p frame).res = true) :
    rtwMgmtXmitframeCoalesce m swencrypt zmalloc c p frame = bipProtect m c p frame := by
  have hskip : ¬ (getFrameSubType frame ≠ wifiDeauth ∧ getFrameSubType frame ≠ wifiDisassoc ∧
      getFrameSubType frame ≠ wifiAction) := by
    rintro ⟨hdeauth, hdisassoc, haction⟩
    rcases hsub with h | h | ⟨h, -⟩
    · exact hdeauth h
    · exact hdisassoc h
    · exact haction h
  have hprotected : ¬ (getFrameSubType frame = wifiAction ∧
      Recv.categoryIsNonRobust (actionCategory frame) = true) := by
    rintro ⟨haction, hnon⟩
    rcases hsub with h | h | ⟨-, h, -⟩
    · exact absurd (h.symm.trans haction) (by decide)
    · exact absurd (h.symm.trans haction) (by decide)
    · rw [categoryIsRobust, hnon] at h
      cases h
  have hprivacy : ¬ (getFrameSubType frame = wifiAction ∧
      categoryIsGroupPrivacy (actionCategory frame) = true) := by
    rintro ⟨haction, hgroup⟩
    rcases hsub with h | h | ⟨-, -, h⟩
    · exact absurd (h.symm.trans haction) (by decide)
    · exact absurd (h.symm.trans haction) (by decide)
    · cases h.symm.trans hgroup
  unfold rtwMgmtXmitframeCoalesce at hres ⊢
  dsimp only at hres ⊢
  rw [if_neg hskip, if_neg hprotected, if_pos hcast, if_neg hprivacy, hinstall] at hres ⊢
  cases zmalloc with
  | false => cases hres
  | true => rfl

theorem bip_round_trip (m : BipMac) (swencrypt : PktAttrib → List UInt8 → List UInt8)
    (zmalloc : Bool) (c : MgmtCtx) (p : PktAttrib) (frame : List UInt8)
    (hcast : isMcast p.ra = true) (hlen : 24 ≤ frame.length)
    (hinstall : c.sec.binstallBipKey = true)
    (hsub : getFrameSubType frame = wifiDeauth ∨ getFrameSubType frame = wifiDisassoc ∨
      getFrameSubType frame = wifiAction ∧ categoryIsRobust (actionCategory frame) = true ∧
        categoryIsGroupPrivacy (actionCategory frame) = false)
    (hkeyid : c.sec.dot11wBipKeyid = 4 ∨ c.sec.dot11wBipKeyid = 5)
    (hpn : c.sec.dot11wBipTxpn < 2 ^ 48 - 1)
    (hres : (rtwMgmtXmitframeCoalesce m swencrypt zmalloc c p frame).res = true) :
    let g := (rtwMgmtXmitframeCoalesce m swencrypt zmalloc c p frame).frame
    let pn := c.sec.dot11wBipTxpn + 1
    let verify := fun g => rtwBipVerify m.verifier c.sec.dot11wCipher g.length g
      (c.sec.dot11wBipKey c.sec.dot11wBipKeyid) c.sec.dot11wBipKeyid
    (∀ ipn < pn, verify g ipn = ⟨.success, pn⟩) ∧ verify g pn = ⟨.fail, pn⟩ ∧
      ∀ g', SameButFlags g g' → ∀ ipn, verify g' ipn = verify g ipn := by
  intro g pn verify
  have heq := rtwMgmtXmitframeCoalesce_bip hcast hinstall hsub hres
  have hframe : BipFrame m c.sec.dot11wCipher (c.sec.dot11wBipKey c.sec.dot11wBipKeyid) frame
      c.sec.dot11wBipKeyid pn g := by
    have hbip := bipProtect_frame (p := p) hlen (by omega) (heq ▸ hres)
    rwa [← heq] at hbip
  have hverify : ∀ ipn, verify g ipn = if pn ≤ ipn then ⟨.fail, ipn⟩ else ⟨.success, pn⟩ :=
    rtwBipVerify_of_bipFrame hlen (by omega) (by omega) hframe
  refine ⟨fun ipn hipn => ?_, ?_, fun g' hflags ipn => ?_⟩
  · rw [hverify, if_neg (Nat.not_le_of_lt hipn)]
  · rw [hverify, if_pos le_rfl]
  · obtain ⟨mic, hmic, hg, -⟩ := hframe
    have hlong : bipMmeOffset c.sec.dot11wCipher + 2 ≤ g.length := by
      have hpre : (mmePrefix c.sec.dot11wCipher c.sec.dot11wBipKeyid pn).length = 10 := rfl
      rw [hg, List.length_append, List.length_append, hmic, hpre]
      rcases bipMicLen_cases c.sec.dot11wCipher with ⟨-, h, h'⟩ | ⟨-, h, h'⟩ <;> omega
    have hsame : g'.length = g.length := by
      obtain ⟨a, b, b', rest, hg, rfl, -⟩ := hflags
      rw [hg]
      rfl
    have hpast : 24 ≤ g.length := by
      rcases bipMicLen_cases c.sec.dot11wCipher with ⟨-, -, h⟩ | ⟨-, -, h⟩
      · rw [hg, List.length_append, List.length_append]
        omega
      · omega
    change rtwBipVerify _ _ g'.length g' _ _ _ = _
    rw [hsame]
    exact rtwBipVerify_flags hpast hlong hflags _ _ ipn

def exampleMac : BipMac where
  omac1 _ _ _ := some (Vector.replicate 16 7)
  gmac _ _ _ _ := some (Vector.replicate 16 9)

def exampleCtx (gmcs : SecurityType) : MgmtCtx where
  sec := { SecurityPriv.zero with
    binstallBipKey := true, dot11wCipher := gmcs, dot11wBipKeyid := 4, dot11wBipTxpn := 41
    binstallGrpkey := true, dot118021XGrpPrivacy := .aes, dot118021XGrpKeyid := 1 }
  psta := none
  bcmc := some (StaInfo.rtwAllocStainfo Recv.bcAddr)

def exampleAttrib : PktAttrib :=
  { PktAttrib.zero with ra := Recv.bcAddr, hdrlen := 24, nrFrags := 1 }

def exampleFrame (subtype : UInt8) (body : List UInt8) : List UInt8 :=
  [subtype, 0, 0, 0, 255, 255, 255, 255, 255, 255] ++ List.replicate 12 2 ++ [0, 0] ++ body

theorem bip_round_trip_deauth :
    let c := exampleCtx .bipGmac256
    let g := (rtwMgmtXmitframeCoalesce exampleMac (fun _ f => f) true c exampleAttrib
      (exampleFrame 0xC0 [7, 0])).frame
    rtwBipVerify exampleMac.verifier .bipGmac256 g.length g (c.sec.dot11wBipKey 4) 4 41 =
      ⟨.success, 42⟩ :=
  (bip_round_trip exampleMac (fun _ f => f) true (exampleCtx .bipGmac256) exampleAttrib
    (exampleFrame 0xC0 [7, 0]) (by decide) (by decide) rfl (.inl (by decide)) (.inl rfl)
    (by decide) (by decide)).1 41 (by decide)

theorem group_privacy_action_not_verified :
    let c := exampleCtx .bipCmac128
    let frame := exampleFrame 0xD0 [13, 0]
    let r := rtwMgmtXmitframeCoalesce exampleMac (fun _ f => f) true c exampleAttrib frame
    getFrameSubType frame = wifiAction ∧ categoryIsRobust (actionCategory frame) = true ∧
      r.res = true ∧
        (rtwBipVerify exampleMac.verifier .bipCmac128 r.frame.length r.frame (c.sec.dot11wBipKey 4) 4
          41).ret ≠ .success := by
  decide

end Xmit
