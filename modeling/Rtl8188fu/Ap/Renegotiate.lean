import Rtl8188fu.Ap.Mlme

namespace Ap

open Ie

@[ext]
structure Carried where
  mfp : Bool
  amsduDisable : Bool
  wds : Bool
  akmSuiteType : ℕ
  maxSpLen : UInt8
  htCap : List UInt8
  htOp : List UInt8
  opPresent : Bool
  deriving DecidableEq

structure Fresh where
  shortPreamble : Bool
  wme : Bool
  ht : Bool
  wps : Bool
  nonerp : Bool
  wpaGroupCipher : ℕ
  wpa2GroupCipher : ℕ
  wpaPairwiseCipher : ℕ
  wpa2PairwiseCipher : ℕ
  bssrateset : List UInt8
  qosInfo : UInt8
  hasLegacyAc : Bool
  uapsdVo : ℕ
  uapsdVi : ℕ
  uapsdBe : ℕ
  uapsdBk : ℕ
  htOption : Bool
  qosOption : Bool
  deriving DecidableEq

structure Negotiated where
  carried : Carried
  fresh : Fresh
  deriving DecidableEq

namespace StaInfo

def carried (sta : StaInfo) : Carried where
  mfp := sta.flags.mfp
  amsduDisable := sta.flags.amsduDisable
  wds := sta.flags.wds
  akmSuiteType := sta.akmSuiteType
  maxSpLen := sta.maxSpLen
  htCap := sta.htCap
  htOp := sta.htOp
  opPresent := sta.opPresent

def fresh (sta : StaInfo) : Fresh where
  shortPreamble := sta.flags.shortPreamble
  wme := sta.flags.wme
  ht := sta.flags.ht
  wps := sta.flags.wps
  nonerp := sta.flags.nonerp
  wpaGroupCipher := sta.wpaGroupCipher
  wpa2GroupCipher := sta.wpa2GroupCipher
  wpaPairwiseCipher := sta.wpaPairwiseCipher
  wpa2PairwiseCipher := sta.wpa2PairwiseCipher
  bssrateset := sta.bssrateset
  qosInfo := sta.qosInfo
  hasLegacyAc := sta.hasLegacyAc
  uapsdVo := sta.uapsdVo
  uapsdVi := sta.uapsdVi
  uapsdBe := sta.uapsdBe
  uapsdBk := sta.uapsdBk
  htOption := sta.htOption
  qosOption := sta.qosOption

def negotiated (sta : StaInfo) : Negotiated := ⟨sta.carried, sta.fresh⟩

end StaInfo

def elemsOf (f : RxFrame) : Elems :=
  (rtwIeee80211ParseElems f.data f.ies f.iesLen).getD .empty

def pickOf (cfg : ApCfg) (f : RxFrame) : WpaPick :=
  pick cfg f.data (clearSecurity .zero) (elemsOf f)

def akmOf (cfg : ApCfg) (f : RxFrame) : Option ℕ :=
  (if cfg.wpaPsk &&& 2 ≠ 0 then (elemsOf f).rsnIe else none).bind fun ie =>
    (rtwParseWpa2Ie f.data (ie.pos - 2) (ie.len + 2)).map WpaParams.akm

def mfpOf (cfg : ApCfg) (f : RxFrame) : Bool :=
  cfg.mfpOpt ≥ mfpOptional && (pickOf cfg f).mfpOpt ≥ mfpOptional

def amsduOf (cfg : ApCfg) (f : RxFrame) : Bool :=
  cfg.dot11PrivacyAlgrthm ≠ .noPrivacy && rtwCheckAmsduDisable cfg.amsduMode (pickOf cfg f).sppOpt

def spLenOf (cfg : ApCfg) (f : RxFrame) : Option UInt8 :=
  (wmmOf cfg f).map fun (qosInfo : UInt8) => (qosInfo >>> 5) &&& 0x3

def opOf (cfg : ApCfg) (f : RxFrame) : Option (List UInt8) := htOpOf cfg f.data (elemsOf f)

def maybeWpsOf (cfg : ApCfg) (f : RxFrame) : Bool :=
  (pickOf cfg f).wpaIe.isNone && (elemsOf f).wpsIe.isNone

def Carried.after (cfg : ApCfg) (k : Carried) (f : RxFrame) : Carried where
  mfp := k.mfp || mfpOf cfg f
  amsduDisable := k.amsduDisable || amsduOf cfg f
  wds := k.wds
  akmSuiteType := (akmOf cfg f).getD k.akmSuiteType
  maxSpLen := (spLenOf cfg f).getD k.maxSpLen
  htCap := if cfg.htOption then
      (htCapOf cfg f.data (elemsOf f)).getD (List.replicate htCapLen 0)
    else k.htCap
  htOp := (opOf cfg f).getD k.htOp
  opPresent := k.opPresent || (opOf cfg f).isSome

def tkipPairwise (cfg : ApCfg) (f : RxFrame) : Bool :=
  (pickOf cfg f).sta.wpa2PairwiseCipher &&& cipherTkip ≠ 0 ||
    (pickOf cfg f).sta.wpaPairwiseCipher &&& cipherTkip ≠ 0

def freshOf (cfg : ApCfg) (f : RxFrame) : Fresh :=
  let rates := updateBrateTblForSoftAP (rtwIesGetSupportedRate f.data f.ies f.iesLen)
  let htCap := (htCapOf cfg f.data (elemsOf f)).isSome
  let wme := (wmmOf cfg f).isSome || htCap
  let ht := htCap && !tkipPairwise cfg f
  let qosInfo := (wmmOf cfg f).getD 0
  { shortPreamble := le16 f.data wlanHdrA3Len &&& wlanCapabilityShortPreamble != 0
    wme := wme
    ht := ht
    wps := (elemsOf f).wpsIe.isSome
    nonerp := rates.all fun b => (b &&& 0x7f).toNat ≤ 22
    wpaGroupCipher := (pickOf cfg f).sta.wpaGroupCipher
    wpa2GroupCipher := (pickOf cfg f).sta.wpa2GroupCipher
    wpaPairwiseCipher := (pickOf cfg f).sta.wpaPairwiseCipher
    wpa2PairwiseCipher := (pickOf cfg f).sta.wpa2PairwiseCipher
    bssrateset := rates
    qosInfo := qosInfo
    hasLegacyAc := qosInfo &&& 0x0f != 0x0f
    uapsdVo := uapsdOf qosInfo 1
    uapsdVi := uapsdOf qosInfo 2
    uapsdBe := uapsdOf qosInfo 8
    uapsdBk := uapsdOf qosInfo 4
    htOption := ht && cfg.htOption
    qosOption := (ht && cfg.htOption) || ((wme && cfg.qosOption) || ht) }

def granted (cfg : ApCfg) (env : AssocEnv) (f : RxFrame) (sta : StaInfo) : Option StaInfo :=
  match assocChecks cfg env f (beginAssoc sta) with
  | (sta, status) =>
    if status = statsSuccessful ∧ unprotected sta ∧ env.mboAssocDisallow = false then
      some (staInfoUpdate cfg { finishAssoc sta with expireTo := cfg.expireTo })
    else none

theorem check_success {p : StaInfo × ℕ} {next : StaInfo → StaInfo × ℕ}
    (h : (check p next).2 = statsSuccessful) :
    p.2 = statsSuccessful ∧ (next p.1).2 = statsSuccessful ∧ check p next = next p.1 := by
  unfold check at h ⊢
  split at h
  · next hp => exact ⟨hp, h, if_pos hp⟩
  · next hp => exact absurd h hp

theorem pick_clear (cfg : ApCfg) (f : RxFrame) (sta : StaInfo) :
    pick cfg f.data (clearSecurity sta) (elemsOf f) =
      { pickOf cfg f with
        sta := { clearSecurity sta with
          dot8021xalg := (pickOf cfg f).sta.dot8021xalg
          wpaPsk := (pickOf cfg f).sta.wpaPsk
          wpaGroupCipher := (pickOf cfg f).sta.wpaGroupCipher
          wpa2GroupCipher := (pickOf cfg f).sta.wpa2GroupCipher
          wpaPairwiseCipher := (pickOf cfg f).sta.wpaPairwiseCipher
          wpa2PairwiseCipher := (pickOf cfg f).sta.wpa2PairwiseCipher
          akmSuiteType := (akmOf cfg f).getD sta.akmSuiteType } } := by
  unfold pickOf akmOf pick
  cases if cfg.wpaPsk &&& 2 ≠ 0 then (elemsOf f).rsnIe else none with
  | some ie =>
    simp only [Option.bind_some, pickWpa2]
    cases rtwParseWpa2Ie f.data (ie.pos - 2) (ie.len + 2) with
    | none => rfl
    | some w => rfl
  | none =>
    simp only [Option.bind_none]
    cases if cfg.wpaPsk &&& 1 ≠ 0 then (elemsOf f).wpaIe else none with
    | none => rfl
    | some ie =>
      simp only [pickWpa]
      cases rtwParseWpaIe f.data (ie.pos - 2) (ie.len + 2) with
      | none => rfl
      | some w => rfl

theorem setAmsduDisable_eq (cfg : ApCfg) (f : RxFrame) (sta : StaInfo) :
    setAmsduDisable cfg (pickOf cfg f).sppOpt sta =
      { sta with flags := { sta.flags with
        amsduDisable := sta.flags.amsduDisable || amsduOf cfg f } } := by
  unfold setAmsduDisable amsduOf
  split
  · next h => simp [h.1, h.2]
  · next h =>
    have hoff : (cfg.dot11PrivacyAlgrthm ≠ .noPrivacy &&
        rtwCheckAmsduDisable cfg.amsduMode (pickOf cfg f).sppOpt) = false := by
      simpa using h
    rw [hoff, Bool.or_false]

theorem checkMfp_success {cfg : ApCfg} {f : RxFrame} {sta : StaInfo} {gmcs : ℕ}
    (h : (checkMfp cfg gmcs (pickOf cfg f).mfpOpt sta).2 = statsSuccessful) :
    (checkMfp cfg gmcs (pickOf cfg f).mfpOpt sta).1 =
      { sta with flags := { sta.flags with mfp := sta.flags.mfp || mfpOf cfg f } } := by
  have hboth : ∀ b : Prop, ∀ [Decidable b],
      (if b then { sta with flags := { sta.flags with mfp := true } } else sta) =
        { sta with flags := { sta.flags with mfp := sta.flags.mfp || decide b } } := by
    intro b _
    by_cases hb : b <;> simp [hb]
  unfold checkMfp at h ⊢
  split at h
  · cases h
  · next hpolicy =>
    rw [if_neg hpolicy]
    simp only [hboth] at h ⊢
    split at h
    · cases h
    · next hgmcs =>
      rw [if_neg hgmcs]
      simp [mfpOf]

theorem checkPmkid_success {cfg : ApCfg} {env : AssocEnv} {sta : StaInfo}
    (h : (checkPmkid cfg env sta).2 = statsSuccessful) : (checkPmkid cfg env sta).1 = sta := by
  unfold checkPmkid at h ⊢
  split at h
  · cases h
  · next hcond => rw [if_neg hcond]

theorem checkWps_success {cfg : ApCfg} {m : Mem} {elems : Elems} {wpaIe : Option Elem}
    {sta : StaInfo} (h : (checkWps cfg m elems wpaIe sta).2 = statsSuccessful) :
    ∃ ie, (checkWps cfg m elems wpaIe sta).1 =
      { sta with
        flags := { sta.flags with
          wps := elems.wpsIe.isSome
          maybeWps := wpaIe.isNone && elems.wpsIe.isNone }
        wpaIe := ie } := by
  cases wpaIe with
  | none =>
    simp only [checkWps] at h ⊢
    split at h
    · cases h
    · next hbeacon =>
      rw [if_neg hbeacon]
      cases hwps : elems.wpsIe with
      | none => exact ⟨sta.wpaIe, by simp⟩
      | some e => exact ⟨sta.wpaIe, by simp⟩
  | some ie =>
    simp only [checkWps] at h ⊢
    split at h
    · cases h
    · next hpsk =>
      rw [if_neg hpsk]
      cases hwps : elems.wpsIe with
      | none => exact ⟨_, rfl⟩
      | some e => exact ⟨sta.wpaIe, by simp⟩

theorem rtwApParseStaSupportedRates_success {sta : StaInfo} {f : RxFrame}
    (h : (rtwApParseStaSupportedRates sta f).2 = statsSuccessful) :
    (rtwApParseStaSupportedRates sta f).1 =
      let rates := updateBrateTblForSoftAP (rtwIesGetSupportedRate f.data f.ies f.iesLen)
      { sta with
        bssrateset := rates
        flags := { sta.flags with nonerp := rates.all fun b => (b &&& 0x7f).toNat ≤ 22 } } := by
  unfold rtwApParseStaSupportedRates at h ⊢
  simp only at h ⊢
  split at h
  · cases h
  · next hrates => rw [if_neg hrates]

theorem rtwApParseStaSecurityIe_success {cfg : ApCfg} {env : AssocEnv} {f : RxFrame}
    {sta : StaInfo}
    (h : (rtwApParseStaSecurityIe cfg env f.data sta (elemsOf f)).2 = statsSuccessful) :
    ∃ alg psk ie,
      (rtwApParseStaSecurityIe cfg env f.data sta (elemsOf f)).1 =
        { sta with
          dot8021xalg := alg
          wpaPsk := psk
          wpaGroupCipher := (pickOf cfg f).sta.wpaGroupCipher
          wpa2GroupCipher := (pickOf cfg f).sta.wpa2GroupCipher
          wpaPairwiseCipher := (pickOf cfg f).sta.wpaPairwiseCipher
          wpa2PairwiseCipher := (pickOf cfg f).sta.wpa2PairwiseCipher
          akmSuiteType := (akmOf cfg f).getD sta.akmSuiteType
          wpaIe := ie
          flags := { sta.flags with
            mfp := sta.flags.mfp || mfpOf cfg f
            amsduDisable := sta.flags.amsduDisable || amsduOf cfg f
            wps := (elemsOf f).wpsIe.isSome
            maybeWps := maybeWpsOf cfg f } } := by
  unfold rtwApParseStaSecurityIe at h ⊢
  simp only at h ⊢
  rw [pick_clear] at h ⊢
  obtain ⟨-, h, heq⟩ := check_success h
  rw [heq]
  rw [setAmsduDisable_eq] at h ⊢
  obtain ⟨hmfp, h, heq⟩ := check_success h
  rw [heq]
  rw [checkMfp_success hmfp] at h ⊢
  obtain ⟨hpmkid, h, heq⟩ := check_success h
  rw [heq]
  rw [checkPmkid_success hpmkid] at h ⊢
  obtain ⟨ie, hwps⟩ := checkWps_success h
  rw [hwps]
  exact ⟨_, _, ie, rfl⟩

theorem rtwApParseStaWmmIe_eq (cfg : ApCfg) (sta : StaInfo) (f : RxFrame) :
    rtwApParseStaWmmIe cfg sta f =
      let qosInfo := (wmmOf cfg f).getD 0
      { sta with
        flags := { sta.flags with wme := (wmmOf cfg f).isSome }
        qosOption := (wmmOf cfg f).isSome
        qosInfo := qosInfo
        maxSpLen := (spLenOf cfg f).getD sta.maxSpLen
        hasLegacyAc := qosInfo &&& 0x0f != 0x0f
        uapsdVo := uapsdOf qosInfo 1
        uapsdVi := uapsdOf qosInfo 2
        uapsdBk := uapsdOf qosInfo 4
        uapsdBe := uapsdOf qosInfo 8 } := by
  unfold rtwApParseStaWmmIe spLenOf
  cases wmmOf cfg f with
  | none => rfl
  | some qosInfo => rfl

theorem rtwApParseStaHtIe_eq (cfg : ApCfg) (f : RxFrame) (sta : StaInfo) :
    rtwApParseStaHtIe cfg f.data sta (elemsOf f) =
      let htCap := htCapOf cfg f.data (elemsOf f)
      { sta with
        flags := { sta.flags with ht := htCap.isSome, wme := sta.flags.wme || htCap.isSome }
        htCap := if cfg.htOption then htCap.getD (List.replicate htCapLen 0) else sta.htCap
        htOp := (opOf cfg f).getD sta.htOp
        opPresent := sta.opPresent || (opOf cfg f).isSome } := by
  unfold rtwApParseStaHtIe opOf htOpOf
  cases hon : cfg.htOption with
  | false => simp [htCapOf, hon]
  | true =>
    cases hcap : htCapOf cfg f.data (elemsOf f) with
    | none => simp
    | some htCap =>
      cases hop : (elemsOf f).htOperation.bind fun e =>
        if e.len = htOpIeLen then some (bytes f.data e.pos htOpIeLen) else none with
      | none => simp
      | some htOp => simp

theorem rejectTkipHt_eq (sta : StaInfo) :
    rejectTkipHt sta =
      let tkip := sta.wpa2PairwiseCipher &&& cipherTkip ≠ 0 ||
        sta.wpaPairwiseCipher &&& cipherTkip ≠ 0
      { sta with flags := { sta.flags with
        ht := sta.flags.ht && !tkip
        vht := sta.flags.vht && !tkip } } := by
  obtain ⟨state, ⟨preamble, wme, mfp, ht, wps, maybeWps, vht, wds, multiAp, amsdu, nonerp⟩,
    capability, authalg, authSeq, chgTxt, expireTo, key, rates, alg, psk, wpaGroup, wpa2Group,
    wpaPairwise, wpa2Pairwise, rest⟩ := sta
  unfold rejectTkipHt
  simp only
  cases Decidable.em (wpa2Pairwise &&& cipherTkip ≠ 0 ∨ wpaPairwise &&& cipherTkip ≠ 0) with
  | inl htkip =>
    have hdec : (decide (wpa2Pairwise &&& cipherTkip ≠ 0) ||
        decide (wpaPairwise &&& cipherTkip ≠ 0)) = true := by simpa using htkip
    simp only [hdec, htkip]
    cases ht <;> cases vht <;> simp
  | inr htkip =>
    have hdec : (decide (wpa2Pairwise &&& cipherTkip ≠ 0) ||
        decide (wpaPairwise &&& cipherTkip ≠ 0)) = false := by simpa using htkip
    simp only [hdec, htkip, and_false, if_false, Bool.not_false, Bool.and_true]

theorem assocChecks_success {cfg : ApCfg} {env : AssocEnv} {f : RxFrame} {sta : StaInfo}
    (h : (assocChecks cfg env f sta).2 = statsSuccessful) :
    ∃ alg psk ie, (assocChecks cfg env f sta).1 =
      let k := sta.carried.after cfg f
      let n := freshOf cfg f
      { sta with
        capability := le16 f.data wlanHdrA3Len
        bssrateset := n.bssrateset
        dot8021xalg := alg
        wpaPsk := psk
        wpaGroupCipher := n.wpaGroupCipher
        wpa2GroupCipher := n.wpa2GroupCipher
        wpaPairwiseCipher := n.wpaPairwiseCipher
        wpa2PairwiseCipher := n.wpa2PairwiseCipher
        akmSuiteType := k.akmSuiteType
        wpaIe := ie
        qosOption := (wmmOf cfg f).isSome
        qosInfo := n.qosInfo
        maxSpLen := k.maxSpLen
        hasLegacyAc := n.hasLegacyAc
        uapsdVo := n.uapsdVo
        uapsdVi := n.uapsdVi
        uapsdBe := n.uapsdBe
        uapsdBk := n.uapsdBk
        htCap := k.htCap
        htOp := k.htOp
        opPresent := k.opPresent
        flags := { sta.flags with
          shortPreamble := n.shortPreamble
          wme := n.wme
          mfp := k.mfp
          ht := n.ht
          wps := n.wps
          maybeWps := maybeWpsOf cfg f
          vht := false
          multiAp := false
          amsduDisable := k.amsduDisable
          nonerp := n.nonerp } } := by
  unfold assocChecks at h ⊢
  split at h
  · next hforce => exact absurd h hforce
  · next hforce =>
    rw [if_neg hforce]
    cases hparse : rtwIeee80211ParseElems f.data f.ies f.iesLen with
    | none =>
      rw [hparse] at h
      cases h
    | some elems =>
      have helems : elems = elemsOf f := by simp [elemsOf, hparse]
      subst helems
      rw [hparse] at h
      simp only at h ⊢
      split at h
      · cases h
      · next hssid =>
        rw [if_neg hssid]
        obtain ⟨hrates, h, heq⟩ := check_success h
        rw [heq]
        rw [rtwApParseStaSupportedRates_success hrates] at h ⊢
        obtain ⟨hsec, h, heq⟩ := check_success h
        rw [heq]
        obtain ⟨alg, psk, ie, hpick⟩ := rtwApParseStaSecurityIe_success hsec
        rw [hpick] at h ⊢
        split at h
        · cases h
        · next hp2p =>
          rw [if_neg hp2p]
          simp only [rtwApParseStaWmmIe_eq, rtwApParseStaHtIe_eq, rtwApParseStaVhtIe,
            rejectTkipHt_eq, rtwApParseStaMultiApIe, rtwApParseStaCapability]
          exact ⟨alg, psk, ie, rfl⟩

theorem granted_negotiated {cfg : ApCfg} {env : AssocEnv} {f : RxFrame} {sta sta' : StaInfo}
    (h : granted cfg env f sta = some sta') :
    sta'.negotiated = ⟨sta.carried.after cfg f, freshOf cfg f⟩ := by
  unfold granted at h
  cases hchecks : assocChecks cfg env f (beginAssoc sta) with
  | mk r status =>
    simp only [hchecks] at h
    split at h
    · next hok =>
      obtain ⟨hstatus, -, -⟩ := hok
      have hsuccess : (assocChecks cfg env f (beginAssoc sta)).2 = statsSuccessful := by
        rw [hchecks]
        exact hstatus
      obtain ⟨alg, psk, ie, heq⟩ := assocChecks_success hsuccess
      have hcarried : (beginAssoc sta).carried = sta.carried := by
        unfold beginAssoc
        split <;> rfl
      have hwds : (beginAssoc sta).flags.wds = sta.flags.wds := by
        unfold beginAssoc
        split <;> rfl
      rw [hchecks] at heq
      simp only at heq
      rw [hcarried] at heq
      cases h
      rw [heq]
      simp only [staInfoUpdate, finishAssoc, StaInfo.negotiated, StaInfo.carried, StaInfo.fresh,
        freshOf, Carried.after, hwds]
    · cases h

structure Interlude where
  state : StaState
  authalg : ℕ
  authSeq : ℕ
  chgTxt : List UInt8
  expireTo : ℕ
  bpairwiseKeyInstalled : Bool

structure Join where
  before : Interlude
  env : AssocEnv
  frame : RxFrame

def StaInfo.resume (sta : StaInfo) (i : Interlude) : StaInfo :=
  { sta with
    state := i.state
    authalg := i.authalg
    authSeq := i.authSeq
    chgTxt := i.chgTxt
    expireTo := i.expireTo
    bpairwiseKeyInstalled := i.bpairwiseKeyInstalled }

def rejoin (cfg : ApCfg) (sta : Option StaInfo) (j : Join) : Option StaInfo :=
  sta.bind fun sta => granted cfg j.env j.frame (sta.resume j.before)

def rejoins (cfg : ApCfg) (js : List Join) : Option StaInfo :=
  js.foldl (rejoin cfg) (some .zero)

theorem rejoins_concat (cfg : ApCfg) (js : List Join) (j : Join) :
    rejoins cfg (js ++ [j]) = rejoin cfg (rejoins cfg js) j := by
  simp [rejoins]

def carriedOf (cfg : ApCfg) (fs : List RxFrame) : Carried :=
  fs.foldl (Carried.after cfg) StaInfo.zero.carried

theorem rejoins_carried {cfg : ApCfg} {js : List Join} {sta : StaInfo}
    (h : rejoins cfg js = some sta) : sta.carried = carriedOf cfg (js.map Join.frame) := by
  induction js using List.reverseRecOn generalizing sta with
  | nil =>
    cases h
    rfl
  | append_singleton js j ih =>
    rw [rejoins_concat] at h
    obtain ⟨mid, hmid, hgrant⟩ := Option.bind_eq_some_iff.mp h
    have hcarried := congrArg Negotiated.carried (granted_negotiated hgrant)
    have hmid := ih hmid
    have hmemory : (mid.resume j.before).carried = carriedOf cfg (js.map Join.frame) := hmid
    rw [List.map_append, carriedOf, List.foldl_append]
    exact hcarried.trans (congrArg (Carried.after cfg · j.frame) hmemory)

def lastOf {α : Type} (g : RxFrame → Option α) (fs : List RxFrame) : Option α :=
  (fs.filterMap g).getLast?

theorem lastOf_concat {α : Type} (g : RxFrame → Option α) (fs : List RxFrame) (f : RxFrame) :
    lastOf g (fs ++ [f]) = (g f).or (lastOf g fs) := by
  unfold lastOf
  cases hg : g f with
  | none => simp [hg]
  | some a => simp [hg]

structure Remembers (cfg : ApCfg) (fs : List RxFrame) (k : Carried) : Prop where
  mfp : k.mfp = fs.any (mfpOf cfg)
  amsduDisable : k.amsduDisable = fs.any (amsduOf cfg)
  wds : k.wds = false
  akmSuiteType : k.akmSuiteType = (lastOf (akmOf cfg) fs).getD 0
  maxSpLen : k.maxSpLen = (lastOf (spLenOf cfg) fs).getD 0
  htCap : k.htCap = if cfg.htOption then
      (fs.getLast?.bind fun f => htCapOf cfg f.data (elemsOf f)).getD (List.replicate htCapLen 0)
    else List.replicate htCapLen 0
  htOp : k.htOp = (lastOf (opOf cfg) fs).getD (List.replicate htOpIeLen 0)
  opPresent : k.opPresent = (lastOf (opOf cfg) fs).isSome

theorem carriedOf_remembers (cfg : ApCfg) (fs : List RxFrame) :
    Remembers cfg fs (carriedOf cfg fs) := by
  induction fs using List.reverseRecOn with
  | nil => constructor <;> simp [carriedOf, StaInfo.carried, StaInfo.zero, StaFlags.zero, lastOf]
  | append_singleton fs f ih =>
    have hstep : carriedOf cfg (fs ++ [f]) = (carriedOf cfg fs).after cfg f := by
      simp [carriedOf]
    rw [hstep]
    constructor
    · simp [Carried.after, ih.mfp]
    · simp [Carried.after, ih.amsduDisable]
    · exact ih.wds
    · simp only [Carried.after, ih.akmSuiteType, lastOf_concat]
      cases akmOf cfg f <;> rfl
    · simp only [Carried.after, ih.maxSpLen, lastOf_concat]
      cases spLenOf cfg f <;> rfl
    · simp only [Carried.after, ih.htCap, List.getLast?_append, List.getLast?_singleton,
        Option.some_or, Option.bind_some]
      split <;> rfl
    · simp only [Carried.after, ih.htOp, lastOf_concat]
      cases opOf cfg f <;> rfl
    · simp only [Carried.after, ih.opPresent, lastOf_concat]
      cases opOf cfg f <;> simp

def SameMemory (cfg : ApCfg) (h h' : List RxFrame) (f : RxFrame) : Prop :=
  (mfpOf cfg f = true ∨ h.any (mfpOf cfg) = h'.any (mfpOf cfg)) ∧
  (amsduOf cfg f = true ∨ h.any (amsduOf cfg) = h'.any (amsduOf cfg)) ∧
  ((akmOf cfg f).isSome ∨ (lastOf (akmOf cfg) h).getD 0 = (lastOf (akmOf cfg) h').getD 0) ∧
  ((spLenOf cfg f).isSome ∨ (lastOf (spLenOf cfg) h).getD 0 = (lastOf (spLenOf cfg) h').getD 0) ∧
  ((opOf cfg f).isSome ∨ lastOf (opOf cfg) h = lastOf (opOf cfg) h')

theorem getD_same {α : Type} {o : Option α} {a b : α} :
    o.getD a = o.getD b ↔ o.isSome ∨ a = b := by
  cases o <;> simp

theorem or_same {a b c : Bool} : (a || c) = (b || c) ↔ c = true ∨ a = b := by
  cases c <;> simp

theorem after_same {cfg : ApCfg} {h h' : List RxFrame} {k k' : Carried}
    (hk : Remembers cfg h k) (hk' : Remembers cfg h' k') (f : RxFrame) :
    k.after cfg f = k'.after cfg f ↔ SameMemory cfg h h' f := by
  have hcap : (k.after cfg f).htCap = (k'.after cfg f).htCap := by
    simp only [Carried.after]
    split
    · rfl
    · next hoff => rw [hk.htCap, hk'.htCap, if_neg hoff, if_neg hoff]
  have hop : ((opOf cfg f).getD k.htOp = (opOf cfg f).getD k'.htOp ∧
      (k.opPresent || (opOf cfg f).isSome) = (k'.opPresent || (opOf cfg f).isSome)) ↔
      ((opOf cfg f).isSome ∨ lastOf (opOf cfg) h = lastOf (opOf cfg) h') := by
    rw [hk.htOp, hk'.htOp, hk.opPresent, hk'.opPresent]
    cases opOf cfg f with
    | some op => simp
    | none =>
      cases lastOf (opOf cfg) h <;> cases lastOf (opOf cfg) h' <;> simp
  have hmfp : (k.after cfg f).mfp = (k'.after cfg f).mfp ↔ _ := or_same
  have hamsdu : (k.after cfg f).amsduDisable = (k'.after cfg f).amsduDisable ↔ _ := or_same
  have hakm : (k.after cfg f).akmSuiteType = (k'.after cfg f).akmSuiteType ↔ _ := getD_same
  have hlen : (k.after cfg f).maxSpLen = (k'.after cfg f).maxSpLen ↔ _ := getD_same
  rw [hk.mfp, hk'.mfp] at hmfp
  rw [hk.amsduDisable, hk'.amsduDisable] at hamsdu
  rw [hk.akmSuiteType, hk'.akmSuiteType] at hakm
  rw [hk.maxSpLen, hk'.maxSpLen] at hlen
  unfold SameMemory
  rw [← hmfp, ← hamsdu, ← hakm, ← hlen, ← hop]
  constructor
  · intro hsame
    rw [hsame]
    exact ⟨rfl, rfl, rfl, rfl, congrArg Carried.htOp hsame, congrArg Carried.opPresent hsame⟩
  · rintro ⟨hmfp, hamsdu, hakm, hlen, hhtOp, hpresent⟩
    have hwds : (k.after cfg f).wds = (k'.after cfg f).wds := hk.wds.trans hk'.wds.symm
    exact Carried.ext hmfp hamsdu hwds hakm hlen hcap hhtOp hpresent

theorem recall_law (cfg : ApCfg) (h h' : List Join) (j j' : Join) (hframe : j'.frame = j.frame)
    {sta sta' : StaInfo} (hsta : rejoins cfg (h ++ [j]) = some sta)
    (hsta' : rejoins cfg (h' ++ [j']) = some sta') :
    sta.negotiated = sta'.negotiated ↔
      SameMemory cfg (h.map Join.frame) (h'.map Join.frame) j.frame := by
  rw [rejoins_concat] at hsta hsta'
  obtain ⟨mid, hmid, hgrant⟩ := Option.bind_eq_some_iff.mp hsta
  obtain ⟨mid', hmid', hgrant'⟩ := Option.bind_eq_some_iff.mp hsta'
  have hmid := rejoins_carried hmid
  have hmid' := rejoins_carried hmid'
  have hmemory : (mid.resume j.before).carried = carriedOf cfg (h.map Join.frame) := hmid
  have hmemory' : (mid'.resume j'.before).carried = carriedOf cfg (h'.map Join.frame) := hmid'
  rw [granted_negotiated hgrant, granted_negotiated hgrant', hframe, Negotiated.mk.injEq,
    and_iff_left rfl, hmemory, hmemory']
  exact after_same (carriedOf_remembers cfg _) (carriedOf_remembers cfg _) j.frame

def assocRequest (ies : List UInt8) : RxFrame where
  data i := ([0, 0, 0, 0] ++ List.replicate 6 0 ++ [2, 0, 0, 0, 0, 1] ++ List.replicate 8 0 ++
    [0x21, 0, 1, 0] ++ ies).getD i 0
  len := 28 + ies.length

def rsnRequest (capability : UInt8) : RxFrame :=
  assocRequest [0, 1, 65, 1, 2, 0x82, 0x84, 48, 20, 1, 0, 0, 0x0f, 0xac, 4, 1, 0, 0, 0x0f, 0xac, 4,
    1, 0, 0, 0x0f, 0xac, 2, capability, 0]

def mfpCapableCfg : ApCfg where
  dot11AuthAlgrthm := 2
  dot11PrivacyAlgrthm := .aes
  wpaPsk := 2
  wpaGroupCipher := 0
  wpa2GroupCipher := cipherCcmp
  wpaPairwiseCipher := 0
  wpa2PairwiseCipher := cipherCcmp
  akmp := 2
  mfpOpt := mfpOptional
  dot11wCipher := .bipCmac128
  authTypeSae := false
  amsduMode := .nonSpp
  wpsBeaconIe := none
  ssid := [65]
  qosOption := true
  htOption := true
  authTo := 3
  assocTo := 3
  expireTo := 3

def quietAssoc : AssocEnv where
  forceAsocFail := 0
  cachedPmkid := false
  p2pStatus := 0
  mboAssocDisallow := false
  elemsAllocated := true

def authenticated : Interlude where
  state := { StaState.zero with authSuccess := true }
  authalg := 0
  authSeq := 0
  chgTxt := List.replicate 128 0
  expireTo := 3
  bpairwiseKeyInstalled := false

def joinWith (capability : UInt8) : Join := ⟨authenticated, quietAssoc, rsnRequest capability⟩

theorem recall_law_same :
    ((rejoins mfpCapableCfg ([joinWith 0x80] ++ [joinWith 0x80])).get
        (by decide +kernel)).negotiated =
      ((rejoins mfpCapableCfg ([joinWith 0] ++ [joinWith 0x80])).get
        (by decide +kernel)).negotiated ↔
    SameMemory mfpCapableCfg [rsnRequest 0x80] [rsnRequest 0] (rsnRequest 0x80) :=
  recall_law mfpCapableCfg [joinWith 0x80] [joinWith 0] (joinWith 0x80) (joinWith 0x80) rfl
    (Option.some_get _).symm (Option.some_get _).symm

theorem mfp_remembered :
    ¬ ∀ (cfg : ApCfg) (h h' : List Join) (j j' : Join), j'.frame = j.frame →
      ∀ sta sta', rejoins cfg (h ++ [j]) = some sta → rejoins cfg (h' ++ [j']) = some sta' →
        sta.negotiated = sta'.negotiated := by
  intro hall
  have hsame := hall mfpCapableCfg [joinWith 0x80] [joinWith 0] (joinWith 0) (joinWith 0) rfl
    ((rejoins mfpCapableCfg ([joinWith 0x80] ++ [joinWith 0])).get (by decide +kernel))
    ((rejoins mfpCapableCfg ([joinWith 0] ++ [joinWith 0])).get (by decide +kernel))
    (Option.some_get _).symm (Option.some_get _).symm
  revert hsame
  decide +kernel

theorem assocSta_granted {cfg : ApCfg} {env : AssocEnv} {s : StaPriv} {f : RxFrame} {p : StaId}
    {aid : ℕ} (h : (s.assocSta cfg env f p).2 = [.asocRsp statsSuccessful aid]) :
    ∃ sta', granted cfg env f (s.sta p) = some sta' ∧
      ((s.assocSta cfg env f p).1.sta p).negotiated = sta'.negotiated := by
  unfold StaPriv.assocSta at h ⊢
  simp only [StaPriv.setSta_sta, Function.update_self] at h ⊢
  split at h
  · cases h
  · next halloc =>
    rw [if_neg halloc]
    unfold granted
    cases hchecks : assocChecks cfg env f (beginAssoc (s.sta p)) with
    | mk sta status =>
      simp only [hchecks] at h ⊢
      split at h
      · next hstatus =>
        simp only [List.cons.injEq, Answer.asocRsp.injEq] at h
        exact absurd h.1.1 hstatus
      · next hstatus =>
        rw [if_neg hstatus]
        split at h
        · cases h
        · next haid =>
          rw [if_neg haid]
          simp only [StaPriv.enterBss, StaPriv.setSta_sta, StaPriv.assignAid_sta,
            Function.update_self] at h ⊢
          have hfree : unprotected (finishAssoc sta) = unprotected sta := rfl
          split at h
          · next hun =>
            rw [if_pos hun]
            simp only [StaPriv.setSta_sta, Function.update_self]
            split at h
            · cases h
            · next hmbo =>
              obtain ⟨expireTo, hlink⟩ := StaPriv.linkAsoc_sta_self
                ((((((s.setSta p (beginAssoc (s.sta p))).setSta p sta).assignAid p).1.setSta p
                  (finishAssoc sta)).unlinkAuth p)) p cfg
              rw [hlink]
              simp only [StaPriv.unlinkAuth_sta, StaPriv.setSta_sta, Function.update_self]
              refine ⟨_, if_pos ⟨not_not.mp hstatus, hfree ▸ hun, by simpa using hmbo⟩, rfl⟩
          · simp at h

theorem onAssocReq_granted {cfg : ApCfg} {env : AssocEnv} {s : StaPriv} {f : RxFrame} {aid : ℕ}
    (h : (s.onAssocReq cfg env f).2 = [.asocRsp statsSuccessful aid]) :
    ∃ p sta', s.table.rtwGetStainfo f.addr2 = some p ∧ granted cfg env f (s.sta p) = some sta' ∧
      ((s.onAssocReq cfg env f).1.sta p).negotiated = sta'.negotiated := by
  unfold StaPriv.onAssocReq at h ⊢
  split at h
  · cases h
  split at h
  · cases h
  split at h
  · cases h
  · next hap haddr hlen =>
    rw [if_neg hap, if_neg haddr, if_neg hlen]
    cases hget : s.table.rtwGetStainfo f.addr2 with
    | none =>
      rw [hget] at h
      cases h
    | some p =>
      rw [hget] at h
      simp only at h ⊢
      split at h
      · cases h
      split at h
      · cases h
      · next hwait hclass =>
        rw [if_neg hwait, if_neg hclass]
        obtain ⟨sta', hgranted, hsta⟩ := assocSta_granted h
        exact ⟨p, sta', rfl, hgranted, hsta⟩

end Ap
