import Rtl8188fu.Lib.SerialNumber
import Rtl8188fu.Lib.Run
import Rtl8188fu.Recv.MgmtProtect

namespace Recv

namespace ProtectedMgmt

open ReplayCounter

variable (crypto : Crypto)

def decrypts : SecurityType → Bool
  | .wep40 | .wep104 | .tkip | .aes | .ccmp256 | .gcmp | .gcmp256 => true
  | _ => false

def peer (a : Adapter) (f : RecvFrame) : Option StaInfo :=
  (rtwGetStainfo a.stapriv (macAt f.rxData 10)).filter StaInfo.mfp

def checked (a : Adapter) (f : RecvFrame) : MgmtChecked :=
  validateMgmtProtect crypto a (rtwGetStainfo a.stapriv (macAt f.rxData 10)) f

def isBmc (f : RecvFrame) : Bool := isMcast (macAt f.rxData 4)

def Decrypted (a : Adapter) (psta : StaInfo) (f : RecvFrame) : Prop :=
  f.attrib.privacy = true ∧ decrypts psta.dot118021XPrivacy = true ∧
    (decryptor crypto a (mgmtPrepared psta f)).isSome = true

def bipChecked (a : Adapter) (f : RecvFrame) : Bool :=
  let subtype := getFrameSubType f.rxData
  let category := actionCategory f.rxData
  a.securitypriv.binstallBipKey && (peer a f).isSome && !f.attrib.privacy && isBmc f &&
    !(subtype == wifiAction && categoryIsGroupPrivacy category) && groupProtected subtype category

def bipAccepted (a : Adapter) (f : RecvFrame) : Option ℕ :=
  let r := a.securitypriv.bipVerify crypto f
  if bipChecked a f ∧ r.ret = .success then some r.ipn else none

def Shielded (a : Adapter) (psta : StaInfo) (f : RecvFrame) : Prop :=
  let subtype := getFrameSubType f.rxData
  let category := actionCategory (checked crypto a f).frame.rxData
  (isBmc f = false → unicastProtected psta subtype category = true → Decrypted crypto a psta f) ∧
    (isBmc f = true → groupProtected subtype category = true →
      (bipAccepted crypto a f).isSome = true)

def SafeCipher (a : Adapter) (psta : StaInfo) (f : RecvFrame) : Prop :=
  ∀ plain, decryptor crypto a (mgmtPrepared psta f) = some plain →
    let subtype := getFrameSubType f.rxData
    let category := actionCategory (mgmtIvRemoved plain).rxData
    (isBmc f = false → unicastProtected psta subtype category = true →
        decrypts psta.dot118021XPrivacy = true) ∧
      (isBmc f = true → groupProtected subtype category = false)

theorem robust_of_groupPrivacy {category : ℕ} (h : categoryIsGroupPrivacy category = true) :
    categoryIsRobust category = true := by
  rcases Bool.or_eq_true_iff.mp h with h | h <;> rw [beq_iff_eq] at h <;> subst h <;> rfl

theorem checked_decrypts {a : Adapter} {psta : StaInfo} {f : RecvFrame}
    (hkey : a.securitypriv.binstallBipKey = true) (hpeer : peer a f = some psta)
    (hprivacy : f.attrib.privacy = true) : checked crypto a f = decryptMgmt crypto a psta f := by
  unfold peer at hpeer
  simp [checked, validateMgmtProtect, hkey, hpeer, hprivacy]

theorem checked_verifies {a : Adapter} {f : RecvFrame} (h : bipChecked a f = true) :
    checked crypto a f = bipVerifyMgmt crypto a f := by
  simp only [bipChecked, Bool.and_eq_true, Bool.not_eq_true', Option.isSome_iff_exists] at h
  obtain ⟨⟨⟨⟨⟨hkey, psta, hpeer⟩, hprivacy⟩, hbmc⟩, hgp⟩, hprotected⟩ := h
  unfold peer at hpeer
  unfold isBmc at hbmc
  have hnot : ¬(getFrameSubType f.rxData = wifiAction ∧
      categoryIsGroupPrivacy (actionCategory f.rxData) = true) := by
    rintro ⟨haction, hcategory⟩
    simp [haction, hcategory] at hgp
  simp [checked, validateMgmtProtect, hkey, hpeer, hprivacy, hbmc, hnot, hprotected]

theorem checked_admits {a : Adapter} {psta : StaInfo} {f : RecvFrame}
    (hkey : a.securitypriv.binstallBipKey = true) (hpeer : peer a f = some psta)
    (hprivacy : f.attrib.privacy = false) (h : bipChecked a f = false) :
    checked crypto a f =
      ⟨a, f,
        !(if isBmc f then groupProtected (getFrameSubType f.rxData) (actionCategory f.rxData)
          else unicastProtected psta (getFrameSubType f.rxData) (actionCategory f.rxData)),
        false⟩ := by
  have hpeer' := hpeer
  unfold peer at hpeer'
  unfold checked validateMgmtProtect
  rw [hpeer']
  cases Decidable.em (isBmc f = true) with
  | inl hbmc =>
    have hra := hbmc
    unfold isBmc at hra
    cases Decidable.em
        (getFrameSubType f.rxData = wifiAction ∧ categoryIsGroupPrivacy (actionCategory f.rxData) = true) with
    | inl hgp =>
      have hrobust := robust_of_groupPrivacy hgp.2
      simp [hkey, hprivacy, hbmc, hra, hgp, groupProtected, hrobust]
    | inr hgp =>
      have hprotected : groupProtected (getFrameSubType f.rxData) (actionCategory f.rxData) =
          false := by
        have hgp' : (getFrameSubType f.rxData == wifiAction &&
            categoryIsGroupPrivacy (actionCategory f.rxData)) = false := by
          rw [Bool.eq_false_iff]
          simpa using hgp
        simpa [bipChecked, hkey, hpeer, hprivacy, hbmc, hgp'] using h
      simp [hkey, hprivacy, hbmc, hra, hgp, hprotected]
  | inr hbmc =>
    rw [Bool.not_eq_true] at hbmc
    have hra := hbmc
    unfold isBmc at hra
    by_cases hprotected :
        unicastProtected psta (getFrameSubType f.rxData) (actionCategory f.rxData) = true
    · simp [hkey, hprivacy, hbmc, hra, hprotected]
    · simp [hkey, hprivacy, hbmc, hra, hprotected]

theorem checked_unverified {a : Adapter} {f : RecvFrame} (h : bipChecked a f = false) :
    (checked crypto a f).adapter = a := by
  cases Decidable.em (a.securitypriv.binstallBipKey = true) with
  | inl hkey =>
    cases hpeer : peer a f with
    | none =>
      unfold peer at hpeer
      simp [checked, validateMgmtProtect, hkey, hpeer]
    | some psta =>
      cases Decidable.em (f.attrib.privacy = true) with
      | inl hprivacy =>
        rw [checked_decrypts crypto hkey hpeer hprivacy, decryptMgmt]
        split
        · rfl
        · split <;> rfl
      | inr hprivacy =>
        rw [Bool.not_eq_true] at hprivacy
        rw [checked_admits crypto hkey hpeer hprivacy h]
  | inr hkey => simp [checked, validateMgmtProtect, hkey]

theorem checked_ipn (a : Adapter) (f : RecvFrame) :
    (checked crypto a f).adapter.securitypriv.dot11wBipRxpn =
      (bipAccepted crypto a f).getD a.securitypriv.dot11wBipRxpn := by
  cases Decidable.em (bipChecked a f = true) with
  | inl h =>
    rw [checked_verifies crypto h]
    unfold bipVerifyMgmt bipAccepted
    rcases rtwBipVerify_cases crypto a.securitypriv.dot11wCipher f.attrib.pktLen f.data
      (a.securitypriv.dot11wBipKey a.securitypriv.dot11wBipKeyid) a.securitypriv.dot11wBipKeyid
      a.securitypriv.dot11wBipRxpn with ⟨hret, hipn⟩ | ⟨hret, -⟩
    · simpa [SecurityPriv.bipVerify, h, hret] using hipn
    · simp [SecurityPriv.bipVerify, h, hret]
  | inr h =>
    rw [Bool.not_eq_true] at h
    rw [checked_unverified crypto h]
    simp [bipAccepted, h]

theorem lt_of_bipAccepted {a : Adapter} {f : RecvFrame} {ipn : ℕ}
    (h : bipAccepted crypto a f = some ipn) : a.securitypriv.dot11wBipRxpn < ipn := by
  dsimp only [bipAccepted] at h
  split at h
  · rename_i hchecked
    cases h
    rcases rtwBipVerify_cases crypto a.securitypriv.dot11wCipher f.attrib.pktLen f.data
      (a.securitypriv.dot11wBipKey a.securitypriv.dot11wBipKeyid) a.securitypriv.dot11wBipKeyid
      a.securitypriv.dot11wBipRxpn with ⟨hret, -⟩ | ⟨-, hlt⟩
    · exact absurd hchecked.2 hret
    · exact hlt
  · cases h

theorem shielded_iff {a : Adapter} {psta : StaInfo} {f : RecvFrame}
    (hkey : a.securitypriv.binstallBipKey = true) (hpeer : peer a f = some psta) :
    ((checked crypto a f).pass = true → Shielded crypto a psta f) ↔
      (f.attrib.privacy = true →
        (mgmtPrepared psta f).pastIv + (mgmtPrepared psta f).attrib.icvLen ≤ f.attrib.pktLen →
        SafeCipher crypto a psta f) := by
  cases Decidable.em (f.attrib.privacy = true) with
  | inl hprivacy =>
    have hbip : bipAccepted crypto a f = none := by simp [bipAccepted, bipChecked, hprivacy]
    unfold Shielded SafeCipher Decrypted
    rw [checked_decrypts crypto hkey hpeer hprivacy, decryptMgmt, hbip]
    have hpkt : (mgmtPrepared psta f).attrib.pktLen = f.attrib.pktLen := rfl
    by_cases hshort :
        f.attrib.pktLen < (mgmtPrepared psta f).pastIv + (mgmtPrepared psta f).attrib.icvLen
    · simp [hpkt, hshort]
    · rw [hpkt, if_neg hshort]
      have hlong := Nat.le_of_not_lt hshort
      cases hplain : decryptor crypto a (mgmtPrepared psta f) with
      | none => simp
      | some plain => simp [hprivacy, hlong]
  | inr hprivacy =>
    rw [Bool.not_eq_true] at hprivacy
    refine ⟨fun _ h => absurd h (by simp [hprivacy]), fun _ hpass => ?_⟩
    cases hbip : bipChecked a f with
    | true =>
      have hra : isBmc f = true := by
        simp only [bipChecked, Bool.and_eq_true] at hbip
        exact hbip.1.1.2
      rw [checked_verifies crypto hbip] at hpass
      have hret : (a.securitypriv.bipVerify crypto f).ret = .success := by
        simpa [bipVerifyMgmt] using hpass
      constructor
      · intro hra'
        rw [hra] at hra'
        cases hra'
      · intro _ _
        simp [bipAccepted, hbip, hret]
    | false =>
      unfold Shielded
      rw [checked_admits crypto hkey hpeer hprivacy hbip] at hpass ⊢
      constructor
      · intro hra hprotected
        simp [hra, hprotected] at hpass
      · intro hra hprotected
        simp [hra, hprotected] at hpass

structure Receiver where
  adapter : Adapter
  accepted : Unit → List ℕ

inductive Event where
  | frame (f : RecvFrame)
  | environment (a : Adapter)

def step (r : Receiver) : Event → Receiver
  | .frame f =>
    ⟨(checked crypto r.adapter f).adapter,
      match bipAccepted crypto r.adapter f with
      | none => r.accepted
      | some ipn => Function.update r.accepted () (ipn :: r.accepted ())⟩
  | .environment a =>
    { r with
      adapter := { a with
        securitypriv := { a.securitypriv with
          dot11wBipRxpn := r.adapter.securitypriv.dot11wBipRxpn } } }

def start (a : Adapter) : Receiver := ⟨a, fun _ => []⟩

def Safe (r : Receiver) : Event → Prop
  | .frame f =>
    r.adapter.securitypriv.binstallBipKey = true →
      (∀ psta, peer r.adapter f = some psta → (checked crypto r.adapter f).pass = true →
        Shielded crypto r.adapter psta f) ∧
      (∀ ipn, bipAccepted crypto r.adapter f = some ipn → Fresh r.accepted () ipn) ∧
      (bipAccepted crypto r.adapter f = none →
        (step crypto r (.frame f)).adapter.securitypriv.dot11wBipRxpn =
          r.adapter.securitypriv.dot11wBipRxpn)
  | .environment _ => True

def Meets (r : Receiver) : Event → Prop
  | .frame f =>
    r.adapter.securitypriv.binstallBipKey = true → f.attrib.privacy = true →
      ∀ psta, peer r.adapter f = some psta →
        (mgmtPrepared psta f).pastIv + (mgmtPrepared psta f).attrib.icvLen ≤ f.attrib.pktLen →
        SafeCipher crypto r.adapter psta f
  | .environment _ => True

def Counts (r : Receiver) : Prop :=
  Tracks (fun _ : Unit => r.adapter.securitypriv.dot11wBipRxpn) r.accepted

theorem counts_start (a : Adapter) : Counts (start a) := tracks_empty _

theorem bip_fresh {r : Receiver} (hr : Counts r) {f : RecvFrame} {ipn : ℕ}
    (h : bipAccepted crypto r.adapter f = some ipn) : Fresh r.accepted () ipn :=
  (fresh_iff hr () ipn).mpr fun _ => lt_of_bipAccepted crypto h

theorem counts_step {r : Receiver} (hr : Counts r) (e : Event) : Counts (step crypto r e) := by
  cases e with
  | environment a => exact hr
  | frame f =>
    have hipn := checked_ipn crypto r.adapter f
    unfold Counts
    cases hbip : bipAccepted crypto r.adapter f with
    | none =>
      rw [hbip, Option.getD_none] at hipn
      simp only [step, hbip, hipn]
      exact hr
    | some ipn =>
      rw [hbip, Option.getD_some] at hipn
      have hlast : (fun _ : Unit => ipn) =
          Function.update (fun _ => r.adapter.securitypriv.dot11wBipRxpn) () ipn := by
        funext k
        exact (Function.update_self (f := fun _ => r.adapter.securitypriv.dot11wBipRxpn) () ipn).symm
      simp only [step, hbip, hipn, hlast]
      exact hr.push (bip_fresh crypto hr hbip)

theorem safe_iff {r : Receiver} (hr : Counts r) (e : Event) :
    Safe crypto r e ↔ Meets crypto r e := by
  cases e with
  | environment a => exact Iff.rfl
  | frame f =>
    constructor
    · intro hsafe hkey hprivacy psta hpeer
      exact (shielded_iff crypto hkey hpeer).mp ((hsafe hkey).1 psta hpeer) hprivacy
    · intro hmeets hkey
      refine ⟨fun psta hpeer => ?_, fun ipn => bip_fresh crypto hr, fun hbip => ?_⟩
      · exact (shielded_iff crypto hkey hpeer).mpr fun hprivacy => hmeets hkey hprivacy psta hpeer
      · have hipn := checked_ipn crypto r.adapter f
        rwa [hbip, Option.getD_none] at hipn

theorem mgmt_protected_iff (a : Adapter) (es : List Event) :
    Run.Each (step crypto) (Safe crypto) (start a) es ↔
      Run.Each (step crypto) (Meets crypto) (start a) es :=
  Run.each_iff (step crypto) (Safe crypto) (Meets crypto) Counts (fun _ e hr => safe_iff crypto hr e)
    (fun _ e hr _ => counts_step crypto hr e) (counts_start a) es

def peerAddr : MacAddr := localAddr 1

def apAddr : MacAddr := localAddr 2

def accessPoint : Adapter where
  fwState := ⟨false, false, true, false, true, false⟩
  macAddr := apAddr
  bssid := apAddr
  securitypriv := { SecurityPriv.zero with
    dot11AuthAlgrthm := .dot118021X
    dot11PrivacyAlgrthm := .aes
    dot118021XGrpPrivacy := .aes
    binstallBipKey := true
    dot11wCipher := .bipCmac128
    dot11wBipKeyid := 4 }
  stapriv := [{ rtwAllocStainfo peerAddr with mfp := true }]
  recvpriv := rtwInitRecvPriv

def protectedDeauth : RecvFrame :=
  let data := [0xC0, 0x40, 0, 0] ++ apAddr.toList ++ peerAddr.toList ++ apAddr.toList ++
    [0x10, 0, 7, 0]
  { rtwInitRecvframe 0 with
    data := data
    attrib := { RxPktAttrib.zero.ofHeader data with pktLen := 26 } }

theorem keyless_deauth_passes :
    (checked .rejecting accessPoint protectedDeauth).pass = true ∧
      ¬Run.Each (step .rejecting) (Safe .rejecting) (start accessPoint) [.frame protectedDeauth] := by
  have hpass : (checked .rejecting accessPoint protectedDeauth).pass = true := by decide +kernel
  refine ⟨hpass, fun h => ?_⟩
  obtain ⟨psta, hpeer⟩ : ∃ psta, peer accessPoint protectedDeauth = some psta :=
    Option.isSome_iff_exists.mp (by decide +kernel)
  have hprivacy : psta.dot118021XPrivacy = .noPrivacy := by
    have hmap : (peer accessPoint protectedDeauth).map StaInfo.dot118021XPrivacy =
        some .noPrivacy := by decide +kernel
    rw [hpeer] at hmap
    exact Option.some.inj hmap
  have hshielded := (h.1 rfl).1 psta hpeer hpass
  have hdecrypted := hshielded.1 (by decide +kernel) (by
    have hkind : (getFrameSubType protectedDeauth.rxData == wifiDeauth) = true := by decide +kernel
    simp [unicastProtected, hkind])
  have hcipher := hdecrypted.2.1
  rw [hprivacy] at hcipher
  cases hcipher

end ProtectedMgmt

end Recv
