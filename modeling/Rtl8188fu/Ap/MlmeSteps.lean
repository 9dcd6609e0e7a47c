import Rtl8188fu.Ap.Renegotiate

namespace Ap

open Ie
open Recv (MacAddr)

def StaInfo.interlude (sta : StaInfo) : Interlude where
  state := sta.state
  authalg := sta.authalg
  authSeq := sta.authSeq
  chgTxt := sta.chgTxt
  expireTo := sta.expireTo
  bpairwiseKeyInstalled := sta.bpairwiseKeyInstalled

section Parsers

variable (cfg : ApCfg) (env : AssocEnv) (f : RxFrame) (m : Mem) (sta : StaInfo) (elems : Elems)

theorem check_interlude {p : StaInfo × ℕ} {next : StaInfo → StaInfo × ℕ} {i : Interlude}
    (hp : p.1.interlude = i) (hnext : ∀ sta : StaInfo, sta.interlude = i →
      (next sta).1.interlude = i) : (check p next).1.interlude = i := by
  unfold check
  split
  · exact hnext p.1 hp
  · exact hp

theorem pick_interlude : (pick cfg m sta elems).sta.interlude = sta.interlude := by
  unfold pick
  cases if cfg.wpaPsk &&& 2 ≠ 0 then elems.rsnIe else none with
  | some ie =>
    simp only [pickWpa2]
    cases rtwParseWpa2Ie m (ie.pos - 2) (ie.len + 2) <;> rfl
  | none =>
    cases if cfg.wpaPsk &&& 1 ≠ 0 then elems.wpaIe else none with
    | none => rfl
    | some ie =>
      simp only [pickWpa]
      cases rtwParseWpaIe m (ie.pos - 2) (ie.len + 2) <;> rfl

theorem setAmsduDisable_interlude (sppOpt : ℕ) :
    (setAmsduDisable cfg sppOpt sta).interlude = sta.interlude := by
  unfold setAmsduDisable
  split <;> rfl

theorem checkMfp_interlude (gmcs mfpOpt : ℕ) :
    (checkMfp cfg gmcs mfpOpt sta).1.interlude = sta.interlude := by
  unfold checkMfp
  simp only
  split_ifs <;> rfl

theorem checkPmkid_interlude : (checkPmkid cfg env sta).1.interlude = sta.interlude := by
  unfold checkPmkid
  split <;> rfl

theorem checkWps_interlude (wpaIe : Option Elem) :
    (checkWps cfg m elems wpaIe sta).1.interlude = sta.interlude := by
  cases wpaIe with
  | none =>
    simp only [checkWps]
    split_ifs <;> rfl
  | some ie =>
    simp only [checkWps]
    split_ifs <;> rfl

theorem rtwApParseStaSecurityIe_interlude :
    (rtwApParseStaSecurityIe cfg env m sta elems).1.interlude = sta.interlude := by
  unfold rtwApParseStaSecurityIe
  refine check_interlude (pick_interlude cfg m (clearSecurity sta) elems) fun sta hsta => ?_
  refine check_interlude ?_ fun sta hsta => ?_
  · rw [checkMfp_interlude, setAmsduDisable_interlude, hsta]
  refine check_interlude ?_ fun sta hsta => ?_
  · rw [checkPmkid_interlude, hsta]
  · rw [checkWps_interlude, hsta]

theorem rtwApParseStaSupportedRates_interlude :
    (rtwApParseStaSupportedRates sta f).1.interlude = sta.interlude := by
  unfold rtwApParseStaSupportedRates
  simp only
  split <;> rfl

theorem rtwApParseStaWmmIe_interlude :
    (rtwApParseStaWmmIe cfg sta f).interlude = sta.interlude := by
  rw [rtwApParseStaWmmIe_eq]
  rfl

theorem rtwApParseStaHtIe_interlude :
    (rtwApParseStaHtIe cfg m sta elems).interlude = sta.interlude := by
  unfold rtwApParseStaHtIe
  simp only
  split
  · rfl
  cases htCapOf cfg m elems with
  | none => rfl
  | some htCap => cases htOpOf cfg m elems <;> rfl

theorem rejectTkipHt_interlude : (rejectTkipHt sta).interlude = sta.interlude := by
  rw [rejectTkipHt_eq]
  rfl

theorem assocChecks_interlude : (assocChecks cfg env f sta).1.interlude = sta.interlude := by
  unfold assocChecks
  split
  · rfl
  cases rtwIeee80211ParseElems f.data f.ies f.iesLen with
  | none => rfl
  | some elems =>
    simp only
    split
    · rfl
    refine check_interlude ?_ fun sta hsta => ?_
    · rw [rtwApParseStaSupportedRates_interlude]
      rfl
    refine check_interlude ?_ fun sta hsta => ?_
    · rw [rtwApParseStaSecurityIe_interlude, hsta]
    have hparsed : (rejectTkipHt (rtwApParseStaVhtIe (rtwApParseStaHtIe cfg f.data
        (rtwApParseStaWmmIe cfg sta f) elems))).interlude = sta.interlude := by
      rw [rejectTkipHt_interlude]
      exact (rtwApParseStaHtIe_interlude ..).trans (rtwApParseStaWmmIe_interlude ..)
    split
    · exact hparsed.trans hsta
    · exact hparsed.trans hsta

end Parsers

def AuthDelegated (cfg : ApCfg) (wep : Wep) (env : AuthEnv) (f : RxFrame) : Prop :=
  env.reportAuth ∧ f.authAlgorithm wep = wlanAuthSae ∧ authMode cfg (f.authAlgorithm wep) = 2

def AuthAccepted (cfg : ApCfg) (wep : Wep) (f : RxFrame) (sta : StaInfo) : Prop :=
  sta.authSeq + 1 = f.authTransaction wep ∧
    (f.authTransaction wep = 1 ∨
      (f.authTransaction wep = 3 ∧
        openSystem (authMode cfg (f.authAlgorithm wep)) (f.authAlgorithm wep) = false ∧
        challengeMatches (f.plain wep) (f.challenge wep) sta.chgTxt = true))

instance (cfg : ApCfg) (wep : Wep) (env : AuthEnv) (f : RxFrame) :
    Decidable (AuthDelegated cfg wep env f) :=
  inferInstanceAs (Decidable (_ ∧ _ ∧ _))

instance (cfg : ApCfg) (wep : Wep) (f : RxFrame) (sta : StaInfo) :
    Decidable (AuthAccepted cfg wep f sta) :=
  inferInstanceAs (Decidable (_ ∧ _))

theorem authVerdict_accepted (cfg : ApCfg) (wep : Wep) (f : RxFrame) (sta : StaInfo) :
    (authVerdict cfg wep f sta).2 = statsSuccessful ↔ AuthAccepted cfg wep f sta := by
  have hsequence : statsOutOfAuthSeq ≠ statsSuccessful := by decide
  have hchallenge : statsChallengeFail ≠ statsSuccessful := by decide
  unfold authVerdict AuthAccepted
  simp only
  split
  · next hseq => exact iff_of_false hsequence fun h => hseq h.1
  · next hseq =>
    rw [not_not] at hseq
    split
    · next hopen =>
      split
      · next hone => exact iff_of_true rfl ⟨hseq, .inl hone⟩
      · next hone =>
        refine iff_of_false hsequence ?_
        rintro ⟨-, hone' | ⟨-, hclosed, -⟩⟩
        · exact hone hone'
        · rw [hopen] at hclosed
          cases hclosed
    · next hopen =>
      split
      · next hone => exact iff_of_true rfl ⟨hseq, .inl hone⟩
      · next hone =>
        split
        · next hthree =>
          split
          · next hmatch => exact iff_of_true rfl ⟨hseq, .inr ⟨hthree, by simpa using hopen, hmatch⟩⟩
          · next hmatch =>
            refine iff_of_false hchallenge ?_
            rintro ⟨-, hone' | ⟨-, -, hmatch'⟩⟩
            · exact hone hone'
            · exact hmatch hmatch'
        · next hthree =>
          refine iff_of_false hsequence ?_
          rintro ⟨-, hone' | ⟨hthree', -⟩⟩
          · exact hone hone'
          · exact hthree hthree'

theorem authVerdict_rejected {cfg : ApCfg} {wep : Wep} {f : RxFrame} {sta : StaInfo}
    (h : ¬ AuthAccepted cfg wep f sta) : (authVerdict cfg wep f sta).1 = sta := by
  rw [← authVerdict_accepted] at h
  unfold authVerdict at h ⊢
  simp only at h ⊢
  split_ifs at h ⊢ <;> first | rfl | exact absurd rfl h

namespace StaPriv

structure AuthHeard (cfg : ApCfg) (wep : Wep) (env : AuthEnv) (s : StaPriv) (f : RxFrame) :
    Prop where
  ap : s.aid.state % 4 = hwStateAp
  asoc : env.mlmeIsAsoc = true
  addr : rtwCheckInvalidMacAddress f.addr2 = false
  attack : env.attackChk = true → s.associatedAddr f.addr2 = true
  force : env.forceAuthFail = 0
  algorithm : badAlgorithm (authMode cfg (f.authAlgorithm wep)) (f.authAlgorithm wep) = false
  access : env.accessAllowed = true

theorem onAuth_cases (cfg : ApCfg) (wep : Wep) (env : AuthEnv) (s : StaPriv) (f : RxFrame) :
    (AuthHeard cfg wep env s f ∧ s.onAuth cfg wep env f =
      match s.admitSta f.addr2 with
      | (s, none) => (s, [.auth statsUnableHandleSta])
      | (s, some p) => s.authSta cfg wep env f p) ∨
    (¬ AuthHeard cfg wep env s f ∧ (s.onAuth cfg wep env f).1 = s) := by
  unfold onAuth
  simp only
  split
  · next hap => exact .inr ⟨fun h => hap h.ap, rfl⟩
  split
  · next hasoc => exact .inr ⟨fun h => by simp [h.asoc] at hasoc, rfl⟩
  split
  · next haddr => exact .inr ⟨fun h => by simp [h.addr] at haddr, rfl⟩
  split
  · next hattack => exact .inr ⟨fun h => by simp [h.attack hattack.1] at hattack, rfl⟩
  split
  · next hforce => exact .inr ⟨fun h => hforce h.force, rfl⟩
  split
  · next halg => exact .inr ⟨fun h => by simp [h.algorithm] at halg, rfl⟩
  split
  · next haccess => exact .inr ⟨fun h => by simp [h.access] at haccess, rfl⟩
  · next hap hasoc haddr hattack hforce halg haccess =>
    exact .inl ⟨⟨by simpa using hap, by simpa using hasoc, by simpa using haddr,
      by simpa using hattack, by simpa using hforce, by simpa using halg, by simpa using haccess⟩,
      rfl⟩

@[simp] theorem setSta_setSta (s : StaPriv) (p : StaId) (a b : StaInfo) :
    (s.setSta p a).setSta p b = s.setSta p b := by
  simp [setSta]

theorem setSta_self (s : StaPriv) (p : StaId) : s.setSta p (s.sta p) = s := by
  simp [setSta]

theorem enlist_eq (cfg : ApCfg) (s : StaPriv) (p : StaId) :
    ∃ t, s.enlist cfg p = (if unprotected (s.sta p) then s.linkAuth p else s).setSta p
      { s.sta p with expireTo := t } := by
  have hsta : (if unprotected (s.sta p) then s.linkAuth p else s).sta = s.sta := by
    split <;> simp
  unfold enlist
  simp only [hsta]
  split
  · exact ⟨cfg.authTo, rfl⟩
  · refine ⟨(s.sta p).expireTo, (setSta_self _ p).symm.trans ?_⟩
    rw [hsta]

theorem authVerdict_expireTo (cfg : ApCfg) (wep : Wep) (f : RxFrame) (sta : StaInfo) (t : ℕ) :
    AuthAccepted cfg wep f { sta with expireTo := t } ↔ AuthAccepted cfg wep f sta := Iff.rfl

theorem authSta_cases (cfg : ApCfg) (wep : Wep) (env : AuthEnv) (s : StaPriv) (f : RxFrame)
    (p : StaId) : ∃ t,
    let e := if unprotected (s.sta p) then s.linkAuth p else s
    let sta := { s.sta p with expireTo := t }
    (AuthDelegated cfg wep env f ∧ s.authSta cfg wep env f p =
      (e.setSta p { sta with authalg := f.authAlgorithm wep }, [.userSpace])) ∨
    (¬ AuthDelegated cfg wep env f ∧ AuthAccepted cfg wep f (s.sta p) ∧
      s.authSta cfg wep env f p =
        (e.setSta p (authAnswered (f.authTransaction wep) (authVerdict cfg wep f sta).1),
          [.auth statsSuccessful])) ∨
    (¬ AuthDelegated cfg wep env f ∧ ¬ AuthAccepted cfg wep f (s.sta p) ∧ ∃ status,
      s.authSta cfg wep env f p = ((e.setSta p sta).rtwFreeStainfo p, [.auth status])) := by
  obtain ⟨t, henlist⟩ := s.enlist_eq cfg p
  refine ⟨t, ?_⟩
  simp only
  unfold authSta
  simp only [henlist, setSta_sta, Function.update_self, setSta_setSta]
  cases Decidable.em (AuthDelegated cfg wep env f) with
  | inl hdelegated =>
    left
    exact ⟨hdelegated, if_pos hdelegated⟩
  | inr hdelegated =>
    right
    have hverdict := authVerdict_accepted cfg wep f { s.sta p with expireTo := t }
    rw [authVerdict_expireTo] at hverdict
    unfold AuthDelegated at hdelegated ⊢
    simp only [if_neg hdelegated]
    cases Decidable.em (AuthAccepted cfg wep f (s.sta p)) with
    | inl haccepted =>
      left
      refine ⟨hdelegated, haccepted, ?_⟩
      rw [if_neg (not_not.mpr (hverdict.mpr haccepted))]
    | inr haccepted =>
      right
      have hsame := @authVerdict_rejected _ _ _ { s.sta p with expireTo := t } haccepted
      refine ⟨hdelegated, haccepted, (authVerdict cfg wep f { s.sta p with expireTo := t }).2, ?_⟩
      rw [if_pos fun hok => haccepted (hverdict.mp hok), hsame]

structure AssocHeard (s : StaPriv) (f : RxFrame) (p : StaId) : Prop where
  ap : s.aid.state % 4 = hwStateAp
  addr : rtwCheckInvalidMacAddress f.addr2 = false
  len : wlanHdrA3Len + f.ieOffset ≤ f.len
  found : s.table.rtwGetStainfo f.addr2 = some p
  unawaited : (s.sta p).authalg = wlanAuthSae → (s.sta p).state.authNull = false
  cls : (s.sta p).state.authSuccess = true ∨ (s.sta p).state.assocSuccess = true

theorem onAssocReq_cases (cfg : ApCfg) (env : AssocEnv) (s : StaPriv) (f : RxFrame) :
    (∃ p, AssocHeard s f p ∧ s.onAssocReq cfg env f = s.assocSta cfg env f p) ∨
    ((∀ p, ¬ AssocHeard s f p) ∧
      (s.onAssocReq cfg env f = (s, []) ∨ s.onAssocReq cfg env f = (s, [.deauth rsonCls2]))) := by
  unfold onAssocReq
  split
  · next hap => exact .inr ⟨fun p h => hap h.ap, .inl rfl⟩
  split
  · next haddr => exact .inr ⟨fun p h => by simp [h.addr] at haddr, .inl rfl⟩
  split
  · next hlen => exact .inr ⟨fun p h => absurd h.len (by omega), .inl rfl⟩
  · next hap haddr hlen =>
    cases hget : s.table.rtwGetStainfo f.addr2 with
    | none => exact .inr ⟨fun p h => by simp [h.found] at hget, .inr rfl⟩
    | some p =>
      have hsame : ∀ q, AssocHeard s f q → q = p := fun q h => by
        have hq := h.found
        rw [hget] at hq
        exact (Option.some.inj hq).symm
      simp only
      split
      · next hwait =>
        refine .inr ⟨fun q h => ?_, .inl rfl⟩
        have hnull := h.unawaited
        rw [hsame q h] at hnull
        simp [hnull hwait.1] at hwait
      split
      · next hcls =>
        refine .inr ⟨fun q h => ?_, .inr rfl⟩
        have hbits := h.cls
        rw [hsame q h] at hbits
        simp [hcls.1, hcls.2] at hbits
      · next hwait hcls =>
        refine .inl ⟨p, ⟨by simpa using hap, by simpa using haddr, not_lt.mp hlen, hget, ?_, ?_⟩,
          rfl⟩
        · intro hsae
          simpa [hsae] using hwait
        · by_contra hnone
          push Not at hnone
          exact hcls ⟨by simpa using hnone.1, by simpa using hnone.2⟩

structure AssocGranted (cfg : ApCfg) (env : AssocEnv) (s : StaPriv) (f : RxFrame) (p : StaId) :
    Prop where
  elems : env.elemsAllocated = true
  checks : (assocChecks cfg env f (beginAssoc (s.sta p))).2 = statsSuccessful
  aid : (s.aid.assignAid p).2 ≠ 0

theorem assocSta_cases (cfg : ApCfg) (env : AssocEnv) (s : StaPriv) (f : RxFrame) (p : StaId) :
    (AssocGranted cfg env s f p ∧ s.assocSta cfg env f p =
      (((s.setSta p (assocChecks cfg env f (beginAssoc (s.sta p))).1).assignAid p).1.enterBss
        cfg env p)) ∨
    (¬ AssocGranted cfg env s f p ∧ ∃ aid sta answers,
      (sta = beginAssoc (s.sta p) ∨ sta = (assocChecks cfg env f (beginAssoc (s.sta p))).1) ∧
      (∀ a ∈ answers, ∃ status n, a = .asocRsp status n ∧ status ≠ statsSuccessful) ∧
      s.assocSta cfg env f p = ({ s.setSta p sta with aid := aid }, answers)) := by
  unfold assocSta
  simp only [setSta_sta, Function.update_self, setSta_setSta]
  split
  · next helems =>
    refine .inr ⟨fun h => by simp [h.elems] at helems, s.aid, _, [], .inl rfl, by simp, rfl⟩
  · next helems =>
    split
    · next hchecks =>
      refine .inr ⟨fun h => hchecks h.checks, s.aid, _, _, .inr rfl, ?_, rfl⟩
      intro a ha
      exact ⟨_, _, List.mem_singleton.mp ha, hchecks⟩
    · next hchecks =>
      cases Decidable.em ((s.aid.assignAid p).2 = 0) with
      | inl haid =>
        refine .inr ⟨fun h => h.aid haid, _, _, _, .inr rfl, ?_, if_pos haid⟩
        intro a ha
        exact ⟨_, _, List.mem_singleton.mp ha, by decide⟩
      | inr haid =>
        exact .inl ⟨⟨by simpa using helems, by simpa using hchecks, haid⟩, if_neg haid⟩

inductive MlmeFrame where
  | auth (wep : Wep) (env : AuthEnv) (f : RxFrame)
  | assocReq (env : AssocEnv) (f : RxFrame)

def MlmeFrame.frame : MlmeFrame → RxFrame
  | .auth _ _ f => f
  | .assocReq _ f => f

def receive (cfg : ApCfg) (s : StaPriv) : MlmeFrame → StaPriv × List Answer
  | .auth wep env f => s.onAuth cfg wep env f
  | .assocReq env f => s.onAssocReq cfg env f

def received (cfg : ApCfg) (s : StaPriv) (e : MlmeFrame) : StaPriv := (s.receive cfg e).1

theorem receive_auth (cfg : ApCfg) (s : StaPriv) (wep : Wep) (env : AuthEnv) (f : RxFrame) :
    s.receive cfg (.auth wep env f) = s.onAuth cfg wep env f := rfl

theorem received_auth (cfg : ApCfg) (s : StaPriv) (wep : Wep) (env : AuthEnv) (f : RxFrame) :
    s.received cfg (.auth wep env f) = (s.onAuth cfg wep env f).1 := rfl

end StaPriv

end Ap
