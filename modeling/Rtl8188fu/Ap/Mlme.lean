import Rtl8188fu.Ap.AidAlloc
import Rtl8188fu.Ap.AssocParse
import Rtl8188fu.Ap.StaTable

namespace Ap

open Ie
open Recv (MacAddr isMcast macAt SecurityType)

structure Wep where
  decrypt : RxFrame → Mem
  icvCorrect : RxFrame → Bool

structure AuthEnv where
  mlmeIsAsoc : Bool
  attackChk : Bool
  forceAuthFail : ℕ
  accessAllowed : Bool
  reportAuth : Bool

structure TickEnv where
  underCac : Bool
  expireTo : StaId → ℕ
  dead : StaId → Bool

inductive Answer where
  | auth (status : ℕ)
  | asocRsp (status aid : ℕ)
  | deauth (reason : ℕ)
  | saQuery
  | userSpace
  deriving DecidableEq, Repr

structure StaPriv where
  table : StaTable
  sta : StaId → StaInfo
  aid : AidCtl StaId
  authList : List StaId
  asocList : List StaId
  authListCnt : ℤ
  asocListCnt : ℤ
  pendingDel : List MacAddr

def RxFrame.addr2 (f : RxFrame) : MacAddr := Vector.ofFn fun k => f.data (10 + k)

def RxFrame.addr3 (f : RxFrame) : MacAddr := Vector.ofFn fun k => f.data (16 + k)

def RxFrame.privacy (f : RxFrame) : Bool := f.data 1 &&& 0x40 != 0

def RxFrame.plain (wep : Wep) (f : RxFrame) : Mem := if f.privacy then wep.decrypt f else f.data

def RxFrame.authAt (f : RxFrame) : ℕ := wlanHdrA3Len + if f.privacy then 4 else 0

def RxFrame.authAlgorithm (wep : Wep) (f : RxFrame) : ℕ := le16 (f.plain wep) f.authAt

def RxFrame.authTransaction (wep : Wep) (f : RxFrame) : ℕ := le16 (f.plain wep) (f.authAt + 2)

def RxFrame.challenge (wep : Wep) (f : RxFrame) : Option ℕ :=
  rtwGetIe (f.plain wep) (wlanHdrA3Len + 4 + 6) eidChallenge ((f.len : ℤ) - wlanHdrA3Len - 6 - 4)

def rtwCheckInvalidMacAddress (mac : MacAddr) : Bool :=
  mac == Vector.replicate 6 0 || mac == bcAddr || isMcast mac

def rsonCls2 : ℕ := 6

def unprotected (sta : StaInfo) : Bool :=
  (sta.bpairwiseKeyInstalled != true && sta.flags.mfp) || !sta.flags.mfp

def authMode (cfg : ApCfg) (algorithm : ℕ) : ℕ :=
  if cfg.dot11AuthAlgrthm = 2 ∧ algorithm ≠ wlanAuthSae ∧ cfg.dot11PrivacyAlgrthm ≠ .wep40 ∧
      cfg.dot11PrivacyAlgrthm ≠ .wep104 then 0
  else cfg.dot11AuthAlgrthm

def badAlgorithm (mode algorithm : ℕ) : Bool :=
  (algorithm > 0 && mode == 0) || (algorithm == 0 && mode == 1)

def openSystem (mode algorithm : ℕ) : Bool :=
  algorithm == 0 && (mode == 0 || mode == 2 || mode == 3)

def openSuccess (cfg : ApCfg) (algorithm : ℕ) (sta : StaInfo) : StaInfo :=
  let sta := if unprotected sta then
      { sta with
        state := { sta.state with authNull := false, authSuccess := true }
        expireTo := cfg.assocTo }
    else sta
  { sta with authalg := algorithm }

def issueChallenge (algorithm : ℕ) (sta : StaInfo) : StaInfo :=
  let sta := { sta with chgTxt := List.replicate 128 78 }
  let sta := if unprotected sta then
      { sta with state := { sta.state with authNull := false, authState := true } }
    else sta
  { sta with authalg := algorithm, authSeq := 2 }

def challengeSuccess (cfg : ApCfg) (sta : StaInfo) : StaInfo :=
  if unprotected sta then
    { sta with
      state := { sta.state with authState := false, authSuccess := true }
      expireTo := cfg.assocTo }
  else sta

def challengeMatches (m : Mem) (p : Option ℕ) (chgTxt : List UInt8) : Bool :=
  match p with
  | none => false
  | some p => m (p + 1) != 0 && memcmp m (p + 2) chgTxt

def authVerdict (cfg : ApCfg) (wep : Wep) (f : RxFrame) (sta : StaInfo) : StaInfo × ℕ :=
  let algorithm := f.authAlgorithm wep
  let seq := f.authTransaction wep
  if sta.authSeq + 1 ≠ seq then (sta, statsOutOfAuthSeq)
  else if openSystem (authMode cfg algorithm) algorithm then
    if seq = 1 then (openSuccess cfg algorithm sta, statsSuccessful)
    else (sta, statsOutOfAuthSeq)
  else if seq = 1 then (issueChallenge algorithm sta, statsSuccessful)
  else if seq = 3 then
    if challengeMatches (f.plain wep) (f.challenge wep) sta.chgTxt then
      (challengeSuccess cfg sta, statsSuccessful)
    else (sta, statsChallengeFail)
  else (sta, statsOutOfAuthSeq)

def authAnswered (seq : ℕ) (sta : StaInfo) : StaInfo :=
  { sta with authSeq := if sta.state.authSuccess || sta.state.assocSuccess then 0 else seq + 1 }

def beginAssoc (sta : StaInfo) : StaInfo :=
  if sta.state.authSuccess then
    { sta with state := { sta.state with authSuccess := false, assocState := true } }
  else
    { sta with state := { sta.state with assocSuccess := false, assocState := true } }

def finishAssoc (sta : StaInfo) : StaInfo :=
  { sta with state := { sta.state with assocState := false, assocSuccess := true } }

def staInfoUpdate (cfg : ApCfg) (sta : StaInfo) : StaInfo :=
  let ht := sta.flags.ht && cfg.htOption
  { sta with
    qosOption := ht || ((sta.flags.wme && cfg.qosOption) || sta.flags.ht)
    htOption := ht
    state := { sta.state with asoc := true } }

namespace StaPriv

def init (maxAid maxNumSta : ℕ) : StaPriv where
  table := (StaTable.init.rtwAllocStainfo bcAddr).1
  sta _ := .zero
  aid := .start maxAid maxNumSta
  authList := []
  asocList := []
  authListCnt := 0
  asocListCnt := 0
  pendingDel := []

def setSta (s : StaPriv) (p : StaId) (sta : StaInfo) : StaPriv :=
  { s with sta := Function.update s.sta p sta }

def linkAuth (s : StaPriv) (p : StaId) : StaPriv :=
  if p ∈ s.authList then s
  else { s with authList := s.authList ++ [p], authListCnt := s.authListCnt + 1 }

def unlinkAuth (s : StaPriv) (p : StaId) : StaPriv :=
  if p ∈ s.authList then
    { s with authList := s.authList.erase p, authListCnt := s.authListCnt - 1 }
  else s

def linkAsoc (cfg : ApCfg) (s : StaPriv) (p : StaId) : StaPriv :=
  if p ∈ s.asocList then s
  else
    let s := s.setSta p { s.sta p with expireTo := cfg.expireTo }
    { s with asocList := s.asocList ++ [p], asocListCnt := s.asocListCnt + 1 }

def unlinkAsoc (s : StaPriv) (p : StaId) : StaPriv :=
  if p ∈ s.asocList then
    { s with asocList := s.asocList.erase p, asocListCnt := s.asocListCnt - 1 }
  else s

def rtwAllocStainfo (s : StaPriv) (hwaddr : MacAddr) : StaPriv × Option StaId :=
  match s.table.rtwAllocStainfo hwaddr with
  | (table, none) => ({ s with table := table }, none)
  | (table, some p) =>
    ({ s with
      table := table
      sta := Function.update s.sta p .zero
      aid := { s.aid with aid := Function.update s.aid.aid p 0 } }, some p)

def rtwFreeStainfo (s : StaPriv) (p : StaId) : StaPriv :=
  let s := { s with table := s.table.rtwFreeStainfo p }
  let sta := s.sta p
  let s := s.setSta p { sta with state := { sta.state with asoc := false } }
  let s := s.unlinkAuth p
  let sta := s.sta p
  let s := s.setSta p { sta with
    expireTo := 0
    qosInfo := 0
    maxSpLen := 0
    uapsdBk := 0
    uapsdBe := 0
    uapsdVi := 0
    uapsdVo := 0
    hasLegacyAc := false }
  { s with aid := s.aid.rtwFreeStainfo p }

def apFreeSta (s : StaPriv) (p : StaId) : StaPriv :=
  let sta := s.sta p
  let s := s.setSta p { sta with state := { sta.state with asoc := false } }
  { s with pendingDel := s.pendingDel ++ [s.table.macAddr p] }

def associatedAddr (s : StaPriv) (mac : MacAddr) : Bool :=
  match s.table.rtwGetStainfo mac with
  | none => false
  | some p => (s.sta p).state.assocSuccess

def admitSta (s : StaPriv) (sa : MacAddr) : StaPriv × Option StaId :=
  match s.table.rtwGetStainfo sa with
  | none =>
    match s.rtwAllocStainfo sa with
    | (s, none) => (s, none)
    | (s, some p) =>
      (s.setSta p { s.sta p with
        state := { StaState.zero with authNull := true }, authSeq := 0 }, some p)
  | some p => (if unprotected (s.sta p) then s.unlinkAsoc p else s, some p)

def enlist (cfg : ApCfg) (s : StaPriv) (p : StaId) : StaPriv :=
  let s := if unprotected (s.sta p) then s.linkAuth p else s
  if (s.sta p).authSeq = 0 then s.setSta p { s.sta p with expireTo := cfg.authTo } else s

def authSta (cfg : ApCfg) (wep : Wep) (env : AuthEnv) (s : StaPriv) (f : RxFrame) (p : StaId) :
    StaPriv × List Answer :=
  let s := s.enlist cfg p
  let algorithm := f.authAlgorithm wep
  if env.reportAuth ∧ algorithm = wlanAuthSae ∧ authMode cfg algorithm = 2 then
    (s.setSta p { s.sta p with authalg := algorithm }, [.userSpace])
  else
    match authVerdict cfg wep f (s.sta p) with
    | (sta, status) =>
      let s := s.setSta p sta
      if status ≠ statsSuccessful then (s.rtwFreeStainfo p, [.auth status])
      else (s.setSta p (authAnswered (f.authTransaction wep) sta), [.auth statsSuccessful])

def onAuth (cfg : ApCfg) (wep : Wep) (env : AuthEnv) (s : StaPriv) (f : RxFrame) :
    StaPriv × List Answer :=
  let algorithm := f.authAlgorithm wep
  if s.aid.state % 4 ≠ hwStateAp then (s, [])
  else if env.mlmeIsAsoc = false then (s, [])
  else if rtwCheckInvalidMacAddress f.addr2 then (s, [])
  else if env.attackChk ∧ s.associatedAddr f.addr2 = false then
    (s, [.auth statsRefusedTemporarily])
  else if env.forceAuthFail ≠ 0 then (s, [.auth env.forceAuthFail])
  else if badAlgorithm (authMode cfg algorithm) algorithm then (s, [.auth statsNoSuppAlg])
  else if env.accessAllowed = false then (s, [.auth statsUnableHandleSta])
  else
    match s.admitSta f.addr2 with
    | (s, none) => (s, [.auth statsUnableHandleSta])
    | (s, some p) => s.authSta cfg wep env f p

def assignAid (s : StaPriv) (p : StaId) : StaPriv × ℕ :=
  let (aid, n) := s.aid.assignAid p
  ({ s with aid := aid }, n)

def enterBss (cfg : ApCfg) (env : AssocEnv) (s : StaPriv) (p : StaId) : StaPriv × List Answer :=
  let s := s.setSta p (finishAssoc (s.sta p))
  if unprotected (s.sta p) then
    let s := (s.unlinkAuth p).linkAsoc cfg p
    let s := s.setSta p (staInfoUpdate cfg (s.sta p))
    let status := if env.mboAssocDisallow then statsUnableHandleSta else statsSuccessful
    (s, [.asocRsp status (s.aid.aid p)])
  else
    let status := if env.mboAssocDisallow then statsUnableHandleSta else statsRefusedTemporarily
    (s, [.asocRsp status (s.aid.aid p), .saQuery])

def assocSta (cfg : ApCfg) (env : AssocEnv) (s : StaPriv) (f : RxFrame) (p : StaId) :
    StaPriv × List Answer :=
  let s := s.setSta p (beginAssoc (s.sta p))
  if env.elemsAllocated = false then (s, [])
  else
    match assocChecks cfg env f (s.sta p) with
    | (sta, status) =>
      let s := s.setSta p sta
      if status ≠ statsSuccessful then (s, [.asocRsp status (s.aid.aid p)])
      else
        match s.assignAid p with
        | (s, aid) =>
          if aid = 0 then (s, [.asocRsp statsUnableHandleSta (s.aid.aid p)])
          else s.enterBss cfg env p

def onAssocReq (cfg : ApCfg) (env : AssocEnv) (s : StaPriv) (f : RxFrame) :
    StaPriv × List Answer :=
  if s.aid.state % 4 ≠ hwStateAp then (s, [])
  else if rtwCheckInvalidMacAddress f.addr2 then (s, [])
  else if f.len < wlanHdrA3Len + f.ieOffset then (s, [])
  else
    match s.table.rtwGetStainfo f.addr2 with
    | none => (s, [.deauth rsonCls2])
    | some p =>
      let sta := s.sta p
      if sta.authalg = wlanAuthSae ∧ sta.state.authNull then (s, [])
      else if sta.state.authSuccess = false ∧ sta.state.assocSuccess = false then
        (s, [.deauth rsonCls2])
      else s.assocSta cfg env f p

def onDeAuth (bssid : MacAddr) (s : StaPriv) (f : RxFrame) : StaPriv :=
  if f.addr3 ≠ bssid then s
  else
    match s.table.rtwGetStainfo f.addr2 with
    | none => s
    | some p => if p ∈ s.asocList then (s.unlinkAsoc p).apFreeSta p else s

def expireAuth (s : StaPriv) : StaPriv :=
  let flush := s.authList.filter fun p => (s.sta p).expireTo = 1
  let s := s.authList.foldl
    (fun s p => s.setSta p { s.sta p with expireTo := (s.sta p).expireTo - 1 }) s
  flush.foldl rtwFreeStainfo s

def expireAsoc (env : TickEnv) (s : StaPriv) : StaPriv :=
  let s := s.asocList.foldl
    (fun s p => s.setSta p { s.sta p with expireTo := env.expireTo p }) s
  let dead := s.asocList.filter fun p => env.dead p && (s.sta p).state.asoc
  dead.foldl apFreeSta (dead.foldl unlinkAsoc s)

def expireTimeoutChk (env : TickEnv) (s : StaPriv) : StaPriv :=
  if env.underCac then s else s.expireAuth.expireAsoc env

def rtwStaFlush (s : StaPriv) : StaPriv :=
  let flush := s.asocList
  flush.foldl apFreeSta (flush.foldl unlinkAsoc s)

def rtwStadelEventCallback (s : StaPriv) : StaPriv :=
  match s.pendingDel with
  | [] => s
  | mac :: rest =>
    let s := { s with pendingDel := rest }
    match s.table.rtwGetStainfo mac with
    | none => s
    | some p => s.rtwFreeStainfo p

def setStaKey (s : StaPriv) (mac : MacAddr) : StaPriv :=
  match s.table.rtwGetStainfo mac with
  | none => s
  | some p => s.setSta p { s.sta p with bpairwiseKeyInstalled := true }

section Fields

variable (s : StaPriv) (p q : StaId) (sta : StaInfo) (cfg : ApCfg)

@[simp] theorem setSta_table : (s.setSta p sta).table = s.table := rfl

@[simp] theorem setSta_aid : (s.setSta p sta).aid = s.aid := rfl

@[simp] theorem setSta_authList : (s.setSta p sta).authList = s.authList := rfl

@[simp] theorem setSta_asocList : (s.setSta p sta).asocList = s.asocList := rfl

@[simp] theorem setSta_authListCnt : (s.setSta p sta).authListCnt = s.authListCnt := rfl

@[simp] theorem setSta_asocListCnt : (s.setSta p sta).asocListCnt = s.asocListCnt := rfl

@[simp] theorem setSta_sta : (s.setSta p sta).sta = Function.update s.sta p sta := rfl

@[simp] theorem linkAuth_table : (s.linkAuth p).table = s.table := by
  unfold linkAuth
  split <;> rfl

@[simp] theorem linkAuth_sta : (s.linkAuth p).sta = s.sta := by
  unfold linkAuth
  split <;> rfl

@[simp] theorem linkAuth_aid : (s.linkAuth p).aid = s.aid := by
  unfold linkAuth
  split <;> rfl

@[simp] theorem linkAuth_asocList : (s.linkAuth p).asocList = s.asocList := by
  unfold linkAuth
  split <;> rfl

@[simp] theorem unlinkAuth_table : (s.unlinkAuth p).table = s.table := by
  unfold unlinkAuth
  split <;> rfl

@[simp] theorem unlinkAuth_sta : (s.unlinkAuth p).sta = s.sta := by
  unfold unlinkAuth
  split <;> rfl

@[simp] theorem unlinkAuth_aid : (s.unlinkAuth p).aid = s.aid := by
  unfold unlinkAuth
  split <;> rfl

@[simp] theorem unlinkAuth_asocList : (s.unlinkAuth p).asocList = s.asocList := by
  unfold unlinkAuth
  split <;> rfl

@[simp] theorem unlinkAsoc_table : (s.unlinkAsoc p).table = s.table := by
  unfold unlinkAsoc
  split <;> rfl

@[simp] theorem unlinkAsoc_sta : (s.unlinkAsoc p).sta = s.sta := by
  unfold unlinkAsoc
  split <;> rfl

@[simp] theorem unlinkAsoc_aid : (s.unlinkAsoc p).aid = s.aid := by
  unfold unlinkAsoc
  split <;> rfl

@[simp] theorem unlinkAsoc_authList : (s.unlinkAsoc p).authList = s.authList := by
  unfold unlinkAsoc
  split <;> rfl

@[simp] theorem linkAsoc_table : (s.linkAsoc cfg p).table = s.table := by
  unfold linkAsoc
  split <;> rfl

@[simp] theorem linkAsoc_aid : (s.linkAsoc cfg p).aid = s.aid := by
  unfold linkAsoc
  split <;> rfl

@[simp] theorem linkAsoc_authList : (s.linkAsoc cfg p).authList = s.authList := by
  unfold linkAsoc
  split <;> rfl

@[simp] theorem assignAid_table : (s.assignAid p).1.table = s.table := rfl

@[simp] theorem assignAid_sta : (s.assignAid p).1.sta = s.sta := rfl

@[simp] theorem assignAid_authList : (s.assignAid p).1.authList = s.authList := rfl

@[simp] theorem assignAid_asocList : (s.assignAid p).1.asocList = s.asocList := rfl

theorem linkAsoc_sta_self :
    ∃ expireTo, (s.linkAsoc cfg p).sta p = { s.sta p with expireTo := expireTo } := by
  unfold linkAsoc
  split
  · exact ⟨(s.sta p).expireTo, rfl⟩
  · exact ⟨cfg.expireTo, by simp⟩

end Fields

end StaPriv

end Ap
