import Mathlib.Algebra.Order.Group.Int
import Mathlib.Data.List.Basic
import Mathlib.Tactic.Common

namespace Rm

inductive RmState where
  | idle
  | doMeas
  | waitMeas
  | sendReport
  | recvReport
  | ended
  deriving DecidableEq, Repr

inductive RmEv where
  | stateIn
  | busyTimerExpire
  | delayTimerExpire
  | measTimerExpire
  | retryTimerExpire
  | repeatDelayExpire
  | requestTimerExpire
  | waitReport
  | startMeas
  | surveyDone
  | recvRep
  | cancel
  | stateOut
  | max
  deriving DecidableEq, Repr

structure RmEvent where
  rmid : UInt32
  evid : RmEv
  deriving DecidableEq, Repr

def rmMaster : UInt32 := 0x1
def rmAllMeas : UInt32 := 0x2
def rmTimerNum : ℕ := 32
def clockUnit : ℕ := 10

def rmReqTimeout : ℕ := 10000
def rmMeasTimeout : ℕ := 10000
def rmReptScanIntvl : ℕ := 5000
def rmReptPollIntvl : ℕ := 2000
def rmCondIntvl : ℕ := 2000
def rmBusyTrafficTimes : ℤ := 10
def rmWaitBusyTimeout : ℕ := 1000

def measRepModIncap : UInt8 := 0x02
def measRepModRefuse : UInt8 := 0x04

def rmActRadioMeasReq : UInt8 := 0
def rmActRadioMeasRep : UInt8 := 1
def rmActLinkMeasReq : UInt8 := 2
def rmActLinkMeasRep : UInt8 := 3
def rmActNbRepReq : UInt8 := 4
def rmActNbRepResp : UInt8 := 5

def chLoadReq : UInt8 := 3
def noiseHistoReq : UInt8 := 4
def bcnReq : UInt8 := 5
def bcnReqBcnTable : UInt8 := 2

structure RmMeasReq where
  actionCode : UInt8
  mType : UInt8
  mMode : UInt8
  rpt : UInt16
  chNum : UInt8
  randIntvl : UInt16
  deriving DecidableEq, Repr

structure RmMeasRep where
  actionCode : UInt8
  mMode : UInt8
  rpt : UInt16
  deriving DecidableEq, Repr

structure RmObj where
  rmid : UInt32
  state : RmState
  q : RmMeasReq
  p : RmMeasRep
  pclock : Fin rmTimerNum
  waitBusy : ℤ
  pollMode : Bool
  deriving DecidableEq, Repr

structure RmClock where
  prm : Option ℕ
  counter : ℕ
  evid : RmEv
  deriving DecidableEq, Repr

structure Env where
  curChannel : UInt8
  readyForScan : Bool
  reportCond : Bool
  alloc : Bool
  deriving DecidableEq, Repr

structure Meas where
  rm : RmObj
  clock : RmClock
  posted : List RmEvent
  surveys : List UInt32
  log : List (UInt32 × RmState)
  freed : Bool
  fault : Bool
  deriving DecidableEq, Repr

def isMaster (rmid : UInt32) : Bool := rmid &&& rmMaster != 0

def RmMeasReq.isChannel (q : RmMeasReq) : Bool :=
  q.mType == chLoadReq || q.mType == noiseHistoReq

namespace Meas

def access (m : Meas) : Meas := { m with fault := m.fault || m.freed }

def rmSetClock (ms : ℕ) (evid : RmEv) (m : Meas) : Meas :=
  { m.access with clock := { m.clock with counter := ms / clockUnit, evid := evid } }

def rmCancelClock (m : Meas) : Meas :=
  { m.access with clock := { m.clock with counter := 0, evid := .max } }

def rmFreeRmobj (m : Meas) : Meas :=
  { m.access with clock := ⟨none, 0, .max⟩, freed := true }

def rmPostEvent (env : Env) (evid : RmEv) (m : Meas) : Meas :=
  if m.rm.rmid = 0 ∨ env.alloc = false then m.access
  else { m.access with posted := m.posted ++ [⟨m.rm.rmid, evid⟩] }

def rmSetRepMode (mode : UInt8) (m : Meas) : Meas :=
  { m.access with rm.p.mMode := m.rm.p.mMode ||| mode }

def rmSitesurvey (m : Meas) : Meas := { m.access with surveys := m.surveys ++ [m.rm.rmid] }

def setWaitBusy (n : ℤ) (m : Meas) : Meas := { m.access with rm.waitBusy := n }

def setAction (actionCode : UInt8) (m : Meas) : Meas :=
  { m.access with rm.p.actionCode := actionCode }

def countRpt (m : Meas) : Meas := { m.access with rm.p.rpt := m.rm.p.rpt - 1 }

def stateOut (m : Meas) : Meas :=
  match m.rm.state with
  | .ended => m.rmFreeRmobj
  | _ => m.rmCancelClock

def rmStateGoto (st : RmState) (stateIn : Meas → Meas) (m : Meas) : Meas :=
  if m.rm.state = st then m.access
  else
    let m := m.access.stateOut
    stateIn { m.access with rm.state := st, log := m.log ++ [(m.rm.rmid, st)] }

section

variable (env : Env)

def endIn (m : Meas) : Meas := m.rmPostEvent env .stateOut

def gotoEnd (m : Meas) : Meas := m.rmStateGoto .ended (endIn env)

def sendReportIn (m : Meas) : Meas :=
  if m.rm.q.actionCode = rmActRadioMeasReq then
    if m.rm.q.mType = bcnReq ∨ m.rm.q.isChannel = true then
      if m.rm.p.rpt ≠ 0 then
        m.countRpt.rmSetClock (if m.rm.pollMode then rmReptPollIntvl else rmReptScanIntvl)
          .repeatDelayExpire
      else m.gotoEnd env
    else m.gotoEnd env
  else m.gotoEnd env

def gotoSendReport (m : Meas) : Meas := m.rmStateGoto .sendReport (sendReportIn env)

def doMeasIn (m : Meas) : Meas :=
  if m.rm.q.actionCode = rmActRadioMeasReq then
    if m.rm.q.mType = bcnReq then
      if m.rm.q.mMode = bcnReqBcnTable then m.rmPostEvent env .surveyDone
      else if env.readyForScan then m.rmPostEvent env .startMeas
      else (m.setWaitBusy rmBusyTrafficTimes).rmSetClock rmWaitBusyTimeout .busyTimerExpire
    else if m.rm.q.isChannel then
      if m.rm.pollMode then m.rmPostEvent env .surveyDone else m.access
    else m.gotoEnd env
  else if m.rm.q.actionCode = rmActLinkMeasReq then m.gotoSendReport env
  else m.rmPostEvent env .startMeas

def gotoDoMeas (m : Meas) : Meas := m.rmStateGoto .doMeas (doMeasIn env)

def waitMeasIn (m : Meas) : Meas := m.rmSetClock rmReqTimeout .requestTimerExpire

def gotoWaitMeas (m : Meas) : Meas := m.rmStateGoto .waitMeas waitMeasIn

def recvReportIn (m : Meas) : Meas :=
  if m.rm.p.actionCode = rmActRadioMeasRep then
    if m.rm.p.mMode ≠ 0 then m.gotoEnd env
    else if m.rm.p.rpt ≠ 0 then m.countRpt.gotoWaitMeas
    else m.gotoEnd env
  else m.gotoEnd env

def gotoRecvReport (m : Meas) : Meas := m.rmStateGoto .recvReport (recvReportIn env)

def rmIssueMeasReq (q : RmMeasReq) : Bool :=
  q.actionCode == rmActRadioMeasReq || q.actionCode == rmActNbRepReq ||
    q.actionCode == rmActLinkMeasReq

def idleCopy (m : Meas) : Meas :=
  if m.rm.q.actionCode = rmActRadioMeasReq then
    { m.access with
      rm.p.actionCode := rmActRadioMeasRep
      rm.p.rpt := m.rm.q.rpt
      rm.pollMode := m.rm.pollMode ||
        m.rm.q.isChannel && m.rm.q.chNum == env.curChannel }
  else if m.rm.q.actionCode = rmActNbRepReq then
    m.setAction rmActNbRepResp
  else if m.rm.q.actionCode = rmActLinkMeasReq then
    m.setAction rmActLinkMeasRep
  else (m.setAction m.rm.q.actionCode).rmSetRepMode measRepModIncap

def issueOrEnd (m : Meas) : Meas :=
  if rmIssueMeasReq m.rm.q then m.gotoWaitMeas else m.gotoEnd env

def idleIn (m : Meas) : Meas :=
  let m := m.idleCopy env
  if isMaster m.rm.rmid then
    let m := m.issueOrEnd env
    if m.rm.q.randIntvl ≠ 0 then m.rmSetClock m.rm.q.randIntvl.toNat .delayTimerExpire
    else m.gotoDoMeas env
  else m.gotoDoMeas env

def rmStateIdle (evid : RmEv) (m : Meas) : Meas :=
  match evid with
  | .stateIn => m.idleIn env
  | .delayTimerExpire => m.gotoDoMeas env
  | .cancel => m.gotoEnd env
  | .stateOut => m.stateOut
  | _ => m.access

def doMeasStart (m : Meas) : Meas :=
  if m.rm.q.actionCode = rmActRadioMeasReq then
    if m.rm.q.mType = bcnReq ∨ m.rm.q.isChannel = true then
      m.rmSitesurvey.rmSetClock rmMeasTimeout .measTimerExpire
    else m.gotoEnd env
  else m.rmSetClock rmMeasTimeout .measTimerExpire

def doMeasSurveyDone (m : Meas) : Meas :=
  if m.rm.q.actionCode = rmActRadioMeasReq then
    if m.rm.q.mType = bcnReq then m.rmCancelClock.gotoSendReport env
    else if m.rm.q.isChannel then
      if env.reportCond then m.gotoSendReport env else m.rmSetClock rmCondIntvl .retryTimerExpire
    else m.gotoEnd env
  else m.access

def doMeasBusy (m : Meas) : Meas :=
  if env.readyForScan then
    if m.rm.waitBusy ≤ 0 then (m.rmSetRepMode measRepModRefuse).gotoEnd env
    else m.rmPostEvent env .startMeas
  else
    let old := m.rm.waitBusy
    let m := m.setWaitBusy (m.rm.waitBusy - 1)
    if old ≠ 0 then m.rmSetClock rmWaitBusyTimeout .busyTimerExpire
    else if m.rm.waitBusy ≤ 0 then (m.rmSetRepMode measRepModRefuse).gotoEnd env
    else m.rmPostEvent env .startMeas

def rmStateDoMeas (evid : RmEv) (m : Meas) : Meas :=
  match evid with
  | .stateIn => m.doMeasIn env
  | .startMeas => m.doMeasStart env
  | .surveyDone => m.doMeasSurveyDone env
  | .measTimerExpire => (m.rmSetRepMode measRepModRefuse).gotoEnd env
  | .busyTimerExpire => m.doMeasBusy env
  | .requestTimerExpire => (m.rmSetRepMode measRepModRefuse).gotoEnd env
  | .retryTimerExpire => m.rmPostEvent env .startMeas
  | .cancel => (m.rmSetRepMode measRepModRefuse).gotoEnd env
  | .stateOut => m.stateOut
  | _ => m.access

def rmStateWaitMeas (evid : RmEv) (m : Meas) : Meas :=
  match evid with
  | .stateIn => m.waitMeasIn
  | .recvRep => m.gotoRecvReport env
  | .requestTimerExpire | .cancel => m.gotoEnd env
  | .stateOut => m.stateOut
  | _ => m.access

def rmStateSendReport (evid : RmEv) (m : Meas) : Meas :=
  match evid with
  | .stateIn => m.sendReportIn env
  | .repeatDelayExpire => m.gotoDoMeas env
  | .cancel => m.gotoEnd env
  | .stateOut => m.stateOut
  | _ => m.access

def rmStateRecvReport (evid : RmEv) (m : Meas) : Meas :=
  match evid with
  | .stateIn => m.recvReportIn env
  | .cancel => m.gotoEnd env
  | .stateOut => m.stateOut
  | _ => m.access

def rmStateEnd (evid : RmEv) (m : Meas) : Meas :=
  match evid with
  | .stateIn => m.endIn env
  | _ => m.rmFreeRmobj

def rmStateRun (evid : RmEv) (m : Meas) : Meas :=
  match m.rm.state with
  | .idle => m.access.rmStateIdle env evid
  | .doMeas => m.access.rmStateDoMeas env evid
  | .waitMeas => m.access.rmStateWaitMeas env evid
  | .sendReport => m.access.rmStateSendReport env evid
  | .recvReport => m.access.rmStateRecvReport env evid
  | .ended => m.access.rmStateEnd env evid

end

end Meas

end Rm
