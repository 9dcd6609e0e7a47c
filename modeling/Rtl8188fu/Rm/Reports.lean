import Rtl8188fu.Rm.System

namespace Rm

inductive Sent where
  | request (actionCode : UInt8)
  | report (frames : ℕ)
  | linkReport
  | nullReply (mMode : UInt8)
  deriving DecidableEq, Repr

structure Air extends Env where
  pktNum : ℕ
  mgtFrames : ℕ
  deriving DecidableEq, Repr

structure Sender where
  meas : Meas
  sent : List Sent
  deriving DecidableEq, Repr

def nullReplyLen (actionCode : UInt8) : ℕ :=
  if actionCode = rmActRadioMeasReq then 8
  else if actionCode = rmActNbRepReq then 3
  else if actionCode = rmActLinkMeasReq then 3
  else 0

namespace Sender

variable (air : Air)

def on (f : Meas → Meas) (s : Sender) : Sender := { s with meas := f s.meas }

def dump (frame : Sent) (s : Sender) : Sender :=
  if air.mgtFrames = 0 then s else { s with sent := s.sent ++ [frame] }

def issueNullReply (s : Sender) : Sender :=
  if nullReplyLen s.meas.rm.p.actionCode = 0 then s else s.dump air (.nullReply s.meas.rm.p.mMode)

def issueBeaconRep (s : Sender) : Sender :=
  if air.pktNum = 0 then s.issueNullReply air
  else s.dump air (.report (min air.pktNum air.mgtFrames))

def issueRadioMeasRep (s : Sender) : Sender := s.dump air (.report 1)

def issueLinkMeasRep (s : Sender) : Sender := s.dump air .linkReport

def issueReport (s : Sender) : Sender :=
  if s.meas.rm.q.actionCode = rmActRadioMeasReq then
    if s.meas.rm.q.mType = bcnReq then s.issueBeaconRep air
    else if s.meas.rm.q.isChannel then s.issueRadioMeasRep air
    else s
  else if s.meas.rm.q.actionCode = rmActLinkMeasReq then s.issueLinkMeasRep air
  else s

def issueMeasReq (s : Sender) : Sender :=
  if s.meas.rm.q.actionCode = rmActRadioMeasReq then
    if s.meas.rm.q.mType = bcnReq ∨ s.meas.rm.q.isChannel = true then
      s.dump air (.request rmActRadioMeasReq)
    else s
  else if Meas.rmIssueMeasReq s.meas.rm.q then s.dump air (.request s.meas.rm.q.actionCode)
  else s

def rmStateGoto (st : RmState) (stateIn : Sender → Sender) (s : Sender) : Sender :=
  if s.meas.rm.state = st then s.on Meas.access
  else
    stateIn (s.on fun m =>
      let m := m.access.stateOut
      { m.access with rm.state := st, log := m.log ++ [(m.rm.rmid, st)] })

def gotoEnd (s : Sender) : Sender := s.on (Meas.gotoEnd air.toEnv)

def sendReportIn (s : Sender) : Sender := (s.issueReport air).on (Meas.sendReportIn air.toEnv)

def gotoSendReport (s : Sender) : Sender := s.rmStateGoto .sendReport (sendReportIn air)

def doMeasIn (s : Sender) : Sender :=
  if s.meas.rm.q.actionCode = rmActLinkMeasReq then s.gotoSendReport air
  else s.on (Meas.doMeasIn air.toEnv)

def gotoDoMeas (s : Sender) : Sender := s.rmStateGoto .doMeas (doMeasIn air)

def refuse (s : Sender) : Sender :=
  ((s.on (Meas.rmSetRepMode measRepModRefuse)).issueNullReply air).gotoEnd air

def issueOrEnd (s : Sender) : Sender :=
  if Meas.rmIssueMeasReq s.meas.rm.q then (s.issueMeasReq air).on Meas.gotoWaitMeas
  else (s.issueNullReply air).gotoEnd air

def idleIn (s : Sender) : Sender :=
  let s := s.on (Meas.idleCopy air.toEnv)
  if isMaster s.meas.rm.rmid then
    let s := s.issueOrEnd air
    if s.meas.rm.q.randIntvl ≠ 0 then
      s.on (Meas.rmSetClock s.meas.rm.q.randIntvl.toNat .delayTimerExpire)
    else s.gotoDoMeas air
  else s.gotoDoMeas air

def rmStateIdle (evid : RmEv) (s : Sender) : Sender :=
  match evid with
  | .stateIn => s.idleIn air
  | .delayTimerExpire => s.gotoDoMeas air
  | _ => s.on (Meas.rmStateIdle air.toEnv evid)

def doMeasSurveyDone (s : Sender) : Sender :=
  if s.meas.rm.q.actionCode = rmActRadioMeasReq then
    if s.meas.rm.q.mType = bcnReq then (s.on Meas.rmCancelClock).gotoSendReport air
    else if s.meas.rm.q.isChannel then
      if air.reportCond then s.gotoSendReport air
      else s.on (Meas.rmSetClock rmCondIntvl .retryTimerExpire)
    else s.gotoEnd air
  else s.on Meas.access

def doMeasBusy (s : Sender) : Sender :=
  if air.readyForScan then
    if s.meas.rm.waitBusy ≤ 0 then s.refuse air
    else s.on (Meas.rmPostEvent air.toEnv .startMeas)
  else
    let old := s.meas.rm.waitBusy
    let s := s.on (Meas.setWaitBusy (old - 1))
    if old ≠ 0 then s.on (Meas.rmSetClock rmWaitBusyTimeout .busyTimerExpire)
    else if s.meas.rm.waitBusy ≤ 0 then s.refuse air
    else s.on (Meas.rmPostEvent air.toEnv .startMeas)

def rmStateDoMeas (evid : RmEv) (s : Sender) : Sender :=
  match evid with
  | .stateIn => s.doMeasIn air
  | .surveyDone => s.doMeasSurveyDone air
  | .busyTimerExpire => s.doMeasBusy air
  | .measTimerExpire | .requestTimerExpire | .cancel => s.refuse air
  | _ => s.on (Meas.rmStateDoMeas air.toEnv evid)

def rmStateSendReport (evid : RmEv) (s : Sender) : Sender :=
  match evid with
  | .stateIn => s.sendReportIn air
  | .repeatDelayExpire => s.gotoDoMeas air
  | _ => s.on (Meas.rmStateSendReport air.toEnv evid)

def rmStateRun (evid : RmEv) (s : Sender) : Sender :=
  match s.meas.rm.state with
  | .idle => (s.on Meas.access).rmStateIdle air evid
  | .doMeas => (s.on Meas.access).rmStateDoMeas air evid
  | .sendReport => (s.on Meas.access).rmStateSendReport air evid
  | _ => s.on (Meas.rmStateRun air.toEnv evid)

section Erasure

variable {air : Air} (s : Sender)

@[simp] theorem on_meas (f : Meas → Meas) : (s.on f).meas = f s.meas := rfl

@[simp] theorem on_sent (f : Meas → Meas) : (s.on f).sent = s.sent := rfl

@[simp] theorem dump_meas (frame : Sent) : (s.dump air frame).meas = s.meas := by
  unfold dump
  split <;> rfl

@[simp] theorem issueNullReply_meas : (s.issueNullReply air).meas = s.meas := by
  unfold issueNullReply
  split
  · rfl
  · exact dump_meas s _

@[simp] theorem issueBeaconRep_meas : (s.issueBeaconRep air).meas = s.meas := by
  unfold issueBeaconRep
  split
  · exact issueNullReply_meas s
  · exact dump_meas s _

@[simp] theorem issueReport_meas : (s.issueReport air).meas = s.meas := by
  unfold issueReport
  split
  · split
    · exact issueBeaconRep_meas s
    · split
      · exact dump_meas s _
      · rfl
  · split
    · exact dump_meas s _
    · rfl

@[simp] theorem issueMeasReq_meas : (s.issueMeasReq air).meas = s.meas := by
  unfold issueMeasReq
  split
  · split
    · exact dump_meas s _
    · rfl
  · split
    · exact dump_meas s _
    · rfl

theorem rmStateGoto_meas {st : RmState} {stateIn : Sender → Sender} {measIn : Meas → Meas}
    (h : ∀ t : Sender, (stateIn t).meas = measIn t.meas) :
    (s.rmStateGoto st stateIn).meas = s.meas.rmStateGoto st measIn := by
  unfold rmStateGoto Meas.rmStateGoto
  split
  · rfl
  · exact h _

@[simp] theorem gotoEnd_meas : (s.gotoEnd air).meas = s.meas.gotoEnd air.toEnv := rfl

@[simp] theorem gotoSendReport_meas :
    (s.gotoSendReport air).meas = s.meas.gotoSendReport air.toEnv := by
  apply rmStateGoto_meas
  intro t
  exact congrArg (Meas.sendReportIn air.toEnv) (issueReport_meas t)

@[simp] theorem doMeasIn_meas : (s.doMeasIn air).meas = s.meas.doMeasIn air.toEnv := by
  unfold doMeasIn
  split
  · next hlink =>
    have hradio : s.meas.rm.q.actionCode ≠ rmActRadioMeasReq := by
      rw [hlink]
      decide
    rw [gotoSendReport_meas, Meas.doMeasIn, if_neg hradio, if_pos hlink]
  · rfl

@[simp] theorem gotoDoMeas_meas : (s.gotoDoMeas air).meas = s.meas.gotoDoMeas air.toEnv :=
  rmStateGoto_meas s fun t => doMeasIn_meas t

@[simp] theorem refuse_meas :
    (s.refuse air).meas = (s.meas.rmSetRepMode measRepModRefuse).gotoEnd air.toEnv := by
  rw [refuse, gotoEnd_meas, issueNullReply_meas, on_meas]

@[simp] theorem issueOrEnd_meas : (s.issueOrEnd air).meas = s.meas.issueOrEnd air.toEnv := by
  unfold issueOrEnd Meas.issueOrEnd
  split
  · rw [on_meas, issueMeasReq_meas]
  · rw [gotoEnd_meas, issueNullReply_meas]

@[simp] theorem idleIn_meas : (s.idleIn air).meas = s.meas.idleIn air.toEnv := by
  unfold idleIn Meas.idleIn
  dsimp only
  rw [on_meas]
  split
  · rw [issueOrEnd_meas, on_meas]
    split
    · rw [on_meas, issueOrEnd_meas, on_meas]
    · rw [gotoDoMeas_meas, issueOrEnd_meas, on_meas]
  · rw [gotoDoMeas_meas, on_meas]

theorem rmStateIdle_meas (evid : RmEv) :
    (s.rmStateIdle air evid).meas = s.meas.rmStateIdle air.toEnv evid := by
  cases evid with
  | stateIn => exact idleIn_meas s
  | delayTimerExpire => exact gotoDoMeas_meas s
  | _ => rfl

theorem doMeasSurveyDone_meas :
    (s.doMeasSurveyDone air).meas = s.meas.doMeasSurveyDone air.toEnv := by
  unfold doMeasSurveyDone Meas.doMeasSurveyDone
  split
  · split
    · rw [gotoSendReport_meas, on_meas]
    · split
      · split
        · exact gotoSendReport_meas s
        · rfl
      · rfl
  · rfl

theorem doMeasBusy_meas : (s.doMeasBusy air).meas = s.meas.doMeasBusy air.toEnv := by
  unfold doMeasBusy Meas.doMeasBusy
  split
  · split
    · exact refuse_meas s
    · rfl
  · dsimp only
    rw [on_meas]
    split
    · rfl
    · split
      · rw [refuse_meas, on_meas]
      · rfl

theorem rmStateDoMeas_meas (evid : RmEv) :
    (s.rmStateDoMeas air evid).meas = s.meas.rmStateDoMeas air.toEnv evid := by
  cases evid with
  | stateIn => exact doMeasIn_meas s
  | surveyDone => exact doMeasSurveyDone_meas s
  | busyTimerExpire => exact doMeasBusy_meas s
  | measTimerExpire => exact refuse_meas s
  | requestTimerExpire => exact refuse_meas s
  | cancel => exact refuse_meas s
  | _ => rfl

theorem rmStateSendReport_meas (evid : RmEv) :
    (s.rmStateSendReport air evid).meas = s.meas.rmStateSendReport air.toEnv evid := by
  cases evid with
  | stateIn => exact congrArg (Meas.sendReportIn air.toEnv) (issueReport_meas s)
  | repeatDelayExpire => exact gotoDoMeas_meas s
  | _ => rfl

theorem rmStateRun_meas (evid : RmEv) :
    (s.rmStateRun air evid).meas = s.meas.rmStateRun air.toEnv evid := by
  cases hstate : s.meas.rm.state with
  | idle =>
    rw [rmStateRun, Meas.rmStateRun, hstate]
    exact rmStateIdle_meas _ evid
  | doMeas =>
    rw [rmStateRun, Meas.rmStateRun, hstate]
    exact rmStateDoMeas_meas _ evid
  | sendReport =>
    rw [rmStateRun, Meas.rmStateRun, hstate]
    exact rmStateSendReport_meas _ evid
  | _ =>
    rw [rmStateRun, hstate]
    rfl

end Erasure

end Sender

end Rm
