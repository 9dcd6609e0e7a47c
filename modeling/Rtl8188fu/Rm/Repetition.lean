import Rtl8188fu.Lib.Run
import Rtl8188fu.Rm.ProgressRuns
import Rtl8188fu.Rm.Reports

namespace Rm

structure Slave where
  sender : Sender
  cmds : List RmEvent
  deriving DecidableEq, Repr

inductive SlaveEv where
  | handle (air : Air)
  | command (alloc : Bool)
  | tick (alloc : Bool)
  | surveyDone (alloc : Bool)
  deriving DecidableEq, Repr

structure SlaveRequest where
  new : NewMeas
  slave : new.master = false
  token : new.diagToken ≠ 0
  radio : new.q.actionCode = rmActRadioMeasReq
  measured : new.q.mType = bcnReq ∨ new.q.isChannel = true

namespace Slave

abbrev meas (s : Slave) : Meas := s.sender.meas

def on (f : Meas → Meas) (s : Slave) : Slave := { s with sender := s.sender.on f }

def enqueued (n : NewMeas) (p : ℕ) (pclock : Fin rmTimerNum) : Slave where
  sender := ⟨⟨RmPriv.NewMeas.obj n pclock, ⟨some p, 0, .max⟩, [], [], [], false, false⟩, []⟩
  cmds := [⟨n.rmid, .stateIn⟩]

def rmHandler (air : Air) (s : Slave) : Slave :=
  match s.meas.posted with
  | [] => s
  | ev :: rest =>
    let s := s.on fun m => { m with posted := rest }
    if s.meas.freed then s else { s with sender := s.sender.rmStateRun air ev.evid }

def rmPostEventHdl (alloc : Bool) (s : Slave) : Slave :=
  match s.cmds with
  | [] => s
  | ev :: rest =>
    let s := { s with cmds := rest }
    if alloc then s.on fun m => { m with posted := m.posted ++ [ev] } else s

def rmTimerCallback (alloc : Bool) (s : Slave) : Slave :=
  if s.meas.clock.counter = 0 then s
  else
    let counter := s.meas.clock.counter - 1
    let t := s.on fun m => { m with clock.counter := counter }
    if counter = 0 ∧ alloc = true then
      { t with cmds := t.cmds ++ [⟨s.meas.rm.rmid, s.meas.clock.evid⟩] }
    else t

def surveyDone (alloc : Bool) (s : Slave) : Slave :=
  match s.meas.surveys with
  | [] => s
  | token :: rest =>
    let s := s.on fun m => { m with surveys := rest }
    if alloc then { s with cmds := s.cmds ++ [⟨token, .surveyDone⟩] } else s

def step (s : Slave) : SlaveEv → Slave
  | .handle air => s.rmHandler air
  | .command alloc => s.rmPostEventHdl alloc
  | .tick alloc => s.rmTimerCallback alloc
  | .surveyDone alloc => s.surveyDone alloc

def isReport : Sent → Bool
  | .report _ => true
  | _ => false

def isRefusal : Sent → Bool
  | .nullReply _ => true
  | _ => false

def reports (s : Slave) : ℕ := s.sender.sent.countP isReport

def refusals (s : Slave) : ℕ := s.sender.sent.countP isRefusal

end Slave

def RmObj.skipsScan (rm : RmObj) : Bool :=
  if rm.q.mType = bcnReq then rm.q.mMode == bcnReqBcnTable else rm.q.isChannel

def RmObj.reported (rm : RmObj) (air : Air) : Bool :=
  rm.q.mType == bcnReq || air.reportCond

def RmObj.posts (rm : RmObj) (air : Air) (evid : RmEv) : Bool :=
  match rm.state, evid with
  | .idle, .stateIn | .sendReport, .repeatDelayExpire => rm.skipsScan || air.readyForScan
  | .doMeas, .busyTimerExpire => air.readyForScan
  | .doMeas, .retryTimerExpire => true
  | .doMeas, .surveyDone => rm.p.rpt == 0 && rm.reported air
  | _, _ => false

structure RmObj.Answered (rm : RmObj) (air : Air) (evid : RmEv) : Prop where
  alloc : rm.posts air evid = true → air.alloc = true
  timely : rm.state = .doMeas → evid ≠ .measTimerExpire
  polled : rm.state = .idle → rm.q.mType ≠ bcnReq → rm.q.chNum = air.curChannel
  patient : rm.state = .doMeas → evid = .busyTimerExpire → 0 < rm.waitBusy
  found : rm.state = .doMeas → evid = .surveyDone → rm.q.mType = bcnReq → 0 < air.pktNum
  room : rm.state = .doMeas → evid = .surveyDone → rm.reported air = true → 0 < air.mgtFrames

namespace Slave

def Serves (s : Slave) : SlaveEv → Prop
  | .handle air => ∀ ev ∈ s.meas.posted.head?, s.meas.freed = false → s.meas.rm.Answered air ev.evid
  | .command alloc => s.cmds ≠ [] → s.meas.freed = false → alloc = true
  | .tick alloc => s.meas.clock.counter = 1 → s.meas.clock.evid ≠ .measTimerExpire → alloc = true
  | .surveyDone alloc => s.meas.surveys ≠ [] → alloc = true

end Slave

namespace Meas

def put (evid : RmEv) (m : Meas) : Meas := { m with posted := m.posted ++ [⟨m.rm.rmid, evid⟩] }

def arm (ms : ℕ) (evid : RmEv) (m : Meas) : Meas :=
  { m with clock.counter := ms / clockUnit, clock.evid := evid }

def enter (st : RmState) (m : Meas) : Meas :=
  { m with
    clock.counter := 0
    clock.evid := .max
    rm.state := st
    log := m.log ++ [(m.rm.rmid, st)] }

def measure (air : Air) (m : Meas) : Meas :=
  if m.rm.skipsScan then (m.enter .doMeas).put .surveyDone
  else if air.readyForScan then (m.enter .doMeas).put .startMeas
  else ({ m.enter .doMeas with rm.waitBusy := rmBusyTrafficTimes } : Meas).arm
    rmWaitBusyTimeout .busyTimerExpire

def finish (m : Meas) : Meas := (m.enter .ended).put .stateOut

def nextReport (m : Meas) : Meas :=
  if m.rm.p.rpt = 0 then (m.enter .sendReport).finish
  else ({ m.enter .sendReport with rm.p.rpt := m.rm.p.rpt - 1 } : Meas).arm
    (if m.rm.pollMode then rmReptPollIntvl else rmReptScanIntvl) .repeatDelayExpire

section Alive

variable {air : Air} {m : Meas}

theorem access_alive (h : m.freed = false) : m.access = m := by
  cases m
  simp only [access] at h ⊢
  rw [h, Bool.or_false]

theorem rmSetClock_alive (h : m.freed = false) (ms : ℕ) (evid : RmEv) :
    m.rmSetClock ms evid = m.arm ms evid := by
  rw [rmSetClock, access_alive h, arm]

theorem rmPostEvent_alive (h : m.freed = false) (halloc : air.alloc = true)
    (hrmid : m.rm.rmid ≠ 0) (evid : RmEv) : m.rmPostEvent air.toEnv evid = m.put evid := by
  rw [rmPostEvent_eq halloc hrmid, access_alive h, put]

theorem rmStateGoto_alive (h : m.freed = false) {st : RmState} (hst : m.rm.state ≠ st)
    (hend : m.rm.state ≠ .ended) (stateIn : Meas → Meas) :
    m.rmStateGoto st stateIn = stateIn (m.enter st) := by
  have hout : m.stateOut = m.rmCancelClock := by
    unfold stateOut
    split
    · next hended => exact absurd hended hend
    · rfl
  have hcancel : m.rmCancelClock.freed = false := h
  rw [rmStateGoto, if_neg hst]
  dsimp only
  rw [access_alive h, hout, access_alive hcancel, rmCancelClock, access_alive h, enter]

theorem gotoEnd_alive (h : m.freed = false) (halloc : air.alloc = true) (hrmid : m.rm.rmid ≠ 0)
    (hend : m.rm.state ≠ .ended) : m.gotoEnd air.toEnv = m.finish := by
  rw [gotoEnd, rmStateGoto_alive h hend hend, endIn]
  have halive : (m.enter .ended).freed = false := h
  exact rmPostEvent_alive halive halloc hrmid .stateOut

theorem doMeasIn_alive (h : m.freed = false) (hrmid : m.rm.rmid ≠ 0)
    (hradio : m.rm.q.actionCode = rmActRadioMeasReq)
    (hmeasured : m.rm.q.mType = bcnReq ∨ m.rm.q.isChannel = true)
    (hpoll : m.rm.q.mType ≠ bcnReq → m.rm.pollMode = true)
    (halloc : m.rm.skipsScan = true ∨ air.readyForScan = true → air.alloc = true) :
    m.doMeasIn air.toEnv =
      if m.rm.skipsScan then m.put .surveyDone
      else if air.readyForScan then m.put .startMeas
      else ({ m with rm.waitBusy := rmBusyTrafficTimes } : Meas).arm
        rmWaitBusyTimeout .busyTimerExpire := by
  rw [doMeasIn, if_pos hradio]
  cases Decidable.em (m.rm.q.mType = bcnReq) with
  | inl hbcn =>
    rw [if_pos hbcn]
    have hskips : m.rm.skipsScan = (m.rm.q.mMode == bcnReqBcnTable) := if_pos hbcn
    cases Decidable.em (m.rm.q.mMode = bcnReqBcnTable) with
    | inl htable =>
      have hskip : m.rm.skipsScan = true := hskips.trans (beq_iff_eq.mpr htable)
      rw [if_pos htable, if_pos hskip]
      exact rmPostEvent_alive h (halloc (.inl hskip)) hrmid .surveyDone
    | inr hscan =>
      have hskip : ¬ m.rm.skipsScan = true := by
        rw [hskips]
        exact fun heq => hscan (beq_iff_eq.mp heq)
      rw [if_neg hscan, if_neg hskip]
      cases hready : air.readyForScan with
      | true => exact rmPostEvent_alive h (halloc (.inr hready)) hrmid .startMeas
      | false =>
        have halive : (m.setWaitBusy rmBusyTrafficTimes).freed = false := h
        have hset : m.setWaitBusy rmBusyTrafficTimes =
            { m with rm.waitBusy := rmBusyTrafficTimes } := by
          rw [setWaitBusy, access_alive h]
        exact (rmSetClock_alive halive _ _).trans (by rw [hset]; rfl)
  | inr hother =>
    have hchannel : m.rm.q.isChannel = true := hmeasured.resolve_left hother
    have hskip : m.rm.skipsScan = true := (if_neg hother).trans hchannel
    rw [if_neg hother, if_pos hchannel, if_pos (hpoll hother), if_pos hskip]
    exact rmPostEvent_alive h (halloc (.inl hskip)) hrmid .surveyDone

theorem gotoDoMeas_alive (h : m.freed = false) (hrmid : m.rm.rmid ≠ 0)
    (hradio : m.rm.q.actionCode = rmActRadioMeasReq)
    (hmeasured : m.rm.q.mType = bcnReq ∨ m.rm.q.isChannel = true)
    (hpoll : m.rm.q.mType ≠ bcnReq → m.rm.pollMode = true)
    (halloc : m.rm.skipsScan = true ∨ air.readyForScan = true → air.alloc = true)
    (hst : m.rm.state ≠ .doMeas) (hend : m.rm.state ≠ .ended) :
    m.gotoDoMeas air.toEnv = m.measure air := by
  have halive : (m.enter .doMeas).freed = false := h
  rw [gotoDoMeas, rmStateGoto_alive h hst hend]
  exact doMeasIn_alive halive hrmid hradio hmeasured hpoll halloc

theorem sendReportIn_alive (h : m.freed = false) (hrmid : m.rm.rmid ≠ 0)
    (hradio : m.rm.q.actionCode = rmActRadioMeasReq)
    (hmeasured : m.rm.q.mType = bcnReq ∨ m.rm.q.isChannel = true)
    (halloc : m.rm.p.rpt = 0 → air.alloc = true) (hend : m.rm.state ≠ .ended) :
    m.sendReportIn air.toEnv =
      if m.rm.p.rpt = 0 then m.finish
      else ({ m with rm.p.rpt := m.rm.p.rpt - 1 } : Meas).arm
        (if m.rm.pollMode then rmReptPollIntvl else rmReptScanIntvl) .repeatDelayExpire := by
  rw [sendReportIn, if_pos hradio, if_pos hmeasured]
  cases Decidable.em (m.rm.p.rpt = 0) with
  | inl hzero =>
    have hstop : ¬ m.rm.p.rpt ≠ 0 := fun hne => hne hzero
    rw [if_neg hstop, if_pos hzero]
    exact gotoEnd_alive h (halloc hzero) hrmid hend
  | inr hmore =>
    rw [if_pos hmore, if_neg hmore, countRpt, access_alive h]
    exact rmSetClock_alive (m := { m with rm.p.rpt := m.rm.p.rpt - 1 }) h _ _

theorem gotoSendReport_alive (h : m.freed = false) (hrmid : m.rm.rmid ≠ 0)
    (hradio : m.rm.q.actionCode = rmActRadioMeasReq)
    (hmeasured : m.rm.q.mType = bcnReq ∨ m.rm.q.isChannel = true)
    (halloc : m.rm.p.rpt = 0 → air.alloc = true) (hst : m.rm.state ≠ .sendReport)
    (hend : m.rm.state ≠ .ended) : m.gotoSendReport air.toEnv = m.nextReport := by
  have halive : (m.enter .sendReport).freed = false := h
  have hsend : (m.enter .sendReport).rm.state ≠ .ended := RmState.noConfusion
  rw [gotoSendReport, rmStateGoto_alive h hst hend]
  exact sendReportIn_alive halive hrmid hradio hmeasured halloc hsend

end Alive

def copied (air : Air) (m : Meas) : Meas :=
  { m with
    rm.p.actionCode := rmActRadioMeasRep
    rm.p.rpt := m.rm.q.rpt
    rm.pollMode := m.rm.pollMode || m.rm.q.isChannel && m.rm.q.chNum == air.curChannel }

def scan (m : Meas) : Meas :=
  ({ m with surveys := m.surveys ++ [m.rm.rmid] } : Meas).arm rmMeasTimeout .measTimerExpire

def wait (m : Meas) : Meas :=
  ({ m with rm.waitBusy := m.rm.waitBusy - 1 } : Meas).arm rmWaitBusyTimeout .busyTimerExpire

def gone (m : Meas) : Meas := { m with clock := ⟨none, 0, .max⟩, freed := true }

end Meas

def RmState.awaits : RmState → RmEv → Bool
  | .idle, .stateIn | .sendReport, .repeatDelayExpire | .ended, .stateOut => true
  | .doMeas, .startMeas | .doMeas, .surveyDone | .doMeas, .busyTimerExpire
  | .doMeas, .retryTimerExpire => true
  | _, _ => false

theorem RmState.awaits_cases {st : RmState} {evid : RmEv} (h : st.awaits evid = true) :
    (st = .idle ∧ evid = .stateIn) ∨ (st = .sendReport ∧ evid = .repeatDelayExpire) ∨
      (st = .ended ∧ evid = .stateOut) ∨
      st = .doMeas ∧ (evid = .startMeas ∨ evid = .surveyDone ∨ evid = .busyTimerExpire ∨
        evid = .retryTimerExpire) := by
  cases st <;> cases evid <;> revert h <;> decide

structure SlaveRequest.Serving (r : SlaveRequest) (m : Meas) : Prop where
  alive : m.freed = false
  rmid : m.rm.rmid = r.new.rmid
  q : m.rm.q = r.new.q
  polls : m.rm.state ≠ .idle → m.rm.q.mType ≠ bcnReq → m.rm.pollMode = true

namespace SlaveRequest.Serving

variable {r : SlaveRequest} {m : Meas}

theorem rmid_ne (h : r.Serving m) : m.rm.rmid ≠ 0 := by
  rw [h.rmid]
  exact (NewMeas.rmid_single r.token).1

theorem slave (h : r.Serving m) : isMaster m.rm.rmid = false := by
  rw [h.rmid, NewMeas.isMaster_rmid, r.slave]

theorem radio (h : r.Serving m) : m.rm.q.actionCode = rmActRadioMeasReq := by
  rw [h.q, r.radio]

theorem measured (h : r.Serving m) : m.rm.q.mType = bcnReq ∨ m.rm.q.isChannel = true := by
  rw [h.q]
  exact r.measured

end SlaveRequest.Serving

namespace Sender

def reportOf (air : Air) (s : Sender) : Sent :=
  if s.meas.rm.q.mType = bcnReq then .report (min air.pktNum air.mgtFrames) else .report 1

def nextIn (air : Air) (st : RmState) (evid : RmEv) (s : Sender) : Sender :=
  match st, evid with
  | .idle, .stateIn => s.on fun m => (m.copied air).measure air
  | .doMeas, .startMeas => s.on Meas.scan
  | .doMeas, .surveyDone =>
    if s.meas.rm.reported air then ⟨s.meas.nextReport, s.sent ++ [s.reportOf air]⟩
    else s.on (Meas.arm rmCondIntvl .retryTimerExpire)
  | .doMeas, .busyTimerExpire =>
    if air.readyForScan then s.on (Meas.put .startMeas) else s.on Meas.wait
  | .doMeas, .retryTimerExpire => s.on (Meas.put .startMeas)
  | .sendReport, .repeatDelayExpire => s.on (Meas.measure air)
  | .ended, _ => s.on Meas.gone
  | _, _ => s

def next (air : Air) (evid : RmEv) (s : Sender) : Sender := s.nextIn air s.meas.rm.state evid

section Next

variable {r : SlaveRequest} {air : Air} {s : Sender}

theorem ext_parts {s t : Sender} (hmeas : s.meas = t.meas) (hsent : s.sent = t.sent) : s = t := by
  cases s
  cases t
  cases hmeas
  cases hsent
  rfl

theorem on_access (h : s.meas.freed = false) : s.on Meas.access = s :=
  ext_parts (Meas.access_alive h) rfl

theorem stateOut_q (m : Meas) : m.access.stateOut.rm.q = m.rm.q := by
  unfold Meas.stateOut
  split <;> rfl

theorem gotoDoMeas_sent (hradio : s.meas.rm.q.actionCode = rmActRadioMeasReq)
    (hst : s.meas.rm.state ≠ .doMeas) : (s.gotoDoMeas air).sent = s.sent := by
  rw [gotoDoMeas, rmStateGoto, if_neg hst, doMeasIn, if_neg]
  · rfl
  · intro hlink
    have hsame : rmActRadioMeasReq = rmActLinkMeasReq := by
      rw [← hradio, ← stateOut_q]
      exact hlink
    exact absurd hsame (by decide)

theorem dump_sent (hroom : 0 < air.mgtFrames) (frame : Sent) :
    (s.dump air frame).sent = s.sent ++ [frame] := by
  rw [dump, if_neg hroom.ne']

theorem issueReport_sent (hradio : s.meas.rm.q.actionCode = rmActRadioMeasReq)
    (hmeasured : s.meas.rm.q.mType = bcnReq ∨ s.meas.rm.q.isChannel = true)
    (hroom : 0 < air.mgtFrames) (hfound : s.meas.rm.q.mType = bcnReq → 0 < air.pktNum) :
    (s.issueReport air).sent = s.sent ++ [s.reportOf air] := by
  rw [issueReport, if_pos hradio]
  cases Decidable.em (s.meas.rm.q.mType = bcnReq) with
  | inl hbcn =>
    rw [if_pos hbcn, reportOf, if_pos hbcn, issueBeaconRep, if_neg (hfound hbcn).ne']
    exact dump_sent hroom _
  | inr hother =>
    rw [if_neg hother, if_pos (hmeasured.resolve_left hother), reportOf, if_neg hother]
    exact dump_sent hroom _

theorem gotoSendReport_sent (hradio : s.meas.rm.q.actionCode = rmActRadioMeasReq)
    (hmeasured : s.meas.rm.q.mType = bcnReq ∨ s.meas.rm.q.isChannel = true)
    (hst : s.meas.rm.state ≠ .sendReport) (hroom : 0 < air.mgtFrames)
    (hfound : s.meas.rm.q.mType = bcnReq → 0 < air.pktNum) :
    (s.gotoSendReport air).sent = s.sent ++ [s.reportOf air] := by
  have hq := stateOut_q s.meas
  rw [gotoSendReport, rmStateGoto, if_neg hst, sendReportIn, on_sent]
  have hsent := @issueReport_sent air (s.on fun m =>
    let m := m.access.stateOut
    { m.access with rm.state := .sendReport, log := m.log ++ [(m.rm.rmid, .sendReport)] })
    (hq ▸ hradio) (hq ▸ hmeasured) hroom (hq ▸ hfound)
  have hkind : reportOf air (s.on fun m =>
      let m := m.access.stateOut
      { m.access with rm.state := .sendReport, log := m.log ++ [(m.rm.rmid, .sendReport)] }) =
      s.reportOf air := by
    have htype := congrArg RmMeasReq.mType hq
    show (if s.meas.access.stateOut.rm.q.mType = bcnReq then _ else _) = _
    rw [htype, reportOf]
  rw [hkind] at hsent
  exact hsent

theorem rmStateRun_idle (h : r.Serving s.meas) (hstate : s.meas.rm.state = .idle)
    (hans : s.meas.rm.Answered air .stateIn) :
    s.rmStateRun air .stateIn = s.on fun m => (m.copied air).measure air := by
  have hcopy : s.meas.idleCopy air.toEnv = s.meas.copied air := by
    rw [Meas.idleCopy, if_pos h.radio, Meas.access_alive h.alive]
    rfl
  have hpoll : (s.meas.copied air).rm.q.mType ≠ bcnReq → (s.meas.copied air).rm.pollMode = true := by
    intro hother
    have hchannel := h.measured.resolve_left hother
    have hcur := hans.polled hstate hother
    show (s.meas.rm.pollMode || s.meas.rm.q.isChannel && s.meas.rm.q.chNum == air.curChannel) = true
    rw [hchannel, hcur, Bool.true_and, beq_self_eq_true, Bool.or_true]
  have halloc : (s.meas.copied air).rm.skipsScan = true ∨ air.readyForScan = true →
      air.alloc = true := by
    intro hposts
    apply hans.alloc
    rw [RmObj.posts.eq_def, hstate]
    exact (Bool.or_eq_true _ _).mpr hposts
  have hst : (s.meas.copied air).rm.state ≠ .doMeas := by
    show s.meas.rm.state ≠ .doMeas
    rw [hstate]
    exact RmState.noConfusion
  have hend : (s.meas.copied air).rm.state ≠ .ended := by
    show s.meas.rm.state ≠ .ended
    rw [hstate]
    exact RmState.noConfusion
  have hrun : s.rmStateRun air .stateIn = (s.on (Meas.idleCopy air.toEnv)).gotoDoMeas air := by
    rw [rmStateRun, hstate]
    dsimp only
    rw [on_access h.alive, rmStateIdle, idleIn]
    dsimp only
    have hslave : ¬ isMaster (s.on (Meas.idleCopy air.toEnv)).meas.rm.rmid = true := by
      rw [on_meas, hcopy]
      exact Bool.eq_false_iff.mp h.slave
    rw [if_neg hslave]
  rw [hrun]
  apply ext_parts
  · rw [gotoDoMeas_meas, on_meas, hcopy]
    exact Meas.gotoDoMeas_alive h.alive h.rmid_ne h.radio h.measured hpoll halloc hst hend
  · apply gotoDoMeas_sent
    · rw [on_meas, hcopy]
      exact h.radio
    · rw [on_meas, hcopy]
      exact hst

theorem rmStateRun_doMeas (h : r.Serving s.meas) (hstate : s.meas.rm.state = .doMeas) (evid : RmEv) :
    s.rmStateRun air evid = s.rmStateDoMeas air evid := by
  rw [rmStateRun, hstate]
  dsimp only
  rw [on_access h.alive]

theorem rmStateRun_startMeas (h : r.Serving s.meas) (hstate : s.meas.rm.state = .doMeas) :
    s.rmStateRun air .startMeas = s.on Meas.scan := by
  rw [rmStateRun_doMeas h hstate]
  apply ext_parts
  · show s.meas.doMeasStart air.toEnv = _
    rw [Meas.doMeasStart, if_pos h.radio, if_pos h.measured, Meas.rmSitesurvey,
      Meas.access_alive h.alive]
    exact Meas.rmSetClock_alive
      (m := { s.meas with surveys := s.meas.surveys ++ [s.meas.rm.rmid] }) h.alive _ _
  · rfl

theorem rmStateRun_surveyDone (h : r.Serving s.meas) (hstate : s.meas.rm.state = .doMeas)
    (hans : s.meas.rm.Answered air .surveyDone) :
    s.rmStateRun air .surveyDone =
      if s.meas.rm.reported air then ⟨s.meas.nextReport, s.sent ++ [s.reportOf air]⟩
      else s.on (Meas.arm rmCondIntvl .retryTimerExpire) := by
  have hst : s.meas.rm.state ≠ .sendReport := by
    rw [hstate]
    exact RmState.noConfusion
  have hend : s.meas.rm.state ≠ .ended := by
    rw [hstate]
    exact RmState.noConfusion
  have halloc : s.meas.rm.reported air = true → s.meas.rm.p.rpt = 0 → air.alloc = true := by
    intro hrep hzero
    apply hans.alloc
    rw [RmObj.posts, hzero, hrep]
    · rfl
    · exact hstate
  rw [rmStateRun_doMeas h hstate, rmStateDoMeas, doMeasSurveyDone, if_pos h.radio]
  cases Decidable.em (s.meas.rm.q.mType = bcnReq) with
  | inl hbcn =>
    have hrep : s.meas.rm.reported air = true := by
      rw [RmObj.reported, hbcn]
      rfl
    have hcancel : s.on Meas.rmCancelClock = s.on fun m => { m with clock.counter := 0, clock.evid := .max } := by
      apply ext_parts
      · rw [on_meas, Meas.rmCancelClock, Meas.access_alive h.alive]
        rfl
      · rfl
    rw [if_pos hbcn, if_pos hrep, hcancel]
    apply ext_parts
    · rw [gotoSendReport_meas]
      exact Meas.gotoSendReport_alive (m := { s.meas with clock.counter := 0, clock.evid := .max })
        h.alive h.rmid_ne h.radio h.measured (halloc hrep) hst hend
    · exact gotoSendReport_sent (s := s.on fun m => { m with clock.counter := 0, clock.evid := .max })
        h.radio h.measured hst (hans.room hstate rfl hrep) (hans.found hstate rfl)
  | inr hother =>
    have hrep : s.meas.rm.reported air = air.reportCond := by
      rw [RmObj.reported, beq_eq_false_iff_ne.mpr hother, Bool.false_or]
    rw [if_neg hother, if_pos (h.measured.resolve_left hother), hrep]
    cases hcond : air.reportCond with
    | true =>
      rw [hcond] at hrep
      rw [if_pos rfl, if_pos rfl]
      apply ext_parts
      · rw [gotoSendReport_meas]
        exact Meas.gotoSendReport_alive h.alive h.rmid_ne h.radio h.measured (halloc hrep) hst hend
      · exact gotoSendReport_sent h.radio h.measured hst (hans.room hstate rfl hrep)
          (hans.found hstate rfl)
    | false =>
      rw [if_neg Bool.false_ne_true, if_neg Bool.false_ne_true]
      apply ext_parts
      · exact Meas.rmSetClock_alive h.alive _ _
      · rfl

theorem rmStateRun_busy (h : r.Serving s.meas) (hstate : s.meas.rm.state = .doMeas)
    (hans : s.meas.rm.Answered air .busyTimerExpire) :
    s.rmStateRun air .busyTimerExpire =
      if air.readyForScan then s.on (Meas.put .startMeas) else s.on Meas.wait := by
  have hpatient := hans.patient hstate rfl
  rw [rmStateRun_doMeas h hstate, rmStateDoMeas, doMeasBusy]
  cases hready : air.readyForScan with
  | true =>
    have halloc : air.alloc = true := by
      apply hans.alloc
      rw [RmObj.posts.eq_def, hstate]
      exact hready
    rw [if_pos rfl, if_pos rfl, if_neg (Int.not_le.mpr hpatient)]
    exact ext_parts (Meas.rmPostEvent_alive h.alive halloc h.rmid_ne _) rfl
  | false =>
    rw [if_neg Bool.false_ne_true, if_neg Bool.false_ne_true]
    dsimp only
    rw [if_pos hpatient.ne']
    apply ext_parts
    · show (s.meas.setWaitBusy _).rmSetClock _ _ = _
      rw [Meas.setWaitBusy, Meas.access_alive h.alive]
      exact Meas.rmSetClock_alive
        (m := { s.meas with rm.waitBusy := s.meas.rm.waitBusy - 1 }) h.alive _ _
    · rfl

theorem rmStateRun_retry (h : r.Serving s.meas) (hstate : s.meas.rm.state = .doMeas)
    (hans : s.meas.rm.Answered air .retryTimerExpire) :
    s.rmStateRun air .retryTimerExpire = s.on (Meas.put .startMeas) := by
  have halloc : air.alloc = true := by
    apply hans.alloc
    rw [RmObj.posts.eq_def, hstate]
  rw [rmStateRun_doMeas h hstate]
  exact ext_parts (Meas.rmPostEvent_alive h.alive halloc h.rmid_ne _) rfl

theorem rmStateRun_repeat (h : r.Serving s.meas) (hstate : s.meas.rm.state = .sendReport)
    (hans : s.meas.rm.Answered air .repeatDelayExpire) :
    s.rmStateRun air .repeatDelayExpire = s.on (Meas.measure air) := by
  have hst : s.meas.rm.state ≠ .doMeas := by
    rw [hstate]
    exact RmState.noConfusion
  have hend : s.meas.rm.state ≠ .ended := by
    rw [hstate]
    exact RmState.noConfusion
  have hidle : s.meas.rm.state ≠ .idle := by
    rw [hstate]
    exact RmState.noConfusion
  have halloc : s.meas.rm.skipsScan = true ∨ air.readyForScan = true → air.alloc = true := by
    intro hposts
    apply hans.alloc
    rw [RmObj.posts.eq_def, hstate]
    exact (Bool.or_eq_true _ _).mpr hposts
  have hrun : s.rmStateRun air .repeatDelayExpire = s.gotoDoMeas air := by
    rw [rmStateRun, hstate]
    dsimp only
    rw [on_access h.alive]
    rfl
  rw [hrun]
  apply ext_parts
  · rw [gotoDoMeas_meas]
    exact Meas.gotoDoMeas_alive h.alive h.rmid_ne h.radio h.measured (h.polls hidle) halloc hst hend
  · exact gotoDoMeas_sent h.radio hst

theorem rmStateRun_ended (h : r.Serving s.meas) (hstate : s.meas.rm.state = .ended) {evid : RmEv}
    (hevid : evid ≠ .stateIn) : s.rmStateRun air evid = s.on Meas.gone := by
  have hrun : s.rmStateRun air evid = s.on (Meas.rmStateRun air.toEnv evid) := by
    rw [rmStateRun, hstate]
  rw [hrun]
  apply ext_parts
  · rw [on_meas, Meas.rmStateRun, hstate]
    dsimp only
    rw [Meas.access_alive h.alive, Meas.rmStateEnd]
    · rw [Meas.rmFreeRmobj, Meas.access_alive h.alive]
      rfl
    · exact hevid
  · rfl

theorem rmStateRun_stale (h : r.Serving s.meas) (hstate : s.meas.rm.state ≠ .doMeas)
    (hend : s.meas.rm.state ≠ .ended) :
    s.rmStateRun air .measTimerExpire = s := by
  have hsame : s.meas.rmStateRun air.toEnv .measTimerExpire = s.meas := by
    rw [Meas.rmStateRun]
    cases hst : s.meas.rm.state with
    | doMeas => exact absurd hst hstate
    | ended => exact absurd hst hend
    | _ =>
      have haccess := Meas.access_alive h.alive
      exact (congrArg Meas.access haccess).trans haccess
  apply ext_parts
  · rw [rmStateRun_meas, hsame]
  · rw [rmStateRun]
    cases hst : s.meas.rm.state with
    | doMeas => exact absurd hst hstate
    | _ => rfl

theorem rmStateRun_next (h : r.Serving s.meas) {evid : RmEv}
    (hevid : s.meas.rm.state.awaits evid = true ∨ evid = .measTimerExpire)
    (hans : s.meas.rm.Answered air evid) : s.rmStateRun air evid = s.next air evid := by
  cases hevid with
  | inl hawaits =>
    obtain ⟨hstate, rfl⟩ | ⟨hstate, rfl⟩ | ⟨hstate, rfl⟩ | ⟨hstate, hkind⟩ :=
      RmState.awaits_cases hawaits
    · rw [rmStateRun_idle h hstate hans, next, hstate]
      rfl
    · rw [rmStateRun_repeat h hstate hans, next, hstate]
      rfl
    · rw [rmStateRun_ended h hstate RmEv.noConfusion, next, hstate]
      rfl
    · rcases hkind with rfl | rfl | rfl | rfl
      · rw [rmStateRun_startMeas h hstate, next, hstate]
        rfl
      · rw [rmStateRun_surveyDone h hstate hans, next, hstate]
        rfl
      · rw [rmStateRun_busy h hstate hans, next, hstate]
        rfl
      · rw [rmStateRun_retry h hstate hans, next, hstate]
        rfl
  | inr htimer =>
    subst htimer
    cases hstate : s.meas.rm.state with
    | doMeas => exact absurd rfl (hans.timely hstate)
    | ended =>
      rw [rmStateRun_ended h hstate RmEv.noConfusion, next, hstate]
      rfl
    | _ =>
      have hdo : s.meas.rm.state ≠ .doMeas := by
        rw [hstate]
        exact RmState.noConfusion
      have hend : s.meas.rm.state ≠ .ended := by
        rw [hstate]
        exact RmState.noConfusion
      rw [rmStateRun_stale h hdo hend, next, hstate]
      rfl

end Next

end Sender

end Rm
