import Rtl8188fu.Rm.Measurement

namespace Rm

namespace Meas

structure Frame (ok : RmState → Bool) (m m' : Meas) : Prop where
  rmid : m'.rm.rmid = m.rm.rmid
  q : m'.rm.q = m.rm.q
  pclock : m'.rm.pclock = m.rm.pclock
  state : ok m.rm.state = true → ok m'.rm.state = true
  log : ∃ l, m'.log = m.log ++ l ∧ ∀ e ∈ l, e.1 = m.rm.rmid ∧ ok e.2 = true
  prm : m'.freed = false → m'.clock.prm = m.clock.prm
  cleared : (m.freed = true → m.clock.prm = none) → m'.freed = true → m'.clock.prm = none
  freed : m.freed = true → m'.freed = true
  fault : m.fault = true → m'.fault = true

namespace Frame

variable {ok : RmState → Bool} {m m' m'' : Meas} {env : Env}

theorem of_same (hrmid : m'.rm.rmid = m.rm.rmid) (hq : m'.rm.q = m.rm.q)
    (hpclock : m'.rm.pclock = m.rm.pclock) (hstate : m'.rm.state = m.rm.state)
    (hlog : m'.log = m.log) (hprm : m'.clock.prm = m.clock.prm) (hfreed : m'.freed = m.freed)
    (hfault : m'.fault = (m.fault || m.freed)) : Frame ok m m' :=
  ⟨hrmid, hq, hpclock, fun h => hstate ▸ h, ⟨[], by simp [hlog]⟩, fun _ => hprm,
    fun h hf => hprm.trans (h (hfreed ▸ hf)), fun h => hfreed ▸ h,
    fun h => by rw [hfault, h, Bool.true_or]⟩

theorem trans (h : Frame ok m m') (h' : Frame ok m' m'') : Frame ok m m'' := by
  obtain ⟨l, hl, hok⟩ := h.log
  obtain ⟨l', hl', hok'⟩ := h'.log
  refine ⟨h'.rmid.trans h.rmid, h'.q.trans h.q, h'.pclock.trans h.pclock,
    fun hs => h'.state (h.state hs), ⟨l ++ l', ?_, ?_⟩, ?_, fun hc hf => h'.cleared (h.cleared hc) hf,
    fun hf => h'.freed (h.freed hf), fun hf => h'.fault (h.fault hf)⟩
  · rw [hl', hl, List.append_assoc]
  · intro e he
    rcases List.mem_append.mp he with he | he
    · exact hok e he
    · exact h.rmid ▸ hok' e he
  · intro hf
    have hmid : m'.freed = false := Bool.eq_false_iff.mpr fun hfm => by
      rw [h'.freed hfm] at hf
      exact absurd hf (by decide)
    exact (h'.prm hf).trans (h.prm hmid)

theorem access (m : Meas) : Frame ok m m.access := of_same rfl rfl rfl rfl rfl rfl rfl rfl

theorem rmSetClock (ms : ℕ) (evid : RmEv) (m : Meas) : Frame ok m (m.rmSetClock ms evid) :=
  of_same rfl rfl rfl rfl rfl rfl rfl rfl

theorem rmCancelClock (m : Meas) : Frame ok m m.rmCancelClock :=
  of_same rfl rfl rfl rfl rfl rfl rfl rfl

theorem rmFreeRmobj (m : Meas) : Frame ok m m.rmFreeRmobj :=
  ⟨rfl, rfl, rfl, id, ⟨[], by simp [Meas.rmFreeRmobj, Meas.access]⟩,
    fun hf => absurd hf.symm Bool.false_ne_true, fun _ _ => rfl, fun _ => rfl,
    fun h => by simp [Meas.rmFreeRmobj, Meas.access, h]⟩

theorem rmPostEvent (env : Env) (evid : RmEv) (m : Meas) : Frame ok m (m.rmPostEvent env evid) := by
  unfold Meas.rmPostEvent
  split <;> exact of_same rfl rfl rfl rfl rfl rfl rfl rfl

theorem rmSetRepMode (mode : UInt8) (m : Meas) : Frame ok m (m.rmSetRepMode mode) :=
  of_same rfl rfl rfl rfl rfl rfl rfl rfl

theorem rmSitesurvey (m : Meas) : Frame ok m m.rmSitesurvey :=
  of_same rfl rfl rfl rfl rfl rfl rfl rfl

theorem setAction (actionCode : UInt8) (m : Meas) : Frame ok m (m.setAction actionCode) :=
  of_same rfl rfl rfl rfl rfl rfl rfl rfl

theorem setWaitBusy (n : ℤ) (m : Meas) : Frame ok m (m.setWaitBusy n) :=
  of_same rfl rfl rfl rfl rfl rfl rfl rfl

theorem countRpt (m : Meas) : Frame ok m m.countRpt :=
  of_same rfl rfl rfl rfl rfl rfl rfl rfl

theorem stateOut (m : Meas) : Frame ok m m.stateOut := by
  unfold Meas.stateOut
  split
  · exact rmFreeRmobj m
  · exact rmCancelClock m

theorem rmStateGoto {st : RmState} (hok : ok st = true) {stateIn : Meas → Meas}
    (hin : ∀ m, Frame ok m (stateIn m)) (m : Meas) : Frame ok m (m.rmStateGoto st stateIn) := by
  unfold Meas.rmStateGoto
  split
  · exact access m
  · have hout : Frame ok m m.access.stateOut := (access m).trans (stateOut m.access)
    refine hout.trans (trans ?_ (hin _))
    exact ⟨rfl, rfl, rfl, fun _ => hok, ⟨[(_, st)], rfl, by simp [hok]⟩, fun _ => rfl, id, id,
      fun h => (Bool.or_eq_true _ _).mpr (.inl h)⟩

theorem endIn (env : Env) (m : Meas) : Frame ok m (m.endIn env) := rmPostEvent env _ m

theorem gotoEnd (env : Env) (hended : ok .ended = true) (m : Meas) : Frame ok m (m.gotoEnd env) :=
  rmStateGoto hended (endIn env) m

theorem sendReportIn (env : Env) (hended : ok .ended = true) (m : Meas) :
    Frame ok m (m.sendReportIn env) := by
  unfold Meas.sendReportIn
  split
  · split
    · split
      · exact (countRpt m).trans (rmSetClock _ _ _)
      · exact gotoEnd env hended m
    · exact gotoEnd env hended m
  · exact gotoEnd env hended m

theorem gotoSendReport (env : Env) (hended : ok .ended = true) (hsend : ok .sendReport = true)
    (m : Meas) : Frame ok m (m.gotoSendReport env) :=
  rmStateGoto hsend (sendReportIn env hended) m

theorem doMeasIn (env : Env) (hended : ok .ended = true) (hsend : ok .sendReport = true)
    (m : Meas) : Frame ok m (m.doMeasIn env) := by
  unfold Meas.doMeasIn
  split
  · split
    · split
      · exact rmPostEvent env _ m
      · split
        · exact rmPostEvent env _ m
        · exact (setWaitBusy _ m).trans (rmSetClock _ _ _)
    · split
      · split
        · exact rmPostEvent env _ m
        · exact access m
      · exact gotoEnd env hended m
  · split
    · exact gotoSendReport env hended hsend m
    · exact rmPostEvent env _ m

theorem gotoDoMeas (env : Env) (hended : ok .ended = true) (hsend : ok .sendReport = true)
    (hdo : ok .doMeas = true) (m : Meas) : Frame ok m (m.gotoDoMeas env) :=
  rmStateGoto hdo (doMeasIn env hended hsend) m

theorem gotoWaitMeas (hwait : ok .waitMeas = true) (m : Meas) : Frame ok m m.gotoWaitMeas :=
  rmStateGoto hwait (fun m => rmSetClock _ _ m) m

theorem recvReportIn (env : Env) (hended : ok .ended = true) (hwait : ok .waitMeas = true)
    (m : Meas) : Frame ok m (m.recvReportIn env) := by
  unfold Meas.recvReportIn
  split
  · split
    · exact gotoEnd env hended m
    · split
      · exact (countRpt m).trans (gotoWaitMeas hwait _)
      · exact gotoEnd env hended m
  · exact gotoEnd env hended m

theorem gotoRecvReport (env : Env) (hended : ok .ended = true) (hwait : ok .waitMeas = true)
    (hrecv : ok .recvReport = true) (m : Meas) : Frame ok m (m.gotoRecvReport env) :=
  rmStateGoto hrecv (recvReportIn env hended hwait) m

theorem idleCopy (env : Env) (m : Meas) : Frame ok m (m.idleCopy env) := by
  unfold Meas.idleCopy
  split
  · exact of_same rfl rfl rfl rfl rfl rfl rfl rfl
  · split
    · exact of_same rfl rfl rfl rfl rfl rfl rfl rfl
    · split
      · exact of_same rfl rfl rfl rfl rfl rfl rfl rfl
      · exact (setAction _ m).trans (rmSetRepMode _ _)

theorem doMeasStart (env : Env) (hended : ok .ended = true) (m : Meas) :
    Frame ok m (m.doMeasStart env) := by
  unfold Meas.doMeasStart
  split
  · split
    · exact (rmSitesurvey m).trans (rmSetClock _ _ _)
    · exact gotoEnd env hended m
  · exact rmSetClock _ _ m

theorem doMeasSurveyDone (env : Env) (hended : ok .ended = true) (hsend : ok .sendReport = true)
    (m : Meas) : Frame ok m (m.doMeasSurveyDone env) := by
  unfold Meas.doMeasSurveyDone
  split
  · split
    · exact (rmCancelClock m).trans (gotoSendReport env hended hsend _)
    · split
      · split
        · exact gotoSendReport env hended hsend m
        · exact rmSetClock _ _ m
      · exact gotoEnd env hended m
  · exact access m

theorem refuse (env : Env) (hended : ok .ended = true) (m : Meas) :
    Frame ok m ((m.rmSetRepMode measRepModRefuse).gotoEnd env) :=
  (rmSetRepMode _ m).trans (gotoEnd env hended _)

theorem doMeasBusy (env : Env) (hended : ok .ended = true) (m : Meas) :
    Frame ok m (m.doMeasBusy env) := by
  unfold Meas.doMeasBusy
  split
  · split
    · exact refuse env hended m
    · exact rmPostEvent env _ m
  · have hdec : Frame ok m (m.setWaitBusy (m.rm.waitBusy - 1)) := setWaitBusy _ m
    dsimp only
    split
    · exact hdec.trans (rmSetClock _ _ _)
    · split
      · exact hdec.trans (refuse env hended _)
      · exact hdec.trans (rmPostEvent env _ _)

theorem rmStateDoMeas (env : Env) (hended : ok .ended = true) (hsend : ok .sendReport = true)
    (evid : RmEv) (m : Meas) : Frame ok m (m.rmStateDoMeas env evid) := by
  cases evid with
  | stateIn => exact doMeasIn env hended hsend m
  | startMeas => exact doMeasStart env hended m
  | surveyDone => exact doMeasSurveyDone env hended hsend m
  | measTimerExpire | requestTimerExpire | cancel => exact refuse env hended m
  | busyTimerExpire => exact doMeasBusy env hended m
  | retryTimerExpire => exact rmPostEvent env _ m
  | stateOut => exact stateOut m
  | delayTimerExpire | repeatDelayExpire | waitReport | recvRep | max => exact access m

theorem rmStateWaitMeas (env : Env) (hended : ok .ended = true) (hwait : ok .waitMeas = true)
    (hrecv : ok .recvReport = true) (evid : RmEv) (m : Meas) :
    Frame ok m (m.rmStateWaitMeas env evid) := by
  cases evid with
  | stateIn => exact rmSetClock _ _ m
  | recvRep => exact gotoRecvReport env hended hwait hrecv m
  | requestTimerExpire | cancel => exact gotoEnd env hended m
  | stateOut => exact stateOut m
  | busyTimerExpire | delayTimerExpire | measTimerExpire | retryTimerExpire | repeatDelayExpire
  | waitReport | startMeas | surveyDone | max => exact access m

theorem rmStateSendReport (env : Env) (hended : ok .ended = true) (hsend : ok .sendReport = true)
    (hdo : ok .doMeas = true) (evid : RmEv) (m : Meas) :
    Frame ok m (m.rmStateSendReport env evid) := by
  cases evid with
  | stateIn => exact sendReportIn env hended m
  | repeatDelayExpire => exact gotoDoMeas env hended hsend hdo m
  | cancel => exact gotoEnd env hended m
  | stateOut => exact stateOut m
  | busyTimerExpire | delayTimerExpire | measTimerExpire | retryTimerExpire | requestTimerExpire
  | waitReport | startMeas | surveyDone | recvRep | max => exact access m

theorem rmStateRecvReport (env : Env) (hended : ok .ended = true) (hwait : ok .waitMeas = true)
    (evid : RmEv) (m : Meas) : Frame ok m (m.rmStateRecvReport env evid) := by
  cases evid with
  | stateIn => exact recvReportIn env hended hwait m
  | cancel => exact gotoEnd env hended m
  | stateOut => exact stateOut m
  | busyTimerExpire | delayTimerExpire | measTimerExpire | retryTimerExpire | requestTimerExpire
  | repeatDelayExpire | waitReport | startMeas | surveyDone | recvRep | max => exact access m

theorem rmStateEnd (env : Env) (evid : RmEv) (m : Meas) : Frame ok m (m.rmStateEnd env evid) := by
  cases evid with
  | stateIn => exact endIn env m
  | _ => exact rmFreeRmobj m

theorem issueOrEnd (env : Env) (hended : ok .ended = true) (hwait : ok .waitMeas = true)
    (m : Meas) : Frame ok m (m.issueOrEnd env) := by
  unfold Meas.issueOrEnd
  split
  · exact gotoWaitMeas hwait m
  · exact gotoEnd env hended m

theorem idleIn_slave (env : Env) (hended : ok .ended = true) (hsend : ok .sendReport = true)
    (hdo : ok .doMeas = true) {m : Meas} (hslave : isMaster m.rm.rmid = false) :
    Frame ok m (m.idleIn env) := by
  have hcopy : Frame ok m (m.idleCopy env) := idleCopy env m
  rw [Meas.idleIn, hcopy.rmid, hslave, if_neg Bool.false_ne_true]
  exact hcopy.trans (gotoDoMeas env hended hsend hdo _)

theorem idleIn_master (env : Env) (hended : ok .ended = true) (hwait : ok .waitMeas = true)
    {m : Meas} (hmaster : isMaster m.rm.rmid = true) (hrand : m.rm.q.randIntvl ≠ 0) :
    Frame ok m (m.idleIn env) := by
  have hcopy : Frame ok m (m.idleCopy env) := idleCopy env m
  have hissue := issueOrEnd env hended hwait (m.idleCopy env)
  rw [Meas.idleIn, hcopy.rmid, hmaster, if_pos rfl]
  dsimp only
  rw [if_pos (by rw [hissue.q, hcopy.q]; exact hrand)]
  exact (hcopy.trans hissue).trans (rmSetClock _ _ _)

end Frame

def roleOk (master : Bool) : RmState → Bool
  | .idle | .ended => true
  | .waitMeas | .recvReport => master
  | .doMeas | .sendReport => !master

end Meas

def RmObj.crossesRole (rm : RmObj) (evid : RmEv) : Bool :=
  isMaster rm.rmid && rm.state == .idle &&
    (evid == .delayTimerExpire || evid == .stateIn && rm.q.randIntvl == 0)

namespace Meas

theorem rmStateRun_slave (env : Env) {evid : RmEv} {m : Meas} (hslave : isMaster m.rm.rmid = false)
    (hrole : roleOk false m.rm.state = true) : Frame (roleOk false) m (m.rmStateRun env evid) := by
  unfold rmStateRun
  cases hst : m.rm.state with
  | idle =>
    refine (Frame.access m).trans ?_
    cases evid with
    | stateIn => exact Frame.idleIn_slave env rfl rfl rfl hslave
    | delayTimerExpire => exact Frame.gotoDoMeas env rfl rfl rfl _
    | cancel => exact Frame.gotoEnd env rfl _
    | stateOut => exact Frame.stateOut _
    | _ => exact Frame.access _
  | doMeas => exact (Frame.access m).trans (Frame.rmStateDoMeas env rfl rfl evid _)
  | sendReport => exact (Frame.access m).trans (Frame.rmStateSendReport env rfl rfl rfl evid _)
  | ended => exact (Frame.access m).trans (Frame.rmStateEnd env evid _)
  | waitMeas | recvReport =>
    rw [hst] at hrole
    exact absurd hrole Bool.false_ne_true

theorem rmStateRun_master (env : Env) {evid : RmEv} {m : Meas} (hmaster : isMaster m.rm.rmid = true)
    (hrole : roleOk true m.rm.state = true) (hkeeps : m.rm.crossesRole evid = false) :
    Frame (roleOk true) m (m.rmStateRun env evid) := by
  unfold rmStateRun
  cases hst : m.rm.state with
  | idle =>
    refine (Frame.access m).trans ?_
    simp only [RmObj.crossesRole, hmaster, hst, beq_self_eq_true, Bool.true_and,
      Bool.or_eq_false_iff] at hkeeps
    cases evid with
    | stateIn =>
      exact Frame.idleIn_master env rfl rfl hmaster (by simpa [access] using hkeeps.2)
    | delayTimerExpire => exact absurd hkeeps.1 (by decide)
    | cancel => exact Frame.gotoEnd env rfl _
    | stateOut => exact Frame.stateOut _
    | _ => exact Frame.access _
  | waitMeas => exact (Frame.access m).trans (Frame.rmStateWaitMeas env rfl rfl rfl evid _)
  | recvReport => exact (Frame.access m).trans (Frame.rmStateRecvReport env rfl rfl evid _)
  | ended => exact (Frame.access m).trans (Frame.rmStateEnd env evid _)
  | doMeas | sendReport =>
    rw [hst] at hrole
    exact absurd hrole Bool.false_ne_true

theorem rmStateRun_role (env : Env) {evid : RmEv} {m : Meas}
    (hrole : roleOk (isMaster m.rm.rmid) m.rm.state = true)
    (hkeeps : m.rm.crossesRole evid = false) :
    Frame (roleOk (isMaster m.rm.rmid)) m (m.rmStateRun env evid) := by
  cases hmaster : isMaster m.rm.rmid with
  | false => exact rmStateRun_slave env hmaster (hmaster ▸ hrole)
  | true => exact rmStateRun_master env hmaster (hmaster ▸ hrole) hkeeps

theorem rmStateRun_frame (env : Env) (evid : RmEv) (m : Meas) :
    Frame (fun _ => true) m (m.rmStateRun env evid) := by
  have hin : ∀ m : Meas, Frame (fun _ => true) m (m.idleIn env) := fun m => by
    have hcopy : Frame (fun _ => true) m (m.idleCopy env) := Frame.idleCopy env m
    unfold idleIn
    refine hcopy.trans ?_
    dsimp only
    split
    · refine (Frame.issueOrEnd env rfl rfl _).trans ?_
      split
      · exact Frame.rmSetClock _ _ _
      · exact Frame.gotoDoMeas env rfl rfl rfl _
    · exact Frame.gotoDoMeas env rfl rfl rfl _
  unfold rmStateRun
  cases m.rm.state with
  | idle =>
    refine (Frame.access m).trans ?_
    cases evid with
    | stateIn => exact hin _
    | delayTimerExpire => exact Frame.gotoDoMeas env rfl rfl rfl _
    | cancel => exact Frame.gotoEnd env rfl _
    | stateOut => exact Frame.stateOut _
    | _ => exact Frame.access _
  | doMeas => exact (Frame.access m).trans (Frame.rmStateDoMeas env rfl rfl evid _)
  | sendReport => exact (Frame.access m).trans (Frame.rmStateSendReport env rfl rfl rfl evid _)
  | waitMeas => exact (Frame.access m).trans (Frame.rmStateWaitMeas env rfl rfl rfl evid _)
  | recvReport => exact (Frame.access m).trans (Frame.rmStateRecvReport env rfl rfl evid _)
  | ended => exact (Frame.access m).trans (Frame.rmStateEnd env evid _)

theorem gotoDoMeas_logs (env : Env) {m : Meas} (hst : m.rm.state ≠ .doMeas) :
    (m.rm.rmid, RmState.doMeas) ∈ (m.gotoDoMeas env).log := by
  rw [gotoDoMeas, rmStateGoto, if_neg hst]
  have hin : ∀ m : Meas, Frame (fun _ => true) m (m.doMeasIn env) := Frame.doMeasIn env rfl rfl
  have hout : Frame (fun _ => true) m.access m.access.stateOut := Frame.stateOut m.access
  have hrmid : m.access.stateOut.rm.rmid = m.rm.rmid := hout.rmid
  obtain ⟨l, hl, -⟩ := (hin { m.access.stateOut.access with
    rm.state := .doMeas
    log := m.access.stateOut.log ++ [(m.access.stateOut.rm.rmid, .doMeas)] }).log
  refine hl ▸ List.mem_append_left _ (List.mem_append_right _ ?_)
  rw [hrmid]
  exact List.mem_singleton_self _

theorem gotoWaitMeas_state (m : Meas) : m.gotoWaitMeas.rm.state = .waitMeas := by
  rw [gotoWaitMeas, rmStateGoto]
  split
  · next h => exact h
  · rfl

theorem gotoEnd_state (env : Env) (m : Meas) : (m.gotoEnd env).rm.state = .ended := by
  rw [gotoEnd, rmStateGoto]
  split
  · next h => exact h
  · dsimp only
    rw [endIn, rmPostEvent]
    split <;> rfl

theorem rmStateRun_crosses (env : Env) {evid : RmEv} {m : Meas}
    (hcross : m.rm.crossesRole evid = true) :
    (m.rm.rmid, RmState.doMeas) ∈ (m.rmStateRun env evid).log := by
  simp only [RmObj.crossesRole, Bool.and_eq_true, Bool.or_eq_true, beq_iff_eq] at hcross
  obtain ⟨⟨hmaster, hidle⟩, rfl | ⟨rfl, hrand⟩⟩ := hcross
  · rw [rmStateRun, hidle]
    exact gotoDoMeas_logs env (m := m.access) (by simp [access, hidle])
  · have hcopy : Frame (fun _ => true) m.access (m.access.idleCopy env) :=
      Frame.idleCopy env m.access
    rw [rmStateRun, hidle]
    show _ ∈ (m.access.idleIn env).log
    rw [idleIn, hcopy.rmid]
    change _ ∈ (if isMaster m.rm.rmid = true then _ else _ : Meas).log
    rw [if_pos hmaster]
    dsimp only
    have hissue : Frame (fun _ => true) (m.access.idleCopy env)
        ((m.access.idleCopy env).issueOrEnd env) := Frame.issueOrEnd env rfl rfl _
    have hstate : ((m.access.idleCopy env).issueOrEnd env).rm.state ≠ .doMeas := by
      unfold issueOrEnd
      split
      · rw [gotoWaitMeas_state]
        decide
      · rw [gotoEnd_state]
        decide
    rw [if_neg (by rw [hissue.q, hcopy.q]; exact not_not_intro hrand)]
    have hlogs := gotoDoMeas_logs env hstate
    rwa [hissue.rmid, hcopy.rmid] at hlogs

end Meas

end Rm
