import Rtl8188fu.Rm.Steps

namespace Rm

namespace Meas

structure Alive (m m' : Meas) : Prop where
  freed : m'.freed = false
  fault : m'.fault = m.fault

namespace Alive

variable {m m' m'' : Meas}

theorem trans (h : Alive m m') (h' : Alive m' m'') : Alive m m'' :=
  ⟨h'.freed, h'.fault.trans h.fault⟩

theorem access (hf : m.freed = false) : Alive m m.access :=
  ⟨hf, by simp [Meas.access, hf]⟩

theorem rmSetClock (hf : m.freed = false) (ms : ℕ) (evid : RmEv) :
    Alive m (m.rmSetClock ms evid) :=
  ⟨hf, (access hf).fault⟩

theorem rmCancelClock (hf : m.freed = false) : Alive m m.rmCancelClock :=
  ⟨hf, (access hf).fault⟩

theorem rmSetRepMode (hf : m.freed = false) (mode : UInt8) : Alive m (m.rmSetRepMode mode) :=
  ⟨hf, (access hf).fault⟩

theorem setAction (hf : m.freed = false) (actionCode : UInt8) : Alive m (m.setAction actionCode) :=
  ⟨hf, (access hf).fault⟩

theorem setWaitBusy (hf : m.freed = false) (n : ℤ) : Alive m (m.setWaitBusy n) :=
  ⟨hf, (access hf).fault⟩

theorem countRpt (hf : m.freed = false) : Alive m m.countRpt :=
  ⟨hf, (access hf).fault⟩

theorem rmPostEvent (hf : m.freed = false) (env : Env) (evid : RmEv) :
    Alive m (m.rmPostEvent env evid) := by
  unfold Meas.rmPostEvent
  split <;> exact ⟨hf, (access hf).fault⟩

theorem rmStateGoto {st : RmState} {stateIn : Meas → Meas} (hf : m.freed = false)
    (hst : m.rm.state ≠ .ended)
    (hin : ∀ m : Meas, m.freed = false → m.rm.state = st → Alive m (stateIn m)) :
    Alive m (m.rmStateGoto st stateIn) := by
  unfold Meas.rmStateGoto
  split
  · exact access hf
  · have hout : m.access.stateOut = m.access.rmCancelClock := by
      unfold Meas.stateOut
      split
      · next h => exact absurd h hst
      · rfl
    have hcancel := (access hf).trans (rmCancelClock (access hf).freed)
    have hmoved : Alive m { m.access.rmCancelClock.access with
        rm.state := st, log := m.access.rmCancelClock.log ++ [(m.access.rmCancelClock.rm.rmid, st)] } :=
      ⟨hf, (hcancel.trans (access hcancel.freed)).fault⟩
    dsimp only
    rw [hout]
    exact hmoved.trans (hin _ hf rfl)

theorem gotoEnd (env : Env) (hf : m.freed = false) (hst : m.rm.state ≠ .ended) :
    Alive m (m.gotoEnd env) :=
  rmStateGoto hf hst fun _ hf _ => rmPostEvent hf env _

theorem sendReportIn (env : Env) (hf : m.freed = false) (hst : m.rm.state ≠ .ended) :
    Alive m (m.sendReportIn env) := by
  unfold Meas.sendReportIn
  split
  · split
    · split
      · exact (countRpt hf).trans (rmSetClock (countRpt hf).freed _ _)
      · exact gotoEnd env hf hst
    · exact gotoEnd env hf hst
  · exact gotoEnd env hf hst

theorem gotoSendReport (env : Env) (hf : m.freed = false) (hst : m.rm.state ≠ .ended) :
    Alive m (m.gotoSendReport env) :=
  rmStateGoto hf hst fun _ hf h => sendReportIn env hf (by rw [h]; decide)

theorem doMeasIn (env : Env) (hf : m.freed = false) (hst : m.rm.state ≠ .ended) :
    Alive m (m.doMeasIn env) := by
  unfold Meas.doMeasIn
  split
  · split
    · split
      · exact rmPostEvent hf env _
      · split
        · exact rmPostEvent hf env _
        · exact (setWaitBusy hf _).trans (rmSetClock (setWaitBusy hf _).freed _ _)
    · split
      · split
        · exact rmPostEvent hf env _
        · exact access hf
      · exact gotoEnd env hf hst
  · split
    · exact gotoSendReport env hf hst
    · exact rmPostEvent hf env _

theorem gotoDoMeas (env : Env) (hf : m.freed = false) (hst : m.rm.state ≠ .ended) :
    Alive m (m.gotoDoMeas env) :=
  rmStateGoto hf hst fun _ hf h => doMeasIn env hf (by rw [h]; decide)

theorem gotoWaitMeas (hf : m.freed = false) (hst : m.rm.state ≠ .ended) :
    Alive m m.gotoWaitMeas :=
  rmStateGoto hf hst fun _ hf _ => rmSetClock hf _ _

theorem recvReportIn (env : Env) (hf : m.freed = false) (hst : m.rm.state ≠ .ended) :
    Alive m (m.recvReportIn env) := by
  unfold Meas.recvReportIn
  split
  · split
    · exact gotoEnd env hf hst
    · split
      · exact (countRpt hf).trans (gotoWaitMeas (countRpt hf).freed hst)
      · exact gotoEnd env hf hst
  · exact gotoEnd env hf hst

theorem gotoRecvReport (env : Env) (hf : m.freed = false) (hst : m.rm.state ≠ .ended) :
    Alive m (m.gotoRecvReport env) :=
  rmStateGoto hf hst fun _ hf h => recvReportIn env hf (by rw [h]; decide)

theorem idleCopy (env : Env) (hf : m.freed = false) : Alive m (m.idleCopy env) := by
  unfold Meas.idleCopy
  split
  · exact ⟨hf, (access hf).fault⟩
  · split
    · exact setAction hf _
    · split
      · exact setAction hf _
      · exact (setAction hf _).trans (rmSetRepMode (setAction hf _).freed _)

theorem refuse (env : Env) (hf : m.freed = false) (hst : m.rm.state ≠ .ended) :
    Alive m ((m.rmSetRepMode measRepModRefuse).gotoEnd env) :=
  (rmSetRepMode hf _).trans (gotoEnd env hf hst)

theorem doMeasBusy (env : Env) (hf : m.freed = false) (hst : m.rm.state ≠ .ended) :
    Alive m (m.doMeasBusy env) := by
  have hdec := setWaitBusy hf (m.rm.waitBusy - 1)
  unfold Meas.doMeasBusy
  split
  · split
    · exact refuse env hf hst
    · exact rmPostEvent hf env _
  · dsimp only
    split
    · exact hdec.trans (rmSetClock hdec.freed _ _)
    · split
      · exact hdec.trans (refuse env hdec.freed hst)
      · exact hdec.trans (rmPostEvent hdec.freed env _)

theorem rmStateDoMeas (env : Env) (hf : m.freed = false) (hst : m.rm.state = .doMeas)
    (evid : RmEv) : Alive m (m.rmStateDoMeas env evid) := by
  have hne : m.rm.state ≠ .ended := by
    rw [hst]
    decide
  cases evid with
  | stateIn => exact doMeasIn env hf hne
  | startMeas =>
    show Alive m (m.doMeasStart env)
    unfold Meas.doMeasStart
    split
    · split
      · exact ⟨hf, by simp [Meas.rmSetClock, Meas.rmSitesurvey, Meas.access, hf]⟩
      · exact gotoEnd env hf hne
    · exact rmSetClock hf _ _
  | surveyDone =>
    show Alive m (m.doMeasSurveyDone env)
    unfold Meas.doMeasSurveyDone
    split
    · split
      · exact (rmCancelClock hf).trans (gotoSendReport env hf hne)
      · split
        · split
          · exact gotoSendReport env hf hne
          · exact rmSetClock hf _ _
        · exact gotoEnd env hf hne
    · exact access hf
  | measTimerExpire | requestTimerExpire | cancel => exact refuse env hf hne
  | busyTimerExpire => exact doMeasBusy env hf hne
  | retryTimerExpire => exact rmPostEvent hf env _
  | stateOut =>
    show Alive m m.stateOut
    rw [Meas.stateOut, hst]
    exact rmCancelClock hf
  | delayTimerExpire | repeatDelayExpire | waitReport | recvRep | max => exact access hf

end Alive

end Meas

def RmObj.derails (rm : RmObj) (evid : RmEv) : Bool :=
  rm.state == .idle && evid == .stateIn && isMaster rm.rmid && !Meas.rmIssueMeasReq rm.q &&
    rm.q.randIntvl == 0

def RmObj.frees (rm : RmObj) (evid : RmEv) : Bool := rm.state == .ended && evid != .stateIn

namespace Meas

theorem idleCopy_state (env : Env) (m : Meas) : (m.idleCopy env).rm.state = m.rm.state := by
  unfold idleCopy
  split
  · rfl
  · split
    · rfl
    · split <;> rfl

theorem idleIn_alive (env : Env) {m : Meas} (hf : m.freed = false) (hst : m.rm.state = .idle)
    (hkeeps : m.rm.derails .stateIn = false) : Alive m (m.idleIn env) := by
  have hcopy : Frame (fun _ => true) m (m.idleCopy env) := Frame.idleCopy env m
  have hlive := Alive.idleCopy env hf
  have hidle : (m.idleCopy env).rm.state ≠ .ended := by
    rw [idleCopy_state, hst]
    decide
  refine hlive.trans ?_
  rw [idleIn]
  cases hmaster : isMaster (m.idleCopy env).rm.rmid with
  | false =>
    rw [if_neg Bool.false_ne_true]
    exact Alive.gotoDoMeas env hlive.freed hidle
  | true =>
    rw [if_pos rfl]
    have hissue : Alive (m.idleCopy env) ((m.idleCopy env).issueOrEnd env) := by
      unfold issueOrEnd
      split
      · exact Alive.gotoWaitMeas hlive.freed hidle
      · exact Alive.gotoEnd env hlive.freed hidle
    have hq : ((m.idleCopy env).issueOrEnd env).rm.q = m.rm.q := by
      have hframe : Frame (fun _ => true) (m.idleCopy env) ((m.idleCopy env).issueOrEnd env) :=
        Frame.issueOrEnd env rfl rfl _
      exact hframe.q.trans hcopy.q
    refine hissue.trans ?_
    dsimp only
    split
    · exact Alive.rmSetClock hissue.freed _ _
    · next hrand =>
      rw [hq, not_not] at hrand
      rw [hcopy.rmid] at hmaster
      have hact : rmIssueMeasReq (m.idleCopy env).rm.q = true := by
        rw [hcopy.q]
        simpa [RmObj.derails, hst, hmaster, hrand] using hkeeps
      refine Alive.gotoDoMeas env hissue.freed ?_
      rw [issueOrEnd, if_pos hact, gotoWaitMeas_state]
      decide

theorem rmStateRun_alive (env : Env) {evid : RmEv} {m : Meas} (hf : m.freed = false)
    (hderails : m.rm.derails evid = false) (hfrees : m.rm.frees evid = false) :
    Alive m (m.rmStateRun env evid) := by
  have hacc := Alive.access hf
  unfold rmStateRun
  cases hst : m.rm.state with
  | idle =>
    refine hacc.trans ?_
    have hidle : m.access.rm.state = .idle := hst
    have hne : m.access.rm.state ≠ .ended := by
      rw [hidle]
      decide
    cases evid with
    | stateIn => exact idleIn_alive env hacc.freed hst hderails
    | delayTimerExpire => exact Alive.gotoDoMeas env hacc.freed hne
    | cancel => exact Alive.gotoEnd env hacc.freed hne
    | stateOut =>
      show Alive _ m.access.stateOut
      rw [stateOut, hidle]
      exact Alive.rmCancelClock hacc.freed
    | _ => exact Alive.access hacc.freed
  | doMeas => exact hacc.trans (Alive.rmStateDoMeas env hacc.freed hst evid)
  | waitMeas =>
    refine hacc.trans ?_
    have hne : m.access.rm.state ≠ .ended := by
      rw [show m.access.rm.state = .waitMeas from hst]
      decide
    cases evid with
    | stateIn => exact Alive.rmSetClock hacc.freed _ _
    | recvRep => exact Alive.gotoRecvReport env hacc.freed hne
    | requestTimerExpire | cancel => exact Alive.gotoEnd env hacc.freed hne
    | stateOut =>
      show Alive _ m.access.stateOut
      rw [stateOut, show m.access.rm.state = .waitMeas from hst]
      exact Alive.rmCancelClock hacc.freed
    | _ => exact Alive.access hacc.freed
  | sendReport =>
    refine hacc.trans ?_
    have hne : m.access.rm.state ≠ .ended := by
      rw [show m.access.rm.state = .sendReport from hst]
      decide
    cases evid with
    | stateIn => exact Alive.sendReportIn env hacc.freed hne
    | repeatDelayExpire => exact Alive.gotoDoMeas env hacc.freed hne
    | cancel => exact Alive.gotoEnd env hacc.freed hne
    | stateOut =>
      show Alive _ m.access.stateOut
      rw [stateOut, show m.access.rm.state = .sendReport from hst]
      exact Alive.rmCancelClock hacc.freed
    | _ => exact Alive.access hacc.freed
  | recvReport =>
    refine hacc.trans ?_
    have hne : m.access.rm.state ≠ .ended := by
      rw [show m.access.rm.state = .recvReport from hst]
      decide
    cases evid with
    | stateIn => exact Alive.recvReportIn env hacc.freed hne
    | cancel => exact Alive.gotoEnd env hacc.freed hne
    | stateOut =>
      show Alive _ m.access.stateOut
      rw [stateOut, show m.access.rm.state = .recvReport from hst]
      exact Alive.rmCancelClock hacc.freed
    | _ => exact Alive.access hacc.freed
  | ended =>
    have hin : evid = .stateIn := by simpa [RmObj.frees, hst] using hfrees
    subst hin
    exact hacc.trans (Alive.rmPostEvent hacc.freed env _)

theorem rmStateRun_frees (env : Env) {evid : RmEv} {m : Meas} (hf : m.freed = false)
    (hfrees : m.rm.frees evid = true) :
    (m.rmStateRun env evid).freed = true ∧ (m.rmStateRun env evid).fault = m.fault ∧
      (m.rmStateRun env evid).posted = m.posted := by
  simp only [RmObj.frees, Bool.and_eq_true, beq_iff_eq, bne_iff_ne] at hfrees
  have hrun : m.rmStateRun env evid = m.access.rmFreeRmobj := by
    rw [rmStateRun, hfrees.1]
    cases evid with
    | stateIn => exact absurd rfl hfrees.2
    | _ => rfl
  rw [hrun]
  exact ⟨rfl, by simp [rmFreeRmobj, access, hf], rfl⟩

theorem rmStateRun_derails (env : Env) {evid : RmEv} {m : Meas} (hderails : m.rm.derails evid = true) :
    (m.rmStateRun env evid).fault = true ∧ (m.rmStateRun env evid).freed = true := by
  simp only [RmObj.derails, Bool.and_eq_true, beq_iff_eq, Bool.not_eq_true'] at hderails
  obtain ⟨⟨⟨⟨hidle, rfl⟩, hmaster⟩, hact⟩, hrand⟩ := hderails
  have hcopy : Frame (fun _ => true) m.access (m.access.idleCopy env) := Frame.idleCopy env m.access
  have hend : Frame (fun _ => true) (m.access.idleCopy env) ((m.access.idleCopy env).gotoEnd env) :=
    Frame.gotoEnd env rfl _
  have hissue : (m.access.idleCopy env).issueOrEnd env = (m.access.idleCopy env).gotoEnd env := by
    refine if_neg ?_
    rw [hcopy.q]
    exact Bool.eq_false_iff.mp hact
  have hin : ∀ m : Meas, Frame (fun _ => true) m (m.doMeasIn env) := Frame.doMeasIn env rfl rfl
  have hidleIn : m.access.idleIn env = ((m.access.idleCopy env).gotoEnd env).gotoDoMeas env := by
    rw [idleIn, hcopy.rmid, show isMaster m.access.rm.rmid = true from hmaster, if_pos rfl, hissue]
    exact if_neg (by rw [hend.q, hcopy.q]; exact not_not_intro hrand)
  have hrun : m.rmStateRun env .stateIn = m.access.idleIn env := by
    rw [rmStateRun, hidle]
    rfl
  rw [hrun, hidleIn, gotoDoMeas, rmStateGoto, gotoEnd_state, if_neg (by decide)]
  have hfreed : ((m.access.idleCopy env).gotoEnd env).access.stateOut.freed = true := by
    rw [stateOut, show ((m.access.idleCopy env).gotoEnd env).access.rm.state = .ended from
      gotoEnd_state env _]
    rfl
  exact ⟨(hin _).fault ((Bool.or_eq_true _ _).mpr (.inr hfreed)), (hin _).freed hfreed⟩

end Meas

end Rm
