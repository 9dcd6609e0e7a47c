import Rtl8188fu.Rm.Lifetime

namespace Rm

def RmEv.isTimer : RmEv → Bool
  | .busyTimerExpire | .delayTimerExpire | .measTimerExpire | .retryTimerExpire
  | .repeatDelayExpire | .requestTimerExpire => true
  | _ => false

def RmObj.wakes (rm : RmObj) (evid : RmEv) : Bool :=
  match rm.state, evid with
  | .idle, .stateIn => true
  | .doMeas, .startMeas | .doMeas, .measTimerExpire | .doMeas, .busyTimerExpire
  | .doMeas, .retryTimerExpire => true
  | .doMeas, .surveyDone => rm.q.actionCode == rmActRadioMeasReq
  | .waitMeas, .requestTimerExpire => true
  | .sendReport, .repeatDelayExpire => true
  | .ended, .stateOut => true
  | _, _ => false

def RmObj.rank (rm : RmObj) (evid : RmEv) : ℕ :=
  match rm.state, evid with
  | .idle, _ => 32 * (rm.q.rpt.toNat + rm.p.rpt.toNat) + 20
  | .sendReport, _ => 32 * rm.p.rpt.toNat + 20
  | .doMeas, .busyTimerExpire => 32 * rm.p.rpt.toNat + 4 + rm.waitBusy.toNat
  | .doMeas, .retryTimerExpire => 32 * rm.p.rpt.toNat + 4
  | .doMeas, .startMeas => 32 * rm.p.rpt.toNat + 3
  | .doMeas, _ => 32 * rm.p.rpt.toNat + 2
  | .waitMeas, _ | .recvReport, _ => 2
  | .ended, _ => 1

def RmObj.entersDoMeas (rm : RmObj) (evid : RmEv) : Bool :=
  match rm.state, evid with
  | .idle, .stateIn | .idle, .delayTimerExpire | .doMeas, .stateIn
  | .sendReport, .repeatDelayExpire => true
  | _, _ => false

def RmObj.polls (rm : RmObj) (env : Env) (evid : RmEv) : Bool :=
  rm.pollMode || rm.state == .idle && evid == .stateIn && rm.q.chNum == env.curChannel

structure RmObj.Moves (rm : RmObj) (env : Env) (evid : RmEv) : Prop where
  alloc : env.alloc = true
  clockKept : evid = .stateOut → rm.state = .idle ∨ rm.state = .ended
  requestKept : rm.state = .idle → evid = .stateIn → isMaster rm.rmid = true →
    Meas.rmIssueMeasReq rm.q = true → rm.q.randIntvl = 0
  measures : rm.entersDoMeas evid = true → rm.q.actionCode = rmActRadioMeasReq →
    rm.q.isChannel = true → rm.polls env evid = true

namespace Meas

def Pends (m : Meas) (evid : RmEv) : Prop :=
  ⟨m.rm.rmid, evid⟩ ∈ m.posted ∨ evid = .surveyDone ∧ m.rm.rmid ∈ m.surveys ∨
    evid.isTimer = true ∧ m.clock.evid = evid ∧ 0 < m.clock.counter

def Sound (rm : RmObj) : Prop := rm.state = .ended ∨ 0 ≤ rm.waitBusy

structure Awake (bound : ℕ) (m : Meas) : Prop where
  sound : Sound m.rm
  pends : ∃ evid, m.rm.wakes evid = true ∧ m.rm.rank evid < bound ∧ m.Pends evid

variable {env : Env} {m : Meas} {bound : ℕ}

theorem Awake.mono {bound' : ℕ} (h : m.Awake bound) (hle : bound ≤ bound') : m.Awake bound' := by
  obtain ⟨hsound, evid, hwakes, hrank, hpends⟩ := h
  exact ⟨hsound, evid, hwakes, hrank.trans_le hle, hpends⟩

theorem rmPostEvent_eq (halloc : env.alloc = true) (hrmid : m.rm.rmid ≠ 0) (evid : RmEv) :
    m.rmPostEvent env evid = { m.access with posted := m.posted ++ [⟨m.rm.rmid, evid⟩] } := by
  unfold rmPostEvent
  rw [if_neg]
  rintro (h | h)
  · exact hrmid h
  · exact absurd (halloc.symm.trans h) Bool.true_eq_false.mp

theorem awake_post (halloc : env.alloc = true) (hrmid : m.rm.rmid ≠ 0) {evid : RmEv}
    (hsound : Sound m.rm) (hwakes : m.rm.wakes evid = true) (hrank : m.rm.rank evid < bound) :
    (m.rmPostEvent env evid).Awake bound := by
  rw [rmPostEvent_eq halloc hrmid]
  exact ⟨hsound, evid, hwakes, hrank, .inl (List.mem_append_right _ (List.mem_singleton_self _))⟩

theorem awake_clock {ms : ℕ} (hms : 0 < ms / clockUnit) {evid : RmEv} (htimer : evid.isTimer = true)
    (hsound : Sound m.rm) (hwakes : m.rm.wakes evid = true) (hrank : m.rm.rank evid < bound) :
    (m.rmSetClock ms evid).Awake bound :=
  ⟨hsound, evid, hwakes, hrank, .inr (.inr ⟨htimer, rfl, hms⟩)⟩

theorem rmStateGoto_eq {st : RmState} (hst : m.rm.state ≠ st) (hend : m.rm.state ≠ .ended)
    (stateIn : Meas → Meas) :
    ∃ m' : Meas, m'.rm = { m.rm with state := st } ∧ m.rmStateGoto st stateIn = stateIn m' := by
  have hout : m.access.stateOut = m.access.rmCancelClock := by
    unfold stateOut
    split
    · next h => exact absurd h hend
    · rfl
  rw [rmStateGoto, if_neg hst]
  dsimp only
  rw [hout]
  exact ⟨_, rfl, rfl⟩

theorem awake_gotoEnd (halloc : env.alloc = true) (hrmid : m.rm.rmid ≠ 0) (hend : m.rm.state ≠ .ended)
    (hbound : 1 < bound) : (m.gotoEnd env).Awake bound := by
  obtain ⟨m', hrm, heq⟩ := @Meas.rmStateGoto_eq _ .ended hend hend (endIn env)
  have hstate : m'.rm.state = .ended := by rw [hrm]
  rw [gotoEnd, heq]
  refine awake_post halloc ?_ (.inl hstate) ?_ ?_
  · rw [hrm]
    exact hrmid
  · unfold RmObj.wakes
    rw [hstate]
  · unfold RmObj.rank
    rw [hstate]
    exact hbound

theorem toNat_pred {n : UInt16} (hn : n ≠ 0) : (n - 1).toNat + 1 = n.toNat := by
  have hpos : 1 ≤ n.toNat := by
    rw [Nat.one_le_iff_ne_zero]
    exact fun h => hn (UInt16.toNat_inj.mp h)
  have hle : (1 : UInt16) ≤ n := UInt16.le_iff_toNat_le.mpr hpos
  rw [UInt16.toNat_sub_of_le _ _ hle]
  exact Nat.sub_add_cancel hpos

theorem awake_sendReportIn (halloc : env.alloc = true) (hrmid : m.rm.rmid ≠ 0)
    (hstate : m.rm.state = .sendReport) (hbusy : 0 ≤ m.rm.waitBusy)
    (hbound : 32 * m.rm.p.rpt.toNat + 1 < bound) : (m.sendReportIn env).Awake bound := by
  have hgoto : (m.gotoEnd env).Awake bound :=
    awake_gotoEnd halloc hrmid (by rw [hstate]; decide) (by omega)
  unfold sendReportIn
  split
  · split
    · split
      · next hrpt =>
        have hpred := toNat_pred hrpt
        refine awake_clock ?_ rfl (.inr hbusy) ?_ ?_
        · split <;> decide
        · show RmObj.wakes { m.rm with p.rpt := m.rm.p.rpt - 1 } _ = true
          unfold RmObj.wakes
          dsimp only
          rw [hstate]
        · show RmObj.rank { m.rm with p.rpt := m.rm.p.rpt - 1 } _ < bound
          unfold RmObj.rank
          dsimp only
          rw [hstate]
          dsimp only
          omega
      · exact hgoto
    · exact hgoto
  · exact hgoto

theorem awake_gotoSendReport (halloc : env.alloc = true) (hrmid : m.rm.rmid ≠ 0)
    (hst : m.rm.state = .doMeas) (hbusy : 0 ≤ m.rm.waitBusy)
    (hbound : 32 * m.rm.p.rpt.toNat + 1 < bound) : (m.gotoSendReport env).Awake bound := by
  obtain ⟨m', hrm, heq⟩ := @Meas.rmStateGoto_eq m .sendReport (by rw [hst]; decide)
    (by rw [hst]; decide) (sendReportIn env)
  rw [gotoSendReport, heq]
  refine awake_sendReportIn halloc ?_ ?_ ?_ ?_
  · rw [hrm]
    exact hrmid
  · rw [hrm]
  · rw [hrm]
    exact hbusy
  · rw [hrm]
    exact hbound

theorem wakes_doMeas {rm : RmObj} (hstate : rm.state = .doMeas) {evid : RmEv}
    (hevid : evid = .startMeas ∨ evid = .measTimerExpire ∨ evid = .busyTimerExpire ∨
      evid = .retryTimerExpire ∨ evid = .surveyDone ∧ rm.q.actionCode = rmActRadioMeasReq) :
    rm.wakes evid = true := by
  unfold RmObj.wakes
  rw [hstate]
  rcases hevid with rfl | rfl | rfl | rfl | ⟨rfl, hact⟩
  · rfl
  · rfl
  · rfl
  · rfl
  · exact beq_iff_eq.mpr hact

theorem rank_doMeas {rm : RmObj} (hstate : rm.state = .doMeas) (evid : RmEv) :
    rm.rank evid = 32 * rm.p.rpt.toNat + match evid with
      | .busyTimerExpire => 4 + rm.waitBusy.toNat
      | .retryTimerExpire => 4
      | .startMeas => 3
      | _ => 2 := by
  unfold RmObj.rank
  rw [hstate]
  cases evid <;> simp [Nat.add_assoc]

theorem awake_doMeasIn (halloc : env.alloc = true) (hrmid : m.rm.rmid ≠ 0)
    (hstate : m.rm.state = .doMeas) (hbusy : 0 ≤ m.rm.waitBusy)
    (hpoll : m.rm.q.actionCode = rmActRadioMeasReq → m.rm.q.isChannel = true → m.rm.pollMode = true)
    (hbound : 32 * m.rm.p.rpt.toNat + 14 < bound) : (m.doMeasIn env).Awake bound := by
  have hstart : (m.rmPostEvent env .startMeas).Awake bound := by
    refine awake_post halloc hrmid (.inr hbusy) (wakes_doMeas hstate (.inl rfl)) ?_
    rw [rank_doMeas hstate]
    dsimp only
    omega
  unfold doMeasIn
  split
  · next hact =>
    have hdone : (m.rmPostEvent env .surveyDone).Awake bound := by
      refine awake_post halloc hrmid (.inr hbusy)
        (wakes_doMeas hstate (.inr (.inr (.inr (.inr ⟨rfl, hact⟩))))) ?_
      rw [rank_doMeas hstate]
      dsimp only
      omega
    split
    · split
      · exact hdone
      · split
        · exact hstart
        · refine awake_clock (by decide) rfl (.inr ?_)
            (@Meas.wakes_doMeas { m.rm with waitBusy := rmBusyTrafficTimes } hstate _
            (.inr (.inr (.inl rfl)))) ?_
          · show (0 : ℤ) ≤ rmBusyTrafficTimes
            decide
          · have hten : rmBusyTrafficTimes.toNat = 10 := rfl
            show RmObj.rank { m.rm with waitBusy := rmBusyTrafficTimes } _ < bound
            rw [@Meas.rank_doMeas { m.rm with waitBusy := rmBusyTrafficTimes } hstate]
            dsimp only
            omega
    · split
      · next hchannel =>
        rw [if_pos (hpoll hact hchannel)]
        exact hdone
      · exact awake_gotoEnd halloc hrmid (by rw [hstate]; decide) (by omega)
  · split
    · exact awake_gotoSendReport halloc hrmid hstate hbusy (by omega)
    · exact hstart

theorem awake_gotoDoMeas (halloc : env.alloc = true) (hrmid : m.rm.rmid ≠ 0)
    (hst : m.rm.state ≠ .doMeas) (hend : m.rm.state ≠ .ended) (hbusy : 0 ≤ m.rm.waitBusy)
    (hpoll : m.rm.q.actionCode = rmActRadioMeasReq → m.rm.q.isChannel = true → m.rm.pollMode = true)
    (hbound : 32 * m.rm.p.rpt.toNat + 14 < bound) : (m.gotoDoMeas env).Awake bound := by
  obtain ⟨m', hrm, heq⟩ := rmStateGoto_eq hst hend (doMeasIn env)
  rw [gotoDoMeas, heq]
  refine awake_doMeasIn halloc ?_ ?_ ?_ ?_ ?_
  · rw [hrm]
    exact hrmid
  · rw [hrm]
  · rw [hrm]
    exact hbusy
  · rw [hrm]
    exact hpoll
  · rw [hrm]
    exact hbound

theorem awake_waitMeasIn (hstate : m.rm.state = .waitMeas) (hbusy : 0 ≤ m.rm.waitBusy)
    (hbound : 2 < bound) : m.waitMeasIn.Awake bound := by
  refine awake_clock (by decide) rfl (.inr hbusy) ?_ ?_
  · unfold RmObj.wakes
    rw [hstate]
  · unfold RmObj.rank
    rw [hstate]
    exact hbound

theorem awake_gotoWaitMeas (hst : m.rm.state ≠ .waitMeas) (hend : m.rm.state ≠ .ended)
    (hbusy : 0 ≤ m.rm.waitBusy) (hbound : 2 < bound) : m.gotoWaitMeas.Awake bound := by
  obtain ⟨m', hrm, heq⟩ := rmStateGoto_eq hst hend waitMeasIn
  rw [gotoWaitMeas, heq]
  refine awake_waitMeasIn ?_ ?_ hbound
  · rw [hrm]
  · rw [hrm]
    exact hbusy

theorem awake_ended (hstate : m.rm.state = .ended) (hpost : ⟨m.rm.rmid, .stateOut⟩ ∈ m.posted) :
    m.Awake 2 := by
  refine ⟨.inl hstate, .stateOut, ?_, ?_, .inl hpost⟩
  · unfold RmObj.wakes
    rw [hstate]
  · unfold RmObj.rank
    rw [hstate]
    exact Nat.one_lt_two

theorem gotoEnd_posts (halloc : env.alloc = true) (hrmid : m.rm.rmid ≠ 0)
    (hend : m.rm.state ≠ .ended) :
    ⟨(m.gotoEnd env).rm.rmid, .stateOut⟩ ∈ (m.gotoEnd env).posted := by
  obtain ⟨m', hrm, heq⟩ := @Meas.rmStateGoto_eq _ .ended hend hend (endIn env)
  have hrmid' : m'.rm.rmid ≠ 0 := by
    rw [hrm]
    exact hrmid
  rw [gotoEnd, heq, endIn, rmPostEvent_eq halloc hrmid']
  exact List.mem_append_right _ (List.mem_singleton_self _)

structure Outcome (env : Env) (evid : RmEv) (m m' : Meas) : Prop where
  cases : m'.freed = true ∨
    (∃ bound, m'.Awake bound ∧
      (m.rm.wakes evid = true → env.reportCond = true → bound ≤ m.rm.rank evid)) ∨
    m.rm.wakes evid = false ∧ m'.rm = m.rm ∧ (m'.clock = m.clock ∨ m.rm.state = .idle)

namespace Outcome

variable {evid : RmEv} {m' : Meas}

theorem wakes (h : m'.Awake (m.rm.rank evid)) : Outcome env evid m m' :=
  ⟨.inr (.inl ⟨_, h, fun _ _ => le_rfl⟩)⟩

theorem acts (hwakes : m.rm.wakes evid = false) (h : m'.Awake bound) : Outcome env evid m m' :=
  ⟨.inr (.inl ⟨bound, h, fun hw => absurd (hwakes.symm.trans hw) Bool.false_ne_true⟩)⟩

theorem waits (hcond : env.reportCond = false) (h : m'.Awake bound) : Outcome env evid m m' :=
  ⟨.inr (.inl ⟨bound, h, fun _ hc => absurd (hcond.symm.trans hc) Bool.false_ne_true⟩)⟩

theorem same (hwakes : m.rm.wakes evid = false) (hrm : m'.rm = m.rm)
    (hclock : m'.clock = m.clock ∨ m.rm.state = .idle) : Outcome env evid m m' :=
  ⟨.inr (.inr ⟨hwakes, hrm, hclock⟩)⟩

theorem of_access (h : Outcome env evid m.access m') : Outcome env evid m m' := ⟨h.cases⟩

theorem frees (h : m'.freed = true) : Outcome env evid m m' := ⟨.inl h⟩

end Outcome

structure CopySpec (env : Env) (m m' : Meas) : Prop where
  state : m'.rm.state = m.rm.state
  waitBusy : m'.rm.waitBusy = m.rm.waitBusy
  rpt : m'.rm.p.rpt.toNat ≤ m.rm.q.rpt.toNat + m.rm.p.rpt.toNat
  polls : m.rm.q.actionCode = rmActRadioMeasReq → m.rm.q.isChannel = true →
    (m.rm.pollMode || m.rm.q.chNum == env.curChannel) = true → m'.rm.pollMode = true

theorem idleCopy_spec (env : Env) (m : Meas) : CopySpec env m (m.idleCopy env) := by
  unfold idleCopy
  split
  · refine ⟨rfl, rfl, Nat.le_add_right _ _, fun _ hchannel hpoll => ?_⟩
    show (m.rm.pollMode || m.rm.q.isChannel && m.rm.q.chNum == env.curChannel) = true
    rw [hchannel, Bool.true_and]
    exact hpoll
  · next hact =>
    split
    · exact ⟨rfl, rfl, Nat.le_add_left _ _, fun h => absurd h hact⟩
    · split
      · exact ⟨rfl, rfl, Nat.le_add_left _ _, fun h => absurd h hact⟩
      · exact ⟨rfl, rfl, Nat.le_add_left _ _, fun h => absurd h hact⟩

theorem idleIn_outcome (hrmid : m.rm.rmid ≠ 0) (hstate : m.rm.state = .idle)
    (hbusy : 0 ≤ m.rm.waitBusy) (hmoves : m.rm.Moves env .stateIn)
    (hderails : m.rm.derails .stateIn = false) : (m.idleIn env).Awake (m.rm.rank .stateIn) := by
  have hcopy : Frame (fun _ => true) m (m.idleCopy env) := Frame.idleCopy env m
  obtain ⟨hst, hwait, hrpt, hpolls⟩ := idleCopy_spec env m
  have hrank : m.rm.rank .stateIn = 32 * (m.rm.q.rpt.toNat + m.rm.p.rpt.toNat) + 20 := by
    unfold RmObj.rank
    rw [hstate]
  have hpoll : m.rm.q.actionCode = rmActRadioMeasReq → m.rm.q.isChannel = true →
      (m.idleCopy env).rm.pollMode = true := fun hact hchannel => by
    refine hpolls hact hchannel ?_
    have hentry := hmoves.measures (by unfold RmObj.entersDoMeas; rw [hstate]) hact hchannel
    simpa [RmObj.polls, hstate] using hentry
  have hrmid' : (m.idleCopy env).rm.rmid ≠ 0 := by
    rw [hcopy.rmid]
    exact hrmid
  have hidle : (m.idleCopy env).rm.state = .idle := hst.trans hstate
  have hne : ∀ st, st ≠ RmState.idle → (m.idleCopy env).rm.state ≠ st := fun st h => by
    rw [hidle]
    exact h.symm
  rw [idleIn]
  cases hmaster : isMaster (m.idleCopy env).rm.rmid with
  | false =>
    rw [if_neg Bool.false_ne_true]
    exact awake_gotoDoMeas hmoves.alloc hrmid' (hne _ (by decide)) (hne _ (by decide)) (hwait ▸ hbusy)
      (by rw [hcopy.q]; exact hpoll) (by omega)
  | true =>
    rw [if_pos rfl]
    rw [hcopy.rmid] at hmaster
    dsimp only
    have hissue : Frame (fun _ => true) (m.idleCopy env) ((m.idleCopy env).issueOrEnd env) :=
      Frame.issueOrEnd env rfl rfl _
    cases hact : rmIssueMeasReq m.rm.q with
    | true =>
      have hrand := hmoves.requestKept hstate rfl hmaster hact
      have hgoto : (m.idleCopy env).issueOrEnd env = (m.idleCopy env).gotoWaitMeas := by
        refine if_pos ?_
        rw [hcopy.q]
        exact hact
      obtain ⟨m', hrm, heq⟩ := @Meas.rmStateGoto_eq (m.idleCopy env) .waitMeas (hne _ (by decide))
        (hne _ (by decide)) waitMeasIn
      have hrm' : ((m.idleCopy env).issueOrEnd env).rm =
          { (m.idleCopy env).rm with state := .waitMeas } := by
        rw [hgoto, gotoWaitMeas, heq]
        exact hrm
      rw [if_neg (by rw [hissue.q, hcopy.q]; exact not_not_intro hrand)]
      refine awake_gotoDoMeas hmoves.alloc ?_ ?_ ?_ ?_ ?_ ?_
      · rw [hrm']
        exact hrmid'
      · rw [hrm']
        exact RmState.noConfusion
      · rw [hrm']
        exact RmState.noConfusion
      · rw [hrm']
        exact hwait ▸ hbusy
      · rw [hrm']
        show (m.idleCopy env).rm.q.actionCode = _ → (m.idleCopy env).rm.q.isChannel = true → _
        rw [hcopy.q]
        exact hpoll
      · rw [hrm']
        dsimp only
        omega
    | false =>
      have hgoto : (m.idleCopy env).issueOrEnd env = (m.idleCopy env).gotoEnd env := by
        refine if_neg ?_
        rw [hcopy.q, hact]
        exact Bool.false_ne_true
      have hrand : m.rm.q.randIntvl ≠ 0 := by
        simpa [RmObj.derails, hstate, hmaster, hact] using hderails
      rw [if_pos (by rw [hissue.q, hcopy.q]; exact hrand), hgoto]
      have hposts := gotoEnd_posts hmoves.alloc hrmid' (hne _ (by decide))
      exact (awake_ended (m := ((m.idleCopy env).gotoEnd env).rmSetClock _ _)
        (gotoEnd_state env _) hposts).mono (by omega)

theorem awake_refuse (halloc : env.alloc = true) (hrmid : m.rm.rmid ≠ 0) (hend : m.rm.state ≠ .ended)
    (hbound : 1 < bound) : ((m.rmSetRepMode measRepModRefuse).gotoEnd env).Awake bound :=
  awake_gotoEnd (m := m.rmSetRepMode measRepModRefuse) halloc hrmid hend hbound

variable {evid : RmEv}

theorem doMeasStart_awake (halloc : env.alloc = true) (hrmid : m.rm.rmid ≠ 0)
    (hstate : m.rm.state = .doMeas) (hbusy : 0 ≤ m.rm.waitBusy) :
    (m.doMeasStart env).Awake (m.rm.rank .startMeas) := by
  have hrank : m.rm.rank .startMeas = 32 * m.rm.p.rpt.toNat + 3 := rank_doMeas hstate _
  have hclock : ∀ m' : Meas, m'.rm = m.rm →
      (m'.rmSetClock rmMeasTimeout .measTimerExpire).Awake (m.rm.rank .startMeas) := by
    intro m' hrm
    refine awake_clock (by decide) rfl (.inr (hrm ▸ hbusy))
      (wakes_doMeas (hrm ▸ hstate) (.inr (.inl rfl))) ?_
    rw [hrm, hrank, rank_doMeas hstate]
    exact Nat.lt_succ_self _
  unfold doMeasStart
  split
  · split
    · exact hclock m.rmSitesurvey rfl
    · exact awake_gotoEnd halloc hrmid (by rw [hstate]; decide) (by omega)
  · exact hclock m rfl

theorem doMeasSurveyDone_outcome (halloc : env.alloc = true) (hrmid : m.rm.rmid ≠ 0)
    (hstate : m.rm.state = .doMeas) (hbusy : 0 ≤ m.rm.waitBusy) :
    Outcome env .surveyDone m (m.doMeasSurveyDone env) := by
  have hrank : m.rm.rank .surveyDone = 32 * m.rm.p.rpt.toNat + 2 := rank_doMeas hstate _
  unfold doMeasSurveyDone
  split
  · split
    · exact .wakes (awake_gotoSendReport (m := m.rmCancelClock) halloc hrmid hstate hbusy
        (by rw [hrank]; exact Nat.lt_succ_self _))
    · split
      · split
        · exact .wakes (awake_gotoSendReport halloc hrmid hstate hbusy
            (by rw [hrank]; exact Nat.lt_succ_self _))
        · next hcond =>
          refine @Outcome.waits _ _ (32 * m.rm.p.rpt.toNat + 5) _ _ (Bool.not_eq_true _ ▸ hcond) ?_
          refine awake_clock (by decide) rfl (.inr hbusy)
            (wakes_doMeas hstate (.inr (.inr (.inr (.inl rfl))))) ?_
          rw [rank_doMeas hstate]
          exact Nat.lt_succ_self _
      · exact .wakes (awake_gotoEnd halloc hrmid (by rw [hstate]; decide) (by omega))
  · next hact =>
    refine .same ?_ rfl (.inl rfl)
    unfold RmObj.wakes
    rw [hstate]
    exact beq_eq_false_iff_ne.mpr hact

theorem doMeasBusy_awake (halloc : env.alloc = true) (hrmid : m.rm.rmid ≠ 0)
    (hstate : m.rm.state = .doMeas) (hbusy : 0 ≤ m.rm.waitBusy) :
    (m.doMeasBusy env).Awake (m.rm.rank .busyTimerExpire) := by
  have hrank : m.rm.rank .busyTimerExpire = 32 * m.rm.p.rpt.toNat + (4 + m.rm.waitBusy.toNat) :=
    rank_doMeas hstate _
  have hne : m.rm.state ≠ .ended := by
    rw [hstate]
    decide
  unfold doMeasBusy
  split
  · split
    · exact awake_refuse halloc hrmid hne (by omega)
    · refine awake_post halloc hrmid (.inr hbusy) (wakes_doMeas hstate (.inl rfl)) ?_
      rw [rank_doMeas hstate]
      dsimp only
      omega
  · dsimp only
    split
    · next hleft =>
      refine awake_clock (by decide) rfl (.inr ?_)
        (@Meas.wakes_doMeas { m.rm with waitBusy := m.rm.waitBusy - 1 } hstate _
        (.inr (.inr (.inl rfl)))) ?_
      · show 0 ≤ m.rm.waitBusy - 1
        omega
      · show RmObj.rank { m.rm with waitBusy := m.rm.waitBusy - 1 } _ < _
        rw [@Meas.rank_doMeas { m.rm with waitBusy := m.rm.waitBusy - 1 } hstate, hrank]
        dsimp only
        omega
    · next hleft =>
      have hneg : m.rm.waitBusy - 1 ≤ 0 := by omega
      rw [if_pos (show (m.setWaitBusy (m.rm.waitBusy - 1)).rm.waitBusy ≤ 0 from hneg)]
      exact awake_refuse (m := m.setWaitBusy (m.rm.waitBusy - 1)) halloc hrmid hne (by omega)

theorem rmStateDoMeas_outcome (hrmid : m.rm.rmid ≠ 0) (hstate : m.rm.state = .doMeas)
    (hbusy : 0 ≤ m.rm.waitBusy) (hmoves : m.rm.Moves env evid) :
    Outcome env evid m (m.rmStateDoMeas env evid) := by
  have halloc := hmoves.alloc
  have hne : m.rm.state ≠ .ended := by
    rw [hstate]
    decide
  have hidle : ∀ {evid : RmEv}, (∀ rm : RmObj, rm.state = .doMeas → rm.wakes evid = false) →
      m.rm.wakes evid = false := fun h => h m.rm hstate
  cases evid with
  | stateIn =>
    refine .acts (hidle fun rm h => by unfold RmObj.wakes; rw [h]) (awake_doMeasIn halloc hrmid hstate
      hbusy (fun hact hchannel => ?_) (Nat.lt_succ_self _))
    have hentry := hmoves.measures (by unfold RmObj.entersDoMeas; rw [hstate]) hact hchannel
    simpa [RmObj.polls, hstate] using hentry
  | startMeas => exact .wakes (doMeasStart_awake halloc hrmid hstate hbusy)
  | surveyDone => exact doMeasSurveyDone_outcome halloc hrmid hstate hbusy
  | measTimerExpire =>
    refine .wakes (awake_refuse halloc hrmid hne ?_)
    rw [rank_doMeas hstate]
    exact Nat.le_add_left _ _
  | requestTimerExpire | cancel =>
    exact .acts (hidle fun rm h => by unfold RmObj.wakes; rw [h])
      (awake_refuse halloc hrmid hne Nat.one_lt_two)
  | busyTimerExpire => exact .wakes (doMeasBusy_awake halloc hrmid hstate hbusy)
  | retryTimerExpire =>
    refine .wakes (awake_post halloc hrmid (.inr hbusy) (wakes_doMeas hstate (.inl rfl)) ?_)
    rw [rank_doMeas hstate, rank_doMeas hstate]
    exact Nat.lt_succ_self _
  | stateOut =>
    rcases hmoves.clockKept rfl with h | h
    · exact absurd (hstate.symm.trans h) (by decide)
    · exact absurd h hne
  | delayTimerExpire | repeatDelayExpire | waitReport | recvRep | max =>
    exact .same (hidle fun rm h => by unfold RmObj.wakes; rw [h]) rfl (.inl rfl)

theorem rmStateWaitMeas_outcome (hrmid : m.rm.rmid ≠ 0) (hstate : m.rm.state = .waitMeas)
    (hbusy : 0 ≤ m.rm.waitBusy) (hmoves : m.rm.Moves env evid) :
    Outcome env evid m (m.rmStateWaitMeas env evid) := by
  have halloc := hmoves.alloc
  have hne : m.rm.state ≠ .ended := by
    rw [hstate]
    decide
  have hidle : ∀ {evid : RmEv}, (∀ rm : RmObj, rm.state = .waitMeas → rm.wakes evid = false) →
      m.rm.wakes evid = false := fun h => h m.rm hstate
  cases evid with
  | stateIn =>
    exact .acts (hidle fun rm h => by unfold RmObj.wakes; rw [h])
      (awake_waitMeasIn hstate hbusy (Nat.lt_succ_self _))
  | recvRep =>
    refine @Outcome.acts _ _ 3 _ _ (hidle fun rm h => by unfold RmObj.wakes; rw [h]) ?_
    obtain ⟨m', hrm, heq⟩ := @Meas.rmStateGoto_eq _ .recvReport (by rw [hstate]; decide) hne
      (recvReportIn env)
    have hrmid' : m'.rm.rmid ≠ 0 := by
      rw [hrm]
      exact hrmid
    have hstate' : m'.rm.state = .recvReport := by rw [hrm]
    have hend : (m'.gotoEnd env).Awake 3 :=
      awake_gotoEnd halloc hrmid' (by rw [hstate']; decide) (by decide)
    show (m.gotoRecvReport env).Awake 3
    rw [gotoRecvReport, heq]
    unfold recvReportIn
    split
    · split
      · exact hend
      · split
        · refine awake_gotoWaitMeas (m := m'.countRpt) ?_ ?_ ?_ (by decide)
          · rw [show m'.countRpt.rm.state = m'.rm.state from rfl, hstate']
            decide
          · rw [show m'.countRpt.rm.state = m'.rm.state from rfl, hstate']
            decide
          · rw [show m'.countRpt.rm.waitBusy = m'.rm.waitBusy from rfl, hrm]
            exact hbusy
        · exact hend
    · exact hend
  | requestTimerExpire =>
    refine .wakes (awake_gotoEnd halloc hrmid hne ?_)
    unfold RmObj.rank
    rw [hstate]
    exact Nat.one_lt_two
  | cancel =>
    exact .acts (hidle fun rm h => by unfold RmObj.wakes; rw [h])
      (awake_gotoEnd halloc hrmid hne Nat.one_lt_two)
  | stateOut =>
    rcases hmoves.clockKept rfl with h | h
    · exact absurd (hstate.symm.trans h) (by decide)
    · exact absurd h hne
  | busyTimerExpire | delayTimerExpire | measTimerExpire | retryTimerExpire | repeatDelayExpire
  | waitReport | startMeas | surveyDone | max =>
    exact .same (hidle fun rm h => by unfold RmObj.wakes; rw [h]) rfl (.inl rfl)

theorem rmStateSendReport_outcome (hrmid : m.rm.rmid ≠ 0) (hstate : m.rm.state = .sendReport)
    (hbusy : 0 ≤ m.rm.waitBusy) (hmoves : m.rm.Moves env evid) :
    Outcome env evid m (m.rmStateSendReport env evid) := by
  have halloc := hmoves.alloc
  have hne : m.rm.state ≠ .ended := by
    rw [hstate]
    decide
  have hidle : ∀ {evid : RmEv}, (∀ rm : RmObj, rm.state = .sendReport → rm.wakes evid = false) →
      m.rm.wakes evid = false := fun h => h m.rm hstate
  cases evid with
  | stateIn =>
    exact .acts (hidle fun rm h => by unfold RmObj.wakes; rw [h])
      (awake_sendReportIn halloc hrmid hstate hbusy (Nat.lt_succ_self _))
  | repeatDelayExpire =>
    refine .wakes (awake_gotoDoMeas halloc hrmid (by rw [hstate]; decide) hne hbusy
      (fun hact hchannel => ?_) ?_)
    · have hentry := hmoves.measures (by unfold RmObj.entersDoMeas; rw [hstate]) hact hchannel
      simpa [RmObj.polls, hstate] using hentry
    · unfold RmObj.rank
      rw [hstate]
      dsimp only
      omega
  | cancel =>
    exact .acts (hidle fun rm h => by unfold RmObj.wakes; rw [h])
      (awake_gotoEnd halloc hrmid hne Nat.one_lt_two)
  | stateOut =>
    rcases hmoves.clockKept rfl with h | h
    · exact absurd (hstate.symm.trans h) (by decide)
    · exact absurd h hne
  | busyTimerExpire | delayTimerExpire | measTimerExpire | retryTimerExpire | requestTimerExpire
  | waitReport | startMeas | surveyDone | recvRep | max =>
    exact .same (hidle fun rm h => by unfold RmObj.wakes; rw [h]) rfl (.inl rfl)

theorem rmStateIdle_outcome (hrmid : m.rm.rmid ≠ 0) (hstate : m.rm.state = .idle)
    (hbusy : 0 ≤ m.rm.waitBusy) (hmoves : m.rm.Moves env evid)
    (hderails : m.rm.derails evid = false) : Outcome env evid m (m.rmStateIdle env evid) := by
  have halloc := hmoves.alloc
  have hne : m.rm.state ≠ .ended := by
    rw [hstate]
    decide
  have hidle : ∀ {evid : RmEv}, (∀ rm : RmObj, rm.state = .idle → rm.wakes evid = false) →
      m.rm.wakes evid = false := fun h => h m.rm hstate
  cases evid with
  | stateIn => exact .wakes (idleIn_outcome hrmid hstate hbusy hmoves hderails)
  | delayTimerExpire =>
    refine .acts (hidle fun rm h => by unfold RmObj.wakes; rw [h]) (awake_gotoDoMeas halloc hrmid
      (by rw [hstate]; decide) hne hbusy (fun hact hchannel => ?_) (Nat.lt_succ_self _))
    have hentry := hmoves.measures (by unfold RmObj.entersDoMeas; rw [hstate]) hact hchannel
    simpa [RmObj.polls, hstate] using hentry
  | cancel =>
    exact .acts (hidle fun rm h => by unfold RmObj.wakes; rw [h])
      (awake_gotoEnd halloc hrmid hne Nat.one_lt_two)
  | stateOut =>
    refine .same (hidle fun rm h => by unfold RmObj.wakes; rw [h]) ?_ (.inr hstate)
    show m.stateOut.rm = m.rm
    rw [stateOut, hstate]
    rfl
  | busyTimerExpire | measTimerExpire | retryTimerExpire | requestTimerExpire | repeatDelayExpire
  | waitReport | startMeas | surveyDone | recvRep | max =>
    exact .same (hidle fun rm h => by unfold RmObj.wakes; rw [h]) rfl (.inl rfl)

theorem rmStateRun_outcome (hrmid : m.rm.rmid ≠ 0) (hstate : m.rm.state ≠ .recvReport)
    (hsound : Sound m.rm) (hmoves : m.rm.Moves env evid) :
    Outcome env evid m (m.rmStateRun env evid) := by
  have hbusy : m.rm.state ≠ .ended → 0 ≤ m.rm.waitBusy := fun h => hsound.resolve_left h
  cases hst : m.rm.state with
  | idle =>
    cases hderails : m.rm.derails evid with
    | true => exact .frees (rmStateRun_derails env hderails).2
    | false =>
      rw [rmStateRun, hst]
      exact .of_access (rmStateIdle_outcome (m := m.access) hrmid hst (hbusy (by rw [hst]; decide))
        hmoves hderails)
  | doMeas =>
    rw [rmStateRun, hst]
    exact .of_access (rmStateDoMeas_outcome (m := m.access) hrmid hst (hbusy (by rw [hst]; decide))
      hmoves)
  | waitMeas =>
    rw [rmStateRun, hst]
    exact .of_access (rmStateWaitMeas_outcome (m := m.access) hrmid hst (hbusy (by rw [hst]; decide))
      hmoves)
  | sendReport =>
    rw [rmStateRun, hst]
    exact .of_access (rmStateSendReport_outcome (m := m.access) hrmid hst (hbusy (by rw [hst]; decide))
      hmoves)
  | recvReport => exact absurd hst hstate
  | ended =>
    rw [rmStateRun, hst]
    cases Decidable.em (evid = .stateIn) with
    | inl hin =>
      subst hin
      refine @Outcome.acts _ _ 2 _ _ (by unfold RmObj.wakes; rw [hst]) ?_
      show (m.access.rmPostEvent env .stateOut).Awake 2
      rw [rmPostEvent_eq (m := m.access) hmoves.alloc hrmid]
      exact awake_ended hst (List.mem_append_right _ (List.mem_singleton_self _))
    | inr hin =>
      refine .frees ?_
      cases evid with
      | stateIn => exact absurd rfl hin
      | _ => rfl

end Meas

end Rm
