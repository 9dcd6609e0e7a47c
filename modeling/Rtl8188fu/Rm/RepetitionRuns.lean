import Rtl8188fu.Rm.Repetition

namespace Rm

def mains (evs : List RmEvent) : List RmEv :=
  (evs.map RmEvent.evid).filter fun evid => evid ≠ .measTimerExpire

def RmClock.mains (c : RmClock) : List RmEv :=
  if 0 < c.counter ∧ c.evid ≠ .measTimerExpire then [c.evid] else []

def RmObj.owed (rm : RmObj) : ℕ :=
  match rm.state with
  | .idle => rm.q.rpt.toNat + 1
  | .ended => 0
  | _ => rm.p.rpt.toNat + 1

def RmObj.unmet (rm : RmObj) (air : Air) (evid : RmEv) : Bool :=
  decide (rm.state = .doMeas ∧ evid = .surveyDone) && !rm.reported air

def RmObj.firstToken (rm : RmObj) (air : Air) : RmEv :=
  if rm.skipsScan then .surveyDone else if air.readyForScan then .startMeas else .busyTimerExpire

namespace Slave

def tokens (s : Slave) : List RmEv :=
  mains s.meas.posted ++ mains s.cmds ++ s.meas.surveys.map (fun _ => .surveyDone) ++
    s.meas.clock.mains

structure Alive (r : SlaveRequest) (s : Slave) : Prop where
  serving : r.Serving s.meas
  fault : s.meas.fault = false
  busy : 0 ≤ s.meas.rm.waitBusy
  counted : s.reports + s.meas.rm.owed = r.new.q.rpt.toNat + 1
  refusals : s.refusals = 0
  token : ∃ evid, s.meas.rm.state.awaits evid = true ∧ s.tokens = [evid]

structure Gone (r : SlaveRequest) (s : Slave) : Prop where
  freed : s.meas.freed = true
  fault : s.meas.fault = false
  reports : s.reports = r.new.q.rpt.toNat + 1
  refusals : s.refusals = 0
  clock : s.meas.clock.counter = 0

def Inv (r : SlaveRequest) (s : Slave) : Prop := s.Alive r ∨ s.Gone r

def acts (s : Slave) : SlaveEv → ℕ
  | .handle _ => min 1 s.meas.posted.length
  | .command _ => min 1 s.cmds.length
  | .tick _ => min 1 s.meas.clock.counter
  | .surveyDone _ => min 1 s.meas.surveys.length

def unmet (s : Slave) : SlaveEv → ℕ
  | .handle air =>
    (s.meas.posted.head?.any fun ev => !s.meas.freed && s.meas.rm.unmet air ev.evid).toNat
  | _ => 0

def weight : RmEv → ℕ
  | .surveyDone => 8
  | .startMeas => 1020
  | .busyTimerExpire | .retryTimerExpire => 1030
  | .repeatDelayExpire => 3200
  | _ => 2

def stage (rm : RmObj) : ℕ :=
  match rm.state with
  | .idle => 3800 * (rm.q.rpt.toNat + 1) + 200 * rm.waitBusy.toNat
  | .ended => 0
  | _ => 3800 * rm.p.rpt.toNat + 200 * rm.waitBusy.toNat

def evsWeight : List RmEvent → ℕ
  | [] => 0
  | ev :: evs => weight ev.evid + evsWeight evs

def clockWeight (c : RmClock) : ℕ := if c.counter = 0 then 0 else c.counter + weight c.evid + 2

def queued (s : Slave) : ℕ :=
  evsWeight s.meas.posted + (evsWeight s.cmds + s.cmds.length) + 10 * s.meas.surveys.length

def potential (s : Slave) : ℕ :=
  (if s.meas.freed then 0 else stage s.meas.rm) + s.queued + clockWeight s.meas.clock

section Tokens

variable {s : Slave}

theorem mains_append (xs ys : List RmEvent) : mains (xs ++ ys) = mains xs ++ mains ys := by
  rw [mains, List.map_append, List.filter_append]
  rfl

theorem mains_cons_main {ev : RmEvent} (h : ev.evid ≠ .measTimerExpire) (evs : List RmEvent) :
    mains (ev :: evs) = ev.evid :: mains evs :=
  List.filter_cons_of_pos (decide_eq_true h)

theorem mains_cons_timer {ev : RmEvent} (h : ev.evid = .measTimerExpire) (evs : List RmEvent) :
    mains (ev :: evs) = mains evs :=
  List.filter_cons_of_neg fun hne => of_decide_eq_true hne h

structure Blank (s : Slave) : Prop where
  posted : mains s.meas.posted = []
  cmds : mains s.cmds = []
  surveys : s.meas.surveys = []
  clock : s.meas.clock.mains = []

theorem blank_of_tokens (h : s.tokens = []) : s.Blank := by
  obtain ⟨h, hclock⟩ := List.append_eq_nil_iff.mp h
  obtain ⟨h, hsurveys⟩ := List.append_eq_nil_iff.mp h
  obtain ⟨hposted, hcmds⟩ := List.append_eq_nil_iff.mp h
  exact ⟨hposted, hcmds, List.map_eq_nil_iff.mp hsurveys, hclock⟩

theorem Blank.tokens {t : Slave} {posts : List RmEvent} {surveys : List UInt32}
    (h : s.Blank) (hposted : t.meas.posted = s.meas.posted ++ posts) (hcmds : t.cmds = s.cmds)
    (hsurveys : t.meas.surveys = s.meas.surveys ++ surveys) :
    t.tokens = mains posts ++ surveys.map (fun _ => .surveyDone) ++ t.meas.clock.mains := by
  rw [Slave.tokens, hposted, hcmds, hsurveys, mains_append, h.posted, h.cmds, h.surveys,
    List.nil_append, List.nil_append, List.append_nil]

theorem clock_armed {ms : ℕ} (hms : 0 < ms / clockUnit) {evid : RmEv}
    (hevid : evid ≠ .measTimerExpire) (prm : Option ℕ) :
    (⟨prm, ms / clockUnit, evid⟩ : RmClock).mains = [evid] :=
  if_pos ⟨hms, hevid⟩

theorem clock_off (prm : Option ℕ) (evid : RmEv) : (⟨prm, 0, evid⟩ : RmClock).mains = [] :=
  if_neg fun h => absurd h.1 (Nat.lt_irrefl 0)

end Tokens

section Next

variable {r : SlaveRequest} {s : Slave} {air : Air}

def handled (air : Air) (evid : RmEv) (s : Slave) : Slave :=
  { s with sender := s.sender.next air evid }

structure Onward (s t : Slave) (posts : List RmEvent) (scans : List UInt32) (evid : RmEv) :
    Prop where
  alive : t.meas.freed = s.meas.freed
  rmid : t.meas.rm.rmid = s.meas.rm.rmid
  q : t.meas.rm.q = s.meas.rm.q
  polls : t.meas.rm.state ≠ .idle → t.meas.rm.q.mType ≠ bcnReq → t.meas.rm.pollMode = true
  fault : t.meas.fault = s.meas.fault
  busy : 0 ≤ t.meas.rm.waitBusy
  counted : t.reports + t.meas.rm.owed = s.reports + s.meas.rm.owed
  refusals : t.refusals = s.refusals
  posted : t.meas.posted = s.meas.posted ++ posts
  cmds : t.cmds = s.cmds
  surveys : t.meas.surveys = s.meas.surveys ++ scans
  awaits : t.meas.rm.state.awaits evid = true
  token : mains posts ++ scans.map (fun _ => RmEv.surveyDone) ++ t.meas.clock.mains = [evid]

structure Ready (r : SlaveRequest) (s : Slave) : Prop where
  serving : r.Serving s.meas
  fault : s.meas.fault = false
  busy : 0 ≤ s.meas.rm.waitBusy
  counted : s.reports + s.meas.rm.owed = r.new.q.rpt.toNat + 1
  refusals : s.refusals = 0
  blank : s.Blank

theorem Ready.alive {t : Slave} {posts : List RmEvent} {scans : List UInt32} {evid : RmEv}
    (h : s.Ready r) (ht : Onward s t posts scans evid) : t.Alive r where
  serving := ⟨ht.alive.trans h.serving.alive, ht.rmid.trans h.serving.rmid,
    ht.q.trans h.serving.q, ht.polls⟩
  fault := ht.fault.trans h.fault
  busy := ht.busy
  counted := ht.counted.trans h.counted
  refusals := ht.refusals.trans h.refusals
  token := ⟨evid, ht.awaits, (h.blank.tokens ht.posted ht.cmds ht.surveys).trans ht.token⟩

theorem measure_cases (air : Air) (s : Slave) :
    s.meas.rm.firstToken air = .surveyDone ∧
        s.on (Meas.measure air) = s.on (fun m => (m.enter .doMeas).put .surveyDone) ∨
      s.meas.rm.firstToken air = .startMeas ∧
        s.on (Meas.measure air) = s.on (fun m => (m.enter .doMeas).put .startMeas) ∨
      s.meas.rm.firstToken air = .busyTimerExpire ∧
        s.on (Meas.measure air) = s.on fun m =>
          ({ m.enter .doMeas with rm.waitBusy := rmBusyTrafficTimes } : Meas).arm
            rmWaitBusyTimeout .busyTimerExpire := by
  have hon : s.on (Meas.measure air) = s.on fun _ => s.meas.measure air := rfl
  rw [hon, Meas.measure, RmObj.firstToken]
  split
  · exact .inl ⟨rfl, rfl⟩
  · split
    · exact .inr (.inl ⟨rfl, rfl⟩)
    · exact .inr (.inr ⟨rfl, rfl⟩)

def charge (t : Slave) (posts : List RmEvent) (scans : List UInt32) : ℕ :=
  stage t.meas.rm + clockWeight t.meas.clock + evsWeight posts + 10 * scans.length

def Goes (s t : Slave) (evid : RmEv) (budget : ℕ) : Prop :=
  ∃ posts scans, Onward s t posts scans evid ∧ t.charge posts scans ≤ budget

theorem Ready.tokens {t : Slave} {evid : RmEv} {budget : ℕ} (h : s.Ready r)
    (ht : Goes s t evid budget) : t.tokens = [evid] := by
  obtain ⟨posts, scans, honward, -⟩ := ht
  exact (h.blank.tokens honward.posted honward.cmds honward.surveys).trans honward.token

theorem Ready.measure (h : s.Ready r) (air : Air)
    (hpolls : s.meas.rm.q.mType ≠ bcnReq → s.meas.rm.pollMode = true)
    (howed : s.meas.rm.owed = s.meas.rm.p.rpt.toNat + 1) :
    Goes s (s.on (Meas.measure air)) (s.meas.rm.firstToken air)
      (3800 * s.meas.rm.p.rpt.toNat + 200 * s.meas.rm.waitBusy.toNat + 3132) := by
  have hcounted : s.reports + (s.meas.rm.p.rpt.toNat + 1) = s.reports + s.meas.rm.owed := by
    rw [howed]
  have hten : 0 ≤ rmBusyTrafficTimes := by decide
  obtain ⟨hfirst, ht⟩ | ⟨hfirst, ht⟩ | ⟨hfirst, ht⟩ := measure_cases air s
  · rw [ht, hfirst]
    refine ⟨[⟨s.meas.rm.rmid, .surveyDone⟩], [], ⟨rfl, rfl, rfl, fun _ => hpolls, rfl,
      h.busy, hcounted, rfl, rfl, rfl, (List.append_nil _).symm, rfl, rfl⟩, ?_⟩
    show 3800 * s.meas.rm.p.rpt.toNat + 200 * s.meas.rm.waitBusy.toNat + 0 + 8 + 0 ≤ _
    omega
  · rw [ht, hfirst]
    refine ⟨[⟨s.meas.rm.rmid, .startMeas⟩], [], ⟨rfl, rfl, rfl, fun _ => hpolls, rfl,
      h.busy, hcounted, rfl, rfl, rfl, (List.append_nil _).symm, rfl, rfl⟩, ?_⟩
    show 3800 * s.meas.rm.p.rpt.toNat + 200 * s.meas.rm.waitBusy.toNat + 0 + 1020 + 0 ≤ _
    omega
  · rw [ht, hfirst]
    refine ⟨[], [], ⟨rfl, rfl, rfl, fun _ => hpolls, rfl, hten, hcounted, rfl,
      (List.append_nil _).symm, rfl, (List.append_nil _).symm, rfl, rfl⟩, ?_⟩
    show 3800 * s.meas.rm.p.rpt.toNat + 2000 + 1132 + 0 + 0 ≤ _
    omega

theorem Ready.stays (h : s.Ready r) (t : Slave) (hstate : s.meas.rm.state = .doMeas)
    (hrm : t.meas.rm = s.meas.rm) (hfreed : t.meas.freed = s.meas.freed)
    (hfault : t.meas.fault = s.meas.fault) (hsent : t.sender.sent = s.sender.sent)
    (hcmds : t.cmds = s.cmds) {posts : List RmEvent} {scans : List UInt32} {evid : RmEv}
    (hposted : t.meas.posted = s.meas.posted ++ posts)
    (hsurveys : t.meas.surveys = s.meas.surveys ++ scans)
    (hawaits : RmState.doMeas.awaits evid = true)
    (htoken : mains posts ++ scans.map (fun _ => RmEv.surveyDone) ++ t.meas.clock.mains = [evid]) :
    Onward s t posts scans evid where
  alive := hfreed
  rmid := by rw [hrm]
  q := by rw [hrm]
  polls := hrm ▸ h.serving.polls
  fault := hfault
  busy := hrm ▸ h.busy
  counted := by rw [Slave.reports, Slave.reports, hsent, hrm]
  refusals := by rw [Slave.refusals, Slave.refusals, hsent]
  posted := hposted
  cmds := hcmds
  surveys := hsurveys
  awaits := by rwa [hrm, hstate]
  token := htoken

theorem stage_doMeas (hstate : s.meas.rm.state = .doMeas) :
    stage s.meas.rm = 3800 * s.meas.rm.p.rpt.toNat + 200 * s.meas.rm.waitBusy.toNat := by
  rw [stage, hstate]

theorem Ready.scan (h : s.Ready r) (hstate : s.meas.rm.state = .doMeas) :
    Goes s (s.on Meas.scan) .surveyDone (stage s.meas.rm + 1014) :=
  ⟨[], [s.meas.rm.rmid], h.stays (s.on Meas.scan) hstate rfl rfl rfl rfl rfl (List.append_nil _).symm rfl
    rfl rfl, Nat.le_refl _⟩

theorem Ready.rearm (h : s.Ready r) (hstate : s.meas.rm.state = .doMeas) :
    Goes s (s.on (Meas.arm rmCondIntvl .retryTimerExpire)) .retryTimerExpire (stage s.meas.rm + 1232) :=
  ⟨[], [], h.stays (s.on (Meas.arm rmCondIntvl .retryTimerExpire)) hstate rfl rfl rfl rfl rfl (List.append_nil _).symm
    (List.append_nil _).symm rfl rfl, Nat.le_refl _⟩

theorem Ready.start (h : s.Ready r) (hstate : s.meas.rm.state = .doMeas) :
    Goes s (s.on (Meas.put .startMeas)) .startMeas
      (stage s.meas.rm + clockWeight s.meas.clock + 1020) := by
  refine ⟨[⟨s.meas.rm.rmid, .startMeas⟩], [], h.stays (s.on (Meas.put .startMeas)) hstate
    rfl rfl rfl rfl rfl rfl
    (List.append_nil _).symm rfl ?_, Nat.le_refl _⟩
  show mains [⟨s.meas.rm.rmid, .startMeas⟩] ++ [] ++ s.meas.clock.mains = _
  rw [h.blank.clock]
  rfl

theorem Ready.wait (h : s.Ready r) (hstate : s.meas.rm.state = .doMeas)
    (hpatient : 0 < s.meas.rm.waitBusy) :
    Goes s (s.on Meas.wait) .busyTimerExpire (stage s.meas.rm + 932) := by
  have hawaits : s.meas.rm.state.awaits .busyTimerExpire = true := by
    rw [hstate]
    rfl
  refine ⟨[], [], ⟨rfl, rfl, rfl, h.serving.polls, rfl,
    Int.le_sub_one_of_lt hpatient, rfl, rfl, (List.append_nil _).symm, rfl,
    (List.append_nil _).symm, hawaits, rfl⟩, ?_⟩
  have hstage : stage (s.on Meas.wait).meas.rm =
      3800 * s.meas.rm.p.rpt.toNat + 200 * (s.meas.rm.waitBusy - 1).toNat :=
    @stage_doMeas (s.on Meas.wait) hstate
  show stage (s.on Meas.wait).meas.rm + 1132 + 0 + 0 ≤ _
  rw [hstage, stage_doMeas hstate]
  omega

theorem countP_report (air : Air) (s : Slave) :
    (s.sender.sent ++ [s.sender.reportOf air]).countP isReport = s.reports + 1 ∧
      (s.sender.sent ++ [s.sender.reportOf air]).countP isRefusal = s.refusals := by
  have hkind : isReport (s.sender.reportOf air) = true ∧
      ¬ isRefusal (s.sender.reportOf air) = true := by
    unfold Sender.reportOf
    split
    · exact ⟨rfl, Bool.false_ne_true⟩
    · exact ⟨rfl, Bool.false_ne_true⟩
  rw [List.countP_append, List.countP_append, List.countP_singleton, List.countP_singleton,
    if_pos hkind.1, if_neg hkind.2]
  exact ⟨rfl, rfl⟩

theorem Ready.report (h : s.Ready r) (air : Air) (hstate : s.meas.rm.state = .doMeas) :
    Goes s { s with sender := ⟨s.meas.nextReport, s.sender.sent ++ [s.sender.reportOf air]⟩ }
      (if s.meas.rm.p.rpt = 0 then .stateOut else .repeatDelayExpire) (stage s.meas.rm + 2) := by
  obtain ⟨hreports, hrefusals⟩ := countP_report air s
  have howed : s.meas.rm.owed = s.meas.rm.p.rpt.toNat + 1 := by
    rw [RmObj.owed, hstate]
  have hpolls : s.meas.rm.q.mType ≠ bcnReq → s.meas.rm.pollMode = true := by
    apply h.serving.polls
    rw [hstate]
    exact RmState.noConfusion
  rw [stage_doMeas hstate]
  cases Decidable.em (s.meas.rm.p.rpt = 0) with
  | inl hzero =>
    have hnext : s.meas.nextReport = (s.meas.enter .sendReport).finish := if_pos hzero
    rw [hnext, if_pos hzero]
    refine ⟨[⟨s.meas.rm.rmid, .stateOut⟩], [], ⟨rfl, rfl, rfl, fun _ => hpolls, rfl,
      h.busy, ?_, hrefusals, rfl, rfl, (List.append_nil _).symm, rfl, rfl⟩, ?_⟩
    · rw [howed, hzero]
      exact hreports
    · show 0 + 0 + 2 + 0 ≤ _
      omega
  | inr hmore =>
    have hpred := Meas.toNat_pred hmore
    have hnext : s.meas.nextReport =
        ({ s.meas.enter .sendReport with rm.p.rpt := s.meas.rm.p.rpt - 1 } : Meas).arm
          (if s.meas.rm.pollMode then rmReptPollIntvl else rmReptScanIntvl) .repeatDelayExpire :=
      if_neg hmore
    rw [hnext]
    have hintvl : ∃ ms, (if s.meas.rm.pollMode then rmReptPollIntvl else rmReptScanIntvl) = ms ∧
        0 < ms / clockUnit ∧ ms / clockUnit ≤ 500 := by
      cases s.meas.rm.pollMode with
      | true => exact ⟨_, rfl, by decide, by decide⟩
      | false => exact ⟨_, rfl, by decide, by decide⟩
    obtain ⟨ms, hms, hpos, hshort⟩ := hintvl
    rw [hms, if_neg hmore]
    refine ⟨[], [], ⟨rfl, rfl, rfl, fun _ => hpolls, rfl, h.busy, ?_, hrefusals,
      (List.append_nil _).symm, rfl, (List.append_nil _).symm, rfl,
      clock_armed hpos RmEv.noConfusion _⟩, ?_⟩
    · rw [howed]
      show (s.sender.sent ++ [s.sender.reportOf air]).countP isReport +
        ((s.meas.rm.p.rpt - 1).toNat + 1) = _
      rw [hreports, hpred]
      exact Nat.add_right_comm _ _ _
    · show 3800 * (s.meas.rm.p.rpt - 1).toNat + 200 * s.meas.rm.waitBusy.toNat +
        (if ms / clockUnit = 0 then 0 else ms / clockUnit + 3200 + 2) + 0 + 0 ≤ _
      rw [if_neg hpos.ne']
      omega

theorem Ready.gone (h : s.Ready r) (hstate : s.meas.rm.state = .ended) :
    (s.on Meas.gone).Gone r := by
  have howed : s.meas.rm.owed = 0 := by
    rw [RmObj.owed, hstate]
  have hcounted := h.counted
  rw [howed] at hcounted
  exact ⟨rfl, h.fault, hcounted, h.refusals, rfl⟩

theorem handled_eq {st : RmState} (hstate : s.meas.rm.state = st) (evid : RmEv) :
    s.handled air evid = { s with sender := s.sender.nextIn air st evid } := by
  rw [handled, Sender.next, hstate]

theorem Onward.copied {t : Slave} {posts : List RmEvent} {scans : List UInt32} {evid : RmEv}
    (howed : (s.on (Meas.copied air)).meas.rm.owed = s.meas.rm.owed)
    (h : Onward (s.on (Meas.copied air)) t posts scans evid) : Onward s t posts scans evid where
  alive := h.alive
  rmid := h.rmid
  q := h.q
  polls := h.polls
  fault := h.fault
  busy := h.busy
  counted := by
    rw [← howed]
    exact h.counted
  refusals := h.refusals
  posted := h.posted
  cmds := h.cmds
  surveys := h.surveys
  awaits := h.awaits
  token := h.token

theorem Ready.copied (h : s.Ready r) (hstate : s.meas.rm.state = .idle)
    (hans : s.meas.rm.Answered air .stateIn) :
    Goes s (s.on fun m => (m.copied air).measure air) (s.meas.rm.firstToken air)
      (3800 * s.meas.rm.q.rpt.toNat + 200 * s.meas.rm.waitBusy.toNat + 3132) := by
  have howed : (s.on (Meas.copied air)).meas.rm.owed =
      (s.on (Meas.copied air)).meas.rm.p.rpt.toNat + 1 := by
    show RmObj.owed { s.meas.rm with p := _, pollMode := _ } = _
    rw [RmObj.owed, hstate]
    rfl
  have hsame : (s.on (Meas.copied air)).meas.rm.owed = s.meas.rm.owed := by
    rw [howed, RmObj.owed, hstate]
    rfl
  have hpolls : (s.on (Meas.copied air)).meas.rm.q.mType ≠ bcnReq →
      (s.on (Meas.copied air)).meas.rm.pollMode = true := by
    intro hother
    have hchannel := h.serving.measured.resolve_left hother
    have hcur := hans.polled hstate hother
    show (s.meas.rm.pollMode || s.meas.rm.q.isChannel && s.meas.rm.q.chNum == air.curChannel) = true
    rw [hchannel, hcur, Bool.true_and, beq_self_eq_true, Bool.or_true]
  have hready : (s.on (Meas.copied air)).Ready r :=
    ⟨⟨h.serving.alive, h.serving.rmid, h.serving.q, fun _ => hpolls⟩, h.fault, h.busy,
      hsame ▸ h.counted, h.refusals, ⟨h.blank.posted, h.blank.cmds, h.blank.surveys, h.blank.clock⟩⟩
  obtain ⟨posts, scans, honward, hcharge⟩ := hready.measure air hpolls howed
  exact ⟨posts, scans, honward.copied hsame, hcharge⟩

theorem Ready.handled (h : s.Ready r) {evid : RmEv} (hawaits : s.meas.rm.state.awaits evid = true)
    (hans : s.meas.rm.Answered air evid) :
    (∃ next budget, Goes s (s.handled air evid) next budget ∧ budget < stage s.meas.rm +
        clockWeight s.meas.clock + weight evid + 1225 * (s.meas.rm.unmet air evid).toNat) ∨
      s.handled air evid = s.on Meas.gone ∧ s.meas.rm.state = .ended := by
  obtain ⟨hstate, rfl⟩ | ⟨hstate, rfl⟩ | ⟨hstate, rfl⟩ | ⟨hstate, hkind⟩ :=
    RmState.awaits_cases hawaits
  · left
    rw [handled_eq hstate]
    refine ⟨_, _, h.copied hstate hans, ?_⟩
    rw [stage, hstate]
    dsimp only
    omega
  · left
    have howed : s.meas.rm.owed = s.meas.rm.p.rpt.toNat + 1 := by
      rw [RmObj.owed, hstate]
    have hpolls : s.meas.rm.q.mType ≠ bcnReq → s.meas.rm.pollMode = true := by
      apply h.serving.polls
      rw [hstate]
      exact RmState.noConfusion
    have hweight : weight .repeatDelayExpire = 3200 := rfl
    rw [handled_eq hstate]
    refine ⟨_, _, h.measure air hpolls howed, ?_⟩
    rw [stage, hstate, hweight]
    dsimp only
    omega
  · right
    rw [handled_eq hstate]
    exact ⟨rfl, hstate⟩
  · left
    rw [handled_eq hstate]
    rcases hkind with rfl | rfl | rfl | rfl
    · have hweight : weight .startMeas = 1020 := rfl
      refine ⟨_, _, h.scan hstate, ?_⟩
      omega
    · have hweight : weight .surveyDone = 8 := rfl
      rw [Sender.nextIn]
      cases hrep : s.meas.rm.reported air with
      | true =>
        refine ⟨_, _, h.report air hstate, ?_⟩
        omega
      | false =>
        have hunmet : s.meas.rm.unmet air .surveyDone = true := by
          rw [RmObj.unmet, hrep, decide_eq_true ⟨hstate, rfl⟩]
          rfl
        refine ⟨_, _, h.rearm hstate, ?_⟩
        rw [hunmet, Bool.toNat_true]
        omega
    · have hweight : weight .busyTimerExpire = 1030 := rfl
      rw [Sender.nextIn]
      cases hready : air.readyForScan with
      | true =>
        refine ⟨_, _, h.start hstate, ?_⟩
        omega
      | false =>
        refine ⟨_, _, h.wait hstate (hans.patient hstate rfl), ?_⟩
        omega
    · have hweight : weight .retryTimerExpire = 1030 := rfl
      refine ⟨_, _, h.start hstate, ?_⟩
      omega

theorem Alive.ready (h : s.Alive r) {t : Slave} (hrm : t.meas.rm = s.meas.rm)
    (hfreed : t.meas.freed = s.meas.freed) (hfault : t.meas.fault = s.meas.fault)
    (hsent : t.sender.sent = s.sender.sent) (hblank : t.Blank) : t.Ready r where
  serving := ⟨hfreed.trans h.serving.alive, hrm ▸ h.serving.rmid, hrm ▸ h.serving.q,
    hrm ▸ h.serving.polls⟩
  fault := hfault.trans h.fault
  busy := hrm ▸ h.busy
  counted := by
    rw [Slave.reports, hsent, hrm]
    exact h.counted
  refusals := by
    rw [Slave.refusals, hsent]
    exact h.refusals
  blank := hblank

theorem Alive.keeps (h : s.Alive r) {t : Slave} (hrm : t.meas.rm = s.meas.rm)
    (hfreed : t.meas.freed = s.meas.freed) (hfault : t.meas.fault = s.meas.fault)
    (hsent : t.sender.sent = s.sender.sent) {evid : RmEv} (hold : s.tokens = [evid])
    (htokens : t.tokens = [evid]) : t.Alive r where
  serving := ⟨hfreed.trans h.serving.alive, hrm ▸ h.serving.rmid, hrm ▸ h.serving.q,
    hrm ▸ h.serving.polls⟩
  fault := hfault.trans h.fault
  busy := hrm ▸ h.busy
  counted := by
    rw [Slave.reports, hsent, hrm]
    exact h.counted
  refusals := by
    rw [Slave.refusals, hsent]
    exact h.refusals
  token := by
    obtain ⟨first, hawaits, hone⟩ := h.token
    have hsame : first = evid := List.singleton_inj.mp (hone.symm.trans hold)
    exact ⟨evid, hsame ▸ hrm ▸ hawaits, htokens⟩

theorem Ready.handled_inv (h : s.Ready r) {evid : RmEv}
    (hawaits : s.meas.rm.state.awaits evid = true) (hans : s.meas.rm.Answered air evid) :
    (s.handled air evid).Inv r := by
  obtain ⟨_, _, ⟨_, _, honward, -⟩, -⟩ | ⟨hgone, hstate⟩ := h.handled hawaits hans
  · exact .inl (h.alive honward)
  · rw [hgone]
    exact .inr (h.gone hstate)

theorem Alive.stale (h : s.Alive r) (hans : s.meas.rm.Answered air .measTimerExpire) :
    (s.handled air .measTimerExpire).Inv r := by
  cases hstate : s.meas.rm.state with
  | doMeas => exact absurd rfl (hans.timely hstate)
  | ended =>
    have howed : s.meas.rm.owed = 0 := by
      rw [RmObj.owed, hstate]
    have hcounted := h.counted
    rw [howed] at hcounted
    rw [handled_eq hstate]
    exact .inr ⟨rfl, h.fault, hcounted, h.refusals, rfl⟩
  | _ =>
    rw [handled_eq hstate]
    exact .inl h

def popped (rest : List RmEvent) (s : Slave) : Slave := s.on fun m => { m with posted := rest }

theorem popped_tokens {ev : RmEvent} {rest : List RmEvent} (hposted : s.meas.posted = ev :: rest) :
    s.tokens = mains [ev] ++ (s.popped rest).tokens := by
  have hmains : mains s.meas.posted = mains [ev] ++ mains rest := by
    rw [hposted, ← mains_append]
    rfl
  rw [tokens, tokens, hmains]
  simp only [List.append_assoc]
  rfl

theorem Alive.answered (h : s.Alive r) (hserves : s.Serves (.handle air)) {ev : RmEvent}
    {rest : List RmEvent} (hposted : s.meas.posted = ev :: rest) :
    s.meas.rm.Answered air ev.evid := by
  apply hserves ev
  · rw [hposted]
    rfl
  · exact h.serving.alive

theorem Alive.handles (h : s.Alive r) (hserves : s.Serves (.handle air)) {ev : RmEvent}
    {rest : List RmEvent} (hposted : s.meas.posted = ev :: rest) :
    s.rmHandler air = (s.popped rest).handled air ev.evid ∧
      (ev.evid = .measTimerExpire ∧ (s.popped rest).Alive r ∨
        (s.popped rest).Ready r ∧ (s.popped rest).meas.rm.state.awaits ev.evid = true) := by
  have hans := h.answered hserves hposted
  have hfreed : ¬ (s.popped rest).meas.freed = true := Bool.eq_false_iff.mp h.serving.alive
  have hrun : s.rmHandler air =
      { s.popped rest with sender := (s.popped rest).sender.rmStateRun air ev.evid } := by
    rw [rmHandler, hposted]
    exact if_neg hfreed
  obtain ⟨evid, hawaits, htokens⟩ := h.token
  have hpop := popped_tokens hposted
  cases Decidable.em (ev.evid = .measTimerExpire) with
  | inl htimer =>
    have hrest : (s.popped rest).tokens = [evid] := by
      rw [← htokens, hpop, mains_cons_timer htimer]
      rfl
    have hkept : (s.popped rest).Alive r := h.keeps rfl rfl rfl rfl htokens hrest
    rw [hrun, Sender.rmStateRun_next hkept.serving (.inr htimer) hans]
    exact ⟨rfl, .inl ⟨htimer, hkept⟩⟩
  | inr hmain =>
    rw [htokens, mains_cons_main hmain] at hpop
    obtain ⟨hsame, hnone⟩ := List.cons_eq_cons.mp hpop
    have hready : (s.popped rest).Ready r :=
      h.ready rfl rfl rfl rfl (blank_of_tokens hnone.symm)
    rw [hsame] at hawaits
    rw [hrun, Sender.rmStateRun_next hready.serving (.inl hawaits) hans]
    exact ⟨rfl, .inr ⟨hready, hawaits⟩⟩

theorem Inv.handle (h : s.Inv r) (hserves : s.Serves (.handle air)) : (s.rmHandler air).Inv r := by
  cases hposted : s.meas.posted with
  | nil =>
    rw [rmHandler, hposted]
    exact h
  | cons ev rest =>
    cases h with
    | inr hgone =>
      have hrun : s.rmHandler air = s.popped rest := by
        rw [rmHandler, hposted]
        exact if_pos hgone.freed
      rw [hrun]
      exact .inr ⟨hgone.freed, hgone.fault, hgone.reports, hgone.refusals, hgone.clock⟩
    | inl halive =>
      have hans := halive.answered hserves hposted
      obtain ⟨hrun, hhead⟩ := halive.handles hserves hposted
      rw [hrun]
      cases hhead with
      | inl hstale =>
        obtain ⟨htimer, hkept⟩ := hstale
        rw [htimer]
        exact hkept.stale (htimer ▸ hans)
      | inr hmain => exact hmain.1.handled_inv hmain.2 hans

end Next

section Others

variable {r : SlaveRequest} {s : Slave}

theorem Inv.command (h : s.Inv r) {alloc : Bool} (hserves : s.Serves (.command alloc)) :
    (s.rmPostEventHdl alloc).Inv r := by
  cases hcmds : s.cmds with
  | nil =>
    rw [rmPostEventHdl, hcmds]
    exact h
  | cons ev rest =>
    rw [rmPostEventHdl, hcmds]
    dsimp only
    cases h with
    | inr hgone =>
      cases alloc with
      | false => exact .inr ⟨hgone.freed, hgone.fault, hgone.reports, hgone.refusals, hgone.clock⟩
      | true => exact .inr ⟨hgone.freed, hgone.fault, hgone.reports, hgone.refusals, hgone.clock⟩
    | inl halive =>
      have hsome : s.cmds ≠ [] := by
        rw [hcmds]
        exact List.cons_ne_nil _ _
      have halloc : alloc = true := hserves hsome halive.serving.alive
      subst halloc
      obtain ⟨evid, hawaits, htokens⟩ := halive.token
      refine .inl (halive.keeps rfl rfl rfl rfl htokens ?_)
      have hmoved : mains (s.meas.posted ++ [ev]) ++ mains rest =
          mains s.meas.posted ++ mains s.cmds := by
        rw [hcmds, mains_append, List.append_assoc, ← mains_append]
        rfl
      rw [← htokens, tokens, tokens, ← hmoved]
      rfl

theorem clock_tick {c : RmClock} (hcounter : c.counter ≠ 0) :
    c.mains = (if c.counter = 1 then mains [⟨0, c.evid⟩] else []) ++
      ({ c with counter := c.counter - 1 } : RmClock).mains := by
  have hpos := Nat.pos_of_ne_zero hcounter
  cases Decidable.em (c.counter = 1) with
  | inl hone =>
    rw [if_pos hone, hone, clock_off, List.append_nil, RmClock.mains, hone]
    cases Decidable.em (c.evid = .measTimerExpire) with
    | inl htimer =>
      rw [if_neg fun h => h.2 htimer]
      exact (mains_cons_timer htimer []).symm
    | inr hmain =>
      rw [if_pos ⟨Nat.one_pos, hmain⟩]
      have hevent : (⟨0, c.evid⟩ : RmEvent).evid ≠ .measTimerExpire := hmain
      exact (mains_cons_main hevent []).symm
  | inr hmore =>
    have hleft : 0 < c.counter - 1 := by omega
    rw [if_neg hmore, List.nil_append, RmClock.mains, RmClock.mains]
    simp only [hpos, hleft, true_and]

theorem tick_tokens {alloc : Bool} (hserves : s.Serves (.tick alloc)) :
    (s.rmTimerCallback alloc).tokens.Perm s.tokens := by
  cases Decidable.em (s.meas.clock.counter = 0) with
  | inl hoff => rw [rmTimerCallback, if_pos hoff]
  | inr hon =>
    have hsplit := clock_tick hon
    rw [rmTimerCallback, if_neg hon]
    dsimp only
    cases Decidable.em (s.meas.clock.counter = 1) with
    | inr hmore =>
      have hleft : ¬ (s.meas.clock.counter - 1 = 0 ∧ alloc = true) := fun hzero => by
        have := hzero.1
        omega
      rw [if_neg hmore] at hsplit
      rw [if_neg hleft, tokens, tokens, hsplit]
      exact .refl _
    | inl hone =>
      rw [if_pos hone] at hsplit
      cases alloc with
      | true =>
        have hring : s.meas.clock.counter - 1 = 0 ∧ true = true := ⟨by omega, rfl⟩
        rw [if_pos hring, tokens, tokens, hsplit]
        have hevent : mains [⟨s.meas.rm.rmid, s.meas.clock.evid⟩] =
            mains [⟨0, s.meas.clock.evid⟩] := rfl
        simp only [mains_append, hevent, List.append_assoc]
        refine List.Perm.append_left _ (List.Perm.append_left _ ?_)
        rw [← List.append_assoc, ← List.append_assoc]
        exact List.Perm.append_right _ List.perm_append_comm
      | false =>
        have htimer : s.meas.clock.evid = .measTimerExpire := by
          by_contra hmain
          exact Bool.false_ne_true (hserves hone hmain)
        have hnone : mains [⟨0, s.meas.clock.evid⟩] = [] := mains_cons_timer htimer []
        rw [hnone] at hsplit
        rw [if_neg fun h => Bool.false_ne_true h.2, tokens, tokens, hsplit]
        exact .refl _

theorem tick_same (alloc : Bool) :
    (s.rmTimerCallback alloc).meas.rm = s.meas.rm ∧
      (s.rmTimerCallback alloc).meas.freed = s.meas.freed ∧
      (s.rmTimerCallback alloc).meas.fault = s.meas.fault ∧
      (s.rmTimerCallback alloc).sender.sent = s.sender.sent := by
  unfold rmTimerCallback
  split
  · exact ⟨rfl, rfl, rfl, rfl⟩
  · dsimp only
    split <;> exact ⟨rfl, rfl, rfl, rfl⟩

theorem Inv.tick (h : s.Inv r) {alloc : Bool} (hserves : s.Serves (.tick alloc)) :
    (s.rmTimerCallback alloc).Inv r := by
  cases h with
  | inr hgone =>
    rw [rmTimerCallback, if_pos hgone.clock]
    exact .inr hgone
  | inl halive =>
    obtain ⟨evid, -, htokens⟩ := halive.token
    obtain ⟨hrm, hfreed, hfault, hsent⟩ := tick_same (s := s) alloc
    have hperm := tick_tokens hserves
    rw [htokens] at hperm
    exact .inl (halive.keeps hrm hfreed hfault hsent htokens (List.perm_singleton.mp hperm))

theorem Inv.surveyDone (h : s.Inv r) {alloc : Bool} (hserves : s.Serves (.surveyDone alloc)) :
    (s.surveyDone alloc).Inv r := by
  cases hsurveys : s.meas.surveys with
  | nil =>
    rw [Slave.surveyDone, hsurveys]
    exact h
  | cons token rest =>
    rw [Slave.surveyDone, hsurveys]
    dsimp only
    have hsome : s.meas.surveys ≠ [] := by
      rw [hsurveys]
      exact List.cons_ne_nil _ _
    have halloc : alloc = true := hserves hsome
    subst halloc
    cases h with
    | inr hgone => exact .inr ⟨hgone.freed, hgone.fault, hgone.reports, hgone.refusals, hgone.clock⟩
    | inl halive =>
      obtain ⟨evid, hawaits, htokens⟩ := halive.token
      refine .inl (halive.keeps rfl rfl rfl rfl htokens ?_)
      have hdone : mains [⟨token, .surveyDone⟩] = [.surveyDone] := rfl
      rw [if_pos rfl, ← htokens, tokens, tokens, hsurveys]
      simp only [mains_append, hdone, List.map_cons, List.append_assoc]
      rfl

theorem Inv.step (h : s.Inv r) {e : SlaveEv} (hserves : s.Serves e) : (s.step e).Inv r := by
  cases e with
  | handle air => exact h.handle hserves
  | command alloc => exact h.command hserves
  | tick alloc => exact h.tick hserves
  | surveyDone alloc => exact h.surveyDone hserves

theorem enqueued_inv (r : SlaveRequest) (p : ℕ) (pclock : Fin rmTimerNum) :
    (enqueued r.new p pclock).Inv r := by
  refine .inl ⟨⟨rfl, rfl, rfl, fun hne => absurd rfl hne⟩, rfl, Int.le_refl 0, Nat.zero_add _, rfl, ?_⟩
  exact ⟨.stateIn, rfl, rfl⟩

end Others

section Potential

variable {r : SlaveRequest} {s : Slave} {air : Air}

theorem weight_pos (evid : RmEv) : 0 < weight evid := by
  cases evid <;> decide

theorem evsWeight_append (xs ys : List RmEvent) :
    evsWeight (xs ++ ys) = evsWeight xs + evsWeight ys := by
  induction xs with
  | nil => exact (Nat.zero_add _).symm
  | cons x xs ih => rw [List.cons_append, evsWeight, evsWeight, ih, Nat.add_assoc]

theorem evsWeight_cons (ev : RmEvent) (evs : List RmEvent) :
    evsWeight (ev :: evs) = weight ev.evid + evsWeight evs := rfl

theorem potential_alive (s : Slave) (hfreed : s.meas.freed = false) :
    s.potential = stage s.meas.rm + s.queued + clockWeight s.meas.clock := by
  rw [potential, if_neg (Bool.eq_false_iff.mp hfreed)]

theorem potential_freed (s : Slave) (hfreed : s.meas.freed = true) :
    s.potential = s.queued + clockWeight s.meas.clock := by
  rw [potential, if_pos hfreed, Nat.zero_add]

theorem Onward.potential {t : Slave} {posts : List RmEvent} {scans : List UInt32} {evid : RmEv}
    (h : Onward s t posts scans evid) (hfreed : s.meas.freed = false) :
    t.potential = t.charge posts scans + s.queued := by
  rw [potential_alive t (h.alive.trans hfreed), charge, queued, queued, h.posted, h.cmds, h.surveys,
    evsWeight_append, List.length_append]
  omega

theorem popped_queued {ev : RmEvent} {rest : List RmEvent} (hposted : s.meas.posted = ev :: rest) :
    s.queued = weight ev.evid + (s.popped rest).queued := by
  have hrest : (s.popped rest).queued =
      evsWeight rest + (evsWeight s.cmds + s.cmds.length) + 10 * s.meas.surveys.length := rfl
  rw [hrest, queued, hposted, evsWeight_cons]
  omega

theorem Ready.handled_potential (h : s.Ready r) {evid : RmEv}
    (hawaits : s.meas.rm.state.awaits evid = true) (hans : s.meas.rm.Answered air evid) :
    (s.handled air evid).potential <
      s.potential + weight evid + 1225 * (s.meas.rm.unmet air evid).toNat := by
  have hpotential := potential_alive s h.serving.alive
  obtain ⟨_, budget, ⟨_, _, honward, hcharge⟩, hbudget⟩ | ⟨hgone, -⟩ := h.handled hawaits hans
  · rw [honward.potential h.serving.alive]
    omega
  · have hpos := weight_pos evid
    have hfreed : (s.on Meas.gone).potential = s.queued + 0 := potential_freed (s.on Meas.gone) rfl
    rw [hgone, hfreed]
    omega

theorem Alive.stale_potential (h : s.Alive r) (hans : s.meas.rm.Answered air .measTimerExpire) :
    (s.handled air .measTimerExpire).potential ≤ s.potential := by
  cases hstate : s.meas.rm.state with
  | doMeas => exact absurd rfl (hans.timely hstate)
  | ended =>
    have hpotential := potential_alive s h.serving.alive
    have hfreed : (s.on Meas.gone).potential = s.queued + 0 := potential_freed (s.on Meas.gone) rfl
    have hgone : s.handled air .measTimerExpire = s.on Meas.gone := handled_eq hstate _
    rw [hgone, hfreed]
    omega
  | _ =>
    rw [handled_eq hstate]
    exact Nat.le_refl _

theorem pays_handle (h : s.Inv r) (hserves : s.Serves (.handle air)) :
    (s.rmHandler air).potential + s.acts (.handle air) ≤
      s.potential + 1225 * s.unmet (.handle air) := by
  cases hposted : s.meas.posted with
  | nil =>
    rw [rmHandler, hposted, acts, hposted]
    exact Nat.le_add_right _ _
  | cons ev rest =>
    have hacts : s.acts (.handle air) = 1 := by
      rw [acts, hposted]
      exact Nat.min_eq_left (Nat.succ_pos _)
    have hqueued := popped_queued hposted
    have hpos := weight_pos ev.evid
    have hpotential : s.potential = weight ev.evid + (s.popped rest).potential := by
      have hrest : (s.popped rest).potential = (if s.meas.freed then 0 else stage s.meas.rm) +
        (s.popped rest).queued + clockWeight s.meas.clock := rfl
      rw [potential, hqueued, hrest]
      omega
    rw [hacts]
    cases h with
    | inr hgone =>
      have hrun : s.rmHandler air = s.popped rest := by
        rw [rmHandler, hposted]
        exact if_pos hgone.freed
      rw [hrun, hpotential]
      omega
    | inl halive =>
      have hans := halive.answered hserves hposted
      have hunmet : s.unmet (.handle air) = (s.meas.rm.unmet air ev.evid).toNat := by
        rw [unmet, hposted, List.head?_cons, Option.any_some, halive.serving.alive, Bool.not_false,
          Bool.true_and]
      obtain ⟨hrun, hhead⟩ := halive.handles hserves hposted
      rw [hrun, hunmet, hpotential]
      cases hhead with
      | inl hstale =>
        obtain ⟨htimer, hkept⟩ := hstale
        rw [htimer] at hans hpos ⊢
        have hstep := hkept.stale_potential hans
        omega
      | inr hmain =>
        have hstep := hmain.1.handled_potential hmain.2 hans
        have hsame : (s.popped rest).meas.rm = s.meas.rm := rfl
        rw [hsame] at hstep
        omega

theorem pays_command (s : Slave) (alloc : Bool) :
    (s.rmPostEventHdl alloc).potential + s.acts (.command alloc) ≤ s.potential := by
  cases hcmds : s.cmds with
  | nil =>
    rw [rmPostEventHdl, hcmds, acts, hcmds]
    exact Nat.le_refl _
  | cons ev rest =>
    have hacts : s.acts (.command alloc) = 1 := by
      rw [acts, hcmds]
      exact Nat.min_eq_left (Nat.succ_pos _)
    have hqueued : s.queued = evsWeight s.meas.posted +
        (weight ev.evid + evsWeight rest + (rest.length + 1)) + 10 * s.meas.surveys.length := by
      rw [queued, hcmds, evsWeight_cons, List.length_cons]
    have hpotential : s.potential = (if s.meas.freed then 0 else stage s.meas.rm) + s.queued +
      clockWeight s.meas.clock := rfl
    rw [hacts, rmPostEventHdl, hcmds, hpotential, hqueued]
    dsimp only
    cases alloc with
    | true =>
      have hone : evsWeight [ev] = weight ev.evid := Nat.add_zero _
      show (if s.meas.freed then 0 else stage s.meas.rm) +
        (evsWeight (s.meas.posted ++ [ev]) + (evsWeight rest + rest.length) +
          10 * s.meas.surveys.length) + clockWeight s.meas.clock + 1 ≤ _
      rw [evsWeight_append, hone]
      omega
    | false =>
      show (if s.meas.freed then 0 else stage s.meas.rm) +
        (evsWeight s.meas.posted + (evsWeight rest + rest.length) +
          10 * s.meas.surveys.length) + clockWeight s.meas.clock + 1 ≤ _
      omega

theorem potential_moved {t : Slave} (hrm : t.meas.rm = s.meas.rm)
    (hfreed : t.meas.freed = s.meas.freed) (hposted : t.meas.posted = s.meas.posted)
    (hsurveys : t.meas.surveys = s.meas.surveys) :
    t.potential + (evsWeight s.cmds + s.cmds.length) + clockWeight s.meas.clock =
      s.potential + (evsWeight t.cmds + t.cmds.length) + clockWeight t.meas.clock := by
  rw [potential, potential, queued, queued, hrm, hfreed, hposted, hsurveys]
  omega

def ticked (s : Slave) : Slave :=
  s.on fun m => { m with clock := { m.clock with counter := m.clock.counter - 1 } }

theorem pays_tick (s : Slave) (alloc : Bool) :
    (s.rmTimerCallback alloc).potential + s.acts (.tick alloc) ≤ s.potential := by
  cases Decidable.em (s.meas.clock.counter = 0) with
  | inl hoff =>
    have hacts : s.acts (.tick alloc) = 0 := by
      rw [acts, hoff]
      rfl
    rw [rmTimerCallback, if_pos hoff, hacts]
    exact Nat.le_refl _
  | inr hon =>
    have hacts : s.acts (.tick alloc) = 1 := Nat.min_eq_left (Nat.pos_of_ne_zero hon)
    have hclock : clockWeight s.meas.clock = s.meas.clock.counter + weight s.meas.clock.evid + 2 :=
      if_neg hon
    rw [rmTimerCallback, if_neg hon, hacts]
    dsimp only
    cases Decidable.em (s.meas.clock.counter - 1 = 0 ∧ alloc = true) with
    | inl hring =>
      rw [if_pos hring]
      have hmoved := @potential_moved s
        { s.ticked with cmds := s.cmds ++ [⟨s.meas.rm.rmid, s.meas.clock.evid⟩] } rfl rfl rfl rfl
      have hzero : clockWeight s.ticked.meas.clock = 0 := if_pos hring.1
      have hcmds : evsWeight (s.cmds ++ [⟨s.meas.rm.rmid, s.meas.clock.evid⟩]) =
          evsWeight s.cmds + weight s.meas.clock.evid := evsWeight_append _ _
      rw [hclock, hzero, hcmds, List.length_append, List.length_singleton] at hmoved
      have hgoal : ({ s.ticked with cmds := s.cmds ++ [⟨s.meas.rm.rmid, s.meas.clock.evid⟩] } :
          Slave).potential + 1 ≤ s.potential := by
        omega
      exact hgoal
    | inr hquiet =>
      rw [if_neg hquiet]
      have hmoved := @potential_moved s s.ticked rfl rfl rfl rfl
      have hless : clockWeight s.ticked.meas.clock ≤
          s.meas.clock.counter - 1 + weight s.meas.clock.evid + 2 := by
        unfold clockWeight
        split
        · exact Nat.zero_le _
        · exact Nat.le_refl _
      have hcmds : s.ticked.cmds = s.cmds := rfl
      rw [hclock, hcmds] at hmoved
      have hgoal : s.ticked.potential + 1 ≤ s.potential := by
        omega
      exact hgoal

theorem pays_survey (s : Slave) (alloc : Bool) :
    (s.surveyDone alloc).potential + s.acts (.surveyDone alloc) ≤ s.potential := by
  cases hsurveys : s.meas.surveys with
  | nil =>
    have hacts : s.acts (.surveyDone alloc) = 0 := by
      rw [acts, hsurveys]
      rfl
    rw [Slave.surveyDone, hsurveys, hacts]
    exact Nat.le_refl _
  | cons token rest =>
    have hacts : s.acts (.surveyDone alloc) = 1 := by
      rw [acts, hsurveys]
      exact Nat.min_eq_left (Nat.succ_pos _)
    have hpotential : s.potential = (if s.meas.freed then 0 else stage s.meas.rm) + s.queued +
      clockWeight s.meas.clock := rfl
    rw [Slave.surveyDone, hsurveys, hacts, hpotential, queued, hsurveys, List.length_cons]
    dsimp only
    cases alloc with
    | true =>
      have hone : evsWeight [(⟨token, .surveyDone⟩ : RmEvent)] = 8 := rfl
      show (if s.meas.freed then 0 else stage s.meas.rm) + (evsWeight s.meas.posted +
        (evsWeight (s.cmds ++ [⟨token, .surveyDone⟩]) +
          (s.cmds ++ [(⟨token, .surveyDone⟩ : RmEvent)]).length) +
          10 * rest.length) + clockWeight s.meas.clock + 1 ≤ _
      rw [evsWeight_append, hone, List.length_append, List.length_singleton]
      omega
    | false =>
      show (if s.meas.freed then 0 else stage s.meas.rm) + (evsWeight s.meas.posted +
        (evsWeight s.cmds + s.cmds.length) + 10 * rest.length) + clockWeight s.meas.clock + 1 ≤ _
      omega

theorem pays (h : s.Inv r) {e : SlaveEv} (hserves : s.Serves e) :
    (s.step e).potential + s.acts e ≤ s.potential + 1225 * s.unmet e := by
  cases e with
  | handle air => exact pays_handle h hserves
  | command alloc => exact (pays_command s alloc).trans (Nat.le_add_right _ _)
  | tick alloc => exact (pays_tick s alloc).trans (Nat.le_add_right _ _)
  | surveyDone alloc => exact (pays_survey s alloc).trans (Nat.le_add_right _ _)

end Potential

def setBusy (n : ℤ) (m : Meas) : Meas := { m with rm := { m.rm with waitBusy := n } }

def withBusy (n : ℤ) (s : Slave) : Slave := s.on (setBusy n)

section Busy

variable {r : SlaveRequest} {s : Slave} {air : Air} {n : ℤ}

def SameBut (n : ℤ) (s t : Slave) : Prop :=
  t = s ∨ t = s.withBusy n ∧ .busyTimerExpire ∉ s.tokens

theorem measure_setBusy (air : Air) (m : Meas) (n : ℤ) :
    (setBusy n m).measure air =
      if m.rm.firstToken air = .busyTimerExpire then m.measure air
      else setBusy n (m.measure air) := by
  have hsame : (setBusy n m).rm.skipsScan = m.rm.skipsScan := rfl
  unfold Meas.measure RmObj.firstToken
  rw [hsame]
  split
  · rw [if_neg RmEv.noConfusion]
    rfl
  · split
    · rw [if_neg RmEv.noConfusion]
      rfl
    · rw [if_pos rfl]
      rfl

theorem nextReport_setBusy (m : Meas) (n : ℤ) :
    (setBusy n m).nextReport = setBusy n m.nextReport := by
  cases Decidable.em (m.rm.p.rpt = 0) with
  | inl hzero =>
    have hzero' : (setBusy n m).rm.p.rpt = 0 := hzero
    rw [Meas.nextReport, if_pos hzero', Meas.nextReport, if_pos hzero]
    rfl
  | inr hmore =>
    have hmore' : ¬ (setBusy n m).rm.p.rpt = 0 := hmore
    rw [Meas.nextReport, if_neg hmore', Meas.nextReport, if_neg hmore]
    rfl

theorem sameBut_of_tokens {t u : Slave} {evid : RmEv} (htokens : t.tokens = [evid])
    (hevid : evid ≠ .busyTimerExpire) (hu : u = t.withBusy n) : SameBut n t u := by
  refine .inr ⟨hu, ?_⟩
  rw [htokens, List.mem_singleton]
  exact hevid.symm

theorem measure_withBusy (f : Meas → Meas)
    (hf : ∀ m, f (setBusy n m) = setBusy n (f m))
    (hfirst : (f s.meas).rm.firstToken air = s.meas.rm.firstToken air)
    (htokens : (s.on fun m => (f m).measure air).tokens = [s.meas.rm.firstToken air]) :
    SameBut n (s.on fun m => (f m).measure air) ((s.withBusy n).on fun m => (f m).measure air) := by
  have hmeas := measure_setBusy air (f s.meas) n
  rw [hfirst, ← hf] at hmeas
  have hon : (s.withBusy n).on (fun m => (f m).measure air) =
      s.on fun _ => (f (setBusy n s.meas)).measure air := rfl
  rw [hon, hmeas]
  cases Decidable.em (s.meas.rm.firstToken air = .busyTimerExpire) with
  | inl hbusy =>
    rw [if_pos hbusy]
    exact .inl rfl
  | inr hother =>
    rw [if_neg hother]
    exact sameBut_of_tokens htokens hother rfl

theorem Ready.handled_withBusy (h : s.Ready r) {evid : RmEv}
    (hawaits : s.meas.rm.state.awaits evid = true) (hans : s.meas.rm.Answered air evid)
    (hevid : evid ≠ .busyTimerExpire) :
    SameBut n (s.handled air evid) ((s.withBusy n).handled air evid) := by
  obtain ⟨hstate, rfl⟩ | ⟨hstate, rfl⟩ | ⟨hstate, rfl⟩ | ⟨hstate, hkind⟩ :=
    RmState.awaits_cases hawaits
  · have hother : (s.withBusy n).meas.rm.state = .idle := hstate
    rw [handled_eq hstate, handled_eq hother]
    exact measure_withBusy (Meas.copied air) (fun _ => rfl) rfl (h.tokens (h.copied hstate hans))
  · have hother : (s.withBusy n).meas.rm.state = .sendReport := hstate
    have howed : s.meas.rm.owed = s.meas.rm.p.rpt.toNat + 1 := by
      rw [RmObj.owed, hstate]
    have hpolls : s.meas.rm.q.mType ≠ bcnReq → s.meas.rm.pollMode = true := by
      apply h.serving.polls
      rw [hstate]
      exact RmState.noConfusion
    rw [handled_eq hstate, handled_eq hother]
    exact measure_withBusy (fun m => m) (fun _ => rfl) rfl (h.tokens (h.measure air hpolls howed))
  · have hother : (s.withBusy n).meas.rm.state = .ended := hstate
    have htokens : (s.on Meas.gone).tokens = [] := by
      have hblank : mains s.meas.posted ++ mains s.cmds ++
          s.meas.surveys.map (fun _ => RmEv.surveyDone) ++ [] = [] := by
        rw [h.blank.posted, h.blank.cmds, h.blank.surveys]
        rfl
      exact hblank
    rw [handled_eq hstate, handled_eq hother]
    refine .inr ⟨rfl, ?_⟩
    show RmEv.busyTimerExpire ∉ (s.on Meas.gone).tokens
    rw [htokens]
    exact List.not_mem_nil
  · have hother : (s.withBusy n).meas.rm.state = .doMeas := hstate
    rw [handled_eq hstate, handled_eq hother]
    rcases hkind with rfl | rfl | rfl | rfl
    · exact sameBut_of_tokens (h.tokens (h.scan hstate)) RmEv.noConfusion rfl
    · have hsame : (s.withBusy n).meas.rm.reported air = s.meas.rm.reported air := rfl
      rw [Sender.nextIn, Sender.nextIn, hsame]
      cases hrep : s.meas.rm.reported air with
      | true =>
        refine sameBut_of_tokens (h.tokens (h.report air hstate)) ?_ ?_
        · split
          · exact RmEv.noConfusion
          · exact RmEv.noConfusion
        · exact congrArg (fun m =>
            ({ s with sender := ⟨m, s.sender.sent ++ [s.sender.reportOf air]⟩ } : Slave))
            (nextReport_setBusy s.meas n)
      | false => exact sameBut_of_tokens (h.tokens (h.rearm hstate)) RmEv.noConfusion rfl
    · exact absurd rfl hevid
    · exact sameBut_of_tokens (h.tokens (h.start hstate)) RmEv.noConfusion rfl

theorem Alive.withBusy_handles (h : s.Alive r) (hserves : s.Serves (.handle air)) {ev : RmEvent}
    {rest : List RmEvent} (hposted : s.meas.posted = ev :: rest)
    (hevid : ev.evid ≠ .busyTimerExpire)
    (hawaits : s.meas.rm.state.awaits ev.evid = true ∨ ev.evid = .measTimerExpire) :
    (s.withBusy n).rmHandler air = ((s.popped rest).withBusy n).handled air ev.evid := by
  have hans := h.answered hserves hposted
  have hother : (s.withBusy n).meas.posted = ev :: rest := hposted
  have hfreed : ¬ ((s.popped rest).withBusy n).meas.freed = true :=
    Bool.eq_false_iff.mp h.serving.alive
  have hserving : r.Serving ((s.popped rest).withBusy n).meas :=
    ⟨h.serving.alive, h.serving.rmid, h.serving.q, h.serving.polls⟩
  have hanswered : ((s.popped rest).withBusy n).meas.rm.Answered air ev.evid :=
    ⟨hans.alloc, hans.timely, hans.polled, fun _ hbusy => absurd hbusy hevid, hans.found, hans.room⟩
  have hrun : (s.withBusy n).rmHandler air = { (s.popped rest).withBusy n with
      sender := ((s.popped rest).withBusy n).sender.rmStateRun air ev.evid } := by
    rw [rmHandler, hother]
    exact if_neg hfreed
  rw [hrun, Sender.rmStateRun_next hserving hawaits hanswered]
  rfl

theorem stale_withBusy (hans : s.meas.rm.Answered air .measTimerExpire)
    (hnone : .busyTimerExpire ∉ s.tokens) :
    SameBut n (s.handled air .measTimerExpire) ((s.withBusy n).handled air .measTimerExpire) := by
  cases hstate : s.meas.rm.state with
  | doMeas => exact absurd rfl (hans.timely hstate)
  | ended =>
    have hother : (s.withBusy n).meas.rm.state = .ended := hstate
    rw [handled_eq hstate, handled_eq hother]
    refine .inr ⟨rfl, fun hmem => hnone ?_⟩
    have hsplit : RmEv.busyTimerExpire ∈ mains s.meas.posted ++ mains s.cmds ++
        s.meas.surveys.map (fun _ => RmEv.surveyDone) ++ [] := hmem
    rw [List.append_nil] at hsplit
    exact List.mem_append_left _ hsplit
  | _ =>
    have hother := (rfl : (s.withBusy n).meas.rm.state = s.meas.rm.state).trans hstate
    rw [handled_eq hstate, handled_eq hother]
    exact .inr ⟨rfl, hnone⟩

theorem SameBut.handle (h : s.Inv r) (hserves : s.Serves (.handle air))
    (hnone : .busyTimerExpire ∉ s.tokens) :
    SameBut n (s.rmHandler air) ((s.withBusy n).rmHandler air) := by
  cases hposted : s.meas.posted with
  | nil =>
    have hother : (s.withBusy n).meas.posted = [] := hposted
    rw [rmHandler, rmHandler, hposted, hother]
    exact .inr ⟨rfl, hnone⟩
  | cons ev rest =>
    have hother : (s.withBusy n).meas.posted = ev :: rest := hposted
    have hpop := popped_tokens hposted
    rw [hpop, List.mem_append, not_or] at hnone
    cases h with
    | inr hgone =>
      have hrun : s.rmHandler air = s.popped rest := by
        rw [rmHandler, hposted]
        exact if_pos hgone.freed
      have hrun' : (s.withBusy n).rmHandler air = (s.popped rest).withBusy n := by
        rw [rmHandler, hother]
        exact if_pos hgone.freed
      rw [hrun, hrun']
      exact .inr ⟨rfl, hnone.2⟩
    | inl halive =>
      have hans := halive.answered hserves hposted
      obtain ⟨hrun, hhead⟩ := halive.handles hserves hposted
      have hevid : ev.evid ≠ .busyTimerExpire := by
        intro hbusy
        apply hnone.1
        rw [mains_cons_main (hbusy ▸ RmEv.noConfusion), hbusy]
        exact List.mem_cons_self
      rw [hrun]
      cases hhead with
      | inl hstale =>
        obtain ⟨htimer, hkept⟩ := hstale
        rw [halive.withBusy_handles hserves hposted hevid (.inr htimer), htimer]
        exact stale_withBusy (s := s.popped rest) (htimer ▸ hans) hnone.2
      | inr hmain =>
        rw [halive.withBusy_handles hserves hposted hevid (.inl hmain.2)]
        exact hmain.1.handled_withBusy hmain.2 hans hevid

theorem command_tokens (s : Slave) (alloc : Bool) :
    ∀ evid ∈ (s.rmPostEventHdl alloc).tokens, evid ∈ s.tokens := by
  cases hcmds : s.cmds with
  | nil =>
    rw [rmPostEventHdl, hcmds]
    exact fun _ => id
  | cons ev rest =>
    have hsplit : mains s.cmds = mains [ev] ++ mains rest := by
      rw [hcmds, ← mains_append]
      rfl
    rw [rmPostEventHdl, hcmds]
    intro evid hmem
    rw [tokens, hsplit]
    cases alloc with
    | true =>
      have hmoved : evid ∈ mains (s.meas.posted ++ [ev]) ++ mains rest ++
        s.meas.surveys.map (fun _ => RmEv.surveyDone) ++ s.meas.clock.mains := hmem
      rw [mains_append] at hmoved
      simpa only [List.mem_append, or_assoc] using hmoved
    | false =>
      have hmoved : evid ∈ mains s.meas.posted ++ mains rest ++
        s.meas.surveys.map (fun _ => RmEv.surveyDone) ++ s.meas.clock.mains := hmem
      simp only [List.mem_append, or_assoc] at hmoved ⊢
      rcases hmoved with h | h | h
      · exact .inl h
      · exact .inr (.inr (.inl h))
      · exact .inr (.inr (.inr h))

theorem survey_tokens (s : Slave) (alloc : Bool) :
    ∀ evid ∈ (s.surveyDone alloc).tokens, evid ∈ s.tokens := by
  cases hsurveys : s.meas.surveys with
  | nil =>
    rw [Slave.surveyDone, hsurveys]
    exact fun _ => id
  | cons token rest =>
    have hdone : mains [⟨token, .surveyDone⟩] = [.surveyDone] := rfl
    rw [Slave.surveyDone, hsurveys]
    intro evid hmem
    rw [tokens, hsurveys, List.map_cons]
    cases alloc with
    | true =>
      have hmoved : evid ∈ mains s.meas.posted ++ mains (s.cmds ++ [⟨token, .surveyDone⟩]) ++
        rest.map (fun _ => RmEv.surveyDone) ++ s.meas.clock.mains := hmem
      rw [mains_append, hdone] at hmoved
      simpa only [List.mem_append, List.mem_cons, List.not_mem_nil, false_or, or_assoc] using hmoved
    | false =>
      have hmoved : evid ∈ mains s.meas.posted ++ mains s.cmds ++
        rest.map (fun _ => RmEv.surveyDone) ++ s.meas.clock.mains := hmem
      simp only [List.mem_append, List.mem_cons, or_assoc] at hmoved ⊢
      rcases hmoved with h | h | h
      · exact .inl h
      · exact .inr (.inl h)
      · exact .inr (.inr (.inr h))

theorem SameBut.step {t : Slave} (ht : SameBut n s t) (h : s.Inv r) {e : SlaveEv}
    (hserves : s.Serves e) : SameBut n (s.step e) (t.step e) := by
  cases ht with
  | inl hsame =>
    rw [hsame]
    exact .inl rfl
  | inr hother =>
    obtain ⟨rfl, hnone⟩ := hother
    cases e with
    | handle air => exact SameBut.handle h hserves hnone
    | command alloc =>
      refine .inr ⟨?_, fun hmem => hnone (command_tokens s alloc _ hmem)⟩
      show (s.withBusy n).rmPostEventHdl alloc = (s.rmPostEventHdl alloc).withBusy n
      cases hcmds : s.cmds with
      | nil =>
        have hcmds' : (s.withBusy n).cmds = [] := hcmds
        rw [rmPostEventHdl, rmPostEventHdl, hcmds, hcmds']
      | cons ev rest =>
        have hcmds' : (s.withBusy n).cmds = ev :: rest := hcmds
        rw [rmPostEventHdl, rmPostEventHdl, hcmds, hcmds']
        cases alloc <;> rfl
    | tick alloc =>
      refine .inr ⟨?_, fun hmem => hnone ((tick_tokens hserves).subset hmem)⟩
      show (s.withBusy n).rmTimerCallback alloc = (s.rmTimerCallback alloc).withBusy n
      have hclock : (s.withBusy n).meas.clock = s.meas.clock := rfl
      rw [rmTimerCallback, rmTimerCallback, hclock]
      split
      · rfl
      · dsimp only
        split <;> rfl
    | surveyDone alloc =>
      refine .inr ⟨?_, fun hmem => hnone (survey_tokens s alloc _ hmem)⟩
      show (s.withBusy n).surveyDone alloc = (s.surveyDone alloc).withBusy n
      cases hsurveys : s.meas.surveys with
      | nil =>
        have hsurveys' : (s.withBusy n).meas.surveys = [] := hsurveys
        rw [Slave.surveyDone, Slave.surveyDone, hsurveys, hsurveys']
      | cons token rest =>
        have hsurveys' : (s.withBusy n).meas.surveys = token :: rest := hsurveys
        rw [Slave.surveyDone, Slave.surveyDone, hsurveys, hsurveys']
        cases alloc <;> rfl

end Busy

def AtRest (s : Slave) : Prop := ∀ e, s.acts e = 0

structure Repeated (r : SlaveRequest) (s : Slave) : Prop where
  once : s.meas.fault = false
  atMost : s.reports ≤ r.new.q.rpt.toNat + 1
  refusals : s.refusals = 0
  served : s.meas.freed = true → s.reports = r.new.q.rpt.toNat + 1
  rest : s.AtRest → s.meas.freed = true
  busy : s.meas.freed = false → s.meas.rm.state ≠ .doMeas → ∀ n es, Run.Each step Serves s es →
    ∃ k, Run.exec step (s.withBusy n) es = (Run.exec step s es).withBusy k

section Law

variable {r : SlaveRequest} {s : Slave}

theorem Alive.notAtRest (h : s.Alive r) : ¬ s.AtRest := by
  intro hrest
  obtain ⟨evid, -, htokens⟩ := h.token
  have hposted : s.meas.posted = [] := by
    have hzero := hrest (.handle ⟨⟨0, false, false, false⟩, 0, 0⟩)
    rw [acts] at hzero
    exact List.eq_nil_of_length_eq_zero (by omega)
  have hcmds : s.cmds = [] := by
    have hzero := hrest (.command true)
    rw [acts] at hzero
    exact List.eq_nil_of_length_eq_zero (by omega)
  have hsurveys : s.meas.surveys = [] := by
    have hzero := hrest (.surveyDone true)
    rw [acts] at hzero
    exact List.eq_nil_of_length_eq_zero (by omega)
  have hclock : s.meas.clock.mains = [] := by
    have hzero := hrest (.tick true)
    rw [acts] at hzero
    exact if_neg fun hon => by omega
  rw [tokens, hposted, hcmds, hsurveys, hclock] at htokens
  cases htokens

theorem Alive.notBusy (h : s.Alive r) (hstate : s.meas.rm.state ≠ .doMeas) :
    .busyTimerExpire ∉ s.tokens := by
  obtain ⟨evid, hawaits, htokens⟩ := h.token
  rw [htokens, List.mem_singleton]
  rintro rfl
  obtain ⟨-, hev⟩ | ⟨-, hev⟩ | ⟨-, hev⟩ | ⟨hdo, -⟩ := RmState.awaits_cases hawaits
  · cases hev
  · cases hev
  · cases hev
  · exact hstate hdo

theorem sameBut_run {n : ℤ} {t : Slave} (ht : SameBut n s t) (h : s.Inv r) {es : List SlaveEv}
    (hserves : Run.Each step Serves s es) :
    SameBut n (Run.exec step s es) (Run.exec step t es) := by
  induction es generalizing s t with
  | nil => exact ht
  | cons e es ih => exact ih (ht.step h hserves.1) (h.step hserves.1) hserves.2

theorem Inv.repeated (h : s.Inv r) : s.Repeated r where
  once := by
    cases h with
    | inl halive => exact halive.fault
    | inr hgone => exact hgone.fault
  atMost := by
    cases h with
    | inl halive =>
      have hcounted := halive.counted
      omega
    | inr hgone => exact hgone.reports.le
  refusals := by
    cases h with
    | inl halive => exact halive.refusals
    | inr hgone => exact hgone.refusals
  served := by
    intro hfreed
    cases h with
    | inl halive => exact absurd (halive.serving.alive.symm.trans hfreed) Bool.false_ne_true
    | inr hgone => exact hgone.reports
  rest := by
    intro hrest
    cases h with
    | inl halive => exact absurd hrest halive.notAtRest
    | inr hgone => exact hgone.freed
  busy := by
    intro hfreed hstate n es hserves
    cases h with
    | inr hgone => exact absurd (hfreed.symm.trans hgone.freed) Bool.false_ne_true
    | inl halive =>
      have hstart : SameBut n s (s.withBusy n) := .inr ⟨rfl, halive.notBusy hstate⟩
      cases sameBut_run hstart (.inl halive) hserves with
      | inl hsame => exact ⟨_, hsame⟩
      | inr hother => exact ⟨n, hother.1⟩

theorem repetition_law (r : SlaveRequest) (p : ℕ) (pclock : Fin rmTimerNum) (es : List SlaveEv)
    (hserves : Run.Each step Serves (enqueued r.new p pclock) es) :
    (Run.exec step (enqueued r.new p pclock) es).Repeated r ∧
      Run.total step acts (enqueued r.new p pclock) es ≤
        3800 * (r.new.q.rpt.toNat + 1) + 3 +
          1225 * Run.total step unmet (enqueued r.new p pclock) es := by
  have hinit := enqueued_inv r p pclock
  have hinv := Run.each_invariant step Serves (Inv r) (fun _ _ h hs => h.step hs) hinit hserves
  have hbound := Run.potential_bound step Serves (Inv r) potential acts
    (fun s e => 1225 * s.unmet e) (fun _ _ h hs => pays h hs) (fun _ _ h hs => h.step hs) hinit
    hserves
  have hpotential : (enqueued r.new p pclock).potential =
      3800 * (r.new.q.rpt.toNat + 1) + 0 + (0 + (2 + 0 + 1) + 0) + 0 := rfl
  rw [Run.total_mul, hpotential] at hbound
  exact ⟨hinv.repeated, by omega⟩

instance (rm : RmObj) (air : Air) (evid : RmEv) : Decidable (rm.Answered air evid) :=
  decidable_of_iff ((rm.posts air evid = true → air.alloc = true) ∧
    (rm.state = .doMeas → evid ≠ .measTimerExpire) ∧
    (rm.state = .idle → rm.q.mType ≠ bcnReq → rm.q.chNum = air.curChannel) ∧
    (rm.state = .doMeas → evid = .busyTimerExpire → 0 < rm.waitBusy) ∧
    (rm.state = .doMeas → evid = .surveyDone → rm.q.mType = bcnReq → 0 < air.pktNum) ∧
    (rm.state = .doMeas → evid = .surveyDone → rm.reported air = true → 0 < air.mgtFrames))
    ⟨fun ⟨h₁, h₂, h₃, h₄, h₅, h₆⟩ => ⟨h₁, h₂, h₃, h₄, h₅, h₆⟩,
      fun ⟨h₁, h₂, h₃, h₄, h₅, h₆⟩ => ⟨h₁, h₂, h₃, h₄, h₅, h₆⟩⟩

instance decidableServes (s : Slave) : (e : SlaveEv) → Decidable (s.Serves e)
  | .handle air => inferInstanceAs (Decidable (∀ ev ∈ s.meas.posted.head?, s.meas.freed = false →
      s.meas.rm.Answered air ev.evid))
  | .command alloc =>
    inferInstanceAs (Decidable (s.cmds ≠ [] → s.meas.freed = false → alloc = true))
  | .tick alloc => inferInstanceAs (Decidable (s.meas.clock.counter = 1 →
      s.meas.clock.evid ≠ .measTimerExpire → alloc = true))
  | .surveyDone alloc => inferInstanceAs (Decidable (s.meas.surveys ≠ [] → alloc = true))

def beaconSlave : SlaveRequest where
  new := RmPriv.beaconRequest
  slave := rfl
  token := by decide
  radio := rfl
  measured := .inl rfl

def clearAir : Air := ⟨⟨1, true, true, true⟩, 1, 8⟩

def busyAir : Air := ⟨⟨1, false, true, true⟩, 1, 8⟩

def oneReport : List SlaveEv :=
  [.command true, .handle clearAir, .handle clearAir, .surveyDone true, .command true,
    .handle clearAir, .handle clearAir]

def busyCheck : List SlaveEv :=
  List.replicate 100 (.tick true) ++ [.command true, .handle busyAir]

def alwaysBusy : List SlaveEv :=
  [.command true, .handle busyAir] ++ ((List.replicate 10 busyCheck).flatten ++
    (busyCheck ++ [.handle busyAir]))

theorem repetition_law_beacon :
    (Run.exec step (enqueued beaconSlave.new 0 RmPriv.lastClock) oneReport).Repeated beaconSlave ∧
      Run.total step acts (enqueued beaconSlave.new 0 RmPriv.lastClock) oneReport ≤
        3800 * (beaconSlave.new.q.rpt.toNat + 1) + 3 +
          1225 * Run.total step unmet (enqueued beaconSlave.new 0 RmPriv.lastClock) oneReport :=
  repetition_law beaconSlave 0 RmPriv.lastClock oneReport (by decide +kernel)

def waiting (n : ℕ) : Slave :=
  Run.exec step (enqueued beaconSlave.new 0 RmPriv.lastClock) [.command true, .handle busyAir]
    |>.withBusy n

theorem busyCheck_waits :
    ∀ n : Fin 10, Run.exec step (waiting (n + 1)) busyCheck = waiting n := by
  decide +kernel

theorem busyChecks_wait (n : ℕ) (hn : n ≤ 10) :
    Run.exec step (waiting n) (List.replicate n busyCheck).flatten = waiting 0 := by
  induction n with
  | zero => rfl
  | succ n ih =>
    have hcheck := busyCheck_waits ⟨n, hn⟩
    rw [List.replicate_succ, List.flatten_cons, Run.exec, List.foldl_append]
    rw [Run.exec] at hcheck
    rw [hcheck]
    exact ih (Nat.le_of_succ_le hn)

theorem busy_gives_up_silently :
    ∃ s, s = Run.exec step (enqueued beaconSlave.new 0 RmPriv.lastClock) alwaysBusy ∧
      s.meas.freed = true ∧ s.reports = 0 ∧ s.refusals = 0 := by
  have hstart : Run.exec step (enqueued beaconSlave.new 0 RmPriv.lastClock)
      [.command true, .handle busyAir] = waiting 10 := by
    decide +kernel
  have hchecks := busyChecks_wait 10 (Nat.le_refl 10)
  have hlast : ∃ s, s = Run.exec step (waiting 0) (busyCheck ++ [.handle busyAir]) ∧
      s.meas.freed = true ∧ s.reports = 0 ∧ s.refusals = 0 := ⟨_, rfl, by decide +kernel⟩
  obtain ⟨s, hs, hend⟩ := hlast
  refine ⟨s, ?_, hend⟩
  rw [Run.exec] at hstart hchecks hs
  rw [alwaysBusy, Run.exec, List.foldl_append, List.foldl_append, hstart, hchecks]
  exact hs

end Law

end Slave

end Rm
