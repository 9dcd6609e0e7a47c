import Mathlib.Data.List.Count
import Rtl8188fu.Lib.Run

namespace Ap.Expiry

inductive StaEvent where
  | rxCounted
  | rxUncounted
  | fullReset
  | probeFailed
  | probeAcked
deriving DecidableEq

-- log is a ghost, newest first: no function of the model reads it
structure ExpireSta where
  addr : ℕ
  rxDataPkts : ℕ
  rxCtrlPkts : ℕ
  lastRxDataPkts : ℕ
  lastRxCtrlPkts : ℕ
  expireTo : ℕ
  keepAliveTrycnt : ℕ
  asocState : Bool
  sleepState : Bool
  aliveChkState : Bool
  sleepqLen : ℕ
  mgmtSleepqLen : ℕ
  log : List StaEvent
deriving DecidableEq

structure ExpireCfg where
  expireTo : ℕ
  authTo : ℕ
  wifiSpec : Bool
  activeKeepAliveCheck : Bool

structure TickEnv where
  underCac : Bool
  freeXmitframeCnt : ℕ → ℕ
  freeXframeExtCnt : ℕ → ℕ
  acked : ℕ → Bool

structure ExpireState where
  authList : List ExpireSta
  asocList : List ExpireSta

def nrXmitframe : ℕ := 256

def nrXmitExtbuff : ℕ := 64

namespace ExpireSta

variable (s : ExpireSta)

def note (e : StaEvent) : ExpireSta := { s with log := e :: s.log }

def resetExpire (cfg : ExpireCfg) : ExpireSta := { s with expireTo := cfg.expireTo }.note .fullReset

def chkStaIsAlive : Bool :=
  s.lastRxDataPkts + s.lastRxCtrlPkts != s.rxDataPkts + s.rxCtrlPkts

def updateLastRxPkts : ExpireSta :=
  { s with lastRxDataPkts := s.rxDataPkts, lastRxCtrlPkts := s.rxCtrlPkts }

def clearAliveChk (cfg : ExpireCfg) : ExpireSta :=
  if s.aliveChkState then { s with aliveChkState := false }.resetExpire cfg else s

def wakeupStaToXmit (cfg : ExpireCfg) : ExpireSta :=
  { s with sleepqLen := 0, mgmtSleepqLen := 0, sleepState := false }.clearAliveChk cfg

def processPwrbitData (cfg : ExpireCfg) (pwrbit : Bool) : ExpireSta :=
  if pwrbit then { s with sleepState := true }
  else if s.sleepState then s.wakeupStaToXmit cfg
  else s

def rxData (cfg : ExpireCfg) (pwrbit counted : Bool) : ExpireSta :=
  let s := s.processPwrbitData cfg pwrbit
  if counted then { s with rxDataPkts := s.rxDataPkts + 1 }.note .rxCounted
  else s.note .rxUncounted

def rxCtrl (cfg : ExpireCfg) (pspoll : Bool) : ExpireSta :=
  let s := { s with rxCtrlPkts := s.rxCtrlPkts + 1 }.note .rxCounted
  if pspoll then s.clearAliveChk cfg else s

def rxMgmt (cfg : ExpireCfg) (addbaRsp : Bool) : ExpireSta :=
  let s := s.note .rxUncounted
  if addbaRsp then s.clearAliveChk cfg else s

end ExpireSta

structure Flush where
  mgmt : Bool
  data : Bool
deriving DecidableEq

structure Visit where
  sta : ExpireSta
  flush : Flush
  probe : Bool
  flushed : Bool

def mgmtShort (env : TickEnv) (cnt k : ℕ) (s : ExpireSta) : Bool :=
  decide (nrXmitExtbuff / cnt ≤ s.mgmtSleepqLen ∧
    env.freeXframeExtCnt k < nrXmitExtbuff / cnt / 2)

def dataShort (env : TickEnv) (cnt k : ℕ) (s : ExpireSta) : Bool :=
  decide (nrXmitframe / cnt ≤ s.sleepqLen ∧ env.freeXmitframeCnt k < nrXmitframe / cnt / 2)

variable (cfg : ExpireCfg) (env : TickEnv)

def countDown (s : ExpireSta) : ExpireSta :=
  let alive := s.chkStaIsAlive
  let s := s.updateLastRxPkts
  if alive || s.expireTo == 0 then { s.resetExpire cfg with keepAliveTrycnt := 0 }
  else { s with expireTo := s.expireTo - 1 }

-- the two flush flags are set for one station and never cleared for the next
def visit (cnt k : ℕ) (flush : Flush) (s : ExpireSta) : Visit :=
  let s := countDown cfg s
  if s.expireTo = 0 then
    if cfg.wifiSpec then ⟨s.resetExpire cfg, flush, false, false⟩
    else if s.sleepState && !s.aliveChkState then
      ⟨{ s.resetExpire cfg with aliveChkState := true }, flush, cfg.activeKeepAliveCheck, false⟩
    else ⟨s, flush, true, false⟩
  else
    let flush : Flush :=
      ⟨flush.mgmt || mgmtShort env cnt k s, flush.data || dataShort env cnt k s⟩
    if flush.data || flush.mgmt then ⟨s.wakeupStaToXmit cfg, flush, false, true⟩
    else ⟨s, flush, false, false⟩

def walk (cnt : ℕ) : ℕ → Flush → List ExpireSta → List Visit
  | _, _, [] => []
  | k, flush, s :: ss =>
    let v := visit cfg env cnt k flush s
    v :: walk cnt (k + 1) v.flush ss

inductive Checked where
  | kept (s : ExpireSta)
  | removed (s : ExpireSta)

def checkAlive (acked : Bool) (s : ExpireSta) : Checked :=
  if !s.asocState then .kept s
  else if cfg.activeKeepAliveCheck then
    let s := { s with keepAliveTrycnt := (s.keepAliveTrycnt + 1) % 256 }
    if acked then .kept { (s.note .probeAcked).resetExpire cfg with keepAliveTrycnt := 0 }
    else if s.keepAliveTrycnt ≤ 3 then .kept { s.note .probeFailed with expireTo := 1 }
    else .removed (s.note .probeFailed)
  else .removed s

def check : ℕ → List Visit → List Checked
  | _, [] => []
  | k, v :: vs =>
    if v.probe then checkAlive cfg (env.acked k) v.sta :: check (k + 1) vs
    else .kept v.sta :: check k vs

def Checked.keptSta : Checked → Option ExpireSta
  | kept s => some s
  | removed _ => none

def Checked.removedSta : Checked → Option ExpireSta
  | kept _ => none
  | removed s => some s

def authTick (s : ExpireSta) : Option ExpireSta :=
  if 0 < s.expireTo then
    if s.expireTo - 1 = 0 then none else some { s with expireTo := s.expireTo - 1 }
  else some s

structure Tick where
  after : ExpireState
  visits : List Visit
  removed : List ExpireSta

def expireTimeoutChk (st : ExpireState) : Tick :=
  if env.underCac then ⟨st, [], []⟩
  else
    let visits := walk cfg env st.asocList.length 0 ⟨false, false⟩ st.asocList
    let checked := check cfg env 0 visits
    { after := ⟨st.authList.filterMap authTick, checked.filterMap Checked.keptSta⟩
      visits := visits
      removed := checked.filterMap Checked.removedSta }

inductive ApEvent where
  | tick (env : TickEnv)
  | auth (addr : ℕ) (fresh : Bool)
  | assoc (addr : ℕ)
  | leave (addr : ℕ)
  | rxData (addr : ℕ) (pwrbit counted : Bool)
  | rxCtrl (addr : ℕ) (pspoll : Bool)
  | rxMgmt (addr : ℕ) (addbaRsp : Bool)
  | queues (addr sleepqLen mgmtSleepqLen : ℕ)
  | informChSwitch

namespace ExpireState

variable (st : ExpireState)

def onSta (addr : ℕ) (f : ExpireSta → ExpireSta) : ExpireState :=
  let g := fun s => if s.addr = addr then f s else s
  ⟨st.authList.map g, st.asocList.map g⟩

def newSta (addr : ℕ) : ExpireSta where
  addr := addr
  rxDataPkts := 0
  rxCtrlPkts := 0
  lastRxDataPkts := 0
  lastRxCtrlPkts := 0
  expireTo := 0
  keepAliveTrycnt := 0
  asocState := false
  sleepState := false
  aliveChkState := false
  sleepqLen := 0
  mgmtSleepqLen := 0
  log := []

def ofAddr (addr : ℕ) (ss : List ExpireSta) : List ExpireSta := ss.filter (·.addr == addr)

def without (addr : ℕ) (ss : List ExpireSta) : List ExpireSta := ss.filter (·.addr != addr)

def known (addr : ℕ) : List ExpireSta :=
  match ofAddr addr st.authList ++ ofAddr addr st.asocList with
  | [] => [newSta addr]
  | ss => ss

def toAuth (fresh : Bool) (s : ExpireSta) : ExpireSta :=
  let s := s.note .rxUncounted
  if fresh then { s with expireTo := cfg.authTo } else s

-- a station that is known keeps its stainfo, keep_alive_trycnt included
def auth (addr : ℕ) (fresh : Bool) : ExpireState :=
  ⟨without addr st.authList ++ (st.known addr).map (toAuth cfg fresh), without addr st.asocList⟩

def toAsoc (s : ExpireSta) : ExpireSta :=
  { (s.note .rxUncounted).resetExpire cfg with asocState := true }

def assoc (addr : ℕ) : ExpireState :=
  ⟨without addr st.authList, st.asocList ++ (ofAddr addr st.authList).map (toAsoc cfg)⟩

def leave (addr : ℕ) : ExpireState := ⟨without addr st.authList, without addr st.asocList⟩

def informChSwitch : ExpireState :=
  let expireTo := if 5 < cfg.expireTo * 2 then 5 else cfg.expireTo * 2
  { st with asocList := st.asocList.map fun s => { s with expireTo := expireTo } }

end ExpireState

def apStep (st : ExpireState) : ApEvent → ExpireState
  | .tick env => (expireTimeoutChk cfg env st).after
  | .auth addr fresh => st.auth cfg addr fresh
  | .assoc addr => st.assoc cfg addr
  | .leave addr => st.leave addr
  | .rxData addr pwrbit counted => st.onSta addr fun s => s.rxData cfg pwrbit counted
  | .rxCtrl addr pspoll => st.onSta addr fun s => s.rxCtrl cfg pspoll
  | .rxMgmt addr addbaRsp => st.onSta addr fun s => s.rxMgmt cfg addbaRsp
  | .queues addr n m => st.onSta addr fun s => { s with sleepqLen := n, mgmtSleepqLen := m }
  | .informChSwitch => st.informChSwitch cfg

def apRun (es : List ApEvent) : ExpireState := Run.exec (apStep cfg) ⟨[], []⟩ es

end Ap.Expiry

namespace Ap.Expiry

def sinceReset (log : List StaEvent) : List StaEvent := log.takeWhile (· != .fullReset)

def sinceHeard (log : List StaEvent) : List StaEvent :=
  log.takeWhile fun e => e != .rxCounted && e != .probeAcked

def Quiet (log : List StaEvent) : Prop := .rxCounted ∉ sinceReset log

def failedProbes (log : List StaEvent) : ℕ := (sinceHeard log).count .probeFailed

structure Accounted (s : ExpireSta) : Prop where
  behind : s.lastRxDataPkts + s.lastRxCtrlPkts ≤ s.rxDataPkts + s.rxCtrlPkts
  quiet : s.chkStaIsAlive = false → Quiet s.log
  tries : s.chkStaIsAlive = false → s.keepAliveTrycnt ≤ failedProbes s.log

section Log

variable {log : List StaEvent} {e : StaEvent}

theorem quiet_fullReset : Quiet (.fullReset :: log) := by
  simp [Quiet, sinceReset]

theorem quiet_cons (he : e ≠ .rxCounted) (h : Quiet log) : Quiet (e :: log) := by
  rw [Quiet, sinceReset, List.takeWhile_cons]
  split
  · exact fun hmem => (List.mem_cons.mp hmem).elim (fun heq => he heq.symm) h
  · exact List.not_mem_nil

theorem failedProbes_failed : failedProbes (.probeFailed :: log) = failedProbes log + 1 := by
  simp [failedProbes, sinceHeard]

theorem failedProbes_other (hheard : e ≠ .rxCounted) (hacked : e ≠ .probeAcked)
    (hfailed : e ≠ .probeFailed) : failedProbes (e :: log) = failedProbes log := by
  simp [failedProbes, sinceHeard, hheard, hacked, hfailed]

end Log

namespace Accounted

variable {cfg : ExpireCfg} {s : ExpireSta}

theorem note_plain {e : StaEvent} (h : Accounted s) (hheard : e ≠ .rxCounted)
    (hacked : e ≠ .probeAcked) (hfailed : e ≠ .probeFailed) : Accounted (s.note e) where
  behind := h.behind
  quiet hidle := quiet_cons hheard (h.quiet hidle)
  tries hidle := by
    rw [ExpireSta.note, failedProbes_other hheard hacked hfailed]
    exact h.tries hidle

theorem resetExpire (h : Accounted s) : Accounted (s.resetExpire cfg) :=
  ⟨h.behind, fun _ => quiet_fullReset, (h.note_plain (e := .fullReset) (by decide) (by decide) (by decide)).tries⟩

theorem clearAliveChk (h : Accounted s) : Accounted (s.clearAliveChk cfg) := by
  rw [ExpireSta.clearAliveChk]
  split
  · have hcleared : Accounted { s with aliveChkState := false } := ⟨h.behind, h.quiet, h.tries⟩
    exact hcleared.resetExpire
  · exact h

theorem wakeup (h : Accounted s) : Accounted (s.wakeupStaToXmit cfg) := by
  have hemptied : Accounted { s with sleepqLen := 0, mgmtSleepqLen := 0, sleepState := false } :=
    ⟨h.behind, h.quiet, h.tries⟩
  exact hemptied.clearAliveChk

theorem of_heard (h : s.lastRxDataPkts + s.lastRxCtrlPkts < s.rxDataPkts + s.rxCtrlPkts) :
    Accounted s := by
  have halive : ¬ s.chkStaIsAlive = false := by
    rw [ExpireSta.chkStaIsAlive, bne_eq_false_iff_eq]
    exact Nat.ne_of_lt h
  exact ⟨Nat.le_of_lt h, fun hno => absurd hno halive, fun hno => absurd hno halive⟩

theorem processPwrbitData (h : Accounted s) (pwrbit : Bool) :
    Accounted (s.processPwrbitData cfg pwrbit) := by
  rw [ExpireSta.processPwrbitData]
  split
  · exact ⟨h.behind, h.quiet, h.tries⟩
  · split
    · exact h.wakeup
    · exact h

theorem rxData (h : Accounted s) (pwrbit counted : Bool) :
    Accounted (s.rxData cfg pwrbit counted) := by
  have hpower : Accounted (s.processPwrbitData cfg pwrbit) := h.processPwrbitData pwrbit
  rw [ExpireSta.rxData]
  split
  · refine of_heard ?_
    have hbehind := hpower.behind
    simp only [ExpireSta.note]
    omega
  · exact hpower.note_plain (by decide) (by decide) (by decide)

theorem rxCtrl (h : Accounted s) (pspoll : Bool) : Accounted (s.rxCtrl cfg pspoll) := by
  have hcounted : Accounted ({ s with rxCtrlPkts := s.rxCtrlPkts + 1 }.note .rxCounted) := by
    refine of_heard ?_
    have hbehind := h.behind
    simp only [ExpireSta.note]
    omega
  rw [ExpireSta.rxCtrl]
  split
  · exact hcounted.clearAliveChk
  · exact hcounted

theorem rxMgmt (h : Accounted s) (addbaRsp : Bool) : Accounted (s.rxMgmt cfg addbaRsp) := by
  have hnoted : Accounted (s.note .rxUncounted) := h.note_plain (by decide) (by decide) (by decide)
  rw [ExpireSta.rxMgmt]
  split
  · exact hnoted.clearAliveChk
  · exact hnoted

theorem countDown (h : Accounted s) :
    Accounted (countDown cfg s) ∧ (Expiry.countDown cfg s).chkStaIsAlive = false := by
  rw [Expiry.countDown]
  dsimp only
  split
  · refine ⟨⟨Nat.le_refl _, fun _ => quiet_fullReset, fun _ => Nat.zero_le _⟩, ?_⟩
    exact bne_self_eq_false _
  · rename_i hidle
    have hdead : s.chkStaIsAlive = false := by
      rw [Bool.or_eq_true, not_or, Bool.not_eq_true] at hidle
      exact hidle.1
    refine ⟨⟨Nat.le_refl _, fun _ => h.quiet hdead, fun _ => h.tries hdead⟩, ?_⟩
    exact bne_self_eq_false _

end Accounted

structure Settled (s : ExpireSta) : Prop where
  accounted : Accounted s
  idle : s.chkStaIsAlive = false

section Ticks

variable {cfg : ExpireCfg} {env : TickEnv} {s : ExpireSta} {ss : List ExpireSta}

theorem visit_settled (cnt k : ℕ) (flush : Flush) (h : Accounted s) :
    Settled (visit cfg env cnt k flush s).sta := by
  obtain ⟨hacc, hidle⟩ : Accounted (Expiry.countDown cfg s) ∧
      (Expiry.countDown cfg s).chkStaIsAlive = false := h.countDown
  rw [visit]
  dsimp only
  split
  · split
    · exact ⟨hacc.resetExpire, hidle⟩
    · split
      · have hreset : Accounted ((countDown cfg s).resetExpire cfg) := hacc.resetExpire
        exact ⟨⟨hreset.behind, hreset.quiet, hreset.tries⟩, hidle⟩
      · exact ⟨hacc, hidle⟩
  · split
    · refine ⟨hacc.wakeup, ?_⟩
      rw [ExpireSta.wakeupStaToXmit, ExpireSta.clearAliveChk]
      split <;> exact hidle
    · exact ⟨hacc, hidle⟩

theorem walk_settled (cnt : ℕ) (h : ∀ s ∈ ss, Accounted s) (k : ℕ) (flush : Flush) :
    ∀ v ∈ walk cfg env cnt k flush ss, Settled v.sta := by
  induction ss generalizing k flush with
  | nil => exact fun v hv => absurd hv List.not_mem_nil
  | cons s ss ih =>
    intro v hv
    rw [walk] at hv
    cases hv with
    | head => exact visit_settled cnt k flush (h s List.mem_cons_self)
    | tail _ hv => exact ih (fun s hs => h s (List.mem_cons_of_mem _ hs)) _ _ v hv

structure Expired (cfg : ExpireCfg) (s : ExpireSta) : Prop where
  quiet : Quiet s.log
  probed : cfg.activeKeepAliveCheck = true → 3 < failedProbes s.log

def Checked.Fine (cfg : ExpireCfg) : Checked → Prop
  | kept s => Accounted s
  | removed s => Expired cfg s

theorem checkAlive_fine (acked : Bool) (h : Settled s) : (checkAlive cfg acked s).Fine cfg := by
  have hacc := h.accounted
  rw [checkAlive]
  split
  · exact hacc
  · split
    · have htries := hacc.tries h.idle
      have hwrap : (s.keepAliveTrycnt + 1) % 256 ≤ s.keepAliveTrycnt + 1 := Nat.mod_le _ _
      dsimp only
      split
      · exact ⟨hacc.behind, fun _ => quiet_fullReset, fun _ => Nat.zero_le _⟩
      · split
        · refine ⟨hacc.behind, fun _ => quiet_cons (by decide) (hacc.quiet h.idle), fun _ => ?_⟩
          simp only [ExpireSta.note, failedProbes_failed]
          omega
        · rename_i hmany
          refine ⟨quiet_cons (by decide) (hacc.quiet h.idle), fun _ => ?_⟩
          simp only [ExpireSta.note, failedProbes_failed] at hmany ⊢
          omega
    · rename_i hoff
      exact ⟨hacc.quiet h.idle, fun hon => absurd hon hoff⟩

theorem check_fine {vs : List Visit} (h : ∀ v ∈ vs, Settled v.sta) (k : ℕ) :
    ∀ c ∈ check cfg env k vs, c.Fine cfg := by
  induction vs generalizing k with
  | nil => exact fun c hc => absurd hc List.not_mem_nil
  | cons v vs ih =>
    have hv := h v List.mem_cons_self
    have hrest (k : ℕ) := ih (fun w hw => h w (List.mem_cons_of_mem _ hw)) k
    intro c hc
    rw [check] at hc
    split at hc
    · cases hc with
      | head => exact checkAlive_fine _ hv
      | tail _ hc => exact hrest _ c hc
    · cases hc with
      | head => exact hv.accounted
      | tail _ hc => exact hrest _ c hc

theorem authTick_accounted (h : Accounted s) : ∀ t ∈ authTick s, Accounted t := by
  intro t ht
  rw [authTick] at ht
  split at ht
  · split at ht
    · exact absurd ht (Option.not_mem_none t)
    · obtain rfl := Option.mem_some_iff.mp ht
      exact ⟨h.behind, h.quiet, h.tries⟩
  · obtain rfl := Option.mem_some_iff.mp ht
    exact h

end Ticks

structure Tracked (st : ExpireState) : Prop where
  auth : ∀ s ∈ st.authList, Accounted s
  asoc : ∀ s ∈ st.asocList, Accounted s

section Ticks

variable {cfg : ExpireCfg} {env : TickEnv} {st : ExpireState}

theorem tick_checked (h : Tracked st) :
    ∀ c ∈ check cfg env 0 (walk cfg env st.asocList.length 0 ⟨false, false⟩ st.asocList),
      c.Fine cfg :=
  check_fine (walk_settled _ h.asoc 0 _) 0

theorem tick_tracked (h : Tracked st) : Tracked (expireTimeoutChk cfg env st).after := by
  rw [expireTimeoutChk]
  split
  · exact h
  · constructor
    · intro s hs
      obtain ⟨t, ht, hst⟩ := List.mem_filterMap.mp hs
      exact authTick_accounted (h.auth t ht) s hst
    · intro s hs
      obtain ⟨c, hc, hcs⟩ := List.mem_filterMap.mp hs
      have hfine := tick_checked h c hc
      cases c with
      | kept t =>
        obtain rfl := Option.some_inj.mp hcs
        exact hfine
      | removed t => exact absurd hcs (Option.some_ne_none s).symm

theorem tick_removed (h : Tracked st) :
    ∀ s ∈ (expireTimeoutChk cfg env st).removed, Expired cfg s := by
  intro s hs
  rw [expireTimeoutChk] at hs
  split at hs
  · exact absurd hs List.not_mem_nil
  · obtain ⟨c, hc, hcs⟩ := List.mem_filterMap.mp hs
    have hfine := tick_checked h c hc
    cases c with
    | kept t => exact absurd hcs (Option.some_ne_none s).symm
    | removed t =>
      obtain rfl := Option.some_inj.mp hcs
      exact hfine

end Ticks

namespace Tracked

variable {cfg : ExpireCfg} {st : ExpireState} {addr : ℕ}

theorem of_ofAddr {ss : List ExpireSta} (h : ∀ s ∈ ss, Accounted s) :
    ∀ s ∈ ExpireState.ofAddr addr ss, Accounted s :=
  fun s hs => h s (List.mem_of_mem_filter hs)

theorem of_without {ss : List ExpireSta} (h : ∀ s ∈ ss, Accounted s) :
    ∀ s ∈ ExpireState.without addr ss, Accounted s :=
  fun s hs => h s (List.mem_of_mem_filter hs)

theorem of_map {ss : List ExpireSta} {f : ExpireSta → ExpireSta} (h : ∀ s ∈ ss, Accounted s)
    (hf : ∀ s, Accounted s → Accounted (f s)) : ∀ s ∈ ss.map f, Accounted s := by
  intro s hs
  obtain ⟨t, ht, rfl⟩ := List.mem_map.mp hs
  exact hf t (h t ht)

theorem of_append {ss ts : List ExpireSta} (h : ∀ s ∈ ss, Accounted s)
    (ht : ∀ s ∈ ts, Accounted s) : ∀ s ∈ ss ++ ts, Accounted s :=
  fun s hs => (List.mem_append.mp hs).elim (h s) (ht s)

theorem onSta (h : Tracked st) {f : ExpireSta → ExpireSta}
    (hf : ∀ s, Accounted s → Accounted (f s)) : Tracked (st.onSta addr f) := by
  have hg (s : ExpireSta) (hs : Accounted s) : Accounted (if s.addr = addr then f s else s) := by
    split
    · exact hf s hs
    · exact hs
  exact ⟨of_map h.auth hg, of_map h.asoc hg⟩

theorem newSta : Accounted (ExpireState.newSta addr) :=
  ⟨Nat.le_refl _, fun _ => List.not_mem_nil, fun _ => Nat.zero_le _⟩

theorem known (h : Tracked st) : ∀ s ∈ st.known addr, Accounted s := by
  intro s hs
  rw [ExpireState.known] at hs
  split at hs
  · obtain rfl := List.mem_singleton.mp hs
    exact newSta
  · exact of_append (of_ofAddr h.auth) (of_ofAddr h.asoc) s hs

theorem toAuth {fresh : Bool} {s : ExpireSta} (h : Accounted s) :
    Accounted (ExpireState.toAuth cfg fresh s) := by
  have hnoted : Accounted (s.note .rxUncounted) := h.note_plain (by decide) (by decide) (by decide)
  rw [ExpireState.toAuth]
  split
  · exact ⟨hnoted.behind, hnoted.quiet, hnoted.tries⟩
  · exact hnoted

theorem toAsoc {s : ExpireSta} (h : Accounted s) : Accounted (ExpireState.toAsoc cfg s) := by
  have hnoted : Accounted (s.note .rxUncounted) := h.note_plain (by decide) (by decide) (by decide)
  have hreset : Accounted ((s.note .rxUncounted).resetExpire cfg) := hnoted.resetExpire
  exact ⟨hreset.behind, hreset.quiet, hreset.tries⟩

theorem step (h : Tracked st) (e : ApEvent) : Tracked (apStep cfg st e) := by
  cases e with
  | tick env => exact tick_tracked h
  | auth addr fresh =>
    exact ⟨of_append (of_without h.auth) (of_map h.known fun _ => toAuth), of_without h.asoc⟩
  | assoc addr =>
    exact ⟨of_without h.auth, of_append h.asoc (of_map (of_ofAddr h.auth) fun _ => toAsoc)⟩
  | leave addr => exact ⟨of_without h.auth, of_without h.asoc⟩
  | rxData addr pwrbit counted => exact h.onSta fun _ hs => hs.rxData pwrbit counted
  | rxCtrl addr pspoll => exact h.onSta fun _ hs => hs.rxCtrl pspoll
  | rxMgmt addr addbaRsp => exact h.onSta fun _ hs => hs.rxMgmt addbaRsp
  | queues addr n m => exact h.onSta fun _ hs => ⟨hs.behind, hs.quiet, hs.tries⟩
  | informChSwitch =>
    exact ⟨h.auth, of_map h.asoc fun _ hs => ⟨hs.behind, hs.quiet, hs.tries⟩⟩

theorem run (cfg : ExpireCfg) (es : List ApEvent) : Tracked (apRun cfg es) :=
  Run.exec_invariant (apStep cfg) Tracked (fun _ e h => h.step e)
    ⟨fun _ hs => absurd hs List.not_mem_nil, fun _ hs => absurd hs List.not_mem_nil⟩ es

end Tracked

section Flushes

variable {cfg : ExpireCfg} {env : TickEnv} {s : ExpireSta} {ss : List ExpireSta}

def HoldsShare (env : TickEnv) (cnt k : ℕ) (s : ExpireSta) : Prop :=
  nrXmitExtbuff / cnt ≤ s.mgmtSleepqLen ∧ env.freeXframeExtCnt k < nrXmitExtbuff / cnt / 2 ∨
    nrXmitframe / cnt ≤ s.sleepqLen ∧ env.freeXmitframeCnt k < nrXmitframe / cnt / 2

def FirstFlushed (vs : List Visit) (k : ℕ) : Prop :=
  (vs[k]?.map Visit.flushed) = some true ∧ ∀ v ∈ vs.take k, v.flushed = false

theorem countDown_queues :
    (countDown cfg s).sleepqLen = s.sleepqLen ∧
      (countDown cfg s).mgmtSleepqLen = s.mgmtSleepqLen := by
  rw [countDown]
  dsimp only
  split <;> exact ⟨rfl, rfl⟩

theorem holdsShare_of_short {cnt k : ℕ}
    (h : (dataShort env cnt k (countDown cfg s) || mgmtShort env cnt k (countDown cfg s)) = true) :
    HoldsShare env cnt k s := by
  obtain ⟨hdata, hmgmt⟩ := @countDown_queues cfg s
  rw [dataShort, mgmtShort, hdata, hmgmt, Bool.or_eq_true, decide_eq_true_iff,
    decide_eq_true_iff] at h
  exact h.symm

theorem visit_flushed {cnt k : ℕ} (h : (visit cfg env cnt k ⟨false, false⟩ s).flushed = true) :
    HoldsShare env cnt k s := by
  rw [visit] at h
  dsimp only at h
  split at h
  · split at h
    · exact absurd h Bool.false_ne_true
    · split at h <;> exact absurd h Bool.false_ne_true
  · split at h
    · rename_i hshort
      exact holdsShare_of_short hshort
    · exact absurd h Bool.false_ne_true

theorem visit_unflushed {cnt k : ℕ} (h : (visit cfg env cnt k ⟨false, false⟩ s).flushed = false) :
    (visit cfg env cnt k ⟨false, false⟩ s).flush = ⟨false, false⟩ := by
  rw [visit] at h ⊢
  dsimp only at h ⊢
  split at h
  · rename_i hout
    rw [if_pos hout]
    split
    · rfl
    · split <;> rfl
  · rename_i hout
    rw [if_neg hout]
    split at h
    · exact absurd h.symm Bool.false_ne_true
    · rename_i hneither
      rw [if_neg hneither]
      rw [Bool.or_eq_true, not_or, Bool.not_eq_true, Bool.not_eq_true] at hneither
      exact congrArg₂ Flush.mk hneither.2 hneither.1

theorem walk_first {cnt k j : ℕ} (h : FirstFlushed (walk cfg env cnt j ⟨false, false⟩ ss) k) :
    ∃ s, ss[k]? = some s ∧ HoldsShare env cnt (j + k) s := by
  induction ss generalizing k j with
  | nil => exact absurd h.1 (Option.some_ne_none true).symm
  | cons s ss ih =>
    obtain ⟨hflushed, hbefore⟩ := h
    rw [walk] at hflushed hbefore
    cases k with
    | zero => exact ⟨s, rfl, visit_flushed (Option.some_inj.mp hflushed)⟩
    | succ k =>
      have hfirst := visit_unflushed (hbefore (visit cfg env cnt j ⟨false, false⟩ s) List.mem_cons_self)
      rw [hfirst] at hflushed hbefore
      obtain ⟨t, ht, hshare⟩ := ih (k := k) (j := j + 1)
        ⟨hflushed, fun v hv => hbefore v (List.mem_cons_of_mem _ hv)⟩
      refine ⟨t, ht, ?_⟩
      rw [Nat.add_right_comm] at hshare
      exact hshare

theorem tick_first {st : ExpireState} {k : ℕ}
    (h : FirstFlushed (expireTimeoutChk cfg env st).visits k) :
    ∃ s, st.asocList[k]? = some s ∧ HoldsShare env st.asocList.length k s := by
  rw [expireTimeoutChk] at h
  split at h
  · exact absurd h.1 (Option.some_ne_none true).symm
  · obtain ⟨s, hs, hshare⟩ := walk_first h
    rw [Nat.zero_add] at hshare
    exact ⟨s, hs, hshare⟩

end Flushes

theorem expiry_law (cfg : ExpireCfg) (es : List ApEvent) (env : TickEnv) :
    (∀ s ∈ (expireTimeoutChk cfg env (apRun cfg es)).removed, Expired cfg s) ∧
      ∀ k, FirstFlushed (expireTimeoutChk cfg env (apRun cfg es)).visits k →
        ∃ s, (apRun cfg es).asocList[k]? = some s ∧
          HoldsShare env (apRun cfg es).asocList.length k s :=
  ⟨tick_removed (Tracked.run cfg es), fun _ h => tick_first h⟩

def OverShare (cnt : ℕ) (s : ExpireSta) : Prop :=
  nrXmitExtbuff / cnt < s.mgmtSleepqLen ∨ nrXmitframe / cnt < s.sleepqLen

def deafEnv : TickEnv := ⟨false, fun _ => 0, fun _ => 64, fun _ => false⟩

def p2pCfg : ExpireCfg := ⟨3, 3, false, true⟩

def beaconingRun : List ApEvent :=
  [.auth 1 true, .assoc 1, .tick deafEnv, .rxMgmt 1 false, .tick deafEnv, .tick deafEnv,
    .tick deafEnv, .tick deafEnv]

def sharingRun : List ApEvent :=
  [.auth 1 true, .assoc 1, .auth 2 true, .assoc 2, .queues 1 128 0, .queues 2 128 0]

theorem management_frames_do_not_count :
    (∃ s ∈ (expireTimeoutChk p2pCfg deafEnv (apRun p2pCfg beaconingRun)).removed,
      .rxUncounted ∈ sinceReset s.log) ∧
    ∃ s, (apRun p2pCfg sharingRun).asocList[0]? = some s ∧
      ((expireTimeoutChk p2pCfg deafEnv (apRun p2pCfg sharingRun)).visits[0]?.map Visit.flushed
        = some true) ∧
      ¬ OverShare (apRun p2pCfg sharingRun).asocList.length s := by
  refine ⟨by decide +kernel, _, rfl, by decide +kernel, ?_⟩
  rintro (h | h)
  · exact absurd h (by decide +kernel)
  · exact absurd h (by decide +kernel)

end Ap.Expiry
