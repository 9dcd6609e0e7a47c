import Rtl8188fu.Rm.Clocks
import Rtl8188fu.Rm.LifetimeRuns
import Rtl8188fu.Rm.Progress
import Rtl8188fu.Rm.RoleLaw

namespace Rm

theorem token_of_rmid {aid role : UInt32} {token : UInt8}
    (h : aid <<< 16 ||| token.toUInt32 <<< 8 ||| role = 0) : token = 0 := by
  have hshift := (UInt32.or_eq_zero_iff.mp (UInt32.or_eq_zero_iff.mp h).1).2
  have hnat := congrArg UInt32.toNat hshift
  have hlt := token.toNat_lt
  apply UInt8.toNat_inj.mp
  simp [Nat.shiftLeft_eq] at hnat
  show token.toNat = 0
  omega

theorem NewMeas.rmid_single {n : NewMeas} (htoken : n.diagToken ≠ 0) :
    n.rmid ≠ 0 ∧ n.rmid &&& rmAllMeas = 0 := by
  rw [NewMeas.rmid]
  rw [if_neg htoken]
  refine ⟨fun hzero => htoken (token_of_rmid hzero), ?_⟩
  rw [rmid_low_bits _ _ _ _ (by decide)]
  cases n.master <;> rfl

namespace RmPriv

def Pending (s : RmPriv) (p : ℕ) (rm : RmObj) (evid : RmEv) : Prop :=
  ⟨rm.rmid, evid⟩ ∈ s.evQueue ∨ ⟨rm.rmid, evid⟩ ∈ s.cmds ∨
    evid = .surveyDone ∧ rm.rmid ∈ s.surveys ∨
    evid.isTimer = true ∧ (s.clock rm.pclock).prm = some p ∧ (s.clock rm.pclock).evid = evid ∧
      0 < (s.clock rm.pclock).counter

structure Wakened (s : RmPriv) (p : ℕ) (rm : RmObj) (bound : ℕ) : Prop where
  sound : Meas.Sound rm
  pends : ∃ evid, rm.wakes evid = true ∧ rm.rank evid < bound ∧ s.Pending p rm evid

def GoesOn (s : RmPriv) (p bound : ℕ) : Prop := ∀ rm, s.heap p = some rm → s.Wakened p rm bound

variable {s t : RmPriv}

theorem Pending.mono {p : ℕ} {rm : RmObj} {evid : RmEv} (h : s.Pending p rm evid)
    (hevents : ∀ ev ∈ s.evQueue, ev ∈ t.evQueue) (hcmds : ∀ ev ∈ s.cmds, ev ∈ t.cmds)
    (hsurveys : ∀ rmid ∈ s.surveys, rmid ∈ t.surveys)
    (hclock : t.clock rm.pclock = s.clock rm.pclock) : t.Pending p rm evid := by
  rcases h with h | h | ⟨hdone, h⟩ | h
  · exact .inl (hevents _ h)
  · exact .inr (.inl (hcmds _ h))
  · exact .inr (.inr (.inl ⟨hdone, hsurveys _ h⟩))
  · exact .inr (.inr (.inr (hclock ▸ h)))

theorem Wakened.mono {p : ℕ} {rm : RmObj} {bound : ℕ} (h : s.Wakened p rm bound)
    (hevents : ∀ ev ∈ s.evQueue, ev ∈ t.evQueue) (hcmds : ∀ ev ∈ s.cmds, ev ∈ t.cmds)
    (hsurveys : ∀ rmid ∈ s.surveys, rmid ∈ t.surveys)
    (hclock : t.clock rm.pclock = s.clock rm.pclock) : t.Wakened p rm bound := by
  obtain ⟨hsound, evid, hwakes, hrank, hpends⟩ := h
  exact ⟨hsound, evid, hwakes, hrank, hpends.mono hevents hcmds hsurveys hclock⟩

theorem Wakened.state {p : ℕ} {rm : RmObj} {bound : ℕ} (h : s.Wakened p rm bound) :
    rm.state ≠ .recvReport := by
  obtain ⟨-, evid, hwakes, -, -⟩ := h
  intro hst
  unfold RmObj.wakes at hwakes
  rw [hst] at hwakes
  cases evid <;> exact absurd hwakes Bool.false_ne_true

structure Named (s : RmPriv) : Prop where
  queued : ∀ p rm, s.heap p = some rm → p ∈ s.rmQueue
  ids : ∀ p q rm rm', s.heap p = some rm → s.heap q = some rm' → rm.rmid = rm'.rmid → p = q
  single : ∀ p rm, s.heap p = some rm → rm.rmid ≠ 0 ∧ rm.rmid &&& rmAllMeas = 0

theorem store_rmQueue_mem {p q : ℕ} {m : Meas} (hq : q ∈ s.rmQueue) (hne : q ≠ p ∨ m.freed = false) :
    q ∈ (s.store p m).rmQueue := by
  show q ∈ (if m.freed then s.rmQueue.filter (fun r => r ≠ p) else s.rmQueue)
  split
  · next hfreed =>
    rcases hne with hne | hne
    · exact List.mem_filter.mpr ⟨hq, by simpa using hne⟩
    · exact absurd (hfreed.symm.trans hne) Bool.true_eq_false.mp
  · exact hq

theorem Named.rmStateRun (h : s.Named) {p : ℕ} {rm : RmObj} (hp : s.heap p = some rm) (env : Env)
    (evid : RmEv) : (s.rmStateRun env evid p).Named := by
  have hframe := Meas.rmStateRun_frame env evid (s.load rm)
  have hrmid : ((s.load rm).rmStateRun env evid).rm.rmid = rm.rmid := hframe.rmid
  rw [rmStateRun_some hp]
  generalize (s.load rm).rmStateRun env evid = m at hrmid
  have hold : ∀ q rm', (s.store p m).heap q = some rm' →
      ∃ rm₀, s.heap q = some rm₀ ∧ rm'.rmid = rm₀.rmid ∧ (q ≠ p ∨ m.freed = false) := by
    intro q rm' hq
    rcases eq_or_ne q p with rfl | hne
    · rw [store_heap_self] at hq
      split at hq
      · exact absurd hq.symm (Option.some_ne_none rm')
      · next hfreed =>
        rw [Option.some.injEq] at hq
        exact ⟨rm, hp, hq ▸ hrmid, .inr (Bool.not_eq_true _ ▸ hfreed)⟩
    · rw [store_heap_ne hne] at hq
      exact ⟨rm', hq, rfl, .inl hne⟩
  refine ⟨fun q rm' hq => ?_, fun q r rm' rm'' hq hr heq => ?_, fun q rm' hq => ?_⟩
  · obtain ⟨rm₀, hq₀, -, hne⟩ := hold q rm' hq
    exact store_rmQueue_mem (h.queued q rm₀ hq₀) hne
  · obtain ⟨rm₀, hq₀, hid, -⟩ := hold q rm' hq
    obtain ⟨rm₁, hr₀, hid', -⟩ := hold r rm'' hr
    exact h.ids q r rm₀ rm₁ hq₀ hr₀ (hid.symm.trans (heq.trans hid'))
  · obtain ⟨rm₀, hq₀, hid, -⟩ := hold q rm' hq
    rw [hid]
    exact h.single q rm₀ hq₀

theorem GoesOn.other_run {p q bound : ℕ} (h : s.GoesOn q bound) (hclocks : s.ClocksOwned)
    (hne : q ≠ p) (env : Env) (evid : RmEv) : (s.rmStateRun env evid p).GoesOn q bound := by
  intro rm hq
  rw [rmStateRun_heap_ne hne] at hq
  have hwakened := h rm hq
  rw [RmPriv.rmStateRun]
  cases hp : s.heap p with
  | none => exact hwakened.mono (fun _ => id) (fun _ => id) (fun _ => id) rfl
  | some rm' =>
    have hframe := Meas.rmStateRun_frame env evid (s.load rm')
    refine hwakened.mono (fun ev hev => List.mem_append_left _ hev) (fun _ => id)
      (fun rmid hmem => List.mem_append_left _ hmem) ?_
    refine Function.update_of_ne (fun hclk => hne ?_) _ _
    exact hclocks.unshared q p rm rm' hq hp (hclk.trans hframe.pclock)

theorem own_run {p : ℕ} {rm : RmObj} {env : Env} {evid : RmEv} (hclocks : s.ClocksOwned)
    (hp : s.heap p = some rm) (hrmid : rm.rmid ≠ 0) (hstate : rm.state ≠ .recvReport)
    (hsound : Meas.Sound rm) (hmoves : rm.Moves env evid)
    (hdue : rm.wakes evid = true ∨ ∃ bound, s.Wakened p rm bound) :
    (∃ bound, (s.rmStateRun env evid p).GoesOn p bound) ∧
      (rm.wakes evid = true → env.reportCond = true →
        (s.rmStateRun env evid p).GoesOn p (rm.rank evid)) := by
  have hout := Meas.rmStateRun_outcome (m := s.load rm) hrmid hstate hsound hmoves
  have hframe := Meas.rmStateRun_frame env evid (s.load rm)
  rw [rmStateRun_some hp]
  generalize (s.load rm).rmStateRun env evid = m at hout hframe
  have hpclock : m.rm.pclock = rm.pclock := hframe.pclock
  have hprm : m.freed = false → m.clock.prm = some p := fun hfreed =>
    (hframe.prm hfreed).trans ((hclocks.own p rm rm.pclock hp).mpr rfl)
  have hself : ∀ rm', (s.store p m).heap p = some rm' → m.freed = false ∧ rm' = m.rm := by
    intro rm' hq
    rw [store_heap_self] at hq
    split at hq
    · exact absurd hq.symm (Option.some_ne_none rm')
    · next hfreed => exact ⟨Bool.not_eq_true _ ▸ hfreed, (Option.some.inj hq).symm⟩
  have hclock : (s.store p m).clock m.rm.pclock = m.clock := Function.update_self ..
  rcases hout.cases with hfreed | ⟨bound, ⟨hsound', evid', hwakes', hrank', hpends'⟩, hle⟩ |
    ⟨hwakes, hrm, hkept⟩
  · have hgone : ∀ bound, (s.store p m).GoesOn p bound := fun bound rm' hq => by
      obtain ⟨halive, -⟩ := hself rm' hq
      exact absurd (hfreed.symm.trans halive) Bool.true_eq_false.mp
    exact ⟨⟨0, hgone 0⟩, fun _ _ => hgone _⟩
  · have hnew : ∀ bound', bound ≤ bound' → (s.store p m).GoesOn p bound' := by
      intro bound' hbound rm' hq
      obtain ⟨halive, rfl⟩ := hself rm' hq
      refine ⟨hsound', evid', hwakes', hrank'.trans_le hbound, ?_⟩
      rcases hpends' with hev | ⟨hdone, hsurvey⟩ | ⟨htimer, hevid, hcount⟩
      · exact .inl (List.mem_append_right _ hev)
      · exact .inr (.inr (.inl ⟨hdone, List.mem_append_right _ hsurvey⟩))
      · refine .inr (.inr (.inr ⟨htimer, ?_⟩))
        rw [hclock]
        exact ⟨hprm halive, hevid, hcount⟩
    exact ⟨⟨bound, hnew bound le_rfl⟩, fun hw hc => hnew _ (hle hw hc)⟩
  · refine ⟨?_, fun hw => absurd (hwakes.symm.trans hw) Bool.false_ne_true⟩
    have hwakes₀ : rm.wakes evid = false := hwakes
    obtain ⟨bound, -, evid', hwakes', hrank', hpends'⟩ :=
      hdue.resolve_left (fun hw => absurd (hwakes₀.symm.trans hw) Bool.false_ne_true)
    refine ⟨bound, fun rm' hq => ?_⟩
    obtain ⟨halive, rfl⟩ := hself rm' hq
    have hrm' : m.rm = rm := hrm
    rw [hrm']
    refine ⟨hsound, evid', hwakes', hrank', ?_⟩
    rcases hpends' with hev | hcmd | ⟨hdone, hsurvey⟩ | ⟨htimer, hclk⟩
    · exact .inl (List.mem_append_left _ hev)
    · exact .inr (.inl hcmd)
    · exact .inr (.inr (.inl ⟨hdone, List.mem_append_left _ hsurvey⟩))
    · refine .inr (.inr (.inr ⟨htimer, ?_⟩))
      rw [← hrm', hclock]
      rcases hkept with hsame | hidle
      · rw [hsame]
        exact hclk
      · have hst : rm.state = .idle := hidle
        unfold RmObj.wakes at hwakes'
        rw [hst] at hwakes'
        cases evid' <;> first | exact absurd hwakes' Bool.false_ne_true |
          exact absurd htimer Bool.false_ne_true

structure Ready (s : RmPriv) (env : ℕ → Env) (evid : RmEv) (p : ℕ) (rm : RmObj) : Prop where
  state : rm.state ≠ .recvReport
  sound : Meas.Sound rm
  moves : rm.Moves (env p) evid
  due : rm.wakes evid = true ∨ ∃ bound, s.Wakened p rm bound

theorem runs_goesOn_notMem {ps : List ℕ} {q bound : ℕ} (h : s.GoesOn q bound)
    (hclocks : s.ClocksOwned) (hq : q ∉ ps) (env : ℕ → Env) (evid : RmEv) :
    (runs env evid ps s).GoesOn q bound := by
  induction ps generalizing s with
  | nil => exact h
  | cons p ps ih =>
    rw [List.mem_cons, not_or] at hq
    exact ih (h.other_run hclocks hq.1 _ _) (hclocks.rmStateRun p _ _) hq.2

theorem runs_named {ps : List ℕ} (h : s.Named) (hnodup : ps.Nodup)
    (hlive : ∀ p ∈ ps, (s.heap p).isSome = true) (env : ℕ → Env) (evid : RmEv) :
    (runs env evid ps s).Named := by
  induction ps generalizing s with
  | nil => exact h
  | cons p ps ih =>
    obtain ⟨hp, hps⟩ := List.nodup_cons.mp hnodup
    obtain ⟨rm, hrm⟩ := Option.isSome_iff_exists.mp (hlive p List.mem_cons_self)
    refine ih (h.rmStateRun hrm _ _) hps fun q hq => ?_
    rw [rmStateRun_heap_ne (ne_of_mem_of_not_mem hq hp)]
    exact hlive q (List.mem_cons_of_mem p hq)

theorem runs_goesOn {ps : List ℕ} {env : ℕ → Env} {evid : RmEv} (hclocks : s.ClocksOwned)
    (hnamed : s.Named) (hnodup : ps.Nodup)
    (hready : ∀ p ∈ ps, ∃ rm, s.heap p = some rm ∧ s.Ready env evid p rm) :
    ∀ p ∈ ps, (∃ bound, (runs env evid ps s).GoesOn p bound) ∧
      ∀ rm, s.heap p = some rm → rm.wakes evid = true → (env p).reportCond = true →
        (runs env evid ps s).GoesOn p (rm.rank evid) := by
  induction ps generalizing s with
  | nil => exact fun p hp => absurd hp List.not_mem_nil
  | cons p ps ih =>
    obtain ⟨hp, hps⟩ := List.nodup_cons.mp hnodup
    obtain ⟨rm, hrm, hr⟩ := hready p List.mem_cons_self
    have hnext := hclocks.rmStateRun p (env p) evid
    have hkeep : ∀ q ∈ ps, (s.rmStateRun (env p) evid p).heap q = s.heap q := fun q hq =>
      rmStateRun_heap_ne (ne_of_mem_of_not_mem hq hp) _ _
    obtain ⟨⟨bound, hbound⟩, hrank⟩ := own_run hclocks hrm (hnamed.single p rm hrm).1 hr.state hr.sound
      hr.moves hr.due
    have hrest := ih hnext (hnamed.rmStateRun hrm _ _) hps fun q hq => by
      obtain ⟨rm', hrm', hr'⟩ := hready q (List.mem_cons_of_mem p hq)
      refine ⟨rm', (hkeep q hq).trans hrm', hr'.state, hr'.sound, hr'.moves, ?_⟩
      refine hr'.due.imp id fun ⟨bound, hw⟩ => ⟨bound, ?_⟩
      have hgo : s.GoesOn q bound := fun rm'' hq' => by
        rw [hrm', Option.some.injEq] at hq'
        exact hq' ▸ hw
      exact hgo.other_run hclocks (ne_of_mem_of_not_mem hq hp) _ _ rm' ((hkeep q hq).trans hrm')
    intro q hq
    rw [runs_cons]
    rcases List.mem_cons.mp hq with rfl | hq
    · refine ⟨⟨bound, runs_goesOn_notMem hbound hnext hp env evid⟩, fun rm' hrm' hw hc => ?_⟩
      rw [hrm, Option.some.injEq] at hrm'
      subst hrm'
      exact runs_goesOn_notMem (hrank hw hc) hnext hp env evid
    · obtain ⟨hgo, hlower⟩ := hrest q hq
      exact ⟨hgo, fun rm' hrm' hw hc => hlower rm' ((hkeep q hq).trans hrm') hw hc⟩

structure Moving (s : RmPriv) : Prop where
  wf : s.Wf
  clocks : s.ClocksOwned
  parked : s.prmSel = none
  named : s.Named
  due : ∀ p, ∃ bound, s.GoesOn p bound

theorem initial_moving : initial.Moving := by
  have hnone : ∀ p rm, initial.heap p = some rm → False := fun _ rm h =>
    absurd h (Option.some_ne_none rm).symm
  exact ⟨initial_wf, initial_clocksOwned, rfl,
    ⟨fun p rm h => (hnone p rm h).elim, fun p _ rm _ h => (hnone p rm h).elim,
      fun p rm h => (hnone p rm h).elim⟩, fun p => ⟨0, fun rm h => (hnone p rm h).elim⟩⟩

theorem Moving.wakened (h : s.Moving) {p : ℕ} {rm : RmObj} (hp : s.heap p = some rm) :
    ∃ bound, s.Wakened p rm bound := by
  obtain ⟨bound, hgo⟩ := h.due p
  exact ⟨bound, hgo rm hp⟩

theorem mem_receivers_of_rmid (h : s.Moving) {p : ℕ} {rm : RmObj} (hp : s.heap p = some rm)
    {ev : RmEvent} (hrmid : ev.rmid = rm.rmid) : p ∈ s.receivers ev := by
  obtain ⟨hne, hsingle⟩ := h.named.single p rm hp
  rw [receivers]
  rw [hrmid, if_neg (not_not_intro hsingle), Option.mem_toList]
  have hsome : (s.rmQueue.find? fun q => (s.heap q).any fun rm' => rm'.rmid == rm.rmid).isSome = true := by
    rw [List.find?_isSome]
    exact ⟨p, h.named.queued p rm hp, by simp [hp]⟩
  obtain ⟨q, hq⟩ := Option.isSome_iff_exists.mp hsome
  have hget : s.rmGetRmobj rm.rmid = some q := by
    rw [rmGetRmobj]
    rw [if_neg hne]
    exact hq
  obtain ⟨-, -, rm', hq', hid⟩ := rmGetRmobj_mem hget
  rw [hget, h.named.ids p q rm rm' hp hq' hid.symm]

theorem Pending.pop {p : ℕ} {rm : RmObj} {evid : RmEv} (h : s.Pending p rm evid) {ev : RmEvent}
    {rest : List RmEvent} (hev : s.evQueue = ev :: rest) :
    ev = ⟨rm.rmid, evid⟩ ∨ ({ s with evQueue := rest } : RmPriv).Pending p rm evid := by
  rcases h with h | h
  · rw [hev, List.mem_cons] at h
    exact h.imp Eq.symm fun hmem => .inl hmem
  · exact .inr (.inr h)

def HandlesWell (s : RmPriv) (env : ℕ → Env) : Prop :=
  ∀ ev ∈ s.evQueue.head?, ∀ p ∈ s.receivers ev, ∀ rm ∈ s.heap p, rm.Moves (env p) ev.evid

def Advances (s : RmPriv) (env : ℕ → Env) : Prop :=
  ∀ ev ∈ s.evQueue.head?, ∀ p ∈ s.receivers ev, ∀ rm ∈ s.heap p, rm.wakes ev.evid = true →
    (env p).reportCond = true → (s.rmHandler env).GoesOn p (rm.rank ev.evid)

theorem Moving.handle (h : s.Moving) {env : ℕ → Env} (hwell : s.HandlesWell env) :
    (s.rmHandler env).Moving ∧ s.Advances env := by
  cases hev : s.evQueue with
  | nil =>
    have hsame : s.rmHandler env = s := by
      rw [rmHandler]
      rw [hev]
    rw [hsame]
    refine ⟨h, fun ev hhead => ?_⟩
    rw [hev] at hhead
    exact absurd hhead (Option.not_mem_none _)
  | cons ev rest =>
    have hwf := h.wf.rmHandler env
    have hclocks := h.clocks.rmHandler h.wf env
    have hpop : ({ s with evQueue := rest } : RmPriv).ClocksOwned :=
      h.clocks.congr (fun _ => rfl) fun _ => rfl
    have hnodup := receivers_nodup h.wf ev
    have hlive : ∀ p ∈ s.receivers ev, (s.heap p).isSome = true := fun p hp =>
      h.wf.live p (mem_receivers hp)
    have hnamed : ({ s with evQueue := rest } : RmPriv).Named :=
      ⟨h.named.queued, h.named.ids, h.named.single⟩
    have hready : ∀ p ∈ s.receivers ev, ∃ rm, s.heap p = some rm ∧
        ({ s with evQueue := rest } : RmPriv).Ready env ev.evid p rm := by
      intro p hp
      obtain ⟨rm, hrm⟩ := Option.isSome_iff_exists.mp (hlive p hp)
      obtain ⟨bound, hw⟩ := h.wakened hrm
      refine ⟨rm, hrm, hw.state, hw.sound, hwell ev (by rw [hev]; rfl) p hp rm hrm, ?_⟩
      obtain ⟨hsound, evid, hwakes, hrank, hpends⟩ := hw
      rcases hpends.pop hev with heq | hpends
      · exact .inl (by rw [heq]; exact hwakes)
      · exact .inr ⟨bound, hsound, evid, hwakes, hrank, hpends⟩
    have hruns := runs_goesOn hpop hnamed hnodup hready
    have heq := rmHandler_cons h.wf env hev
    rw [heq] at hwf hclocks ⊢
    refine ⟨⟨hwf, hclocks, ?_, runs_named hnamed hnodup hlive env ev.evid, fun p => ?_⟩, ?_⟩
    · have hsel : ∀ (ps : List ℕ) (t : RmPriv), (runs env ev.evid ps t).prmSel = t.prmSel := by
        intro ps
        induction ps with
        | nil => exact fun _ => rfl
        | cons p ps ih => exact fun t => (ih _).trans (rmStateRun_prmSel p _ _)
      rw [hsel]
      exact h.parked
    · cases Decidable.em (p ∈ s.receivers ev) with
      | inl hmem => exact (hruns p hmem).1
      | inr hmem =>
        obtain ⟨bound, hgo⟩ := h.due p
        refine ⟨bound, runs_goesOn_notMem (fun rm hrm => ?_) hpop hmem env ev.evid⟩
        obtain ⟨hsound, evid, hwakes, hrank, hpends⟩ := hgo rm hrm
        refine ⟨hsound, evid, hwakes, hrank, (hpends.pop hev).resolve_left fun heq => ?_⟩
        exact hmem (mem_receivers_of_rmid h hrm (by rw [heq]))
    · intro ev' hhead p hp rm hrm hw hc
      rw [hev, List.head?_cons, Option.mem_some_iff] at hhead
      subst hhead
      rw [heq]
      exact (hruns p hp).2 rm hrm hw hc

theorem rmPostEvent_posts (henable : s.enable = true) (rmid : UInt32) (evid : RmEv) :
    s.rmPostEvent true rmid evid = { s with cmds := s.cmds ++ [⟨rmid, evid⟩] } := by
  rw [rmPostEvent]
  rw [henable]
  rfl

theorem Pending.post {p : ℕ} {rm : RmObj} {evid : RmEv} (h : s.Pending p rm evid) (alloc : Bool)
    (rmid : UInt32) (evid' : RmEv) : (s.rmPostEvent alloc rmid evid').Pending p rm evid := by
  rw [rmPostEvent]
  split
  · exact h.mono (fun _ => id) (fun _ hev => List.mem_append_left _ hev) (fun _ => id) rfl
  · exact h

structure Requested (n : NewMeas) (i : Fin rmTimerNum) (s t : RmPriv) : Prop where
  heap : t.heap = Function.update s.heap s.next (some (NewMeas.obj n i))
  queue : t.rmQueue = s.rmQueue ++ [s.next]
  cmds : t.cmds = s.cmds ++ [⟨n.rmid, .stateIn⟩]
  events : t.evQueue = s.evQueue
  surveys : t.surveys = s.surveys
  clock : t.clock = Function.update s.clock i ⟨some s.next, 0, .max⟩
  sel : t.prmSel = s.prmSel

theorem request_spec (n : NewMeas) {i : Fin rmTimerNum} (henable : s.enable = true)
    (halloc : s.rmAllocRmobj true n = (some s.next,
      s.allocated n i (Function.update s.clock i ⟨some s.next, 0, .max⟩))) :
    Requested n i s (s.request true true true n) := by
  have hself : (s.allocated n i (Function.update s.clock i ⟨some s.next, 0, .max⟩)).heap s.next =
      some (NewMeas.obj n i) := Function.update_self ..
  rw [request]
  rw [halloc]
  dsimp only
  rw [if_pos rfl]
  rw [rmEnqueueRmobj]
  rw [hself]
  dsimp only
  rw [rmPostEvent_posts (by exact henable)]
  exact ⟨Function.update_idem .., rfl, rfl, rfl, rfl, rfl, rfl⟩

theorem goesOn_free_clock (hclocks : s.ClocksOwned) {i : Fin rmTimerNum}
    (hfree : (s.clock i).prm = none) {p : ℕ} {rm : RmObj} (hp : s.heap p = some rm) :
    rm.pclock ≠ i := fun heq => by
  have hown := (hclocks.own p rm i hp).mpr heq
  exact absurd (hfree.symm.trans hown) (Option.some_ne_none p).symm

theorem Moving.request (h : s.Moving) {n : NewMeas} (henable : s.enable = true)
    (htoken : n.diagToken ≠ 0) (hroom : ¬s.AllClocksOwned)
    (hnew : ∀ p ∈ s.rmQueue, ∀ rm ∈ s.heap p, rm.rmid ≠ n.rmid) :
    (s.request true true true n).Moving := by
  obtain ⟨i, hfree, halloc⟩ : ∃ i, (s.clock i).prm = none ∧ s.rmAllocRmobj true n = (some s.next,
      s.allocated n i (Function.update s.clock i ⟨some s.next, 0, .max⟩)) := by
    rcases rmAllocRmobj_cases s n with ⟨i, hfree, heq⟩ | ⟨hnone, -⟩
    · exact ⟨i, freeClock?_prm hfree, heq⟩
    · exact absurd (freeClock?_eq_none.mp hnone) hroom
  have hspec := request_spec n henable halloc
  have hwf := h.wf.request true true true n
  have hclocks := @RmPriv.ClocksOwned.request _ h.clocks h.wf true true true n
    fun _ => hroom
  revert hspec hwf hclocks
  generalize s.request true true true n = t
  intro hspec hwf hclocks
  have hcase : ∀ p rm, t.heap p = some rm →
      p = s.next ∧ rm = NewMeas.obj n i ∨ p ≠ s.next ∧ s.heap p = some rm := by
    intro p rm hp
    rw [hspec.heap] at hp
    rcases eq_or_ne p s.next with rfl | hne
    · rw [Function.update_self, Option.some.injEq] at hp
      exact .inl ⟨rfl, hp.symm⟩
    · rw [Function.update_of_ne hne] at hp
      exact .inr ⟨hne, hp⟩
  have hold : ∀ p rm, s.heap p = some rm → rm.rmid ≠ n.rmid := fun p rm hp =>
    hnew p (h.named.queued p rm hp) rm hp
  refine ⟨hwf, hclocks, hspec.sel.trans h.parked, ⟨fun p rm hp => ?_, fun p q rm rm' hp hq heq => ?_,
    fun p rm hp => ?_⟩, fun p => ?_⟩
  · rw [hspec.queue]
    rcases hcase p rm hp with ⟨rfl, -⟩ | ⟨-, hp⟩
    · exact List.mem_append_right _ (List.mem_singleton_self _)
    · exact List.mem_append_left _ (h.named.queued p rm hp)
  · rcases hcase p rm hp with ⟨rfl, rfl⟩ | ⟨-, hp⟩
    · rcases hcase q rm' hq with ⟨rfl, -⟩ | ⟨-, hq⟩
      · rfl
      · exact absurd heq.symm (hold q rm' hq)
    · rcases hcase q rm' hq with ⟨rfl, rfl⟩ | ⟨-, hq⟩
      · exact absurd heq (hold p rm hp)
      · exact h.named.ids p q rm rm' hp hq heq
  · rcases hcase p rm hp with ⟨rfl, rfl⟩ | ⟨-, hp⟩
    · exact NewMeas.rmid_single htoken
    · exact h.named.single p rm hp
  · rcases eq_or_ne p s.next with rfl | hne
    · refine ⟨(NewMeas.obj n i).rank .stateIn + 1, fun rm hp => ?_⟩
      rcases hcase _ rm hp with ⟨-, rfl⟩ | ⟨habs, -⟩
      · refine ⟨.inr le_rfl, .stateIn, rfl, Nat.lt_succ_self _, .inr (.inl ?_)⟩
        rw [hspec.cmds]
        exact List.mem_append_right _ (List.mem_singleton_self _)
      · exact absurd rfl habs
    · obtain ⟨bound, hgo⟩ := h.due p
      refine ⟨bound, fun rm hp => ?_⟩
      rcases hcase p rm hp with ⟨habs, -⟩ | ⟨-, hp⟩
      · exact absurd habs hne
      · refine (hgo rm hp).mono (fun ev hev => hspec.events ▸ hev) (fun ev hev => ?_)
          (fun rmid hmem => hspec.surveys ▸ hmem) ?_
        · rw [hspec.cmds]
          exact List.mem_append_left _ hev
        · rw [hspec.clock, Function.update_of_ne (goesOn_free_clock h.clocks hfree hp)]

theorem Moving.congr (h : s.Moving) (hwf : t.Wf) (hclocks : t.ClocksOwned) (hparked : t.prmSel = none)
    (hheap : t.heap = s.heap) (hqueue : t.rmQueue = s.rmQueue)
    (hdue : ∀ p rm evid, s.heap p = some rm → rm.wakes evid = true → s.Pending p rm evid →
      t.Pending p rm evid) : t.Moving := by
  refine ⟨hwf, hclocks, hparked, ⟨?_, ?_, ?_⟩, fun p => ?_⟩
  · rw [hheap, hqueue]
    exact h.named.queued
  · rw [hheap]
    exact h.named.ids
  · rw [hheap]
    exact h.named.single
  · obtain ⟨bound, hgo⟩ := h.due p
    refine ⟨bound, fun rm hp => ?_⟩
    rw [hheap] at hp
    obtain ⟨hsound, evid, hwakes, hrank, hpends⟩ := hgo rm hp
    exact ⟨hsound, evid, hwakes, hrank, hdue p rm evid hp hwakes hpends⟩

theorem Moving.rmPostEvent (h : s.Moving) (alloc : Bool) (rmid : UInt32) (evid : RmEv) :
    (s.rmPostEvent alloc rmid evid).Moving := by
  have hsame : (s.rmPostEvent alloc rmid evid).heap = s.heap ∧
      (s.rmPostEvent alloc rmid evid).rmQueue = s.rmQueue ∧
      (s.rmPostEvent alloc rmid evid).prmSel = s.prmSel := by
    rw [RmPriv.rmPostEvent]
    split <;> exact ⟨rfl, rfl, rfl⟩
  exact h.congr (h.wf.rmPostEvent alloc rmid evid) (h.clocks.rmPostEvent alloc rmid evid)
    (hsame.2.2.trans h.parked) hsame.1 hsame.2.1 fun p rm _ _ _ hpends => hpends.post alloc rmid evid

theorem Moving.command (h : s.Moving) {alloc : Bool}
    (halloc : ∀ ev ∈ s.cmds.head?, ∀ p ∈ s.rmQueue, ∀ rm ∈ s.heap p, rm.rmid = ev.rmid →
      alloc = true) : (s.rmPostEventHdl alloc).Moving := by
  unfold rmPostEventHdl
  cases hcmds : s.cmds with
  | nil => exact h
  | cons ev rest =>
    refine h.congr (h.wf.congr rfl rfl rfl rfl fun _ => rfl)
      (h.clocks.congr (fun _ => rfl) fun _ => rfl) h.parked rfl rfl fun p rm evid hp hwakes hpends => ?_
    have hkeep : ∀ e ∈ s.evQueue, e ∈ (if ev.evid = .max ∨ ev.rmid = 0 ∨ alloc = false then s.evQueue
        else s.evQueue ++ [ev]) := by
      intro e he
      split
      · exact he
      · exact List.mem_append_left _ he
    rcases hpends with hev | hcmd | hrest
    · exact .inl (hkeep _ hev)
    · rw [hcmds, List.mem_cons] at hcmd
      rcases hcmd with rfl | hcmd
      · have hok := halloc ⟨rm.rmid, evid⟩ (by rw [hcmds]; rfl) p (h.named.queued p rm hp) rm hp rfl
        have hmax : evid ≠ .max := by
          rintro rfl
          unfold RmObj.wakes at hwakes
          split at hwakes <;> first | exact absurd hwakes Bool.false_ne_true | simp_all
        refine .inl ?_
        dsimp only
        rw [if_neg]
        · exact List.mem_append_right _ (List.mem_singleton_self _)
        · rintro (h₁ | h₁ | h₁)
          · exact hmax h₁
          · exact (h.named.single p rm hp).1 h₁
          · exact absurd (hok.symm.trans h₁) Bool.true_eq_false.mp
      · exact .inr (.inl hcmd)
    · exact .inr (.inr hrest)

theorem Moving.surveyDone (h : s.Moving) {alloc : Bool}
    (halloc : ∀ token ∈ s.surveys.head?, ∀ p ∈ s.rmQueue, ∀ rm ∈ s.heap p, rm.rmid = token →
      alloc = true ∧ s.enable = true) : (s.surveyDone alloc).Moving := by
  rw [RmPriv.surveyDone]
  cases hsurveys : s.surveys with
  | nil => exact h
  | cons token rest =>
    have hwf : ({ s with surveys := rest } : RmPriv).Wf := h.wf.congr rfl rfl rfl rfl fun _ => rfl
    have hclocks : ({ s with surveys := rest } : RmPriv).ClocksOwned :=
      h.clocks.congr (fun _ => rfl) fun _ => rfl
    have hpop : ∀ p rm evid, s.Pending p rm evid → evid = .surveyDone ∧ rm.rmid = token ∨
        ({ s with surveys := rest } : RmPriv).Pending p rm evid := by
      intro p rm evid hpends
      rcases hpends with hev | hcmd | ⟨hdone, hmem⟩ | hclk
      · exact .inr (.inl hev)
      · exact .inr (.inr (.inl hcmd))
      · rw [hsurveys, List.mem_cons] at hmem
        exact hmem.imp (fun heq => ⟨hdone, heq⟩) fun hmem => .inr (.inr (.inl ⟨hdone, hmem⟩))
      · exact .inr (.inr (.inr (.inr hclk)))
    dsimp only
    split
    · have hsame : ∀ t : RmPriv, (t.rmPostEvent alloc token .surveyDone).heap = t.heap ∧
          (t.rmPostEvent alloc token .surveyDone).rmQueue = t.rmQueue ∧
          (t.rmPostEvent alloc token .surveyDone).prmSel = t.prmSel := fun t => by
        rw [RmPriv.rmPostEvent]
        split <;> exact ⟨rfl, rfl, rfl⟩
      obtain ⟨hheap, hqueue, hsel⟩ := hsame { s with surveys := rest }
      refine h.congr (hwf.rmPostEvent _ _ _) (hclocks.rmPostEvent _ _ _) (hsel.trans h.parked) hheap
        hqueue fun p rm evid hp _ hpends => ?_
      rcases hpop p rm evid hpends with ⟨rfl, htoken⟩ | hpends
      · obtain ⟨hok, henable⟩ := halloc token (by rw [hsurveys]; rfl) p (h.named.queued p rm hp) rm hp htoken
        rw [hok, rmPostEvent_posts (by exact henable)]
        refine .inr (.inl ?_)
        rw [htoken]
        exact List.mem_append_right _ (List.mem_singleton_self _)
      · exact hpends.post _ _ _
    · next hzero =>
      refine h.congr hwf hclocks h.parked rfl rfl fun p rm evid hp _ hpends => ?_
      refine (hpop p rm evid hpends).resolve_left fun heq => ?_
      exact (h.named.single p rm hp).1 (heq.2.trans (not_not.mp hzero))

theorem Moving.report (h : s.Moving) (cmdAlloc : Bool) (rmid : UInt32) (actionCode : UInt8)
    (mMode : Option UInt8) (isRsp : Bool) :
    (s.recvReport cmdAlloc rmid actionCode mMode isRsp).Moving := by
  have hwf := h.wf.recvReport cmdAlloc rmid actionCode mMode isRsp
  have hclocks := h.clocks.recvReport cmdAlloc rmid actionCode mMode isRsp
  rw [recvReport]
  rw [h.wf.walkQueue_eq]
  cases hget : s.rmGetRmobj rmid with
  | none => exact h
  | some p =>
    obtain ⟨-, -, rm, hp, -⟩ := rmGetRmobj_mem hget
    dsimp only
    rw [hp]
    dsimp only
    have hset : ({ s with heap := Function.update s.heap p (some { rm with
        p.actionCode := actionCode
        p.mMode := mMode.getD rm.p.mMode }) } : RmPriv).Moving := by
      have hcase : ∀ q rm', Function.update s.heap p (some { rm with
          p.actionCode := actionCode
          p.mMode := mMode.getD rm.p.mMode }) q = some rm' →
          ∃ rm₀, s.heap q = some rm₀ ∧ rm'.rmid = rm₀.rmid ∧ rm'.pclock = rm₀.pclock ∧
            rm'.state = rm₀.state ∧ rm'.q = rm₀.q ∧ rm'.p.rpt = rm₀.p.rpt ∧
            rm'.waitBusy = rm₀.waitBusy := by
        intro q rm' hq
        rcases eq_or_ne q p with rfl | hne
        · rw [Function.update_self, Option.some.injEq] at hq
          subst hq
          exact ⟨rm, hp, rfl, rfl, rfl, rfl, rfl, rfl⟩
        · rw [Function.update_of_ne hne] at hq
          exact ⟨rm', hq, rfl, rfl, rfl, rfl, rfl, rfl⟩
      refine ⟨h.wf.setRm hp id rfl, h.clocks.set rfl (fun _ => rfl) hp rfl, h.parked,
        ⟨fun q rm' hq => ?_, fun q r rm' rm'' hq hr heq => ?_, fun q rm' hq => ?_⟩, fun q => ?_⟩
      · obtain ⟨rm₀, hq, -⟩ := hcase q rm' hq
        exact h.named.queued q rm₀ hq
      · obtain ⟨rm₀, hq, hid, -⟩ := hcase q rm' hq
        obtain ⟨rm₁, hr, hid', -⟩ := hcase r rm'' hr
        exact h.named.ids q r rm₀ rm₁ hq hr (hid.symm.trans (heq.trans hid'))
      · obtain ⟨rm₀, hq, hid, -⟩ := hcase q rm' hq
        rw [hid]
        exact h.named.single q rm₀ hq
      · obtain ⟨bound, hgo⟩ := h.due q
        refine ⟨bound, fun rm' hq => ?_⟩
        obtain ⟨rm₀, hq, hid, hclk, hstate, hreq, hrpt, hwait⟩ := hcase q rm' hq
        obtain ⟨hsound, evid, hwakes, hrank, hpends⟩ := hgo rm₀ hq
        refine ⟨?_, evid, ?_, ?_, ?_⟩
        · rw [Meas.Sound]
          rw [hstate, hwait]
          exact hsound
        · unfold RmObj.wakes
          rw [hstate, hreq]
          exact hwakes
        · unfold RmObj.rank
          rw [hstate, hreq, hrpt, hwait]
          exact hrank
        · rw [Pending]
          rw [hid, hclk]
          exact hpends
    split
    · exact hset.rmPostEvent _ _ _
    · exact hset

theorem Moving.timerOne (h : s.Moving) {alloc : Fin rmTimerNum → Bool} {i : Fin rmTimerNum}
    (hring : (s.clock i).prm.isSome = true → (s.clock i).counter = 1 → alloc i = true ∧ s.enable = true) :
    (timerOne alloc s i).Moving := by
  obtain ⟨hqueue, hheap, -, hsel, -, hprm⟩ := timerOne_same (s := s) alloc i
  refine h.congr (h.wf.timerOne alloc i) (h.clocks.congr (fun p => by rw [hheap]) hprm)
    (hsel.trans h.parked) hheap hqueue fun p rm evid hp hwakes hpends => ?_
  rw [RmPriv.timerOne]
  cases howner : (s.clock i).prm with
  | none => exact hpends
  | some p' =>
    obtain ⟨rm', hp', hclk'⟩ := h.wf.owner i p' howner
    dsimp only
    split
    · exact hpends
    · next hcount =>
      have hkept : rm.pclock = i ∧ p = p' ∧ evid = (s.clock i).evid ∧ (s.clock i).counter - 1 = 0 ∨
          ({ s with
            clock := Function.update s.clock i { s.clock i with counter := (s.clock i).counter - 1 } } :
            RmPriv).Pending p rm evid := by
        rcases hpends with hev | hcmd | hsurvey | ⟨htimer, hown, hevid, hpos⟩
        · exact .inr (.inl hev)
        · exact .inr (.inr (.inl hcmd))
        · exact .inr (.inr (.inr (.inl hsurvey)))
        · rcases eq_or_ne rm.pclock i with hi | hne
          · rw [hi] at hown hevid
            rcases Nat.eq_zero_or_pos ((s.clock i).counter - 1) with hzero | hmore
            · exact .inl ⟨hi, Option.some.inj (hown.symm.trans howner), hevid.symm, hzero⟩
            · refine .inr (.inr (.inr (.inr ⟨htimer, ?_⟩)))
              dsimp only
              rw [hi, Function.update_self]
              exact ⟨hown, hevid, hmore⟩
          · refine .inr (.inr (.inr (.inr ⟨htimer, ?_⟩)))
            dsimp only
            rw [Function.update_of_ne hne]
            exact ⟨hown, hevid, hpos⟩
      split
      · next hzero =>
        rw [hp']
        dsimp only
        rcases hkept with ⟨-, rfl, rfl, -⟩ | hkept
        · rw [hp, Option.some.injEq] at hp'
          subst hp'
          obtain ⟨hok, henable⟩ := hring (by rw [howner]; rfl) (by omega)
          rw [hok, rmPostEvent_posts (by exact henable)]
          exact .inr (.inl (List.mem_append_right _ (List.mem_singleton_self _)))
        · exact hkept.post _ _ _
      · next hmore => exact hkept.resolve_left fun heq => hmore heq.2.2.2

theorem timerOne_other (alloc : Fin rmTimerNum → Bool) {i j : Fin rmTimerNum} (hne : j ≠ i) :
    (timerOne alloc s i).clock j = s.clock j ∧ (timerOne alloc s i).enable = s.enable := by
  rw [timerOne]
  cases (s.clock i).prm with
  | none => exact ⟨rfl, rfl⟩
  | some p =>
    dsimp only
    split
    · exact ⟨rfl, rfl⟩
    · split
      · cases s.heap p with
        | none => exact ⟨Function.update_of_ne hne _ _, rfl⟩
        | some rm =>
          dsimp only
          rw [rmPostEvent]
          split <;> exact ⟨Function.update_of_ne hne _ _, rfl⟩
      · exact ⟨Function.update_of_ne hne _ _, rfl⟩

def Rings (s : RmPriv) (alloc : Fin rmTimerNum → Bool) (i : Fin rmTimerNum) : Prop :=
  (s.clock i).prm.isSome = true → (s.clock i).counter = 1 → alloc i = true ∧ s.enable = true

theorem Moving.tick (h : s.Moving) {alloc : Fin rmTimerNum → Bool} {is : List (Fin rmTimerNum)}
    (hnodup : is.Nodup) (hrings : ∀ i ∈ is, s.Rings alloc i) : (is.foldl (RmPriv.timerOne alloc) s).Moving := by
  induction is generalizing s with
  | nil => exact h
  | cons i is ih =>
    obtain ⟨hi, his⟩ := List.nodup_cons.mp hnodup
    refine ih (h.timerOne (hrings i List.mem_cons_self)) his fun j hj => ?_
    obtain ⟨hclock, henable⟩ := timerOne_other (s := s) alloc (ne_of_mem_of_not_mem hj hi)
    rw [Rings]
    rw [hclock, henable]
    exact hrings j (List.mem_cons_of_mem i hj)

theorem Moving.dbgAdd (h : s.Moving) {alloc : Bool} {n : NewMeas} {found : Bool}
    (hfree : alloc = true → found = false ∧ ¬s.AllClocksOwned) :
    (s.rmDbgAddMeas alloc n found).Moving := by
  cases alloc with
  | false =>
    rw [rmDbgAddMeas]
    rw [h.parked]
    exact h
  | true =>
    obtain ⟨rfl, hroom⟩ := hfree rfl
    have hwf := h.wf.rmDbgAddMeas true n false
    have hclocks := @RmPriv.ClocksOwned.rmDbgAddMeas _ h.clocks h.wf true n false fun _ _ => hroom
    obtain ⟨i, hprm, halloc⟩ : ∃ i, (s.clock i).prm = none ∧ s.rmAllocRmobj true n = (some s.next,
        s.allocated n i (Function.update s.clock i ⟨some s.next, 0, .max⟩)) := by
      rcases rmAllocRmobj_cases s n with ⟨i, hfree, heq⟩ | ⟨hnone, -⟩
      · exact ⟨i, freeClock?_prm hfree, heq⟩
      · exact absurd (freeClock?_eq_none.mp hnone) hroom
    have hself : (s.allocated n i (Function.update s.clock i ⟨some s.next, 0, .max⟩)).heap s.next =
        some (NewMeas.obj n i) := Function.update_self ..
    rw [rmDbgAddMeas] at hwf hclocks ⊢
    rw [h.parked] at hwf hclocks ⊢
    dsimp only at hwf hclocks ⊢
    rw [halloc] at hwf hclocks ⊢
    dsimp only at hwf hclocks ⊢
    rw [dbgFinish] at hwf hclocks ⊢
    rw [if_neg Bool.false_ne_true] at hwf hclocks ⊢
    rw [rmFreeRmobj] at hwf hclocks ⊢
    rw [hself] at hwf hclocks ⊢
    dsimp only at hwf hclocks ⊢
    have hheap : Function.update (Function.update s.heap s.next (some (NewMeas.obj n i))) s.next none =
        s.heap := by
      rw [Function.update_idem]
      exact Function.update_eq_self_iff.mpr (h.wf.fresh s.next le_rfl).symm
    have hqueue : s.rmQueue.filter (fun r => r ≠ s.next) = s.rmQueue :=
      List.filter_eq_self.mpr fun q hq => by simpa using ne_of_mem_of_not_mem hq h.wf.next_notMem
    refine h.congr hwf hclocks rfl hheap hqueue fun p rm evid hp _ hpends => ?_
    have hne := goesOn_free_clock h.clocks hprm hp
    refine hpends.mono (fun _ hev => List.mem_append_left _ hev) (fun _ => id)
      (fun _ hmem => List.mem_append_left _ hmem) ?_
    exact (Function.update_of_ne hne _ _).trans (Function.update_of_ne hne _ _)

theorem Moving.deinit (h : s.Moving) (env : ℕ → Env) : (s.rtwDeinitRm env).Moving := by
  have hd := rtwDeinitRm_drained h.wf env
  have hnone : ∀ p rm, (s.rtwDeinitRm env).heap p = some rm → False := by
    intro p rm hp
    have hheap : (s.rtwDeinitRm env).heap p = if p ∈ s.rmQueue then none else s.heap p := hd.heap p
    rw [hp] at hheap
    split at hheap
    · exact absurd hheap (Option.some_ne_none rm)
    · next hnot => exact hnot (h.named.queued p rm hheap.symm)
  have hsel : ∀ (k : ℕ) (t : RmPriv), ((drainOne env)^[k] t).prmSel = t.prmSel := by
    intro k
    induction k with
    | zero => exact fun _ => rfl
    | succ k ih =>
      refine fun t => (ih _).trans ?_
      rw [drainOne]
      split
      · rfl
      · exact rmStateRun_prmSel _ _ _
  exact ⟨h.wf.rtwDeinitRm env, h.clocks.rtwDeinitRm env, (hsel _ _).trans h.parked,
    ⟨fun p rm hp => (hnone p rm hp).elim, fun p _ rm _ hp => (hnone p rm hp).elim,
      fun p rm hp => (hnone p rm hp).elim⟩, fun p => ⟨0, fun rm hp => (hnone p rm hp).elim⟩⟩

def KeepsMoving (s : RmPriv) : RmSysEvent → Prop
  | .request alloc cmdAlloc enqueue n => alloc = true → enqueue = true ∧ cmdAlloc = true ∧
      s.enable = true ∧ n.diagToken ≠ 0 ∧ ¬s.AllClocksOwned ∧
      ∀ p ∈ s.rmQueue, ∀ rm ∈ s.heap p, rm.rmid ≠ n.rmid
  | .dbgAdd alloc _ found => alloc = true → found = false ∧ ¬s.AllClocksOwned
  | .surveyDone alloc => ∀ token ∈ s.surveys.head?, ∀ p ∈ s.rmQueue, ∀ rm ∈ s.heap p,
      rm.rmid = token → alloc = true ∧ s.enable = true
  | .tick alloc => ∀ i, s.Rings alloc i
  | .command alloc => ∀ ev ∈ s.cmds.head?, ∀ p ∈ s.rmQueue, ∀ rm ∈ s.heap p, rm.rmid = ev.rmid →
      alloc = true
  | .handle env => s.HandlesWell env
  | _ => True

theorem Moving.step (h : s.Moving) {e : RmSysEvent} (hkeeps : s.KeepsMoving e) : (s.step e).Moving := by
  cases e with
  | request alloc cmdAlloc enqueue n =>
    cases alloc with
    | false => exact h
    | true =>
      obtain ⟨rfl, rfl, henable, htoken, hroom, hnew⟩ := hkeeps rfl
      exact h.request henable htoken hroom hnew
  | dbgAdd alloc n found => exact h.dbgAdd hkeeps
  | dbgActivate cmdAlloc curChannel =>
    show (s.rmDbgActivateMeas cmdAlloc curChannel).Moving
    rw [rmDbgActivateMeas]
    rw [h.parked]
    exact h
  | dbgDel =>
    have hclocks : ({ s with prmSel := none } : RmPriv).ClocksOwned :=
      h.clocks.congr (fun _ => rfl) fun _ => rfl
    exact h.congr h.wf.unpark hclocks rfl rfl rfl fun _ _ _ _ _ => id
  | report cmdAlloc rmid actionCode mMode isRsp => exact h.report _ _ _ _ _
  | post alloc rmid evid => exact h.rmPostEvent alloc rmid evid
  | surveyDone alloc => exact h.surveyDone hkeeps
  | tick alloc => exact h.tick (List.nodup_finRange _) fun i _ => hkeeps i
  | command alloc => exact h.command hkeeps
  | handle env => exact (h.handle hkeeps).1
  | deinit env => exact h.deinit env

def Outstanding (s : RmPriv) (p : ℕ) (rm : RmObj) : Prop :=
  (∃ ev ∈ s.evQueue ++ s.cmds, ev.rmid = rm.rmid) ∨ rm.rmid ∈ s.surveys ∨
    (s.clock rm.pclock).prm = some p ∧ 0 < (s.clock rm.pclock).counter

def NoneStuck (s : RmPriv) : Prop := ∀ p rm, s.heap p = some rm → s.Outstanding p rm

def AllWakeable (s : RmPriv) : Prop :=
  ∀ p rm, s.heap p = some rm → ∃ evid, rm.wakes evid = true ∧ s.Pending p rm evid

structure Progresses (s : RmPriv) (e : RmSysEvent) : Prop where
  noneStuck : (s.step e).NoneStuck
  wakeable : (s.step e).AllWakeable
  advances : ∀ env, e = .handle env → s.Advances env

theorem Pending.outstanding {p : ℕ} {rm : RmObj} {evid : RmEv} (h : s.Pending p rm evid) :
    s.Outstanding p rm := by
  rcases h with hev | hcmd | ⟨-, hsurvey⟩ | ⟨-, hown, -, hpos⟩
  · exact .inl ⟨_, List.mem_append_left _ hev, rfl⟩
  · exact .inl ⟨_, List.mem_append_right _ hcmd, rfl⟩
  · exact .inr (.inl hsurvey)
  · exact .inr (.inr ⟨hown, hpos⟩)

theorem Moving.allWakeable (h : s.Moving) : s.AllWakeable := fun _ _ hp => by
  obtain ⟨_, -, evid, hwakes, -, hpends⟩ := h.wakened hp
  exact ⟨evid, hwakes, hpends⟩

theorem Moving.progresses (h : s.Moving) {e : RmSysEvent} (hkeeps : s.KeepsMoving e) :
    s.Progresses e := by
  have hnext := (h.step hkeeps).allWakeable
  refine ⟨fun p rm hp => ?_, hnext, ?_⟩
  · obtain ⟨_, -, hpends⟩ := hnext p rm hp
    exact hpends.outstanding
  · rintro env rfl
    exact (h.handle hkeeps).2

theorem progress_law (es : List RmSysEvent) (hkeeps : Run.Each step KeepsMoving initial es) :
    Run.Each step Progresses initial es :=
  Run.each_of_each step KeepsMoving Progresses Moving (fun _ _ h hk => h.progresses hk)
    (fun _ _ h hk => h.step hk) initial_moving hkeeps

instance (rm : RmObj) (env : Env) (evid : RmEv) : Decidable (rm.Moves env evid) :=
  decidable_of_iff (env.alloc = true ∧ (evid = .stateOut → rm.state = .idle ∨ rm.state = .ended) ∧
    (rm.state = .idle → evid = .stateIn → isMaster rm.rmid = true →
      Meas.rmIssueMeasReq rm.q = true → rm.q.randIntvl = 0) ∧
    (rm.entersDoMeas evid = true → rm.q.actionCode = rmActRadioMeasReq →
      rm.q.isChannel = true → rm.polls env evid = true))
    ⟨fun ⟨h₁, h₂, h₃, h₄⟩ => ⟨h₁, h₂, h₃, h₄⟩, fun ⟨h₁, h₂, h₃, h₄⟩ => ⟨h₁, h₂, h₃, h₄⟩⟩

instance (s : RmPriv) : Decidable s.AllClocksOwned :=
  inferInstanceAs (Decidable (∀ i, (s.clock i).prm ≠ none))

instance (s : RmPriv) (alloc : Fin rmTimerNum → Bool) (i : Fin rmTimerNum) :
    Decidable (s.Rings alloc i) :=
  inferInstanceAs (Decidable ((s.clock i).prm.isSome = true → (s.clock i).counter = 1 →
    alloc i = true ∧ s.enable = true))

instance (s : RmPriv) (env : ℕ → Env) : Decidable (s.HandlesWell env) :=
  inferInstanceAs (Decidable (∀ ev ∈ s.evQueue.head?, ∀ p ∈ s.receivers ev, ∀ rm ∈ s.heap p,
    rm.Moves (env p) ev.evid))

instance decidableKeepsMoving (s : RmPriv) : (e : RmSysEvent) → Decidable (s.KeepsMoving e)
  | .request alloc cmdAlloc enqueue n =>
    inferInstanceAs (Decidable (alloc = true → enqueue = true ∧ cmdAlloc = true ∧ s.enable = true ∧
      n.diagToken ≠ 0 ∧ ¬s.AllClocksOwned ∧ ∀ p ∈ s.rmQueue, ∀ rm ∈ s.heap p, rm.rmid ≠ n.rmid))
  | .dbgAdd alloc _ found =>
    inferInstanceAs (Decidable (alloc = true → found = false ∧ ¬s.AllClocksOwned))
  | .surveyDone alloc =>
    inferInstanceAs (Decidable (∀ token ∈ s.surveys.head?, ∀ p ∈ s.rmQueue, ∀ rm ∈ s.heap p,
      rm.rmid = token → alloc = true ∧ s.enable = true))
  | .tick alloc => inferInstanceAs (Decidable (∀ i, s.Rings alloc i))
  | .command alloc =>
    inferInstanceAs (Decidable (∀ ev ∈ s.cmds.head?, ∀ p ∈ s.rmQueue, ∀ rm ∈ s.heap p,
      rm.rmid = ev.rmid → alloc = true))
  | .handle env => inferInstanceAs (Decidable (s.HandlesWell env))
  | .dbgActivate .. | .dbgDel | .report .. | .post .. | .deinit _ => .isTrue trivial

theorem progress_law_beacon :
    Run.Each step Progresses initial
      [.request true true true beaconRequest, .command true,
        .handle fun _ => ⟨6, true, true, true⟩, .handle fun _ => ⟨6, true, true, true⟩] :=
  progress_law _ (by decide +kernel)

theorem channel_load_stuck :
    ¬ NoneStuck (Run.exec step initial
      [.request true true true channelLoadRequest, .command true,
        .handle fun _ => ⟨6, true, true, true⟩]) := by
  have hquiet : ∃ s, s = Run.exec step initial
      [.request true true true channelLoadRequest, .command true,
        .handle fun _ => ⟨6, true, true, true⟩] ∧
      (s.heap 0).isSome = true ∧ s.evQueue ++ s.cmds = [] ∧ s.surveys = [] ∧
      ∀ i, (s.clock i).counter = 0 := ⟨_, rfl, by decide +kernel⟩
  obtain ⟨s, rfl, hlive, hevents, hsurveys, hclock⟩ := hquiet
  obtain ⟨rm, hrm⟩ := Option.isSome_iff_exists.mp hlive
  intro hnone
  rcases hnone 0 rm hrm with ⟨ev, hev, -⟩ | hsurvey | ⟨-, hpos⟩
  · rw [hevents] at hev
    exact absurd hev List.not_mem_nil
  · rw [hsurveys] at hsurvey
    exact absurd hsurvey List.not_mem_nil
  · exact absurd hpos (Nat.not_lt.mpr (hclock rm.pclock).le)

end RmPriv

end Rm
