import Rtl8188fu.Lib.Run
import Rtl8188fu.Rm.SystemInvariant

namespace Rm

theorem shifted_mask (w mask : BitVec 32) {k : ℕ}
    (hmask : ∀ i (hi : i < 32), k ≤ i → mask[i] = false) : (w <<< k) &&& mask = 0#32 := by
  ext i hi
  simp only [BitVec.getElem_and, BitVec.getElem_shiftLeft, BitVec.getElem_zero]
  rcases Nat.lt_or_ge i k with hlt | hge
  · simp [hlt]
  · rw [hmask i hi hge, Bool.and_false]

theorem rmid_low_bits (aid token role mask : UInt32)
    (hmask : ∀ i (hi : i < 32), 8 ≤ i → mask.toBitVec[i] = false) :
    (aid <<< 16 ||| token <<< 8 ||| role) &&& mask = role &&& mask := by
  apply UInt32.toBitVec_inj.mp
  have haid := shifted_mask aid.toBitVec mask.toBitVec (k := 16) fun i hi h => hmask i hi (by omega)
  have htoken := shifted_mask token.toBitVec mask.toBitVec (k := 8) hmask
  show (aid.toBitVec <<< 16 ||| token.toBitVec <<< 8 ||| role.toBitVec) &&& mask.toBitVec =
    role.toBitVec &&& mask.toBitVec
  rw [BitVec.and_or_distrib_right, BitVec.and_or_distrib_right, haid, htoken]
  simp

theorem NewMeas.isMaster_rmid (n : NewMeas) : isMaster n.rmid = n.master := by
  rw [NewMeas.rmid]
  split
  · next h =>
    cases hm : n.master with
    | false => rfl
    | true => exact absurd h (n.token hm)
  · rw [isMaster, rmid_low_bits _ _ _ _ (by decide)]
    cases n.master <;> rfl

namespace RmPriv

def RolesKept (s : RmPriv) : Prop :=
  ∀ rmid st, (rmid, st) ∈ s.log → Meas.roleOk (isMaster rmid) st = true

def InRole (heap : ℕ → Option RmObj) : Prop :=
  ∀ p rm, heap p = some rm → Meas.roleOk (isMaster rm.rmid) rm.state = true

structure Roles (s : RmPriv) : Prop where
  wf : s.Wf
  heap : InRole s.heap
  log : s.RolesKept

theorem initial_roles : initial.Roles :=
  ⟨initial_wf, fun _ rm h => absurd h (Option.some_ne_none rm).symm,
    fun _ _ h => absurd h List.not_mem_nil⟩

theorem InRole.set {heap : ℕ → Option RmObj} (h : InRole heap) {p : ℕ} {rm : RmObj}
    (hrm : Meas.roleOk (isMaster rm.rmid) rm.state = true) :
    InRole (Function.update heap p (some rm)) := by
  intro q rm' hq
  rcases eq_or_ne q p with rfl | hne
  · rw [Function.update_self, Option.some.injEq] at hq
    exact hq ▸ hrm
  · rw [Function.update_of_ne hne] at hq
    exact h q rm' hq

theorem InRole.drop {heap : ℕ → Option RmObj} (h : InRole heap) (p : ℕ) :
    InRole (Function.update heap p none) := by
  intro q rm hq
  rcases eq_or_ne q p with rfl | hne
  · rw [Function.update_self] at hq
    exact absurd hq.symm (Option.some_ne_none rm)
  · rw [Function.update_of_ne hne] at hq
    exact h q rm hq

variable {s : RmPriv}

theorem store_log (p : ℕ) (m : Meas) : (s.store p m).log = s.log ++ m.log := rfl

theorem rolesKept_rmStateRun {p : ℕ} {rm : RmObj} (hp : s.heap p = some rm)
    (hrole : Meas.roleOk (isMaster rm.rmid) rm.state = true) (env : Env) (evid : RmEv) :
    (s.rmStateRun env evid p).RolesKept ↔ s.RolesKept ∧ rm.crossesRole evid = false := by
  rw [rmStateRun_some hp]
  cases hcross : rm.crossesRole evid with
  | true =>
    refine iff_of_false (fun hkept => ?_) fun h => absurd h.2.symm Bool.false_ne_true
    have hlog := Meas.rmStateRun_crosses (m := s.load rm) env hcross
    have hrole := hkept rm.rmid .doMeas (List.mem_append_right _ hlog)
    have hmaster : isMaster rm.rmid = true := by
      simp only [RmObj.crossesRole, Bool.and_eq_true] at hcross
      exact hcross.1.1
    rw [hmaster] at hrole
    exact absurd hrole Bool.false_ne_true
  | false =>
    have hframe := Meas.rmStateRun_role (m := s.load rm) env hrole hcross
    obtain ⟨l, hl, hok⟩ := hframe.log
    have hlog : ((s.load rm).rmStateRun env evid).log = l := hl
    refine ⟨fun h => ⟨fun rmid st hmem => h rmid st (List.mem_append_left _ hmem), rfl⟩, ?_⟩
    rintro ⟨h, -⟩ rmid st hmem
    rw [store_log, hlog] at hmem
    rcases List.mem_append.mp hmem with hmem | hmem
    · exact h rmid st hmem
    · obtain ⟨hrmid, hst⟩ := hok _ hmem
      have hid : rmid = rm.rmid := hrmid
      exact hid ▸ hst

theorem inRole_rmStateRun (h : InRole s.heap) {p : ℕ} {env : Env} {evid : RmEv}
    (hkeeps : ∀ rm, s.heap p = some rm → rm.crossesRole evid = false) :
    InRole (s.rmStateRun env evid p).heap := by
  cases hp : s.heap p with
  | none =>
    rw [rmStateRun, hp]
    exact h
  | some rm =>
    rw [rmStateRun_some hp]
    have hframe := Meas.rmStateRun_role (m := s.load rm) env (h p rm hp) (hkeeps rm hp)
    rw [store]
    dsimp only
    split
    · exact h.drop p
    · refine h.set ?_
      rw [hframe.rmid]
      exact hframe.state (h p rm hp)

theorem inRole_runs {ps : List ℕ} (h : InRole s.heap) (hnodup : ps.Nodup) {env : ℕ → Env}
    {evid : RmEv} (hkeeps : ∀ p ∈ ps, ∀ rm, s.heap p = some rm → rm.crossesRole evid = false) :
    InRole (runs env evid ps s).heap := by
  induction ps generalizing s with
  | nil => exact h
  | cons p ps ih =>
    obtain ⟨hp, hps⟩ := List.nodup_cons.mp hnodup
    refine ih (inRole_rmStateRun h (hkeeps p List.mem_cons_self)) hps fun q hq => ?_
    rw [rmStateRun_heap_ne (ne_of_mem_of_not_mem hq hp)]
    exact hkeeps q (List.mem_cons_of_mem p hq)

theorem rolesKept_runs {ps : List ℕ} (h : InRole s.heap) (hnodup : ps.Nodup)
    (hlive : ∀ p ∈ ps, (s.heap p).isSome = true) (env : ℕ → Env) (evid : RmEv) :
    (runs env evid ps s).RolesKept ↔ s.RolesKept ∧
      ∀ p ∈ ps, ∀ rm, s.heap p = some rm → rm.crossesRole evid = false := by
  have hbad := runs_bad (fun t => ¬t.RolesKept)
    (fun rm => Meas.roleOk (isMaster rm.rmid) rm.state = true)
    (fun rm => rm.crossesRole evid = true) env evid
    (fun t p rm hp hrole => by rw [rolesKept_rmStateRun hp hrole, not_and_or, Bool.not_eq_false])
    hnodup fun p hp => by
      obtain ⟨rm, hrm⟩ := Option.isSome_iff_exists.mp (hlive p hp)
      exact ⟨rm, hrm, h p rm hrm⟩
  rw [← not_iff_not, hbad, not_and_or]
  refine or_congr_right ?_
  push Not
  simp only [Bool.not_eq_false]

def KeepsRole (s : RmPriv) : RmSysEvent → Prop
  | .handle _ => ∀ ev ∈ s.evQueue.head?, ∀ p ∈ s.receivers ev, ∀ rm, s.heap p = some rm →
      rm.crossesRole ev.evid = false
  | _ => True

structure Quiet (s t : RmPriv) : Prop where
  log : t.log = s.log
  heap : InRole t.heap

theorem Quiet.rmPostEvent {t : RmPriv} (h : Quiet s t) (alloc : Bool) (rmid : UInt32) (evid : RmEv) :
    Quiet s (t.rmPostEvent alloc rmid evid) := by
  rw [RmPriv.rmPostEvent]
  split <;> exact ⟨h.log, h.heap⟩

theorem quiet_enqueue (h : InRole s.heap) {p : ℕ} {rm : RmObj} (hp : s.heap p = some rm)
    (cmdAlloc : Bool) : Quiet s (s.rmEnqueueRmobj cmdAlloc p) := by
  have hset : Quiet s { s with
      rmQueue := s.rmQueue ++ [p]
      heap := Function.update s.heap p (some { rm with state := .idle }) } := ⟨rfl, h.set rfl⟩
  rw [rmEnqueueRmobj]
  rw [hp]
  exact hset.rmPostEvent _ _ _

theorem InRole.allocated (h : InRole s.heap) (n : NewMeas) (i : Fin rmTimerNum)
    (clock : Fin rmTimerNum → RmClock) : InRole (s.allocated n i clock).heap :=
  h.set rfl

theorem quiet_request (h : s.Roles) (alloc cmdAlloc enqueue : Bool) (n : NewMeas) :
    Quiet s (s.request alloc cmdAlloc enqueue n) := by
  rw [request]
  cases alloc with
  | false => exact ⟨rfl, h.heap⟩
  | true =>
    obtain ⟨i, clock, heq, -⟩ := h.wf.rmAllocRmobj n
    rw [heq]
    dsimp only
    split
    · have hq := quiet_enqueue (s := s.allocated n i clock) (h.heap.allocated n i clock)
        (Function.update_self ..) cmdAlloc
      exact ⟨hq.log, hq.heap⟩
    · exact ⟨rfl, h.heap.allocated n i clock⟩

theorem quiet_discard (h : InRole s.heap) {p : ℕ} {rm : RmObj} (hp : s.heap p = some rm) :
    Quiet s { s.rmFreeRmobj p with prmSel := none } := by
  rw [rmFreeRmobj]
  rw [hp]
  exact ⟨List.append_nil _, h.drop p⟩

theorem quiet_dbgAdd (h : s.Roles) (alloc : Bool) (n : NewMeas) (found : Bool) :
    Quiet s (s.rmDbgAddMeas alloc n found) := by
  have hfinish : ∀ t : RmPriv, Quiet s t → ∀ p rm, t.heap p = some rm → rm.state = .idle →
      Quiet s (t.dbgFinish n found p) := by
    intro t ht p rm hp hidle
    rw [dbgFinish]
    split
    · rw [hp]
      refine ⟨ht.log, ht.heap.set ?_⟩
      rw [hidle]
      rfl
    · have hq := quiet_discard ht.heap hp
      exact ⟨hq.log.trans ht.log, hq.heap⟩
  rw [rmDbgAddMeas]
  cases hsel : s.prmSel with
  | some p =>
    obtain ⟨-, rm, hp, hidle⟩ := h.wf.sel p hsel
    exact hfinish s ⟨rfl, h.heap⟩ p rm hp hidle
  | none =>
    cases alloc with
    | false => exact ⟨rfl, h.heap⟩
    | true =>
      obtain ⟨i, clock, heq, -⟩ := h.wf.rmAllocRmobj n
      rw [heq]
      exact hfinish (s.allocated n i clock) ⟨rfl, h.heap.allocated n i clock⟩ s.next _
        (Function.update_self ..) rfl

theorem quiet_dbgActivate (h : s.Roles) (cmdAlloc : Bool) (curChannel : UInt8) :
    Quiet s (s.rmDbgActivateMeas cmdAlloc curChannel) := by
  rw [rmDbgActivateMeas]
  cases hsel : s.prmSel with
  | none => exact ⟨rfl, h.heap⟩
  | some p =>
    obtain ⟨-, rm, hp, hidle⟩ := h.wf.sel p hsel
    dsimp only
    rw [hp]
    have hq := quiet_enqueue (p := p)
      (s := { s with
        prmSel := some p
        heap := Function.update s.heap p (some { rm with q.chNum := curChannel }) })
      (h.heap.set (by rw [hidle]; rfl)) (Function.update_self ..) cmdAlloc
    exact ⟨hq.log, hq.heap⟩

theorem quiet_report (h : s.Roles) (cmdAlloc : Bool) (rmid : UInt32) (actionCode : UInt8)
    (mMode : Option UInt8) (isRsp : Bool) :
    Quiet s (s.recvReport cmdAlloc rmid actionCode mMode isRsp) := by
  rw [recvReport]
  rw [h.wf.walkQueue_eq]
  cases s.rmGetRmobj rmid with
  | none => exact ⟨rfl, h.heap⟩
  | some p =>
    dsimp only
    cases hp : s.heap p with
    | none => exact ⟨rfl, h.heap⟩
    | some rm =>
      have hset : Quiet s { s with heap := Function.update s.heap p (some { rm with
          p.actionCode := actionCode
          p.mMode := mMode.getD rm.p.mMode }) } := ⟨rfl, h.heap.set (h.heap p rm hp)⟩
      dsimp only
      split
      · exact hset.rmPostEvent _ _ _
      · exact hset

theorem quiet_tick (h : InRole s.heap) (alloc : Fin rmTimerNum → Bool) (is : List (Fin rmTimerNum)) :
    Quiet s (is.foldl (timerOne alloc) s) := by
  induction is generalizing s with
  | nil => exact ⟨rfl, h⟩
  | cons i is ih =>
    obtain ⟨-, hheap, -, -, hlog, -⟩ := timerOne_same (s := s) alloc i
    have hq := ih (s := timerOne alloc s i) (hheap ▸ h)
    exact ⟨hq.log.trans hlog, hq.heap⟩

theorem Roles.of_quiet {t : RmPriv} (h : s.Roles) (hwf : t.Wf) (hq : Quiet s t) : t.Roles :=
  ⟨hwf, hq.heap, fun rmid st hmem => h.log rmid st (hq.log ▸ hmem)⟩

theorem cancel_keeps (rm : RmObj) : rm.crossesRole .cancel = false := by
  simp [RmObj.crossesRole]

theorem Roles.drainOne (h : s.Roles) (env : ℕ → Env) : (drainOne env s).Roles := by
  have hwf := h.wf.drainOne env
  rw [RmPriv.drainOne] at hwf ⊢
  cases hqueue : s.rmQueue with
  | nil => exact h
  | cons p ps =>
    rw [hqueue] at hwf
    obtain ⟨rm, hp⟩ := Option.isSome_iff_exists.mp (h.wf.live p (hqueue ▸ List.mem_cons_self))
    dsimp only at hwf ⊢
    rw [h.wf.walkQueue_eq] at hwf ⊢
    exact ⟨hwf, inRole_rmStateRun h.heap fun rm _ => cancel_keeps rm,
      (rolesKept_rmStateRun hp (h.heap p rm hp) _ _).mpr ⟨h.log, cancel_keeps rm⟩⟩

theorem Roles.rtwDeinitRm (h : s.Roles) (env : ℕ → Env) : (s.rtwDeinitRm env).Roles := by
  rw [RmPriv.rtwDeinitRm]
  have hstart : ({ s with enable := false, evQueue := [] } : RmPriv).Roles :=
    ⟨⟨h.wf.nodup, h.wf.live, h.wf.fresh, h.wf.sel, h.wf.owner⟩, h.heap, h.log⟩
  revert hstart
  generalize ({ s with enable := false, evQueue := [] } : RmPriv) = t
  induction 2 * s.rmQueue.length generalizing t with
  | zero => exact id
  | succ n ih => exact fun ht => ih _ (ht.drainOne env)

theorem rolesKept_handle (h : s.Roles) (env : ℕ → Env) :
    (s.rmHandler env).RolesKept ↔ KeepsRole s (.handle env) := by
  cases hev : s.evQueue with
  | nil =>
    rw [rmHandler, KeepsRole]
    rw [hev]
    exact iff_of_true h.log fun _ h => absurd h (Option.not_mem_none _)
  | cons ev rest =>
    have hruns := rolesKept_runs (s := { s with evQueue := rest }) h.heap (receivers_nodup h.wf ev)
      (fun p hp => h.wf.live p (mem_receivers hp)) env ev.evid
    rw [rmHandler_cons h.wf env hev, hruns]
    rw [KeepsRole]
    rw [hev]
    simp only [List.head?_cons, Option.mem_some_iff]
    exact ⟨fun hk ev' heq => heq ▸ hk.2, fun hk => ⟨h.log, hk ev rfl⟩⟩

theorem Roles.step (h : s.Roles) {e : RmSysEvent} (hkeeps : KeepsRole s e) : (s.step e).Roles := by
  have hwf := h.wf.step e
  cases e with
  | request alloc cmdAlloc enqueue n => exact h.of_quiet hwf (quiet_request h _ _ _ n)
  | dbgAdd alloc n found => exact h.of_quiet hwf (quiet_dbgAdd h alloc n found)
  | dbgActivate cmdAlloc curChannel => exact h.of_quiet hwf (quiet_dbgActivate h _ _)
  | dbgDel => exact h.of_quiet hwf ⟨rfl, h.heap⟩
  | report cmdAlloc rmid actionCode mMode isRsp =>
    exact h.of_quiet hwf (quiet_report h cmdAlloc rmid actionCode mMode isRsp)
  | post alloc rmid evid =>
    exact h.of_quiet hwf (Quiet.rmPostEvent ⟨rfl, h.heap⟩ alloc rmid evid)
  | surveyDone alloc =>
    refine h.of_quiet hwf ?_
    show Quiet s (s.surveyDone alloc)
    rw [RmPriv.surveyDone]
    split
    · exact ⟨rfl, h.heap⟩
    · next token rest _ =>
      have hpop : Quiet s { s with surveys := rest } := ⟨rfl, h.heap⟩
      dsimp only
      split
      · exact hpop.rmPostEvent _ _ _
      · exact hpop
  | tick alloc => exact h.of_quiet hwf (quiet_tick h.heap alloc _)
  | command alloc =>
    refine h.of_quiet hwf ?_
    show Quiet s (s.rmPostEventHdl alloc)
    rw [RmPriv.rmPostEventHdl]
    split <;> exact ⟨rfl, h.heap⟩
  | handle env =>
    refine ⟨hwf, ?_, (rolesKept_handle h env).mpr hkeeps⟩
    show InRole (s.rmHandler env).heap
    cases hev : s.evQueue with
    | nil =>
      rw [RmPriv.rmHandler]
      rw [hev]
      exact h.heap
    | cons ev rest =>
      rw [rmHandler_cons h.wf env hev]
      exact inRole_runs (s := { s with evQueue := rest }) h.heap (receivers_nodup h.wf ev)
        (hkeeps ev (by rw [hev]; rfl))
  | deinit env => exact h.rtwDeinitRm env

theorem rolesKept_step (h : s.Roles) (e : RmSysEvent) : (s.step e).RolesKept ↔ KeepsRole s e := by
  cases Classical.em (KeepsRole s e) with
  | inl hkeeps => exact iff_of_true (h.step hkeeps).log hkeeps
  | inr hkeeps =>
    cases e with
    | handle env => exact rolesKept_handle h env
    | _ => exact absurd trivial hkeeps

theorem role_law (n : NewMeas) (es : List RmSysEvent) :
    isMaster n.rmid = n.master ∧
      (Run.Each step (fun s e => (s.step e).RolesKept) initial es ↔
        Run.Each step KeepsRole initial es) :=
  ⟨n.isMaster_rmid, Run.each_iff step _ KeepsRole Roles (fun _ e h => rolesKept_step h e)
    (fun _ e h hok => h.step ((rolesKept_step h e).mp hok)) initial_roles es⟩

def neighborRequest : NewMeas where
  master := true
  aid := 1
  diagToken := 1
  q := ⟨rmActNbRepReq, 0, 0, 0, 0, 0⟩
  mMode := 0
  token _ := by decide

def quietEnv : Env := ⟨1, true, true, true⟩

theorem master_measures :
    ¬ Run.Each step (fun s e => (s.step e).RolesKept) initial
      [.request true true true neighborRequest, .command true, .handle fun _ => quietEnv] := by
  rintro ⟨-, -, hkept, -⟩
  have hrole := hkept neighborRequest.rmid .doMeas (by decide +kernel)
  exact absurd hrole (by decide)

end RmPriv

end Rm
