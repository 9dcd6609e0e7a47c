import Rtl8188fu.Lib.Run
import Rtl8188fu.Rm.SystemInvariant

namespace Rm

namespace Meas

def endPosts (env : Env) (rmid : UInt32) : List RmEvent :=
  if rmid = 0 ∨ env.alloc = false then [] else [⟨rmid, .stateOut⟩]

theorem endPosts_eq_nil {env : Env} {rmid : UInt32} :
    endPosts env rmid = [] ↔ rmid = 0 ∨ env.alloc = false := by
  rw [endPosts]
  split
  · next h => exact iff_of_true rfl h
  · next h => exact iff_of_false (List.cons_ne_nil _ _) h

theorem gotoEnd_posted (env : Env) {m : Meas} (hst : m.rm.state ≠ .ended) :
    (m.gotoEnd env).posted = m.posted ++ endPosts env m.rm.rmid := by
  have hout : m.access.stateOut = m.access.rmCancelClock := by
    rw [stateOut]
    split
    · next h => exact absurd h hst
    · rfl
  rw [gotoEnd, rmStateGoto, if_neg hst]
  dsimp only
  rw [hout, endIn, rmPostEvent, endPosts]
  split
  · next h => rw [if_pos (show m.rm.rmid = 0 ∨ env.alloc = false from h), List.append_nil]; rfl
  · next h => rw [if_neg (show ¬(m.rm.rmid = 0 ∨ env.alloc = false) from h)]; rfl

theorem rmStateRun_cancel (env : Env) {m : Meas} (hst : m.rm.state ≠ .ended) :
    (m.rmStateRun env .cancel).rm.state = .ended ∧
      (m.rmStateRun env .cancel).posted = m.posted ++ endPosts env m.rm.rmid := by
  have hrun : ∃ m' : Meas, m'.rm.state = m.rm.state ∧ m'.rm.rmid = m.rm.rmid ∧
      m'.posted = m.posted ∧ m.rmStateRun env .cancel = m'.gotoEnd env := by
    rw [rmStateRun]
    cases hs : m.rm.state with
    | ended => exact absurd hs hst
    | doMeas => exact ⟨m.access.rmSetRepMode measRepModRefuse, hs, rfl, rfl, rfl⟩
    | idle | waitMeas | sendReport | recvReport => exact ⟨m.access, hs, rfl, rfl, rfl⟩
  obtain ⟨m', hstate, hrmid, hposted, heq⟩ := hrun
  rw [heq, gotoEnd_posted env (hstate ▸ hst), hrmid, hposted]
  exact ⟨gotoEnd_state env m', rfl⟩

end Meas

def RmObj.leaves (rm : RmObj) (env : Env) : List RmEvent :=
  if rm.state = .ended then [] else Meas.endPosts env rm.rmid

namespace RmPriv

variable {s : RmPriv}

theorem rmStateRun_fault {p : ℕ} {rm : RmObj} (hp : s.heap p = some rm) (env : Env) (evid : RmEv) :
    (s.rmStateRun env evid p).fault = true ↔ s.fault = true ∨ rm.derails evid = true := by
  rw [rmStateRun_some hp]
  have hor : (s.store p ((s.load rm).rmStateRun env evid)).fault =
      (s.fault || ((s.load rm).rmStateRun env evid).fault) := rfl
  rw [hor, Bool.or_eq_true]
  refine or_congr_right ?_
  cases hderails : rm.derails evid with
  | true => exact iff_of_true (Meas.rmStateRun_derails (m := s.load rm) env hderails).1 rfl
  | false =>
    have hsame : ((s.load rm).rmStateRun env evid).fault = (s.load rm).fault := by
      cases hfrees : rm.frees evid with
      | true => exact (Meas.rmStateRun_frees (m := s.load rm) env rfl hfrees).2.1
      | false => exact (Meas.rmStateRun_alive (m := s.load rm) env rfl hderails hfrees).fault
    rw [hsame]
    exact Iff.rfl

theorem rmHandler_fault (h : s.Wf) (env : ℕ → Env) :
    (s.rmHandler env).fault = true ↔ s.fault = true ∨
      ∃ ev ∈ s.evQueue.head?, ∃ p ∈ s.receivers ev, ∃ rm, s.heap p = some rm ∧
        rm.derails ev.evid = true := by
  cases hev : s.evQueue with
  | nil =>
    rw [rmHandler]
    rw [hev]
    simp
  | cons ev rest =>
    rw [rmHandler_cons h env hev]
    have hbad := runs_bad (s := { s with evQueue := rest }) (fun t => t.fault = true) (fun _ => True)
      (fun rm => rm.derails ev.evid = true) env ev.evid
      (fun t p rm hp _ => rmStateRun_fault hp _ _) (receivers_nodup h ev) fun p hp => by
        obtain ⟨rm, hrm⟩ := Option.isSome_iff_exists.mp (h.live p (mem_receivers hp))
        exact ⟨rm, hrm, trivial⟩
    refine hbad.trans (or_congr_right ?_)
    simp only [List.head?_cons, Option.mem_some_iff, exists_eq_left']

theorem rmPostEvent_fault (alloc : Bool) (rmid : UInt32) (evid : RmEv) :
    (s.rmPostEvent alloc rmid evid).fault = s.fault := by
  rw [rmPostEvent]
  split <;> rfl

theorem rmEnqueueRmobj_fault {p : ℕ} {rm : RmObj} (hp : s.heap p = some rm) (cmdAlloc : Bool) :
    (s.rmEnqueueRmobj cmdAlloc p).fault = s.fault := by
  rw [rmEnqueueRmobj]
  rw [hp]
  exact rmPostEvent_fault _ _ _

theorem request_fault (h : s.Wf) (alloc cmdAlloc enqueue : Bool) (n : NewMeas) :
    (s.request alloc cmdAlloc enqueue n).fault = s.fault := by
  rw [request]
  cases alloc with
  | false => rfl
  | true =>
    obtain ⟨i, clock, heq, -⟩ := h.rmAllocRmobj n
    rw [heq]
    dsimp only
    split
    · exact rmEnqueueRmobj_fault (s := s.allocated n i clock) (Function.update_self ..) cmdAlloc
    · rfl

theorem rmFreeRmobj_fault {p : ℕ} {rm : RmObj} (hp : s.heap p = some rm) :
    (s.rmFreeRmobj p).fault = s.fault := by
  rw [rmFreeRmobj]
  rw [hp]
  exact Bool.or_false _

theorem rmDbgAddMeas_fault (h : s.Wf) (alloc : Bool) (n : NewMeas) (found : Bool) :
    (s.rmDbgAddMeas alloc n found).fault = s.fault := by
  have hfinish : ∀ t : RmPriv, t.fault = s.fault → ∀ p rm, t.heap p = some rm →
      (t.dbgFinish n found p).fault = s.fault := by
    intro t ht p rm hp
    rw [dbgFinish]
    split
    · rw [hp]
      exact ht
    · exact (rmFreeRmobj_fault hp).trans ht
  rw [rmDbgAddMeas]
  cases hsel : s.prmSel with
  | some p =>
    obtain ⟨-, rm, hp, -⟩ := h.sel p hsel
    exact hfinish s rfl p rm hp
  | none =>
    cases alloc with
    | false => rfl
    | true =>
      obtain ⟨i, clock, heq, -⟩ := h.rmAllocRmobj n
      rw [heq]
      exact hfinish (s.allocated n i clock) rfl s.next _ (Function.update_self ..)

theorem rmDbgActivateMeas_fault (h : s.Wf) (cmdAlloc : Bool) (curChannel : UInt8) :
    (s.rmDbgActivateMeas cmdAlloc curChannel).fault = s.fault := by
  rw [rmDbgActivateMeas]
  cases hsel : s.prmSel with
  | none => rfl
  | some p =>
    obtain ⟨-, rm, hp, -⟩ := h.sel p hsel
    dsimp only
    rw [hp]
    exact rmEnqueueRmobj_fault (p := p)
      (s := { s with
        prmSel := some p
        heap := Function.update s.heap p (some { rm with q.chNum := curChannel }) })
      (Function.update_self ..) cmdAlloc

theorem recvReport_fault (h : s.Wf) (cmdAlloc : Bool) (rmid : UInt32) (actionCode : UInt8)
    (mMode : Option UInt8) (isRsp : Bool) :
    (s.recvReport cmdAlloc rmid actionCode mMode isRsp).fault = s.fault := by
  rw [recvReport]
  rw [h.walkQueue_eq]
  cases hget : s.rmGetRmobj rmid with
  | none => rfl
  | some p =>
    obtain ⟨-, -, rm, hp, -⟩ := rmGetRmobj_mem hget
    dsimp only
    rw [hp]
    dsimp only
    split
    · exact rmPostEvent_fault _ _ _
    · rfl

theorem timerOne_fault (h : s.Wf) (alloc : Fin rmTimerNum → Bool) (i : Fin rmTimerNum) :
    (timerOne alloc s i).fault = s.fault := by
  rw [timerOne]
  cases hprm : (s.clock i).prm with
  | none => rfl
  | some p =>
    obtain ⟨rm, hp, -⟩ := h.owner i p hprm
    dsimp only
    split
    · rfl
    · split
      · rw [hp]
        exact rmPostEvent_fault _ _ _
      · rfl

theorem tick_fault (h : s.Wf) (alloc : Fin rmTimerNum → Bool) (is : List (Fin rmTimerNum)) :
    (is.foldl (timerOne alloc) s).fault = s.fault := by
  induction is generalizing s with
  | nil => rfl
  | cons i is ih => exact (ih (h.timerOne alloc i)).trans (timerOne_fault h alloc i)

theorem drainOne_cons (h : s.Wf) (env : ℕ → Env) {p : ℕ} {ps : List ℕ} (hqueue : s.rmQueue = p :: ps)
    {rm : RmObj} (hp : s.heap p = some rm) :
    drainOne env s = s.store p ((s.load rm).rmStateRun (env p) .cancel) := by
  rw [drainOne]
  rw [hqueue]
  dsimp only
  rw [h.walkQueue_eq, rmStateRun_some hp]

structure HeadGone (env : ℕ → Env) (p : ℕ) (rm : RmObj) (ps : List ℕ) (s t : RmPriv) : Prop where
  wf : t.Wf
  queue : t.rmQueue = ps
  heap : t.heap = Function.update s.heap p none
  posted : t.evQueue = s.evQueue ++ rm.leaves (env p)
  fault : t.fault = s.fault

theorem drainOne_ended (h : s.Wf) (env : ℕ → Env) {p : ℕ} {ps : List ℕ}
    (hqueue : s.rmQueue = p :: ps) {rm : RmObj} (hp : s.heap p = some rm) (hst : rm.state = .ended) :
    HeadGone env p rm ps s (drainOne env s) := by
  have hfrees : rm.frees .cancel = true := by simp [RmObj.frees, hst]
  obtain ⟨hfreed, hfault, hposted⟩ := Meas.rmStateRun_frees (m := s.load rm) (env p) rfl hfrees
  have hnodup := h.nodup
  rw [hqueue] at hnodup
  have hwf := h.drainOne env
  rw [drainOne_cons h env hqueue hp] at hwf ⊢
  refine ⟨hwf, ?_, ?_, ?_, ?_⟩
  · rw [store]
    dsimp only
    rw [if_pos hfreed, hqueue, List.filter_cons_of_neg (by simp)]
    refine List.filter_eq_self.mpr fun q hq => ?_
    simpa using ne_of_mem_of_not_mem hq (List.nodup_cons.mp hnodup).1
  · rw [store]
    dsimp only
    rw [if_pos hfreed]
  · rw [store, RmObj.leaves]
    dsimp only
    rw [hposted, if_pos hst]
    rfl
  · rw [store]
    dsimp only
    rw [hfault]
    exact Bool.or_false _

theorem drainOne_active (h : s.Wf) (env : ℕ → Env) {p : ℕ} {ps : List ℕ}
    (hqueue : s.rmQueue = p :: ps) {rm : RmObj} (hp : s.heap p = some rm) (hst : rm.state ≠ .ended) :
    (drainOne env s).rmQueue = p :: ps ∧
      (∃ rm', rm'.state = .ended ∧ (drainOne env s).heap = Function.update s.heap p (some rm')) ∧
      (drainOne env s).evQueue = s.evQueue ++ rm.leaves (env p) ∧
      (drainOne env s).fault = s.fault := by
  have hfrees : rm.frees .cancel = false := by simp [RmObj.frees, hst]
  have hderails : rm.derails .cancel = false := by simp [RmObj.derails]
  have hlive := Meas.rmStateRun_alive (m := s.load rm) (env p) rfl hderails hfrees
  obtain ⟨hended, hposted⟩ := Meas.rmStateRun_cancel (m := s.load rm) (env p) hst
  rw [drainOne_cons h env hqueue hp]
  rw [store, RmObj.leaves]
  dsimp only
  rw [if_neg hst, hlive.freed, hposted, hlive.fault]
  exact ⟨hqueue, ⟨_, hended, rfl⟩, rfl, Bool.or_false _⟩

theorem drain_head (h : s.Wf) (env : ℕ → Env) {p : ℕ} {ps : List ℕ} (hqueue : s.rmQueue = p :: ps)
    {rm : RmObj} (hp : s.heap p = some rm) :
    ∃ k ≤ 2, HeadGone env p rm ps s ((drainOne env)^[k] s) := by
  cases Decidable.em (rm.state = .ended) with
  | inl hst => exact ⟨1, by decide, drainOne_ended h env hqueue hp hst⟩
  | inr hst =>
    obtain ⟨hqueue', ⟨rm', hended, hheap⟩, hposted, hfault⟩ := drainOne_active h env hqueue hp hst
    have hp' : (drainOne env s).heap p = some rm' := by rw [hheap, Function.update_self]
    have hgone := drainOne_ended (h.drainOne env) env hqueue' hp' hended
    refine ⟨2, le_rfl, hgone.wf, hgone.queue, ?_, ?_, hgone.fault.trans hfault⟩
    · exact hgone.heap.trans (by rw [hheap, Function.update_idem])
    · have hnil : rm'.leaves (env p) = [] := if_pos hended
      refine hgone.posted.trans ?_
      rw [hposted, hnil, List.append_nil]

theorem drainOne_empty (env : ℕ → Env) (hqueue : s.rmQueue = []) (n : ℕ) :
    (drainOne env)^[n] s = s := by
  have hone : drainOne env s = s := by
    rw [drainOne]
    rw [hqueue]
  exact Function.iterate_fixed hone n

def leftovers (s : RmPriv) (env : ℕ → Env) : List RmEvent :=
  s.rmQueue.flatMap fun p => (s.heap p).elim [] fun rm => rm.leaves (env p)

structure Drained (env : ℕ → Env) (s t : RmPriv) : Prop where
  wf : t.Wf
  queue : t.rmQueue = []
  heap : ∀ p, t.heap p = if p ∈ s.rmQueue then none else s.heap p
  posted : t.evQueue = s.evQueue ++ s.leftovers env
  fault : t.fault = s.fault

theorem Drained.cons {env : ℕ → Env} {p : ℕ} {ps : List ℕ} {rm : RmObj} {t u : RmPriv} (h : s.Wf)
    (hqueue : s.rmQueue = p :: ps) (hp : s.heap p = some rm) (ht : HeadGone env p rm ps s t)
    (hu : Drained env t u) : Drained env s u := by
  have hnot : p ∉ ps := by
    have hnodup := h.nodup
    rw [hqueue] at hnodup
    exact (List.nodup_cons.mp hnodup).1
  have hsame : ∀ q, q ≠ p → t.heap q = s.heap q := fun q hq => by
    rw [ht.heap, Function.update_of_ne hq]
  refine ⟨hu.wf, hu.queue, fun q => ?_, ?_, hu.fault.trans ht.fault⟩
  · rw [hu.heap q, ht.queue, hqueue]
    rcases eq_or_ne q p with rfl | hq
    · rw [if_neg hnot, if_pos List.mem_cons_self, ht.heap, Function.update_self]
    · rw [hsame q hq]
      exact if_congr (by simp [hq]) rfl rfl
  · have hleft : s.leftovers env = rm.leaves (env p) ++ t.leftovers env := by
      unfold leftovers
      rw [hqueue, List.flatMap_cons, hp, ht.queue]
      refine congrArg _ ?_
      simp only [List.flatMap_def]
      refine congrArg _ (List.map_congr_left fun q hq => ?_)
      rw [hsame q (ne_of_mem_of_not_mem hq hnot)]
    rw [hu.posted, ht.posted, hleft, List.append_assoc]

theorem drain (h : s.Wf) (env : ℕ → Env) {n : ℕ} (hn : 2 * s.rmQueue.length ≤ n) :
    Drained env s ((drainOne env)^[n] s) := by
  induction hqueue : s.rmQueue generalizing s n with
  | nil =>
    rw [drainOne_empty env hqueue]
    exact ⟨h, hqueue, fun p => by simp [hqueue], by simp [leftovers, hqueue], rfl⟩
  | cons p ps ih =>
    obtain ⟨rm, hp⟩ := Option.isSome_iff_exists.mp (h.live p (hqueue ▸ List.mem_cons_self))
    obtain ⟨k, hk, hgone⟩ := drain_head h env hqueue hp
    rw [hqueue, List.length_cons] at hn
    obtain ⟨m, rfl⟩ : ∃ m, n = m + k := ⟨n - k, by omega⟩
    rw [Function.iterate_add_apply]
    refine Drained.cons h hqueue hp hgone (ih hgone.wf ?_ hgone.queue)
    rw [hgone.queue]
    omega

theorem rtwDeinitRm_drained (h : s.Wf) (env : ℕ → Env) :
    Drained env { s with enable := false, evQueue := [] } (s.rtwDeinitRm env) := by
  have hstart : ({ s with enable := false, evQueue := [] } : RmPriv).Wf :=
    ⟨h.nodup, h.live, h.fresh, h.sel, h.owner⟩
  exact drain hstart env le_rfl

structure Empty (s : RmPriv) : Prop where
  heap : ∀ p, s.heap p = none
  queue : s.rmQueue = []
  events : s.evQueue = []
  clock : ∀ i, (s.clock i).prm = none

def NoResidue (s : RmPriv) (env : ℕ → Env) : Prop :=
  ∀ p rm, s.heap p = some rm → p ∈ s.rmQueue ∧
    (rm.state = .ended ∨ rm.rmid = 0 ∨ (env p).alloc = false)

theorem leaves_eq_nil {rm : RmObj} {env : Env} :
    rm.leaves env = [] ↔ rm.state = .ended ∨ rm.rmid = 0 ∨ env.alloc = false := by
  rw [RmObj.leaves]
  split
  · next h => exact iff_of_true rfl (.inl h)
  · next h => exact Meas.endPosts_eq_nil.trans (or_iff_right h).symm

theorem rtwDeinitRm_empty (h : s.Wf) (env : ℕ → Env) :
    (s.rtwDeinitRm env).Empty ↔ s.NoResidue env := by
  have hd := rtwDeinitRm_drained h env
  have hheap : ∀ p, (s.rtwDeinitRm env).heap p = if p ∈ s.rmQueue then none else s.heap p := hd.heap
  have hposted : (s.rtwDeinitRm env).evQueue = s.leftovers env := hd.posted
  constructor
  · intro he p rm hp
    have hmem : p ∈ s.rmQueue := by
      by_contra hnot
      have hnone := he.heap p
      rw [hheap, if_neg hnot, hp] at hnone
      exact absurd hnone (Option.some_ne_none rm)
    refine ⟨hmem, leaves_eq_nil.mp ?_⟩
    have hnil : s.leftovers env = [] := hposted.symm.trans he.events
    have hone := List.flatMap_eq_nil_iff.mp hnil p hmem
    rwa [hp] at hone
  · intro hres
    have hnone : ∀ p, (s.rtwDeinitRm env).heap p = none := by
      intro p
      rw [hheap]
      cases hp : s.heap p with
      | none => exact ite_self none
      | some rm => exact if_pos (hres p rm hp).1
    refine ⟨hnone, hd.queue, ?_, ?_⟩
    · rw [hposted]
      refine List.flatMap_eq_nil_iff.mpr fun p hmem => ?_
      cases hp : s.heap p with
      | none => rfl
      | some rm => exact leaves_eq_nil.mpr (hres p rm hp).2
    · intro i
      cases hprm : ((s.rtwDeinitRm env).clock i).prm with
      | none => rfl
      | some p =>
        obtain ⟨rm, hp, -⟩ := hd.wf.owner i p hprm
        exact absurd ((hnone p).symm.trans hp) (Option.some_ne_none rm).symm

def LifetimeKept (t : RmPriv) : RmSysEvent → Prop
  | .deinit _ => t.fault = false ∧ t.Empty
  | _ => t.fault = false

def FreesClean (s : RmPriv) : RmSysEvent → Prop
  | .handle _ => ∀ ev ∈ s.evQueue.head?, ∀ p ∈ s.receivers ev, ∀ rm, s.heap p = some rm →
      rm.derails ev.evid = false
  | .deinit env => s.NoResidue env
  | _ => True

theorem lifetimeKept_handle (h : s.Wf) (hfault : s.fault = false) (env : ℕ → Env) :
    (s.rmHandler env).fault = false ↔ FreesClean s (.handle env) := by
  rw [← Bool.not_eq_true, rmHandler_fault h env, hfault]
  rw [FreesClean]
  constructor
  · intro hnot ev hev p hp rm hrm
    rw [← Bool.not_eq_true]
    exact fun hd => hnot (.inr ⟨ev, hev, p, hp, rm, hrm, hd⟩)
  · rintro hclean (habs | ⟨ev, hev, p, hp, rm, hrm, hd⟩)
    · exact absurd habs Bool.false_ne_true
    · exact absurd (hd.symm.trans (hclean ev hev p hp rm hrm)) Bool.true_eq_false.mp

theorem lifetimeKept_step (h : s.Wf) (hfault : s.fault = false) (e : RmSysEvent) :
    (s.step e).LifetimeKept e ↔ FreesClean s e := by
  cases e with
  | handle env => exact lifetimeKept_handle h hfault env
  | deinit env =>
    have hsame : (s.rtwDeinitRm env).fault = false :=
      (rtwDeinitRm_drained h env).fault.trans hfault
    exact (and_iff_right hsame).trans (rtwDeinitRm_empty h env)
  | request alloc cmdAlloc enqueue n =>
    exact iff_of_true ((request_fault h alloc cmdAlloc enqueue n).trans hfault) trivial
  | dbgAdd alloc n found => exact iff_of_true ((rmDbgAddMeas_fault h alloc n found).trans hfault) trivial
  | dbgActivate cmdAlloc curChannel =>
    exact iff_of_true ((rmDbgActivateMeas_fault h cmdAlloc curChannel).trans hfault) trivial
  | dbgDel => exact iff_of_true hfault trivial
  | report cmdAlloc rmid actionCode mMode isRsp =>
    exact iff_of_true ((recvReport_fault h cmdAlloc rmid actionCode mMode isRsp).trans hfault) trivial
  | post alloc rmid evid => exact iff_of_true ((rmPostEvent_fault alloc rmid evid).trans hfault) trivial
  | surveyDone alloc =>
    refine iff_of_true ?_ trivial
    show (s.surveyDone alloc).fault = false
    rw [surveyDone]
    split
    · exact hfault
    · dsimp only
      split
      · exact (rmPostEvent_fault _ _ _).trans hfault
      · exact hfault
  | tick alloc => exact iff_of_true ((tick_fault h alloc _).trans hfault) trivial
  | command alloc =>
    refine iff_of_true ?_ trivial
    show (s.rmPostEventHdl alloc).fault = false
    rw [rmPostEventHdl]
    split <;> exact hfault

theorem LifetimeKept.fault {t : RmPriv} {e : RmSysEvent} (h : t.LifetimeKept e) : t.fault = false := by
  cases e with
  | deinit => exact h.1
  | _ => exact h

theorem lifetime_law (es : List RmSysEvent) :
    Run.Each step (fun s e => (s.step e).LifetimeKept e) initial es ↔
      Run.Each step FreesClean initial es :=
  Run.each_iff step _ FreesClean (fun s => s.Wf ∧ s.fault = false)
    (fun _ e h => lifetimeKept_step h.1 h.2 e) (fun _ e h hok => ⟨h.1.step e, hok.fault⟩)
    ⟨initial_wf, rfl⟩ es

def beaconRequest : NewMeas where
  master := false
  aid := 1
  diagToken := 1
  q := ⟨rmActRadioMeasReq, bcnReq, 0, 0, 1, 0⟩
  mMode := 0
  token := slave_token

theorem deinit_keeps_event :
    ¬ Run.Each step (fun s e => (s.step e).LifetimeKept e) initial
      [.request true true true beaconRequest, .deinit fun _ => ⟨1, true, true, true⟩] := by
  rintro ⟨-, ⟨-, hempty⟩, -⟩
  have hleft : ((initial.step (.request true true true beaconRequest)).step
      (.deinit fun _ => ⟨1, true, true, true⟩)).evQueue = [⟨beaconRequest.rmid, .stateOut⟩] := by
    decide +kernel
  exact absurd (hleft.symm.trans hempty.events) (List.cons_ne_nil _ _)

end RmPriv

end Rm
