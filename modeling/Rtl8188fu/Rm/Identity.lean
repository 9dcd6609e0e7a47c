import Rtl8188fu.Lib.WhileLoop
import Rtl8188fu.Rm.ProgressRuns

namespace Rm

def rmGenDialogToken (dialogToken : UInt8) : UInt8 :=
  if dialogToken + 1 = 0 then 1 else dialogToken + 1

theorem rmGenDialogToken_ne (dialogToken : UInt8) : rmGenDialogToken dialogToken ≠ 0 := by
  unfold rmGenDialogToken
  split
  · decide
  · next h => exact h

def NewMeas.local (dialogToken : UInt8) (aid : UInt16) (q : RmMeasReq) : NewMeas where
  master := true
  aid := aid
  diagToken := rmGenDialogToken dialogToken
  q := q
  mMode := 0
  token _ := rmGenDialogToken_ne dialogToken

namespace RmPriv

structure Distinct (s : RmPriv) : Prop where
  nonzero : ∀ p ∈ s.rmQueue, ∀ rm, s.heap p = some rm → rm.rmid ≠ 0
  unique : ∀ p ∈ s.rmQueue, ∀ q ∈ s.rmQueue, ∀ rm rm', s.heap p = some rm → s.heap q = some rm' →
    rm.rmid = rm'.rmid → p = q

def Inherits (s t : RmPriv) : Prop :=
  ∀ p ∈ t.rmQueue, ∀ rm, t.heap p = some rm →
    p ∈ s.rmQueue ∧ ∃ rm', s.heap p = some rm' ∧ rm'.rmid = rm.rmid

section Inherits

variable {s t u : RmPriv}

theorem Inherits.refl (s : RmPriv) : Inherits s s := fun _ hp rm hrm => ⟨hp, rm, hrm, rfl⟩

theorem Inherits.trans (h : Inherits s t) (h' : Inherits t u) : Inherits s u := by
  intro p hp rm hrm
  obtain ⟨hmid, rm', hrm', hsame⟩ := h' p hp rm hrm
  obtain ⟨hold, rm'', hrm'', hsame'⟩ := h p hmid rm' hrm'
  exact ⟨hold, rm'', hrm'', hsame'.trans hsame⟩

theorem Inherits.of_same (hqueue : t.rmQueue = s.rmQueue) (hheap : t.heap = s.heap) :
    Inherits s t := by
  intro p hp rm hrm
  rw [hqueue] at hp
  rw [hheap] at hrm
  exact ⟨hp, rm, hrm, rfl⟩

theorem Inherits.distinct (h : Inherits s t) (hs : s.Distinct) : t.Distinct where
  nonzero := by
    intro p hp rm hrm
    obtain ⟨hold, rm', hrm', hsame⟩ := h p hp rm hrm
    rw [← hsame]
    exact hs.nonzero p hold rm' hrm'
  unique := by
    intro p hp q hq rm rm' hrm hrm' heq
    obtain ⟨hpold, rp, hrp, hp'⟩ := h p hp rm hrm
    obtain ⟨hqold, rq, hrq, hq'⟩ := h q hq rm' hrm'
    exact hs.unique p hpold q hqold rp rq hrp hrq (hp'.trans (heq.trans hq'.symm))

theorem Inherits.store {p : ℕ} {rm : RmObj} (hp : s.heap p = some rm) {m : Meas}
    (hrmid : m.rm.rmid = rm.rmid) : Inherits s (s.store p m) := by
  intro q hq rm' hrm'
  have hmem : q ∈ s.rmQueue := by
    change q ∈ (if m.freed then s.rmQueue.filter (fun r => r ≠ p) else s.rmQueue) at hq
    split at hq
    · exact (List.mem_filter.mp hq).1
    · exact hq
  refine ⟨hmem, ?_⟩
  cases Decidable.em (q = p) with
  | inl hqp =>
    subst hqp
    rw [store_heap_self] at hrm'
    split at hrm'
    · cases hrm'
    · cases hrm'
      exact ⟨rm, hp, hrmid.symm⟩
  | inr hqp =>
    rw [store_heap_ne hqp] at hrm'
    exact ⟨rm', hrm', rfl⟩

theorem Inherits.rmStateRun (s : RmPriv) (env : Env) (evid : RmEv) (p : ℕ) :
    Inherits s (s.rmStateRun env evid p) := by
  rw [RmPriv.rmStateRun]
  cases hp : s.heap p with
  | none => exact of_same rfl rfl
  | some rm =>
    have hframe : Meas.Frame (fun _ => true) (s.load rm) ((s.load rm).rmStateRun env evid) :=
      Meas.rmStateRun_frame env evid _
    exact store hp hframe.rmid

theorem Inherits.runs (env : ℕ → Env) (evid : RmEv) (ps : List ℕ) (s : RmPriv) :
    Inherits s (RmPriv.runs env evid ps s) := by
  induction ps generalizing s with
  | nil => exact refl s
  | cons p ps ih => exact (rmStateRun s (env p) evid p).trans (ih _)

theorem Inherits.setRm {p : ℕ} {rm rm' : RmObj} (hp : s.heap p = some rm)
    (hrmid : rm'.rmid = rm.rmid) :
    Inherits s { s with heap := Function.update s.heap p (some rm') } := by
  intro q hq r hr
  refine ⟨hq, ?_⟩
  cases Decidable.em (q = p) with
  | inl hqp =>
    subst hqp
    have hself : Function.update s.heap q (some rm') q = some rm' := Function.update_self ..
    cases hself.symm.trans hr
    exact ⟨rm, hp, hrmid.symm⟩
  | inr hqp =>
    have hother : Function.update s.heap p (some rm') q = s.heap q := Function.update_of_ne hqp _ _
    exact ⟨r, hother.symm.trans hr, rfl⟩

theorem Inherits.rmPostEvent (s : RmPriv) (alloc : Bool) (rmid : UInt32) (evid : RmEv) :
    Inherits s (s.rmPostEvent alloc rmid evid) := by
  rw [RmPriv.rmPostEvent]
  split
  · exact of_same rfl rfl
  · exact refl s

theorem Inherits.outside {p : ℕ} (hqueue : t.rmQueue = s.rmQueue) (hnot : p ∉ s.rmQueue)
    (hheap : ∀ q, q ≠ p → t.heap q = s.heap q) : Inherits s t := by
  intro q hq rm hrm
  rw [hqueue] at hq
  rw [hheap q (ne_of_mem_of_not_mem hq hnot)] at hrm
  exact ⟨hq, rm, hrm, rfl⟩

theorem Inherits.allocated (h : s.Wf) (n : NewMeas) (i : Fin rmTimerNum)
    (clock : Fin rmTimerNum → RmClock) : Inherits s (s.allocated n i clock) :=
  outside rfl h.next_notMem fun _ hq => Function.update_of_ne hq _ _

theorem Inherits.rmFreeRmobj (s : RmPriv) (p : ℕ) : Inherits s (s.rmFreeRmobj p) := by
  rw [RmPriv.rmFreeRmobj]
  cases hp : s.heap p with
  | none => exact of_same rfl rfl
  | some rm => exact store hp rfl

theorem Inherits.dbgFinish (s : RmPriv) (n : NewMeas) (found : Bool) {p : ℕ}
    (hnot : p ∉ s.rmQueue) : Inherits s (s.dbgFinish n found p) := by
  rw [RmPriv.dbgFinish]
  split
  · cases s.heap p with
    | none => exact of_same rfl rfl
    | some rm => exact outside rfl hnot fun _ hq => Function.update_of_ne hq _ _
  · exact (rmFreeRmobj s p).trans (of_same rfl rfl)

theorem Inherits.rmDbgAddMeas (h : s.Wf) (alloc : Bool) (n : NewMeas) (found : Bool) :
    Inherits s (s.rmDbgAddMeas alloc n found) := by
  rw [RmPriv.rmDbgAddMeas]
  cases hsel : s.prmSel with
  | some p => exact dbgFinish s n found (h.sel p hsel).1
  | none =>
    cases alloc with
    | false => exact refl s
    | true =>
      obtain ⟨i, clock, heq, -⟩ := h.rmAllocRmobj n
      rw [heq]
      exact (allocated h n i clock).trans (dbgFinish _ n found h.next_notMem)

theorem Inherits.recvReport (h : s.Wf) (cmdAlloc : Bool) (rmid : UInt32) (actionCode : UInt8)
    (mMode : Option UInt8) (isRsp : Bool) :
    Inherits s (s.recvReport cmdAlloc rmid actionCode mMode isRsp) := by
  rw [RmPriv.recvReport, h.walkQueue_eq]
  cases s.rmGetRmobj rmid with
  | none => exact refl s
  | some p =>
    dsimp only
    cases hp : s.heap p with
    | none => exact of_same rfl rfl
    | some rm =>
      have hset : Inherits s { s with heap := Function.update s.heap p (some { rm with
          p.actionCode := actionCode
          p.mMode := mMode.getD rm.p.mMode }) } := setRm hp rfl
      dsimp only
      split
      · exact hset.trans (rmPostEvent _ _ _ _)
      · exact hset

theorem Inherits.foldl {α : Type} {f : RmPriv → α → RmPriv} (hf : ∀ s a, Inherits s (f s a))
    (as : List α) (s : RmPriv) : Inherits s (as.foldl f s) := by
  induction as generalizing s with
  | nil => exact refl s
  | cons a as ih => exact (hf s a).trans (ih _)

theorem Inherits.timerOne (alloc : Fin rmTimerNum → Bool) (s : RmPriv) (i : Fin rmTimerNum) :
    Inherits s (timerOne alloc s i) := by
  obtain ⟨hqueue, hheap, -⟩ := timerOne_same (s := s) alloc i
  exact of_same hqueue hheap

theorem Inherits.rmHandler (h : s.Wf) (env : ℕ → Env) : Inherits s (s.rmHandler env) := by
  cases hev : s.evQueue with
  | nil =>
    rw [RmPriv.rmHandler, hev]
    exact refl s
  | cons ev rest =>
    rw [rmHandler_cons h env hev]
    have hpop : Inherits s { s with evQueue := rest } := of_same rfl rfl
    exact hpop.trans (runs env ev.evid _ _)

theorem Inherits.drainOne (h : s.Wf) (env : ℕ → Env) : Inherits s (drainOne env s) := by
  rw [RmPriv.drainOne]
  split
  · exact refl s
  · rw [h.walkQueue_eq]
    exact rmStateRun s _ _ _

theorem Inherits.rtwDeinitRm (h : s.Wf) (env : ℕ → Env) : Inherits s (s.rtwDeinitRm env) := by
  have hstart : Inherits s { s with enable := false, evQueue := [] } := of_same rfl rfl
  have hwf : ({ s with enable := false, evQueue := [] } : RmPriv).Wf :=
    ⟨h.nodup, h.live, h.fresh, h.sel, h.owner⟩
  rw [RmPriv.rtwDeinitRm]
  revert hstart hwf
  generalize ({ s with enable := false, evQueue := [] } : RmPriv) = t
  induction 2 * s.rmQueue.length generalizing t with
  | zero => exact fun hstart _ => hstart
  | succ n ih =>
    exact fun hstart hwf => ih _ (hstart.trans (drainOne hwf env)) (hwf.drainOne env)

theorem Inherits.surveyDone (s : RmPriv) (alloc : Bool) : Inherits s (s.surveyDone alloc) := by
  rw [RmPriv.surveyDone]
  split
  · exact refl s
  · next token rest hsurveys =>
    have hpop : Inherits s { s with surveys := rest } := of_same rfl rfl
    dsimp only
    split
    · exact hpop.trans (rmPostEvent _ _ _ _)
    · exact hpop

theorem Inherits.rmPostEventHdl (s : RmPriv) (alloc : Bool) :
    Inherits s (s.rmPostEventHdl alloc) := by
  rw [RmPriv.rmPostEventHdl]
  split
  · exact refl s
  · exact of_same rfl rfl

end Inherits

section Enqueue

variable {s : RmPriv}

structure Joins (s t : RmPriv) (p : ℕ) (rmid : UInt32) : Prop where
  queue : t.rmQueue = s.rmQueue ++ [p]
  object : ∃ rm, t.heap p = some rm ∧ rm.rmid = rmid
  others : ∀ q ∈ s.rmQueue, ∀ rm, t.heap q = some rm ↔ s.heap q = some rm
  new : p ∉ s.rmQueue

def Unused (s : RmPriv) (rmid : UInt32) : Prop :=
  rmid ≠ 0 ∧ ∀ p ∈ s.rmQueue, ∀ rm, s.heap p = some rm → rm.rmid ≠ rmid

theorem Joins.distinct_iff {t : RmPriv} {p : ℕ} {rmid : UInt32} (h : Joins s t p rmid)
    (hs : s.Distinct) : t.Distinct ↔ s.Unused rmid := by
  obtain ⟨rmp, hrmp, rfl⟩ := h.object
  have hold : ∀ q ∈ s.rmQueue, q ∈ t.rmQueue := by
    intro q hq
    rw [h.queue]
    exact List.mem_append_left _ hq
  have hnew : p ∈ t.rmQueue := by
    rw [h.queue]
    exact List.mem_append_right _ (List.mem_singleton_self p)
  have hsplit : ∀ q ∈ t.rmQueue, q ∈ s.rmQueue ∨ q = p := by
    intro q hq
    rw [h.queue, List.mem_append, List.mem_singleton] at hq
    exact hq
  constructor
  · intro ht
    refine ⟨ht.nonzero p hnew rmp hrmp, fun q hq rm hrm heq => ?_⟩
    have hsame := ht.unique q (hold q hq) p hnew rm rmp ((h.others q hq rm).mpr hrm) hrmp heq
    exact h.new (hsame ▸ hq)
  · rintro ⟨hne, hunused⟩
    refine ⟨fun q hq rm hrm => ?_, fun q hq q' hq' rm rm' hrm hrm' heq => ?_⟩
    · cases hsplit q hq with
      | inl hin => exact hs.nonzero q hin rm ((h.others q hin rm).mp hrm)
      | inr hqp =>
        subst hqp
        cases hrmp.symm.trans hrm
        exact hne
    · cases hsplit q hq with
      | inl hin =>
        cases hsplit q' hq' with
        | inl hin' =>
          exact hs.unique q hin q' hin' rm rm' ((h.others q hin rm).mp hrm)
            ((h.others q' hin' rm').mp hrm') heq
        | inr hqp' =>
          subst hqp'
          cases hrmp.symm.trans hrm'
          exact absurd heq (hunused q hin rm ((h.others q hin rm).mp hrm))
      | inr hqp =>
        subst hqp
        cases hrmp.symm.trans hrm
        cases hsplit q' hq' with
        | inl hin' =>
          exact absurd heq.symm (hunused q' hin' rm' ((h.others q' hin' rm').mp hrm'))
        | inr hqp' => exact hqp'.symm

theorem rmPostEvent_same (s : RmPriv) (alloc : Bool) (rmid : UInt32) (evid : RmEv) :
    (s.rmPostEvent alloc rmid evid).rmQueue = s.rmQueue ∧
      (s.rmPostEvent alloc rmid evid).heap = s.heap := by
  rw [RmPriv.rmPostEvent]
  split <;> exact ⟨rfl, rfl⟩

theorem enqueue_joins {p : ℕ} {rm : RmObj} (hp : s.heap p = some rm) (hnot : p ∉ s.rmQueue)
    (cmdAlloc : Bool) : Joins s (s.rmEnqueueRmobj cmdAlloc p) p rm.rmid := by
  rw [rmEnqueueRmobj, hp]
  dsimp only
  obtain ⟨hqueue, hheap⟩ := rmPostEvent_same ({ s with
    rmQueue := s.rmQueue ++ [p]
    heap := Function.update s.heap p (some { rm with state := .idle }) } : RmPriv) cmdAlloc rm.rmid
    .stateIn
  refine ⟨hqueue, ?_, fun q hq r => ?_, hnot⟩
  · rw [hheap]
    exact ⟨_, Function.update_self .., rfl⟩
  · rw [hheap]
    show Function.update s.heap p _ q = some r ↔ _
    rw [Function.update_of_ne (ne_of_mem_of_not_mem hq hnot)]

end Enqueue

section Distinct

variable {s : RmPriv}

def NewIdentity (s : RmPriv) : RmSysEvent → Prop
  | .request alloc _ enqueue n => alloc = true → enqueue = true → s.Unused n.rmid
  | .dbgActivate _ _ => ∀ p ∈ s.prmSel, ∀ rm, s.heap p = some rm → s.Unused rm.rmid
  | _ => True

theorem Inherits.distinct_iff {t : RmPriv} (h : Inherits s t) (hs : s.Distinct) :
    t.Distinct ↔ True := iff_of_true (h.distinct hs) trivial

theorem distinct_request (h : s.Wf) (hs : s.Distinct) (alloc cmdAlloc enqueue : Bool) (n : NewMeas) :
    (s.request alloc cmdAlloc enqueue n).Distinct ↔
      (alloc = true → enqueue = true → s.Unused n.rmid) := by
  rw [RmPriv.request]
  cases alloc with
  | false => exact iff_of_true hs fun halloc => absurd halloc Bool.false_ne_true
  | true =>
    obtain ⟨i, clock, heq, -⟩ := h.rmAllocRmobj n
    have halloc := Inherits.allocated h n i clock
    rw [heq]
    cases enqueue with
    | false =>
      exact iff_of_true (halloc.distinct hs) fun _ henqueue => absurd henqueue Bool.false_ne_true
    | true =>
      have hself : (s.allocated n i clock).heap s.next = some (NewMeas.obj n i) :=
        Function.update_self ..
      have hnot : s.next ∉ (s.allocated n i clock).rmQueue := h.next_notMem
      have hjoins := enqueue_joins hself hnot cmdAlloc
      have hunused : (s.allocated n i clock).Unused n.rmid ↔ s.Unused n.rmid := by
        have hsame : ∀ p ∈ s.rmQueue, (s.allocated n i clock).heap p = s.heap p := fun p hp =>
          Function.update_of_ne (ne_of_mem_of_not_mem hp h.next_notMem) _ _
        refine and_congr_right fun _ => forall₂_congr fun p hp => ?_
        rw [hsame p hp]
      exact (hjoins.distinct_iff (halloc.distinct hs)).trans
        (hunused.trans ⟨fun hfree _ _ => hfree, fun hfree => hfree rfl rfl⟩)

theorem activated_joins {t : RmPriv} {p : ℕ} {rm : RmObj}
    (hnot : p ∉ s.rmQueue) (cmdAlloc : Bool) (curChannel : UInt8) (hqueue : t.rmQueue = s.rmQueue)
    (hheap : t.heap = Function.update s.heap p (some { rm with q.chNum := curChannel })) :
    Joins s { t.rmEnqueueRmobj cmdAlloc p with prmSel := none } p rm.rmid := by
  have hself : t.heap p = some { rm with q.chNum := curChannel } := by
    rw [hheap]
    exact Function.update_self ..
  have hjoins := enqueue_joins hself (hqueue ▸ hnot) cmdAlloc
  refine ⟨?_, hjoins.object, fun q hq r => ?_, hnot⟩
  · rw [← hqueue]
    exact hjoins.queue
  · refine (hjoins.others q (hqueue ▸ hq) r).trans ?_
    rw [hheap, Function.update_of_ne (ne_of_mem_of_not_mem hq hnot)]

theorem newIdentity_local (s : RmPriv) (cmdAlloc : Bool) (dialogToken : UInt8) (aid : UInt16)
    (q : RmMeasReq) :
    s.NewIdentity (.request true cmdAlloc true (NewMeas.local dialogToken aid q)) ↔
      ∀ p ∈ s.rmQueue, ∀ rm, s.heap p = some rm →
        rm.rmid ≠ (NewMeas.local dialogToken aid q).rmid := by
  have hne : (NewMeas.local dialogToken aid q).rmid ≠ 0 :=
    (NewMeas.rmid_single (rmGenDialogToken_ne dialogToken)).1
  constructor
  · exact fun h => (h rfl rfl).2
  · exact fun h _ _ => ⟨hne, h⟩

theorem distinct_dbgActivate (h : s.Wf) (hs : s.Distinct) (cmdAlloc : Bool) (curChannel : UInt8) :
    (s.rmDbgActivateMeas cmdAlloc curChannel).Distinct ↔
      ∀ p ∈ s.prmSel, ∀ rm, s.heap p = some rm → s.Unused rm.rmid := by
  rw [RmPriv.rmDbgActivateMeas]
  cases hsel : s.prmSel with
  | none => exact iff_of_true hs fun p hp => absurd hp (Option.not_mem_none p)
  | some p =>
    obtain ⟨hnot, rm, hp, -⟩ := h.sel p hsel
    dsimp only
    rw [hp]
    dsimp only
    have hiff := (activated_joins hnot cmdAlloc curChannel (t := { s with
      heap := Function.update s.heap p (some { rm with q.chNum := curChannel })
      prmSel := some p }) rfl rfl).distinct_iff hs
    refine hiff.trans ⟨fun hfree q hq rm' hrm' => ?_, fun hfree => hfree p rfl rm hp⟩
    cases Option.some.inj hq
    cases hp.symm.trans hrm'
    exact hfree

theorem distinct_iff (h : s.Wf) (hs : s.Distinct) (e : RmSysEvent) :
    (s.step e).Distinct ↔ s.NewIdentity e := by
  cases e with
  | request alloc cmdAlloc enqueue n => exact distinct_request h hs alloc cmdAlloc enqueue n
  | dbgAdd alloc n found => exact (Inherits.rmDbgAddMeas h alloc n found).distinct_iff hs
  | dbgActivate cmdAlloc curChannel => exact distinct_dbgActivate h hs cmdAlloc curChannel
  | dbgDel =>
    have hunpark : Inherits s { s with prmSel := none } := .of_same rfl rfl
    exact hunpark.distinct_iff hs
  | report cmdAlloc rmid actionCode mMode isRsp =>
    exact (Inherits.recvReport h cmdAlloc rmid actionCode mMode isRsp).distinct_iff hs
  | post alloc rmid evid => exact (Inherits.rmPostEvent s alloc rmid evid).distinct_iff hs
  | surveyDone alloc => exact (Inherits.surveyDone s alloc).distinct_iff hs
  | tick alloc => exact (Inherits.foldl (Inherits.timerOne alloc) _ s).distinct_iff hs
  | command alloc => exact (Inherits.rmPostEventHdl s alloc).distinct_iff hs
  | handle env => exact (Inherits.rmHandler h env).distinct_iff hs
  | deinit env => exact (Inherits.rtwDeinitRm h env).distinct_iff hs

end Distinct

structure HandlerCall where
  priv : RmPriv
  turn : ℕ

def finds (s : RmPriv) (ev : RmEvent) : Bool :=
  ev.rmid &&& rmAllMeas ≠ 0 || (s.rmGetRmobj ev.rmid).isSome

def handlerLoop (envs : ℕ → ℕ → Env) : WhileLoop.Loop HandlerCall where
  guard c := !c.priv.evQueue.isEmpty
  body c :=
    match c.priv.evQueue with
    | [] => .leave c
    | ev :: _ =>
      if c.priv.finds ev then .again ⟨c.priv.rmHandler (envs c.turn), c.turn + 1⟩
      else .leave ⟨c.priv.rmHandler (envs c.turn), c.turn + 1⟩

section Delivery

variable {s : RmPriv} {envs : ℕ → ℕ → Env} {c d : HandlerCall}

def Dispatches (envs : ℕ → ℕ → Env) (c : HandlerCall) : Prop :=
  ∀ ev rest, c.priv.evQueue = ev :: rest → ev.rmid &&& rmAllMeas = 0 →
    ∀ p ∈ c.priv.rmQueue, ∀ rm, c.priv.heap p = some rm → rm.rmid = ev.rmid →
      c.priv.rmHandler (envs c.turn) =
        ({ c.priv with evQueue := rest } : RmPriv).rmStateRun (envs c.turn p) ev.evid p

def TakesItsTurn (envs : ℕ → ℕ → Env) (s : RmPriv) (n : ℕ) (c : HandlerCall) : Prop :=
  ∀ k ev, c.priv.evQueue[k]? = some ev →
    ∃ d, WhileLoop.turns (handlerLoop envs) (n + k) ⟨s, 0⟩ = some d ∧
      d.priv.evQueue.head? = some ev

structure Delivers (envs : ℕ → ℕ → Env) (s : RmPriv) : Prop where
  turn : ∀ n c, WhileLoop.turns (handlerLoop envs) n ⟨s, 0⟩ = some c → TakesItsTurn envs s n c
  owner : ∀ n c, WhileLoop.turns (handlerLoop envs) n ⟨s, 0⟩ = some c → Dispatches envs c

def FindsOrLast (c : HandlerCall) : Prop :=
  ∀ ev rest, c.priv.evQueue = ev :: rest → rest ≠ [] → c.priv.finds ev = true

theorem rmGetRmobj_of_distinct (h : s.Distinct) {p : ℕ} {rm : RmObj} (hp : p ∈ s.rmQueue)
    (hrm : s.heap p = some rm) : s.rmGetRmobj rm.rmid = some p := by
  have hne := h.nonzero p hp rm hrm
  rw [rmGetRmobj, if_neg hne]
  cases hfind : s.rmQueue.find? fun q => (s.heap q).any fun r => r.rmid == rm.rmid with
  | none =>
    have hall := List.find?_eq_none.mp hfind p hp
    rw [hrm, Option.any_some, beq_self_eq_true] at hall
    exact absurd rfl hall
  | some q =>
    have hget : s.rmGetRmobj rm.rmid = some q := by
      rw [rmGetRmobj, if_neg hne, hfind]
    obtain ⟨hq, -, rm', hrm', hsame⟩ := rmGetRmobj_mem hget
    rw [h.unique q hq p hp rm' rm hrm' hrm hsame]

theorem dispatches_of_distinct (hwf : c.priv.Wf) (h : c.priv.Distinct) : Dispatches envs c := by
  intro ev rest hev hone p hp rm hrm hrmid
  have hget := rmGetRmobj_of_distinct h hp hrm
  have hreceivers : c.priv.receivers ev = [p] := by
    rw [receivers, if_neg (fun hall => hall hone), ← hrmid, hget]
    rfl
  rw [rmHandler_cons hwf (envs c.turn) hev, hreceivers]
  rfl

theorem handlerLoop_guard : (handlerLoop envs).guard c = true ↔ c.priv.evQueue ≠ [] := by
  cases hev : c.priv.evQueue with
  | nil => simp [handlerLoop, hev]
  | cons ev rest => simp [handlerLoop, hev]

theorem handlerLoop_body {ev : RmEvent} {rest : List RmEvent} (hev : c.priv.evQueue = ev :: rest) :
    (handlerLoop envs).body c =
      if c.priv.finds ev then .again ⟨c.priv.rmHandler (envs c.turn), c.turn + 1⟩
      else .leave ⟨c.priv.rmHandler (envs c.turn), c.turn + 1⟩ := by
  simp only [handlerLoop, hev]

theorem handlerLoop_again (hguard : (handlerLoop envs).guard c = true)
    (hbody : (handlerLoop envs).body c = .again d) :
    d = ⟨c.priv.rmHandler (envs c.turn), c.turn + 1⟩ ∧
      ∃ ev rest, c.priv.evQueue = ev :: rest ∧ c.priv.finds ev = true := by
  cases hev : c.priv.evQueue with
  | nil => exact absurd hev (handlerLoop_guard.mp hguard)
  | cons ev rest =>
    rw [handlerLoop_body hev] at hbody
    split at hbody
    · next hfinds =>
      cases hbody
      exact ⟨rfl, ev, rest, rfl, hfinds⟩
    · cases hbody

theorem turns_kept {n : ℕ} (hwf : s.Wf) (h : s.Distinct)
    (hturns : WhileLoop.turns (handlerLoop envs) n ⟨s, 0⟩ = some c) :
    c.priv.Wf ∧ c.priv.Distinct := by
  refine @WhileLoop.turns_invariant _ (handlerLoop envs) _ _
    (fun c => c.priv.Wf ∧ c.priv.Distinct) ⟨hwf, h⟩ ?_ _ hturns
  intro c d hinv hguard hbody
  rw [(handlerLoop_again hguard hbody).1]
  exact ⟨hinv.1.rmHandler _, (Inherits.rmHandler hinv.1 _).distinct hinv.2⟩

theorem runs_evQueue (env : ℕ → Env) (evid : RmEv) (ps : List ℕ) (s : RmPriv) :
    ∃ posted, (runs env evid ps s).evQueue = s.evQueue ++ posted := by
  induction ps generalizing s with
  | nil => exact ⟨[], (List.append_nil _).symm⟩
  | cons p ps ih =>
    obtain ⟨later, hlater⟩ := ih (s.rmStateRun (env p) evid p)
    have hfirst : ∃ posted, (s.rmStateRun (env p) evid p).evQueue = s.evQueue ++ posted := by
      rw [RmPriv.rmStateRun]
      cases s.heap p with
      | none => exact ⟨[], (List.append_nil _).symm⟩
      | some rm => exact ⟨_, rfl⟩
    obtain ⟨posted, hposted⟩ := hfirst
    refine ⟨posted ++ later, ?_⟩
    rw [← List.append_assoc, ← hposted]
    exact hlater

theorem takesItsTurn_of_finds (hwf : s.Wf) (h : s.Distinct)
    (hfinds : WhileLoop.Throughout (handlerLoop envs) FindsOrLast ⟨s, 0⟩) {n : ℕ}
    (hturns : WhileLoop.turns (handlerLoop envs) n ⟨s, 0⟩ = some c) : TakesItsTurn envs s n c := by
  intro k
  induction k generalizing n c with
  | zero =>
    intro ev hev
    exact ⟨c, hturns, by rw [List.head?_eq_getElem?, hev]⟩
  | succ k ih =>
    intro ev hev
    cases hqueue : c.priv.evQueue with
    | nil =>
      rw [hqueue] at hev
      cases hev
    | cons ev' rest =>
      rw [hqueue, List.getElem?_cons_succ] at hev
      have hrest : rest ≠ [] := by
        rintro rfl
        cases hev
      have hguard : (handlerLoop envs).guard c = true :=
        handlerLoop_guard.mpr (hqueue ▸ List.cons_ne_nil ev' rest)
      have hhere := WhileLoop.throughout_iff_turns.mp hfinds n c hturns hguard ev' rest hqueue hrest
      have hbody : (handlerLoop envs).body c =
          .again ⟨c.priv.rmHandler (envs c.turn), c.turn + 1⟩ := by
        rw [handlerLoop_body hqueue, if_pos hhere]
      have hnext : WhileLoop.turns (handlerLoop envs) (n + 1) ⟨s, 0⟩ =
          some ⟨c.priv.rmHandler (envs c.turn), c.turn + 1⟩ := by
        rw [WhileLoop.turns_add hturns, WhileLoop.turns_again 0 hguard hbody]
        rfl
      obtain ⟨posted, hposted⟩ := runs_evQueue (envs c.turn) ev'.evid (c.priv.receivers ev')
        { c.priv with evQueue := rest }
      rw [← rmHandler_cons (turns_kept hwf h hturns).1 _ hqueue] at hposted
      have hkept : (c.priv.rmHandler (envs c.turn)).evQueue[k]? = some ev := by
        rw [hposted]
        exact List.getElem?_append_left (List.getElem?_eq_some_iff.mp hev).1 ▸ hev
      have hcount : n + 1 + k = n + (k + 1) := by omega
      exact hcount ▸ ih hnext ev hkept

theorem finds_of_takesItsTurn {n : ℕ}
    (hturns : WhileLoop.turns (handlerLoop envs) n ⟨s, 0⟩ = some c)
    (hturn : TakesItsTurn envs s n c) : FindsOrLast c := by
  intro ev rest hqueue hrest
  cases rest with
  | nil => exact absurd rfl hrest
  | cons ev' rest =>
    have hsecond : c.priv.evQueue[1]? = some ev' := by rw [hqueue]; rfl
    obtain ⟨d, hd, -⟩ := hturn 1 ev' hsecond
    rw [WhileLoop.turns_add hturns] at hd
    obtain ⟨d', hguard, hbody, -⟩ := WhileLoop.turns_succ hd
    obtain ⟨-, ev'', rest'', hqueue', hfinds⟩ := handlerLoop_again hguard hbody
    cases hqueue.symm.trans hqueue'
    exact hfinds

theorem delivers_iff (hwf : s.Wf) (h : s.Distinct) (envs : ℕ → ℕ → Env) :
    Delivers envs s ↔ WhileLoop.Throughout (handlerLoop envs) FindsOrLast ⟨s, 0⟩ := by
  rw [WhileLoop.throughout_iff_turns]
  constructor
  · exact fun hdelivers n c hturns _ => finds_of_takesItsTurn hturns (hdelivers.turn n c hturns)
  · intro hfinds
    refine ⟨fun n c hturns => ?_, fun n c hturns => ?_⟩
    · exact takesItsTurn_of_finds hwf h (WhileLoop.throughout_iff_turns.mpr hfinds) hturns
    · exact dispatches_of_distinct (turns_kept hwf h hturns).1 (turns_kept hwf h hturns).2

end Delivery

section Law

def examined (s : RmPriv) (x : RmSysEvent × (ℕ → ℕ → Env)) : RmPriv := s.step x.1

def Identified (s : RmPriv) (x : RmSysEvent × (ℕ → ℕ → Env)) : Prop :=
  (s.examined x).Distinct ∧ Delivers x.2 (s.examined x)

def FreshAndFound (s : RmPriv) (x : RmSysEvent × (ℕ → ℕ → Env)) : Prop :=
  s.NewIdentity x.1 ∧ WhileLoop.Throughout (handlerLoop x.2) FindsOrLast ⟨s.examined x, 0⟩

theorem identified_iff {s : RmPriv} (h : s.Wf) (hs : s.Distinct)
    (x : RmSysEvent × (ℕ → ℕ → Env)) : s.Identified x ↔ s.FreshAndFound x := by
  constructor
  · rintro ⟨hdistinct, hdelivers⟩
    exact ⟨(distinct_iff h hs x.1).mp hdistinct,
      (delivers_iff (h.step x.1) hdistinct x.2).mp hdelivers⟩
  · rintro ⟨hnew, hfound⟩
    have hdistinct : (s.examined x).Distinct := (distinct_iff h hs x.1).mpr hnew
    exact ⟨hdistinct, (delivers_iff (h.step x.1) hdistinct x.2).mpr hfound⟩

theorem initial_distinct : initial.Distinct where
  nonzero _ hp := absurd hp List.not_mem_nil
  unique _ hp := absurd hp List.not_mem_nil

theorem identity_law (xs : List (RmSysEvent × (ℕ → ℕ → Env))) :
    Run.Each examined Identified initial xs ↔ Run.Each examined FreshAndFound initial xs :=
  Run.each_iff examined Identified FreshAndFound (fun s => s.Wf ∧ s.Distinct)
    (fun _ x h => identified_iff h.1 h.2 x) (fun _ x h hok => ⟨h.1.step x.1, hok.1⟩)
    ⟨initial_wf, initial_distinct⟩ xs

def otherRequest : NewMeas := { beaconRequest with aid := 2 }

def quietAir : ℕ → Env := fun _ => ⟨6, true, true, true⟩

def cancelAll : RmSysEvent := .post true (rmAllMeas ||| 0x10000) .cancel

def goneBeforeLive : List RmSysEvent :=
  [.request true true true beaconRequest, .command true, .handle quietAir,
    cancelAll, .command true, cancelAll, .command true,
    .handle quietAir, .handle quietAir, .handle quietAir,
    .request true true true otherRequest, .command true]

theorem repeated_token_and_lost_event :
    ¬ (Run.exec step initial [.request true true true beaconRequest,
        .request true true true beaconRequest]).Distinct ∧
      ∃ s, s = Run.exec step initial goneBeforeLive ∧
        s.rmQueue.map (fun p => (s.heap p).map RmObj.rmid) = [some otherRequest.rmid] ∧
        s.evQueue[1]? = some ⟨otherRequest.rmid, .stateIn⟩ ∧ ∀ envs, ¬ Delivers envs s := by
  constructor
  · intro h
    have hsame : ∃ s, s = Run.exec step initial [.request true true true beaconRequest,
        .request true true true beaconRequest] ∧ s.rmQueue = [0, 1] ∧
        (s.heap 0).map RmObj.rmid = some beaconRequest.rmid ∧
        (s.heap 1).map RmObj.rmid = some beaconRequest.rmid := ⟨_, rfl, by decide +kernel⟩
    obtain ⟨s, rfl, hqueue, hfirst, hsecond⟩ := hsame
    obtain ⟨rm, hrm, hrmid⟩ := Option.map_eq_some_iff.mp hfirst
    obtain ⟨rm', hrm', hrmid'⟩ := Option.map_eq_some_iff.mp hsecond
    have heq := h.unique 0 (by rw [hqueue]; simp) 1 (by rw [hqueue]; simp) rm rm' hrm hrm'
      (hrmid.trans hrmid'.symm)
    exact absurd heq Nat.zero_ne_one
  · have hlost : ∃ s, s = Run.exec step initial goneBeforeLive ∧
        s.rmQueue.map (fun p => (s.heap p).map RmObj.rmid) = [some otherRequest.rmid] ∧
        s.evQueue[1]? = some ⟨otherRequest.rmid, .stateIn⟩ ∧
        s.evQueue = [⟨beaconRequest.rmid, .stateOut⟩, ⟨otherRequest.rmid, .stateIn⟩] ∧
        s.finds ⟨beaconRequest.rmid, .stateOut⟩ = false := ⟨_, rfl, by decide +kernel⟩
    obtain ⟨s, hs, hlive, hsecond, hqueue, hgone⟩ := hlost
    refine ⟨s, hs, hlive, hsecond, fun envs hdelivers => ?_⟩
    have hfound := finds_of_takesItsTurn (c := ⟨s, 0⟩) rfl (hdelivers.turn 0 _ rfl) _ _ hqueue
      (List.cons_ne_nil _ _)
    exact absurd (hgone.symm.trans hfound) Bool.false_ne_true

end Law

end RmPriv

end Rm
