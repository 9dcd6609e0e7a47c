import Rtl8188fu.Lib.Run
import Rtl8188fu.Rm.SystemInvariant

namespace Rm

namespace RmPriv

structure ClocksOwned (s : RmPriv) : Prop where
  own : ∀ p rm i, s.heap p = some rm → ((s.clock i).prm = some p ↔ rm.pclock = i)
  unshared : ∀ p q rm rm', s.heap p = some rm → s.heap q = some rm' → rm.pclock = rm'.pclock → p = q

variable {s t : RmPriv}

theorem ClocksOwned.of_own
    (h : ∀ p rm i, s.heap p = some rm → ((s.clock i).prm = some p ↔ rm.pclock = i)) :
    s.ClocksOwned := by
  refine ⟨h, fun p q rm rm' hp hq hclk => ?_⟩
  have hown := (h p rm rm.pclock hp).mpr rfl
  have hown' := (h q rm' rm.pclock hq).mpr hclk.symm
  exact Option.some.inj (hown.symm.trans hown')

theorem initial_clocksOwned : initial.ClocksOwned :=
  .of_own fun _ rm _ h => absurd h (Option.some_ne_none rm).symm

theorem ClocksOwned.congr (h : s.ClocksOwned)
    (hheap : ∀ p, (t.heap p).map RmObj.pclock = (s.heap p).map RmObj.pclock)
    (hprm : ∀ i, (t.clock i).prm = (s.clock i).prm) : t.ClocksOwned := by
  refine .of_own fun p rm i hp => ?_
  have hmap := hheap p
  rw [hp, Option.map_some] at hmap
  obtain ⟨rm', hp', hclk⟩ := Option.map_eq_some_iff.mp hmap.symm
  rw [hprm i, h.own p rm' i hp', hclk]

theorem ClocksOwned.set (h : s.ClocksOwned) {p : ℕ} {rm rm' : RmObj}
    (hheap : t.heap = Function.update s.heap p (some rm'))
    (hprm : ∀ i, (t.clock i).prm = (s.clock i).prm) (hp : s.heap p = some rm)
    (hpclock : rm'.pclock = rm.pclock) : t.ClocksOwned := by
  refine h.congr (fun q => ?_) hprm
  rw [hheap]
  rcases eq_or_ne q p with rfl | hq
  · rw [Function.update_self, hp, Option.map_some, Option.map_some, hpclock]
  · rw [Function.update_of_ne hq]

theorem ClocksOwned.store (h : s.ClocksOwned) {p : ℕ} {rm : RmObj} (hp : s.heap p = some rm)
    {m : Meas} (hm : Meas.Frame (fun _ => true) (s.load rm) m) : (s.store p m).ClocksOwned := by
  have hpclock : m.rm.pclock = rm.pclock := hm.pclock
  cases hfreed : m.freed with
  | false =>
    refine @RmPriv.ClocksOwned.set _ _ h p rm m.rm ?_ (fun i => ?_) hp hpclock
    · unfold RmPriv.store
      dsimp only
      rw [hfreed]
      rfl
    · show (Function.update s.clock m.rm.pclock m.clock i).prm = (s.clock i).prm
      cases Decidable.em (i = m.rm.pclock) with
      | inl hi =>
        rw [hi, Function.update_self, hm.prm hfreed, hpclock]
        rfl
      | inr hi => rw [Function.update_of_ne hi]
  | true =>
    have hcleared := hm.cleared (fun hf => absurd hf Bool.false_ne_true) hfreed
    refine .of_own fun q rm' i hq => ?_
    have hqp : q ≠ p := fun heq => by
      rw [heq, store_heap_self, if_pos hfreed] at hq
      exact absurd hq.symm (Option.some_ne_none rm')
    rw [store_heap_ne hqp] at hq
    show (Function.update s.clock m.rm.pclock m.clock i).prm = some q ↔ _
    cases Decidable.em (i = m.rm.pclock) with
    | inl hi =>
      rw [hi, Function.update_self, hcleared]
      refine iff_of_false (Option.some_ne_none q).symm fun hclk => hqp ?_
      exact h.unshared q p rm' rm hq hp (hclk.trans hpclock)
    | inr hi =>
      rw [Function.update_of_ne hi]
      exact h.own q rm' i hq

theorem ClocksOwned.rmStateRun (h : s.ClocksOwned) (p : ℕ) (env : Env) (evid : RmEv) :
    (s.rmStateRun env evid p).ClocksOwned := by
  unfold RmPriv.rmStateRun
  split
  · exact h.congr (fun _ => rfl) fun _ => rfl
  · next rm hp => exact h.store hp (Meas.rmStateRun_frame env evid _)

theorem ClocksOwned.runs {ps : List ℕ} (h : s.ClocksOwned) (env : ℕ → Env) (evid : RmEv) :
    (runs env evid ps s).ClocksOwned := by
  induction ps generalizing s with
  | nil => exact h
  | cons p ps ih => exact ih (h.rmStateRun p _ _)

theorem ClocksOwned.rmPostEvent (h : s.ClocksOwned) (alloc : Bool) (rmid : UInt32) (evid : RmEv) :
    (s.rmPostEvent alloc rmid evid).ClocksOwned := by
  unfold RmPriv.rmPostEvent
  split
  · exact h.congr (fun _ => rfl) fun _ => rfl
  · exact h

theorem ClocksOwned.enqueue (h : s.ClocksOwned) (p : ℕ) (cmdAlloc : Bool) :
    (s.rmEnqueueRmobj cmdAlloc p).ClocksOwned := by
  unfold rmEnqueueRmobj
  cases hp : s.heap p with
  | none => exact h.congr (fun _ => rfl) fun _ => rfl
  | some rm =>
    refine ClocksOwned.rmPostEvent ?_ _ _ _
    exact h.set rfl (fun _ => rfl) hp rfl

theorem ClocksOwned.allocated (h : s.ClocksOwned) (hwf : s.Wf) (n : NewMeas) {i : Fin rmTimerNum}
    (hfree : (s.clock i).prm = none) :
    (s.allocated n i (Function.update s.clock i ⟨some s.next, 0, .max⟩)).ClocksOwned := by
  refine .of_own fun q rm j hq => ?_
  change Function.update s.heap s.next (some (NewMeas.obj n i)) q = some rm at hq
  show (Function.update s.clock i ⟨some s.next, 0, .max⟩ j).prm = some q ↔ _
  rcases eq_or_ne q s.next with rfl | hne
  · rw [Function.update_self, Option.some.injEq] at hq
    subst hq
    rcases eq_or_ne j i with rfl | hj
    · exact iff_of_true (by rw [Function.update_self]) rfl
    · rw [Function.update_of_ne hj]
      refine iff_of_false (fun hown => ?_) hj.symm
      obtain ⟨rm, hrm, -⟩ := hwf.owner j s.next hown
      exact absurd ((hwf.fresh s.next le_rfl).symm.trans hrm) (Option.some_ne_none rm).symm
  · rw [Function.update_of_ne hne] at hq
    rcases eq_or_ne j i with rfl | hj
    · rw [Function.update_self]
      refine iff_of_false (fun heq => hne (Option.some.inj heq).symm) fun hclk => ?_
      have hown := (h.own q rm j hq).mpr hclk
      exact absurd (hfree.symm.trans hown) (Option.some_ne_none q).symm
    · rw [Function.update_of_ne hj]
      exact h.own q rm j hq

def AllClocksOwned (s : RmPriv) : Prop := ∀ i, (s.clock i).prm ≠ none

theorem freeClock?_eq_none : s.freeClock? = none ↔ s.AllClocksOwned := by
  simp [freeClock?, AllClocksOwned, Option.ne_none_iff_exists']

def Refuses (s : RmPriv) (alloc : Bool) (n : NewMeas) : Prop :=
  s.AllClocksOwned → (s.rmAllocRmobj alloc n).1 = none

def ClocksKept (s : RmPriv) (e : RmSysEvent) : Prop :=
  (s.step e).ClocksOwned ∧
  match e with
  | .request alloc _ _ n => s.Refuses alloc n
  | .dbgAdd alloc n _ => s.prmSel = none → s.Refuses alloc n
  | _ => True

def RoomForClock (s : RmPriv) : RmSysEvent → Prop
  | .request alloc _ _ _ => alloc = true → ¬s.AllClocksOwned
  | .dbgAdd alloc _ _ => s.prmSel = none → alloc = true → ¬s.AllClocksOwned
  | _ => True

theorem refuses_iff {alloc : Bool} {n : NewMeas} :
    s.Refuses alloc n ↔ (alloc = true → ¬s.AllClocksOwned) := by
  unfold Refuses rmAllocRmobj
  cases alloc <;> simp

theorem ClocksOwned.rmAllocRmobj (h : s.ClocksOwned) (hwf : s.Wf) (n : NewMeas)
    (hroom : ¬s.AllClocksOwned) :
    ∃ i, s.rmAllocRmobj true n = (some s.next,
      s.allocated n i (Function.update s.clock i ⟨some s.next, 0, .max⟩)) ∧
      (s.allocated n i (Function.update s.clock i ⟨some s.next, 0, .max⟩)).ClocksOwned := by
  rcases rmAllocRmobj_cases s n with ⟨i, hfree, heq⟩ | ⟨hnone, -⟩
  · exact ⟨i, heq, h.allocated hwf n (freeClock?_prm hfree)⟩
  · exact absurd (freeClock?_eq_none.mp hnone) hroom

theorem ClocksOwned.request (h : s.ClocksOwned) (hwf : s.Wf) {alloc cmdAlloc enqueue : Bool}
    {n : NewMeas} (hroom : alloc = true → ¬s.AllClocksOwned) :
    (s.request alloc cmdAlloc enqueue n).ClocksOwned := by
  unfold RmPriv.request
  cases alloc with
  | false => exact h
  | true =>
    obtain ⟨i, heq, hnew⟩ := h.rmAllocRmobj hwf n (hroom rfl)
    rw [heq]
    dsimp only
    split
    · exact hnew.enqueue _ _
    · exact hnew

theorem ClocksOwned.rmFreeRmobj (h : s.ClocksOwned) (p : ℕ) : (s.rmFreeRmobj p).ClocksOwned := by
  unfold RmPriv.rmFreeRmobj
  split
  · exact h.congr (fun _ => rfl) fun _ => rfl
  · next rm hp => exact h.store hp (Meas.Frame.rmFreeRmobj _)

theorem ClocksOwned.rmDbgAddMeas (h : s.ClocksOwned) (hwf : s.Wf) {alloc : Bool} {n : NewMeas}
    (found : Bool) (hroom : s.prmSel = none → alloc = true → ¬s.AllClocksOwned) :
    (s.rmDbgAddMeas alloc n found).ClocksOwned := by
  have hfinish : ∀ t : RmPriv, t.ClocksOwned → ∀ p, (t.dbgFinish n found p).ClocksOwned := by
    intro t ht p
    unfold dbgFinish
    split
    · cases hp : t.heap p with
      | none => exact ht.congr (fun _ => rfl) fun _ => rfl
      | some rm => exact ht.set rfl (fun _ => rfl) hp rfl
    · exact (ht.rmFreeRmobj p).congr (fun _ => rfl) fun _ => rfl
  unfold RmPriv.rmDbgAddMeas
  cases hsel : s.prmSel with
  | some p => exact hfinish s h p
  | none =>
    cases alloc with
    | false => exact h
    | true =>
      obtain ⟨i, heq, hnew⟩ := h.rmAllocRmobj hwf n (hroom hsel rfl)
      rw [heq]
      exact hfinish _ hnew s.next

theorem ClocksOwned.rmDbgActivateMeas (h : s.ClocksOwned) (cmdAlloc : Bool) (curChannel : UInt8) :
    (s.rmDbgActivateMeas cmdAlloc curChannel).ClocksOwned := by
  unfold RmPriv.rmDbgActivateMeas
  cases s.prmSel with
  | none => exact h
  | some p =>
    dsimp only
    cases hp : s.heap p with
    | none => exact h.congr (fun _ => rfl) fun _ => rfl
    | some rm =>
      have hset : ({ s with
          prmSel := some p
          heap := Function.update s.heap p (some { rm with q.chNum := curChannel }) } :
            RmPriv).ClocksOwned :=
        h.set rfl (fun _ => rfl) hp rfl
      exact (hset.enqueue p cmdAlloc).congr (fun _ => rfl) fun _ => rfl

theorem ClocksOwned.recvReport (h : s.ClocksOwned) (cmdAlloc : Bool) (rmid : UInt32)
    (actionCode : UInt8) (mMode : Option UInt8) (isRsp : Bool) :
    (s.recvReport cmdAlloc rmid actionCode mMode isRsp).ClocksOwned := by
  unfold RmPriv.recvReport
  cases s.rmGetRmobj rmid with
  | none => exact h.congr (fun _ => rfl) fun _ => rfl
  | some p =>
    dsimp only
    cases hp : s.heap p with
    | none => exact h.congr (fun _ => rfl) fun _ => rfl
    | some rm =>
      have hset : ({ s.walkQueue with heap := Function.update s.heap p (some { rm with
          p.actionCode := actionCode
          p.mMode := mMode.getD rm.p.mMode }) } : RmPriv).ClocksOwned :=
        h.set rfl (fun _ => rfl) hp rfl
      dsimp only
      split
      · exact hset.rmPostEvent _ _ _
      · exact hset

theorem ClocksOwned.tick (h : s.ClocksOwned) (alloc : Fin rmTimerNum → Bool)
    (is : List (Fin rmTimerNum)) : (is.foldl (timerOne alloc) s).ClocksOwned := by
  induction is generalizing s with
  | nil => exact h
  | cons i is ih =>
    obtain ⟨-, hheap, -, -, -, hprm⟩ := timerOne_same (s := s) alloc i
    exact ih (h.congr (fun p => by rw [hheap]) hprm)

theorem ClocksOwned.rmHandler (h : s.ClocksOwned) (hwf : s.Wf) (env : ℕ → Env) :
    (s.rmHandler env).ClocksOwned := by
  cases hev : s.evQueue with
  | nil =>
    unfold RmPriv.rmHandler
    rw [hev]
    exact h
  | cons ev rest =>
    have hpop : ({ s with evQueue := rest } : RmPriv).ClocksOwned := h.congr (fun _ => rfl) fun _ => rfl
    rw [rmHandler_cons hwf env hev]
    exact hpop.runs env ev.evid

theorem ClocksOwned.rtwDeinitRm (h : s.ClocksOwned) (env : ℕ → Env) :
    (s.rtwDeinitRm env).ClocksOwned := by
  have hone : ∀ t : RmPriv, t.ClocksOwned → (drainOne env t).ClocksOwned := by
    intro t ht
    unfold drainOne
    split
    · exact ht
    · have hwalk : t.walkQueue.ClocksOwned := ht.congr (fun _ => rfl) fun _ => rfl
      exact hwalk.rmStateRun _ _ _
  have hstart : ({ s with enable := false, evQueue := [] } : RmPriv).ClocksOwned :=
    h.congr (fun _ => rfl) fun _ => rfl
  unfold RmPriv.rtwDeinitRm
  revert hstart
  generalize ({ s with enable := false, evQueue := [] } : RmPriv) = t
  induction 2 * s.rmQueue.length generalizing t with
  | zero => exact id
  | succ n ih => exact fun ht => ih _ (hone t ht)

theorem ClocksOwned.step (h : s.ClocksOwned) (hwf : s.Wf) {e : RmSysEvent} (hroom : s.RoomForClock e) :
    (s.step e).ClocksOwned := by
  cases e with
  | request alloc cmdAlloc enqueue n => exact h.request hwf hroom
  | dbgAdd alloc n found => exact h.rmDbgAddMeas hwf found hroom
  | dbgActivate cmdAlloc curChannel => exact h.rmDbgActivateMeas cmdAlloc curChannel
  | dbgDel => exact h.congr (fun _ => rfl) fun _ => rfl
  | report cmdAlloc rmid actionCode mMode isRsp => exact h.recvReport _ _ _ _ _
  | post alloc rmid evid => exact h.rmPostEvent alloc rmid evid
  | surveyDone alloc =>
    show (s.surveyDone alloc).ClocksOwned
    unfold RmPriv.surveyDone
    split
    · exact h
    · next token rest _ =>
      have hpop : ({ s with surveys := rest } : RmPriv).ClocksOwned :=
        h.congr (fun _ => rfl) fun _ => rfl
      dsimp only
      split
      · exact hpop.rmPostEvent _ _ _
      · exact hpop
  | tick alloc => exact h.tick alloc _
  | command alloc =>
    show (s.rmPostEventHdl alloc).ClocksOwned
    unfold RmPriv.rmPostEventHdl
    split
    · exact h
    · exact h.congr (fun _ => rfl) fun _ => rfl
  | handle env => exact h.rmHandler hwf env
  | deinit env => exact h.rtwDeinitRm env

theorem clocksKept_iff (h : s.ClocksOwned) (hwf : s.Wf) (e : RmSysEvent) :
    s.ClocksKept e ↔ s.RoomForClock e := by
  constructor
  · rintro ⟨-, hrefuse⟩
    cases e with
    | request alloc cmdAlloc enqueue n => exact refuses_iff.mp hrefuse
    | dbgAdd alloc n found => exact fun hsel => refuses_iff.mp (hrefuse hsel)
    | _ => trivial
  · intro hroom
    refine ⟨h.step hwf hroom, ?_⟩
    cases e with
    | request alloc cmdAlloc enqueue n => exact refuses_iff.mpr hroom
    | dbgAdd alloc n found => exact fun hsel => refuses_iff.mpr (hroom hsel)
    | _ => trivial

theorem clock_law (es : List RmSysEvent) :
    Run.Each step ClocksKept initial es ↔ Run.Each step RoomForClock initial es :=
  Run.each_iff step ClocksKept RoomForClock (fun s => s.Wf ∧ s.ClocksOwned)
    (fun _ e h => clocksKept_iff h.2 h.1 e) (fun _ e h hok => ⟨h.1.step e, hok.1⟩)
    ⟨initial_wf, initial_clocksOwned⟩ es

def channelLoadRequest : NewMeas where
  master := false
  aid := 1
  diagToken := 1
  q := ⟨rmActRadioMeasReq, chLoadReq, 0, 0, 1, 0⟩
  mMode := 0
  token := slave_token

theorem last_clock_shared :
    ¬ Run.Each step ClocksKept initial
      (List.replicate 33 (.request true true true channelLoadRequest)) := by
  rw [List.replicate_succ', Run.each_append]
  rintro ⟨-, ⟨-, hrefuse⟩, -⟩
  have hfull : AllClocksOwned (Run.exec step initial
      (List.replicate 32 (.request true true true channelLoadRequest))) := by
    unfold AllClocksOwned
    decide +kernel
  exact refuses_iff.mp hrefuse rfl hfull

end RmPriv

end Rm
