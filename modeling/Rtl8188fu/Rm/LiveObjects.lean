import Mathlib.Data.Finset.Card
import Mathlib.Data.Fintype.Card
import Rtl8188fu.Rm.Identity

namespace Rm

namespace RmPriv

structure Outlives (s t : RmPriv) : Prop where
  live : ∀ p, (t.heap p).isSome = true → (s.heap p).isSome = true
  queue : ∀ p ∈ s.rmQueue, (t.heap p).isSome = true → p ∈ t.rmQueue
  sel : t.prmSel = s.prmSel

section Outlives

variable {s t u : RmPriv}

theorem Outlives.refl (s : RmPriv) : Outlives s s := ⟨fun _ h => h, fun _ h _ => h, rfl⟩

theorem Outlives.trans (h : Outlives s t) (h' : Outlives t u) : Outlives s u where
  live p hp := h.live p (h'.live p hp)
  queue p hp hlive := h'.queue p (h.queue p hp (h'.live p hlive)) hlive
  sel := h'.sel.trans h.sel

theorem Outlives.of_same (hqueue : t.rmQueue = s.rmQueue) (hheap : t.heap = s.heap)
    (hsel : t.prmSel = s.prmSel) : Outlives s t where
  live _ hp := hheap ▸ hp
  queue _ hp _ := hqueue ▸ hp
  sel := hsel

theorem Outlives.store {p : ℕ} {rm : RmObj} (hp : s.heap p = some rm) (m : Meas) :
    Outlives s (s.store p m) where
  live q hq := by
    cases Decidable.em (q = p) with
    | inl hqp =>
      rw [hqp, hp]
      rfl
    | inr hqp =>
      rw [store_heap_ne hqp] at hq
      exact hq
  queue q hq hlive := by
    show q ∈ (if m.freed then s.rmQueue.filter (fun r => r ≠ p) else s.rmQueue)
    split
    · next hfreed =>
      refine List.mem_filter.mpr ⟨hq, decide_eq_true fun hqp => ?_⟩
      rw [hqp, store_heap_self, if_pos hfreed] at hlive
      cases hlive
    · exact hq
  sel := rfl

theorem Outlives.rmStateRun (s : RmPriv) (env : Env) (evid : RmEv) (p : ℕ) :
    Outlives s (s.rmStateRun env evid p) := by
  rw [RmPriv.rmStateRun]
  cases hp : s.heap p with
  | none => exact of_same rfl rfl rfl
  | some rm => exact store hp _

theorem Outlives.runs (env : ℕ → Env) (evid : RmEv) (ps : List ℕ) (s : RmPriv) :
    Outlives s (RmPriv.runs env evid ps s) := by
  induction ps generalizing s with
  | nil => exact refl s
  | cons p ps ih => exact (rmStateRun s (env p) evid p).trans (ih _)

theorem Outlives.setRm {p : ℕ} {rm : RmObj} (hp : s.heap p = some rm) (rm' : RmObj) :
    Outlives s { s with heap := Function.update s.heap p (some rm') } where
  live q hq := by
    cases Decidable.em (q = p) with
    | inl hqp =>
      rw [hqp, hp]
      rfl
    | inr hqp =>
      have hother : Function.update s.heap p (some rm') q = s.heap q := Function.update_of_ne hqp _ _
      exact hother ▸ hq
  queue _ hq _ := hq
  sel := rfl

theorem Outlives.rmPostEvent (s : RmPriv) (alloc : Bool) (rmid : UInt32) (evid : RmEv) :
    Outlives s (s.rmPostEvent alloc rmid evid) := by
  rw [RmPriv.rmPostEvent]
  split
  · exact of_same rfl rfl rfl
  · exact refl s

theorem Outlives.recvReport (h : s.Wf) (cmdAlloc : Bool) (rmid : UInt32) (actionCode : UInt8)
    (mMode : Option UInt8) (isRsp : Bool) :
    Outlives s (s.recvReport cmdAlloc rmid actionCode mMode isRsp) := by
  rw [RmPriv.recvReport, h.walkQueue_eq]
  cases s.rmGetRmobj rmid with
  | none => exact refl s
  | some p =>
    dsimp only
    cases hp : s.heap p with
    | none => exact of_same rfl rfl rfl
    | some rm =>
      have hset := setRm hp { rm with p.actionCode := actionCode, p.mMode := mMode.getD rm.p.mMode }
      dsimp only
      split
      · exact hset.trans (rmPostEvent _ _ _ _)
      · exact hset

theorem Outlives.tick (alloc : Fin rmTimerNum → Bool) (is : List (Fin rmTimerNum)) (s : RmPriv) :
    Outlives s (is.foldl (timerOne alloc) s) := by
  induction is generalizing s with
  | nil => exact refl s
  | cons i is ih =>
    obtain ⟨hqueue, hheap, -, hsel, -⟩ := timerOne_same (s := s) alloc i
    exact (of_same hqueue hheap hsel).trans (ih _)

theorem Outlives.rmHandler (h : s.Wf) (env : ℕ → Env) : Outlives s (s.rmHandler env) := by
  cases hev : s.evQueue with
  | nil =>
    rw [RmPriv.rmHandler, hev]
    exact refl s
  | cons ev rest =>
    rw [rmHandler_cons h env hev]
    have hpop : Outlives s { s with evQueue := rest } := of_same rfl rfl rfl
    exact hpop.trans (runs env ev.evid _ _)

theorem Outlives.drainOne (h : s.Wf) (env : ℕ → Env) : Outlives s (drainOne env s) := by
  rw [RmPriv.drainOne]
  split
  · exact refl s
  · rw [h.walkQueue_eq]
    exact rmStateRun s _ _ _

theorem Outlives.rtwDeinitRm (h : s.Wf) (env : ℕ → Env) : Outlives s (s.rtwDeinitRm env) := by
  have hstart : Outlives s { s with enable := false, evQueue := [] } := of_same rfl rfl rfl
  have hwf : ({ s with enable := false, evQueue := [] } : RmPriv).Wf :=
    ⟨h.nodup, h.live, h.fresh, h.sel, h.owner⟩
  rw [RmPriv.rtwDeinitRm]
  revert hstart hwf
  generalize ({ s with enable := false, evQueue := [] } : RmPriv) = t
  induction 2 * s.rmQueue.length generalizing t with
  | zero => exact fun hstart _ => hstart
  | succ n ih =>
    exact fun hstart hwf => ih _ (hstart.trans (drainOne hwf env)) (hwf.drainOne env)

theorem Outlives.surveyDone (s : RmPriv) (alloc : Bool) : Outlives s (s.surveyDone alloc) := by
  rw [RmPriv.surveyDone]
  split
  · exact refl s
  · next token rest _ =>
    have hpop : Outlives s { s with surveys := rest } := of_same rfl rfl rfl
    dsimp only
    split
    · exact hpop.trans (rmPostEvent _ _ _ _)
    · exact hpop

theorem Outlives.rmPostEventHdl (s : RmPriv) (alloc : Bool) :
    Outlives s (s.rmPostEventHdl alloc) := by
  rw [RmPriv.rmPostEventHdl]
  split
  · exact refl s
  · exact of_same rfl rfl rfl

end Outlives

end RmPriv

def RmSysEvent.background : RmSysEvent → Bool
  | .request .. | .dbgAdd .. | .dbgActivate .. | .dbgDel => false
  | _ => true

namespace RmPriv

section Background

variable {s : RmPriv} {e : RmSysEvent}

theorem Outlives.step (h : s.Wf) (he : e.background = true) : Outlives s (s.step e) := by
  cases e with
  | request | dbgAdd | dbgActivate | dbgDel => cases he
  | report cmdAlloc rmid actionCode mMode isRsp => exact recvReport h _ _ _ _ _
  | post alloc rmid evid => exact rmPostEvent s alloc rmid evid
  | surveyDone alloc => exact surveyDone s alloc
  | tick alloc => exact tick alloc _ s
  | command alloc => exact rmPostEventHdl s alloc
  | handle env => exact rmHandler h env
  | deinit env => exact rtwDeinitRm h env

theorem roomForClock_of_background (he : e.background = true) : s.RoomForClock e := by
  cases e with
  | request | dbgAdd => cases he
  | _ => trivial

end Background

section Counting

variable {s : RmPriv}

def ownedClocks (s : RmPriv) : Finset (Fin rmTimerNum) :=
  Finset.univ.filter fun i => (s.clock i).prm.isSome = true

def objects (s : RmPriv) : Finset ℕ := (Finset.range s.next).filter fun p => (s.heap p).isSome = true

def Enqueued (s : RmPriv) : Prop := ∀ p, (s.heap p).isSome = true → p ∈ s.rmQueue

theorem mem_objects (h : s.Wf) {p : ℕ} : p ∈ s.objects ↔ (s.heap p).isSome = true := by
  rw [objects, Finset.mem_filter, Finset.mem_range]
  refine ⟨fun hp => hp.2, fun hp => ⟨?_, hp⟩⟩
  obtain ⟨rm, hrm⟩ := Option.isSome_iff_exists.mp hp
  exact h.lt_next hrm

theorem mem_ownedClocks {i : Fin rmTimerNum} :
    i ∈ s.ownedClocks ↔ (s.clock i).prm.isSome = true := by
  simp [ownedClocks]

theorem queue_subset (h : s.Wf) : s.rmQueue.toFinset ⊆ s.objects := fun p hp =>
  (mem_objects h).mpr (h.live p (List.mem_toFinset.mp hp))

theorem card_objects_iff (h : s.Wf) : s.objects.card = s.rmQueue.length ↔ s.Enqueued := by
  have hcard := List.toFinset_card_of_nodup h.nodup
  constructor
  · intro heq p hp
    have hsame := Finset.eq_of_subset_of_card_le (queue_subset h) (heq.trans hcard.symm).le
    exact List.mem_toFinset.mp (hsame ▸ (mem_objects h).mpr hp)
  · intro hall
    have hsame : s.rmQueue.toFinset = s.objects := (queue_subset h).antisymm fun p hp =>
      List.mem_toFinset.mpr (hall p ((mem_objects h).mp hp))
    rw [← hsame, hcard]

theorem card_ownedClocks (h : s.Wf) (hclocks : s.ClocksOwned) :
    s.ownedClocks.card = s.objects.card := by
  have howner : ∀ i p, (s.clock i).prm = some p → ∃ rm, s.heap p = some rm ∧ rm.pclock = i :=
    h.owner
  refine Finset.card_bij (fun i hi => (s.clock i).prm.get (mem_ownedClocks.mp hi))
    (fun i hi => ?_) (fun i hi j hj heq => ?_) fun p hp => ?_
  · obtain ⟨rm, hrm, -⟩ := howner i _ (Option.some_get _).symm
    exact (mem_objects h).mpr (Option.isSome_iff_exists.mpr ⟨rm, hrm⟩)
  · obtain ⟨rm, hrm, hclk⟩ := howner i _ (Option.some_get _).symm
    obtain ⟨rm', hrm', hclk'⟩ := howner j _ (Option.some_get _).symm
    rw [heq] at hrm
    cases hrm.symm.trans hrm'
    exact hclk.symm.trans hclk'
  · obtain ⟨rm, hrm⟩ := Option.isSome_iff_exists.mp ((mem_objects h).mp hp)
    have hown := (hclocks.own p rm rm.pclock hrm).mpr rfl
    exact ⟨rm.pclock, mem_ownedClocks.mpr (by rw [hown]; rfl), by simp only [hown, Option.get_some]⟩

theorem card_ownedClocks_full (h : s.AllClocksOwned) : s.ownedClocks.card = rmTimerNum := by
  have hall : s.ownedClocks = Finset.univ := Finset.eq_univ_iff_forall.mpr fun i =>
    mem_ownedClocks.mpr (Option.isSome_iff_ne_none.mpr (h i))
  rw [hall, Finset.card_univ, Fintype.card_fin]

theorem card_ownedClocks_le (s : RmPriv) : s.ownedClocks.card ≤ rmTimerNum := by
  have hle := Finset.card_le_univ s.ownedClocks
  rw [Fintype.card_fin] at hle
  exact hle

end Counting

section Request

variable {s : RmPriv}

theorem rmEnqueueRmobj_isSome (cmdAlloc : Bool) (p q : ℕ) :
    ((s.rmEnqueueRmobj cmdAlloc p).heap q).isSome = (s.heap q).isSome := by
  rw [rmEnqueueRmobj]
  cases hp : s.heap p with
  | none => rfl
  | some rm =>
    dsimp only
    rw [(rmPostEvent_same _ _ _ _).2]
    cases Decidable.em (q = p) with
    | inl hqp =>
      rw [hqp, hp]
      show (Function.update s.heap p _ p).isSome = true
      rw [Function.update_self]
      rfl
    | inr hqp => exact congrArg Option.isSome (Function.update_of_ne hqp _ _)

theorem rmEnqueueRmobj_prmSel (cmdAlloc : Bool) (p : ℕ) :
    (s.rmEnqueueRmobj cmdAlloc p).prmSel = s.prmSel := by
  rw [rmEnqueueRmobj]
  cases s.heap p with
  | none => rfl
  | some rm =>
    dsimp only
    rw [RmPriv.rmPostEvent]
    split <;> rfl

structure Adds (s t : RmPriv) (enqueue : Bool) : Prop where
  queue : t.rmQueue = s.rmQueue ++ if enqueue then [s.next] else []
  heap : ∀ p, (t.heap p).isSome = true ↔ (s.heap p).isSome = true ∨ p = s.next
  sel : t.prmSel = s.prmSel

theorem request_adds (h : s.Wf) (cmdAlloc enqueue : Bool) (n : NewMeas) :
    Adds s (s.request true cmdAlloc enqueue n) enqueue := by
  obtain ⟨i, clock, heq, -⟩ := h.rmAllocRmobj n
  have hself : (s.allocated n i clock).heap s.next = some (NewMeas.obj n i) :=
    Function.update_self ..
  have hallocated : ∀ p, ((s.allocated n i clock).heap p).isSome = true ↔
      (s.heap p).isSome = true ∨ p = s.next := by
    intro p
    cases Decidable.em (p = s.next) with
    | inl hp =>
      rw [hp, hself]
      exact iff_of_true rfl (.inr rfl)
    | inr hp =>
      have hsame : (s.allocated n i clock).heap p = s.heap p := Function.update_of_ne hp _ _
      rw [hsame, or_iff_left hp]
  rw [RmPriv.request, heq]
  cases enqueue with
  | false => exact ⟨(List.append_nil _).symm, hallocated, rfl⟩
  | true =>
    refine ⟨?_, fun p => ?_, rmEnqueueRmobj_prmSel cmdAlloc s.next⟩
    · exact (enqueue_joins hself h.next_notMem cmdAlloc).queue
    · show ((RmPriv.rmEnqueueRmobj _ cmdAlloc s.next).heap p).isSome = true ↔ _
      rw [rmEnqueueRmobj_isSome]
      exact hallocated p

theorem Adds.enqueued_iff {t : RmPriv} {enqueue : Bool} (hreq : Adds s t enqueue)
    (h : s.Wf) (hall : s.Enqueued) : t.Enqueued ↔ enqueue = true := by
  cases enqueue with
  | false =>
    refine iff_of_false (fun ht => ?_) Bool.false_ne_true
    have hmem := ht s.next ((hreq.heap s.next).mpr (.inr rfl))
    rw [hreq.queue, if_neg Bool.false_ne_true, List.append_nil] at hmem
    exact h.next_notMem hmem
  | true =>
    refine iff_of_true (fun p hp => ?_) rfl
    rw [hreq.queue]
    cases (hreq.heap p).mp hp with
    | inl hold => exact List.mem_append_left _ (hall p hold)
    | inr hnew => exact List.mem_append_right _ (List.mem_singleton.mpr hnew)

end Request

end RmPriv

end Rm
