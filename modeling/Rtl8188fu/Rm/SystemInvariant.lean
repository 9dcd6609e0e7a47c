import Rtl8188fu.Rm.Lifetime
import Rtl8188fu.Rm.System

namespace Rm

namespace RmPriv

structure Wf (s : RmPriv) : Prop where
  nodup : s.rmQueue.Nodup
  live : ∀ p ∈ s.rmQueue, (s.heap p).isSome = true
  fresh : ∀ p, s.next ≤ p → s.heap p = none
  sel : ∀ p ∈ s.prmSel, p ∉ s.rmQueue ∧ ∃ rm, s.heap p = some rm ∧ rm.state = .idle
  owner : ∀ i p, (s.clock i).prm = some p → ∃ rm, s.heap p = some rm ∧ rm.pclock = i

theorem initial_wf : initial.Wf :=
  ⟨List.nodup_nil, fun _ h => absurd h List.not_mem_nil, fun _ _ => rfl,
    fun _ h => absurd h (by simp [initial]), fun _ _ h => absurd h (by simp [initial])⟩

variable {s : RmPriv}

theorem Wf.fault (h : s.Wf) (b : Bool) : ({ s with fault := b } : RmPriv).Wf :=
  ⟨h.nodup, h.live, h.fresh, h.sel, h.owner⟩

theorem Wf.walkQueue_eq (h : s.Wf) : s.walkQueue = s := by
  have hnone : (s.rmQueue.any fun p => (s.heap p).isNone) = false := by
    refine List.any_eq_false.mpr fun p hp => ?_
    simp [Option.isSome_iff_ne_none.mp (h.live p hp)]
  rw [walkQueue, hnone, Bool.or_false]

theorem Wf.lt_next (h : s.Wf) {p : ℕ} {rm : RmObj} (hp : s.heap p = some rm) : p < s.next := by
  by_contra hlt
  exact absurd (hp.symm.trans (h.fresh p (Nat.le_of_not_lt hlt))) (Option.some_ne_none rm)

theorem store_heap_ne {p q : ℕ} (hne : q ≠ p) (m : Meas) : (s.store p m).heap q = s.heap q :=
  Function.update_of_ne hne _ _

theorem store_heap_self (p : ℕ) (m : Meas) :
    (s.store p m).heap p = if m.freed then none else some m.rm := Function.update_self ..

theorem Wf.store (h : s.Wf) {p : ℕ} {rm : RmObj} (hp : s.heap p = some rm) (hsel : s.prmSel ≠ some p)
    {m : Meas} (hm : Meas.Frame (fun _ => true) (s.load rm) m) : (s.store p m).Wf := by
  have hpclock : m.rm.pclock = rm.pclock := hm.pclock
  refine ⟨?_, ?_, ?_, ?_, ?_⟩
  · show (if m.freed then s.rmQueue.filter _ else s.rmQueue).Nodup
    split
    · exact h.nodup.filter _
    · exact h.nodup
  · intro q hq
    change q ∈ (if m.freed then s.rmQueue.filter (fun r => r ≠ p) else s.rmQueue) at hq
    cases Decidable.em (q = p) with
    | inl hqp =>
      subst hqp
      rw [store_heap_self]
      split at hq
      · exact absurd (List.mem_filter.mp hq).2 (by simp)
      · next hfreed =>
        rw [if_neg hfreed]
        rfl
    | inr hqp =>
      rw [store_heap_ne hqp]
      split at hq
      · exact h.live q (List.mem_filter.mp hq).1
      · exact h.live q hq
  · intro q hq
    have hlt := h.lt_next hp
    have hne : q ≠ p := fun heq => by
      subst heq
      exact absurd hlt (Nat.not_lt.mpr hq)
    rw [store_heap_ne hne]
    exact h.fresh q hq
  · intro q hq
    have hne : q ≠ p := fun heq => hsel (heq ▸ hq)
    obtain ⟨hnot, hlive⟩ := h.sel q hq
    refine ⟨fun hmem => hnot ?_, by rwa [store_heap_ne hne]⟩
    change q ∈ (if m.freed then s.rmQueue.filter (fun r => r ≠ p) else s.rmQueue) at hmem
    split at hmem
    · exact (List.mem_filter.mp hmem).1
    · exact hmem
  · intro i q hq
    change (Function.update s.clock m.rm.pclock m.clock i).prm = some q at hq
    cases hfreed : m.freed with
    | true =>
      have hcleared := hm.cleared (fun hf => absurd hf Bool.false_ne_true) hfreed
      cases Decidable.em (i = m.rm.pclock) with
      | inl hi =>
        rw [hi, Function.update_self, hcleared] at hq
        exact absurd hq.symm (Option.some_ne_none q)
      | inr hi =>
        rw [Function.update_of_ne hi] at hq
        obtain ⟨rm', hq', hclk⟩ := h.owner i q hq
        have hne : q ≠ p := fun heq => by
          subst heq
          rw [hp, Option.some.injEq] at hq'
          subst hq'
          exact hi (hclk.symm.trans hpclock.symm)
        exact ⟨rm', by rwa [store_heap_ne hne], hclk⟩
    | false =>
      have hprm : (Function.update s.clock m.rm.pclock m.clock i).prm = (s.clock i).prm := by
        cases Decidable.em (i = m.rm.pclock) with
        | inl hi =>
          rw [hi, Function.update_self, hm.prm hfreed, hpclock]
          rfl
        | inr hi => rw [Function.update_of_ne hi]
      rw [hprm] at hq
      obtain ⟨rm', hq', hclk⟩ := h.owner i q hq
      cases Decidable.em (q = p) with
      | inl hqp =>
        subst hqp
        rw [hp, Option.some.injEq] at hq'
        subst hq'
        refine ⟨m.rm, ?_, hpclock.trans hclk⟩
        rw [store_heap_self, if_neg (by rw [hfreed]; exact Bool.false_ne_true)]
      | inr hqp => exact ⟨rm', by rwa [store_heap_ne hqp], hclk⟩

theorem rmStateRun_some {p : ℕ} {rm : RmObj} (hp : s.heap p = some rm) (env : Env) (evid : RmEv) :
    s.rmStateRun env evid p = s.store p ((s.load rm).rmStateRun env evid) := by
  rw [rmStateRun, hp]

theorem rmStateRun_heap_ne {p q : ℕ} (hne : q ≠ p) (env : Env) (evid : RmEv) :
    (s.rmStateRun env evid p).heap q = s.heap q := by
  rw [rmStateRun]
  split
  · rfl
  · exact store_heap_ne hne _

theorem Wf.rmStateRun (h : s.Wf) {p : ℕ} (hsel : s.prmSel ≠ some p) (env : Env) (evid : RmEv) :
    (s.rmStateRun env evid p).Wf := by
  rw [RmPriv.rmStateRun]
  split
  · exact h.fault true
  · next rm hp => exact h.store hp hsel (Meas.rmStateRun_frame env evid _)

theorem rmStateRun_prmSel (p : ℕ) (env : Env) (evid : RmEv) :
    (s.rmStateRun env evid p).prmSel = s.prmSel := by
  rw [rmStateRun]
  split <;> rfl

theorem Wf.ne_sel (h : s.Wf) {p : ℕ} (hp : p ∈ s.rmQueue) : s.prmSel ≠ some p :=
  fun hsel => (h.sel p hsel).1 hp

def runs (env : ℕ → Env) (evid : RmEv) (ps : List ℕ) (s : RmPriv) : RmPriv :=
  ps.foldl (fun s p => s.rmStateRun (env p) evid p) s

theorem runs_cons (env : ℕ → Env) (evid : RmEv) (p : ℕ) (ps : List ℕ) (s : RmPriv) :
    runs env evid (p :: ps) s = runs env evid ps (s.rmStateRun (env p) evid p) := rfl

theorem Wf.runs {ps : List ℕ} (h : s.Wf) (hsel : ∀ p ∈ ps, s.prmSel ≠ some p) (env : ℕ → Env)
    (evid : RmEv) : (runs env evid ps s).Wf := by
  induction ps generalizing s with
  | nil => exact h
  | cons p ps ih =>
    refine ih (h.rmStateRun (hsel p List.mem_cons_self) _ _) fun q hq => ?_
    rw [rmStateRun_prmSel]
    exact hsel q (List.mem_cons_of_mem p hq)

theorem runs_bad (bad : RmPriv → Prop) (good viol : RmObj → Prop) (env : ℕ → Env) (evid : RmEv)
    (hone : ∀ s p rm, s.heap p = some rm → good rm →
      (bad (s.rmStateRun (env p) evid p) ↔ bad s ∨ viol rm))
    {ps : List ℕ} (hnodup : ps.Nodup)
    (hgood : ∀ p ∈ ps, ∃ rm, s.heap p = some rm ∧ good rm) :
    bad (runs env evid ps s) ↔ bad s ∨ ∃ p ∈ ps, ∃ rm, s.heap p = some rm ∧ viol rm := by
  induction ps generalizing s with
  | nil => simp [RmPriv.runs]
  | cons p ps ih =>
    obtain ⟨hp, hps⟩ := List.nodup_cons.mp hnodup
    obtain ⟨rm, hrm, hg⟩ := hgood p List.mem_cons_self
    have hkeep : ∀ q ∈ ps, (s.rmStateRun (env p) evid p).heap q = s.heap q := fun q hq =>
      rmStateRun_heap_ne (ne_of_mem_of_not_mem hq hp) _ _
    rw [runs_cons, ih hps fun q hq => by
      rw [hkeep q hq]
      exact hgood q (List.mem_cons_of_mem p hq)]
    rw [hone s p rm hrm hg, or_assoc]
    refine or_congr_right ?_
    constructor
    · rintro (hviol | ⟨q, hq, rm', hrm', hviol⟩)
      · exact ⟨p, List.mem_cons_self, rm, hrm, hviol⟩
      · exact ⟨q, List.mem_cons_of_mem p hq, rm', (hkeep q hq) ▸ hrm', hviol⟩
    · rintro ⟨q, hq, rm', hrm', hviol⟩
      rcases List.mem_cons.mp hq with rfl | hq
      · rw [hrm, Option.some.injEq] at hrm'
        exact .inl (hrm' ▸ hviol)
      · exact .inr ⟨q, hq, rm', (hkeep q hq).symm ▸ hrm', hviol⟩

def receivers (s : RmPriv) (ev : RmEvent) : List ℕ :=
  if ev.rmid &&& rmAllMeas ≠ 0 then
    s.rmQueue.filter fun p => (s.heap p).any fun rm => rmGetAid ev.rmid = rmGetAid rm.rmid
  else (s.rmGetRmobj ev.rmid).toList

theorem bcast_eq (env : ℕ → Env) (ev : RmEvent) {ps : List ℕ} (hnodup : ps.Nodup)
    (hlive : ∀ p ∈ ps, (s.heap p).isSome = true) :
    ps.foldl (bcastOne env ev) s = runs env ev.evid
      (ps.filter fun p => (s.heap p).any fun rm => rmGetAid ev.rmid = rmGetAid rm.rmid) s := by
  induction ps generalizing s with
  | nil => rfl
  | cons p ps ih =>
    obtain ⟨hp, hps⟩ := List.nodup_cons.mp hnodup
    obtain ⟨rm, hrm⟩ := Option.isSome_iff_exists.mp (hlive p List.mem_cons_self)
    have hrest : ∀ q ∈ ps, (s.heap q).isSome = true := fun q hq =>
      hlive q (List.mem_cons_of_mem p hq)
    rw [List.foldl_cons]
    cases Decidable.em (rmGetAid ev.rmid = rmGetAid rm.rmid) with
    | inl haid =>
      have hkeep : ∀ q ∈ ps, (s.rmStateRun (env p) ev.evid p).heap q = s.heap q := fun q hq =>
        rmStateRun_heap_ne (ne_of_mem_of_not_mem hq hp) _ _
      have hone : bcastOne env ev s p = s.rmStateRun (env p) ev.evid p := by
        rw [bcastOne, hrm]
        exact if_pos haid
      rw [List.filter_cons_of_pos (by simp [hrm, haid]), runs_cons, hone,
        ih hps fun q hq => by rw [hkeep q hq]; exact hrest q hq]
      congr 1
      exact List.filter_congr fun q hq => by rw [hkeep q hq]
    | inr haid =>
      have hone : bcastOne env ev s p = s := by
        rw [bcastOne, hrm]
        exact if_neg haid
      rw [List.filter_cons_of_neg (by simp [hrm, haid]), hone, ih hps hrest]

theorem rmGetRmobj_mem {rmid : UInt32} {p : ℕ} (h : s.rmGetRmobj rmid = some p) :
    p ∈ s.rmQueue ∧ rmid ≠ 0 ∧ ∃ rm, s.heap p = some rm ∧ rm.rmid = rmid := by
  unfold rmGetRmobj at h
  split at h
  · exact absurd h.symm (Option.some_ne_none p)
  · next hne =>
    refine ⟨List.mem_of_find?_eq_some h, hne, ?_⟩
    have hpred := List.find?_some h
    obtain ⟨rm, hrm, heq⟩ := (Option.any_eq_true _ _).mp hpred
    exact ⟨rm, hrm, beq_iff_eq.mp heq⟩

theorem mem_receivers {ev : RmEvent} {p : ℕ} (h : p ∈ s.receivers ev) : p ∈ s.rmQueue := by
  unfold receivers at h
  split at h
  · exact (List.mem_filter.mp h).1
  · exact (rmGetRmobj_mem (Option.mem_toList.mp h)).1

theorem receivers_nodup (h : s.Wf) (ev : RmEvent) : (s.receivers ev).Nodup := by
  rw [receivers]
  split
  · exact h.nodup.filter _
  · cases s.rmGetRmobj ev.rmid with
    | none => exact List.nodup_nil
    | some p => exact List.nodup_singleton p

theorem rmHandler_cons (h : s.Wf) (env : ℕ → Env) {ev : RmEvent} {rest : List RmEvent}
    (hev : s.evQueue = ev :: rest) :
    s.rmHandler env = runs env ev.evid (s.receivers ev) { s with evQueue := rest } := by
  have hwf : ({ s with evQueue := rest } : RmPriv).Wf :=
    ⟨h.nodup, h.live, h.fresh, h.sel, h.owner⟩
  rw [rmHandler, hev]
  dsimp only
  rw [receivers]
  split
  · exact bcast_eq env ev h.nodup h.live
  · have hget : ({ s with evQueue := rest } : RmPriv).rmGetRmobj ev.rmid = s.rmGetRmobj ev.rmid := rfl
    rw [hget]
    cases s.rmGetRmobj ev.rmid with
    | none => exact hwf.walkQueue_eq
    | some p =>
      dsimp only
      rw [hwf.walkQueue_eq]
      rfl

theorem Wf.congr {t : RmPriv} (h : s.Wf) (hqueue : t.rmQueue = s.rmQueue) (hheap : t.heap = s.heap)
    (hnext : t.next = s.next) (hsel : t.prmSel = s.prmSel)
    (hprm : ∀ i, (t.clock i).prm = (s.clock i).prm) : t.Wf := by
  refine ⟨hqueue ▸ h.nodup, ?_, ?_, ?_, ?_⟩
  · rw [hqueue, hheap]
    exact h.live
  · rw [hnext, hheap]
    exact h.fresh
  · rw [hsel, hqueue, hheap]
    exact h.sel
  · intro i p hp
    rw [hheap]
    exact h.owner i p (hprm i ▸ hp)

theorem Wf.rmPostEvent (h : s.Wf) (alloc : Bool) (rmid : UInt32) (evid : RmEv) :
    (s.rmPostEvent alloc rmid evid).Wf := by
  rw [RmPriv.rmPostEvent]
  split
  · exact h.congr rfl rfl rfl rfl fun _ => rfl
  · exact h

theorem Wf.setRm (h : s.Wf) {p : ℕ} {rm rm' : RmObj} (hp : s.heap p = some rm)
    (hstate : rm.state = .idle → rm'.state = .idle) (hpclock : rm'.pclock = rm.pclock) :
    ({ s with heap := Function.update s.heap p (some rm') } : RmPriv).Wf := by
  have hself : Function.update s.heap p (some rm') p = some rm' := Function.update_self ..
  have hother : ∀ q, q ≠ p → Function.update s.heap p (some rm') q = s.heap q :=
    fun q hq => Function.update_of_ne hq _ _
  refine ⟨h.nodup, fun q hq => ?_, fun q hq => ?_, fun q hq => ?_, fun i q hq => ?_⟩
  · rcases eq_or_ne q p with rfl | hqp
    · exact congrArg Option.isSome hself
    · exact (congrArg Option.isSome (hother q hqp)).trans (h.live q hq)
  · have hqp : q ≠ p := fun heq => absurd (h.lt_next hp) (Nat.not_lt.mpr (heq ▸ hq))
    exact (hother q hqp).trans (h.fresh q hq)
  · obtain ⟨hnot, rm₀, hrm, hidle⟩ := h.sel q hq
    refine ⟨hnot, ?_⟩
    rcases eq_or_ne q p with rfl | hqp
    · rw [hp, Option.some.injEq] at hrm
      exact ⟨rm', hself, hstate (hrm ▸ hidle)⟩
    · exact ⟨rm₀, (hother q hqp).trans hrm, hidle⟩
  · obtain ⟨rm₀, hrm, hclk⟩ := h.owner i q hq
    rcases eq_or_ne q p with rfl | hqp
    · rw [hp, Option.some.injEq] at hrm
      exact ⟨rm', hself, hpclock.trans (hrm ▸ hclk)⟩
    · exact ⟨rm₀, (hother q hqp).trans hrm, hclk⟩

theorem freeClock?_prm {i : Fin rmTimerNum} (h : s.freeClock? = some i) :
    (s.clock i).prm = none := by
  have hfound := List.find?_some h
  simpa using hfound

def allocated (s : RmPriv) (n : NewMeas) (i : Fin rmTimerNum)
    (clock : Fin rmTimerNum → RmClock) : RmPriv :=
  { s with
    clock := clock
    heap := Function.update s.heap s.next (some (NewMeas.obj n i))
    next := s.next + 1 }

theorem rmAllocRmobj_cases (s : RmPriv) (n : NewMeas) :
    (∃ i, s.freeClock? = some i ∧ s.rmAllocRmobj true n = (some s.next,
      s.allocated n i (Function.update s.clock i ⟨some s.next, 0, .max⟩))) ∨
    (s.freeClock? = none ∧ s.rmAllocRmobj true n = (some s.next, s.allocated n lastClock s.clock)) := by
  rw [rmAllocRmobj, rmAllocClock]
  cases hfree : s.freeClock? with
  | some i => exact .inl ⟨i, rfl, rfl⟩
  | none => exact .inr ⟨rfl, rfl⟩

theorem Wf.allocated (h : s.Wf) (n : NewMeas) (i : Fin rmTimerNum)
    {clock : Fin rmTimerNum → RmClock}
    (hclock : ∀ j p, (clock j).prm = some p → (s.clock j).prm = some p ∨ p = s.next ∧ j = i) :
    (s.allocated n i clock).Wf := by
  have hself : Function.update s.heap s.next (some (NewMeas.obj n i)) s.next = some (NewMeas.obj n i) :=
    Function.update_self ..
  have hnone : s.heap s.next = none := h.fresh s.next le_rfl
  have hother : ∀ q rm, s.heap q = some rm →
      Function.update s.heap s.next (some (NewMeas.obj n i)) q = some rm := fun q rm hq => by
    rw [Function.update_of_ne (Nat.ne_of_lt (h.lt_next hq))]
    exact hq
  refine ⟨h.nodup, fun q hq => ?_, fun q hq => ?_, fun q hq => ?_, fun j q hq => ?_⟩
  · obtain ⟨rm, hrm⟩ := Option.isSome_iff_exists.mp (h.live q hq)
    exact Option.isSome_iff_exists.mpr ⟨rm, hother q rm hrm⟩
  · have hlt : s.next < q := hq
    show Function.update s.heap s.next _ q = none
    rw [Function.update_of_ne (Nat.ne_of_gt hlt)]
    exact h.fresh q hlt.le
  · obtain ⟨hnot, rm, hrm, hidle⟩ := h.sel q hq
    exact ⟨hnot, rm, hother q rm hrm, hidle⟩
  · rcases hclock j q hq with hold | ⟨rfl, rfl⟩
    · obtain ⟨rm, hrm, hclk⟩ := h.owner j q hold
      exact ⟨rm, hother q rm hrm, hclk⟩
    · exact ⟨NewMeas.obj n j, hself, rfl⟩

theorem Wf.next_notMem (h : s.Wf) : s.next ∉ s.rmQueue := fun hmem => by
  have hlive := h.live s.next hmem
  rw [h.fresh s.next le_rfl] at hlive
  exact absurd hlive (by decide)

theorem Wf.next_ne_sel (h : s.Wf) : s.prmSel ≠ some s.next := fun hsel => by
  obtain ⟨-, rm, hrm, -⟩ := h.sel s.next hsel
  exact absurd ((h.fresh s.next le_rfl).symm.trans hrm) (Option.some_ne_none rm).symm

theorem Wf.rmAllocRmobj (h : s.Wf) (n : NewMeas) :
    ∃ i clock, s.rmAllocRmobj true n = (some s.next, s.allocated n i clock) ∧
      (s.allocated n i clock).Wf := by
  rcases rmAllocRmobj_cases s n with ⟨i, hfree, heq⟩ | ⟨-, heq⟩
  · refine ⟨i, _, heq, h.allocated n i fun j p hp => ?_⟩
    rcases eq_or_ne j i with rfl | hj
    · rw [Function.update_self, Option.some.injEq] at hp
      exact .inr ⟨hp.symm, rfl⟩
    · rw [Function.update_of_ne hj] at hp
      exact .inl hp
  · exact ⟨lastClock, s.clock, heq, h.allocated n lastClock fun _ _ hp => .inl hp⟩

theorem Wf.enqueue (h : s.Wf) {p : ℕ} {rm : RmObj} (hp : s.heap p = some rm)
    (hnot : p ∉ s.rmQueue) (hsel : s.prmSel ≠ some p) (cmdAlloc : Bool) :
    (s.rmEnqueueRmobj cmdAlloc p).Wf := by
  have hset : ({ s with heap := Function.update s.heap p (some { rm with state := .idle }) } : RmPriv).Wf :=
    h.setRm hp (fun _ => rfl) rfl
  rw [rmEnqueueRmobj]
  rw [hp]
  refine Wf.rmPostEvent ?_ _ _ _
  refine ⟨?_, fun q hq => ?_, hset.fresh, fun q hq => ?_, hset.owner⟩
  · refine List.nodup_append.mpr ⟨h.nodup, List.nodup_singleton p, fun a ha b hb => ?_⟩
    rw [List.mem_singleton.mp hb]
    exact ne_of_mem_of_not_mem ha hnot
  · rcases List.mem_append.mp hq with hq | hq
    · exact hset.live q hq
    · rw [List.mem_singleton.mp hq]
      show (Function.update s.heap p _ p).isSome = true
      rw [Function.update_self]
      rfl
  · obtain ⟨hq', hrest⟩ := hset.sel q hq
    refine ⟨fun hmem => ?_, hrest⟩
    rcases List.mem_append.mp hmem with hmem | hmem
    · exact hq' hmem
    · exact hsel (List.mem_singleton.mp hmem ▸ hq)

theorem Wf.request (h : s.Wf) (alloc cmdAlloc enqueue : Bool) (n : NewMeas) :
    (s.request alloc cmdAlloc enqueue n).Wf := by
  rw [RmPriv.request]
  cases alloc with
  | false => exact h
  | true =>
    obtain ⟨i, clock, heq, hwf⟩ := h.rmAllocRmobj n
    rw [heq]
    dsimp only
    split
    · exact hwf.enqueue (Function.update_self ..) h.next_notMem h.next_ne_sel cmdAlloc
    · exact hwf

theorem Wf.park (h : s.Wf) {p : ℕ} {rm rm' : RmObj} (hp : s.heap p = some rm)
    (hidle : rm'.state = .idle) (hpclock : rm'.pclock = rm.pclock) (hnot : p ∉ s.rmQueue) :
    ({ s with prmSel := some p, heap := Function.update s.heap p (some rm') } : RmPriv).Wf := by
  have hset := h.setRm hp (fun _ => hidle) hpclock
  refine ⟨hset.nodup, hset.live, hset.fresh, fun q hq => ?_, hset.owner⟩
  have hq' : p = q := Option.some.inj hq
  subst hq'
  exact ⟨hnot, rm', Function.update_self .., hidle⟩

theorem Wf.unpark (h : s.Wf) : ({ s with prmSel := none } : RmPriv).Wf :=
  ⟨h.nodup, h.live, h.fresh, fun _ hq => absurd hq (Option.not_mem_none _), h.owner⟩

theorem Wf.discard (h : s.Wf) (p : ℕ) : ({ s.rmFreeRmobj p with prmSel := none } : RmPriv).Wf := by
  rw [RmPriv.rmFreeRmobj]
  split
  · exact h.unpark.fault true
  · next rm hp =>
    exact Wf.store (s := { s with prmSel := none }) h.unpark hp (Option.some_ne_none p).symm
      (Meas.Frame.rmFreeRmobj _)

theorem Wf.rmDbgAddMeas (h : s.Wf) (alloc : Bool) (n : NewMeas) (found : Bool) :
    (s.rmDbgAddMeas alloc n found).Wf := by
  have hfinish : ∀ t : RmPriv, t.Wf → ∀ p rm, t.heap p = some rm → rm.state = .idle →
      p ∉ t.rmQueue → (t.dbgFinish n found p).Wf := by
    intro t ht p rm hp hidle hnot
    rw [dbgFinish]
    split
    · rw [hp]
      exact ht.park hp hidle rfl hnot
    · exact ht.discard p
  rw [RmPriv.rmDbgAddMeas]
  cases hsel : s.prmSel with
  | some p =>
    obtain ⟨hnot, rm, hp, hidle⟩ := h.sel p hsel
    exact hfinish s h p rm hp hidle hnot
  | none =>
    cases alloc with
    | false => exact h
    | true =>
      obtain ⟨i, clock, heq, hwf⟩ := h.rmAllocRmobj n
      rw [heq]
      exact hfinish _ hwf s.next _ (Function.update_self ..) rfl h.next_notMem

theorem Wf.rmDbgActivateMeas (h : s.Wf) (cmdAlloc : Bool) (curChannel : UInt8) :
    (s.rmDbgActivateMeas cmdAlloc curChannel).Wf := by
  rw [RmPriv.rmDbgActivateMeas]
  cases hsel : s.prmSel with
  | none => exact h
  | some p =>
    obtain ⟨hnot, rm, hp, -⟩ := h.sel p hsel
    dsimp only
    rw [hp]
    have hset : ({ s with
        prmSel := none
        heap := Function.update s.heap p (some { rm with q.chNum := curChannel }) } : RmPriv).Wf :=
      Wf.setRm (s := { s with prmSel := none }) h.unpark hp id rfl
    have henq := hset.enqueue (Function.update_self ..) hnot (Option.some_ne_none p).symm cmdAlloc
    refine henq.congr ?_ ?_ ?_ ?_ fun i => ?_
    all_goals
      unfold rmEnqueueRmobj
      dsimp only
      rw [Function.update_self]
      unfold RmPriv.rmPostEvent
      dsimp only
      split <;> rfl

theorem Wf.recvReport (h : s.Wf) (cmdAlloc : Bool) (rmid : UInt32) (actionCode : UInt8)
    (mMode : Option UInt8) (isRsp : Bool) :
    (s.recvReport cmdAlloc rmid actionCode mMode isRsp).Wf := by
  rw [RmPriv.recvReport]
  rw [h.walkQueue_eq]
  cases s.rmGetRmobj rmid with
  | none => exact h
  | some p =>
    dsimp only
    cases hp : s.heap p with
    | none => exact h.fault true
    | some rm =>
      have hset : ({ s with heap := Function.update s.heap p (some { rm with
          p.actionCode := actionCode
          p.mMode := mMode.getD rm.p.mMode }) } : RmPriv).Wf := h.setRm hp id rfl
      dsimp only
      split
      · exact hset.rmPostEvent _ _ _
      · exact hset

theorem timerOne_same (alloc : Fin rmTimerNum → Bool) (i : Fin rmTimerNum) :
    (timerOne alloc s i).rmQueue = s.rmQueue ∧ (timerOne alloc s i).heap = s.heap ∧
      (timerOne alloc s i).next = s.next ∧ (timerOne alloc s i).prmSel = s.prmSel ∧
      (timerOne alloc s i).log = s.log ∧
      ∀ j, ((timerOne alloc s i).clock j).prm = (s.clock j).prm := by
  have hprm : ∀ (counter : ℕ) j, (Function.update s.clock i { s.clock i with counter := counter } j).prm =
      (s.clock j).prm := fun counter j => by
    rcases eq_or_ne j i with rfl | hj
    · rw [Function.update_self]
    · rw [Function.update_of_ne hj]
  rw [timerOne]
  cases (s.clock i).prm with
  | none => exact ⟨rfl, rfl, rfl, rfl, rfl, fun _ => rfl⟩
  | some p =>
    dsimp only
    split
    · exact ⟨rfl, rfl, rfl, rfl, rfl, fun _ => rfl⟩
    · split
      · cases s.heap p with
        | none => exact ⟨rfl, rfl, rfl, rfl, rfl, hprm _⟩
        | some rm =>
          dsimp only
          rw [RmPriv.rmPostEvent]
          split <;> exact ⟨rfl, rfl, rfl, rfl, rfl, hprm _⟩
      · exact ⟨rfl, rfl, rfl, rfl, rfl, hprm _⟩

theorem Wf.timerOne (h : s.Wf) (alloc : Fin rmTimerNum → Bool) (i : Fin rmTimerNum) :
    (timerOne alloc s i).Wf := by
  obtain ⟨hqueue, hheap, hnext, hsel, -, hprm⟩ := timerOne_same (s := s) alloc i
  exact h.congr hqueue hheap hnext hsel hprm

theorem Wf.foldl {α : Type} {f : RmPriv → α → RmPriv} (hf : ∀ s a, s.Wf → (f s a).Wf) (as : List α)
    (h : s.Wf) : (as.foldl f s).Wf := by
  induction as generalizing s with
  | nil => exact h
  | cons a as ih => exact ih (hf s a h)

theorem Wf.rmHandler (h : s.Wf) (env : ℕ → Env) : (s.rmHandler env).Wf := by
  cases hev : s.evQueue with
  | nil =>
    rw [RmPriv.rmHandler]
    rw [hev]
    exact h
  | cons ev rest =>
    rw [rmHandler_cons h env hev]
    exact Wf.runs (s := { s with evQueue := rest })
      ⟨h.nodup, h.live, h.fresh, h.sel, h.owner⟩ (fun p hp => h.ne_sel (mem_receivers hp)) env _

theorem Wf.drainOne (h : s.Wf) (env : ℕ → Env) : (drainOne env s).Wf := by
  rw [RmPriv.drainOne]
  split
  · exact h
  · next p ps hqueue =>
    rw [h.walkQueue_eq]
    exact h.rmStateRun (h.ne_sel (hqueue ▸ List.mem_cons_self)) _ _

theorem Wf.rtwDeinitRm (h : s.Wf) (env : ℕ → Env) : (s.rtwDeinitRm env).Wf := by
  rw [RmPriv.rtwDeinitRm]
  have hstart : ({ s with enable := false, evQueue := [] } : RmPriv).Wf :=
    ⟨h.nodup, h.live, h.fresh, h.sel, h.owner⟩
  revert hstart
  generalize ({ s with enable := false, evQueue := [] } : RmPriv) = t
  induction 2 * s.rmQueue.length generalizing t with
  | zero => exact id
  | succ n ih => exact fun ht => ih _ (ht.drainOne env)

theorem Wf.step (h : s.Wf) (e : RmSysEvent) : (s.step e).Wf := by
  cases e with
  | request alloc cmdAlloc enqueue n => exact h.request alloc cmdAlloc enqueue n
  | dbgAdd alloc n found => exact h.rmDbgAddMeas alloc n found
  | dbgActivate cmdAlloc curChannel => exact h.rmDbgActivateMeas cmdAlloc curChannel
  | dbgDel => exact h.unpark
  | report cmdAlloc rmid actionCode mMode isRsp =>
    exact h.recvReport cmdAlloc rmid actionCode mMode isRsp
  | post alloc rmid evid => exact h.rmPostEvent alloc rmid evid
  | surveyDone alloc =>
    show (s.surveyDone alloc).Wf
    rw [RmPriv.surveyDone]
    split
    · exact h
    · dsimp only
      have hpop : ∀ rest, ({ s with surveys := rest } : RmPriv).Wf := fun _ =>
        ⟨h.nodup, h.live, h.fresh, h.sel, h.owner⟩
      split
      · exact (hpop _).rmPostEvent _ _ _
      · exact hpop _
  | tick alloc => exact Wf.foldl (fun _ i ht => ht.timerOne alloc i) _ h
  | command alloc =>
    show (s.rmPostEventHdl alloc).Wf
    rw [RmPriv.rmPostEventHdl]
    split
    · exact h
    · exact h.congr rfl rfl rfl rfl fun _ => rfl
  | handle env => exact h.rmHandler env
  | deinit env => exact h.rtwDeinitRm env

end RmPriv

end Rm
