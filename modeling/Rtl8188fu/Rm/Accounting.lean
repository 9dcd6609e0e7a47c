import Rtl8188fu.Rm.ChannelSet
import Rtl8188fu.Rm.LiveObjects
import Rtl8188fu.Rm.ReportBuffers
import Rtl8188fu.Rm.RequestHoldings

namespace Rm

open ByteMemory

structure RequestFrame where
  env : ParseEnv
  mem : Mem UInt8
  aid : UInt16
  fuel : ℕ
  result : Received
  parsed : rmRecvRadioMensReq env mem fuel = some result

def RequestFrame.meas (f : RequestFrame) : NewMeas where
  master := false
  aid := f.aid
  diagToken := f.result.q.diagToken
  q := ⟨rmActRadioMeasReq, f.result.q.mType, f.result.q.mMode, f.result.q.rpt, f.result.q.chNum,
    f.result.q.randIntvl⟩
  mMode := f.result.q.repMode
  token h := absurd h Bool.false_ne_true

structure RmMem where
  priv : RmPriv
  blocks : ℕ → List Block
  held : ℕ → Held

inductive RmMemEvent where
  | received (alloc cmdAlloc : Bool) (f : RequestFrame)
  | report (p : ℕ) (env : ReportEnv) (r : Reporter) (nets : List WlanNetwork)
  | sys (e : RmSysEvent) (background : e.background = true)

namespace RmMem

def initial : RmMem := ⟨.initial, fun _ => [], fun _ => .nothing⟩

def recvRadioMensReq (m : RmMem) (alloc cmdAlloc : Bool) (f : RequestFrame) : RmMem where
  priv := m.priv.request alloc cmdAlloc f.result.enqueued f.meas
  blocks := if alloc then Function.update m.blocks m.priv.next f.result.q.blocks else m.blocks
  held := if alloc then Function.update m.held m.priv.next f.result.q.held else m.held

def issueReport (m : RmMem) (p : ℕ) (env : ReportEnv) (r : Reporter) (nets : List WlanNetwork) :
    RmMem :=
  if (m.priv.heap p).isSome then
    { m with
      blocks := Function.update m.blocks p
        (m.blocks p ++ List.replicate (issueBeaconRep env r nets).leaked .pbuf) }
  else m

def remaining (m : RmMem) (p : ℕ) : List Block := (m.blocks p).diff (m.held p).freed

def background (m : RmMem) (e : RmSysEvent) : RmMem where
  priv := m.priv.step e
  blocks p := if (m.priv.heap p).isSome ∧ ((m.priv.step e).heap p).isNone then m.remaining p
    else m.blocks p
  held := m.held

def step (m : RmMem) : RmMemEvent → RmMem
  | .received alloc cmdAlloc f => m.recvRadioMensReq alloc cmdAlloc f
  | .report p env r nets => m.issueReport p env r nets
  | .sys e _ => m.background e

structure Accounted (m : RmMem) : Prop where
  clocks : m.priv.ownedClocks.card = m.priv.rmQueue.length
  objects : m.priv.objects.card = m.priv.rmQueue.length
  freed : ∀ p, (m.priv.heap p).isSome = true → m.remaining p = []
  gone : ∀ p, m.priv.heap p = none → m.blocks p = []

def KeepsAccounts (m : RmMem) : RmMemEvent → Prop
  | .received alloc _ f => alloc = true →
      f.mem 5 = measReqIe ∧ ¬ m.priv.AllClocksOwned ∧ TidyRequest f.env f.mem
  | .report p env r nets => (m.priv.heap p).isSome = true → Buffered env r nets
  | .sys _ _ => True

structure Balanced (m : RmMem) : Prop where
  wf : m.priv.Wf
  clocksOwned : m.priv.ClocksOwned
  enqueued : m.priv.Enqueued
  sel : m.priv.prmSel = none
  accounted : m.Accounted

section Steps

variable {m : RmMem} {f : RequestFrame}

theorem initial_balanced : initial.Balanced where
  wf := RmPriv.initial_wf
  clocksOwned := RmPriv.initial_clocksOwned
  enqueued _ hp := absurd hp Bool.false_ne_true
  sel := rfl
  accounted := ⟨rfl, rfl, fun _ hp => absurd hp Bool.false_ne_true, fun _ _ => rfl⟩

theorem received_enqueued {env : ParseEnv} {mem : Mem UInt8} {fuel : ℕ} {r : Received}
    (hrun : rmRecvRadioMensReq env mem fuel = some r) : r.enqueued = true ↔ mem 5 = measReqIe := by
  have hparsed {q : MeasReqObj}
      (hmap : (rmParseMeasReq env mem fuel 5 10 q).map Received.ofScan = some r) :
      r.enqueued = true := by
    obtain ⟨s, -, rfl⟩ := Option.map_eq_some_iff.mp hmap
    rfl
  unfold rmRecvRadioMensReq at hrun
  dsimp only at hrun
  split at hrun
  · next hid =>
    cases hrun
    exact iff_of_false Bool.false_ne_true hid
  · next hid =>
    refine iff_of_true ?_ (not_not.mp hid)
    split at hrun
    · exact hparsed hrun
    · split at hrun
      · exact hparsed hrun
      · split at hrun
        · exact hparsed hrun
        · cases hrun
          rfl

theorem counts_of_enqueued {s : RmPriv} (h : s.Wf) (hclocks : s.ClocksOwned) (hall : s.Enqueued) :
    s.ownedClocks.card = s.rmQueue.length ∧ s.objects.card = s.rmQueue.length := by
  have hobjects := (RmPriv.card_objects_iff h).mpr hall
  exact ⟨(RmPriv.card_ownedClocks h hclocks).trans hobjects, hobjects⟩

theorem notMem_freed_pbuf (a : Held) : Block.pbuf ∉ a.freed := by
  unfold Held.freed
  split
  · exact List.not_mem_nil
  · unfold requestBlock
    split
    · exact List.not_mem_nil
    · exact fun h => Block.noConfusion (List.mem_singleton.mp h)

theorem diff_append_replicate (bs : List Block) (a : Held) (n : ℕ) :
    (bs ++ List.replicate n Block.pbuf).diff a.freed =
      bs.diff a.freed ++ List.replicate n Block.pbuf := by
  cases a.freed_cases with
  | inl hnone => rw [hnone, List.diff_nil, List.diff_nil]
  | inr hone =>
    obtain ⟨b, hb⟩ := hone
    have hne : b ∉ List.replicate n Block.pbuf := fun hmem => by
      have hpbuf := notMem_freed_pbuf a
      rw [hb, ← (List.mem_replicate.mp hmem).2] at hpbuf
      exact hpbuf (List.mem_singleton_self b)
    rw [hb, List.diff_cons, List.diff_cons, List.diff_nil, List.diff_nil, List.erase_append]
    split
    · rfl
    · next hnot => rw [List.erase_of_not_mem hne, List.erase_of_not_mem hnot]

theorem Balanced.background (h : m.Balanced) {e : RmSysEvent} (he : e.background = true) :
    (m.background e).Balanced := by
  have hwf := h.wf.step e
  have hclocks := h.clocksOwned.step h.wf (RmPriv.roomForClock_of_background he)
  have hlives := RmPriv.Outlives.step h.wf he
  have hall : (m.priv.step e).Enqueued := fun p hp =>
    hlives.queue p (h.enqueued p (hlives.live p hp)) hp
  obtain ⟨howned, hobjects⟩ := counts_of_enqueued hwf hclocks hall
  refine ⟨hwf, hclocks, hall, hlives.sel.trans h.sel, howned, hobjects, fun p hp => ?_, fun p hp => ?_⟩
  · have hkept : ¬ ((m.priv.heap p).isSome = true ∧ ((m.priv.step e).heap p).isNone = true) := by
      rintro ⟨-, hnone⟩
      rw [Option.isNone_iff_eq_none] at hnone
      change ((m.priv.step e).heap p).isSome = true at hp
      rw [hnone] at hp
      cases hp
    show List.diff (if _ then _ else _) _ = []
    rw [if_neg hkept]
    exact h.accounted.freed p (hlives.live p hp)
  · show (if _ then _ else _) = []
    change (m.priv.step e).heap p = none at hp
    split
    · next hfreed => exact h.accounted.freed p hfreed.1
    · next hkept =>
      refine h.accounted.gone p ?_
      cases hlive : m.priv.heap p with
      | none => rfl
      | some rm => exact absurd ⟨by rw [hlive]; rfl, by rw [hp]; rfl⟩ hkept

theorem Balanced.report_iff (h : m.Balanced) (p : ℕ) (env : ReportEnv) (r : Reporter)
    (nets : List WlanNetwork) :
    (m.issueReport p env r nets).Accounted ↔
      ((m.priv.heap p).isSome = true → Buffered env r nets) := by
  unfold issueReport
  split
  · next hlive =>
    have hself : ((m.blocks p ++ List.replicate (issueBeaconRep env r nets).leaked Block.pbuf).diff
        (m.held p).freed) = List.replicate (issueBeaconRep env r nets).leaked .pbuf := by
      have hfreed : (m.blocks p).diff (m.held p).freed = [] := h.accounted.freed p hlive
      rw [diff_append_replicate, hfreed, List.nil_append]
    rw [← ScanBufs.leaked_iff]
    constructor
    · intro hacc _
      have hleft := hacc.freed p hlive
      rw [remaining] at hleft
      dsimp only at hleft
      rw [Function.update_self, hself, List.replicate_eq_nil_iff] at hleft
      exact hleft
    · intro hnone
      refine ⟨h.accounted.clocks, h.accounted.objects, fun q hq => ?_, fun q hq => ?_⟩
      · rw [remaining]
        dsimp only
        cases Decidable.em (q = p) with
        | inl hqp =>
          rw [hqp, Function.update_self, hself, hnone hlive]
          rfl
        | inr hqp =>
          rw [Function.update_of_ne hqp]
          exact h.accounted.freed q hq
      · have hqp : q ≠ p := by
          rintro rfl
          rw [show m.priv.heap q = none from hq] at hlive
          cases hlive
        show Function.update m.blocks p _ q = []
        rw [Function.update_of_ne hqp]
        exact h.accounted.gone q hq
  · next hdead => exact iff_of_true h.accounted fun hlive => absurd hlive hdead

theorem Balanced.report (h : m.Balanced) {p : ℕ} {env : ReportEnv} {r : Reporter}
    {nets : List WlanNetwork} (hacc : (m.issueReport p env r nets).Accounted) :
    (m.issueReport p env r nets).Balanced := by
  have hpriv : (m.issueReport p env r nets).priv = m.priv := by
    unfold issueReport
    split <;> rfl
  refine ⟨?_, ?_, ?_, ?_, hacc⟩
  · rw [hpriv]
    exact h.wf
  · rw [hpriv]
    exact h.clocksOwned
  · rw [hpriv]
    exact h.enqueued
  · rw [hpriv]
    exact h.sel

theorem remaining_received (m : RmMem) (cmdAlloc : Bool) (f : RequestFrame) (p : ℕ) :
    (m.recvRadioMensReq true cmdAlloc f).remaining p =
      if p = m.priv.next then f.result.q.held.lost else m.remaining p := by
  show (Function.update m.blocks m.priv.next f.result.q.blocks p).diff
    (Function.update m.held m.priv.next f.result.q.held p).freed = _
  split
  · next hp =>
    rw [hp, Function.update_self, Function.update_self]
    rfl
  · next hp =>
    rw [Function.update_of_ne hp, Function.update_of_ne hp]
    rfl

theorem Balanced.received_iff (h : m.Balanced) (cmdAlloc : Bool) (f : RequestFrame) :
    (m.recvRadioMensReq true cmdAlloc f).Accounted ↔
      f.mem 5 = measReqIe ∧ ¬ m.priv.AllClocksOwned ∧ TidyRequest f.env f.mem := by
  have hadds := RmPriv.request_adds h.wf cmdAlloc f.result.enqueued f.meas
  have hwf := h.wf.request true cmdAlloc f.result.enqueued f.meas
  have hentered := (hadds.enqueued_iff h.wf h.enqueued).trans (received_enqueued f.parsed)
  rw [← received_lost f.parsed]
  constructor
  · intro hacc
    have hid := hentered.mp ((RmPriv.card_objects_iff hwf).mp hacc.objects)
    refine ⟨hid, fun hfull => ?_, ?_⟩
    · -- with every clock owned the new object shares the last one
      have hlonger : (m.priv.request true cmdAlloc f.result.enqueued f.meas).rmQueue.length =
          m.priv.rmQueue.length + 1 := by
        rw [hadds.queue, (received_enqueued f.parsed).mpr hid, List.length_append]
        rfl
      have hall := RmPriv.card_ownedClocks_full hfull
      have hmost := RmPriv.card_ownedClocks_le
        (m.priv.request true cmdAlloc f.result.enqueued f.meas)
      have hbefore := h.accounted.clocks
      have hafter : (m.priv.request true cmdAlloc f.result.enqueued f.meas).ownedClocks.card =
          (m.priv.request true cmdAlloc f.result.enqueued f.meas).rmQueue.length := hacc.clocks
      omega
    · have hleft := hacc.freed m.priv.next ((hadds.heap _).mpr (.inr rfl))
      rw [remaining_received, if_pos rfl] at hleft
      exact hleft
  · rintro ⟨hid, hroom, hlost⟩
    have hclocks : (m.priv.request true cmdAlloc f.result.enqueued f.meas).ClocksOwned :=
      h.clocksOwned.request h.wf fun _ => hroom
    obtain ⟨howned, hobjects⟩ := counts_of_enqueued hwf hclocks (hentered.mpr hid)
    refine ⟨howned, hobjects, fun p hp => ?_, fun p hp => ?_⟩
    · rw [remaining_received]
      split
      · exact hlost
      · next hne => exact h.accounted.freed p (((hadds.heap p).mp hp).resolve_right hne)
    · have hdead : ¬ ((m.priv.heap p).isSome = true ∨ p = m.priv.next) := by
        rw [← hadds.heap, Option.not_isSome_iff_eq_none]
        exact hp
      rw [not_or, Option.not_isSome_iff_eq_none] at hdead
      show Function.update m.blocks m.priv.next _ p = []
      rw [Function.update_of_ne hdead.2]
      exact h.accounted.gone p hdead.1

theorem Balanced.received (h : m.Balanced) {cmdAlloc : Bool} {f : RequestFrame}
    (hacc : (m.recvRadioMensReq true cmdAlloc f).Accounted) :
    (m.recvRadioMensReq true cmdAlloc f).Balanced := by
  obtain ⟨hid, hroom, -⟩ := (h.received_iff cmdAlloc f).mp hacc
  have hadds := RmPriv.request_adds h.wf cmdAlloc f.result.enqueued f.meas
  have hwf := h.wf.request true cmdAlloc f.result.enqueued f.meas
  have hall := (hadds.enqueued_iff h.wf h.enqueued).mpr ((received_enqueued f.parsed).mpr hid)
  have hclocks : (m.priv.request true cmdAlloc f.result.enqueued f.meas).ClocksOwned :=
    h.clocksOwned.request h.wf fun _ => hroom
  exact ⟨hwf, hclocks, hall, hadds.sel.trans h.sel, hacc⟩

theorem accounted_iff (h : m.Balanced) (e : RmMemEvent) :
    (m.step e).Accounted ↔ m.KeepsAccounts e := by
  cases e with
  | received alloc cmdAlloc f =>
    cases alloc with
    | false => exact iff_of_true h.accounted fun halloc => absurd halloc Bool.false_ne_true
    | true => exact (h.received_iff cmdAlloc f).trans ⟨fun hkeeps _ => hkeeps, fun hkeeps => hkeeps rfl⟩
  | report p env r nets => exact h.report_iff p env r nets
  | sys e he => exact iff_of_true (h.background he).accounted trivial

theorem Balanced.step (h : m.Balanced) (e : RmMemEvent) (hacc : (m.step e).Accounted) :
    (m.step e).Balanced := by
  cases e with
  | received alloc cmdAlloc f =>
    cases alloc with
    | false => exact h
    | true => exact h.received hacc
  | report p env r nets => exact h.report hacc
  | sys e he => exact h.background he

end Steps

section Law

def AccountedAfter (m : RmMem) (e : RmMemEvent) : Prop := (m.step e).Accounted

theorem accounting_law (es : List RmMemEvent) :
    Run.Each step AccountedAfter initial es ↔ Run.Each step KeepsAccounts initial es :=
  Run.each_iff step AccountedAfter KeepsAccounts Balanced (fun _ e h => accounted_iff h e)
    (fun _ e h hacc => h.step e hacc) initial_balanced es

def misnamedElement : List UInt8 := [5, 0, 1, 0, 0, 39, 3, 1, 0, 5]

def misnamedRequest : RequestFrame where
  env := capable
  mem := frameAt misnamedElement
  aid := 1
  fuel := 0
  result := ⟨measHeader (frameAt misnamedElement), 10, false, false⟩
  parsed := rfl

theorem oneReport_parses : (rmRecvRadioMensReq capable (frameAt oneReport) 2).isSome = true := by
  decide +kernel

def reportedRequest : RequestFrame where
  env := capable
  mem := frameAt oneReport
  aid := 1
  fuel := 2
  result := (rmRecvRadioMensReq capable (frameAt oneReport) 2).get oneReport_parses
  parsed := (Option.some_get _).symm

def refused : RmMemEvent := .received true true misnamedRequest

theorem refused_requests_keep_clocks :
    ¬ Run.Each step AccountedAfter initial [refused] ∧
      (∃ m, m = Run.exec step initial (List.replicate 32 refused) ∧ m.priv.rmQueue = [] ∧
        m.priv.AllClocksOwned) ∧
      ∃ m, m = Run.exec step initial
          [.received true true reportedRequest, .sys (.deinit RmPriv.quietAir) rfl] ∧
        m.priv.heap 0 = none ∧ m.blocks 0 = [.operatingClass] := by
  refine ⟨fun h => ?_, ⟨_, rfl, by decide +kernel, ?_⟩, ⟨_, rfl, ?_, by decide +kernel⟩⟩
  · have hid := ((initial_balanced.received_iff true misnamedRequest).mp h.1).1
    exact absurd hid (by decide)
  · unfold RmPriv.AllClocksOwned
    decide +kernel
  · rw [← Option.isNone_iff_eq_none]
    decide +kernel

end Law

end RmMem

end Rm
