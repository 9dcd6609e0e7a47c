import Mathlib.Algebra.BigOperators.Group.Finset.Basic
import Mathlib.Data.Prod.Lex
import Rtl8188fu.Ap.PowerSave
import Rtl8188fu.Lib.ExchangeSort
import Rtl8188fu.Lib.Run

namespace Xmit.Sched

open Ap.Ps (Ac Pkt StaId)

structure TxServq where
  staPending : List Pkt
  qcnt : ℤ
deriving DecidableEq

def TxServq.empty : TxServq := ⟨[], 0⟩

-- the order of hwxmits[]
def hwOrder : List Ac := [.vo, .vi, .be, .bk]

def hwIndex : Ac → ℕ
  | .vo => 0
  | .vi => 1
  | .be => 2
  | .bk => 3

structure AcParam where
  aciAifsn : UInt8
  cw : UInt8
  txopLimit : UInt16
deriving DecidableEq

namespace AcParam

variable (p : AcParam)

def ac : Ac :=
  match (p.aciAifsn >>> 5) &&& 0x03 with
  | 0 => .be
  | 1 => .bk
  | 2 => .vi
  | _ => .vo

-- AIFS is a byte, so AIFSN * slot time + SIFS wraps
def acParm (slotTime aSifsTime : UInt8) : UInt32 :=
  ((p.aciAifsn &&& 0x0f) * slotTime + aSifsTime).toUInt32 ||| ((p.cw &&& 0x0f).toUInt32 <<< 8) |||
    (((p.cw &&& 0xf0) >>> 4).toUInt32 <<< 12) ||| (p.txopLimit.toUInt32 <<< 16)

end AcParam

def edcaOf (slotTime aSifsTime : UInt8) (params : List AcParam) : Ac → UInt32 :=
  params.foldl (fun edca p => Function.update edca p.ac (p.acParm slotTime aSifsTime)) fun _ => 0

-- the smaller contention window and AIFS goes first, then the longer TXOP
def edcaLess (a b : UInt32) : Bool :=
  (a &&& 0xffff) < (b &&& 0xffff) || ((a &&& 0xffff) == (b &&& 0xffff) && (b >>> 16) < (a >>> 16))

def edcaKey (a : UInt32) : ℕ ×ₗ ℕᵒᵈ :=
  toLex ((a &&& 0xffff).toNat, OrderDual.toDual (a >>> 16).toNat)

theorem edcaLess_iff (a b : UInt32) : edcaLess a b = true ↔ edcaKey a < edcaKey b := by
  simp [edcaLess, edcaKey, Prod.Lex.toLex_lt_toLex, UInt32.lt_iff_toNat_lt, ← UInt32.toNat_inj]

def apParams : List AcParam := [⟨0x27, 0xa4, 0⟩, ⟨0x03, 0x64, 0⟩, ⟨0x41, 0x43, 94⟩, ⟨0x61, 0x32, 47⟩]

-- edca holds the words of the last setting, a ghost
def prefers (wifiSpec : Bool) (edca : Option (Ac → UInt32)) (a b : Ac) : Bool :=
  match wifiSpec, edca with
  | true, some e => edcaLess (e a) (e b)
  | _, _ => hwIndex a < hwIndex b

structure WmmSeq where
  wifiSpec : Bool
  wmmParaSeq : List Ac
  edca : Option (Ac → UInt32)
  each : wmmParaSeq.Perm hwOrder
  sorted : wmmParaSeq.Pairwise fun a b => prefers wifiSpec edca b a = false

theorem hwOrder_sorted : hwOrder.Pairwise fun a b => decide (hwIndex b < hwIndex a) = false := by
  decide

theorem edcaSort_sorted (e : Ac → UInt32) :
    (ExchangeSort.sort (fun a b => edcaLess (e a) (e b)) hwOrder).Pairwise
      fun a b => edcaLess (e b) (e a) = false := by
  have hsorted : (ExchangeSort.sort (fun a b => edcaLess (e a) (e b)) hwOrder).Pairwise
      fun a b => edcaKey (e a) ≤ edcaKey (e b) :=
    ExchangeSort.sort_sorted (fun a b => edcaLess_iff (e a) (e b)) hwOrder
  refine hsorted.imp fun hle => ?_
  rw [Bool.eq_false_iff]
  exact fun hlt => not_lt.mpr hle ((edcaLess_iff _ _).mp hlt)

namespace WmmSeq

def init (wifiSpec : Bool) : WmmSeq where
  wifiSpec := wifiSpec
  wmmParaSeq := hwOrder
  edca := none
  each := .refl _
  sorted := by
    cases wifiSpec
    · exact hwOrder_sorted
    · exact hwOrder_sorted

variable (m : WmmSeq)

-- only wifi_spec asks for the order of the EDCA words
def onAssocRsp (e : Ac → UInt32) : WmmSeq where
  wifiSpec := m.wifiSpec
  wmmParaSeq :=
    if m.wifiSpec then ExchangeSort.sort (fun a b => edcaLess (e a) (e b)) hwOrder else hwOrder
  edca := some e
  each := by
    split
    · exact ExchangeSort.sort_perm hwOrder
    · exact .refl _
  sorted := by
    cases m.wifiSpec
    · exact hwOrder_sorted
    · exact edcaSort_sorted e

def inx : List Ac := if m.wifiSpec then m.wmmParaSeq else hwOrder

def Prefers (a b : Ac) : Prop := prefers m.wifiSpec m.edca a b = true

theorem mem_inx (ac : Ac) : ac ∈ m.inx := by
  have hmem : ac ∈ hwOrder := by cases ac <;> decide
  rw [inx]
  split
  · exact m.each.mem_iff.mpr hmem
  · exact hmem

theorem inx_sorted : m.inx.Pairwise fun a b => ¬ m.Prefers b a := by
  simp only [inx, Prefers, Bool.not_eq_true]
  split
  · exact m.sorted
  · rename_i hspec
    rw [Bool.not_eq_true] at hspec
    simp only [hspec, prefers]
    exact hwOrder_sorted

theorem not_prefers_self (ac : Ac) : ¬ m.Prefers ac ac := by
  unfold Prefers prefers
  split
  · rw [edcaLess_iff]
    exact lt_irrefl _
  · simp

-- a best-effort window set below the others puts best effort first
example : ((init true).onAssocRsp (edcaOf 9 16
    [⟨0x02, 0x21, 0⟩, ⟨0x27, 0xa4, 0⟩, ⟨0x42, 0x43, 94⟩, ⟨0x62, 0x32, 47⟩])).inx =
    [.be, .vo, .vi, .bk] := by
  decide

end WmmSeq

def rnd8 (x : ℕ) : ℕ := (x / 8 + if x % 8 = 0 then 0 else 1) * 8

-- what the aggregation reads of the adapter, of the transfer's first frame and of each frame waiting
structure TxAgg where
  maxXmitbufSz : ℕ
  maxTxAggPacketNumber : UInt8
  usbTxAggDescNum : UInt8
  bulkSize : ℕ
  firstLen : ℕ
  len : Pkt → ℕ
  busaggQselCheck : Pkt → Bool
  coalesce : Pkt → Bool

structure AggWalk where
  pbuf : ℕ
  descCount : UInt8
  bulkPtr : ℕ
  aggNum : UInt8

namespace TxAgg

variable (a : TxAgg)

def nextBulk (pbuf : ℕ) : ℕ := (pbuf / a.bulkSize + 1) * a.bulkSize

def start : AggWalk :=
  let pbuf := rnd8 a.firstLen
  if pbuf < a.bulkSize then ⟨pbuf, 1, a.bulkSize, 1⟩ else ⟨pbuf, 0, a.nextBulk pbuf, 1⟩

def fits (k : AggWalk) (f : Pkt) : Bool :=
  a.busaggQselCheck f && decide (k.pbuf + a.len f ≤ a.maxXmitbufSz)

-- none ends the walk behind the frame; a frame that coalesce fails on is freed and takes no room
def next (k : AggWalk) (f : Pkt) : Option AggWalk :=
  if a.coalesce f then
    let pbuf := rnd8 (k.pbuf + a.len f)
    let aggNum := k.aggNum + 1
    if aggNum = a.maxTxAggPacketNumber then none
    else if pbuf < k.bulkPtr then
      if k.descCount + 1 = a.usbTxAggDescNum then none
      else some ⟨pbuf, k.descCount + 1, k.bulkPtr, aggNum⟩
    else some ⟨pbuf, 0, a.nextBulk pbuf, aggNum⟩
  else some k

end TxAgg

-- staQueue holds the stations whose tx_pending node is linked; stranded is a ghost, the queues
-- that a power-save frame unlinked without emptying them
structure TxSys where
  asoc : StaId → Bool
  servq : StaId → Ac → TxServq
  staQueue : Ac → List StaId
  accnt : Ac → ℤ
  seq : WmmSeq
  stranded : StaId → Ac → Bool

structure Pick where
  ac : Ac
  sta : StaId
  frame : Pkt
  rest : List Pkt
deriving DecidableEq

namespace TxSys

variable (σ : TxSys)

def init (wifiSpec : Bool) : TxSys where
  asoc := fun w => w.isNone
  servq := fun _ _ => .empty
  staQueue := fun _ => []
  accnt := fun _ => 0
  seq := .init wifiSpec
  stranded := fun _ _ => false

def pending (w : StaId) (ac : Ac) : List Pkt := (σ.servq w ac).staPending

def putServq (w : StaId) (ac : Ac) (q : TxServq) : TxSys :=
  { σ with servq := Function.update σ.servq w (Function.update (σ.servq w) ac q) }

def count (ac : Ac) (n : ℤ) : TxSys := { σ with accnt := Function.update σ.accnt ac (σ.accnt ac + n) }

def link (w : StaId) (ac : Ac) : TxSys :=
  if w ∈ σ.staQueue ac then σ
  else { σ with staQueue := Function.update σ.staQueue ac (σ.staQueue ac ++ [w]) }

def unlink (w : StaId) (ac : Ac) : TxSys :=
  { σ with staQueue := Function.update σ.staQueue ac ((σ.staQueue ac).filter (· ≠ w)) }

def strand (w : StaId) (ac : Ac) (b : Bool) : TxSys :=
  { σ with stranded := Function.update σ.stranded w (Function.update (σ.stranded w) ac b) }

-- a frame for a station that is not associated is refused, and its caller frees it
def rtwXmitClassifier (w : StaId) (p : Pkt) : TxSys :=
  if σ.asoc w then
    let q := σ.servq w p.ac
    (((σ.link w p.ac).putServq w p.ac ⟨q.staPending ++ [p], q.qcnt + 1⟩).count p.ac 1).strand w p.ac
      false
  else σ

def pickSta (ac : Ac) : List StaId → Option Pick
  | [] => none
  | w :: ws =>
    match σ.pending w ac with
    | [] => pickSta ac ws
    | f :: fs => some ⟨ac, w, f, fs⟩

def pickAc : List Ac → Option Pick
  | [] => none
  | ac :: acs =>
    match σ.pickSta ac (σ.staQueue ac) with
    | some p => some p
    | none => pickAc acs

def pick : Option Pick := σ.pickAc σ.seq.inx

def dequeueOneXmitframe (p : Pick) : TxSys :=
  (σ.putServq p.sta p.ac ⟨p.rest, (σ.servq p.sta p.ac).qcnt - 1⟩).count p.ac (-1)

-- a station leaves the list with its last frame
def take (p : Pick) : TxSys :=
  if p.rest = [] then (σ.dequeueOneXmitframe p).unlink p.sta p.ac else σ.dequeueOneXmitframe p

def rtwDequeueXframe : TxSys :=
  match σ.pick with
  | none => σ
  | some p => σ.take p

def uncount (w : StaId) (ac : Ac) : TxSys :=
  (σ.putServq w ac { σ.servq w ac with qcnt := (σ.servq w ac).qcnt - 1 }).count ac (-1)

def aggregateFrames (w : StaId) (ac : Ac) (a : TxAgg) : TxSys → AggWalk → List Pkt → TxSys
  | σ, _, [] => σ
  | σ, k, f :: fs =>
    if a.fits k f then
      let σ' := (σ.putServq w ac { σ.servq w ac with staPending := fs }).uncount w ac
      match a.next k f with
      | some k' => aggregateFrames w ac a σ' k' fs
      | none => σ'
    else σ

-- what rtl8188fu_xmitframe_complete does after its first frame, one of station w and this priority;
-- the stations served take turns
def xmitframeComplete (w : StaId) (priority : ℕ) (a : TxAgg) : TxSys :=
  let ac := Ac.ofPriority priority
  let singleStaInQueue := decide ((σ.staQueue ac).length ≤ 1)
  let σ' := aggregateFrames w ac a σ a.start (σ.pending w ac)
  if σ'.pending w ac = [] then σ'.unlink w ac
  else if singleStaInQueue then σ'
  else ((σ'.unlink w ac).link w ac).strand w ac false

-- the sleep queue takes every frame of an associated station and none of another, so the frames
-- before the one at hand are all gone or all still there
def dequeueXmitframesToSleepingQueue (w : StaId) (ac : Ac) : TxSys → List Pkt → TxSys
  | σ, [] => σ
  | σ, f :: fs =>
    if σ.asoc w then
      dequeueXmitframesToSleepingQueue w ac
        ((σ.putServq w ac { σ.servq w ac with staPending := fs }).uncount w f.ac) fs
    else dequeueXmitframesToSleepingQueue w ac σ fs

def sleepServq (w : StaId) (ac : Ac) : TxSys :=
  let σ' := dequeueXmitframesToSleepingQueue w ac σ (σ.pending w ac)
  (σ'.unlink w ac).strand w ac (decide (σ'.pending w ac ≠ []))

def sleepServqs (w : StaId) : TxSys :=
  (((σ.sleepServq w .vo).sleepServq w .vi).sleepServq w .be).sleepServq w .bk

def stopStaXmit (k : ℕ) : TxSys := (σ.sleepServqs (some k)).sleepServqs none

def freeServq (w : StaId) (ac : Ac) : TxSys :=
  (((σ.unlink w ac).count ac (-(σ.servq w ac).qcnt)).putServq w ac .empty).strand w ac false

def setAsoc (k : ℕ) (b : Bool) : TxSys := { σ with asoc := Function.update σ.asoc (some k) b }

def rtwFreeStainfo (k : ℕ) : TxSys :=
  ((((σ.setAsoc k false).freeServq (some k) .vo).freeServq (some k) .vi).freeServq (some k)
    .be).freeServq (some k) .bk

def wmmOnAssocRsp (slotTime aSifsTime : UInt8) (params : List AcParam) : TxSys :=
  { σ with seq := σ.seq.onAssocRsp (edcaOf slotTime aSifsTime params) }

def rtwSetHwWmmParam (slotTime aSifsTime : UInt8) : TxSys :=
  σ.wmmOnAssocRsp slotTime aSifsTime apParams

end TxSys

inductive TxEvent where
  | associate (k : ℕ)
  | disassociate (k : ℕ)
  | free (k : ℕ)
  | classify (w : StaId) (p : Pkt)
  | dequeue
  | complete (w : StaId) (priority : ℕ) (a : TxAgg)
  | stop (k : ℕ)
  | wmm (slotTime aSifsTime : UInt8) (params : List AcParam)
  | apWmm (slotTime aSifsTime : UInt8)

def TxSys.step (σ : TxSys) : TxEvent → TxSys
  | .associate k => σ.setAsoc k true
  | .disassociate k => σ.setAsoc k false
  | .free k => σ.rtwFreeStainfo k
  | .classify w p => σ.rtwXmitClassifier w p
  | .dequeue => σ.rtwDequeueXframe
  | .complete w priority a => σ.xmitframeComplete w priority a
  | .stop k => σ.stopStaXmit k
  | .wmm slotTime aSifsTime params => σ.wmmOnAssocRsp slotTime aSifsTime params
  | .apWmm slotTime aSifsTime => σ.rtwSetHwWmmParam slotTime aSifsTime

namespace TxSys

variable {σ τ : TxSys} {w : StaId} {ac : Ac}

structure SlotOk (σ : TxSys) (w : StaId) (ac : Ac) : Prop where
  count : (σ.servq w ac).qcnt = (σ.pending w ac).length
  placed : ∀ p ∈ σ.pending w ac, p.ac = ac
  linked : w ∈ σ.staQueue ac → σ.pending w ac ≠ []
  waiting : σ.pending w ac ≠ [] → w ∈ σ.staQueue ac ∨ σ.stranded w ac = true

def Totals (σ : TxSys) (ac : Ac) : Prop :=
  ∃ s : Finset StaId, (∀ w ∉ s, (σ.servq w ac).qcnt = 0) ∧
    σ.accnt ac = ∑ w ∈ s, (σ.servq w ac).qcnt

structure Inv (σ : TxSys) : Prop where
  slot : ∀ w ac, σ.SlotOk w ac
  nodup : ∀ ac, (σ.staQueue ac).Nodup
  total : ∀ ac, σ.Totals ac

-- what an operation on one queue of one station leaves alone
structure Moves (w : StaId) (ac : Ac) (σ τ : TxSys) : Prop where
  servq : ∀ v b, ¬ (v = w ∧ b = ac) → τ.servq v b = σ.servq v b
  stranded : ∀ v b, ¬ (v = w ∧ b = ac) → τ.stranded v b = σ.stranded v b
  queue : ∀ b, b ≠ ac → τ.staQueue b = σ.staQueue b
  linked : ∀ v, v ≠ w → (v ∈ τ.staQueue ac ↔ v ∈ σ.staQueue ac)
  nodup : (σ.staQueue ac).Nodup → (τ.staQueue ac).Nodup
  accnt : ∀ b, b ≠ ac → τ.accnt b = σ.accnt b
  total : τ.accnt ac - σ.accnt ac = (τ.servq w ac).qcnt - (σ.servq w ac).qcnt

theorem Moves.mem_iff (h : Moves w ac σ τ) {v : StaId} {b : Ac} (hne : ¬ (v = w ∧ b = ac)) :
    v ∈ τ.staQueue b ↔ v ∈ σ.staQueue b := by
  cases Decidable.eq_or_ne b ac with
  | inl hb =>
    subst hb
    exact h.linked v fun hv => hne ⟨hv, rfl⟩
  | inr hb => rw [h.queue b hb]

theorem Moves.slot (h : Moves w ac σ τ) {v : StaId} {b : Ac} (hne : ¬ (v = w ∧ b = ac))
    (hs : σ.SlotOk v b) : τ.SlotOk v b := by
  have hpending : τ.pending v b = σ.pending v b := by rw [pending, pending, h.servq v b hne]
  constructor
  · rw [h.servq v b hne, hpending]
    exact hs.count
  · rw [hpending]
    exact hs.placed
  · rw [hpending, h.mem_iff hne]
    exact hs.linked
  · rw [hpending, h.mem_iff hne, h.stranded v b hne]
    exact hs.waiting

theorem Moves.totals (h : Moves w ac σ τ) {b : Ac} (hs : σ.Totals b) : τ.Totals b := by
  obtain ⟨s, hzero, hsum⟩ := hs
  cases Decidable.eq_or_ne b ac with
  | inr hb =>
    have hsame (v : StaId) : τ.servq v b = σ.servq v b := h.servq v b fun hvb => hb hvb.2
    refine ⟨s, fun v hv => ?_, ?_⟩
    · rw [hsame, hzero v hv]
    · rw [h.accnt b hb, hsum]
      exact Finset.sum_congr rfl fun v _ => by rw [hsame]
  | inl hb =>
    subst hb
    have hsame (v : StaId) (hv : v ≠ w) : τ.servq v b = σ.servq v b :=
      h.servq v b fun hvb => hv hvb.1
    have hsum' : σ.accnt b = ∑ v ∈ insert w s, (σ.servq v b).qcnt := by
      rw [hsum]
      exact Finset.sum_subset (Finset.subset_insert w s) fun v _ hv => hzero v hv
    refine ⟨insert w s, fun v hv => ?_, ?_⟩
    · obtain ⟨hvw, hvs⟩ := not_or.mp (mt Finset.mem_insert.mpr hv)
      rw [hsame v hvw, hzero v hvs]
    · have hw : w ∈ insert w s := Finset.mem_insert_self w s
      have herase : ∑ v ∈ (insert w s).erase w, (τ.servq v b).qcnt =
          ∑ v ∈ (insert w s).erase w, (σ.servq v b).qcnt :=
        Finset.sum_congr rfl fun v hv => by rw [hsame v (Finset.ne_of_mem_erase hv)]
      have hτ := Finset.add_sum_erase _ (fun v => (τ.servq v b).qcnt) hw
      have hσ := Finset.add_sum_erase _ (fun v => (σ.servq v b).qcnt) hw
      have htotal := h.total
      omega

theorem Inv.moves (h : Inv σ) (hm : Moves w ac σ τ) (hslot : τ.SlotOk w ac) : Inv τ := by
  constructor
  · intro v b
    cases Decidable.em (v = w ∧ b = ac) with
    | inl heq => exact heq.1 ▸ heq.2 ▸ hslot
    | inr hne => exact hm.slot hne (h.slot v b)
  · intro b
    cases Decidable.eq_or_ne b ac with
    | inl hb => exact hb ▸ hm.nodup (h.nodup ac)
    | inr hb =>
      rw [hm.queue b hb]
      exact h.nodup b
  · exact fun b => hm.totals (h.total b)

def setSlot (σ : TxSys) (w : StaId) (ac : Ac) (q : TxServq) (l : List StaId) (n : ℤ) (b : Bool) :
    TxSys :=
  { ((σ.putServq w ac q).count ac n).strand w ac b with
    staQueue := Function.update σ.staQueue ac l }

section SetSlot

variable {q : TxServq} {l : List StaId} {n : ℤ} {b : Bool}

@[simp] theorem setSlot_servq : (σ.setSlot w ac q l n b).servq w ac = q := by
  simp [setSlot, putServq, count, strand]

@[simp] theorem setSlot_pending : (σ.setSlot w ac q l n b).pending w ac = q.staPending := by
  rw [pending, setSlot_servq]

@[simp] theorem setSlot_staQueue : (σ.setSlot w ac q l n b).staQueue ac = l := by
  simp [setSlot]

@[simp] theorem setSlot_stranded : (σ.setSlot w ac q l n b).stranded w ac = b := by
  simp [setSlot, strand]

theorem update_slot_of_ne {α : Type} (f : StaId → Ac → α) {v : StaId} {a : Ac} (x : α)
    (hne : ¬ (v = w ∧ a = ac)) : Function.update f w (Function.update (f w) ac x) v a = f v a := by
  cases Decidable.eq_or_ne v w with
  | inr hv => rw [Function.update_of_ne hv]
  | inl hv =>
    subst hv
    rw [Function.update_self, Function.update_of_ne fun ha => hne ⟨rfl, ha⟩]

theorem moves_setSlot (hl : ∀ v, v ≠ w → (v ∈ l ↔ v ∈ σ.staQueue ac)) (hnodup : l.Nodup)
    (hn : n = q.qcnt - (σ.servq w ac).qcnt) : Moves w ac σ (σ.setSlot w ac q l n b) := by
  constructor
  · exact fun v a hne => update_slot_of_ne σ.servq q hne
  · exact fun v a hne => update_slot_of_ne σ.stranded b hne
  · exact fun a ha => Function.update_of_ne ha ..
  · simpa using hl
  · simpa using fun _ => hnodup
  · exact fun a ha => Function.update_of_ne ha ..
  · simp [setSlot, count, strand, putServq, hn]

theorem Inv.setSlot (h : Inv σ) (hl : ∀ v, v ≠ w → (v ∈ l ↔ v ∈ σ.staQueue ac)) (hnodup : l.Nodup)
    (hn : n = q.qcnt - (σ.servq w ac).qcnt) (hcount : q.qcnt = q.staPending.length)
    (hplaced : ∀ p ∈ q.staPending, p.ac = ac) (hlinked : w ∈ l → q.staPending ≠ [])
    (hwaiting : q.staPending ≠ [] → w ∈ l ∨ b = true) : Inv (σ.setSlot w ac q l n b) := by
  refine h.moves (moves_setSlot hl hnodup hn) ⟨?_, ?_, ?_, ?_⟩
  · simpa using hcount
  · simpa using hplaced
  · simpa using hlinked
  · simpa using hwaiting

end SetSlot

theorem mem_unlinked {l : List StaId} {v : StaId} (hv : v ≠ w) : v ∈ l.filter (· ≠ w) ↔ v ∈ l := by
  simp [hv]

theorem rtwXmitClassifier_eq (σ : TxSys) {w : StaId} (p : Pkt) (hasoc : σ.asoc w = true) :
    σ.rtwXmitClassifier w p =
      σ.setSlot w p.ac ⟨σ.pending w p.ac ++ [p], (σ.servq w p.ac).qcnt + 1⟩
        (if w ∈ σ.staQueue p.ac then σ.staQueue p.ac else σ.staQueue p.ac ++ [w]) 1 false := by
  rw [rtwXmitClassifier, if_pos hasoc, link]
  split
  · simp [setSlot, putServq, count, strand, pending]
  · rfl

theorem Inv.classify (h : Inv σ) (w : StaId) (p : Pkt) : Inv (σ.rtwXmitClassifier w p) := by
  cases hasoc : σ.asoc w with
  | false =>
    rw [rtwXmitClassifier, hasoc]
    exact h
  | true =>
    have hslot := h.slot w p.ac
    rw [rtwXmitClassifier_eq σ p hasoc]
    refine h.setSlot (fun v hv => ?_) ?_ ?_ ?_ ?_ ?_ ?_
    · split
      · rfl
      · simp [hv]
    · split
      · exact h.nodup p.ac
      · rename_i hmem
        rw [← List.concat_eq_append]
        exact (h.nodup p.ac).concat hmem
    · simp
    · simp [hslot.count]
    · exact List.forall_mem_append.mpr ⟨hslot.placed, List.forall_mem_singleton.mpr rfl⟩
    · simp
    · refine fun _ => .inl ?_
      split
      · assumption
      · simp

theorem Inv.freeServq (h : Inv σ) (w : StaId) (ac : Ac) : Inv (σ.freeServq w ac) := by
  have heq : σ.freeServq w ac = σ.setSlot w ac .empty ((σ.staQueue ac).filter (· ≠ w))
      (-(σ.servq w ac).qcnt) false := rfl
  rw [heq]
  refine h.setSlot (fun v hv => mem_unlinked hv) ((h.nodup ac).filter _) ?_ rfl nofun ?_ ?_
  · simp [TxServq.empty]
  · simp
  · simp [TxServq.empty]

theorem pickSta_none {l : List StaId} (h : σ.pickSta ac l = none) : ∀ v ∈ l, σ.pending v ac = [] := by
  induction l with
  | nil => exact nofun
  | cons v l ih =>
    rw [pickSta] at h
    split at h
    · rename_i hv
      exact List.forall_mem_cons.mpr ⟨hv, ih h⟩
    · cases h

theorem pickSta_some (hlinked : ∀ v ∈ σ.staQueue ac, σ.pending v ac ≠ []) {p : Pick}
    (h : σ.pickSta ac (σ.staQueue ac) = some p) :
    p.ac = ac ∧ (σ.staQueue ac).head? = some p.sta ∧ σ.pending p.sta ac = p.frame :: p.rest := by
  cases hqueue : σ.staQueue ac with
  | nil =>
    rw [hqueue] at h
    cases h
  | cons v l =>
    rw [hqueue, pickSta] at h
    split at h
    · rename_i hv
      exact absurd hv (hlinked v (hqueue ▸ List.mem_cons_self))
    · rename_i hv
      cases h
      exact ⟨rfl, rfl, hv⟩

theorem pickAc_none {acs : List Ac} (h : σ.pickAc acs = none) :
    ∀ b ∈ acs, σ.pickSta b (σ.staQueue b) = none := by
  induction acs with
  | nil => exact nofun
  | cons b acs ih =>
    rw [pickAc] at h
    split at h
    · cases h
    · rename_i hb
      exact List.forall_mem_cons.mpr ⟨hb, ih h⟩

-- the category picked is not behind one that has a frame linked
theorem pickAc_some {better : Ac → Ac → Prop} (hself : ∀ b, ¬ better b b) {acs : List Ac}
    (hsorted : acs.Pairwise fun a b => ¬ better b a) {p : Pick} (h : σ.pickAc acs = some p) :
    ∃ ac ∈ acs, σ.pickSta ac (σ.staQueue ac) = some p ∧
      ∀ b ∈ acs, σ.pickSta b (σ.staQueue b) ≠ none → ¬ better b ac := by
  induction acs with
  | nil => cases h
  | cons b acs ih =>
    obtain ⟨hfirst, hrest⟩ := List.pairwise_cons.mp hsorted
    rw [pickAc] at h
    split at h
    · rename_i q hb
      cases h
      exact ⟨b, List.mem_cons_self, hb, List.forall_mem_cons.mpr
        ⟨fun _ => hself b, fun c hc _ => hfirst c hc⟩⟩
    · rename_i hb
      obtain ⟨ac, hac, hpick, hbest⟩ := ih hrest h
      exact ⟨ac, List.mem_cons_of_mem b hac, hpick, List.forall_mem_cons.mpr
        ⟨fun hne => absurd hb hne, hbest⟩⟩

structure Picked (σ : TxSys) (p : Pick) : Prop where
  longest : (σ.staQueue p.ac).head? = some p.sta
  first : σ.pending p.sta p.ac = p.frame :: p.rest
  best : ∀ w ac, w ∈ σ.staQueue ac → ¬ σ.seq.Prefers ac p.ac

theorem Inv.picked (h : Inv σ) {p : Pick} (hpick : σ.pick = some p) : Picked σ p := by
  have hlinked (b : Ac) : ∀ v ∈ σ.staQueue b, σ.pending v b ≠ [] := fun v => (h.slot v b).linked
  obtain ⟨ac, -, hsta, hbest⟩ :=
    pickAc_some σ.seq.not_prefers_self σ.seq.inx_sorted hpick
  obtain ⟨rfl, hhead, hpending⟩ := pickSta_some (hlinked ac) hsta
  refine ⟨hhead, hpending, fun w b hw => hbest b (σ.seq.mem_inx b) fun hnone => ?_⟩
  exact hlinked b w hw (pickSta_none hnone w hw)

theorem pick_none (hnone : σ.pick = none) (w : StaId) (ac : Ac) (hw : w ∈ σ.staQueue ac) :
    σ.pending w ac = [] :=
  pickSta_none (pickAc_none hnone ac (σ.seq.mem_inx ac)) w hw

theorem take_eq (σ : TxSys) (p : Pick) :
    σ.take p = σ.setSlot p.sta p.ac ⟨p.rest, (σ.servq p.sta p.ac).qcnt - 1⟩
      (if p.rest = [] then (σ.staQueue p.ac).filter (· ≠ p.sta) else σ.staQueue p.ac) (-1)
      (σ.stranded p.sta p.ac) := by
  rw [take]
  split
  · simp [setSlot, dequeueOneXmitframe, unlink, putServq, count, strand]
  · simp [setSlot, dequeueOneXmitframe, putServq, count, strand]

theorem Inv.dequeue (h : Inv σ) : Inv σ.rtwDequeueXframe := by
  rw [rtwDequeueXframe]
  cases hpick : σ.pick with
  | none => exact h
  | some p =>
    obtain ⟨hhead, hpending, -⟩ := h.picked hpick
    have hslot := h.slot p.sta p.ac
    have hplaced := hslot.placed
    have hcount := hslot.count
    rw [hpending] at hplaced hcount
    have hmem : p.sta ∈ σ.staQueue p.ac := List.mem_of_mem_head? (hhead ▸ rfl)
    dsimp only
    rw [take_eq]
    refine h.setSlot (fun v hv => ?_) ?_ (by simp) ?_ ?_ ?_ ?_
    · split
      · exact mem_unlinked hv
      · rfl
    · split
      · exact (h.nodup p.ac).filter _
      · exact h.nodup p.ac
    · simp only [List.length_cons] at hcount
      dsimp only
      omega
    · exact fun f hf => hplaced f (List.mem_cons_of_mem _ hf)
    · split
      · simp
      · rename_i hrest
        exact fun _ => hrest
    · intro hrest
      rw [if_neg hrest]
      exact .inl hmem

-- the walk takes the first n frames off the queue and counts each of them
theorem aggregateFrames_eq (a : TxAgg) {l : List Pkt} (hl : σ.pending w ac = l) (k : AggWalk) :
    ∃ n ≤ l.length, aggregateFrames w ac a σ k l =
      (σ.putServq w ac ⟨l.drop n, (σ.servq w ac).qcnt - n⟩).count ac (-n) := by
  have hsame (σ : TxSys) : σ = (σ.putServq w ac
      ⟨σ.pending w ac, (σ.servq w ac).qcnt - (0 : ℕ)⟩).count ac (-(0 : ℕ)) := by
    simp [putServq, count, pending]
  induction l generalizing σ k with
  | nil => exact ⟨0, le_rfl, by rw [aggregateFrames, List.drop_zero, ← hl]; exact hsame σ⟩
  | cons f l ih =>
    rw [aggregateFrames]
    split
    · have hrest : ((σ.putServq w ac { σ.servq w ac with staPending := l }).uncount w ac).pending w
          ac = l := by
        simp [pending, uncount, putServq, count]
      cases hnext : a.next k f with
      | none =>
        refine ⟨1, by simp, ?_⟩
        simp [uncount, putServq, count]
      | some k' =>
        obtain ⟨n, hn, heq⟩ := ih hrest k'
        refine ⟨n + 1, Nat.succ_le_succ hn, heq.trans ?_⟩
        have hcast : ((n + 1 : ℕ) : ℤ) = 1 + n := by omega
        simp only [uncount, putServq, count, Function.update_self, Function.update_idem,
          List.drop_succ_cons, hcast, Int.sub_sub, Int.neg_add, Int.add_assoc]
    · exact ⟨0, Nat.zero_le _, by rw [List.drop_zero, ← hl]; exact hsame σ⟩

theorem xmitframeComplete_eq (σ : TxSys) (w : StaId) (priority : ℕ) (a : TxAgg) {ac : Ac}
    (hac : Ac.ofPriority priority = ac) :
    ∃ n ≤ (σ.pending w ac).length, σ.xmitframeComplete w priority a =
      σ.setSlot w ac ⟨(σ.pending w ac).drop n, (σ.servq w ac).qcnt - n⟩
        (if (σ.pending w ac).drop n = [] then (σ.staQueue ac).filter (· ≠ w)
          else if (σ.staQueue ac).length ≤ 1 then σ.staQueue ac
          else (σ.staQueue ac).filter (· ≠ w) ++ [w]) (-n)
        (if (σ.pending w ac).drop n = [] ∨ (σ.staQueue ac).length ≤ 1 then σ.stranded w ac
          else false) := by
  have hpend : σ.pending w ac = σ.pending w ac := rfl
  obtain ⟨n, hn, heq⟩ := aggregateFrames_eq a hpend a.start
  refine ⟨n, hn, ?_⟩
  have hpending : ((σ.putServq w ac ⟨(σ.pending w ac).drop n, (σ.servq w ac).qcnt - n⟩).count ac
      (-n)).pending w ac = (σ.pending w ac).drop n := by
    simp [pending, putServq, count]
  subst hac
  simp only [xmitframeComplete, heq, hpending, decide_eq_true_eq]
  split
  · simp [*, setSlot, unlink, putServq, count, strand]
  · split
    · simp [*, setSlot, putServq, count, strand]
    · simp [*, setSlot, unlink, link, putServq, count, strand]

theorem Inv.complete (h : Inv σ) (w : StaId) (priority : ℕ) (a : TxAgg) :
    Inv (σ.xmitframeComplete w priority a) := by
  obtain ⟨n, hn, heq⟩ := σ.xmitframeComplete_eq w priority a rfl
  have hslot := h.slot w (.ofPriority priority)
  have hnodup := h.nodup (.ofPriority priority)
  rw [heq]
  refine h.setSlot (fun v hv => ?_) ?_ ?_ ?_ ?_ ?_ ?_
  · split
    · exact mem_unlinked hv
    · split
      · rfl
      · rw [List.mem_append, mem_unlinked hv]
        simp [hv]
  · split
    · exact hnodup.filter _
    · split
      · exact hnodup
      · rw [← List.concat_eq_append]
        exact (hnodup.filter _).concat (by simp)
  · dsimp only
    omega
  · dsimp only
    rw [hslot.count, List.length_drop]
    omega
  · exact fun p hp => hslot.placed p (List.mem_of_mem_drop hp)
  · split
    · simp
    · rename_i hrest
      exact fun _ => hrest
  · intro hrest
    have hpending : σ.pending w (.ofPriority priority) ≠ [] := by
      rintro hnil
      exact hrest (by rw [hnil, List.drop_nil])
    rw [if_neg hrest]
    split
    · rename_i hsingle
      rw [if_pos (.inr hsingle)]
      exact hslot.waiting hpending
    · exact .inl (by simp)

theorem dequeueToSleep_refused {l : List Pkt} (hasoc : σ.asoc w = false) :
    dequeueXmitframesToSleepingQueue w ac σ l = σ := by
  induction l with
  | nil => rfl
  | cons f l ih => rw [dequeueXmitframesToSleepingQueue, if_neg (by simp [hasoc]), ih]

theorem dequeueToSleep_taken {l : List Pkt} (hasoc : σ.asoc w = true) (hl : σ.pending w ac = l)
    (hplaced : ∀ f ∈ l, f.ac = ac) :
    dequeueXmitframesToSleepingQueue w ac σ l =
      (σ.putServq w ac ⟨[], (σ.servq w ac).qcnt - l.length⟩).count ac (-l.length) := by
  induction l generalizing σ with
  | nil =>
    have hsame : (⟨[], (σ.servq w ac).qcnt⟩ : TxServq) = σ.servq w ac := by rw [← hl, pending]
    simp [dequeueXmitframesToSleepingQueue, putServq, count, hsame]
  | cons f l ih =>
    obtain ⟨hf, hrest⟩ := List.forall_mem_cons.mp hplaced
    rw [dequeueXmitframesToSleepingQueue, if_pos hasoc, hf]
    refine (ih ?_ ?_ hrest).trans ?_
    · exact hasoc
    · simp [pending, uncount, putServq, count]
    · have hlen : ((f :: l).length : ℤ) = 1 + l.length := by
        rw [List.length_cons]
        omega
      simp only [uncount, putServq, count, Function.update_self, Function.update_idem, hlen,
        Int.sub_sub, Int.neg_add, Int.add_assoc]

theorem sleepServq_taken (h : Inv σ) (hasoc : σ.asoc w = true) :
    σ.sleepServq w ac = σ.setSlot w ac ⟨[], (σ.servq w ac).qcnt - (σ.pending w ac).length⟩
      ((σ.staQueue ac).filter (· ≠ w)) (-(σ.pending w ac).length) false := by
  rw [sleepServq, dequeueToSleep_taken hasoc rfl (h.slot w ac).placed]
  simp [setSlot, unlink, putServq, count, strand, pending]

theorem sleepServq_refused (hasoc : σ.asoc w = false) :
    σ.sleepServq w ac = σ.setSlot w ac (σ.servq w ac) ((σ.staQueue ac).filter (· ≠ w)) 0
      (decide (σ.pending w ac ≠ [])) := by
  rw [sleepServq, dequeueToSleep_refused hasoc]
  simp [setSlot, unlink, putServq, count, strand]

theorem Inv.sleepServq (h : Inv σ) (w : StaId) (ac : Ac) : Inv (σ.sleepServq w ac) := by
  have hslot := h.slot w ac
  have hgone : w ∉ (σ.staQueue ac).filter (· ≠ w) := by simp
  cases hasoc : σ.asoc w with
  | true =>
    rw [sleepServq_taken h hasoc]
    refine h.setSlot (fun v hv => mem_unlinked hv) ((h.nodup ac).filter _) ?_ ?_ nofun ?_ ?_
    · dsimp only
      omega
    · simp [hslot.count]
    · exact fun hw => absurd hw hgone
    · exact fun hne => absurd rfl hne
  | false =>
    rw [sleepServq_refused hasoc]
    refine h.setSlot (fun v hv => mem_unlinked hv) ((h.nodup ac).filter _) ?_ hslot.count
      hslot.placed (fun hw => absurd hw hgone) fun hne => .inr (decide_eq_true hne)
    omega

theorem Inv.sleepServqs (h : Inv σ) (w : StaId) : Inv (σ.sleepServqs w) :=
  (((h.sleepServq w .vo).sleepServq w .vi).sleepServq w .be).sleepServq w .bk

-- only the queues, links, counts and marks are tracked
theorem Inv.congr (h : Inv σ) (hservq : τ.servq = σ.servq) (hqueue : τ.staQueue = σ.staQueue)
    (haccnt : τ.accnt = σ.accnt) (hstranded : τ.stranded = σ.stranded) : Inv τ := by
  constructor
  · intro w ac
    obtain ⟨hcount, hplaced, hlinked, hwaiting⟩ := h.slot w ac
    constructor
    · rwa [pending, hservq]
    · rwa [pending, hservq]
    · rwa [pending, hservq, hqueue]
    · rwa [pending, hservq, hqueue, hstranded]
  · rw [hqueue]
    exact h.nodup
  · intro ac
    rw [Totals, hservq, haccnt]
    exact h.total ac

theorem Inv.step (h : Inv σ) (e : TxEvent) : Inv (σ.step e) := by
  cases e with
  | associate k => exact h.congr rfl rfl rfl rfl
  | disassociate k => exact h.congr rfl rfl rfl rfl
  | free k =>
    have hasoc : Inv (σ.setAsoc k false) := h.congr rfl rfl rfl rfl
    exact (((hasoc.freeServq (some k) .vo).freeServq (some k) .vi).freeServq (some k) .be).freeServq
      (some k) .bk
  | classify w p => exact h.classify w p
  | dequeue => exact h.dequeue
  | complete w priority a => exact h.complete w priority a
  | stop k => exact (h.sleepServqs (some k)).sleepServqs none
  | wmm slotTime aSifsTime params => exact h.congr rfl rfl rfl rfl
  | apWmm slotTime aSifsTime => exact h.congr rfl rfl rfl rfl

theorem inv_init (wifiSpec : Bool) : Inv (init wifiSpec) := by
  constructor
  · exact fun w ac => ⟨rfl, nofun, nofun, fun hne => absurd rfl hne⟩
  · exact fun ac => .nil
  · exact fun ac => ⟨∅, fun _ _ => rfl, rfl⟩

structure Calm (σ : TxSys) : Prop where
  broadcast : σ.asoc none = true
  calm : ∀ w ac, σ.stranded w ac = false

theorem Calm.setSlot (h : Calm σ) {q : TxServq} {l : List StaId} {n : ℤ} :
    Calm (σ.setSlot w ac q l n false) := by
  refine ⟨h.broadcast, fun v b => ?_⟩
  cases Decidable.em (v = w ∧ b = ac) with
  | inl heq => rw [heq.1, heq.2, setSlot_stranded]
  | inr hne => exact (update_slot_of_ne σ.stranded false hne).trans (h.calm v b)

theorem Calm.congr (h : Calm σ) (hasoc : τ.asoc none = σ.asoc none)
    (hstranded : τ.stranded = σ.stranded) : Calm τ :=
  ⟨hasoc.trans h.broadcast, fun w ac => by rw [hstranded, h.calm w ac]⟩

theorem Calm.setAsoc (h : Calm σ) (k : ℕ) (b : Bool) : Calm (σ.setAsoc k b) := by
  have hasoc : (σ.setAsoc k b).asoc none = σ.asoc none := by simp [TxSys.setAsoc]
  exact h.congr hasoc rfl

theorem Calm.freeServq (h : Calm σ) (w : StaId) (ac : Ac) : Calm (σ.freeServq w ac) :=
  h.setSlot

theorem Calm.classify (h : Calm σ) (w : StaId) (p : Pkt) : Calm (σ.rtwXmitClassifier w p) := by
  cases hasoc : σ.asoc w with
  | false =>
    rw [rtwXmitClassifier, hasoc]
    exact h
  | true =>
    rw [rtwXmitClassifier_eq σ p hasoc]
    exact h.setSlot

theorem Calm.dequeue (h : Calm σ) : Calm σ.rtwDequeueXframe := by
  rw [rtwDequeueXframe]
  cases σ.pick with
  | none => exact h
  | some p =>
    dsimp only
    rw [take_eq, h.calm]
    exact h.setSlot

-- the broadcast station is always associated, the other one by assumption
structure Settles (w : StaId) (τ : TxSys) : Prop where
  inv : Inv τ
  calm : Calm τ
  asoc : τ.asoc w = true

theorem settles_sleepServq (hinv : Inv σ) (h : Calm σ) (hasoc : σ.asoc w = true) (ac : Ac) :
    Settles w (σ.sleepServq w ac) := by
  refine ⟨hinv.sleepServq w ac, ?_, ?_⟩
  · rw [sleepServq_taken hinv hasoc]
    exact h.setSlot
  · rw [sleepServq_taken hinv hasoc]
    exact hasoc

theorem settles_sleepServqs (hinv : Inv σ) (h : Calm σ) (hasoc : σ.asoc w = true) :
    Settles w (σ.sleepServqs w) := by
  have hvo := settles_sleepServq hinv h hasoc .vo
  have hvi := settles_sleepServq hvo.inv hvo.calm hvo.asoc .vi
  have hbe := settles_sleepServq hvi.inv hvi.calm hvi.asoc .be
  have hbk := settles_sleepServq hbe.inv hbe.calm hbe.asoc .bk
  exact ⟨hbk.inv, hbk.calm, hbk.asoc⟩

def Attended (σ : TxSys) : TxEvent → Prop
  | .stop k => σ.asoc (some k) = true
  | _ => True

theorem Calm.step (hinv : Inv σ) (h : Calm σ) {e : TxEvent} (he : σ.Attended e) :
    Calm (σ.step e) := by
  cases e with
  | associate k => exact h.setAsoc k true
  | disassociate k => exact h.setAsoc k false
  | free k =>
    exact ((((h.setAsoc k false).freeServq (some k) .vo).freeServq (some k) .vi).freeServq (some k)
      .be).freeServq (some k) .bk
  | classify w p => exact h.classify w p
  | dequeue => exact h.dequeue
  | complete w priority a =>
    obtain ⟨n, -, heq⟩ := σ.xmitframeComplete_eq w priority a rfl
    unfold TxSys.step
    dsimp only
    rw [heq, h.calm, ite_self]
    exact h.setSlot
  | stop k =>
    have hsta := settles_sleepServqs hinv h he
    exact (settles_sleepServqs hsta.inv hsta.calm hsta.calm.broadcast).calm
  | wmm slotTime aSifsTime params => exact h.congr rfl rfl
  | apWmm slotTime aSifsTime => exact h.congr rfl rfl

theorem calm_init (wifiSpec : Bool) : Calm (init wifiSpec) :=
  ⟨rfl, fun _ _ => rfl⟩

theorem inv_run (wifiSpec : Bool) (es : List TxEvent) : Inv (Run.exec step (init wifiSpec) es) :=
  Run.exec_invariant step Inv (fun _ e h => h.step e) (inv_init wifiSpec) es

theorem calm_run {wifiSpec : Bool} {es : List TxEvent}
    (hes : Run.Each step Attended (init wifiSpec) es) : Calm (Run.exec step (init wifiSpec) es) :=
  (Run.each_invariant step Attended (fun σ => Inv σ ∧ Calm σ)
    (fun _ e h he => ⟨h.1.step e, h.2.step h.1 he⟩)
    ⟨inv_init wifiSpec, calm_init wifiSpec⟩ hes).2

-- what one aggregation takes: the oldest frames of one station, which then goes behind the others
structure Aggregated (σ τ : TxSys) (w : StaId) (ac : Ac) : Prop where
  taken : ∃ out, σ.pending w ac = out ++ τ.pending w ac
  behind : τ.pending w ac ≠ [] → 1 < (σ.staQueue ac).length → (τ.staQueue ac).getLast? = some w
  others : ∀ v b, ¬ (v = w ∧ b = ac) → τ.pending v b = σ.pending v b

theorem aggregated (σ : TxSys) (w : StaId) (priority : ℕ) (a : TxAgg) :
    Aggregated σ (σ.xmitframeComplete w priority a) w (.ofPriority priority) := by
  obtain ⟨n, -, heq⟩ := σ.xmitframeComplete_eq w priority a rfl
  rw [heq]
  constructor
  · exact ⟨(σ.pending w (.ofPriority priority)).take n, by simp⟩
  · rw [setSlot_pending, setSlot_staQueue]
    intro hrest hmany
    rw [if_neg hrest, if_neg (Nat.not_le.mpr hmany), List.getLast?_append]
    rfl
  · intro v b hne
    rw [pending, pending]
    exact congrArg TxServq.staPending (update_slot_of_ne σ.servq _ hne)

theorem serves_in_order (wifiSpec : Bool) (es : List TxEvent) :
    let σ := Run.exec step (init wifiSpec) es
    (∀ w ac, (σ.servq w ac).qcnt = (σ.pending w ac).length) ∧ (∀ ac, σ.Totals ac) ∧
      (Run.Each step Attended (init wifiSpec) es → ∀ w ac, σ.stranded w ac = false) ∧
      (∀ w priority a,
        Aggregated σ (σ.xmitframeComplete w priority a) w (.ofPriority priority)) ∧
      match σ.pick with
      | none => ∀ w ac, σ.pending w ac ≠ [] → σ.stranded w ac = true
      | some p => Picked σ p ∧
        ∀ w ac, σ.pending w ac ≠ [] → σ.stranded w ac = true ∨ ¬ σ.seq.Prefers ac p.ac := by
  intro σ
  have h : Inv σ := inv_run wifiSpec es
  refine ⟨fun w ac => (h.slot w ac).count, h.total, fun hes => (calm_run hes).calm,
    σ.aggregated, ?_⟩
  split
  · rename_i hnone
    intro w ac hne
    exact ((h.slot w ac).waiting hne).resolve_left fun hw => hne (pick_none hnone w ac hw)
  · rename_i p hpick
    have hp := h.picked hpick
    refine ⟨hp, fun w ac hne => ?_⟩
    exact ((h.slot w ac).waiting hne).symm.imp_right (hp.best w ac)

end TxSys

end Xmit.Sched
