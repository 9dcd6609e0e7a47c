import Mathlib.Data.Finset.Basic
import Mathlib.Logic.Function.Basic
import Rtl8188fu.Ap.AssocParse
import Rtl8188fu.Lib.Run

namespace Ap.Ps

inductive Ac where
  | vo
  | vi
  | be
  | bk
deriving DecidableEq

def Ac.ofPriority : ℕ → Ac
  | 1 | 2 => .bk
  | 4 | 5 => .vi
  | 6 | 7 => .vo
  | _ => .be

structure Pkt where
  id : ℕ
  priority : ℕ
deriving DecidableEq

def Pkt.ac (p : Pkt) : Ac := .ofPriority p.priority

structure TxFrame where
  pkt : Pkt
  triggered : Bool
  mdata : Bool
  eosp : Bool
deriving DecidableEq

def TxFrame.ac (f : TxFrame) : Ac := f.pkt.ac

def Pkt.frame (p : Pkt) : TxFrame := ⟨p, false, false, false⟩

structure TxServq where
  staPending : List TxFrame
  qcnt : ℤ
deriving DecidableEq

def TxServq.empty : TxServq := ⟨[], 0⟩

-- bit 0 makes an access category delivery enabled, bit 1 trigger enabled
structure Wmm where
  qosOption : Bool
  qosInfo : UInt8
  hasLegacyAc : Bool
  uapsd : Ac → ℕ
  paired : ∀ ac, (uapsd ac).testBit 0 = (uapsd ac).testBit 1

namespace Wmm

variable (m : Wmm)

def delivery (ac : Ac) : Bool := (m.uapsd ac).testBit 0

def trigger (ac : Ac) : Bool := (m.uapsd ac).testBit 1

def zero : Wmm := ⟨false, 0, false, fun _ => 0, fun _ => rfl⟩

def acBit : Ac → UInt8
  | .vo => 1
  | .vi => 2
  | .bk => 4
  | .be => 8

-- what rtw_ap_parse_sta_wmm_ie stores; none is a request without the element
def ofInfo : Option UInt8 → Wmm
  | none => ⟨false, 0, true, fun _ => 0, fun _ => rfl⟩
  | some qosInfo =>
    ⟨true, qosInfo, qosInfo &&& 0x0f != 0x0f, fun ac => uapsdOf qosInfo (acBit ac), fun ac => by
      unfold uapsdOf
      split <;> rfl⟩

end Wmm

-- sent, given, lost, leaked and stale are ghosts: the frames the station was sent, those handed to
-- the hardware, those freed unsent, how many delivery-enabled frames left on a PS-Poll, and whether
-- the station associated again while frames were buffered for it
structure PsSta where
  asoc : Bool
  sleep : Bool
  aid : ℕ
  wmm : Wmm
  sleepQ : List TxFrame
  sleepqLen : ℤ
  sleepqAcLen : ℤ
  mgmtSleepQ : List TxFrame
  mgmtSleepqLen : ℤ
  servq : Ac → TxServq
  mgmtQ : TxServq
  sent : List Pkt
  given : List Pkt
  lost : List Pkt
  leaked : ℕ
  stale : Bool

namespace PsSta

variable (s : PsSta)

def fresh (sent given lost : List Pkt) : PsSta where
  asoc := false
  sleep := false
  aid := 0
  wmm := .zero
  sleepQ := []
  sleepqLen := 0
  sleepqAcLen := 0
  mgmtSleepQ := []
  mgmtSleepqLen := 0
  servq := fun _ => .empty
  mgmtQ := .empty
  sent := sent
  given := given
  lost := lost
  leaked := 0
  stale := false

def setServq (ac : Ac) (q : TxServq) : PsSta := { s with servq := Function.update s.servq ac q }

def setPending (ac : Ac) (l : List TxFrame) : PsSta :=
  s.setServq ac { s.servq ac with staPending := l }

def uncount (ac : Ac) : PsSta :=
  s.setServq ac { s.servq ac with qcnt := (s.servq ac).qcnt - 1 }

def rtwXmitClassifier (f : TxFrame) : Option PsSta :=
  if s.asoc then
    some (s.setServq f.ac
      { staPending := (s.servq f.ac).staPending ++ [f]
        qcnt := (s.servq f.ac).qcnt + 1 })
  else none

-- a frame the classifier refuses is freed
def halXmitframeEnqueue (f : TxFrame) : PsSta :=
  (s.rtwXmitClassifier f).getD { s with lost := s.lost ++ [f.pkt] }

def halMgmtXmitframeEnqueue (f : TxFrame) : PsSta :=
  if s.asoc then
    { s with mgmtQ := { staPending := s.mgmtQ.staPending ++ [f], qcnt := s.mgmtQ.qcnt + 1 } }
  else s

-- the lengths are unsigned, so the source's len > 0 is len ≠ 0
def releaseMgmt (f : TxFrame) (rest : List TxFrame) : PsSta :=
  { s with mgmtSleepQ := rest, mgmtSleepqLen := s.mgmtSleepqLen - 1 }.halMgmtXmitframeEnqueue
    { f with mdata := decide (s.mgmtSleepqLen - 1 ≠ 0), triggered := true }

def releaseAs (rest : List TxFrame) (acLen : ℤ) (f : TxFrame) : PsSta :=
  { s with sleepQ := rest, sleepqLen := s.sleepqLen - 1, sleepqAcLen := acLen }.halXmitframeEnqueue f

def release (f : TxFrame) (rest : List TxFrame) : PsSta :=
  s.releaseAs rest s.sleepqAcLen
    { f with mdata := decide (s.sleepqLen - 1 ≠ 0), triggered := true }

def releaseAc (f : TxFrame) (rest : List TxFrame) : PsSta :=
  s.releaseAs rest (s.sleepqAcLen - 1)
    { f with
      mdata := decide (s.sleepqAcLen - 1 ≠ 0)
      eosp := decide (s.sleepqAcLen - 1 = 0)
      triggered := true }

def wakeMgmt (s : PsSta) : List TxFrame → PsSta
  | [] => s
  | f :: fs => wakeMgmt (s.releaseMgmt f fs) fs

def wakeData (s : PsSta) : List TxFrame → PsSta
  | [] => s
  | f :: fs =>
    if s.wmm.trigger f.ac then wakeData (s.releaseAc f fs) fs else wakeData (s.release f fs) fs

def flushBmc (s : PsSta) : List TxFrame → PsSta
  | [] => s
  | f :: fs => flushBmc (s.release f fs) fs

def announces (f : TxFrame) : Bool :=
  (s.wmm.hasLegacyAc && !s.wmm.delivery f.ac) || (!s.wmm.hasLegacyAc && s.wmm.delivery f.ac)

def buffer (f : TxFrame) : PsSta :=
  { s with sleepQ := s.sleepQ ++ [f], sleepqLen := s.sleepqLen + 1 }

def bufferAc (f : TxFrame) : PsSta :=
  { s.buffer f with
    sleepqAcLen := if s.wmm.delivery f.ac then s.sleepqAcLen + 1 else s.sleepqAcLen }

def bufferMgmt (f : TxFrame) : PsSta :=
  { s with mgmtSleepQ := s.mgmtSleepQ ++ [f], mgmtSleepqLen := s.mgmtSleepqLen + 1 }

def pollMgmt : PsSta :=
  match s.mgmtSleepQ with
  | [] => s
  | f :: fs => s.releaseMgmt f fs

def pollData : PsSta :=
  match s.sleepQ with
  | [] => s
  | f :: fs =>
    { s.release f fs with
      leaked := if s.wmm.delivery f.ac then s.leaked + 1 else s.leaked }

-- the poll that finds both queues empty under a set TIM bit clears a stray length
def pollRepair (found : Bool) (tim : Finset ℕ) : PsSta :=
  if !found && decide (s.aid ∈ tim) then { s with sleepqLen := 0, mgmtSleepqLen := 0 } else s

def held : List Pkt :=
  (s.sleepQ ++ (s.servq .vo).staPending ++ (s.servq .vi).staPending ++
    (s.servq .be).staPending ++ (s.servq .bk).staPending).map TxFrame.pkt

end PsSta

-- none is the broadcast station
abbrev StaId := Option ℕ

inductive DequeueType where
  | uniBmcData
  | uniMgmt
  | allFrame
deriving DecidableEq

structure PsSys where
  stas : StaId → PsSta
  dz : Finset ℕ
  tim : Finset ℕ

namespace PsSys

variable (σ : PsSys)

def put (w : StaId) (s : PsSta) : PsSys := { σ with stas := Function.update σ.stas w s }

def xmitframeEnqueueForSleepingSta (w : StaId) (f : TxFrame) : Option PsSys :=
  if !(σ.stas w).asoc || f.triggered then none
  else
    match w with
    | none =>
      if σ.dz = ∅ then none
      else
        some { σ.put w ((σ.stas w).buffer f) with
          dz := insert 0 σ.dz
          tim := insert 0 σ.tim }
    | some _ =>
      if (σ.stas w).sleep && decide ((σ.stas w).aid ∈ σ.dz) then
        some { σ.put w ((σ.stas w).bufferAc f) with
          tim := if (σ.stas w).announces f then insert (σ.stas w).aid σ.tim else σ.tim }
      else none

def mgmtXmitframeEnqueueForSleepingSta (w : StaId) (f : TxFrame) : Option PsSys :=
  if (σ.stas w).asoc && (σ.stas w).sleep && decide ((σ.stas w).aid ∈ σ.dz) then
    some { σ.put w ((σ.stas w).bufferMgmt f) with tim := insert (σ.stas w).aid σ.tim }
  else none

-- the second argument is the part of the queue already walked over and left in place
def dequeueXmitframesToSleepingQueue (w : StaId) (ac : Ac) :
    PsSys → List TxFrame → List TxFrame → PsSys
  | σ, _, [] => σ
  | σ, kept, f :: fs =>
    match σ.xmitframeEnqueueForSleepingSta w { f with triggered := false } with
    | some σ' =>
      dequeueXmitframesToSleepingQueue w ac
        (σ'.put w (((σ'.stas w).setPending ac (kept ++ fs)).uncount f.ac)) kept fs
    | none =>
      let kept := kept ++ [{ f with triggered := false }]
      dequeueXmitframesToSleepingQueue w ac
        (σ.put w ((σ.stas w).setPending ac (kept ++ fs))) kept fs

def dequeueMgmtXmitframeToSleepq (w : StaId) : PsSys → List TxFrame → List TxFrame → PsSys
  | σ, _, [] => σ
  | σ, kept, f :: fs =>
    match σ.mgmtXmitframeEnqueueForSleepingSta w { f with triggered := false } with
    | some σ' =>
      let s := σ'.stas w
      dequeueMgmtXmitframeToSleepq w
        (σ'.put w { s with mgmtQ := { staPending := kept ++ fs, qcnt := s.mgmtQ.qcnt - 1 } }) kept fs
    | none =>
      let kept := kept ++ [{ f with triggered := false }]
      let s := σ.stas w
      dequeueMgmtXmitframeToSleepq w
        (σ.put w { s with mgmtQ := { s.mgmtQ with staPending := kept ++ fs } }) kept fs

def sleepServq (w : StaId) (ac : Ac) : PsSys :=
  dequeueXmitframesToSleepingQueue w ac σ [] ((σ.stas w).servq ac).staPending

def sleepServqs (w : StaId) : PsSys :=
  (((σ.sleepServq w .vo).sleepServq w .vi).sleepServq w .be).sleepServq w .bk

def doze (k : ℕ) : PsSys :=
  { σ.put (some k) { σ.stas (some k) with sleep := true } with
    dz := insert (σ.stas (some k)).aid σ.dz }

def sleepMgmt (w : StaId) : PsSys :=
  dequeueMgmtXmitframeToSleepq w σ [] (σ.stas w).mgmtQ.staPending

def stopStaXmit (k : ℕ) : PsSys :=
  (((σ.doze k).sleepMgmt (some k)).sleepServqs (some k)).sleepServqs none

def wakeFrames (k : ℕ) (t : DequeueType) : PsSys :=
  let s := σ.stas (some k)
  let s := if t = .uniMgmt ∨ t = .allFrame then s.wakeMgmt s.mgmtSleepQ else s
  let s := if t = .uniBmcData ∨ t = .allFrame then s.wakeData s.sleepQ else s
  σ.put (some k) s

def wakeSta (k : ℕ) : PsSys :=
  let s := σ.stas (some k)
  if s.sleepqLen = 0 ∧ s.mgmtSleepqLen = 0 then
    { σ.put (some k) { s with sleep := false } with
      tim := σ.tim.erase s.aid
      dz := σ.dz.erase s.aid }
  else σ

def wakeBmc : PsSys :=
  if σ.dz.erase 0 = ∅ then
    let σ := σ.put none ((σ.stas none).flushBmc (σ.stas none).sleepQ)
    if (σ.stas none).sleepqLen = 0 then { σ with tim := σ.tim.erase 0, dz := σ.dz.erase 0 } else σ
  else σ

def wakeupStaToXmit (k : ℕ) (t : DequeueType) : PsSys :=
  let σ := (σ.wakeFrames k t).wakeSta k
  if t = .uniBmcData ∨ t = .allFrame then σ.wakeBmc else σ

-- the argument list kept is the part of sleep_q already walked over
def deliver (k : ℕ) : PsSys → List TxFrame → List TxFrame → PsSys
  | σ, _, [] => σ
  | σ, kept, f :: fs =>
    let s := σ.stas (some k)
    if s.wmm.trigger f.ac then
      let s' := s.releaseAc f (kept ++ fs)
      deliver k
        { σ.put (some k) s' with
          tim := if s'.sleepqAcLen = 0 ∧ s.wmm.hasLegacyAc = false then σ.tim.erase s.aid else σ.tim }
        kept fs
    else deliver k σ (kept ++ [f]) fs

def xmitDeliveryEnabledFrames (k : ℕ) : PsSys := deliver k σ [] (σ.stas (some k)).sleepQ

def processPwrbitData (k : ℕ) (pwrbit : Bool) : PsSys :=
  if pwrbit then
    if (σ.stas (some k)).sleep then σ else σ.stopStaXmit k
  else if (σ.stas (some k)).sleep then σ.wakeupStaToXmit k .allFrame
  else σ

def processWmmpsData (k priority : ℕ) : PsSys :=
  let s := σ.stas (some k)
  if s.wmm.qosOption = false ∨ s.wmm.qosInfo &&& 0x0f = 0 then σ
  else if s.sleep && s.wmm.trigger (.ofPriority priority) then
    if s.sleepqAcLen ≠ 0 then σ.xmitDeliveryEnabledFrames k else σ
  else σ

def psPoll (k priority : ℕ) : PsSys :=
  let s := σ.stas (some k)
  if s.wmm.delivery (.ofPriority priority) then σ
  else if s.sleep && decide (s.aid ∈ σ.dz) then
    let found := !s.mgmtSleepQ.isEmpty || !s.sleepQ.isEmpty
    let s' := (s.pollMgmt.pollData).pollRepair found σ.tim
    { σ.put (some k) s' with
      tim := if s'.sleepqLen = 0 ∧ s'.mgmtSleepqLen = 0 then σ.tim.erase s.aid else σ.tim }
  else σ

def chkBmcSleepqHdl : PsSys :=
  if 0 ∈ σ.tim ∧ (σ.stas none).sleepqLen ≠ 0 then
    σ.put none ((σ.stas none).flushBmc (σ.stas none).sleepQ)
  else σ

def rtwChkHiQueueHdl (empty : Bool) : PsSys :=
  if (σ.stas none).sleepqLen = 0 ∧ empty then
    { σ with tim := σ.tim.erase 0, dz := σ.dz.erase 0 }
  else σ

-- free is whether nothing but a frame of its own queue keeps pre_xmitframe from the direct way
def preXmitframe (w : StaId) (free : Bool) (f : TxFrame) : PsSys :=
  let s := σ.stas w
  if (s.servq f.ac).qcnt > 0 || !free then σ.put w (s.halXmitframeEnqueue f)
  else σ.put w { s with given := s.given ++ [f.pkt] }

-- update_attrib refuses a frame for a station that is not associated
def rtwXmitPosthandle (w : StaId) (free : Bool) (p : Pkt) : PsSys :=
  if (σ.stas w).asoc then
    let σ := σ.put w { σ.stas w with sent := (σ.stas w).sent ++ [p] }
    (σ.xmitframeEnqueueForSleepingSta w p.frame).getD (σ.preXmitframe w free p.frame)
  else σ

def rtwHalMgntXmit (k : ℕ) (psDontq : Bool) (p : Pkt) : PsSys :=
  if psDontq then σ
  else (σ.mgmtXmitframeEnqueueForSleepingSta (some k) p.frame).getD σ

def rtwDequeueXframe (w : StaId) (ac : Ac) : PsSys :=
  match ((σ.stas w).servq ac).staPending with
  | [] => σ
  | f :: fs =>
    let s := ((σ.stas w).setPending ac fs).uncount ac
    σ.put w { s with given := s.given ++ [f.pkt] }

def rtwDequeueMgmtXframe (w : StaId) : PsSys :=
  let s := σ.stas w
  match s.mgmtQ.staPending with
  | [] => σ
  | _ :: fs => σ.put w { s with mgmtQ := { staPending := fs, qcnt := s.mgmtQ.qcnt - 1 } }

-- an association keeps an AID given before
def join (k aid : ℕ) (qos : Option UInt8) : PsSys :=
  let s := σ.stas (some k)
  σ.put (some k) { s with
    asoc := true
    aid := if s.aid = 0 then aid else s.aid
    wmm := .ofInfo qos
    stale := s.stale || !s.sleepQ.isEmpty || !s.mgmtSleepQ.isEmpty }

-- ap_free_sta: the association ends with the TIM bit, and the event it posts frees the station later
def disassoc (k : ℕ) : PsSys :=
  { σ.put (some k) { σ.stas (some k) with asoc := false } with
    tim := σ.tim.erase (σ.stas (some k)).aid }

def rtwFreeStainfo (k : ℕ) : PsSys :=
  let s := σ.stas (some k)
  { σ.put (some k) (.fresh s.sent s.given (s.lost ++ s.held)) with
    dz := σ.dz.erase s.aid
    tim := σ.tim.erase s.aid }

end PsSys

inductive PsEvent where
  | join (k aid : ℕ) (qos : Option UInt8)
  | disassoc (k : ℕ)
  | free (k : ℕ)
  | xmit (w : StaId) (free : Bool) (p : Pkt)
  | mgnt (k : ℕ) (psDontq : Bool) (p : Pkt)
  | pwrbit (k : ℕ) (on : Bool)
  | wakeup (k : ℕ) (t : DequeueType)
  | psPoll (k priority : ℕ)
  | trigger (k priority : ℕ)
  | dequeue (w : StaId) (ac : Ac)
  | dequeueMgmt (w : StaId)
  | chkBmcSleepq
  | chkHiQueue (empty : Bool)

def PsSys.step (σ : PsSys) : PsEvent → PsSys
  | .join k aid qos => σ.join k aid qos
  | .disassoc k => σ.disassoc k
  | .free k => σ.rtwFreeStainfo k
  | .xmit w free p => σ.rtwXmitPosthandle w free p
  | .mgnt k psDontq p => σ.rtwHalMgntXmit k psDontq p
  | .pwrbit k on => σ.processPwrbitData k on
  | .wakeup k t => σ.wakeupStaToXmit k t
  | .psPoll k up => σ.psPoll k up
  | .trigger k up => σ.processWmmpsData k up
  | .dequeue w ac => σ.rtwDequeueXframe w ac
  | .dequeueMgmt w => σ.rtwDequeueMgmtXframe w
  | .chkBmcSleepq => σ.chkBmcSleepqHdl
  | .chkHiQueue empty => σ.rtwChkHiQueueHdl empty

def PsSys.init : PsSys where
  stas := fun w => { PsSta.fresh [] [] [] with asoc := w.isNone }
  dz := ∅
  tim := ∅

end Ap.Ps
