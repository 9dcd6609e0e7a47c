import Mathlib.Data.List.FinRange
import Rtl8188fu.Rm.Measurement

namespace Rm

structure RmPriv where
  enable : Bool
  heap : ℕ → Option RmObj
  next : ℕ
  rmQueue : List ℕ
  evQueue : List RmEvent
  clock : Fin rmTimerNum → RmClock
  prmSel : Option ℕ
  cmds : List RmEvent
  surveys : List UInt32
  log : List (UInt32 × RmState)
  fault : Bool

structure NewMeas where
  master : Bool
  aid : UInt16
  diagToken : UInt8
  q : RmMeasReq
  mMode : UInt8
  token : master = true → diagToken ≠ 0

theorem slave_token : false = true → (1 : UInt8) ≠ 0 :=
  nofun

def NewMeas.rmid (n : NewMeas) : UInt32 :=
  if n.diagToken = 0 then 0
  else n.aid.toUInt32 <<< 16 ||| n.diagToken.toUInt32 <<< 8 ||| (if n.master then rmMaster else 0)

namespace RmPriv

def initial : RmPriv where
  enable := true
  heap _ := none
  next := 0
  rmQueue := []
  evQueue := []
  clock _ := ⟨none, 0, .max⟩
  prmSel := none
  cmds := []
  surveys := []
  log := []
  fault := false

def load (s : RmPriv) (rm : RmObj) : Meas := ⟨rm, s.clock rm.pclock, [], [], [], false, false⟩

def store (s : RmPriv) (p : ℕ) (m : Meas) : RmPriv :=
  { s with
    heap := Function.update s.heap p (if m.freed then none else some m.rm)
    rmQueue := if m.freed then s.rmQueue.filter (fun r => r ≠ p) else s.rmQueue
    evQueue := s.evQueue ++ m.posted
    clock := Function.update s.clock m.rm.pclock m.clock
    surveys := s.surveys ++ m.surveys
    log := s.log ++ m.log
    fault := s.fault || m.fault }

def rmStateRun (s : RmPriv) (env : Env) (evid : RmEv) (p : ℕ) : RmPriv :=
  match s.heap p with
  | none => { s with fault := true }
  | some rm => s.store p ((s.load rm).rmStateRun env evid)

def walkQueue (s : RmPriv) : RmPriv :=
  { s with fault := s.fault || s.rmQueue.any fun p => (s.heap p).isNone }

def rmGetRmobj (s : RmPriv) (rmid : UInt32) : Option ℕ :=
  if rmid = 0 then none else s.rmQueue.find? fun p => (s.heap p).any fun rm => rm.rmid == rmid

def rmGetAid (rmid : UInt32) : UInt32 := (rmid &&& 0xffff0000) >>> 16

def bcastOne (env : ℕ → Env) (ev : RmEvent) (s : RmPriv) (p : ℕ) : RmPriv :=
  match s.heap p with
  | none => { s with fault := true }
  | some rm => if rmGetAid ev.rmid = rmGetAid rm.rmid then s.rmStateRun (env p) ev.evid p else s

def rmBcastAidHandler (s : RmPriv) (env : ℕ → Env) (ev : RmEvent) : RmPriv :=
  s.rmQueue.foldl (bcastOne env ev) s

def rmHandler (s : RmPriv) (env : ℕ → Env) : RmPriv :=
  match s.evQueue with
  | [] => s
  | ev :: rest =>
    let s := { s with evQueue := rest }
    if ev.rmid &&& rmAllMeas ≠ 0 then s.rmBcastAidHandler env ev
    else
      match s.rmGetRmobj ev.rmid with
      | none => s.walkQueue
      | some p => s.walkQueue.rmStateRun (env p) ev.evid p

def rmPostEvent (s : RmPriv) (alloc : Bool) (rmid : UInt32) (evid : RmEv) : RmPriv :=
  if s.enable && alloc then { s with cmds := s.cmds ++ [⟨rmid, evid⟩] } else s

def rmPostEventHdl (s : RmPriv) (alloc : Bool) : RmPriv :=
  match s.cmds with
  | [] => s
  | ev :: rest =>
    { s with
      cmds := rest
      evQueue := if ev.evid = .max ∨ ev.rmid = 0 ∨ alloc = false then s.evQueue
        else s.evQueue ++ [ev] }

def timerOne (alloc : Fin rmTimerNum → Bool) (s : RmPriv) (i : Fin rmTimerNum) : RmPriv :=
  match (s.clock i).prm with
  | none => s
  | some p =>
    if (s.clock i).counter = 0 then s
    else
      let counter := (s.clock i).counter - 1
      let t := { s with clock := Function.update s.clock i { s.clock i with counter := counter } }
      if counter = 0 then
        match s.heap p with
        | none => { t with fault := true }
        | some rm => t.rmPostEvent (alloc i) rm.rmid (s.clock i).evid
      else t

def rmTimerCallback (s : RmPriv) (alloc : Fin rmTimerNum → Bool) : RmPriv :=
  (List.finRange rmTimerNum).foldl (timerOne alloc) s

def freeClock? (s : RmPriv) : Option (Fin rmTimerNum) :=
  (List.finRange rmTimerNum).find? fun i => (s.clock i).prm.isNone

def lastClock : Fin rmTimerNum := ⟨31, by decide⟩

def rmAllocClock (s : RmPriv) (prm : ℕ) : RmPriv × Fin rmTimerNum :=
  match s.freeClock? with
  | some i => ({ s with clock := Function.update s.clock i ⟨some prm, 0, .max⟩ }, i)
  | none => (s, lastClock)

def NewMeas.obj (n : NewMeas) (pclock : Fin rmTimerNum) : RmObj where
  rmid := n.rmid
  state := .idle
  q := n.q
  p := ⟨0, n.mMode, 0⟩
  pclock := pclock
  waitBusy := 0
  pollMode := false

def rmAllocRmobj (s : RmPriv) (alloc : Bool) (n : NewMeas) : Option ℕ × RmPriv :=
  if alloc then
    let (t, i) := s.rmAllocClock s.next
    (some s.next, { t with
      heap := Function.update t.heap s.next (some (NewMeas.obj n i))
      next := s.next + 1 })
  else (none, s)

def rmFreeRmobj (s : RmPriv) (p : ℕ) : RmPriv :=
  match s.heap p with
  | none => { s with fault := true }
  | some rm => s.store p (s.load rm).rmFreeRmobj

def rmEnqueueRmobj (s : RmPriv) (cmdAlloc : Bool) (p : ℕ) : RmPriv :=
  match s.heap p with
  | none => { s with fault := true }
  | some rm =>
    ({ s with
      rmQueue := s.rmQueue ++ [p]
      heap := Function.update s.heap p (some { rm with state := .idle }) }).rmPostEvent
      cmdAlloc rm.rmid .stateIn

def request (s : RmPriv) (alloc cmdAlloc enqueue : Bool) (n : NewMeas) : RmPriv :=
  match s.rmAllocRmobj alloc n with
  | (none, t) => t
  | (some p, t) => if enqueue then t.rmEnqueueRmobj cmdAlloc p else t

def dbgFinish (t : RmPriv) (n : NewMeas) (found : Bool) (p : ℕ) : RmPriv :=
  if found then
    match t.heap p with
    | none => { t with fault := true }
    | some rm => { t with
        prmSel := some p
        heap := Function.update t.heap p (some { rm with rmid := n.rmid, q := n.q }) }
  else { t.rmFreeRmobj p with prmSel := none }

def rmDbgAddMeas (s : RmPriv) (alloc : Bool) (n : NewMeas) (found : Bool) : RmPriv :=
  let (sel, t) := match s.prmSel with
    | none => s.rmAllocRmobj alloc n
    | some p => (some p, s)
  match sel with
  | none => t
  | some p => t.dbgFinish n found p

def rmDbgActivateMeas (s : RmPriv) (cmdAlloc : Bool) (curChannel : UInt8) : RmPriv :=
  match s.prmSel with
  | none => s
  | some p =>
    match s.heap p with
    | none => { s with fault := true }
    | some rm =>
      let t := { s with heap := Function.update s.heap p (some { rm with q.chNum := curChannel }) }
      { t.rmEnqueueRmobj cmdAlloc p with prmSel := none }

def rmDbgDelMeas (s : RmPriv) : RmPriv := { s with prmSel := none }

def recvReport (s : RmPriv) (cmdAlloc : Bool) (rmid : UInt32) (actionCode : UInt8)
    (mMode : Option UInt8) (isRsp : Bool) : RmPriv :=
  match s.rmGetRmobj rmid with
  | none => s.walkQueue
  | some p =>
    match s.heap p with
    | none => { s with fault := true }
    | some rm =>
      let t := { s.walkQueue with heap := Function.update s.heap p (some { rm with
        p.actionCode := actionCode
        p.mMode := mMode.getD rm.p.mMode }) }
      if isRsp then t.rmPostEvent cmdAlloc rm.rmid .recvRep else t

def surveyDone (s : RmPriv) (cmdAlloc : Bool) : RmPriv :=
  match s.surveys with
  | [] => s
  | token :: rest =>
    let s := { s with surveys := rest }
    if token ≠ 0 then s.rmPostEvent cmdAlloc token .surveyDone else s

def drainOne (env : ℕ → Env) (s : RmPriv) : RmPriv :=
  match s.rmQueue with
  | [] => s
  | p :: _ => s.walkQueue.rmStateRun (env p) .cancel p

def rtwDeinitRm (s : RmPriv) (env : ℕ → Env) : RmPriv :=
  (drainOne env)^[2 * s.rmQueue.length] { s with enable := false, evQueue := [] }

end RmPriv

inductive RmSysEvent where
  | request (alloc cmdAlloc enqueue : Bool) (n : NewMeas)
  | dbgAdd (alloc : Bool) (n : NewMeas) (found : Bool)
  | dbgActivate (cmdAlloc : Bool) (curChannel : UInt8)
  | dbgDel
  | report (cmdAlloc : Bool) (rmid : UInt32) (actionCode : UInt8) (mMode : Option UInt8)
    (isRsp : Bool)
  | post (alloc : Bool) (rmid : UInt32) (evid : RmEv)
  | surveyDone (alloc : Bool)
  | tick (alloc : Fin rmTimerNum → Bool)
  | command (alloc : Bool)
  | handle (env : ℕ → Env)
  | deinit (env : ℕ → Env)

namespace RmPriv

def step (s : RmPriv) : RmSysEvent → RmPriv
  | .request alloc cmdAlloc enqueue n => s.request alloc cmdAlloc enqueue n
  | .dbgAdd alloc n found => s.rmDbgAddMeas alloc n found
  | .dbgActivate cmdAlloc curChannel => s.rmDbgActivateMeas cmdAlloc curChannel
  | .dbgDel => s.rmDbgDelMeas
  | .report cmdAlloc rmid actionCode mMode isRsp =>
    s.recvReport cmdAlloc rmid actionCode mMode isRsp
  | .post alloc rmid evid => s.rmPostEvent alloc rmid evid
  | .surveyDone alloc => s.surveyDone alloc
  | .tick alloc => s.rmTimerCallback alloc
  | .command alloc => s.rmPostEventHdl alloc
  | .handle env => s.rmHandler env
  | .deinit env => s.rtwDeinitRm env

end RmPriv

end Rm
