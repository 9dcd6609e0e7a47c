import Rtl8188fu.Lib.ByteOrder
import Rtl8188fu.Lib.ElementScan
import Rtl8188fu.Rm.System

namespace Rm

open ByteMemory ElementScan

def measReqIe : UInt8 := 38
def bcnReqPassive : UInt8 := 0
def bcnReqActive : UInt8 := 1

def bcnReqSsid : UInt8 := 0
def bcnReqRepInfo : UInt8 := 1
def bcnReqRepDetail : UInt8 := 2
def bcnReqReq : UInt8 := 10
def bcnReqApChRep : UInt8 := 51

def chLoadRepInfo : UInt8 := 1
def noiseHistoRepInfo : UInt8 := 1

def bcnReqOptMaxNum : ℕ := 16
def bcnReqOptApChRptMaxNum : ℕ := 12
def maxChNumInOpClass : ℕ := 11
def sizeofSsid : ℕ := 32

inductive RmCapEn where
  | bcnPassiveMeas
  | bcnActiveMeas
  | bcnTableMeas
  | bcnMeasRepCond
  | chLoad
  | noiseHisto
  deriving DecidableEq, Repr

structure OperatingClass where
  globalOpClass : ℤ
  len : ℤ
  channel : List UInt8
  room : channel.length ≤ maxChNumInOpClass
  deriving DecidableEq

structure OptRepInfo where
  cond : UInt8
  threshold : UInt8
  deriving DecidableEq, Repr

structure BcnReqOpt where
  optId : List UInt8
  repDetail : UInt8
  ssidLength : UInt32
  ssid : Fin sizeofSsid → UInt8
  repCond : OptRepInfo
  apChRpt : List OperatingClass
  reqStart : Option (List UInt8)
  reqLen : UInt8

inductive Block where
  | reqStart (len : UInt8)
  | operatingClass
  | pbuf
  deriving DecidableEq, Repr

def requestBlock (len : UInt8) : List Block := if len = 0 then [] else [.reqStart len]

def classBlock (alloc : Bool) : List Block := if alloc then [.operatingClass] else []

structure MeasReqObj where
  diagToken : UInt8
  rpt : UInt16
  eId : UInt8
  mToken : UInt8
  mMode : UInt8
  mType : UInt8
  opClass : UInt8
  chNum : UInt8
  randIntvl : UInt16
  measDur : UInt16
  bssid : List UInt8
  optSElemLen : ℤ
  opt : BcnReqOpt
  clm : OptRepInfo
  repMode : UInt8
  blocks : List Block
  wild : Bool

def BcnReqOpt.zeroed : BcnReqOpt := ⟨[], 0, 0, fun _ => 0, ⟨0, 0⟩, [], none, 0⟩

def MeasReqObj.zeroed : MeasReqObj :=
  ⟨0, 0, 0, 0, 0, 0, 0, 0, 0, 0, List.replicate 6 0, 0, .zeroed, ⟨0, 0⟩, 0, [], false⟩

structure ParseEnv where
  cap : RmCapEn → Bool
  alloc : ℕ → Bool

namespace MeasReqObj

def rmSetRepMode (mode : UInt8) (q : MeasReqObj) : MeasReqObj :=
  { q with repMode := q.repMode ||| mode }

def rmEnCapChkAndSet (cap : RmCapEn → Bool) (en : RmCapEn) (q : MeasReqObj) : MeasReqObj :=
  if cap en then q else q.rmSetRepMode measRepModIncap

def pushOptId (eid : UInt8) (q : MeasReqObj) : MeasReqObj :=
  { q with opt.optId := q.opt.optId ++ [eid] }

def moreOptIds (q : MeasReqObj) : Bool := q.opt.optId.length < bcnReqOptMaxNum

end MeasReqObj

section SubElements

variable (env : ParseEnv) (mem : Mem UInt8)

def rmParseSsid (p : ℕ) (q : MeasReqObj) : MeasReqObj :=
  { q with
    opt.ssidLength := (mem (p + 1)).toUInt32
    opt.ssid := fun i =>
      if i.val < min (mem (p + 1)).toNat (sizeofSsid - 1) then mem (p + 2 + i.val)
      else q.opt.ssid i }

def rmParseReq (p : ℕ) (q : MeasReqObj) : MeasReqObj :=
  if env.alloc p then
    { q with
      opt.reqStart := some (read mem (p + 2) (mem (p + 1)).toNat)
      opt.reqLen := mem (p + 1)
      blocks := q.blocks ++ requestBlock (mem (p + 1)) }
  else { q with opt.reqStart := none }

def chListLen (p : ℕ) : ℤ := (mem (p + 1)).toNat - 1

def copiedChs (p : ℕ) : ℤ := min (chListLen mem p) maxChNumInOpClass

def sizeT (i : ℤ) : ℕ := (i % 2 ^ 64).toNat

def receivedClass (p : ℕ) : OperatingClass where
  globalOpClass := (mem (p + 2)).toNat
  len := chListLen mem p
  channel := read mem (p + 3) (copiedChs mem p).toNat
  room := by
    rw [length_read, copiedChs, Int.toNat_le]
    exact min_le_right _ _

def rmParseApChRep (p : ℕ) (q : MeasReqObj) : MeasReqObj :=
  { q with
    opt.apChRpt := q.opt.apChRpt ++ [receivedClass mem p]
    blocks := q.blocks ++ classBlock (env.alloc p)
    wild := q.wild || !env.alloc p || decide (chListLen mem p < 0) ||
      decide (bcnReqOptApChRptMaxNum ≤ q.opt.apChRpt.length) }

def parseBcnElem (p : ℕ) (q : MeasReqObj) : MeasReqObj :=
  if mem p = bcnReqSsid then (rmParseSsid mem p q).pushOptId (mem p)
  else if mem p = bcnReqRepInfo then
    let q := q.rmEnCapChkAndSet env.cap .bcnMeasRepCond
    { q with opt.repCond := ⟨mem (p + 2), mem (p + 3)⟩ }
  else if mem p = bcnReqRepDetail then
    ({ q with opt.repDetail := mem (p + 2) } : MeasReqObj).pushOptId (mem p)
  else if mem p = bcnReqReq then
    if env.alloc p then (rmParseReq env mem p q).pushOptId (mem p) else rmParseReq env mem p q
  else if mem p = bcnReqApChRep then
    if bcnReqOptApChRptMaxNum < q.opt.apChRpt.length then q
    else rmParseApChRep env mem p (q.pushOptId (mem p))
  else q

def bcnElemReads (p rpts : ℕ) : ℕ :=
  if mem p = bcnReqSsid then 2 + min (mem (p + 1)).toNat (sizeofSsid - 1)
  else if mem p = bcnReqRepInfo then 4
  else if mem p = bcnReqRepDetail then 3
  else if mem p = bcnReqReq then if env.alloc p then 2 + (mem (p + 1)).toNat else 2
  else if mem p = bcnReqApChRep then
    if bcnReqOptApChRptMaxNum < rpts then 2 else 3 + sizeT (copiedChs mem p)
  else 2

def bcnElements : Handler MeasReqObj where
  more := MeasReqObj.moreOptIds
  handle := parseBcnElem env mem
  reads p q := bcnElemReads env mem p q.opt.apChRpt.length

def parseCondElem (repInfo : UInt8) (en : RmCapEn) (p : ℕ) (q : MeasReqObj) : MeasReqObj :=
  if mem p = repInfo then
    { q.rmEnCapChkAndSet env.cap en with clm := ⟨mem (p + 2), mem (p + 3)⟩ }
  else q

def condElements (repInfo : UInt8) (en : RmCapEn) : Handler MeasReqObj where
  more _ := true
  handle := parseCondElem env mem repInfo en
  reads p _ := if mem p = repInfo then 4 else 2

def chLoadElements : Handler MeasReqObj := condElements env mem chLoadRepInfo .chLoad

def noiseHistoElements : Handler MeasReqObj := condElements env mem noiseHistoRepInfo .noiseHisto

def parseElements (h : Handler MeasReqObj) (fuel p : ℕ) (reqLen : ℤ) (reach : ℕ) (q : MeasReqObj) :
    Option (Scan MeasReqObj) :=
  WhileLoop.run (ElementScan.loop mem h) fuel
    ⟨{ q with optSElemLen := reqLen }, p, reqLen, reach, false⟩

def rmParseBcnReqSElem := parseElements mem (bcnElements env mem)

def rmParseChLoadSElem := parseElements mem (chLoadElements env mem)

def rmParseNoiseHistoSElem := parseElements mem (noiseHistoElements env mem)

def le16 (p : ℕ) : UInt16 := .ofNat (ByteOrder.word .little (mem p) (mem (p + 1)))

def measFields (pbody : ℕ) (q : MeasReqObj) : MeasReqObj :=
  { q with
    opClass := mem (pbody + 5)
    chNum := mem (pbody + 6)
    randIntvl := le16 mem (pbody + 7)
    measDur := le16 mem (pbody + 9) }

def bcnFields (pbody : ℕ) (q : MeasReqObj) : MeasReqObj :=
  { q with
    mMode := mem (pbody + 11)
    bssid := read mem (pbody + 12) 6
    opt.repDetail := 2 }

def measHead (mType : UInt8) : ℕ := if mType = bcnReq then 18 else 11

def rmParseMeasReq (fuel pbody reach : ℕ) (q : MeasReqObj) : Option (Scan MeasReqObj) :=
  let q := measFields mem pbody q
  let q := if q.mType = bcnReq then bcnFields mem pbody q else q
  let p := pbody + measHead q.mType
  let left : ℤ := (mem (pbody + 1)).toNat - ((measHead q.mType : ℤ) - 2)
  if left ≤ 0 then some ⟨q, p, left, max reach p, false⟩
  else if q.mType = bcnReq then rmParseBcnReqSElem env mem fuel p left (max reach p) q
  else if q.mType = chLoadReq then rmParseChLoadSElem env mem fuel p left (max reach p) q
  else if q.mType = noiseHistoReq then rmParseNoiseHistoSElem env mem fuel p left (max reach p) q
  else some ⟨q, p, left, max reach p, false⟩

end SubElements

structure Received where
  q : MeasReqObj
  reach : ℕ
  late : Bool
  enqueued : Bool

def Received.ofScan (s : Scan MeasReqObj) : Received := ⟨s.obj, s.reach, s.late, true⟩

def measHeader (mem : Mem UInt8) : MeasReqObj :=
  { MeasReqObj.zeroed with
    diagToken := mem 2
    rpt := le16 mem 3
    eId := mem 5
    mToken := mem 7
    mMode := mem 8
    mType := mem 9 }

def chkBcnMode (cap : RmCapEn → Bool) (q : MeasReqObj) : MeasReqObj :=
  if q.mMode = bcnReqPassive then q.rmEnCapChkAndSet cap .bcnPassiveMeas
  else if q.mMode = bcnReqActive then q.rmEnCapChkAndSet cap .bcnActiveMeas
  else if q.mMode = bcnReqBcnTable then q.rmEnCapChkAndSet cap .bcnTableMeas
  else q.rmSetRepMode measRepModIncap

def rmRecvRadioMensReq (env : ParseEnv) (mem : Mem UInt8) (fuel : ℕ) : Option Received :=
  let q := measHeader mem
  if q.eId ≠ measReqIe then some ⟨q, 10, false, false⟩
  else if q.mType = bcnReq then
    (rmParseMeasReq env mem fuel 5 10 (chkBcnMode env.cap q)).map .ofScan
  else if q.mType = chLoadReq then
    (rmParseMeasReq env mem fuel 5 10 (q.rmEnCapChkAndSet env.cap .chLoad)).map .ofScan
  else if q.mType = noiseHistoReq then
    (rmParseMeasReq env mem fuel 5 10 (q.rmEnCapChkAndSet env.cap .noiseHisto)).map .ofScan
  else some ⟨q.rmSetRepMode measRepModIncap, 10, false, true⟩

end Rm
