import Rtl8188fu.Ie.Elements
import Rtl8188fu.Rm.RequestParse

namespace Rm

open ByteMemory

def maxXmitExtbufSz : ℕ := 1536
def maxBufNum : ℕ := 128
def fixedIeLength : ℕ := 12
def wlanHdrLen : ℕ := 24

def ssidIe : UInt8 := 0

def bcnRepCondImmediately : UInt8 := 0
def bcnReqCondRcpiGreater : UInt8 := 1
def bcnReqCondRcpiLess : UInt8 := 2
def bcnReqCondRsniGreater : UInt8 := 3
def bcnReqCondRsniLess : UInt8 := 4

structure WlanNetwork where
  macAddress : List UInt8
  station : macAddress.length = 6
  ssidLength : UInt32
  ssid : Fin sizeofSsid → UInt8
  dsConfig : UInt32
  rcpi : UInt8
  rsni : UInt8
  freeCnt : UInt32
  ieLength : UInt32
  ies : Mem UInt8

structure Reporter where
  category : UInt8
  actionCode : UInt8
  diagToken : UInt8
  eId : UInt8
  len : UInt8
  mToken : UInt8
  mMode : UInt8
  mType : UInt8
  opClass : UInt8
  chNum : UInt8
  measStartTime : UInt64
  measEndTime : UInt64
  freeRunCounterValid : Bool
  bssid : List UInt8
  opt : BcnReqOpt
  chSet : List UInt8

structure ReportEnv where
  tmpBuf : Bool
  alloc : ℕ → Bool
  mgtFrames : ℕ
  beyond : WlanNetwork → Bool

def leBytes : ℕ → ℕ → List UInt8
  | 0, _ => []
  | k + 1, n => .ofNat n :: leBytes k (n / 256)

@[simp] theorem length_leBytes (k n : ℕ) : (leBytes k n).length = k := by
  induction k generalizing n with
  | zero => rfl
  | succ k ih => rw [leBytes, List.length_cons, ih]

section Matching

variable (env : ReportEnv) (r : Reporter) (net : WlanNetwork)

def rtwValidateSsid : Bool := net.ssidLength ≤ 32

def isWildcardBssid : Bool := r.bssid.all (· == 0xff)

def ssidMatches : Bool :=
  r.opt.ssidLength == 0 ||
    (List.finRange sizeofSsid).all (fun i =>
      decide (r.opt.ssidLength.toNat ≤ i.val) || r.opt.ssid i == net.ssid i) &&
    (r.opt.ssidLength ≤ 32 || env.beyond net)

def rmBcnReqCondMach : Bool :=
  let cond := r.opt.repCond.cond
  let threshold := r.opt.repCond.threshold
  if cond = bcnRepCondImmediately then true
  else if cond = bcnReqCondRcpiGreater then threshold < net.rcpi
  else if cond = bcnReqCondRcpiLess then net.rcpi < threshold
  else if cond = bcnReqCondRsniGreater then net.rsni != 255 && threshold < net.rsni
  else if cond = bcnReqCondRsniLess then net.rsni != 255 && net.rsni < threshold
  else false

def matchesRequest : Bool :=
  rtwValidateSsid net && (isWildcardBssid r || r.bssid == net.macAddress) && ssidMatches env r net &&
    r.chSet.any (·.toUInt32 == net.dsConfig) && rmBcnReqCondMach r net

end Matching

section Elements

variable (r : Reporter) (opt : BcnReqOpt) (net : WlanNetwork)

def ssidBytes : List UInt8 := (List.ofFn net.ssid).take net.ssidLength.toNat

def requestedIe (eid : UInt8) : List UInt8 :=
  match Ie.rtwGetIe net.ies fixedIeLength eid
      (UInt8.ofNat (net.ieLength - .ofNat fixedIeLength).toNat).toNat with
  | none => []
  | some p => [eid, net.ies (p + 1)] ++ read net.ies (p + 2) (net.ies (p + 1)).toNat

def detailOption (id : UInt8) : List UInt8 :=
  if id = bcnReqSsid then [ssidIe, .ofNat net.ssidLength.toNat] ++ ssidBytes net
  else if id = bcnReqReq then
    match opt.reqStart with
    | none => []
    | some reqStart => (reqStart.take opt.reqLen.toNat).flatMap (requestedIe net)
  else []

def reportedContent : List UInt8 :=
  if opt.repDetail = 2 then read net.ies 0 (net.ieLength - 4).toNat
  else read net.ies 0 fixedIeLength ++ opt.optId.flatMap (detailOption opt net)

def rmGenBcnDetailElem : List UInt8 :=
  if opt.repDetail = 0 ∨ 2 < opt.repDetail then []
  else
    let pframe := [1, 0] ++ reportedContent opt net
    pframe.set 1 (.ofNat (pframe.length - 2))

def reportFixed : List UInt8 :=
  [r.mToken, r.mMode, r.mType, r.opClass, r.chNum] ++ leBytes 8 r.measStartTime.toNat ++
    leBytes 2 (r.measEndTime - r.measStartTime).toNat ++ [0] ++ [net.rcpi] ++ [net.rsni] ++
    net.macAddress ++ [0] ++
    leBytes 4 (net.freeCnt.toNat + if r.freeRunCounterValid then r.measStartTime.toNat else 0)

def rmGenBcnRepIe : List UInt8 :=
  let pframe := [r.eId, r.len] ++ reportFixed r net ++ rmGenBcnDetailElem r.opt net
  pframe.set 1 (.ofNat (pframe.length - 2))

end Elements

structure ScanBufs where
  full : List (List UInt8)
  cur : Option (List UInt8)
  failed : Bool
  wild : Bool

namespace ScanBufs

def bufIdx (s : ScanBufs) : ℕ := s.full.length

def myLen (s : ScanBufs) : ℕ := (s.cur.getD []).length

def bufs (s : ScanBufs) : List (List UInt8) := s.full ++ s.cur.toList

def pktNum (s : ScanBufs) : ℕ := if s.cur.isSome then s.bufIdx + 1 else 0

def start : ScanBufs := ⟨[], none, false, false⟩

def fits (used len : ℕ) : Bool := used + len + 24 + 4 < maxXmitExtbufSz

def openPacket (alloc : ℕ → Bool) (elem : List UInt8) (s : ScanBufs) : ScanBufs :=
  if alloc s.bufIdx then
    let wild := s.wild || decide (maxBufNum ≤ s.bufIdx)
    if fits 0 elem.length then { s with cur := some elem, wild := wild }
    else { s with cur := some [], failed := true, wild := wild }
  else { s with failed := true }

def newPacket (alloc : ℕ → Bool) (elem : List UInt8) (s : ScanBufs) : ScanBufs :=
  let s := { s with wild := s.wild || decide (maxXmitExtbufSz < elem.length) }
  if s.myLen = 0 then s.openPacket alloc elem
  else if fits s.myLen elem.length then { s with cur := s.cur.map (· ++ elem) }
  else { s with full := s.full ++ s.cur.toList, cur := none }.openPacket alloc elem

end ScanBufs

def retrieveLoop (env : ReportEnv) (r : Reporter) : List WlanNetwork → ScanBufs → ScanBufs
  | [], s => s
  | net :: nets, s =>
    if matchesRequest env r net then
      let t := s.newPacket env.alloc (rmGenBcnRepIe r net)
      if t.failed then t else retrieveLoop env r nets t
    else retrieveLoop env r nets s

def retrieveScanResult (env : ReportEnv) (r : Reporter) (nets : List WlanNetwork) : ScanBufs :=
  if env.tmpBuf then retrieveLoop env r nets .start else .start

structure Issued where
  frames : List (List UInt8)
  pktNum : ℕ
  nullReply : Bool
  leaked : ℕ
  wild : Bool

def issueBeaconRep (env : ReportEnv) (r : Reporter) (nets : List WlanNetwork) : Issued :=
  let s := retrieveScanResult env r nets
  { frames := ((s.bufs.take s.pktNum).take env.mgtFrames).map fun pbuf =>
      [r.category, r.actionCode, r.diagToken] ++ pbuf
    pktNum := s.pktNum
    nullReply := s.pktNum == 0
    leaked := (s.bufs.drop s.pktNum).length
    wild := s.wild }

end Rm
