import Rtl8188fu.Recv.Frame

namespace Recv

def snLess (a b : ℤ) : Bool := (a - b) / 0x800 % 2 != 0

def snEqual (a b : ℤ) : Bool := a == b

def RecvFrame.qosData (slot : ℕ) (tid : Fin 16) (seqNum : Fin 4096) : RecvFrame :=
  { rtwInitRecvframe slot with
    attrib := { RxPktAttrib.zero with qos := true, priority := tid, seqNum := seqNum }
    preorderCtrl := some tid }

inductive RxRet where
  | fail
  | success
  | handled
  deriving DecidableEq, Repr

structure RecvReorderCtrl where
  enable : Bool
  indicateSeq : ℕ
  wsizeB : ℕ
  ampduSize : ℕ
  pendingRecvframeQueue : List RecvFrame
  reorderingCtrlTimer : Bool
  bReorderWaiting : Bool
  ackOrTimeout : Bool
  reorderWow : Bool
  deriving DecidableEq

namespace RecvReorderCtrl

def rtwInitStainfo : RecvReorderCtrl where
  enable := false
  indicateSeq := 0xffff
  wsizeB := 64
  ampduSize := 0xFF
  pendingRecvframeQueue := []
  reorderingCtrlTimer := false
  bReorderWaiting := false
  ackOrTimeout := false
  reorderWow := false

def addBaRspHdl (c : RecvReorderCtrl) (status size : ℕ) : RecvReorderCtrl :=
  let c := { c with ackOrTimeout := true }
  if status = 0 then { c with enable := true, ampduSize := size }
  else if status = 37 then { c with enable := false }
  else c

def checkIndicateSeq (c : RecvReorderCtrl) (seqNum : ℕ) : RecvReorderCtrl × Bool :=
  let c := if c.indicateSeq = 0xFFFF then { c with indicateSeq := seqNum } else c
  let wend := ((c.indicateSeq : ℤ) + c.wsizeB - 1) % 0x1000
  if snLess seqNum c.indicateSeq then (c, false)
  else if snEqual seqNum c.indicateSeq then
    ({ c with indicateSeq := (c.indicateSeq + 1) % 0x1000 }, true)
  else if snLess wend seqNum then
    if c.wsizeB ≤ seqNum + 1 then ({ c with indicateSeq := seqNum + 1 - c.wsizeB }, true)
    else ({ c with indicateSeq := 0xFFF - (c.wsizeB - (seqNum + 1)) + 1 }, true)
  else (c, true)

def enqueueReorderRecvframe (prframe : RecvFrame) : List RecvFrame → Option (List RecvFrame)
  | [] => some [prframe]
  | next :: rest =>
    if snLess next.attrib.seqNum prframe.attrib.seqNum then
      (enqueueReorderRecvframe prframe rest).map (next :: ·)
    else if snEqual next.attrib.seqNum prframe.attrib.seqNum then none
    else some (prframe :: next :: rest)

structure Indicated where
  indicateSeq : ℕ
  indicated : List RecvFrame
  queue : List RecvFrame
  bPktInBuf : Bool

def indicateLoop (indicateSeq : ℕ) : List RecvFrame → Indicated
  | [] => ⟨indicateSeq, [], [], false⟩
  | prframe :: rest =>
    if snLess indicateSeq prframe.attrib.seqNum then ⟨indicateSeq, [], prframe :: rest, true⟩
    else
      let r := indicateLoop
        (if snEqual indicateSeq prframe.attrib.seqNum then (indicateSeq + 1) % 0x1000
          else indicateSeq) rest
      { r with indicated := prframe :: r.indicated }

structure InOrder where
  ctrl : RecvReorderCtrl
  indicated : List RecvFrame
  bPktInBuf : Bool

def runIndicateLoop (c : RecvReorderCtrl) : InOrder :=
  let r := indicateLoop c.indicateSeq c.pendingRecvframeQueue
  ⟨{ c with indicateSeq := r.indicateSeq, pendingRecvframeQueue := r.queue }, r.indicated,
    r.bPktInBuf⟩

def recvIndicatepktsInOrder (c : RecvReorderCtrl) (bforced : Bool) : InOrder :=
  if bforced then
    match c.pendingRecvframeQueue with
    | [] => ⟨c, [], true⟩
    | head :: _ => runIndicateLoop { c with indicateSeq := head.attrib.seqNum }
  else runIndicateLoop c

structure Reordered where
  ctrl : RecvReorderCtrl
  indicated : List RecvFrame
  ret : RxRet

def testAndClear (c : RecvReorderCtrl) : RecvReorderCtrl :=
  let c := if c.ackOrTimeout then { c with ackOrTimeout := false, indicateSeq := 0xFFFF } else c
  if c.reorderWow then { c with reorderWow := false, indicateSeq := 0xFFFF } else c

def recvIndicatepktReorder (c : RecvReorderCtrl) (prframe : RecvFrame) : Reordered :=
  if !prframe.attrib.qos || prframe.preorderCtrl.isNone || !c.enable then ⟨c, [], .success⟩
  else
    let c := c.testAndClear
    match c.checkIndicateSeq prframe.attrib.seqNum with
    | (c, false) => ⟨c, [], .fail⟩
    | (c, true) =>
      match enqueueReorderRecvframe prframe c.pendingRecvframeQueue with
      | none => ⟨c, [], .fail⟩
      | some queue =>
        let r := recvIndicatepktsInOrder { c with pendingRecvframeQueue := queue } false
        if r.bPktInBuf then
          if !r.ctrl.bReorderWaiting then
            ⟨{ r.ctrl with bReorderWaiting := true, reorderingCtrlTimer := true }, r.indicated,
              .handled⟩
          else ⟨r.ctrl, r.indicated, .handled⟩
        else
          ⟨{ r.ctrl with bReorderWaiting := false, reorderingCtrlTimer := false }, r.indicated,
            .handled⟩

def rtwReorderingCtrlTimeoutHandler (cannotRun : Bool) (c : RecvReorderCtrl) :
    RecvReorderCtrl × List RecvFrame :=
  let c := { c with reorderingCtrlTimer := false }
  if cannotRun then (c, [])
  else
    let r := recvIndicatepktsInOrder { c with bReorderWaiting := false } true
    if r.bPktInBuf then ({ r.ctrl with reorderingCtrlTimer := true }, r.indicated)
    else (r.ctrl, r.indicated)

end RecvReorderCtrl

end Recv
