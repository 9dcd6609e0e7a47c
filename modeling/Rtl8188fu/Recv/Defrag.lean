import Rtl8188fu.Recv.Adapter
import Rtl8188fu.Recv.Decryptor

namespace Recv

open BoundedMemory

def unlink (slot : ℕ) (q : List RecvFrame) : List RecvFrame := q.filter fun f => f.slot != slot

def StaInfo.unlink (slot : ℕ) (psta : StaInfo) : StaInfo :=
  { psta with
    defragQ := Recv.unlink slot psta.defragQ
    recvreorderCtrl := fun tid =>
      { psta.recvreorderCtrl tid with
        pendingRecvframeQueue := Recv.unlink slot (psta.recvreorderCtrl tid).pendingRecvframeQueue } }

def rtwListDelete (a : Adapter) (slot : ℕ) : Adapter :=
  { a with
    stapriv := a.stapriv.map (StaInfo.unlink slot)
    recvpriv := { a.recvpriv with
      freeRecvQueue := a.recvpriv.freeRecvQueue.filter (· != slot)
      ucSwdecPendingQueue := unlink slot a.recvpriv.ucSwdecPendingQueue } }

def rtwFreeRecvframe (a : Adapter) (slot : ℕ) : Adapter :=
  let a := rtwListDelete a slot
  { a with recvpriv := { a.recvpriv with
      freeRecvQueue := a.recvpriv.freeRecvQueue ++ [slot]
      freeRecvframeCnt := a.recvpriv.freeRecvframeCnt + 1 } }

def rtwFreeRecvframeQueue (a : Adapter) (q : List RecvFrame) : Adapter :=
  q.foldl (fun a f => rtwFreeRecvframe a f.slot) a

def rtwAllocRecvframe (a : Adapter) : Option (ℕ × Adapter) :=
  match a.recvpriv.freeRecvQueue with
  | [] => none
  | slot :: rest =>
    some (slot, { a with recvpriv := { a.recvpriv with
      freeRecvQueue := rest
      freeRecvframeCnt := a.recvpriv.freeRecvframeCnt - 1 } })

def setDefragQ (a : Adapter) (macAddr : MacAddr) (q : List RecvFrame) : Adapter :=
  { a with stapriv := a.stapriv.map fun s =>
      if s.macAddr = macAddr then { s with defragQ := q } else s }

def le64 (p : List UInt8) (i : ℕ) : ℕ := le16 p i + 2 ^ 16 * le16 p (i + 2) +
  2 ^ 32 * le16 p (i + 4) + 2 ^ 48 * le16 p (i + 6)

def ccmph2Pn (ch : ℕ) : ℕ := ch % 2 ^ 16 + ch / 2 ^ 32 * 2 ^ 16

def checksPn : SecurityType → Bool
  | .aes | .ccmp256 | .gcmp | .gcmp256 => true
  | _ => false

namespace RecvFrame

def ccmpPn (f : RecvFrame) : ℕ := ccmph2Pn (le64 f.rxData f.attrib.hdrlen)

def curPn (f : RecvFrame) (curPn : ℕ) : ℕ := if checksPn f.attrib.encrypt then f.ccmpPn else curPn

end RecvFrame

def appendFragment (prframe pnextrframe : RecvFrame) : Option RecvFrame :=
  let next := pnextrframe.recvframePull pnextrframe.pastIv
  if prframe.spare.length < next.len then none
  else
    let prframe := prframe.recvframePullTail prframe.attrib.icvLen
    let prframe := { prframe with spare := splice prframe.spare 0 next.data }
    let prframe := prframe.recvframePut next.len
    some { prframe with attrib := { prframe.attrib with icvLen := next.attrib.icvLen } }

def defragLoop (prframe : RecvFrame) (curPn curfragnum : ℕ) : List RecvFrame → Option RecvFrame
  | [] => some prframe
  | pnextrframe :: rest =>
    if checksPn pnextrframe.attrib.encrypt ∧ pnextrframe.ccmpPn ≠ curPn + 1 then none
    else if prframe.keytrack ≠ pnextrframe.keytrack then none
    else if curfragnum ≠ pnextrframe.attrib.fragNum then none
    else
      match appendFragment prframe pnextrframe with
      | none => none
      | some prframe => defragLoop prframe (pnextrframe.curPn curPn) (curfragnum + 1) rest

def recvframeDefrag : List RecvFrame → Option RecvFrame
  | [] => none
  | prframe :: rest =>
    if prframe.attrib.fragNum ≠ 0 then none else defragLoop prframe (prframe.curPn 0) 1 rest

structure Defragged where
  adapter : Adapter
  frame : Option RecvFrame

variable (crypto : Crypto)

def chkmicOrFree (a : Adapter) (f : RecvFrame) : Defragged :=
  if f.attrib.privacy then
    match recvframeChkmic crypto a f with
    | none => ⟨rtwFreeRecvframe a f.slot, none⟩
    | some f => ⟨a, some f⟩
  else ⟨a, some f⟩

def defragOwner (a : Adapter) (f : RecvFrame) : Option StaInfo :=
  match rtwGetStainfo a.stapriv f.attrib.ta with
  | some psta => some psta
  | none =>
    if getFrameType f.rxData = wifiDataType then none else rtwGetStainfo a.stapriv bcAddr

def defragLast (a : Adapter) (macAddr : MacAddr) (defragQ : List RecvFrame) : Defragged :=
  let a := setDefragQ a macAddr []
  match recvframeDefrag defragQ with
  | none => ⟨rtwFreeRecvframeQueue a defragQ, none⟩
  | some prframe => chkmicOrFree crypto (rtwFreeRecvframeQueue a defragQ.tail) prframe

def recvframeChkDefrag (a : Adapter) (f : RecvFrame) : Defragged :=
  if f.attrib.mfrag = false ∧ f.attrib.fragNum = 0 then chkmicOrFree crypto a f
  else if isMcast f.attrib.ra then ⟨rtwFreeRecvframe a f.slot, none⟩
  else
    match defragOwner a f with
    | none => ⟨rtwFreeRecvframe a f.slot, none⟩
    | some psta =>
      let f := { f with keytrack := psta.keytrack }
      if f.attrib.mfrag = false then defragLast crypto a psta.macAddr (psta.defragQ ++ [f])
      else if f.attrib.fragNum = 0 then
        ⟨setDefragQ (rtwFreeRecvframeQueue a psta.defragQ) psta.macAddr [f], none⟩
      else ⟨setDefragQ a psta.macAddr (psta.defragQ ++ [f]), none⟩

end Recv
