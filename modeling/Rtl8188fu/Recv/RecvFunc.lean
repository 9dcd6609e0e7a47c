import Rtl8188fu.Lib.Run
import Rtl8188fu.Recv.BlockAck
import Rtl8188fu.Recv.Defrag
import Rtl8188fu.Recv.MgmtProtect

namespace Recv

open RecvReorderCtrl

def updateSta (a : Adapter) (macAddr : MacAddr) (g : StaInfo → StaInfo) : Adapter :=
  { a with stapriv := a.stapriv.map fun s => if s.macAddr = macAddr then g s else s }

def StaInfo.setReorderCtrl (tid : Fin 16) (c : RecvReorderCtrl) (psta : StaInfo) : StaInfo :=
  { psta with recvreorderCtrl := Function.update psta.recvreorderCtrl tid c }

def preorderCtrlOf (a : Adapter) (f : RecvFrame) : Option (MacAddr × Fin 16 × RecvReorderCtrl) :=
  match f.psta, f.preorderCtrl with
  | some macAddr, some tid =>
    (a.stapriv.find? fun s => s.macAddr == macAddr).map fun psta =>
      (macAddr, tid, psta.recvreorderCtrl tid)
  | _, _ => none

def portctrl (a : Adapter) (f : RecvFrame) : Bool :=
  if a.securitypriv.dot11AuthAlgrthm = .dot118021X then
    match rtwGetStainfo a.stapriv f.attrib.ta with
    | some psta => if psta.ieee8021xBlocked then f.etherType == eapolType else true
    | none => true
  else true

def recvProcessMpdu (a : Adapter) (f : RecvFrame) : Adapter := rtwFreeRecvframe a f.slot

def indicateOne (a : Adapter) (f : RecvFrame) (seqNum : ℕ) : Adapter :=
  match preorderCtrlOf a f with
  | none => recvProcessMpdu a f
  | some (macAddr, tid, c) =>
    let c := c.recvSetIseqBefore seqNum
    let a := recvProcessMpdu (updateSta a macAddr (StaInfo.setReorderCtrl tid c)) f
    match preorderCtrlOf a f with
    | none => a
    | some (macAddr, tid, c) => updateSta a macAddr (StaInfo.setReorderCtrl tid c.recvSetIseqAfter)

def reorderAndIndicate (a : Adapter) (orig f : RecvFrame) : Adapter :=
  match preorderCtrlOf a f with
  | none => indicateOne a f orig.attrib.seqNum
  | some (macAddr, tid, c) =>
    let r := c.recvIndicatepktReorder f
    let a := r.indicated.foldl recvProcessMpdu
      (updateSta a macAddr (StaInfo.setReorderCtrl tid r.ctrl))
    match r.ret with
    | .fail => rtwFreeRecvframe a orig.slot
    | .handled => a
    | .success => indicateOne a f orig.attrib.seqNum

variable (crypto : Crypto)

def passOn (orig : RecvFrame) (d : Defragged) : Adapter :=
  match d.frame with
  | none => d.adapter
  | some f =>
    if portctrl d.adapter f then reorderAndIndicate d.adapter orig f
    else rtwFreeRecvframe d.adapter f.slot

def recvFuncPosthandle (a : Adapter) (orig : RecvFrame) : Adapter :=
  match decryptor crypto a orig with
  | none => rtwFreeRecvframe a orig.slot
  | some f => passOn orig (recvframeChkDefrag crypto a f)

def checkMgnt (a : Adapter) (f : RecvFrame) : MgmtChecked :=
  let psta := rtwGetStainfo a.stapriv (macAt f.rxData 10)
  validateMgmtProtect crypto a psta { f with psta := psta.map StaInfo.macAddr }

def validateRecvMgntFrame (a : Adapter) (f : RecvFrame) : Adapter :=
  let c := checkMgnt crypto a f
  if c.pass then (recvframeChkDefrag crypto c.adapter c.frame).adapter
  else if c.freed then rtwFreeRecvframe c.adapter f.slot
  else c.adapter

structure Prehandled where
  adapter : Adapter
  frame : Option RecvFrame

def recvFuncPrehandle (a : Adapter) (f : RecvFrame) : Prehandled :=
  let ptr := f.rxData
  if frameControl ptr % 4 ≠ 0 then ⟨rtwFreeRecvframe a f.slot, none⟩
  else
    let f := { f with attrib := f.attrib.ofHeader ptr }
    if getFrameType ptr = wifiMgtType then
      ⟨rtwFreeRecvframe (validateRecvMgntFrame crypto a f) f.slot, none⟩
    else if getFrameType ptr = wifiDataType then
      let f := { f with attrib := { f.attrib with qos := bitAt (getFrameSubType ptr) 7 } }
      let v := validateRecvDataFrame a f
      if v.ret = .success then ⟨v.adapter, some v.frame⟩
      else ⟨rtwFreeRecvframe v.adapter f.slot, none⟩
    else ⟨rtwFreeRecvframe a f.slot, none⟩

def toSwdecPending (a : Adapter) (f : RecvFrame) : Bool :=
  a.fwState.station && !isMcast f.attrib.ra && f.attrib.encrypt != .noPrivacy &&
    (!f.attrib.bdecrypted || a.securitypriv.swDecrypt) &&
    a.securitypriv.ndisauthtype == .wpaPsk && !a.securitypriv.busetkipkey

def enqueueSwdec (a : Adapter) (f : RecvFrame) : Adapter :=
  { a with recvpriv := { a.recvpriv with
      ucSwdecPendingQueue := a.recvpriv.ucSwdecPendingQueue ++ [f] } }

def posthandlePending (a : Adapter) : Adapter :=
  match a.recvpriv.ucSwdecPendingQueue with
  | [] => a
  | f :: rest =>
    recvFuncPosthandle crypto
      { a with recvpriv := { a.recvpriv with ucSwdecPendingQueue := rest } } f

def recvFuncFrame (a : Adapter) (f : RecvFrame) : Adapter :=
  match recvFuncPrehandle crypto a f with
  | ⟨a, none⟩ => a
  | ⟨a, some f⟩ =>
    if toSwdecPending a f then
      let a := enqueueSwdec a f
      if a.recvpriv.freeRecvframeCnt < nrRecvframe / 4 then posthandlePending crypto a else a
    else recvFuncPosthandle crypto a f

def drainPending (a : Adapter) : ℕ → Adapter
  | 0 => a
  | n + 1 => drainPending (posthandlePending crypto a) n

def pendingCount (a : Adapter) : ℕ :=
  if a.fwState.station && a.securitypriv.busetkipkey then
    a.recvpriv.ucSwdecPendingQueue.length
  else 0

def recvFunc (a : Adapter) (f : RecvFrame) : Adapter :=
  if a.fwState.monitor then rtwFreeRecvframe a f.slot
  else recvFuncFrame crypto (drainPending crypto a (pendingCount a)) f

end Recv
