import Rtl8188fu.Recv.RecvFunc

namespace Recv

structure RxPacket where
  attrib : RxPktAttrib
  data : List UInt8
  spare : List UInt8
  normalRx : Bool
  whole : Bool
  copied : Bool

def RxPacket.frame (p : RxPacket) (slot : ℕ) : RecvFrame :=
  { rtwInitRecvframe slot with attrib := p.attrib, data := p.data, spare := p.spare }

def adapterAllowBmcDataRx (a : Adapter) : Bool :=
  a.fwState.monitor || !a.fwState.ap && a.fwState.asoc

def dropsEarly (a : Adapter) (p : RxPacket) : Bool :=
  let pbuf := p.data ++ p.spare
  p.attrib.crcErr || p.attrib.icvErr || !p.whole || !p.copied || !p.normalRx ||
    !a.fwState.monitor &&
      if isMcast (macAt pbuf 4) then
        getFrameType pbuf == wifiDataType && !adapterAllowBmcDataRx a
      else macAt pbuf 4 != a.macAddr

def freeStainfo (a : Adapter) (psta : StaInfo) : Adapter :=
  let pending := (List.finRange 16).flatMap fun tid =>
    (psta.recvreorderCtrl tid).pendingRecvframeQueue
  let a := rtwFreeRecvframeQueue a (pending ++ psta.defragQ)
  { a with stapriv := a.stapriv.filter fun s => s.macAddr != psta.macAddr }

def StaInfo.configure (new psta : StaInfo) : StaInfo :=
  { psta with
    mfp := new.mfp
    amsduDisable := new.amsduDisable
    dot118021XPrivacy := new.dot118021XPrivacy
    dot11tkiprxmickey := new.dot11tkiprxmickey
    bpairwiseKeyInstalled := new.bpairwiseKeyInstalled
    ieee8021xBlocked := new.ieee8021xBlocked }

def StaInfo.setStakey (key : List UInt8) (psta : StaInfo) : StaInfo :=
  { psta with dot118021xUncstKey := key, keytrack := psta.keytrack + 1 }

def StaInfo.setSession (tid : Fin 16) (c : RecvReorderCtrl) (psta : StaInfo) : StaInfo :=
  psta.setReorderCtrl tid
    { c with pendingRecvframeQueue := (psta.recvreorderCtrl tid).pendingRecvframeQueue }

inductive Event where
  | arrive (p : RxPacket)
  | pending
  | handle
  | timeout (macAddr : MacAddr) (tid : Fin 16) (cannotRun : Bool)
  | allocStainfo (macAddr : MacAddr)
  | freeStainfo (macAddr : MacAddr)
  | freeSwdecPending
  | setStakey (macAddr : MacAddr) (key : List UInt8)
  | configure (psta : StaInfo)
  | session (macAddr : MacAddr) (tid : Fin 16) (c : RecvReorderCtrl)
  | security (sec : SecurityPriv)
  | mlme (fwState : FwState) (bssid : MacAddr)

structure RxState where
  adapter : Adapter
  inHand : Option RecvFrame

variable (crypto : Crypto)

def arrive (s : RxState) (p : RxPacket) : RxState :=
  match s.inHand with
  | some _ => s
  | none =>
    match rtwAllocRecvframe s.adapter with
    | none => s
    | some (slot, a) =>
      if dropsEarly a p then ⟨rtwFreeRecvframe a slot, none⟩ else ⟨a, some (p.frame slot)⟩

def handle (s : RxState) : RxState :=
  match s.inHand with
  | none => s
  | some f =>
    if s.adapter.fwState.monitor then ⟨rtwFreeRecvframe s.adapter f.slot, none⟩
    else ⟨recvFuncFrame crypto s.adapter f, none⟩

def timeout (a : Adapter) (macAddr : MacAddr) (tid : Fin 16) (cannotRun : Bool) : Adapter :=
  match a.stapriv.find? fun s => s.macAddr == macAddr with
  | none => a
  | some psta =>
    let r := (psta.recvreorderCtrl tid).rtwReorderingCtrlTimeoutHandler cannotRun
    r.2.foldl recvProcessMpdu (updateSta a macAddr (StaInfo.setReorderCtrl tid r.1))

def step (s : RxState) : Event → RxState
  | .arrive p => arrive s p
  | .pending => { s with adapter := posthandlePending crypto s.adapter }
  | .handle => handle crypto s
  | .timeout macAddr tid cannotRun => { s with adapter := timeout s.adapter macAddr tid cannotRun }
  | .allocStainfo macAddr =>
    if s.adapter.stapriv.any fun psta => psta.macAddr == macAddr then s
    else { s with adapter := { s.adapter with
        stapriv := s.adapter.stapriv ++ [rtwAllocStainfo macAddr] } }
  | .freeStainfo macAddr =>
    match s.adapter.stapriv.find? fun psta => psta.macAddr == macAddr with
    | none => s
    | some psta => { s with adapter := freeStainfo s.adapter psta }
  | .freeSwdecPending =>
    { s with adapter :=
        rtwFreeRecvframeQueue s.adapter s.adapter.recvpriv.ucSwdecPendingQueue }
  | .setStakey macAddr key =>
    { s with adapter := updateSta s.adapter macAddr (StaInfo.setStakey key) }
  | .configure psta => { s with adapter := updateSta s.adapter psta.macAddr psta.configure }
  | .session macAddr tid c =>
    { s with adapter := updateSta s.adapter macAddr (StaInfo.setSession tid c) }
  | .security sec => { s with adapter := { s.adapter with securitypriv := sec } }
  | .mlme fwState bssid =>
    { s with adapter := { s.adapter with fwState := fwState, bssid := bssid } }

def start (fwState : FwState) (macAddr bssid : MacAddr) (sec : SecurityPriv) : RxState where
  adapter := {
    fwState := fwState
    macAddr := macAddr
    bssid := bssid
    securitypriv := sec
    stapriv := []
    recvpriv := rtwInitRecvPriv }
  inHand := none

def recvbuf2recvframe (a : Adapter) (p : RxPacket) : Adapter :=
  match rtwAllocRecvframe a with
  | none => a
  | some (slot, a) =>
    if dropsEarly a p then rtwFreeRecvframe a slot else recvFunc crypto a (p.frame slot)

theorem exec_pending (s : RxState) (n : ℕ) :
    Run.exec (step crypto) s (List.replicate n .pending) =
      { s with adapter := drainPending crypto s.adapter n } := by
  induction n generalizing s with
  | zero => rfl
  | succ n ih =>
    rw [List.replicate_succ, Run.exec_cons, ih]
    rfl

end Recv
