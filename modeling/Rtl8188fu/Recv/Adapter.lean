import Rtl8188fu.Recv.ReorderCtrl

namespace Recv

inductive AuthAlgrthm where
  | dot11Open
  | dot11Shared
  | dot118021X
  | dot11Auto
  | dot11Wapi
  deriving DecidableEq, Repr

inductive NdisAuthMode where
  | authOpen
  | authShared
  | autoSwitch
  | wpa
  | wpaPsk
  | wpaNone
  deriving DecidableEq, Repr

structure SecurityPriv where
  dot11AuthAlgrthm : AuthAlgrthm
  dot11PrivacyAlgrthm : SecurityType
  dot118021XGrpPrivacy : SecurityType
  dot118021XGrpKeyid : ℕ
  dot118021XGrpKey : Fin 4 → List UInt8
  dot118021XGrprxmickey : Fin 4 → List UInt8
  binstallGrpkey : Bool
  ivSeq : Fin 4 → BitVec 64
  ndisauthtype : NdisAuthMode
  busetkipkey : Bool
  swDecrypt : Bool
  dot11DefKey : Fin 4 → List UInt8
  binstallBipKey : Bool
  dot11wCipher : SecurityType
  dot11wBipKey : ℕ → List UInt8
  dot11wBipKeyid : ℕ
  dot11wBipRxpn : ℕ

structure StaRxcache where
  tidRxseq : Fin 16 → ℕ
  bmcTidRxseq : Fin 16 → ℕ
  nonqosRxseq : ℕ
  nonqosBmcRxseq : ℕ
  iv : Fin 16 → List UInt8
  lastTid : Fin 16

structure StaInfo where
  macAddr : MacAddr
  mfp : Bool
  amsduDisable : Bool
  dot118021XPrivacy : SecurityType
  dot118021xUncstKey : List UInt8
  dot11tkiprxmickey : List UInt8
  bpairwiseKeyInstalled : Bool
  ieee8021xBlocked : Bool
  keytrack : ℤ
  rxcache : StaRxcache
  defragQ : List RecvFrame
  recvreorderCtrl : Fin 16 → RecvReorderCtrl

structure FwState where
  monitor : Bool
  station : Bool
  ap : Bool
  adhoc : Bool
  asoc : Bool
  underLinking : Bool
  deriving DecidableEq

structure RecvPriv where
  freeRecvQueue : List ℕ
  freeRecvframeCnt : ℤ
  ucSwdecPendingQueue : List RecvFrame

structure Adapter where
  fwState : FwState
  macAddr : MacAddr
  bssid : MacAddr
  securitypriv : SecurityPriv
  stapriv : List StaInfo
  recvpriv : RecvPriv

def SecurityPriv.zero : SecurityPriv where
  dot11AuthAlgrthm := .dot11Open
  dot11PrivacyAlgrthm := .noPrivacy
  dot118021XGrpPrivacy := .noPrivacy
  dot118021XGrpKeyid := 0
  dot118021XGrpKey _ := List.replicate 32 0
  dot118021XGrprxmickey _ := List.replicate 32 0
  binstallGrpkey := false
  ivSeq _ := 0
  ndisauthtype := .authOpen
  busetkipkey := false
  swDecrypt := false
  dot11DefKey _ := List.replicate 32 0
  binstallBipKey := false
  dot11wCipher := .noPrivacy
  dot11wBipKey _ := List.replicate 32 0
  dot11wBipKeyid := 0
  dot11wBipRxpn := 0

def rtwAllocStainfo (hwaddr : MacAddr) : StaInfo where
  macAddr := hwaddr
  mfp := false
  amsduDisable := false
  dot118021XPrivacy := .noPrivacy
  dot118021xUncstKey := List.replicate 32 0
  dot11tkiprxmickey := List.replicate 32 0
  bpairwiseKeyInstalled := false
  ieee8021xBlocked := false
  keytrack := 0
  rxcache := ⟨fun _ => 0xffff, fun _ => 0xffff, 0xffff, 0xffff, fun _ => List.replicate 8 0, 0⟩
  defragQ := []
  recvreorderCtrl _ := RecvReorderCtrl.rtwInitStainfo

def nrRecvframe : ℕ := 256

def rtwInitRecvPriv : RecvPriv where
  freeRecvQueue := List.range nrRecvframe
  freeRecvframeCnt := nrRecvframe
  ucSwdecPendingQueue := []

def bcAddr : MacAddr := Vector.replicate 6 0xff

def hashAddr (hwaddr : MacAddr) : MacAddr := if isMcast hwaddr then bcAddr else hwaddr

def rtwGetStainfo (stapriv : List StaInfo) (hwaddr : MacAddr) : Option StaInfo :=
  stapriv.find? fun psta => psta.macAddr == hashAddr hwaddr

def setStainfo (stapriv : List StaInfo) (psta : StaInfo) : List StaInfo :=
  stapriv.map fun s => if s.macAddr = psta.macAddr then psta else s

theorem macAddr_of_get {stapriv : List StaInfo} {hwaddr : MacAddr} {psta : StaInfo}
    (h : rtwGetStainfo stapriv hwaddr = some psta) : psta.macAddr = hashAddr hwaddr := by
  simpa using List.find?_some h

theorem mem_of_get {stapriv : List StaInfo} {hwaddr : MacAddr} {psta : StaInfo}
    (h : rtwGetStainfo stapriv hwaddr = some psta) : psta ∈ stapriv :=
  List.mem_of_find?_eq_some h

@[simp] theorem map_macAddr_setStainfo (stapriv : List StaInfo) (psta : StaInfo) :
    (setStainfo stapriv psta).map StaInfo.macAddr = stapriv.map StaInfo.macAddr := by
  simp only [setStainfo, List.map_map]
  refine List.map_congr_left fun s _ => ?_
  by_cases h : s.macAddr = psta.macAddr <;> simp [h]

end Recv
