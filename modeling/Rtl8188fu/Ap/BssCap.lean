import Rtl8188fu.Lib.Latches
import Rtl8188fu.Recv.Frame

namespace Ap

open Recv (MacAddr)

inductive BssCond where
  | noShortPreamble
  | nonErp
  | noShortSlotTime
  | noHt
  | htNoGf
  | ht20mhz
  | fortyMhzIntolerant
  deriving DecidableEq, Repr

def wlanStaShortPreamble : UInt32 := 0x00000080
def wlanStaHt : UInt32 := 0x00000800
def wlanStaNonerp : UInt32 := 0x80000000
def wlanCapabilityShortSlot : UInt16 := 0x0400
def htCapSupWidth : UInt16 := 0x0002
def htCapGrnFld : UInt16 := 0x0010
def htCap40mhzIntolerant : UInt16 := 0x4000

def erpInfoNonErpPresent : UInt8 := 0x01
def erpInfoUseProtection : UInt8 := 0x02
def erpInfoBarkerPreambleMode : UInt8 := 0x04

def opModePure : UInt16 := 0
def opModeMayBeLegacyStas : UInt16 := 1
def opMode20mhzHtStaAssoced : UInt16 := 2
def opModeMixed : UInt16 := 3
def htInfoOpModeMask : UInt16 := 0x0003
def htInfoNonGfDevsPresent : UInt16 := 0x0004
def htInfoNonHtStaPresent : UInt16 := 0x0010

def wireless11b : UInt8 := 0x01
def htMask : UInt8 := 0x08 ||| 0x10 ||| 0x20

def channelWidth40 : UInt8 := 1
def halPrimeChnlOffsetLower : UInt8 := 1
def htInfoSecondaryChnlAbove : UInt8 := 1
def htInfoSecondaryChnlBelow : UInt8 := 3

def isSupportedHt (wirelessMode : UInt8) : Bool := wirelessMode &&& htMask != 0

structure StaCap where
  flags : UInt32
  capability : UInt16
  htCapInfo : UInt16
  deriving DecidableEq, Repr

structure BssCfg where
  bstartBss : Bool
  curWirelessMode : UInt8
  curChannel : UInt8
  curBwmode : UInt8
  curChOffset : UInt8
  registryHtEnable : Bool
  registryWirelessMode : UInt8
  htOption : Bool
  htCapInfo : UInt16
  htInfoEnable : Bool
  erpEnable : Bool
  olbc : Bool
  olbcHt : Bool
  ht20mhzWidthReq : Bool
  htIntolerantChReported : Bool
  supported : htOption = true → (registryHtEnable && isSupportedHt registryWirelessMode) = true

structure HtInfoElement where
  infos0 : UInt8
  opMode : UInt16
  deriving DecidableEq, Repr

structure BcnIes where
  erp : Option UInt8
  htInfo : Option HtInfoElement
  deriving DecidableEq, Repr

structure Bss where
  htOpMode : UInt16
  swTo20mhz : Bool
  ies : BcnIes
  onAir : BcnIes
  deriving DecidableEq, Repr

def secondChlOffset (infos0 val : UInt8) : UInt8 := infos0 &&& 0xfc ||| val &&& 0x03

def staChlWidth (infos0 val : UInt8) : UInt8 := infos0 &&& 0xfb ||| (val &&& (0x01 : UInt8)) <<< (2 : UInt8)

def erpInfo (num : BssCond → ℤ) (erp : UInt8) : UInt8 :=
  let erp :=
    if num .nonErp = 1 then erp ||| (erpInfoNonErpPresent ||| erpInfoUseProtection)
    else erp &&& ~~~(erpInfoNonErpPresent ||| erpInfoUseProtection)
  if num .noShortPreamble > 0 then erp ||| erpInfoBarkerPreambleMode
  else erp &&& ~~~erpInfoBarkerPreambleMode

def updateBcnErpinfoIe (cfg : BssCfg) (num : BssCond → ℤ) (bss : Bss) : Bss :=
  if cfg.erpEnable then { bss with ies.erp := bss.ies.erp.map (erpInfo num) } else bss

def narrows (cfg : BssCfg) (num : BssCond → ℤ) : Bool :=
  decide (num .fortyMhzIntolerant > 0) || cfg.ht20mhzWidthReq || cfg.htIntolerantChReported ||
    cfg.olbc

def widens (cfg : BssCfg) (num : BssCond → ℤ) : Bool :=
  decide (num .fortyMhzIntolerant = 0) && !cfg.ht20mhzWidthReq && !cfg.htIntolerantChReported &&
    !cfg.olbc

def htChlWidth (cfg : BssCfg) (num : BssCond → ℤ) (swTo20mhz : Bool) (infos0 : UInt8) :
    Bool × UInt8 :=
  if !swTo20mhz && cfg.curChannel ≤ 14 then
    if narrows cfg num then (true, staChlWidth (secondChlOffset infos0 0) 0) else (swTo20mhz, infos0)
  else if widens cfg num && channelWidth40 ≤ cfg.curBwmode then
    (false, secondChlOffset (staChlWidth infos0 1)
      (if cfg.curChOffset = halPrimeChnlOffsetLower then htInfoSecondaryChnlAbove
        else htInfoSecondaryChnlBelow))
  else (swTo20mhz, infos0)

def updateBcnHtinfoIe (cfg : BssCfg) (num : BssCond → ℤ) (bss : Bss) : Bss :=
  if cfg.htOption && cfg.htInfoEnable then
    match bss.ies.htInfo with
    | none => bss
    | some htInfo =>
      let (swTo20mhz, infos0) := htChlWidth cfg num bss.swTo20mhz htInfo.infos0
      { bss with
        swTo20mhz := swTo20mhz
        ies.htInfo := some ⟨infos0, bss.htOpMode⟩ }
  else bss

inductive BcnIe where
  | tim
  | erpinfo
  | htCapability
  | htAddInfo
  | all
  deriving DecidableEq, Repr

def updateBcnIe (cfg : BssCfg) (num : BssCond → ℤ) : BcnIe → Bss → Bss
  | .erpinfo => updateBcnErpinfoIe cfg num
  | .htAddInfo => updateBcnHtinfoIe cfg num
  | .tim | .htCapability | .all => id

def updateBeacon (cfg : BssCfg) (num : BssCond → ℤ) (ieId : BcnIe) (tx : Bool) (bss : Bss) : Bss :=
  if cfg.bstartBss then
    let bss := updateBcnIe cfg num ieId bss
    if tx then { bss with onAir := bss.ies } else bss
  else bss

def newOpMode (cfg : BssCfg) (num : BssCond → ℤ) : UInt16 :=
  if num .noHt ≠ 0 then opModeMixed
  else if cfg.htCapInfo &&& htCapSupWidth ≠ 0 ∧ num .ht20mhz ≠ 0 then opMode20mhzHtStaAssoced
  else if cfg.olbcHt then opModeMayBeLegacyStas
  else opModePure

structure OpModeUpdate where
  htOpMode : UInt16
  changes : ℕ

def OpModeUpdate.flag (bit : UInt16) (present : Bool) (u : OpModeUpdate) : OpModeUpdate :=
  if u.htOpMode &&& bit = 0 ∧ present = true then ⟨u.htOpMode ||| bit, u.changes + 1⟩
  else if u.htOpMode &&& bit ≠ 0 ∧ present = false then ⟨u.htOpMode &&& ~~~bit, u.changes + 1⟩
  else u

def OpModeUpdate.mode (mode : UInt16) (u : OpModeUpdate) : OpModeUpdate :=
  if u.htOpMode &&& htInfoOpModeMask ≠ mode then
    ⟨u.htOpMode &&& ~~~htInfoOpModeMask ||| mode, u.changes + 1⟩
  else u

def rtwHtOperationUpdate (cfg : BssCfg) (num : BssCond → ℤ) (htOpMode : UInt16) : OpModeUpdate :=
  if cfg.htOption then
    (((OpModeUpdate.mk htOpMode 0).flag htInfoNonGfDevsPresent (decide (num .htNoGf ≠ 0))).flag
      htInfoNonHtStaPresent (decide (num .noHt ≠ 0) || cfg.olbcHt)).mode (newOpMode cfg num)
  else ⟨htOpMode, 0⟩

structure CapUpdate where
  latches : Latches BssCond
  bss : Bss
  beaconUpdated : Bool

namespace CapUpdate

variable (cfg : BssCfg)

def touch (u : CapUpdate) : CapUpdate :=
  if cfg.curWirelessMode > wireless11b then { u with beaconUpdated := true } else u

def touchErp (u : CapUpdate) : CapUpdate :=
  { u with
    bss := updateBeacon cfg u.latches.num .erpinfo false u.bss
    beaconUpdated := true }

def raise (c : BssCond) (u : CapUpdate) : CapUpdate :=
  if u.latches.set c then u else { u with latches := u.latches.raise c }

def lower (c : BssCond) (u : CapUpdate) : CapUpdate :=
  if u.latches.set c then { u with latches := u.latches.lower c } else u

def lowerWarned (c : BssCond) (u : CapUpdate) : CapUpdate :=
  if u.latches.set c then
    if u.latches.num c > 0 then { u with latches := u.latches.lower c }
    else { u with latches := { u.latches with set := Function.update u.latches.set c false } }
  else u

def capRaise (c : BssCond) (onEdge : CapUpdate → CapUpdate) (u : CapUpdate) : CapUpdate :=
  if u.latches.set c then u
  else
    let u := { u with latches := u.latches.raise c }
    if u.latches.num c = 1 then onEdge u else u

def capLower (c : BssCond) (onEdge : CapUpdate → CapUpdate) (u : CapUpdate) : CapUpdate :=
  if u.latches.set c then
    let u := { u with latches := u.latches.lower c }
    if u.latches.num c = 0 then onEdge u else u
  else u

def capJoin (c : BssCond) (lacks : Bool) (onEdge : CapUpdate → CapUpdate) (u : CapUpdate) :
    CapUpdate :=
  if lacks then u.capRaise c onEdge else u.capLower c onEdge

def htOperation (beaconUpdated : Bool) (u : CapUpdate) : CapUpdate :=
  let r := rtwHtOperationUpdate cfg u.latches.num u.bss.htOpMode
  let bss := { u.bss with htOpMode := r.htOpMode }
  if r.changes > 0 then
    { u with
      bss := updateBeacon cfg u.latches.num .htAddInfo false
        (updateBeacon cfg u.latches.num .htCapability false bss)
      beaconUpdated := u.beaconUpdated || beaconUpdated }
  else { u with bss := bss }

def htLatches (cap : StaCap) (u : CapUpdate) : CapUpdate :=
  if cap.flags &&& wlanStaHt ≠ 0 then
    let u := u.lower .noHt
    let u := if cap.htCapInfo &&& htCapGrnFld = 0 then u.raise .htNoGf else u
    let u := if cap.htCapInfo &&& htCapSupWidth = 0 then u.raise .ht20mhz else u
    if cap.htCapInfo &&& htCap40mhzIntolerant ≠ 0 then u.raise .fortyMhzIntolerant else u
  else u.raise .noHt

def htJoin (cap : StaCap) (u : CapUpdate) : CapUpdate :=
  if cfg.registryHtEnable && isSupportedHt cfg.registryWirelessMode then
    (u.htLatches cap).htOperation cfg true
  else u

def transmit (u : CapUpdate) : CapUpdate :=
  if u.beaconUpdated then { u with bss := updateBeacon cfg u.latches.num .all true u.bss } else u

end CapUpdate

def bssCapUpdateOnStaJoin (cfg : BssCfg) (cap : StaCap) (latches : Latches BssCond) (bss : Bss) :
    CapUpdate :=
  let u : CapUpdate := ⟨latches, bss, false⟩
  let u := u.capJoin .noShortPreamble (cap.flags &&& wlanStaShortPreamble = 0) (.touch cfg)
  let u := u.capJoin .nonErp (cap.flags &&& wlanStaNonerp ≠ 0) (.touchErp cfg)
  let u := u.capJoin .noShortSlotTime (cap.capability &&& wlanCapabilityShortSlot = 0) (.touch cfg)
  (u.htJoin cfg cap).transmit cfg

def bssCapUpdateOnStaLeave (cfg : BssCfg) (timSet : Bool) (latches : Latches BssCond) (bss : Bss) :
    CapUpdate :=
  let bss := if timSet then updateBeacon cfg latches.num .tim false bss else bss
  let u : CapUpdate := ⟨latches, bss, timSet⟩
  let u := u.capLower .noShortPreamble (.touch cfg)
  let u := u.capLower .nonErp (.touchErp cfg)
  let u := u.capLower .noShortSlotTime (.touch cfg)
  let u := (((u.lower .htNoGf).lower .noHt).lower .ht20mhz).lowerWarned .fortyMhzIntolerant
  (u.htOperation cfg false).transmit cfg

structure BssSta where
  mac : MacAddr
  cap : StaCap
  set : BssCond → Bool

structure ApState where
  num : BssCond → ℤ
  bss : Bss
  stas : List BssSta

inductive ApEvent where
  | join (mac : MacAddr) (cap : StaCap)
  | leave (mac : MacAddr) (timSet : Bool)

namespace ApState

def lookup (s : ApState) (mac : MacAddr) : Option BssSta := s.stas.find? fun sta => sta.mac = mac

def without (s : ApState) (mac : MacAddr) : List BssSta := s.stas.filter fun sta => sta.mac ≠ mac

def latchesOf (s : ApState) (mac : MacAddr) : Latches BssCond :=
  ⟨s.num, fun c => (s.lookup mac).any (·.set c)⟩

def staJoin (cfg : BssCfg) (s : ApState) (mac : MacAddr) (cap : StaCap) : ApState :=
  let u := bssCapUpdateOnStaJoin cfg cap (s.latchesOf mac) s.bss
  ⟨u.latches.num, u.bss, ⟨mac, cap, u.latches.set⟩ :: s.without mac⟩

def staLeave (cfg : BssCfg) (s : ApState) (mac : MacAddr) (timSet : Bool) : ApState :=
  if (s.lookup mac).isSome then
    let u := bssCapUpdateOnStaLeave cfg timSet (s.latchesOf mac) s.bss
    ⟨u.latches.num, u.bss, s.without mac⟩
  else s

def step (cfg : BssCfg) (s : ApState) : ApEvent → ApState
  | .join mac cap => s.staJoin cfg mac cap
  | .leave mac timSet => s.staLeave cfg mac timSet

end ApState

end Ap
