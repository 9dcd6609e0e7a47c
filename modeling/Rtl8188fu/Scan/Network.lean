import Mathlib.Data.List.Basic
import Mathlib.Logic.Function.Basic
import Rtl8188fu.Recv.Frame

namespace Scan

open Recv (MacAddr localAddr)

inductive InfrastructureMode where
  | ibss
  | infrastructure
  | autoUnknown
  | infrastructureMax
  | apMode
  | monitor
  | mesh
deriving DecidableEq

def bssTypeProbReq : ℕ := 1

def bssTypeBcn : ℕ := 2

def bssTypeProbRsp : ℕ := 3

def scanqueueLifetime : ℕ := 20000

structure BssidEx where
  macAddress : MacAddr
  bssType : ℕ
  ssid : List UInt8
  dsConfig : ℕ
  infrastructureMode : InfrastructureMode
  signalStrength : ℕ
  signalQuality : ℕ
  ieLength : ℕ
  ies : ℕ → UInt8

def isAllNull (c : List UInt8) : Bool := c.all (· == 0)

def isHiddenSsid (ssid : List UInt8) : Bool := ssid.length == 0 || isAllNull ssid

namespace BssidEx

def hiddenSsidAp (b : BssidEx) : Bool := isHiddenSsid b.ssid

def capability (b : BssidEx) : BitVec 16 :=
  BitVec.ofNat 16 ((b.ies 10).toNat + 256 * (b.ies 11).toNat)

def capBss (b : BssidEx) : Bool := b.capability.getLsbD 0

def capIbss (b : BssidEx) : Bool := b.capability.getLsbD 1

def ieBytes (b : BssidEx) : List UInt8 := (List.range b.ieLength).map b.ies

def copy (dst src : BssidEx) : BssidEx :=
  { src with ies := fun i => if i < src.ieLength then src.ies i else dst.ies i }

end BssidEx

def sameSsid (src dst : List UInt8) : Bool :=
  if src.length = dst.length ∧ (src = dst ∨ isAllNull src = true ∨ isAllNull dst = true) then true
  else decide (src.length = 0 ∨ dst.length = 0)

def isSameNetwork (src dst : BssidEx) (feature : Bool) : Bool :=
  if feature && src.macAddress == dst.macAddress then true
  else if src.macAddress = dst.macAddress ∧ src.capIbss = dst.capIbss ∧
      src.capBss = dst.capBss then
    sameSsid src.ssid dst.ssid
  else false

structure BcnKeys (κ : Type) where
  ssid : List UInt8
  rest : κ

structure BcnKeyFns (κ : Type) where
  getBcnKeys : List UInt8 → ℕ → BcnKeys κ × Bool
  compare : BcnKeys κ → BcnKeys κ → Bool

def BcnKeyFns.fromBss {κ : Type} (keys : BcnKeyFns κ) (b : BssidEx) : BcnKeys κ × Bool :=
  keys.getBcnKeys b.ieBytes b.dsConfig

structure WlanNetwork (κ : Type) where
  network : BssidEx
  fixed : Bool
  lastScanned : ℕ
  lastNonHiddenSsidAp : ℕ
  bcnKeys : BcnKeys κ
  bcnKeysValid : Bool

structure ScanEnv where
  now : ℕ
  p2p : Bool
  curNetwork : Option BssidEx
  signalStrength : ℕ
  signalQual : ℕ

def updateNetwork (env : ScanEnv) (dst src : BssidEx) (updateIe : Bool) : BssidEx :=
  let asoc := env.curNetwork.any fun cur => isSameNetwork cur src false
  let base := if updateIe then dst.copy src else dst
  let strength :=
    if asoc then env.signalStrength
    else if src.signalQuality ≠ 101 then (src.signalStrength + dst.signalStrength * 4) / 5
    else dst.signalStrength
  let quality :=
    if asoc then env.signalQual
    else if src.signalQuality ≠ 101 then (src.signalQuality + dst.signalQuality * 4) / 5
    else dst.signalQuality
  { base with signalStrength := strength, signalQuality := quality }

theorem sameSsid_comm (a b : List UInt8) : sameSsid a b = sameSsid b a := by
  have hleft : (a.length = b.length ∧ (a = b ∨ isAllNull a = true ∨ isAllNull b = true)) ↔
      (b.length = a.length ∧ (b = a ∨ isAllNull b = true ∨ isAllNull a = true)) := by
    constructor
    · rintro ⟨hlen, hcase⟩
      refine ⟨hlen.symm, ?_⟩
      rcases hcase with heq | hnull | hnull
      · exact .inl heq.symm
      · exact .inr (.inr hnull)
      · exact .inr (.inl hnull)
    · rintro ⟨hlen, hcase⟩
      refine ⟨hlen.symm, ?_⟩
      rcases hcase with heq | hnull | hnull
      · exact .inl heq.symm
      · exact .inr (.inr hnull)
      · exact .inr (.inl hnull)
  have hright : (a.length = 0 ∨ b.length = 0) ↔ (b.length = 0 ∨ a.length = 0) := or_comm
  simp only [sameSsid, hleft, hright]

structure SameKind (a b : BssidEx) : Prop where
  macAddress : a.macAddress = b.macAddress
  capIbss : a.capIbss = b.capIbss
  capBss : a.capBss = b.capBss
  ssid : a.ssid = b.ssid

theorem isSameNetwork_false {a b : BssidEx} :
    isSameNetwork a b false = true ↔ (a.macAddress = b.macAddress ∧ a.capIbss = b.capIbss ∧
      a.capBss = b.capBss) ∧ sameSsid a.ssid b.ssid = true := by
  simp only [isSameNetwork, Bool.false_and, Bool.false_eq_true, if_false]
  cases Decidable.em (a.macAddress = b.macAddress ∧ a.capIbss = b.capIbss ∧
      a.capBss = b.capBss) with
  | inl h => rw [if_pos h, and_iff_right h]
  | inr h => rw [if_neg h, iff_false_left Bool.false_ne_true]; exact fun hc => h hc.1

theorem isSameNetwork_comm (a b : BssidEx) :
    isSameNetwork a b false = isSameNetwork b a false := by
  rw [Bool.eq_iff_iff, isSameNetwork_false, isSameNetwork_false, sameSsid_comm]
  refine and_congr_left fun _ => ⟨fun h => ?_, fun h => ?_⟩
  · exact ⟨h.1.symm, h.2.1.symm, h.2.2.symm⟩
  · exact ⟨h.1.symm, h.2.1.symm, h.2.2.symm⟩

theorem isSameNetwork_congr {a a' b : BssidEx} (h : SameKind a a') :
    isSameNetwork a b false = isSameNetwork a' b false := by
  rw [Bool.eq_iff_iff, isSameNetwork_false, isSameNetwork_false, h.macAddress, h.capIbss,
    h.capBss, h.ssid]

theorem copy_sameKind (dst : BssidEx) {src : BssidEx} (h : 12 ≤ src.ieLength) :
    SameKind (dst.copy src) src := by
  have hcap : (dst.copy src).capability = src.capability := by
    have hten : 10 < src.ieLength := by omega
    have heleven : 11 < src.ieLength := by omega
    simp only [BssidEx.capability, BssidEx.copy, if_pos hten, if_pos heleven]
  exact ⟨rfl, congrArg (BitVec.getLsbD · 1) hcap, congrArg (BitVec.getLsbD · 0) hcap, rfl⟩

theorem copy_fromBss {κ : Type} (keys : BcnKeyFns κ) (dst src : BssidEx) :
    keys.fromBss (dst.copy src) = keys.fromBss src := by
  have hbytes : (dst.copy src).ieBytes = src.ieBytes := by
    refine List.map_congr_left fun i hi => ?_
    exact if_pos (List.mem_range.mp hi)
  exact congrArg (keys.getBcnKeys · src.dsConfig) hbytes

theorem updateNetwork_sameKind {env : ScanEnv} {dst src : BssidEx} (h : 12 ≤ src.ieLength) :
    SameKind (updateNetwork env dst src true) src :=
  have hcopy := copy_sameKind dst h
  ⟨hcopy.macAddress, hcopy.capIbss, hcopy.capBss, hcopy.ssid⟩

theorem updateNetwork_sameKind_old (env : ScanEnv) (dst src : BssidEx) :
    SameKind (updateNetwork env dst src false) dst :=
  ⟨rfl, rfl, rfl, rfl⟩

theorem updateNetwork_macAddress (env : ScanEnv) (dst src : BssidEx) (updateIe : Bool) :
    (updateNetwork env dst src updateIe).macAddress =
      if updateIe then src.macAddress else dst.macAddress := by
  cases updateIe with
  | false => rfl
  | true => rfl

end Scan
