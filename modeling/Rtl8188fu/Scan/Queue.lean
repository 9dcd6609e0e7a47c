import Mathlib.Data.List.Perm.Basic
import Mathlib.Data.List.Range
import Mathlib.Data.BitVec
import Rtl8188fu.Lib.Run
import Rtl8188fu.Scan.Network

namespace Scan

variable {κ : Type}

structure MlmePriv (κ : Type) where
  freeBssPool : List ℕ
  scannedQueue : List ℕ
  numOfScanned : BitVec 32
  nets : ℕ → WlanNetwork κ

namespace MlmePriv

def setNet (m : MlmePriv κ) (p : ℕ) (w : WlanNetwork κ) : MlmePriv κ :=
  { m with nets := Function.update m.nets p w }

def rtwAllocNetwork (m : MlmePriv κ) (now : ℕ) : MlmePriv κ × Option ℕ :=
  match m.freeBssPool with
  | [] => (m, none)
  | p :: rest =>
    ({ m.setNet p { m.nets p with fixed := false, lastScanned := now, lastNonHiddenSsidAp := now } with
        freeBssPool := rest
        numOfScanned := m.numOfScanned + 1 }, some p)

def dropNetwork (m : MlmePriv κ) (p : ℕ) : MlmePriv κ :=
  { m with
    freeBssPool := m.freeBssPool.filter (· != p) ++ [p]
    scannedQueue := m.scannedQueue.filter (· != p)
    numOfScanned := m.numOfScanned - 1 }

def freeLifetime (adhoc : Bool) : ℕ := if adhoc then 1 else scanqueueLifetime

def rtwFreeNetwork (m : MlmePriv κ) (now : ℕ) (adhoc isfreeall : Bool) (p : ℕ) : MlmePriv κ :=
  if (m.nets p).fixed then m
  else if isfreeall = false ∧ now - (m.nets p).lastScanned < freeLifetime adhoc then m
  else m.dropNetwork p

def rtwFreeNetworkNolock (m : MlmePriv κ) (p : ℕ) : MlmePriv κ :=
  if (m.nets p).fixed then m else m.dropNetwork p

def rtwFreeNetworkQueue (m : MlmePriv κ) (now : ℕ) (adhoc isfreeall : Bool) : MlmePriv κ :=
  m.scannedQueue.foldl (fun m p => m.rtwFreeNetwork now adhoc isfreeall p) m

def freeScanqueue (m : MlmePriv κ) : MlmePriv κ :=
  m.scannedQueue.foldl dropNetwork m

def matchesTarget (p2p : Bool) (net target : BssidEx) : Bool :=
  if p2p && net.macAddress == target.macAddress then true else isSameNetwork net target p2p

def weaker (nets : ℕ → WlanNetwork κ) (choice : Option ℕ) (p : ℕ) : Option ℕ :=
  match choice with
  | none => some p
  | some c =>
    if (nets p).network.signalStrength < (nets c).network.signalStrength then some p else some c

def searchLoop (p2p : Bool) (nets : ℕ → WlanNetwork κ) (target : BssidEx) :
    List ℕ → Option ℕ → Option ℕ × Option ℕ
  | [], choice => (none, choice)
  | p :: ps, choice =>
    if matchesTarget p2p (nets p).network target then (some p, choice)
    else if (nets p).fixed then searchLoop p2p nets target ps choice
    else searchLoop p2p nets target ps (weaker nets choice p)

variable (keys : BcnKeyFns κ)

def isFramed (target : BssidEx) : Bool :=
  decide (target.bssType = bssTypeBcn ∨ target.bssType = bssTypeProbRsp)

def storeTarget (w : WlanNetwork κ) (target : BssidEx) : WlanNetwork κ :=
  let network := w.network.copy target
  let w := { w with network := network, bcnKeysValid := false }
  if isFramed target then
    { w with bcnKeys := (keys.fromBss network).1, bcnKeysValid := (keys.fromBss network).2 }
  else w

def dropWrongChannel (w : WlanNetwork κ) : WlanNetwork κ :=
  if w.network.signalQuality = 101 then
    { w with network := { w.network with signalQuality := 0 } }
  else w

def replaceNet (env : ScanEnv) (w : WlanNetwork κ) (target : BssidEx) : WlanNetwork κ :=
  dropWrongChannel { storeTarget keys w target with
    fixed := false, lastScanned := env.now, lastNonHiddenSsidAp := env.now }

def lastVisible (env : ScanEnv) (w : WlanNetwork κ) (target : BssidEx) : ℕ :=
  if isFramed target && (target.infrastructureMode == .infrastructure) &&
      !target.hiddenSsidAp then
    env.now
  else w.lastNonHiddenSsidAp

def renewsIe (env : ScanEnv) (w : WlanNetwork κ) (target : BssidEx) : Prop :=
  target.infrastructureMode = .mesh ∨ w.network.bssType ≤ target.bssType ∨
    target.infrastructureMode = .infrastructure ∧ w.fixed = false ∧
      scanqueueLifetime < env.now - lastVisible env w target

instance (env : ScanEnv) (w : WlanNetwork κ) (target : BssidEx) :
    Decidable (renewsIe env w target) :=
  inferInstanceAs (Decidable (_ ∨ _ ∨ _ ∧ _ ∧ _))

def keysParsed (target : BssidEx) : Bool := isFramed target && (keys.fromBss target).2

structure Refresh (κ : Type) where
  keys : BcnKeys κ
  updateIe : Bool

def refresh (env : ScanEnv) (w : WlanNetwork κ) (target : BssidEx) : Refresh κ :=
  let parsed := (keys.fromBss target).1
  if renewsIe env w target then ⟨parsed, true⟩
  else if keysParsed keys target then
    let parsed := if isHiddenSsid parsed.ssid then { parsed with ssid := w.bcnKeys.ssid }
      else parsed
    ⟨parsed, !keys.compare w.bcnKeys parsed⟩
  else ⟨parsed, false⟩

def updateNet (env : ScanEnv) (w : WlanNetwork κ) (target : BssidEx) : WlanNetwork κ :=
  let r := refresh keys env w target
  let valid := keysParsed keys target
  { w with
    lastScanned := env.now
    lastNonHiddenSsidAp := lastVisible env w target
    bcnKeys := if valid then r.keys else w.bcnKeys
    bcnKeysValid := if valid then true else if r.updateIe then false else w.bcnKeysValid
    network := updateNetwork env w.network target r.updateIe }

def rtwUpdateScannedNetwork (env : ScanEnv) (m : MlmePriv κ) (target : BssidEx) : MlmePriv κ :=
  match searchLoop env.p2p m.nets target m.scannedQueue none with
  | (some p, _) => m.setNet p (updateNet keys env (m.nets p) target)
  | (none, choice) =>
    match m.freeBssPool with
    | [] =>
      match choice with
      | none => m
      | some p => m.setNet p (replaceNet keys env (m.nets p) target)
    | _ :: _ =>
      match m.rtwAllocNetwork env.now with
      | (m, none) => m
      | (m, some p) =>
        { m.setNet p (dropWrongChannel (storeTarget keys (m.nets p) target)) with
          scannedQueue := m.scannedQueue ++ [p] }

end MlmePriv

end Scan
