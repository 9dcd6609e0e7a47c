import Mathlib.Data.Int.Notation
import Rtl8188fu.Lib.BoundedMemory
import Rtl8188fu.Lib.Widths

namespace Ez

open BoundedMemory

structure EzProbe where
  element : UInt8
  elementLen : UInt8
  sync : Vector UInt8 5
  id : UInt16
  len : UInt8
  value : Vector UInt8 32
  deriving DecidableEq

structure EzScanCmd where
  cmd : UInt8
  len : UInt8
  value : Vector UInt8 32
  deriving DecidableEq

def u16Of (low high : UInt8) : UInt16 := low.toUInt16 ||| (high.toUInt16 <<< 8)

namespace EzProbe

def zero : EzProbe := ⟨0, 0, Vector.replicate 5 0, 0, 0, Vector.replicate 32 0⟩

def bytes (p : EzProbe) : Vector UInt8 42 :=
  #v[p.element, p.elementLen] ++ p.sync ++ #v[p.id.toUInt8, (p.id >>> 8).toUInt8, p.len] ++ p.value

def copied (mem : List UInt8) (offset : ℕ) : EzProbe where
  element := mem.getD offset 0
  elementLen := mem.getD (offset + 1) 0
  sync := Vector.ofFn fun i => mem.getD (offset + 2 + i) 0
  id := u16Of (mem.getD (offset + 7) 0) (mem.getD (offset + 8) 0)
  len := mem.getD (offset + 9) 0
  value := Vector.ofFn fun i => mem.getD (offset + 10 + i) 0

end EzProbe

inductive Buffer where
  | respValue
  | reqValue
  | cmdValue
  | deviceInfo
  deriving DecidableEq, Repr

def Buffer.size : Buffer → ℕ
  | .respValue => 32
  | .reqValue => 32
  | .cmdValue => 32
  | .deviceInfo => 41

structure EzState where
  probeResp : EzProbe
  probeReq : EzProbe
  deviceInfo : Vector UInt8 41
  errStatus : UInt8
  vendorIe : List UInt8
  vendorIelen : ℕ
  vendorIeMask : ℕ

def EzState.init : EzState :=
  ⟨.zero, .zero, Vector.replicate 41 0, 0, [], 0, 0⟩

structure Outside where
  resp : ℕ → UInt8
  req : ℕ → UInt8
  cmd : ℕ → UInt8
  reason : ℕ → UInt8

def printed (v : Vector UInt8 32) : ℕ := terminatorReach v 0

def rtwEzvizIeSet (s : EzState) (mask : ℕ) (ie : ℕ → UInt8) (ielen : ℕ) : EzState :=
  if mask = 0 then { s with vendorIe := [], vendorIelen := 0, vendorIeMask := 0 }
  else
    { s with vendorIe := (List.range ielen).map ie, vendorIelen := ielen, vendorIeMask := mask }

def syncCode : List UInt8 := [0x45, 0x5A, 0x56, 0x49, 0x5A]

def syncAt (buf : List UInt8) (i : ℕ) : Bool :=
  buf.getD i 0 == 208 && (List.range 5).all fun k => buf.getD (i + 2 + k) 0 == syncCode.getD k 0

def checkProbeSyncEid208 (buf : List UInt8) (len : ℕ) : ℕ :=
  ((List.range (len - 8)).find? (syncAt buf)).getD 0

structure Handled where
  state : EzState
  ret : ℤ
  accesses : List (Access Buffer)

def snMatches (v : Vector UInt8 32) (info : Vector UInt8 41) : Bool :=
  v.toList.take 9 == info.toList.take 9

def reasonTlv (errStatus : UInt8) : List UInt8 := [0x94, 0x69, 1, errStatus]

def ezProbeResponseEid208Handler (s : EzState) (pframe : List UInt8) (len : ℕ) : Handled :=
  if s.probeResp.len ≠ 0 then ⟨s, 0, []⟩
  else if len ≤ 23 then ⟨s, -1, []⟩
  else
    let buf := pframe.drop 24
    let offset := checkProbeSyncEid208 buf (len - 24)
    if 0 < offset then
      let p := EzProbe.copied buf offset
      ⟨{ s with probeResp := p }, offset,
        [⟨.respValue, 0, 32⟩, ⟨.respValue, 0, min p.len.toNat (printed p.value)⟩]⟩
    else ⟨s, offset, []⟩

def answerProbe (s : EzState) (p : EzProbe) (offset : ℕ) : Handled :=
  let copy : List (Access Buffer) := [⟨.respValue, 0, 32⟩, ⟨.respValue, 0, 9⟩]
  if snMatches p.value s.deviceInfo = false then ⟨{ s with probeResp := p }, 0, copy⟩
  else if p.id = 0x6990 then
    let p := { p with id := 0x6991 }
    ⟨{ s with probeResp := p }, offset,
      copy ++ [⟨.respValue, 0, min p.len.toNat (printed p.value)⟩]⟩
  else if p.id = 0x6992 then
    if s.errStatus = 0 then ⟨{ s with probeResp := p }, 0, copy⟩
    else
      let p := { p with
        elementLen := p.elementLen + 4
        id := 0x6993
        value := overlay p.value p.len.toNat (reasonTlv s.errStatus) }
      ⟨{ s with probeResp := p }, offset,
        copy ++ [⟨.respValue, p.len.toNat, 4⟩,
          ⟨.respValue, 0, min p.len.toNat (printed p.value)⟩]⟩
  else
    ⟨{ s with probeResp := p }, offset,
      copy ++ [⟨.respValue, 0, min p.len.toNat (printed p.value)⟩]⟩

def ezProbeRequstEid208Handler (s : EzState) (pframe : List UInt8) (len : ℕ) : Handled :=
  if len ≤ 23 then ⟨s, -1, []⟩
  else
    let buf := pframe.drop 24
    let offset := checkProbeSyncEid208 buf (len - 24)
    if offset = 0 then ⟨s, offset, []⟩
    else answerProbe s (EzProbe.copied buf offset) offset

structure Answered where
  state : EzState
  installed : Option ℕ
  accesses : List (Access Buffer)

section Handlers

variable (outside : Outside)

def onProbeReq (s : EzState) (pframe : List UInt8) (len : ℕ) : Answered :=
  let r := ezProbeRequstEid208Handler s pframe len
  if 0 < r.ret then
    let ielen := (r.state.probeResp.elementLen + 2).toNat
    ⟨rtwEzvizIeSet r.state 4 (read r.state.probeResp.bytes outside.resp) ielen, some ielen,
      r.accesses ++ [⟨.respValue, 0, ielen - 10⟩]⟩
  else if r.state.vendorIelen ≠ 0 then
    ⟨rtwEzvizIeSet r.state 4 (fun _ => 0) 0, none, r.accesses⟩
  else ⟨r.state, none, r.accesses⟩

structure ScanReply where
  state : EzState
  ret : ℤ
  reply : Option EzScanCmd
  accesses : List (Access Buffer)

def trigScan (id : UInt16) (s : EzState) (sc : EzScanCmd) : ScanReply :=
  let req := { s.probeReq with
    element := 208
    elementLen := sc.len + 8
    sync := #v[0x45, 0x5A, 0x56, 0x49, 0x5A]
    id := id }
  let n := sc.len.toNat
  let copy : List (Access Buffer) := [⟨.cmdValue, 0, n⟩, ⟨.reqValue, 0, n⟩]
  let req :=
    if n = 0 then req
    else { req with
      len := sc.len
      value := overlay req.value 0 ((List.range n).map (read sc.value outside.cmd)) }
  if req.len = 0 then ⟨{ s with probeReq := req }, 0, none, copy⟩
  else
    let ielen := (req.elementLen + 2).toNat
    ⟨rtwEzvizIeSet { s with probeReq := req, probeResp := .zero } 2
        (read req.bytes outside.req) ielen, 0, none,
      copy ++ [⟨.reqValue, 0, printed req.value⟩, ⟨.reqValue, 0, ielen - 10⟩]⟩

def trigScanDevice : EzState → EzScanCmd → ScanReply := trigScan outside 0x6990

def trigScanReason : EzState → EzScanCmd → ScanReply := trigScan outside 0x6992

def pollDevice (s : EzState) (sc : EzScanCmd) : ScanReply :=
  let n := s.probeResp.len.toNat
  let sc := { sc with
    len := s.probeResp.len
    value := overlay sc.value 0 ((List.range n).map (read s.probeResp.value outside.resp)) }
  ⟨s, 0, some sc, [⟨.respValue, 0, n⟩, ⟨.cmdValue, 0, n⟩]⟩

def reasonBytes (s : EzState) : Vector UInt8 4 :=
  Vector.ofFn fun i => read s.probeResp.value outside.resp (s.probeResp.len.toNat + i)

def pollReason (s : EzState) (sc : EzScanCmd) : ScanReply :=
  let reason := reasonBytes outside s
  let look : List (Access Buffer) := [⟨.respValue, s.probeResp.len.toNat, 4⟩]
  if u16Of (reason.get 0) (reason.get 1) = 0x6994 then
    let n := (reason.get 2).toNat
    let sc := { sc with
      len := reason.get 2
      value := overlay sc.value 0
        ((List.range n).map fun i => read reason outside.reason (3 + i)) }
    ⟨s, 0, some sc, look ++ [⟨.cmdValue, 0, n⟩]⟩
  else
    let sc := { sc with len := 1, value := sc.value.set 0 0xff }
    ⟨s, 0, some sc, look ++ [⟨.cmdValue, 0, 1⟩]⟩

inductive ScanKind where
  | scanIdle
  | trigScanDevice
  | pollDevice
  | trigScanReason
  | pollReason
  | invalid

def scanKind (cmd : UInt8) : ScanKind :=
  match cmd.toNat with
  | 0 => .scanIdle
  | 1 => .trigScanDevice
  | 2 => .pollDevice
  | 3 => .trigScanReason
  | 4 => .pollReason
  | _ => .invalid

def ezScanDeviceIoctlHandle (s : EzState) (sc : EzScanCmd) : ScanReply :=
  match scanKind sc.cmd with
  | .scanIdle => ⟨{ s with probeReq := .zero, probeResp := .zero }, 0, none, []⟩
  | .trigScanDevice => trigScanDevice outside s sc
  | .pollDevice => pollDevice outside s sc
  | .trigScanReason => trigScanReason outside s sc
  | .pollReason => pollReason outside s sc
  | .invalid => ⟨s, -3, none, []⟩

end Handlers

def copyFromUser (user : List UInt8) (offset n : ℕ) : List UInt8 × ℕ :=
  ((List.range n).map (fun i => user.getD (offset + i) 0), n - (user.length - offset))

def ezDeviceInfoIoctlHandle (s : EzState) (len : UInt16) (user : List UInt8) : Handled :=
  let n := len.toNat
  let s := { s with deviceInfo := Vector.replicate 41 0 }
  let clear : List (Access Buffer) := [⟨.deviceInfo, 0, 41⟩]
  if n ≤ 8 then ⟨s, 0, clear⟩
  else
    let sn := copyFromUser user 0 9
    let s := { s with deviceInfo := overlay s.deviceInfo 0 sn.1 }
    let copy := clear ++ [⟨.deviceInfo, 0, 9⟩]
    if sn.2 ≠ 0 then ⟨s, sn.2, copy⟩
    else if n - 9 = 0 then ⟨s, 0, copy⟩
    else
      let model := copyFromUser user 9 (n - 9)
      ⟨{ s with deviceInfo := overlay s.deviceInfo 9 model.1 }, model.2,
        copy ++ [⟨.deviceInfo, 9, n - 9⟩]⟩

inductive NewScCmd where
  | init
  | deinit
  | pollResult
  | getResults
  | setReason (reason : UInt8)
  | invalid

def ezSetNewSc (s : EzState) : NewScCmd → EzState
  | .init => { s with errStatus := 0 }
  | .deinit => { s with errStatus := 0 }
  | .pollResult => s
  | .getResults => s
  | .setReason reason => { s with errStatus := reason }
  | .invalid => s

def ezNewScIoctlHandle (s : EzState) (buf : List UInt8) : EzState :=
  if 512 < buf.length then s
  else rtwEzvizIeSet s 2 (fun i => buf.getD i 0) (buf.length % 256)

def ezSetJoinFailReason (s : EzState) (result : UInt8) : EzState :=
  { s with errStatus := result }

inductive Event where
  | probeReq (pframe : List UInt8) (len : ℕ)
  | probeRsp (pframe : List UInt8) (len : ℕ)
  | scan (sc : EzScanCmd)
  | deviceInfo (len : UInt16) (user : List UInt8)
  | newSc (cmd : NewScCmd)
  | newScIoctl (buf : List UInt8)
  | joinFail (result : UInt8)

structure Outcome where
  state : EzState
  installed : Option ℕ
  accesses : List (Access Buffer)

def handle (outside : Outside) (s : EzState) : Event → Outcome
  | .probeReq pframe len =>
    let r := onProbeReq outside s pframe len
    ⟨r.state, r.installed, r.accesses⟩
  | .probeRsp pframe len =>
    let r := ezProbeResponseEid208Handler s pframe len
    ⟨r.state, none, r.accesses⟩
  | .scan sc =>
    let r := ezScanDeviceIoctlHandle outside s sc
    ⟨r.state, none, r.accesses⟩
  | .deviceInfo len user =>
    let r := ezDeviceInfoIoctlHandle s len user
    ⟨r.state, none, r.accesses⟩
  | .newSc cmd => ⟨ezSetNewSc s cmd, none, []⟩
  | .newScIoctl buf => ⟨ezNewScIoctlHandle s buf, none, []⟩
  | .joinFail result => ⟨ezSetJoinFailReason s result, none, []⟩

def step (outside : Outside) (s : EzState) (e : Event) : EzState := (handle outside s e).state

end Ez
