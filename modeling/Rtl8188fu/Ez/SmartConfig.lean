import Rtl8188fu.Ez.Discovery
import Rtl8188fu.Lib.CursorWalk

namespace Ez

open BoundedMemory CursorWalk

structure NewSc where
  enable : UInt8
  done : UInt8
  buf : Vector UInt8 512
  len : UInt16
  deriving DecidableEq

def NewSc.zero : NewSc := ⟨0, 0, Vector.replicate 512 0, 0⟩

def checkSnValid (info : Vector UInt8 41) : Bool :=
  info.toList.take 9 != List.replicate 9 0

def sought (snValid : Bool) (id : UInt8) : Bool := id == 207 || snValid && id == 209

def syncedAt (buf : List UInt8) (i : ℕ) : Bool :=
  (List.range 5).all fun k => buf.getD (i + 2 + k) 0 == syncCode.getD k 0

def eidWalk (snValid : Bool) (buf : List UInt8) (len : ℕ) : Walk where
  inside i := decide (i + 2 < len)
  found i := sought snValid (buf.getD i 0) && syncedAt buf i
  next i := i + ((buf.getD (i + 1) 0).toNat + 2)

def checkProbeSyncEID (snValid : Bool) (buf : List UInt8) (len : ℕ) : ℕ :=
  (find (eidWalk snValid buf len) len 0).getD 0

def ezProbeReqHandler (info : Vector UInt8 41) (sc : NewSc) (pframe : List UInt8) (len : ℕ) :
    NewSc :=
  let buf := pframe.drop 24
  let offset := checkProbeSyncEID (checkSnValid info) buf (len - 24)
  if 0 < offset then
    let ieLen := buf.getD (offset + 1) 0
    { sc with
      len := ieLen.toUInt16
      buf := overlay sc.buf 0 ((List.range ieLen.toNat).map fun k => buf.getD (offset + 2 + k) 0)
      done := 1 }
  else sc

structure ScState where
  ez : EzState
  newSc : NewSc
  smartFlg : UInt8

def ScState.init : ScState := ⟨.init, .zero, 0⟩

def ScState.setNewSc (s : ScState) (cmd : NewScCmd) : ScState :=
  let s := { s with ez := ezSetNewSc s.ez cmd }
  match cmd with
  | .init => { s with newSc := { NewSc.zero with enable := 1 } }
  | .deinit => { s with newSc := .zero }
  | .pollResult => { s with newSc := { s.newSc with done := 0 } }
  | .getResults => { s with newSc := { s.newSc with done := 0 } }
  | .setReason _ => s
  | .invalid => s

inductive IoctlArg where
  | nullRequest
  | nullPointer
  | data (length : UInt16) (user : List UInt8)

def eFault : ℤ := -14

structure ScReply where
  state : ScState
  ret : ℤ

def ScState.newScIoctlHandle (s : ScState) : IoctlArg → ScReply
  | .nullRequest => ⟨s, eFault⟩
  | .nullPointer => ⟨s, eFault⟩
  | .data length user =>
    let bufLen := length.toNat
    let s := { s with newSc := { s.newSc with buf := Vector.replicate 512 0 } }
    if 512 < bufLen then ⟨s, eFault⟩
    else
      let copy := copyFromUser user 0 bufLen
      let buf := overlay s.newSc.buf 0 copy.1
      let s := { s with newSc := { s.newSc with buf := buf } }
      if copy.2 = 0 then
        ⟨{ ez := rtwEzvizIeSet s.ez 2 (fun i => buf.toList.getD i 0) (bufLen % 256)
           newSc := { s.newSc with len := length }
           smartFlg := 1 }, 0⟩
      else ⟨s, copy.2⟩

def ScState.onProbeReq (outside : Outside) (s : ScState) (pframe : List UInt8) (len : ℕ) :
    ScState :=
  let newSc :=
    -- len is unsigned, so that a frame shorter than the header passes the test as well
    if s.newSc.enable ≠ 0 ∧ s.newSc.done = 0 ∧ (len < 24 ∨ 255 < len - 24) then
      ezProbeReqHandler s.ez.deviceInfo s.newSc pframe len
    else s.newSc
  { s with newSc := newSc, ez := (Ez.onProbeReq outside s.ez pframe len).state }

inductive ScEvent where
  | newScIoctl (arg : IoctlArg)
  | setNewSc (cmd : NewScCmd)
  | probeReq (pframe : List UInt8) (len : ℕ)
  | probeRsp (pframe : List UInt8) (len : ℕ)
  | deviceInfo (len : UInt16) (user : List UInt8)
  | scan (sc : EzScanCmd)
  | joinFail (result : UInt8)

def scStep (outside : Outside) (s : ScState) : ScEvent → ScState
  | .newScIoctl arg => (s.newScIoctlHandle arg).state
  | .setNewSc cmd => s.setNewSc cmd
  | .probeReq pframe len => s.onProbeReq outside pframe len
  | .probeRsp pframe len => { s with ez := step outside s.ez (.probeRsp pframe len) }
  | .deviceInfo len user => { s with ez := step outside s.ez (.deviceInfo len user) }
  | .scan sc => { s with ez := step outside s.ez (.scan sc) }
  | .joinFail result => { s with ez := step outside s.ez (.joinFail result) }

end Ez
