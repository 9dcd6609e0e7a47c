import Rtl8188fu.Xmit.Attrib

namespace Xmit

open Recv (MacAddr SecurityType isMcast)

inductive OpMode where
  | station
  | ap
  | adhoc
  | other
  deriving DecidableEq

structure XmitSta extends sta : StaInfo where
  qosOption : Bool

structure XmitEnv where
  opMode : OpMode
  macAddr : MacAddr
  bssid : MacAddr
  qosOption : Bool
  sec : SecurityPriv
  fragLen : ℕ
  usbBulkOutSize : ℕ

structure EthPkt where
  hDest : MacAddr
  hSource : MacAddr
  hProto : UInt16
  payload : List UInt8

def addrResolve (e : XmitEnv) (pkt : EthPkt) (p : PktAttrib) : PktAttrib :=
  let p := { p with dst := pkt.hDest, src := pkt.hSource, ta := e.macAddr }
  match e.opMode with
  | .station => { p with ra := e.bssid }
  | .ap | .adhoc => { p with ra := pkt.hDest }
  | .other => p

def setQos (userPriority : Fin 16) (p : PktAttrib) : PktAttrib :=
  { p with priority := userPriority, hdrlen := 26, subtype := 0x88 }

structure Updated where
  attrib : PktAttrib
  psta : XmitSta

def secAttrib (e : XmitEnv) (pkt : EthPkt) (p : PktAttrib) : PktAttrib :=
  { addrResolve e pkt { p with etherType := pkt.hProto } with pktlen := pkt.payload.length }

def usesQos (e : XmitEnv) (psta : XmitSta) : Bool :=
  match e.opMode with
  | .station | .other => e.qosOption
  | .ap | .adhoc => psta.qosOption

def updateAttrib (e : XmitEnv) (c : SecContext) (psta : XmitSta) (userPriority : Fin 16)
    (pkt : EthPkt) (p : PktAttrib) : Option Updated :=
  if !psta.asoc then none
  else
    let r := updateAttribSecInfo e.sec c psta.sta (secAttrib e pkt p)
    if !r.pass then none
    else
      let p := { r.attrib with
        pktHdrlen := 14, hdrlen := 24, subtype := 0x08, qosEn := psta.qosOption, priority := 0 }
      some ⟨if usesQos e psta then setQos userPriority p else p, { psta with sta := r.psta }⟩

theorem updateAttrib_some {e : XmitEnv} {c : SecContext} {psta : XmitSta} {userPriority : Fin 16}
    {pkt : EthPkt} {p : PktAttrib} {u : Updated}
    (h : updateAttrib e c psta userPriority pkt p = some u) :
    let r := updateAttribSecInfo e.sec c psta.sta (secAttrib e pkt p)
    psta.asoc = true ∧ r.pass = true ∧ u.psta = { psta with sta := r.psta } ∧
      ∃ subtype prio, u.attrib = { r.attrib with
        pktHdrlen := 14
        hdrlen := if usesQos e psta then 26 else 24
        subtype := subtype
        qosEn := psta.qosOption
        priority := prio } ∧ (usesQos e psta = false → prio = 0) := by
  intro r
  unfold updateAttrib at h
  cases Decidable.em (psta.asoc = true) with
  | inl hasoc =>
    cases Decidable.em (r.pass = true) with
    | inl hpass =>
      rw [if_neg (by simp [hasoc]), if_neg (by simpa [r] using hpass)] at h
      obtain rfl := Option.some.inj h
      refine ⟨hasoc, hpass, rfl, ?_⟩
      cases hqos : usesQos e psta
      · exact ⟨0x08, 0, rfl, fun _ => rfl⟩
      · exact ⟨0x88, userPriority, rfl, nofun⟩
    | inr hpass =>
      rw [if_neg (by simp [hasoc]), if_pos (by simpa [r] using hpass)] at h
      exact absurd h nofun
  | inr hasoc =>
    rw [if_pos (by simpa using hasoc)] at h
    exact absurd h nofun

def hdrAddrs (e : XmitEnv) (p : PktAttrib) : Option (UInt8 × MacAddr × MacAddr × MacAddr) :=
  match e.opMode with
  | .station => some (0x01, e.bssid, p.ta, p.dst)
  | .ap => some (0x02, p.dst, e.bssid, p.src)
  | .adhoc => some (0x00, p.dst, p.ta, e.bssid)
  | .other => none

def hdrQos (e : XmitEnv) (p : PktAttrib) : Bool :=
  match e.opMode with
  | .station => e.qosOption
  | _ => p.qosEn

def qosControl (p : PktAttrib) : UInt8 :=
  UInt8.ofNat p.priority ||| (if p.eosp then 0x10 else 0) ||| (if p.amsdu then 0x80 else 0)

def setSeqNum (hdr : List UInt8) (num : ℕ) : List UInt8 :=
  (hdr.modify 22 fun b => b &&& 0x0f ||| UInt8.ofNat (num * 16)).set 23 (UInt8.ofNat (num / 16))

def blankHdr (subtype flags : UInt8) (addr1 addr2 addr3 : MacAddr) : List UInt8 :=
  [subtype, flags, 0, 0, addr1.get 0, addr1.get 1, addr1.get 2, addr1.get 3, addr1.get 4, addr1.get 5,
    addr2.get 0, addr2.get 1, addr2.get 2, addr2.get 3, addr2.get 4, addr2.get 5,
    addr3.get 0, addr3.get 1, addr3.get 2, addr3.get 3, addr3.get 4, addr3.get 5] ++ List.replicate 42 0

def rtwMakeWlanhdr (e : XmitEnv) (psta : Option XmitSta) (p : PktAttrib) :
    Option (List UInt8 × XmitSta) :=
  match hdrAddrs e p, psta with
  | some (ds, addr1, addr2, addr3), some psta =>
    if !psta.asoc then none
    else
      let flags := ds ||| (if p.mdata then 0x20 else 0) |||
        (if p.encrypt ≠ .noPrivacy then 0x40 else 0)
      let hdr := blankHdr (UInt8.ofNat p.subtype) flags addr1 addr2 addr3
      let hdr := if hdrQos e p then hdr.set (p.hdrlen - 2) (qosControl p) else hdr
      let seq := (psta.txseqTid p.priority + 1) % 4096
      some (setSeqNum hdr seq,
        { psta with txseqTid := fun i => if i = p.priority then seq else psta.txseqTid i })
  | _, _ => none

def rtwPutSnap (hProto : UInt16) : List UInt8 :=
  let oui : List UInt8 :=
    if hProto = 0x8137 ∨ hProto = 0x80f3 then [0x00, 0x00, 0xf8] else [0x00, 0x00, 0x00]
  ([0xaa, 0xaa, 0x03] : List UInt8) ++ oui ++ [(hProto >>> 8).toUInt8, hProto.toUInt8]

end Xmit
