import Rtl8188fu.Lib.ByteMemory
import Rtl8188fu.Xmit.DataHeader

namespace Xmit

open Recv (MacAddr SecurityType byteAt isMcast)
open ByteMemory (Mem read write modify)

structure MicData where
  k0 : UInt32
  k1 : UInt32
  l : UInt32
  r : UInt32
  m : UInt32
  nBytesInM : ℕ

def secmicgetuint32 (p : List UInt8) : UInt32 :=
  (p.getD 0 0).toUInt32 ||| (p.getD 1 0).toUInt32 <<< 8 ||| (p.getD 2 0).toUInt32 <<< 16 |||
    (p.getD 3 0).toUInt32 <<< 24

def secmicputuint32 (val : UInt32) : List UInt8 :=
  [val.toUInt8, (val >>> 8).toUInt8, (val >>> 16).toUInt8, (val >>> 24).toUInt8]

def rol32 (x n : UInt32) : UInt32 := x <<< n ||| x >>> (32 - n)

def ror32 (x n : UInt32) : UInt32 := x >>> n ||| x <<< (32 - n)

def rtwSecmicsetkey (key : List UInt8) : MicData :=
  let k0 := secmicgetuint32 key
  let k1 := secmicgetuint32 (key.drop 4)
  ⟨k0, k1, k0, k1, 0, 0⟩

namespace MicData

def appendbyte (d : MicData) (b : UInt8) : MicData :=
  let m := d.m ||| b.toUInt32 <<< UInt32.ofNat (8 * d.nBytesInM)
  if d.nBytesInM + 1 < 4 then { d with m := m, nBytesInM := d.nBytesInM + 1 }
  else
    let l := d.l ^^^ m
    let r := d.r ^^^ rol32 l 17
    let l := l + r
    let r := r ^^^ ((l &&& 0xff00ff00) >>> 8 ||| (l &&& 0x00ff00ff) <<< 8)
    let l := l + r
    let r := r ^^^ rol32 l 3
    let l := l + r
    let r := r ^^^ ror32 l 2
    let l := l + r
    { d with l := l, r := r, m := 0, nBytesInM := 0 }

def append (d : MicData) (src : List UInt8) : MicData := src.foldl appendbyte d

def getmic (d : MicData) : List UInt8 :=
  let d := d.append [0x5a, 0, 0, 0, 0]
  let d := if d.nBytesInM = 0 then d else d.append (List.replicate (4 - d.nBytesInM) 0)
  secmicputuint32 d.l ++ secmicputuint32 d.r

@[simp] theorem append_append (d : MicData) (xs ys : List UInt8) :
    (d.append xs).append ys = d.append (xs ++ ys) := by
  simp [append]

@[simp] theorem length_getmic (d : MicData) : d.getmic.length = 8 := by
  simp [getmic, secmicputuint32]

end MicData

def michael (key : List UInt8) (da sa : MacAddr) (priority : UInt8) (data : List UInt8) :
    List UInt8 :=
  ((rtwSecmicsetkey key).append (da.toList ++ sa.toList ++ [priority, 0, 0, 0] ++ data)).getmic

def icvLength : SecurityType → ℕ
  | .wep40 | .wep104 | .tkip => 4
  | .aes => 8
  | .gcmp | .gcmp256 | .ccmp256 => 16
  | _ => 0

structure SwCipher where
  crypt : SecurityType → (key : List UInt8) → (ta : MacAddr) → (hdr payload : List UInt8) →
    List UInt8
  length_crypt : ∀ e key ta hdr payload,
    (crypt e key ta hdr payload).length = payload.length + icvLength e

structure XmitFrame where
  attrib : PktAttrib
  bufAddr : ℕ
  pktOffset : ℕ
  mem : Mem UInt8

def hwHdrOffset (f : XmitFrame) : ℕ := 40 + f.pktOffset * 8

def rnd4 (x : ℕ) : ℕ := (x / 4 + if x % 4 = 0 then 0 else 1) * 4

namespace PktAttrib

variable (p : PktAttrib)

def swIcv : ℕ := if p.bswenc then p.icvLen else 0

def icvTail : List UInt8 := if 0 < p.icvLen ∧ p.bswenc = true then p.icv.toList.take p.icvLen else []

def llc (frgInx : ℕ) : List UInt8 := if frgInx = 0 then rtwPutSnap p.etherType else []

def mpduLen (frgLen frgInx : ℕ) : ℕ :=
  frgLen - p.hdrlen - p.ivLen - (p.llc frgInx).length - p.icvTail.length

def chunk (frgLen frgInx : ℕ) (pktfile : List UInt8) : List UInt8 :=
  pktfile.take (if isMcast p.ra then p.pktlen else p.mpduLen frgLen frgInx)

end PktAttrib

structure Placed where
  mem : Mem UInt8
  pframe : ℕ
  memSz : ℕ

def putFragment (p : PktAttrib) (m : Mem UInt8) (memStart : ℕ) (llc data : List UInt8) : Placed :=
  let m := modify m (memStart + 1) (· ||| 0x04)
  let pframe := memStart + p.hdrlen
  let m := write m pframe (p.iv.take p.ivLen)
  let pframe := pframe + p.ivLen
  let m := write m pframe llc
  let pframe := pframe + llc.length
  let m := write m pframe data
  let pframe := pframe + data.length
  let m := write m pframe p.icvTail
  ⟨m, pframe + p.icvTail.length, data.length⟩

structure Fragment where
  start : ℕ
  size : ℕ

structure Layout where
  mem : Mem UInt8
  frags : List Fragment
  lastTxcmdsz : ℕ

def layFragments (p : PktAttrib) (frgLen hwOffset hdrStart : ℕ) :
    ℕ → Mem UInt8 → ℕ → ℕ → List UInt8 → Option Layout
  | 0, _, _, _, _ => none
  | fuel + 1, m, memStart, frgInx, pktfile =>
    let data := p.chunk frgLen frgInx pktfile
    let r := putFragment p m memStart (p.llc frgInx) data
    let frag := ⟨memStart, r.pframe - memStart⟩
    if isMcast p.ra ∨ pktfile.length ≤ data.length then
      some ⟨modify r.mem (memStart + 1) (· &&& 0xfb), [frag],
        p.hdrlen + p.ivLen + (p.llc frgInx).length + p.swIcv + r.memSz⟩
    else
      let next := rnd4 r.pframe + hwOffset
      let m := write r.mem next (read r.mem hdrStart p.hdrlen)
      (layFragments p frgLen hwOffset hdrStart fuel m next (frgInx + 1)
        (pktfile.drop data.length)).map fun l => { l with frags := frag :: l.frags }

def micKey (sec : SecurityPriv) (p : PktAttrib) : List UInt8 :=
  (if isMcast p.ra then sec.dot118021XGrptxmickey sec.dot118021XGrpKeyid
    else p.tkipTxMicKey).take 16

def fragPayload (p : PktAttrib) (fragLen lastTxcmdsz icvLen left : ℕ) : ℕ :=
  (if left = 0 then lastTxcmdsz else fragLen) - p.hdrlen - p.ivLen - icvLen

def addmicLoop (p : PktAttrib) (fragLen lastTxcmdsz : ℕ) (m : Mem UInt8) :
    ℕ → ℕ → MicData → ℕ × MicData
  | 0, payload, d => (payload, d)
  | left + 1, payload, d =>
    let payload := rnd4 payload + p.hdrlen + p.ivLen
    let length := fragPayload p fragLen lastTxcmdsz p.swIcv left
    let d := d.append (read m payload length)
    addmicLoop p fragLen lastTxcmdsz m left
      (payload + length + if left = 0 then 0 else p.icvLen) d

def micDa (m : Mem UInt8) (pframe : ℕ) : List UInt8 :=
  read m (pframe + if m (pframe + 1) &&& 1 ≠ 0 then 16 else 4) 6

def micSa (m : Mem UInt8) (pframe : ℕ) : List UInt8 :=
  let flags := m (pframe + 1)
  read m (pframe + if flags &&& 2 = 0 then 10 else if flags &&& 1 ≠ 0 then 24 else 16) 6

def xmitframeAddmic (sec : SecurityPriv) (fragLen : ℕ) (f : XmitFrame) : Option XmitFrame :=
  let p := f.attrib
  if p.encrypt = .tkip then
    let key := micKey sec p
    if key = List.replicate 16 0 then none
    else
      let pframe := f.bufAddr + hwHdrOffset f
      let priority := if p.qosEn then UInt8.ofNat p.priority else 0
      let d := (((rtwSecmicsetkey key).append (micDa f.mem pframe)).append
        (micSa f.mem pframe)).append [priority, 0, 0, 0]
      let r := addmicLoop p fragLen p.lastTxcmdsz f.mem p.nrFrags pframe d
      some { f with
        mem := write f.mem r.1 r.2.getmic
        attrib := { p with lastTxcmdsz := p.lastTxcmdsz + 8 } }
  else some f

def swKey (sec : SecurityPriv) (p : PktAttrib) : List UInt8 :=
  match p.encrypt with
  | .wep40 | .wep104 => sec.dot11DefKey (Fin.ofNat 4 sec.dot11PrivacyKeyIndex)
  | e =>
    (if isMcast p.ra then sec.dot118021XGrpKey (Fin.ofNat 4 sec.dot118021XGrpKeyid)
      else p.uncstKey).take (keyLen e)

def swencryptLoop (c : SwCipher) (key : List UInt8) (p : PktAttrib) (fragLen : ℕ) :
    ℕ → ℕ → Mem UInt8 → Mem UInt8
  | 0, _, m => m
  | left + 1, pframe, m =>
    let payload := pframe + p.hdrlen + p.ivLen
    let length := fragPayload p fragLen p.lastTxcmdsz p.icvLen left
    let m := write m payload (c.crypt p.encrypt key p.ta (read m pframe (p.hdrlen + p.ivLen))
      (read m payload length))
    swencryptLoop c key p fragLen left (rnd4 (pframe + fragLen)) m

def swEncrypts : SecurityType → Bool
  | .wep40 | .wep104 | .tkip | .aes | .ccmp256 | .gcmp | .gcmp256 => true
  | _ => false

def xmitframeSwencrypt (c : SwCipher) (sec : SecurityPriv) (fragLen : ℕ) (f : XmitFrame) :
    XmitFrame :=
  let p := f.attrib
  if p.bswenc && swEncrypts p.encrypt then
    { f with
      mem := swencryptLoop c (swKey sec p) p fragLen p.nrFrags (f.bufAddr + hwHdrOffset f) f.mem }
  else f

structure Coalesced where
  frame : XmitFrame
  psta : XmitSta
  laid : List (List UInt8)

def rtwXmitframeCoalesce (c : SwCipher) (e : XmitEnv) (psta : Option XmitSta) (pkt : EthPkt)
    (f : XmitFrame) : Option Coalesced := do
  let (hdr, psta) ← rtwMakeWlanhdr e psta f.attrib
  let memStart := f.bufAddr + hwHdrOffset f
  let l ← layFragments f.attrib (e.fragLen - 4) (hwHdrOffset f) memStart (pkt.payload.length + 1)
    (write f.mem memStart hdr) memStart 0 pkt.payload
  let f := { f with
    mem := l.mem
    attrib := { f.attrib with nrFrags := l.frags.length, lastTxcmdsz := l.lastTxcmdsz } }
  let f ← xmitframeAddmic e.sec e.fragLen f
  some ⟨xmitframeSwencrypt c e.sec e.fragLen f, psta, l.frags.map fun g => read l.mem g.start g.size⟩

def urbZeroPacketChk (e : XmitEnv) (sz : ℕ) : Bool := (sz + 40) % e.usbBulkOutSize = 0

def dumpSz (e : XmitEnv) (p : PktAttrib) (left : ℕ) : ℕ :=
  if left = 0 then p.lastTxcmdsz
  else e.fragLen - 4 - if e.sec.swEncrypt then 0 else p.icvLen

def rtwDumpXframe (e : XmitEnv) (p : PktAttrib) (txdesc : ℕ → Vector UInt8 40) :
    ℕ → (bufAddr memAddr : ℕ) → Mem UInt8 → List (List UInt8)
  | 0, _, _, _ => []
  | left + 1, bufAddr, memAddr, m =>
    let sz := dumpSz e p left
    let pull := !urbZeroPacketChk e sz
    let memAddr := if pull then memAddr + 8 else memAddr
    let m := write m memAddr (txdesc left).toList
    let bufAddr := if pull then memAddr else bufAddr
    let wSz := if pull then sz + 40 else sz + 40 + 8
    (read m bufAddr wSz).drop (wSz - sz) ::
      rtwDumpXframe e p txdesc left bufAddr (rnd4 (memAddr + wSz)) m

end Xmit
