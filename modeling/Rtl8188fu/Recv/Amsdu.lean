import Rtl8188fu.Ap.AssocParse
import Rtl8188fu.Lib.AlignedRecords
import Rtl8188fu.Lib.BoundedMemory
import Rtl8188fu.Lib.WhileLoop
import Rtl8188fu.Recv.Adapter

namespace Recv.Amsdu

open AlignedRecords (Encodes padLen)
open Ap (AmsduMode)
open BoundedMemory (Access AllInside Inside)
open ByteMemory (Mem Holds)
open WhileLoop (Turn Loop Ends)

inductive LlcHdl where
  | keep
  | remove
  deriving DecidableEq, Repr

structure AmsduEnv where
  adapter : Adapter
  amsduMode : AmsduMode
  apIsolate : Bool
  asocListCnt : ℕ
  fwdResource : ℕ → Bool
  allocMsdu : ℕ → Bool

structure MsduAct where
  indicate : Bool
  forward : Bool
  classified : Bool
  deriving DecidableEq, Repr

abbrev FrameRead := Access Unit

def rd (first count : ℕ) : FrameRead := ⟨(), first, count⟩

def ethHlen : ℕ := 14

def snapSize : ℕ := 6

def maxSubframeCount : ℕ := 64

def rtwRfc1042Header : MacAddr := #v[0xaa, 0xaa, 0x03, 0x00, 0x00, 0x00]

def rtwBridgeTunnelHeader : MacAddr := #v[0xaa, 0xaa, 0x03, 0x00, 0x00, 0xf8]

def ethPAarp : ℕ := 0x80f3

def ethPIpx : ℕ := 0x8137

def ethPIp : ℕ := 0x0800

def getBe16 (m : Mem UInt8) (a : ℕ) : ℕ := 256 * (m a).toNat + (m (a + 1)).toNat

def getMac (m : Mem UInt8) (a : ℕ) : MacAddr := Vector.ofFn fun i => m (a + i)

def rtwRecvLlcParse (m : Mem UInt8) (msdu msduLen : ℕ) : LlcHdl :=
  if msduLen < 8 then .keep
  else
    let ethType := getBe16 m (msdu + snapSize)
    if getMac m msdu = rtwRfc1042Header ∧ ethType ≠ ethPAarp ∧ ethType ≠ ethPIpx ∨
        getMac m msdu = rtwBridgeTunnelHeader then .remove
    else .keep

def llcReads (msdu msduLen : ℕ) : List FrameRead :=
  if msduLen < 8 then [] else [rd (msdu + snapSize) 2, rd msdu snapSize]

def selectQueueReads (m : Mem UInt8) (msdu : ℕ) : LlcHdl → List FrameRead
  | .keep => []
  | .remove =>
    rd (msdu + snapSize) 2 ::
      if getBe16 m (msdu + snapSize) = ethPIp then [rd (msdu + snapSize + 3) 1] else []

def contentChecked (env : AmsduEnv) : Bool :=
  env.amsduMode = .nonSpp ∧ env.adapter.securitypriv.dot11PrivacyAlgrthm ≠ .noPrivacy

def validateAmsduContent (env : AmsduEnv) (pattrib : RxPktAttrib) (da sa : MacAddr) : Bool :=
  if contentChecked env then
    !(pattrib.toFrDs = 2 ∧ da ≠ pattrib.ra) && !(pattrib.toFrDs = 1 ∧ sa ≠ pattrib.ta) &&
      !(da = rtwRfc1042Header)
  else true

def contentReads (env : AmsduEnv) (pattrib : RxPktAttrib) (pdata : ℕ) : List FrameRead :=
  if contentChecked env then
    (if pattrib.toFrDs = 2 then [rd pdata 6] else []) ++
      (if pattrib.toFrDs = 1 then [rd (pdata + 6) 6] else []) ++ [rd pdata 6]
  else []

def fwdChk (env : AmsduEnv) (fwd indicate : Bool) : MsduAct :=
  if env.asocListCnt ≤ 1 then ⟨indicate, false, false⟩ else ⟨indicate, fwd, true⟩

def rtwApRxMsduActCheck (env : AmsduEnv) (fwd : Bool) (da sa : MacAddr) : MsduAct :=
  if sa = env.adapter.macAddr then ⟨false, false, false⟩
  else if isMcast da then
    if env.apIsolate then ⟨true, false, false⟩ else fwdChk env fwd true
  else if da = env.adapter.macAddr then ⟨true, false, false⟩
  else if (rtwGetStainfo env.adapter.stapriv da).isSome then
    if env.apIsolate then ⟨false, false, false⟩ else fwdChk env fwd false
  else if env.apIsolate then ⟨true, false, false⟩ else fwdChk env fwd true

def rtwStaRxAmsduActCheck : MsduAct := ⟨true, false, false⟩

def msduAct (env : AmsduEnv) (i : ℕ) (da sa : MacAddr) : MsduAct :=
  if env.adapter.fwState.ap then rtwApRxMsduActCheck env (env.fwdResource i) da sa
  else if env.adapter.fwState.station then rtwStaRxAmsduActCheck
  else ⟨true, false, false⟩

def actReads (env : AmsduEnv) (pdata : ℕ) : List FrameRead :=
  if env.adapter.fwState.ap then [rd (pdata + 6) 6, rd pdata 6] else []

def beLen (n : ℕ) : List UInt8 := [UInt8.ofNat (n / 256), UInt8.ofNat n]

def rtwOsAllocMsduPkt (da sa : MacAddr) (msdu : List UInt8) : LlcHdl → List UInt8
  | .remove => da.toList ++ (sa.toList ++ msdu.drop snapSize)
  | .keep => da.toList ++ (sa.toList ++ (beLen msdu.length ++ msdu))

def allocReads (pdata n : ℕ) : List FrameRead :=
  [rd (pdata + ethHlen) n, rd (pdata + 6) 6, rd pdata 6]

structure Deagg where
  pdata : ℕ
  aLen : ℤ
  seen : ℕ
  subframes : List (List UInt8)
  forwarded : List (List UInt8)
  reads : List FrameRead
  queueReads : List FrameRead
  deriving DecidableEq

namespace Deagg

variable (s : Deagg)

def touch (rs : List FrameRead) : Deagg := { s with reads := s.reads ++ rs }

def classify (act : MsduAct) (rs : List FrameRead) : Deagg :=
  if act.classified then { s with queueReads := s.queueReads ++ rs } else s

def recvFwdPktHdl (act : MsduAct) (pkt : List UInt8) : Deagg :=
  if act.forward then { s with forwarded := s.forwarded ++ [pkt] } else s

def indicate (act : MsduAct) (pkt : List UInt8) : Deagg :=
  if act.indicate then { s with subframes := s.subframes ++ [pkt] } else s

def advance (n : ℕ) : Deagg := { s with pdata := s.pdata + n, aLen := s.aLen - n }

def moveToNext (n : ℕ) : Turn Deagg :=
  let s := { s with seen := s.seen + 1 }.advance ethHlen
  if maxSubframeCount ≤ s.subframes.length then .leave s
  else
    let s := s.advance n
    if s.aLen = 0 then .again s
    else
      let paddingLen := 4 - (n + ethHlen) % 4
      let paddingLen := if paddingLen = 4 then 0 else paddingLen
      if s.aLen < paddingLen then .leave s else .again (s.advance paddingLen)

end Deagg

variable (env : AmsduEnv) (pattrib : RxPktAttrib) (m : Mem UInt8)

def deaggBody (s : Deagg) : Turn Deagg :=
  let pdata := s.pdata
  let i := s.seen
  let nSubframeLength := getBe16 m (pdata + 12)
  let s := s.touch [rd (pdata + 12) 2]
  if s.aLen < ethHlen + nSubframeLength then .leave s
  else
    let da := getMac m pdata
    let sa := getMac m (pdata + 6)
    let s := s.touch (contentReads env pattrib pdata)
    if !validateAmsduContent env pattrib da sa then .leave s
    else
      let msdu := pdata + ethHlen
      let llcHdl := rtwRecvLlcParse m msdu nSubframeLength
      let act := msduAct env i da sa
      let s := (s.touch (llcReads msdu nSubframeLength ++ actReads env pdata)).classify act
        (selectQueueReads m msdu llcHdl)
      if !act.indicate && !act.forward then s.moveToNext nSubframeLength
      else
        let s := s.touch [rd pdata 6]
        if !env.allocMsdu i then .leave s
        else
          let s := s.touch (allocReads pdata nSubframeLength)
          let subPkt := rtwOsAllocMsduPkt da sa (ByteMemory.read m msdu nSubframeLength) llcHdl
          ((s.recvFwdPktHdl act subPkt).indicate act subPkt).moveToNext nSubframeLength

def deaggLoop : Loop Deagg where
  guard s := decide (s.aLen > ethHlen)
  body := deaggBody env pattrib m

def pullIv (f : RecvFrame) : RecvFrame :=
  if f.attrib.ivLen > 0 then f.recvframePull f.attrib.ivLen else f

def pullIcv (f : RecvFrame) : RecvFrame :=
  if f.attrib.encrypt ≠ .noPrivacy then f.recvframePullTail f.attrib.icvLen else f

def pullHeaders (f : RecvFrame) : RecvFrame := pullIcv (pullIv (f.recvframePull f.attrib.hdrlen))

def frameMem (f : RecvFrame) (beyond : Mem UInt8) : Mem UInt8 :=
  fun i => (f.rxData[i]?).getD (beyond i)

def deaggStart (len : ℕ) : Deagg := ⟨0, len, 0, [], [], [], []⟩

def amsduToMsdu (f : RecvFrame) (beyond : Mem UInt8) (fuel : ℕ) : Option Deagg :=
  let f := pullHeaders f
  WhileLoop.run (deaggLoop env f.attrib (frameMem f beyond)) fuel (deaggStart f.len)

@[ext] structure Msdu where
  da : MacAddr
  sa : MacAddr
  payload : List UInt8
  fits : payload.length < 65536

def snapType (payload : List UInt8) : ℕ :=
  256 * (payload.getD 6 0).toNat + (payload.getD 7 0).toNat

def SnapEncapsulated (payload : List UInt8) : Prop :=
  8 ≤ payload.length ∧
    (payload.take 6 = rtwRfc1042Header.toList ∧
        snapType payload ≠ ethPAarp ∧ snapType payload ≠ ethPIpx ∨
      payload.take 6 = rtwBridgeTunnelHeader.toList)

instance (payload : List UInt8) : Decidable (SnapEncapsulated payload) :=
  inferInstanceAs (Decidable (_ ∧ _))

namespace Msdu

variable (u : Msdu)

def header : List UInt8 := u.da.toList ++ u.sa.toList ++ beLen u.payload.length

def subframe : List UInt8 := u.header ++ u.payload

def ethernet : List UInt8 :=
  u.da.toList ++ (u.sa.toList ++
    if SnapEncapsulated u.payload then u.payload.drop 6 else beLen u.payload.length ++ u.payload)

@[simp] theorem length_header : u.header.length = 14 := by simp [header, beLen]

@[simp] theorem length_subframe : u.subframe.length = 14 + u.payload.length := by
  simp [subframe]

theorem subframes_pos (us : List Msdu) : ∀ r ∈ us.map subframe, 0 < r.length := by
  intro r hr
  obtain ⟨u, -, rfl⟩ := List.mem_map.mp hr
  rw [length_subframe]
  omega

end Msdu

variable {m : Mem UInt8} {a o len n i : ℕ}

theorem getBe16_lt (m : Mem UInt8) (a : ℕ) : getBe16 m a < 65536 := by
  have hhi := (m a).toNat_lt
  have hlo := (m (a + 1)).toNat_lt
  rw [getBe16]
  omega

def msduAt (m : Mem UInt8) (o : ℕ) : Msdu where
  da := getMac m o
  sa := getMac m (o + 6)
  payload := ByteMemory.read m (o + 14) (getBe16 m (o + 12))
  fits := by simpa using getBe16_lt m (o + 12)

@[simp] theorem length_msduAt (m : Mem UInt8) (o : ℕ) :
    (msduAt m o).payload.length = getBe16 m (o + 12) := by
  simp [msduAt]

theorem toList_getMac (m : Mem UInt8) (a : ℕ) : (getMac m a).toList = ByteMemory.read m a 6 := by
  rw [getMac, Vector.toList_ofFn]
  simp [ByteMemory.read, List.range_succ]

theorem ofNat_hi (hi lo : UInt8) : UInt8.ofNat ((256 * hi.toNat + lo.toNat) / 256) = hi := by
  have hlo := lo.toNat_lt
  have hdiv : (256 * hi.toNat + lo.toNat) / 256 = hi.toNat := by omega
  rw [hdiv, UInt8.ofNat_toNat]

theorem beLen_getBe16 (m : Mem UInt8) (a : ℕ) : beLen (getBe16 m a) = ByteMemory.read m a 2 := by
  simp [beLen, getBe16, ofNat_hi, ByteMemory.read, List.range_succ]

theorem holds_msduAt (m : Mem UInt8) (o : ℕ) : Holds m o (msduAt m o).subframe := by
  refine Holds.of_read ?_
  have hlen : (msduAt m o).subframe.length = 6 + 6 + 2 + getBe16 m (o + 12) := by simp
  rw [hlen, ByteMemory.read_add, ByteMemory.read_add, ByteMemory.read_add, Msdu.subframe,
    Msdu.header, length_msduAt, beLen_getBe16]
  simp only [msduAt, toList_getMac, Nat.reduceAdd]

theorem getMac_eq {mac : MacAddr} (h : Holds m a mac.toList) : getMac m a = mac := by
  refine Vector.toList_inj.mp ?_
  rw [toList_getMac]
  exact h.read_eq (by simp)

theorem getBe16_eq (hn : n < 65536) (h : Holds m a (beLen n)) : getBe16 m a = n := by
  have hhi : m a = UInt8.ofNat (n / 256) := h 0 (by simp [beLen])
  have hlo : m (a + 1) = UInt8.ofNat n := h 1 (by simp [beLen])
  rw [getBe16, hhi, hlo, UInt8.toNat_ofNat', UInt8.toNat_ofNat']
  omega

theorem msduAt_eq {u : Msdu} (h : Holds m o u.subframe) : msduAt m o = u := by
  have hda : getMac m o = u.da := getMac_eq h.left.left.left
  have hsa : getMac m (o + 6) = u.sa := getMac_eq (by simpa using h.left.left.right)
  have hlen : getBe16 m (o + 12) = u.payload.length :=
    getBe16_eq u.fits (by simpa using h.left.right)
  refine Msdu.ext hda hsa ?_
  change ByteMemory.read m (o + 14) (getBe16 m (o + 12)) = u.payload
  exact Holds.read_eq (by simpa using h.right) hlen

theorem subframe_within {bs : List UInt8} (hm : Holds m 0 bs) (hfit : o + 14 + getBe16 m (o + 12) ≤ bs.length) :
    (msduAt m o).subframe <:+: bs := by
  have hslice := hm.slice (i := o) (n := 14 + getBe16 m (o + 12)) (by omega)
  rw [Nat.zero_add, (holds_msduAt m o).read_eq (by simp)] at hslice
  rw [hslice]
  exact (List.take_prefix _ _).isInfix.trans (List.drop_suffix _ _).isInfix

theorem getMac_eq_iff {bs : List UInt8} (h : Holds m a bs) (hlen : 6 ≤ bs.length) (mac : MacAddr) :
    getMac m a = mac ↔ bs.take 6 = mac.toList := by
  have hslice := h.slice (i := 0) (n := 6) (by omega)
  rw [Nat.add_zero, List.drop_zero] at hslice
  rw [← Vector.toList_inj, toList_getMac, hslice]

theorem getBe16_snapType {bs : List UInt8} (h : Holds m a bs) (hlen : 8 ≤ bs.length) :
    getBe16 m (a + snapSize) = snapType bs := by
  have hhi := h 6 (by omega)
  have hlo := h 7 (by omega)
  rw [getBe16, snapType, snapSize, hhi, Nat.add_assoc, hlo, List.getElem_eq_getD 0,
    List.getElem_eq_getD 0]

theorem llcParse_eq {bs : List UInt8} (h : Holds m a bs) :
    rtwRecvLlcParse m a bs.length = if SnapEncapsulated bs then .remove else .keep := by
  cases Nat.lt_or_ge bs.length 8 with
  | inl hshort =>
    rw [rtwRecvLlcParse, if_pos hshort, if_neg (fun hsnap => Nat.not_le.mpr hshort hsnap.1)]
  | inr hlong =>
    simp only [rtwRecvLlcParse, if_neg (Nat.not_lt.mpr hlong), getBe16_snapType h hlong,
      getMac_eq_iff h (Nat.le_trans (by decide) hlong), SnapEncapsulated, hlong, true_and]

theorem pkt_eq (m : Mem UInt8) (o : ℕ) :
    rtwOsAllocMsduPkt (getMac m o) (getMac m (o + 6))
        (ByteMemory.read m (o + ethHlen) (getBe16 m (o + 12)))
        (rtwRecvLlcParse m (o + ethHlen) (getBe16 m (o + 12))) = (msduAt m o).ethernet := by
  have hpayload : Holds m (o + ethHlen) (msduAt m o).payload := by
    simpa [ethHlen] using (holds_msduAt m o).right
  have hllc := llcParse_eq hpayload
  rw [length_msduAt] at hllc
  rw [hllc, Msdu.ethernet]
  cases Decidable.em (SnapEncapsulated (msduAt m o).payload) with
  | inl hsnap => rw [if_pos hsnap, if_pos hsnap]; rfl
  | inr hplain => rw [if_neg hplain, if_neg hplain]; rfl

structure Grows (len : ℕ) (s t : Deagg) (pkts : List (List UInt8)) : Prop where
  pdata : t.pdata = s.pdata
  aLen : t.aLen = s.aLen
  seen : t.seen = s.seen
  subframes : t.subframes = s.subframes ++ pkts
  reads : AllInside (fun _ => len) s.reads → AllInside (fun _ => len) t.reads

namespace Grows

variable {s t u : Deagg} {pkts : List (List UInt8)} {rs : List FrameRead} {act : MsduAct}
  {pkt : List UInt8}

theorem refl (len : ℕ) (s : Deagg) : Grows len s s [] where
  pdata := rfl
  aLen := rfl
  seen := rfl
  subframes := (List.append_nil _).symm
  reads := id

theorem touch (h : Grows len s t pkts) (hrs : AllInside (fun _ => len) rs) :
    Grows len s (t.touch rs) pkts where
  pdata := h.pdata
  aLen := h.aLen
  seen := h.seen
  subframes := h.subframes
  reads hs := (BoundedMemory.allInside_append _ _ _).mpr ⟨h.reads hs, hrs⟩

theorem classify (h : Grows len s t pkts) : Grows len s (t.classify act rs) pkts := by
  rw [Deagg.classify]
  split
  · exact ⟨h.pdata, h.aLen, h.seen, h.subframes, h.reads⟩
  · exact h

theorem recvFwdPktHdl (h : Grows len s t pkts) : Grows len s (t.recvFwdPktHdl act pkt) pkts := by
  rw [Deagg.recvFwdPktHdl]
  split
  · exact ⟨h.pdata, h.aLen, h.seen, h.subframes, h.reads⟩
  · exact h

theorem indicate (h : Grows len s t pkts) :
    Grows len s (t.indicate act pkt) (pkts ++ if act.indicate then [pkt] else []) := by
  rw [Deagg.indicate]
  split
  · refine ⟨h.pdata, h.aLen, h.seen, ?_, h.reads⟩
    rw [h.subframes, List.append_assoc]
  · rwa [List.append_nil]

end Grows

section Loop

variable (env : AmsduEnv) (pattrib : RxPktAttrib) {s t : Deagg}

def accepts (p : Msdu × ℕ) : Bool :=
  validateAmsduContent env pattrib p.1.da p.1.sa &&
    (!(msduAct env p.2 p.1.da p.1.sa).indicate && !(msduAct env p.2 p.1.da p.1.sa).forward ||
      env.allocMsdu p.2)

def indicates (p : Msdu × ℕ) : Bool := (msduAct env p.2 p.1.da p.1.sa).indicate

def delivered (i : ℕ) (us : List Msdu) : List (List UInt8) :=
  (((us.zipIdx i).takeWhile (accepts env pattrib)).filter (indicates env)).map fun p => p.1.ethernet

@[simp] theorem delivered_nil (i : ℕ) : delivered env pattrib i [] = [] := rfl

theorem delivered_refused {u : Msdu} (us : List Msdu) (h : accepts env pattrib (u, i) = false) :
    delivered env pattrib i (u :: us) = [] := by
  simp [delivered, h]

theorem delivered_taken {u : Msdu} (us : List Msdu) (h : accepts env pattrib (u, i) = true) :
    delivered env pattrib i (u :: us) =
      (if indicates env (u, i) then [u.ethernet] else []) ++ delivered env pattrib (i + 1) us := by
  cases hind : indicates env (u, i) with
  | true => simp [delivered, h, hind]
  | false => simp [delivered, h, hind]

theorem rd_inside {first count : ℕ} (h : first + count ≤ len) :
    Inside (fun _ => len) (rd first count) := Or.inr h

theorem contentReads_inside (h : o + 14 ≤ len) :
    AllInside (fun _ => len) (contentReads env pattrib o) := by
  have hda : Inside (fun _ => len) (rd o 6) := rd_inside (by omega)
  have hsa : Inside (fun _ => len) (rd (o + 6) 6) := rd_inside (by omega)
  rw [contentReads]
  split
  · rw [BoundedMemory.allInside_append, BoundedMemory.allInside_append]
    refine ⟨⟨?_, ?_⟩, by simpa using hda⟩
    · split <;> simp [hda]
    · split <;> simp [hsa]
  · simp

theorem llcReads_inside (h : o + n ≤ len) : AllInside (fun _ => len) (llcReads o n) := by
  rw [llcReads]
  split
  · simp
  · have htype : Inside (fun _ => len) (rd (o + snapSize) 2) := rd_inside (by rw [snapSize]; omega)
    have hsnap : Inside (fun _ => len) (rd o snapSize) := rd_inside (by rw [snapSize]; omega)
    simp [htype, hsnap]

theorem actReads_inside (h : o + 14 ≤ len) : AllInside (fun _ => len) (actReads env o) := by
  have hda : Inside (fun _ => len) (rd o 6) := rd_inside (by omega)
  have hsa : Inside (fun _ => len) (rd (o + 6) 6) := rd_inside (by omega)
  rw [actReads]
  split <;> simp [hda, hsa]

theorem allocReads_inside (h : o + 14 + n ≤ len) : AllInside (fun _ => len) (allocReads o n) := by
  have hmsdu : Inside (fun _ => len) (rd (o + ethHlen) n) := rd_inside (by rw [ethHlen]; omega)
  have hda : Inside (fun _ => len) (rd o 6) := rd_inside (by omega)
  have hsa : Inside (fun _ => len) (rd (o + 6) 6) := rd_inside (by omega)
  simp [allocReads, hmsdu, hda, hsa]

theorem deaggBody_short (hlen : s.pdata + 14 ≤ len)
    (h : s.aLen < 14 + getBe16 m (s.pdata + 12)) :
    ∃ t, deaggBody env pattrib m s = .leave t ∧ Grows len s t [] := by
  have hread : Inside (fun _ => len) (rd (s.pdata + 12) 2) := rd_inside (by omega)
  exact ⟨s.touch [rd (s.pdata + 12) 2], if_pos h, (Grows.refl len s).touch (by simpa using hread)⟩

def checked (s : Deagg) : Deagg :=
  (s.touch [rd (s.pdata + 12) 2]).touch (contentReads env pattrib s.pdata)

def parsed (m : Mem UInt8) (s : Deagg) : Deagg :=
  let n := getBe16 m (s.pdata + 12)
  let msdu := s.pdata + ethHlen
  ((checked env pattrib s).touch (llcReads msdu n ++ actReads env s.pdata)).classify
    (msduAct env s.seen (getMac m s.pdata) (getMac m (s.pdata + 6)))
    (selectQueueReads m msdu (rtwRecvLlcParse m msdu n))

theorem checked_grows (hlen : s.pdata + 14 ≤ len) : Grows len s (checked env pattrib s) [] := by
  have hread : Inside (fun _ => len) (rd (s.pdata + 12) 2) := rd_inside (by omega)
  exact ((Grows.refl len s).touch (by simpa using hread)).touch
    (contentReads_inside env pattrib hlen)

theorem parsed_grows (hlen : s.pdata + 14 + getBe16 m (s.pdata + 12) ≤ len) :
    Grows len s (parsed env pattrib m s) [] := by
  have hchecked : Grows len s (checked env pattrib s) [] :=
    checked_grows env pattrib (by omega)
  refine (hchecked.touch ?_).classify
  rw [BoundedMemory.allInside_append]
  exact ⟨llcReads_inside (by rw [ethHlen]; omega), actReads_inside env (by omega)⟩

theorem led_grows (hlen : s.pdata + 14 + getBe16 m (s.pdata + 12) ≤ len) :
    Grows len s ((parsed env pattrib m s).touch [rd s.pdata 6]) [] := by
  have hread : Inside (fun _ => len) (rd s.pdata 6) := rd_inside (by omega)
  exact (parsed_grows env pattrib hlen).touch (by simpa using hread)

theorem deaggBody_unfit (hfit : 14 + getBe16 m (s.pdata + 12) ≤ s.aLen)
    (h : validateAmsduContent env pattrib (msduAt m s.pdata).da (msduAt m s.pdata).sa = false) :
    deaggBody env pattrib m s = .leave (checked env pattrib s) := by
  have hcheck : (!validateAmsduContent env pattrib (msduAt m s.pdata).da (msduAt m s.pdata).sa) = true := by
    simpa using h
  exact (if_neg (Int.not_lt.mpr hfit)).trans (if_pos hcheck)

theorem deaggBody_fit (hfit : 14 + getBe16 m (s.pdata + 12) ≤ s.aLen)
    (h : validateAmsduContent env pattrib (msduAt m s.pdata).da (msduAt m s.pdata).sa = true) :
    deaggBody env pattrib m s =
      let act := msduAct env s.seen (msduAt m s.pdata).da (msduAt m s.pdata).sa
      let n := getBe16 m (s.pdata + 12)
      let s' := parsed env pattrib m s
      if !act.indicate && !act.forward then s'.moveToNext n
      else if !env.allocMsdu s.seen then .leave (s'.touch [rd s.pdata 6])
      else
        ((((s'.touch [rd s.pdata 6]).touch (allocReads s.pdata n)).recvFwdPktHdl act
          (msduAt m s.pdata).ethernet).indicate act (msduAt m s.pdata).ethernet).moveToNext n := by
  have hcheck : ¬(!validateAmsduContent env pattrib (msduAt m s.pdata).da (msduAt m s.pdata).sa) = true := by
    simpa using h
  rw [← pkt_eq]
  exact (if_neg (Int.not_lt.mpr hfit)).trans (if_neg hcheck)

theorem deaggBody_refused (hfit : 14 + getBe16 m (s.pdata + 12) ≤ s.aLen)
    (hlen : s.pdata + 14 + getBe16 m (s.pdata + 12) ≤ len)
    (h : accepts env pattrib (msduAt m s.pdata, s.seen) = false) :
    ∃ t, deaggBody env pattrib m s = .leave t ∧ Grows len s t [] := by
  cases hcontent : validateAmsduContent env pattrib (msduAt m s.pdata).da (msduAt m s.pdata).sa with
  | false =>
    exact ⟨_, deaggBody_unfit env pattrib hfit hcontent, checked_grows env pattrib (by omega)⟩
  | true =>
    simp only [accepts, hcontent, Bool.true_and, Bool.or_eq_false_iff] at h
    refine ⟨_, ?_, led_grows env pattrib hlen⟩
    rw [deaggBody_fit env pattrib hfit hcontent]
    simp only [h.1, h.2, Bool.false_eq_true, if_false, Bool.not_false, if_true]

theorem deaggBody_taken (hfit : 14 + getBe16 m (s.pdata + 12) ≤ s.aLen)
    (hlen : s.pdata + 14 + getBe16 m (s.pdata + 12) ≤ len)
    (h : accepts env pattrib (msduAt m s.pdata, s.seen) = true) :
    ∃ t, deaggBody env pattrib m s = t.moveToNext (getBe16 m (s.pdata + 12)) ∧
      Grows len s t
        (if indicates env (msduAt m s.pdata, s.seen) then [(msduAt m s.pdata).ethernet] else []) := by
  have hcontent := (Bool.and_eq_true_iff.mp h).1
  rw [deaggBody_fit env pattrib hfit hcontent]
  cases hidle : !(msduAct env s.seen (msduAt m s.pdata).da (msduAt m s.pdata).sa).indicate &&
      !(msduAct env s.seen (msduAt m s.pdata).da (msduAt m s.pdata).sa).forward with
  | true =>
    simp only [hidle, if_true]
    refine ⟨_, rfl, ?_⟩
    have hquiet : indicates env (msduAt m s.pdata, s.seen) = false := by
      simpa [indicates] using (Bool.and_eq_true_iff.mp hidle).1
    simpa [hquiet] using parsed_grows env pattrib hlen
  | false =>
    have halloc : env.allocMsdu s.seen = true := by
      simpa [accepts, hcontent, hidle] using h
    simp only [hidle, halloc, Bool.false_eq_true, if_false, Bool.not_true]
    refine ⟨_, rfl, ?_⟩
    exact ((led_grows env pattrib hlen).touch (allocReads_inside hlen)).recvFwdPktHdl.indicate

structure Moved (s t : Deagg) (k : ℕ) : Prop where
  pdata : t.pdata = s.pdata + k
  aLen : t.aLen = s.aLen - k
  seen : t.seen = s.seen + 1
  subframes : t.subframes = s.subframes
  reads : t.reads = s.reads

def past (n : ℕ) (s : Deagg) : Deagg := ({ s with seen := s.seen + 1 }.advance ethHlen).advance n

theorem past_moved (n : ℕ) (s : Deagg) : Moved s (past n s) (14 + n) where
  pdata := Nat.add_assoc _ _ _
  aLen := by
    simp only [past, Deagg.advance, ethHlen]
    omega
  seen := rfl
  subframes := rfl
  reads := rfl

theorem Moved.advance {k : ℕ} (h : Moved s t k) (n : ℕ) : Moved s (t.advance n) (k + n) where
  pdata := by
    simp only [Deagg.advance, h.pdata]
    omega
  aLen := by
    simp only [Deagg.advance, h.aLen]
    omega
  seen := h.seen
  subframes := h.subframes
  reads := h.reads

theorem moveToNext_full (h : maxSubframeCount ≤ s.subframes.length) :
    ∃ t, s.moveToNext n = .leave t ∧ Moved s t 14 :=
  ⟨_, if_pos h, rfl, rfl, rfl, rfl, rfl⟩

theorem moveToNext_room (h : s.subframes.length < maxSubframeCount) :
    s.moveToNext n =
      if (past n s).aLen = 0 then .again (past n s)
      else if (past n s).aLen < padLen 4 (14 + n) then .leave (past n s)
      else .again ((past n s).advance (padLen 4 (14 + n))) := by
  have hpad : (if 4 - (n + ethHlen) % 4 = 4 then 0 else 4 - (n + ethHlen) % 4) =
      padLen 4 (14 + n) := by
    rw [Nat.add_comm 14 n, AlignedRecords.padLen_eq (by decide)]
    rfl
  rw [← hpad]
  exact if_neg (Nat.not_le.mpr h)

theorem moveToNext_end (h : s.subframes.length < maxSubframeCount) (hend : s.aLen = 14 + n) :
    ∃ t, s.moveToNext n = .again t ∧ Moved s t (14 + n) := by
  have haLen := (past_moved n s).aLen
  refine ⟨_, ?_, past_moved n s⟩
  rw [moveToNext_room h, if_pos (by omega)]

theorem moveToNext_padded (h : s.subframes.length < maxSubframeCount)
    (hpad : 14 + n + padLen 4 (14 + n) ≤ s.aLen) (hleft : s.aLen ≠ 14 + n) :
    ∃ t, s.moveToNext n = .again t ∧ Moved s t (14 + n + padLen 4 (14 + n)) := by
  have haLen := (past_moved n s).aLen
  refine ⟨_, ?_, (past_moved n s).advance _⟩
  rw [moveToNext_room h, if_neg (by omega), if_neg (by omega)]

theorem moveToNext_again (h : s.moveToNext n = .again t) :
    s.subframes.length < maxSubframeCount ∧ ∃ k : ℕ, 14 ≤ k ∧ k ≤ s.aLen ∧ Moved s t k := by
  cases Nat.lt_or_ge s.subframes.length maxSubframeCount with
  | inr hfull =>
    obtain ⟨u, hu, -⟩ := moveToNext_full (n := n) hfull
    rw [hu] at h
    cases h
  | inl hroom =>
    refine ⟨hroom, ?_⟩
    have haLen := (past_moved n s).aLen
    rw [moveToNext_room hroom] at h
    split at h
    · cases h
      exact ⟨14 + n, by omega, by omega, past_moved n s⟩
    · split at h
      · cases h
      · cases h
        exact ⟨14 + n + padLen 4 (14 + n), by omega, by omega, (past_moved n s).advance _⟩

theorem moveToNext_leave (h : s.moveToNext n = .leave t) :
    t.subframes = s.subframes ∧ t.reads = s.reads := by
  cases Nat.lt_or_ge s.subframes.length maxSubframeCount with
  | inr hfull =>
    obtain ⟨u, hu, hmoved⟩ := moveToNext_full (n := n) hfull
    rw [hu] at h
    cases h
    exact ⟨hmoved.subframes, hmoved.reads⟩
  | inl hroom =>
    rw [moveToNext_room hroom] at h
    split at h
    · cases h
    · split at h
      · cases h
        exact ⟨rfl, rfl⟩
      · cases h

theorem deaggBody_cases (m : Mem UInt8) (hguard : 14 < s.aLen) (hlen : s.pdata + s.aLen ≤ len) :
    (∃ t, deaggBody env pattrib m s = .leave t ∧ Grows len s t []) ∨
      14 + getBe16 m (s.pdata + 12) ≤ s.aLen ∧
        ∃ t, deaggBody env pattrib m s = t.moveToNext (getBe16 m (s.pdata + 12)) ∧
          Grows len s t (if indicates env (msduAt m s.pdata, s.seen) then
            [(msduAt m s.pdata).ethernet] else []) := by
  cases lt_or_ge s.aLen (14 + getBe16 m (s.pdata + 12)) with
  | inl hshort => exact .inl (deaggBody_short env pattrib (by omega) hshort)
  | inr hfit =>
    cases haccepts : accepts env pattrib (msduAt m s.pdata, s.seen) with
    | false => exact .inl (deaggBody_refused env pattrib hfit (by omega) haccepts)
    | true => exact .inr ⟨hfit, deaggBody_taken env pattrib hfit (by omega) haccepts⟩

theorem deaggLoop_less (m : Mem UInt8) (s t : Deagg) (hguard : 14 < s.aLen)
    (hbody : deaggBody env pattrib m s = .again t) : t.aLen.toNat < s.aLen.toNat := by
  have hlen : s.pdata + s.aLen ≤ (s.pdata + s.aLen).toNat := Int.self_le_toNat _
  obtain ⟨u, hu, -⟩ | ⟨hfit, u, hu, hgrows⟩ := deaggBody_cases env pattrib m hguard hlen
  · rw [hu] at hbody
    cases hbody
  · rw [hu] at hbody
    have haLen := hgrows.aLen
    obtain ⟨-, k, hk, hle, hmoved⟩ := moveToNext_again hbody
    have htaLen := hmoved.aLen
    omega

theorem deaggLoop_ends (m : Mem UInt8) (s : Deagg) :
    ∃ t, Ends (deaggLoop env pattrib m) s t ∧
      ∀ fuel, s.aLen.toNat < fuel → WhileLoop.run (deaggLoop env pattrib m) fuel s = some t :=
  WhileLoop.ends_of_measure (fun s => s.aLen.toNat)
    (fun s t hguard => deaggLoop_less env pattrib m s t (of_decide_eq_true hguard)) s

def Contained (data : List UInt8) (pkts : List (List UInt8)) : Prop :=
  ∀ pkt ∈ pkts, ∃ u : Msdu, u.subframe <:+: data ∧ pkt = u.ethernet

structure Sound (data : List UInt8) (s : Deagg) : Prop where
  bound : s.pdata + s.aLen = data.length
  nonneg : 0 ≤ s.aLen
  reads : AllInside (fun _ => data.length) s.reads
  contained : Contained data s.subframes
  room : s.subframes.length < maxSubframeCount

structure Safe (data : List UInt8) (s : Deagg) : Prop where
  reads : AllInside (fun _ => data.length) s.reads
  contained : Contained data s.subframes
  room : s.subframes.length ≤ maxSubframeCount

variable {data : List UInt8}

theorem Sound.safe (h : Sound data s) : Safe data s := ⟨h.reads, h.contained, h.room.le⟩

theorem Sound.grown (h : Sound data s) (hm : Holds m 0 data)
    (hfit : 14 + getBe16 m (s.pdata + 12) ≤ s.aLen) {shown : Bool}
    (hgrows : Grows data.length s t (if shown then [(msduAt m s.pdata).ethernet] else [])) :
    Safe data t where
  reads := hgrows.reads h.reads
  contained := by
    have hbound := h.bound
    have hwithin : (msduAt m s.pdata).subframe <:+: data := subframe_within hm (by omega)
    intro pkt hpkt
    rw [hgrows.subframes, List.mem_append] at hpkt
    cases hpkt with
    | inl hold => exact h.contained pkt hold
    | inr hnew =>
      cases shown with
      | false => cases hnew
      | true => exact ⟨_, hwithin, List.mem_singleton.mp hnew⟩
  room := by
    have hroom := h.room
    rw [hgrows.subframes, List.length_append]
    cases shown with
    | false => exact hroom.le
    | true => exact hroom

theorem Sound.again (h : Sound data s) (hm : Holds m 0 data) (hguard : 14 < s.aLen)
    (hbody : deaggBody env pattrib m s = .again t) : Sound data t := by
  obtain ⟨u, hu, -⟩ | ⟨hfit, u, hu, hgrows⟩ := deaggBody_cases env pattrib m hguard h.bound.le
  · rw [hu] at hbody
    cases hbody
  · rw [hu] at hbody
    have hsafe := h.grown hm hfit hgrows
    have haLen := hgrows.aLen
    have hpdata := hgrows.pdata
    obtain ⟨hroom, k, -, hle, hmoved⟩ := moveToNext_again hbody
    have hbound := h.bound
    refine ⟨?_, ?_, hmoved.reads ▸ hsafe.reads, hmoved.subframes ▸ hsafe.contained,
      hmoved.subframes ▸ hroom⟩
    · rw [hmoved.pdata, hmoved.aLen]
      omega
    · rw [hmoved.aLen]
      omega

theorem Sound.leave (h : Sound data s) (hm : Holds m 0 data) (hguard : 14 < s.aLen)
    (hbody : deaggBody env pattrib m s = .leave t) : Safe data t := by
  obtain ⟨u, hu, hgrows⟩ | ⟨hfit, u, hu, hgrows⟩ :=
    deaggBody_cases env pattrib m hguard h.bound.le
  · rw [hu] at hbody
    cases hbody
    have hsame : t.subframes = s.subframes := by rw [hgrows.subframes, List.append_nil]
    exact ⟨hgrows.reads h.reads, hsame ▸ h.contained, hsame ▸ h.room.le⟩
  · rw [hu] at hbody
    have hsafe := h.grown hm hfit hgrows
    obtain ⟨hsubframes, hreads⟩ := moveToNext_leave hbody
    exact ⟨hreads ▸ hsafe.reads, hsubframes ▸ hsafe.contained, hsubframes ▸ hsafe.room⟩

theorem ends_safe (hm : Holds m 0 data) (h : Sound data s)
    (hends : Ends (deaggLoop env pattrib m) s t) : Safe data t :=
  hends.invariant h (fun _ hs _ => hs.safe)
    (fun _ _ hs hguard hbody => hs.again env pattrib hm (of_decide_eq_true hguard) hbody)
    (fun _ _ hs hguard hbody => hs.leave env pattrib hm (of_decide_eq_true hguard) hbody)

variable {us : List Msdu} {body : List UInt8}

theorem encoded_ends (hm : Holds m s.pdata body) (henc : Encodes 4 (us.map Msdu.subframe) body)
    (hpayload : ∀ u ∈ us, u.payload ≠ []) (haLen : s.aLen = body.length)
    (hcount : s.subframes.length + us.length ≤ maxSubframeCount)
    (hroom : s.subframes.length < maxSubframeCount) :
    ∃ t, Ends (deaggLoop env pattrib m) s t ∧
      t.subframes = s.subframes ++ delivered env pattrib s.seen us := by
  induction us generalizing s body with
  | nil =>
    cases henc with
    | nil =>
      refine ⟨s, WhileLoop.ends_done (decide_eq_false ?_), (List.append_nil _).symm⟩
      rw [haLen]
      decide
  | cons u us ih =>
    have hu : msduAt m s.pdata = u := msduAt_eq (henc.head_holds hm)
    have hn : getBe16 m (s.pdata + 12) = u.payload.length := by rw [← hu, length_msduAt]
    have hpos := List.length_pos_iff.mpr (hpayload u List.mem_cons_self)
    have hlen := henc.length_le
    rw [Msdu.length_subframe] at hlen
    have hguard : (deaggLoop env pattrib m).guard s = true :=
      decide_eq_true (by rw [haLen, ethHlen]; omega)
    have hfit : 14 + getBe16 m (s.pdata + 12) ≤ s.aLen := by omega
    have hinside : s.pdata + 14 + getBe16 m (s.pdata + 12) ≤ s.pdata + body.length := by omega
    cases haccepts : accepts env pattrib (u, s.seen) with
    | false =>
      rw [← hu] at haccepts
      obtain ⟨t, ht, hgrows⟩ := deaggBody_refused env pattrib hfit hinside haccepts
      refine ⟨t, WhileLoop.ends_leave hguard ht, ?_⟩
      rw [hgrows.subframes, ← hu, delivered_refused env pattrib us haccepts]
    | true =>
      rw [delivered_taken env pattrib us haccepts]
      rw [← hu] at haccepts
      obtain ⟨t, ht, hgrows⟩ := deaggBody_taken env pattrib hfit hinside haccepts
      rw [hu] at hgrows
      rw [hn] at ht
      have hgrown : t.subframes.length ≤ s.subframes.length + 1 := by
        rw [hgrows.subframes, List.length_append]
        split <;> simp
      rw [← List.append_assoc, ← hgrows.subframes, ← hgrows.seen]
      rw [List.length_cons] at hcount
      have htaLen := hgrows.aLen
      cases lt_or_ge t.subframes.length maxSubframeCount with
      | inr hfull =>
        obtain ⟨r, hr, hmoved⟩ := moveToNext_full hfull
        refine ⟨r, WhileLoop.ends_leave hguard (ht.trans hr), ?_⟩
        obtain rfl : us = [] := List.eq_nil_of_length_eq_zero (by omega)
        rw [hmoved.subframes, delivered_nil, List.append_nil]
      | inl hopen =>
        cases us with
        | nil =>
          have hbody := henc.only
          obtain ⟨r, hr, hmoved⟩ := moveToNext_end (n := u.payload.length) hopen (by
            rw [htaLen, haLen, hbody, Msdu.length_subframe]
            omega)
          have hraLen : r.aLen = 0 := by
            rw [hmoved.aLen, htaLen, haLen, hbody, Msdu.length_subframe]
            omega
          have hdone : Ends (deaggLoop env pattrib m) r r :=
            WhileLoop.ends_done (decide_eq_false (by rw [hraLen]; decide))
          refine ⟨r, WhileLoop.ends_again hguard (ht.trans hr) hdone, ?_⟩
          rw [hmoved.subframes, delivered_nil, List.append_nil]
        | cons v vs =>
          obtain ⟨tail, htail, hlength, hmtail⟩ := henc.tail_holds (by simp) hm
          rw [Msdu.length_subframe] at hlength hmtail
          have htailPos : 0 < tail.length := htail.length_gt (Msdu.subframes_pos _) (by simp)
          obtain ⟨r, hr, hmoved⟩ := moveToNext_padded (n := u.payload.length) hopen
            (by omega) (by omega)
          have hrpdata : r.pdata = s.pdata + (14 + u.payload.length) +
              padLen 4 (14 + u.payload.length) := by
            rw [hmoved.pdata, hgrows.pdata, Nat.add_assoc s.pdata]
          have hrsubframes := hmoved.subframes
          obtain ⟨last, hlast, hall⟩ := ih (s := r) (hrpdata ▸ hmtail) htail
            (fun w hw => hpayload w (List.mem_cons_of_mem u hw))
            (by rw [hmoved.aLen]; omega) (by rw [hrsubframes]; omega) (by rwa [hrsubframes])
          refine ⟨last, WhileLoop.ends_again hguard (ht.trans hr) hlast, ?_⟩
          rw [hall, hrsubframes, hmoved.seen]

end Loop

structure Encapsulates (f : RecvFrame) (body : List UInt8) : Prop where
  split : ∃ hdr iv icv, f.data = hdr ++ (iv ++ (body ++ icv)) ∧ hdr.length = f.attrib.hdrlen ∧
    iv.length = f.attrib.ivLen ∧
    icv.length = if f.attrib.encrypt ≠ .noPrivacy then f.attrib.icvLen else 0

theorem recvframePull_data {f : RecvFrame} {hdr rest : List UInt8} (h : f.data = hdr ++ rest)
    (hlen : hdr.length = n) : f.recvframePull n = { f with data := rest } := by
  have hle : n ≤ f.len := by simp [RecvFrame.len, h, hlen]
  rw [RecvFrame.recvframePull, if_pos hle, h, List.drop_left' hlen]

theorem recvframePullTail_data {f : RecvFrame} {rest icv : List UInt8} (h : f.data = rest ++ icv)
    (hlen : icv.length = n) : (f.recvframePullTail n).data = rest := by
  have hkept : f.len - n = rest.length := by
    rw [RecvFrame.len, h, List.length_append]
    omega
  have hle : n ≤ f.len := by simp [RecvFrame.len, h, hlen]
  rw [RecvFrame.recvframePullTail, if_pos hle, hkept, h, List.take_left]

theorem pullIv_data {f : RecvFrame} {iv rest : List UInt8} (h : f.data = iv ++ rest)
    (hlen : iv.length = f.attrib.ivLen) : pullIv f = { f with data := rest } := by
  rw [pullIv]
  split
  · exact recvframePull_data h hlen
  · obtain rfl : iv = [] := List.eq_nil_of_length_eq_zero (by omega)
    rw [List.nil_append] at h
    rw [← h]

theorem pullIcv_data {f : RecvFrame} {rest icv : List UInt8} (h : f.data = rest ++ icv)
    (hlen : icv.length = if f.attrib.encrypt ≠ .noPrivacy then f.attrib.icvLen else 0) :
    (pullIcv f).data = rest := by
  rw [pullIcv]
  split
  · rename_i hencrypt
    rw [if_pos hencrypt] at hlen
    exact recvframePullTail_data h hlen
  · rename_i hplain
    rw [if_neg hplain] at hlen
    obtain rfl : icv = [] := List.eq_nil_of_length_eq_zero hlen
    rw [h, List.append_nil]

theorem pullHeaders_data {f : RecvFrame} {body : List UInt8} (h : Encapsulates f body) :
    (pullHeaders f).data = body := by
  obtain ⟨hdr, iv, icv, hdata, hhdr, hiv, hicv⟩ := h.split
  have hivData : pullIv { f with data := iv ++ (body ++ icv) } = { f with data := body ++ icv } :=
    pullIv_data rfl hiv
  rw [pullHeaders, recvframePull_data hdata hhdr, hivData]
  exact pullIcv_data rfl hicv

theorem recvframePull_end (f : RecvFrame) (n : ℕ) :
    (f.recvframePull n).data <:+ f.data ∧ (f.recvframePull n).attrib = f.attrib := by
  rw [RecvFrame.recvframePull]
  split
  · exact ⟨List.drop_suffix _ _, rfl⟩
  · exact ⟨List.suffix_rfl, rfl⟩

theorem pullIv_end (f : RecvFrame) :
    (pullIv f).data <:+ f.data ∧ (pullIv f).attrib = f.attrib := by
  rw [pullIv]
  split
  · exact recvframePull_end f _
  · exact ⟨List.suffix_rfl, rfl⟩

theorem pullIcv_start (f : RecvFrame) :
    (pullIcv f).data <+: f.data ∧ (pullIcv f).attrib = f.attrib := by
  rw [pullIcv, RecvFrame.recvframePullTail]
  split
  · split
    · exact ⟨List.take_prefix _ _, rfl⟩
    · exact ⟨List.prefix_rfl, rfl⟩
  · exact ⟨List.prefix_rfl, rfl⟩

theorem pullHeaders_within (f : RecvFrame) :
    (pullHeaders f).data <:+: f.data ∧ (pullHeaders f).attrib = f.attrib := by
  obtain ⟨hhdr, hhdrAttrib⟩ := recvframePull_end f f.attrib.hdrlen
  obtain ⟨hiv, hivAttrib⟩ := pullIv_end (f.recvframePull f.attrib.hdrlen)
  obtain ⟨hicv, hicvAttrib⟩ := pullIcv_start (pullIv (f.recvframePull f.attrib.hdrlen))
  exact ⟨hicv.isInfix.trans (hiv.trans hhdr).isInfix, hicvAttrib.trans (hivAttrib.trans hhdrAttrib)⟩

theorem frameMem_holds (f : RecvFrame) (beyond : Mem UInt8) : Holds (frameMem f beyond) 0 f.data := by
  intro i hi
  simp [frameMem, RecvFrame.rxData, List.getElem?_append_left hi, hi]

theorem delivered_all {env : AmsduEnv} {pattrib : RxPktAttrib} {us : List Msdu}
    (h : ∀ p ∈ us.zipIdx i, accepts env pattrib p = true ∧ indicates env p = true) :
    delivered env pattrib i us = us.map Msdu.ethernet := by
  induction us generalizing i with
  | nil => rfl
  | cons u us ih =>
    rw [List.zipIdx_cons, List.forall_mem_cons] at h
    obtain ⟨⟨haccepts, hindicates⟩, hrest⟩ := h
    rw [delivered_taken env pattrib us haccepts, if_pos hindicates, ih hrest]
    rfl

theorem amsdu_to_msdu_law (env : AmsduEnv) (f : RecvFrame) (beyond : Mem UInt8) :
    ∃ d, (∀ fuel, f.len < fuel → amsduToMsdu env f beyond fuel = some d) ∧
      AllInside (fun _ => (pullHeaders f).len) d.reads ∧
      (∀ pkt ∈ d.subframes, ∃ u : Msdu, u.subframe <:+: f.data ∧ pkt = u.ethernet) ∧
      d.subframes.length ≤ maxSubframeCount ∧
      ∀ us body, Encapsulates f body → Encodes 4 (us.map Msdu.subframe) body →
        (∀ u ∈ us, u.payload ≠ []) → us.length ≤ maxSubframeCount →
          d.subframes = delivered env f.attrib 0 us ∧
            ((∀ p ∈ us.zipIdx, accepts env f.attrib p = true ∧ indicates env p = true) →
              d.subframes = us.map Msdu.ethernet) := by
  obtain ⟨hwithin, hattrib⟩ := pullHeaders_within f
  have hm := frameMem_holds (pullHeaders f) beyond
  obtain ⟨d, hends, hrun⟩ := deaggLoop_ends env f.attrib (frameMem (pullHeaders f) beyond)
    (deaggStart (pullHeaders f).len)
  have hsound : Sound (pullHeaders f).data (deaggStart (pullHeaders f).len) :=
    ⟨Int.zero_add _, Int.natCast_nonneg _, by simp [deaggStart], by simp [deaggStart, Contained],
      Nat.zero_lt_succ _⟩
  have hsafe := ends_safe env f.attrib hm hsound hends
  refine ⟨d, fun fuel hfuel => ?_, hsafe.reads, fun pkt hpkt => ?_, hsafe.room,
    fun us body hcaps henc hpayload hcount => ?_⟩
  · have hle : (pullHeaders f).len ≤ f.len := hwithin.length_le
    rw [amsduToMsdu, hattrib]
    exact hrun fuel (hle.trans_lt hfuel)
  · obtain ⟨u, hu, heq⟩ := hsafe.contained pkt hpkt
    exact ⟨u, hu.trans hwithin, heq⟩
  · have hdata := pullHeaders_data hcaps
    obtain ⟨t, ht, hsubframes⟩ := encoded_ends env f.attrib (s := deaggStart (pullHeaders f).len)
      (hdata ▸ hm) henc hpayload (by rw [← hdata]; rfl) (by simpa [deaggStart] using hcount)
      (Nat.zero_lt_succ _)
    obtain rfl := hends.unique ht
    have hall : d.subframes = delivered env f.attrib 0 us := by simpa [deaggStart] using hsubframes
    exact ⟨hall, fun hopen => hall.trans (delivered_all hopen)⟩

def protectedEnv : AmsduEnv where
  adapter :=
    { fwState := ⟨false, true, false, false, true, false⟩
      macAddr := localAddr 1
      bssid := localAddr 9
      securitypriv := { SecurityPriv.zero with dot11PrivacyAlgrthm := .aes }
      stapriv := []
      recvpriv := rtwInitRecvPriv }
  amsduMode := .nonSpp
  apIsolate := false
  asocListCnt := 0
  fwdResource _ := true
  allocMsdu _ := true

def strayMsdu : Msdu := ⟨localAddr 2, localAddr 3, [0x2a], by decide⟩

def strayFrame : RecvFrame :=
  { rtwInitRecvframe 0 with
    attrib := { RxPktAttrib.zero with
      hdrlen := 26, toFrDs := 2, amsdu := true, qos := true, privacy := true, bdecrypted := true
      encrypt := .aes, ivLen := 8, icvLen := 8, ra := localAddr 1, ta := localAddr 9 }
    data := List.replicate 34 0 ++ (strayMsdu.subframe ++ List.replicate 8 0) }

theorem amsdu_stray_address_dropped :
    ¬ ∀ (env : AmsduEnv) (f : RecvFrame) (beyond : Mem UInt8) (us : List Msdu) (body : List UInt8),
      Encapsulates f body → Encodes 4 (us.map Msdu.subframe) body → (∀ u ∈ us, u.payload ≠ []) →
        us.length ≤ maxSubframeCount →
          ∃ fuel d, amsduToMsdu env f beyond fuel = some d ∧
            d.subframes = us.map Msdu.ethernet := by
  intro h
  have hcaps : Encapsulates strayFrame strayMsdu.subframe :=
    ⟨List.replicate 26 0, List.replicate 8 0, List.replicate 8 0, by decide, rfl, rfl, rfl⟩
  obtain ⟨fuel, d, hrun, hall⟩ := h protectedEnv strayFrame (fun _ => 0) [strayMsdu] _ hcaps
    (.last _) (by simp [strayMsdu]) (by decide)
  have hends : WhileLoop.run (deaggLoop protectedEnv (pullHeaders strayFrame).attrib
      (frameMem (pullHeaders strayFrame) fun _ => 0)) 1 (deaggStart (pullHeaders strayFrame).len) =
        some ⟨0, 15, 0, [], [], [rd 12 2, rd 0 6, rd 0 6], []⟩ := by decide
  rw [WhileLoop.Ends.unique ⟨fuel, hrun⟩ ⟨1, hends⟩] at hall
  cases hall

end Recv.Amsdu
