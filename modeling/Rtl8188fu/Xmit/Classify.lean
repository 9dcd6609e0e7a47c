import Mathlib.Data.List.Basic
import Mathlib.Data.UInt
import Mathlib.Tactic.Common

namespace Xmit.Classify

structure PktFile where
  pkt : List UInt8
  curAddr : ℕ
  pktLen : ℕ

namespace PktFile

variable (f : PktFile)

def openPktfile (pkt : List UInt8) : PktFile := ⟨pkt, 0, pkt.length⟩

def remainderLen : ℕ := f.pkt.length - f.curAddr

def read (rmem : Option (List UInt8)) (rlen : ℕ) : PktFile × List UInt8 :=
  let len := min rlen f.remainderLen
  (⟨f.pkt, f.curAddr + len, f.pktLen - len⟩,
    match rmem with
    | none => []
    | some old => (f.pkt.drop (f.pkt.length - f.pktLen)).take len ++ old.drop len)

end PktFile

def octet (bs : List UInt8) (i : ℕ) : UInt8 := bs.getD i 0

def be16 (bs : List UInt8) (i : ℕ) : ℕ := (octet bs i).toNat * 256 + (octet bs (i + 1)).toNat

def ethHlen : ℕ := 14

def ethPIp : ℕ := 0x0800

def ipv4Ihl (ip : List UInt8) : ℕ := (octet ip 0).toNat % 16

def ipv4Protocol (ip : List UInt8) : UInt8 := octet ip 9

def ipv4Src (ip : List UInt8) : List UInt8 := (ip.drop 12).take 4

def ipv4Dst (ip : List UInt8) : List UInt8 := (ip.drop 16).take 4

def udpSrc (udp : List UInt8) : ℕ := be16 udp 0

def udpDst (udp : List UInt8) : ℕ := be16 udp 2

def tcpSrc (tcp : List UInt8) : List UInt8 := tcp.take 2

def tcpDst (tcp : List UInt8) : List UInt8 := (tcp.drop 2).take 2

def tcpFin (tcp : List UInt8) : Bool := (octet tcp 13).toNat.testBit 0

def tcpSyn (tcp : List UInt8) : Bool := (octet tcp 13).toNat.testBit 1

def tcpAck (tcp : List UInt8) : Bool := (octet tcp 13).toNat.testBit 4

structure StRegister where
  sProto : UInt8
  rule : Option (List UInt8 → List UInt8 → List UInt8 → List UInt8 → Bool)

structure StCtl where
  reg : List StRegister

namespace StCtl

variable (c : StCtl)

def chkRegSProto (sProto : UInt8) : Bool := c.reg.any fun r => decide (r.sProto = sProto)

def chkRegRule (localNaddr localPort remoteNaddr remotePort : List UInt8) : Bool :=
  c.reg.any fun r =>
    match r.rule with
    | none => false
    | some rule => rule localNaddr localPort remoteNaddr remotePort

end StCtl

inductive TrackerCmd where
  | add (localNaddr localPort remoteNaddr remotePort : List UInt8)
  | del (localNaddr localPort remoteNaddr remotePort : List UInt8)
  deriving DecidableEq

structure TxSta where
  asoc : Bool
  stCtl : StCtl

structure TxStack where
  etherhdr : Vector UInt8 14
  ip : Vector UInt8 20
  udp : Vector UInt8 24
  tcp : Vector UInt8 20

structure TxAttrib where
  etherType : ℕ
  pktlen : ℕ
  icmpPkt : Bool
  dhcpPkt : Bool
  hipriorityPkt : Bool

structure TxUpdate where
  attrib : TxAttrib
  cmds : List TrackerCmd

def isDhcp (udp : List UInt8) : Bool :=
  decide (udpSrc udp = 68 ∧ udpDst udp = 67) || decide (udpSrc udp = 67 ∧ udpDst udp = 68)

def isWaveAgent (udp : List UInt8) : Bool :=
  (decide (octet udp 8 = 0xcc) || decide (octet udp 8 = 0xdd)) && decide (octet udp 23 = 0xe2)

def trackTcp (c : StCtl) (ip tcp : List UInt8) : List TrackerCmd :=
  if c.chkRegRule (ipv4Src ip) (tcpSrc tcp) (ipv4Dst ip) (tcpDst tcp) then
    (if tcpSyn tcp && tcpAck tcp then
      [.add (ipv4Src ip) (tcpSrc tcp) (ipv4Src ip) (tcpDst tcp)] else []) ++
    (if tcpFin tcp then [.del (ipv4Src ip) (tcpSrc tcp) (ipv4Src ip) (tcpDst tcp)] else [])
  else []

def updateAttribIp (c : StCtl) (stack : TxStack) (a : TxAttrib) (f : PktFile) : TxUpdate :=
  let (f, ip) := f.read (some stack.ip.toList) 20
  let f := if 20 < ipv4Ihl ip * 4 then (f.read none ((ipv4Ihl ip + 2 ^ 32 - 20) % 2 ^ 32)).1 else f
  let a := { a with icmpPkt := false, dhcpPkt := false, hipriorityPkt := false }
  if ipv4Protocol ip = 0x01 then ⟨{ a with icmpPkt := true }, []⟩
  else if ipv4Protocol ip = 0x11 then
    let udp := (f.read (some stack.udp.toList) 24).2
    ⟨{ a with dhcpPkt := isDhcp udp && decide (282 < a.pktlen), hipriorityPkt := isWaveAgent udp }, []⟩
  else if ipv4Protocol ip = 0x06 && c.chkRegSProto 0x06 then
    ⟨a, trackTcp c ip (f.read (some stack.tcp.toList) 20).2⟩
  else ⟨a, []⟩

def updateAttrib (psta : Option TxSta) (stack : TxStack) (a : TxAttrib) (pkt : List UInt8) :
    Option TxUpdate :=
  let (f, etherhdr) := (PktFile.openPktfile pkt).read (some stack.etherhdr.toList) ethHlen
  let a := { a with etherType := be16 etherhdr 12 }
  match psta.filter TxSta.asoc with
  | none => none
  | some sta =>
    let a := { a with pktlen := f.pktLen }
    some (if a.etherType = ethPIp then updateAttribIp sta.stCtl stack a f else ⟨a, []⟩)

structure Ipv4Packet where
  bytes : List UInt8
  etherType : be16 bytes 12 = ethPIp
  header : ethHlen + 4 * ipv4Ihl (bytes.drop ethHlen) ≤ bytes.length
  ihl : 5 ≤ ipv4Ihl (bytes.drop ethHlen)
  u32 : bytes.length < 2 ^ 32

namespace Ipv4Packet

variable (p : Ipv4Packet)

def ip : List UInt8 := p.bytes.drop ethHlen

def protocol : UInt8 := ipv4Protocol p.ip

def transport : List UInt8 := p.ip.drop (4 * ipv4Ihl p.ip)

def Dhcp : Prop := p.protocol = 0x11 ∧ isDhcp p.transport = true ∧ 282 < p.ip.length

def sessionCmds (c : StCtl) (tcp : List UInt8) : List TrackerCmd :=
  if c.chkRegRule (ipv4Src p.ip) (tcpSrc tcp) (ipv4Dst p.ip) (tcpDst tcp) then
    (if tcpSyn tcp && tcpAck tcp then
      [.add (ipv4Src p.ip) (tcpSrc tcp) (ipv4Dst p.ip) (tcpDst tcp)] else []) ++
    (if tcpFin tcp then [.del (ipv4Src p.ip) (tcpSrc tcp) (ipv4Dst p.ip) (tcpDst tcp)] else [])
  else []

def wantedCmds (c : StCtl) : List TrackerCmd :=
  if p.protocol = 0x06 ∧ c.chkRegSProto 0x06 = true ∧ 20 ≤ p.transport.length then
    p.sessionCmds c (p.transport.take 20)
  else []

structure Right (c : StCtl) (u : TxUpdate) : Prop where
  dhcp : u.attrib.dhcpPkt = true ↔ p.Dhcp
  cmds : u.cmds = p.wantedCmds c

def seen : List UInt8 := if ipv4Ihl p.ip = 5 then p.transport else []

structure Sound (c : StCtl) : Prop where
  udp : p.protocol = 0x11 → 5 < ipv4Ihl p.ip → p.ip.length ≤ 282
  whole : p.protocol = 0x06 → c.chkRegSProto 0x06 = true → 20 ≤ p.seen.length →
    p.wantedCmds c = [] ∨ ipv4Src p.ip = ipv4Dst p.ip
  short : p.protocol = 0x06 → c.chkRegSProto 0x06 = true → p.seen.length < 20 →
    ∀ tcp : List UInt8, tcp.length = 20 → p.seen <+: tcp → p.sessionCmds c tcp = []

end Ipv4Packet

namespace PktFile

variable {pkt old : List UInt8} {k rlen : ℕ}

def «at» (pkt : List UInt8) (k : ℕ) : PktFile := ⟨pkt, k, pkt.length - k⟩

def filled (seen old : List UInt8) (n : ℕ) : List UInt8 :=
  seen.take n ++ old.drop (min n seen.length)

theorem read_at (pkt : List UInt8) (k rlen : ℕ) (rmem : Option (List UInt8)) (hk : k ≤ pkt.length) :
    («at» pkt k).read rmem rlen = («at» pkt (k + min rlen (pkt.length - k)),
      (rmem.map fun old => filled (pkt.drop k) old rlen).getD []) := by
  have hstart : pkt.length - (pkt.length - k) = k := Nat.sub_sub_self hk
  simp only [read, remainderLen, PktFile.at, hstart]
  refine Prod.ext ?_ ?_
  · rw [Nat.sub_sub]
  · cases rmem with
    | none => rfl
    | some old =>
      have htake : (pkt.drop k).take (min rlen (pkt.length - k)) = (pkt.drop k).take rlen := by
        rw [← List.length_drop, ← List.take_eq_take_min]
      simp only [Option.map_some, Option.getD_some, filled, htake, List.length_drop]

theorem filled_full {seen : List UInt8} {n : ℕ} (hold : old.length = n) (hseen : n ≤ seen.length) :
    filled seen old n = seen.take n := by
  rw [filled, Nat.min_eq_left hseen, List.drop_of_length_le (Nat.le_of_eq hold), List.append_nil]

theorem length_filled {seen : List UInt8} {n : ℕ} (hold : old.length = n) :
    (filled seen old n).length = n := by
  rw [filled, List.length_append, List.length_take, List.length_drop, hold]
  omega

end PktFile

section Fields

variable {bs : List UInt8} {i n : ℕ}

theorem octet_take (h : i < n) : octet (bs.take n) i = octet bs i := by
  rw [octet, octet, List.getD_eq_getElem?_getD, List.getD_eq_getElem?_getD,
    List.getElem?_take_of_lt h]

theorem be16_take (h : i + 1 < n) : be16 (bs.take n) i = be16 bs i := by
  rw [be16, be16, octet_take (Nat.lt_of_succ_lt h), octet_take h]

theorem isDhcp_take (h : 4 ≤ n) : isDhcp (bs.take n) = isDhcp bs := by
  rw [isDhcp, isDhcp, udpSrc, udpDst, udpSrc, udpDst, be16_take (by omega), be16_take (by omega)]

theorem ipv4Src_take : ipv4Src (bs.take 20) = ipv4Src bs := by
  rw [ipv4Src, ipv4Src, List.drop_take, List.take_take]
  rfl

theorem ipv4Dst_take : ipv4Dst (bs.take 20) = ipv4Dst bs := by
  rw [ipv4Dst, ipv4Dst, List.drop_take, List.take_take]
  rfl

end Fields

namespace Ipv4Packet

variable (p : Ipv4Packet) {c : StCtl} {stack : TxStack}

theorem ihl_lt : ipv4Ihl p.ip < 16 := Nat.mod_lt _ (by decide)

theorem length_ip : p.ip.length = p.bytes.length - ethHlen := List.length_drop

theorem length_ip_ge : 4 * ipv4Ihl p.ip ≤ p.ip.length := by
  have hheader := p.header
  rw [length_ip]
  rw [ip]
  omega

theorem length_transport : p.transport.length = p.ip.length - 4 * ipv4Ihl p.ip := List.length_drop

def cursor : ℕ := if ipv4Ihl p.ip = 5 then ethHlen + 20 else p.bytes.length

theorem cursor_le : p.cursor ≤ p.bytes.length := by
  have hheader := p.header
  have hihl := p.ihl
  rw [cursor]
  split <;> omega

theorem drop_cursor : p.bytes.drop p.cursor = p.seen := by
  rw [cursor, seen]
  split
  · next hihl => rw [transport, hihl, ip, List.drop_drop]
  · exact List.drop_of_length_le (Nat.le_refl _)

theorem skip_cursor :
    (if 20 < ipv4Ihl p.ip * 4 then
      ((PktFile.at p.bytes (ethHlen + 20)).read none ((ipv4Ihl p.ip + 2 ^ 32 - 20) % 2 ^ 32)).1
      else PktFile.at p.bytes (ethHlen + 20)) = PktFile.at p.bytes p.cursor := by
  have hheader := p.header
  have hihl : 5 ≤ ipv4Ihl p.ip := p.ihl
  have hlt := p.ihl_lt
  have hu32 := p.u32
  have hstart : ethHlen + 20 ≤ p.bytes.length := by
    rw [ip] at hihl
    omega
  rw [cursor]
  cases Nat.eq_or_lt_of_le hihl with
  | inl hfive => rw [← hfive, if_neg (by decide), if_pos rfl]
  | inr hlong =>
    have hskip : ethHlen + 20 + min ((ipv4Ihl p.ip + 2 ^ 32 - 20) % 2 ^ 32)
        (p.bytes.length - (ethHlen + 20)) = p.bytes.length := by
      have hethHlen : ethHlen = 14 := rfl
      omega
    rw [if_pos (by omega), if_neg (Nat.ne_of_gt hlong), PktFile.read_at _ _ _ _ hstart, hskip]

theorem updateAttribIp_eq (c : StCtl) (stack : TxStack) (a : TxAttrib) (ha : a.pktlen = p.ip.length) :
    let u := updateAttribIp c stack a (PktFile.at p.bytes ethHlen)
    u.attrib.dhcpPkt = (decide (p.protocol = 0x11) &&
      (isDhcp (PktFile.filled p.seen stack.udp.toList 24) && decide (282 < p.ip.length))) ∧
    u.cmds = if p.protocol = 0x06 ∧ c.chkRegSProto 0x06 = true then
      trackTcp c p.ip (PktFile.filled p.seen stack.tcp.toList 20) else [] := by
  have hihl : 5 ≤ ipv4Ihl p.ip := p.ihl
  have hlen := p.length_ip_ge
  have hheader := p.header
  have hread : (PktFile.at p.bytes ethHlen).read (some stack.ip.toList) 20 =
      (PktFile.at p.bytes (ethHlen + 20), p.ip.take 20) := by
    have hmin : min 20 (p.bytes.length - ethHlen) = 20 := by
      rw [← length_ip]
      omega
    rw [PktFile.read_at _ _ _ _ (by omega), hmin, Option.map_some, Option.getD_some,
      PktFile.filled_full (by simp) (by rw [← ip]; omega), ip]
  have hihlTake : ipv4Ihl (p.ip.take 20) = ipv4Ihl p.ip := by
    rw [ipv4Ihl, ipv4Ihl, octet_take (by decide)]
  have hproto : ipv4Protocol (p.ip.take 20) = p.protocol := octet_take (by decide)
  have htrack (tcp : List UInt8) : trackTcp c (p.ip.take 20) tcp = trackTcp c p.ip tcp := by
    rw [trackTcp, trackTcp, ipv4Src_take, ipv4Dst_take]
  simp only [updateAttribIp, hread, hihlTake, p.skip_cursor, hproto, htrack,
    PktFile.read_at _ _ _ _ p.cursor_le, p.drop_cursor, Option.map_some, Option.getD_some, ha]
  cases Decidable.em (p.protocol = 0x01) with
  | inl hicmp =>
    rw [if_pos hicmp, hicmp]
    exact ⟨rfl, rfl⟩
  | inr hother =>
    rw [if_neg hother]
    cases Decidable.em (p.protocol = 0x11) with
    | inl hudp =>
      rw [if_pos hudp, hudp]
      exact ⟨rfl, rfl⟩
    | inr hother' =>
      rw [if_neg hother', decide_eq_false hother', Bool.false_and]
      simp only [Bool.and_eq_true, decide_eq_true_eq]
      split <;> exact ⟨rfl, rfl⟩

theorem updateAttrib_eq (sta : TxSta) (hasoc : sta.asoc = true) (stack : TxStack) (a : TxAttrib) :
    ∃ a', a'.pktlen = p.ip.length ∧ updateAttrib (some sta) stack a p.bytes =
      some (updateAttribIp sta.stCtl stack a' (PktFile.at p.bytes ethHlen)) := by
  have hheader := p.header
  have hread : (PktFile.openPktfile p.bytes).read (some stack.etherhdr.toList) ethHlen =
      (PktFile.at p.bytes ethHlen, p.bytes.take ethHlen) := by
    have hopen : PktFile.openPktfile p.bytes = PktFile.at p.bytes 0 := rfl
    rw [hopen, PktFile.read_at _ _ _ _ (Nat.zero_le _), Nat.min_eq_left (by omega),
      Option.map_some, Option.getD_some, List.drop_zero,
      PktFile.filled_full (by simp [ethHlen]) (by omega), Nat.zero_add]
  refine ⟨⟨ethPIp, p.ip.length, a.icmpPkt, a.dhcpPkt, a.hipriorityPkt⟩, rfl, ?_⟩
  have htype : be16 (p.bytes.take ethHlen) 12 = ethPIp := (be16_take (by decide)).trans p.etherType
  have hlen : (PktFile.at p.bytes ethHlen).pktLen = p.ip.length := p.length_ip.symm
  simp only [updateAttrib, hread, htype, Option.filter_some, hasoc, if_pos, hlen]

theorem wantedCmds_eq (hproto : p.protocol = 0x06) (hreg : c.chkRegSProto 0x06 = true)
    (hlen : 20 ≤ p.transport.length) : p.wantedCmds c = p.sessionCmds c (p.transport.take 20) := by
  rw [wantedCmds, if_pos ⟨hproto, hreg, hlen⟩]

theorem trackTcp_nil_iff (tcp : List UInt8) : trackTcp c p.ip tcp = [] ↔ p.sessionCmds c tcp = [] := by
  rw [trackTcp, sessionCmds]
  split
  · cases (tcpSyn tcp && tcpAck tcp) <;> cases tcpFin tcp <;> simp
  · rfl

theorem trackTcp_eq_iff (tcp : List UInt8) : trackTcp c p.ip tcp = p.sessionCmds c tcp ↔
    p.sessionCmds c tcp = [] ∨ ipv4Src p.ip = ipv4Dst p.ip := by
  rw [trackTcp, sessionCmds]
  split
  · cases (tcpSyn tcp && tcpAck tcp) <;> cases tcpFin tcp <;> simp
  · simp

theorem seen_five (h : ipv4Ihl p.ip = 5) : p.seen = p.transport := if_pos h

theorem seen_options (h : 5 < ipv4Ihl p.ip) : p.seen = [] := if_neg (Nat.ne_of_gt h)

theorem filled_fits {seen old : List UInt8} {n : ℕ} (hold : old.length = n) (hseen : seen <+: old) :
    PktFile.filled seen old n = old := by
  obtain ⟨rest, rfl⟩ := hseen
  rw [List.length_append] at hold
  rw [PktFile.filled, List.take_of_length_le (by omega), Nat.min_eq_right (by omega), List.drop_left]

theorem prefix_filled {seen old : List UInt8} {n : ℕ} (hseen : seen.length ≤ n) :
    seen <+: PktFile.filled seen old n := by
  rw [PktFile.filled, List.take_of_length_le hseen]
  exact List.prefix_append _ _

def stackOf (udp : Vector UInt8 24) (tcp : Vector UInt8 20) : TxStack :=
  ⟨Vector.replicate 14 0, Vector.replicate 20 0, udp, tcp⟩

theorem wantedCmds_nil (h : ∀ tcp, tcp.length = 20 → p.seen <+: tcp → p.sessionCmds c tcp = [])
    (hseen : p.seen.length < 20) : p.wantedCmds c = [] := by
  rw [wantedCmds]
  split
  · next hwhole =>
    refine h _ (List.length_take_of_le hwhole.2.2) ?_
    cases Nat.eq_or_lt_of_le p.ihl with
    | inl hfive =>
      rw [p.seen_five hfive.symm] at hseen
      exact absurd hwhole.2.2 (Nat.not_le.mpr hseen)
    | inr hlong =>
      rw [p.seen_options hlong]
      exact List.nil_prefix
  · rfl

theorem quiet_stack (hseen : p.seen.length < 20)
    (h : ∀ stack : TxStack, trackTcp c p.ip (PktFile.filled p.seen stack.tcp.toList 20) =
      p.wantedCmds c) : p.wantedCmds c = [] := by
  cases Nat.eq_or_lt_of_le p.ihl with
  | inl hfive =>
    rw [p.seen_five hfive.symm] at hseen
    rw [wantedCmds, if_neg fun hwhole => absurd hwhole.2.2 (Nat.not_le.mpr hseen)]
  | inr hlong =>
    have hzero := h (stackOf (Vector.replicate 24 0) (Vector.replicate 20 0))
    rw [← hzero, p.seen_options hlong, filled_fits (by simp [stackOf]) List.nil_prefix, trackTcp]
    split <;> rfl

theorem tcp_iff (hproto : p.protocol = 0x06) (hreg : c.chkRegSProto 0x06 = true) :
    (∀ stack : TxStack, trackTcp c p.ip (PktFile.filled p.seen stack.tcp.toList 20) =
      p.wantedCmds c) ↔
    (20 ≤ p.seen.length → p.wantedCmds c = [] ∨ ipv4Src p.ip = ipv4Dst p.ip) ∧
    (p.seen.length < 20 →
      ∀ tcp : List UInt8, tcp.length = 20 → p.seen <+: tcp → p.sessionCmds c tcp = []) := by
  cases Nat.lt_or_ge p.seen.length 20 with
  | inl hshort =>
    rw [and_iff_right fun hlong => absurd hshort (Nat.not_lt.mpr hlong)]
    constructor
    · intro h _ tcp hlen hpre
      have hwanted := p.quiet_stack hshort h
      have hfilled := h (stackOf (Vector.replicate 24 0) ⟨tcp.toArray, hlen⟩)
      rw [hwanted] at hfilled
      refine (p.trackTcp_nil_iff tcp).mp ?_
      rwa [filled_fits (by simpa [stackOf] using hlen) (by simpa [stackOf] using hpre)] at hfilled
    · intro h stack
      have hquiet := h hshort
      rw [p.wantedCmds_nil hquiet hshort, trackTcp_nil_iff]
      exact hquiet _ (PktFile.length_filled (by simp)) (prefix_filled (Nat.le_of_lt hshort))
  | inr hlong =>
    rw [and_iff_left fun hshort => absurd hshort (Nat.not_lt.mpr hlong)]
    have hfive : ipv4Ihl p.ip = 5 := by
      rw [seen] at hlong
      split at hlong
      · next hfive => exact hfive
      · exact absurd hlong (by decide)
    have hseen := p.seen_five hfive
    have hfilled (stack : TxStack) : PktFile.filled p.seen stack.tcp.toList 20 =
        p.transport.take 20 := by
      rw [PktFile.filled_full (by simp) hlong, hseen]
    rw [hseen] at hlong
    simp only [hfilled, p.wantedCmds_eq hproto hreg hlong, trackTcp_eq_iff]
    rw [hseen]
    exact ⟨fun h _ => h (stackOf (Vector.replicate 24 0) (Vector.replicate 20 0)), fun h _ => h hlong⟩

def dhcpRequest : Vector UInt8 24 :=
  #v[0, 68, 0, 67, 0, 0, 0, 0, 0, 0, 0, 0, 0, 0, 0, 0, 0, 0, 0, 0, 0, 0, 0, 0]

theorem udp_iff (hproto : p.protocol = 0x11) :
    (∀ stack : TxStack, (isDhcp (PktFile.filled p.seen stack.udp.toList 24) &&
      decide (282 < p.ip.length)) = true ↔ p.Dhcp) ↔
    (5 < ipv4Ihl p.ip → p.ip.length ≤ 282) := by
  have hdhcp : p.Dhcp ↔ isDhcp p.transport = true ∧ 282 < p.ip.length := by
    rw [Dhcp, and_iff_right hproto]
  simp only [hdhcp, Bool.and_eq_true, decide_eq_true_eq]
  cases Nat.lt_or_ge 282 p.ip.length with
  | inr hsmall =>
    have hnever : ¬ 282 < p.ip.length := Nat.not_lt.mpr hsmall
    exact iff_of_true (fun _ => iff_of_false (fun h => hnever h.2) fun h => hnever h.2)
      fun _ => hsmall
  | inl hlarge =>
    simp only [hlarge, and_true]
    cases Nat.eq_or_lt_of_le p.ihl with
    | inl hfive =>
      refine iff_of_true (fun stack => ?_) fun hlong => absurd hlong (by rw [ip, ← hfive]; decide)
      have hlen : 24 ≤ p.transport.length := by
        have hfive' : ipv4Ihl p.ip = 5 := hfive.symm
        rw [length_transport, hfive']
        omega
      rw [p.seen_five hfive.symm, PktFile.filled_full (by simp) hlen, isDhcp_take (by decide)]
    | inr hlong =>
      refine iff_of_false (fun h => ?_) fun h => absurd (h hlong) (Nat.not_le.mpr hlarge)
      have hset := h (stackOf dhcpRequest (Vector.replicate 20 0))
      have hclear := h (stackOf (Vector.replicate 24 0) (Vector.replicate 20 0))
      rw [p.seen_options hlong, filled_fits (by simp [stackOf]) List.nil_prefix] at hset hclear
      exact absurd (hclear.mpr (hset.mp (by decide))) (by decide)

theorem dhcp_iff : (∀ stack : TxStack, (decide (p.protocol = 0x11) &&
      (isDhcp (PktFile.filled p.seen stack.udp.toList 24) && decide (282 < p.ip.length))) = true ↔
        p.Dhcp) ↔
    (p.protocol = 0x11 → 5 < ipv4Ihl p.ip → p.ip.length ≤ 282) := by
  cases Decidable.em (p.protocol = 0x11) with
  | inl hudp =>
    simp only [decide_eq_true hudp, Bool.true_and]
    rw [p.udp_iff hudp]
    exact ⟨fun h _ => h, fun h => h hudp⟩
  | inr hother =>
    refine iff_of_true (fun _ => iff_of_false ?_ fun h => hother h.1) fun h => absurd h hother
    rw [decide_eq_false hother, Bool.false_and]
    exact Bool.false_ne_true

theorem cmds_iff : (∀ stack : TxStack, (if p.protocol = 0x06 ∧ c.chkRegSProto 0x06 = true then
      trackTcp c p.ip (PktFile.filled p.seen stack.tcp.toList 20) else []) = p.wantedCmds c) ↔
    (p.protocol = 0x06 → c.chkRegSProto 0x06 = true → 20 ≤ p.seen.length →
      p.wantedCmds c = [] ∨ ipv4Src p.ip = ipv4Dst p.ip) ∧
    (p.protocol = 0x06 → c.chkRegSProto 0x06 = true → p.seen.length < 20 →
      ∀ tcp : List UInt8, tcp.length = 20 → p.seen <+: tcp → p.sessionCmds c tcp = []) := by
  cases Decidable.em (p.protocol = 0x06 ∧ c.chkRegSProto 0x06 = true) with
  | inl htcp =>
    simp only [if_pos htcp]
    rw [p.tcp_iff htcp.1 htcp.2]
    exact ⟨fun h => ⟨fun _ _ => h.1, fun _ _ => h.2⟩,
      fun h => ⟨h.1 htcp.1 htcp.2, h.2 htcp.1 htcp.2⟩⟩
  | inr hother =>
    have hwanted : p.wantedCmds c = [] := by
      rw [wantedCmds, if_neg fun hwhole => hother ⟨hwhole.1, hwhole.2.1⟩]
    simp only [if_neg hother, hwanted]
    exact iff_of_true (fun _ => trivial) ⟨fun hproto hreg => absurd ⟨hproto, hreg⟩ hother,
      fun hproto hreg => absurd ⟨hproto, hreg⟩ hother⟩

end Ipv4Packet

structure AssocSta extends TxSta where
  assoc : asoc = true

theorem right_iff (sta : AssocSta) (a : TxAttrib) (p : Ipv4Packet) (stack : TxStack) :
    (∃ u, updateAttrib (some sta.toTxSta) stack a p.bytes = some u ∧ p.Right sta.stCtl u) ↔
      ((decide (p.protocol = 0x11) && (isDhcp (PktFile.filled p.seen stack.udp.toList 24) &&
        decide (282 < p.ip.length))) = true ↔ p.Dhcp) ∧
      (if p.protocol = 0x06 ∧ sta.stCtl.chkRegSProto 0x06 = true then
        trackTcp sta.stCtl p.ip (PktFile.filled p.seen stack.tcp.toList 20) else []) =
          p.wantedCmds sta.stCtl := by
  obtain ⟨a', hlen, hrun⟩ := p.updateAttrib_eq sta.toTxSta sta.assoc stack a
  obtain ⟨hdhcp, hcmds⟩ := p.updateAttribIp_eq sta.stCtl stack a' hlen
  rw [hrun, ← hdhcp, ← hcmds]
  constructor
  · rintro ⟨u, hu, hright⟩
    obtain rfl := Option.some_inj.mp hu
    exact ⟨hright.dhcp, hright.cmds⟩
  · exact fun hright => ⟨_, rfl, hright.1, hright.2⟩

theorem classification_law (sta : AssocSta) (a : TxAttrib) (p : Ipv4Packet) :
    (∀ stack, ∃ u, updateAttrib (some sta.toTxSta) stack a p.bytes = some u ∧
      p.Right sta.stCtl u) ↔ p.Sound sta.stCtl := by
  simp only [right_iff, forall_and, p.dhcp_iff, p.cmds_iff]
  exact ⟨fun h => ⟨h.1, h.2.1, h.2.2⟩, fun h => ⟨h.udp, h.whole, h.short⟩⟩

def rtspRule : StCtl := ⟨[⟨0x06, some fun _ localPort _ _ => decide (localPort = [0x1c, 0x44])⟩]⟩

def rtspSta : AssocSta := ⟨⟨true, rtspRule⟩, rfl⟩

def synAckBytes : List UInt8 :=
  [0, 1, 2, 3, 4, 5, 6, 7, 8, 9, 10, 11, 8, 0] ++
  [0x45, 0, 0, 40, 0, 0, 0, 0, 64, 6, 0, 0, 192, 168, 49, 1, 192, 168, 49, 7] ++
  [0x1c, 0x44, 0x80, 0, 0, 0, 0, 0, 0, 0, 0, 0, 0x50, 0x12, 0, 0, 0, 0, 0, 0]

def synAckPacket : Ipv4Packet where
  bytes := synAckBytes
  etherType := by decide
  header := by decide
  ihl := by decide
  u32 := by decide

theorem syn_ack_remote_is_local : ¬ ∀ stack, ∃ u,
    updateAttrib (some rtspSta.toTxSta) stack ⟨0, 0, false, false, false⟩ synAckPacket.bytes = some u ∧
      synAckPacket.Right rtspSta.stCtl u := by
  intro h
  obtain ⟨u, hu, hright⟩ := h ⟨Vector.replicate 14 0, Vector.replicate 20 0, Vector.replicate 24 0,
    Vector.replicate 20 0⟩
  have hcmds := hright.cmds
  have hrun : u.cmds = [.add [192, 168, 49, 1] [0x1c, 0x44] [192, 168, 49, 1] [0x80, 0]] := by
    refine Option.some_inj.mp ((congrArg (Option.map TxUpdate.cmds) hu).symm.trans ?_)
    decide +kernel
  rw [hrun] at hcmds
  exact absurd hcmds (by decide +kernel)

end Xmit.Classify
