import Rtl8188fu.Bridge.Database
import Rtl8188fu.Bridge.DhcpFlag
import Rtl8188fu.Bridge.NeighbourDiscovery
import Rtl8188fu.Bridge.PppoeTag

namespace Bridge

open ByteMemory ByteOrder

namespace Skb

def pull (s : Skb) (n : ℕ) : Skb := { s with mem := fun i => s.mem (i + n), len := s.len - n }

def push (s : Skb) (head : Mem UInt8) (n : ℕ) : Skb :=
  { s with mem := fun i => if i < n then head i else s.mem (i - n), len := s.len + n }

end Skb

namespace Frames

open Recv (isMcast)
open Pppoe (Discovery)

structure Checksums where
  csumPartial : List UInt8 → ℕ
  ipv6Magic : List UInt8 → List UInt8 → ℕ → ℕ → ℕ → ℕ

structure Host where
  order : Order
  kernel : Kernel
  csum : Checksums
  fuel : ℕ
  stack : ℕ → UInt8
  block : Option ℕ

structure Port where
  br : BrExt
  pppoe : Discovery
  dhcpBcstDisable : Bool

inductive Method where
  | check
  | insert
  | lookup

structure Result where
  port : Port
  skb : Skb
  ret : ℤ

def ipAt (m : Mem UInt8) (a : ℕ) : IpAddr := Vector.ofFn fun i => m (a + i)

def networkAddr (kind : UInt8) (bs : List UInt8) : NetworkAddr :=
  Vector.ofFn fun i => (kind :: bs).getD i 0

def pppoeNetworkAddr (m : Mem UInt8) (acMac sid : ℕ) : NetworkAddr :=
  networkAddr 5 (read m sid 2 ++ read m acMac 6)

def ipv6NetworkAddr (m : Mem UInt8) (addr : ℕ) : NetworkAddr := networkAddr 2 (read m addr 16)

def insertAddr (h : Host) (p : Port) (s : Skb) (a : NetworkAddr) : Port :=
  { p with br := p.br.dbNetworkInsert h.kernel (macAt s.mem 6) a h.block }

def lookupAddr (h : Host) (p : Port) (s : Skb) (a : NetworkAddr) (ret : ℤ) : Result :=
  let r := p.br.dbNetworkLookupAndReplace h.kernel (macAt s.mem 0) a
  ⟨{ p with br := r.port }, s.store 0 r.dest.toList, ret⟩

def ipSkb (s : Skb) : IpSkb where
  dest := macAt s.mem 0
  src := macAt s.mem 6
  vlanTag := none
  ihl := (s.mem 14).toNat % 16
  saddr := ipAt s.mem 26
  daddr := ipAt s.mem 30
  len := s.len

def handleIp (h : Host) (p : Port) (s : Skb) : Method → Result
  | .check => ⟨p, s, -1⟩
  | .insert =>
    let r := p.br.dbInsertIp h.kernel (ipSkb s) h.block
    ⟨{ p with br := r.1 }, s, r.2⟩
  | .lookup =>
    let r := p.br.dbLookupIp h.kernel (ipSkb s)
    ⟨{ p with br := r.port }, s.store 0 r.skb.dest.toList, r.res⟩

def arpTarget (m : Mem UInt8) : ℕ := 22 + ((m 18).toNat + (m 19).toNat)

def handleArp (h : Host) (p : Port) (s : Skb) (method : Method) : Result :=
  if read s.mem 16 2 ≠ [0x08, 0x00] then ⟨p, s, -1⟩
  else
    let hln := (s.mem 18).toNat
    let pln := (s.mem 19).toNat
    match method with
    | .check => ⟨p, s, 0⟩
    | .insert =>
      let s := s.store 22 p.br.macAddr.toList
      ⟨insertAddr h p s (ipv4NetworkAddr (ipAt s.mem (22 + hln))), s, 0⟩
    | .lookup =>
      let r := lookupAddr h p s (ipv4NetworkAddr (ipAt s.mem (22 + hln + (hln + pln)))) 0
      { r with skb := r.skb.move (22 + (hln + pln)) 0 6 }

def insertSession (h : Host) (p : Port) (s : Skb) : Result :=
  let p := insertAddr h p s (pppoeNetworkAddr s.mem 0 16)
  let established := !p.pppoe.addPPPoETag && p.pppoe.connectionInProgress != 0 &&
    macAt s.mem 6 == p.pppoe.pppoeAddr
  ⟨if established then { p with pppoe := { p.pppoe with connectionInProgress := 0 } } else p, s, 0⟩

def handlePppoe (h : Host) (p : Port) (s : Skb) : Method → Result
  | .check => ⟨p, s, if read s.mem 16 2 = [0, 0] then 0 else 1⟩
  | .insert =>
    if read s.mem 16 2 = [0, 0] then
      let r := Pppoe.insertDiscovery h.order h.stack p.pppoe s
      ⟨{ p with pppoe := r.port }, r.done.skb, r.done.ret⟩
    else insertSession h p s
  | .lookup =>
    if Pppoe.isOffer (s.mem 15) then
      let r := Pppoe.lookupDiscovery p.pppoe s
      ⟨{ p with pppoe := r.port }, r.done.skb, r.done.ret⟩
    else if read s.mem 16 2 ≠ [0, 0] then lookupAddr h p s (pppoeNetworkAddr s.mem 6 16) 0
    else ⟨p, s, -1⟩

def passThrough (p : Port) (s : Skb) : Method → Result
  | .check => ⟨p, s, -1⟩
  | .insert => ⟨p, s, 0⟩
  | .lookup => ⟨p, s, 0⟩

def refreshed (h : Host) (m : Mem UInt8) : Mem UInt8 :=
  let m := write m 56 [0, 0]
  let len := word h.order (m 18) (m 19)
  write m 56 (unword h.order (h.csum.ipv6Magic (read m 22 16) (read m 38 16) len 58
    (h.csum.csumPartial (read m 54 len))))

def insertIpv6 (h : Host) (p : Port) (s : Skb) : Option Result :=
  if read s.mem 22 16 = List.replicate 16 0 then some ⟨p, s, 0⟩
  else
    let p' := insertAddr h p s (ipv6NetworkAddr s.mem 22)
    if s.mem 20 = 58 ∧ 58 < s.len then
      (Nd.updateNdLinkLayerAddr h.fuel p.br.macAddr s.mem (s.len - 54)).map fun r =>
        ⟨p', { s with mem := if r.2 then refreshed h r.1 else r.1 }, 0⟩
    else some ⟨p', s, 0⟩

def handleIpv6 (h : Host) (p : Port) (s : Skb) (method : Method) : Option Result :=
  if 14 ≤ s.len ∧ s.len ≤ 54 then some ⟨p, s, -1⟩
  else
    match method with
    | .check => some ⟨p, s, if isMcast (macAt s.mem 0) then 0 else -1⟩
    | .insert => insertIpv6 h p s
    | .lookup => some (lookupAddr h p s (ipv6NetworkAddr s.mem 38) 0)

def isPppoe (m : Mem UInt8) : Bool :=
  read m 12 2 = [0x88, 0x63] ∨ read m 12 2 = [0x88, 0x64]

def isPassThrough (m : Mem UInt8) : Bool :=
  read m 12 2 = [0x88, 0x8e] ∨ read m 12 2 = [0xe2, 0xae] ∨ read m 12 2 = [0xe2, 0xaf]

-- the IPX and AppleTalk branch stands behind a macro that nothing defines
def nat25DbHandle (h : Host) (p : Port) (s : Skb) (method : Method) : Option Result :=
  if read s.mem 12 2 = [0x08, 0x00] then some (handleIp h p s method)
  else if read s.mem 12 2 = [0x08, 0x06] then some (handleArp h p s method)
  else if isPppoe s.mem then some (handlePppoe h p s method)
  else if isPassThrough s.mem then some (passThrough p s method)
  else if read s.mem 12 2 = [0x86, 0xdd] then handleIpv6 h p s method
  else some ⟨p, s, -1⟩

end Frames

end Bridge
