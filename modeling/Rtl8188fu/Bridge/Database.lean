import Rtl8188fu.Lib.HashChains
import Rtl8188fu.Recv.Frame

namespace Bridge

open HashChains
open Recv (MacAddr isMcast)

abbrev IpAddr := Vector UInt8 4

abbrev NetworkAddr := Vector UInt8 17

structure Kernel where
  longBits : ℕ
  hz : ℕ
  ipxHeader : Bool
  ageing_lt : 300 * hz < 2 ^ (longBits - 1)

def ipv4NetworkAddr (ip : IpAddr) : NetworkAddr :=
  #v[1, 0, 0, 0, 0, 0, 0, ip.get 0, ip.get 1, ip.get 2, ip.get 3, 0, 0, 0, 0, 0, 0]

def networkHash (ipxHeader : Bool) (a : NetworkAddr) : Fin 16 :=
  let x :=
    if a[0] = 1 then a[7] ^^^ a[8] ^^^ a[9] ^^^ a[10]
    else if ipxHeader = true ∧ a[0] = 3 then
      a[1] ^^^ a[2] ^^^ a[3] ^^^ a[4] ^^^ a[5] ^^^ a[6] ^^^ a[7] ^^^ a[8] ^^^ a[9] ^^^ a[10]
    else if ipxHeader = true ∧ a[0] = 4 then a[1] ^^^ a[2] ^^^ a[3]
    else if a[0] = 5 then
      a[0] ^^^ a[1] ^^^ a[2] ^^^ a[3] ^^^ a[4] ^^^ a[5] ^^^ a[6] ^^^ a[7] ^^^ a[8]
    else if a[0] = 2 then
      a[1] ^^^ a[2] ^^^ a[3] ^^^ a[4] ^^^ a[5] ^^^ a[6] ^^^ a[7] ^^^ a[8] ^^^ a[9] ^^^ a[10] ^^^
        a[11] ^^^ a[12] ^^^ a[13] ^^^ a[14] ^^^ a[15] ^^^ a[16]
    else a.foldl (· ^^^ ·) 0
  Fin.ofNat 16 (x &&& 15).toNat

structure NetworkDbEntry where
  useCount : UInt32
  macAddr : MacAddr
  stamp : ℕ
  networkAddr : NetworkAddr
  deriving DecidableEq

def NetworkDbEntry.ageingTimer (k : Kernel) (e : NetworkDbEntry) : BitVec k.longBits :=
  BitVec.ofNat k.longBits e.stamp

structure BrExt where
  nethash : Chains (Fin 16) ℕ NetworkDbEntry
  heapTop : ℕ
  scdbMac : MacAddr
  scdbIp : IpAddr
  scdbEntry : Option ℕ
  brMac : MacAddr
  brIp : IpAddr
  macAddr : MacAddr
  brPort : Bool
  brDev : Option MacAddr
  nat25Disable : Bool
  nat25scDisable : Bool
  clock : ℕ

namespace BrExt

def jiffies (k : Kernel) (s : BrExt) : BitVec k.longBits := BitVec.ofNat k.longBits s.clock

def timeBeforeEq {w : ℕ} (a b : BitVec w) : Bool := !(b - a).msb

def timeout (k : Kernel) (s : BrExt) : BitVec k.longBits :=
  s.jiffies k - BitVec.ofNat k.longBits (300 * k.hz)

def hasExpired (k : Kernel) (s : BrExt) (e : NetworkDbEntry) : Bool :=
  timeBeforeEq (e.ageingTimer k) (s.timeout k)

def find (k : Kernel) (s : BrExt) (a : NetworkAddr) : Option ℕ :=
  s.nethash.search (fun e => e.networkAddr == a) s.heapTop (s.nethash.head (networkHash k.ipxHeader a))

def malloc (s : BrExt) (block : Option ℕ) : Option ℕ :=
  block.filter fun p => (s.nethash.cell p).isNone

def dbNetworkInsert (k : Kernel) (s : BrExt) (macAddr : MacAddr) (a : NetworkAddr)
    (block : Option ℕ) : BrExt :=
  match s.find k a with
  | some p =>
    { s with
      nethash := s.nethash.setVal p fun e => { e with macAddr := macAddr, stamp := s.clock } }
  | none =>
    match s.malloc block with
    | none => s
    | some p =>
      { s with
        nethash := s.nethash.link (networkHash k.ipxHeader a) p ⟨1, macAddr, s.clock, a⟩
        heapTop := max s.heapTop (p + 1) }

structure Lookup where
  port : BrExt
  dest : MacAddr
  found : Bool

def dbNetworkLookupAndReplace (k : Kernel) (s : BrExt) (dest : MacAddr) (a : NetworkAddr) :
    Lookup :=
  match (s.find k a).bind fun p => (s.nethash.cell p).map fun e => (p, e.val) with
  | none => ⟨s, dest, false⟩
  | some (p, e) =>
    if s.hasExpired k e then ⟨s, dest, true⟩
    else
      ⟨{ s with nethash := s.nethash.setVal p fun e => { e with useCount := e.useCount + 1 } },
        e.macAddr, true⟩

def clearScdb (s : BrExt) : BrExt :=
  { s with scdbMac := Vector.replicate 6 0, scdbIp := Vector.replicate 4 0 }

def dropEntry (s : BrExt) (p : ℕ) : BrExt :=
  let s := if s.scdbEntry = some p then { s.clearScdb with scdbEntry := none } else s
  { s with nethash := (s.nethash.unlink p).free p }

def expireEntry (k : Kernel) (s : BrExt) (p : ℕ) : BrExt :=
  match s.nethash.cell p with
  | none => s
  | some e =>
    if s.hasExpired k e.val then
      let s := { s with
        nethash := s.nethash.setVal p fun e => { e with useCount := e.useCount - 1 } }
      if e.val.useCount - 1 = 0 then s.dropEntry p else s
    else s

def nat25DbExpire (k : Kernel) (s : BrExt) : BrExt :=
  Chains.sweep nethash (expireEntry k) s.heapTop s (List.finRange 16)

def nat25DbCleanup (s : BrExt) : BrExt :=
  Chains.sweep nethash dropEntry s.heapTop s (List.finRange 16)

def scdbFindEntry (k : Kernel) (s : BrExt) (ipAddr : IpAddr) : Option ℕ :=
  s.find k (ipv4NetworkAddr ipAddr)

def stampScdbEntry (s : BrExt) : BrExt :=
  match s.scdbEntry with
  | none => s
  | some p =>
    { s with nethash := s.nethash.setVal p fun e => { e with stamp := s.clock } }

end BrExt

structure IpSkb where
  dest : MacAddr
  src : MacAddr
  vlanTag : Option UInt16
  ihl : ℕ
  saddr : IpAddr
  daddr : IpAddr
  len : ℕ

def IpSkb.malformed (skb : IpSkb) : Bool := skb.len ≤ skb.ihl * 4

namespace BrExt

def dbInsertIp (k : Kernel) (s : BrExt) (skb : IpSkb) (block : Option ℕ) : BrExt × ℤ :=
  if skb.malformed then (s, -1)
  else if skb.saddr = Vector.replicate 4 0 then (s, 0)
  else (s.dbNetworkInsert k skb.src (ipv4NetworkAddr skb.saddr) block, 0)

def netdevBrInit (s : BrExt) : BrExt :=
  if s.brPort then { s with brMac := s.brDev.getD s.brMac } else s

structure Handled where
  port : BrExt
  skb : IpSkb
  res : ℤ

def dbLookupIp (k : Kernel) (s : BrExt) (skb : IpSkb) : Handled :=
  if skb.malformed then ⟨s, skb, -1⟩
  else
    let r := s.dbNetworkLookupAndReplace k skb.dest (ipv4NetworkAddr skb.daddr)
    if r.found then ⟨r.port, { skb with dest := r.dest }, 0⟩
    else if skb.daddr.get 3 = 0xff then ⟨s, { skb with dest := Vector.replicate 6 0xff }, 0⟩
    else
      let s := if s.brMac = Vector.replicate 6 0 then s.netdevBrInit else s
      ⟨s, { skb with dest := s.brMac }, 0⟩

def scdbHit (k : Kernel) (s : BrExt) (skb : IpSkb) : BrExt × Bool :=
  if s.scdbMac ≠ skb.src then
    let s := { s with scdbEntry := s.scdbFindEntry k skb.saddr }
    if s.scdbEntry.isSome then
      (({ s with scdbMac := skb.src, scdbIp := skb.saddr }).stampScdbEntry, true)
    else (s, false)
  else if s.scdbEntry.isSome then (s.stampScdbEntry, true)
  else (s.clearScdb, false)

def rtwBrClientTx (k : Kernel) (s : BrExt) (skb : IpSkb) (linearized : Bool) (block : Option ℕ) :
    Handled :=
  if !isMcast skb.dest && s.brPort && skb.src != s.brMac && skb.vlanTag.isNone &&
      s.scdbMac == skb.src && s.scdbEntry.isSome then
    ⟨s.stampScdbEntry, { skb with src := s.macAddr }, 0⟩
  else
    let s := if skb.src = s.brMac then { s with brIp := skb.saddr } else s
    let (s, hit) := s.scdbHit k skb
    if hit then ⟨s, { skb with src := s.macAddr }, 0⟩
    else if !linearized then ⟨s, skb, -1⟩
    else
      let (s, res) := s.dbInsertIp k skb block
      if res < 0 then ⟨s, skb, 0⟩ else ⟨s, { skb with src := s.macAddr }, 0⟩

def nat25HandleFrame (k : Kernel) (s : BrExt) (skb : IpSkb) : Handled :=
  if isMcast skb.dest then ⟨s, skb, 0⟩
  else if !s.nat25Disable then
    if !s.nat25scDisable && s.scdbIp == skb.daddr then ⟨s, { skb with dest := s.scdbMac }, 0⟩
    else s.dbLookupIp k skb
  else if s.brIp == skb.daddr then s.dbLookupIp k skb
  else ⟨s, skb, 0⟩

end BrExt

end Bridge
