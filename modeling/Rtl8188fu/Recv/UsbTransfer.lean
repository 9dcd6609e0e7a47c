import Mathlib.Algebra.Group.Nat.Defs
import Mathlib.Data.List.GetD
import Mathlib.Data.List.Perm.Basic
import Rtl8188fu.Lib.AlignedRecords
import Rtl8188fu.Lib.BoundedMemory
import Rtl8188fu.Lib.WhileLoop

namespace Recv.Usb

open BoundedMemory (Access AllInside Inside)
open ByteMemory (Mem Holds)
open WhileLoop (Turn Loop)

inductive RptType where
  | normalRx
  | c2hPacket
deriving DecidableEq

@[ext] structure RxAttrib where
  pktLen : ℕ
  pktRptType : RptType
  crcErr : Bool
  icvErr : Bool
  drvinfoSz : ℕ
  encrypt : ℕ
  qos : Bool
  shiftSz : ℕ
  physt : Bool
  bdecrypted : Bool
  priority : ℕ
  amsdu : Bool
  mdata : Bool
  mfrag : Bool
  seqNum : ℕ
  fragNum : ℕ
  dataRate : ℕ
  sgi : Bool
  ldpc : Bool
  stbc : Bool
  bw : ℕ
deriving DecidableEq

structure RxConfig where
  mpMode : Bool
  monitor : Bool
  rcrAppfcs : Bool

structure RxEnv where
  skbAlloc : ℕ → Bool
  skbClone : ℕ → Bool
  dataAlign : ℕ → Fin 8
  returns : ℕ → ℕ → Bool

structure Transfer where
  mem : Mem UInt8
  len : ℕ
  s32 : len < 2 ^ 31

inductive Object where
  | transfer
  | skb (size : ℕ)
deriving DecidableEq

structure Delivery where
  attrib : RxAttrib
  data : List UInt8
  phyStatus : Option ℕ
  room : ℕ
deriving DecidableEq

def rxdescSize : ℕ := 24

def ieee80211FcsLen : ℕ := 4

def rnd8 (sz : ℕ) : ℕ := (sz / 8 + if sz % 8 = 0 then 0 else 1) * 8

def le32 (m : Mem UInt8) (a : ℕ) : ℕ :=
  (m a).toNat + 256 * ((m (a + 1)).toNat + 256 * ((m (a + 2)).toNat + 256 * (m (a + 3)).toNat))

def leBits (m : Mem UInt8) (a off width : ℕ) : ℕ := le32 m a / 2 ^ off % 2 ^ width

def leBit (m : Mem UInt8) (a off : ℕ) : Bool := leBits m a off 1 == 1

def queryRxDescStatus (m : Mem UInt8) (pdesc : ℕ) : RxAttrib :=
  let pktLen := leBits m pdesc 0 14
  if leBit m (pdesc + 8) 28 then
    { pktLen := pktLen, pktRptType := .c2hPacket, crcErr := false, icvErr := false,
      drvinfoSz := 0, encrypt := 0, qos := false, shiftSz := 0, physt := false,
      bdecrypted := false, priority := 0, amsdu := false, mdata := false, mfrag := false,
      seqNum := 0, fragNum := 0, dataRate := 0, sgi := false, ldpc := false, stbc := false,
      bw := 0 }
  else
    { pktLen := pktLen
      pktRptType := .normalRx
      crcErr := leBit m pdesc 14
      icvErr := leBit m pdesc 15
      drvinfoSz := leBits m pdesc 16 4 * 8
      encrypt := leBits m pdesc 20 3
      qos := leBit m pdesc 23
      shiftSz := leBits m pdesc 24 2
      physt := leBit m pdesc 26
      bdecrypted := !leBit m pdesc 27
      priority := leBits m (pdesc + 4) 8 4
      amsdu := leBit m (pdesc + 4) 13
      mdata := leBit m (pdesc + 4) 26
      mfrag := leBit m (pdesc + 4) 27
      seqNum := leBits m (pdesc + 8) 0 12
      fragNum := leBits m (pdesc + 8) 12 4
      dataRate := leBits m (pdesc + 12) 0 7
      sgi := leBit m (pdesc + 16) 0
      ldpc := leBit m (pdesc + 16) 1
      stbc := leBit m (pdesc + 16) 2
      bw := leBits m (pdesc + 16) 4 2 }

def rd (first count : ℕ) : Access Object := ⟨.transfer, first, count⟩

def descReads (m : Mem UInt8) (pdesc : ℕ) : List (Access Object) :=
  rd pdesc 4 :: rd (pdesc + 8) 4 ::
    if leBit m (pdesc + 8) 28 then []
    else [rd pdesc 4, rd (pdesc + 4) 4, rd (pdesc + 8) 4, rd (pdesc + 12) 4, rd (pdesc + 16) 4]

def RxAttrib.firstFrag (a : RxAttrib) : Bool := a.mfrag && a.fragNum == 0

def RxAttrib.allocSz (a : RxAttrib) : ℕ :=
  if a.firstFrag then if a.pktLen ≤ 1650 then 1664 else a.pktLen + 14 else a.pktLen + 14

def RxAttrib.pktOffset (a : RxAttrib) : ℕ := rxdescSize + a.drvinfoSz + a.shiftSz + a.pktLen

def RxAttrib.dataOffset (a : RxAttrib) : ℕ := rxdescSize + a.drvinfoSz + a.shiftSz

def RxAttrib.endsInFcs (cfg : RxConfig) (a : RxAttrib) : Bool :=
  !cfg.monitor && decide (a.pktRptType = .normalRx) && cfg.rcrAppfcs

-- pkt_len is a u16, so that a runt of less than four bytes wraps
def RxAttrib.stripFcs (cfg : RxConfig) (a : RxAttrib) : RxAttrib :=
  if a.endsInFcs cfg then
    { a with pktLen := (a.pktLen + 2 ^ 16 - ieee80211FcsLen) % 2 ^ 16 }
  else a

structure SkbData where
  reserve : ℕ
  accesses : List (Access Object)

def rtwOsAllocRecvframe (env : RxEnv) (k pdata : ℕ) (a : RxAttrib) : Option SkbData :=
  if env.skbAlloc k then
    let reserve := 8 - (env.dataAlign k : ℕ) + if a.qos then 6 else 0
    some ⟨reserve, [rd pdata a.pktLen, ⟨.skb a.allocSz, reserve, a.pktLen⟩]⟩
  else if a.firstFrag then none
  else if env.skbClone k then some ⟨0, []⟩
  else none

-- rx_tail stays where it is when the bytes would not fit before rx_end
def recvframePut (room start sz : ℕ) : ℕ := if room < start + sz then 0 else sz

structure RxState where
  pbuf : ℕ
  transferLen : ℕ
  more : Bool
  seen : ℕ
  free : List ℕ
  passed : List ℕ
  delivered : List Delivery
  accesses : List (Access Object)

namespace RxState

variable (s : RxState)

def touch (as : List (Access Object)) : RxState := { s with accesses := s.accesses ++ as }

def freeRecvframe (slot : ℕ) : RxState := { s with free := s.free ++ [slot] }

def deliver (d : Delivery) : RxState := { s with delivered := s.delivered ++ [d] }

-- what pre_recv_entry has freed again by the time it returns is back in the free queue
def preRecvEntry (env : RxEnv) (slot : ℕ) : RxState :=
  { s with
    free := s.free ++ (slot :: s.passed).filter (env.returns s.seen)
    passed := (slot :: s.passed).filter fun x => !env.returns s.seen x }

def advance (pktOffset : ℕ) : RxState :=
  let step := rnd8 pktOffset % 2 ^ 16
  { s with
    pbuf := s.pbuf + step
    transferLen := s.transferLen - step
    more := decide (step < s.transferLen)
    seen := s.seen + 1 }

end RxState

variable (cfg : RxConfig) (env : RxEnv) (t : Transfer)

def delivery (pbuf pdata : ℕ) (pattrib : RxAttrib) (skb : SkbData) : Delivery where
  attrib := pattrib
  data := ByteMemory.read t.mem pdata (recvframePut pattrib.allocSz skb.reserve pattrib.pktLen)
  phyStatus := if pattrib.physt then some (pbuf + rxdescSize) else none
  room := pattrib.allocSz - skb.reserve

def rxBody (s : RxState) : Turn RxState :=
  match s.free with
  | [] => .leave s
  | slot :: free =>
    let s := { s with free := free }.touch (descReads t.mem s.pbuf)
    let pattrib := queryRxDescStatus t.mem s.pbuf
    if !cfg.mpMode && (pattrib.crcErr || pattrib.icvErr) then .leave (s.freeRecvframe slot)
    else
      let pktOffset := pattrib.pktOffset
      if pattrib.pktLen = 0 ∨ s.transferLen < pktOffset then .leave (s.freeRecvframe slot)
      else
        let pdata := s.pbuf + pattrib.dataOffset
        let pattrib := pattrib.stripFcs cfg
        match rtwOsAllocRecvframe env s.seen pdata pattrib with
        | none => .leave (s.freeRecvframe slot)
        | some skb =>
          let d := delivery t s.pbuf pdata pattrib skb
          let s := s.touch skb.accesses
          match pattrib.pktRptType with
          | .normalRx => .again (((s.deliver d).preRecvEntry env slot).advance pktOffset)
          | .c2hPacket => .again (((s.deliver d).freeRecvframe slot).advance pktOffset)

def rxLoop : Loop RxState where
  guard s := s.more
  body := rxBody cfg env t

-- the packet count of the first descriptor is read before the loop and never used
def rxStart (free : List ℕ) : RxState where
  pbuf := 0
  transferLen := t.len
  more := true
  seen := 0
  free := free
  passed := []
  delivered := []
  accesses := [rd 12 4]

def recvbuf2recvframe (free : List ℕ) (fuel : ℕ) : Option RxState :=
  WhileLoop.run (rxLoop cfg env t) fuel (rxStart t free)

end Recv.Usb

namespace Recv.Usb

open AlignedRecords (Encodes padLen)
open BoundedMemory (Access AllInside Inside)
open ByteMemory (Mem Holds)
open WhileLoop (Turn Loop Ends)

section Attributes

variable {cfg : RxConfig} {env : RxEnv} {m : Mem UInt8} {a : RxAttrib} {pos n k : ℕ} {skb : SkbData}

theorem leBits_lt (m : Mem UInt8) (o off width : ℕ) : leBits m o off width < 2 ^ width :=
  Nat.mod_lt _ (Nat.two_pow_pos _)

theorem pktOffset_bounds (m : Mem UInt8) (pos : ℕ) :
    24 ≤ (queryRxDescStatus m pos).pktOffset ∧ (queryRxDescStatus m pos).pktOffset < 16536 := by
  have hlen := leBits_lt m pos 0 14
  have hinfo := leBits_lt m pos 16 4
  have hshift := leBits_lt m pos 24 2
  rw [queryRxDescStatus, RxAttrib.pktOffset, rxdescSize]
  split
  · dsimp only
    omega
  · dsimp only
    omega

theorem rnd8_eq (n : ℕ) : rnd8 n = n + padLen 8 n := by
  have hmod := Nat.mod_lt n (show 0 < 8 by decide)
  rw [rnd8, AlignedRecords.padLen_eq (by decide)]
  split <;> split <;> omega

def RxAttrib.step (a : RxAttrib) : ℕ := rnd8 a.pktOffset % 2 ^ 16

theorem step_eq (m : Mem UInt8) (pos : ℕ) :
    (queryRxDescStatus m pos).step =
      (queryRxDescStatus m pos).pktOffset + padLen 8 (queryRxDescStatus m pos).pktOffset := by
  have hbounds := pktOffset_bounds m pos
  have hpad : padLen 8 (queryRxDescStatus m pos).pktOffset < 8 := Nat.mod_lt _ (by decide)
  rw [RxAttrib.step, rnd8_eq]
  exact Nat.mod_eq_of_lt (by omega)

theorem step_pos (m : Mem UInt8) (pos : ℕ) : 0 < (queryRxDescStatus m pos).step := by
  have hbounds := pktOffset_bounds m pos
  rw [step_eq]
  omega

structure Kept (a b : RxAttrib) : Prop where
  dataOffset : b.dataOffset = a.dataOffset
  firstFrag : b.firstFrag = a.firstFrag
  physt : b.physt = a.physt
  pktRptType : b.pktRptType = a.pktRptType

theorem kept_pktLen (a : RxAttrib) (n : ℕ) : Kept a { a with pktLen := n } :=
  ⟨rfl, rfl, rfl, rfl⟩

theorem stripFcs_kept (cfg : RxConfig) (a : RxAttrib) : Kept a (a.stripFcs cfg) := by
  rw [RxAttrib.stripFcs]
  split
  · exact kept_pktLen a _
  · exact kept_pktLen a a.pktLen

theorem allocSz_room (a : RxAttrib) : a.pktLen + 14 ≤ a.allocSz := by
  rw [RxAttrib.allocSz]
  split
  · split <;> omega
  · exact Nat.le_refl _

theorem reserve_le (h : rtwOsAllocRecvframe env k pos a = some skb) : skb.reserve ≤ 14 := by
  rw [rtwOsAllocRecvframe] at h
  split at h
  · obtain rfl := Option.some.inj h
    dsimp only
    split <;> omega
  · split at h
    · cases h
    · split at h
      · obtain rfl := Option.some.inj h
        exact Nat.zero_le _
      · cases h

theorem recvframePut_fits (h : rtwOsAllocRecvframe env k pos a = some skb) :
    recvframePut a.allocSz skb.reserve a.pktLen = a.pktLen := by
  have hreserve := reserve_le h
  have hroom := allocSz_room a
  exact if_neg (by omega)

end Attributes

def size (t : Transfer) : Object → ℕ
  | .transfer => t.len
  | .skb n => n

structure Taken (cfg : RxConfig) (a : RxAttrib) (rem : ℕ) : Prop where
  clean : (!cfg.mpMode && (a.crcErr || a.icvErr)) = false
  nonempty : a.pktLen ≠ 0
  fits : a.pktOffset ≤ rem

def DescInside (a : RxAttrib) (rem : ℕ) : Prop :=
  20 ≤ rem ∨ 12 ≤ rem ∧ a.pktRptType = .c2hPacket

def DataInside (cfg : RxConfig) (a : RxAttrib) (rem : ℕ) : Prop :=
  (a.stripFcs cfg).pktLen = 0 ∨ a.dataOffset + (a.stripFcs cfg).pktLen ≤ rem

section Turns

variable {cfg : RxConfig} {env : RxEnv} {t : Transfer} {s : RxState} {slot : ℕ} {free : List ℕ}
  {skb : SkbData}

def attribAt (t : Transfer) (s : RxState) : RxAttrib := queryRxDescStatus t.mem s.pbuf

def allocAt (cfg : RxConfig) (env : RxEnv) (t : Transfer) (s : RxState) : Option SkbData :=
  rtwOsAllocRecvframe env s.seen (s.pbuf + (attribAt t s).dataOffset) ((attribAt t s).stripFcs cfg)

def refused (t : Transfer) (s : RxState) (slot : ℕ) (free : List ℕ) : RxState :=
  { s with free := free ++ [slot], accesses := s.accesses ++ descReads t.mem s.pbuf }

theorem rxBody_empty (h : s.free = []) : rxBody cfg env t s = .leave s := by
  rw [rxBody, h]

theorem rxBody_refused (h : s.free = slot :: free)
    (hno : ¬ Taken cfg (attribAt t s) s.transferLen ∨ allocAt cfg env t s = none) :
    rxBody cfg env t s = .leave (refused t s slot free) := by
  rw [rxBody, h]
  dsimp only
  split
  · rfl
  · rename_i hclean
    split
    · rfl
    · rename_i hfits
      have htaken : Taken cfg (attribAt t s) s.transferLen :=
        ⟨Bool.eq_false_iff.mpr hclean, fun hzero => hfits (.inl hzero),
          Nat.not_lt.mp fun hlt => hfits (.inr hlt)⟩
      have hnone := hno.resolve_left (not_not.mpr htaken)
      rw [allocAt, attribAt] at hnone
      simp only [RxState.touch, hnone]
      rfl

structure Advanced (cfg : RxConfig) (t : Transfer) (s u : RxState) (skb : SkbData) : Prop where
  pbuf : u.pbuf = s.pbuf + (attribAt t s).step
  transferLen : u.transferLen = s.transferLen - (attribAt t s).step
  more : u.more = decide ((attribAt t s).step < s.transferLen)
  seen : u.seen = s.seen + 1
  delivered : u.delivered = s.delivered ++ [delivery t s.pbuf
    (s.pbuf + (attribAt t s).dataOffset) ((attribAt t s).stripFcs cfg) skb]
  accesses : u.accesses = s.accesses ++ (descReads t.mem s.pbuf ++ skb.accesses)
  frames : (u.free ++ u.passed).Perm (s.free ++ s.passed)
  queue : s.free.length ≤ u.free.length + 1

theorem rxBody_taken (h : s.free = slot :: free) (htaken : Taken cfg (attribAt t s) s.transferLen)
    (hskb : allocAt cfg env t s = some skb) :
    ∃ u, rxBody cfg env t s = .again u ∧ Advanced cfg t s u skb := by
  have hfits : ¬ ((attribAt t s).pktLen = 0 ∨ s.transferLen < (attribAt t s).pktOffset) :=
    fun hno => hno.elim htaken.nonempty (Nat.not_lt.mpr htaken.fits)
  have hclean : ¬ (!cfg.mpMode && ((attribAt t s).crcErr || (attribAt t s).icvErr)) = true :=
    Bool.eq_false_iff.mp htaken.clean
  rw [allocAt, attribAt] at hskb
  rw [attribAt] at hfits hclean
  rw [rxBody, h]
  simp only [RxState.touch, hskb, if_neg hfits, if_neg hclean]
  split
  · refine ⟨_, rfl, rfl, rfl, rfl, rfl, rfl, List.append_assoc _ _ _, ?_, ?_⟩
    · have hsplit := List.filter_append_perm (env.returns s.seen) (slot :: s.passed)
      rw [h]
      refine (List.Perm.of_eq (List.append_assoc _ _ _)).trans ((hsplit.append_left free).trans ?_)
      exact List.perm_middle
    · rw [h]
      exact Nat.succ_le_succ (List.length_append ▸ Nat.le_add_right _ _)
  · refine ⟨_, rfl, rfl, rfl, rfl, rfl, rfl, List.append_assoc _ _ _, ?_, ?_⟩
    · rw [h]
      exact (List.perm_append_singleton slot free).append_right s.passed
    · rw [h]
      exact Nat.succ_le_succ (List.length_append ▸ Nat.le_add_right _ _)

theorem rd_inside {first count : ℕ} :
    Inside (size t) (rd first count) ↔ count = 0 ∨ first + count ≤ t.len := Iff.rfl

theorem c2h_iff (m : Mem UInt8) (pos : ℕ) :
    (queryRxDescStatus m pos).pktRptType = .c2hPacket ↔ leBit m (pos + 8) 28 = true := by
  rw [queryRxDescStatus]
  split
  · rename_i hbit
    exact iff_of_true rfl hbit
  · rename_i hbit
    exact iff_of_false (fun h => RptType.noConfusion h) hbit

theorem descReads_inside {pos rem : ℕ} (h : pos + rem = t.len) :
    AllInside (size t) (descReads t.mem pos) ↔ DescInside (queryRxDescStatus t.mem pos) rem := by
  rw [DescInside, c2h_iff, descReads]
  split
  · rename_i hbit
    simp only [BoundedMemory.allInside_cons, BoundedMemory.allInside_nil, rd_inside, hbit, and_true]
    omega
  · rename_i hbit
    simp only [BoundedMemory.allInside_cons, BoundedMemory.allInside_nil, rd_inside, hbit, and_true,
      Bool.false_eq_true, and_false, or_false]
    omega

theorem skb_inside {k pdata : ℕ} {a : RxAttrib} (h : rtwOsAllocRecvframe env k pdata a = some skb)
    (hdata : a.pktLen = 0 ∨ pdata + a.pktLen ≤ t.len) : AllInside (size t) skb.accesses := by
  have hreserve := reserve_le h
  have hroom := allocSz_room a
  rw [rtwOsAllocRecvframe] at h
  split at h
  · obtain rfl := Option.some.inj h
    have hcopy : Inside (size t) ⟨.skb a.allocSz, 8 - (env.dataAlign k : ℕ) +
        if a.qos then 6 else 0, a.pktLen⟩ := .inr (Nat.le_trans (Nat.add_le_add_right hreserve _)
      (Nat.add_comm _ _ ▸ hroom))
    simp only [BoundedMemory.allInside_cons, BoundedMemory.allInside_nil, and_true]
    exact ⟨hdata, hcopy⟩
  · split at h
    · cases h
    · split at h
      · obtain rfl := Option.some.inj h
        exact BoundedMemory.allInside_nil _
      · cases h

theorem skb_reads {k pdata : ℕ} {a : RxAttrib} (henv : env.skbAlloc k = true) :
    ∃ skb, rtwOsAllocRecvframe env k pdata a = some skb ∧ rd pdata a.pktLen ∈ skb.accesses := by
  rw [rtwOsAllocRecvframe, if_pos henv]
  exact ⟨_, rfl, List.mem_cons_self⟩

def Sound (cfg : RxConfig) (t : Transfer) (pos rem : ℕ) : Prop :=
  DescInside (queryRxDescStatus t.mem pos) rem ∧
    (Taken cfg (queryRxDescStatus t.mem pos) rem →
      DataInside cfg (queryRxDescStatus t.mem pos) rem ∧
        ((queryRxDescStatus t.mem pos).step < rem →
          Sound cfg t (pos + (queryRxDescStatus t.mem pos).step)
            (rem - (queryRxDescStatus t.mem pos).step)))
termination_by rem
decreasing_by
  have hpos := step_pos t.mem pos
  omega

def Placed (t : Transfer) (s : RxState) : Prop := s.pbuf + s.transferLen = t.len

theorem data_inside (h : Placed t s) {cfg : RxConfig} :
    DataInside cfg (attribAt t s) s.transferLen ↔
      ((attribAt t s).stripFcs cfg).pktLen = 0 ∨
        s.pbuf + (attribAt t s).dataOffset + ((attribAt t s).stripFcs cfg).pktLen ≤ t.len := by
  rw [Placed] at h
  rw [DataInside]
  omega

theorem Advanced.placed {u : RxState} (h : Advanced cfg t s u skb) (hs : Placed t s)
    (hmore : u.more = true) : Placed t u := by
  rw [h.more, decide_eq_true_eq] at hmore
  rw [Placed] at hs
  rw [Placed, h.pbuf, h.transferLen]
  omega

structure Held (t : Transfer) (s r : RxState) : Prop where
  inside : AllInside (size t) s.accesses → AllInside (size t) r.accesses
  frames : (r.free ++ r.passed).Perm (s.free ++ s.passed)

theorem ends_contained (env : RxEnv) (hs : Placed t s) (hmore : s.more = true)
    (h : Sound cfg t s.pbuf s.transferLen) :
    ∃ r, Ends (rxLoop cfg env t) s r ∧ Held t s r := by
  induction hn : s.transferLen using Nat.strongRecOn generalizing s with
  | ind n ih =>
    subst hn
    rw [Sound] at h
    obtain ⟨hdesc, hnext⟩ := h
    have hreads := (descReads_inside hs).mpr hdesc
    cases hfree : s.free with
    | nil =>
      refine ⟨s, WhileLoop.ends_leave hmore (rxBody_empty hfree), id, ?_⟩
      exact List.Perm.refl _
    | cons slot free =>
      have hleave (hno : ¬ Taken cfg (attribAt t s) s.transferLen ∨ allocAt cfg env t s = none) :
          ∃ r, Ends (rxLoop cfg env t) s r ∧ Held t s r := by
        refine ⟨_, WhileLoop.ends_leave hmore (rxBody_refused hfree hno), fun hall => ?_, ?_⟩
        · exact (BoundedMemory.allInside_append _ _ _).mpr ⟨hall, hreads⟩
        · rw [hfree]
          exact (List.perm_append_singleton slot free).append_right s.passed
      cases Classical.em (Taken cfg (attribAt t s) s.transferLen) with
      | inr hno => exact hleave (.inl hno)
      | inl htaken =>
        cases hskb : allocAt cfg env t s with
        | none => exact hleave (.inr hskb)
        | some skb =>
          obtain ⟨hdata, hlater⟩ := hnext htaken
          obtain ⟨u, hbody, hu⟩ := rxBody_taken hfree htaken hskb
          have hinside : AllInside (size t) s.accesses → AllInside (size t) u.accesses := by
            intro hall
            rw [hu.accesses, BoundedMemory.allInside_append, BoundedMemory.allInside_append]
            exact ⟨hall, hreads, skb_inside hskb ((data_inside hs).mp hdata)⟩
          cases hgo : u.more with
          | false =>
            exact ⟨u, WhileLoop.ends_again hmore hbody (WhileLoop.ends_done hgo), hinside, hu.frames⟩
          | true =>
            have hlt := of_decide_eq_true (hu.more.symm.trans hgo)
            have hpos : 0 < (attribAt t s).step := step_pos _ _
            have hsound := hlater hlt
            obtain ⟨r, hr, hheld⟩ := ih u.transferLen (by rw [hu.transferLen]; omega)
              (hu.placed hs hgo) hgo (by rw [hu.pbuf, hu.transferLen]; exact hsound) rfl
            exact ⟨r, WhileLoop.ends_again hmore hbody hr, fun hall => hheld.inside (hinside hall),
              hheld.frames.trans hu.frames⟩

theorem ends_sound {r : RxState} (halloc : ∀ k, env.skbAlloc k = true) (hs : Placed t s)
    (hmore : s.more = true) (hfree : s.transferLen < s.free.length)
    (hends : Ends (rxLoop cfg env t) s r) (hall : AllInside (size t) r.accesses) :
    AllInside (size t) s.accesses ∧ Sound cfg t s.pbuf s.transferLen := by
  induction hn : s.transferLen using Nat.strongRecOn generalizing s with
  | ind n ih =>
    subst hn
    obtain ⟨slot, free, hqueue⟩ := List.exists_cons_of_length_pos (Nat.zero_lt_of_lt hfree)
    rw [Sound]
    cases Classical.em (Taken cfg (attribAt t s) s.transferLen) with
    | inr hno =>
      have hr := (WhileLoop.ends_leave_iff hmore (rxBody_refused hqueue (.inl hno))).mp hends
      rw [hr] at hall
      obtain ⟨hbefore, hreads⟩ := (BoundedMemory.allInside_append _ _ _).mp hall
      exact ⟨hbefore, (descReads_inside hs).mp hreads, fun htaken => absurd htaken hno⟩
    | inl htaken =>
      obtain ⟨skb, hskb, hread⟩ := @skb_reads env s.seen (s.pbuf + (attribAt t s).dataOffset)
        ((attribAt t s).stripFcs cfg) (halloc _)
      obtain ⟨u, hbody, hu⟩ := rxBody_taken hqueue htaken hskb
      have hrest := (WhileLoop.ends_again_iff hmore hbody).mp hends
      have hsplit : AllInside (size t) u.accesses → AllInside (size t) s.accesses ∧
          AllInside (size t) (descReads t.mem s.pbuf) ∧
            DataInside cfg (attribAt t s) s.transferLen := by
        intro hin
        rw [hu.accesses, BoundedMemory.allInside_append, BoundedMemory.allInside_append] at hin
        exact ⟨hin.1, hin.2.1, (data_inside hs).mpr (hin.2.2 _ hread)⟩
      cases hgo : u.more with
      | false =>
        obtain rfl := hrest.unique (WhileLoop.ends_done hgo)
        obtain ⟨hbefore, hreads, hdata⟩ := hsplit hall
        refine ⟨hbefore, (descReads_inside hs).mp hreads, fun _ => ⟨hdata, fun hlt => ?_⟩⟩
        exact Bool.noConfusion (hgo.symm.trans (hu.more.trans (decide_eq_true hlt)))
      | true =>
        have hlt := of_decide_eq_true (hu.more.symm.trans hgo)
        have hpos : 0 < (attribAt t s).step := step_pos _ _
        have hqueue' := hu.queue
        obtain ⟨hafter, hsound⟩ := ih u.transferLen (by rw [hu.transferLen]; omega)
          (hu.placed hs hgo) hgo (by rw [hu.transferLen]; omega) hrest rfl
        obtain ⟨hbefore, hreads, hdata⟩ := hsplit hafter
        rw [hu.pbuf, hu.transferLen] at hsound
        exact ⟨hbefore, (descReads_inside hs).mp hreads, fun _ => ⟨hdata, fun _ => hsound⟩⟩

end Turns

structure Packet where
  desc : List UInt8
  drvinfo : List UInt8
  shift : List UInt8
  payload : List UInt8
  size : desc.length = rxdescSize

namespace Packet

def bytes (p : Packet) : List UInt8 := p.desc ++ (p.drvinfo ++ (p.shift ++ p.payload))

def attrib (p : Packet) : RxAttrib := queryRxDescStatus (fun i => p.desc.getD i 0) 0

def content (cfg : RxConfig) (p : Packet) : List UInt8 :=
  if p.attrib.endsInFcs cfg then p.payload.take (p.payload.length - ieee80211FcsLen)
  else p.payload

structure WellFormed (cfg : RxConfig) (p : Packet) : Prop where
  pktLen : p.attrib.pktLen = p.payload.length
  drvinfoSz : p.attrib.drvinfoSz = p.drvinfo.length
  shiftSz : p.attrib.shiftSz = p.shift.length
  nonempty : p.payload ≠ []
  crcErr : p.attrib.crcErr = false
  icvErr : p.attrib.icvErr = false
  fcs : p.attrib.endsInFcs cfg = true → ieee80211FcsLen ≤ p.payload.length

end Packet

structure DeliveredAs (cfg : RxConfig) (t : Transfer) (p : Packet) (d : Delivery) : Prop where
  attrib : d.attrib = p.attrib.stripFcs cfg
  data : d.data = p.content cfg
  room : d.data.length ≤ d.room
  physt : d.phyStatus.isSome = p.attrib.physt
  drvinfo : ∀ o ∈ d.phyStatus, Holds t.mem o p.drvinfo

def obtains (env : RxEnv) (k : ℕ) (p : Packet) : Bool :=
  env.skbAlloc k || !p.attrib.firstFrag && env.skbClone k

section Packets

variable {cfg : RxConfig} {env : RxEnv} {t : Transfer} {s : RxState} {p : Packet} {m : Mem UInt8}
  {pos : ℕ}

theorem le32_desc (h : Holds m pos p.desc) {k : ℕ} (hk : k ≤ 20) :
    le32 m (pos + k) = le32 (fun i => p.desc.getD i 0) k := by
  have hbyte (i : ℕ) (hi : i < 24) : m (pos + i) = p.desc.getD i 0 := by
    have hlt : i < p.desc.length := by
      rw [p.size]
      exact hi
    rw [h i hlt, List.getD_eq_getElem _ _ hlt]
  rw [le32, le32]
  simp only [Nat.add_assoc]
  rw [hbyte k (by omega), hbyte (k + 1) (by omega), hbyte (k + 2) (by omega),
    hbyte (k + 3) (by omega)]

theorem query_desc (h : Holds m pos p.desc) : queryRxDescStatus m pos = p.attrib := by
  have hbits {k : ℕ} (hk : k ≤ 20) (off width : ℕ) :
      leBits m (pos + k) off width = leBits (fun i => p.desc.getD i 0) k off width := by
    rw [leBits, leBits, le32_desc h hk]
  have hfirst (off width : ℕ) :
      leBits m pos off width = leBits (fun i => p.desc.getD i 0) 0 off width :=
    hbits (Nat.zero_le _) off width
  simp only [queryRxDescStatus, Packet.attrib, leBit, hfirst, Nat.zero_add]
  simp only [hbits (show 4 ≤ 20 by decide), hbits (show 8 ≤ 20 by decide),
    hbits (show 12 ≤ 20 by decide), hbits (show 16 ≤ 20 by decide)]

theorem Packet.WellFormed.length_bytes (h : p.WellFormed cfg) :
    p.bytes.length = p.attrib.pktOffset := by
  rw [Packet.bytes, RxAttrib.pktOffset, h.pktLen, h.drvinfoSz, h.shiftSz]
  simp only [List.length_append, p.size]
  omega

theorem Packet.WellFormed.stripped (h : p.WellFormed cfg) :
    (p.attrib.stripFcs cfg).pktLen = (p.content cfg).length := by
  have hlen := h.pktLen
  have hshort : p.attrib.pktLen < 2 ^ 14 := by
    rw [Packet.attrib, queryRxDescStatus]
    split
    · exact leBits_lt _ _ _ _
    · exact leBits_lt _ _ _ _
  rw [RxAttrib.stripFcs, Packet.content]
  split
  · rename_i hfcs
    have hfour := h.fcs hfcs
    rw [ieee80211FcsLen] at hfour
    rw [List.length_take]
    dsimp only
    rw [ieee80211FcsLen]
    omega
  · exact hlen

theorem Packet.content_prefix (p : Packet) (cfg : RxConfig) : p.content cfg <+: p.payload := by
  rw [Packet.content]
  split
  · exact List.take_prefix _ _
  · exact List.prefix_refl _

theorem Packet.WellFormed.taken (h : p.WellFormed cfg) {rem : ℕ} (hrem : p.bytes.length ≤ rem) :
    Taken cfg p.attrib rem := by
  constructor
  · rw [h.crcErr, h.icvErr, Bool.or_false, Bool.and_false]
  · rw [h.pktLen]
    exact fun hzero => h.nonempty (List.length_eq_zero_iff.mp hzero)
  · rw [← h.length_bytes]
    exact hrem

theorem obtains_some (k pdata : ℕ) (h : obtains env k p = true) :
    ∃ skb, rtwOsAllocRecvframe env k pdata (p.attrib.stripFcs cfg) = some skb := by
  rw [rtwOsAllocRecvframe]
  split
  · exact ⟨_, rfl⟩
  · rename_i hno
    rw [obtains, Bool.eq_false_iff.mpr hno, Bool.false_or, Bool.and_eq_true, Bool.not_eq_true'] at h
    rw [(stripFcs_kept cfg p.attrib).firstFrag, if_neg (Bool.eq_false_iff.mp h.1), if_pos h.2]
    exact ⟨_, rfl⟩

theorem Packet.WellFormed.delivered {k : ℕ} {skb : SkbData} (h : p.WellFormed cfg)
    (hholds : Holds t.mem pos p.bytes)
    (hskb : rtwOsAllocRecvframe env k (pos + p.attrib.dataOffset) (p.attrib.stripFcs cfg) =
      some skb) :
    DeliveredAs cfg t p
      (delivery t pos (pos + p.attrib.dataOffset) (p.attrib.stripFcs cfg) skb) := by
  have hreserve := reserve_le hskb
  have hroom := allocSz_room (p.attrib.stripFcs cfg)
  have hkept := stripFcs_kept cfg p.attrib
  have hpayload : Holds t.mem (pos + p.attrib.dataOffset) p.payload := by
    have htail := hholds.right.right.right
    rw [p.size, ← h.drvinfoSz, ← h.shiftSz] at htail
    rwa [RxAttrib.dataOffset, ← Nat.add_assoc, ← Nat.add_assoc]
  have hdata : (delivery t pos (pos + p.attrib.dataOffset) (p.attrib.stripFcs cfg) skb).data =
      p.content cfg := by
    rw [delivery, recvframePut_fits hskb]
    exact (hpayload.restrict (p.content_prefix cfg)).read_eq h.stripped
  constructor
  · rfl
  · exact hdata
  · rw [hdata, ← h.stripped, delivery]
    dsimp only
    omega
  · rw [delivery, hkept.physt]
    cases p.attrib.physt with
    | true => rfl
    | false => rfl
  · intro o ho
    rw [delivery, hkept.physt] at ho
    cases hphy : p.attrib.physt with
    | true =>
      rw [hphy] at ho
      cases ho
      have hinfo := hholds.right.left
      rwa [p.size] at hinfo
    | false =>
      rw [hphy] at ho
      cases ho

theorem ends_delivered {ps : List Packet} {bs : List UInt8}
    (hok : ∀ p ∈ ps, p.WellFormed cfg) (henc : Encodes 8 (ps.map Packet.bytes) bs)
    (hholds : Holds t.mem s.pbuf bs) (hlen : s.transferLen = bs.length) (hne : ps ≠ [])
    (hmore : s.more = true) (hfree : ps.length ≤ s.free.length)
    (hobtain : ∀ (i : ℕ) (h : i < ps.length), obtains env (s.seen + i) ps[i] = true) :
    ∃ r ds, Ends (rxLoop cfg env t) s r ∧ r.delivered = s.delivered ++ ds ∧
      List.Forall₂ (DeliveredAs cfg t) ps ds := by
  induction ps generalizing s bs with
  | nil => exact absurd rfl hne
  | cons p ps ih =>
    have hp := hok p List.mem_cons_self
    rw [List.map_cons] at henc
    have hhead := henc.head_holds hholds
    have hquery : attribAt t s = p.attrib := query_desc hhead.left
    have htaken : Taken cfg (attribAt t s) s.transferLen := by
      rw [hquery, hlen]
      exact hp.taken henc.length_le
    obtain ⟨skb, hskb⟩ := @obtains_some cfg env p s.seen (s.pbuf + p.attrib.dataOffset)
      (hobtain 0 (Nat.succ_pos _))
    obtain ⟨slot, free, hqueue⟩ :=
      List.exists_cons_of_length_pos (Nat.lt_of_lt_of_le (Nat.succ_pos _) hfree)
    have halloc : allocAt cfg env t s = some skb := by
      rw [allocAt, hquery]
      exact hskb
    obtain ⟨u, hbody, hu⟩ := rxBody_taken hqueue htaken halloc
    have hstep : (attribAt t s).step = p.bytes.length + padLen 8 p.bytes.length := by
      rw [attribAt, step_eq, hp.length_bytes, ← hquery]
      rfl
    have hd := hp.delivered hhead hskb
    have hdelivered := hu.delivered
    rw [hquery] at hdelivered
    cases Decidable.em (ps = []) with
    | inl hlast =>
      subst hlast
      have hend : u.more = false := by
        rw [hu.more, hstep, hlen, henc.only]
        exact decide_eq_false (by omega)
      exact ⟨u, _, WhileLoop.ends_again hmore hbody (WhileLoop.ends_done hend), hdelivered,
        .cons hd .nil⟩
    | inr hmany =>
      obtain ⟨tail, htail, hsize, hat⟩ := henc.tail_holds (by simpa using hmany) hholds
      have hlong : 0 < tail.length := htail.length_gt (fun r hr => by
        obtain ⟨q, -, rfl⟩ := List.mem_map.mp hr
        rw [Packet.bytes, List.length_append, q.size, rxdescSize]
        omega) (by simpa using hmany)
      have hgo : u.more = true := by
        rw [hu.more, hstep, hlen, hsize]
        exact decide_eq_true (by omega)
      have hqueue' := hu.queue
      rw [List.length_cons] at hfree
      obtain ⟨r, ds, hr, hrest, hall⟩ := ih (fun q hq => hok q (List.mem_cons_of_mem _ hq)) htail
        (by rw [hu.pbuf, hstep, ← Nat.add_assoc]; exact hat)
        (by rw [hu.transferLen, hstep, hlen, hsize]; omega) hmany hgo (by omega)
        (fun i hi => by
          have hnext := hobtain (i + 1) (Nat.succ_lt_succ hi)
          rw [hu.seen, Nat.add_assoc, Nat.add_comm 1 i]
          exact hnext)
      refine ⟨r, _ :: ds, WhileLoop.ends_again hmore hbody hr, ?_, .cons hd hall⟩
      rw [hrest, hdelivered, List.append_assoc]
      rfl

end Packets

def Contained (cfg : RxConfig) (env : RxEnv) (t : Transfer) (free : List ℕ) : Prop :=
  ∃ fuel r, recvbuf2recvframe cfg env t free fuel = some r ∧ AllInside (size t) r.accesses ∧
    (r.free ++ r.passed).Perm free

def Faithful (cfg : RxConfig) (env : RxEnv) (t : Transfer) (free : List ℕ) : Prop :=
  ∀ ps bs, ps ≠ [] → (∀ p ∈ ps, p.WellFormed cfg) → Encodes 8 (ps.map Packet.bytes) bs →
    Holds t.mem 0 bs → t.len = bs.length → ps.length ≤ free.length →
    (∀ (i : ℕ) (h : i < ps.length), obtains env i ps[i] = true) →
    ∃ fuel r, recvbuf2recvframe cfg env t free fuel = some r ∧
      List.Forall₂ (DeliveredAs cfg t) ps r.delivered

def Right (cfg : RxConfig) (t : Transfer) : Prop :=
  ∀ env free, Contained cfg env t free ∧ Faithful cfg env t free

section Law

variable {cfg : RxConfig} {env : RxEnv} {t : Transfer} {free : List ℕ}

theorem rxStart_placed : Placed t (rxStart t free) := Nat.zero_add _

theorem rxStart_inside : AllInside (size t) (rxStart t free).accesses ↔ 16 ≤ t.len := by
  simp only [rxStart, BoundedMemory.allInside_cons, BoundedMemory.allInside_nil, rd_inside,
    and_true]
  omega

theorem contained_of_sound (hlong : 16 ≤ t.len) (h : Sound cfg t 0 t.len) :
    Contained cfg env t free := by
  obtain ⟨r, ⟨fuel, hrun⟩, hheld⟩ := ends_contained env (@rxStart_placed t free) rfl h
  refine ⟨fuel, r, hrun, hheld.inside (rxStart_inside.mpr hlong), ?_⟩
  have hframes := hheld.frames
  rwa [rxStart, List.append_nil] at hframes

theorem faithful : Faithful cfg env t free := by
  intro ps bs hne hok henc hholds hlen hfree hobtain
  obtain ⟨r, ds, ⟨fuel, hrun⟩, hds, hall⟩ := ends_delivered (s := rxStart t free) hok henc hholds
    hlen hne rfl hfree fun i hi => by
      rw [rxStart, Nat.zero_add]
      exact hobtain i hi
  refine ⟨fuel, r, hrun, ?_⟩
  rwa [hds]

def generous : RxEnv := ⟨fun _ => true, fun _ => true, fun _ => 0, fun _ _ => false⟩

theorem sound_of_contained (h : Contained cfg generous t (List.range (t.len + 1))) :
    16 ≤ t.len ∧ Sound cfg t 0 t.len := by
  obtain ⟨fuel, r, hrun, hall, -⟩ := h
  have hfree : (rxStart t (List.range (t.len + 1))).transferLen <
      (rxStart t (List.range (t.len + 1))).free.length := by
    rw [rxStart, List.length_range]
    exact Nat.lt_succ_self _
  obtain ⟨hstart, hsound⟩ := ends_sound (fun _ => rfl) rxStart_placed rfl hfree ⟨fuel, hrun⟩ hall
  exact ⟨rxStart_inside.mp hstart, hsound⟩

end Law

theorem rx_aggregation_law (cfg : RxConfig) (t : Transfer) :
    Right cfg t ↔ 16 ≤ t.len ∧ Sound cfg t 0 t.len := by
  constructor
  · exact fun h => sound_of_contained (h generous _).1
  · exact fun h env free => ⟨contained_of_sound h.1 h.2, faithful⟩

def defaultRx : RxConfig := ⟨false, false, true⟩

-- one unit of driver info for the phy status, two octets of shift and a check sum at the end
def statusPacket : Packet where
  desc := [12, 0, 1, 6] ++ List.replicate 20 0
  drvinfo := List.replicate 8 0x5a
  shift := [0, 0]
  payload := [0x08, 0, 0, 0, 1, 2, 3, 4, 5, 6, 7, 8]
  size := rfl

example : statusPacket.WellFormed defaultRx ∧ statusPacket.content defaultRx =
    [0x08, 0, 0, 0, 1, 2, 3, 4] :=
  ⟨⟨by decide, by decide, by decide, by decide, by decide, by decide, by decide⟩, by decide⟩

def shortTail : Transfer where
  mem o := if o = 0 then 8 else 0
  len := 40
  s32 := by decide

theorem partial_descriptor_read_past : ¬ Right defaultRx shortTail := by
  intro h
  obtain ⟨fuel, r, hrun, hall, -⟩ := (h generous [0, 1]).1
  have hpast : (recvbuf2recvframe defaultRx generous shortTail [0, 1] 3).any
      (fun r => decide (¬ AllInside (size shortTail) r.accesses)) = true := by decide +kernel
  cases hrun' : recvbuf2recvframe defaultRx generous shortTail [0, 1] 3 with
  | none =>
    rw [hrun'] at hpast
    cases hpast
  | some r' =>
    rw [hrun'] at hpast
    obtain rfl : r = r' := Ends.unique ⟨fuel, hrun⟩ ⟨3, hrun'⟩
    exact of_decide_eq_true hpast hall

end Recv.Usb
