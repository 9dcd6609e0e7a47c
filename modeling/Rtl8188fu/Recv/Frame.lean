import Mathlib.Tactic.Common
import Rtl8188fu.Lib.Widths

namespace Recv

abbrev MacAddr := Vector UInt8 6

def isMcast (da : MacAddr) : Bool := da[0] &&& 0x01 != 0

def localAddr (n : UInt8) : MacAddr := #v[2, 0, 0, 0, 0, n]

inductive SecurityType where
  | noPrivacy
  | wep40
  | tkip
  | tkipWtmic
  | aes
  | wep104
  | sms4
  | gcmp
  | bipCmac128
  | bipGmac128
  | ccmp256
  | gcmp256
  | bipCmac256
  | bipGmac256
  deriving DecidableEq, Repr

structure RxPktAttrib where
  hdrlen : ℕ
  toFrDs : Fin 4
  amsdu : Bool
  qos : Bool
  priority : Fin 16
  seqNum : Fin 4096
  fragNum : Fin 16
  mfrag : Bool
  order : Bool
  privacy : Bool
  bdecrypted : Bool
  encrypt : SecurityType
  ivLen : ℕ
  icvLen : ℕ
  crcErr : Bool
  icvErr : Bool
  dst : MacAddr
  src : MacAddr
  ta : MacAddr
  ra : MacAddr
  bssid : MacAddr
  keyIndex : Fin 4
  pktLen : ℕ
  deriving DecidableEq

def RxPktAttrib.zero : RxPktAttrib where
  hdrlen := 0
  toFrDs := 0
  amsdu := false
  qos := false
  priority := 0
  seqNum := 0
  fragNum := 0
  mfrag := false
  order := false
  privacy := false
  bdecrypted := false
  encrypt := .noPrivacy
  ivLen := 0
  icvLen := 0
  crcErr := false
  icvErr := false
  dst := Vector.replicate 6 0
  src := Vector.replicate 6 0
  ta := Vector.replicate 6 0
  ra := Vector.replicate 6 0
  bssid := Vector.replicate 6 0
  keyIndex := 0
  pktLen := 0

structure RecvFrame where
  slot : ℕ
  attrib : RxPktAttrib
  keytrack : ℤ
  data : List UInt8
  spare : List UInt8
  psta : Option MacAddr
  preorderCtrl : Option (Fin 16)
  deriving DecidableEq

def rtwInitRecvframe (slot : ℕ) : RecvFrame where
  slot := slot
  attrib := .zero
  keytrack := 0
  data := []
  spare := []
  psta := none
  preorderCtrl := none

def byteAt (p : List UInt8) (i : ℕ) : ℕ := (p.getD i 0).toNat

def le16 (p : List UInt8) (i : ℕ) : ℕ := byteAt p i + 256 * byteAt p (i + 1)

theorem byteAt_lt (p : List UInt8) (i : ℕ) : byteAt p i < 256 := UInt8.toNat_lt _

theorem le16_lt (p : List UInt8) (i : ℕ) : le16 p i < 65536 := by
  have hlow := byteAt_lt p i
  have hhigh := byteAt_lt p (i + 1)
  unfold le16
  omega

theorem byteAt_drop (p : List UInt8) (n i : ℕ) : byteAt (p.drop n) i = byteAt p (n + i) := by
  simp [byteAt, List.getD_eq_getElem?_getD, List.getElem?_drop]

theorem byteAt_take (p : List UInt8) {n i : ℕ} (h : i < n) : byteAt (p.take n) i = byteAt p i := by
  simp [byteAt, List.getD_eq_getElem?_getD, h]

theorem byteAt_append (p q : List UInt8) {i : ℕ} (h : i < p.length) :
    byteAt (p ++ q) i = byteAt p i := by
  simp [byteAt, List.getD_eq_getElem?_getD, List.getElem?_append_left h]

def macAt (p : List UInt8) (i : ℕ) : MacAddr := Vector.ofFn fun k => p.getD (i + k) 0

namespace RecvFrame

variable (f : RecvFrame)

def rxData : List UInt8 := f.data ++ f.spare

def len : ℕ := f.data.length

def recvframePull (n : ℕ) : RecvFrame :=
  if n ≤ f.len then { f with data := f.data.drop n } else f

def recvframePut (n : ℕ) : RecvFrame :=
  if n ≤ f.spare.length then
    { f with data := f.data ++ f.spare.take n, spare := f.spare.drop n }
  else f

def recvframePullTail (n : ℕ) : RecvFrame :=
  if n ≤ f.len then
    { f with
      data := f.data.take (f.len - n)
      spare := f.data.drop (f.len - n) ++ f.spare }
  else f

theorem recvframePut_same (n : ℕ) :
    ∃ d s, f.recvframePut n = { f with data := d, spare := s } := by
  unfold recvframePut
  split
  · exact ⟨_, _, rfl⟩
  · exact ⟨f.data, f.spare, rfl⟩

theorem recvframePullTail_same (n : ℕ) :
    ∃ d s, f.recvframePullTail n = { f with data := d, spare := s } := by
  unfold recvframePullTail
  split
  · exact ⟨_, _, rfl⟩
  · exact ⟨f.data, f.spare, rfl⟩

end RecvFrame

end Recv
