import Rtl8188fu.Lib.ByteMemory
import Rtl8188fu.Lib.ByteOrder
import Rtl8188fu.Lib.CursorWalk
import Rtl8188fu.Lib.PacketBuffer
import Rtl8188fu.Recv.Frame

namespace Bridge

open ByteMemory ByteOrder

structure Skb where
  mem : Mem UInt8
  len : ℕ
  tailroom : ℕ

namespace Skb

def be16 (s : Skb) (a : ℕ) : ℕ := word .big (s.mem a) (s.mem (a + 1))

def store (s : Skb) (a : ℕ) (bs : List UInt8) : Skb := { s with mem := write s.mem a bs }

def move (s : Skb) (dst src n : ℕ) : Skb := s.store dst (read s.mem src n)

def put (s : Skb) (n : ℕ) : Skb := { s with len := s.len + n, tailroom := s.tailroom - n }

def trim (s : Skb) (n : ℕ) : Skb := { s with len := s.len - n, tailroom := s.tailroom + n }

def access (s : Skb) (first count : ℕ) : PacketBuffer.Access := ⟨0, s.len, first, count⟩

end Skb

def macAt (m : Mem UInt8) (a : ℕ) : Recv.MacAddr := Vector.ofFn fun i => m (a + i)

namespace Pppoe

open CursorWalk
open PacketBuffer (Access)

def tagWalk (s : Skb) : Walk where
  inside i := decide (i < s.be16 18)
  found i := s.be16 (20 + i) == 0x0110
  next i := i + (4 + s.be16 (22 + i))

def findPppoeTag (s : Skb) : Option ℕ := find (tagWalk s) (s.be16 18) 0

def findAccesses (s : Skb) : List Access :=
  s.access 18 2 :: (visited (tagWalk s) (s.be16 18) 0).map fun i => s.access (20 + i) 4

structure Done where
  skb : Skb
  ret : ℤ
  accesses : List Access

def skbPullAndMerge (s : Skb) (src n : ℕ) : Done :=
  if s.len < src + n ∨ s.len < n then ⟨s, -1, []⟩
  else
    let tailLen := s.len - (src + n)
    ⟨(s.move src (src + n) tailLen).trim n, 0, [s.access (src + n) tailLen, s.access src tailLen]⟩

def setLength (s : Skb) (n : ℕ) : Skb := s.store 18 (unword .big n)

def tagBufAccess (first count : ℕ) : Access := ⟨0, 40, first, count⟩

def addPppoeTag (e : Order) (s : Skb) (tagBuf : ℕ → UInt8) : Done :=
  let dataLen := word e (tagBuf 2) (tagBuf 3) + 4
  if s.tailroom < dataLen then ⟨s, -1, [tagBufAccess 2 2]⟩
  else
    let s := s.put dataLen
    let length := s.be16 18
    ⟨(setLength (s.move (20 + dataLen) 20 length) (length + dataLen)).store 20
        ((List.range dataLen).map tagBuf), dataLen,
      [tagBufAccess 2 2, s.access 20 length, s.access (20 + dataLen) length, s.access 18 2,
        tagBufAccess 0 dataLen, s.access 20 dataLen]⟩

def relayBytes (mac old : List UInt8) : List UInt8 :=
  [0x01, 0x10, high (8 + old.length), low (8 + old.length), 0x81, 0x86] ++ mac ++ old

def filled (stack : ℕ → UInt8) (bs : List UInt8) : ℕ → UInt8 := fun i => bs.getD i (stack i)

def addRelay (e : Order) (stack : ℕ → UInt8) (s : Skb) (old : List UInt8) : Done :=
  let r := addPppoeTag e s (filled stack (relayBytes (read s.mem 6 6) old))
  ⟨r.skb, if r.ret < 0 then -1 else 0,
    [tagBufAccess 0 12, s.access 6 6] ++ r.accesses⟩

def insertRelayTag (e : Order) (stack : ℕ → UInt8) (s : Skb) : Done :=
  match findPppoeTag s with
  | none =>
    let r := addRelay e stack s []
    { r with accesses := findAccesses s ++ r.accesses }
  | some i =>
    let oldLen := s.be16 (22 + i)
    if 40 < oldLen + 12 then ⟨s, -1, findAccesses s ++ [s.access (22 + i) 2]⟩
    else
      let copy := [s.access (22 + i) 2, s.access (24 + i) oldLen, tagBufAccess 12 oldLen]
      let r := skbPullAndMerge s (20 + i) (4 + oldLen)
      if r.ret < 0 then ⟨r.skb, -1, findAccesses s ++ copy ++ r.accesses⟩
      else
        let cut := setLength r.skb (s.be16 18 + 65536 - (4 + oldLen))
        let a := addRelay e stack cut (read s.mem (24 + i) oldLen)
        { a with accesses := findAccesses s ++ copy ++ r.accesses ++ [cut.access 18 2] ++ a.accesses }

def lookupRelayTag (s : Skb) : Done :=
  match findPppoeTag s with
  | none => ⟨s, -1, findAccesses s⟩
  | some i =>
    let tagLen := s.be16 (22 + i)
    let look := findAccesses s ++ [s.access (20 + i) 4]
    if s.be16 (20 + i) ≠ 0x0110 ∨ tagLen < 8 then ⟨s, -1, look⟩
    else if s.be16 (24 + i) ≠ 0x8186 then ⟨s, -1, look ++ [s.access (24 + i) 2]⟩
    else
      let dest := s.store 0 (read s.mem (26 + i) 6)
      let offset := if 8 < tagLen then 4 else 0
      let taken := look ++ [s.access (24 + i) 2, s.access (26 + i) 6, s.access 0 6]
      let r := skbPullAndMerge dest (20 + i + offset) (12 - offset)
      if r.ret < 0 then ⟨r.skb, -1, taken ++ r.accesses⟩
      else
        let cut := setLength r.skb (s.be16 18 + 65536 - (12 - offset))
        if 0 < offset then
          ⟨cut.store (22 + i) (unword .big (tagLen - 8)), 0,
            taken ++ r.accesses ++ [cut.access 18 2, cut.access (22 + i) 2]⟩
        else ⟨cut, 0, taken ++ r.accesses ++ [cut.access 18 2]⟩

structure Discovery where
  addPPPoETag : Bool
  connectionInProgress : ℕ
  pppoeAddr : Recv.MacAddr

structure Answer where
  port : Discovery
  done : Done

def isRequest (code : UInt8) : Bool := code == 0x09 || code == 0x19

def isOffer (code : UInt8) : Bool := code == 0x07 || code == 0x65

def insertDiscovery (e : Order) (stack : ℕ → UInt8) (p : Discovery) (s : Skb) : Answer :=
  let src := macAt s.mem 6
  if isRequest (s.mem 15) then
    if p.addPPPoETag then ⟨p, insertRelayTag e stack s⟩
    else if p.connectionInProgress ≠ 0 ∧ src ≠ p.pppoeAddr then ⟨p, ⟨s, -2, []⟩⟩
    else
      ⟨{ p with
          connectionInProgress := 5
          pppoeAddr := if p.connectionInProgress = 0 then src else p.pppoeAddr }, ⟨s, 0, []⟩⟩
  else ⟨p, ⟨s, -1, []⟩⟩

def lookupDiscovery (p : Discovery) (s : Skb) : Answer :=
  if isOffer (s.mem 15) then
    if p.addPPPoETag then ⟨p, lookupRelayTag s⟩
    else if p.connectionInProgress = 0 then ⟨p, ⟨s, -1, []⟩⟩
    else ⟨{ p with connectionInProgress := 5 }, ⟨s.store 0 p.pppoeAddr.toList, 0, []⟩⟩
  else ⟨p, ⟨s, -1, []⟩⟩

structure Tag where
  typeHigh : UInt8
  typeLow : UInt8
  data : List UInt8
  deriving DecidableEq

namespace Tag

def bytes (t : Tag) : List UInt8 :=
  [t.typeHigh, t.typeLow, high t.data.length, low t.data.length] ++ t.data

def isRelay (t : Tag) : Bool := t.typeHigh == 0x01 && t.typeLow == 0x10

@[simp] theorem length_bytes (t : Tag) : t.bytes.length = t.data.length + 4 := by
  rw [bytes, List.length_append, Nat.add_comm]
  rfl

theorem isRelay_eq (t : Tag) : (word .big t.typeHigh t.typeLow == 0x0110) = t.isRelay := by
  have hhigh := t.typeHigh.toNat_lt
  have hlow := t.typeLow.toNat_lt
  rw [Bool.eq_iff_iff, beq_iff_eq, isRelay, Bool.and_eq_true, beq_iff_eq, beq_iff_eq,
    ← UInt8.toNat_inj, ← UInt8.toNat_inj, word]
  change _ ↔ t.typeHigh.toNat = 1 ∧ t.typeLow.toNat = 16
  omega

end Tag

def encode (ts : List Tag) : List UInt8 := ts.flatMap Tag.bytes

@[simp] theorem encode_nil : encode [] = [] := rfl

@[simp] theorem encode_cons (t : Tag) (ts : List Tag) : encode (t :: ts) = t.bytes ++ encode ts :=
  List.flatMap_cons

@[simp] theorem encode_append (ts us : List Tag) : encode (ts ++ us) = encode ts ++ encode us :=
  List.flatMap_append

variable {s : Skb} {t : Tag} {ts us vs : List Tag} {bs cs ds : List UInt8} {a n : ℕ}

theorem word_bytes (n : ℕ) : word .big (high n) (low n) = n % 65536 := by
  simp only [word, toNat_high, toNat_low]
  omega

theorem be16_holds {x y : UInt8} {rest : List UInt8} (h : ByteMemory.Holds s.mem a (x :: y :: rest)) :
    s.be16 a = word .big x y := by
  have hfirst := h 0 (Nat.succ_pos _)
  have hsecond := h 1 (Nat.succ_lt_succ (Nat.succ_pos _))
  rw [Nat.add_zero] at hfirst
  rw [Skb.be16, hfirst, hsecond]
  rfl

structure TagFrame (s : Skb) (ts : List Tag) : Prop where
  length : s.be16 18 = (encode ts).length
  tags : ByteMemory.Holds s.mem 20 (encode ts)
  inside : 20 + (encode ts).length ≤ s.len

namespace TagFrame

theorem at_tag (h : TagFrame s (us ++ t :: vs)) :
    ByteMemory.Holds s.mem (20 + (encode us).length) (t.bytes ++ encode vs) := by
  have htags := h.tags
  rw [encode_append, encode_cons] at htags
  exact htags.right

theorem length_lt (h : TagFrame s ts) : (encode ts).length < 65536 := by
  rw [← h.length]
  exact word_lt ..

theorem type_eq (h : TagFrame s (us ++ t :: vs)) :
    s.be16 (20 + (encode us).length) = word .big t.typeHigh t.typeLow :=
  be16_holds (at_tag h)

theorem tagLen_eq (h : TagFrame s (us ++ t :: vs)) :
    s.be16 (22 + (encode us).length) = t.data.length := by
  have hlt := h.length_lt
  simp only [encode_append, encode_cons, List.length_append, Tag.length_bytes] at hlt
  have hlen := be16_holds ((at_tag h).drop (n := 2) (by simp; omega))
  rw [Nat.add_right_comm] at hlen
  rw [hlen, word_bytes, Nat.mod_eq_of_lt (by omega)]

theorem inside_at (h : TagFrame s (us ++ t :: vs)) :
    (tagWalk s).inside (encode us).length = true := by
  refine decide_eq_true ?_
  rw [h.length]
  simp only [encode_append, encode_cons, List.length_append, Tag.length_bytes]
  omega

theorem inside_end (h : TagFrame s ts) : (tagWalk s).inside (encode ts).length = false := by
  refine decide_eq_false ?_
  rw [h.length]
  exact Nat.lt_irrefl _

theorem found_at (h : TagFrame s (us ++ t :: vs)) :
    (tagWalk s).found (encode us).length = t.isRelay := by
  rw [← t.isRelay_eq, ← h.type_eq]
  rfl

theorem next_at (h : TagFrame s (us ++ t :: vs)) :
    (tagWalk s).next (encode us).length = (encode (us ++ [t])).length := by
  have hlen := h.tagLen_eq
  simp only [tagWalk, hlen, encode_append, encode_cons, encode_nil, List.append_nil,
    List.length_append, Tag.length_bytes]
  omega

end TagFrame

theorem tagWalk_advances (s : Skb) : Advances (tagWalk s) (s.be16 18) :=
  ⟨fun _ hj => of_decide_eq_true hj, fun _ => Nat.lt_add_of_pos_right (by omega)⟩

theorem find_from (h : TagFrame s (us ++ vs)) (hno : ∀ u ∈ vs, u.isRelay = false) :
    find (tagWalk s) (s.be16 18) (encode us).length = none := by
  induction vs generalizing us with
  | nil =>
    rw [List.append_nil] at h
    exact (tagWalk_advances s).find_outside h.inside_end
  | cons t vs ih =>
    have hfound : (tagWalk s).found (encode us).length = false :=
      h.found_at.trans (hno t List.mem_cons_self)
    rw [(tagWalk_advances s).find_next h.inside_at hfound, h.next_at]
    refine ih ?_ fun u hu => hno u (List.mem_cons_of_mem _ hu)
    rwa [List.append_assoc]

theorem find_relay_from (h : TagFrame s (us ++ (ts ++ t :: vs)))
    (hno : ∀ u ∈ ts, u.isRelay = false) (ht : t.isRelay = true) :
    find (tagWalk s) (s.be16 18) (encode us).length = some (encode (us ++ ts)).length := by
  induction ts generalizing us with
  | nil =>
    rw [List.append_nil]
    exact (tagWalk_advances s).find_found h.inside_at (h.found_at.trans ht)
  | cons u ts ih =>
    rw [List.cons_append] at h
    have hfound : (tagWalk s).found (encode us).length = false :=
      h.found_at.trans (hno u List.mem_cons_self)
    have hnext : TagFrame s (us ++ [u] ++ (ts ++ t :: vs)) := by rwa [List.append_assoc]
    rw [(tagWalk_advances s).find_next h.inside_at hfound, h.next_at,
      ih hnext fun v hv => hno v (List.mem_cons_of_mem _ hv), List.append_assoc]
    rfl

theorem visits_tag {o j : ℕ} (hvisits : Visits (tagWalk s) o j) (h : TagFrame s (us ++ vs))
    (ho : o = (encode us).length) :
    ∃ us' t' vs', us ++ vs = us' ++ t' :: vs' ∧ j = (encode us').length := by
  induction hvisits generalizing us vs with
  | here hin =>
    cases vs with
    | nil =>
      rw [List.append_nil] at h
      rw [ho, h.inside_end] at hin
      cases hin
    | cons t vs => exact ⟨us, t, vs, rfl, ho⟩
  | later hin hfound _ ih =>
    cases vs with
    | nil =>
      rw [List.append_nil] at h
      rw [ho, h.inside_end] at hin
      cases hin
    | cons t vs =>
      have hnext : TagFrame s (us ++ [t] ++ vs) := by rwa [List.append_assoc]
      obtain ⟨us', t', vs', heq, hj⟩ := ih hnext (by rw [ho, h.next_at])
      rw [List.append_assoc] at heq
      exact ⟨us', t', vs', heq, hj⟩

theorem access_inside (h : a + n ≤ s.len) : (s.access a n).Inside :=
  .inr ⟨Nat.zero_le _, h⟩

theorem findAccesses_inside (h : TagFrame s ts) : ∀ x ∈ findAccesses s, x.Inside := by
  have hinside := h.inside
  rw [findAccesses, List.forall_mem_cons, List.forall_mem_map]
  refine ⟨access_inside (by omega), fun i hi => ?_⟩
  obtain ⟨us', t', vs', heq, rfl⟩ :=
    @visits_tag s [] ts _ _ ((tagWalk_advances s).mem_visited.mp hi) h rfl
  rw [List.nil_append] at heq
  rw [heq] at hinside
  simp only [encode_append, encode_cons, List.length_append, Tag.length_bytes] at hinside
  exact access_inside (by omega)

structure Body (s : Skb) (bs : List UInt8) : Prop where
  holds : ByteMemory.Holds s.mem 20 bs
  inside : 20 + bs.length ≤ s.len

theorem TagFrame.body (h : TagFrame s ts) : Body s (encode ts) := ⟨h.tags, h.inside⟩

theorem read_extends {m : Mem UInt8} (h : ByteMemory.Holds m a bs) (hn : bs.length ≤ n) :
    bs <+: read m a n := by
  obtain ⟨k, rfl⟩ := Nat.exists_eq_add_of_le hn
  rw [read_add, h.read]
  exact List.prefix_append _ _

structure Cut (s : Skb) (n : ℕ) (bs : List UInt8) (r : Done) : Prop where
  ret : r.ret = 0
  body : Body r.skb bs
  header : ∀ i < 20, r.skb.mem i = s.mem i
  len : r.skb.len + n = s.len
  tailroom : r.skb.tailroom = s.tailroom + n
  accesses : ∀ x ∈ r.accesses, x.Inside

theorem cut_spec (h : Body s (bs ++ (cs ++ ds))) :
    Cut s cs.length (bs ++ ds) (skbPullAndMerge s (20 + bs.length) cs.length) := by
  have hinside := h.inside
  simp only [List.length_append] at hinside
  have hbefore : ByteMemory.Holds s.mem 20 bs := h.holds.left
  have hafter : ByteMemory.Holds s.mem (20 + bs.length + cs.length) ds := h.holds.right.right
  have htail : ds.length ≤ s.len - (20 + bs.length + cs.length) := by omega
  rw [skbPullAndMerge, if_neg (by omega)]
  refine ⟨rfl, ⟨?_, ?_⟩, fun i hi => write_below s.mem _ (by omega), ?_, rfl, ?_⟩
  · refine (hbefore.write_after (Nat.le_refl _)).append ?_
    exact (holds_write s.mem _ _).restrict (read_extends hafter htail)
  · simp only [Skb.trim, Skb.move, Skb.store, List.length_append]
    omega
  · simp only [Skb.trim, Skb.move, Skb.store]
    omega
  · rw [List.forall_mem_cons, List.forall_mem_singleton]
    exact ⟨access_inside (by omega), access_inside (by omega)⟩

theorem Body.setLength (h : Body s bs) (n : ℕ) : Body (setLength s n) bs :=
  ⟨h.holds.write_before (by simp), h.inside⟩

theorem be16_setLength (s : Skb) (n : ℕ) : (setLength s n).be16 18 = n % 65536 := by
  rw [be16_holds (holds_write s.mem 18 (unword .big n)), word_bytes]

theorem be16_store_above (s : Skb) (bs : List UInt8) {k : ℕ} (h : k + 2 ≤ a) :
    (s.store a bs).be16 k = s.be16 k := by
  have hfirst : write s.mem a bs k = s.mem k := write_below s.mem bs (by omega)
  have hsecond : write s.mem a bs (k + 1) = s.mem (k + 1) := write_below s.mem bs (by omega)
  simp only [Skb.be16, Skb.store, hfirst, hsecond]

theorem be16_store_below (s : Skb) (bs : List UInt8) {k : ℕ} (h : a + bs.length ≤ k) :
    (s.store a bs).be16 k = s.be16 k := by
  have hfirst : write s.mem a bs k = s.mem k := write_above s.mem h
  have hsecond : write s.mem a bs (k + 1) = s.mem (k + 1) := write_above s.mem (by omega)
  simp only [Skb.be16, Skb.store, hfirst, hsecond]

theorem store_below {i : ℕ} (s : Skb) (bs : List UInt8) (hi : i < a) :
    (s.store a bs).mem i = s.mem i := write_below s.mem bs hi

theorem setLength_below {i : ℕ} (s : Skb) (n : ℕ) (hi : i < 18) :
    (setLength s n).mem i = s.mem i := write_below s.mem _ hi

theorem setLength_above {i : ℕ} (s : Skb) (n : ℕ) (hi : 20 ≤ i) :
    (setLength s n).mem i = s.mem i := write_above s.mem (by simpa using hi)

structure Shortened (s : Skb) (n : ℕ) (bs : List UInt8) (cut : Skb) : Prop where
  body : Body cut bs
  length : cut.be16 18 = bs.length
  header : ∀ i < 18, cut.mem i = s.mem i
  tailroom : cut.tailroom = s.tailroom + n

theorem Cut.shortened {r : Done} (h : Cut s n bs r) (hlen : s.be16 18 = bs.length + n) :
    Shortened s n bs (setLength r.skb (s.be16 18 + 65536 - n)) := by
  have hlt : s.be16 18 < 65536 := word_lt ..
  refine ⟨h.body.setLength _, ?_, fun i hi => ?_, h.tailroom⟩
  · rw [be16_setLength, hlen]
    omega
  · rw [setLength_below _ _ hi]
    exact h.header i (by omega)

theorem filled_range (stack : ℕ → UInt8) (bs : List UInt8) :
    (List.range bs.length).map (filled stack bs) = bs := by
  refine List.ext_getElem (by simp) fun i hi hi' => ?_
  simp [filled, List.getD_eq_getElem?_getD, hi']

structure Added (s : Skb) (bs : List UInt8) (r : Done) : Prop where
  ret : ¬ r.ret < 0
  body : Body r.skb bs
  length : r.skb.be16 18 = bs.length % 65536
  header : ∀ i < 18, r.skb.mem i = s.mem i
  accesses : ∀ x ∈ r.accesses, x.Inside

theorem add_spec {e : Order} {stack : ℕ → UInt8} (h : Body s bs) (hlen : s.be16 18 = bs.length)
    (hsize : word e (filled stack cs 2) (filled stack cs 3) + 4 = cs.length)
    (hroom : cs.length ≤ s.tailroom) (hfit : cs.length ≤ 40) :
    Added s (cs ++ bs) (addPppoeTag e s (filled stack cs)) := by
  have hinside := h.inside
  have hput : (s.put cs.length).be16 18 = bs.length := hlen
  have hmove : (s.put cs.length).move (20 + cs.length) 20 bs.length =
      (s.put cs.length).store (20 + cs.length) bs := by
    rw [Skb.move, show (s.put cs.length).mem = s.mem from rfl, h.holds.read]
  have hshape : addPppoeTag e s (filled stack cs) =
      ⟨(setLength ((s.put cs.length).store (20 + cs.length) bs)
          (bs.length + cs.length)).store 20 cs, cs.length,
        [tagBufAccess 2 2, (s.put cs.length).access 20 bs.length,
          (s.put cs.length).access (20 + cs.length) bs.length, (s.put cs.length).access 18 2,
          tagBufAccess 0 cs.length, (s.put cs.length).access 20 cs.length]⟩ := by
    rw [addPppoeTag, hsize, if_neg (Nat.not_lt.mpr hroom)]
    dsimp only
    rw [hput, filled_range, hmove]
  have hmoved : ByteMemory.Holds (setLength ((s.put cs.length).store (20 + cs.length) bs)
      (bs.length + cs.length)).mem (20 + cs.length) bs :=
    (holds_write _ (20 + cs.length) bs).write_before (by simp)
  rw [hshape]
  refine ⟨Int.not_lt.mpr (Int.natCast_nonneg _), ⟨?_, ?_⟩, ?_, fun i hi => ?_, ?_⟩
  · exact (holds_write _ 20 cs).append (hmoved.write_before (Nat.le_refl _))
  · simp only [Skb.store, setLength, Skb.put, List.length_append]
    omega
  · rw [List.length_append, Nat.add_comm cs.length]
    exact (be16_store_above _ _ (by decide)).trans (be16_setLength _ _)
  · have htag : i < 20 := by omega
    have hmove : i < 20 + cs.length := by omega
    exact (store_below _ _ htag).trans ((setLength_below _ _ hi).trans (store_below _ _ hmove))
  · have htag {a n : ℕ} (hle : a + n ≤ 40) : (tagBufAccess a n).Inside := .inr ⟨Nat.zero_le _, hle⟩
    have hframe {a n : ℕ} (hle : a + n ≤ s.len + cs.length) :
        ((s.put cs.length).access a n).Inside := access_inside hle
    simp only [List.forall_mem_cons]
    exact ⟨htag (by decide), hframe (by omega), hframe (by omega), hframe (by omega),
      htag (by omega), hframe (by omega), fun x hx => absurd hx List.not_mem_nil⟩

def relayTag (mac old : List UInt8) : Tag := ⟨0x01, 0x10, [0x81, 0x86] ++ mac ++ old⟩

section Relay

variable {mac old : List UInt8} {stack : ℕ → UInt8} {pre post : List Tag}

theorem relayTag_data (hmac : mac.length = 6) : (relayTag mac old).data.length = 8 + old.length := by
  simp only [relayTag, List.length_append, hmac]
  rfl

theorem relayBytes_eq (hmac : mac.length = 6) : relayBytes mac old = (relayTag mac old).bytes := by
  rw [Tag.bytes, relayTag_data hmac]
  simp [relayBytes, relayTag]

theorem relaySize (hold : old.length ≤ 28) (e : Order) :
    word e (filled stack (relayBytes mac old) 2) (filled stack (relayBytes mac old) 3) =
      word e 0 (low (8 + old.length)) := by
  have hhigh : high (8 + old.length) = 0 := by
    refine UInt8.toNat_inj.mp ?_
    rw [toNat_high]
    change _ = 0
    omega
  rw [← hhigh]
  rfl

theorem tagBuf_inside (h : a + n ≤ 40) : (tagBufAccess a n).Inside := .inr ⟨Nat.zero_le _, h⟩

structure Relayed (s : Skb) (old bs : List UInt8) (r : Done) : Prop where
  ret : r.ret = 0
  body : Body r.skb ((relayTag (read s.mem 6 6) old).bytes ++ bs)
  length : r.skb.be16 18 = (12 + old.length + bs.length) % 65536
  header : ∀ i < 18, r.skb.mem i = s.mem i
  accesses : ∀ x ∈ r.accesses, x.Inside

theorem relay_spec (h : Body s bs) (hlen : s.be16 18 = bs.length) (hold : old.length ≤ 28)
    (hroom : 12 + old.length ≤ s.tailroom) : Relayed s old bs (addRelay .big stack s old) := by
  have hinside := h.inside
  have hmac := length_read s.mem 6 6
  have hsize : (relayBytes (read s.mem 6 6) old).length = 12 + old.length := by
    rw [relayBytes_eq hmac, Tag.length_bytes, relayTag_data hmac]
    omega
  have hword := @relaySize (read s.mem 6 6) old stack hold .big
  have hlow : word .big 0 (low (8 + old.length)) = 8 + old.length := by
    simp only [word, toNat_low]
    change 256 * 0 + _ = _
    omega
  have hadd := @add_spec s bs (relayBytes (read s.mem 6 6) old) .big stack h hlen
    (by rw [hword, hlow, hsize]; omega) (by omega) (by omega)
  have hlength := hadd.length
  rw [List.length_append, hsize] at hlength
  refine ⟨if_neg hadd.ret, ?_, hlength, hadd.header, ?_⟩
  · rw [← relayBytes_eq hmac]
    exact hadd.body
  · simp only [addRelay, List.cons_append, List.nil_append, List.forall_mem_cons]
    exact ⟨tagBuf_inside (by decide), access_inside (by omega), hadd.accesses⟩

def NoRelay (ts : List Tag) : Prop := ∀ t ∈ ts, t.isRelay = false

def oldRelay (ts : List Tag) : Option Tag := ts.find? Tag.isRelay

def others (ts : List Tag) : List Tag := ts.filter fun t => !t.isRelay

def oldData (ts : List Tag) : List UInt8 := ((oldRelay ts).map Tag.data).getD []

def removed (ts : List Tag) : ℕ := ((oldRelay ts).map fun t => t.bytes.length).getD 0

structure Inserted (s : Skb) (ts : List Tag) (r : Done) : Prop where
  ret : r.ret = 0
  frame : TagFrame r.skb (relayTag (read s.mem 6 6) (oldData ts) :: others ts)
  header : ∀ i < 18, r.skb.mem i = s.mem i
  accesses : ∀ x ∈ r.accesses, x.Inside

inductive Relays : List Tag → Prop
  | absent {ts : List Tag} : NoRelay ts → Relays ts
  | one {pre post : List Tag} {t : Tag} :
    NoRelay pre → t.isRelay = true → NoRelay post → Relays (pre ++ t :: post)

theorem others_absent (h : NoRelay ts) : others ts = ts :=
  List.filter_eq_self.mpr fun t ht => by rw [h t ht]; rfl

theorem oldRelay_absent (h : NoRelay ts) : oldRelay ts = none :=
  List.find?_eq_none.mpr fun t ht => by rw [h t ht]; exact Bool.false_ne_true

theorem others_one (hpre : NoRelay pre) (ht : t.isRelay = true) (hpost : NoRelay post) :
    others (pre ++ t :: post) = pre ++ post := by
  rw [others, List.filter_append, List.filter_cons_of_neg (by simp [ht])]
  exact congrArg₂ _ (others_absent hpre) (others_absent hpost)

theorem oldRelay_one (hpre : NoRelay pre) (ht : t.isRelay = true) :
    oldRelay (pre ++ t :: post) = some t := by
  rw [oldRelay, List.find?_append, List.find?_cons_of_pos ht]
  rw [show pre.find? Tag.isRelay = none from oldRelay_absent hpre]
  rfl

theorem data_at (h : TagFrame s (pre ++ t :: post)) :
    read s.mem (24 + (encode pre).length) t.data.length = t.data := by
  have hdata : ByteMemory.Holds s.mem (20 + (encode pre).length + 4) t.data :=
    (h.at_tag.left.drop (n := 4) (by simp))
  rw [Nat.add_right_comm] at hdata
  exact hdata.read

theorem removed_one (hpre : NoRelay pre) (ht : t.isRelay = true) :
    removed (pre ++ t :: post) = 4 + t.data.length := by
  rw [removed, oldRelay_one hpre ht, Nat.add_comm]
  exact t.length_bytes

theorem oldData_one (hpre : NoRelay pre) (ht : t.isRelay = true) :
    oldData (pre ++ t :: post) = t.data := by
  rw [oldData, oldRelay_one hpre ht]
  rfl

theorem Relayed.frame {r : Done} (h : Relayed s old (encode us) r)
    (hfit : 12 + old.length + (encode us).length < 65536) :
    TagFrame r.skb (relayTag (read s.mem 6 6) old :: us) := by
  have hsize : (encode (relayTag (read s.mem 6 6) old :: us)).length =
      12 + old.length + (encode us).length := by
    rw [encode_cons, List.length_append, Tag.length_bytes, relayTag_data (length_read ..)]
    omega
  refine ⟨?_, h.body.holds, h.body.inside⟩
  rw [h.length, hsize, Nat.mod_eq_of_lt hfit]

theorem insert_absent (h : TagFrame s ts) (hno : NoRelay ts) (hroom : 12 ≤ s.tailroom)
    (hfit : 12 + (encode ts).length < 65536) : Inserted s ts (insertRelayTag .big stack s) := by
  have hfind : findPppoeTag s = none := @find_from s [] ts h hno
  have hrelay := @relay_spec s _ [] stack h.body h.length (by decide) hroom
  have hframe := hrelay.frame (by simpa using hfit)
  have hshape : insertRelayTag .big stack s =
      { addRelay .big stack s [] with
        accesses := findAccesses s ++ (addRelay .big stack s []).accesses } := by
    rw [insertRelayTag, hfind]
  have hdata : oldData ts = [] := by
    rw [oldData, oldRelay_absent hno]
    rfl
  rw [hshape]
  refine ⟨hrelay.ret, ?_, hrelay.header, ?_⟩
  · rw [hdata, others_absent hno]
    exact hframe
  · rw [List.forall_mem_append]
    exact ⟨findAccesses_inside h, hrelay.accesses⟩

theorem insert_one (h : TagFrame s (pre ++ t :: post)) (hpre : NoRelay pre)
    (ht : t.isRelay = true) (hpost : NoRelay post) (hold : t.data.length ≤ 28)
    (hroom : 8 ≤ s.tailroom)
    (hfit : 12 + t.data.length + (encode (pre ++ post)).length < 65536) :
    Inserted s (pre ++ t :: post) (insertRelayTag .big stack s) := by
  have hfind : findPppoeTag s = some (encode pre).length := @find_relay_from s t pre [] post h hpre ht
  have hlen := h.tagLen_eq
  have hdata := data_at h
  have hbody := h.body
  rw [encode_append, encode_cons] at hbody
  have hcut := cut_spec hbody
  rw [Tag.length_bytes, Nat.add_comm t.data.length] at hcut
  have hinside := h.inside
  have hlong := h.length
  have hlt := h.length_lt
  simp only [encode_append, encode_cons, List.length_append, Tag.length_bytes]
    at hinside hlong hlt hfit
  have hshort := hcut.shortened (by rw [hlong, List.length_append]; omega)
  generalize hr : skbPullAndMerge s (20 + (encode pre).length) (4 + t.data.length) = r at hcut hshort
  generalize hcutEq : setLength r.skb (s.be16 18 + 65536 - (4 + t.data.length)) = cut at hshort
  have hmac : read cut.mem 6 6 = read s.mem 6 6 :=
    read_congr fun i _ hi => hshort.header i (by omega)
  have hrelay := @relay_spec cut _ _ stack hshort.body hshort.length hold
    (by rw [hshort.tailroom]; omega)
  rw [← encode_append] at hrelay
  have hframe := hrelay.frame (by simp only [encode_append, List.length_append]; omega)
  have hshape : insertRelayTag .big stack s =
      { addRelay .big stack cut t.data with
        accesses := findAccesses s ++
          [s.access (22 + (encode pre).length) 2,
            s.access (24 + (encode pre).length) t.data.length,
            tagBufAccess 12 t.data.length] ++
          r.accesses ++ [cut.access 18 2] ++ (addRelay .big stack cut t.data).accesses } := by
    rw [insertRelayTag, hfind]
    dsimp only
    rw [hlen, if_neg (by omega), hr, hdata, if_neg (by rw [hcut.ret]; decide), hcutEq]
  rw [hshape]
  refine ⟨hrelay.ret, ?_, fun i hi => (hrelay.header i hi).trans (hshort.header i hi), ?_⟩
  · rw [oldData_one hpre ht, others_one hpre ht hpost, ← hmac]
    exact hframe
  · simp only [List.forall_mem_append, List.forall_mem_cons]
    exact ⟨⟨⟨⟨findAccesses_inside h, access_inside (by omega), access_inside (by omega),
      tagBuf_inside (by omega), by simp⟩, hcut.accesses⟩,
      access_inside (by have hsize := hshort.body.inside; omega), by simp⟩, hrelay.accesses⟩

def restoredTag (old : List UInt8) : List Tag := if old = [] then [] else [⟨0x01, 0x10, old⟩]

structure Restored (u : Skb) (mac : List UInt8) (ts : List Tag) (r : Done) : Prop where
  ret : r.ret = 0
  dest : read r.skb.mem 0 6 = mac
  frame : TagFrame r.skb ts
  header : ∀ i, 6 ≤ i → i < 18 → r.skb.mem i = u.mem i
  accesses : ∀ x ∈ r.accesses, x.Inside

variable {u : Skb} {A B : List Tag}

theorem relayTag_bytes (hmac : mac.length = 6) : (relayTag mac old).bytes =
    [0x01, 0x10] ++ (unword .big (8 + old.length) ++ (([0x81, 0x86] ++ mac) ++ old)) := by
  rw [Tag.bytes, relayTag_data hmac]
  simp [relayTag, unword]

theorem magic_at (h : TagFrame u (A ++ relayTag mac old :: B)) :
    u.be16 (24 + (encode A).length) = 0x8186 := by
  have hdata : ByteMemory.Holds u.mem (20 + (encode A).length + 4) ([0x81, 0x86] ++ mac ++ old) :=
    h.at_tag.left.drop (n := 4) (by simp)
  rw [Nat.add_right_comm] at hdata
  exact be16_holds hdata

theorem mac_at (h : TagFrame u (A ++ relayTag mac old :: B)) (hmac : mac.length = 6) :
    read u.mem (26 + (encode A).length) 6 = mac := by
  have hdata : ByteMemory.Holds u.mem (20 + (encode A).length + 4) ([0x81, 0x86] ++ mac ++ old) :=
    h.at_tag.left.drop (n := 4) (by simp)
  have hread := hdata.left.right.read
  rw [hmac] at hread
  rw [← hread]
  exact congrArg (read u.mem · 6) (by simp only [List.length_cons, List.length_nil]; omega)

theorem store_dest (h : TagFrame u ts) (hmac : mac.length = 6) : TagFrame (u.store 0 mac) ts := by
  refine ⟨?_, ?_, h.inside⟩
  · rw [be16_store_below _ _ (by omega)]
    exact h.length
  · have htags : ByteMemory.Holds (write u.mem 0 mac) 20 (encode ts) := h.tags.write_before (by omega)
    exact htags

theorem store_dest_header (hmac : mac.length = 6) {i : ℕ} (hi : 6 ≤ i) :
    (u.store 0 mac).mem i = u.mem i := by
  have hsame : write u.mem 0 mac i = u.mem i := write_above u.mem (by omega)
  exact hsame

theorem store_dest_read (hmac : mac.length = 6) {m : Mem UInt8}
    (h : ∀ i < 18, m i = (u.store 0 mac).mem i) : read m 0 6 = mac := by
  have hdest : ByteMemory.Holds (u.store 0 mac).mem 0 mac := holds_write u.mem 0 mac
  exact (read_congr fun i _ hi => h i (by omega)).trans (hdest.read_eq hmac.symm)

theorem lookup_at (h : TagFrame u (A ++ relayTag mac old :: B)) (hA : NoRelay A)
    (hmac : mac.length = 6) {offset : ℕ} (hoffset : (if 8 < 8 + old.length then 4 else 0) = offset)
    {r : Done} (hr : skbPullAndMerge (u.store 0 mac) (20 + (encode A).length + offset)
      (12 - offset) = r) (hret : r.ret = 0) {cut : Skb}
    (hcut : setLength r.skb (u.be16 18 + 65536 - (12 - offset)) = cut) :
    lookupRelayTag u =
      let taken := findAccesses u ++ [u.access (20 + (encode A).length) 4] ++
        [u.access (24 + (encode A).length) 2, u.access (26 + (encode A).length) 6, u.access 0 6]
      if 0 < offset then
        ⟨cut.store (22 + (encode A).length) (unword .big old.length), 0,
          taken ++ r.accesses ++ [cut.access 18 2, cut.access (22 + (encode A).length) 2]⟩
      else ⟨cut, 0, taken ++ r.accesses ++ [cut.access 18 2]⟩ := by
  have hfind : findPppoeTag u = some (encode A).length :=
    @find_relay_from u _ A [] B h hA rfl
  have hlen := h.tagLen_eq
  rw [relayTag_data hmac] at hlen
  have htype : u.be16 (20 + (encode A).length) = 0x0110 := h.type_eq
  rw [lookupRelayTag, hfind]
  dsimp only
  rw [hlen, htype, if_neg (by omega), magic_at h, if_neg (by omega), mac_at h hmac, hoffset, hr,
    if_neg (by rw [hret]; decide), hcut, Nat.add_sub_cancel_left]

theorem lookup_accesses (h : TagFrame u (A ++ relayTag mac old :: B)) (hmac : mac.length = 6) :
    ∀ x ∈ findAccesses u ++ [u.access (20 + (encode A).length) 4] ++
      [u.access (24 + (encode A).length) 2, u.access (26 + (encode A).length) 6, u.access 0 6],
      x.Inside := by
  have hinside := h.inside
  simp only [encode_append, encode_cons, List.length_append, Tag.length_bytes,
    relayTag_data hmac] at hinside
  simp only [List.forall_mem_append, List.forall_mem_cons]
  exact ⟨⟨findAccesses_inside h, access_inside (by omega), by simp⟩, access_inside (by omega),
    access_inside (by omega), access_inside (by omega), by simp⟩

theorem lookup_whole (h : TagFrame u (A ++ relayTag mac [] :: B)) (hA : NoRelay A)
    (hmac : mac.length = 6) : Restored u mac (A ++ B) (lookupRelayTag u) := by
  have hdest := store_dest h hmac
  have hbody := hdest.body
  have hlen := hdest.length
  have hsize : (relayTag mac []).bytes.length = 12 := by
    rw [Tag.length_bytes, relayTag_data hmac]
    rfl
  rw [encode_append, encode_cons] at hbody hlen
  rw [List.length_append, List.length_append, hsize] at hlen
  have hcut := cut_spec hbody
  rw [hsize] at hcut
  have hshort := hcut.shortened (by rw [hlen, List.length_append]; omega)
  rw [be16_store_below _ _ (by omega), ← encode_append] at hshort
  have hinside := hshort.body.inside
  have hoffset : (if 8 < 8 + ([] : List UInt8).length then 4 else 0) = 0 := rfl
  rw [lookup_at h hA hmac hoffset rfl hcut.ret rfl]
  refine ⟨rfl, store_dest_read hmac hshort.header,
    ⟨hshort.length, hshort.body.holds, hshort.body.inside⟩,
    fun i hi hi' => (hshort.header i hi').trans (store_dest_header hmac hi), ?_⟩
  dsimp only
  rw [if_neg (Nat.lt_irrefl 0), List.forall_mem_append, List.forall_mem_append,
    List.forall_mem_singleton]
  refine ⟨⟨lookup_accesses h hmac, hcut.accesses⟩, access_inside ?_⟩
  exact Nat.le_trans (Nat.le_add_right _ _) hinside

theorem encode_given (A B : List Tag) (old : List UInt8) :
    encode (A ++ ⟨0x01, 0x10, old⟩ :: B) =
      (encode A ++ [0x01, 0x10]) ++ (unword .big old.length ++ (old ++ encode B)) := by
  rw [encode_append, encode_cons]
  simp only [Tag.bytes, unword, List.append_assoc, List.cons_append, List.nil_append]

theorem store_length {ws : List UInt8} (hws : ws.length = 2)
    (hbody : Body s ((encode A ++ [0x01, 0x10]) ++ (ws ++ (old ++ encode B))))
    (hlen : s.be16 18 = ((encode A ++ [0x01, 0x10]) ++ (ws ++ (old ++ encode B))).length) :
    TagFrame (s.store (22 + (encode A).length) (unword .big old.length))
      (A ++ ⟨0x01, 0x10, old⟩ :: B) := by
  have hplace : 20 + (encode A ++ [0x01, 0x10]).length = 22 + (encode A).length := by
    simp only [List.length_append, List.length_cons, List.length_nil]
    omega
  have hover := hbody.holds.write_over (e := unword .big old.length) (by rw [length_unword, hws])
  have hsame : ((encode A ++ [0x01, 0x10]) ++ (ws ++ (old ++ encode B))).length =
      (encode (A ++ ⟨0x01, 0x10, old⟩ :: B)).length := by
    rw [encode_given]
    simp only [List.length_append, length_unword, hws]
  rw [hplace, ← encode_given] at hover
  refine ⟨?_, hover, ?_⟩
  · rw [be16_store_above _ _ (by omega), hlen, hsame]
  · rw [← hsame]
    exact hbody.inside

theorem lookup_part (h : TagFrame u (A ++ relayTag mac old :: B)) (hA : NoRelay A)
    (hmac : mac.length = 6) (hold : old ≠ []) :
    Restored u mac (A ++ ⟨0x01, 0x10, old⟩ :: B) (lookupRelayTag u) := by
  have hdest := store_dest h hmac
  have hbody := hdest.body
  have hlen := hdest.length
  have hpos : 0 < old.length := List.length_pos_iff.mpr hold
  have hmagic : ([0x81, 0x86] ++ mac).length = 8 := by simp [hmac]
  have hsplit : encode (A ++ relayTag mac old :: B) =
      (encode A ++ ([0x01, 0x10] ++ unword .big (8 + old.length))) ++
        (([0x81, 0x86] ++ mac) ++ (old ++ encode B)) := by
    rw [encode_append, encode_cons, relayTag_bytes hmac]
    simp only [List.append_assoc]
  have hat : 20 + (encode A ++ ([0x01, 0x10] ++ unword .big (8 + old.length))).length =
      20 + (encode A).length + 4 := by
    simp only [List.length_append, length_unword, List.length_cons, List.length_nil]
    omega
  rw [hsplit] at hbody hlen
  have hcut := cut_spec hbody
  rw [hmagic, hat] at hcut
  have hshort := hcut.shortened (by
    rw [hlen]
    simp only [List.length_append] at hmagic ⊢
    omega)
  rw [be16_store_below _ _ (by omega)] at hshort
  generalize hr : skbPullAndMerge (u.store 0 mac) (20 + (encode A).length + 4) 8 = r at hcut hshort
  generalize hcutEq : setLength r.skb (u.be16 18 + 65536 - 8) = cut at hshort
  have hoffset : (if 8 < 8 + old.length then 4 else 0) = 4 := if_pos (by omega)
  have hregroup : (encode A ++ ([0x01, 0x10] ++ unword .big (8 + old.length))) ++
      (old ++ encode B) =
        (encode A ++ [0x01, 0x10]) ++ (unword .big (8 + old.length) ++ (old ++ encode B)) := by
    simp only [List.append_assoc]
  rw [hregroup] at hshort
  have hinside := hshort.body.inside
  simp only [List.length_append, List.length_cons, List.length_nil, length_unword] at hinside
  have hbelow {i : ℕ} (hi : i < 18) :
      (cut.store (22 + (encode A).length) (unword .big old.length)).mem i =
        (u.store 0 mac).mem i :=
    (store_below _ _ (by omega)).trans (hshort.header i hi)
  rw [lookup_at h hA hmac hoffset hr hcut.ret hcutEq]
  dsimp only
  rw [if_pos (by decide)]
  refine ⟨rfl, store_dest_read hmac fun i hi => hbelow hi,
    store_length (length_unword _ _) hshort.body hshort.length,
    fun i hi hi' => (hbelow hi').trans (store_dest_header hmac hi), ?_⟩
  rw [List.forall_mem_append, List.forall_mem_append, List.forall_mem_cons,
    List.forall_mem_singleton]
  exact ⟨⟨lookup_accesses h hmac, hcut.accesses⟩, access_inside (by omega),
    access_inside (by omega)⟩

theorem lookup_spec (h : TagFrame u (A ++ relayTag mac old :: B)) (hA : NoRelay A)
    (hmac : mac.length = 6) :
    Restored u mac (A ++ (restoredTag old ++ B)) (lookupRelayTag u) := by
  cases Decidable.em (old = []) with
  | inl hold =>
    subst hold
    exact lookup_whole h hA hmac
  | inr hold =>
    rw [restoredTag, if_neg hold]
    exact lookup_part h hA hmac hold

theorem insert_spec (h : TagFrame s ts) (hrelays : Relays ts) (hsmall : (oldData ts).length ≤ 28)
    (hroom : 12 + (oldData ts).length ≤ s.tailroom + removed ts)
    (hfit : 12 + (oldData ts).length + (encode (others ts)).length < 65536) :
    Inserted s ts (insertRelayTag .big stack s) := by
  cases hrelays with
  | absent hno =>
    rw [removed, oldRelay_absent hno] at hroom
    rw [others_absent hno] at hfit
    exact insert_absent h hno (by simp at hroom; omega) (by omega)
  | one hpre ht hpost =>
    rw [oldData_one hpre ht] at hsmall hroom hfit
    rw [removed_one hpre ht] at hroom
    rw [others_one hpre ht hpost] at hfit
    exact insert_one h hpre ht hpost hsmall (by omega) hfit

theorem little_overruns (hold : old.length ≤ 28)
    (hret : (addRelay .little stack s old).ret = 0) :
    ∃ x ∈ (addRelay .little stack s old).accesses, ¬ x.Inside := by
  have hsize := @relaySize (read s.mem 6 6) old stack hold .little
  have hlow : word .little 0 (low (8 + old.length)) = 256 * (8 + old.length) := by
    simp only [word, toNat_low]
    change 0 + _ = _
    omega
  rw [hlow] at hsize
  cases Decidable.em (s.tailroom < 256 * (8 + old.length) + 4) with
  | inl hroom =>
    rw [addRelay, addPppoeTag, hsize, if_pos hroom] at hret
    cases hret
  | inr hroom =>
    refine ⟨tagBufAccess 0 (256 * (8 + old.length) + 4), ?_, ?_⟩
    · rw [addRelay, addPppoeTag, hsize, if_neg hroom]
      simp
    · rintro (hzero | ⟨_, hle⟩)
      · cases hzero
      · simp only [tagBufAccess] at hle
        omega

theorem insert_ends {e : Order} (hret : (insertRelayTag e stack s).ret = 0) :
    ∃ s' old, old.length ≤ 28 ∧ (addRelay e stack s' old).ret = 0 ∧
      ∀ x ∈ (addRelay e stack s' old).accesses, x ∈ (insertRelayTag e stack s).accesses := by
  cases hfind : findPppoeTag s with
  | none =>
    rw [insertRelayTag, hfind] at hret ⊢
    exact ⟨s, [], by decide, hret, fun x hx => List.mem_append_right _ hx⟩
  | some i =>
    rw [insertRelayTag, hfind] at hret ⊢
    dsimp only at hret ⊢
    split at hret
    · cases hret
    · next hlong =>
      rw [if_neg hlong]
      split at hret
      · cases hret
      · next hcut =>
        rw [if_neg hcut]
        exact ⟨_, _, by rw [length_read]; omega, hret, fun x hx => List.mem_append_right _ hx⟩

theorem little_never : ¬ Inserted s ts (insertRelayTag .little stack s) := by
  intro h
  obtain ⟨s', old, hold, hret, hsub⟩ := insert_ends h.ret
  obtain ⟨x, hx, houtside⟩ := little_overruns hold hret
  exact houtside (h.accesses x (hsub x hx))

structure Request (p : Discovery) (s : Skb) (ts : List Tag) : Prop where
  tagging : p.addPPPoETag = true
  code : isRequest (s.mem 15) = true
  frame : TagFrame s ts
  relays : Relays ts
  small : (oldData ts).length ≤ 28
  room : 12 + (oldData ts).length ≤ s.tailroom + removed ts

structure Echo (mac old : List UInt8) (p : Discovery) (u : Skb) (A B : List Tag) : Prop where
  tagging : p.addPPPoETag = true
  code : isOffer (u.mem 15) = true
  frame : TagFrame u (A ++ relayTag mac old :: B)
  others : NoRelay A

structure RoundTrip (e : Order) (stack : ℕ → UInt8) (p : Discovery) (s : Skb) (ts : List Tag) :
    Prop where
  inserted : Inserted s ts (insertDiscovery e stack p s).done
  restored : ∀ q u A B, Echo (read s.mem 6 6) (oldData ts) q u A B →
    Restored u (read s.mem 6 6) (A ++ ((oldRelay ts).toList ++ B)) (lookupDiscovery q u).done

theorem insertDiscovery_request {p : Discovery} (h : Request p s ts) (e : Order) :
    (insertDiscovery e stack p s).done = insertRelayTag e stack s := by
  rw [insertDiscovery, if_pos h.code, if_pos h.tagging]

theorem lookupDiscovery_echo {q : Discovery} (h : Echo mac old q u A B) :
    (lookupDiscovery q u).done = lookupRelayTag u := by
  rw [lookupDiscovery, if_pos h.code, if_pos h.tagging]

def echoed (t : Tag) : Skb where
  mem := write (write (write (fun _ => 0) 15 [0x07]) 18 (unword .big t.bytes.length)) 20 t.bytes
  len := 20 + t.bytes.length
  tailroom := 0

theorem echoed_frame (ht : t.bytes.length < 65536) : TagFrame (echoed t) [t] := by
  have hone : encode [t] = t.bytes := by simp
  refine ⟨?_, ?_, ?_⟩
  · have hlen : ByteMemory.Holds (echoed t).mem 18 (unword .big t.bytes.length) :=
      (holds_write _ 18 _).write_after (by simp)
    rw [be16_holds hlen, word_bytes, hone, Nat.mod_eq_of_lt ht]
  · rw [hone]
    exact holds_write _ 20 _
  · rw [hone]
    exact Nat.le_refl _

theorem echoed_code (t : Tag) : (echoed t).mem 15 = 0x07 := by
  rw [echoed]
  dsimp only
  rw [write_below _ _ (by decide), write_below _ _ (by decide)]
  rfl

theorem oldRelay_eq (h : oldRelay ts = some t) : t = ⟨0x01, 0x10, oldData ts⟩ := by
  have hrelay : t.isRelay = true := List.find?_some h
  rw [Tag.isRelay, Bool.and_eq_true, beq_iff_eq, beq_iff_eq] at hrelay
  rw [oldData, h, ← hrelay.1, ← hrelay.2]
  rfl

theorem toList_restored (h : ∀ t, oldRelay ts = some t → t.data ≠ []) :
    (oldRelay ts).toList = restoredTag (oldData ts) := by
  cases hrelay : oldRelay ts with
  | none =>
    rw [oldData, hrelay]
    rfl
  | some t =>
    have ht := oldRelay_eq hrelay
    have hdata : t.data = oldData ts := by rw [ht]
    rw [restoredTag, if_neg (hdata ▸ h t hrelay), ← ht]
    rfl

theorem restored_unique {r : Done} (h : Restored u mac ts r) (h' : Restored u mac us r) :
    (encode ts).length = (encode us).length :=
  h.frame.length.symm.trans h'.frame.length

theorem relay_law {e : Order} {p : Discovery} (h : Request p s ts) :
    RoundTrip e stack p s ts ↔
      e = .big ∧ (∀ t, oldRelay ts = some t → t.data ≠ []) ∧
        12 + (oldData ts).length + (encode (others ts)).length < 65536 := by
  have hmac := length_read s.mem 6 6
  constructor
  · rintro ⟨hinserted, hrestored⟩
    rw [insertDiscovery_request h] at hinserted
    refine ⟨?_, fun t ht hempty => ?_, ?_⟩
    · cases e with
      | big => rfl
      | little => exact absurd hinserted little_never
    · have hold : oldData ts = [] := by
        rw [oldData, ht]
        exact hempty
      have hsmall : (relayTag (read s.mem 6 6) (oldData ts)).bytes.length < 65536 := by
        rw [Tag.length_bytes, relayTag_data hmac, hold]
        decide
      have hecho : Echo (read s.mem 6 6) (oldData ts) p
          (echoed (relayTag (read s.mem 6 6) (oldData ts))) [] [] :=
        ⟨h.tagging, by rw [echoed_code]; rfl, echoed_frame hsmall, by simp [NoRelay]⟩
      have hgiven := hrestored _ _ _ _ hecho
      have hdone := lookup_spec hecho.frame hecho.others hmac
      rw [lookupDiscovery_echo hecho, ht] at hgiven
      have hsize := restored_unique hgiven hdone
      rw [restoredTag, if_pos hold] at hsize
      simp at hsize
    · have hlt := hinserted.frame.length_lt
      rw [encode_cons, List.length_append, Tag.length_bytes, relayTag_data hmac] at hlt
      omega
  · rintro ⟨rfl, hkept, hfit⟩
    refine ⟨?_, fun q u A B hecho => ?_⟩
    · rw [insertDiscovery_request h]
      exact insert_spec h.frame h.relays h.small h.room hfit
    · rw [lookupDiscovery_echo hecho, toList_restored hkept]
      exact lookup_spec hecho.frame hecho.others hmac

end Relay

def tagging : Discovery := ⟨true, 0, Vector.replicate 6 0⟩

def serviceName : Tag := ⟨0x01, 0x01, []⟩

def padi : Skb where
  mem i := ([0xff, 0xff, 0xff, 0xff, 0xff, 0xff, 0x02, 0, 0, 0, 0, 0x05, 0x88, 0x63, 0x11, 0x09, 0, 0,
    0, 4, 0x01, 0x01, 0, 0] : List UInt8).getD i 0
  len := 60
  tailroom := 2100

theorem padi_request : Request tagging padi [serviceName] := by
  refine ⟨rfl, rfl, ⟨by decide, fun i hi => ?_, by decide⟩, .absent (by simp [NoRelay]; rfl),
    by decide, by decide⟩
  change i < 4 at hi
  match i, hi with
  | 0, _ => rfl
  | 1, _ => rfl
  | 2, _ => rfl
  | 3, _ => rfl

theorem relay_law_padi : RoundTrip .big (fun _ => 0) tagging padi [serviceName] := by
  refine (relay_law padi_request).mpr ⟨rfl, fun t ht => ?_, by decide⟩
  have hnone : oldRelay [serviceName] = none := rfl
  rw [hnone] at ht
  cases ht

theorem padi_tag_misread :
    Request tagging padi [serviceName] ∧
      ¬ RoundTrip .little (fun _ => 0) tagging padi [serviceName] := by
  refine ⟨padi_request, fun h => ?_⟩
  have hinserted := h.inserted
  rw [insertDiscovery_request padi_request] at hinserted
  exact little_never hinserted

end Pppoe

end Bridge
