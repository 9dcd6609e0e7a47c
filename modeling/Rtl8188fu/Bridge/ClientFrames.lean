import Rtl8188fu.Bridge.FrameHandler
import Rtl8188fu.Lib.MemoryEffect

namespace Bridge

open ByteMemory

namespace Frames

def isTagged (m : Mem UInt8) : Bool := read m 12 2 = [0x81, 0x00]

def isIp (m : Mem UInt8) : Bool := read m 12 2 = [0x08, 0x00]

def isArp (m : Mem UInt8) : Bool := read m 12 2 = [0x08, 0x06]

def shiftUp (n : ℕ) (m : Mem UInt8) : Mem UInt8 :=
  (List.range n).foldl (fun m i => write m (14 - 2 * i) (read m (10 - 2 * i) 2)) m

def shiftDown (n : ℕ) (m : Mem UInt8) : Mem UInt8 :=
  (List.range n).foldl (fun m i => write m (2 * i) (read m (4 + 2 * i) 2)) m

def cutTag (s : Skb) : Skb := Skb.pull { s with mem := shiftUp 6 s.mem } 4

def restoreTag (head : Mem UInt8) (vlanHdr : List UInt8) (s : Skb) : Skb :=
  let s := s.push head 4
  { s with mem := write (write (shiftDown 6 s.mem) 12 [0x81, 0x00]) 14 vlanHdr }

abbrev VlanHdr := Option (List UInt8)

def cut (s : Skb) : VlanHdr × Skb :=
  if isTagged s.mem then (some (read s.mem 14 2), cutTag s) else (none, s)

def cutAgain (s : Skb) : VlanHdr → VlanHdr × Skb
  | none => (none, s)
  | some _ => (some (read s.mem 14 2), cutTag s)

def restore (head : Mem UInt8) (s : Skb) : VlanHdr → Skb
  | none => s
  | some vlanHdr => restoreTag head vlanHdr s

structure Fresh where
  mem : Mem UInt8
  tailroom : ℕ

def skbCopy (s : Skb) (f : Fresh) : Skb where
  mem i := if i < s.len then s.mem i else f.mem i
  len := s.len
  tailroom := f.tailroom

structure Buffers where
  copy : Option Fresh
  linearized : Bool

structure Sent where
  port : Port
  skb : Skb
  ret : ℤ
  inserted : Option ℤ

def shortcut (p : Port) (s : Skb) : Bool :=
  !Recv.isMcast (macAt s.mem 0) && p.br.brPort && macAt s.mem 6 != p.br.brMac &&
    !isTagged s.mem && isIp s.mem && p.br.scdbMac == macAt s.mem 6 && p.br.scdbEntry.isSome

def learnShortcut (h : Host) (p : Port) (s : Skb) : Port × Bool :=
  if isIp s.mem then
    let br := if macAt s.mem 6 = p.br.brMac then { p.br with brIp := ipAt s.mem 26 } else p.br
    let r := br.scdbHit h.kernel (ipSkb s)
    ({ p with br := r.1 }, r.2)
  else (p, false)

def leave (p : Port) (s : Skb) (inserted : Option ℤ) : Sent :=
  ⟨p, s, if macAt s.mem 6 = p.br.macAddr then 0 else -1, inserted⟩

def finish (h : Host) (p : Port) (head : Mem UInt8) (v : VlanHdr) (s : Skb)
    (inserted : Option ℤ) : Sent :=
  let s := s.store 6 p.br.macAddr.toList
  let s := { s with mem := Dhcp.dhcpFlagBcast h.order p.dhcpBcstDisable s.mem }
  leave p (restore head s v) inserted

def insertFrame (h : Host) (p : Port) (head : Mem UInt8) (v : VlanHdr) (s : Skb)
    (linearized : Bool) : Option Sent :=
  if linearized then
    (nat25DbHandle h p s .insert).map fun r =>
      if r.ret < 0 then ⟨r.port, r.skb, if r.ret = -2 then -1 else 0, some r.ret⟩
      else finish h r.port head v r.skb (some r.ret)
  else some ⟨p, s, -1, none⟩

def rtwBrClientTx (h : Host) (p : Port) (s : Skb) (b : Buffers) : Option Sent :=
  if shortcut p s then
    some (leave { p with br := p.br.stampScdbEntry } (s.store 6 p.br.macAddr.toList) none)
  else
    let (v, t) := cut s
    let (p, hit) := learnShortcut h p t
    if hit then some (finish h p s.mem v t none)
    else
      (nat25DbHandle h p t .check).bind fun c =>
        if c.ret = 0 then
          match b.copy with
          | none => some ⟨c.port, restore s.mem c.skb v, -1, none⟩
          | some f =>
            let n := skbCopy (restore s.mem c.skb v) f
            let (v, t) := cutAgain n v
            insertFrame h c.port n.mem v t b.linearized
        else insertFrame h c.port s.mem v c.skb b.linearized

def handleUntagged (h : Host) (p : Port) (s : Skb) : Option Result :=
  if !p.br.nat25Disable then
    if !p.br.nat25scDisable && isIp s.mem && p.br.scdbIp == ipAt s.mem 30 then
      some ⟨p, s.store 0 p.br.scdbMac.toList, 0⟩
    else nat25DbHandle h p s .lookup
  else if isIp s.mem && p.br.brIp == ipAt s.mem 30 || isArp s.mem && p.br.brIp == ipAt s.mem 38 then
    nat25DbHandle h p s .lookup
  else some ⟨p, s, 0⟩

def nat25HandleFrame (h : Host) (p : Port) (s : Skb) : Option Result :=
  if Recv.isMcast (macAt s.mem 0) then some ⟨p, s, 0⟩
  else
    let (v, t) := cut s
    (handleUntagged h p t).map fun r =>
      { r with skb := restore s.mem r.skb v, ret := if r.ret = -1 then -1 else 0 }

def untagged (s : Skb) : Skb :=
  if isTagged s.mem then
    { s with mem := fun i => if i < 12 then s.mem i else s.mem (i + 4), len := s.len - 4 }
  else s

def vlanTag (s : Skb) : List UInt8 := if isTagged s.mem then read s.mem 12 4 else []

variable {s : Skb} {m : Mem UInt8} {i n : ℕ}

theorem shiftUp_succ (n : ℕ) (m : Mem UInt8) :
    shiftUp (n + 1) m = write (shiftUp n m) (14 - 2 * n) (read (shiftUp n m) (10 - 2 * n) 2) := by
  rw [shiftUp, List.range_succ, List.foldl_append]
  rfl

theorem shiftDown_succ (n : ℕ) (m : Mem UInt8) :
    shiftDown (n + 1) m = write (shiftDown n m) (2 * n) (read (shiftDown n m) (4 + 2 * n) 2) := by
  rw [shiftDown, List.range_succ, List.foldl_append]
  rfl

theorem read_two (m : Mem UInt8) (a : ℕ) : read m a 2 = [m a, m (a + 1)] := rfl

theorem shiftUp_eq (hn : n ≤ 6) :
    shiftUp n m i = if 16 - 2 * n ≤ i ∧ i < 16 then m (i - 4) else m i := by
  induction n generalizing i with
  | zero => exact (if_neg (by omega)).symm
  | succ n ih =>
    have hlow := @ih (10 - 2 * n) (by omega)
    have hhigh := @ih (10 - 2 * n + 1) (by omega)
    rw [if_neg (by omega)] at hlow hhigh
    rw [shiftUp_succ, read_two, hlow, hhigh, write_pair, ih (by omega)]
    rcases Nat.lt_trichotomy i (14 - 2 * n) with hlt | rfl | hgt
    · rw [if_neg (by omega), if_neg (by omega), if_neg (by omega), if_neg (by omega)]
    · rw [if_pos rfl, if_pos (by omega)]
      exact congrArg m (by omega)
    · rw [if_neg (by omega)]
      cases Decidable.em (i = 14 - 2 * n + 1) with
      | inl heq =>
        rw [if_pos heq, if_pos (by omega)]
        exact congrArg m (by omega)
      | inr hne =>
        rw [if_neg hne]
        exact if_congr (by omega) rfl rfl

theorem shiftDown_eq (hn : n ≤ 6) : shiftDown n m i = if i < 2 * n then m (i + 4) else m i := by
  induction n generalizing i with
  | zero => exact (if_neg (Nat.not_lt_zero _)).symm
  | succ n ih =>
    have hlow := @ih (4 + 2 * n) (by omega)
    have hhigh := @ih (4 + 2 * n + 1) (by omega)
    rw [if_neg (by omega)] at hlow hhigh
    rw [shiftDown_succ, read_two, hlow, hhigh, write_pair, ih (by omega)]
    rcases Nat.lt_trichotomy i (2 * n) with hlt | rfl | hgt
    · rw [if_neg (by omega), if_neg (by omega), if_pos hlt, if_pos (by omega)]
    · rw [if_pos rfl, if_pos (by omega), Nat.add_comm]
    · rw [if_neg (by omega)]
      cases Decidable.em (i = 2 * n + 1) with
      | inl heq =>
        rw [if_pos heq, if_pos (by omega)]
        exact congrArg m (by omega)
      | inr hne =>
        rw [if_neg hne]
        exact if_congr (by omega) rfl rfl

theorem cutTag_mem (s : Skb) (i : ℕ) :
    (cutTag s).mem i = if i < 12 then s.mem i else s.mem (i + 4) := by
  have hshift := @shiftUp_eq s.mem (i + 4) 6 (Nat.le_refl _)
  refine hshift.trans ?_
  rw [Nat.add_sub_cancel]
  exact if_congr (by omega) rfl rfl

theorem cut_untagged (s : Skb) : (cut s).2 = untagged s := by
  rw [cut, untagged]
  cases isTagged s.mem with
  | false => rfl
  | true =>
    have hmem : (cutTag s).mem = fun i => if i < 12 then s.mem i else s.mem (i + 4) :=
      funext (cutTag_mem s)
    rw [if_pos rfl, if_pos rfl, ← hmem]
    rfl

theorem push_high (s : Skb) (head : Mem UInt8) (hi : n ≤ i) : (s.push head n).mem i = s.mem (i - n) :=
  if_neg (Nat.not_lt.mpr hi)

theorem restoreTag_low (head : Mem UInt8) (a b : UInt8) (s : Skb) (hi : i < 12) :
    (restoreTag head [a, b] s).mem i = s.mem i := by
  have hpush := @push_high (i + 4) 4 s head (by omega)
  rw [restoreTag]
  dsimp only
  rw [write_below _ _ (by omega), write_below _ _ hi, shiftDown_eq (Nat.le_refl _),
    if_pos (by omega), hpush, Nat.add_sub_cancel]

theorem restoreTag_high (head : Mem UInt8) (a b : UInt8) (s : Skb) (hi : 16 ≤ i) :
    (restoreTag head [a, b] s).mem i = s.mem (i - 4) := by
  have hpush := @push_high i 4 s head (by omega)
  rw [restoreTag]
  dsimp only
  rw [write_above _ (by simpa using hi), write_above _ (by simp; omega),
    shiftDown_eq (Nat.le_refl _), if_neg (by omega), hpush]

theorem restoreTag_tag (head : Mem UInt8) (a b : UInt8) (s : Skb) :
    read (restoreTag head [a, b] s).mem 12 4 = [0x81, 0x00, a, b] := by
  have htag : ByteMemory.Holds (restoreTag head [a, b] s).mem 12 ([0x81, 0x00] ++ [a, b]) :=
    (holds_write (shiftDown 6 (s.push head 4).mem) 12 [0x81, 0x00]).write_end rfl
  exact htag.read

theorem isTagged_iff : isTagged m = true ↔ read m 12 2 = [0x81, 0x00] := decide_eq_true_iff

theorem vlanTag_eq (h : isTagged s.mem = true) :
    vlanTag s = [0x81, 0x00] ++ read s.mem 14 2 := by
  rw [vlanTag, if_pos h, ← isTagged_iff.mp h]
  exact read_add s.mem 12 2 2

theorem restoreTag_isTagged (head : Mem UInt8) (a b : UInt8) (s : Skb) :
    isTagged (restoreTag head [a, b] s).mem = true := by
  have htag := restoreTag_tag head a b s
  rw [isTagged_iff]
  exact List.append_inj_left ((read_add _ 12 2 2).symm.trans htag) rfl

theorem restoreTag_vlanTag (head : Mem UInt8) (a b : UInt8) (s : Skb) :
    vlanTag (restoreTag head [a, b] s) = [0x81, 0x00, a, b] := by
  rw [vlanTag, if_pos (restoreTag_isTagged head a b s)]
  exact restoreTag_tag head a b s

theorem restoreTag_untagged (head : Mem UInt8) (a b : UInt8) (s : Skb) :
    untagged (restoreTag head [a, b] s) = s := by
  have hmem : (fun i => if i < 12 then (restoreTag head [a, b] s).mem i
      else (restoreTag head [a, b] s).mem (i + 4)) = s.mem := by
    funext i
    cases Decidable.em (i < 12) with
    | inl hlt =>
      rw [if_pos hlt]
      exact restoreTag_low head a b s hlt
    | inr hlt =>
      rw [if_neg hlt, restoreTag_high head a b s (by omega), Nat.add_sub_cancel]
  rw [untagged, if_pos (restoreTag_isTagged head a b s), hmem]
  rfl

theorem cut_tag (s : Skb) :
    (cut s).1 = if isTagged s.mem then some [s.mem 14, s.mem 15] else none := by
  rw [cut]
  cases isTagged s.mem with
  | false => rfl
  | true => rfl

theorem isTagged_congr {m' : Mem UInt8} (h : read m' 12 2 = read m 12 2) :
    isTagged m' = isTagged m := by
  rw [isTagged, isTagged, h]

theorem restore_untagged {u : Skb} (head : Mem UInt8)
    (h : read u.mem 12 2 = read (untagged s).mem 12 2) :
    untagged (restore head u (cut s).1) = u := by
  rw [cut_tag]
  cases htag : isTagged s.mem with
  | true =>
    rw [if_pos rfl]
    exact restoreTag_untagged head _ _ u
  | false =>
    have hsame : untagged s = s := by rw [untagged, if_neg (by rw [htag]; decide)]
    have hu : isTagged u.mem = false := by rw [isTagged_congr h, hsame, htag]
    rw [if_neg (by decide)]
    change untagged u = u
    rw [untagged, if_neg (by rw [hu]; decide)]

theorem restore_vlanTag {u : Skb} (head : Mem UInt8)
    (h : read u.mem 12 2 = read (untagged s).mem 12 2) :
    vlanTag (restore head u (cut s).1) = vlanTag s := by
  rw [cut_tag]
  cases htag : isTagged s.mem with
  | true =>
    rw [if_pos rfl, vlanTag_eq htag]
    exact restoreTag_vlanTag head _ _ u
  | false =>
    have hsame : untagged s = s := by rw [untagged, if_neg (by rw [htag]; decide)]
    have hu : isTagged u.mem = false := by rw [isTagged_congr h, hsame, htag]
    rw [if_neg (by decide)]
    change vlanTag u = vlanTag s
    rw [vlanTag, vlanTag, if_neg (by rw [hu]; decide), if_neg (by rw [htag]; decide)]

structure EthernetFrame (s : Skb) : Prop where
  header : 14 ≤ s.len
  tag : isTagged s.mem = true → 18 ≤ s.len

theorem restore_cut (h : EthernetFrame s) (head : Mem UInt8) :
    restore head (untagged s) (cut s).1 = s := by
  rw [cut_tag]
  cases htag : isTagged s.mem with
  | false =>
    rw [if_neg (by decide)]
    change untagged s = s
    rw [untagged, if_neg (by rw [htag]; decide)]
  | true =>
    have hlen := h.tag htag
    have hread := vlanTag_eq htag
    have hinner : untagged s =
        { s with mem := fun i => if i < 12 then s.mem i else s.mem (i + 4), len := s.len - 4 } := by
      rw [untagged, if_pos htag]
    have hmem : (restoreTag head [s.mem 14, s.mem 15] (untagged s)).mem = s.mem := by
      funext i
      cases Decidable.em (i < 12) with
      | inl hlow => rw [restoreTag_low _ _ _ _ hlow, hinner]; exact if_pos hlow
      | inr hlow =>
        cases Decidable.em (16 ≤ i) with
        | inl hhigh =>
          rw [restoreTag_high _ _ _ _ hhigh, hinner]
          refine (if_neg (by omega)).trans (congrArg s.mem (by omega))
        | inr hhigh =>
          rw [vlanTag, if_pos htag] at hread
          have htags := (restoreTag_tag head (s.mem 14) (s.mem 15) (untagged s)).trans hread.symm
          exact read_inj htags (by omega) (by omega)
    have hrestored : restoreTag head [s.mem 14, s.mem 15] (untagged s) =
        ⟨(restoreTag head [s.mem 14, s.mem 15] (untagged s)).mem, (untagged s).len + 4,
          (untagged s).tailroom⟩ := rfl
    rw [if_pos rfl]
    refine hrestored.trans ?_
    rw [hmem, hinner, Nat.sub_add_cancel (by omega)]

theorem cutAgain_copy (h : EthernetFrame s) (head : Mem UInt8) (f : Fresh) :
    cutAgain (skbCopy (restore head (untagged s) (cut s).1) f) (cut s).1 = cut (skbCopy s f) := by
  have htype : read (skbCopy s f).mem 12 2 = read s.mem 12 2 :=
    read_congr fun i _ hi => if_pos (Nat.lt_of_lt_of_le hi h.header)
  rw [restore_cut h, cut_tag, cut, isTagged_congr htype]
  cases isTagged s.mem with
  | false => rfl
  | true => rfl

end Frames

end Bridge
