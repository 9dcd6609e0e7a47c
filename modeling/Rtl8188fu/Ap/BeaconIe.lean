import Rtl8188fu.Ap.TimIe
import Rtl8188fu.Ie.DeleteIe
import Rtl8188fu.Ie.UpdateIe
import Rtl8188fu.Lib.ElementEdit

namespace Ap

open ByteMemory Tlv
open Ie (Content FirstAt rtwGetIe rtwGetWpsIe u32Sub asInt maxIeSz)

def fixedIeLength : ℕ := 12

def ssidIe : UInt8 := 0
def supportedRatesIe : UInt8 := 1
def dsIe : UInt8 := 3

structure BeaconIes where
  mem : Mem UInt8
  ieLength : ℕ

namespace BeaconIes

variable (malloc : ℕ → Bool) (b : BeaconIes)

def ielen (p : ℕ) : ℕ := (b.mem (p + 1)).toNat

def getIe (index : UInt8) : Option ℕ :=
  rtwGetIe b.mem fixedIeLength index (asInt (u32Sub b.ieLength fixedIeLength))

def remainder (p size : ℕ) : ℕ := u32Sub (u32Sub b.ieLength p) size

def splice (s : Splice UInt8) : BeaconIes where
  mem := s.apply (decide (0 < s.len) && malloc s.len) b.mem
  ieLength := (s.dst + s.adv + s.len) % 2 ^ 32

def headElem (index : UInt8) : ℕ :=
  match b.getIe index with
  | none => 0
  | some p => b.ielen p + 2

def headLen : ℕ := fixedIeLength + b.headElem ssidIe + b.headElem supportedRatesIe + 3

def timSplice (bmp : TimBmp) (dst src len : ℕ) : Splice UInt8 where
  dst := dst
  new := timIe 0 1 bmp.bytes
  adv := (rtwSetTimIe b.mem 0 1 bmp.bytes dst).ret.toNat
  src := src
  len := len

def updateBcntim (bmp : TimBmp) : BeaconIes :=
  match (b.getIe eidTim).filter fun p => 0 < b.ielen p with
  | some p =>
    let timIelen := b.ielen p + 2
    b.splice malloc (b.timSplice bmp p (p + timIelen) (b.remainder p timIelen))
  | none => b.splice malloc (b.timSplice bmp b.headLen b.headLen (b.remainder b.headLen 0))

def addScan (index : UInt8) : ℕ → ℕ → Option ℕ → Option ℕ × Bool
  | 0, _, p => (p, false)
  | fuel + 1, i, p =>
    if i < b.ieLength then
      if index < b.mem i then (p, false)
      else if b.mem i = index then (some i, true)
      else addScan index fuel (i + (b.ielen i + 2)) (some i)
    else (p, false)

def rtwAddBcnIe (index : UInt8) (data : Content) : BeaconIes :=
  let (p, bmatch) := b.addScan index b.ieLength fixedIeLength none
  match p.filter fun p => 0 < b.ielen p with
  | none => b
  | some p =>
    let ielen := b.ielen p + 2
    b.splice malloc
      { dst := if bmatch then p else p + ielen
        new := (data.element index).bytes
        adv := data.bytes.length + 2
        src := p + ielen
        len := b.remainder p ielen }

def rtwRemoveBcnIe (index : UInt8) : BeaconIes :=
  match (b.getIe index).filter fun p => 0 < b.ielen p with
  | none => b
  | some p =>
    let ielen := b.ielen p + 2
    b.splice malloc ⟨p, [], 0, p + ielen, b.remainder p ielen⟩

def updateBcnWpsIe (wpsBeaconIe : Option Element) : BeaconIes :=
  match (rtwGetWpsIe b.mem fixedIeLength (asInt (u32Sub b.ieLength fixedIeLength))).result,
    wpsBeaconIe with
  | some cnt, some src =>
    let pwpsIe := fixedIeLength + cnt
    let wpsIelen := b.ielen pwpsIe + 2
    let remainderIelen := b.remainder pwpsIe wpsIelen
    if pwpsIe + src.body.length + 2 + remainderIelen ≤ maxIeSz then
      b.splice malloc ⟨pwpsIe, src.bytes, src.body.length + 2, pwpsIe + wpsIelen, remainderIelen⟩
    else b
  | _, _ => b

structure Lists (b : BeaconIes) (fixed : List UInt8) (es : List Element) : Prop where
  fixedLength : fixed.length = fixedIeLength
  mem : Holds b.mem 0 (fixed ++ encode es)
  ieLength : b.ieLength = (fixed ++ encode es).length
  room : (fixed ++ encode es).length ≤ maxIeSz

end BeaconIes

structure Beacon where
  ies : BeaconIes
  fixed : List UInt8
  ssid : Element
  rates : Element
  ds : Element
  rest : List Element
  ssidId : ssid.id = ssidIe
  ratesId : rates.id = supportedRatesIe
  dsId : ds.id = dsIe
  lists : ies.Lists fixed (ssid :: rates :: ds :: rest)

def Beacon.head (b : Beacon) : List Element := [b.ssid, b.rates, b.ds]

def Beacon.elements (b : Beacon) : List Element := b.head ++ b.rest

inductive BeaconEdit where
  | bcntim (bmp : TimBmp)
  | add (index : UInt8) (data : Content)
  | remove (index : UInt8)
  | wps (wpsBeaconIe : Option Element)

def BeaconEdit.run (malloc : ℕ → Bool) (b : BeaconIes) : BeaconEdit → BeaconIes
  | .bcntim bmp => b.updateBcntim malloc bmp
  | .add index data => b.rtwAddBcnIe malloc index data
  | .remove index => b.rtwRemoveBcnIe malloc index
  | .wps wpsBeaconIe => b.updateBcnWpsIe malloc wpsBeaconIe

def hasId (index : UInt8) (t : Element) : Bool := decide (t.id = index)

def isWpsIe (t : Element) : Bool := decide (t.id = Ie.eidVendorSpecific ∧ Ie.wpsOui <+: t.body)

theorem length_timIe_short (bmp : TimBmp) : ((timIe 0 1 bmp.bytes).drop 2).length < 256 := by
  obtain ⟨lo, len, h⟩ := timSpan_law bmp
  have hwithin := h.within
  have hbound := bmp.bounded
  rw [List.length_drop, length_timIe h]
  omega

def timElement (bmp : TimBmp) : Element :=
  ⟨eidTim, (timIe 0 1 bmp.bytes).drop 2, length_timIe_short bmp⟩

def putElement (t : Element) (n : ℕ) (es : List Element) : List Element :=
  if es.any (hasId t.id) then substFirst (hasId t.id) [t] es else es.take n ++ t :: es.drop n

def BeaconEdit.result (es : List Element) : BeaconEdit → List Element
  | .bcntim bmp => putElement (timElement bmp) 3 es
  | .add index data =>
    putElement (data.element index) (es.takeWhile fun t => t.id < index).length es
  | .remove index => substFirst (hasId index) [] es
  | .wps none => es
  | .wps (some src) => substFirst isWpsIe [src] es

def Moved (malloc : ℕ → Bool) (m : Mem UInt8) (dst : ℕ) (post : List Element) : Prop :=
  malloc (encode post).length = true ∨ read m dst (encode post).length = encode post

structure Fits (malloc : ℕ → Bool) (m : Mem UInt8) (fixed : List UInt8)
    (pre news post : List Element) : Prop where
  room : (fixed ++ encode (pre ++ (news ++ post))).length ≤ maxIeSz
  moved : Moved malloc m (fixed ++ encode (pre ++ news)).length post

theorem moved_iff {malloc : ℕ → Bool} {m : Mem UInt8} {dst : ℕ} {post : List Element} :
    Moved malloc m dst post ↔
      (decide (0 < (encode post).length) && malloc (encode post).length) = true ∨
        read m dst (encode post).length = encode post := by
  rw [Moved, Bool.and_eq_true, decide_eq_true_iff]
  cases Nat.eq_zero_or_pos (encode post).length with
  | inl hzero =>
    have hnil : encode post = [] := List.length_eq_zero_iff.mp hzero
    rw [hnil]
    exact iff_of_true (.inr rfl) (.inr rfl)
  | inr hpos => rw [and_iff_right hpos]

namespace BeaconIes

variable {malloc : ℕ → Bool} {b b' : BeaconIes} {fixed : List UInt8}
  {es es' pre old news post : List Element} {t : Element} {index : UInt8} {s : Splice UInt8}
  {p size : ℕ}

theorem Lists.unique (h : b.Lists fixed es) (h' : b.Lists fixed es') : es = es' := by
  have hlen : (fixed ++ encode es).length = (fixed ++ encode es').length :=
    h.ieLength.symm.trans h'.ieLength
  have hbytes : fixed ++ encode es = fixed ++ encode es' := by
    rw [← h.mem.read, hlen, h'.mem.read]
  exact encode_injective (List.append_cancel_left_eq fixed _ _ |>.mp hbytes)

theorem Lists.iff_eq (h : b.Lists fixed es) : b.Lists fixed es' ↔ es' = es := by
  constructor
  · exact fun h' => h'.unique h
  · rintro rfl
    exact h

theorem Lists.small (h : b.Lists fixed es) : b.ieLength ≤ maxIeSz := h.ieLength ▸ h.room

theorem Lists.elementBytes (h : b.Lists fixed es) : Holds b.mem fixedIeLength (encode es) := by
  have hright := h.mem.right
  rwa [h.fixedLength, Nat.zero_add] at hright

theorem Lists.variableLength (h : b.Lists fixed es) :
    asInt (u32Sub b.ieLength fixedIeLength) = (encode es).length := by
  have hroom := h.room
  have hlen : b.ieLength = fixedIeLength + (encode es).length := by
    rw [h.ieLength, List.length_append, h.fixedLength]
  rw [List.length_append, h.fixedLength] at hroom
  rw [hlen, Ie.u32Sub_of_le (Nat.le_add_right _ _), Nat.add_sub_cancel_left, Ie.asInt_small]
  have hbound : maxIeSz < 2 ^ 31 := by decide
  omega

theorem Lists.getIe_absent (h : b.Lists fixed es) (hnone : ∀ t ∈ es, t.id ≠ index) :
    b.getIe index = none := by
  rw [getIe, h.variableLength]
  exact Ie.rtwGetIe_absent h.elementBytes hnone

theorem Lists.getIe_first (h : b.Lists fixed es) (hfirst : FirstAt index es pre t post) :
    b.getIe index = some (fixed ++ encode pre).length := by
  rw [getIe, h.variableLength, Ie.rtwGetIe_first h.elementBytes hfirst, List.length_append,
    h.fixedLength]

theorem Lists.ielen_at (h : b.Lists fixed (pre ++ t :: post)) :
    b.ielen (fixed ++ encode pre).length = t.body.length := by
  have hhere := holds_elements h.elementBytes
  rw [← h.fixedLength, ← List.length_append] at hhere
  exact holds_len hhere

theorem Lists.id_at (h : b.Lists fixed (pre ++ t :: post)) :
    b.mem (fixed ++ encode pre).length = t.id := by
  have hhere := holds_elements h.elementBytes
  rw [← h.fixedLength, ← List.length_append] at hhere
  exact holds_id hhere

theorem length_three (fixed : List UInt8) (pre old post : List Element) :
    (fixed ++ encode (pre ++ (old ++ post))).length =
      (fixed ++ encode pre).length + (encode old).length + (encode post).length := by
  simp only [encode_append, List.length_append, Nat.add_assoc]

theorem Lists.ends (h : b.Lists fixed (pre ++ t :: post)) :
    (fixed ++ encode pre).length + (t.body.length + 2) + (encode post).length = b.ieLength := by
  rw [h.ieLength, ← length_encode_one]
  exact (length_three fixed pre [t] post).symm

theorem Lists.remainder_eq (h : b.Lists fixed (pre ++ (old ++ post))) :
    b.remainder (fixed ++ encode pre).length (encode old).length = (encode post).length := by
  have hinner : u32Sub b.ieLength (fixed ++ encode pre).length =
      (encode old).length + (encode post).length := by
    rw [h.ieLength, length_three, Ie.u32Sub_of_le (by omega)]
    omega
  rw [remainder, hinner, Ie.u32Sub_of_le (Nat.le_add_right _ _), Nat.add_sub_cancel_left]

theorem splice_iff (h : b.Lists fixed (pre ++ (old ++ post)))
    (hdst : s.dst = (fixed ++ encode pre).length) (hnew : s.new = encode news)
    (hadv : s.adv = s.new.length) (hsrc : s.src = s.dst + (encode old).length)
    (hlen : s.len = (encode post).length) :
    (b.splice malloc s).Lists fixed (pre ++ (news ++ post)) ↔
      Fits malloc b.mem fixed pre news post := by
  have hend : s.dst + s.adv = (fixed ++ encode (pre ++ news)).length := by
    rw [hdst, hadv, hnew, encode_append, ← List.append_assoc, ← List.length_append]
  have hsize : s.dst + s.adv + s.len = (fixed ++ encode (pre ++ (news ++ post))).length := by
    rw [hend, hlen, ← List.append_assoc pre, encode_append (pre ++ news), ← List.append_assoc,
      ← List.length_append]
  have hlaid : s.laid (decide (0 < s.len) && malloc s.len) b.mem = encode post ↔
      Moved malloc b.mem (fixed ++ encode (pre ++ news)).length post := by
    rw [laid_iff h.mem (by rw [hsrc, hdst, Nat.zero_add]) hlen, moved_iff, hend, hlen]
  have hmem : Holds (b.splice malloc s).mem 0 (fixed ++ encode (pre ++ (news ++ post))) ↔
      Moved malloc b.mem (fixed ++ encode (pre ++ news)).length post :=
    (holds_splice_iff h.mem (hdst.trans (Nat.zero_add _).symm) hnew hadv hlen).trans hlaid
  constructor
  · exact fun h' => ⟨h'.room, hmem.mp h'.mem⟩
  · rintro ⟨hroom, hmoved⟩
    refine ⟨h.fixedLength, hmem.mpr hmoved, ?_, hroom⟩
    rw [splice, hsize, Nat.mod_eq_of_lt (Nat.lt_of_le_of_lt hroom (by decide))]

end BeaconIes

section Results

variable {es pre post : List Element} {t u : Element} {index : UInt8} {n : ℕ}

theorem hasId_iff : hasId index t = true ↔ t.id = index := decide_eq_true_iff

theorem hasId_false : hasId index t = false ↔ t.id ≠ index := decide_eq_false_iff_not

theorem substFirst_firstAt (h : FirstAt index es pre t post) (ts : List Element) :
    substFirst (hasId index) ts es = pre ++ (ts ++ post) := by
  obtain ⟨rfl, hbefore, hid⟩ := h
  exact substFirst_first (fun u hu => hasId_false.mpr (hbefore u hu)) (hasId_iff.mpr hid) ts post

theorem any_hasId_iff : es.any (hasId index) = true ↔ ∃ t ∈ es, t.id = index := by
  simp only [List.any_eq_true, hasId_iff]

theorem putElement_first (h : FirstAt u.id es pre t post) (n : ℕ) :
    putElement u n es = pre ++ u :: post := by
  have hany : es.any (hasId u.id) = true := by
    refine any_hasId_iff.mpr ⟨t, ?_, h.id⟩
    rw [h.split]
    exact List.mem_append_right _ List.mem_cons_self
  rw [putElement, if_pos hany, substFirst_firstAt h]
  rfl

theorem putElement_absent (h : ∀ t ∈ pre ++ post, t.id ≠ u.id) :
    putElement u pre.length (pre ++ post) = pre ++ u :: post := by
  have hnone : ¬ (pre ++ post).any (hasId u.id) = true := by
    rw [any_hasId_iff]
    rintro ⟨t, ht, hid⟩
    exact h t ht hid
  rw [putElement, if_neg hnone, List.take_left, List.drop_left]

theorem putElement_self_iff : putElement u n es = es ↔ es.find? (hasId u.id) = some u := by
  cases hany : es.any (hasId u.id) with
  | true =>
    rw [putElement, if_pos hany, substFirst_eq_iff]
    obtain ⟨t, ht, hid⟩ := List.any_eq_true.mp hany
    obtain ⟨v, hv⟩ := Option.isSome_iff_exists.mp (List.find?_isSome.mpr ⟨t, ht, hid⟩)
    rw [hv]
    simp only [Option.mem_some_iff, forall_eq', Option.some_inj]
  | false =>
    rw [putElement, hany, if_neg Bool.false_ne_true]
    refine iff_of_false (fun hsame => ?_) fun hfind => ?_
    · have hlen := congrArg List.length hsame
      rw [List.length_append, List.length_cons, List.length_take, List.length_drop] at hlen
      omega
    · refine Bool.false_ne_true (hany.symm.trans (List.any_eq_true.mpr ⟨u, ?_, ?_⟩))
      · exact List.mem_of_find?_eq_some hfind
      · exact List.find?_some hfind

end Results

def RemoveSound (malloc : ℕ → Bool) (m : Mem UInt8) (fixed : List UInt8) (es : List Element)
    (index : UInt8) : Prop :=
  ∀ pre t post, FirstAt index es pre t post → t.body ≠ [] ∧ Fits malloc m fixed pre [] post

inductive AddAt (index : UInt8) : List Element → List Element → List Element → List Element →
    Element → Prop
  | found {pre post t} (before : ∀ u ∈ pre, u.id < index) (id : t.id = index) :
    AddAt index (pre ++ t :: post) pre [t] post t
  | passed {pre post t} (before : ∀ u ∈ pre ++ [t], u.id < index)
    (after : ∀ u ∈ post.head?, index < u.id) :
    AddAt index (pre ++ t :: post) (pre ++ [t]) [] post t

def AddSound (malloc : ℕ → Bool) (m : Mem UInt8) (fixed : List UInt8) (es : List Element)
    (index : UInt8) (data : Content) : Prop :=
  ∀ pre old post anchor, AddAt index es pre old post anchor →
    (anchor.body = [] → es.find? (hasId index) = some (data.element index)) ∧
    (anchor.body ≠ [] → (old = [] → ∀ t ∈ post, t.id ≠ index) ∧
      Fits malloc m fixed pre [data.element index] post)

namespace BeaconIes

variable {malloc : ℕ → Bool} {b : BeaconIes} {fixed : List UInt8} {es pre old post : List Element}
  {t anchor : Element} {index : UInt8} {data : Content} {p : ℕ} {prev : Option ℕ} {bmatch : Bool}

theorem body_pos : 0 < t.body.length ↔ t.body ≠ [] := List.length_pos_iff

theorem rtwRemoveBcnIe_at (hget : b.getIe index = some p) :
    b.rtwRemoveBcnIe malloc index =
      if 0 < b.ielen p then
        b.splice malloc ⟨p, [], 0, p + (b.ielen p + 2), b.remainder p (b.ielen p + 2)⟩
      else b := by
  rw [rtwRemoveBcnIe, hget]
  cases Decidable.em (0 < b.ielen p) with
  | inl hpos => rw [Option.filter_some, decide_eq_true hpos, if_pos rfl, if_pos hpos]
  | inr hzero =>
    rw [Option.filter_some, decide_eq_false hzero, if_neg Bool.false_ne_true, if_neg hzero]

theorem rtwRemoveBcnIe_firstAt (h : b.Lists fixed es) (hfirst : FirstAt index es pre t post) :
    (b.rtwRemoveBcnIe malloc index).Lists fixed (substFirst (hasId index) [] es) ↔
      t.body ≠ [] ∧ Fits malloc b.mem fixed pre [] post := by
  have hsplit := hfirst.split
  have hget := h.getIe_first hfirst
  rw [substFirst_firstAt hfirst]
  subst hsplit
  rw [rtwRemoveBcnIe_at hget, h.ielen_at]
  cases Decidable.em (t.body = []) with
  | inl hempty =>
    rw [hempty, List.length_nil, if_neg (Nat.lt_irrefl 0), h.iff_eq]
    refine iff_of_false (fun hsame => ?_) fun hsound => hsound.1 rfl
    have hlen := congrArg List.length hsame
    simp only [List.length_append, List.length_cons, List.length_nil] at hlen
    omega
  | inr hbody =>
    rw [if_pos (body_pos.mpr hbody), and_iff_right hbody]
    have hsize : t.body.length + 2 = (encode [t]).length := (length_encode_one t).symm
    rw [hsize]
    exact splice_iff h rfl rfl rfl rfl h.remainder_eq

theorem remove_iff (h : b.Lists fixed es) :
    (b.rtwRemoveBcnIe malloc index).Lists fixed (substFirst (hasId index) [] es) ↔
      RemoveSound malloc b.mem fixed es index := by
  rcases Ie.exists_firstAt index es with hnone | ⟨pre, t, post, hfirst⟩
  · rw [substFirst_absent (fun u hu => hasId_false.mpr (hnone u hu)), rtwRemoveBcnIe,
      h.getIe_absent hnone]
    refine iff_of_true h fun pre t post hfirst => absurd hfirst.id (hnone t ?_)
    rw [hfirst.split]
    exact List.mem_append_right _ List.mem_cons_self
  · constructor
    · exact fun hlaw _ _ _ hfirst' => (rtwRemoveBcnIe_firstAt h hfirst').mp hlaw
    · exact fun hsound => (rtwRemoveBcnIe_firstAt h hfirst).mpr (hsound pre t post hfirst)

theorem addScan_below (h : b.Lists fixed (pre ++ t :: post)) (hlt : t.id < index) (k : ℕ)
    (prev : Option ℕ) :
    b.addScan index (k + 1) (fixed ++ encode pre).length prev =
      b.addScan index k (fixed ++ encode (pre ++ [t])).length (some (fixed ++ encode pre).length) := by
  have hinside : (fixed ++ encode pre).length < b.ieLength := by
    have hends := h.ends
    omega
  have hnext : (fixed ++ encode pre).length + (b.ielen (fixed ++ encode pre).length + 2) =
      (fixed ++ encode (pre ++ [t])).length := by
    rw [h.ielen_at, encode_append, ← List.append_assoc, ← length_encode_one, ← List.length_append]
  rw [addScan, if_pos hinside, h.id_at, if_neg (UInt8.not_lt.mpr (UInt8.le_of_lt hlt)),
    if_neg (UInt8.ne_of_lt hlt), hnext]

theorem addScan_past (h : b.Lists fixed (pre ++ t :: post))
    (hbefore : ∀ u ∈ pre ++ [t], u.id < index) (k : ℕ) :
    b.addScan index (pre.length + 1 + k) fixedIeLength none =
      b.addScan index k (fixed ++ encode (pre ++ [t])).length
        (some (fixed ++ encode pre).length) := by
  induction pre using List.reverseRecOn generalizing t post k with
  | nil =>
    rw [List.length_nil, Nat.zero_add, Nat.add_comm 1 k]
    have hfixed : fixedIeLength = (fixed ++ encode []).length := by
      rw [encode_nil, List.append_nil, h.fixedLength]
    rw [hfixed]
    exact addScan_below h (hbefore t List.mem_cons_self) k none
  | append_singleton pre u ih =>
    have hhere := hbefore t (List.mem_append_right _ List.mem_cons_self)
    have hrest : b.Lists fixed (pre ++ u :: (t :: post)) := by
      rwa [List.append_assoc] at h
    have hpast := ih hrest (fun v hv => hbefore v (List.mem_append_left _ hv)) (k + 1)
    rw [List.length_append, List.length_singleton, Nat.add_assoc, Nat.add_comm 1 k, hpast]
    exact addScan_below h hhere k _

theorem addScan_stop (h : b.Lists fixed (pre ++ post)) (hafter : ∀ u ∈ post.head?, index < u.id)
    (k : ℕ) (prev : Option ℕ) :
    b.addScan index k (fixed ++ encode pre).length prev = (prev, false) := by
  cases k with
  | zero => rfl
  | succ k =>
    cases post with
    | nil =>
      have hend : ¬ (fixed ++ encode pre).length < b.ieLength := by
        rw [h.ieLength, List.append_nil]
        exact Nat.lt_irrefl _
      rw [addScan, if_neg hend]
    | cons u post =>
      have hgt := hafter u rfl
      rw [addScan, h.id_at, if_pos hgt, ite_self]

theorem addScan_found (h : b.Lists fixed (pre ++ t :: post)) (hid : t.id = index) (k : ℕ)
    (prev : Option ℕ) :
    b.addScan index (k + 1) (fixed ++ encode pre).length prev =
      (some (fixed ++ encode pre).length, true) := by
  have hinside : (fixed ++ encode pre).length < b.ieLength := by
    have hends := h.ends
    omega
  rw [addScan, if_pos hinside, h.id_at, hid, if_neg (UInt8.lt_irrefl _), if_pos rfl]

theorem rtwAddBcnIe_at (hscan : b.addScan index b.ieLength fixedIeLength none = (some p, bmatch)) :
    b.rtwAddBcnIe malloc index data =
      if 0 < b.ielen p then
        b.splice malloc
          { dst := if bmatch then p else p + (b.ielen p + 2)
            new := (data.element index).bytes
            adv := data.bytes.length + 2
            src := p + (b.ielen p + 2)
            len := b.remainder p (b.ielen p + 2) }
      else b := by
  rw [rtwAddBcnIe, hscan]
  cases Decidable.em (0 < b.ielen p) with
  | inl hpos => simp only [Option.filter_some, decide_eq_true hpos, if_pos hpos, if_pos]
  | inr hzero =>
    simp only [Option.filter_some, decide_eq_false hzero, if_neg hzero, if_neg Bool.false_ne_true]

theorem length_le_encode (es : List Element) : es.length ≤ (encode es).length := by
  induction es with
  | nil => exact Nat.le_refl 0
  | cons t es ih =>
    rw [encode_cons, List.length_append, Element.length_bytes, List.length_cons]
    omega

theorem Lists.fuel (h : b.Lists fixed (pre ++ t :: post)) :
    ∃ k, b.ieLength = pre.length + 1 + (k + 1) := by
  have hends := h.ends
  have hle := length_le_encode pre
  rw [List.length_append] at hends
  exact ⟨b.ieLength - pre.length - 2, by omega⟩

theorem addScan_passed (h : b.Lists fixed (pre ++ t :: post))
    (hbefore : ∀ u ∈ pre ++ [t], u.id < index) (hafter : ∀ u ∈ post.head?, index < u.id) :
    b.addScan index b.ieLength fixedIeLength none = (some (fixed ++ encode pre).length, false) := by
  obtain ⟨k, hfuel⟩ := h.fuel
  have hrest : b.Lists fixed ((pre ++ [t]) ++ post) := by
    rwa [List.append_assoc]
  rw [hfuel, addScan_past h hbefore]
  exact addScan_stop hrest hafter _ _

theorem addScan_reached (h : b.Lists fixed (pre ++ t :: post)) (hbefore : ∀ u ∈ pre, u.id < index)
    (hid : t.id = index) :
    b.addScan index b.ieLength fixedIeLength none = (some (fixed ++ encode pre).length, true) := by
  rcases List.eq_nil_or_concat pre with rfl | ⟨front, u, rfl⟩
  · obtain ⟨k, hfuel⟩ := h.fuel
    have hfixed : fixedIeLength = (fixed ++ encode []).length := by
      rw [encode_nil, List.append_nil, h.fixedLength]
    rw [hfuel, hfixed]
    exact addScan_found h hid _ none
  · have hrest : b.Lists fixed (front ++ u :: (t :: post)) := by
      rwa [List.concat_eq_append, List.append_assoc] at h
    obtain ⟨k, hfuel⟩ := hrest.fuel
    rw [List.concat_eq_append] at hbefore h ⊢
    rw [hfuel, addScan_past hrest hbefore]
    exact addScan_found h hid k _

theorem add_found (h : b.Lists fixed (pre ++ t :: post)) (hbefore : ∀ u ∈ pre, u.id < index)
    (hid : t.id = index) (hbody : t.body ≠ []) (n : ℕ) :
    (b.rtwAddBcnIe malloc index data).Lists fixed
        (putElement (data.element index) n (pre ++ t :: post)) ↔
      Fits malloc b.mem fixed pre [data.element index] post := by
  have hfirst : FirstAt (data.element index).id (pre ++ t :: post) pre t post :=
    ⟨rfl, fun u hu => UInt8.ne_of_lt (hbefore u hu), hid⟩
  have hsize : t.body.length + 2 = (encode [t]).length := (length_encode_one t).symm
  rw [putElement_first hfirst, rtwAddBcnIe_at (addScan_reached h hbefore hid), h.ielen_at,
    if_pos (body_pos.mpr hbody), hsize]
  change Lists _ fixed (pre ++ ([data.element index] ++ post)) ↔ _
  exact splice_iff h rfl (encode_one _).symm rfl rfl h.remainder_eq

theorem add_passed (h : b.Lists fixed (pre ++ t :: post))
    (hbefore : ∀ u ∈ pre ++ [t], u.id < index) (hafter : ∀ u ∈ post.head?, index < u.id)
    (hbody : t.body ≠ []) :
    (b.rtwAddBcnIe malloc index data).Lists fixed
        (putElement (data.element index) (pre ++ [t]).length (pre ++ t :: post)) ↔
      (∀ u ∈ post, u.id ≠ index) ∧ Fits malloc b.mem fixed (pre ++ [t]) [data.element index] post := by
  have hrest : b.Lists fixed ((pre ++ [t]) ++ ([] ++ post)) := by
    rwa [List.append_assoc]
  have hend : (fixed ++ encode pre).length + (t.body.length + 2) =
      (fixed ++ encode (pre ++ [t])).length := by
    rw [encode_append, ← List.append_assoc, ← length_encode_one, ← List.length_append]
  have hremainder : b.remainder (fixed ++ encode pre).length (t.body.length + 2) =
      (encode post).length := by
    rw [← length_encode_one]
    exact h.remainder_eq
  rw [rtwAddBcnIe_at (addScan_passed h hbefore hafter), h.ielen_at, if_pos (body_pos.mpr hbody),
    if_neg Bool.false_ne_true, hend]
  cases Decidable.em (∀ u ∈ post, u.id ≠ index) with
  | inl hnone =>
    have habsent : ∀ u ∈ (pre ++ [t]) ++ post, u.id ≠ (data.element index).id := by
      intro u hu
      cases List.mem_append.mp hu with
      | inl hleft => exact UInt8.ne_of_lt (hbefore u hleft)
      | inr hright => exact hnone u hright
    have hput := putElement_absent habsent
    rw [List.append_assoc, List.singleton_append] at hput
    rw [hput, and_iff_right hnone]
    change Lists _ fixed ((pre ++ [t]) ++ ([data.element index] ++ post)) ↔ _
    exact splice_iff hrest rfl (encode_one _).symm rfl rfl hremainder
  | inr hlater =>
    refine iff_of_false (fun hlists => ?_) fun hsound => hlater hsound.1
    rcases Ie.exists_firstAt index (pre ++ t :: post) with hnone | ⟨front, u, back, hfirst⟩
    · exact hlater fun u hu => hnone u (List.mem_append_right _ (List.mem_cons_of_mem _ hu))
    · rw [putElement_first hfirst] at hlists
      have hgrown : ((fixed ++ encode (pre ++ [t])).length + (data.bytes.length + 2) +
          b.remainder (fixed ++ encode pre).length (t.body.length + 2)) % 2 ^ 32 =
          (fixed ++ encode (front ++ ([data.element index] ++ back))).length := hlists.ieLength
      have hsmall := h.small
      have hshort := data.short
      have hbound : maxIeSz = 768 := rfl
      have hends := h.ends
      rw [hfirst.split] at h
      have hends' := h.ends
      rw [hremainder, ← hend, length_three, length_encode_one] at hgrown
      have hadded : (data.element index).body.length = data.bytes.length := rfl
      rw [Nat.mod_eq_of_lt (by omega)] at hgrown
      omega

theorem add_nothing (h : b.Lists fixed es) (hzero : anchor.body = []) {front back : List Element}
    (hsplit : es = front ++ anchor :: back)
    (hscan : b.addScan index b.ieLength fixedIeLength none =
      (some (fixed ++ encode front).length, bmatch)) (n : ℕ) :
    (b.rtwAddBcnIe malloc index data).Lists fixed (putElement (data.element index) n es) ↔
      es.find? (hasId index) = some (data.element index) := by
  subst hsplit
  rw [rtwAddBcnIe_at hscan, h.ielen_at, hzero, List.length_nil, if_neg (Nat.lt_irrefl 0), h.iff_eq]
  exact putElement_self_iff

theorem takeWhile_below (hbefore : ∀ u ∈ pre ++ [t], u.id < index)
    (hafter : ∀ u ∈ post.head?, index < u.id) :
    ((pre ++ t :: post).takeWhile fun t => t.id < index) = pre ++ [t] := by
  have hsplit : pre ++ t :: post = (pre ++ [t]) ++ post := by
    rw [List.append_assoc, List.singleton_append]
  rw [hsplit, List.takeWhile_append_of_pos fun u hu => decide_eq_true (hbefore u hu)]
  cases post with
  | nil => rw [List.takeWhile_nil, List.append_nil]
  | cons u post =>
    have hgt := UInt8.lt_asymm (hafter u rfl)
    rw [List.takeWhile_cons_of_neg (by rwa [decide_eq_true_iff]), List.append_nil]

theorem add_at (h : b.Lists fixed es) (hat : AddAt index es pre old post anchor) :
    (b.rtwAddBcnIe malloc index data).Lists fixed
        (putElement (data.element index) (es.takeWhile fun t => t.id < index).length es) ↔
      (anchor.body = [] → es.find? (hasId index) = some (data.element index)) ∧
      (anchor.body ≠ [] → (old = [] → ∀ t ∈ post, t.id ≠ index) ∧
        Fits malloc b.mem fixed pre [data.element index] post) := by
  cases hat with
  | found hbefore hid =>
    cases Decidable.em (anchor.body = []) with
    | inl hzero =>
      rw [add_nothing h hzero rfl (addScan_reached h hbefore hid)]
      exact ⟨fun hfind => ⟨fun _ => hfind, absurd hzero⟩, fun hsound => hsound.1 hzero⟩
    | inr hbody =>
      rw [add_found h hbefore hid hbody]
      exact ⟨fun hfits => ⟨fun hzero => absurd hzero hbody, fun _ => ⟨nofun, hfits⟩⟩,
        fun hsound => (hsound.2 hbody).2⟩
  | passed hbefore hafter =>
    rw [takeWhile_below hbefore hafter]
    cases Decidable.em (anchor.body = []) with
    | inl hzero =>
      rw [add_nothing h hzero rfl (addScan_passed h hbefore hafter)]
      exact ⟨fun hfind => ⟨fun _ => hfind, absurd hzero⟩, fun hsound => hsound.1 hzero⟩
    | inr hbody =>
      rw [add_passed h hbefore hafter hbody]
      exact ⟨fun hsound => ⟨fun hzero => absurd hzero hbody, fun _ => ⟨fun _ => hsound.1, hsound.2⟩⟩,
        fun hsound => ⟨(hsound.2 hbody).1 rfl, (hsound.2 hbody).2⟩⟩

theorem exists_addAt (hhead : ∀ t ∈ es.head?, t.id ≤ index) (hne : es ≠ []) :
    ∃ pre old post anchor, AddAt index es pre old post anchor := by
  rcases split_first (fun t => decide (index ≤ t.id)) es with
    hbelow | ⟨pre, t, post, rfl, hbelow, hhere⟩
  · have hall : ∀ u ∈ es, u.id < index := fun u hu =>
      UInt8.not_le.mp (of_decide_eq_false (hbelow u hu))
    obtain ⟨pre, t, rfl⟩ := (List.eq_nil_or_concat es).resolve_left hne
    rw [List.concat_eq_append] at hall ⊢
    exact ⟨_, _, _, _, .passed hall nofun⟩
  · have hall : ∀ u ∈ pre, u.id < index := fun u hu =>
      UInt8.not_le.mp (of_decide_eq_false (hbelow u hu))
    have hle : index ≤ t.id := of_decide_eq_true hhere
    cases Decidable.em (t.id = index) with
    | inl hid => exact ⟨_, _, _, _, .found hall hid⟩
    | inr hne =>
      have hlt : index < t.id := UInt8.lt_of_le_of_ne hle (Ne.symm hne)
      rcases List.eq_nil_or_concat pre with rfl | ⟨front, u, rfl⟩
      · exact absurd (hhead t rfl) (UInt8.not_le.mpr hlt)
      · rw [List.concat_eq_append] at hall
        rw [List.concat_eq_append, List.append_assoc]
        refine ⟨_, _, _, _, .passed hall fun v hv => ?_⟩
        obtain rfl := Option.some_inj.mp hv
        exact hlt

theorem add_iff (h : b.Lists fixed es) (hhead : ∀ t ∈ es.head?, t.id ≤ index) (hne : es ≠ []) :
    (b.rtwAddBcnIe malloc index data).Lists fixed
        (putElement (data.element index) (es.takeWhile fun t => t.id < index).length es) ↔
      AddSound malloc b.mem fixed es index data := by
  obtain ⟨pre, old, post, anchor, hat⟩ := exists_addAt hhead hne
  constructor
  · exact fun hlaw _ _ _ _ hat' => (add_at h hat').mp hlaw
  · exact fun hsound => (add_at h hat).mpr (hsound pre old post anchor hat)

end BeaconIes

end Ap
