import Rtl8188fu.Ap.BeaconIe

namespace Ap

open ByteMemory Tlv
open Ie (Content FirstAt rtwGetIe u32Sub asInt maxIeSz)

section Tim

variable {bmp : TimBmp} {m : Mem UInt8} {dst : ℕ}

theorem timElement_bytes (bmp : TimBmp) : (timElement bmp).bytes = timIe 0 1 bmp.bytes := by
  obtain ⟨lo, len, h⟩ := timSpan_law bmp
  have hwithin := h.within
  have hbound := bmp.bounded
  have hcount : UInt8.ofNat (timElement bmp).body.length = 2 + 1 + (timSpan bmp.bytes).bmpLen := by
    refine UInt8.toNat_inj.mp ?_
    have hthree : (2 + 1 : UInt8).toNat = 3 := rfl
    rw [(timElement bmp).toNat_length, UInt8.toNat_add, hthree, h.bmpLen, timElement,
      List.length_drop, length_timIe h, Nat.mod_eq_of_lt (by omega)]
    omega
  rw [Element.bytes, hcount]
  rfl

theorem advance_iff (bmp : TimBmp) (m : Mem UInt8) (dst : ℕ) :
    (rtwSetTimIe m 0 1 bmp.bytes dst).ret.toNat = (timElement bmp).bytes.length ↔
      ¬ FullSpan bmp.bytes := by
  obtain ⟨lo, len, h⟩ := timSpan_law bmp
  rw [timElement_bytes, returned_length h bmp.bounded]
  constructor
  · exact fun hlen hfull => hlen (hfull.span h).2
  · rintro hnot rfl
    exact hnot (fullSpan_of_span bmp.bounded h)

theorem advance_small (bmp : TimBmp) (m : Mem UInt8) (dst : ℕ) :
    (rtwSetTimIe m 0 1 bmp.bytes dst).ret.toNat + 2 ≠ (timElement bmp).bytes.length := by
  obtain ⟨lo, len, h⟩ := timSpan_law bmp
  have hwithin := h.within
  have hbound := bmp.bounded
  intro heq
  cases Classical.em (FullSpan bmp.bytes) with
  | inl hfull =>
    have hzero : (rtwSetTimIe m 0 1 bmp.bytes dst).ret.toNat = 0 := by
      change (2 + 2 + 1 + (timSpan bmp.bytes).bmpLen : UInt8).toNat = 0
      have hfive : (2 + 2 + 1 : UInt8).toNat = 5 := rfl
      rw [UInt8.toNat_add, h.bmpLen, hfive, (hfull.span h).2]
    rw [hzero, timElement_bytes, length_timIe h, (hfull.span h).2] at heq
    omega
  | inr hnot =>
    rw [(advance_iff bmp m dst).mpr hnot] at heq
    omega

theorem u32Sub_add {a c : ℕ} (ha : a < 2 ^ 32) (hc : c ≤ 2 ^ 32) : (c + u32Sub a c) % 2 ^ 32 = a := by
  rw [u32Sub]
  split <;> omega

end Tim

namespace BeaconIes

variable {malloc : ℕ → Bool} {b : BeaconIes} {fixed : List UInt8} {es pre old post : List Element}
  {t : Element} {bmp : TimBmp} {p : ℕ}

theorem updateBcntim_at (hget : b.getIe eidTim = some p) (hpos : 0 < b.ielen p) :
    b.updateBcntim malloc bmp = b.splice malloc
      (b.timSplice bmp p (p + (b.ielen p + 2)) (b.remainder p (b.ielen p + 2))) := by
  rw [updateBcntim, hget, Option.filter_some, decide_eq_true hpos, if_pos rfl]

theorem updateBcntim_head (hget : ∀ p ∈ b.getIe eidTim, b.ielen p = 0) :
    b.updateBcntim malloc bmp =
      b.splice malloc (b.timSplice bmp b.headLen b.headLen (b.remainder b.headLen 0)) := by
  have hnone : ((b.getIe eidTim).filter fun p => 0 < b.ielen p) = none := by
    refine Option.filter_eq_none_iff.mpr fun p hp => ?_
    rw [hget p hp]
    exact Bool.false_ne_true
  rw [updateBcntim, hnone]

theorem tim_found (h : b.Lists fixed es) (hfirst : FirstAt eidTim es pre t post)
    (hbody : t.body ≠ []) (n : ℕ) :
    (b.updateBcntim malloc bmp).Lists fixed (putElement (timElement bmp) n es) ↔
      ¬ FullSpan bmp.bytes ∧ Fits malloc b.mem fixed pre [timElement bmp] post := by
  have hget := h.getIe_first hfirst
  rw [putElement_first hfirst]
  obtain ⟨rfl, -, -⟩ := hfirst
  have hsize : t.body.length + 2 = (encode [t]).length := (length_encode_one t).symm
  rw [updateBcntim_at hget (by rw [h.ielen_at]; exact body_pos.mpr hbody), h.ielen_at, hsize]
  change Lists _ fixed (pre ++ ([timElement bmp] ++ post)) ↔ _
  have hnew : timIe 0 1 bmp.bytes = encode [timElement bmp] := by
    rw [encode_one, timElement_bytes]
  cases Classical.em (FullSpan bmp.bytes) with
  | inr hnot =>
    rw [and_iff_right hnot]
    refine splice_iff h rfl hnew ?_ rfl h.remainder_eq
    have hadvance := (advance_iff bmp b.mem (fixed ++ encode pre).length).mpr hnot
    rw [timElement_bytes] at hadvance
    exact hadvance
  | inl hfull =>
    refine iff_of_false (fun hlists => ?_) fun hsound => hsound.1 hfull
    refine (advance_iff bmp b.mem (fixed ++ encode pre).length).mp ?_ hfull
    have hlen : ((fixed ++ encode pre).length +
        (rtwSetTimIe b.mem 0 1 bmp.bytes (fixed ++ encode pre).length).ret.toNat +
        b.remainder (fixed ++ encode pre).length (encode [t]).length) % 2 ^ 32 =
        (fixed ++ encode (pre ++ ([timElement bmp] ++ post))).length := hlists.ieLength
    have hsmall := h.small
    have hends := h.ends
    have hbound : maxIeSz = 768 := rfl
    have hret := (rtwSetTimIe b.mem 0 1 bmp.bytes (fixed ++ encode pre).length).ret.toNat_lt
    rw [h.remainder_eq, length_three, length_encode_one, Nat.mod_eq_of_lt (by omega)] at hlen
    rw [Element.length_bytes]
    omega

theorem head_grows (hsmall : b.ieLength ≤ maxIeSz) (hhead : b.headLen ≤ maxIeSz + 3) :
    (b.splice malloc (b.timSplice bmp b.headLen b.headLen (b.remainder b.headLen 0))).ieLength =
      b.ieLength + (rtwSetTimIe b.mem 0 1 bmp.bytes b.headLen).ret.toNat := by
  have hbound : maxIeSz = 768 := rfl
  have hret := (rtwSetTimIe b.mem 0 1 bmp.bytes b.headLen).ret.toNat_lt
  have hrest := u32Sub_add (a := b.ieLength) (c := b.headLen) (by omega) (by omega)
  have hremainder : b.remainder b.headLen 0 = u32Sub b.ieLength b.headLen :=
    Ie.u32Sub_of_le (Nat.zero_le _)
  change (b.headLen + (rtwSetTimIe b.mem 0 1 bmp.bytes b.headLen).ret.toNat +
    b.remainder b.headLen 0) % 2 ^ 32 = _
  rw [hremainder]
  omega

end BeaconIes

namespace Beacon

variable {malloc : ℕ → Bool} {bmp : TimBmp} {pre post : List Element} {t : Element}

def front (b : Beacon) : List UInt8 := b.fixed ++ encode [b.ssid, b.rates]

def dsTail (b : Beacon) : List UInt8 := b.ds.bytes.drop 3

theorem length_front (b : Beacon) :
    b.front.length = fixedIeLength + (b.ssid.body.length + 2) + (b.rates.body.length + 2) := by
  rw [front, List.length_append, b.lists.fixedLength, encode_cons, encode_one, List.length_append,
    Element.length_bytes, Element.length_bytes, ← Nat.add_assoc]

theorem length_lists (b : Beacon) :
    b.ies.ieLength = b.front.length + (b.ds.body.length + 2) + (encode b.rest).length := by
  rw [front]
  exact (BeaconIes.Lists.ends b.lists).symm

theorem headLen_eq (b : Beacon) : b.ies.headLen = b.front.length + 3 := by
  have hssid : FirstAt ssidIe (b.ssid :: b.rates :: b.ds :: b.rest) [] b.ssid
      (b.rates :: b.ds :: b.rest) := ⟨rfl, nofun, b.ssidId⟩
  have hrates : FirstAt supportedRatesIe (b.ssid :: b.rates :: b.ds :: b.rest) [b.ssid] b.rates
      (b.ds :: b.rest) := by
    refine ⟨rfl, fun u hu => ?_, b.ratesId⟩
    rw [List.mem_singleton.mp hu, b.ssidId]
    decide
  have hssidLen : b.ies.ielen (b.fixed ++ encode []).length = b.ssid.body.length :=
    BeaconIes.Lists.ielen_at b.lists
  have hratesLen : b.ies.ielen (b.fixed ++ encode [b.ssid]).length = b.rates.body.length :=
    BeaconIes.Lists.ielen_at b.lists
  rw [BeaconIes.headLen, BeaconIes.headElem, BeaconIes.headElem, b.lists.getIe_first hssid,
    b.lists.getIe_first hrates, length_front]
  simp only [hssidLen, hratesLen]

theorem headLen_small (b : Beacon) : b.ies.headLen ≤ maxIeSz + 3 := by
  have hsmall := b.lists.small
  have hlen := b.length_lists
  rw [headLen_eq]
  omega

theorem tim_empty (b : Beacon) (hfirst : FirstAt eidTim b.elements pre t post) (hbody : t.body = [])
    (n : ℕ) :
    ¬ (b.ies.updateBcntim malloc bmp).Lists b.fixed (putElement (timElement bmp) n b.elements) := by
  intro hlists
  have hstored : b.ies.Lists b.fixed b.elements := b.lists
  have hget := hstored.getIe_first hfirst
  rw [putElement_first hfirst] at hlists
  rw [hfirst.split] at hstored
  have hzero : ∀ p ∈ b.ies.getIe eidTim, b.ies.ielen p = 0 := by
    intro p hp
    rw [hget] at hp
    rw [← Option.some_inj.mp hp, hstored.ielen_at, hbody, List.length_nil]
  have hlen := hlists.ieLength
  rw [BeaconIes.updateBcntim_head hzero, BeaconIes.head_grows b.lists.small b.headLen_small] at hlen
  have hends := hstored.ends
  have hends' := BeaconIes.length_three b.fixed pre [timElement bmp] post
  rw [List.singleton_append, length_encode_one] at hends'
  have hadvance := advance_small bmp b.ies.mem b.ies.headLen
  rw [Element.length_bytes] at hadvance
  rw [hends'] at hlen
  rw [hbody, List.length_nil] at hends
  omega

structure DsKept (malloc : ℕ → Bool) (b : Beacon) (tim : List UInt8) : Prop where
  nonempty : b.ds.body ≠ []
  order :
    let tail := b.dsTail ++ encode b.rest
    if malloc tail.length then tim ++ b.dsTail = b.dsTail ++ tim
    else tim ++ read b.ies.mem (b.front.length + 3 + tim.length) tail.length =
      b.dsTail ++ (tim ++ encode b.rest)

theorem ds_split (b : Beacon) (hds : b.ds.body ≠ []) :
    b.ds.bytes = b.ds.bytes.take 3 ++ b.dsTail ∧ (b.ds.bytes.take 3).length = 3 := by
  have hpos : 0 < b.ds.body.length := BeaconIes.body_pos.mpr hds
  refine ⟨(List.take_append_drop 3 b.ds.bytes).symm, List.length_take_of_le ?_⟩
  rw [Element.length_bytes]
  omega

theorem encode_head (b : Beacon) : encode b.head = encode [b.ssid, b.rates] ++ b.ds.bytes := by
  rw [head, ← encode_one b.ds, ← encode_append]
  rfl

theorem stored_split (b : Beacon) (hds : b.ds.body ≠ []) (news : List UInt8) :
    b.fixed ++ (encode b.head ++ (news ++ encode b.rest)) =
      b.front ++ b.ds.bytes.take 3 ++ (b.dsTail ++ (news ++ encode b.rest)) := by
  rw [encode_head, front]
  nth_rewrite 1 [(b.ds_split hds).1]
  simp only [List.append_assoc]

theorem headSplice_len (b : Beacon) (hds : b.ds.body ≠ []) :
    b.ies.remainder b.ies.headLen 0 = (b.dsTail ++ encode b.rest).length := by
  have hpos : 0 < b.ds.body.length := BeaconIes.body_pos.mpr hds
  have hinner : u32Sub b.ies.ieLength b.ies.headLen = (b.dsTail ++ encode b.rest).length := by
    rw [b.headLen_eq, b.length_lists, Ie.u32Sub_of_le (by omega), List.length_append, dsTail,
      List.length_drop, Element.length_bytes]
    omega
  rw [BeaconIes.remainder, hinner]
  exact Ie.u32Sub_of_le (Nat.zero_le _)

theorem order_iff (tim ds rest : List UInt8) :
    tim ++ (ds ++ rest) = ds ++ (tim ++ rest) ↔ tim ++ ds = ds ++ tim := by
  rw [← List.append_assoc, ← List.append_assoc, List.append_cancel_right_eq]

theorem tim_head_holds_iff (b : Beacon) (hds : b.ds.body ≠ []) (hspan : ¬ FullSpan bmp.bytes) :
    Holds (b.ies.splice malloc (b.ies.timSplice bmp b.ies.headLen b.ies.headLen
        (b.ies.remainder b.ies.headLen 0))).mem 0
      (b.fixed ++ encode (b.head ++ timElement bmp :: b.rest)) ↔
      DsKept malloc b (timElement bmp).bytes := by
  have hstored : Holds b.ies.mem 0
      (b.front ++ b.ds.bytes.take 3 ++ (b.dsTail ++ encode b.rest)) := by
    have hmem := b.lists.mem
    have hsplit := b.stored_split hds []
    rw [List.nil_append] at hsplit
    rw [← hsplit, ← encode_append]
    exact hmem
  have hdst : b.ies.headLen = (b.front ++ b.ds.bytes.take 3).length := by
    rw [b.headLen_eq, List.length_append, (b.ds_split hds).2]
  have hadv := (advance_iff bmp b.ies.mem b.ies.headLen).mpr hspan
  have htail : read b.ies.mem b.ies.headLen (b.dsTail ++ encode b.rest).length =
      b.dsTail ++ encode b.rest := by
    have hright := hstored.right
    rw [← hdst, Nat.zero_add] at hright
    exact hright.read
  have hnew : (timElement bmp).bytes = timIe 0 1 bmp.bytes := timElement_bytes bmp
  rw [encode_append, encode_cons, b.stored_split hds]
  refine (Splice.holds_apply_iff hstored.left (hdst.trans (Nat.zero_add _).symm)
    (hadv.trans (congrArg _ hnew)) ?_).trans ?_
  · change _ = (timIe 0 1 bmp.bytes).length + b.ies.remainder b.ies.headLen 0
    rw [b.headSplice_len hds, ← hnew]
    simp only [List.length_append]
    omega
  · have hkept : DsKept malloc b (timElement bmp).bytes ↔
        if malloc (b.dsTail ++ encode b.rest).length then
          (timElement bmp).bytes ++ b.dsTail = b.dsTail ++ (timElement bmp).bytes
        else (timElement bmp).bytes ++ read b.ies.mem
            (b.front.length + 3 + (timElement bmp).bytes.length)
            (b.dsTail ++ encode b.rest).length =
          b.dsTail ++ ((timElement bmp).bytes ++ encode b.rest) :=
      ⟨fun h => h.order, fun h => ⟨hds, h⟩⟩
    have hend : b.ies.headLen + (rtwSetTimIe b.ies.mem 0 1 bmp.bytes b.ies.headLen).ret.toNat =
        b.front.length + 3 + (timElement bmp).bytes.length := by
      rw [hadv, b.headLen_eq]
    change timIe 0 1 bmp.bytes ++ read b.ies.mem
      (if (decide (0 < b.ies.remainder b.ies.headLen 0) &&
        malloc (b.ies.remainder b.ies.headLen 0)) = true then b.ies.headLen
      else b.ies.headLen + (rtwSetTimIe b.ies.mem 0 1 bmp.bytes b.ies.headLen).ret.toNat)
      (b.ies.remainder b.ies.headLen 0) = _ ↔ _
    rw [b.headSplice_len hds, hkept, ← hnew, hend]
    cases hmalloc : malloc (b.dsTail ++ encode b.rest).length with
    | false =>
      rw [Bool.and_false, if_neg Bool.false_ne_true, if_neg Bool.false_ne_true]
    | true =>
      rw [Bool.and_true, if_pos rfl, ← order_iff _ _ (encode b.rest)]
      cases Nat.eq_zero_or_pos (b.dsTail ++ encode b.rest).length with
      | inl hzero =>
        have hnil := List.append_eq_nil_iff.mp (List.length_eq_zero_iff.mp hzero)
        rw [hnil.1, hnil.2]
        exact iff_of_true rfl rfl
      | inr hpos => rw [decide_eq_true hpos, if_pos rfl, htail]

theorem tim_head_empty (b : Beacon) (hds : b.ds.body = []) (hspan : ¬ FullSpan bmp.bytes) :
    ¬ Holds (b.ies.splice malloc (b.ies.timSplice bmp b.ies.headLen b.ies.headLen
        (b.ies.remainder b.ies.headLen 0))).mem 0
      (b.fixed ++ encode (b.head ++ timElement bmp :: b.rest)) := by
  intro h
  have hadv := (advance_iff bmp b.ies.mem b.ies.headLen).mpr hspan
  rw [timElement_bytes] at hadv
  have hcode : Holds (b.ies.splice malloc (b.ies.timSplice bmp b.ies.headLen b.ies.headLen
      (b.ies.remainder b.ies.headLen 0))).mem b.ies.headLen (timIe 0 1 bmp.bytes) :=
    Splice.holds_new hadv
  have hfront : (b.fixed ++ encode b.head).length = b.front.length + 2 := by
    rw [encode_head, ← List.append_assoc, List.length_append, Element.length_bytes, hds]
    rfl
  rw [encode_append, encode_cons, ← List.append_assoc] at h
  have hspec := h.right.left
  rw [Nat.zero_add, hfront, timElement_bytes] at hspec
  rw [b.headLen_eq] at hcode hspec
  have hsecond := (hspec 1 (by simp [timIe])).symm.trans (hcode 0 (by simp [timIe]))
  have hthird := (hspec 2 (by simp [timIe])).symm.trans (hcode 1 (by simp [timIe]))
  have hclash : (0 : UInt8) = eidTim := hthird.trans hsecond
  exact absurd hclash (by decide)

structure TimSound (b : Beacon) (malloc : ℕ → Bool) (bmp : TimBmp) : Prop where
  span : ¬ FullSpan bmp.bytes
  room : (b.fixed ++ encode (putElement (timElement bmp) 3 b.elements)).length ≤ maxIeSz
  found : ∀ pre t post, FirstAt eidTim b.elements pre t post →
    t.body ≠ [] ∧ Moved malloc b.ies.mem (b.fixed ++ encode (pre ++ [timElement bmp])).length post
  absent : (∀ t ∈ b.elements, t.id ≠ eidTim) → DsKept malloc b (timElement bmp).bytes

theorem tim_absent (b : Beacon) (hnone : ∀ t ∈ b.elements, t.id ≠ eidTim) :
    (b.ies.updateBcntim malloc bmp).Lists b.fixed (putElement (timElement bmp) 3 b.elements) ↔
      b.TimSound malloc bmp := by
  have hput : putElement (timElement bmp) 3 b.elements = b.head ++ timElement bmp :: b.rest :=
    putElement_absent hnone
  have hget : ∀ p ∈ b.ies.getIe eidTim, b.ies.ielen p = 0 := by
    have hstored : b.ies.Lists b.fixed b.elements := b.lists
    rw [hstored.getIe_absent hnone]
    exact fun p hp => absurd hp (Option.not_mem_none p)
  have hlen : (b.fixed ++ encode (b.head ++ timElement bmp :: b.rest)).length =
      b.ies.ieLength + (timElement bmp).bytes.length := by
    have hwith := BeaconIes.length_three b.fixed b.head [timElement bmp] b.rest
    have hwithout := BeaconIes.length_three b.fixed b.head [] b.rest
    have hstored : b.ies.ieLength = (b.fixed ++ encode (b.head ++ ([] ++ b.rest))).length :=
      b.lists.ieLength
    rw [hstored, hwithout, encode_nil, List.length_nil, Element.length_bytes,
      ← length_encode_one]
    rw [List.singleton_append] at hwith
    omega
  have hgrows : (b.ies.splice malloc (b.ies.timSplice bmp b.ies.headLen b.ies.headLen
      (b.ies.remainder b.ies.headLen 0))).ieLength =
        b.ies.ieLength + (rtwSetTimIe b.ies.mem 0 1 bmp.bytes b.ies.headLen).ret.toNat :=
    BeaconIes.head_grows b.lists.small b.headLen_small
  rw [hput, BeaconIes.updateBcntim_head hget]
  constructor
  · intro hlists
    have hadv := hgrows.symm.trans (hlists.ieLength.trans hlen)
    have hspan := (advance_iff bmp b.ies.mem b.ies.headLen).mp (Nat.add_left_cancel hadv)
    refine ⟨hspan, hput ▸ hlists.room, fun pre t post hfirst => ?_, fun _ => ?_⟩
    · refine absurd hfirst.id (hnone t ?_)
      rw [hfirst.split]
      exact List.mem_append_right _ List.mem_cons_self
    · cases Decidable.em (b.ds.body = []) with
      | inl hds => exact absurd hlists.mem (b.tim_head_empty hds hspan)
      | inr hds => exact (b.tim_head_holds_iff hds hspan).mp hlists.mem
  · intro h
    have hkept := h.absent hnone
    have hadv := (advance_iff bmp b.ies.mem b.ies.headLen).mpr h.span
    refine ⟨b.lists.fixedLength, ?_, ?_, hput ▸ h.room⟩
    · exact (b.tim_head_holds_iff hkept.nonempty h.span).mpr hkept
    · rw [hgrows, hadv, hlen]

theorem tim_iff (b : Beacon) :
    (b.ies.updateBcntim malloc bmp).Lists b.fixed (putElement (timElement bmp) 3 b.elements) ↔
      b.TimSound malloc bmp := by
  have hstored : b.ies.Lists b.fixed b.elements := b.lists
  rcases Ie.exists_firstAt eidTim b.elements with hnone | ⟨pre, t, post, hfirst⟩
  · exact b.tim_absent hnone
  · constructor
    · intro hlists
      have hbody {pre' post' : List Element} {t' : Element}
          (hfirst' : FirstAt eidTim b.elements pre' t' post') : t'.body ≠ [] :=
        fun hzero => b.tim_empty hfirst' hzero 3 hlists
      refine ⟨((BeaconIes.tim_found hstored hfirst (hbody hfirst) 3).mp hlists).1, hlists.room,
        fun pre' t' post' hfirst' => ?_, fun hnone => ?_⟩
      · have hfits := ((BeaconIes.tim_found hstored hfirst' (hbody hfirst') 3).mp hlists).2
        exact ⟨hbody hfirst', hfits.moved⟩
      · refine absurd hfirst.id (hnone t ?_)
        rw [hfirst.split]
        exact List.mem_append_right _ List.mem_cons_self
    · intro h
      obtain ⟨hbody, hmoved⟩ := h.found pre t post hfirst
      have hroom := h.room
      rw [putElement_first hfirst] at hroom
      exact (BeaconIes.tim_found hstored hfirst hbody 3).mpr ⟨h.span, hroom, hmoved⟩

end Beacon

def WpsSound (malloc : ℕ → Bool) (m : Mem UInt8) (fixed : List UInt8) (es : List Element) :
    Option Element → Prop
  | none => True
  | some src => ∀ pre t post, es = pre ++ t :: post → Ie.FirstLead Ie.wpsOui pre (t :: post) [] →
    (isWpsIe t = true → Fits malloc m fixed pre [src] post) ∧
    (isWpsIe t = false → (∀ u ∈ es.find? isWpsIe, u = src) ∧
      (src = t ∨ maxIeSz < (fixed ++ encode (pre ++ src :: post)).length))

section Wps

variable {malloc : ℕ → Bool} {b : BeaconIes} {fixed : List UInt8} {es pre post : List Element}
  {t src : Element}

theorem leads_wps (h : isWpsIe t = true) (post : List Element) :
    Ie.Leads Ie.wpsOui (encode (t :: post) ++ []) := by
  obtain ⟨hid, hbody⟩ := of_decide_eq_true h
  rw [List.append_nil, encode_cons, Ie.leads_bytes]
  exact ⟨hid, hbody.trans (List.prefix_append _ _)⟩

theorem plain_before (h : Ie.FirstLead Ie.wpsOui pre post []) : ∀ u ∈ pre, isWpsIe u = false := by
  intro u hu
  obtain ⟨front, back, rfl⟩ := List.append_of_mem hu
  refine Bool.eq_false_of_not_eq_true fun hwps => h.first front u back rfl ?_
  exact leads_wps hwps (back ++ post)

theorem BeaconIes.Lists.wps_search (h : b.Lists fixed es) :
    ((Ie.rtwGetWpsIe b.mem fixedIeLength (asInt (u32Sub b.ieLength fixedIeLength))).result = none ∧
      ∀ pre post, es = pre ++ post → ¬ Ie.Leads Ie.wpsOui (encode post ++ [])) ∨
    ∃ pre t post, es = pre ++ t :: post ∧ Ie.FirstLead Ie.wpsOui pre (t :: post) [] ∧
      (Ie.rtwGetWpsIe b.mem fixedIeLength (asInt (u32Sub b.ieLength fixedIeLength))).result =
        some (encode pre).length := by
  have hstuck : Stuck [] := fun t xs heq => absurd heq.symm (List.cons_ne_nil _ _)
  have hstored : Holds b.mem fixedIeLength (encode es ++ []) := by
    rw [List.append_nil]
    exact h.elementBytes
  have houi : Ie.wpsOui.length = 4 := rfl
  have hcases := Ie.vendorIe_cases houi (by decide) hstuck hstored
  rw [List.append_nil, ← h.variableLength] at hcases
  rcases hcases with ⟨hnone, hlate⟩ | ⟨pre, post, rfl, hfirst, -, hsome⟩
  · refine .inl ⟨hnone, fun pre post hsplit hleads => ?_⟩
    have hlong := Ie.leads_length rfl hleads
    have hcut := of_decide_eq_true (hlate pre post hsplit hleads)
    have hroom := h.room
    have hbound : Ie.maxIeSz = 768 := rfl
    have hfixed : fixedIeLength = 12 := rfl
    rw [List.append_nil] at hlong
    rw [List.length_append, hsplit, encode_append, List.length_append, h.fixedLength] at hroom
    omega
  · cases post with
    | nil => exact absurd (Ie.leads_length rfl hfirst.leads) (by decide)
    | cons t post => exact .inr ⟨pre, t, post, rfl, hfirst, hsome⟩

theorem updateBcnWpsIe_at (h : b.Lists fixed (pre ++ t :: post))
    (hfirst : Ie.FirstLead Ie.wpsOui pre (t :: post) []) (src : Element) :
    b.updateBcnWpsIe malloc (some src) =
      if (fixed ++ encode (pre ++ src :: post)).length ≤ maxIeSz then
        b.splice malloc ⟨(fixed ++ encode pre).length, src.bytes, src.body.length + 2,
          (fixed ++ encode pre).length + (encode [t]).length, (encode post).length⟩
      else b := by
  have hsearch : (Ie.rtwGetWpsIe b.mem fixedIeLength
      (asInt (u32Sub b.ieLength fixedIeLength))).result = some (encode pre).length := by
    rcases h.wps_search with ⟨-, hplain⟩ | ⟨pre', t', post', hsplit, hfirst', hsome⟩
    · exact absurd hfirst.leads (hplain pre (t :: post) rfl)
    · rw [hsome, (hfirst.unique hfirst' hsplit).1]
  have hpos : fixedIeLength + (encode pre).length = (fixed ++ encode pre).length := by
    rw [List.length_append, h.fixedLength]
  have hsize : b.ielen (fixed ++ encode pre).length + 2 = (encode [t]).length := by
    rw [h.ielen_at, length_encode_one]
  have hlen := BeaconIes.length_three fixed pre [src] post
  rw [List.singleton_append, length_encode_one] at hlen
  have hremainder : b.remainder (fixed ++ encode pre).length (encode [t]).length =
      (encode post).length := by
    rw [← List.singleton_append] at h
    exact h.remainder_eq
  simp only [BeaconIes.updateBcnWpsIe, hsearch, hpos, hsize, hremainder, hlen, Nat.add_assoc]

theorem wps_hit (h : b.Lists fixed (pre ++ t :: post))
    (hfirst : Ie.FirstLead Ie.wpsOui pre (t :: post) []) (hwps : isWpsIe t = true) :
    (b.updateBcnWpsIe malloc (some src)).Lists fixed
        (substFirst isWpsIe [src] (pre ++ t :: post)) ↔
      Fits malloc b.mem fixed pre [src] post := by
  rw [substFirst_first (plain_before hfirst) hwps, updateBcnWpsIe_at h hfirst]
  rw [← List.singleton_append] at h
  cases Nat.lt_or_ge maxIeSz (fixed ++ encode (pre ++ src :: post)).length with
  | inl hlarge =>
    refine iff_of_false (fun hlists => ?_) fun hfits => ?_
    · exact absurd hlists.room (Nat.not_le.mpr hlarge)
    · exact absurd hfits.room (Nat.not_le.mpr hlarge)
  | inr hroom =>
    rw [if_pos hroom]
    exact BeaconIes.splice_iff h rfl (encode_one src).symm rfl rfl rfl

theorem wps_rewritten (h : b.Lists fixed (pre ++ t :: post)) :
    (b.splice malloc ⟨(fixed ++ encode pre).length, t.bytes, t.body.length + 2,
      (fixed ++ encode pre).length + (encode [t]).length, (encode post).length⟩).Lists fixed
        (pre ++ t :: post) := by
  rw [← List.singleton_append] at h ⊢
  refine (BeaconIes.splice_iff h rfl (encode_one t).symm rfl rfl rfl).mpr ⟨h.room, .inr ?_⟩
  have hmem := h.mem
  rw [← List.append_assoc pre, encode_append (pre ++ [t]), ← List.append_assoc] at hmem
  have hright := hmem.right
  rw [Nat.zero_add] at hright
  exact hright.read

theorem wps_stray (h : b.Lists fixed (pre ++ t :: post))
    (hfirst : Ie.FirstLead Ie.wpsOui pre (t :: post) []) (hplain : isWpsIe t = false) :
    (b.updateBcnWpsIe malloc (some src)).Lists fixed
        (substFirst isWpsIe [src] (pre ++ t :: post)) ↔
      (∀ u ∈ (pre ++ t :: post).find? isWpsIe, u = src) ∧
        (src = t ∨ maxIeSz < (fixed ++ encode (pre ++ src :: post)).length) := by
  rw [updateBcnWpsIe_at h hfirst, ← substFirst_eq_iff]
  cases Nat.lt_or_ge maxIeSz (fixed ++ encode (pre ++ src :: post)).length with
  | inl hlarge =>
    rw [if_neg (Nat.not_le.mpr hlarge), h.iff_eq]
    exact ⟨fun hsame => ⟨hsame, .inr hlarge⟩, fun hsound => hsound.1⟩
  | inr hroom =>
    rw [if_pos hroom, or_iff_left (Nat.not_lt.mpr hroom)]
    constructor
    · intro hlists
      have hmem := hlists.mem
      rw [substFirst_past (plain_before hfirst), substFirst, hplain, if_neg Bool.false_ne_true,
        encode_append, encode_cons, ← List.append_assoc] at hmem
      have hkept := hmem.right
      rw [Nat.zero_add] at hkept
      have hput : Holds (b.splice malloc ⟨(fixed ++ encode pre).length, src.bytes,
          src.body.length + 2, (fixed ++ encode pre).length + (encode [t]).length,
          (encode post).length⟩).mem (fixed ++ encode pre).length (src.bytes ++ []) := by
        rw [List.append_nil]
        exact Splice.holds_new rfl
      obtain rfl := holds_unique hkept hput
      exact ⟨hlists.unique (wps_rewritten h), rfl⟩
    · rintro ⟨hsame, rfl⟩
      rw [hsame]
      exact wps_rewritten h

theorem wps_iff (h : b.Lists fixed es) (src : Option Element) :
    (b.updateBcnWpsIe malloc src).Lists fixed (BeaconEdit.result es (.wps src)) ↔
      WpsSound malloc b.mem fixed es src := by
  cases src with
  | none =>
    have hsame : b.updateBcnWpsIe malloc none = b := by
      simp only [BeaconIes.updateBcnWpsIe]
      cases (Ie.rtwGetWpsIe b.mem fixedIeLength
        (asInt (u32Sub b.ieLength fixedIeLength))).result with
      | none => rfl
      | some cnt => rfl
    rw [hsame]
    exact iff_of_true h trivial
  | some src =>
    rcases h.wps_search with ⟨hnone, hquiet⟩ | ⟨pre, t, post, rfl, hfirst, -⟩
    · have hsame : b.updateBcnWpsIe malloc (some src) = b := by
        simp only [BeaconIes.updateBcnWpsIe, hnone]
      have hplain : ∀ u ∈ es, isWpsIe u = false := by
        intro u hu
        obtain ⟨front, back, rfl⟩ := List.append_of_mem hu
        exact Bool.eq_false_of_not_eq_true fun hwps => hquiet front (u :: back) rfl (leads_wps hwps back)
      rw [hsame, BeaconEdit.result, substFirst_absent hplain]
      exact iff_of_true h fun pre t post hsplit hfirst =>
        absurd hfirst.leads (hquiet pre (t :: post) hsplit)
    · rw [BeaconEdit.result]
      constructor
      · intro hlists pre' t' post' hsplit hfirst'
        obtain ⟨rfl, hpost⟩ := hfirst.unique hfirst' hsplit
        obtain ⟨rfl, rfl⟩ := List.cons.inj hpost
        exact ⟨fun hwps => (wps_hit h hfirst hwps).mp hlists,
          fun hplain => (wps_stray h hfirst hplain).mp hlists⟩
      · intro hsound
        obtain ⟨hhit, hstray⟩ := hsound pre t post rfl hfirst
        cases hwps : isWpsIe t with
        | true => exact (wps_hit h hfirst hwps).mpr (hhit hwps)
        | false => exact (wps_stray h hfirst hwps).mpr (hstray hwps)

end Wps

def BeaconEdit.Sound (malloc : ℕ → Bool) (b : Beacon) : BeaconEdit → Prop
  | .bcntim bmp => b.TimSound malloc bmp
  | .add index data => AddSound malloc b.ies.mem b.fixed b.elements index data
  | .remove index => RemoveSound malloc b.ies.mem b.fixed b.elements index
  | .wps wpsBeaconIe => WpsSound malloc b.ies.mem b.fixed b.elements wpsBeaconIe

theorem beacon_edit_law (malloc : ℕ → Bool) (b : Beacon) (e : BeaconEdit) :
    (e.run malloc b.ies).Lists b.fixed (e.result b.elements) ↔ e.Sound malloc b := by
  have hstored : b.ies.Lists b.fixed b.elements := b.lists
  cases e with
  | bcntim bmp => exact b.tim_iff
  | add index data =>
    have hhead : ∀ t ∈ b.elements.head?, t.id ≤ index := by
      intro t ht
      obtain rfl := Option.some_inj.mp ht
      rw [b.ssidId]
      exact UInt8.zero_le
    exact BeaconIes.add_iff hstored hhead (List.cons_ne_nil _ _)
  | remove index => exact BeaconIes.remove_iff hstored
  | wps wpsBeaconIe => exact wps_iff hstored wpsBeaconIe

def emptyEcsaBytes : List UInt8 :=
  [0, 0, 0, 0, 0, 0, 0, 0, 100, 0, 0, 0, 0, 1, 0x61, 1, 1, 0x82, 3, 1, 6, 60, 0]

theorem emptyBody_short : ([] : List UInt8).length < 256 := by decide

theorem oneByteBody_short (b : UInt8) : [b].length < 256 := by simp

def oneByteElement (id b : UInt8) : Element := ⟨id, [b], oneByteBody_short b⟩

theorem emptyEcsaBytes_lists :
    (⟨Ie.memOf emptyEcsaBytes 0, 23⟩ : BeaconIes).Lists (emptyEcsaBytes.take 12)
      [oneByteElement ssidIe 0x61, oneByteElement supportedRatesIe 0x82, oneByteElement dsIe 6,
        ⟨60, [], emptyBody_short⟩] :=
  ⟨rfl, .of_read (by decide +kernel), rfl, by decide⟩

def emptyEcsaBeacon : Beacon where
  ies := ⟨Ie.memOf emptyEcsaBytes 0, 23⟩
  fixed := emptyEcsaBytes.take 12
  ssid := oneByteElement ssidIe 0x61
  rates := oneByteElement supportedRatesIe 0x82
  ds := oneByteElement dsIe 6
  rest := [⟨60, [], emptyBody_short⟩]
  ssidId := rfl
  ratesId := rfl
  dsId := rfl
  lists := emptyEcsaBytes_lists

theorem empty_element_not_removed :
    ¬ ((BeaconEdit.remove 60).run (fun _ => true) emptyEcsaBeacon.ies).Lists emptyEcsaBeacon.fixed
      ((BeaconEdit.remove 60).result emptyEcsaBeacon.elements) := by
  intro h
  exact absurd h.ieLength (by decide +kernel)

end Ap
