import Rtl8188fu.Lib.Tlv
import Rtl8188fu.Ie.Attributes

namespace Ie.ElementParser

open ByteMemory Tlv

inductive ElemField
  | ssid
  | suppRates
  | fhParams
  | dsParams
  | cfParams
  | tim
  | ibssParams
  | challenge
  | erpInfo
  | extSuppRates
  | wpaIe
  | rsnIe
  | wme
  | wmeTspec
  | wpsIe
  | powerCap
  | suppChannels
  | mdie
  | ftie
  | timeoutInt
  | htCapabilities
  | htOperation
  | vendorHtCap
  | vhtCapabilities
  | vhtOperation
  | vhtOpModeNotify
  | rmEnCap
  deriving DecidableEq, Repr

abbrev Table := ElemField → Option Elem

inductive ParseRes
  | ok
  | unknown
  | failed
  deriving DecidableEq, Repr

def eidFhParams : UInt8 := 2
def eidDsParams : UInt8 := 3
def eidCfParams : UInt8 := 4
def eidTim : UInt8 := 5
def eidIbssParams : UInt8 := 6
def eidPwrCapability : UInt8 := 33
def eidSupportedChannels : UInt8 := 36
def eidErpInfo : UInt8 := 42
def eidMobilityDomain : UInt8 := 54
def eidFastBssTransition : UInt8 := 55
def eidTimeoutInterval : UInt8 := 56
def eidRrmEnCap : UInt8 := 70
def eidVhtCapability : UInt8 := 191
def eidVhtOperation : UInt8 := 192
def eidVhtOpModeNotify : UInt8 := 199

def idFields : List (UInt8 × ElemField) :=
  [(eidSsid, .ssid), (eidSuppRates, .suppRates), (eidFhParams, .fhParams),
    (eidDsParams, .dsParams), (eidCfParams, .cfParams), (eidTim, .tim),
    (eidIbssParams, .ibssParams), (eidChallenge, .challenge), (eidErpInfo, .erpInfo),
    (eidExtSuppRates, .extSuppRates), (eidRsn, .rsnIe), (eidPwrCapability, .powerCap),
    (eidSupportedChannels, .suppChannels), (eidMobilityDomain, .mdie),
    (eidFastBssTransition, .ftie), (eidTimeoutInterval, .timeoutInt),
    (eidHtCap, .htCapabilities), (eidHtOperation, .htOperation),
    (eidVhtCapability, .vhtCapabilities), (eidVhtOperation, .vhtOperation),
    (eidVhtOpModeNotify, .vhtOpModeNotify), (eidRrmEnCap, .rmEnCap)]

def ouiMicrosoft24 : ℕ := 0x0050f2
def ouiBroadcom24 : ℕ := 0x00904c
def vendorHtCapabOuiType : UInt8 := 0x33
def wmeOuiType : UInt8 := 2

def getBe24 (b : ℕ → UInt8) : ℕ := 65536 * (b 0).toNat + 256 * (b 1).toNat + (b 2).toNat

def parseVendorSpecific (b : ℕ → UInt8) (elen : ℕ) : Option ElemField :=
  if elen < 4 then none
  else if getBe24 b = ouiMicrosoft24 then
    if b 3 = 1 then some .wpaIe
    else if b 3 = wmeOuiType then
      if elen < 5 then none
      else if b 4 = 0 ∨ b 4 = 1 then some .wme
      else if b 4 = 2 then some .wmeTspec
      else none
    else if b 3 = 4 then some .wpsIe
    else none
  else if getBe24 b = ouiBroadcom24 then
    if b 3 = vendorHtCapabOuiType then some .vendorHtCap else none
  else none

def elemField (id : UInt8) (b : ℕ → UInt8) (elen : ℕ) : Option ElemField :=
  if id = eidVendorSpecific then parseVendorSpecific b elen else idFields.lookup id

def store (f : Option ElemField) (e : Elem) (elems : Table) : Table :=
  match f with
  | none => elems
  | some f => Function.update elems f (some e)

def countUnknown (f : Option ElemField) (unknown : ℕ) : ℕ :=
  match f with
  | none => unknown + 1
  | some _ => unknown

def parseLoop (m : Mem) (left pos unknown : ℕ) (elems : Table) : ParseRes × Table :=
  if 2 ≤ left then
    let id := m pos
    let elen := (m (pos + 1)).toNat
    if left - 2 < elen then (.failed, elems)
    else
      let f := elemField id (fun i => m (pos + 2 + i)) elen
      parseLoop m (left - 2 - elen) (pos + 2 + elen) (countUnknown f unknown)
        (store f ⟨pos + 2, elen⟩ elems)
  else if left ≠ 0 then (.failed, elems)
  else if unknown ≠ 0 then (.unknown, elems)
  else (.ok, elems)
termination_by left

def rtwIeee80211ParseElems (m : Mem) (start len : ℕ) : ParseRes × Table :=
  parseLoop m len start 0 fun _ => none

def fieldOf (t : Element) : Option ElemField := elemField t.id (t.body.getD · 0) t.body.length

def storeAll : ℕ → List Element → Table → Table
  | _, [], elems => elems
  | pos, t :: ts, elems =>
    storeAll (pos + t.bytes.length) ts (store (fieldOf t) ⟨pos + 2, t.body.length⟩ elems)

structure StoredAt (start : ℕ) (ts : List Element) (f : ElemField) (e : Elem)
    (pre : List Element) (t : Element) (post : List Element) : Prop where
  split : ts = pre ++ t :: post
  field : fieldOf t = some f
  last : ∀ u ∈ post, fieldOf u ≠ some f
  content : e = ⟨start + (encode pre).length + 2, t.body.length⟩

def LastStored (start : ℕ) (ts : List Element) (f : ElemField) (e : Elem) : Prop :=
  ∃ pre t post, StoredAt start ts f e pre t post

variable {m : Mem} {pos start len unknown : ℕ} {elems : Table} {t : Element} {ts : List Element}
  {rest : List UInt8} {f : ElemField} {e : Elem}

theorem parseVendorSpecific_congr {b b' : ℕ → UInt8} {elen : ℕ}
    (h : ∀ i, i < elen → b i = b' i) : parseVendorSpecific b elen = parseVendorSpecific b' elen := by
  rw [parseVendorSpecific, parseVendorSpecific]
  cases Nat.lt_or_ge elen 4 with
  | inl hlt => rw [if_pos hlt, if_pos hlt]
  | inr hge =>
    have hbe : getBe24 b = getBe24 b' := by
      rw [getBe24, getBe24, h 0 (by omega), h 1 (by omega), h 2 (by omega)]
    rw [if_neg (Nat.not_lt.mpr hge), if_neg (Nat.not_lt.mpr hge), hbe, h 3 (by omega)]
    cases Nat.lt_or_ge elen 5 with
    | inl hlt => rw [if_pos hlt, if_pos hlt]
    | inr hge => rw [if_neg (Nat.not_lt.mpr hge), if_neg (Nat.not_lt.mpr hge), h 4 (by omega)]

theorem elemField_holds (h : Holds m pos t.body) :
    elemField t.id (fun i => m (pos + i)) t.body.length = fieldOf t := by
  rw [fieldOf, elemField, elemField]
  refine if_congr Iff.rfl (parseVendorSpecific_congr fun i hi => ?_) rfl
  rw [h i hi, List.getD_eq_getElem?_getD, List.getElem?_eq_getElem hi, Option.getD_some]

theorem parseLoop_element (h : Holds m pos (t.bytes ++ rest)) :
    parseLoop m (t.bytes.length + rest.length) pos unknown elems =
      parseLoop m rest.length (pos + t.bytes.length) (countUnknown (fieldOf t) unknown)
        (store (fieldOf t) ⟨pos + 2, t.body.length⟩ elems) := by
  rw [parseLoop, if_pos (by rw [Element.length_bytes]; omega)]
  simp only [holds_id h, holds_len h]
  rw [elemField_holds (holds_tail h).left, if_neg (by rw [Element.length_bytes]; omega)]
  have hleft : t.bytes.length + rest.length - 2 - t.body.length = rest.length := by
    rw [Element.length_bytes]
    omega
  rw [hleft, Element.length_bytes, Nat.add_comm t.body.length 2, ← Nat.add_assoc]

def finish (unknown : ℕ) : ParseRes := if unknown ≠ 0 then .unknown else .ok

theorem parseLoop_stuck (h : Holds m pos rest) (hstuck : Stuck rest) :
    parseLoop m rest.length pos unknown elems =
      (if rest = [] then finish unknown else .failed, elems) := by
  rw [parseLoop]
  rcases hstuck.cases with hshort | ⟨id, size, xs, rfl, hcut⟩
  · rw [if_neg (Nat.not_le.mpr hshort)]
    cases rest with
    | nil => exact (apply_ite (·, elems) _ _ _).symm
    | cons b bs =>
      rw [if_neg (List.cons_ne_nil _ _), List.length_cons, if_pos (Nat.succ_ne_zero _)]
  · have hsize : m (pos + 1) = size := h 1 (Nat.succ_lt_succ (Nat.succ_pos _))
    have htwo : 2 ≤ (id :: size :: xs).length := Nat.le_add_left 2 _
    rw [if_pos htwo, if_neg (List.cons_ne_nil _ _)]
    simp only [hsize]
    exact if_pos hcut

theorem parseLoop_encode (h : Holds m pos (encode ts ++ rest)) :
    parseLoop m ((encode ts).length + rest.length) pos unknown elems =
      parseLoop m rest.length (pos + (encode ts).length)
        (unknown + ts.countP fun t => (fieldOf t).isNone) (storeAll pos ts elems) := by
  induction ts generalizing pos unknown elems with
  | nil => rw [encode_nil, List.length_nil, Nat.zero_add]; rfl
  | cons t ts ih =>
    rw [encode_cons, List.append_assoc] at h
    rw [encode_cons, List.length_append, Nat.add_assoc, ← List.length_append,
      parseLoop_element h, List.length_append, ih h.right, ← Nat.add_assoc, storeAll,
      List.countP_cons]
    have hcount : countUnknown (fieldOf t) unknown + ts.countP (fun t => (fieldOf t).isNone) =
        unknown + (ts.countP (fun t => (fieldOf t).isNone) +
          if (fieldOf t).isNone = true then 1 else 0) := by
      cases fieldOf t with
      | none => exact Nat.add_right_comm _ _ _
      | some f => rfl
    rw [hcount]

theorem store_eq_some {g : Option ElemField} {x : Elem} : store g x elems f = some e ↔
    g = some f ∧ e = x ∨ g ≠ some f ∧ elems f = some e := by
  cases g with
  | none =>
    refine ⟨fun h => .inr ⟨nofun, h⟩, ?_⟩
    rintro (⟨hnone, _⟩ | ⟨_, h⟩)
    · exact absurd hnone nofun
    · exact h
  | some g =>
    rw [store]
    cases Decidable.eq_or_ne f g with
    | inl heq =>
      rw [heq, Function.update_self, Option.some_inj]
      exact ⟨fun h => .inl ⟨rfl, h.symm⟩, fun h => h.elim (·.2.symm) fun h => absurd rfl h.1⟩
    | inr hne =>
      have hfield : some g ≠ some f := fun h => hne (Option.some.inj h).symm
      rw [Function.update_of_ne hne]
      exact ⟨fun h => .inr ⟨hfield, h⟩, fun h => h.elim (fun h => absurd h.1 hfield) (·.2)⟩

theorem lastStored_cons : LastStored pos (t :: ts) f e ↔
    LastStored (pos + t.bytes.length) ts f e ∨
      (∀ u ∈ ts, fieldOf u ≠ some f) ∧ fieldOf t = some f ∧ e = ⟨pos + 2, t.body.length⟩ := by
  constructor
  · rintro ⟨pre, u, post, hsplit, hfield, hlast, hcontent⟩
    cases pre with
    | nil =>
      obtain ⟨rfl, rfl⟩ := List.cons.inj hsplit
      exact .inr ⟨hlast, hfield, hcontent⟩
    | cons v pre =>
      obtain ⟨rfl, rfl⟩ := List.cons.inj hsplit
      rw [encode_cons, List.length_append, ← Nat.add_assoc] at hcontent
      exact .inl ⟨pre, u, post, rfl, hfield, hlast, hcontent⟩
  · rintro (⟨pre, u, post, rfl, hfield, hlast, hcontent⟩ | ⟨hlast, hfield, hcontent⟩)
    · refine ⟨t :: pre, u, post, rfl, hfield, hlast, ?_⟩
      rw [encode_cons, List.length_append, ← Nat.add_assoc]
      exact hcontent
    · exact ⟨[], t, ts, rfl, hfield, hlast, hcontent⟩

theorem storeAll_eq_some : storeAll pos ts elems f = some e ↔
    LastStored pos ts f e ∨ (∀ t ∈ ts, fieldOf t ≠ some f) ∧ elems f = some e := by
  induction ts generalizing pos elems with
  | nil =>
    refine ⟨fun h => .inr ⟨nofun, h⟩, ?_⟩
    rintro (⟨pre, t, post, hsplit, _, _, _⟩ | ⟨_, h⟩)
    · exact absurd hsplit.symm (List.append_ne_nil_of_right_ne_nil _ (List.cons_ne_nil _ _))
    · exact h
  | cons t ts ih =>
    rw [storeAll, ih, lastStored_cons, or_assoc, store_eq_some, and_or_left, List.forall_mem_cons]
    refine or_congr_right (or_congr_right ?_)
    rw [← and_assoc, and_comm (b := fieldOf t ≠ some f)]

theorem parseElems_tiled (h : Holds m start (encode ts ++ rest)) (hstuck : Stuck rest)
    (hlen : (encode ts ++ rest).length = len) : rtwIeee80211ParseElems m start len =
      (if rest = [] then finish (ts.countP fun t => (fieldOf t).isNone) else .failed,
        storeAll start ts fun _ => none) := by
  rw [← hlen, List.length_append, rtwIeee80211ParseElems, parseLoop_encode h,
    parseLoop_stuck h.right hstuck, Nat.zero_add]

theorem finish_eq_ok : finish unknown = .ok ↔ unknown = 0 := by
  rw [finish]
  cases Decidable.eq_or_ne unknown 0 with
  | inl hzero => exact iff_of_true (if_neg (not_not_intro hzero)) hzero
  | inr hpos => exact iff_of_false (by rw [if_pos hpos]; exact nofun) hpos

theorem finish_ne_failed : finish unknown ≠ .failed := by
  rw [finish]
  split
  · exact nofun
  · exact nofun

structure ParsesElements (m : Mem) (start len : ℕ) (ts : List Element) (rest : List UInt8)
    (r : ParseRes × Table) : Prop where
  buffer : read m start len = encode ts ++ rest
  stuck : Stuck rest
  accepted : r.1 ≠ .failed ↔ rest = []
  known : r.1 = .ok ↔ rest = [] ∧ ∀ t ∈ ts, fieldOf t ≠ none
  stored : ∀ f e, r.2 f = some e ↔ LastStored start ts f e
  contained : ∀ f e, r.2 f = some e → start + 2 ≤ e.pos ∧ e.pos + e.len ≤ start + len

theorem LastStored.contained (h : LastStored start ts f e) :
    start + 2 ≤ e.pos ∧ e.pos + e.len ≤ start + (encode ts).length := by
  obtain ⟨pre, t, post, rfl, _, _, rfl⟩ := h
  rw [encode_append, encode_cons, List.length_append, List.length_append, Element.length_bytes]
  simp only
  omega

theorem parseElems_parses (m : Mem) (start len : ℕ) :
    ∃ ts rest, ParsesElements m start len ts rest (rtwIeee80211ParseElems m start len) := by
  obtain ⟨ts, rest, hbuffer, hstuck⟩ := exists_encode (read m start len)
  have hlen : (encode ts ++ rest).length = len := by rw [← hbuffer, length_read]
  have hholds : Holds m start (encode ts ++ rest) := .of_read (by rw [hlen, hbuffer])
  have hparse := parseElems_tiled hholds hstuck hlen
  have hstored (f : ElemField) (e : Elem) :
      (rtwIeee80211ParseElems m start len).2 f = some e ↔ LastStored start ts f e := by
    rw [hparse, storeAll_eq_some]
    exact or_iff_left fun h => absurd h.2 nofun
  refine ⟨ts, rest, hbuffer, hstuck, ?_, ?_, hstored, fun f e he => ?_⟩
  · rw [hparse]
    cases rest with
    | nil => exact iff_of_true finish_ne_failed rfl
    | cons b bs => exact iff_of_false (fun h => h rfl) (List.cons_ne_nil _ _)
  · rw [hparse]
    cases rest with
    | cons b bs => exact iff_of_false nofun fun h => List.cons_ne_nil _ _ h.1
    | nil =>
      rw [if_pos rfl, finish_eq_ok, List.countP_eq_zero]
      simp only [Option.isNone_iff_eq_none, true_and, ne_eq]
  · obtain ⟨hfirst, hend⟩ := ((hstored f e).mp he).contained
    rw [List.length_append] at hlen
    exact ⟨hfirst, by omega⟩

theorem parseElems_accepted (m : Mem) (start len : ℕ) :
    (rtwIeee80211ParseElems m start len).1 ≠ .failed ↔ ∃ ts, read m start len = encode ts := by
  obtain ⟨ts, rest, h⟩ := parseElems_parses m start len
  rw [h.accepted]
  constructor
  · rintro rfl
    exact ⟨ts, h.buffer.trans (List.append_nil _)⟩
  · rintro ⟨us, hus⟩
    exact h.stuck.eq_nil (h.buffer.symm.trans hus)

theorem parse_elems_law (m : Mem) (start len : ℕ) :
    (∃ ts rest, ParsesElements m start len ts rest (rtwIeee80211ParseElems m start len)) ∧
      ((rtwIeee80211ParseElems m start len).1 ≠ .failed ↔ ∃ ts, read m start len = encode ts) :=
  ⟨parseElems_parses m start len, parseElems_accepted m start len⟩

theorem unparseable_vendor_accepted :
    ¬ ∀ (m : Mem) (start len : ℕ), (rtwIeee80211ParseElems m start len).1 ≠ .failed ↔
      ∃ ts, read m start len = encode ts ∧
        ∀ t ∈ ts, t.id = eidVendorSpecific → fieldOf t ≠ none := by
  intro h
  have hread : read (memOf [221, 0] 0x1000) 0x1000 2 = encode [⟨221, [], by decide⟩] := by decide
  have haccepted := (parseElems_accepted (memOf [221, 0] 0x1000) 0x1000 2).mpr ⟨_, hread⟩
  obtain ⟨ts, hts, hvendor⟩ := (h _ _ _).mp haccepted
  obtain rfl := encode_injective (hts.symm.trans hread)
  exact hvendor _ List.mem_cons_self rfl rfl

section Projection

def projected (elems : Table) : Elems :=
  ⟨elems .ssid, elems .rsnIe, elems .wpaIe, elems .wpsIe, elems .htCapabilities,
    elems .htOperation⟩

def kept (r : ParseRes × Table) : Option Elems :=
  if r.1 = .failed then none else some (projected r.2)

theorem be24_microsoft (b : ℕ → UInt8) :
    getBe24 b = ouiMicrosoft24 ↔ b 0 = 0x00 ∧ b 1 = 0x50 ∧ b 2 = 0xf2 := by
  have hbyte0 := (b 0).toNat_lt
  have hbyte1 := (b 1).toNat_lt
  have hbyte2 := (b 2).toNat_lt
  rw [← UInt8.toNat_inj, ← UInt8.toNat_inj, ← UInt8.toNat_inj]
  simp only [getBe24, ouiMicrosoft24, UInt8.reduceToNat]
  omega

theorem memcmp_microsoft (pos : ℕ) :
    memcmp m pos ouiMicrosoft = true ↔ getBe24 (fun i => m (pos + i)) = ouiMicrosoft24 := by
  rw [be24_microsoft]
  simp only [memcmp, ouiMicrosoft, Bool.and_eq_true, beq_iff_eq, and_true]
  rfl

theorem parseVendorSpecific_projected (elems : Table) (pos elen : ℕ) :
    Ie.parseVendorSpecific m ⟨pos, elen⟩ (projected elems) =
      projected (store (parseVendorSpecific (fun i => m (pos + i)) elen) ⟨pos, elen⟩ elems) := by
  rw [Ie.parseVendorSpecific, parseVendorSpecific]
  cases Nat.lt_or_ge elen 4 with
  | inl hlt =>
    rw [if_pos hlt, if_pos hlt]
    rfl
  | inr hge =>
    rw [if_neg (Nat.not_lt.mpr hge), if_neg (Nat.not_lt.mpr hge)]
    simp only [memcmp_microsoft]
    split
    · split
      · rfl
      · cases Decidable.em (m (pos + 3) = wmeOuiType) with
        | inl hwme =>
          have hwps : ¬ m (pos + 3) = 4 := fun h => absurd (hwme.symm.trans h) (by decide)
          rw [if_pos hwme, if_neg hwps]
          split
          · rfl
          · split
            · rfl
            · split
              · rfl
              · rfl
        | inr hother =>
          rw [if_neg hother]
          split
          · rfl
          · rfl
    · split
      · split
        · rfl
        · rfl
      · rfl

theorem idFields_ids : ∀ p ∈ idFields, p.2 ≠ .wpaIe ∧ p.2 ≠ .wpsIe ∧
    (p.2 = .ssid → p.1 = eidSsid) ∧ (p.2 = .rsnIe → p.1 = eidRsn) ∧
    (p.2 = .htCapabilities → p.1 = eidHtCap) ∧ (p.2 = .htOperation → p.1 = eidHtOperation) := by
  decide

theorem lookup_mem {id : UInt8} (h : idFields.lookup id = some f) : (id, f) ∈ idFields := by
  obtain ⟨pre, post, heq, _⟩ := List.lookup_eq_some_iff.mp h
  rw [heq]
  exact List.mem_append_right _ List.mem_cons_self

theorem store_lookup_projected {id : UInt8} (elems : Table) (x : Elem) (hssid : id ≠ eidSsid)
    (hrsn : id ≠ eidRsn) (hcap : id ≠ eidHtCap) (hoperation : id ≠ eidHtOperation) :
    projected (store (idFields.lookup id) x elems) = projected elems := by
  cases hlookup : idFields.lookup id with
  | none => rfl
  | some f =>
    obtain ⟨hwpa, hwps, hids⟩ := idFields_ids _ (lookup_mem hlookup)
    obtain ⟨hisSsid, hisRsn, hisCap, hisOperation⟩ := hids
    have hfar {g : ElemField} (hne : f ≠ g) : store (some f) x elems g = elems g :=
      Function.update_of_ne hne.symm _ _
    rw [projected, hfar fun h => hssid (hisSsid h), hfar fun h => hrsn (hisRsn h), hfar hwpa,
      hfar hwps, hfar fun h => hcap (hisCap h), hfar fun h => hoperation (hisOperation h)]
    rfl

theorem parseElem_projected (elems : Table) (id : UInt8) (pos elen : ℕ) :
    parseElem m id ⟨pos, elen⟩ (projected elems) =
      projected (store (elemField id (fun i => m (pos + i)) elen) ⟨pos, elen⟩ elems) := by
  rw [parseElem, elemField]
  cases Decidable.em (id = eidVendorSpecific) with
  | inl hvendor =>
    subst hvendor
    exact parseVendorSpecific_projected elems pos elen
  | inr hother =>
    rw [if_neg hother, if_neg hother]
    split
    · rename_i hssid
      subst hssid
      rfl
    · split
      · rename_i hrsn
        subst hrsn
        rfl
      · split
        · rename_i hcap
          subst hcap
          rfl
        · split
          · rename_i hoperation
            subst hoperation
            rfl
          · rename_i hssid hrsn hcap hoperation
            exact (store_lookup_projected elems _ hssid hrsn hcap hoperation).symm

theorem parseLoop_short {left : ℕ} (hlt : left < 2) :
    kept (parseLoop m left pos unknown elems) =
      if left = 0 then some (projected elems) else none := by
  rw [parseLoop, if_neg (Nat.not_le.mpr hlt)]
  cases Decidable.eq_or_ne left 0 with
  | inr hleft => rw [if_pos hleft, if_neg hleft, kept, if_pos rfl]
  | inl hleft =>
    rw [if_neg (not_not_intro hleft), if_pos hleft, kept]
    split
    · rfl
    · rfl

theorem parseElemsLoop_projected (fuel left pos unknown : ℕ) (elems : Table) (h : left ≤ fuel) :
    parseElemsLoop m fuel left pos (projected elems) = kept (parseLoop m left pos unknown elems) := by
  induction fuel generalizing left pos unknown elems with
  | zero => rw [parseElemsLoop, parseLoop_short (by omega)]
  | succ fuel ih =>
    rw [parseElemsLoop]
    cases Nat.lt_or_ge left 2 with
    | inl hlt => rw [if_neg (Nat.not_le.mpr hlt), parseLoop_short hlt]
    | inr hge =>
      rw [if_pos hge, parseLoop, if_pos hge]
      simp only [gt_iff_lt]
      cases Nat.lt_or_ge (left - 2) (m (pos + 1)).toNat with
      | inl hcut => rw [if_pos hcut, if_pos hcut, kept, if_pos rfl]
      | inr hroom =>
        rw [if_neg (Nat.not_lt.mpr hroom), if_neg (Nat.not_lt.mpr hroom), parseElem_projected]
        exact ih _ _ _ _ (by omega)

theorem parseElems_projected (start len : ℕ) : Ie.rtwIeee80211ParseElems m start len =
    kept (rtwIeee80211ParseElems m start len) :=
  parseElemsLoop_projected len len start 0 (fun _ => none) (Nat.le_refl _)

end Projection

end Ie.ElementParser
