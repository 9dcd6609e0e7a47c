import Rtl8188fu.Ie.UpdateIe

namespace Ie

open ByteMemory Tlv

def basicRateMask : UInt8 := 0x80

def cckRates : List UInt8 := [0x02, 0x04, 0x0b, 0x16]

def ofdmRates : List UInt8 := [0x0c, 0x12, 0x18, 0x24, 0x30, 0x48, 0x60, 0x6c]

def wifiCckrates : List UInt8 := cckRates.map (· ||| basicRateMask)

def rtwBasicRateOfdm : List UInt8 := [0x0c, 0x18, 0x30]

def rateOf (b : UInt8) : UInt8 := b &&& 0x7f

def isRateOf (rates : List UInt8) (rate : UInt8) : Bool := rates.any (rateOf · == rateOf rate)

def rtwIsCckRate : UInt8 → Bool := isRateOf wifiCckrates

def rtwIsOfdmRate : UInt8 → Bool := isRateOf ofdmRates

def rtwIsBasicRateOfdm : UInt8 → Bool := isRateOf rtwBasicRateOfdm

inductive Keep
  | cck
  | ofdm
  deriving DecidableEq, Repr

def Keep.keeps : Keep → UInt8 → Bool
  | .cck => rtwIsCckRate
  | .ofdm => rtwIsOfdmRate

def beaconIeOffset : ℕ := 12

def lengthRatesEx : ℕ := 16

structure RateFilter where
  mem : Mem
  ieLength : ℕ
  localWrites : List ℕ

def newRates (keep : Keep) (rates : List UInt8) : List UInt8 :=
  (rates.filter keep.keeps).map fun rate =>
    if rtwIsBasicRateOfdm rate then rate ||| basicRateMask else rate

def rtwFilterSuppportRateie (m : Mem) (ies ieLength : ℕ) (keep : Keep) : RateFilter :=
  match rtwGetIe m (ies + beaconIeOffset) eidSuppRates ((ieLength : ℤ) - beaconIeOffset) with
  | none => ⟨m, ieLength, []⟩
  | some p =>
    let ieOrilen := (m (p + 1)).toNat
    let newRate := newRates keep (read m (p + 2) ieOrilen)
    let idx := newRate.length
    let updated := write (write m (p + 1) [UInt8.ofNat idx]) (p + 2) newRate
    let remainIes := p + 2 + ieOrilen
    let remainLen := u32Sub ieLength (remainIes - ies)
    ⟨write updated (p + 2 + idx) (read updated remainIes remainLen),
      u32Sub ieLength (ieOrilen - idx), List.range idx⟩

def wireless11B : ℕ := 1
def wireless11G : ℕ := 2
def wireless11A : ℕ := 4
def wireless24N : ℕ := 8
def wireless5N : ℕ := 16
def wirelessAC : ℕ := 32
def wireless11BG : ℕ := wireless11B + wireless11G

def ofdmModes : List ℕ :=
  [wireless11G, wireless11A, wireless5N, wireless11A + wireless5N, wireless11A + wirelessAC]

def mixedModes : List ℕ :=
  [wireless11BG, wireless11G + wireless24N, wireless24N, wireless11BG + wireless24N]

def padRates (rates : List UInt8) : List UInt8 :=
  rates ++ List.replicate (lengthRatesEx - rates.length) 0

def rtwSetSupportedRate (mode : ℕ) : List UInt8 :=
  if mode = wireless11B then padRates wifiCckrates
  else if mode ∈ ofdmModes then padRates ofdmRates
  else if mode ∈ mixedModes then padRates (wifiCckrates ++ ofdmRates)
  else padRates []

structure BssRates where
  filtered : RateFilter
  supportedRates : List UInt8
  networkType : ℕ

def setNetworkType (filtered : RateFilter) (networkType : ℕ) : BssRates :=
  ⟨filtered, rtwSetSupportedRate networkType, networkType⟩

def rtwUpdateRateBymode (m : Mem) (ies ieLength dsConfig mode fuel : ℕ) : Option BssRates :=
  if mode = wireless11B then
    let f := rtwFilterSuppportRateie m ies ieLength .cck
    match rtwGetIe f.mem (ies + beaconIeOffset) eidExtSuppRates
        ((f.ieLength : ℤ) - beaconIeOffset) with
    | none => some (setNetworkType f wireless11B)
    | some p =>
      (rtwIesRemoveIe f.mem ies ieLength beaconIeOffset eidExtSuppRates [] fuel).map fun r =>
        setNetworkType
          { f with mem := r.mem, ieLength := u32Sub f.ieLength (f.mem (p + 1)).toNat } wireless11B
  else if 14 < dsConfig then
    some (setNetworkType (rtwFilterSuppportRateie m ies ieLength .ofdm) wireless11A)
  else if mode &&& wireless11B = 0 then
    some (setNetworkType (rtwFilterSuppportRateie m ies ieLength .ofdm) wireless11G)
  else some (setNetworkType ⟨m, ieLength, []⟩ wireless11BG)

def modeKeeps (dsConfig mode : ℕ) : Option Keep :=
  if mode = wireless11B then some .cck
  else if 14 < dsConfig ∨ mode &&& wireless11B = 0 then some .ofdm
  else none

structure BssIes extends IeArea where
  fixedLength : fixed.length = beaconIeOffset

def firstOf (eid : UInt8) (ts : List Element) : Option Element := ts.find? (·.id = eid)

def RatesKept (keep : Keep) (eid : UInt8) (ts : List Element) (c : Content) : Prop :=
  ∀ t ∈ firstOf eid ts, c.bytes.map rateOf = (t.body.filter keep.keeps).map rateOf

def adjusted (keep : Keep) (supp ext : Content) (ts : List Element) : List Element :=
  let filtered := replaceFirst (supp.element eidSuppRates) ts
  match keep with
  | .cck => filtered.filter (·.id ≠ eidExtSuppRates)
  | .ofdm => replaceFirst (ext.element eidExtSuppRates) filtered

def Adjusted (keep : Option Keep) (ts ts' : List Element) : Prop :=
  match keep with
  | none => ts' = ts
  | some keep => ∃ supp ext, RatesKept keep eidSuppRates ts supp ∧
      RatesKept keep eidExtSuppRates ts ext ∧ ts' = adjusted keep supp ext ts

structure RateOutcome (m : Mem) (a : BssIes) (keep : Option Keep) (f : RateFilter) : Prop where
  list : ∃ ts, Adjusted keep a.elements ts ∧ Edited m a.toIeArea ts (f.mem, f.ieLength)
  inBuffer : ∀ i, i < a.ies ∨ a.ies + a.bytes.length ≤ i → f.mem i = m i
  inLocal : ∀ i ∈ f.localWrites, i < lengthRatesEx

def RateLaw (m : Mem) (a : BssIes) (dsConfig mode : ℕ) : Prop :=
  ∃ fuel r, rtwUpdateRateBymode m a.ies a.bytes.length dsConfig mode fuel = some r ∧
    RateOutcome m a (modeKeeps dsConfig mode) r.filtered

structure RatesFit (keep : Keep) (ts : List Element) : Prop where
  room : ∀ t ∈ firstOf eidSuppRates ts, (t.body.filter keep.keeps).length ≤ lengthRatesEx
  noExt : keep = .cck → firstOf eidExtSuppRates ts = none
  ext : keep = .ofdm → ∀ t ∈ firstOf eidExtSuppRates ts, ∀ rate ∈ t.body, rtwIsOfdmRate rate = true

section Lists

variable {eid : UInt8} {ts : List Element} {s t u : Element} {c c' : Content}

theorem firstOf_first {pre post : List Element} (h : FirstAt eid ts pre t post) :
    firstOf eid ts = some t := by
  obtain ⟨rfl, hbefore, hid⟩ := h
  refine List.find?_eq_some_iff_append.mpr ⟨decide_eq_true hid, pre, post, rfl, fun u hu => ?_⟩
  rw [decide_eq_false (hbefore u hu), Bool.not_false]

theorem firstOf_absent : firstOf eid ts = none ↔ ∀ t ∈ ts, t.id ≠ eid := by
  rw [firstOf, List.find?_eq_none]
  simp only [decide_eq_true_eq]

theorem firstOf_id (h : firstOf eid ts = some t) : t.id = eid := by
  have hid := List.find?_some h
  exact of_decide_eq_true hid

theorem firstOf_cons : firstOf eid (u :: ts) = if u.id = eid then some u else firstOf eid ts := by
  rw [firstOf, List.find?_cons]
  split
  · rename_i hid
    exact (if_pos (of_decide_eq_true hid)).symm
  · rename_i hid
    exact (if_neg (of_decide_eq_false hid)).symm

theorem firstOf_replaced_other (h : s.id ≠ eid) :
    firstOf eid (replaceFirst s ts) = firstOf eid ts := by
  induction ts with
  | nil => rfl
  | cons u us ih =>
    rw [replaceFirst]
    cases Decidable.eq_or_ne u.id s.id with
    | inl heq => rw [if_pos heq, firstOf_cons, firstOf_cons, if_neg h, if_neg (heq ▸ h)]
    | inr hne => rw [if_neg hne, firstOf_cons, firstOf_cons, ih]

theorem firstOf_replaced (h : firstOf s.id ts = some t) :
    firstOf s.id (replaceFirst s ts) = some s := by
  rcases exists_firstAt s.id ts with hnone | ⟨pre, u, post, hfirst⟩
  · exact absurd (h.symm.trans (firstOf_absent.mpr hnone)) nofun
  · rw [replaceFirst_first hfirst]
    exact firstOf_first ⟨rfl, hfirst.before, rfl⟩

theorem replaceFirst_self (h : firstOf t.id ts = some t) : replaceFirst t ts = ts := by
  rcases exists_firstAt t.id ts with hnone | ⟨pre, u, post, hfirst⟩
  · exact replaceFirst_absent hnone
  · have hsame := (firstOf_first hfirst).symm.trans h
    rw [replaceFirst_first hfirst, hfirst.split, Option.some.inj hsame]

theorem length_replaceFirst (hlen : c.bytes.length = c'.bytes.length) :
    (encode (replaceFirst (c.element eid) ts)).length =
      (encode (replaceFirst (c'.element eid) ts)).length := by
  rcases exists_firstAt eid ts with hnone | ⟨pre, u, post, hfirst⟩
  · have hc := replaceFirst_absent (t := c.element eid) hnone
    have hc' := replaceFirst_absent (t := c'.element eid) hnone
    rw [hc, hc']
  · have hc := replaceFirst_first (t := c.element eid) hfirst
    have hc' := replaceFirst_first (t := c'.element eid) hfirst
    rw [hc, hc']
    simp only [encode_append, encode_cons, List.length_append, Element.length_bytes,
      Content.element, hlen]

theorem length_filter_le (p : Element → Bool) (ts : List Element) :
    (encode (ts.filter p)).length ≤ (encode ts).length := by
  induction ts with
  | nil => exact Nat.le_refl _
  | cons u us ih =>
    rw [List.filter_cons, encode_cons, List.length_append]
    split
    · rw [encode_cons, List.length_append]
      exact Nat.add_le_add_left ih _
    · exact Nat.le_add_left_of_le ih

theorem length_without (h : firstOf eid ts = some t) :
    (encode (ts.filter (·.id ≠ eid))).length + t.bytes.length ≤ (encode ts).length := by
  induction ts with
  | nil => exact absurd h nofun
  | cons u us ih =>
    rw [firstOf_cons] at h
    rw [List.filter_cons, encode_cons, List.length_append]
    cases Decidable.eq_or_ne u.id eid with
    | inl heq =>
      rw [if_pos heq] at h
      have hle := length_filter_le (·.id ≠ eid) us
      rw [if_neg (by simpa using heq), ← Option.some.inj h]
      omega
    | inr hne =>
      rw [if_neg hne] at h
      have hle := ih h
      rw [if_pos (by simpa using hne), encode_cons, List.length_append]
      omega

end Lists

section Filter

variable {m : Mem} {a : BssIes} {keep : Keep} {t : Element} {c c' : Content}

theorem length_newRates (keep : Keep) (rates : List UInt8) :
    (newRates keep rates).length = (rates.filter keep.keeps).length := List.length_map _

theorem rateOf_mask (b : UInt8) : rateOf (b ||| basicRateMask) = rateOf b := by
  have hmask : basicRateMask.toBitVec &&& (0x7f : UInt8).toBitVec = 0#8 := by decide
  refine UInt8.toBitVec_inj.mp ?_
  rw [rateOf, rateOf, UInt8.toBitVec_and, UInt8.toBitVec_and, UInt8.toBitVec_or,
    BitVec.and_or_distrib_right, hmask, BitVec.or_zero]

theorem newRates_rates (keep : Keep) (rates : List UInt8) :
    (newRates keep rates).map rateOf = (rates.filter keep.keeps).map rateOf := by
  rw [newRates, List.map_map]
  refine List.map_congr_left fun rate _ => ?_
  rw [Function.comp_apply]
  split
  · exact rateOf_mask rate
  · rfl

def filteredRates (keep : Keep) (t : Element) : Content where
  bytes := newRates keep t.body
  short := by
    rw [length_newRates]
    exact Nat.lt_of_le_of_lt (List.length_filter_le _ _) t.short

theorem rates_written (m : Mem) (p : ℕ) (c : Content) :
    Written m (write (write m (p + 1) [UInt8.ofNat c.bytes.length]) (p + 2) c.bytes) p c [] := by
  constructor
  · intro i hi
    rw [write_below _ _ (by omega), write_below _ _ (by omega)]
  · rw [write_below _ _ (Nat.lt_succ_self _)]
    exact holds_write _ (p + 1) [UInt8.ofNat c.bytes.length] 0 Nat.one_pos
  · rw [List.append_nil]
    exact holds_write _ (p + 2) c.bytes
  · intro i hi
    rw [List.length_nil] at hi
    rw [write_above _ (by omega), write_above _ (by rw [List.length_singleton]; omega)]

theorem fixed_offset (a : BssIes) : a.ies + beaconIeOffset = a.ies + a.fixed.length := by
  rw [a.fixedLength]

theorem search_limit (a : BssIes) :
    ((a.bytes.length : ℤ) - beaconIeOffset) = (encode a.elements).length := by
  rw [← a.fixedLength, IeArea.bytes, List.length_append]
  omega

theorem filter_absent (h : a.Stored m) (hnone : firstOf eidSuppRates a.elements = none) :
    rtwFilterSuppportRateie m a.ies a.bytes.length keep = ⟨m, a.bytes.length, []⟩ := by
  have hfind := rtwGetIe_absent h.right (firstOf_absent.mp hnone)
  rw [rtwFilterSuppportRateie, search_limit, fixed_offset, hfind]

theorem filter_first (keep : Keep) (h : a.Stored m) (hfirst : firstOf eidSuppRates a.elements = some t) :
    let f := rtwFilterSuppportRateie m a.ies a.bytes.length keep
    Edited m a.toIeArea (replaceFirst ((filteredRates keep t).element eidSuppRates) a.elements)
        (f.mem, f.ieLength) ∧
      f.localWrites = List.range (t.body.filter keep.keeps).length ∧
      f.ieLength ≤ a.bytes.length := by
  rcases exists_firstAt eidSuppRates a.elements with hnone | ⟨pre, u, post, hat⟩
  · exact absurd (hfirst.symm.trans (firstOf_absent.mpr hnone)) nofun
  · obtain rfl : u = t := Option.some.inj ((firstOf_first hat).symm.trans hfirst)
    have hlist : Holds m (a.ies + a.fixed.length) (encode a.elements) := h.right
    have hfind := rtwGetIe_first hlist hat
    obtain ⟨p, hp⟩ : ∃ p, p = a.ies + a.fixed.length + (encode pre).length := ⟨_, rfl⟩
    have hhere : Holds m p (u.bytes ++ encode post) := by
      rw [hp]
      exact holds_elements (hat.split ▸ hlist)
    have hsplit : a.bytes.length = a.fixed.length +
        ((encode pre).length + (u.body.length + 2 + (encode post).length)) := by
      rw [IeArea.bytes, hat.split, encode_append, encode_cons]
      simp only [List.length_append, Element.length_bytes]
    have hcut : (newRates keep u.body).length ≤ u.body.length :=
      (length_newRates keep u.body).trans_le (List.length_filter_le _ _)
    have hbody : read m (p + 2) u.body.length = u.body := (holds_tail hhere).left.read
    have hupdated := rates_written m p (filteredRates keep u)
    have hmoved : read (write (write m (p + 1) [UInt8.ofNat (newRates keep u.body).length])
        (p + 2) (newRates keep u.body)) (p + 2 + u.body.length) (encode post).length =
        encode post := by
      refine ((holds_tail hhere).right.congr fun i hi _ => hupdated.above i ?_).read
      rw [List.length_nil]
      exact Nat.le_trans (Nat.add_le_add_left hcut _) hi
    have hremain : u32Sub a.bytes.length (p + 2 + u.body.length - a.ies) =
        (encode post).length := by
      rw [u32Sub_of_le (by omega)]
      omega
    have hlen : u32Sub a.bytes.length (u.body.length - (newRates keep u.body).length) +
        u.body.length = a.bytes.length + (newRates keep u.body).length := by
      rw [u32Sub_of_le (by omega)]
      omega
    rw [rtwFilterSuppportRateie, search_limit, fixed_offset, hfind]
    simp only [← hp, holds_len hhere, hbody, hremain, hmoved]
    refine ⟨(hupdated.move _).edited h hat hp hlen, ?_, by omega⟩
    rw [length_newRates]

theorem Edited.unique {a : IeArea} {ts us : List Element} {r : Mem × ℕ} (h : Edited m a ts r)
    (h' : Edited m a us r) : ts = us := by
  have hlen := h.iesLen.symm.trans h'.iesLen
  have hsame : a.fixed ++ encode ts = a.fixed ++ encode us := by
    rw [← h.mem.read, hlen, h'.mem.read]
  exact encode_injective (List.append_cancel_left hsame)

structure Filtered (m : Mem) (a : BssIes) (keep : Keep) (f : RateFilter) (supp : Content) :
    Prop where
  rates : RatesKept keep eidSuppRates a.elements supp
  edited : Edited m a.toIeArea (replaceFirst (supp.element eidSuppRates) a.elements)
    (f.mem, f.ieLength)
  inLocal : (∀ i ∈ f.localWrites, i < lengthRatesEx) ↔
    ∀ t ∈ firstOf eidSuppRates a.elements, (t.body.filter keep.keeps).length ≤ lengthRatesEx
  shrinks : f.ieLength ≤ a.bytes.length

theorem rtwFilterSuppportRateie_filtered (keep : Keep) (h : a.Stored m) :
    ∃ supp, Filtered m a keep (rtwFilterSuppportRateie m a.ies a.bytes.length keep) supp := by
  cases hfirst : firstOf eidSuppRates a.elements with
  | none =>
    have habsent (c : Content) : replaceFirst (c.element eidSuppRates) a.elements = a.elements :=
      replaceFirst_absent (firstOf_absent.mp hfirst)
    rw [filter_absent h hfirst]
    refine ⟨⟨[], Nat.succ_pos _⟩, ?_, ?_, ?_, Nat.le_refl _⟩
    · intro t ht
      exact absurd (hfirst.symm.trans ht) nofun
    · rw [habsent]
      exact ⟨h, rfl, fun _ _ => rfl⟩
    · rw [hfirst]
      exact iff_of_true nofun nofun
  | some t =>
    obtain ⟨hedited, hlocal, hshrinks⟩ := filter_first keep h hfirst
    refine ⟨filteredRates keep t, ?_, hedited, ?_, hshrinks⟩
    · intro u hu
      obtain rfl : t = u := Option.some.inj (hfirst.symm.trans hu)
      exact newRates_rates keep t.body
    · rw [hlocal, hfirst]
      simp only [List.mem_range, Option.mem_some_iff, forall_eq']
      exact forall_lt_iff_le

theorem Filtered.inBuffer {f : RateFilter} {supp : Content} (h : Filtered m a keep f supp) (i : ℕ)
    (hi : i < a.ies ∨ a.ies + a.bytes.length ≤ i) : f.mem i = m i := by
  refine h.edited.outside i (hi.imp_right fun hge => ⟨hge, ?_⟩)
  have hlen := h.edited.iesLen
  have hshrinks := h.shrinks
  simp only at hlen
  omega

theorem firstOf_ext (c : Content) (ts : List Element) : firstOf eidExtSuppRates
    (replaceFirst (c.element eidSuppRates) ts) = firstOf eidExtSuppRates ts := by
  have hids : eidSuppRates ≠ eidExtSuppRates := by decide
  exact firstOf_replaced_other hids

theorem ofdm_outcome_iff {f : RateFilter} {supp : Content} (h : Filtered m a .ofdm f supp) :
    RateOutcome m a (some .ofdm) f ↔ RatesFit .ofdm a.elements := by
  constructor
  · rintro ⟨⟨_, ⟨supp', ext, _, hext, rfl⟩, hedited⟩, _, hlocal⟩
    refine ⟨h.inLocal.mp hlocal, nofun, fun _ t ht => ?_⟩
    have hsame : replaceFirst (supp.element eidSuppRates) a.elements =
        replaceFirst (ext.element eidExtSuppRates)
          (replaceFirst (supp'.element eidSuppRates) a.elements) := h.edited.unique hedited
    have hthere : firstOf eidExtSuppRates
        (replaceFirst (supp'.element eidSuppRates) a.elements) = some t :=
      (firstOf_ext supp' _).trans ht
    have hreplaced := firstOf_replaced (s := ext.element eidExtSuppRates) hthere
    have hbody : t = ext.element eidExtSuppRates := by
      refine Option.some.inj (Eq.trans ?_ hreplaced)
      exact (((congrArg _ hsame).symm.trans (firstOf_ext supp _)).trans ht).symm
    have hkept := congrArg List.length (hext t ht)
    rw [List.length_map, List.length_map] at hkept
    have hlen : t.body.length = ext.bytes.length := congrArg (fun u => u.body.length) hbody
    exact List.length_filter_eq_length_iff.mp (hkept.symm.trans hlen.symm)
  · intro hfit
    refine ⟨⟨_, ?_, h.edited⟩, h.inBuffer, h.inLocal.mpr hfit.room⟩
    cases hfirst : firstOf eidExtSuppRates a.elements with
    | none =>
      refine ⟨supp, ⟨[], Nat.succ_pos _⟩, h.rates, ?_, ?_⟩
      · intro t ht
        exact absurd (hfirst.symm.trans ht) nofun
      · refine (replaceFirst_absent ?_).symm
        exact firstOf_absent.mp ((firstOf_ext supp _).trans hfirst)
    | some t =>
      refine ⟨supp, ⟨t.body, t.short⟩, h.rates, ?_, ?_⟩
      · intro u hu
        obtain rfl : t = u := Option.some.inj (hfirst.symm.trans hu)
        exact congrArg _ (List.filter_eq_self.mpr (hfit.ext rfl t hfirst)).symm
      · have hself : Content.element ⟨t.body, t.short⟩ eidExtSuppRates = t :=
          Element.ext (firstOf_id hfirst).symm rfl
        rw [adjusted, hself]
        refine (replaceFirst_self ?_).symm
        rw [firstOf_id hfirst]
        exact (firstOf_ext supp _).trans hfirst

theorem cck_outcome_iff {f : RateFilter} {supp : Content} (h : Filtered m a .cck f supp)
    (hnone : firstOf eidExtSuppRates a.elements = none) :
    RateOutcome m a (some .cck) f ↔ RatesFit .cck a.elements := by
  constructor
  · exact fun hout => ⟨h.inLocal.mp hout.inLocal, fun _ => hnone, nofun⟩
  · intro hfit
    refine ⟨⟨_, ⟨supp, ⟨[], Nat.succ_pos _⟩, h.rates, ?_, ?_⟩, h.edited⟩, h.inBuffer,
      h.inLocal.mpr hfit.room⟩
    · intro t ht
      exact absurd (hnone.symm.trans ht) nofun
    · refine (List.filter_eq_self.mpr fun t ht => decide_eq_true ?_).symm
      exact firstOf_absent.mp ((firstOf_ext supp _).trans hnone) t ht

theorem edited_limit {ts : List Element} {f : RateFilter}
    (h : Edited m a.toIeArea ts (f.mem, f.ieLength)) :
    ((f.ieLength : ℤ) - beaconIeOffset) = (encode ts).length := by
  have hlen := h.iesLen
  simp only [List.length_append, a.fixedLength] at hlen
  omega

theorem edited_list {ts : List Element} {f : RateFilter}
    (h : Edited m a.toIeArea ts (f.mem, f.ieLength)) :
    Holds f.mem (a.ies + a.fixed.length) (encode ts) := h.mem.right

theorem ext_left_over {f f' : RateFilter} {supp : Content} (h : Filtered m a .cck f supp)
    (hfirst : firstOf eidExtSuppRates a.elements = some t)
    (hlen : f'.ieLength = u32Sub f.ieLength t.body.length) :
    ¬ RateOutcome m a (some .cck) f' := by
  rintro ⟨⟨_, ⟨supp', ext, hrates, _, rfl⟩, hedited⟩, _, _⟩
  have hsize : supp.bytes.length = supp'.bytes.length ∨
      firstOf eidSuppRates a.elements = none := by
    cases hsupp : firstOf eidSuppRates a.elements with
    | none => exact .inr rfl
    | some u =>
      have hsame := congrArg List.length ((h.rates u hsupp).trans (hrates u hsupp).symm)
      rw [List.length_map, List.length_map] at hsame
      exact .inl hsame
  have hequal : (encode (replaceFirst (supp.element eidSuppRates) a.elements)).length =
      (encode (replaceFirst (supp'.element eidSuppRates) a.elements)).length := by
    rcases hsize with hsame | hnone
    · exact length_replaceFirst hsame
    · have habsent (c : Content) : replaceFirst (c.element eidSuppRates) a.elements = a.elements :=
        replaceFirst_absent (firstOf_absent.mp hnone)
      rw [habsent, habsent]
  have hthere : firstOf eidExtSuppRates
      (replaceFirst (supp'.element eidSuppRates) a.elements) = some t :=
    (firstOf_ext supp' _).trans hfirst
  have hwithout := length_without hthere
  have hbefore := h.edited.iesLen
  have hafter := hedited.iesLen
  simp only [List.length_append] at hbefore hafter
  rw [hlen, u32Sub_of_le (by rw [Element.length_bytes] at hwithout; omega)] at hafter
  rw [Element.length_bytes] at hwithout
  simp only [adjusted] at hafter
  omega

theorem rate_of_filter {dsConfig mode : ℕ} {f : RateFilter} (networkType : ℕ)
    (hrun : ∀ fuel, rtwUpdateRateBymode m a.ies a.bytes.length dsConfig mode fuel =
      some (setNetworkType f networkType)) :
    RateLaw m a dsConfig mode ↔ RateOutcome m a (modeKeeps dsConfig mode) f := by
  constructor
  · rintro ⟨fuel, r, hr, hout⟩
    rw [hrun fuel] at hr
    rw [← Option.some.inj hr] at hout
    exact hout
  · exact fun h => ⟨0, _, hrun 0, h⟩

theorem rateLaw_iff (dsConfig mode : ℕ) (h : a.Stored m) :
    RateLaw m a dsConfig mode ↔ ∀ keep ∈ modeKeeps dsConfig mode, RatesFit keep a.elements := by
  cases Decidable.eq_or_ne mode wireless11B with
  | inl hmode =>
    have hkeeps : modeKeeps dsConfig mode = some .cck := if_pos hmode
    obtain ⟨supp, hfiltered⟩ := rtwFilterSuppportRateie_filtered .cck h
    rw [hkeeps]
    simp only [Option.mem_some_iff, forall_eq']
    cases hfirst : firstOf eidExtSuppRates a.elements with
    | none =>
      rw [← cck_outcome_iff hfiltered hfirst, ← hkeeps]
      refine rate_of_filter wireless11B fun fuel => ?_
      have hfind := rtwGetIe_absent (edited_list hfiltered.edited)
        (firstOf_absent.mp ((firstOf_ext supp _).trans hfirst))
      rw [rtwUpdateRateBymode, if_pos hmode]
      simp only [edited_limit hfiltered.edited, fixed_offset, hfind]
    | some t =>
      refine iff_of_false ?_ fun hfit => absurd ((hfit.noExt rfl).symm.trans hfirst) nofun
      rintro ⟨fuel, r, hr, hout⟩
      have hthere := (firstOf_ext supp a.elements).trans hfirst
      rcases exists_firstAt eidExtSuppRates
          (replaceFirst (supp.element eidSuppRates) a.elements) with hnone | ⟨pre, u, post, hat⟩
      · exact absurd (hthere.symm.trans (firstOf_absent.mpr hnone)) nofun
      · obtain rfl : u = t := Option.some.inj ((firstOf_first hat).symm.trans hthere)
        have hlist := edited_list hfiltered.edited
        have hfind := rtwGetIe_first hlist hat
        have hlen := holds_len (holds_elements (hat.split ▸ hlist))
        rw [rtwUpdateRateBymode, if_pos hmode] at hr
        simp only [edited_limit hfiltered.edited, fixed_offset, hfind, hlen] at hr
        obtain ⟨removal, _, rfl⟩ := Option.map_eq_some_iff.mp hr
        rw [hkeeps] at hout
        exact ext_left_over hfiltered hfirst rfl hout
  | inr hmode =>
    obtain ⟨supp, hfiltered⟩ := rtwFilterSuppportRateie_filtered .ofdm h
    cases Decidable.em (14 < dsConfig ∨ mode &&& wireless11B = 0) with
    | inl hofdm =>
      have hkeeps : modeKeeps dsConfig mode = some .ofdm := by
        rw [modeKeeps, if_neg hmode, if_pos hofdm]
      rw [hkeeps]
      simp only [Option.mem_some_iff, forall_eq']
      rw [← ofdm_outcome_iff hfiltered, ← hkeeps]
      cases Nat.lt_or_ge 14 dsConfig with
      | inl hchannel =>
        refine rate_of_filter wireless11A fun fuel => ?_
        rw [rtwUpdateRateBymode, if_neg hmode, if_pos hchannel]
      | inr hchannel =>
        refine rate_of_filter wireless11G fun fuel => ?_
        have hnoB := hofdm.resolve_left (Nat.not_lt.mpr hchannel)
        rw [rtwUpdateRateBymode, if_neg hmode, if_neg (Nat.not_lt.mpr hchannel), if_pos hnoB]
    | inr hall =>
      have hkeeps : modeKeeps dsConfig mode = none := by
        rw [modeKeeps, if_neg hmode, if_neg hall]
      rw [hkeeps]
      refine iff_of_true ⟨0, setNetworkType ⟨m, a.bytes.length, []⟩ wireless11BG, ?_, ?_⟩ nofun
      · rw [not_or] at hall
        rw [rtwUpdateRateBymode, if_neg hmode, if_neg hall.1, if_neg hall.2]
      · rw [hkeeps]
        exact ⟨⟨_, rfl, h, rfl, fun _ _ => rfl⟩, fun _ _ => rfl, nofun⟩

end Filter

theorem rate_bymode_iff (m : Mem) (a : BssIes) (dsConfig mode : ℕ) (h : a.Stored m) :
    RateLaw m a dsConfig mode ↔ ∀ keep ∈ modeKeeps dsConfig mode, RatesFit keep a.elements :=
  rateLaw_iff dsConfig mode h

def bssOf (elements : List Element) : BssIes where
  toIeArea := areaOf (List.replicate 12 0) elements
  fixedLength := rfl

def mixedBss : BssIes := bssOf [⟨1, [0x82, 0x0c], by decide⟩, ⟨50, [0x30], by decide⟩]

theorem rate_bymode_iff_mixed : RateLaw mixedBss.image mixedBss 1 2 ↔
    ∀ keep ∈ modeKeeps 1 2, RatesFit keep mixedBss.elements :=
  rate_bymode_iff _ _ _ _ (.of_read (by decide))

def crowdedBss : BssIes := bssOf [⟨1, List.replicate 17 0x82, by decide⟩]

def cckExtBss : BssIes := bssOf [⟨1, [0x0c], by decide⟩, ⟨50, [0x82], by decide⟩]

theorem rates_overflow_and_stay : ¬ RateLaw crowdedBss.image crowdedBss 1 1 ∧
    ¬ RateLaw mixedBss.image mixedBss 1 1 ∧ ¬ RateLaw cckExtBss.image cckExtBss 1 2 := by
  refine ⟨fun h => ?_, fun h => ?_, fun h => ?_⟩
  · have hfit := (rateLaw_iff 1 1 (.of_read (by decide))).mp h .cck rfl
    exact absurd (hfit.room _ rfl) (by decide)
  · have hfit := (rateLaw_iff 1 1 (.of_read (by decide))).mp h .cck rfl
    exact absurd (hfit.noExt rfl) nofun
  · have hfit := (rateLaw_iff 1 2 (.of_read (by decide))).mp h .ofdm rfl
    exact absurd (hfit.ext rfl _ rfl 0x82 List.mem_cons_self) (by decide)

end Ie
