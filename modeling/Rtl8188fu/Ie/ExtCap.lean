import Rtl8188fu.Ie.UpdateIe
import Rtl8188fu.Lib.Run

namespace Ie

def extCapMaxLen : ℕ := 10

structure ExtCap where
  data : ℕ → UInt8
  len : ℕ

inductive ExtCapOp where
  | add (capInfo : UInt8)
  | remove (capInfo : UInt8)
  | parse (m : Mem) (ies iesLen iesOffset : ℕ)

namespace ExtCap

def capBit (capInfo : UInt8) : UInt8 := 1 <<< (capInfo % 8)

def byteOffset (capInfo : UInt8) : ℕ := (capInfo >>> 3).toNat

def rtwAddExtCapInfo (s : ExtCap) (capInfo : UInt8) : ExtCap where
  data := Function.update s.data (byteOffset capInfo)
    (s.data (byteOffset capInfo) ||| capBit capInfo)
  len := if s.len < byteOffset capInfo + 1 then byteOffset capInfo + 1 else s.len

def maxLen (data : ℕ → UInt8) (n : ℕ) : ℕ :=
  (List.range n).foldl (fun len i => if data i ≠ 0 then i + 1 else len) 0

def rtwRemoveExtCapInfo (s : ExtCap) (capInfo : UInt8) : ExtCap :=
  let data := Function.update s.data (byteOffset capInfo)
    (s.data (byteOffset capInfo) &&& ~~~ capBit capInfo)
  ⟨data, maxLen data extCapMaxLen⟩

def extCapIe (m : Mem) (ies iesLen iesOffset : ℕ) : Option Elem :=
  (rtwGetIe m (ies + iesOffset) eidExtCap (((iesLen : ℤ) - iesOffset).bmod (2 ^ 32))).map fun p =>
    ⟨p + 2, (m (p + 1)).toNat⟩

def absorb (s : ExtCap) (m : Mem) (e : Elem) : ExtCap :=
  if s.len = 0 then
    ⟨fun i => if i < e.len then m (e.pos + i) else s.data i, e.len⟩
  else { s with data := fun i => if i < e.len then s.data i ||| m (e.pos + i) else s.data i }

def rtwParseExtCapIe (s : ExtCap) (m : Mem) (ies iesLen iesOffset : ℕ) : ExtCap :=
  match extCapIe m ies iesLen iesOffset with
  | none => s
  | some e => s.absorb m e

def init : ExtCap := ⟨fun _ => 0, 0⟩

def step (s : ExtCap) : ExtCapOp → ExtCap
  | .add capInfo => s.rtwAddExtCapInfo capInfo
  | .remove capInfo => s.rtwRemoveExtCapInfo capInfo
  | .parse m ies iesLen iesOffset => s.rtwParseExtCapIe m ies iesLen iesOffset

def written : ExtCapOp → List ℕ
  | .add capInfo => [byteOffset capInfo]
  | .remove capInfo => [byteOffset capInfo]
  | .parse m ies iesLen iesOffset =>
    match extCapIe m ies iesLen iesOffset with
    | none => []
    | some e => List.range e.len

def caps (s : ExtCap) (i : ℕ) : UInt8 := if i < s.len then s.data i else 0

def octet (m : Mem) (e : Option Elem) (i : ℕ) : UInt8 :=
  match e with
  | none => 0
  | some e => if i < e.len then m (e.pos + i) else 0

def Tight (s : ExtCap) : Prop :=
  (∀ i, s.len ≤ i → i < extCapMaxLen → s.data i = 0) ∧ (s.len = 0 ∨ s.data (s.len - 1) ≠ 0)

def Effect (s s' : ExtCap) : ExtCapOp → Prop
  | .add _ => s'.Tight
  | .remove _ => s'.Tight
  | .parse m ies iesLen iesOffset => ∀ i < extCapMaxLen,
      s'.caps i = s.caps i ||| octet m (extCapIe m ies iesLen iesOffset) i

structure Law (s : ExtCap) (op : ExtCapOp) : Prop where
  inside : ∀ i ∈ written op, i < extCapMaxLen
  lenLe : (s.step op).len ≤ extCapMaxLen
  effect : s.Effect (s.step op) op

def Fits (s : ExtCap) (m : Mem) (e : Elem) : Prop :=
  e.len ≤ extCapMaxLen ∧
    (s.len ≠ 0 → ∀ i < e.len, s.len ≤ i → m (e.pos + i) = 0)

def Regular (s : ExtCap) : ExtCapOp → Prop
  | .add capInfo => byteOffset capInfo < extCapMaxLen ∧
      (s.len ≤ byteOffset capInfo + 1 ∨ s.data (s.len - 1) ≠ 0)
  | .remove capInfo => byteOffset capInfo < extCapMaxLen
  | .parse m ies iesLen iesOffset => ∀ e ∈ extCapIe m ies iesLen iesOffset, s.Fits m e

structure Inv (s : ExtCap) : Prop where
  lenLe : s.len ≤ extCapMaxLen
  above : ∀ i, s.len ≤ i → i < extCapMaxLen → s.data i = 0

variable {s : ExtCap} {capInfo : UInt8} {m : Mem} {e : Elem}

theorem capBit_ne_zero (capInfo : UInt8) : capBit capInfo ≠ 0 := by
  have hlt : (capInfo % 8).toNat < 8 := Nat.mod_lt _ (by decide)
  have hall : ∀ k < 8, (1 : UInt8) <<< UInt8.ofNat k ≠ 0 := by decide
  have hbit := hall _ hlt
  rwa [UInt8.ofNat_toNat] at hbit

theorem maxLen_succ (data : ℕ → UInt8) (n : ℕ) :
    maxLen data (n + 1) = if data n ≠ 0 then n + 1 else maxLen data n := by
  simp only [maxLen, List.range_succ, List.foldl_append, List.foldl_cons, List.foldl_nil]

theorem maxLen_spec (data : ℕ → UInt8) (n : ℕ) :
    maxLen data n ≤ n ∧ (∀ i, maxLen data n ≤ i → i < n → data i = 0) ∧
      (maxLen data n = 0 ∨ data (maxLen data n - 1) ≠ 0) := by
  induction n with
  | zero => exact ⟨Nat.le_refl _, fun i _ hi => absurd hi (Nat.not_lt_zero i), .inl rfl⟩
  | succ n ih =>
    obtain ⟨hle, habove, hlast⟩ := ih
    rw [maxLen_succ]
    cases Decidable.em (data n = 0) with
    | inl hzero =>
      rw [if_neg (not_not.mpr hzero)]
      refine ⟨Nat.le_succ_of_le hle, fun i hi hlt => ?_, hlast⟩
      rcases Nat.lt_succ_iff_lt_or_eq.mp hlt with hlt | rfl
      · exact habove i hi hlt
      · exact hzero
    | inr hset =>
      rw [if_pos hset]
      exact ⟨Nat.le_refl _, fun i hi hlt => absurd hlt (Nat.not_lt.mpr hi), .inr hset⟩

theorem Inv.add_iff (h : s.Inv) :
    (s.rtwAddExtCapInfo capInfo).Tight ↔
      (s.len ≤ byteOffset capInfo + 1 ∨ s.data (s.len - 1) ≠ 0) := by
  have hset : s.data (byteOffset capInfo) ||| capBit capInfo ≠ 0 := by
    intro hzero
    exact capBit_ne_zero capInfo (UInt8.or_eq_zero_iff.mp hzero).2
  simp only [Tight, rtwAddExtCapInfo]
  cases Nat.lt_or_ge s.len (byteOffset capInfo + 1) with
  | inl hlt =>
    rw [if_pos hlt]
    refine iff_of_true ⟨fun i hi hlast => ?_, .inr ?_⟩ (.inl (Nat.le_of_lt hlt))
    · rw [Function.update_of_ne (by omega)]
      exact h.above i (by omega) hlast
    · rw [Nat.add_sub_cancel, Function.update_self]
      exact hset
  | inr hge =>
    rw [if_neg (Nat.not_lt.mpr hge)]
    have habove : ∀ i, s.len ≤ i → i < extCapMaxLen →
        Function.update s.data (byteOffset capInfo)
          (s.data (byteOffset capInfo) ||| capBit capInfo) i = 0 := by
      intro i hi hlast
      rw [Function.update_of_ne (by omega)]
      exact h.above i hi hlast
    rw [and_iff_right habove, or_iff_right (by omega)]
    cases Decidable.em (s.len - 1 = byteOffset capInfo) with
    | inl heq =>
      rw [heq, Function.update_self]
      exact iff_of_true hset (.inl (by omega))
    | inr hne =>
      rw [Function.update_of_ne hne, or_iff_right]
      omega

theorem remove_tight (s : ExtCap) (capInfo : UInt8) : (s.rtwRemoveExtCapInfo capInfo).Tight ∧
    (s.rtwRemoveExtCapInfo capInfo).len ≤ extCapMaxLen := by
  obtain ⟨hle, habove, hlast⟩ := maxLen_spec (s.rtwRemoveExtCapInfo capInfo).data extCapMaxLen
  exact ⟨⟨habove, hlast⟩, hle⟩

theorem absorb_iff (hlen : e.len ≤ extCapMaxLen) :
    (∀ i < extCapMaxLen, (s.absorb m e).caps i = s.caps i ||| octet m (some e) i) ↔
      (s.len ≠ 0 → ∀ i < e.len, s.len ≤ i → m (e.pos + i) = 0) := by
  cases Decidable.em (s.len = 0) with
  | inl hzero =>
    refine iff_of_true (fun i hi => ?_) fun hne => absurd hzero hne
    have hcaps : s.caps i = 0 := if_neg (by omega)
    rw [hcaps, UInt8.zero_or, absorb, if_pos hzero]
    simp only [caps, octet]
    split
    · rfl
    · rfl
  | inr hne =>
    rw [absorb, if_neg hne, forall_prop_of_true hne]
    simp only [caps, octet]
    constructor
    · intro hor i hi hout
      have hlost := hor i (by omega)
      rw [if_neg (Nat.not_lt.mpr hout), if_neg (Nat.not_lt.mpr hout), if_pos hi,
        UInt8.zero_or] at hlost
      exact hlost.symm
    · intro hlow i _
      cases Nat.lt_or_ge i s.len with
      | inl hin =>
        rw [if_pos hin, if_pos hin]
        split
        · rfl
        · exact UInt8.or_zero.symm
      | inr hout =>
        rw [if_neg (Nat.not_lt.mpr hout), if_neg (Nat.not_lt.mpr hout), UInt8.zero_or]
        split
        · rename_i hi
          exact (hlow i hi hout).symm
        · rfl

theorem Inv.add (h : s.Inv) (hin : byteOffset capInfo < extCapMaxLen) :
    (s.rtwAddExtCapInfo capInfo).Inv := by
  have hlen : s.len ≤ (s.rtwAddExtCapInfo capInfo).len ∧
      byteOffset capInfo + 1 ≤ (s.rtwAddExtCapInfo capInfo).len ∧
      (s.rtwAddExtCapInfo capInfo).len ≤ extCapMaxLen := by
    have hle := h.lenLe
    simp only [rtwAddExtCapInfo]
    split <;> omega
  obtain ⟨hgrow, hbit, hle⟩ := hlen
  refine ⟨hle, fun i hi hlast => ?_⟩
  have hdata : (s.rtwAddExtCapInfo capInfo).data i = s.data i :=
    Function.update_of_ne (by omega) _ _
  rw [hdata]
  exact h.above i (by omega) hlast

theorem inv_remove (s : ExtCap) (capInfo : UInt8) : (s.rtwRemoveExtCapInfo capInfo).Inv := by
  obtain ⟨htight, hle⟩ := remove_tight s capInfo
  exact ⟨hle, htight.1⟩

theorem Inv.absorb (h : s.Inv) (hfits : s.Fits m e) : (s.absorb m e).Inv := by
  obtain ⟨hlen, hlow⟩ := hfits
  rw [ExtCap.absorb]
  cases Decidable.em (s.len = 0) with
  | inl hzero =>
    rw [if_pos hzero]
    refine ⟨hlen, fun i hi hlast => ?_⟩
    have hout : ¬i < e.len := Nat.not_lt.mpr hi
    simp only [if_neg hout]
    exact h.above i (by omega) hlast
  | inr hne =>
    rw [if_neg hne]
    refine ⟨h.lenLe, fun i hi hlast => ?_⟩
    have hzero : s.data i = 0 := h.above i hi hlast
    simp only [hzero, UInt8.zero_or]
    split
    · rename_i hin
      exact hlow hne i hin hi
    · rfl

theorem inv_init : init.Inv :=
  ⟨Nat.zero_le _, fun _ _ _ => rfl⟩

theorem Inv.law_add (h : s.Inv) (capInfo : UInt8) :
    s.Law (.add capInfo) ↔ s.Regular (.add capInfo) := by
  constructor
  · intro hlaw
    exact ⟨hlaw.inside _ (List.mem_singleton_self _), h.add_iff.mp hlaw.effect⟩
  · intro hregular
    obtain ⟨hin, hlast⟩ := hregular
    refine ⟨fun i hi => ?_, (h.add hin).lenLe, h.add_iff.mpr hlast⟩
    rw [List.mem_singleton.mp hi]
    exact hin

theorem law_remove (s : ExtCap) (capInfo : UInt8) :
    s.Law (.remove capInfo) ↔ s.Regular (.remove capInfo) := by
  obtain ⟨htight, hle⟩ := remove_tight s capInfo
  constructor
  · intro hlaw
    exact hlaw.inside _ (List.mem_singleton_self _)
  · intro hin
    refine ⟨fun i hi => ?_, hle, htight⟩
    rw [List.mem_singleton.mp hi]
    exact hin

theorem written_parse {ies iesLen iesOffset : ℕ}
    (hfound : extCapIe m ies iesLen iesOffset = some e) :
    written (.parse m ies iesLen iesOffset) = List.range e.len := by
  show (match extCapIe m ies iesLen iesOffset with
    | none => []
    | some e => List.range e.len) = _
  rw [hfound]

theorem written_none {ies iesLen iesOffset : ℕ}
    (hfound : extCapIe m ies iesLen iesOffset = none) :
    written (.parse m ies iesLen iesOffset) = [] := by
  show (match extCapIe m ies iesLen iesOffset with
    | none => []
    | some e => List.range e.len) = _
  rw [hfound]

theorem step_parse {ies iesLen iesOffset : ℕ}
    (hfound : extCapIe m ies iesLen iesOffset = some e) :
    s.step (.parse m ies iesLen iesOffset) = s.absorb m e := by
  show (match extCapIe m ies iesLen iesOffset with
    | none => s
    | some e => s.absorb m e) = _
  rw [hfound]

theorem step_none {ies iesLen iesOffset : ℕ}
    (hfound : extCapIe m ies iesLen iesOffset = none) :
    s.step (.parse m ies iesLen iesOffset) = s := by
  show (match extCapIe m ies iesLen iesOffset with
    | none => s
    | some e => s.absorb m e) = _
  rw [hfound]

theorem Inv.law_parse (h : s.Inv) (m : Mem) (ies iesLen iesOffset : ℕ) :
    s.Law (.parse m ies iesLen iesOffset) ↔ s.Regular (.parse m ies iesLen iesOffset) := by
  cases hfound : extCapIe m ies iesLen iesOffset with
  | none =>
    refine iff_of_true ⟨fun i hi => ?_, ?_, fun i _ => ?_⟩ fun e he => ?_
    · rw [written_none hfound] at hi
      exact absurd hi List.not_mem_nil
    · rw [step_none hfound]
      exact h.lenLe
    · rw [step_none hfound]
      simp only [hfound, octet, UInt8.or_zero]
    · rw [hfound] at he
      exact absurd he (Option.not_mem_none e)
  | some e =>
    have hregular : s.Regular (.parse m ies iesLen iesOffset) ↔ s.Fits m e := by
      simp only [Regular, hfound, Option.mem_some_iff, forall_eq']
    rw [hregular]
    constructor
    · intro hlaw
      have hlen : e.len ≤ extCapMaxLen := by
        by_contra hlong
        have hin := hlaw.inside extCapMaxLen (by
          rw [written_parse hfound]
          exact List.mem_range.mpr (Nat.lt_of_not_le hlong))
        exact Nat.lt_irrefl _ hin
      have heffect := hlaw.effect
      rw [step_parse hfound] at heffect
      simp only [Effect, hfound] at heffect
      exact ⟨hlen, (absorb_iff hlen).mp heffect⟩
    · intro hfits
      refine ⟨fun i hi => ?_, ?_, ?_⟩
      · rw [written_parse hfound, List.mem_range] at hi
        exact Nat.lt_of_lt_of_le hi hfits.1
      · rw [step_parse hfound]
        exact (h.absorb hfits).lenLe
      · rw [step_parse hfound]
        simp only [Effect, hfound]
        exact (absorb_iff hfits.1).mpr hfits.2

theorem Inv.law_iff (h : s.Inv) (op : ExtCapOp) : s.Law op ↔ s.Regular op := by
  cases op with
  | add capInfo => exact h.law_add capInfo
  | remove capInfo => exact law_remove s capInfo
  | parse m ies iesLen iesOffset => exact h.law_parse m ies iesLen iesOffset

theorem Inv.step (h : s.Inv) {op : ExtCapOp} (hregular : s.Regular op) : (s.step op).Inv := by
  cases op with
  | add capInfo => exact h.add hregular.1
  | remove capInfo => exact inv_remove s capInfo
  | parse m ies iesLen iesOffset =>
    cases hfound : extCapIe m ies iesLen iesOffset with
    | none =>
      rw [step_none hfound]
      exact h
    | some e =>
      rw [step_parse hfound]
      exact h.absorb (hregular e hfound)

theorem ext_cap_law (ops : List ExtCapOp) :
    Run.Each step Law init ops ↔ Run.Each step Regular init ops := by
  apply Run.each_iff step Law Regular Inv
  · exact fun s op h => h.law_iff op
  · exact fun s op h hlaw => h.step ((h.law_iff op).mp hlaw)
  · exact inv_init

def parseOf (body : List UInt8) : ExtCapOp :=
  .parse (memOf (eidExtCap :: UInt8.ofNat body.length :: body) 0x1000) 0x1000 (body.length + 2) 0

theorem parsed_capabilities_leave_array :
    ¬Run.Each step Law init [parseOf (List.replicate 11 1)] ∧
      ¬Run.Each step Law init [parseOf [1], parseOf [0, 4]] ∧
      ¬Run.Each step Law init [parseOf [0, 0], .add 0] := by
  refine ⟨fun hlaw => ?_, fun hlaw => ?_, fun hlaw => ?_⟩
  · have hout : 10 ∈ written (parseOf (List.replicate 11 1)) := by decide
    have hin := hlaw.1.inside 10 hout
    exact absurd hin (by decide)
  · have hlost := hlaw.2.1.effect 1 (by decide)
    exact absurd hlost (by decide)
  · have htight := hlaw.2.1.effect
    exact absurd htight.2 (by decide)

end ExtCap

end Ie
