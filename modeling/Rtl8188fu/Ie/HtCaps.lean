import Mathlib.Data.UInt
import Rtl8188fu.Lib.ByteMemory

namespace Ie

open ByteMemory (sweep sweep_inside sweep_outside)

structure VariableIe where
  length : UInt8
  data : ℕ → UInt8

structure HtLink where
  htOption : Bool
  htCapsEnable : UInt8
  htCap : ℕ → UInt8
  ldpcCap : UInt8
  stbcCap : UInt8

structure HtLocal where
  apState : Bool
  rxNss : UInt8
  defaultSupportedMcsSet : ℕ → UInt8

def htCapLen : ℕ := 26

def ampduPara : ℕ := 2

def mcsRate : ℕ := 3

def mcsRateLen : ℕ := 16

def mcsRate1R : ℕ := 0x000000ff

def mcsRate2R : ℕ := 0x0000ffff

def mcsRate3R : ℕ := 0x00ffffff

def mcsRate4R : ℕ := 0xffffffff

def htEnableTx : UInt8 := 2

def htCapTx : UInt8 := 8

def getHtCapEleLdpcCap (data : ℕ → UInt8) : UInt8 := data 0 &&& 1

def getHtCapEleRxStbc (data : ℕ → UInt8) : UInt8 := data 1 &&& 3

def combineAmpdu (own peer : UInt8) : UInt8 :=
  let maxAmpduLen := if own &&& 0x3 > peer &&& 0x3 then peer &&& 0x3 else own &&& 0x3
  let minMpduSpacing := if own &&& 0x1c > peer &&& 0x1c then own &&& 0x1c else peer &&& 0x1c
  maxAmpduLen ||| minMpduSpacing

def combineOctet (data : ℕ → UInt8) (i : ℕ) (own : UInt8) : UInt8 :=
  if i ≠ ampduPara then own &&& data i else combineAmpdu own (data i)

def combineIe (pIE : VariableIe) (caps : ℕ → UInt8) : ℕ → UInt8 :=
  sweep (combineOctet pIE.data) 0 pIE.length.toNat caps

def andMcsSet (mcsSet : ℕ → UInt8) (n : ℕ) (caps : ℕ → UInt8) : ℕ → UInt8 :=
  sweep (fun i own => own &&& mcsSet i) mcsRate n caps

def maskOctet (mask i : ℕ) : UInt8 := UInt8.ofNat (mask >>> (8 * i))

def setMcsRateByMask (caps : ℕ → UInt8) (mask : ℕ) : ℕ → UInt8 :=
  andMcsSet (maskOctet mask) 4 caps

def rxNssMask : UInt8 → Option ℕ
  | 1 => some mcsRate1R
  | 2 => some mcsRate2R
  | 3 => some mcsRate3R
  | 4 => some mcsRate4R
  | _ => none

def limitMcsRate (ctx : HtLocal) (caps : ℕ → UInt8) : ℕ → UInt8 :=
  let caps := andMcsSet ctx.defaultSupportedMcsSet mcsRateLen caps
  match rxNssMask ctx.rxNss with
  | some mask => setMcsRateByMask caps mask
  | none => caps

def htCapsHandler (ctx : HtLocal) (pIE : Option VariableIe) (s : HtLink) : HtLink :=
  match pIE with
  | none => s
  | some pIE =>
    if s.htOption = false then s
    else
      let s := { s with
        htCapsEnable := 1
        htCap := limitMcsRate ctx (combineIe pIE s.htCap) }
      if ctx.apState then
        { s with
          stbcCap :=
            if s.stbcCap &&& htEnableTx ≠ 0 ∧ getHtCapEleRxStbc pIE.data ≠ 0 then htEnableTx
            else 0 }
      else
        { s with
          ldpcCap :=
            if s.ldpcCap &&& htEnableTx ≠ 0 ∧ getHtCapEleLdpcCap pIE.data ≠ 0 then
              htEnableTx ||| htCapTx
            else 0
          stbcCap :=
            if s.stbcCap &&& htEnableTx ≠ 0 ∧ getHtCapEleRxStbc pIE.data ≠ 0 then
              htEnableTx ||| htCapTx
            else 0 }

def peerOctet (pIE : VariableIe) (i : ℕ) : UInt8 :=
  if i < pIE.length.toNat then pIE.data i else 0xff

def streamOctet (rxNss : UInt8) (i : ℕ) : UInt8 :=
  match rxNssMask rxNss with
  | some mask => if i < 4 then maskOctet mask i else 0xff
  | none => 0xff

structure Combined (ctx : HtLocal) (own : ℕ → UInt8) (pIE : VariableIe) (caps : ℕ → UInt8) :
    Prop where
  bitFields : ∀ i < htCapLen, i ≠ ampduPara → ¬(mcsRate ≤ i ∧ i < mcsRate + mcsRateLen) →
    caps i = own i &&& peerOctet pIE i
  mcsSet : ∀ i < mcsRateLen, caps (mcsRate + i) = own (mcsRate + i) &&&
    peerOctet pIE (mcsRate + i) &&& ctx.defaultSupportedMcsSet i &&& streamOctet ctx.rxNss i
  maxAmpduLen : ampduPara < pIE.length.toNat →
    caps ampduPara &&& 0x3 = min (own ampduPara &&& 0x3) (pIE.data ampduPara &&& 0x3)
  minMpduSpacing : ampduPara < pIE.length.toNat →
    caps ampduPara &&& 0x1c = max (own ampduPara &&& 0x1c) (pIE.data ampduPara &&& 0x1c)
  reserved : ampduPara < pIE.length.toNat → caps ampduPara &&& 0xe0 = 0
  absent : pIE.length.toNat ≤ ampduPara → caps ampduPara = own ampduPara

variable {ctx : HtLocal} {pIE : VariableIe} {own caps : ℕ → UInt8} {s : HtLink} {i : ℕ}

theorem and_or_distrib (x y z : UInt8) : (x ||| y) &&& z = x &&& z ||| y &&& z := by
  apply UInt8.toNat.inj
  simp only [UInt8.toNat_and, UInt8.toNat_or]
  exact Nat.and_or_distrib_right _ _ _

theorem combineAmpdu_eq (own peer : UInt8) : combineAmpdu own peer =
    min (own &&& 0x3) (peer &&& 0x3) ||| max (own &&& 0x1c) (peer &&& 0x1c) := by
  simp only [combineAmpdu, UInt8.min_def, UInt8.max_def, gt_iff_lt]
  congr 1
  · split <;> split <;> grind
  · split <;> split <;> grind

theorem min_masked (x y k : UInt8) : ∃ w, min (x &&& k) (y &&& k) = w &&& k := by
  rw [UInt8.min_def]
  split
  · exact ⟨x, rfl⟩
  · exact ⟨y, rfl⟩

theorem max_masked (x y k : UInt8) : ∃ w, max (x &&& k) (y &&& k) = w &&& k := by
  rw [UInt8.max_def]
  split
  · exact ⟨y, rfl⟩
  · exact ⟨x, rfl⟩

theorem combineAmpdu_and (own peer c : UInt8) : ∃ v w : UInt8,
    min (own &&& 0x3) (peer &&& 0x3) = v &&& 0x3 ∧
    max (own &&& 0x1c) (peer &&& 0x1c) = w &&& 0x1c ∧
    combineAmpdu own peer &&& c = v &&& (0x3 &&& c) ||| w &&& (0x1c &&& c) := by
  obtain ⟨v, hv⟩ := min_masked own peer 0x3
  obtain ⟨w, hw⟩ := max_masked own peer 0x1c
  refine ⟨v, w, hv, hw, ?_⟩
  rw [combineAmpdu_eq, hv, hw, and_or_distrib, UInt8.and_assoc, UInt8.and_assoc]

theorem combineAmpdu_len (own peer : UInt8) :
    combineAmpdu own peer &&& 0x3 = min (own &&& 0x3) (peer &&& 0x3) := by
  obtain ⟨v, w, hv, -, hand⟩ := combineAmpdu_and own peer 0x3
  have hlen : (0x3 : UInt8) &&& 0x3 = 0x3 := by decide
  have hspacing : (0x1c : UInt8) &&& 0x3 = 0 := by decide
  rw [hand, hv, hlen, hspacing, UInt8.and_zero, UInt8.or_zero]

theorem combineAmpdu_spacing (own peer : UInt8) :
    combineAmpdu own peer &&& 0x1c = max (own &&& 0x1c) (peer &&& 0x1c) := by
  obtain ⟨v, w, -, hw, hand⟩ := combineAmpdu_and own peer 0x1c
  have hlen : (0x3 : UInt8) &&& 0x1c = 0 := by decide
  have hspacing : (0x1c : UInt8) &&& 0x1c = 0x1c := by decide
  rw [hand, hw, hlen, hspacing, UInt8.and_zero, UInt8.zero_or]

theorem combineAmpdu_reserved (own peer : UInt8) : combineAmpdu own peer &&& 0xe0 = 0 := by
  obtain ⟨v, w, -, -, hand⟩ := combineAmpdu_and own peer 0xe0
  have hlen : (0x3 : UInt8) &&& 0xe0 = 0 := by decide
  have hspacing : (0x1c : UInt8) &&& 0xe0 = 0 := by decide
  rw [hand, hlen, hspacing, UInt8.and_zero, UInt8.and_zero, UInt8.or_zero]

theorem combineIe_eq (pIE : VariableIe) (caps : ℕ → UInt8) (i : ℕ) :
    combineIe pIE caps i =
      if i < pIE.length.toNat then combineOctet pIE.data i (caps i) else caps i := by
  rw [combineIe]
  cases Nat.lt_or_ge i pIE.length.toNat with
  | inl hin =>
    rw [if_pos hin]
    have hset := sweep_inside (a := 0) (combineOctet pIE.data) caps hin
    rwa [Nat.zero_add] at hset
  | inr hout =>
    rw [if_neg (Nat.not_lt.mpr hout)]
    exact sweep_outside _ _ (.inr (by omega))

theorem combineIe_and (hi : i ≠ ampduPara) :
    combineIe pIE caps i = caps i &&& peerOctet pIE i := by
  rw [combineIe_eq, combineOctet, if_pos hi, peerOctet]
  split
  · rfl
  · exact (UInt8.and_neg_one (a := caps i)).symm

theorem limitMcsRate_outside (h : ¬(mcsRate ≤ i ∧ i < mcsRate + mcsRateLen)) :
    limitMcsRate ctx caps i = caps i := by
  have hset : andMcsSet ctx.defaultSupportedMcsSet mcsRateLen caps i = caps i :=
    sweep_outside _ _ (by omega)
  rw [limitMcsRate]
  cases rxNssMask ctx.rxNss with
  | none => exact hset
  | some mask =>
    have hmask : ¬(mcsRate ≤ i ∧ i < mcsRate + 4) := fun hin => h ⟨hin.1, by
      rw [mcsRateLen]
      omega⟩
    exact (sweep_outside _ _ (by omega)).trans hset

theorem limitMcsRate_inside (h : i < mcsRateLen) :
    limitMcsRate ctx caps (mcsRate + i) = caps (mcsRate + i) &&&
      ctx.defaultSupportedMcsSet i &&& streamOctet ctx.rxNss i := by
  have hset : andMcsSet ctx.defaultSupportedMcsSet mcsRateLen caps (mcsRate + i) =
      caps (mcsRate + i) &&& ctx.defaultSupportedMcsSet i := sweep_inside _ _ h
  rw [limitMcsRate, streamOctet]
  cases rxNssMask ctx.rxNss with
  | none => exact hset.trans UInt8.and_neg_one.symm
  | some mask =>
    simp only [setMcsRateByMask]
    cases Nat.lt_or_ge i 4 with
    | inl hlt =>
      rw [if_pos hlt, andMcsSet, sweep_inside _ _ hlt, hset]
    | inr hge =>
      rw [if_neg (Nat.not_lt.mpr hge), andMcsSet, sweep_outside _ _ (by omega), hset]
      exact UInt8.and_neg_one.symm

theorem limited_combined (ctx : HtLocal) (pIE : VariableIe) (own : ℕ → UInt8) :
    Combined ctx own pIE (limitMcsRate ctx (combineIe pIE own)) := by
  have hampdu : limitMcsRate ctx (combineIe pIE own) ampduPara = combineIe pIE own ampduPara :=
    limitMcsRate_outside (by decide)
  have hcombined : ampduPara < pIE.length.toNat →
      combineIe pIE own ampduPara = combineAmpdu (own ampduPara) (pIE.data ampduPara) := by
    intro hin
    rw [combineIe_eq, if_pos hin]
    rfl
  constructor
  · intro i _ hne hout
    rw [limitMcsRate_outside hout, combineIe_and hne]
  · intro i hi
    have hne : mcsRate + i ≠ ampduPara := by
      rw [mcsRate, ampduPara]
      omega
    rw [limitMcsRate_inside hi, combineIe_and hne]
  · intro hin
    rw [hampdu, hcombined hin]
    exact combineAmpdu_len _ _
  · intro hin
    rw [hampdu, hcombined hin]
    exact combineAmpdu_spacing _ _
  · intro hin
    rw [hampdu, hcombined hin]
    exact combineAmpdu_reserved _ _
  · intro hout
    rw [hampdu, combineIe_eq, if_neg (Nat.not_lt.mpr hout)]

theorem limited_frame (hlen : pIE.length.toNat ≤ htCapLen) (hout : htCapLen ≤ i) :
    limitMcsRate ctx (combineIe pIE own) i = own i := by
  have hmcs : ¬(mcsRate ≤ i ∧ i < mcsRate + mcsRateLen) := by
    rw [htCapLen] at hout
    rw [mcsRate, mcsRateLen]
    omega
  rw [limitMcsRate_outside hmcs, combineIe_eq, if_neg (by omega)]

theorem enableTx_iff {p : Prop} [Decidable p] {x : UInt8} (hx : x &&& htEnableTx ≠ 0) :
    (if p then x else 0) &&& htEnableTx ≠ 0 ↔ p := by
  split
  · exact iff_of_true hx ‹_›
  · exact iff_of_false (fun hne => hne UInt8.zero_and) ‹_›

-- LDPC is bit 0 of the first octet and receive STBC in the second, read whatever the length
structure Negotiated (ctx : HtLocal) (pIE : VariableIe) (s s' : HtLink) : Prop where
  combined : Combined ctx s.htCap pIE s'.htCap
  frame : pIE.length.toNat ≤ htCapLen → ∀ i, htCapLen ≤ i → s'.htCap i = s.htCap i
  htOption : s'.htOption = s.htOption
  htCapsEnable : s'.htCapsEnable = 1
  ldpcKept : ctx.apState = true → s'.ldpcCap = s.ldpcCap
  ldpcOwn : s'.ldpcCap &&& htEnableTx ≠ 0 → s.ldpcCap &&& htEnableTx ≠ 0
  ldpcCap : ctx.apState = false → 0 < pIE.length.toNat →
    (s'.ldpcCap &&& htEnableTx ≠ 0 ↔
      s.ldpcCap &&& htEnableTx ≠ 0 ∧ getHtCapEleLdpcCap pIE.data ≠ 0)
  stbcOwn : s'.stbcCap &&& htEnableTx ≠ 0 → s.stbcCap &&& htEnableTx ≠ 0
  stbcCap : 1 < pIE.length.toNat →
    (s'.stbcCap &&& htEnableTx ≠ 0 ↔
      s.stbcCap &&& htEnableTx ≠ 0 ∧ getHtCapEleRxStbc pIE.data ≠ 0)

theorem ht_caps_handler_law (ctx : HtLocal) (pIE : VariableIe) (s : HtLink)
    (hht : s.htOption = true) : Negotiated ctx pIE s (htCapsHandler ctx (some pIE) s) := by
  have hon : ¬s.htOption = false := by
    rw [hht]
    exact Bool.noConfusion
  rw [htCapsHandler, if_neg hon]
  cases hap : ctx.apState with
  | true =>
    have hstbc := enableTx_iff (x := htEnableTx)
      (p := s.stbcCap &&& htEnableTx ≠ 0 ∧ getHtCapEleRxStbc pIE.data ≠ 0) (by decide)
    refine ⟨limited_combined ctx pIE s.htCap, fun hlen i hout => limited_frame hlen hout, rfl, rfl,
      fun _ => rfl, id, ?_, fun h => (hstbc.mp h).1, fun _ => hstbc⟩
    exact fun hsta => absurd (hap.symm.trans hsta) Bool.noConfusion
  | false =>
    have hldpc := enableTx_iff (x := htEnableTx ||| htCapTx)
      (p := s.ldpcCap &&& htEnableTx ≠ 0 ∧ getHtCapEleLdpcCap pIE.data ≠ 0) (by decide)
    have hstbc := enableTx_iff (x := htEnableTx ||| htCapTx)
      (p := s.stbcCap &&& htEnableTx ≠ 0 ∧ getHtCapEleRxStbc pIE.data ≠ 0) (by decide)
    refine ⟨limited_combined ctx pIE s.htCap, fun hlen i hout => limited_frame hlen hout, rfl, rfl,
      ?_, fun h => (hldpc.mp h).1, fun _ _ => hldpc, fun h => (hstbc.mp h).1, fun _ => hstbc⟩
    exact fun hmode => absurd (hap.symm.trans hmode) Bool.noConfusion

def staOneStream : HtLocal where
  apState := false
  rxNss := 1
  defaultSupportedMcsSet := fun i => if i = 0 then 0xff else 0

def htIdle : HtLink where
  htOption := true
  htCapsEnable := 0
  htCap := fun _ => 0xff
  ldpcCap := 0
  stbcCap := 0

theorem ht_caps_handler_law_idle : htIdle.htOption = true ∧
    Negotiated staOneStream ⟨26, fun _ => 0xff⟩ htIdle
      (htCapsHandler staOneStream (some ⟨26, fun _ => 0xff⟩) htIdle) :=
  ⟨rfl, ht_caps_handler_law staOneStream ⟨26, fun _ => 0xff⟩ htIdle rfl⟩

theorem ht_caps_handler_beyond_caps :
    (htCapsHandler staOneStream (some ⟨27, fun _ => 0⟩) htIdle).htCap htCapLen ≠
        htIdle.htCap htCapLen ∧
      (htCapsHandler staOneStream (some ⟨26, fun _ => 0xff⟩) htIdle).htCapsEnable ≠
        htIdle.htCapsEnable ∧
      (htCapsHandler staOneStream (some ⟨26, fun _ => 0xff⟩) htIdle).htCap (mcsRate + 1) ≠
        htIdle.htCap (mcsRate + 1) &&& 0xff ∧
      (htCapsHandler staOneStream (some ⟨26, fun _ => 0⟩) { htIdle with htOption := false }).htCap 0 ≠
        htIdle.htCap 0 &&& 0 := by
  refine ⟨?_, ?_, ?_, ?_⟩ <;> decide

end Ie
