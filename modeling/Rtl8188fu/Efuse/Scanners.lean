import Rtl8188fu.Efuse.CurrentSize

namespace Efuse

variable {content : List UInt8}

def AtHeader (content : List UInt8) (a : ℕ) : Prop :=
  a < efuseRealContentLen ∧ oneByteRead content a ≠ 0xFF

instance atHeaderDecidable (content : List UInt8) (a : ℕ) : Decidable (AtHeader content a) :=
  inferInstanceAs (Decidable (_ ∧ _))

def afterPacket (content : List UInt8) (a : ℕ) : ℕ :=
  let header := oneByteRead content a
  if extHeader header then
    let extHdr := oneByteRead content (a + 1)
    if allWordsDisabled extHdr then a + 2
    else a + 2 + calculateWordCnts (extHdr &&& 0x0F) * 2
  else a + 1 + calculateWordCnts (header &&& 0x0F) * 2

def sizeNext (content : List UInt8) (a : ℕ) : ℕ :=
  let header := oneByteRead content a
  if extHeader header ∧ allWordsDisabled (oneByteRead content (a + 1)) then a + 1
  else afterPacket content a

theorem lt_afterPacket (content : List UInt8) (a : ℕ) : a < afterPacket content a := by
  simp only [afterPacket]
  split
  · split
    · omega
    · omega
  · omega

def readStop (content : List UInt8) (a : ℕ) : ℕ :=
  if AtHeader content a then readStop content (afterPacket content a) else a
termination_by efuseRealContentLen - a
decreasing_by
  rename_i h
  have hlt := lt_afterPacket content a
  have ha := h.1
  omega

inductive Reached (content : List UInt8) : ℕ → ℕ → Prop where
  | here (a : ℕ) : Reached content a a
  | next {a b : ℕ} : AtHeader content a → Reached content (afterPacket content a) b →
    Reached content a b

theorem readStop_header {a : ℕ} (h : AtHeader content a) :
    readStop content a = readStop content (afterPacket content a) := by
  rw [readStop, if_pos h]

theorem readStop_end {a : ℕ} (h : ¬ AtHeader content a) : readStop content a = a := by
  rw [readStop, if_neg h]

theorem le_readStop (content : List UInt8) (a : ℕ) : a ≤ readStop content a := by
  induction a using readStop.induct content with
  | case1 a h ih =>
    have hlt := lt_afterPacket content a
    rw [readStop_header h]
    omega
  | case2 a h => exact Nat.le_of_eq (readStop_end h).symm

theorem Reached.readStop_eq {a b : ℕ} (h : Reached content a b) :
    readStop content a = readStop content b := by
  induction h with
  | here a => rfl
  | next hat _ ih => rw [readStop_header hat, ih]

theorem readLoop_header {a : ℕ} (tbl : Table) (h : AtHeader content a) :
    ∃ tbl', readLoop content a tbl = readLoop content (afterPacket content a) tbl' := by
  conv =>
    enter [1, tbl']
    lhs
    rw [readLoop]
  simp only [if_pos h.1, if_neg h.2, afterPacket]
  cases hext : extHeader (oneByteRead content a) with
  | false =>
    simp only [Bool.false_eq_true, if_false, readSection_fst]
    exact ⟨_, rfl⟩
  | true =>
    simp only [if_true]
    cases hall : allWordsDisabled (oneByteRead content (a + 1)) with
    | false =>
      simp only [Bool.false_eq_true, if_false, readSection_fst]
      exact ⟨_, rfl⟩
    | true =>
      simp only [if_true]
      exact ⟨_, rfl⟩

theorem readLoop_fst (content : List UInt8) (a : ℕ) (tbl : Table) :
    (readLoop content a tbl).1 =
      if readStop content a < efuseRealContentLen then readStop content a + 1
      else readStop content a := by
  induction a using readStop.induct content generalizing tbl with
  | case1 a h ih =>
    obtain ⟨tbl', htbl⟩ := readLoop_header tbl h
    rw [htbl, ih tbl', readStop_header h]
  | case2 a h =>
    rw [readStop_end h, readLoop]
    cases Nat.lt_or_ge a efuseRealContentLen with
    | inl hlt =>
      have hff : oneByteRead content a = 0xFF := by
        by_contra hne
        exact h ⟨hlt, hne⟩
      simp only [if_pos hlt, if_pos hff]
    | inr hge => simp only [if_neg (Nat.not_lt.mpr hge)]

theorem currentSizeLoop_end {a : ℕ} (count : ℕ) (h : ¬ AtHeader content a) :
    currentSizeLoop content 0 a count = some a := by
  rw [currentSizeLoop]
  cases Nat.lt_or_ge a efuseRealContentLen with
  | inl hlt =>
    have hff : oneByteRead content a = 0xFF := by
      by_contra hne
      exact h ⟨hlt, hne⟩
    simp only [if_pos hlt, if_pos hff]
  | inr hge => rw [if_neg (Nat.not_lt.mpr hge)]

theorem currentSizeLoop_header {a : ℕ} (count : ℕ) (h : AtHeader content a) :
    currentSizeLoop content 0 a count = currentSizeLoop content 0 (sizeNext content a) count := by
  have hstart : ¬ ((0 : ℕ) ≠ 0 ∧ a = 0) := fun hne => hne.1 rfl
  conv_lhs => rw [currentSizeLoop]
  simp only [if_pos h.1, if_neg h.2, if_neg hstart, sizeNext, afterPacket]
  cases hext : extHeader (oneByteRead content a) with
  | false =>
    simp only [Bool.false_eq_true, if_false, false_and]
    exact congrArg (currentSizeLoop content 0 · count) (by omega)
  | true =>
    cases hall : allWordsDisabled (oneByteRead content (a + 1)) with
    | false =>
      simp only [Bool.false_eq_true, if_false, if_true, and_false]
      exact congrArg (currentSizeLoop content 0 · count) (by omega)
    | true => simp only [if_true, and_self]

theorem currentSizeLoop_isSome (content : List UInt8) (a count : ℕ) :
    ∃ size, currentSizeLoop content 0 a count = some size := by
  induction h : efuseRealContentLen - a using Nat.strongRecOn generalizing a with
  | _ k ih =>
    cases Decidable.em (AtHeader content a) with
    | inr hend => exact ⟨a, currentSizeLoop_end count hend⟩
    | inl hat =>
      have hlt : a < sizeNext content a := by
        have hafter := lt_afterPacket content a
        simp only [sizeNext]
        split
        · exact Nat.lt_succ_self a
        · exact hafter
      have ha := hat.1
      rw [currentSizeLoop_header count hat]
      exact ih _ (by omega) _ rfl

def Resumes (content : List UInt8) (a : ℕ) : Prop :=
  extHeader (oneByteRead content a) = true →
    allWordsDisabled (oneByteRead content (a + 1)) = true →
      AtHeader content (a + 1) ∧ (a + 2 = efuseRealContentLen →
        extHeader (oneByteRead content (a + 1)) = true →
          allWordsDisabled (oneByteRead content (a + 2)) = true)

theorem afterPacket_disabled {a : ℕ} (hext : extHeader (oneByteRead content a) = true)
    (hall : allWordsDisabled (oneByteRead content (a + 1)) = true) :
    afterPacket content a = a + 2 ∧ sizeNext content a = a + 1 := by
  simp only [sizeNext, afterPacket, hext, hall, if_true, and_self]

theorem wordCnts_of_disabled {b : UInt8} (h : allWordsDisabled b = true) :
    calculateWordCnts (b &&& 0x0F) = 0 := by
  have hwords : b &&& 0x0F = 0x0F := by simpa [allWordsDisabled] using h
  rw [hwords, calculateWordCnts_disabled]

theorem currentSizeLoop_second {a : ℕ} (count : ℕ)
    (hall : allWordsDisabled (oneByteRead content (a + 1)) = true)
    (hat : AtHeader content (a + 1)) (hin : a + 2 < efuseRealContentLen ∨
      extHeader (oneByteRead content (a + 1)) = false ∨
      allWordsDisabled (oneByteRead content (a + 2)) = true) :
    currentSizeLoop content 0 (a + 1) count = currentSizeLoop content 0 (a + 2) count := by
  rw [currentSizeLoop_header count hat]
  cases hext : extHeader (oneByteRead content (a + 1)) with
  | false =>
    have hnext : sizeNext content (a + 1) = a + 2 := by
      simp only [sizeNext, afterPacket, hext, Bool.false_eq_true, if_false, false_and,
        wordCnts_of_disabled hall]
    rw [hnext]
  | true =>
    cases hall' : allWordsDisabled (oneByteRead content (a + 2)) with
    | true => rw [(afterPacket_disabled hext hall').2]
    | false =>
      have hlt : a + 2 < efuseRealContentLen := by
        rcases hin with hlt | hfalse | htrue
        · exact hlt
        · exact absurd (hfalse.symm.trans hext) Bool.false_ne_true
        · exact absurd (hall'.symm.trans htrue) Bool.false_ne_true
      have hne : oneByteRead content (a + 2) ≠ 0xFF := by
        intro hff
        rw [hff] at hall'
        exact absurd hall' (by decide)
      have hplain : extHeader (oneByteRead content (a + 2)) = false := by
        cases hext' : extHeader (oneByteRead content (a + 2)) with
        | false => rfl
        | true => exact absurd (hall'.symm.trans (disabled_of_extHeader hext')) Bool.false_ne_true
      rw [currentSizeLoop_header (a := a + 2) count ⟨hlt, hne⟩]
      refine congrArg (currentSizeLoop content 0 · count) ?_
      simp only [sizeNext, afterPacket, hext, hplain, hall', Bool.false_eq_true, if_false, if_true,
        and_false, false_and]

theorem currentSizeLoop_resumes {a : ℕ} (count : ℕ) (hat : AtHeader content a)
    (h : Resumes content a) :
    currentSizeLoop content 0 a count =
      currentSizeLoop content 0 (afterPacket content a) count := by
  rw [currentSizeLoop_header count hat]
  cases Decidable.em (extHeader (oneByteRead content a) = true ∧
      allWordsDisabled (oneByteRead content (a + 1)) = true) with
  | inr hplain => rw [sizeNext, if_neg hplain]
  | inl hdis =>
    obtain ⟨hext, hall⟩ := hdis
    obtain ⟨hsecond, hlast⟩ := h hext hall
    rw [(afterPacket_disabled hext hall).1, (afterPacket_disabled hext hall).2]
    refine currentSizeLoop_second count hall hsecond ?_
    cases Nat.lt_or_ge (a + 2) efuseRealContentLen with
    | inl hlt => exact .inl hlt
    | inr hge =>
      cases hext' : extHeader (oneByteRead content (a + 1)) with
      | false => exact .inr (.inl rfl)
      | true => exact .inr (.inr (hlast (by have := hsecond.1; omega) hext'))

theorem currentSizeLoop_of_not_resumes {a : ℕ} (count : ℕ) (hat : AtHeader content a)
    (h : ¬ Resumes content a) :
    currentSizeLoop content 0 a count ≠ some (readStop content a) := by
  have hnot : extHeader (oneByteRead content a) = true ∧
      allWordsDisabled (oneByteRead content (a + 1)) = true ∧ (AtHeader content (a + 1) →
        a + 2 = efuseRealContentLen ∧ extHeader (oneByteRead content (a + 1)) = true ∧
          allWordsDisabled (oneByteRead content (a + 2)) = false) := by
    simp only [Resumes, Classical.not_imp, not_and, Bool.not_eq_true] at h
    exact h
  obtain ⟨hext, hall, hlast⟩ := hnot
  obtain ⟨hafter, hnext⟩ := afterPacket_disabled hext hall
  rw [currentSizeLoop_header count hat, hnext, readStop_header hat, hafter]
  cases Decidable.em (AtHeader content (a + 1)) with
  | inr hend =>
    have hle := le_readStop content (a + 2)
    rw [currentSizeLoop_end count hend]
    intro heq
    have := Option.some.inj heq
    omega
  | inl hsecond =>
    obtain ⟨hlen, hext', hall'⟩ := hlast hsecond
    have hout : ∀ b, efuseRealContentLen ≤ b → ¬ AtHeader content b :=
      fun b hb hhead => absurd hhead.1 (by omega)
    have hpast : sizeNext content (a + 1) =
        a + 3 + calculateWordCnts (oneByteRead content (a + 2) &&& 0x0F) * 2 := by
      simp only [sizeNext, afterPacket, hext', hall', Bool.false_eq_true, if_false, if_true,
        and_false]
    rw [currentSizeLoop_header count hsecond, hpast, currentSizeLoop_end count (hout _ (by omega)),
      readStop_end (hout _ (by omega))]
    intro heq
    have := Option.some.inj heq
    omega

theorem currentSizeLoop_eq_readStop (content : List UInt8) (a count : ℕ) :
    currentSizeLoop content 0 a count = some (readStop content a) ↔
      ∀ b, Reached content a b → AtHeader content b → Resumes content b := by
  induction a using readStop.induct content with
  | case2 a h =>
    refine iff_of_true ?_ fun b hb hhead => ?_
    · rw [currentSizeLoop_end count h, readStop_end h]
    · cases hb with
      | here => exact absurd hhead h
      | next hat _ => exact absurd hat h
  | case1 a h ih =>
    cases Classical.em (Resumes content a) with
    | inr hnot =>
      exact iff_of_false (currentSizeLoop_of_not_resumes count h hnot)
        fun hall => hnot (hall a (.here a) h)
    | inl hres =>
      rw [currentSizeLoop_resumes count h hres, readStop_header h, ih]
      constructor
      · intro hall b hb hhead
        cases hb with
        | here => exact hres
        | next _ hrest => exact hall b hrest hhead
      · exact fun hall b hb hhead => hall b (.next h hb) hhead

def currentSizeFromStart (content : List UInt8) : ℕ :=
  (halEfuseGetCurrentSizeWifi ⟨content, 0⟩).2

structure ScannersAgree (content : List UInt8) : Prop where
  size : currentSizeFromStart content = readStop content 0
  beyond : ∀ a, Reached content 0 a → AtHeader content a →
    afterPacket content a ≤ currentSizeFromStart content

theorem scanners_agree_iff (content : List UInt8) :
    ScannersAgree content ↔
      ∀ a, Reached content 0 a → AtHeader content a → Resumes content a := by
  obtain ⟨size, hsize⟩ := currentSizeLoop_isSome content 0 0
  have hcur : currentSizeFromStart content = size := by
    simp only [currentSizeFromStart, halEfuseGetCurrentSizeWifi, hsize]
  rw [← currentSizeLoop_eq_readStop content 0 0, hsize]
  constructor
  · intro h
    rw [← hcur, h.size]
  · intro heq
    have hstop : currentSizeFromStart content = readStop content 0 :=
      hcur.trans (Option.some.inj heq)
    refine ⟨hstop, fun a ha hat => ?_⟩
    rw [hstop, ha.readStop_eq, readStop_header hat]
    exact le_readStop content _

def tornHeader : List UInt8 := 0x0F :: 0xFF :: 0x0E :: 0x11 :: 0x22 :: List.replicate 251 0xFF

theorem torn_header_misread :
    currentSizeFromStart tornHeader = 1 ∧ readStop tornHeader 0 = 5 ∧
      Reached tornHeader 0 2 ∧ AtHeader tornHeader 2 ∧ ¬ ScannersAgree tornHeader := by
  have hzero : AtHeader tornHeader 0 := by decide
  have htwo : AtHeader tornHeader 2 := by decide
  have hone : ¬ AtHeader tornHeader 1 := by decide
  have hfive : ¬ AtHeader tornHeader 5 := by decide
  have hafter : afterPacket tornHeader 0 = 2 := by decide
  have hpacket : afterPacket tornHeader 2 = 5 := by decide
  have hnext : sizeNext tornHeader 0 = 1 := by decide
  have hsize : currentSizeFromStart tornHeader = 1 := by
    simp only [currentSizeFromStart, halEfuseGetCurrentSizeWifi, currentSizeLoop_header 0 hzero,
      hnext, currentSizeLoop_end 0 hone]
  have hstop : readStop tornHeader 0 = 5 := by
    rw [readStop_header hzero, hafter, readStop_header htwo, hpacket, readStop_end hfive]
  have hreach : Reached tornHeader 0 2 := .next hzero (by rw [hafter]; exact .here 2)
  refine ⟨hsize, hstop, hreach, htwo, fun h => ?_⟩
  have heq := h.size
  rw [hsize, hstop] at heq
  exact absurd heq (by decide)

end Efuse
