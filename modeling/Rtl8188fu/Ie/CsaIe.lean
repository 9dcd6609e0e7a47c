import Rtl8188fu.Ie.RemoveIe

namespace Ie

open CursorWalk Tlv

def eidChannelSwitch : UInt8 := 37

def eidEcsa : UInt8 := 60

def eidSecondaryChannelOffset : UInt8 := 62

def eidWideBandwidthChannelSwitch : UInt8 := 194

def eidChannelSwitchWrapper : UInt8 := 196

inductive OpcBw where
  | bw20
  | bw40plus
  | bw40minus
deriving DecidableEq

structure OpClass where
  classId : UInt8
  bw : OpcBw

def globalOpClass : List OpClass :=
  [⟨81, .bw20⟩, ⟨82, .bw20⟩, ⟨83, .bw40plus⟩, ⟨84, .bw40minus⟩]

def getGlobalOpClassById (gid : UInt8) : Option OpClass :=
  globalOpClass.find? fun opc => opc.classId = gid

def chanOffsetNoExt : UInt8 := 0

def chanOffsetUpper : UInt8 := 1

def chanOffsetLower : UInt8 := 2

def channelWidth20 : UInt8 := 0

def channelWidth40 : UInt8 := 1

def channelWidth80 : UInt8 := 2

def channelWidth160 : UInt8 := 3

def channelWidth8080 : UInt8 := 4

def opcBwToChWidth : OpcBw → UInt8
  | .bw20 => channelWidth20
  | .bw40plus => channelWidth40
  | .bw40minus => channelWidth40

def rtwGetOffsetByChbw2g (ch bw offset : UInt8) : UInt8 :=
  if channelWidth80 ≤ bw ∨ ch < 1 ∨ 14 < ch then offset
  else if bw = channelWidth20 then chanOffsetNoExt
  else if ch ≤ 4 then chanOffsetUpper
  else if ch ≤ 9 then
    if offset = chanOffsetUpper ∨ offset = chanOffsetLower then offset else chanOffsetLower
  else if ch ≤ 13 then chanOffsetLower
  else offset

def rtwGetBwOffsetByOpClassCh (gid ch bw offset : UInt8) : UInt8 × UInt8 :=
  match getGlobalOpClassById gid with
  | none => (bw, offset)
  | some opc =>
    let bw := opcBwToChWidth opc.bw
    let offset :=
      if opc.bw = .bw40plus then chanOffsetUpper
      else if opc.bw = .bw40minus then chanOffsetLower
      else offset
    (bw, rtwGetOffsetByChbw2g ch bw offset)

def ieeeChannelOffset (offset : UInt8) : UInt8 :=
  if offset = 1 then 3 else if offset = 2 then 1 else 0

def ieeeChannelWidth (width : UInt8) : UInt8 :=
  if width = channelWidth80 ∨ width = channelWidth160 ∨ width = channelWidth8080 then 1 else 0

structure Rfctl where
  csaCh : UInt8
  csaSwitchCnt : UInt8
  csaChOffset : UInt8
  csaChWidth : UInt8
  csaChFreqSeg0 : UInt8
  csaChFreqSeg1 : UInt8
  ecsaMode : UInt8
  ecsaOpClass : UInt8
  apCsaCh : UInt8
  apCsaSwitchCnt : UInt8
  apCsaEn : UInt8
  apCsaWaitUpdateBcn : UInt8
deriving DecidableEq

structure CsaRead where
  off : ℕ
  bound : ℕ

structure CsaScan where
  rfctl : Rfctl
  ch : UInt8
  csaChOffset : UInt8
  csaChWidth : UInt8
  csaChFreqSeg0 : UInt8
  csaChFreqSeg1 : UInt8
  csaSwitchCnt : UInt8
  reads : List CsaRead

structure CsaResult where
  rfctl : Rfctl
  setApCsaCmd : Bool
  csaTimer : Option ℕ
  reads : List CsaRead

structure CsaCtx where
  csaUpdateBeacon : Bool
  ifbmpM : UInt8
  beaconPeriod : ℕ

structure CsaArea where
  mem : Mem
  ies : ℕ
  iesLen : ℕ

def staRxCsa : UInt8 := 2

namespace CsaArea

variable (a : CsaArea)

def byte (off : ℕ) : UInt8 := a.mem (a.ies + off)

def length (i : ℕ) : ℕ := (a.byte (i + 1)).toNat

def data (i k : ℕ) : UInt8 := a.byte (i + 2 + k)

def walk : Walk where
  inside i := i + 1 < a.iesLen
  found _ := false
  next i := i + (a.length i + 2)

def subWalk (i : ℕ) : Walk where
  inside j := j + 1 < a.length i
  found _ := false
  next j := j + (a.length (i + j + 2) + 2)

end CsaArea

namespace CsaScan

def reading (s : CsaScan) (bound : ℕ) (offs : List ℕ) : CsaScan :=
  { s with reads := s.reads ++ offs.map (⟨·, bound⟩) }

def wideBandwidth (s : CsaScan) (a : CsaArea) (i bound : ℕ) : CsaScan :=
  { s.reading bound [i + 2, i + 3, i + 4] with
    csaChWidth := a.data i 0
    csaChFreqSeg0 := a.data i 1
    csaChFreqSeg1 := a.data i 2 }

def subElement (a : CsaArea) (i : ℕ) (s : CsaScan) (j : ℕ) : CsaScan :=
  let bound := i + 2 + a.length i
  let s := s.reading bound [i + j + 2, i + j + 3]
  if a.byte (i + j + 2) = eidWideBandwidthChannelSwitch then s.wideBandwidth a (i + j + 2) bound
  else s

def ecsa (s : CsaScan) (a : CsaArea) (i : ℕ) : CsaScan :=
  let s := s.reading a.iesLen [i + 2, i + 3, i + 4, i + 5]
  let s := { s with
    rfctl := { s.rfctl with ecsaMode := a.data i 0, ecsaOpClass := a.data i 1 }
    ch := a.data i 2
    csaSwitchCnt := a.data i 3 }
  let (width, offset) :=
    rtwGetBwOffsetByOpClassCh s.rfctl.ecsaOpClass s.ch s.csaChWidth s.csaChOffset
  { s with csaChOffset := ieeeChannelOffset offset, csaChWidth := ieeeChannelWidth width }

def element (a : CsaArea) (s : CsaScan) (i : ℕ) : Option CsaScan :=
  let s := s.reading a.iesLen [i, i + 1]
  if a.byte i = eidChannelSwitch then
    some { s.reading a.iesLen [i + 3, i + 4] with ch := a.data i 1, csaSwitchCnt := a.data i 2 }
  else if a.byte i = eidSecondaryChannelOffset then
    some { s.reading a.iesLen [i + 2] with csaChOffset := a.data i 0 }
  else if a.byte i = eidWideBandwidthChannelSwitch then some (s.wideBandwidth a i a.iesLen)
  else if a.byte i = eidChannelSwitchWrapper then
    fold (a.subWalk i) (fun s j => some (subElement a i s j)) (a.length i + 1) 0 s
  else if a.byte i = eidEcsa then some (s.ecsa a i)
  else some s

end CsaScan

def csaDecision (ctx : CsaCtx) (s : CsaScan) : CsaResult :=
  if s.ch ≠ 0 then
    let rfctl := { s.rfctl with
      csaCh := s.ch
      csaSwitchCnt := s.csaSwitchCnt
      csaChOffset := s.csaChOffset
      csaChWidth := s.csaChWidth
      csaChFreqSeg0 := s.csaChFreqSeg0
      csaChFreqSeg1 := s.csaChFreqSeg1 }
    let rfctl :=
      if ctx.ifbmpM ≠ 0 then
        { rfctl with
          apCsaEn := staRxCsa
          apCsaWaitUpdateBcn := 0
          apCsaCh := s.ch
          apCsaSwitchCnt := s.csaSwitchCnt }
      else rfctl
    ⟨rfctl, ctx.ifbmpM ≠ 0, some (ctx.beaconPeriod * (s.csaSwitchCnt.toNat + 1)), s.reads⟩
  else ⟨s.rfctl, false, none, s.reads⟩

def processCsaIe (ctx : CsaCtx) (rfctl : Rfctl) (a : CsaArea) : Option CsaResult :=
  if rfctl.csaCh ≠ 0 ∨ ctx.csaUpdateBeacon = true then some ⟨rfctl, false, none, []⟩
  else
    (fold a.walk (CsaScan.element a) (a.iesLen + 1) 0 ⟨rfctl, 0, 0, 0, 0, 0, 0, []⟩).map
      (csaDecision ctx)

namespace CsaArea

def elements (a : CsaArea) : List ℕ := visited a.walk a.iesLen 0

def subElements (a : CsaArea) (i : ℕ) : List ℕ := visited (a.subWalk i) (a.length i) 0

def SubFits (a : CsaArea) (i j : ℕ) : Prop :=
  i + j + 4 ≤ a.iesLen ∧ (a.byte (i + j + 2) = eidWideBandwidthChannelSwitch →
    j + 5 ≤ a.length i ∧ i + j + 7 ≤ a.iesLen)

def Fits (a : CsaArea) (i : ℕ) : Prop :=
  if a.byte i = eidChannelSwitch then i + 5 ≤ a.iesLen
  else if a.byte i = eidSecondaryChannelOffset then i + 3 ≤ a.iesLen
  else if a.byte i = eidWideBandwidthChannelSwitch then i + 5 ≤ a.iesLen
  else if a.byte i = eidChannelSwitchWrapper then ∀ j ∈ a.subElements i, a.SubFits i j
  else if a.byte i = eidEcsa then i + 6 ≤ a.iesLen
  else True

def channelAt (a : CsaArea) (i : ℕ) : Option UInt8 :=
  if a.byte i = eidChannelSwitch then some (a.data i 1)
  else if a.byte i = eidEcsa then some (a.data i 2)
  else none

def ecsaAt (a : CsaArea) (i : ℕ) : Option (UInt8 × UInt8) :=
  if a.byte i = eidEcsa then some (a.data i 0, a.data i 1) else none

def Announces (a : CsaArea) (i : ℕ) : Prop :=
  i + 2 + a.length i ≤ a.iesLen ∧
    (a.byte i = eidChannelSwitch ∧ 3 ≤ a.length i ∨ a.byte i = eidEcsa ∧ 4 ≤ a.length i) ∧
    ∃ c ∈ a.channelAt i, c ≠ 0

end CsaArea

def Rfctl.ecsa (r : Rfctl) : UInt8 × UInt8 := (r.ecsaMode, r.ecsaOpClass)

def Rfctl.withEcsa (r : Rfctl) (x : UInt8 × UInt8) : Rfctl :=
  { r with ecsaMode := x.1, ecsaOpClass := x.2 }

structure Quiet (rfctl : Rfctl) (a : CsaArea) : Prop where
  channel : ∀ c ∈ (a.elements.filterMap a.channelAt).getLast?, c = 0
  ecsa : ∀ x ∈ (a.elements.filterMap a.ecsaAt).getLast?, x = rfctl.ecsa

structure CsaLaw (rfctl : Rfctl) (a : CsaArea) (r : CsaResult) : Prop where
  inside : ∀ x ∈ r.reads, x.off < a.iesLen ∧ x.off < x.bound
  unchanged : r.rfctl = rfctl ∨ ∃ i ∈ a.elements, a.Announces i

def CsaSafe (ctx : CsaCtx) (rfctl : Rfctl) (a : CsaArea) : Prop :=
  (rfctl.csaCh ≠ 0 ∨ ctx.csaUpdateBeacon = true) ∨
    (∀ i ∈ a.elements, a.Fits i) ∧ ((∃ i ∈ a.elements, a.Announces i) ∨ Quiet rfctl a)

theorem foldl_getD {α β : Type} (f : α → Option β) (l : List α) (d : β) :
    l.foldl (fun d x => (f x).getD d) d = (l.filterMap f).getLast?.getD d := by
  induction l generalizing d with
  | nil => rfl
  | cons x l ih =>
    rw [List.foldl_cons, ih]
    cases hx : f x with
    | none => rw [List.filterMap_cons_none hx, Option.getD_none]
    | some y => rw [List.filterMap_cons_some hx, List.getLast?_cons, Option.getD_some,
        Option.getD_some]

theorem getLast_getD_eq {β : Type} {l : List β} {d : β} :
    l.getLast?.getD d = d ↔ ∀ x ∈ l.getLast?, x = d := by
  cases l.getLast? with
  | none => exact iff_of_true rfl fun x hx => absurd hx (Option.not_mem_none x)
  | some x => simp only [Option.getD_some, Option.mem_some_iff, forall_eq']

namespace CsaArea

variable {a : CsaArea} {i j : ℕ} {s : CsaScan}

theorem walk_advances (a : CsaArea) : Advances a.walk a.iesLen where
  inside j hj := by
    have hlt := of_decide_eq_true hj
    omega
  next j := by
    simp only [walk]
    omega

theorem subWalk_advances (a : CsaArea) (i : ℕ) : Advances (a.subWalk i) (a.length i) where
  inside j hj := by
    have hlt := of_decide_eq_true hj
    omega
  next j := by
    simp only [subWalk]
    omega

theorem elements_inside (h : i ∈ a.elements) : i + 1 < a.iesLen :=
  of_decide_eq_true (a.walk_advances.mem_visited.mp h).inside

theorem subElements_inside (h : j ∈ a.subElements i) : j + 1 < a.length i :=
  of_decide_eq_true ((a.subWalk_advances i).mem_visited.mp h).inside

def wideReads (i bound : ℕ) : List CsaRead := [i + 2, i + 3, i + 4].map (⟨·, bound⟩)

def subReads (a : CsaArea) (i j : ℕ) : List CsaRead :=
  let bound := i + 2 + a.length i
  [⟨i + j + 2, bound⟩, ⟨i + j + 3, bound⟩] ++
    if a.byte (i + j + 2) = eidWideBandwidthChannelSwitch then wideReads (i + j + 2) bound else []

def bodyReads (a : CsaArea) (i : ℕ) : List CsaRead :=
  if a.byte i = eidChannelSwitch then [⟨i + 3, a.iesLen⟩, ⟨i + 4, a.iesLen⟩]
  else if a.byte i = eidSecondaryChannelOffset then [⟨i + 2, a.iesLen⟩]
  else if a.byte i = eidWideBandwidthChannelSwitch then wideReads i a.iesLen
  else if a.byte i = eidChannelSwitchWrapper then (a.subElements i).flatMap (a.subReads i)
  else if a.byte i = eidEcsa then [i + 2, i + 3, i + 4, i + 5].map (⟨·, a.iesLen⟩)
  else []

def elementReads (a : CsaArea) (i : ℕ) : List CsaRead :=
  [⟨i, a.iesLen⟩, ⟨i + 1, a.iesLen⟩] ++ a.bodyReads i

def stepped (a : CsaArea) (s : CsaScan) (i : ℕ) : CsaScan := (s.element a i).getD s

theorem wrapper_fold (a : CsaArea) (i : ℕ) (s : CsaScan) :
    fold (a.subWalk i) (fun s j => some (CsaScan.subElement a i s j)) (a.length i + 1) 0 s =
      some ((a.subElements i).foldl (CsaScan.subElement a i) s) :=
  (a.subWalk_advances i).fold_eq (fun _ => rfl) (fun _ _ => rfl) (Nat.le_add_left _ _)

structure SubStep (a : CsaArea) (i : ℕ) (js : List ℕ) (s t : CsaScan) : Prop where
  rfctl : t.rfctl = s.rfctl
  ch : t.ch = s.ch
  reads : t.reads = s.reads ++ js.flatMap (a.subReads i)

theorem subElement_step (a : CsaArea) (i j : ℕ) (s : CsaScan) :
    SubStep a i [j] s (CsaScan.subElement a i s j) := by
  rw [CsaScan.subElement]
  cases Decidable.em (a.byte (i + j + 2) = eidWideBandwidthChannelSwitch) with
  | inl hwide =>
    simp only [if_pos hwide]
    refine ⟨rfl, rfl, ?_⟩
    simp only [CsaScan.wideBandwidth, CsaScan.reading, List.flatMap_singleton, subReads,
      if_pos hwide, List.append_assoc]
    rfl
  | inr hother =>
    simp only [if_neg hother]
    refine ⟨rfl, rfl, ?_⟩
    simp only [CsaScan.reading, List.flatMap_singleton, subReads, if_neg hother, List.append_nil]
    rfl

theorem subElements_step (a : CsaArea) (i : ℕ) (js : List ℕ) (s : CsaScan) :
    SubStep a i js s (js.foldl (CsaScan.subElement a i) s) := by
  induction js generalizing s with
  | nil => exact ⟨rfl, rfl, (List.append_nil _).symm⟩
  | cons j js ih =>
    obtain ⟨hrfctl, hch, hreads⟩ := subElement_step a i j s
    obtain ⟨hrfctl', hch', hreads'⟩ := ih (CsaScan.subElement a i s j)
    refine ⟨hrfctl'.trans hrfctl, hch'.trans hch, ?_⟩
    rw [List.foldl_cons, hreads', hreads, List.append_assoc, ← List.flatMap_append]
    rfl

structure Step (a : CsaArea) (s : CsaScan) (i : ℕ) (t : CsaScan) : Prop where
  rfctl : t.rfctl = s.rfctl.withEcsa ((a.ecsaAt i).getD s.rfctl.ecsa)
  ch : t.ch = (a.channelAt i).getD s.ch
  reads : t.reads = s.reads ++ a.elementReads i

theorem ecsaAt_other (h : a.byte i ≠ eidEcsa) : a.ecsaAt i = none := if_neg h

theorem channelAt_other (h : a.byte i ≠ eidEcsa) (h' : a.byte i ≠ eidChannelSwitch) :
    a.channelAt i = none := by
  rw [channelAt, if_neg h', if_neg h]

theorem Step.passed {t : CsaScan} (h : a.byte i ≠ eidEcsa) (h' : a.byte i ≠ eidChannelSwitch)
    (hrfctl : t.rfctl = s.rfctl) (hch : t.ch = s.ch)
    (hreads : t.reads = s.reads ++ a.elementReads i) : Step a s i t := by
  refine ⟨?_, ?_, hreads⟩
  · rw [ecsaAt_other h, hrfctl]
    rfl
  · rw [channelAt_other h h', hch]
    rfl

theorem channelSwitch_step (h : a.byte i = eidChannelSwitch) :
    ∃ t, s.element a i = some t ∧ Step a s i t := by
  have hecsa : a.byte i ≠ eidEcsa := ne_of_eq_of_ne h (by decide)
  refine ⟨_, if_pos h, ?_, ?_, ?_⟩
  · rw [ecsaAt_other hecsa]
    rfl
  · rw [channelAt, if_pos h]
    rfl
  · rw [elementReads, bodyReads, if_pos h]
    exact List.append_assoc _ _ _

theorem secondaryOffset_step (h : a.byte i = eidSecondaryChannelOffset) :
    ∃ t, s.element a i = some t ∧ Step a s i t := by
  have hswitch : a.byte i ≠ eidChannelSwitch := ne_of_eq_of_ne h (by decide)
  have hecsa : a.byte i ≠ eidEcsa := ne_of_eq_of_ne h (by decide)
  refine ⟨_, (if_neg hswitch).trans (if_pos h), .passed hecsa hswitch rfl rfl ?_⟩
  rw [elementReads, bodyReads, if_neg hswitch, if_pos h]
  exact List.append_assoc _ _ _

theorem wideBandwidth_step (h : a.byte i = eidWideBandwidthChannelSwitch) :
    ∃ t, s.element a i = some t ∧ Step a s i t := by
  have hswitch : a.byte i ≠ eidChannelSwitch := ne_of_eq_of_ne h (by decide)
  have hoffset : a.byte i ≠ eidSecondaryChannelOffset := ne_of_eq_of_ne h (by decide)
  have hecsa : a.byte i ≠ eidEcsa := ne_of_eq_of_ne h (by decide)
  refine ⟨_, (if_neg hswitch).trans ((if_neg hoffset).trans (if_pos h)),
    .passed hecsa hswitch rfl rfl ?_⟩
  rw [elementReads, bodyReads, if_neg hswitch, if_neg hoffset, if_pos h]
  exact List.append_assoc _ _ _

theorem wrapper_step (h : a.byte i = eidChannelSwitchWrapper) :
    ∃ t, s.element a i = some t ∧ Step a s i t := by
  have hswitch : a.byte i ≠ eidChannelSwitch := ne_of_eq_of_ne h (by decide)
  have hoffset : a.byte i ≠ eidSecondaryChannelOffset := ne_of_eq_of_ne h (by decide)
  have hwide : a.byte i ≠ eidWideBandwidthChannelSwitch := ne_of_eq_of_ne h (by decide)
  have hecsa : a.byte i ≠ eidEcsa := ne_of_eq_of_ne h (by decide)
  obtain ⟨hrfctl, hch, hreads⟩ :=
    subElements_step a i (a.subElements i) (s.reading a.iesLen [i, i + 1])
  refine ⟨_, (if_neg hswitch).trans ((if_neg hoffset).trans ((if_neg hwide).trans
    ((if_pos h).trans (wrapper_fold a i _)))), .passed hecsa hswitch hrfctl hch ?_⟩
  rw [hreads, elementReads, bodyReads, if_neg hswitch, if_neg hoffset, if_neg hwide, if_pos h]
  exact List.append_assoc _ _ _

theorem ecsa_step (h : a.byte i = eidEcsa) : ∃ t, s.element a i = some t ∧ Step a s i t := by
  have hswitch : a.byte i ≠ eidChannelSwitch := ne_of_eq_of_ne h (by decide)
  have hoffset : a.byte i ≠ eidSecondaryChannelOffset := ne_of_eq_of_ne h (by decide)
  have hwide : a.byte i ≠ eidWideBandwidthChannelSwitch := ne_of_eq_of_ne h (by decide)
  have hwrapper : a.byte i ≠ eidChannelSwitchWrapper := ne_of_eq_of_ne h (by decide)
  refine ⟨_, (if_neg hswitch).trans ((if_neg hoffset).trans ((if_neg hwide).trans
    ((if_neg hwrapper).trans (if_pos h)))), ?_, ?_, ?_⟩
  · rw [ecsaAt, if_pos h]
    rfl
  · rw [channelAt, if_neg hswitch, if_pos h]
    rfl
  · rw [elementReads, bodyReads, if_neg hswitch, if_neg hoffset, if_neg hwide, if_neg hwrapper,
      if_pos h]
    exact List.append_assoc _ _ _

theorem other_step (hswitch : a.byte i ≠ eidChannelSwitch)
    (hoffset : a.byte i ≠ eidSecondaryChannelOffset)
    (hwide : a.byte i ≠ eidWideBandwidthChannelSwitch)
    (hwrapper : a.byte i ≠ eidChannelSwitchWrapper) (hecsa : a.byte i ≠ eidEcsa) :
    ∃ t, s.element a i = some t ∧ Step a s i t := by
  refine ⟨_, (if_neg hswitch).trans ((if_neg hoffset).trans ((if_neg hwide).trans
    ((if_neg hwrapper).trans (if_neg hecsa)))), .passed hecsa hswitch rfl rfl ?_⟩
  rw [elementReads, bodyReads, if_neg hswitch, if_neg hoffset, if_neg hwide, if_neg hwrapper,
    if_neg hecsa, List.append_nil]
  rfl

theorem element_step (a : CsaArea) (s : CsaScan) (i : ℕ) :
    ∃ t, s.element a i = some t ∧ Step a s i t := by
  cases Decidable.em (a.byte i = eidChannelSwitch) with
  | inl h => exact channelSwitch_step h
  | inr hswitch =>
    cases Decidable.em (a.byte i = eidSecondaryChannelOffset) with
    | inl h => exact secondaryOffset_step h
    | inr hoffset =>
      cases Decidable.em (a.byte i = eidWideBandwidthChannelSwitch) with
      | inl h => exact wideBandwidth_step h
      | inr hwide =>
        cases Decidable.em (a.byte i = eidChannelSwitchWrapper) with
        | inl h => exact wrapper_step h
        | inr hwrapper =>
          cases Decidable.em (a.byte i = eidEcsa) with
          | inl h => exact ecsa_step h
          | inr hecsa => exact other_step hswitch hoffset hwide hwrapper hecsa

theorem element_eq (a : CsaArea) (s : CsaScan) (i : ℕ) : s.element a i = some (a.stepped s i) := by
  obtain ⟨t, ht, _⟩ := element_step a s i
  rw [stepped, ht, Option.getD_some]

theorem stepped_step (a : CsaArea) (s : CsaScan) (i : ℕ) : Step a s i (a.stepped s i) := by
  obtain ⟨t, ht, hstep⟩ := element_step a s i
  rwa [stepped, ht, Option.getD_some]

structure Scanned (a : CsaArea) (s : CsaScan) (is : List ℕ) (t : CsaScan) : Prop where
  rfctl : t.rfctl = s.rfctl.withEcsa ((is.filterMap a.ecsaAt).getLast?.getD s.rfctl.ecsa)
  ch : t.ch = (is.filterMap a.channelAt).getLast?.getD s.ch
  reads : t.reads = s.reads ++ is.flatMap a.elementReads

theorem elements_step (a : CsaArea) (is : List ℕ) (s : CsaScan) :
    Scanned a s is (is.foldl a.stepped s) := by
  induction is generalizing s with
  | nil => exact ⟨rfl, rfl, (List.append_nil _).symm⟩
  | cons i is ih =>
    obtain ⟨hrfctl, hch, hreads⟩ := stepped_step a s i
    obtain ⟨hrfctl', hch', hreads'⟩ := ih (a.stepped s i)
    rw [List.foldl_cons]
    refine ⟨?_, ?_, ?_⟩
    · rw [hrfctl', hrfctl, ← foldl_getD, ← foldl_getD]
      rfl
    · rw [hch', hch, ← foldl_getD, ← foldl_getD]
      rfl
    · rw [hreads', hreads, List.append_assoc]
      rfl

def InBounds (a : CsaArea) (x : CsaRead) : Prop := x.off < a.iesLen ∧ x.off < x.bound

theorem wideReads_inBounds {bound : ℕ} :
    (∀ x ∈ wideReads i bound, a.InBounds x) ↔ i + 5 ≤ a.iesLen ∧ i + 5 ≤ bound := by
  simp only [wideReads, List.forall_mem_map, List.forall_mem_cons, InBounds]
  constructor
  · rintro ⟨-, -, hlast, -⟩
    omega
  · intro h
    refine ⟨by omega, by omega, by omega, fun x hx => absurd hx List.not_mem_nil⟩

theorem subReads_inBounds (hj : j + 1 < a.length i) :
    (∀ x ∈ a.subReads i j, a.InBounds x) ↔ a.SubFits i j := by
  have hheader : (∀ x ∈ [(⟨i + j + 2, i + 2 + a.length i⟩ : CsaRead),
      ⟨i + j + 3, i + 2 + a.length i⟩], a.InBounds x) ↔ i + j + 4 ≤ a.iesLen := by
    simp only [List.forall_mem_cons, InBounds]
    constructor
    · rintro ⟨-, hlast, -⟩
      omega
    · intro h
      refine ⟨by omega, by omega, fun x hx => absurd hx List.not_mem_nil⟩
  rw [subReads, SubFits, List.forall_mem_append, hheader]
  refine and_congr_right fun _ => ?_
  cases Decidable.em (a.byte (i + j + 2) = eidWideBandwidthChannelSwitch) with
  | inl hwide =>
    rw [if_pos hwide, wideReads_inBounds, forall_prop_of_true hwide]
    omega
  | inr hother =>
    rw [if_neg hother]
    exact iff_of_true (fun x hx => absurd hx List.not_mem_nil) fun h => absurd h hother

theorem wrapperReads_inBounds : (∀ x ∈ (a.subElements i).flatMap (a.subReads i), a.InBounds x) ↔
    ∀ j ∈ a.subElements i, a.SubFits i j := by
  constructor
  · intro h j hj
    exact (subReads_inBounds (subElements_inside hj)).mp fun x hx =>
      h x (List.mem_flatMap.mpr ⟨j, hj, hx⟩)
  · intro h x hx
    obtain ⟨j, hj, hxj⟩ := List.mem_flatMap.mp hx
    exact (subReads_inBounds (subElements_inside hj)).mpr (h j hj) x hxj

theorem areaReads_inBounds (a : CsaArea) (offs : List ℕ) {last : ℕ} (hlast : last ∈ offs)
    (hle : ∀ off ∈ offs, off ≤ last) :
    (∀ x ∈ offs.map (CsaRead.mk · a.iesLen), a.InBounds x) ↔ last + 1 ≤ a.iesLen := by
  simp only [List.forall_mem_map, InBounds, and_self]
  exact ⟨fun h => h last hlast, fun h off hoff => Nat.lt_of_le_of_lt (hle off hoff) h⟩

theorem bodyReads_inBounds (a : CsaArea) (i : ℕ) :
    (∀ x ∈ a.bodyReads i, a.InBounds x) ↔ a.Fits i := by
  rw [bodyReads, Fits]
  split
  · exact a.areaReads_inBounds [i + 3, i + 4] (by simp) (by simp)
  · split
    · exact a.areaReads_inBounds [i + 2] (by simp) (by simp)
    · split
      · exact wideReads_inBounds.trans and_self_iff
      · split
        · exact wrapperReads_inBounds
        · split
          · exact a.areaReads_inBounds [i + 2, i + 3, i + 4, i + 5] (by simp) (by simp)
          · exact iff_of_true (fun x hx => absurd hx List.not_mem_nil) trivial

theorem elementReads_inBounds (h : i ∈ a.elements) :
    (∀ x ∈ a.elementReads i, a.InBounds x) ↔ a.Fits i := by
  have hheader := elements_inside h
  rw [elementReads, List.forall_mem_append, bodyReads_inBounds]
  refine and_iff_right ?_
  exact (a.areaReads_inBounds [i, i + 1] (by simp) (by simp)).mpr hheader

theorem reads_inBounds (a : CsaArea) :
    (∀ x ∈ a.elements.flatMap a.elementReads, a.InBounds x) ↔ ∀ i ∈ a.elements, a.Fits i := by
  constructor
  · intro h i hi
    exact (elementReads_inBounds hi).mp fun x hx => h x (List.mem_flatMap.mpr ⟨i, hi, hx⟩)
  · intro h x hx
    obtain ⟨i, hi, hxi⟩ := List.mem_flatMap.mp hx
    exact (elementReads_inBounds hi).mpr (h i hi) x hxi

end CsaArea

section Decision

variable {ctx : CsaCtx} {rfctl : Rfctl} {a : CsaArea} {s : CsaScan}

theorem decision_reads (ctx : CsaCtx) (s : CsaScan) : (csaDecision ctx s).reads = s.reads := by
  rw [csaDecision]
  split
  · rfl
  · rfl

theorem decision_quiet (h : s.ch = 0) : (csaDecision ctx s).rfctl = s.rfctl := by
  rw [csaDecision, if_neg (not_not.mpr h)]

theorem decision_csaCh (h : s.ch ≠ 0) : (csaDecision ctx s).rfctl.csaCh = s.ch := by
  rw [csaDecision, if_pos h]
  simp only
  split
  · rfl
  · rfl

def scanned (rfctl : Rfctl) (a : CsaArea) : CsaScan :=
  a.elements.foldl a.stepped ⟨rfctl, 0, 0, 0, 0, 0, 0, []⟩

theorem processCsaIe_open (h : ¬(rfctl.csaCh ≠ 0 ∨ ctx.csaUpdateBeacon = true)) :
    processCsaIe ctx rfctl a = some (csaDecision ctx (scanned rfctl a)) := by
  rw [processCsaIe, if_neg h, a.walk_advances.fold_eq (fun _ => rfl) a.element_eq (by omega)]
  rfl

theorem withEcsa_eq_iff {x : UInt8 × UInt8} : rfctl.withEcsa x = rfctl ↔ x = rfctl.ecsa := by
  constructor
  · intro h
    exact congrArg Rfctl.ecsa h
  · rintro rfl
    rfl

theorem unchanged_iff (h : ¬(rfctl.csaCh ≠ 0 ∨ ctx.csaUpdateBeacon = true)) :
    (csaDecision ctx (scanned rfctl a)).rfctl = rfctl ↔ Quiet rfctl a := by
  obtain ⟨hrfctl, hch, -⟩ := a.elements_step a.elements ⟨rfctl, 0, 0, 0, 0, 0, 0, []⟩
  have hquiet : (scanned rfctl a).ch = 0 ↔ ∀ c ∈ (a.elements.filterMap a.channelAt).getLast?, c = 0 := by
    rw [← getLast_getD_eq]
    exact Eq.congr_left hch
  have hecsa : (scanned rfctl a).rfctl = rfctl ↔
      ∀ x ∈ (a.elements.filterMap a.ecsaAt).getLast?, x = rfctl.ecsa := by
    rw [← getLast_getD_eq, ← withEcsa_eq_iff]
    exact Eq.congr_left hrfctl
  cases Decidable.em ((scanned rfctl a).ch = 0) with
  | inl hzero =>
    rw [decision_quiet hzero, hecsa]
    exact ⟨fun hsame => ⟨hquiet.mp hzero, hsame⟩, fun hsame => hsame.ecsa⟩
  | inr hset =>
    refine iff_of_false (fun hsame => h (.inl ?_)) fun hsame => hset (hquiet.mpr hsame.channel)
    rw [← hsame, decision_csaCh hset]
    exact hset

theorem process_csa_ie_iff (ctx : CsaCtx) (rfctl : Rfctl) (a : CsaArea) :
    (∃ r, processCsaIe ctx rfctl a = some r ∧ CsaLaw rfctl a r) ↔ CsaSafe ctx rfctl a := by
  cases Decidable.em (rfctl.csaCh ≠ 0 ∨ ctx.csaUpdateBeacon = true) with
  | inl hclosed =>
    refine iff_of_true ⟨_, if_pos hclosed, ?_, .inl rfl⟩ (.inl hclosed)
    exact fun x hx => absurd hx List.not_mem_nil
  | inr hopen =>
    have hreads : (csaDecision ctx (scanned rfctl a)).reads = a.elements.flatMap a.elementReads :=
      (decision_reads ctx _).trans (a.elements_step a.elements _).reads
    rw [processCsaIe_open hopen, CsaSafe, or_iff_right hopen]
    simp only [Option.some.injEq, exists_eq_left']
    constructor
    · rintro ⟨hinside, hunchanged⟩
      rw [hreads] at hinside
      exact ⟨a.reads_inBounds.mp hinside, hunchanged.symm.imp_right (unchanged_iff hopen).mp⟩
    · rintro ⟨hfits, hquiet⟩
      refine ⟨?_, (hquiet.imp_right (unchanged_iff hopen).mpr).symm⟩
      rw [hreads]
      exact a.reads_inBounds.mpr hfits

end Decision

def csaIdle : Rfctl := ⟨0, 0, 0, 0, 0, 0, 0, 0, 0, 0, 0, 0⟩

def csaStation : CsaCtx := ⟨false, 0, 100⟩

def csaAreaOf (bytes : List UInt8) : CsaArea := ⟨memOf bytes 0x1000, 0x1000, bytes.length⟩

theorem short_channel_switch_followed :
    ¬(∃ r, processCsaIe csaStation csaIdle (csaAreaOf [37, 0]) = some r ∧
        CsaLaw csaIdle (csaAreaOf [37, 0]) r) ∧
      ¬(∃ r, processCsaIe csaStation csaIdle (csaAreaOf [37, 1, 0, 6, 1, 0x99]) = some r ∧
        CsaLaw csaIdle (csaAreaOf [37, 1, 0, 6, 1, 0x99]) r) := by
  constructor
  · rintro ⟨r, hr, hlaw⟩
    have hread : (processCsaIe csaStation csaIdle (csaAreaOf [37, 0])).map
        (fun r => r.reads.map CsaRead.off) = some [0, 1, 3, 4] := by decide
    rw [hr, Option.map_some] at hread
    have hoff : 3 ∈ r.reads.map CsaRead.off := by
      rw [Option.some.inj hread]
      decide
    obtain ⟨x, hx, hxoff⟩ := List.mem_map.mp hoff
    have hin : x.off < 2 := (hlaw.inside x hx).1
    omega
  · rintro ⟨r, hr, hlaw⟩
    have hch : (processCsaIe csaStation csaIdle (csaAreaOf [37, 1, 0, 6, 1, 0x99])).map
        (fun r => r.rfctl.csaCh) = some 6 := by decide
    have hshort : ∀ i ∈ (csaAreaOf [37, 1, 0, 6, 1, 0x99]).elements,
        (csaAreaOf [37, 1, 0, 6, 1, 0x99]).length i < 3 := by decide
    rw [hr, Option.map_some] at hch
    rcases hlaw.unchanged with hsame | ⟨i, hi, -, hcomplete, -⟩
    · rw [hsame] at hch
      exact absurd hch (by decide)
    · have hlt := hshort i hi
      rcases hcomplete with ⟨-, hlen⟩ | ⟨-, hlen⟩
      · omega
      · omega

end Ie
