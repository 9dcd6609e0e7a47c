import Mathlib.Data.Finset.Card
import Mathlib.Data.Fintype.Basic
import Mathlib.Data.Nat.ModEq
import Mathlib.Tactic.Common
import Mathlib.Logic.Function.Basic
import Rtl8188fu.Lib.Run

namespace Ap

def hwStateAp : ℕ := 0x03

structure AidCtl (P : Type) where
  maxAid : ℕ
  maxNumSta : ℕ
  startedAid : ℕ
  rrAid : Bool
  staAid : ℕ → Option P
  aid : P → ℕ
  state : ℕ

inductive AidEvent (P : Type) where
  | assoc (sta : P)
  | free (sta : P)
  | setAidStatus (rr : ℕ) (startedAid : Option ℕ)

namespace AidCtl

variable {P : Type}

def start (maxAid maxNumSta : ℕ) : AidCtl P where
  maxAid := maxAid
  maxNumSta := maxNumSta
  startedAid := 1
  rrAid := false
  staAid _ := none
  aid _ := 0
  state := hwStateAp

def probe (c : AidCtl P) (i : ℕ) : ℕ :=
  (i + c.startedAid - 1) % c.maxAid + 1

def search (c : AidCtl P) : ℕ → ℕ → ℕ → ℕ → ℕ × ℕ × ℕ
  | 0, i, usedCnt, aid => (i, usedCnt, aid)
  | fuel + 1, i, usedCnt, _ =>
    let aid := c.probe i
    if (c.staAid (aid - 1)).isNone then (i, usedCnt, aid)
    else if usedCnt + 1 ≥ c.maxNumSta then (i, usedCnt + 1, aid)
    else search c fuel (i + 1) (usedCnt + 1) aid

def found (c : AidCtl P) : ℕ :=
  let (i, usedCnt, aid) := c.search c.maxAid 0 0 0
  if i ≥ c.maxAid ∨ usedCnt ≥ c.maxNumSta then 0 else aid

structure Paired (c : AidCtl P) : Prop where
  owner : ∀ i p, c.staAid i = some p → i < c.maxAid ∧ c.aid p = i + 1
  slot : ∀ p, 0 < c.aid p → c.staAid (c.aid p - 1) = some p
  started : 0 < c.startedAid
  ap : c.state = hwStateAp

theorem search_cases (c : AidCtl P) (fuel i aid : ℕ) (hi : i < c.maxNumSta) :
    (∃ k < min (i + fuel) c.maxNumSta, c.staAid (c.probe k - 1) = none ∧
      c.search fuel i i aid = (k, k, c.probe k)) ∨
    ((∀ k, i ≤ k → k < min (i + fuel) c.maxNumSta → (c.staAid (c.probe k - 1)).isSome) ∧
      (i + fuel ≤ (c.search fuel i i aid).1 ∨
        c.maxNumSta ≤ (c.search fuel i i aid).2.1)) := by
  induction fuel generalizing i aid with
  | zero =>
    refine .inr ⟨fun k hik hk => ?_, .inl (by simp [search])⟩
    exact absurd hk (by omega)
  | succ fuel ih =>
    cases hfree : c.staAid (c.probe i - 1) with
    | none =>
      exact .inl ⟨i, by omega, hfree, by simp [search, hfree]⟩
    | some p =>
      cases Decidable.em (i + 1 ≥ c.maxNumSta) with
      | inl hfull =>
        refine .inr ⟨fun k hik hk => ?_, .inr (by simp [search, hfree, hfull])⟩
        have : k = i := by omega
        simp [this, hfree]
      | inr hfull =>
        have hnext : c.search (fuel + 1) i i aid = c.search fuel (i + 1) (i + 1) (c.probe i) := by
          simp [search, hfree, hfull]
        rw [hnext]
        have hsum : i + (fuel + 1) = i + 1 + fuel := by omega
        rw [hsum]
        rcases ih (i + 1) (c.probe i) (by omega) with hfound | ⟨htaken, hstop⟩
        · exact .inl hfound
        · refine .inr ⟨fun k hik hk => ?_, hstop⟩
          rcases Nat.eq_or_lt_of_le hik with rfl | hlt
          · simp [hfree]
          · exact htaken k hlt hk

theorem found_cases (c : AidCtl P) :
    (∃ k < min c.maxAid c.maxNumSta, c.staAid (c.probe k - 1) = none ∧ c.found = c.probe k) ∨
    (c.found = 0 ∧ ∀ k < min c.maxAid c.maxNumSta, (c.staAid (c.probe k - 1)).isSome) := by
  rcases Nat.eq_zero_or_pos c.maxNumSta with hzero | hpos
  · exact .inr ⟨by simp [found, hzero], fun k hk => absurd hk (by omega)⟩
  · rcases c.search_cases c.maxAid 0 0 hpos with ⟨k, hk, hfree, hsearch⟩ | ⟨htaken, hstop⟩
    · rw [Nat.zero_add] at hk
      refine .inl ⟨k, hk, hfree, ?_⟩
      simp only [found, hsearch]
      exact if_neg (by omega)
    · rw [Nat.zero_add] at htaken hstop
      exact .inr ⟨if_pos hstop, fun k hk => htaken k (Nat.zero_le k) hk⟩

theorem probe_range {c : AidCtl P} {k : ℕ} (hk : k < c.maxAid) :
    0 < c.probe k ∧ c.probe k ≤ c.maxAid :=
  ⟨Nat.succ_pos _, Nat.mod_lt _ (by omega)⟩

theorem probe_injOn {c : AidCtl P} (hstart : 0 < c.startedAid) {n : ℕ} (hn : n ≤ c.maxAid) :
    Set.InjOn (fun k => c.probe k - 1) (Finset.range n : Set ℕ) := by
  intro k hk j hj heq
  simp only [Finset.coe_range, Set.mem_Iio] at hk hj
  simp only [probe, Nat.add_sub_cancel, Nat.add_sub_assoc hstart] at heq
  have hmod : k ≡ j [MOD c.maxAid] := Nat.ModEq.add_right_cancel' (c.startedAid - 1) heq
  exact hmod.eq_of_lt_of_lt (by omega) (by omega)

def procSetAidStatus (c : AidCtl P) (rr : ℕ) (startedAid : Option ℕ) : AidCtl P :=
  let c := { c with rrAid := rr != 0 }
  match startedAid with
  | none => c
  | some startedAid =>
    let startedAid := startedAid % (c.maxAid + 1)
    { c with startedAid := if startedAid ≠ 0 then startedAid else 1 }

theorem start_paired (maxAid maxNumSta : ℕ) : (start maxAid maxNumSta : AidCtl P).Paired where
  owner := fun i p h => by simp [start] at h
  slot := fun p h => by simp [start] at h
  started := Nat.one_pos
  ap := rfl

namespace Paired

variable {c : AidCtl P}

theorem aid_le (h : c.Paired) (p : P) : c.aid p ≤ c.maxAid := by
  rcases Nat.eq_zero_or_pos (c.aid p) with hzero | hpos
  · omega
  · have hlt := (h.owner _ p (h.slot p hpos)).1
    omega

theorem aid_ne (h : c.Paired) {p q : P} (hpq : p ≠ q) (hp : 0 < c.aid p) :
    c.aid p ≠ c.aid q := by
  intro heq
  have hback := h.slot p hp
  rw [heq, h.slot q (heq ▸ hp)] at hback
  exact hpq (Option.some.inj hback).symm

theorem procSetAidStatus (h : c.Paired) (rr : ℕ) (startedAid : Option ℕ) :
    (c.procSetAidStatus rr startedAid).Paired := by
  cases startedAid with
  | none => exact ⟨h.owner, h.slot, h.started, h.ap⟩
  | some n =>
    refine ⟨h.owner, h.slot, ?_, h.ap⟩
    simp only [AidCtl.procSetAidStatus]
    split <;> omega

end Paired

section Counting

variable [Fintype P]

def holders (c : AidCtl P) : Finset P :=
  Finset.univ.filter fun sta => 0 < c.aid sta

def taken (c : AidCtl P) : Finset ℕ :=
  (Finset.range c.maxAid).filter fun i => (c.staAid i).isSome

structure Sound (c : AidCtl P) : Prop where
  distinct : ∀ p q, p ≠ q → 0 < c.aid p → 0 < c.aid q → c.aid p ≠ c.aid q
  range : ∀ p, c.aid p ≤ c.maxAid
  back : ∀ p, 0 < c.aid p → c.staAid (c.aid p - 1) = some p
  limit : c.holders.card ≤ c.maxNumSta

def RefusedForRoom (c : AidCtl P) : Prop :=
  c.maxNumSta ≤ c.holders.card ∨ ∀ i < c.maxAid, (c.staAid i).isSome

theorem Paired.sound {c : AidCtl P} (h : c.Paired) (hlimit : c.holders.card ≤ c.maxNumSta) :
    c.Sound where
  distinct := fun _ _ hpq hp _ => h.aid_ne hpq hp
  range := h.aid_le
  back := h.slot
  limit := hlimit

structure AidInv (c : AidCtl P) : Prop where
  paired : c.Paired
  limit : c.holders.card ≤ c.maxNumSta

theorem AidInv.setAidStatus {c : AidCtl P} (h : c.AidInv) (rr : ℕ) (startedAid : Option ℕ) :
    (c.procSetAidStatus rr startedAid).AidInv := by
  refine ⟨h.paired.procSetAidStatus rr startedAid, ?_⟩
  cases startedAid <;> exact h.limit

end Counting

variable [DecidableEq P]

def rtwAidAlloc (c : AidCtl P) (sta : P) : AidCtl P × ℕ :=
  let aid := c.found
  let c := { c with aid := Function.update c.aid sta aid }
  if aid = 0 then (c, aid)
  else
    let c := { c with staAid := Function.update c.staAid (aid - 1) (some sta) }
    (if c.rrAid then { c with startedAid := aid % c.maxAid + 1 } else c, aid)

def assignAid (c : AidCtl P) (sta : P) : AidCtl P × ℕ :=
  if c.aid sta > 0 then (c, c.aid sta) else c.rtwAidAlloc sta

def rtwFreeStainfo (c : AidCtl P) (sta : P) : AidCtl P :=
  if c.state = hwStateAp ∧ c.aid sta > 0 ∧ c.staAid (c.aid sta - 1) = some sta then
    { c with
      staAid := Function.update c.staAid (c.aid sta - 1) none
      aid := Function.update c.aid sta 0 }
  else c

def step (c : AidCtl P) : AidEvent P → AidCtl P
  | .assoc sta => (c.assignAid sta).1
  | .free sta => c.rtwFreeStainfo sta
  | .setAidStatus rr startedAid => c.procSetAidStatus rr startedAid

namespace Paired

variable {c : AidCtl P}

theorem grant (h : c.Paired) {sta : P} {aid started : ℕ} (hsta : c.aid sta = 0)
    (hpos : 0 < aid) (hle : aid ≤ c.maxAid) (hfree : c.staAid (aid - 1) = none)
    (hstarted : 0 < started) :
    Paired { c with
      aid := Function.update c.aid sta aid
      staAid := Function.update c.staAid (aid - 1) (some sta)
      startedAid := started } where
  owner := by
    intro i p hp
    cases Decidable.em (i = aid - 1) with
    | inl hi =>
      subst hi
      simp only [Function.update_self, Option.some.injEq] at hp
      subst hp
      simp only [Function.update_self]
      exact ⟨by omega, by omega⟩
    | inr hi =>
      simp only [Function.update_of_ne hi] at hp
      have hold := h.owner i p hp
      have hne : p ≠ sta := by
        rintro rfl
        omega
      simp only [Function.update_of_ne hne]
      exact hold
  slot := by
    intro p hp
    cases Decidable.em (p = sta) with
    | inl hps =>
      subst hps
      simp only [Function.update_self]
    | inr hps =>
      simp only [Function.update_of_ne hps] at hp ⊢
      have hold := h.slot p hp
      rw [Function.update_of_ne]
      · exact hold
      · intro heq
        rw [heq, hfree] at hold
        cases hold
  started := hstarted
  ap := h.ap

theorem rtwFreeStainfo (h : c.Paired) (sta : P) : (c.rtwFreeStainfo sta).Paired := by
  unfold AidCtl.rtwFreeStainfo
  split
  · next hheld =>
    obtain ⟨-, hpos, hback⟩ := hheld
    constructor
    · intro i p hp
      cases Decidable.em (i = c.aid sta - 1) with
      | inl hi =>
        subst hi
        simp at hp
      | inr hi =>
        simp only [Function.update_of_ne hi] at hp
        have hold := h.owner i p hp
        have hne : p ≠ sta := by
          rintro rfl
          omega
        simp only [Function.update_of_ne hne]
        exact hold
    · intro p hp
      have hne : p ≠ sta := by
        rintro rfl
        simp at hp
      simp only [Function.update_of_ne hne] at hp ⊢
      have haid := h.aid_ne hne hp
      rw [Function.update_of_ne (by omega)]
      exact h.slot p hp
    · exact h.started
    · exact h.ap
  · exact h

end Paired

theorem rtwAidAlloc_cases {c : AidCtl P} (h : c.Paired) (sta : P) :
    (∃ k < min c.maxAid c.maxNumSta, c.staAid (c.probe k - 1) = none ∧
      ∃ started, 0 < started ∧
        c.rtwAidAlloc sta = ({ c with
          aid := Function.update c.aid sta (c.probe k)
          staAid := Function.update c.staAid (c.probe k - 1) (some sta)
          startedAid := started }, c.probe k)) ∨
    (c.rtwAidAlloc sta = ({ c with aid := Function.update c.aid sta 0 }, 0) ∧
      ∀ k < min c.maxAid c.maxNumSta, (c.staAid (c.probe k - 1)).isSome) := by
  rcases c.found_cases with ⟨k, hk, hfree, hfound⟩ | ⟨hfound, htaken⟩
  · left
    refine ⟨k, hk, hfree, ?_⟩
    have hne : c.probe k ≠ 0 := Nat.succ_ne_zero _
    cases hrr : c.rrAid with
    | true =>
      refine ⟨c.probe k % c.maxAid + 1, Nat.succ_pos _, ?_⟩
      simp only [rtwAidAlloc, hfound, if_neg hne, hrr, if_true]
    | false =>
      refine ⟨c.startedAid, h.started, ?_⟩
      simp only [rtwAidAlloc, hfound, if_neg hne, hrr, Bool.false_eq_true, if_false]
  · right
    exact ⟨by simp only [rtwAidAlloc, hfound, if_true], htaken⟩

variable [Fintype P]

def StepSound (c : AidCtl P) (e : AidEvent P) : Prop :=
  (c.step e).Sound ∧
    ∀ sta, e = .assoc sta → (c.assignAid sta).2 = 0 → c.RefusedForRoom

def NoHoleAtLimit (c : AidCtl P) : AidEvent P → Prop
  | .assoc sta => c.aid sta = 0 → c.maxNumSta ≤ c.holders.card →
      ∀ i < min c.maxAid c.maxNumSta, (c.staAid (c.probe i - 1)).isSome
  | _ => True

namespace Paired

variable {c : AidCtl P}

theorem card_holders (h : c.Paired) : c.holders.card = c.taken.card := by
  have himage : c.holders.image (fun p => c.aid p - 1) = c.taken := by
    ext i
    simp only [holders, taken, Finset.mem_image, Finset.mem_filter, Finset.mem_univ, true_and,
      Finset.mem_range]
    constructor
    · rintro ⟨p, hp, rfl⟩
      have hslot := h.slot p hp
      exact ⟨(h.owner _ p hslot).1, by simp [hslot]⟩
    · rintro ⟨-, hsome⟩
      obtain ⟨p, hp⟩ := Option.isSome_iff_exists.mp hsome
      have haid := (h.owner i p hp).2
      exact ⟨p, by omega, by omega⟩
  rw [← himage]
  refine (Finset.card_image_of_injOn fun p hp q hq heq => ?_).symm
  simp only [holders, Finset.coe_filter, Finset.mem_univ, true_and, Set.mem_ofPred_eq] at hp hq
  by_contra hpq
  exact h.aid_ne hpq hp (by omega)

theorem refusedForRoom (h : c.Paired)
    (htaken : ∀ k < min c.maxAid c.maxNumSta, (c.staAid (c.probe k - 1)).isSome) :
    c.RefusedForRoom := by
  have hsub : (Finset.range (min c.maxAid c.maxNumSta)).image (fun k => c.probe k - 1) ⊆
      c.taken := by
    intro i hi
    obtain ⟨k, hk, rfl⟩ := Finset.mem_image.mp hi
    have hlt := Finset.mem_range.mp hk
    have hrange := c.probe_range (k := k) (by omega)
    exact Finset.mem_filter.mpr ⟨Finset.mem_range.mpr (by omega), htaken k hlt⟩
  have hcard := Finset.card_le_card hsub
  rw [Finset.card_image_of_injOn (probe_injOn h.started (Nat.min_le_left ..)),
    Finset.card_range] at hcard
  rcases Nat.le_total c.maxNumSta c.maxAid with hle | hle
  · left
    rw [h.card_holders]
    omega
  · right
    intro i hi
    have hall : c.taken = Finset.range c.maxAid := by
      refine Finset.eq_of_subset_of_card_le (Finset.filter_subset _ _) ?_
      rw [Finset.card_range]
      omega
    have hmem : i ∈ c.taken := hall ▸ Finset.mem_range.mpr hi
    exact (Finset.mem_filter.mp hmem).2

end Paired

theorem card_holders_grant {c : AidCtl P} {sta : P} {aid : ℕ} (hsta : c.aid sta = 0)
    (hpos : 0 < aid) {d : AidCtl P} (hd : d.aid = Function.update c.aid sta aid) :
    d.holders.card = c.holders.card + 1 := by
  have hinsert : d.holders = insert sta c.holders := by
    ext p
    simp only [holders, Finset.mem_filter, Finset.mem_univ, true_and, Finset.mem_insert, hd]
    cases Decidable.em (p = sta) with
    | inl hp => simp [hp, hpos]
    | inr hp => simp [hp]
  rw [hinsert, Finset.card_insert_of_notMem]
  simp [holders, hsta]

theorem card_holders_free (c : AidCtl P) (sta : P) :
    (c.rtwFreeStainfo sta).holders.card ≤ c.holders.card := by
  refine Finset.card_le_card fun p hp => ?_
  simp only [holders, Finset.mem_filter, Finset.mem_univ, true_and] at hp ⊢
  unfold AidCtl.rtwFreeStainfo at hp
  split at hp
  · cases Decidable.em (p = sta) with
    | inl hps => simp [hps] at hp
    | inr hps => simpa [Function.update_of_ne hps] using hp
  · exact hp

theorem assoc_cases {c : AidCtl P} (h : c.AidInv) (sta : P) (e : AidEvent P)
    (he : e = .assoc sta) :
    ((c.step e).AidInv ∧ c.NoHoleAtLimit e ∧ ((c.assignAid sta).2 = 0 → c.RefusedForRoom)) ∨
    ((c.step e).Paired ∧ c.maxNumSta < (c.step e).holders.card ∧ ¬ c.NoHoleAtLimit e) := by
  subst he
  by_cases hold : c.aid sta > 0
  · left
    simp only [step, assignAid, if_pos hold]
    exact ⟨h, fun hzero => by omega, fun hzero => by omega⟩
  have hsta : c.aid sta = 0 := by omega
  simp only [step, assignAid, if_neg hold]
  rcases c.rtwAidAlloc_cases h.paired sta with
    ⟨k, hk, hfree, started, hstarted, halloc⟩ | ⟨halloc, htaken⟩
  · have hrange := c.probe_range (k := k) (by omega)
    have hpaired := h.paired.grant hsta hrange.1 hrange.2 hfree hstarted
    rw [halloc]
    have hcard := card_holders_grant hsta hrange.1 (d := { c with
      aid := Function.update c.aid sta (c.probe k)
      staAid := Function.update c.staAid (c.probe k - 1) (some sta)
      startedAid := started }) rfl
    cases Decidable.em (c.holders.card < c.maxNumSta) with
    | inl hroom =>
      left
      refine ⟨⟨hpaired, ?_⟩, fun _ hfull => by omega, fun hzero => by omega⟩
      rw [hcard]
      exact hroom
    | inr hroom =>
      right
      refine ⟨hpaired, ?_, fun hgood => ?_⟩
      · rw [hcard]
        exact Nat.lt_succ_of_le (not_lt.mp hroom)
      · have hsome := hgood hsta (not_lt.mp hroom) k hk
        rw [hfree] at hsome
        cases hsome
  · left
    have hsame : { c with aid := Function.update c.aid sta 0 } = c := by
      rw [← hsta, Function.update_eq_self]
    rw [halloc, hsame]
    exact ⟨h, fun _ _ => htaken, fun _ => h.paired.refusedForRoom htaken⟩

theorem AidInv.free {c : AidCtl P} (h : c.AidInv) (sta : P) : (c.rtwFreeStainfo sta).AidInv := by
  refine ⟨h.paired.rtwFreeStainfo sta, (c.card_holders_free sta).trans ?_⟩
  have hmax : (c.rtwFreeStainfo sta).maxNumSta = c.maxNumSta := by
    unfold AidCtl.rtwFreeStainfo
    split <;> rfl
  rw [hmax]
  exact h.limit

theorem stepSound_iff (c : AidCtl P) (e : AidEvent P) (h : c.AidInv) :
    c.StepSound e ↔ c.NoHoleAtLimit e := by
  cases e with
  | assoc sta =>
    rcases assoc_cases h sta _ rfl with ⟨hinv, hgood, hrefused⟩ | ⟨-, hover, hbad⟩
    · refine iff_of_true ⟨hinv.paired.sound hinv.limit, fun p hp => ?_⟩ hgood
      cases hp
      exact hrefused
    · refine iff_of_false (fun hsound => ?_) hbad
      have hmax : (c.step (.assoc sta)).maxNumSta = c.maxNumSta := by
        simp only [step, assignAid, rtwAidAlloc]
        split_ifs <;> rfl
      have hlimit := hsound.1.limit
      omega
  | free sta =>
    have hinv := h.free sta
    exact iff_of_true ⟨hinv.paired.sound hinv.limit, fun p hp => by cases hp⟩ trivial
  | setAidStatus rr startedAid =>
    have hinv := h.setAidStatus rr startedAid
    exact iff_of_true ⟨hinv.paired.sound hinv.limit, fun p hp => by cases hp⟩ trivial

theorem AidInv.step {c : AidCtl P} (h : c.AidInv) {e : AidEvent P} (hsound : c.StepSound e) :
    (c.step e).AidInv := by
  cases e with
  | assoc sta =>
    rcases assoc_cases h sta _ rfl with ⟨hinv, -⟩ | ⟨hpaired, -, -⟩
    · exact hinv
    · exact ⟨hpaired, hsound.1.limit⟩
  | free sta => exact h.free sta
  | setAidStatus rr startedAid => exact h.setAidStatus rr startedAid

theorem aid_law (maxAid maxNumSta : ℕ) (es : List (AidEvent P)) :
    Run.Each step StepSound (start maxAid maxNumSta : AidCtl P) es ↔
      Run.Each step NoHoleAtLimit (start maxAid maxNumSta : AidCtl P) es := by
  refine Run.each_iff step StepSound NoHoleAtLimit AidInv stepSound_iff
    (fun _ _ h hsound => h.step hsound) ⟨start_paired maxAid maxNumSta, ?_⟩ es
  simp [holders, start]

theorem round_robin_over_limit :
    ¬ ∀ es : List (AidEvent (Fin 32)), Run.Each step StepSound (start 16 2) es := by
  intro hall
  have hrun := hall [.setAidStatus 1 none, .assoc 0, .assoc 1, .assoc 2]
  have hlimit := hrun.2.2.2.1.1.limit
  revert hlimit
  decide +kernel

end AidCtl

end Ap
