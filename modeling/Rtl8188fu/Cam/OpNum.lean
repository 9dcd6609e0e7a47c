import Rtl8188fu.Cam.MacidAlloc
import Rtl8188fu.Lib.Census

namespace Cam

open Census

def h2cMsrRoleMax : ℕ := 8

namespace H2cMsr

def opmode (msr : BitVec 8) : Bool := msr.getLsbD 0

def role (msr : BitVec 8) : ℕ := (msr.extractLsb' 4 4).toNat

def countedRole (msr : BitVec 8) : Option ℕ :=
  if opmode msr ∧ role msr < h2cMsrRoleMax then some (role msr) else none

end H2cMsr

open H2cMsr

structure MsrCtl where
  num : ℕ
  h2cMsr : ℕ → BitVec 8
  opNum : ℕ → BitVec 8
  num_le : num ≤ macidNumSwLimit

structure MsrReport where
  id : BitVec 8
  msr : BitVec 8

namespace MsrCtl

def init (num : ℕ) (h : num ≤ macidNumSwLimit) : MsrCtl := ⟨num, fun _ => 0, fun _ => 0, h⟩

def lower (c : MsrCtl) (role : ℕ) : MsrCtl × BitVec 8 :=
  if role < h2cMsrRoleMax then
    ({ c with opNum := Function.update c.opNum role (c.opNum role - 1) }, 1#8 <<< role)
  else (c, 0)

def raise (c : MsrCtl) (role : ℕ) : MsrCtl × BitVec 8 :=
  if role < h2cMsrRoleMax then
    ({ c with opNum := Function.update c.opNum role (c.opNum role + 1) }, 1#8 <<< role)
  else (c, 0)

def rtwMacidCtlSetH2cMsr (c : MsrCtl) (id msr : BitVec 8) : MsrCtl × BitVec 8 :=
  if c.num ≤ id.toNat then (c, 0)
  else
    let old := c.h2cMsr id.toNat
    let r :=
      if opmode old && !opmode msr then c.lower (role old)
      else if !opmode old && opmode msr then c.raise (role msr)
      else (c, 0)
    ({ r.1 with h2cMsr := Function.update r.1.h2cMsr id.toNat msr }, r.2)

def report (c : MsrCtl) (r : MsrReport) : MsrCtl := (c.rtwMacidCtlSetH2cMsr r.id r.msr).1

def operating (c : MsrCtl) (role : ℕ) : ℕ :=
  census (Finset.range c.num) (fun i => countedRole (c.h2cMsr i)) role

def Counted (c : MsrCtl) : Prop :=
  ∀ role < h2cMsrRoleMax, (c.opNum role).toNat = c.operating role

def Underflows (c : MsrCtl) (r : MsrReport) : Prop :=
  r.id.toNat < c.num ∧ opmode (c.h2cMsr r.id.toNat) = true ∧ opmode r.msr = false ∧
    role (c.h2cMsr r.id.toNat) < h2cMsrRoleMax ∧ c.opNum (role (c.h2cMsr r.id.toNat)) = 0

def KeepsRole (c : MsrCtl) (r : MsrReport) : Prop :=
  r.id.toNat < c.num → opmode (c.h2cMsr r.id.toNat) = true → opmode r.msr = true →
    countedRole (c.h2cMsr r.id.toNat) = countedRole r.msr

instance : DecidableRel KeepsRole := fun _ _ =>
  inferInstanceAs (Decidable (_ → _ → _ → _))

variable {c : MsrCtl} {r : MsrReport} {k : ℕ}

theorem countedRole_iff (hk : k < h2cMsrRoleMax) (msr : BitVec 8) :
    countedRole msr = some k ↔ opmode msr = true ∧ role msr = k := by
  rw [countedRole, Option.ite_none_right_eq_some, Option.some.injEq]
  constructor
  · exact fun h => ⟨h.1.1, h.2⟩
  · exact fun h => ⟨⟨h.1, h.2 ▸ hk⟩, h.2⟩

theorem lt_of_countedRole {msr : BitVec 8} (h : countedRole msr = some k) : k < h2cMsrRoleMax := by
  rw [countedRole, Option.ite_none_right_eq_some, Option.some.injEq] at h
  exact h.2 ▸ h.1.2

theorem lower_opNum (hk : k < h2cMsrRoleMax) (c : MsrCtl) (p : ℕ) :
    (c.lower p).1.opNum k = c.opNum k - if p = k then 1 else 0 := by
  cases Decidable.em (p = k) with
  | inl heq =>
    subst heq
    rw [lower, if_pos hk, if_pos rfl]
    exact Function.update_self ..
  | inr hne =>
    have hsame : c.opNum k - 0 = c.opNum k := BitVec.sub_zero _
    rw [lower, if_neg hne, hsame]
    split
    · exact Function.update_of_ne (Ne.symm hne) ..
    · rfl

theorem raise_opNum (hk : k < h2cMsrRoleMax) (c : MsrCtl) (p : ℕ) :
    (c.raise p).1.opNum k = c.opNum k + if p = k then 1 else 0 := by
  cases Decidable.em (p = k) with
  | inl heq =>
    subst heq
    rw [raise, if_pos hk, if_pos rfl]
    exact Function.update_self ..
  | inr hne =>
    have hsame : c.opNum k + 0 = c.opNum k := BitVec.add_zero _
    rw [raise, if_neg hne, hsame]
    split
    · exact Function.update_of_ne (Ne.symm hne) ..
    · rfl

theorem lower_frame (c : MsrCtl) (p : ℕ) :
    (c.lower p).1.num = c.num ∧ (c.lower p).1.h2cMsr = c.h2cMsr := by
  rw [lower]
  split <;> exact ⟨rfl, rfl⟩

theorem raise_frame (c : MsrCtl) (p : ℕ) :
    (c.raise p).1.num = c.num ∧ (c.raise p).1.h2cMsr = c.h2cMsr := by
  rw [raise]
  split <;> exact ⟨rfl, rfl⟩

theorem report_of_le (h : c.num ≤ r.id.toNat) : c.report r = c := by
  rw [report, rtwMacidCtlSetH2cMsr, if_pos h]

theorem report_frame (h : r.id.toNat < c.num) :
    (c.report r).num = c.num ∧
      (c.report r).h2cMsr = Function.update c.h2cMsr r.id.toNat r.msr := by
  simp only [report, rtwMacidCtlSetH2cMsr, if_neg (Nat.not_le.mpr h)]
  split
  · rw [(lower_frame c _).1, (lower_frame c _).2]
    exact ⟨rfl, rfl⟩
  · split
    · rw [(raise_frame c _).1, (raise_frame c _).2]
      exact ⟨rfl, rfl⟩
    · exact ⟨rfl, rfl⟩

theorem report_opNum (h : r.id.toNat < c.num) (hk : k < h2cMsrRoleMax) :
    (c.report r).opNum k = c.opNum k +
      (if countedRole r.msr = some k ∧ opmode (c.h2cMsr r.id.toNat) = false then 1 else 0) -
      (if countedRole (c.h2cMsr r.id.toNat) = some k ∧ opmode r.msr = false then 1 else 0) := by
  simp only [report, rtwMacidCtlSetH2cMsr, if_neg (Nat.not_le.mpr h), countedRole_iff hk]
  cases hold : opmode (c.h2cMsr r.id.toNat) with
  | true =>
    cases hnew : opmode r.msr with
    | true => simp
    | false => simpa using lower_opNum hk c _
  | false =>
    cases hnew : opmode r.msr with
    | true => simpa using raise_opNum hk c _
    | false => simp

theorem report_operating (h : r.id.toNat < c.num) (k : ℕ) :
    (c.report r).operating k +
        (if countedRole (c.h2cMsr r.id.toNat) = some k then 1 else 0) =
      c.operating k + if countedRole r.msr = some k then 1 else 0 := by
  have hclass : (fun i => countedRole (Function.update c.h2cMsr r.id.toNat r.msr i)) =
      Function.update (fun i => countedRole (c.h2cMsr i)) r.id.toNat (countedRole r.msr) :=
    Function.comp_update countedRole c.h2cMsr r.id.toNat r.msr
  rw [operating, (report_frame h).1, (report_frame h).2, hclass]
  exact census_update (Finset.mem_range.mpr h) _ _ k

theorem operating_lt (c : MsrCtl) (k : ℕ) : c.operating k < 2 ^ 8 - 1 := by
  have hle : c.operating k ≤ c.num := by
    exact (census_le (k := k)).trans_eq (Finset.card_range c.num)
  have hnum := c.num_le
  rw [macidNumSwLimit] at hnum
  omega

theorem operating_pos (h : r.id.toNat < c.num)
    (hk : countedRole (c.h2cMsr r.id.toNat) = some k) : 0 < c.operating k :=
  census_pos (Finset.mem_range.mpr h) hk

theorem Counted.report_iff (hc : c.Counted) (r : MsrReport) :
    (c.report r).Counted ↔ c.KeepsRole r := by
  cases Nat.lt_or_ge r.id.toNat c.num with
  | inr hout =>
    rw [report_of_le hout]
    exact iff_of_true hc fun h => absurd h (Nat.not_lt.mpr hout)
  | inl hid =>
    constructor
    · intro hafter _ hold hnew
      refine Option.ext fun k => ?_
      have hkept (hk : k < h2cMsrRoleMax) : (c.report r).operating k = c.operating k := by
        rw [← hafter k hk, ← hc k hk, report_opNum hid hk]
        simp [hold, hnew]
      have hmoved := report_operating hid k
      constructor
      · intro hk
        rw [hkept (lt_of_countedRole hk), if_pos hk] at hmoved
        by_contra hother
        rw [if_neg hother] at hmoved
        omega
      · intro hk
        rw [hkept (lt_of_countedRole hk), if_pos hk] at hmoved
        by_contra hother
        rw [if_neg hother] at hmoved
        omega
    · intro hkeeps k hk
      have hmoved := report_operating hid k
      have hcount := hc k hk
      have hroom := c.operating_lt k
      rw [report_opNum hid hk]
      cases hold : opmode (c.h2cMsr r.id.toNat) with
      | true =>
        cases hnew : opmode r.msr with
        | true =>
          rw [hkeeps hid hold hnew] at hmoved
          simp
          omega
        | false =>
          have hnone : countedRole r.msr = none := by simp [countedRole, hnew]
          rw [hnone] at hmoved
          cases Decidable.em (countedRole (c.h2cMsr r.id.toNat) = some k) with
          | inl hin =>
            have hpos := operating_pos hid hin
            simp [hin] at hmoved ⊢
            omega
          | inr hout =>
            simp [hout] at hmoved ⊢
            omega
      | false =>
        have hnone : countedRole (c.h2cMsr r.id.toNat) = none := by simp [countedRole, hold]
        rw [hnone] at hmoved
        cases Decidable.em (countedRole r.msr = some k) with
        | inl hin =>
          simp [hin, hnone] at hmoved ⊢
          omega
        | inr hout =>
          simp [hout, hnone] at hmoved ⊢
          omega

theorem Counted.not_underflows (hc : c.Counted) (r : MsrReport) : ¬ c.Underflows r := by
  rintro ⟨hid, hold, -, hrole, hzero⟩
  have hcount := hc _ hrole
  have hpos := operating_pos hid ((countedRole_iff hrole _).mpr ⟨hold, rfl⟩)
  rw [hzero] at hcount
  exact absurd hcount.symm (Nat.ne_of_gt hpos)

theorem counted_init (num : ℕ) (h : num ≤ macidNumSwLimit) : (init num h).Counted := by
  intro k _
  have hnone : countedRole 0 = none := by decide
  rw [operating, census, Finset.card_eq_zero.mpr]
  · rfl
  · apply Finset.filter_eq_empty_iff.mpr
    intro i _ hsome
    exact Option.some_ne_none k (hsome.symm.trans hnone)

theorem each_counted_iff (hc : c.Counted) (rs : List MsrReport) :
    Run.Each report (fun c r => (c.report r).Counted ∧ ¬ c.Underflows r) c rs ↔
      Run.Each report KeepsRole c rs := by
  refine Run.each_iff report _ _ Counted (fun c r hc => ?_) (fun c r _ hok => hok.1) hc rs
  rw [and_iff_left (hc.not_underflows r)]
  exact hc.report_iff r

theorem op_num_law (num : ℕ) (h : num ≤ macidNumSwLimit) (rs : List MsrReport) :
    Run.Each report (fun c r => (c.report r).Counted ∧ ¬ c.Underflows r) (init num h) rs ↔
      Run.Each report KeepsRole (init num h) rs :=
  each_counted_iff (counted_init num h) rs

theorem op_num_law_sixteen :
    Run.Each report (fun c r => (c.report r).Counted ∧ ¬ c.Underflows r)
        (init macidNum (by decide)) [⟨0, 0x11⟩, ⟨3, 0x21⟩, ⟨0, 0x10⟩] ↔
      Run.Each report KeepsRole (init macidNum (by decide)) [⟨0, 0x11⟩, ⟨3, 0x21⟩, ⟨0, 0x10⟩] :=
  op_num_law macidNum (by decide) _

theorem role_changed_while_operating :
    ¬ Run.Each report (fun c r => (c.report r).Counted ∧ ¬ c.Underflows r)
      (init macidNum (by decide)) [⟨0, 0x11⟩, ⟨0, 0x21⟩, ⟨0, 0x20⟩] := by
  rw [each_counted_iff (counted_init _ _)]
  decide

end MsrCtl

end Cam
