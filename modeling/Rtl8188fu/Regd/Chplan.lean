import Mathlib.Data.List.Basic
import Mathlib.Data.List.Forall2
import Mathlib.Data.List.Perm.Basic
import Mathlib.Data.UInt

namespace Regd

def rtwChfDis : UInt8 := 0x01

def rtwChfNoIr : UInt8 := 0x02

def rtwChfDfs : UInt8 := 0x04

def cla2g1214Passive : UInt8 := 0x01

def cla5gB1Passive : UInt8 := 0x01
def cla5gB2Passive : UInt8 := 0x02
def cla5gB3Passive : UInt8 := 0x04
def cla5gB4Passive : UInt8 := 0x08
def cla5gB2Dfs : UInt8 := 0x10
def cla5gB3Dfs : UInt8 := 0x20
def cla5gB4Dfs : UInt8 := 0x40

structure ChList where
  chs : List UInt8
  attrib : UInt8

structure ChplanEnt where
  chd2g : ℕ
  chd5g : ℕ

-- band5g is the build's CONFIG_IEEE80211_BAND_5GHZ
structure Regdb where
  band5g : Bool
  channelPlanMap : List ChplanEnt
  channelDef2g : List ChList
  channelDef5g : List ChList

def is5gBand1 (ch : UInt8) : Bool := decide (36 ≤ ch ∧ ch ≤ 48)
def is5gBand2 (ch : UInt8) : Bool := decide (52 ≤ ch ∧ ch ≤ 64)
def is5gBand3 (ch : UInt8) : Bool := decide (100 ≤ ch ∧ ch ≤ 144)
def is5gBand4 (ch : UInt8) : Bool := decide (149 ≤ ch ∧ ch ≤ 177)

namespace Regdb

variable (db : Regdb)

def isDomainCodeValid (id : UInt8) : Bool :=
  match db.channelPlanMap[id.toNat]? with
  | none => false
  | some ent => decide (ent.chd2g ≠ 0) && (!db.band5g || decide (ent.chd5g ≠ 0))

def flags5g (attrib ch : UInt8) : UInt8 :=
  (if is5gBand1 ch && decide (attrib &&& cla5gB1Passive ≠ 0)
      || is5gBand2 ch && decide (attrib &&& cla5gB2Passive ≠ 0)
      || is5gBand3 ch && decide (attrib &&& cla5gB3Passive ≠ 0)
      || is5gBand4 ch && decide (attrib &&& cla5gB4Passive ≠ 0)
    then rtwChfNoIr else 0) |||
  (if is5gBand2 ch && decide (attrib &&& cla5gB2Dfs ≠ 0)
      || is5gBand3 ch && decide (attrib &&& cla5gB3Dfs ≠ 0)
      || is5gBand4 ch && decide (attrib &&& cla5gB4Dfs ≠ 0)
    then rtwChfDfs else 0)

def flags2g (attrib ch : UInt8) : UInt8 :=
  if 12 ≤ ch ∧ ch ≤ 14 ∧ attrib &&& cla2g1214Passive ≠ 0 then rtwChfNoIr else 0

def domainGetCh (id ch : UInt8) : Option UInt8 :=
  match db.channelPlanMap[id.toNat]? with
  | none => none
  | some ent =>
    if db.band5g = true ∧ 14 < ch then
      (db.channelDef5g[ent.chd5g]?).bind fun l =>
        if ch ∈ l.chs then some (flags5g l.attrib ch) else none
    else
      (db.channelDef2g[ent.chd2g]?).bind fun l =>
        if ch ∈ l.chs then some (flags2g l.attrib ch) else none

end Regdb

inductive BandType where
  | on24g
  | on5g
  deriving DecidableEq

-- w is the number of bits of an unsigned long, which holds the times
structure ChannelInfo (w : ℕ) where
  band : BandType
  channelNum : UInt8
  flags : UInt8
  regNoIr : Bool
  bcnHintEndTime : BitVec w
  deriving DecidableEq

inductive RegdSrc where
  | rtkPriv
  | os
  deriving DecidableEq

structure RegdReq where
  applied : Bool
  src : RegdSrc
  domainCode : UInt8

structure RfCtl (w : ℕ) where
  alpha2 : UInt8 × UInt8
  en11a : Bool
  disChFlags : UInt8
  exclChs : List UInt8
  regdReqList : List RegdReq
  chs : List (ChannelInfo w)
  chsLen : chs.length < 256
  enableChNum : UInt8

section Times

variable {w : ℕ}

def rtwTimeAfter (a b : BitVec w) : Bool := (b - a).slt 0

def chIsBcnHint (now : BitVec w) (c : ChannelInfo w) : Bool :=
  decide (c.bcnHintEndTime ≠ 0) && rtwTimeAfter c.bcnHintEndTime now

end Times

-- the list ends at its first zero
def rtwRfctlIsExclChs (exclChs : List UInt8) (ch : UInt8) : Bool :=
  decide (ch ∈ exclChs.takeWhile fun x => decide (x ≠ 0))

def regAllowBeaconHint (alpha2 : UInt8 × UInt8) : Bool :=
  decide (alpha2 = (0x30, 0x30) ∨ alpha2 = (0x39, 0x39) ∨ alpha2 = (0x39, 0x38))

def chinfoAllowBeaconHint {w : ℕ} (c : ChannelInfo w) : Bool :=
  !(decide (c.band = .on24g) && decide (c.channelNum ≤ 11)) && decide (c.flags &&& rtwChfDfs = 0)

section Apply

variable (db : Regdb) {w : ℕ}

def usableCh (dFlags plan ch : UInt8) : Option UInt8 :=
  (db.domainGetCh plan ch).filter fun flags => decide (flags &&& dFlags = 0)

def applyPlan (dFlags plan : UInt8) (c : ChannelInfo w) : ChannelInfo w :=
  if c.flags &&& rtwChfDis ≠ 0 then c
  else if c.band = .on24g ∨ db.band5g = true ∧ c.band = .on5g then
    if db.isDomainCodeValid plan = false then c
    else
      match usableCh db dFlags plan c.channelNum with
      | some flags => { c with flags := c.flags ||| flags }
      | none => { c with flags := rtwChfDis }
  else { c with flags := rtwChfDis }

def rtwChsetApplyFromRtkPriv (chs : List (ChannelInfo w)) (plan dFlags : UInt8) :
    List (ChannelInfo w) :=
  chs.map (applyPlan db dFlags plan)

def applyRegdReq (dFlags : UInt8) (chs : List (ChannelInfo w)) (req : RegdReq) :
    List (ChannelInfo w) :=
  if req.applied = true ∧ req.src = .rtkPriv then
    rtwChsetApplyFromRtkPriv db chs req.domainCode dFlags
  else chs

def rtwRfctlChsetApplyRegdReqs (dFlags : UInt8) (chs : List (ChannelInfo w)) (reqs : List RegdReq) :
    List (ChannelInfo w) :=
  reqs.foldl (applyRegdReq db dFlags) chs

def rfctlRegEn11a (en11a : Bool) : Bool := db.band5g && en11a

def resetFlags (rf : RfCtl w) (c : ChannelInfo w) : ChannelInfo w :=
  if c.band = .on5g ∧ rfctlRegEn11a db rf.en11a = false ∨
      rtwRfctlIsExclChs rf.exclChs c.channelNum = true then
    { c with flags := rtwChfDis }
  else { c with flags := 0 }

def finish (alpha2 : UInt8 × UInt8) (now : BitVec w) (c : ChannelInfo w) : ChannelInfo w :=
  let c := { c with regNoIr := decide (c.flags &&& rtwChfNoIr ≠ 0) }
  if c.flags &&& rtwChfDis ≠ 0 then c
  else if c.flags &&& rtwChfNoIr ≠ 0 ∧ chIsBcnHint now c = true ∧ regAllowBeaconHint alpha2 = true ∧
      chinfoAllowBeaconHint c = true then
    { c with flags := c.flags &&& ~~~ rtwChfNoIr }
  else c

def countEnabled (chs : List (ChannelInfo w)) : UInt8 :=
  chs.foldl (fun n c => if c.flags &&& rtwChfDis ≠ 0 then n else n + 1) 0

theorem length_applyRegdReqs (dFlags : UInt8) (chs : List (ChannelInfo w)) (reqs : List RegdReq) :
    (rtwRfctlChsetApplyRegdReqs db dFlags chs reqs).length = chs.length := by
  induction reqs generalizing chs with
  | nil => rfl
  | cons req reqs ih =>
    refine (ih _).trans ?_
    rw [applyRegdReq]
    split
    · exact List.length_map _
    · rfl

def rtwRfctlChsetApplyRegulatory (now : BitVec w) (rf : RfCtl w) : RfCtl w :=
  let applied := rtwRfctlChsetApplyRegdReqs db rf.disChFlags (rf.chs.map (resetFlags db rf))
    rf.regdReqList
  { rf with
    chs := applied.map (finish rf.alpha2 now)
    chsLen := by
      rw [List.length_map, length_applyRegdReqs, List.length_map]
      exact rf.chsLen
    enableChNum := countEnabled applied }

end Apply

end Regd

namespace Regd

variable {w : ℕ} {db : Regdb} {now : BitVec w} {rf : RfCtl w} {c : ChannelInfo w}
  {dFlags plan ch f : UInt8}
variable {plans : List UInt8} {reqs : List RegdReq}

section Flags

theorem or_and_clear (a b k : UInt8) : (a ||| b) &&& k = a &&& k ||| b &&& k := by
  refine UInt8.toBitVec_inj.1 (BitVec.eq_of_getElem_eq fun i hi => ?_)
  simp only [UInt8.toBitVec_and, UInt8.toBitVec_or, BitVec.getElem_and, BitVec.getElem_or,
    Bool.and_or_distrib_right]

theorem flags2g_enabled (attrib ch : UInt8) : Regdb.flags2g attrib ch &&& rtwChfDis = 0 := by
  rw [Regdb.flags2g]
  split
  · decide
  · decide

theorem flags5g_enabled (attrib ch : UInt8) : Regdb.flags5g attrib ch &&& rtwChfDis = 0 := by
  rw [Regdb.flags5g, or_and_clear, UInt8.or_eq_zero_iff]
  constructor
  · split
    · decide
    · decide
  · split
    · decide
    · decide

theorem domainGetCh_enabled (h : db.domainGetCh plan ch = some f) : f &&& rtwChfDis = 0 := by
  rw [Regdb.domainGetCh] at h
  split at h
  · cases h
  · split at h
    · obtain ⟨l, -, hl⟩ := Option.bind_eq_some_iff.mp h
      split at hl
      · cases hl
        exact flags5g_enabled _ _
      · cases hl
    · obtain ⟨l, -, hl⟩ := Option.bind_eq_some_iff.mp h
      split at hl
      · cases hl
        exact flags2g_enabled _ _
      · cases hl

def Permits (db : Regdb) (dFlags : UInt8) (plans : List UInt8) (ch : UInt8) : Prop :=
  ∀ plan ∈ plans, ∃ f, db.domainGetCh plan ch = some f ∧ f &&& dFlags = 0

def permits (db : Regdb) (dFlags : UInt8) (plans : List UInt8) (ch : UInt8) : Bool :=
  plans.all fun plan => (usableCh db dFlags plan ch).isSome

def unionFlags (db : Regdb) (plans : List UInt8) (ch : UInt8) : UInt8 :=
  (plans.filterMap fun plan => db.domainGetCh plan ch).foldr (· ||| ·) 0

theorem permits_iff : permits db dFlags plans ch = true ↔ Permits db dFlags plans ch := by
  rw [permits, List.all_eq_true]
  refine forall_congr' fun plan => forall_congr' fun _ => ?_
  rw [Option.isSome_iff_exists, usableCh]
  refine exists_congr fun f => ?_
  rw [Option.filter_eq_some_iff, decide_eq_true_iff]

theorem union_enabled (db : Regdb) (plans : List UInt8) (ch : UInt8) :
    unionFlags db plans ch &&& rtwChfDis = 0 := by
  induction plans with
  | nil => exact (by decide : (0 : UInt8) &&& rtwChfDis = 0)
  | cons plan plans ih =>
    rw [unionFlags, List.filterMap_cons]
    cases hget : db.domainGetCh plan ch with
    | none => exact ih
    | some f =>
      simp only [List.foldr_cons]
      rw [or_and_clear, domainGetCh_enabled hget, UInt8.zero_or]
      exact ih

theorem permits_perm {plans' : List UInt8} (h : plans'.Perm plans) :
    permits db dFlags plans' ch = permits db dFlags plans ch := by
  refine Bool.eq_iff_iff.mpr (permits_iff.trans (Iff.trans ?_ permits_iff.symm))
  exact forall_congr' fun plan => imp_congr_left h.mem_iff

theorem union_perm {plans' : List UInt8} (h : plans'.Perm plans) :
    unionFlags db plans' ch = unionFlags db plans ch := by
  refine List.Perm.foldr_eq' (f := (· ||| ·)) (h.filterMap _) (fun a _ b _ z => ?_) 0
  rw [← UInt8.or_assoc, UInt8.or_comm b a, UInt8.or_assoc]

end Flags

section Fold

theorem applyPlan_disabled (h : c.flags = rtwChfDis) : applyPlan db dFlags plan c = c := by
  rw [applyPlan, h, if_pos (by decide)]

theorem applyPlan_enabled (hflags : c.flags &&& rtwChfDis = 0)
    (hband : c.band = .on5g → db.band5g = true) (hvalid : db.isDomainCodeValid plan = true) :
    applyPlan db dFlags plan c =
      match usableCh db dFlags plan c.channelNum with
      | some flags => { c with flags := c.flags ||| flags }
      | none => { c with flags := rtwChfDis } := by
  have hknown : c.band = .on24g ∨ db.band5g = true ∧ c.band = .on5g := by
    cases hb : c.band with
    | on24g => exact .inl rfl
    | on5g => exact .inr ⟨hband hb, rfl⟩
  rw [applyPlan, if_neg (not_not.mpr hflags), if_pos hknown, hvalid]
  refine (if_neg (by decide)).trans ?_
  cases usableCh db dFlags plan c.channelNum with
  | none => rfl
  | some f => rfl

def applyPlans (db : Regdb) (dFlags : UInt8) (plans : List UInt8) (c : ChannelInfo w) :
    ChannelInfo w :=
  plans.foldl (fun c plan => applyPlan db dFlags plan c) c

theorem applyPlans_disabled (h : c.flags = rtwChfDis) : applyPlans db dFlags plans c = c := by
  induction plans with
  | nil => rfl
  | cons plan plans ih =>
    rw [applyPlans, List.foldl_cons, applyPlan_disabled h]
    exact ih

theorem applyPlans_enabled (hflags : c.flags &&& rtwChfDis = 0)
    (hband : c.band = .on5g → db.band5g = true)
    (hvalid : ∀ plan ∈ plans, db.isDomainCodeValid plan = true) :
    applyPlans db dFlags plans c =
      if permits db dFlags plans c.channelNum then
        { c with flags := c.flags ||| unionFlags db plans c.channelNum }
      else { c with flags := rtwChfDis } := by
  induction plans generalizing c with
  | nil => rw [permits, List.all_nil, if_pos rfl, unionFlags, List.filterMap_nil, List.foldr_nil,
      UInt8.or_zero]; rfl
  | cons plan plans ih =>
    have hlater := fun p hp => hvalid p (List.mem_cons_of_mem plan hp)
    rw [applyPlans, List.foldl_cons, applyPlan_enabled hflags hband (hvalid plan List.mem_cons_self),
      permits, List.all_cons]
    cases husable : usableCh db dFlags plan c.channelNum with
    | none => exact applyPlans_disabled rfl
    | some f =>
      have hget := (Option.filter_eq_some_iff.mp husable).1
      have hclear : (c.flags ||| f) &&& rtwChfDis = 0 := by
        rw [or_and_clear, hflags, domainGetCh_enabled hget]
        rfl
      have hunion : unionFlags db (plan :: plans) c.channelNum =
          f ||| unionFlags db plans c.channelNum := by
        rw [unionFlags, List.filterMap_cons, hget]
        rfl
      have hrest := ih (c := { c with flags := c.flags ||| f }) hclear hband hlater
      rw [Option.isSome_some, Bool.true_and, hunion, ← UInt8.or_assoc]
      exact hrest

end Fold

def plansOf (reqs : List RegdReq) : List UInt8 :=
  (reqs.filter (·.applied)).map RegdReq.domainCode

structure RegdInput (w : ℕ) (db : Regdb) extends RfCtl w where
  priv : ∀ r ∈ regdReqList, r.applied = true → r.src = .rtkPriv ∧
    db.isDomainCodeValid r.domainCode = true

def Blocked (db : Regdb) (rf : RfCtl w) (c : ChannelInfo w) : Prop :=
  c.band = .on5g ∧ rfctlRegEn11a db rf.en11a = false ∨
    rtwRfctlIsExclChs rf.exclChs c.channelNum = true

instance (db : Regdb) (rf : RfCtl w) (c : ChannelInfo w) : Decidable (Blocked db rf c) :=
  inferInstanceAs (Decidable (_ ∨ _))

def settled (db : Regdb) (rf : RfCtl w) (c : ChannelInfo w) : ChannelInfo w :=
  if ¬ Blocked db rf c ∧ permits db rf.disChFlags (plansOf rf.regdReqList) c.channelNum then
    { c with flags := unionFlags db (plansOf rf.regdReqList) c.channelNum }
  else { c with flags := rtwChfDis }

section Channels

theorem plansOf_cons (r : RegdReq) (reqs : List RegdReq) :
    plansOf (r :: reqs) = if r.applied then r.domainCode :: plansOf reqs else plansOf reqs := by
  rw [plansOf, List.filter_cons]
  split
  · rfl
  · rfl

theorem applyRegdReqs_plans (chs : List (ChannelInfo w))
    (hpriv : ∀ r ∈ reqs, r.applied = true → r.src = .rtkPriv) :
    rtwRfctlChsetApplyRegdReqs db dFlags chs reqs =
      chs.map (applyPlans db dFlags (plansOf reqs)) := by
  induction reqs generalizing chs with
  | nil => exact (List.map_id chs).symm
  | cons r reqs ih =>
    have hlater := fun s hs => hpriv s (List.mem_cons_of_mem r hs)
    rw [rtwRfctlChsetApplyRegdReqs, List.foldl_cons, applyRegdReq, plansOf_cons]
    cases happlied : r.applied with
    | false =>
      rw [if_neg (fun h => Bool.false_ne_true h.1), if_neg Bool.false_ne_true]
      exact ih chs hlater
    | true =>
      rw [if_pos ⟨rfl, hpriv r List.mem_cons_self happlied⟩, if_pos rfl, rtwChsetApplyFromRtkPriv]
      refine (ih _ hlater).trans ?_
      rw [List.map_map]
      rfl

theorem plansOf_valid (rf : RegdInput w db) :
    ∀ plan ∈ plansOf rf.regdReqList, db.isDomainCodeValid plan = true := by
  intro plan hplan
  obtain ⟨r, hr, rfl⟩ := List.mem_map.mp hplan
  obtain ⟨hmem, happlied⟩ := List.mem_filter.mp hr
  exact (rf.priv r hmem happlied).2

theorem applyPlans_reset (rf : RegdInput w db) (c : ChannelInfo w) :
    applyPlans db rf.disChFlags (plansOf rf.regdReqList) (resetFlags db rf.toRfCtl c) =
      settled db rf.toRfCtl c := by
  cases Decidable.em (Blocked db rf.toRfCtl c) with
  | inl hblocked =>
    have hreset : resetFlags db rf.toRfCtl c = { c with flags := rtwChfDis } := if_pos hblocked
    rw [hreset, settled, if_neg fun h => h.1 hblocked]
    exact applyPlans_disabled rfl
  | inr hfree =>
    have hreset : resetFlags db rf.toRfCtl c = { c with flags := 0 } := if_neg hfree
    have hband : c.band = .on5g → db.band5g = true := by
      intro hb
      have hen := Bool.eq_true_of_not_eq_false fun hoff => hfree (.inl ⟨hb, hoff⟩)
      exact (Bool.and_eq_true_iff.mp hen).1
    have hclear : (0 : UInt8) &&& rtwChfDis = 0 := by decide
    have hplans := @applyPlans_enabled w db { c with flags := 0 } rf.disChFlags _ hclear hband
      (plansOf_valid rf)
    rw [hreset, hplans, settled, UInt8.zero_or]
    simp only [hfree, not_false_eq_true, true_and]

theorem applied_chs (rf : RegdInput w db) :
    rtwRfctlChsetApplyRegdReqs db rf.disChFlags (rf.chs.map (resetFlags db rf.toRfCtl))
      rf.regdReqList = rf.chs.map (settled db rf.toRfCtl) := by
  rw [applyRegdReqs_plans _ fun r hr happlied => (rf.priv r hr happlied).1, List.map_map]
  exact List.map_congr_left fun c _ => applyPlans_reset rf c

def Enabled (c : ChannelInfo w) : Prop := c.flags &&& rtwChfDis = 0

instance (c : ChannelInfo w) : Decidable (Enabled c) := inferInstanceAs (Decidable (_ = _))

def HintLifts (db : Regdb) (now : BitVec w) (rf : RfCtl w) (c : ChannelInfo w) : Prop :=
  chIsBcnHint now c = true ∧ regAllowBeaconHint rf.alpha2 = true ∧
    ¬ (c.band = .on24g ∧ c.channelNum ≤ 11) ∧
    unionFlags db (plansOf rf.regdReqList) c.channelNum &&& rtwChfDfs = 0

instance (db : Regdb) (now : BitVec w) (rf : RfCtl w) (c : ChannelInfo w) :
    Decidable (HintLifts db now rf c) := inferInstanceAs (Decidable (_ ∧ _))

structure ChannelLaw (db : Regdb) (now : BitVec w) (rf : RfCtl w) (old new : ChannelInfo w) :
    Prop where
  same : new.band = old.band ∧ new.channelNum = old.channelNum ∧
    new.bcnHintEndTime = old.bcnHintEndTime
  enabled : Enabled new ↔ ¬ Blocked db rf old ∧
    Permits db rf.disChFlags (plansOf rf.regdReqList) old.channelNum
  flags : Enabled new → new.flags =
    if HintLifts db now rf old then
      unionFlags db (plansOf rf.regdReqList) old.channelNum &&& ~~~ rtwChfNoIr
    else unionFlags db (plansOf rf.regdReqList) old.channelNum
  disabled : ¬ Enabled new → new.flags = rtwChfDis

structure RegulatoryLaw (db : Regdb) (now : BitVec w) (rf : RegdInput w db) : Prop where
  channels : List.Forall₂ (ChannelLaw db now rf.toRfCtl) rf.chs
    (rtwRfctlChsetApplyRegulatory db now rf.toRfCtl).chs
  count : (rtwRfctlChsetApplyRegulatory db now rf.toRfCtl).enableChNum.toNat =
    (rtwRfctlChsetApplyRegulatory db now rf.toRfCtl).chs.countP fun c => decide (Enabled c)
  order : ∀ reqs, reqs.Perm rf.regdReqList →
    rtwRfctlChsetApplyRegulatory db now { rf.toRfCtl with regdReqList := reqs } =
      { rtwRfctlChsetApplyRegulatory db now rf.toRfCtl with regdReqList := reqs }

theorem and_not_enabled {u : UInt8} (h : u &&& rtwChfDis = 0) (k : UInt8) :
    (u &&& k) &&& rtwChfDis = 0 := by
  rw [UInt8.and_assoc, UInt8.and_comm k, ← UInt8.and_assoc, h, UInt8.zero_and]

theorem and_not_clear {u k : UInt8} (h : u &&& k = 0) : u &&& ~~~ k = u := by
  refine UInt8.toBitVec_inj.1 (BitVec.eq_of_getElem_eq fun i hi => ?_)
  have hbit := congrArg (fun x : UInt8 => x.toBitVec[i]) h
  simp only [UInt8.toBitVec_and, UInt8.toBitVec_zero, BitVec.getElem_and, BitVec.getElem_zero] at hbit
  simp only [UInt8.toBitVec_and, UInt8.toBitVec_not, BitVec.getElem_and, BitVec.getElem_not]
  cases hu : u.toBitVec[i] with
  | false => rfl
  | true =>
    rw [hu, Bool.true_and] at hbit
    rw [hbit]
    rfl

theorem chinfoAllow_iff (c : ChannelInfo w) : chinfoAllowBeaconHint c = true ↔
    ¬ (c.band = .on24g ∧ c.channelNum ≤ 11) ∧ c.flags &&& rtwChfDfs = 0 := by
  rw [chinfoAllowBeaconHint, Bool.and_eq_true, Bool.not_eq_true', Bool.and_eq_false_imp,
    decide_eq_true_iff, decide_eq_true_iff, decide_eq_false_iff_not, not_and]

theorem finish_disabled (alpha2 : UInt8 × UInt8) (now : BitVec w) (h : ¬ Enabled c) :
    (finish alpha2 now c).flags = c.flags := by
  have hstop : finish alpha2 now c = { c with regNoIr := decide (c.flags &&& rtwChfNoIr ≠ 0) } :=
    if_pos h
  rw [hstop]

theorem finish_flags (alpha2 : UInt8 × UInt8) (now : BitVec w) (h : Enabled c) :
    (finish alpha2 now c).flags =
      if chIsBcnHint now c = true ∧ regAllowBeaconHint alpha2 = true ∧
          ¬ (c.band = .on24g ∧ c.channelNum ≤ 11) ∧ c.flags &&& rtwChfDfs = 0 then
        c.flags &&& ~~~ rtwChfNoIr
      else c.flags := by
  have hstay : ¬ c.flags &&& rtwChfDis ≠ 0 := not_not.mpr h
  have hallow := chinfoAllow_iff { c with regNoIr := decide (c.flags &&& rtwChfNoIr ≠ 0) }
  rw [finish]
  simp only [if_neg hstay, hallow]
  cases Decidable.em (c.flags &&& rtwChfNoIr = 0) with
  | inl hfree =>
    simp only [hfree, ne_eq, not_true_eq_false, false_and, and_not_clear hfree, ite_self]
  | inr hheld =>
    simp only [hheld, ne_eq, not_false_eq_true, true_and]
    split
    · rename_i hlift
      exact (if_pos hlift).symm
    · rename_i hlift
      exact (if_neg hlift).symm

theorem finish_same (alpha2 : UInt8 × UInt8) (now : BitVec w) (c : ChannelInfo w) :
    (finish alpha2 now c).band = c.band ∧ (finish alpha2 now c).channelNum = c.channelNum ∧
      (finish alpha2 now c).bcnHintEndTime = c.bcnHintEndTime := by
  rw [finish]
  simp only
  split
  · exact ⟨rfl, rfl, rfl⟩
  · split
    · exact ⟨rfl, rfl, rfl⟩
    · exact ⟨rfl, rfl, rfl⟩

theorem finish_enabled (alpha2 : UInt8 × UInt8) (now : BitVec w) (c : ChannelInfo w) :
    Enabled (finish alpha2 now c) ↔ Enabled c := by
  cases Decidable.em (Enabled c) with
  | inl h =>
    refine iff_of_true ?_ h
    rw [Enabled, finish_flags alpha2 now h]
    split
    · exact and_not_enabled h _
    · exact h
  | inr h =>
    refine iff_of_false (fun hen => h ?_) h
    rwa [Enabled, finish_disabled alpha2 now h] at hen

theorem settled_enabled (rf : RfCtl w) (c : ChannelInfo w) :
    Enabled (settled db rf c) ↔ ¬ Blocked db rf c ∧
      Permits db rf.disChFlags (plansOf rf.regdReqList) c.channelNum := by
  rw [← permits_iff, settled]
  split
  · rename_i hopen
    exact iff_of_true (union_enabled db _ _) hopen
  · rename_i hshut
    exact iff_of_false (by decide : ¬ rtwChfDis &&& rtwChfDis = 0) hshut

theorem finish_settled (rf : RfCtl w) (c : ChannelInfo w) :
    ChannelLaw db now rf c (finish rf.alpha2 now (settled db rf c)) := by
  have hsame := finish_same rf.alpha2 now (settled db rf c)
  have hiff := (finish_enabled rf.alpha2 now (settled db rf c)).trans (settled_enabled rf c)
  cases Decidable.em (¬ Blocked db rf c ∧
      permits db rf.disChFlags (plansOf rf.regdReqList) c.channelNum = true) with
  | inl hopen =>
    have hsettled : settled db rf c =
        { c with flags := unionFlags db (plansOf rf.regdReqList) c.channelNum } := if_pos hopen
    have hen : Enabled (settled db rf c) := by
      rw [hsettled]
      exact union_enabled db _ _
    refine ⟨?_, hiff, fun _ => ?_, fun hdis => absurd ((finish_enabled _ now _).mpr hen) hdis⟩
    · rw [hsettled] at hsame ⊢
      exact hsame
    · rw [finish_flags rf.alpha2 now hen, hsettled]
      rfl
  | inr hshut =>
    have hsettled : settled db rf c = { c with flags := rtwChfDis } := if_neg hshut
    have hdis : ¬ Enabled (settled db rf c) := by
      rw [hsettled]
      exact (by decide : ¬ rtwChfDis &&& rtwChfDis = 0)
    refine ⟨?_, hiff, fun hen => absurd ((finish_enabled _ now _).mp hen) hdis, fun _ => ?_⟩
    · rw [hsettled] at hsame ⊢
      exact hsame
    · rw [finish_disabled rf.alpha2 now hdis, hsettled]

theorem countEnabled_eq (chs : List (ChannelInfo w)) (h : chs.length < 256) :
    (countEnabled chs).toNat = chs.countP fun c => decide (Enabled c) := by
  have hgo (todo : List (ChannelInfo w)) (n : UInt8) (hroom : n.toNat + todo.length < 256) :
      (todo.foldl (fun n c => if c.flags &&& rtwChfDis ≠ 0 then n else n + 1) n).toNat =
        n.toNat + todo.countP fun c => decide (Enabled c) := by
    induction todo generalizing n with
    | nil => rfl
    | cons c todo ih =>
      rw [List.length_cons] at hroom
      rw [List.foldl_cons, List.countP_cons]
      cases Decidable.em (Enabled c) with
      | inl hen =>
        have hnext : (n + 1).toNat = n.toNat + 1 := by
          rw [UInt8.toNat_add]
          exact Nat.mod_eq_of_lt (by simp only [UInt8.toNat_one]; omega)
        have hstep : (if c.flags &&& rtwChfDis ≠ 0 then n else n + 1) = n + 1 :=
          if_neg (not_not.mpr hen)
        rw [hstep, ih (n + 1) (by omega), if_pos (decide_eq_true hen), hnext]
        omega
      | inr hdis =>
        have hstep : (if c.flags &&& rtwChfDis ≠ 0 then n else n + 1) = n := if_pos hdis
        rw [hstep, ih n (by omega), if_neg (fun hen => hdis (of_decide_eq_true hen)),
          Nat.add_zero]
  have hall := hgo chs 0 (by simpa using h)
  rwa [UInt8.toNat_zero, Nat.zero_add] at hall

theorem plansOf_perm {reqs' : List RegdReq} (h : reqs'.Perm reqs) :
    (plansOf reqs').Perm (plansOf reqs) := (h.filter _).map _

theorem settled_perm (rf : RfCtl w) (h : reqs.Perm rf.regdReqList) :
    settled db { rf with regdReqList := reqs } = settled db rf := by
  funext c
  have hplans := plansOf_perm h
  rw [settled, settled]
  simp only [permits_perm hplans, union_perm hplans]
  rfl

theorem regulatory_chs (now : BitVec w) (rf : RegdInput w db) :
    (rtwRfctlChsetApplyRegulatory db now rf.toRfCtl).chs =
      rf.chs.map fun c => finish rf.alpha2 now (settled db rf.toRfCtl c) := by
  rw [rtwRfctlChsetApplyRegulatory]
  simp only [applied_chs rf, List.map_map]
  rfl

theorem regulatory_count (now : BitVec w) (rf : RegdInput w db) :
    (rtwRfctlChsetApplyRegulatory db now rf.toRfCtl).enableChNum =
      countEnabled (rf.chs.map (settled db rf.toRfCtl)) := by
  rw [rtwRfctlChsetApplyRegulatory]
  simp only [applied_chs rf]

def RegdInput.reorder (rf : RegdInput w db) (h : reqs.Perm rf.regdReqList) : RegdInput w db where
  toRfCtl := { rf.toRfCtl with regdReqList := reqs }
  priv := fun r hr => rf.priv r (h.mem_iff.mp hr)

theorem regulatory_law (db : Regdb) (now : BitVec w) (rf : RegdInput w db) :
    RegulatoryLaw db now rf := by
  refine ⟨?_, ?_, fun reqs hperm => ?_⟩
  · rw [regulatory_chs, List.forall₂_map_right_iff, List.forall₂_same]
    exact fun c _ => finish_settled rf.toRfCtl c
  · rw [regulatory_count, regulatory_chs, countEnabled_eq _ (by rw [List.length_map]; exact rf.chsLen),
      List.countP_map, List.countP_map]
    refine congrArg (List.countP · rf.chs) (funext fun c => ?_)
    exact decide_eq_decide.mpr (finish_enabled rf.alpha2 now (settled db rf.toRfCtl c)).symm
  · have hchs := regulatory_chs now (rf.reorder hperm)
    have hcount := regulatory_count now (rf.reorder hperm)
    have hsame : settled db { rf.toRfCtl with regdReqList := reqs } = settled db rf.toRfCtl :=
      settled_perm rf.toRfCtl hperm
    rw [RegdInput.reorder] at hchs hcount
    simp only [hsame] at hchs hcount
    rw [← regulatory_chs] at hchs
    rw [← regulatory_count now] at hcount
    rw [RfCtl.mk.injEq]
    exact ⟨rfl, rfl, rfl, rfl, rfl, hchs, hcount⟩

end Channels

-- two plans of which only one names channels 11 and 14, channel 6 excluded, and a beacon heard on 12
def twoPlans : Regdb :=
  ⟨false, [⟨1, 0⟩, ⟨2, 0⟩],
    [⟨[], 0⟩, ⟨[1, 6, 11, 12], cla2g1214Passive⟩, ⟨[1, 6, 12, 14], 0⟩], []⟩

def hintedInput : RegdInput 32 twoPlans where
  alpha2 := (0x30, 0x30)
  en11a := false
  disChFlags := 0
  exclChs := [6, 0]
  regdReqList := [⟨true, .rtkPriv, 0⟩, ⟨true, .rtkPriv, 1⟩]
  chs := [⟨.on24g, 1, 0, false, 0⟩, ⟨.on24g, 6, 0, false, 0⟩, ⟨.on24g, 11, 0, false, 0⟩,
    ⟨.on24g, 12, 0, false, 900⟩, ⟨.on24g, 14, 0, false, 0⟩]
  chsLen := by decide
  enableChNum := 0
  priv := by decide

example : (rtwRfctlChsetApplyRegulatory twoPlans 100 hintedInput.toRfCtl).chs.map
      ChannelInfo.flags = [0, rtwChfDis, rtwChfDis, 0, rtwChfDis] ∧
    (rtwRfctlChsetApplyRegulatory twoPlans 1000 hintedInput.toRfCtl).chs.map
      ChannelInfo.flags = [0, rtwChfDis, rtwChfDis, rtwChfNoIr, rtwChfDis] := by
  decide

end Regd
