import Mathlib.Data.Fintype.Card
import Mathlib.Data.List.FinRange
import Mathlib.Logic.Function.Basic
import Rtl8188fu.Ap.StaTable

namespace Ap

open Recv (MacAddr localAddr)

def numAcl : ℕ := 16

def rtwAclPeriodNum : ℕ := 2

def rtwAclModeDisabled : ℤ := 0

structure RtwWlanAclNode where
  addr : MacAddr
  valid : Bool

structure WlanAclPool where
  mode : ℤ
  num : ℤ
  aclnode : Fin numAcl → RtwWlanAclNode
  aclNodeQ : List (Fin numAcl)

namespace WlanAclPool

variable (acl : WlanAclPool)

def init : WlanAclPool where
  mode := rtwAclModeDisabled
  num := 0
  aclnode i := { acl.aclnode i with valid := false }
  aclNodeQ := []

def dropNode (i : Fin numAcl) : WlanAclPool where
  mode := acl.mode
  num := acl.num - 1
  aclnode := Function.update acl.aclnode i { acl.aclnode i with valid := false }
  aclNodeQ := acl.aclNodeQ.erase i

def visit (hit : MacAddr → Bool) (i : Fin numAcl) : WlanAclPool :=
  if hit (acl.aclnode i).addr && (acl.aclnode i).valid then acl.dropNode i else acl

def sweep (hit : MacAddr → Bool) : WlanAclPool :=
  acl.aclNodeQ.foldl (fun acl i => acl.visit hit i) acl

def deinit : WlanAclPool := { acl.sweep fun _ => true with mode := rtwAclModeDisabled }

def existed (addr : MacAddr) : Bool :=
  acl.aclNodeQ.any fun i => decide ((acl.aclnode i).addr = addr) && (acl.aclnode i).valid

def emptyNode : Option (Fin numAcl) :=
  (List.finRange numAcl).find? fun i => !(acl.aclnode i).valid

def useNode (i : Fin numAcl) (addr : MacAddr) : WlanAclPool where
  mode := acl.mode
  num := acl.num + 1
  aclnode := Function.update acl.aclnode i ⟨addr, true⟩
  aclNodeQ := acl.aclNodeQ ++ [i]

def addSta (addr : MacAddr) : WlanAclPool × ℤ :=
  if acl.existed addr then (acl, 0)
  else if (numAcl : ℤ) ≤ acl.num then (acl, -1)
  else
    match acl.emptyNode with
    | none => (acl, -1)
    | some i => (acl.useNode i addr, 0)

def removeSta (addr : MacAddr) : WlanAclPool :=
  acl.sweep fun a => decide (addr = bcAddr) || decide (a = addr)

structure Sound : Prop where
  nodup : acl.aclNodeQ.Nodup
  valid : ∀ i, i ∈ acl.aclNodeQ ↔ (acl.aclnode i).valid = true
  num : acl.num = acl.aclNodeQ.length
  distinct : (acl.aclNodeQ.map fun i => (acl.aclnode i).addr).Nodup

def Lists (addr : MacAddr) : Prop := ∃ i ∈ acl.aclNodeQ, (acl.aclnode i).addr = addr

end WlanAclPool

structure AclLists where
  aclList : Fin rtwAclPeriodNum → WlanAclPool

inductive AclOp where
  | add (period : UInt8) (addr : MacAddr)
  | remove (period : UInt8) (addr : MacAddr)
  | clear (period : UInt8)

namespace AclLists

variable (s : AclLists)

def atPeriod (period : UInt8) (f : WlanAclPool → WlanAclPool) : AclLists :=
  if h : period.toNat < rtwAclPeriodNum then
    ⟨Function.update s.aclList ⟨period.toNat, h⟩ (f (s.aclList ⟨period.toNat, h⟩))⟩
  else s

def init : AclLists := ⟨fun p => (s.aclList p).init⟩

def rtwAclAddSta (period : UInt8) (addr : MacAddr) : AclLists × ℤ :=
  if h : period.toNat < rtwAclPeriodNum then
    let p : Fin rtwAclPeriodNum := ⟨period.toNat, h⟩
    let r := (s.aclList p).addSta addr
    (⟨Function.update s.aclList p r.1⟩, r.2)
  else (s, -1)

def rtwAclRemoveSta (period : UInt8) (addr : MacAddr) : AclLists :=
  s.atPeriod period fun acl => acl.removeSta addr

def rtwMacaddrAclClear (period : UInt8) : AclLists := s.atPeriod period WlanAclPool.deinit

def step (s : AclLists) : AclOp → AclLists
  | .add period addr => (s.rtwAclAddSta period addr).1
  | .remove period addr => s.rtwAclRemoveSta period addr
  | .clear period => s.rtwMacaddrAclClear period

end AclLists

section Pool

variable {acl : WlanAclPool} {hit : MacAddr → Bool} {i : Fin numAcl} {addr a : MacAddr}

theorem WlanAclPool.Sound.listed_iff (h : acl.Sound) :
    acl.existed addr = true ↔ acl.Lists addr := by
  rw [WlanAclPool.existed, List.any_eq_true]
  refine exists_congr fun i => and_congr_right fun hi => ?_
  rw [(h.valid i).mp hi, Bool.and_true, decide_eq_true_iff]

theorem dropNode_node (acl : WlanAclPool) {i j : Fin numAcl} (h : j ≠ i) :
    (acl.dropNode i).aclnode j = acl.aclnode j := Function.update_of_ne h _ _

theorem dropNode_self (acl : WlanAclPool) (i : Fin numAcl) :
    (acl.dropNode i).aclnode i = ⟨(acl.aclnode i).addr, false⟩ := Function.update_self i _ acl.aclnode

theorem useNode_node (acl : WlanAclPool) (addr : MacAddr) {i j : Fin numAcl} (h : j ≠ i) :
    (acl.useNode i addr).aclnode j = acl.aclnode j := Function.update_of_ne h _ _

theorem useNode_self (acl : WlanAclPool) (addr : MacAddr) (i : Fin numAcl) :
    (acl.useNode i addr).aclnode i = ⟨addr, true⟩ := Function.update_self i _ acl.aclnode

namespace WlanAclPool.Sound

theorem mem_dropNode (h : acl.Sound) {j : Fin numAcl} :
    j ∈ (acl.dropNode i).aclNodeQ ↔ j ≠ i ∧ j ∈ acl.aclNodeQ := h.nodup.mem_erase_iff

theorem dropNode (h : acl.Sound) (hi : i ∈ acl.aclNodeQ) : (acl.dropNode i).Sound := by
  have hsub : (acl.dropNode i).aclNodeQ.Sublist acl.aclNodeQ := List.erase_sublist
  constructor
  · exact h.nodup.sublist hsub
  · intro j
    rw [h.mem_dropNode]
    cases Decidable.em (j = i) with
    | inl hsame =>
      subst hsame
      rw [dropNode_self]
      exact iff_of_false (fun hboth => hboth.1 rfl) Bool.false_ne_true
    | inr hne => rw [dropNode_node acl hne, and_iff_right hne, h.valid j]
  · have hpos := List.length_pos_of_mem hi
    have hlen : (acl.dropNode i).aclNodeQ.length = acl.aclNodeQ.length - 1 :=
      List.length_erase_of_mem hi
    have hnum : (acl.dropNode i).num = acl.num - 1 := rfl
    rw [hnum, hlen, h.num]
    omega
  · have hsame : ((acl.dropNode i).aclNodeQ.map fun j => ((acl.dropNode i).aclnode j).addr) =
        (acl.dropNode i).aclNodeQ.map fun j => (acl.aclnode j).addr :=
      List.map_congr_left fun j hj => by rw [dropNode_node acl (h.mem_dropNode.mp hj).1]
    rw [hsame]
    exact h.distinct.sublist (hsub.map _)

theorem not_mem (h : acl.Sound) (hempty : (acl.aclnode i).valid = false) : i ∉ acl.aclNodeQ := by
  rw [h.valid i, hempty]
  exact Bool.false_ne_true

theorem useNode_listed (h : acl.Sound) (hempty : (acl.aclnode i).valid = false)
    {j : Fin numAcl} (hj : j ∈ acl.aclNodeQ) (addr : MacAddr) :
    (acl.useNode i addr).aclnode j = acl.aclnode j := by
  refine useNode_node acl addr ?_
  rintro rfl
  exact h.not_mem hempty hj

theorem useNode (h : acl.Sound) (hempty : (acl.aclnode i).valid = false)
    (hnew : ¬ acl.Lists addr) : (acl.useNode i addr).Sound := by
  have hmem {j : Fin numAcl} : j ∈ (acl.useNode i addr).aclNodeQ ↔ j ∈ acl.aclNodeQ ∨ j = i := by
    rw [WlanAclPool.useNode, List.mem_append, List.mem_singleton]
  constructor
  · refine List.nodup_append.mpr ⟨h.nodup, List.nodup_singleton i, fun j hj k hk => ?_⟩
    rw [List.mem_singleton.mp hk]
    rintro rfl
    exact h.not_mem hempty hj
  · intro j
    rw [hmem]
    cases Decidable.em (j = i) with
    | inl hsame =>
      subst hsame
      rw [useNode_self]
      exact iff_of_true (.inr rfl) rfl
    | inr hne => rw [useNode_node acl addr hne, or_iff_left hne, h.valid j]
  · have hlen : (acl.useNode i addr).aclNodeQ.length = acl.aclNodeQ.length + 1 :=
      List.length_append
    have hnum : (acl.useNode i addr).num = acl.num + 1 := rfl
    rw [hnum, hlen, h.num]
    rfl
  · have hold : (acl.aclNodeQ.map fun j => ((acl.useNode i addr).aclnode j).addr) =
        acl.aclNodeQ.map fun j => (acl.aclnode j).addr := by
      refine List.map_congr_left fun j hj => ?_
      rw [h.useNode_listed hempty hj]
    change ((acl.aclNodeQ ++ [i]).map fun j => ((acl.useNode i addr).aclnode j).addr).Nodup
    rw [List.map_append, hold, List.map_singleton, useNode_self]
    refine List.nodup_append.mpr ⟨h.distinct, List.nodup_singleton addr, fun a ha b hb => ?_⟩
    rw [List.mem_singleton.mp hb]
    rintro rfl
    obtain ⟨j, hj, haddr⟩ := List.mem_map.mp ha
    exact hnew ⟨j, hj, haddr⟩

theorem lists_useNode (h : acl.Sound) (hempty : (acl.aclnode i).valid = false) :
    (acl.useNode i addr).Lists a ↔ a = addr ∨ acl.Lists a := by
  constructor
  · rintro ⟨j, hj, rfl⟩
    cases List.mem_append.mp hj with
    | inl hold =>
      refine .inr ⟨j, hold, ?_⟩
      rw [h.useNode_listed hempty hold]
    | inr hlast =>
      rw [List.mem_singleton.mp hlast, useNode_self]
      exact .inl rfl
  · rintro (rfl | ⟨j, hj, rfl⟩)
    · refine ⟨i, List.mem_append_right _ (List.mem_singleton_self i), ?_⟩
      rw [useNode_self]
    · refine ⟨j, List.mem_append_left _ hj, ?_⟩
      rw [h.useNode_listed hempty hj]

theorem length_le (h : acl.Sound) : acl.aclNodeQ.length ≤ numAcl := by
  have hcard := List.Nodup.length_le_card h.nodup
  rwa [Fintype.card_fin] at hcard

theorem emptyNode_some (h : acl.Sound) (hroom : acl.aclNodeQ.length < numAcl) :
    ∃ i, acl.emptyNode = some i ∧ (acl.aclnode i).valid = false := by
  cases hfind : acl.emptyNode with
  | some i =>
    have hfound := List.find?_some hfind
    rw [Bool.not_eq_true'] at hfound
    exact ⟨i, rfl, hfound⟩
  | none =>
    have hall : ∀ i : Fin numAcl, i ∈ acl.aclNodeQ := by
      intro i
      have hvalid := List.find?_eq_none.mp hfind i (List.mem_finRange i)
      rw [h.valid i]
      exact Bool.not_eq_false _ |>.mp fun hempty => hvalid (by rw [hempty]; rfl)
    have hle : (List.finRange numAcl).length ≤ acl.aclNodeQ.length :=
      (List.subperm_of_subset (List.nodup_finRange numAcl) fun i _ => hall i).length_le
    rw [List.length_finRange] at hle
    exact absurd hroom (Nat.not_lt.mpr hle)

theorem visit (h : acl.Sound) (hit : MacAddr → Bool) (i : Fin numAcl) :
    (acl.visit hit i).Sound := by
  rw [WlanAclPool.visit]
  split
  · next hhit =>
    rw [Bool.and_eq_true] at hhit
    exact h.dropNode ((h.valid i).mpr hhit.2)
  · exact h

end WlanAclPool.Sound

theorem visit_addr (acl : WlanAclPool) (hit : MacAddr → Bool) (i j : Fin numAcl) :
    ((acl.visit hit i).aclnode j).addr = (acl.aclnode j).addr := by
  rw [WlanAclPool.visit]
  split
  · cases Decidable.em (j = i) with
    | inl hsame =>
      subst hsame
      rw [dropNode_self]
    | inr hne => rw [dropNode_node acl hne]
  · rfl

theorem WlanAclPool.Sound.mem_visit (h : acl.Sound) (hit : MacAddr → Bool) (i j : Fin numAcl) :
    j ∈ (acl.visit hit i).aclNodeQ ↔
      j ∈ acl.aclNodeQ ∧ ¬ (j = i ∧ hit (acl.aclnode j).addr = true) := by
  rw [WlanAclPool.visit]
  split
  · next hhit =>
    rw [Bool.and_eq_true] at hhit
    rw [h.mem_dropNode, and_comm]
    refine and_congr_right fun _ => not_congr ⟨?_, And.left⟩
    rintro rfl
    exact ⟨rfl, hhit.1⟩
  · next hmiss =>
    rw [iff_self_and]
    rintro hj ⟨rfl, hhit⟩
    exact hmiss (by rw [hhit, (h.valid j).mp hj]; rfl)

theorem foldl_visit (h : acl.Sound) (hit : MacAddr → Bool) (is : List (Fin numAcl)) :
    let r := is.foldl (fun acl i => acl.visit hit i) acl
    r.Sound ∧ (∀ j, (r.aclnode j).addr = (acl.aclnode j).addr) ∧
      ∀ j, j ∈ r.aclNodeQ ↔ j ∈ acl.aclNodeQ ∧ ¬ (j ∈ is ∧ hit (acl.aclnode j).addr = true) := by
  induction is generalizing acl with
  | nil => exact ⟨h, fun _ => rfl, fun j => by simp⟩
  | cons i is ih =>
    obtain ⟨hsound, haddr, hmem⟩ := ih (h.visit hit i)
    refine ⟨hsound, fun j => (haddr j).trans (visit_addr acl hit i j), fun j => ?_⟩
    rw [List.foldl_cons, hmem, h.mem_visit, visit_addr, List.mem_cons]
    tauto

theorem WlanAclPool.Sound.sweep (h : acl.Sound) (hit : MacAddr → Bool) : (acl.sweep hit).Sound :=
  (foldl_visit h hit acl.aclNodeQ).1

theorem WlanAclPool.Sound.lists_sweep (h : acl.Sound) (hit : MacAddr → Bool) (a : MacAddr) :
    (acl.sweep hit).Lists a ↔ acl.Lists a ∧ hit a = false := by
  obtain ⟨-, haddr, hmem⟩ := foldl_visit h hit acl.aclNodeQ
  constructor
  · rintro ⟨j, hj, rfl⟩
    obtain ⟨hold, hmiss⟩ := (hmem j).mp hj
    rw [WlanAclPool.sweep, haddr]
    exact ⟨⟨j, hold, rfl⟩, Bool.eq_false_of_not_eq_true fun hhit => hmiss ⟨hold, hhit⟩⟩
  · rintro ⟨⟨j, hj, rfl⟩, hmiss⟩
    refine ⟨j, (hmem j).mpr ⟨hj, fun hboth => ?_⟩, haddr j⟩
    exact Bool.false_ne_true (hmiss.symm.trans hboth.2)

theorem init_sound (acl : WlanAclPool) : acl.init.Sound := by
  refine ⟨List.nodup_nil, fun i => iff_of_false List.not_mem_nil Bool.false_ne_true, rfl, ?_⟩
  exact List.nodup_nil

theorem WlanAclPool.Sound.deinit (h : acl.Sound) : acl.deinit.Sound := by
  obtain ⟨hnodup, hvalid, hnum, hdistinct⟩ := h.sweep fun _ => true
  exact ⟨hnodup, hvalid, hnum, hdistinct⟩

theorem WlanAclPool.Sound.lists_deinit (h : acl.Sound) (a : MacAddr) : ¬ acl.deinit.Lists a :=
  fun hlists => absurd ((h.lists_sweep (fun _ => true) a).mp hlists).2 (by decide)

structure AddEffect (acl : WlanAclPool) (addr : MacAddr) (r : WlanAclPool × ℤ) : Prop where
  sound : r.1.Sound
  lists : ∀ a, r.1.Lists a ↔ a = addr ∧ r.2 = 0 ∨ acl.Lists a
  refused : r.2 ≠ 0 → ¬ acl.Lists addr ∧ acl.aclNodeQ.length = numAcl

theorem WlanAclPool.Sound.addSta (h : acl.Sound) (addr : MacAddr) :
    AddEffect acl addr (acl.addSta addr) := by
  rw [WlanAclPool.addSta]
  cases Decidable.em (acl.existed addr = true) with
  | inl hexisted =>
    rw [if_pos hexisted]
    refine ⟨h, fun a => ⟨.inr, ?_⟩, absurd rfl⟩
    rintro (⟨rfl, -⟩ | hlists)
    · exact h.listed_iff.mp hexisted
    · exact hlists
  | inr hnew =>
    have hunlisted := mt h.listed_iff.mpr hnew
    rw [if_neg hnew]
    cases Decidable.em ((numAcl : ℤ) ≤ acl.num) with
    | inl hfull =>
      rw [if_pos hfull]
      have hle := h.length_le
      rw [h.num] at hfull
      refine ⟨h, fun a => ⟨.inr, ?_⟩, fun _ => ⟨hunlisted, by omega⟩⟩
      rintro (⟨-, hzero⟩ | hlists)
      · exact absurd hzero (Int.neg_ne_zero.mpr Int.one_ne_zero)
      · exact hlists
    | inr hroom =>
      rw [if_neg hroom]
      rw [h.num] at hroom
      obtain ⟨i, hfind, hempty⟩ := h.emptyNode_some (by omega)
      rw [hfind]
      refine ⟨h.useNode hempty hunlisted, fun a => ?_, absurd rfl⟩
      rw [h.lists_useNode hempty, and_iff_left rfl]

end Pool

namespace AclOp

def Removes (p : Fin rtwAclPeriodNum) (a : MacAddr) : AclOp → Prop
  | .add _ _ => False
  | .remove period addr => period.toNat = p ∧ (addr = bcAddr ∨ addr = a)
  | .clear period => period.toNat = p

def Adds (p : Fin rtwAclPeriodNum) (a : MacAddr) (s : AclLists) (op : AclOp) : Prop :=
  ∃ period, op = .add period a ∧ period.toNat = p ∧ (s.rtwAclAddSta period a).2 = 0

end AclOp

namespace AclLists

variable {s : AclLists} {p : Fin rtwAclPeriodNum} {a : MacAddr} {op : AclOp}

def Sound (s : AclLists) : Prop := ∀ p, (s.aclList p).Sound

theorem atPeriod_self (s : AclLists) {period : UInt8} (h : period.toNat = p)
    (f : WlanAclPool → WlanAclPool) : (s.atPeriod period f).aclList p = f (s.aclList p) := by
  have hlt : period.toNat < rtwAclPeriodNum := h ▸ p.isLt
  have hsame : (⟨period.toNat, hlt⟩ : Fin rtwAclPeriodNum) = p := Fin.ext h
  rw [atPeriod, dif_pos hlt, hsame]
  exact Function.update_self _ _ _

theorem atPeriod_other (s : AclLists) {period : UInt8} (h : period.toNat ≠ p)
    (f : WlanAclPool → WlanAclPool) : (s.atPeriod period f).aclList p = s.aclList p := by
  rw [atPeriod]
  split
  · next hlt =>
    exact Function.update_of_ne (fun hsame => h (congrArg Fin.val hsame).symm) _ _
  · rfl

theorem add_self (s : AclLists) {period : UInt8} (h : period.toNat = p) (addr : MacAddr) :
    (s.rtwAclAddSta period addr).1.aclList p = ((s.aclList p).addSta addr).1 ∧
      (s.rtwAclAddSta period addr).2 = ((s.aclList p).addSta addr).2 := by
  have hlt : period.toNat < rtwAclPeriodNum := h ▸ p.isLt
  have hsame : (⟨period.toNat, hlt⟩ : Fin rtwAclPeriodNum) = p := Fin.ext h
  rw [rtwAclAddSta, dif_pos hlt, hsame]
  exact ⟨Function.update_self _ _ _, rfl⟩

theorem add_other (s : AclLists) {period : UInt8} (h : period.toNat ≠ p) (addr : MacAddr) :
    (s.rtwAclAddSta period addr).1.aclList p = s.aclList p := by
  rw [rtwAclAddSta]
  split
  · next hlt =>
    exact Function.update_of_ne (fun hsame => h (congrArg Fin.val hsame).symm) _ _
  · rfl

theorem Sound.step (h : s.Sound) (op : AclOp) : (s.step op).Sound := by
  intro p
  cases op with
  | add period addr =>
    cases Decidable.em (period.toNat = p) with
    | inl hp =>
      rw [AclLists.step, (s.add_self hp addr).1]
      exact ((h p).addSta addr).sound
    | inr hp =>
      rw [AclLists.step, s.add_other hp]
      exact h p
  | remove period addr =>
    cases Decidable.em (period.toNat = p) with
    | inl hp =>
      rw [AclLists.step, rtwAclRemoveSta, s.atPeriod_self hp]
      exact (h p).sweep _
    | inr hp =>
      rw [AclLists.step, rtwAclRemoveSta, s.atPeriod_other hp]
      exact h p
  | clear period =>
    cases Decidable.em (period.toNat = p) with
    | inl hp =>
      rw [AclLists.step, rtwMacaddrAclClear, s.atPeriod_self hp]
      exact (h p).deinit
    | inr hp =>
      rw [AclLists.step, rtwMacaddrAclClear, s.atPeriod_other hp]
      exact h p

theorem Sound.lists_step (h : s.Sound) (op : AclOp) :
    ((s.step op).aclList p).Lists a ↔
      op.Adds p a s ∨ (s.aclList p).Lists a ∧ ¬ op.Removes p a := by
  cases op with
  | add period addr =>
    have hkept : ¬ (AclOp.add period addr).Removes p a := id
    rw [and_iff_left hkept]
    cases Decidable.em (period.toNat = p) with
    | inl hp =>
      obtain ⟨hacl, hret⟩ := s.add_self hp addr
      rw [AclLists.step, hacl, ((h p).addSta addr).lists]
      refine or_congr_left ⟨?_, ?_⟩
      · rintro ⟨rfl, hzero⟩
        exact ⟨period, rfl, hp, hret.trans hzero⟩
      · rintro ⟨_, hsame, -, hzero⟩
        obtain ⟨rfl, rfl⟩ := AclOp.add.inj hsame
        exact ⟨rfl, hret.symm.trans hzero⟩
    | inr hp =>
      rw [AclLists.step, s.add_other hp]
      refine (or_iff_right ?_).symm
      rintro ⟨_, hsame, hp', -⟩
      obtain ⟨rfl, rfl⟩ := AclOp.add.inj hsame
      exact hp hp'
  | remove period addr =>
    have hnever : ¬ (AclOp.remove period addr).Adds p a s := fun ⟨_, hsame, _⟩ => nomatch hsame
    rw [or_iff_right hnever, AclLists.step, rtwAclRemoveSta]
    cases Decidable.em (period.toNat = p) with
    | inl hp =>
      rw [s.atPeriod_self hp, WlanAclPool.removeSta, (h p).lists_sweep]
      refine and_congr_right fun _ => ?_
      rw [Bool.or_eq_false_iff, decide_eq_false_iff_not, decide_eq_false_iff_not, AclOp.Removes,
        and_iff_right hp, not_or, eq_comm (a := a)]
    | inr hp =>
      rw [s.atPeriod_other hp, and_iff_left fun hremoves => hp hremoves.1]
  | clear period =>
    have hnever : ¬ (AclOp.clear period).Adds p a s := fun ⟨_, hsame, _⟩ => nomatch hsame
    rw [or_iff_right hnever, AclLists.step, rtwMacaddrAclClear]
    cases Decidable.em (period.toNat = p) with
    | inl hp =>
      rw [s.atPeriod_self hp]
      exact iff_of_false ((h p).lists_deinit a) fun hboth => hboth.2 hp
    | inr hp =>
      rw [s.atPeriod_other hp, and_iff_left]
      exact hp

theorem init_sound (s : AclLists) : s.init.Sound := fun p => Ap.init_sound (s.aclList p)

end AclLists

structure AclRight (s : AclLists) (ops : List AclOp) (p : Fin rtwAclPeriodNum)
    (acl : WlanAclPool) : Prop where
  counted : acl.num = acl.aclNodeQ.length ∧
    acl.aclNodeQ.length = (Finset.univ.filter fun i => (acl.aclnode i).valid = true).card
  distinct : (acl.aclNodeQ.map fun i => (acl.aclnode i).addr).Nodup
  exact : ∀ a, acl.Lists a ↔ ∃ pre op post, ops = pre ++ op :: post ∧
    op.Adds p a (Run.exec AclLists.step s.init pre) ∧ ∀ op' ∈ post, ¬ op'.Removes p a
  refused : ∀ (period : UInt8) a, period.toNat = p →
    ((Run.exec AclLists.step s.init ops).rtwAclAddSta period a).2 ≠ 0 →
      (acl.aclNodeQ.map fun i => (acl.aclnode i).addr).length = numAcl

theorem acl_law (s : AclLists) (ops : List AclOp) (p : Fin rtwAclPeriodNum) :
    AclRight s ops p ((Run.exec AclLists.step s.init ops).aclList p) := by
  have hsound (es : List AclOp) : (Run.exec AclLists.step s.init es).Sound :=
    Run.exec_invariant AclLists.step AclLists.Sound (fun _ op h => h.step op) s.init_sound es
  have hhere := hsound ops p
  refine ⟨⟨hhere.num, ?_⟩, hhere.distinct, fun a => ?_, fun period a hp hrefused => ?_⟩
  · have hset : (Finset.univ.filter fun i => (((Run.exec AclLists.step s.init ops).aclList p).aclnode
        i).valid = true) = ((Run.exec AclLists.step s.init ops).aclList p).aclNodeQ.toFinset := by
      ext i
      rw [Finset.mem_filter, List.mem_toFinset, and_iff_right (Finset.mem_univ i), hhere.valid]
    rw [hset, List.toFinset_card_of_nodup hhere.nodup]
  · have hempty : ¬ (s.init.aclList p).Lists a := fun ⟨i, hi, _⟩ => absurd hi List.not_mem_nil
    exact Run.exec_since AclLists.step (fun s => (s.aclList p).Lists a) (fun s op => op.Adds p a s)
      (AclOp.Removes p a) hempty ops fun pre op _ _ => (hsound pre).lists_step op
  · rw [((Run.exec AclLists.step s.init ops).add_self hp a).2] at hrefused
    rw [List.length_map]
    exact ((hhere.addSta a).refused hrefused).2

end Ap
