import Mathlib.Data.List.FinRange
import Mathlib.Logic.Function.Basic
import Rtl8188fu.Lib.Bitmap
import Rtl8188fu.Lib.Run
import Rtl8188fu.Recv.Frame

namespace Cam

open Recv (MacAddr localAddr)

def rtwDefaultMgmtMacid : ℕ := 1

def invalidSecMacCamId : ℕ := 0xFF

def macidNumSwLimit : ℕ := 32

def secCamEntNumSwLimit : ℕ := 32

def halMacidNum : ℕ := 16

def halSecCamEntNum : ℕ := 16

def macidNum : ℕ := min halMacidNum macidNumSwLimit

def camNum : ℕ := min halSecCamEntNum secCamEntNumSwLimit

abbrev MacidBmp := BitVec 32

abbrev SecCamBmp := BitVec 32

def bcAddr : MacAddr := Vector.replicate 6 0xff

structure StaInfo where
  macAddr : MacAddr
  macId : ℕ

structure MacidCtl (n : ℕ) where
  used : MacidBmp
  bmc : MacidBmp
  ifG : Fin n → MacidBmp
  chG : Fin 2 → MacidBmp
  ifaceBmc : Fin n → ℕ
  sta : ℕ → Option ℕ

structure Dvobj (n : ℕ) where
  macidCtl : MacidCtl n
  camUsed : SecCamBmp
  sta : ℕ → StaInfo

structure IfaceEnv (n : ℕ) where
  hwaddr : Fin n → MacAddr
  extraSec : Bool

variable {n : ℕ}

def rtwMacidCtlInit (c : MacidCtl n) : MacidCtl n :=
  { c with
    used := Bitmap.insert c.used rtwDefaultMgmtMacid
    bmc := Bitmap.insert c.bmc rtwDefaultMgmtMacid
    ifG := fun i => Bitmap.insert (c.ifG i) rtwDefaultMgmtMacid
    sta := Function.update c.sta rtwDefaultMgmtMacid none }

def secCamMapSet (e : IfaceEnv n) (used : SecCamBmp) (id : ℕ) : SecCamBmp :=
  if e.extraSec then Bitmap.insert (Bitmap.insert used id) (id + 1) else Bitmap.insert used id

def secCamMapClr (e : IfaceEnv n) (used : SecCamBmp) (id : ℕ) : SecCamBmp :=
  if e.extraSec then Bitmap.erase (Bitmap.erase used id) (id + 1) else Bitmap.erase used id

def rtwSecCamidIsUsed (used : SecCamBmp) (id : ℕ) : Bool :=
  if camNum ≤ id then false else Bitmap.isSet used id

namespace Dvobj

variable (e : IfaceEnv n)

def setMacId (d : Dvobj n) (p id : ℕ) : Dvobj n :=
  { d with sta := Function.update d.sta p { d.sta p with macId := id } }

def setIfaceBmc (d : Dvobj n) (k : Fin n) (id : ℕ) : Dvobj n :=
  { d with macidCtl := { d.macidCtl with ifaceBmc := Function.update d.macidCtl.ifaceBmc k id } }

def freeMacid? (d : Dvobj n) (isBcSta : Bool) : Option ℕ :=
  (List.range macidNum).find? fun i =>
    !(isBcSta && rtwSecCamidIsUsed d.camUsed i) && !Bitmap.isSet d.macidCtl.used i

def takeMacid (d : Dvobj n) (k : Fin n) (p i : ℕ) (isBcSta : Bool) : Dvobj n :=
  { d with
    camUsed := if isBcSta then secCamMapSet e d.camUsed i else d.camUsed
    macidCtl := { d.macidCtl with
      used := Bitmap.insert d.macidCtl.used i
      bmc := if isBcSta then Bitmap.insert d.macidCtl.bmc i else d.macidCtl.bmc
      ifaceBmc := if isBcSta then Function.update d.macidCtl.ifaceBmc k i else d.macidCtl.ifaceBmc
      ifG := Function.update d.macidCtl.ifG k (Bitmap.insert (d.macidCtl.ifG k) i)
      sta := Function.update d.macidCtl.sta i (some p) } }

def rtwAllocMacid (d : Dvobj n) (k : Fin n) (staOrNull : Bool) (p : ℕ) : Dvobj n :=
  let mac := (d.sta p).macAddr
  if mac = e.hwaddr k then d.setMacId p macidNum
  else
    let isBcSta : Bool := mac == bcAddr
    let d := if isBcSta then d.setIfaceBmc k invalidSecMacCamId else d
    if isBcSta && staOrNull then d.setMacId p rtwDefaultMgmtMacid
    else
      match d.freeMacid? isBcSta with
      | none => d.setMacId p macidNum
      | some i => (d.takeMacid e k p i isBcSta).setMacId p i

def rtwMacidGetIfaceBmp (c : MacidCtl n) (id : ℕ) : List (Fin n) :=
  (List.finRange n).filter fun i => Bitmap.isSet (c.ifG i) id

def releaseBmc (d : Dvobj n) (k : Fin n) : Dvobj n :=
  let id := d.macidCtl.ifaceBmc k
  let d := if id ≠ invalidSecMacCamId ∧ id < camNum then
      { d with camUsed := secCamMapClr e d.camUsed id } else d
  d.setIfaceBmc k invalidSecMacCamId

def clearIface (d : Dvobj n) (k : Fin n) (id : ℕ) : Dvobj n :=
  { d with macidCtl := { d.macidCtl with
      ifG := Function.update d.macidCtl.ifG k (Bitmap.erase (d.macidCtl.ifG k) id) } }

def clearMacid (d : Dvobj n) (id : ℕ) : Dvobj n :=
  { d with macidCtl := { d.macidCtl with
      used := Bitmap.erase d.macidCtl.used id
      bmc := Bitmap.erase d.macidCtl.bmc id
      chG := fun i => Bitmap.erase (d.macidCtl.chG i) id
      sta := Function.update d.macidCtl.sta id none } }

def rtwReleaseMacid (d : Dvobj n) (k : Fin n) (p : ℕ) : Dvobj n :=
  let mac := (d.sta p).macAddr
  let id := (d.sta p).macId
  if mac = e.hwaddr k ∨ macidNum ≤ id ∨ id = rtwDefaultMgmtMacid ∨
      Bitmap.isSet d.macidCtl.used id = false then
    d.setMacId p macidNum
  else
    let ifbmp := rtwMacidGetIfaceBmp d.macidCtl id
    if k ∉ ifbmp then d.setMacId p macidNum
    else
      let d := if mac = bcAddr then d.releaseBmc e k else d
      let d := d.clearIface k id
      let d := if ifbmp.filter (· ≠ k) = [] then d.clearMacid id else d
      d.setMacId p macidNum

end Dvobj

variable {e : IfaceEnv n}

structure MacidSys (n : ℕ) where
  dvobj : Dvobj n
  live : ℕ → Option (Fin n)

inductive MacidEvent (n : ℕ) where
  | alloc (k : Fin n) (p : ℕ) (mac : MacAddr) (staOrNull : Bool)
  | release (p : ℕ)
  | keys (used : SecCamBmp)

namespace MacidSys

def zeroed (n : ℕ) : Dvobj n where
  macidCtl := ⟨0, 0, fun _ => 0, fun _ => 0, fun _ => 0, fun _ => none⟩
  camUsed := 0
  sta := fun _ => ⟨Vector.replicate 6 0, 0⟩

def init (n : ℕ) : MacidSys n where
  dvobj := { zeroed n with macidCtl := rtwMacidCtlInit (zeroed n).macidCtl }
  live := fun _ => none

def step (e : IfaceEnv n) (s : MacidSys n) : MacidEvent n → MacidSys n
  | .alloc k p mac staOrNull =>
    ⟨{ s.dvobj with sta := Function.update s.dvobj.sta p ⟨mac, 0⟩ }.rtwAllocMacid e k staOrNull p,
      Function.update s.live p (some k)⟩
  | .release p =>
    match s.live p with
    | none => s
    | some k => ⟨s.dvobj.rtwReleaseMacid e k p, Function.update s.live p none⟩
  | .keys used => { s with dvobj := { s.dvobj with camUsed := used } }

def Permitted (s : MacidSys n) : MacidEvent n → Prop
  | .alloc k p mac _ => s.live p = none ∧
      (mac = bcAddr → ∀ q, s.live q = some k → (s.dvobj.sta q).macAddr ≠ bcAddr)
  | .release _ => True
  | .keys _ => True

def Holds (s : MacidSys n) (p id : ℕ) : Prop :=
  s.live p ≠ none ∧ (s.dvobj.sta p).macId = id ∧ id < macidNum ∧ id ≠ rtwDefaultMgmtMacid

def Reserved (e : IfaceEnv n) (s : MacidSys n) (p slot : ℕ) : Prop :=
  ∃ id, s.Holds p id ∧ (s.dvobj.sta p).macAddr = bcAddr ∧
    (slot = id ∨ e.extraSec = true ∧ slot = id + 1)

structure Sound (s : MacidSys n) : Prop where
  distinct : ∀ p q id, s.Holds p id → s.Holds q id → p = q
  valid : ∀ p, s.live p ≠ none → (s.dvobj.sta p).macId ≤ macidNum
  used : ∀ id, Bitmap.isSet s.dvobj.macidCtl.used id = true ↔
    id = rtwDefaultMgmtMacid ∨ ∃ p, s.Holds p id
  holder : ∀ id p, s.dvobj.macidCtl.sta id = some p ↔ s.Holds p id
  iface : ∀ p k id, s.Holds p id → s.live p = some k →
    ∀ j, Bitmap.isSet (s.dvobj.macidCtl.ifG j) id = true ↔ j = k

def Exact (e : IfaceEnv n) (s : MacidSys n) (ev : MacidEvent n) : Prop :=
  let t := s.step e ev
  match ev with
  | .alloc _ p _ _ => (∀ q ≠ p, t.dvobj.sta q = s.dvobj.sta q) ∧
      (∀ slot, Bitmap.isSet t.dvobj.camUsed slot = true ↔
        Bitmap.isSet s.dvobj.camUsed slot = true ∨ t.Reserved e p slot)
  | .release p => (∀ q ≠ p, t.dvobj.sta q = s.dvobj.sta q) ∧
      (∀ id, Bitmap.isSet t.dvobj.macidCtl.used id = true ↔
        Bitmap.isSet s.dvobj.macidCtl.used id = true ∧ ¬ s.Holds p id) ∧
      (∀ slot, Bitmap.isSet t.dvobj.camUsed slot = true ↔
        Bitmap.isSet s.dvobj.camUsed slot = true ∧ ¬ s.Reserved e p slot)
  | .keys _ => t.dvobj.macidCtl = s.dvobj.macidCtl ∧ t.dvobj.sta = s.dvobj.sta

structure Inv (e : IfaceEnv n) (s : MacidSys n) : Prop where
  range : ∀ p, s.live p ≠ none → (s.dvobj.sta p).macId ≤ macidNum
  own : ∀ p k, s.live p = some k → (s.dvobj.sta p).macAddr = e.hwaddr k →
    (s.dvobj.sta p).macId = macidNum
  holder : ∀ id p, s.dvobj.macidCtl.sta id = some p ↔ s.Holds p id
  used : ∀ id, Bitmap.isSet s.dvobj.macidCtl.used id = true ↔
    id = rtwDefaultMgmtMacid ∨ ∃ p, s.dvobj.macidCtl.sta id = some p
  ifG : ∀ k id, Bitmap.isSet (s.dvobj.macidCtl.ifG k) id = true ↔
    id = rtwDefaultMgmtMacid ∨ ∃ p, s.dvobj.macidCtl.sta id = some p ∧ s.live p = some k
  bmc : ∀ p k id, s.Holds p id → s.live p = some k → (s.dvobj.sta p).macAddr = bcAddr →
    s.dvobj.macidCtl.ifaceBmc k = id
  single : ∀ p q k, s.live p = some k → s.live q = some k → (s.dvobj.sta p).macAddr = bcAddr →
    (s.dvobj.sta q).macAddr = bcAddr → p = q

theorem Inv.sound {s : MacidSys n} (h : s.Inv e) : s.Sound where
  distinct p q id hp hq := by
    have hsta := ((h.holder id p).mpr hp).symm.trans ((h.holder id q).mpr hq)
    exact Option.some.inj hsta
  valid := h.range
  used id := by
    rw [h.used id]
    exact or_congr_right (exists_congr fun p => h.holder id p)
  holder := h.holder
  iface p k id hp hlive j := by
    have hsta := (h.holder id p).mpr hp
    rw [h.ifG j id]
    constructor
    · rintro (rfl | ⟨q, hq, hj⟩)
      · exact absurd rfl hp.2.2.2
      · obtain rfl := Option.some.inj (hsta.symm.trans hq)
        exact Option.some.inj (hj.symm.trans hlive)
    · rintro rfl
      exact .inr ⟨p, hsta, hlive⟩

theorem init_sta (id : ℕ) : (init n).dvobj.macidCtl.sta id = none := by
  simp [init, rtwMacidCtlInit, zeroed]

theorem init_inv : (init n).Inv e where
  range p h := absurd rfl h
  own p k h := nomatch h
  holder id p := by
    rw [init_sta]
    exact iff_of_false nofun fun h => h.1 rfl
  used id := by
    rw [init_sta]
    have hlt : rtwDefaultMgmtMacid < 32 := by decide
    simp [init, rtwMacidCtlInit, zeroed, Bitmap.isSet_insert _ hlt]
  ifG k id := by
    rw [init_sta]
    have hlt : rtwDefaultMgmtMacid < 32 := by decide
    simp [init, rtwMacidCtlInit, zeroed, Bitmap.isSet_insert _ hlt]
  bmc p k id h := absurd rfl h.1
  single p q k h := nomatch h

structure Enrolled (s t : MacidSys n) (k : Fin n) (p : ℕ) (mac : MacAddr) (id : ℕ) : Prop where
  dead : s.live p = none
  fresh : mac = bcAddr → ∀ q, s.live q = some k → (s.dvobj.sta q).macAddr ≠ bcAddr
  live : t.live = Function.update s.live p (some k)
  sta : t.dvobj.sta = Function.update s.dvobj.sta p ⟨mac, id⟩
  bmc : ∀ j, j ≠ k ∨ mac ≠ bcAddr → t.dvobj.macidCtl.ifaceBmc j = s.dvobj.macidCtl.ifaceBmc j

namespace Enrolled

variable {s t : MacidSys n} {k : Fin n} {p id : ℕ} {mac : MacAddr}

theorem holds (h : Enrolled s t k p mac id) (q i : ℕ) :
    t.Holds q i ↔ s.Holds q i ∨
      q = p ∧ i = id ∧ id < macidNum ∧ id ≠ rtwDefaultMgmtMacid := by
  cases Decidable.eq_or_ne q p with
  | inl hq =>
    subst hq
    have hnot : ¬ s.Holds q i := fun hold => hold.1 h.dead
    rw [or_iff_right hnot]
    simp only [Holds, h.live, h.sta, Function.update_self, true_and]
    constructor
    · rintro ⟨-, rfl, hlt, hne⟩
      exact ⟨rfl, hlt, hne⟩
    · rintro ⟨rfl, hlt, hne⟩
      exact ⟨nofun, rfl, hlt, hne⟩
  | inr hq => simp [Holds, h.live, h.sta, hq]

theorem live_of_ne (h : Enrolled s t k p mac id) {q : ℕ} (hq : q ≠ p) : t.live q = s.live q := by
  rw [h.live, Function.update_of_ne hq]

theorem sta_of_ne (h : Enrolled s t k p mac id) {q : ℕ} (hq : q ≠ p) :
    t.dvobj.sta q = s.dvobj.sta q := by
  rw [h.sta, Function.update_of_ne hq]

theorem live_self (h : Enrolled s t k p mac id) : t.live p = some k := by
  rw [h.live, Function.update_self]

theorem sta_self (h : Enrolled s t k p mac id) : t.dvobj.sta p = ⟨mac, id⟩ := by
  rw [h.sta, Function.update_self]

theorem range (h : Enrolled s t k p mac id) (hs : s.Inv e) (hid : id ≤ macidNum) (q : ℕ)
    (hq : t.live q ≠ none) : (t.dvobj.sta q).macId ≤ macidNum := by
  cases Decidable.eq_or_ne q p with
  | inl heq =>
    rw [heq, h.sta_self]
    exact hid
  | inr hne =>
    rw [h.sta_of_ne hne]
    exact hs.range q (h.live_of_ne hne ▸ hq)

theorem own (h : Enrolled s t k p mac id) (hs : s.Inv e)
    (hid : mac = e.hwaddr k → id = macidNum) (q : ℕ) (j : Fin n) (hq : t.live q = some j)
    (hmac : (t.dvobj.sta q).macAddr = e.hwaddr j) : (t.dvobj.sta q).macId = macidNum := by
  cases Decidable.eq_or_ne q p with
  | inl heq =>
    subst heq
    obtain rfl := Option.some.inj (h.live_self.symm.trans hq)
    rw [h.sta_self] at hmac ⊢
    exact hid hmac
  | inr hne =>
    rw [h.sta_of_ne hne] at hmac ⊢
    exact hs.own q j (h.live_of_ne hne ▸ hq) hmac

theorem single (h : Enrolled s t k p mac id) (hs : s.Inv e) (q r : ℕ) (j : Fin n)
    (hq : t.live q = some j) (hr : t.live r = some j) (hqmac : (t.dvobj.sta q).macAddr = bcAddr)
    (hrmac : (t.dvobj.sta r).macAddr = bcAddr) : q = r := by
  have hnew : ∀ x, t.live p = some j → mac = bcAddr → x ≠ p → t.live x = some j →
      (t.dvobj.sta x).macAddr ≠ bcAddr := by
    intro x hp hmac hx hlive
    obtain rfl := Option.some.inj (h.live_self.symm.trans hp)
    rw [h.sta_of_ne hx]
    exact h.fresh hmac x (h.live_of_ne hx ▸ hlive)
  cases Decidable.eq_or_ne q p with
  | inl hqp =>
    cases Decidable.eq_or_ne r p with
    | inl hrp => exact hqp.trans hrp.symm
    | inr hrp =>
      subst hqp
      rw [h.sta_self] at hqmac
      exact absurd hrmac (hnew r hq hqmac hrp hr)
  | inr hqp =>
    cases Decidable.eq_or_ne r p with
    | inl hrp =>
      subst hrp
      rw [h.sta_self] at hrmac
      exact absurd hqmac (hnew q hr hrmac hqp hq)
    | inr hrp =>
      rw [h.live_of_ne hqp] at hq
      rw [h.live_of_ne hrp] at hr
      rw [h.sta_of_ne hqp] at hqmac
      rw [h.sta_of_ne hrp] at hrmac
      exact hs.single q r j hq hr hqmac hrmac

theorem bmc_kept (h : Enrolled s t k p mac id) (hs : s.Inv e) {q i : ℕ} {j : Fin n} (hq : q ≠ p)
    (hheld : s.Holds q i) (hlive : t.live q = some j) (hmac : (t.dvobj.sta q).macAddr = bcAddr) :
    t.dvobj.macidCtl.ifaceBmc j = i := by
  rw [h.live_of_ne hq] at hlive
  rw [h.sta_of_ne hq] at hmac
  have hother : j ≠ k ∨ mac ≠ bcAddr := by
    refine Classical.or_iff_not_imp_left.mpr fun hj hbc => ?_
    rw [not_not] at hj
    exact h.fresh hbc q (hj ▸ hlive) hmac
  rw [h.bmc j hother]
  exact hs.bmc q j i hheld hlive hmac

end Enrolled

theorem Inv.untaken {s t : MacidSys n} {k : Fin n} {p id : ℕ} {mac : MacAddr} (hs : s.Inv e)
    (h : Enrolled s t k p mac id) (hid : id = macidNum ∨ id = rtwDefaultMgmtMacid)
    (hown : mac = e.hwaddr k → id = macidNum)
    (hused : t.dvobj.macidCtl.used = s.dvobj.macidCtl.used)
    (hifG : t.dvobj.macidCtl.ifG = s.dvobj.macidCtl.ifG)
    (hsta : t.dvobj.macidCtl.sta = s.dvobj.macidCtl.sta) : t.Inv e := by
  have hholds : ∀ q i, t.Holds q i ↔ s.Holds q i := by
    intro q i
    rw [h.holds q i, or_iff_left]
    rintro ⟨-, -, hlt, hne⟩
    rcases hid with rfl | rfl
    · exact absurd hlt (lt_irrefl _)
    · exact hne rfl
  refine ⟨h.range hs ?_, h.own hs hown, fun i q => ?_, fun i => ?_, fun j i => ?_, ?_, h.single hs⟩
  · rcases hid with rfl | rfl
    · exact le_rfl
    · decide
  · rw [hsta, hholds]
    exact hs.holder i q
  · rw [hused, hsta]
    exact hs.used i
  · rw [hifG, hsta, hs.ifG j i]
    refine or_congr_right (exists_congr fun q => and_congr_right fun hq => ?_)
    have hne : q ≠ p := by
      rintro rfl
      exact ((hs.holder i q).mp hq).1 h.dead
    rw [h.live_of_ne hne]
  · intro q j i hq hlive hmac
    have hold := (hholds q i).mp hq
    have hne : q ≠ p := by
      rintro rfl
      exact hold.1 h.dead
    exact h.bmc_kept hs hne hold hlive hmac

theorem Inv.taken {s t : MacidSys n} {k : Fin n} {p id : ℕ} {mac : MacAddr} (hs : s.Inv e)
    (h : Enrolled s t k p mac id) (hid : id < macidNum)
    (hfree : Bitmap.isSet s.dvobj.macidCtl.used id = false) (hown : mac ≠ e.hwaddr k)
    (hused : t.dvobj.macidCtl.used = Bitmap.insert s.dvobj.macidCtl.used id)
    (hifG : t.dvobj.macidCtl.ifG =
      Function.update s.dvobj.macidCtl.ifG k (Bitmap.insert (s.dvobj.macidCtl.ifG k) id))
    (hsta : t.dvobj.macidCtl.sta = Function.update s.dvobj.macidCtl.sta id (some p))
    (hbmc : mac = bcAddr → t.dvobj.macidCtl.ifaceBmc k = id) : t.Inv e := by
  have hlt : id < 32 := lt_of_lt_of_le hid (by decide)
  have hunused := (hs.used id).not.mp (by simp [hfree])
  rw [not_or, not_exists] at hunused
  obtain ⟨hne, hnone⟩ := hunused
  have hnot : ∀ q, ¬ s.Holds q id := fun q hq => hnone q ((hs.holder id q).mpr hq)
  have hholds : ∀ q i, t.Holds q i ↔ s.Holds q i ∨ q = p ∧ i = id := by
    intro q i
    rw [h.holds q i]
    simp [hid, hne]
  have hholder : ∀ i q, t.dvobj.macidCtl.sta i = some q ↔ t.Holds q i := by
    intro i q
    rw [hsta, hholds]
    cases Decidable.eq_or_ne i id with
    | inl hi =>
      subst hi
      rw [Function.update_self, or_iff_right (hnot q)]
      simp [eq_comm]
    | inr hi =>
      rw [Function.update_of_ne hi, hs.holder i q]
      simp [hi]
  refine ⟨h.range hs hid.le, h.own hs fun hmac => absurd hmac hown, hholder, fun i => ?_,
    fun j i => ?_, ?_, h.single hs⟩
  · rw [hused, Bitmap.isSet_insert _ hlt, hs.used i]
    simp only [hholder, hholds, hs.holder]
    constructor
    · rintro ((rfl | ⟨q, hq⟩) | rfl)
      · exact .inl rfl
      · exact .inr ⟨q, .inl hq⟩
      · exact .inr ⟨p, .inr ⟨rfl, rfl⟩⟩
    · rintro (rfl | ⟨q, hq | ⟨-, rfl⟩⟩)
      · exact .inl (.inl rfl)
      · exact .inl (.inr ⟨q, hq⟩)
      · exact .inr rfl
  · have hset : Bitmap.isSet (t.dvobj.macidCtl.ifG j) i = true ↔
        Bitmap.isSet (s.dvobj.macidCtl.ifG j) i = true ∨ j = k ∧ i = id := by
      rw [hifG]
      cases Decidable.eq_or_ne j k with
      | inl hj =>
        subst hj
        rw [Function.update_self, Bitmap.isSet_insert _ hlt]
        simp
      | inr hj =>
        rw [Function.update_of_ne hj]
        simp [hj]
    rw [hset, hs.ifG j i]
    simp only [hholder, hholds, hs.holder]
    constructor
    · rintro ((rfl | ⟨q, hq, hlive⟩) | ⟨rfl, rfl⟩)
      · exact .inl rfl
      · have hqp : q ≠ p := by
          rintro rfl
          exact hq.1 h.dead
        exact .inr ⟨q, .inl hq, h.live_of_ne hqp ▸ hlive⟩
      · exact .inr ⟨p, .inr ⟨rfl, rfl⟩, h.live_self⟩
    · rintro (rfl | ⟨q, hq | ⟨rfl, rfl⟩, hlive⟩)
      · exact .inl (.inl rfl)
      · have hqp : q ≠ p := by
          rintro rfl
          exact hq.1 h.dead
        exact .inl (.inr ⟨q, hq, h.live_of_ne hqp ▸ hlive⟩)
      · exact .inr ⟨Option.some.inj (hlive.symm.trans h.live_self), rfl⟩
  · intro q j i hq hlive hmac
    rcases (hholds q i).mp hq with hold | ⟨rfl, rfl⟩
    · have hqp : q ≠ p := by
        rintro rfl
        exact hold.1 h.dead
      exact h.bmc_kept hs hqp hold hlive hmac
    · obtain rfl := Option.some.inj (h.live_self.symm.trans hlive)
      rw [h.sta_self] at hmac
      exact hbmc hmac

theorem secCamMapSet_isSet (e : IfaceEnv n) (used : SecCamBmp) {id : ℕ} (h : id < macidNum)
    (slot : ℕ) : Bitmap.isSet (secCamMapSet e used id) slot = true ↔
      Bitmap.isSet used slot = true ∨ (slot = id ∨ e.extraSec = true ∧ slot = id + 1) := by
  have hlt : id + 1 < 32 := lt_of_le_of_lt (Nat.succ_le_of_lt h) (by decide)
  simp only [secCamMapSet]
  cases e.extraSec with
  | true =>
    simp only [if_true, Bitmap.isSet_insert _ hlt, Bitmap.isSet_insert _ (Nat.lt_of_succ_lt hlt),
      true_and, or_assoc]
  | false =>
    simp only [Bool.false_eq_true, if_false, Bitmap.isSet_insert _ (Nat.lt_of_succ_lt hlt),
      false_and, or_false]

theorem secCamMapClr_isSet (e : IfaceEnv n) (used : SecCamBmp) (id slot : ℕ) :
    Bitmap.isSet (secCamMapClr e used id) slot = true ↔
      Bitmap.isSet used slot = true ∧ ¬ (slot = id ∨ e.extraSec = true ∧ slot = id + 1) := by
  simp only [secCamMapClr]
  cases e.extraSec with
  | true => simp only [if_true, Bitmap.isSet_erase, true_and, and_assoc, not_or, ne_eq]
  | false => simp only [Bool.false_eq_true, if_false, Bitmap.isSet_erase, false_and, or_false,
      ne_eq]

theorem rtwAllocMacid_cases (e : IfaceEnv n) (d : Dvobj n) (k : Fin n) (staOrNull : Bool) (p : ℕ) :
    (∃ bmc id, (∀ j, j ≠ k ∨ (d.sta p).macAddr ≠ bcAddr → bmc j = d.macidCtl.ifaceBmc j) ∧
      (id = macidNum ∨ id = rtwDefaultMgmtMacid) ∧
      ((d.sta p).macAddr = e.hwaddr k → id = macidNum) ∧
      d.rtwAllocMacid e k staOrNull p =
        { d with macidCtl := { d.macidCtl with ifaceBmc := bmc } }.setMacId p id) ∨
    (∃ id, id < macidNum ∧ Bitmap.isSet d.macidCtl.used id = false ∧
      (d.sta p).macAddr ≠ e.hwaddr k ∧
      d.rtwAllocMacid e k staOrNull p =
        (d.takeMacid e k p id ((d.sta p).macAddr == bcAddr)).setMacId p id) := by
  have hother : ∀ j, j ≠ k ∨ (d.sta p).macAddr ≠ bcAddr →
      (if (d.sta p).macAddr == bcAddr then
        Function.update d.macidCtl.ifaceBmc k invalidSecMacCamId else d.macidCtl.ifaceBmc) j =
      d.macidCtl.ifaceBmc j := by
    rintro j (hj | hmac)
    · split
      · exact Function.update_of_ne hj ..
      · rfl
    · rw [if_neg (by simpa using hmac)]
  simp only [Dvobj.rtwAllocMacid]
  split
  · next hown => exact .inl ⟨_, macidNum, fun _ _ => rfl, .inl rfl, fun _ => rfl, rfl⟩
  next hown =>
  cases hbc : (d.sta p).macAddr == bcAddr with
  | true =>
    rw [hbc] at hother
    simp only [if_true, Bool.true_and]
    split
    · exact .inl ⟨_, rtwDefaultMgmtMacid, hother, .inr rfl, fun h => absurd h hown, rfl⟩
    split
    · exact .inl ⟨_, macidNum, hother, .inl rfl, fun _ => rfl, rfl⟩
    · next id hid =>
      have hfound := List.find?_some hid
      have hmem := List.mem_of_find?_eq_some hid
      simp only [Dvobj.setIfaceBmc, Bool.and_eq_true, Bool.not_eq_true'] at hfound
      refine .inr ⟨id, List.mem_range.mp hmem, hfound.2, hown, ?_⟩
      simp [Dvobj.takeMacid, Dvobj.setIfaceBmc]
  | false =>
    simp only [Bool.false_eq_true, if_false, Bool.false_and]
    split
    · exact .inl ⟨_, macidNum, fun _ _ => rfl, .inl rfl, fun _ => rfl, rfl⟩
    · next id hid =>
      have hfound := List.find?_some hid
      have hmem := List.mem_of_find?_eq_some hid
      simp only [Bool.and_eq_true, Bool.not_eq_true'] at hfound
      exact .inr ⟨id, List.mem_range.mp hmem, hfound.2, hown, rfl⟩

theorem Enrolled.reserved {s t : MacidSys n} {k : Fin n} {p id : ℕ} {mac : MacAddr}
    (h : Enrolled s t k p mac id) (slot : ℕ) :
    t.Reserved e p slot ↔ (id < macidNum ∧ id ≠ rtwDefaultMgmtMacid) ∧ mac = bcAddr ∧
      (slot = id ∨ e.extraSec = true ∧ slot = id + 1) := by
  have hnot : ∀ i, ¬ s.Holds p i := fun i hold => hold.1 h.dead
  simp only [Reserved, h.holds, hnot, false_or, true_and, h.sta_self]
  constructor
  · rintro ⟨i, ⟨rfl, hlt⟩, hmac, hslot⟩
    exact ⟨hlt, hmac, hslot⟩
  · rintro ⟨hlt, hmac, hslot⟩
    exact ⟨id, ⟨rfl, hlt⟩, hmac, hslot⟩

theorem alloc_step {s : MacidSys n} (hs : s.Inv e) (k : Fin n) (p : ℕ) (mac : MacAddr)
    (staOrNull : Bool) (h : s.Permitted (.alloc k p mac staOrNull)) :
    (s.step e (.alloc k p mac staOrNull)).Inv e ∧ s.Exact e (.alloc k p mac staOrNull) := by
  have hcases := rtwAllocMacid_cases e
    { s.dvobj with sta := Function.update s.dvobj.sta p ⟨mac, 0⟩ } k staOrNull p
  simp only [Function.update_self] at hcases
  have hothers : ∀ x : StaInfo, ∀ q ≠ p,
      Function.update (Function.update s.dvobj.sta p ⟨mac, 0⟩) p x q = s.dvobj.sta q := by
    intro x q hq
    rw [Function.update_of_ne hq, Function.update_of_ne hq]
  simp only [Exact, step]
  rcases hcases with ⟨bmc, id, hbmc, hid, hown, heq⟩ | ⟨id, hid, hfree, hown, heq⟩
  · rw [heq]
    have henrolled : Enrolled s ⟨Dvobj.setMacId { s.dvobj with
        sta := Function.update s.dvobj.sta p ⟨mac, 0⟩
        macidCtl := { s.dvobj.macidCtl with ifaceBmc := bmc } } p id,
        Function.update s.live p (some k)⟩ k p mac id :=
      ⟨h.1, h.2, rfl, by simp [Dvobj.setMacId], hbmc⟩
    refine ⟨hs.untaken henrolled hid hown rfl rfl rfl, hothers _, fun slot => ?_⟩
    rw [henrolled.reserved, or_iff_left]
    · rfl
    · rintro ⟨⟨hlt, hne⟩, -⟩
      rcases hid with rfl | rfl
      · exact absurd hlt (lt_irrefl _)
      · exact hne rfl
  · rw [heq]
    have henrolled : Enrolled s ⟨(Dvobj.takeMacid e { s.dvobj with
        sta := Function.update s.dvobj.sta p ⟨mac, 0⟩ } k p id (mac == bcAddr)).setMacId p id,
        Function.update s.live p (some k)⟩ k p mac id := by
      refine ⟨h.1, h.2, rfl, by simp [Dvobj.setMacId, Dvobj.takeMacid], ?_⟩
      rintro j (hj | hmac)
      · simp only [Dvobj.setMacId, Dvobj.takeMacid]
        split
        · exact Function.update_of_ne hj ..
        · rfl
      · simp [Dvobj.setMacId, Dvobj.takeMacid, hmac]
    have hne : id ≠ rtwDefaultMgmtMacid := by
      rintro rfl
      exact absurd ((hs.used _).mpr (.inl rfl)) (by simp [hfree])
    refine ⟨hs.taken henrolled hid hfree hown rfl rfl rfl ?_, hothers _, fun slot => ?_⟩
    · rintro rfl
      simp [Dvobj.setMacId, Dvobj.takeMacid]
    · rw [henrolled.reserved]
      simp only [Dvobj.setMacId, Dvobj.takeMacid, hid, hne, ne_eq, not_false_eq_true, true_and,
        and_self]
      cases Decidable.eq_or_ne mac bcAddr with
      | inl hmac => simp only [hmac, beq_self_eq_true, if_true, secCamMapSet_isSet e _ hid, true_and]
      | inr hmac => simp [hmac]

theorem Inv.released {s t : MacidSys n} {k : Fin n} {p : ℕ} (hs : s.Inv e)
    (hlive : s.live p = some k) (htlive : t.live = Function.update s.live p none)
    (hsta : ∀ q ≠ p, t.dvobj.sta q = s.dvobj.sta q)
    (hbmc : ∀ j, j ≠ k ∨ (s.dvobj.sta p).macAddr ≠ bcAddr →
      t.dvobj.macidCtl.ifaceBmc j = s.dvobj.macidCtl.ifaceBmc j)
    (hholder : ∀ id q, t.dvobj.macidCtl.sta id = some q ↔
      s.dvobj.macidCtl.sta id = some q ∧ q ≠ p)
    (hused : ∀ id, Bitmap.isSet t.dvobj.macidCtl.used id = true ↔
      Bitmap.isSet s.dvobj.macidCtl.used id = true ∧ ¬ s.Holds p id)
    (hifG : ∀ j id, Bitmap.isSet (t.dvobj.macidCtl.ifG j) id = true ↔
      Bitmap.isSet (s.dvobj.macidCtl.ifG j) id = true ∧ ¬ (j = k ∧ s.Holds p id)) : t.Inv e := by
  have hdead : t.live p = none := by rw [htlive, Function.update_self]
  have hkept : ∀ q, t.live q ≠ none → q ≠ p ∧ t.live q = s.live q := by
    intro q hq
    have hqp : q ≠ p := by
      rintro rfl
      exact hq hdead
    exact ⟨hqp, by rw [htlive, Function.update_of_ne hqp]⟩
  have hsome : ∀ q j, t.live q = some j → q ≠ p ∧ s.live q = some j := by
    intro q j hq
    obtain ⟨hqp, heq⟩ := hkept q (by rw [hq]; nofun)
    exact ⟨hqp, heq ▸ hq⟩
  have hholds : ∀ q i, t.Holds q i ↔ s.Holds q i ∧ q ≠ p := by
    intro q i
    cases Decidable.eq_or_ne q p with
    | inl hq =>
      subst hq
      exact iff_of_false (fun h => h.1 hdead) fun h => h.2 rfl
    | inr hq => simp [Holds, htlive, hsta q hq, hq]
  have hdistinct : ∀ {i q}, s.Holds p i → s.Holds q i → q = p :=
    fun hp hq => hs.sound.distinct _ _ _ hq hp
  refine ⟨fun q hq => ?_, fun q j hq hmac => ?_, fun i q => ?_, fun i => ?_, fun j i => ?_,
    fun q j i hq hj hmac => ?_, fun q r j hq hr hqmac hrmac => ?_⟩
  · obtain ⟨hqp, heq⟩ := hkept q hq
    rw [hsta q hqp]
    exact hs.range q (heq ▸ hq)
  · obtain ⟨hqp, hqs⟩ := hsome q j hq
    rw [hsta q hqp] at hmac ⊢
    exact hs.own q j hqs hmac
  · rw [hholder, hholds, hs.holder i q]
  · rw [hused, hs.used i]
    simp only [hholder, hs.holder]
    constructor
    · rintro ⟨rfl | ⟨q, hq⟩, hnot⟩
      · exact .inl rfl
      · refine .inr ⟨q, hq, ?_⟩
        rintro rfl
        exact hnot hq
    · rintro (rfl | ⟨q, hq, hqp⟩)
      · exact ⟨.inl rfl, fun h => h.2.2.2 rfl⟩
      · exact ⟨.inr ⟨q, hq⟩, fun hp => hqp (hdistinct hp hq)⟩
  · rw [hifG, hs.ifG j i]
    simp only [hholder, hs.holder]
    constructor
    · rintro ⟨rfl | ⟨q, hq, hj⟩, hnot⟩
      · exact .inl rfl
      · have hqp : q ≠ p := by
          rintro rfl
          exact hnot ⟨Option.some.inj (hj.symm.trans hlive), hq⟩
        exact .inr ⟨q, ⟨hq, hqp⟩, by rw [htlive, Function.update_of_ne hqp]; exact hj⟩
    · rintro (rfl | ⟨q, ⟨hq, hqp⟩, hj⟩)
      · exact ⟨.inl rfl, fun h => h.2.2.2.2 rfl⟩
      · exact ⟨.inr ⟨q, hq, (hsome q j hj).2⟩, fun hp => hqp (hdistinct hp.2 hq)⟩
  · obtain ⟨hqp, hqs⟩ := hsome q j hj
    have hold := ((hholds q i).mp hq).1
    rw [hsta q hqp] at hmac
    have hother : j ≠ k ∨ (s.dvobj.sta p).macAddr ≠ bcAddr := by
      refine Classical.or_iff_not_imp_left.mpr fun hj hbc => ?_
      rw [not_not] at hj
      exact hqp (hs.single q p j hqs (hj ▸ hlive) hmac hbc)
    rw [hbmc j hother]
    exact hs.bmc q j i hold hqs hmac
  · obtain ⟨hqp, hqs⟩ := hsome q j hq
    obtain ⟨hrp, hrs⟩ := hsome r j hr
    rw [hsta q hqp] at hqmac
    rw [hsta r hrp] at hrmac
    exact hs.single q r j hqs hrs hqmac hrmac

theorem Inv.release_idle {s : MacidSys n} (hs : s.Inv e) {p : ℕ} {k : Fin n}
    (hlive : s.live p = some k) (hnot : ∀ id, ¬ s.Holds p id) :
    s.dvobj.rtwReleaseMacid e k p = s.dvobj.setMacId p macidNum := by
  have hp : s.live p ≠ none := by
    rw [hlive]
    nofun
  have hle := hs.range p hp
  simp only [Dvobj.rtwReleaseMacid]
  refine if_pos (.inr ?_)
  cases Decidable.eq_or_ne (s.dvobj.sta p).macId rtwDefaultMgmtMacid with
  | inl hdefault => exact .inr (.inl hdefault)
  | inr hne => exact .inl (not_lt.mp fun hlt => hnot _ ⟨hp, rfl, hlt, hne⟩)

theorem Inv.release_held {s : MacidSys n} (hs : s.Inv e) {p : ℕ} {k : Fin n} {id : ℕ}
    (hlive : s.live p = some k) (hp : s.Holds p id) :
    s.dvobj.rtwReleaseMacid e k p =
      (((if (s.dvobj.sta p).macAddr = bcAddr then s.dvobj.releaseBmc e k
        else s.dvobj).clearIface k id).clearMacid id).setMacId p macidNum := by
  have hiface := hs.sound.iface p k id hp hlive
  obtain ⟨-, hid, hlt, hne⟩ := hp
  have hheld : s.Holds p id := ⟨by rw [hlive]; nofun, hid, hlt, hne⟩
  simp only [Dvobj.rtwReleaseMacid, hid]
  rw [if_neg, if_neg, if_pos]
  · refine List.filter_eq_nil_iff.mpr fun j hj => ?_
    simp only [Dvobj.rtwMacidGetIfaceBmp, List.mem_filter] at hj
    simpa using (hiface j).mp hj.2
  · rw [not_not]
    exact List.mem_filter.mpr ⟨List.mem_finRange k, (hiface k).mpr rfl⟩
  · rintro (hmac | hle | hdefault | hunused)
    · exact absurd (hid.symm.trans (hs.own p k hlive hmac)) (Nat.ne_of_lt hlt)
    · exact absurd hlt (not_lt.mpr hle)
    · exact hne hdefault
    · have hused := (hs.used id).mpr (.inr ⟨p, (hs.holder id p).mpr hheld⟩)
      rw [hunused] at hused
      exact Bool.false_ne_true hused

theorem releaseBmc_frame (e : IfaceEnv n) (d : Dvobj n) (k : Fin n) :
    (d.releaseBmc e k).sta = d.sta ∧ (d.releaseBmc e k).macidCtl = { d.macidCtl with
      ifaceBmc := Function.update d.macidCtl.ifaceBmc k invalidSecMacCamId } := by
  simp only [Dvobj.releaseBmc, Dvobj.setIfaceBmc]
  split <;> exact ⟨rfl, rfl⟩

theorem Inv.releaseBmc_camUsed {s : MacidSys n} (hs : s.Inv e) {p : ℕ} {k : Fin n} {id : ℕ}
    (hlive : s.live p = some k) (hp : s.Holds p id) (hmac : (s.dvobj.sta p).macAddr = bcAddr) :
    (s.dvobj.releaseBmc e k).camUsed = secCamMapClr e s.dvobj.camUsed id := by
  have hbmc := hs.bmc p k id hp hlive hmac
  have hlt : id < 16 := hp.2.2.1
  have hvalid : id ≠ invalidSecMacCamId ∧ id < camNum :=
    ⟨Nat.ne_of_lt (hlt.trans (by decide)), hlt⟩
  simp only [Dvobj.releaseBmc, Dvobj.setIfaceBmc, hbmc]
  rw [if_pos hvalid]

theorem release_step {s : MacidSys n} (hs : s.Inv e) (p : ℕ) :
    (s.step e (.release p)).Inv e ∧ s.Exact e (.release p) := by
  cases hlive : s.live p with
  | none =>
    have hnot : ∀ id, ¬ s.Holds p id := fun id h => h.1 hlive
    have hreserved : ∀ slot, ¬ s.Reserved e p slot := by
      rintro slot ⟨id, h, -⟩
      exact hnot id h
    simp only [Exact, step, hlive]
    exact ⟨hs, fun _ _ => trivial, fun id => (and_iff_left (hnot id)).symm,
      fun slot => (and_iff_left (hreserved slot)).symm⟩
  | some k =>
    have hother : ∀ d : Dvobj n, d.sta = s.dvobj.sta → ∀ q ≠ p,
        (d.setMacId p macidNum).sta q = s.dvobj.sta q := by
      intro d hd q hq
      rw [← hd]
      exact Function.update_of_ne hq ..
    simp only [Exact, step, hlive]
    rcases Classical.em (∃ id, s.Holds p id) with ⟨id, hp⟩ | hnone
    · have hholds : ∀ i, s.Holds p i ↔ i = id := by
        intro i
        refine ⟨fun h => h.2.1.symm.trans hp.2.1, ?_⟩
        rintro rfl
        exact hp
      have hreserved : ∀ slot, s.Reserved e p slot ↔ (s.dvobj.sta p).macAddr = bcAddr ∧
          (slot = id ∨ e.extraSec = true ∧ slot = id + 1) := by
        intro slot
        simp [Reserved, hholds]
      have hcsta := (hs.holder id p).mpr hp
      have hcleared : ∀ i q, Function.update s.dvobj.macidCtl.sta id none i = some q ↔
          s.dvobj.macidCtl.sta i = some q ∧ q ≠ p := by
        intro i q
        cases Decidable.eq_or_ne i id with
        | inl hi =>
          subst hi
          rw [Function.update_self, hcsta]
          exact iff_of_false nofun fun h => h.2 (Option.some.inj h.1).symm
        | inr hi =>
          rw [Function.update_of_ne hi]
          refine (and_iff_left_of_imp fun hq => ?_).symm
          rintro rfl
          exact hi ((hholds i).mp ((hs.holder i q).mp hq))
      have hused : ∀ i, Bitmap.isSet (Bitmap.erase s.dvobj.macidCtl.used id) i = true ↔
          Bitmap.isSet s.dvobj.macidCtl.used i = true ∧ ¬ s.Holds p i := by
        intro i
        rw [Bitmap.isSet_erase, hholds]
      have hifG : ∀ j i, Bitmap.isSet (Function.update s.dvobj.macidCtl.ifG k
            (Bitmap.erase (s.dvobj.macidCtl.ifG k) id) j) i = true ↔
          Bitmap.isSet (s.dvobj.macidCtl.ifG j) i = true ∧ ¬ (j = k ∧ s.Holds p i) := by
        intro j i
        cases Decidable.eq_or_ne j k with
        | inl hj =>
          subst hj
          rw [Function.update_self, Bitmap.isSet_erase, hholds]
          simp
        | inr hj =>
          rw [Function.update_of_ne hj]
          simp [hj]
      rw [hs.release_held hlive hp]
      cases Decidable.eq_or_ne (s.dvobj.sta p).macAddr bcAddr with
      | inl hmac =>
        obtain ⟨hsta, hctl⟩ := releaseBmc_frame e s.dvobj k
        have hcam := hs.releaseBmc_camUsed hlive hp hmac
        rw [if_pos hmac]
        generalize s.dvobj.releaseBmc e k = d at hsta hctl hcam ⊢
        have hheap := hother ((d.clearIface k id).clearMacid id) hsta
        refine ⟨hs.released (k := k) (p := p) hlive rfl hheap ?_ ?_ ?_ ?_, hheap, ?_, ?_⟩
        all_goals simp only [Dvobj.setMacId, Dvobj.clearMacid, Dvobj.clearIface, hctl, hcam]
        · rintro j (hj | hbc)
          · exact Function.update_of_ne hj ..
          · exact absurd hmac hbc
        · exact hcleared
        · exact hused
        · exact hifG
        · exact hused
        · intro slot
          rw [secCamMapClr_isSet, hreserved]
          simp only [hmac, true_and]
      | inr hmac =>
        rw [if_neg hmac]
        have hheap := hother ((s.dvobj.clearIface k id).clearMacid id) rfl
        refine ⟨hs.released (k := k) (p := p) hlive rfl hheap (fun _ _ => rfl) hcleared hused hifG,
          hheap, hused, fun slot => ?_⟩
        rw [hreserved]
        exact (and_iff_left fun h => hmac h.1).symm
    · have hnot : ∀ id, ¬ s.Holds p id := not_exists.mp hnone
      have hreserved : ∀ slot, ¬ s.Reserved e p slot := by
        rintro slot ⟨id, h, -⟩
        exact hnot id h
      rw [hs.release_idle hlive hnot]
      refine ⟨hs.released (k := k) (p := p) hlive rfl (hother _ rfl) (fun _ _ => rfl)
        (fun id q => ?_) (fun id => (and_iff_left (hnot id)).symm)
        (fun j id => (and_iff_left fun h => hnot id h.2).symm), hother _ rfl,
        fun id => (and_iff_left (hnot id)).symm, fun slot => (and_iff_left (hreserved slot)).symm⟩
      refine (and_iff_left_of_imp fun hq => ?_).symm
      rintro rfl
      exact hnot id ((hs.holder id q).mp hq)

theorem inv_step {s : MacidSys n} (hs : s.Inv e) (ev : MacidEvent n) (h : s.Permitted ev) :
    (s.step e ev).Inv e ∧ s.Exact e ev := by
  cases ev with
  | alloc k p mac staOrNull => exact alloc_step hs k p mac staOrNull h
  | release p => exact release_step hs p
  | keys used =>
    exact ⟨⟨hs.range, hs.own, hs.holder, hs.used, hs.ifG, hs.bmc, hs.single⟩, rfl, rfl⟩

theorem macid_law (e : IfaceEnv n) (evs : List (MacidEvent n))
    (h : Run.Each (step e) Permitted (init n) evs) :
    Run.Each (step e) (fun s ev => (s.step e ev).Sound ∧ s.Exact e ev) (init n) evs :=
  Run.each_of_each (step e) Permitted _ (Inv e)
    (fun _ ev hs hev => ⟨(inv_step hs ev hev).1.sound, (inv_step hs ev hev).2⟩)
    (fun _ ev hs hev => (inv_step hs ev hev).1) init_inv h

def twoIfaces : IfaceEnv 2 where
  hwaddr k := localAddr (UInt8.ofNat k)
  extraSec := true

theorem macid_law_beaconing :
    Run.Each (step twoIfaces) (fun s ev => (s.step twoIfaces ev).Sound ∧ s.Exact twoIfaces ev)
      (init 2) [.alloc 0 0 bcAddr false, .alloc 1 1 (localAddr 5) false, .release 0] := by
  refine macid_law twoIfaces _ ⟨⟨rfl, fun _ _ h => nomatch h⟩, ⟨rfl, fun h => ?_⟩, trivial, trivial⟩
  exact absurd h (by decide)

end MacidSys

end Cam
