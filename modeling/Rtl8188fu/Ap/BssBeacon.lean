import Rtl8188fu.Ap.BssCap
import Rtl8188fu.Lib.Run

namespace Ap

open Recv (MacAddr)

theorem forall_uint8 {p : UInt8 → Prop} (h : ∀ n : Fin 256, p (UInt8.ofNat n)) (x : UInt8) :
    p x := by
  simpa using h ⟨x.toNat, x.toNat_lt⟩

structure ErpShows (num : BssCond → ℤ) (erp : UInt8) : Prop where
  nonErp : erp &&& erpInfoNonErpPresent ≠ 0 ↔ 0 < num .nonErp
  protection : erp &&& erpInfoUseProtection ≠ 0 ↔ 0 < num .nonErp
  barker : erp &&& erpInfoBarkerPreambleMode ≠ 0 ↔ 0 < num .noShortPreamble

theorem erpInfo_bits (erp : UInt8) (a b : Bool) :
    let marked := if a then erp ||| (erpInfoNonErpPresent ||| erpInfoUseProtection)
      else erp &&& ~~~(erpInfoNonErpPresent ||| erpInfoUseProtection)
    let shown := if b then marked ||| erpInfoBarkerPreambleMode
      else marked &&& ~~~erpInfoBarkerPreambleMode
    (shown &&& erpInfoNonErpPresent ≠ 0 ↔ a = true) ∧
      (shown &&& erpInfoUseProtection ≠ 0 ↔ a = true) ∧
      (shown &&& erpInfoBarkerPreambleMode ≠ 0 ↔ b = true) := by
  revert erp a b
  refine forall_uint8 ?_
  decide +kernel

theorem erpInfo_shows {num : BssCond → ℤ} (h : num .nonErp ≤ 1) (erp : UInt8) :
    ErpShows num (erpInfo num erp) := by
  have hone : num .nonErp = 1 ↔ 0 < num .nonErp := by omega
  obtain ⟨hnon, hprot, hbarker⟩ :=
    erpInfo_bits erp (decide (num .nonErp = 1)) (decide (num .noShortPreamble > 0))
  simp only [decide_eq_true_eq] at hnon hprot hbarker
  exact ⟨hnon.trans hone, hprot.trans hone, hbarker⟩

def opModeWith (mode : UInt16) (noGf noHt : Bool) : UInt16 :=
  mode ||| (if noGf then htInfoNonGfDevsPresent else 0) |||
    (if noHt then htInfoNonHtStaPresent else 0)

def IsOpMode (m : UInt16) : Prop :=
  ∃ (k : Fin 4) (noGf noHt : Bool), m = opModeWith (UInt16.ofNat k) noGf noHt

theorem opMode_update : ∀ (k j : Fin 4) (noGf noHt noGf' noHt' : Bool),
    let r := (((OpModeUpdate.mk (opModeWith (UInt16.ofNat k) noGf noHt) 0).flag
      htInfoNonGfDevsPresent noGf').flag htInfoNonHtStaPresent noHt').mode (UInt16.ofNat j)
    r.htOpMode = opModeWith (UInt16.ofNat j) noGf' noHt' ∧
      (0 < r.changes ↔ r.htOpMode ≠ opModeWith (UInt16.ofNat k) noGf noHt) := by
  decide +kernel

theorem newOpMode_lt (cfg : BssCfg) (num : BssCond → ℤ) :
    ∃ j : Fin 4, newOpMode cfg num = UInt16.ofNat j := by
  unfold newOpMode
  split
  · exact ⟨3, rfl⟩
  · split
    · exact ⟨2, rfl⟩
    · split
      · exact ⟨1, rfl⟩
      · exact ⟨0, rfl⟩

structure OpModeSpec (m : UInt16) (num : BssCond → ℤ) (cfg : BssCfg) : Prop where
  isMode : IsOpMode (rtwHtOperationUpdate cfg num m).htOpMode
  changes : 0 < (rtwHtOperationUpdate cfg num m).changes ↔
    (rtwHtOperationUpdate cfg num m).htOpMode ≠ m
  again : (rtwHtOperationUpdate cfg num (rtwHtOperationUpdate cfg num m).htOpMode).htOpMode =
    (rtwHtOperationUpdate cfg num m).htOpMode

theorem rtwHtOperationUpdate_spec {m : UInt16} (hm : IsOpMode m) (num : BssCond → ℤ)
    (cfg : BssCfg) : OpModeSpec m num cfg := by
  obtain ⟨k, noGf, noHt, rfl⟩ := hm
  obtain ⟨j, hj⟩ := newOpMode_lt cfg num
  cases hopt : cfg.htOption with
  | false =>
    have hsame : ∀ m, rtwHtOperationUpdate cfg num m = ⟨m, 0⟩ := fun m => by
      simp [rtwHtOperationUpdate, hopt]
    refine ⟨?_, ?_, ?_⟩
    · rw [hsame]
      exact ⟨k, noGf, noHt, rfl⟩
    · simp [hsame]
    · simp [hsame]
  | true =>
    have hupdate : ∀ m, rtwHtOperationUpdate cfg num m =
        (((OpModeUpdate.mk m 0).flag htInfoNonGfDevsPresent (decide (num .htNoGf ≠ 0))).flag
          htInfoNonHtStaPresent (decide (num .noHt ≠ 0) || cfg.olbcHt)).mode (UInt16.ofNat j) :=
      fun m => by rw [rtwHtOperationUpdate, if_pos hopt, hj]
    have hfirst := opMode_update k j noGf noHt (decide (num .htNoGf ≠ 0))
      (decide (num .noHt ≠ 0) || cfg.olbcHt)
    rw [← hupdate] at hfirst
    refine ⟨?_, hfirst.2, ?_⟩
    · rw [hfirst.1]
      exact ⟨j, _, _, rfl⟩
    · have hagain := opMode_update j j (decide (num .htNoGf ≠ 0))
        (decide (num .noHt ≠ 0) || cfg.olbcHt) (decide (num .htNoGf ≠ 0))
        (decide (num .noHt ≠ 0) || cfg.olbcHt)
      rw [← hupdate] at hagain
      rw [hfirst.1, hagain.1]

def htBss (cfg : BssCfg) : Bool :=
  cfg.registryHtEnable && isSupportedHt cfg.registryWirelessMode

def calls (cfg : BssCfg) (cap : StaCap) : BssCond → Bool
  | .noShortPreamble => cap.flags &&& wlanStaShortPreamble = 0
  | .nonErp => cap.flags &&& wlanStaNonerp ≠ 0
  | .noShortSlotTime => cap.capability &&& wlanCapabilityShortSlot = 0
  | .noHt => htBss cfg && decide (cap.flags &&& wlanStaHt = 0)
  | .htNoGf =>
    htBss cfg && decide (cap.flags &&& wlanStaHt ≠ 0) && decide (cap.htCapInfo &&& htCapGrnFld = 0)
  | .ht20mhz =>
    htBss cfg && decide (cap.flags &&& wlanStaHt ≠ 0) &&
      decide (cap.htCapInfo &&& htCapSupWidth = 0)
  | .fortyMhzIntolerant =>
    htBss cfg && decide (cap.flags &&& wlanStaHt ≠ 0) &&
      decide (cap.htCapInfo &&& htCap40mhzIntolerant ≠ 0)

def BssCond.neverCleared : BssCond → Bool
  | .htNoGf | .ht20mhz | .fortyMhzIntolerant => true
  | _ => false

def BssCond.isHt : BssCond → Bool
  | .noHt | .htNoGf | .ht20mhz | .fortyMhzIntolerant => true
  | _ => false

namespace CapUpdate

def write (c : BssCond) (b : Bool) (u : CapUpdate) : CapUpdate :=
  { u with latches := u.latches.write c b }

theorem raise_eq (c : BssCond) (u : CapUpdate) : u.raise c = u.write c true := by
  unfold raise write
  cases hset : u.latches.set c with
  | true => rw [if_pos rfl, Latches.write_self hset]
  | false => rw [if_neg Bool.false_ne_true, Latches.raise_eq_write hset]

theorem lower_eq (c : BssCond) (u : CapUpdate) : u.lower c = u.write c false := by
  unfold lower write
  cases hset : u.latches.set c with
  | true => rw [if_pos rfl, Latches.lower_eq_write hset]
  | false => rw [if_neg Bool.false_ne_true, Latches.write_self hset]

theorem lowerWarned_eq {c : BssCond} {u : CapUpdate} (h : 0 ≤ u.latches.others c) :
    u.lowerWarned c = u.write c false := by
  unfold lowerWarned write
  cases hset : u.latches.set c with
  | true =>
    rw [if_pos rfl, if_pos ((Latches.num_pos_iff h).mpr (.inr hset)), Latches.lower_eq_write hset]
  | false => rw [if_neg Bool.false_ne_true, Latches.write_self hset]

theorem capJoin_eq (c : BssCond) (b : Bool) (onEdge : CapUpdate → CapUpdate) (u : CapUpdate) :
    u.capJoin c b onEdge =
      if u.latches.tips c b then onEdge (u.write c b) else u.write c b := by
  unfold capJoin
  cases b with
  | true =>
    rw [if_pos rfl, capRaise, Latches.tips, write]
    cases hset : u.latches.set c with
    | true => simp [Latches.write_self hset]
    | false =>
      simp only [Bool.false_eq_true, if_false, Latches.raise_eq_write hset]
      simp
  | false =>
    rw [if_neg Bool.false_ne_true, capLower, Latches.tips, write]
    cases hset : u.latches.set c with
    | true =>
      simp only [if_true, Latches.lower_eq_write hset]
      simp
    | false => simp [Latches.write_self hset]

end CapUpdate

structure ElementsReady (cfg : BssCfg) (bss : Bss) : Prop where
  started : cfg.bstartBss = true
  erpEnable : bss.ies.erp.isSome = true → cfg.erpEnable = true
  htInfoEnable : cfg.htOption = true → bss.ies.htInfo.isSome = true → cfg.htInfoEnable = true
  isMode : cfg.htOption = true → IsOpMode bss.htOpMode
  opMode : cfg.htOption = true → ∀ h ∈ bss.ies.htInfo, h.opMode = bss.htOpMode

theorem erpInfo_congr {num num' : BssCond → ℤ} (hnon : num .nonErp = num' .nonErp)
    (hsp : num .noShortPreamble = num' .noShortPreamble) : erpInfo num = erpInfo num' := by
  funext erp
  rw [erpInfo, erpInfo, hnon, hsp]

theorem updateBeacon_erpinfo {cfg : BssCfg} {bss : Bss} (h : ElementsReady cfg bss)
    (num : BssCond → ℤ) :
    updateBeacon cfg num .erpinfo false bss =
      { bss with ies.erp := bss.ies.erp.map (erpInfo num) } := by
  rw [updateBeacon, if_pos h.started]
  simp only [updateBcnIe, updateBcnErpinfoIe, Bool.false_eq_true, if_false]
  cases hen : cfg.erpEnable with
  | true => rw [if_pos rfl]
  | false =>
    have hnone : bss.ies.erp = none := by
      rcases Option.eq_none_or_eq_some bss.ies.erp with hnone | ⟨erp, hsome⟩
      · exact hnone
      · exact absurd (h.erpEnable (by rw [hsome]; rfl)) (by rw [hen]; exact Bool.false_ne_true)
    rw [if_neg Bool.false_ne_true, hnone, Option.map_none, ← hnone]

def stages (cfg : BssCfg) (b : BssCond → Bool) (u : CapUpdate) : CapUpdate :=
  ((u.capJoin .noShortPreamble (b .noShortPreamble) (.touch cfg)).capJoin
    .nonErp (b .nonErp) (.touchErp cfg)).capJoin .noShortSlotTime (b .noShortSlotTime) (.touch cfg)

def Bss.withErp (bss : Bss) (tips : Bool) (num : BssCond → ℤ) : Bss :=
  if tips then { bss with ies.erp := bss.ies.erp.map (erpInfo num) } else bss

def longMode (cfg : BssCfg) : Bool := decide (cfg.curWirelessMode > wireless11b)

theorem CapUpdate.capJoin_touch (cfg : BssCfg) (c : BssCond) (b : Bool) (u : CapUpdate) :
    u.capJoin c b (.touch cfg) =
      ⟨u.latches.write c b, u.bss, u.beaconUpdated || longMode cfg && u.latches.tips c b⟩ := by
  rw [capJoin_eq, write, longMode]
  cases u.latches.tips c b with
  | false => simp
  | true =>
    rw [if_pos rfl, touch, Bool.and_true]
    split
    · next h => simp [h]
    · next h => simp [h]

theorem CapUpdate.capJoin_touchErp {cfg : BssCfg} {bss : Bss} (h : ElementsReady cfg bss)
    (l : Latches BssCond) (updated : Bool) (c : BssCond) (b : Bool) :
    CapUpdate.capJoin c b (.touchErp cfg) ⟨l, bss, updated⟩ =
      ⟨l.write c b, bss.withErp (l.tips c b) (l.write c b).num, updated || l.tips c b⟩ := by
  rw [capJoin_eq, write, Bss.withErp]
  cases l.tips c b with
  | false => simp
  | true =>
    rw [if_pos rfl, touchErp, updateBeacon_erpinfo h, if_pos rfl, Bool.or_true]

structure Staged (cfg : BssCfg) (b : BssCond → Bool) (u v : CapUpdate) : Prop where
  others : v.latches.others = u.latches.others
  set : v.latches.set = fun c => if c.isHt then u.latches.set c else b c
  bss : v.bss = u.bss.withErp (u.latches.tips .nonErp (b .nonErp)) v.latches.num
  updated : v.beaconUpdated = (u.beaconUpdated || u.latches.tips .nonErp (b .nonErp) ||
    longMode cfg && (u.latches.tips .noShortPreamble (b .noShortPreamble) ||
      u.latches.tips .noShortSlotTime (b .noShortSlotTime)))

theorem stages_spec {cfg : BssCfg} {u : CapUpdate} (h : ElementsReady cfg u.bss)
    (b : BssCond → Bool) : Staged cfg b u (stages cfg b u) := by
  have hnon : (u.latches.write .noShortPreamble (b .noShortPreamble)).tips .nonErp (b .nonErp) =
      u.latches.tips .nonErp (b .nonErp) := Latches.tips_write_ne (by decide) _ _
  have hslot : ((u.latches.write .noShortPreamble (b .noShortPreamble)).write
      .nonErp (b .nonErp)).tips .noShortSlotTime (b .noShortSlotTime) =
      u.latches.tips .noShortSlotTime (b .noShortSlotTime) := by
    rw [Latches.tips_write_ne (by decide), Latches.tips_write_ne (by decide)]
  have heq : stages cfg b u = ⟨((u.latches.write .noShortPreamble (b .noShortPreamble)).write
      .nonErp (b .nonErp)).write .noShortSlotTime (b .noShortSlotTime),
      u.bss.withErp (u.latches.tips .nonErp (b .nonErp))
        ((u.latches.write .noShortPreamble (b .noShortPreamble)).write .nonErp (b .nonErp)).num,
      ((u.beaconUpdated || longMode cfg && u.latches.tips .noShortPreamble (b .noShortPreamble)) ||
        u.latches.tips .nonErp (b .nonErp)) ||
        longMode cfg && u.latches.tips .noShortSlotTime (b .noShortSlotTime)⟩ := by
    rw [stages, CapUpdate.capJoin_touch cfg .noShortPreamble, CapUpdate.capJoin_touchErp h,
      CapUpdate.capJoin_touch]
    simp only [hnon, hslot]
  rw [heq]
  refine ⟨by simp, ?_, ?_, ?_⟩
  · funext c
    cases c <;> rfl
  · dsimp only
    generalize (u.latches.write .noShortPreamble (b .noShortPreamble)).write
      .nonErp (b .nonErp) = l
    have hkeep : ∀ c, c ≠ .noShortSlotTime →
        (l.write .noShortSlotTime (b .noShortSlotTime)).num c = l.num c :=
      fun c hc => Latches.num_write_ne l hc _
    rw [Bss.withErp, Bss.withErp,
      erpInfo_congr (hkeep .nonErp (by decide)) (hkeep .noShortPreamble (by decide))]
  · dsimp only
    cases u.beaconUpdated <;> cases longMode cfg <;>
      cases u.latches.tips .nonErp (b .nonErp) <;>
      cases u.latches.tips .noShortPreamble (b .noShortPreamble) <;> rfl

theorem updateBeacon_htAddInfo {cfg : BssCfg} {bss : Bss} (hstart : cfg.bstartBss = true)
    (num : BssCond → ℤ) (hopt : cfg.htOption = true)
    (hen : bss.ies.htInfo.isSome = true → cfg.htInfoEnable = true) :
    ∃ sw infos0, updateBeacon cfg num .htAddInfo false bss = { bss with
      swTo20mhz := sw
      ies.htInfo := bss.ies.htInfo.map fun _ => ⟨infos0, bss.htOpMode⟩ } := by
  rw [updateBeacon, if_pos hstart]
  simp only [updateBcnIe, updateBcnHtinfoIe, hopt, Bool.true_and, Bool.false_eq_true, if_false]
  rcases Option.eq_none_or_eq_some bss.ies.htInfo with hnone | ⟨htInfo, hsome⟩
  · refine ⟨bss.swTo20mhz, 0, ?_⟩
    obtain ⟨htOpMode, sw, ⟨erp, htInfo⟩, onAir⟩ := bss
    obtain rfl : htInfo = none := hnone
    split <;> rfl
  · rw [if_pos (hen (by rw [hsome]; rfl)), hsome]
    exact ⟨_, _, rfl⟩

structure Operated (cfg : BssCfg) (announce : Bool) (u v : CapUpdate) : Prop where
  latches : v.latches = u.latches
  erp : v.bss.ies.erp = u.bss.ies.erp
  onAir : v.bss.onAir = u.bss.onAir
  htInfo : v.bss.ies.htInfo.isSome = u.bss.ies.htInfo.isSome
  mode : v.bss.htOpMode = (rtwHtOperationUpdate cfg u.latches.num u.bss.htOpMode).htOpMode
  ready : ElementsReady cfg v.bss
  updated : v.beaconUpdated = (u.beaconUpdated || (announce &&
    decide (0 < (rtwHtOperationUpdate cfg u.latches.num u.bss.htOpMode).changes)))
  kept : (rtwHtOperationUpdate cfg u.latches.num u.bss.htOpMode).changes = 0 → v.bss = u.bss

theorem htOperation_spec {cfg : BssCfg} {u : CapUpdate} (h : ElementsReady cfg u.bss)
    (announce : Bool) : Operated cfg announce u (u.htOperation cfg announce) := by
  cases hopt : cfg.htOption with
  | false =>
    have hsame : rtwHtOperationUpdate cfg u.latches.num u.bss.htOpMode = ⟨u.bss.htOpMode, 0⟩ := by
      simp [rtwHtOperationUpdate, hopt]
    have heq : u.htOperation cfg announce = u := by simp [CapUpdate.htOperation, hsame]
    rw [heq]
    exact ⟨rfl, rfl, rfl, rfl, by rw [hsame], h, by simp [hsame], fun _ => rfl⟩
  | true =>
    have hspec := rtwHtOperationUpdate_spec (h.isMode hopt) u.latches.num cfg
    cases Decidable.em (0 < (rtwHtOperationUpdate cfg u.latches.num u.bss.htOpMode).changes) with
    | inl hch =>
      obtain ⟨sw, infos0, hbss⟩ := @updateBeacon_htAddInfo _ { u.bss with
        htOpMode := (rtwHtOperationUpdate cfg u.latches.num u.bss.htOpMode).htOpMode }
        h.started u.latches.num hopt (h.htInfoEnable hopt)
      have hcap : ∀ bss, updateBeacon cfg u.latches.num .htCapability false bss = bss := fun bss => by
        rw [updateBeacon, if_pos h.started]
        rfl
      rw [CapUpdate.htOperation]
      simp only [hcap, if_pos hch, hbss]
      refine ⟨rfl, rfl, rfl, by simp, rfl, ⟨h.started, h.erpEnable, fun _ => ?_, fun _ => ?_,
        fun _ e he => ?_⟩, by simp [hch], fun h0 => absurd h0 (by omega)⟩
      · simpa using h.htInfoEnable hopt
      · exact hspec.isMode
      · obtain ⟨_, _, rfl⟩ := Option.map_eq_some_iff.mp he
        rfl
    | inr hch =>
      have hmode : (rtwHtOperationUpdate cfg u.latches.num u.bss.htOpMode).htOpMode =
          u.bss.htOpMode := not_not.mp fun hne => hch (hspec.changes.mpr hne)
      have heq : u.htOperation cfg announce = u := by
        simp only [CapUpdate.htOperation, if_neg hch, hmode]
      rw [heq]
      exact ⟨rfl, rfl, rfl, rfl, hmode.symm, h, by simp [hch], fun _ => rfl⟩

theorem transmit_eq {cfg : BssCfg} (hstart : cfg.bstartBss = true) (u : CapUpdate) :
    u.transmit cfg = { u with
      bss.onAir := if u.beaconUpdated then u.bss.ies else u.bss.onAir } := by
  unfold CapUpdate.transmit
  split
  · rw [updateBeacon, if_pos hstart]
    rfl
  · rfl

structure HtLatched (set : BssCond → Bool) (u v : CapUpdate) : Prop where
  bss : v.bss = u.bss
  updated : v.beaconUpdated = u.beaconUpdated
  others : v.latches.others = u.latches.others
  set : v.latches.set = set

theorem raise_if_eq (p : Prop) [Decidable p] (c : BssCond) (u : CapUpdate) :
    (if p then u.raise c else u) = u.write c (decide p || u.latches.set c) := by
  split
  · next h => rw [CapUpdate.raise_eq, decide_eq_true h, Bool.true_or]
  · next h =>
    rw [decide_eq_false h, Bool.false_or, CapUpdate.write, Latches.write_self rfl]

def htSet (cap : StaCap) (set : BssCond → Bool) : BssCond → Bool
  | .noHt => decide (cap.flags &&& wlanStaHt = 0)
  | .htNoGf => decide (cap.flags &&& wlanStaHt ≠ 0) && decide (cap.htCapInfo &&& htCapGrnFld = 0) ||
    set .htNoGf
  | .ht20mhz =>
    decide (cap.flags &&& wlanStaHt ≠ 0) && decide (cap.htCapInfo &&& htCapSupWidth = 0) ||
      set .ht20mhz
  | .fortyMhzIntolerant =>
    decide (cap.flags &&& wlanStaHt ≠ 0) && decide (cap.htCapInfo &&& htCap40mhzIntolerant ≠ 0) ||
      set .fortyMhzIntolerant
  | c => set c

theorem htLatches_spec (cap : StaCap) (u : CapUpdate) :
    HtLatched (htSet cap u.latches.set) u (u.htLatches cap) := by
  unfold CapUpdate.htLatches
  cases Decidable.em (cap.flags &&& wlanStaHt = 0) with
  | inl hht =>
    rw [if_neg (not_not_intro hht), CapUpdate.raise_eq]
    refine ⟨rfl, rfl, Latches.others_write .., ?_⟩
    funext c
    cases c <;> simp [htSet, hht, CapUpdate.write]
  | inr hht =>
    rw [if_pos hht]
    simp only [CapUpdate.lower_eq, raise_if_eq]
    refine ⟨rfl, rfl, by simp [CapUpdate.write], ?_⟩
    funext c
    cases c <;> simp [htSet, hht, CapUpdate.write]

theorem htLower_spec {u : CapUpdate} (h : 0 ≤ u.latches.others .fortyMhzIntolerant) :
    HtLatched (fun c => !c.isHt && u.latches.set c) u
      ((((u.lower .htNoGf).lower .noHt).lower .ht20mhz).lowerWarned .fortyMhzIntolerant) := by
  simp only [CapUpdate.lower_eq]
  rw [CapUpdate.lowerWarned_eq (by simpa [CapUpdate.write] using h)]
  refine ⟨rfl, rfl, by simp [CapUpdate.write], ?_⟩
  funext c
  cases c <;> simp [BssCond.isHt, CapUpdate.write]

def opModeChanges (cfg : BssCfg) (num : BssCond → ℤ) (m : UInt16) : Bool :=
  decide (0 < (rtwHtOperationUpdate cfg num m).changes)

structure Settled (cfg : BssCfg) (l : Latches BssCond) (bss : Bss) (b : BssCond → Bool)
    (announce updated : Bool) (v : CapUpdate) : Prop where
  others : v.latches.others = l.others
  ready : ElementsReady cfg v.bss
  erp : v.bss.ies.erp = (bss.withErp (l.tips .nonErp (b .nonErp)) v.latches.num).ies.erp
  erpOnAir : v.bss.onAir.erp = v.bss.ies.erp
  htInfo : v.bss.ies.htInfo.isSome = bss.ies.htInfo.isSome
  mode : v.bss.htOpMode = (rtwHtOperationUpdate cfg v.latches.num bss.htOpMode).htOpMode
  fresh : opModeChanges cfg v.latches.num bss.htOpMode = false ∨ announce = true ∨ updated = true →
    v.bss.onAir = v.bss.ies
  stale : opModeChanges cfg v.latches.num bss.htOpMode = true → announce = false →
    updated = false → v.bss.onAir = bss.onAir

def updatedBy (cfg : BssCfg) (l : Latches BssCond) (b : BssCond → Bool) (updated : Bool) : Bool :=
  updated || l.tips .nonErp (b .nonErp) ||
    longMode cfg && (l.tips .noShortPreamble (b .noShortPreamble) ||
      l.tips .noShortSlotTime (b .noShortSlotTime))

theorem ElementsReady.withErp {cfg : BssCfg} {bss : Bss} (h : ElementsReady cfg bss) (tips : Bool)
    (num : BssCond → ℤ) : ElementsReady cfg (bss.withErp tips num) := by
  unfold Bss.withErp
  split
  · exact ⟨h.started, fun he => h.erpEnable (by simpa using he), h.htInfoEnable, h.isMode, h.opMode⟩
  · exact h

theorem settle {cfg : BssCfg} {l : Latches BssCond} {bss : Bss} (h : ElementsReady cfg bss)
    (hair : bss.onAir = bss.ies) {b : BssCond → Bool} {updated : Bool} (announce : Bool)
    {set : BssCond → Bool} {w : CapUpdate}
    (hw : HtLatched set (stages cfg b ⟨l, bss, updated⟩) w)
    (hset : ∀ c, c.isHt = false → set c = b c) :
    Settled cfg l bss b announce (updatedBy cfg l b updated)
      ((w.htOperation cfg announce).transmit cfg) := by
  have hst := stages_spec (u := ⟨l, bss, updated⟩) h b
  have hnum : ∀ c, c.isHt = false → w.latches.num c = (stages cfg b ⟨l, bss, updated⟩).latches.num c :=
    fun c hc => by
      rw [Latches.num_eq, Latches.num_eq, hw.others, hw.set, hset c hc, hst.set]
      simp [hc]
  have hbss : w.bss = bss.withErp (l.tips .nonErp (b .nonErp)) w.latches.num := by
    rw [hw.bss, hst.bss, Bss.withErp, Bss.withErp,
      erpInfo_congr (hnum .nonErp rfl) (hnum .noShortPreamble rfl)]
  have hready : ElementsReady cfg w.bss := hbss ▸ h.withErp _ _
  have hop := htOperation_spec hready announce
  have hmode : w.bss.htOpMode = bss.htOpMode := by
    rw [hbss, Bss.withErp]
    split <;> rfl
  have honair : w.bss.onAir = bss.onAir := by
    rw [hbss, Bss.withErp]
    split <;> rfl
  have hhtinfo : w.bss.ies.htInfo = bss.ies.htInfo := by
    rw [hbss, Bss.withErp]
    split <;> rfl
  have hkeeps : l.tips .nonErp (b .nonErp) = false → w.bss = bss := fun htips => by
    rw [hbss, Bss.withErp, htips, if_neg Bool.false_ne_true]
  have hupdated : (w.htOperation cfg announce).beaconUpdated =
      (updatedBy cfg l b updated || announce && opModeChanges cfg w.latches.num bss.htOpMode) := by
    rw [hop.updated, hw.updated, hst.updated, hmode]
    rfl
  have hnotips : updatedBy cfg l b updated = false → l.tips .nonErp (b .nonErp) = false := by
    intro hu
    simp only [updatedBy, Bool.or_eq_false_iff] at hu
    exact hu.1.2
  rw [transmit_eq h.started, hupdated]
  refine ⟨?_, ?_, ?_, ?_, ?_, ?_, ?_, ?_⟩
  · show (w.htOperation cfg announce).latches.others = _
    rw [hop.latches, hw.others, hst.others]
  · exact ⟨hop.ready.started, hop.ready.erpEnable, hop.ready.htInfoEnable, hop.ready.isMode,
      hop.ready.opMode⟩
  · show (w.htOperation cfg announce).bss.ies.erp =
      (bss.withErp _ (w.htOperation cfg announce).latches.num).ies.erp
    rw [hop.erp, hop.latches, ← hbss]
  · dsimp only
    split
    · rfl
    · next hsent =>
      simp only [Bool.or_eq_true, not_or, Bool.not_eq_true] at hsent
      rw [hop.onAir, hop.erp, hkeeps (hnotips hsent.1), hair]
  · exact hop.htInfo.trans (by rw [hhtinfo])
  · exact (hop.mode.trans (by rw [hmode])).trans (by rw [← hop.latches])
  · show opModeChanges cfg (w.htOperation cfg announce).latches.num _ = _ ∨ _ → _
    rw [hop.latches]
    intro hsent
    dsimp only
    split
    · rfl
    · next hno =>
      simp only [Bool.or_eq_true, not_or, Bool.not_eq_true, Bool.and_eq_false_iff] at hno
      have hch : opModeChanges cfg w.latches.num bss.htOpMode = false := by
        rcases hsent with hch | hann | hup
        · exact hch
        · exact hno.2.resolve_left (by simp [hann])
        · exact absurd hup (by simp [hno.1])
      have hzero : (rtwHtOperationUpdate cfg w.latches.num w.bss.htOpMode).changes = 0 := by
        rw [hmode]
        simpa [opModeChanges] using hch
      rw [hop.kept hzero, hkeeps (hnotips hno.1), hair]
  · intro hch hann hup
    dsimp only
    rw [if_neg (by simp [hup, hann]), hop.onAir, honair]

def setAfterJoin (cfg : BssCfg) (cap : StaCap) (set : BssCond → Bool) (c : BssCond) : Bool :=
  calls cfg cap c || c.neverCleared && set c

theorem htOperation_off {cfg : BssCfg} (hopt : cfg.htOption = false) (announce : Bool)
    (u : CapUpdate) : u.htOperation cfg announce = u := by
  have hsame : rtwHtOperationUpdate cfg u.latches.num u.bss.htOpMode = ⟨u.bss.htOpMode, 0⟩ := by
    simp [rtwHtOperationUpdate, hopt]
  simp [CapUpdate.htOperation, hsame]

theorem htJoin_latched {cfg : BssCfg} (cap : StaCap) {u : CapUpdate} {old : BssCond → Bool}
    (hu : u.latches.set = fun c => if c.isHt then old c else calls cfg cap c)
    (hold : ∀ c, c.isHt = true → htBss cfg = false → old c = false) :
    ∃ w, HtLatched (setAfterJoin cfg cap old) u w ∧ u.htJoin cfg cap = w.htOperation cfg true := by
  unfold CapUpdate.htJoin
  cases hbss : htBss cfg with
  | true =>
    have hspec := htLatches_spec cap u
    refine ⟨u.htLatches cap, ⟨hspec.bss, hspec.updated, hspec.others, hspec.set.trans ?_⟩,
      if_pos hbss⟩
    funext c
    cases c <;> simp [htSet, setAfterJoin, calls, hu, hbss, BssCond.isHt, BssCond.neverCleared]
  | false =>
    have hopt : cfg.htOption = false := by
      by_contra hne
      have hsup : htBss cfg = true := cfg.supported (by simpa using hne)
      exact absurd (hbss.symm.trans hsup) Bool.false_ne_true
    refine ⟨u, ⟨rfl, rfl, rfl, ?_⟩, ?_⟩
    · rw [hu]
      funext c
      have hc := fun hht => hold c hht hbss
      cases c <;> simp_all [setAfterJoin, calls, BssCond.isHt, BssCond.neverCleared]
    · rw [htOperation_off hopt, htOperation_off hopt]
      change (if htBss cfg = true then _ else u) = u
      rw [hbss, if_neg Bool.false_ne_true]

theorem bssCapUpdateOnStaJoin_spec {cfg : BssCfg} {l : Latches BssCond} {bss : Bss}
    (h : ElementsReady cfg bss) (hair : bss.onAir = bss.ies) (cap : StaCap)
    (hold : ∀ c, c.isHt = true → htBss cfg = false → l.set c = false) :
    Settled cfg l bss (calls cfg cap) true (updatedBy cfg l (calls cfg cap) false)
        (bssCapUpdateOnStaJoin cfg cap l bss) ∧
      (bssCapUpdateOnStaJoin cfg cap l bss).latches.set = setAfterJoin cfg cap l.set := by
  have hst := stages_spec (u := ⟨l, bss, false⟩) h (calls cfg cap)
  obtain ⟨w, hw, heq⟩ := htJoin_latched cap hst.set hold
  have hjoin : bssCapUpdateOnStaJoin cfg cap l bss = (w.htOperation cfg true).transmit cfg := by
    rw [← heq]
    rfl
  rw [hjoin]
  have hready : ElementsReady cfg w.bss := by
    rw [hw.bss, hst.bss]
    exact h.withErp _ _
  refine ⟨settle h hair true hw fun c hc => ?_, ?_⟩
  · cases c <;> first | exact absurd hc (by decide) | exact Bool.or_false _
  · rw [transmit_eq h.started]
    exact (congrArg Latches.set (htOperation_spec hready true).latches).trans hw.set

theorem bssCapUpdateOnStaLeave_spec {cfg : BssCfg} {l : Latches BssCond} {bss : Bss}
    (h : ElementsReady cfg bss) (hair : bss.onAir = bss.ies) (timSet : Bool)
    (hothers : 0 ≤ l.others .fortyMhzIntolerant) :
    Settled cfg l bss (fun _ => false) false (updatedBy cfg l (fun _ => false) timSet)
        (bssCapUpdateOnStaLeave cfg timSet l bss) ∧
      ∀ c, (bssCapUpdateOnStaLeave cfg timSet l bss).latches.set c = false := by
  have hst := stages_spec (u := ⟨l, bss, timSet⟩) h fun _ => false
  have htim : (if timSet then updateBeacon cfg l.num .tim false bss else bss) = bss := by
    rw [updateBeacon, if_pos h.started]
    exact ite_self bss
  have hw := htLower_spec (u := stages cfg (fun _ => false) ⟨l, bss, timSet⟩)
    (by rw [hst.others]; exact hothers)
  have hleave : bssCapUpdateOnStaLeave cfg timSet l bss =
      (((((((stages cfg (fun _ => false) ⟨l, bss, timSet⟩).lower .htNoGf).lower .noHt).lower
        .ht20mhz).lowerWarned .fortyMhzIntolerant).htOperation cfg false).transmit cfg) := by
    unfold bssCapUpdateOnStaLeave
    rw [htim]
    rfl
  have hclear : ∀ c, (!c.isHt &&
      (stages cfg (fun _ => false) ⟨l, bss, timSet⟩).latches.set c) = false := fun c => by
    rw [hst.set]
    cases c <;> rfl
  have hready := hw.bss ▸ hst.bss ▸ h.withErp _ _
  rw [hleave]
  refine ⟨settle h hair false hw fun c _ => hclear c, fun c => ?_⟩
  rw [transmit_eq h.started]
  exact (congrFun (congrArg Latches.set (htOperation_spec hready false).latches) c).trans
    ((congrFun hw.set c).trans (hclear c))

end Ap
