import Rtl8188fu.Ap.BssBeacon

namespace Ap

open Recv (MacAddr)

def tally (cfg : BssCfg) (stas : List BssSta) (c : BssCond) : ℤ :=
  stas.countP fun sta => calls cfg sta.cap c

structure Consistent (cfg : BssCfg) (s : ApState) : Prop where
  counters : ∀ c, s.num c = tally cfg s.stas c
  erp : ∀ erp ∈ s.bss.onAir.erp, ErpShows s.num erp
  opMode : cfg.htOption = true → ∀ h ∈ s.bss.onAir.htInfo,
    h.opMode = (rtwHtOperationUpdate cfg s.num s.bss.htOpMode).htOpMode

structure Started (cfg : BssCfg) (s : ApState) : Prop where
  empty : s.stas = []
  zero : ∀ c, s.num c = 0
  ready : ElementsReady cfg s.bss
  air : s.bss.onAir = s.bss.ies
  erp : ∀ erp ∈ s.bss.ies.erp, ErpShows s.num erp

namespace ApState

def Knows (s : ApState) : ApEvent → Prop
  | .join _ _ => True
  | .leave mac _ => (s.lookup mac).isSome = true

def StepConsistent (cfg : BssCfg) (s : ApState) (e : ApEvent) : Prop :=
  s.Knows e → Consistent cfg (s.step cfg e)

def turns (cfg : BssCfg) (s : ApState) (mac : MacAddr) (b : BssCond → Bool) (c : BssCond) : Bool :=
  (s.without mac).all (fun sta => !calls cfg sta.cap c) &&
    (s.lookup mac).any (fun sta => calls cfg sta.cap c) != b c

def ErpFollows (cfg : BssCfg) (s : ApState) (mac : MacAddr) (b : BssCond → Bool) : Prop :=
  s.bss.ies.erp.isSome = true → s.turns cfg mac b .noShortPreamble = true →
    s.turns cfg mac b .nonErp = true

def HtSent (cfg : BssCfg) (s : ApState) (mac : MacAddr) (timSet : Bool) : Prop :=
  cfg.htOption = true → s.bss.ies.htInfo.isSome = true →
    opModeChanges cfg (tally cfg (s.without mac)) s.bss.htOpMode = true →
      timSet = true ∨ s.turns cfg mac (fun _ => false) .nonErp = true ∨
        longMode cfg = true ∧ (s.turns cfg mac (fun _ => false) .noShortPreamble = true ∨
          s.turns cfg mac (fun _ => false) .noShortSlotTime = true)

def KeepsStep (cfg : BssCfg) (s : ApState) : ApEvent → Prop
  | .join mac cap =>
    (∀ sta ∈ s.lookup mac, ∀ c, c.neverCleared = true → calls cfg sta.cap c = true →
      calls cfg cap c = true) ∧ s.ErpFollows cfg mac (calls cfg cap)
  | .leave mac timSet =>
    (s.lookup mac).isSome = true →
      s.ErpFollows cfg mac (fun _ => false) ∧ s.HtSent cfg mac timSet

structure Inv (cfg : BssCfg) (s : ApState) : Prop where
  nodup : (s.stas.map BssSta.mac).Nodup
  latches : ∀ sta ∈ s.stas, sta.set = calls cfg sta.cap
  counters : ∀ c, s.num c = tally cfg s.stas c
  ready : ElementsReady cfg s.bss
  air : s.bss.onAir = s.bss.ies
  erp : ∀ erp ∈ s.bss.ies.erp, ErpShows s.num erp

end ApState

namespace Settled

variable {cfg : BssCfg} {l : Latches BssCond} {bss : Bss} {b : BssCond → Bool}
  {announce updated : Bool} {v : CapUpdate}

theorem erp_iff (h : Settled cfg l bss b announce updated v) (hothers : ∀ c, 0 ≤ l.others c)
    (hset : ∀ c, c.isHt = false → v.latches.set c = b c)
    (hshows : ∀ erp ∈ bss.ies.erp, ErpShows l.num erp) :
    (∀ erp ∈ v.bss.onAir.erp, ErpShows v.latches.num erp) ↔
      (bss.ies.erp.isSome = true → l.tips .noShortPreamble (b .noShortPreamble) = true →
        l.tips .nonErp (b .nonErp) = true) := by
  have hnon := Latches.tips_iff (hothers .nonErp) (congrFun h.others _)
  have hsp := Latches.tips_iff (hothers .noShortPreamble) (congrFun h.others _)
  rw [hset .nonErp rfl] at hnon
  rw [hset .noShortPreamble rfl] at hsp
  rw [h.erpOnAir, h.erp, Bss.withErp]
  cases htips : l.tips .nonErp (b .nonErp) with
  | true =>
    simp only [if_true, implies_true, iff_true]
    intro erp herp
    obtain ⟨old, _, rfl⟩ := Option.map_eq_some_iff.mp herp
    refine erpInfo_shows ?_ old
    have hzero : l.others .nonErp = 0 := by
      simp only [Latches.tips, Bool.and_eq_true, decide_eq_true_eq] at htips
      exact htips.1
    rw [Latches.num_eq, h.others, hzero, zero_add]
    exact_mod_cast Bool.toNat_le _
  | false =>
    rw [if_neg Bool.false_ne_true]
    have hsame : 0 < l.num .nonErp ↔ 0 < v.latches.num .nonErp := by
      by_contra hne
      exact absurd (htips.symm.trans (hnon.mpr hne)) Bool.false_ne_true
    constructor
    · intro hall hsome htip
      obtain ⟨erp, herp⟩ := Option.isSome_iff_exists.mp hsome
      have hold := (hshows erp herp).barker
      exact absurd (hold.symm.trans (hall erp herp).barker) (hsp.mp htip)
    · intro hkeep erp herp
      have hold := hshows erp herp
      have hbarker : 0 < l.num .noShortPreamble ↔ 0 < v.latches.num .noShortPreamble := by
        by_contra hne
        exact absurd (hkeep (by rw [herp]; rfl) (hsp.mpr hne)) Bool.false_ne_true
      exact ⟨hold.nonErp.trans hsame, hold.protection.trans hsame, hold.barker.trans hbarker⟩

theorem htOption_of_changes {num : BssCond → ℤ} {m : UInt16}
    (h : opModeChanges cfg num m = true) : cfg.htOption = true := by
  by_contra hopt
  simp [opModeChanges, rtwHtOperationUpdate, hopt] at h

theorem air_of_sent (h : Settled cfg l bss b announce updated v)
    (hair : bss.onAir = bss.ies)
    (hsent : cfg.htOption = true → bss.ies.htInfo.isSome = true →
      opModeChanges cfg v.latches.num bss.htOpMode = true → announce = true ∨ updated = true) :
    v.bss.onAir = v.bss.ies := by
  cases hch : opModeChanges cfg v.latches.num bss.htOpMode with
  | false => exact h.fresh (.inl hch)
  | true =>
    cases Decidable.em (announce = true ∨ updated = true) with
    | inl hup => exact h.fresh (.inr hup)
    | inr hup =>
      have hopt := htOption_of_changes hch
      have hnone : bss.ies.htInfo = none := by
        by_contra hne
        exact hup (hsent hopt (Option.isSome_iff_ne_none.mpr hne) hch)
      rw [not_or, Bool.not_eq_true, Bool.not_eq_true] at hup
      have hstale := h.stale hch hup.1 hup.2
      have hv : v.bss.ies.htInfo = none := by
        simpa [hnone] using h.htInfo
      have herp := h.erpOnAir
      have hht : v.bss.onAir.htInfo = v.bss.ies.htInfo := by
        rw [hstale, hair, hnone, hv]
      exact (BcnIes.mk.injEq .. ▸ ⟨herp, hht⟩ :
        BcnIes.mk v.bss.onAir.erp v.bss.onAir.htInfo = BcnIes.mk v.bss.ies.erp v.bss.ies.htInfo)

theorem opMode_iff (h : Settled cfg l bss b announce updated v) (hready : ElementsReady cfg bss)
    (hair : bss.onAir = bss.ies) :
    (cfg.htOption = true → ∀ e ∈ v.bss.onAir.htInfo,
      e.opMode = (rtwHtOperationUpdate cfg v.latches.num v.bss.htOpMode).htOpMode) ↔
      (cfg.htOption = true → bss.ies.htInfo.isSome = true →
        opModeChanges cfg v.latches.num bss.htOpMode = true → announce = true ∨ updated = true) := by
  constructor
  · intro hall hopt hsome hch
    have hspec := rtwHtOperationUpdate_spec (hready.isMode hopt) v.latches.num cfg
    by_contra hup
    rw [not_or, Bool.not_eq_true, Bool.not_eq_true] at hup
    obtain ⟨e, he⟩ := Option.isSome_iff_exists.mp hsome
    have hshown := hall hopt e (by rw [h.stale hch hup.1 hup.2, hair]; exact he)
    rw [hready.opMode hopt e he, h.mode, hspec.again] at hshown
    exact hspec.changes.mp (of_decide_eq_true hch) hshown.symm
  · intro hsent hopt e he
    have hspec := rtwHtOperationUpdate_spec (hready.isMode hopt) v.latches.num cfg
    rw [h.air_of_sent hair hsent] at he
    rw [h.ready.opMode hopt e he, h.mode, hspec.again]

end Settled

namespace ApState.Inv

variable {cfg : BssCfg} {s : ApState}

theorem tally_cons (sta : BssSta) (stas : List BssSta) (c : BssCond) :
    tally cfg (sta :: stas) c = tally cfg stas c + (calls cfg sta.cap c).toNat := by
  rw [tally, tally, List.countP_cons]
  cases calls cfg sta.cap c <;> simp

theorem mem_of_lookup {mac : MacAddr} {sta : BssSta} (h : sta ∈ s.lookup mac) :
    sta ∈ s.stas :=
  List.mem_of_find?_eq_some h

theorem set_eq (h : s.Inv cfg) (mac : MacAddr) (c : BssCond) :
    (s.latchesOf mac).set c = (s.lookup mac).any fun sta => calls cfg sta.cap c := by
  show (s.lookup mac).any (·.set c) = _
  cases hfind : s.lookup mac with
  | none => rfl
  | some sta => exact congrFun (h.latches sta (mem_of_lookup hfind)) c

theorem others_eq (h : s.Inv cfg) (mac : MacAddr) (c : BssCond) :
    (s.latchesOf mac).others c = tally cfg (s.without mac) c := by
  rw [Latches.others, h.set_eq]
  show s.num c - _ = _
  rw [h.counters, tally, Tally.countP_split h.nodup mac, tally]
  push_cast
  exact add_sub_cancel_right _ _

theorem others_nonneg (h : s.Inv cfg) (mac : MacAddr) (c : BssCond) :
    0 ≤ (s.latchesOf mac).others c := by
  rw [h.others_eq]
  exact Int.natCast_nonneg _

theorem tips_eq (h : s.Inv cfg) (mac : MacAddr) (b : BssCond → Bool) (c : BssCond) :
    (s.latchesOf mac).tips c (b c) = s.turns cfg mac b c := by
  rw [Latches.tips, turns, h.set_eq, h.others_eq, tally]
  congr 1
  rw [Bool.eq_iff_iff]
  simp [List.countP_eq_zero, List.all_eq_true]

theorem erpFollows_iff (h : s.Inv cfg) (mac : MacAddr) (b : BssCond → Bool) :
    (s.bss.ies.erp.isSome = true →
      (s.latchesOf mac).tips .noShortPreamble (b .noShortPreamble) = true →
        (s.latchesOf mac).tips .nonErp (b .nonErp) = true) ↔ s.ErpFollows cfg mac b := by
  rw [h.tips_eq, h.tips_eq]
  rfl

theorem join_spec (h : s.Inv cfg) (mac : MacAddr) (cap : StaCap) :
    Settled cfg (s.latchesOf mac) s.bss (calls cfg cap) true
        (updatedBy cfg (s.latchesOf mac) (calls cfg cap) false)
        (bssCapUpdateOnStaJoin cfg cap (s.latchesOf mac) s.bss) ∧
      (bssCapUpdateOnStaJoin cfg cap (s.latchesOf mac) s.bss).latches.set =
        setAfterJoin cfg cap (s.latchesOf mac).set := by
  refine bssCapUpdateOnStaJoin_spec h.ready h.air cap fun c hht hbss => ?_
  rw [h.set_eq]
  cases hfind : s.lookup mac with
  | none => rfl
  | some sta => cases c <;> simp_all [calls, BssCond.isHt]

theorem join_counters_iff (h : s.Inv cfg) (mac : MacAddr) (cap : StaCap) :
    (∀ c, (s.staJoin cfg mac cap).num c = tally cfg (s.staJoin cfg mac cap).stas c) ↔
      ∀ sta ∈ s.lookup mac, ∀ c, c.neverCleared = true → calls cfg sta.cap c = true →
        calls cfg cap c = true := by
  obtain ⟨hsettled, hset⟩ := h.join_spec mac cap
  have hnum : ∀ c, (s.staJoin cfg mac cap).num c = tally cfg (s.staJoin cfg mac cap).stas c ↔
      setAfterJoin cfg cap (s.latchesOf mac).set c = calls cfg cap c := fun c => by
    change (bssCapUpdateOnStaJoin cfg cap (s.latchesOf mac) s.bss).latches.num c =
      tally cfg (_ :: s.without mac) c ↔ _
    rw [Latches.num_eq, hsettled.others, h.others_eq, tally_cons, hset, add_right_inj,
      Latches.bit_inj]
  rw [forall_congr' hnum]
  simp only [setAfterJoin, h.set_eq]
  cases hfind : s.lookup mac with
  | none => simp
  | some sta =>
    simp only [Option.any_some, Option.mem_def, Option.some.injEq, forall_eq']
    refine forall_congr' fun c => ?_
    cases calls cfg cap c <;> cases c.neverCleared <;> cases calls cfg sta.cap c <;> decide

theorem join_iff (h : s.Inv cfg) (mac : MacAddr) (cap : StaCap) :
    s.StepConsistent cfg (.join mac cap) ↔ s.KeepsStep cfg (.join mac cap) := by
  obtain ⟨hsettled, hset⟩ := h.join_spec mac cap
  have herp := hsettled.erp_iff (h.others_nonneg mac) (fun c hc => by
    rw [hset]
    cases c <;> first | exact absurd hc (by decide) | exact Bool.or_false _) (by
    exact fun erp herp => h.erp erp herp)
  rw [h.erpFollows_iff mac (calls cfg cap)] at herp
  have hop := (hsettled.opMode_iff h.ready h.air).mpr fun _ _ _ => .inl rfl
  constructor
  · intro hstep
    have hcons := hstep trivial
    exact ⟨(h.join_counters_iff mac cap).mp hcons.counters, herp.mp hcons.erp⟩
  · rintro ⟨hcount, hfollow⟩ _
    exact ⟨(h.join_counters_iff mac cap).mpr hcount, herp.mpr hfollow, hop⟩

theorem join_inv (h : s.Inv cfg) (mac : MacAddr) (cap : StaCap)
    (hcons : Consistent cfg (s.staJoin cfg mac cap)) : (s.staJoin cfg mac cap).Inv cfg := by
  obtain ⟨hsettled, hset⟩ := h.join_spec mac cap
  have hair : (s.staJoin cfg mac cap).bss.onAir = (s.staJoin cfg mac cap).bss.ies :=
    hsettled.air_of_sent h.air fun _ _ _ => .inl rfl
  refine ⟨Tally.nodup_cons_without h.nodup rfl, ?_, hcons.counters, hsettled.ready, hair, ?_⟩
  · refine List.forall_mem_cons.mpr ⟨?_, fun sta hsta => h.latches sta (List.mem_filter.mp hsta).1⟩
    funext c
    have hc := hcons.counters c
    change (bssCapUpdateOnStaJoin cfg cap (s.latchesOf mac) s.bss).latches.num c =
      tally cfg (_ :: s.without mac) c at hc
    rw [Latches.num_eq, hsettled.others, h.others_eq, tally_cons, add_right_inj] at hc
    exact Latches.bit_inj.mp hc
  · exact hair ▸ hcons.erp

theorem leave_spec (h : s.Inv cfg) (mac : MacAddr) (timSet : Bool) :
    Settled cfg (s.latchesOf mac) s.bss (fun _ => false) false
        (updatedBy cfg (s.latchesOf mac) (fun _ => false) timSet)
        (bssCapUpdateOnStaLeave cfg timSet (s.latchesOf mac) s.bss) ∧
      ∀ c, (bssCapUpdateOnStaLeave cfg timSet (s.latchesOf mac) s.bss).latches.set c = false :=
  bssCapUpdateOnStaLeave_spec h.ready h.air timSet (h.others_nonneg mac _)

theorem leave_num (h : s.Inv cfg) (mac : MacAddr) (timSet : Bool) :
    (bssCapUpdateOnStaLeave cfg timSet (s.latchesOf mac) s.bss).latches.num =
      tally cfg (s.without mac) := by
  obtain ⟨hsettled, hset⟩ := h.leave_spec mac timSet
  funext c
  rw [Latches.num_eq, hsettled.others, h.others_eq, hset]
  simp

theorem htSent_iff (h : s.Inv cfg) (mac : MacAddr) (timSet : Bool) :
    (cfg.htOption = true → s.bss.ies.htInfo.isSome = true →
      opModeChanges cfg (tally cfg (s.without mac)) s.bss.htOpMode = true →
        false = true ∨ updatedBy cfg (s.latchesOf mac) (fun _ => false) timSet = true) ↔
      s.HtSent cfg mac timSet := by
  have htips := h.tips_eq mac fun _ => false
  rw [HtSent, updatedBy]
  simp only [htips, Bool.false_eq_true, false_or, Bool.or_eq_true, Bool.and_eq_true, or_assoc]

theorem leave_iff (h : s.Inv cfg) (mac : MacAddr) (timSet : Bool) :
    s.StepConsistent cfg (.leave mac timSet) ↔ s.KeepsStep cfg (.leave mac timSet) := by
  obtain ⟨hsettled, hset⟩ := h.leave_spec mac timSet
  have herp := hsettled.erp_iff (h.others_nonneg mac) (fun c _ => hset c) h.erp
  rw [h.erpFollows_iff mac fun _ => false] at herp
  have hop := hsettled.opMode_iff h.ready h.air
  have hsent := h.htSent_iff mac timSet
  rw [h.leave_num] at hop
  refine imp_congr_right fun hknown => ?_
  have hstep : s.step cfg (.leave mac timSet) =
      ⟨(bssCapUpdateOnStaLeave cfg timSet (s.latchesOf mac) s.bss).latches.num,
        (bssCapUpdateOnStaLeave cfg timSet (s.latchesOf mac) s.bss).bss, s.without mac⟩ :=
    if_pos hknown
  rw [hstep]
  constructor
  · intro hcons
    have hmode := hcons.opMode
    rw [h.leave_num] at hmode
    exact ⟨herp.mp hcons.erp, hsent.mp (hop.mp hmode)⟩
  · rintro ⟨hfollow, hair⟩
    refine ⟨fun c => congrFun (h.leave_num mac timSet) c, herp.mpr hfollow, ?_⟩
    rw [h.leave_num]
    exact hop.mpr (hsent.mpr hair)

theorem leave_inv (h : s.Inv cfg) (mac : MacAddr) (timSet : Bool)
    (hkeeps : s.KeepsStep cfg (.leave mac timSet)) : (s.staLeave cfg mac timSet).Inv cfg := by
  unfold staLeave
  split
  · next hknown =>
    have hcons := (h.leave_iff mac timSet).mpr hkeeps hknown
    have hstep : s.step cfg (.leave mac timSet) =
        ⟨(bssCapUpdateOnStaLeave cfg timSet (s.latchesOf mac) s.bss).latches.num,
          (bssCapUpdateOnStaLeave cfg timSet (s.latchesOf mac) s.bss).bss, s.without mac⟩ :=
      if_pos hknown
    rw [hstep] at hcons
    obtain ⟨hsettled, -⟩ := h.leave_spec mac timSet
    have hair := hsettled.air_of_sent h.air (by
      rw [h.leave_num]
      exact (h.htSent_iff mac timSet).mpr (hkeeps hknown).2)
    refine ⟨h.nodup.sublist (List.filter_sublist.map _),
      fun sta hsta => h.latches sta (List.mem_filter.mp hsta).1, hcons.counters,
      hsettled.ready, hair, ?_⟩
    exact hair ▸ hcons.erp
  · exact h

theorem step_iff (h : s.Inv cfg) (e : ApEvent) : s.StepConsistent cfg e ↔ s.KeepsStep cfg e := by
  cases e with
  | join mac cap => exact h.join_iff mac cap
  | leave mac timSet => exact h.leave_iff mac timSet

theorem step_inv (h : s.Inv cfg) (e : ApEvent) (hok : s.StepConsistent cfg e) :
    (s.step cfg e).Inv cfg := by
  cases e with
  | join mac cap => exact h.join_inv mac cap (hok trivial)
  | leave mac timSet => exact h.leave_inv mac timSet ((h.leave_iff mac timSet).mp hok)

theorem of_started (h : Started cfg s) : s.Inv cfg := by
  refine ⟨by simp [h.empty], by simp [h.empty], fun c => ?_, h.ready, h.air, h.erp⟩
  rw [h.zero, h.empty]
  rfl

end ApState.Inv

theorem beacon_law {cfg : BssCfg} {s : ApState} (h : Started cfg s) (es : List ApEvent) :
    Run.Each (ApState.step cfg) (ApState.StepConsistent cfg) s es ↔
      Run.Each (ApState.step cfg) (ApState.KeepsStep cfg) s es :=
  Run.each_iff (ApState.step cfg) (ApState.StepConsistent cfg) (ApState.KeepsStep cfg)
    (ApState.Inv cfg) (fun _ e hs => hs.step_iff e) (fun _ e hs hok => hs.step_inv e hok)
    (ApState.Inv.of_started h) es

def bgnCfg : BssCfg where
  bstartBss := true
  curWirelessMode := 0x0b
  curChannel := 6
  curBwmode := 0
  curChOffset := 0
  registryHtEnable := true
  registryWirelessMode := 0x0b
  htOption := true
  htCapInfo := htCapSupWidth
  htInfoEnable := true
  erpEnable := true
  olbc := false
  olbcHt := false
  ht20mhzWidthReq := false
  htIntolerantChReported := false
  supported _ := by decide

def idleAp : ApState :=
  ⟨fun _ => 0, ⟨0, false, ⟨some 0, some ⟨0, 0⟩⟩, ⟨some 0, some ⟨0, 0⟩⟩⟩, []⟩

def shortHtCap (htCapInfo : UInt16) : StaCap :=
  ⟨wlanStaShortPreamble ||| wlanStaHt, wlanCapabilityShortSlot, htCapInfo⟩

theorem idleAp_started : Started bgnCfg idleAp := by
  refine ⟨rfl, fun _ => rfl, ⟨rfl, fun _ => rfl, fun _ _ => rfl, fun _ => ⟨0, false, false, rfl⟩,
    fun _ h hh => ?_⟩, rfl, fun erp herp => ?_⟩
  · cases hh
    rfl
  · cases herp
    exact ⟨by decide, by decide, by decide⟩

theorem beacon_law_visit :
    Run.Each (ApState.step bgnCfg) (ApState.StepConsistent bgnCfg) idleAp
      [.join (Vector.replicate 6 2) (shortHtCap htCapSupWidth), .leave (Vector.replicate 6 2) true] := by
  refine (beacon_law idleAp_started _).mpr ⟨⟨?_, ?_⟩, fun _ => ⟨?_, fun _ _ _ => .inl rfl⟩, trivial⟩
  · intro sta hsta
    exact absurd hsta (by simp [ApState.lookup, idleAp])
  · intro _ hturn
    exact absurd hturn (by decide)
  · intro _ hturn
    exact absurd hturn (by decide)

theorem rejoin_keeps_old_count :
    ¬Run.Each (ApState.step bgnCfg) (ApState.StepConsistent bgnCfg) idleAp
      [.join (Vector.replicate 6 2) (shortHtCap htCapSupWidth),
        .join (Vector.replicate 6 2) (shortHtCap (htCapSupWidth ||| htCapGrnFld))] := by
  rintro ⟨-, hsecond, -⟩
  have hcount := (hsecond trivial).counters .htNoGf
  exact absurd hcount (by decide)

end Ap
