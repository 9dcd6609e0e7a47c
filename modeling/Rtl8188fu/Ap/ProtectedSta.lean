import Rtl8188fu.Ap.StaLists

namespace Ap

open Ie
open Recv (MacAddr)

structure Capabilities where
  flags : StaFlags
  negotiated : Negotiated
  deriving DecidableEq

def StaInfo.capabilities (sta : StaInfo) : Capabilities := ⟨sta.flags, sta.negotiated⟩

structure Restates (cfg : ApCfg) (f : RxFrame) (sta : StaInfo) : Prop where
  carried : sta.carried.after cfg f = sta.carried
  fresh : { freshOf cfg f with
    htOption := sta.htOption
    qosOption := (wmmOf cfg f).isSome } = sta.fresh
  maybeWps : maybeWpsOf cfg f = sta.flags.maybeWps
  vht : sta.flags.vht = false
  multiAp : sta.flags.multiAp = false

theorem beginAssoc_capabilities (sta : StaInfo) :
    (beginAssoc sta).capabilities = sta.capabilities := by
  unfold beginAssoc
  split <;> rfl

theorem authVerdict_kept (cfg : ApCfg) (wep : Wep) (f : RxFrame) (sta : StaInfo) :
    (authVerdict cfg wep f sta).1.capabilities = sta.capabilities ∧
      (authVerdict cfg wep f sta).1.bpairwiseKeyInstalled = sta.bpairwiseKeyInstalled := by
  unfold authVerdict openSuccess issueChallenge challengeSuccess
  simp only
  split_ifs <;> exact ⟨rfl, rfl⟩

theorem authVerdict_protected (cfg : ApCfg) (wep : Wep) (f : RxFrame) {sta : StaInfo}
    (h : unprotected sta = false) : (authVerdict cfg wep f sta).1.state = sta.state := by
  have hopen : ∀ algorithm, (openSuccess cfg algorithm sta).state = sta.state := by
    simp [openSuccess, h]
  have hissue : ∀ algorithm, (issueChallenge algorithm sta).state = sta.state := by
    intro algorithm
    have hsame : unprotected { sta with chgTxt := List.replicate 128 78 } = false := h
    simp only [issueChallenge, hsame, Bool.false_eq_true, if_false]
  have hchallenge : (challengeSuccess cfg sta).state = sta.state := by
    simp [challengeSuccess, h]
  unfold authVerdict
  simp only
  split_ifs <;> simp only [hopen, hissue, hchallenge]

theorem capabilities_iff (a b : StaInfo) :
    a.capabilities = b.capabilities ↔ a.carried = b.carried ∧ a.fresh = b.fresh ∧
      a.flags.maybeWps = b.flags.maybeWps ∧ a.flags.vht = b.flags.vht ∧
      a.flags.multiAp = b.flags.multiAp := by
  constructor
  · intro h
    have hflags := congrArg Capabilities.flags h
    have hnegotiated := congrArg Capabilities.negotiated h
    exact ⟨congrArg Negotiated.carried hnegotiated, congrArg Negotiated.fresh hnegotiated,
      congrArg StaFlags.maybeWps hflags, congrArg StaFlags.vht hflags,
      congrArg StaFlags.multiAp hflags⟩
  · rintro ⟨hcarried, hfresh, hmaybe, hvht, hmulti⟩
    have hflags : a.flags = b.flags := StaFlags.ext (congrArg Fresh.shortPreamble hfresh)
      (congrArg Fresh.wme hfresh) (congrArg Carried.mfp hcarried) (congrArg Fresh.ht hfresh)
      (congrArg Fresh.wps hfresh) hmaybe hvht (congrArg Carried.wds hcarried) hmulti
      (congrArg Carried.amsduDisable hcarried) (congrArg Fresh.nonerp hfresh)
    unfold StaInfo.capabilities StaInfo.negotiated
    rw [hflags, hcarried, hfresh]

theorem assocChecks_capabilities {cfg : ApCfg} {env : AssocEnv} {f : RxFrame} {sta : StaInfo}
    (h : (assocChecks cfg env f (beginAssoc sta)).2 = statsSuccessful) :
    (assocChecks cfg env f (beginAssoc sta)).1.capabilities = sta.capabilities ↔
      Restates cfg f sta := by
  obtain ⟨alg, psk, ie, heq⟩ := assocChecks_success h
  have hcarried : (beginAssoc sta).carried = sta.carried :=
    congrArg (fun c => c.negotiated.carried) (beginAssoc_capabilities sta)
  have hoption : (beginAssoc sta).htOption = sta.htOption :=
    congrArg (fun c => c.negotiated.fresh.htOption) (beginAssoc_capabilities sta)
  have hwds : (beginAssoc sta).flags.wds = sta.flags.wds :=
    congrArg (fun c => c.flags.wds) (beginAssoc_capabilities sta)
  rw [hcarried] at heq
  rw [heq, capabilities_iff]
  simp only [StaInfo.carried, StaInfo.fresh, hoption, hwds]
  constructor
  · rintro ⟨hcarried, hfresh, hmaybe, hvht, hmulti⟩
    exact ⟨hcarried, hfresh, hmaybe, hvht.symm, hmulti.symm⟩
  · rintro ⟨hcarried, hfresh, hmaybe, hvht, hmulti⟩
    exact ⟨hcarried, hfresh, hmaybe, hvht.symm, hmulti.symm⟩

namespace StaPriv

structure Immune (addr : MacAddr) (p : StaId) (c : Capabilities) (s : StaPriv) : Prop where
  found : s.table.rtwGetStainfo addr = some p
  listed : p ∈ s.asocList
  associated : (s.sta p).state.assocSuccess = true
  key : (s.sta p).bpairwiseKeyInstalled = true
  capabilities : (s.sta p).capabilities = c

def Spares (cfg : ApCfg) (p : StaId) (s : StaPriv) : MlmeFrame → Prop
  | .auth wep env f => AuthHeard cfg wep env s f →
      AuthDelegated cfg wep env f ∨ AuthAccepted cfg wep f (s.sta p)
  | .assocReq env f => AssocHeard s f p →
      AssocGranted cfg env s f p ∧ Restates cfg f (s.sta p)

def Refusals : MlmeFrame → List Answer → Prop
  | .auth _ _ _, answers => ∀ a ∈ answers, a = .userSpace ∨ ∃ status, a = .auth status
  | .assocReq env _, answers => answers = [] ∨ ∃ aid, answers =
      [.asocRsp (if env.mboAssocDisallow then statsUnableHandleSta else statsRefusedTemporarily)
        aid, .saQuery]

theorem onAuth_answers (cfg : ApCfg) (wep : Wep) (env : AuthEnv) (s : StaPriv) (f : RxFrame) :
    Refusals (.auth wep env f) (s.onAuth cfg wep env f).2 := by
  have hauth : ∀ status, Refusals (.auth wep env f) [.auth status] := fun status a ha =>
    .inr ⟨status, List.mem_singleton.mp ha⟩
  have hnone : Refusals (.auth wep env f) [] := fun a ha => nomatch ha
  unfold onAuth
  simp only
  split
  · exact hnone
  split
  · exact hnone
  split
  · exact hnone
  split
  · exact hauth _
  split
  · exact hauth _
  split
  · exact hauth _
  split
  · exact hauth _
  cases s.admitSta f.addr2 with
  | mk s' o =>
    cases o with
    | none => exact hauth _
    | some p =>
      obtain ⟨t, ⟨-, heq⟩ | ⟨-, -, heq⟩ | ⟨-, -, status, heq⟩⟩ :=
        s'.authSta_cases cfg wep env f p
      · simp only [heq]
        exact fun a ha => .inl (List.mem_singleton.mp ha)
      · simp only [heq]
        exact hauth _
      · simp only [heq]
        exact hauth _

theorem authSta_protected (cfg : ApCfg) (wep : Wep) (env : AuthEnv) {s : StaPriv} (f : RxFrame)
    {p : StaId} (h : unprotected (s.sta p) = false) :
    (AuthDelegated cfg wep env f ∨ AuthAccepted cfg wep f (s.sta p) → ∃ x : StaInfo,
      x.state = (s.sta p).state ∧ x.bpairwiseKeyInstalled = (s.sta p).bpairwiseKeyInstalled ∧
      x.capabilities = (s.sta p).capabilities ∧
      (s.authSta cfg wep env f p).1 = s.setSta p x) ∧
    (¬ (AuthDelegated cfg wep env f ∨ AuthAccepted cfg wep f (s.sta p)) → ∃ x,
      (s.authSta cfg wep env f p).1 = (s.setSta p x).rtwFreeStainfo p) := by
  obtain ⟨t, hcases⟩ := s.authSta_cases cfg wep env f p
  simp only [h, Bool.false_eq_true, if_false] at hcases
  rcases hcases with ⟨hdelegated, heq⟩ | ⟨-, haccepted, heq⟩ | ⟨hdelegated, haccepted, status,
    heq⟩
  · rw [heq]
    refine ⟨fun _ => ⟨_, ?_, ?_, ?_, rfl⟩, fun hno => absurd (.inl hdelegated) hno⟩ <;> rfl
  · rw [heq]
    refine ⟨fun _ => ⟨_, ?_, ?_, ?_, rfl⟩, fun hno => absurd (.inr haccepted) hno⟩
    · exact @authVerdict_protected cfg wep f { s.sta p with expireTo := t } h
    · exact (authVerdict_kept cfg wep f { s.sta p with expireTo := t }).2
    · exact (authVerdict_kept cfg wep f { s.sta p with expireTo := t }).1
  · rw [heq]
    exact ⟨fun hyes => absurd hyes (not_or.mpr ⟨hdelegated, haccepted⟩), fun _ => ⟨_, rfl⟩⟩

theorem enterBss_protected (cfg : ApCfg) (env : AssocEnv) {s : StaPriv} {p : StaId}
    (h : unprotected (s.sta p) = false) :
    s.enterBss cfg env p = (s.setSta p (finishAssoc (s.sta p)),
      [.asocRsp (if env.mboAssocDisallow then statsUnableHandleSta else statsRefusedTemporarily)
        (s.aid.aid p), .saQuery]) := by
  have hfinish : unprotected (finishAssoc (s.sta p)) = false := h
  unfold enterBss
  simp only [setSta_sta, Function.update_self, hfinish]
  rfl

namespace Immune

variable {addr : MacAddr} {p : StaId} {c : Capabilities} {s : StaPriv}

theorem protectedSta (h : Immune addr p c s) (hmfp : c.flags.mfp = true) :
    unprotected (s.sta p) = false := by
  have hflag : (s.sta p).flags.mfp = true :=
    (congrArg (fun c => c.flags.mfp) h.capabilities).trans hmfp
  simp [unprotected, h.key, hflag]

theorem setSta (h : Immune addr p c s) {sta : StaInfo} (hassoc : sta.state.assocSuccess = true)
    (hkey : sta.bpairwiseKeyInstalled = true) (hcaps : sta.capabilities = c) :
    Immune addr p c (s.setSta p sta) :=
  ⟨h.found, h.listed, by simpa using hassoc, by simpa using hkey, by simpa using hcaps⟩

theorem onAuth_eq (h : Immune addr p c s) (hmfp : c.flags.mfp = true) {cfg : ApCfg} {wep : Wep}
    {env : AuthEnv} {f : RxFrame} (haddr : f.addr2 = addr) (hheard : AuthHeard cfg wep env s f) :
    s.onAuth cfg wep env f = s.authSta cfg wep env f p := by
  rcases s.onAuth_cases cfg wep env f with ⟨-, heq⟩ | ⟨hno, -⟩
  · rw [heq, haddr]
    simp only [admitSta, h.found, h.protectedSta hmfp]
    rfl
  · exact absurd hheard hno

theorem onAuth_kept (h : Immune addr p c s) (hmfp : c.flags.mfp = true) {cfg : ApCfg} {wep : Wep}
    {env : AuthEnv} {f : RxFrame} (haddr : f.addr2 = addr)
    (hspares : Spares cfg p s (.auth wep env f)) :
    Immune addr p c (s.onAuth cfg wep env f).1 := by
  rcases s.onAuth_cases cfg wep env f with ⟨hheard, -⟩ | ⟨hno, heq⟩
  · rw [h.onAuth_eq hmfp haddr hheard]
    obtain ⟨x, hstate, hkey, hcaps, heq⟩ :=
      (authSta_protected cfg wep env f (h.protectedSta hmfp)).1 (hspares hheard)
    rw [heq]
    exact h.setSta (by rw [hstate, h.associated]) (hkey.trans h.key) (hcaps.trans h.capabilities)
  · rw [heq]
    exact h

theorem assocHeard_eq (h : Immune addr p c s) {f : RxFrame} (haddr : f.addr2 = addr) {q : StaId}
    (hheard : AssocHeard s f q) : q = p := by
  have hfound := hheard.found
  rw [haddr, h.found] at hfound
  exact (Option.some.inj hfound).symm

theorem onAssocReq_cases (h : Immune addr p c s) {f : RxFrame} (haddr : f.addr2 = addr)
    (cfg : ApCfg) (env : AssocEnv) :
    (AssocHeard s f p ∧ s.onAssocReq cfg env f = s.assocSta cfg env f p) ∨
      (¬ AssocHeard s f p ∧ s.onAssocReq cfg env f = (s, [])) := by
  rcases s.onAssocReq_cases cfg env f with ⟨q, hheard, heq⟩ | ⟨hheard, heq | heq⟩
  · obtain rfl := h.assocHeard_eq haddr hheard
    exact .inl ⟨hheard, heq⟩
  · exact .inr ⟨hheard p, heq⟩
  · exfalso
    unfold onAssocReq at heq
    rw [haddr, h.found] at heq
    simp only [h.associated, Bool.true_eq_false, and_false, if_false] at heq
    split at heq
    · cases heq
    split at heq
    · cases heq
    split at heq
    · cases heq
    split at heq
    · cases heq
    · next hap hmac hlen hwait =>
      refine hheard p ⟨by simpa using hap, by simpa [haddr] using hmac, not_lt.mp hlen,
        haddr.symm ▸ h.found, fun hsae => ?_, .inr h.associated⟩
      simpa [hsae] using hwait

theorem assocSta_eq (h : Immune addr p c s) (hmfp : c.flags.mfp = true) {cfg : ApCfg}
    {env : AssocEnv} {f : RxFrame} (hgranted : AssocGranted cfg env s f p) :
    ∃ aid n, s.assocSta cfg env f p =
      ({ s.setSta p (finishAssoc (assocChecks cfg env f (beginAssoc (s.sta p))).1) with aid := aid },
        [.asocRsp (if env.mboAssocDisallow then statsUnableHandleSta else statsRefusedTemporarily)
          n, .saQuery]) := by
  rcases s.assocSta_cases cfg env f p with ⟨-, hsta⟩ | ⟨hno, -⟩
  · have hflag : (s.sta p).flags.mfp = true :=
      (congrArg (fun c => c.flags.mfp) h.capabilities).trans hmfp
    have hprotected : unprotected (((s.setSta p
        (assocChecks cfg env f (beginAssoc (s.sta p))).1).assignAid p).1.sta p) = false := by
      simp only [assignAid_sta, setSta_sta, Function.update_self]
      refine Bool.eq_false_iff.mpr fun hun => ?_
      exact (assocChecks_unprotected hgranted.checks).mp hun ⟨h.key, by rw [hflag, Bool.true_or]⟩
    rw [hsta, enterBss_protected cfg env hprotected]
    simp only [assignAid_sta, setSta_sta, Function.update_self]
    refine ⟨(s.aid.assignAid p).1, (s.aid.assignAid p).1.aid p, ?_⟩
    simp only [assignAid, StaPriv.setSta, Function.update_idem]
  · exact absurd hgranted hno

theorem onAssocReq_kept (h : Immune addr p c s) (hmfp : c.flags.mfp = true) {cfg : ApCfg}
    {env : AssocEnv} {f : RxFrame} (haddr : f.addr2 = addr)
    (hspares : Spares cfg p s (.assocReq env f)) :
    Immune addr p c (s.onAssocReq cfg env f).1 ∧
      Refusals (.assocReq env f) (s.onAssocReq cfg env f).2 := by
  rcases h.onAssocReq_cases haddr cfg env with ⟨hheard, heq⟩ | ⟨-, heq⟩
  · obtain ⟨hgranted, hrestates⟩ := hspares hheard
    obtain ⟨aid, n, hsta⟩ := h.assocSta_eq hmfp hgranted
    have hcaps := (assocChecks_capabilities hgranted.checks).mpr hrestates
    have hkey : (assocChecks cfg env f (beginAssoc (s.sta p))).1.bpairwiseKeyInstalled = true :=
      (assocChecks_key cfg env f (s.sta p)).trans h.key
    rw [heq, hsta]
    refine ⟨⟨h.found, h.listed, ?_, ?_, ?_⟩, .inr ⟨n, rfl⟩⟩
    · simp [finishAssoc]
    · simpa [finishAssoc] using hkey
    · simp only [setSta_sta, Function.update_self]
      exact hcaps.trans h.capabilities
  · rw [heq]
    exact ⟨h, .inl rfl⟩

end Immune

structure Settled (addr : MacAddr) (p : StaId) (c : Capabilities) (s : StaPriv) : Prop where
  immune : Immune addr p c s
  joined : (s.sta p).state.authSuccess = false
  tracked : ∃ live, Tracks s.table live

namespace Settled

variable {addr : MacAddr} {p : StaId} {c : Capabilities} {s : StaPriv}

theorem freed (h : Settled addr p c s) {r : StaPriv}
    (hr : r.table = s.table.rtwFreeStainfo p) : ¬ Immune addr p c r := by
  intro himmune
  obtain ⟨live, htracks⟩ := h.tracked
  have hlive := (htracks.lookup addr p).mp h.immune.found
  have hfound := himmune.found
  rw [hr] at hfound
  have hgone := ((htracks.free hlive).lookup addr p).mp hfound
  simp at hgone

theorem onAuth_iff (h : Settled addr p c s) (hmfp : c.flags.mfp = true) {cfg : ApCfg}
    {wep : Wep} {env : AuthEnv} {f : RxFrame} (haddr : f.addr2 = addr) :
    (Immune addr p c (s.onAuth cfg wep env f).1 ↔ Spares cfg p s (.auth wep env f)) ∧
      (Immune addr p c (s.onAuth cfg wep env f).1 → Settled addr p c (s.onAuth cfg wep env f).1) := by
  rcases s.onAuth_cases cfg wep env f with ⟨hheard, -⟩ | ⟨hno, heq⟩
  · obtain ⟨hkept, hfreed⟩ := authSta_protected cfg wep env f (h.immune.protectedSta hmfp)
    cases Decidable.em (AuthDelegated cfg wep env f ∨ AuthAccepted cfg wep f (s.sta p)) with
    | inl hspares =>
      have himmune := @StaPriv.Immune.onAuth_kept _ _ _ _ h.immune hmfp cfg wep env _ haddr
        fun _ => hspares
      refine ⟨iff_of_true himmune fun _ => hspares, fun _ => ?_⟩
      obtain ⟨x, hstate, -, -, heq⟩ := hkept hspares
      rw [h.immune.onAuth_eq hmfp haddr hheard, heq] at himmune ⊢
      refine ⟨himmune, ?_, h.tracked⟩
      simp only [setSta_sta, Function.update_self]
      rw [hstate, h.joined]
    | inr hspares =>
      have hgone : ¬ Immune addr p c (s.onAuth cfg wep env f).1 := by
        obtain ⟨x, heq⟩ := hfreed hspares
        rw [h.immune.onAuth_eq hmfp haddr hheard, heq]
        exact h.freed (rtwFreeStainfo_table (s.setSta p x) p)
      exact ⟨iff_of_false hgone fun hall => hspares (hall hheard), fun hyes => absurd hyes hgone⟩
  · rw [heq]
    exact ⟨iff_of_true h.immune fun hyes => absurd hyes hno, fun _ => h⟩

theorem onAssocReq_iff (h : Settled addr p c s) (hmfp : c.flags.mfp = true) {cfg : ApCfg}
    {env : AssocEnv} {f : RxFrame} (haddr : f.addr2 = addr) :
    (Immune addr p c (s.onAssocReq cfg env f).1 ↔ Spares cfg p s (.assocReq env f)) ∧
      (Immune addr p c (s.onAssocReq cfg env f).1 →
        Settled addr p c (s.onAssocReq cfg env f).1) := by
  have hlost : (beginAssoc (s.sta p)).state.assocSuccess = false ∧
      (beginAssoc (s.sta p)).state.authSuccess = false := by
    simp [beginAssoc, h.joined]
  rcases h.immune.onAssocReq_cases haddr cfg env with ⟨hheard, heq⟩ | ⟨hno, heq⟩
  · rw [heq]
    rcases s.assocSta_cases cfg env f p with
      ⟨hgranted, hsta⟩ | ⟨hgranted, aid, sta, answers, hstate, -, hsta⟩
    · have hjoined : (assocChecks cfg env f
          (beginAssoc (s.sta p))).1.state.authSuccess = false := by
        rw [assocChecks_state, hlost.2]
      obtain ⟨aid, n, hsta⟩ := h.immune.assocSta_eq hmfp hgranted
      have hrestated : Immune addr p c (s.assocSta cfg env f p).1 ↔ Restates cfg f (s.sta p) := by
        rw [← assocChecks_capabilities hgranted.checks]
        constructor
        · intro himmune
          have hcaps := himmune.capabilities
          rw [hsta] at hcaps
          simp only [setSta_sta, Function.update_self] at hcaps
          exact hcaps.trans h.immune.capabilities.symm
        · intro hcaps
          have hspares : Spares cfg p s (.assocReq env f) := fun _ =>
            ⟨hgranted, (assocChecks_capabilities hgranted.checks).mp hcaps⟩
          exact heq ▸ (h.immune.onAssocReq_kept hmfp haddr hspares).1
      refine ⟨hrestated.trans ?_, fun himmune => ⟨himmune, ?_, ?_⟩⟩
      · exact ⟨fun hyes _ => ⟨hgranted, hyes⟩, fun hall => (hall hheard).2⟩
      · rw [hsta]
        simpa [finishAssoc] using hjoined
      · rw [hsta]
        exact h.tracked
    · rw [hsta]
      have hgone : ¬ Immune addr p c { s.setSta p sta with aid := aid } := by
        intro himmune
        have hassoc := himmune.associated
        simp only [setSta_sta, Function.update_self] at hassoc
        rcases hstate with rfl | rfl
        · rw [hlost.1] at hassoc
          cases hassoc
        · rw [assocChecks_state, hlost.1] at hassoc
          cases hassoc
      exact ⟨iff_of_false hgone fun hall => hgranted (hall hheard).1,
        fun hyes => absurd hyes hgone⟩
  · rw [heq]
    exact ⟨iff_of_true h.immune fun hyes => absurd hyes hno, fun _ => h⟩

end Settled

theorem immunity_exact (cfg : ApCfg) (addr : MacAddr) (p : StaId) (c : Capabilities)
    (hmfp : c.flags.mfp = true) {s : StaPriv} (h : Settled addr p c s) {es : List MlmeFrame}
    (haddr : ∀ e ∈ es, e.frame.addr2 = addr) :
    Run.Each (received cfg) (fun s e => Immune addr p c (s.received cfg e)) s es ↔
      Run.Each (received cfg) (Spares cfg p) s es := by
  induction es generalizing s with
  | nil => simp
  | cons e es ih =>
    have hstep : (Immune addr p c (s.received cfg e) ↔ Spares cfg p s e) ∧
        (Immune addr p c (s.received cfg e) → Settled addr p c (s.received cfg e)) := by
      cases e with
      | auth wep env f => exact h.onAuth_iff hmfp (haddr _ (List.mem_cons_self ..))
      | assocReq env f => exact h.onAssocReq_iff hmfp (haddr _ (List.mem_cons_self ..))
    have hrest : ∀ e ∈ es, e.frame.addr2 = addr := fun e he =>
      haddr e (List.mem_cons_of_mem _ he)
    rw [Run.each_cons, Run.each_cons, ← hstep.1]
    exact and_congr_right fun himmune => ih (hstep.2 himmune) hrest

theorem immunity (cfg : ApCfg) (addr : MacAddr) (p : StaId) (c : Capabilities)
    (hmfp : c.flags.mfp = true) {s : StaPriv} (h : Immune addr p c s) {es : List MlmeFrame}
    (haddr : ∀ e ∈ es, e.frame.addr2 = addr)
    (hspares : Run.Each (received cfg) (Spares cfg p) s es) :
    Run.Each (received cfg)
      (fun s e => Immune addr p c (s.received cfg e) ∧ Refusals e (s.receive cfg e).2) s es := by
  induction es generalizing s with
  | nil => trivial
  | cons e es ih =>
    have hstep : Immune addr p c (s.received cfg e) ∧ Refusals e (s.receive cfg e).2 := by
      cases e with
      | auth wep env f =>
        have hf : f.addr2 = addr := haddr _ (List.mem_cons_self ..)
        exact ⟨h.onAuth_kept hmfp hf hspares.1, onAuth_answers cfg wep env s f⟩
      | assocReq env f =>
        have hf : f.addr2 = addr := haddr _ (List.mem_cons_self ..)
        exact h.onAssocReq_kept hmfp hf hspares.1
    exact ⟨hstep, ih hstep.1 (fun e he => haddr e (List.mem_cons_of_mem _ he)) hspares.2⟩

def protectedCapabilities : Capabilities :=
  ((after associatedProtected).sta firstSta).capabilities

theorem associatedProtected_immune :
    Immune staAddr firstSta protectedCapabilities (after associatedProtected) := by
  obtain ⟨hfound, -, -, -, hlisted, hassociated, hkey, -, -⟩ := associatedProtected_sta
  exact ⟨hfound, hlisted, hassociated, hkey, rfl⟩

theorem associatedProtected_mfp : protectedCapabilities.flags.mfp = true :=
  associatedProtected_sta.2.2.2.2.2.2.2.2

theorem inSequence_accepted : AuthAccepted mfpCapableCfg openWep (authRequest 0 1)
    ((after associatedProtected).sta firstSta) := by
  have hseq := associatedProtected_sta.2.2.1
  unfold AuthAccepted
  rw [hseq]
  decide

theorem immunity_authenticatedAgain :
    Run.Each (received mfpCapableCfg)
      (fun s e => Immune staAddr firstSta protectedCapabilities (s.received mfpCapableCfg e) ∧
        Refusals e (s.receive mfpCapableCfg e).2)
      (after associatedProtected) [.auth openWep quietAuth (authRequest 0 1)] := by
  refine immunity mfpCapableCfg staAddr firstSta protectedCapabilities associatedProtected_mfp
    associatedProtected_immune ?_ ?_
  · intro e he
    rw [List.mem_singleton.mp he]
    exact authRequest_addr 0 1
  · exact ⟨fun _ => .inr inSequence_accepted, trivial⟩

theorem not_immune :
    ¬ Immune staAddr firstSta protectedCapabilities
        ((after associatedProtected).received mfpCapableCfg
          (.auth openWep quietAuth (authRequest 0 2))) ∧
      ((after associatedProtected).receive mfpCapableCfg
        (.auth openWep quietAuth (authRequest 0 1))).2 = [.auth statsSuccessful] := by
  have hsettled : Settled staAddr firstSta protectedCapabilities (after associatedProtected) :=
    ⟨associatedProtected_immune, associatedProtected_sta.2.2.2.2.2.2.2.1,
      associatedProtected_inv.tracked⟩
  constructor
  · intro himmune
    rw [received_auth] at himmune
    have hspares := (hsettled.onAuth_iff associatedProtected_mfp (authRequest_addr 0 2)).1.mp
      himmune
    exact outOfSequence_rejected (hspares (associatedProtected_heard (.inr rfl)))
  · have heq := associatedProtected_immune.onAuth_eq associatedProtected_mfp
      (authRequest_addr 0 1) (associatedProtected_heard (.inl rfl))
    obtain ⟨t, ⟨hdelegated, -⟩ | ⟨-, -, hsta⟩ | ⟨-, hrejected, -⟩⟩ :=
      (after associatedProtected).authSta_cases mfpCapableCfg openWep quietAuth (authRequest 0 1)
        firstSta
    · exact absurd hdelegated.1 (by decide)
    · rw [receive_auth, heq, hsta]
    · exact absurd inSequence_accepted hrejected

end StaPriv

end Ap
