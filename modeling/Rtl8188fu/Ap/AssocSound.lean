import Rtl8188fu.Ap.ProtectedSta

namespace Ap

open Ie
open Recv (MacAddr isMcast)

def issuedChallenge : List UInt8 := List.replicate 128 78

def ProperOpen (cfg : ApCfg) (wep : Wep) (f : RxFrame) : Prop :=
  cfg.dot11AuthAlgrthm ∈ [0, 2, 3] ∧ f.authAlgorithm wep = 0 ∧ f.authTransaction wep = 1

def WepVerified (wep : Wep) (f : RxFrame) : Prop :=
  f.privacy = true ∧ wep.icvCorrect f = true ∧ ∃ p, f.challenge wep = some p ∧
    f.plain wep (p + 1) = 128

def ProperShared (cfg : ApCfg) (wep : Wep) (f : RxFrame) : Prop :=
  cfg.dot11AuthAlgrthm ≠ 0 ∧ f.authTransaction wep = 3 ∧ f.privacy = true ∧
    wep.icvCorrect f = true ∧ ∃ p, f.challenge wep = some p ∧ f.plain wep (p + 1) = 128 ∧
      bytes (f.plain wep) (p + 2) 128 = issuedChallenge

def OffersCiphers (cfg : ApCfg) (f : RxFrame) : Prop :=
  (∃ ie w, (elemsOf f).rsnIe = some ie ∧
    rtwParseWpa2Ie f.data (ie.pos - 2) (ie.len + 2) = some w ∧
    w.groupCipher &&& cfg.wpa2GroupCipher ≠ 0 ∧
    w.pairwiseCipher &&& cfg.wpa2PairwiseCipher ≠ 0) ∨
  ∃ ie group pairwise, (elemsOf f).wpaIe = some ie ∧
    rtwParseWpaIe f.data (ie.pos - 2) (ie.len + 2) = some (group, pairwise) ∧
    group &&& cfg.wpaGroupCipher ≠ 0 ∧ pairwise &&& cfg.wpaPairwiseCipher ≠ 0

def RunsWps (cfg : ApCfg) : Prop := ∃ v, cfg.wpsBeaconIe = some v ∧ v ≠ 0

theorem memcmp_bytes (m : Mem) (pos : ℕ) (l : List UInt8) :
    memcmp m pos l = true ↔ bytes m pos l.length = l := by
  induction l generalizing pos with
  | nil => simp [memcmp, bytes]
  | cons b l ih => simp [memcmp, bytes, ih]

theorem openSystem_demanded {cfg : ApCfg} {algorithm : ℕ}
    (h : openSystem (authMode cfg algorithm) algorithm = true) :
    cfg.dot11AuthAlgrthm ∈ [0, 2, 3] ∧ algorithm = 0 := by
  simp only [openSystem, Bool.and_eq_true, Bool.or_eq_true, beq_iff_eq] at h
  obtain ⟨halg, hmode⟩ := h
  refine ⟨?_, halg⟩
  unfold authMode at hmode
  split at hmode
  · next h8021x => simp [h8021x.1]
  · simpa [or_assoc] using hmode

theorem sharedKey_demanded {cfg : ApCfg} {algorithm : ℕ}
    (hgood : badAlgorithm (authMode cfg algorithm) algorithm = false)
    (h : openSystem (authMode cfg algorithm) algorithm = false) : cfg.dot11AuthAlgrthm ≠ 0 := by
  intro hzero
  have hmode : authMode cfg algorithm = 0 := by simp [authMode, hzero]
  rw [hmode] at hgood h
  simp only [badAlgorithm, openSystem] at hgood h
  simp at hgood h
  exact h hgood

theorem authVerdict_cases (cfg : ApCfg) (wep : Wep) (f : RxFrame) {sta : StaInfo}
    (h : AuthAccepted cfg wep f sta) :
    (f.authTransaction wep = 1 ∧
      openSystem (authMode cfg (f.authAlgorithm wep)) (f.authAlgorithm wep) = true ∧
      (authVerdict cfg wep f sta).1 = openSuccess cfg (f.authAlgorithm wep) sta) ∨
    (f.authTransaction wep = 1 ∧
      (authVerdict cfg wep f sta).1 = issueChallenge (f.authAlgorithm wep) sta) ∨
    (f.authTransaction wep = 3 ∧ sta.authSeq = 2 ∧
      openSystem (authMode cfg (f.authAlgorithm wep)) (f.authAlgorithm wep) = false ∧
      challengeMatches (f.plain wep) (f.challenge wep) sta.chgTxt = true ∧
      (authVerdict cfg wep f sta).1 = challengeSuccess cfg sta) := by
  obtain ⟨hseq, hcase⟩ := h
  unfold authVerdict
  simp only [hseq, ne_eq, not_true, if_false]
  rcases hcase with hone | ⟨hthree, hclosed, hmatch⟩
  · cases hopen : openSystem (authMode cfg (f.authAlgorithm wep)) (f.authAlgorithm wep) with
    | true => exact .inl ⟨hone, rfl, by simp [hone]⟩
    | false => exact .inr (.inl ⟨hone, by simp [hone]⟩)
  · have hseq : sta.authSeq = 2 := by omega
    exact .inr (.inr ⟨hthree, hseq, hclosed, hmatch, by simp [hthree, hclosed, hmatch]⟩)

namespace StaPriv

structure Keyless (s : StaPriv) : Prop where
  lists : s.Lists
  tracked : ∃ live, Tracks s.table live
  nokey : ∀ p, (s.sta p).bpairwiseKeyInstalled = false
  outside : ∀ p, (s.sta p).state.authSuccess = true → p ∉ s.asocList
  issued : ∀ p, (s.sta p).authSeq = 2 → (s.sta p).chgTxt = issuedChallenge

def Welcome (p : StaId) (s : StaPriv) : Prop :=
  p ∈ s.table.allocated ∧
    ((s.sta p).state.authSuccess = true ∨ (s.sta p).state.assocSuccess = true)

theorem unprotected_keyless {sta : StaInfo} (h : sta.bpairwiseKeyInstalled = false) :
    unprotected sta = true := by
  unfold unprotected
  rw [h]
  cases sta.flags.mfp <;> rfl

theorem setSta_all {P : StaId → StaInfo → Prop} (s : StaPriv) {p : StaId} {sta : StaInfo}
    (hp : P p sta) (h : ∀ q, P q (s.sta q)) (q : StaId) : P q ((s.setSta p sta).sta q) := by
  cases Decidable.em (q = p) with
  | inl hq =>
    subst hq
    simpa using hp
  | inr hq => simpa [hq] using h q

theorem rtwFreeStainfo_kept (s : StaPriv) (p q : StaId) :
    ((s.rtwFreeStainfo p).sta q).bpairwiseKeyInstalled = (s.sta q).bpairwiseKeyInstalled ∧
      ((s.rtwFreeStainfo p).sta q).state.authSuccess = (s.sta q).state.authSuccess ∧
      ((s.rtwFreeStainfo p).sta q).authSeq = (s.sta q).authSeq ∧
      ((s.rtwFreeStainfo p).sta q).chgTxt = (s.sta q).chgTxt := by
  cases Decidable.em (q = p) with
  | inl hq =>
    subst hq
    simp [rtwFreeStainfo]
  | inr hq => simp [rtwFreeStainfo, hq]

namespace Keyless

variable {s : StaPriv}

theorem init (maxAid maxNumSta : ℕ) : (StaPriv.init maxAid maxNumSta).Keyless where
  lists := (init_inv maxAid maxNumSta).sound.lists
  tracked := (init_inv maxAid maxNumSta).tracked
  nokey := fun _ => rfl
  outside := fun _ h => nomatch h
  issued := fun _ h => nomatch h

theorem found (h : s.Keyless) {mac : MacAddr} {p : StaId}
    (hget : s.table.rtwGetStainfo mac = some p) : p ∈ s.table.allocated := by
  obtain ⟨live, htracks⟩ := h.tracked
  rw [mem_allocated, htracks.split]
  exact fun hnone => hnone _ ((htracks.lookup mac p).mp hget) rfl

theorem setSta (h : s.Keyless) {p : StaId} {sta : StaInfo}
    (hkey : sta.bpairwiseKeyInstalled = false)
    (hout : sta.state.authSuccess = true → p ∉ s.asocList)
    (hissued : sta.authSeq = 2 → sta.chgTxt = issuedChallenge) : (s.setSta p sta).Keyless where
  lists := h.lists.setSta p sta
  tracked := h.tracked
  nokey := setSta_all (P := fun _ sta => sta.bpairwiseKeyInstalled = false) s hkey h.nokey
  outside := setSta_all (P := fun q sta => sta.state.authSuccess = true → q ∉ s.asocList) s
    hout h.outside
  issued := setSta_all (P := fun _ sta => sta.authSeq = 2 → sta.chgTxt = issuedChallenge) s
    hissued h.issued

theorem free (h : s.Keyless) {p : StaId} (hp : p ∈ s.table.allocated) (hasoc : p ∉ s.asocList) :
    (s.rtwFreeStainfo p).Keyless := by
  obtain ⟨sta, aid, heq⟩ := s.rtwFreeStainfo_eq p
  have hlist : (s.rtwFreeStainfo p).asocList = s.asocList := by
    rw [heq]
    exact unlinkAuth_asocList s p
  refine ⟨h.lists.rtwFreeStainfo hasoc, ?_, fun q => ?_, fun q => ?_, fun q => ?_⟩
  · rw [rtwFreeStainfo_table]
    exact tracked_free h.tracked hp
  · rw [(rtwFreeStainfo_kept s p q).1]
    exact h.nokey q
  · rw [(rtwFreeStainfo_kept s p q).2.1, hlist]
    exact h.outside q
  · rw [(rtwFreeStainfo_kept s p q).2.2.1, (rtwFreeStainfo_kept s p q).2.2.2]
    exact h.issued q

end Keyless

structure Admitted (s b : StaPriv) (mac : MacAddr) (p : StaId) : Prop where
  keyless : b.Keyless
  found : b.table.rtwGetStainfo mac = some p
  out : p ∉ b.asocList
  others : ∀ q ≠ p, b.sta q = s.sta q ∧ (q ∈ b.table.allocated ↔ q ∈ s.table.allocated)
  own : (s.table.rtwGetStainfo mac = some p ∧ b.sta p = s.sta p) ∨
    ((b.sta p).authSeq = 0 ∧ (b.sta p).state.authSuccess = false ∧
      (b.sta p).state.assocSuccess = false)

theorem Keyless.linkAuth {s : StaPriv} (h : s.Keyless) {p : StaId} (hp : p ∈ s.table.allocated)
    (hasoc : p ∉ s.asocList) : (s.linkAuth p).Keyless := by
  refine ⟨h.lists.linkAuth hp hasoc, ?_, ?_, ?_, ?_⟩
  all_goals simp only [linkAuth_table, linkAuth_sta, linkAuth_asocList]
  · exact h.tracked
  · exact h.nokey
  · exact h.outside
  · exact h.issued

theorem Keyless.unlinkAsoc {s : StaPriv} (h : s.Keyless) (p : StaId) :
    (s.unlinkAsoc p).Keyless := by
  refine ⟨h.lists.unlinkAsoc p, ?_, ?_, fun q hq hmem => ?_, ?_⟩
  all_goals simp only [unlinkAsoc_table, unlinkAsoc_sta] at *
  · exact h.tracked
  · exact h.nokey
  · exact h.outside q hq (h.lists.mem_unlinkAsoc.mp hmem).1
  · exact h.issued

theorem Keyless.fresh {s s' : StaPriv} {mac : MacAddr} {p : StaId} (h : s.Keyless)
    (hfresh : Fresh s s' mac p) : s'.Keyless := by
  have hall : ∀ {P : StaId → StaInfo → Prop}, P p .zero → (∀ q, P q (s.sta q)) →
      ∀ q, P q (s'.sta q) := by
    intro P hzero hold q
    rw [hfresh.sta]
    cases Decidable.em (q = p) with
    | inl hq =>
      subst hq
      simpa using hzero
    | inr hq => simpa [hq] using hold q
  refine ⟨hfresh.lists, hfresh.tracked, ?_, ?_, ?_⟩
  · exact hall (P := fun _ sta => sta.bpairwiseKeyInstalled = false) rfl h.nokey
  · rw [hfresh.asocList]
    exact hall (P := fun q sta => sta.state.authSuccess = true → q ∉ s.asocList)
      (fun hzero => nomatch hzero) h.outside
  · exact hall (P := fun _ sta => sta.authSeq = 2 → sta.chgTxt = issuedChallenge)
      (fun hzero => nomatch hzero) h.issued

theorem Keyless.admitted {s : StaPriv} (h : s.Keyless) {cfg : ApCfg} {wep : Wep} {env : AuthEnv}
    {f : RxFrame} (hheard : AuthHeard cfg wep env s f) :
    s.onAuth cfg wep env f = (s, [.auth statsUnableHandleSta]) ∨
    ∃ (a : StaPriv) (p : StaId), Admitted s (a.linkAuth p) f.addr2 p ∧
      s.onAuth cfg wep env f = a.authSta cfg wep env f p := by
  rcases s.onAuth_cases cfg wep env f with ⟨-, heq⟩ | ⟨hno, -⟩
  · rw [heq]
    have hmcast : isMcast f.addr2 = false := by
      have haddr := hheard.addr
      simp only [rtwCheckInvalidMacAddress, Bool.or_eq_false_iff] at haddr
      exact haddr.2
    unfold admitSta
    cases hget : s.table.rtwGetStainfo f.addr2 with
    | none =>
      rcases alloc_fresh h.lists h.tracked hmcast hget with halloc | ⟨p, s', halloc, hfresh⟩
      · left
        rw [halloc]
      · right
        simp only [halloc]
        refine ⟨_, p, ?_, rfl⟩
        have hp : p ∈ s'.table.allocated := (hfresh.allocated p).mpr (.inr rfl)
        have hasoc : p ∉ s'.asocList := fun hmem =>
          hfresh.unused (h.lists.asocAllocated p (hfresh.asocList ▸ hmem))
        have hkeyless := (@Keyless.setSta _ (h.fresh hfresh) p { s'.sta p with
          state := { StaState.zero with authNull := true }, authSeq := 0 }
          (by simp [hfresh.sta, StaInfo.zero])
          (fun hno => absurd hno Bool.false_ne_true)
          (fun hno => absurd hno (Nat.zero_ne_add_one 1))).linkAuth hp hasoc
        refine ⟨hkeyless, by simpa using hfresh.found, by simpa using hasoc, fun q hq => ?_,
          .inr ?_⟩
        · simp [hfresh.sta, hq, hfresh.allocated]
        · simp [StaState.zero]
    | some p =>
      right
      simp only [unprotected_keyless (h.nokey p), if_true]
      have hout : p ∉ (s.unlinkAsoc p).asocList := fun hmem =>
        (h.lists.mem_unlinkAsoc.mp hmem).2 rfl
      have hp := h.found hget
      refine ⟨_, p, ⟨(h.unlinkAsoc p).linkAuth (by simpa using hp) hout, by simpa using hget,
        by simpa using hout, fun q _ => by simp, .inl ⟨hget, by simp⟩⟩, rfl⟩
  · exact absurd hheard hno

def Completes (cfg : ApCfg) (p : StaId) (s : StaPriv) : MlmeFrame → Prop
  | .auth wep env f => (ProperOpen cfg wep f ∨ ProperShared cfg wep f) ∧
      (s.onAuth cfg wep env f).1.table.rtwGetStainfo f.addr2 = some p ∧
      (s.onAuth cfg wep env f).2 = [.auth statsSuccessful]
  | .assocReq _ _ => False

def Protected (cfg : ApCfg) (s : StaPriv) : MlmeFrame → Prop
  | .auth wep env f => AuthHeard cfg wep env s f → ∀ p, s.table.rtwGetStainfo f.addr2 = some p →
      AuthAccepted cfg wep f (s.sta p) → f.authTransaction wep = 3 → WepVerified wep f
  | .assocReq env f => ∀ p, AssocHeard s f p → AssocGranted cfg env s f p →
      env.mboAssocDisallow = false ∧
      (cfg.wpaPsk ≠ 0 → (pickOf cfg f).wpaIe = none → cfg.wpsBeaconIe ≠ none)

structure Accepted (cfg : ApCfg) (wep : Wep) (f : RxFrame) (sta x : StaInfo) : Prop where
  nokey : x.bpairwiseKeyInstalled = false
  issued : x.authSeq = 2 → x.chgTxt = issuedChallenge
  assocSuccess : x.state.assocSuccess = sta.state.assocSuccess
  authSuccess : x.state.authSuccess = true → sta.state.authSuccess = true ∨
    ProperOpen cfg wep f ∨
    (f.authTransaction wep = 3 ∧ cfg.dot11AuthAlgrthm ≠ 0 ∧
      challengeMatches (f.plain wep) (f.challenge wep) issuedChallenge = true)

theorem authVerdict_keyless {cfg : ApCfg} {wep : Wep} {f : RxFrame} {sta : StaInfo}
    (hkey : sta.bpairwiseKeyInstalled = false)
    (hissued : sta.authSeq = 2 → sta.chgTxt = issuedChallenge)
    (hgood : badAlgorithm (authMode cfg (f.authAlgorithm wep)) (f.authAlgorithm wep) = false)
    (h : AuthAccepted cfg wep f sta) :
    Accepted cfg wep f sta
      (authAnswered (f.authTransaction wep) (authVerdict cfg wep f sta).1) := by
  have hun := unprotected_keyless hkey
  rcases authVerdict_cases cfg wep f h with
    ⟨hone, hopen, heq⟩ | ⟨hone, heq⟩ | ⟨hthree, hseq, hclosed, hmatch, heq⟩
  · rw [heq]
    have hdemanded := openSystem_demanded hopen
    simp only [openSuccess, hun, if_true]
    refine ⟨hkey, ?_, rfl, fun _ => .inr (.inl ⟨hdemanded.1, hdemanded.2, hone⟩)⟩
    simp [authAnswered]
  · rw [heq]
    have hun' : unprotected { sta with chgTxt := List.replicate 128 78 } = true :=
      unprotected_keyless hkey
    simp only [issueChallenge, hun', if_true]
    exact ⟨hkey, fun _ => rfl, rfl, fun hauth => .inl hauth⟩
  · rw [heq]
    simp only [challengeSuccess, hun, if_true]
    refine ⟨hkey, ?_, rfl, fun _ => .inr (.inr ⟨hthree, sharedKey_demanded hgood hclosed, ?_⟩)⟩
    · simp [authAnswered]
    · rw [← hissued hseq]
      exact hmatch

def Associated (p : StaId) (s : StaPriv) : Prop :=
  p ∈ s.table.allocated ∧ (s.sta p).state.assocSuccess = true

def Grants (cfg : ApCfg) (p : StaId) (s : StaPriv) : MlmeFrame → Prop
  | .auth _ _ _ => False
  | .assocReq env f => AssocHeard s f p ∧ AssocGranted cfg env s f p

structure Caused (cfg : ApCfg) (s : StaPriv) (e : MlmeFrame) : Prop where
  keyless : (s.received cfg e).Keyless
  cause : Protected cfg s e → ∀ q, Welcome q (s.received cfg e) → Welcome q s ∨ Completes cfg q s e
  gain : ∀ q, Associated q (s.received cfg e) → Associated q s ∨ Grants cfg q s e

theorem Caused.unchanged {cfg : ApCfg} {s : StaPriv} {e : MlmeFrame} (h : s.Keyless)
    (heq : s.received cfg e = s) : Caused cfg s e := by
  refine ⟨?_, fun _ q hq => .inl ?_, fun q hq => .inl ?_⟩
  · rw [heq]
    exact h
  · rwa [heq] at hq
  · rwa [heq] at hq

theorem allocated_free {s : StaPriv} {p q : StaId} (hq : q ≠ p)
    (h : q ∈ (s.rtwFreeStainfo p).table.allocated) :
    q ∈ s.table.allocated ∧ (s.rtwFreeStainfo p).sta q = s.sta q := by
  obtain ⟨sta, aid, heq⟩ := s.rtwFreeStainfo_eq p
  rw [heq] at h ⊢
  simp only [mem_allocated_free] at h
  exact ⟨h.1, Function.update_of_ne hq ..⟩

theorem Admitted.own_known {s b : StaPriv} (hs : s.Keyless) {mac : MacAddr} {p : StaId}
    (h : Admitted s b mac p) (hbits : (b.sta p).state.authSuccess = true ∨
      (b.sta p).state.assocSuccess = true) : p ∈ s.table.allocated ∧ b.sta p = s.sta p := by
  rcases h.own with ⟨hget, hsta⟩ | ⟨-, hauth, hassoc⟩
  · exact ⟨hs.found hget, hsta⟩
  · rw [hauth, hassoc] at hbits
    exact absurd hbits (by simp)

theorem properShared {cfg : ApCfg} {wep : Wep} {f : RxFrame} (hthree : f.authTransaction wep = 3)
    (halg : cfg.dot11AuthAlgrthm ≠ 0) (hverified : WepVerified wep f)
    (hmatch : challengeMatches (f.plain wep) (f.challenge wep) issuedChallenge = true) :
    ProperShared cfg wep f := by
  obtain ⟨hprivacy, hicv, p, hp, hlen⟩ := hverified
  rw [hp] at hmatch
  simp only [challengeMatches, Bool.and_eq_true] at hmatch
  exact ⟨halg, hthree, hprivacy, hicv, p, hp, hlen, (memcmp_bytes _ _ _).mp hmatch.2⟩

theorem Admitted.caused {cfg : ApCfg} {s b r : StaPriv} {f : RxFrame} {p : StaId} {e : MlmeFrame}
    (hs : s.Keyless) (h : Admitted s b f.addr2 p) (hr : s.received cfg e = r) (hkeyless : r.Keyless)
    (hothers : ∀ q ≠ p, q ∈ r.table.allocated → q ∈ b.table.allocated ∧ r.sta q = b.sta q)
    (hcause : Protected cfg s e → Welcome p r → (b.sta p).state.authSuccess = true ∨
      (b.sta p).state.assocSuccess = true ∨ Completes cfg p s e)
    (hgain : Associated p r → (b.sta p).state.assocSuccess = true) :
    Caused cfg s e := by
  have hold : ∀ q ≠ p, q ∈ r.table.allocated → q ∈ s.table.allocated ∧ r.sta q = s.sta q := by
    intro q hq hmem
    obtain ⟨hb, hsta⟩ := hothers q hq hmem
    exact ⟨(h.others q hq).2.mp hb, hsta.trans (h.others q hq).1⟩
  refine ⟨hr ▸ hkeyless, fun hprotected q hq => ?_, fun q hq => .inl ?_⟩
  · rw [hr] at hq
    cases Decidable.em (q = p) with
    | inl hqp =>
      subst hqp
      rcases hcause hprotected hq with hauth | hassoc | hdone
      · obtain ⟨hmem, hsta⟩ := h.own_known hs (.inl hauth)
        exact .inl ⟨hmem, .inl (hsta ▸ hauth)⟩
      · obtain ⟨hmem, hsta⟩ := h.own_known hs (.inr hassoc)
        exact .inl ⟨hmem, .inr (hsta ▸ hassoc)⟩
      · exact .inr hdone
    | inr hqp =>
      obtain ⟨hmem, hsta⟩ := hold q hqp hq.1
      exact .inl ⟨hmem, hsta ▸ hq.2⟩
  · rw [hr] at hq
    cases Decidable.em (q = p) with
    | inl hqp =>
      subst hqp
      obtain ⟨hmem, hsta⟩ := h.own_known hs (.inr (hgain hq))
      exact ⟨hmem, hsta ▸ hgain hq⟩
    | inr hqp =>
      obtain ⟨hmem, hsta⟩ := hold q hqp hq.1
      exact ⟨hmem, hsta ▸ hq.2⟩

theorem Keyless.onAuth {s : StaPriv} (h : s.Keyless) (cfg : ApCfg) (wep : Wep) (env : AuthEnv)
    (f : RxFrame) : Caused cfg s (.auth wep env f) := by
  cases Classical.em (AuthHeard cfg wep env s f) with
  | inl hheard =>
    rcases h.admitted hheard with heq | ⟨a, p, hadmitted, heq⟩
    · exact Caused.unchanged h (congrArg Prod.fst heq)
    · have hb := hadmitted.keyless
      have hsta : (a.linkAuth p).sta p = a.sta p := by simp
      have hun : unprotected (a.sta p) = true := unprotected_keyless (hsta ▸ hb.nokey p)
      obtain ⟨t, hcases⟩ := a.authSta_cases cfg wep env f p
      simp only [hun, if_true] at hcases
      rw [← hsta] at hcases
      generalize a.linkAuth p = b at hadmitted hb hcases
      have hp := hb.found hadmitted.found
      have hothers : ∀ x, ∀ q ≠ p, q ∈ (b.setSta p x).table.allocated →
          q ∈ b.table.allocated ∧ (b.setSta p x).sta q = b.sta q :=
        fun x q hq hmem => ⟨hmem, Function.update_of_ne hq ..⟩
      rcases hcases with ⟨-, hauth⟩ | ⟨-, haccepted, hauth⟩ | ⟨-, -, status, hauth⟩
      · refine hadmitted.caused h (received_auth .. |>.trans (congrArg Prod.fst (heq.trans hauth)))
          ?_ (hothers _) (fun _ hwelcome => ?_) fun hassoc => ?_
        · exact hb.setSta (hb.nokey p) (fun _ => hadmitted.out) (hb.issued p)
        · have hbits := hwelcome.2
          simp only [setSta_sta, Function.update_self] at hbits
          exact hbits.imp_right .inl
        · have hbit := hassoc.2
          simp only [setSta_sta, Function.update_self] at hbit
          exact hbit
      · have hx := @StaPriv.authVerdict_keyless _ _ _ { b.sta p with expireTo := t } (hb.nokey p)
          (hb.issued p) hheard.algorithm haccepted
        refine hadmitted.caused h (received_auth .. |>.trans (congrArg Prod.fst (heq.trans hauth)))
          ?_ (hothers _) (fun hprotected hwelcome => ?_) fun hassoc => ?_
        · exact hb.setSta hx.nokey (fun _ => hadmitted.out) hx.issued
        · have hdone : ∀ hproper : ProperOpen cfg wep f ∨ ProperShared cfg wep f,
              Completes cfg p s (.auth wep env f) := by
            intro hproper
            refine ⟨hproper, ?_, ?_⟩
            · rw [heq, hauth]
              exact hadmitted.found
            · rw [heq, hauth]
          have hbits := hwelcome.2
          simp only [setSta_sta, Function.update_self, hx.assocSuccess] at hbits
          rcases hbits with hauthed | hassoc
          · rcases hx.authSuccess hauthed with hold | hopen | ⟨hthree, halg, hmatch⟩
            · exact .inl hold
            · exact .inr (.inr (hdone (.inl hopen)))
            · have hverified : WepVerified wep f := by
                rcases hadmitted.own with ⟨hget, hsame⟩ | ⟨hzero, -⟩
                · exact hprotected hheard p hget (hsame ▸ haccepted) hthree
                · have hseq := haccepted.1
                  omega
              exact .inr (.inr (hdone (.inr (properShared hthree halg hverified hmatch))))
          · exact .inr (.inl hassoc)
        · have hbit := hassoc.2
          simp only [setSta_sta, Function.update_self, hx.assocSuccess] at hbit
          exact hbit
      · have hgone : p ∉ ((b.setSta p { b.sta p with expireTo := t }).rtwFreeStainfo
            p).table.allocated := by
          rw [rtwFreeStainfo_table, mem_allocated_free]
          exact fun hmem => hmem.2 rfl
        refine hadmitted.caused h (received_auth .. |>.trans (congrArg Prod.fst (heq.trans hauth)))
          ?_ (fun q hq hmem => ?_) (fun _ hwelcome => absurd hwelcome.1 hgone)
          fun hassoc => absurd hassoc.1 hgone
        · refine Keyless.free (hb.setSta ?_ ?_ ?_) hp hadmitted.out
          · exact hb.nokey p
          · exact fun _ => hadmitted.out
          · exact hb.issued p
        · obtain ⟨hmem, hsame⟩ := allocated_free hq hmem
          exact ⟨hmem, hsame.trans (Function.update_of_ne hq ..)⟩
  | inr hheard =>
    rcases s.onAuth_cases cfg wep env f with ⟨hyes, -⟩ | ⟨-, heq⟩
    · exact absurd hyes hheard
    · exact Caused.unchanged h heq

theorem assignAid_held (c : AidCtl StaId) (p : StaId) :
    (c.assignAid p).1.aid p = (c.assignAid p).2 := by
  unfold AidCtl.assignAid AidCtl.rtwAidAlloc
  simp only
  split_ifs <;> simp

theorem enterBss_open (cfg : ApCfg) (env : AssocEnv) {s : StaPriv} {p : StaId}
    (h : unprotected (s.sta p) = true) :
    let r := ((s.setSta p (finishAssoc (s.sta p))).unlinkAuth p).linkAsoc cfg p
    s.enterBss cfg env p = (r.setSta p (staInfoUpdate cfg (r.sta p)),
      [.asocRsp (if env.mboAssocDisallow then statsUnableHandleSta else statsSuccessful)
        (s.aid.aid p)]) := by
  have hfinish : unprotected (finishAssoc (s.sta p)) = true := h
  unfold enterBss
  simp only [setSta_sta, Function.update_self, hfinish, if_true]
  simp

structure Joined (s : StaPriv) (p : StaId) (r : StaPriv) : Prop where
  keyless : r.Keyless
  table : r.table = s.table
  others : ∀ q ≠ p, r.sta q = s.sta q

namespace Keyless

variable {s : StaPriv}

theorem withAid (h : s.Keyless) (aid : AidCtl StaId) : Keyless { s with aid := aid } :=
  ⟨h.lists.withAid aid, h.tracked, h.nokey, h.outside, h.issued⟩

theorem unlinkAuth (h : s.Keyless) (p : StaId) : (s.unlinkAuth p).Keyless := by
  refine ⟨h.lists.unlinkAuth p, ?_, ?_, ?_, ?_⟩
  all_goals simp only [unlinkAuth_table, unlinkAuth_sta, unlinkAuth_asocList]
  · exact h.tracked
  · exact h.nokey
  · exact h.outside
  · exact h.issued

theorem linkAsoc (h : s.Keyless) (cfg : ApCfg) {p : StaId} (hp : p ∈ s.table.allocated)
    (hauth : p ∉ s.authList) (hjoined : (s.sta p).state.authSuccess = false) :
    (s.linkAsoc cfg p).Keyless := by
  obtain ⟨expireTo, hself⟩ := s.linkAsoc_sta_self p cfg
  have hall : ∀ {P : StaId → StaInfo → Prop}, P p { s.sta p with expireTo := expireTo } →
      (∀ q, P q (s.sta q)) → ∀ q, P q ((s.linkAsoc cfg p).sta q) := by
    intro P hown hold q
    cases Decidable.em (q = p) with
    | inl hq =>
      subst hq
      exact hself.symm ▸ hown
    | inr hq =>
      rw [linkAsoc_sta_ne s cfg hq]
      exact hold q
  refine ⟨h.lists.linkAsoc cfg hp hauth, by simpa using h.tracked, ?_, ?_, ?_⟩
  · exact hall (P := fun _ sta => sta.bpairwiseKeyInstalled = false) (h.nokey p) h.nokey
  · intro q hq hmem
    rcases (s.mem_linkAsoc cfg).mp hmem with hold | rfl
    · refine hall (P := fun q sta => sta.state.authSuccess = true → q ∉ s.asocList) ?_ h.outside q
        hq hold
      exact h.outside p
    · rw [hself] at hq
      rw [hjoined] at hq
      cases hq
  · exact hall (P := fun _ sta => sta.authSeq = 2 → sta.chgTxt = issuedChallenge) (h.issued p)
      h.issued

theorem begun (h : s.Keyless) {p : StaId} {sta : StaInfo}
    (hsta : sta.interlude = (beginAssoc (s.sta p)).interlude) :
    sta.bpairwiseKeyInstalled = false ∧ sta.state.authSuccess = false ∧
      (sta.authSeq = 2 → sta.chgTxt = issuedChallenge) ∧
      (sta.state.assocSuccess = true → (s.sta p).state.authSuccess = true ∧
        (s.sta p).state.assocSuccess = true) := by
  have hbegin : (beginAssoc (s.sta p)).bpairwiseKeyInstalled = false ∧
      (beginAssoc (s.sta p)).state.authSuccess = false ∧
      ((beginAssoc (s.sta p)).authSeq = 2 → (beginAssoc (s.sta p)).chgTxt = issuedChallenge) ∧
      ((beginAssoc (s.sta p)).state.assocSuccess = true → (s.sta p).state.authSuccess = true ∧
        (s.sta p).state.assocSuccess = true) := by
    unfold beginAssoc
    split
    · next hauth => exact ⟨h.nokey p, rfl, h.issued p, fun hassoc => ⟨hauth, hassoc⟩⟩
    · next hauth => exact ⟨h.nokey p, by simpa using hauth, h.issued p, fun hno => nomatch hno⟩
  have hkey := congrArg Interlude.bpairwiseKeyInstalled hsta
  have hstate := congrArg Interlude.state hsta
  have hseq := congrArg Interlude.authSeq hsta
  have htxt := congrArg Interlude.chgTxt hsta
  simp only [StaInfo.interlude] at hkey hstate hseq htxt
  rw [hkey, hstate, hseq, htxt]
  exact hbegin

theorem enterBss_outcome (h : s.Keyless) (cfg : ApCfg) (env : AssocEnv) {p : StaId}
    (hp : p ∈ s.table.allocated) (hjoined : (s.sta p).state.authSuccess = false) :
    ∃ r, Joined s p r ∧ p ∈ r.asocList ∧ (r.sta p).state.assocSuccess = true ∧ r.aid = s.aid ∧
      s.enterBss cfg env p = (r, [.asocRsp
        (if env.mboAssocDisallow then statsUnableHandleSta else statsSuccessful)
        (r.aid.aid p)]) := by
  have hfinished : (s.setSta p (finishAssoc (s.sta p))).Keyless :=
    h.setSta (h.nokey p) (fun hyes => absurd (hjoined.symm.trans hyes) (by simp)) (h.issued p)
  have hout : p ∉ ((s.setSta p (finishAssoc (s.sta p))).unlinkAuth p).authList := fun hmem =>
    (hfinished.lists.mem_unlinkAuth.mp hmem).2 rfl
  have hlinked := (hfinished.unlinkAuth p).linkAsoc cfg (p := p) (by simpa using hp) hout
    (by simpa [finishAssoc] using hjoined)
  obtain ⟨expireTo, hself⟩ :=
    ((s.setSta p (finishAssoc (s.sta p))).unlinkAuth p).linkAsoc_sta_self p cfg
  simp only [unlinkAuth_sta, setSta_sta, Function.update_self] at hself
  have hopen := s.enterBss_open cfg env (unprotected_keyless (h.nokey p))
  have hothers : ∀ q ≠ p, (((s.setSta p (finishAssoc (s.sta p))).unlinkAuth p).linkAsoc cfg p).sta
      q = s.sta q := fun q hq => by simp [hq, linkAsoc_sta_ne]
  have htable : (((s.setSta p (finishAssoc (s.sta p))).unlinkAuth p).linkAsoc cfg p).table =
      s.table := by simp
  have haid : (((s.setSta p (finishAssoc (s.sta p))).unlinkAuth p).linkAsoc cfg p).aid = s.aid := by
    simp
  have hlisted : p ∈ (((s.setSta p (finishAssoc (s.sta p))).unlinkAuth p).linkAsoc cfg p).asocList :=
    (mem_linkAsoc _ cfg).mpr (.inr rfl)
  generalize ((s.setSta p (finishAssoc (s.sta p))).unlinkAuth p).linkAsoc cfg p = r at *
  refine ⟨r.setSta p (staInfoUpdate cfg (r.sta p)),
    ⟨hlinked.setSta ?_ ?_ ?_, htable, fun q hq => ?_⟩, hlisted, ?_, haid, ?_⟩
  · rw [hself]
    exact h.nokey p
  · rw [hself]
    exact fun hyes => absurd (hjoined.symm.trans hyes) (by simp)
  · rw [hself]
    exact h.issued p
  · simpa [hq] using hothers q hq
  · simp [staInfoUpdate, finishAssoc, hself]
  · rw [setSta_aid, haid]
    exact hopen

theorem assocSta_outcome (h : s.Keyless) (cfg : ApCfg) (env : AssocEnv) {f : RxFrame} {p : StaId}
    (hp : p ∈ s.table.allocated) :
    (AssocGranted cfg env s f p ∧ ∃ r, Joined s p r ∧ p ∈ r.asocList ∧
      (r.sta p).state.assocSuccess = true ∧ 0 < r.aid.aid p ∧
      s.assocSta cfg env f p = (r, [.asocRsp
        (if env.mboAssocDisallow then statsUnableHandleSta else statsSuccessful)
        (r.aid.aid p)])) ∨
    (¬ AssocGranted cfg env s f p ∧ ∃ r answers, Joined s p r ∧ r.asocList = s.asocList ∧
      ((r.sta p).state.assocSuccess = true → (s.sta p).state.authSuccess = true ∧
        (s.sta p).state.assocSuccess = true) ∧
      (∀ a ∈ answers, ∃ status n, a = .asocRsp status n ∧ status ≠ statsSuccessful) ∧
      s.assocSta cfg env f p = (r, answers)) := by
  rcases s.assocSta_cases cfg env f p with
    ⟨hgranted, hsta⟩ | ⟨hgranted, aid, sta, answers, hstate, hanswers, hsta⟩
  · left
    obtain ⟨hkey, hauth, hissued, -⟩ := h.begun (assocChecks_interlude cfg env f
      (beginAssoc (s.sta p)))
    have hkeyless := (h.setSta (p := p) hkey (fun hyes => by simp [hauth] at hyes)
      hissued).withAid (s.aid.assignAid p).1
    have hjoined : ({ s.setSta p (assocChecks cfg env f (beginAssoc (s.sta p))).1 with
        aid := (s.aid.assignAid p).1 }.sta p).state.authSuccess = false := by simpa using hauth
    obtain ⟨r, hr, hlisted, hassoc, haid, henter⟩ := hkeyless.enterBss_outcome cfg env hp hjoined
    refine ⟨hgranted, r, ⟨hr.keyless, hr.table, fun q hq => ?_⟩, hlisted, hassoc, ?_, ?_⟩
    · rw [hr.others q hq]
      simp [hq]
    · rw [haid]
      have hheld := hgranted.aid
      rw [← assignAid_held] at hheld
      exact Nat.pos_of_ne_zero hheld
    · rw [hsta]
      exact henter
  · right
    have hbegun : sta.interlude = (beginAssoc (s.sta p)).interlude := by
      rcases hstate with rfl | rfl
      · rfl
      · exact assocChecks_interlude ..
    obtain ⟨hkey, hauth, hissued, hassoc⟩ := h.begun hbegun
    refine ⟨hgranted, { s.setSta p sta with aid := aid }, answers,
      ⟨?_, rfl, fun q hq => ?_⟩, rfl, ?_, hanswers, hsta⟩
    · exact (h.setSta hkey (fun hyes => by simp [hauth] at hyes) hissued).withAid aid
    · simp [hq]
    · simpa using hassoc

end Keyless

theorem Keyless.onAssocReq {s : StaPriv} (h : s.Keyless) (cfg : ApCfg) (env : AssocEnv)
    (f : RxFrame) : Caused cfg s (.assocReq env f) := by
  rcases s.onAssocReq_cases cfg env f with ⟨p, hheard, heq⟩ | ⟨-, heq | heq⟩
  · have hp := h.found hheard.found
    have hold : ∀ {r : StaPriv}, Joined s p r → ∀ q ≠ p, (Welcome q r → Welcome q s) ∧
        (Associated q r → Associated q s) := by
      intro r hr q hq
      simp only [Welcome, Associated, hr.table, hr.others q hq, imp_self, and_self]
    rcases h.assocSta_outcome cfg env hp with
      ⟨hgranted, r, hr, -, -, -, hsta⟩ | ⟨-, r, answers, hr, -, hassoc, -, hsta⟩
    · have hreceived : s.received cfg (.assocReq env f) = r :=
        congrArg Prod.fst (heq.trans hsta)
      refine ⟨hreceived ▸ hr.keyless, fun _ q hq => .inl ?_, fun q hq => ?_⟩
      · cases Decidable.em (q = p) with
        | inl hqp =>
          subst hqp
          exact ⟨hp, hheard.cls⟩
        | inr hqp => exact (hold hr q hqp).1 (hreceived ▸ hq)
      · cases Decidable.em (q = p) with
        | inl hqp =>
          subst hqp
          exact .inr ⟨hheard, hgranted⟩
        | inr hqp => exact .inl ((hold hr q hqp).2 (hreceived ▸ hq))
    · have hreceived : s.received cfg (.assocReq env f) = r :=
        congrArg Prod.fst (heq.trans hsta)
      refine ⟨hreceived ▸ hr.keyless, fun _ q hq => .inl ?_, fun q hq => .inl ?_⟩
      · cases Decidable.em (q = p) with
        | inl hqp =>
          subst hqp
          exact ⟨hp, hheard.cls⟩
        | inr hqp => exact (hold hr q hqp).1 (hreceived ▸ hq)
      · cases Decidable.em (q = p) with
        | inl hqp =>
          subst hqp
          rw [hreceived] at hq
          exact ⟨hp, (hassoc hq.2).2⟩
        | inr hqp => exact (hold hr q hqp).2 (hreceived ▸ hq)
  · exact Caused.unchanged h (congrArg Prod.fst heq)
  · exact Caused.unchanged h (congrArg Prod.fst heq)

theorem assocChecks_security {cfg : ApCfg} {env : AssocEnv} {f : RxFrame} {sta : StaInfo}
    (h : (assocChecks cfg env f sta).2 = statsSuccessful) :
    ∃ sta, (rtwApParseStaSecurityIe cfg env f.data sta (elemsOf f)).2 = statsSuccessful := by
  unfold assocChecks at h
  split at h
  · next hforce => exact absurd h hforce
  cases hparse : rtwIeee80211ParseElems f.data f.ies f.iesLen with
  | none =>
    rw [hparse] at h
    cases h
  | some elems =>
    have helems : elems = elemsOf f := by simp [elemsOf, hparse]
    subst helems
    rw [hparse] at h
    simp only at h
    split at h
    · cases h
    obtain ⟨-, h, -⟩ := check_success h
    obtain ⟨hsecurity, -, -⟩ := check_success h
    exact ⟨_, hsecurity⟩

theorem pickOf_offers {cfg : ApCfg} {f : RxFrame} (hstatus : (pickOf cfg f).status = statsSuccessful)
    (hie : (pickOf cfg f).wpaIe ≠ none) : OffersCiphers cfg f := by
  unfold pickOf pick at hstatus hie
  cases hrsn : if cfg.wpaPsk &&& 2 ≠ 0 then (elemsOf f).rsnIe else none with
  | some ie =>
    have hpresent : (elemsOf f).rsnIe = some ie := by
      split at hrsn
      · exact hrsn
      · cases hrsn
    rw [hrsn] at hstatus
    simp only [pickWpa2] at hstatus
    cases hparse : rtwParseWpa2Ie f.data (ie.pos - 2) (ie.len + 2) with
    | none =>
      rw [hparse] at hstatus
      cases hstatus
    | some w =>
      rw [hparse] at hstatus
      simp only at hstatus
      split at hstatus
      · cases hstatus
      split at hstatus
      · cases hstatus
      split at hstatus
      · cases hstatus
      split at hstatus
      · cases hstatus
      · next hgroup hpairwise => exact .inl ⟨ie, w, hpresent, hparse, hgroup, hpairwise⟩
  | none =>
    rw [hrsn] at hstatus hie
    simp only at hstatus hie
    cases hwpa : if cfg.wpaPsk &&& 1 ≠ 0 then (elemsOf f).wpaIe else none with
    | none =>
      rw [hwpa] at hie
      exact absurd rfl hie
    | some ie =>
      have hpresent : (elemsOf f).wpaIe = some ie := by
        split at hwpa
        · exact hwpa
        · cases hwpa
      rw [hwpa] at hstatus
      simp only [pickWpa] at hstatus
      cases hparse : rtwParseWpaIe f.data (ie.pos - 2) (ie.len + 2) with
      | none =>
        rw [hparse] at hstatus
        cases hstatus
      | some w =>
        rw [hparse] at hstatus
        simp only at hstatus
        split at hstatus
        · cases hstatus
        split at hstatus
        · cases hstatus
        · next hgroup hpairwise =>
          exact .inr ⟨ie, w.1, w.2, hpresent, hparse, hgroup, hpairwise⟩

theorem assocChecks_wpa {cfg : ApCfg} {env : AssocEnv} {f : RxFrame} {sta : StaInfo}
    (h : (assocChecks cfg env f sta).2 = statsSuccessful) (hpsk : cfg.wpaPsk ≠ 0) :
    OffersCiphers cfg f ∨ ((pickOf cfg f).wpaIe = none ∧ cfg.wpsBeaconIe ≠ some 0) := by
  obtain ⟨sta, hsecurity⟩ := assocChecks_security h
  unfold rtwApParseStaSecurityIe at hsecurity
  simp only at hsecurity
  rw [pick_clear] at hsecurity
  obtain ⟨hstatus, hsecurity, -⟩ := check_success hsecurity
  cases hie : (pickOf cfg f).wpaIe with
  | some ie => exact .inl (pickOf_offers hstatus (by simp [hie]))
  | none =>
    right
    obtain ⟨-, hsecurity, -⟩ := check_success hsecurity
    obtain ⟨-, hsecurity, -⟩ := check_success hsecurity
    rw [hie] at hsecurity
    simp only [checkWps] at hsecurity
    split at hsecurity
    · cases hsecurity
    · next hbeacon => exact ⟨rfl, fun hzero => hbeacon ⟨Nat.pos_of_ne_zero hpsk, hzero⟩⟩

theorem Keyless.caused {s : StaPriv} (h : s.Keyless) (cfg : ApCfg) (e : MlmeFrame) :
    Caused cfg s e := by
  cases e with
  | auth wep env f => exact h.onAuth cfg wep env f
  | assocReq env f => exact h.onAssocReq cfg env f

def Admits (cfg : ApCfg) (p : StaId) (s : StaPriv) (e : MlmeFrame) : Prop :=
  (Associated p (s.received cfg e) ∧ ¬ Associated p s) ∨
    (s.table.rtwGetStainfo e.frame.addr2 = some p ∧
      ∃ n, .asocRsp statsSuccessful n ∈ (s.receive cfg e).2)

structure AssocSound (cfg : ApCfg) (start : StaPriv) (es : List MlmeFrame) (e : MlmeFrame) :
    Prop where
  admitted : ∀ p, Admits cfg p (Run.exec (received cfg) start es) e →
    Run.Since (received cfg) (Completes cfg p) (Welcome p) start es ∧
      (cfg.wpaPsk ≠ 0 → OffersCiphers cfg e.frame ∨ RunsWps cfg)
  answered : ∀ p, (Run.exec (received cfg) start es).table.rtwGetStainfo e.frame.addr2 = some p →
    ∀ status n, .asocRsp status n ∈ ((Run.exec (received cfg) start es).receive cfg e).2 →
      (status = statsSuccessful ↔ ((((Run.exec (received cfg) start es).received cfg e).sta
        p).state.assocSuccess = true ∧
        p ∈ ((Run.exec (received cfg) start es).received cfg e).asocList ∧
        0 < ((Run.exec (received cfg) start es).received cfg e).aid.aid p))

theorem answered_heard {cfg : ApCfg} {s : StaPriv} {e : MlmeFrame} {status n : ℕ}
    (h : .asocRsp status n ∈ (s.receive cfg e).2) :
    ∃ env p, e = .assocReq env e.frame ∧ AssocHeard s e.frame p ∧
      s.receive cfg e = s.assocSta cfg env e.frame p := by
  cases e with
  | auth wep env f =>
    rcases onAuth_answers cfg wep env s f _ h with huser | ⟨status, hauth⟩
    · cases huser
    · cases hauth
  | assocReq env f =>
    rcases s.onAssocReq_cases cfg env f with ⟨p, hheard, heq⟩ | ⟨-, heq⟩
    · exact ⟨env, p, rfl, hheard, heq⟩
    · have hreceive : s.receive cfg (.assocReq env f) = s.onAssocReq cfg env f := rfl
      rw [hreceive] at h
      rcases heq with heq | heq
      · rw [heq] at h
        cases h
      · rw [heq] at h
        simp at h

theorem AssocHeard.eq_of_found {s : StaPriv} {f : RxFrame} {p q : StaId} (h : AssocHeard s f p)
    (hq : s.table.rtwGetStainfo f.addr2 = some q) : p = q :=
  Option.some.inj (h.found.symm.trans hq)

theorem Keyless.admitted_wpa {cfg : ApCfg} {s : StaPriv} {p : StaId} {e : MlmeFrame}
    (hprotected : Protected cfg s e) (h : Grants cfg p s e) (hpsk : cfg.wpaPsk ≠ 0) :
    OffersCiphers cfg e.frame ∨ RunsWps cfg := by
  cases e with
  | auth wep env f => exact absurd h id
  | assocReq env f =>
    obtain ⟨hheard, hgranted⟩ := h
    rcases assocChecks_wpa hgranted.checks hpsk with hoffers | ⟨hnone, hbeacon⟩
    · exact .inl hoffers
    · have hpresent := (hprotected p hheard hgranted).2 hpsk hnone
      obtain ⟨v, hv⟩ := Option.ne_none_iff_exists'.mp hpresent
      exact .inr ⟨v, hv, fun hzero => hbeacon (hv.trans (congrArg some hzero))⟩

theorem association_sound (cfg : ApCfg) (maxAid maxNumSta : ℕ) (es : List MlmeFrame)
    (e : MlmeFrame)
    (h : Run.Each (received cfg) (Protected cfg) (init maxAid maxNumSta) (es ++ [e])) :
    AssocSound cfg (init maxAid maxNumSta) es e := by
  obtain ⟨hes, hprotected, -⟩ := (Run.each_append ..).mp h
  have hstep : ∀ s e, Keyless s → Protected cfg s e → Keyless (received cfg s e) :=
    fun s e hs _ => (hs.caused cfg e).keyless
  have hkeyless : Keyless (Run.exec (received cfg) (init maxAid maxNumSta) es) :=
    Run.each_invariant _ _ Keyless hstep (Keyless.init maxAid maxNumSta) hes
  have hsince : ∀ p, Welcome p (Run.exec (received cfg) (init maxAid maxNumSta) es) →
      Run.Since (received cfg) (Completes cfg p) (Welcome p) (init maxAid maxNumSta) es := by
    intro p hwelcome
    refine Run.since_of_each _ (Protected cfg) _ _ Keyless ?_ hstep
      (Keyless.init maxAid maxNumSta) ?_ hes hwelcome
    · exact fun s e hs hgiven hafter => (hs.caused cfg e).cause hgiven p hafter
    · rintro ⟨-, hauth | hassoc⟩
      · cases hauth
      · cases hassoc
  constructor
  all_goals generalize Run.exec (received cfg) (init maxAid maxNumSta) es = s at *
  · rintro p (⟨hafter, hbefore⟩ | ⟨hfound, n, hanswer⟩)
    · have hgrants := ((hkeyless.caused cfg e).gain p hafter).resolve_left hbefore
      have hwpa := Keyless.admitted_wpa hprotected hgrants
      cases e with
      | auth wep env f => exact absurd hgrants id
      | assocReq env f =>
        exact ⟨hsince p ⟨hkeyless.found hgrants.1.found, hgrants.1.cls⟩, hwpa⟩
    · obtain ⟨env, q, he, hheard, heq⟩ := answered_heard hanswer
      obtain rfl := hheard.eq_of_found hfound
      have hwelcome : Welcome q s := ⟨hkeyless.found hheard.found, hheard.cls⟩
      rcases hkeyless.assocSta_outcome cfg env hwelcome.1 with
        ⟨hgranted, -⟩ | ⟨-, r, answers, -, -, -, hanswers, hsta⟩
      · have hgrants : Grants cfg q s e := by
          rw [he]
          exact ⟨hheard, hgranted⟩
        exact ⟨hsince q hwelcome, Keyless.admitted_wpa hprotected hgrants⟩
      · rw [heq, hsta] at hanswer
        obtain ⟨status, m, hsame, hne⟩ := hanswers _ hanswer
        cases hsame
        exact absurd rfl hne
  · intro p hfound status n hanswer
    obtain ⟨env, q, he, hheard, heq⟩ := answered_heard hanswer
    obtain rfl := hheard.eq_of_found hfound
    have hq := hkeyless.found hheard.found
    rcases hkeyless.assocSta_outcome cfg env hq with
      ⟨hgranted, r, -, hlisted, hassoc, haid, hsta⟩ | ⟨-, r, answers, -, hlist, hassoc, hanswers, hsta⟩
    · have hopen : env.mboAssocDisallow = false := by
        rw [he] at hprotected
        exact (hprotected q hheard hgranted).1
      rw [hopen] at hsta
      have hreceived : s.received cfg e = r := congrArg Prod.fst (heq.trans hsta)
      rw [heq, hsta] at hanswer
      simp only [Bool.false_eq_true, if_false, List.mem_singleton, Answer.asocRsp.injEq] at hanswer
      rw [hreceived]
      exact iff_of_true hanswer.1 ⟨hassoc, hlisted, haid⟩
    · have hreceived : s.received cfg e = r := congrArg Prod.fst (heq.trans hsta)
      rw [heq, hsta] at hanswer
      obtain ⟨status', m, hsame, hne⟩ := hanswers _ hanswer
      cases hsame
      rw [hreceived]
      refine iff_of_false hne ?_
      rintro ⟨hyes, hmem, -⟩
      rw [hlist] at hmem
      exact hkeyless.outside q (hassoc hyes).1 hmem

theorem association_sound_rsn :
    AssocSound mfpCapableCfg (init 16 16) [.auth openWep quietAuth (authRequest 0 1)]
      (.assocReq quietAssoc (rsnRequest 0x80)) := by
  refine association_sound mfpCapableCfg 16 16 [.auth openWep quietAuth (authRequest 0 1)]
    (.assocReq quietAssoc (rsnRequest 0x80)) ⟨?_, ?_, trivial⟩
  · intro _ p hget
    have hnone : (init 16 16).table.rtwGetStainfo staAddr = none := by decide +kernel
    rw [authRequest_addr, hnone] at hget
    cases hget
  · have hpresent : (pickOf mfpCapableCfg (rsnRequest 0x80)).wpaIe ≠ none := by decide +kernel
    exact fun p _ _ => ⟨rfl, fun _ hnone => absurd hnone hpresent⟩

def sharedKeyCfg : ApCfg :=
  { mfpCapableCfg with dot11AuthAlgrthm := 1, dot11PrivacyAlgrthm := .wep40, wpaPsk := 0 }

def challengeResponse : RxFrame where
  data i := ([0xb0, 0, 0, 0] ++ List.replicate 6 0 ++ [2, 0, 0, 0, 0, 1] ++ List.replicate 8 0 ++
    [1, 0, 3, 0, 0, 0, 0, 0, 0, 0, 16, 128] ++ issuedChallenge).getD i 0
  len := 164

def plaintextAuth : List MlmeFrame :=
  [.auth openWep quietAuth (authRequest 1 1), .auth openWep quietAuth challengeResponse]

def openRequest : MlmeFrame := .assocReq quietAssoc (assocRequest [0, 1, 65, 1, 2, 0x82, 0x84])

theorem openRequest_addr : openRequest.frame.addr2 = staAddr :=
  rfl

theorem plaintextAuth_incomplete (p : StaId) (s : StaPriv) (e : MlmeFrame) (h : e ∈ plaintextAuth) :
    ¬ Completes sharedKeyCfg p s e := by
  simp only [plaintextAuth, List.mem_cons, List.not_mem_nil, or_false] at h
  rcases h with rfl | rfl
  all_goals
    rintro ⟨⟨hopen, -⟩ | ⟨-, -, hprivacy, -⟩, -⟩
    · exact absurd hopen (by decide)
    · exact absurd hprivacy (by decide)

theorem plaintextAuth_admitted :
    ¬ AssocSound sharedKeyCfg (init 16 16) plaintextAuth openRequest := by
  have hanswer : ((Run.exec (received sharedKeyCfg) (init 16 16) plaintextAuth).receive sharedKeyCfg
      openRequest).2 = [.asocRsp statsSuccessful 1] := by decide +kernel
  have hfound : (Run.exec (received sharedKeyCfg) (init 16 16) plaintextAuth).table.rtwGetStainfo
      staAddr = some firstSta := by decide +kernel
  intro hsound
  have hadmits : Admits sharedKeyCfg firstSta
      (Run.exec (received sharedKeyCfg) (init 16 16) plaintextAuth) openRequest := by
    refine .inr ⟨?_, 1, ?_⟩
    · rw [openRequest_addr]
      exact hfound
    · rw [hanswer]
      exact List.mem_singleton_self _
  obtain ⟨⟨before, d, rest, hsplit, hdone, -⟩, -⟩ := hsound.admitted firstSta hadmits
  refine plaintextAuth_incomplete firstSta _ d ?_ hdone
  rw [hsplit]
  simp

end StaPriv

end Ap
