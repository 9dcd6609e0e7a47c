import Rtl8188fu.Ap.MlmeSteps

namespace Ap

open Ie
open Recv (MacAddr isMcast localAddr)

namespace StaPriv

structure Lists (s : StaPriv) : Prop where
  authCnt : s.authListCnt = s.authList.length
  asocCnt : s.asocListCnt = s.asocList.length
  authNodup : s.authList.Nodup
  asocNodup : s.asocList.Nodup
  apart : ∀ p ∈ s.authList, p ∉ s.asocList
  authAllocated : ∀ p ∈ s.authList, p ∈ s.table.allocated
  asocAllocated : ∀ p ∈ s.asocList, p ∈ s.table.allocated

def AssociatedBut (s : StaPriv) (p : StaId) : Prop :=
  ∀ q ∈ s.table.allocated, q ≠ p → (s.sta q).state.assocSuccess = true → q ∈ s.asocList

structure Sound (s : StaPriv) : Prop where
  lists : s.Lists
  associated : ∀ q ∈ s.table.allocated, (s.sta q).state.assocSuccess = true → q ∈ s.asocList

structure Inv (s : StaPriv) : Prop where
  sound : s.Sound
  tracked : ∃ live, Tracks s.table live

theorem mem_allocated (t : StaTable) (p : StaId) : p ∈ t.allocated ↔ p ∉ t.freeStaQueue := by
  simp [StaTable.allocated]

theorem mem_allocated_free (t : StaTable) (p q : StaId) :
    q ∈ (t.rtwFreeStainfo p).allocated ↔ q ∈ t.allocated ∧ q ≠ p := by
  simp [mem_allocated, StaTable.rtwFreeStainfo, StaTable.unhash]

theorem Sound.but {s : StaPriv} (h : s.Sound) (p : StaId) : s.AssociatedBut p :=
  fun q hq _ hsuccess => h.associated q hq hsuccess

namespace Lists

variable {s : StaPriv}

theorem setSta (h : s.Lists) (p : StaId) (sta : StaInfo) : (s.setSta p sta).Lists :=
  ⟨h.authCnt, h.asocCnt, h.authNodup, h.asocNodup, h.apart, h.authAllocated, h.asocAllocated⟩

theorem withAid (h : s.Lists) (aid : AidCtl StaId) : Lists { s with aid := aid } :=
  ⟨h.authCnt, h.asocCnt, h.authNodup, h.asocNodup, h.apart, h.authAllocated, h.asocAllocated⟩

theorem linkAuth (h : s.Lists) {p : StaId} (hp : p ∈ s.table.allocated)
    (hasoc : p ∉ s.asocList) : (s.linkAuth p).Lists := by
  unfold StaPriv.linkAuth
  split
  · exact h
  · next hnew =>
    refine ⟨?_, h.asocCnt, ?_, h.asocNodup, ?_, ?_, h.asocAllocated⟩
    · simp [h.authCnt]
    · exact List.Nodup.append h.authNodup (List.nodup_singleton p) (by simpa using hnew)
    · intro q hq
      rcases List.mem_append.mp hq with hq | hq
      · exact h.apart q hq
      · exact List.mem_singleton.mp hq ▸ hasoc
    · intro q hq
      rcases List.mem_append.mp hq with hq | hq
      · exact h.authAllocated q hq
      · exact List.mem_singleton.mp hq ▸ hp

theorem unlinkAuth (h : s.Lists) (p : StaId) : (s.unlinkAuth p).Lists := by
  unfold StaPriv.unlinkAuth
  split
  · next hp =>
    refine ⟨?_, h.asocCnt, h.authNodup.erase p, h.asocNodup, ?_, ?_, h.asocAllocated⟩
    · have hlen := List.length_erase_of_mem hp
      have hpos := List.length_pos_of_mem hp
      simp only [hlen, h.authCnt]
      omega
    · exact fun q hq => h.apart q (List.mem_of_mem_erase hq)
    · exact fun q hq => h.authAllocated q (List.mem_of_mem_erase hq)
  · exact h

theorem unlinkAsoc (h : s.Lists) (p : StaId) : (s.unlinkAsoc p).Lists := by
  unfold StaPriv.unlinkAsoc
  split
  · next hp =>
    refine ⟨h.authCnt, ?_, h.authNodup, h.asocNodup.erase p, ?_, h.authAllocated, ?_⟩
    · have hlen := List.length_erase_of_mem hp
      have hpos := List.length_pos_of_mem hp
      simp only [hlen, h.asocCnt]
      omega
    · exact fun q hq hmem => h.apart q hq (List.mem_of_mem_erase hmem)
    · exact fun q hq => h.asocAllocated q (List.mem_of_mem_erase hq)
  · exact h

theorem linkAsoc (h : s.Lists) (cfg : ApCfg) {p : StaId} (hp : p ∈ s.table.allocated)
    (hauth : p ∉ s.authList) : (s.linkAsoc cfg p).Lists := by
  unfold StaPriv.linkAsoc
  split
  · exact h
  · next hnew =>
    refine ⟨h.authCnt, ?_, h.authNodup, ?_, ?_, h.authAllocated, ?_⟩
    · simp [h.asocCnt]
    · exact List.Nodup.append h.asocNodup (List.nodup_singleton p) (by simpa using hnew)
    · intro q hq hmem
      rcases List.mem_append.mp hmem with hmem | hmem
      · exact h.apart q hq hmem
      · exact hauth (List.mem_singleton.mp hmem ▸ hq)
    · intro q hq
      rcases List.mem_append.mp hq with hq | hq
      · exact h.asocAllocated q hq
      · exact List.mem_singleton.mp hq ▸ hp

theorem mem_unlinkAuth (h : s.Lists) {p q : StaId} :
    q ∈ (s.unlinkAuth p).authList ↔ q ∈ s.authList ∧ q ≠ p := by
  unfold StaPriv.unlinkAuth
  split
  · rw [h.authNodup.mem_erase_iff, and_comm]
  · next hp =>
    refine (and_iff_left_of_imp fun hq => ?_).symm
    rintro rfl
    exact hp hq

theorem mem_unlinkAsoc (h : s.Lists) {p q : StaId} :
    q ∈ (s.unlinkAsoc p).asocList ↔ q ∈ s.asocList ∧ q ≠ p := by
  unfold StaPriv.unlinkAsoc
  split
  · rw [h.asocNodup.mem_erase_iff, and_comm]
  · next hp =>
    refine (and_iff_left_of_imp fun hq => ?_).symm
    rintro rfl
    exact hp hq

end Lists

theorem mem_linkAsoc (s : StaPriv) (cfg : ApCfg) {p q : StaId} :
    q ∈ (s.linkAsoc cfg p).asocList ↔ q ∈ s.asocList ∨ q = p := by
  unfold linkAsoc
  split
  · next hp =>
    refine (or_iff_left_of_imp ?_).symm
    rintro rfl
    exact hp
  · simp

theorem linkAsoc_sta_ne (s : StaPriv) (cfg : ApCfg) {p q : StaId} (hq : q ≠ p) :
    (s.linkAsoc cfg p).sta q = s.sta q := by
  unfold linkAsoc
  split
  · rfl
  · simp [hq]

theorem unlinkAuth_eq (s : StaPriv) (p : StaId) :
    s.unlinkAuth p = { s with
      authList := s.authList.erase p
      authListCnt := if p ∈ s.authList then s.authListCnt - 1 else s.authListCnt } := by
  unfold unlinkAuth
  split
  · rfl
  · next hp => rw [List.erase_of_not_mem hp]

theorem rtwFreeStainfo_eq (s : StaPriv) (p : StaId) : ∃ sta aid,
    s.rtwFreeStainfo p = { s.unlinkAuth p with
      table := s.table.rtwFreeStainfo p
      sta := Function.update s.sta p sta
      aid := aid } := by
  simp only [rtwFreeStainfo, unlinkAuth_eq, setSta, Function.update_idem]
  exact ⟨_, _, rfl⟩

theorem Lists.rtwFreeStainfo {s : StaPriv} (h : s.Lists) {p : StaId} (hasoc : p ∉ s.asocList) :
    (s.rtwFreeStainfo p).Lists := by
  have hun := h.unlinkAuth p
  obtain ⟨sta, aid, heq⟩ := s.rtwFreeStainfo_eq p
  rw [heq]
  refine ⟨hun.authCnt, hun.asocCnt, hun.authNodup, hun.asocNodup, hun.apart, ?_, ?_⟩
  · intro q hq
    obtain ⟨hq, hne⟩ := h.mem_unlinkAuth.mp hq
    exact (mem_allocated_free s.table p q).mpr ⟨h.authAllocated q hq, hne⟩
  · intro q hq
    simp only [unlinkAuth_asocList] at hq
    refine (mem_allocated_free s.table p q).mpr ⟨h.asocAllocated q hq, ?_⟩
    rintro rfl
    exact hasoc hq

theorem sound_setSta_iff {s : StaPriv} (h : s.Lists) {p : StaId} (hbut : s.AssociatedBut p)
    (hp : p ∈ s.table.allocated) (sta : StaInfo) :
    (s.setSta p sta).Sound ↔ (sta.state.assocSuccess = true → p ∈ s.asocList) := by
  constructor
  · intro hsound hsuccess
    exact hsound.associated p hp (by simpa using hsuccess)
  · intro hlisted
    refine ⟨h.setSta p sta, fun q hq hsuccess => ?_⟩
    cases Decidable.em (q = p) with
    | inl hqp =>
      subst hqp
      exact hlisted (by simpa using hsuccess)
    | inr hqp => exact hbut q hq hqp (by simpa [hqp] using hsuccess)

theorem sound_free_iff {s : StaPriv} (h : s.Lists) {p : StaId} (hbut : s.AssociatedBut p) :
    (s.rtwFreeStainfo p).Sound ↔ p ∉ s.asocList := by
  obtain ⟨sta, aid, heq⟩ := s.rtwFreeStainfo_eq p
  constructor
  · intro hsound hmem
    have hlisted := hsound.lists.asocAllocated p
    rw [heq] at hlisted
    simp only [unlinkAuth_asocList] at hlisted
    exact ((mem_allocated_free s.table p p).mp (hlisted hmem)).2 rfl
  · intro hasoc
    refine ⟨h.rtwFreeStainfo hasoc, ?_⟩
    rw [heq]
    intro q hq hsuccess
    obtain ⟨hq, hne⟩ := (mem_allocated_free s.table p q).mp hq
    simp only [Function.update_of_ne hne] at hsuccess
    simp only [unlinkAuth_asocList]
    exact hbut q hq hne hsuccess

theorem AssociatedBut.setSta {s : StaPriv} {p : StaId} (h : s.AssociatedBut p) (sta : StaInfo) :
    (s.setSta p sta).AssociatedBut p := by
  intro q hq hne hsuccess
  exact h q hq hne (by simpa [hne] using hsuccess)

theorem AssociatedBut.linkAuth {s : StaPriv} {p : StaId} (h : s.AssociatedBut p) :
    (s.linkAuth p).AssociatedBut p := by
  intro q hq hne hsuccess
  simp only [linkAuth_table, linkAuth_sta, linkAuth_asocList] at hq hsuccess ⊢
  exact h q hq hne hsuccess

theorem AssociatedBut.unlinkAsoc {s : StaPriv} (hlists : s.Lists) {p : StaId}
    (h : s.AssociatedBut p) : (s.unlinkAsoc p).AssociatedBut p := by
  intro q hq hne hsuccess
  simp only [unlinkAsoc_table, unlinkAsoc_sta] at hq hsuccess
  exact hlists.mem_unlinkAsoc.mpr ⟨h q hq hne hsuccess, hne⟩

theorem AssociatedBut.unlinkAuth {s : StaPriv} {p : StaId} (h : s.AssociatedBut p) :
    (s.unlinkAuth p).AssociatedBut p := by
  intro q hq hne hsuccess
  simp only [unlinkAuth_table, unlinkAuth_sta, unlinkAuth_asocList] at hq hsuccess ⊢
  exact h q hq hne hsuccess

theorem AssociatedBut.linkAsoc {s : StaPriv} {p : StaId} (h : s.AssociatedBut p) (cfg : ApCfg) :
    (s.linkAsoc cfg p).AssociatedBut p := by
  intro q hq hne hsuccess
  rw [linkAsoc_sta_ne s cfg hne] at hsuccess
  simp only [linkAsoc_table] at hq
  exact (s.mem_linkAsoc cfg).mpr (.inl (h q hq hne hsuccess))

inductive ListEvent where
  | auth (wep : Wep) (env : AuthEnv) (f : RxFrame)
  | assocReq (env : AssocEnv) (f : RxFrame)
  | deauth (f : RxFrame)
  | tick (env : TickEnv)
  | flush
  | stadel
  | key (mac : MacAddr)

def step (cfg : ApCfg) (bssid : MacAddr) (s : StaPriv) : ListEvent → StaPriv
  | .auth wep env f => (s.onAuth cfg wep env f).1
  | .assocReq env f => (s.onAssocReq cfg env f).1
  | .deauth f => s.onDeAuth bssid f
  | .tick env => s.expireTimeoutChk env
  | .flush => s.rtwStaFlush
  | .stadel => s.rtwStadelEventCallback
  | .key mac => s.setStaKey mac

def AuthHarmless (cfg : ApCfg) (wep : Wep) (env : AuthEnv) (s : StaPriv) (f : RxFrame) : Prop :=
  AuthHeard cfg wep env s f → ∀ p, s.table.rtwGetStainfo f.addr2 = some p →
    if unprotected (s.sta p) then
      AuthDelegated cfg wep env f ∨ AuthAccepted cfg wep f (s.sta p) →
        (s.sta p).state.assocSuccess = false
    else AuthDelegated cfg wep env f ∨ AuthAccepted cfg wep f (s.sta p) ∨ p ∉ s.asocList

def AssocHarmless (cfg : ApCfg) (env : AssocEnv) (s : StaPriv) (f : RxFrame) : Prop :=
  ∀ p, AssocHeard s f p → AssocGranted cfg env s f p →
    (s.sta p).bpairwiseKeyInstalled = true → ((s.sta p).flags.mfp || mfpOf cfg f) = true →
    p ∈ s.asocList

def LeaveHarmless (s : StaPriv) (ps : List StaId) : Prop :=
  ∀ p ∈ ps, (s.sta p).state.assocSuccess = false

def deadOf (env : TickEnv) (s : StaPriv) : List StaId :=
  s.asocList.filter fun p => env.dead p && (s.sta p).state.asoc

def deauthed (bssid : MacAddr) (s : StaPriv) (f : RxFrame) : List StaId :=
  s.asocList.filter fun p => f.addr3 = bssid ∧ s.table.rtwGetStainfo f.addr2 = some p

def Harmless (cfg : ApCfg) (bssid : MacAddr) (s : StaPriv) : ListEvent → Prop
  | .auth wep env f => AuthHarmless cfg wep env s f
  | .assocReq env f => AssocHarmless cfg env s f
  | .deauth f => s.LeaveHarmless (s.deauthed bssid f)
  | .tick env => env.underCac = false → s.LeaveHarmless (s.deadOf env)
  | .flush => s.LeaveHarmless s.asocList
  | .stadel => ∀ mac ∈ s.pendingDel.head?, ∀ p, s.table.rtwGetStainfo mac = some p →
      p ∉ s.asocList
  | .key _ => True

theorem Inv.found {s : StaPriv} (h : s.Inv) {mac : MacAddr} {p : StaId}
    (hget : s.table.rtwGetStainfo mac = some p) : p ∈ s.table.allocated := by
  obtain ⟨live, htracks⟩ := h.tracked
  rw [mem_allocated, htracks.split]
  exact fun hnone => hnone _ ((htracks.lookup mac p).mp hget) rfl

theorem tracked_grown {t t' : StaTable} {live : List (MacAddr × StaId)}
    (h : Tracks t live) {mac : MacAddr} {p : StaId} (hres : t.rtwAllocStainfo mac = (t', some p)) :
    p ∉ t.allocated ∧ ∀ q, q ∈ t'.allocated ↔ q ∈ t.allocated ∨ q = p := by
  unfold StaTable.rtwAllocStainfo at hres
  cases hqueue : t.freeStaQueue with
  | nil => simp [hqueue] at hres
  | cons psta rest =>
    rw [hqueue] at hres
    simp only [if_neg (not_le.mpr (wifiMacHash_lt mac)), Prod.mk.injEq, Option.some.injEq] at hres
    obtain ⟨rfl, rfl⟩ := hres
    have hnodup := h.freeNodup
    rw [hqueue, List.nodup_cons] at hnodup
    refine ⟨by simp [mem_allocated, hqueue], fun q => ?_⟩
    simp only [mem_allocated, hqueue, List.mem_cons, not_or]
    cases Decidable.em (q = psta) with
    | inl hq => simp [hq, hnodup.1]
    | inr hq => simp [hq]

theorem tracked_free {t : StaTable} (h : ∃ live, Tracks t live) {p : StaId}
    (hp : p ∈ t.allocated) : ∃ live, Tracks (t.rtwFreeStainfo p) live := by
  obtain ⟨live, htracks⟩ := h
  rw [mem_allocated, htracks.split] at hp
  push Not at hp
  obtain ⟨e, he, rfl⟩ := hp
  exact ⟨_, htracks.free he⟩

structure Fresh (s s' : StaPriv) (mac : MacAddr) (p : StaId) : Prop where
  lists : s'.Lists
  tracked : ∃ live, Tracks s'.table live
  unused : p ∉ s.table.allocated
  allocated : ∀ q, q ∈ s'.table.allocated ↔ q ∈ s.table.allocated ∨ q = p
  found : s'.table.rtwGetStainfo mac = some p
  sta : s'.sta = Function.update s.sta p .zero
  authList : s'.authList = s.authList
  asocList : s'.asocList = s.asocList

theorem alloc_fresh {s : StaPriv} (h : s.Lists) (htracked : ∃ live, Tracks s.table live)
    {mac : MacAddr} (hmac : isMcast mac = false) (hnone : s.table.rtwGetStainfo mac = none) :
    s.rtwAllocStainfo mac = (s, none) ∨
    ∃ p s', s.rtwAllocStainfo mac = (s', some p) ∧ Fresh s s' mac p := by
  obtain ⟨live, htracks⟩ := htracked
  have hkey : staKey mac = mac := by simp [staKey, hmac]
  have hnew : ∀ e ∈ live, e.1 ≠ mac := by
    rintro ⟨m, q⟩ he rfl
    have hget := (htracks.lookup m q).mpr (by rw [hkey]; exact he)
    rw [hnone] at hget
    cases hget
  have halloc := htracks.alloc hnew
  unfold rtwAllocStainfo
  cases hres : s.table.rtwAllocStainfo mac with
  | mk t' o =>
    rw [hres] at halloc
    cases o with
    | none =>
      left
      simp only [halloc.1]
    | some p =>
      right
      simp only at halloc
      obtain ⟨hfree, hgrown⟩ := tracked_grown htracks hres
      refine ⟨p, _, rfl, ⟨h.authCnt, h.asocCnt, h.authNodup, h.asocNodup, h.apart, ?_, ?_⟩,
        ⟨_, halloc⟩, hfree, hgrown, ?_, rfl, rfl, rfl⟩
      · exact fun q hq => (hgrown q).mpr (.inl (h.authAllocated q hq))
      · exact fun q hq => (hgrown q).mpr (.inl (h.asocAllocated q hq))
      · refine (halloc.lookup mac p).mpr ?_
        rw [hkey]
        exact List.mem_cons_self ..

theorem Fresh.sound {s s' : StaPriv} {mac : MacAddr} {p : StaId} (h : Fresh s s' mac p)
    (hsound : s.Sound) : s'.Sound := by
  refine ⟨h.lists, fun q hq hsuccess => ?_⟩
  rw [h.sta] at hsuccess
  rw [h.asocList]
  rcases (h.allocated q).mp hq with hold | rfl
  · have hne : q ≠ p := by
      rintro rfl
      exact h.unused hold
    exact hsound.associated q hold (by simpa [hne] using hsuccess)
  · simp [StaInfo.zero, StaState.zero] at hsuccess

theorem rtwFreeStainfo_table (s : StaPriv) (p : StaId) :
    (s.rtwFreeStainfo p).table = s.table.rtwFreeStainfo p := by
  obtain ⟨sta, aid, heq⟩ := s.rtwFreeStainfo_eq p
  rw [heq]

structure Entered (cfg : ApCfg) (wep : Wep) (env : AuthEnv) (f : RxFrame) (e : StaPriv)
    (p : StaId) (sta : StaInfo) (r : StaPriv) : Prop where
  kept : AuthDelegated cfg wep env f ∨ AuthAccepted cfg wep f sta →
    ∃ x : StaInfo, x.state.assocSuccess = sta.state.assocSuccess ∧ r = e.setSta p x
  freed : ¬ (AuthDelegated cfg wep env f ∨ AuthAccepted cfg wep f sta) →
    ∃ x, r = (e.setSta p x).rtwFreeStainfo p

theorem authVerdict_assocSuccess (cfg : ApCfg) (wep : Wep) (f : RxFrame) (sta : StaInfo) :
    (authVerdict cfg wep f sta).1.state.assocSuccess = sta.state.assocSuccess := by
  unfold authVerdict openSuccess issueChallenge challengeSuccess
  simp only
  split_ifs <;> rfl

theorem authSta_entered (cfg : ApCfg) (wep : Wep) (env : AuthEnv) (s : StaPriv) (f : RxFrame)
    (p : StaId) : Entered cfg wep env f (if unprotected (s.sta p) then s.linkAuth p else s) p
      (s.sta p) (s.authSta cfg wep env f p).1 := by
  obtain ⟨t, ⟨hdelegated, heq⟩ | ⟨hdelegated, haccepted, heq⟩ | ⟨hdelegated, haccepted, status,
    heq⟩⟩ := s.authSta_cases cfg wep env f p
  · rw [heq]
    refine ⟨fun _ => ⟨_, ?_, rfl⟩, fun hno => absurd (.inl hdelegated) hno⟩
    rfl
  · rw [heq]
    refine ⟨fun _ => ⟨_, ?_, rfl⟩, fun hno => absurd (.inr haccepted) hno⟩
    exact authVerdict_assocSuccess ..
  · rw [heq]
    exact ⟨fun hkept => (hkept.elim hdelegated haccepted).elim, fun _ => ⟨_, rfl⟩⟩

theorem Entered.sound {cfg : ApCfg} {wep : Wep} {env : AuthEnv} {f : RxFrame} {e r : StaPriv}
    {p : StaId} {sta : StaInfo} (h : Entered cfg wep env f e p sta r) (hlists : e.Lists)
    (hbut : e.AssociatedBut p) (hp : p ∈ e.table.allocated)
    (htracked : ∃ live, Tracks e.table live) :
    (r.Sound ↔ if AuthDelegated cfg wep env f ∨ AuthAccepted cfg wep f sta then
      sta.state.assocSuccess = true → p ∈ e.asocList else p ∉ e.asocList) ∧
    ∃ live, Tracks r.table live := by
  split
  · next hkept =>
    obtain ⟨x, hsuccess, rfl⟩ := h.kept hkept
    rw [sound_setSta_iff hlists hbut hp, hsuccess]
    exact ⟨Iff.rfl, htracked⟩
  · next hkept =>
    obtain ⟨x, rfl⟩ := h.freed hkept
    rw [sound_free_iff (hlists.setSta p x) (hbut.setSta x), rtwFreeStainfo_table]
    exact ⟨Iff.rfl, tracked_free htracked hp⟩

theorem onAuth_sound {s : StaPriv} (h : s.Inv) (cfg : ApCfg) (wep : Wep) (env : AuthEnv)
    (f : RxFrame) : ((s.onAuth cfg wep env f).1.Sound ↔ AuthHarmless cfg wep env s f) ∧
      ∃ live, Tracks (s.onAuth cfg wep env f).1.table live := by
  rcases s.onAuth_cases cfg wep env f with ⟨hheard, heq⟩ | ⟨hheard, heq⟩
  · rw [heq]
    have hmcast : isMcast f.addr2 = false := by
      have haddr := hheard.addr
      simp only [rtwCheckInvalidMacAddress, Bool.or_eq_false_iff] at haddr
      exact haddr.2
    unfold admitSta
    cases hget : s.table.rtwGetStainfo f.addr2 with
    | none =>
      have hvacuous : AuthHarmless cfg wep env s f := fun _ p hp => by simp [hget] at hp
      rcases alloc_fresh h.sound.lists h.tracked hmcast hget with
        halloc | ⟨p, s', halloc, hfresh⟩
      · rw [halloc]
        exact ⟨iff_of_true h.sound hvacuous, h.tracked⟩
      · simp only [halloc]
        have hp : p ∈ s'.table.allocated := (hfresh.allocated p).mpr (.inr rfl)
        have hasoc : p ∉ s'.asocList := fun hmem =>
          hfresh.unused (h.sound.lists.asocAllocated p (hfresh.asocList ▸ hmem))
        have hzero : s'.sta p = .zero := by simp [hfresh.sta]
        have hent := (s'.setSta p { s'.sta p with
          state := { StaState.zero with authNull := true }, authSeq := 0 }).authSta_entered
            cfg wep env f p
        have hopen : unprotected { s'.sta p with
            state := { StaState.zero with authNull := true }, authSeq := 0 } = true := by
          rw [hzero]
          rfl
        simp only [setSta_sta, Function.update_self, hopen, if_true] at hent
        obtain ⟨hsound, htracked⟩ := hent.sound ((hfresh.lists.setSta p _).linkAuth hp hasoc)
          (((hfresh.sound h.sound).but p).setSta _).linkAuth (by simpa using hp)
          (by simpa using hfresh.tracked)
        refine ⟨iff_of_true (hsound.mpr ?_) hvacuous, htracked⟩
        split
        · exact fun hsuccess => nomatch hsuccess
        · simpa using hasoc
    | some p =>
      have hp := h.found hget
      have hharmless : AuthHarmless cfg wep env s f ↔
          if unprotected (s.sta p) then
            AuthDelegated cfg wep env f ∨ AuthAccepted cfg wep f (s.sta p) →
              (s.sta p).state.assocSuccess = false
          else AuthDelegated cfg wep env f ∨ AuthAccepted cfg wep f (s.sta p) ∨
            p ∉ s.asocList := by
        constructor
        · exact fun hall => hall hheard p hget
        · intro hone _ q hq
          rw [hget] at hq
          cases hq
          exact hone
      rw [hharmless]
      cases Decidable.em (unprotected (s.sta p) = true) with
      | inl hun =>
        have hent := (s.unlinkAsoc p).authSta_entered cfg wep env f p
        have hout : p ∉ (s.unlinkAsoc p).asocList := fun hmem =>
          (h.sound.lists.mem_unlinkAsoc.mp hmem).2 rfl
        simp only [unlinkAsoc_sta, hun, if_true] at hent ⊢
        obtain ⟨hsound, htracked⟩ := hent.sound
          ((h.sound.lists.unlinkAsoc p).linkAuth (by simpa using hp) hout)
          ((h.sound.but p).unlinkAsoc h.sound.lists).linkAuth (by simpa using hp)
          (by simpa using h.tracked)
        refine ⟨hsound.trans ?_, htracked⟩
        split
        · next hkept =>
          simp only [linkAuth_asocList, hkept, true_imp_iff]
          simp [hout]
        · next hkept =>
          simp only [linkAuth_asocList]
          exact iff_of_true hout fun hyes => absurd hyes hkept
      | inr hun =>
        have hent := s.authSta_entered cfg wep env f p
        simp only [if_neg hun] at hent ⊢
        obtain ⟨hsound, htracked⟩ := hent.sound h.sound.lists (h.sound.but p) hp h.tracked
        refine ⟨hsound.trans ?_, htracked⟩
        rw [← or_assoc]
        split
        · next hkept => exact iff_of_true (h.sound.associated p hp) (.inl hkept)
        · next hkept => exact (or_iff_right hkept).symm
  · rw [heq]
    exact ⟨iff_of_true h.sound fun hyes => absurd hyes hheard, h.tracked⟩

theorem beginAssoc_assocSuccess {sta : StaInfo}
    (h : (beginAssoc sta).state.assocSuccess = true) : sta.state.assocSuccess = true := by
  unfold beginAssoc at h
  split at h
  · exact h
  · cases h

theorem assocChecks_state (cfg : ApCfg) (env : AssocEnv) (f : RxFrame) (sta : StaInfo) :
    (assocChecks cfg env f sta).1.state = sta.state :=
  congrArg Interlude.state (assocChecks_interlude cfg env f sta)

theorem assocChecks_key (cfg : ApCfg) (env : AssocEnv) (f : RxFrame) (sta : StaInfo) :
    (assocChecks cfg env f (beginAssoc sta)).1.bpairwiseKeyInstalled =
      sta.bpairwiseKeyInstalled := by
  refine (congrArg Interlude.bpairwiseKeyInstalled
    (assocChecks_interlude cfg env f (beginAssoc sta))).trans ?_
  unfold beginAssoc
  split <;> rfl

theorem assocChecks_unprotected {cfg : ApCfg} {env : AssocEnv} {f : RxFrame} {sta : StaInfo}
    (h : (assocChecks cfg env f (beginAssoc sta)).2 = statsSuccessful) :
    unprotected (assocChecks cfg env f (beginAssoc sta)).1 = true ↔
      ¬ (sta.bpairwiseKeyInstalled = true ∧ (sta.flags.mfp || mfpOf cfg f) = true) := by
  have hkey := assocChecks_key cfg env f sta
  obtain ⟨alg, psk, ie, heq⟩ := assocChecks_success h
  have hmfp : (assocChecks cfg env f (beginAssoc sta)).1.flags.mfp =
      (sta.flags.mfp || mfpOf cfg f) := by
    rw [heq]
    unfold beginAssoc
    split <;> rfl
  unfold unprotected
  rw [hkey, hmfp]
  cases sta.bpairwiseKeyInstalled <;> cases sta.flags.mfp <;> cases mfpOf cfg f <;> simp

theorem enterBss_eq (cfg : ApCfg) (env : AssocEnv) (s : StaPriv) (p : StaId) :
    ∃ status, s.enterBss cfg env p =
      if unprotected (s.sta p) then
        let r := ((s.setSta p (finishAssoc (s.sta p))).unlinkAuth p).linkAsoc cfg p
        (r.setSta p (staInfoUpdate cfg (r.sta p)), [.asocRsp status (s.aid.aid p)])
      else (s.setSta p (finishAssoc (s.sta p)), [.asocRsp status (s.aid.aid p), .saQuery]) := by
  have hfinish : unprotected (finishAssoc (s.sta p)) = unprotected (s.sta p) := rfl
  unfold enterBss
  simp only [setSta_sta, Function.update_self, hfinish]
  split
  · exact ⟨_, by simp; rfl⟩
  · exact ⟨_, rfl⟩

theorem enterBss_sound {s : StaPriv} {p : StaId} (hlists : s.Lists) (hbut : s.AssociatedBut p)
    (hp : p ∈ s.table.allocated) (htracked : ∃ live, Tracks s.table live) (cfg : ApCfg)
    (env : AssocEnv) :
    ((s.enterBss cfg env p).1.Sound ↔ unprotected (s.sta p) = true ∨ p ∈ s.asocList) ∧
      ∃ live, Tracks (s.enterBss cfg env p).1.table live := by
  obtain ⟨status, heq⟩ := s.enterBss_eq cfg env p
  rw [heq]
  have hfinished := hlists.setSta p (finishAssoc (s.sta p))
  split
  · next hfree =>
    simp only
    have hlinked := (hfinished.unlinkAuth p).linkAsoc cfg (p := p) (by simpa using hp)
      fun hmem => (hfinished.mem_unlinkAuth.mp hmem).2 rfl
    rw [sound_setSta_iff hlinked ((hbut.setSta (finishAssoc (s.sta p))).unlinkAuth.linkAsoc cfg)
      (by simpa using hp)]
    refine ⟨iff_of_true (fun _ => (mem_linkAsoc _ cfg).mpr (.inr rfl)) (.inl hfree), ?_⟩
    simpa using htracked
  · next hprotected =>
    refine ⟨(sound_setSta_iff hlists hbut hp (finishAssoc (s.sta p))).trans ?_, htracked⟩
    rw [or_iff_right hprotected]
    exact ⟨fun hin => hin rfl, fun hin _ => hin⟩

theorem onAssocReq_sound {s : StaPriv} (h : s.Inv) (cfg : ApCfg) (env : AssocEnv) (f : RxFrame) :
    ((s.onAssocReq cfg env f).1.Sound ↔ AssocHarmless cfg env s f) ∧
      ∃ live, Tracks (s.onAssocReq cfg env f).1.table live := by
  rcases s.onAssocReq_cases cfg env f with ⟨p, hheard, heq⟩ | ⟨hheard, heq⟩
  · rw [heq]
    have hp := h.found hheard.found
    have hsame : ∀ q, AssocHeard s f q → q = p := fun q hq =>
      Option.some.inj (hq.found.symm.trans hheard.found)
    rcases s.assocSta_cases cfg env f p with
      ⟨hgranted, hsta⟩ | ⟨hgranted, aid, sta, answers, hstate, -, hsta⟩
    · have hharmless : AssocHarmless cfg env s f ↔
          ((s.sta p).bpairwiseKeyInstalled = true ∧
            ((s.sta p).flags.mfp || mfpOf cfg f) = true → p ∈ s.asocList) := by
        constructor
        · exact fun hall hboth => hall p hheard hgranted hboth.1 hboth.2
        · intro hone q hq _ hkey hmfp
          obtain rfl := hsame q hq
          exact hone ⟨hkey, hmfp⟩
      rw [hsta, hharmless]
      obtain ⟨aid, haid⟩ : ∃ aid, ((s.setSta p
          (assocChecks cfg env f (beginAssoc (s.sta p))).1).assignAid p).1 =
          { s.setSta p (assocChecks cfg env f (beginAssoc (s.sta p))).1 with aid := aid } :=
        ⟨_, rfl⟩
      have hun := assocChecks_unprotected hgranted.checks
      generalize (assocChecks cfg env f (beginAssoc (s.sta p))).1 = c at haid hun
      rw [haid]
      have hlists := (h.sound.lists.setSta p c).withAid aid
      have hbut : AssociatedBut { s.setSta p c with aid := aid } p := (h.sound.but p).setSta c
      obtain ⟨hsound, htracked⟩ := enterBss_sound hlists hbut hp h.tracked cfg env
      refine ⟨hsound.trans ?_, htracked⟩
      simp only [setSta_sta, Function.update_self, setSta_asocList]
      rw [hun]
      exact imp_iff_not_or.symm
    · rw [hsta]
      refine ⟨iff_of_true ?_ ?_, h.tracked⟩
      · have hkept := (sound_setSta_iff h.sound.lists (h.sound.but p) hp sta).mpr ?_
        · exact ⟨hkept.lists.withAid aid, hkept.associated⟩
        · intro hsuccess
          refine h.sound.associated p hp (beginAssoc_assocSuccess ?_)
          rcases hstate with rfl | rfl
          · exact hsuccess
          · rwa [assocChecks_state] at hsuccess
      · intro q hq hgrant
        rw [hsame q hq] at hgrant
        exact absurd hgrant hgranted
  · have hnone : AssocHarmless cfg env s f := fun q hq => absurd hq (hheard q)
    rcases heq with heq | heq
    · rw [heq]
      exact ⟨iff_of_true h.sound hnone, h.tracked⟩
    · rw [heq]
      exact ⟨iff_of_true h.sound hnone, h.tracked⟩

theorem foldl_unlinkAsoc {s : StaPriv} (h : s.Lists) (ps : List StaId) :
    (ps.foldl unlinkAsoc s).Lists ∧ (ps.foldl unlinkAsoc s).table = s.table ∧
      (ps.foldl unlinkAsoc s).sta = s.sta ∧
      ∀ q, q ∈ (ps.foldl unlinkAsoc s).asocList ↔ q ∈ s.asocList ∧ q ∉ ps := by
  induction ps generalizing s with
  | nil => simpa using h
  | cons p ps ih =>
    obtain ⟨hlists, htable, hsta, hmem⟩ := ih (h.unlinkAsoc p)
    refine ⟨hlists, by simpa using htable, by simpa using hsta, fun q => ?_⟩
    rw [List.foldl_cons, hmem, h.mem_unlinkAsoc, List.mem_cons, not_or, and_assoc]

theorem foldl_apFreeSta {s : StaPriv} (h : s.Lists) (ps : List StaId) :
    (ps.foldl apFreeSta s).Lists ∧ (ps.foldl apFreeSta s).table = s.table ∧
      (ps.foldl apFreeSta s).asocList = s.asocList ∧
      ∀ q, ((ps.foldl apFreeSta s).sta q).state.assocSuccess =
        (s.sta q).state.assocSuccess := by
  induction ps generalizing s with
  | nil => exact ⟨h, rfl, rfl, fun _ => rfl⟩
  | cons p ps ih =>
    have hfreed : (s.apFreeSta p).Lists :=
      ⟨h.authCnt, h.asocCnt, h.authNodup, h.asocNodup, h.apart, h.authAllocated, h.asocAllocated⟩
    obtain ⟨hlists, htable, hasoc, hsuccess⟩ := ih hfreed
    refine ⟨hlists, htable, hasoc, fun q => (hsuccess q).trans ?_⟩
    cases Decidable.em (q = p) with
    | inl hq =>
      subst hq
      simp [apFreeSta]
    | inr hq => simp [apFreeSta, hq]

theorem leave_sound {s : StaPriv} (h : s.Inv) {ps : List StaId} (hps : ∀ p ∈ ps, p ∈ s.asocList) :
    ((ps.foldl apFreeSta (ps.foldl unlinkAsoc s)).Sound ↔ s.LeaveHarmless ps) ∧
      ∃ live, Tracks (ps.foldl apFreeSta (ps.foldl unlinkAsoc s)).table live := by
  obtain ⟨hunlinked, htable, hsta, hmem⟩ := foldl_unlinkAsoc h.sound.lists ps
  obtain ⟨hlists, htable', hasoc, hsuccess⟩ := foldl_apFreeSta hunlinked ps
  rw [htable', htable]
  refine ⟨?_, h.tracked⟩
  constructor
  · intro hsound p hp
    have hlisted := hsound.associated p
    rw [htable', htable, hsuccess, hsta, hasoc, hmem] at hlisted
    by_contra hne
    have hallocated := h.sound.lists.asocAllocated p (hps p hp)
    exact (hlisted hallocated (by simpa using hne)).2 hp
  · intro hharmless
    refine ⟨hlists, fun q hq hassoc => ?_⟩
    rw [htable', htable] at hq
    rw [hsuccess, hsta] at hassoc
    rw [hasoc, hmem]
    refine ⟨h.sound.associated q hq hassoc, fun hin => ?_⟩
    rw [hharmless q hin] at hassoc
    cases hassoc

theorem onDeAuth_sound {s : StaPriv} (h : s.Inv) (bssid : MacAddr) (f : RxFrame) :
    ((s.onDeAuth bssid f).Sound ↔ s.LeaveHarmless (s.deauthed bssid f)) ∧
      ∃ live, Tracks (s.onDeAuth bssid f).table live := by
  have hnone : (∀ p ∈ s.asocList, ¬ (f.addr3 = bssid ∧ s.table.rtwGetStainfo f.addr2 = some p)) →
      s.LeaveHarmless (s.deauthed bssid f) := by
    intro hno p hp
    simp only [deauthed, List.mem_filter, decide_eq_true_eq] at hp
    exact absurd hp.2 (hno p hp.1)
  unfold onDeAuth
  split
  · next hbssid => exact ⟨iff_of_true h.sound (hnone fun p _ hp => hbssid hp.1), h.tracked⟩
  · next hbssid =>
    rw [not_not] at hbssid
    cases hget : s.table.rtwGetStainfo f.addr2 with
    | none => exact ⟨iff_of_true h.sound (hnone fun p _ hp => by simp [hget] at hp), h.tracked⟩
    | some p =>
      simp only
      split
      · next hp =>
        obtain ⟨hsound, htracked⟩ := @StaPriv.leave_sound _ h ([p]) (by simpa using hp)
        refine ⟨hsound.trans ?_, htracked⟩
        simp only [LeaveHarmless, deauthed, List.mem_filter, List.mem_singleton, hbssid, hget,
          Option.some.injEq, true_and, decide_eq_true_eq]
        constructor
        · rintro hone q ⟨-, rfl⟩
          exact hone p rfl
        · rintro hall q rfl
          exact hall q ⟨hp, rfl⟩
      · next hp =>
        refine ⟨iff_of_true h.sound (hnone fun q hq hboth => hp ?_), h.tracked⟩
        rw [hget] at hboth
        exact Option.some.inj hboth.2 ▸ hq

theorem rtwStadelEventCallback_sound {s : StaPriv} (h : s.Inv) :
    (s.rtwStadelEventCallback.Sound ↔ ∀ mac ∈ s.pendingDel.head?, ∀ p,
      s.table.rtwGetStainfo mac = some p → p ∉ s.asocList) ∧
      ∃ live, Tracks s.rtwStadelEventCallback.table live := by
  unfold rtwStadelEventCallback
  cases hdel : s.pendingDel with
  | nil => exact ⟨iff_of_true h.sound (by simp), h.tracked⟩
  | cons mac rest =>
    have hrest : Inv { s with pendingDel := rest } :=
      ⟨⟨⟨h.sound.lists.authCnt, h.sound.lists.asocCnt, h.sound.lists.authNodup,
        h.sound.lists.asocNodup, h.sound.lists.apart, h.sound.lists.authAllocated,
        h.sound.lists.asocAllocated⟩, h.sound.associated⟩, h.tracked⟩
    cases hget : s.table.rtwGetStainfo mac with
    | none =>
      simp only [hget]
      exact ⟨iff_of_true hrest.sound (by simp [hget]), h.tracked⟩
    | some p =>
      simp only [hget]
      rw [sound_free_iff hrest.sound.lists (hrest.sound.but p), rtwFreeStainfo_table]
      refine ⟨by simp [hget], tracked_free h.tracked (h.found hget)⟩

theorem Inv.withSta {s : StaPriv} (h : s.Inv) {sta : StaId → StaInfo}
    (hsta : ∀ q, (sta q).state = (s.sta q).state) : Inv { s with sta := sta } := by
  refine ⟨⟨⟨h.sound.lists.authCnt, h.sound.lists.asocCnt, h.sound.lists.authNodup,
    h.sound.lists.asocNodup, h.sound.lists.apart, h.sound.lists.authAllocated,
    h.sound.lists.asocAllocated⟩, fun q hq hsuccess => ?_⟩, h.tracked⟩
  exact h.sound.associated q hq (by rwa [hsta] at hsuccess)

theorem foldl_expireTo (g : StaPriv → StaId → ℕ) (ps : List StaId) (s : StaPriv) :
    ∃ sta : StaId → StaInfo, (∀ q, (sta q).state = (s.sta q).state) ∧
      ps.foldl (fun s p => s.setSta p { s.sta p with expireTo := g s p }) s =
        { s with sta := sta } := by
  induction ps generalizing s with
  | nil => exact ⟨s.sta, fun _ => rfl, rfl⟩
  | cons p ps ih =>
    obtain ⟨sta, hstate, heq⟩ := ih (s.setSta p { s.sta p with expireTo := g s p })
    refine ⟨sta, fun q => (hstate q).trans ?_, heq⟩
    cases Decidable.em (q = p) with
    | inl hq =>
      subst hq
      simp
    | inr hq => simp [hq]

theorem foldl_rtwFreeStainfo {s : StaPriv} (h : s.Inv) {ps : List StaId} (hnodup : ps.Nodup)
    (hps : ∀ p ∈ ps, p ∈ s.authList) :
    (ps.foldl rtwFreeStainfo s).Inv ∧ (ps.foldl rtwFreeStainfo s).asocList = s.asocList ∧
      ∀ q ∈ s.asocList, (ps.foldl rtwFreeStainfo s).sta q = s.sta q := by
  induction ps generalizing s with
  | nil => exact ⟨h, rfl, fun _ _ => rfl⟩
  | cons p ps ih =>
    rw [List.nodup_cons] at hnodup
    have hp := hps p (List.mem_cons_self ..)
    have hasoc := h.sound.lists.apart p hp
    have hfreed : (s.rtwFreeStainfo p).Inv := by
      refine ⟨(sound_free_iff h.sound.lists (h.sound.but p)).mpr hasoc, ?_⟩
      rw [rtwFreeStainfo_table]
      exact tracked_free h.tracked (h.sound.lists.authAllocated p hp)
    obtain ⟨sta, aid, heq⟩ := s.rtwFreeStainfo_eq p
    have hrest : ∀ q ∈ ps, q ∈ (s.rtwFreeStainfo p).authList := by
      intro q hq
      rw [heq]
      refine h.sound.lists.mem_unlinkAuth.mpr ⟨hps q (List.mem_cons_of_mem _ hq), ?_⟩
      rintro rfl
      exact hnodup.1 hq
    obtain ⟨hinv, hlist, hsta⟩ := ih hfreed hnodup.2 hrest
    have hsame : (s.rtwFreeStainfo p).asocList = s.asocList := by
      rw [heq]
      exact unlinkAuth_asocList s p
    refine ⟨hinv, hlist.trans hsame, fun q hq => (hsta q (hsame ▸ hq)).trans ?_⟩
    have hne : q ≠ p := by
      rintro rfl
      exact hasoc hq
    rw [heq]
    exact Function.update_of_ne hne ..

theorem expireAuth_inv {s : StaPriv} (h : s.Inv) :
    s.expireAuth.Inv ∧ s.expireAuth.asocList = s.asocList ∧
      ∀ q ∈ s.asocList, (s.expireAuth.sta q).state = (s.sta q).state := by
  unfold expireAuth
  obtain ⟨sta, hstate, heq⟩ := foldl_expireTo (fun s p => (s.sta p).expireTo - 1) s.authList s
  simp only [heq]
  obtain ⟨hinv, hlist, hsta⟩ := foldl_rtwFreeStainfo (h.withSta hstate)
    (h.sound.lists.authNodup.filter fun p => decide ((s.sta p).expireTo = 1))
    fun p hp => List.mem_of_mem_filter hp
  exact ⟨hinv, hlist, fun q hq => (congrArg StaInfo.state (hsta q hq)).trans (hstate q)⟩

theorem expireAsoc_sound {s : StaPriv} (h : s.Inv) (env : TickEnv) :
    ((s.expireAsoc env).Sound ↔ s.LeaveHarmless (s.deadOf env)) ∧
      ∃ live, Tracks (s.expireAsoc env).table live := by
  unfold expireAsoc
  obtain ⟨sta, hstate, heq⟩ := foldl_expireTo (fun _ p => env.expireTo p) s.asocList s
  simp only [heq]
  obtain ⟨hsound, htracked⟩ := @StaPriv.leave_sound _ (h.withSta hstate)
    (s.asocList.filter fun p => env.dead p && (sta p).state.asoc)
    fun p hp => List.mem_of_mem_filter hp
  refine ⟨hsound.trans ?_, htracked⟩
  simp only [LeaveHarmless, deadOf, hstate]

theorem expireTimeoutChk_sound {s : StaPriv} (h : s.Inv) (env : TickEnv) :
    ((s.expireTimeoutChk env).Sound ↔ (env.underCac = false → s.LeaveHarmless (s.deadOf env))) ∧
      ∃ live, Tracks (s.expireTimeoutChk env).table live := by
  unfold expireTimeoutChk
  split
  · next hcac => exact ⟨iff_of_true h.sound fun hno => by simp [hcac] at hno, h.tracked⟩
  · next hcac =>
    obtain ⟨hinv, hlist, hstate⟩ := expireAuth_inv h
    obtain ⟨hsound, htracked⟩ := expireAsoc_sound hinv env
    refine ⟨hsound.trans ?_, htracked⟩
    have hdead : ∀ p, p ∈ s.expireAuth.deadOf env ↔ p ∈ s.deadOf env := by
      intro p
      simp only [deadOf, List.mem_filter, hlist]
      refine and_congr_right fun hp => ?_
      rw [hstate p hp]
    have hoff : env.underCac = false := by simpa using hcac
    rw [hoff, eq_self, true_imp_iff]
    constructor
    · intro hall p hp
      have hsuccess := hall p ((hdead p).mpr hp)
      rwa [hstate p (List.mem_of_mem_filter hp)] at hsuccess
    · intro hall p hp
      have hold := (hdead p).mp hp
      rw [hstate p (List.mem_of_mem_filter hold)]
      exact hall p hold

theorem setStaKey_inv {s : StaPriv} (h : s.Inv) (mac : MacAddr) : (s.setStaKey mac).Inv := by
  unfold setStaKey
  split
  · exact h
  · next p hget =>
    refine h.withSta fun q => ?_
    cases Decidable.em (q = p) with
    | inl hq =>
      subst hq
      simp
    | inr hq => simp [hq]

theorem step_sound (cfg : ApCfg) (bssid : MacAddr) (s : StaPriv) (e : ListEvent) (h : s.Inv) :
    ((s.step cfg bssid e).Sound ↔ s.Harmless cfg bssid e) ∧
      ∃ live, Tracks (s.step cfg bssid e).table live := by
  cases e with
  | auth wep env f => exact onAuth_sound h cfg wep env f
  | assocReq env f => exact onAssocReq_sound h cfg env f
  | deauth f => exact onDeAuth_sound h bssid f
  | tick env => exact expireTimeoutChk_sound h env
  | flush => exact leave_sound h fun p hp => hp
  | stadel => exact rtwStadelEventCallback_sound h
  | key mac => exact ⟨iff_of_true (setStaKey_inv h mac).sound trivial, (setStaKey_inv h mac).tracked⟩

theorem init_inv (maxAid maxNumSta : ℕ) : (init maxAid maxNumSta).Inv := by
  have halloc := @Tracks.alloc _ _ Tracks.init bcAddr (by simp)
  refine ⟨⟨⟨rfl, rfl, List.nodup_nil, List.nodup_nil, by simp [init], by simp [init],
    by simp [init]⟩, fun q _ hsuccess => ?_⟩, ?_⟩
  · simp [init, StaInfo.zero, StaState.zero] at hsuccess
  · unfold init
    cases hres : StaTable.init.rtwAllocStainfo bcAddr with
    | mk t o =>
      rw [hres] at halloc
      cases o with
      | none => exact ⟨[], halloc.1 ▸ Tracks.init⟩
      | some p => exact ⟨_, halloc⟩

def authRequest (algorithm seq : UInt8) : RxFrame where
  data i := ([0xb0, 0, 0, 0] ++ List.replicate 6 0 ++ [2, 0, 0, 0, 0, 1] ++ List.replicate 8 0 ++
    [algorithm, 0, seq, 0, 0, 0]).getD i 0
  len := 30

def openWep : Wep where
  decrypt f := f.data
  icvCorrect _ := true

def quietAuth : AuthEnv where
  mlmeIsAsoc := true
  attackChk := false
  forceAuthFail := 0
  accessAllowed := true
  reportAuth := false

def associatedProtected : List ListEvent :=
  [.auth openWep quietAuth (authRequest 0 1), .assocReq quietAssoc (rsnRequest 0x80),
    .key (localAddr 1)]

def authenticatedAgain : List ListEvent :=
  [.auth openWep quietAuth (authRequest 0 1), .assocReq quietAssoc (rsnRequest 0),
    .auth openWep quietAuth (authRequest 0 1)]

def after (es : List ListEvent) : StaPriv :=
  Run.exec (step mfpCapableCfg (Vector.replicate 6 0)) (init 16 16) es

def firstSta : StaId := ⟨1, by decide⟩

def staAddr : MacAddr := localAddr 1

theorem authRequest_addr (algorithm seq : UInt8) : (authRequest algorithm seq).addr2 = staAddr :=
  rfl

theorem Inv.stepped {cfg : ApCfg} {bssid : MacAddr} {s : StaPriv} {e : ListEvent} (h : s.Inv)
    (hharmless : Harmless cfg bssid s e) : (s.step cfg bssid e).Inv :=
  ⟨(step_sound cfg bssid s e h).1.mpr hharmless, (step_sound cfg bssid s e h).2⟩

theorem Inv.after {es : List ListEvent} {e : ListEvent} (h : (after es).Inv)
    (hharmless : Harmless mfpCapableCfg (Vector.replicate 6 0) (StaPriv.after es) e) :
    (StaPriv.after (es ++ [e])).Inv := by
  rw [StaPriv.after, Run.exec_concat]
  exact h.stepped hharmless

theorem associatedProtected_inv : (after associatedProtected).Inv := by
  have hstart : (after []).Inv := init_inv 16 16
  have hjoined : (after [.auth openWep quietAuth (authRequest 0 1)]).Inv := by
    have hnone : (init 16 16).table.rtwGetStainfo staAddr = none := by decide
    have hharmless : Harmless mfpCapableCfg (Vector.replicate 6 0) (init 16 16)
        (.auth openWep quietAuth (authRequest 0 1)) := by
      intro _ p hget
      rw [authRequest_addr, hnone] at hget
      cases hget
    exact hstart.after hharmless
  have hassociated : (after [.auth openWep quietAuth (authRequest 0 1),
      .assocReq quietAssoc (rsnRequest 0x80)]).Inv := by
    have hget : (after [.auth openWep quietAuth (authRequest 0 1)]).table.rtwGetStainfo staAddr =
        some firstSta := by decide +kernel
    have haddr : (rsnRequest 0x80).addr2 = staAddr := by decide
    have hharmless : Harmless mfpCapableCfg (Vector.replicate 6 0)
        (after [.auth openWep quietAuth (authRequest 0 1)])
        (.assocReq quietAssoc (rsnRequest 0x80)) := by
      intro p hheard _ hkey
      have hfound := hheard.found
      rw [haddr, hget] at hfound
      cases hfound
      revert hkey
      decide +kernel
    exact hjoined.after hharmless
  have hharmless : Harmless mfpCapableCfg (Vector.replicate 6 0)
      (after [.auth openWep quietAuth (authRequest 0 1), .assocReq quietAssoc (rsnRequest 0x80)])
      (.key staAddr) := trivial
  exact hassociated.after hharmless

theorem associatedProtected_sta :
    (after associatedProtected).table.rtwGetStainfo staAddr = some firstSta ∧
      (after associatedProtected).aid.state % 4 = hwStateAp ∧
      ((after associatedProtected).sta firstSta).authSeq = 0 ∧
      unprotected ((after associatedProtected).sta firstSta) = false ∧
      firstSta ∈ (after associatedProtected).asocList ∧
      ((after associatedProtected).sta firstSta).state.assocSuccess = true ∧
      ((after associatedProtected).sta firstSta).bpairwiseKeyInstalled = true ∧
      ((after associatedProtected).sta firstSta).state.authSuccess = false ∧
      ((after associatedProtected).sta firstSta).flags.mfp = true := by
  decide +kernel

theorem associatedProtected_found :
    (after associatedProtected).table.rtwGetStainfo staAddr = some firstSta :=
  associatedProtected_sta.1

theorem authRequest_heard {seq : UInt8} (h : seq = 1 ∨ seq = 2) :
    rtwCheckInvalidMacAddress (authRequest 0 seq).addr2 = false ∧
      badAlgorithm (authMode mfpCapableCfg ((authRequest 0 seq).authAlgorithm openWep))
        ((authRequest 0 seq).authAlgorithm openWep) = false := by
  rcases h with rfl | rfl
  all_goals decide

theorem associatedProtected_heard {seq : UInt8} (h : seq = 1 ∨ seq = 2) :
    AuthHeard mfpCapableCfg openWep quietAuth (after associatedProtected) (authRequest 0 seq) := by
  obtain ⟨haddr, halgorithm⟩ := authRequest_heard h
  exact ⟨associatedProtected_sta.2.1, rfl, haddr, nofun, rfl, halgorithm, rfl⟩

theorem outOfSequence_rejected :
    ¬ (AuthDelegated mfpCapableCfg openWep quietAuth (authRequest 0 2) ∨
      AuthAccepted mfpCapableCfg openWep (authRequest 0 2)
        ((after associatedProtected).sta firstSta)) := by
  have hseq := associatedProtected_sta.2.2.1
  have hnext : ¬ AuthDelegated mfpCapableCfg openWep quietAuth (authRequest 0 2) ∧
      0 + 1 ≠ (authRequest 0 2).authTransaction openWep := by decide
  rintro (hdelegated | ⟨haccepted, -⟩)
  · exact hnext.1 hdelegated
  · rw [hseq] at haccepted
    exact hnext.2 haccepted

theorem outOfSequence_frees :
    ¬ (step mfpCapableCfg (Vector.replicate 6 0) (after associatedProtected)
      (.auth openWep quietAuth (authRequest 0 2))).Sound := by
  obtain ⟨-, -, -, hprotected, hlisted, -⟩ := associatedProtected_sta
  intro hsound
  have hharmless := (step_sound _ _ _ _ associatedProtected_inv).1.mp hsound
    (associatedProtected_heard (.inr rfl)) firstSta associatedProtected_found
  simp only [hprotected, Bool.false_eq_true, if_false] at hharmless
  rcases hharmless with hdelegated | haccepted | hout
  · exact outOfSequence_rejected (.inl hdelegated)
  · exact outOfSequence_rejected (.inr haccepted)
  · exact hout hlisted

end StaPriv

end Ap
