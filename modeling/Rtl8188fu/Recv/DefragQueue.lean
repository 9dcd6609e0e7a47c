import Rtl8188fu.Recv.RxSystem

namespace Recv

structure StaInfo.Drains (s s' : StaInfo) : Prop where
  macAddr : s'.macAddr = s.macAddr
  keytrack : s'.keytrack = s.keytrack
  key : s'.dot118021xUncstKey = s.dot118021xUncstKey
  defragQ : s'.defragQ ⊆ s.defragQ

theorem StaInfo.Drains.refl (s : StaInfo) : s.Drains s := ⟨rfl, rfl, rfl, List.Subset.refl _⟩

theorem StaInfo.Drains.trans {s s' s'' : StaInfo} (h : s.Drains s') (h' : s'.Drains s'') :
    s.Drains s'' where
  macAddr := h'.macAddr.trans h.macAddr
  keytrack := h'.keytrack.trans h.keytrack
  key := h'.key.trans h.key
  defragQ := List.Subset.trans h'.defragQ h.defragQ

def Adapter.macAddrs (a : Adapter) : List MacAddr := a.stapriv.map StaInfo.macAddr

structure Releases (a a' : Adapter) : Prop where
  auth : a'.securitypriv.dot11AuthAlgrthm = a.securitypriv.dot11AuthAlgrthm
  privacy : a'.securitypriv.dot11PrivacyAlgrthm = a.securitypriv.dot11PrivacyAlgrthm
  macAddrs : a'.macAddrs = a.macAddrs
  stations : ∀ s' ∈ a'.stapriv, ∃ s ∈ a.stapriv, s.Drains s'
  pending : a'.recvpriv.ucSwdecPendingQueue ⊆ a.recvpriv.ucSwdecPendingQueue

namespace Releases

variable {a b c : Adapter}

theorem refl (a : Adapter) : Releases a a where
  auth := rfl
  privacy := rfl
  macAddrs := rfl
  stations s hs := ⟨s, hs, StaInfo.Drains.refl s⟩
  pending := List.Subset.refl _

theorem trans (hab : Releases a b) (hbc : Releases b c) : Releases a c where
  auth := hbc.auth.trans hab.auth
  privacy := hbc.privacy.trans hab.privacy
  macAddrs := hbc.macAddrs.trans hab.macAddrs
  stations := by
    intro s'' hs''
    obtain ⟨s', hs', hdrains'⟩ := hbc.stations s'' hs''
    obtain ⟨s, hs, hdrains⟩ := hab.stations s' hs'
    exact ⟨s, hs, hdrains.trans hdrains'⟩
  pending := List.Subset.trans hbc.pending hab.pending

theorem foldl {f : Adapter → RecvFrame → Adapter} (hf : ∀ a g, Releases a (f a g)) (a : Adapter)
    (gs : List RecvFrame) : Releases a (gs.foldl f a) := by
  induction gs generalizing a with
  | nil => exact refl a
  | cons g gs ih => exact (hf a g).trans (ih _)

theorem map (a : Adapter) {g : StaInfo → StaInfo} (hg : ∀ s ∈ a.stapriv, (g s).macAddr = s.macAddr)
    (hdrains : ∀ s ∈ a.stapriv, ∃ old ∈ a.stapriv, old.Drains (g s)) :
    Releases a { a with stapriv := a.stapriv.map g } where
  auth := rfl
  privacy := rfl
  macAddrs := by
    rw [Adapter.macAddrs, List.map_map]
    exact List.map_congr_left hg
  stations := by
    intro s' hs'
    obtain ⟨s, hs, rfl⟩ := List.mem_map.mp hs'
    exact hdrains s hs
  pending := List.Subset.refl _

theorem unlink_subset (slot : ℕ) (q : List RecvFrame) : unlink slot q ⊆ q :=
  fun _ h => List.mem_of_mem_filter h

theorem rtwFreeRecvframe (a : Adapter) (slot : ℕ) : Releases a (rtwFreeRecvframe a slot) := by
  have hstations := map a (g := StaInfo.unlink slot) (fun _ _ => rfl)
    fun s hs => ⟨s, hs, rfl, rfl, rfl, unlink_subset slot s.defragQ⟩
  exact ⟨rfl, rfl, hstations.macAddrs, hstations.stations, unlink_subset slot _⟩

theorem rtwFreeRecvframeQueue (a : Adapter) (q : List RecvFrame) :
    Releases a (rtwFreeRecvframeQueue a q) :=
  foldl (fun a g => rtwFreeRecvframe a g.slot) a q

theorem recvProcessMpdu (a : Adapter) (f : RecvFrame) : Releases a (recvProcessMpdu a f) :=
  rtwFreeRecvframe a f.slot

theorem updateSta (a : Adapter) (macAddr : MacAddr) {g : StaInfo → StaInfo}
    (hg : ∀ s : StaInfo, s.Drains (g s)) : Releases a (updateSta a macAddr g) := by
  refine map a (fun s _ => ?_) fun s hs => ⟨s, hs, ?_⟩
  · cases Decidable.em (s.macAddr = macAddr) with
    | inl h => rw [if_pos h, (hg s).macAddr]
    | inr h => rw [if_neg h]
  · cases Decidable.em (s.macAddr = macAddr) with
    | inl h =>
      rw [if_pos h]
      exact hg s
    | inr h =>
      rw [if_neg h]
      exact StaInfo.Drains.refl s

theorem setReorderCtrl (a : Adapter) (macAddr : MacAddr) (tid : Fin 16) (c : RecvReorderCtrl) :
    Releases a (Recv.updateSta a macAddr (StaInfo.setReorderCtrl tid c)) :=
  updateSta a macAddr fun _ => ⟨rfl, rfl, rfl, List.Subset.refl _⟩

theorem clearDefragQ (a : Adapter) (macAddr : MacAddr) : Releases a (setDefragQ a macAddr []) :=
  updateSta a macAddr (g := fun s => { s with defragQ := [] })
    fun _ => ⟨rfl, rfl, rfl, List.nil_subset _⟩

theorem setStainfo {psta : StaInfo} (hmem : ∃ s ∈ a.stapriv, s.Drains psta) :
    Releases a { a with stapriv := setStainfo a.stapriv psta } := by
  refine map a (fun s _ => ?_) fun s hs => ?_
  · cases Decidable.em (s.macAddr = psta.macAddr) with
    | inl h => rw [if_pos h, h]
    | inr h => rw [if_neg h]
  · cases Decidable.em (s.macAddr = psta.macAddr) with
    | inl h =>
      rw [if_pos h]
      exact hmem
    | inr h =>
      rw [if_neg h]
      exact ⟨s, hs, StaInfo.Drains.refl s⟩

theorem indicateOne (a : Adapter) (f : RecvFrame) (seqNum : ℕ) :
    Releases a (indicateOne a f seqNum) := by
  unfold Recv.indicateOne
  split
  · exact recvProcessMpdu a f
  · rename_i macAddr tid c _
    have hfree := (setReorderCtrl a macAddr tid (c.recvSetIseqBefore seqNum)).trans
      (recvProcessMpdu _ f)
    dsimp only
    split
    · exact hfree
    · exact hfree.trans (setReorderCtrl ..)

theorem reorderAndIndicate (a : Adapter) (orig f : RecvFrame) :
    Releases a (reorderAndIndicate a orig f) := by
  unfold Recv.reorderAndIndicate
  split
  · exact indicateOne ..
  · rename_i macAddr tid c _
    have hreorder := (setReorderCtrl a macAddr tid (c.recvIndicatepktReorder f).ctrl).trans
      (foldl recvProcessMpdu _ (c.recvIndicatepktReorder f).indicated)
    dsimp only
    split
    · exact hreorder.trans (rtwFreeRecvframe ..)
    · exact hreorder
    · exact hreorder.trans (indicateOne ..)

theorem passOn (orig : RecvFrame) (d : Defragged) : Releases d.adapter (passOn orig d) := by
  unfold Recv.passOn
  split
  · exact refl _
  · split
    · exact reorderAndIndicate ..
    · exact rtwFreeRecvframe ..

theorem chkmicOrFree (crypto : Crypto) (a : Adapter) (f : RecvFrame) :
    Releases a (chkmicOrFree crypto a f).adapter := by
  unfold Recv.chkmicOrFree
  split
  · split
    · exact rtwFreeRecvframe a f.slot
    · exact refl a
  · exact refl a

theorem defragLast (crypto : Crypto) (a : Adapter) (macAddr : MacAddr) (q : List RecvFrame) :
    Releases a (defragLast crypto a macAddr q).adapter := by
  refine (clearDefragQ a macAddr).trans ?_
  unfold Recv.defragLast
  dsimp only
  split
  · exact rtwFreeRecvframeQueue ..
  · exact (rtwFreeRecvframeQueue ..).trans (chkmicOrFree ..)

end Releases

structure Policy where
  station : MacAddr → ℤ → List UInt8 → Prop
  macAddrs : List MacAddr → Prop
  queued : MacAddr → RecvFrame → Prop
  pending : RecvFrame → Prop
  settings : AuthAlgrthm → SecurityType → Prop

structure Upholds (p : Policy) (a : Adapter) : Prop where
  station : ∀ psta ∈ a.stapriv, p.station psta.macAddr psta.keytrack psta.dot118021xUncstKey
  macAddrs : p.macAddrs a.macAddrs
  queued : ∀ psta ∈ a.stapriv, ∀ f ∈ psta.defragQ, p.queued psta.macAddr f
  pending : ∀ f ∈ a.recvpriv.ucSwdecPendingQueue, p.pending f
  settings : p.settings a.securitypriv.dot11AuthAlgrthm a.securitypriv.dot11PrivacyAlgrthm

def RecvFrame.queuedBy (psta : StaInfo) (f : RecvFrame) : RecvFrame :=
  { f with keytrack := psta.keytrack }

def MayQueue (p : Policy) (a : Adapter) (f : RecvFrame) : Prop :=
  f.attrib.mfrag = true → isMcast f.attrib.ra = false →
    ∀ psta, defragOwner a f = some psta → p.queued psta.macAddr (f.queuedBy psta)

theorem defragOwner_mem {a : Adapter} {f : RecvFrame} {psta : StaInfo}
    (h : defragOwner a f = some psta) : psta ∈ a.stapriv := by
  unfold defragOwner at h
  split at h
  · rename_i hget
    cases h
    exact mem_of_get hget
  · split at h
    · cases h
    · exact mem_of_get h

namespace Upholds

variable {p : Policy} {a b : Adapter}

theorem releases (h : Upholds p a) (hr : Releases a b) : Upholds p b where
  station := by
    intro s' hs'
    obtain ⟨s, hs, hdrains⟩ := hr.stations s' hs'
    rw [hdrains.macAddr, hdrains.keytrack, hdrains.key]
    exact h.station s hs
  macAddrs := by
    rw [hr.macAddrs]
    exact h.macAddrs
  queued := by
    intro s' hs' f hf
    obtain ⟨s, hs, hdrains⟩ := hr.stations s' hs'
    rw [hdrains.macAddr]
    exact h.queued s hs f (hdrains.defragQ hf)
  pending f hf := h.pending f (hr.pending hf)
  settings := by
    rw [hr.auth, hr.privacy]
    exact h.settings

theorem setDefragQ (h : Upholds p a) {macAddr : MacAddr} {q : List RecvFrame}
    (hq : ∀ f ∈ q, p.queued macAddr f) : Upholds p (setDefragQ a macAddr q) := by
  have hempty := h.releases (Releases.clearDefragQ a macAddr)
  refine ⟨?_, ?_, ?_, h.pending, h.settings⟩
  · intro s' hs'
    obtain ⟨s, hs, rfl⟩ := List.mem_map.mp hs'
    cases Decidable.em (s.macAddr = macAddr) with
    | inl hmac =>
      rw [if_pos hmac]
      exact h.station s hs
    | inr hmac =>
      rw [if_neg hmac]
      exact h.station s hs
  · have hmacs := hempty.macAddrs
    unfold Adapter.macAddrs Recv.setDefragQ at hmacs ⊢
    rw [List.map_map] at hmacs ⊢
    convert hmacs using 2
    funext s
    by_cases hmac : s.macAddr = macAddr <;> simp [hmac]
  · intro s' hs' f hf
    obtain ⟨s, hs, rfl⟩ := List.mem_map.mp hs'
    cases Decidable.em (s.macAddr = macAddr) with
    | inl hmac =>
      rw [if_pos hmac] at hf ⊢
      rw [← hmac] at hq
      exact hq f hf
    | inr hmac =>
      rw [if_neg hmac] at hf ⊢
      exact h.queued s hs f hf

theorem recvframeChkDefrag {crypto : Crypto} (h : Upholds p a) {f : RecvFrame}
    (hf : MayQueue p a f) : Upholds p (recvframeChkDefrag crypto a f).adapter := by
  unfold Recv.recvframeChkDefrag
  split
  · exact h.releases (Releases.chkmicOrFree ..)
  split
  · exact h.releases (Releases.rtwFreeRecvframe ..)
  rename_i hra
  split
  · exact h.releases (Releases.rtwFreeRecvframe ..)
  rename_i psta howner
  dsimp only
  split
  · exact h.releases (Releases.defragLast ..)
  rename_i hmfrag
  have hnew : p.queued psta.macAddr (f.queuedBy psta) :=
    hf (Bool.eq_true_of_not_eq_false hmfrag) (Bool.eq_false_of_not_eq_true hra) psta howner
  split
  · refine (h.releases (Releases.rtwFreeRecvframeQueue ..)).setDefragQ fun g hg => ?_
    rw [List.mem_singleton.mp hg]
    exact hnew
  · refine h.setDefragQ fun g hg => ?_
    rcases List.mem_append.mp hg with hold | hlast
    · exact h.queued psta (defragOwner_mem howner) g hold
    · rw [List.mem_singleton.mp hlast]
      exact hnew

end Upholds

end Recv
