import Rtl8188fu.Recv.DefragQueue

namespace Recv

structure DefragCall where
  adapter : Adapter
  frame : RecvFrame

variable (crypto : Crypto)

def DefragCall.result (c : DefragCall) : Defragged := recvframeChkDefrag crypto c.adapter c.frame

def posthandleCall (a : Adapter) (orig : RecvFrame) : Option DefragCall :=
  (decryptor crypto a orig).map fun f => ⟨a, f⟩

def pendingCall (a : Adapter) : Option DefragCall :=
  match a.recvpriv.ucSwdecPendingQueue with
  | [] => none
  | f :: rest =>
    posthandleCall crypto
      { a with recvpriv := { a.recvpriv with ucSwdecPendingQueue := rest } } f

def mgntCall (a : Adapter) (f : RecvFrame) : Option DefragCall :=
  let c := checkMgnt crypto a f
  if c.pass then some ⟨c.adapter, c.frame⟩ else none

def prehandleCall (a : Adapter) (f : RecvFrame) : Option DefragCall :=
  let ptr := f.rxData
  if frameControl ptr % 4 = 0 ∧ getFrameType ptr = wifiMgtType then
    mgntCall crypto a { f with attrib := f.attrib.ofHeader ptr }
  else none

def frameCall (a : Adapter) (f : RecvFrame) : Option DefragCall :=
  match recvFuncPrehandle crypto a f with
  | ⟨_, none⟩ => prehandleCall crypto a f
  | ⟨a, some f⟩ =>
    if toSwdecPending a f then
      let a := enqueueSwdec a f
      if a.recvpriv.freeRecvframeCnt < nrRecvframe / 4 then pendingCall crypto a else none
    else posthandleCall crypto a f

def call (s : RxState) : Event → Option DefragCall
  | .pending => pendingCall crypto s.adapter
  | .handle =>
    match s.inHand with
    | none => none
    | some f => if s.adapter.fwState.monitor then none else frameCall crypto s.adapter f
  | _ => none

theorem recvFuncPosthandle_call (a : Adapter) (orig : RecvFrame) :
    recvFuncPosthandle crypto a orig =
      match posthandleCall crypto a orig with
      | none => rtwFreeRecvframe a orig.slot
      | some c => passOn orig (c.result crypto) := by
  unfold recvFuncPosthandle posthandleCall
  cases decryptor crypto a orig <;> rfl

theorem validateRecvMgntFrame_call (a : Adapter) (f : RecvFrame) :
    validateRecvMgntFrame crypto a f =
      match mgntCall crypto a f with
      | none =>
        if (checkMgnt crypto a f).freed then rtwFreeRecvframe (checkMgnt crypto a f).adapter f.slot
        else (checkMgnt crypto a f).adapter
      | some c => (c.result crypto).adapter := by
  unfold validateRecvMgntFrame mgntCall
  dsimp only
  cases (checkMgnt crypto a f).pass <;> rfl

def RecvFrame.dataFrame (f : RecvFrame) : RecvFrame :=
  { f with attrib := { f.attrib.ofHeader f.rxData with
      qos := bitAt (getFrameSubType f.rxData) 7 } }

theorem prehandle_data {a b : Adapter} {f g : RecvFrame}
    (h : recvFuncPrehandle crypto a f = ⟨b, some g⟩) :
    (validateRecvDataFrame a f.dataFrame).ret = .success ∧
      (validateRecvDataFrame a f.dataFrame).adapter = b ∧
        (validateRecvDataFrame a f.dataFrame).frame = g := by
  unfold recvFuncPrehandle at h
  dsimp only at h
  split at h
  · cases h
  split at h
  · cases h
  split at h
  · split at h
    · rename_i hret
      cases h
      exact ⟨hret, rfl, rfl⟩
    · cases h
  · cases h

namespace Releases

theorem validateMgmtProtect (a : Adapter) (psta : Option StaInfo) (f : RecvFrame) :
    Releases a (validateMgmtProtect crypto a psta f).adapter := by
  have hbip : Releases a (bipVerifyMgmt crypto a f).adapter :=
    ⟨rfl, rfl, rfl, (refl a).stations, (refl a).pending⟩
  have hdecrypt (psta : StaInfo) : (decryptMgmt crypto a psta f).adapter = a := by
    unfold decryptMgmt
    dsimp only
    split
    · rfl
    · split <;> rfl
  unfold Recv.validateMgmtProtect
  split
  · exact refl a
  dsimp only
  split
  · exact refl a
  split
  · rw [hdecrypt]
    exact refl a
  split
  · split
    · exact refl a
    · split
      · exact hbip
      · exact refl a
  · split <;> exact refl a

theorem checkMgnt (a : Adapter) (f : RecvFrame) : Releases a (checkMgnt crypto a f).adapter :=
  validateMgmtProtect crypto ..

theorem recvBcastPnDecache {isSta : Bool} {sec sec' : SecurityPriv} {f : RecvFrame}
    (h : recvBcastPnDecache isSta sec f = some sec') :
    sec'.dot11AuthAlgrthm = sec.dot11AuthAlgrthm ∧
      sec'.dot11PrivacyAlgrthm = sec.dot11PrivacyAlgrthm := by
  unfold Recv.recvBcastPnDecache at h
  split at h
  · split at h
    · split at h
      · cases h
        exact ⟨rfl, rfl⟩
      · cases h
    · cases h
      exact ⟨rfl, rfl⟩
  · cases h
    exact ⟨rfl, rfl⟩

theorem checkPn {a : Adapter} {psta : StaInfo} (hpsta : psta ∈ a.stapriv) (f : RecvFrame) :
    Releases a (checkPn a psta f).adapter := by
  unfold Recv.checkPn
  split
  · split
    · exact refl a
    · rename_i sec hsec
      obtain ⟨hauth, hprivacy⟩ := recvBcastPnDecache hsec
      exact ⟨hauth, hprivacy, rfl, (refl a).stations, (refl a).pending⟩
  · exact setStainfo ⟨psta, hpsta, rfl, rfl, rfl, List.Subset.refl _⟩

theorem validateRecvDataFrame (a : Adapter) (f : RecvFrame) :
    Releases a (validateRecvDataFrame a f).adapter := by
  unfold Recv.validateRecvDataFrame
  split
  · exact refl a
  · rename_i g psta hok
    obtain ⟨-, old, hold, rxcache, hpsta⟩ := decacheDataFrame_ok hok
    have hdrains : old.Drains psta := by
      rw [hpsta]
      exact ⟨rfl, rfl, rfl, List.Subset.refl _⟩
    refine (setStainfo ⟨old, hold, hdrains⟩).trans (checkPn ?_ g)
    exact List.mem_map.mpr ⟨old, hold, if_pos hdrains.macAddr.symm⟩

end Releases

namespace Upholds

variable {p : Policy} {a : Adapter} {crypto}

theorem recvFuncPosthandle (h : Upholds p a) {orig : RecvFrame}
    (hcall : ∀ c, posthandleCall crypto a orig = some c → MayQueue p c.adapter c.frame) :
    Upholds p (recvFuncPosthandle crypto a orig) := by
  rw [recvFuncPosthandle_call]
  split
  · exact h.releases (Releases.rtwFreeRecvframe ..)
  · rename_i c hc
    have hadapter : c.adapter = a := by
      obtain ⟨g, -, rfl⟩ := Option.map_eq_some_iff.mp hc
      rfl
    have hc' : Upholds p c.adapter := by rwa [hadapter]
    exact (hc'.recvframeChkDefrag (hcall c hc)).releases (Releases.passOn ..)

theorem posthandlePending (h : Upholds p a)
    (hcall : ∀ c, pendingCall crypto a = some c → MayQueue p c.adapter c.frame) :
    Upholds p (posthandlePending crypto a) := by
  unfold Recv.posthandlePending
  unfold pendingCall at hcall
  split
  · exact h
  · rename_i f rest huc
    simp only [huc] at hcall
    have hrest : ∀ g ∈ rest, p.pending g :=
      fun g hg => h.pending g (huc ▸ List.mem_cons_of_mem f hg)
    exact recvFuncPosthandle (a := { a with recvpriv := { a.recvpriv with
      ucSwdecPendingQueue := rest } }) ⟨h.station, h.macAddrs, h.queued, hrest, h.settings⟩ hcall

theorem validateRecvMgntFrame (h : Upholds p a) {f : RecvFrame}
    (hcall : ∀ c, mgntCall crypto a f = some c → MayQueue p c.adapter c.frame) :
    Upholds p (validateRecvMgntFrame crypto a f) := by
  have hchecked := h.releases (Releases.checkMgnt crypto a f)
  rw [validateRecvMgntFrame_call]
  split
  · split
    · exact hchecked.releases (Releases.rtwFreeRecvframe ..)
    · exact hchecked
  · rename_i c hc
    refine Upholds.recvframeChkDefrag ?_ (hcall c hc)
    unfold mgntCall at hc
    dsimp only at hc
    split at hc
    · cases hc
      exact hchecked
    · cases hc

theorem recvFuncPrehandle (h : Upholds p a) {f : RecvFrame}
    (hcall : ∀ c, prehandleCall crypto a f = some c → MayQueue p c.adapter c.frame) :
    Upholds p (recvFuncPrehandle crypto a f).adapter := by
  unfold Recv.recvFuncPrehandle
  unfold prehandleCall at hcall
  dsimp only at hcall ⊢
  split
  · exact h.releases (Releases.rtwFreeRecvframe ..)
  rename_i hver
  split
  · rename_i hmgt
    rw [if_pos ⟨not_not.mp hver, hmgt⟩] at hcall
    exact (h.validateRecvMgntFrame hcall).releases (Releases.rtwFreeRecvframe ..)
  split
  · split
    · exact h.releases (Releases.validateRecvDataFrame ..)
    · exact (h.releases (Releases.validateRecvDataFrame ..)).releases
        (Releases.rtwFreeRecvframe ..)
  · exact h.releases (Releases.rtwFreeRecvframe ..)

theorem enqueueSwdec (h : Upholds p a) {g : RecvFrame} (hg : p.pending g) :
    Upholds p (enqueueSwdec a g) := by
  refine ⟨h.station, h.macAddrs, h.queued, fun k hk => ?_, h.settings⟩
  rcases List.mem_append.mp hk with hold | hlast
  · exact h.pending k hold
  · rw [List.mem_singleton.mp hlast]
    exact hg

theorem recvFuncFrame (h : Upholds p a) {f : RecvFrame}
    (hpend : ∀ a' g, Recv.recvFuncPrehandle crypto a f = ⟨a', some g⟩ →
      toSwdecPending a' g = true → p.pending g)
    (hcall : ∀ c, frameCall crypto a f = some c → MayQueue p c.adapter c.frame) :
    Upholds p (recvFuncFrame crypto a f) := by
  unfold Recv.recvFuncFrame
  unfold frameCall at hcall
  split
  · rename_i b hpre
    simp only [hpre] at hcall
    have hb := h.recvFuncPrehandle hcall
    rwa [hpre] at hb
  · rename_i b g hpre
    simp only [hpre] at hcall
    have hb : Upholds p b := by
      obtain ⟨-, rfl, -⟩ := prehandle_data crypto hpre
      exact h.releases (Releases.validateRecvDataFrame ..)
    split
    · rename_i hto
      have henq := hb.enqueueSwdec (hpend b g hpre hto)
      simp only [hto, if_true] at hcall
      dsimp only
      split
      · rename_i hcnt
        simp only [hcnt, if_true] at hcall
        exact henq.posthandlePending hcall
      · exact henq
    · rename_i hto
      rw [if_neg hto] at hcall
      exact hb.recvFuncPosthandle hcall

theorem arrive {s : RxState} (h : Upholds p s.adapter) (pkt : RxPacket) :
    Upholds p (arrive s pkt).adapter := by
  unfold Recv.arrive rtwAllocRecvframe
  split
  · exact h
  cases s.adapter.recvpriv.freeRecvQueue with
  | nil => exact h
  | cons slot rest =>
    have halloc : ∀ q n, Upholds p { s.adapter with recvpriv := { s.adapter.recvpriv with
        freeRecvQueue := q, freeRecvframeCnt := n } } :=
      fun _ _ => ⟨h.station, h.macAddrs, h.queued, h.pending, h.settings⟩
    dsimp only
    split
    · exact (halloc ..).releases (Releases.rtwFreeRecvframe ..)
    · exact halloc ..

theorem timeout (h : Upholds p a) (macAddr : MacAddr) (tid : Fin 16) (cannotRun : Bool) :
    Upholds p (timeout a macAddr tid cannotRun) := by
  unfold Recv.timeout
  split
  · exact h
  · exact (h.releases (Releases.setReorderCtrl ..)).releases
      (Releases.foldl Releases.recvProcessMpdu ..)

theorem freeStainfo (h : Upholds p a) (psta : StaInfo)
    (hmacs : p.macAddrs (freeStainfo a psta).macAddrs) : Upholds p (freeStainfo a psta) := by
  have hfree := h.releases (Releases.rtwFreeRecvframeQueue a
    ((List.finRange 16).flatMap (fun tid =>
      (psta.recvreorderCtrl tid).pendingRecvframeQueue) ++ psta.defragQ))
  exact ⟨fun s hs => hfree.station s (List.mem_of_mem_filter hs), hmacs,
    fun s hs => hfree.queued s (List.mem_of_mem_filter hs), hfree.pending, hfree.settings⟩

theorem allocStainfo (h : Upholds p a) {macAddr : MacAddr}
    (hstation : p.station macAddr 0 (List.replicate 32 0))
    (hmacs : p.macAddrs (a.macAddrs ++ [macAddr])) :
    Upholds p { a with stapriv := a.stapriv ++ [rtwAllocStainfo macAddr] } where
  station := by
    intro psta hpsta
    rcases List.mem_append.mp hpsta with hold | hnew
    · exact h.station psta hold
    · rw [List.mem_singleton.mp hnew]
      exact hstation
  macAddrs := by
    rw [Adapter.macAddrs, List.map_append]
    exact hmacs
  queued := by
    intro psta hpsta f hf
    rcases List.mem_append.mp hpsta with hold | hnew
    · exact h.queued psta hold f hf
    · rw [List.mem_singleton.mp hnew] at hf
      exact absurd hf List.not_mem_nil
  pending := h.pending
  settings := h.settings

theorem setStakey (h : Upholds p a) {macAddr : MacAddr} {key : List UInt8}
    (hstation : ∀ psta ∈ a.stapriv, psta.macAddr = macAddr →
      p.station macAddr (psta.keytrack + 1) key) :
    Upholds p (updateSta a macAddr (StaInfo.setStakey key)) where
  station := by
    intro s' hs'
    obtain ⟨s, hs, rfl⟩ := List.mem_map.mp hs'
    cases Decidable.em (s.macAddr = macAddr) with
    | inl hmac =>
      rw [if_pos hmac, StaInfo.setStakey, hmac]
      exact hstation s hs hmac
    | inr hmac =>
      rw [if_neg hmac]
      exact h.station s hs
  macAddrs := by
    have hmacs : (updateSta a macAddr (StaInfo.setStakey key)).macAddrs = a.macAddrs := by
      rw [updateSta, Adapter.macAddrs, List.map_map]
      refine List.map_congr_left fun s _ => ?_
      by_cases hmac : s.macAddr = macAddr <;> simp [hmac, StaInfo.setStakey]
    rw [hmacs]
    exact h.macAddrs
  queued := by
    intro s' hs'
    obtain ⟨s, hs, rfl⟩ := List.mem_map.mp hs'
    cases Decidable.em (s.macAddr = macAddr) with
    | inl hmac =>
      rw [if_pos hmac]
      exact h.queued s hs
    | inr hmac =>
      rw [if_neg hmac]
      exact h.queued s hs
  pending := h.pending
  settings := h.settings

end Upholds

def Enqueues (s : RxState) (g : RecvFrame) : Prop :=
  ∃ f a, s.inHand = some f ∧ recvFuncPrehandle crypto s.adapter f = ⟨a, some g⟩ ∧
    toSwdecPending a g = true

theorem upholds_step {crypto : Crypto} {p : Policy} {s : RxState} {e : Event}
    (h : Upholds p s.adapter)
    (halloc : ∀ macAddr, e = .allocStainfo macAddr → macAddr ∉ s.adapter.macAddrs →
      p.station macAddr 0 (List.replicate 32 0))
    (hkey : ∀ macAddr key, e = .setStakey macAddr key → ∀ psta ∈ s.adapter.stapriv,
      psta.macAddr = macAddr → p.station macAddr (psta.keytrack + 1) key)
    (hmacs : ∀ macAddr, e = .allocStainfo macAddr ∨ e = .freeStainfo macAddr →
      p.macAddrs (step crypto s e).adapter.macAddrs)
    (hsettings : ∀ sec, e = .security sec →
      p.settings sec.dot11AuthAlgrthm sec.dot11PrivacyAlgrthm)
    (hpend : ∀ g, e = .handle → Enqueues crypto s g → p.pending g)
    (hcall : ∀ c, call crypto s e = some c → MayQueue p c.adapter c.frame) :
    Upholds p (step crypto s e).adapter := by
  cases e with
  | arrive pkt => exact h.arrive pkt
  | pending => exact h.posthandlePending hcall
  | handle =>
    simp only [step, handle]
    cases hhand : s.inHand with
    | none => exact h
    | some f =>
      simp only [call, hhand] at hcall
      dsimp only
      split
      · exact h.releases (Releases.rtwFreeRecvframe ..)
      · rename_i hmonitor
        rw [if_neg hmonitor] at hcall
        exact h.recvFuncFrame (fun a' g hpre hto => hpend g rfl ⟨f, a', hhand, hpre, hto⟩) hcall
  | timeout macAddr tid cannotRun => exact h.timeout ..
  | allocStainfo macAddr =>
    have hmacs := hmacs macAddr (.inl rfl)
    simp only [step] at hmacs ⊢
    split at hmacs
    · rwa [if_pos ‹_›]
    · rename_i hnew
      rw [if_neg hnew]
      rw [Adapter.macAddrs, List.map_append] at hmacs
      refine h.allocStainfo (halloc macAddr rfl fun hmem => hnew ?_) hmacs
      obtain ⟨psta, hpsta, hmac⟩ := List.mem_map.mp hmem
      exact List.any_eq_true.mpr ⟨psta, hpsta, beq_iff_eq.mpr hmac⟩
  | freeStainfo macAddr =>
    have hmacs := hmacs macAddr (.inr rfl)
    simp only [step] at hmacs ⊢
    cases hfind : s.adapter.stapriv.find? fun psta => psta.macAddr == macAddr with
    | none => exact h
    | some psta =>
      rw [hfind] at hmacs
      exact h.freeStainfo psta hmacs
  | freeSwdecPending => exact h.releases (Releases.rtwFreeRecvframeQueue ..)
  | setStakey macAddr key => exact h.setStakey (hkey macAddr key rfl)
  | configure psta =>
    exact h.releases (Releases.updateSta _ _ fun _ => ⟨rfl, rfl, rfl, List.Subset.refl _⟩)
  | session macAddr tid c =>
    exact h.releases (Releases.updateSta _ _ fun _ => ⟨rfl, rfl, rfl, List.Subset.refl _⟩)
  | security sec => exact ⟨h.station, h.macAddrs, h.queued, h.pending, hsettings sec rfl⟩
  | mlme fwState bssid => exact ⟨h.station, h.macAddrs, h.queued, h.pending, h.settings⟩

theorem posthandleCall_adapter {crypto : Crypto} {a : Adapter} {f : RecvFrame} {c : DefragCall}
    (h : posthandleCall crypto a f = some c) : c.adapter = a := by
  obtain ⟨g, -, rfl⟩ := Option.map_eq_some_iff.mp h
  rfl

theorem pendingCall_releases {crypto : Crypto} {a : Adapter} {c : DefragCall}
    (h : pendingCall crypto a = some c) : Releases a c.adapter := by
  unfold pendingCall at h
  split at h
  · cases h
  · rename_i f rest huc
    rw [posthandleCall_adapter h]
    exact ⟨rfl, rfl, rfl, (Releases.refl a).stations, huc ▸ List.subset_cons_self f rest⟩

theorem mgntCall_releases {crypto : Crypto} {a : Adapter} {f : RecvFrame} {c : DefragCall}
    (h : mgntCall crypto a f = some c) : Releases a c.adapter := by
  unfold mgntCall at h
  dsimp only at h
  split at h
  · cases h
    exact Releases.checkMgnt ..
  · cases h

theorem upholds_call {crypto : Crypto} {p : Policy} {s : RxState} {e : Event} {c : DefragCall}
    (h : Upholds p s.adapter) (hpend : ∀ g, e = .handle → Enqueues crypto s g → p.pending g)
    (hc : call crypto s e = some c) : Upholds p c.adapter := by
  cases e with
  | pending => exact h.releases (pendingCall_releases hc)
  | handle =>
    cases hhand : s.inHand with
    | none =>
      simp only [call, hhand] at hc
      cases hc
    | some f =>
      simp only [call, hhand] at hc
      split at hc
      · cases hc
      unfold frameCall at hc
      split at hc
      · unfold prehandleCall at hc
        dsimp only at hc
        split at hc
        · exact h.releases (mgntCall_releases hc)
        · cases hc
      · rename_i b g hpre
        obtain ⟨-, hb, -⟩ := prehandle_data crypto hpre
        have hvalid := h.releases (Releases.validateRecvDataFrame s.adapter f.dataFrame)
        rw [hb] at hvalid
        split at hc
        · rename_i hto
          dsimp only at hc
          split at hc
          · have hg := hpend g rfl ⟨f, b, hhand, hpre, hto⟩
            exact (hvalid.enqueueSwdec hg).releases (pendingCall_releases hc)
          · cases hc
        · rwa [posthandleCall_adapter hc]
  | _ => cases hc

end Recv
