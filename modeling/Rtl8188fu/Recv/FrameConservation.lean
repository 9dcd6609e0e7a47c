import Rtl8188fu.Recv.DefragSound
import Rtl8188fu.Recv.FrameHandling

namespace Recv

open RecvReorderCtrl

namespace FrameConservation

def rejects (c : RecvReorderCtrl) (f : RecvFrame) : Bool :=
  f.attrib.qos && f.preorderCtrl.isSome && c.enable &&
    (!(c.testAndClear.checkIndicateSeq f.attrib.seqNum).2 ||
      (enqueueReorderRecvframe f c.pendingRecvframeQueue).isNone)

theorem rejects_of_fail {c : RecvReorderCtrl} {f : RecvFrame}
    (h : (c.recvIndicatepktReorder f).ret = .fail) : rejects c f = true := by
  by_cases hpass : (!f.attrib.qos || f.preorderCtrl.isNone || !c.enable) = true
  · rw [recvIndicatepktReorder_passed hpass] at h
    cases h
  rw [Bool.not_eq_true] at hpass
  have hengaged : (f.attrib.qos && f.preorderCtrl.isSome && c.enable) = true := by
    cases hq : f.attrib.qos <;> cases hp : f.preorderCtrl <;> cases he : c.enable <;>
      simp [hq, hp, he] at hpass ⊢
  rw [rejects, hengaged, Bool.true_and]
  obtain ⟨n, hn⟩ := checked_frame c f.attrib.seqNum
  cases hok : (c.testAndClear.checkIndicateSeq f.attrib.seqNum).2 with
  | false => rfl
  | true =>
    cases hqueue : enqueueReorderRecvframe f c.pendingRecvframeQueue with
    | none => rfl
    | some queue =>
      have hcheck : c.testAndClear.checkIndicateSeq f.attrib.seqNum =
          ((c.testAndClear.checkIndicateSeq f.attrib.seqNum).1, true) := by rw [← hok]
      rw [hn] at hcheck
      rw [recvIndicatepktReorder_taken hpass hcheck hqueue rfl] at h
      cases h

theorem enqueue_isNone_congr {f g : RecvFrame} (h : f.attrib.seqNum = g.attrib.seqNum)
    (q : List RecvFrame) :
    (enqueueReorderRecvframe f q).isNone = (enqueueReorderRecvframe g q).isNone := by
  induction q with
  | nil => rfl
  | cons next rest ih =>
    unfold enqueueReorderRecvframe
    rw [h]
    split
    · rw [Option.isNone_map, Option.isNone_map]
      exact ih
    · split <;> rfl

theorem rejects_same (c : RecvReorderCtrl) (f : RecvFrame) (d s : List UInt8) (n : ℕ) :
    rejects c { f with data := d, spare := s, attrib := { f.attrib with icvLen := n } } =
      rejects c f := by
  have hqueue := enqueue_isNone_congr (f := { f with
    data := d, spare := s, attrib := { f.attrib with icvLen := n } }) (g := f) rfl
    c.pendingRecvframeQueue
  unfold rejects
  rw [hqueue]

def Accepted (c : DefragCall) : Prop :=
  c.frame.attrib.mfrag = false → c.frame.attrib.fragNum ≠ 0 → isMcast c.frame.attrib.ra = false →
    Consecutive c.fragments → ∀ head ∈ c.fragments.head?, ∀ p ∈ preorderCtrlOf c.adapter head,
      rejects p.2.2 head = false

instance (c : DefragCall) : Decidable (Accepted c) :=
  inferInstanceAs (Decidable (_ → _))

theorem preorderCtrlOf_setDefragQ (a : Adapter) (macAddr : MacAddr) (q : List RecvFrame)
    (f : RecvFrame) : preorderCtrlOf (setDefragQ a macAddr q) f = preorderCtrlOf a f := by
  unfold preorderCtrlOf setDefragQ
  cases f.psta with
  | none => rfl
  | some mac =>
    cases f.preorderCtrl with
    | none => rfl
    | some tid =>
      simp only [List.find?_map, Option.map_map]
      have hmac : ((fun s : StaInfo => s.macAddr == mac) ∘ fun s : StaInfo =>
          if s.macAddr = macAddr then { s with defragQ := q } else s) =
          fun s => s.macAddr == mac := by
        funext s
        by_cases h : s.macAddr = macAddr <;> simp [h]
      rw [hmac]
      refine congrArg (Option.map · _) ?_
      funext s
      by_cases h : s.macAddr = macAddr <;> simp [h]

theorem preorderCtrlOf_congr {a b : Adapter} (h : b.stapriv = a.stapriv) (f : RecvFrame) :
    preorderCtrlOf b f = preorderCtrlOf a f := by
  unfold preorderCtrlOf
  rw [h]

theorem chkmicOrFree_adapter {crypto : Crypto} {a : Adapter} {f r : RecvFrame}
    (h : (chkmicOrFree crypto a f).frame = some r) :
    (chkmicOrFree crypto a f).adapter = a ∧ ∃ d s, r = { f with data := d, spare := s } := by
  unfold chkmicOrFree at h ⊢
  cases Decidable.em (f.attrib.privacy = true) with
  | inl hprivacy =>
    rw [if_pos hprivacy] at h ⊢
    cases hg : recvframeChkmic crypto a f with
    | none =>
      rw [hg] at h
      cases h
    | some g =>
      rw [hg] at h
      cases h
      exact ⟨rfl, recvframeChkmic_slot hg⟩
  | inr hprivacy =>
    rw [if_neg hprivacy] at h ⊢
    cases h
    exact ⟨rfl, f.data, f.spare, rfl⟩

theorem accepted_completes {crypto : Crypto} {held : List ℕ} {c : DefragCall} {psta : StaInfo}
    {out r : RecvFrame} (h : Holding (c.frame.slot :: held) c.adapter)
    (hc : c.Completes crypto psta out r) (haccepted : Accepted c) {macAddr : MacAddr}
    {tid : Fin 16} {ctrl : RecvReorderCtrl}
    (hctrl : preorderCtrlOf (c.result crypto).adapter r = some (macAddr, tid, ctrl)) :
    (ctrl.recvIndicatepktReorder r).ret ≠ .fail := by
  have hcleared := h.cleared (f := c.frame.queuedBy psta) (defragOwner_mem hc.owner)
  have hpasses := hc.passes
  have hout := hc.defrag
  have hrejects := haccepted hc.mfrag hc.fragNum hc.ra (recvframeDefrag_consecutive hc.defrag)
  rw [hc.result] at hctrl hpasses
  obtain ⟨hadapter, d, s, rfl⟩ := chkmicOrFree_adapter hpasses
  rw [hadapter] at hctrl
  rw [← hc.fragments] at hcleared
  cases hhead : c.fragments with
  | nil =>
    rw [hhead] at hout
    cases hout
  | cons head rest =>
    rw [hhead] at hout hctrl hcleared hrejects
    obtain ⟨d', s', n, rfl⟩ := defragLoop_same (recvframeDefrag_cons hout).2
    have hstapriv := (@Holding.perm _ (slots rest ++ head.slot :: held) _ hcleared
      List.perm_middle).stapriv_freeQueue
    rw [List.tail_cons, preorderCtrlOf_congr hstapriv, preorderCtrlOf_setDefragQ] at hctrl
    have hkept : rejects ctrl head = false := hrejects head rfl (macAddr, tid, ctrl) hctrl
    intro hfail
    have hrejected := (rejects_same ctrl head d s n).symm.trans (rejects_of_fail hfail)
    rw [hkept] at hrejected
    cases hrejected

theorem holding_posthandle {crypto : Crypto} {held : List ℕ} {a : Adapter} {orig : RecvFrame}
    (h : Holding (orig.slot :: held) a)
    (haccepted : ∀ c ∈ posthandleCall crypto a orig, Accepted c) :
    Holding held (recvFuncPosthandle crypto a orig) := by
  rw [recvFuncPosthandle_call]
  cases hcall : posthandleCall crypto a orig with
  | none => exact h.free_held
  | some c =>
    obtain ⟨g, hg, rfl⟩ := Option.map_eq_some_iff.mp hcall
    have hslot : g.slot = orig.slot := by
      obtain ⟨bs, k, rfl⟩ := decryptor_data crypto hg
      rfl
    have hg : Holding (g.slot :: held) a := hslot ▸ h
    refine hg.recvframeChkDefrag.passOn fun r hr => ?_
    rcases recvframeChkDefrag_some (c := ⟨a, g⟩) hr with hwhole | ⟨psta, out, hc⟩
    · obtain ⟨-, d, s, rfl⟩ := chkmicOrFree_adapter hwhole.passes
      exact .inl hslot
    · exact .inr fun _ _ _ hctrl => accepted_completes hg hc (haccepted _ hcall) hctrl

theorem holding_posthandlePending {crypto : Crypto} {held : List ℕ} {a : Adapter}
    (h : Holding held a) (haccepted : ∀ c ∈ pendingCall crypto a, Accepted c) :
    Holding held (posthandlePending crypto a) := by
  unfold posthandlePending
  unfold pendingCall at haccepted
  cases huc : a.recvpriv.ucSwdecPendingQueue with
  | nil => exact h
  | cons f rest =>
    simp only [huc] at haccepted
    refine holding_posthandle ?_ haccepted
    refine ⟨h.balanced.move (List.perm_iff_count.mpr fun n => ?_), h.macAddrs⟩
    simp only [Adapter.queued, huc, slots, List.map_cons, List.count_append, List.count_cons]
    omega

theorem holding_enqueueSwdec {held : List ℕ} {a : Adapter} {g : RecvFrame}
    (h : Holding (g.slot :: held) a) : Holding held (enqueueSwdec a g) := by
  refine ⟨h.balanced.move (List.perm_iff_count.mpr fun n => ?_), h.macAddrs⟩
  simp only [Adapter.queued, enqueueSwdec, slots, List.map_append, List.map_cons, List.map_nil,
    List.count_append, List.count_cons, List.count_nil]
  omega

theorem holding_setStainfo {held : List ℕ} {a : Adapter} {old psta : StaInfo}
    (h : Holding held a) (hold : old ∈ a.stapriv) (hmac : psta.macAddr = old.macAddr)
    (hslots : psta.slots = old.slots) :
    Holding held { a with stapriv := setStainfo a.stapriv psta } := by
  have hqueued : { a with stapriv := setStainfo a.stapriv psta }.queued = a.queued := by
    simp only [Adapter.queued, setStainfo, List.flatMap_map]
    refine congrArg (· ++ _) (List.flatMap_congr fun s hs => ?_)
    cases Decidable.em (s.macAddr = psta.macAddr) with
    | inl hsame =>
      rw [if_pos hsame, hslots, eq_of_macAddr h.macAddrs hs hold (hsame.trans hmac)]
    | inr hsame => rw [if_neg hsame]
  refine h.of_balanced (map_macAddr_setStainfo ..) ?_
  rw [hqueued]
  exact h.balanced

theorem holding_validate {held : List ℕ} {a : Adapter} {f : RecvFrame} (h : Holding held a) :
    Holding held (validateRecvDataFrame a f).adapter := by
  unfold validateRecvDataFrame
  split
  · exact h
  · rename_i g psta hok
    obtain ⟨-, old, hold, rxcache, hpsta⟩ := decacheDataFrame_ok hok
    have hmac : psta.macAddr = old.macAddr := by rw [hpsta]
    have hslots : psta.slots = old.slots := by
      rw [hpsta]
      rfl
    have hset := holding_setStainfo h hold hmac hslots
    unfold checkPn
    split
    · split
      · exact hset
      · exact ⟨hset.balanced, hset.macAddrs⟩
    · exact holding_setStainfo hset (List.mem_map.mpr ⟨old, hold, if_pos hmac.symm⟩) rfl rfl

theorem checkMgnt_same (crypto : Crypto) (a : Adapter) (f : RecvFrame) :
    (∃ sec, (checkMgnt crypto a f).adapter = { a with securitypriv := sec }) ∧
      (checkMgnt crypto a f).frame.slot = f.slot := by
  have hdecrypt (psta : StaInfo) (g : RecvFrame) :
      (decryptMgmt crypto a psta g).adapter = a ∧
        (decryptMgmt crypto a psta g).frame.slot = g.slot := by
    unfold decryptMgmt
    dsimp only
    split
    · exact ⟨rfl, rfl⟩
    · split
      · exact ⟨rfl, rfl⟩
      · rename_i d hd
        obtain ⟨bs, k, rfl⟩ := decryptor_data crypto hd
        exact ⟨rfl, rfl⟩
  unfold checkMgnt validateMgmtProtect
  dsimp only
  split
  · exact ⟨⟨_, rfl⟩, rfl⟩
  split
  · exact ⟨⟨_, rfl⟩, rfl⟩
  split
  · rename_i psta _ _
    obtain ⟨hadapter, hslot⟩ := hdecrypt psta { f with
      psta := (rtwGetStainfo a.stapriv (macAt f.rxData 10)).map StaInfo.macAddr }
    exact ⟨⟨_, hadapter⟩, hslot⟩
  split
  · split
    · exact ⟨⟨_, rfl⟩, rfl⟩
    · split
      · exact ⟨⟨_, rfl⟩, rfl⟩
      · exact ⟨⟨_, rfl⟩, rfl⟩
  · split
    · exact ⟨⟨_, rfl⟩, rfl⟩
    · exact ⟨⟨_, rfl⟩, rfl⟩

def mgntSender (a : Adapter) (f : RecvFrame) : Option StaInfo :=
  rtwGetStainfo a.stapriv (macAt f.rxData 10)

def preparedMgnt (a : Adapter) (psta : StaInfo) (f : RecvFrame) : RecvFrame :=
  mgmtPrepared psta { f with psta := (mgntSender a f).map StaInfo.macAddr }

structure MgmtKept (crypto : Crypto) (a : Adapter) (f : RecvFrame) : Prop where
  decrypts : ∀ psta ∈ (mgntSender a f).filter StaInfo.mfp,
    a.securitypriv.binstallBipKey = true → f.attrib.privacy = true →
      (preparedMgnt a psta f).pastIv + (preparedMgnt a psta f).icvLen ≤ f.attrib.pktLen →
        decryptor crypto a (preparedMgnt a psta f) ≠ none
  whole : ∀ c ∈ mgntCall crypto a f, c.frame.attrib.mfrag = false →
    c.frame.attrib.fragNum = 0 ∧
      (c.frame.attrib.privacy = true → recvframeChkmic crypto c.adapter c.frame ≠ none)
  queued : ∀ c ∈ mgntCall crypto a f, c.frame.attrib.mfrag = true →
    isMcast c.frame.attrib.ra = false ∧ defragOwner c.adapter c.frame ≠ none

instance (crypto : Crypto) (a : Adapter) (f : RecvFrame) : Decidable (MgmtKept crypto a f) :=
  decidable_of_iff (_ ∧ _ ∧ _)
    ⟨fun h => ⟨h.1, h.2.1, h.2.2⟩, fun h => ⟨h.decrypts, h.whole, h.queued⟩⟩

theorem not_freed {crypto : Crypto} {a : Adapter} {f : RecvFrame} (h : MgmtKept crypto a f) :
    (checkMgnt crypto a f).freed = false := by
  have hdecrypts := h.decrypts
  unfold checkMgnt validateMgmtProtect
  dsimp only
  split
  · rfl
  rename_i hbip
  split
  · rfl
  rename_i psta hpsta
  split
  · rename_i hprivacy
    unfold decryptMgmt
    dsimp only
    split
    · rfl
    · rename_i hlen
      have hsome := hdecrypts psta hpsta (by simpa using hbip) hprivacy (Nat.le_of_not_lt hlen)
      split
      · rename_i hnone
        exact absurd hnone hsome
      · rfl
  split
  · split
    · rfl
    · split <;> rfl
  · split <;> rfl

theorem mem_queued_setDefragQ {a : Adapter} {psta : StaInfo} {f : RecvFrame} {q : List RecvFrame}
    (hpsta : psta ∈ a.stapriv) (hf : f ∈ q) :
    f.slot ∈ (setDefragQ a psta.macAddr q).queued := by
  refine List.mem_append_left _ (List.mem_flatMap.mpr ⟨{ psta with defragQ := q }, ?_, ?_⟩)
  · exact List.mem_map.mpr ⟨psta, hpsta, if_pos rfl⟩
  · exact List.mem_append_left _ (List.mem_map_of_mem hf)

theorem mgnt_result {crypto : Crypto} {a : Adapter} {f : RecvFrame} {c : DefragCall}
    (h : MgmtKept crypto a f) (hc : mgntCall crypto a f = some c) {held : List ℕ}
    (hheld : Holding (c.frame.slot :: held) c.adapter) :
    Holding held (rtwFreeRecvframe (c.result crypto).adapter c.frame.slot) := by
  have hresult := @Holding.recvframeChkDefrag crypto _ _ _ hheld
  change Holding ((c.result crypto).slots ++ held) (c.result crypto).adapter at hresult
  cases hmfrag : c.frame.attrib.mfrag with
  | false =>
    obtain ⟨hzero, hmic⟩ := h.whole c hc hmfrag
    have heq : c.result crypto = chkmicOrFree crypto c.adapter c.frame := by
      rw [DefragCall.result, recvframeChkDefrag, if_pos ⟨hmfrag, hzero⟩]
    have hsome : ∃ r, (chkmicOrFree crypto c.adapter c.frame).frame = some r := by
      unfold chkmicOrFree
      split
      · rename_i hprivacy
        obtain ⟨r, hr⟩ := Option.ne_none_iff_exists'.mp (hmic hprivacy)
        rw [hr]
        exact ⟨r, rfl⟩
      · exact ⟨c.frame, rfl⟩
    obtain ⟨r, hr⟩ := hsome
    rw [heq, (chkmicOrFree_adapter hr).1]
    exact hheld.free_held
  | true =>
    obtain ⟨hra, howner⟩ := h.queued c hc hmfrag
    obtain ⟨psta, hpsta⟩ := Option.ne_none_iff_exists'.mp howner
    have hmem := defragOwner_mem hpsta
    have hnone : (c.result crypto).slots = [] ∧
        c.frame.slot ∈ (c.result crypto).adapter.queued := by
      simp only [DefragCall.result, recvframeChkDefrag, hmfrag, hra, hpsta, Bool.true_eq_false,
        false_and, if_false, Bool.false_eq_true]
      split
      · refine ⟨rfl, ?_⟩
        have hflush : psta.unlinkAll psta.defragQ ∈
            (rtwFreeRecvframeQueue c.adapter psta.defragQ).stapriv := by
          rw [freeQueue_stapriv]
          exact List.mem_map_of_mem hmem
        rw [← unlinkAll_macAddr psta.defragQ psta]
        exact mem_queued_setDefragQ (f := c.frame.queuedBy psta) hflush List.mem_cons_self
      · refine ⟨rfl, mem_queued_setDefragQ (f := c.frame.queuedBy psta) hmem ?_⟩
        exact List.mem_append_right _ List.mem_cons_self
    rw [hnone.1] at hresult
    exact hresult.free_queued hnone.2

theorem holding_mgnt {crypto : Crypto} {held : List ℕ} {a : Adapter} {f : RecvFrame}
    (h : Holding (f.slot :: held) a) (hkept : MgmtKept crypto a f) :
    Holding held (rtwFreeRecvframe (validateRecvMgntFrame crypto a f) f.slot) := by
  obtain ⟨⟨sec, hadapter⟩, hslot⟩ := checkMgnt_same crypto a f
  have hchecked : Holding (f.slot :: held) (checkMgnt crypto a f).adapter := by
    rw [hadapter]
    exact ⟨h.balanced, h.macAddrs⟩
  rw [validateRecvMgntFrame_call]
  cases hcall : mgntCall crypto a f with
  | none =>
    rw [not_freed hkept]
    exact hchecked.free_held
  | some c =>
    have hc := hcall
    unfold mgntCall at hc
    dsimp only at hc
    split at hc
    · cases hc
      rw [← hslot] at hchecked ⊢
      exact mgnt_result hkept hcall hchecked
    · cases hc

def FrameMeets (crypto : Crypto) (a : Adapter) (f : RecvFrame) : Prop :=
  (frameControl f.rxData % 4 = 0 ∧ getFrameType f.rxData = wifiMgtType →
      MgmtKept crypto a { f with attrib := f.attrib.ofHeader f.rxData }) ∧
    (getFrameType f.rxData = wifiDataType → ∀ c ∈ frameCall crypto a f, Accepted c)

instance (crypto : Crypto) (a : Adapter) (f : RecvFrame) : Decidable (FrameMeets crypto a f) :=
  inferInstanceAs (Decidable (_ ∧ _))

theorem holding_prehandle {crypto : Crypto} {held : List ℕ} {a : Adapter} {f : RecvFrame}
    (h : Holding (f.slot :: held) a) (hmeets : FrameMeets crypto a f) :
    Holding (slots (recvFuncPrehandle crypto a f).frame.toList ++ held)
      (recvFuncPrehandle crypto a f).adapter := by
  unfold recvFuncPrehandle
  dsimp only
  split
  · exact h.free_held
  rename_i hver
  split
  · rename_i hmgt
    exact holding_mgnt (f := { f with attrib := f.attrib.ofHeader f.rxData }) h
      (hmeets.1 ⟨not_not.mp hver, hmgt⟩)
  split
  · have hvalid := holding_validate (f := f.dataFrame) h
    split
    · have hslot : (validateRecvDataFrame a f.dataFrame).frame.slot = f.slot :=
        congrArg FrameBody.slot (validateRecvDataFrame_body a f.dataFrame)
      rw [← hslot] at hvalid
      exact hvalid
    · exact hvalid.free_held
  · exact h.free_held

theorem prehandle_type {crypto : Crypto} {a b : Adapter} {f g : RecvFrame}
    (h : recvFuncPrehandle crypto a f = ⟨b, some g⟩) : getFrameType f.rxData = wifiDataType := by
  unfold recvFuncPrehandle at h
  dsimp only at h
  split at h
  · cases h
  split at h
  · cases h
  split at h
  · assumption
  · cases h

theorem holding_recvFuncFrame {crypto : Crypto} {held : List ℕ} {a : Adapter} {f : RecvFrame}
    (h : Holding (f.slot :: held) a) (hmeets : FrameMeets crypto a f) :
    Holding held (recvFuncFrame crypto a f) := by
  have hpre := holding_prehandle h hmeets
  have haccepted := hmeets.2
  unfold recvFuncFrame
  unfold frameCall at haccepted
  cases hout : recvFuncPrehandle crypto a f with
  | mk b frame =>
    rw [hout] at hpre
    cases frame with
    | none => exact hpre
    | some g =>
      have haccepted := haccepted (prehandle_type hout)
      simp only [hout] at haccepted ⊢
      split
      · rename_i hto
        rw [if_pos hto] at haccepted
        have henq := holding_enqueueSwdec hpre
        split
        · rename_i hcnt
          rw [if_pos hcnt] at haccepted
          exact holding_posthandlePending henq haccepted
        · exact henq
      · rename_i hto
        rw [if_neg hto] at haccepted
        exact holding_posthandle hpre haccepted

theorem holding_freeStainfo {held : List ℕ} {a : Adapter} {psta : StaInfo} (h : Holding held a)
    (hpsta : psta ∈ a.stapriv) : Holding held (freeStainfo a psta) := by
  obtain ⟨q, hq⟩ : ∃ q, q = (List.finRange 16).flatMap (fun tid =>
    (psta.recvreorderCtrl tid).pendingRecvframeQueue) ++ psta.defragQ := ⟨_, rfl⟩
  have hslots : (slots q).Perm psta.slots := by
    rw [hq, slots, List.map_append, List.map_flatMap]
    exact List.perm_append_comm
  have hnodup : psta.slots.Nodup := by
    have hqueued := h.balanced.nodup_queued List.nodup_range
    exact (List.nodup_flatMap.mp (List.nodup_append.mp hqueued).1).1 psta hpsta
  have hfree : Holding held (rtwFreeRecvframeQueue a q) := by
    refine h.freeQueue_queued (hslots.nodup_iff.mpr hnodup) fun f hf => ?_
    refine List.mem_append_left _ (List.mem_flatMap.mpr ⟨psta, hpsta, ?_⟩)
    exact hslots.mem_iff.mp (List.mem_map_of_mem hf)
  have hempty : ∀ s ∈ (rtwFreeRecvframeQueue a q).stapriv, (s.macAddr != psta.macAddr) = false →
      s.slots = [] := by
    intro s hs hmac
    rw [freeQueue_stapriv] at hs
    obtain ⟨t, ht, rfl⟩ := List.mem_map.mp hs
    have hsame := eq_of_macAddr h.macAddrs ht hpsta
      ((unlinkAll_macAddr q t).symm.trans (bne_eq_false_iff_eq.mp hmac))
    refine List.eq_nil_iff_forall_not_mem.mpr fun n hn => ?_
    obtain ⟨hmem, hnot⟩ := slots_unlinkAll q t hn
    exact hnot (hslots.mem_iff.mpr (hsame ▸ hmem))
  have hqueued : (freeStainfo a psta).queued = (rtwFreeRecvframeQueue a q).queued := by
    rw [Adapter.queued, Adapter.queued, ← Ledger.flatMap_filter_of_nil hempty, hq]
    rfl
  refine ⟨?_, ?_⟩
  · rw [hqueued, freeStainfo, ← hq]
    exact hfree.balanced
  · rw [freeStainfo, ← hq]
    exact hfree.macAddrs.sublist (List.filter_sublist.map _)

theorem holding_timeout {held : List ℕ} {a : Adapter} (h : Holding held a) (macAddr : MacAddr)
    (tid : Fin 16) (cannotRun : Bool) : Holding held (timeout a macAddr tid cannotRun) := by
  unfold timeout
  split
  · exact h
  rename_i psta hfind
  have hpsta := List.mem_of_find?_eq_some hfind
  have hmac : psta.macAddr = macAddr := by simpa using List.find?_some hfind
  subst hmac
  have happend := timeoutHandler_append (psta.recvreorderCtrl tid) cannotRun
  refine Holding.freeQueue_held (h.setReorderCtrl hpsta (List.perm_iff_count.mpr fun n => ?_))
  have hcount := congrArg (fun q => (slots q).count n) happend
  simp only [slots, StaInfo.pending, List.map_append, List.count_append] at hcount ⊢
  omega

theorem holding_allocStainfo {held : List ℕ} {a : Adapter} {macAddr : MacAddr}
    (h : Holding held a) (hnew : (a.stapriv.any fun psta => psta.macAddr == macAddr) = false) :
    Holding held { a with stapriv := a.stapriv ++ [rtwAllocStainfo macAddr] } := by
  have hempty : (rtwAllocStainfo macAddr).slots = [] :=
    (List.nil_append _).trans (List.flatMap_eq_nil_iff.mpr fun _ _ => rfl)
  refine ⟨?_, ?_⟩
  · have hqueued : { a with stapriv := a.stapriv ++ [rtwAllocStainfo macAddr] }.queued =
        a.queued := by
      simp only [Adapter.queued, List.flatMap_append, List.flatMap_singleton, hempty,
        List.append_nil]
    rw [hqueued]
    exact h.balanced
  · rw [Adapter.macAddrs, List.map_append]
    refine List.nodup_append.mpr ⟨h.macAddrs, List.nodup_singleton _, ?_⟩
    intro mac hmac mac' hmac'
    obtain ⟨s, hs, rfl⟩ := List.mem_map.mp hmac
    rw [List.map_singleton, List.mem_singleton] at hmac'
    rw [hmac']
    have hne := List.any_eq_false.mp hnew s hs
    exact fun hmac => hne (beq_iff_eq.mpr hmac)

theorem holding_arrive {s : RxState} (h : Holding (slots s.inHand.toList) s.adapter)
    (p : RxPacket) : Holding (slots (arrive s p).inHand.toList) (arrive s p).adapter := by
  unfold arrive
  split
  · exact h
  rename_i hhand
  rw [hhand] at h
  unfold rtwAllocRecvframe
  cases hfree : s.adapter.recvpriv.freeRecvQueue with
  | nil =>
    dsimp only
    rw [hhand]
    exact h
  | cons slot rest =>
    have htake := h.balanced
    rw [hfree] at htake
    have hheld : Holding [slot] { s.adapter with recvpriv := { s.adapter.recvpriv with
        freeRecvQueue := rest
        freeRecvframeCnt := s.adapter.recvpriv.freeRecvframeCnt - 1 } } :=
      ⟨htake.take, h.macAddrs⟩
    dsimp only
    split
    · exact hheld.free_held
    · exact hheld

def Conserved (s : RxState) : Prop :=
  Ledger.Balanced (List.range nrRecvframe) (slots s.inHand.toList) s.adapter.recvpriv.freeRecvQueue
    s.adapter.queued s.adapter.recvpriv.freeRecvframeCnt

def Meets (crypto : Crypto) (s : RxState) : Event → Prop
  | .pending => ∀ c ∈ pendingCall crypto s.adapter, Accepted c
  | .handle => ∀ f ∈ s.inHand, s.adapter.fwState.monitor = false → FrameMeets crypto s.adapter f
  | _ => True

instance (crypto : Crypto) (s : RxState) (e : Event) : Decidable (Meets crypto s e) := by
  cases e <;> unfold Meets <;> infer_instance

theorem holding_step {crypto : Crypto} {s : RxState} {e : Event}
    (h : Holding (slots s.inHand.toList) s.adapter) (he : Meets crypto s e) :
    Holding (slots (step crypto s e).inHand.toList) (step crypto s e).adapter := by
  cases e with
  | arrive p => exact holding_arrive h p
  | pending => exact holding_posthandlePending h he
  | handle =>
    simp only [step, handle]
    cases hhand : s.inHand with
    | none =>
      dsimp only
      rwa [hhand] at h ⊢
    | some f =>
      rw [hhand] at h
      dsimp only
      split
      · exact h.free_held
      · rename_i hmonitor
        exact holding_recvFuncFrame h (he f hhand (Bool.eq_false_of_not_eq_true hmonitor))
  | timeout macAddr tid cannotRun => exact holding_timeout h ..
  | allocStainfo macAddr =>
    simp only [step]
    split
    · exact h
    · rename_i hnew
      exact holding_allocStainfo h (Bool.eq_false_of_not_eq_true hnew)
  | freeStainfo macAddr =>
    simp only [step]
    split
    · exact h
    · rename_i psta hfind
      exact holding_freeStainfo h (List.mem_of_find?_eq_some hfind)
  | freeSwdecPending =>
    have hnodup := (List.nodup_append.mp (h.balanced.nodup_queued List.nodup_range)).2.1
    exact h.freeQueue_queued hnodup fun f hf =>
      List.mem_append_right _ (List.mem_map_of_mem hf)
  | setStakey macAddr key => exact h.updateSta_same macAddr (fun _ => rfl) fun _ => rfl
  | configure psta => exact h.updateSta_same psta.macAddr (fun _ => rfl) fun _ => rfl
  | session macAddr tid c =>
    refine h.updateSta_same macAddr (fun _ => rfl) fun psta => ?_
    rw [StaInfo.slots, StaInfo.slots]
    refine congrArg (_ ++ ·) (List.flatMap_congr fun t _ => ?_)
    cases Decidable.em (t = tid) with
    | inl ht =>
      subst ht
      simp only [StaInfo.pending, StaInfo.setSession, StaInfo.setReorderCtrl, Function.update_self]
    | inr ht =>
      simp only [StaInfo.pending, StaInfo.setSession, StaInfo.setReorderCtrl,
        Function.update_of_ne ht]
  | security sec => exact ⟨h.balanced, h.macAddrs⟩
  | mlme fwState bssid => exact ⟨h.balanced, h.macAddrs⟩

theorem holding_start (fwState : FwState) (macAddr bssid : MacAddr) (sec : SecurityPriv) :
    Holding (slots (start fwState macAddr bssid sec).inHand.toList)
      (start fwState macAddr bssid sec).adapter := by
  refine ⟨⟨?_, ?_⟩, List.nodup_nil⟩
  · simp only [start, rtwInitRecvPriv, Adapter.queued, slots, Option.toList_none, List.map_nil,
      List.flatMap_nil, List.append_nil, List.nil_append, List.Perm.refl]
  · simp only [start, rtwInitRecvPriv, List.length_range]

theorem frames_conserved (crypto : Crypto) (fwState : FwState) (macAddr bssid : MacAddr)
    (sec : SecurityPriv) {es : List Event}
    (hes : Run.Each (step crypto) (Meets crypto) (start fwState macAddr bssid sec) es) :
    Conserved (start fwState macAddr bssid sec) ∧
      Run.Each (step crypto) (fun s e => Conserved (step crypto s e))
        (start fwState macAddr bssid sec) es :=
  ⟨(holding_start fwState macAddr bssid sec).balanced,
    Run.each_of_each (step crypto) (Meets crypto) _
      (fun s : RxState => Holding (slots s.inHand.toList) s.adapter)
      (fun _ _ hs he => (holding_step hs he).balanced) (fun _ _ hs he => holding_step hs he)
      (holding_start fwState macAddr bssid sec) hes⟩

open DefragSound in
def beacon (seqFrag : UInt8) : RxPacket where
  attrib := .zero
  data := [0x80, 0, 0, 0] ++ ownAddr.toList ++ apAddr.toList ++ apAddr.toList ++ [seqFrag, 0]
  spare := List.replicate 16 0
  normalRx := true
  whole := true
  copied := true

open DefragSound in
theorem frames_conserved_two :
    let es := twoFragments 0x11 ++ [.handle, .arrive (beacon 0x10), .handle]
    Run.Each (step .rejecting) (fun s e => Conserved (step .rejecting s e))
      (start associated ownAddr apAddr .zero) es :=
  (frames_conserved .rejecting _ _ _ _ (by decide +kernel)).2

open DefragSound in
theorem fragmented_beacon_freed_twice :
    ¬Run.Each (step .rejecting) (fun s e => Conserved (step .rejecting s e))
      (start associated ownAddr apAddr .zero) [.arrive (beacon 0x11), .handle] := by
  intro h
  have hcount := h.2.1.count
  have hcnt : (Run.exec (step .rejecting) (start associated ownAddr apAddr .zero)
      [.arrive (beacon 0x11), .handle]).adapter.recvpriv.freeRecvframeCnt = 257 := by
    decide +kernel
  have hlen : (Run.exec (step .rejecting) (start associated ownAddr apAddr .zero)
      [.arrive (beacon 0x11), .handle]).adapter.recvpriv.freeRecvQueue.length = 256 := by
    decide +kernel
  have hsame : (257 : ℤ) = (256 : ℕ) := hcnt.symm.trans (hcount.trans (congrArg Nat.cast hlen))
  exact absurd hsame (by decide)

end FrameConservation

end Recv
