import Rtl8188fu.Recv.FrameLedger

namespace Recv

open RecvReorderCtrl

def Defragged.slots (d : Defragged) : List ℕ := Recv.slots d.frame.toList

theorem recvframeChkmic_slot {crypto : Crypto} {a : Adapter} {f r : RecvFrame}
    (h : recvframeChkmic crypto a f = some r) : ∃ d s, r = { f with data := d, spare := s } := by
  rcases recvframeChkmic_some h with ⟨-, rfl⟩ | ⟨-, rfl, -⟩
  · exact ⟨_, _, rfl⟩
  · exact f.recvframePullTail_same 8

theorem preorderCtrlOf_some {a : Adapter} {f : RecvFrame} {macAddr : MacAddr} {tid : Fin 16}
    {c : RecvReorderCtrl} (h : preorderCtrlOf a f = some (macAddr, tid, c)) :
    ∃ psta ∈ a.stapriv, psta.macAddr = macAddr ∧ c = psta.recvreorderCtrl tid := by
  unfold preorderCtrlOf at h
  split at h
  · obtain ⟨psta, hfind, heq⟩ := Option.map_eq_some_iff.mp h
    cases heq
    exact ⟨psta, List.mem_of_find?_eq_some hfind, by simpa using List.find?_some hfind, rfl⟩
  · cases h

namespace Holding

variable {crypto : Crypto} {held : List ℕ} {a : Adapter} {f : RecvFrame}

theorem chkmicOrFree (h : Holding (f.slot :: held) a) :
    Holding ((chkmicOrFree crypto a f).slots ++ held) (chkmicOrFree crypto a f).adapter := by
  unfold Recv.chkmicOrFree
  split
  · split
    · exact h.free_held
    · rename_i r hr
      obtain ⟨d, s, rfl⟩ := recvframeChkmic_slot hr
      exact h
  · exact h

theorem cleared {psta : StaInfo} (h : Holding (f.slot :: held) a) (hpsta : psta ∈ a.stapriv) :
    Holding (slots (psta.defragQ ++ [f]) ++ held) (Recv.setDefragQ a psta.macAddr []) := by
  refine h.setDefragQ hpsta (List.perm_iff_count.mpr fun n => ?_)
  simp only [slots, List.map_append, List.map_cons, List.map_nil, List.count_append,
    List.count_cons, List.count_nil]
  omega

theorem defragLast {psta : StaInfo} (h : Holding (f.slot :: held) a) (hpsta : psta ∈ a.stapriv) :
    let d := defragLast crypto a psta.macAddr (psta.defragQ ++ [f])
    Holding (d.slots ++ held) d.adapter := by
  intro d
  have hclear := h.cleared hpsta
  cases hout : recvframeDefrag (psta.defragQ ++ [f]) with
  | none =>
    have hd : d = ⟨rtwFreeRecvframeQueue (Recv.setDefragQ a psta.macAddr []) (psta.defragQ ++ [f]),
        none⟩ := by
      simp only [d, Recv.defragLast, hout]
    rw [hd]
    exact hclear.freeQueue_held
  | some out =>
    have hd : d = Recv.chkmicOrFree crypto (rtwFreeRecvframeQueue (Recv.setDefragQ a psta.macAddr [])
        (psta.defragQ ++ [f]).tail) out := by
      simp only [d, Recv.defragLast, hout]
    rw [hd]
    refine chkmicOrFree (freeQueue_held ?_)
    cases hq : psta.defragQ ++ [f] with
    | nil => exact absurd hq (by simp)
    | cons head rest =>
      rw [hq] at hout hclear
      obtain ⟨d', s, n, rfl⟩ := defragLoop_same (recvframeDefrag_cons hout).2
      exact hclear.perm List.perm_middle

theorem flush {psta : StaInfo} (h : Holding (f.slot :: held) a) (hpsta : psta ∈ a.stapriv) :
    Holding held (Recv.setDefragQ (rtwFreeRecvframeQueue a psta.defragQ) psta.macAddr [f]) := by
  have hsub : ∀ n ∈ slots psta.defragQ, n ∈ a.queued := fun n hn =>
    List.mem_append_left _ (List.mem_flatMap.mpr ⟨psta, hpsta, List.mem_append_left _ hn⟩)
  have hnodup : (slots psta.defragQ).Nodup := by
    have hqueued := h.balanced.nodup_queued List.nodup_range
    have hflat := (List.nodup_append.mp hqueued).1
    have hsta := (List.nodup_flatMap.mp hflat).1 psta hpsta
    exact (List.nodup_append.mp hsta).1
  have hfree := h.freeQueue_queued hnodup fun g hg => hsub _ (List.mem_map_of_mem hg)
  have hmem : psta.unlinkAll psta.defragQ ∈ (rtwFreeRecvframeQueue a psta.defragQ).stapriv := by
    rw [freeQueue_stapriv]
    exact List.mem_map_of_mem hpsta
  have hempty : slots (psta.unlinkAll psta.defragQ).defragQ = [] := by
    refine List.eq_nil_iff_forall_not_mem.mpr fun n hn => ?_
    obtain ⟨-, hnot⟩ := slots_unlinkAll psta.defragQ psta (List.mem_append_left _ hn)
    obtain ⟨g, hg, rfl⟩ := List.mem_map.mp hn
    exact hnot (List.mem_map_of_mem (defragQ_unlinkAll _ psta hg))
  rw [← unlinkAll_macAddr psta.defragQ psta]
  refine hfree.setDefragQ hmem ?_
  rw [hempty, List.append_nil]
  exact List.perm_append_singleton ..

theorem recvframeChkDefrag (h : Holding (f.slot :: held) a) :
    Holding ((recvframeChkDefrag crypto a f).slots ++ held)
      (recvframeChkDefrag crypto a f).adapter := by
  unfold Recv.recvframeChkDefrag
  split
  · exact h.chkmicOrFree
  split
  · exact h.free_held
  split
  · exact h.free_held
  rename_i psta howner
  have hpsta := defragOwner_mem howner
  dsimp only
  split
  · exact defragLast (f := { f with keytrack := psta.keytrack }) h hpsta
  split
  · exact flush (f := { f with keytrack := psta.keytrack }) h hpsta
  · refine h.setDefragQ hpsta ?_
    simp only [slots, List.map_append, List.map_cons, List.map_nil, Defragged.slots,
      Option.toList_none, List.nil_append]
    exact List.perm_iff_count.mpr fun n => by
      simp only [List.count_append, List.count_cons, List.count_nil]
      omega

theorem indicateOne (h : Holding (f.slot :: held) a) (seqNum : ℕ) :
    Holding held (indicateOne a f seqNum) := by
  have hset {held : List ℕ} {a : Adapter} {macAddr : MacAddr} {tid : Fin 16}
      {c c' : RecvReorderCtrl} (h : Holding held a)
      (hc : preorderCtrlOf a f = some (macAddr, tid, c))
      (hq : c'.pendingRecvframeQueue = c.pendingRecvframeQueue) :
      Holding held (Recv.updateSta a macAddr (StaInfo.setReorderCtrl tid c')) := by
    obtain ⟨psta, hpsta, rfl, rfl⟩ := preorderCtrlOf_some hc
    refine h.setReorderCtrl hpsta ?_
    rw [hq]
    exact List.Perm.refl _
  unfold Recv.indicateOne
  split
  · exact h.free_held
  · rename_i macAddr tid c hc
    have hfree := (@hset _ _ _ _ _ (c.recvSetIseqBefore seqNum) h hc rfl).free_held
    dsimp only
    split
    · exact hfree
    · rename_i mac tid' c' hc'
      exact hset hfree hc' rfl

theorem reorderAndIndicate {orig : RecvFrame} (h : Holding (f.slot :: held) a)
    (haccepted : f.slot = orig.slot ∨ ∀ macAddr tid c,
      preorderCtrlOf a f = some (macAddr, tid, c) → (c.recvIndicatepktReorder f).ret ≠ .fail) :
    Holding held (reorderAndIndicate a orig f) := by
  unfold Recv.reorderAndIndicate
  split
  · exact h.indicateOne _
  rename_i macAddr tid c hc
  obtain ⟨psta, hpsta, rfl, rfl⟩ := preorderCtrlOf_some hc
  have hreorders := recvIndicatepktReorder_reorders (psta.recvreorderCtrl tid) f
  have hret := fun hf : f.slot ≠ orig.slot =>
    (haccepted.resolve_left hf) psta.macAddr tid (psta.recvreorderCtrl tid) hc
  generalize (psta.recvreorderCtrl tid).recvIndicatepktReorder f = r at hreorders hret ⊢
  cases hreorders with
  | success =>
    refine indicateOne (h.setReorderCtrl hpsta ?_) _
    exact List.Perm.refl _
  | fail c' hq =>
    have hslot : f.slot = orig.slot := by
      by_contra hne
      exact hret hne rfl
    rw [hslot] at h
    refine free_held (h.setReorderCtrl hpsta ?_)
    rw [hq]
    exact List.Perm.refl _
  | handled c' indicated hperm =>
    refine freeQueue_held (h.setReorderCtrl hpsta (List.perm_iff_count.mpr fun n => ?_))
    have hcount := (hperm.map RecvFrame.slot).count_eq n
    simp only [slots, StaInfo.pending, List.map_append, List.map_cons, List.count_append,
      List.count_cons] at hcount ⊢
    omega

theorem passOn {orig : RecvFrame} {d : Defragged} (h : Holding (d.slots ++ held) d.adapter)
    (haccepted : ∀ r ∈ d.frame, r.slot = orig.slot ∨ ∀ macAddr tid c,
      preorderCtrlOf d.adapter r = some (macAddr, tid, c) →
        (c.recvIndicatepktReorder r).ret ≠ .fail) : Holding held (passOn orig d) := by
  obtain ⟨b, frame⟩ := d
  cases frame with
  | none => exact h
  | some r =>
    simp only [Recv.passOn]
    split
    · exact h.reorderAndIndicate (haccepted r rfl)
    · exact h.free_held

end Holding

theorem unlink_of_notMem {slot : ℕ} {q : List RecvFrame} (h : slot ∉ slots q) :
    unlink slot q = q := by
  refine List.filter_eq_self.mpr fun f hf => bne_iff_ne.mpr ?_
  rintro rfl
  exact h (List.mem_map_of_mem hf)

theorem unlink_sta_of_notMem {slot : ℕ} {psta : StaInfo} (h : slot ∉ psta.slots) :
    psta.unlink slot = psta := by
  simp only [StaInfo.slots, List.mem_append, List.mem_flatMap, not_or] at h
  have hctrl : (psta.unlink slot).recvreorderCtrl = psta.recvreorderCtrl := by
    funext tid
    have hpending : slot ∉ psta.pending tid := fun hmem =>
      h.2 ⟨tid, List.mem_finRange tid, hmem⟩
    simp only [StaInfo.unlink, unlink_of_notMem hpending]
  rw [StaInfo.unlink] at hctrl ⊢
  rw [unlink_of_notMem h.1]
  exact congrArg (fun ctrl => { psta with recvreorderCtrl := ctrl }) hctrl

theorem Holding.stapriv_freeQueue {held : List ℕ} {a : Adapter} {q : List RecvFrame}
    (h : Holding (slots q ++ held) a) : (rtwFreeRecvframeQueue a q).stapriv = a.stapriv := by
  induction q generalizing a with
  | nil => rfl
  | cons f rest ih =>
    refine (ih h.free_held).trans ((List.map_congr_left fun psta hpsta => ?_).trans (List.map_id _))
    refine unlink_sta_of_notMem fun hmem => ?_
    have hnodup := (List.nodup_append.mp (h.balanced.nodup List.nodup_range)).2.2
    refine hnodup f.slot List.mem_cons_self f.slot (List.mem_append_right _ ?_) rfl
    exact List.mem_append_left _ (List.mem_flatMap.mpr ⟨psta, hpsta, hmem⟩)

end Recv
