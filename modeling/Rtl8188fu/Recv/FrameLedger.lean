import Rtl8188fu.Lib.Ledger
import Rtl8188fu.Recv.DefragLoop

namespace Recv

open Ledger

def slots (q : List RecvFrame) : List ℕ := q.map RecvFrame.slot

def StaInfo.pending (psta : StaInfo) (tid : Fin 16) : List ℕ :=
  slots (psta.recvreorderCtrl tid).pendingRecvframeQueue

def StaInfo.slots (psta : StaInfo) : List ℕ :=
  Recv.slots psta.defragQ ++ (List.finRange 16).flatMap psta.pending

def Adapter.queued (a : Adapter) : List ℕ :=
  a.stapriv.flatMap StaInfo.slots ++ slots a.recvpriv.ucSwdecPendingQueue

structure Holding (held : List ℕ) (a : Adapter) : Prop where
  balanced : Balanced (List.range nrRecvframe) held a.recvpriv.freeRecvQueue a.queued
    a.recvpriv.freeRecvframeCnt
  macAddrs : a.macAddrs.Nodup

theorem slots_unlink (slot : ℕ) (q : List RecvFrame) :
    slots (unlink slot q) = without slot (slots q) := by
  rw [slots, slots, unlink, without, List.filter_map]
  rfl

theorem staSlots_unlink (slot : ℕ) (psta : StaInfo) :
    (psta.unlink slot).slots = without slot psta.slots := by
  have hpending : (psta.unlink slot).pending = fun tid => without slot (psta.pending tid) := by
    funext tid
    exact slots_unlink ..
  rw [StaInfo.slots, StaInfo.slots, hpending, without, List.filter_append, List.filter_flatMap]
  exact congrArg (· ++ _) (slots_unlink ..)

theorem queued_free (a : Adapter) (slot : ℕ) :
    (rtwFreeRecvframe a slot).queued = without slot a.queued := by
  rw [Adapter.queued, Adapter.queued, without, List.filter_append, List.filter_flatMap]
  refine congrArg₂ (· ++ ·) ?_ (slots_unlink ..)
  change (a.stapriv.map (StaInfo.unlink slot)).flatMap StaInfo.slots = _
  rw [List.flatMap_map]
  exact List.flatMap_congr fun psta _ => staSlots_unlink slot psta

namespace Holding

variable {held held' : List ℕ} {a b : Adapter} {slot : ℕ}

theorem of_balanced (h : Holding held a) (hmacs : b.macAddrs = a.macAddrs)
    (hb : Balanced (List.range nrRecvframe) held' b.recvpriv.freeRecvQueue b.queued
      b.recvpriv.freeRecvframeCnt) : Holding held' b :=
  ⟨hb, hmacs ▸ h.macAddrs⟩

theorem perm (h : Holding held a) (hperm : held'.Perm held) : Holding held' a :=
  ⟨h.balanced.move (hperm.append_right _), h.macAddrs⟩

theorem free_held (h : Holding (slot :: held) a) : Holding held (rtwFreeRecvframe a slot) := by
  refine h.of_balanced (Releases.rtwFreeRecvframe a slot).macAddrs ?_
  rw [queued_free]
  exact h.balanced.release List.nodup_range

theorem free_queued (h : Holding held a) (hslot : slot ∈ a.queued) :
    Holding held (rtwFreeRecvframe a slot) := by
  refine h.of_balanced (Releases.rtwFreeRecvframe a slot).macAddrs ?_
  rw [queued_free]
  exact h.balanced.reclaim List.nodup_range hslot

theorem freeQueue_held {q : List RecvFrame} (h : Holding (slots q ++ held) a) :
    Holding held (rtwFreeRecvframeQueue a q) := by
  induction q generalizing a with
  | nil => exact h
  | cons f rest ih => exact ih h.free_held

theorem freeQueue_queued {q : List RecvFrame} (h : Holding held a) (hnodup : (slots q).Nodup)
    (hq : ∀ f ∈ q, f.slot ∈ a.queued) : Holding held (rtwFreeRecvframeQueue a q) := by
  induction q generalizing a with
  | nil => exact h
  | cons f rest ih =>
    obtain ⟨hf, hrest⟩ := List.forall_mem_cons.mp hq
    obtain ⟨hnot, hnodup⟩ := List.nodup_cons.mp hnodup
    refine ih (h.free_queued hf) hnodup fun g hg => ?_
    rw [queued_free]
    refine List.mem_filter.mpr ⟨hrest g hg, bne_iff_ne.mpr ?_⟩
    intro heq
    exact hnot (heq ▸ List.mem_map_of_mem hg)

end Holding

theorem eq_of_macAddr {a : Adapter} (h : a.macAddrs.Nodup) {s t : StaInfo} (hs : s ∈ a.stapriv)
    (ht : t ∈ a.stapriv) (hmac : s.macAddr = t.macAddr) : s = t :=
  List.inj_on_of_nodup_map h hs ht hmac

theorem queued_updateSta {a : Adapter} (h : a.macAddrs.Nodup) {psta : StaInfo}
    (hpsta : psta ∈ a.stapriv) (g : StaInfo → StaInfo) :
    ((updateSta a psta.macAddr g).queued ++ psta.slots).Perm (a.queued ++ (g psta).slots) := by
  have hupdate := flatMap_update (F := StaInfo.slots)
    (G := fun s => (if s.macAddr = psta.macAddr then g s else s).slots) (List.Nodup.of_map _ h)
    hpsta fun s hs hne => by rw [if_neg fun hmac => hne (eq_of_macAddr h hs hpsta hmac)]
  rw [if_pos rfl] at hupdate
  refine List.perm_iff_count.mpr fun n => ?_
  have hcount := hupdate.count_eq n
  simp only [Adapter.queued, updateSta, List.flatMap_map, List.count_append] at hcount ⊢
  omega

theorem macAddrs_updateSta (a : Adapter) (macAddr : MacAddr) {g : StaInfo → StaInfo}
    (hg : ∀ s, (g s).macAddr = s.macAddr) : (updateSta a macAddr g).macAddrs = a.macAddrs := by
  rw [Adapter.macAddrs, updateSta, List.map_map]
  refine List.map_congr_left fun s _ => ?_
  by_cases hmac : s.macAddr = macAddr <;> simp [hmac, hg]

theorem slots_setReorderCtrl (psta : StaInfo) (tid : Fin 16) (c : RecvReorderCtrl) :
    ((psta.setReorderCtrl tid c).slots ++ psta.pending tid).Perm
      (psta.slots ++ slots c.pendingRecvframeQueue) := by
  have hsame : (psta.setReorderCtrl tid c).pending tid = slots c.pendingRecvframeQueue := by
    simp only [StaInfo.pending, StaInfo.setReorderCtrl, Function.update_self]
  have hupdate := flatMap_update (F := psta.pending) (G := (psta.setReorderCtrl tid c).pending)
    (List.nodup_finRange 16) (List.mem_finRange tid) fun t _ hne => by
      simp only [StaInfo.pending, StaInfo.setReorderCtrl, Function.update_of_ne hne]
  rw [hsame] at hupdate
  rw [StaInfo.slots, StaInfo.slots, List.append_assoc, List.append_assoc]
  exact hupdate.append_left _

namespace Holding

variable {held held' : List ℕ} {a : Adapter} {psta : StaInfo}

theorem updateSta (h : Holding held a) (hpsta : psta ∈ a.stapriv) {g : StaInfo → StaInfo}
    (hg : ∀ s, (g s).macAddr = s.macAddr)
    (hmove : (held' ++ (g psta).slots).Perm (held ++ psta.slots)) :
    Holding held' (updateSta a psta.macAddr g) := by
  refine h.of_balanced (macAddrs_updateSta a psta.macAddr hg) (h.balanced.move ?_)
  refine List.perm_iff_count.mpr fun n => ?_
  have hqueued := (queued_updateSta h.macAddrs hpsta g).count_eq n
  have hcount := hmove.count_eq n
  simp only [List.count_append] at hqueued hcount ⊢
  omega

theorem updateSta_same (h : Holding held a) (macAddr : MacAddr) {g : StaInfo → StaInfo}
    (hg : ∀ s, (g s).macAddr = s.macAddr) (hslots : ∀ s, (g s).slots = s.slots) :
    Holding held (Recv.updateSta a macAddr g) := by
  have hqueued : (Recv.updateSta a macAddr g).queued = a.queued := by
    rw [Adapter.queued, Recv.updateSta, List.flatMap_map]
    refine congrArg (· ++ _) (List.flatMap_congr fun s _ => ?_)
    by_cases hmac : s.macAddr = macAddr <;> simp [hmac, hslots]
  refine h.of_balanced (macAddrs_updateSta a macAddr hg) ?_
  rw [hqueued]
  exact h.balanced

theorem setDefragQ (h : Holding held a) (hpsta : psta ∈ a.stapriv) {q : List RecvFrame}
    (hmove : (held' ++ slots q).Perm (held ++ slots psta.defragQ)) :
    Holding held' (setDefragQ a psta.macAddr q) := by
  refine h.updateSta hpsta (g := fun s => { s with defragQ := q }) (fun _ => rfl) ?_
  rw [StaInfo.slots, StaInfo.slots, ← List.append_assoc, ← List.append_assoc]
  exact hmove.append_right _

theorem setReorderCtrl (h : Holding held a) (hpsta : psta ∈ a.stapriv) {tid : Fin 16}
    {c : RecvReorderCtrl}
    (hmove : (held' ++ slots c.pendingRecvframeQueue).Perm (held ++ psta.pending tid)) :
    Holding held' (Recv.updateSta a psta.macAddr (StaInfo.setReorderCtrl tid c)) := by
  refine h.updateSta hpsta (fun _ => rfl) (List.perm_iff_count.mpr fun n => ?_)
  have hslots := (slots_setReorderCtrl psta tid c).count_eq n
  have hcount := hmove.count_eq n
  simp only [List.count_append] at hslots hcount ⊢
  omega

end Holding

namespace RecvReorderCtrl

theorem enqueue_perm {f : RecvFrame} {q queue : List RecvFrame}
    (h : enqueueReorderRecvframe f q = some queue) : queue.Perm (f :: q) := by
  induction q generalizing queue with
  | nil =>
    cases h
    exact List.Perm.refl _
  | cons next rest ih =>
    unfold enqueueReorderRecvframe at h
    split at h
    · obtain ⟨tail, htail, rfl⟩ := Option.map_eq_some_iff.mp h
      exact ((List.perm_cons next).mpr (ih htail)).trans (List.Perm.swap f next rest)
    · split at h
      · cases h
      · cases h
        exact List.Perm.refl _

theorem indicateLoop_append (n : ℕ) (q : List RecvFrame) :
    (indicateLoop n q).indicated ++ (indicateLoop n q).queue = q := by
  induction q generalizing n with
  | nil => rfl
  | cons f rest ih =>
    unfold indicateLoop
    split
    · rfl
    · exact congrArg (f :: ·) (ih _)

inductive Reorders (c : RecvReorderCtrl) (f : RecvFrame) : Reordered → Prop where
  | success : Reorders c f ⟨c, [], .success⟩
  | fail (c' : RecvReorderCtrl) (h : c'.pendingRecvframeQueue = c.pendingRecvframeQueue) :
    Reorders c f ⟨c', [], .fail⟩
  | handled (c' : RecvReorderCtrl) (indicated : List RecvFrame)
    (h : (indicated ++ c'.pendingRecvframeQueue).Perm (f :: c.pendingRecvframeQueue)) :
    Reorders c f ⟨c', indicated, .handled⟩

theorem recvIndicatepktReorder_reorders (c : RecvReorderCtrl) (f : RecvFrame) :
    Reorders c f (c.recvIndicatepktReorder f) := by
  rcases recvIndicatepktReorder_cases c f with
    ⟨-, he⟩ | ⟨n, c', rfl, he | ⟨queue, r, hqueue, rfl, he⟩⟩
  · rw [he]
    exact .success
  · rw [he]
    exact .fail _ rfl
  · rw [he]
    refine .handled _ _ ?_
    refine (List.Perm.of_eq ?_).trans (enqueue_perm hqueue)
    exact indicateLoop_append n queue

theorem timeoutHandler_append (c : RecvReorderCtrl) (cannotRun : Bool) :
    (c.rtwReorderingCtrlTimeoutHandler cannotRun).2 ++
      (c.rtwReorderingCtrlTimeoutHandler cannotRun).1.pendingRecvframeQueue =
        c.pendingRecvframeQueue := by
  cases cannotRun with
  | true => rfl
  | false =>
    cases hq : c.pendingRecvframeQueue with
    | nil =>
      rw [timeoutHandler_nil hq]
      exact hq
    | cons f fs =>
      rw [timeoutHandler_cons hq rfl, ← hq]
      exact indicateLoop_append _ _

end RecvReorderCtrl

def StaInfo.unlinkAll (q : List RecvFrame) (psta : StaInfo) : StaInfo :=
  q.foldl (fun s f => s.unlink f.slot) psta

theorem freeQueue_stapriv (a : Adapter) (q : List RecvFrame) :
    (rtwFreeRecvframeQueue a q).stapriv = a.stapriv.map (StaInfo.unlinkAll q) := by
  induction q generalizing a with
  | nil => exact (List.map_id _).symm
  | cons f rest ih =>
    refine (ih (rtwFreeRecvframe a f.slot)).trans ?_
    change (a.stapriv.map (StaInfo.unlink f.slot)).map _ = _
    rw [List.map_map]
    rfl

theorem unlinkAll_macAddr (q : List RecvFrame) (psta : StaInfo) :
    (psta.unlinkAll q).macAddr = psta.macAddr := by
  induction q generalizing psta with
  | nil => rfl
  | cons f rest ih => exact ih (psta.unlink f.slot)

theorem slots_unlinkAll (q : List RecvFrame) (psta : StaInfo) {n : ℕ}
    (hn : n ∈ (psta.unlinkAll q).slots) : n ∈ psta.slots ∧ n ∉ slots q := by
  induction q generalizing psta with
  | nil => exact ⟨hn, List.not_mem_nil⟩
  | cons f rest ih =>
    obtain ⟨hmem, hrest⟩ := ih (psta.unlink f.slot) hn
    rw [staSlots_unlink] at hmem
    obtain ⟨hmem, hne⟩ := List.mem_filter.mp hmem
    refine ⟨hmem, fun hq => ?_⟩
    rcases List.mem_cons.mp hq with heq | hq
    · exact bne_iff_ne.mp hne heq
    · exact hrest hq

theorem defragQ_unlinkAll (q : List RecvFrame) (psta : StaInfo) :
    (psta.unlinkAll q).defragQ ⊆ psta.defragQ := by
  induction q generalizing psta with
  | nil => exact List.Subset.refl _
  | cons f rest ih =>
    exact List.Subset.trans (ih (psta.unlink f.slot)) (Releases.unlink_subset f.slot _)

end Recv
