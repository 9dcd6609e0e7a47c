import Rtl8188fu.Lib.SerialNumber
import Rtl8188fu.Lib.ReleaseWindow
import Rtl8188fu.Recv.ReorderCtrl

namespace Recv

open ReleaseWindow

theorem snLess_iff_precedes (a b : ℤ) : snLess a b = true ↔ SerialNumber.Precedes 2048 a b := by
  unfold snLess SerialNumber.Precedes
  rw [bne_iff_ne]
  omega

theorem snLess_lift {a b p q : ℤ} (ha : a % 4096 = p % 4096) (hb : b % 4096 = q % 4096)
    (hlow : -2048 ≤ p - q) (hhigh : p - q < 2048) : snLess a b = decide (p < q) := by
  rw [Bool.eq_iff_iff, snLess_iff_precedes, decide_eq_true_iff]
  exact SerialNumber.precedes_lift ha hb hlow hhigh

theorem snEqual_lift {a b p q : ℤ} (ha : a = p % 4096) (hb : b = q % 4096)
    (hlow : -2048 ≤ p - q) (hhigh : p - q < 2048) : snEqual a b = decide (p = q) := by
  rw [Bool.eq_iff_iff, snEqual, beq_iff_eq, decide_eq_true_iff]
  omega

def AtPosition (x : ℤ × RecvFrame) : Prop := (x.2.attrib.seqNum : ℤ) = x.1 % 4096

namespace RecvReorderCtrl

theorem enqueue_new {x : ℤ × RecvFrame} {xs : List (ℤ × RecvFrame)} (hx : AtPosition x)
    (hxs : ∀ y ∈ xs, AtPosition y) (hnear : ∀ y ∈ xs, -2048 ≤ y.1 - x.1 ∧ y.1 - x.1 < 2048)
    (hnew : ∀ y ∈ xs, y.1 ≠ x.1) :
    enqueueReorderRecvframe x.2 (xs.map Prod.snd) = some ((place x xs).map Prod.snd) := by
  induction xs with
  | nil => rfl
  | cons y ys ih =>
    have hy := hxs y (by simp)
    have hbound := hnear y (by simp)
    have hne := hnew y (by simp)
    have hrest := ih (fun z hz => hxs z (by simp [hz])) (fun z hz => hnear z (by simp [hz]))
      (fun z hz => hnew z (by simp [hz]))
    have hless : snLess y.2.attrib.seqNum x.2.attrib.seqNum = decide (y.1 < x.1) :=
      snLess_lift (by rw [hy, Int.emod_emod]) (by rw [hx, Int.emod_emod]) hbound.1 hbound.2
    have heq : snEqual y.2.attrib.seqNum x.2.attrib.seqNum = decide (y.1 = x.1) :=
      snEqual_lift hy hx hbound.1 hbound.2
    cases Decidable.em (y.1 < x.1) with
    | inl hyx =>
      have hxy : ¬ x.1 ≤ y.1 := by omega
      simp only [place] at hrest
      simp [enqueueReorderRecvframe, hless, hyx, place, List.orderedInsert, hxy, hrest]
    | inr hyx =>
      have hxy : x.1 ≤ y.1 := by omega
      simp [enqueueReorderRecvframe, hless, heq, hyx, hne, place, List.orderedInsert, hxy]

theorem enqueue_dup {x : ℤ × RecvFrame} {xs : List (ℤ × RecvFrame)} (hx : AtPosition x)
    (hxs : ∀ y ∈ xs, AtPosition y) (hnear : ∀ y ∈ xs, -2048 ≤ y.1 - x.1 ∧ y.1 - x.1 < 2048)
    (hsort : xs.Pairwise Before) (hdup : ∃ y ∈ xs, y.1 = x.1) :
    enqueueReorderRecvframe x.2 (xs.map Prod.snd) = none := by
  induction xs with
  | nil => simp at hdup
  | cons y ys ih =>
    obtain ⟨hall,hys⟩ := List.pairwise_cons.mp hsort
    have hy := hxs y (by simp)
    have hbound := hnear y (by simp)
    have hless : snLess y.2.attrib.seqNum x.2.attrib.seqNum = decide (y.1 < x.1) :=
      snLess_lift (by rw [hy, Int.emod_emod]) (by rw [hx, Int.emod_emod]) hbound.1 hbound.2
    have heq : snEqual y.2.attrib.seqNum x.2.attrib.seqNum = decide (y.1 = x.1) :=
      snEqual_lift hy hx hbound.1 hbound.2
    obtain ⟨z,hz,hzx⟩ := hdup
    rcases List.mem_cons.mp hz with rfl | hz
    · simp [enqueueReorderRecvframe, hless, heq, hzx]
    · have hyx : y.1 < x.1 := hzx ▸ hall z hz
      have hrest := ih (fun z hz => hxs z (by simp [hz])) (fun z hz => hnear z (by simp [hz]))
        hys ⟨z, hz, hzx⟩
      simp [enqueueReorderRecvframe, hless, hyx, hrest]

theorem indicateLoop_drain {s : ℤ} {n : ℕ} {xs : List (ℤ × RecvFrame)} (hn : (n : ℤ) = s % 4096)
    (hxs : ∀ y ∈ xs, AtPosition y) (hnear : ∀ y ∈ xs, -2048 ≤ s - y.1 ∧ s - y.1 < 2048)
    (hsort : xs.Pairwise Before) :
    ((indicateLoop n (xs.map Prod.snd)).indicateSeq : ℤ) = (drain s xs).start % 4096 ∧
      (indicateLoop n (xs.map Prod.snd)).indicated = (drain s xs).released.map Prod.snd ∧
      (indicateLoop n (xs.map Prod.snd)).queue = (drain s xs).pending.map Prod.snd := by
  induction xs generalizing s n with
  | nil => exact ⟨hn, rfl, rfl⟩
  | cons x xs ih =>
    obtain ⟨hall,hsort⟩ := List.pairwise_cons.mp hsort
    have hx := hxs x (by simp)
    have hbound := hnear x (by simp)
    have hrest := fun y (hy : y ∈ xs) => hnear y (by simp [hy])
    have hless : snLess n x.2.attrib.seqNum = decide (s < x.1) :=
      snLess_lift (by rw [hn, Int.emod_emod]) (by rw [hx, Int.emod_emod]) hbound.1 hbound.2
    have heq : snEqual n x.2.attrib.seqNum = decide (s = x.1) :=
      snEqual_lift hn hx hbound.1 hbound.2
    cases Decidable.em (s < x.1) with
    | inl hsx =>
      have hxs : ¬ x.1 ≤ s := by omega
      simpa [indicateLoop, drain, hless, hsx, hxs] using hn
    | inr hsx =>
      have hle : x.1 ≤ s := by omega
      have hxs' := fun y (hy : y ∈ xs) => hxs y (by simp [hy])
      cases Decidable.em (x.1 = s) with
      | inl he =>
        have hstep := @ih (s + 1) ((n + 1) % 4096) (by omega) hxs'
          (fun y hy => by have := hall y hy; have := hrest y hy; omega) hsort
        simpa [indicateLoop, drain, hless, heq, hle, he] using hstep
      | inr he =>
        have hstep := @ih s n hn hxs' hrest hsort
        have hse : ¬ s = x.1 := fun h => he h.symm
        simpa [indicateLoop, drain, hless, heq, hsx, hle, he, hse] using hstep

theorem indicateLoop_pktInBuf (n : ℕ) (fs : List RecvFrame) :
    (indicateLoop n fs).bPktInBuf = !(indicateLoop n fs).queue.isEmpty := by
  induction fs generalizing n with
  | nil => rfl
  | cons f fs ih =>
    unfold indicateLoop
    split
    · rfl
    · exact ih _

structure Tracks {w : ℤ} (c : RecvReorderCtrl) (v : Window RecvFrame w) : Prop where
  size : (c.wsizeB : ℤ) = w
  clear : c.ackOrTimeout = false ∧ c.reorderWow = false
  start : (c.indicateSeq : ℤ) = v.start % 4096
  queue : c.pendingRecvframeQueue = v.pending.map Prod.snd
  position : ∀ x ∈ v.total, AtPosition x

theorem tracks_move {w s : ℤ} {c : RecvReorderCtrl} {v : Window RecvFrame w}
    {xs : List (ℤ × RecvFrame)} (hsize : (c.wsizeB : ℤ) = w)
    (hclear : c.ackOrTimeout = false ∧ c.reorderWow = false)
    (hstart : (c.indicateSeq : ℤ) = s % 4096) (hqueue : c.pendingRecvframeQueue = xs.map Prod.snd)
    (hpos : ∀ x ∈ v.released ++ xs, AtPosition x) (hs : v.start ≤ s) (hxs : xs.Pairwise Before)
    (hin : ∀ x ∈ xs, v.start ≤ x.1 ∧ x.1 < s + w) (hw : w ≤ 2048) (hnear : s - v.start < 2048) :
    Tracks c.runIndicateLoop.ctrl (v.move s xs hs hxs hin) ∧
      c.runIndicateLoop.indicated = (drain s xs).released.map Prod.snd := by
  have hloop := indicateLoop_drain hstart (fun x hx => hpos x (by simp [hx]))
    (fun x hx => by have := hin x hx; omega) hxs
  rw [← hqueue] at hloop
  refine ⟨⟨hsize, hclear, hloop.1, hloop.2.2, ?_⟩, hloop.2.1⟩
  rwa [Window.total_move]

theorem checkIndicateSeq_behind {c : RecvReorderCtrl} {seqNum : ℕ} (hc : c.indicateSeq ≠ 0xFFFF)
    (hbehind : 2048 ≤ ((seqNum : ℤ) - c.indicateSeq) % 4096) :
    c.checkIndicateSeq seqNum = (c, false) := by
  have hless : snLess seqNum c.indicateSeq = true := (snLess_iff_precedes _ _).mpr hbehind
  simp [checkIndicateSeq, hc, hless]

theorem checkIndicateSeq_ahead {w s p : ℤ} {c : RecvReorderCtrl} {seqNum : ℕ}
    (hsize : (c.wsizeB : ℤ) = w) (hw : 1 ≤ w ∧ w ≤ 64) (hstart : (c.indicateSeq : ℤ) = s % 4096)
    (hseq : (seqNum : ℤ) = p % 4096) (hp : s ≤ p ∧ p < s + 2048) :
    ∃ n : ℕ, (n : ℤ) = Window.shifted w s p % 4096 ∧
      c.checkIndicateSeq seqNum = ({ c with indicateSeq := n }, true) := by
  have hc : c.indicateSeq ≠ 0xFFFF := by omega
  have hless : snLess seqNum c.indicateSeq = false := by
    rw [snLess_lift (p := p) (q := s) (by omega) (by omega) (by omega) (by omega)]
    simpa using hp.1
  have hequal : snEqual seqNum c.indicateSeq = decide (p = s) :=
    snEqual_lift hseq hstart (by omega) (by omega)
  have hwend : snLess (((c.indicateSeq : ℤ) + c.wsizeB - 1) % 0x1000) seqNum =
      decide (s + w - 1 < p) :=
    snLess_lift (by omega) (by omega) (by omega) (by omega)
  simp only [checkIndicateSeq, hc, if_false, hless, hequal, hwend, Window.shifted]
  cases Decidable.em (p = s) with
  | inl hps =>
    exact ⟨(c.indicateSeq + 1) % 4096, by simp only [hps, if_true]; omega, by simp [hps]⟩
  | inr hps =>
    cases Decidable.em (s + w ≤ p) with
    | inl hbeyond =>
      have hlt : s + w - 1 < p := by omega
      cases Decidable.em (c.wsizeB ≤ seqNum + 1) with
      | inl hwrap =>
        refine ⟨seqNum + 1 - c.wsizeB, ?_, by simp [hps, hlt, hwrap]⟩
        simp only [hps, hbeyond, if_true, if_false]
        omega
      | inr hwrap =>
        refine ⟨0xFFF - (c.wsizeB - (seqNum + 1)) + 1, ?_, by simp [hps, hlt, hwrap]⟩
        simp only [hps, hbeyond, if_true, if_false]
        omega
    | inr hbeyond =>
      have hlt : ¬ s + w - 1 < p := by omega
      exact ⟨c.indicateSeq, by simpa [hps, hbeyond] using hstart, by simp [hps, hlt]⟩

structure Follows {w : ℤ} (v : Window RecvFrame w) (c : RecvReorderCtrl) (ds : List RecvFrame)
    (v' : Window RecvFrame w) : Prop where
  tracks : Tracks c v'
  log : ∃ zs, v'.released = v.released ++ zs ∧ ds = zs.map Prod.snd

theorem follows_rfl {w : ℤ} {c : RecvReorderCtrl} {v : Window RecvFrame w} (h : Tracks c v) :
    Follows v c [] v :=
  ⟨h, [], by simp, rfl⟩

theorem follows_timer {w : ℤ} {c : RecvReorderCtrl} {v v' : Window RecvFrame w}
    {ds : List RecvFrame} (h : Follows v c ds v') (waiting timer : Bool) :
    Follows v { c with bReorderWaiting := waiting, reorderingCtrlTimer := timer } ds v' :=
  ⟨⟨h.tracks.size, h.tracks.clear, h.tracks.start, h.tracks.queue, h.tracks.position⟩, h.log⟩

theorem recvIndicatepktReorder_passed {c : RecvReorderCtrl} {f : RecvFrame}
    (h : (!f.attrib.qos || f.preorderCtrl.isNone || !c.enable) = true) :
    c.recvIndicatepktReorder f = ⟨c, [], .success⟩ := by
  rw [recvIndicatepktReorder, if_pos h]

theorem recvIndicatepktReorder_refused {c c' : RecvReorderCtrl} {f : RecvFrame}
    (h : (!f.attrib.qos || f.preorderCtrl.isNone || !c.enable) = false)
    (hcheck : c.testAndClear.checkIndicateSeq f.attrib.seqNum = (c', false)) :
    c.recvIndicatepktReorder f = ⟨c', [], .fail⟩ := by
  simp [recvIndicatepktReorder, h, hcheck]

theorem recvIndicatepktReorder_dup {c c' : RecvReorderCtrl} {f : RecvFrame}
    (h : (!f.attrib.qos || f.preorderCtrl.isNone || !c.enable) = false)
    (hcheck : c.testAndClear.checkIndicateSeq f.attrib.seqNum = (c', true))
    (hqueue : enqueueReorderRecvframe f c'.pendingRecvframeQueue = none) :
    c.recvIndicatepktReorder f = ⟨c', [], .fail⟩ := by
  simp [recvIndicatepktReorder, h, hcheck, hqueue]

theorem recvIndicatepktReorder_taken {c c' : RecvReorderCtrl} {f : RecvFrame}
    {queue : List RecvFrame} {r : InOrder}
    (h : (!f.attrib.qos || f.preorderCtrl.isNone || !c.enable) = false)
    (hcheck : c.testAndClear.checkIndicateSeq f.attrib.seqNum = (c', true))
    (hqueue : enqueueReorderRecvframe f c'.pendingRecvframeQueue = some queue)
    (hr : r = ({ c' with pendingRecvframeQueue := queue } : RecvReorderCtrl).runIndicateLoop) :
    c.recvIndicatepktReorder f =
      ⟨{ r.ctrl with
          bReorderWaiting := r.bPktInBuf
          reorderingCtrlTimer := r.bPktInBuf && (!c'.bReorderWaiting || c'.reorderingCtrlTimer) },
        r.indicated, .handled⟩ := by
  simp only [recvIndicatepktReorder, h, hcheck, hqueue, recvIndicatepktsInOrder, ← hr,
    Bool.false_eq_true, if_false]
  have hwaiting : r.ctrl.bReorderWaiting = c'.bReorderWaiting := by rw [hr]; rfl
  have htimer : r.ctrl.reorderingCtrlTimer = c'.reorderingCtrlTimer := by rw [hr]; rfl
  cases hbuf : r.bPktInBuf with
  | false => simp
  | true =>
    cases hw : c'.bReorderWaiting with
    | false => simp [hwaiting, hw]
    | true =>
      simp only [hwaiting, hw, ← htimer, Bool.not_true, Bool.false_eq_true, if_false, if_true,
        Bool.false_or, Bool.true_and]
      rw [← hwaiting.trans hw]

theorem timeoutHandler_nil {c : RecvReorderCtrl} (h : c.pendingRecvframeQueue = []) :
    c.rtwReorderingCtrlTimeoutHandler false =
      ({ c with bReorderWaiting := false, reorderingCtrlTimer := true }, []) := by
  simp [rtwReorderingCtrlTimeoutHandler, recvIndicatepktsInOrder, h]

theorem timeoutHandler_cons {c : RecvReorderCtrl} {f : RecvFrame} {fs : List RecvFrame}
    {r : InOrder} (h : c.pendingRecvframeQueue = f :: fs)
    (hr : r = ({ c with indicateSeq := f.attrib.seqNum } : RecvReorderCtrl).runIndicateLoop) :
    c.rtwReorderingCtrlTimeoutHandler false =
      ({ r.ctrl with bReorderWaiting := false, reorderingCtrlTimer := r.bPktInBuf },
        r.indicated) := by
  subst hr
  cases c
  subst h
  simp only [rtwReorderingCtrlTimeoutHandler, recvIndicatepktsInOrder, runIndicateLoop,
    Bool.false_eq_true, if_false, if_true]
  split <;> simp_all

theorem testAndClear_frame (c : RecvReorderCtrl) :
    c.testAndClear = { c with
      indicateSeq := c.testAndClear.indicateSeq, ackOrTimeout := false, reorderWow := false } := by
  cases c with
  | mk enable ind wsize ampdu queue timer waiting ack wow =>
    cases ack <;> cases wow <;> rfl

theorem checkIndicateSeq_frame (c : RecvReorderCtrl) (n : ℕ) :
    (c.checkIndicateSeq n).1 = { c with indicateSeq := (c.checkIndicateSeq n).1.indicateSeq } := by
  unfold checkIndicateSeq
  simp only
  split_ifs <;> rfl

theorem checked_frame (c : RecvReorderCtrl) (n : ℕ) :
    ∃ m, (c.testAndClear.checkIndicateSeq n).1 =
      { c with indicateSeq := m, ackOrTimeout := false, reorderWow := false } := by
  refine ⟨(c.testAndClear.checkIndicateSeq n).1.indicateSeq, ?_⟩
  rw [checkIndicateSeq_frame]
  generalize (c.testAndClear.checkIndicateSeq n).1.indicateSeq = m
  rw [testAndClear_frame]

theorem recvIndicatepktReorder_cases (c : RecvReorderCtrl) (f : RecvFrame) :
    (!f.attrib.qos || f.preorderCtrl.isNone || !c.enable) = true ∧
        c.recvIndicatepktReorder f = ⟨c, [], .success⟩ ∨
      ∃ n c', c' = { c with indicateSeq := n, ackOrTimeout := false, reorderWow := false } ∧
        (c.recvIndicatepktReorder f = ⟨c', [], .fail⟩ ∨
          ∃ queue r, enqueueReorderRecvframe f c.pendingRecvframeQueue = some queue ∧
            r = ({ c' with pendingRecvframeQueue := queue } : RecvReorderCtrl).runIndicateLoop ∧
            c.recvIndicatepktReorder f =
              ⟨{ r.ctrl with
                  bReorderWaiting := r.bPktInBuf
                  reorderingCtrlTimer :=
                    r.bPktInBuf && (!c.bReorderWaiting || c.reorderingCtrlTimer) },
                r.indicated, .handled⟩) := by
  by_cases hpass : (!f.attrib.qos || f.preorderCtrl.isNone || !c.enable) = true
  · exact .inl ⟨hpass, recvIndicatepktReorder_passed hpass⟩
  rw [Bool.not_eq_true] at hpass
  obtain ⟨n,hn⟩ := checked_frame c f.attrib.seqNum
  obtain ⟨⟨c',ok⟩,hcheck⟩ : ∃ r, c.testAndClear.checkIndicateSeq f.attrib.seqNum = r := ⟨_, rfl⟩
  obtain rfl : c' = _ := by simpa only [hcheck] using hn
  refine .inr ⟨n, _, rfl, ?_⟩
  cases ok with
  | false => exact .inl (recvIndicatepktReorder_refused hpass hcheck)
  | true =>
    cases henqueue : enqueueReorderRecvframe f c.pendingRecvframeQueue with
    | none => exact .inl (recvIndicatepktReorder_dup hpass hcheck henqueue)
    | some queue =>
      refine .inr ⟨queue, _, rfl, rfl, ?_⟩
      rw [recvIndicatepktReorder_taken hpass hcheck henqueue rfl]

theorem testAndClear_indicateSeq (c : RecvReorderCtrl) :
    c.testAndClear.indicateSeq =
      if c.ackOrTimeout || c.reorderWow then 0xFFFF else c.indicateSeq := by
  cases c with
  | mk enable ind wsize ampdu queue timer waiting ack wow =>
    cases ack <;> cases wow <;> rfl

theorem testAndClear_eq {c : RecvReorderCtrl} (h : c.ackOrTimeout = false)
    (h' : c.reorderWow = false) : c.testAndClear = c := by
  simp [testAndClear, h, h']

theorem recvIndicatepktReorder_behind {w : ℤ} {c : RecvReorderCtrl} {v : Window RecvFrame w}
    {f : RecvFrame} (hc : Tracks c v)
    (hpass : (!f.attrib.qos || f.preorderCtrl.isNone || !c.enable) = false)
    (hbehind : 2048 ≤ ((f.attrib.seqNum : ℤ) - c.indicateSeq) % 4096) :
    c.recvIndicatepktReorder f = ⟨c, [], .fail⟩ := by
  have hclear := testAndClear_eq hc.clear.1 hc.clear.2
  have hstart := hc.start
  have hcheck := checkIndicateSeq_behind (c := c) (by omega) hbehind
  exact recvIndicatepktReorder_refused hpass (by rw [hclear, hcheck])

theorem near_pending {w p : ℤ} {v : Window RecvFrame w} (hw : w ≤ 64)
    (hrange : v.start ≤ p ∧ p < v.start + 2048) :
    ∀ y ∈ v.pending, -2048 ≤ y.1 - p ∧ y.1 - p < 2048 := by
  intro y hy
  have hin := v.inside y hy
  omega

theorem recvIndicatepktReorder_twin {w p : ℤ} {c : RecvReorderCtrl} {v : Window RecvFrame w}
    {f : RecvFrame} (hc : Tracks c v) (hw : 1 ≤ w ∧ w ≤ 64)
    (hpass : (!f.attrib.qos || f.preorderCtrl.isNone || !c.enable) = false)
    (hfp : AtPosition (p, f)) (hrange : v.start ≤ p ∧ p < v.start + 2048)
    (htwin : ∃ y ∈ v.pending, y.1 = p) :
    ∃ n : ℕ, (n : ℤ) = Window.shifted w v.start p % 4096 ∧
      c.recvIndicatepktReorder f = ⟨{ c with indicateSeq := n }, [], .fail⟩ := by
  have hclear := testAndClear_eq hc.clear.1 hc.clear.2
  obtain ⟨n,hn,hcheck⟩ := checkIndicateSeq_ahead hc.size hw hc.start hfp hrange
  have hnone := enqueue_dup hfp (fun x hx => hc.position x (List.mem_append_right _ hx))
    (near_pending hw.2 hrange) v.pending_increasing htwin
  rw [← hc.queue] at hnone
  exact ⟨n, hn, recvIndicatepktReorder_dup hpass (by rw [hclear, hcheck]) hnone⟩

theorem recvIndicatepktReorder_place {w p : ℤ} {c : RecvReorderCtrl} {v : Window RecvFrame w}
    {f : RecvFrame} (hc : Tracks c v) (hw : 1 ≤ w ∧ w ≤ 64)
    (hpass : (!f.attrib.qos || f.preorderCtrl.isNone || !c.enable) = false)
    (hfp : AtPosition (p, f)) (hrange : v.start ≤ p ∧ p < v.start + 2048)
    (hnew : ∀ y ∈ v.pending, y.1 ≠ p) :
    Follows v (c.recvIndicatepktReorder f).ctrl (c.recvIndicatepktReorder f).indicated
      (v.offer (by omega) (p, f) hrange.1 hnew) := by
  have hclear := testAndClear_eq hc.clear.1 hc.clear.2
  have hpos := fun x hx => hc.position x (List.mem_append_right v.released hx)
  obtain ⟨n,hn,hcheck⟩ := checkIndicateSeq_ahead hc.size hw hc.start hfp hrange
  have hsome := enqueue_new hfp hpos (near_pending hw.2 hrange) hnew
  rw [← hc.queue] at hsome
  rw [← hclear] at hcheck
  rw [recvIndicatepktReorder_taken hpass hcheck (by rw [hclear]; exact hsome) rfl, hclear]
  have hplaced : ∀ x ∈ v.released ++ place (p, f) v.pending, AtPosition x := by
    intro x hx
    rcases List.mem_append.mp hx with hx | hx
    · exact hc.position x (List.mem_append_left v.pending hx)
    · rcases (mem_place (p, f) x v.pending).mp hx with rfl | hx
      · exact hfp
      · exact hpos x hx
  have hshift : Window.shifted w v.start (p, f).1 < v.start + 2048 :=
    Window.shifted_lt hw.1 (by norm_num) hrange.2
  obtain ⟨htracks,hind⟩ := tracks_move
    (c := { c with indicateSeq := n, pendingRecvframeQueue := (place (p, f) v.pending).map Prod.snd })
    hc.size hc.clear hn rfl hplaced (Window.le_shifted _ _) (pairwise_place v.pending_increasing hnew)
    (v.place_inside (by omega) (p, f) hrange.1) (by omega) (by omega)
  exact follows_timer ⟨htracks, _, rfl, hind⟩ _ _

theorem recvIndicatepktReorder_offered {w : ℤ} {c : RecvReorderCtrl} {v : Window RecvFrame w}
    {f : RecvFrame} (hc : Tracks c v) (hw : 1 ≤ w ∧ w ≤ 64)
    (hdup : c.indicateSeq = f.attrib.seqNum →
      ∀ g ∈ c.pendingRecvframeQueue, g.attrib.seqNum ≠ f.attrib.seqNum) :
    ∃ v', Window.Offered 2048 v f v' ∧
      Follows v (c.recvIndicatepktReorder f).ctrl (c.recvIndicatepktReorder f).indicated v' := by
  by_cases hpass : (!f.attrib.qos || f.preorderCtrl.isNone || !c.enable) = true
  · rw [recvIndicatepktReorder_passed hpass]
    exact ⟨v, .refused, follows_rfl hc⟩
  rw [Bool.not_eq_true] at hpass
  by_cases hbehind : 2048 ≤ ((f.attrib.seqNum : ℤ) - c.indicateSeq) % 4096
  · rw [recvIndicatepktReorder_behind hc hpass hbehind]
    exact ⟨v, .refused, follows_rfl hc⟩
  have hstart := hc.start
  have hseq := f.attrib.seqNum.isLt
  obtain ⟨p,hp⟩ : ∃ p : ℤ, p = v.start + ((f.attrib.seqNum : ℤ) - c.indicateSeq) % 4096 :=
    ⟨_, rfl⟩
  have hfp : AtPosition (p, f) := by
    change ((f.attrib.seqNum : ℕ) : ℤ) = p % 4096
    omega
  have hrange : v.start ≤ p ∧ p < v.start + 2048 := by omega
  cases Decidable.em (∃ y ∈ v.pending, y.1 = p) with
  | inl htwin =>
    obtain ⟨n,hn,heq⟩ := recvIndicatepktReorder_twin hc hw hpass hfp hrange htwin
    obtain ⟨y,hy,hyp⟩ := htwin
    have hin := v.inside y hy
    have hps : p ≠ v.start := by
      intro hps
      have hyf : y.2 ∈ c.pendingRecvframeQueue := by
        rw [hc.queue]
        exact List.mem_map_of_mem hy
      refine hdup (by omega) y.2 hyf (Fin.ext ?_)
      have hat := hc.position y (List.mem_append_right _ hy)
      unfold AtPosition at hat
      omega
    have hshift : Window.shifted w v.start p = v.start := by
      rw [Window.shifted, if_neg hps, if_neg (by omega)]
    rw [hshift] at hn
    rw [heq]
    exact ⟨v, .refused, follows_rfl ⟨hc.size, hc.clear, hn, hc.queue, hc.position⟩⟩
  | inr htwin =>
    have hnew : ∀ y ∈ v.pending, y.1 ≠ p := fun y hy he => htwin ⟨y, hy, he⟩
    exact ⟨_, .taken p (by omega) hrange.1 hnew hrange.2,
      recvIndicatepktReorder_place hc hw hpass hfp hrange hnew⟩

theorem checkIndicateSeq_init (c : RecvReorderCtrl) (seqNum : Fin 4096) :
    checkIndicateSeq { c with indicateSeq := 0xFFFF } seqNum =
      checkIndicateSeq { c with indicateSeq := seqNum } seqNum := by
  have hne : (seqNum : ℕ) ≠ 0xFFFF := by omega
  simp [checkIndicateSeq, hne]

theorem recvIndicatepktReorder_init {c : RecvReorderCtrl} {f : RecvFrame}
    (h : (!f.attrib.qos || f.preorderCtrl.isNone || !c.enable) = false)
    (hinit : c.testAndClear.indicateSeq = 0xFFFF) :
    c.recvIndicatepktReorder f = recvIndicatepktReorder
      { c with indicateSeq := f.attrib.seqNum, ackOrTimeout := false, reorderWow := false } f := by
  have hclear : c.testAndClear =
      { c with indicateSeq := 0xFFFF, ackOrTimeout := false, reorderWow := false } := by
    cases c with
    | mk enable ind wsize ampdu queue timer waiting ack wow =>
      cases ack <;> cases wow <;> simp_all [testAndClear]
  have hset := checkIndicateSeq_init { c with ackOrTimeout := false, reorderWow := false }
    f.attrib.seqNum
  simp only [recvIndicatepktReorder, h, hclear, hset, Bool.false_eq_true, if_false]
  rfl

theorem timeoutHandler_skip {w : ℤ} {c : RecvReorderCtrl} {v : Window RecvFrame w}
    (hc : Tracks c v) (hw : 0 < w ∧ w ≤ 64) (cannotRun : Bool) :
    ∃ v', (v' = v ∨ v' = v.skip) ∧
      Follows v (c.rtwReorderingCtrlTimeoutHandler cannotRun).1
        (c.rtwReorderingCtrlTimeoutHandler cannotRun).2 v' := by
  have hqueue := hc.queue
  cases cannotRun with
  | true => exact ⟨v, .inl rfl, follows_timer (follows_rfl hc) c.bReorderWaiting false⟩
  | false =>
    cases hp : v.pending with
    | nil =>
      rw [timeoutHandler_nil (by rw [hqueue, hp]; rfl)]
      exact ⟨v, .inl rfl, follows_timer (follows_rfl hc) false true⟩
    | cons x xs =>
      have hx := hc.position x (by simp [Window.total, hp])
      have hstart : ((x.2.attrib.seqNum : ℕ) : ℤ) = Window.front v.start v.pending % 4096 := by
        rw [hp]
        exact hx
      have hfront := v.front_lt hw.1
      obtain ⟨htracks,hind⟩ := tracks_move (v := v)
        (c := { c with indicateSeq := x.2.attrib.seqNum })
        hc.size hc.clear hstart hc.queue hc.position v.le_front v.pending_increasing v.pending_inside
        (by omega) (by omega)
      rw [timeoutHandler_cons (f := x.2) (by rw [hqueue, hp]; rfl) rfl]
      exact ⟨v.skip, .inr rfl, follows_timer ⟨htracks, _, rfl, hind⟩ _ _⟩

end RecvReorderCtrl

end Recv
