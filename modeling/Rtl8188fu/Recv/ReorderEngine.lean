import Rtl8188fu.Lib.Run
import Rtl8188fu.Recv.ReorderWindow

namespace Recv

open ReleaseWindow RecvReorderCtrl

namespace ReorderEngine

inductive Event where
  | data (prframe : RecvFrame)
  | timeout (cannotRun : Bool)

structure State where
  ctrl : RecvReorderCtrl
  delivered : List RecvFrame

def step (s : State) : Event → State
  | .data f =>
    let r := s.ctrl.recvIndicatepktReorder f
    ⟨r.ctrl, s.delivered ++ r.indicated⟩
  | .timeout cannotRun =>
    let r := s.ctrl.rtwReorderingCtrlTimeoutHandler cannotRun
    ⟨r.1, s.delivered ++ r.2⟩

def arrivals : List Event → List RecvFrame
  | [] => []
  | .data f :: es => f :: arrivals es
  | .timeout _ :: es => arrivals es

theorem arrivals_append (es fs : List Event) : arrivals (es ++ fs) = arrivals es ++ arrivals fs := by
  induction es with
  | nil => rfl
  | cons e es ih => cases e <;> simp [arrivals, ih]

structure Running (w : ℤ) (as : List RecvFrame) (s : State) (v : Window RecvFrame w) : Prop where
  tracks : Tracks s.ctrl v
  delivered : s.delivered = v.released.map Prod.snd
  ahead : v.Ahead
  tight : v.Tight
  linked : v.total.IsChain (Linked 2048)
  arrived : (v.total.map Prod.snd).Subperm as

inductive Sound (w : ℤ) (as : List RecvFrame) (s : State) : Prop where
  | fresh (hsize : (s.ctrl.wsizeB : ℤ) = w) (hseq : s.ctrl.indicateSeq = 0xFFFF)
      (hempty : s.ctrl.pendingRecvframeQueue = []) (hnone : s.delivered = [])
  | running (v : Window RecvFrame w) (h : Running w as s v)

theorem running_data {w : ℤ} {as : List RecvFrame} {s : State} {v : Window RecvFrame w}
    (h : Running w as s v) (hw : 1 ≤ w ∧ w ≤ 64) (f : RecvFrame) :
    ∃ v', Running w (as ++ [f]) (step s (.data f)) v' := by
  have hdup : s.ctrl.indicateSeq = f.attrib.seqNum →
      ∀ g ∈ s.ctrl.pendingRecvframeQueue, g.attrib.seqNum ≠ f.attrib.seqNum := by
    intro hseq g hg heq
    rw [h.tracks.queue] at hg
    obtain ⟨y,hy,rfl⟩ := List.mem_map.mp hg
    have hat := h.tracks.position y (List.mem_append_right _ hy)
    have hin := v.inside y hy
    have hlt := h.ahead y hy
    have hstart := h.tracks.start
    unfold AtPosition at hat
    omega
  obtain ⟨v',hoffer,hfollow⟩ := recvIndicatepktReorder_offered h.tracks hw hdup
  obtain ⟨zs,hlog,hzs⟩ := hfollow.log
  refine ⟨v', hfollow.tracks, ?_, Window.ahead_offered hoffer h.ahead,
    Window.tight_offered hoffer h.tight, Window.linked_offered hoffer (by omega) h.tight h.linked,
    Window.subperm_offered hoffer h.arrived⟩
  change s.delivered ++ _ = _
  rw [h.delivered, hzs, hlog, List.map_append]

theorem running_timeout {w : ℤ} {as : List RecvFrame} {s : State} {v : Window RecvFrame w}
    (h : Running w as s v) (hw : 1 ≤ w ∧ w ≤ 64) (cannotRun : Bool) :
    ∃ v', Running w as (step s (.timeout cannotRun)) v' := by
  obtain ⟨v',hskip,hfollow⟩ := timeoutHandler_skip h.tracks ⟨by omega, hw.2⟩ cannotRun
  obtain ⟨zs,hlog,hzs⟩ := hfollow.log
  have hdelivered : (step s (.timeout cannotRun)).delivered = v'.released.map Prod.snd := by
    change s.delivered ++ _ = _
    rw [h.delivered, hzs, hlog, List.map_append]
  rcases hskip with rfl | rfl
  · exact ⟨v', hfollow.tracks, hdelivered, h.ahead, h.tight, h.linked, h.arrived⟩
  · have htotal := v.total_skip
    exact ⟨v.skip, hfollow.tracks, hdelivered, Window.ahead_move _ _ _ _ _ _,
      Window.tight_skip v h.tight, htotal ▸ h.linked, htotal ▸ h.arrived⟩

theorem sound_data {w : ℤ} {as : List RecvFrame} {s : State} (h : Sound w as s)
    (hw : 1 ≤ w ∧ w ≤ 64) (f : RecvFrame) : Sound w (as ++ [f]) (step s (.data f)) := by
  cases h with
  | running v h =>
    obtain ⟨v',hv⟩ := running_data h hw f
    exact .running v' hv
  | fresh hsize hseq hempty hnone =>
    cases Decidable.em ((!f.attrib.qos || f.preorderCtrl.isNone || !s.ctrl.enable) = true) with
    | inl hpass =>
      have hstep : step s (.data f) = s := by
        simp [step, recvIndicatepktReorder_passed hpass]
      rw [hstep]
      exact .fresh hsize hseq hempty hnone
    | inr hpass =>
      rw [Bool.not_eq_true] at hpass
      have hinit : s.ctrl.testAndClear.indicateSeq = 0xFFFF := by
        rw [testAndClear_indicateSeq, hseq, ite_self]
      obtain ⟨t,ht⟩ : ∃ t : State, t = ⟨{ s.ctrl with
          indicateSeq := f.attrib.seqNum, ackOrTimeout := false, reorderWow := false }, []⟩ :=
        ⟨_, rfl⟩
      have hrun : Running w as t (Window.empty f.attrib.seqNum) := by
        subst ht
        refine ⟨⟨hsize, ⟨rfl, rfl⟩, ?_, by rw [hempty]; rfl, by simp [Window.total, Window.empty]⟩,
          rfl, by simp [Window.Ahead, Window.empty],
          by simp [Window.Tight, Window.total, Window.empty],
          by simp [Window.total, Window.empty], by simp [Window.total, Window.empty]⟩
        have hlt := f.attrib.seqNum.isLt
        change ((f.attrib.seqNum : ℕ) : ℤ) = ((f.attrib.seqNum : ℕ) : ℤ) % 4096
        omega
      obtain ⟨v',hv⟩ := running_data hrun hw f
      have hstep : step s (.data f) = step t (.data f) := by
        simp only [step, recvIndicatepktReorder_init hpass hinit, hnone, ht]
      rw [hstep]
      exact .running v' hv

theorem sound_timeout {w : ℤ} {as : List RecvFrame} {s : State} (h : Sound w as s)
    (hw : 1 ≤ w ∧ w ≤ 64) (cannotRun : Bool) : Sound w as (step s (.timeout cannotRun)) := by
  cases h with
  | running v h =>
    obtain ⟨v',hv⟩ := running_timeout h hw cannotRun
    exact .running v' hv
  | fresh hsize hseq hempty hnone =>
    cases cannotRun with
    | true => exact .fresh hsize hseq hempty (by simp [step, hnone, rtwReorderingCtrlTimeoutHandler])
    | false =>
      have hnil := timeoutHandler_nil hempty
      refine .fresh ?_ ?_ ?_ ?_ <;> simp [step, hnil, hsize, hseq, hempty, hnone]

theorem sound_exec {w : ℤ} (hw : 1 ≤ w ∧ w ≤ 64) {s : State} (h : Sound w [] s)
    (es : List Event) : Sound w (arrivals es) (Run.exec step s es) := by
  induction es using List.reverseRecOn with
  | nil => exact h
  | append_singleton es e ih =>
    rw [Run.exec_concat, arrivals_append]
    cases e with
    | data f => exact sound_data ih hw f
    | timeout cannotRun => simpa [arrivals] using sound_timeout ih hw cannotRun

def offset (c : RecvReorderCtrl) (f : RecvFrame) : ℤ :=
  ((f.attrib.seqNum : ℤ) - c.indicateSeq) % 4096

theorem running_offset {w : ℤ} {as : List RecvFrame} {s : State} {v : Window RecvFrame w}
    (h : Running w as s v) (hw : w ≤ 64) :
    ∀ y ∈ v.pending, offset s.ctrl y.2 = y.1 - v.start := by
  intro y hy
  have hat := h.tracks.position y (List.mem_append_right _ hy)
  have hin := v.inside y hy
  have hstart := h.tracks.start
  unfold AtPosition at hat
  unfold offset
  omega

def InWindowOrder (c : RecvReorderCtrl) : Prop :=
  (c.pendingRecvframeQueue.map (offset c)).Pairwise (· < ·) ∧
    (c.pendingRecvframeQueue.map (·.attrib.seqNum)).Nodup ∧
    ∀ f ∈ c.pendingRecvframeQueue, 0 < offset c f ∧ offset c f < c.wsizeB

def seqNums (fs : List RecvFrame) : List ℤ := fs.map fun f => ((f.attrib.seqNum : ℕ) : ℤ)

def InOrderPositions (fs : List RecvFrame) (ps : List ℤ) : Prop :=
  seqNums fs = ps.map (· % 4096) ∧ ps.IsChain (fun p q => p < q ∧ q ≤ p + 2048)

theorem inWindowOrder_of_running {w : ℤ} {as : List RecvFrame} {s : State}
    {v : Window RecvFrame w} (h : Running w as s v) (hw : w ≤ 64) : InWindowOrder s.ctrl := by
  have hoff := running_offset h hw
  have hsize := h.tracks.size
  have hmap : s.ctrl.pendingRecvframeQueue.map (offset s.ctrl) =
      v.pending.map (fun y => y.1 - v.start) := by
    rw [h.tracks.queue, List.map_map]
    exact List.map_congr_left hoff
  have hincreasing : (s.ctrl.pendingRecvframeQueue.map (offset s.ctrl)).Pairwise (· < ·) := by
    rw [hmap]
    exact v.pending_increasing.map _ (fun x y hxy => by simpa using hxy)
  refine ⟨hincreasing, ?_, ?_⟩
  · rw [List.Nodup, List.pairwise_map]
    refine (List.pairwise_map.mp hincreasing).imp fun {f g} hlt heq => ?_
    simp only [offset, heq] at hlt
    omega
  · intro f hf
    rw [h.tracks.queue] at hf
    obtain ⟨y,hy,rfl⟩ := List.mem_map.mp hf
    have hin := v.inside y hy
    have hlt := h.ahead y hy
    rw [hoff y hy]
    omega

theorem inOrderPositions_of_running {w : ℤ} {as : List RecvFrame} {s : State}
    {v : Window RecvFrame w} (h : Running w as s v) :
    InOrderPositions s.delivered (v.released.map Prod.fst) := by
  constructor
  · rw [h.delivered, seqNums, List.map_map, List.map_map]
    exact List.map_congr_left fun x hx => h.tracks.position x (List.mem_append_left _ hx)
  · exact positions_isChain (List.pairwise_append.mp v.increasing).1 h.linked.left_of_append

theorem delivers_in_window_order (c : RecvReorderCtrl) (hsize : 1 ≤ c.wsizeB ∧ c.wsizeB ≤ 64)
    (hseq : c.indicateSeq = 0xFFFF) (hempty : c.pendingRecvframeQueue = []) (es : List Event) :
    let s := Run.exec step ⟨c, []⟩ es
    InWindowOrder s.ctrl ∧ s.ctrl.wsizeB = c.wsizeB ∧
      (∃ ps, InOrderPositions s.delivered ps) ∧
      (s.delivered ++ s.ctrl.pendingRecvframeQueue).Subperm (arrivals es) := by
  intro s
  have hsound := sound_exec (w := c.wsizeB) (s := ⟨c, []⟩) (by omega)
    (.fresh rfl hseq hempty rfl) es
  change Sound c.wsizeB (arrivals es) s at hsound
  cases hsound with
  | fresh hsize' hseq' hempty' hnone =>
    simp [InWindowOrder, InOrderPositions, seqNums, hempty', hnone]
    omega
  | running v h =>
    have hsize' := h.tracks.size
    refine ⟨inWindowOrder_of_running h (by omega), by omega,
      ⟨_, inOrderPositions_of_running h⟩, ?_⟩
    rw [h.delivered, h.tracks.queue, ← List.map_append]
    exact h.arrived

def wrappingRun : List Event :=
  [.data (.qosData 0 5 4094), .data (.qosData 1 5 0), .data (.qosData 2 5 0),
    .data (.qosData 3 5 70), .timeout false, .data (.qosData 4 5 4094)]

theorem delivers_in_window_order_wrapping :
    let s := Run.exec step ⟨addBaRspHdl rtwInitStainfo 0 32, []⟩ wrappingRun
    s.delivered.map (·.slot) = [0, 1, 3] ∧
      (InWindowOrder s.ctrl ∧ s.ctrl.wsizeB = 64 ∧ (∃ ps, InOrderPositions s.delivered ps) ∧
        (s.delivered ++ s.ctrl.pendingRecvframeQueue).Subperm (arrivals wrappingRun)) :=
  ⟨by decide, delivers_in_window_order (addBaRspHdl rtwInitStainfo 0 32) (by decide) rfl rfl
    wrappingRun⟩

end ReorderEngine

end Recv
