import Mathlib.Logic.Function.Basic
import Rtl8188fu.Lib.Run
import Rtl8188fu.Recv.ReorderWindow

namespace Recv

namespace RecvReorderCtrl

structure Passed where
  ctrl : RecvReorderCtrl
  indicated : List RecvFrame

def recvSetIseqBefore (c : RecvReorderCtrl) (seqNum : ℕ) : RecvReorderCtrl :=
  { c with indicateSeq := seqNum }

def recvSetIseqAfter (c : RecvReorderCtrl) : RecvReorderCtrl :=
  { c with indicateSeq := (c.indicateSeq + 1) % 4096 }

def reorderPosthandle (c : RecvReorderCtrl) (prframe : RecvFrame) : Passed :=
  match c.recvIndicatepktReorder prframe with
  | ⟨c, ds, .success⟩ => ⟨(c.recvSetIseqBefore prframe.attrib.seqNum).recvSetIseqAfter, ds ++ [prframe]⟩
  | ⟨c, ds, _⟩ => ⟨c, ds⟩

end RecvReorderCtrl

namespace BlockAck

def barTid (pframe : List UInt8) : Fin 16 :=
  ⟨le16 pframe 16 / 0x1000, by have := le16_lt pframe 16; omega⟩

def barStartSeq (pframe : List UInt8) : Fin 4096 :=
  ⟨le16 pframe 18 / 0x10, by have := le16_lt pframe 18; omega⟩

def delbaTid (frameBody : List UInt8) : Fin 16 :=
  ⟨byteAt frameBody 3 / 0x10, by have := byteAt_lt frameBody 3; omega⟩

inductive Event where
  | data (prframe : RecvFrame)
  | bar (pframe : List UInt8)
  | action (frameBody : List UInt8)
  | timeout (tid : Fin 16) (cannotRun : Bool)

structure TidRx where
  ctrl : RecvReorderCtrl
  progress : ℤ
  log : List (ℤ × RecvFrame)

namespace TidRx

def advance (t : TidRx) (c : RecvReorderCtrl) (ds : List RecvFrame) : TidRx :=
  let progress := t.progress + ((c.indicateSeq : ℤ) - t.ctrl.indicateSeq) % 4096
  ⟨c, progress, t.log ++ ds.map (progress, ·)⟩

def data (t : TidRx) (prframe : RecvFrame) : TidRx :=
  let r := t.ctrl.reorderPosthandle prframe
  t.advance r.ctrl r.indicated

def timeout (t : TidRx) (cannotRun : Bool) : TidRx :=
  let r := t.ctrl.rtwReorderingCtrlTimeoutHandler cannotRun
  t.advance r.1 r.2

def signedDistance (a b : ℤ) : ℤ := (b - a + 2048) % 4096 - 2048

def rtwProcessBarFrame (t : TidRx) (startSeq : ℕ) : TidRx :=
  ⟨{ t.ctrl with indicateSeq := startSeq },
    t.progress + signedDistance t.ctrl.indicateSeq startSeq, t.log⟩

def delba (t : TidRx) : TidRx :=
  { t with ctrl := { t.ctrl with enable := false, ampduSize := 0xFF } }

end TidRx

abbrev StaInfo := Fin 16 → TidRx

def onActionBack (psta : StaInfo) (frameBody : List UInt8) : StaInfo :=
  if byteAt frameBody 0 = 3 ∧ byteAt frameBody 1 = 2 ∧ byteAt frameBody 3 / 8 % 2 = 1 then
    Function.update psta (delbaTid frameBody) (psta (delbaTid frameBody)).delba
  else psta

def step (psta : StaInfo) : Event → StaInfo
  | .data f =>
    if f.attrib.qos then
      Function.update psta f.attrib.priority
        ((psta f.attrib.priority).data { f with preorderCtrl := some f.attrib.priority })
    else psta
  | .bar p =>
    Function.update psta (barTid p) ((psta (barTid p)).rtwProcessBarFrame (barStartSeq p))
  | .action b => onActionBack psta b
  | .timeout tid cannotRun => Function.update psta tid ((psta tid).timeout cannotRun)

theorem step_tid (keep : TidRx → Prop) {psta : StaInfo} {e : Event} {tid : Fin 16}
    (hdata : ∀ f t, keep t → keep (t.data f))
    (hbar : ∀ t (n : Fin 4096), keep t → keep (t.rtwProcessBarFrame n))
    (hdelba : ∀ t, keep t → keep t.delba)
    (htimeout : ∀ t cannotRun, e = .timeout tid cannotRun → keep t → keep (t.timeout cannotRun))
    (h : keep (psta tid)) : keep (step psta e tid) := by
  have hupdate : ∀ (k : Fin 16) (t : TidRx), (tid = k → keep t) →
      keep (Function.update psta k t tid) := by
    intro k t ht
    cases Decidable.em (tid = k) with
    | inl hk =>
      have hkeep := ht hk
      rw [hk, Function.update_self]
      exact hkeep
    | inr hk =>
      rw [Function.update_of_ne hk]
      exact h
  cases e with
  | data f =>
    simp only [step]
    split
    · exact hupdate _ _ fun hk => hdata _ _ (hk ▸ h)
    · exact h
  | bar p => exact hupdate _ _ fun hk => hbar _ _ (hk ▸ h)
  | action b =>
    simp only [step, onActionBack]
    split
    · exact hupdate _ _ fun hk => hdelba _ (hk ▸ h)
    · exact h
  | timeout k b => exact hupdate k _ fun hk => htimeout _ b (hk ▸ rfl) (hk ▸ h)

def session : StaInfo := fun _ => ⟨RecvReorderCtrl.rtwInitStainfo.addBaRspHdl 0 32, 0xFFFF, []⟩

def barFrame (tid : Fin 16) (startSeq : Fin 4096) : List UInt8 :=
  [0x84, 0x00, 0, 0] ++ List.replicate 12 0 ++
    [0x04, UInt8.ofNat (tid * 16), UInt8.ofNat (startSeq * 16), UInt8.ofNat (startSeq / 16)]

end BlockAck

namespace RecvReorderCtrl

structure TimerGuarded (c : RecvReorderCtrl) : Prop where
  waiting : c.bReorderWaiting = true → c.reorderingCtrlTimer = true
  pending : c.pendingRecvframeQueue ≠ [] → c.reorderingCtrlTimer = true

theorem runIndicateLoop_pktInBuf (c : RecvReorderCtrl) :
    c.runIndicateLoop.bPktInBuf = !c.runIndicateLoop.ctrl.pendingRecvframeQueue.isEmpty :=
  indicateLoop_pktInBuf _ _

theorem timerGuarded_reorder {c : RecvReorderCtrl} (h : c.TimerGuarded) (f : RecvFrame) :
    (c.recvIndicatepktReorder f).ctrl.TimerGuarded := by
  have harmed : (!c.bReorderWaiting || c.reorderingCtrlTimer) = true := by
    cases hw : c.bReorderWaiting with
    | false => rfl
    | true => exact h.waiting hw
  rcases recvIndicatepktReorder_cases c f with ⟨-,he⟩ | ⟨n,c',rfl,he | ⟨queue,r,-,hr,he⟩⟩
  · rw [he]
    exact h
  · rw [he]
    exact ⟨h.waiting, h.pending⟩
  · have hbuf := runIndicateLoop_pktInBuf { c with
      indicateSeq := n, ackOrTimeout := false, reorderWow := false, pendingRecvframeQueue := queue }
    rw [he]
    simp only [harmed, Bool.and_true]
    refine ⟨id, fun hp => ?_⟩
    subst hr
    simpa [hbuf] using hp

theorem timerGuarded_posthandle {c : RecvReorderCtrl} (h : c.TimerGuarded) (f : RecvFrame) :
    (c.reorderPosthandle f).ctrl.TimerGuarded := by
  have hreorder := timerGuarded_reorder h f
  unfold reorderPosthandle
  split
  · rename_i heq
    rw [heq] at hreorder
    exact ⟨hreorder.waiting, hreorder.pending⟩
  · rename_i heq
    rw [heq] at hreorder
    exact hreorder

theorem timerGuarded_timeout (c : RecvReorderCtrl) :
    (c.rtwReorderingCtrlTimeoutHandler false).1.TimerGuarded := by
  cases hq : c.pendingRecvframeQueue with
  | nil =>
    rw [timeoutHandler_nil hq]
    exact ⟨fun _ => rfl, fun _ => rfl⟩
  | cons f fs =>
    rw [timeoutHandler_cons hq rfl]
    refine ⟨fun hw => absurd hw (by simp), fun hp => ?_⟩
    simp only at hp ⊢
    rw [runIndicateLoop_pktInBuf]
    simpa using hp

theorem timeout_delivers_head {c : RecvReorderCtrl} {f : RecvFrame} {fs : List RecvFrame}
    (h : c.pendingRecvframeQueue = f :: fs) :
    ∃ rest, (c.rtwReorderingCtrlTimeoutHandler false).2 = f :: rest := by
  rw [timeoutHandler_cons h rfl]
  have hless : snLess f.attrib.seqNum f.attrib.seqNum = false := by simp [snLess]
  simp [runIndicateLoop, h, indicateLoop, hless]

end RecvReorderCtrl

namespace BlockAck

theorem timerGuarded_run {psta : StaInfo} {tid : Fin 16} (hguard : (psta tid).ctrl.TimerGuarded)
    {es : List Event} (hrun : ∀ b, .timeout tid b ∈ es → b = false) :
    (Run.exec step psta es tid).ctrl.TimerGuarded := by
  induction es generalizing psta with
  | nil => exact hguard
  | cons e es ih =>
    refine ih ?_ fun b hb => hrun b (List.mem_cons_of_mem e hb)
    refine step_tid (fun t => t.ctrl.TimerGuarded)
      (fun f t ht => RecvReorderCtrl.timerGuarded_posthandle ht f)
      (fun t n ht => ⟨ht.waiting, ht.pending⟩) (fun t ht => ⟨ht.waiting, ht.pending⟩) ?_ hguard
    intro t b he _
    obtain rfl := hrun b (he ▸ List.mem_cons_self)
    exact RecvReorderCtrl.timerGuarded_timeout t.ctrl

theorem timer_armed_of_pending (psta : StaInfo) (tid : Fin 16)
    (hidle : (psta tid).ctrl.pendingRecvframeQueue = [] ∧ (psta tid).ctrl.bReorderWaiting = false)
    (es : List Event) (hrun : ∀ b, .timeout tid b ∈ es → b = false) :
    let s := Run.exec step psta es
    ((s tid).ctrl.pendingRecvframeQueue ≠ [] → (s tid).ctrl.reorderingCtrlTimer = true) ∧
      ∀ f fs, (s tid).ctrl.pendingRecvframeQueue = f :: fs →
        ∃ p rest, (step s (.timeout tid false) tid).log = (s tid).log ++ (p, f) :: rest := by
  intro s
  obtain ⟨hempty, hwait⟩ := hidle
  have hguard : (s tid).ctrl.TimerGuarded :=
    timerGuarded_run ⟨fun hw => by simp [hwait] at hw, fun hp => absurd hempty hp⟩ hrun
  refine ⟨hguard.pending, fun f fs hq => ?_⟩
  obtain ⟨rest, hrest⟩ := RecvReorderCtrl.timeout_delivers_head hq
  simp only [step, Function.update_self, TidRx.timeout, TidRx.advance, hrest, List.map_cons]
  exact ⟨_, _, rfl⟩

def delbaRun : List Event :=
  [.data (.qosData 0 0 10), .data (.qosData 1 0 12), .bar (barFrame 0 500), .timeout 1 true,
    .action [3, 2, 0, 0x08]]

theorem timer_armed_of_pending_delba :
    let s := Run.exec step session delbaRun
    ((s 0).ctrl.pendingRecvframeQueue ≠ [] → (s 0).ctrl.reorderingCtrlTimer = true) ∧
      ∀ f fs, (s 0).ctrl.pendingRecvframeQueue = f :: fs →
        ∃ p rest, (step s (.timeout 0 false) 0).log = (s 0).log ++ (p, f) :: rest :=
  timer_armed_of_pending session 0 ⟨rfl, rfl⟩ delbaRun (by simp [delbaRun])

-- a firing that finds RTW_CANNOT_RUN leaves the frame where it is and the timer unarmed
theorem stopped_firing_strands :
    let s := Run.exec step session [.data (.qosData 0 0 10), .data (.qosData 1 0 12)]
    let s' := step s (.timeout 0 true)
    (s' 0).ctrl.pendingRecvframeQueue = [.qosData 1 0 12] ∧
      (s' 0).ctrl.reorderingCtrlTimer = false ∧ (s' 0).log = (s 0).log := by
  decide

end BlockAck

end Recv
