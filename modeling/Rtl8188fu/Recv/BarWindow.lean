import Rtl8188fu.Recv.BlockAck

namespace Recv

open ReleaseWindow

namespace RecvReorderCtrl

theorem reorderPosthandle_enable (c : RecvReorderCtrl) (f : RecvFrame) :
    (c.reorderPosthandle f).ctrl.enable = c.enable := by
  unfold reorderPosthandle
  rcases recvIndicatepktReorder_cases c f with ⟨-,he⟩ | ⟨n,c',rfl,he | ⟨queue,r,-,rfl,he⟩⟩ <;>
    rw [he] <;> rfl

theorem reorderPosthandle_enabled {c : RecvReorderCtrl} {f : RecvFrame} (henable : c.enable = true)
    (hqos : f.attrib.qos = true) (hctrl : f.preorderCtrl.isSome = true) :
    c.reorderPosthandle f =
      ⟨(c.recvIndicatepktReorder f).ctrl, (c.recvIndicatepktReorder f).indicated⟩ := by
  unfold reorderPosthandle
  rcases recvIndicatepktReorder_cases c f with ⟨hpass,-⟩ | ⟨n,c',-,he | ⟨queue,r,-,-,he⟩⟩
  · simp [henable, hqos, Option.isSome_iff_ne_none.mp hctrl] at hpass
  · rw [he]
  · rw [he]

theorem timeoutHandler_enable (c : RecvReorderCtrl) (cannotRun : Bool) :
    (c.rtwReorderingCtrlTimeoutHandler cannotRun).1.enable = c.enable := by
  cases cannotRun with
  | true => rfl
  | false =>
    cases hq : c.pendingRecvframeQueue with
    | nil => rw [timeoutHandler_nil hq]
    | cons f fs => rw [timeoutHandler_cons hq rfl]; rfl

def BarInWindow (c : RecvReorderCtrl) (startSeq : ℕ) : Prop :=
  c.indicateSeq = 0xFFFF ∨ snLess startSeq c.indicateSeq = false ∧
    ∀ f ∈ c.pendingRecvframeQueue, snLess f.attrib.seqNum startSeq = false

def NotPendingAtStart (c : RecvReorderCtrl) (f : RecvFrame) : Prop :=
  c.indicateSeq = f.attrib.seqNum →
    ∀ g ∈ c.pendingRecvframeQueue, g.attrib.seqNum ≠ f.attrib.seqNum

instance (c : RecvReorderCtrl) (n : ℕ) : Decidable (c.BarInWindow n) :=
  inferInstanceAs (Decidable (_ ∨ _))

instance (c : RecvReorderCtrl) (f : RecvFrame) : Decidable (c.NotPendingAtStart f) :=
  inferInstanceAs (Decidable (_ → _))

def PendingAhead (c : RecvReorderCtrl) : Prop :=
  ∀ f ∈ c.pendingRecvframeQueue, snLess f.attrib.seqNum c.indicateSeq = false

theorem pendingAhead_of_tracks {w : ℤ} {c : RecvReorderCtrl} {v : Window RecvFrame w}
    (h : Tracks c v) (hw : w ≤ 2048) : c.PendingAhead := by
  intro f hf
  rw [h.queue] at hf
  obtain ⟨x,hx,rfl⟩ := List.mem_map.mp hf
  have hat := h.position x (List.mem_append_right _ hx)
  have hin := v.inside x hx
  have hstart := h.start
  rw [snLess_lift (p := x.1) (q := v.start) (by rw [hat, Int.emod_emod])
    (by rw [hstart, Int.emod_emod]) (by omega) (by omega)]
  simpa using hin.1

end RecvReorderCtrl

namespace BlockAck

open RecvReorderCtrl

def NoRepeat (log : List (ℤ × RecvFrame)) : Prop :=
  log.Pairwise fun a b => a.2.attrib.seqNum = b.2.attrib.seqNum → a.1 + 2048 ≤ b.1

abbrev Entry (d : ℤ) (l r : ℤ × RecvFrame) : Prop :=
  l.2 = r.2 ∧ r.1 + d < l.1 ∧ l.1 ≤ r.1 + d + 2048

theorem noRepeat_of_entries {d : ℤ} {log rs : List (ℤ × RecvFrame)}
    (h : List.Forall₂ (Entry d) log rs) (hrs : rs.Pairwise Before)
    (hpos : ∀ r ∈ rs, AtPosition r) : NoRepeat log := by
  induction h with
  | nil => exact .nil
  | @cons l r ls rs hlr hrest ih =>
    obtain ⟨hall,hsort⟩ := List.pairwise_cons.mp hrs
    refine List.pairwise_cons.mpr ⟨fun m hm heq => ?_, ih hsort (fun r hr => hpos r (by simp [hr]))⟩
    obtain ⟨i,hi,rfl⟩ := List.getElem_of_mem hm
    have hi' : i < rs.length := hrest.length_eq ▸ hi
    have hentry := hrest.get hi hi'
    have hlt := hall rs[i] (List.getElem_mem hi')
    have hat := hpos rs[i] (by simp)
    have hat' := hpos r (by simp)
    simp only [List.get_eq_getElem] at hentry
    rw [hlr.1, hentry.1] at heq
    unfold AtPosition at hat hat'
    rw [heq] at hat'
    have hfar : r.1 + 4096 ≤ rs[i].1 := by
      change r.1 < rs[i].1 at hlt
      omega
    omega

instance (log : List (ℤ × RecvFrame)) : Decidable (NoRepeat log) :=
  inferInstanceAs (Decidable (List.Pairwise _ _))

structure InSession {w : ℤ} (t : TidRx) (v : Window RecvFrame w) (d : ℤ) : Prop where
  tracks : Tracks t.ctrl v
  progress : t.progress = v.start + d
  log : List.Forall₂ (Entry d) t.log v.released

inductive Sound (t : TidRx) : Prop where
  | fresh (hsize : 1 ≤ t.ctrl.wsizeB ∧ t.ctrl.wsizeB ≤ 64)
      (hempty : t.ctrl.pendingRecvframeQueue = []) (hlog : t.log = [])
      (hinit : t.ctrl.testAndClear.indicateSeq = 0xFFFF)
  | running {w : ℤ} (hw : 1 ≤ w ∧ w ≤ 64) (v : Window RecvFrame w) (d : ℤ) (h : InSession t v d)

theorem sound_noRepeat {t : TidRx} (h : Sound t) : NoRepeat t.log := by
  cases h with
  | fresh _ _ hlog _ => rw [hlog]; exact .nil
  | running hw v d h =>
    exact noRepeat_of_entries h.log (List.pairwise_append.mp v.increasing).1
      (fun r hr => h.tracks.position r (List.mem_append_left _ hr))

theorem sound_pendingAhead {t : TidRx} (h : Sound t) : t.ctrl.PendingAhead := by
  cases h with
  | fresh _ hempty _ _ => simp [PendingAhead, hempty]
  | running hw v d h => exact pendingAhead_of_tracks h.tracks (by omega)

theorem entries_released {w d p : ℤ} {v v' : Window RecvFrame w} {zs : List (ℤ × RecvFrame)}
    (hp : p = v'.start + d) (hnear : v'.start ≤ v.start + 2048)
    (hzs : v'.released = v.released ++ zs) (hge : ∀ z ∈ zs, v.start ≤ z.1) :
    List.Forall₂ (Entry d) ((zs.map Prod.snd).map (p, ·)) zs := by
  rw [List.map_map, List.forall₂_map_left_iff, List.forall₂_same]
  intro z hz
  have hbehind := v'.behind z (by rw [hzs]; exact List.mem_append_right _ hz)
  have hz' := hge z hz
  exact ⟨rfl, by change _ < p; omega, by change p ≤ _; omega⟩

theorem inSession_advance {w d : ℤ} {t : TidRx} {c : RecvReorderCtrl} {ds : List RecvFrame}
    {v v' : Window RecvFrame w} (h : InSession t v d) (hfollow : Follows v c ds v')
    (hle : v.start ≤ v'.start) (hnear : v'.start ≤ v.start + 2048)
    (hreleased : ∃ zs, v'.released = v.released ++ zs ∧ ∀ z ∈ zs, v.start ≤ z.1) :
    InSession (t.advance c ds) v' d := by
  obtain ⟨zs,hzs,hds⟩ := hfollow.log
  obtain ⟨zs',hzs',hge⟩ := hreleased
  obtain rfl : zs' = zs := List.append_cancel_left (hzs'.symm.trans hzs)
  have hstart := h.tracks.start
  have hstart' := hfollow.tracks.start
  have hprogress : (t.advance c ds).progress = v'.start + d := by
    simp only [TidRx.advance, h.progress]
    omega
  refine ⟨hfollow.tracks, hprogress, ?_⟩
  change List.Forall₂ (Entry d) (t.log ++ ds.map ((t.advance c ds).progress, ·)) v'.released
  rw [hzs, hds]
  exact List.rel_append h.log (entries_released (hds ▸ hprogress) hnear hzs hge)

theorem running_data {w d : ℤ} {t : TidRx} {v : Window RecvFrame w} (h : InSession t v d)
    (hw : 1 ≤ w ∧ w ≤ 64) {f : RecvFrame} (henable : t.ctrl.enable = true)
    (hqos : f.attrib.qos = true) (hctrl : f.preorderCtrl.isSome = true)
    (hnew : t.ctrl.NotPendingAtStart f) : Sound (t.data f) := by
  obtain ⟨v',hoffer,hfollow⟩ := recvIndicatepktReorder_offered h.tracks hw hnew
  unfold TidRx.data
  rw [reorderPosthandle_enabled henable hqos hctrl]
  exact .running hw v' d (inSession_advance h hfollow (Window.le_offered_start hoffer)
    (Window.offered_start_le hoffer (by norm_num) (by omega)) (Window.offered_released hoffer))

theorem sound_data {t : TidRx} (h : Sound t) {f : RecvFrame} (henable : t.ctrl.enable = true)
    (hqos : f.attrib.qos = true) (hctrl : f.preorderCtrl.isSome = true)
    (hnew : t.ctrl.NotPendingAtStart f) : Sound (t.data f) := by
  cases h with
  | running hw v d h => exact running_data h hw henable hqos hctrl hnew
  | fresh hsize hempty hlog hinit =>
    have hpass : (!f.attrib.qos || f.preorderCtrl.isNone || !t.ctrl.enable) = false := by
      simp [henable, hqos, hctrl]
    obtain ⟨c,hc⟩ : ∃ c : RecvReorderCtrl, c = { t.ctrl with
        indicateSeq := f.attrib.seqNum, ackOrTimeout := false, reorderWow := false } := ⟨_, rfl⟩
    have hlt := f.attrib.seqNum.isLt
    have htracks : Tracks c (Window.empty (A := RecvFrame) (w := t.ctrl.wsizeB) f.attrib.seqNum) := by
      subst hc
      refine ⟨rfl, ⟨rfl, rfl⟩, ?_, by rw [hempty]; rfl, by simp [Window.total, Window.empty]⟩
      change ((f.attrib.seqNum : ℕ) : ℤ) = ((f.attrib.seqNum : ℕ) : ℤ) % 4096
      omega
    obtain ⟨v',hoffer,hfollow⟩ := recvIndicatepktReorder_offered (f := f) htracks (by omega)
      (by simp [hc, hempty])
    obtain ⟨zs,hzs,hds⟩ := hfollow.log
    obtain ⟨zs',hzs',hge⟩ := Window.offered_released hoffer
    obtain rfl : zs' = zs := List.append_cancel_left (hzs'.symm.trans hzs)
    have hnear := Window.offered_start_le hoffer (by norm_num) (by omega)
    refine .running (by omega) v' ((t.data f).progress - v'.start) ?_
    have hdata : t.data f = t.advance (c.recvIndicatepktReorder f).ctrl
        (c.recvIndicatepktReorder f).indicated := by
      rw [TidRx.data, reorderPosthandle_enabled henable hqos hctrl,
        recvIndicatepktReorder_init hpass hinit, hc]
    rw [hdata]
    refine ⟨hfollow.tracks, (add_sub_cancel _ _).symm, ?_⟩
    simp only [TidRx.advance, hlog, List.nil_append, hds, hzs]
    exact entries_released (by omega) hnear hzs hge

theorem sound_timeout {t : TidRx} (h : Sound t) (cannotRun : Bool) :
    Sound (t.timeout cannotRun) := by
  cases h with
  | running hw v d h =>
    obtain ⟨v',hskip,hfollow⟩ := timeoutHandler_skip h.tracks ⟨by omega, hw.2⟩ cannotRun
    refine .running hw v' d ?_
    rcases hskip with rfl | rfl
    · exact inSession_advance h hfollow le_rfl (by omega) ⟨[], by simp, by simp⟩
    · have hle := v.skip_start_le (by omega)
      exact inSession_advance h hfollow (v.le_front.trans (le_drain_start _ _)) (by omega)
        (Window.move_released _ _ _ _ _ _)
  | fresh hsize hempty hlog hinit =>
    cases cannotRun with
    | true =>
      refine .fresh hsize hempty ?_ ?_
      · simp [TidRx.timeout, TidRx.advance, hlog, rtwReorderingCtrlTimeoutHandler]
      · simpa [TidRx.timeout, TidRx.advance, rtwReorderingCtrlTimeoutHandler,
          testAndClear_indicateSeq] using hinit
    | false =>
      have hnil := timeoutHandler_nil hempty
      refine .fresh ?_ ?_ ?_ ?_
      · simpa [TidRx.timeout, TidRx.advance, hnil] using hsize
      · simp [TidRx.timeout, TidRx.advance, hnil, hempty]
      · simp [TidRx.timeout, TidRx.advance, hnil, hlog]
      · simpa [TidRx.timeout, TidRx.advance, hnil, testAndClear_indicateSeq] using hinit

theorem sound_bar {t : TidRx} (h : Sound t) {n : Fin 4096} (hbar : t.ctrl.BarInWindow n) :
    Sound (t.rtwProcessBarFrame n) := by
  cases h with
  | running hw v d h =>
    have hstart := h.tracks.start
    obtain ⟨hless,hpend⟩ := hbar.resolve_left (by omega)
    have hn := n.isLt
    obtain ⟨s,hs⟩ : ∃ s : ℤ, s = v.start + ((n : ℤ) - t.ctrl.indicateSeq) % 4096 := ⟨_, rfl⟩
    have hforward : ((n : ℤ) - t.ctrl.indicateSeq) % 4096 < 2048 := by
      rw [← Bool.not_eq_true, snLess_iff_precedes] at hless
      exact not_le.mp hless
    have hahead : ∀ x ∈ v.pending, s ≤ x.1 := by
      intro x hx
      have hin := v.inside x hx
      have hat := h.tracks.position x (List.mem_append_right _ hx)
      have hpx := hpend x.2 (by rw [h.tracks.queue]; exact List.mem_map_of_mem hx)
      unfold AtPosition at hat
      rw [snLess_lift (p := x.1) (q := s) (by omega) (by omega) (by omega) (by omega)] at hpx
      simpa using hpx
    refine .running hw (v.advance s (by omega) hahead) d ⟨⟨h.tracks.size, h.tracks.clear, ?_,
      h.tracks.queue, h.tracks.position⟩, ?_, h.log⟩
    · change ((n : ℕ) : ℤ) = s % 4096
      omega
    · change t.progress + TidRx.signedDistance t.ctrl.indicateSeq n = s + d
      rw [h.progress, TidRx.signedDistance]
      omega
  | fresh hsize hempty hlog hinit =>
    cases Decidable.em ((t.ctrl.ackOrTimeout || t.ctrl.reorderWow) = true) with
    | inl hflag =>
      refine .fresh hsize hempty hlog ?_
      rw [testAndClear_indicateSeq]
      exact if_pos hflag
    | inr hflag =>
      have hclear : t.ctrl.ackOrTimeout = false ∧ t.ctrl.reorderWow = false := by
        simpa using hflag
      have hn := n.isLt
      refine .running (w := t.ctrl.wsizeB) (by omega) (Window.empty n)
        ((t.rtwProcessBarFrame n).progress - n) ⟨⟨rfl, hclear, ?_, ?_, ?_⟩, ?_, ?_⟩
      · change ((n : ℕ) : ℤ) = ((n : ℕ) : ℤ) % 4096
        omega
      · exact hempty
      · simp [Window.total, Window.empty]
      · simp [Window.empty]
      · simp [Window.empty, TidRx.rtwProcessBarFrame, hlog]

theorem sound_delba {t : TidRx} (h : Sound t) : Sound t.delba := by
  cases h with
  | running hw v d h =>
    exact .running hw v d ⟨⟨h.tracks.size, h.tracks.clear, h.tracks.start, h.tracks.queue,
      h.tracks.position⟩, h.progress, h.log⟩
  | fresh hsize hempty hlog hinit =>
    refine .fresh hsize hempty hlog ?_
    rw [testAndClear_indicateSeq] at hinit ⊢
    exact hinit

def Allowed (psta : StaInfo) : Event → Prop
  | .data f => f.attrib.qos = true → (psta f.attrib.priority).ctrl.enable = true →
      (psta f.attrib.priority).ctrl.NotPendingAtStart f
  | .bar p => (psta (barTid p)).ctrl.enable = true →
      (psta (barTid p)).ctrl.BarInWindow (barStartSeq p)
  | .action _ => True
  | .timeout _ _ => True

instance (psta : StaInfo) (e : Event) : Decidable (Allowed psta e) :=
  match e with
  | .data _ => inferInstanceAs (Decidable (_ → _))
  | .bar _ => inferInstanceAs (Decidable (_ → _))
  | .action _ => inferInstanceAs (Decidable True)
  | .timeout _ _ => inferInstanceAs (Decidable True)

structure InOrder (t t' : TidRx) : Prop where
  noRepeat : NoRepeat t'.log
  pendingAhead : t'.ctrl.PendingAhead
  forward : t.ctrl.indicateSeq ≠ 0xFFFF → t.progress ≤ t'.progress

def Good (psta : StaInfo) (e : Event) : Prop :=
  ∀ tid, (psta tid).ctrl.enable = true → InOrder (psta tid) (step psta e tid)

def AllSound (psta : StaInfo) : Prop := ∀ tid, (psta tid).ctrl.enable = true → Sound (psta tid)

theorem update_enable {psta : StaInfo} {k tid : Fin 16} {t : TidRx}
    (ht : t.ctrl.enable = true → (psta k).ctrl.enable = true)
    (h : (Function.update psta k t tid).ctrl.enable = true) : (psta tid).ctrl.enable = true := by
  cases Decidable.em (tid = k) with
  | inl hk =>
    rw [hk, Function.update_self] at h
    rw [hk]
    exact ht h
  | inr hk => rwa [Function.update_of_ne hk] at h

theorem step_enable {psta : StaInfo} {e : Event} {tid : Fin 16}
    (h : (step psta e tid).ctrl.enable = true) : (psta tid).ctrl.enable = true := by
  cases e with
  | data f =>
    simp only [step] at h
    split at h
    · exact update_enable (fun ht => (reorderPosthandle_enable _ _).symm.trans ht) h
    · exact h
  | bar p =>
    exact update_enable (t := (psta (barTid p)).rtwProcessBarFrame (barStartSeq p)) (fun ht => ht) h
  | action b =>
    simp only [step, onActionBack] at h
    split at h
    · exact update_enable (fun ht => by simp [TidRx.delba] at ht) h
    · exact h
  | timeout k b => exact update_enable (fun ht => (timeoutHandler_enable _ b).symm.trans ht) h

theorem update_of_enabled {P : TidRx → TidRx → Prop} {psta : StaInfo} {k tid : Fin 16} {t : TidRx}
    (hrefl : ∀ k, (psta k).ctrl.enable = true → P (psta k) (psta k))
    (ht : (psta k).ctrl.enable = true → P (psta k) t) (henable : (psta tid).ctrl.enable = true) :
    P (psta tid) (Function.update psta k t tid) := by
  cases Decidable.em (tid = k) with
  | inl hk =>
    rw [hk, Function.update_self]
    exact ht (hk ▸ henable)
  | inr hk =>
    rw [Function.update_of_ne hk]
    exact hrefl tid henable

theorem step_of_enabled {P : TidRx → TidRx → Prop} {psta : StaInfo} {e : Event}
    (hallow : Allowed psta e) (hrefl : ∀ k, (psta k).ctrl.enable = true → P (psta k) (psta k))
    (hdata : ∀ k f, (psta k).ctrl.enable = true → f.attrib.qos = true → f.preorderCtrl.isSome = true →
      (psta k).ctrl.NotPendingAtStart f → P (psta k) ((psta k).data f))
    (hbar : ∀ k (n : Fin 4096), (psta k).ctrl.enable = true → (psta k).ctrl.BarInWindow n →
      P (psta k) ((psta k).rtwProcessBarFrame n))
    (hdelba : ∀ k, (psta k).ctrl.enable = true → P (psta k) (psta k).delba)
    (htimeout : ∀ k cannotRun, (psta k).ctrl.enable = true →
      P (psta k) ((psta k).timeout cannotRun))
    {tid : Fin 16} (henable : (psta tid).ctrl.enable = true) :
    P (psta tid) (step psta e tid) := by
  cases e with
  | data f =>
    cases Decidable.em (f.attrib.qos = true) with
    | inl hqos =>
      simp only [step, hqos, if_true]
      exact update_of_enabled hrefl (fun hk => hdata _ _ hk hqos rfl (hallow hqos hk)) henable
    | inr hqos => simpa [step, hqos] using hrefl tid henable
  | bar p => exact update_of_enabled hrefl (fun hk => hbar _ _ hk (hallow hk)) henable
  | action b =>
    simp only [step, onActionBack]
    split
    · exact update_of_enabled hrefl (hdelba _) henable
    · exact hrefl tid henable
  | timeout k b => exact update_of_enabled hrefl (htimeout k b) henable

theorem step_sound {psta : StaInfo} {e : Event} (h : AllSound psta)
    (hallow : Allowed psta e) {tid : Fin 16} (henable : (psta tid).ctrl.enable = true) :
    Sound (step psta e tid) :=
  step_of_enabled (P := fun _ t => Sound t) hallow h
    (fun k _ hk hqos hctrl hnew => sound_data (h k hk) hk hqos hctrl hnew)
    (fun k _ hk hbar => sound_bar (h k hk) hbar) (fun k hk => sound_delba (h k hk))
    (fun k b hk => sound_timeout (h k hk) b) henable

theorem le_advance_progress (t : TidRx) (c : RecvReorderCtrl) (ds : List RecvFrame) :
    t.progress ≤ (t.advance c ds).progress := by
  simp only [TidRx.advance]
  omega

theorem le_bar_progress {t : TidRx} {n : Fin 4096} (h : t.ctrl.BarInWindow n)
    (hseq : t.ctrl.indicateSeq ≠ 0xFFFF) : t.progress ≤ (t.rtwProcessBarFrame n).progress := by
  have hless := (h.resolve_left hseq).1
  rw [← Bool.not_eq_true, snLess_iff_precedes, SerialNumber.Precedes] at hless
  simp only [TidRx.rtwProcessBarFrame, TidRx.signedDistance]
  omega

theorem step_forward {psta : StaInfo} {e : Event} (hallow : Allowed psta e)
    {tid : Fin 16} (henable : (psta tid).ctrl.enable = true) :
    (psta tid).ctrl.indicateSeq ≠ 0xFFFF →
      (psta tid).progress ≤ (step psta e tid).progress :=
  step_of_enabled (P := fun t t' => t.ctrl.indicateSeq ≠ 0xFFFF → t.progress ≤ t'.progress) hallow
    (fun _ _ _ => le_rfl) (fun _ _ _ _ _ _ _ => le_advance_progress _ _ _)
    (fun _ _ _ hbar hseq => le_bar_progress hbar hseq) (fun _ _ _ => le_rfl)
    (fun _ _ _ _ => le_advance_progress _ _ _) henable

theorem good_of_allowed {psta : StaInfo} {e : Event} (h : AllSound psta)
    (hallow : Allowed psta e) : Good psta e := by
  intro tid henable
  have hsound : Sound (step psta e tid) := step_sound h hallow henable
  exact ⟨sound_noRepeat hsound, sound_pendingAhead hsound, step_forward hallow henable⟩

theorem barInWindow_of_inOrder {t : TidRx} {n : Fin 4096}
    (h : InOrder t (t.rtwProcessBarFrame n)) : t.ctrl.BarInWindow n := by
  by_cases hseq : t.ctrl.indicateSeq = 0xFFFF
  · exact .inl hseq
  have hforward := h.forward hseq
  refine .inr ⟨?_, h.pendingAhead⟩
  rw [← Bool.not_eq_true, snLess_iff_precedes, SerialNumber.Precedes]
  simp only [TidRx.rtwProcessBarFrame, TidRx.signedDistance] at hforward
  omega

theorem notPendingAtStart_of_inOrder {t : TidRx} (hs : Sound t) {f : RecvFrame}
    (henable : t.ctrl.enable = true) (hqos : f.attrib.qos = true)
    (hctrl : f.preorderCtrl.isSome = true) (h : InOrder t (t.data f)) :
    t.ctrl.NotPendingAtStart f := by
  cases hs with
  | fresh hsize hempty hlog hinit => simp [NotPendingAtStart, hempty]
  | running hw v d hs =>
    intro hseq g hg hgf
    have hpass : (!f.attrib.qos || f.preorderCtrl.isNone || !t.ctrl.enable) = false := by
      simp [henable, hqos, hctrl]
    have hstart := hs.tracks.start
    have hfp : AtPosition (v.start, f) := by
      change ((f.attrib.seqNum : ℕ) : ℤ) = v.start % 4096
      omega
    have hg' := hg
    rw [hs.tracks.queue] at hg'
    obtain ⟨y,hy,rfl⟩ := List.mem_map.mp hg'
    have hat := hs.tracks.position y (List.mem_append_right _ hy)
    have hin := v.inside y hy
    unfold AtPosition at hat
    rw [hgf] at hat
    have htwin : ∃ y ∈ v.pending, y.1 = v.start := ⟨y, hy, by omega⟩
    obtain ⟨n,hn,heq⟩ := recvIndicatepktReorder_twin hs.tracks hw hpass hfp ⟨le_rfl, by omega⟩ htwin
    have hahead := h.pendingAhead y.2
    simp only [TidRx.data, reorderPosthandle_enabled henable hqos hctrl, heq, TidRx.advance] at hahead
    have hnext : (n : ℤ) = (v.start + 1) % 4096 := by simpa [Window.shifted] using hn
    have hless : snLess y.2.attrib.seqNum n = true := by
      rw [snLess_lift (p := v.start) (q := v.start + 1) (by rw [hgf]; omega) (by omega) (by omega)
        (by omega)]
      simp
    exact absurd (hahead hg) (by simp [hless])

theorem allowed_of_good {psta : StaInfo} {e : Event} (h : AllSound psta)
    (hgood : Good psta e) : Allowed psta e := by
  cases e with
  | data f =>
    intro hqos henable
    have horder := hgood f.attrib.priority henable
    simp only [step, hqos, if_true, Function.update_self] at horder
    exact notPendingAtStart_of_inOrder (f := { f with preorderCtrl := some f.attrib.priority })
      (h _ henable) henable hqos rfl horder
  | bar p =>
    intro henable
    have horder := hgood (barTid p) henable
    simp only [step, Function.update_self] at horder
    exact barInWindow_of_inOrder horder
  | action b => trivial
  | timeout k b => trivial

def Started (psta : StaInfo) : Prop :=
  ∀ tid, (psta tid).ctrl.enable = true →
    1 ≤ (psta tid).ctrl.wsizeB ∧ (psta tid).ctrl.wsizeB ≤ 64 ∧
      (psta tid).ctrl.indicateSeq = 0xFFFF ∧ (psta tid).ctrl.pendingRecvframeQueue = [] ∧
      (psta tid).log = []

theorem allSound_of_started {psta : StaInfo} (h : Started psta) : AllSound psta := by
  intro tid henable
  obtain ⟨hlow,hhigh,hseq,hempty,hlog⟩ := h tid henable
  exact .fresh ⟨hlow, hhigh⟩ hempty hlog (by rw [testAndClear_indicateSeq, hseq, ite_self])

theorem bar_safe_iff (psta : StaInfo) (hstart : Started psta) (es : List Event) :
    Run.Each step Good psta es ↔ Run.Each step Allowed psta es :=
  (Run.each_iff step Allowed Good AllSound
    (fun _ _ h => ⟨good_of_allowed h, allowed_of_good h⟩)
    (fun _ _ h hallow _ henable => step_sound h hallow (step_enable henable))
    (allSound_of_started hstart) es).symm

theorem started_session : Started session := fun _ _ =>
  ⟨(by decide : 1 ≤ 64), (by decide : 64 ≤ 64), rfl, rfl, rfl⟩

def forwardBarRun : List Event :=
  [.data (.qosData 0 0 10), .data (.qosData 1 0 15), .bar (barFrame 0 14),
    .data (.qosData 2 0 14)]

theorem bar_safe_iff_forward : Run.Each step Good session forwardBarRun :=
  (bar_safe_iff session started_session forwardBarRun).mpr
    ⟨by decide, by decide, by decide, by decide, trivial⟩

def staleBarRun : List Event :=
  [.data (.qosData 0 0 10), .data (.qosData 1 0 11), .bar (barFrame 0 10),
    .data (.qosData 2 0 10)]

theorem bar_replays_delivered :
    ¬ ∀ es, Run.Each step Good session es := by
  intro h
  have hlast := (h staleBarRun).2.2.2.1 0 rfl
  exact absurd hlast.noRepeat (by decide)

end BlockAck

end Recv
