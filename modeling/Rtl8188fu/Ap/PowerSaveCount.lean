import Rtl8188fu.Ap.PowerSave

namespace Ap.Ps

def pkts (l : List TxFrame) : List Pkt := l.map TxFrame.pkt

@[simp] theorem pkts_nil : pkts [] = [] := rfl

@[simp] theorem pkts_cons (f : TxFrame) (l : List TxFrame) : pkts (f :: l) = f.pkt :: pkts l := rfl

@[simp] theorem pkts_append (l r : List TxFrame) : pkts (l ++ r) = pkts l ++ pkts r :=
  List.map_append

namespace PsSta

-- hand lists the frames a routine has unlinked and not yet put anywhere
structure Counted (hand : List Pkt) (s : PsSta) : Prop where
  sleepLen : s.sleepqLen = s.sleepQ.length
  mgmtLen : s.mgmtSleepqLen = s.mgmtSleepQ.length
  mgmtCnt : s.mgmtQ.qcnt = s.mgmtQ.staPending.length
  cnt : ∀ ac, (s.servq ac).qcnt = (s.servq ac).staPending.length
  placed : ∀ ac, ∀ f ∈ (s.servq ac).staPending, f.ac = ac
  conserved : ∀ p, s.sent.count p =
    s.given.count p + s.held.count p + s.lost.count p + hand.count p

variable {s : PsSta} {hand : List Pkt}

theorem Counted.sleepQ_nil (h : s.Counted hand) (hl : s.sleepqLen = 0) : s.sleepQ = [] := by
  have hq := h.sleepLen
  rw [hl] at hq
  exact List.eq_nil_of_length_eq_zero (by exact_mod_cast hq.symm)

theorem Counted.mgmtSleepQ_nil (h : s.Counted hand) (hl : s.mgmtSleepqLen = 0) :
    s.mgmtSleepQ = [] := by
  have hq := h.mgmtLen
  rw [hl] at hq
  exact List.eq_nil_of_length_eq_zero (by exact_mod_cast hq.symm)

theorem count_held (s : PsSta) (p : Pkt) :
    s.held.count p =
      (pkts s.sleepQ).count p + ((pkts (s.servq .vo).staPending).count p +
        (pkts (s.servq .vi).staPending).count p + (pkts (s.servq .be).staPending).count p +
        (pkts (s.servq .bk).staPending).count p) := by
  simp only [held, pkts, List.map_append, List.count_append]
  omega

theorem setServq_same (s : PsSta) (ac : Ac) (q : TxServq) : (s.setServq ac q).servq ac = q :=
  Function.update_self ..

theorem setServq_other (s : PsSta) {ac b : Ac} (q : TxServq) (h : b ≠ ac) :
    (s.setServq ac q).servq b = s.servq b :=
  Function.update_of_ne h ..

theorem count_setServq (s : PsSta) (ac : Ac) (q : TxServq) (p : Pkt) :
    (s.setServq ac q).held.count p + (pkts (s.servq ac).staPending).count p =
      s.held.count p + (pkts q.staPending).count p := by
  rw [count_held, count_held]
  cases ac <;>
    simp only [setServq, Function.update_self, ne_eq, reduceCtorEq, not_false_eq_true,
      Function.update_of_ne] <;>
    omega

theorem Counted.setServq (h : s.Counted hand) {ac : Ac} {q : TxServq} {hand' : List Pkt}
    (hcnt : q.qcnt = q.staPending.length) (hac : ∀ f ∈ q.staPending, f.ac = ac)
    (hp : ∀ p, (pkts q.staPending).count p + hand'.count p =
      (pkts (s.servq ac).staPending).count p + hand.count p) :
    (s.setServq ac q).Counted hand' where
  sleepLen := h.sleepLen
  mgmtLen := h.mgmtLen
  mgmtCnt := h.mgmtCnt
  cnt b := by
    by_cases hb : b = ac
    · subst hb
      rw [setServq_same]
      exact hcnt
    · rw [setServq_other s q hb]
      exact h.cnt b
  placed b f hf := by
    by_cases hb : b = ac
    · subst hb
      rw [setServq_same] at hf
      exact hac f hf
    · rw [setServq_other s q hb] at hf
      exact h.placed b f hf
  conserved p := by
    have hc := h.conserved p
    have hs := count_setServq s ac q p
    have hq := hp p
    change s.sent.count p = s.given.count p + _ + s.lost.count p + _
    omega

theorem Counted.append (h : s.Counted hand) (p : Pkt) :
    { s with sent := s.sent ++ [p] }.Counted (p :: hand) :=
  ⟨h.sleepLen, h.mgmtLen, h.mgmtCnt, h.cnt, h.placed, fun r => by
    have hc := h.conserved r
    change (s.sent ++ [p]).count r = s.given.count r + s.held.count r + s.lost.count r + _
    rw [List.count_append, List.count_singleton, List.count_cons]
    omega⟩

theorem Counted.give {p : Pkt} (h : s.Counted (p :: hand)) :
    { s with given := s.given ++ [p] }.Counted hand :=
  ⟨h.sleepLen, h.mgmtLen, h.mgmtCnt, h.cnt, h.placed, fun r => by
    have hc := h.conserved r
    change s.sent.count r = (s.given ++ [p]).count r + s.held.count r + s.lost.count r + _
    rw [List.count_cons] at hc
    rw [List.count_append, List.count_singleton]
    omega⟩

theorem Counted.drop {p : Pkt} (h : s.Counted (p :: hand)) :
    { s with lost := s.lost ++ [p] }.Counted hand :=
  ⟨h.sleepLen, h.mgmtLen, h.mgmtCnt, h.cnt, h.placed, fun r => by
    have hc := h.conserved r
    change s.sent.count r = s.given.count r + s.held.count r + (s.lost ++ [p]).count r + _
    rw [List.count_cons] at hc
    rw [List.count_append, List.count_singleton]
    omega⟩

theorem Counted.classify {f : TxFrame} (h : s.Counted (f.pkt :: hand)) :
    (s.halXmitframeEnqueue f).Counted hand := by
  unfold halXmitframeEnqueue rtwXmitClassifier
  split
  · refine h.setServq ?_ ?_ ?_
    · rw [h.cnt f.ac, List.length_append, List.length_singleton]
      push_cast
      rfl
    · intro g hg
      rcases List.mem_append.mp hg with hg | hg
      · exact h.placed _ g hg
      · rw [List.mem_singleton.mp hg]
    · intro p
      rw [pkts_append, List.count_append, List.count_cons, pkts_cons, pkts_nil,
        List.count_singleton]
      omega
  · exact h.drop

theorem Counted.unlink (h : s.Counted hand) {kept fs : List TxFrame} {f : TxFrame}
    (hq : s.sleepQ = kept ++ f :: fs) (acLen : ℤ) :
    { s with sleepQ := kept ++ fs, sleepqLen := s.sleepqLen - 1, sleepqAcLen := acLen }.Counted
      (f.pkt :: hand) := by
  refine ⟨?_, h.mgmtLen, h.mgmtCnt, h.cnt, h.placed, fun r => ?_⟩
  · have hl := h.sleepLen
    rw [hq, List.length_append, List.length_cons] at hl
    rw [List.length_append]
    push_cast at hl ⊢
    omega
  · have hc := h.conserved r
    rw [count_held, hq, pkts_append, pkts_cons, List.count_append, List.count_cons] at hc
    rw [count_held, pkts_append, List.count_append, List.count_cons]
    dsimp only
    omega

theorem Counted.releaseAs (h : s.Counted hand) {kept fs : List TxFrame} {f g : TxFrame}
    (hq : s.sleepQ = kept ++ f :: fs) (hg : g.pkt = f.pkt) (acLen : ℤ) :
    (s.releaseAs (kept ++ fs) acLen g).Counted hand := by
  have hu := h.unlink hq acLen
  rw [← hg] at hu
  exact hu.classify

theorem Counted.buffer {f : TxFrame} (h : s.Counted (f.pkt :: hand)) : (s.buffer f).Counted hand := by
  refine ⟨?_, h.mgmtLen, h.mgmtCnt, h.cnt, h.placed, fun r => ?_⟩
  · have hl := h.sleepLen
    unfold PsSta.buffer
    rw [List.length_append, List.length_singleton]
    push_cast
    omega
  · have hc := h.conserved r
    rw [count_held, List.count_cons] at hc
    unfold PsSta.buffer
    rw [count_held, pkts_append, List.count_append, pkts_cons, pkts_nil, List.count_singleton]
    dsimp only
    omega

-- the fields no counter depends on
theorem Counted.congr (h : s.Counted hand) {t : PsSta} (hq : t.sleepQ = s.sleepQ)
    (hl : t.sleepqLen = s.sleepqLen) (hmq : t.mgmtSleepQ = s.mgmtSleepQ)
    (hml : t.mgmtSleepqLen = s.mgmtSleepqLen) (hs : t.servq = s.servq) (hm : t.mgmtQ = s.mgmtQ)
    (hsent : t.sent = s.sent) (hgiven : t.given = s.given) (hlost : t.lost = s.lost) :
    t.Counted hand := by
  refine ⟨?_, ?_, ?_, ?_, ?_, fun p => ?_⟩
  · rw [hl, hq]
    exact h.sleepLen
  · rw [hml, hmq]
    exact h.mgmtLen
  · rw [hm]
    exact h.mgmtCnt
  · rw [hs]
    exact h.cnt
  · rw [hs]
    exact h.placed
  · rw [count_held, hq, hs, hsent, hgiven, hlost, ← count_held]
    exact h.conserved p

theorem Counted.releaseMgmt (h : s.Counted hand) {f : TxFrame} {fs : List TxFrame}
    (hq : s.mgmtSleepQ = f :: fs) : (s.releaseMgmt f fs).Counted hand := by
  have hl := h.mgmtLen
  rw [hq, List.length_cons] at hl
  unfold PsSta.releaseMgmt halMgmtXmitframeEnqueue
  split
  · refine ⟨h.sleepLen, ?_, ?_, h.cnt, h.placed, h.conserved⟩
    · push_cast at hl
      change s.mgmtSleepqLen - 1 = fs.length
      omega
    · have hc := h.mgmtCnt
      rw [List.length_append, List.length_singleton]
      push_cast
      change s.mgmtQ.qcnt + 1 = _
      omega
  · refine ⟨h.sleepLen, ?_, h.mgmtCnt, h.cnt, h.placed, h.conserved⟩
    push_cast at hl
    change s.mgmtSleepqLen - 1 = fs.length
    omega

theorem Counted.bufferMgmt (h : s.Counted hand) (f : TxFrame) : (s.bufferMgmt f).Counted hand := by
  refine ⟨h.sleepLen, ?_, h.mgmtCnt, h.cnt, h.placed, h.conserved⟩
  have hl := h.mgmtLen
  unfold PsSta.bufferMgmt
  rw [List.length_append, List.length_singleton]
  push_cast
  omega

theorem setPending_same (s : PsSta) (ac : Ac) (l : List TxFrame) :
    ((s.setPending ac l).servq ac).staPending = l := by
  rw [setPending, setServq_same]

theorem pending_uncount (s : PsSta) (ac b : Ac) :
    ((s.uncount ac).servq b).staPending = (s.servq b).staPending := by
  unfold uncount
  by_cases hb : b = ac
  · subst hb
    rw [setServq_same]
  · rw [setServq_other s _ hb]

theorem uncount_setPending (s : PsSta) (ac : Ac) (l : List TxFrame) :
    (s.setPending ac l).uncount ac = s.setServq ac ⟨l, (s.servq ac).qcnt - 1⟩ := by
  simp only [setPending, uncount, setServq, Function.update_self, Function.update_idem]

theorem Counted.unqueue (h : s.Counted hand) {ac : Ac} {kept fs : List TxFrame} {f : TxFrame}
    (hq : (s.servq ac).staPending = kept ++ f :: fs) :
    ((s.setPending ac (kept ++ fs)).uncount f.ac).Counted (f.pkt :: hand) := by
  have hf : f.ac = ac := h.placed ac f (by rw [hq]; simp)
  rw [hf, uncount_setPending]
  have hc := h.cnt ac
  rw [hq, List.length_append, List.length_cons] at hc
  refine h.setServq ?_ ?_ ?_
  · rw [List.length_append]
    push_cast at hc ⊢
    omega
  · intro g hg
    refine h.placed ac g ?_
    rw [hq]
    simp only [List.mem_append, List.mem_cons] at hg ⊢
    tauto
  · intro p
    rw [hq, pkts_append, pkts_append, pkts_cons, List.count_append, List.count_append,
      List.count_cons, List.count_cons]
    omega

theorem Counted.reset (h : s.Counted hand) {ac : Ac} {kept fs : List TxFrame} {f g : TxFrame}
    (hq : (s.servq ac).staPending = kept ++ f :: fs) (hg : g.pkt = f.pkt) :
    (s.setPending ac (kept ++ g :: fs)).Counted hand := by
  have hc := h.cnt ac
  rw [hq, List.length_append, List.length_cons] at hc
  refine h.setServq ?_ ?_ ?_
  · rw [List.length_append, List.length_cons]
    exact hc
  · intro e he
    rcases List.mem_append.mp he with he | he
    · exact h.placed ac e (by rw [hq]; simp [he])
    · rcases List.mem_cons.mp he with rfl | he
      · unfold TxFrame.ac
        rw [hg]
        exact h.placed ac f (by rw [hq]; simp)
      · exact h.placed ac e (by rw [hq]; simp [he])
  · intro p
    rw [hq, pkts_append, pkts_append, pkts_cons, pkts_cons, hg]

theorem Counted.bufferAc {f : TxFrame} (h : s.Counted (f.pkt :: hand)) :
    (s.bufferAc f).Counted hand :=
  h.buffer.congr rfl rfl rfl rfl rfl rfl rfl rfl rfl

theorem releaseAs_sleepQ (s : PsSta) (rest : List TxFrame) (acLen : ℤ) (g : TxFrame) :
    (s.releaseAs rest acLen g).sleepQ = rest := by
  unfold releaseAs halXmitframeEnqueue rtwXmitClassifier
  split <;> rfl

theorem releaseMgmt_mgmtSleepQ (s : PsSta) (f : TxFrame) (rest : List TxFrame) :
    (s.releaseMgmt f rest).mgmtSleepQ = rest := by
  unfold releaseMgmt halMgmtXmitframeEnqueue
  split <;> rfl

theorem Counted.release (h : s.Counted hand) {f : TxFrame} {fs : List TxFrame}
    (hq : s.sleepQ = f :: fs) : (s.release f fs).Counted hand := by
  unfold PsSta.release
  refine h.releaseAs (show s.sleepQ = [] ++ f :: fs from hq) ?_ _
  rfl

theorem Counted.releaseAc (h : s.Counted hand) {kept fs : List TxFrame} {f : TxFrame}
    (hq : s.sleepQ = kept ++ f :: fs) : (s.releaseAc f (kept ++ fs)).Counted hand := by
  unfold PsSta.releaseAc
  refine h.releaseAs hq ?_ _
  rfl

-- what each release of a wake-up keeps, the whole wake-up keeps
structure KeptByWakes (P : PsSta → Prop) : Prop where
  mgmt : ∀ s f fs, P s → s.mgmtSleepQ = f :: fs → P (s.releaseMgmt f fs)
  triggered : ∀ s f fs, P s → s.sleepQ = f :: fs → s.wmm.trigger f.ac = true →
    P (s.releaseAc f fs)
  other : ∀ s f fs, P s → s.sleepQ = f :: fs → s.wmm.trigger f.ac = false → P (s.release f fs)

namespace KeptByWakes

variable {P : PsSta → Prop}

theorem wakeMgmt (hP : KeptByWakes P) (fs : List TxFrame) : ∀ s : PsSta, P s →
    s.mgmtSleepQ = fs → P (s.wakeMgmt fs) := by
  induction fs with
  | nil => exact fun s h _ => h
  | cons f fs ih =>
    intro s h hq
    exact ih _ (hP.mgmt s f fs h hq) (releaseMgmt_mgmtSleepQ s f fs)

theorem wakeData (hP : KeptByWakes P) (fs : List TxFrame) : ∀ s : PsSta, P s →
    s.sleepQ = fs → P (s.wakeData fs) := by
  induction fs with
  | nil => exact fun s h _ => h
  | cons f fs ih =>
    intro s h hq
    unfold PsSta.wakeData
    split
    · rename_i hf
      exact ih _ (hP.triggered s f fs h hq hf) (releaseAs_sleepQ ..)
    · rename_i hf
      exact ih _ (hP.other s f fs h hq (Bool.eq_false_iff.mpr hf)) (releaseAs_sleepQ ..)

theorem queues (hP : KeptByWakes P) {s : PsSta} (h : P s) (t : DequeueType) :
    let s := if t = .uniMgmt ∨ t = .allFrame then s.wakeMgmt s.mgmtSleepQ else s
    P (if t = .uniBmcData ∨ t = .allFrame then s.wakeData s.sleepQ else s) := by
  intro u
  have hu : P u := by
    change P (if _ then _ else _)
    split
    · exact hP.wakeMgmt _ s h rfl
    · exact h
  split
  · exact hP.wakeData _ u hu rfl
  · exact hu

end KeptByWakes

theorem counted_kept : KeptByWakes (Counted hand) where
  mgmt _ _ _ h hq := h.releaseMgmt hq
  triggered s f fs h hq _ := h.releaseAc (show s.sleepQ = [] ++ f :: fs from hq)
  other _ _ _ h hq _ := h.release hq

theorem Counted.flushBmc (fs : List TxFrame) : ∀ s : PsSta, s.Counted hand →
    s.sleepQ = fs → (s.flushBmc fs).Counted hand := by
  induction fs with
  | nil => exact fun s h _ => h
  | cons f fs ih =>
    intro s h hq
    exact ih _ (h.release hq) (releaseAs_sleepQ ..)

theorem Counted.pollMgmt (h : s.Counted hand) : s.pollMgmt.Counted hand := by
  unfold PsSta.pollMgmt
  split
  · exact h
  · exact h.releaseMgmt ‹_›

theorem Counted.pollData (h : s.Counted hand) : s.pollData.Counted hand := by
  unfold PsSta.pollData
  split
  · exact h
  · exact (h.release ‹_›).congr rfl rfl rfl rfl rfl rfl rfl rfl rfl

theorem Counted.fresh (h : s.Counted hand) :
    (PsSta.fresh s.sent s.given (s.lost ++ s.held)).Counted hand := by
  refine ⟨rfl, rfl, rfl, fun _ => rfl, fun _ _ hf => (List.not_mem_nil hf).elim, fun p => ?_⟩
  have hc := h.conserved p
  rw [count_held]
  change s.sent.count p = s.given.count p + _ + (s.lost ++ s.held).count p + _
  rw [List.count_append]
  simp only [PsSta.fresh, TxServq.empty, pkts_nil, List.count_nil]
  omega

end PsSta

namespace PsSys

variable {σ σ' : PsSys} {w : StaId}

@[simp] theorem put_same (σ : PsSys) (w : StaId) (s : PsSta) : (σ.put w s).stas w = s :=
  Function.update_self ..

theorem put_other (σ : PsSys) {w v : StaId} (s : PsSta) (h : v ≠ w) :
    (σ.put w s).stas v = σ.stas v :=
  Function.update_of_ne h ..

@[simp] theorem put_put (σ : PsSys) (w : StaId) (s t : PsSta) : (σ.put w s).put w t = σ.put w t := by
  simp only [put, Function.update_idem]

def Counted (σ : PsSys) : Prop := ∀ w, (σ.stas w).Counted []

theorem Counted.put (h : σ.Counted) {s : PsSta} (hs : s.Counted []) : (σ.put w s).Counted := by
  intro v
  by_cases hv : v = w
  · subst hv
    rw [put_same]
    exact hs
  · rw [put_other σ s hv]
    exact h v

theorem enqueue_sta {k : ℕ} {f : TxFrame}
    (h : σ.xmitframeEnqueueForSleepingSta (some k) f = some σ') :
    (σ.stas (some k)).sleep = true ∧ (σ.stas (some k)).aid ∈ σ.dz ∧
      (σ.stas (some k)).asoc = true ∧
      σ' = { σ.put (some k) ((σ.stas (some k)).bufferAc f) with
        tim := if (σ.stas (some k)).announces f then insert (σ.stas (some k)).aid σ.tim
          else σ.tim } := by
  unfold xmitframeEnqueueForSleepingSta at h
  split at h
  · cases h
  · rename_i ha
    dsimp only at h
    split at h
    · rename_i hs
      rw [Bool.and_eq_true, decide_eq_true_eq] at hs
      simp only [Bool.or_eq_true, Bool.not_eq_eq_eq_not, Bool.not_true, not_or,
        Bool.not_eq_false] at ha
      exact ⟨hs.1, hs.2, ha.1, (Option.some.inj h).symm⟩
    · cases h

theorem enqueue_bmc {f : TxFrame} (h : σ.xmitframeEnqueueForSleepingSta none f = some σ') :
    σ.dz ≠ ∅ ∧
      σ' = { σ.put none ((σ.stas none).buffer f) with
        dz := insert 0 σ.dz
        tim := insert 0 σ.tim } := by
  unfold xmitframeEnqueueForSleepingSta at h
  split at h
  · cases h
  · dsimp only at h
    split at h
    · cases h
    · rename_i hd
      exact ⟨hd, (Option.some.inj h).symm⟩

theorem enqueue_stas {f : TxFrame} (h : σ.xmitframeEnqueueForSleepingSta w f = some σ') :
    σ'.stas = (σ.put w ((σ.stas w).buffer f)).stas ∨
      σ'.stas = (σ.put w ((σ.stas w).bufferAc f)).stas := by
  cases w with
  | none =>
    left
    rw [(enqueue_bmc h).2]
  | some k =>
    right
    rw [(enqueue_sta h).2.2.2]

theorem Counted.loop (ac : Ac) (fs : List TxFrame) : ∀ (σ : PsSys) (kept : List TxFrame),
    σ.Counted → ((σ.stas w).servq ac).staPending = kept ++ fs →
    (dequeueXmitframesToSleepingQueue w ac σ kept fs).Counted := by
  induction fs with
  | nil => exact fun σ kept h _ => h
  | cons f fs ih =>
    intro σ kept h hq
    unfold dequeueXmitframesToSleepingQueue
    split
    · rename_i σ' he
      have hu := (h w).unqueue hq
      have hstas := enqueue_stas he
      refine ih _ _ ?_ ?_
      · intro v
        by_cases hv : v = w
        · subst hv
          rw [put_same]
          rcases hstas with hs | hs
          · rw [hs, put_same]
            exact PsSta.Counted.buffer (f := { f with triggered := false }) hu
          · rw [hs, put_same]
            exact PsSta.Counted.bufferAc (f := { f with triggered := false }) hu
        · rw [put_other _ _ hv]
          rcases hstas with hs | hs
          · rw [hs, put_other _ _ hv]
            exact h v
          · rw [hs, put_other _ _ hv]
            exact h v
      · rw [put_same, PsSta.pending_uncount, PsSta.setPending_same]
    · refine ih _ _ (h.put ?_) ?_
      · rw [List.append_assoc]
        exact (h w).reset hq rfl
      · rw [put_same, PsSta.setPending_same]

theorem Counted.sleepServq (h : σ.Counted) (w : StaId) (ac : Ac) : (σ.sleepServq w ac).Counted :=
  Counted.loop ac _ σ [] h rfl

theorem mgmt_enqueue {f : TxFrame} (h : σ.mgmtXmitframeEnqueueForSleepingSta w f = some σ') :
    (σ.stas w).sleep = true ∧ (σ.stas w).aid ∈ σ.dz ∧ (σ.stas w).asoc = true ∧
      σ' = { σ.put w ((σ.stas w).bufferMgmt f) with tim := insert (σ.stas w).aid σ.tim } := by
  unfold mgmtXmitframeEnqueueForSleepingSta at h
  split at h
  · rename_i hs
    simp only [Bool.and_eq_true, decide_eq_true_eq] at hs
    exact ⟨hs.1.2, hs.2, hs.1.1, (Option.some.inj h).symm⟩
  · cases h

theorem Counted.mgmtLoop (fs : List TxFrame) : ∀ (σ : PsSys) (kept : List TxFrame),
    σ.Counted → (σ.stas w).mgmtQ.staPending = kept ++ fs →
    (dequeueMgmtXmitframeToSleepq w σ kept fs).Counted := by
  induction fs with
  | nil => exact fun σ kept h _ => h
  | cons f fs ih =>
    intro σ kept h hq
    have hc := (h w).mgmtCnt
    rw [hq, List.length_append, List.length_cons] at hc
    push_cast at hc
    unfold dequeueMgmtXmitframeToSleepq
    split
    · rename_i σ' he
      obtain ⟨-, -, -, rfl⟩ := mgmt_enqueue he
      dsimp only
      refine ih _ _ ?_ ?_
      · intro v
        by_cases hv : v = w
        · subst hv
          have hb := (h v).bufferMgmt { f with triggered := false }
          rw [put_same, put_same]
          refine ⟨hb.sleepLen, hb.mgmtLen, ?_, hb.cnt, hb.placed, hb.conserved⟩
          rw [List.length_append]
          push_cast
          change (σ.stas v).mgmtQ.qcnt - 1 = _
          omega
        · rw [put_other _ _ hv]
          change ((σ.put w _).stas v).Counted []
          rw [put_other _ _ hv]
          exact h v
      · rw [put_same]
    · dsimp only
      refine ih _ _ (h.put ?_) ?_
      · refine ⟨(h w).sleepLen, (h w).mgmtLen, ?_, (h w).cnt, (h w).placed, (h w).conserved⟩
        rw [List.length_append, List.length_append, List.length_singleton]
        push_cast
        omega
      · rw [put_same]

theorem Counted.sleepServqs (h : σ.Counted) (w : StaId) : (σ.sleepServqs w).Counted :=
  (((h.sleepServq w .vo).sleepServq w .vi).sleepServq w .be).sleepServq w .bk

theorem Counted.stopStaXmit (h : σ.Counted) (k : ℕ) : (σ.stopStaXmit k).Counted := by
  have hd : (σ.doze k).Counted := h.put ((h (some k)).congr rfl rfl rfl rfl rfl rfl rfl rfl rfl)
  have hm : ((σ.doze k).sleepMgmt (some k)).Counted := Counted.mgmtLoop _ _ [] hd rfl
  exact (hm.sleepServqs (some k)).sleepServqs none

theorem Counted.wakeFrames (h : σ.Counted) (k : ℕ) (t : DequeueType) : (σ.wakeFrames k t).Counted :=
  h.put (PsSta.counted_kept.queues (h (some k)) t)

theorem Counted.wakeSta (h : σ.Counted) (k : ℕ) : (σ.wakeSta k).Counted := by
  unfold PsSys.wakeSta
  dsimp only
  split
  · have hc := h.put (w := some k) ((h (some k)).congr (t := { σ.stas (some k) with sleep := false })
      rfl rfl rfl rfl rfl rfl rfl rfl rfl)
    exact hc
  · exact h

theorem Counted.wakeBmc (h : σ.Counted) : σ.wakeBmc.Counted := by
  have hf : (σ.put none ((σ.stas none).flushBmc (σ.stas none).sleepQ)).Counted :=
    h.put (PsSta.Counted.flushBmc _ _ (h none) rfl)
  unfold PsSys.wakeBmc
  split
  · dsimp only
    split
    · exact hf
    · exact hf
  · exact h

theorem Counted.wakeupStaToXmit (h : σ.Counted) (k : ℕ) (t : DequeueType) :
    (σ.wakeupStaToXmit k t).Counted := by
  have hw := (h.wakeFrames k t).wakeSta k
  unfold PsSys.wakeupStaToXmit
  dsimp only
  split
  · exact hw.wakeBmc
  · exact hw

theorem releaseAc_wmm (s : PsSta) (f : TxFrame) (rest : List TxFrame) :
    (s.releaseAc f rest).wmm = s.wmm := by
  unfold PsSta.releaseAc PsSta.releaseAs PsSta.halXmitframeEnqueue PsSta.rtwXmitClassifier
  split <;> rfl

-- one frame of a service period: s is the station after its release
def delivered (σ : PsSys) (k : ℕ) (s : PsSta) : PsSys :=
  { σ.put (some k) s with
    tim := if s.sleepqAcLen = 0 ∧ (σ.stas (some k)).wmm.hasLegacyAc = false then
      σ.tim.erase (σ.stas (some k)).aid else σ.tim }

theorem deliver_rule {P : PsSys → Prop} {k : ℕ}
    (hstep : ∀ σ kept f fs, P σ → (σ.stas (some k)).sleepQ = kept ++ f :: fs →
      (∀ g ∈ kept, (σ.stas (some k)).wmm.trigger g.ac = false) →
      (σ.stas (some k)).wmm.trigger f.ac = true →
      P (σ.delivered k ((σ.stas (some k)).releaseAc f (kept ++ fs))))
    (fs : List TxFrame) : ∀ (σ : PsSys) (kept : List TxFrame), P σ →
    (σ.stas (some k)).sleepQ = kept ++ fs →
    (∀ g ∈ kept, (σ.stas (some k)).wmm.trigger g.ac = false) → P (deliver k σ kept fs) := by
  induction fs with
  | nil => exact fun σ kept h _ _ => h
  | cons f fs ih =>
    intro σ kept h hq hkept
    unfold PsSys.deliver
    dsimp only
    split
    · rename_i hf
      refine ih _ _ (hstep σ kept f fs h hq hkept hf) ?_ ?_
      · rw [put_same]
        exact PsSta.releaseAs_sleepQ ..
      · rw [put_same, releaseAc_wmm]
        exact hkept
    · rename_i hf
      refine ih _ _ h ?_ ?_
      · rw [hq, List.append_assoc, List.singleton_append]
      · exact List.forall_mem_append.mpr
          ⟨hkept, List.forall_mem_singleton.mpr (Bool.eq_false_iff.mpr hf)⟩

theorem Counted.deliver (h : σ.Counted) (k : ℕ) : (σ.xmitDeliveryEnabledFrames k).Counted :=
  deliver_rule (fun _ _ _ _ h hq _ _ => h.put ((h (some k)).releaseAc hq)) _ σ [] h rfl nofun

theorem Counted.processPwrbitData (h : σ.Counted) (k : ℕ) (pwrbit : Bool) :
    (σ.processPwrbitData k pwrbit).Counted := by
  unfold PsSys.processPwrbitData
  split
  · split
    · exact h
    · exact h.stopStaXmit k
  · split
    · exact h.wakeupStaToXmit k .allFrame
    · exact h

theorem Counted.processWmmpsData (h : σ.Counted) (k up : ℕ) : (σ.processWmmpsData k up).Counted := by
  unfold PsSys.processWmmpsData
  dsimp only
  split
  · exact h
  · split
    · split
      · exact h.deliver k
      · exact h
    · exact h

theorem Counted.psPoll (h : σ.Counted) (k up : ℕ) : (σ.psPoll k up).Counted := by
  have hp : ((σ.stas (some k)).pollMgmt.pollData).Counted [] := (h (some k)).pollMgmt.pollData
  unfold PsSys.psPoll
  dsimp only
  split
  · exact h
  · split
    · refine h.put ?_
      unfold PsSta.pollRepair
      split
      · rename_i hf
        simp only [Bool.and_eq_true, Bool.not_eq_eq_eq_not, Bool.not_true, Bool.or_eq_false_iff,
          Bool.not_false, List.isEmpty_iff] at hf
        obtain ⟨⟨hm, hd⟩, -⟩ := hf
        have e1 : (σ.stas (some k)).pollMgmt = σ.stas (some k) := by
          unfold PsSta.pollMgmt
          rw [hm]
        have e2 : (σ.stas (some k)).pollData = σ.stas (some k) := by
          unfold PsSta.pollData
          rw [hd]
        rw [e1, e2] at hp ⊢
        refine hp.congr rfl ?_ rfl ?_ rfl rfl rfl rfl rfl
        · change 0 = _
          rw [hp.sleepLen, hd]
          rfl
        · change 0 = _
          rw [hp.mgmtLen, hm]
          rfl
      · exact hp
    · exact h

theorem Counted.preXmitframe (h : ∀ v ≠ w, (σ.stas v).Counted []) {f : TxFrame}
    (hw : (σ.stas w).Counted [f.pkt]) (free : Bool) : (σ.preXmitframe w free f).Counted := by
  have hput : ∀ s : PsSta, s.Counted [] → (σ.put w s).Counted := by
    intro s hs v
    by_cases hv : v = w
    · subst hv
      rw [put_same]
      exact hs
    · rw [put_other σ s hv]
      exact h v hv
  unfold PsSys.preXmitframe
  dsimp only
  split
  · exact hput _ hw.classify
  · exact hput _ hw.give

theorem Counted.rtwXmitPosthandle (h : σ.Counted) (w : StaId) (free : Bool) (p : Pkt) :
    (σ.rtwXmitPosthandle w free p).Counted := by
  unfold PsSys.rtwXmitPosthandle
  split
  · dsimp only
    set τ := σ.put w { σ.stas w with sent := (σ.stas w).sent ++ [p] } with hτ
    have hw : (τ.stas w).Counted [p.frame.pkt] := by
      rw [hτ, put_same]
      exact (h w).append p
    have ho : ∀ v ≠ w, (τ.stas v).Counted [] := by
      intro v hv
      rw [hτ, put_other _ _ hv]
      exact h v
    cases he : τ.xmitframeEnqueueForSleepingSta w p.frame with
    | none => exact Counted.preXmitframe ho hw free
    | some σ' =>
      intro v
      rw [Option.getD_some]
      by_cases hv : v = w
      · subst hv
        rcases enqueue_stas he with hs | hs
        · rw [hs, put_same]
          exact hw.buffer
        · rw [hs, put_same]
          exact hw.bufferAc
      · rcases enqueue_stas he with hs | hs
        · rw [hs, put_other _ _ hv]
          exact ho v hv
        · rw [hs, put_other _ _ hv]
          exact ho v hv
  · exact h

theorem Counted.rtwHalMgntXmit (h : σ.Counted) (k : ℕ) (psDontq : Bool) (p : Pkt) :
    (σ.rtwHalMgntXmit k psDontq p).Counted := by
  unfold PsSys.rtwHalMgntXmit
  split
  · exact h
  · cases he : σ.mgmtXmitframeEnqueueForSleepingSta (some k) p.frame with
    | none => exact h
    | some σ' =>
      obtain ⟨-, -, -, rfl⟩ := mgmt_enqueue he
      exact h.put ((h (some k)).bufferMgmt p.frame)

theorem Counted.rtwDequeueXframe (h : σ.Counted) (w : StaId) (ac : Ac) :
    (σ.rtwDequeueXframe w ac).Counted := by
  unfold PsSys.rtwDequeueXframe
  split
  · exact h
  · rename_i f fs hq
    have hf : f.ac = ac := (h w).placed ac f (by rw [hq]; simp)
    have hu := (h w).unqueue (show ((σ.stas w).servq ac).staPending = [] ++ f :: fs from hq)
    rw [hf, List.nil_append] at hu
    exact h.put hu.give

theorem Counted.rtwDequeueMgmtXframe (h : σ.Counted) (w : StaId) :
    (σ.rtwDequeueMgmtXframe w).Counted := by
  unfold PsSys.rtwDequeueMgmtXframe
  dsimp only
  split
  · exact h
  · rename_i f fs hq
    have hc := (h w).mgmtCnt
    rw [hq, List.length_cons] at hc
    refine h.put ⟨(h w).sleepLen, (h w).mgmtLen, ?_, (h w).cnt, (h w).placed, (h w).conserved⟩
    push_cast at hc
    change (σ.stas w).mgmtQ.qcnt - 1 = fs.length
    omega

theorem Counted.step (h : σ.Counted) (e : PsEvent) : (σ.step e).Counted := by
  cases e with
  | join k aid qos => exact h.put ((h (some k)).congr rfl rfl rfl rfl rfl rfl rfl rfl rfl)
  | disassoc k =>
    exact h.put (w := some k) ((h (some k)).congr rfl rfl rfl rfl rfl rfl rfl rfl rfl)
  | free k => exact h.put (h (some k)).fresh
  | xmit w free p => exact h.rtwXmitPosthandle w free p
  | mgnt k psDontq p => exact h.rtwHalMgntXmit k psDontq p
  | pwrbit k on => exact h.processPwrbitData k on
  | wakeup k t => exact h.wakeupStaToXmit k t
  | psPoll k up => exact h.psPoll k up
  | trigger k up => exact h.processWmmpsData k up
  | dequeue w ac => exact h.rtwDequeueXframe w ac
  | dequeueMgmt w => exact h.rtwDequeueMgmtXframe w
  | chkBmcSleepq =>
    unfold PsSys.step PsSys.chkBmcSleepqHdl
    dsimp only
    split
    · exact h.put (PsSta.Counted.flushBmc _ _ (h none) rfl)
    · exact h
  | chkHiQueue empty =>
    unfold PsSys.step PsSys.rtwChkHiQueueHdl
    dsimp only
    split
    · exact h
    · exact h

theorem counted_init : init.Counted := by
  intro w
  exact ⟨rfl, rfl, rfl, fun _ => rfl, fun _ _ hf => (List.not_mem_nil hf).elim, fun _ => rfl⟩

theorem counted_run (es : List PsEvent) : (Run.exec step init es).Counted :=
  Run.exec_invariant step Counted (fun _ e h => h.step e) counted_init es

theorem queues_counted (es : List PsEvent) (w : StaId) :
    let s := (Run.exec step init es).stas w
    s.sleepqLen = s.sleepQ.length ∧ s.mgmtSleepqLen = s.mgmtSleepQ.length ∧
      s.mgmtQ.qcnt = s.mgmtQ.staPending.length ∧
      (∀ ac, (s.servq ac).qcnt = (s.servq ac).staPending.length ∧
        ∀ f ∈ (s.servq ac).staPending, f.ac = ac) ∧
      ∀ p, s.sent.count p = s.given.count p + s.held.count p + s.lost.count p := by
  have h := counted_run es w
  exact ⟨h.sleepLen, h.mgmtLen, h.mgmtCnt, fun ac => ⟨h.cnt ac, h.placed ac⟩, h.conserved⟩

end PsSys

end Ap.Ps
