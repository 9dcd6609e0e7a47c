import Rtl8188fu.Ap.PowerSaveCount

namespace Ap.Ps

namespace PsSta

-- d and t say whether the station's bit is set in sta_dz_bitmap and in tim_bitmap; a station that
-- leaves loses its TIM bit at once and its buffered frames only when it is freed
structure Sound (d t : Prop) (s : PsSta) : Prop where
  asleep : s.sleepQ ≠ [] ∨ s.mgmtSleepQ ≠ [] → s.sleep = true ∧ d ∧ s.aid ≠ 0
  joined : s.asoc = true → s.aid ≠ 0
  whole : s.aid ≠ 0 → s.wmm.hasLegacyAc = false → ∀ ac, s.wmm.delivery ac = true
  acLen : s.stale = false →
    s.sleepqAcLen = s.sleepQ.countP (fun f => s.wmm.delivery f.ac) + s.leaked
  announced : s.asoc = true → s.stale = false → ∀ f ∈ s.sleepQ, s.announces f = true → t
  announcedMgmt : s.asoc = true → s.stale = false → s.mgmtSleepQ ≠ [] →
    s.wmm.hasLegacyAc = true → t

variable {s : PsSta} {d t : Prop}

theorem Sound.mono (h : s.Sound d t) {d' t' : Prop} (hd : s.aid ≠ 0 → d → d')
    (ht : s.aid ≠ 0 → t → t') : s.Sound d' t' where
  asleep hq := by
    obtain ⟨h1, h2, h3⟩ := h.asleep hq
    exact ⟨h1, hd h3 h2, h3⟩
  joined := h.joined
  whole := h.whole
  acLen := h.acLen
  announced hj hs f hf ha := by
    have hne := (h.asleep (Or.inl (List.ne_nil_of_mem hf))).2.2
    exact ht hne (h.announced hj hs f hf ha)
  announcedMgmt hj hs hm hl := ht (h.asleep (Or.inr hm)).2.2 (h.announcedMgmt hj hs hm hl)

theorem Sound.congr (h : s.Sound d t) {u : PsSta} (ha : u.asoc = s.asoc) (hs : u.sleep = s.sleep)
    (hi : u.aid = s.aid) (hw : u.wmm = s.wmm) (hq : u.sleepQ = s.sleepQ)
    (hl : u.sleepqAcLen = s.sleepqAcLen) (hm : u.mgmtSleepQ = s.mgmtSleepQ)
    (hk : u.leaked = s.leaked) (ht : u.stale = s.stale) : u.Sound d t := by
  refine ⟨?_, ?_, ?_, ?_, ?_, ?_⟩
  · rw [hq, hm, hs, hi]
    exact h.asleep
  · rw [ha, hi]
    exact h.joined
  · rw [hi, hw]
    exact h.whole
  · rw [ht, hl, hq, hw, hk]
    exact h.acLen
  · unfold announces
    rw [ha, ht, hq, hw]
    exact h.announced
  · rw [ha, ht, hm, hw]
    exact h.announcedMgmt

theorem Sound.drained (h : s.Sound d t) (hq : s.sleepQ = []) (hm : s.mgmtSleepQ = []) (b : Bool)
    (d' t' : Prop) : { s with sleep := b }.Sound d' t' := by
  refine ⟨fun hne => (hne.elim (fun h1 => h1 hq) fun h2 => h2 hm).elim, h.joined, h.whole, h.acLen,
    fun _ _ f hf => ?_, fun _ _ hne => (hne hm).elim⟩
  change f ∈ s.sleepQ at hf
  rw [hq] at hf
  exact (List.not_mem_nil hf).elim

theorem Sound.silent (h : s.Sound d t)
    (hs : s.stale = false → s.sleepQ = [] ∧ s.wmm.hasLegacyAc = false) (t' : Prop) :
    s.Sound d t' := by
  refine ⟨h.asleep, h.joined, h.whole, h.acLen, fun _ hst f hf => ?_, fun _ hst _ hl => ?_⟩
  · rw [(hs hst).1] at hf
    exact (List.not_mem_nil hf).elim
  · rw [(hs hst).2] at hl
    cases hl

theorem Sound.fresh (sent given lost : List Pkt) (d t : Prop) :
    (PsSta.fresh sent given lost).Sound d t where
  asleep hne := (hne.elim (fun h1 => h1 rfl) fun h2 => h2 rfl).elim
  joined ha := by cases ha
  whole ha := (ha rfl).elim
  acLen _ := rfl
  announced _ _ _ hf := (List.not_mem_nil hf).elim
  announcedMgmt _ _ hne := (hne rfl).elim

theorem trigger_eq (m : Wmm) (ac : Ac) : m.trigger ac = m.delivery ac := (m.paired ac).symm

theorem releaseAs_keeps (s : PsSta) (rest : List TxFrame) (n : ℤ) (g : TxFrame) :
    (s.releaseAs rest n g).asoc = s.asoc ∧ (s.releaseAs rest n g).sleep = s.sleep ∧
      (s.releaseAs rest n g).aid = s.aid ∧ (s.releaseAs rest n g).wmm = s.wmm ∧
      (s.releaseAs rest n g).sleepqAcLen = n ∧
      (s.releaseAs rest n g).mgmtSleepQ = s.mgmtSleepQ ∧
      (s.releaseAs rest n g).leaked = s.leaked ∧ (s.releaseAs rest n g).stale = s.stale := by
  unfold releaseAs halXmitframeEnqueue rtwXmitClassifier
  split <;> exact ⟨rfl, rfl, rfl, rfl, rfl, rfl, rfl, rfl⟩

theorem Sound.releaseAs (h : s.Sound d t) {kept fs : List TxFrame} {f : TxFrame}
    (hq : s.sleepQ = kept ++ f :: fs) {n : ℤ} {l : ℕ} (g : TxFrame)
    (hn : n + (if s.wmm.delivery f.ac then 1 else 0) + s.leaked = s.sleepqAcLen + l) :
    { s.releaseAs (kept ++ fs) n g with leaked := l }.Sound d t := by
  obtain ⟨ha, hs, hi, hw, hl, hm, -, ht⟩ := releaseAs_keeps s (kept ++ fs) n g
  have hr := releaseAs_sleepQ s (kept ++ fs) n g
  have hold : s.sleepQ ≠ [] := by
    rw [hq]
    simp
  refine ⟨fun _ => ?_, ?_, ?_, ?_, ?_, ?_⟩
  · change (s.releaseAs (kept ++ fs) n g).sleep = true ∧ d ∧ (s.releaseAs (kept ++ fs) n g).aid ≠ 0
    rw [hs, hi]
    exact h.asleep (Or.inl hold)
  · change (s.releaseAs (kept ++ fs) n g).asoc = true → (s.releaseAs (kept ++ fs) n g).aid ≠ 0
    rw [ha, hi]
    exact h.joined
  · change (s.releaseAs (kept ++ fs) n g).aid ≠ 0 → _
    rw [hi]
    dsimp only
    rw [hw]
    exact h.whole
  · dsimp only
    rw [ht, hl, hr, hw]
    intro hst
    have hc := h.acLen hst
    rw [hq, List.countP_append, List.countP_cons] at hc
    rw [List.countP_append]
    push_cast at hc ⊢
    split_ifs at hn hc <;> omega
  · unfold announces
    dsimp only
    rw [ha, ht, hr, hw]
    intro hj hst e he
    refine h.announced hj hst e ?_
    rw [hq]
    simp only [List.mem_append, List.mem_cons] at he ⊢
    tauto
  · dsimp only
    rw [ha, ht, hm, hw]
    exact h.announcedMgmt

theorem Sound.releaseAc (h : s.Sound d t) {kept fs : List TxFrame} {f : TxFrame}
    (hq : s.sleepQ = kept ++ f :: fs) (hf : s.wmm.trigger f.ac = true) :
    (s.releaseAc f (kept ++ fs)).Sound d t := by
  rw [trigger_eq] at hf
  have hr := h.releaseAs hq (n := s.sleepqAcLen - 1) (l := s.leaked)
    { f with
      mdata := decide (s.sleepqAcLen - 1 ≠ 0)
      eosp := decide (s.sleepqAcLen - 1 = 0)
      triggered := true } (by rw [if_pos hf]; omega)
  obtain ⟨-, -, -, -, -, -, hk, -⟩ := releaseAs_keeps s (kept ++ fs) (s.sleepqAcLen - 1)
    { f with
      mdata := decide (s.sleepqAcLen - 1 ≠ 0)
      eosp := decide (s.sleepqAcLen - 1 = 0)
      triggered := true }
  exact hr.congr rfl rfl rfl rfl rfl rfl rfl hk rfl

theorem Sound.release (h : s.Sound d t) {fs : List TxFrame} {f : TxFrame}
    (hq : s.sleepQ = f :: fs) :
    { s.release f fs with
      leaked := if s.wmm.delivery f.ac then s.leaked + 1 else s.leaked }.Sound d t := by
  refine h.releaseAs (show s.sleepQ = [] ++ f :: fs from hq) _ ?_
  split_ifs
  · push_cast
    omega
  · omega

theorem Sound.releaseMgmt (h : s.Sound d t) {f : TxFrame} {fs : List TxFrame}
    (hq : s.mgmtSleepQ = f :: fs) : (s.releaseMgmt f fs).Sound d t := by
  have hne : s.mgmtSleepQ ≠ [] := by
    rw [hq]
    simp
  have hs := h.asleep (Or.inr hne)
  unfold PsSta.releaseMgmt halMgmtXmitframeEnqueue
  split <;>
    exact ⟨fun _ => hs, h.joined, h.whole, h.acLen, h.announced,
      fun hj hst _ => h.announcedMgmt hj hst hne⟩

theorem sound_kept : KeptByWakes (Sound d t) where
  mgmt _ _ _ h hq := h.releaseMgmt hq
  triggered s f fs h hq hf := h.releaseAc (show s.sleepQ = [] ++ f :: fs from hq) hf
  other s f fs h hq hf := by
    rw [trigger_eq] at hf
    have hr := h.release hq
    rw [if_neg (Bool.eq_false_iff.mp hf)] at hr
    refine hr.congr rfl rfl rfl rfl rfl rfl rfl ?_ rfl
    exact (releaseAs_keeps s fs _ _).2.2.2.2.2.2.1

theorem aid_kept (a : ℕ) : KeptByWakes (fun s => s.aid = a) where
  mgmt s f fs h _ := by
    unfold PsSta.releaseMgmt PsSta.halMgmtXmitframeEnqueue
    split <;> exact h
  triggered s f fs h _ _ := (releaseAs_keeps s fs _ _).2.2.1.trans h
  other s f fs h _ _ := (releaseAs_keeps s fs _ _).2.2.1.trans h

theorem Sound.pollMgmt (h : s.Sound d t) : s.pollMgmt.Sound d t := by
  unfold PsSta.pollMgmt
  split
  · exact h
  · exact h.releaseMgmt ‹_›

theorem Sound.pollData (h : s.Sound d t) : s.pollData.Sound d t := by
  unfold PsSta.pollData
  split
  · exact h
  · exact h.release ‹_›

theorem Sound.bufferAc (h : s.Sound d t) (hs : s.sleep = true) (hd : d) (ha : s.asoc = true)
    (f : TxFrame) : (s.bufferAc f).Sound d (t ∨ s.announces f = true) := by
  refine ⟨fun _ => ⟨hs, hd, h.joined ha⟩, h.joined, h.whole, fun hst => ?_,
    fun hj hst g hg hag => ?_, fun hj hst hm hl => Or.inl (h.announcedMgmt hj hst hm hl)⟩
  · have hc := h.acLen hst
    unfold PsSta.bufferAc PsSta.buffer
    dsimp only
    rw [List.countP_append, List.countP_singleton]
    push_cast
    split_ifs <;> omega
  · rcases List.mem_append.mp hg with hg | hg
    · exact Or.inl (h.announced hj hst g hg hag)
    · rw [List.mem_singleton] at hg
      subst hg
      exact Or.inr hag

theorem Sound.bufferMgmt (h : s.Sound d t) (hs : s.sleep = true) (hd : d) (ha : s.asoc = true)
    (f : TxFrame) : (s.bufferMgmt f).Sound d True :=
  ⟨fun _ => ⟨hs, hd, h.joined ha⟩, h.joined, h.whole, h.acLen, fun _ _ _ _ _ => trivial,
    fun _ _ _ _ => trivial⟩

end PsSta

theorem Wmm.whole_ofInfo (qos : Option UInt8) (h : (Wmm.ofInfo qos).hasLegacyAc = false) (ac : Ac) :
    (Wmm.ofInfo qos).delivery ac = true := by
  cases qos with
  | none => cases h
  | some q =>
    have hq : q &&& 0x0f = 0x0f := by
      simpa [Wmm.ofInfo] using h
    have hbit : ∀ b : UInt8, b &&& 0x0f = b → q &&& b = b := by
      intro b hb
      have : q &&& b = (q &&& 0x0f) &&& b := by
        rw [UInt8.and_assoc, UInt8.and_comm 0x0f b, hb]
      rw [this, hq, UInt8.and_comm, hb]
    have hac : q &&& Wmm.acBit ac = Wmm.acBit ac := hbit _ (by cases ac <;> decide)
    have hne : Wmm.acBit ac ≠ 0 := by cases ac <;> decide
    unfold Wmm.delivery Wmm.ofInfo uapsdOf
    dsimp only
    rw [hac, hq, if_pos (by simp [hne])]
    rfl

namespace PsSys

variable {σ σ' : PsSys}

def setD (σ : PsSys) (k : ℕ) : Prop := (σ.stas (some k)).aid ∈ σ.dz

def setT (σ : PsSys) (k : ℕ) : Prop := (σ.stas (some k)).aid ∈ σ.tim

structure Sound (σ : PsSys) : Prop where
  sta : ∀ k, (σ.stas (some k)).Sound (σ.setD k) (σ.setT k)
  distinct : ∀ j k, (σ.stas (some j)).aid = (σ.stas (some k)).aid →
    (σ.stas (some j)).aid ≠ 0 → j = k

def Given (σ : PsSys) : PsEvent → Prop
  | .join _ aid _ =>
    aid ≠ 0 ∧ ∀ j, (σ.stas (some j)).aid ≠ aid
  | _ => True

-- every AID but 0 and the station's own keeps its bits
theorem Sound.update (h : σ.Sound) {k : ℕ} {s : PsSta} (dz tim : Finset ℕ)
    (hs : s.Sound (s.aid ∈ dz) (s.aid ∈ tim))
    (haid : ∀ j, (σ.stas (some j)).aid = s.aid → s.aid ≠ 0 → j = k)
    (hd : ∀ a ≠ 0, a ≠ s.aid → a ∈ σ.dz → a ∈ dz)
    (ht : ∀ a ≠ 0, a ≠ s.aid → a ∈ σ.tim → a ∈ tim) :
    Sound { σ.put (some k) s with dz := dz, tim := tim } := by
  refine ⟨fun j => ?_, fun i j hij hi => ?_⟩
  · by_cases hj : j = k
    · subst hj
      unfold setD setT
      dsimp only
      rw [put_same]
      exact hs
    · have hne : some j ≠ some k := fun e => hj (Option.some.inj e)
      unfold setD setT
      dsimp only
      rw [put_other σ s hne]
      have hno : (σ.stas (some j)).aid ≠ 0 → (σ.stas (some j)).aid ≠ s.aid :=
        fun h0 e => hj (haid j e (e ▸ h0))
      exact (h.sta j).mono (fun h0 => hd _ h0 (hno h0)) (fun h0 => ht _ h0 (hno h0))
  · have hat : ∀ i, i ≠ k → (σ.put (some k) s).stas (some i) = σ.stas (some i) :=
      fun i hi => put_other σ s fun e => hi (Option.some.inj e)
    dsimp only at hij hi
    by_cases hik : i = k
    · by_cases hjk : j = k
      · rw [hik, hjk]
      · subst hik
        rw [put_same, hat j hjk] at hij
        rw [put_same] at hi
        exact (haid j hij.symm hi).symm
    · rw [hat i hik] at hij hi
      by_cases hjk : j = k
      · subst hjk
        rw [put_same] at hij
        exact haid i hij (hij ▸ hi)
      · rw [hat j hjk] at hij
        exact h.distinct i j hij hi

theorem Sound.own (h : σ.Sound) (k : ℕ) :
    ∀ j, (σ.stas (some j)).aid = (σ.stas (some k)).aid → (σ.stas (some k)).aid ≠ 0 → j = k :=
  fun j e h0 => h.distinct j k e (e ▸ h0)

theorem Sound.put (h : σ.Sound) {k : ℕ} {s : PsSta} (hs : s.Sound (σ.setD k) (σ.setT k))
    (hi : s.aid = (σ.stas (some k)).aid) : (σ.put (some k) s).Sound := by
  refine h.update σ.dz σ.tim ?_ ?_ (fun _ _ _ hm => hm) (fun _ _ _ hm => hm)
  · rw [hi]
    exact hs
  · rw [hi]
    exact h.own k

theorem Sound.bmc (h : σ.Sound) {s : PsSta} (dz tim : Finset ℕ) (hd : ∀ a ≠ 0, a ∈ σ.dz → a ∈ dz)
    (ht : ∀ a ≠ 0, a ∈ σ.tim → a ∈ tim) :
    Sound { σ.put none s with dz := dz, tim := tim } := by
  have hat : ∀ k, (σ.put none s).stas (some k) = σ.stas (some k) :=
    fun k => put_other σ s (Option.some_ne_none k)
  refine ⟨fun k => ?_, fun i j hij hi => ?_⟩
  · unfold setD setT
    dsimp only
    rw [hat k]
    exact (h.sta k).mono (hd _) (ht _)
  · dsimp only at hij hi
    rw [hat i] at hij hi
    rw [hat j] at hij
    exact h.distinct i j hij hi

theorem Sound.enqueue (h : σ.Sound) {w : StaId} {f : TxFrame}
    (he : σ.xmitframeEnqueueForSleepingSta w f = some σ') : σ'.Sound := by
  cases w with
  | none =>
    obtain ⟨-, rfl⟩ := enqueue_bmc he
    exact h.bmc _ _ (fun _ _ hm => Finset.mem_insert_of_mem hm)
      (fun _ _ hm => Finset.mem_insert_of_mem hm)
  | some k =>
    obtain ⟨hs, hd, ha, rfl⟩ := enqueue_sta he
    have hb := (h.sta k).bufferAc hs hd ha f
    refine h.update σ.dz _ (hb.mono (fun _ hm => hm) fun _ hm => ?_) (h.own k)
      (fun _ _ _ hm => hm) (fun a _ _ hm => ?_)
    · rcases hm with hm | hm
      · split
        · exact Finset.mem_insert_of_mem hm
        · exact hm
      · rw [if_pos hm]
        exact Finset.mem_insert_self _ _
    · split
      · exact Finset.mem_insert_of_mem hm
      · exact hm

theorem Sound.requeue (h : σ.Sound) (w : StaId) (ac : Ac) (q : TxServq) :
    (σ.put w ((σ.stas w).setServq ac q)).Sound := by
  cases w with
  | none => exact h.bmc _ _ (fun _ _ hm => hm) (fun _ _ hm => hm)
  | some k => exact h.put ((h.sta k).congr rfl rfl rfl rfl rfl rfl rfl rfl rfl) rfl

theorem Sound.loop (w : StaId) (ac : Ac) (fs : List TxFrame) : ∀ (σ : PsSys) (kept : List TxFrame),
    σ.Sound → (dequeueXmitframesToSleepingQueue w ac σ kept fs).Sound := by
  induction fs with
  | nil => exact fun σ kept h => h
  | cons f fs ih =>
    intro σ kept h
    unfold dequeueXmitframesToSleepingQueue
    split
    · rename_i σ' he
      refine ih _ _ ?_
      have h1 := (h.enqueue he).requeue w ac { (σ'.stas w).servq ac with staPending := kept ++ fs }
      have h2 := h1.requeue w f.ac
        { (((σ'.stas w).setPending ac (kept ++ fs)).servq f.ac) with
          qcnt := (((σ'.stas w).setPending ac (kept ++ fs)).servq f.ac).qcnt - 1 }
      rw [put_put, put_same] at h2
      exact h2
    · exact ih _ _ (h.requeue w ac _)

theorem Sound.sleepServqs (h : σ.Sound) (w : StaId) : (σ.sleepServqs w).Sound :=
  Sound.loop w .bk _ _ _ (Sound.loop w .be _ _ _ (Sound.loop w .vi _ _ _ (Sound.loop w .vo _ σ [] h)))

theorem Sound.mgmtEnqueue (h : σ.Sound) {k : ℕ} {f : TxFrame}
    (he : σ.mgmtXmitframeEnqueueForSleepingSta (some k) f = some σ') : σ'.Sound := by
  obtain ⟨hs, hd, ha, rfl⟩ := mgmt_enqueue he
  have hb := (h.sta k).bufferMgmt hs hd ha f
  exact h.update σ.dz _
    (hb.mono (fun _ hm => hm) fun _ _ => Finset.mem_insert_self _ _) (h.own k)
    (fun _ _ _ hm => hm) (fun _ _ _ hm => Finset.mem_insert_of_mem hm)

theorem Sound.mgmtLoop (k : ℕ) (fs : List TxFrame) : ∀ (σ : PsSys) (kept : List TxFrame),
    σ.Sound → (dequeueMgmtXmitframeToSleepq (some k) σ kept fs).Sound := by
  induction fs with
  | nil => exact fun σ kept h => h
  | cons f fs ih =>
    intro σ kept h
    unfold dequeueMgmtXmitframeToSleepq
    split
    · rename_i σ' he
      have hm := h.mgmtEnqueue he
      exact ih _ _ (hm.put ((hm.sta k).congr rfl rfl rfl rfl rfl rfl rfl rfl rfl) rfl)
    · exact ih _ _ (h.put ((h.sta k).congr rfl rfl rfl rfl rfl rfl rfl rfl rfl) rfl)

theorem Sound.doze (h : σ.Sound) (k : ℕ) : (σ.doze k).Sound := by
  have hk := h.sta k
  refine h.update _ σ.tim ⟨fun hq => ?_, hk.joined, hk.whole, hk.acLen, hk.announced,
    hk.announcedMgmt⟩ (h.own k) (fun _ _ _ hm => Finset.mem_insert_of_mem hm) (fun _ _ _ hm => hm)
  exact ⟨rfl, Finset.mem_insert_self _ _, (hk.asleep hq).2.2⟩

theorem Sound.stopStaXmit (h : σ.Sound) (k : ℕ) : (σ.stopStaXmit k).Sound :=
  ((Sound.mgmtLoop k _ _ [] (h.doze k)).sleepServqs (some k)).sleepServqs none

theorem Sound.wakeFrames (h : σ.Sound) (k : ℕ) (t : DequeueType) : (σ.wakeFrames k t).Sound :=
  h.put (PsSta.sound_kept.queues (h.sta k) t) ((PsSta.aid_kept _).queues rfl t)

theorem Sound.wakeSta (h : σ.Sound) (hc : σ.Counted) (k : ℕ) : (σ.wakeSta k).Sound := by
  unfold PsSys.wakeSta
  dsimp only
  split
  · rename_i hl
    have hq := (hc (some k)).sleepQ_nil hl.1
    have hm := (hc (some k)).mgmtSleepQ_nil hl.2
    refine h.update _ _ ((h.sta k).drained hq hm false _ _) (h.own k) ?_ ?_
    · exact fun a _ ha hd => Finset.mem_erase.mpr ⟨ha, hd⟩
    · exact fun a _ ha ht => Finset.mem_erase.mpr ⟨ha, ht⟩
  · exact h

theorem Sound.wakeBmc (h : σ.Sound) : σ.wakeBmc.Sound := by
  unfold PsSys.wakeBmc
  split
  · dsimp only
    split
    · exact h.bmc _ _ (fun a ha hm => Finset.mem_erase.mpr ⟨ha, hm⟩)
        (fun a ha hm => Finset.mem_erase.mpr ⟨ha, hm⟩)
    · exact h.bmc _ _ (fun _ _ hm => hm) (fun _ _ hm => hm)
  · exact h

theorem Sound.wakeupStaToXmit (h : σ.Sound) (hc : σ.Counted) (k : ℕ) (t : DequeueType) :
    (σ.wakeupStaToXmit k t).Sound := by
  have hw := (h.wakeFrames k t).wakeSta (hc.wakeFrames k t) k
  unfold PsSys.wakeupStaToXmit
  dsimp only
  split
  · exact hw.wakeBmc
  · exact hw

-- a trigger ends the announcement only when every access category is delivery enabled, and then
-- the zero count says that no frame is left
theorem Sound.delivered (h : σ.Sound) {k : ℕ} {kept fs : List TxFrame} {f : TxFrame}
    (hq : (σ.stas (some k)).sleepQ = kept ++ f :: fs)
    (hf : (σ.stas (some k)).wmm.trigger f.ac = true) :
    (σ.delivered k ((σ.stas (some k)).releaseAc f (kept ++ fs))).Sound := by
  have hk := h.sta k
  have hr := hk.releaseAc hq hf
  have hi : ((σ.stas (some k)).releaseAc f (kept ++ fs)).aid = (σ.stas (some k)).aid :=
    (PsSta.releaseAs_keeps (σ.stas (some k)) _ _ _).2.2.1
  have hw := releaseAc_wmm (σ.stas (some k)) f (kept ++ fs)
  unfold PsSys.delivered
  split
  · rename_i hz
    have ha0 : (σ.stas (some k)).aid ≠ 0 := (hk.asleep (Or.inl (by rw [hq]; simp))).2.2
    have hall := hr.whole (hi.symm ▸ ha0) (hw.symm ▸ hz.2)
    have hnil : ((σ.stas (some k)).releaseAc f (kept ++ fs)).stale = false →
        ((σ.stas (some k)).releaseAc f (kept ++ fs)).sleepQ = [] := by
      intro hst
      have hcount := hr.acLen hst
      rw [hz.1] at hcount
      refine List.eq_nil_iff_forall_not_mem.mpr fun g hg => ?_
      have hpos := (List.countP_pos_iff (p := fun e : TxFrame =>
        ((σ.stas (some k)).releaseAc f (kept ++ fs)).wmm.delivery e.ac)).mpr ⟨g, hg, hall g.ac⟩
      omega
    refine h.update σ.dz _ ?_ ?_ (fun _ _ _ hm => hm)
      (fun a _ ha hm => Finset.mem_erase.mpr ⟨hi ▸ ha, hm⟩)
    · rw [hi]
      exact hr.silent (fun hst => ⟨hnil hst, hw.symm ▸ hz.2⟩) _
    · rw [hi]
      exact h.own k
  · exact h.put hr hi

theorem Sound.deliver (h : σ.Sound) (k : ℕ) : (σ.xmitDeliveryEnabledFrames k).Sound :=
  deliver_rule (fun _ _ _ _ h hq _ hf => h.delivered hq hf) _ σ [] h rfl nofun

theorem Sound.processPwrbitData (h : σ.Sound) (hc : σ.Counted) (k : ℕ) (pwrbit : Bool) :
    (σ.processPwrbitData k pwrbit).Sound := by
  unfold PsSys.processPwrbitData
  split
  · split
    · exact h
    · exact h.stopStaXmit k
  · split
    · exact h.wakeupStaToXmit hc k .allFrame
    · exact h

theorem Sound.processWmmpsData (h : σ.Sound) (k up : ℕ) : (σ.processWmmpsData k up).Sound := by
  unfold PsSys.processWmmpsData
  dsimp only
  split
  · exact h
  · split
    · split
      · exact h.deliver k
      · exact h
    · exact h

theorem pollMgmt_aid (s : PsSta) : s.pollMgmt.aid = s.aid := by
  unfold PsSta.pollMgmt PsSta.releaseMgmt PsSta.halMgmtXmitframeEnqueue
  split
  · rfl
  · split <;> rfl

theorem pollData_aid (s : PsSta) : s.pollData.aid = s.aid := by
  unfold PsSta.pollData
  split
  · rfl
  · exact (PsSta.releaseAs_keeps s ..).2.2.1

theorem pollRepair_same (s : PsSta) (found : Bool) (tim : Finset ℕ) :
    (s.pollRepair found tim).aid = s.aid ∧ (s.pollRepair found tim).sleepQ = s.sleepQ ∧
      (s.pollRepair found tim).mgmtSleepQ = s.mgmtSleepQ ∧
      ∀ d t, s.Sound d t → (s.pollRepair found tim).Sound d t := by
  unfold PsSta.pollRepair
  split
  · exact ⟨rfl, rfl, rfl, fun _ _ h => h.congr rfl rfl rfl rfl rfl rfl rfl rfl rfl⟩
  · exact ⟨rfl, rfl, rfl, fun _ _ h => h⟩

theorem Sound.psPoll (h : σ.Sound) (hc : σ.Counted) (k up : ℕ) : (σ.psPoll k up).Sound := by
  have hc' := hc.psPoll k up (some k)
  unfold PsSys.psPoll at hc' ⊢
  dsimp only at hc' ⊢
  split
  · exact h
  · rename_i hd
    rw [if_neg hd] at hc'
    split
    · rename_i hs
      rw [if_pos hs] at hc'
      change ((σ.put _ _).stas _).Counted [] at hc'
      rw [put_same] at hc'
      obtain ⟨hi, -, -, hS⟩ := pollRepair_same ((σ.stas (some k)).pollMgmt.pollData)
        (!(σ.stas (some k)).mgmtSleepQ.isEmpty || !(σ.stas (some k)).sleepQ.isEmpty) σ.tim
      have hp := hS _ _ ((h.sta k).pollMgmt.pollData)
      rw [pollData_aid, pollMgmt_aid] at hi
      split
      · rename_i hl
        refine h.update σ.dz _
          (hp.drained (hc'.sleepQ_nil hl.1) (hc'.mgmtSleepQ_nil hl.2) _ _ _) ?_
          (fun _ _ _ hm => hm) (fun a _ ha hm => Finset.mem_erase.mpr ⟨hi ▸ ha, hm⟩)
        rw [hi]
        exact h.own k
      · exact h.put hp hi
    · exact h

theorem Sound.preXmitframe (h : σ.Sound) (w : StaId) (free : Bool) (f : TxFrame) :
    (σ.preXmitframe w free f).Sound := by
  unfold PsSys.preXmitframe
  dsimp only
  cases w with
  | none =>
    split
    · exact h.bmc _ _ (fun _ _ hm => hm) (fun _ _ hm => hm)
    · exact h.bmc _ _ (fun _ _ hm => hm) (fun _ _ hm => hm)
  | some k =>
    have hk := h.sta k
    split
    · unfold PsSta.halXmitframeEnqueue PsSta.rtwXmitClassifier
      split <;> exact h.put (hk.congr rfl rfl rfl rfl rfl rfl rfl rfl rfl) rfl
    · exact h.put (hk.congr rfl rfl rfl rfl rfl rfl rfl rfl rfl) rfl

theorem Sound.rtwXmitPosthandle (h : σ.Sound) (w : StaId) (free : Bool) (p : Pkt) :
    (σ.rtwXmitPosthandle w free p).Sound := by
  have hs : (σ.put w { σ.stas w with sent := (σ.stas w).sent ++ [p] }).Sound := by
    cases w with
    | none => exact h.bmc _ _ (fun _ _ hm => hm) (fun _ _ hm => hm)
    | some k => exact h.put ((h.sta k).congr rfl rfl rfl rfl rfl rfl rfl rfl rfl) rfl
  unfold PsSys.rtwXmitPosthandle
  split
  · dsimp only
    cases he : (σ.put w { σ.stas w with
        sent := (σ.stas w).sent ++ [p] }).xmitframeEnqueueForSleepingSta w p.frame with
    | none => exact hs.preXmitframe w free _
    | some σ' => exact hs.enqueue he
  · exact h

theorem Sound.join (h : σ.Sound) {k aid : ℕ} {qos : Option UInt8} (hg : σ.Given (.join k aid qos)) :
    (σ.join k aid qos).Sound := by
  obtain ⟨h0, hfresh⟩ := hg
  have hk := h.sta k
  have hne : (if (σ.stas (some k)).aid = 0 then aid else (σ.stas (some k)).aid) ≠ 0 := by
    split <;> assumption
  have hst : ((σ.stas (some k)).stale || !(σ.stas (some k)).sleepQ.isEmpty ||
      !(σ.stas (some k)).mgmtSleepQ.isEmpty) = false →
      (σ.stas (some k)).stale = false ∧ (σ.stas (some k)).sleepQ = [] ∧
        (σ.stas (some k)).mgmtSleepQ = [] := by
    intro hs
    simpa [and_assoc] using hs
  refine h.update σ.dz σ.tim
    ⟨fun hq => ?_, fun _ => hne, fun _ => Wmm.whole_ofInfo qos, fun hs => ?_, fun _ hs f hf => ?_,
      fun _ hs hm => (hm (hst hs).2.2).elim⟩ ?_ (fun _ _ _ hd => hd) (fun _ _ _ ht => ht)
  · obtain ⟨h1, h2, h3⟩ := hk.asleep hq
    refine ⟨h1, ?_, hne⟩
    dsimp only
    rw [if_neg h3]
    exact h2
  · have hl := hk.acLen (hst hs).1
    rw [(hst hs).2.1] at hl
    dsimp only
    rw [(hst hs).2.1]
    exact hl
  · change f ∈ (σ.stas (some k)).sleepQ at hf
    rw [(hst hs).2.1] at hf
    exact (List.not_mem_nil hf).elim
  · intro j hj _
    dsimp only at hj
    split at hj
    · exact (hfresh j hj).elim
    · rename_i hk0
      exact h.distinct j k hj (hj ▸ hk0)

theorem Sound.rtwFreeStainfo (h : σ.Sound) (k : ℕ) : (σ.rtwFreeStainfo k).Sound := by
  have hat : ∀ j, j ≠ k → ((σ.rtwFreeStainfo k).stas (some j)) = σ.stas (some j) :=
    fun j hj => put_other σ _ fun e => hj (Option.some.inj e)
  have hself : (σ.rtwFreeStainfo k).stas (some k) = PsSta.fresh (σ.stas (some k)).sent
      (σ.stas (some k)).given ((σ.stas (some k)).lost ++ (σ.stas (some k)).held) := put_same ..
  refine ⟨fun j => ?_, fun i j hij hi => ?_⟩
  · by_cases hj : j = k
    · subst hj
      rw [hself]
      exact .fresh ..
    · unfold setD setT
      rw [hat j hj]
      have hno : (σ.stas (some j)).aid ≠ 0 → (σ.stas (some j)).aid ≠ (σ.stas (some k)).aid :=
        fun h0 e => hj (h.distinct j k e h0)
      exact (h.sta j).mono (fun h0 hd => Finset.mem_erase.mpr ⟨hno h0, hd⟩)
        (fun h0 ht => Finset.mem_erase.mpr ⟨hno h0, ht⟩)
  · by_cases hik : i = k
    · subst hik
      rw [hself] at hi
      exact (hi rfl).elim
    · rw [hat i hik] at hij hi
      by_cases hjk : j = k
      · subst hjk
        rw [hself] at hij
        exact (hi hij).elim
      · rw [hat j hjk] at hij
        exact h.distinct i j hij hi

theorem Sound.step (h : σ.Sound) (hc : σ.Counted) (e : PsEvent) (hg : σ.Given e) :
    (σ.step e).Sound := by
  cases e with
  | join k aid qos => exact h.join hg
  | disassoc k =>
    have hk := h.sta k
    exact h.update σ.dz _ ⟨hk.asleep, nofun, hk.whole, hk.acLen, nofun, nofun⟩ (h.own k)
      (fun _ _ _ hd => hd) (fun _ _ ha ht => Finset.mem_erase.mpr ⟨ha, ht⟩)
  | free k => exact h.rtwFreeStainfo k
  | xmit w free p => exact h.rtwXmitPosthandle w free p
  | mgnt k psDontq p =>
    unfold PsSys.step PsSys.rtwHalMgntXmit
    dsimp only
    split
    · exact h
    · cases he : σ.mgmtXmitframeEnqueueForSleepingSta (some k) p.frame with
      | none => exact h
      | some σ' => exact h.mgmtEnqueue he
  | pwrbit k on => exact h.processPwrbitData hc k on
  | wakeup k t => exact h.wakeupStaToXmit hc k t
  | psPoll k up => exact h.psPoll hc k up
  | trigger k up => exact h.processWmmpsData k up
  | dequeue w ac =>
    unfold PsSys.step PsSys.rtwDequeueXframe
    dsimp only
    split
    · exact h
    · cases w with
      | none => exact h.bmc _ _ (fun _ _ hm => hm) (fun _ _ hm => hm)
      | some k => exact h.put ((h.sta k).congr rfl rfl rfl rfl rfl rfl rfl rfl rfl) rfl
  | dequeueMgmt w =>
    unfold PsSys.step PsSys.rtwDequeueMgmtXframe
    dsimp only
    split
    · exact h
    · cases w with
      | none => exact h.bmc _ _ (fun _ _ hm => hm) (fun _ _ hm => hm)
      | some k => exact h.put ((h.sta k).congr rfl rfl rfl rfl rfl rfl rfl rfl rfl) rfl
  | chkBmcSleepq =>
    unfold PsSys.step PsSys.chkBmcSleepqHdl
    dsimp only
    split
    · exact h.bmc _ _ (fun _ _ hm => hm) (fun _ _ hm => hm)
    · exact h
  | chkHiQueue empty =>
    unfold PsSys.step PsSys.rtwChkHiQueueHdl
    dsimp only
    split
    · have hb := h.bmc (s := σ.stas none) (σ.dz.erase 0) (σ.tim.erase 0)
        (fun a ha hm => Finset.mem_erase.mpr ⟨ha, hm⟩) (fun a ha hm => Finset.mem_erase.mpr ⟨ha, hm⟩)
      unfold PsSys.put at hb
      rw [Function.update_eq_self] at hb
      exact hb
    · exact h

theorem sound_init : init.Sound := by
  exact ⟨fun k => .fresh [] [] [] _ _, fun i j _ hi => (hi rfl).elim⟩

theorem sound_run {es : List PsEvent} (hes : Run.Each step Given init es) :
    (Run.exec step init es).Sound :=
  (Run.each_invariant step Given (fun σ => σ.Counted ∧ σ.Sound)
    (fun _ e h hg => ⟨h.1.step e, h.2.step h.1 e hg⟩) ⟨counted_init, sound_init⟩ hes).2

theorem buffered_announced {es : List PsEvent} (hes : Run.Each step Given init es) (k : ℕ) :
    let σ := Run.exec step init es
    let s := σ.stas (some k)
    (s.sleepQ ≠ [] ∨ s.mgmtSleepQ ≠ [] → s.sleep = true ∧ s.aid ∈ σ.dz ∧ s.aid ≠ 0) ∧
      (s.stale = false →
        s.sleepqAcLen = s.sleepQ.countP (fun f => s.wmm.delivery f.ac) + s.leaked) ∧
      (s.asoc = true → s.stale = false →
        (∀ f ∈ s.sleepQ, s.announces f = true → s.aid ∈ σ.tim) ∧
        (s.mgmtSleepQ ≠ [] → s.wmm.hasLegacyAc = true → s.aid ∈ σ.tim)) := by
  have h := (sound_run hes).sta k
  exact ⟨h.asleep, h.acLen, fun hj hst => ⟨h.announced hj hst, h.announcedMgmt hj hst⟩⟩

-- a station without WMM is sent two frames while it dozes and polls for one of them, and another
-- leaves with its only frame buffered
def dozingRun : List PsEvent :=
  [.join 1 5 none, .join 2 6 none, .pwrbit 1 true, .pwrbit 2 true, .xmit (some 1) true ⟨0, 6⟩,
    .xmit (some 1) true ⟨1, 6⟩, .xmit (some 2) true ⟨2, 6⟩, .disassoc 2, .psPoll 1 0]

theorem dozingRun_given : Run.Each step Given init dozingRun := by
  have hsecond : ∀ j, (((init.step (.join 1 5 none)).stas (some j)).aid : ℕ) ≠ 6 := by
    intro j
    by_cases hj : j = 1
    · subst hj
      decide
    · have hat : (init.step (.join 1 5 none)).stas (some j) = init.stas (some j) :=
        put_other init _ fun e => hj (Option.some.inj e)
      rw [hat]
      exact (by decide : (0 : ℕ) ≠ 6)
  exact ⟨⟨by decide, fun _ => (by decide : (0 : ℕ) ≠ 5)⟩, ⟨by decide, hsecond⟩, trivial, trivial,
    trivial, trivial, trivial, trivial, trivial, trivial⟩

theorem buffered_announced_dozing :
    5 ∈ (Run.exec step init dozingRun).tim ∧ 6 ∉ (Run.exec step init dozingRun).tim := by
  have h := (buffered_announced dozingRun_given 1).2.2 rfl rfl
  exact ⟨h.1 (Pkt.frame ⟨1, 6⟩) (by decide) rfl, by decide⟩

end PsSys

end Ap.Ps
