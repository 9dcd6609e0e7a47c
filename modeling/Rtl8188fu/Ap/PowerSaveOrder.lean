import Rtl8188fu.Ap.PowerSaveTim

namespace Ap.Ps

def ofAc (ac : Ac) (l : List Pkt) : List Pkt := l.filter fun p => p.ac = ac

@[simp] theorem ofAc_nil (ac : Ac) : ofAc ac [] = [] := rfl

@[simp] theorem ofAc_append (ac : Ac) (l r : List Pkt) : ofAc ac (l ++ r) = ofAc ac l ++ ofAc ac r :=
  List.filter_append ..

theorem ofAc_cons_same {ac : Ac} {p : Pkt} (h : p.ac = ac) (l : List Pkt) :
    ofAc ac (p :: l) = p :: ofAc ac l := by
  simp [ofAc, h]

theorem ofAc_cons_other {ac : Ac} {p : Pkt} (h : p.ac ≠ ac) (l : List Pkt) :
    ofAc ac (p :: l) = ofAc ac l := by
  simp [ofAc, h]

theorem ofAc_kept {ac : Ac} {kept : List TxFrame} (h : ∀ g ∈ kept, g.ac ≠ ac) :
    ofAc ac (pkts kept) = [] := by
  refine List.filter_eq_nil_iff.mpr fun p hp => ?_
  obtain ⟨g, hg, rfl⟩ := List.mem_map.mp hp
  rw [decide_eq_true_eq]
  exact h g hg

namespace PsSta

-- the frames of one access category in the order the station is to get them
def line (s : PsSta) (ac : Ac) : List Pkt :=
  ofAc ac s.given ++ pkts (s.servq ac).staPending ++ ofAc ac (pkts s.sleepQ)

def Ordered (s : PsSta) : Prop := ∀ ac, (s.line ac).Sublist (ofAc ac s.sent)

variable {s : PsSta}

theorem Counted.count_pending (h : s.Counted []) {b : Ac} {p : Pkt} (hb : p.ac ≠ b) :
    (pkts (s.servq b).staPending).count p = 0 := by
  refine List.count_eq_zero.mpr fun hp => ?_
  obtain ⟨f, hf, rfl⟩ := List.mem_map.mp hp
  exact hb (h.placed b f hf)

-- with no frame lost, what the station was sent is in one of the three places
theorem Counted.line_perm (h : s.Counted []) (hl : s.lost = []) (ac : Ac) :
    (s.line ac).Perm (ofAc ac s.sent) := by
  refine List.perm_iff_count.mpr fun p => ?_
  unfold line
  rw [List.count_append, List.count_append]
  by_cases hp : p.ac = ac
  · subst hp
    have hc := h.conserved p
    rw [hl, count_held] at hc
    have hz : ∀ b, p.ac ≠ b → (pkts (s.servq b).staPending).count p = 0 :=
      fun b => h.count_pending
    unfold ofAc
    rw [List.count_filter (by simp), List.count_filter (by simp), List.count_filter (by simp)]
    cases hac : p.ac <;> rw [hac] at hz <;> simp only [List.count_nil] at hc
    · have := hz .vi (by decide)
      have := hz .be (by decide)
      have := hz .bk (by decide)
      omega
    · have := hz .vo (by decide)
      have := hz .be (by decide)
      have := hz .bk (by decide)
      omega
    · have := hz .vo (by decide)
      have := hz .vi (by decide)
      have := hz .bk (by decide)
      omega
    · have := hz .vo (by decide)
      have := hz .vi (by decide)
      have := hz .be (by decide)
      omega
  · have hn : ∀ l : List Pkt, (ofAc ac l).count p = 0 := by
      intro l
      refine List.count_eq_zero.mpr fun hm => hp ?_
      simpa [ofAc] using (List.mem_filter.mp hm).2
    rw [hn, hn, hn, h.count_pending hp]

theorem Ordered.congr (h : s.Ordered) {t : PsSta} (hsent : t.sent = s.sent)
    (hline : ∀ ac, t.line ac = s.line ac) : t.Ordered := by
  intro ac
  rw [hline, hsent]
  exact h ac

theorem Ordered.send (h : s.Ordered) {t : PsSta} {p : Pkt} (hsent : t.sent = s.sent ++ [p])
    (hline : ∀ ac, t.line ac = s.line ac ++ ofAc ac [p]) : t.Ordered := by
  intro ac
  rw [hline, hsent, ofAc_append]
  exact (h ac).append_right _

-- straight to the hardware, to its access category's queue or to the sleep queue
theorem Ordered.sendDirect (h : s.Ordered) (hq : s.sleepQ = []) {p : Pkt}
    (hp : (s.servq p.ac).staPending = []) :
    { s with sent := s.sent ++ [p], given := s.given ++ [p] }.Ordered := by
  refine h.send rfl fun b => ?_
  unfold line
  rw [ofAc_append, hq, pkts_nil, ofAc_nil, List.append_nil, List.append_nil]
  by_cases hb : p.ac = b
  · subst hb
    rw [hp, pkts_nil, List.append_nil, List.append_nil]
  · rw [ofAc_cons_other hb, ofAc_nil, List.append_nil, List.append_nil]

theorem Ordered.sendQueue (h : s.Ordered) (hq : s.sleepQ = []) (ha : s.asoc = true) (p : Pkt) :
    ({ s with sent := s.sent ++ [p] }.halXmitframeEnqueue p.frame).Ordered := by
  unfold halXmitframeEnqueue rtwXmitClassifier
  rw [if_pos ha, Option.getD_some]
  refine h.send rfl fun b => ?_
  unfold line
  change ofAc b s.given ++ _ ++ ofAc b (pkts s.sleepQ) = _
  rw [hq, pkts_nil, ofAc_nil, List.append_nil, List.append_nil]
  by_cases hb : b = p.frame.ac
  · subst hb
    rw [setServq_same, pkts_append, ← List.append_assoc,
      ofAc_cons_same (show p.ac = p.frame.ac from rfl)]
    rfl
  · rw [setServq_other _ _ hb, ofAc_cons_other fun e : p.ac = b => hb e.symm, ofAc_nil,
      List.append_nil]

theorem Ordered.sendBuffer (h : s.Ordered) (p : Pkt) :
    ({ s with sent := s.sent ++ [p] }.bufferAc p.frame).Ordered := by
  refine h.send rfl fun b => ?_
  unfold line
  change ofAc b s.given ++ pkts (s.servq b).staPending ++ ofAc b (pkts (s.sleepQ ++ [p.frame])) = _
  rw [pkts_append, ofAc_append, ← List.append_assoc]
  rfl

theorem Ordered.releaseAs (h : s.Ordered) {kept fs : List TxFrame} {f g : TxFrame}
    (hq : s.sleepQ = kept ++ f :: fs) (hg : g.pkt = f.pkt) (hkept : ∀ e ∈ kept, e.ac ≠ f.ac) (n : ℤ) :
    (s.releaseAs (kept ++ fs) n g).Ordered := by
  have hac : g.ac = f.ac := congrArg Pkt.ac hg
  unfold PsSta.releaseAs halXmitframeEnqueue rtwXmitClassifier
  split
  · refine h.congr rfl fun b => ?_
    unfold line
    rw [Option.getD_some, hq]
    by_cases hb : b = g.ac
    · subst hb
      rw [setServq_same]
      change ofAc g.ac s.given ++ _ ++ ofAc g.ac (pkts (kept ++ fs)) = _
      rw [pkts_append, pkts_append, pkts_append, pkts_cons, pkts_cons, pkts_nil, ofAc_append,
        ofAc_append, ofAc_kept (hac ▸ hkept), ofAc_cons_same (by rw [← hg]; rfl), hg]
      simp only [List.append_assoc, List.nil_append, List.cons_append]
    · rw [setServq_other _ _ hb]
      change ofAc b s.given ++ _ ++ ofAc b (pkts (kept ++ fs)) = _
      rw [pkts_append, pkts_append, pkts_cons, ofAc_append, ofAc_append,
        ofAc_cons_other fun e => hb (e.symm.trans hac.symm)]
  · intro b
    refine List.Sublist.trans ?_ (h b)
    change (ofAc b s.given ++ pkts (s.servq b).staPending ++ ofAc b (pkts (kept ++ fs))).Sublist
      (ofAc b s.given ++ pkts (s.servq b).staPending ++ ofAc b (pkts s.sleepQ))
    rw [hq]
    refine (List.Sublist.filter _ (List.Sublist.map _ ?_)).append_left _
    exact (List.sublist_cons_self f fs).append_left kept

theorem Ordered.releaseMgmt (h : s.Ordered) (f : TxFrame) (rest : List TxFrame) :
    (s.releaseMgmt f rest).Ordered := by
  unfold PsSta.releaseMgmt halMgmtXmitframeEnqueue
  split <;> exact h

theorem Ordered.release (h : s.Ordered) {f : TxFrame} {fs : List TxFrame}
    (hq : s.sleepQ = f :: fs) : (s.release f fs).Ordered := by
  unfold PsSta.release
  refine h.releaseAs (show s.sleepQ = [] ++ f :: fs from hq) ?_
    (fun _ he => (List.not_mem_nil he).elim) _
  rfl

theorem Ordered.releaseAc (h : s.Ordered) {kept fs : List TxFrame} {f : TxFrame}
    (hq : s.sleepQ = kept ++ f :: fs) (hkept : ∀ e ∈ kept, e.ac ≠ f.ac) :
    (s.releaseAc f (kept ++ fs)).Ordered := by
  unfold PsSta.releaseAc
  refine h.releaseAs hq ?_ hkept _
  rfl

theorem ordered_kept : KeptByWakes Ordered where
  mgmt _ f fs h _ := h.releaseMgmt f fs
  triggered s f fs h hq _ :=
    h.releaseAc (show s.sleepQ = [] ++ f :: fs from hq) fun _ he => (List.not_mem_nil he).elim
  other _ _ _ h hq _ := h.release hq

theorem Ordered.pollMgmt (h : s.Ordered) : s.pollMgmt.Ordered := by
  unfold PsSta.pollMgmt
  split
  · exact h
  · exact h.releaseMgmt _ _

theorem Ordered.pollData (h : s.Ordered) : s.pollData.Ordered := by
  unfold PsSta.pollData
  split
  · exact h
  · rename_i f fs hq
    have hr : (s.release f fs).Ordered := h.release hq
    exact hr

theorem Ordered.pollRepair (h : s.Ordered) (found : Bool) (tim : Finset ℕ) :
    (s.pollRepair found tim).Ordered := by
  unfold PsSta.pollRepair
  split <;> exact h

theorem Ordered.fresh (h : s.Ordered) (lost : List Pkt) :
    (PsSta.fresh s.sent s.given lost).Ordered := by
  intro ac
  refine List.Sublist.trans ?_ (h ac)
  change (ofAc ac s.given ++ [] ++ []).Sublist
    (ofAc ac s.given ++ pkts (s.servq ac).staPending ++ ofAc ac (pkts s.sleepQ))
  rw [List.append_nil, List.append_nil, List.append_assoc]
  exact List.sublist_append_left _ _

end PsSta

namespace PsSys

variable {σ σ' : PsSys}

def Ordered (σ : PsSys) : Prop := ∀ k, (σ.stas (some k)).Ordered

theorem Ordered.put (h : σ.Ordered) {k : ℕ} {s : PsSta} (hs : s.Ordered) :
    (σ.put (some k) s).Ordered := by
  intro j
  by_cases hj : j = k
  · subst hj
    rw [put_same]
    exact hs
  · rw [put_other σ s fun e => hj (Option.some.inj e)]
    exact h j

theorem Ordered.stas (h : σ.Ordered) (hs : ∀ k, σ'.stas (some k) = σ.stas (some k)) :
    σ'.Ordered := by
  intro k
  rw [hs k]
  exact h k

theorem enqueue_other {w v : StaId} {f : TxFrame}
    (he : σ.xmitframeEnqueueForSleepingSta w f = some σ') (hv : v ≠ w) :
    σ'.stas v = σ.stas v := by
  rcases enqueue_stas he with hs | hs
  · rw [hs, put_other _ _ hv]
  · rw [hs, put_other _ _ hv]

theorem loop_other (w v : StaId) (hv : v ≠ w) (ac : Ac) (fs : List TxFrame) :
    ∀ (σ : PsSys) (kept : List TxFrame),
    (dequeueXmitframesToSleepingQueue w ac σ kept fs).stas v = σ.stas v := by
  induction fs with
  | nil => exact fun σ kept => rfl
  | cons f fs ih =>
    intro σ kept
    unfold dequeueXmitframesToSleepingQueue
    split
    · rename_i σ' he
      rw [ih, put_other _ _ hv, enqueue_other he hv]
    · rw [ih, put_other _ _ hv]

theorem sleepServqs_other {w v : StaId} (hv : v ≠ w) (σ : PsSys) :
    (σ.sleepServqs w).stas v = σ.stas v := by
  unfold sleepServqs sleepServq
  rw [loop_other w v hv, loop_other w v hv, loop_other w v hv, loop_other w v hv]

-- a station that dozes with its bit set, or one no frame is buffered for
structure Ready (σ : PsSys) (k : ℕ) (s : PsSta) : Prop where
  awaits : s.asoc = true → s.sleep = true ∧ s.aid ∈ σ.dz
  idle : s.asoc = false → s.sleepQ = []

-- what moving one queue behind the sleep queue leaves of the station
structure Moved (k : ℕ) (ac : Ac) (line : List Pkt) (s : PsSta) (τ : PsSys) : Prop where
  ready : τ.Ready k (τ.stas (some k))
  sent : (τ.stas (some k)).sent = s.sent
  own : (τ.stas (some k)).line ac = line
  other : ∀ b ≠ ac, (τ.stas (some k)).line b = s.line b ∧
    ofAc b (pkts (τ.stas (some k)).sleepQ) = ofAc b (pkts s.sleepQ)

theorem line_uncount (s : PsSta) (ac b : Ac) : (s.uncount ac).line b = s.line b := by
  unfold PsSta.line
  rw [PsSta.pending_uncount]
  rfl

theorem setPending_other (s : PsSta) {ac b : Ac} (l : List TxFrame) (hb : b ≠ ac) :
    (s.setPending ac l).line b = s.line b := by
  unfold PsSta.line PsSta.setPending
  rw [PsSta.setServq_other s _ hb]
  rfl

theorem moved_loop (k : ℕ) (ac : Ac) (fs : List TxFrame) : ∀ (σ : PsSys) (kept : List TxFrame),
    σ.Ready k (σ.stas (some k)) → ((σ.stas (some k)).servq ac).staPending = kept ++ fs →
    (∀ f ∈ fs, f.ac = ac) →
    Moved k ac
      (ofAc ac (σ.stas (some k)).given ++ pkts kept ++ ofAc ac (pkts (σ.stas (some k)).sleepQ) ++
        pkts fs)
      (σ.stas (some k)) (dequeueXmitframesToSleepingQueue (some k) ac σ kept fs) := by
  induction fs with
  | nil =>
    intro σ kept hr hq _
    refine ⟨hr, rfl, ?_, fun b _ => ⟨rfl, rfl⟩⟩
    unfold dequeueXmitframesToSleepingQueue PsSta.line
    rw [hq, pkts_nil, List.append_nil, List.append_nil]
  | cons f fs ih =>
    intro σ kept hr hq hfs
    have hf : f.ac = ac := hfs f List.mem_cons_self
    have hfs' : ∀ g ∈ fs, g.ac = ac := fun g hg => hfs g (List.mem_cons_of_mem f hg)
    unfold dequeueXmitframesToSleepingQueue
    split
    · rename_i σ' he
      obtain ⟨hs, hd, ha, rfl⟩ := enqueue_sta he
      dsimp only
      rw [put_same]
      set u := (((σ.stas (some k)).bufferAc { f with triggered := false }).setPending ac
        (kept ++ fs)).uncount f.ac with hu
      have hline : ∀ b ≠ ac, u.line b = (σ.stas (some k)).line b ∧
          ofAc b (pkts u.sleepQ) = ofAc b (pkts (σ.stas (some k)).sleepQ) := by
        intro b hb
        have hsl : ofAc b (pkts ((σ.stas (some k)).sleepQ ++ [{ f with triggered := false }])) =
            ofAc b (pkts (σ.stas (some k)).sleepQ) := by
          rw [pkts_append, ofAc_append, pkts_cons,
            ofAc_cons_other fun e => hb (e.symm.trans hf), pkts_nil, ofAc_nil, List.append_nil]
        refine ⟨?_, hsl⟩
        rw [hu, line_uncount, setPending_other _ _ hb]
        change _ ++ ofAc b (pkts ((σ.stas (some k)).sleepQ ++ _)) = _
        rw [hsl]
        rfl
      have hm := ih (put { σ.put (some k) ((σ.stas (some k)).bufferAc { f with triggered := false }) with
          tim := if (σ.stas (some k)).announces { f with triggered := false } = true then
            insert (σ.stas (some k)).aid σ.tim else σ.tim } (some k) u) kept
        (by
          rw [put_same]
          exact ⟨fun _ => ⟨hs, hd⟩, fun hn => by
            change (σ.stas (some k)).asoc = false at hn
            rw [ha] at hn
            cases hn⟩)
        (by rw [put_same, hu, PsSta.pending_uncount, PsSta.setPending_same]) hfs'
      rw [put_same] at hm
      refine ⟨hm.ready, hm.sent, ?_, fun b hb => ?_⟩
      · rw [hm.own]
        change ofAc ac (σ.stas (some k)).given ++ pkts kept ++
          ofAc ac (pkts ((σ.stas (some k)).sleepQ ++ [{ f with triggered := false }])) ++ pkts fs = _
        rw [pkts_append, ofAc_append, pkts_cons, pkts_cons, ofAc_cons_same hf]
        simp only [pkts_nil, ofAc_nil, List.append_assoc, List.cons_append, List.nil_append]
      · obtain ⟨h1, h2⟩ := hm.other b hb
        exact ⟨h1.trans (hline b hb).1, h2.trans (hline b hb).2⟩
    · rename_i he
      have ha : (σ.stas (some k)).asoc = false := by
        by_contra hne
        rw [Bool.not_eq_false] at hne
        obtain ⟨hs, hd⟩ := hr.awaits hne
        unfold xmitframeEnqueueForSleepingSta at he
        rw [hne, hs, decide_eq_true hd] at he
        cases he
      have hnil := hr.idle ha
      dsimp only
      have hm := ih (σ.put (some k) ((σ.stas (some k)).setPending ac
          (kept ++ [{ f with triggered := false }] ++ fs))) (kept ++ [{ f with triggered := false }])
        (by
          rw [put_same]
          exact ⟨hr.awaits, hr.idle⟩)
        (by rw [put_same, PsSta.setPending_same]) hfs'
      rw [put_same] at hm
      refine ⟨hm.ready, hm.sent, ?_, fun b hb => ?_⟩
      · rw [hm.own]
        change ofAc ac (σ.stas (some k)).given ++ pkts (kept ++ [{ f with triggered := false }]) ++
          ofAc ac (pkts (σ.stas (some k)).sleepQ) ++ pkts fs = _
        rw [hnil, pkts_append, pkts_cons, pkts_cons]
        simp only [pkts_nil, ofAc_nil, List.append_assoc, List.cons_append, List.nil_append]
      · obtain ⟨h1, h2⟩ := hm.other b hb
        exact ⟨h1.trans (setPending_other _ _ hb), h2⟩

theorem Moved.line {k : ℕ} {ac : Ac} {s : PsSta} {τ : PsSys} (h : Moved k ac (s.line ac) s τ)
    (b : Ac) : (τ.stas (some k)).line b = s.line b := by
  by_cases hb : b = ac
  · subst hb
    exact h.own
  · exact (h.other b hb).1

theorem moved_sleepServq (hc : σ.Counted) {k : ℕ} (hr : σ.Ready k (σ.stas (some k))) {ac : Ac}
    (hnil : ofAc ac (pkts (σ.stas (some k)).sleepQ) = []) :
    Moved k ac ((σ.stas (some k)).line ac) (σ.stas (some k)) (σ.sleepServq (some k) ac) := by
  have hm := moved_loop k ac _ σ [] hr rfl ((hc (some k)).placed ac)
  have hline : (σ.stas (some k)).line ac = ofAc ac (σ.stas (some k)).given ++ pkts [] ++
      ofAc ac (pkts (σ.stas (some k)).sleepQ) ++ pkts ((σ.stas (some k)).servq ac).staPending := by
    unfold PsSta.line
    rw [hnil, pkts_nil, List.append_nil, List.append_nil, List.append_nil]
  rw [hline]
  exact hm

theorem Ordered.sleepServqs (h : σ.Ordered) (hc : σ.Counted) {k : ℕ}
    (hr : σ.Ready k (σ.stas (some k))) (hq : (σ.stas (some k)).sleepQ = []) :
    (σ.sleepServqs (some k)).Ordered := by
  have hnil : ∀ ac, ofAc ac (pkts (σ.stas (some k)).sleepQ) = [] := by
    intro ac
    rw [hq]
    rfl
  have m1 := moved_sleepServq hc hr (hnil .vo)
  have c1 := hc.sleepServq (some k) .vo
  have m2 := moved_sleepServq c1 m1.ready (((m1.other .vi (by decide)).2).trans (hnil .vi))
  have c2 := c1.sleepServq (some k) .vi
  have m3 := moved_sleepServq c2 m2.ready
    (((m2.other .be (by decide)).2).trans (((m1.other .be (by decide)).2).trans (hnil .be)))
  have c3 := c2.sleepServq (some k) .be
  have m4 := moved_sleepServq c3 m3.ready
    (((m3.other .bk (by decide)).2).trans
      (((m2.other .bk (by decide)).2).trans (((m1.other .bk (by decide)).2).trans (hnil .bk))))
  intro j
  by_cases hj : j = k
  · subst hj
    refine (h j).congr (m4.sent.trans (m3.sent.trans (m2.sent.trans m1.sent))) fun ac => ?_
    exact (m4.line ac).trans ((m3.line ac).trans ((m2.line ac).trans (m1.line ac)))
  · rw [sleepServqs_other (fun e => hj (Option.some.inj e)) σ]
    exact h j

-- what the queue of management frames is no part of
structure SameData (s u : PsSta) : Prop where
  asoc : u.asoc = s.asoc
  sleep : u.sleep = s.sleep
  aid : u.aid = s.aid
  sleepQ : u.sleepQ = s.sleepQ
  servq : u.servq = s.servq
  sent : u.sent = s.sent
  given : u.given = s.given

theorem SameData.trans {s u v : PsSta} (h : SameData s u) (k : SameData u v) : SameData s v :=
  ⟨k.asoc.trans h.asoc, k.sleep.trans h.sleep, k.aid.trans h.aid, k.sleepQ.trans h.sleepQ,
    k.servq.trans h.servq, k.sent.trans h.sent, k.given.trans h.given⟩

theorem SameData.put {s : PsSta} {w : StaId} (h : SameData (σ.stas w) s) (v : StaId) :
    SameData (σ.stas v) ((σ.put w s).stas v) := by
  by_cases hv : v = w
  · subst hv
    rw [put_same]
    exact h
  · rw [put_other _ _ hv]
    exact ⟨rfl, rfl, rfl, rfl, rfl, rfl, rfl⟩

theorem mgmtLoop_keeps (w v : StaId) (fs : List TxFrame) : ∀ (σ : PsSys) (kept : List TxFrame),
    SameData (σ.stas v) ((dequeueMgmtXmitframeToSleepq w σ kept fs).stas v) ∧
      (dequeueMgmtXmitframeToSleepq w σ kept fs).dz = σ.dz := by
  induction fs with
  | nil => exact fun σ kept => ⟨⟨rfl, rfl, rfl, rfl, rfl, rfl, rfl⟩, rfl⟩
  | cons f fs ih =>
    intro σ kept
    unfold dequeueMgmtXmitframeToSleepq
    split
    · rename_i σ' he
      obtain ⟨-, -, -, rfl⟩ := mgmt_enqueue he
      dsimp only
      refine ⟨?_, (ih _ _).2⟩
      have hb : SameData (σ.stas v)
          ((σ.put w ((σ.stas w).bufferMgmt { f with triggered := false })).stas v) := by
        refine SameData.put ?_ v
        exact ⟨rfl, rfl, rfl, rfl, rfl, rfl, rfl⟩
      refine SameData.trans (SameData.trans hb ?_) (ih _ _).1
      refine SameData.put (σ := { σ.put w ((σ.stas w).bufferMgmt { f with triggered := false }) with
        tim := insert (σ.stas w).aid σ.tim }) ?_ v
      exact ⟨rfl, rfl, rfl, rfl, rfl, rfl, rfl⟩
    · dsimp only
      refine ⟨?_, (ih _ _).2⟩
      refine SameData.trans (SameData.put ?_ v) (ih _ _).1
      exact ⟨rfl, rfl, rfl, rfl, rfl, rfl, rfl⟩

theorem Ordered.stopStaXmit (h : σ.Ordered) (hc : σ.Counted) (hs : σ.Sound) {k : ℕ}
    (hk : (σ.stas (some k)).sleep = false) : (σ.stopStaXmit k).Ordered := by
  have hq : (σ.stas (some k)).sleepQ = [] := by
    by_contra hne
    obtain ⟨h1, -, -⟩ := (hs.sta k).asleep (Or.inl hne)
    rw [hk] at h1
    cases h1
  have hd : (σ.doze k).Ordered := h.put (h k)
  have hcd : (σ.doze k).Counted := hc.put ((hc (some k)).congr rfl rfl rfl rfl rfl rfl rfl rfl rfl)
  have hm : ((σ.doze k).sleepMgmt (some k)).Ordered := by
    intro j
    have hk := (mgmtLoop_keeps (some k) (some j) ((σ.doze k).stas (some k)).mgmtQ.staPending
      (σ.doze k) []).1
    refine (hd j).congr hk.sent fun ac => ?_
    unfold PsSta.line sleepMgmt
    rw [hk.sleepQ, hk.servq, hk.given]
  have hcm : ((σ.doze k).sleepMgmt (some k)).Counted := Counted.mgmtLoop _ _ [] hcd rfl
  obtain ⟨hsame, hdz⟩ := mgmtLoop_keeps (some k) (some k)
    ((σ.doze k).stas (some k)).mgmtQ.staPending (σ.doze k) []
  have hself : (σ.doze k).stas (some k) = { σ.stas (some k) with sleep := true } := put_same ..
  have hqm : (((σ.doze k).sleepMgmt (some k)).stas (some k)).sleepQ = [] := by
    refine hsame.sleepQ.trans ?_
    rw [hself]
    exact hq
  have hr : ((σ.doze k).sleepMgmt (some k)).Ready k
      (((σ.doze k).sleepMgmt (some k)).stas (some k)) := by
    refine ⟨fun _ => ⟨hsame.sleep.trans (by rw [hself]), ?_⟩, fun _ => hqm⟩
    unfold sleepMgmt
    rw [hsame.aid, hdz, hself]
    exact Finset.mem_insert_self _ _
  have hu := hm.sleepServqs hcm hr hqm
  unfold PsSys.stopStaXmit
  exact hu.stas fun j => sleepServqs_other (Option.some_ne_none j) _

theorem Ordered.wakeFrames (h : σ.Ordered) (k : ℕ) (t : DequeueType) : (σ.wakeFrames k t).Ordered :=
  h.put (PsSta.ordered_kept.queues (h k) t)

theorem Ordered.wakeupStaToXmit (h : σ.Ordered) (k : ℕ) (t : DequeueType) :
    (σ.wakeupStaToXmit k t).Ordered := by
  have hw : ((σ.wakeFrames k t).wakeSta k).Ordered := by
    have hf := h.wakeFrames k t
    unfold wakeSta
    dsimp only
    split
    · exact hf.put (hf k)
    · exact hf
  unfold PsSys.wakeupStaToXmit
  dsimp only
  split
  · unfold wakeBmc
    split
    · dsimp only
      have hf := hw.stas fun j => put_other ((σ.wakeFrames k t).wakeSta k)
        ((((σ.wakeFrames k t).wakeSta k).stas none).flushBmc
          (((σ.wakeFrames k t).wakeSta k).stas none).sleepQ) (Option.some_ne_none j)
      split
      · exact hf
      · exact hf
    · exact hw
  · exact hw

-- the frames a trigger leaves behind are of other access categories than those it takes
theorem Ordered.deliver (h : σ.Ordered) (k : ℕ) : (σ.xmitDeliveryEnabledFrames k).Ordered := by
  refine deliver_rule (fun σ kept f fs h hq hkept hf => ?_) _ σ [] h rfl nofun
  have hne : ∀ g ∈ kept, g.ac ≠ f.ac := by
    intro g hg e
    have hg' := hkept g hg
    rw [e, hf] at hg'
    cases hg'
  exact h.put ((h k).releaseAc hq hne)

theorem Ordered.psPoll (h : σ.Ordered) (k up : ℕ) : (σ.psPoll k up).Ordered := by
  unfold PsSys.psPoll
  dsimp only
  split
  · exact h
  · split
    · exact h.put ((h k).pollMgmt.pollData.pollRepair _ _)
    · exact h

-- a frame goes round sleep_q only while sleep_q is empty
theorem Ordered.rtwXmitPosthandle (h : σ.Ordered) (hc : σ.Counted) (hs : σ.Sound) (w : StaId)
    (free : Bool) (p : Pkt) : (σ.rtwXmitPosthandle w free p).Ordered := by
  unfold PsSys.rtwXmitPosthandle
  split
  · rename_i ha
    dsimp only
    cases w with
    | none =>
      have hn : ∀ s j, (σ.put none s).stas (some j) = σ.stas (some j) :=
        fun s j => put_other σ s (Option.some_ne_none j)
      cases he : (σ.put none { σ.stas none with
          sent := (σ.stas none).sent ++ [p] }).xmitframeEnqueueForSleepingSta none p.frame with
      | none =>
        refine h.stas fun j => ?_
        unfold preXmitframe
        dsimp only [Option.getD_none]
        split
        · rw [put_put, hn]
        · rw [put_put, hn]
      | some σ' =>
        refine h.stas fun j => ?_
        rw [Option.getD_some, enqueue_other he (Option.some_ne_none j), hn]
    | some k =>
      set s := σ.stas (some k)
      set u : PsSta := { s with sent := s.sent ++ [p] } with hu
      cases he : (σ.put (some k) u).xmitframeEnqueueForSleepingSta (some k) p.frame with
      | none =>
        have hq : s.sleepQ = [] := by
          by_contra hne
          obtain ⟨h1, h2, -⟩ := (hs.sta k).asleep (Or.inl hne)
          unfold xmitframeEnqueueForSleepingSta at he
          rw [put_same] at he
          change (if !s.asoc || false then none
            else if s.sleep && decide (s.aid ∈ σ.dz) then _ else none) = none at he
          rw [ha, h1, decide_eq_true (show s.aid ∈ σ.dz from h2)] at he
          cases he
        rw [Option.getD_none]
        unfold preXmitframe
        rw [put_same]
        dsimp only
        rw [put_put, put_put]
        split
        · exact h.put ((h k).sendQueue hq ha p)
        · rename_i hqc
          simp only [Bool.or_eq_true, decide_eq_true_eq, not_or, not_lt] at hqc
          have hcnt : (s.servq p.ac).qcnt = (s.servq p.ac).staPending.length :=
            (hc (some k)).cnt p.ac
          have hle : (s.servq p.ac).qcnt ≤ 0 := hqc.1
          have hlen : (s.servq p.ac).staPending.length = 0 := by omega
          exact h.put ((h k).sendDirect hq (List.eq_nil_of_length_eq_zero hlen))
      | some σ' =>
        obtain ⟨-, -, -, rfl⟩ := enqueue_sta he
        rw [Option.getD_some]
        intro j
        change (((σ.put (some k) u).put (some k) (((σ.put (some k) u).stas (some k)).bufferAc
          p.frame)).stas (some j)).Ordered
        rw [put_same, put_put]
        exact h.put ((h k).sendBuffer p) j
  · exact h

theorem Ordered.rtwDequeueXframe (h : σ.Ordered) (hc : σ.Counted) (w : StaId) (ac : Ac) :
    (σ.rtwDequeueXframe w ac).Ordered := by
  unfold PsSys.rtwDequeueXframe
  split
  · exact h
  · rename_i f fs hq
    cases w with
    | none => exact h.stas fun j => put_other σ _ (Option.some_ne_none j)
    | some k =>
      have hf : f.ac = ac := (hc (some k)).placed ac f (by rw [hq]; simp)
      refine h.put ((h k).congr rfl fun b => ?_)
      unfold PsSta.line
      dsimp only
      rw [PsSta.pending_uncount]
      change ofAc b ((σ.stas (some k)).given ++ [f.pkt]) ++ _ ++ _ = _
      rw [ofAc_append]
      by_cases hb : b = ac
      · subst hb
        rw [PsSta.setPending_same, hq, pkts_cons, ofAc_cons_same hf]
        simp only [ofAc_nil, List.append_assoc, List.cons_append, List.nil_append]
        rfl
      · rw [ofAc_cons_other fun e => hb (e.symm.trans hf), ofAc_nil, List.append_nil]
        unfold PsSta.setPending
        rw [PsSta.setServq_other _ _ hb]
        rfl

theorem Ordered.step (h : σ.Ordered) (hc : σ.Counted) (hs : σ.Sound) (e : PsEvent) :
    (σ.step e).Ordered := by
  cases e with
  | join k aid qos => exact h.put (h k)
  | disassoc k => exact h.put (h k)
  | free k => exact h.put ((h k).fresh _)
  | xmit w free p => exact h.rtwXmitPosthandle hc hs w free p
  | mgnt k psDontq p =>
    unfold PsSys.step PsSys.rtwHalMgntXmit
    dsimp only
    split
    · exact h
    · cases he : σ.mgmtXmitframeEnqueueForSleepingSta (some k) p.frame with
      | none => exact h
      | some σ' =>
        obtain ⟨-, -, -, rfl⟩ := mgmt_enqueue he
        exact h.put (h k)
  | pwrbit k on =>
    unfold PsSys.step PsSys.processPwrbitData
    dsimp only
    split
    · split
      · exact h
      · rename_i hk
        exact h.stopStaXmit hc hs (Bool.eq_false_iff.mpr hk)
    · split
      · exact h.wakeupStaToXmit k .allFrame
      · exact h
  | wakeup k t => exact h.wakeupStaToXmit k t
  | psPoll k up => exact h.psPoll k up
  | trigger k up =>
    unfold PsSys.step PsSys.processWmmpsData
    dsimp only
    split
    · exact h
    · split
      · split
        · exact h.deliver k
        · exact h
      · exact h
  | dequeue w ac => exact h.rtwDequeueXframe hc w ac
  | dequeueMgmt w =>
    unfold PsSys.step PsSys.rtwDequeueMgmtXframe
    dsimp only
    split
    · exact h
    · cases w with
      | none => exact h.stas fun j => put_other σ _ (Option.some_ne_none j)
      | some k => exact h.put (h k)
  | chkBmcSleepq =>
    unfold PsSys.step PsSys.chkBmcSleepqHdl
    dsimp only
    split
    · exact h.stas fun j => put_other σ _ (Option.some_ne_none j)
    · exact h
  | chkHiQueue empty =>
    unfold PsSys.step PsSys.rtwChkHiQueueHdl
    dsimp only
    split
    · exact h
    · exact h

theorem ordered_init : init.Ordered := fun _ _ => List.Sublist.refl _

theorem ordered_run {es : List PsEvent} (hes : Run.Each step Given init es) :
    (Run.exec step init es).Ordered :=
  (Run.each_invariant step Given (fun σ => σ.Counted ∧ σ.Sound ∧ σ.Ordered)
    (fun _ e h hg => ⟨h.1.step e, h.2.1.step h.1 e hg, h.2.2.step h.1 h.2.1 e⟩)
    ⟨counted_init, sound_init, ordered_init⟩ hes).2.2

end PsSys

namespace PsSta

-- nothing is lost, and only an associated station has frames to lose
structure Steady (s : PsSta) : Prop where
  lost : s.lost = []
  held : s.asoc = true ∨ s.sleepQ = []

variable {s : PsSta}

theorem Steady.releaseAs (h : s.Steady) (hq : s.sleepQ ≠ []) (rest : List TxFrame) (n : ℤ)
    (g : TxFrame) : (s.releaseAs rest n g).Steady := by
  have ha : s.asoc = true := h.held.resolve_right hq
  unfold PsSta.releaseAs halXmitframeEnqueue rtwXmitClassifier
  rw [if_pos ha, Option.getD_some]
  exact ⟨h.lost, Or.inl ha⟩

theorem Steady.releaseMgmt (h : s.Steady) (f : TxFrame) (rest : List TxFrame) :
    (s.releaseMgmt f rest).Steady := by
  unfold PsSta.releaseMgmt halMgmtXmitframeEnqueue
  split <;> exact ⟨h.lost, h.held⟩

theorem steady_kept : KeptByWakes Steady where
  mgmt _ f fs h _ := h.releaseMgmt f fs
  triggered _ f fs h hq _ := h.releaseAs (hq ▸ List.cons_ne_nil f fs) ..
  other _ f fs h hq _ := h.releaseAs (hq ▸ List.cons_ne_nil f fs) ..

theorem Steady.poll (h : s.Steady) (found : Bool) (tim : Finset ℕ) :
    (s.pollMgmt.pollData.pollRepair found tim).Steady := by
  have hm : s.pollMgmt.Steady := by
    unfold PsSta.pollMgmt
    split
    · exact h
    · exact h.releaseMgmt _ _
  have hd : s.pollMgmt.pollData.Steady := by
    unfold PsSta.pollData
    split
    · exact hm
    · rename_i f fs hq
      have hr := hm.releaseAs (by rw [hq]; exact List.cons_ne_nil f fs) fs s.pollMgmt.sleepqAcLen
        { f with mdata := decide (s.pollMgmt.sleepqLen - 1 ≠ 0), triggered := true }
      exact ⟨hr.lost, hr.held⟩
  unfold PsSta.pollRepair
  split
  · exact ⟨hd.lost, hd.held⟩
  · exact hd

end PsSta

def PsEvent.Leaves (k : ℕ) : PsEvent → Prop
  | .disassoc j => j = k
  | .free j => j = k
  | _ => False

namespace PsSys

variable {σ σ' : PsSys} {k : ℕ}

def Steady (σ : PsSys) (k : ℕ) : Prop := (σ.stas (some k)).Steady

theorem Steady.stas (h : σ.Steady k) (hs : σ'.stas (some k) = σ.stas (some k)) : σ'.Steady k := by
  unfold Steady
  rw [hs]
  exact h

theorem Steady.put (h : σ.Steady k) (w : StaId) {s : PsSta} (hs : w = some k → s.Steady) :
    (σ.put w s).Steady k := by
  by_cases hw : w = some k
  · subst hw
    unfold Steady
    rw [put_same]
    exact hs rfl
  · exact h.stas (put_other σ s fun e => hw e.symm)

theorem Steady.enqueue (h : σ.Steady k) {w : StaId} {f : TxFrame}
    (he : σ.xmitframeEnqueueForSleepingSta w f = some σ') : σ'.Steady k := by
  cases w with
  | none => exact h.stas (enqueue_other he (Option.some_ne_none k))
  | some j =>
    obtain ⟨-, -, ha, rfl⟩ := enqueue_sta he
    refine h.put (some j) fun e => ?_
    cases e
    exact ⟨h.lost, Or.inl ha⟩

theorem Steady.loop (w : StaId) (ac : Ac) (fs : List TxFrame) : ∀ (σ : PsSys) (kept : List TxFrame),
    σ.Steady k → (dequeueXmitframesToSleepingQueue w ac σ kept fs).Steady k := by
  induction fs with
  | nil => exact fun σ kept h => h
  | cons f fs ih =>
    intro σ kept h
    unfold dequeueXmitframesToSleepingQueue
    split
    · rename_i σ' he
      have hs := h.enqueue he
      refine ih _ _ (hs.put w fun e => ?_)
      subst e
      exact ⟨hs.lost, hs.held⟩
    · refine ih _ _ (h.put w fun e => ?_)
      subst e
      exact ⟨h.lost, h.held⟩

theorem Steady.mgmtLoop (w : StaId) (fs : List TxFrame) : ∀ (σ : PsSys) (kept : List TxFrame),
    σ.Steady k → (dequeueMgmtXmitframeToSleepq w σ kept fs).Steady k := by
  induction fs with
  | nil => exact fun σ kept h => h
  | cons f fs ih =>
    intro σ kept h
    unfold dequeueMgmtXmitframeToSleepq
    split
    · rename_i σ' he
      obtain ⟨-, -, -, rfl⟩ := mgmt_enqueue he
      have hb : (σ.put w ((σ.stas w).bufferMgmt { f with triggered := false })).Steady k := by
        refine h.put w fun e => ?_
        subst e
        exact ⟨h.lost, h.held⟩
      refine ih _ _ (Steady.put (show Steady { σ.put w ((σ.stas w).bufferMgmt
        { f with triggered := false }) with tim := insert (σ.stas w).aid σ.tim } k from hb) w
        fun e => ?_)
      subst e
      exact ⟨hb.lost, hb.held⟩
    · refine ih _ _ (h.put w fun e => ?_)
      subst e
      exact ⟨h.lost, h.held⟩

theorem Steady.stopStaXmit (h : σ.Steady k) (j : ℕ) : (σ.stopStaXmit j).Steady k := by
  have hd : (σ.doze j).Steady k := by
    refine h.put (some j) fun e => ?_
    cases e
    exact ⟨h.lost, h.held⟩
  have hall : ∀ w τ, Steady τ k → (sleepServqs τ w).Steady k := fun w τ hτ =>
    Steady.loop w .bk _ _ _ (Steady.loop w .be _ _ _
      (Steady.loop w .vi _ _ _ (Steady.loop w .vo _ τ [] hτ)))
  exact hall none _ (hall (some j) _ (Steady.mgmtLoop _ _ _ [] hd))

theorem Steady.wakeupStaToXmit (h : σ.Steady k) (j : ℕ) (t : DequeueType) :
    (σ.wakeupStaToXmit j t).Steady k := by
  have hf : (σ.wakeFrames j t).Steady k := by
    refine h.put (some j) fun e => ?_
    cases e
    exact PsSta.steady_kept.queues h t
  have hw : ((σ.wakeFrames j t).wakeSta j).Steady k := by
    unfold wakeSta
    dsimp only
    split
    · refine hf.put (some j) fun e => ?_
      cases e
      exact ⟨hf.lost, hf.held⟩
    · exact hf
  unfold PsSys.wakeupStaToXmit
  dsimp only
  split
  · unfold wakeBmc
    split
    · dsimp only
      have hb := hw.put none (s := (((σ.wakeFrames j t).wakeSta j).stas none).flushBmc
        (((σ.wakeFrames j t).wakeSta j).stas none).sleepQ) fun e => by cases e
      split
      · exact hb
      · exact hb
    · exact hw
  · exact hw

theorem Steady.deliver (h : σ.Steady k) (j : ℕ) : (σ.xmitDeliveryEnabledFrames j).Steady k := by
  refine deliver_rule (P := fun σ => σ.Steady k) (fun σ kept f fs h hq _ _ => ?_) _ σ [] h rfl nofun
  refine h.put (some j) fun e => ?_
  cases e
  exact PsSta.Steady.releaseAs h (by rw [hq]; simp) ..

theorem Steady.step (h : σ.Steady k) (e : PsEvent) (he : ¬ e.Leaves k) : (σ.step e).Steady k := by
  cases e with
  | join j aid qos =>
    refine h.put (some j) fun e => ?_
    cases e
    exact ⟨h.lost, Or.inl rfl⟩
  | disassoc j => exact h.put (some j) fun e => (he (Option.some.inj e)).elim
  | free j => exact h.put (some j) fun e => (he (Option.some.inj e)).elim
  | xmit w free p =>
    unfold PsSys.step rtwXmitPosthandle
    dsimp only
    split
    · rename_i ha
      have hs : (σ.put w { σ.stas w with sent := (σ.stas w).sent ++ [p] }).Steady k := by
        refine h.put w fun e => ?_
        subst e
        exact ⟨h.lost, h.held⟩
      cases hb : (σ.put w { σ.stas w with
          sent := (σ.stas w).sent ++ [p] }).xmitframeEnqueueForSleepingSta w p.frame with
      | none =>
        rw [Option.getD_none]
        unfold preXmitframe
        dsimp only
        split
        · refine hs.put w fun e => ?_
          subst e
          rw [put_same]
          unfold PsSta.halXmitframeEnqueue PsSta.rtwXmitClassifier
          rw [if_pos ha, Option.getD_some]
          exact ⟨h.lost, h.held⟩
        · refine hs.put w fun e => ?_
          subst e
          exact ⟨hs.lost, hs.held⟩
      | some σ' => exact hs.enqueue hb
    · exact h
  | mgnt j psDontq p =>
    unfold PsSys.step rtwHalMgntXmit
    dsimp only
    split
    · exact h
    · cases hb : σ.mgmtXmitframeEnqueueForSleepingSta (some j) p.frame with
      | none => exact h
      | some σ' =>
        obtain ⟨-, -, -, rfl⟩ := mgmt_enqueue hb
        refine h.put (some j) fun e => ?_
        cases e
        exact ⟨h.lost, h.held⟩
  | pwrbit j on =>
    unfold PsSys.step processPwrbitData
    dsimp only
    split
    · split
      · exact h
      · exact h.stopStaXmit j
    · split
      · exact h.wakeupStaToXmit j .allFrame
      · exact h
  | wakeup j t => exact h.wakeupStaToXmit j t
  | psPoll j up =>
    unfold PsSys.step PsSys.psPoll
    dsimp only
    split
    · exact h
    · split
      · refine h.put (some j) fun e => ?_
        cases e
        exact PsSta.Steady.poll h _ _
      · exact h
  | trigger j up =>
    unfold PsSys.step processWmmpsData
    dsimp only
    split
    · exact h
    · split
      · split
        · exact h.deliver j
        · exact h
      · exact h
  | dequeue w ac =>
    unfold PsSys.step rtwDequeueXframe
    dsimp only
    split
    · exact h
    · refine h.put w fun e => ?_
      subst e
      exact ⟨h.lost, h.held⟩
  | dequeueMgmt w =>
    unfold PsSys.step rtwDequeueMgmtXframe
    dsimp only
    split
    · exact h
    · refine h.put w fun e => ?_
      subst e
      exact ⟨h.lost, h.held⟩
  | chkBmcSleepq =>
    unfold PsSys.step chkBmcSleepqHdl
    dsimp only
    split
    · exact h.put none fun e => by cases e
    · exact h
  | chkHiQueue empty =>
    unfold PsSys.step rtwChkHiQueueHdl
    dsimp only
    split
    · exact h
    · exact h

theorem steady_run {es : List PsEvent} (hes : ∀ e ∈ es, ¬ e.Leaves k) :
    (Run.exec step init es).Steady k := by
  induction es using List.reverseRecOn with
  | nil => exact ⟨rfl, Or.inr rfl⟩
  | append_singleton es e ih =>
    rw [Run.exec_concat]
    exact (ih fun e he => hes e (List.mem_append_left _ he)).step e (hes e (by simp))

theorem delivered_in_order {es : List PsEvent} (hes : Run.Each step Given init es) (k : ℕ) (ac : Ac) :
    let s := (Run.exec step init es).stas (some k)
    (s.line ac).Sublist (ofAc ac s.sent) ∧
      ((∀ e ∈ es, ¬ e.Leaves k) → s.line ac = ofAc ac s.sent) := by
  have ho := ordered_run hes k ac
  refine ⟨ho, fun hk => ho.eq_of_length ?_⟩
  exact ((counted_run es (some k)).line_perm (steady_run hk).lost ac).length_eq

theorem delivered_in_order_dozing :
    ((Run.exec step init dozingRun).stas (some 1)).line .vo = [⟨0, 6⟩, ⟨1, 6⟩] :=
  (delivered_in_order dozingRun_given 1 .vo).2 (by simp [dozingRun, PsEvent.Leaves])

end PsSys

end Ap.Ps
