import Rtl8188fu.Recv.DefragLoop

namespace Recv

open Reassembly

namespace DefragSound

def pnUnder (e : SecurityType) (f : RecvFrame) : Option ℕ := (rtwIvToPn f.iv e).map Prod.fst

def NextPn (e : SecurityType) (f g : RecvFrame) : Prop :=
  pnUnder e f ≠ none ∧ pnUnder e g = (pnUnder e f).map (· + 1)

instance (e : SecurityType) : DecidableRel (NextPn e) :=
  fun _ _ => inferInstanceAs (Decidable (_ ∧ _))

structure Sealed (fs : List RecvFrame) (e : SecurityType) : Prop where
  cipher : ∀ f ∈ fs, f.attrib.encrypt = e
  keytrack : ∀ f ∈ fs, ∀ g ∈ fs, f.keytrack = g.keytrack
  consecutive : fs.IsChain (NextPn e)

structure Sound (fs : List RecvFrame) (r : RecvFrame) : Prop where
  transmitter : ∀ f ∈ fs, ∀ g ∈ fs, f.attrib.ta = g.attrib.ta
  seqNum : ∀ f ∈ fs, ∀ g ∈ fs, f.attrib.seqNum = g.attrib.seqNum
  fragNum : fs.map (fun f => f.attrib.fragNum.val) = List.range fs.length
  moreFrag : fs.map (fun f => f.attrib.mfrag) = List.replicate (fs.length - 1) true ++ [false]
  protection : (∀ f ∈ fs, f.attrib.encrypt = .noPrivacy) ∨ ∃ e ≠ .noPrivacy, Sealed fs e
  payload : ∃ mic, joined RecvFrame.payload RecvFrame.icvLen fs = r.payload ++ mic ∧
    mic.length = r.micLen

def Safe (crypto : Crypto) (s : RxState) (e : Event) : Prop :=
  ∀ c ∈ call crypto s e, ∀ r ∈ (c.result crypto).frame,
    1 < c.fragments.length → Sound c.fragments r

structure OneMsdu (c : DefragCall) (psta : StaInfo) : Prop where
  individual : psta.macAddr ≠ bcAddr
  seqNum : ∀ f ∈ psta.defragQ, f.attrib.seqNum = c.frame.attrib.seqNum
  encrypt : ∀ f ∈ psta.defragQ, f.attrib.encrypt = c.frame.attrib.encrypt
  cipher : c.frame.attrib.encrypt = .noPrivacy ∨ checksPn c.frame.attrib.encrypt = true ∨
    c.frame.attrib.encrypt = .tkip ∧ c.fragments.IsChain (NextPn .tkip)
  header : ∀ f ∈ c.fragments, f.pastIv ≤ f.len
  complete : ∀ f ∈ psta.defragQ, f.Complete

instance (c : DefragCall) (psta : StaInfo) : Decidable (OneMsdu c psta) :=
  decidable_of_iff (psta.macAddr ≠ bcAddr ∧
    (∀ f ∈ psta.defragQ, f.attrib.seqNum = c.frame.attrib.seqNum) ∧
    (∀ f ∈ psta.defragQ, f.attrib.encrypt = c.frame.attrib.encrypt) ∧
    (c.frame.attrib.encrypt = .noPrivacy ∨ checksPn c.frame.attrib.encrypt = true ∨
      c.frame.attrib.encrypt = .tkip ∧ c.fragments.IsChain (NextPn .tkip)) ∧
    (∀ f ∈ c.fragments, f.pastIv ≤ f.len) ∧ ∀ f ∈ psta.defragQ, f.Complete)
    ⟨fun ⟨h1, h2, h3, h4, h5, h6⟩ => ⟨h1, h2, h3, h4, h5, h6⟩,
      fun h => ⟨h.individual, h.seqNum, h.encrypt, h.cipher, h.header, h.complete⟩⟩

def Meets (crypto : Crypto) (s : RxState) (e : Event) : Prop :=
  ∀ c ∈ call crypto s e, c.frame.attrib.mfrag = false → c.frame.attrib.fragNum ≠ 0 →
    isMcast c.frame.attrib.ra = false → Consecutive c.fragments →
      ∀ psta ∈ defragOwner c.adapter c.frame, OneMsdu c psta

instance (crypto : Crypto) (s : RxState) (e : Event) : Decidable (Meets crypto s e) :=
  inferInstanceAs (Decidable (∀ c ∈ call crypto s e, _))

def ofOwner (macAddr : MacAddr) (f : RecvFrame) : Prop :=
  hashAddr f.attrib.ta = macAddr ∨ macAddr = bcAddr

def queuePolicy : Policy where
  station _ _ _ := True
  macAddrs _ := True
  queued macAddr f := f.attrib.mfrag = true ∧ ofOwner macAddr f
  pending _ := True
  settings _ _ := True

theorem ofOwner_of_defragOwner {a : Adapter} {f : RecvFrame} {psta : StaInfo}
    (h : defragOwner a f = some psta) : ofOwner psta.macAddr f := by
  unfold defragOwner at h
  split at h
  · rename_i hget
    cases h
    exact .inl (macAddr_of_get hget).symm
  · split at h
    · cases h
    · exact .inr (macAddr_of_get h)

theorem ta_of_ofOwner {macAddr : MacAddr} {f : RecvFrame} (h : ofOwner macAddr f)
    (hne : macAddr ≠ bcAddr) : f.attrib.ta = macAddr := by
  rcases h with hmac | hbc
  · unfold hashAddr at hmac
    split at hmac
    · exact absurd hmac.symm hne
    · exact hmac
  · exact absurd hbc hne

theorem queued_start (fwState : FwState) (macAddr bssid : MacAddr) (sec : SecurityPriv) :
    Upholds queuePolicy (start fwState macAddr bssid sec).adapter where
  station _ h := absurd h List.not_mem_nil
  macAddrs := trivial
  queued _ h := absurd h List.not_mem_nil
  pending _ h := absurd h List.not_mem_nil
  settings := trivial

theorem queued_step {crypto : Crypto} {s : RxState} (h : Upholds queuePolicy s.adapter)
    (e : Event) : Upholds queuePolicy (step crypto s e).adapter :=
  upholds_step h (fun _ _ _ => trivial) (fun _ _ _ _ _ _ => trivial) (fun _ _ => trivial)
    (fun _ _ => trivial) (fun _ _ _ => trivial)
    fun _ _ hmfrag _ _ howner => ⟨hmfrag, ofOwner_of_defragOwner howner⟩

theorem pnUnder_of_checksPn {e : SecurityType} (he : checksPn e = true) (f : RecvFrame) :
    pnUnder e f = some f.ccmpPn := by
  have h0 := byteAt_lt f.rxData f.attrib.hdrlen
  have h1 := byteAt_lt f.rxData (f.attrib.hdrlen + 1)
  have h2 := byteAt_lt f.rxData (f.attrib.hdrlen + 2)
  have h3 := byteAt_lt f.rxData (f.attrib.hdrlen + 3)
  have hpn : pn48 (byteAt f.iv 0) (byteAt f.iv 1) f.iv = f.ccmpPn := by
    simp only [RecvFrame.iv, pn48, RecvFrame.ccmpPn, ccmph2Pn, le64, le16, byteAt_drop, Nat.add_assoc,
      Nat.reduceAdd, Nat.add_zero]
    omega
  cases e <;> cases he <;> simp [pnUnder, rtwIvToPn, hpn]

theorem sealed_of_checksPn {fs : List RecvFrame} {e : SecurityType} (hfs : Consecutive fs)
    (he : checksPn e = true) (hcipher : ∀ f ∈ fs, f.attrib.encrypt = e) : Sealed fs e := by
  refine ⟨hcipher, hfs.keytrack, ?_⟩
  cases fs with
  | nil => exact .nil
  | cons head rest =>
    have hchecks : ∀ f ∈ head :: rest, checksPn f.attrib.encrypt = true :=
      fun f hf => by rw [hcipher f hf, he]
    obtain ⟨hhead, hrest⟩ := List.forall_mem_cons.mp hchecks
    have hpn := hfs.pn head rfl
    rw [RecvFrame.curPn, if_pos hhead] at hpn
    refine (pnFollows_chain hpn hrest).imp fun f g hnext => ?_
    rw [NextPn, pnUnder_of_checksPn he, pnUnder_of_checksPn he, hnext]
    exact ⟨Option.some_ne_none _, rfl⟩

theorem payload_of_oneMsdu {crypto : Crypto} {c : DefragCall} {psta : StaInfo}
    {out r : RecvFrame} (hc : c.Completes crypto psta out r) (hone : OneMsdu c psta)
    (hta : ∀ f ∈ c.fragments, hashAddr f.attrib.ta = psta.macAddr) :
    ∃ mic, joined RecvFrame.payload RecvFrame.icvLen c.fragments = r.payload ++ mic ∧
      mic.length = r.micLen := by
  have hcomplete : ∀ f ∈ c.fragments.dropLast, f.Complete := by
    rw [hc.fragments, List.dropLast_concat]
    exact hone.complete
  have hheader := hone.header
  have hout := hc.defrag
  have hr := hc.passes
  rw [hc.result] at hr
  cases hfs : c.fragments with
  | nil =>
    rw [hfs] at hout
    cases hout
  | cons head rest =>
    rw [hfs] at hta hout hr hheader hcomplete
    obtain ⟨hpayload, n, hattrib⟩ := recvframeDefrag_payload hout hheader hcomplete
    have hmacs := ((Releases.clearDefragQ c.adapter psta.macAddr).trans
      (Releases.rtwFreeRecvframeQueue _ rest)).macAddrs
    have haddr : hashAddr out.attrib.ta = psta.macAddr := by
      rw [hattrib]
      exact hta head List.mem_cons_self
    obtain ⟨s, hs⟩ := getStainfo_of_macAddrs hmacs (defragOwner_mem hc.owner) haddr
    obtain ⟨hsame, mic, hmic, -, hlen⟩ := chkmicOrFree_some hr
    refine ⟨mic, hpayload.symm.trans hmic, (hlen s hs).trans ?_⟩
    rw [RecvFrame.micLen, RecvFrame.micLen, hsame]

theorem owner_of_fragments {crypto : Crypto} {c : DefragCall} {psta : StaInfo} {out r : RecvFrame}
    (h : Upholds queuePolicy c.adapter) (hc : c.Completes crypto psta out r) :
    ∀ f ∈ c.fragments, ofOwner psta.macAddr f := by
  rw [hc.fragments, List.forall_mem_append, List.forall_mem_singleton]
  exact ⟨fun f hf => (h.queued psta (defragOwner_mem hc.owner) f hf).2,
    ofOwner_of_defragOwner hc.owner⟩

theorem sound_of_oneMsdu {crypto : Crypto} {c : DefragCall} {psta : StaInfo} {out r : RecvFrame}
    (h : Upholds queuePolicy c.adapter) (hc : c.Completes crypto psta out r)
    (hone : OneMsdu c psta) : Sound c.fragments r := by
  have hconsecutive := recvframeDefrag_consecutive hc.defrag
  have hqueued := h.queued psta (defragOwner_mem hc.owner)
  have howner := owner_of_fragments h hc
  have hta : ∀ f ∈ c.fragments, f.attrib.ta = psta.macAddr :=
    fun f hf => ta_of_ofOwner (howner f hf) hone.individual
  have hseq : ∀ f ∈ c.fragments, f.attrib.seqNum = c.frame.attrib.seqNum := by
    rw [hc.fragments, List.forall_mem_append, List.forall_mem_singleton]
    exact ⟨hone.seqNum, rfl⟩
  have hcipher : ∀ f ∈ c.fragments, f.attrib.encrypt = c.frame.attrib.encrypt := by
    rw [hc.fragments, List.forall_mem_append, List.forall_mem_singleton]
    exact ⟨hone.encrypt, rfl⟩
  constructor
  · exact fun f hf g hg => (hta f hf).trans (hta g hg).symm
  · exact fun f hf g hg => (hseq f hf).trans (hseq g hg).symm
  · exact hconsecutive.fragNum
  · rw [hc.fragments, List.map_append, List.length_append]
    refine congrArg₂ (· ++ ·) (List.eq_replicate_iff.mpr ⟨by simp, ?_⟩)
      (congrArg (fun b => [b]) hc.mfrag)
    rw [List.forall_mem_map]
    exact fun f hf => (hqueued f hf).1
  · rcases hone.cipher with hnone | hchecks | ⟨htkip, hchain⟩
    · exact .inl fun f hf => (hcipher f hf).trans hnone
    · refine .inr ⟨_, fun hnone => ?_, sealed_of_checksPn hconsecutive hchecks hcipher⟩
      rw [hnone] at hchecks
      cases hchecks
    · refine .inr ⟨.tkip, by decide, ?_, hconsecutive.keytrack, hchain⟩
      exact fun f hf => (hcipher f hf).trans htkip
  · exact payload_of_oneMsdu hc hone fun f hf => (howner f hf).resolve_right hone.individual

theorem safe_of_meets {crypto : Crypto} {s : RxState} {e : Event}
    (h : Upholds queuePolicy s.adapter) (he : Meets crypto s e) : Safe crypto s e := by
  intro c hcall r hr hmore
  obtain ⟨psta, out, hc⟩ := (recvframeChkDefrag_some hr).resolve_left fun hwhole => by
    rw [hwhole.fragments] at hmore
    exact absurd hmore (by simp)
  have hone := he c hcall hc.mfrag hc.fragNum hc.ra (recvframeDefrag_consecutive hc.defrag)
    psta hc.owner
  exact sound_of_oneMsdu (upholds_call h (fun _ _ _ => trivial) hcall) hc hone

def keyPolicy (macAddr : MacAddr) (keytrack : ℤ) (key : List UInt8) : Policy where
  station mac k key' := mac = macAddr → keytrack ≤ k ∧ (k = keytrack → key' = key)
  macAddrs macs := macAddr ∈ macs
  queued _ _ := True
  pending _ := True
  settings _ _ := True

theorem key_step {crypto : Crypto} {macAddr : MacAddr} {keytrack : ℤ} {key : List UInt8}
    {s : RxState} {e : Event} (h : Upholds (keyPolicy macAddr keytrack key) s.adapter)
    (he : e ≠ .freeStainfo macAddr) :
    Upholds (keyPolicy macAddr keytrack key) (step crypto s e).adapter := by
  refine upholds_step h ?_ ?_ ?_ (fun _ _ => trivial) (fun _ _ _ => trivial)
    fun _ _ _ _ _ _ => trivial
  · rintro mac - hnew rfl
    exact absurd h.macAddrs hnew
  · intro mac key' _ psta hpsta hmac heq
    have hle := (h.station psta hpsta (hmac.trans heq)).1
    exact ⟨by omega, fun hsame => by omega⟩
  · rintro mac (rfl | rfl)
    · simp only [step]
      split
      · exact h.macAddrs
      · rw [Adapter.macAddrs, List.map_append]
        exact List.mem_append_left _ h.macAddrs
    · simp only [step]
      split
      · exact h.macAddrs
      · rename_i psta hfind
        have hmac : psta.macAddr = mac := by simpa using List.find?_some hfind
        have hne : macAddr ≠ psta.macAddr := fun heq => he (by rw [heq, hmac])
        have hfree := h.releases (Releases.rtwFreeRecvframeQueue s.adapter
          ((List.finRange 16).flatMap (fun tid =>
            (psta.recvreorderCtrl tid).pendingRecvframeQueue) ++ psta.defragQ))
        obtain ⟨t, ht, htmac⟩ := List.mem_map.mp hfree.macAddrs
        refine List.mem_map.mpr ⟨t, List.mem_filter.mpr ⟨ht, ?_⟩, htmac⟩
        rw [htmac]
        exact bne_iff_ne.mpr hne

theorem key_of_keytrack {crypto : Crypto} {macAddr : MacAddr} {psta : StaInfo} {s : RxState}
    {es : List Event} (hmem : macAddr ∈ s.adapter.macAddrs)
    (hpsta : ∀ t ∈ s.adapter.stapriv, t.macAddr = macAddr → t = psta)
    (hes : Run.Each (step crypto) (fun _ e => e ≠ .freeStainfo macAddr) s es) :
    ∀ t ∈ (Run.exec (step crypto) s es).adapter.stapriv, t.macAddr = macAddr →
      t.keytrack = psta.keytrack → t.dot118021xUncstKey = psta.dot118021xUncstKey := by
  have hstart : Upholds (keyPolicy macAddr psta.keytrack psta.dot118021xUncstKey) s.adapter := by
    refine ⟨fun t ht hmac => ?_, hmem, fun _ _ _ _ => trivial, fun _ _ => trivial, trivial⟩
    rw [hpsta t ht hmac]
    exact ⟨le_refl _, fun _ => rfl⟩
  have hkeys := Run.each_invariant (step crypto) _ (fun s => Upholds _ s.adapter)
    (fun _ _ hs he => key_step hs he) hstart hes
  exact fun t ht hmac => (hkeys.station t ht hmac).2

def addrPolicy : Policy := ⟨fun _ _ _ => True, List.Nodup, fun _ _ => True, fun _ => True,
  fun _ _ => True⟩

theorem addr_step {crypto : Crypto} {s : RxState} (h : Upholds addrPolicy s.adapter) (e : Event) :
    Upholds addrPolicy (step crypto s e).adapter := by
  refine upholds_step h (fun _ _ _ => trivial) (fun _ _ _ _ _ _ => trivial) ?_
    (fun _ _ => trivial) (fun _ _ _ => trivial) fun _ _ _ _ _ _ => trivial
  rintro mac (rfl | rfl)
  · simp only [step]
    split
    · exact h.macAddrs
    · rename_i hnew
      rw [Adapter.macAddrs, List.map_append]
      refine List.nodup_append.mpr ⟨h.macAddrs, List.nodup_singleton _, ?_⟩
      rintro x hx y hy rfl
      obtain ⟨psta, hpsta, hmac⟩ := List.mem_map.mp hx
      rw [List.map_singleton, List.mem_singleton] at hy
      exact hnew (List.any_eq_true.mpr ⟨psta, hpsta, beq_iff_eq.mpr (hmac.trans hy)⟩)
  · simp only [step]
    split
    · exact h.macAddrs
    · rename_i psta hfind
      have hfree := h.releases (Releases.rtwFreeRecvframeQueue s.adapter
        ((List.finRange 16).flatMap (fun tid =>
          (psta.recvreorderCtrl tid).pendingRecvframeQueue) ++ psta.defragQ))
      exact hfree.macAddrs.sublist (List.filter_sublist.map _)

theorem addrs_run (crypto : Crypto) (fwState : FwState) (macAddr bssid : MacAddr)
    (sec : SecurityPriv) (es : List Event) :
    Upholds addrPolicy (Run.exec (step crypto) (start fwState macAddr bssid sec) es).adapter := by
  refine Run.exec_invariant (step crypto) (fun s => Upholds addrPolicy s.adapter)
    (fun _ e h => addr_step h e) ?_ es
  exact ⟨fun _ _ => trivial, List.nodup_nil, fun _ _ _ _ => trivial, fun _ _ => trivial, trivial⟩

-- key is the pairwise key that the station of this address had in its generation k of the run
def KeyOf (crypto : Crypto) (s₀ : RxState) (es : List Event) (macAddr : MacAddr) (k : ℤ)
    (key : List UInt8) : Prop :=
  ∃ before after, es = before ++ after ∧
    Run.Each (step crypto) (fun _ e => e ≠ .freeStainfo macAddr)
      (Run.exec (step crypto) s₀ before) after ∧
    ∃ psta ∈ (Run.exec (step crypto) s₀ before).adapter.stapriv,
      psta.macAddr = macAddr ∧ psta.keytrack = k ∧ psta.dot118021xUncstKey = key

section Keys

variable {crypto : Crypto} {s₀ : RxState} {es : List Event} {macAddr : MacAddr} {k : ℤ}
  {key key' : List UInt8}

theorem KeyOf.now {psta : StaInfo}
    (h : psta ∈ (Run.exec (step crypto) s₀ es).adapter.stapriv) :
    KeyOf crypto s₀ es psta.macAddr psta.keytrack psta.dot118021xUncstKey :=
  ⟨es, [], (List.append_nil es).symm, trivial, psta, h, rfl, rfl, rfl⟩

theorem KeyOf.concat {e : Event} (h : KeyOf crypto s₀ es macAddr k key)
    (he : e ≠ .freeStainfo macAddr) : KeyOf crypto s₀ (es ++ [e]) macAddr k key := by
  obtain ⟨before, after, rfl, hlive, hpsta⟩ := h
  exact ⟨before, after ++ [e], List.append_assoc .., (Run.each_append ..).mpr ⟨hlive, he, trivial⟩,
    hpsta⟩

-- the later of the two points is reached from the earlier without freeing the station
theorem KeyOf.unique (haddrs : ∀ es, Upholds addrPolicy (Run.exec (step crypto) s₀ es).adapter)
    (h : KeyOf crypto s₀ es macAddr k key) (h' : KeyOf crypto s₀ es macAddr k key') :
    key = key' := by
  have hlater {before mid : List Event} {s t : StaInfo}
      (hmid : Run.Each (step crypto) (fun _ e => e ≠ .freeStainfo macAddr)
        (Run.exec (step crypto) s₀ before) mid)
      (hs : s ∈ (Run.exec (step crypto) s₀ before).adapter.stapriv) (hsmac : s.macAddr = macAddr)
      (ht : t ∈ (Run.exec (step crypto) s₀ (before ++ mid)).adapter.stapriv)
      (htmac : t.macAddr = macAddr) (hsame : t.keytrack = s.keytrack) :
      t.dot118021xUncstKey = s.dot118021xUncstKey := by
    have hrun : Run.exec (step crypto) s₀ (before ++ mid) =
        Run.exec (step crypto) (Run.exec (step crypto) s₀ before) mid := List.foldl_append
    have honly : ∀ u ∈ (Run.exec (step crypto) s₀ before).adapter.stapriv,
        u.macAddr = macAddr → u = s :=
      fun u hu hmac => List.inj_on_of_nodup_map (haddrs before).macAddrs hu hs (hmac.trans hsmac.symm)
    rw [hrun] at ht
    exact key_of_keytrack (hsmac ▸ List.mem_map_of_mem hs) honly hmid t ht htmac hsame
  obtain ⟨before, after, hes, hlive, s, hs, hsmac, rfl, rfl⟩ := h
  obtain ⟨before', after', hes', hlive', t, ht, htmac, hsame, rfl⟩ := h'
  rcases List.append_eq_append_iff.mp (hes.symm.trans hes') with
    ⟨mid, rfl, rfl⟩ | ⟨mid, rfl, rfl⟩
  · exact (hlater ((Run.each_append ..).mp hlive).1 hs hsmac ht htmac hsame).symm
  · exact hlater ((Run.each_append ..).mp hlive').1 ht htmac hs hsmac hsame.symm

-- every fragment queued carries a generation that its station had while it has been there
def stampPolicy (crypto : Crypto) (s₀ : RxState) (es : List Event) : Policy where
  station macAddr k key := KeyOf crypto s₀ es macAddr k key
  macAddrs _ := True
  queued macAddr f := ∃ key, KeyOf crypto s₀ es macAddr f.keytrack key
  pending _ := True
  settings _ _ := True

-- the same while the event e passes: what it frees is left out, and gone after it
def passingPolicy (crypto : Crypto) (s₀ : RxState) (es : List Event) (e : Event) : Policy :=
  { stampPolicy crypto s₀ (es ++ [e]) with
    station := fun mac k key => e = .freeStainfo mac ∨ KeyOf crypto s₀ (es ++ [e]) mac k key
    queued := fun mac f => e = .freeStainfo mac ∨
      ∃ key, KeyOf crypto s₀ (es ++ [e]) mac f.keytrack key }

theorem freed_gone {s : RxState} {psta : StaInfo}
    (h : psta ∈ (step crypto s (.freeStainfo macAddr)).adapter.stapriv) : psta.macAddr ≠ macAddr := by
  simp only [step] at h
  split at h
  · rename_i hnone
    intro hmac
    exact absurd (beq_iff_eq.mpr hmac) (List.find?_eq_none.mp hnone psta h)
  · rename_i s' hfind
    have hmac : s'.macAddr = macAddr := by simpa using List.find?_some hfind
    rw [← hmac]
    exact bne_iff_ne.mp (List.mem_filter.mp h).2

theorem stamped_step {e : Event}
    (h : Upholds (stampPolicy crypto s₀ es) (Run.exec (step crypto) s₀ es).adapter) :
    Upholds (stampPolicy crypto s₀ (es ++ [e])) (Run.exec (step crypto) s₀ (es ++ [e])).adapter := by
  have hbefore : Upholds (passingPolicy crypto s₀ es e) (Run.exec (step crypto) s₀ es).adapter := by
    refine ⟨fun psta hpsta => ?_, trivial, fun psta hpsta f hf => ?_, fun _ _ => trivial, trivial⟩
    · exact (Classical.em _).imp_right fun he => (h.station psta hpsta).concat he
    · exact (Classical.em _).imp_right fun he => (h.queued psta hpsta f hf).imp fun _ hk => hk.concat he
  have hnow {psta : StaInfo}
      (hpsta : psta ∈ (step crypto (Run.exec (step crypto) s₀ es) e).adapter.stapriv) :
      KeyOf crypto s₀ (es ++ [e]) psta.macAddr psta.keytrack psta.dot118021xUncstKey :=
    .now (by rw [Run.exec_concat]; exact hpsta)
  have hafter : Upholds (passingPolicy crypto s₀ es e)
      (step crypto (Run.exec (step crypto) s₀ es) e).adapter := by
    refine upholds_step hbefore ?_ ?_ (fun _ _ => trivial) (fun _ _ => trivial)
      (fun _ _ _ => trivial) fun c hcall _ _ psta howner => ?_
    · rintro mac rfl hnew
      have hfresh : ¬ ((Run.exec (step crypto) s₀ es).adapter.stapriv.any
          fun psta => psta.macAddr == mac) = true := by
        rw [List.any_eq_true]
        rintro ⟨psta, hpsta, hmac⟩
        exact hnew (beq_iff_eq.mp hmac ▸ List.mem_map_of_mem hpsta)
      have hmem : rtwAllocStainfo mac ∈ (step crypto (Run.exec (step crypto) s₀ es)
          (.allocStainfo mac)).adapter.stapriv := by
        simp only [step, if_neg hfresh]
        exact List.mem_append_right _ (List.mem_singleton_self _)
      exact .inr (hnow hmem)
    · rintro mac key rfl psta hpsta rfl
      have hmem : psta.setStakey key ∈ (step crypto (Run.exec (step crypto) s₀ es)
          (.setStakey psta.macAddr key)).adapter.stapriv := by
        simp only [step, updateSta]
        exact List.mem_map.mpr ⟨psta, hpsta, if_pos rfl⟩
      exact .inr (hnow hmem)
    · have hcaller := upholds_call hbefore (fun _ _ _ => trivial) hcall
      exact (hcaller.station psta (defragOwner_mem howner)).imp_right fun hk => ⟨_, hk⟩
  have hlive {psta : StaInfo}
      (hpsta : psta ∈ (step crypto (Run.exec (step crypto) s₀ es) e).adapter.stapriv) :
      e ≠ .freeStainfo psta.macAddr := by
    rintro rfl
    exact freed_gone hpsta rfl
  rw [Run.exec_concat]
  exact ⟨fun psta hpsta => (hafter.station psta hpsta).resolve_left (hlive hpsta), trivial,
    fun psta hpsta f hf => (hafter.queued psta hpsta f hf).resolve_left (hlive hpsta),
    fun _ _ => trivial, trivial⟩

theorem stamped_run (hs₀ : s₀.adapter.stapriv = []) (es : List Event) :
    Upholds (stampPolicy crypto s₀ es) (Run.exec (step crypto) s₀ es).adapter := by
  induction es using List.reverseRecOn with
  | nil =>
    refine ⟨fun psta hpsta => ?_, trivial, fun psta hpsta => ?_, fun _ _ => trivial, trivial⟩
    · exact KeyOf.now hpsta
    · rw [Run.exec_nil, hs₀] at hpsta
      exact absurd hpsta List.not_mem_nil
  | append_singleton es e ih => exact stamped_step ih

-- one key for all the generations the fragments carry, whenever the station had them
def SameKey (crypto : Crypto) (s₀ : RxState) (es : List Event) (fs : List RecvFrame) : Prop :=
  ∃ key, ∀ f ∈ fs, ∀ key', KeyOf crypto s₀ es f.attrib.ta f.keytrack key' ↔ key' = key

theorem sameKey_of_oneMsdu (hs₀ : s₀.adapter.stapriv = [])
    (haddrs : ∀ es, Upholds addrPolicy (Run.exec (step crypto) s₀ es).adapter)
    (hqueue : Upholds queuePolicy (Run.exec (step crypto) s₀ es).adapter) {e : Event}
    {c : DefragCall} {psta : StaInfo} {out r : RecvFrame}
    (hcall : call crypto (Run.exec (step crypto) s₀ es) e = some c)
    (hc : c.Completes crypto psta out r) (hone : OneMsdu c psta) :
    SameKey crypto s₀ es c.fragments := by
  have hstamped := upholds_call (stamped_run hs₀ es) (fun _ _ _ => trivial) hcall
  have hqueued := upholds_call hqueue (fun _ _ _ => trivial) hcall
  have howner := owner_of_fragments hqueued hc
  have hgeneration : ∀ f ∈ c.fragments, f.keytrack = psta.keytrack := by
    intro f hf
    refine (recvframeDefrag_consecutive hc.defrag).keytrack f hf (c.frame.queuedBy psta) ?_
    rw [hc.fragments]
    exact List.mem_append_right _ (List.mem_singleton_self _)
  refine ⟨psta.dot118021xUncstKey, fun f hf key' => ?_⟩
  rw [ta_of_ofOwner (howner f hf) hone.individual, hgeneration f hf]
  have hkey := hstamped.station psta (defragOwner_mem hc.owner)
  exact ⟨fun h => h.unique haddrs hkey, fun h => h ▸ hkey⟩

end Keys

theorem sameKey_of_meets {crypto : Crypto} {s₀ : RxState} {es : List Event} {e : Event}
    (hs₀ : s₀.adapter.stapriv = [])
    (haddrs : ∀ es, Upholds addrPolicy (Run.exec (step crypto) s₀ es).adapter)
    (hqueue : Upholds queuePolicy (Run.exec (step crypto) s₀ es).adapter)
    (he : Meets crypto (Run.exec (step crypto) s₀ es) e) {c : DefragCall}
    (hcall : call crypto (Run.exec (step crypto) s₀ es) e = some c) {r : RecvFrame}
    (hr : (c.result crypto).frame = some r) (hmore : 1 < c.fragments.length) :
    SameKey crypto s₀ es c.fragments := by
  obtain ⟨psta, out, hc⟩ := (recvframeChkDefrag_some hr).resolve_left fun hwhole => by
    rw [hwhole.fragments] at hmore
    exact absurd hmore (by simp)
  have hone := he c hcall hc.mfrag hc.fragNum hc.ra (recvframeDefrag_consecutive hc.defrag)
    psta hc.owner
  exact sameKey_of_oneMsdu hs₀ haddrs hqueue hcall hc hone

def apAddr : MacAddr := localAddr 1

def ownAddr : MacAddr := localAddr 2

def associated : FwState := ⟨false, true, false, false, true, false⟩

def fragment (flags seqFrag : UInt8) (body : List UInt8) : RxPacket where
  attrib := .zero
  data := [0x08, flags, 0, 0] ++ ownAddr.toList ++ apAddr.toList ++ [2, 0, 0, 0, 0, 9] ++
    [seqFrag, 0] ++ body
  spare := List.replicate 16 0
  normalRx := true
  whole := true
  copied := true

def twoFragments (lastSeqFrag : UInt8) : List Event :=
  [.allocStainfo apAddr, .arrive (fragment 0x06 0x10 [1, 2, 3]), .handle,
    .arrive (fragment 0x02 lastSeqFrag [4, 5, 6])]

end DefragSound

end Recv
