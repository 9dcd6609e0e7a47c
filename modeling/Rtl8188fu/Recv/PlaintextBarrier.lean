import Rtl8188fu.Recv.DefragSound

namespace Recv

open Reassembly

namespace PlaintextBarrier

theorem etherTypeAt_drop (p : List UInt8) (n i : ℕ) :
    etherTypeAt (p.drop n) i = etherTypeAt p (n + i) := by
  simp only [etherTypeAt, byteAt_drop, Nat.add_assoc]

theorem etherTypeAt_take (p : List UInt8) {n i : ℕ} (h : i + 1 < n) :
    etherTypeAt (p.take n) i = etherTypeAt p i := by
  rw [etherTypeAt, etherTypeAt, byteAt_take p h, byteAt_take p (by omega)]

theorem etherTypeAt_append (p q : List UInt8) {i : ℕ} (h : i + 1 < p.length) :
    etherTypeAt (p ++ q) i = etherTypeAt p i := by
  rw [etherTypeAt, etherTypeAt, byteAt_append p q h, byteAt_append p q (by omega)]

def llcEtherType (f : RecvFrame) : ℕ := etherTypeAt f.payload 6

structure IsEapol (r : RecvFrame) : Prop where
  llc : 8 ≤ r.payload.length
  etherType : llcEtherType r = eapolType

def CarriesPlaintext (fs : List RecvFrame) : Prop :=
  ∃ f ∈ fs, f.attrib.privacy = false ∧ f.payload ≠ []

def Safe (crypto : Crypto) (s : RxState) (e : Event) : Prop :=
  ∀ c ∈ call crypto s e, ∀ r ∈ (c.result crypto).frame, isMcast r.attrib.ra = false →
    CarriesPlaintext c.fragments → IsEapol r

instance (fs : List RecvFrame) : Decidable (CarriesPlaintext fs) :=
  inferInstanceAs (Decidable (∃ f ∈ fs, _))

structure Shielded (fs : List RecvFrame) (head : RecvFrame) : Prop where
  llc : 8 + head.icvLen + head.micLen ≤ head.payload.length
  eapol : head.attrib.privacy = true → llcEtherType head = eapolType
  header : ∀ f ∈ fs, f.pastIv ≤ f.len
  complete : ∀ f ∈ fs.dropLast, f.Complete

instance (fs : List RecvFrame) (head : RecvFrame) : Decidable (Shielded fs head) :=
  decidable_of_iff (8 + head.icvLen + head.micLen ≤ head.payload.length ∧
    (head.attrib.privacy = true → llcEtherType head = eapolType) ∧
    (∀ f ∈ fs, f.pastIv ≤ f.len) ∧ ∀ f ∈ fs.dropLast, f.Complete)
    ⟨fun ⟨h1, h2, h3, h4⟩ => ⟨h1, h2, h3, h4⟩, fun h => ⟨h.llc, h.eapol, h.header, h.complete⟩⟩

def Meets (crypto : Crypto) (s : RxState) (e : Event) : Prop :=
  ∀ c ∈ call crypto s e, c.frame.attrib.mfrag = false → isMcast c.frame.attrib.ra = false →
    Consecutive c.fragments → CarriesPlaintext c.fragments →
      ∀ head ∈ c.fragments.head?, Shielded c.fragments head

instance (crypto : Crypto) (s : RxState) (e : Event) : Decidable (Meets crypto s e) :=
  inferInstanceAs (Decidable (∀ c ∈ call crypto s e, _))

def InScope : Event → Prop
  | .arrive p => getFrameType (p.data ++ p.spare) = wifiDataType
  | .security sec => sec.dot11PrivacyAlgrthm ≠ .noPrivacy ∧ sec.dot11AuthAlgrthm = .dot118021X
  | _ => True

instance : (e : Event) → Decidable (InScope e)
  | .arrive _ => inferInstanceAs (Decidable (_ = _))
  | .security _ => inferInstanceAs (Decidable (_ ∧ _))
  | .pending | .handle | .timeout .. | .allocStainfo _ | .freeStainfo _ | .freeSwdecPending
  | .setStakey .. | .configure _ | .session .. | .mlme .. => .isTrue trivial

def Filtered (f : RecvFrame) : Prop :=
  f.attrib.privacy = false → f.etherType = eapolType ∧ f.attrib.encrypt = .noPrivacy ∧
    f.attrib.ivLen = 0 ∧ f.attrib.icvLen = 0

def barrierPolicy : Policy where
  station _ _ _ := True
  macAddrs _ := True
  queued _ f := isMcast f.attrib.ra = false ∧ Filtered f
  pending f := f.attrib.privacy = true
  settings auth privacy := auth = .dot118021X ∧ privacy ≠ .noPrivacy

theorem filtered_protect {a : Adapter} {psta : StaInfo} {f : RecvFrame}
    (hauth : a.securitypriv.dot11AuthAlgrthm = .dot118021X)
    (hprivacy : a.securitypriv.dot11PrivacyAlgrthm ≠ .noPrivacy)
    (h : (protect a psta f).ret = .success) : Filtered (protect a psta f).frame := by
  have hplain : (protect a psta f).frame.attrib.privacy = f.attrib.privacy :=
    congrArg FrameBody.privacy (protect_body a psta f)
  intro hclear
  have hclear' := hplain.symm.trans hclear
  have hkept : dropUnprotected a psta (setEncrypt a.securitypriv psta f) = false := by
    by_contra hdrop
    rw [protect, if_pos (Bool.eq_true_of_not_eq_false hdrop)] at h
    cases h
  have hether : (setEncrypt a.securitypriv psta f).etherType = eapolType := by
    have hpriv : (setEncrypt a.securitypriv psta f).attrib.privacy = false := hclear
    unfold dropUnprotected at hkept
    rw [if_neg hprivacy, if_pos hauth, hpriv] at hkept
    split at hkept
    · cases hkept
    · simp only [Bool.not_false, Bool.true_and, Bool.or_eq_false_iff] at hkept
      exact bne_eq_false_iff_eq.mp hkept.1.1
  refine ⟨hether, ?_⟩
  simp [protect, setEncrypt, hclear']

theorem filtered_validate {a : Adapter} {f : RecvFrame}
    (hauth : a.securitypriv.dot11AuthAlgrthm = .dot118021X)
    (hprivacy : a.securitypriv.dot11PrivacyAlgrthm ≠ .noPrivacy)
    (h : (validateRecvDataFrame a f).ret = .success) :
    Filtered (validateRecvDataFrame a f).frame := by
  unfold validateRecvDataFrame at h ⊢
  cases hok : decacheDataFrame a f with
  | error ret =>
    rw [hok] at h
    exact absurd h (decacheDataFrame_error hok)
  | ok p =>
    obtain ⟨g, psta⟩ := p
    simp only [hok] at h ⊢
    unfold checkPn at h ⊢
    cases Decidable.em (isMcast g.attrib.ra = true) with
    | inl hra =>
      rw [if_pos hra] at h ⊢
      split at h
      · cases h
      · rename_i sec hsec
        obtain ⟨hauth', hprivacy'⟩ := Releases.recvBcastPnDecache hsec
        exact filtered_protect (hauth'.trans hauth) (by rwa [hprivacy']) h
    | inr hra =>
      rw [if_neg hra] at h ⊢
      exact filtered_protect hauth hprivacy h

theorem filtered_decryptor {crypto : Crypto} {a : Adapter} {f g : RecvFrame}
    (hf : Filtered f) (h : decryptor crypto a f = some g) : Filtered g := by
  intro hclear
  have hclear' : f.attrib.privacy = false := by
    obtain ⟨bs, k, rfl⟩ := decryptor_data crypto h
    exact hclear
  obtain ⟨hether, hnone, hiv, hicv⟩ := hf hclear'
  rw [decryptor_noPrivacy crypto h hnone]
  exact ⟨hether, hnone, hiv, hicv⟩

theorem privacy_decryptor {crypto : Crypto} {a : Adapter} {f g : RecvFrame}
    (hf : f.attrib.privacy = true) (h : decryptor crypto a f = some g) : Filtered g := by
  obtain ⟨bs, k, rfl⟩ := decryptor_data crypto h
  intro hclear
  rw [hf] at hclear
  cases hclear

structure Guarded (s : RxState) : Prop where
  upholds : Upholds barrierPolicy s.adapter
  dataOnly : ∀ f ∈ s.inHand, getFrameType f.rxData = wifiDataType

theorem filtered_prehandle {crypto : Crypto} {s : RxState} {b : Adapter} {f g : RecvFrame}
    (h : Guarded s) (hpre : recvFuncPrehandle crypto s.adapter f = ⟨b, some g⟩) :
    Filtered g := by
  obtain ⟨hret, -, rfl⟩ := prehandle_data crypto hpre
  exact filtered_validate h.upholds.settings.1 h.upholds.settings.2 hret

theorem privacy_enqueued {crypto : Crypto} {s : RxState} {g : RecvFrame} (h : Guarded s)
    (hg : Enqueues crypto s g) : g.attrib.privacy = true := by
  obtain ⟨f, a, -, hpre, hto⟩ := hg
  by_contra hclear
  have hnone := (filtered_prehandle h hpre (Bool.eq_false_of_not_eq_true hclear)).2.1
  simp [toSwdecPending, hnone] at hto

theorem filtered_pendingCall {crypto : Crypto} {a : Adapter} {c : DefragCall}
    (h : Upholds barrierPolicy a) (hc : pendingCall crypto a = some c) : Filtered c.frame := by
  unfold pendingCall at hc
  split at hc
  · cases hc
  · rename_i f rest huc
    obtain ⟨g, hg, rfl⟩ := Option.map_eq_some_iff.mp hc
    exact privacy_decryptor (h.pending f (huc ▸ List.mem_cons_self)) hg

theorem filtered_call {crypto : Crypto} {s : RxState} {e : Event} {c : DefragCall}
    (h : Guarded s) (hc : call crypto s e = some c) : Filtered c.frame := by
  cases e with
  | pending => exact filtered_pendingCall h.upholds hc
  | handle =>
    cases hhand : s.inHand with
    | none =>
      simp only [call, hhand] at hc
      cases hc
    | some f =>
      simp only [call, hhand] at hc
      split at hc
      · cases hc
      unfold frameCall at hc
      split at hc
      · unfold prehandleCall at hc
        dsimp only at hc
        rw [h.dataOnly f hhand, if_neg fun hmgt => absurd hmgt.2 (by decide)] at hc
        cases hc
      · rename_i b g hpre
        have hg := filtered_prehandle h hpre
        split at hc
        · rename_i hto
          dsimp only at hc
          split at hc
          · obtain ⟨-, hb, -⟩ := prehandle_data crypto hpre
            have hvalid := h.upholds.releases
              (Releases.validateRecvDataFrame s.adapter f.dataFrame)
            rw [hb] at hvalid
            have henq := privacy_enqueued h ⟨f, b, hhand, hpre, hto⟩
            exact filtered_pendingCall (hvalid.enqueueSwdec henq) hc
          · cases hc
        · obtain ⟨d, hd, rfl⟩ := Option.map_eq_some_iff.mp hc
          exact filtered_decryptor hg hd
  | _ => cases hc

theorem guarded_start {fwState : FwState} {macAddr bssid : MacAddr} {sec : SecurityPriv}
    (hauth : sec.dot11AuthAlgrthm = .dot118021X) (hprivacy : sec.dot11PrivacyAlgrthm ≠ .noPrivacy) :
    Guarded (start fwState macAddr bssid sec) where
  upholds :=
    { station := fun _ h => absurd h List.not_mem_nil
      macAddrs := trivial
      queued := fun _ h => absurd h List.not_mem_nil
      pending := fun _ h => absurd h List.not_mem_nil
      settings := ⟨hauth, hprivacy⟩ }
  dataOnly _ h := by cases h

theorem guarded_step {crypto : Crypto} {s : RxState} {e : Event} (h : Guarded s)
    (he : InScope e) : Guarded (step crypto s e) where
  upholds := by
    refine upholds_step h.upholds (fun _ _ _ => trivial) (fun _ _ _ _ _ _ => trivial)
      (fun _ _ => trivial) ?_ (fun g _ => privacy_enqueued h)
      fun c hc _ hra _ _ => ⟨hra, filtered_call h hc⟩
    rintro sec rfl
    exact ⟨he.2, he.1⟩
  dataOnly := by
    cases e with
    | arrive p =>
      intro f hf
      simp only [step, arrive] at hf
      split at hf
      · exact h.dataOnly f hf
      · split at hf
        · exact h.dataOnly f hf
        · split at hf
          · cases hf
          · cases hf
            exact he
    | handle =>
      intro f hf
      simp only [step, handle] at hf
      split at hf
      · exact h.dataOnly f hf
      · split at hf <;> cases hf
    | allocStainfo macAddr =>
      simp only [step]
      split <;> exact h.dataOnly
    | freeStainfo macAddr =>
      simp only [step]
      split <;> exact h.dataOnly
    | _ => exact h.dataOnly

theorem llcEtherType_filtered {f : RecvFrame} (hf : Filtered f)
    (hclear : f.attrib.privacy = false) (hlen : 8 ≤ f.payload.length) :
    llcEtherType f = eapolType := by
  rw [RecvFrame.payload, List.length_drop] at hlen
  have hinside : f.pastIv + 6 + 1 < f.data.length := by omega
  rw [llcEtherType, RecvFrame.payload, etherTypeAt_drop,
    ← etherTypeAt_append f.data f.spare hinside]
  exact (hf hclear).1

theorem eapol_of_shielded {fs rest : List RecvFrame} {head r : RecvFrame} {mic : List UInt8}
    (hshielded : Shielded fs head) (hf : Filtered head)
    (hjoined : joined RecvFrame.payload RecvFrame.icvLen (head :: rest) = r.payload ++ mic)
    (hmic : mic.length ≤ head.micLen) : IsEapol r := by
  have hllc := hshielded.llc
  have hlen := @Reassembly.le_length_joined _ _ RecvFrame.payload RecvFrame.icvLen head
    (8 + head.micLen) (by omega) rest
  rw [hjoined, List.length_append] at hlen
  have hr : 8 ≤ r.payload.length := by omega
  have htake := @Reassembly.take_joined _ _ RecvFrame.payload RecvFrame.icvLen head 8 (by omega)
    rest
  rw [hjoined, List.take_append_of_le_length hr] at htake
  refine ⟨hr, ?_⟩
  have hsame : llcEtherType r = llcEtherType head := by
    unfold llcEtherType
    rw [← etherTypeAt_take r.payload (show 6 + 1 < 8 by decide), htake,
      etherTypeAt_take _ (by decide)]
  rw [hsame]
  cases hprivacy : head.attrib.privacy with
  | true => exact hshielded.eapol hprivacy
  | false => exact llcEtherType_filtered hf hprivacy (by omega)

theorem eapol_of_whole {crypto : Crypto} {c : DefragCall} {r : RecvFrame}
    (hc : c.Whole crypto r) (hf : Filtered c.frame) (hshielded : Shielded c.fragments c.frame) :
    IsEapol r := by
  obtain ⟨-, mic, hmic, hle, -⟩ := chkmicOrFree_some hc.passes
  exact @PlaintextBarrier.eapol_of_shielded _ ([]) _ _ _ hshielded hf hmic hle

theorem eapol_of_completes {crypto : Crypto} {c : DefragCall} {psta : StaInfo} {out r : RecvFrame}
    (hc : c.Completes crypto psta out r) (hfs : ∀ f ∈ c.fragments, Filtered f)
    (hshielded : ∀ head ∈ c.fragments.head?, Shielded c.fragments head) : IsEapol r := by
  have hout := hc.defrag
  cases hhead : c.fragments with
  | nil =>
    rw [hhead] at hout
    cases hout
  | cons head rest =>
    have hshield := hshielded head (by rw [hhead]; rfl)
    have hheader := hshield.header
    have hcomplete := hshield.complete
    rw [hhead] at hfs hout hheader hcomplete
    obtain ⟨hpayload, n, hattrib⟩ := recvframeDefrag_payload hout hheader hcomplete
    obtain ⟨-, mic, hmic, hle, -⟩ := chkmicOrFree_some (hc.result ▸ hc.passes)
    refine eapol_of_shielded hshield (hfs head List.mem_cons_self) (hpayload.symm.trans hmic) ?_
    rwa [RecvFrame.micLen, hattrib] at hle

theorem safe_of_meets {crypto : Crypto} {s : RxState} {e : Event} (h : Guarded s)
    (he : Meets crypto s e) : Safe crypto s e := by
  intro c hcall r hr hra hplain
  have hf := filtered_call h hcall
  rcases recvframeChkDefrag_some hr with hc | ⟨psta, out, hc⟩
  · refine eapol_of_whole hc hf (he c hcall hc.mfrag ?_ hc.consecutive hplain c.frame ?_)
    · rwa [← (chkmicOrFree_some hc.passes).1]
    · rw [hc.fragments]
      rfl
  · have hadapter := upholds_call h.upholds (fun g _ => privacy_enqueued h) hcall
    have hfs : ∀ f ∈ c.fragments, Filtered f := by
      rw [hc.fragments, List.forall_mem_append, List.forall_mem_singleton]
      exact ⟨fun f hf => (hadapter.queued psta (defragOwner_mem hc.owner) f hf).2, hf⟩
    exact eapol_of_completes hc hfs
      (he c hcall hc.mfrag hc.ra (recvframeDefrag_consecutive hc.defrag) hplain)

theorem plaintext_barrier (crypto : Crypto) (fwState : FwState) (macAddr bssid : MacAddr)
    {sec : SecurityPriv} (hauth : sec.dot11AuthAlgrthm = .dot118021X)
    (hprivacy : sec.dot11PrivacyAlgrthm ≠ .noPrivacy) {es : List Event}
    (hes : Run.Each (step crypto) (fun s e => InScope e ∧ Meets crypto s e)
      (start fwState macAddr bssid sec) es) :
    Run.Each (step crypto) (Safe crypto) (start fwState macAddr bssid sec) es :=
  Run.each_of_each (step crypto) _ (Safe crypto) Guarded
    (fun _ _ hs he => safe_of_meets hs he.2) (fun _ _ hs he => guarded_step hs he.1)
    (guarded_start hauth hprivacy) hes

def secured : SecurityPriv :=
  { SecurityPriv.zero with dot11AuthAlgrthm := .dot118021X, dot11PrivacyAlgrthm := .aes }

def snap (etherType : List UInt8) : List UInt8 := [0xaa, 0xaa, 3, 0, 0, 0] ++ etherType

def join : List Event :=
  [.allocStainfo DefragSound.apAddr,
    .configure { rtwAllocStainfo DefragSound.apAddr with dot118021XPrivacy := .aes }]

def continuation : RxPacket := DefragSound.fragment 0x02 0x11 [1, 2, 3, 4, 5, 6, 0x88, 0x8e, 7]

def eapolRun : List Event :=
  join ++ [.arrive (DefragSound.fragment 0x06 0x10 (snap [0x88, 0x8e])), .handle,
    .arrive continuation, .handle]

theorem plaintext_barrier_eapol :
    Run.Each (step .rejecting) (Safe .rejecting)
      (start DefragSound.associated DefragSound.ownAddr DefragSound.apAddr secured) eapolRun :=
  plaintext_barrier .rejecting _ _ _ rfl (by decide) (by decide +kernel)

def protectedHead : RxPacket :=
  { DefragSound.fragment 0x46 0x10 ([1, 0, 0, 0x20, 0, 0, 0, 0] ++ snap [8, 0] ++
      List.replicate 9 0) with
    attrib := { RxPktAttrib.zero with bdecrypted := true } }

def injectionRun : List Event :=
  join ++ [.arrive protectedHead, .handle, .arrive continuation]

theorem plaintext_fragment_joins_protected :
    ¬Run.Each (step .rejecting) (Safe .rejecting)
      (start DefragSound.associated DefragSound.ownAddr DefragSound.apAddr secured)
      (injectionRun ++ [.handle]) := by
  intro h
  obtain ⟨hlast, -⟩ := ((Run.each_append ..).mp h).2
  have hcall : ((call .rejecting (Run.exec (step .rejecting)
      (start DefragSound.associated DefragSound.ownAddr DefragSound.apAddr secured)
      injectionRun) .handle).bind fun c => (c.result .rejecting).frame.map fun r =>
        (decide (CarriesPlaintext c.fragments), isMcast r.attrib.ra, llcEtherType r)) =
      some (true, false, 0x0800) := by decide +kernel
  obtain ⟨c, hc, hframe⟩ := Option.bind_eq_some_iff.mp hcall
  obtain ⟨r, hr, htriple⟩ := Option.map_eq_some_iff.mp hframe
  obtain ⟨hplain, hpair⟩ := Prod.mk.inj htriple
  obtain ⟨hra, hether⟩ := Prod.mk.inj hpair
  have heapol := (hlast c hc r hr hra (of_decide_eq_true hplain)).etherType
  rw [hether] at heapol
  exact absurd heapol (by decide)

end PlaintextBarrier

end Recv
