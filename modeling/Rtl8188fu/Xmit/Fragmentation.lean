import Rtl8188fu.Xmit.FragmentLayout

namespace Xmit

open Recv (MacAddr SecurityType byteAt isMcast localAddr RecvFrame recvframeChkDefrag chkmicOrFree)
open ByteMemory

def fragNum (mpdu : List UInt8) : ℕ := byteAt mpdu 22 % 16

def moreFrag (mpdu : List UInt8) : Bool := mpdu.getD 1 0 &&& 0x04 ≠ 0

def frameSa (e : XmitEnv) (p : PktAttrib) : MacAddr :=
  match e.opMode with
  | .ap => p.src
  | _ => p.ta

structure Transmission where
  attrib : PktAttrib
  laid : List (List UInt8)
  handed : List (List UInt8)

def transmit (c : SwCipher) (e : XmitEnv) (sec : SecContext) (psta : XmitSta)
    (userPriority : Fin 16) (txdesc : ℕ → Vector UInt8 40) (pkt : EthPkt) (f : XmitFrame) :
    Option Transmission := do
  let u ← updateAttrib e sec psta userPriority pkt f.attrib
  let r ← rtwXmitframeCoalesce c e (some u.psta) pkt { f with attrib := u.attrib }
  let f := r.frame
  some ⟨u.attrib, r.laid,
    rtwDumpXframe e f.attrib txdesc f.attrib.nrFrags f.bufAddr f.bufAddr f.mem⟩

section Spec

variable (c : SwCipher) (e : XmitEnv) (p : PktAttrib) (pkt : EthPkt)

def micTail : List UInt8 :=
  if p.encrypt = .tkip then
    michael (micKey e.sec p) p.dst (frameSa e p) (UInt8.ofNat p.priority)
      (rtwPutSnap pkt.hProto ++ pkt.payload)
  else []

def protect (mpdu body : List UInt8) : List UInt8 :=
  let head := mpdu.take (p.hdrlen + p.ivLen)
  head ++ if p.bswenc && swEncrypts p.encrypt then
    c.crypt p.encrypt (swKey e.sec p) p.ta head body else body

structure Numbered (mpdus : List (List UInt8)) : Prop where
  fragNum : mpdus.map fragNum = List.range mpdus.length
  moreFrag : mpdus.map moreFrag = List.replicate (mpdus.length - 1) true ++ [false]

structure Carries (t : Transmission) (bodies : List (List UInt8)) : Prop where
  length : bodies.length = t.laid.length
  handed : t.handed = List.zipWith (protect c e t.attrib) t.laid bodies
  payload : bodies.flatten = rtwPutSnap pkt.hProto ++ pkt.payload ++ micTail e t.attrib pkt

structure Fragmented (t : Transmission) : Prop where
  laid : Numbered t.laid
  handed : Numbered t.handed
  bounded : ∀ mpdu ∈ t.handed, mpdu.length ≤ e.fragLen
  payload : ∃ bodies, Carries c e pkt t bodies

structure Arrives (mpdu body : List UInt8) (f : RecvFrame) : Prop where
  fragNum : f.attrib.fragNum.val = fragNum mpdu
  mfrag : f.attrib.mfrag = moreFrag mpdu
  data : ∃ icv, f.data = mpdu.take (p.hdrlen + p.ivLen) ++ body ++ icv ∧
    icv.length = f.attrib.icvLen

def chkDefragAll (crypto : Recv.Crypto) : Recv.Adapter → List RecvFrame → Recv.Defragged
  | a, [] => ⟨a, none⟩
  | a, [f] => recvframeChkDefrag crypto a f
  | a, f :: fs => chkDefragAll crypto (recvframeChkDefrag crypto a f).adapter fs

def Reassembled (t : Transmission) : Prop :=
  ∀ bodies, Carries c e pkt t bodies → ∀ crypto a fs,
    List.Forall₂ (fun mb f => Arrives t.attrib mb.1 mb.2 f) (t.handed.zip bodies) fs →
      ∃ a' r head icv, chkDefragAll crypto a fs = chkmicOrFree crypto a' r ∧
        r.data = head ++ bodies.flatten ++ icv ∧ head.length = t.attrib.hdrlen + t.attrib.ivLen ∧
        icv.length = r.attrib.icvLen

def FitsOneMpdu : Prop :=
  p.hdrlen + p.ivLen + 8 + pkt.payload.length + p.swIcv + (if p.encrypt = .tkip then 8 else 4) ≤
    e.fragLen

instance : Decidable (FitsOneMpdu e p pkt) := inferInstanceAs (Decidable (_ ≤ _))

end Spec

section Single

variable {c : SwCipher} {e : XmitEnv} {p : PktAttrib} {pkt : EthPkt} {m : Mem UInt8}
  {hdr : List UInt8} {memStart : ℕ}

theorem micAddrs_eq (hd : DataHdr e p hdr) (h : Holds m memStart (hdr.take 24)) :
    micDa m memStart = p.dst.toList ∧ micSa m memStart = (frameSa e p).toList := by
  obtain ⟨ds, a1, a2, a3, haddr, hds, haddrs⟩ := hd.addrs
  have hlen : (hdr.take 24).length = 24 := by simp [hd.length]
  have hflags : m (memStart + 1) = hdr.getD 1 0 := by
    rw [h 1 (by omega), List.getElem_take, List.getD_eq_getElem?_getD,
      List.getElem?_eq_getElem (by rw [hd.length]; omega), Option.getD_some]
  have hread : ∀ k, k ≤ 12 → read m (memStart + (4 + k)) 6 =
      ((a1.toList ++ a2.toList ++ a3.toList).drop k).take 6 := by
    intro k hk
    rw [h.slice (by omega), ← haddrs]
    simp only [List.drop_take, List.take_take, List.drop_drop]
    congr 1
    omega
  have h1 : read m (memStart + 4) 6 = a1.toList := (hread 0 (by omega)).trans (by simp [macAddr_toList])
  have h2 : read m (memStart + 10) 6 = a2.toList := (hread 6 (by omega)).trans (by simp [macAddr_toList])
  have h3 : read m (memStart + 16) 6 = a3.toList := (hread 12 (by omega)).trans (by simp [macAddr_toList])
  have hone : m (memStart + 1) &&& 1 = ds &&& 1 := by rw [hflags, ← hds, UInt8.and_assoc]; rfl
  have htwo : m (memStart + 1) &&& 2 = ds &&& 2 := by rw [hflags, ← hds, UInt8.and_assoc]; rfl
  simp only [micDa, micSa, frameSa, hone, htwo]
  unfold hdrAddrs at haddr
  cases hmode : e.opMode with
  | station =>
    rw [hmode] at haddr
    obtain ⟨rfl, rfl, rfl, rfl⟩ : _ ∧ _ ∧ _ ∧ _ := by simpa using haddr
    exact ⟨h3, h2⟩
  | ap =>
    rw [hmode] at haddr
    obtain ⟨rfl, rfl, rfl, rfl⟩ : _ ∧ _ ∧ _ ∧ _ := by simpa using haddr
    exact ⟨h1, h3⟩
  | adhoc =>
    rw [hmode] at haddr
    obtain ⟨rfl, rfl, rfl, rfl⟩ : _ ∧ _ ∧ _ ∧ _ := by simpa using haddr
    exact ⟨h1, h2⟩
  | other =>
    rw [hmode] at haddr
    exact absurd haddr nofun

theorem length_rtwPutSnap (hProto : UInt16) : (rtwPutSnap hProto).length = 8 := by
  unfold rtwPutSnap
  split <;> rfl

def msduBody (e : XmitEnv) (p : PktAttrib) (pkt : EthPkt) : List UInt8 :=
  rtwPutSnap pkt.hProto ++ pkt.payload ++ micTail e p pkt

theorem length_msduBody (e : XmitEnv) (p : PktAttrib) (pkt : EthPkt) :
    (msduBody e p pkt).length = 8 + pkt.payload.length + if p.encrypt = .tkip then 8 else 0 := by
  rw [msduBody, List.length_append, List.length_append, length_rtwPutSnap, micTail]
  split <;> simp [michael]

theorem micPriority_eq (hprio : p.qosEn = false → p.priority = 0) :
    (if p.qosEn then UInt8.ofNat p.priority else 0) = UInt8.ofNat p.priority := by
  split
  · rfl
  · rename_i hno
    rw [hprio (by simpa using hno)]
    rfl

theorem addmicLoop_one {fragLen lastTxcmdsz pframe : ℕ} {d : MicData} {data : List UInt8}
    (halign : pframe % 4 = 0)
    (hlen : lastTxcmdsz - p.hdrlen - p.ivLen - p.swIcv = data.length)
    (h : Holds m (pframe + p.hdrlen + p.ivLen) data) :
    addmicLoop p fragLen lastTxcmdsz m 1 pframe d =
      (pframe + p.hdrlen + p.ivLen + data.length, d.append data) := by
  simp only [addmicLoop, fragPayload, if_pos, rnd4_of_aligned halign, hlen, h.read, Nat.add_zero]

theorem xmitframeAddmic_single {f : XmitFrame} (hp : DataAttrib e pkt f.attrib)
    (hd : DataHdr e f.attrib hdr) (hfrags : f.attrib.nrFrags = 1)
    (halign : (f.bufAddr + hwHdrOffset f) % 4 = 0)
    (hprio : f.attrib.qosEn = false → f.attrib.priority = 0)
    (hkey : f.attrib.encrypt = .tkip → micKey e.sec f.attrib ≠ List.replicate 16 0)
    (hlast : f.attrib.lastTxcmdsz =
      f.attrib.hdrlen + f.attrib.ivLen + 8 + f.attrib.swIcv + pkt.payload.length)
    (h : Holds f.mem (f.bufAddr + hwHdrOffset f) (hdr.take f.attrib.hdrlen ++
      (f.attrib.iv.take f.attrib.ivLen ++ rtwPutSnap f.attrib.etherType ++ pkt.payload ++
        f.attrib.icvTail))) :
    ∃ m n, xmitframeAddmic e.sec e.fragLen f =
        some { f with mem := m, attrib := { f.attrib with lastTxcmdsz := n } } ∧
      n = f.attrib.hdrlen + f.attrib.ivLen + (msduBody e f.attrib pkt).length + f.attrib.swIcv ∧
      Holds m (f.bufAddr + hwHdrOffset f) (hdr.take f.attrib.hdrlen ++
        f.attrib.iv.take f.attrib.ivLen ++ msduBody e f.attrib pkt) := by
  have hbounds := hp.hdrlen_bounds
  have hhdr := (hd.take hbounds.1 hbounds.2).1
  have hplain : Holds f.mem (f.bufAddr + hwHdrOffset f) (hdr.take f.attrib.hdrlen ++
      f.attrib.iv.take f.attrib.ivLen ++ (rtwPutSnap pkt.hProto ++ pkt.payload)) := by
    rw [hp.etherType] at h
    refine @ByteMemory.Holds.left _ _ _ _ f.attrib.icvTail ?_
    simpa only [List.append_assoc] using h
  rw [length_msduBody]
  unfold xmitframeAddmic msduBody micTail
  cases Decidable.em (f.attrib.encrypt = .tkip) with
  | inl htkip =>
    have haddrs := @micAddrs_eq _ _ _ _ (f.bufAddr + hwHdrOffset f) hd (by
      have htake := hplain.left.left.take 24
      rwa [List.take_take, Nat.min_eq_left hbounds.1] at htake)
    have hstart : (hdr.take f.attrib.hdrlen ++ f.attrib.iv.take f.attrib.ivLen).length =
        f.attrib.hdrlen + f.attrib.ivLen := by
      rw [List.length_append, hhdr, hp.iv]
    have hdata := hplain.right
    rw [hstart, ← Nat.add_assoc] at hdata
    have hsize : (rtwPutSnap pkt.hProto ++ pkt.payload).length = 8 + pkt.payload.length := by
      rw [List.length_append, length_rtwPutSnap]
    have hloop := fun d => @addmicLoop_one _ _ e.fragLen f.attrib.lastTxcmdsz _ d _ halign
      (by omega) hdata
    rw [← hfrags] at hloop
    rw [if_pos htkip, if_pos htkip, if_pos htkip, if_neg (hkey htkip)]
    refine ⟨_, f.attrib.lastTxcmdsz + 8, rfl, by omega, ?_⟩
    rw [hloop, haddrs.1, haddrs.2, micPriority_eq hprio]
    have hwrite := @ByteMemory.Holds.write_end _ _ _ (f.bufAddr + hwHdrOffset f + f.attrib.hdrlen +
      f.attrib.ivLen + (rtwPutSnap pkt.hProto ++ pkt.payload).length) _ (michael
        (micKey e.sec f.attrib) f.attrib.dst (frameSa e f.attrib) (UInt8.ofNat f.attrib.priority)
        (rtwPutSnap pkt.hProto ++ pkt.payload)) hplain (by
          rw [hsize, List.length_append, hstart, hsize]
          omega)
    simpa only [michael, MicData.append_append, List.append_assoc] using hwrite
  | inr htkip =>
    rw [if_neg htkip, if_neg htkip, if_neg htkip]
    refine ⟨f.mem, f.attrib.lastTxcmdsz, rfl, by omega, by simpa using hplain⟩

theorem xmitframeSwencrypt_single {c : SwCipher} {f : XmitFrame} {head body : List UInt8}
    (hfrags : f.attrib.nrFrags = 1) (hicv : f.attrib.icvLen = icvLength f.attrib.encrypt)
    (hhead : head.length = f.attrib.hdrlen + f.attrib.ivLen)
    (hlast : f.attrib.lastTxcmdsz =
      f.attrib.hdrlen + f.attrib.ivLen + body.length + f.attrib.swIcv)
    (h : Holds f.mem (f.bufAddr + hwHdrOffset f) (head ++ body)) :
    ∃ m, xmitframeSwencrypt c e.sec e.fragLen f = { f with mem := m } ∧
      Holds m (f.bufAddr + hwHdrOffset f) (protect c e f.attrib head body) := by
  have htake : head.take (f.attrib.hdrlen + f.attrib.ivLen) = head := by
    rw [← hhead, List.take_length]
  unfold xmitframeSwencrypt protect
  dsimp only
  rw [htake]
  cases Decidable.em ((f.attrib.bswenc && swEncrypts f.attrib.encrypt) = true) with
  | inl hsw =>
    refine ⟨_, if_pos hsw, ?_⟩
    have hbody := h.right
    rw [hhead, ← Nat.add_assoc] at hbody
    have hlen : fragPayload f.attrib e.fragLen f.attrib.lastTxcmdsz f.attrib.icvLen 0 =
        body.length := by
      have hicvSw : f.attrib.swIcv = f.attrib.icvLen := if_pos (Bool.and_eq_true_iff.mp hsw).1
      rw [fragPayload, if_pos rfl]
      omega
    rw [if_pos hsw, hfrags]
    simp only [swencryptLoop, hlen, hbody.read, h.left.read_eq hhead.symm]
    exact h.left.write_end (by omega)
  | inr hsw =>
    rw [if_neg hsw, if_neg hsw]
    exact ⟨f.mem, rfl, h⟩

theorem rtwDumpXframe_single {txdesc : ℕ → Vector UInt8 40} {bufAddr : ℕ} {mpdu : List UInt8}
    (hlen : mpdu.length = p.lastTxcmdsz) (h : Holds m (bufAddr + 48) mpdu) :
    rtwDumpXframe e p txdesc 1 bufAddr bufAddr m = [mpdu] := by
  have hread : ∀ (m' : Mem UInt8) a k, a + k = bufAddr + 48 →
      (∀ i ≥ bufAddr + 48, m' i = m i) →
        (read m' a (p.lastTxcmdsz + k)).drop (p.lastTxcmdsz + k - p.lastTxcmdsz) = mpdu := by
    intro m' a k hak hkeep
    rw [Nat.add_sub_cancel_left, Nat.add_comm, drop_read, hak]
    refine Holds.read_eq (fun i hi => ?_) hlen.symm
    rw [hkeep _ (by omega), h i hi]
  simp only [rtwDumpXframe, dumpSz, if_pos, List.cons.injEq, and_true]
  cases urbZeroPacketChk e p.lastTxcmdsz
  · refine hread _ (bufAddr + 8) 40 (by omega) fun i hi => write_above m ?_
    simp only [Bool.not_false, if_true, Vector.length_toList]
    omega
  · refine hread _ bufAddr 48 rfl fun i hi => write_above m ?_
    simp only [Bool.not_true, Vector.length_toList]
    simp
    omega

theorem mpdu_header (hd : DataHdr e p hdr) (hlen : 24 ≤ p.hdrlen) (rest : List UInt8) :
    fragNum (hdr.take p.hdrlen ++ rest) = 0 ∧ moreFrag (hdr.take p.hdrlen ++ rest) = false := by
  have hsize : 24 ≤ (hdr.take p.hdrlen).length := by
    rw [List.length_take, hd.length]
    omega
  constructor
  · rw [fragNum, Recv.byteAt_append _ _ (by omega), Recv.byteAt_take _ (by omega)]
    exact hd.fragNum
  · have hone : (hdr.take p.hdrlen ++ rest).getD 1 0 = hdr.getD 1 0 := by
      simp only [List.getD_eq_getElem?_getD]
      rw [List.getElem?_append_left (by omega), List.getElem?_take_of_lt (by omega)]
    rw [moreFrag, hone, hd.noMoreFrag]
    rfl

theorem numbered_singleton {mpdu : List UInt8} (hnum : fragNum mpdu = 0)
    (hmore : moreFrag mpdu = false) : Numbered [mpdu] :=
  ⟨by simp [hnum], by simp [hmore]⟩

theorem micKey_unicast {sec : SecurityPriv} (hra : isMcast p.ra = false) :
    micKey sec p = p.tkipTxMicKey.take 16 := by
  rw [micKey, hra]
  rfl

theorem xmitframeAddmic_some {sec : SecurityPriv} {fragLen : ℕ} {f : XmitFrame}
    (hkey : f.attrib.encrypt = .tkip → micKey sec f.attrib ≠ List.replicate 16 0) :
    ∃ f', xmitframeAddmic sec fragLen f = some f' := by
  unfold xmitframeAddmic
  cases Decidable.em (f.attrib.encrypt = .tkip) with
  | inl htkip =>
    rw [if_pos htkip, if_neg (hkey htkip)]
    exact ⟨_, rfl⟩
  | inr htkip => exact ⟨_, if_neg htkip⟩

theorem mpduLen_eq (hp : DataAttrib e pkt p) (frgLen k : ℕ) :
    p.mpduLen frgLen k =
      frgLen - p.hdrlen - p.ivLen - (if k = 0 then 8 else 0) - p.swIcv := by
  rw [PktAttrib.mpduLen, length_llc, hp.length_icvTail]

theorem mpduLen_pos (hp : DataAttrib e pkt p) {fragLen : ℕ} (hmin : 256 ≤ fragLen) (k : ℕ) :
    0 < p.mpduLen (fragLen - 4) k := by
  have hbounds := hp.hdrlen_bounds
  have hiv := hp.ivLen
  have hicv : p.swIcv ≤ 16 := by
    have hle := hp.icvLen_le
    unfold PktAttrib.swIcv
    split <;> omega
  rw [mpduLen_eq hp]
  split <;> omega

theorem length_protect (hp : DataAttrib e pkt p) {mpdu body : List UInt8}
    (hhead : p.hdrlen + p.ivLen ≤ mpdu.length) :
    (protect c e p mpdu body).length = p.hdrlen + p.ivLen + body.length + p.swIcv := by
  have hicv := hp.icvLen
  unfold protect PktAttrib.swIcv
  rw [List.length_append, List.length_take, Nat.min_eq_left hhead, Nat.add_assoc _ body.length]
  refine congrArg _ ?_
  cases hsw : p.bswenc
  · rfl
  · cases henc : p.encrypt <;>
      simp_all [swEncrypts, icvLength, c.length_crypt]

def plainMpdu (p : PktAttrib) (hdr : List UInt8) (pkt : EthPkt) : List UInt8 :=
  hdr.take p.hdrlen ++
    (p.iv.take p.ivLen ++ rtwPutSnap p.etherType ++ pkt.payload ++ p.icvTail)

theorem length_plainMpdu (hp : DataAttrib e pkt p) (hd : DataHdr e p hdr) :
    (plainMpdu p hdr pkt).length = p.hdrlen + p.ivLen + 8 + pkt.payload.length + p.swIcv := by
  have hbounds := hp.hdrlen_bounds
  simp only [plainMpdu, List.length_append, (hd.take hbounds.1 hbounds.2).1, hp.iv,
    length_rtwPutSnap, hp.length_icvTail]
  omega

theorem plainMpdu_head (hp : DataAttrib e pkt p) (hd : DataHdr e p hdr) :
    (plainMpdu p hdr pkt).take (p.hdrlen + p.ivLen) = hdr.take p.hdrlen ++ p.iv.take p.ivLen := by
  have hbounds := hp.hdrlen_bounds
  have hhead : (hdr.take p.hdrlen ++ p.iv.take p.ivLen).length = p.hdrlen + p.ivLen := by
    rw [List.length_append, (hd.take hbounds.1 hbounds.2).1, hp.iv]
  simp only [plainMpdu, List.append_assoc]
  rw [← List.append_assoc, List.take_left' hhead]

theorem protect_header (hp : DataAttrib e pkt p) (hd : DataHdr e p hdr) (body : List UInt8) :
    ∃ rest, protect c e p (plainMpdu p hdr pkt) body = hdr.take p.hdrlen ++ rest := by
  unfold protect
  rw [plainMpdu_head hp hd]
  exact ⟨_, List.append_assoc ..⟩

theorem coalesce_eq {f f' : XmitFrame} {psta : Option XmitSta} {psta' : XmitSta} {l : Layout}
    (hmake : rtwMakeWlanhdr e psta f.attrib = some (hdr, psta'))
    (hl : layFragments f.attrib (e.fragLen - 4) (hwHdrOffset f) (f.bufAddr + hwHdrOffset f)
      (pkt.payload.length + 1) (write f.mem (f.bufAddr + hwHdrOffset f) hdr)
      (f.bufAddr + hwHdrOffset f) 0 pkt.payload = some l)
    (hmic : xmitframeAddmic e.sec e.fragLen { f with
      mem := l.mem
      attrib := { f.attrib with nrFrags := l.frags.length, lastTxcmdsz := l.lastTxcmdsz } } =
        some f') :
    rtwXmitframeCoalesce c e psta pkt f = some ⟨xmitframeSwencrypt c e.sec e.fragLen f', psta',
      l.frags.map fun k => read l.mem k.start k.size⟩ := by
  simp only [rtwXmitframeCoalesce, hmake, hl, hmic, Option.bind_eq_bind, Option.bind_some]

theorem coalesce_single {f : XmitFrame} {psta : Option XmitSta} {psta' : XmitSta}
    (hp : DataAttrib e pkt f.attrib) (hprio : f.attrib.qosEn = false → f.attrib.priority = 0)
    (hd : DataHdr e f.attrib hdr) (hmake : rtwMakeWlanhdr e psta f.attrib = some (hdr, psta'))
    (halign : (f.bufAddr + hwHdrOffset f) % 4 = 0)
    (hkey : f.attrib.encrypt = .tkip → micKey e.sec f.attrib ≠ List.replicate 16 0)
    (hdata : f.attrib.chunk (e.fragLen - 4) 0 pkt.payload = pkt.payload) :
    ∃ m n, rtwXmitframeCoalesce c e psta pkt f = some ⟨{ f with
          mem := m
          attrib := { f.attrib with nrFrags := 1, lastTxcmdsz := n } }, psta',
        [plainMpdu f.attrib hdr pkt]⟩ ∧
      n = f.attrib.hdrlen + f.attrib.ivLen + (msduBody e f.attrib pkt).length + f.attrib.swIcv ∧
      Holds m (f.bufAddr + hwHdrOffset f)
        (protect c e f.attrib (plainMpdu f.attrib hdr pkt) (msduBody e f.attrib pkt)) := by
  have hbounds := hp.hdrlen_bounds
  obtain ⟨hhdr, hmf⟩ := hd.take hbounds.1 hbounds.2
  obtain ⟨l, hl, hfrags, hlast, hlaid⟩ := @layFragments_single _ _ _ _ (e.fragLen - 4)
    (hwHdrOffset f) (f.bufAddr + hwHdrOffset f) pkt.payload.length _ _ _ hp
    ((holds_write f.mem (f.bufAddr + hwHdrOffset f) hdr).take f.attrib.hdrlen) hhdr hmf hdata
  have hone : l.frags.length = 1 := by
    rw [hfrags]
    rfl
  let f1 : XmitFrame := { f with
    mem := l.mem
    attrib := { f.attrib with nrFrags := l.frags.length, lastTxcmdsz := l.lastTxcmdsz } }
  obtain ⟨m, n, hmic, hn, hbody⟩ := @xmitframeAddmic_single _ _ hdr f1
    ⟨hp.hdrlen, hp.iv, hp.ivLen, hp.icvLen, hp.etherType, hp.pktlen⟩
    ⟨hd.length, hd.noMoreFrag, hd.fragNum, hd.addrs⟩ hone halign hprio hkey hlast hlaid
  have hhead : (hdr.take f.attrib.hdrlen ++ f.attrib.iv.take f.attrib.ivLen).length =
      f.attrib.hdrlen + f.attrib.ivLen := by
    rw [List.length_append, hhdr, hp.iv]
  obtain ⟨m', hsw, hmpdu⟩ := @xmitframeSwencrypt_single e c
    { f1 with mem := m, attrib := { f1.attrib with lastTxcmdsz := n } } _
    (msduBody e f.attrib pkt) hone hp.icvLen hhead hn hbody
  have hprotect : protect c e f.attrib (hdr.take f.attrib.hdrlen ++ f.attrib.iv.take f.attrib.ivLen)
      (msduBody e f.attrib pkt) =
        protect c e f.attrib (plainMpdu f.attrib hdr pkt) (msduBody e f.attrib pkt) := by
    unfold protect
    rw [plainMpdu_head hp hd, List.take_of_length_le (Nat.le_of_eq hhead)]
  refine ⟨m', n, (coalesce_eq hmake hl hmic).trans ?_, hn, hprotect ▸ hmpdu⟩
  rw [hsw]
  change some (⟨{ f with
      mem := m'
      attrib := { f.attrib with nrFrags := l.frags.length, lastTxcmdsz := n } }, psta',
    l.frags.map fun k => read l.mem k.start k.size⟩ : Coalesced) = _
  rw [hone, hfrags, List.map_cons, List.map_nil]
  dsimp only
  rw [Holds.read_eq hlaid (length_plainMpdu hp hd).symm]
  rfl

structure Sendable (e : XmitEnv) (p : PktAttrib) : Prop where
  opMode : e.opMode ≠ .other
  micKey : p.encrypt = .tkip → p.tkipTxMicKey.take 16 ≠ List.replicate 16 0

structure XmitFrame.Fresh (f : XmitFrame) : Prop where
  aligned : f.bufAddr % 4 = 0
  pktOffset : f.pktOffset = 1

section Transmit

variable {sec : SecContext} {psta : XmitSta} {userPriority : Fin 16}
  {txdesc : ℕ → Vector UInt8 40} {f : XmitFrame} {u : Updated} {psta' : XmitSta}

theorem transmit_some {r : Coalesced}
    (hu : updateAttrib e sec psta userPriority pkt f.attrib = some u)
    (hr : rtwXmitframeCoalesce c e (some u.psta) pkt { f with attrib := u.attrib } = some r) :
    transmit c e sec psta userPriority txdesc pkt f = some ⟨u.attrib, r.laid,
      rtwDumpXframe e r.frame.attrib txdesc r.frame.attrib.nrFrags r.frame.bufAddr r.frame.bufAddr
        r.frame.mem⟩ := by
  simp only [transmit, hu, hr, Option.bind_eq_bind, Option.bind_some]

structure OneMpdu (c : SwCipher) (e : XmitEnv) (u : PktAttrib) (pkt : EthPkt) (t : Transmission)
    (mpdu : List UInt8) : Prop where
  attrib : t.attrib = u
  laid : t.laid = [mpdu]
  handed : t.handed = [protect c e u mpdu (msduBody e u pkt)]
  size : (protect c e u mpdu (msduBody e u pkt)).length =
    u.hdrlen + u.ivLen + (msduBody e u pkt).length + u.swIcv
  head : u.hdrlen + u.ivLen ≤ mpdu.length
  mpduNumber : fragNum mpdu = 0 ∧ moreFrag mpdu = false
  handedNumber : fragNum (protect c e u mpdu (msduBody e u pkt)) = 0 ∧
    moreFrag (protect c e u mpdu (msduBody e u pkt)) = false

theorem transmit_single (hu : updateAttrib e sec psta userPriority pkt f.attrib = some u)
    (hp : DataAttrib e pkt u.attrib) (hprio : u.attrib.qosEn = false → u.attrib.priority = 0)
    (hra : isMcast u.attrib.ra = false) (hsend : Sendable e u.attrib) (hf : f.Fresh)
    (hd : DataHdr e u.attrib hdr)
    (hmake : rtwMakeWlanhdr e (some u.psta) u.attrib = some (hdr, psta'))
    (hfit : pkt.payload.length ≤ u.attrib.mpduLen (e.fragLen - 4) 0) :
    ∃ t mpdu, transmit c e sec psta userPriority txdesc pkt f = some t ∧
      OneMpdu c e u.attrib pkt t mpdu := by
  have hbounds := hp.hdrlen_bounds
  have hwo : hwHdrOffset f = 48 := by rw [hwHdrOffset, hf.pktOffset]
  have hkeep : micKey e.sec u.attrib = u.attrib.tkipTxMicKey.take 16 := micKey_unicast hra
  obtain ⟨m, n, hr, hn, hmpdu⟩ := @coalesce_single c _ _ _ { f with attrib := u.attrib } _ _ hp
    hprio hd hmake (by
      have halign := hf.aligned
      change (f.bufAddr + hwHdrOffset f) % 4 = 0
      omega) (hkeep ▸ hsend.micKey) (chunk_unicast hra hfit)
  have hsize := length_plainMpdu hp hd
  have hprotectSize := @length_protect c e _ _ hp (plainMpdu u.attrib hdr pkt)
    (msduBody e u.attrib pkt) (by omega)
  have hdump : rtwDumpXframe e { u.attrib with nrFrags := 1, lastTxcmdsz := n } txdesc 1 f.bufAddr
      f.bufAddr m = [protect c e u.attrib (plainMpdu u.attrib hdr pkt) (msduBody e u.attrib pkt)] := by
    refine rtwDumpXframe_single (hprotectSize.trans hn.symm) ?_
    rw [← hwo]
    exact hmpdu
  obtain ⟨rest, hrest⟩ := @protect_header c e _ _ hdr hp hd (msduBody e u.attrib pkt)
  refine ⟨_, plainMpdu u.attrib hdr pkt, transmit_some hu hr, rfl, rfl, hdump, hprotectSize, by omega,
    mpdu_header hd hbounds.1 _, ?_⟩
  rw [hrest]
  exact mpdu_header hd hbounds.1 _

theorem transmit_several (hu : updateAttrib e sec psta userPriority pkt f.attrib = some u)
    (hp : DataAttrib e pkt u.attrib) (hra : isMcast u.attrib.ra = false)
    (hsend : Sendable e u.attrib) (hd : DataHdr e u.attrib hdr)
    (hmake : rtwMakeWlanhdr e (some u.psta) u.attrib = some (hdr, psta'))
    (hpos : ∀ k, 0 < u.attrib.mpduLen (e.fragLen - 4) k)
    (hbig : u.attrib.mpduLen (e.fragLen - 4) 0 < pkt.payload.length) :
    ∃ t, transmit c e sec psta userPriority txdesc pkt f = some t ∧ ¬Numbered t.laid := by
  have hbounds := hp.hdrlen_bounds
  have hkeep : micKey e.sec u.attrib = u.attrib.tkipTxMicKey.take 16 := micKey_unicast hra
  obtain ⟨l, f0, f1, rest, hl, hfrags, hseq, hsize⟩ := @layFragments_several _
    (write f.mem (f.bufAddr + hwHdrOffset f) hdr) _ (hwHdrOffset f) (pkt.payload.length + 1)
    (f.bufAddr + hwHdrOffset f) _ hra hbounds.1 hpos (by omega) hbig
  obtain ⟨f', hmic⟩ := @xmitframeAddmic_some e.sec e.fragLen { f with
    mem := l.mem
    attrib := { u.attrib with nrFrags := l.frags.length, lastTxcmdsz := l.lastTxcmdsz } }
    (hkeep ▸ hsend.micKey)
  refine ⟨_, transmit_some hu (coalesce_eq hmake hl hmic), fun hnum => ?_⟩
  have hcopied : fragNum (read l.mem f1.start f1.size) = 0 := by
    have hbyte : (read l.mem f1.start f1.size).getD 22 0 = hdr.getD 22 0 := by
      rw [List.getD_eq_getElem?_getD, List.getD_eq_getElem?_getD,
        List.getElem?_eq_getElem (by simpa using by omega),
        List.getElem?_eq_getElem (by rw [hd.length]; omega)]
      simpa [ByteMemory.read, hseq] using write_inside f.mem _
    rw [fragNum, byteAt, hbyte]
    exact hd.fragNum
  have hone := hnum.fragNum
  dsimp only at hone
  rw [hfrags] at hone
  simp [hcopied, List.range_succ_eq_map] at hone

theorem fragmented_of_one {t : Transmission} {mpdu : List UInt8}
    (ht : OneMpdu c e p pkt t mpdu) : Fragmented c e pkt t ↔
      p.hdrlen + p.ivLen + (msduBody e p pkt).length + p.swIcv ≤ e.fragLen := by
  constructor
  · intro h
    rw [← ht.size]
    exact h.bounded _ (by simp [ht.handed])
  · intro hle
    refine ⟨?_, ?_, ?_, [msduBody e p pkt], ?_, ?_, ?_⟩
    · rw [ht.laid]
      exact numbered_singleton ht.mpduNumber.1 ht.mpduNumber.2
    · rw [ht.handed]
      exact numbered_singleton ht.handedNumber.1 ht.handedNumber.2
    · intro x hx
      rw [ht.handed, List.mem_singleton] at hx
      rw [hx, ht.size]
      exact hle
    · rw [ht.laid]
      rfl
    · rw [ht.handed, ht.laid, ht.attrib]
      rfl
    · rw [ht.attrib]
      simp [msduBody]

theorem reassembled_of_one {t : Transmission} {mpdu : List UInt8} (ht : OneMpdu c e p pkt t mpdu) :
    Reassembled c e pkt t := by
  intro bodies hb crypto a fs hfs
  obtain ⟨body, rfl⟩ := List.length_eq_one_iff.mp (hb.length.trans (by rw [ht.laid]; rfl))
  rw [ht.handed, ht.attrib, List.zip_cons_cons, List.zip_nil_right] at hfs
  obtain _ | @⟨_, f, _, _, harrive, hnil⟩ := hfs
  cases hnil
  obtain ⟨icv, hdata, hicv⟩ := harrive.data
  have hwhole : f.attrib.mfrag = false ∧ f.attrib.fragNum = 0 :=
    ⟨harrive.mfrag.trans ht.handedNumber.2, Fin.ext (harrive.fragNum.trans ht.handedNumber.1)⟩
  have hsize := ht.size
  refine ⟨a, f, _, icv, if_pos hwhole, by simpa using hdata, ?_, hicv⟩
  rw [ht.attrib, List.length_take]
  omega

theorem fragmentation_law (c : SwCipher) (e : XmitEnv) (sec : SecContext) (psta : XmitSta)
    (userPriority : Fin 16) (txdesc : ℕ → Vector UInt8 40) (pkt : EthPkt) (f : XmitFrame)
    (u : Updated) (hmin : 256 ≤ e.fragLen) (hf : f.Fresh)
    (hqos : e.opMode = .station → e.qosOption = true → psta.qosOption = true)
    (hu : updateAttrib e sec psta userPriority pkt f.attrib = some u)
    (hra : isMcast u.attrib.ra = false) (hsend : Sendable e u.attrib) :
    ∃ t, transmit c e sec psta userPriority txdesc pkt f = some t ∧
      (Fragmented c e pkt t ↔ FitsOneMpdu e u.attrib pkt) ∧
      (Fragmented c e pkt t → Reassembled c e pkt t) := by
  obtain ⟨hp, hasoc⟩ := updateAttrib_spec hsend.opMode hu
  obtain ⟨hdr, psta', hmake, hd⟩ := rtwMakeWlanhdr_spec hp.hdrlen hsend.opMode hasoc
  have hpos := mpduLen_pos hp hmin 0
  rw [mpduLen_eq hp, if_pos rfl] at hpos
  cases Decidable.em (pkt.payload.length ≤ u.attrib.mpduLen (e.fragLen - 4) 0) with
  | inl hfit =>
    obtain ⟨t, mpdu, ht, hone⟩ := @transmit_single c _ _ _ _ _ _ txdesc _ _ _ hu hp
      (updateAttrib_priority hsend.opMode hqos hu) hra hsend hf hd hmake hfit
    refine ⟨t, ht, (fragmented_of_one hone).trans ?_, fun _ => reassembled_of_one hone⟩
    rw [mpduLen_eq hp, if_pos rfl] at hfit
    rw [length_msduBody, FitsOneMpdu]
    split <;> omega
  | inr hfit =>
    obtain ⟨t, ht, hnum⟩ := @transmit_several c _ _ _ _ _ _ txdesc _ _ _ hu hp hra hsend hd hmake
      (mpduLen_pos hp hmin) (by omega)
    have hnot : ¬Fragmented c e pkt t := fun h => hnum h.laid
    refine ⟨t, ht, iff_of_false hnot ?_, fun h => absurd h hnot⟩
    rw [mpduLen_eq hp, if_pos rfl] at hfit
    rw [FitsOneMpdu]
    split <;> omega

end Transmit

end Single

def exampleCipher : SwCipher where
  crypt e _ _ _ payload := payload ++ List.replicate (icvLength e) 0
  length_crypt := by simp

def exampleEnv : XmitEnv where
  opMode := .station
  macAddr := localAddr 1
  bssid := localAddr 2
  qosOption := true
  sec := SecurityPriv.zero
  fragLen := 256
  usbBulkOutSize := 512

def exampleSec : SecContext := ⟨false, false, false, .nonEapol⟩

def exampleSta : XmitSta :=
  { StaInfo.rtwAllocStainfo (localAddr 2) with asoc := true, qosOption := true }

def examplePkt (n : ℕ) : EthPkt :=
  ⟨localAddr 9, localAddr 1, 0x86dd, List.replicate n 0⟩

def exampleXmitFrame : XmitFrame := ⟨PktAttrib.zero, 512, 1, fun _ => 0⟩

def exampleDesc : ℕ → Vector UInt8 40 := fun _ => Vector.replicate 40 0

theorem fragmentation_law_single :
    ∃ t, transmit exampleCipher exampleEnv exampleSec exampleSta 5 exampleDesc (examplePkt 100)
      exampleXmitFrame = some t ∧ Fragmented exampleCipher exampleEnv (examplePkt 100) t ∧
        Reassembled exampleCipher exampleEnv (examplePkt 100) t := by
  obtain ⟨u, hu⟩ : ∃ u, updateAttrib exampleEnv exampleSec exampleSta 5 (examplePkt 100)
      exampleXmitFrame.attrib = some u := ⟨_, rfl⟩
  have hu' := hu
  obtain rfl := Option.some.inj hu'
  obtain ⟨t, ht, hiff, hre⟩ := fragmentation_law exampleCipher exampleEnv exampleSec exampleSta 5
    exampleDesc (examplePkt 100) exampleXmitFrame _ (by decide) ⟨by decide, by decide⟩
    (by decide) hu (by decide) ⟨by decide, by decide⟩
  exact ⟨t, ht, hiff.mpr (by decide), hre (hiff.mpr (by decide))⟩

theorem second_fragment_repeats_number :
    ∃ t, transmit exampleCipher exampleEnv exampleSec exampleSta 5 exampleDesc (examplePkt 300)
      exampleXmitFrame = some t ∧ ¬Fragmented exampleCipher exampleEnv (examplePkt 300) t := by
  obtain ⟨u, hu⟩ : ∃ u, updateAttrib exampleEnv exampleSec exampleSta 5 (examplePkt 300)
      exampleXmitFrame.attrib = some u := ⟨_, rfl⟩
  have hmode : exampleEnv.opMode ≠ .other := by decide
  obtain ⟨hp, hasoc⟩ := updateAttrib_spec hmode hu
  obtain ⟨hdr, psta', hmake, hd⟩ := rtwMakeWlanhdr_spec hp.hdrlen hmode hasoc
  have hu' := hu
  obtain rfl := Option.some.inj hu'
  obtain ⟨t, ht, hnum⟩ := @transmit_several exampleCipher _ _ _ _ _ _ exampleDesc _ _ _ hu hp
    (by decide) ⟨hmode, by decide⟩ hd hmake (mpduLen_pos hp (by decide)) (by decide +kernel)
  exact ⟨t, ht, fun h => hnum h.laid⟩

end Xmit
