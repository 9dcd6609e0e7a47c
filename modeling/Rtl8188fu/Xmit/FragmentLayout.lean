import Rtl8188fu.Recv.Defrag
import Rtl8188fu.Xmit.Coalesce

namespace Xmit

open Recv (MacAddr SecurityType byteAt isMcast)
open ByteMemory

variable {e : XmitEnv} {p : PktAttrib} {m : Mem UInt8} {hdr : List UInt8}

structure DataAttrib (e : XmitEnv) (pkt : EthPkt) (p : PktAttrib) : Prop where
  hdrlen : p.hdrlen = if hdrQos e p then 26 else 24
  iv : (p.iv.take p.ivLen).length = p.ivLen
  ivLen : p.ivLen ≤ 8
  icvLen : p.icvLen = icvLength p.encrypt
  etherType : p.etherType = pkt.hProto
  pktlen : p.pktlen = pkt.payload.length

theorem secIv_lengths (sec : SecurityPriv) (psta : StaInfo) (bmcast : Bool) (p : PktAttrib) :
    let r := (secIv sec psta bmcast p).attrib
    (secIv sec psta bmcast p).pass = true →
      (r.iv.take r.ivLen).length = r.ivLen ∧ r.ivLen ≤ 8 ∧ r.icvLen = icvLength r.encrypt ∧
        r.etherType = p.etherType ∧ r.pktlen = p.pktlen := by
  intro r hpass
  revert hpass
  simp only [r, secIv]
  cases p.encrypt <;> simp [icvLength, wepIv, aesIv]
  split <;> simp [tkipIv]

theorem nextPn_le (limit pn : ℕ) : nextPn limit pn ≤ pn + 1 := by
  unfold nextPn
  split <;> omega

theorem secIv_psta (sec : SecurityPriv) (psta : StaInfo) (bmcast : Bool) (p : PktAttrib) :
    ∃ pn ≤ psta.dot11txpn + 1,
      (secIv sec psta bmcast p).psta = { psta with dot11txpn := pn } := by
  unfold secIv
  cases p.encrypt
  all_goals first
    | exact ⟨_, nextPn_le _ _, rfl⟩
    | exact ⟨_, Nat.le_succ _, rfl⟩
    | skip
  dsimp only
  split
  · exact ⟨_, Nat.le_succ _, rfl⟩
  · exact ⟨_, nextPn_le _ _, rfl⟩

theorem addrResolve_keeps (e : XmitEnv) (pkt : EthPkt) (p : PktAttrib) :
    (addrResolve e pkt p).etherType = p.etherType ∧ (addrResolve e pkt p).pktlen = p.pktlen := by
  unfold addrResolve
  cases e.opMode <;> exact ⟨rfl, rfl⟩

section UpdateAttrib

variable {c : SecContext} {psta : XmitSta} {prio : Fin 16} {pkt : EthPkt} {u : Updated}

theorem updateAttrib_spec (hmode : e.opMode ≠ .other)
    (h : updateAttrib e c psta prio pkt p = some u) :
    DataAttrib e pkt u.attrib ∧ u.psta.asoc = true := by
  obtain ⟨hasoc, hpass, hpsta, subtype, prio', hp, -⟩ := updateAttrib_some h
  obtain ⟨enc, kid, key, micKey, ukey, -, hiv, hr⟩ := updateAttribSecInfo_pass hpass
  have hlen := secIv_lengths e.sec psta.sta _ _ hiv
  have hqen : hdrQos e u.attrib = usesQos e psta := by
    rw [hp]
    cases hm : e.opMode <;> simp_all [hdrQos, usesQos]
  refine ⟨⟨?_, ?_, ?_, ?_, ?_, ?_⟩, ?_⟩
  · rw [hqen, hp]
  · rw [hp, hr]
    exact hlen.1
  · rw [hp, hr]
    exact hlen.2.1
  · rw [hp, hr]
    exact hlen.2.2.1
  · rw [hp, hr]
    exact hlen.2.2.2.1.trans (addrResolve_keeps ..).1
  · rw [hp, hr]
    exact hlen.2.2.2.2
  · obtain ⟨pn, -, hpn⟩ := secIv_psta e.sec psta.sta (isMcast (secAttrib e pkt p).ra)
      { secAttrib e pkt p with
        encrypt := enc, keyIdx := kid, uncstKey := key, tkipTxMicKey := micKey }
    rw [hpsta, hr, hpn]
    exact hasoc

theorem updateAttrib_priority (hmode : e.opMode ≠ .other)
    (hqos : e.opMode = .station → e.qosOption = true → psta.qosOption = true)
    (h : updateAttrib e c psta prio pkt p = some u) (hno : u.attrib.qosEn = false) :
    u.attrib.priority = 0 := by
  obtain ⟨-, -, -, subtype, prio', hp, hprio⟩ := updateAttrib_some h
  rw [hp] at hno ⊢
  refine hprio ?_
  cases hm : e.opMode <;> simp_all [usesQos]

end UpdateAttrib

structure DataHdr (e : XmitEnv) (p : PktAttrib) (hdr : List UInt8) : Prop where
  length : hdr.length = 64
  noMoreFrag : hdr.getD 1 0 &&& 0x04 = 0
  fragNum : byteAt hdr 22 % 16 = 0
  addrs : ∃ ds a1 a2 a3, hdrAddrs e p = some (ds, a1, a2, a3) ∧
    hdr.getD 1 0 &&& 0x03 = ds ∧ (hdr.drop 4).take 18 = a1.toList ++ a2.toList ++ a3.toList

theorem DataHdr.take (hd : DataHdr e p hdr) {n : ℕ} (hlow : 24 ≤ n) (hhigh : n ≤ 26) :
    (hdr.take n).length = n ∧ (hdr.take n).getD 1 0 &&& 0x04 = 0 := by
  constructor
  · rw [List.length_take, hd.length]
    omega
  · rw [List.getD_eq_getElem?_getD, List.getElem?_take_of_lt (by omega),
      ← List.getD_eq_getElem?_getD]
    exact hd.noMoreFrag

theorem macAddr_toList (a : MacAddr) : a.toList =
    [a.get 0, a.get 1, a.get 2, a.get 3, a.get 4, a.get 5] := by
  refine List.ext_getElem (by simp) fun i hi _ => ?_
  have hi : i < 6 := by simpa using hi
  obtain rfl | rfl | rfl | rfl | rfl | rfl :
      i = 0 ∨ i = 1 ∨ i = 2 ∨ i = 3 ∨ i = 4 ∨ i = 5 := by omega
  all_goals simp only [List.getElem_cons_zero, List.getElem_cons_succ, Vector.getElem_toList]
  all_goals rfl

theorem rtwMakeWlanhdr_spec {psta : XmitSta} (hlen : p.hdrlen = if hdrQos e p then 26 else 24)
    (hmode : e.opMode ≠ .other) (hasoc : psta.asoc = true) :
    ∃ hdr psta', rtwMakeWlanhdr e (some psta) p = some (hdr, psta') ∧ DataHdr e p hdr := by
  have haddr : ∃ ds a1 a2 a3, hdrAddrs e p = some (ds, a1, a2, a3) ∧
      (ds = 0x01 ∨ ds = 0x02 ∨ ds = 0x00) := by
    unfold hdrAddrs
    cases hm : e.opMode
    · exact ⟨_, _, _, _, rfl, .inl rfl⟩
    · exact ⟨_, _, _, _, rfl, .inr (.inl rfl)⟩
    · exact ⟨_, _, _, _, rfl, .inr (.inr rfl)⟩
    · exact absurd hm hmode
  obtain ⟨ds, a1, a2, a3, haddr, hds⟩ := haddr
  let flags := ds ||| (if p.mdata then 0x20 else 0) ||| (if p.encrypt ≠ .noPrivacy then 0x40 else 0)
  have hflags : flags &&& 0x04 = 0 ∧ flags &&& 0x03 = ds := by
    have hall : ∀ x y z : UInt8, x = 0x01 ∨ x = 0x02 ∨ x = 0x00 → y = 0x20 ∨ y = 0 →
        z = 0x40 ∨ z = 0 → (x ||| y ||| z) &&& 0x04 = 0 ∧ (x ||| y ||| z) &&& 0x03 = x := by
      rintro x y z (rfl | rfl | rfl) (rfl | rfl) (rfl | rfl)
      all_goals decide
    refine hall ds _ _ hds ?_ ?_
    · split <;> simp
    · split <;> simp
  let seq := (psta.txseqTid p.priority + 1) % 4096
  let hdr := blankHdr (UInt8.ofNat p.subtype) flags a1 a2 a3
  have hmake : rtwMakeWlanhdr e (some psta) p = some
      (setSeqNum (if hdrQos e p then hdr.set (p.hdrlen - 2) (qosControl p) else hdr) seq,
        { psta with txseqTid := fun i => if i = p.priority then seq else psta.txseqTid i }) := by
    unfold rtwMakeWlanhdr
    rw [haddr]
    dsimp only
    rw [if_neg (by simp [hasoc])]
  have hseq : (0 &&& 0x0f ||| UInt8.ofNat (seq * 16) : UInt8).toNat % 16 = 0 := by
    rw [UInt8.zero_and, UInt8.zero_or, UInt8.toNat_ofNat']
    omega
  refine ⟨_, _, hmake, ?_⟩
  cases hq : hdrQos e p
  · exact ⟨rfl, hflags.1, hseq, ds, a1, a2, a3, haddr, hflags.2, by simp [macAddr_toList]; rfl⟩
  · rw [hlen, hq]
    exact ⟨rfl, hflags.1, hseq, ds, a1, a2, a3, haddr, hflags.2, by simp [macAddr_toList]; rfl⟩

theorem rnd4_le (x : ℕ) : x ≤ rnd4 x := by
  unfold rnd4
  split <;> omega

theorem rnd4_of_aligned {x : ℕ} (h : x % 4 = 0) : rnd4 x = x := by
  rw [rnd4, if_pos h]
  omega

namespace DataAttrib

variable {pkt : EthPkt} (hp : DataAttrib e pkt p)

include hp

theorem hdrlen_bounds : 24 ≤ p.hdrlen ∧ p.hdrlen ≤ 26 := by
  rw [hp.hdrlen]
  split <;> omega

theorem icvLen_le : p.icvLen ≤ 16 := by
  rw [hp.icvLen]
  cases p.encrypt <;> decide

theorem length_icvTail : p.icvTail.length = p.swIcv := by
  have hle := hp.icvLen_le
  unfold PktAttrib.icvTail PktAttrib.swIcv
  cases Decidable.em (p.bswenc = true) with
  | inl hsw =>
    cases Decidable.em (0 < p.icvLen) with
    | inl hpos =>
      rw [if_pos ⟨hpos, hsw⟩, if_pos hsw]
      simpa using hle
    | inr hpos =>
      rw [if_neg (fun h => hpos h.1), if_pos hsw]
      simp only [List.length_nil]
      omega
  | inr hsw => rw [if_neg (fun h => hsw h.2), if_neg hsw, List.length_nil]

end DataAttrib

theorem length_llc (p : PktAttrib) (frgInx : ℕ) : (p.llc frgInx).length = if frgInx = 0 then 8 else 0 := by
  unfold PktAttrib.llc rtwPutSnap
  split
  · split <;> rfl
  · rfl

theorem putFragment_header (p : PktAttrib) (m : Mem UInt8) (memStart : ℕ) (llc data : List UInt8)
    {i : ℕ} (hi : i < memStart + p.hdrlen) (hmf : i ≠ memStart + 1) :
    (putFragment p m memStart llc data).mem i = m i := by
  unfold putFragment
  dsimp only
  rw [write_below _ _ (by omega), write_below _ _ (by omega), write_below _ _ (by omega),
    write_below _ _ (by omega), modify_ne _ _ hmf]

theorem putFragment_pframe (p : PktAttrib) (m : Mem UInt8) (memStart : ℕ) (llc data : List UInt8) :
    (putFragment p m memStart llc data).pframe =
      memStart + p.hdrlen + p.ivLen + llc.length + data.length + p.icvTail.length := rfl

theorem putFragment_holds {memStart : ℕ} {llc data : List UInt8} (h : Holds m memStart hdr)
    (hlen : hdr.length = p.hdrlen) (hpos : 2 ≤ hdr.length)
    (hiv : (p.iv.take p.ivLen).length = p.ivLen) :
    Holds (putFragment p m memStart llc data).mem memStart
      (hdr.set 1 (hdr[1] ||| 0x04) ++ p.iv.take p.ivLen ++ llc ++ data ++ p.icvTail) := by
  have h1 := h.modify_within (i := 1) (by omega) (· ||| 0x04)
  have h2 := @ByteMemory.Holds.write_end _ _ _ (memStart + p.hdrlen) _ (p.iv.take p.ivLen) h1
    (by simp [hlen])
  have h3 := @ByteMemory.Holds.write_end _ _ _ (memStart + p.hdrlen + p.ivLen) _ llc h2 (by
    rw [List.length_append, hiv]
    simp [hlen]
    omega)
  have h4 := @ByteMemory.Holds.write_end _ _ _ (memStart + p.hdrlen + p.ivLen + llc.length) _ data
    h3 (by
    rw [List.length_append, List.length_append, hiv]
    simp [hlen]
    omega)
  exact h4.write_end (by
    rw [List.length_append, List.length_append, List.length_append, hiv]
    simp [hlen]
    omega)

theorem putFragment_iv (p : PktAttrib) (m : Mem UInt8) (memStart : ℕ) (llc data : List UInt8) :
    Holds (putFragment p m memStart llc data).mem (memStart + p.hdrlen) (p.iv.take p.ivLen) := by
  have hle : (p.iv.take p.ivLen).length ≤ p.ivLen := List.length_take_le ..
  refine (holds_write (modify m (memStart + 1) (· ||| 0x04)) _ _).congr fun i hlow hhigh => ?_
  unfold putFragment
  dsimp only
  rw [write_below _ _ (by omega), write_below _ _ (by omega), write_below _ _ (by omega)]

structure Placement (p : PktAttrib) (m : Mem UInt8) (memStart : ℕ) (l : Layout) : Prop where
  below : ∀ i < memStart, l.mem i = m i
  ivs : ∀ frag ∈ l.frags, Holds l.mem (frag.start + p.hdrlen) (p.iv.take p.ivLen) ∧
    p.hdrlen + (p.iv.take p.ivLen).length ≤ frag.size
  seqCtl : l.mem (memStart + 22) = m (memStart + 22)
  first : ∃ frag rest, l.frags = frag :: rest ∧ frag.start = memStart ∧ 24 ≤ frag.size

theorem toggle_moreFrag {b : UInt8} (h : b &&& 0x04 = 0) : (b ||| 0x04) &&& 0xfb = b := by
  have hall : ∀ n : Fin 256, UInt8.ofNat n &&& 0x04 = 0 →
      (UInt8.ofNat n ||| 0x04) &&& 0xfb = UInt8.ofNat n := by
    decide +kernel
  have hb := hall ⟨b.toNat, b.toNat_lt⟩
  rw [UInt8.ofNat_toNat] at hb
  exact hb h

section Layout

variable {frgLen hwOffset hdrStart fuel memStart frgInx : ℕ} {pktfile : List UInt8}

theorem layFragments_last
    (h : isMcast p.ra = true ∨ pktfile.length ≤ (p.chunk frgLen frgInx pktfile).length) :
    layFragments p frgLen hwOffset hdrStart (fuel + 1) m memStart frgInx pktfile =
      let r := putFragment p m memStart (p.llc frgInx) (p.chunk frgLen frgInx pktfile)
      some ⟨modify r.mem (memStart + 1) (· &&& 0xfb), [⟨memStart, r.pframe - memStart⟩],
        p.hdrlen + p.ivLen + (p.llc frgInx).length + p.swIcv + r.memSz⟩ :=
  if_pos h

theorem layFragments_next
    (h : ¬(isMcast p.ra = true ∨ pktfile.length ≤ (p.chunk frgLen frgInx pktfile).length)) :
    layFragments p frgLen hwOffset hdrStart (fuel + 1) m memStart frgInx pktfile =
      let r := putFragment p m memStart (p.llc frgInx) (p.chunk frgLen frgInx pktfile)
      let next := rnd4 r.pframe + hwOffset
      (layFragments p frgLen hwOffset hdrStart fuel
        (write r.mem next (read r.mem hdrStart p.hdrlen)) next (frgInx + 1)
        (pktfile.drop (p.chunk frgLen frgInx pktfile).length)).map fun l =>
          { l with frags := ⟨memStart, r.pframe - memStart⟩ :: l.frags } :=
  if_neg h

theorem chunk_unicast (hra : isMcast p.ra = false) (hfit : pktfile.length ≤ p.mpduLen frgLen frgInx) :
    p.chunk frgLen frgInx pktfile = pktfile := by
  simp [PktAttrib.chunk, hra, List.take_of_length_le hfit]

theorem layFragments_placement (hra : isMcast p.ra = false) (hhdr : 24 ≤ p.hdrlen)
    (hpos : ∀ k, 0 < p.mpduLen frgLen k) (hfuel : pktfile.length < fuel) :
    ∃ l, layFragments p frgLen hwOffset hdrStart fuel m memStart frgInx pktfile = some l ∧
      Placement p m memStart l := by
  induction fuel generalizing m memStart frgInx pktfile with
  | zero => omega
  | succ fuel ih =>
    have hkeep := fun i => putFragment_header p m memStart (p.llc frgInx)
      (p.chunk frgLen frgInx pktfile) (i := i)
    have hiv := putFragment_iv p m memStart (p.llc frgInx) (p.chunk frgLen frgInx pktfile)
    have hle : (p.iv.take p.ivLen).length ≤ p.ivLen := List.length_take_le ..
    have hframe : memStart + p.hdrlen + p.ivLen ≤ (putFragment p m memStart (p.llc frgInx)
        (p.chunk frgLen frgInx pktfile)).pframe := by
      rw [putFragment_pframe]
      omega
    cases Decidable.em
        (isMcast p.ra = true ∨ pktfile.length ≤ (p.chunk frgLen frgInx pktfile).length) with
    | inl hlast =>
      rw [layFragments_last hlast]
      generalize putFragment p m memStart _ _ = r at hkeep hiv hframe ⊢
      refine ⟨_, rfl, fun i hi => ?_, ?_, ?_, _, _, rfl, rfl, Nat.le_sub_of_add_le (by omega)⟩
      · have hne : i ≠ memStart + 1 := by omega
        exact (modify_ne r.mem (· &&& 0xfb) hne).trans (hkeep i (by omega) hne)
      · simp only [List.mem_singleton, forall_eq]
        refine ⟨hiv.congr fun i hlow _ => ?_, by omega⟩
        have hne : i ≠ memStart + 1 := by omega
        exact modify_ne r.mem (· &&& 0xfb) hne
      · have hne : memStart + 22 ≠ memStart + 1 := by omega
        exact (modify_ne r.mem (· &&& 0xfb) hne).trans (hkeep (memStart + 22) (by omega) hne)
    | inr hlast =>
      have hdata : (p.chunk frgLen frgInx pktfile).length =
          min (p.mpduLen frgLen frgInx) pktfile.length := by
        simp [PktAttrib.chunk, hra]
      have hmp := hpos frgInx
      rw [layFragments_next hlast]
      generalize putFragment p m memStart _ _ = r at hkeep hiv hframe ⊢
      have hnext := rnd4_le r.pframe
      obtain ⟨l, hl, hplace⟩ := @ih
        (write r.mem (rnd4 r.pframe + hwOffset) (read r.mem hdrStart p.hdrlen))
        (rnd4 r.pframe + hwOffset) (frgInx + 1)
        (pktfile.drop (p.chunk frgLen frgInx pktfile).length) (by
          rw [List.length_drop]
          omega)
      have hbelow : ∀ i < rnd4 r.pframe + hwOffset, l.mem i = r.mem i := fun i hi =>
        (hplace.below i hi).trans (write_below r.mem _ hi)
      dsimp only
      rw [hl]
      refine ⟨_, rfl, fun i hi => ?_, ?_, ?_, _, _, rfl, rfl, Nat.le_sub_of_add_le (by omega)⟩
      · exact (hbelow i (by omega)).trans (hkeep i (by omega) (by omega))
      · intro frag hmem
        rcases List.mem_cons.mp hmem with rfl | hmem
        · dsimp only
          exact ⟨hiv.congr fun i _ hhigh => hbelow i (by omega), by omega⟩
        · exact hplace.ivs frag hmem
      · exact (hbelow (memStart + 22) (by omega)).trans
          (hkeep (memStart + 22) (by omega) (by omega))

theorem layFragments_several (hra : isMcast p.ra = false) (hhdr : 24 ≤ p.hdrlen)
    (hpos : ∀ k, 0 < p.mpduLen frgLen k) (hfuel : pktfile.length < fuel)
    (hbig : p.mpduLen frgLen 0 < pktfile.length) :
    ∃ l f0 f1 rest, layFragments p frgLen hwOffset memStart fuel m memStart 0 pktfile = some l ∧
      l.frags = f0 :: f1 :: rest ∧ l.mem (f1.start + 22) = m (memStart + 22) ∧ 24 ≤ f1.size := by
  obtain ⟨fuel, rfl⟩ : ∃ k, fuel = k + 1 := ⟨fuel - 1, by omega⟩
  have hdata : (p.chunk frgLen 0 pktfile).length = p.mpduLen frgLen 0 := by
    simp only [PktAttrib.chunk, hra, Bool.false_eq_true, if_false, List.length_take]
    omega
  have hmp := hpos 0
  have hkeep := putFragment_header p m memStart (p.llc 0) (p.chunk frgLen 0 pktfile)
    (i := memStart + 22) (by omega) (by omega)
  rw [layFragments_next (by
    rw [hra, hdata]
    simpa using hbig)]
  generalize putFragment p m memStart _ _ = r at hkeep ⊢
  obtain ⟨l, hl, hplace⟩ := @layFragments_placement _ (write r.mem (rnd4 r.pframe + hwOffset)
    (read r.mem memStart p.hdrlen)) frgLen hwOffset memStart fuel (rnd4 r.pframe + hwOffset) (0 + 1)
    (pktfile.drop (p.chunk frgLen 0 pktfile).length) hra hhdr hpos (by
      rw [List.length_drop]
      omega)
  dsimp only
  rw [hl]
  obtain ⟨f1, rest, hfrags, hstart, hsize⟩ := hplace.first
  refine ⟨_, _, f1, rest, rfl, congrArg _ hfrags, ?_, hsize⟩
  calc
    l.mem (f1.start + 22) = _ := by rw [hstart, hplace.seqCtl]
    _ = (read r.mem memStart p.hdrlen).get ⟨22, by simpa using by omega⟩ := write_inside r.mem _
    _ = m (memStart + 22) := by simpa [ByteMemory.read] using hkeep

theorem layFragments_single {pkt : EthPkt} (hp : DataAttrib e pkt p)
    (h : Holds m memStart hdr) (hlen : hdr.length = p.hdrlen) (hmf : hdr.getD 1 0 &&& 0x04 = 0)
    (hdata : p.chunk frgLen 0 pktfile = pktfile) :
    ∃ l, layFragments p frgLen hwOffset hdrStart (fuel + 1) m memStart 0 pktfile = some l ∧
      l.frags = [⟨memStart, p.hdrlen + p.ivLen + 8 + pktfile.length + p.swIcv⟩] ∧
      l.lastTxcmdsz = p.hdrlen + p.ivLen + 8 + p.swIcv + pktfile.length ∧
      Holds l.mem memStart
        (hdr ++ (p.iv.take p.ivLen ++ rtwPutSnap p.etherType ++ pktfile ++ p.icvTail)) := by
  have hbounds := hp.hdrlen_bounds
  rw [layFragments_last (.inr (by rw [hdata])), hdata]
  have hholds := @putFragment_holds _ _ _ _ (p.llc 0) pktfile h hlen (by omega) hp.iv
  refine ⟨_, rfl, ?_, ?_, ?_⟩
  · dsimp only
    rw [putFragment_pframe, length_llc, if_pos rfl, hp.length_icvTail]
    exact congrArg (fun n => [Fragment.mk memStart n]) (by omega)
  · dsimp only
    rw [length_llc, if_pos rfl]
    rfl
  · have hclear := hholds.modify_within (i := 1) (by simp; omega) (· &&& 0xfb)
    have hone : 1 < hdr.length := by omega
    rw [List.getD_eq_getElem?_getD, List.getElem?_eq_getElem hone, Option.getD_some] at hmf
    simp only [List.append_assoc, List.set_append_left _ _ (show 1 < (hdr.set 1 _).length by simpa),
      List.getElem_append_left (show 1 < (hdr.set 1 _).length by simpa), List.getElem_set_self,
      List.set_set, toggle_moreFrag hmf, List.set_getElem_self] at hclear
    simpa only [List.append_assoc, PktAttrib.llc, if_pos] using hclear

end Layout

end Xmit
