import Rtl8188fu.Lib.Run
import Rtl8188fu.Xmit.Fragmentation
import Rtl8188fu.Xmit.MgmtCoalesce

namespace Xmit

open Recv (MacAddr SecurityType byteAt isMcast rtwIvToPn getEncryAlgo)
open ByteMemory

def usesNonce : SecurityType → Bool
  | .aes | .ccmp256 | .gcmp | .gcmp256 => true
  | _ => false

def mpduPn (p : PktAttrib) (mpdu : List UInt8) : Option ℕ :=
  (rtwIvToPn ((mpdu.drop p.hdrlen).take p.ivLen) p.encrypt).map Prod.fst

def swPns (p : PktAttrib) (mpdus : List (List UInt8)) : List ℕ :=
  if p.bswenc && usesNonce p.encrypt then mpdus.filterMap (mpduPn p) else []

structure DataTx where
  env : XmitEnv
  sec : SecContext
  userPriority : Fin 16
  pkt : EthPkt
  frame : XmitFrame
  fragLen : 256 ≤ env.fragLen
  unicast : isMcast (secAttrib env pkt frame.attrib).ra = false
  pairwise : env.sec.dot11AuthAlgrthm = .dot118021X

structure MgmtTx where
  mac : BipMac
  sec : SecurityPriv
  bcmc : Option StaInfo
  zmalloc : Bool
  attrib : PktAttrib
  frame : List UInt8
  unicast : isMcast attrib.ra = false
  plain : attrib.bswenc = false ∧ attrib.encrypt = .noPrivacy
  header : attrib.hdrlen ≤ frame.length
  flags : 2 ≤ attrib.hdrlen

inductive TxEvent where
  | data (d : DataTx)
  | mgmt (t : MgmtTx)

def mgmtSwencrypt (c : SwCipher) (sec : SecurityPriv) (p : PktAttrib) (frame : List UInt8) :
    List UInt8 :=
  let head := frame.take (p.hdrlen + p.ivLen)
  let payload := frame.drop (p.hdrlen + p.ivLen)
  head ++ c.crypt p.encrypt (swKey sec p) p.ta head (payload.take (payload.length - p.icvLen))

structure Sent where
  psta : XmitSta
  pns : List ℕ

def DataTx.send (c : SwCipher) (d : DataTx) (s : XmitSta) : Sent :=
  match updateAttrib d.env d.sec s d.userPriority d.pkt d.frame.attrib with
  | none => ⟨s, []⟩
  | some u =>
    match rtwXmitframeCoalesce c d.env (some u.psta) d.pkt { d.frame with attrib := u.attrib } with
    | none => ⟨u.psta, []⟩
    | some r => ⟨r.psta, swPns u.attrib r.laid⟩

def MgmtTx.send (c : SwCipher) (t : MgmtTx) (s : XmitSta) : Sent :=
  let r := rtwMgmtXmitframeCoalesce t.mac (mgmtSwencrypt c t.sec) t.zmalloc
    ⟨t.sec, some s.sta, t.bcmc⟩ t.attrib t.frame
  ⟨{ s with sta := r.ctx.psta.getD s.sta }, if r.res then swPns r.attrib [r.frame] else []⟩

def TxEvent.send (c : SwCipher) : TxEvent → XmitSta → Sent
  | .data d => d.send c
  | .mgmt t => t.send c

def txStep (c : SwCipher) (s : Sent) (ev : TxEvent) : Sent :=
  let r := ev.send c s.psta
  ⟨r.psta, s.pns ++ r.pns⟩

def DataTx.FitsOne (d : DataTx) (s : XmitSta) : Prop :=
  ∀ u ∈ updateAttrib d.env d.sec s d.userPriority d.pkt d.frame.attrib,
    u.attrib.bswenc = true → usesNonce u.attrib.encrypt = true → d.env.opMode ≠ .other →
      u.attrib.hdrlen + u.attrib.ivLen + 8 + d.pkt.payload.length + u.attrib.icvLen + 4 ≤
        d.env.fragLen

instance (d : DataTx) (s : XmitSta) : Decidable (d.FitsOne s) :=
  inferInstanceAs (Decidable (∀ u ∈ updateAttrib .., _))

def TxEvent.FitsOne : TxEvent → XmitSta → Prop
  | .data d, s => d.FitsOne s
  | .mgmt _, _ => True

instance : (ev : TxEvent) → (s : XmitSta) → Decidable (ev.FitsOne s)
  | .data d, s => inferInstanceAs (Decidable (d.FitsOne s))
  | .mgmt _, _ => inferInstanceAs (Decidable True)

structure Assigns (s : XmitSta) (r : Sent) : Prop where
  cipher : r.psta.dot118021XPrivacy = s.dot118021XPrivacy
  bound : r.psta.dot11txpn ≤ s.dot11txpn + 1
  counter : usesNonce s.dot118021XPrivacy = true → s.dot11txpn ≤ r.psta.dot11txpn
  pns : r.pns = [] ∨ usesNonce s.dot118021XPrivacy = true ∧
    r.psta.dot11txpn = s.dot11txpn + 1 ∧ ∃ k, r.pns = List.replicate k (s.dot11txpn + 1)

theorem mpduPn_aesIv {p : PktAttrib} {pn : ℕ} (hpn : pn < 2 ^ 48) (henc : usesNonce p.encrypt = true)
    {mpdu : List UInt8} (hiv : (mpdu.drop p.hdrlen).take p.ivLen = aesIv pn 0) :
    mpduPn p mpdu = some pn := by
  have hsum := tsc_sum hpn
  rw [mpduPn, hiv]
  cases henc' : p.encrypt <;> rw [henc'] at henc
  all_goals first
    | exact absurd henc (by decide)
    | exact congrArg some hsum

theorem nextPn_lt {pn : ℕ} (h : pn + 1 < 2 ^ 48) : nextPn 0xffffffffffff pn = pn + 1 := by
  rw [nextPn, if_neg (by omega)]
  omega

theorem secAlgo_pairwise {sec : SecurityPriv} {psta : StaInfo} {etherType : UInt16}
    (hauth : sec.dot11AuthAlgrthm = .dot118021X) :
    secAlgo sec psta etherType false = .noPrivacy ∨
      secAlgo sec psta etherType false = psta.dot118021XPrivacy := by
  have halgo : getEncryAlgo sec.toSecurityPriv psta.toStaInfo false = psta.dot118021XPrivacy := by
    simp [getEncryAlgo, hauth]
  unfold secAlgo
  rw [halgo]
  dsimp only
  split
  · exact .inl rfl
  · exact .inr rfl

theorem secIv_nonce {sec : SecurityPriv} {psta : StaInfo} {p : PktAttrib}
    (henc : usesNonce p.encrypt = true) :
    let pn := nextPn 0xffffffffffff psta.dot11txpn
    (secIv sec psta false p).psta = { psta with dot11txpn := pn } ∧
      (secIv sec psta false p).attrib.iv = aesIv pn 0 ∧
      (secIv sec psta false p).attrib.ivLen = 8 ∧
      (secIv sec psta false p).attrib.encrypt = p.encrypt := by
  unfold secIv
  cases henc' : p.encrypt <;> rw [henc'] at henc
  all_goals first
    | exact absurd henc (by decide)
    | exact ⟨rfl, rfl, rfl, rfl⟩

theorem secIv_keeps (sec : SecurityPriv) (psta : StaInfo) (bmcast : Bool) (p : PktAttrib) :
    (secIv sec psta bmcast p).attrib.encrypt = p.encrypt ∧
      (secIv sec psta bmcast p).attrib.ra = p.ra := by
  unfold secIv
  cases henc : p.encrypt
  all_goals try exact ⟨rfl, rfl⟩
  dsimp only
  split <;> exact ⟨rfl, rfl⟩

structure Numbers (s : XmitSta) (u : Updated) : Prop where
  cipher : u.psta.dot118021XPrivacy = s.dot118021XPrivacy
  bound : u.psta.dot11txpn ≤ s.dot11txpn + 1
  plain : usesNonce u.attrib.encrypt = false → usesNonce s.dot118021XPrivacy = true →
    u.psta.dot11txpn = s.dot11txpn
  nonce : usesNonce u.attrib.encrypt = true →
    usesNonce s.dot118021XPrivacy = true ∧
      u.psta.dot11txpn = nextPn 0xffffffffffff s.dot11txpn ∧
        u.attrib.iv = aesIv (nextPn 0xffffffffffff s.dot11txpn) 0 ∧ u.attrib.ivLen = 8

theorem updateAttrib_numbers {d : DataTx} {s : XmitSta} {u : Updated}
    (h : updateAttrib d.env d.sec s d.userPriority d.pkt d.frame.attrib = some u) :
    Numbers s u := by
  obtain ⟨-, hpass, hpsta, subtype, prio, hp, -⟩ := updateAttrib_some h
  obtain ⟨enc, kid, key, micKey, ukey, henc, hiv, hr⟩ := updateAttribSecInfo_pass hpass
  rw [d.unicast] at henc hr hiv
  have hkind : enc = .noPrivacy ∨ enc = s.dot118021XPrivacy := by
    rcases henc with henc | henc
    · exact .inl henc
    · rw [henc]
      exact secAlgo_pairwise d.pairwise
  have hattrib : u.attrib.encrypt = enc := by
    rw [hp, hr]
    exact (secIv_keeps ..).1
  obtain ⟨pn, hle, hpn⟩ := secIv_psta d.env.sec s.sta false
    { secAttrib d.env d.pkt d.frame.attrib with
      encrypt := enc, keyIdx := kid, uncstKey := key, tkipTxMicKey := micKey }
  refine ⟨?_, ?_, fun hno hcipher => ?_, fun hyes => ?_⟩
  · rw [hpsta, hr, hpn]
  · rw [hpsta, hr, hpn]
    exact hle
  · rw [hattrib] at hno
    obtain rfl := hkind.resolve_right fun heq => by
      rw [heq, hcipher] at hno
      cases hno
    rw [hpsta, hr]
    rfl
  · rw [hattrib] at hyes
    obtain ⟨h1, h2, h3, -⟩ := @secIv_nonce d.env.sec s.sta { secAttrib d.env d.pkt d.frame.attrib
      with
        encrypt := enc, keyIdx := kid, uncstKey := key, tkipTxMicKey := micKey } hyes
    refine ⟨?_, ?_, ?_, ?_⟩
    · rcases hkind with rfl | rfl
      · cases hyes
      · exact hyes
    · rw [hpsta, hr, h1]
    · rw [hp, hr]
      exact h2
    · rw [hp, hr]
      exact h3

theorem rtwMakeWlanhdr_psta {e : XmitEnv} {psta psta' : XmitSta} {p : PktAttrib} {hdr : List UInt8}
    (h : rtwMakeWlanhdr e (some psta) p = some (hdr, psta')) :
    ∃ seqs, psta' = { psta with txseqTid := seqs } := by
  unfold rtwMakeWlanhdr at h
  cases haddr : hdrAddrs e p with
  | none =>
    rw [haddr] at h
    cases h
  | some addrs =>
    rw [haddr] at h
    dsimp only at h
    split at h
    · cases h
    · exact ⟨_, (Prod.ext_iff.mp (Option.some.inj h)).2.symm⟩

theorem filterMap_const {A B : Type} {f : A → Option B} {b : B} {xs : List A}
    (h : ∀ x ∈ xs, f x = some b) : xs.filterMap f = List.replicate xs.length b := by
  induction xs with
  | nil => rfl
  | cons x xs ih =>
    rw [List.filterMap_cons_some (h x (by simp)), ih fun y hy => h y (by simp [hy])]
    rfl

theorem Numbers.counter {s : XmitSta} {u : Updated} (h : Numbers s u)
    (hn : s.dot11txpn + 1 < 2 ^ 48) (hcipher : usesNonce s.dot118021XPrivacy = true) :
    s.dot11txpn ≤ u.psta.dot11txpn := by
  cases henc : usesNonce u.attrib.encrypt
  · have heq := h.plain henc hcipher
    omega
  · have heq := (h.nonce henc).2.1
    rw [nextPn_lt hn] at heq
    omega

theorem pairwise_replicate_lt (k n : ℕ) :
    (List.replicate (k + 1) n).Pairwise (· < ·) ↔ k = 0 := by
  constructor
  · intro h
    rcases k with - | k
    · rfl
    · simp [List.replicate_succ] at h
  · rintro rfl
    simp

section Data

variable {c : SwCipher} {d : DataTx} {s : XmitSta} {u : Updated}

def DataTx.coalesce (c : SwCipher) (d : DataTx) (u : Updated) : Option Coalesced :=
  rtwXmitframeCoalesce c d.env (some u.psta) d.pkt { d.frame with attrib := u.attrib }

theorem secAttrib_unicast
    (h : updateAttrib d.env d.sec s d.userPriority d.pkt d.frame.attrib = some u) :
    isMcast u.attrib.ra = false := by
  obtain ⟨-, hpass, -, subtype, prio, hp, -⟩ := updateAttrib_some h
  obtain ⟨enc, kid, key, micKey, ukey, -, -, hr⟩ := updateAttribSecInfo_pass hpass
  rw [hp, hr]
  exact (congrArg isMcast (secIv_keeps ..).2).trans d.unicast

theorem coalesce_pns (h : updateAttrib d.env d.sec s d.userPriority d.pkt d.frame.attrib = some u)
    {r : Coalesced} (hr : d.coalesce c u = some r) :
    (∃ seqs, r.psta = { u.psta with txseqTid := seqs }) ∧ d.env.opMode ≠ .other ∧
      ∀ pn < 2 ^ 48, usesNonce u.attrib.encrypt = true → u.attrib.iv = aesIv pn 0 →
        u.attrib.ivLen = 8 → ∃ k, r.laid.filterMap (mpduPn u.attrib) = List.replicate (k + 1) pn ∧
          (k = 0 ↔ u.attrib.hdrlen + u.attrib.ivLen + 8 + d.pkt.payload.length + u.attrib.swIcv +
            4 ≤ d.env.fragLen) := by
  simp only [DataTx.coalesce, rtwXmitframeCoalesce, Option.bind_eq_bind,
    Option.bind_eq_some_iff] at hr
  obtain ⟨⟨hdr, psta'⟩, hmake, l, hl, f', -, hr⟩ := hr
  obtain rfl := Option.some.inj hr
  have hmode : d.env.opMode ≠ .other := by
    intro hmode
    simp [rtwMakeWlanhdr, hdrAddrs, hmode] at hmake
  refine ⟨rtwMakeWlanhdr_psta hmake, hmode, fun pn hpn henc hiv hivLen => ?_⟩
  obtain ⟨hp, hasoc⟩ := updateAttrib_spec hmode h
  obtain ⟨hdr', psta'', hmake', hd⟩ := rtwMakeWlanhdr_spec hp.hdrlen hmode hasoc
  obtain ⟨rfl, rfl⟩ := Prod.ext_iff.mp (Option.some.inj (hmake'.symm.trans hmake))
  have hra := secAttrib_unicast h
  have hbounds := hp.hdrlen_bounds
  have hpos := mpduLen_pos hp d.fragLen
  obtain ⟨l', hl', hplace⟩ := @layFragments_placement _
    (write d.frame.mem (d.frame.bufAddr + hwHdrOffset d.frame) hdr') _ (hwHdrOffset d.frame)
    (d.frame.bufAddr + hwHdrOffset d.frame) (d.pkt.payload.length + 1)
    (d.frame.bufAddr + hwHdrOffset d.frame) 0 d.pkt.payload hra hbounds.1 hpos (by omega)
  obtain rfl := Option.some.inj (hl'.symm.trans hl)
  have hpns : (l'.frags.map fun k => read l'.mem k.start k.size).filterMap (mpduPn u.attrib) =
      List.replicate l'.frags.length pn := by
    rw [List.filterMap_map]
    refine filterMap_const fun frag hmem => mpduPn_aesIv hpn henc ?_
    obtain ⟨hholds, hsize⟩ := hplace.ivs frag hmem
    rw [hp.iv] at hsize
    rw [slice_read _ _ hsize, hholds.read_eq hp.iv.symm, hivLen, hiv]
    rfl
  obtain ⟨frag, rest, hfrags, -⟩ := hplace.first
  refine ⟨rest.length, by rw [hpns, hfrags, List.length_cons], ?_⟩
  have hcount := mpduLen_eq hp (d.env.fragLen - 4) 0
  rw [if_pos rfl] at hcount
  have hpos := hpos 0
  cases Decidable.em (d.pkt.payload.length ≤ u.attrib.mpduLen (d.env.fragLen - 4) 0) with
  | inl hfit =>
    obtain ⟨hhdr, hmf⟩ := hd.take hbounds.1 hbounds.2
    obtain ⟨l, hl'', hone, -⟩ := @layFragments_single _ _ _ _ _ (hwHdrOffset d.frame)
      (d.frame.bufAddr + hwHdrOffset d.frame) d.pkt.payload.length _ _ _ hp
      ((holds_write d.frame.mem (d.frame.bufAddr + hwHdrOffset d.frame) hdr').take
        u.attrib.hdrlen) hhdr hmf (chunk_unicast hra hfit)
    obtain rfl := Option.some.inj (hl''.symm.trans hl)
    obtain rfl := (List.cons.inj (hfrags.symm.trans hone)).2
    exact iff_of_true rfl (by omega)
  | inr hfit =>
    obtain ⟨l, f0, f1, more, hl'', hmany, -⟩ := @layFragments_several _
      (write d.frame.mem (d.frame.bufAddr + hwHdrOffset d.frame) hdr') _ (hwHdrOffset d.frame)
      (d.pkt.payload.length + 1) (d.frame.bufAddr + hwHdrOffset d.frame) _ hra hbounds.1
      (mpduLen_pos hp d.fragLen) (by omega) (Nat.lt_of_not_le hfit)
    obtain rfl := Option.some.inj (hl''.symm.trans hl)
    obtain rfl := (List.cons.inj (hfrags.symm.trans hmany)).2
    refine iff_of_false ?_ (by omega)
    rw [List.length_cons]
    omega

theorem coalesce_isSome
    (h : updateAttrib d.env d.sec s d.userPriority d.pkt d.frame.attrib = some u)
    (henc : usesNonce u.attrib.encrypt = true) (hmode : d.env.opMode ≠ .other) :
    ∃ r, d.coalesce c u = some r := by
  obtain ⟨hp, hasoc⟩ := updateAttrib_spec hmode h
  obtain ⟨hdr, psta', hmake, hd⟩ := rtwMakeWlanhdr_spec hp.hdrlen hmode hasoc
  obtain ⟨l, hl, -⟩ := @layFragments_placement _
    (write d.frame.mem (d.frame.bufAddr + hwHdrOffset d.frame) hdr) _ (hwHdrOffset d.frame)
    (d.frame.bufAddr + hwHdrOffset d.frame) (d.pkt.payload.length + 1)
    (d.frame.bufAddr + hwHdrOffset d.frame) 0 d.pkt.payload (secAttrib_unicast h) hp.hdrlen_bounds.1
    (mpduLen_pos hp d.fragLen) (by omega)
  obtain ⟨f', hmic⟩ := @xmitframeAddmic_some d.env.sec d.env.fragLen { d.frame with
      mem := l.mem
      attrib := { u.attrib with nrFrags := l.frags.length, lastTxcmdsz := l.lastTxcmdsz } }
      (fun htkip => by
      dsimp only at htkip
      rw [htkip] at henc
      cases henc)
  have hwo : hwHdrOffset { d.frame with attrib := u.attrib } = hwHdrOffset d.frame := rfl
  simp only [DataTx.coalesce, rtwXmitframeCoalesce, hmake, hwo, hl, hmic, Option.bind_eq_bind,
    Option.bind_some]
  exact ⟨_, rfl⟩

theorem DataTx.send_assigns (hn : s.dot11txpn + 1 < 2 ^ 48) :
    Assigns s (d.send c s) ∧ ((d.send c s).pns.Pairwise (· < ·) ↔ d.FitsOne s) := by
  unfold DataTx.send DataTx.FitsOne
  cases h : updateAttrib d.env d.sec s d.userPriority d.pkt d.frame.attrib with
  | none => exact ⟨⟨rfl, Nat.le_succ _, fun _ => le_rfl, .inl rfl⟩, by simp⟩
  | some u =>
    have hnum := updateAttrib_numbers h
    simp only [Option.mem_def, Option.some.injEq, forall_eq']
    cases hr : rtwXmitframeCoalesce c d.env (some u.psta) d.pkt
        { d.frame with attrib := u.attrib } with
    | none =>
      refine ⟨⟨hnum.cipher, hnum.bound, hnum.counter hn, .inl rfl⟩, iff_of_true .nil ?_⟩
      intro _ henc hmode
      obtain ⟨r, hr'⟩ := coalesce_isSome (c := c) h henc hmode
      exact absurd (hr'.symm.trans hr) nofun
    | some r =>
      obtain ⟨⟨seqs, hseqs⟩, hmode, hpns⟩ := coalesce_pns h hr
      have hcipher : r.psta.dot118021XPrivacy = s.dot118021XPrivacy := by
        rw [hseqs]
        exact hnum.cipher
      have hbound : r.psta.dot11txpn ≤ s.dot11txpn + 1 := by
        rw [hseqs]
        exact hnum.bound
      have hcounter : usesNonce s.dot118021XPrivacy = true → s.dot11txpn ≤ r.psta.dot11txpn := by
        rw [hseqs]
        exact hnum.counter hn
      dsimp only
      unfold swPns
      cases Decidable.em ((u.attrib.bswenc && usesNonce u.attrib.encrypt) = true) with
      | inl hsw =>
        obtain ⟨hbsw, henc⟩ := Bool.and_eq_true_iff.mp hsw
        obtain ⟨hnonce, hnext, hiv, hivLen⟩ := hnum.nonce henc
        rw [nextPn_lt hn] at hnext hiv
        obtain ⟨k, hk, hfit⟩ := hpns _ hn henc hiv hivLen
        have hicv : u.attrib.swIcv = u.attrib.icvLen := if_pos hbsw
        rw [if_pos hsw, hk, pairwise_replicate_lt, hfit, hicv]
        refine ⟨⟨hcipher, hbound, hcounter, .inr ⟨hnonce, ?_, _, rfl⟩⟩, ?_⟩
        · rw [hseqs]
          exact hnext
        · exact ⟨fun hfits _ _ _ => hfits, fun hall => hall hbsw henc hmode⟩
      | inr hsw =>
        rw [if_neg hsw]
        refine ⟨⟨hcipher, hbound, hcounter, .inl rfl⟩, iff_of_true .nil fun hbsw henc => ?_⟩
        exact absurd (Bool.and_eq_true_iff.mpr ⟨hbsw, henc⟩) hsw

end Data

section Mgmt

variable {c : SwCipher} {t : MgmtTx} {s : XmitSta}

structure Protects (cipher : SecurityType) (pn : ℕ) (r : MgmtEncrypted) : Prop where
  nonce : usesNonce cipher = true
  next : r.pn = nextPn 0xffffffffffff pn
  encrypt : r.attrib.encrypt = cipher
  bswenc : r.attrib.bswenc = true
  iv : (r.frame.drop r.attrib.hdrlen).take r.attrib.ivLen = aesIv (nextPn 0xffffffffffff pn) 0

theorem mgmtLens_some {e : SecurityType} {ivLen icvLen : ℕ} (h : mgmtLens e = some (ivLen, icvLen)) :
    usesNonce e = true ∧ ivLen = 8 := by
  cases e <;> simp_all [mgmtLens, usesNonce]

theorem mgmtSwencrypt_iv (sec : SecurityPriv) {p : PktAttrib} {frame : List UInt8} {h n : ℕ}
    (hh : p.hdrlen = h) (hn : p.ivLen = n) (hlen : h + n ≤ frame.length) :
    ((mgmtSwencrypt c sec p frame).drop h).take n = (frame.drop h).take n := by
  subst hh hn
  have hhead : (frame.take (p.hdrlen + p.ivLen)).length = p.hdrlen + p.ivLen := by
    rw [List.length_take, Nat.min_eq_left hlen]
  rw [mgmtSwencrypt, slice_append (Nat.le_of_eq hhead.symm),
    ← slice_append (Nat.le_of_eq hhead.symm) (frame.drop (p.hdrlen + p.ivLen)),
    List.take_append_drop]

theorem setPrivacy_iv {frame iv : List UInt8} {h : ℕ} (hflags : 2 ≤ h) (hhdr : h ≤ frame.length)
    (rest : List UInt8) :
    ((setPrivacy (frame.take h ++ iv ++ rest)).drop h).take iv.length = iv := by
  have hhead : (frame.take h).length = h := by rw [List.length_take, Nat.min_eq_left hhdr]
  rw [setPrivacy, List.drop_modify_of_lt _ _ _ _ (by omega), List.append_assoc,
    List.drop_left' hhead, List.take_left]

theorem mgmtEncrypt_cases (sec : SecurityPriv) {cipher : SecurityType} (pn : ℕ) {p : PktAttrib}
    {frame : List UInt8} (hplain : p.encrypt = .noPrivacy) (hhdr : p.hdrlen ≤ frame.length)
    (hflags : 2 ≤ p.hdrlen) :
    (mgmtEncrypt (mgmtSwencrypt c sec) cipher pn 0 p frame).pn = pn ∧
        (mgmtEncrypt (mgmtSwencrypt c sec) cipher pn 0 p frame).res = false ∨
      Protects cipher pn (mgmtEncrypt (mgmtSwencrypt c sec) cipher pn 0 p frame) := by
  unfold mgmtEncrypt
  cases Decidable.em (p.keyType = .noKey) with
  | inl hkey =>
    left
    simp [hkey, hplain, mgmtLens]
  | inr hkey =>
    cases hlens : mgmtLens cipher with
    | none =>
      left
      simp [hkey, hlens]
    | some lens =>
      obtain ⟨ivLen, icvLen⟩ := lens
      obtain ⟨hnonce, rfl⟩ := mgmtLens_some hlens
      right
      simp only [ne_eq, hkey, not_false_eq_true, if_true, hlens]
      refine ⟨hnonce, rfl, rfl, rfl, ?_⟩
      dsimp only
      have hiv := fun rest => @setPrivacy_iv _ (aesIv (nextPn 0xffffffffffff pn) 0) _ hflags hhdr
        rest
      refine (mgmtSwencrypt_iv (h := p.hdrlen) (n := 8) sec ?_ ?_ ?_).trans ?_
      · rfl
      · rfl
      · simp only [setPrivacy, List.length_modify, List.length_append, List.length_take,
          List.length_drop, show (aesIv (nextPn 0xffffffffffff pn) 0).length = 8 from rfl]
        omega
      · rw [List.append_assoc (_ ++ _)]
        exact hiv _

theorem rtwMgmtXmitframeCoalesce_unicast {m : BipMac} {sw : PktAttrib → List UInt8 → List UInt8}
    {zmalloc : Bool} {ctx : MgmtCtx} {psta : StaInfo} {p : PktAttrib} {frame : List UInt8}
    (hra : isMcast p.ra = false) (hpsta : ctx.psta = some psta) :
    (∃ res, rtwMgmtXmitframeCoalesce m sw zmalloc ctx p frame = ⟨ctx, p, frame, res⟩) ∨
      ∃ key, rtwMgmtXmitframeCoalesce m sw zmalloc ctx p frame =
        let r := mgmtEncrypt sw psta.dot118021XPrivacy psta.dot11txpn 0
          { p with uncstKey := key } frame
        ⟨{ ctx with psta := some { psta with dot11txpn := r.pn } }, r.attrib, r.frame, r.res⟩ := by
  unfold rtwMgmtXmitframeCoalesce
  rw [hra, hpsta]
  dsimp only
  split
  · exact .inl ⟨_, rfl⟩
  split
  · exact .inl ⟨_, rfl⟩
  rw [if_neg Bool.false_ne_true]
  split
  · exact .inl ⟨_, rfl⟩
  split
  · exact .inl ⟨_, rfl⟩
  split
  · exact .inl ⟨_, rfl⟩
  · exact .inr ⟨_, rfl⟩

theorem swPns_plain {p : PktAttrib} (h : p.bswenc = false) (mpdus : List (List UInt8)) :
    swPns p mpdus = [] := by
  rw [swPns, h]
  rfl

theorem MgmtTx.send_assigns (hn : s.dot11txpn + 1 < 2 ^ 48) :
    Assigns s (t.send c s) ∧ (t.send c s).pns.Pairwise (· < ·) := by
  unfold MgmtTx.send
  rcases @rtwMgmtXmitframeCoalesce_unicast t.mac (mgmtSwencrypt c t.sec) t.zmalloc
    (⟨t.sec, some s.sta, t.bcmc⟩) _ _ t.frame t.unicast rfl
    with ⟨res, heq⟩ | ⟨key, heq⟩
  · rw [heq]
    have hpns : (if res then swPns t.attrib [t.frame] else []) = [] := by
      rw [swPns_plain t.plain.1, ite_self]
    exact ⟨⟨rfl, Nat.le_succ _, fun _ => le_rfl, .inl hpns⟩, by simp [hpns]⟩
  · have hcases := @mgmtEncrypt_cases c t.sec s.dot118021XPrivacy s.dot11txpn
      { t.attrib with uncstKey := key } _ t.plain.2 t.header t.flags
    rw [heq]
    generalize mgmtEncrypt (mgmtSwencrypt c t.sec) s.dot118021XPrivacy s.dot11txpn 0
      { t.attrib with uncstKey := key } t.frame = r at hcases
    dsimp only
    rcases hcases with ⟨hpn, hres⟩ | hprotects
    · rw [hres]
      exact ⟨⟨rfl, hpn ▸ Nat.le_succ _, fun _ => Nat.le_of_eq hpn.symm, .inl rfl⟩, .nil⟩
    · have hnext := hprotects.next
      have hiv := hprotects.iv
      rw [nextPn_lt hn] at hnext hiv
      have henc : usesNonce r.attrib.encrypt = true := by
        rw [hprotects.encrypt]
        exact hprotects.nonce
      have hpns : swPns r.attrib [r.frame] = [s.dot11txpn + 1] := by
        rw [swPns, hprotects.bswenc, henc]
        simp [mpduPn_aesIv hn henc hiv]
      have hbound : r.pn ≤ s.dot11txpn + 1 := Nat.le_of_eq hnext
      have hcounter : s.dot11txpn ≤ r.pn := by omega
      cases r.res
      · exact ⟨⟨rfl, hbound, fun _ => hcounter, .inl rfl⟩, .nil⟩
      · rw [if_pos rfl, hpns]
        exact ⟨⟨rfl, hbound, fun _ => hcounter, .inr ⟨hprotects.nonce, hnext, 1, rfl⟩⟩, by simp⟩

end Mgmt

theorem TxEvent.send_assigns {c : SwCipher} {s : XmitSta} (ev : TxEvent)
    (hn : s.dot11txpn + 1 < 2 ^ 48) :
    Assigns s (ev.send c s) ∧ ((ev.send c s).pns.Pairwise (· < ·) ↔ ev.FitsOne s) := by
  cases ev with
  | data d => exact d.send_assigns hn
  | mgmt t =>
    obtain ⟨hassigns, hpns⟩ := t.send_assigns (c := c) hn
    exact ⟨hassigns, iff_of_true hpns trivial⟩

structure Fresh (s : Sent) : Prop where
  pairwise : s.pns.Pairwise (· < ·)
  used : usesNonce s.psta.dot118021XPrivacy = true → ∀ pn ∈ s.pns, pn ≤ s.psta.dot11txpn
  other : usesNonce s.psta.dot118021XPrivacy = false → s.pns = []

theorem fresh_nil (psta : XmitSta) : Fresh ⟨psta, []⟩ :=
  ⟨.nil, fun _ _ => nofun, fun _ => rfl⟩

theorem txStep_pairwise {c : SwCipher} {s : Sent} {ev : TxEvent} (hs : Fresh s)
    (hn : s.psta.dot11txpn + 1 < 2 ^ 48) :
    (txStep c s ev).pns.Pairwise (· < ·) ↔ ev.FitsOne s.psta := by
  obtain ⟨hassigns, hiff⟩ := ev.send_assigns (c := c) hn
  rw [← hiff, txStep, List.pairwise_append]
  refine ⟨fun h => h.2.1, fun h => ⟨hs.pairwise, h, fun a ha b hb => ?_⟩⟩
  rcases hassigns.pns with hnil | ⟨hnonce, -, k, hk⟩
  · rw [hnil] at hb
    cases hb
  · rw [hk] at hb
    have hle := hs.used hnonce a ha
    have heq := List.eq_of_mem_replicate hb
    omega

theorem txStep_fresh {c : SwCipher} {s : Sent} {ev : TxEvent} (hs : Fresh s)
    (hn : s.psta.dot11txpn + 1 < 2 ^ 48) (hfit : ev.FitsOne s.psta) : Fresh (txStep c s ev) := by
  obtain ⟨hassigns, -⟩ := ev.send_assigns (c := c) hn
  refine ⟨(txStep_pairwise hs hn).mpr hfit, fun hnonce pn hpn => ?_, fun hother => ?_⟩
  · have hnonce' : usesNonce s.psta.dot118021XPrivacy = true := hassigns.cipher ▸ hnonce
    have hcounter := hassigns.counter hnonce'
    have hbound := hassigns.bound
    change pn ≤ (ev.send c s.psta).psta.dot11txpn
    rcases List.mem_append.mp hpn with hold | hnew
    · have hle := hs.used hnonce' pn hold
      omega
    · rcases hassigns.pns with hnil | ⟨-, hnext, k, hk⟩
      · rw [hnil] at hnew
        cases hnew
      · rw [hk] at hnew
        have heq := List.eq_of_mem_replicate hnew
        omega
  · have hother' : usesNonce s.psta.dot118021XPrivacy = false := hassigns.cipher ▸ hother
    rcases hassigns.pns with hnil | ⟨hnonce, -⟩
    · rw [txStep, hs.other hother', hnil]
      rfl
    · rw [hother'] at hnonce
      cases hnonce

theorem txStep_pns (c : SwCipher) (s : Sent) (evs : List TxEvent) :
    ∃ more, (Run.exec (txStep c) s evs).pns = s.pns ++ more := by
  induction evs generalizing s with
  | nil => exact ⟨[], (List.append_nil _).symm⟩
  | cons ev evs ih =>
    obtain ⟨more, hmore⟩ := ih (txStep c s ev)
    exact ⟨(ev.send c s.psta).pns ++ more, hmore.trans (List.append_assoc ..)⟩

theorem fresh_run {c : SwCipher} {s : Sent} {evs : List TxEvent} (hs : Fresh s)
    (hn : s.psta.dot11txpn + evs.length < 2 ^ 48) :
    (Run.exec (txStep c) s evs).pns.Pairwise (· < ·) ↔
      Run.Each (txStep c) (fun s ev => ev.FitsOne s.psta) s evs := by
  induction evs generalizing s with
  | nil => exact iff_of_true hs.pairwise trivial
  | cons ev evs ih =>
    rw [List.length_cons] at hn
    have hstep : s.psta.dot11txpn + 1 < 2 ^ 48 := by omega
    rw [Run.exec_cons, Run.each_cons]
    cases Decidable.em (ev.FitsOne s.psta) with
    | inl hfit =>
      have hbound : (txStep c s ev).psta.dot11txpn ≤ s.psta.dot11txpn + 1 :=
        (ev.send_assigns hstep).1.bound
      rw [ih (txStep_fresh hs hstep hfit) (by omega)]
      exact (and_iff_right hfit).symm
    | inr hfit =>
      refine iff_of_false (fun hpair => hfit ?_) fun h => hfit h.1
      obtain ⟨more, hmore⟩ := txStep_pns c (txStep c s ev) evs
      rw [hmore] at hpair
      exact (txStep_pairwise hs hstep).mp (List.pairwise_append.mp hpair).1

theorem nonce_law (c : SwCipher) (s : XmitSta) (evs : List TxEvent)
    (hn : s.dot11txpn + evs.length < 2 ^ 48) :
    (Run.exec (txStep c) ⟨s, []⟩ evs).pns.Pairwise (· < ·) ↔
      Run.Each (txStep c) (fun s ev => ev.FitsOne s.psta) ⟨s, []⟩ evs :=
  fresh_run (fresh_nil s) hn

def ccmpSta : XmitSta :=
  { exampleSta with sta := { exampleSta.sta with
      dot118021XPrivacy := .aes, mfp := true, bpairwiseKeyInstalled := true } }

def ccmpSec : SecurityPriv :=
  { SecurityPriv.zero with dot11AuthAlgrthm := .dot118021X, swEncrypt := true }

def exampleData (n : ℕ) : DataTx where
  env := { exampleEnv with sec := ccmpSec }
  sec := exampleSec
  userPriority := 5
  pkt := examplePkt n
  frame := exampleXmitFrame
  fragLen := by decide
  unicast := (by decide : isMcast exampleEnv.bssid = false)
  pairwise := rfl

def exampleDeauth : MgmtTx where
  mac := ⟨fun _ _ _ => none, fun _ _ _ _ => none⟩
  sec := ccmpSec
  bcmc := none
  zmalloc := true
  attrib := { PktAttrib.zero with hdrlen := 24, nrFrags := 1 }
  frame := 0xc0 :: List.replicate 25 0
  unicast := by decide
  plain := by decide
  header := by decide
  flags := by decide

theorem nonce_law_short :
    (Run.exec (txStep exampleCipher) ⟨ccmpSta, []⟩
      [.data (exampleData 100), .mgmt exampleDeauth]).pns.Pairwise (· < ·) :=
  (nonce_law exampleCipher ccmpSta [.data (exampleData 100), .mgmt exampleDeauth] (by decide)).mpr
    ⟨by decide, trivial, trivial⟩

theorem fragments_share_nonce :
    ¬(Run.exec (txStep exampleCipher) ⟨ccmpSta, []⟩ [.data (exampleData 300)]).pns.Pairwise
      (· < ·) := by
  rw [fresh_run (fresh_nil ccmpSta) (by decide)]
  exact fun h => absurd h.1 (by decide +kernel)

end Xmit
