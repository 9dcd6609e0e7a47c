import Rtl8188fu.Lib.SerialNumber
import Rtl8188fu.Lib.Run
import Rtl8188fu.Recv.Decryptor

namespace Recv

namespace GroupReplay

open ReplayCounter

def pnChecked (a : Adapter) (f : RecvFrame) : Option (Fin 4 × ℕ) :=
  match decacheDataFrame a f with
  | .error _ => none
  | .ok (g, _) =>
    if isMcast g.attrib.ra && a.fwState.station then
      (rtwIvToPn g.iv g.attrib.encrypt).map Prod.swap
    else none

def pnAccepted (a : Adapter) (f : RecvFrame) : Option (Fin 4 × ℕ) :=
  (pnChecked a f).filter fun p => validPnChk (BitVec.ofNat 64 p.2) (a.securitypriv.ivSeq p.1)

def authentic (crypto : Crypto) (a : Adapter) (f : RecvFrame) : Bool :=
  match decryptor crypto a f with
  | none => false
  | some g => !g.attrib.privacy || (recvframeChkmic crypto a g).isSome

def failsLater (crypto : Crypto) (a : Adapter) (f : RecvFrame) : Prop :=
  (validateRecvDataFrame a f).ret = .success ∧
    authentic crypto (validateRecvDataFrame a f).adapter (validateRecvDataFrame a f).frame = false

instance (crypto : Crypto) (a : Adapter) (f : RecvFrame) : Decidable (failsLater crypto a f) :=
  inferInstanceAs (Decidable (_ ∧ _))

theorem validate_ivSeq (a : Adapter) (f : RecvFrame) :
    (validateRecvDataFrame a f).adapter.securitypriv.ivSeq =
      match pnAccepted a f with
      | none => a.securitypriv.ivSeq
      | some (k, pn) => Function.update a.securitypriv.ivSeq k (BitVec.ofNat 64 pn) := by
  unfold validateRecvDataFrame pnAccepted pnChecked
  cases decacheDataFrame a f with
  | error ret => rfl
  | ok p =>
    obtain ⟨g, psta⟩ := p
    cases Decidable.em (isMcast g.attrib.ra = true) with
    | inl hra =>
      cases hpn : rtwIvToPn g.iv g.attrib.encrypt with
      | none => simp [checkPn, protect, recvBcastPnDecache, hra, hpn]
      | some q =>
        obtain ⟨pn, k⟩ := q
        cases Decidable.em (a.fwState.station = true) with
        | inl hsta =>
          cases Decidable.em (validPnChk (BitVec.ofNat 64 pn) (a.securitypriv.ivSeq k) = true) with
          | inl hvalid =>
            simp [checkPn, protect, recvBcastPnDecache, hra, hpn, hsta, hvalid, Option.filter]
          | inr hvalid =>
            simp [checkPn, recvBcastPnDecache, hra, hpn, hsta, hvalid, Option.filter]
        | inr hsta =>
          simp [checkPn, protect, recvBcastPnDecache, hra, hpn, hsta, Option.filter]
    | inr hra => simp [checkPn, protect, hra, Option.filter]

theorem pnAccepted_iff {a : Adapter} {f : RecvFrame} {k : Fin 4} {pn : ℕ} :
    pnAccepted a f = some (k, pn) ↔
      pnChecked a f = some (k, pn) ∧
        validPnChk (BitVec.ofNat 64 pn) (a.securitypriv.ivSeq k) = true := by
  simp [pnAccepted, Option.filter_eq_some_iff]

theorem pnChecked_lt {a : Adapter} {f : RecvFrame} {k : Fin 4} {pn : ℕ}
    (h : pnChecked a f = some (k, pn)) : pn < 2 ^ 48 := by
  unfold pnChecked at h
  split at h
  · cases h
  · split at h
    · obtain ⟨q, hq, hswap⟩ := Option.map_eq_some_iff.mp h
      obtain ⟨n, j⟩ := q
      cases hswap
      exact rtwIvToPn_lt hq
    · cases h

theorem valid_fresh_iff {pn : ℕ} (hpn : pn < 2 ^ 48) {old : BitVec 64} (hold : old.toNat < 2 ^ 48) :
    (validPnChk (BitVec.ofNat 64 pn) old = true → old.toNat < pn) ↔
      ¬(old.toNat = 0 ∧ pn = 0) ∧ old.toNat < pn + 2 ^ 47 := by
  have hvalid := validPnChk_iff hpn hold
  rw [BitVec.ofNat_toNat, BitVec.setWidth_eq] at hvalid
  rw [hvalid]
  omega

theorem valid_same_iff {pn : ℕ} (hpn : pn < 2 ^ 48) {old : BitVec 64}
    (hvalid : validPnChk (BitVec.ofNat 64 pn) old = true) :
    BitVec.ofNat 64 pn = old ↔ old.toNat = 0 ∧ pn = 0 := by
  constructor
  · rintro rfl
    have hsplit := (validPnChk_iff hpn hpn).mp hvalid
    rw [BitVec.toNat_ofNat]
    omega
  · rintro ⟨hold, rfl⟩
    exact (BitVec.eq_of_toNat_eq hold).symm

structure Receiver where
  adapter : Adapter
  accepted : Fin 4 → List ℕ

inductive Event where
  | frame (f : RecvFrame)
  | environment (a : Adapter)

def step (r : Receiver) : Event → Receiver
  | .frame f =>
    ⟨(validateRecvDataFrame r.adapter f).adapter,
      match pnAccepted r.adapter f with
      | none => r.accepted
      | some (k, pn) => Function.update r.accepted k (pn :: r.accepted k)⟩
  | .environment a =>
    { r with
      adapter := { a with
        securitypriv := { a.securitypriv with ivSeq := r.adapter.securitypriv.ivSeq } } }

def start (a : Adapter) : Receiver := ⟨a, fun _ => []⟩

def Safe (crypto : Crypto) (r : Receiver) : Event → Prop
  | .frame f =>
    (∀ k pn, pnAccepted r.adapter f = some (k, pn) → Fresh r.accepted k pn) ∧
      (failsLater crypto r.adapter f →
        (step r (.frame f)).adapter.securitypriv.ivSeq = r.adapter.securitypriv.ivSeq)
  | .environment _ => True

def Meets (crypto : Crypto) (r : Receiver) : Event → Prop
  | .frame f =>
    ∀ k pn, pnChecked r.adapter f = some (k, pn) →
      let old := r.adapter.securitypriv.ivSeq k
      (r.accepted k ≠ [] → ¬(old.toNat = 0 ∧ pn = 0) ∧ old.toNat < pn + 2 ^ 47) ∧
        (validPnChk (BitVec.ofNat 64 pn) old = true → failsLater crypto r.adapter f →
          old.toNat = 0 ∧ pn = 0)
  | .environment _ => True

structure Counts (r : Receiver) : Prop where
  tracks : Tracks (fun k => (r.adapter.securitypriv.ivSeq k).toNat) r.accepted
  bounded : ∀ k, r.accepted k ≠ [] → (r.adapter.securitypriv.ivSeq k).toNat < 2 ^ 48

theorem counts_start (a : Adapter) : Counts (start a) where
  tracks := tracks_empty _
  bounded _ h := absurd rfl h

theorem counts_step {crypto : Crypto} {r : Receiver} {e : Event} (hr : Counts r)
    (he : Safe crypto r e) : Counts (step r e) := by
  cases e with
  | environment a => exact ⟨hr.tracks, hr.bounded⟩
  | frame f =>
    cases hpn : pnAccepted r.adapter f with
    | none =>
      have hseq := validate_ivSeq r.adapter f
      simp only [hpn] at hseq
      constructor <;> simp only [step, hpn, hseq]
      · exact hr.tracks
      · exact hr.bounded
    | some p =>
      obtain ⟨k, pn⟩ := p
      have hlt := pnChecked_lt (pnAccepted_iff.mp hpn).1
      have hseq := validate_ivSeq r.adapter f
      simp only [hpn] at hseq
      have hnat : (BitVec.ofNat 64 pn).toNat = pn := by
        rw [BitVec.toNat_ofNat]
        omega
      have hlast : (fun j => (Function.update r.adapter.securitypriv.ivSeq k (BitVec.ofNat 64 pn) j).toNat) =
          Function.update (fun j => (r.adapter.securitypriv.ivSeq j).toNat) k pn := by
        funext j
        cases Decidable.em (j = k) with
        | inl hj =>
          subst hj
          rw [Function.update_self, Function.update_self, hnat]
        | inr hj => rw [Function.update_of_ne hj, Function.update_of_ne hj]
      constructor
      · simp only [step, hpn, hseq, hlast]
        exact hr.tracks.push (he.1 k pn hpn)
      · intro j hj
        simp only [step, hpn, hseq] at hj ⊢
        cases Decidable.em (j = k) with
        | inl hjk =>
          subst hjk
          rwa [Function.update_self, hnat]
        | inr hjk =>
          rw [Function.update_of_ne hjk] at hj ⊢
          exact hr.bounded j hj

theorem unchanged_iff {r : Receiver} {f : RecvFrame} {k : Fin 4} {pn : ℕ}
    (hpn : pnAccepted r.adapter f = some (k, pn)) :
    (step r (.frame f)).adapter.securitypriv.ivSeq = r.adapter.securitypriv.ivSeq ↔
      (r.adapter.securitypriv.ivSeq k).toNat = 0 ∧ pn = 0 := by
  obtain ⟨hchecked, hvalid⟩ := pnAccepted_iff.mp hpn
  have hseq := validate_ivSeq r.adapter f
  simp only [hpn] at hseq
  rw [← valid_same_iff (pnChecked_lt hchecked) hvalid]
  simp only [step, hseq]
  exact Function.update_eq_self_iff

theorem safe_iff {crypto : Crypto} {r : Receiver} (hr : Counts r) (e : Event) :
    Safe crypto r e ↔ Meets crypto r e := by
  cases e with
  | environment a => exact Iff.rfl
  | frame f =>
    constructor
    · rintro ⟨hfresh, hkept⟩ k pn hchecked
      constructor
      · intro hne
        refine (valid_fresh_iff (pnChecked_lt hchecked) (hr.bounded k hne)).mp fun hvalid => ?_
        have hpn := pnAccepted_iff.mpr ⟨hchecked, hvalid⟩
        exact (fresh_iff hr.tracks k pn).mp (hfresh k pn hpn) hne
      · intro hvalid hfails
        exact (unchanged_iff (pnAccepted_iff.mpr ⟨hchecked, hvalid⟩)).mp (hkept hfails)
    · intro hmeets
      constructor
      · intro k pn hpn
        obtain ⟨hchecked, hvalid⟩ := pnAccepted_iff.mp hpn
        refine (fresh_iff hr.tracks k pn).mpr fun hne => ?_
        exact (valid_fresh_iff (pnChecked_lt hchecked) (hr.bounded k hne)).mpr
          ((hmeets k pn hchecked).1 hne) hvalid
      · intro hfails
        cases hpn : pnAccepted r.adapter f with
        | none =>
          have hseq := validate_ivSeq r.adapter f
          simp only [hpn] at hseq
          exact hseq
        | some p =>
          obtain ⟨k, pn⟩ := p
          obtain ⟨hchecked, hvalid⟩ := pnAccepted_iff.mp hpn
          exact (unchanged_iff hpn).mpr ((hmeets k pn hchecked).2 hvalid hfails)

theorem group_replay_safe_iff (crypto : Crypto) (a : Adapter) (es : List Event) :
    Run.Each step (Safe crypto) (start a) es ↔ Run.Each step (Meets crypto) (start a) es :=
  Run.each_iff step (Safe crypto) (Meets crypto) Counts (fun _ e hr => safe_iff hr e)
    (fun _ _ hr he => counts_step hr he) (counts_start a) es

def apAddr : MacAddr := localAddr 1

def associated : Adapter where
  fwState := ⟨false, true, false, false, true, false⟩
  macAddr := localAddr 2
  bssid := apAddr
  securitypriv := { SecurityPriv.zero with
    dot11AuthAlgrthm := .dot118021X
    dot11PrivacyAlgrthm := .aes
    dot118021XGrpPrivacy := .aes
    dot118021XGrpKeyid := 1
    binstallGrpkey := true }
  stapriv := [{ rtwAllocStainfo apAddr with dot118021XPrivacy := .aes }]
  recvpriv := rtwInitRecvPriv

def groupFrame (seqNum : UInt8) (pn : List UInt8) (bdecrypted : Bool) : RecvFrame :=
  let data := [0x08, 0x42, 0, 0] ++ bcAddr.toList ++ apAddr.toList ++ [2, 0, 0, 0, 0, 9] ++
    [seqNum * 16, 0] ++ pn.take 2 ++ [0, 0x60] ++ pn.drop 2 ++ List.replicate 24 0
  { rtwInitRecvframe 0 with
    data := data
    attrib := { RxPktAttrib.zero.ofHeader data with encrypt := .aes, bdecrypted := bdecrypted } }

def forgedFrame : RecvFrame := groupFrame 2 [5, 0, 0, 0, 0, 0x80] false

def authenticFrame : RecvFrame := groupFrame 1 [5, 0, 0, 0, 0, 0] true

theorem forged_accepted : pnAccepted associated forgedFrame = some (1, 2 ^ 47 + 5) := by
  decide +kernel

theorem authentic_accepted :
    pnAccepted (validateRecvDataFrame associated forgedFrame).adapter authenticFrame =
      some (1, 5) := by
  refine pnAccepted_iff.mpr ⟨by decide +kernel, ?_⟩
  have hseq := validate_ivSeq associated forgedFrame
  simp only [forged_accepted] at hseq
  rw [hseq, Function.update_self]
  decide

theorem forged_pn_reopens_window :
    let es := [.frame forgedFrame, .frame authenticFrame]
    (Run.exec step (start associated) es).accepted 1 = [5, 2 ^ 47 + 5] ∧
      failsLater .rejecting associated forgedFrame ∧
      ¬Run.Each step (Safe .rejecting) (start associated) es := by
  refine ⟨?_, by decide +kernel, ?_⟩
  · simp only [Run.exec, List.foldl, step, start, forged_accepted, authentic_accepted]
    rw [Function.update_self, Function.update_self]
  · rintro ⟨-, hsecond, -⟩
    have hfresh := hsecond.1 1 5 authentic_accepted (2 ^ 47 + 5)
    simp only [step, start, forged_accepted, Function.update_self, List.mem_singleton] at hfresh
    have hlt := hfresh trivial
    omega

end GroupReplay

end Recv
