import Rtl8188fu.Ez.SmartConfig
import Rtl8188fu.Lib.Run

namespace Ez

namespace Session

open BoundedMemory Run

def Installs (s : ScState) : IoctlArg → Prop
  | .nullRequest => False
  | .nullPointer => False
  | .data length user =>
    s.ez.vendorIelen = length.toNat ∧ s.ez.vendorIe = user.take length.toNat

def Atomic (s : ScState) : ScEvent → Prop
  | .newScIoctl arg =>
    let r := s.newScIoctlHandle arg
    (r.ret ≠ 0 → r.state.newSc = s.newSc) ∧ (r.ret = 0 → Installs r.state arg)
  | _ => True

def padded (bs : List UInt8) : List UInt8 := bs ++ List.replicate (512 - bs.length) 0

def Sound (s : ScState) : ScEvent → Prop
  | .newScIoctl (.data length user) =>
    if 512 < length.toNat then s.newSc.buf.toList = padded []
    else if user.length < length.toNat then s.newSc.buf.toList = padded user
    else length.toNat < 256
  | _ => True

variable {outside : Outside} {s : ScState} {length : UInt16} {user : List UInt8}

theorem overlay_copied (h : length.toNat ≤ 512) :
    (overlay (Vector.replicate 512 (0 : UInt8)) 0 (copyFromUser user 0 length.toNat).1).toList =
      padded (user.take length.toNat) := by
  simp only [padded]
  refine List.ext_getElem (by simp; omega) fun i hi hi' => ?_
  have hlt : i < 512 := by simpa using hi
  cases Decidable.em (i < length.toNat ∧ i < user.length) with
  | inl hread => simp [overlay, copyFromUser, hread.1, hread.2]
  | inr hread =>
    rw [List.getElem_append_right (by simp; omega), List.getElem_replicate]
    cases Decidable.em (i < length.toNat) with
    | inl hlength =>
      have huser : user.length ≤ i := Nat.not_lt.mp fun hu => hread ⟨hlength, hu⟩
      simp [overlay, copyFromUser, hlength, huser]
    | inr hlength => simp [overlay, copyFromUser, hlength]

theorem newSc_eq_iff {sc : NewSc} {buf : Vector UInt8 512} {bs : List UInt8}
    (h : buf.toList = bs) : { sc with buf := buf } = sc ↔ sc.buf.toList = bs := by
  rw [← h]
  constructor
  · intro heq
    rw [← congrArg NewSc.buf heq]
  · intro heq
    rw [← Vector.toList_inj.mp heq]

theorem handle_long (h : 512 < length.toNat) : s.newScIoctlHandle (.data length user) =
    ⟨{ s with newSc := { s.newSc with buf := Vector.replicate 512 0 } }, eFault⟩ := by
  simp only [ScState.newScIoctlHandle, if_pos h]

theorem remaining_eq (user : List UInt8) (n : ℕ) : (copyFromUser user 0 n).2 = n - user.length :=
  rfl

theorem handle_short (h : length.toNat ≤ 512) (huser : user.length < length.toNat) :
    s.newScIoctlHandle (.data length user) =
      ⟨{ s with newSc := { s.newSc with
          buf := overlay (Vector.replicate 512 0) 0 (copyFromUser user 0 length.toNat).1 } },
        ((length.toNat - user.length : ℕ) : ℤ)⟩ := by
  have hleft : (copyFromUser user 0 length.toNat).2 ≠ 0 := by
    rw [remaining_eq]
    omega
  simp only [ScState.newScIoctlHandle, if_neg (Nat.not_lt.mpr h), if_neg hleft]
  rfl

theorem handle_done (h : length.toNat ≤ 512) (huser : length.toNat ≤ user.length) :
    s.newScIoctlHandle (.data length user) =
      let buf := overlay (Vector.replicate 512 0) 0 (copyFromUser user 0 length.toNat).1
      ⟨{ ez := rtwEzvizIeSet s.ez 2 (fun i => buf.toList.getD i 0) (length.toNat % 256)
         newSc := { s.newSc with buf := buf, len := length }
         smartFlg := 1 }, 0⟩ := by
  have hleft : (copyFromUser user 0 length.toNat).2 = 0 := by
    rw [remaining_eq]
    omega
  simp only [ScState.newScIoctlHandle, if_neg (Nat.not_lt.mpr h), if_pos hleft]

theorem installs_iff (h : length.toNat ≤ 512) (huser : length.toNat ≤ user.length) :
    Installs (s.newScIoctlHandle (.data length user)).state (.data length user) ↔
      length.toNat < 256 := by
  rw [handle_done h huser, Installs]
  constructor
  · rintro ⟨hlen, -⟩
    exact hlen ▸ Nat.mod_lt _ (by decide)
  · intro hlt
    refine ⟨Nat.mod_eq_of_lt hlt, ?_⟩
    simp only [rtwEzvizIeSet, Nat.mod_eq_of_lt hlt, overlay_copied h]
    refine List.ext_getElem (by simp [huser]) fun i hi hi' => ?_
    have hi : i < length.toNat := by simpa using hi
    have hiu : i < user.length := Nat.lt_of_lt_of_le hi huser
    simp [padded, List.getElem?_append_left, hi, hiu]

theorem atomic_iff (s : ScState) (e : ScEvent) : Atomic s e ↔ Sound s e := by
  have hfault : eFault ≠ 0 := by decide
  cases e with
  | newScIoctl arg =>
    cases arg with
    | nullRequest => exact iff_of_true ⟨fun _ => rfl, fun h => absurd h hfault⟩ trivial
    | nullPointer => exact iff_of_true ⟨fun _ => rfl, fun h => absurd h hfault⟩ trivial
    | data length user =>
      simp only [Atomic, Sound]
      split
      · next hlong =>
        rw [handle_long hlong]
        refine (and_iff_left fun h => absurd h hfault).trans ?_
        rw [forall_prop_of_true hfault]
        exact newSc_eq_iff Vector.toList_replicate
      · next hfits =>
        have hfits := Nat.not_lt.mp hfits
        split
        · next hshort =>
          rw [handle_short hfits hshort]
          have hfails : ((length.toNat - user.length : ℕ) : ℤ) ≠ 0 := by omega
          refine (and_iff_left fun h => absurd h hfails).trans ?_
          rw [forall_prop_of_true hfails]
          refine newSc_eq_iff ?_
          rw [overlay_copied hfits, List.take_of_length_le (Nat.le_of_lt hshort)]
        · next hwhole =>
          have hwhole := Nat.not_lt.mp hwhole
          rw [installs_iff hfits hwhole, handle_done hfits hwhole]
          simp
  | _ => exact Iff.rfl

theorem session_atomic_law (outside : Outside) (s : ScState) (es : List ScEvent) :
    Each (scStep outside) Atomic s es ↔ Each (scStep outside) Sound s es :=
  each_iff _ _ _ (fun _ => True) (fun s e _ => atomic_iff s e) (fun _ _ _ _ => trivial) trivial es

def Quiet (s : ScState) : ScEvent → Prop
  | .newScIoctl arg => (s.newScIoctlHandle arg).ret ≠ 0
  | .setNewSc .init => False
  | .setNewSc .deinit => False
  | .setNewSc .pollResult => False
  | .setNewSc .getResults => False
  | _ => True

theorem quiet_step {e : ScEvent} (hdone : s.newSc.done ≠ 0) (hquiet : Quiet s e)
    (hatomic : Atomic s e) : (scStep outside s e).newSc = s.newSc := by
  cases e with
  | newScIoctl arg => exact hatomic.1 hquiet
  | setNewSc cmd =>
    cases cmd with
    | setReason reason => rfl
    | invalid => rfl
    | _ => exact absurd hquiet id
  | probeReq pframe len => exact if_neg fun h => hdone h.2.1
  | _ => rfl

theorem completed_result_kept {es : List ScEvent} (hdone : s.newSc.done ≠ 0)
    (hquiet : Each (scStep outside) Quiet s es) (hatomic : Each (scStep outside) Atomic s es) :
    (exec (scStep outside) s es).newSc = s.newSc := by
  induction es generalizing s with
  | nil => rfl
  | cons e es ih =>
    have hstep := @quiet_step outside s e hdone hquiet.1 hatomic.1
    rw [exec_cons, ih (hstep ▸ hdone) hquiet.2 hatomic.2, hstep]

theorem onProbeReq_newSc {pframe : List UInt8} {len : ℕ}
    (h : s.newSc.enable ≠ 0 ∧ s.newSc.done = 0 ∧ (len < 24 ∨ 255 < len - 24)) :
    (s.onProbeReq outside pframe len).newSc =
      ezProbeReqHandler s.ez.deviceInfo s.newSc pframe len := if_pos h

def answer : List UInt8 :=
  List.replicate 24 0 ++ [0, 0, 207, 5] ++ syncCode ++ List.replicate 250 0

def oversized : List ScEvent := [.setNewSc .init, .probeReq answer 283, .newScIoctl (.data 513 [])]

theorem completed_answer (outside : Outside) :
    ((ScState.init.setNewSc .init).onProbeReq outside answer 283).newSc =
      ⟨1, 1, overlay (Vector.replicate 512 0) 0 syncCode, 5⟩ := by
  have hvalid : checkSnValid ScState.init.ez.deviceInfo = false := by
    simp [checkSnValid, ScState.init, EzState.init]
  have hoffset : checkProbeSyncEID false (answer.drop 24) (283 - 24) = 2 := by decide +kernel
  have hlen : (answer.drop 24).getD (2 + 1) 0 = 5 := by decide
  have hbody : (List.range 5).map (fun k => (answer.drop 24).getD (2 + 2 + k) 0) = syncCode := by
    decide
  rw [onProbeReq_newSc ⟨by decide, rfl, by decide⟩, ezProbeReqHandler]
  simp only [ScState.setNewSc, ezSetNewSc, hvalid, hoffset, hlen]
  rw [if_pos (by decide), show (5 : UInt8).toNat = 5 from rfl, hbody]
  rfl

theorem oversized_call_zeroes_result :
    ¬ ∀ outside : Outside, Each (scStep outside) Atomic .init oversized := by
  intro hall
  have hatomic := (hall ⟨fun _ => 0, fun _ => 0, fun _ => 0, fun _ => 0⟩).2.2.1
  have hzero := (atomic_iff _ _).mp hatomic
  simp only [Sound, scStep, completed_answer] at hzero
  rw [if_pos (by decide)] at hzero
  have hblank : overlay (Vector.replicate 512 (0 : UInt8)) 0 syncCode = Vector.replicate 512 0 :=
    Vector.toList_inj.mp (hzero.trans Vector.toList_replicate.symm)
  have hfirst := congrArg (fun v : Vector UInt8 512 => v[0]) hblank
  simp [overlay, syncCode] at hfirst

end Session

end Ez
