import Mathlib.Algebra.Order.Group.Int
import Rtl8188fu.Lib.Run
import Rtl8188fu.Ez.Discovery

namespace Ez

open BoundedMemory

def received (pframe : List UInt8) (len : ℕ) : Option EzProbe :=
  if len ≤ 23 then none
  else
    let offset := checkProbeSyncEid208 (pframe.drop 24) (len - 24)
    if offset = 0 then none else some (EzProbe.copied (pframe.drop 24) offset)

inductive Answer where
  | silent
  | device
  | reason
  | other
  deriving DecidableEq

def answerKind (s : EzState) (p : EzProbe) : Answer :=
  if snMatches p.value s.deviceInfo = false then .silent
  else if p.id = 0x6990 then .device
  else if p.id = 0x6992 then if s.errStatus = 0 then .silent else .reason
  else .other

def answer (s : EzState) (p : EzProbe) : EzProbe :=
  match answerKind s p with
  | .silent => p
  | .device => { p with id := 0x6991 }
  | .reason => { p with
      elementLen := p.elementLen + 4
      id := 0x6993
      value := overlay p.value p.len.toNat (reasonTlv s.errStatus) }
  | .other => p

def answerAccesses (s : EzState) (p : EzProbe) : List (Access Buffer) :=
  let p' := answer s p
  let print : Access Buffer := ⟨.respValue, 0, min p'.len.toNat (printed p'.value)⟩
  [⟨.respValue, 0, 32⟩, ⟨.respValue, 0, 9⟩] ++
    match answerKind s p with
    | .silent => []
    | .device => [print]
    | .reason => [⟨.respValue, p.len.toNat, 4⟩, print]
    | .other => [print]

theorem answerProbe_eq (s : EzState) (p : EzProbe) (offset : ℕ) :
    answerProbe s p offset =
      ⟨{ s with probeResp := answer s p }, if answerKind s p = .silent then 0 else offset,
        answerAccesses s p⟩ := by
  unfold answerProbe answer answerAccesses answer answerKind
  by_cases hsn : snMatches p.value s.deviceInfo = false
  · simp [hsn]
  by_cases hdevice : p.id = 0x6990
  · simp [hsn, hdevice]
  cases Decidable.em (p.id = 0x6992) with
  | inl hreason => by_cases herr : s.errStatus = 0 <;> simp [hsn, hreason, herr]
  | inr hreason => simp [hsn, hdevice, hreason]

theorem handler_none {s : EzState} {pframe : List UInt8} {len : ℕ}
    (h : received pframe len = none) :
    (ezProbeRequstEid208Handler s pframe len).ret ≤ 0 ∧
      (ezProbeRequstEid208Handler s pframe len).state = s ∧
      (ezProbeRequstEid208Handler s pframe len).accesses = [] := by
  unfold received at h
  unfold ezProbeRequstEid208Handler
  cases Decidable.em (len ≤ 23) with
  | inl hlen => simp [hlen]
  | inr hlen =>
    cases Decidable.em (checkProbeSyncEid208 (pframe.drop 24) (len - 24) = 0) with
    | inl hoffset => simp [hlen, hoffset]
    | inr hoffset => simp [hlen, hoffset] at h

theorem handler_some {s : EzState} {pframe : List UInt8} {len : ℕ} {p : EzProbe}
    (h : received pframe len = some p) :
    ∃ offset, 0 < offset ∧ ezProbeRequstEid208Handler s pframe len = answerProbe s p offset := by
  unfold received at h
  unfold ezProbeRequstEid208Handler
  cases Decidable.em (len ≤ 23) with
  | inl hlen => simp [hlen] at h
  | inr hlen =>
    cases Decidable.em (checkProbeSyncEid208 (pframe.drop 24) (len - 24) = 0) with
    | inl hoffset => simp [hlen, hoffset] at h
    | inr hoffset =>
      simp only [hlen, hoffset, if_false, Option.some.injEq] at h ⊢
      exact ⟨_, Nat.pos_of_ne_zero hoffset, by rw [h]⟩

theorem installed_none {outside : Outside} {s : EzState} {pframe : List UInt8} {len : ℕ}
    (h : received pframe len = none) : (onProbeReq outside s pframe len).installed = none := by
  have hret := (handler_none (s := s) h).1
  unfold onProbeReq
  simp only [if_neg (not_lt.mpr hret)]
  split <;> rfl

theorem onProbeReq_silent {outside : Outside} {s : EzState} {pframe : List UInt8} {len : ℕ}
    {p : EzProbe} (h : received pframe len = some p) (hk : answerKind s p = .silent) :
    (onProbeReq outside s pframe len).installed = none ∧
      (onProbeReq outside s pframe len).accesses = answerAccesses s p := by
  obtain ⟨offset,-,he⟩ := handler_some (s := s) h
  unfold onProbeReq
  rw [he, answerProbe_eq]
  simp only [hk, if_true, lt_irrefl, if_false]
  split <;> exact ⟨rfl, rfl⟩

theorem onProbeReq_answered {outside : Outside} {s : EzState} {pframe : List UInt8} {len : ℕ}
    {p : EzProbe} (h : received pframe len = some p) (hk : answerKind s p ≠ .silent) :
    ∃ n, n = ((answer s p).elementLen + 2).toNat ∧
      onProbeReq outside s pframe len =
        ⟨rtwEzvizIeSet { s with probeResp := answer s p } 4
            (read (answer s p).bytes outside.resp) n, some n,
          answerAccesses s p ++ [⟨.respValue, 0, n - 10⟩]⟩ := by
  obtain ⟨offset,hpos,he⟩ := handler_some (s := s) h
  refine ⟨_, rfl, ?_⟩
  unfold onProbeReq
  rw [he, answerProbe_eq]
  simp [hk, hpos]

def answerLen (s : EzState) (p : EzProbe) : ℕ :=
  (p.elementLen.toNat + if answerKind s p = .reason then 6 else 2) % 256

theorem answer_elementLen (s : EzState) (p : EzProbe) :
    ((answer s p).elementLen + 2).toNat = answerLen s p := by
  unfold answer answerLen
  cases answerKind s p <;> simp [UInt8.toNat_add, Nat.add_assoc]

def LengthFits (s : EzState) (p : EzProbe) : Prop :=
  answerKind s p ≠ .silent → answerLen s p ≤ 42

def InsideObject (outside : Outside) (s : EzState) (e : Event) : Prop :=
  ∀ n, (handle outside s e).installed = some n →
    n ≤ 42 ∧ (step outside s e).vendorIe = (step outside s e).probeResp.bytes.toList.take n

def AnswerFits (s : EzState) : Event → Prop
  | .probeReq pframe len => ∀ p, received pframe len = some p → LengthFits s p
  | _ => True

theorem insideObject_iff (outside : Outside) (s : EzState) (e : Event) :
    InsideObject outside s e ↔ AnswerFits s e := by
  cases e with
  | probeReq pframe len =>
    cases h : received pframe len with
    | none => simp [InsideObject, AnswerFits, handle, installed_none h, h]
    | some p =>
      simp only [InsideObject, AnswerFits, step, handle, h, Option.some.injEq, forall_eq']
      cases Decidable.em (answerKind s p = .silent) with
      | inl hk => simp [(onProbeReq_silent h hk).1, LengthFits, hk]
      | inr hk =>
        obtain ⟨n,hn,he⟩ := @onProbeReq_answered outside _ _ _ _ h hk
        rw [answer_elementLen] at hn
        simp only [he, Option.some.injEq, forall_eq', LengthFits, ← hn]
        refine ⟨fun hin _ => hin.1, fun hfit => ⟨hfit hk, ?_⟩⟩
        simp only [rtwEzvizIeSet]
        exact map_read_take _ _ (hfit hk)
  | probeRsp pframe len => simp [InsideObject, AnswerFits, handle]
  | scan sc => simp [InsideObject, AnswerFits, handle]
  | deviceInfo len user => simp [InsideObject, AnswerFits, handle]
  | newSc cmd => simp [InsideObject, AnswerFits, handle]
  | newScIoctl buf => simp [InsideObject, AnswerFits, handle]
  | joinFail result => simp [InsideObject, AnswerFits, handle]

theorem probe_response_inside_iff (outside : Outside) (s : EzState) (es : List Event) :
    Run.Each (step outside) (InsideObject outside) s es ↔ Run.Each (step outside) AnswerFits s es :=
  Run.each_iff (step outside) _ _ (fun _ => True) (fun s e _ => insideObject_iff outside s e)
    (fun _ _ _ _ => trivial) trivial es

def longElementFrame : List UInt8 :=
  List.replicate 24 0 ++ [0, 0, 208, 253, 0x45, 0x5A, 0x56, 0x49, 0x5A, 0x90, 0x69, 9] ++
    List.replicate 32 0

theorem probe_response_leaks :
    ¬ ∀ outside es, Run.Each (step outside) (InsideObject outside) .init es := by
  intro h
  have hlen := (h ⟨fun _ => 0, fun _ => 0, fun _ => 0, fun _ => 0⟩
    [.probeReq longElementFrame 68]).1 255 (by decide)
  omega

end Ez
