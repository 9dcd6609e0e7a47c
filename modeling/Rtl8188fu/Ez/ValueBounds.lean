import Rtl8188fu.Ez.ProbeResponse

namespace Ez

open BoundedMemory

theorem printed_le (v : Vector UInt8 32) : printed v ≤ 32 ↔ 0 ∈ v.toList :=
  terminatorReach_le v 0

def Printable (p : EzProbe) : Prop := p.len.toNat ≤ 32 ∨ 0 ∈ p.value.toList

theorem inside_print (p : EzProbe) :
    Inside Buffer.size ⟨.respValue, 0, min p.len.toNat (printed p.value)⟩ ↔ Printable p := by
  rw [inside_from_start, Buffer.size, min_le_iff, printed_le, Printable]

def AnswerSafe (s : EzState) (p : EzProbe) : Prop :=
  answerKind s p ≠ .silent →
    Printable (answer s p) ∧ answerLen s p ≤ 42 ∧ (answerKind s p = .reason → p.len.toNat ≤ 28)

def requestValue (s : EzState) (sc : EzScanCmd) : List UInt8 :=
  sc.value.toList.take sc.len.toNat ++ s.probeReq.value.toList.drop sc.len.toNat

def TrigSafe (s : EzState) (sc : EzScanCmd) : Prop :=
  sc.len.toNat ≤ 32 ∧ (sc.len = 0 ∧ s.probeReq.len = 0 ∨ 0 ∈ requestValue s sc)

def PollReasonSafe (outside : Outside) (s : EzState) : Prop :=
  s.probeResp.len.toNat ≤ 28 ∧
    (u16Of ((reasonBytes outside s).get 0) ((reasonBytes outside s).get 1) = 0x6994 →
      ((reasonBytes outside s).get 2).toNat ≤ 32)

def ScanSafe (outside : Outside) (s : EzState) (sc : EzScanCmd) : Prop :=
  match scanKind sc.cmd with
  | .trigScanDevice => TrigSafe s sc
  | .trigScanReason => TrigSafe s sc
  | .pollDevice => s.probeResp.len.toNat ≤ 32
  | .pollReason => PollReasonSafe outside s
  | .scanIdle => True
  | .invalid => True

def LengthsSafe (outside : Outside) (s : EzState) : Event → Prop
  | .probeReq pframe len => ∀ p, received pframe len = some p → AnswerSafe s p
  | .probeRsp pframe len => s.probeResp.len = 0 → ∀ p, received pframe len = some p → Printable p
  | .scan sc => ScanSafe outside s sc
  | .deviceInfo len user => len.toNat ≤ 41 ∨ user.length < 9
  | _ => True

def InBounds (outside : Outside) (s : EzState) (e : Event) : Prop :=
  AllInside Buffer.size (handle outside s e).accesses

theorem probeReq_inBounds (outside : Outside) (s : EzState) (pframe : List UInt8) (len : ℕ) :
    InBounds outside s (.probeReq pframe len) ↔ LengthsSafe outside s (.probeReq pframe len) := by
  simp only [InBounds, LengthsSafe, handle]
  cases h : received pframe len with
  | none =>
    obtain ⟨hret,-,haccess⟩ := handler_none (s := s) h
    simp only [onProbeReq, if_neg (not_lt.mpr hret), haccess]
    split <;> simp
  | some p =>
    simp only [Option.some.injEq, forall_eq']
    have hcopy : Inside Buffer.size ⟨.respValue, 0, 32⟩ := .inr le_rfl
    have hcompare : Inside Buffer.size ⟨.respValue, 0, 9⟩ := .inr (by decide)
    cases Decidable.em (answerKind s p = .silent) with
    | inl hk =>
      rw [(onProbeReq_silent h hk).2]
      simp [answerAccesses, AnswerSafe, hk, hcopy, hcompare]
    | inr hk =>
      obtain ⟨n,hn,he⟩ := @onProbeReq_answered outside _ _ _ _ h hk
      rw [answer_elementLen] at hn
      have hie : Inside Buffer.size ⟨.respValue, 0, n - 10⟩ ↔ answerLen s p ≤ 42 := by
        rw [inside_from_start, Buffer.size, ← hn]
        omega
      have htlv : Inside Buffer.size ⟨.respValue, p.len.toNat, 4⟩ ↔ p.len.toNat ≤ 28 := by
        simp only [Inside, Buffer.size]
        omega
      rw [he]
      simp only [answerAccesses, allInside_append, allInside_cons, allInside_nil, hcopy, hcompare,
        hie, AnswerSafe]
      cases hkind : answerKind s p <;> simp_all [inside_print, and_comm, and_left_comm]

theorem probeRsp_inBounds (outside : Outside) (s : EzState) (pframe : List UInt8) (len : ℕ) :
    InBounds outside s (.probeRsp pframe len) ↔ LengthsSafe outside s (.probeRsp pframe len) := by
  simp only [InBounds, LengthsSafe, handle, ezProbeResponseEid208Handler, received]
  have hcopy : Inside Buffer.size ⟨.respValue, 0, 32⟩ := .inr le_rfl
  cases Decidable.em (s.probeResp.len = 0) with
  | inl hfull =>
    cases Decidable.em (len ≤ 23) with
    | inl hlen => simp [hlen, hfull]
    | inr hlen =>
      cases Decidable.em (checkProbeSyncEid208 (pframe.drop 24) (len - 24) = 0) with
      | inl hoffset => simp [hlen, hoffset, hfull]
      | inr hoffset =>
        simp [hlen, hoffset, hfull, Nat.pos_of_ne_zero hoffset, hcopy, inside_print]
  | inr hfull => simp [hfull]

theorem uInt8_eq_zero (x : UInt8) : x.toNat = 0 ↔ x = 0 := by
  rw [← UInt8.toNat_inj, UInt8.toNat_zero]

theorem trigScan_inBounds (outside : Outside) (id : UInt16) (s : EzState) (sc : EzScanCmd) :
    AllInside Buffer.size (trigScan outside id s sc).accesses ↔ TrigSafe s sc := by
  cases Decidable.em (sc.len.toNat ≤ 32) with
  | inl hn =>
    have hcmd : Inside Buffer.size ⟨.cmdValue, 0, sc.len.toNat⟩ := (inside_from_start _ _ _).mpr hn
    have hreq : Inside Buffer.size ⟨.reqValue, 0, sc.len.toNat⟩ := (inside_from_start _ _ _).mpr hn
    have hie : Inside Buffer.size ⟨.reqValue, 0, (sc.len + 8 + 2).toNat - 10⟩ := by
      rw [inside_from_start, Buffer.size]
      simp only [UInt8.toNat_add, UInt8.reduceToNat]
      omega
    have hprint : ∀ v : Vector UInt8 32,
        Inside Buffer.size ⟨.reqValue, 0, printed v⟩ ↔ 0 ∈ v.toList := by
      intro v
      rw [inside_from_start, Buffer.size, printed_le]
    simp only [TrigSafe, hn, true_and, requestValue, trigScan]
    cases Decidable.em (sc.len = 0) with
    | inl hzero =>
      cases Decidable.em (s.probeReq.len = 0) with
      | inl hold => simp [hzero, hold, Inside]
      | inr hold =>
        have hzero' : (0 : UInt8).toNat = 0 := rfl
        have hie' : Inside Buffer.size ⟨.reqValue, 0, ((0 : UInt8) + 8 + 2).toNat - 10⟩ := hzero ▸ hie
        simp only [hzero, hzero', hold, if_true, if_false, allInside_append, allInside_cons,
          allInside_nil, hprint, hie']
        simp [Inside]
    | inr hzero =>
      have hzero' : sc.len.toNat ≠ 0 := fun h => hzero ((uInt8_eq_zero _).mp h)
      simp only [hzero, hzero', if_false, allInside_append, allInside_cons, allInside_nil, hcmd,
        hreq, hie, hprint, overlay_prefix _ _ _ hn]
      simp
  | inr hn =>
    have hcmd : ¬ Inside Buffer.size ⟨.cmdValue, 0, sc.len.toNat⟩ := by
      rwa [inside_from_start]
    refine iff_of_false (fun h => ?_) (fun h => hn h.1)
    refine hcmd (h _ ?_)
    simp only [trigScan]
    split <;> split <;> simp

theorem pollReason_inBounds (outside : Outside) (s : EzState) (sc : EzScanCmd) :
    AllInside Buffer.size (pollReason outside s sc).accesses ↔ PollReasonSafe outside s := by
  have hlook : Inside Buffer.size ⟨.respValue, s.probeResp.len.toNat, 4⟩ ↔
      s.probeResp.len.toNat ≤ 28 := by
    simp only [Inside, Buffer.size]
    omega
  have hone : Inside Buffer.size ⟨.cmdValue, 0, 1⟩ := .inr (by decide)
  simp only [pollReason, PollReasonSafe]
  split
  · rename_i htag
    simp only [allInside_append, allInside_cons, allInside_nil, hlook, inside_from_start, Buffer.size,
      htag]
    simp
  · rename_i htag
    simp only [allInside_append, allInside_cons, allInside_nil, hlook, hone, htag]
    simp

theorem scan_inBounds (outside : Outside) (s : EzState) (sc : EzScanCmd) :
    InBounds outside s (.scan sc) ↔ LengthsSafe outside s (.scan sc) := by
  simp only [InBounds, LengthsSafe, handle, ezScanDeviceIoctlHandle, ScanSafe]
  cases scanKind sc.cmd with
  | scanIdle => simp
  | trigScanDevice => exact trigScan_inBounds outside 0x6990 s sc
  | pollDevice => simp [pollDevice, inside_from_start, Buffer.size]
  | trigScanReason => exact trigScan_inBounds outside 0x6992 s sc
  | pollReason => exact pollReason_inBounds outside s sc
  | invalid => simp

theorem deviceInfo_inBounds (outside : Outside) (s : EzState) (len : UInt16) (user : List UInt8) :
    InBounds outside s (.deviceInfo len user) ↔ LengthsSafe outside s (.deviceInfo len user) := by
  have hclear : Inside Buffer.size ⟨.deviceInfo, 0, 41⟩ := .inr le_rfl
  have hsn : Inside Buffer.size ⟨.deviceInfo, 0, 9⟩ := .inr (by decide)
  have hmodel : Inside Buffer.size ⟨.deviceInfo, 9, len.toNat - 9⟩ ↔ len.toNat ≤ 41 := by
    simp only [Inside, Buffer.size]
    omega
  have hleft : (copyFromUser user 0 9).2 = 9 - user.length := rfl
  simp only [InBounds, LengthsSafe, handle, ezDeviceInfoIoctlHandle]
  by_cases hshort : len.toNat ≤ 8
  · rw [if_pos hshort]
    simp only [allInside_cons, allInside_nil, hclear, and_self, true_iff]
    omega
  rw [if_neg hshort]
  by_cases hfault : (copyFromUser user 0 9).2 ≠ 0
  · rw [if_pos hfault]
    simp only [List.cons_append, List.nil_append, allInside_cons, allInside_nil, hclear, hsn,
      and_self, true_iff]
    omega
  rw [if_neg hfault]
  cases Decidable.em (len.toNat - 9 = 0) with
  | inl hnine =>
    rw [if_pos hnine]
    simp only [List.cons_append, List.nil_append, allInside_cons, allInside_nil, hclear, hsn,
      and_self, true_iff]
    omega
  | inr hnine =>
    rw [if_neg hnine]
    simp only [List.cons_append, List.nil_append, allInside_cons, allInside_nil, hclear, hsn,
      hmodel, and_true, true_and]
    omega

theorem inBounds_iff (outside : Outside) (s : EzState) (e : Event) :
    InBounds outside s e ↔ LengthsSafe outside s e := by
  cases e with
  | probeReq pframe len => exact probeReq_inBounds outside s pframe len
  | probeRsp pframe len => exact probeRsp_inBounds outside s pframe len
  | scan sc => exact scan_inBounds outside s sc
  | deviceInfo len user => exact deviceInfo_inBounds outside s len user
  | newSc cmd => simp [InBounds, LengthsSafe, handle]
  | newScIoctl buf => simp [InBounds, LengthsSafe, handle]
  | joinFail result => simp [InBounds, LengthsSafe, handle]

theorem discovery_in_bounds_iff (outside : Outside) (s : EzState) (es : List Event) :
    Run.Each (step outside) (InBounds outside) s es ↔
      Run.Each (step outside) (LengthsSafe outside) s es :=
  Run.each_iff (step outside) _ _ (fun _ => True) (fun s e _ => inBounds_iff outside s e)
    (fun _ _ _ _ => trivial) trivial es

def longValueFrame : List UInt8 :=
  List.replicate 24 0 ++ [0, 0, 208, 40, 0x45, 0x5A, 0x56, 0x49, 0x5A, 0x91, 0x69, 200] ++
    List.replicate 32 0

theorem poll_reads_past_value :
    ¬ ∀ outside es, Run.Each (step outside) (InBounds outside) .init es := by
  intro h
  have hpoll := (h ⟨fun _ => 0, fun _ => 0, fun _ => 0, fun _ => 0⟩
    [.probeRsp longValueFrame 68, .scan ⟨2, 0, Vector.replicate 32 0⟩]).2.1
  exact absurd hpoll (by unfold InBounds; decide)

end Ez
