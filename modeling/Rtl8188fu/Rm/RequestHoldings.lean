import Rtl8188fu.Rm.RequestBounds

namespace Rm

open ByteMemory ElementScan

structure Held where
  rpts : List OperatingClass
  reqStart : Option (List UInt8)
  reqLen : UInt8
  blocks : List Block

def Held.nothing : Held := ⟨[], none, 0, []⟩

def MeasReqObj.held (q : MeasReqObj) : Held :=
  ⟨q.opt.apChRpt, q.opt.reqStart, q.opt.reqLen, q.blocks⟩

def heldElem (env : ParseEnv) (mem : Mem UInt8) (p : ℕ) (a : Held) : Held :=
  if mem p = bcnReqReq then
    if env.alloc p then
      { a with
        reqStart := some (read mem (p + 2) (mem (p + 1)).toNat)
        reqLen := mem (p + 1)
        blocks := a.blocks ++ requestBlock (mem (p + 1)) }
    else { a with reqStart := none }
  else if mem p = bcnReqApChRep then
    if bcnReqOptApChRptMaxNum < a.rpts.length then a
    else
      { a with
        rpts := a.rpts ++ [receivedClass mem p]
        blocks := a.blocks ++ classBlock (env.alloc p) }
  else a

inductive HeldStep (env : ParseEnv) (mem : Mem UInt8) : ℕ → Held → Held → Prop
  | keep (p : ℕ) (a : Held) : HeldStep env mem p a a
  | request (p : ℕ) (a : Held) : mem p = bcnReqReq → env.alloc p = true → HeldStep env mem p a
      { a with
        reqStart := some (read mem (p + 2) (mem (p + 1)).toNat)
        reqLen := mem (p + 1)
        blocks := a.blocks ++ requestBlock (mem (p + 1)) }
  | noBuffer (p : ℕ) (a : Held) : mem p = bcnReqReq → env.alloc p = false →
      HeldStep env mem p a { a with reqStart := none }
  | report (p : ℕ) (a : Held) : mem p = bcnReqApChRep →
      a.rpts.length ≤ bcnReqOptApChRptMaxNum → HeldStep env mem p a
      { a with
        rpts := a.rpts ++ [receivedClass mem p]
        blocks := a.blocks ++ classBlock (env.alloc p) }

section Holdings

variable {env : ParseEnv} {mem : Mem UInt8} {q : MeasReqObj} {s : Scan MeasReqObj}
  {P : Held → Prop}

@[simp] theorem rmEnCapChkAndSet_held (cap : RmCapEn → Bool) (en : RmCapEn) :
    (q.rmEnCapChkAndSet cap en).held = q.held := by
  unfold MeasReqObj.rmEnCapChkAndSet
  split <;> rfl

theorem chkBcnMode_held (cap : RmCapEn → Bool) (q : MeasReqObj) :
    (chkBcnMode cap q).held = q.held := by
  unfold chkBcnMode
  split
  · exact rmEnCapChkAndSet_held _ _
  · split
    · exact rmEnCapChkAndSet_held _ _
    · split
      · exact rmEnCapChkAndSet_held _ _
      · rfl

theorem parseCondElem_held (repInfo : UInt8) (en : RmCapEn) (p : ℕ) (q : MeasReqObj) :
    (parseCondElem env mem repInfo en p q).held = q.held := by
  unfold parseCondElem
  split
  · exact rmEnCapChkAndSet_held _ _
  · rfl

theorem parseBcnElem_held (p : ℕ) (q : MeasReqObj) :
    (parseBcnElem env mem p q).held = heldElem env mem p q.held := by
  unfold parseBcnElem heldElem
  split
  · next hid =>
    rw [hid]
    rfl
  · split
    · next hid =>
      have hkept : ({ q.rmEnCapChkAndSet env.cap .bcnMeasRepCond with
          opt.repCond := ⟨mem (p + 2), mem (p + 3)⟩ } : MeasReqObj).held = q.held :=
        rmEnCapChkAndSet_held _ _
      rw [hid]
      exact hkept
    · split
      · next hid =>
        rw [hid]
        rfl
      · split
        · unfold rmParseReq
          cases env.alloc p <;> rfl
        · split
          · show MeasReqObj.held (if _ then _ else _) = if bcnReqOptApChRptMaxNum <
              q.opt.apChRpt.length then _ else _
            split <;> rfl
          · rfl

theorem heldStep_heldElem (p : ℕ) (a : Held) : HeldStep env mem p a (heldElem env mem p a) := by
  unfold heldElem
  split
  · next hid =>
    split
    · next halloc => exact .request p a hid halloc
    · next halloc => exact .noBuffer p a hid (Bool.eq_false_of_not_eq_true halloc)
  · split
    · next hid =>
      split
      · exact .keep p a
      · next hroom => exact .report p a hid (Nat.le_of_not_lt hroom)
    · exact .keep p a

theorem heldStep_bcnElem (p : ℕ) (q : MeasReqObj) :
    HeldStep env mem p q.held (parseBcnElem env mem p q).held := by
  rw [parseBcnElem_held]
  exact heldStep_heldElem p q.held

theorem parseElements_held {hd : Handler MeasReqObj}
    (hstep : ∀ p q, P q.held → P (hd.handle p q).held) {fuel p reach : ℕ} {len : ℤ}
    (hq : P q.held) (hrun : parseElements mem hd fuel p len reach q = some s) : P s.obj.held := by
  have hstart : P ({ q with optSElemLen := len } : MeasReqObj).held := hq
  exact @parseElements_invariant mem q s (fun q => P q.held) hd (fun p q hq _ => hstep p q hq) fuel
    p reach len hstart hrun

theorem rmParseMeasReq_held (hstep : ∀ p a b, HeldStep env mem p a b → P a → P b)
    (hq : P q.held) {fuel pbody reach : ℕ}
    (hrun : rmParseMeasReq env mem fuel pbody reach q = some s) : P s.obj.held := by
  unfold rmParseMeasReq at hrun
  dsimp only at hrun
  generalize hstart : (if (measFields mem pbody q).mType = bcnReq then
    bcnFields mem pbody (measFields mem pbody q) else measFields mem pbody q) = start at hrun
  have hheld : P start.held := by
    have hsame : start.held = q.held := by
      rw [← hstart]
      split <;> rfl
    rw [hsame]
    exact hq
  have hcond : ∀ repInfo en p q, P q.held →
      P (parseCondElem env mem repInfo en p q).held := by
    intro repInfo en p q hq
    rw [parseCondElem_held]
    exact hq
  split at hrun
  · cases hrun
    exact hheld
  · split at hrun
    · exact parseElements_held (fun p q hq => hstep p _ _ (heldStep_bcnElem p q) hq) hheld hrun
    · split at hrun
      · exact parseElements_held (hcond _ _) hheld hrun
      · split at hrun
        · exact parseElements_held (hcond _ _) hheld hrun
        · cases hrun
          exact hheld

theorem received_held (hstep : ∀ p a b, HeldStep env mem p a b → P a → P b) (hzero : P .nothing)
    {fuel : ℕ} {r : Received} (hrun : rmRecvRadioMensReq env mem fuel = some r) : P r.q.held := by
  have hparsed {q : MeasReqObj} (hq : q.held = .nothing)
      (hmap : (rmParseMeasReq env mem fuel 5 10 q).map Received.ofScan = some r) :
      P r.q.held := by
    obtain ⟨s, hs, rfl⟩ := Option.map_eq_some_iff.mp hmap
    exact rmParseMeasReq_held hstep (hq ▸ hzero) hs
  unfold rmRecvRadioMensReq at hrun
  dsimp only at hrun
  split at hrun
  · cases hrun
    exact hzero
  · split at hrun
    · exact hparsed (chkBcnMode_held _ _) hrun
    · split at hrun
      · exact hparsed (rmEnCapChkAndSet_held _ _) hrun
      · split at hrun
        · exact hparsed (rmEnCapChkAndSet_held _ _) hrun
        · cases hrun
          exact hzero

end Holdings

end Rm

namespace Rm

open ByteMemory ElementScan WhileLoop

namespace Held

def freed (a : Held) : List Block :=
  match a.reqStart with
  | none => []
  | some _ => requestBlock a.reqLen

def lost (a : Held) : List Block := a.blocks.diff a.freed

def Known (a : Held) : Prop := ∀ b ∈ a.freed, b ∈ a.blocks

theorem nothing_known : Known .nothing := fun _ hb => absurd hb List.not_mem_nil

theorem freed_cases (a : Held) : a.freed = [] ∨ ∃ b, a.freed = [b] := by
  unfold freed
  split
  · exact .inl rfl
  · unfold requestBlock
    split
    · exact .inl rfl
    · exact .inr ⟨_, rfl⟩

theorem Known.length_lost {a : Held} (h : a.Known) :
    a.lost.length + a.freed.length = a.blocks.length := by
  rw [lost]
  cases a.freed_cases with
  | inl hnone =>
    rw [hnone, List.diff_nil]
    rfl
  | inr hone =>
    obtain ⟨b, hb⟩ := hone
    have hmem : b ∈ a.blocks := h b (hb ▸ List.mem_singleton_self b)
    rw [hb, List.diff_cons, List.diff_nil, List.length_erase_of_mem hmem, List.length_singleton]
    exact Nat.sub_add_cancel (List.length_pos_of_mem hmem)

end Held

structure Keeps (env : ParseEnv) (mem : Mem UInt8) (p : ℕ) (a : Held) : Prop where
  request : mem p = bcnReqReq → a.freed = []
  report : mem p = bcnReqApChRep → a.rpts.length ≤ bcnReqOptApChRptMaxNum → env.alloc p = false

def dropped (env : ParseEnv) (mem : Mem UInt8) (p : ℕ) (a : Held) : List Block :=
  if mem p = bcnReqReq then a.freed
  else if mem p = bcnReqApChRep then
    if bcnReqOptApChRptMaxNum < a.rpts.length then [] else classBlock (env.alloc p)
  else []

def KeepsHoldings (env : ParseEnv) (mem : Mem UInt8) (s : Scan MeasReqObj) : Prop :=
  Keeps env mem s.p s.obj.held

def bcnStart (env : ParseEnv) (mem : Mem UInt8) : Scan MeasReqObj where
  obj := { bcnFields mem 5 (measFields mem 5 (chkBcnMode env.cap (measHeader mem))) with
    optSElemLen := sElemLen mem }
  p := 23
  len := sElemLen mem
  reach := 23
  late := false

def TidyRequest (env : ParseEnv) (mem : Mem UInt8) : Prop :=
  mem 5 = measReqIe → mem 9 = bcnReq → 0 < sElemLen mem →
    Throughout (loop mem (bcnElements env mem)) (KeepsHoldings env mem) (bcnStart env mem)

section Leaks

variable {env : ParseEnv} {mem : Mem UInt8} {a : Held} {s t : Scan MeasReqObj}

theorem keeps_iff (p : ℕ) (a : Held) : Keeps env mem p a ↔ dropped env mem p a = [] := by
  unfold dropped
  constructor
  · intro h
    split
    · next hid => exact h.request hid
    · split
      · next hid =>
        split
        · rfl
        · next hroom =>
          rw [h.report hid (Nat.le_of_not_lt hroom)]
          rfl
      · rfl
  · intro h
    split at h
    · next hid =>
      refine ⟨fun _ => h, fun hrep => ?_⟩
      exact absurd (hid.symm.trans hrep) (by decide)
    · next hreq =>
      refine ⟨fun hid => absurd hid hreq, fun hrep hroom => ?_⟩
      rw [if_pos hrep, if_neg (Nat.not_lt.mpr hroom)] at h
      cases halloc : env.alloc p with
      | false => rfl
      | true =>
        rw [halloc] at h
        cases h

theorem HeldStep.known {b : Held} {p : ℕ} (hstep : HeldStep env mem p a b) (h : a.Known) :
    b.Known := by
  cases hstep with
  | keep => exact h
  | request => exact fun _ hb => List.mem_append_right _ hb
  | noBuffer => exact fun _ hb => absurd hb List.not_mem_nil
  | report => exact fun b hb => List.mem_append_left _ (h b hb)

theorem blocks_heldElem (p : ℕ) (a : Held) :
    (heldElem env mem p a).blocks.length + a.freed.length =
      a.blocks.length + (heldElem env mem p a).freed.length + (dropped env mem p a).length := by
  unfold heldElem dropped
  split
  · split
    · rw [List.length_append]
      rfl
    · rfl
  · split
    · split
      · rfl
      · rw [List.length_append]
        exact Nat.add_right_comm _ _ _
    · rfl

theorem length_lost_heldElem (h : a.Known) (p : ℕ) :
    (heldElem env mem p a).lost.length = a.lost.length + (dropped env mem p a).length := by
  have hbefore := h.length_lost
  have hafter := ((@heldStep_heldElem env mem p a).known h).length_lost
  have hblocks := @blocks_heldElem env mem p a
  omega

theorem scan_lost (h : s.obj.held.Known) {fuel : ℕ}
    (hrun : run (loop mem (bcnElements env mem)) fuel s = some t) :
    s.obj.held.lost.length ≤ t.obj.held.lost.length ∧
      (t.obj.held.lost.length = s.obj.held.lost.length ↔
        Throughout (loop mem (bcnElements env mem)) (KeepsHoldings env mem) s) := by
  induction fuel generalizing s with
  | zero => cases hrun
  | succ fuel ih =>
    cases hguard : (loop mem (bcnElements env mem)).guard s with
    | false =>
      rw [run_done fuel hguard] at hrun
      cases hrun
      exact ⟨Nat.le_refl _, iff_of_true rfl (throughout_done hguard)⟩
    | true =>
      rw [run_again fuel hguard rfl] at hrun
      have hheld : (advance mem (bcnElements env mem) s).obj.held =
          heldElem env mem s.p s.obj.held := parseBcnElem_held s.p s.obj
      have hnext : (advance mem (bcnElements env mem) s).obj.held.Known := by
        rw [hheld]
        exact (heldStep_heldElem s.p s.obj.held).known h
      have hgrown : (advance mem (bcnElements env mem) s).obj.held.lost.length =
          s.obj.held.lost.length + (dropped env mem s.p s.obj.held).length := by
        rw [hheld]
        exact length_lost_heldElem h s.p
      obtain ⟨hle, hiff⟩ := ih hnext hrun
      have hhere : KeepsHoldings env mem s ↔ (dropped env mem s.p s.obj.held).length = 0 :=
        (keeps_iff s.p s.obj.held).trans List.length_eq_zero_iff.symm
      rw [throughout_again hguard rfl, ← hiff, hhere]
      omega

theorem lost_of_untouched {q : MeasReqObj} (h : q.held = .nothing) : q.held.lost = [] := by
  rw [h]
  rfl

theorem rmParseMeasReq_held_other {q : MeasReqObj} (htype : q.mType ≠ bcnReq)
    {fuel pbody reach : ℕ} (hrun : rmParseMeasReq env mem fuel pbody reach q = some s) :
    s.obj.held = q.held := by
  have hcond : ∀ repInfo en p (q' : MeasReqObj), q'.held = q.held →
      (parseCondElem env mem repInfo en p q').held = q.held := by
    intro repInfo en p q' hq'
    rw [parseCondElem_held]
    exact hq'
  have hother : (measFields mem pbody q).mType ≠ bcnReq := htype
  unfold rmParseMeasReq at hrun
  dsimp only at hrun
  rw [if_neg hother, if_neg hother] at hrun
  split at hrun
  · cases hrun
    rfl
  · split at hrun
    · exact @parseElements_held mem (measFields mem pbody q) s (fun a => a = q.held)
        (chLoadElements env mem) (hcond _ _) _ _ _ _ rfl hrun
    · split at hrun
      · exact @parseElements_held mem (measFields mem pbody q) s (fun a => a = q.held)
          (noiseHistoElements env mem) (hcond _ _) _ _ _ _ rfl hrun
      · cases hrun
        rfl

theorem bcn_lost {fuel : ℕ} (hbcn : mem 9 = bcnReq)
    (hrun : rmParseMeasReq env mem fuel 5 10 (chkBcnMode env.cap (measHeader mem)) = some s) :
    s.obj.held.lost = [] ↔ (0 < sElemLen mem →
      Throughout (loop mem (bcnElements env mem)) (KeepsHoldings env mem) (bcnStart env mem)) := by
  have htype : (measFields mem 5 (chkBcnMode env.cap (measHeader mem))).mType = bcnReq :=
    ((measHeader_fresh mem).chkBcnMode env.cap).mType.trans hbcn
  have hheld : (bcnStart env mem).obj.held = .nothing := chkBcnMode_held env.cap (measHeader mem)
  have hkept : (bcnFields mem 5 (measFields mem 5 (chkBcnMode env.cap (measHeader mem)))).mType =
      bcnReq := htype
  have hlen : ((mem (5 + 1)).toNat : ℤ) - ((measHead bcnReq : ℤ) - 2) = sElemLen mem := by
    rw [sElemLen, hbcn]
  unfold rmParseMeasReq at hrun
  dsimp only at hrun
  rw [if_pos htype, hkept, hlen] at hrun
  split at hrun
  · next hnone =>
    cases hrun
    exact iff_of_true (lost_of_untouched hheld) fun hpos => absurd hpos (not_lt.mpr hnone)
  · next hsome =>
    have hknown : (bcnStart env mem).obj.held.Known := by
      rw [hheld]
      exact Held.nothing_known
    have hzero : (bcnStart env mem).obj.held.lost.length = 0 := by rw [hheld]; rfl
    rw [if_pos rfl] at hrun
    have hlost := (scan_lost hknown (s := bcnStart env mem) hrun).2
    rw [hzero, List.length_eq_zero_iff] at hlost
    rw [hlost]
    exact ⟨fun h _ => h, fun h => h (not_le.mp hsome)⟩

theorem received_lost {fuel : ℕ} {r : Received}
    (hrun : rmRecvRadioMensReq env mem fuel = some r) :
    r.q.held.lost = [] ↔ TidyRequest env mem := by
  have hparsed {q : MeasReqObj} (hq : q.held = .nothing) (htype : q.mType ≠ bcnReq)
      (hmap : (rmParseMeasReq env mem fuel 5 10 q).map Received.ofScan = some r) :
      r.q.held.lost = [] := by
    obtain ⟨s, hs, rfl⟩ := Option.map_eq_some_iff.mp hmap
    exact lost_of_untouched ((rmParseMeasReq_held_other htype hs).trans hq)
  unfold rmRecvRadioMensReq at hrun
  dsimp only at hrun
  split at hrun
  · next hid =>
    cases hrun
    exact iff_of_true rfl fun hid' => absurd hid' hid
  · next hid =>
    have hid' : mem 5 = measReqIe := not_not.mp hid
    split at hrun
    · next hbcn =>
      have hbcn' : mem 9 = bcnReq := hbcn
      obtain ⟨s, hs, rfl⟩ := Option.map_eq_some_iff.mp hrun
      exact (bcn_lost hbcn' hs).trans ⟨fun h _ _ => h, fun h => h hid' hbcn'⟩
    · next hother =>
      refine iff_of_true ?_ fun _ hbcn => absurd hbcn hother
      split at hrun
      · exact hparsed (rmEnCapChkAndSet_held _ _)
          (fun h => hother ((rmEnCapChkAndSet_mType _ _ _).symm.trans h)) hrun
      · split at hrun
        · exact hparsed (rmEnCapChkAndSet_held _ _)
            (fun h => hother ((rmEnCapChkAndSet_mType _ _ _).symm.trans h)) hrun
        · cases hrun
          rfl

end Leaks

end Rm
