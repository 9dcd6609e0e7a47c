import Rtl8188fu.Rm.RequestHoldings

namespace Rm

open ByteMemory

def rtwChannelScanAmount : ℕ := 14 + 37

def opClass (globalOpClass : ℤ) (channel : List UInt8)
    (room : channel.length ≤ maxChNumInOpClass) : OperatingClass :=
  ⟨globalOpClass, channel.length, channel, room⟩

def rtwOpClassUs : List OperatingClass :=
  [opClass 0 [] (by decide),
    opClass 115 [36, 40, 44, 48] (by decide),
    opClass 118 [52, 56, 60, 64] (by decide),
    opClass 124 [149, 153, 157, 161] (by decide),
    opClass 121 [100, 104, 108, 112, 116, 120, 124, 128, 132, 136, 140] (by decide),
    opClass 125 [149, 153, 157, 161, 165] (by decide),
    opClass 81 [1, 2, 3, 4, 5, 6, 7, 8, 9, 10, 11] (by decide)]

structure ChSet where
  entries : List (Option UInt8)
  slots : ℕ
  amount : UInt8

def rmGetChSet (opClass chNum : UInt8) : ChSet :=
  if chNum ≠ 0 then ⟨[some chNum], 0, 1⟩
  else
    match rtwOpClassUs.find? fun op => op.globalOpClass == (opClass.toNat : ℤ) with
    | some op => ⟨(List.range op.len.toNat).map fun j => op.channel[j]?, 0, .ofNat op.len.toNat⟩
    | none => ⟨[], 0, 0⟩

def readChannel (slot : ℕ) (op : OperatingClass) (j : ℕ) : Option UInt8 :=
  if slot < bcnReqOptApChRptMaxNum then op.channel[j]? else none

def reportEntries : ℕ → List OperatingClass → List (Option UInt8)
  | _, [] => []
  | slot, op :: ops =>
    (List.range op.len.toNat).map (readChannel slot op) ++ reportEntries (slot + 1) ops

def rmGetChSetFromBcnReqOpt (opt : BcnReqOpt) : ChSet :=
  let entries := reportEntries 0 opt.apChRpt
  ⟨entries, opt.apChRpt.length, .ofNat entries.length⟩

def rmGetChset (q : MeasReqObj) : ChSet :=
  if q.chNum = 0 then rmGetChSet q.opClass q.chNum
  else if q.chNum = 255 then rmGetChSetFromBcnReqOpt q.opt
  else rmGetChSet q.opClass q.chNum

structure ChSet.Kept (c : ChSet) : Prop where
  writes : c.entries.length ≤ rtwChannelScanAmount
  reads : ∀ e ∈ c.entries, e.isSome = true
  slots : c.slots ≤ bcnReqOptApChRptMaxNum
  amount : c.amount.toNat = c.entries.length

def totalLen : List OperatingClass → ℕ
  | [] => 0
  | op :: ops => op.len.toNat + totalLen ops

structure ReportsFit (ops : List OperatingClass) : Prop where
  slots : ops.length ≤ bcnReqOptApChRptMaxNum
  lens : ∀ op ∈ ops, op.len ≤ maxChNumInOpClass
  total : totalLen ops ≤ rtwChannelScanAmount

theorem reportsFit_iff (ops : List OperatingClass) :
    ReportsFit ops ↔ ops.length ≤ bcnReqOptApChRptMaxNum ∧
      (∀ op ∈ ops, op.len ≤ maxChNumInOpClass) ∧ totalLen ops ≤ rtwChannelScanAmount :=
  ⟨fun h => ⟨h.slots, h.lens, h.total⟩, fun h => ⟨h.1, h.2.1, h.2.2⟩⟩

instance (ops : List OperatingClass) : Decidable (ReportsFit ops) :=
  decidable_of_iff _ (reportsFit_iff ops).symm

section Reports

variable {op : OperatingClass} {ops : List OperatingClass} {slot : ℕ}

def Copied (op : OperatingClass) : Prop :=
  op.channel.length = (min op.len maxChNumInOpClass).toNat

theorem receivedClass_copied (mem : Mem UInt8) (p : ℕ) : Copied (receivedClass mem p) :=
  length_read mem (p + 3) _

theorem length_reportEntries (slot : ℕ) (ops : List OperatingClass) :
    (reportEntries slot ops).length = totalLen ops := by
  induction ops generalizing slot with
  | nil => rfl
  | cons op ops ih =>
    rw [reportEntries, totalLen, List.length_append, List.length_map, List.length_range, ih]

theorem isSome_getElem? (l : List UInt8) (j : ℕ) : l[j]?.isSome = true ↔ j < l.length := by
  rw [Option.isSome_iff_ne_none, ne_eq, List.getElem?_eq_none_iff, not_le]

theorem channels_read_iff (h : Copied op) (hslot : slot < bcnReqOptApChRptMaxNum) :
    (∀ e ∈ (List.range op.len.toNat).map (readChannel slot op), e.isSome = true) ↔
      op.len ≤ maxChNumInOpClass := by
  have hroom : op.len ≤ maxChNumInOpClass ↔ op.len.toNat ≤ op.channel.length := by
    rw [h]
    omega
  rw [hroom]
  simp only [List.mem_map, List.mem_range, forall_exists_index, and_imp,
    forall_apply_eq_imp_iff₂, readChannel, if_pos hslot, isSome_getElem?]
  constructor
  · intro hall
    cases hlen : op.len.toNat with
    | zero => exact Nat.zero_le _
    | succ n =>
      rw [hlen] at hall
      exact hall n (Nat.lt_succ_self n)
  · exact fun hle j hj => lt_of_lt_of_le hj hle

theorem entries_read_iff (hcopied : ∀ op ∈ ops, Copied op)
    (hslots : slot + ops.length ≤ bcnReqOptApChRptMaxNum) :
    (∀ e ∈ reportEntries slot ops, e.isSome = true) ↔
      ∀ op ∈ ops, op.len ≤ maxChNumInOpClass := by
  induction ops generalizing slot with
  | nil => simp [reportEntries]
  | cons op ops ih =>
    rw [List.length_cons] at hslots
    have hhere := channels_read_iff (hcopied op List.mem_cons_self) (show slot < _ by omega)
    have hrest := ih (fun op hop => hcopied op (List.mem_cons_of_mem _ hop))
      (show slot + 1 + ops.length ≤ _ by omega)
    rw [reportEntries, List.forall_mem_cons, ← hhere, ← hrest]
    exact List.forall_mem_append

theorem rmGetChSetFromBcnReqOpt_kept {opt : BcnReqOpt} (hcopied : ∀ op ∈ opt.apChRpt, Copied op) :
    (rmGetChSetFromBcnReqOpt opt).Kept ↔ ReportsFit opt.apChRpt := by
  have hlength : (rmGetChSetFromBcnReqOpt opt).entries.length = totalLen opt.apChRpt :=
    length_reportEntries 0 opt.apChRpt
  constructor
  · rintro ⟨hwrites, hreads, hslots, -⟩
    rw [hlength] at hwrites
    exact ⟨hslots, (entries_read_iff hcopied (by rw [Nat.zero_add]; exact hslots)).mp hreads, hwrites⟩
  · rintro ⟨hslots, hlens, htotal⟩
    refine ⟨hlength.le.trans htotal,
      (entries_read_iff hcopied (by rw [Nat.zero_add]; exact hslots)).mpr hlens, hslots, ?_⟩
    have hsmall : (rmGetChSetFromBcnReqOpt opt).entries.length < 2 ^ 8 := by
      rw [hlength]
      exact lt_of_le_of_lt htotal (by decide)
    exact UInt8.toNat_ofNat_of_lt hsmall

end Reports

section Law

theorem rtwOpClassUs_len {op : OperatingClass} (h : op ∈ rtwOpClassUs) :
    op.len.toNat = op.channel.length := by
  simp only [rtwOpClassUs, List.mem_cons, List.not_mem_nil, or_false] at h
  rcases h with rfl | rfl | rfl | rfl | rfl | rfl | rfl <;> rfl

theorem rmGetChSet_kept (opClass chNum : UInt8) : (rmGetChSet opClass chNum).Kept := by
  unfold rmGetChSet
  split
  · refine ⟨show 1 ≤ _ by decide, fun e he => ?_, Nat.zero_le _, rfl⟩
    rw [List.mem_singleton.mp he]
    rfl
  · split
    · next op hfind =>
      have hlen := rtwOpClassUs_len (List.mem_of_find?_eq_some hfind)
      have hroom := op.room
      have hsmall : op.len.toNat ≤ 11 := by
        rw [hlen]
        exact hroom
      refine ⟨?_, fun e he => ?_, Nat.zero_le _, ?_⟩
      · rw [List.length_map, List.length_range]
        exact hsmall.trans (by decide)
      · obtain ⟨j, hj, rfl⟩ := List.mem_map.mp he
        rw [isSome_getElem?, ← hlen]
        exact List.mem_range.mp hj
      · rw [List.length_map, List.length_range]
        exact UInt8.toNat_ofNat_of_lt (lt_of_le_of_lt hsmall (by decide))
    · exact ⟨Nat.zero_le _, fun _ he => absurd he List.not_mem_nil, Nat.zero_le _, rfl⟩

theorem received_copied {env : ParseEnv} {mem : Mem UInt8} {fuel : ℕ} {r : Received}
    (hrun : rmRecvRadioMensReq env mem fuel = some r) : ∀ op ∈ r.q.opt.apChRpt, Copied op := by
  refine @received_held env mem (fun h => ∀ op ∈ h.rpts, Copied op) ?_ ?_ fuel r hrun
  · intro p a b hstep ha
    cases hstep with
    | keep | request | noBuffer => exact ha
    | report =>
      intro op hop
      rcases List.mem_append.mp hop with hold | hnew
      · exact ha op hold
      · rw [List.mem_singleton.mp hnew]
        exact receivedClass_copied mem p
  · exact fun _ hop => absurd hop List.not_mem_nil

theorem chset_law {env : ParseEnv} {mem : Mem UInt8} {fuel : ℕ} {r : Received}
    (hrun : rmRecvRadioMensReq env mem fuel = some r) :
    (rmGetChset r.q).Kept ↔ (r.q.chNum = 255 → ReportsFit r.q.opt.apChRpt) := by
  unfold rmGetChset
  split
  · next hzero =>
    refine iff_of_true (rmGetChSet_kept _ _) fun hall => ?_
    rw [hzero] at hall
    exact absurd hall (by decide)
  · split
    · next hall =>
      rw [rmGetChSetFromBcnReqOpt_kept (received_copied hrun)]
      exact ⟨fun h _ => h, fun h => h hall⟩
    · next hother => exact iff_of_true (rmGetChSet_kept _ _) fun hall => absurd hall hother

def beaconRequestHead (len : UInt8) : List UInt8 :=
  [5, 0, 1, 0, 0, 38, len, 1, 0, 5, 0, 255, 0, 0, 0, 0, 0, 255, 255, 255, 255, 255, 255]

def channelReport : List UInt8 := [51, 12, 81, 1, 2, 3, 4, 5, 6, 7, 8, 9, 10, 11]

def oneReport : List UInt8 := beaconRequestHead 30 ++ channelReport

def fiveReports : List UInt8 :=
  beaconRequestHead 86 ++ channelReport ++ channelReport ++ channelReport ++ channelReport ++
    channelReport

theorem chset_law_oneReport :
    ∃ r, rmRecvRadioMensReq capable (frameAt oneReport) 2 = some r ∧ (rmGetChset r.q).Kept := by
  have hfits : (rmRecvRadioMensReq capable (frameAt oneReport) 2).any
      (fun r => decide (ReportsFit r.q.opt.apChRpt)) = true := by
    decide +kernel
  obtain ⟨r, hr, hfit⟩ := (Option.any_eq_true _ _).mp hfits
  exact ⟨r, hr, (chset_law hr).mpr fun _ => of_decide_eq_true hfit⟩

theorem five_reports_overflow :
    ∃ r, rmRecvRadioMensReq capable (frameAt fiveReports) 6 = some r ∧ ¬ (rmGetChset r.q).Kept := by
  have hmany : (rmRecvRadioMensReq capable (frameAt fiveReports) 6).any
      (fun r => decide (rtwChannelScanAmount < (rmGetChset r.q).entries.length)) = true := by
    decide +kernel
  obtain ⟨r, hr, hover⟩ := (Option.any_eq_true _ _).mp hmany
  exact ⟨r, hr, fun hkept => absurd hkept.writes (not_le.mpr (of_decide_eq_true hover))⟩

end Law

end Rm
