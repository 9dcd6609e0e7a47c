import Rtl8188fu.Rm.BeaconReportLaw

namespace Rm

open NextFit

def tried (r : Reporter) : List WlanNetwork → List WlanNetwork
  | [] => []
  | net :: nets => if reportSize r net < bufRoom then net :: tried r nets else [net]

def batches (env : ReportEnv) (r : Reporter) (nets : List WlanNetwork) : List (List WlanNetwork) :=
  pack (reportSize r) bufRoom [] (tried r (matched env r nets))

def Buffered (env : ReportEnv) (r : Reporter) (nets : List WlanNetwork) : Prop :=
  env.tmpBuf = true → env.alloc 0 = true →
    ∀ i, 0 < i → i < (batches env r nets).length → env.alloc i = true

namespace ScanBufs

def stranded (s : ScanBufs) : ℕ := (s.bufs.drop s.pktNum).length

theorem stranded_of_open {s : ScanBufs} {c : List UInt8} (h : s.cur = some c) : s.stranded = 0 := by
  simp [stranded, bufs, pktNum, bufIdx, h]

theorem stranded_of_closed {s : ScanBufs} (h : s.cur = none) : s.stranded = s.full.length := by
  simp [stranded, bufs, pktNum, h]

structure Filling (r : Reporter) (g : List WlanNetwork) (s : ScanBufs) : Prop where
  cur : ∃ c, s.cur = some c ∧ c.length = load (reportSize r) g
  going : s.failed = false
  some : g ≠ []

section Packets

variable {alloc : ℕ → Bool} {r : Reporter} {g : List WlanNetwork} {net : WlanNetwork}
  {s : ScanBufs}

theorem Filling.myLen (h : Filling r g s) : s.myLen = load (reportSize r) g := by
  obtain ⟨c, hc, hlen⟩ := h.cur
  rw [ScanBufs.myLen, hc]
  exact hlen

theorem Filling.myLen_ne (h : Filling r g s) : s.myLen ≠ 0 := by
  rw [h.myLen]
  exact Nat.ne_of_gt (load_flatten_pos (reportSize_pos r) h.some)

theorem openPacket_noBuffer (elem : List UInt8) (h : alloc s.bufIdx = false) :
    s.openPacket alloc elem = { s with failed := true } := by
  rw [openPacket, h]
  rfl

theorem openPacket_fills (hgoing : s.failed = false) (h : alloc s.bufIdx = true)
    (hfits : reportSize r net < bufRoom) :
    Filling r [net] (s.openPacket alloc (rmGenBcnRepIe r net)) ∧
      (s.openPacket alloc (rmGenBcnRepIe r net)).full = s.full := by
  have hroom : fits 0 (rmGenBcnRepIe r net).length = true := by
    rw [fits_iff, Nat.zero_add, length_rmGenBcnRepIe]
    exact hfits
  have heq : s.openPacket alloc (rmGenBcnRepIe r net) = { s with
      cur := some (rmGenBcnRepIe r net)
      wild := s.wild || decide (maxBufNum ≤ s.bufIdx) } := by
    rw [openPacket, if_pos h]
    exact if_pos hroom
  rw [heq]
  exact ⟨⟨⟨_, rfl, length_rmGenBcnRepIe r net⟩, hgoing, List.cons_ne_nil _ _⟩, rfl⟩

theorem openPacket_oversize (h : alloc s.bufIdx = true) (hfits : ¬ reportSize r net < bufRoom) :
    (s.openPacket alloc (rmGenBcnRepIe r net)).cur = some [] ∧
      (s.openPacket alloc (rmGenBcnRepIe r net)).failed = true := by
  have hroom : ¬ fits 0 (rmGenBcnRepIe r net).length = true := by
    rw [fits_iff, Nat.zero_add, length_rmGenBcnRepIe]
    exact hfits
  rw [openPacket, if_pos h]
  dsimp only
  rw [if_neg hroom]
  exact ⟨rfl, rfl⟩

theorem newPacket_start (alloc : ℕ → Bool) (elem : List UInt8) :
    ∃ u : ScanBufs, start.newPacket alloc elem = u.openPacket alloc elem ∧ u.full = [] ∧
      u.cur = none ∧ u.failed = false :=
  ⟨{ start with wild := start.wild || decide (maxXmitExtbufSz < elem.length) }, rfl, rfl, rfl, rfl⟩

theorem Filling.newPacket_fits (h : Filling r g s) (alloc : ℕ → Bool)
    (hfits : load (reportSize r) g + reportSize r net < bufRoom) :
    Filling r (g ++ [net]) (s.newPacket alloc (rmGenBcnRepIe r net)) ∧
      (s.newPacket alloc (rmGenBcnRepIe r net)).full = s.full := by
  obtain ⟨c, hc, hlen⟩ := h.cur
  have hroom : fits s.myLen (rmGenBcnRepIe r net).length = true := by
    rw [fits_iff, h.myLen, length_rmGenBcnRepIe]
    exact hfits
  have heq : s.newPacket alloc (rmGenBcnRepIe r net) = { s with
      cur := s.cur.map (· ++ rmGenBcnRepIe r net)
      wild := s.wild || decide (maxXmitExtbufSz < (rmGenBcnRepIe r net).length) } :=
    (if_neg h.myLen_ne).trans (if_pos hroom)
  rw [heq]
  refine ⟨⟨⟨c ++ rmGenBcnRepIe r net, ?_, ?_⟩, h.going, ?_⟩, rfl⟩
  · show s.cur.map _ = _
    rw [hc]
    rfl
  · rw [List.length_append, hlen, length_rmGenBcnRepIe, load_append]
    rfl
  · exact List.append_ne_nil_of_left_ne_nil h.some _

theorem Filling.newPacket_next (h : Filling r g s) (alloc : ℕ → Bool)
    (hfull : ¬ load (reportSize r) g + reportSize r net < bufRoom) :
    ∃ u : ScanBufs, s.newPacket alloc (rmGenBcnRepIe r net) =
        u.openPacket alloc (rmGenBcnRepIe r net) ∧
      u.cur = none ∧ u.failed = false ∧ u.bufIdx = s.bufIdx + 1 := by
  obtain ⟨c, hc, hlen⟩ := h.cur
  have hroom : ¬ fits s.myLen (rmGenBcnRepIe r net).length = true := by
    rw [fits_iff, h.myLen, length_rmGenBcnRepIe]
    exact hfull
  refine ⟨_, (if_neg h.myLen_ne).trans (if_neg hroom), rfl, h.going, ?_⟩
  show (s.full ++ s.cur.toList).length = s.full.length + 1
  rw [hc, List.length_append]
  rfl

end Packets

section Retrieval

variable {env : ReportEnv} {r : Reporter} {g nets : List WlanNetwork} {s : ScanBufs}

theorem stranded_retrieveLoop (h : Filling r g s) :
    (retrieveLoop env r nets s).stranded = 0 ↔
      ∀ i, s.bufIdx < i →
        i < s.bufIdx + (pack (reportSize r) bufRoom g (tried r (matched env r nets))).length →
        env.alloc i = true := by
  induction nets generalizing g s with
  | nil =>
    obtain ⟨c, hc, -⟩ := h.cur
    have hpack : pack (reportSize r) bufRoom g (tried r (matched env r [])) = [g] := pack_nil h.some
    rw [hpack]
    refine iff_of_true (stranded_of_open hc) fun i hgt hlt => ?_
    exact absurd hlt (Nat.not_lt.mpr hgt)
  | cons net nets ih =>
    cases Decidable.em (matchesRequest env r net = true) with
    | inr hmatch =>
      rw [retrieveLoop, if_neg hmatch, matched_neg hmatch]
      exact ih h
    | inl hmatch =>
      rw [retrieveLoop_pos hmatch, matched_pos hmatch, tried]
      cases Decidable.em (load (reportSize r) g + reportSize r net < bufRoom) with
      | inl hfits =>
        obtain ⟨hnext, hfull⟩ := h.newPacket_fits env.alloc hfits
        have hidx : (s.newPacket env.alloc (rmGenBcnRepIe r net)).bufIdx = s.bufIdx :=
          congrArg List.length hfull
        have hsmall : reportSize r net < bufRoom := lt_of_le_of_lt (Nat.le_add_left _ _) hfits
        rw [if_pos hsmall, hnext.going, if_neg Bool.false_ne_true, pack_fits h.some hfits, ih hnext,
          hidx]
      | inr hfull =>
        obtain ⟨u, heq, hnone, hgoing, hidx⟩ := h.newPacket_next env.alloc hfull
        rw [heq]
        have hsome : [net] ≠ [] := List.cons_ne_nil _ _
        cases halloc : env.alloc u.bufIdx with
        | false =>
          -- what was filled before stays behind when the next buffer cannot be had
          obtain ⟨rest, hrest⟩ : ∃ rest, (if reportSize r net < bufRoom then
              net :: tried r (matched env r nets) else [net]) = net :: rest := by
            split <;> exact ⟨_, rfl⟩
          have hleft : ({ u with failed := true } : ScanBufs).stranded = u.bufIdx :=
            stranded_of_closed hnone
          rw [openPacket_noBuffer _ halloc, if_pos rfl, hleft, hrest, pack_next h.some hfull,
            List.length_cons]
          have hone := packed_pos r rest hsome
          rw [packed] at hone
          refine iff_of_false ?_ fun hall => ?_
          · rw [hidx]
            exact Nat.succ_ne_zero _
          · have hgot := hall (s.bufIdx + 1) (Nat.lt_succ_self _) (by omega)
            rw [← hidx, halloc] at hgot
            cases hgot
        | true =>
          cases Decidable.em (reportSize r net < bufRoom) with
          | inl hsmall =>
            obtain ⟨hnext, hsame⟩ := openPacket_fills hgoing halloc hsmall
            have hidx' : (u.openPacket env.alloc (rmGenBcnRepIe r net)).bufIdx = s.bufIdx + 1 :=
              (congrArg List.length hsame).trans hidx
            rw [if_pos hsmall, hnext.going, if_neg Bool.false_ne_true, pack_next h.some hfull,
              ih hnext, hidx', List.length_cons]
            constructor
            · intro hall i hgt hlt
              cases Decidable.em (i = s.bufIdx + 1) with
              | inl heq' => rw [heq', ← hidx, halloc]
              | inr hne => exact hall i (by omega) (by omega)
            · exact fun hall i hgt hlt => hall i (by omega) (by omega)
          | inr hover =>
            obtain ⟨hempty, hfailed⟩ := openPacket_oversize halloc hover
            rw [if_neg hover, hfailed, if_pos rfl, pack_next h.some hfull, pack_nil hsome]
            refine iff_of_true (stranded_of_open hempty) fun i hgt hlt => ?_
            have hi : i = u.bufIdx := by
              simp only [List.length_cons, List.length_nil] at hlt
              omega
            rw [hi, halloc]

theorem stranded_retrieveScanResult (env : ReportEnv) (r : Reporter) (nets : List WlanNetwork) :
    (retrieveScanResult env r nets).stranded = 0 ↔ Buffered env r nets := by
  unfold retrieveScanResult Buffered
  cases htmp : env.tmpBuf with
  | false => exact iff_of_true rfl fun h => absurd h Bool.false_ne_true
  | true =>
    rw [if_pos rfl]
    unfold batches
    induction nets with
    | nil => exact iff_of_true rfl fun _ _ i _ hi => absurd hi (Nat.not_lt_zero i)
    | cons net nets ih =>
      cases Decidable.em (matchesRequest env r net = true) with
      | inr hmatch =>
        rw [retrieveLoop, if_neg hmatch, matched_neg hmatch]
        exact ih
      | inl hmatch =>
        obtain ⟨u, heq, hfull, hnone, hgoing⟩ := newPacket_start env.alloc (rmGenBcnRepIe r net)
        have hidx : u.bufIdx = 0 := congrArg List.length hfull
        rw [retrieveLoop_pos hmatch, matched_pos hmatch, tried, heq]
        cases halloc : env.alloc 0 with
        | false =>
          have hleft : ({ u with failed := true } : ScanBufs).stranded = u.bufIdx :=
            stranded_of_closed hnone
          rw [openPacket_noBuffer _ (hidx ▸ halloc), if_pos rfl, hleft]
          exact iff_of_true hidx fun _ h => absurd h Bool.false_ne_true
        | true =>
          cases Decidable.em (reportSize r net < bufRoom) with
          | inl hsmall =>
            obtain ⟨hnext, hsame⟩ := openPacket_fills hgoing (hidx ▸ halloc) hsmall
            have hidx' : (u.openPacket env.alloc (rmGenBcnRepIe r net)).bufIdx = 0 :=
              (congrArg List.length hsame).trans hidx
            rw [hnext.going, if_neg Bool.false_ne_true, stranded_retrieveLoop hnext, if_pos hsmall,
              hidx', Nat.zero_add]
            exact ⟨fun h _ _ => h, fun h => h rfl rfl⟩
          | inr hover =>
            obtain ⟨hempty, hfailed⟩ := openPacket_oversize (hidx ▸ halloc) hover
            rw [hfailed, if_pos rfl, if_neg hover]
            refine iff_of_true (stranded_of_open hempty) fun _ _ i hpos hi => ?_
            exact absurd hi (Nat.not_lt.mpr hpos)

theorem leaked_iff (env : ReportEnv) (r : Reporter) (nets : List WlanNetwork) :
    (issueBeaconRep env r nets).leaked = 0 ↔ Buffered env r nets :=
  stranded_retrieveScanResult env r nets

end Retrieval

end ScanBufs

end Rm
