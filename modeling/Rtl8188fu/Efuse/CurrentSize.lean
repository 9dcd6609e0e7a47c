import Rtl8188fu.Efuse.Packets

namespace Efuse

theorem disabled_of_extHeader {header : UInt8} (h : extHeader header = true) :
    allWordsDisabled header = true := by
  have hmask : header &&& 0x0F = header &&& 0x1F &&& 0x0F := by
    rw [UInt8.and_assoc]
    rfl
  rw [extHeader, beq_iff_eq] at h
  rw [allWordsDisabled, hmask, h]
  rfl

theorem currentSizeLoop_disabled {content : List UInt8} {efuseAddr count : ℕ} {e : UInt8}
    (haddr : efuseAddr < efuseRealContentLen) (hread : oneByteRead content efuseAddr = e)
    (hne : e ≠ 0xFF) (hall : allWordsDisabled e = true)
    (hrest : content.length ≤ efuseRealContentLen) :
    currentSizeLoop content 0 efuseAddr count = currentSizeLoop content 0 (efuseAddr + 1) count := by
  have hwords : e &&& 0x0F = 0x0F := by simpa [allWordsDisabled] using hall
  conv_lhs => unfold currentSizeLoop
  rw [if_pos haddr]
  dsimp only
  rw [hread, if_neg hne, if_neg fun h => h.1 rfl]
  cases Decidable.em (extHeader e = true) with
  | inl hext =>
    rw [if_pos hext]
    cases Decidable.em (allWordsDisabled (oneByteRead content (efuseAddr + 1)) = true) with
    | inl hnext => rw [if_pos hnext]
    | inr hnext =>
      rw [if_neg hnext]
      conv_rhs => unfold currentSizeLoop
      have hin : efuseAddr + 1 < efuseRealContentLen := by
        by_contra hout
        have hend : oneByteRead content (efuseAddr + 1) = 0xFF := by
          rw [oneByteRead, List.getD_eq_getElem?_getD, List.getElem?_eq_none (by omega),
            Option.getD_none]
        rw [hend] at hnext
        exact hnext (by decide)
      have hff : oneByteRead content (efuseAddr + 1) ≠ 0xFF := by
        intro hff
        rw [hff] at hnext
        exact hnext (by decide)
      have hshort : ¬extHeader (oneByteRead content (efuseAddr + 1)) = true :=
        fun h => hnext (disabled_of_extHeader h)
      rw [if_pos hin]
      dsimp only
      rw [if_neg hff, if_neg fun h => h.1 rfl, if_neg hshort]
  | inr hext => rw [if_neg hext, hwords, calculateWordCnts_disabled]

theorem currentSizeLoop_packet {content rest : List UInt8} {efuseAddr count : ℕ} (p : Packet)
    (haddr : efuseAddr < efuseRealContentLen) (hlen : content.length = efuseRealContentLen)
    (hdrop : content.drop efuseAddr = p.bytes ++ rest) :
    currentSizeLoop content 0 efuseAddr count =
      currentSizeLoop content 0 (efuseAddr + p.bytes.length) count := by
  obtain ⟨hheader, hext, hne, hdata⟩ := p.complete
  have hread : oneByteRead content efuseAddr = p.header := by
    rw [oneByteRead_drop, hdrop]
    rfl
  conv_lhs => unfold currentSizeLoop
  rw [if_pos haddr]
  dsimp only
  rw [hread, if_neg hheader, if_neg fun h => h.1 rfl, ← hext]
  cases he : p.ext with
  | none =>
    rw [he, Option.getD_none] at hdata
    rw [if_neg (by simp), ← hdata, Packet.bytes, he]
    rfl
  | some e =>
    rw [he, Option.getD_some] at hdata
    have hreadExt : oneByteRead content (efuseAddr + 1) = e := by
      rw [oneByteRead_add, hdrop, Packet.bytes, he]
      rfl
    rw [if_pos (by simp), hreadExt]
    cases Decidable.em (allWordsDisabled e = true) with
    | inl hall =>
      have hwords : e &&& 0x0F = 0x0F := by simpa [allWordsDisabled] using hall
      rw [hwords, calculateWordCnts_disabled] at hdata
      have hin : efuseAddr + 1 < efuseRealContentLen := by
        have hsize := congrArg List.length hdrop
        rw [List.length_drop, hlen, Packet.bytes, he] at hsize
        simp only [List.cons_append, List.length_cons, List.length_append, Option.toList_some] at hsize
        omega
      rw [if_pos hall, currentSizeLoop_disabled hin hreadExt (hne e (by rw [he]; rfl)) hall
          (Nat.le_of_eq hlen),
        Packet.bytes, he, List.eq_nil_of_length_eq_zero hdata]
      rfl
    | inr hall =>
      rw [if_neg hall, ← hdata, Packet.bytes, he]
      refine congrArg (currentSizeLoop content 0 · count) ?_
      simp only [Option.toList_some, List.singleton_append, List.length_cons]
      omega

theorem currentSizeLoop_packets {content : List UInt8} {efuseAddr k count : ℕ} (ps : List Packet)
    (hlen : content.length = efuseRealContentLen) (haddr : efuseAddr ≤ efuseRealContentLen)
    (hdrop : content.drop efuseAddr = encode ps ++ List.replicate k 0xFF) :
    currentSizeLoop content 0 efuseAddr count = some (efuseAddr + (encode ps).length) := by
  induction ps generalizing efuseAddr with
  | nil =>
    unfold currentSizeLoop
    have hread : oneByteRead content efuseAddr = 0xFF := by
      rw [oneByteRead_drop, hdrop]
      cases k <;> rfl
    split
    · dsimp only
      rw [if_pos hread]
      rfl
    · rfl
  | cons p ps ih =>
    rw [encode, List.flatMap_cons, List.append_assoc] at hdrop
    have hsize := congrArg List.length hdrop
    rw [List.length_drop, hlen, List.length_append, List.length_append] at hsize
    have hpos : 0 < p.bytes.length := Nat.succ_pos _
    have hnext : content.drop (efuseAddr + p.bytes.length) =
        encode ps ++ List.replicate k 0xFF := by
      rw [← List.drop_drop, hdrop, List.drop_left]
      rfl
    rw [currentSizeLoop_packet p (by omega) hlen hdrop, ih (by omega) hnext, encode, encode,
      List.flatMap_cons, List.length_append, Nat.add_assoc]

theorem currentSizeLoop_restart {content : List UInt8} {startAddr : ℕ}
    (haddr : startAddr < efuseRealContentLen) (hstart : startAddr ≠ 0)
    (hread : oneByteRead content startAddr ≠ 0xFF) :
    currentSizeLoop content startAddr startAddr 0 = currentSizeLoop content 0 0 3 := by
  have hagain (count : ℕ) (hcount : count < 2) :
      currentSizeLoop content startAddr startAddr count =
        currentSizeLoop content startAddr startAddr (count + 1) := by
    conv_lhs => unfold currentSizeLoop
    rw [if_pos haddr]
    dsimp only
    rw [if_neg hread, if_pos ⟨hstart, rfl⟩, if_pos (by omega), if_neg (by omega)]
  rw [hagain 0 (by omega), hagain 1 (by omega)]
  conv_lhs => unfold currentSizeLoop
  rw [if_pos haddr]
  dsimp only
  rw [if_neg hread, if_pos ⟨hstart, rfl⟩, if_pos (by omega), if_pos (by omega)]

structure Holds (ps : List Packet) (k : ℕ) (e : EfuseHal) : Prop where
  content : e.content = encode ps ++ List.replicate k 0xFF
  length : (encode ps).length + k = efuseRealContentLen
  used : e.efuseUsedBytes = (encode ps).length ∨ e.efuseUsedBytes = 0 ∨
    e.efuseUsedBytes < efuseRealContentLen ∧ oneByteRead e.content e.efuseUsedBytes ≠ 0xFF

theorem getCurrentSize_holds {ps : List Packet} {k : ℕ} {e : EfuseHal} (h : Holds ps k e) :
    halEfuseGetCurrentSizeWifi e =
      ({ e with efuseUsedBytes := (encode ps).length }, (encode ps).length) := by
  have hlen : e.content.length = efuseRealContentLen := by
    rw [h.content, List.length_append, List.length_replicate, h.length]
  have hwalk (count : ℕ) : currentSizeLoop e.content 0 0 count = some (encode ps).length := by
    rw [currentSizeLoop_packets ps hlen (Nat.zero_le _) h.content, Nat.zero_add]
  have hloop : currentSizeLoop e.content e.efuseUsedBytes e.efuseUsedBytes 0 =
      some (encode ps).length := by
    rcases h.used with hend | hzero | ⟨hin, hread⟩
    · rw [hend]
      unfold currentSizeLoop
      have hread : oneByteRead e.content (encode ps).length = 0xFF := by
        rw [oneByteRead_drop, h.content, List.drop_left]
        cases k <;> rfl
      dsimp only
      rw [if_pos hread, ite_self]
    · rw [hzero]
      exact hwalk 0
    · cases Decidable.em (e.efuseUsedBytes = 0) with
      | inl hzero =>
        rw [hzero]
        exact hwalk 0
      | inr hzero =>
        rw [currentSizeLoop_restart hin hzero hread]
        exact hwalk 3
  unfold halEfuseGetCurrentSizeWifi
  rw [hloop]

end Efuse
