import Rtl8188fu.Efuse.MapWrite

namespace Efuse

theorem oneByteRead_add (content : List UInt8) (addr k : ℕ) :
    oneByteRead content (addr + k) = (content.drop addr).getD k 0xFF := by
  rw [oneByteRead, List.getD_eq_getElem?_getD, List.getD_eq_getElem?_getD, List.getElem?_drop]

theorem oneByteRead_drop (content : List UInt8) (addr : ℕ) :
    oneByteRead content addr = (content.drop addr).getD 0 0xFF :=
  oneByteRead_add content addr 0

def overlayWords (wden : UInt8) : List ℕ → ℕ → List UInt8 → Table → Table
  | [], _, _, tbl => tbl
  | i :: is, addr, data, tbl =>
    if wordEnabled wden i then
      overlayWords wden is (addr + 2) (data.drop 2)
        (Function.update (Function.update tbl addr (data.getD 0 0xFF)) (addr + 1)
          (data.getD 1 0xFF))
    else overlayWords wden is (addr + 2) data tbl

theorem readWords_snd (content : List UInt8) (wden : UInt8) (is : List ℕ) (efuseAddr addr : ℕ)
    (tbl : Table) : (readWords content wden is efuseAddr addr tbl).2 =
      overlayWords wden is addr (content.drop efuseAddr) tbl := by
  induction is generalizing efuseAddr addr tbl with
  | nil => rfl
  | cons i is ih =>
    rw [readWords, overlayWords]
    split
    · rw [ih, List.drop_drop, ← oneByteRead_drop, ← oneByteRead_add]
    · exact ih ..

theorem overlayWords_append (wden : UInt8) (is : List ℕ) (addr : ℕ) (data rest : List UInt8)
    (tbl : Table) (hlen : data.length = is.countP (wordEnabled wden) * 2) :
    overlayWords wden is addr (data ++ rest) tbl = overlayWords wden is addr data tbl := by
  induction is generalizing addr data tbl with
  | nil => rfl
  | cons i is ih =>
    unfold overlayWords
    cases Decidable.em (wordEnabled wden i = true) with
    | inl hi =>
      rw [List.countP_cons_of_pos hi] at hlen
      have hdrop : (data ++ rest).drop 2 = data.drop 2 ++ rest :=
        List.drop_append_of_le_length (by omega)
      have hget {k : ℕ} (hk : k < 2) : (data ++ rest).getD k 0xFF = data.getD k 0xFF := by
        rw [List.getD_eq_getElem?_getD, List.getD_eq_getElem?_getD,
          List.getElem?_append_left (by omega)]
      rw [if_pos hi, if_pos hi, hdrop, hget (by omega), hget (by omega),
        ih _ _ _ (by rw [List.length_drop]; omega)]
    | inr hi =>
      rw [List.countP_cons_of_neg hi] at hlen
      rw [if_neg hi, if_neg hi, ih _ _ _ hlen]

theorem overlayWords_disabled (wden : UInt8) (is : List ℕ) (addr : ℕ) (data : List UInt8)
    (tbl : Table) (h : is.countP (wordEnabled wden) = 0) :
    overlayWords wden is addr data tbl = tbl := by
  induction is generalizing addr data with
  | nil => rfl
  | cons i is ih =>
    have hi : ¬wordEnabled wden i = true := by
      intro hi
      rw [List.countP_cons_of_pos hi] at h
      omega
    rw [List.countP_cons_of_neg hi] at h
    rw [overlayWords]
    rw [if_neg hi, ih _ _ h]

def Complete (header : UInt8) (ext : Option UInt8) (data : List UInt8) : Prop :=
  header ≠ 0xFF ∧ ext.isSome = extHeader header ∧ (∀ e ∈ ext, e ≠ 0xFF) ∧
    data.length = calculateWordCnts (ext.getD header &&& 0x0F) * 2

structure Packet where
  header : UInt8
  ext : Option UInt8
  data : List UInt8
  complete : Complete header ext data

namespace Packet

variable (p : Packet)

def offset : UInt8 :=
  match p.ext with
  | none => (p.header >>> 4) &&& 0x0F
  | some e => hdrOffset20 p.header ||| ((e &&& 0xF0) >>> 1)

def wordEn : UInt8 := p.ext.getD p.header &&& 0x0F

def bytes : List UInt8 := p.header :: (p.ext.toList ++ p.data)

def apply (tbl : Table) : Table :=
  if p.offset.toNat < efuseMaxSection then
    overlayWords p.wordEn (List.range 4) (p.offset.toNat * 8) p.data tbl
  else tbl

end Packet

def encode (ps : List Packet) : List UInt8 := ps.flatMap Packet.bytes

def replay (ps : List Packet) : Table := ps.foldl (fun tbl p => p.apply tbl) fun _ => 0xFF

structure WellFormed (content : List UInt8) : Prop where
  length : content.length = efuseRealContentLen
  packets : ∃ ps k, content = encode ps ++ List.replicate k 0xFF

theorem calculateWordCnts_disabled : calculateWordCnts 0x0F = 0 := by decide

theorem readSection_eq {content data rest : List UInt8} {efuseAddr : ℕ} {offset wden : UInt8}
    {tbl : Table} (hdrop : content.drop efuseAddr = data ++ rest)
    (hlen : data.length = calculateWordCnts wden * 2) :
    readSection content offset wden efuseAddr tbl =
      (efuseAddr + data.length,
        if offset.toNat < efuseMaxSection then
          overlayWords wden (List.range 4) (offset.toNat * 8) data tbl
        else tbl) := by
  refine Prod.ext ((readSection_fst ..).trans (by rw [hlen])) ?_
  rw [readSection]
  split
  · rw [readWords_snd, hdrop, overlayWords_append _ _ _ _ _ _ hlen]
  · rfl

theorem readLoop_packet {content rest : List UInt8} {efuseAddr : ℕ} (tbl : Table) (p : Packet)
    (haddr : efuseAddr < efuseRealContentLen)
    (hdrop : content.drop efuseAddr = p.bytes ++ rest) :
    readLoop content efuseAddr tbl = readLoop content (efuseAddr + p.bytes.length) (p.apply tbl) := by
  obtain ⟨hheader, hext, hne, hlen⟩ := p.complete
  have hread : oneByteRead content efuseAddr = p.header := by
    rw [oneByteRead_drop, hdrop]
    rfl
  conv_lhs => unfold readLoop
  rw [if_pos haddr]
  dsimp only
  rw [hread, if_neg hheader, ← hext]
  cases he : p.ext with
  | none =>
    rw [he, Option.getD_none] at hlen
    have hdata : content.drop (efuseAddr + 1) = p.data ++ rest := by
      rw [← List.drop_drop, hdrop, Packet.bytes, he]
      rfl
    rw [if_neg (by simp), readSection_eq hdata hlen]
    simp only [Packet.bytes, Packet.apply, Packet.offset, Packet.wordEn, he, Option.toList_none,
      List.nil_append, List.length_cons, Option.getD_none]
    rw [Nat.add_assoc, Nat.add_comm 1]
  | some e =>
    rw [he, Option.getD_some] at hlen
    have hreadExt : oneByteRead content (efuseAddr + 1) = e := by
      rw [oneByteRead_add, hdrop, Packet.bytes, he]
      rfl
    have hdata : content.drop (efuseAddr + 2) = p.data ++ rest := by
      rw [← List.drop_drop, hdrop, Packet.bytes, he]
      rfl
    rw [if_pos (by simp), hreadExt]
    cases Decidable.em (allWordsDisabled e = true) with
    | inl hall =>
      have hwords : e &&& 0x0F = 0x0F := by simpa [allWordsDisabled] using hall
      have hcnt : calculateWordCnts p.wordEn = 0 := by
        rw [Packet.wordEn, he, Option.getD_some, hwords, calculateWordCnts_disabled]
      have happly : p.apply tbl = tbl := by
        rw [Packet.apply]
        rw [overlayWords_disabled _ _ _ _ _ hcnt, ite_self]
      rw [hwords, calculateWordCnts_disabled] at hlen
      rw [if_pos hall, happly, Packet.bytes, he, List.eq_nil_of_length_eq_zero hlen]
      rfl
    | inr hall =>
      rw [if_neg hall, readSection_eq hdata hlen]
      simp only [Packet.bytes, Packet.apply, Packet.offset, Packet.wordEn, he, Option.toList_some,
        List.singleton_append, List.length_cons, Option.getD_some]
      rw [Nat.add_assoc, Nat.add_comm 2]

theorem readLoop_blank {content : List UInt8} {efuseAddr k : ℕ} (tbl : Table)
    (haddr : efuseAddr ≤ efuseRealContentLen)
    (hdrop : content.drop efuseAddr = List.replicate k 0xFF) :
    readLoop content efuseAddr tbl = (min (efuseAddr + 1) efuseRealContentLen, tbl) := by
  rw [readLoop]
  cases Decidable.em (efuseAddr < efuseRealContentLen) with
  | inl hfull =>
    have hread : oneByteRead content efuseAddr = 0xFF := by
      rw [oneByteRead_drop, hdrop]
      cases k <;> rfl
    rw [if_pos hfull]
    dsimp only
    rw [if_pos hread, Nat.min_eq_left hfull]
  | inr hfull =>
    rw [if_neg hfull, Nat.min_eq_right (by omega)]
    exact Prod.ext (by dsimp only; omega) rfl

theorem readLoop_packets {content : List UInt8} {efuseAddr k : ℕ} (tbl : Table)
    (ps : List Packet) (hlen : content.length = efuseRealContentLen)
    (haddr : efuseAddr ≤ efuseRealContentLen)
    (hdrop : content.drop efuseAddr = encode ps ++ List.replicate k 0xFF) :
    readLoop content efuseAddr tbl =
      (min (efuseAddr + (encode ps).length + 1) efuseRealContentLen,
        ps.foldl (fun tbl p => p.apply tbl) tbl) := by
  induction ps generalizing efuseAddr tbl with
  | nil => exact readLoop_blank tbl haddr hdrop
  | cons p ps ih =>
    rw [encode, List.flatMap_cons, List.append_assoc] at hdrop
    have hsize := congrArg List.length hdrop
    rw [List.length_drop, hlen, List.length_append, List.length_append] at hsize
    have hpos : 0 < p.bytes.length := Nat.succ_pos _
    have hnext : content.drop (efuseAddr + p.bytes.length) =
        encode ps ++ List.replicate k 0xFF := by
      rw [← List.drop_drop, hdrop, List.drop_left]
      rfl
    rw [readLoop_packet tbl p (by omega) hdrop, ih _ (by omega) hnext, encode, encode,
      List.flatMap_cons, List.length_append, List.foldl_cons, Nat.add_assoc efuseAddr]

end Efuse
