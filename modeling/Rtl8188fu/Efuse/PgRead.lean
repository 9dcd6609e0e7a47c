import Rtl8188fu.Efuse.MapRead

namespace Efuse

def pgpktDataSize : ℕ := 8

def readPacket (content : List UInt8) (offset hoffset hworden : UInt8) (efuseAddr : ℕ)
    (data : Table) : ℕ × Table :=
  if hoffset = offset then readWords content hworden (List.range 4) efuseAddr 0 data
  else (efuseAddr + calculateWordCnts hworden * 2, data)

theorem readPacket_fst (content : List UInt8) (offset hoffset hworden : UInt8) (efuseAddr : ℕ)
    (data : Table) : (readPacket content offset hoffset hworden efuseAddr data).1 =
      efuseAddr + calculateWordCnts hworden * 2 := by
  simp only [readPacket]
  split
  · exact readWords_fst ..
  · rfl

def pgReadLoop (content : List UInt8) (offset : UInt8) (efuseAddr : ℕ) (data : Table) : Table :=
  if efuseAddr < efuseRealContentLen then
    let efuseData := oneByteRead content efuseAddr
    if efuseData = 0xFF then data
    else if extHeader efuseData then
      let extHdr := oneByteRead content (efuseAddr + 1)
      if allWordsDisabled extHdr then pgReadLoop content offset (efuseAddr + 2) data
      else
        let r := readPacket content offset (hdrOffset20 efuseData ||| ((extHdr &&& 0xF0) >>> 1))
          (extHdr &&& 0x0F) (efuseAddr + 2) data
        pgReadLoop content offset r.1 r.2
    else
      let r := readPacket content offset ((efuseData >>> 4) &&& 0x0F) (efuseData &&& 0x0F)
        (efuseAddr + 1) data
      pgReadLoop content offset r.1 r.2
  else data
termination_by efuseRealContentLen - efuseAddr
decreasing_by
  · omega
  · rw [readPacket_fst]
    omega
  · rw [readPacket_fst]
    omega

structure PgRead where
  ret : Bool
  data : Option (List UInt8)
  deriving DecidableEq, Repr

def halEfusePgPacketRead (e : EfuseHal) (offset : UInt8) (data : Option (List UInt8)) : PgRead :=
  match data with
  | none => ⟨false, none⟩
  | some buf =>
    if efuseMaxSection < offset.toNat then ⟨false, some buf⟩
    else
      let tbl := pgReadLoop e.content offset 0 fun _ => 0xFF
      ⟨true, some ((List.range pgpktDataSize).map tbl)⟩

def SameSlice (offset : UInt8) (data tbl : Table) : Prop :=
  ∀ k < pgpktDataSize, data k = tbl (offset.toNat * 8 + k)

theorem SameSlice.update {offset : UInt8} {data tbl : Table} (h : SameSlice offset data tbl)
    (addr : ℕ) (b : UInt8) : SameSlice offset (Function.update data addr b)
      (Function.update tbl (offset.toNat * 8 + addr) b) := by
  intro k hk
  cases Decidable.eq_or_ne k addr with
  | inl heq => rw [heq, Function.update_self, Function.update_self]
  | inr hne =>
    rw [Function.update_of_ne hne, Function.update_of_ne fun heq => hne (Nat.add_left_cancel heq)]
    exact h k hk

theorem SameSlice.readWords {offset : UInt8} {data tbl : Table} (h : SameSlice offset data tbl)
    (content : List UInt8) (wden : UInt8) (is : List ℕ) (efuseAddr addr : ℕ) :
    SameSlice offset (readWords content wden is efuseAddr addr data).2
      (Efuse.readWords content wden is efuseAddr (offset.toNat * 8 + addr) tbl).2 := by
  induction is generalizing efuseAddr addr data tbl with
  | nil => exact h
  | cons i is ih =>
    simp only [Efuse.readWords]
    cases wordEnabled wden i with
    | true =>
      simp only [if_true]
      have hupdated := (h.update addr (oneByteRead content efuseAddr)).update (addr + 1)
        (oneByteRead content (efuseAddr + 1))
      exact ih hupdated (efuseAddr + 2) (addr + 2)
    | false =>
      simp only [Bool.false_eq_true, if_false]
      exact ih h efuseAddr (addr + 2)

theorem readWords_outside (content : List UInt8) (wden : UInt8) (is : List ℕ)
    (efuseAddr addr : ℕ) (tbl : Table) {i : ℕ} (hi : i < addr ∨ addr + is.length * 2 ≤ i) :
    (readWords content wden is efuseAddr addr tbl).2 i = tbl i := by
  induction is generalizing efuseAddr addr tbl with
  | nil => rfl
  | cons j is ih =>
    rw [List.length_cons] at hi
    have hrest : i < addr + 2 ∨ addr + 2 + is.length * 2 ≤ i := by omega
    simp only [readWords]
    cases wordEnabled wden j with
    | false => exact ih _ _ _ hrest
    | true =>
      refine (ih _ _ _ hrest).trans ?_
      rw [Function.update_of_ne (by omega), Function.update_of_ne (by omega)]

theorem SameSlice.packet {offset : UInt8} {data tbl : Table} (h : SameSlice offset data tbl)
    (hoffset : offset.toNat < efuseMaxSection) (content : List UInt8) (hoff wden : UInt8)
    (efuseAddr : ℕ) :
    SameSlice offset (readPacket content offset hoff wden efuseAddr data).2
      (readSection content hoff wden efuseAddr tbl).2 := by
  cases Decidable.eq_or_ne hoff offset with
  | inl heq =>
    rw [heq, readPacket, readSection, if_pos rfl, if_pos hoffset]
    exact h.readWords content wden (List.range 4) efuseAddr 0
  | inr hne =>
    rw [readPacket, if_neg hne]
    simp only [readSection]
    have hfar : hoff.toNat ≠ offset.toNat := fun heq => hne (UInt8.toNat_inj.mp heq)
    split
    · intro k hk
      rw [readWords_outside content wden (List.range 4) efuseAddr (hoff.toNat * 8) tbl (by
        simp only [pgpktDataSize] at hk
        rw [List.length_range]
        omega)]
      exact h k hk
    · exact h

theorem pgReadLoop_slice (content : List UInt8) {offset : UInt8}
    (hoffset : offset.toNat < efuseMaxSection) (efuseAddr : ℕ) {data tbl : Table}
    (h : SameSlice offset data tbl) :
    SameSlice offset (pgReadLoop content offset efuseAddr data)
      (readLoop content efuseAddr tbl).2 := by
  induction hleft : efuseRealContentLen - efuseAddr using Nat.strongRecOn
    generalizing efuseAddr data tbl with
  | _ left ih =>
    rw [pgReadLoop, readLoop]
    cases Nat.lt_or_ge efuseAddr efuseRealContentLen with
    | inr hge =>
      rw [if_neg (Nat.not_lt.mpr hge), if_neg (Nat.not_lt.mpr hge)]
      exact h
    | inl hlt =>
      rw [if_pos hlt, if_pos hlt]
      dsimp only
      cases Decidable.em (oneByteRead content efuseAddr = 0xFF) with
      | inl hff =>
        rw [if_pos hff, if_pos hff]
        exact h
      | inr hff =>
        rw [if_neg hff, if_neg hff]
        cases extHeader (oneByteRead content efuseAddr) with
        | false =>
          simp only [Bool.false_eq_true, if_false, readPacket_fst, readSection_fst]
          exact ih _ (by omega) _ (h.packet hoffset content _ _ _) rfl
        | true =>
          simp only [if_true]
          cases allWordsDisabled (oneByteRead content (efuseAddr + 1)) with
          | true =>
            simp only [if_true]
            exact ih _ (by omega) _ h rfl
          | false =>
            simp only [Bool.false_eq_true, if_false, readPacket_fst, readSection_fst]
            exact ih _ (by omega) _ (h.packet hoffset content _ _ _) rfl

def shadowMap (e : EfuseHal) : List UInt8 :=
  (halReadEfuseWifi e 0 efuseMapLen (List.replicate efuseMapLen 0)).2

def InsideMap (offset : UInt8) : Prop := offset.toNat * 8 + pgpktDataSize ≤ efuseMapLen

instance (offset : UInt8) : Decidable (InsideMap offset) := inferInstanceAs (Decidable (_ ≤ _))

structure PgAgrees (e : EfuseHal) (offset : UInt8) (buf : List UInt8) : Prop where
  slice : InsideMap offset → halEfusePgPacketRead e offset (some buf) =
    ⟨true, some (((shadowMap e).drop (offset.toNat * 8)).take pgpktDataSize)⟩
  rejects : (halEfusePgPacketRead e offset (some buf)).ret = false ↔ ¬ InsideMap offset

theorem shadowMap_slice (e : EfuseHal) {offset : UInt8} (h : InsideMap offset) :
    ((shadowMap e).drop (offset.toNat * 8)).take pgpktDataSize =
      (List.range pgpktDataSize).map fun k =>
        (readLoop e.content 0 fun _ => 0xFF).2 (offset.toNat * 8 + k) := by
  simp only [InsideMap, pgpktDataSize, efuseMapLen] at h
  have hroom : ¬ efuseMaxMapLen < 0 + efuseMapLen := by decide
  rw [shadowMap, halReadEfuseWifi, if_neg hroom]
  refine List.ext_getElem ?_ fun i hi hi' => ?_
  · simp only [List.length_take, List.length_drop, List.length_map, List.length_range,
      pgpktDataSize, efuseMapLen]
    omega
  · simp only [List.getElem_take, List.getElem_drop, List.getElem_map, List.getElem_range,
      Nat.zero_add]

theorem insideMap_iff (offset : UInt8) : InsideMap offset ↔ offset.toNat < efuseMaxSection := by
  simp only [InsideMap, pgpktDataSize, efuseMapLen, efuseMaxSection]
  omega

theorem pgAgrees_iff (e : EfuseHal) (offset : UInt8) (buf : List UInt8) :
    PgAgrees e offset buf ↔ offset ≠ 64 := by
  have hsection : offset ≠ 64 ↔ offset.toNat ≠ efuseMaxSection :=
    not_congr (UInt8.toNat_inj (b := 64)).symm
  rw [hsection]
  constructor
  · intro h heq
    have houtside : ¬ InsideMap offset := by
      rw [insideMap_iff, heq]
      exact Nat.lt_irrefl _
    have hret := h.rejects.mpr houtside
    simp only [halEfusePgPacketRead, if_neg (Nat.not_lt.mpr (Nat.le_of_eq heq))] at hret
    exact absurd hret nofun
  · intro hne
    constructor
    · intro hinside
      have hlt := (insideMap_iff offset).mp hinside
      have hslice : SameSlice offset (pgReadLoop e.content offset 0 fun _ => 0xFF)
          (readLoop e.content 0 fun _ => 0xFF).2 :=
        pgReadLoop_slice e.content hlt 0 fun _ _ => rfl
      rw [shadowMap_slice e hinside]
      simp only [halEfusePgPacketRead, if_neg (Nat.not_lt.mpr (Nat.le_of_lt hlt))]
      congr 2
      exact List.map_congr_left fun k hk => hslice k (List.mem_range.mp hk)
    · rw [insideMap_iff]
      simp only [halEfusePgPacketRead]
      split
      · exact iff_of_true rfl (by omega)
      · exact iff_of_false nofun (by omega)

theorem boundary_section_accepted :
    ¬ ∀ (e : EfuseHal) (offset : UInt8) (buf : List UInt8), PgAgrees e offset buf := by
  intro h
  have hinside := (h ⟨[], 0⟩ 64 (List.replicate 8 0)).rejects.mpr.mt nofun
  exact hinside (by decide)

end Efuse
