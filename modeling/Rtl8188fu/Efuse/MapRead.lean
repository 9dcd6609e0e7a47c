import Mathlib.Data.List.Basic
import Mathlib.Logic.Function.Basic
import Mathlib.Tactic.Common

namespace Efuse

structure EfuseHal where
  content : List UInt8
  efuseUsedBytes : ℕ

def efuseRealContentLen : ℕ := 256

def efuseMapLen : ℕ := 512

def efuseMaxMapLen : ℕ := 1024

def efuseMaxSection : ℕ := 64

def efuseMaxSectionBase : ℕ := 16

def availableEfuseBytes : ℕ := efuseRealContentLen - 35

def extHeader (header : UInt8) : Bool := header &&& 0x1F == 0x0F

def allWordsDisabled (wde : UInt8) : Bool := wde &&& 0x0F == 0x0F

def hdrOffset20 (header : UInt8) : UInt8 := (header &&& 0xE0) >>> 5

def wordEnabled (wordEn : UInt8) (i : ℕ) : Bool := wordEn &&& (1 <<< UInt8.ofNat i) == 0

def calculateWordCnts (wordEn : UInt8) : ℕ := (List.range 4).countP (wordEnabled wordEn)

def oneByteRead (content : List UInt8) (addr : ℕ) : UInt8 := content.getD addr 0xFF

abbrev Table := ℕ → UInt8

def readWords (content : List UInt8) (wden : UInt8) : List ℕ → ℕ → ℕ → Table → ℕ × Table
  | [], efuseAddr, _, tbl => (efuseAddr, tbl)
  | i :: is, efuseAddr, addr, tbl =>
    if wordEnabled wden i then
      readWords content wden is (efuseAddr + 2) (addr + 2)
        (Function.update (Function.update tbl addr (oneByteRead content efuseAddr)) (addr + 1)
          (oneByteRead content (efuseAddr + 1)))
    else readWords content wden is efuseAddr (addr + 2) tbl

def readSection (content : List UInt8) (offset wden : UInt8) (efuseAddr : ℕ) (tbl : Table) :
    ℕ × Table :=
  if offset.toNat < efuseMaxSection then
    readWords content wden (List.range 4) efuseAddr (offset.toNat * 8) tbl
  else (efuseAddr + calculateWordCnts wden * 2, tbl)

theorem readWords_fst (content : List UInt8) (wden : UInt8) (is : List ℕ) (efuseAddr addr : ℕ)
    (tbl : Table) : (readWords content wden is efuseAddr addr tbl).1 =
      efuseAddr + is.countP (wordEnabled wden) * 2 := by
  induction is generalizing efuseAddr addr tbl with
  | nil => rfl
  | cons i is ih =>
    unfold readWords
    cases Decidable.em (wordEnabled wden i = true) with
    | inl hi =>
      rw [if_pos hi, ih, List.countP_cons_of_pos hi]
      omega
    | inr hi => rw [if_neg hi, ih, List.countP_cons_of_neg hi]

theorem readSection_fst (content : List UInt8) (offset wden : UInt8) (efuseAddr : ℕ)
    (tbl : Table) : (readSection content offset wden efuseAddr tbl).1 =
      efuseAddr + calculateWordCnts wden * 2 := by
  unfold readSection
  split
  · exact readWords_fst ..
  · rfl

def readLoop (content : List UInt8) (efuseAddr : ℕ) (tbl : Table) : ℕ × Table :=
  if efuseAddr < efuseRealContentLen then
    let header := oneByteRead content efuseAddr
    if header = 0xFF then (efuseAddr + 1, tbl)
    else if extHeader header then
      let extHdr := oneByteRead content (efuseAddr + 1)
      if allWordsDisabled extHdr then readLoop content (efuseAddr + 2) tbl
      else
        let r := readSection content (hdrOffset20 header ||| ((extHdr &&& 0xF0) >>> 1))
          (extHdr &&& 0x0F) (efuseAddr + 2) tbl
        readLoop content r.1 r.2
    else
      let r := readSection content ((header >>> 4) &&& 0x0F) (header &&& 0x0F) (efuseAddr + 1) tbl
      readLoop content r.1 r.2
  else (efuseAddr, tbl)
termination_by efuseRealContentLen - efuseAddr
decreasing_by
  · omega
  · rw [readSection_fst]
    omega
  · rw [readSection_fst]
    omega

def halReadEfuseWifi (e : EfuseHal) (offset sizeByte : ℕ) (pbuf : List UInt8) :
    EfuseHal × List UInt8 :=
  if efuseMaxMapLen < offset + sizeByte then (e, pbuf)
  else
    let r := readLoop e.content 0 fun _ => 0xFF
    ({ e with efuseUsedBytes := r.1 - 1 }, (List.range sizeByte).map fun i => r.2 (offset + i))

structure MapRead where
  efuse : EfuseHal
  ret : Bool
  data : List UInt8

def rtwEfuseMapRead (e : EfuseHal) (addr cnts : ℕ) (data : List UInt8) : MapRead :=
  if efuseMapLen < addr + cnts then ⟨e, false, data⟩
  else
    let r := halReadEfuseWifi e addr cnts data
    ⟨r.1, true, r.2⟩

def currentSizeLoop (content : List UInt8) (startAddr efuseAddr count : ℕ) : Option ℕ :=
  if efuseAddr < efuseRealContentLen then
    let efuseData := oneByteRead content efuseAddr
    if efuseData = 0xFF then some efuseAddr
    else if startAddr ≠ 0 ∧ efuseAddr = startAddr then
      if count + 1 < 4 then
        if 2 < count + 1 then currentSizeLoop content 0 0 (count + 1)
        else currentSizeLoop content startAddr efuseAddr (count + 1)
      else none
    else if extHeader efuseData then
      let extHdr := oneByteRead content (efuseAddr + 1)
      if allWordsDisabled extHdr then currentSizeLoop content startAddr (efuseAddr + 1) count
      else
        currentSizeLoop content startAddr
          (efuseAddr + 1 + (calculateWordCnts (extHdr &&& 0x0F) * 2 + 1)) count
    else
      currentSizeLoop content startAddr
        (efuseAddr + (calculateWordCnts (efuseData &&& 0x0F) * 2 + 1)) count
  else some efuseAddr
termination_by ((if startAddr = 0 then 0 else 1), 4 - count, efuseRealContentLen - efuseAddr)
decreasing_by
  · rename_i hstart _ _
    rw [if_pos trivial, if_neg hstart.1]
    exact Prod.Lex.left _ _ Nat.one_pos
  · exact Prod.Lex.right _ (Prod.Lex.left _ _ (by omega))
  · exact Prod.Lex.right _ (Prod.Lex.right _ (by omega))
  · exact Prod.Lex.right _ (Prod.Lex.right _ (by omega))
  · exact Prod.Lex.right _ (Prod.Lex.right _ (by omega))

def halEfuseGetCurrentSizeWifi (e : EfuseHal) : EfuseHal × ℕ :=
  match currentSizeLoop e.content e.efuseUsedBytes e.efuseUsedBytes 0 with
  | some efuseAddr => ({ e with efuseUsedBytes := efuseAddr }, efuseAddr)
  | none => (e, availableEfuseBytes)

end Efuse
