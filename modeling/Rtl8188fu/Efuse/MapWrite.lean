import Rtl8188fu.Efuse.MapRead

namespace Efuse

section Writing

variable (program : UInt8 → UInt8 → UInt8)

def oneByteWrite (content : List UInt8) (addr : ℕ) (data : UInt8) : List UInt8 :=
  content.modify addr (program · data)

def clearBit (wordEn : UInt8) (i : ℕ) : UInt8 := wordEn &&& ~~~(1 <<< UInt8.ofNat i)

def writeWords (wordEn : UInt8) (data : ℕ → UInt8) :
    List ℕ → ℕ → List UInt8 → UInt8 → List UInt8 × UInt8
  | [], _, content, badworden => (content, badworden)
  | i :: is, startAddr, content, badworden =>
    if wordEnabled wordEn i then
      let content := oneByteWrite program content startAddr (data (2 * i))
      let content := oneByteWrite program content (startAddr + 1) (data (2 * i + 1))
      let bad := data (2 * i) ≠ oneByteRead content startAddr ∨
        data (2 * i + 1) ≠ oneByteRead content (startAddr + 1)
      writeWords wordEn data is (startAddr + 2) content
        (if bad then clearBit badworden i else badworden)
    else writeWords wordEn data is startAddr content badworden

def halEfuseWordEnableDataWrite (content : List UInt8) (efuseAddr : ℕ) (wordEn : UInt8)
    (data : ℕ → UInt8) : List UInt8 × UInt8 :=
  writeWords program wordEn data (List.range 4) efuseAddr content 0x0F

structure PgPkt where
  offset : UInt8
  wordEn : UInt8
  data : ℕ → UInt8

def halEfuseConstructPGPkt (offset wordEn : UInt8) (pData : ℕ → UInt8) : PgPkt :=
  ⟨offset, wordEn, fun i => if wordEnabled wordEn (i / 2) then pData i else 0xFF⟩

def halEfusePartialWriteCheck (e : EfuseHal) : Option ℕ :=
  let startAddr := e.efuseUsedBytes % efuseRealContentLen
  if availableEfuseBytes ≤ startAddr then none
  else if oneByteRead e.content startAddr ≠ 0xFF then none
  else some startAddr

def retryHeader (pgHeader : UInt8) (efuseAddr : ℕ) :
    ℕ → List UInt8 → List UInt8 × Option ℕ
  | left, content =>
    let tmpHeader := oneByteRead content efuseAddr
    if tmpHeader = 0xFF ∨ pgHeader ≠ tmpHeader then
      match left with
      | 0 => (content, none)
      | left + 1 =>
        retryHeader pgHeader efuseAddr left (oneByteWrite program content efuseAddr pgHeader)
    else (content, some left)

def writeHeader (pgHeader : UInt8) (efuseAddr left : ℕ) (content : List UInt8) :
    List UInt8 × Option ℕ :=
  retryHeader program pgHeader efuseAddr left (oneByteWrite program content efuseAddr pgHeader)

def efuseRepeatThreshold : ℕ := 3

def pgHeader1Byte (p : PgPkt) : UInt8 := ((p.offset <<< 4) &&& 0xF0) ||| p.wordEn

def halEfusePgPacketWrite1ByteHeader (p : PgPkt) (content : List UInt8) (efuseAddr : ℕ) :
    List UInt8 × Option ℕ :=
  let w := writeHeader program (pgHeader1Byte p) efuseAddr (efuseRepeatThreshold + 1) content
  (w.1, w.2.map fun _ => efuseAddr)

def pgHeader2Byte (p : PgPkt) : UInt8 := ((p.offset &&& 0x07) <<< 5) ||| 0x0F

def pgExtHeader (p : PgPkt) : UInt8 := ((p.offset &&& 0x78) <<< 1) ||| p.wordEn

def write2ByteLoop (p : PgPkt) (left : ℕ) (content : List UInt8) (efuseAddr : ℕ) :
    List UInt8 × Option ℕ :=
  if efuseAddr < availableEfuseBytes then
    match writeHeader program (pgHeader2Byte p) efuseAddr left content with
    | (content, none) => (content, none)
    | (content, some left) =>
      match writeHeader program (pgExtHeader p) (efuseAddr + 1) left content with
      | (content, none) => (content, none)
      | (content, some left) =>
        if pgExtHeader p &&& 0x0F = 0x0F then
          match left with
          | 0 => (content, none)
          | left + 1 => write2ByteLoop p left content (efuseAddr + 2)
        else (content, some (efuseAddr + 1))
  else (content, some efuseAddr)
termination_by availableEfuseBytes - efuseAddr

def halEfusePgPacketWrite2ByteHeader (p : PgPkt) (content : List UInt8) (efuseAddr : ℕ) :
    List UInt8 × Option ℕ :=
  if availableEfuseBytes ≤ efuseAddr then (content, none)
  else write2ByteLoop program p (efuseRepeatThreshold + 1) content efuseAddr

def halEfusePgPacketWriteHeader (p : PgPkt) (content : List UInt8) (efuseAddr : ℕ) :
    List UInt8 × Option ℕ :=
  if efuseMaxSectionBase ≤ p.offset.toNat then
    halEfusePgPacketWrite2ByteHeader program p content efuseAddr
  else halEfusePgPacketWrite1ByteHeader program p content efuseAddr

def halEfusePgPacketWrite (depth : ℕ) (e : EfuseHal) (offset wordEn : UInt8)
    (pData : ℕ → UInt8) : EfuseHal × Bool :=
  match depth with
  | 0 => (e, false)
  | depth + 1 =>
    let size := halEfuseGetCurrentSizeWifi e
    if availableEfuseBytes ≤ size.2 then (size.1, false)
    else
      let p := halEfuseConstructPGPkt offset wordEn pData
      match halEfusePartialWriteCheck size.1 with
      | none => (size.1, false)
      | some startAddr =>
        match halEfusePgPacketWriteHeader program p size.1.content startAddr with
        | (content, none) => ({ size.1 with content := content }, false)
        | (content, some efuseAddr) =>
          let w := halEfuseWordEnableDataWrite program content (efuseAddr + 1) wordEn p.data
          let e := { size.1 with content := w.1 }
          if w.2 = 0x0F then (e, true) else halEfusePgPacketWrite depth e offset w.2 p.data

end Writing

structure Changes where
  idx : ℕ
  wordEn : UInt8
  newdata : ℕ → UInt8

def sectionChanges (efuse map : ℕ → UInt8) (addr cnts i : ℕ) (s : Changes) : Changes :=
  if i < 8 ∧ s.idx < cnts then
    sectionChanges efuse map addr cnts (i + 1)
      (if efuse (addr + s.idx) ≠ map (addr + s.idx) then
        ⟨s.idx + 1, clearBit s.wordEn (i / 2), Function.update s.newdata i (efuse (addr + s.idx))⟩
      else { s with idx := s.idx + 1 })
  else s
termination_by 8 - i

def changesAt (efuse map : ℕ → UInt8) (addr cnts idx offset : ℕ) : Changes :=
  sectionChanges efuse map addr cnts ((addr + idx) % 8) ⟨idx, 0x0F, fun i => map (offset * 8 + i)⟩

theorem sectionChanges_idx (efuse map : ℕ → UInt8) (addr cnts i : ℕ) (s : Changes) :
    (sectionChanges efuse map addr cnts i s).idx = s.idx + min (8 - i) (cnts - s.idx) := by
  induction hn : 8 - i generalizing i s with
  | zero =>
    unfold sectionChanges
    rw [if_neg (by omega), Nat.zero_min, Nat.add_zero]
  | succ n ih =>
    unfold sectionChanges
    cases Decidable.em (s.idx < cnts) with
    | inl hidx =>
      rw [if_pos ⟨by omega, hidx⟩, ih _ _ (by omega)]
      split <;> dsimp only <;> omega
    | inr hidx =>
      rw [if_neg fun h => hidx h.2]
      omega

theorem changesAt_idx (efuse map : ℕ → UInt8) (addr cnts idx offset : ℕ) :
    (changesAt efuse map addr cnts idx offset).idx =
      idx + min (8 - (addr + idx) % 8) (cnts - idx) :=
  sectionChanges_idx ..

def pgBytes (wordEn : UInt8) (offset : ℕ) : ℕ :=
  if wordEn ≠ 0x0F then
    calculateWordCnts wordEn * 2 + if efuseMaxSectionBase ≤ offset then 2 else 1
  else 0

def chkTotalByte (efuse map : ℕ → UInt8) (addr cnts idx offset total : ℕ) : ℕ :=
  if idx < cnts then
    let s := changesAt efuse map addr cnts idx offset
    chkTotalByte efuse map addr cnts s.idx (offset + 1) (total + pgBytes s.wordEn offset)
  else total
termination_by cnts - idx
decreasing_by
  rw [changesAt_idx]
  omega

def writeLoop (program : UInt8 → UInt8 → UInt8) (efuse map : ℕ → UInt8)
    (addr cnts idx offset : ℕ) (e : EfuseHal) : EfuseHal × Bool :=
  if idx < cnts then
    let s := changesAt efuse map addr cnts idx offset
    if s.wordEn ≠ 0x0F then
      match halEfusePgPacketWrite program efuseRealContentLen e (UInt8.ofNat offset) s.wordEn
          s.newdata with
      | (e, false) => (e, false)
      | (e, true) => writeLoop program efuse map addr cnts s.idx (offset + 1) e
    else writeLoop program efuse map addr cnts s.idx (offset + 1) e
  else (e, true)
termination_by cnts - idx
decreasing_by
  · rw [changesAt_idx]
    omega
  · rw [changesAt_idx]
    omega

structure RegistryPriv where
  boffefusemask : Bool
  isMasked : ℕ → Bool

def efuseImage (r : RegistryPriv) (map : ℕ → UInt8) (addr cnts : ℕ) (data : ℕ → UInt8) (i : ℕ) :
    UInt8 :=
  if addr ≤ i ∧ i < addr + cnts then
    if r.boffefusemask = false ∧ r.isMasked i = true then map i else data (i - addr)
  else map i

def rtwEfuseMapWrite (program : UInt8 → UInt8 → UInt8) (r : RegistryPriv) (e : EfuseHal)
    (addr cnts : ℕ) (data : ℕ → UInt8) : EfuseHal × Bool :=
  if efuseMapLen < addr + cnts then (e, false)
  else
    let read := rtwEfuseMapRead e 0 efuseMapLen (List.replicate efuseMapLen 0xFF)
    if read.ret = false then (read.efuse, false)
    else
      let map := fun i => read.data.getD i 0xFF
      let efuse := efuseImage r map addr cnts data
      let total := chkTotalByte efuse map addr cnts 0 (addr / 8) 0
      let start :=
        if read.efuse.efuseUsedBytes = 0 then halEfuseGetCurrentSizeWifi read.efuse
        else (read.efuse, read.efuse.efuseUsedBytes)
      if availableEfuseBytes ≤ start.2 + total then (start.1, false)
      else writeLoop program efuse map addr cnts 0 (addr / 8) start.1

end Efuse
