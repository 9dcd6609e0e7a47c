import Rtl8188fu.Ie.DeleteIe
import Rtl8188fu.Lib.Run

namespace Wnm

open ByteMemory
open Ie (rtwGetIe rtwGetIeSearch u32Sub asInt)

def rtwMaxNbRptNum : ℕ := 8

def nbRptElem : UInt8 := 0x34

def candPrefSubeid : UInt8 := 0x03

structure NbRptHdr where
  id : UInt8
  len : UInt8
  bssid : Vector UInt8 6
  bssInfo : Vector UInt8 4
  regClass : UInt8
  chNum : UInt8
  phyType : UInt8
  -- the struct is 16 bytes long: memcpy and memcmp take the byte behind phy_type along
  pad : UInt8
  deriving DecidableEq

structure WnmBtmCant where
  nbRpt : NbRptHdr
  preference : UInt8
  deriving DecidableEq

def nbRptAt (m : Mem UInt8) (p : ℕ) : NbRptHdr where
  id := m p
  len := m (p + 1)
  bssid := Vector.ofFn fun i => m (p + 2 + i)
  bssInfo := Vector.ofFn fun i => m (p + 8 + i)
  regClass := m (p + 12)
  chNum := m (p + 13)
  phyType := m (p + 14)
  pad := m (p + 15)

structure ElemScan where
  entries : List WnmBtmCant
  bfound : Bool
  reads : List ℕ

def candPref (m : Mem UInt8) (ptr subelemLen : ℕ) : Option ℕ :=
  (rtwGetIe m (ptr + 15) candPrefSubeid (asInt (u32Sub subelemLen 15))).filter fun op =>
    m (op + 1) ≠ 0

def candPrefReads (m : Mem UInt8) (ptr subelemLen : ℕ) : List ℕ :=
  ((rtwGetIeSearch m (ptr + 15) candPrefSubeid.toNat (asInt (u32Sub subelemLen 15))).readOffsets.map
    (ptr + 15 + ·)) ++ (candPref m ptr subelemLen).toList.map (· + 2)

def nbElemLoop (fromBtm : Bool) (m : Mem UInt8) (pend : ℕ) : ℕ → ℕ → ℕ → ℕ → ElemScan
  | 0, _, _, _ => ⟨[], false, []⟩
  | n + 1, ptr, elemLen, subelemLen =>
    if pend < ptr + 7 ∨ elemLen < subelemLen then ⟨[], false, []⟩
    else if m ptr ≠ nbRptElem then ⟨[], false, [ptr]⟩
    else
      let op := if fromBtm then candPref m ptr subelemLen else none
      let next := ptr + (subelemLen + 2)
      let r := nbElemLoop fromBtm m pend n next (u32Sub elemLen (subelemLen + 2)) (m (next + 1)).toNat
      { entries := ⟨nbRptAt m ptr, (op.map fun op => m (op + 2)).getD 0⟩ :: r.entries
        bfound := op.isSome || r.bfound
        reads := ptr :: (if fromBtm then candPrefReads m ptr subelemLen else []) ++
          (next + 1) :: (List.range 16).map (ptr + ·) ++ r.reads }

def rtwWnmNbElemParsing (fromBtm : Bool) (m : Mem UInt8) (pdata dataLen : ℕ) : ElemScan :=
  let r := nbElemLoop fromBtm m (pdata + dataLen) rtwMaxNbRptNum pdata dataLen (m (pdata + 1)).toNat
  { r with reads := (pdata + 1) :: r.reads }

def bestPos (best : UInt8) : ℕ → ℕ → List WnmBtmCant → ℕ
  | pos, _, [] => pos
  | pos, j, c :: cs =>
    if best < c.preference then bestPos c.preference j (j + 1) cs else bestPos best pos (j + 1) cs

def rtwWnmCandidatesSorting : ℕ → List WnmBtmCant → List WnmBtmCant
  | n + 1, c :: cs =>
    match bestPos c.preference 0 1 cs with
    | 0 => c :: rtwWnmCandidatesSorting n cs
    | pos + 1 => cs.getD pos c :: rtwWnmCandidatesSorting n (cs.set pos c)
  | _, cs => cs

structure NbInfo where
  nbRpt : List NbRptHdr
  nbRptSlots : nbRpt.length = rtwMaxNbRptNum
  nbRptChList : List ℕ
  nbRptValid : Bool
  nbRptChListNum : ℕ
  preferenceEn : Bool
  lastNbRptEntries : ℕ
  nbRptIsSame : Bool

def sameRpts (old new : List NbRptHdr) : Bool := (new.zip old).all fun p => decide (p.1 = p.2)

def putRpts (old new : List NbRptHdr) : List NbRptHdr := new.take old.length ++ old.drop new.length

theorem length_putRpts (old new : List NbRptHdr) : (putRpts old new).length = old.length := by
  rw [putRpts, List.length_append, List.length_take, List.length_drop]
  omega

structure ChList where
  slots : List ℕ
  num : ℕ

def addChannel (entries : ℕ) (l : ChList) (chNum : UInt8) : ChList :=
  if chNum = 0 then l
  else if chNum.toNat ∈ l.slots.take entries then l
  else ⟨l.slots.set l.num chNum.toNat, l.num + 1⟩

def nbChannels (slots : List ℕ) (rpts : List NbRptHdr) : ChList :=
  (rpts.map NbRptHdr.chNum).foldl (addChannel rpts.length) ⟨slots, 0⟩

structure SurveyRun where
  nb : NbInfo
  candidates : List WnmBtmCant
  reads : List ℕ
  ret : Bool

def rtwWnmBtmCandidatesSurvey (malloc : Bool) (m : Mem UInt8) (pframe elemLen : ℕ) (fromBtm : Bool)
    (nb : NbInfo) : SurveyRun :=
  if fromBtm && !malloc then ⟨nb, [], [], false⟩
  else
    let r := rtwWnmNbElemParsing fromBtm m pframe elemLen
    let entries := r.entries.length
    let preferenceEn := if fromBtm then r.bfound else nb.preferenceEn
    let candidates := if fromBtm && preferenceEn then rtwWnmCandidatesSorting (entries - 1) r.entries
      else r.entries
    let rpts := candidates.map WnmBtmCant.nbRpt
    let same := sameRpts nb.nbRpt rpts && decide (entries = nb.lastNbRptEntries)
    let zeroed := List.replicate rtwMaxNbRptNum 0
    let chList := if entries = 0 then ⟨zeroed, nb.nbRptChListNum⟩ else nbChannels zeroed rpts
    { nb :=
        { nbRpt := putRpts nb.nbRpt rpts
          nbRptSlots := (length_putRpts _ _).trans nb.nbRptSlots
          nbRptChList := chList.slots
          nbRptValid := true
          nbRptChListNum := chList.num
          preferenceEn := preferenceEn
          lastNbRptEntries := entries
          nbRptIsSame := same }
      candidates := candidates
      reads := r.reads
      ret := true }

end Wnm
