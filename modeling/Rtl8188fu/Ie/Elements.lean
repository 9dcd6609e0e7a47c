import Mathlib.Data.Int.Init
import Mathlib.Data.List.Basic
import Mathlib.Tactic.Common

namespace Ie

abbrev Mem := ℕ → UInt8

def le16 (m : Mem) (pos : ℕ) : ℕ := (m pos).toNat + 256 * (m (pos + 1)).toNat

def memcmp (m : Mem) (pos : ℕ) : List UInt8 → Bool
  | [] => true
  | b :: bs => m pos == b && memcmp m (pos + 1) bs

def bytes (m : Mem) (pos : ℕ) : ℕ → List UInt8
  | 0 => []
  | n + 1 => m pos :: bytes m (pos + 1) n

def getIeLoop (m : Mem) (index : UInt8) (limit : ℕ) : ℕ → ℕ → ℕ → Option ℕ
  | 0, _, _ => none
  | fuel + 1, p, i =>
    if m p = index then some p
    else
      let tmp := (m (p + 1)).toNat
      if i + (tmp + 2) ≥ limit then none
      else getIeLoop m index limit fuel (p + (tmp + 2)) (i + (tmp + 2))

def rtwGetIe (m : Mem) (pbuf : ℕ) (index : UInt8) (limit : ℤ) : Option ℕ :=
  if limit < 1 then none else getIeLoop m index limit.toNat limit.toNat pbuf 0

def getIeExLoop (m : Mem) (inIe inLen : ℕ) (eid : UInt8) (oui : List UInt8) :
    ℕ → ℕ → Option ℕ
  | 0, _ => none
  | fuel + 1, cnt =>
    if cnt < inLen then
      if m (inIe + cnt) = eid ∧ memcmp m (inIe + cnt + 2) oui then some (inIe + cnt)
      else getIeExLoop m inIe inLen eid oui fuel (cnt + ((m (inIe + cnt + 1)).toNat + 2))
    else none

def rtwGetIeEx (m : Mem) (inIe inLen : ℕ) (eid : UInt8) (oui : List UInt8) : Option ℕ :=
  getIeExLoop m inIe inLen eid oui inLen 0

structure Elem where
  pos : ℕ
  len : ℕ
  deriving DecidableEq, Repr

structure Elems where
  ssid : Option Elem
  rsnIe : Option Elem
  wpaIe : Option Elem
  wpsIe : Option Elem
  htCapabilities : Option Elem
  htOperation : Option Elem
  deriving DecidableEq, Repr

def Elems.empty : Elems := ⟨none, none, none, none, none, none⟩

def eidSsid : UInt8 := 0
def eidSuppRates : UInt8 := 1
def eidChallenge : UInt8 := 16
def eidHtCap : UInt8 := 45
def eidRsn : UInt8 := 48
def eidExtSuppRates : UInt8 := 50
def eidHtOperation : UInt8 := 61
def eidVendorSpecific : UInt8 := 221

def ouiMicrosoft : List UInt8 := [0x00, 0x50, 0xf2]

def parseVendorSpecific (m : Mem) (e : Elem) (elems : Elems) : Elems :=
  if e.len < 4 then elems
  else if memcmp m e.pos ouiMicrosoft then
    if m (e.pos + 3) = 1 then { elems with wpaIe := some e }
    else if m (e.pos + 3) = 4 then { elems with wpsIe := some e }
    else elems
  else elems

def parseElem (m : Mem) (id : UInt8) (e : Elem) (elems : Elems) : Elems :=
  if id = eidSsid then { elems with ssid := some e }
  else if id = eidVendorSpecific then parseVendorSpecific m e elems
  else if id = eidRsn then { elems with rsnIe := some e }
  else if id = eidHtCap then { elems with htCapabilities := some e }
  else if id = eidHtOperation then { elems with htOperation := some e }
  else elems

def parseElemsLoop (m : Mem) : ℕ → ℕ → ℕ → Elems → Option Elems
  | 0, left, _, elems => if left = 0 then some elems else none
  | fuel + 1, left, pos, elems =>
    if left ≥ 2 then
      let id := m pos
      let elen := (m (pos + 1)).toNat
      if elen > left - 2 then none
      else
        parseElemsLoop m fuel (left - 2 - elen) (pos + 2 + elen)
          (parseElem m id ⟨pos + 2, elen⟩ elems)
    else if left = 0 then some elems
    else none

def rtwIeee80211ParseElems (m : Mem) (start len : ℕ) : Option Elems :=
  parseElemsLoop m len len start .empty

def supportRates : List UInt8 := [2, 4, 11, 22, 12, 18, 24, 36, 48, 72, 96, 108]

def ieHolds (m : Mem) (ie : Option ℕ) (f : UInt8 → Bool) : Bool :=
  match ie with
  | none => false
  | some p => (bytes m (p + 2) (m (p + 1)).toNat).any f

def rtwIesGetSupportedRate (m : Mem) (ies iesLen : ℕ) : List UInt8 :=
  let supp := rtwGetIe m ies eidSuppRates iesLen
  let ext := rtwGetIe m ies eidExtSuppRates iesLen
  supportRates.filterMap fun rate =>
    let listed (f : UInt8 → Bool) := ieHolds m supp f || ieHolds m ext f
    if listed fun p => p &&& 0x7f == rate then
      some (if listed fun p => p &&& 0x7f == rate && p &&& 0x80 != 0 then rate ||| 0x80 else rate)
    else none

end Ie
