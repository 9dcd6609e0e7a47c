import Rtl8188fu.Ie.UpdateIe
import Rtl8188fu.Scan.Network

namespace Ie

open ByteMemory Tlv
open Scan (isAllNull isHiddenSsid bssTypeBcn bssTypeProbRsp bssTypeProbReq)

def ssidIe : UInt8 := 0

def bssTypeUndef : ℕ := 0

inductive FrameSubtype where
  | beacon
  | probeRsp
  | probeReq
  | other

structure Ssid where
  bytes : List UInt8
  fits : bytes.length ≤ 32

def Ssid.content (s : Ssid) : Content := ⟨s.bytes, Nat.lt_of_le_of_lt s.fits (by decide)⟩

structure Scanned where
  ies : ℕ
  ieLength : ℕ
  ssid : List UInt8

structure Absorbed where
  mem : Mem
  scanned : Option Scanned
  bssType : ℕ
  written : List ℕ

namespace FrameSubtype

def bssType : FrameSubtype → ℕ
  | beacon => bssTypeBcn
  | probeRsp => bssTypeProbRsp
  | probeReq => bssTypeProbReq
  | other => bssTypeUndef

def ieOffset : FrameSubtype → ℕ
  | beacon => 12
  | probeRsp => 12
  | probeReq => 0
  | other => 12

end FrameSubtype

def findSsidIe (m : Mem) (ies ieLength : ℕ) (subtype : FrameSubtype) : Option ℕ :=
  rtwGetIe m (ies + subtype.ieOffset) ssidIe ((ieLength : ℤ) - subtype.ieOffset)

def putSsid (m : Mem) (p : ℕ) (ssid tail : List UInt8) : Mem :=
  write (write (write m (p + 1) [UInt8.ofNat ssid.length]) (p + 2) ssid)
    (p + 2 + ssid.length) tail

def rtwAbsorbSsidIfneed (malloc : Bool) (m : Mem) (scanned : Option Scanned)
    (subtype : FrameSubtype) (ssid : Ssid) : Absorbed :=
  match scanned with
  | none => ⟨m, none, subtype.bssType, []⟩
  | some s =>
    if isHiddenSsid s.ssid && !isHiddenSsid ssid.bytes then
      match findSsidIe m s.ies s.ieLength subtype, malloc with
      | some p, true =>
        let ssidLenOri := (m (p + 1)).toNat
        let nextIe := p + 2 + ssidLenOri
        let remainLen := u32Sub s.ieLength (nextIe - s.ies)
        let backupIe := read m nextIe remainLen
        ⟨putSsid m p ssid.bytes backupIe,
          some ⟨s.ies, s.ieLength + ssid.bytes.length, ssid.bytes⟩, subtype.bssType,
          List.range' (p + 1) (1 + ssid.bytes.length + remainLen)⟩
      | _, _ => ⟨m, scanned, subtype.bssType, []⟩
    else ⟨m, scanned, subtype.bssType, []⟩

def ssidAt (a : IeArea) (pre : List Element) : ℕ := a.ies + a.fixed.length + (encode pre).length

structure Refreshed (m : Mem) (a : IeArea) (pre : List Element) (ssid : Ssid) (s : Scanned)
    (r : Absorbed) : Prop where
  edited : Edited m a (replaceFirst (ssid.content.element ssidIe) a.elements) (r.mem, s.ieLength)
  ieLength : s.ieLength ≤ maxIeSz
  ssid : s.ssid = ssid.bytes
  frame : ∀ w ∈ r.written, ssidAt a pre < w

def AbsorbLaw (malloc : Bool) (m : Mem) (a : IeArea) (pre : List Element) (old : List UInt8)
    (subtype : FrameSubtype) (ssid : Ssid) : Prop :=
  let r := rtwAbsorbSsidIfneed malloc m (some ⟨a.ies, a.bytes.length, old⟩) subtype ssid
  ∃ s ∈ r.scanned, Refreshed m a pre ssid s r

structure Absorbable (malloc : Bool) (m : Mem) (a : IeArea) (pre : List Element) (t : Element)
    (subtype : FrameSubtype) (ssid : Ssid) : Prop where
  malloc : malloc = true
  found : findSsidIe m a.ies a.bytes.length subtype = some (ssidAt a pre)
  empty : t.body = []
  room : a.bytes.length + ssid.bytes.length ≤ maxIeSz

variable {malloc : Bool} {m : Mem} {a : IeArea} {pre post : List Element} {t : Element}
  {old : List UInt8} {subtype : FrameSubtype} {ssid : Ssid} {p : ℕ}

theorem written_putSsid (m : Mem) (p : ℕ) (c : Content) (tail : List UInt8) :
    Written m (putSsid m p c.bytes tail) p c tail := by
  have hheader : Written m (write (write m (p + 1) [UInt8.ofNat c.bytes.length]) (p + 2) c.bytes)
      p c [] := by
    constructor
    · intro i hi
      rw [write_below _ _ (by omega), write_below _ _ (by omega)]
    · rw [write_below _ _ (by omega)]
      exact holds_write _ (p + 1) [UInt8.ofNat c.bytes.length] 0 Nat.one_pos
    · rw [List.append_nil]
      exact holds_write _ (p + 2) c.bytes
    · intro i hi
      rw [List.length_nil] at hi
      rw [write_above _ (by omega), write_above _ (by rw [List.length_singleton]; omega)]
  exact hheader.move tail

theorem ne_of_hidden {xs ys : List UInt8} (hhidden : isHiddenSsid xs = true)
    (hreal : isHiddenSsid ys = false) : xs ≠ ys := by
  rintro rfl
  exact Bool.noConfusion (hhidden.symm.trans hreal)

theorem ssid_pos (hreal : isHiddenSsid ssid.bytes = false) : 0 < ssid.bytes.length := by
  cases hbytes : ssid.bytes with
  | nil =>
    rw [hbytes] at hreal
    exact absurd hreal (by decide)
  | cons b bs => exact Nat.succ_pos _

theorem absorb_found (hhidden : isHiddenSsid old = true)
    (hreal : isHiddenSsid ssid.bytes = false)
    (hfind : findSsidIe m a.ies a.bytes.length subtype = some p) :
    rtwAbsorbSsidIfneed true m (some ⟨a.ies, a.bytes.length, old⟩) subtype ssid =
      let remainLen := u32Sub a.bytes.length (p + 2 + (m (p + 1)).toNat - a.ies)
      ⟨putSsid m p ssid.bytes (read m (p + 2 + (m (p + 1)).toNat) remainLen),
        some ⟨a.ies, a.bytes.length + ssid.bytes.length, ssid.bytes⟩, subtype.bssType,
        List.range' (p + 1) (1 + ssid.bytes.length + remainLen)⟩ := by
  simp only [rtwAbsorbSsidIfneed, hhidden, hreal, hfind, Bool.not_false, Bool.and_self, if_true]

theorem absorb_idle (hidle : malloc = false ∨ findSsidIe m a.ies a.bytes.length subtype = none) :
    rtwAbsorbSsidIfneed malloc m (some ⟨a.ies, a.bytes.length, old⟩) subtype ssid =
      ⟨m, some ⟨a.ies, a.bytes.length, old⟩, subtype.bssType, []⟩ := by
  rw [rtwAbsorbSsidIfneed, ite_self]
  intro p hfind hmalloc
  rcases hidle with hfail | hnone
  · exact Bool.false_ne_true (hfail.symm.trans hmalloc)
  · exact Option.some_ne_none p (hfind.symm.trans hnone)

theorem idle_not_refreshed (hstored : a.Stored m) (hfirst : FirstAt ssidIe a.elements pre t post)
    (hbody : isHiddenSsid t.body = true) (hreal : isHiddenSsid ssid.bytes = false)
    (hidle : malloc = false ∨ findSsidIe m a.ies a.bytes.length subtype = none) :
    ¬AbsorbLaw malloc m a pre old subtype ssid := by
  rintro ⟨s, hs, hedited, -, -, -⟩
  rw [absorb_idle hidle] at hs hedited
  obtain rfl := Option.mem_some_iff.mp hs
  have hsame := (unedited_iff hstored).mp hedited
  exact ne_of_hidden hbody hreal ((replaced_eq_iff hfirst).mp hsame)

theorem findSsidIe_same (hstored : a.Stored m) (hfirst : FirstAt ssidIe a.elements pre t post)
    (hoffset : subtype.ieOffset = a.fixed.length) :
    findSsidIe m a.ies a.bytes.length subtype = some (ssidAt a pre) := by
  have hlen : (a.bytes.length : ℤ) - a.fixed.length = (encode a.elements).length := by
    rw [IeArea.bytes, List.length_append]
    omega
  rw [findSsidIe, hoffset, hlen]
  exact rtwGetIe_first hstored.right hfirst

theorem replaced_header (hfirst : FirstAt ssidIe a.elements pre t post) (m' : Mem)
    (hheld : Holds m' a.ies (a.fixed ++ encode (replaceFirst (ssid.content.element ssidIe)
      a.elements))) : (m' (ssidAt a pre + 1)).toNat = ssid.bytes.length := by
  have hreplaced := replaceFirst_first (t := ssid.content.element ssidIe) hfirst
  rw [hreplaced] at hheld
  exact holds_len (holds_elements hheld.right)

theorem old_header (hstored : a.Stored m) (hfirst : FirstAt ssidIe a.elements pre t post) :
    (m (ssidAt a pre + 1)).toNat = t.body.length := by
  have hlist : Holds m (a.ies + a.fixed.length) (encode (pre ++ t :: post)) :=
    hfirst.split ▸ hstored.right
  exact holds_len (holds_elements hlist)

theorem area_length (hfirst : FirstAt ssidIe a.elements pre t post) : a.bytes.length =
    a.fixed.length + (encode pre).length + (t.body.length + 2 + (encode post).length) := by
  simp only [IeArea.bytes, hfirst.split, encode_append, encode_cons, List.length_append,
    Element.length_bytes, Nat.add_assoc]

theorem replaced_length (hfirst : FirstAt ssidIe a.elements pre t post) :
    (a.fixed ++ encode (replaceFirst (ssid.content.element ssidIe) a.elements)).length =
      a.fixed.length + (encode pre).length +
        (ssid.bytes.length + 2 + (encode post).length) := by
  have hreplaced := replaceFirst_first (t := ssid.content.element ssidIe) hfirst
  rw [hreplaced]
  simp only [encode_append, encode_cons, List.length_append, Element.length_bytes, Nat.add_assoc]
  rfl

theorem absorbed_at_ssid (hstored : a.Stored m) (hfirst : FirstAt ssidIe a.elements pre t post)
    (hempty : t.body = []) :
    let tail := read m (ssidAt a pre + 2 + (m (ssidAt a pre + 1)).toNat)
      (u32Sub a.bytes.length (ssidAt a pre + 2 + (m (ssidAt a pre + 1)).toNat - a.ies))
    Edited m a (replaceFirst (ssid.content.element ssidIe) a.elements)
      (putSsid m (ssidAt a pre) ssid.bytes tail, a.bytes.length + ssid.bytes.length) := by
  have hzero : t.body.length = 0 := List.length_eq_zero_iff.mpr hempty
  have hlen := area_length hfirst
  have hremain : u32Sub a.bytes.length (ssidAt a pre + 2 + t.body.length - a.ies) =
      (encode post).length := by
    rw [ssidAt, u32Sub_of_le (by omega)]
    omega
  have htail : read m (ssidAt a pre + 2 + t.body.length) (encode post).length = encode post := by
    have hlist : Holds m (a.ies + a.fixed.length) (encode (pre ++ t :: post)) :=
      hfirst.split ▸ hstored.right
    have hrest := (holds_elements hlist).right
    rw [Element.length_bytes, Nat.add_comm t.body.length 2, ← Nat.add_assoc] at hrest
    exact hrest.read
  simp only [old_header hstored hfirst, hremain, htail]
  exact (written_putSsid m _ ssid.content (encode post)).edited hstored hfirst rfl (by
    rw [hzero]
    rfl)

theorem absorbed_iff (hstored : a.Stored m) (hfirst : FirstAt ssidIe a.elements pre t post)
    (hhidden : isHiddenSsid old = true) (hreal : isHiddenSsid ssid.bytes = false)
    (hfind : findSsidIe m a.ies a.bytes.length subtype = some p) :
    AbsorbLaw true m a pre old subtype ssid ↔ p = ssidAt a pre ∧ t.body = [] ∧
      a.bytes.length + ssid.bytes.length ≤ maxIeSz := by
  rw [AbsorbLaw, absorb_found hhidden hreal hfind]
  simp only [Option.mem_some_iff, exists_eq_left']
  constructor
  · rintro ⟨hedited, hroom, -, hframe⟩
    have hempty : t.body.length = 0 := by
      have hnew := hedited.iesLen
      rw [replaced_length hfirst, area_length hfirst] at hnew
      simp only at hnew
      omega
    have hle : ssidAt a pre ≤ p := by
      have hfirstWrite := hframe (p + 1) (List.mem_range'_1.mpr ⟨Nat.le_refl _, by omega⟩)
      omega
    have hge : p ≤ ssidAt a pre := by
      refine Nat.le_of_not_lt fun hlt => ?_
      have hnew := replaced_header hfirst _ hedited.mem
      simp only [putSsid] at hnew
      rw [write_below _ _ (by omega), write_below _ _ (by omega), write_below _ _ (by omega),
        old_header hstored hfirst, hempty] at hnew
      exact absurd hnew (Nat.ne_of_lt (ssid_pos hreal))
    exact ⟨Nat.le_antisymm hge hle, List.length_eq_zero_iff.mp hempty, hroom⟩
  · rintro ⟨rfl, hempty, hroom⟩
    refine ⟨absorbed_at_ssid hstored hfirst hempty, hroom, rfl, fun w hw => ?_⟩
    exact (List.mem_range'_1.mp hw).1

theorem absorb_ssid_iff (malloc : Bool) (m : Mem) (a : IeArea) (pre : List Element) (t : Element)
    (post : List Element) (old : List UInt8) (subtype : FrameSubtype) (ssid : Ssid)
    (hstored : a.Stored m) (hfirst : FirstAt ssidIe a.elements pre t post)
    (hbody : isHiddenSsid t.body = true) (hhidden : isHiddenSsid old = true)
    (hreal : isHiddenSsid ssid.bytes = false) :
    AbsorbLaw malloc m a pre old subtype ssid ↔ Absorbable malloc m a pre t subtype ssid := by
  cases hfind : findSsidIe m a.ies a.bytes.length subtype with
  | none =>
    refine iff_of_false (idle_not_refreshed hstored hfirst hbody hreal (.inr hfind)) fun h => ?_
    exact Option.some_ne_none _ (h.found.symm.trans hfind)
  | some p =>
    cases malloc with
    | false =>
      refine iff_of_false (idle_not_refreshed hstored hfirst hbody hreal (.inl rfl)) fun h => ?_
      exact Bool.false_ne_true h.malloc
    | true =>
      rw [absorbed_iff hstored hfirst hhidden hreal hfind]
      constructor
      · rintro ⟨rfl, hempty, hroom⟩
        exact ⟨rfl, hfind, hempty, hroom⟩
      · intro h
        exact ⟨Option.some.inj (hfind.symm.trans h.found), h.empty, h.room⟩

def hiddenArea (body : Content) : IeArea :=
  areaOf (List.replicate 12 0) [body.element ssidIe, ⟨1, [0x84], by decide⟩]

def realSsid : Ssid := ⟨[0x61, 0x62], by decide⟩

theorem hiddenArea_first (body : Content) : FirstAt ssidIe (hiddenArea body).elements []
    (body.element ssidIe) [⟨1, [0x84], by decide⟩] :=
  ⟨rfl, fun _ hu => absurd hu List.not_mem_nil, rfl⟩

theorem absorb_ssid_iff_empty :
    let a := hiddenArea ⟨[], by decide⟩
    AbsorbLaw true a.image a [] [] .beacon realSsid ↔
      Absorbable true a.image a [] ((⟨[], by decide⟩ : Content).element ssidIe) .beacon realSsid :=
  absorb_ssid_iff true _ _ [] _ _ [] .beacon realSsid (.of_read (by decide))
    (hiddenArea_first _) (by decide) (by decide) (by decide)

theorem zeroed_ssid_length_added :
    let a := hiddenArea ⟨[0, 0], by decide⟩
    ¬AbsorbLaw true a.image a [] [] .beacon realSsid := by
  intro a hlaw
  have hstored : a.Stored a.image := .of_read (by decide)
  have hfind : findSsidIe a.image a.ies a.bytes.length .beacon = some (ssidAt a []) :=
    findSsidIe_same hstored (hiddenArea_first _) rfl
  have habsorbed := (absorbed_iff hstored (hiddenArea_first _) (by decide) (by decide) hfind).mp hlaw
  exact absurd habsorbed.2.1 (List.cons_ne_nil 0 [0])

end Ie
