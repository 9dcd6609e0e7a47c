import Mathlib.Algebra.Group.Nat.Defs
import Mathlib.Data.List.Induction
import Mathlib.Tactic.Common

namespace Os

structure MapSeg where
  sa : ℕ
  c : List UInt8

namespace MapSeg

variable (seg : MapSeg)

def len : ℕ := seg.c.length

def byte (i : ℕ) : UInt8 := seg.c.getD i 0

def Covers (a : ℕ) : Prop := seg.sa ≤ a ∧ a < seg.sa + seg.len

instance (a : ℕ) : Decidable (seg.Covers a) := inferInstanceAs (Decidable (_ ∧ _))

end MapSeg

structure SegMap where
  len : ℕ
  initValue : UInt8
  segs : List MapSeg
  u16 : len < 2 ^ 16
  inside : ∀ seg ∈ segs, seg.sa + seg.len ≤ len

abbrev Buf := ℕ → UInt8

def memset (buf : Buf) (v : UInt8) (n : ℕ) : Buf := fun i => if i < n then v else buf i

def memcpy (buf : Buf) (dst n : ℕ) (src : ℕ → UInt8) : Buf :=
  fun i => if dst ≤ i ∧ i < dst + n then src (i - dst) else buf i

def copySeg (offset len : ℕ) (buf : Buf) (seg : MapSeg) : Buf :=
  if seg.sa + seg.len ≤ offset ∨ offset + len ≤ seg.sa then buf
  else if offset ≤ seg.sa then
    let cLen := if seg.sa + seg.len ≤ offset + len then seg.len else offset + len - seg.sa
    memcpy buf (seg.sa - offset) cLen seg.byte
  else
    let cLen := if offset + len ≤ seg.sa + seg.len then len else seg.sa + seg.len - offset
    memcpy buf 0 cLen fun i => seg.byte (offset - seg.sa + i)

inductive Ret where
  | success
  | fail
deriving DecidableEq

-- ret starts as _FAIL and no path assigns it
def mapReadN (map : SegMap) (offset len : ℕ) (buf : Buf) : Ret × Buf :=
  if len = 0 then (.fail, buf)
  else if map.len < offset + len then (.fail, buf)
  else (.fail, map.segs.foldl (copySeg offset len) (memset buf map.initValue len))

def mapRead8 (map : SegMap) (offset : ℕ) : UInt8 :=
  if map.len < offset + 1 then map.initValue
  else
    match map.segs.find? fun seg => ¬ (seg.sa + seg.len ≤ offset ∨ offset + 1 ≤ seg.sa) with
    | some seg => seg.byte (offset - seg.sa)
    | none => map.initValue

def InRange (map : SegMap) (offset len : ℕ) : Prop := 1 ≤ len ∧ offset + len ≤ map.len

instance (map : SegMap) (offset len : ℕ) : Decidable (InRange map offset len) :=
  inferInstanceAs (Decidable (_ ∧ _))

def byteReads (map : SegMap) (offset len : ℕ) (buf : Buf) : Buf :=
  fun i => if i < len then mapRead8 map (offset + i) else buf i

def RangeLaw (map : SegMap) (offset len : ℕ) (buf : Buf) : Prop :=
  if InRange map offset len then
    mapReadN map offset len buf = (.success, byteReads map offset len buf)
  else mapReadN map offset len buf = (.fail, buf)

def firstByte (segs : List MapSeg) (a : ℕ) : Option UInt8 :=
  (segs.find? fun seg => seg.Covers a).map fun seg => seg.byte (a - seg.sa)

def lastByte (segs : List MapSeg) (a : ℕ) : Option UInt8 := firstByte segs.reverse a

section Reads

variable {map : SegMap} {offset len a i : ℕ} {buf : Buf} {seg : MapSeg}

theorem not_skipped_iff : ¬ (seg.sa + seg.len ≤ a ∨ a + 1 ≤ seg.sa) ↔ seg.Covers a := by
  rw [MapSeg.Covers]
  omega

theorem mapRead8_eq (h : a < map.len) :
    mapRead8 map a = (firstByte map.segs a).getD map.initValue := by
  have hin : ¬ map.len < a + 1 := by omega
  rw [mapRead8, if_neg hin, firstByte]
  simp only [not_skipped_iff]
  cases map.segs.find? fun seg => seg.Covers a with
  | none => rfl
  | some seg => rfl

theorem copySeg_apply :
    copySeg offset len buf seg i =
      if i < len ∧ seg.Covers (offset + i) then seg.byte (offset + i - seg.sa) else buf i := by
  rw [copySeg]
  cases Decidable.em (seg.sa + seg.len ≤ offset ∨ offset + len ≤ seg.sa) with
  | inl hskip =>
    have hout : ¬ (i < len ∧ seg.Covers (offset + i)) := by
      rw [MapSeg.Covers]
      omega
    rw [if_pos hskip, if_neg hout]
  | inr hmeets =>
    rw [if_neg hmeets]
    cases Nat.lt_or_ge seg.sa offset with
    | inl hbefore =>
      rw [if_neg (Nat.not_le_of_lt hbefore)]
      dsimp only [memcpy]
      have hsame : (0 ≤ i ∧ i < 0 + if offset + len ≤ seg.sa + seg.len then len
          else seg.sa + seg.len - offset) ↔ i < len ∧ seg.Covers (offset + i) := by
        rw [MapSeg.Covers]
        split <;> omega
      have hsrc : offset - seg.sa + (i - 0) = offset + i - seg.sa := by omega
      simp only [hsame, hsrc]
    | inr hafter =>
      rw [if_pos hafter]
      dsimp only [memcpy]
      have hsame : (seg.sa - offset ≤ i ∧ i < seg.sa - offset +
          if seg.sa + seg.len ≤ offset + len then seg.len else offset + len - seg.sa) ↔
          i < len ∧ seg.Covers (offset + i) := by
        rw [MapSeg.Covers]
        split <;> omega
      have hsrc : i - (seg.sa - offset) = offset + i - seg.sa := by omega
      simp only [hsame, hsrc]

theorem lastByte_concat (segs : List MapSeg) :
    lastByte (segs ++ [seg]) a =
      if seg.Covers a then some (seg.byte (a - seg.sa)) else lastByte segs a := by
  rw [lastByte, firstByte, List.reverse_concat, List.find?_cons]
  cases Decidable.em (seg.Covers a) with
  | inl h => simp [h]
  | inr h => simp [h, lastByte, firstByte]

theorem copySegs_apply (segs : List MapSeg) :
    segs.foldl (copySeg offset len) buf i =
      if i < len then (lastByte segs (offset + i)).getD (buf i) else buf i := by
  induction segs using List.reverseRecOn with
  | nil => simp [lastByte, firstByte]
  | append_singleton segs seg ih =>
    rw [List.foldl_append, List.foldl_cons, List.foldl_nil, copySeg_apply, ih, lastByte_concat]
    cases Nat.lt_or_ge i len with
    | inl hin =>
      simp only [hin, true_and, if_true]
      split <;> rfl
    | inr hout => simp [Nat.not_lt_of_le hout]

theorem mapReadN_inRange (h : InRange map offset len) :
    mapReadN map offset len buf = (.fail, fun i =>
      if i < len then (lastByte map.segs (offset + i)).getD map.initValue else buf i) := by
  have hlen : ¬ len = 0 := by
    have := h.1
    omega
  rw [mapReadN, if_neg hlen, if_neg (Nat.not_lt_of_le h.2)]
  congr 1
  funext i
  rw [copySegs_apply, memset]
  split <;> rfl

theorem mapReadN_outOfRange (h : ¬ InRange map offset len) :
    mapReadN map offset len buf = (.fail, buf) := by
  rw [mapReadN]
  split
  · rfl
  · rename_i hlen
    have hbeyond : map.len < offset + len := by
      rw [InRange] at h
      omega
    rw [if_pos hbeyond]

end Reads

def SameByte (map : SegMap) (a : ℕ) : Prop := lastByte map.segs a = firstByte map.segs a

section Agreement

variable {map : SegMap} {offset len a : ℕ} {buf : Buf}

theorem firstByte_none_iff {segs : List MapSeg} :
    firstByte segs a = none ↔ ∀ seg ∈ segs, ¬ seg.Covers a := by
  rw [firstByte, Option.map_eq_none_iff, List.find?_eq_none]
  simp

theorem getD_same_iff {v : UInt8} :
    (lastByte map.segs a).getD v = (firstByte map.segs a).getD v ↔ SameByte map a := by
  rw [SameByte]
  have hnone : lastByte map.segs a = none ↔ firstByte map.segs a = none := by
    rw [lastByte, firstByte_none_iff, firstByte_none_iff]
    simp only [List.mem_reverse]
  cases hlast : lastByte map.segs a with
  | none =>
    rw [hnone.mp hlast]
    exact ⟨fun _ => rfl, fun _ => rfl⟩
  | some b =>
    cases hfirst : firstByte map.segs a with
    | none => exact absurd (hlast.symm.trans (hnone.mpr hfirst)) (Option.some_ne_none b)
    | some c => simp

theorem filled_iff (h : InRange map offset len) :
    (mapReadN map offset len buf).2 = byteReads map offset len buf ↔
      ∀ a, offset ≤ a → a < offset + len → SameByte map a := by
  rw [mapReadN_inRange h, funext_iff]
  have hbyte (i : ℕ) (hi : i < len) : byteReads map offset len buf i =
      (firstByte map.segs (offset + i)).getD map.initValue := by
    have hmap := h.2
    rw [byteReads, if_pos hi, mapRead8_eq (by omega)]
  constructor
  · intro hall a hle hlt
    have hi : a - offset < len := by omega
    have hat := hall (a - offset)
    dsimp only at hat
    rw [hbyte _ hi, if_pos hi, Nat.add_sub_cancel' hle] at hat
    exact getD_same_iff.mp hat
  · intro hsame i
    dsimp only
    cases Nat.lt_or_ge i len with
    | inl hi =>
      rw [hbyte i hi, if_pos hi]
      exact getD_same_iff.mpr (hsame _ (Nat.le_add_right _ _) (Nat.add_lt_add_left hi _))
    | inr hi => rw [byteReads, if_neg (Nat.not_lt_of_le hi), if_neg (Nat.not_lt_of_le hi)]

theorem map_read_law (map : SegMap) (offset len : ℕ) (buf : Buf) :
    (RangeLaw map offset len buf ↔ ¬ InRange map offset len) ∧
      (InRange map offset len →
        ((mapReadN map offset len buf).2 = byteReads map offset len buf ↔
          ∀ a, offset ≤ a → a < offset + len → SameByte map a)) := by
  refine ⟨?_, filled_iff⟩
  rw [RangeLaw]
  split
  · rename_i h
    rw [mapReadN_inRange h]
    have hne : Ret.fail ≠ Ret.success := by decide
    exact ⟨fun heq => absurd (congrArg Prod.fst heq) hne, fun hno => absurd h hno⟩
  · rename_i h
    exact ⟨fun _ => h, fun _ => mapReadN_outOfRange h⟩

end Agreement

def fixedMap : SegMap where
  len := 4
  initValue := 0xff
  segs := [⟨0, [1, 2]⟩]
  u16 := by decide
  inside := by decide

theorem map_read_law_fixed :
    (mapReadN fixedMap 0 3 fun _ => 0).2 = byteReads fixedMap 0 3 fun _ => 0 := by
  refine ((map_read_law fixedMap 0 3 fun _ => 0).2 (by decide)).mpr fun a _ ha => ?_
  have hcases : a = 0 ∨ a = 1 ∨ a = 2 := by omega
  rcases hcases with rfl | rfl | rfl <;> rfl

theorem complete_read_fails : ¬ RangeLaw fixedMap 0 3 fun _ => 0 := fun h =>
  absurd (congrArg Prod.fst h) (by decide)

end Os
