import Rtl8188fu.Oem.StructDist

namespace Oem

structure Encoding where
  mask : Word
  value : Word
  fields : Word

def rn : Word := 0x000F0000#32
def rd : Word := 0x0000F000#32
def rs : Word := 0x00000F00#32
def rm : Word := 0x0000000F#32

-- the element loads and stores have no Rm where it is 1101 or 1111
def encUnconditional : List Encoding :=
  [⟨0xFE500000#32, 0xF8100000#32, rn⟩,
   ⟨0xFF700000#32, 0xF4500000#32, rn⟩,
   ⟨0xFF300000#32, 0xF5100000#32, rn⟩,
   ⟨0xFF700010#32, 0xF6500000#32, rn ||| rm⟩,
   ⟨0xFF300010#32, 0xF7100000#32, rn ||| rm⟩,
   ⟨0xFF100000#32, 0xF4000000#32, rn ||| rm⟩,
   ⟨0xFFE00000#32, 0xFC400000#32, rn ||| rd⟩,
   ⟨0xFE000000#32, 0xFC000000#32, rn⟩,
   ⟨0xFF000010#32, 0xFE000010#32, rd⟩,
   ⟨0xF0000000#32, 0xF0000000#32, 0#32⟩]

-- multiplies, exclusives, then the halfword and doubleword transfers
def encExtraSpace : List Encoding :=
  [⟨0x0FE000F0#32, 0x00000090#32, rn ||| rs ||| rm⟩,
   ⟨0x0F0000F0#32, 0x00000090#32, rn ||| rd ||| rs ||| rm⟩,
   ⟨0x0F9000F0#32, 0x01900090#32, rn ||| rd⟩,
   ⟨0x0F0000F0#32, 0x01000090#32, rn ||| rd ||| rm⟩,
   ⟨0x0E400090#32, 0x00400090#32, rn ||| rd⟩,
   ⟨0x0E400090#32, 0x00000090#32, rn ||| rd ||| rm⟩]

def encMiscellaneous : List Encoding :=
  [⟨0x0FB000F0#32, 0x01200000#32, rm⟩,
   ⟨0x0FB000F0#32, 0x01000000#32, rd⟩,
   ⟨0x0FF000F0#32, 0x01600010#32, rd ||| rm⟩,
   ⟨0x0FF000F0#32, 0x01200010#32, rm⟩,
   ⟨0x0FF000F0#32, 0x01200020#32, rm⟩,
   ⟨0x0FF000F0#32, 0x01200030#32, rm⟩,
   ⟨0x0F9000F0#32, 0x01000040#32, rn ||| rd ||| rm⟩,
   ⟨0x0F9000F0#32, 0x01000050#32, rn ||| rd ||| rm⟩,
   ⟨0x0F900080#32, 0x01000000#32, 0#32⟩,
   ⟨0x0FF00090#32, 0x01600080#32, rn ||| rs ||| rm⟩,
   ⟨0x0FF000B0#32, 0x012000A0#32, rn ||| rs ||| rm⟩,
   ⟨0x0F900090#32, 0x01000080#32, rn ||| rd ||| rs ||| rm⟩]

-- compares have no Rd, moves no Rn; the 16-bit moves hold imm4 where others hold Rn
def encDataProcessing : List Encoding :=
  [⟨0x0F800010#32, 0x01000000#32, rn ||| rm⟩,
   ⟨0x0F800090#32, 0x01000010#32, rn ||| rs ||| rm⟩,
   ⟨0x0FA00010#32, 0x01A00000#32, rd ||| rm⟩,
   ⟨0x0FA00090#32, 0x01A00010#32, rd ||| rs ||| rm⟩,
   ⟨0x0E000010#32, 0x00000000#32, rn ||| rd ||| rm⟩,
   ⟨0x0E000090#32, 0x00000010#32, rn ||| rd ||| rs ||| rm⟩,
   ⟨0x0FB00000#32, 0x03000000#32, rd⟩,
   ⟨0x0FB00000#32, 0x03200000#32, 0#32⟩,
   ⟨0x0F900000#32, 0x03100000#32, rn⟩,
   ⟨0x0FA00000#32, 0x03A00000#32, rd⟩,
   ⟨0x0E000000#32, 0x02000000#32, rn ||| rd⟩]

def encLoadStore : List Encoding :=
  [⟨0x0E000000#32, 0x04000000#32, rn ||| rd⟩,
   ⟨0x0E000010#32, 0x06000000#32, rn ||| rd ||| rm⟩]

-- forms told from the next ones by 1111 in a register field: the extends without Rn, the
-- multiplies and USAD8 without Ra, BFC without Rn; in the literal loads and ADR 1111 names the PC
def encOnes : List Encoding :=
  [⟨0x0F8F00F0#32, 0x068F0070#32, rd ||| rm⟩,
   ⟨0x0FF0F090#32, 0x0700F010#32, rn ||| rs ||| rm⟩,
   ⟨0x0FF0F0D0#32, 0x0750F010#32, rn ||| rs ||| rm⟩,
   ⟨0x0FF0F0F0#32, 0x0780F010#32, rn ||| rs ||| rm⟩,
   ⟨0x0FE0007F#32, 0x07C0001F#32, rd⟩]

def encMedia : List Encoding :=
  [⟨0x0F800010#32, 0x06000010#32, rn ||| rd ||| rm⟩,
   ⟨0x0FF00030#32, 0x06800010#32, rn ||| rd ||| rm⟩,
   ⟨0x0FF000F0#32, 0x068000B0#32, rn ||| rd ||| rm⟩,
   ⟨0x0F8000F0#32, 0x06800070#32, rn ||| rd ||| rm⟩,
   ⟨0x0F800010#32, 0x06800010#32, rd ||| rm⟩,
   ⟨0x0FD000F0#32, 0x07100010#32, rn ||| rs ||| rm⟩,
   ⟨0x0F800010#32, 0x07000010#32, rn ||| rd ||| rs ||| rm⟩,
   ⟨0x0FF000F0#32, 0x07800010#32, rn ||| rd ||| rs ||| rm⟩,
   ⟨0x0FF000F0#32, 0x07F000F0#32, 0#32⟩,
   ⟨0x0F800010#32, 0x07800010#32, rd ||| rm⟩]

def encBlockAndCoprocessor : List Encoding :=
  [⟨0x0E000000#32, 0x08000000#32, rn⟩,
   ⟨0x0E000000#32, 0x0A000000#32, 0#32⟩,
   ⟨0x0FE00000#32, 0x0C400000#32, rn ||| rd⟩,
   ⟨0x0E000000#32, 0x0C000000#32, rn⟩,
   ⟨0x0F000010#32, 0x0E000010#32, rd⟩]

def a32 : List Encoding :=
  encUnconditional ++ encExtraSpace ++ encMiscellaneous ++ encDataProcessing ++ encLoadStore ++
    encOnes ++ encMedia ++ encBlockAndCoprocessor

-- the bits of w that name a core register in its A32 encoding
def regFields (w : Word) : Word :=
  ((a32.find? fun e => w &&& e.mask = e.value).map Encoding.fields).getD 0#32

-- uxtab r0, r1, r2 and uxtb r0, r2
example : regFields 0xE6E10072#32 = rn ||| rd ||| rm ∧ regFields 0xE6EF0072#32 = rd ||| rm := by
  decide +kernel

def blanked (w : Word) : Word :=
  let cls := (w >>> 26) &&& 3#32
  if cls = 0 then
    if (w >>> 25) &&& 1#32 = 0 then
      if (w >>> 4) &&& 1#32 ≠ 0 then rn ||| rd ||| rs ||| rm else rn ||| rd ||| rm
    else rn ||| rd
  else if cls = 1 then
    if (w >>> 25) &&& 1#32 ≠ 0 then rn ||| rd ||| rm else rn ||| rd
  else if (w >>> 25) &&& 7#32 = 4 then rn
  else 0#32

-- the register-number fields of two words of one opcode
def sharedFields (x y : Word) : Word := regFields x &&& regFields y

def SameOutside (m x y : Word) : Prop := x &&& ~~~m = y &&& ~~~m

instance (m x y : Word) : Decidable (SameOutside m x y) :=
  inferInstanceAs (Decidable (_ = _))

def classBits : Word := 0x0E000010#32

section Masks

variable {w x y : Word}

theorem field_of_class {s : ℕ} {m : Word} (h : (classBits >>> s) &&& m = m) (w : Word) :
    ((w &&& classBits) >>> s) &&& m = (w >>> s) &&& m := by
  rw [BitVec.ushiftRight_and_distrib, BitVec.and_assoc, h]

theorem blanked_class (w : Word) : blanked (w &&& classBits) = blanked w := by
  rw [blanked, blanked, field_of_class (by decide), field_of_class (by decide),
    field_of_class (by decide), field_of_class (by decide)]

theorem blanked_cases (w : Word) :
    blanked w = rn ||| rd ||| rs ||| rm ∨ blanked w = rn ||| rd ||| rm ∨ blanked w = rn ||| rd ∨
      blanked w = rn ∨ blanked w = 0#32 := by
  rw [blanked]
  split_ifs <;> simp

theorem class_not_blanked (w : Word) : ~~~(blanked w) &&& classBits = classBits := by
  rcases blanked_cases w with h | h | h | h | h <;> rw [h] <;> decide

theorem and_not_and_not {a b c : Word} (h : ~~~a &&& ~~~b = ~~~c) (w : Word) :
    w &&& ~~~a &&& ~~~b = w &&& ~~~c := by
  rw [BitVec.and_assoc, h]

theorem regmask_eq (w : Word) : regmask w = w &&& ~~~(blanked w) := by
  have hfield {s : ℕ} {m k : Word} (h : (k >>> s) &&& m = m) (w : Word) :
      ((w &&& k) >>> s) &&& m = (w >>> s) &&& m := by
    rw [BitVec.ushiftRight_and_distrib, BitVec.and_assoc, h]
  rw [regmask, blanked]
  dsimp only
  rw [hfield (by decide), hfield (by decide), hfield (by decide)]
  split_ifs
  · rw [and_not_and_not (c := rs ||| rm) (by decide)]
    exact and_not_and_not (by decide) w
  · exact and_not_and_not (by decide) w
  · rfl
  · exact and_not_and_not (by decide) w
  · rfl
  · rfl
  · have hall : ~~~(0#32) = BitVec.allOnes 32 := by decide
    rw [hall, BitVec.and_allOnes]

theorem blanked_of_same {m : Word} (hm : ~~~m &&& classBits = classBits)
    (h : x &&& ~~~m = y &&& ~~~m) : blanked x = blanked y := by
  have hclass : x &&& classBits = y &&& classBits := by
    have hand := congrArg (· &&& classBits) h
    simpa only [BitVec.and_assoc, hm] using hand
  rw [← blanked_class x, hclass, blanked_class]

theorem regmask_class (w : Word) : regmask w &&& classBits = w &&& classBits := by
  rw [regmask_eq, BitVec.and_assoc, class_not_blanked]

theorem regmask_eq_iff : regmask x = regmask y ↔ SameOutside (blanked x) x y := by
  constructor
  · intro h
    have hclass : x &&& classBits = y &&& classBits := by
      rw [← regmask_class, h, regmask_class]
    have hsame : blanked x = blanked y := by
      rw [← blanked_class x, hclass, blanked_class]
    rw [regmask_eq, regmask_eq, ← hsame] at h
    exact h
  · intro h
    rw [regmask_eq, regmask_eq, ← blanked_of_same (class_not_blanked x) h]
    exact h

end Masks

section Sequences

def RegistersOnly (a b : List Word) : Prop :=
  a.length = b.length ∧ ∀ p ∈ a.zip b, SameOutside (sharedFields p.1 p.2) p.1 p.2

def BlankedOnly (a b : List Word) : Prop :=
  a.length = b.length ∧ ∀ p ∈ a.zip b, SameOutside (blanked p.1) p.1 p.2

def MasksAgree (a b : List Word) : Prop :=
  a.length ≠ b.length ∨
    (∀ p ∈ a.zip b, SameOutside (blanked p.1) p.1 p.2 ∧
      SameOutside (sharedFields p.1 p.2) p.1 p.2) ∨
    ((∃ p ∈ a.zip b, ¬ SameOutside (blanked p.1) p.1 p.2) ∧
      ∃ p ∈ a.zip b, ¬ SameOutside (sharedFields p.1 p.2) p.1 p.2)

theorem map_regmask_eq_iff (a b : List Word) :
    a.map regmask = b.map regmask ↔ BlankedOnly a b := by
  induction a generalizing b with
  | nil =>
    cases b with
    | nil => simp [BlankedOnly]
    | cons y b => simp [BlankedOnly]
  | cons x a ih =>
    cases b with
    | nil => simp [BlankedOnly]
    | cons y b =>
      have htail := ih b
      rw [BlankedOnly] at htail ⊢
      rw [List.map_cons, List.map_cons, List.cons_eq_cons, regmask_eq_iff, htail,
        List.zip_cons_cons, List.forall_mem_cons, List.length_cons, List.length_cons,
        Nat.add_right_cancel_iff]
      exact and_left_comm

theorem zero_law_iff (a b : List Word) :
    (BlankedOnly a b ↔ RegistersOnly a b) ↔ MasksAgree a b := by
  rw [BlankedOnly, RegistersOnly, MasksAgree]
  cases Decidable.em (a.length = b.length) with
  | inr hne => exact ⟨fun _ => .inl hne, fun _ => ⟨fun h => absurd h.1 hne, fun h => absurd h.1 hne⟩⟩
  | inl heq =>
    simp only [heq, true_and, ne_eq, not_true_eq_false, false_or]
    constructor
    · intro hiff
      cases Classical.em (∀ p ∈ a.zip b, SameOutside (blanked p.1) p.1 p.2) with
      | inl hall => exact .inl fun p hp => ⟨hall p hp, hiff.mp hall p hp⟩
      | inr hno =>
        have hno' : ¬ ∀ p ∈ a.zip b, SameOutside (sharedFields p.1 p.2) p.1 p.2 :=
          fun hregs => hno (hiff.mpr hregs)
        simp only [not_forall, exists_prop] at hno hno'
        exact .inr ⟨hno, hno'⟩
    · rintro (hboth | ⟨⟨p, hp, hpno⟩, q, hq, hqno⟩)
      · exact ⟨fun _ p hp => (hboth p hp).2, fun _ p hp => (hboth p hp).1⟩
      · exact ⟨fun hall => absurd (hall p hp) hpno, fun hall => absurd (hall q hq) hqno⟩

structure StructLaw (sb ob : List UInt8) : Prop where
  least : IsLeast {n | EditDistance.Edits n (words sb) (words ob)} (structdist sb ob)
  traced : ∃ path, alignment sb ob = some path ∧ Traced sb ob path
  zero : structdist sb ob = 0 ↔ RegistersOnly (instrs sb) (instrs ob)

def movwZero : List UInt8 := [0x00, 0x00, 0x00, 0xE3]

def movwPage : List UInt8 := [0x00, 0x00, 0x01, 0xE3]

end Sequences

end Oem
