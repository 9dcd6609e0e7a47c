import Rtl8188fu.Oem.StructDist
import Rtl8188fu.Oem.VariantCache

namespace Oem

structure Sym where
  name : Text
  value : ℕ
  size : ℕ
  type : ℕ
  shndx : ℕ

structure Sect where
  name : Text
  data : List UInt8

structure View where
  sects : List Sect
  syms : List Sym
  rel : ℕ → Option (ℕ × ℕ)
  word : ℕ → Word

-- re.compile(r'\.\d+$').sub('', w)
def uniqSub (w : Text) : Text :=
  match w.reverse.dropWhile Char.isDigit with
  | '.' :: rest => if w.reverse.takeWhile Char.isDigit = [] then w else rest.reverse
  | _ => w

def plus (k : ℕ) : Text := if k = 0 then [] else '+' :: Text.showNat k

def textName : Text := ['.', 't', 'e', 'x', 't']

def rodataStr : Text := ['.', 'r', 'o', 'd', 'a', 't', 'a', '.', 's', 't', 'r']

def strMark : Text := ['S', 'T', 'R', ':']

def mappingNames : List Text := [['$', 'a'], ['$', 'd'], ['$', 't'], []]

def showHex (z : ℤ) : Text :=
  match z with
  | .ofNat n => Nat.toDigits 16 n
  | .negSucc n => '-' :: Nat.toDigits 16 (n + 1)

def isBranchRel (ty : ℕ) : Bool := decide (ty = 28 ∨ ty = 29 ∨ ty = 1)

def relName (ty : ℕ) : Text :=
  match ty with
  | 0 => ['N', 'O', 'N', 'E']
  | 1 => ['P', 'C', '2', '4']
  | 2 => ['A', 'B', 'S', '3', '2']
  | 3 => ['R', 'E', 'L', '3', '2']
  | 5 => ['A', 'B', 'S', '1', '6']
  | 8 => ['A', 'B', 'S', '8']
  | 28 => ['C', 'A', 'L', 'L']
  | 29 => ['J', 'U', 'M', 'P', '2', '4']
  | 40 => ['V', '4', 'B', 'X']
  | 42 => ['T', 'A', 'R', 'G', 'E', 'T', '2']
  | 43 => ['P', 'R', 'E', 'L', '3', '1']
  | 44 => ['M', 'O', 'V', 'W', '_', 'A', 'B', 'S', '_', 'N', 'C']
  | 45 => ['M', 'O', 'V', 'T', '_', 'A', 'B', 'S']
  | ty => Text.showNat ty

def branchLike (w : Word) : Bool := decide ((w >>> 25) &&& 7#32 = 5#32)

def linked (w : Word) : Bool := decide ((w >>> 24) &&& 1#32 = 1#32)

def branchKind (w : Word) : Text := if linked w then ['B', 'L'] else ['B']

def opcode (w : Word) : Word := w &&& 0xff000000#32

def disp (w : Word) : ℤ :=
  let d : ℕ := (w &&& 0xffffff#32).toNat
  if 0x800000 ≤ d then (d : ℤ) - 0x1000000 else d

def dest (off : ℕ) (w : Word) : ℤ := off + 8 + disp w * 4

def Inside (addr size off : ℕ) (w : Word) : Prop := (addr : ℤ) ≤ dest off w ∧ dest off w < addr + size

instance (addr size off : ℕ) (w : Word) : Decidable (Inside addr size off w) :=
  inferInstanceAs (Decidable (_ ∧ _))

namespace View

variable (V : View)

def sym (si : ℕ) : Sym := (V.syms[si]?).getD ⟨[], 0, 0, 0, 0⟩

def secName (shndx : ℕ) : Text := ((V.sects[shndx]?).map Sect.name).getD ['?']

def faddr (a : ℤ) : Option Text :=
  (V.syms.find? fun s => s.type = 2 ∧ V.secName s.shndx = textName ∧ (s.value : ℤ) = a).map Sym.name

def listed (s : Sym) : Prop :=
  s.shndx < V.sects.length ∧ s.type ≠ 3 ∧ s.type ≠ 4 ∧ s.name ∉ mappingNames

instance (s : Sym) : Decidable (V.listed s) := inferInstanceAs (Decidable (_ ∧ _))

def entryLe (e e' : ℕ × ℕ × Text) : Bool :=
  decide (e.1 < e'.1 ∨ e.1 = e'.1 ∧ (e.2.1 < e'.2.1 ∨ e.2.1 = e'.2.1 ∧ Text.le e.2.2 e'.2.2 = true))

def secsyms (sec : Text) : List (ℕ × ℕ × Text) :=
  ((V.syms.filter fun s => V.listed s ∧ V.secName s.shndx = sec).map fun s =>
    (s.value, s.size, s.name)).mergeSort entryLe

-- the entries up to bisect_right(lst, (off, 1 << 30, '\xff')), last first
def symFind (sec : Text) (off : ℕ) : Option (Text × ℕ) :=
  (((V.secsyms sec).filter fun e => entryLe e (off, 2 ^ 30, ['ÿ'])).reverse.find? fun e =>
    e.1 ≤ off ∧ (off < e.1 + e.2.1 ∨ e.2.1 = 0)).map fun e => (e.2.2, off - e.1)

def symAt (sec : Text) (off : ℕ) : Option Text :=
  (V.symFind sec off).map fun e => e.1 ++ plus e.2

def cstr (sec : Text) (off : ℕ) : Option (List UInt8) :=
  (V.sects.reverse.find? fun s => s.name = sec).bind fun s =>
    if s.data.length ≤ off then none else some ((s.data.drop off).takeWhile (· ≠ 0))

section Target

variable (pyRepr : List UInt8 → Text)

def target (si addend : ℕ) : Text :=
  let s := V.sym si
  let nm := uniqSub s.name
  if s.type = 3 ∨ nm = [] then
    let sec := V.secName s.shndx
    match if rodataStr <+: sec then V.cstr sec addend else none with
    | some v => strMark ++ pyRepr v
    | none =>
      match V.symAt sec addend with
      | some r => uniqSub r
      | none => sec ++ ['+', '0', 'x'] ++ showHex addend
  else nm ++ plus addend

inductive Found where
  | text (r : Text)
  | object (n : Text) (k : ℕ)
  | offset (sec : Text) (a : ℕ)
  deriving DecidableEq

-- what target looks up: a string, an object (a symbol's with the suffix stripped, one found in a
-- section only at its start) or a bare section offset
def found (si addend : ℕ) : Found :=
  let s := V.sym si
  let nm := uniqSub s.name
  if s.type = 3 ∨ nm = [] then
    let sec := V.secName s.shndx
    match if rodataStr <+: sec then V.cstr sec addend else none with
    | some v => .text (pyRepr v)
    | none =>
      match V.symFind sec addend with
      | some (n, k) => .object (if k = 0 then uniqSub n else n) k
      | none => .offset sec addend
  else .object nm addend

def ownText (addr si : ℕ) (w : Word) : Prop :=
  (V.sym si).type = 3 ∧ (V.faddr addr).getD [Char.ofNat 0] <+: V.target pyRepr si w.toNat

instance (addr si : ℕ) (w : Word) : Decidable (V.ownText pyRepr addr si w) :=
  inferInstanceAs (Decidable (_ ∧ _))

def spelled (addr si : ℕ) (w : Word) : Text :=
  if V.ownText pyRepr addr si w then ['.', '+'] ++ Text.showInt (w.toNat - addr)
  else V.target pyRepr si w.toNat

def branchName (addr size off : ℕ) (w : Word) : Text :=
  if Inside addr size off w then
    ['.', '+'] ++ Text.showInt (dest off w - addr)
  else (V.faddr (dest off w)).getD (['t', 'e', 'x', 't', '+', '0', 'x'] ++ showHex (dest off w))

def normWord (addr size off : ℕ) : Word × Option (Text × Text) :=
  let w := V.word off
  match V.rel off with
  | some (si, ty) =>
    if isBranchRel ty then (opcode w, some (relName ty, (V.sym si).name))
    else (0, some (relName ty, V.spelled pyRepr addr si w))
  | none =>
    if branchLike w then (opcode w, some (branchKind w, V.branchName addr size off w))
    else (w, none)

def norm (addr size : ℕ) : List Word × List (ℕ × Text × Text) :=
  let words := (List.range ((size + 3) / 4)).map fun j => (4 * j, V.normWord pyRepr addr size (addr + 4 * j))
  (words.map fun e => e.2.1, words.filterMap fun e => e.2.2.map fun op => (e.1, op))

end Target

end View

inductive Place where
  | object (stem : Text) (k : ℕ)
  | literal (v : List UInt8)
  | own (k : ℕ)

def fieldMask (ty : ℕ) : Word :=
  if ty = 44 ∨ ty = 45 then 0x000f0fff#32
  else if ty = 43 then 0x7fffffff#32
  else if ty = 5 then 0xffff#32
  else if ty = 8 then 0xff#32
  else 0xffffffff#32

def wholeWord (ty : ℕ) : Bool := decide (ty ≠ 44 ∧ ty ≠ 45 ∧ ty ≠ 43 ∧ ty ≠ 5 ∧ ty ≠ 8)

def addendOf (ty : ℕ) (w : Word) : ℕ :=
  if wholeWord ty then w.toNat
  else if ty = 44 ∨ ty = 45 then (((w >>> 4) &&& 0xf000#32) ||| (w &&& 0xfff#32)).toNat
  else (w &&& fieldMask ty).toNat

-- the function a word calls, and how far from its start
inductive Calls (V : View) (off : ℕ) : Text → ℤ → Prop
  | left {si ty : ℕ} (hrel : V.rel off = some (si, ty)) (hty : isBranchRel ty = true)
      (htype : (V.sym si).type ≠ 3) : Calls V off (uniqSub (V.sym si).name) (dest 0 (V.word off))
  | leftSection {si ty : ℕ} {n : Text} (hrel : V.rel off = some (si, ty))
      (hty : isBranchRel ty = true) (htype : (V.sym si).type = 3)
      (hsec : V.secName (V.sym si).shndx = textName)
      (hfn : V.faddr (dest 0 (V.word off)) = some n) : Calls V off (uniqSub n) 0
  | resolved {n : Text} (hrel : V.rel off = none) (hlike : branchLike (V.word off) = true)
      (hfn : V.faddr (dest off (V.word off)) = some n) : Calls V off (uniqSub n) 0

section Same

variable (V V' : View) (addr addr' size : ℕ)

inductive Refers (si ty : ℕ) (w : Word) : Place → Prop
  | symbol (htype : (V.sym si).type ≠ 3) (hname : uniqSub (V.sym si).name ≠ []) :
      Refers si ty w (.object (uniqSub (V.sym si).name) (addendOf ty w))
  | ofSection {n : Text} {k : ℕ} (htype : (V.sym si).type = 3)
      (hstr : ¬ rodataStr <+: V.secName (V.sym si).shndx)
      (hfind : V.symFind (V.secName (V.sym si).shndx) (addendOf ty w) = some (n, k)) :
      Refers si ty w (.object (uniqSub n) k)
  | literal {v : List UInt8} (htype : (V.sym si).type = 3)
      (hstr : rodataStr <+: V.secName (V.sym si).shndx)
      (hcstr : V.cstr (V.secName (V.sym si).shndx) (addendOf ty w) = some v) :
      Refers si ty w (.literal v)
  | own {k : ℕ} (htype : (V.sym si).type = 3) (hsec : V.secName (V.sym si).shndx = textName)
      (hk : addendOf ty w = addr + k) (hin : k < size) : Refers si ty w (.own k)

inductive SameRef (i : ℕ) : Prop
  | bare (hrel : V.rel (addr + i) = none) (hrel' : V'.rel (addr' + i) = none)
      (hword : V.word (addr + i) = V'.word (addr' + i))
  | call {stem : Text} {k : ℤ} (hop : opcode (V.word (addr + i)) = opcode (V'.word (addr' + i)))
      (hcalls : Calls V (addr + i) stem k) (hcalls' : Calls V' (addr' + i) stem k)
  | data {si si' ty : ℕ} {p : Place} (hrel : V.rel (addr + i) = some (si, ty))
      (hrel' : V'.rel (addr' + i) = some (si', ty)) (hty : isBranchRel ty = false)
      (hrest : V.word (addr + i) &&& ~~~ fieldMask ty = V'.word (addr' + i) &&& ~~~ fieldMask ty)
      (hrefers : Refers V addr size si ty (V.word (addr + i)) p)
      (hrefers' : Refers V' addr' size si' ty (V'.word (addr' + i)) p)

def Relinked : Prop := ∀ j, j < (size + 3) / 4 → SameRef V V' addr addr' size (4 * j)

-- inside the function at one distance, or outside at a function of one full name or, where no
-- function begins, at one address
def SteadyBranch (off off' : ℕ) : Prop :=
  (Inside addr size off (V.word off) ∧ Inside addr' size off' (V'.word off') ∧
      dest off (V.word off) - addr = dest off' (V'.word off') - addr') ∨
    ¬ Inside addr size off (V.word off) ∧ ¬ Inside addr' size off' (V'.word off') ∧
      V.faddr (dest off (V.word off)) = V'.faddr (dest off' (V'.word off')) ∧
        (V.faddr (dest off (V.word off)) = none →
          dest off (V.word off) = dest off' (V'.word off'))

def SteadyData (pyRepr : List UInt8 → Text) (si si' : ℕ) (w w' : Word) : Prop :=
  (V.ownText pyRepr addr si w ∧ V'.ownText pyRepr addr' si' w' ∧
      (w.toNat : ℤ) - addr = w'.toNat - addr') ∨
    ¬ V.ownText pyRepr addr si w ∧ ¬ V'.ownText pyRepr addr' si' w' ∧
      V.found pyRepr si w.toNat = V'.found pyRepr si' w'.toNat

def Steady (pyRepr : List UInt8 → Text) (i : ℕ) : Prop :=
  match V.rel (addr + i), V'.rel (addr' + i) with
  | none, none =>
    branchLike (V.word (addr + i)) = true → SteadyBranch V V' addr addr' size (addr + i) (addr' + i)
  | some (si, ty), some (si', ty') =>
    if isBranchRel ty then ty = ty' ∧ (V.sym si).name = (V'.sym si').name
    else SteadyData V V' addr addr' pyRepr si si' (V.word (addr + i)) (V'.word (addr' + i))
  | _, _ => False

end Same

-- no name can be taken for an offset, a string or a place in the function
structure PlainName (n : Text) : Prop where
  plus : '+' ∉ n
  colon : ':' ∉ n
  dot : uniqSub n ≠ ['.']

structure View.PlainNames (V : View) : Prop where
  syms : ∀ s ∈ V.syms, PlainName s.name
  sects : ∀ s ∈ V.sects, PlainName s.name

section Texts

variable {n n' m m' : Text} {k k' : ℕ} {z z' : ℤ}

theorem uniqSub_plus (n : Text) (hk : k ≠ 0) : uniqSub (n ++ plus k) = n ++ plus k := by
  have hdigits : ∀ c ∈ (Text.showNat k).reverse, c.isDigit = true :=
    fun c hc => Text.showNat_digits (List.mem_reverse.mp hc)
  have hreverse : (n ++ plus k).reverse = (Text.showNat k).reverse ++ '+' :: n.reverse := by
    rw [plus, if_neg hk, List.reverse_append, List.reverse_cons, List.append_assoc]
    rfl
  have hstop : ('+' :: n.reverse).dropWhile Char.isDigit = '+' :: n.reverse :=
    List.dropWhile_cons_of_neg (by decide)
  rw [uniqSub, hreverse, List.dropWhile_append_of_pos hdigits, hstop]
  rfl

theorem uniqSub_sublist (w : Text) : (uniqSub w).Sublist w := by
  rw [uniqSub]
  split
  · rename_i rest hdrop
    split
    · exact .refl w
    · have hsuffix : ('.' :: rest).Sublist w.reverse := hdrop ▸ List.dropWhile_sublist _
      have hrest : rest.Sublist w.reverse := (List.sublist_cons_self '.' rest).trans hsuffix
      simpa using hrest.reverse
  · exact .refl w

theorem PlainName.uniqSub_mem (h : PlainName n) : '+' ∉ uniqSub n ∧ ':' ∉ uniqSub n :=
  ⟨fun hc => h.plus ((uniqSub_sublist n).mem hc), fun hc => h.colon ((uniqSub_sublist n).mem hc)⟩

theorem PlainName.ne_dot (h : PlainName n) : n ≠ ['.'] := by
  rintro rfl
  exact h.dot rfl

def marker (c : Char) : Bool := c == '+' || c == ':'

structure Marked (n m : Text) : Prop where
  name : ∀ c ∈ n, marker c = false
  mark : ∀ c, m.head? = some c → marker c = true

theorem Marked.takeWhile (h : Marked n m) : (n ++ m).takeWhile (fun c => !marker c) = n := by
  have hstop : m.takeWhile (fun c => !marker c) = [] := by
    cases m with
    | nil => rfl
    | cons c m => exact List.takeWhile_cons_of_neg (by rw [h.mark c rfl]; decide)
  rw [List.takeWhile_append_of_pos fun c hc => by rw [h.name c hc]; rfl, hstop, List.append_nil]

-- a text is cut in one way at its first mark
theorem Marked.inj (h : Marked n m) (h' : Marked n' m') (heq : n ++ m = n' ++ m') :
    n = n' ∧ m = m' := by
  have hname : n = n' := by rw [← h.takeWhile, heq, h'.takeWhile]
  exact ⟨hname, List.append_cancel_left (hname ▸ heq)⟩

theorem unmarked (hplus : '+' ∉ n) (hcolon : ':' ∉ n) : ∀ c ∈ n, marker c = false := by
  intro c hc
  have hp : c ≠ '+' := fun h => hplus (h ▸ hc)
  have hq : c ≠ ':' := fun h => hcolon (h ▸ hc)
  simp [marker, hp, hq]

theorem marked_cons {c : Char} (hn : ∀ c ∈ n, marker c = false) (hc : marker c = true) :
    Marked n (c :: m) :=
  ⟨hn, fun _ hd => Option.some.inj hd ▸ hc⟩

theorem marked_plus (hn : ∀ c ∈ n, marker c = false) (k : ℕ) : Marked n (plus k) := by
  rw [plus]
  split
  · exact ⟨hn, nofun⟩
  · exact marked_cons hn rfl

theorem showNat_inj (h : Text.showNat k = Text.showNat k') : k = k' := by
  have hread := congrArg Text.readNat h
  rw [Text.readNat_showNat, Text.readNat_showNat] at hread
  exact Option.some.inj hread

theorem showInt_inj (h : Text.showInt z = Text.showInt z') : z = z' := by
  have hread := congrArg Text.readInt h
  rw [Text.readInt_showInt, Text.readInt_showInt] at hread
  exact Option.some.inj hread

theorem plus_inj (h : plus k = plus k') : k = k' := by
  simp only [plus] at h
  split at h
  · split at h
    · omega
    · cases h
  · split at h
    · cases h
    · exact showNat_inj (List.cons.inj h).2

theorem hexDigit_inj : ∀ i < 16, ∀ j < 16, i.digitChar = j.digitChar → i = j := by
  decide

theorem hexDigits_inj {a b : ℕ} (h : Nat.toDigits 16 a = Nat.toDigits 16 b) : a = b := by
  induction a using Nat.strongRecOn generalizing b with
  | ind a ih =>
    have hlone (x : ℕ) (c d : Char) : [c] ≠ Nat.toDigits 16 x ++ [d] := by
      intro heq
      have hlast : [] ++ [c] = Nat.toDigits 16 x ++ [d] := heq
      exact Nat.toDigits_ne_nil (List.append_inj' hlast rfl).1.symm
    rw [Nat.toDigits_eq_if (by decide), Nat.toDigits_eq_if (n := b) (by decide)] at h
    split at h
    · split at h
      · exact hexDigit_inj a ‹_› b ‹_› (List.cons.inj h).1
      · exact absurd h (hlone _ _ _)
    · split at h
      · exact absurd h.symm (hlone _ _ _)
      · obtain ⟨hhigh, hlow⟩ := List.append_inj' h rfl
        have hdiv := ih (a / 16) (by omega) hhigh
        have hmod := hexDigit_inj _ (Nat.mod_lt a (by decide)) _ (Nat.mod_lt b (by decide))
          (List.cons.inj hlow).1
        omega

theorem hexDigit_ne : ∀ i < 16, i.digitChar ≠ '-' := by
  decide

theorem minus_not_mem_hex (a : ℕ) : '-' ∉ Nat.toDigits 16 a := by
  induction a using Nat.strongRecOn with
  | ind a ih =>
    rw [Nat.toDigits_eq_if (by decide)]
    split
    · exact fun hc => hexDigit_ne a ‹_› (List.mem_singleton.mp hc).symm
    · intro hc
      rcases List.mem_append.mp hc with hhigh | hlow
      · exact ih (a / 16) (by omega) hhigh
      · exact hexDigit_ne _ (Nat.mod_lt a (by decide)) (List.mem_singleton.mp hlow).symm

theorem showHex_inj (h : showHex z = showHex z') : z = z' := by
  cases z with
  | ofNat a =>
    cases z' with
    | ofNat b => exact congrArg Int.ofNat (hexDigits_inj h)
    | negSucc b =>
      have h : Nat.toDigits 16 a = '-' :: Nat.toDigits 16 (b + 1) := h
      exact absurd (h ▸ List.mem_cons_self) (minus_not_mem_hex a)
  | negSucc a =>
    cases z' with
    | ofNat b =>
      have h : '-' :: Nat.toDigits 16 (a + 1) = Nat.toDigits 16 b := h
      exact absurd (h ▸ List.mem_cons_self) (minus_not_mem_hex b)
    | negSucc b =>
      have hsucc : a + 1 = b + 1 := hexDigits_inj (List.cons.inj h).2
      exact congrArg Int.negSucc (Nat.succ.inj hsucc)

theorem plus_ne_hex (k : ℕ) (z : ℤ) : plus k ≠ ['+', '0', 'x'] ++ showHex z := by
  rw [plus]
  split
  · exact nofun
  · intro h
    have hdigits : Text.showNat k = ['0', 'x'] ++ showHex z := (List.cons.inj h).2
    have hx : 'x' ∈ Text.showNat k := by rw [hdigits]; simp
    exact absurd (Text.showNat_digits hx) (by decide)

end Texts

section Found

variable {V V' : View} {si si' addr addr' size : ℕ} {pyRepr : List UInt8 → Text}

namespace View

def Found.spell : Found → Text
  | .text r => strMark ++ r
  | .object n k => n ++ plus k
  | .offset sec a => sec ++ ['+', '0', 'x'] ++ showHex a

theorem target_eq (V : View) (pyRepr : List UInt8 → Text) (si a : ℕ) :
    V.target pyRepr si a = (V.found pyRepr si a).spell := by
  rw [target, found]
  dsimp only
  split
  · cases (if rodataStr <+: V.secName (V.sym si).shndx then
        V.cstr (V.secName (V.sym si).shndx) a else none) with
    | some v => rfl
    | none =>
      rw [symAt]
      cases V.symFind (V.secName (V.sym si).shndx) a with
      | none => rfl
      | some e =>
        obtain ⟨n, k⟩ := e
        change uniqSub (n ++ plus k) = (if k = 0 then uniqSub n else n) ++ plus k
        split
        · rename_i hzero
          rw [hzero, plus, if_pos rfl, List.append_nil, List.append_nil]
        · rename_i hpos
          exact uniqSub_plus n hpos
  · rfl

inductive Found.Plain : Found → Prop
  | text {r : Text} : Plain (.text r)
  | object {n : Text} {k : ℕ} (hn : ∀ c ∈ n, marker c = false) (hdot : n ≠ ['.']) :
      Plain (.object n k)
  | offset {sec : Text} {a : ℕ} (hsec : ∀ c ∈ sec, marker c = false) (hdot : sec ≠ ['.']) :
      Plain (.offset sec a)

theorem plain_stripped {n : Text} (h : PlainName n) :
    (∀ c ∈ uniqSub n, marker c = false) ∧ uniqSub n ≠ ['.'] :=
  ⟨unmarked h.uniqSub_mem.1 h.uniqSub_mem.2, h.dot⟩

theorem plain_whole {n : Text} (h : PlainName n) : (∀ c ∈ n, marker c = false) ∧ n ≠ ['.'] :=
  ⟨unmarked h.plus h.colon, h.ne_dot⟩

theorem PlainNames.sym (h : V.PlainNames) (si : ℕ) : PlainName (V.sym si).name := by
  rw [View.sym]
  cases hsym : V.syms[si]? with
  | none => exact ⟨nofun, nofun, by decide⟩
  | some s => exact h.syms s (List.mem_of_getElem? hsym)

theorem PlainNames.secName (h : V.PlainNames) (i : ℕ) : PlainName (V.secName i) := by
  rw [View.secName]
  cases hsect : V.sects[i]? with
  | none => exact ⟨by decide, by decide, by decide⟩
  | some s => exact h.sects s (List.mem_of_getElem? hsect)

theorem PlainNames.symFind (h : V.PlainNames) {sec n : Text} {off k : ℕ}
    (hfind : V.symFind sec off = some (n, k)) : PlainName n := by
  obtain ⟨e, he, heq⟩ := Option.map_eq_some_iff.mp hfind
  have hmem := List.mem_of_find?_eq_some he
  rw [List.mem_reverse] at hmem
  have hlist := (List.mem_mergeSort.mp (List.mem_filter.mp hmem).1)
  obtain ⟨s, hs, rfl⟩ := List.mem_map.mp hlist
  obtain rfl := (Prod.mk.inj heq).1
  exact h.syms s (List.mem_filter.mp hs).1

theorem PlainNames.faddr (h : V.PlainNames) {a : ℤ} {n : Text} (hfn : V.faddr a = some n) :
    PlainName n := by
  obtain ⟨s, hs, rfl⟩ := Option.map_eq_some_iff.mp hfn
  exact h.syms s (List.mem_of_find?_eq_some hs)

theorem PlainNames.found (h : V.PlainNames) (pyRepr : List UInt8 → Text) (si a : ℕ) :
    (V.found pyRepr si a).Plain := by
  rw [View.found]
  dsimp only
  split
  · cases (if rodataStr <+: V.secName (V.sym si).shndx then
        V.cstr (V.secName (V.sym si).shndx) a else none) with
    | some v => exact .text
    | none =>
      dsimp only
      cases hfind : V.symFind (V.secName (V.sym si).shndx) a with
      | none =>
        obtain ⟨hsec, hdot⟩ := plain_whole (h.secName (V.sym si).shndx)
        exact .offset hsec hdot
      | some e =>
        obtain ⟨n, k⟩ := e
        have hn := h.symFind hfind
        dsimp only
        split
        · exact .object (plain_stripped hn).1 (plain_stripped hn).2
        · exact .object (plain_whole hn).1 (plain_whole hn).2
  · obtain ⟨hn, hdot⟩ := plain_stripped (h.sym si)
    exact .object hn hdot

theorem marked_text (r : Text) : Marked ['S', 'T', 'R'] (':' :: r) :=
  marked_cons (by simp [marker]) rfl

theorem marked_offset {sec : Text} (hsec : ∀ c ∈ sec, marker c = false) (a : ℤ) :
    Marked sec (['+', '0', 'x'] ++ showHex a) :=
  marked_cons hsec rfl

theorem marked_entry (d : ℤ) : Marked ['.'] ('+' :: Text.showInt d) :=
  marked_cons (by simp [marker]) rfl

theorem Found.spell_inj {f g : Found} (hf : f.Plain) (hg : g.Plain) (h : f.spell = g.spell) :
    f = g := by
  have hcolon (k : ℕ) (r : Text) : plus k ≠ ':' :: r := by
    rw [plus]
    split
    · exact nofun
    · exact fun he => absurd (List.cons.inj he).1 (by decide)
  have hhex (z : ℤ) (r : Text) : ['+', '0', 'x'] ++ showHex z ≠ ':' :: r :=
    fun he => absurd (List.cons.inj he).1 (by decide)
  cases hf with
  | @text r =>
    cases hg with
    | text => exact congrArg Found.text (List.append_cancel_left h)
    | @object n k hn _ => exact absurd ((marked_text r).inj (marked_plus hn k) h).2.symm (hcolon k r)
    | @offset sec a hsec _ =>
      rw [spell, spell, List.append_assoc] at h
      exact absurd ((marked_text r).inj (marked_offset hsec a) h).2.symm (hhex a r)
  | @object n k hn _ =>
    cases hg with
    | @text r => exact absurd ((marked_plus hn k).inj (marked_text r) h).2 (hcolon k r)
    | @object n' k' hn' _ =>
      obtain ⟨rfl, hk⟩ := (marked_plus hn k).inj (marked_plus hn' k') h
      rw [plus_inj hk]
    | @offset sec a hsec _ =>
      rw [spell, spell, List.append_assoc] at h
      exact absurd ((marked_plus hn k).inj (marked_offset hsec a) h).2 (plus_ne_hex k a)
  | @offset sec a hsec _ =>
    rw [spell, List.append_assoc] at h
    cases hg with
    | @text r => exact absurd ((marked_offset hsec a).inj (marked_text r) h).2 (hhex a r)
    | @object n k hn _ =>
      exact absurd ((marked_offset hsec a).inj (marked_plus hn k) h).2.symm (plus_ne_hex k a)
    | @offset sec' a' hsec' _ =>
      rw [spell, List.append_assoc] at h
      obtain ⟨rfl, ha⟩ := (marked_offset hsec a).inj (marked_offset hsec' a') h
      have hcast : (a : ℤ) = a' := showHex_inj (List.append_cancel_left ha)
      rw [Int.ofNat_inj.mp hcast]

theorem Found.spell_ne_entry {f : Found} (hf : f.Plain) (d : ℤ) :
    ['.', '+'] ++ Text.showInt d ≠ f.spell := by
  intro h
  cases hf with
  | @text r => exact absurd ((marked_entry d).inj (marked_text r) h).1 (by decide)
  | @object n k hn hdot => exact hdot ((marked_entry d).inj (marked_plus hn k) h).1.symm
  | @offset sec a hsec hdot =>
    rw [spell, List.append_assoc] at h
    exact hdot ((marked_entry d).inj (marked_offset hsec a) h).1.symm

end View

end Found

section Spelled

variable {V V' : View} {addr addr' size si si' ty i : ℕ} {w w' : Word} {n stem : Text} {k : ℤ}
  {pyRepr : List UInt8 → Text}

theorem spelled_of_steady (h : SteadyData V V' addr addr' pyRepr si si' w w') :
    V.spelled pyRepr addr si w = V'.spelled pyRepr addr' si' w' := by
  rw [View.spelled, View.spelled]
  rcases h with ⟨hown, hown', hdist⟩ | ⟨hnot, hnot', hfound⟩
  · rw [if_pos hown, if_pos hown', hdist]
  · rw [if_neg hnot, if_neg hnot', View.target_eq, View.target_eq, hfound]

theorem steady_of_spelled (hV : V.PlainNames) (hV' : V'.PlainNames)
    (h : V.spelled pyRepr addr si w = V'.spelled pyRepr addr' si' w') :
    SteadyData V V' addr addr' pyRepr si si' w w' := by
  have hplain := hV.found pyRepr si w.toNat
  have hplain' := hV'.found pyRepr si' w'.toNat
  rw [View.spelled, View.spelled, View.target_eq, View.target_eq] at h
  cases Decidable.em (V.ownText pyRepr addr si w) with
  | inl hown =>
    rw [if_pos hown] at h
    cases Decidable.em (V'.ownText pyRepr addr' si' w') with
    | inl hown' =>
      rw [if_pos hown'] at h
      exact .inl ⟨hown, hown', showInt_inj (List.append_cancel_left h)⟩
    | inr hnot' =>
      rw [if_neg hnot'] at h
      exact absurd h (View.Found.spell_ne_entry hplain' _)
  | inr hnot =>
    rw [if_neg hnot] at h
    cases Decidable.em (V'.ownText pyRepr addr' si' w') with
    | inl hown' =>
      rw [if_pos hown'] at h
      exact absurd h.symm (View.Found.spell_ne_entry hplain _)
    | inr hnot' =>
      rw [if_neg hnot'] at h
      exact .inr ⟨hnot, hnot', View.Found.spell_inj hplain hplain' h⟩

theorem branchName_of_steady {off off' : ℕ} (h : SteadyBranch V V' addr addr' size off off') :
    V.branchName addr size off (V.word off) = V'.branchName addr' size off' (V'.word off') := by
  rw [View.branchName, View.branchName]
  rcases h with ⟨hin, hin', hsame⟩ | ⟨hout, hout', hnames, hdest⟩
  · rw [if_pos hin, if_pos hin', hsame]
  · rw [if_neg hout, if_neg hout', ← hnames]
    cases hfn : V.faddr (dest off (V.word off)) with
    | some n => rfl
    | none => rw [hdest hfn]

theorem textOffset (z : ℤ) : Marked textName.tail (['+', '0', 'x'] ++ showHex z) :=
  marked_cons (by simp [marker, textName]) rfl

-- a branch out of the function is spelled by a name without a mark or by its address
theorem named_marked (hV : V.PlainNames) (z : ℤ) : ∃ m m', Marked m m' ∧ m ≠ ['.'] ∧
    (V.faddr z).getD (['t', 'e', 'x', 't', '+', '0', 'x'] ++ showHex z) = m ++ m' ∧
      (V.faddr z = some m ∧ m' = [] ∨
        V.faddr z = none ∧ m = textName.tail ∧ m' = ['+', '0', 'x'] ++ showHex z) := by
  cases hfn : V.faddr z with
  | none => exact ⟨_, _, textOffset z, by decide, rfl, .inr ⟨rfl, rfl, rfl⟩⟩
  | some n =>
    obtain ⟨hn, hdot⟩ := View.plain_whole (hV.faddr hfn)
    exact ⟨n, [], ⟨hn, nofun⟩, hdot, (List.append_nil n).symm, .inl ⟨rfl, rfl⟩⟩

theorem steady_of_branchName (hV : V.PlainNames) (hV' : V'.PlainNames) {off off' : ℕ}
    (h : V.branchName addr size off (V.word off) = V'.branchName addr' size off' (V'.word off')) :
    SteadyBranch V V' addr addr' size off off' := by
  rw [View.branchName, View.branchName] at h
  obtain ⟨m, t, hmark, hdot, hspell, hname⟩ := named_marked hV (dest off (V.word off))
  obtain ⟨m', t', hmark', hdot', hspell', hname'⟩ := named_marked hV' (dest off' (V'.word off'))
  rw [hspell, hspell'] at h
  cases Decidable.em (Inside addr size off (V.word off)) with
  | inl hin =>
    rw [if_pos hin] at h
    cases Decidable.em (Inside addr' size off' (V'.word off')) with
    | inl hin' =>
      rw [if_pos hin'] at h
      exact .inl ⟨hin, hin', showInt_inj (List.append_cancel_left h)⟩
    | inr hout' =>
      rw [if_neg hout'] at h
      exact absurd ((View.marked_entry _).inj hmark' h).1.symm hdot'
  | inr hout =>
    rw [if_neg hout] at h
    cases Decidable.em (Inside addr' size off' (V'.word off')) with
    | inl hin' =>
      rw [if_pos hin'] at h
      exact absurd (hmark.inj (View.marked_entry _) h).1 hdot
    | inr hout' =>
      rw [if_neg hout'] at h
      obtain ⟨rfl, rfl⟩ := hmark.inj hmark' h
      refine .inr ⟨hout, hout', ?_⟩
      rcases hname with ⟨hfn, rfl⟩ | ⟨hfn, -, rfl⟩
      · rcases hname' with ⟨hfn', -⟩ | ⟨-, -, hhex⟩
        · exact ⟨hfn.trans hfn'.symm, fun hnone => absurd (hfn.symm.trans hnone) nofun⟩
        · exact absurd hhex nofun
      · rcases hname' with ⟨-, hhex⟩ | ⟨hfn', -, hhex⟩
        · exact absurd hhex nofun
        · exact ⟨hfn.trans hfn'.symm, fun _ => showHex_inj (List.append_cancel_left hhex)⟩

theorem linked_opcode (h : opcode w = opcode w') : branchKind w = branchKind w' := by
  have hbit (v : Word) : linked v = decide ((opcode v >>> 24) &&& 1#32 = 1#32) := by
    rw [linked, opcode, BitVec.ushiftRight_and_distrib, BitVec.and_assoc]
    rfl
  rw [branchKind, branchKind, hbit, hbit, h]

theorem branchLike_opcode (h : opcode w = opcode w') : branchLike w = branchLike w' := by
  have hbits (v : Word) : branchLike v = decide ((opcode v >>> 25) &&& 7#32 = 5#32) := by
    rw [branchLike, opcode, BitVec.ushiftRight_and_distrib, BitVec.and_assoc]
    rfl
  rw [hbits, hbits, h]

theorem relName_inj {ty' : ℕ} (hty : isBranchRel ty = true) (hty' : isBranchRel ty' = true)
    (h : relName ty = relName ty') : ty = ty' := by
  rcases of_decide_eq_true hty with rfl | rfl | rfl <;>
    rcases of_decide_eq_true hty' with rfl | rfl | rfl <;> first | rfl | exact absurd h (by decide)

theorem relName_ne_kind {v : Word} (hty : isBranchRel ty = true) : relName ty ≠ branchKind v := by
  rw [branchKind]
  rcases of_decide_eq_true hty with rfl | rfl | rfl <;> split <;> decide

theorem calls_form {off : ℕ} (h : Calls V off stem k) :
    (∃ si ty, V.rel off = some (si, ty) ∧ isBranchRel ty = true) ∨
      (V.rel off = none ∧ branchLike (V.word off) = true) := by
  cases h with
  | left hrel hty _ => exact .inl ⟨_, _, hrel, hty⟩
  | leftSection hrel hty _ _ _ => exact .inl ⟨_, _, hrel, hty⟩
  | resolved hrel hlike _ => exact .inr ⟨hrel, hlike⟩

theorem normWord_left {off : ℕ} (hrel : V.rel off = some (si, ty)) (hty : isBranchRel ty = true) :
    V.normWord pyRepr addr size off =
      (opcode (V.word off), some (relName ty, (V.sym si).name)) := by
  simp only [View.normWord, hrel]
  rw [if_pos hty]

theorem normWord_data {off : ℕ} (hrel : V.rel off = some (si, ty)) (hty : isBranchRel ty = false) :
    V.normWord pyRepr addr size off =
      (0, some (relName ty, V.spelled pyRepr addr si (V.word off))) := by
  simp only [View.normWord, hrel]
  rw [if_neg (Bool.not_eq_true _ ▸ hty)]

theorem normWord_branch {off : ℕ} (hrel : V.rel off = none) (hlike : branchLike (V.word off) = true) :
    V.normWord pyRepr addr size off = (opcode (V.word off),
      some (branchKind (V.word off), V.branchName addr size off (V.word off))) := by
  simp only [View.normWord, hrel]
  rw [if_pos hlike]

theorem normWord_plain {off : ℕ} (hrel : V.rel off = none) (hlike : branchLike (V.word off) = false) :
    V.normWord pyRepr addr size off = (V.word off, none) := by
  simp only [View.normWord, hrel]
  rw [if_neg (Bool.not_eq_true _ ▸ hlike)]

structure SameBranch (V V' : View) (off off' : ℕ) : Prop where
  op : opcode (V.word off) = opcode (V'.word off')
  rel : V.rel off = none
  rel' : V'.rel off' = none
  like : branchLike (V.word off) = true

theorem branch_iff (hsame : SameBranch V V' (addr + i) (addr' + i)) :
    (Steady V V' addr addr' size pyRepr i →
      V.normWord pyRepr addr size (addr + i) = V'.normWord pyRepr addr' size (addr' + i)) ∧
    (V.PlainNames → V'.PlainNames →
      V.normWord pyRepr addr size (addr + i) = V'.normWord pyRepr addr' size (addr' + i) →
        Steady V V' addr addr' size pyRepr i) := by
  obtain ⟨hop, hrel, hrel', hlike⟩ := hsame
  have hlike' : branchLike (V'.word (addr' + i)) = true := (branchLike_opcode hop).symm.trans hlike
  rw [normWord_branch hrel hlike, normWord_branch hrel' hlike', hop, linked_opcode hop]
  simp only [Steady, hrel, hrel']
  refine ⟨fun h => by rw [branchName_of_steady (h hlike)], fun hV hV' heq _ => ?_⟩
  have hname := (Prod.mk.inj (Option.some.inj (Prod.mk.inj heq).2)).2
  exact steady_of_branchName hV hV' hname

theorem word_iff (h : SameRef V V' addr addr' size i) :
    (Steady V V' addr addr' size pyRepr i →
      V.normWord pyRepr addr size (addr + i) = V'.normWord pyRepr addr' size (addr' + i)) ∧
    (V.PlainNames → V'.PlainNames →
      V.normWord pyRepr addr size (addr + i) = V'.normWord pyRepr addr' size (addr' + i) →
        Steady V V' addr addr' size pyRepr i) := by
  cases h with
  | bare hrel hrel' hword =>
    cases hlike : branchLike (V.word (addr + i)) with
    | true => exact branch_iff ⟨congrArg opcode hword, hrel, hrel', hlike⟩
    | false =>
      have hlike' : branchLike (V'.word (addr' + i)) = false := by rw [← hword, hlike]
      rw [normWord_plain hrel hlike, normWord_plain hrel' hlike', hword]
      refine ⟨fun _ => rfl, fun _ _ _ => ?_⟩
      simp only [Steady, hrel, hrel', hlike]
      exact nofun
  | call hop hcalls hcalls' =>
    rcases calls_form hcalls with ⟨si, ty, hrel, hty⟩ | ⟨hrel, hlike⟩
    · rcases calls_form hcalls' with ⟨si', ty', hrel', hty'⟩ | ⟨hrel', hlike'⟩
      · rw [normWord_left hrel hty, normWord_left hrel' hty', hop]
        simp only [Steady, hrel, hrel']
        rw [if_pos hty]
        refine ⟨fun hsteady => by rw [hsteady.1, hsteady.2], fun _ _ heq => ?_⟩
        obtain ⟨hkind, hname⟩ := Prod.mk.inj (Option.some.inj (Prod.mk.inj heq).2)
        exact ⟨relName_inj hty hty' hkind, hname⟩
      · rw [normWord_left hrel hty, normWord_branch hrel' hlike']
        simp only [Steady, hrel, hrel']
        refine ⟨False.elim, fun _ _ heq => ?_⟩
        exact relName_ne_kind hty (Prod.mk.inj (Option.some.inj (Prod.mk.inj heq).2)).1
    · rcases calls_form hcalls' with ⟨si', ty', hrel', hty'⟩ | ⟨hrel', -⟩
      · rw [normWord_branch hrel hlike, normWord_left hrel' hty']
        simp only [Steady, hrel, hrel']
        refine ⟨False.elim, fun _ _ heq => ?_⟩
        exact relName_ne_kind hty' (Prod.mk.inj (Option.some.inj (Prod.mk.inj heq).2)).1.symm
      · exact branch_iff ⟨hop, hrel, hrel', hlike⟩
  | data hrel hrel' hty hrest hrefers hrefers' =>
    rw [normWord_data hrel hty, normWord_data hrel' hty]
    simp only [Steady, hrel, hrel']
    rw [if_neg (Bool.not_eq_true _ ▸ hty)]
    refine ⟨fun hsteady => by rw [spelled_of_steady hsteady], fun hV hV' heq => ?_⟩
    exact steady_of_spelled hV hV' (Prod.mk.inj (Option.some.inj (Prod.mk.inj heq).2)).2

theorem filterMap_keyed_inj {K A B : Type} {l : List A} (key : A → K) {f g : A → Option B}
    (hkey : ∀ a ∈ l, ∀ b ∈ l, key a = key b → a = b)
    (h : l.filterMap (fun a => (f a).map (key a, ·)) = l.filterMap fun a => (g a).map (key a, ·)) :
    ∀ a ∈ l, f a = g a := by
  have hmem (f : A → Option B) (a : A) (ha : a ∈ l) (b : B) :
      (key a, b) ∈ l.filterMap (fun a => (f a).map (key a, ·)) ↔ f a = some b := by
    rw [List.mem_filterMap]
    constructor
    · rintro ⟨c, hc, heq⟩
      obtain ⟨d, hd, hpair⟩ := Option.map_eq_some_iff.mp heq
      obtain ⟨hk, rfl⟩ := Prod.mk.inj hpair
      rwa [hkey a ha c hc hk.symm]
    · exact fun hb => ⟨a, ha, by rw [hb]; rfl⟩
  intro a ha
  ext b
  rw [← hmem f a ha b, h, hmem g a ha b]

theorem norm_eq_iff (V V' : View) (pyRepr : List UInt8 → Text) (addr addr' size : ℕ) :
    V.norm pyRepr addr size = V'.norm pyRepr addr' size ↔
      ∀ j, j < (size + 3) / 4 →
        V.normWord pyRepr addr size (addr + 4 * j) = V'.normWord pyRepr addr' size (addr' + 4 * j) := by
  rw [View.norm, View.norm, Prod.mk.injEq, List.map_map, List.map_map, List.filterMap_map,
    List.filterMap_map]
  constructor
  · rintro ⟨hwords, hops⟩ j hj
    have hj := List.mem_range.mpr hj
    have hword := List.map_inj_left.mp hwords j hj
    have hop := filterMap_keyed_inj (fun j => 4 * j)
      (f := fun j => (V.normWord pyRepr addr size (addr + 4 * j)).2)
      (g := fun j => (V'.normWord pyRepr addr' size (addr' + 4 * j)).2)
      (fun a _ b _ hab => by omega) hops j hj
    exact Prod.ext hword hop
  · intro h
    constructor
    · exact List.map_congr_left fun j hj => congrArg Prod.fst (h j (List.mem_range.mp hj))
    · refine List.filterMap_congr fun j hj => ?_
      simp only [Function.comp_apply, h j (List.mem_range.mp hj)]

def helperName : Text := ['g']

-- mov pc, lr at every word but the call at the given one
def callerView (at' helper : ℕ) (call : Word) (rel : ℕ → Option (ℕ × ℕ)) : View where
  sects := [⟨textName, []⟩]
  syms := [⟨helperName, helper, 4, 2, 0⟩]
  rel := rel
  word off := if off = at' then call else 0xe1a0f00e#32

def resolvedView : View := callerView 0 8 0xeb000000#32 fun _ => none

-- the assembler leaves a call with the addend -8
def leftView (at' : ℕ) : View :=
  callerView at' (at' + 8) 0xebfffffe#32 fun off => if off = at' then some (0, 28) else none

def asciiRepr (v : List UInt8) : Text :=
  Char.ofNat 39 :: v.map (fun b => Char.ofNat b.toNat) ++ [Char.ofNat 39]

theorem left_calls (at' : ℕ) : Calls (leftView at') at' helperName 0 := by
  have htype : ((leftView at').sym 0).type ≠ 3 := by
    change 2 ≠ 3
    decide
  have hrel : (leftView at').rel at' = some (0, 28) := if_pos rfl
  have hword : (leftView at').word at' = 0xebfffffe#32 := if_pos rfl
  have hcalls := Calls.left hrel rfl htype
  rw [hword] at hcalls
  exact hcalls

theorem resolved_calls : Calls resolvedView 0 helperName 0 := by
  have hfn : resolvedView.faddr (dest 0 (resolvedView.word 0)) = some helperName := by decide
  exact Calls.resolved rfl rfl hfn

end Spelled

end Oem
