import Mathlib.Data.List.Basic
import Mathlib.Data.List.Infix
import Mathlib.Data.List.Chain
import Mathlib.Tactic.Common

namespace Ez

def charTab : UInt8 := 9

def charNl : UInt8 := 10

def charCr : UInt8 := 13

def charSpace : UInt8 := 32

def charHash : UInt8 := 35

def charBackslash : UInt8 := 92

def special (c : UInt8) : Bool :=
  c == charCr || c == charHash || c == charBackslash || c == charNl

inductive Mode where
  | text
  | comment
  | continued
  deriving DecidableEq

structure Site where
  byte : UInt8
  after : List UInt8

def Site.raw (s : Site) : List UInt8 := s.byte :: s.after

def lines : Mode → List UInt8 → List (List Site)
  | _, [] => [[]]
  | mode, c :: t =>
    if c = charCr then lines mode t
    else
      match mode with
      | .comment => if c = charNl then [] :: lines .text t else lines .comment t
      | .continued => if c = charNl then lines .text t else lines .continued t
      | .text =>
        if c = charHash then lines .comment t
        else if c = charBackslash then lines .continued t
        else if c = charNl then [] :: lines .text t
        else (lines .text t).modifyHead (List.cons ⟨c, t⟩)

def keep (pick : List UInt8) (c : UInt8) : List UInt8 :=
  if c = charTab then pick
  else if pick.getLast? = some charSpace ∧ c = charSpace then pick
  else pick ++ [c]

def tidy (cs : List UInt8) : List UInt8 := cs.foldl keep []

def lineText (l : List Site) : List UInt8 := tidy (l.map Site.byte)

def begins (var : List UInt8) (l : List Site) : Bool := var.isPrefixOf (lineText l)

def value (var : List UInt8) (l : List Site) : List UInt8 := (lineText l).drop var.length

def lastValue (var best : List UInt8) (ls : List (List Site)) : List UInt8 :=
  ((ls.filter (begins var)).getLast?.map (value var)).getD best

def configValue (var text : List UInt8) : List UInt8 := lastValue var [] (lines .text text)

variable {mode : Mode} {var cs ds pick best t : List UInt8} {c : UInt8}

theorem special_false : special c = false ↔
    c ≠ charCr ∧ c ≠ charHash ∧ c ≠ charBackslash ∧ c ≠ charNl := by
  simp [special, and_assoc]

theorem lines_comment (c : UInt8) (t : List UInt8) : lines .comment (c :: t) =
    if c = charCr then lines .comment t
    else if c = charNl then [] :: lines .text t else lines .comment t := rfl

theorem lines_continued (c : UInt8) (t : List UInt8) : lines .continued (c :: t) =
    if c = charCr then lines .continued t
    else if c = charNl then lines .text t else lines .continued t := rfl

theorem lines_text (c : UInt8) (t : List UInt8) : lines .text (c :: t) =
    if c = charCr then lines .text t
    else if c = charHash then lines .comment t
    else if c = charBackslash then lines .continued t
    else if c = charNl then [] :: lines .text t
    else (lines .text t).modifyHead (List.cons ⟨c, t⟩) := rfl

@[simp] theorem lines_cr : lines mode (charCr :: t) = lines mode t := by
  cases mode with
  | text => rw [lines_text, if_pos rfl]
  | comment => rw [lines_comment, if_pos rfl]
  | continued => rw [lines_continued, if_pos rfl]

@[simp] theorem lines_hash : lines .text (charHash :: t) = lines .comment t := by
  simp [lines_text, show charHash ≠ charCr by decide]

@[simp] theorem lines_backslash : lines .text (charBackslash :: t) = lines .continued t := by
  simp [lines_text, show charBackslash ≠ charCr by decide, show charBackslash ≠ charHash by decide]

@[simp] theorem lines_continued_nl : lines .continued (charNl :: t) = lines .text t := by
  simp [lines_continued, show charNl ≠ charCr by decide]

@[simp] theorem lines_nl (h : mode ≠ .continued) : lines mode (charNl :: t) = [] :: lines .text t := by
  cases mode with
  | continued => exact absurd rfl h
  | comment => simp [lines_comment, show charNl ≠ charCr by decide]
  | text =>
    simp [lines_text, show charNl ≠ charCr by decide, show charNl ≠ charHash by decide,
      show charNl ≠ charBackslash by decide]

theorem lines_skip (hmode : mode ≠ .text) (hnl : c ≠ charNl) : lines mode (c :: t) = lines mode t := by
  cases Decidable.em (c = charCr) with
  | inl hcr => rw [hcr, lines_cr]
  | inr hcr =>
    cases mode with
    | text => exact absurd rfl hmode
    | comment => simp [lines_comment, hcr, hnl]
    | continued => simp [lines_continued, hcr, hnl]

theorem lines_plain (h : special c = false) :
    lines .text (c :: t) = (lines .text t).modifyHead (List.cons ⟨c, t⟩) := by
  obtain ⟨hcr, hhash, hback, hnl⟩ := special_false.mp h
  simp [lines_text, hcr, hhash, hback, hnl]

theorem special_cases (h : special c = true) :
    c = charCr ∨ c = charHash ∨ c = charBackslash ∨ c = charNl := by
  simpa [special, or_assoc] using h

theorem exists_lines (mode : Mode) (t : List UInt8) : ∃ l ls, lines mode t = l :: ls := by
  induction t generalizing mode with
  | nil => exact ⟨_, _, rfl⟩
  | cons c t ih =>
    cases Decidable.em (mode = .text) with
    | inr hmode =>
      cases Decidable.em (c = charNl) with
      | inr hnl =>
        rw [lines_skip hmode hnl]
        exact ih mode
      | inl hnl =>
        subst hnl
        cases Decidable.em (mode = .continued) with
        | inl hcont =>
          rw [hcont, lines_continued_nl]
          exact ih .text
        | inr hcont =>
          rw [lines_nl hcont]
          exact ⟨_, _, rfl⟩
    | inl hmode =>
      subst hmode
      cases hc : special c with
      | false =>
        obtain ⟨l, ls, h⟩ := ih .text
        rw [lines_plain hc, h]
        exact ⟨_, _, rfl⟩
      | true =>
        rcases special_cases hc with rfl | rfl | rfl | rfl
        · rw [lines_cr]
          exact ih .text
        · rw [lines_hash]
          exact ih .comment
        · rw [lines_backslash]
          exact ih .continued
        · rw [lines_nl (by decide)]
          exact ⟨_, _, rfl⟩

theorem lastValue_cons (l : List Site) (ls : List (List Site)) :
    lastValue var best (l :: ls) =
      lastValue var (if begins var l then value var l else best) ls := by
  unfold lastValue
  cases hb : begins var l with
  | false => rw [List.filter_cons_of_neg (by simp [hb]), if_neg Bool.false_ne_true]
  | true =>
    rw [List.filter_cons_of_pos hb, if_pos rfl, List.getLast?_cons]
    cases (ls.filter (begins var)).getLast? with
    | none => rfl
    | some l' => rfl

def Tidy (cs : List UInt8) : Prop :=
  charTab ∉ cs ∧ cs.IsChain fun a b => ¬(a = charSpace ∧ b = charSpace)

theorem tidy_keep (h : Tidy pick) : Tidy (keep pick c) := by
  unfold keep
  split
  · exact h
  · split
    · exact h
    · rename_i htab hspace
      refine ⟨?_, ?_⟩
      · rw [List.mem_append, List.mem_singleton, not_or]
        exact ⟨h.1, fun hc => htab hc.symm⟩
      · refine List.isChain_append.mpr ⟨h.2, .singleton c, ?_⟩
        intro a ha b hb hab
        cases hb
        exact hspace ⟨hab.1 ▸ ha, hab.2⟩

theorem tidy_foldl (h : Tidy pick) : Tidy (cs.foldl keep pick) := by
  induction cs generalizing pick with
  | nil => exact h
  | cons c cs ih => exact ih (tidy_keep h)

theorem tidy_tidy (cs : List UInt8) : Tidy (tidy cs) :=
  tidy_foldl ⟨List.not_mem_nil, .nil⟩

theorem foldl_keep_of_tidy (h : Tidy (pick ++ cs)) : cs.foldl keep pick = pick ++ cs := by
  induction cs generalizing pick with
  | nil => rw [List.append_nil, List.foldl_nil]
  | cons c cs ih =>
    have hkeep : keep pick c = pick ++ [c] := by
      have htab : c ≠ charTab := by
        rintro rfl
        exact h.1 (by simp)
      have hspace : ¬(pick.getLast? = some charSpace ∧ c = charSpace) := by
        rintro ⟨hlast, rfl⟩
        have hpair := (List.isChain_append.mp h.2).2.2 charSpace hlast charSpace rfl
        exact hpair ⟨rfl, rfl⟩
      rw [keep, if_neg htab, if_neg hspace]
    rw [List.foldl_cons, hkeep, ih (by simpa using h)]
    simp

theorem Tidy.restrict (h : Tidy cs) (hd : ds <+: cs) : Tidy ds := by
  obtain ⟨es, rfl⟩ := hd
  exact ⟨fun htab => h.1 (List.mem_append_left _ htab), (List.isChain_append.mp h.2).1⟩

theorem foldl_keep_append (hlast : ds ≠ [] ∨ pick.getLast? ≠ some charSpace) :
    cs.foldl keep (pick ++ ds) = pick ++ cs.foldl keep ds := by
  induction cs generalizing ds with
  | nil => rfl
  | cons c cs ih =>
    have hget : (pick ++ ds).getLast? = some charSpace ↔ ds.getLast? = some charSpace := by
      cases ds with
      | nil => simpa using hlast
      | cons d ds => simp [List.getLast?_append, List.getLast?_cons]
    have hkeep : keep (pick ++ ds) c = pick ++ keep ds c := by
      simp only [keep, hget]
      split
      · rfl
      · split
        · rfl
        · exact List.append_assoc ..
    rw [List.foldl_cons, List.foldl_cons, hkeep]
    apply ih
    refine hlast.imp_left fun hne => ?_
    unfold keep
    split
    · exact hne
    · split
      · exact hne
      · simp

theorem mem_foldl_keep {x : UInt8} (h : x ∈ cs.foldl keep pick) : x ∈ pick ∨ x ∈ cs := by
  induction cs generalizing pick with
  | nil => exact .inl h
  | cons c cs ih =>
    rcases ih h with hpick | hcs
    · unfold keep at hpick
      split at hpick
      · exact .inl hpick
      · split at hpick
        · exact .inl hpick
        · rcases List.mem_append.mp hpick with hx | hx
          · exact .inl hx
          · exact .inr (List.mem_cons.mpr (.inl (List.mem_singleton.mp hx)))
    · exact .inr (List.mem_cons_of_mem c hcs)

theorem lines_byte (mode : Mode) (t : List UInt8) :
    ∀ l ∈ lines mode t, ∀ s ∈ l, special s.byte = false := by
  induction t generalizing mode with
  | nil => simp [lines]
  | cons c t ih =>
    cases Decidable.em (mode = .text) with
    | inr hmode =>
      cases Decidable.em (c = charNl) with
      | inr hnl =>
        rw [lines_skip hmode hnl]
        exact ih mode
      | inl hnl =>
        subst hnl
        cases Decidable.em (mode = .continued) with
        | inl hcont =>
          rw [hcont, lines_continued_nl]
          exact ih .text
        | inr hcont =>
          rw [lines_nl hcont]
          simpa using ih .text
    | inl hmode =>
      subst hmode
      cases hc : special c with
      | false =>
        obtain ⟨l, ls, h⟩ := exists_lines .text t
        have hrest := ih .text
        rw [h, List.forall_mem_cons] at hrest
        rw [lines_plain hc, h, List.modifyHead_cons, List.forall_mem_cons, List.forall_mem_cons]
        exact ⟨⟨hc, hrest.1⟩, hrest.2⟩
      | true =>
        rcases special_cases hc with rfl | rfl | rfl | rfl
        · rw [lines_cr]
          exact ih .text
        · rw [lines_hash]
          exact ih .comment
        · rw [lines_backslash]
          exact ih .continued
        · rw [lines_nl (by decide)]
          simpa using ih .text

theorem lines_append (h : ∀ c ∈ cs, special c = false) (t : List UInt8) :
    ∃ ss : List Site, ss.map Site.byte = cs ∧
      lines .text (cs ++ t) = (lines .text t).modifyHead (ss ++ ·) := by
  obtain ⟨l, ls, ht⟩ := exists_lines .text t
  rw [ht]
  induction cs with
  | nil => exact ⟨[], rfl, ht⟩
  | cons c cs ih =>
    rw [List.forall_mem_cons] at h
    obtain ⟨ss, hss, hlines⟩ := ih h.2
    refine ⟨⟨c, cs ++ t⟩ :: ss, congrArg (List.cons c) hss, ?_⟩
    rw [List.cons_append, lines_plain h.1, hlines]
    rfl

theorem begins_bytes {l : List Site} (h : begins var l = true) :
    ∀ c ∈ var, c ∈ l.map Site.byte := by
  intro c hc
  have hmem := (List.isPrefixOf_iff_prefix.mp h).subset hc
  rcases mem_foldl_keep hmem with hnil | hmem
  · cases hnil
  · exact hmem

theorem begins_tidy {l : List Site} (h : begins var l = true) : Tidy var :=
  (tidy_tidy _).restrict (List.isPrefixOf_iff_prefix.mp h)

theorem value_of_text {l : List Site} (hlast : var.getLast? ≠ some charSpace)
    (h : begins var l = true) (htext : l.map Site.byte = var ++ cs) : value var l = tidy cs := by
  have hvar : var.foldl keep [] = [] ++ var := foldl_keep_of_tidy (begins_tidy h)
  have hkeep : cs.foldl keep (var ++ []) = var ++ cs.foldl keep [] := foldl_keep_append (.inr hlast)
  rw [List.append_nil] at hkeep
  rw [value, lineText, htext, tidy, List.foldl_append, hvar, List.nil_append, hkeep, List.drop_left,
    tidy]

end Ez
