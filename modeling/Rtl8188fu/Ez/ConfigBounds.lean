import Rtl8188fu.Ez.ConfigVars

namespace Ez

open WhileLoop (Throughout throughout_again throughout_done)

def agreeing : List UInt8 → List UInt8 → ℕ
  | a :: as, b :: bs => if a = b then agreeing as bs + 1 else 0
  | _, _ => 0

structure Memcmp where
  span : List UInt8 → List UInt8 → ℕ
  reaches : ∀ raw var, min (agreeing raw var + 1) var.length ≤ span raw var
  bounded : ∀ raw var, span raw var ≤ var.length

def keepWrites (pick : List UInt8) (c : UInt8) : List ℕ :=
  if c = charTab then []
  else if pick.getLast? = some charSpace ∧ c = charSpace then []
  else [pick.length]

structure Touched where
  reads : List ℕ
  writes : List ℕ

def scanTouched (cmp : Memcmp) (var : List UInt8) (s : Scan) (c : UInt8) (t : List UInt8) :
    Touched :=
  if c = charCr ∨ (s.pos || s.n) = true ∨ c = charHash ∨ c = charBackslash ∨ c = charNl then ⟨[0], []⟩
  else
    let compared := 0 :: List.range (cmp.span (c :: t) var)
    if s.ended = 0 ∧ var.isPrefixOf (c :: t) then
      ⟨compared ++ [var.length], keepWrites [] ((c :: t).getD var.length 0)⟩
    else if s.ended = 0 ∧ s.m then ⟨compared, []⟩
    else if s.m then ⟨compared, keepWrites s.pick c⟩
    else ⟨compared, []⟩

def CursorInBounds (cmp : Memcmp) (var : List UInt8) (len : ℕ) (k : Cursor) : Prop :=
  match k.rest with
  | [] => True
  | c :: t =>
    let touched := scanTouched cmp var k.scan c t
    (∀ x ∈ touched.reads, len - (c :: t).length + x < len) ∧ ∀ j ∈ touched.writes, j < 1024

def ConfigInBounds (cmp : Memcmp) (buf var : List UInt8) : Prop :=
  Throughout (configLoop var) (CursorInBounds cmp var buf.length) ⟨Scan.start, buf⟩

def line (mode : Mode) (t : List UInt8) : List Site := (lines mode t).headD []

def afterLine : Mode → List UInt8 → List UInt8
  | _, [] => []
  | mode, c :: t =>
    if c = charCr then afterLine mode t
    else
      match mode with
      | .comment => if c = charNl then t else afterLine .comment t
      | .continued => if c = charNl then afterLine .text t else afterLine .continued t
      | .text =>
        if c = charHash then afterLine .comment t
        else if c = charBackslash then afterLine .continued t
        else if c = charNl then t
        else afterLine .text t

structure Named where
  before : List Site
  name : Site

def named (var : List UInt8) (armed : Bool) : List Site → Option Named
  | [] => none
  | σ :: l =>
    if var.isPrefixOf σ.raw then some ⟨[], σ⟩
    else if armed then
      match l with
      | [] => none
      | σ' :: _ => if var.isPrefixOf σ'.raw then some ⟨[σ], σ'⟩ else none
    else none

def Site.past (var : List UInt8) (σ : Site) : List UInt8 := σ.raw.drop (var.length + 1)

def Site.taken (var : List UInt8) (σ : Site) : List UInt8 :=
  σ.raw.getD var.length 0 :: (line .text (σ.past var)).map Site.byte

def Compared (cmp : Memcmp) (var : List UInt8) (l : List Site) : Prop :=
  ∀ σ ∈ l, cmp.span σ.raw var ≤ σ.raw.length

variable {cmp : Memcmp} {mode : Mode} {armed : Bool} {var t : List UInt8} {s s' : Scan} {c : UInt8}
  {σ : Site} {l : List Site} {n : Named} {len : ℕ}

@[simp] theorem line_nil : line mode [] = [] := by cases mode <;> rfl

theorem afterLine_le (mode : Mode) (t : List UInt8) : (afterLine mode t).length ≤ t.length := by
  induction t generalizing mode with
  | nil => cases mode <;> exact Nat.le_refl _
  | cons c t ih =>
    have hstep (mode : Mode) : (afterLine mode t).length ≤ (c :: t).length :=
      Nat.le_succ_of_le (ih mode)
    cases mode
    all_goals
      simp only [afterLine]
      split_ifs
    all_goals first
      | exact hstep _
      | exact Nat.le_succ _

theorem afterLine_lt (mode : Mode) (c : UInt8) (t : List UInt8) :
    (afterLine mode (c :: t)).length < (c :: t).length := by
  have hstep (mode : Mode) : (afterLine mode t).length < (c :: t).length :=
    Nat.lt_succ_of_le (afterLine_le mode t)
  cases mode
  all_goals
    simp only [afterLine]
    split_ifs
  all_goals first
    | exact hstep _
    | exact Nat.lt_succ_self _

structure Passes (mode : Mode) (c : UInt8) (t : List UInt8) (mode' : Mode) : Prop where
  line : line mode (c :: t) = line mode' t
  after : afterLine mode (c :: t) = afterLine mode' t

structure Breaks (mode : Mode) (c : UInt8) (t : List UInt8) : Prop where
  line : line mode (c :: t) = []
  after : afterLine mode (c :: t) = t

theorem passes_cr (mode : Mode) (t : List UInt8) : Passes mode charCr t mode :=
  ⟨by rw [line, lines_cr, line], by cases mode <;> simp [afterLine]⟩

theorem passes_skip (hmode : mode ≠ .text) (hnl : c ≠ charNl) : Passes mode c t mode := by
  refine ⟨by rw [line, lines_skip hmode hnl, line], ?_⟩
  cases mode with
  | text => exact absurd rfl hmode
  | comment => simp [afterLine, hnl]
  | continued => simp [afterLine, hnl]

theorem passes_continued (t : List UInt8) : Passes .continued charNl t .text :=
  ⟨by rw [line, lines_continued_nl, line], by simp [afterLine, show charNl ≠ charCr by decide]⟩

theorem passes_hash (t : List UInt8) : Passes .text charHash t .comment :=
  ⟨by rw [line, lines_hash, line], by simp [afterLine, show charHash ≠ charCr by decide]⟩

theorem passes_backslash (t : List UInt8) : Passes .text charBackslash t .continued :=
  ⟨by rw [line, lines_backslash, line], by
    simp [afterLine, show charBackslash ≠ charCr by decide,
      show charBackslash ≠ charHash by decide]⟩

theorem breaks_nl (hmode : mode ≠ .continued) : Breaks mode charNl t := by
  refine ⟨by rw [line, lines_nl hmode, List.headD_cons], ?_⟩
  cases mode with
  | continued => exact absurd rfl hmode
  | comment => simp [afterLine, show charNl ≠ charCr by decide]
  | text =>
    simp [afterLine, show charNl ≠ charCr by decide, show charNl ≠ charHash by decide,
      show charNl ≠ charBackslash by decide]

theorem line_plain (h : special c = false) : line .text (c :: t) = ⟨c, t⟩ :: line .text t := by
  obtain ⟨l, ls, ht⟩ := exists_lines .text t
  rw [line, lines_plain h, line, ht]
  rfl

theorem afterLine_plain (h : special c = false) :
    afterLine .text (c :: t) = afterLine .text t := by
  obtain ⟨hcr, hhash, hback, hnl⟩ := special_false.mp h
  simp [afterLine, hcr, hhash, hback, hnl]

inductive Reading (mode : Mode) (c : UInt8) (t : List UInt8) : Prop where
  | passes (mode' : Mode) : Passes mode c t mode' → Reading mode c t
  | breaks : Breaks mode c t → Reading mode c t
  | plain : mode = .text → special c = false → Reading mode c t

theorem reading (mode : Mode) (c : UInt8) (t : List UInt8) : Reading mode c t := by
  cases Decidable.em (mode = .text) with
  | inr hmode =>
    cases Decidable.em (c = charNl) with
    | inr hnl => exact .passes mode (passes_skip hmode hnl)
    | inl hnl =>
      subst hnl
      cases Decidable.em (mode = .continued) with
      | inl hcont => exact .passes .text (hcont ▸ passes_continued t)
      | inr hcont => exact .breaks (breaks_nl hcont)
  | inl hmode =>
    cases hc : special c with
    | false => exact .plain hmode hc
    | true =>
      subst hmode
      rcases special_cases hc with rfl | rfl | rfl | rfl
      · exact .passes .text (passes_cr .text t)
      · exact .passes .comment (passes_hash t)
      · exact .passes .continued (passes_backslash t)
      · exact .breaks (breaks_nl (by decide))

theorem raw_le (h : σ ∈ line mode t) : σ.raw.length ≤ t.length := by
  induction t generalizing mode with
  | nil => simp at h
  | cons c t ih =>
    cases reading mode c t with
    | passes mode' hpass => exact Nat.le_succ_of_le (ih (hpass.line ▸ h))
    | breaks hbreak =>
      rw [hbreak.line] at h
      exact absurd h List.not_mem_nil
    | plain hmode hc =>
      subst hmode
      rw [line_plain hc] at h
      rcases List.mem_cons.mp h with rfl | h
      · exact Nat.le_refl _
      · exact Nat.le_succ_of_le (ih h)

theorem named_mem (h : named var armed l = some n) : n.name ∈ l := by
  cases l with
  | nil => cases h
  | cons σ l =>
    simp only [named] at h
    split at h
    · cases h
      exact List.mem_cons_self
    · split at h
      · cases l with
        | nil => cases h
        | cons σ' l =>
          dsimp only at h
          split at h
          · cases h
            exact List.mem_cons_of_mem _ List.mem_cons_self
          · cases h
      · cases h

theorem past_lt (h : named var armed (line mode (c :: t)) = some n) :
    (n.name.past var).length < (c :: t).length := by
  have hle := raw_le (named_mem h)
  rw [Site.past, List.length_drop]
  have hpos : 0 < n.name.raw.length := Nat.succ_pos _
  omega

def LinesFit (cmp : Memcmp) (var : List UInt8) (mode : Mode) (armed : Bool) (t : List UInt8) :
    Prop :=
  match t with
  | [] => True
  | c :: t =>
    match _h : named var armed (line mode (c :: t)) with
    | some n =>
      Compared cmp var (n.before ++ [n.name]) ∧ var.length < n.name.raw.length ∧
        Compared cmp var (line .text (n.name.past var)) ∧
        (tidy (n.name.taken var)).length ≤ 1024 ∧
        LinesFit cmp var .text true (afterLine .text (n.name.past var))
    | none =>
      Compared cmp var (line mode (c :: t)) ∧
        LinesFit cmp var .text (armed && (line mode (c :: t)).isEmpty) (afterLine mode (c :: t))
termination_by t.length
decreasing_by
  · exact Nat.lt_of_le_of_lt (afterLine_le _ _) (past_lt _h)
  · exact afterLine_lt ..

def LineFits (cmp : Memcmp) (var : List UInt8) (armed : Bool) (l : List Site)
    (after : List UInt8) : Prop :=
  match named var armed l with
  | some n =>
    Compared cmp var (n.before ++ [n.name]) ∧ var.length < n.name.raw.length ∧
      Compared cmp var (line .text (n.name.past var)) ∧
      (tidy (n.name.taken var)).length ≤ 1024 ∧
      LinesFit cmp var .text true (afterLine .text (n.name.past var))
  | none => Compared cmp var l ∧ LinesFit cmp var .text (armed && l.isEmpty) after

theorem linesFit_nil : LinesFit cmp var mode armed [] := by
  rw [LinesFit]
  trivial

theorem linesFit_iff : LinesFit cmp var mode armed t ↔
    LineFits cmp var armed (line mode t) (afterLine mode t) := by
  cases t with
  | nil =>
    have hafter : afterLine mode [] = [] := by cases mode <;> rfl
    rw [LineFits, line_nil, hafter]
    exact iff_of_true linesFit_nil ⟨fun σ hσ => absurd hσ List.not_mem_nil, linesFit_nil⟩
  | cons c t =>
    rw [LinesFit, LineFits]
    cases hnamed : named var armed (line mode (c :: t)) with
    | none => rfl
    | some n => rfl

theorem lineFits_hit (hraw : var.isPrefixOf σ.raw = true) (after : List UInt8) :
    LineFits cmp var armed (σ :: l) after ↔
      Compared cmp var [σ] ∧ var.length < σ.raw.length ∧
        Compared cmp var (line .text (σ.past var)) ∧ (tidy (σ.taken var)).length ≤ 1024 ∧
        LinesFit cmp var .text true (afterLine .text (σ.past var)) := by
  have hnamed : named var armed (σ :: l) = some ⟨[], σ⟩ := by
    simp only [named, hraw, if_true]
  simp only [LineFits, hnamed, List.nil_append]

theorem compared_cons : Compared cmp var (σ :: l) ↔
    cmp.span σ.raw var ≤ σ.raw.length ∧ Compared cmp var l := List.forall_mem_cons

theorem lineFits_unarmed (hraw : var.isPrefixOf σ.raw = false) (after : List UInt8) :
    LineFits cmp var false (σ :: l) after ↔
      cmp.span σ.raw var ≤ σ.raw.length ∧ Compared cmp var l ∧
        LinesFit cmp var .text false after := by
  have hnamed : named var false (σ :: l) = none := by
    simp only [named, hraw, Bool.false_eq_true, if_false]
  simp only [LineFits, hnamed, compared_cons, Bool.false_and, and_assoc]

theorem lineFits_armed (hraw : var.isPrefixOf σ.raw = false) (after : List UInt8) :
    LineFits cmp var true (σ :: l) after ↔
      cmp.span σ.raw var ≤ σ.raw.length ∧ LineFits cmp var false l after := by
  cases l with
  | nil =>
    have hnamed : named var true [σ] = none := by
      simp only [named, hraw, Bool.false_eq_true, if_false, if_true]
    have hnil : named var false [] = none := rfl
    simp only [LineFits, hnamed, hnil, compared_cons, List.isEmpty_cons, Bool.and_false,
      Bool.false_and, and_assoc]
  | cons σ' l =>
    cases hraw' : var.isPrefixOf σ'.raw with
    | true =>
      have hnamed : named var true (σ :: σ' :: l) = some ⟨[σ], σ'⟩ := by
        simp only [named, hraw, hraw', Bool.false_eq_true, if_false, if_true]
      rw [lineFits_hit hraw']
      simp only [LineFits, hnamed, List.singleton_append, compared_cons, and_assoc]
    | false =>
      have hnamed : named var true (σ :: σ' :: l) = none := by
        simp only [named, hraw, hraw', Bool.false_eq_true, if_false, if_true]
      rw [lineFits_unarmed hraw']
      simp only [LineFits, hnamed, compared_cons, List.isEmpty_cons, Bool.and_false, and_assoc]

def Ahead (cmp : Memcmp) (var : List UInt8) (s : Scan) (t : List UInt8) : Prop :=
  if s.ended = 0 then LinesFit cmp var s.mode s.m t
  else Compared cmp var (line s.mode t) ∧
    (s.m = true → (((line s.mode t).map Site.byte).foldl keep s.pick).length ≤ 1024) ∧
    LinesFit cmp var .text s.m (afterLine s.mode t)

theorem ahead_idle (h0 : s.ended = 0) :
    Ahead cmp var s t ↔ LinesFit cmp var s.mode s.m t := by
  rw [Ahead, if_pos h0]

theorem ahead_running (h : s.ended ≠ 0) : Ahead cmp var s t ↔ Compared cmp var (line s.mode t) ∧
    (s.m = true → (((line s.mode t).map Site.byte).foldl keep s.pick).length ≤ 1024) ∧
    LinesFit cmp var .text s.m (afterLine s.mode t) := by
  rw [Ahead, if_neg h]

theorem ahead_passes (h : Passes s.mode c t s'.mode) (hm : s'.m = s.m) (hended : s'.ended = s.ended)
    (hpick : s'.pick = s.pick) : Ahead cmp var s (c :: t) ↔ Ahead cmp var s' t := by
  unfold Ahead
  rw [linesFit_iff, @linesFit_iff _ s'.mode, h.line, h.after, hm, hended, hpick]

theorem ahead_breaks (h : Breaks s.mode c t) (hmode : s'.mode = .text) (hm : s'.m = s.m)
    (hended : s'.ended = 0) (hpick : s.pick.length ≤ 1024) :
    Ahead cmp var s (c :: t) ↔ Ahead cmp var s' t := by
  have hnone (σ : Site) (hσ : σ ∈ ([] : List Site)) : cmp.span σ.raw var ≤ σ.raw.length :=
    absurd hσ List.not_mem_nil
  unfold Ahead
  rw [linesFit_iff, h.line, h.after, hm, hended, hmode, if_pos rfl]
  split
  · simp only [LineFits, named, List.isEmpty_nil, Bool.and_true]
    exact and_iff_right hnone
  · simp only [List.map_nil, List.foldl_nil]
    exact ⟨fun hfit => hfit.2.2, fun hfit => ⟨hnone, fun _ => hpick, hfit⟩⟩

theorem keep_le (pick : List UInt8) (c : UInt8) : pick.length ≤ (keep pick c).length := by
  unfold keep
  split_ifs
  · exact Nat.le_refl _
  · exact Nat.le_refl _
  · simp

theorem foldl_keep_le (pick cs : List UInt8) : pick.length ≤ (cs.foldl keep pick).length := by
  induction cs generalizing pick with
  | nil => exact Nat.le_refl _
  | cons c cs ih => exact Nat.le_trans (keep_le pick c) (ih (keep pick c))

theorem keepWrites_iff {pick : List UInt8} (hpick : pick.length ≤ 1024) (c : UInt8) :
    (∀ j ∈ keepWrites pick c, j < 1024) ↔ (keep pick c).length ≤ 1024 := by
  unfold keepWrites keep
  split_ifs
  · simpa using hpick
  · simpa using hpick
  · rw [List.forall_mem_singleton, List.length_append, List.length_singleton]
    exact Iff.rfl

structure StepFits (cmp : Memcmp) (var : List UInt8) (s : Scan) (c : UInt8) (t : List UInt8) :
    Prop where
  reads : ∀ x ∈ (scanTouched cmp var s c t).reads, x < (c :: t).length
  writes : ∀ j ∈ (scanTouched cmp var s c t).writes, j < 1024

theorem cursorInBounds_iff (hlen : (c :: t).length ≤ len) :
    CursorInBounds cmp var len ⟨s, c :: t⟩ ↔ StepFits cmp var s c t := by
  have hshift (x : ℕ) : len - (c :: t).length + x < len ↔ x < (c :: t).length := by omega
  simp only [CursorInBounds, hshift]
  exact ⟨fun h => ⟨h.1, h.2⟩, fun h => ⟨h.reads, h.writes⟩⟩

theorem throughout_cons (hlen : (c :: t).length ≤ len) :
    Throughout (configLoop var) (CursorInBounds cmp var len) ⟨s, c :: t⟩ ↔
      StepFits cmp var s c t ∧
        Throughout (configLoop var) (CursorInBounds cmp var len)
          ⟨(scanByte var s c t).1, (c :: t).drop (scanByte var s c t).2⟩ := by
  rw [← cursorInBounds_iff hlen]
  exact throughout_again rfl rfl

theorem span_fits (n : ℕ) (x : ℕ) (xs : List ℕ) :
    (∀ y ∈ 0 :: List.range n ++ xs, y < x + 1) ↔ n ≤ x + 1 ∧ ∀ y ∈ xs, y < x + 1 := by
  rw [List.cons_append, List.forall_mem_cons, List.forall_mem_append]
  constructor
  · rintro ⟨-, hrange, hxs⟩
    refine ⟨?_, hxs⟩
    cases n with
    | zero => exact Nat.zero_le _
    | succ n => exact hrange n (List.mem_range.mpr (Nat.lt_succ_self n))
  · rintro ⟨hn, hxs⟩
    exact ⟨Nat.succ_pos x, fun y hy => Nat.lt_of_lt_of_le (List.mem_range.mp hy) hn, hxs⟩

structure Step (cmp : Memcmp) (var : List UInt8) (s : Scan) (c : UInt8) (t : List UInt8) :
    Prop where
  pick : StepFits cmp var s c t → (scanByte var s c t).1.pick.length ≤ 1024
  ahead : Ahead cmp var s (c :: t) ↔ StepFits cmp var s c t ∧
    Ahead cmp var (scanByte var s c t).1 ((c :: t).drop (scanByte var s c t).2)

theorem Step.quiet (hstep : scanByte var s c t = (s', 1)) (hpick : s'.pick.length ≤ 1024)
    (htouched : scanTouched cmp var s c t = ⟨[0], []⟩)
    (h : Ahead cmp var s (c :: t) ↔ Ahead cmp var s' t) : Step cmp var s c t := by
  have hfits : StepFits cmp var s c t := by
    refine ⟨?_, ?_⟩
    · rw [htouched]
      simp
    · rw [htouched]
      exact fun j hj => absurd hj List.not_mem_nil
  refine ⟨fun _ => ?_, ?_⟩
  · rwa [hstep]
  · rw [hstep]
    exact h.trans (iff_and_self.mpr fun _ => hfits)

theorem touched_quiet (h : c = charCr ∨ (s.pos || s.n) = true ∨ c = charHash ∨ c = charBackslash ∨
    c = charNl) : scanTouched cmp var s c t = ⟨[0], []⟩ := if_pos h

theorem step_skipping (hmode : s.mode ≠ .text) (hcr : c ≠ charCr) (hpick : s.pick.length ≤ 1024) :
    Step cmp var s c t := by
  have hflags : (s.pos || s.n) = true := by
    cases hn : s.n with
    | true => exact Bool.or_true _
    | false =>
      cases hpos : s.pos with
      | true => rfl
      | false => exact absurd (mode_of_flags hn hpos) hmode
  have htouched := @touched_quiet cmp var t s c (.inr (.inl hflags))
  cases Decidable.em (c = charNl) with
  | inr hnl =>
    have hstep : scanByte var s c t = (s, 1) := by
      rw [scanByte, if_neg hcr, if_pos hflags, if_neg hnl]
    exact .quiet hstep hpick htouched (ahead_passes (passes_skip hmode hnl) rfl rfl rfl)
  | inl hnl =>
    subst hnl
    cases hn : s.n with
    | true =>
      have hstep : scanByte var s charNl t = ({ s with n := false, pos := false }, 1) := by
        rw [scanByte, if_neg hcr, if_pos hflags, if_pos rfl, if_pos hn]
      have hcont : s.mode = .continued := by rw [Scan.mode, if_pos hn]
      refine .quiet hstep hpick htouched (ahead_passes ?_ rfl rfl rfl)
      rw [hcont]
      exact passes_continued t
    | false =>
      have hstep : scanByte var s charNl t = ({ s with pos := false, ended := 0 }, 1) := by
        rw [scanByte, if_neg hcr, if_pos hflags, if_pos rfl, if_neg (by simp [hn])]
      have hcont : s.mode ≠ .continued := by
        intro hcont
        rw [Scan.mode, if_neg (by simp [hn])] at hcont
        split at hcont
        · cases hcont
        · cases hcont
      exact .quiet hstep hpick htouched
        (ahead_breaks (breaks_nl hcont) (mode_of_flags hn rfl) rfl rfl hpick)

theorem step_special (hmode : s.mode = .text) (hc : special c = true) (hcr : c ≠ charCr)
    (hpick : s.pick.length ≤ 1024) : Step cmp var s c t := by
  obtain ⟨hn, hpos⟩ := flags_of_mode hmode
  have hflags : ¬ (s.pos || s.n) = true := by simp [hn, hpos]
  rcases special_cases hc with rfl | rfl | rfl | rfl
  · exact absurd rfl hcr
  · have hstep : scanByte var s charHash t = ({ s with n := false, pos := true }, 1) := by
      rw [scanByte, if_neg hcr, if_neg hflags, if_pos rfl]
    refine .quiet hstep hpick (touched_quiet (.inr (.inr (.inl rfl)))) (ahead_passes ?_ rfl rfl rfl)
    rw [hmode]
    exact passes_hash t
  · have hstep : scanByte var s charBackslash t = ({ s with n := true, pos := false }, 1) := by
      rw [scanByte, if_neg hcr, if_neg hflags, if_neg (by decide), if_pos rfl]
    refine .quiet hstep hpick (touched_quiet (.inr (.inr (.inr (.inl rfl)))))
      (ahead_passes ?_ rfl rfl rfl)
    rw [hmode]
    exact passes_backslash t
  · have hstep : scanByte var s charNl t = ({ s with ended := 0, n := false, pos := false }, 1) := by
      rw [scanByte, if_neg hcr, if_neg hflags, if_neg (by decide), if_neg (by decide), if_pos rfl]
    refine .quiet hstep hpick (touched_quiet (.inr (.inr (.inr (.inr rfl)))))
      (ahead_breaks ?_ rfl rfl rfl hpick)
    rw [hmode]
    exact breaks_nl (by decide)

theorem touched_plain (hmode : s.mode = .text) (hc : special c = false) :
    scanTouched cmp var s c t =
      let compared := 0 :: List.range (cmp.span (c :: t) var)
      if s.ended = 0 ∧ var.isPrefixOf (c :: t) then
        ⟨compared ++ [var.length], keepWrites [] ((c :: t).getD var.length 0)⟩
      else if s.ended = 0 ∧ s.m then ⟨compared, []⟩
      else if s.m then ⟨compared, keepWrites s.pick c⟩
      else ⟨compared, []⟩ := by
  obtain ⟨hn, hpos⟩ := flags_of_mode hmode
  obtain ⟨hcr, hhash, hback, hnl⟩ := special_false.mp hc
  exact if_neg (by simp [hn, hpos, hcr, hhash, hback, hnl])

theorem stepFits_compared {xs ws : List ℕ}
    (h : scanTouched cmp var s c t = ⟨0 :: List.range (cmp.span (c :: t) var) ++ xs, ws⟩) :
    StepFits cmp var s c t ↔ cmp.span (c :: t) var ≤ (c :: t).length ∧
      (∀ x ∈ xs, x < (c :: t).length) ∧ ∀ j ∈ ws, j < 1024 := by
  have hreads := span_fits (cmp.span (c :: t) var) t.length xs
  constructor
  · rintro ⟨hr, hw⟩
    rw [h] at hr hw
    exact ⟨(hreads.mp hr).1, (hreads.mp hr).2, hw⟩
  · rintro ⟨hspan, hxs, hw⟩
    refine ⟨?_, ?_⟩
    · rw [h]
      exact hreads.mpr ⟨hspan, hxs⟩
    · rw [h]
      exact hw

theorem no_more (n : ℕ) : ∀ x ∈ ([] : List ℕ), x < n := fun _ hx => absurd hx List.not_mem_nil

theorem step_hit (hvar : var ≠ []) (hmode : s.mode = .text) (hc : special c = false)
    (h0 : s.ended = 0) (hraw : var.isPrefixOf (c :: t) = true) : Step cmp var s c t := by
  have hstep := @scanByte_plain var t s c hmode hc
  have htouched := @touched_plain cmp var t s c hmode hc
  rw [if_pos ⟨h0, hraw⟩] at hstep
  dsimp only at htouched
  rw [if_pos ⟨h0, hraw⟩] at htouched
  have hone : (keep [] ((c :: t).getD var.length 0)).length ≤ 1024 := by
    unfold keep
    split_ifs <;> simp
  refine ⟨fun _ => ?_, ?_⟩
  · rw [hstep]
    exact hone
  · have hwrites := (keepWrites_iff (Nat.zero_le _) ((c :: t).getD var.length 0)).mpr hone
    have hended : var.length ≠ 0 := fun hzero => hvar (List.length_eq_zero_iff.mp hzero)
    have hmode' : ({ s with ended := var.length, pick := [] }.store
        ((c :: t).getD var.length 0) : Scan).mode = .text := mode_of_flags (flags_of_mode hmode).1 rfl
    have hafter : Ahead cmp var
        ({ s with ended := var.length, pick := [] }.store ((c :: t).getD var.length 0))
        ((c :: t).drop (var.length + 1)) ↔
          Compared cmp var (line .text (Site.past var ⟨c, t⟩)) ∧
            (tidy (Site.taken var ⟨c, t⟩)).length ≤ 1024 ∧
            LinesFit cmp var .text true (afterLine .text (Site.past var ⟨c, t⟩)) := by
      rw [ahead_running hended, hmode']
      exact and_congr_right fun _ => and_congr_left fun _ => forall_prop_of_true rfl
    rw [stepFits_compared htouched, hstep, ahead_idle h0, linesFit_iff, hmode, line_plain hc,
      lineFits_hit hraw, hafter, compared_cons]
    constructor
    · rintro ⟨⟨hspan, -⟩, hroom, hrest⟩
      exact ⟨⟨hspan, List.forall_mem_singleton.mpr hroom, hwrites⟩, hrest⟩
    · rintro ⟨⟨hspan, hroom, -⟩, hrest⟩
      exact ⟨⟨hspan, fun σ hσ => absurd hσ List.not_mem_nil⟩,
        hroom var.length (List.mem_singleton_self _), hrest⟩

theorem step_dropped (hmode : s.mode = .text) (hc : special c = false) (h0 : s.ended = 0)
    (hraw : var.isPrefixOf (c :: t) = false) (hm : s.m = true) (hpick : s.pick.length ≤ 1024) :
    Step cmp var s c t := by
  have hstep := @scanByte_plain var t s c hmode hc
  have htouched := @touched_plain cmp var t s c hmode hc
  rw [if_neg (by simp [hraw]), if_pos ⟨h0, hm⟩] at hstep
  dsimp only at htouched
  rw [if_neg (by simp [hraw]), if_pos ⟨h0, hm⟩, ← List.append_nil (List.range _)] at htouched
  have hmode' : ({ s with ended := 0, m := false, pos := false } : Scan).mode = .text :=
    mode_of_flags (flags_of_mode hmode).1 rfl
  refine ⟨fun _ => by rwa [hstep], ?_⟩
  rw [stepFits_compared htouched, hstep, ahead_idle h0, ahead_idle rfl, linesFit_iff, hmode, hmode',
    line_plain hc, afterLine_plain hc, hm, lineFits_armed hraw]
  dsimp only
  rw [List.drop_succ_cons, List.drop_zero, linesFit_iff]
  exact and_congr_left fun _ => (and_iff_left ⟨no_more _, no_more _⟩).symm

theorem step_passing (hmode : s.mode = .text) (hc : special c = false)
    (hraw : ¬(s.ended = 0 ∧ var.isPrefixOf (c :: t) = true)) (hm : s.m = false)
    (hpick : s.pick.length ≤ 1024) : Step cmp var s c t := by
  have hstep := @scanByte_plain var t s c hmode hc
  have htouched := @touched_plain cmp var t s c hmode hc
  rw [if_neg hraw, if_neg (by simp [hm]), if_neg (by simp [hm])] at hstep
  dsimp only at htouched
  rw [if_neg hraw, if_neg (by simp [hm]), if_neg (by simp [hm]),
    ← List.append_nil (List.range _)] at htouched
  have hmode' : ({ s with ended := s.ended + 1, pos := false } : Scan).mode = .text :=
    mode_of_flags (flags_of_mode hmode).1 rfl
  have hafter : Ahead cmp var { s with ended := s.ended + 1, pos := false } t ↔
      Compared cmp var (line .text t) ∧ LinesFit cmp var .text false (afterLine .text t) := by
    rw [ahead_running (Nat.succ_ne_zero s.ended), hmode']
    simp only [hm, Bool.false_eq_true, false_implies, true_and]
  refine ⟨fun _ => by rwa [hstep], ?_⟩
  rw [stepFits_compared htouched, hstep]
  dsimp only
  rw [List.drop_succ_cons, List.drop_zero, hafter]
  have hbefore : Ahead cmp var s (c :: t) ↔ cmp.span (c :: t) var ≤ (c :: t).length ∧
      Compared cmp var (line .text t) ∧ LinesFit cmp var .text false (afterLine .text t) := by
    cases Decidable.em (s.ended = 0) with
    | inl h0 =>
      have hmiss : var.isPrefixOf (Site.raw ⟨c, t⟩) = false :=
        eq_false_of_ne_true fun hhit => hraw ⟨h0, hhit⟩
      rw [ahead_idle h0, linesFit_iff, hmode, line_plain hc, afterLine_plain hc, hm,
        lineFits_unarmed hmiss]
      rfl
    | inr h0 =>
      rw [ahead_running h0, hmode, line_plain hc, afterLine_plain hc, compared_cons, hm]
      simp only [Bool.false_eq_true, false_implies, true_and, and_assoc]
      rfl
  rw [hbefore]
  exact and_congr_left fun _ => (and_iff_left ⟨no_more _, no_more _⟩).symm

theorem step_taking (hmode : s.mode = .text) (hc : special c = false) (h0 : s.ended ≠ 0)
    (hm : s.m = true) (hpick : s.pick.length ≤ 1024) : Step cmp var s c t := by
  have hstep := @scanByte_plain var t s c hmode hc
  have htouched := @touched_plain cmp var t s c hmode hc
  rw [if_neg fun h => h0 h.1, if_neg fun h => h0 h.1, if_pos hm] at hstep
  dsimp only at htouched
  rw [if_neg fun h => h0 h.1, if_neg fun h => h0 h.1, if_pos hm,
    ← List.append_nil (List.range _)] at htouched
  have hmode' : ({ s with ended := s.ended + 1 }.store c : Scan).mode = .text :=
    mode_of_flags (flags_of_mode hmode).1 rfl
  have hafter : Ahead cmp var ({ s with ended := s.ended + 1 }.store c) t ↔
      Compared cmp var (line .text t) ∧
        (((line .text t).map Site.byte).foldl keep (keep s.pick c)).length ≤ 1024 ∧
        LinesFit cmp var .text true (afterLine .text t) := by
    rw [ahead_running (Nat.succ_ne_zero s.ended), hmode']
    exact and_congr_right fun _ => and_congr_left fun _ => forall_prop_of_true rfl
  have hfits := stepFits_compared htouched
  rw [keepWrites_iff hpick] at hfits
  refine ⟨fun h => ?_, ?_⟩
  · rw [hstep]
    exact (hfits.mp h).2.2
  · rw [hfits, hstep]
    dsimp only
    rw [List.drop_succ_cons, List.drop_zero, hafter, ahead_running h0, hmode, line_plain hc,
      afterLine_plain hc, compared_cons, hm, List.map_cons, List.foldl_cons]
    have hgrows := foldl_keep_le (keep s.pick c) ((line .text t).map Site.byte)
    constructor
    · rintro ⟨⟨hspan, hsites⟩, hpicked, hrest⟩
      exact ⟨⟨hspan, no_more _, Nat.le_trans hgrows (hpicked rfl)⟩, hsites, hpicked rfl, hrest⟩
    · rintro ⟨⟨hspan, -⟩, hsites, hpicked, hrest⟩
      exact ⟨⟨hspan, hsites⟩, fun _ => hpicked, hrest⟩

theorem step_spec (hvar : var ≠ []) (hpick : s.pick.length ≤ 1024) : Step cmp var s c t := by
  cases Decidable.em (c = charCr) with
  | inl hcr =>
    subst hcr
    refine .quiet (by rw [scanByte, if_pos rfl]) hpick (touched_quiet (.inl rfl)) ?_
    exact ahead_passes (passes_cr s.mode t) rfl rfl rfl
  | inr hcr =>
    cases Decidable.em (s.mode = .text) with
    | inr hmode => exact step_skipping hmode hcr hpick
    | inl hmode =>
      cases hc : special c with
      | true => exact step_special hmode hc hcr hpick
      | false =>
        cases Decidable.em (s.ended = 0 ∧ var.isPrefixOf (c :: t) = true) with
        | inl hhit => exact step_hit hvar hmode hc hhit.1 hhit.2
        | inr hmiss =>
          cases hm : s.m with
          | false => exact step_passing hmode hc hmiss hm hpick
          | true =>
            cases Decidable.em (s.ended = 0) with
            | inr h0 => exact step_taking hmode hc h0 hm hpick
            | inl h0 =>
              have hraw : var.isPrefixOf (c :: t) = false :=
                eq_false_of_ne_true fun hhit => hmiss ⟨h0, hhit⟩
              exact step_dropped hmode hc h0 hraw hm hpick

theorem throughout_iff (hvar : var ≠ []) (hpick : s.pick.length ≤ 1024) (hlen : t.length ≤ len) :
    Throughout (configLoop var) (CursorInBounds cmp var len) ⟨s, t⟩ ↔ Ahead cmp var s t := by
  induction hsize : t.length using Nat.strongRecOn generalizing s t with
  | _ size ih =>
    cases t with
    | nil =>
      have hafter : afterLine s.mode [] = [] := by cases s.mode <;> rfl
      refine iff_of_true (throughout_done rfl) ?_
      unfold Ahead
      split
      · exact linesFit_nil
      · rw [line_nil, hafter]
        exact ⟨fun σ hσ => absurd hσ List.not_mem_nil, fun _ => hpick, linesFit_nil⟩
    | cons c t =>
      have hstep := @step_spec cmp var t s c hvar hpick
      have hpos := scanByte_advances var s c t
      have hshort : ((c :: t).drop (scanByte var s c t).2).length < (c :: t).length := by
        rw [List.length_drop, List.length_cons]
        omega
      rw [throughout_cons hlen, hstep.ahead]
      refine and_congr_right fun hfits => ?_
      exact ih _ (hsize ▸ hshort) (hstep.pick hfits) (by omega) rfl

inductive ConfigVar where
  | ccode
  | macAddr

def ConfigVar.name : ConfigVar → List UInt8
  | .ccode => [99, 99, 111, 100, 101, 61]
  | .macAddr => [109, 97, 99, 95, 97, 100, 100, 114, 61]

theorem ConfigVar.name_ne_nil (v : ConfigVar) : v.name ≠ [] := by
  cases v <;> exact List.cons_ne_nil _ _

theorem config_bounds_law (cmp : Memcmp) (v : ConfigVar) (buf : List UInt8) :
    ConfigInBounds cmp buf v.name ↔ LinesFit cmp v.name .text false buf :=
  throughout_iff v.name_ne_nil (Nat.zero_le _) (Nat.le_refl _)

-- two ways memcmp may compare: byte by byte up to the first difference, or all the bytes at once
def Memcmp.bytewise : Memcmp where
  span raw var := min (agreeing raw var + 1) var.length
  reaches _ _ := Nat.le_refl _
  bounded _ _ := Nat.min_le_right _ _

def Memcmp.whole : Memcmp where
  span _ var := var.length
  reaches _ _ := Nat.min_le_right _ _
  bounded _ _ := Nat.le_refl _

theorem agreeing_le (raw var : List UInt8) :
    agreeing raw var ≤ raw.length ∧ (agreeing raw var = raw.length ↔ raw <+: var) := by
  induction raw generalizing var with
  | nil => simp [agreeing]
  | cons a raw ih =>
    cases var with
    | nil => simp [agreeing]
    | cons b var =>
      obtain ⟨hle, hiff⟩ := ih var
      rw [agreeing, List.cons_prefix_cons, List.length_cons]
      split
      · rename_i hab
        rw [Nat.add_right_cancel_iff, hiff]
        exact ⟨Nat.succ_le_succ hle, (and_iff_right hab).symm⟩
      · rename_i hab
        exact ⟨Nat.zero_le _, iff_of_false (Nat.zero_ne_add_one _) fun h => hab h.1⟩

theorem compared_bytewise (var : List UInt8) (l : List Site) :
    Compared .bytewise var l ↔ ∀ σ ∈ l, ¬ (σ.raw <+: var ∧ σ.raw.length < var.length) := by
  refine forall₂_congr fun σ _ => ?_
  obtain ⟨hle, hiff⟩ := agreeing_le σ.raw var
  change min (agreeing σ.raw var + 1) var.length ≤ σ.raw.length ↔ _
  rw [← hiff]
  omega

theorem name_at_end_reads_past : ¬ ∃ cmp : Memcmp, ConfigInBounds cmp ConfigVar.ccode.name
    ConfigVar.ccode.name := by
  rintro ⟨cmp, hbounds⟩
  have hahead := (throughout_iff ConfigVar.ccode.name_ne_nil (Nat.zero_le _)
    (Nat.le_refl _)).mp hbounds
  rw [ahead_idle rfl, linesFit_iff] at hahead
  have hline : line .text ConfigVar.ccode.name =
      ⟨99, [99, 111, 100, 101, 61]⟩ :: line .text [99, 111, 100, 101, 61] := line_plain rfl
  rw [show Scan.start.mode = .text from rfl, hline, lineFits_hit (by decide)] at hahead
  exact absurd hahead.2.1 (by decide)

end Ez
