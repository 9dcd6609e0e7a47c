import Rtl8188fu.Ez.ConfigText
import Rtl8188fu.Lib.WhileLoop

namespace Ez

open WhileLoop (Loop Turn)

structure Scan where
  pos : Bool
  n : Bool
  m : Bool
  ended : ℕ
  pick : List UInt8
  deriving DecidableEq

def Scan.start : Scan := ⟨false, false, false, 0, []⟩

def Scan.store (s : Scan) (c : UInt8) : Scan :=
  { s with pos := false, m := true, pick := keep s.pick c }

def scanByte (var : List UInt8) (s : Scan) (c : UInt8) (t : List UInt8) : Scan × ℕ :=
  if c = charCr then (s, 1)
  else if s.pos || s.n then
    if c = charNl then
      if s.n then ({ s with n := false, pos := false }, 1)
      else ({ s with pos := false, ended := 0 }, 1)
    else (s, 1)
  else if c = charHash then ({ s with n := false, pos := true }, 1)
  else if c = charBackslash then ({ s with n := true, pos := false }, 1)
  else if c = charNl then ({ s with ended := 0, n := false, pos := false }, 1)
  else if s.ended = 0 ∧ var.isPrefixOf (c :: t) then
    ({ s with ended := var.length, pick := [] }.store ((c :: t).getD var.length 0), var.length + 1)
  else if s.ended = 0 ∧ s.m then ({ s with ended := 0, m := false, pos := false }, 1)
  else if s.m then ({ s with ended := s.ended + 1 }.store c, 1)
  else ({ s with ended := s.ended + 1, pos := false }, 1)

structure Cursor where
  scan : Scan
  rest : List UInt8

def configLoop (var : List UInt8) : Loop Cursor where
  guard k := !k.rest.isEmpty
  body k :=
    match k.rest with
    | [] => .leave k
    | c :: t =>
      let r := scanByte var k.scan c t
      .again ⟨r.1, (c :: t).drop r.2⟩

def processConfigVars (fuel : ℕ) (buf var : List UInt8) : Option (List UInt8) :=
  (WhileLoop.run (configLoop var) fuel ⟨Scan.start, buf⟩).map fun k => k.scan.pick

def valueFollows (var : List UInt8) (s : Site) : Bool :=
  (s.raw.drop var.length).head?.any fun b => !special b

structure LineClean (var : List UInt8) (armed : Bool) (s : Site) (l : List Site) : Prop where
  unbroken : begins var (s :: l) = var.isPrefixOf s.raw
  followed : begins var (s :: l) = true → valueFollows var s = true
  second : begins var (s :: l) = false → armed = true →
    ∀ s' ∈ l.head?, var.isPrefixOf s'.raw = false

instance (var : List UInt8) (armed : Bool) (s : Site) (l : List Site) :
    Decidable (LineClean var armed s l) :=
  decidable_of_iff ((begins var (s :: l) = var.isPrefixOf s.raw ∧
    (begins var (s :: l) = true → valueFollows var s = true)) ∧
    (begins var (s :: l) = false → armed = true → ∀ s' ∈ l.head?, var.isPrefixOf s'.raw = false))
    ⟨fun h => ⟨h.1.1, h.1.2, h.2⟩, fun h => ⟨⟨h.unbroken, h.followed⟩, h.second⟩⟩

def Clean (var : List UInt8) : Bool → List (List Site) → Prop
  | _, [] => True
  | armed, [] :: ls => Clean var armed ls
  | armed, (s :: l) :: ls => LineClean var armed s l ∧ Clean var (begins var (s :: l)) ls

def decideClean (var : List UInt8) : ∀ armed ls, Decidable (Clean var armed ls)
  | _, [] => inferInstanceAs (Decidable True)
  | armed, [] :: ls => decideClean var armed ls
  | _, (s :: l) :: ls => @instDecidableAnd _ _ _ (decideClean var (begins var (s :: l)) ls)

instance (var : List UInt8) (armed : Bool) (ls : List (List Site)) :
    Decidable (Clean var armed ls) :=
  decideClean var armed ls

def Scan.mode (s : Scan) : Mode := if s.n then .continued else if s.pos then .comment else .text

inductive Phase (var : List UInt8) (s : Scan) : List (List Site) → List UInt8 → Prop where
  | idle {ls} : s.ended = 0 → Clean var s.m ls → Phase var s ls (lastValue var s.pick ls)
  | passing {l ls} : s.m = false →
      (s.ended = 0 → ∀ s' ∈ l.head?, var.isPrefixOf s'.raw = false) → Clean var false ls →
      Phase var s (l :: ls) (lastValue var s.pick ls)
  | taking {l ls} : s.m = true → s.ended ≠ 0 → Clean var true ls →
      Phase var s (l :: ls) (lastValue var ((l.map Site.byte).foldl keep s.pick) ls)

variable {var t r : List UInt8} {s s' : Scan} {c : UInt8} {L : List (List Site)}

theorem valueFollows_split {σ : Site} (h : valueFollows var σ = true) :
    ∃ b t', σ.raw.drop var.length = b :: t' ∧ special b = false := by
  unfold valueFollows at h
  cases hdrop : σ.raw.drop var.length with
  | nil =>
    rw [hdrop] at h
    cases h
  | cons b t' =>
    rw [hdrop] at h
    exact ⟨b, t', rfl, by simpa using h⟩

theorem begins_nil (hvar : var ≠ []) : begins var [] = false := by
  cases var with
  | nil => exact absurd rfl hvar
  | cons c var => rfl

theorem lastValue_nil_cons (hvar : var ≠ []) (best : List UInt8) (ls : List (List Site)) :
    lastValue var best ([] :: ls) = lastValue var best ls := by
  rw [lastValue_cons, begins_nil hvar, if_neg Bool.false_ne_true]

theorem Phase.same (h : Phase var s L r) (hm : s'.m = s.m) (hended : s'.ended = s.ended)
    (hpick : s'.pick = s.pick) : Phase var s' L r := by
  cases h with
  | idle h0 hclean =>
    rw [← hpick]
    exact .idle (hended ▸ h0) (hm ▸ hclean)
  | passing hfalse hhead hclean =>
    rw [← hpick]
    exact .passing (hm ▸ hfalse) (hended ▸ hhead) hclean
  | taking htrue hpos hclean =>
    rw [← hpick]
    exact .taking (hm ▸ htrue) (hended ▸ hpos) hclean

theorem Phase.newline (hvar : var ≠ []) (h : Phase var s ([] :: L) r) (hm : s'.m = s.m)
    (hended : s'.ended = 0) (hpick : s'.pick = s.pick) : Phase var s' L r := by
  cases h with
  | idle h0 hclean =>
    rw [lastValue_nil_cons hvar, ← hpick]
    exact .idle hended (hm ▸ hclean)
  | passing hfalse hhead hclean =>
    rw [← hpick]
    exact .idle hended (by rwa [hm, hfalse])
  | taking htrue hpos hclean =>
    rw [List.map_nil, List.foldl_nil, ← hpick]
    exact .idle hended (by rwa [hm, htrue])

theorem Phase.finish (hvar : var ≠ []) (h : Phase var s [[]] r) : s.pick = r := by
  cases h with
  | idle h0 hclean => exact (lastValue_nil_cons hvar s.pick []).symm
  | passing hfalse hhead hclean => rfl
  | taking htrue hpos hclean => rfl

theorem mode_of_flags (hn : s.n = false) (hpos : s.pos = false) : s.mode = .text := by
  simp [Scan.mode, hn, hpos]

theorem flags_of_mode (h : s.mode = .text) : s.n = false ∧ s.pos = false := by
  cases hn : s.n with
  | true => simp [Scan.mode, hn] at h
  | false =>
    cases hpos : s.pos with
    | true => simp [Scan.mode, hn, hpos] at h
    | false => exact ⟨rfl, rfl⟩

structure Stepped (var : List UInt8) (s : Scan) (c : UInt8) (t r : List UInt8) : Prop where
  phase : Phase var (scanByte var s c t).1
    (lines (scanByte var s c t).1.mode ((c :: t).drop (scanByte var s c t).2)) r
  advances : 0 < (scanByte var s c t).2

theorem stepped_one (hstep : scanByte var s c t = (s', 1)) (h : Phase var s' (lines s'.mode t) r) :
    Stepped var s c t r := by
  refine ⟨?_, ?_⟩
  · rw [hstep]
    exact h
  · rw [hstep]
    exact Nat.one_pos

theorem stepped_text (hstep : scanByte var s c t = (s', 1)) (hn : s'.n = false)
    (hpos : s'.pos = false) (h : Phase var s' (lines .text t) r) : Stepped var s c t r := by
  refine stepped_one hstep ?_
  rwa [mode_of_flags hn hpos]

theorem stepped_skipping (hvar : var ≠ []) (hmode : s.mode ≠ .text) (hcr : c ≠ charCr)
    (h : Phase var s (lines s.mode (c :: t)) r) : Stepped var s c t r := by
  have hflags : (s.pos || s.n) = true := by
    cases hn : s.n with
    | true => exact Bool.or_true _
    | false =>
      cases hpos : s.pos with
      | true => rfl
      | false => exact absurd (mode_of_flags hn hpos) hmode
  cases Decidable.em (c = charNl) with
  | inr hnl =>
    have hstep : scanByte var s c t = (s, 1) := by
      rw [scanByte, if_neg hcr, if_pos hflags, if_neg hnl]
    refine stepped_one hstep ?_
    rwa [lines_skip hmode hnl] at h
  | inl hnl =>
    subst hnl
    cases hn : s.n with
    | true =>
      have hstep : scanByte var s charNl t = ({ s with n := false, pos := false }, 1) := by
        rw [scanByte, if_neg hcr, if_pos hflags, if_pos rfl, if_pos hn]
      have hcont : s.mode = .continued := by rw [Scan.mode, if_pos hn]
      refine stepped_one hstep ?_
      rw [hcont, lines_continued_nl] at h
      exact h.same rfl rfl rfl
    | false =>
      have hstep : scanByte var s charNl t = ({ s with pos := false, ended := 0 }, 1) := by
        rw [scanByte, if_neg hcr, if_pos hflags, if_pos rfl, if_neg (by simp [hn])]
      have hcont : s.mode ≠ .continued := by
        intro hcont
        rw [Scan.mode, if_neg (by simp [hn])] at hcont
        split at hcont
        · cases hcont
        · cases hcont
      rw [lines_nl hcont] at h
      exact stepped_text hstep hn rfl (h.newline hvar rfl rfl rfl)

theorem stepped_special (hvar : var ≠ []) (hmode : s.mode = .text) (hc : special c = true)
    (hcr : c ≠ charCr) (h : Phase var s (lines s.mode (c :: t)) r) : Stepped var s c t r := by
  obtain ⟨hn, hpos⟩ := flags_of_mode hmode
  have hflags : ¬ (s.pos || s.n) = true := by simp [hn, hpos]
  rw [hmode] at h
  rcases special_cases hc with rfl | rfl | rfl | rfl
  · exact absurd rfl hcr
  · have hstep : scanByte var s charHash t = ({ s with n := false, pos := true }, 1) := by
      rw [scanByte, if_neg hcr, if_neg hflags, if_pos rfl]
    refine stepped_one hstep ?_
    rw [lines_hash] at h
    exact h.same rfl rfl rfl
  · have hstep : scanByte var s charBackslash t = ({ s with n := true, pos := false }, 1) := by
      rw [scanByte, if_neg hcr, if_neg hflags, if_neg (by decide), if_pos rfl]
    refine stepped_one hstep ?_
    rw [lines_backslash] at h
    exact h.same rfl rfl rfl
  · have hstep : scanByte var s charNl t = ({ s with ended := 0, n := false, pos := false }, 1) := by
      rw [scanByte, if_neg hcr, if_neg hflags, if_neg (by decide), if_neg (by decide), if_pos rfl]
    refine stepped_one hstep ?_
    rw [lines_nl (by decide)] at h
    exact h.newline hvar rfl rfl rfl

theorem scanByte_plain (hmode : s.mode = .text) (hc : special c = false) :
    scanByte var s c t =
      if s.ended = 0 ∧ var.isPrefixOf (c :: t) = true then
        ({ s with ended := var.length, pick := [] }.store ((c :: t).getD var.length 0),
          var.length + 1)
      else if s.ended = 0 ∧ s.m = true then ({ s with ended := 0, m := false, pos := false }, 1)
      else if s.m = true then ({ s with ended := s.ended + 1 }.store c, 1)
      else ({ s with ended := s.ended + 1, pos := false }, 1) := by
  obtain ⟨hn, hpos⟩ := flags_of_mode hmode
  obtain ⟨hcr, hhash, hback, hnl⟩ := special_false.mp hc
  rw [scanByte, if_neg hcr, if_neg (by simp [hn, hpos]), if_neg hhash, if_neg hback, if_neg hnl]

theorem stepped_match {l : List Site} {ls : List (List Site)}
    (hlast : var.getLast? ≠ some charSpace) (hvar : var ≠ []) (hmode : s.mode = .text)
    (hc : special c = false) (h0 : s.ended = 0) (hlines : lines .text (c :: t) = (⟨c, t⟩ :: l) :: ls)
    (hbegins : begins var (⟨c, t⟩ :: l) = true) (hraw : var.isPrefixOf (c :: t) = true)
    (hfollow : valueFollows var ⟨c, t⟩ = true) (hclean : Clean var true ls) :
    Stepped var s c t (lastValue var s.pick ((⟨c, t⟩ :: l) :: ls)) := by
  obtain ⟨b, t', hdrop, hb⟩ := valueFollows_split hfollow
  obtain ⟨rest, hrest⟩ := List.isPrefixOf_iff_prefix.mp hraw
  have hsplit : c :: t = (var ++ [b]) ++ t' := by
    have htail : rest = b :: t' := by rw [← hdrop, Site.raw, ← hrest, List.drop_left]
    rw [← hrest, htail, List.append_assoc]
    rfl
  have hplain : ∀ x ∈ var ++ [b], special x = false := by
    intro x hx
    rcases List.mem_append.mp hx with hx | hx
    · obtain ⟨σ, hσ, rfl⟩ := List.mem_map.mp (begins_bytes hbegins x hx)
      exact lines_byte .text (c :: t) _ (hlines ▸ List.mem_cons_self) σ hσ
    · exact List.mem_singleton.mp hx ▸ hb
  obtain ⟨ss, hss, happend⟩ := lines_append hplain t'
  obtain ⟨l', ls', ht'⟩ := exists_lines .text t'
  have hfirst : ⟨c, t⟩ :: l = ss ++ l' ∧ ls = ls' := by
    rw [← hsplit, hlines, ht', List.modifyHead_cons] at happend
    exact List.cons.inj happend
  have hstep : scanByte var s c t =
      ({ s with ended := var.length, pick := [] }.store b, var.length + 1) := by
    have hget : (c :: t).getD var.length 0 = b := by
      rw [hsplit, List.append_assoc]
      simp
    rw [scanByte_plain hmode hc, if_pos ⟨h0, hraw⟩, hget]
  have hvalue : value var (⟨c, t⟩ :: l) = (l'.map Site.byte).foldl keep (keep [] b) := by
    have htext : (⟨c, t⟩ :: l : List Site).map Site.byte = var ++ b :: l'.map Site.byte := by
      rw [hfirst.1, List.map_append, hss, List.append_assoc]
      rfl
    exact value_of_text hlast hbegins htext
  refine ⟨?_, by rw [hstep]; exact Nat.succ_pos _⟩
  have hrestText : (c :: t).drop (var.length + 1) = t' := by
    rw [hsplit, List.drop_left' (by simp)]
  have hmode' : ({ s with ended := var.length, pick := [] }.store b : Scan).mode = .text :=
    mode_of_flags (flags_of_mode hmode).1 rfl
  rw [hstep]
  dsimp only
  rw [hrestText, hmode', ht', lastValue_cons, if_pos hbegins, hvalue, hfirst.2]
  exact .taking rfl (fun hzero => hvar (List.length_eq_zero_iff.mp hzero)) (hfirst.2 ▸ hclean)

theorem stepped_plain (hlast : var.getLast? ≠ some charSpace) (hvar : var ≠ [])
    (hmode : s.mode = .text) (hc : special c = false) (h : Phase var s (lines s.mode (c :: t)) r) :
    Stepped var s c t r := by
  obtain ⟨l, ls, ht⟩ := exists_lines .text t
  have hlines : lines .text (c :: t) = (⟨c, t⟩ :: l) :: ls := by
    rw [lines_plain hc, ht, List.modifyHead_cons]
  have hn := (flags_of_mode hmode).1
  have hstep := @scanByte_plain var t s c hmode hc
  rw [hmode, hlines] at h
  cases h with
  | taking htrue hpos hclean =>
    rw [if_neg fun hand => hpos hand.1, if_neg fun hand => hpos hand.1, if_pos htrue] at hstep
    refine stepped_text hstep hn rfl ?_
    rw [ht]
    exact .taking rfl (Nat.succ_ne_zero _) hclean
  | passing hfalse hhead hclean =>
    have hraw : ¬(s.ended = 0 ∧ var.isPrefixOf (c :: t) = true) := by
      rintro ⟨h0, hraw⟩
      exact Bool.false_ne_true ((hhead h0 ⟨c, t⟩ rfl).symm.trans hraw)
    rw [if_neg hraw, if_neg (by simp [hfalse]), if_neg (by simp [hfalse])] at hstep
    refine stepped_text hstep hn rfl ?_
    rw [ht]
    exact .passing hfalse (fun h0 => absurd h0 (Nat.succ_ne_zero _)) hclean
  | idle h0 hclean =>
    obtain ⟨hline, hclean⟩ := hclean
    cases hbegins : begins var (⟨c, t⟩ :: l) with
    | true =>
      have hraw : var.isPrefixOf (c :: t) = true := hline.unbroken ▸ hbegins
      exact stepped_match hlast hvar hmode hc h0 hlines hbegins hraw (hline.followed hbegins)
        (hbegins ▸ hclean)
    | false =>
      have hraw : var.isPrefixOf (c :: t) = false := hline.unbroken ▸ hbegins
      rw [hbegins] at hclean
      rw [lastValue_cons, hbegins, if_neg Bool.false_ne_true]
      rw [if_neg (by simp [hraw])] at hstep
      cases hm : s.m with
      | true =>
        rw [if_pos ⟨h0, hm⟩] at hstep
        refine stepped_text hstep hn rfl ?_
        rw [ht]
        exact .passing rfl (fun _ => hline.second hbegins hm) hclean
      | false =>
        rw [if_neg (by simp [hm]), if_neg (by simp [hm])] at hstep
        refine stepped_text hstep hn rfl ?_
        rw [ht]
        exact .passing hm (fun h0 => absurd h0 (Nat.succ_ne_zero _)) hclean

theorem stepped (hlast : var.getLast? ≠ some charSpace) (hvar : var ≠ [])
    (h : Phase var s (lines s.mode (c :: t)) r) : Stepped var s c t r := by
  cases Decidable.em (c = charCr) with
  | inl hcr =>
    subst hcr
    refine stepped_one (by rw [scanByte, if_pos rfl]) ?_
    rwa [lines_cr] at h
  | inr hcr =>
    cases Decidable.em (s.mode = .text) with
    | inr hmode => exact stepped_skipping hvar hmode hcr h
    | inl hmode =>
      cases hc : special c with
      | true => exact stepped_special hvar hmode hc hcr h
      | false => exact stepped_plain hlast hvar hmode hc h

theorem scanByte_advances (var : List UInt8) (s : Scan) (c : UInt8) (t : List UInt8) :
    0 < (scanByte var s c t).2 := by
  unfold scanByte
  split_ifs
  all_goals exact Nat.succ_pos _

theorem configLoop_ends (var : List UInt8) (k : Cursor) :
    ∃ r, WhileLoop.Ends (configLoop var) k r ∧
      ∀ fuel, k.rest.length < fuel → WhileLoop.run (configLoop var) fuel k = some r := by
  refine WhileLoop.ends_of_measure (fun k => k.rest.length) ?_ k
  rintro ⟨s, rest⟩ next hguard hbody
  cases rest with
  | nil => cases hguard
  | cons c t =>
    cases hbody
    have hpos := scanByte_advances var s c t
    simp only [List.length_drop, List.length_cons]
    omega

theorem configLoop_pick (hlast : var.getLast? ≠ some charSpace) (hvar : var ≠ []) {k e : Cursor}
    (h : WhileLoop.Ends (configLoop var) k e) (hk : Phase var k.scan (lines k.scan.mode k.rest) r) :
    e.scan.pick = r := by
  refine @WhileLoop.Ends.invariant Cursor (configLoop var) k e
    (fun k => Phase var k.scan (lines k.scan.mode k.rest) r) (fun k => k.scan.pick = r) h hk ?_ ?_ ?_
  · rintro ⟨s, rest⟩ hphase hguard
    cases rest with
    | nil => exact hphase.finish hvar
    | cons c t => cases hguard
  · rintro ⟨s, rest⟩ next hphase hguard hbody
    cases rest with
    | nil => cases hguard
    | cons c t =>
      cases hbody
      exact (stepped hlast hvar hphase).phase
  · rintro ⟨s, rest⟩ next hphase hguard hbody
    cases rest with
    | nil => cases hguard
    | cons c t => cases hbody

def charEq : UInt8 := 61

theorem processConfigVars_eq (hname : var.getLast? = some charEq) (buf : List UInt8) :
    ∃ v, (∀ fuel, buf.length < fuel → processConfigVars fuel buf var = some v) ∧
      (Clean var false (lines .text buf) → v = configValue var buf) := by
  have hvar : var ≠ [] := by
    rintro rfl
    cases hname
  have hlast : var.getLast? ≠ some charSpace := by
    rw [hname]
    decide
  obtain ⟨e, hends, hruns⟩ := configLoop_ends var ⟨Scan.start, buf⟩
  refine ⟨e.scan.pick, fun fuel hfuel => ?_, fun hclean => ?_⟩
  · rw [processConfigVars, hruns fuel hfuel, Option.map_some]
  · exact configLoop_pick hlast hvar hends (.idle rfl hclean)

theorem process_config_vars_law (hname : var.getLast? = some charEq) (buf : List UInt8) :
    ∃ v, (∀ fuel, buf.length < fuel → processConfigVars fuel buf var = some v) ∧
      (Clean var false (lines .text buf) → v = configValue var buf) :=
  processConfigVars_eq hname buf

def ccode : List UInt8 := [99, 99, 111, 100, 101, 61]

def countryText : List UInt8 :=
  [35, 99, 99, 10] ++ ccode ++ [85, 83, 13, 10, 120, 61, 49, 10] ++ ccode ++ [67, 92, 10, 78, 10]

theorem process_config_vars_law_country :
    ∃ v, (∀ fuel, countryText.length < fuel → processConfigVars fuel countryText ccode = some v) ∧
      (Clean ccode false (lines .text countryText) → v = configValue ccode countryText) :=
  process_config_vars_law rfl countryText

example : Clean ccode false (lines .text countryText) ∧ configValue ccode countryText = [67, 78] := by
  decide

theorem second_character_matched :
    ¬ ∀ fuel, (ccode ++ [85, 83, 10, 120] ++ ccode ++ [67, 78, 10]).length < fuel →
      processConfigVars fuel (ccode ++ [85, 83, 10, 120] ++ ccode ++ [67, 78, 10]) ccode =
        some (configValue ccode (ccode ++ [85, 83, 10, 120] ++ ccode ++ [67, 78, 10])) := by
  intro h
  have hrun := h 20 (by decide)
  revert hrun
  decide

end Ez
