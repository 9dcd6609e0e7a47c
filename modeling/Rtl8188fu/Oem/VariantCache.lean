import Mathlib.Data.UInt
import Mathlib.Data.List.Basic
import Mathlib.Data.List.Induction
import Mathlib.Data.List.Pairwise
import Mathlib.Data.List.Sort
import Mathlib.Logic.Function.Basic

namespace Oem

abbrev Text := List Char

namespace Text

-- the order of Python strings: by code points
def le : Text → Text → Bool
  | [], _ => true
  | _ :: _, [] => false
  | c :: cs, d :: ds => if c = d then le cs ds else decide (c.toNat < d.toNat)

def join (sep : Char) : List Text → Text
  | [] => []
  | [w] => w
  | w :: ws => w ++ sep :: join sep ws

def split (sep : Char) : Text → List Text
  | [] => [[]]
  | c :: cs =>
    if c = sep then [] :: split sep cs
    else
      match split sep cs with
      | [] => [[c]]
      | w :: ws => (c :: w) :: ws

variable {sep : Char} {w rest : Text} {ws : List Text}

theorem split_alone (h : sep ∉ w) : split sep w = [w] := by
  induction w with
  | nil => rfl
  | cons c w ih =>
    rw [List.mem_cons, not_or] at h
    rw [split, if_neg (Ne.symm h.1), ih h.2]

theorem split_field (h : sep ∉ w) : split sep (w ++ sep :: rest) = w :: split sep rest := by
  induction w with
  | nil => rw [List.nil_append, split, if_pos rfl]
  | cons c w ih =>
    rw [List.mem_cons, not_or] at h
    rw [List.cons_append, split, if_neg (Ne.symm h.1), ih h.2]

theorem split_join (hne : ws ≠ []) (h : ∀ w ∈ ws, sep ∉ w) : split sep (join sep ws) = ws := by
  induction ws with
  | nil => exact absurd rfl hne
  | cons w ws ih =>
    have hw := h w List.mem_cons_self
    cases ws with
    | nil => exact split_alone hw
    | cons v vs =>
      rw [join, split_field hw, ih (List.cons_ne_nil v vs) fun u hu => h u (List.mem_cons_of_mem w hu)]
      exact List.cons_ne_nil v vs

def showNat (n : ℕ) : Text := Nat.toDigits 10 n

def showInt : ℤ → Text
  | .ofNat n => showNat n
  | .negSucc n => '-' :: showNat (n + 1)

def readNat (w : Text) : Option ℕ :=
  if w ≠ [] ∧ w.all Char.isDigit then some (Nat.ofDigitChars 10 w 0) else none

def readInt : Text → Option ℤ
  | '-' :: w => (readNat w).map fun n => -(n : ℤ)
  | w => (readNat w).map fun n => (n : ℤ)

theorem showNat_digits {n : ℕ} {c : Char} (h : c ∈ showNat n) : c.isDigit = true :=
  Nat.isDigit_of_mem_toDigits (by decide) (by decide) h

theorem readNat_showNat (n : ℕ) : readNat (showNat n) = some n := by
  have hall : (showNat n).all Char.isDigit = true := List.all_eq_true.mpr fun _ hc => showNat_digits hc
  rw [readNat, if_pos ⟨Nat.toDigits_ne_nil, hall⟩]
  exact congrArg some Nat.ofDigitChars_ten_toDigits

theorem readInt_digits (h : ∀ c ∈ w, c.isDigit = true) :
    readInt w = (readNat w).map fun n => (n : ℤ) := by
  unfold readInt
  split
  · exact absurd (h '-' List.mem_cons_self) (by decide)
  · rfl

theorem readInt_showInt (z : ℤ) : readInt (showInt z) = some z := by
  cases z with
  | ofNat n =>
    rw [showInt, readInt_digits fun _ hc => showNat_digits hc, readNat_showNat]
    rfl
  | negSucc n =>
    rw [showInt, readInt, readNat_showNat]
    rfl

def numeral (c : Char) : Bool := c.isDigit || c == '-'

theorem showInt_numeral {z : ℤ} {c : Char} (h : c ∈ showInt z) : numeral c = true := by
  cases z with
  | ofNat n => exact Bool.or_eq_true_iff.mpr (.inl (showNat_digits h))
  | negSucc n =>
    rcases List.mem_cons.mp h with rfl | hdigit
    · rfl
    · exact Bool.or_eq_true_iff.mpr (.inl (showNat_digits hdigit))

theorem showInt_ne_nil (z : ℤ) : showInt z ≠ [] := by
  cases z with
  | ofNat n => exact Nat.toDigits_ne_nil
  | negSucc n => exact List.cons_ne_nil _ _

theorem not_mem_showInt {z : ℤ} {c : Char} (h : numeral c = false) : c ∉ showInt z :=
  fun hc => Bool.false_ne_true (h.symm.trans (showInt_numeral hc))

def strip (w : Text) : Text :=
  ((w.dropWhile Char.isWhitespace).reverse.dropWhile Char.isWhitespace).reverse

theorem dropWhile_solid {v : Text} (hne : w ≠ []) (h : ∀ c ∈ w, c.isWhitespace = false) :
    (w ++ v).dropWhile Char.isWhitespace = w ++ v := by
  cases w with
  | nil => exact absurd rfl hne
  | cons c w => exact List.dropWhile_cons_of_neg (by rw [h c List.mem_cons_self]; decide)

theorem numeral_solid {c : Char} (h : numeral c = true) : c.isWhitespace = false := by
  refine eq_false_of_ne_true fun hspace => ?_
  rw [Char.isWhitespace] at hspace
  simp only [Bool.or_eq_true, decide_eq_true_eq] at hspace
  rcases hspace with ((rfl | rfl) | rfl) | rfl <;> exact absurd h (by decide)

theorem strip_solid {u v : Text} (hw : w ++ u = v ++ rest) (hne : w ≠ []) (hrest : rest ≠ [])
    (hhead : ∀ c ∈ w, c.isWhitespace = false) (htail : ∀ c ∈ rest, c.isWhitespace = false) :
    strip (w ++ u) = w ++ u := by
  have hreverse : rest.reverse ≠ [] := fun h => hrest (List.reverse_eq_nil_iff.mp h)
  rw [strip, dropWhile_solid hne hhead, hw, List.reverse_append,
    dropWhile_solid hreverse fun c hc => htail c (List.mem_reverse.mp hc), List.reverse_append,
    List.reverse_reverse, List.reverse_reverse]

theorem strip_head {x : Text} (hne : w ≠ []) (h : ∀ c ∈ w, c.isWhitespace = false) :
    ∃ y, strip (w ++ x) = w ++ y := by
  have hreverse : w.reverse ≠ [] := fun hnil => hne (List.reverse_eq_nil_iff.mp hnil)
  have hsolid := dropWhile_solid (v := []) hreverse fun c hc => h c (List.mem_reverse.mp hc)
  rw [List.append_nil] at hsolid
  rw [strip, dropWhile_solid hne h, List.reverse_append, List.dropWhile_append]
  split
  · refine ⟨[], ?_⟩
    rw [hsolid, List.reverse_reverse, List.append_nil]
  · refine ⟨(x.reverse.dropWhile Char.isWhitespace).reverse, ?_⟩
    rw [List.reverse_append, List.reverse_reverse]

theorem join_last (hne : ws ≠ []) : ∃ pre, join sep ws = pre ++ ws.getLast hne := by
  induction ws with
  | nil => exact absurd rfl hne
  | cons w ws ih =>
    cases ws with
    | nil => exact ⟨[], rfl⟩
    | cons v vs =>
      obtain ⟨pre, hpre⟩ := ih (List.cons_ne_nil v vs)
      refine ⟨w ++ sep :: pre, ?_⟩
      rw [join, hpre, List.append_assoc, List.cons_append]
      · rfl
      · exact List.cons_ne_nil v vs

theorem mem_join {c : Char} (h : c ∈ join sep ws) : c = sep ∨ ∃ w ∈ ws, c ∈ w := by
  induction ws with
  | nil => exact absurd h List.not_mem_nil
  | cons w ws ih =>
    cases ws with
    | nil => exact .inr ⟨w, List.mem_cons_self, h⟩
    | cons v vs =>
      rw [join, List.mem_append, List.mem_cons] at h
      · rcases h with hw | hsep | hlater
        · exact .inr ⟨w, List.mem_cons_self, hw⟩
        · exact .inl hsep
        · rcases ih hlater with hsep | ⟨u, hu, hc⟩
          · exact .inl hsep
          · exact .inr ⟨u, List.mem_cons_of_mem w hu, hc⟩
      · exact List.cons_ne_nil v vs

end Text

structure Score where
  n : ℤ
  d : ℤ
  sd : ℤ
  deriving DecidableEq

abbrev Per := List (Text × Score)

inductive Result where
  | error (msg : Text)
  | scored (tot : ℤ) (per : Per)

def dictSet (per : Per) (kv : Text × Score) : Per := per.filter (fun e => e.1 ≠ kv.1) ++ [kv]

def dictOf (items : List (Text × Score)) : Per := items.foldl dictSet []

def sortItems (per : Per) : Per := per.mergeSort fun a b => Text.le a.1 b.1

def itemText (kv : Text × Score) : Text :=
  Text.join ',' [kv.1, Text.showInt kv.2.n, Text.showInt kv.2.d, Text.showInt kv.2.sd]

def errorMark : Text := ['E', 'R', 'R', 'O', 'R']

def cacheStore : Result → Text
  | .error msg => errorMark ++ ' ' :: (msg.map fun c => if c = '\n' then ' ' else c).take 400
  | .scored tot per => Text.showInt tot ++ '|' :: Text.join ';' ((sortItems per).map itemText)

def loadItem (w : Text) : Option (Text × Score) :=
  match Text.split ',' w with
  | k :: n :: d :: rest => do
    let n ← Text.readInt n
    let d ← Text.readInt d
    let sd ← Text.readInt (rest.headD ['0'])
    some (k, ⟨n, d, sd⟩)
  | _ => none

inductive Loaded where
  | missing
  | raised
  | got (r : Result)

def loadScores (line : Text) : Loaded :=
  match line.dropWhile (· ≠ '|') with
  | [] => .raised
  | _ :: rest =>
    match Text.readInt (line.takeWhile (· ≠ '|')),
        ((Text.split ';' rest).filter (· ≠ [])).mapM loadItem with
    | some tot, some items => .got (.scored tot (dictOf items))
    | _, _ => .raised

def cacheLoad : Option Text → Loaded
  | none => .missing
  | some text =>
    let line := Text.strip text
    if line = [] then .missing
    else if errorMark <+: line then .got (.error (line.drop 6))
    else loadScores line

def Kept : Result → Loaded → Prop
  | .error _, l => ∃ msg, l = .got (.error msg)
  | .scored tot per, l => ∃ per', l = .got (.scored tot per') ∧ per'.Perm per

structure Clean (per : Per) : Prop where
  comma : ∀ kv ∈ per, ',' ∉ kv.1
  semicolon : ∀ kv ∈ per, ';' ∉ kv.1
  once : (per.map Prod.fst).Nodup

section Stored

variable {per : Per} {kv : Text × Score} {tot : ℤ} {msg : Text}

theorem sortItems_perm (per : Per) : (sortItems per).Perm per := List.mergeSort_perm _ _

theorem Clean.perm {per' : Per} (h : Clean per) (hperm : per'.Perm per) : Clean per' :=
  ⟨fun kv hkv => h.comma kv (hperm.mem_iff.mp hkv), fun kv hkv => h.semicolon kv (hperm.mem_iff.mp hkv),
    (hperm.map Prod.fst).nodup_iff.mpr h.once⟩

theorem dictSet_new (h : kv.1 ∉ per.map Prod.fst) : dictSet per kv = per ++ [kv] := by
  have hall : per.filter (fun e => e.1 ≠ kv.1) = per := by
    refine List.filter_eq_self.mpr fun e he => decide_eq_true fun hsame => h ?_
    exact List.mem_map.mpr ⟨e, he, hsame⟩
  rw [dictSet, hall]

theorem dictOf_nodup (h : (per.map Prod.fst).Nodup) : dictOf per = per := by
  induction per using List.reverseRecOn with
  | nil => rfl
  | append_singleton per kv ih =>
    rw [List.map_append, List.nodup_append] at h
    obtain ⟨hper, -, hapart⟩ := h
    have hnew : kv.1 ∉ per.map Prod.fst := by
      exact fun hmem => hapart kv.1 hmem kv.1 (List.mem_singleton.mpr rfl) rfl
    rw [dictOf, List.foldl_append]
    have hold : per.foldl dictSet [] = per := ih hper
    rw [hold]
    exact dictSet_new hnew

theorem loadItem_itemText (h : ',' ∉ kv.1) : loadItem (itemText kv) = some kv := by
  have hfields : Text.split ',' (itemText kv) =
      [kv.1, Text.showInt kv.2.n, Text.showInt kv.2.d, Text.showInt kv.2.sd] := by
    refine Text.split_join (List.cons_ne_nil _ _) fun w hw => ?_
    simp only [List.mem_cons, List.not_mem_nil, or_false] at hw
    rcases hw with rfl | rfl | rfl | rfl
    · exact h
    · exact Text.not_mem_showInt (by decide)
    · exact Text.not_mem_showInt (by decide)
    · exact Text.not_mem_showInt (by decide)
  simp only [loadItem, hfields, List.headD_cons, Text.readInt_showInt, Option.bind_eq_bind,
    Option.bind_some]

theorem itemText_semicolon (h : ';' ∉ kv.1) : ';' ∉ itemText kv := by
  intro hmem
  rcases Text.mem_join hmem with hsep | ⟨w, hw, hc⟩
  · exact absurd hsep (by decide)
  · simp only [List.mem_cons, List.not_mem_nil, or_false] at hw
    rcases hw with rfl | rfl | rfl | rfl
    · exact h hc
    · exact Text.not_mem_showInt (by decide) hc
    · exact Text.not_mem_showInt (by decide) hc
    · exact Text.not_mem_showInt (by decide) hc

theorem itemText_tail (kv : Text × Score) : ∃ pre, itemText kv = pre ++ Text.showInt kv.2.sd :=
  Text.join_last (List.cons_ne_nil _ _)

theorem itemText_ne_nil (kv : Text × Score) : itemText kv ≠ [] := by
  obtain ⟨pre, hpre⟩ := itemText_tail kv
  rw [hpre]
  exact List.append_ne_nil_of_right_ne_nil pre (Text.showInt_ne_nil _)

theorem load_items (h : Clean per) :
    ((Text.split ';' (Text.join ';' (per.map itemText))).filter (· ≠ [])).mapM loadItem =
      some per := by
  have hitems (items : Per) (hclean : ∀ kv ∈ items, ',' ∉ kv.1) :
      (items.map itemText).mapM loadItem = some items := by
    induction items with
    | nil => rfl
    | cons kv items ih =>
      rw [List.map_cons, List.mapM_cons, loadItem_itemText (hclean kv List.mem_cons_self),
        ih fun e he => hclean e (List.mem_cons_of_mem kv he)]
      rfl
  cases per with
  | nil => rfl
  | cons kv per =>
    have hne : (kv :: per).map itemText ≠ [] := List.cons_ne_nil _ _
    have hsep : ∀ w ∈ (kv :: per).map itemText, ';' ∉ w := by
      intro w hw
      obtain ⟨e, he, rfl⟩ := List.mem_map.mp hw
      exact itemText_semicolon (h.semicolon e he)
    have hall : ((kv :: per).map itemText).filter (· ≠ []) = (kv :: per).map itemText := by
      refine List.filter_eq_self.mpr fun w hw => ?_
      obtain ⟨e, -, rfl⟩ := List.mem_map.mp hw
      exact decide_eq_true (itemText_ne_nil e)
    rw [Text.split_join hne hsep, hall, hitems _ h.comma]

theorem scores_tail (tot : ℤ) (per : Per) : ∃ pre tail,
    Text.showInt tot ++ '|' :: Text.join ';' (per.map itemText) = pre ++ tail ∧ tail ≠ [] ∧
      ∀ c ∈ tail, c.isWhitespace = false := by
  cases per with
  | nil =>
    refine ⟨Text.showInt tot, ['|'], rfl, List.cons_ne_nil _ _, fun c hc => ?_⟩
    rw [List.mem_singleton.mp hc]
    rfl
  | cons kv per =>
    have hne : (kv :: per).map itemText ≠ [] := List.cons_ne_nil _ _
    obtain ⟨pre, hpre⟩ := @Text.join_last ';' _ hne
    obtain ⟨e, -, he⟩ := List.mem_map.mp (List.getLast_mem hne)
    obtain ⟨front, hfront⟩ := itemText_tail e
    refine ⟨Text.showInt tot ++ '|' :: (pre ++ front), Text.showInt e.2.sd, ?_,
      Text.showInt_ne_nil _, fun c hc => Text.numeral_solid (Text.showInt_numeral hc)⟩
    rw [hpre, ← he, hfront, List.append_assoc, List.cons_append, List.append_assoc]

theorem strip_scores (tot : ℤ) (per : Per) :
    Text.strip (Text.showInt tot ++ '|' :: Text.join ';' (per.map itemText)) =
      Text.showInt tot ++ '|' :: Text.join ';' (per.map itemText) := by
  obtain ⟨pre, tail, hsplit, hne, hsolid⟩ := scores_tail tot per
  exact Text.strip_solid hsplit (Text.showInt_ne_nil tot) hne
    (fun c hc => Text.numeral_solid (Text.showInt_numeral hc)) hsolid

theorem scores_not_error (tot : ℤ) (rest : Text) : ¬ errorMark <+: Text.showInt tot ++ rest := by
  intro hprefix
  cases hshow : Text.showInt tot with
  | nil => exact Text.showInt_ne_nil tot hshow
  | cons c cs =>
    rw [hshow, errorMark, List.cons_append, List.cons_prefix_cons] at hprefix
    have hnumeral : Text.numeral c = true :=
      Text.showInt_numeral (by rw [hshow]; exact List.mem_cons_self)
    rw [← hprefix.1] at hnumeral
    exact absurd hnumeral (by decide)

theorem load_scores (h : Clean per) :
    cacheLoad (some (cacheStore (.scored tot per))) = .got (.scored tot (sortItems per)) := by
  have hsorted := h.perm (sortItems_perm per)
  have hbar : ∀ c ∈ Text.showInt tot, decide (c ≠ '|') = true := by
    intro c hc
    refine decide_eq_true fun hsame => ?_
    rw [hsame] at hc
    exact Text.not_mem_showInt (by decide) hc
  have hne : Text.showInt tot ++ '|' :: Text.join ';' ((sortItems per).map itemText) ≠ [] :=
    List.append_ne_nil_of_right_ne_nil _ (List.cons_ne_nil _ _)
  simp only [cacheLoad, cacheStore, strip_scores]
  rw [if_neg hne, if_neg (scores_not_error tot _), loadScores, List.dropWhile_append_of_pos hbar,
    List.takeWhile_append_of_pos hbar]
  have hstop : decide ('|' ≠ '|') = false := rfl
  rw [List.dropWhile_cons, hstop, if_neg Bool.false_ne_true, List.takeWhile_cons, hstop,
    if_neg Bool.false_ne_true, List.append_nil]
  simp only [Text.readInt_showInt, load_items hsorted, dictOf_nodup hsorted.once]

theorem load_error (msg : Text) :
    ∃ msg', cacheLoad (some (cacheStore (.error msg))) = .got (.error msg') := by
  have hsolid : ∀ c ∈ errorMark, c.isWhitespace = false := by
    intro c hc
    simp only [errorMark, List.mem_cons, List.not_mem_nil, or_false] at hc
    rcases hc with rfl | rfl | rfl | rfl | rfl <;> rfl
  obtain ⟨y, hy⟩ := Text.strip_head (w := errorMark)
    (x := ' ' :: (msg.map fun c => if c = '\n' then ' ' else c).take 400) (List.cons_ne_nil _ _) hsolid
  have hne : errorMark ++ y ≠ [] := List.append_ne_nil_of_left_ne_nil (List.cons_ne_nil _ _) y
  refine ⟨(errorMark ++ y).drop 6, ?_⟩
  simp only [cacheLoad, cacheStore, hy]
  rw [if_neg hne, if_pos (List.prefix_append errorMark y)]

theorem load_store {r : Result} (h : ∀ tot per, r = .scored tot per → Clean per) :
    Kept r (cacheLoad (some (cacheStore r))) := by
  cases r with
  | error msg => exact load_error msg
  | scored tot per => exact ⟨_, load_scores (h tot per rfl), sortItems_perm per⟩

end Stored

def get (per : Per) (f : Text) : Option Score := (per.find? fun e => e.1 = f).map Prod.snd

section Dict

variable {per per' rows : Per} {kv : Text × Score} {f : Text} {s : Score}

theorem get_cons (kv : Text × Score) (per : Per) (f : Text) :
    get (kv :: per) f = if kv.1 = f then some kv.2 else get per f := by
  rw [get, List.find?_cons]
  cases Decidable.em (kv.1 = f) with
  | inl hsame =>
    rw [if_pos hsame, decide_eq_true hsame]
    rfl
  | inr hother =>
    rw [if_neg hother, decide_eq_false hother]
    rfl

theorem get_eq_some (h : (per.map Prod.fst).Nodup) : get per f = some s ↔ (f, s) ∈ per := by
  induction per with
  | nil => exact iff_of_false (Option.some_ne_none s).symm List.not_mem_nil
  | cons kv per ih =>
    rw [List.map_cons, List.nodup_cons] at h
    rw [get_cons, List.mem_cons]
    split
    · rename_i hsame
      rw [Option.some_inj]
      constructor
      · rintro rfl
        exact .inl (Prod.ext hsame.symm rfl)
      · rintro (hhead | hlater)
        · rw [← hhead]
        · refine absurd (List.mem_map.mpr ⟨(f, s), hlater, ?_⟩) h.1
          exact hsame.symm
    · rename_i hother
      rw [ih h.2]
      refine ⟨.inr, fun hmem => hmem.resolve_left fun hhead => hother ?_⟩
      rw [← hhead]

theorem get_perm (hperm : per'.Perm per) (h : (per.map Prod.fst).Nodup) (f : Text) :
    get per' f = get per f := by
  have h' : (per'.map Prod.fst).Nodup := (hperm.map Prod.fst).nodup_iff.mpr h
  refine Option.ext fun s => ?_
  rw [get_eq_some h', get_eq_some h, hperm.mem_iff]

theorem get_append (per : Per) (kv : Text × Score) (f : Text) (hnew : kv.1 = f → get per f = none) :
    get (per ++ [kv]) f = if kv.1 = f then some kv.2 else get per f := by
  induction per with
  | nil => exact get_cons kv [] f
  | cons e per ih =>
    rw [get_cons] at hnew
    rw [List.cons_append, get_cons, get_cons]
    split
    · rename_i hhead
      split
      · rename_i hsame
        have hnone := hnew hsame
        rw [if_pos hhead] at hnone
        exact absurd hnone (Option.some_ne_none _)
      · rfl
    · rename_i hhead
      rw [if_neg hhead] at hnew
      exact ih hnew

theorem get_without (per : Per) (k f : Text) :
    get (per.filter fun e => e.1 ≠ k) f = if k = f then none else get per f := by
  induction per with
  | nil => exact (ite_self none).symm
  | cons e per ih =>
    cases Decidable.em (e.1 = k) with
    | inl hdrop =>
      rw [List.filter_cons_of_neg (by simpa using hdrop), ih, get_cons]
      split
      · rfl
      · rename_i hother
        rw [if_neg]
        exact fun hsame => hother (hdrop.symm.trans hsame)
    | inr hkeep =>
      rw [List.filter_cons_of_pos (by simpa using hkeep), get_cons, ih, get_cons]
      split
      · rename_i hsame
        rw [if_neg]
        exact fun hk => hkeep (hsame.trans hk.symm)
      · rfl

theorem get_dictSet (per : Per) (kv : Text × Score) (f : Text) :
    get (dictSet per kv) f = if kv.1 = f then some kv.2 else get per f := by
  rw [dictSet, get_append]
  · split
    · rfl
    · rename_i hother
      rw [get_without, if_neg hother]
  · intro hsame
    rw [get_without, if_pos hsame]

theorem dictOf_concat (rows : Per) (kv : Text × Score) :
    dictOf (rows ++ [kv]) = dictSet (dictOf rows) kv := by
  rw [dictOf, List.foldl_append]
  rfl

theorem get_dictOf (rows : Per) (f : Text) :
    get (dictOf rows) f = get (dictOf (rows.filter fun e => e.1 = f)) f := by
  induction rows using List.reverseRecOn with
  | nil => rfl
  | append_singleton rows kv ih =>
    rw [dictOf_concat, get_dictSet, List.filter_append]
    cases Decidable.em (kv.1 = f) with
    | inl hsame =>
      have hone : [kv].filter (fun e => e.1 = f) = [kv] :=
        List.filter_cons_of_pos (decide_eq_true hsame)
      rw [hone, dictOf_concat, get_dictSet, if_pos hsame, if_pos hsame]
    | inr hother =>
      have hnone : [kv].filter (fun e => e.1 = f) = [] := by
        rw [List.filter_cons_of_neg (by simpa using hother)]
        rfl
      rw [hnone, List.append_nil, if_neg hother, ih]

theorem mem_dictOf (h : kv ∈ dictOf rows) : kv ∈ rows := by
  induction rows using List.reverseRecOn with
  | nil => exact absurd h List.not_mem_nil
  | append_singleton rows e ih =>
    rw [dictOf_concat, dictSet, List.mem_append] at h
    cases h with
    | inl hold => exact List.mem_append_left _ (ih (List.mem_of_mem_filter hold))
    | inr hlast => exact List.mem_append_right _ hlast

theorem dictOf_once (rows : Per) : ((dictOf rows).map Prod.fst).Nodup := by
  induction rows using List.reverseRecOn with
  | nil => exact List.nodup_nil
  | append_singleton rows e ih =>
    rw [dictOf_concat, dictSet, List.map_append]
    refine List.nodup_append.mpr ⟨?_, List.nodup_singleton _, fun k hk k' hk' hsame => ?_⟩
    · exact ih.sublist (List.filter_sublist.map Prod.fst)
    · obtain ⟨e', he', rfl⟩ := List.mem_map.mp hk
      have hkept := of_decide_eq_true (List.mem_filter.mp he').2
      exact hkept (hsame.trans (List.mem_singleton.mp hk'))

end Dict

abbrev Source := List UInt8

-- compiler, SHA-256 prefix and the comparison of one function with the shipped one
structure Toolchain (Obj Ship Key : Type) where
  compile : Text → List Text → Source → Except Text Obj
  funcs : Ship → List Text
  row : Ship → Obj → Text → Option Score
  hash : Source → Key

structure Args (Ship : Type) where
  unit : Text
  fn : Option Text
  shipped : Ship
  extra : List Text

structure Variant where
  name : Text
  source : Source

structure LabRun (Ship : Type) where
  args : Args Ship
  variants : List Variant
  order : List Variant → List Variant
  perm : ∀ vs, (order vs).Perm vs

abbrev Cache (Key : Type) := Key → Option Text

def encode (w : Text) : Source := (String.ofList w).toUTF8.toList

def cacheVersion : Source := [0x76, 0x33]

def wanted (fn : Option Text) (name : Text) : Bool :=
  match fn with
  | none => true
  | some f => decide (name = f)

inductive Shown where
  | failed
  | focus (s : Score)
  | total (tot : ℤ)

structure Row where
  first : ℤ
  second : ℤ
  third : ℤ
  name : Text
  shown : Shown

def Row.le (r r' : Row) : Bool :=
  decide (r.first < r'.first ∨ r.first = r'.first ∧ (r.second < r'.second ∨ r.second = r'.second ∧
    (r.third < r'.third ∨ r.third = r'.third ∧ Text.le r.name r'.name = true)))

def rowOf (fn : Option Text) (name : Text) : Result → Row
  | .error _ => ⟨1000000000, 0, 0, name, .failed⟩
  | .scored tot per =>
    match fn with
    | some f =>
      let s := (get per f).getD ⟨100000000, 0, 100000000⟩
      ⟨s.sd, s.d.natAbs, s.n, name, .focus s⟩
    | none => ⟨0, 0, tot, name, .total tot⟩

namespace Toolchain

variable {Obj Ship Key : Type} (T : Toolchain Obj Ship Key)

def rows (ship : Ship) (obj : Obj) (fn : Option Text) : Per :=
  ((T.funcs ship).filter (wanted fn)).filterMap fun name => (T.row ship obj name).map (name, ·)

def score (ship : Ship) (obj : Obj) (fn : Option Text) : Result :=
  .scored ((T.rows ship obj fn).map fun e => e.2.n).sum (dictOf (T.rows ship obj fn))

def evaluate (a : Args Ship) (source : Source) : Result :=
  match T.compile a.unit a.extra source with
  | .error msg => .error msg
  | .ok obj => T.score a.shipped obj a.fn

def key (a : Args Ship) (source : Source) : Key :=
  T.hash (source ++ encode (Text.join ' ' a.extra) ++ cacheVersion)

def fetch (cache : Cache Key) (a : Args Ship) (v : Variant) : Option Result :=
  match cacheLoad (cache (T.key a v.source)) with
  | .missing => some (T.evaluate a v.source)
  | .raised => none
  | .got r => some r

def isMissing : Loaded → Bool
  | .missing => true
  | _ => false

def todo (cache : Cache Key) (r : LabRun Ship) : List Variant :=
  r.variants.filter fun v => isMissing (cacheLoad (cache (T.key r.args v.source)))

def ranking (cache : Cache Key) (r : LabRun Ship) : Option (List Row) :=
  (r.variants.mapM fun v => (T.fetch cache r.args v).map (rowOf r.args.fn v.name)).map
    (·.mergeSort Row.le)

variable [DecidableEq Key]

def store (a : Args Ship) (cache : Cache Key) (v : Variant) : Cache Key :=
  Function.update cache (T.key a v.source) (some (cacheStore (T.evaluate a v.source)))

def after (cache : Cache Key) (r : LabRun Ship) : Cache Key :=
  (r.order (T.todo cache r)).foldl (T.store r.args) cache

def emptyCache : Cache Key := fun _ => none

def cacheOf (runs : List (LabRun Ship)) : Cache Key := runs.foldl T.after emptyCache

def Transparent (runs : List (LabRun Ship)) : Prop :=
  ∀ pre r post, runs = pre ++ r :: post →
    T.ranking (T.cacheOf pre) r = T.ranking emptyCache r ∧
      ∀ v ∈ r.variants, Kept (T.evaluate r.args v.source)
        (cacheLoad (some (cacheStore (T.evaluate r.args v.source))))

def CleanNames (ship : Ship) : Prop := ∀ k ∈ T.funcs ship, ',' ∉ k ∧ ';' ∉ k

structure SameInputs (a a' : Args Ship) (source source' : Source) : Prop where
  unit : a.unit = a'.unit
  extra : a.extra = a'.extra
  shipped : a.shipped = a'.shipped
  source : source = source'
  focus : a.fn = none ∨ a.fn = a'.fn

def Safe (r r' : LabRun Ship) : Prop :=
  ∀ v ∈ r.variants, ∀ v' ∈ r'.variants, T.key r.args v.source = T.key r'.args v'.source →
    SameInputs r.args r'.args v.source v'.source

end Toolchain

section Runs

variable {Obj Ship Key : Type} {T : Toolchain Obj Ship Key} {ship : Ship} {obj : Obj}
  {a a' : Args Ship} {source source' : Source} {f : Text} {fn : Option Text} {r : Result}

theorem mem_rows {kv : Text × Score} (h : kv ∈ T.rows ship obj fn) : kv.1 ∈ T.funcs ship := by
  obtain ⟨name, hname, hrow⟩ := List.mem_filterMap.mp h
  obtain ⟨s, -, rfl⟩ := Option.map_eq_some_iff.mp hrow
  exact List.mem_of_mem_filter hname

theorem rows_focus (ship : Ship) (obj : Obj) (f : Text) :
    T.rows ship obj (some f) = (T.rows ship obj none).filter fun e => e.1 = f := by
  rw [Toolchain.rows, Toolchain.rows]
  induction T.funcs ship with
  | nil => rfl
  | cons name names ih =>
    have hall : wanted none name = true := rfl
    rw [List.filter_cons_of_pos hall, List.filterMap_cons]
    cases Decidable.em (name = f) with
    | inl hsame =>
      have hwanted : wanted (some f) name = true := decide_eq_true hsame
      rw [List.filter_cons_of_pos hwanted, List.filterMap_cons]
      cases T.row ship obj name with
      | none => exact ih
      | some s =>
        have hkeep : decide ((name, s).1 = f) = true := decide_eq_true hsame
        simp only [Option.map_some]
        rw [List.filter_cons, if_pos hkeep, ih]
    | inr hother =>
      have hskip : ¬ wanted (some f) name = true := fun h => hother (of_decide_eq_true h)
      rw [List.filter_cons_of_neg hskip]
      cases T.row ship obj name with
      | none => exact ih
      | some s =>
        have hdrop : ¬ decide ((name, s).1 = f) = true := fun h => hother (of_decide_eq_true h)
        simp only [Option.map_some]
        rw [List.filter_cons, if_neg hdrop, ih]

theorem score_focus (ship : Ship) (obj : Obj) (f : Text) :
    get (dictOf (T.rows ship obj none)) f = get (dictOf (T.rows ship obj (some f))) f := by
  rw [get_dictOf, rows_focus]

theorem clean_dictOf (h : T.CleanNames ship) : Clean (dictOf (T.rows ship obj fn)) :=
  ⟨fun _ hkv => (h _ (mem_rows (mem_dictOf hkv))).1, fun _ hkv => (h _ (mem_rows (mem_dictOf hkv))).2,
    dictOf_once _⟩

theorem clean_evaluate (h : T.CleanNames a.shipped) (tot : ℤ) (per : Per)
    (hscored : T.evaluate a source = .scored tot per) : Clean per := by
  rw [Toolchain.evaluate] at hscored
  split at hscored
  · exact Result.noConfusion hscored
  · obtain ⟨-, rfl⟩ := Result.scored.inj hscored
    exact clean_dictOf h

theorem rowOf_perm {per per' : Per} {tot : ℤ} (hperm : per'.Perm per)
    (h : (per.map Prod.fst).Nodup) (name : Text) :
    rowOf fn name (.scored tot per') = rowOf fn name (.scored tot per) := by
  cases fn with
  | none => rfl
  | some f => rw [rowOf, rowOf, get_perm hperm h]

theorem rowOf_get {per per' : Per} {tot tot' : ℤ} (h : get per' f = get per f) (name : Text) :
    rowOf (some f) name (.scored tot' per') = rowOf (some f) name (.scored tot per) := by
  rw [rowOf, rowOf, h]

theorem kept_got {l : Loaded} (h : Kept r l) : ∃ r', l = .got r' := by
  cases r with
  | error msg =>
    obtain ⟨msg', hmsg⟩ := h
    exact ⟨_, hmsg⟩
  | scored tot per =>
    obtain ⟨per', hper, -⟩ := h
    exact ⟨_, hper⟩

theorem row_same (hnames : T.CleanNames a.shipped) (h : Toolchain.SameInputs a a' source source')
    (hkept : Kept (T.evaluate a source) (.got r)) (name : Text) :
    rowOf a'.fn name r = rowOf a'.fn name (T.evaluate a' source') := by
  obtain ⟨hunit, hextra, hshipped, hsource, hfocus⟩ := h
  rw [Toolchain.evaluate] at hkept
  rw [Toolchain.evaluate, ← hunit, ← hextra, ← hshipped, ← hsource]
  cases hcompile : T.compile a.unit a.extra source with
  | error msg =>
    rw [hcompile] at hkept
    obtain ⟨msg', hmsg⟩ := hkept
    rw [Loaded.got.inj hmsg]
    rfl
  | ok obj =>
    rw [hcompile] at hkept
    have hdict : Clean (dictOf (T.rows a.shipped obj a.fn)) := clean_dictOf hnames
    obtain ⟨per', hper, hperm⟩ := hkept
    rw [Loaded.got.inj hper]
    have hsameRow (hfn : a.fn = a'.fn) : rowOf a'.fn name
          (.scored ((T.rows a.shipped obj a.fn).map fun e => e.2.n).sum per') =
        rowOf a'.fn name (T.score a.shipped obj a'.fn) := by
      rw [← hfn]
      exact rowOf_perm hperm hdict.once name
    cases hfocus with
    | inr hfn => exact hsameRow hfn
    | inl hall =>
      cases hfn : a'.fn with
      | none =>
        rw [← hfn]
        exact hsameRow (hall.trans hfn.symm)
      | some f =>
        have hgot := get_perm hperm hdict.once f
        rw [hall, score_focus] at hgot
        exact rowOf_get hgot name

variable {cache : Cache Key} {runs : List (LabRun Ship)} {run : LabRun Ship}

structure Sourced (T : Toolchain Obj Ship Key) (runs : List (LabRun Ship)) (cache : Cache Key) :
    Prop where
  from_run : ∀ k text, cache k = some text → ∃ r ∈ runs, ∃ v ∈ r.variants,
    T.key r.args v.source = k ∧ text = cacheStore (T.evaluate r.args v.source)

theorem Sourced.mono {runs' : List (LabRun Ship)} (h : Sourced T runs cache)
    (hmono : ∀ r ∈ runs, r ∈ runs') : Sourced T runs' cache := by
  refine ⟨fun k text hk => ?_⟩
  obtain ⟨r, hr, hrest⟩ := h.from_run k text hk
  exact ⟨r, hmono r hr, hrest⟩

section Cached

variable [DecidableEq Key]

theorem Sourced.store {v : Variant} (h : Sourced T runs cache) (hrun : run ∈ runs)
    (hv : v ∈ run.variants) : Sourced T runs (T.store run.args cache v) := by
  refine ⟨fun k text hk => ?_⟩
  rw [Toolchain.store, Function.update_apply] at hk
  split at hk
  · rename_i hkey
    exact ⟨run, hrun, v, hv, hkey.symm, (Option.some_inj.mp hk).symm⟩
  · exact h.from_run k text hk

theorem Sourced.after (h : Sourced T runs cache) (run : LabRun Ship) :
    Sourced T (runs ++ [run]) (T.after cache run) := by
  have hrun : run ∈ runs ++ [run] := List.mem_append_right _ (List.mem_singleton.mpr rfl)
  have hsub : ∀ v ∈ run.order (T.todo cache run), v ∈ run.variants :=
    fun v hv => List.mem_of_mem_filter ((run.perm _).mem_iff.mp hv)
  have hall (vs : List Variant) (cache : Cache Key) (hcache : Sourced T (runs ++ [run]) cache)
      (hvs : ∀ v ∈ vs, v ∈ run.variants) :
      Sourced T (runs ++ [run]) (vs.foldl (T.store run.args) cache) := by
    induction vs generalizing cache with
    | nil => exact hcache
    | cons v vs ih =>
      exact ih _ (hcache.store hrun (hvs v List.mem_cons_self)) fun u hu =>
        hvs u (List.mem_cons_of_mem v hu)
  exact hall _ _ (h.mono fun r hr => List.mem_append_left _ hr) hsub

theorem sourced_cacheOf (T : Toolchain Obj Ship Key) (runs : List (LabRun Ship)) :
    Sourced T runs (T.cacheOf runs) := by
  induction runs using List.reverseRecOn with
  | nil => exact ⟨fun k text hk => absurd hk.symm (Option.some_ne_none text)⟩
  | append_singleton runs run ih =>
    rw [Toolchain.cacheOf, List.foldl_append]
    exact ih.after run

end Cached

theorem fetch_row (hsourced : Sourced T runs cache)
    (hnames : ∀ r ∈ runs, T.CleanNames r.args.shipped) (hsafe : ∀ r ∈ runs, T.Safe r run)
    {v : Variant} (hv : v ∈ run.variants) :
    (T.fetch cache run.args v).map (rowOf run.args.fn v.name) =
      (T.fetch Toolchain.emptyCache run.args v).map (rowOf run.args.fn v.name) := by
  have hempty : T.fetch Toolchain.emptyCache run.args v = some (T.evaluate run.args v.source) := rfl
  rw [hempty, Option.map_some, Toolchain.fetch]
  cases hcache : cache (T.key run.args v.source) with
  | none => rfl
  | some text =>
    obtain ⟨r, hr, u, hu, hkey, rfl⟩ := hsourced.from_run _ _ hcache
    have hkept : Kept (T.evaluate r.args u.source)
        (cacheLoad (some (cacheStore (T.evaluate r.args u.source)))) :=
      load_store fun tot per hscored => clean_evaluate (hnames r hr) tot per hscored
    obtain ⟨r', hgot⟩ := kept_got hkept
    rw [hgot] at hkept ⊢
    exact congrArg some (row_same (hnames r hr) (hsafe r hr u hu v hv hkey) hkept v.name)

theorem mapM_congr {A B : Type} {g g' : A → Option B} {xs : List A} (h : ∀ x ∈ xs, g x = g' x) :
    xs.mapM g = xs.mapM g' := by
  induction xs with
  | nil => rfl
  | cons x xs ih =>
    rw [List.mapM_cons, List.mapM_cons, h x List.mem_cons_self,
      ih fun y hy => h y (List.mem_cons_of_mem x hy)]

variable [DecidableEq Key]

theorem cache_transparent (T : Toolchain Obj Ship Key) (runs : List (LabRun Ship))
    (hnames : ∀ r ∈ runs, T.CleanNames r.args.shipped) (hsafe : runs.Pairwise T.Safe) :
    T.Transparent runs := by
  rintro pre run post rfl
  have hpre : ∀ r ∈ pre, T.CleanNames r.args.shipped :=
    fun r hr => hnames r (List.mem_append_left _ hr)
  have hbefore : ∀ r ∈ pre, T.Safe r run :=
    fun r hr => (List.pairwise_append.mp hsafe).2.2 r hr run List.mem_cons_self
  refine ⟨?_, fun v _ => load_store fun tot per hscored => ?_⟩
  · rw [Toolchain.ranking, Toolchain.ranking, mapM_congr fun v hv =>
      fetch_row (sourced_cacheOf T pre) hpre hbefore hv]
  · exact clean_evaluate (hnames run (List.mem_append_right _ List.mem_cons_self)) tot per hscored

def demoTool : Toolchain Source Bool Source where
  compile _ _ source := .ok source
  funcs _ := [['f'], ['g']]
  row _ _ name := some ⟨if name = ['g'] then 1 else 0, 0, 0⟩
  hash source := source

def demoRun (fn : Option Text) : LabRun Bool where
  args := ⟨['e', 'z'], fn, true, []⟩
  variants := [⟨['a', '.', 'c'], [0]⟩]
  order := id
  perm _ := .refl _

theorem cache_transparent_same_focus : demoTool.Transparent [demoRun none, demoRun (some ['f'])] := by
  refine cache_transparent demoTool _ (fun r hr k hk => ?_) ?_
  · have hnames : ∀ k ∈ demoTool.funcs r.args.shipped, ',' ∉ k ∧ ';' ∉ k := by
      change ∀ k ∈ [['f'], ['g']], ',' ∉ k ∧ ';' ∉ k
      decide
    exact hnames k hk
  · refine List.pairwise_pair.mpr fun v hv v' hv' _ => ?_
    rw [List.mem_singleton.mp hv, List.mem_singleton.mp hv']
    exact ⟨rfl, rfl, rfl, rfl, .inl rfl⟩

def focusPer : Per := [(['f'], ⟨0, 0, 0⟩)]

theorem focusPer_clean : Clean focusPer :=
  ⟨by decide, by decide, by decide⟩

theorem demo_cached : demoTool.cacheOf [demoRun (some ['f'])] (demoTool.key (demoRun none).args [0]) =
    some (cacheStore (.scored 0 focusPer)) := by
  change Function.update Toolchain.emptyCache (demoTool.key (demoRun none).args [0])
    (some (cacheStore (.scored 0 focusPer))) (demoTool.key (demoRun none).args [0]) = _
  exact Function.update_self _ _ _

theorem focused_score_served_as_total :
    ¬ demoTool.Transparent [demoRun (some ['f']), demoRun none] := by
  intro h
  have hsame := (h [demoRun (some ['f'])] (demoRun none) [] rfl).1
  have hfetch : demoTool.fetch (demoTool.cacheOf [demoRun (some ['f'])]) (demoRun none).args
      ⟨['a', '.', 'c'], [0]⟩ = some (.scored 0 (sortItems focusPer)) := by
    rw [Toolchain.fetch, demo_cached, load_scores focusPer_clean]
  have hcached : demoTool.ranking (demoTool.cacheOf [demoRun (some ['f'])]) (demoRun none) =
      some [⟨0, 0, 0, ['a', '.', 'c'], .total 0⟩] := by
    have hvariants : (demoRun none).variants = [⟨['a', '.', 'c'], [0]⟩] := rfl
    rw [Toolchain.ranking, hvariants, List.mapM_cons, List.mapM_nil, hfetch]
    exact congrArg some (List.mergeSort_singleton _)
  have hempty : demoTool.ranking Toolchain.emptyCache (demoRun none) =
      some [⟨0, 0, 1, ['a', '.', 'c'], .total 1⟩] :=
    congrArg some (List.mergeSort_singleton _)
  rw [hcached, hempty] at hsame
  have hthird := congrArg Row.third (List.cons.inj (Option.some_inj.mp hsame)).1
  exact absurd hthird (by decide)

end Runs

end Oem
