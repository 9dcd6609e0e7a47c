import Mathlib.Data.List.TakeWhile
import Rtl8188fu.Wnm.NbParse
import Rtl8188fu.Wnm.Sorting

namespace Wnm

open ByteMemory Tlv

section Preference

variable {t : Element} {us : List Element} {rest : List UInt8}

def Stray (area : List UInt8) : Prop :=
  (∀ u ∈ (decode area).1, u.id ≠ candPrefSubeid) ∧
    ∃ len x xs, (decode area).2 = candPrefSubeid :: len :: x :: xs ∧ x ≠ 0

theorem foundPref_eq (us : List Element) (rest : List UInt8) :
    foundPref us rest =
      match us.find? isPref with
      | some u => u.body.head?
      | none => foundPref [] rest := by
  induction us with
  | nil => rfl
  | cons u us ih =>
    rw [foundPref_cons]
    cases Decidable.em (u.id = candPrefSubeid) with
    | inl hhit => rw [if_pos hhit, List.find?_cons_of_pos (p := isPref) (decide_eq_true hhit)]
    | inr hmiss =>
      rw [if_neg hmiss, List.find?_cons_of_neg (p := isPref) (fun h => hmiss (of_decide_eq_true h))]
      exact ih

theorem foundPref_rest (rest : List UInt8) : (foundPref [] rest).getD 0 ≠ 0 ↔
    ∃ len x xs, rest = candPrefSubeid :: len :: x :: xs ∧ x ≠ 0 := by
  match rest with
  | [] | [_] | [_, _] =>
    refine iff_of_false (fun h => h rfl) ?_
    rintro ⟨_, _, _, heq, -⟩
    simp at heq
  | id :: len :: x :: xs =>
    rw [foundPref]
    cases Decidable.em (id = candPrefSubeid) with
    | inl hhit =>
      rw [if_pos hhit]
      constructor
      · exact fun hx => ⟨len, x, xs, by rw [hhit], hx⟩
      · rintro ⟨_, _, _, heq, hx⟩
        simp only [List.cons.injEq] at heq
        rw [Option.getD_some, heq.2.2.1]
        exact hx
    | inr hmiss =>
      rw [if_neg hmiss]
      refine iff_of_false (fun h => h rfl) ?_
      rintro ⟨_, _, _, heq, -⟩
      exact hmiss (List.cons.inj heq).1

theorem areaPref_cases (area : List UInt8) :
    ((areaPref area).getD 0 = wantPref area ∧ ¬ Stray area) ∨
      ((areaPref area).getD 0 ≠ 0 ∧ wantPref area = 0 ∧ Stray area) := by
  rw [areaPref, wantPref, foundPref_eq]
  cases hfind : (decode area).1.find? isPref with
  | some u =>
    refine .inl ⟨rfl, fun hstray => ?_⟩
    exact hstray.1 u (List.mem_of_find?_eq_some hfind)
      (of_decide_eq_true (List.find?_some (p := isPref) hfind))
  | none =>
    have hnone : ∀ u ∈ (decode area).1, u.id ≠ candPrefSubeid := fun u hu heq =>
      List.find?_eq_none.mp hfind u hu (decide_eq_true heq)
    cases Classical.em ((foundPref [] (decode area).2).getD 0 = 0) with
    | inl hzero =>
      refine .inl ⟨hzero, fun hstray => ?_⟩
      exact (foundPref_rest _).mpr hstray.2 hzero
    | inr hsome => exact .inr ⟨hsome, rfl, hnone, (foundPref_rest _).mp hsome⟩

end Preference

def leading (bs : List UInt8) : List Element :=
  ((decode bs).1.takeWhile fun t => decide (Complete t)).take rtwMaxNbRptNum

def behind (bs : List UInt8) : List UInt8 := bs.drop (encode (leading bs)).length

theorem encode_leading (bs : List UInt8) : encode (leading bs) ++ behind bs = bs := by
  obtain ⟨hsplit, -⟩ := encode_decode bs
  have hinit : leading bs <+: (decode bs).1 :=
    (List.take_prefix _ _).trans (List.takeWhile_prefix _)
  obtain ⟨us, hus⟩ := hinit
  have hbs : encode (leading bs) ++ (encode us ++ (decode bs).2) = bs := by
    rw [← List.append_assoc, ← encode_append, hus, hsplit]
  have hbehind := congrArg (List.drop (encode (leading bs)).length) hbs
  rw [List.drop_left] at hbehind
  rw [behind, ← hbehind, hbs]

theorem leading_complete {bs : List UInt8} : ∀ t ∈ leading bs, Complete t := fun _ ht =>
  of_decide_eq_true (List.mem_takeWhile_imp (p := fun t => decide (Complete t))
    (List.mem_of_mem_take ht))

theorem length_leading (bs : List UInt8) : (leading bs).length ≤ rtwMaxNbRptNum :=
  List.length_take_le _ _

structure Survey where
  malloc : Bool
  fromBtm : Bool
  bs : List UInt8
  m : Mem UInt8
  pframe : ℕ
  held : Holds m pframe bs

def NbInfo.init : NbInfo where
  nbRpt := List.replicate rtwMaxNbRptNum ⟨0, 0, Vector.replicate 6 0, Vector.replicate 4 0, 0, 0, 0, 0⟩
  nbRptSlots := List.length_replicate
  nbRptChList := List.replicate rtwMaxNbRptNum 0
  nbRptValid := false
  nbRptChListNum := 0
  preferenceEn := false
  lastNbRptEntries := 0
  nbRptIsSame := false

def survey (nb : NbInfo) (e : Survey) : SurveyRun :=
  rtwWnmBtmCandidatesSurvey e.malloc e.m e.pframe e.bs.length e.fromBtm nb

def surveyStep (nb : NbInfo) (e : Survey) : NbInfo := (survey nb e).nb

def stored (nb : NbInfo) : List NbRptHdr := nb.nbRpt.take nb.lastNbRptEntries

def storedChannels (nb : NbInfo) : List ℕ := nb.nbRptChList.take nb.nbRptChListNum

structure Stored (ts : List Element) (fromBtm : Bool) (old : NbInfo) (r : SurveyRun) : Prop where
  entries : (stored r.nb).map NbRptHdr.fields = r.candidates.map fun c => c.nbRpt.fields
  inOrder : fromBtm = false → (r.candidates.map fun c => c.nbRpt.fields) = ts.map rptOf
  preferences : fromBtm = true → (r.candidates.map fun c => (c.nbRpt.fields, c.preference)).Perm
    (ts.map fun t => (rptOf t, wantPref (subelements t)))
  ranked : fromBtm = true → r.candidates.Pairwise fun c d => d.preference ≤ c.preference
  channelsOnce : (storedChannels r.nb).Nodup
  channels : ∀ c, c ∈ storedChannels r.nb ↔ c ≠ 0 ∧ ∃ t ∈ ts, (rptOf t).chNum.toNat = c
  same : r.nb.nbRptIsSame = true ↔ stored r.nb = stored old

structure Right (nb : NbInfo) (e : Survey) : Prop where
  reads : ∀ o ∈ (survey nb e).reads, e.pframe ≤ o ∧ o < e.pframe + e.bs.length
  fails : (survey nb e).ret = false → (survey nb e).nb = nb
  stores : (survey nb e).ret = true → Stored (leading e.bs) e.fromBtm nb (survey nb e)

structure SoundString (nb : NbInfo) (fromBtm : Bool) (bs : List UInt8) : Prop where
  header : 2 ≤ bs.length
  ends : (leading bs).length = rtwMaxNbRptNum ∨ ¬ Taken (behind bs)
  room : leading bs = [] ∨ 2 ≤ (behind bs).length
  prefs : fromBtm = true → ∀ t ∈ leading bs, ¬ Stray (subelements t)
  fresh : leading bs = [] → nb.nbRptChListNum = 0

def Refused (e : Survey) : Prop := e.fromBtm = true ∧ e.malloc = false

def Sound (nb : NbInfo) (e : Survey) : Prop := Refused e ∨ SoundString nb e.fromBtm e.bs

section Parsed

variable {fromBtm : Bool} {m : Mem UInt8} {p : ℕ} {bs : List UInt8} {t : Element} {ts : List Element}
variable {xs tail : List UInt8}

theorem hdrAt_fields (ht : Complete t) (xs : List UInt8) :
    (hdrAt (t.bytes ++ xs)).fields = rptOf t := by
  have hbody := ht.2
  have hsize := Element.length_bytes t
  have hbyte (i : ℕ) (hi : i < 15) : (t.bytes ++ xs).getD i 0 = t.bytes.getD i 0 :=
    List.getD_append _ _ _ _ (by omega)
  rw [hdrAt, rptOf, nbRptAt, nbRptAt, NbRptHdr.fields, NbRptHdr.fields, NbRptHdr.mk.injEq]
  refine ⟨hbyte 0 (by decide), hbyte 1 (by decide), ?_, ?_, hbyte 12 (by decide),
    hbyte 13 (by decide), hbyte 14 (by decide), rfl⟩
  · refine Vector.ext fun i hi => ?_
    rw [Vector.getElem_ofFn, Vector.getElem_ofFn]
    exact hbyte (0 + 2 + i) (by omega)
  · refine Vector.ext fun i hi => ?_
    rw [Vector.getElem_ofFn, Vector.getElem_ofFn]
    exact hbyte (0 + 8 + i) (by omega)

theorem candsOf_fields (hts : ∀ t ∈ ts, Complete t) (tail : List UInt8) :
    ((candsOf fromBtm ts tail).map fun c => (c.nbRpt.fields, c.preference)) =
      ts.map fun t => (rptOf t, codePref fromBtm t) := by
  induction ts with
  | nil => rfl
  | cons t ts ih =>
    rw [candsOf, List.map_cons, List.map_cons, hdrAt_fields (hts t List.mem_cons_self),
      ih fun u hu => hts u (List.mem_cons_of_mem t hu)]

theorem length_candsOf (fromBtm : Bool) (ts : List Element) (tail : List UInt8) :
    (candsOf fromBtm ts tail).length = ts.length := by
  induction ts with
  | nil => rfl
  | cons t ts ih => rw [candsOf, List.length_cons, List.length_cons, ih]

theorem anyPref_false (h : anyPref fromBtm ts = false) : ∀ t ∈ ts, codePref fromBtm t = 0 := by
  intro t ht
  cases fromBtm with
  | false => rfl
  | true =>
    have hnone := List.any_eq_false.mp h t ht
    rw [Bool.true_and, Bool.not_eq_true, Option.isSome_eq_false_iff, Option.isNone_iff_eq_none] at hnone
    rw [codePref, if_pos rfl, hnone]
    rfl

end Parsed

section Outcome

variable {nb : NbInfo} {e : Survey}

def scan (e : Survey) : ElemScan :=
  rtwWnmNbElemParsing e.fromBtm e.m e.pframe e.bs.length

theorem survey_refused (h : Refused e) (nb : NbInfo) : survey nb e = ⟨nb, [], [], false⟩ := by
  rw [survey, rtwWnmBtmCandidatesSurvey, h.1, h.2]
  rfl

theorem survey_ret (h : ¬ Refused e) (nb : NbInfo) :
    (survey nb e).ret = true ∧ (survey nb e).reads = (scan e).reads := by
  have hopen : ¬ (e.fromBtm && !e.malloc) = true := by
    rw [Bool.and_eq_true, Bool.not_eq_true']
    exact h
  rw [survey, rtwWnmBtmCandidatesSurvey, if_neg hopen]
  exact ⟨rfl, rfl⟩

def prefers (nb : NbInfo) (e : Survey) : Bool := if e.fromBtm then (scan e).bfound else nb.preferenceEn

theorem survey_candidates (h : ¬ Refused e) (nb : NbInfo) :
    (survey nb e).candidates =
      if e.fromBtm && prefers nb e then
        rtwWnmCandidatesSorting ((scan e).entries.length - 1) (scan e).entries
      else (scan e).entries := by
  have hopen : ¬ (e.fromBtm && !e.malloc) = true := by
    rw [Bool.and_eq_true, Bool.not_eq_true']
    exact h
  rw [survey, rtwWnmBtmCandidatesSurvey, if_neg hopen]
  rfl

theorem survey_perm (h : ¬ Refused e) (nb : NbInfo) :
    (survey nb e).candidates.Perm (scan e).entries := by
  rw [survey_candidates h]
  split
  · exact rtwWnmCandidatesSorting_perm _ _
  · rfl

theorem survey_nb (h : ¬ Refused e) (nb : NbInfo) :
    (survey nb e).nb.nbRpt = putRpts nb.nbRpt ((survey nb e).candidates.map WnmBtmCant.nbRpt) ∧
      (survey nb e).nb.lastNbRptEntries = (scan e).entries.length ∧
      (survey nb e).nb.nbRptIsSame =
        (sameRpts nb.nbRpt ((survey nb e).candidates.map WnmBtmCant.nbRpt) &&
          decide ((scan e).entries.length = nb.lastNbRptEntries)) ∧
      (⟨(survey nb e).nb.nbRptChList, (survey nb e).nb.nbRptChListNum⟩ : ChList) =
        if (scan e).entries.length = 0 then
          ⟨List.replicate rtwMaxNbRptNum 0, nb.nbRptChListNum⟩
        else nbChannels (List.replicate rtwMaxNbRptNum 0)
          ((survey nb e).candidates.map WnmBtmCant.nbRpt) := by
  have hopen : ¬ (e.fromBtm && !e.malloc) = true := by
    rw [Bool.and_eq_true, Bool.not_eq_true']
    exact h
  rw [survey, rtwWnmBtmCandidatesSurvey, if_neg hopen]
  exact ⟨rfl, rfl, rfl, rfl⟩

theorem length_scan (e : Survey) : (scan e).entries.length ≤ rtwMaxNbRptNum :=
  length_nbElemLoop _ _ _ _ _ _ _

theorem length_candidates (h : ¬ Refused e) (nb : NbInfo) :
    ((survey nb e).candidates.map WnmBtmCant.nbRpt).length = (scan e).entries.length := by
  rw [List.length_map, (survey_perm h nb).length_eq]

theorem stored_survey (h : ¬ Refused e) (nb : NbInfo) :
    stored (survey nb e).nb = (survey nb e).candidates.map WnmBtmCant.nbRpt := by
  obtain ⟨hrpts, hlast, -, -⟩ := survey_nb h nb
  have hsize := length_candidates h nb
  have hroom := length_scan e
  have hfit := List.take_of_length_le (by rw [hsize, nb.nbRptSlots]; exact hroom :
    ((survey nb e).candidates.map WnmBtmCant.nbRpt).length ≤ nb.nbRpt.length)
  rw [stored, hrpts, hlast, putRpts, hfit, ← hsize, List.take_left]

theorem sameRpts_iff {old new : List NbRptHdr} (h : new.length ≤ old.length) :
    sameRpts old new = true ↔ new = old.take new.length := by
  induction new generalizing old with
  | nil => exact iff_of_true rfl rfl
  | cons x new ih =>
    cases old with
    | nil => exact absurd h (Nat.not_succ_le_zero _)
    | cons y old =>
      rw [sameRpts, List.zip_cons_cons, List.all_cons, Bool.and_eq_true, decide_eq_true_iff,
        List.length_cons, List.take_succ_cons, List.cons.injEq]
      exact and_congr_right fun _ => ih (Nat.le_of_succ_le_succ h)

theorem survey_same (h : ¬ Refused e) (hlast : nb.lastNbRptEntries ≤ rtwMaxNbRptNum) :
    (survey nb e).nb.nbRptIsSame = true ↔ stored (survey nb e).nb = stored nb := by
  have hsize := length_candidates h nb
  have hroom := length_scan e
  rw [stored_survey h, (survey_nb h nb).2.2.1, Bool.and_eq_true, decide_eq_true_iff,
    sameRpts_iff (by rw [hsize, nb.nbRptSlots]; exact hroom), hsize]
  constructor
  · rintro ⟨hsame, heq⟩
    rw [stored, ← heq]
    exact hsame
  · intro hsame
    have heq : (scan e).entries.length = nb.lastNbRptEntries := by
      rw [← hsize, hsame, stored, List.length_take, nb.nbRptSlots, Nat.min_eq_left hlast]
    refine ⟨?_, heq⟩
    rw [heq]
    exact hsame

theorem survey_channels (h : ¬ Refused e) (nb : NbInfo) (hsome : (scan e).entries ≠ []) :
    (storedChannels (survey nb e).nb).Nodup ∧
      ∀ c, c ∈ storedChannels (survey nb e).nb ↔
        c ≠ 0 ∧ ∃ d ∈ (scan e).entries, d.nbRpt.chNum.toNat = c := by
  have hsize := length_candidates h nb
  have hroom := length_scan e
  have hfew : ((survey nb e).candidates.map WnmBtmCant.nbRpt).length ≤ rtwMaxNbRptNum := by
    rw [hsize]
    exact hroom
  have hinv := nbChannels_spec hfew
  have hchannels := (survey_nb h nb).2.2.2
  rw [if_neg (fun hzero => hsome (List.length_eq_zero_iff.mp hzero))] at hchannels
  rw [← hchannels] at hinv
  refine ⟨hinv.nodup, fun c => (hinv.mem c).trans (and_congr_right fun _ => ?_)⟩
  simp only [List.map_map, List.mem_map, Function.comp_apply, exists_exists_and_eq_and]
  exact exists_congr fun d => and_congr_left fun _ => (survey_perm h nb).mem_iff

theorem survey_channels_empty (h : ¬ Refused e) (nb : NbInfo) (hnone : (scan e).entries = []) :
    storedChannels (survey nb e).nb =
      (List.replicate rtwMaxNbRptNum 0).take nb.nbRptChListNum := by
  have hchannels := (survey_nb h nb).2.2.2
  rw [if_pos (by rw [hnone]; rfl), ChList.mk.injEq] at hchannels
  rw [storedChannels, hchannels.1, hchannels.2]

def scanBehind (e : Survey) : ElemScan :=
  nbElemLoop e.fromBtm e.m (e.pframe + e.bs.length) (rtwMaxNbRptNum - (leading e.bs).length)
    (e.pframe + (encode (leading e.bs)).length) (behind e.bs).length
    (e.m (e.pframe + (encode (leading e.bs)).length + 1)).toNat

theorem scan_eq (e : Survey) (hroom : leading e.bs = [] ∨ 2 ≤ (behind e.bs).length) :
    ∃ reads,
      scan e =
        ⟨candsOf e.fromBtm (leading e.bs) (behind e.bs) ++ (scanBehind e).entries,
          anyPref e.fromBtm (leading e.bs) || (scanBehind e).bfound,
          (e.pframe + 1) :: (reads ++ (scanBehind e).reads)⟩ ∧
      ∀ o ∈ reads, e.pframe ≤ o ∧ o < e.pframe + e.bs.length := by
  have hsplit := encode_leading e.bs
  have hheld : Holds e.m e.pframe (encode (leading e.bs) ++ behind e.bs) := by
    rw [hsplit]
    exact e.held
  obtain ⟨reads, hloop, hreads⟩ := @nbElemLoop_leading e.fromBtm e.m e.pframe _ _ _ _ hheld
    leading_complete rfl (length_leading e.bs) hroom
  rw [hsplit] at hloop hreads
  exact ⟨reads, by rw [scan, rtwWnmNbElemParsing, hloop, scanBehind], hreads⟩

theorem holds_behind (e : Survey) :
    Holds e.m (e.pframe + (encode (leading e.bs)).length) (behind e.bs) := by
  have hheld : Holds e.m e.pframe (encode (leading e.bs) ++ behind e.bs) := by
    rw [encode_leading]
    exact e.held
  exact hheld.right

theorem behind_ends (e : Survey) :
    e.pframe + (encode (leading e.bs)).length + (behind e.bs).length = e.pframe + e.bs.length := by
  rw [Nat.add_assoc, ← List.length_append, encode_leading]

theorem scan_sound (h : SoundString nb e.fromBtm e.bs) :
    (scan e).entries = candsOf e.fromBtm (leading e.bs) (behind e.bs) ∧
      (scan e).bfound = anyPref e.fromBtm (leading e.bs) ∧
      ∀ o ∈ (scan e).reads, e.pframe ≤ o ∧ o < e.pframe + e.bs.length := by
  have hheader := h.header
  obtain ⟨reads, hscan, hreads⟩ := scan_eq e h.room
  have hstop : rtwMaxNbRptNum - (leading e.bs).length = 0 ∨ ¬ Taken (behind e.bs) :=
    h.ends.imp_left fun hfull => by rw [hfull, Nat.sub_self]
  obtain ⟨more, hloop, hmore⟩ := @nbElemLoop_stop e.fromBtm e.m _ _ _ _ (holds_behind e)
    (behind_ends e) hstop
  rw [hscan, scanBehind, hloop]
  refine ⟨List.append_nil _, Bool.or_false _, fun o ho => ?_⟩
  rw [List.mem_cons, List.mem_append] at ho
  rcases ho with rfl | ho | ho
  · omega
  · exact hreads o ho
  · have hin := hmore o ho
    omega

theorem room_of_reads (hreads : ∀ o ∈ (scan e).reads, o < e.pframe + e.bs.length) :
    leading e.bs = [] ∨ 2 ≤ (behind e.bs).length := by
  have hsplit := encode_leading e.bs
  have hheld : Holds e.m e.pframe (encode (leading e.bs) ++ behind e.bs) := by
    rw [hsplit]
    exact e.held
  refine @nbElemLoop_room e.fromBtm e.m e.pframe _ _ _ _ hheld leading_complete rfl
    (length_leading e.bs) fun o ho => ?_
  rw [hsplit] at ho ⊢
  exact hreads o (List.mem_cons_of_mem _ ho)

theorem ends_of_length (hroom : leading e.bs = [] ∨ 2 ≤ (behind e.bs).length)
    (hlen : (scan e).entries.length = (leading e.bs).length) :
    (leading e.bs).length = rtwMaxNbRptNum ∨ ¬ Taken (behind e.bs) := by
  refine (Nat.eq_or_lt_of_le (length_leading e.bs)).imp_right fun hlt htaken => ?_
  obtain ⟨reads, hscan, -⟩ := scan_eq e hroom
  obtain ⟨k, hk⟩ := Nat.exists_eq_add_of_lt hlt
  have hfuel : rtwMaxNbRptNum - (leading e.bs).length = k + 1 := by omega
  have hextra := @nbElemLoop_takes e.fromBtm e.m _ _ k _ (holds_behind e) (behind_ends e) htaken
  rw [hscan, scanBehind, hfuel, List.length_append, length_candsOf] at hlen
  exact hextra (List.length_eq_zero_iff.mp (Nat.add_eq_left.mp hlen))

end Outcome

section Law

variable {nb : NbInfo} {e : Survey} {ts : List Element}

theorem eq_of_countP {p q : Element → Bool} (h : ∀ t ∈ ts, p t = true → q t = true)
    (heq : ts.countP p = ts.countP q) : ∀ t ∈ ts, q t = true → p t = true := by
  induction ts with
  | nil => exact fun t ht => absurd ht List.not_mem_nil
  | cons t ts ih =>
    have hlater : ∀ u ∈ ts, p u = true → q u = true := fun u hu => h u (List.mem_cons_of_mem t hu)
    have hle := List.countP_mono_left hlater
    have hhere := h t List.mem_cons_self
    rw [List.countP_cons, List.countP_cons] at heq
    cases hp : p t with
    | true =>
      rw [hp, hhere hp] at heq
      intro u hu hq
      cases List.mem_cons.mp hu with
      | inl hut => rw [hut, hp]
      | inr hu => exact ih hlater (Nat.add_right_cancel heq) u hu hq
    | false =>
      cases hq : q t with
      | true =>
        rw [hp, hq, if_neg Bool.false_ne_true, if_pos rfl] at heq
        omega
      | false =>
        rw [hp, hq] at heq
        intro u hu hqu
        cases List.mem_cons.mp hu with
        | inl hut =>
          rw [hut, hq] at hqu
          exact absurd hqu Bool.false_ne_true
        | inr hu => exact ih hlater (Nat.add_right_cancel heq) u hu hqu

theorem wantPref_le {t : Element} (h : wantPref (subelements t) ≠ 0) : codePref true t ≠ 0 := by
  rw [codePref, if_pos rfl]
  rcases areaPref_cases (subelements t) with ⟨heq, -⟩ | ⟨hsome, -, -⟩
  · rw [heq]
    exact h
  · exact hsome

theorem no_stray_of_perm (h : (ts.map fun t => (rptOf t, codePref true t)).Perm
    (ts.map fun t => (rptOf t, wantPref (subelements t)))) :
    ∀ t ∈ ts, ¬ Stray (subelements t) := by
  have hcount := h.countP_eq fun r => decide (r.2 ≠ 0)
  rw [List.countP_map, List.countP_map] at hcount
  have hback := eq_of_countP (fun t _ hwant =>
    decide_eq_true (wantPref_le (of_decide_eq_true hwant))) hcount.symm
  intro t ht hstray
  rcases areaPref_cases (subelements t) with ⟨-, hnone⟩ | ⟨hsome, hzero, -⟩
  · exact hnone hstray
  · exact of_decide_eq_true (hback t ht (decide_eq_true hsome)) hzero

theorem codePref_wanted (h : ∀ t ∈ ts, ¬ Stray (subelements t)) :
    (ts.map fun t => (rptOf t, codePref true t)) =
      ts.map fun t => (rptOf t, wantPref (subelements t)) := by
  refine List.map_congr_left fun t ht => ?_
  rcases areaPref_cases (subelements t) with ⟨heq, -⟩ | ⟨-, -, hstray⟩
  · rw [codePref, if_pos rfl, heq]
  · exact absurd hstray (h t ht)

theorem pairwise_of_zero {cs : List WnmBtmCant} (h : ∀ c ∈ cs, c.preference = 0) :
    cs.Pairwise fun c d => d.preference ≤ c.preference := by
  refine List.pairwise_of_forall_mem_list fun c hc d hd => ?_
  rw [h c hc, h d hd]
  exact UInt8.le_refl 0

theorem candsOf_zero (h : ∀ t ∈ ts, codePref e.fromBtm t = 0) (tail : List UInt8) :
    ∀ c ∈ candsOf e.fromBtm ts tail, c.preference = 0 := by
  induction ts with
  | nil => exact fun c hc => absurd hc List.not_mem_nil
  | cons t ts ih =>
    intro c hc
    rw [candsOf] at hc
    cases List.mem_cons.mp hc with
    | inl heq =>
      rw [heq]
      exact h t List.mem_cons_self
    | inr hc => exact ih (fun u hu => h u (List.mem_cons_of_mem t hu)) c hc

theorem candidates_ranked (h : SoundString nb e.fromBtm e.bs) (hopen : ¬ Refused e)
    (hbtm : e.fromBtm = true) :
    (survey nb e).candidates.Pairwise fun c d => d.preference ≤ c.preference := by
  obtain ⟨hentries, hfound, -⟩ := scan_sound h
  rw [survey_candidates hopen, hbtm, Bool.true_and, prefers, hbtm, if_pos rfl, hfound, hentries]
  cases hany : anyPref e.fromBtm (leading e.bs) with
  | true =>
    rw [if_pos rfl]
    exact rtwWnmCandidatesSorting_sorted (by omega)
  | false =>
    rw [if_neg Bool.false_ne_true]
    exact pairwise_of_zero (candsOf_zero (anyPref_false hany) _)

theorem candsOf_leading (e : Survey) :
    ((candsOf e.fromBtm (leading e.bs) (behind e.bs)).map fun c => (c.nbRpt.fields, c.preference)) =
      (leading e.bs).map fun t => (rptOf t, codePref e.fromBtm t) :=
  candsOf_fields leading_complete (behind e.bs)

theorem channels_of_entries (h : SoundString nb e.fromBtm e.bs) (hopen : ¬ Refused e) :
    (storedChannels (survey nb e).nb).Nodup ∧ ∀ c, c ∈ storedChannels (survey nb e).nb ↔
      c ≠ 0 ∧ ∃ t ∈ leading e.bs, (rptOf t).chNum.toNat = c := by
  obtain ⟨hentries, -, -⟩ := scan_sound h
  cases Decidable.em (leading e.bs = []) with
  | inl hnil =>
    rw [survey_channels_empty hopen nb (by rw [hentries, hnil]; rfl), h.fresh hnil, hnil]
    exact ⟨List.nodup_nil, fun c => iff_of_false List.not_mem_nil fun hc =>
      absurd hc.2.choose_spec.1 List.not_mem_nil⟩
  | inr hcons =>
    have hsome : (scan e).entries ≠ [] := by
      rw [hentries]
      intro hnil
      have hzero := congrArg List.length hnil
      rw [length_candsOf] at hzero
      exact hcons (List.length_eq_zero_iff.mp hzero)
    obtain ⟨honce, hmem⟩ := survey_channels hopen nb hsome
    refine ⟨honce, fun c => (hmem c).trans (and_congr_right fun _ => ?_)⟩
    have hmap := congrArg (List.map fun r : NbRptHdr × UInt8 => r.1.chNum.toNat)
      (candsOf_leading e)
    rw [List.map_map, List.map_map] at hmap
    rw [hentries]
    exact (List.mem_map (b := c)).symm.trans ((iff_of_eq (congrArg (c ∈ ·) hmap)).trans List.mem_map)

theorem stored_of_sound (h : SoundString nb e.fromBtm e.bs) (hopen : ¬ Refused e)
    (hlast : nb.lastNbRptEntries ≤ rtwMaxNbRptNum) :
    Stored (leading e.bs) e.fromBtm nb (survey nb e) := by
  obtain ⟨hentries, hfound, -⟩ := scan_sound h
  obtain ⟨honce, hchannels⟩ := channels_of_entries h hopen
  have hfields := candsOf_leading e
  refine ⟨?_, fun hbtm => ?_, fun hbtm => ?_, candidates_ranked h hopen, honce, hchannels,
    survey_same hopen hlast⟩
  · rw [stored_survey hopen, List.map_map]
    rfl
  · have hfst := congrArg (List.map Prod.fst) hfields
    rw [List.map_map, List.map_map] at hfst
    rw [survey_candidates hopen, hbtm, Bool.false_and, if_neg Bool.false_ne_true, hentries]
    exact hfst
  · rw [hbtm] at hfields
    rw [← codePref_wanted (h.prefs hbtm), ← hfields, ← hbtm, ← hentries]
    exact (survey_perm hopen nb).map _

theorem sound_of_stored (hopen : ¬ Refused e)
    (hreads : ∀ o ∈ (scan e).reads, e.pframe ≤ o ∧ o < e.pframe + e.bs.length)
    (h : Stored (leading e.bs) e.fromBtm nb (survey nb e)) : SoundString nb e.fromBtm e.bs := by
  have hheader := (hreads (e.pframe + 1) List.mem_cons_self).2
  have hroom := room_of_reads fun o ho => (hreads o ho).2
  have hlen : (scan e).entries.length = (leading e.bs).length := by
    rw [← (survey_perm hopen nb).length_eq]
    cases hbtm : e.fromBtm with
    | false => simpa only [List.length_map] using congrArg List.length (h.inOrder hbtm)
    | true => simpa only [List.length_map] using (h.preferences hbtm).length_eq
  have hends := ends_of_length hroom hlen
  refine ⟨by omega, hends, hroom, fun hbtm => ?_, fun hnil => ?_⟩
  · obtain ⟨reads, hscan, -⟩ := scan_eq e hroom
    have hextra : (scanBehind e).entries = [] := by
      rw [hscan, List.length_append, length_candsOf] at hlen
      exact List.length_eq_zero_iff.mp (Nat.add_eq_left.mp hlen)
    have hentries : (scan e).entries = candsOf e.fromBtm (leading e.bs) (behind e.bs) := by
      rw [hscan, hextra, List.append_nil]
    have hperm := ((survey_perm hopen nb).symm.map
      fun c => (c.nbRpt.fields, c.preference)).trans (h.preferences hbtm)
    rw [hentries, candsOf_fields leading_complete, hbtm] at hperm
    exact no_stray_of_perm hperm
  · have hnone : (scan e).entries = [] := by
      refine List.length_eq_zero_iff.mp (hlen.trans ?_)
      rw [hnil]
      rfl
    by_contra hstale
    obtain ⟨k, hk⟩ := Nat.exists_eq_succ_of_ne_zero hstale
    refine ((h.channels 0).mp ?_).1 rfl
    rw [survey_channels_empty hopen nb hnone, hk]
    exact List.mem_cons_self

theorem right_iff (hlast : nb.lastNbRptEntries ≤ rtwMaxNbRptNum) : Right nb e ↔ Sound nb e := by
  cases Classical.em (Refused e) with
  | inl hshut =>
    refine iff_of_true ⟨?_, ?_, ?_⟩ (.inl hshut)
    · rw [survey_refused hshut]
      exact fun o ho => absurd ho List.not_mem_nil
    · rw [survey_refused hshut]
      exact fun _ => rfl
    · rw [survey_refused hshut]
      exact fun hret => absurd hret Bool.false_ne_true
  | inr hopen =>
    obtain ⟨hret, hreads⟩ := survey_ret hopen nb
    constructor
    · intro h
      exact .inr (sound_of_stored hopen (fun o ho => h.reads o (by rwa [hreads])) (h.stores hret))
    · intro h
      have hstring := h.resolve_left hopen
      refine ⟨?_, fun hfail => ?_, fun _ => stored_of_sound hstring hopen hlast⟩
      · rw [hreads]
        exact (scan_sound hstring).2.2
      · rw [hret] at hfail
        exact absurd hfail.symm Bool.false_ne_true

theorem surveyStep_last (hlast : nb.lastNbRptEntries ≤ rtwMaxNbRptNum) (e : Survey) :
    (surveyStep nb e).lastNbRptEntries ≤ rtwMaxNbRptNum := by
  rw [surveyStep]
  cases Classical.em (Refused e) with
  | inl hshut =>
    rw [survey_refused hshut]
    exact hlast
  | inr hopen =>
    rw [(survey_nb hopen nb).2.1]
    exact length_scan e

theorem survey_law (history : List Survey) (e : Survey) :
    Right (Run.exec surveyStep .init history) e ↔ Sound (Run.exec surveyStep .init history) e :=
  right_iff (Run.exec_invariant surveyStep (fun nb => nb.lastNbRptEntries ≤ rtwMaxNbRptNum)
    (fun _ e hlast => surveyStep_last hlast e) (Nat.zero_le _) history)

def loneReport : Survey where
  malloc := true
  fromBtm := false
  bs := nbRptElem :: 13 :: List.replicate 13 0
  m := write (fun _ => 0) 0 (nbRptElem :: 13 :: List.replicate 13 0)
  pframe := 0
  held := holds_write _ _ _

theorem lone_report_read_past : ¬ Right .init loneReport := fun h =>
  absurd (h.reads 16 (by decide +kernel)).2 (by decide)

end Law

end Wnm
