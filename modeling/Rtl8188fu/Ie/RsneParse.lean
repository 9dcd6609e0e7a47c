import Rtl8188fu.Ie.Rsn

namespace Ie

inductive RsneField
  | group
  | pairwise
  | akm
  | cap
  | pmkid
  | groupMgmt
  deriving DecidableEq, Repr

namespace RsneField

def counted : RsneField → Bool
  | .pairwise | .akm | .pmkid => true
  | .group | .cap | .groupMgmt => false

def unit : RsneField → ℕ
  | .group | .pairwise | .akm | .groupMgmt => 4
  | .cap => 2
  | .pmkid => 16

def lenient : RsneField → Bool
  | .pairwise | .akm => true
  | .group | .cap | .pmkid | .groupMgmt => false

def order : List RsneField := [.group, .pairwise, .akm, .cap, .pmkid, .groupMgmt]

variable (m : Mem) (f : RsneField) (pos : ℕ)

def headSize : ℕ := if f.counted then 2 else f.unit

def first : ℕ := if f.counted then pos + 2 else pos

def count : ℕ := if f.counted then le16 m pos else 1

def size : ℕ := (if f.counted then 2 else 0) + f.unit * f.count m pos

theorem headSize_pos : 0 < f.headSize := by
  cases f <;> decide

theorem headSize_le : f.headSize ≤ f.size m pos := by
  cases f with
  | group | cap | groupMgmt => exact Nat.le_refl _
  | pairwise | akm | pmkid => exact Nat.le_add_right _ _

theorem first_add : f.first pos + f.unit * f.count m pos = pos + f.size m pos := by
  rw [first, size]
  cases f.counted with
  | false => exact congrArg _ (Nat.zero_add _).symm
  | true => exact Nat.add_assoc _ _ _

end RsneField

def RsneInfo.entry (info : RsneInfo) : RsneField → Option (ℕ × ℕ)
  | .group => info.gcs.map (·, 1)
  | .pairwise => info.pcs
  | .akm => info.akm
  | .cap => info.cap.map (·, 1)
  | .pmkid => info.pmkid
  | .groupMgmt => info.gmcs.map (·, 1)

def RsneInfo.record (info : RsneInfo) (m : Mem) (pos : ℕ) : RsneField → RsneInfo
  | .group => { info with gcs := some pos }
  | .pairwise => { info with pcs := some (pos + 2, le16 m pos) }
  | .akm => { info with akm := some (pos + 2, le16 m pos) }
  | .cap => { info with cap := some pos }
  | .pmkid => { info with pmkid := some (pos + 2, le16 m pos) }
  | .groupMgmt => { info with gmcs := some pos }

theorem RsneInfo.entry_record (info : RsneInfo) (m : Mem) (pos : ℕ) (f g : RsneField) :
    (info.record m pos f).entry g =
      if f = g then some (f.first pos, f.count m pos) else info.entry g := by
  cases f <;> cases g <;> rfl

def rsneCascade (m : Mem) (last : ℕ) : List RsneField → ℕ → RsneInfo → Option RsneInfo
  | [], _, info => some info
  | f :: fs, pos, info =>
    if last < pos + f.headSize then atEnd pos last info
    else if last < pos + f.size m pos then
      if f.lenient then atEnd (pos + 2) last info else none
    else rsneCascade m last fs (pos + f.size m pos) (info.record m pos f)

def EndsAtBoundary (m : Mem) (last : ℕ) : List RsneField → ℕ → Prop
  | [], pos => last = pos
  | f :: fs, pos =>
    last = pos ∨ pos + f.size m pos ≤ last ∧ EndsAtBoundary m last fs (pos + f.size m pos)

def ListsNotCut (m : Mem) (last : ℕ) : List RsneField → ℕ → Prop
  | [], pos => last ≤ pos
  | f :: fs, pos =>
    (f.lenient = true → last = pos + 2 → le16 m pos = 0) ∧
      (pos + f.size m pos ≤ last → ListsNotCut m last fs (pos + f.size m pos))

instance decidableListsNotCut (m : Mem) (last : ℕ) :
    ∀ fs pos, Decidable (ListsNotCut m last fs pos)
  | [], pos => inferInstanceAs (Decidable (last ≤ pos))
  | f :: fs, pos =>
    have := decidableListsNotCut m last fs (pos + f.size m pos)
    inferInstanceAs (Decidable (_ ∧ _))

def completeField (m : Mem) (last : ℕ) (f : RsneField) : List RsneField → ℕ → Option ℕ
  | [], _ => none
  | g :: gs, pos =>
    if pos + g.size m pos ≤ last then
      if g = f then some pos else completeField m last f gs (pos + g.size m pos)
    else none

structure RsneHeader (m : Mem) (ie ieLen : ℕ) : Prop where
  long : 4 ≤ ieLen
  id : m ie = eidRsn
  len : (m (ie + 1)).toNat = ieLen - 2
  version : le16 m (ie + 2) = 1

structure RsnElement (m : Mem) (ie ieLen : ℕ) : Prop where
  header : RsneHeader m ie ieLen
  ends : EndsAtBoundary m (ie + ieLen) RsneField.order (ie + 4)

def suiteList (m : Mem) (ie ieLen : ℕ) (f : RsneField) : List ℕ :=
  (completeField m (ie + ieLen) f RsneField.order (ie + 4)).elim [] fun pos =>
    (List.range (f.count m pos)).map fun i => f.first pos + 4 * i

def bitmap (value : ℕ → ℕ) (list : List ℕ) : ℕ := (list.map value).foldr (· ||| ·) 0

structure Wpa2Bitmaps (m : Mem) (ie ieLen : ℕ) (w : WpaParams) : Prop where
  group : w.groupCipher = bitmap (rtwGetRsnCipherSuite m) (suiteList m ie ieLen .group)
  pairwise : w.pairwiseCipher = bitmap (rtwGetRsnCipherSuite m) (suiteList m ie ieLen .pairwise)
  akm : w.akm = bitmap (rtwGetAkmSuiteBitmap m) (suiteList m ie ieLen .akm)
  gmcs : suiteList m ie ieLen .groupMgmt ≠ [] →
    w.gmcs = bitmap (rtwGetRsnCipherSuite m) (suiteList m ie ieLen .groupMgmt)

structure RsneLaw (m : Mem) (ie ieLen : ℕ) : Prop where
  accepts : (rtwRsneInfoParse m ie ieLen).isSome = true ↔ RsnElement m ie ieLen
  inside : ∀ info, rtwRsneInfoParse m ie ieLen = some info → ∀ f first cnt,
    info.entry f = some (first, cnt) → ie + 4 ≤ first ∧ first + f.unit * cnt ≤ ie + ieLen
  bitmaps : ∀ w, rtwParseWpa2Ie m ie ieLen = some w → Wpa2Bitmaps m ie ieLen w

variable {m : Mem} {last pos ie ieLen : ℕ} {info info' : RsneInfo}

theorem atEnd_isSome : (atEnd pos last info).isSome = true ↔ last = pos := by
  rw [atEnd]
  cases Decidable.eq_or_ne last pos with
  | inl heq => exact iff_of_true (by rw [if_neg (not_not_intro heq)]; rfl) heq
  | inr hne => exact iff_of_false (by rw [if_pos hne]; exact nofun) hne

theorem atEnd_eq_some (h : atEnd pos last info = some info') : info' = info := by
  rw [atEnd] at h
  split at h
  · exact absurd h nofun
  · exact (Option.some.inj h).symm

theorem rsneGroup_eq (m : Mem) (last pos : ℕ) (info : RsneInfo) :
    rsneGroup m last pos info = rsneCascade m last RsneField.order pos info := by
  have hgroupMgmt (pos : ℕ) (info : RsneInfo) :
      rsneGroupMgmt last pos info = rsneCascade m last [.groupMgmt] pos info := by
    rw [rsneGroupMgmt, rsneCascade]
    refine if_ctx_congr Iff.rfl (fun _ => rfl) fun hroom => ?_
    exact (if_neg hroom).symm
  have hpmkid (pos : ℕ) (info : RsneInfo) :
      rsnePmkid m last pos info = rsneCascade m last [.pmkid, .groupMgmt] pos info := by
    simp only [rsnePmkid, rsneCascade, hgroupMgmt, Nat.add_assoc]
    rfl
  have hcap (pos : ℕ) (info : RsneInfo) :
      rsneCap m last pos info = rsneCascade m last [.cap, .pmkid, .groupMgmt] pos info := by
    rw [rsneCap, rsneCascade]
    refine if_ctx_congr Iff.rfl (fun _ => rfl) fun hroom => ?_
    exact (hpmkid _ _).trans (if_neg hroom).symm
  have hakm (pos : ℕ) (info : RsneInfo) :
      rsneAkm m last pos info = rsneCascade m last [.akm, .cap, .pmkid, .groupMgmt] pos info := by
    rw [rsneAkm, rsneCascade]
    simp only [hcap, Nat.add_assoc]
    rfl
  have hpairwise (pos : ℕ) (info : RsneInfo) : rsnePairwise m last pos info =
      rsneCascade m last [.pairwise, .akm, .cap, .pmkid, .groupMgmt] pos info := by
    rw [rsnePairwise, rsneCascade]
    simp only [hakm, Nat.add_assoc]
    rfl
  rw [rsneGroup, RsneField.order, rsneCascade]
  refine if_ctx_congr Iff.rfl (fun _ => rfl) fun hroom => ?_
  exact (hpairwise _ _).trans (if_neg hroom).symm

theorem cascade_accepts_iff (fs : List RsneField) (hpos : pos ≤ last) :
    ((rsneCascade m last fs pos info).isSome = true ↔ EndsAtBoundary m last fs pos) ↔
      ListsNotCut m last fs pos := by
  induction fs generalizing pos info with
  | nil =>
    rw [rsneCascade, EndsAtBoundary, ListsNotCut]
    constructor
    · exact fun h => Nat.le_of_eq (h.mp rfl)
    · exact fun h => iff_of_true rfl (Nat.le_antisymm h hpos)
  | cons f fs ih =>
    have hhead := f.headSize_pos
    have hsize := f.headSize_le m pos
    rw [rsneCascade, EndsAtBoundary, ListsNotCut]
    cases Nat.lt_or_ge last (pos + f.headSize) with
    | inl hshort =>
      have hincomplete : ¬ pos + f.size m pos ≤ last := by omega
      rw [if_pos hshort, atEnd_isSome]
      refine iff_of_true (by simp only [hincomplete, false_and, or_false]) ⟨?_, ?_⟩
      · intro hlenient hend
        have htwo : f.headSize = 2 := by
          cases f with
          | pairwise | akm => rfl
          | group | cap | pmkid | groupMgmt => exact absurd hlenient Bool.false_ne_true
        omega
      · exact fun h => absurd h hincomplete
    | inr hroom =>
      have hstarted : last ≠ pos := by omega
      rw [if_neg (Nat.not_lt.mpr hroom)]
      simp only [hstarted, false_or]
      cases Nat.lt_or_ge last (pos + f.size m pos) with
      | inl hcut =>
        have hincomplete : ¬ pos + f.size m pos ≤ last := Nat.not_le.mpr hcut
        simp only [hcut, hincomplete, if_true, false_and, iff_false, false_implies, and_true]
        cases f with
        | pairwise | akm =>
          have hcount : le16 m pos ≠ 0 := fun hzero => by
            simp only [RsneField.size, RsneField.count, RsneField.counted, if_true, hzero] at hcut
            simp only [RsneField.headSize, RsneField.counted, if_true] at hroom
            omega
          simp only [RsneField.lenient, if_true, atEnd_isSome, hcount, forall_const, imp_false]
        | group | cap | pmkid | groupMgmt =>
          refine iff_of_true ?_ fun hlenient => absurd hlenient Bool.false_ne_true
          simp only [RsneField.lenient, Bool.false_eq_true, if_false]
          exact nofun
      | inr hwhole =>
        rw [if_neg (Nat.not_lt.mpr hwhole)]
        simp only [hwhole, true_and, forall_const]
        rw [ih hwhole]
        refine (and_iff_right fun hlenient hend => ?_).symm
        cases f with
        | pairwise | akm =>
          simp only [RsneField.size, RsneField.count, RsneField.counted, if_true,
            RsneField.unit] at hwhole
          omega
        | group | cap | pmkid | groupMgmt => exact absurd hlenient Bool.false_ne_true

theorem cascade_inside {lo : ℕ} (fs : List RsneField) (hlo : lo ≤ pos)
    (hinfo : ∀ f first cnt, info.entry f = some (first, cnt) →
      lo ≤ first ∧ first + f.unit * cnt ≤ last)
    (h : rsneCascade m last fs pos info = some info') :
    ∀ f first cnt, info'.entry f = some (first, cnt) →
      lo ≤ first ∧ first + f.unit * cnt ≤ last := by
  induction fs generalizing pos info with
  | nil =>
    rw [← Option.some.inj h]
    exact hinfo
  | cons f fs ih =>
    rw [rsneCascade] at h
    split at h
    · rw [atEnd_eq_some h]
      exact hinfo
    · split at h
      · split at h
        · rw [atEnd_eq_some h]
          exact hinfo
        · exact absurd h nofun
      · rename_i hwhole
        refine ih (Nat.le_add_right_of_le hlo) ?_ h
        intro g first cnt hentry
        rw [RsneInfo.entry_record] at hentry
        split at hentry
        · rename_i heq
          subst heq
          obtain ⟨rfl, rfl⟩ := Prod.mk.inj (Option.some.inj hentry)
          have hfirst : pos ≤ f.first pos := by
            rw [RsneField.first]
            split
            · exact Nat.le_add_right _ _
            · exact Nat.le_refl _
          have hend := f.first_add m pos
          exact ⟨Nat.le_trans hlo hfirst, by omega⟩
        · exact hinfo g first cnt hentry

theorem completeField_notMem {f : RsneField} {fs : List RsneField} (h : f ∉ fs) :
    completeField m last f fs pos = none := by
  induction fs generalizing pos with
  | nil => rfl
  | cons g fs ih =>
    rw [List.mem_cons, not_or] at h
    rw [completeField, if_neg (Ne.symm h.1), ih h.2, ite_self]

theorem cascade_entry {f : RsneField} (fs : List RsneField) (hnodup : fs.Nodup)
    (h : rsneCascade m last fs pos info = some info') : info'.entry f =
      ((completeField m last f fs pos).map fun p => (f.first p, f.count m p)).or
        (info.entry f) := by
  induction fs generalizing pos info with
  | nil =>
    rw [← Option.some.inj h]
    rfl
  | cons g fs ih =>
    have hhead := g.headSize_le m pos
    have hincomplete (hlt : last < pos + g.size m pos) :
        completeField m last f (g :: fs) pos = none := if_neg (Nat.not_le.mpr hlt)
    rw [rsneCascade] at h
    split at h
    · rename_i hshort
      rw [hincomplete (by omega), atEnd_eq_some h]
      rfl
    · split at h
      · rename_i hcut
        rw [hincomplete hcut]
        split at h
        · rw [atEnd_eq_some h]
          rfl
        · exact absurd h nofun
      · rename_i hwhole
        obtain ⟨hnew, hnodup⟩ := List.nodup_cons.mp hnodup
        rw [completeField, if_pos (Nat.not_lt.mp hwhole)]
        cases Decidable.eq_or_ne g f with
        | inl heq =>
          subst heq
          rw [if_pos rfl, ih hnodup h, completeField_notMem hnew, RsneInfo.entry_record, if_pos rfl]
          rfl
        | inr hne => rw [if_neg hne, ih hnodup h, RsneInfo.entry_record, if_neg hne]

theorem zero_entry (f : RsneField) : RsneInfo.zero.entry f = none := by
  cases f <;> rfl

theorem order_nodup : RsneField.order.Nodup := by decide

theorem suites_eq (value : ℕ → ℕ) (list cnt : ℕ) :
    suites value list cnt = bitmap value ((List.range cnt).map fun i => list + 4 * i) := by
  induction cnt generalizing list with
  | zero => rfl
  | succ cnt ih =>
    rw [suites, ih, List.range_succ_eq_map, List.map_cons, List.map_map, bitmap, bitmap,
      List.map_cons, List.foldr_cons]
    refine congrArg (value list ||| ·) (congrArg (List.foldr _ 0 <| List.map value ·) ?_)
    refine List.map_congr_left fun i _ => ?_
    simp only [Function.comp_apply]
    omega

theorem rtwRsneInfoParse_header (h : RsneHeader m ie ieLen) : rtwRsneInfoParse m ie ieLen =
    rsneCascade m (ie + ieLen) RsneField.order (ie + 4) .zero := by
  have hlong : ¬ ie + ieLen < ie + 4 := by
    have hfour := h.long
    omega
  have hfits : ¬ (m ie ≠ eidRsn ∨ (m (ie + 1)).toNat ≠ ieLen - 2) := by
    rw [not_or]
    exact ⟨not_not_intro h.id, not_not_intro h.len⟩
  rw [rtwRsneInfoParse, if_neg hlong, if_neg hfits, if_neg (not_not_intro h.version), rsneGroup_eq]

theorem rtwRsneInfoParse_noHeader (h : ¬ RsneHeader m ie ieLen) :
    rtwRsneInfoParse m ie ieLen = none := by
  rw [rtwRsneInfoParse]
  split
  · rfl
  · split
    · rfl
    · split
      · rfl
      · rename_i hlong hfits hversion
        rw [not_or, not_not, not_not] at hfits
        exact absurd ⟨by omega, hfits.1, hfits.2, not_not.mp hversion⟩ h

theorem parsed_entry (h : rtwRsneInfoParse m ie ieLen = some info) (f : RsneField) :
    info.entry f = (completeField m (ie + ieLen) f RsneField.order (ie + 4)).map
      fun p => (f.first p, f.count m p) := by
  cases Classical.em (RsneHeader m ie ieLen) with
  | inl hheader =>
    rw [rtwRsneInfoParse_header hheader] at h
    rw [cascade_entry RsneField.order order_nodup h, zero_entry, Option.or_none]
  | inr hbad => exact absurd (h.symm.trans (rtwRsneInfoParse_noHeader hbad)) nofun

theorem wpa2_bitmaps {w : WpaParams} (h : rtwParseWpa2Ie m ie ieLen = some w) :
    Wpa2Bitmaps m ie ieLen w := by
  obtain ⟨info, hinfo, rfl⟩ := Option.map_eq_some_iff.mp h
  have hentry := parsed_entry hinfo
  have hlist (value : ℕ → ℕ) (f : RsneField) :
      bitmap value (suiteList m ie ieLen f) =
        (info.entry f).elim 0 fun p => suites value p.1 p.2 := by
    rw [hentry, suiteList]
    cases completeField m (ie + ieLen) f RsneField.order (ie + 4) with
    | none => rfl
    | some pos => exact (suites_eq value _ _).symm
  constructor
  · rw [hlist]
    cases hgcs : info.gcs with
    | none => simp only [RsneInfo.entry, hgcs, Option.map_none, Option.elim_none]
    | some p =>
      simp only [RsneInfo.entry, hgcs, Option.map_some, Option.elim_some, suites, Nat.or_zero]
  · exact (hlist _ .pairwise).symm
  · exact (hlist _ .akm).symm
  · intro hlisted
    rw [hlist]
    cases hgmcs : info.gmcs with
    | some p =>
      simp only [RsneInfo.entry, hgmcs, Option.map_some, Option.elim_some, suites, Nat.or_zero]
    | none =>
      refine absurd ?_ hlisted
      have hnone : info.entry .groupMgmt = none := congrArg (Option.map _) hgmcs
      rw [hentry, Option.map_eq_none_iff] at hnone
      rw [suiteList, hnone, Option.elim_none]

theorem rsneLaw_iff (m : Mem) (ie ieLen : ℕ) : RsneLaw m ie ieLen ↔
    (RsneHeader m ie ieLen → ListsNotCut m (ie + ieLen) RsneField.order (ie + 4)) := by
  have haccepts : ((rtwRsneInfoParse m ie ieLen).isSome = true ↔ RsnElement m ie ieLen) ↔
      (RsneHeader m ie ieLen → ListsNotCut m (ie + ieLen) RsneField.order (ie + 4)) := by
    cases Classical.em (RsneHeader m ie ieLen) with
    | inl hheader =>
      have hlong := hheader.long
      have helement : RsnElement m ie ieLen ↔
          EndsAtBoundary m (ie + ieLen) RsneField.order (ie + 4) :=
        ⟨RsnElement.ends, RsnElement.mk hheader⟩
      rw [forall_prop_of_true hheader, rtwRsneInfoParse_header hheader, helement]
      exact cascade_accepts_iff RsneField.order (by omega)
    | inr hbad =>
      refine iff_of_true ?_ fun h => absurd h hbad
      rw [rtwRsneInfoParse_noHeader hbad]
      exact iff_of_false nofun fun h => hbad h.header
  constructor
  · exact fun h => haccepts.mp h.accepts
  · intro h
    refine ⟨haccepts.mpr h, fun info hinfo => ?_, fun w => wpa2_bitmaps⟩
    cases Classical.em (RsneHeader m ie ieLen) with
    | inr hbad => exact absurd (hinfo.symm.trans (rtwRsneInfoParse_noHeader hbad)) nofun
    | inl hheader =>
      rw [rtwRsneInfoParse_header hheader] at hinfo
      refine cascade_inside RsneField.order (Nat.le_refl _) (fun f first cnt hentry => ?_) hinfo
      rw [zero_entry] at hentry
      exact absurd hentry nofun

def cutPairwise : Mem := fun i => [48, 8, 1, 0, 0, 15, 172, 4, 1, 0].getD i 0

def trailingByte : Mem := fun i =>
  [48, 19, 1, 0, 0, 15, 172, 4, 0, 0, 0, 0, 0, 0, 0, 0, 0, 15, 172, 6, 255].getD i 0

theorem uncounted_bytes_accepted : ¬ RsneLaw cutPairwise 0 10 ∧ ¬ RsneLaw trailingByte 0 21 := by
  rw [rsneLaw_iff, rsneLaw_iff]
  refine ⟨fun h => ?_, fun h => ?_⟩
  · exact absurd (h ⟨by decide, by decide, by decide, by decide⟩) (by decide)
  · exact absurd (h ⟨by decide, by decide, by decide, by decide⟩) (by decide)

theorem rsne_law_iff (m : Mem) (ie ieLen : ℕ) : RsneLaw m ie ieLen ↔
    (RsneHeader m ie ieLen → ListsNotCut m (ie + ieLen) RsneField.order (ie + 4)) :=
  rsneLaw_iff m ie ieLen

end Ie
