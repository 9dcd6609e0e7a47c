import Rtl8188fu.Ie.RemoveIe

namespace Ie

open ByteMemory CursorWalk Tlv

structure Content where
  bytes : List UInt8
  short : bytes.length < 256

def Content.element (c : Content) (eid : UInt8) : Element := ⟨eid, c.bytes, c.short⟩

structure IeUpdate where
  mem : Mem
  iesLen : ℕ
  ret : Bool

def rtwIesUpdateIe (malloc : ℕ → Bool) (m : Mem) (ies iesLen iesOffset : ℕ) (eid : UInt8)
    (content : Content) : IeUpdate :=
  if ies = 0 ∨ iesLen = 0 ∨ iesLen ≤ iesOffset then ⟨m, iesLen, false⟩
  else
    let start := ies + iesOffset
    let searchLen := iesLen - iesOffset
    let contentLen := content.bytes.length
    match rtwGetIe m start eid searchLen with
    | none => ⟨m, iesLen, false⟩
    | some targetIe =>
      let targetIelen := (m (targetIe + 1)).toNat
      let updated :=
        write (write m (targetIe + 2) content.bytes) (targetIe + 1) [UInt8.ofNat contentLen]
      if targetIelen = 0 then ⟨m, iesLen, false⟩
      else if targetIelen ≠ contentLen then
        let remainIes := targetIe + 2 + targetIelen
        let remainLen := u32Sub searchLen (remainIes - start)
        if malloc remainLen = false then ⟨m, iesLen, false⟩
        else
          let backupIes := read m remainIes remainLen
          ⟨write updated (targetIe + 2 + contentLen) backupIes,
            u32Sub (iesLen + contentLen) targetIelen, true⟩
      else ⟨updated, iesLen, true⟩

def rtwSetIeAt (m : Mem) (pbuf : ℕ) (index : UInt8) (content : Content) : Mem :=
  write m pbuf (index :: UInt8.ofNat content.bytes.length :: content.bytes)

def eidExtCap : UInt8 := 127

def rtwUpdateExtCapIe (malloc : ℕ → Bool) (m : Mem) (ies iesLen iesOffset : ℕ)
    (extCapData : Content) (fuel : ℕ) : Option (Mem × ℕ) :=
  if extCapData.bytes.length ≠ 0 then
    match rtwGetIe m (ies + iesOffset) eidExtCap ((iesLen : ℤ) - iesOffset) with
    | none => some (rtwSetIeAt m (ies + iesLen) eidExtCap extCapData,
        iesLen + (extCapData.bytes.length + 2))
    | some _ =>
      let u := rtwIesUpdateIe malloc m ies iesLen iesOffset eidExtCap extCapData
      some (u.mem, u.iesLen)
  else
    (rtwIesRemoveIe m ies iesLen iesOffset eidExtCap [] fuel).map fun r => (r.mem, r.iesLen)

structure Edited (m : Mem) (a : IeArea) (ts : List Element) (r : Mem × ℕ) : Prop where
  mem : Holds r.1 a.ies (a.fixed ++ encode ts)
  iesLen : r.2 = (a.fixed ++ encode ts).length
  outside : ∀ i, i < a.ies ∨ a.ies + a.bytes.length ≤ i ∧
    a.ies + (a.fixed ++ encode ts).length ≤ i → r.1 i = m i

def replaceFirst (t : Element) : List Element → List Element
  | [] => []
  | u :: us => if u.id = t.id then t :: us else u :: replaceFirst t us

def UpdateLaw (malloc : ℕ → Bool) (m : Mem) (a : IeArea) (eid : UInt8) (c : Content) : Prop :=
  let u := rtwIesUpdateIe malloc m a.ies a.bytes.length a.fixed.length eid c
  Edited m a (replaceFirst (c.element eid) a.elements) (u.mem, u.iesLen)

def extCapElements (c : Content) (ts : List Element) : List Element :=
  if c.bytes = [] then ts.filter (·.id ≠ eidExtCap)
  else if ts.all (·.id ≠ eidExtCap) then ts ++ [c.element eidExtCap]
  else replaceFirst (c.element eidExtCap) ts

def ExtCapLaw (malloc : ℕ → Bool) (m : Mem) (a : IeArea) (c : Content) : Prop :=
  ∃ fuel r, rtwUpdateExtCapIe malloc m a.ies a.bytes.length a.fixed.length c fuel = some r ∧
    Edited m a (extCapElements c a.elements) r

structure FirstAt (eid : UInt8) (ts pre : List Element) (t : Element) (post : List Element) :
    Prop where
  split : ts = pre ++ t :: post
  before : ∀ u ∈ pre, u.id ≠ eid
  id : t.id = eid

def Updatable (malloc : ℕ → Bool) (eid : UInt8) (c : Content) (ts : List Element) : Prop :=
  ∀ pre t post, FirstAt eid ts pre t post →
    (t.body = [] → c.bytes = []) ∧
      (t.body.length ≠ c.bytes.length → malloc (encode post).length = true)

theorem FirstAt.unique {eid : UInt8} {ts pre pre' post post' : List Element} {t t' : Element}
    (h : FirstAt eid ts pre t post) (h' : FirstAt eid ts pre' t' post') :
    t = t' ∧ post = post' := by
  obtain ⟨rfl, hbefore, hid⟩ := h
  obtain ⟨hsplit, hbefore', hid'⟩ := h'
  induction pre generalizing pre' with
  | nil =>
    cases pre' with
    | nil => exact List.cons.inj hsplit
    | cons v pre' =>
      obtain ⟨rfl, _⟩ := List.cons.inj hsplit
      exact absurd hid (hbefore' t List.mem_cons_self)
  | cons u pre ih =>
    cases pre' with
    | nil =>
      obtain ⟨rfl, _⟩ := List.cons.inj hsplit
      exact absurd hid' (hbefore u List.mem_cons_self)
    | cons v pre' =>
      obtain ⟨_, hrest⟩ := List.cons.inj hsplit
      exact ih (fun u hu => hbefore u (List.mem_cons_of_mem _ hu)) hrest
        fun u hu => hbefore' u (List.mem_cons_of_mem _ hu)

section Find

variable {m : Mem} {start : ℕ} {eid : UInt8} {ts pre post : List Element} {t : Element}

theorem exists_firstAt (eid : UInt8) (ts : List Element) :
    (∀ t ∈ ts, t.id ≠ eid) ∨ ∃ pre t post, FirstAt eid ts pre t post := by
  rcases split_first (fun t => decide (t.id = eid)) ts with hnone | ⟨pre, t, post, h, hpre, ht⟩
  · exact .inl fun t ht => of_decide_eq_false (hnone t ht)
  · exact .inr ⟨pre, t, post, h, fun u hu => of_decide_eq_false (hpre u hu), of_decide_eq_true ht⟩

theorem getIe_found {limit : ℕ} (h : Holds m start (encode (pre ++ t :: post))) :
    (getIeWalk m start eid.toNat limit).found (encode pre).length = true ↔ t.id = eid := by
  have hhere := holds_elements h
  rw [getIeWalk, decide_eq_true_iff, holds_id hhere, Nat.cast_inj, UInt8.toNat_inj]

theorem rtwGetIe_absent (h : Holds m start (encode ts)) (hnone : ∀ t ∈ ts, t.id ≠ eid) :
    rtwGetIe m start eid (encode ts).length = none := by
  rw [rtwGetIe_eq, Option.map_eq_none_iff, Option.eq_none_iff_forall_ne_some]
  intro i hi
  obtain ⟨hvisits, hfound, _⟩ := (getIe_runs _ _ _ _).result_eq_some.mp hi
  obtain ⟨pre, t, post, rfl, hpos⟩ := visits_element (o := 0) (fun _ => rfl) (fun j hj => by
    have hlt : j < (encode ts).length := of_decide_eq_true hj
    omega) h hvisits
  rw [Nat.zero_add] at hpos
  subst hpos
  exact hnone t (List.mem_append_right _ List.mem_cons_self) ((getIe_found h).mp hfound)

theorem rtwGetIe_first (h : Holds m start (encode ts)) (hfirst : FirstAt eid ts pre t post) :
    rtwGetIe m start eid (encode ts).length = some (start + (encode pre).length) := by
  obtain ⟨rfl, hbefore, hid⟩ := hfirst
  have hlen : (encode (pre ++ t :: post)).length =
      (encode pre).length + (t.bytes.length + (encode post).length) := by
    rw [encode_append, encode_cons, List.length_append, List.length_append]
  have hpos : 0 < t.bytes.length := Nat.succ_pos _
  have hvisits : Visits (getIeWalk m start eid.toNat (encode (pre ++ t :: post)).length) 0
      (0 + (encode pre).length) := by
    refine visits_past (fun _ => rfl) h (fun i hi => decide_eq_true ?_) fun us u vs hsplit => ?_
    · omega
    · refine eq_false_of_ne_true fun hfound => ?_
      subst hsplit
      rw [Nat.zero_add] at hfound
      rw [List.append_assoc, List.cons_append] at h
      exact hbefore u (List.mem_append_right _ List.mem_cons_self) ((getIe_found h).mp hfound)
  rw [Nat.zero_add] at hvisits
  rw [rtwGetIe_eq]
  refine Option.map_eq_some_iff.mpr ⟨_, (getIe_runs _ _ _ _).result_eq_some.mpr ?_, rfl⟩
  exact ⟨hvisits, (getIe_found h).mpr hid, rfl⟩

end Find

theorem replaceFirst_absent {t : Element} {ts : List Element} (h : ∀ u ∈ ts, u.id ≠ t.id) :
    replaceFirst t ts = ts := by
  induction ts with
  | nil => rfl
  | cons u us ih =>
    obtain ⟨hhead, hrest⟩ := List.forall_mem_cons.mp h
    rw [replaceFirst, if_neg hhead, ih hrest]

theorem replaceFirst_first {t u : Element} {ts pre post : List Element}
    (h : FirstAt t.id ts pre u post) : replaceFirst t ts = pre ++ t :: post := by
  obtain ⟨rfl, hbefore, hid⟩ := h
  induction pre with
  | nil => exact if_pos hid
  | cons v pre ih =>
    obtain ⟨hhead, hrest⟩ := List.forall_mem_cons.mp hbefore
    rw [List.cons_append, replaceFirst, if_neg hhead, ih hrest, List.cons_append]

structure Written (m m' : Mem) (targetIe : ℕ) (c : Content) (tail : List UInt8) : Prop where
  below : ∀ i, i ≤ targetIe → m' i = m i
  len : m' (targetIe + 1) = UInt8.ofNat c.bytes.length
  rest : Holds m' (targetIe + 2) (c.bytes ++ tail)
  above : ∀ i, targetIe + 2 + c.bytes.length + tail.length ≤ i → m' i = m i

section Update

variable {malloc : ℕ → Bool} {m m' : Mem} {a : IeArea} {eid : UInt8} {c : Content}
  {ts pre post : List Element} {t : Element} {p iesLen' : ℕ} {tail : List UInt8}

theorem written_header (m : Mem) (p : ℕ) (c : Content) :
    Written m (write (write m (p + 2) c.bytes) (p + 1) [UInt8.ofNat c.bytes.length]) p c [] := by
  constructor
  · intro i hi
    rw [write_below _ _ (by omega), write_below _ _ (by omega)]
  · exact holds_write _ (p + 1) [UInt8.ofNat c.bytes.length] 0 Nat.one_pos
  · rw [List.append_nil]
    exact (holds_write m (p + 2) c.bytes).write_before (Nat.le_refl _)
  · intro i hi
    rw [List.length_nil] at hi
    rw [write_above _ (by rw [List.length_singleton]; omega), write_above _ (by omega)]

theorem Written.move (h : Written m m' p c []) (tail : List UInt8) :
    Written m (write m' (p + 2 + c.bytes.length) tail) p c tail := by
  have hcontent : Holds m' (p + 2) c.bytes := by
    have hrest := h.rest
    rwa [List.append_nil] at hrest
  constructor
  · intro i hi
    rw [write_below _ _ (by omega), h.below i hi]
  · rw [write_below _ _ (by omega), h.len]
  · exact hcontent.write_end rfl
  · intro i hi
    rw [write_above _ (by omega), h.above i (by rw [List.length_nil]; omega)]

theorem Written.stays (h : Written m m' p c [])
    (htail : Holds m (p + 2 + c.bytes.length) tail) : Written m m' p c tail := by
  have hcontent : Holds m' (p + 2) c.bytes := by
    have hrest := h.rest
    rwa [List.append_nil] at hrest
  refine ⟨h.below, h.len, hcontent.append (htail.congr fun i hi _ => ?_), fun i hi => ?_⟩
  · exact h.above i hi
  · exact h.above i (by rw [List.length_nil]; omega)

theorem Written.edited (h : Written m m' p c (encode post)) (hstored : a.Stored m)
    (hfirst : FirstAt eid a.elements pre t post)
    (hp : p = a.ies + a.fixed.length + (encode pre).length)
    (hlen : iesLen' + t.body.length = a.bytes.length + c.bytes.length) :
    Edited m a (replaceFirst (c.element eid) a.elements) (m', iesLen') := by
  have hsplit : a.bytes = a.fixed ++ encode pre ++ (t.bytes ++ encode post) := by
    rw [IeArea.bytes, hfirst.split, encode_append, encode_cons, List.append_assoc]
  have hnew : a.fixed ++ encode (replaceFirst (c.element eid) a.elements) =
      a.fixed ++ encode pre ++ ((c.element eid).bytes ++ encode post) := by
    have hreplaced := replaceFirst_first (t := c.element eid) hfirst
    rw [hreplaced, encode_append, encode_cons, List.append_assoc]
  have holdlen : a.bytes.length =
      a.fixed.length + (encode pre).length + (t.body.length + 2 + (encode post).length) := by
    simp only [hsplit, List.length_append, Element.length_bytes]
  have hnewlen : (a.fixed ++ encode (replaceFirst (c.element eid) a.elements)).length =
      a.fixed.length + (encode pre).length +
        (c.bytes.length + 2 + (encode post).length) := by
    rw [hnew]
    simp only [List.length_append, Element.length_bytes]
    rfl
  have hheld : Holds m a.ies (a.fixed ++ encode pre ++ (t.bytes ++ encode post)) := hsplit ▸ hstored
  have hpos : p = a.ies + (a.fixed ++ encode pre).length := by
    rw [hp, List.length_append, Nat.add_assoc]
  constructor
  · rw [hnew]
    refine Holds.append (hheld.left.congr fun i _ hlt => h.below i (by omega)) ?_
    rw [← hpos]
    have hhead : Holds m' p [eid, UInt8.ofNat c.bytes.length] := by
      have hid : m' p = eid := by
        rw [h.below p (Nat.le_refl p), ← hfirst.id, hpos]
        exact holds_id hheld.right
      have hone : Holds m' p [eid] := fun i hi => by
        obtain rfl := Nat.lt_one_iff.mp hi
        exact hid
      exact hone.append fun i hi => by
        obtain rfl := Nat.lt_one_iff.mp hi
        exact h.len
    exact hhead.append h.rest
  · rw [hnewlen]
    simp only
    omega
  · intro i hi
    rw [hnewlen] at hi
    rcases hi with hlt | ⟨_, hge⟩
    · exact h.below i (by omega)
    · exact h.above i (by omega)

theorem unedited_iff (hstored : a.Stored m) :
    Edited m a ts (m, a.bytes.length) ↔ ts = a.elements := by
  constructor
  · intro h
    have hlen : (a.fixed ++ encode ts).length = (a.fixed ++ encode a.elements).length := h.iesLen.symm
    have hsame : a.fixed ++ encode ts = a.fixed ++ encode a.elements := by
      rw [← h.mem.read, hlen]
      exact hstored.read
    exact encode_injective (List.append_cancel_left hsame)
  · rintro rfl
    exact ⟨hstored, rfl, fun _ _ => rfl⟩

theorem replaced_eq_iff (h : FirstAt eid a.elements pre t post) :
    replaceFirst (c.element eid) a.elements = a.elements ↔ t.body = c.bytes := by
  have hreplaced := replaceFirst_first (t := c.element eid) h
  rw [hreplaced, h.split, List.append_cancel_left_eq, List.cons_eq_cons,
    and_iff_left rfl]
  constructor
  · intro heq
    rw [← heq]
    rfl
  · exact fun hbody => Element.ext h.id.symm hbody.symm

theorem rtwIesUpdateIe_absent (hstored : a.Stored m) (hnone : ∀ t ∈ a.elements, t.id ≠ eid) :
    rtwIesUpdateIe malloc m a.ies a.bytes.length a.fixed.length eid c =
      ⟨m, a.bytes.length, false⟩ := by
  have hlen : a.bytes.length = a.fixed.length + (encode a.elements).length := List.length_append
  have hfind := rtwGetIe_absent hstored.right hnone
  rw [rtwIesUpdateIe]
  split
  · rfl
  · simp only [hlen, Nat.add_sub_cancel_left, hfind]

theorem rtwIesUpdateIe_first (hstored : a.Stored m) (h : FirstAt eid a.elements pre t post)
    (hp : p = a.ies + a.fixed.length + (encode pre).length) :
    rtwIesUpdateIe malloc m a.ies a.bytes.length a.fixed.length eid c =
      let header := write (write m (p + 2) c.bytes) (p + 1) [UInt8.ofNat c.bytes.length]
      if t.body = [] then ⟨m, a.bytes.length, false⟩
      else if t.body.length = c.bytes.length then ⟨header, a.bytes.length, true⟩
      else if malloc (encode post).length = false then ⟨m, a.bytes.length, false⟩
      else ⟨write header (p + 2 + c.bytes.length) (encode post),
        a.bytes.length + c.bytes.length - t.body.length, true⟩ := by
  have hlen : a.bytes.length = a.fixed.length + (encode a.elements).length := List.length_append
  have hsplit : (encode a.elements).length =
      (encode pre).length + (t.body.length + 2 + (encode post).length) := by
    rw [h.split, encode_append, encode_cons, List.length_append, List.length_append,
      Element.length_bytes]
  have hlist : Holds m (a.ies + a.fixed.length) (encode a.elements) := hstored.right
  have hhere : Holds m p (t.bytes ++ encode post) := by
    rw [hp]
    exact holds_elements (h.split ▸ hlist)
  have hfind := rtwGetIe_first hlist h
  have hopen : ¬ (a.ies = 0 ∨ a.bytes.length = 0 ∨ a.bytes.length ≤ a.fixed.length) := by
    have hnull := a.notNull
    omega
  have hsearch : a.bytes.length - a.fixed.length = (encode a.elements).length := by omega
  have hremain : u32Sub (encode a.elements).length
      (p + 2 + t.body.length - (a.ies + a.fixed.length)) = (encode post).length := by
    rw [u32Sub_of_le (by omega)]
    omega
  have htail : read m (p + 2 + t.body.length) (encode post).length = encode post := by
    have hrest := hhere.right
    rw [Element.length_bytes, Nat.add_comm t.body.length 2, ← Nat.add_assoc] at hrest
    exact hrest.read
  rw [rtwIesUpdateIe, if_neg hopen]
  simp only [hsearch, hfind, ← hp, holds_len hhere, hremain, htail]
  cases htbody : t.body with
  | nil => rfl
  | cons b bs =>
    have hne : (b :: bs).length ≠ 0 := Nat.succ_ne_zero _
    rw [if_neg hne, if_neg (List.cons_ne_nil b bs)]
    rw [← htbody, u32Sub_of_le (by omega)]
    exact ite_not _ _ _

theorem updateLaw_iff (hstored : a.Stored m) :
    UpdateLaw malloc m a eid c ↔ Updatable malloc eid c a.elements := by
  rcases exists_firstAt eid a.elements with hnone | ⟨pre, t, post, hfirst⟩
  · rw [UpdateLaw, rtwIesUpdateIe_absent hstored hnone]
    refine iff_of_true ((unedited_iff hstored).mpr (replaceFirst_absent hnone)) ?_
    intro pre t post hfirst
    refine absurd hfirst.id (hnone t ?_)
    rw [hfirst.split]
    exact List.mem_append_right _ List.mem_cons_self
  · have honly : Updatable malloc eid c a.elements ↔ (t.body = [] → c.bytes = []) ∧
        (t.body.length ≠ c.bytes.length → malloc (encode post).length = true) := by
      refine ⟨fun h => h pre t post hfirst, fun h pre' t' post' hfirst' => ?_⟩
      obtain ⟨rfl, rfl⟩ := hfirst.unique hfirst'
      exact h
    have hkept : Edited m a (replaceFirst (c.element eid) a.elements) (m, a.bytes.length) ↔
        t.body = c.bytes := (unedited_iff hstored).trans (replaced_eq_iff hfirst)
    have hlist : Holds m (a.ies + a.fixed.length) (encode a.elements) := hstored.right
    have hheader := written_header m (a.ies + a.fixed.length + (encode pre).length) c
    rw [honly, UpdateLaw, rtwIesUpdateIe_first hstored hfirst rfl]
    dsimp only
    cases Decidable.eq_or_ne t.body [] with
    | inl hempty =>
      rw [if_pos hempty, hkept, hempty]
      constructor
      · intro hc
        exact ⟨fun _ => hc.symm, fun hne => absurd (congrArg List.length hc) hne⟩
      · exact fun h => (h.1 rfl).symm
    | inr hfull =>
      rw [if_neg hfull, and_iff_right fun hempty => absurd hempty hfull]
      cases Decidable.eq_or_ne t.body.length c.bytes.length with
      | inl hsame =>
        rw [if_pos hsame]
        refine iff_of_true ((hheader.stays ?_).edited hstored hfirst rfl ?_) (absurd hsame)
        · have hrest := (holds_elements (hfirst.split ▸ hlist)).right
          rw [Element.length_bytes, hsame, Nat.add_comm c.bytes.length 2, ← Nat.add_assoc] at hrest
          exact hrest
        · exact congrArg _ hsame
      | inr hdiffer =>
        rw [if_neg hdiffer, forall_prop_of_true hdiffer]
        cases hmalloc : malloc (encode post).length with
        | false =>
          rw [if_pos rfl, hkept]
          exact iff_of_false (fun hbody => hdiffer (congrArg _ hbody)) Bool.false_ne_true
        | true =>
          rw [if_neg nofun]
          refine iff_of_true ((hheader.move _).edited hstored hfirst rfl ?_) rfl
          have hfits : t.body.length ≤ a.bytes.length := by
            rw [IeArea.bytes, hfirst.split, encode_append, encode_cons]
            simp only [List.length_append, Element.length_bytes]
            omega
          exact Nat.sub_add_cancel (Nat.le_add_right_of_le hfits)

theorem removes_all (h : a.Stored m) : ∃ fuel r,
    rtwIesRemoveIe m a.ies a.bytes.length a.fixed.length eid [] fuel = some r ∧
      Edited m a (a.elements.filter (·.id ≠ eid)) (r.mem, r.iesLen) := by
  have hshort (ts : List Element) : ShortOnesDiffer eid [] ts := by
    induction ts with
    | nil => trivial
    | cons t ts ih => exact ⟨fun _ hlt => absurd hlt (Nat.not_lt_zero _), ih⟩
  have hkeeps : keeps eid [] = fun t => decide (t.id ≠ eid) := by
    funext t
    exact decide_eq_decide.mpr (not_congr (and_iff_left List.nil_prefix))
  obtain ⟨fuel, r, hrun, hremoves⟩ := (removeLaw_iff m a eid [] h).mpr (hshort a.elements)
  rw [hkeeps] at hremoves
  refine ⟨fuel, r, hrun, hremoves.mem, hremoves.iesLen, fun i hi => hremoves.outside i ?_⟩
  omega

theorem appended (hstored : a.Stored m) : Edited m a (a.elements ++ [c.element eid])
    (rtwSetIeAt m (a.ies + a.bytes.length) eid c, a.bytes.length + (c.bytes.length + 2)) := by
  have hnew : a.fixed ++ encode (a.elements ++ [c.element eid]) =
      a.bytes ++ (c.element eid).bytes := by
    rw [encode_append, encode_cons, encode_nil, List.append_nil, IeArea.bytes, List.append_assoc]
  have hlen : (c.element eid).bytes.length = c.bytes.length + 2 := rfl
  constructor
  · rw [hnew]
    exact Holds.write_end hstored rfl
  · rw [hnew, List.length_append, hlen]
  · intro i hi
    rw [hnew, List.length_append, hlen] at hi
    rcases hi with hlt | ⟨_, hge⟩
    · exact write_below _ _ (by omega)
    · refine write_above _ ?_
      simp only [List.length_cons]
      omega

theorem extCapLaw_iff (hstored : a.Stored m) :
    ExtCapLaw malloc m a c ↔ (c.bytes ≠ [] → Updatable malloc eidExtCap c a.elements) := by
  have hlimit : ((a.bytes.length : ℤ) - a.fixed.length) = (encode a.elements).length := by
    rw [IeArea.bytes, List.length_append]
    omega
  have hlist : Holds m (a.ies + a.fixed.length) (encode a.elements) := hstored.right
  cases Decidable.eq_or_ne c.bytes [] with
  | inl hempty =>
    refine iff_of_true ?_ (absurd hempty)
    obtain ⟨fuel, r, hrun, hedited⟩ := removes_all hstored
    refine ⟨fuel, (r.mem, r.iesLen), ?_, ?_⟩
    · rw [rtwUpdateExtCapIe, if_neg (by rw [hempty]; exact not_not_intro rfl), hrun, Option.map_some]
    · rw [extCapElements, if_pos hempty]
      exact hedited
  | inr hfull =>
    have hsize : c.bytes.length ≠ 0 := fun hzero => hfull (List.length_eq_zero_iff.mp hzero)
    rw [forall_prop_of_true hfull]
    rcases exists_firstAt eidExtCap a.elements with hnone | ⟨pre, t, post, hfirst⟩
    · have hfind := rtwGetIe_absent hlist hnone
      have hall : a.elements.all (·.id ≠ eidExtCap) = true :=
        List.all_eq_true.mpr fun t ht => decide_eq_true (hnone t ht)
      refine iff_of_true ⟨0, (rtwSetIeAt m (a.ies + a.bytes.length) eidExtCap c,
        a.bytes.length + (c.bytes.length + 2)), ?_, ?_⟩ ?_
      · rw [rtwUpdateExtCapIe, if_pos hsize, hlimit, hfind]
      · rw [extCapElements, if_neg hfull, if_pos hall]
        exact appended hstored
      · rw [← updateLaw_iff hstored, UpdateLaw, rtwIesUpdateIe_absent hstored hnone]
        exact (unedited_iff hstored).mpr (replaceFirst_absent hnone)
    · have hfind := rtwGetIe_first hlist hfirst
      have hpresent : ¬ a.elements.all (·.id ≠ eidExtCap) = true := by
        rw [List.all_eq_true]
        intro hall
        have hmem : t ∈ a.elements := by
          rw [hfirst.split]
          exact List.mem_append_right _ List.mem_cons_self
        exact of_decide_eq_true (hall t hmem) hfirst.id
      have hrun (fuel : ℕ) :
          rtwUpdateExtCapIe malloc m a.ies a.bytes.length a.fixed.length c fuel =
            let u := rtwIesUpdateIe malloc m a.ies a.bytes.length a.fixed.length eidExtCap c
            some (u.mem, u.iesLen) := by
        rw [rtwUpdateExtCapIe, if_pos hsize, hlimit, hfind]
      simp only [ExtCapLaw, hrun, extCapElements, if_neg hfull, if_neg hpresent]
      rw [← updateLaw_iff hstored, UpdateLaw]
      constructor
      · rintro ⟨_, r, hr, hedited⟩
        rw [← Option.some.inj hr] at hedited
        exact hedited
      · exact fun h => ⟨0, _, rfl, h⟩

end Update

theorem update_ie_iff (malloc : ℕ → Bool) (m : Mem) (a : IeArea) (c : Content)
    (h : a.Stored m) :
    (∀ eid, UpdateLaw malloc m a eid c ↔ Updatable malloc eid c a.elements) ∧
      (ExtCapLaw malloc m a c ↔
        (c.bytes ≠ [] → Updatable malloc eidExtCap c a.elements)) :=
  ⟨fun _ => updateLaw_iff h, extCapLaw_iff h⟩

theorem update_ie_iff_vendor :
    (∀ eid, UpdateLaw (fun _ => true) vendorArea.image vendorArea eid ⟨[1, 2], by decide⟩ ↔
      Updatable (fun _ => true) eid ⟨[1, 2], by decide⟩ vendorArea.elements) ∧
    (ExtCapLaw (fun _ => true) vendorArea.image vendorArea ⟨[1, 2], by decide⟩ ↔
      (([1, 2] : List UInt8) ≠ [] →
        Updatable (fun _ => true) eidExtCap ⟨[1, 2], by decide⟩ vendorArea.elements)) :=
  update_ie_iff _ _ _ _ (.of_read (by decide))

def emptyExtCapArea : IeArea := areaOf [] [emptyElement 127]

theorem empty_element_not_updated :
    ¬ UpdateLaw (fun _ => true) emptyExtCapArea.image emptyExtCapArea 127 ⟨[1], by decide⟩ ∧
      ¬ ExtCapLaw (fun _ => true) emptyExtCapArea.image emptyExtCapArea ⟨[1], by decide⟩ := by
  have hstored : emptyExtCapArea.Stored emptyExtCapArea.image := .of_read (by decide)
  have hstale : ¬ Updatable (fun _ => true) 127 ⟨[1], by decide⟩ emptyExtCapArea.elements :=
    fun h => absurd ((h [] _ [] ⟨rfl, nofun, rfl⟩).1 rfl) nofun
  exact ⟨mt (updateLaw_iff hstored).mp hstale,
    fun h => hstale ((extCapLaw_iff hstored).mp h nofun)⟩

end Ie
