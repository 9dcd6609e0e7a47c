import Rtl8188fu.Ie.VendorAttr
import Rtl8188fu.Ie.DeleteIe
import Rtl8188fu.Ie.RemoveIe

namespace Mbo

open ByteMemory CursorWalk Tlv Ie

def wfaMboOui : List UInt8 := [0x50, 0x6f, 0x9a, 0x16]

def attrAssocDisabled : UInt8 := 4

def fixedIes : ℕ := 12

structure WlanNetwork where
  mem : Mem
  ies : ℕ
  ieLength : ℕ
  placed : ies ≠ 0
  short : ieLength ≤ maxIeSz

def WlanNetwork.area (b : WlanNetwork) : List UInt8 := read b.mem b.ies b.ieLength

section Code

variable (m : Mem) (pie limit : ℕ) (attrId : UInt8)

def rtwMboIeGet : Option ℕ := (vendorAttrSearch wfaMboOui m pie limit).result

def attrSearch (i : ℕ) : Searcher :=
  rtwGetIeSearch m (pie + (i + 2 + wfaMboOui.length)) attrId.toNat
    (asInt (u32Sub (m (pie + i + 1)).toNat 4))

def rtwMboAttrsGet : Option ℕ :=
  if pie = 0 ∨ limit ≤ 1 then none
  else
    (rtwMboIeGet m pie limit).bind fun i =>
      (attrSearch m pie attrId i).result.map (i + 2 + wfaMboOui.length + ·)

def attrsReads : List ℕ :=
  if pie = 0 ∨ limit ≤ 1 then []
  else
    (vendorAttrSearch wfaMboOui m pie limit).readOffsets ++
      match rtwMboIeGet m pie limit with
      | none => []
      | some i => (attrSearch m pie attrId i).readOffsets.map (i + 2 + wfaMboOui.length + ·)

end Code

def WlanNetwork.disallowAttr (b : WlanNetwork) : Option ℕ :=
  rtwMboAttrsGet b.mem b.ies b.ieLength attrAssocDisabled

def rtwMboDisallowedNetwork : Option WlanNetwork → Bool
  | none => false
  | some b => b.disallowAttr.isSome

-- the reason printed by RTW_INFO is read from p + 3
def disallowedReads (info : Bool) (b : WlanNetwork) : List ℕ :=
  attrsReads b.mem b.ies b.ieLength attrAssocDisabled ++
    match b.disallowAttr with
    | none => []
    | some p => if info then [p + 3] else []

def Disallows (t : Element) : Prop :=
  t.id = eidVendorSpecific ∧ wfaMboOui <+: t.body ∧
    ∃ as rest, t.body.drop wfaMboOui.length = encode as ++ rest ∧ ∃ a ∈ as, a.id = attrAssocDisabled

structure DisallowLaw (info : Bool) (b : WlanNetwork) : Prop where
  inside : ∀ o ∈ disallowedReads info b, o < b.ieLength
  answers : ∀ fixed ts, b.area = fixed ++ encode ts → fixed.length = fixedIes →
    (rtwMboDisallowedNetwork (some b) = true ↔ ∃ t ∈ ts, Disallows t)

def hops (area : List UInt8) : Option (Option (List UInt8)) :=
  if area.length ≤ 1 then some none
  else
    match vendorSeek wfaMboOui area with
    | none => none
    | some none => some none
    | some (some (n, after)) =>
      attrSeek attrAssocDisabled (n - wfaMboOui.length) (after.drop wfaMboOui.length)

def HopsInside (info : Bool) (area : List UInt8) : Prop :=
  ∃ told, hops area = some told ∧ ∀ rest, told = some rest → info = true → 2 ≤ rest.length

def HopsTell (area : List UInt8) : Prop := ∃ rest, hops area = some (some rest)

section Told

variable {m : Mem} {pie limit i n : ℕ} {attrId : UInt8}

theorem attr_limit (hn : n < 256) : (asInt (u32Sub n 4)).toNat = n - 4 := by
  rw [u32Sub]
  split
  · rw [asInt, if_pos (by omega)]
    omega
  · rw [asInt, if_neg (by omega)]
    omega

theorem attrsGet_eq (hpie : pie ≠ 0) (hlimit : 1 < limit) : rtwMboAttrsGet m pie limit attrId =
    (rtwMboIeGet m pie limit).bind fun i =>
      (attrSearch m pie attrId i).result.map (i + 2 + wfaMboOui.length + ·) := by
  rw [rtwMboAttrsGet, if_neg]
  rintro (hnull | hshort)
  · exact hpie hnull
  · omega

theorem attrsReads_eq (hpie : pie ≠ 0) (hlimit : 1 < limit) : attrsReads m pie limit attrId =
    (vendorAttrSearch wfaMboOui m pie limit).readOffsets ++
      match rtwMboIeGet m pie limit with
      | none => []
      | some i => (attrSearch m pie attrId i).readOffsets.map (i + 2 + wfaMboOui.length + ·) := by
  rw [attrsReads, if_neg]
  rintro (hnull | hshort)
  · exact hpie hnull
  · omega

structure Told (m : Mem) (pie limit : ℕ) (told : Option (Option (List UInt8))) : Prop where
  inside : (∀ o ∈ attrsReads m pie limit attrAssocDisabled, o < limit) ↔ told ≠ none
  missed : told = some none → rtwMboAttrsGet m pie limit attrAssocDisabled = none
  hit : ∀ rest, told = some (some rest) →
    ∃ p, rtwMboAttrsGet m pie limit attrAssocDisabled = some p ∧ p + 2 + rest.length = limit

theorem Told.shut (hlimit : limit ≤ 1) : Told m pie limit (some none) := by
  have hreads : attrsReads m pie limit attrAssocDisabled = [] := if_pos (.inr hlimit)
  refine ⟨iff_of_true (fun o ho => ?_) (Option.some_ne_none _), fun _ => if_pos (.inr hlimit),
    fun rest htold => absurd (Option.some_inj.mp htold) (Option.some_ne_none _).symm⟩
  rw [hreads] at ho
  exact absurd ho List.not_mem_nil

theorem Told.attr (hpie : pie ≠ 0) (hlimit : 1 < limit)
    (hvendor : ∀ r ∈ (vendorAttrSearch wfaMboOui m pie limit).readOffsets, r < limit)
    (hfound : rtwMboIeGet m pie limit = some i)
    (hroom : i + 2 + wfaMboOui.length ≤ limit) :
    Told m pie limit (attrSeek attrAssocDisabled ((m (pie + i + 1)).toNat - wfaMboOui.length)
      (read m (pie + (i + 2 + wfaMboOui.length)) (limit - (i + 2 + wfaMboOui.length)))) := by
  have htold := attr_told m (pie + (i + 2 + wfaMboOui.length)) attrAssocDisabled
    (asInt (u32Sub (m (pie + i + 1)).toNat 4)).toNat (limit - (i + 2 + wfaMboOui.length)) 0
  have hsize : (asInt (u32Sub (m (pie + i + 1)).toNat 4)).toNat - 0 =
      (m (pie + i + 1)).toNat - wfaMboOui.length := by
    rw [attr_limit (m (pie + i + 1)).toNat_lt]
    rfl
  rw [hsize, Nat.add_zero (pie + (i + 2 + wfaMboOui.length)), Nat.sub_zero] at htold
  have hget : rtwMboAttrsGet m pie limit attrAssocDisabled =
      (attrSearch m pie attrAssocDisabled i).result.map (i + 2 + wfaMboOui.length + ·) := by
    rw [attrsGet_eq hpie hlimit, hfound, Option.bind_some]
  have hresult := getIe_result m (pie + (i + 2 + wfaMboOui.length)) attrAssocDisabled
    (asInt (u32Sub (m (pie + i + 1)).toNat 4))
  refine ⟨?_, fun hmiss => ?_, fun rest hrest => ?_⟩
  · rw [attrsReads_eq hpie hlimit, hfound, List.forall_mem_append, and_iff_right hvendor,
      List.forall_mem_map, ← htold.reads]
    refine forall₂_congr fun r _ => ?_
    omega
  · rw [hget, attrSearch, hresult, htold.missed hmiss, Option.map_none]
  · obtain ⟨j, hj, hend⟩ := htold.hit rest hrest
    refine ⟨i + 2 + wfaMboOui.length + j, ?_, by omega⟩
    rw [hget, attrSearch, hresult, hj, Option.map_some]

theorem hops_told (hpie : pie ≠ 0) : Told m pie limit (hops (read m pie limit)) := by
  rw [hops, length_read]
  cases Nat.lt_or_ge 1 limit with
  | inr hshut =>
    rw [if_pos hshut]
    exact .shut hshut
  | inl hlimit =>
    rw [if_neg (Nat.not_le.mpr hlimit)]
    have hlong : 0 < wfaMboOui.length := by decide
    have hvendor := vendor_told hlong m pie limit 0
    rw [Nat.add_zero, Nat.sub_zero] at hvendor
    have hreads := hvendor.reads hlong (by omega)
    have hresult : rtwMboIeGet m pie limit =
        find (getIeExWalk m pie limit eidVendorSpecific wfaMboOui) limit 0 := vendorAttr_result hlimit
    split
    · rename_i hleaves
      rw [hleaves] at hreads
      refine ⟨iff_of_false (fun hall => ?_) fun hne => hne rfl, ?_, ?_⟩
      · rw [attrsReads_eq hpie hlimit, List.forall_mem_append] at hall
        exact hreads.mp hall.1 rfl
      · exact fun htold => absurd htold (Option.some_ne_none _).symm
      · exact fun rest htold => absurd htold (Option.some_ne_none _).symm
    · rename_i hmiss
      have hnone : rtwMboIeGet m pie limit = none := hresult.trans (hvendor.missed hmiss)
      rw [hmiss] at hreads
      refine ⟨?_, fun _ => ?_, fun rest htold => ?_⟩
      · rw [attrsReads_eq hpie hlimit, hnone, List.append_nil]
        exact iff_of_true (hreads.mpr (Option.some_ne_none _)) (Option.some_ne_none _)
      · rw [attrsGet_eq hpie hlimit, hnone, Option.bind_none]
      · exact absurd (Option.some_inj.mp htold) (Option.some_ne_none _).symm
    · rename_i len after hhit
      obtain ⟨i, hi, hin, rfl, rfl, houi⟩ := hvendor.hit len after hhit
      rw [hhit] at hreads
      have hroom := houi.length_le
      rw [length_read] at hroom
      have hdrop := drop_read_sub m (pie + i + 2) hroom
      have haddr : pie + i + 2 + wfaMboOui.length = pie + (i + 2 + wfaMboOui.length) := by omega
      rw [Nat.sub_sub, haddr] at hdrop
      rw [hdrop]
      exact .attr hpie hlimit (hreads.mpr (Option.some_ne_none _)) (hresult.trans hi)
        (by omega)

end Told

theorem hops_inside (info : Bool) (b : WlanNetwork) :
    (∀ o ∈ disallowedReads info b, o < b.ieLength) ↔ HopsInside info b.area := by
  have htold : Told b.mem b.ies b.ieLength (hops (read b.mem b.ies b.ieLength)) :=
    hops_told b.placed
  rw [disallowedReads, List.forall_mem_append, htold.inside, HopsInside, WlanNetwork.area]
  cases hhops : hops (read b.mem b.ies b.ieLength) with
  | none =>
    refine iff_of_false (fun h => h.1 rfl) ?_
    rintro ⟨told, htold, -⟩
    exact absurd htold (Option.some_ne_none _).symm
  | some told =>
    rw [hhops] at htold
    rw [and_iff_right (Option.some_ne_none _)]
    cases told with
    | none =>
      have hnone : b.disallowAttr = none := htold.missed rfl
      rw [hnone]
      refine iff_of_true (fun o ho => absurd ho List.not_mem_nil) ⟨none, rfl, fun rest hrest => ?_⟩
      exact absurd hrest (Option.some_ne_none _).symm
    | some rest =>
      obtain ⟨p, hp, hend⟩ := htold.hit rest rfl
      have hsome : b.disallowAttr = some p := hp
      rw [hsome]
      constructor
      · refine fun hall => ⟨some rest, rfl, fun rest' hrest hinfo => ?_⟩
        obtain rfl := Option.some_inj.mp hrest
        have hlast := hall (p + 3) (by rw [hinfo]; exact List.mem_singleton.mpr rfl)
        omega
      · rintro ⟨told, htold, hlong⟩ o ho
        obtain rfl := Option.some_inj.mp htold
        cases info with
        | false => exact absurd ho List.not_mem_nil
        | true =>
          have hroom := hlong rest rfl rfl
          obtain rfl := List.mem_singleton.mp ho
          omega

theorem hops_tell {info : Bool} {b : WlanNetwork} (h : HopsInside info b.area) :
    rtwMboDisallowedNetwork (some b) = true ↔ HopsTell b.area := by
  have htold : Told b.mem b.ies b.ieLength (hops (read b.mem b.ies b.ieLength)) :=
    hops_told b.placed
  obtain ⟨told, hhops, -⟩ := h
  rw [WlanNetwork.area] at hhops
  rw [hhops] at htold
  rw [rtwMboDisallowedNetwork, HopsTell, WlanNetwork.area, hhops]
  cases told with
  | none =>
    have hnone : b.disallowAttr = none := htold.missed rfl
    rw [hnone]
    refine iff_of_false (by decide) ?_
    rintro ⟨rest, hrest⟩
    exact absurd (Option.some_inj.mp hrest) (Option.some_ne_none _).symm
  | some rest =>
    obtain ⟨p, hp, -⟩ := htold.hit rest rfl
    have hsome : b.disallowAttr = some p := hp
    rw [hsome]
    exact iff_of_true rfl ⟨rest, rfl⟩

theorem disallowed_law (info : Bool) (b : WlanNetwork) : DisallowLaw info b ↔
    HopsInside info b.area ∧ ∀ fixed ts, b.area = fixed ++ encode ts → fixed.length = fixedIes →
      (HopsTell b.area ↔ ∃ t ∈ ts, Disallows t) := by
  constructor
  · rintro ⟨hinside, hanswers⟩
    have hhops := (hops_inside info b).mp hinside
    refine ⟨hhops, fun fixed ts harea hfixed => ?_⟩
    rw [← hops_tell hhops]
    exact hanswers fixed ts harea hfixed
  · rintro ⟨hhops, hagree⟩
    refine ⟨(hops_inside info b).mpr hhops, fun fixed ts harea hfixed => ?_⟩
    rw [hops_tell hhops]
    exact hagree fixed ts harea hfixed

-- an element the hops pass without taking it, or the bytes behind it, for MBO
def Passed (t : Element) : Prop :=
  t.id = eidVendorSpecific → wfaMboOui.length ≤ t.body.length ∧ ¬ wfaMboOui <+: t.body

structure MboElement (t : Element) (attrs : List Element) : Prop where
  id : t.id = eidVendorSpecific
  body : t.body = wfaMboOui ++ encode attrs

section Joined

variable {t : Element} {hs pre post attrs as : List Element} {rest : List UInt8}

theorem Passed.not_disallows (h : Passed t) : ¬ Disallows t :=
  fun hd => (h hd.1).2 hd.2.1

theorem vendorSeek_passed (h : ∀ t ∈ hs, Passed t) :
    vendorSeek wfaMboOui (encode hs ++ rest) = vendorSeek wfaMboOui rest := by
  induction hs with
  | nil => rfl
  | cons t hs ih =>
    obtain ⟨ht, hhs⟩ := List.forall_mem_cons.mp h
    have hsplit : encode (t :: hs) ++ rest =
        t.id :: UInt8.ofNat t.body.length :: (t.body ++ (encode hs ++ rest)) := by
      simp [Element.bytes]
    have hlong : ¬ (t.id = eidVendorSpecific ∧
        (t.body ++ (encode hs ++ rest)).length < wfaMboOui.length) := by
      rintro ⟨hid, hlt⟩
      have hbody := (ht hid).1
      rw [List.length_append] at hlt
      omega
    have hmiss : ¬ (t.id = eidVendorSpecific ∧
        wfaMboOui <+: t.body ++ (encode hs ++ rest)) := by
      rintro ⟨hid, hprefix⟩
      obtain ⟨hbody, hnot⟩ := ht hid
      exact hnot (List.prefix_of_prefix_length_le hprefix (List.prefix_append _ _) hbody)
    rw [hsplit, vendorSeek, if_neg hlong, if_neg hmiss, t.toNat_length, List.drop_left]
    exact ih hhs

theorem vendorSeek_mbo (h : MboElement t attrs) : vendorSeek wfaMboOui (t.bytes ++ rest) =
    some (some (t.body.length, wfaMboOui ++ (encode attrs ++ rest))) := by
  have hsplit : t.bytes ++ rest = t.id :: UInt8.ofNat t.body.length ::
      (wfaMboOui ++ (encode attrs ++ rest)) := by
    simp [Element.bytes, h.body]
  have hlong : ¬ (t.id = eidVendorSpecific ∧
      (wfaMboOui ++ (encode attrs ++ rest)).length < wfaMboOui.length) := by
    rintro ⟨-, hlt⟩
    rw [List.length_append] at hlt
    omega
  rw [hsplit, vendorSeek, if_neg hlong, if_pos ⟨h.id, List.prefix_append _ _⟩, t.toNat_length]

theorem attrSeek_missed {id : UInt8} (h : ∀ a ∈ as, a.id ≠ id) :
    attrSeek id (encode as).length (encode as ++ rest) = some none := by
  induction as with
  | nil => rw [encode_nil, List.length_nil, attrSeek]
  | cons a as ih =>
    obtain ⟨ha, has⟩ := List.forall_mem_cons.mp h
    have hsize : (encode (a :: as)).length = a.body.length + 1 + (encode as).length + 1 := by
      rw [encode_cons, List.length_append, Element.length_bytes]
      omega
    have hsplit : encode (a :: as) ++ rest =
        a.id :: UInt8.ofNat a.body.length :: (a.body ++ (encode as ++ rest)) := by
      simp [Element.bytes]
    rw [hsize, hsplit, attrSeek, if_neg ha, a.toNat_length, List.drop_left, Nat.add_sub_cancel_left]
    exact ih has

theorem attrSeek_hit {id : UInt8} {a : Element} (has : a ∈ as) (ha : a.id = id) :
    ∃ left, attrSeek id (encode as).length (encode as ++ rest) = some (some (left ++ rest)) := by
  induction as with
  | nil => exact absurd has List.not_mem_nil
  | cons u as ih =>
    have hsize : (encode (u :: as)).length = u.body.length + 1 + (encode as).length + 1 := by
      rw [encode_cons, List.length_append, Element.length_bytes]
      omega
    have hsplit : encode (u :: as) ++ rest =
        u.id :: UInt8.ofNat u.body.length :: (u.body ++ (encode as ++ rest)) := by
      simp [Element.bytes]
    rw [hsize, hsplit, attrSeek]
    cases Decidable.em (u.id = id) with
    | inl hu => exact ⟨u.body ++ encode as, by rw [if_pos hu, List.append_assoc]⟩
    | inr hu =>
      have hlater := (List.mem_cons.mp has).resolve_left fun heq => hu (heq ▸ ha)
      rw [if_neg hu, u.toNat_length, List.drop_left, Nat.add_sub_cancel_left]
      exact ih hlater

theorem mem_of_encode_append {us : List Element} (h : encode as = encode us ++ rest) :
    ∀ u ∈ us, u ∈ as := by
  induction us generalizing as with
  | nil => exact nofun
  | cons u us ih =>
    cases as with
    | nil => exact absurd h nofun
    | cons a as =>
      rw [encode_cons, encode_cons, List.append_assoc] at h
      obtain ⟨rfl, hlater⟩ := Element.bytes_inj h
      exact List.forall_mem_cons.mpr
        ⟨List.mem_cons_self, fun v hv => List.mem_cons_of_mem a (ih hlater v hv)⟩

theorem MboElement.disallows_iff (h : MboElement t attrs) :
    Disallows t ↔ ∃ a ∈ attrs, a.id = attrAssocDisabled := by
  constructor
  · rintro ⟨-, -, as, rest, hbody, a, ha, hid⟩
    rw [h.body, List.drop_left] at hbody
    exact ⟨a, mem_of_encode_append hbody a ha, hid⟩
  · intro hattr
    refine ⟨h.id, h.body ▸ List.prefix_append _ _, attrs, [], ?_, hattr⟩
    rw [h.body, List.drop_left, List.append_nil]

-- the hops, which start in the fixed bytes, join the list's boundaries before its first MBO element
structure Joins (info : Bool) (area fixed : List UInt8) (hs pre : List Element) (t : Element)
    (attrs post : List Element) : Prop where
  list : area = fixed ++ encode (pre ++ t :: post)
  twelve : fixed.length = fixedIes
  joined : fixed ++ encode pre = encode hs
  passed : ∀ u ∈ hs ++ pre, Passed u
  mbo : MboElement t attrs
  only : ∀ u ∈ post, Disallows u → ∃ a ∈ attrs, a.id = attrAssocDisabled
  reason : info = true → post ≠ []

theorem Joins.hops {info : Bool} {area fixed : List UInt8}
    (h : Joins info area fixed hs pre t attrs post) :
    hops area = attrSeek attrAssocDisabled (encode attrs).length (encode attrs ++ encode post) := by
  have harea : area = encode hs ++ (t.bytes ++ encode post) := by
    rw [h.list, encode_append, encode_cons, ← List.append_assoc, h.joined]
  have hlong : ¬ area.length ≤ 1 := by
    rw [h.list, List.length_append, h.twelve, fixedIes]
    omega
  have hsize : t.body.length - wfaMboOui.length = (encode attrs).length := by
    rw [h.mbo.body, List.length_append, Nat.add_sub_cancel_left]
  rw [Mbo.hops, if_neg hlong, harea,
    vendorSeek_passed fun u hu => h.passed u (List.mem_append_left pre hu), vendorSeek_mbo h.mbo]
  dsimp only
  rw [hsize, List.drop_left]

theorem Joins.list_iff {info : Bool} {area fixed : List UInt8}
    (h : Joins info area fixed hs pre t attrs post) :
    (∃ u ∈ pre ++ t :: post, Disallows u) ↔ ∃ a ∈ attrs, a.id = attrAssocDisabled := by
  constructor
  · rintro ⟨u, hu, hdis⟩
    rcases List.mem_append.mp hu with hpre | hlater
    · exact absurd hdis (h.passed u (List.mem_append_right hs hpre)).not_disallows
    · rcases List.mem_cons.mp hlater with rfl | hpost
      · exact h.mbo.disallows_iff.mp hdis
      · exact h.only u hpost hdis
  · exact fun hattr => ⟨t, List.mem_append_right pre List.mem_cons_self,
      h.mbo.disallows_iff.mpr hattr⟩

theorem disallowed_joined {info : Bool} {b : WlanNetwork} {fixed : List UInt8}
    (h : Joins info b.area fixed hs pre t attrs post) : DisallowLaw info b := by
  have hlist {fixed' : List UInt8} {ts : List Element} (harea : b.area = fixed' ++ encode ts)
      (hfixed : fixed'.length = fixedIes) : ts = pre ++ t :: post := by
    obtain ⟨-, hbytes⟩ := List.append_inj (harea.symm.trans h.list) (hfixed.trans h.twelve.symm)
    exact encode_injective hbytes
  cases Classical.em (∃ a ∈ attrs, a.id = attrAssocDisabled) with
  | inl hattr =>
    obtain ⟨a, ha, hid⟩ := hattr
    obtain ⟨left, hleft⟩ : ∃ left, attrSeek attrAssocDisabled (encode attrs).length
        (encode attrs ++ encode post) = some (some (left ++ encode post)) := attrSeek_hit ha hid
    have hhops : hops b.area = some (some (left ++ encode post)) := h.hops.trans hleft
    have hinside : HopsInside info b.area := by
      refine ⟨_, hhops, fun rest hrest hinfo => ?_⟩
      obtain ⟨u, us, hpost⟩ := List.exists_cons_of_ne_nil (h.reason hinfo)
      rw [← Option.some_inj.mp hrest, hpost, encode_cons, List.length_append, List.length_append,
        Element.length_bytes]
      omega
    refine ⟨(hops_inside info b).mpr hinside, fun fixed' ts harea hfixed => ?_⟩
    rw [hops_tell hinside, hlist harea hfixed, h.list_iff]
    exact iff_of_true ⟨_, hhops⟩ ⟨a, ha, hid⟩
  | inr hnone =>
    have hhops : hops b.area = some none :=
      h.hops.trans (attrSeek_missed fun a ha hid => hnone ⟨a, ha, hid⟩)
    have hinside : HopsInside info b.area :=
      ⟨_, hhops, fun rest hrest => absurd hrest (Option.some_ne_none _).symm⟩
    refine ⟨(hops_inside info b).mpr hinside, fun fixed' ts harea hfixed => ?_⟩
    rw [hops_tell hinside, hlist harea hfixed, h.list_iff]
    refine iff_of_false ?_ hnone
    rintro ⟨rest, hrest⟩
    rw [hhops] at hrest
    exact absurd (Option.some_inj.mp hrest) (Option.some_ne_none _).symm

end Joined

def hiddenFixed : List UInt8 := [0, 20, 0, 0, 0, 0, 0, 0, 100, 0, 1, 0]

def disallowing : Element := ⟨221, [0x50, 0x6f, 0x9a, 0x16, 4, 1, 1], by decide⟩

def hiddenNetwork : WlanNetwork where
  mem := memOf (hiddenFixed ++ encode [disallowing]) 0x1000
  ies := 0x1000
  ieLength := 21
  placed := Nat.succ_ne_zero 0xfff
  short := Nat.le_of_ble_eq_true rfl

theorem disallowing_disallows : Disallows disallowing :=
  ⟨rfl, ⟨[4, 1, 1], rfl⟩, [⟨4, [1], by decide⟩], [], rfl, _, List.mem_singleton.mpr rfl, rfl⟩

-- with a timestamp of zero the hops go two bytes at a time and join the list
def zeroFixed : List UInt8 := [0, 0, 0, 0, 0, 0, 0, 0, 100, 0, 1, 0]

def joinedNetwork : WlanNetwork :=
  { hiddenNetwork with mem := memOf (zeroFixed ++ encode [disallowing]) 0x1000 }

example : DisallowLaw false joinedNetwork := by
  have harea : joinedNetwork.area = zeroFixed ++ encode [disallowing] := by decide
  have hjoins : Joins false joinedNetwork.area zeroFixed
      (([0, 0, 0, 0, 100, 1] : List UInt8).map fun id => ⟨id, [], by decide⟩) [] disallowing
      [⟨4, [1], by decide⟩] [] :=
    ⟨harea, rfl, rfl, by simp [Passed, eidVendorSpecific], ⟨rfl, rfl⟩, nofun, nofun⟩
  exact disallowed_joined hjoins

theorem timestamp_hides_element : ¬ DisallowLaw false hiddenNetwork := by
  rintro ⟨-, hanswers⟩
  have hanswer := hanswers hiddenFixed [disallowing] (by decide) rfl
  have hfound : rtwMboDisallowedNetwork (some hiddenNetwork) = true :=
    hanswer.mpr ⟨disallowing, List.mem_singleton.mpr rfl, disallowing_disallows⟩
  exact absurd hfound (by decide)

end Mbo
