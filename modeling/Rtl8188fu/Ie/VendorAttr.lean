import Rtl8188fu.Ie.Searchers

namespace Ie

open ByteMemory CursorWalk Tlv

-- the body of rtw_mbo_ie_get and of rtw_wnm_non_pref_ch_attr_get
def vendorAttrSearch (oui : List UInt8) (m : Mem) (pie limit : ℕ) : Searcher where
  enters := decide (1 < limit)
  limit := limit
  walk := getIeExWalk m pie limit eidVendorSpecific oui
  accepts _ := true
  reads i := i :: (i + 1) :: ouiOffsets (m (pie + i) = eidVendorSpecific) i oui.length

-- some none: no such element on the chain; none: the chain reads past the end
def vendorSeek (oui : List UInt8) : List UInt8 → Option (Option (ℕ × List UInt8))
  | [] => some none
  | [_] => none
  | x :: n :: xs =>
    if x = eidVendorSpecific ∧ xs.length < oui.length then none
    else if x = eidVendorSpecific ∧ oui <+: xs then some (some (n.toNat, xs))
    else vendorSeek oui (xs.drop n.toNat)
termination_by bs => bs.length
decreasing_by
  simp only [List.length_drop, List.length_cons]
  omega

def attrSeek (id : UInt8) : ℕ → List UInt8 → Option (Option (List UInt8))
  | 0, _ => some none
  | _ + 1, [] => none
  | _ + 1, [_] => none
  | limit + 1, x :: n :: xs =>
    if x = id then some (some xs) else attrSeek id (limit - (n.toNat + 1)) (xs.drop n.toNat)
termination_by _ bs => bs.length
decreasing_by
  simp only [List.length_drop, List.length_cons]
  omega

section Vendor

variable {oui : List UInt8} {m : Mem} {pie limit o : ℕ}

theorem vendorWalk_advances : Advances (getIeExWalk m pie limit eidVendorSpecific oui) limit :=
  getIeExWalk_advances m pie limit eidVendorSpecific oui

theorem vendorAttr_runs (h : limit ≠ 1) : (vendorAttrSearch oui m pie limit).Runs := by
  refine ⟨vendorWalk_advances, fun i hi => decide_eq_true ?_⟩
  have hlt : i < limit := of_decide_eq_true hi
  omega

def VendorInside (oui : List UInt8) (m : Mem) (pie limit i : ℕ) : Prop :=
  i + 1 < limit ∧ (m (pie + i) = eidVendorSpecific → i + 2 + oui.length ≤ limit)

theorem vendorReads_inside {i : ℕ} (hlong : 0 < oui.length) :
    (∀ r ∈ (vendorAttrSearch oui m pie limit).reads i, r < limit) ↔
      VendorInside oui m pie limit i := by
  have hreads (r : ℕ) : r ∈ (vendorAttrSearch oui m pie limit).reads i ↔
      r = i ∨ r = i + 1 ∨
        (m (pie + i) = eidVendorSpecific ∧ i + 2 ≤ r ∧ r < i + 2 + oui.length) := by
    rw [vendorAttrSearch, List.mem_cons, List.mem_cons, mem_ouiOffsets]
  rw [VendorInside]
  constructor
  · intro h
    refine ⟨h (i + 1) ((hreads _).mpr (.inr (.inl rfl))), fun hid => ?_⟩
    have hlast := h (i + 2 + oui.length - 1) ((hreads _).mpr (.inr (.inr ⟨hid, by omega, by omega⟩)))
    omega
  · rintro ⟨hnext, houi⟩ r hr
    rcases (hreads r).mp hr with rfl | rfl | ⟨hid, -, hlt⟩
    · omega
    · exact hnext
    · have hend := houi hid
      omega

structure VendorTold (oui : List UInt8) (m : Mem) (pie limit o : ℕ)
    (told : Option (Option (ℕ × List UInt8))) : Prop where
  inside : (∀ i, Visits (getIeExWalk m pie limit eidVendorSpecific oui) o i →
    VendorInside oui m pie limit i) ↔ told ≠ none
  missed : told = some none →
    find (getIeExWalk m pie limit eidVendorSpecific oui) limit o = none
  hit : ∀ n after, told = some (some (n, after)) → ∃ i,
    find (getIeExWalk m pie limit eidVendorSpecific oui) limit o = some i ∧ i + 2 ≤ limit ∧
      n = (m (pie + i + 1)).toNat ∧ after = read m (pie + i + 2) (limit - (i + 2)) ∧
        oui <+: after

theorem VendorTold.outside (h : limit ≤ o) : VendorTold oui m pie limit o (some none) := by
  have hout : (getIeExWalk m pie limit eidVendorSpecific oui).inside o = false :=
    decide_eq_false (Nat.not_lt_of_le h)
  refine ⟨iff_of_true (forall_visits_outside hout) (Option.some_ne_none _),
    fun _ => vendorWalk_advances.find_outside hout, fun n after htold => ?_⟩
  exact absurd (Option.some_inj.mp htold) (Option.some_ne_none _).symm

theorem VendorTold.leaves (hin : o < limit) (h : ¬ VendorInside oui m pie limit o) :
    VendorTold oui m pie limit o none := by
  have hinside : (getIeExWalk m pie limit eidVendorSpecific oui).inside o = true :=
    decide_eq_true hin
  refine ⟨iff_of_false (fun hall => h (hall o (.here hinside))) fun hne => hne rfl, ?_, ?_⟩
  · exact fun htold => absurd htold (Option.some_ne_none _).symm
  · exact fun n after htold => absurd htold (Option.some_ne_none _).symm

theorem VendorTold.found (hin : o + 2 ≤ limit) (hhere : VendorInside oui m pie limit o)
    (hid : m (pie + o) = eidVendorSpecific)
    (houi : oui <+: read m (pie + o + 2) (limit - (o + 2))) :
    VendorTold oui m pie limit o
      (some (some ((m (pie + o + 1)).toNat, read m (pie + o + 2) (limit - (o + 2))))) := by
  have hinside : (getIeExWalk m pie limit eidVendorSpecific oui).inside o = true :=
    decide_eq_true (by omega)
  have hholds : Holds m (pie + o + 2) oui := by
    have hwhole : Holds m (pie + o + 2) (read m (pie + o + 2) (limit - (o + 2))) :=
      .of_read (by rw [length_read])
    exact hwhole.restrict houi
  have hfound : (getIeExWalk m pie limit eidVendorSpecific oui).found o = true := by
    rw [getIeExWalk, Bool.and_eq_true, decide_eq_true_iff, memcmp_iff]
    exact ⟨hid, hholds⟩
  refine ⟨iff_of_true ?_ (Option.some_ne_none _), ?_, fun n after htold => ?_⟩
  · refine (forall_visits hinside).mpr ⟨hhere, fun hmiss => ?_⟩
    exact absurd (hfound.symm.trans hmiss) (by decide)
  · exact fun htold => absurd (Option.some_inj.mp htold) (Option.some_ne_none _)
  · obtain ⟨rfl, rfl⟩ := Prod.mk.inj (Option.some_inj.mp (Option.some_inj.mp htold))
    exact ⟨o, vendorWalk_advances.find_found hinside hfound, hin, rfl, rfl, houi⟩

theorem VendorTold.passes {told : Option (Option (ℕ × List UInt8))} (hin : o < limit)
    (hhere : VendorInside oui m pie limit o)
    (hmiss : ¬ (m (pie + o) = eidVendorSpecific ∧ Holds m (pie + o + 2) oui))
    (h : VendorTold oui m pie limit (nextElement m pie o) told) :
    VendorTold oui m pie limit o told := by
  have hinside : (getIeExWalk m pie limit eidVendorSpecific oui).inside o = true :=
    decide_eq_true hin
  have hfound : (getIeExWalk m pie limit eidVendorSpecific oui).found o = false := by
    refine eq_false_of_ne_true fun hyes => hmiss ?_
    rw [getIeExWalk, Bool.and_eq_true, decide_eq_true_iff, memcmp_iff] at hyes
    exact hyes
  have hfind := (getIeExWalk_advances m pie limit eidVendorSpecific oui).find_next hinside hfound
  refine ⟨?_, fun htold => hfind.trans (h.missed htold), fun n after htold => ?_⟩
  · rw [forall_visits hinside, and_iff_right hhere, ← h.inside]
    exact ⟨fun hall => hall hfound, fun hall _ => hall⟩
  · obtain ⟨i, hi, hrest⟩ := h.hit n after htold
    exact ⟨i, hfind.trans hi, hrest⟩

theorem vendor_told (hlong : 0 < oui.length) (m : Mem) (pie limit o : ℕ) :
    VendorTold oui m pie limit o (vendorSeek oui (read m (pie + o) (limit - o))) := by
  induction hn : limit - o using Nat.strongRecOn generalizing o with
  | ind n ih =>
    match n, hn with
    | 0, hn =>
      have hnil : vendorSeek oui (read m (pie + o) 0) = some none := by rw [read_zero, vendorSeek]
      rw [hnil]
      exact .outside (by omega)
    | 1, hn =>
      have hone : vendorSeek oui (read m (pie + o) 1) = none := by
        rw [read_succ, read_zero, vendorSeek]
      rw [hone]
      exact .leaves (by omega) fun h => by
        have hroom := h.1
        omega
    | k + 2, hn =>
      have hk : limit - (o + 2) = k := by omega
      rw [read_succ, read_succ, vendorSeek]
      have hlen : (read m (pie + o + 1 + 1) k).length = k := length_read _ _ _
      have hwhole : Holds m (pie + o + 2) (read m (pie + o + 2) k) := .of_read (by rw [length_read])
      split
      · rename_i hshort
        rw [hlen] at hshort
        exact .leaves (by omega) fun h => by
          have hroom := h.2 hshort.1
          omega
      · rename_i hroom
        rw [hlen] at hroom
        have hhere : VendorInside oui m pie limit o := by
          refine ⟨by omega, fun hid => ?_⟩
          have hfits : ¬ k < oui.length := fun hlt => hroom ⟨hid, hlt⟩
          omega
        split
        · rename_i hhit
          have houi : oui <+: read m (pie + o + 2) (limit - (o + 2)) := by
            rw [hk]
            exact hhit.2
          have hfound := VendorTold.found (by omega) hhere hhit.1 houi
          rw [hk] at hfound
          exact hfound
        · rename_i hmiss
          have hnot : ¬ (m (pie + o) = eidVendorSpecific ∧ Holds m (pie + o + 2) oui) := by
            rintro ⟨hid, hholds⟩
            have hfits : ¬ k < oui.length := fun hlt => hroom ⟨hid, hlt⟩
            refine hmiss ⟨hid, ?_⟩
            exact (hwhole.prefix_iff (by rw [length_read]; omega)).mp hholds
          have hnext : nextElement m pie o = o + 2 + (m (pie + o + 1)).toNat := by
            rw [nextElement]
            omega
          refine .passes (by omega) hhere hnot ?_
          rw [hnext]
          cases Nat.lt_or_ge k (m (pie + o + 1)).toNat with
          | inl hpast =>
            rw [drop_read_nil _ _ (Nat.le_of_lt hpast), vendorSeek]
            exact .outside (by omega)
          | inr hwithin =>
            rw [drop_read_sub _ _ hwithin]
            have hrest := ih (limit - (o + 2 + (m (pie + o + 1)).toNat)) (by omega)
              (o + 2 + (m (pie + o + 1)).toNat) rfl
            have hsize : limit - (o + 2 + (m (pie + o + 1)).toNat) =
                k - (m (pie + o + 1)).toNat := by omega
            have haddr : pie + (o + 2 + (m (pie + o + 1)).toNat) =
                pie + o + 1 + 1 + (m (pie + o + 1)).toNat := by omega
            rw [hsize, haddr] at hrest
            exact hrest

theorem vendorAttr_result (hlimit : 1 < limit) : (vendorAttrSearch oui m pie limit).result =
    find (getIeExWalk m pie limit eidVendorSpecific oui) limit 0 := by
  have henters : (vendorAttrSearch oui m pie limit).enters = true := decide_eq_true hlimit
  rw [Searcher.result, if_pos henters]
  exact filter_all _

theorem VendorTold.reads {told : Option (Option (ℕ × List UInt8))} (hlong : 0 < oui.length)
    (hlimit : limit ≠ 1) (h : VendorTold oui m pie limit 0 told) :
    (∀ r ∈ (vendorAttrSearch oui m pie limit).readOffsets, r < limit) ↔ told ≠ none := by
  have hmem (r : ℕ) : r ∈ (vendorAttrSearch oui m pie limit).readOffsets ↔
      ∃ i, Visits (getIeExWalk m pie limit eidVendorSpecific oui) 0 i ∧
        r ∈ (vendorAttrSearch oui m pie limit).reads i := (vendorAttr_runs hlimit).mem_readOffsets
  rw [← h.inside]
  constructor
  · refine fun hall i hi => (vendorReads_inside hlong).mp fun r hr => ?_
    exact hall r ((hmem r).mpr ⟨i, hi, hr⟩)
  · intro hall r hr
    obtain ⟨i, hi, hri⟩ := (hmem r).mp hr
    exact (vendorReads_inside hlong).mpr (hall i hi) r hri

end Vendor

section Attr

variable {m : Mem} {base limit room o : ℕ} {id : UInt8}

structure AttrTold (m : Mem) (base : ℕ) (id : UInt8) (limit room o : ℕ)
    (told : Option (Option (List UInt8))) : Prop where
  inside : (∀ j, Visits (getIeWalk m base id.toNat limit) o j → j + 1 < room) ↔ told ≠ none
  missed : told = some none → find (getIeWalk m base id.toNat limit) limit o = none
  hit : ∀ after, told = some (some after) → ∃ j,
    find (getIeWalk m base id.toNat limit) limit o = some j ∧ j + 2 + after.length = room

theorem attrWalk_found {j : ℕ} :
    (getIeWalk m base id.toNat limit).found j = decide (m (base + j) = id) := by
  rw [getIeWalk]
  refine decide_eq_decide.mpr ?_
  rw [Int.ofNat_inj, UInt8.toNat_inj]

theorem AttrTold.outside (h : limit ≤ o) : AttrTold m base id limit room o (some none) := by
  have hout : (getIeWalk m base id.toNat limit).inside o = false :=
    decide_eq_false (Nat.not_lt_of_le h)
  refine ⟨iff_of_true (forall_visits_outside hout) (Option.some_ne_none _),
    fun _ => (getIeWalk_advances m base _ limit).find_outside hout, fun after htold => ?_⟩
  exact absurd (Option.some_inj.mp htold) (Option.some_ne_none _).symm

theorem AttrTold.leaves (hin : o < limit) (h : room ≤ o + 1) :
    AttrTold m base id limit room o none := by
  have hinside : (getIeWalk m base id.toNat limit).inside o = true := decide_eq_true hin
  refine ⟨iff_of_false (fun hall => ?_) fun hne => hne rfl, ?_, ?_⟩
  · have hroom := hall o (.here hinside)
    omega
  · exact fun htold => absurd htold (Option.some_ne_none _).symm
  · exact fun after htold => absurd htold (Option.some_ne_none _).symm

theorem AttrTold.found {after : List UInt8} (hin : o < limit) (hid : m (base + o) = id)
    (hroom : o + 2 + after.length = room) :
    AttrTold m base id limit room o (some (some after)) := by
  have hinside : (getIeWalk m base id.toNat limit).inside o = true := decide_eq_true hin
  have hfound : (getIeWalk m base id.toNat limit).found o = true :=
    attrWalk_found.trans (decide_eq_true hid)
  refine ⟨iff_of_true ?_ (Option.some_ne_none _), ?_, fun rest htold => ?_⟩
  · refine (forall_visits hinside).mpr ⟨by omega, fun hmiss => ?_⟩
    exact absurd (hfound.symm.trans hmiss) (by decide)
  · exact fun htold => absurd (Option.some_inj.mp htold) (Option.some_ne_none _)
  · obtain rfl := Option.some_inj.mp (Option.some_inj.mp htold)
    exact ⟨o, (getIeWalk_advances m base _ limit).find_found hinside hfound, hroom⟩

theorem AttrTold.passes {told : Option (Option (List UInt8))} (hin : o < limit)
    (hroom : o + 1 < room) (hmiss : m (base + o) ≠ id)
    (h : AttrTold m base id limit room (nextElement m base o) told) :
    AttrTold m base id limit room o told := by
  have hinside : (getIeWalk m base id.toNat limit).inside o = true := decide_eq_true hin
  have hfound : (getIeWalk m base id.toNat limit).found o = false :=
    attrWalk_found.trans (decide_eq_false hmiss)
  have hfind := (getIeWalk_advances m base id.toNat limit).find_next hinside hfound
  refine ⟨?_, fun htold => hfind.trans (h.missed htold), fun after htold => ?_⟩
  · rw [forall_visits hinside, and_iff_right hroom, ← h.inside]
    exact ⟨fun hall => hall hfound, fun hall _ => hall⟩
  · obtain ⟨j, hj, hsize⟩ := h.hit after htold
    exact ⟨j, hfind.trans hj, hsize⟩

theorem attr_told (m : Mem) (base : ℕ) (id : UInt8) (limit room o : ℕ) :
    AttrTold m base id limit room o (attrSeek id (limit - o) (read m (base + o) (room - o))) := by
  induction hn : limit - o using Nat.strongRecOn generalizing o with
  | ind n ih =>
    match n, hn with
    | 0, hn =>
      rw [attrSeek]
      exact .outside (by omega)
    | n + 1, hn =>
      match hk : room - o with
      | 0 =>
        rw [read_zero, attrSeek]
        exact .leaves (by omega) (by omega)
      | 1 =>
        rw [read_succ, read_zero, attrSeek]
        exact .leaves (by omega) (by omega)
      | k + 2 =>
        rw [read_succ, read_succ, attrSeek]
        split
        · rename_i hid
          exact .found (by omega) hid (by rw [length_read]; omega)
        · rename_i hmiss
          have hnext : nextElement m base o = o + 2 + (m (base + o + 1)).toNat := by
            rw [nextElement]
            omega
          refine .passes (by omega) (by omega) hmiss ?_
          rw [hnext]
          have hrest := ih (limit - (o + 2 + (m (base + o + 1)).toNat)) (by omega)
            (o + 2 + (m (base + o + 1)).toNat) rfl
          have hlimit : limit - (o + 2 + (m (base + o + 1)).toNat) =
              n - ((m (base + o + 1)).toNat + 1) := by omega
          have hroom : room - (o + 2 + (m (base + o + 1)).toNat) =
              k - (m (base + o + 1)).toNat := by omega
          have haddr : base + (o + 2 + (m (base + o + 1)).toNat) =
              base + o + 1 + 1 + (m (base + o + 1)).toNat := by omega
          rw [hlimit, hroom, haddr] at hrest
          cases Nat.lt_or_ge k (m (base + o + 1)).toNat with
          | inl hpast =>
            rw [drop_read_nil _ _ (Nat.le_of_lt hpast)]
            rw [Nat.sub_eq_zero_of_le (Nat.le_of_lt hpast), read_zero] at hrest
            exact hrest
          | inr hwithin =>
            rw [drop_read_sub _ _ hwithin]
            exact hrest

theorem getIe_result (m : Mem) (base : ℕ) (id : UInt8) (limit : ℤ) :
    (rtwGetIeSearch m base id.toNat limit).result =
      find (getIeWalk m base id.toNat limit.toNat) limit.toNat 0 := by
  have hboth := (rtwGetIe_eq m base id limit).symm.trans (rtwGetIe_find m base id limit)
  exact Option.map_injective (fun _ _ => Nat.add_left_cancel) hboth

theorem AttrTold.reads {limit : ℤ} {told : Option (Option (List UInt8))}
    (h : AttrTold m base id limit.toNat room 0 told) :
    (∀ r ∈ (rtwGetIeSearch m base id.toNat limit).readOffsets, r < room) ↔ told ≠ none := by
  have hmem (r : ℕ) : r ∈ (rtwGetIeSearch m base id.toNat limit).readOffsets ↔
      ∃ j, Visits (getIeWalk m base id.toNat limit.toNat) 0 j ∧ r ∈ [j, j + 1] :=
    (getIe_runs m base id.toNat limit).mem_readOffsets
  rw [← h.inside]
  constructor
  · exact fun hall j hj => hall (j + 1) ((hmem _).mpr ⟨j, hj, List.mem_pair.mpr (.inr rfl)⟩)
  · intro hall r hr
    obtain ⟨j, hj, hrj⟩ := (hmem r).mp hr
    have hroom := hall j hj
    rcases List.mem_pair.mp hrj with rfl | rfl <;> omega

end Attr

end Ie
