import Rtl8188fu.Ie.DeleteIe

namespace Ie

open ByteMemory CursorWalk Tlv
open WhileLoop (Ends)

def Vendor.len16 : Vendor → Mem → ℕ → ℕ
  | .p2p => le16
  | .wfd => be16

def Vendor.getAttr : Vendor → Mem → ℕ → ℕ → UInt8 → ℕ → Option (Option Attr)
  | .p2p => rtwGetP2pAttr
  | .wfd => rtwGetWfdAttr

def Vendor.delAttrLoop (v : Vendor) (ie : ℕ) (attrId : UInt8) : Shrinker where
  base := ie
  look m ielen := v.getAttr m ie ielen attrId (ielen + 1)
  adjust targetAttrLen s :=
    { s with
      mem := modify s.mem (ie + 1) (· - UInt8.ofNat targetAttrLen)
      touched := s.touched ++ [⟨ie + 1, 1⟩] }

def rtwDelP2pAttr (m : Mem) (ie ielenOri : ℕ) (attrId : UInt8) (fuel : ℕ) : Option Shrink :=
  WhileLoop.run (Vendor.p2p.delAttrLoop ie attrId).loop fuel ⟨m, ielenOri, []⟩

def rtwDelWfdAttr (m : Mem) (ie ielenOri : ℕ) (attrId : UInt8) (fuel : ℕ) : Option Shrink :=
  WhileLoop.run (Vendor.wfd.delAttrLoop ie attrId).loop fuel ⟨m, ielenOri, []⟩

def Vendor.delAttr : Vendor → Mem → ℕ → ℕ → UInt8 → ℕ → Option Shrink
  | .p2p => rtwDelP2pAttr
  | .wfd => rtwDelWfdAttr

structure Attribute where
  id : UInt8
  data : List UInt8
  short : data.length < 2 ^ 16

namespace Vendor

def lenBytes : Vendor → ℕ → List UInt8
  | .p2p, n => [UInt8.ofNat n, UInt8.ofNat (n / 256)]
  | .wfd, n => [UInt8.ofNat (n / 256), UInt8.ofNat n]

def attrBytes (v : Vendor) (a : Attribute) : List UInt8 :=
  a.id :: (v.lenBytes a.data.length ++ a.data)

def encodeAttrs (v : Vendor) (as : List Attribute) : List UInt8 := as.flatMap v.attrBytes

def AttrsStop (v : Vendor) (bs : List UInt8) : Prop := ∀ a xs, bs ≠ v.attrBytes a ++ xs

def frame (v : Vendor) (xs : List UInt8) : List UInt8 :=
  eidVendorSpecific :: UInt8.ofNat (4 + xs.length) :: (v.oui ++ xs)

def Settled (v : Vendor) (attrId : UInt8) (bs : List UInt8) : Prop :=
  (v.delAttrLoop 1 attrId).Settles (memOf bs 1) bs.length

end Vendor

section Attributes

variable {v : Vendor} {m m' : Mem} {ie ie' n o : ℕ} {attrId : UInt8} {a : Attribute}
  {as kept : List Attribute} {xs bs : List UInt8} {found : Option Attr}

theorem Vendor.getAttr_eq (v : Vendor) : v.getAttr = Ie.getAttr v.len16 v.oui := by
  cases v with
  | p2p => rfl
  | wfd => rfl

@[simp] theorem Vendor.length_lenBytes (v : Vendor) (n : ℕ) : (v.lenBytes n).length = 2 := by
  cases v with
  | p2p => rfl
  | wfd => rfl

@[simp] theorem Vendor.length_attrBytes (v : Vendor) (a : Attribute) :
    (v.attrBytes a).length = a.data.length + 3 := by
  simp only [attrBytes, List.length_cons, List.length_append, length_lenBytes]
  omega

@[simp] theorem Vendor.encodeAttrs_cons (v : Vendor) (a : Attribute) (as : List Attribute) :
    v.encodeAttrs (a :: as) = v.attrBytes a ++ v.encodeAttrs as := List.flatMap_cons

@[simp] theorem Vendor.encodeAttrs_append (v : Vendor) (as bs : List Attribute) :
    v.encodeAttrs (as ++ bs) = v.encodeAttrs as ++ v.encodeAttrs bs := List.flatMap_append

theorem Vendor.length_frame (v : Vendor) (xs : List UInt8) :
    (v.frame xs).length = 6 + xs.length := by
  simp only [frame, List.length_cons, List.length_append, v.oui_length]
  omega

theorem Vendor.holds_len16 (hn : n < 2 ^ 16) (h : Holds m o (v.lenBytes n)) : v.len16 m o = n := by
  cases v with
  | p2p =>
    have hlow : m o = UInt8.ofNat n := h 0 (by simp)
    have hhigh : m (o + 1) = UInt8.ofNat (n / 256) := h 1 (by simp)
    rw [len16, le16, hlow, hhigh, UInt8.toNat_ofNat', UInt8.toNat_ofNat']
    omega
  | wfd =>
    have hhigh : m o = UInt8.ofNat (n / 256) := h 0 (by simp)
    have hlow : m (o + 1) = UInt8.ofNat n := h 1 (by simp)
    rw [len16, be16, hlow, hhigh, UInt8.toNat_ofNat', UInt8.toNat_ofNat']
    omega

theorem attrSize_held (h : Holds m (ie + o) (v.attrBytes a ++ xs)) :
    attrSize v.len16 m ie o = (v.attrBytes a).length := by
  have hsplit : Holds m (ie + o) ([a.id] ++ (v.lenBytes a.data.length ++ (a.data ++ xs))) := by
    rw [Vendor.attrBytes, List.cons_append, List.append_assoc] at h
    exact h
  have hlen : Holds m (ie + o + 1) (v.lenBytes a.data.length) := hsplit.right.left
  rw [attrSize, Vendor.holds_len16 a.short hlen, Vendor.length_attrBytes]

theorem attrWalk_held (attrId : UInt8) (h : Holds m (ie + o) (v.attrBytes a ++ xs))
    (hn : o + (v.attrBytes a ++ xs).length = n) (h16 : n < 2 ^ 16) :
    (attrWalk v.len16 m ie n attrId).inside o = true ∧
      (attrWalk v.len16 m ie n attrId).found o = (a.id == attrId) ∧
      (attrWalk v.len16 m ie n attrId).next o = o + (v.attrBytes a).length := by
  have hsize := attrSize_held h
  rw [List.length_append] at hn
  have hfits : u16 (attrSize v.len16 m ie o) = (v.attrBytes a).length := by
    rw [hsize, u16]
    exact Nat.mod_eq_of_lt (by omega)
  refine ⟨decide_eq_true ?_, ?_, ?_⟩
  · rw [hfits]
    rw [v.length_attrBytes] at hn ⊢
    omega
  · have hid : m (ie + o) = a.id := h 0 (by simp [Vendor.attrBytes])
    simp only [attrWalk, hid]
  · simp only [attrWalk, hfits]

theorem attrWalk_skip {r : Option ℕ} (h : Holds m (ie + o) (v.encodeAttrs as ++ xs))
    (hn : o + (v.encodeAttrs as ++ xs).length = n) (h16 : n < 2 ^ 16)
    (hmiss : ∀ a ∈ as, a.id ≠ attrId) :
    Finishes (attrWalk v.len16 m ie n attrId) o r ↔
      Finishes (attrWalk v.len16 m ie n attrId) (o + (v.encodeAttrs as).length) r := by
  induction as generalizing o with
  | nil => exact Iff.rfl
  | cons a as ih =>
    rw [Vendor.encodeAttrs_cons, List.append_assoc] at h hn
    obtain ⟨hin, hfound, hnext⟩ := attrWalk_held attrId h hn h16
    rw [beq_false_of_ne (hmiss a List.mem_cons_self)] at hfound
    have hlater := h.right
    rw [Nat.add_assoc] at hlater
    rw [List.length_append, ← Nat.add_assoc] at hn
    rw [finishes_next hin hfound, hnext, ih hlater hn fun b hb => hmiss b (List.mem_cons_of_mem _ hb),
      Vendor.encodeAttrs_cons, List.length_append, Nat.add_assoc]

theorem attrWalk_le (len16 : Mem → ℕ → ℕ) (m : Mem) (ie n : ℕ) (attrId : UInt8) (j : ℕ) :
    j ≤ (attrWalk len16 m ie n attrId).next j := Nat.le_add_right _ _

theorem attrWalk_lt {j : ℕ} (h : (attrWalk v.len16 m ie n attrId).inside j = true) : j < n := by
  have hin := (of_decide_eq_true h).1
  omega

theorem getAttr_open (hie : ie ≠ 0) (hlong : 6 < n) (hid : m ie = eidVendorSpecific)
    (houi : Holds m (ie + 2) v.oui) : v.getAttr m ie n attrId (n + 1) = some found ↔
      ∃ r, Finishes (attrWalk v.len16 m ie n attrId) 6 r ∧
        found = r.map fun off => ⟨off, u16 (attrSize v.len16 m ie off)⟩ := by
  have hopen : ¬ (ie = 0 ∨ n ≤ 6 ∨ m ie ≠ eidVendorSpecific ∨ memcmp m (ie + 2) v.oui = false) := by
    rw [memcmp_iff.mpr houi]
    simp only [hie, hid, Nat.not_le.mpr hlong, ne_eq, not_true_eq_false, reduceCtorEq, or_self,
      not_false_eq_true]
  rw [v.getAttr_eq, getAttr, if_neg hopen, Option.map_eq_some_iff]
  constructor
  · rintro ⟨r, hrun, rfl⟩
    exact ⟨r, ⟨_, hrun⟩, rfl⟩
  · rintro ⟨r, hfin, rfl⟩
    have hrun := hfin.run_within (fun j hj => attrWalk_lt hj) (attrWalk_le v.len16 m ie n attrId)
    refine ⟨r, ?_, rfl⟩
    have hmore := run_mono hrun 6
    rwa [show n - 6 + 1 + 6 = n + 1 by omega] at hmore

theorem holds_frame (h : Holds m ie (v.frame xs)) : m ie = eidVendorSpecific ∧
    Holds m (ie + 2) v.oui ∧ Holds m (ie + 6) xs := by
  have hsplit : Holds m ie ([eidVendorSpecific, UInt8.ofNat (4 + xs.length)] ++ (v.oui ++ xs)) := h
  have hbody := hsplit.right.right
  rw [v.oui_length, Nat.add_assoc] at hbody
  exact ⟨h 0 (Nat.succ_pos _), hsplit.right.left, hbody⟩

theorem getAttr_target (hie : ie ≠ 0)
    (h : Holds m ie (v.frame (v.encodeAttrs kept ++ (v.attrBytes a ++ xs))))
    (hn : (v.frame (v.encodeAttrs kept ++ (v.attrBytes a ++ xs))).length = n) (h16 : n < 2 ^ 16)
    (hkept : ∀ b ∈ kept, b.id ≠ a.id) : v.getAttr m ie n a.id (n + 1) =
      some (some ⟨6 + (v.encodeAttrs kept).length, (v.attrBytes a).length⟩) := by
  obtain ⟨hid, houi, hattrs⟩ := holds_frame h
  rw [v.length_frame] at hn
  have hhere := hattrs.right
  rw [Nat.add_assoc] at hhere
  have hsize := attrSize_held hhere
  have hlong : 6 < n := by
    simp only [List.length_append, v.length_attrBytes] at hn
    omega
  have hend : 6 + (v.encodeAttrs kept).length + (v.attrBytes a ++ xs).length = n := by
    rw [List.length_append] at hn
    omega
  obtain ⟨hin, hfound, _⟩ := attrWalk_held a.id hhere hend h16
  rw [beq_self_eq_true] at hfound
  refine (getAttr_open hie hlong hid houi).mpr ⟨some (6 + (v.encodeAttrs kept).length), ?_, ?_⟩
  · exact (attrWalk_skip hattrs hn h16 hkept).mpr (Visits.found_finishes (.here hin) hfound)
  · rw [Option.map_some, hsize, u16, Nat.mod_eq_of_lt]
    rw [List.length_append] at hend
    omega

theorem Vendor.len16_congr {p p' : ℕ} (hlow : m p = m' p') (hhigh : m (p + 1) = m' (p' + 1)) :
    v.len16 m p = v.len16 m' p' := by
  cases v with
  | p2p => rw [len16, le16, le16, hlow, hhigh]
  | wfd => rw [len16, be16, be16, hlow, hhigh]

theorem holds_same (h : Holds m ie bs) (h' : Holds m' ie' bs) {i : ℕ} (hi : i < bs.length) :
    m (ie + i) = m' (ie' + i) := (h i hi).trans (h' i hi).symm

theorem attrSize_congr (h : Holds m ie bs) (h' : Holds m' ie' bs) (hroom : o + 3 ≤ bs.length) :
    attrSize v.len16 m ie o = attrSize v.len16 m' ie' o := by
  have hlow := holds_same h h' (i := o + 1) (by omega)
  have hhigh := holds_same h h' (i := o + 2) (by omega)
  exact congrArg (· + 3) (Vendor.len16_congr hlow hhigh)

theorem attrWalk_congr (h : Holds m ie bs) (h' : Holds m' ie' bs) (fuel i : ℕ) :
    run (attrWalk v.len16 m ie bs.length attrId) fuel i =
      run (attrWalk v.len16 m' ie' bs.length attrId) fuel i := by
  refine run_congr (fun j => ?_) (fun j hj => ?_) (fun j hj => ?_) fuel
  · refine decide_eq_decide.mpr (and_congr_right fun hroom => ?_)
    rw [attrSize_congr h h' hroom]
  · simp only [attrWalk, holds_same h h' (attrWalk_lt hj)]
  · simp only [attrWalk, attrSize_congr h h' (of_decide_eq_true hj).1]

theorem getAttr_congr (hie : ie ≠ 0) (hie' : ie' ≠ 0) (h : Holds m ie bs) (h' : Holds m' ie' bs)
    (fuel : ℕ) : v.getAttr m ie bs.length attrId fuel = v.getAttr m' ie' bs.length attrId fuel := by
  rw [v.getAttr_eq, getAttr, getAttr]
  cases Nat.lt_or_ge 6 bs.length with
  | inr hshort => rw [if_pos (.inr (.inl hshort)), if_pos (.inr (.inl hshort))]
  | inl hlong =>
    have hheader : m ie = m' ie' := holds_same h h' (i := 0) (by omega)
    have houi : memcmp m (ie + 2) v.oui = memcmp m' (ie' + 2) v.oui := by
      have hroom : v.oui.length ≤ (bs.drop 2).length := by
        rw [v.oui_length, List.length_drop]
        omega
      rw [Bool.eq_iff_iff, memcmp_iff, memcmp_iff, (h.drop (by omega)).prefix_iff hroom,
        (h'.drop (by omega)).prefix_iff hroom]
    rw [hheader, houi, attrWalk_congr h h']
    simp only [hie, hie', false_or]
    split
    · rfl
    · cases hr : run (attrWalk v.len16 m' ie' bs.length attrId) fuel 6 with
      | none => rfl
      | some r =>
        cases r with
        | none => rfl
        | some off =>
          have hin := (run_some hr).1.inside
          simp only [Option.map_some, attrSize_congr h h' (of_decide_eq_true hin).1]

theorem holds_memOf (bs : List UInt8) (base : ℕ) : Holds (memOf bs base) base bs := by
  intro i hi
  rw [memOf, if_pos (Nat.le_add_right _ _), Nat.add_sub_cancel_left, List.getD_eq_getElem?_getD,
    List.getElem?_eq_getElem hi, Option.getD_some]

theorem settles_iff (hie : ie ≠ 0) (h : Holds m ie bs) :
    (v.delAttrLoop ie attrId).Settles m bs.length ↔ v.Settled attrId bs := by
  have himage := holds_memOf bs 1
  have hlook : v.getAttr m ie bs.length attrId (bs.length + 1) =
      v.getAttr (memOf bs 1) 1 bs.length attrId (bs.length + 1) :=
    getAttr_congr hie Nat.one_ne_zero h himage _
  exact exists_congr fun r => and_congr_left' (Eq.congr_left hlook)

theorem getAttr_contained {x : Attr} {fuel : ℕ}
    (h : v.getAttr m ie n attrId fuel = some (some x)) : 6 < n ∧ x.pos + x.len ≤ n := by
  rw [v.getAttr_eq, getAttr] at h
  split at h
  · exact absurd (Option.some.inj h) (Option.some_ne_none x).symm
  · rename_i hopen
    rw [not_or, not_or] at hopen
    obtain ⟨r, hrun, hr⟩ := Option.map_eq_some_iff.mp h
    obtain ⟨off, rfl, rfl⟩ := Option.map_eq_some_iff.mp hr
    exact ⟨Nat.not_le.mp hopen.2.1, (of_decide_eq_true (run_some hrun).1.inside).2⟩

end Attributes

section Runs

variable {v : Vendor} {m : Mem} {ie n : ℕ} {attrId : UInt8} {as kept : List Attribute}
  {a : Attribute} {xs : List UInt8} {s t s₀ r : Shrink}

structure Narrowed (ie : ℕ) (s t : Shrink) : Prop where
  len : t.len ≤ s.len
  outside : ∀ i, i < ie ∨ ie + s.len ≤ i → t.mem i = s.mem i

theorem Narrowed.trans (h : Narrowed ie s t) (h' : Narrowed ie t r) : Narrowed ie s r := by
  refine ⟨Nat.le_trans h'.len h.len, fun i hi => ?_⟩
  have hle := h.len
  rw [h'.outside i (by omega), h.outside i hi]

theorem narrowed_erase (v : Vendor) (ie : ℕ) (attrId : UInt8) {x : Attr} (hlong : 6 < s.len)
    (hinside : x.pos + x.len ≤ s.len) : Narrowed ie s ((v.delAttrLoop ie attrId).erase s x) ∧
      ((v.delAttrLoop ie attrId).erase s x).len = s.len - x.len := by
  have hgap : ie + x.pos + x.len - (ie + x.pos) = x.len := Nat.add_sub_cancel_left _ _
  have hremain : u32Sub s.len (ie + x.pos + x.len - ie) = s.len - (x.pos + x.len) := by
    rw [u32Sub_of_le (by omega)]
    omega
  have hlen : ((v.delAttrLoop ie attrId).erase s x).len = s.len - x.len := by
    simp only [Shrinker.erase, Vendor.delAttrLoop, closeGap, hgap]
    exact u32Sub_of_le (by omega)
  refine ⟨⟨by omega, fun i hi => ?_⟩, hlen⟩
  simp only [Shrinker.erase, Vendor.delAttrLoop, closeGap, hgap, hremain]
  rw [modify_ne _ _ (by omega)]
  rcases hi with hlt | hge
  · rw [write_below _ _ (by omega), write_below _ _ (by omega)]
  · rw [write_above _ (by rw [List.length_replicate]; omega),
      write_above _ (by rw [length_read]; omega)]

theorem delAttr_turn (h : (v.delAttrLoop ie attrId).loop.body s = .again t) :
    t = s ∨ Narrowed ie s t ∧ t.len < s.len := by
  rcases Shrinker.settles_or_turns (x := v.delAttrLoop ie attrId) s with
    hsettles | hstuck | ⟨x, hlook, hpos⟩
  · exact absurd (h.symm.trans (Shrinker.body_of_settles hsettles)) nofun
  · rw [hstuck] at h
    cases h
    exact .inl rfl
  · rw [Shrinker.body_of_hit hlook hpos] at h
    cases h
    obtain ⟨hlong, hinside⟩ := getAttr_contained hlook
    obtain ⟨hnarrowed, hlen⟩ := narrowed_erase v ie attrId hlong hinside
    exact .inr ⟨hnarrowed, by omega⟩

theorem delAttr_narrowed (h : Ends (v.delAttrLoop ie attrId).loop s r) : Narrowed ie s r := by
  apply @WhileLoop.Ends.invariant _ _ _ _ (Narrowed ie s) _ h ⟨Nat.le_refl _, fun _ _ => rfl⟩
  · exact fun _ _ hguard => absurd hguard Bool.noConfusion
  · intro t u ht _ hbody
    rcases delAttr_turn hbody with rfl | ⟨hu, _⟩
    · exact ht
    · exact ht.trans hu
  · intro t u ht _ hbody
    obtain ⟨_, rfl⟩ := Shrinker.body_leave hbody
    exact ht

theorem delAttr_within (h : Ends (v.delAttrLoop ie attrId).loop s r) {fuel : ℕ}
    (hfuel : s.len < fuel) : WhileLoop.run (v.delAttrLoop ie attrId).loop fuel s = some r := by
  refine h.run_within Shrink.len (fun t u _ hbody => ?_) hfuel
  rcases delAttr_turn hbody with rfl | ⟨_, hlt⟩
  · exact .inl rfl
  · exact .inr hlt

theorem delAttr_unsettled (h : Ends (v.delAttrLoop ie attrId).loop s r)
    (hs : ¬ (v.delAttrLoop ie attrId).Settles s.mem s.len) : r.len < s.len := by
  rcases Shrinker.settles_or_hit h with hsettles | ⟨x, hlook, hpos⟩
  · exact absurd hsettles hs
  · obtain ⟨hlong, hinside⟩ := getAttr_contained hlook
    obtain ⟨_, hlen⟩ := narrowed_erase v ie attrId hlong hinside
    have hrest := (delAttr_narrowed ((Shrinker.ends_of_hit hlook hpos).mp h)).len
    omega

theorem region_adjust {ys zs : List UInt8}
    (h : Region s₀ ie n ((eidVendorSpecific :: UInt8.ofNat (4 + (xs ++ (ys ++ zs)).length) ::
      (v.oui ++ xs)) ++ zs) t) :
    Region s₀ ie n (v.frame (xs ++ zs)) ((v.delAttrLoop ie attrId).adjust ys.length t) := by
  have hset := h.modify (i := 1) (by simp) (· - UInt8.ofNat ys.length)
  have hlen : UInt8.ofNat (4 + (xs ++ (ys ++ zs)).length) - UInt8.ofNat ys.length =
      UInt8.ofNat (4 + (xs ++ zs).length) := by
    simp only [List.length_append]
    rw [← UInt8.ofNat_sub (by omega)]
    exact congrArg _ (by omega)
  simp only [List.cons_append, List.getElem_cons_succ, List.getElem_cons_zero,
    List.set_cons_succ, List.set_cons_zero, hlen, List.append_assoc] at hset
  exact hset

theorem region_hit (hie : ie ≠ 0) (hn : n < 2 ^ 8 + 2)
    (h : Region s₀ ie n (v.frame (v.encodeAttrs kept ++ (v.attrBytes a ++ xs))) s)
    (hkept : ∀ b ∈ kept, b.id ≠ a.id) : ∃ t, Region s₀ ie n (v.frame (v.encodeAttrs kept ++ xs)) t ∧
      ∀ r, Ends (v.delAttrLoop ie a.id).loop s r ↔ Ends (v.delAttrLoop ie a.id).loop t r := by
  have hfits := h.fits
  have hlook := getAttr_target hie h.bytes h.len.symm (by rw [h.len]; omega) hkept
  have hhead : 6 + (v.encodeAttrs kept).length = (eidVendorSpecific ::
      UInt8.ofNat (4 + (v.encodeAttrs kept ++ (v.attrBytes a ++ xs)).length) ::
        (v.oui ++ v.encodeAttrs kept)).length := by
    simp only [List.length_cons, List.length_append, v.oui_length]
    omega
  rw [hhead] at hlook
  have hpos : (v.attrBytes a).length ≠ 0 := by
    rw [v.length_attrBytes]
    exact Nat.succ_ne_zero _
  refine ⟨_, ?_, fun r => Shrinker.ends_of_hit hlook hpos⟩
  refine Region.erase rfl (fun t ht => region_adjust ht) ?_
  rw [Vendor.frame, ← List.append_assoc v.oui] at h
  exact h

theorem delAttr_run (hie : ie ≠ 0) (hn : n < 2 ^ 8 + 2)
    (h : Region s₀ ie n (v.frame (v.encodeAttrs (kept ++ as) ++ xs)) s)
    (hkept : ∀ b ∈ kept, b.id ≠ attrId) :
    ∃ t, Region s₀ ie n (v.frame (v.encodeAttrs (kept ++ as.filter (·.id ≠ attrId)) ++ xs)) t ∧
      ∀ r, Ends (v.delAttrLoop ie attrId).loop s r ↔ Ends (v.delAttrLoop ie attrId).loop t r := by
  induction as generalizing kept s with
  | nil => exact ⟨s, h, fun _ => Iff.rfl⟩
  | cons a as ih =>
    cases Decidable.em (a.id = attrId) with
    | inl hid =>
      subst hid
      rw [Vendor.encodeAttrs_append, Vendor.encodeAttrs_cons, List.append_assoc,
        List.append_assoc] at h
      obtain ⟨t, ht, hturn⟩ := region_hit hie hn h hkept
      rw [← List.append_assoc, ← Vendor.encodeAttrs_append] at ht
      obtain ⟨u, hu, hrest⟩ := ih ht hkept
      refine ⟨u, ?_, fun r => (hturn r).trans (hrest r)⟩
      rwa [List.filter_cons_of_neg (by simp)]
    | inr hid =>
      rw [List.append_cons] at h
      obtain ⟨u, hu, hrest⟩ := ih h fun b hb => by
        rcases List.mem_append.mp hb with hold | hnew
        · exact hkept b hold
        · obtain rfl := List.mem_singleton.mp hnew
          exact hid
      refine ⟨u, ?_, hrest⟩
      rw [List.filter_cons_of_pos (by simpa using hid), List.append_cons]
      exact hu

end Runs

structure VendorElement (v : Vendor) where
  attrs : List Attribute
  rest : List UInt8
  stop : v.AttrsStop rest
  short : (v.oui ++ (v.encodeAttrs attrs ++ rest)).length < 256

namespace VendorElement

variable {v : Vendor}

def element (e : VendorElement v) : Element :=
  ⟨eidVendorSpecific, v.oui ++ (v.encodeAttrs e.attrs ++ e.rest), e.short⟩

theorem short_without (e : VendorElement v) (attrId : UInt8) :
    (v.oui ++ (v.encodeAttrs (e.attrs.filter (·.id ≠ attrId)) ++ e.rest)).length < 256 := by
  have hshort := e.short
  have hle : (v.encodeAttrs (e.attrs.filter (·.id ≠ attrId))).length ≤
      (v.encodeAttrs e.attrs).length := (List.filter_sublist.flatMap _).length_le
  simp only [List.length_append] at hshort ⊢
  omega

def without (e : VendorElement v) (attrId : UInt8) : VendorElement v where
  attrs := e.attrs.filter (·.id ≠ attrId)
  rest := e.rest
  stop := e.stop
  short := e.short_without attrId

theorem bytes_element (e : VendorElement v) :
    e.element.bytes = v.frame (v.encodeAttrs e.attrs ++ e.rest) := by
  rw [Element.bytes, element, Vendor.frame, List.length_append, v.oui_length]

end VendorElement

inductive Piece (v : Vendor) where
  | other (t : Element) (h : v.keeps t = true)
  | own (e : VendorElement v)

namespace Piece

variable {v : Vendor}

def element : Piece v → Element
  | other t _ => t
  | own e => e.element

def without (attrId : UInt8) : Piece v → Element
  | other t _ => t
  | own e => (e.without attrId).element

end Piece

def DelAttrLaw (v : Vendor) (m : Mem) (ie : ℕ) (attrId : UInt8) (p : Piece v) : Prop :=
  ∃ fuel r, v.delAttr m ie p.element.bytes.length attrId fuel = some r ∧
    Deleted ⟨m, p.element.bytes.length, []⟩ ie p.element.bytes.length (p.without attrId).bytes r

section Pieces

variable {v : Vendor} {m : Mem} {ie : ℕ} {attrId : UInt8} {p : Piece v} {t : Element}
  {r : Shrink}

theorem Vendor.exists_attrs (v : Vendor) (bs : List UInt8) :
    ∃ as rest, bs = v.encodeAttrs as ++ rest ∧ v.AttrsStop rest := by
  induction hsize : bs.length using Nat.strongRecOn generalizing bs with
  | _ size ih =>
    cases Classical.em (v.AttrsStop bs) with
    | inl hstop => exact ⟨[], bs, rfl, hstop⟩
    | inr hgoes =>
      obtain ⟨a, xs, rfl⟩ : ∃ a xs, bs = v.attrBytes a ++ xs := by
        by_contra hnone
        exact hgoes fun a xs heq => hnone ⟨a, xs, heq⟩
      rw [List.length_append, v.length_attrBytes] at hsize
      obtain ⟨as, rest, rfl, hstop⟩ := ih xs.length (by omega) xs rfl
      refine ⟨a :: as, rest, ?_, hstop⟩
      rw [v.encodeAttrs_cons, List.append_assoc]

theorem Piece.exists_element (v : Vendor) (t : Element) : ∃ p : Piece v, p.element = t := by
  cases ht : v.keeps t with
  | true => exact ⟨.other t ht, rfl⟩
  | false =>
    obtain ⟨hid, body, hbody⟩ := Vendor.keeps_false.mp ht
    obtain ⟨as, rest, rfl, hstop⟩ := v.exists_attrs body
    have hshort := t.short
    rw [← hbody] at hshort
    exact ⟨.own ⟨as, rest, hstop, hshort⟩, Element.ext hid.symm hbody⟩

theorem getAttr_other (ht : v.keeps t = true) (h : Holds m ie t.bytes) (fuel : ℕ) :
    v.getAttr m ie t.bytes.length attrId fuel = some none := by
  rw [v.getAttr_eq, getAttr]
  refine if_pos ?_
  cases Nat.lt_or_ge 6 t.bytes.length with
  | inr hshort => exact .inr (.inl hshort)
  | inl hlong =>
    rw [← List.append_nil t.bytes] at h
    cases Decidable.em (t.id = eidVendorSpecific) with
    | inr hid => exact .inr (.inr (.inl (mt (holds_id h).symm.trans hid)))
    | inl hid =>
      refine .inr (.inr (.inr (eq_false_of_ne_true fun houi => ?_)))
      have hroom : v.oui.length ≤ t.body.length := by
        rw [v.oui_length]
        rw [Element.length_bytes] at hlong
        omega
      have hheld := ((holds_tail h).left.prefix_iff hroom).mp (memcmp_iff.mp houi)
      exact absurd (Vendor.keeps_false.mpr ⟨hid, hheld⟩) (ne_false_of_eq_true ht)

theorem settled_other (ht : v.keeps t = true) : v.Settled attrId t.bytes :=
  ⟨none, getAttr_other ht (holds_memOf _ _) _, nofun⟩

theorem delAttr_piece (attrId : UInt8) (hie : ie ≠ 0) (h : Holds m ie p.element.bytes) :
    ∃ u, Region ⟨m, p.element.bytes.length, []⟩ ie p.element.bytes.length (p.without attrId).bytes u ∧
      ∀ r, Ends (v.delAttrLoop ie attrId).loop ⟨m, p.element.bytes.length, []⟩ r ↔
        Ends (v.delAttrLoop ie attrId).loop u r := by
  have hstart : Region ⟨m, p.element.bytes.length, []⟩ ie p.element.bytes.length p.element.bytes
      ⟨m, p.element.bytes.length, []⟩ := Region.start h rfl
  cases p with
  | other t ht => exact ⟨_, hstart, fun _ => Iff.rfl⟩
  | own e =>
    have hshort := e.element.short
    have hsize := e.element.length_bytes
    have hframe : Region ⟨m, e.element.bytes.length, []⟩ ie e.element.bytes.length
        (v.frame (v.encodeAttrs ([] ++ e.attrs) ++ e.rest)) ⟨m, e.element.bytes.length, []⟩ := by
      rw [List.nil_append, ← VendorElement.bytes_element]
      exact hstart
    obtain ⟨u, hu, hturn⟩ := delAttr_run hie (by omega) hframe fun b hb => absurd hb List.not_mem_nil
    rw [List.nil_append] at hu
    refine ⟨u, ?_, hturn⟩
    rw [Piece.without, VendorElement.bytes_element]
    exact hu

theorem delAttr_ends {n : ℕ} : (∃ fuel, v.delAttr m ie n attrId fuel = some r) ↔
    Ends (v.delAttrLoop ie attrId).loop ⟨m, n, []⟩ r := by
  cases v with
  | p2p => exact Iff.rfl
  | wfd => exact Iff.rfl

theorem delAttr_enough {n : ℕ} : v.delAttr m ie n attrId (n + 1) = some r ↔
    Ends (v.delAttrLoop ie attrId).loop ⟨m, n, []⟩ r := by
  refine ⟨fun h => delAttr_ends.mp ⟨_, h⟩, fun h => ?_⟩
  have hrun := delAttr_within h (Nat.lt_succ_self n)
  cases v with
  | p2p => exact hrun
  | wfd => exact hrun

theorem delAttr_settled (hie : ie ≠ 0) (h : Holds m ie p.element.bytes)
    (hsettled : v.Settled attrId (p.without attrId).bytes) : ∃ r,
    v.delAttr m ie p.element.bytes.length attrId (p.element.bytes.length + 1) = some r ∧
      Region ⟨m, p.element.bytes.length, []⟩ ie p.element.bytes.length (p.without attrId).bytes r := by
  obtain ⟨u, hu, hturn⟩ := delAttr_piece attrId hie h
  refine ⟨u, delAttr_enough.mpr ((hturn u).mpr ?_), hu⟩
  refine (Shrinker.ends_of_settles ?_).mpr rfl
  rw [hu.len]
  exact (settles_iff hie hu.bytes).mpr hsettled

theorem delAttr_spec (hie : ie ≠ 0) (h : Holds m ie p.element.bytes)
    (hends : Ends (v.delAttrLoop ie attrId).loop ⟨m, p.element.bytes.length, []⟩ r) :
    r.len ≤ (p.without attrId).bytes.length ∧
      (r.len = (p.without attrId).bytes.length → v.Settled attrId (p.without attrId).bytes) := by
  obtain ⟨u, hu, hturn⟩ := delAttr_piece attrId hie h
  have hrest := (hturn r).mp hends
  rw [← hu.len]
  refine ⟨(delAttr_narrowed hrest).len, fun hlen => ?_⟩
  by_contra hunsettled
  rw [← settles_iff hie hu.bytes, ← hu.len] at hunsettled
  exact absurd hlen (Nat.ne_of_lt (delAttr_unsettled hrest hunsettled))

theorem delAttrLaw_iff (hie : ie ≠ 0) (h : Holds m ie p.element.bytes) :
    DelAttrLaw v m ie attrId p ↔ v.Settled attrId (p.without attrId).bytes := by
  constructor
  · rintro ⟨fuel, r, hrun, hdeleted⟩
    exact (delAttr_spec hie h (delAttr_ends.mp ⟨fuel, hrun⟩)).2 hdeleted.len
  · intro hsettled
    obtain ⟨r, hr, hregion⟩ := delAttr_settled hie h hsettled
    exact ⟨_, r, hr, hregion.deleted⟩

end Pieces

end Ie
