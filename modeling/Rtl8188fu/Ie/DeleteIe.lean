import Mathlib.Data.List.Flatten
import Rtl8188fu.Ie.ShrinkInPlace

namespace Ie

open ByteMemory CursorWalk Tlv
open WhileLoop (Ends)

inductive Vendor where
  | p2p
  | wfd
  deriving DecidableEq, Repr

def Vendor.oui : Vendor → List UInt8
  | .p2p => p2pOui
  | .wfd => wfdOui

def Vendor.getIe : Vendor → Mem → ℕ → ℤ → Searcher
  | .p2p => rtwGetP2pIe
  | .wfd => rtwGetWfdIe

def asInt (n : ℕ) : ℤ := if n < 2 ^ 31 then n else n - 2 ^ 32

def ieSize (m : Mem) (ie : ℕ) : ℕ := (m (ie + 1)).toNat + 2

def Vendor.targetIe (v : Vendor) (m : Mem) (ies iesLen : ℕ) : Option Attr :=
  (v.getIe m ies (asInt iesLen)).result.map fun cnt => ⟨cnt, ieSize m (ies + cnt)⟩

def Vendor.delIeLoop (v : Vendor) (ies : ℕ) : Shrinker where
  base := ies
  look m iesLen := some (v.targetIe m ies iesLen)
  adjust _ s := s

def rtwDelP2pIe (m : Mem) (ies iesLenOri fuel : ℕ) : Option Shrink :=
  WhileLoop.run (Vendor.p2p.delIeLoop ies).loop fuel ⟨m, iesLenOri, []⟩

def rtwDelWfdIe (m : Mem) (ies iesLenOri fuel : ℕ) : Option Shrink :=
  WhileLoop.run (Vendor.wfd.delIeLoop ies).loop fuel ⟨m, iesLenOri, []⟩

def Vendor.delIe : Vendor → Mem → ℕ → ℕ → ℕ → Option Shrink
  | .p2p => rtwDelP2pIe
  | .wfd => rtwDelWfdIe

structure TlvBuffer where
  ies : ℕ
  elements : List Element
  rest : List UInt8
  stuck : Stuck rest
  notNull : ies ≠ 0
  u32 : (encode elements ++ rest).length < 2 ^ 32

def TlvBuffer.bytes (b : TlvBuffer) : List UInt8 := encode b.elements ++ b.rest

def Vendor.keeps (v : Vendor) : Element → Bool := Ie.keeps eidVendorSpecific v.oui

def DelIeLaw (v : Vendor) (m : Mem) (b : TlvBuffer) : Prop :=
  ∃ fuel r, v.delIe m b.ies b.bytes.length fuel = some r ∧
    Deleted ⟨m, b.bytes.length, []⟩ b.ies b.bytes.length
      (encode (b.elements.filter v.keeps) ++ b.rest) r

def Leads (oui bs : List UInt8) : Prop := bs.head? = some eidVendorSpecific ∧ oui <+: bs.drop 2

instance (oui bs : List UInt8) : Decidable (Leads oui bs) := inferInstanceAs (Decidable (_ ∧ _))

def Reached (v : Vendor) (kept elements : List Element) (rest : List UInt8) : Prop :=
  ∀ pre t post, elements = pre ++ t :: post → v.keeps t = false →
    (encode (kept ++ elements) ++ rest).length < 2 ^ 31 ∧
      cutOff (encode (kept ++ pre.filter v.keeps)).length = false

def NoStray (v : Vendor) (elements : List Element) (rest : List UInt8) : Prop :=
  (encode elements ++ rest).length < 2 ^ 31 → ∀ pre post, elements = pre ++ post →
    Leads v.oui (encode post ++ rest) → cutOff (encode pre).length = true

structure DelIeSafe (v : Vendor) (b : TlvBuffer) : Prop where
  reached : Reached v [] b.elements b.rest
  quiet : NoStray v (b.elements.filter v.keeps) b.rest

structure FirstLead (oui : List UInt8) (pre post : List Element) (rest : List UInt8) : Prop where
  leads : Leads oui (encode post ++ rest)
  first : ∀ p t q, pre = p ++ t :: q → ¬ Leads oui (encode (t :: q ++ post) ++ rest)

section Search

variable {v : Vendor} {oui : List UInt8} {m : Mem} {ies o n : ℕ} {t u : Element}
  {ts pre post kept : List Element} {rest xs ys : List UInt8}

theorem Vendor.getIe_eq (v : Vendor) : v.getIe = vendorIeSearch v.oui := by
  cases v with
  | p2p => rfl
  | wfd => rfl

theorem Vendor.oui_length (v : Vendor) : v.oui.length = 4 := by
  cases v with
  | p2p => rfl
  | wfd => rfl

theorem leads_bytes : Leads oui (t.bytes ++ xs) ↔ t.id = eidVendorSpecific ∧ oui <+: t.body ++ xs := by
  refine and_congr_left fun _ => ?_
  exact Option.some_inj

theorem leads_length (houi : oui.length = 4) (h : Leads oui xs) : 6 ≤ xs.length := by
  have hle := h.2.length_le
  rw [List.length_drop] at hle
  omega

theorem isVendorIe_leads (houi : oui.length = 4) (h : Holds m n xs) (hroom : 6 ≤ xs.length) :
    isVendorIe m oui n = true ↔ Leads oui xs := by
  rw [isVendorIe_iff, Leads]
  refine and_congr ?_ ?_
  · match xs with
    | x :: xs =>
      have hhead : m n = x := h 0 (Nat.succ_pos _)
      rw [hhead]
      exact Option.some_inj.symm
  · refine (h.drop (by omega)).prefix_iff ?_
    rw [List.length_drop]
    omega

theorem stuck_past (hstuck : Stuck rest) (h : Holds m (ies + o) rest) (hroom : 6 ≤ rest.length) :
    o + rest.length < nextElement m ies o := by
  rcases hstuck.cases with hshort | ⟨id, len, xs, rfl, hlt⟩
  · omega
  · have hlen : m (ies + o + 1) = len := h 1 (by simp)
    rw [nextElement, hlen, List.length_cons, List.length_cons]
    omega

theorem find_cut (hcut : cutOff o = true) :
    (find (vendorIeWalk oui m ies n) n o).filter (fun i => !cutOff i) = none := by
  have hadv := vendorIeWalk_advances m oui ies n
  cases hin : (vendorIeWalk oui m ies n).inside o with
  | false =>
    rw [hadv.find_outside hin]
    rfl
  | true =>
    have hfound : (vendorIeWalk oui m ies n).found o = true := by
      simp only [vendorIeWalk, hcut, Bool.true_or]
    rw [hadv.find_found hin hfound, Option.filter_some, hcut, Bool.not_true,
      if_neg Bool.false_ne_true]

theorem find_lead (hroom : o + 5 < n) (hcut : cutOff o = false)
    (hhere : isVendorIe m oui (ies + o) = true) :
    (find (vendorIeWalk oui m ies n) n o).filter (fun i => !cutOff i) = some o := by
  have hin : (vendorIeWalk oui m ies n).inside o = true := decide_eq_true hroom
  have hfound : (vendorIeWalk oui m ies n).found o = true := by
    simp only [vendorIeWalk, hhere, Bool.or_true]
  rw [(vendorIeWalk_advances m oui ies n).find_found hin hfound, Option.filter_some, hcut,
    Bool.not_false, if_pos rfl]

theorem find_skip (hroom : o + 5 < n) (hcut : cutOff o = false)
    (hmiss : isVendorIe m oui (ies + o) = false) :
    find (vendorIeWalk oui m ies n) n o =
      find (vendorIeWalk oui m ies n) n (nextElement m ies o) := by
  have hin : (vendorIeWalk oui m ies n).inside o = true := decide_eq_true hroom
  have hfound : (vendorIeWalk oui m ies n).found o = false := by
    simp only [vendorIeWalk, hcut, hmiss, Bool.or_false]
  exact (vendorIeWalk_advances m oui ies n).find_next hin hfound

theorem find_short (hroom : n ≤ o + 5) :
    (find (vendorIeWalk oui m ies n) n o).filter (fun i => !cutOff i) = none := by
  rw [(vendorIeWalk_advances m oui ies n).find_outside (decide_eq_false (by omega))]
  rfl

def Finds (oui : List UInt8) (m : Mem) (ies n o : ℕ) (ts : List Element) (rest : List UInt8) :
    Prop :=
  ((find (vendorIeWalk oui m ies n) n o).filter (fun i => !cutOff i) = none ∧
    ∀ pre post, ts = pre ++ post → Leads oui (encode post ++ rest) →
      cutOff (o + (encode pre).length) = true) ∨
  ∃ pre post, ts = pre ++ post ∧ FirstLead oui pre post rest ∧
    cutOff (o + (encode pre).length) = false ∧
    (find (vendorIeWalk oui m ies n) n o).filter (fun i => !cutOff i) =
      some (o + (encode pre).length)

theorem finds_cut (hcut : cutOff o = true) : Finds oui m ies n o ts rest := by
  refine .inl ⟨find_cut hcut, fun pre _ _ _ => ?_⟩
  exact eq_true_of_ne_false fun hlate =>
    Bool.false_ne_true ((cutOff_mono (Nat.le_add_right _ _) hlate).symm.trans hcut)

theorem finds_lead (houi : oui.length = 4) (h : Holds m (ies + o) (encode ts ++ rest))
    (hn : o + (encode ts ++ rest).length = n) (hcut : cutOff o = false)
    (hleads : Leads oui (encode ts ++ rest)) : Finds oui m ies n o ts rest := by
  have hroom := leads_length houi hleads
  refine .inr ⟨[], ts, rfl, ⟨hleads, fun p t q hsplit => ?_⟩, hcut, ?_⟩
  · exact absurd hsplit (by simp)
  · exact find_lead (by omega) hcut ((isVendorIe_leads houi h hroom).mpr hleads)

theorem finds_short (houi : oui.length = 4) (hn : o + (encode ts ++ rest).length = n)
    (hshort : (encode ts ++ rest).length < 6) : Finds oui m ies n o ts rest := by
  refine .inl ⟨find_short (by omega), fun pre post hsplit hleads => ?_⟩
  have hroom := leads_length houi hleads
  rw [hsplit, encode_append] at hshort
  simp only [List.length_append] at hshort hroom
  omega

theorem finds_rest (hstuck : Stuck rest) (h : Holds m (ies + o) rest) (hn : o + rest.length = n)
    (hcut : cutOff o = false) (hroom : 6 ≤ rest.length) (hquiet : ¬ Leads oui rest)
    (hmiss : isVendorIe m oui (ies + o) = false) : Finds oui m ies n o [] rest := by
  refine .inl ⟨?_, fun pre post hsplit hleads => ?_⟩
  · have hpast := stuck_past hstuck h hroom
    rw [find_skip (by omega) hcut hmiss]
    exact find_short (by omega)
  · rw [(List.append_eq_nil_iff.mp hsplit.symm).2] at hleads
    exact absurd hleads hquiet

theorem finds_later (h : Holds m (ies + o) (t.bytes ++ (encode ts ++ rest))) (hinside : o + 5 < n)
    (hcut : cutOff o = false) (hquiet : ¬ Leads oui (encode (t :: ts) ++ rest))
    (hmiss : isVendorIe m oui (ies + o) = false)
    (hlater : Finds oui m ies n (o + t.bytes.length) ts rest) :
    Finds oui m ies n o (t :: ts) rest := by
  have hnext : nextElement m ies o = o + t.bytes.length := nextElement_encoded h
  have hpos (pre : List Element) : o + (encode (t :: pre)).length =
      o + t.bytes.length + (encode pre).length := by
    rw [encode_cons, List.length_append, Nat.add_assoc]
  rw [Finds, find_skip hinside hcut hmiss, hnext]
  rcases hlater with ⟨hnone, hlate⟩ | ⟨pre, post, rfl, hfirst, hreached, hsome⟩
  · refine .inl ⟨hnone, fun pre post hsplit hleads => ?_⟩
    cases pre with
    | nil =>
      rw [List.nil_append] at hsplit
      rw [← hsplit] at hleads
      exact absurd hleads hquiet
    | cons u pre =>
      obtain ⟨rfl, hrest⟩ := List.cons.inj hsplit
      rw [hpos]
      exact hlate pre post hrest hleads
  · refine .inr ⟨t :: pre, post, rfl, ⟨hfirst.leads, fun p u q hsplit => ?_⟩, ?_, ?_⟩
    · cases p with
      | nil =>
        obtain ⟨rfl, rfl⟩ := List.cons.inj hsplit
        exact hquiet
      | cons w p => exact hfirst.first p u q (List.cons.inj hsplit).2
    · rw [hpos]
      exact hreached
    · rw [hpos]
      exact hsome

theorem find_cases (houi : oui.length = 4) (hstuck : Stuck rest)
    (h : Holds m (ies + o) (encode ts ++ rest)) (hn : o + (encode ts ++ rest).length = n) :
    Finds oui m ies n o ts rest := by
  induction ts generalizing o with
  | nil =>
    cases hcut : cutOff o with
    | true => exact finds_cut hcut
    | false =>
      cases Decidable.em (Leads oui (encode [] ++ rest)) with
      | inl hleads => exact finds_lead houi h hn hcut hleads
      | inr hquiet =>
        cases Nat.lt_or_ge (encode [] ++ rest).length 6 with
        | inl hshort => exact finds_short houi hn hshort
        | inr hroom =>
          have hmiss : isVendorIe m oui (ies + o) = false :=
            eq_false_of_ne_true (mt (isVendorIe_leads houi h hroom).mp hquiet)
          exact finds_rest hstuck h hn hcut hroom hquiet hmiss
  | cons t ts ih =>
    cases hcut : cutOff o with
    | true => exact finds_cut hcut
    | false =>
      cases Decidable.em (Leads oui (encode (t :: ts) ++ rest)) with
      | inl hleads => exact finds_lead houi h hn hcut hleads
      | inr hquiet =>
        cases Nat.lt_or_ge (encode (t :: ts) ++ rest).length 6 with
        | inl hshort => exact finds_short houi hn hshort
        | inr hroom =>
          have hmiss : isVendorIe m oui (ies + o) = false :=
            eq_false_of_ne_true (mt (isVendorIe_leads houi h hroom).mp hquiet)
          have hinside : o + 5 < n := by omega
          rw [encode_cons, List.append_assoc] at h hn
          have hlater := h.right
          rw [Nat.add_assoc] at hlater
          rw [List.length_append, ← Nat.add_assoc] at hn
          exact finds_later h hinside hcut hquiet hmiss (ih hlater hn)

theorem asInt_small (h : n < 2 ^ 31) : asInt n = n := if_pos h

theorem asInt_large (h : 2 ^ 31 ≤ n) (h32 : n < 2 ^ 32) : asInt n < 0 := by
  rw [asInt, if_neg (Nat.not_lt.mpr h)]
  omega

theorem vendorIe_find (hies : ies ≠ 0) (hpos : 0 < n) :
    (vendorIeSearch oui m ies n).result =
      (find (vendorIeWalk oui m ies n) n 0).filter fun i => !cutOff i := by
  have hopen : (vendorIeSearch oui m ies n).enters = true :=
    decide_eq_true ⟨hies, Int.natCast_pos.mpr hpos⟩
  rw [Searcher.result, hopen, if_pos rfl]
  simp only [vendorIeSearch, Int.toNat_natCast]

theorem vendorIe_cases (houi : oui.length = 4) (hies : ies ≠ 0) (hstuck : Stuck rest)
    (h : Holds m ies (encode ts ++ rest)) :
    ((vendorIeSearch oui m ies (encode ts ++ rest).length).result = none ∧
      ∀ pre post, ts = pre ++ post → Leads oui (encode post ++ rest) →
        cutOff (encode pre).length = true) ∨
    ∃ pre post, ts = pre ++ post ∧ FirstLead oui pre post rest ∧
      cutOff (encode pre).length = false ∧
      (vendorIeSearch oui m ies (encode ts ++ rest).length).result = some (encode pre).length := by
  cases Nat.eq_zero_or_pos (encode ts ++ rest).length with
  | inl hzero =>
    refine .inl ⟨?_, fun pre post hsplit hleads => ?_⟩
    · have hshut : (vendorIeSearch oui m ies (encode ts ++ rest).length).enters = false := by
        rw [hzero]
        exact decide_eq_false fun hopen => absurd hopen.2 (Int.lt_irrefl 0)
      rw [Searcher.result, hshut, if_neg Bool.false_ne_true]
    · have hroom := leads_length houi hleads
      rw [hsplit, encode_append] at hzero
      simp only [List.length_append] at hzero hroom
      omega
  | inr hpos =>
    rw [vendorIe_find hies hpos]
    rcases find_cases houi hstuck (o := 0) h (Nat.zero_add _) with
      ⟨hnone, hlate⟩ | ⟨pre, post, hsplit, hfirst, hreached, hsome⟩
    · refine .inl ⟨hnone, fun pre post hsplit hleads => ?_⟩
      rw [← Nat.zero_add (encode pre).length]
      exact hlate pre post hsplit hleads
    · rw [Nat.zero_add] at hreached hsome
      exact .inr ⟨pre, post, hsplit, hfirst, hreached, hsome⟩

theorem targetIe_none (h : asInt n ≤ 0) : v.targetIe m ies n = none := by
  have hshut : (vendorIeSearch v.oui m ies (asInt n)).enters = false :=
    decide_eq_false fun hopen => Int.not_lt.mpr h hopen.2
  rw [Vendor.targetIe, v.getIe_eq, Searcher.result, hshut, if_neg Bool.false_ne_true]
  rfl

theorem targetIe_cases (hies : ies ≠ 0) (hstuck : Stuck rest) (h : Holds m ies (encode ts ++ rest))
    (hn : (encode ts ++ rest).length < 2 ^ 31) :
    (v.targetIe m ies (encode ts ++ rest).length = none ∧
      ∀ pre post, ts = pre ++ post → Leads v.oui (encode post ++ rest) →
        cutOff (encode pre).length = true) ∨
    ∃ pre post, ts = pre ++ post ∧ FirstLead v.oui pre post rest ∧
      cutOff (encode pre).length = false ∧
      v.targetIe m ies (encode ts ++ rest).length =
        some ⟨(encode pre).length, ieSize m (ies + (encode pre).length)⟩ := by
  rw [Vendor.targetIe, v.getIe_eq, asInt_small hn]
  rcases vendorIe_cases v.oui_length hies hstuck h with
    ⟨hnone, hlate⟩ | ⟨pre, post, hsplit, hfirst, hreached, hsome⟩
  · exact .inl ⟨by rw [hnone, Option.map_none], hlate⟩
  · exact .inr ⟨pre, post, hsplit, hfirst, hreached, by rw [hsome, Option.map_some]⟩

theorem FirstLead.unique {pre' post' : List Element} (hfirst : FirstLead oui pre post rest)
    (hfirst' : FirstLead oui pre' post' rest) (hsame : pre ++ post = pre' ++ post') :
    pre = pre' ∧ post = post' := by
  rcases List.append_eq_append_iff.mp hsame with ⟨mid, rfl, rfl⟩ | ⟨mid, rfl, rfl⟩
  · cases mid with
    | nil => exact ⟨(List.append_nil pre).symm, rfl⟩
    | cons u mid => exact absurd hfirst.leads (hfirst'.first pre u mid rfl)
  · cases mid with
    | nil => exact ⟨List.append_nil pre', rfl⟩
    | cons u mid => exact absurd hfirst'.leads (hfirst.first pre' u mid rfl)

theorem Vendor.not_mem_oui (v : Vendor) : eidVendorSpecific ∉ v.oui := by
  cases v with
  | p2p => decide
  | wfd => decide

theorem prefix_before {x : UInt8} (hx : x ∉ oui) (h : oui <+: xs ++ x :: ys) : oui <+: xs := by
  cases Nat.lt_or_ge xs.length oui.length with
  | inr hle => exact List.prefix_of_prefix_length_le h (List.prefix_append _ _) hle
  | inl hlt =>
    have hhead : xs ++ [x] <+: xs ++ x :: ys := ⟨ys, by rw [List.append_assoc]; rfl⟩
    have hinside : xs ++ [x] <+: oui := by
      refine List.prefix_of_prefix_length_le hhead h ?_
      rw [List.length_append]
      exact hlt
    exact absurd (hinside.subset (List.mem_append_right _ List.mem_cons_self)) hx

theorem leads_of_next (hu : u.id = eidVendorSpecific)
    (h : Leads v.oui (encode (t :: ts) ++ (u.bytes ++ xs))) :
    Leads v.oui (encode (t :: ts) ++ ys) := by
  rw [encode_cons, List.append_assoc, leads_bytes] at h ⊢
  obtain ⟨hid, hprefix⟩ := h
  rw [Element.bytes, hu, ← List.append_assoc] at hprefix
  refine ⟨hid, (prefix_before v.not_mem_oui hprefix).trans ?_⟩
  rw [← List.append_assoc]
  exact List.prefix_append _ _

theorem Vendor.keeps_false : v.keeps t = false ↔ t.id = eidVendorSpecific ∧ v.oui <+: t.body := by
  rw [Vendor.keeps, Ie.keeps, decide_eq_false_iff_not, not_not]

theorem leads_wanted (ht : v.keeps t = false) : Leads v.oui (encode (t :: ts) ++ xs) := by
  obtain ⟨hid, hbody⟩ := Vendor.keeps_false.mp ht
  rw [encode_cons, List.append_assoc, leads_bytes]
  exact ⟨hid, hbody.trans (List.prefix_append _ _)⟩

theorem reached_nil (v : Vendor) (kept : List Element) (rest : List UInt8) :
    Reached v kept [] rest := fun _ _ _ hsplit => absurd hsplit (by simp)

theorem reached_kept (ht : v.keeps t = true) :
    Reached v kept (t :: ts) rest ↔ Reached v (kept ++ [t]) ts rest := by
  have hshift (us : List Element) : kept ++ t :: us = kept ++ [t] ++ us := List.append_cons _ _ _
  constructor
  · intro h pre u post hsplit hu
    have hlater := h (t :: pre) u post (congrArg _ hsplit) hu
    rwa [List.filter_cons_of_pos ht, hshift ts, hshift (pre.filter _)] at hlater
  · intro h pre u post hsplit hu
    cases pre with
    | nil =>
      obtain ⟨rfl, rfl⟩ := List.cons.inj hsplit
      exact absurd (ht.symm.trans hu) nofun
    | cons w pre =>
      obtain ⟨rfl, hrest⟩ := List.cons.inj hsplit
      rw [List.filter_cons_of_pos ht, hshift ts, hshift (pre.filter _)]
      exact h pre u post hrest hu

theorem reached_wanted (ht : v.keeps t = false) :
    Reached v kept (t :: ts) rest ↔ ((encode (kept ++ t :: ts) ++ rest).length < 2 ^ 31 ∧
      cutOff (encode kept).length = false) ∧ Reached v kept ts rest := by
  have hdrop (pre : List Element) : (t :: pre).filter v.keeps = pre.filter v.keeps :=
    List.filter_cons_of_neg (ne_true_of_eq_false ht)
  have hsmaller : (encode (kept ++ ts) ++ rest).length ≤
      (encode (kept ++ t :: ts) ++ rest).length := by
    simp only [encode_append, encode_cons, List.length_append]
    omega
  constructor
  · intro h
    have hhere := h [] t ts rfl ht
    rw [List.filter_nil, List.append_nil] at hhere
    refine ⟨hhere, fun pre u post hsplit hu => ?_⟩
    have hlater := h (t :: pre) u post (congrArg _ hsplit) hu
    rw [hdrop] at hlater
    exact ⟨Nat.lt_of_le_of_lt hsmaller hlater.1, hlater.2⟩
  · rintro ⟨hhere, h⟩ pre u post hsplit hu
    cases pre with
    | nil =>
      rw [List.filter_nil, List.append_nil]
      exact hhere
    | cons w pre =>
      obtain ⟨rfl, hrest⟩ := List.cons.inj hsplit
      rw [hdrop]
      exact ⟨hhere.1, (h pre u post hrest hu).2⟩

theorem targetIe_quiet (hies : ies ≠ 0) (hstuck : Stuck rest) (h : Holds m ies (encode ts ++ rest))
    (hn : (encode ts ++ rest).length < 2 ^ 32) :
    v.targetIe m ies (encode ts ++ rest).length = none ↔ NoStray v ts rest := by
  cases Nat.lt_or_ge (encode ts ++ rest).length (2 ^ 31) with
  | inr hlarge =>
    refine iff_of_true (targetIe_none (Int.le_of_lt (asInt_large hlarge hn))) fun hsmall => ?_
    exact absurd hsmall (Nat.not_lt.mpr hlarge)
  | inl hsmall =>
    rcases targetIe_cases (v := v) hies hstuck h hsmall with
      ⟨hnone, hlate⟩ | ⟨pre, post, hsplit, hfirst, hreached, hsome⟩
    · exact iff_of_true hnone fun _ => hlate
    · refine iff_of_false (by rw [hsome]; exact nofun) fun hquiet => ?_
      exact absurd (hquiet hsmall pre post hsplit hfirst.leads) (ne_true_of_eq_false hreached)

theorem encode_filter_le (p : Element → Bool) (ts : List Element) :
    (encode (ts.filter p)).length ≤ (encode ts).length :=
  (List.filter_sublist.flatMap _).length_le

theorem targetIe_wanted (hies : ies ≠ 0) (hstuck : Stuck rest) (ht : v.keeps t = false)
    (hquiet : NoStray v (kept ++ ts.filter v.keeps) rest)
    (h : Holds m ies (encode (kept ++ t :: ts) ++ rest))
    (hn : (encode (kept ++ t :: ts) ++ rest).length < 2 ^ 31) :
    v.targetIe m ies (encode (kept ++ t :: ts) ++ rest).length =
      if cutOff (encode kept).length then none
      else some ⟨(encode kept).length, t.bytes.length⟩ := by
  have hhere : Leads v.oui (encode (t :: ts) ++ rest) := leads_wanted ht
  have hfinal : (encode (kept ++ ts.filter v.keeps) ++ rest).length < 2 ^ 31 := by
    have hle := encode_filter_le v.keeps ts
    simp only [encode_append, encode_cons, List.length_append] at hn ⊢
    omega
  have hearlier {pre q : List Element} {u : Element} (hsplit : kept = pre ++ u :: q)
      (hleads : Leads v.oui (encode (u :: q ++ t :: ts) ++ rest)) :
      cutOff (encode pre).length = true := by
    refine hquiet hfinal pre (u :: q ++ ts.filter v.keeps) ?_ ?_
    · rw [hsplit, List.append_assoc]
    · rw [encode_append, List.append_assoc] at hleads ⊢
      rw [encode_cons t, List.append_assoc] at hleads
      exact leads_of_next (Vendor.keeps_false.mp ht).1 hleads
  rcases targetIe_cases hies hstuck h hn with
    ⟨hnone, hlate⟩ | ⟨pre, post, hsplit, hfirst, hreached, hsome⟩
  · rw [hnone, hlate kept (t :: ts) rfl hhere, if_pos rfl]
  · have hpre : pre = kept := by
      rcases List.append_eq_append_iff.mp hsplit with ⟨q, rfl, hq⟩ | ⟨q, rfl, rfl⟩
      · cases q with
        | nil => exact List.append_nil kept
        | cons u q =>
          obtain ⟨rfl, rfl⟩ := List.cons.inj hq
          exact absurd hhere (hfirst.first kept t q rfl)
      · cases q with
        | nil => exact (List.append_nil pre).symm
        | cons u q => exact absurd (hearlier rfl hfirst.leads) (ne_true_of_eq_false hreached)
    subst hpre
    rw [hsome, hreached, if_neg Bool.false_ne_true, ieSize]
    rw [encode_append, encode_cons, List.append_assoc, List.append_assoc] at h
    rw [holds_len h.right, Element.length_bytes]

end Search

section Runs

variable {v : Vendor} {m : Mem} {ies n : ℕ} {ts kept : List Element} {rest : List UInt8}
  {s s₀ r : Shrink}

theorem delIe_hit {a : Attr} (h : v.targetIe s.mem ies s.len = some a) (ha : a.len ≠ 0) :
    Ends (v.delIeLoop ies).loop s r ↔
      Ends (v.delIeLoop ies).loop ((v.delIeLoop ies).erase s a) r :=
  Shrinker.ends_of_hit (congrArg some h) ha

theorem delIe_done (h : v.targetIe s.mem ies s.len = none) :
    Ends (v.delIeLoop ies).loop s r ↔ r = s :=
  Shrinker.ends_of_settles ⟨none, congrArg some h, nofun⟩

theorem delIe_settled (h : Ends (v.delIeLoop ies).loop s r) :
    v.targetIe r.mem ies r.len = none := by
  obtain ⟨found, hlook, hzero⟩ := Shrinker.ends_settled h
  have htarget : v.targetIe r.mem ies r.len = found := Option.some.inj hlook
  rw [htarget]
  cases found with
  | none => rfl
  | some a =>
    obtain ⟨cnt, _, rfl⟩ := Option.map_eq_some_iff.mp htarget
    exact absurd (hzero _ rfl) (Nat.succ_ne_zero _)

theorem delIe_run_iff (hies : ies ≠ 0) (hstuck : Stuck rest) (hn : n < 2 ^ 32)
    (hquiet : NoStray v (kept ++ ts.filter v.keeps) rest)
    (h : Region s₀ ies n (encode (kept ++ ts) ++ rest) s) :
    (∃ r, Ends (v.delIeLoop ies).loop s r ∧
        Deleted s₀ ies n (encode (kept ++ ts.filter v.keeps) ++ rest) r) ↔
      Reached v kept ts rest := by
  have hsize := Nat.lt_of_le_of_lt h.fits hn
  induction ts generalizing kept s with
  | nil =>
    rw [List.filter_nil] at hquiet ⊢
    refine iff_of_true ⟨s, ?_, h.deleted⟩ (reached_nil v kept rest)
    refine (delIe_done ?_).mpr rfl
    rw [h.len]
    exact (targetIe_quiet hies hstuck h.bytes hsize).mpr hquiet
  | cons t ts ih =>
    cases ht : v.keeps t with
    | true =>
      rw [List.filter_cons_of_pos ht, List.append_cons] at hquiet ⊢
      rw [List.append_cons] at h hsize
      rw [reached_kept ht]
      exact ih hquiet h hsize
    | false =>
      rw [List.filter_cons_of_neg (ne_true_of_eq_false ht)] at hquiet ⊢
      rw [reached_wanted ht]
      have hstop (hnone : v.targetIe s.mem ies s.len = none) : ¬ ∃ r,
          Ends (v.delIeLoop ies).loop s r ∧
            Deleted s₀ ies n (encode (kept ++ ts.filter v.keeps) ++ rest) r := by
        rintro ⟨r, hends, hdeleted⟩
        rw [(delIe_done hnone).mp hends] at hdeleted
        have hlen := hdeleted.len.symm.trans h.len
        have hle := encode_filter_le v.keeps ts
        simp only [encode_append, encode_cons, List.length_append, Element.length_bytes] at hlen
        omega
      cases Nat.lt_or_ge (encode (kept ++ t :: ts) ++ rest).length (2 ^ 31) with
      | inr hlarge =>
        refine iff_of_false (hstop (targetIe_none ?_)) fun hreached => ?_
        · rw [h.len]
          exact Int.le_of_lt (asInt_large hlarge hsize)
        · exact absurd hreached.1.1 (Nat.not_lt.mpr hlarge)
      | inl hsmall =>
        have htarget := targetIe_wanted hies hstuck ht hquiet h.bytes hsmall
        rw [← h.len] at htarget
        cases hcut : cutOff (encode kept).length with
        | true =>
          rw [hcut, if_pos rfl] at htarget
          exact iff_of_false (hstop htarget) fun hreached => Bool.noConfusion hreached.1.2
        | false =>
          rw [hcut, if_neg Bool.false_ne_true] at htarget
          have herased : Region s₀ ies n (encode (kept ++ ts) ++ rest)
              ((v.delIeLoop ies).erase s ⟨(encode kept).length, t.bytes.length⟩) := by
            rw [encode_append, encode_cons, List.append_assoc, List.append_assoc] at h
            refine Region.erase rfl (fun u hu => ?_) h
            rw [encode_append, List.append_assoc]
            exact hu
          have hnext : (encode (kept ++ ts) ++ rest).length < 2 ^ 32 :=
            Nat.lt_of_le_of_lt herased.fits hn
          have hturn (r : Shrink) := delIe_hit (r := r) htarget (Nat.succ_ne_zero _)
          refine (exists_congr fun r => and_congr_left' (hturn r)).trans ?_
          exact (ih hquiet herased hnext).trans (and_iff_right ⟨hsmall, rfl⟩).symm

theorem TlvBuffer.kept_le (b : TlvBuffer) (v : Vendor) :
    (encode (b.elements.filter v.keeps) ++ b.rest).length ≤ b.bytes.length := by
  rw [TlvBuffer.bytes, List.length_append, List.length_append]
  exact Nat.add_le_add_right (encode_filter_le v.keeps b.elements) _

theorem delIeLaw_iff (v : Vendor) (m : Mem) (b : TlvBuffer) (h : Holds m b.ies b.bytes) :
    DelIeLaw v m b ↔ DelIeSafe v b := by
  have hstart : Region ⟨m, b.bytes.length, []⟩ b.ies b.bytes.length (encode ([] ++ b.elements) ++ b.rest)
      ⟨m, b.bytes.length, []⟩ := Region.start h rfl
  have hruns : DelIeLaw v m b ↔ ∃ r, Ends (v.delIeLoop b.ies).loop ⟨m, b.bytes.length, []⟩ r ∧
      Deleted ⟨m, b.bytes.length, []⟩ b.ies b.bytes.length
        (encode ([] ++ b.elements.filter v.keeps) ++ b.rest) r := by
    cases v with
    | p2p => exact exists_comm.trans (exists_congr fun r => exists_and_right)
    | wfd => exact exists_comm.trans (exists_congr fun r => exists_and_right)
  rw [hruns]
  constructor
  · rintro ⟨r, hends, hdeleted⟩
    have hquiet : NoStray v ([] ++ b.elements.filter v.keeps) b.rest := by
      have hnone := delIe_settled hends
      rw [hdeleted.len] at hnone
      refine (targetIe_quiet b.notNull b.stuck hdeleted.kept ?_).mp hnone
      exact Nat.lt_of_le_of_lt (b.kept_le v) b.u32
    exact ⟨(delIe_run_iff b.notNull b.stuck b.u32 hquiet hstart).mp ⟨r, hends, hdeleted⟩, hquiet⟩
  · intro hsafe
    exact (delIe_run_iff b.notNull b.stuck b.u32 hsafe.quiet hstart).mpr hsafe.reached

end Runs

end Ie
