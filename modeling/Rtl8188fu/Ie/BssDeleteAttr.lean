import Rtl8188fu.Ie.BssDelete

namespace Ie

open ByteMemory CursorWalk Tlv
open WhileLoop (Ends Loop)

structure AttrDel where
  bss : Shrink
  ies : ℕ
  iesLen : ℕ

def AttrDel.advance (s : AttrDel) (bssIes ie ieLenOri : ℕ) (r : Shrink) : AttrDel :=
  let nextIeOri := ie + ieLenOri
  let remainLen := u32Sub s.bss.len (nextIeOri - bssIes)
  let bss : Shrink := ⟨r.mem, s.bss.len, s.bss.touched ++ r.touched⟩
  if r.len ≠ ieLenOri then ⟨closeGap bss (ie + r.len) nextIeOri remainLen, ie + r.len, remainLen⟩
  else ⟨bss, nextIeOri, remainLen⟩

def Vendor.bssExDelAttrLoop (v : Vendor) (bssIes : ℕ) (attrId : UInt8) : Loop AttrDel where
  guard _ := true
  body s :=
    match v.targetIe s.bss.mem s.ies s.iesLen with
    | none => .leave s
    | some found =>
      match v.delAttr s.bss.mem (s.ies + found.pos) found.len attrId (found.len + 1) with
      | none => .again s
      | some r => .again (s.advance bssIes (s.ies + found.pos) found.len r)

def Vendor.bssExDelAttr (v : Vendor) (bss : BssEx) (attrId : UInt8) (fuel : ℕ) : Option Shrink :=
  (WhileLoop.run (v.bssExDelAttrLoop bss.ies attrId) fuel
    ⟨⟨bss.mem, bss.ieLength, []⟩, bss.tlvIes, bss.tlvIesLen⟩).map AttrDel.bss

def rtwBssExDelP2pAttr : BssEx → UInt8 → ℕ → Option Shrink := Vendor.p2p.bssExDelAttr

def rtwBssExDelWfdAttr : BssEx → UInt8 → ℕ → Option Shrink := Vendor.wfd.bssExDelAttr

def BssBuffer.frontWithout {v : Vendor} (b : BssBuffer v) (attrId : UInt8) : List UInt8 :=
  b.fixed ++ encode (b.pieces.map (Piece.without attrId))

def BssDelAttrLaw (v : Vendor) (m : Mem) (attrId : UInt8) (b : BssBuffer v) : Prop :=
  ∃ fuel r, v.bssExDelAttr (b.bss m) attrId fuel = some r ∧
    Deleted ⟨m, b.bytes.length, []⟩ b.ies b.bytes.length
      (b.frontWithout attrId ++ b.rest) r

def cleared (m : Mem) (base n : ℕ) (bs : List UInt8) : Mem :=
  write m base (bs ++ List.replicate (n - bs.length) 0)

def RestSettles (v : Vendor) (attrId : UInt8) (m : Mem) (base n : ℕ) (front rest : List UInt8) :
    Prop :=
  Leads v.oui rest → (v.delAttrLoop (base + front.length) attrId).Settles
    (cleared m base n (front ++ rest))
    (ieSize (cleared m base n (front ++ rest)) (base + front.length))

structure AttrDelSafe (v : Vendor) (m : Mem) (attrId : UInt8) (b : BssBuffer v) : Prop where
  settled : ∀ p ∈ b.pieces, v.Settled attrId (p.without attrId).bytes
  rest : RestSettles v attrId m b.ies b.bytes.length (b.frontWithout attrId) b.rest

structure Near (bssIes : ℕ) (ts : List Element) (rest : List UInt8) (s : AttrDel) : Prop where
  holds : Holds s.bss.mem s.ies (encode ts ++ rest)
  iesLen : s.iesLen = (encode ts ++ rest).length
  len : bssIes + s.bss.len = s.ies + s.iesLen
  above : bssIes ≤ s.ies
  notNull : bssIes ≠ 0
  small : s.bss.len ≤ maxIeSz

section Steps

variable {v : Vendor} {m : Mem} {bssIes : ℕ} {attrId : UInt8} {ts pre post : List Element}
  {t : Element} {rest : List UInt8} {s u : AttrDel} {r : Shrink} {found : Attr}

theorem Near.within (h : Near bssIes ts rest s) : (encode ts ++ rest).length ≤ maxIeSz := by
  have hlen := h.len
  have habove := h.above
  have hsmall := h.small
  rw [← h.iesLen]
  omega

theorem Near.found_cases (h : Near bssIes ts rest s) (hstuck : Stuck rest) :
    (v.targetIe s.bss.mem s.ies s.iesLen = none ∧ NoLeads v ts rest) ∨
    ∃ pre post, ts = pre ++ post ∧ FirstLead v.oui pre post rest ∧
      v.targetIe s.bss.mem s.ies s.iesLen =
        some ⟨(encode pre).length, ieSize s.bss.mem (s.ies + (encode pre).length)⟩ := by
  have hwithin := h.within
  have hies : s.ies ≠ 0 := fun hzero => h.notNull (Nat.le_zero.mp (hzero ▸ h.above))
  rw [h.iesLen]
  rcases targetIe_cases (v := v) hies hstuck h.holds (Nat.lt_of_le_of_lt hwithin (by decide)) with
    ⟨hnone, hlate⟩ | ⟨pre, post, hsplit, hfirst, _, hsome⟩
  · refine .inl ⟨hnone, fun pre post hsplit hleads => ?_⟩
    have hreached := leads_reached pre hleads (by rwa [← hsplit])
    exact Bool.false_ne_true (hreached.symm.trans (hlate pre post hsplit hleads))
  · exact .inr ⟨pre, post, hsplit, hfirst, hsome⟩

theorem attrDel_done (h : v.targetIe s.bss.mem s.ies s.iesLen = none) :
    Ends (v.bssExDelAttrLoop bssIes attrId) s u ↔ u = s := by
  refine WhileLoop.ends_leave_iff rfl ?_
  simp only [Vendor.bssExDelAttrLoop, h]

theorem attrDel_turn (h : v.targetIe s.bss.mem s.ies s.iesLen = some found)
    (hr : v.delAttr s.bss.mem (s.ies + found.pos) found.len attrId (found.len + 1) = some r) :
    Ends (v.bssExDelAttrLoop bssIes attrId) s u ↔
      Ends (v.bssExDelAttrLoop bssIes attrId) (s.advance bssIes (s.ies + found.pos) found.len r) u := by
  refine WhileLoop.ends_again_iff rfl ?_
  simp only [Vendor.bssExDelAttrLoop, h, hr]

theorem attrDel_inner (h : v.targetIe s.bss.mem s.ies s.iesLen = some found)
    (hends : Ends (v.bssExDelAttrLoop bssIes attrId) s u) :
    ∃ r, v.delAttr s.bss.mem (s.ies + found.pos) found.len attrId (found.len + 1) = some r := by
  cases hr : v.delAttr s.bss.mem (s.ies + found.pos) found.len attrId (found.len + 1) with
  | some r => exact ⟨r, rfl⟩
  | none =>
    refine absurd hends (WhileLoop.not_ends_of_stuck rfl ?_)
    simp only [Vendor.bssExDelAttrLoop, h, hr]

theorem Near.element (h : Near bssIes (pre ++ t :: post) rest s) :
    Holds s.bss.mem (s.ies + (encode pre).length) (t.bytes ++ (encode post ++ rest)) := by
  have hholds := h.holds
  rw [encode_append, encode_cons, List.append_assoc, List.append_assoc] at hholds
  exact hholds.right

theorem Near.ieSize_eq (h : Near bssIes (pre ++ t :: post) rest s) :
    ieSize s.bss.mem (s.ies + (encode pre).length) = t.bytes.length := by
  rw [ieSize, holds_len h.element, Element.length_bytes]

theorem Near.remainLen (h : Near bssIes (pre ++ t :: post) rest s) :
    u32Sub s.bss.len (s.ies + (encode pre).length + t.bytes.length - bssIes) =
      (encode post ++ rest).length := by
  have hlen := h.len
  have habove := h.above
  rw [h.iesLen, encode_append, encode_cons] at hlen
  simp only [List.length_append] at hlen ⊢
  rw [u32Sub_of_le (by omega)]
  omega

theorem advance_shrunk (hlen : r.len ≠ t.bytes.length) (h : Near bssIes (pre ++ t :: post) rest s) :
    s.advance bssIes (s.ies + (encode pre).length) t.bytes.length r =
      ⟨closeGap ⟨r.mem, s.bss.len, s.bss.touched ++ r.touched⟩ (s.ies + (encode pre).length + r.len)
        (s.ies + (encode pre).length + t.bytes.length) (encode post ++ rest).length,
        s.ies + (encode pre).length + r.len, (encode post ++ rest).length⟩ := by
  simp only [AttrDel.advance, if_pos hlen, h.remainLen]

theorem advance_same (hlen : r.len = t.bytes.length) (h : Near bssIes (pre ++ t :: post) rest s) :
    s.advance bssIes (s.ies + (encode pre).length) t.bytes.length r =
      ⟨⟨r.mem, s.bss.len, s.bss.touched ++ r.touched⟩,
        s.ies + (encode pre).length + t.bytes.length, (encode post ++ rest).length⟩ := by
  simp only [AttrDel.advance, hlen, ne_eq, not_true_eq_false, if_false, h.remainLen]

theorem Near.advance (h : Near bssIes (pre ++ t :: post) rest s)
    (hr : Narrowed (s.ies + (encode pre).length) ⟨s.bss.mem, t.bytes.length, []⟩ r) :
    Near bssIes post rest (s.advance bssIes (s.ies + (encode pre).length) t.bytes.length r) ∧
      (s.advance bssIes (s.ies + (encode pre).length) t.bytes.length r).bss.len + t.bytes.length =
        s.bss.len + r.len := by
  have hlen := h.len
  have habove := h.above
  have hsmall := h.small
  have hle : r.len ≤ t.bytes.length := hr.len
  rw [h.iesLen, encode_append, encode_cons, List.append_assoc, List.append_assoc,
    List.length_append, List.length_append] at hlen
  have hrest : Holds r.mem (s.ies + (encode pre).length + t.bytes.length) (encode post ++ rest) :=
    h.element.right.congr fun i hi _ => hr.outside i (.inr hi)
  cases Decidable.em (r.len = t.bytes.length) with
  | inl hsame =>
    rw [advance_same hsame h]
    refine ⟨⟨hrest, rfl, ?_, ?_, h.notNull, hsmall⟩, congrArg _ hsame.symm⟩
    · dsimp only
      omega
    · dsimp only
      omega
  | inr hless =>
    have hgap : s.ies + (encode pre).length + t.bytes.length -
        (s.ies + (encode pre).length + r.len) = t.bytes.length - r.len := by omega
    have hshrunk : u32Sub s.bss.len (t.bytes.length - r.len) =
        s.bss.len - (t.bytes.length - r.len) := u32Sub_of_le (by omega)
    rw [advance_shrunk hless h]
    refine ⟨⟨?_, rfl, ?_, ?_, h.notNull, ?_⟩, ?_⟩
    · simp only [closeGap, hgap, hrest.read]
      exact (holds_write _ _ _).write_after (Nat.le_refl _)
    · simp only [closeGap, hgap, hshrunk]
      omega
    · dsimp only
      omega
    · simp only [closeGap, hgap, hshrunk]
      omega
    · simp only [closeGap, hgap, hshrunk]
      omega

theorem Near.rest_wraps (h : Near bssIes ts rest s) (hstuck : Stuck rest)
    (hleads : Leads v.oui rest) :
    2 ^ 31 ≤ u32Sub s.bss.len (s.ies + (encode ts).length +
        ieSize s.bss.mem (s.ies + (encode ts).length) - bssIes) ∧
      u32Sub s.bss.len (s.ies + (encode ts).length +
        ieSize s.bss.mem (s.ies + (encode ts).length) - bssIes) < 2 ^ 32 := by
  have hroom := leads_length v.oui_length hleads
  have hlen := h.len
  have habove := h.above
  have hsmall : s.bss.len ≤ 768 := h.small
  rw [h.iesLen, List.length_append] at hlen
  rcases hstuck.cases with hshort | ⟨id, len, xs, rfl, hlt⟩
  · omega
  · have hclaimed : s.bss.mem (s.ies + (encode ts).length + 1) = len :=
      h.holds.right 1 (by simp)
    have hbyte := len.toNat_lt
    rw [List.length_cons, List.length_cons] at hlen
    rw [ieSize, hclaimed, u32Sub, if_neg (by omega)]
    omega

theorem advance_rest (s : AttrDel) (bssIes ie ieLenOri : ℕ) (r : Shrink) :
    (s.advance bssIes ie ieLenOri r).iesLen = u32Sub s.bss.len (ie + ieLenOri - bssIes) := by
  rw [AttrDel.advance]
  split
  · rfl
  · rfl

theorem Near.rest_ends (h : Near bssIes ts rest s) (hstuck : Stuck rest)
    (hleads : Leads v.oui rest)
    (htarget : v.targetIe s.bss.mem s.ies s.iesLen =
      some ⟨(encode ts).length, ieSize s.bss.mem (s.ies + (encode ts).length)⟩) :
    Ends (v.bssExDelAttrLoop bssIes attrId) s u ↔ ∃ r,
      Ends (v.delAttrLoop (s.ies + (encode ts).length) attrId).loop
        ⟨s.bss.mem, ieSize s.bss.mem (s.ies + (encode ts).length), []⟩ r ∧
      u = s.advance bssIes (s.ies + (encode ts).length)
        (ieSize s.bss.mem (s.ies + (encode ts).length)) r := by
  obtain ⟨hlarge, h32⟩ := h.rest_wraps hstuck hleads
  have hstops (r : Shrink) : Ends (v.bssExDelAttrLoop bssIes attrId)
      (s.advance bssIes (s.ies + (encode ts).length)
        (ieSize s.bss.mem (s.ies + (encode ts).length)) r) u ↔
      u = s.advance bssIes (s.ies + (encode ts).length)
        (ieSize s.bss.mem (s.ies + (encode ts).length)) r := by
    refine attrDel_done (targetIe_none ?_)
    rw [advance_rest]
    exact Int.le_of_lt (asInt_large hlarge h32)
  constructor
  · intro hends
    obtain ⟨r, hr⟩ := attrDel_inner htarget hends
    exact ⟨r, delAttr_enough.mp hr, (hstops r).mp ((attrDel_turn htarget hr).mp hends)⟩
  · rintro ⟨r, hr, hu⟩
    exact (attrDel_turn htarget (delAttr_enough.mpr hr)).mpr ((hstops r).mpr hu)

theorem Near.rest_settles {n : ℕ} (h : Near bssIes ts rest s) (hstuck : Stuck rest)
    (hleads : Leads v.oui rest)
    (htarget : v.targetIe s.bss.mem s.ies s.iesLen =
      some ⟨(encode ts).length, ieSize s.bss.mem (s.ies + (encode ts).length)⟩)
    (hends : Ends (v.bssExDelAttrLoop bssIes attrId) s u) (hn : n ≤ maxIeSz)
    (htouched : ∀ a ∈ u.bss.touched, a.Within bssIes n) :
    (v.delAttrLoop (s.ies + (encode ts).length) attrId).Settles s.bss.mem
      (ieSize s.bss.mem (s.ies + (encode ts).length)) ∧ u.bss = s.bss := by
  obtain ⟨hlarge, _⟩ := h.rest_wraps hstuck hleads
  obtain ⟨r, hr, rfl⟩ := (h.rest_ends hstuck hleads htarget).mp hends
  have habove := h.above
  have h768 : n ≤ 768 := hn
  cases Classical.em ((v.delAttrLoop (s.ies + (encode ts).length) attrId).Settles s.bss.mem
      (ieSize s.bss.mem (s.ies + (encode ts).length))) with
  | inl hsettles =>
    obtain rfl := (Shrinker.ends_of_settles hsettles).mp hr
    refine ⟨hsettles, ?_⟩
    simp only [AttrDel.advance, ne_eq, not_true_eq_false, if_false, List.append_nil]
  | inr hunsettled =>
    have hless : r.len ≠ ieSize s.bss.mem (s.ies + (encode ts).length) :=
      Nat.ne_of_lt (delAttr_unsettled hr hunsettled)
    simp only [AttrDel.advance, if_pos hless] at htouched
    rcases htouched _ (List.mem_append_right _ List.mem_cons_self) with hzero | ⟨_, hend⟩
    · dsimp only at hzero
      omega
    · dsimp only at hend
      omega

end Steps

section Pieces

variable {v : Vendor} {attrId : UInt8} {ps : List (Piece v)} {ts pre post : List Element}
  {rest : List UInt8}

theorem FirstLead.keeps (h : FirstLead v.oui pre post rest) : ∀ t ∈ pre, v.keeps t = true := by
  intro t ht
  obtain ⟨p, q, rfl⟩ := List.append_of_mem ht
  refine eq_true_of_ne_false fun hwanted => h.first p t q rfl ?_
  rw [List.cons_append]
  exact leads_wanted hwanted

theorem NoLeads.keeps (h : NoLeads v ts rest) : ∀ t ∈ ts, v.keeps t = true := by
  intro t ht
  obtain ⟨p, q, rfl⟩ := List.append_of_mem ht
  exact eq_true_of_ne_false fun hwanted => h p (t :: q) rfl (leads_wanted hwanted)

theorem VendorElement.wanted (e : VendorElement v) : v.keeps e.element = false :=
  Vendor.keeps_false.mpr ⟨rfl, List.prefix_append _ _⟩

theorem Piece.without_kept {p : Piece v} (h : v.keeps p.element = true) :
    p.without attrId = p.element ∧ v.Settled attrId (p.without attrId).bytes := by
  cases p with
  | other t ht => exact ⟨rfl, settled_other ht⟩
  | own e => exact absurd (h.symm.trans e.wanted) nofun

theorem without_kept (attrId : UInt8) (h : ∀ t ∈ ps.map Piece.element, v.keeps t = true) :
    ps.map (Piece.without attrId) = ps.map Piece.element ∧
      ∀ p ∈ ps, v.Settled attrId (p.without attrId).bytes := by
  constructor
  · exact List.map_congr_left fun p hp => (Piece.without_kept (h _ (List.mem_map_of_mem hp))).1
  · exact fun p hp => (Piece.without_kept (h _ (List.mem_map_of_mem hp))).2

end Pieces

section Runs

variable {v : Vendor} {bssIes n : ℕ} {attrId : UInt8} {ps : List (Piece v)} {rest done : List UInt8}
  {s u : AttrDel} {s₀ : Shrink}

theorem attrDel_len (hstuck : Stuck rest) (hn : n ≤ maxIeSz)
    (h : Near bssIes (ps.map Piece.element) rest s)
    (hends : Ends (v.bssExDelAttrLoop bssIes attrId) s u)
    (htouched : ∀ a ∈ u.bss.touched, a.Within bssIes n) :
    u.bss.len + (encode (ps.map Piece.element)).length ≤
        s.bss.len + (encode (ps.map (Piece.without attrId))).length ∧
      (u.bss.len + (encode (ps.map Piece.element)).length =
          s.bss.len + (encode (ps.map (Piece.without attrId))).length →
        ∀ p ∈ ps, v.Settled attrId (p.without attrId).bytes) := by
  induction hsize : ps.length using Nat.strongRecOn generalizing ps s with
  | _ size ih =>
    rcases h.found_cases hstuck with ⟨hnone, hquiet⟩ | ⟨pre, post, hsplit, hfirst, htarget⟩
    · obtain rfl := (attrDel_done hnone).mp hends
      obtain ⟨hsame, hsettled⟩ := without_kept attrId hquiet.keeps
      rw [hsame]
      exact ⟨Nat.le_refl _, fun _ => hsettled⟩
    · obtain ⟨ps₁, ps₂, rfl, rfl, rfl⟩ := List.map_eq_append_iff.mp hsplit
      obtain ⟨hsame, hsettled⟩ := without_kept attrId hfirst.keeps
      cases ps₂ with
      | nil =>
        rw [List.append_nil] at h ⊢
        have hleads := hfirst.leads
        obtain ⟨_, hbss⟩ := h.rest_settles hstuck hleads htarget hends hn htouched
        rw [hsame, hbss]
        exact ⟨Nat.le_refl _, fun _ => hsettled⟩
      | cons p ps₂ =>
        rw [List.map_append, List.map_cons] at h
        rw [h.ieSize_eq] at htarget
        obtain ⟨r, hr⟩ := attrDel_inner htarget hends
        have hinner := delAttr_enough.mp hr
        obtain ⟨hnear, hlen⟩ := h.advance (delAttr_narrowed hinner)
        have hie : s.ies + (encode (ps₁.map Piece.element)).length ≠ 0 := by
          have habove := h.above
          have hnotNull := h.notNull
          omega
        obtain ⟨hle, hall⟩ := delAttr_spec hie h.element.left hinner
        rw [List.length_append, List.length_cons] at hsize
        obtain ⟨hlater, hlaterAll⟩ := ih ps₂.length (by omega) hnear
          ((attrDel_turn htarget hr).mp hends) rfl
        simp only [List.map_append, List.map_cons, encode_append, encode_cons, List.length_append,
          hsame] at hlater ⊢
        refine ⟨by omega, fun heq q hq => ?_⟩
        rcases List.mem_append.mp hq with hbefore | hthere
        · exact hsettled q hbefore
        · rcases List.mem_cons.mp hthere with rfl | hafter
          · exact hall (by omega)
          · exact hlaterAll (by omega) q hafter

structure At (s₀ : Shrink) (bssIes n : ℕ) (done : List UInt8) (ts : List Element)
    (rest : List UInt8) (s : AttrDel) : Prop where
  region : Region s₀ bssIes n (done ++ (encode ts ++ rest)) s.bss
  ies : s.ies = bssIes + done.length
  iesLen : s.iesLen = (encode ts ++ rest).length
  notNull : bssIes ≠ 0
  small : n ≤ maxIeSz

theorem At.near {ts : List Element} (h : At s₀ bssIes n done ts rest s) : Near bssIes ts rest s := by
  have hfits := h.region.fits
  have hlen := h.region.len
  have hies := h.ies
  have hiesLen := h.iesLen
  rw [List.length_append] at hfits hlen
  refine ⟨?_, hiesLen, ?_, ?_, h.notNull, ?_⟩
  · rw [hies]
    exact h.region.bytes.right
  · omega
  · omega
  · rw [hlen]
    exact Nat.le_trans hfits h.small

theorem At.advance {pre post : List Element} {t : Element} {ws : List UInt8} {r : Shrink}
    (h : At s₀ bssIes n done (pre ++ t :: post) rest s)
    (hr : Region ⟨s.bss.mem, t.bytes.length, []⟩ (s.ies + (encode pre).length) t.bytes.length ws r) :
    At s₀ bssIes n (done ++ (encode pre ++ ws)) post rest
      (s.advance bssIes (s.ies + (encode pre).length) t.bytes.length r) := by
  have hpos : s.ies + (encode pre).length = bssIes + (done ++ encode pre).length := by
    rw [h.ies, List.length_append, Nat.add_assoc]
  have hfits := hr.fits
  have hregion := h.region
  have hlen := hr.len
  rw [encode_append, encode_cons, List.append_assoc, List.append_assoc, ← List.append_assoc] at hregion
  rw [hpos] at hr
  have hreplaced := hregion.replace hr
  cases Decidable.em (r.len = t.bytes.length) with
  | inl hsame =>
    rw [advance_same hsame h.near]
    refine ⟨?_, ?_, rfl, h.notNull, h.small⟩
    · rw [← hlen, hsame, Nat.sub_self, List.replicate_zero, List.nil_append] at hreplaced
      rw [List.append_assoc, List.append_assoc, ← List.append_assoc done]
      exact hreplaced
    · rw [← hsame, hlen, hpos]
      simp only [List.length_append]
      omega
  | inr hless =>
    rw [advance_shrunk hless h.near]
    refine ⟨?_, ?_, rfl, h.notNull, h.small⟩
    · rw [← List.append_assoc] at hreplaced
      have hclosed := hreplaced.closeGap
      rw [List.length_replicate] at hclosed
      have htarget : s.ies + (encode pre).length + r.len =
          bssIes + (done ++ encode pre ++ ws).length := by
        rw [hpos, hlen, @List.length_append _ _ ws, Nat.add_assoc]
      have hnext : s.ies + (encode pre).length + t.bytes.length =
          bssIes + (done ++ encode pre ++ ws).length + (t.bytes.length - ws.length) := by
        rw [← htarget, hlen]
        omega
      rw [htarget, hnext, ← List.append_assoc done]
      exact hclosed
    · rw [hpos, hlen]
      simp only [List.length_append]
      omega

theorem attrDel_run_iff (hstuck : Stuck rest) (hs₀ : s₀.touched = [])
    (hsettled : ∀ p ∈ ps, v.Settled attrId (p.without attrId).bytes)
    (h : At s₀ bssIes n done (ps.map Piece.element) rest s) :
    (∃ u, Ends (v.bssExDelAttrLoop bssIes attrId) s u ∧ Deleted s₀ bssIes n
        (done ++ encode (ps.map (Piece.without attrId)) ++ rest) u.bss) ↔
      RestSettles v attrId s₀.mem bssIes n (done ++ encode (ps.map (Piece.without attrId))) rest := by
  induction hsize : ps.length using Nat.strongRecOn generalizing ps s done with
  | _ size ih =>
    rcases h.near.found_cases hstuck with ⟨hnone, hquiet⟩ | ⟨pre, post, hsplit, hfirst, htarget⟩
    · obtain ⟨hsame, _⟩ := without_kept attrId hquiet.keeps
      have hregion := h.region
      rw [hsame, List.append_assoc]
      refine iff_of_true ⟨s, (attrDel_done hnone).mpr rfl, hregion.deleted⟩ fun hleads => ?_
      exact absurd hleads (hquiet _ [] (List.append_nil _).symm)
    · obtain ⟨ps₁, ps₂, rfl, rfl, rfl⟩ := List.map_eq_append_iff.mp hsplit
      obtain ⟨hsame, _⟩ := without_kept attrId hfirst.keeps
      cases ps₂ with
      | nil =>
        rw [List.append_nil] at h ⊢
        have hleads : Leads v.oui rest := hfirst.leads
        have hregion := h.region
        rw [← List.append_assoc] at hregion
        have hmem : s.bss.mem = cleared s₀.mem bssIes n
            (done ++ encode (ps₁.map Piece.element) ++ rest) := hregion.mem_eq
        have hpos : s.ies + (encode (ps₁.map Piece.element)).length =
            bssIes + (done ++ encode (ps₁.map Piece.element)).length := by
          rw [h.ies, List.length_append, Nat.add_assoc]
        rw [hsame, RestSettles, forall_prop_of_true hleads, ← hmem, ← hpos]
        constructor
        · rintro ⟨u, hends, hlast⟩
          refine (h.near.rest_settles hstuck hleads htarget hends h.small fun a ha => ?_).1
          rcases hlast.touched a ha with hold | hwithin
          · rw [hs₀] at hold
            exact absurd hold List.not_mem_nil
          · exact hwithin
        · intro hsettles
          refine ⟨_, (h.near.rest_ends hstuck hleads htarget).mpr
            ⟨_, (Shrinker.ends_of_settles hsettles).mpr rfl, rfl⟩, ?_⟩
          simp only [AttrDel.advance, ne_eq, not_true_eq_false, if_false, List.append_nil]
          exact hregion.deleted
      | cons p ps₂ =>
        rw [List.map_append, List.map_cons] at h
        rw [h.near.ieSize_eq] at htarget
        have hie : s.ies + (encode (ps₁.map Piece.element)).length ≠ 0 := by
          have hies := h.ies
          have hnotNull := h.notNull
          omega
        have hp : v.Settled attrId (p.without attrId).bytes :=
          hsettled p (List.mem_append_right _ List.mem_cons_self)
        obtain ⟨r, hr, hregion⟩ := delAttr_settled hie h.near.element.left hp
        have hat := h.advance hregion
        rw [List.length_append, List.length_cons] at hsize
        have hrest := ih ps₂.length (by omega)
          (fun q hq => hsettled q (List.mem_append_right _ (List.mem_cons_of_mem _ hq))) hat rfl
        have hfront : done ++ (encode (ps₁.map Piece.element) ++ (p.without attrId).bytes) ++
            encode (ps₂.map (Piece.without attrId)) =
              done ++ encode ((ps₁ ++ p :: ps₂).map (Piece.without attrId)) := by
          simp only [List.map_append, List.map_cons, encode_append, encode_cons, hsame,
            List.append_assoc]
        rw [hfront] at hrest
        exact (exists_congr fun u => and_congr_left' (attrDel_turn htarget hr)).trans hrest

end Runs

theorem restSettles_nil (v : Vendor) (attrId : UInt8) (m : Mem) (base n : ℕ) (front : List UInt8) :
    RestSettles v attrId m base n front [] := fun hleads => absurd hleads.1 nofun

theorem bssDelAttrLaw_iff (v : Vendor) (m : Mem) (attrId : UInt8) (b : BssBuffer v)
    (h : Holds m b.ies b.bytes) : BssDelAttrLaw v m attrId b ↔ AttrDelSafe v m attrId b := by
  have hruns : BssDelAttrLaw v m attrId b ↔ ∃ u, Ends (v.bssExDelAttrLoop b.ies attrId)
      ⟨⟨m, b.bytes.length, []⟩, (b.bss m).tlvIes, (b.bss m).tlvIesLen⟩ u ∧
        Deleted ⟨m, b.bytes.length, []⟩ b.ies b.bytes.length (b.frontWithout attrId ++ b.rest)
          u.bss := by
    constructor
    · rintro ⟨fuel, r, hrun, hdeleted⟩
      obtain ⟨u, hu, rfl⟩ := Option.map_eq_some_iff.mp hrun
      exact ⟨u, ⟨fuel, hu⟩, hdeleted⟩
    · rintro ⟨u, ⟨fuel, hu⟩, hdeleted⟩
      exact ⟨fuel, u.bss, Option.map_eq_some_iff.mpr ⟨u, hu, rfl⟩, hdeleted⟩
  rw [hruns]
  rcases b.layout with hfixed | ⟨hshort, hpieces, hrest⟩
  · have htlv := b.tlvIesLen_eq m hfixed
    have hat : At ⟨m, b.bytes.length, []⟩ b.ies b.bytes.length b.fixed (b.pieces.map Piece.element)
        b.rest ⟨⟨m, b.bytes.length, []⟩, (b.bss m).tlvIes, (b.bss m).tlvIesLen⟩ :=
      ⟨Region.start h rfl, congrArg (b.ies + ·) hfixed.symm, htlv, b.notNull, b.small⟩
    constructor
    · rintro ⟨u, hends, hdeleted⟩
      have htouched : ∀ a ∈ u.bss.touched, a.Within b.ies b.bytes.length := fun a ha =>
        (hdeleted.touched a ha).resolve_left List.not_mem_nil
      have hsettled := (attrDel_len b.stuck b.small hat.near hends htouched).2 (by
        have hlen := hdeleted.len
        have hall : b.bytes.length = b.fixed.length +
            (encode (b.pieces.map Piece.element) ++ b.rest).length := List.length_append
        rw [BssBuffer.frontWithout] at hlen
        simp only [List.length_append] at hlen hall ⊢
        omega)
      exact ⟨hsettled, (attrDel_run_iff b.stuck rfl hsettled hat).mp ⟨u, hends, hdeleted⟩⟩
    · intro hsafe
      exact (attrDel_run_iff b.stuck rfl hsafe.settled hat).mpr hsafe.rest
  · have hnone := b.targetIe_short m hshort hpieces hrest
    have hall : b.frontWithout attrId ++ b.rest = b.bytes := by
      rw [BssBuffer.frontWithout, BssBuffer.bytes, BssBuffer.elements, hpieces, List.append_assoc]
      rfl
    refine iff_of_true ⟨_, (attrDel_done hnone).mpr rfl, ?_⟩ ⟨?_, ?_⟩
    · rw [hall]
      exact (Region.start h rfl).deleted
    · rw [hpieces]
      exact fun p hp => absurd hp List.not_mem_nil
    · rw [hrest]
      exact restSettles_nil v attrId m b.ies b.bytes.length _

theorem delete_law (v : Vendor) (m : Mem) :
    (∀ b : TlvBuffer, Holds m b.ies b.bytes → (DelIeLaw v m b ↔ DelIeSafe v b)) ∧
    (∀ (ie : ℕ) (attrId : UInt8) (p : Piece v), ie ≠ 0 → Holds m ie p.element.bytes →
      (DelAttrLaw v m ie attrId p ↔ v.Settled attrId (p.without attrId).bytes)) ∧
    (∀ b : BssBuffer v, Holds m b.ies b.bytes →
      (BssDelIeLaw v m b ↔ NoLeads v (b.elements.filter v.keeps) b.rest)) ∧
    (∀ (attrId : UInt8) (b : BssBuffer v), Holds m b.ies b.bytes →
      (BssDelAttrLaw v m attrId b ↔ AttrDelSafe v m attrId b)) := by
  refine ⟨fun b h => ?_, fun ie attrId p hie h => ?_, fun b h => ?_, fun attrId b h => ?_⟩
  · exact delIeLaw_iff v m b h
  · exact delAttrLaw_iff hie h
  · exact bssDelIeLaw_iff v m b h
  · exact bssDelAttrLaw_iff v m attrId b h

def couplingSink : Piece .wfd := .own
  { attrs := [⟨6, [0x11], by decide⟩, ⟨0, [0x22, 0x33], by decide⟩]
    rest := []
    stop := nofun
    short := by decide }

def scannedBss : BssBuffer .wfd where
  ies := 1
  reserved := 2
  fixed := List.replicate 12 0x77
  pieces := [.other ⟨0, [0x6d, 0x69, 0x72], by decide⟩ rfl, couplingSink]
  rest := []
  stuck := nofun
  notNull := Nat.one_ne_zero
  small := by decide
  layout := .inl rfl

theorem delete_law_scanned :
    (DelIeLaw .wfd (memOf scannedBss.bytes 1) scannedBss.tlv ↔ DelIeSafe .wfd scannedBss.tlv) ∧
    (DelAttrLaw .wfd (memOf scannedBss.bytes 1) 18 0 couplingSink ↔
      Vendor.wfd.Settled 0 (couplingSink.without 0).bytes) ∧
    (BssDelIeLaw .wfd (memOf scannedBss.bytes 1) scannedBss ↔
      NoLeads .wfd (scannedBss.elements.filter Vendor.wfd.keeps) scannedBss.rest) ∧
    (BssDelAttrLaw .wfd (memOf scannedBss.bytes 1) 0 scannedBss ↔
      AttrDelSafe .wfd (memOf scannedBss.bytes 1) 0 scannedBss) := by
  have hlaw := delete_law .wfd (memOf scannedBss.bytes 1)
  refine ⟨hlaw.1 scannedBss.tlv (.of_read (by decide)), hlaw.2.1 18 0 couplingSink (by decide)
    (.of_read (by decide)), hlaw.2.2.1 scannedBss (.of_read (by decide)),
    hlaw.2.2.2 0 scannedBss (.of_read (by decide))⟩

def truncatedBss : BssBuffer .wfd where
  ies := 1
  reserved := 2
  fixed := List.replicate 12 0x78
  pieces := []
  rest := eidVendorSpecific :: 9 :: wfdOui
  stuck := stuck_of_claim (Nat.lt_of_sub_pos (Nat.succ_pos 4))
  notNull := Nat.one_ne_zero
  small := by decide
  layout := .inl rfl

theorem wrappedAttr_stops : Vendor.p2p.AttrsStop [2, 0xfe, 0xff] := by
  intro a xs h
  have hsplit : ([2, 0xfe, 0xff] : List UInt8) =
      a.id :: (Vendor.p2p.lenBytes a.data.length ++ (a.data ++ xs)) := by
    rw [h, Vendor.attrBytes, List.cons_append, List.append_assoc]
  have hsize := congrArg List.length hsplit
  simp only [List.length_cons, List.length_nil, List.length_append, Vendor.length_lenBytes] at hsize
  have hempty : a.data.length = 0 := by omega
  rw [hempty] at hsplit
  exact absurd (List.cons.inj (List.cons.inj hsplit).2).1 (by decide)

def wrappedAttrIe : VendorElement .p2p where
  attrs := []
  rest := [2, 0xfe, 0xff]
  stop := wrappedAttr_stops
  short := by decide

theorem truncated_ie_moved_past_end :
    ¬ BssDelIeLaw .wfd (memOf truncatedBss.bytes 1) truncatedBss ∧
      ¬ DelAttrLaw .p2p (memOf wrappedAttrIe.element.bytes 1) 1 2 (.own wrappedAttrIe) := by
  constructor
  · have hlaw := bssDelIeLaw_iff .wfd _ truncatedBss (holds_memOf truncatedBss.bytes 1)
    exact mt hlaw.mp fun h => h [] [] rfl (by decide)
  · have hheld : Holds (memOf wrappedAttrIe.element.bytes 1) 1
        (Piece.own wrappedAttrIe).element.bytes := holds_memOf _ 1
    refine mt (delAttrLaw_iff Nat.one_ne_zero hheld).mp ?_
    rintro ⟨r, hlook, hzero⟩
    have hfound : r = some ⟨6, 1⟩ := by
      refine Option.some.inj (hlook.symm.trans ?_)
      decide
    exact absurd (hzero _ hfound) Nat.one_ne_zero

end Ie
