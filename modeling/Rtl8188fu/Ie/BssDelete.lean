import Rtl8188fu.Scan.Network
import Rtl8188fu.Ie.DeleteAttr

namespace Ie

open ByteMemory CursorWalk Tlv
open Scan (bssTypeProbReq)
open WhileLoop (Ends)

structure BssEx where
  mem : Mem
  ies : ℕ
  ieLength : ℕ
  reserved : UInt8

def fixedIeOffset (reserved : UInt8) : ℕ := if reserved.toNat = bssTypeProbReq then 0 else 12

def BssEx.tlvIes (bss : BssEx) : ℕ := bss.ies + fixedIeOffset bss.reserved

def BssEx.tlvIesLen (bss : BssEx) : ℕ := u32Sub bss.ieLength (fixedIeOffset bss.reserved)

def Vendor.bssExDelIe (v : Vendor) (bss : BssEx) (fuel : ℕ) : Option Shrink :=
  (v.delIe bss.mem bss.tlvIes bss.tlvIesLen fuel).map fun r =>
    { r with len := u32Sub bss.ieLength (u32Sub bss.tlvIesLen r.len) }

def rtwBssExDelP2pIe : BssEx → ℕ → Option Shrink := Vendor.p2p.bssExDelIe

def rtwBssExDelWfdIe : BssEx → ℕ → Option Shrink := Vendor.wfd.bssExDelIe

structure BssBuffer (v : Vendor) where
  ies : ℕ
  reserved : UInt8
  fixed : List UInt8
  pieces : List (Piece v)
  rest : List UInt8
  stuck : Stuck rest
  notNull : ies ≠ 0
  small : (fixed ++ (encode (pieces.map Piece.element) ++ rest)).length ≤ maxIeSz
  layout : fixed.length = fixedIeOffset reserved ∨
    fixed.length < fixedIeOffset reserved ∧ pieces = [] ∧ rest = []

namespace BssBuffer

variable {v : Vendor} (b : BssBuffer v)

def elements : List Element := b.pieces.map Piece.element

def bytes : List UInt8 := b.fixed ++ (encode b.elements ++ b.rest)

def withoutIes : List UInt8 := b.fixed ++ (encode (b.elements.filter v.keeps) ++ b.rest)

def bss (m : Mem) : BssEx := ⟨m, b.ies, b.bytes.length, b.reserved⟩

end BssBuffer

def BssDelIeLaw (v : Vendor) (m : Mem) (b : BssBuffer v) : Prop :=
  ∃ fuel r, v.bssExDelIe (b.bss m) fuel = some r ∧
    Deleted ⟨m, b.bytes.length, []⟩ b.ies b.bytes.length b.withoutIes r

def NoLeads (v : Vendor) (elements : List Element) (rest : List UInt8) : Prop :=
  ∀ pre post, elements = pre ++ post → ¬ Leads v.oui (encode post ++ rest)

theorem BssBuffer.exists_bytes (v : Vendor) {ies : ℕ} (reserved : UInt8) (bs : List UInt8)
    (hies : ies ≠ 0) (hsmall : bs.length ≤ maxIeSz) :
    ∃ b : BssBuffer v, b.ies = ies ∧ b.reserved = reserved ∧ b.bytes = bs := by
  cases Nat.lt_or_ge bs.length (fixedIeOffset reserved) with
  | inl hshort =>
    have hall : bs ++ (encode [] ++ []) = bs := List.append_nil bs
    refine ⟨⟨ies, reserved, bs, [], [], nofun, hies, ?_, .inr ⟨hshort, rfl, rfl⟩⟩, rfl, rfl, hall⟩
    rw [List.map_nil, hall]
    exact hsmall
  | inr hlong =>
    obtain ⟨ts, rest, hts, hstuck⟩ := exists_encode (bs.drop (fixedIeOffset reserved))
    obtain ⟨ps, hps⟩ : ∃ ps : List (Piece v), ps.map Piece.element = ts := by
      refine ⟨ts.map fun t => (Piece.exists_element v t).choose, ?_⟩
      rw [List.map_map]
      refine (List.map_congr_left fun t _ => ?_).trans (List.map_id ts)
      exact (Piece.exists_element v t).choose_spec
    have hall : bs.take (fixedIeOffset reserved) ++ (encode (ps.map Piece.element) ++ rest) = bs := by
      rw [hps, ← hts, List.take_append_drop]
    refine ⟨⟨ies, reserved, bs.take (fixedIeOffset reserved), ps, rest, hstuck, hies, ?_, .inl ?_⟩,
      rfl, rfl, hall⟩
    · rw [hall]
      exact hsmall
    · exact List.length_take_of_le hlong

section DeleteIes

variable {v : Vendor} {m : Mem} {b : BssBuffer v} {ts : List Element} {rest bs fixed : List UInt8}
  {base n : ℕ} {r : Shrink}

theorem Deleted.widen (h : Deleted ⟨m, n, []⟩ (base + fixed.length) n bs r)
    (hfixed : Holds m base fixed) :
    Deleted ⟨m, fixed.length + n, []⟩ base (fixed.length + n) (fixed ++ bs)
      { r with len := fixed.length + r.len } := by
  constructor
  · exact Holds.append (hfixed.congr fun i _ hlt => h.outside i (.inl hlt)) h.kept
  · rw [List.length_append]
    exact congrArg _ h.len
  · exact fun i hi => h.outside i (by omega)
  · intro a ha
    rcases h.touched a ha with hold | hzero | hinside
    · exact absurd hold List.not_mem_nil
    · exact .inr (.inl hzero)
    · refine .inr (.inr ?_)
      omega

theorem leads_reached (pre : List Element) {post : List Element} (h : Leads v.oui (encode post ++ rest))
    (hsmall : (encode (pre ++ post) ++ rest).length ≤ maxIeSz) :
    cutOff (encode pre).length = false := by
  have hroom := leads_length v.oui_length h
  rw [encode_append] at hsmall
  simp only [List.length_append] at hsmall hroom
  refine decide_eq_false ?_
  omega

theorem noStray_iff (hsmall : (encode ts ++ rest).length ≤ maxIeSz) :
    NoStray v ts rest ↔ NoLeads v ts rest := by
  constructor
  · intro h pre post hsplit hleads
    have hreached := leads_reached pre hleads (by rwa [← hsplit])
    have hlate := h (Nat.lt_of_le_of_lt hsmall (by decide)) pre post hsplit hleads
    exact Bool.false_ne_true (hreached.symm.trans hlate)
  · exact fun h _ pre post hsplit hleads => absurd hleads (h pre post hsplit)

theorem reached_small (hsmall : (encode ts ++ rest).length ≤ maxIeSz) : Reached v [] ts rest := by
  intro pre t post hsplit ht
  refine ⟨Nat.lt_of_le_of_lt hsmall (by decide), ?_⟩
  rw [List.nil_append]
  refine cutOff_mono (encode_filter_le v.keeps pre) ?_
  rw [hsplit] at hsmall
  exact leads_reached pre (leads_wanted ht) hsmall

theorem u32Sub_short {a c : ℕ} (h : a < c) (hc : c < 2 ^ 31) : asInt (u32Sub a c) < 0 := by
  have hwraps : u32Sub a c = a + 2 ^ 32 - c := if_neg (Nat.not_le.mpr h)
  rw [hwraps]
  exact asInt_large (by omega) (by omega)

theorem fixedIeOffset_le (reserved : UInt8) : fixedIeOffset reserved ≤ 12 := by
  rw [fixedIeOffset]
  split
  · exact Nat.zero_le _
  · exact Nat.le_refl _

theorem u32Sub_lt {a : ℕ} (h : a < 2 ^ 32) (c : ℕ) : u32Sub a c < 2 ^ 32 := by
  rw [u32Sub]
  split
  · omega
  · omega

theorem u32Sub_cancel {a c d : ℕ} (hc : c ≤ a) (ha : a < 2 ^ 32) (hd : d < 2 ^ 32) {k : ℕ}
    (hk : k ≤ c) : u32Sub a (u32Sub c d) = a - c + k ↔ d = k := by
  rw [u32Sub, u32Sub]
  split
  · split
    · omega
    · omega
  · split
    · omega
    · omega

theorem delIe_len_lt {ies : ℕ} {s : Shrink} (h : Ends (v.delIeLoop ies).loop s r)
    (hs : s.len < 2 ^ 32) : r.len < 2 ^ 32 := by
  refine @WhileLoop.Ends.invariant _ _ _ _ (fun t : Shrink => t.len < 2 ^ 32)
    (fun t : Shrink => t.len < 2 ^ 32) h hs ?_ ?_ ?_
  · exact fun _ ht _ => ht
  · intro t u ht _ hbody
    rcases Shrinker.settles_or_turns (x := v.delIeLoop ies) t with
      hsettles | hstuck | ⟨a, hlook, ha⟩
    · exact absurd (hbody.symm.trans (Shrinker.body_of_settles hsettles)) nofun
    · rw [hstuck] at hbody
      cases hbody
      exact ht
    · rw [Shrinker.body_of_hit hlook ha] at hbody
      cases hbody
      exact u32Sub_lt ht _
  · intro t u ht _ hbody
    obtain ⟨_, rfl⟩ := Shrinker.body_leave hbody
    exact ht

theorem delIe_ends {ies : ℕ} : (∃ fuel, v.delIe m ies n fuel = some r) ↔
    Ends (v.delIeLoop ies).loop ⟨m, n, []⟩ r := by
  cases v with
  | p2p => exact Iff.rfl
  | wfd => exact Iff.rfl

theorem noLeads_nil (v : Vendor) : NoLeads v [] [] := by
  intro pre post hsplit hleads
  rw [(List.append_eq_nil_iff.mp hsplit.symm).2] at hleads
  exact absurd hleads.1 nofun

def BssBuffer.tlv (b : BssBuffer v) : TlvBuffer where
  ies := b.ies + b.fixed.length
  elements := b.elements
  rest := b.rest
  stuck := b.stuck
  notNull := Nat.ne_of_gt (Nat.add_pos_left (Nat.pos_of_ne_zero b.notNull) _)
  u32 := by
    have hsmall := b.small
    rw [List.length_append] at hsmall
    exact Nat.lt_of_le_of_lt (Nat.le_of_add_left_le hsmall) (by decide)

theorem BssBuffer.length_short (b : BssBuffer v) (hshort : b.fixed.length < fixedIeOffset b.reserved)
    (hpieces : b.pieces = []) (hrest : b.rest = []) :
    b.bytes.length < fixedIeOffset b.reserved := by
  have hall : b.bytes = b.fixed := by
    rw [BssBuffer.bytes, BssBuffer.elements, hpieces, hrest]
    exact List.append_nil b.fixed
  rw [hall]
  exact hshort

theorem BssBuffer.length_eq (b : BssBuffer v) :
    b.bytes.length = b.fixed.length + b.tlv.bytes.length := List.length_append

theorem BssBuffer.tlvIesLen_eq (b : BssBuffer v) (m : Mem)
    (hfixed : b.fixed.length = fixedIeOffset b.reserved) :
    (b.bss m).tlvIesLen = b.tlv.bytes.length := by
  have hlen : (b.bss m).tlvIesLen = u32Sub b.bytes.length (fixedIeOffset b.reserved) := rfl
  rw [hlen, ← hfixed, b.length_eq, u32Sub_of_le (Nat.le_add_right _ _), Nat.add_sub_cancel_left]

theorem BssBuffer.targetIe_short (b : BssBuffer v) (m : Mem)
    (hshort : b.fixed.length < fixedIeOffset b.reserved) (hpieces : b.pieces = [])
    (hrest : b.rest = []) : v.targetIe m (b.bss m).tlvIes (b.bss m).tlvIesLen = none := by
  refine targetIe_none (Int.le_of_lt (u32Sub_short (b.length_short hshort hpieces hrest) ?_))
  exact Nat.lt_of_le_of_lt (fixedIeOffset_le _) (by decide)

theorem BssBuffer.ieLength_iff (b : BssBuffer v) (hr : r.len < 2 ^ 32) {k : ℕ}
    (hk : k ≤ b.tlv.bytes.length) :
    u32Sub b.bytes.length (u32Sub b.tlv.bytes.length r.len) = b.fixed.length + k ↔ r.len = k := by
  have hparts := b.length_eq
  have hbytes : b.bytes.length < 2 ^ 32 := Nat.lt_of_le_of_lt b.small (by decide)
  have hdiff : b.bytes.length - b.tlv.bytes.length = b.fixed.length := by omega
  rw [← hdiff]
  exact u32Sub_cancel (by omega) hbytes hr hk

theorem BssBuffer.kept_small (b : BssBuffer v) :
    (encode (b.elements.filter v.keeps) ++ b.rest).length ≤ maxIeSz := by
  have hle : _ ≤ b.tlv.bytes.length := b.tlv.kept_le v
  have hparts := b.length_eq
  have hsmall : b.bytes.length ≤ maxIeSz := b.small
  exact Nat.le_trans hle (by omega)

theorem BssDelIeLaw.noStray (hfixed : b.fixed.length = fixedIeOffset b.reserved)
    (h : BssDelIeLaw v m b) : NoStray v (b.elements.filter v.keeps) b.rest := by
  obtain ⟨fuel, r', hrun, hdeleted⟩ := h
  obtain ⟨r, hr, rfl⟩ := Option.map_eq_some_iff.mp hrun
  have hends := delIe_ends.mp ⟨fuel, hr⟩
  have hies : (b.bss m).tlvIes = b.tlv.ies := congrArg (b.ies + ·) hfixed.symm
  rw [hies, b.tlvIesLen_eq m hfixed] at hends
  have hlen := hdeleted.len
  rw [BssBuffer.withoutIes, List.length_append, b.tlvIesLen_eq m hfixed] at hlen
  have hkept := (b.ieLength_iff (delIe_len_lt hends b.tlv.u32) (b.tlv.kept_le v)).mp hlen
  have hnone := delIe_settled hends
  rw [hkept] at hnone
  refine (targetIe_quiet b.tlv.notNull b.stuck hdeleted.kept.right ?_).mp hnone
  exact Nat.lt_of_le_of_lt b.kept_small (by decide)

theorem bssDelIeLaw_of_noStray (hfixed : b.fixed.length = fixedIeOffset b.reserved)
    (h : Holds m b.ies b.bytes) (hstray : NoStray v (b.elements.filter v.keeps) b.rest) :
    BssDelIeLaw v m b := by
  have hsmall : b.bytes.length ≤ maxIeSz := b.small
  have hparts := b.length_eq
  have hies : (b.bss m).tlvIes = b.tlv.ies := congrArg (b.ies + ·) hfixed.symm
  have hwithin : b.tlv.bytes.length ≤ maxIeSz := by omega
  have hsafe : DelIeSafe v b.tlv := ⟨reached_small hwithin, hstray⟩
  obtain ⟨fuel, r, hr, hdeleted⟩ := (delIeLaw_iff v m b.tlv h.right).mpr hsafe
  have hle : r.len ≤ b.tlv.bytes.length :=
    Nat.le_trans (Nat.le_of_eq hdeleted.len) (b.tlv.kept_le v)
  have hlen := (b.ieLength_iff (Nat.lt_of_le_of_lt hle b.tlv.u32) hle).mpr rfl
  refine ⟨fuel, _, Option.map_eq_some_iff.mpr ⟨r, ?_, rfl⟩, ?_⟩
  · rw [hies, b.tlvIesLen_eq m hfixed]
    exact hr
  · have hwide := hdeleted.widen h.left
    have hieLength : (b.bss m).ieLength = b.bytes.length := rfl
    rw [← hparts] at hwide
    rw [b.tlvIesLen_eq m hfixed, hieLength, hlen]
    exact hwide

theorem bssDelIeLaw_short (hshort : b.fixed.length < fixedIeOffset b.reserved)
    (hpieces : b.pieces = []) (hrest : b.rest = []) (h : Holds m b.ies b.bytes) :
    BssDelIeLaw v m b := by
  have hnone := b.targetIe_short m hshort hpieces hrest
  have hempty : b.elements = [] := congrArg (List.map Piece.element) hpieces
  have hall : b.withoutIes = b.bytes := by
    rw [BssBuffer.withoutIes, BssBuffer.bytes, hempty, List.filter_nil]
  have hsame : u32Sub (b.bss m).ieLength (u32Sub (b.bss m).tlvIesLen (b.bss m).tlvIesLen) =
      b.bytes.length := by
    rw [u32Sub_of_le (Nat.le_refl _), Nat.sub_self, u32Sub_of_le (Nat.zero_le _)]
    rfl
  obtain ⟨fuel, hr⟩ := delIe_ends.mpr ((delIe_done (s := ⟨m, (b.bss m).tlvIesLen, []⟩) hnone).mpr rfl)
  refine ⟨fuel, ⟨m, b.bytes.length, []⟩, ?_, ?_⟩
  · exact Option.map_eq_some_iff.mpr ⟨_, hr, congrArg (fun len => Shrink.mk m len []) hsame⟩
  · rw [hall]
    exact (Region.start h rfl).deleted

theorem bssDelIeLaw_iff (v : Vendor) (m : Mem) (b : BssBuffer v) (h : Holds m b.ies b.bytes) :
    BssDelIeLaw v m b ↔ NoLeads v (b.elements.filter v.keeps) b.rest := by
  rcases b.layout with hfixed | ⟨hshort, hpieces, hrest⟩
  · rw [← noStray_iff b.kept_small]
    exact ⟨fun hlaw => hlaw.noStray hfixed, bssDelIeLaw_of_noStray hfixed h⟩
  · refine iff_of_true (bssDelIeLaw_short hshort hpieces hrest h) ?_
    have hempty : b.elements = [] := congrArg (List.map Piece.element) hpieces
    rw [hempty, hrest, List.filter_nil]
    exact noLeads_nil v

end DeleteIes

end Ie
