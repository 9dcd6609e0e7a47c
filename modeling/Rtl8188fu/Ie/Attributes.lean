import Mathlib.Algebra.Group.Nat.Defs
import Rtl8188fu.Lib.CursorWalk
import Rtl8188fu.Ie.Elements

namespace Ie

open CursorWalk

def be16 (m : Mem) (pos : ℕ) : ℕ := 256 * (m pos).toNat + (m (pos + 1)).toNat

def u16 (n : ℕ) : ℕ := n % 2 ^ 16

structure Attr where
  pos : ℕ
  len : ℕ
  deriving DecidableEq, Repr

def wpsOui : List UInt8 := [0x00, 0x50, 0xf2, 0x04]

def p2pOui : List UInt8 := [0x50, 0x6f, 0x9a, 0x09]

def wfdOui : List UInt8 := [0x50, 0x6f, 0x9a, 0x0a]

def wpsAttrSize (m : Mem) (wpsIe off : ℕ) : ℕ := be16 m (wpsIe + off + 2) + 4

def wpsAttrWalk (m : Mem) (wpsIe wpsIelen targetAttrId : ℕ) : Walk where
  inside off := decide (off < wpsIelen)
  found off := be16 m (wpsIe + off) == targetAttrId
  next off := off + u16 (wpsAttrSize m wpsIe off)

def rtwGetWpsAttr (m : Mem) (wpsIe wpsIelen targetAttrId fuel : ℕ) : Option (Option Attr) :=
  if m wpsIe ≠ eidVendorSpecific ∨ memcmp m (wpsIe + 2) wpsOui = false then some none
  else
    (run (wpsAttrWalk m wpsIe wpsIelen targetAttrId) fuel 6).map fun r =>
      r.map fun off => ⟨off, u16 (wpsAttrSize m wpsIe off)⟩

def attrSize (len16 : Mem → ℕ → ℕ) (m : Mem) (ie off : ℕ) : ℕ := len16 m (ie + off + 1) + 3

def attrWalk (len16 : Mem → ℕ → ℕ) (m : Mem) (ie ielen : ℕ) (targetAttrId : UInt8) : Walk where
  inside off := decide (off + 3 ≤ ielen ∧ off + u16 (attrSize len16 m ie off) ≤ ielen)
  found off := m (ie + off) == targetAttrId
  next off := off + u16 (attrSize len16 m ie off)

def getAttr (len16 : Mem → ℕ → ℕ) (oui : List UInt8) (m : Mem) (ie ielen : ℕ)
    (targetAttrId : UInt8) (fuel : ℕ) : Option (Option Attr) :=
  if ie = 0 ∨ ielen ≤ 6 ∨ m ie ≠ eidVendorSpecific ∨ memcmp m (ie + 2) oui = false then some none
  else
    (run (attrWalk len16 m ie ielen targetAttrId) fuel 6).map fun r =>
      r.map fun off => ⟨off, u16 (attrSize len16 m ie off)⟩

def rtwGetP2pAttr : Mem → ℕ → ℕ → UInt8 → ℕ → Option (Option Attr) := getAttr le16 p2pOui

def rtwGetWfdAttr : Mem → ℕ → ℕ → UInt8 → ℕ → Option (Option Attr) := getAttr be16 wfdOui

def EndsContained (get : ℕ → Option (Option Attr)) (size : ℕ → ℕ) (ielen : ℕ) : Prop :=
  ∃ fuel r, get fuel = some r ∧ ∀ a ∈ r, a.pos + size a.pos ≤ ielen

def StepsContained (w : Walk) (size : ℕ → ℕ) (ielen : ℕ) : Prop :=
  ∀ off, Visits w 6 off →
    (w.found off = true → off + size off ≤ ielen) ∧ (w.found off = false → u16 (size off) ≠ 0)

section Walks

variable {w : Walk} {size : ℕ → ℕ} {ielen : ℕ}

theorem endsContained_rejected {get : ℕ → Option (Option Attr)} (h : ∀ fuel, get fuel = some none) :
    EndsContained get size ielen :=
  ⟨0, none, h 0, nofun⟩

theorem endsContained_iff (w : Walk) (size : ℕ → ℕ) (ielen : ℕ) (hinside : ∀ off, w.inside off = true → off < ielen)
    (hnext : ∀ off, w.next off = off + u16 (size off)) :
    EndsContained (fun fuel => (run w fuel 6).map fun r => r.map fun off => ⟨off, u16 (size off)⟩)
      size ielen ↔ StepsContained w size ielen := by
  have hfin := finishes_iff (w := w) (i := 6) hinside fun off => by
    rw [hnext]
    exact Nat.le_add_right _ _
  constructor
  · rintro ⟨fuel, r, hget, hr⟩ off hoff
    obtain ⟨s, hrun, rfl⟩ := Option.map_eq_some_iff.mp hget
    refine ⟨fun hfound => ?_, fun hmiss hzero => ?_⟩
    · have hs : s = some off := Finishes.unique ⟨fuel, hrun⟩ (hoff.found_finishes hfound)
      rw [hs] at hr
      exact hr ⟨off, u16 (size off)⟩ rfl
    · refine hfin.mp ⟨s, fuel, hrun⟩ off hoff hmiss ?_
      rw [hnext, hzero, Nat.add_zero]
  · intro h
    obtain ⟨s, fuel, hrun⟩ := hfin.mpr fun off hoff hmiss hstall => by
      rw [hnext] at hstall
      exact (h off hoff).2 hmiss (by omega)
    refine ⟨fuel, _, congrArg _ hrun, ?_⟩
    intro a ha
    obtain ⟨off, rfl, rfl⟩ := Option.map_eq_some_iff.mp ha
    obtain ⟨hoff, hfound⟩ := run_some hrun
    exact (h off hoff).1 hfound

end Walks

def WpsAttrLaw (m : Mem) (wpsIe wpsIelen targetAttrId : ℕ) : Prop :=
  EndsContained (rtwGetWpsAttr m wpsIe wpsIelen targetAttrId) (wpsAttrSize m wpsIe) wpsIelen

def AttrLaw (len16 : Mem → ℕ → ℕ) (oui : List UInt8) (m : Mem) (ie ielen : ℕ)
    (targetAttrId : UInt8) : Prop :=
  EndsContained (getAttr len16 oui m ie ielen targetAttrId) (attrSize len16 m ie) ielen

structure WpsHeader (m : Mem) (wpsIe : ℕ) : Prop where
  id : m wpsIe = eidVendorSpecific
  oui : memcmp m (wpsIe + 2) wpsOui = true

structure AttrHeader (oui : List UInt8) (m : Mem) (ie ielen : ℕ) : Prop where
  notNull : ie ≠ 0
  long : 6 < ielen
  id : m ie = eidVendorSpecific
  oui : memcmp m (ie + 2) oui = true

theorem wpsAttrLaw_iff (m : Mem) (wpsIe wpsIelen targetAttrId : ℕ) :
    WpsAttrLaw m wpsIe wpsIelen targetAttrId ↔
      (WpsHeader m wpsIe → StepsContained (wpsAttrWalk m wpsIe wpsIelen targetAttrId)
        (wpsAttrSize m wpsIe) wpsIelen) := by
  have hsteps := endsContained_iff (wpsAttrWalk m wpsIe wpsIelen targetAttrId)
    (wpsAttrSize m wpsIe) wpsIelen (fun _ => of_decide_eq_true) fun _ => rfl
  cases Decidable.em (m wpsIe ≠ eidVendorSpecific ∨ memcmp m (wpsIe + 2) wpsOui = false) with
  | inl hbad =>
    refine iff_of_true (endsContained_rejected fun fuel => if_pos hbad) fun hheader => ?_
    rcases hbad with hid | houi
    · exact absurd hheader.id hid
    · exact absurd (hheader.oui.symm.trans houi) nofun
  | inr hgood =>
    have hheader : WpsHeader m wpsIe :=
      ⟨by_contra fun hid => hgood (.inl hid),
        eq_true_of_ne_false fun houi => hgood (.inr houi)⟩
    rw [forall_prop_of_true hheader, ← hsteps, WpsAttrLaw]
    refine iff_of_eq (congrArg (EndsContained · _ _) (funext fun fuel => ?_))
    rw [rtwGetWpsAttr, if_neg hgood]

theorem attrLaw_iff (len16 : Mem → ℕ → ℕ) (oui : List UInt8) (m : Mem) (ie ielen : ℕ)
    (targetAttrId : UInt8) : AttrLaw len16 oui m ie ielen targetAttrId ↔
      (AttrHeader oui m ie ielen → StepsContained (attrWalk len16 m ie ielen targetAttrId)
        (attrSize len16 m ie) ielen) := by
  have hsteps := endsContained_iff (attrWalk len16 m ie ielen targetAttrId)
    (attrSize len16 m ie) ielen (fun off h => by
      have hin := (of_decide_eq_true h).1
      omega) fun _ => rfl
  cases Decidable.em (ie = 0 ∨ ielen ≤ 6 ∨ m ie ≠ eidVendorSpecific ∨
      memcmp m (ie + 2) oui = false) with
  | inl hbad =>
    refine iff_of_true (endsContained_rejected fun fuel => if_pos hbad) fun hheader => ?_
    rcases hbad with hnull | hshort | hid | houi
    · exact absurd hnull hheader.notNull
    · exact absurd hshort (Nat.not_le.mpr hheader.long)
    · exact absurd hheader.id hid
    · exact absurd (hheader.oui.symm.trans houi) nofun
  | inr hgood =>
    have hheader : AttrHeader oui m ie ielen := by
      constructor
      · exact fun hnull => hgood (.inl hnull)
      · exact Nat.not_le.mp fun hshort => hgood (.inr (.inl hshort))
      · exact by_contra fun hid => hgood (.inr (.inr (.inl hid)))
      · exact eq_true_of_ne_false fun houi => hgood (.inr (.inr (.inr houi)))
    rw [forall_prop_of_true hheader, ← hsteps, AttrLaw]
    refine iff_of_eq (congrArg (EndsContained · _ _) (funext fun fuel => ?_))
    rw [getAttr, if_neg hgood]

def P2pAttrLaw : Mem → ℕ → ℕ → UInt8 → Prop := AttrLaw le16 p2pOui

def WfdAttrLaw : Mem → ℕ → ℕ → UInt8 → Prop := AttrLaw be16 wfdOui

theorem attr_walkers_end_iff (m : Mem) (ie ielen : ℕ) :
    (∀ targetAttrId : ℕ, WpsAttrLaw m ie ielen targetAttrId ↔
      (WpsHeader m ie →
        StepsContained (wpsAttrWalk m ie ielen targetAttrId) (wpsAttrSize m ie) ielen)) ∧
    (∀ targetAttrId : UInt8, P2pAttrLaw m ie ielen targetAttrId ↔
      (AttrHeader p2pOui m ie ielen →
        StepsContained (attrWalk le16 m ie ielen targetAttrId) (attrSize le16 m ie) ielen)) ∧
    (∀ targetAttrId : UInt8, WfdAttrLaw m ie ielen targetAttrId ↔
      (AttrHeader wfdOui m ie ielen →
        StepsContained (attrWalk be16 m ie ielen targetAttrId) (attrSize be16 m ie) ielen)) := by
  refine ⟨fun target => ?_, fun target => ?_, fun target => ?_⟩
  · exact wpsAttrLaw_iff m ie ielen target
  · exact attrLaw_iff le16 p2pOui m ie ielen target
  · exact attrLaw_iff be16 wfdOui m ie ielen target

def memOf (bs : List UInt8) (base : ℕ) : Mem := fun i => if base ≤ i then bs.getD (i - base) 0 else 0

def wrappedWps : Mem := memOf ([221, 8] ++ wpsOui ++ [0x10, 0x01, 0xff, 0xfc]) 0x1000

def wrappedP2p : Mem := memOf ([221, 7] ++ p2pOui ++ [1, 0xfd, 0xff]) 0x1000

def wrappedWfd : Mem := memOf ([221, 7] ++ wfdOui ++ [1, 0xff, 0xfd]) 0x1000

theorem wrapped_step_stalls :
    ¬ WpsAttrLaw wrappedWps 0x1000 10 0x104a ∧ ¬ P2pAttrLaw wrappedP2p 0x1000 9 2 ∧
      ¬ WfdAttrLaw wrappedWfd 0x1000 9 2 := by
  refine ⟨fun h => ?_, fun h => ?_, fun h => ?_⟩
  · have hsteps := (wpsAttrLaw_iff ..).mp h ⟨by decide, by decide⟩
    exact (hsteps 6 (.here (by decide))).2 (by decide) (by decide)
  · have hsteps := (attrLaw_iff ..).mp h ⟨by decide, by decide, by decide, by decide⟩
    exact (hsteps 6 (.here (by decide))).2 (by decide) (by decide)
  · have hsteps := (attrLaw_iff ..).mp h ⟨by decide, by decide, by decide, by decide⟩
    exact (hsteps 6 (.here (by decide))).2 (by decide) (by decide)

end Ie
