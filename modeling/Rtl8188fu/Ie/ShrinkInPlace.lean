import Rtl8188fu.Lib.WhileLoop
import Rtl8188fu.Ie.RemoveIe

namespace Ie

open ByteMemory
open WhileLoop (Loop Turn Ends)

structure Span where
  addr : ℕ
  count : ℕ
  deriving DecidableEq, Repr

def Span.Within (base n : ℕ) (a : Span) : Prop :=
  a.count = 0 ∨ base ≤ a.addr ∧ a.addr + a.count ≤ base + n

structure Shrink where
  mem : Mem
  len : ℕ
  touched : List Span

def closeGap (s : Shrink) (target next remainLen : ℕ) : Shrink :=
  let moved := write s.mem target (read s.mem next remainLen)
  { mem := write moved (target + remainLen) (List.replicate (next - target) 0)
    len := u32Sub s.len (next - target)
    touched := s.touched ++
      [⟨next, remainLen⟩, ⟨target, remainLen⟩, ⟨target + remainLen, next - target⟩] }

structure Shrinker where
  base : ℕ
  look : Mem → ℕ → Option (Option Attr)
  adjust : ℕ → Shrink → Shrink

namespace Shrinker

variable (x : Shrinker)

def erase (s : Shrink) (a : Attr) : Shrink :=
  let target := x.base + a.pos
  let next := target + a.len
  x.adjust a.len (closeGap s target next (u32Sub s.len (next - x.base)))

def loop : Loop Shrink where
  guard _ := true
  body s :=
    match x.look s.mem s.len with
    | none => .again s
    | some none => .leave s
    | some (some a) => if a.len = 0 then .leave s else .again (x.erase s a)

def Settles (m : Mem) (len : ℕ) : Prop := ∃ r, x.look m len = some r ∧ ∀ a ∈ r, a.len = 0

variable {x} {s r : Shrink} {a : Attr}

theorem body_of_settles (h : x.Settles s.mem s.len) : x.loop.body s = .leave s := by
  obtain ⟨found, hlook, hzero⟩ := h
  cases found with
  | none => simp only [loop, hlook]
  | some a => simp only [loop, hlook, if_pos (hzero a rfl)]

theorem ends_of_settles (h : x.Settles s.mem s.len) : Ends x.loop s r ↔ r = s :=
  WhileLoop.ends_leave_iff rfl (body_of_settles h)

theorem body_of_hit (h : x.look s.mem s.len = some (some a)) (ha : a.len ≠ 0) :
    x.loop.body s = .again (x.erase s a) := by
  simp only [loop, h, if_neg ha]

theorem ends_of_hit (h : x.look s.mem s.len = some (some a)) (ha : a.len ≠ 0) :
    Ends x.loop s r ↔ Ends x.loop (x.erase s a) r :=
  WhileLoop.ends_again_iff rfl (body_of_hit h ha)

theorem settles_or_turns (s : Shrink) : x.Settles s.mem s.len ∨ x.loop.body s = .again s ∨
    ∃ a, x.look s.mem s.len = some (some a) ∧ a.len ≠ 0 := by
  cases hlook : x.look s.mem s.len with
  | none =>
    refine .inr (.inl ?_)
    simp only [loop, hlook]
  | some found =>
    cases found with
    | none => exact .inl ⟨none, hlook, nofun⟩
    | some a =>
      cases Decidable.em (a.len = 0) with
      | inl hzero =>
        refine .inl ⟨some a, hlook, fun b hb => ?_⟩
        cases hb
        exact hzero
      | inr hpos => exact .inr (.inr ⟨a, rfl, hpos⟩)

theorem settles_or_hit (h : Ends x.loop s r) :
    x.Settles s.mem s.len ∨ ∃ a, x.look s.mem s.len = some (some a) ∧ a.len ≠ 0 := by
  rcases settles_or_turns (x := x) s with hsettles | hstuck | hhit
  · exact .inl hsettles
  · exact absurd h (WhileLoop.not_ends_of_stuck rfl hstuck)
  · exact .inr hhit

theorem body_leave {t : Shrink} (h : x.loop.body s = .leave t) : x.Settles s.mem s.len ∧ t = s := by
  rcases settles_or_turns (x := x) s with hsettles | hstuck | ⟨a, hlook, ha⟩
  · have hends : Ends x.loop s t := WhileLoop.ends_leave rfl h
    exact ⟨hsettles, (ends_of_settles hsettles).mp hends⟩
  · exact absurd (h.symm.trans hstuck) nofun
  · exact absurd (h.symm.trans (body_of_hit hlook ha)) nofun

theorem ends_settled (h : Ends x.loop s r) : x.Settles r.mem r.len := by
  refine @WhileLoop.Ends.invariant _ _ _ _ (fun _ => True) (fun t => x.Settles t.mem t.len) h trivial
    ?_ ?_ ?_
  · exact fun _ _ hguard => absurd hguard Bool.noConfusion
  · exact fun _ _ _ _ _ => trivial
  · intro s t _ _ hbody
    obtain ⟨hsettles, rfl⟩ := body_leave hbody
    exact hsettles

end Shrinker

structure Region (s₀ : Shrink) (base n : ℕ) (bs : List UInt8) (s : Shrink) : Prop where
  holds : Holds s.mem base (bs ++ List.replicate (n - bs.length) 0)
  len : s.len = bs.length
  fits : bs.length ≤ n
  outside : ∀ i, i < base ∨ base + n ≤ i → s.mem i = s₀.mem i
  touched : ∀ a ∈ s.touched, a ∈ s₀.touched ∨ a.Within base n

structure Deleted (s₀ : Shrink) (base n : ℕ) (bs : List UInt8) (s : Shrink) : Prop where
  kept : Holds s.mem base bs
  len : s.len = bs.length
  outside : ∀ i, i < base ∨ base + n ≤ i → s.mem i = s₀.mem i
  touched : ∀ a ∈ s.touched, a ∈ s₀.touched ∨ a.Within base n

namespace Region

variable {s₀ s : Shrink} {base n : ℕ} {bs xs ys zs : List UInt8}

theorem start (h : Holds s.mem base bs) (hlen : s.len = bs.length) :
    Region s base bs.length bs s := by
  refine ⟨?_, hlen, Nat.le_refl _, fun _ _ => rfl, fun _ => .inl⟩
  rw [Nat.sub_self, List.replicate_zero, List.append_nil]
  exact h

theorem bytes (h : Region s₀ base n bs s) : Holds s.mem base bs := h.holds.left

theorem deleted (h : Region s₀ base n bs s) : Deleted s₀ base n bs s :=
  ⟨h.bytes, h.len, h.outside, h.touched⟩

theorem closeGap (h : Region s₀ base n (xs ++ (ys ++ zs)) s) :
    Region s₀ base n (xs ++ zs)
      (closeGap s (base + xs.length) (base + xs.length + ys.length) zs.length) := by
  have hsize : s.len = xs.length + (ys.length + zs.length) := by
    rw [h.len, List.length_append, List.length_append]
  have hfits : xs.length + (ys.length + zs.length) ≤ n := by
    have hle := h.fits
    rwa [List.length_append, List.length_append] at hle
  have hgap : base + xs.length + ys.length - (base + xs.length) = ys.length :=
    Nat.add_sub_cancel_left _ _
  have hmoved : read s.mem (base + xs.length + ys.length) zs.length = zs :=
    h.bytes.right.right.read
  have hxs : Holds s.mem base xs := h.bytes.left
  have hfree : Holds s.mem (base + (xs ++ (ys ++ zs)).length)
      (List.replicate (n - (xs ++ (ys ++ zs)).length) 0) := h.holds.right
  have hzeros : List.replicate (n - (xs ++ zs).length) (0 : UInt8) =
      List.replicate ys.length 0 ++ List.replicate (n - (xs ++ (ys ++ zs)).length) 0 := by
    rw [← List.replicate_add]
    refine congrArg (List.replicate · 0) ?_
    simp only [List.length_append]
    omega
  constructor
  · rw [hzeros, ← List.append_assoc]
    simp only [Ie.closeGap, hgap, hmoved]
    have hkept : Holds (write (write s.mem (base + xs.length) zs) (base + xs.length + zs.length)
        (List.replicate ys.length 0)) base ((xs ++ zs) ++ List.replicate ys.length 0) :=
      (hxs.write_end rfl).write_end (by rw [List.length_append, Nat.add_assoc])
    refine hkept.append ?_
    have hend : base + (xs ++ zs ++ List.replicate ys.length (0 : UInt8)).length =
        base + (xs ++ (ys ++ zs)).length := by
      simp only [List.length_append, List.length_replicate]
      omega
    rw [hend]
    refine (hfree.write_before ?_).write_before ?_
    · simp only [List.length_append]
      omega
    · simp only [List.length_append, List.length_replicate]
      omega
  · simp only [Ie.closeGap, hgap, hsize, List.length_append]
    rw [u32Sub_of_le (by omega)]
    omega
  · rw [List.length_append]
    omega
  · intro i hi
    rw [← h.outside i hi]
    simp only [Ie.closeGap, hgap, hmoved]
    rcases hi with hlt | hge
    · rw [write_below _ _ (by omega), write_below _ _ (by omega)]
    · rw [write_above _ (by rw [List.length_replicate]; omega), write_above _ (by omega)]
  · intro a ha
    rcases List.mem_append.mp ha with hold | hnew
    · exact h.touched a hold
    · refine .inr (.inr ?_)
      rw [hgap] at hnew
      simp only [List.mem_cons, List.not_mem_nil, or_false] at hnew
      rcases hnew with rfl | rfl | rfl
      · dsimp only
        omega
      · dsimp only
        omega
      · dsimp only
        omega

theorem modify (h : Region s₀ base n bs s) {i : ℕ} (hi : i < bs.length) (f : UInt8 → UInt8) :
    Region s₀ base n (bs.set i (f bs[i]))
      { s with
        mem := ByteMemory.modify s.mem (base + i) f
        touched := s.touched ++ [⟨base + i, 1⟩] } := by
  have hfits := h.fits
  constructor
  · have hpadded : i < (bs ++ List.replicate (n - bs.length) 0).length := by
      rw [List.length_append]
      exact Nat.lt_add_right _ hi
    have hset := h.holds.modify_within hpadded f
    rwa [List.getElem_append_left hi, List.set_append_left _ _ hi, ← List.length_set] at hset
  · rw [List.length_set]
    exact h.len
  · rw [List.length_set]
    exact hfits
  · intro j hj
    rw [← h.outside j hj]
    exact modify_ne _ _ (by omega)
  · intro a ha
    rcases List.mem_append.mp ha with hold | hnew
    · exact h.touched a hold
    · obtain rfl := List.mem_singleton.mp hnew
      refine .inr (.inr ?_)
      dsimp only
      omega

theorem replace {ws : List UInt8} {k : ℕ} {r : Shrink} (h : Region s₀ base n (xs ++ (ys ++ zs)) s)
    (hr : Region ⟨s.mem, k, []⟩ (base + xs.length) ys.length ws r) :
    Region s₀ base n (xs ++ (ws ++ (List.replicate (ys.length - ws.length) 0 ++ zs)))
      ⟨r.mem, s.len, s.touched ++ r.touched⟩ := by
  have hle := hr.fits
  have hsize : (xs ++ (ws ++ (List.replicate (ys.length - ws.length) 0 ++ zs))).length =
      (xs ++ (ys ++ zs)).length := by
    simp only [List.length_append, List.length_replicate]
    omega
  have hfits := h.fits
  have hlater : Holds s.mem (base + xs.length + ys.length)
      (zs ++ List.replicate (n - (xs ++ (ys ++ zs)).length) 0) := by
    have hholds := h.holds
    rw [List.append_assoc, List.append_assoc] at hholds
    exact hholds.right.right
  constructor
  · rw [hsize, List.append_assoc, List.append_assoc, List.append_assoc, ← List.append_assoc ws]
    have hfront : Holds r.mem base xs := h.bytes.left.congr fun i _ hlt => hr.outside i (.inl hlt)
    refine hfront.append (hr.holds.append ?_)
    rw [List.length_append, List.length_replicate, Nat.add_sub_cancel' hle]
    exact hlater.congr fun i hge _ => hr.outside i (.inr hge)
  · rw [hsize]
    exact h.len
  · rw [hsize]
    exact hfits
  · simp only [List.length_append] at hfits
    intro i hi
    exact (hr.outside i (by omega)).trans (h.outside i hi)
  · simp only [List.length_append] at hfits
    intro a ha
    rcases List.mem_append.mp ha with hold | hnew
    · exact h.touched a hold
    · rcases hr.touched a hnew with hnone | hzero | hinside
      · exact absurd hnone List.not_mem_nil
      · exact .inr (.inl hzero)
      · refine .inr (.inr ?_)
        omega

theorem mem_eq (h : Region s₀ base n bs s) :
    s.mem = write s₀.mem base (bs ++ List.replicate (n - bs.length) 0) := by
  have hsize : (bs ++ List.replicate (n - bs.length) (0 : UInt8)).length = n := by
    rw [List.length_append, List.length_replicate]
    exact Nat.add_sub_cancel' h.fits
  funext i
  cases Nat.lt_or_ge i base with
  | inl hlt => rw [write_below _ _ hlt, h.outside i (.inl hlt)]
  | inr hge =>
    cases Nat.lt_or_ge i (base + n) with
    | inr hpast => rw [write_above _ (by omega), h.outside i (.inr hpast)]
    | inl hinside =>
      obtain ⟨j, rfl⟩ := Nat.exists_eq_add_of_le hge
      have hj : j < (bs ++ List.replicate (n - bs.length) (0 : UInt8)).length := by omega
      rw [write_inside _ hj, h.holds j hj]

theorem erase {x : Shrinker} (hbase : x.base = base)
    (hadjust : ∀ t, Region s₀ base n (xs ++ zs) t → Region s₀ base n bs (x.adjust ys.length t))
    (h : Region s₀ base n (xs ++ (ys ++ zs)) s) :
    Region s₀ base n bs (x.erase s ⟨xs.length, ys.length⟩) := by
  have hremain : u32Sub s.len (base + xs.length + ys.length - base) = zs.length := by
    rw [h.len, List.length_append, List.length_append, u32Sub_of_le (by omega)]
    omega
  simp only [Shrinker.erase, hbase, hremain]
  exact hadjust _ h.closeGap

end Region

end Ie
