import Rtl8188fu.Lib.CursorWalk
import Rtl8188fu.Lib.Tlv

namespace Tlv

open ByteMemory CursorWalk

def nextElement (m : Mem UInt8) (base off : ℕ) : ℕ := off + ((m (base + off + 1)).toNat + 2)

variable {m : Mem UInt8} {base o j : ℕ} {w : Walk} {ts pre post : List Element} {t : Element}

theorem lt_nextElement (m : Mem UInt8) (base off : ℕ) : off < nextElement m base off := by
  simp only [nextElement]
  omega

theorem nextElement_encoded {rest : List UInt8} (h : Holds m (base + o) (t.bytes ++ rest)) :
    nextElement m base o = o + t.bytes.length := by
  rw [nextElement, holds_len h, Element.length_bytes]

theorem visits_or_found (hnext : ∀ i, w.next i = nextElement m base i)
    (h : Holds m (base + o) (encode (pre ++ t :: post)))
    (hin : ∀ i, i ≤ o + (encode pre).length → w.inside i = true) :
    (∃ i, Visits w o i ∧ w.found i = true ∧ i < o + (encode pre).length) ∨
      Visits w o (o + (encode pre).length) := by
  induction pre generalizing o with
  | nil => exact .inr (.here (hin o (Nat.le_refl o)))
  | cons u pre ih =>
    rw [encode_cons, List.length_append] at hin ⊢
    rw [List.cons_append, encode_cons] at h
    have hinside := hin o (Nat.le_add_right _ _)
    cases hfound : w.found o with
    | true =>
      have hpos : 0 < u.bytes.length := by
        rw [Element.length_bytes]
        exact Nat.succ_pos _
      exact .inl ⟨o, .here hinside, hfound, by omega⟩
    | false =>
      have hstep : w.next o = o + u.bytes.length := (hnext o).trans (nextElement_encoded h)
      have hrest : Holds m (base + (o + u.bytes.length)) (encode (pre ++ t :: post)) := by
        have hright := h.right
        rwa [Nat.add_assoc] at hright
      rcases ih hrest fun i hi => hin i (by omega) with ⟨i, hi, hifound, hlt⟩ | hvisits
      · refine .inl ⟨i, .later hinside hfound ?_, hifound, by omega⟩
        rw [hstep]
        exact hi
      · refine .inr (.later hinside hfound ?_)
        rw [hstep, ← Nat.add_assoc]
        exact hvisits

theorem visits_past (hnext : ∀ i, w.next i = nextElement m base i)
    (h : Holds m (base + o) (encode (pre ++ t :: post)))
    (hin : ∀ i, i ≤ o + (encode pre).length → w.inside i = true)
    (hmiss : ∀ us u vs, pre = us ++ u :: vs → w.found (o + (encode us).length) = false) :
    Visits w o (o + (encode pre).length) := by
  induction pre generalizing o with
  | nil => exact .here (hin o (Nat.le_refl o))
  | cons u pre ih =>
    rw [encode_cons, List.length_append] at hin ⊢
    rw [List.cons_append, encode_cons] at h
    have hstep : w.next o = o + u.bytes.length := (hnext o).trans (nextElement_encoded h)
    have hrest : Holds m (base + (o + u.bytes.length)) (encode (pre ++ t :: post)) := by
      have hright := h.right
      rwa [Nat.add_assoc] at hright
    refine .later (hin o (Nat.le_add_right _ _)) (hmiss [] u pre rfl) ?_
    rw [hstep, ← Nat.add_assoc]
    refine ih hrest (fun i hi => hin i (by omega)) fun us v vs hsplit => ?_
    have hlater := hmiss (u :: us) v vs (congrArg _ hsplit)
    rwa [encode_cons, List.length_append, ← Nat.add_assoc] at hlater

theorem visits_element (hnext : ∀ i, w.next i = nextElement m base i)
    (hin : ∀ i, w.inside i = true → i < o + (encode ts).length)
    (h : Holds m (base + o) (encode ts)) (hvisits : Visits w o j) :
    ∃ pre t post, ts = pre ++ t :: post ∧ j = o + (encode pre).length := by
  induction ts generalizing o with
  | nil =>
    have hout {i : ℕ} (hi : w.inside i = true) : i < o := hin i hi
    cases hvisits with
    | here hi => exact absurd (hout hi) (Nat.lt_irrefl _)
    | later hi _ _ => exact absurd (hout hi) (Nat.lt_irrefl _)
  | cons u ts ih =>
    rw [encode_cons] at h hin
    cases hvisits with
    | here _ => exact ⟨[], u, ts, rfl, rfl⟩
    | later hi _ hlater =>
      rw [hnext, nextElement_encoded h] at hlater
      have hrest : Holds m (base + (o + u.bytes.length)) (encode ts) := by
        have hright := h.right
        rwa [Nat.add_assoc] at hright
      obtain ⟨pre, t, post, rfl, rfl⟩ := ih (fun i hi => by
        have hlt := hin i hi
        rw [List.length_append] at hlt
        omega) hrest hlater
      refine ⟨u :: pre, t, post, rfl, ?_⟩
      rw [encode_cons, List.length_append, Nat.add_assoc]

def positions : ℕ → List Element → List ℕ
  | _, [] => []
  | o, t :: ts => o :: positions (o + t.bytes.length) ts

theorem visited_encoded {limit : ℕ} (hadvances : Advances w limit)
    (hnext : ∀ i, w.next i = nextElement m base i) (hfound : ∀ i, w.found i = false)
    (hin : ∀ i, w.inside i = decide (i < limit)) (h : Holds m (base + o) (encode ts))
    (hlimit : o + (encode ts).length = limit) : visited w limit o = positions o ts := by
  induction ts generalizing o with
  | nil =>
    refine visited_nil ((hin o).trans (decide_eq_false ?_))
    rw [← hlimit]
    exact Nat.lt_irrefl _
  | cons t ts ih =>
    rw [encode_cons, List.length_append, ← Nat.add_assoc] at hlimit
    have hpos : 0 < t.bytes.length := Nat.succ_pos _
    have hhere : w.inside o = true := (hin o).trans (decide_eq_true (by omega))
    rw [encode_cons] at h
    have hrest : Holds m (base + (o + t.bytes.length)) (encode ts) := by
      have hright := h.right
      rwa [Nat.add_assoc] at hright
    rw [hadvances.visited_cons hhere (hfound o), hnext, nextElement_encoded h, ih hrest hlimit]
    rfl

end Tlv

namespace Tlv

open ByteMemory CursorWalk

inductive Sought where
  | miss
  | lone
  | hit (len : ℕ) (after : List UInt8)
deriving DecidableEq

def seek (id : UInt8) : List UInt8 → Sought
  | [] => .miss
  | [_] => .lone
  | x :: n :: xs => if x = id then .hit n.toNat xs else seek id (xs.drop n.toNat)
termination_by bs => bs.length
decreasing_by
  simp only [List.length_drop, List.length_cons]
  omega

def Sought.Leads (atMiss : Prop) (atHit : ℕ → List UInt8 → Prop) : Sought → Prop
  | miss => atMiss
  | lone => False
  | hit len after => atHit len after

def Sought.whole : Sought → Option (List UInt8)
  | miss => none
  | lone => none
  | hit len after => if len ≤ after.length then some (after.take len) else none

def Sought.byte : Sought → Option UInt8
  | miss => none
  | lone => none
  | hit len after => if len = 0 then none else after.head?

def first (id : UInt8) (bs : List UInt8) : Option (List UInt8) := (seek id bs).whole

variable {id x n : UInt8} {xs bs : List UInt8}

theorem leads_const {s : Sought} {A : Prop} : (s.Leads A fun _ _ => A) ↔ s ≠ .lone ∧ A := by
  cases s with
  | miss => exact (and_iff_right nofun).symm
  | lone => exact iff_of_false (fun h => h) fun h => h.1 rfl
  | hit len after => exact (and_iff_right nofun).symm

theorem seek_cases (id : UInt8) : seek id [] = .miss ∧ (∀ x, seek id [x] = .lone) ∧
    ∀ x n xs, seek id (x :: n :: xs) =
      if x = id then .hit n.toNat xs else seek id (xs.drop n.toNat) := by
  refine ⟨?_, fun x => ?_, fun x n xs => ?_⟩
  · rw [seek]
  · rw [seek]
  · rw [seek]

theorem seek_nil : seek id [] = .miss := (seek_cases id).1

theorem seek_singleton : seek id [x] = .lone := (seek_cases id).2.1 x

theorem seek_hit : seek id (id :: n :: xs) = .hit n.toNat xs := by
  rw [(seek_cases id).2.2, if_pos rfl]

theorem seek_pass (h : x ≠ id) : seek id (x :: n :: xs) = seek id (xs.drop n.toNat) := by
  rw [(seek_cases id).2.2, if_neg h]

section InMemory

variable {m : Mem UInt8} {w : Walk} {base limit o : ℕ}

def Answered (m : Mem UInt8) (base limit : ℕ) (w : Walk) (o : ℕ) : Sought → Prop
  | .miss => find w limit o = none ∧ ∀ j, Visits w o j → j + 1 < limit
  | .lone => ∃ j, Visits w o j ∧ limit ≤ j + 1
  | .hit len after => ∃ i, find w limit o = some i ∧ i + 2 + after.length = limit ∧
      (m (base + i + 1)).toNat = len ∧ Holds m (base + i + 2) after ∧
      ∀ j, Visits w o j → j + 1 < limit

theorem Answered.later {s : Sought} (hadv : Advances w limit) (hin : w.inside o = true)
    (hfound : w.found o = false) (hroom : o + 1 < limit)
    (h : Answered m base limit w (w.next o) s) : Answered m base limit w o s := by
  have hall (hlater : ∀ j, Visits w (w.next o) j → j + 1 < limit) :
      ∀ j, Visits w o j → j + 1 < limit :=
    (forall_visits hin).mpr ⟨hroom, fun _ => hlater⟩
  cases s with
  | miss => exact ⟨(hadv.find_next hin hfound).trans h.1, hall h.2⟩
  | lone =>
    obtain ⟨j, hj, hpast⟩ := h
    exact ⟨j, .later hin hfound hj, hpast⟩
  | hit len after =>
    obtain ⟨i, hi, hsize, hlen, hafter, hlater⟩ := h
    exact ⟨i, (hadv.find_next hin hfound).trans hi, hsize, hlen, hafter, hall hlater⟩

theorem answered_seek (hadv : Advances w limit) (hinside : ∀ i, w.inside i = decide (i < limit))
    (hfound : ∀ i, w.found i = decide (m (base + i) = id))
    (hnext : ∀ i, w.next i = nextElement m base i)
    (h : Holds m (base + o) bs) (hsize : o + bs.length = limit ∨ bs = [] ∧ limit ≤ o) :
    Answered m base limit w o (seek id bs) := by
  have hopen {o : ℕ} (x n : UInt8) (xs : List UInt8)
      (hsize : o + (x :: n :: xs).length = limit ∨ x :: n :: xs = [] ∧ limit ≤ o) :
      w.inside o = true ∧ o + 2 + xs.length = limit := by
    obtain hend | ⟨hnil, -⟩ := hsize
    · rw [List.length_cons, List.length_cons] at hend
      exact ⟨(hinside o).trans (decide_eq_true (by omega)), by omega⟩
    · exact absurd hnil (List.cons_ne_nil _ _)
  induction bs using seek.induct generalizing o with
  | id => exact id
  | case1 =>
    have hout : w.inside o = false := by
      rw [hinside]
      refine decide_eq_false ?_
      rw [List.length_nil] at hsize
      omega
    rw [seek_nil]
    exact ⟨hadv.find_outside hout, @forall_visits_outside _ _ (fun j => j + 1 < limit) hout⟩
  | case2 x =>
    obtain hend | ⟨hnil, -⟩ := hsize
    · rw [List.length_singleton] at hend
      have hin : w.inside o = true := (hinside o).trans (decide_eq_true (by omega))
      rw [seek_singleton]
      exact ⟨o, .here hin, Nat.le_of_eq hend.symm⟩
    · exact absurd hnil (List.cons_ne_nil _ _)
  | case3 n xs =>
    obtain ⟨hin, hroom⟩ := hopen id n xs hsize
    have hhit : w.found o = true := (hfound o).trans (decide_eq_true (h 0 (Nat.succ_pos _)))
    have hlen : m (base + o + 1) = n := h 1 (Nat.succ_lt_succ (Nat.succ_pos _))
    have hsplit : Holds m (base + o) ([id, n] ++ xs) := h
    rw [seek_hit]
    refine ⟨o, hadv.find_found hin hhit, hroom, by rw [hlen], hsplit.right, ?_⟩
    refine (forall_visits hin).mpr ⟨by omega, fun hmiss => ?_⟩
    exact Bool.noConfusion (hhit.symm.trans hmiss)
  | case4 x n xs hmiss ih =>
    obtain ⟨hin, hroom⟩ := hopen x n xs hsize
    have hx : m (base + o) = x := h 0 (Nat.succ_pos _)
    have hpass : w.found o = false := (hfound o).trans (decide_eq_false (by rwa [hx]))
    have hlen : m (base + o + 1) = n := h 1 (Nat.succ_lt_succ (Nat.succ_pos _))
    have hstep : w.next o = o + 2 + n.toNat := by
      rw [hnext, nextElement, hlen]
      omega
    have hsplit : Holds m (base + o) ([x, n] ++ xs) := h
    rw [seek_pass hmiss]
    refine Answered.later hadv hin hpass (by omega) ?_
    rw [hstep]
    cases Nat.le_total n.toNat xs.length with
    | inl hwhole =>
      refine ih ?_ (.inl (by rw [List.length_drop]; omega))
      have hdrop := hsplit.right.drop hwhole
      rwa [Nat.add_assoc, Nat.add_assoc, ← Nat.add_assoc o] at hdrop
    | inr hcut =>
      have hnil : xs.drop n.toNat = [] := List.drop_eq_nil_of_le hcut
      rw [hnil] at ih ⊢
      exact ih (fun i hi => absurd hi (Nat.not_lt_zero i)) (.inr ⟨rfl, by omega⟩)

end InMemory

end Tlv
