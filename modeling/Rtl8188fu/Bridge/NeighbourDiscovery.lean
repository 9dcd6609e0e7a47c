import Rtl8188fu.Lib.CursorWalk
import Rtl8188fu.Lib.ByteMemory
import Rtl8188fu.Lib.OnesComplement
import Rtl8188fu.Recv.Frame

namespace Bridge

namespace Nd

open ByteMemory ByteOrder OnesComplement CursorWalk
open Recv (MacAddr)

structure Csum where
  csumPartial : List UInt8 → ℕ
  ipv6Magic : List UInt8 → List UInt8 → ℕ → ℕ → ℕ → ℕ
  csumPartial_modEq : ∀ bs, csumPartial bs ≡ words .little bs [MOD 65535]
  ipv6Magic_eq : ∀ saddr daddr len proto sum, ipv6Magic saddr daddr len proto sum =
    65535 - fold (words .little saddr + words .little daddr +
      words .little [0, 0, high len, low len] + words .little [0, 0, high proto, low proto] + sum)

def ndOption : UInt8 → Option (ℕ × UInt8)
  | 133 => some (8, 1)
  | 134 => some (16, 1)
  | 135 => some (24, 1)
  | 136 => some (24, 2)
  | 137 => some (40, 2)
  | _ => none

def tlvWalk (m : Mem UInt8) (n : ℕ) (tag : UInt8) : Walk where
  inside i := decide (i < n)
  found i := m (54 + i) == tag && m (54 + i + 1) == 1 && decide (i + 8 ≤ n)
  next i := i + 8 * (m (54 + i + 1)).toNat

def scanTlv (fuel : ℕ) (m : Mem UInt8) (n : ℕ) (tag : UInt8) (start : ℕ) : Option (Option ℕ) :=
  run (tlvWalk m n tag) fuel start

def updateNdLinkLayerAddr (fuel : ℕ) (hw : MacAddr) (m : Mem UInt8) (n : ℕ) :
    Option (Mem UInt8 × Bool) :=
  match ndOption (m 54) with
  | none => some (m, false)
  | some (start, tag) =>
    if start ≤ n then
      (scanTlv fuel m n tag start).map fun
        | none => (m, false)
        | some i => (write m (54 + i + 2) hw.toList, true)
    else some (m, false)

def refreshed (cs : Csum) (m : Mem UInt8) : Mem UInt8 :=
  let m := write m 56 [0, 0]
  let len := word .little (m 18) (m 19)
  write m 56 (unword .little (cs.ipv6Magic (read m 22 16) (read m 38 16) len 58
    (cs.csumPartial (read m 54 len))))

def insertIpv6 (fuel : ℕ) (cs : Csum) (hw : MacAddr) (m : Mem UInt8) (len : ℕ) :
    Option (Mem UInt8) :=
  if 14 ≤ len ∧ len ≤ 54 then some m
  else if read m 22 16 = List.replicate 16 0 then some m
  else if m 20 = 58 ∧ 58 < len then
    (updateNdLinkLayerAddr fuel hw m (len - 54)).map fun r =>
      if r.2 then refreshed cs r.1 else r.1
  else some m

def payloadLen (m : Mem UInt8) : ℕ := word .big (m 18) (m 19)

def messageLen (m : Mem UInt8) (len : ℕ) : ℕ := min (len - 54) (payloadLen m)

def messageSum (m : Mem UInt8) : ℕ :=
  words .big (read m 22 32) + payloadLen m + 58 + words .big (read m 54 (payloadLen m))

def Valid (m : Mem UInt8) : Prop := fold (messageSum m) = 65535

def scanned (m : Mem UInt8) (len : ℕ) : Option (ℕ × UInt8) :=
  if read m 22 16 ≠ List.replicate 16 0 ∧ m 20 = 58 ∧ 58 < len then
    (ndOption (m 54)).filter fun o => o.1 ≤ len - 54
  else none

structure FirstOption (m : Mem UInt8) (len i : ℕ) : Prop where
  exists_scan : ∃ start tag, scanned m len = some (start, tag) ∧
    Visits (tlvWalk m (len - 54) tag) start i ∧ (tlvWalk m (len - 54) tag).found i = true

structure Rewritten (cs : Csum) (hw : MacAddr) (m : Mem UInt8) (len : ℕ) : Prop where
  terminates : ∃ fuel m', insertIpv6 fuel cs hw m len = some m'
  reads : ∀ start tag, scanned m len = some (start, tag) →
    ∀ i, Visits (tlvWalk m (len - 54) tag) start i → ∀ x ∈ [i, i + 1], x < messageLen m len
  changed : ∀ fuel m', insertIpv6 fuel cs hw m len = some m' → ∀ x, m' x ≠ m x →
    (∃ i, FirstOption m len i ∧ 54 + i + 2 ≤ x ∧ x < 54 + i + 8) ∨ x = 56 ∨ x = 57
  valid : ∀ fuel m', insertIpv6 fuel cs hw m len = some m' → Valid m → Valid m'

def patched (hw : MacAddr) (m : Mem UInt8) (i : ℕ) : Mem UInt8 :=
  write (write m (54 + i + 2) hw.toList) 56 [0, 0]

def SumAgrees (hw : MacAddr) (m : Mem UInt8) (i : ℕ) : Prop :=
  Valid m → swap (payloadLen m) + words .big (read (patched hw m i) 54 (swap (payloadLen m))) ≡
    payloadLen m + words .big (read (patched hw m i) 54 (payloadLen m)) [MOD 65535]

def OptionsFit (tag : UInt8) (agrees : ℕ → Prop) (i left : ℕ) (rest : List UInt8) : Prop :=
  match rest with
  | [] => True
  | [_] => False
  | t :: l :: body =>
    2 ≤ left ∧
      if t = tag ∧ l = 1 ∧ 6 ≤ body.length then agrees i
      else if 0 < l.toNat then
        OptionsFit tag agrees (i + 8 * l.toNat) (left - 8 * l.toNat)
          ((t :: l :: body).drop (8 * l.toNat))
      else False
termination_by rest.length
decreasing_by
  simp only [List.length_drop, List.length_cons]
  omega

def MessageFits (hw : MacAddr) (m : Mem UInt8) (len : ℕ) : Prop :=
  ∀ start tag, scanned m len = some (start, tag) →
    OptionsFit tag (SumAgrees hw m) start (messageLen m len - start)
      ((read m 54 (len - 54)).drop start)

variable {cs : Csum} {hw : MacAddr} {m m' : Mem UInt8} {n len i left start : ℕ} {tag t l : UInt8}
  {agrees : ℕ → Prop} {body : List UInt8}

structure OptionGood (m : Mem UInt8) (n : ℕ) (tag : UInt8) (agrees : ℕ → Prop) (limit i : ℕ) :
    Prop where
  header : i + 2 ≤ limit
  agrees : (tlvWalk m n tag).found i = true → agrees i
  moves : (tlvWalk m n tag).found i = false → (tlvWalk m n tag).next i ≠ i

theorem optionsFit_match (h : t = tag ∧ l = 1 ∧ 6 ≤ body.length) :
    OptionsFit tag agrees i left (t :: l :: body) ↔ 2 ≤ left ∧ agrees i := by
  rw [OptionsFit, if_pos h]

theorem optionsFit_stall (h : ¬(t = tag ∧ l = 1 ∧ 6 ≤ body.length)) (hl : l.toNat = 0) :
    ¬ OptionsFit tag agrees i left (t :: l :: body) := by
  rw [OptionsFit, if_neg h, if_neg (by omega)]
  exact fun hfit => hfit.2

theorem optionsFit_next (h : ¬(t = tag ∧ l = 1 ∧ 6 ≤ body.length)) (hl : 0 < l.toNat) :
    OptionsFit tag agrees i left (t :: l :: body) ↔ 2 ≤ left ∧
      OptionsFit tag agrees (i + 8 * l.toNat) (left - 8 * l.toNat)
        ((t :: l :: body).drop (8 * l.toNat)) := by
  rw [OptionsFit, if_neg h, if_pos hl]

theorem drop_read_from (m : Mem UInt8) (a n i : ℕ) :
    (read m a n).drop i = read m (a + i) (n - i) := by
  cases Decidable.em (i ≤ n) with
  | inl hle =>
    obtain ⟨k, rfl⟩ := Nat.exists_eq_add_of_le hle
    rw [drop_read, Nat.add_sub_cancel_left]
  | inr hle =>
    rw [List.drop_eq_nil_of_le (by rw [length_read]; omega),
      show n - i = 0 by omega]
    rfl

theorem read_two_more (m : Mem UInt8) (a k : ℕ) :
    read m a (k + 2) = m a :: m (a + 1) :: read m (a + 2) k := by
  rw [Nat.add_comm, read_add]
  rfl

theorem found_iff : (tlvWalk m n tag).found i = true ↔
    m (54 + i) = tag ∧ m (54 + i + 1) = 1 ∧ i + 8 ≤ n := by
  simp only [tlvWalk, Bool.and_eq_true, beq_iff_eq, decide_eq_true_eq, and_assoc]

theorem visits_options {limit : ℕ} (hlimit : limit ≤ n) :
    (∀ j, Visits (tlvWalk m n tag) i j → OptionGood m n tag agrees limit j) ↔
      OptionsFit tag agrees i (limit - i) ((read m 54 n).drop i) := by
  induction hleft : n - i using Nat.strongRecOn generalizing i with
  | _ d ih =>
    rw [drop_read_from]
    rcases d with _ | _ | k
    · rw [hleft]
      refine iff_of_true (forall_visits_outside (decide_eq_false (by omega))) ?_
      rw [OptionsFit.eq_def]
      trivial
    · rw [hleft]
      refine iff_of_false (fun hall => ?_) ?_
      · have hheader := (hall i (.here (decide_eq_true (by omega)))).header
        omega
      · rw [OptionsFit.eq_def]
        exact id
    · have hin : (tlvWalk m n tag).inside i = true := decide_eq_true (by omega)
      rw [hleft, read_two_more, forall_visits hin]
      have hroom : i + 8 ≤ n ↔ 6 ≤ (read m (54 + i + 2) k).length := by
        rw [length_read]
        omega
      have hheader : i + 2 ≤ limit ↔ 2 ≤ limit - i := by omega
      cases Decidable.em (m (54 + i) = tag ∧ m (54 + i + 1) = 1 ∧ i + 8 ≤ n) with
      | inl hmatch =>
        have hfound := found_iff.mpr hmatch
        rw [optionsFit_match (by rwa [← hroom]), hfound]
        constructor
        · rintro ⟨hgood, -⟩
          exact ⟨hheader.mp hgood.header, hgood.agrees hfound⟩
        · rintro ⟨htwo, hagrees⟩
          exact ⟨⟨hheader.mpr htwo, fun _ => hagrees, fun hmiss => by simp [hfound] at hmiss⟩,
            fun hmiss => by cases hmiss⟩
      | inr hmiss =>
        have hfound : (tlvWalk m n tag).found i = false :=
          eq_false_of_ne_true fun hhit => hmiss (found_iff.mp hhit)
        have hmiss' := hmiss
        rw [hroom] at hmiss'
        have hnext : (tlvWalk m n tag).next i = i + 8 * (m (54 + i + 1)).toNat := rfl
        cases Nat.eq_zero_or_pos (m (54 + i + 1)).toNat with
        | inl hzero =>
          refine iff_of_false (fun hall => ?_) (optionsFit_stall hmiss' hzero)
          exact hall.1.moves hfound (by rw [hnext, hzero, Nat.mul_zero, Nat.add_zero])
        | inr hpos =>
          rw [optionsFit_next hmiss' hpos, hfound, hnext]
          have hlater := ih (n - (i + 8 * (m (54 + i + 1)).toNat)) (by omega) rfl
          have hlist : (m (54 + i) :: m (54 + i + 1) :: read m (54 + i + 2) k).drop
              (8 * (m (54 + i + 1)).toNat) =
                (read m 54 n).drop (i + 8 * (m (54 + i + 1)).toNat) := by
            rw [← read_two_more, ← hleft, ← drop_read_from, List.drop_drop]
          rw [hlist, ← Nat.sub_add_eq, ← hlater]
          constructor
          · rintro ⟨hgood, hrest⟩
            exact ⟨hheader.mp hgood.header, hrest rfl⟩
          · rintro ⟨htwo, hrest⟩
            refine ⟨⟨hheader.mpr htwo, fun hhit => ?_, fun _ => ?_⟩, fun _ => hrest⟩
            · rw [hfound] at hhit
              cases hhit
            · rw [hnext]
              omega

theorem complement_sum (n : ℕ) : 65535 - fold n + n ≡ 0 [MOD 65535] := by
  have hlt := fold_lt n
  have hfold := (fold_modEq n).symm.add_left (65535 - fold n)
  have hfull : 65535 - fold n + fold n = 65535 := by omega
  rw [hfull] at hfold
  exact hfold

theorem words_cleared {a : ℕ} (m : Mem UInt8) (x y : UInt8) (k : ℕ) :
    words .big (read (write m (a + 2) [x, y]) a (k + 4)) =
      words .big (read (write m (a + 2) [0, 0]) a (k + 4)) + word .big x y := by
  have hsplit (x y : UInt8) : words .big (read (write m (a + 2) [x, y]) a (k + 4)) =
      words .big (read m a 2) + (word .big x y + words .big (read m (a + 4) k)) := by
    have hlen : k + 4 = 2 + (2 + k) := by omega
    have hbefore : read (write m (a + 2) [x, y]) a 2 = read m a 2 :=
      read_congr fun i _ hi => write_below m _ hi
    have hhere : read (write m (a + 2) [x, y]) (a + 2) 2 = [x, y] := (holds_write m (a + 2) [x, y]).read
    have hafter : read (write m (a + 2) [x, y]) (a + 2 + 2) k = read m (a + 4) k :=
      read_congr fun i hi _ => write_above m (by simpa using hi)
    rw [hlen, read_add, read_add, hbefore, hhere, hafter, words_append (by rw [length_read])]
    rfl
  have hzero : word .big 0 0 = 0 := rfl
  rw [hsplit x y, hsplit 0 0, hzero]
  omega

theorem refreshed_sum (cs : Csum) (m : Mem UInt8) : ∃ x y,
    refreshed cs m = write m 56 [x, y] ∧
      word .big x y + (words .big (read m 22 32) + swap (payloadLen m) + 58 +
        words .big (read (write m 56 [0, 0]) 54 (swap (payloadLen m)))) ≡ 0 [MOD 65535] := by
  have hbelow {a k : ℕ} (h : a + k ≤ 56) : read (write m 56 [0, 0]) a k = read m a k :=
    read_congr fun i _ hi => write_below m _ (Nat.lt_of_lt_of_le hi h)
  have hlen : word .little (write m 56 [0, 0] 18) (write m 56 [0, 0] 19) = swap (payloadLen m) := by
    rw [write_below m _ (by decide), write_below m _ (by decide), word_little, payloadLen]
  have hlenlt : swap (payloadLen m) < 65536 := by
    rw [payloadLen, ← word_little]
    exact word_lt ..
  generalize hsum : words .little (read m 22 16) + words .little (read m 38 16) +
    words .little [0, 0, high (swap (payloadLen m)), low (swap (payloadLen m))] +
    words .little [0, 0, high 58, low 58] +
    cs.csumPartial (read (write m 56 [0, 0]) 54 (swap (payloadLen m))) = sum
  obtain ⟨x, y, hxy⟩ := exists_word .little (n := 65535 - fold sum) (by omega)
  refine ⟨x, y, ?_, ?_⟩
  · simp only [refreshed]
    rw [hlen, hbelow (by decide), hbelow (by decide), cs.ipv6Magic_eq, hsum, ← hxy, unword_word,
      write_pair_again]
  · refine scale_cancel (e := .little) ?_
    have haddr : words .big (read m 22 32) = words .big (read m 22 16) + words .big (read m 38 16) := by
      rw [show (32 : ℕ) = 16 + 16 from rfl, read_add]
      exact words_append (by rw [length_read])
    have hlenword : words .big [0, 0, high (swap (payloadLen m)), low (swap (payloadLen m))] =
        swap (payloadLen m) := by
      simp only [words_pair, words_nil, word, toNat_high, toNat_low]
      simp
      omega
    have hproto : words .big [0, 0, high 58, low 58] = 58 := rfl
    have hnative : word .little x y + sum ≡ scale .little * 0 [MOD 65535] := by
      rw [hxy]
      exact complement_sum sum
    refine Nat.ModEq.trans ?_ hnative
    rw [haddr, ← hsum, ← hproto]
    nth_rewrite 1 [← hlenword]
    simp only [Nat.mul_add]
    refine (word_modEq .little x y).symm.add ?_
    refine Nat.ModEq.add ?_ ((words_modEq .little _).symm.trans (cs.csumPartial_modEq _).symm)
    refine Nat.ModEq.add ?_ (words_modEq .little _).symm
    refine Nat.ModEq.add ?_ (words_modEq .little _).symm
    exact (words_modEq .little _).symm.add (words_modEq .little _).symm

theorem refreshed_valid (cs : Csum) (m : Mem UInt8) (h : 4 ≤ payloadLen m) :
    Valid (refreshed cs m) ↔
      swap (payloadLen m) + words .big (read (write m 56 [0, 0]) 54 (swap (payloadLen m))) ≡
        payloadLen m + words .big (read (write m 56 [0, 0]) 54 (payloadLen m)) [MOD 65535] := by
  obtain ⟨x, y, hrefreshed, hsum⟩ := refreshed_sum cs m
  have hpayload : payloadLen (write m 56 [x, y]) = payloadLen m := by
    rw [payloadLen, write_below m _ (by decide), write_below m _ (by decide), payloadLen]
  have haddr : read (write m 56 [x, y]) 22 32 = read m 22 32 :=
    read_congr fun i _ hi => write_below m _ (Nat.lt_of_lt_of_le hi (by decide))
  obtain ⟨k, hk⟩ := Nat.exists_eq_add_of_le h
  have hcleared := words_cleared (a := 54) m x y k
  rw [Nat.add_comm k, ← hk] at hcleared
  rw [Valid, hrefreshed, fold_full_iff (by rw [messageSum]; omega), messageSum, hpayload, haddr,
    hcleared]
  generalize words .big (read (write m 56 [0, 0]) 54 (payloadLen m)) = whole at *
  generalize words .big (read (write m 56 [0, 0]) 54 (swap (payloadLen m))) = summed at *
  have hgot : word .big x y + words .big (read m 22 32) + 58 + (swap (payloadLen m) + summed) ≡ 0
      [MOD 65535] := by
    have horder : word .big x y + words .big (read m 22 32) + 58 + (swap (payloadLen m) + summed) =
        word .big x y + (words .big (read m 22 32) + swap (payloadLen m) + 58 + summed) := by omega
    rw [horder]
    exact hsum
  have hwant : words .big (read m 22 32) + payloadLen m + 58 + (whole + word .big x y) =
      word .big x y + words .big (read m 22 32) + 58 + (payloadLen m + whole) := by omega
  rw [hwant]
  constructor
  · exact fun hvalid => Nat.ModEq.add_left_cancel' _ (hgot.trans hvalid.symm)
  · exact fun hagrees => (hagrees.add_left _).symm.trans hgot

def outcome (cs : Csum) (hw : MacAddr) (m : Mem UInt8) : Option ℕ → Mem UInt8
  | none => m
  | some i => refreshed cs (write m (54 + i + 2) hw.toList)

theorem insert_unscanned (h : scanned m len = none) (fuel : ℕ) :
    insertIpv6 fuel cs hw m len = some m := by
  rw [scanned] at h
  rw [insertIpv6]
  split
  · rfl
  · split
    · rfl
    · next hsaddr =>
      split
      · next hnd =>
        rw [if_pos ⟨hsaddr, hnd⟩, Option.filter_eq_none_iff] at h
        rw [updateNdLinkLayerAddr]
        cases hopt : ndOption (m 54) with
        | none => rfl
        | some o =>
          obtain ⟨start, tag⟩ := o
          have hlong := h (start, tag) hopt
          simp only [decide_eq_true_eq] at hlong
          dsimp only
          rw [if_neg hlong]
          rfl
      · rfl

theorem insert_scanned (h : scanned m len = some (start, tag)) (fuel : ℕ) :
    insertIpv6 fuel cs hw m len =
      (run (tlvWalk m (len - 54) tag) fuel start).map (outcome cs hw m) := by
  rw [scanned] at h
  split at h
  · next hnd =>
    rw [Option.filter_eq_some_iff] at h
    obtain ⟨hopt, hlong⟩ := h
    simp only [decide_eq_true_eq] at hlong
    rw [insertIpv6, if_neg (by omega), if_neg hnd.1, if_pos hnd.2, updateNdLinkLayerAddr, hopt]
    dsimp only
    rw [if_pos hlong, scanTlv, Option.map_map]
    refine congrArg (Option.map · _) (funext fun r => ?_)
    cases r with
    | none => rfl
    | some i => rfl
  · cases h

theorem scanned_start (h : scanned m len = some (start, tag)) : 8 ≤ start := by
  rw [scanned] at h
  split at h
  · obtain ⟨hopt, -⟩ := Option.filter_eq_some_iff.mp h
    generalize m 54 = type at hopt
    unfold ndOption at hopt
    split at hopt
    all_goals first
      | cases hopt
    all_goals decide
  · cases h

theorem visits_from {j : ℕ} (h : Visits (tlvWalk m n tag) i j) : i ≤ j := by
  induction h with
  | here _ => exact Nat.le_refl _
  | later _ _ _ ih => exact Nat.le_trans (Nat.le_add_right _ _) ih

theorem outcome_valid (cs : Csum) (hw : MacAddr) (m : Mem UInt8) (i : ℕ) (h : 4 ≤ payloadLen m) :
    (Valid m → Valid (outcome cs hw m (some i))) ↔ SumAgrees hw m i := by
  have hpayload : payloadLen (write m (54 + i + 2) hw.toList) = payloadLen m := by
    rw [payloadLen, write_below m _ (by omega), write_below m _ (by omega), payloadLen]
  have hvalid := refreshed_valid cs (write m (54 + i + 2) hw.toList) (hpayload ▸ h)
  rw [hpayload] at hvalid
  exact imp_congr_right fun _ => hvalid

theorem outcome_changed {x : ℕ} (h : outcome cs hw m (some i) x ≠ m x) :
    54 + i + 2 ≤ x ∧ x < 54 + i + 8 ∨ x = 56 ∨ x = 57 := by
  obtain ⟨p, q, hrefreshed, -⟩ := refreshed_sum cs (write m (54 + i + 2) hw.toList)
  rw [outcome, hrefreshed, write_pair] at h
  split at h
  · next hlow => exact .inr (.inl hlow)
  · split at h
    · next hhigh => exact .inr (.inr hhigh)
    · refine .inl ⟨Nat.not_lt.mp fun hlt => h (write_below m _ hlt), Nat.not_le.mp fun hle => ?_⟩
      exact h (write_above m (by rw [Vector.length_toList]; omega))

theorem rewritten_scanned (h : scanned m len = some (start, tag)) : Rewritten cs hw m len ↔
    ∀ j, Visits (tlvWalk m (len - 54) tag) start j →
      OptionGood m (len - 54) tag (SumAgrees hw m) (messageLen m len) j := by
  have hstart := scanned_start h
  have hpayload : messageLen m len ≤ payloadLen m := Nat.min_le_right ..
  have hlimit (j : ℕ) (hj : (tlvWalk m (len - 54) tag).inside j = true) : j < len - 54 :=
    of_decide_eq_true hj
  constructor
  · intro hrewritten j hvisits
    have hreads := hrewritten.reads start tag h j hvisits
    have hheader := hreads (j + 1) (List.mem_cons_of_mem _ (List.mem_singleton_self _))
    have hge := visits_from hvisits
    refine ⟨hheader, fun hfound => ?_, fun hmiss hstall => ?_⟩
    · obtain ⟨fuel, hrun⟩ := hvisits.found_finishes hfound
      have hout : insertIpv6 fuel cs hw m len = some (outcome cs hw m (some j)) := by
        rw [insert_scanned h, hrun]
        rfl
      exact (outcome_valid cs hw m j (by omega)).mp (hrewritten.valid fuel _ hout)
    · obtain ⟨fuel, m', hout⟩ := hrewritten.terminates
      rw [insert_scanned h] at hout
      obtain ⟨r, hrun, -⟩ := Option.map_eq_some_iff.mp hout
      exact not_finishes_of_stall hvisits hmiss hstall ⟨fuel, hrun⟩
  · intro hall
    have hfinishes := (finishes_iff hlimit fun j => Nat.le_add_right _ _).mpr
      fun j hj hmiss => (hall j hj).moves hmiss
    obtain ⟨r, fuel, hrun⟩ := hfinishes
    have hout {fuel : ℕ} {m' : Mem UInt8} (hm : insertIpv6 fuel cs hw m len = some m') :
        m' = m ∨ ∃ i, Visits (tlvWalk m (len - 54) tag) start i ∧
          (tlvWalk m (len - 54) tag).found i = true ∧ m' = outcome cs hw m (some i) := by
      rw [insert_scanned h] at hm
      obtain ⟨r, hrun, rfl⟩ := Option.map_eq_some_iff.mp hm
      cases r with
      | none => exact .inl rfl
      | some i =>
        obtain ⟨hvisits, hfound⟩ := run_some hrun
        exact .inr ⟨i, hvisits, hfound, rfl⟩
    refine ⟨⟨fuel, outcome cs hw m r, ?_⟩, fun start' tag' h' j hj x hx => ?_, ?_, ?_⟩
    · rw [insert_scanned h, hrun]
      rfl
    · rw [h] at h'
      cases h'
      have hheader := (hall j hj).header
      simp only [List.mem_cons, List.not_mem_nil, or_false] at hx
      omega
    · intro fuel m' hm x hx
      rcases hout hm with rfl | ⟨i, hvisits, hfound, rfl⟩
      · exact absurd rfl hx
      · rcases outcome_changed hx with haddr | hcheck
        · exact .inl ⟨i, ⟨start, tag, h, hvisits, hfound⟩, haddr⟩
        · exact .inr hcheck
    · intro fuel m' hm
      rcases hout hm with rfl | ⟨i, hvisits, hfound, rfl⟩
      · exact id
      · have hgood := hall i hvisits
        have hheader := hgood.header
        have hge := visits_from hvisits
        exact (outcome_valid cs hw m i (by omega)).mpr (hgood.agrees hfound)

theorem neighbour_discovery_law (cs : Csum) (hw : MacAddr) (m : Mem UInt8) (len : ℕ) :
    Rewritten cs hw m len ↔ MessageFits hw m len := by
  rw [MessageFits]
  cases h : scanned m len with
  | none =>
    have hsame {fuel : ℕ} {m' : Mem UInt8} (hm : insertIpv6 fuel cs hw m len = some m') : m' = m := by
      rw [insert_unscanned h] at hm
      exact (Option.some.inj hm).symm
    refine iff_of_true ⟨⟨0, m, insert_unscanned h 0⟩, fun _ _ h' => ?_, fun _ m' hm x hx => ?_,
      fun _ m' hm => ?_⟩ fun _ _ h' => by cases h'
    · rw [h] at h'
      cases h'
    · exact absurd (congrFun (hsame hm) x) hx
    · rw [hsame hm]
      exact id
  | some o =>
    obtain ⟨start, tag⟩ := o
    have hlimit : messageLen m len ≤ len - 54 := Nat.min_le_left ..
    rw [rewritten_scanned h, visits_options hlimit]
    constructor
    · intro hfit start' tag' h'
      cases h'
      exact hfit
    · exact fun hfit => hfit start tag rfl

def rfc1071 : Csum where
  csumPartial := words .little
  ipv6Magic saddr daddr len proto sum := 65535 - fold (words .little saddr + words .little daddr +
    words .little [0, 0, high len, low len] + words .little [0, 0, high proto, low proto] + sum)
  csumPartial_modEq _ := Nat.ModEq.rfl
  ipv6Magic_eq _ _ _ _ _ := rfl

def solicitationBytes : List UInt8 :=
  List.replicate 19 0 ++ [32, 58, 255, 0xfe, 0x80] ++ List.replicate 14 0 ++ [0xff, 0x02] ++
    List.replicate 13 0 ++ [1, 135, 0, 0x78, 0x1e] ++ List.replicate 20 0 ++ [1, 1, 2, 0, 0, 0, 0, 1]

def solicitation : Mem UInt8 := fun i => solicitationBytes.getD i 0

theorem solicitation_beyond {i : ℕ} (h : 86 ≤ i) : solicitation i = 0 :=
  List.getD_eq_default _ _ h

theorem solicitation_checksum_spoiled : Valid solicitation ∧
    ¬ ∃ cs : Csum, Rewritten cs #v[2, 0, 0, 0, 0, 2] solicitation 86 := by
  have hvalid : Valid solicitation := by
    rw [Valid, fold_full_iff (by decide)]
    decide
  refine ⟨hvalid, fun ⟨cs, hrewritten⟩ => ?_⟩
  have hscan : scanned solicitation 86 = some (24, 1) := by decide
  have hall := (rewritten_scanned hscan).mp hrewritten
  have hfirst := hall 24 (.here (by decide))
  have hagrees := hfirst.agrees (by decide) hvalid
  have hpayload : payloadLen solicitation = 32 := by decide
  have hbeyond : read (patched #v[2, 0, 0, 0, 0, 2] solicitation 24) (54 + 32) 8160 =
      List.replicate 8160 0 := by
    refine List.eq_replicate_iff.mpr ⟨length_read .., fun b hb => ?_⟩
    obtain ⟨i, -, rfl⟩ := List.mem_map.mp hb
    rw [patched, write_above _ (by simp; omega), write_above _ (by simp)]
    exact solicitation_beyond (Nat.le_add_right _ _)
  have hsum := words_read_add .big (patched #v[2, 0, 0, 0, 0, 2] solicitation 24) 54
    (rfl : 32 % 2 = 0) 8160
  rw [hbeyond, words_zero] at hsum
  rw [hpayload, show swap 32 = 32 + 8160 from rfl, hsum] at hagrees
  exact absurd hagrees (by decide)

end Nd

end Bridge
