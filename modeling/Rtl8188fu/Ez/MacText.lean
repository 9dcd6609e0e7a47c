import Mathlib.Data.List.DropRight
import Rtl8188fu.Ez.Tokenizer

namespace Ez

open ByteMemory

def ezHexval (c : UInt8) : UInt32 :=
  if 0x30 ≤ c ∧ c ≤ 0x39 then (c - 0x30).toUInt32
  else if 0x41 ≤ c ∧ c ≤ 0x46 then (c - 0x41 + 10).toUInt32
  else if 0x61 ≤ c ∧ c ≤ 0x66 then (c - 0x61 + 10).toUInt32
  else 0

def isHex (c : UInt8) : Bool :=
  0x30 ≤ c && c ≤ 0x39 || 0x41 ≤ c &&& 0xdf && c &&& 0xdf ≤ 0x46

def hexStep (val : UInt32) (c : UInt8) : UInt32 := val * 16 + ezHexval c

def ezAtox (m : Mem UInt8) : ℕ → ℕ → UInt32 → Option UInt32
  | 0, _, _ => none
  | fuel + 1, s, val => if isHex (m s) then ezAtox m fuel (s + 1) (hexStep val (m s)) else some val

def macLoop (fuel : ℕ) : ℕ → ℕ → Mem UInt8 → Option ℕ → List UInt8 → Option (List UInt8)
  | 0, _, _, _, mac => some mac
  | left + 1, i, m, p, mac =>
    (ezStrsep fuel m p 58 47).bind fun r =>
      match r.ret with
      | none => macLoop fuel left (i + 1) r.mem r.stringp mac
      | some sep =>
        (ezAtox r.mem fuel sep 0).bind fun val =>
          macLoop fuel left (i + 1) r.mem r.stringp (mac.set i val.toUInt8)

def ezMac2u8 (fuel : ℕ) (m : Mem UInt8) (kmalloc : Option ℕ) (mac : List UInt8)
    (s : Option (List UInt8)) : Option (List UInt8) :=
  match s, kmalloc with
  | none, _ => some mac
  | some _, none => some mac
  | some s, some buf => macLoop fuel 6 0 (write m buf s) (some buf) mac

def hexByte (digits : List UInt8) : UInt8 := (digits.foldl hexStep 0).toUInt8

structure HexByte where
  digits : List UInt8
  hex : ∀ c ∈ digits, isHex c = true
  size : digits.length = 1 ∨ digits.length = 2

def HexByte.value (d : HexByte) : UInt8 := hexByte d.digits

def macText : List HexByte → List UInt8
  | [] => []
  | [d] => d.digits
  | d :: ds => d.digits ++ 58 :: macText ds

structure HexRun (m : Mem UInt8) (t : ℕ) (g : List UInt8) : Prop where
  held : Holds m t g
  hex : ∀ c ∈ g, isHex c = true
  ends : isHex (m (t + g.length)) = false

def Terminated (m : Mem UInt8) (t : ℕ) : Prop :=
  (∃ k, m (t + k) = 0) ∨
  ∃ k, m (t + k) = 58 ∧ ∀ j < k, ¬(m (t + j) = 47 ∧ (m (t + j + 1) = 47 ∨ m (t + j + 1) = 58))

structure Undisturbed (m : Mem UInt8) (t : ℕ) (d : HexByte) : Prop where
  terminated : Terminated m t
  kept : ∃ g, HexRun m t g ∧ hexByte ((d.digits ++ g).rtake 2) = d.value

variable {m m' : Mem UInt8} {a q s t fuel : ℕ} {d : HexByte} {ds : List HexByte} {g : List UInt8}
  {c : UInt8}

theorem isHex_plain (h : isHex c = true) : c ≠ 0 ∧ c ≠ 58 ∧ c ≠ 47 := by
  refine ⟨?_, ?_, ?_⟩
  all_goals
    rintro rfl
    exact absurd h (by decide)

theorem HexRun.cons (hc : isHex (m t) = true) (h : HexRun m (t + 1) g) :
    HexRun m t (m t :: g) := by
  refine ⟨holds_cons rfl h.held, List.forall_mem_cons.mpr ⟨hc, h.hex⟩, ?_⟩
  rw [List.length_cons, Nat.add_comm g.length, ← Nat.add_assoc]
  exact h.ends

theorem HexRun.nil (h : isHex (m t) = false) : HexRun m t [] :=
  ⟨fun i hi => absurd hi (Nat.not_lt_zero i), fun _ hc => absurd hc List.not_mem_nil, h⟩

theorem HexRun.append {bs : List UInt8} (hbs : Holds m a bs) (hhex : ∀ c ∈ bs, isHex c = true)
    (h : HexRun m (a + bs.length) g) : HexRun m a (bs ++ g) := by
  refine ⟨hbs.append h.held, List.forall_mem_append.mpr ⟨hhex, h.hex⟩, ?_⟩
  rw [List.length_append, ← Nat.add_assoc]
  exact h.ends

theorem HexRun.unique {g' : List UInt8} (h : HexRun m t g) (h' : HexRun m t g') : g = g' := by
  induction g generalizing t g' with
  | nil =>
    cases g' with
    | nil => rfl
    | cons c g' =>
      have hhex := h'.hex c List.mem_cons_self
      rw [← holds_head h'.held] at hhex
      exact absurd (h.ends.symm.trans hhex) Bool.false_ne_true
  | cons c g ih =>
    have hhex := h.hex c List.mem_cons_self
    rw [← holds_head h.held] at hhex
    cases g' with
    | nil => exact absurd (h'.ends.symm.trans hhex) Bool.false_ne_true
    | cons c' g' =>
      have hlen (l : List UInt8) : t + 1 + l.length = t + (l.length + 1) := by omega
      have hrest : HexRun m (t + 1) g :=
        ⟨holds_next h.held, (List.forall_mem_cons.mp h.hex).2, hlen g ▸ h.ends⟩
      have hrest' : HexRun m (t + 1) g' :=
        ⟨holds_next h'.held, (List.forall_mem_cons.mp h'.hex).2, hlen g' ▸ h'.ends⟩
      rw [ih hrest hrest', ← holds_head h.held, ← holds_head h'.held]

theorem ezAtox_run {val : UInt32} (h : HexRun m a g) (hfuel : g.length < fuel) :
    ezAtox m fuel a val = some (g.foldl hexStep val) := by
  induction g generalizing a val fuel with
  | nil =>
    obtain ⟨fuel, rfl⟩ : ∃ k, fuel = k + 1 := ⟨fuel - 1, by omega⟩
    rw [ezAtox, if_neg (by simpa using h.ends)]
    rfl
  | cons c g ih =>
    obtain ⟨fuel, rfl⟩ : ∃ k, fuel = k + 1 := ⟨fuel - 1, by omega⟩
    have hhex := h.hex c List.mem_cons_self
    have hhead := holds_head h.held
    have hrest : HexRun m (a + 1) g := by
      refine ⟨holds_next h.held, (List.forall_mem_cons.mp h.hex).2, ?_⟩
      have hends := h.ends
      rwa [List.length_cons, Nat.add_comm g.length, ← Nat.add_assoc] at hends
    rw [ezAtox, hhead, if_pos hhex, ih hrest (Nat.lt_of_succ_lt_succ hfuel)]
    rfl

theorem hexByte_step (v w : UInt32) (x y : UInt8) :
    (hexStep (hexStep v x) y).toUInt8 = (hexStep (hexStep w x) y).toUInt8 := by
  have hsplit (v : UInt32) : (hexStep (hexStep v x) y).toUInt8 =
      (hexStep (hexStep 0 x) y).toUInt8 := by
    rw [← UInt8.toNat_inj]
    simp only [hexStep, UInt32.toNat_toUInt8, UInt32.toNat_add, UInt32.toNat_mul]
    simp only [UInt32.reduceToNat]
    omega
  rw [hsplit v, hsplit w]

theorem hexByte_rtake (bs : List UInt8) : hexByte (bs.rtake 2) = hexByte bs := by
  rcases List.eq_nil_or_concat bs with rfl | ⟨bs, y, rfl⟩
  · rfl
  · rcases List.eq_nil_or_concat bs with rfl | ⟨bs, x, rfl⟩
    · rfl
    · have htake : (bs.concat x |>.concat y).rtake 2 = [x, y] := by simp [List.rtake]
      rw [List.concat_eq_append] at htake ⊢
      rw [htake, List.concat_eq_append, hexByte, hexByte, List.foldl_append, List.foldl_append]
      exact hexByte_step ..

theorem strlen_some {n : ℕ} (h : strlen m fuel a = some n) : m (a + n) = 0 := by
  induction fuel generalizing a n with
  | zero => cases h
  | succ fuel ih =>
    rw [strlen] at h
    split at h
    · cases h
      assumption
    · obtain ⟨k, hk, rfl⟩ := Option.map_eq_some_iff.mp h
      rw [Nat.add_comm k, ← Nat.add_assoc]
      exact ih hk

theorem sepLoop_terminated {r : Sep} (h : sepLoop 58 47 s fuel m q = some r) : Terminated m q := by
  induction fuel generalizing q with
  | zero => cases h
  | succ fuel ih =>
    rw [sepLoop] at h
    split at h
    · exact .inl ⟨0, by assumption⟩
    · split at h
      · obtain ⟨n, hn, -⟩ := Option.bind_eq_some_iff.mp h
        exact .inl ⟨n, strlen_some hn⟩
      · rename_i hnul hesc
        split at h
        · exact .inr ⟨0, by assumption, fun j hj => absurd hj (Nat.not_lt_zero j)⟩
        · rcases ih h with ⟨k, hk⟩ | ⟨k, hk, hbefore⟩
          · exact .inl ⟨1 + k, by rwa [← Nat.add_assoc]⟩
          · refine .inr ⟨1 + k, by rwa [← Nat.add_assoc], fun j hj => ?_⟩
            cases j with
            | zero => exact hesc
            | succ j =>
              rw [Nat.add_comm j, ← Nat.add_assoc]
              exact hbefore j (by omega)

theorem sepLoop_text {text : List UInt8} (h : Holds m q (text ++ [0])) (hnul : 0 ∉ text)
    (hfuel : text.length < fuel) : ∃ r, sepLoop 58 47 s fuel m q = some r := by
  induction fuel generalizing m q text with
  | zero => omega
  | succ fuel ih =>
    cases text with
    | nil => exact ⟨_, sepLoop_nul (holds_head h)⟩
    | cons c text =>
      have htext : 0 ∉ text := fun hmem => hnul (List.mem_cons_of_mem c hmem)
      have hless : text.length < fuel := Nat.lt_of_succ_lt_succ hfuel
      rw [sepLoop]
      split
      · exact ⟨_, rfl⟩
      · split
        · rename_i hhead hesc
          rw [strlen_text h hnul hfuel, Option.bind_some]
          have hheld := memmove_text h
          cases text with
          | nil =>
            have hnext : m (q + 1) = 0 := holds_head (holds_next h)
            rw [hnext] at hesc
            exact absurd hesc.2 (by decide)
          | cons c' text =>
            exact ih (holds_next hheld) (fun hmem => htext (List.mem_cons_of_mem c' hmem))
              (Nat.lt_of_succ_lt hless)
        · split
          · exact ⟨_, rfl⟩
          · exact ih (holds_next h) htext hless

theorem sepLoop_colon {k : ℕ} (hk : m (q + k) = 58)
    (hbefore : ∀ j < k, ¬(m (q + j) = 47 ∧ (m (q + j + 1) = 47 ∨ m (q + j + 1) = 58)))
    (hfuel : k < fuel) : ∃ r, sepLoop 58 47 s fuel m q = some r := by
  induction fuel generalizing q k with
  | zero => omega
  | succ fuel ih =>
    rw [sepLoop]
    split
    · exact ⟨_, rfl⟩
    · cases k with
      | zero =>
        rw [Nat.add_zero] at hk
        have hesc : ¬(m q = 47 ∧ (m (q + 1) = 47 ∨ m (q + 1) = 58)) := fun hesc =>
          absurd (hk.symm.trans hesc.1) (by decide)
        rw [if_neg hesc, if_pos hk]
        exact ⟨_, rfl⟩
      | succ k =>
        have hesc : ¬(m q = 47 ∧ (m (q + 1) = 47 ∨ m (q + 1) = 58)) := hbefore 0 (Nat.succ_pos k)
        rw [if_neg hesc]
        split
        · exact ⟨_, rfl⟩
        · refine @ih (q + 1) k ?_ (fun j hj => ?_) (by omega)
          · rw [Nat.add_assoc, Nat.add_comm 1]
            exact hk
          · have hlater := hbefore (j + 1) (by omega)
            rw [Nat.add_comm j, ← Nat.add_assoc] at hlater
            exact hlater

theorem exists_text {k : ℕ} (h : m (q + k) = 0) :
    ∃ text, Holds m q (text ++ [0]) ∧ 0 ∉ text := by
  induction k generalizing q with
  | zero => exact ⟨[], holds_cons h fun i hi => absurd hi (Nat.not_lt_zero i), List.not_mem_nil⟩
  | succ k ih =>
    cases Decidable.em (m q = 0) with
    | inl hzero =>
      exact ⟨[], holds_cons hzero fun i hi => absurd hi (Nat.not_lt_zero i), List.not_mem_nil⟩
    | inr hzero =>
      obtain ⟨text, htext, hnul⟩ := @ih (q + 1) (by rwa [Nat.add_assoc, Nat.add_comm 1])
      refine ⟨m q :: text, holds_cons rfl htext, fun hmem => ?_⟩
      rcases List.mem_cons.mp hmem with hhead | hmem
      · exact hzero hhead.symm
      · exact hnul hmem

theorem sepLoop_ends (h : Terminated m q) :
    ∃ least, ∀ fuel, least < fuel → ∃ r, sepLoop 58 47 s fuel m q = some r := by
  rcases h with ⟨k, hk⟩ | ⟨k, hk, hbefore⟩
  · obtain ⟨text, htext, hnul⟩ := exists_text hk
    exact ⟨_, fun fuel hfuel => sepLoop_text htext hnul hfuel⟩
  · exact ⟨k, fun fuel hfuel => sepLoop_colon hk hbefore hfuel⟩

structure Cut (m : Mem UInt8) (s q : ℕ) (r : Sep) : Prop where
  ret : r.ret = some s
  below : ∀ i < q, r.mem i = m i
  run : ∃ g, HexRun m q g ∧ HexRun r.mem q g

theorem Cut.stops {r : Sep} (hret : r.ret = some s) (hbelow : ∀ i < q, r.mem i = m i)
    (hq : isHex (m q) = false) (hafter : isHex (r.mem q) = false) : Cut m s q r :=
  ⟨hret, hbelow, [], .nil hq, .nil hafter⟩

theorem sepLoop_cut {r : Sep} (h : sepLoop 58 47 s fuel m q = some r) : Cut m s q r := by
  induction fuel generalizing m q with
  | zero => cases h
  | succ fuel ih =>
    rw [sepLoop] at h
    split at h
    · rename_i hnul
      cases h
      have hq : isHex (m q) = false := hnul ▸ rfl
      exact .stops rfl (fun _ _ => rfl) hq hq
    · rename_i hnul
      split at h
      · rename_i hesc
        obtain ⟨n, hn, hrun⟩ := Option.bind_eq_some_iff.mp h
        have hcut := ih hrun
        have hpos : 0 < n := Nat.pos_of_ne_zero fun hzero =>
          hnul (by simpa [hzero] using strlen_some hn)
        have hafter : r.mem q = m (q + 1) := by
          rw [hcut.below q (Nat.lt_succ_self q)]
          have hin := @write_inside _ q 0 (ByteMemory.read m (q + 1) n) m (by rwa [length_read])
          exact hin.trans (by simp [ByteMemory.read])
        refine .stops hcut.ret (fun i hi => ?_) (hesc.1 ▸ rfl) ?_
        · rw [hcut.below i (by omega)]
          exact write_below m _ hi
        · rw [hafter]
          rcases hesc.2 with hnext | hnext
          · exact hnext ▸ rfl
          · exact hnext ▸ rfl
      · split at h
        · rename_i hdelim
          cases h
          refine .stops rfl (fun i hi => write_below m _ hi) (hdelim ▸ rfl) ?_
          have hin := @write_inside _ q 0 ([0] : List UInt8) m (by decide)
          exact congrArg isHex hin
        · obtain ⟨hret, hbelow, g, hrun, hafter⟩ := ih h
          have hkept : r.mem q = m q := hbelow q (Nat.lt_succ_self q)
          cases hhex : isHex (m q) with
          | true => exact ⟨hret, fun i hi => hbelow i (by omega), m q :: g, hrun.cons hhex,
              hkept ▸ hafter.cons (hkept ▸ hhex)⟩
          | false =>
            exact .stops hret (fun i hi => hbelow i (by omega)) hhex (hkept ▸ hhex)

theorem plain_digits (h : Holds m a d.digits) {fuel : ℕ} (hfuel : d.digits.length ≤ fuel) :
    ezStrsep fuel m (some a) 58 47 =
      sepLoop 58 47 a (fuel - d.digits.length) m (a + d.digits.length) := by
  have hloop (bs : List UInt8) : ∀ q fuel, bs.length ≤ fuel → Holds m q bs →
      (∀ c ∈ bs, isHex c = true) →
      sepLoop 58 47 a fuel m q = sepLoop 58 47 a (fuel - bs.length) m (q + bs.length) := by
    induction bs with
    | nil => exact fun q fuel _ _ _ => rfl
    | cons c bs ih =>
      intro q fuel hlen hheld hhex
      obtain ⟨hc, hbs⟩ := List.forall_mem_cons.mp hhex
      obtain ⟨hnul, hdelim, hesc⟩ := isHex_plain hc
      obtain ⟨fuel, rfl⟩ : ∃ k, fuel = k + 1 := ⟨fuel - 1, by
        rw [List.length_cons] at hlen
        omega⟩
      have hhead := holds_head hheld
      rw [sepLoop_plain (hhead ▸ hnul) (hhead ▸ hdelim) (hhead ▸ hesc),
        ih (q + 1) fuel (Nat.le_of_succ_le_succ hlen) (holds_next hheld) hbs, List.length_cons,
        Nat.add_sub_add_right, Nat.add_assoc, Nat.add_comm 1]
  rw [← hloop d.digits a fuel hfuel h d.hex]
  refine if_neg ?_
  have hsize := d.size
  cases hd : d.digits with
  | nil => simp [hd] at hsize
  | cons c bs =>
    rw [hd] at h
    rw [holds_head h]
    exact (isHex_plain (d.hex c (hd ▸ List.mem_cons_self))).1

theorem first_digits (h : Holds m a (d.digits ++ [58])) (hfuel : d.digits.length < fuel) :
    ezStrsep fuel m (some a) 58 47 =
        some ⟨write m (a + d.digits.length) [0], some (a + d.digits.length + 1), some a⟩ ∧
      ezAtox (write m (a + d.digits.length) [0]) fuel a 0 = some (d.digits.foldl hexStep 0) := by
  have hcolon := holds_head h.right
  refine ⟨?_, ezAtox_run ⟨h.left.write_after (Nat.le_refl _), d.hex, ?_⟩ hfuel⟩
  · obtain ⟨k, hk⟩ : ∃ k, fuel - d.digits.length = k + 1 := ⟨fuel - d.digits.length - 1, by omega⟩
    rw [plain_digits h.left (Nat.le_of_lt hfuel), hk]
    exact sepLoop_delim (by decide) (by decide) hcolon
  · have hin := @write_inside _ (a + d.digits.length) 0 ([0] : List UInt8) m (by decide)
    exact congrArg isHex hin

theorem last_digits {r : Sep} (h : Holds m a d.digits)
    (hcall : ezStrsep fuel m (some a) 58 47 = some r) (hfuel : d.digits.length ≤ fuel) :
    r.ret = some a ∧ Terminated m (a + d.digits.length) ∧
      ∃ g, HexRun m (a + d.digits.length) g ∧ HexRun r.mem a (d.digits ++ g) := by
  rw [plain_digits h hfuel] at hcall
  obtain ⟨hret, hbelow, g, hrun, hafter⟩ := sepLoop_cut hcall
  have hkept : Holds r.mem a d.digits := h.congr fun i _ hi => hbelow i hi
  exact ⟨hret, sepLoop_terminated hcall, g, hrun, hafter.append hkept d.hex⟩

theorem macLoop_first {left i : ℕ} {mac : List UInt8} (h : Holds m a (d.digits ++ [58]))
    (hfuel : d.digits.length < fuel) :
    macLoop fuel (left + 1) i m (some a) mac =
      macLoop fuel left (i + 1) (write m (a + d.digits.length) [0]) (some (a + d.digits.length + 1))
        (mac.set i d.value) := by
  obtain ⟨hcall, hatox⟩ := first_digits h hfuel
  rw [macLoop, hcall, Option.bind_some]
  simp only [hatox, Option.bind_some]
  rfl

theorem macLoop_last {i : ℕ} {mac : List UInt8} {r : Sep}
    (hcall : ezStrsep fuel m (some a) 58 47 = some r) (hret : r.ret = some a)
    (hrun : HexRun r.mem a (d.digits ++ g)) (hfuel : (d.digits ++ g).length < fuel) :
    macLoop fuel 1 i m (some a) mac = some (mac.set i (hexByte ((d.digits ++ g).rtake 2))) := by
  rw [macLoop, hcall, Option.bind_some]
  simp only [hret, ezAtox_run hrun hfuel, Option.bind_some, hexByte_rtake]
  rfl

theorem HexRun.congr (hsame : ∀ i, t ≤ i → m' i = m i) (h : HexRun m t g) : HexRun m' t g :=
  ⟨h.held.congr fun i hi _ => hsame i hi, h.hex, hsame (t + g.length) (by omega) ▸ h.ends⟩

theorem Terminated.congr (hsame : ∀ i, t ≤ i → m' i = m i) (h : Terminated m t) :
    Terminated m' t := by
  have hat (k : ℕ) : m' (t + k) = m (t + k) := hsame _ (Nat.le_add_right t k)
  rcases h with ⟨k, hk⟩ | ⟨k, hk, hbefore⟩
  · exact .inl ⟨k, (hat k).trans hk⟩
  · refine .inr ⟨k, (hat k).trans hk, fun j hj => ?_⟩
    rw [Nat.add_assoc, hat j, hat (j + 1)]
    exact hbefore j hj

theorem Undisturbed.congr (hsame : ∀ i, t ≤ i → m' i = m i) (h : Undisturbed m t d) :
    Undisturbed m' t d := by
  obtain ⟨hends, g, hrun, hkept⟩ := h
  exact ⟨hends.congr hsame, g, hrun.congr hsame, hkept⟩

def Settles (run : ℕ → Option (List UInt8)) (bytes : List UInt8) : Prop :=
  ∃ least, ∀ fuel, least < fuel → run fuel = some bytes

theorem last_settles {i : ℕ} {mac pre : List UInt8} (h : Holds m a d.digits)
    (hmac : ∀ v, mac.set i v = pre ++ [v]) :
    Settles (fun fuel => macLoop fuel 1 i m (some a) mac) (pre ++ [d.value]) ↔
      Undisturbed m (a + d.digits.length) d := by
  constructor
  · rintro ⟨least, hsettles⟩
    have hcalls {fuel : ℕ} (hfuel : least < fuel) : ∃ r, ezStrsep fuel m (some a) 58 47 = some r := by
      have hrun := hsettles fuel hfuel
      obtain ⟨r, hcall, -⟩ := Option.bind_eq_some_iff.mp hrun
      exact ⟨r, hcall⟩
    obtain ⟨r, hcall⟩ := hcalls (show least < least + d.digits.length + 1 by omega)
    obtain ⟨-, hends, g, hrun, -⟩ := last_digits h hcall (by omega)
    refine ⟨hends, g, hrun, ?_⟩
    have hmore : least < least + (d.digits ++ g).length + 1 := by omega
    obtain ⟨r', hcall'⟩ := hcalls hmore
    obtain ⟨hret, -, g', hrun', hafter⟩ := last_digits h hcall' (by
      rw [List.length_append]
      omega)
    rw [← hrun.unique hrun'] at hafter
    have hset := hsettles _ hmore
    simp only [macLoop_last hcall' hret hafter (by omega), hmac, Option.some.injEq] at hset
    exact (List.cons.inj (List.append_cancel_left hset)).1
  · rintro ⟨hends, g, hrun, hkept⟩
    obtain ⟨least, hloop⟩ := @sepLoop_ends m _ a hends
    refine ⟨least + (d.digits ++ g).length, fun fuel hfuel => ?_⟩
    rw [List.length_append] at hfuel
    obtain ⟨r, hr⟩ := hloop (fuel - d.digits.length) (by omega)
    have hcall := (plain_digits h (show d.digits.length ≤ fuel by omega)).trans hr
    obtain ⟨hret, -, g', hrun', hafter⟩ := last_digits h hcall (by omega)
    rw [← hrun.unique hrun'] at hafter
    have hlast := @macLoop_last m a fuel d g i mac r hcall hret hafter (by
      rw [List.length_append]
      omega)
    dsimp only
    rw [hlast, hmac, hkept]

theorem text_settles {ds : List HexByte} {e : HexByte} {pre suf : List UInt8}
    (h : Holds m a (macText (ds ++ [e]))) (hsuf : suf.length = ds.length + 1) :
    Settles (fun fuel => macLoop fuel (ds.length + 1) pre.length m (some a) (pre ++ suf))
        (pre ++ (ds ++ [e]).map HexByte.value) ↔
      Undisturbed m (a + (macText (ds ++ [e])).length) e := by
  induction ds generalizing m a pre suf with
  | nil =>
    obtain ⟨x, rfl⟩ := List.length_eq_one_iff.mp hsuf
    exact last_settles h fun v => by simp
  | cons d ds ih =>
    obtain ⟨x, suf, rfl⟩ := List.exists_cons_of_length_eq_add_one hsuf
    have hcons : macText (d :: ds ++ [e]) = d.digits ++ 58 :: macText (ds ++ [e]) := by
      cases ds with
      | nil => rfl
      | cons d' ds => rfl
    rw [hcons] at h ⊢
    have hnext := @Holds.write_before _ _ _ _ _ [0] (holds_next h.right) (Nat.le_refl _)
    have hfirst : Holds m a (d.digits ++ [58]) := by
      refine h.restrict ⟨macText (ds ++ [e]), ?_⟩
      rw [List.append_assoc]
      rfl
    have hsize : a + (d.digits ++ 58 :: macText (ds ++ [e])).length =
        a + d.digits.length + 1 + (macText (ds ++ [e])).length := by
      rw [List.length_append, List.length_cons]
      omega
    have hlater := @ih _ _ (pre ++ [d.value]) suf hnext (by simpa using hsuf)
    have hstep {fuel : ℕ} (hfuel : d.digits.length < fuel) :
        macLoop fuel ((d :: ds).length + 1) pre.length m (some a) (pre ++ x :: suf) =
          macLoop fuel (ds.length + 1) (pre ++ [d.value]).length
            (write m (a + d.digits.length) [0]) (some (a + d.digits.length + 1))
            ((pre ++ [d.value]) ++ suf) := by
      rw [List.length_cons, macLoop_first hfirst hfuel]
      simp
    have hbytes : pre ++ (d :: ds ++ [e]).map HexByte.value =
        pre ++ [d.value] ++ (ds ++ [e]).map HexByte.value := by simp
    have hsame : ∀ i, a + d.digits.length + 1 ≤ i → write m (a + d.digits.length) [0] i = m i :=
      fun i hi => write_above m (by simpa using hi)
    rw [hbytes, hsize]
    constructor
    · rintro ⟨least, hsettles⟩
      have hdist := hlater.mp ⟨least + d.digits.length, fun fuel hfuel => by
        dsimp only
        rw [← hstep (by omega)]
        exact hsettles fuel (by omega)⟩
      exact hdist.congr fun i hi => (hsame i (by omega)).symm
    · intro hdist
      obtain ⟨least, hsettles⟩ := hlater.mpr (hdist.congr fun i hi => hsame i (by omega))
      refine ⟨least + d.digits.length, fun fuel hfuel => ?_⟩
      dsimp only
      rw [hstep (by omega)]
      exact hsettles fuel (by omega)

def Converts (m : Mem UInt8) (buf : ℕ) (mac : Vector UInt8 6) (ds : Vector HexByte 6) : Prop :=
  Settles (fun fuel => ezMac2u8 fuel m (some buf) mac.toList (some (macText ds.toList)))
    (ds.toList.map HexByte.value)

theorem converts_written (m : Mem UInt8) (buf : ℕ) (mac : Vector UInt8 6)
    (ds : Vector HexByte 6) :
    Converts m buf mac ds ↔
      Undisturbed (write m buf (macText ds.toList)) (buf + (macText ds.toList).length) ds[5] := by
  have hne : ds.toList ≠ [] := fun hnil => by
    have hlen := congrArg List.length hnil
    rw [Vector.length_toList] at hlen
    exact absurd hlen (by decide)
  have hlast : ds.toList.getLast hne = ds[5] := by simp [List.getLast_eq_getElem]
  have hsplit : ds.toList = ds.toList.dropLast ++ [ds[5]] := by
    rw [← hlast, List.dropLast_concat_getLast]
  have hfive : ds.toList.dropLast.length = 5 := by simp
  have hheld := holds_write m buf (macText ds.toList)
  rw [hsplit] at hheld
  have htext := @text_settles _ _ _ _ [] mac.toList hheld (by simp [hfive])
  rwa [← hsplit, hfive] at htext

theorem mac2u8_law (m : Mem UInt8) (buf : ℕ) (mac : Vector UInt8 6) (ds : Vector HexByte 6) :
    Converts m buf mac ds ↔ Undisturbed m (buf + (macText ds.toList).length) ds[5] := by
  have hsame : ∀ i, buf + (macText ds.toList).length ≤ i →
      write m buf (macText ds.toList) i = m i := fun i hi => write_above m hi
  rw [converts_written]
  exact ⟨fun h => h.congr fun i hi => (hsame i hi).symm, fun h => h.congr hsame⟩

def oneDigit (c : UInt8) (hc : isHex c = true) : HexByte :=
  ⟨[c], fun x hx => by rwa [List.mem_singleton.mp hx], .inl rfl⟩

def digitA : HexByte := oneDigit 0x61 rfl

theorem stale_digit_joins_last_byte :
    ¬ ∀ m buf mac ds, Converts m buf mac ds := by
  intro h
  have hdist := (converts_written (write (fun _ => 0) 11 [0x35]) 0 (Vector.replicate 6 0)
    (Vector.replicate 6 digitA)).mp (h _ _ _ _)
  obtain ⟨g, hrun, hkept⟩ := hdist.kept
  have hfive : HexRun (write (write (fun _ => 0) 11 [0x35]) 0
      (macText (Vector.replicate 6 digitA).toList)) 11 [0x35] :=
    ⟨by unfold Holds; decide, fun x hx => by rw [List.mem_singleton.mp hx]; rfl, rfl⟩
  rw [hrun.unique hfive] at hkept
  exact absurd hkept (by decide)

end Ez
