import Mathlib.Data.List.Basic
import Mathlib.Tactic.Common

namespace ByteMemory

abbrev Mem (B : Type) := ℕ → B

variable {B : Type} {m : Mem B} {a b i n : ℕ} {x : B} {bs cs : List B}

def read (m : Mem B) (a n : ℕ) : List B := (List.range n).map fun i => m (a + i)

def write (m : Mem B) (a : ℕ) (bs : List B) : Mem B :=
  fun i => if a ≤ i then (bs[i - a]?).getD (m i) else m i

def modify (m : Mem B) (a : ℕ) (f : B → B) : Mem B := write m a [f (m a)]

def sweep (f : ℕ → B → B) (a n : ℕ) (m : Mem B) : Mem B :=
  (List.range n).foldl (fun m i => modify m (a + i) (f i)) m

def Holds (m : Mem B) (a : ℕ) (bs : List B) : Prop := ∀ i (h : i < bs.length), m (a + i) = bs[i]

@[simp] theorem length_read (m : Mem B) (a n : ℕ) : (read m a n).length = n := by simp [read]

theorem getElem_read (m : Mem B) (a n : ℕ) (h : i < (read m a n).length) :
    (read m a n)[i] = m (a + i) := by
  simp [read]

theorem read_congr {m' : Mem B} (hsame : ∀ i, a ≤ i → i < a + n → m' i = m i) :
    read m' a n = read m a n := by
  refine List.map_congr_left fun i hi => ?_
  exact hsame _ (Nat.le_add_right _ _) (Nat.add_lt_add_left (List.mem_range.mp hi) _)

theorem read_inj {m' : Mem B} (h : read m' a n = read m a n) (ha : a ≤ i) (hi : i < a + n) :
    m' i = m i := by
  obtain ⟨j, rfl⟩ := Nat.exists_eq_add_of_le ha
  exact List.map_inj_left.mp h j (List.mem_range.mpr (by omega))

theorem read_add (m : Mem B) (a n k : ℕ) : read m a (n + k) = read m a n ++ read m (a + n) k := by
  simp only [read, List.range_add, List.map_append, List.map_map]
  refine congrArg _ (List.map_congr_left fun i _ => ?_)
  simp [Nat.add_assoc]

theorem drop_read (m : Mem B) (a n k : ℕ) : (read m a (n + k)).drop n = read m (a + n) k := by
  rw [read_add, List.drop_left' (length_read m a n)]

theorem read_zero (m : Mem B) (a : ℕ) : read m a 0 = [] := rfl

theorem read_succ (m : Mem B) (a n : ℕ) : read m a (n + 1) = m a :: read m (a + 1) n := by
  have hadd := read_add m a 1 n
  rw [Nat.add_comm] at hadd
  rw [hadd]
  rfl

theorem drop_read_sub (m : Mem B) (a : ℕ) {n k : ℕ} (hk : k ≤ n) :
    (read m a n).drop k = read m (a + k) (n - k) := by
  have hsplit : n = k + (n - k) := by omega
  rw [hsplit, drop_read, Nat.add_sub_cancel_left]

theorem drop_read_nil (m : Mem B) (a : ℕ) {n k : ℕ} (hk : n ≤ k) : (read m a n).drop k = [] :=
  List.drop_eq_nil_of_le (by rw [length_read]; exact hk)

theorem getD_read (m : Mem B) (a : ℕ) (b : B) {n i : ℕ} (hi : i < n) :
    (read m a n).getD i b = m (a + i) := by
  have hlt : i < (read m a n).length := by
    rw [length_read]
    exact hi
  rw [List.getD_eq_getElem?_getD, List.getElem?_eq_getElem hlt, getElem_read]
  rfl

theorem slice_read (m : Mem B) (a : ℕ) {i n k : ℕ} (h : i + k ≤ n) :
    ((read m a n).drop i).take k = read m (a + i) k := by
  obtain ⟨j, rfl⟩ : ∃ j, n = i + (k + j) := ⟨n - i - k, by omega⟩
  rw [drop_read, read_add, List.take_left' (length_read m (a + i) k)]

theorem write_below (m : Mem B) (bs : List B) (h : i < a) : write m a bs i = m i := by
  rw [write, if_neg (by omega)]

theorem write_above (m : Mem B) (h : a + bs.length ≤ i) : write m a bs i = m i := by
  rw [write, if_pos (by omega), List.getElem?_eq_none (by omega), Option.getD_none]

theorem write_inside (m : Mem B) (h : i < bs.length) : write m a bs (a + i) = bs[i] := by
  simp [write, h]

theorem write_pair (m : Mem B) (a : ℕ) (x y : B) (i : ℕ) :
    write m a [x, y] i = if i = a then x else if i = a + 1 then y else m i := by
  rcases Nat.lt_trichotomy i a with hlt | rfl | hgt
  · rw [write_below m _ hlt, if_neg (by omega), if_neg (by omega)]
  · rw [if_pos rfl]
    exact @write_inside _ i 0 [x, y] m (by simp)
  · rw [if_neg (by omega)]
    cases Decidable.em (i = a + 1) with
    | inl heq =>
      subst heq
      rw [if_pos rfl]
      exact @write_inside _ a 1 [x, y] m (by simp)
    | inr hne => rw [if_neg hne, write_above m (by simp; omega)]

theorem write_pair_again (m : Mem B) (a : ℕ) (x y x' y' : B) :
    write (write m a [x, y]) a [x', y'] = write m a [x', y'] := by
  funext i
  rw [write_pair, write_pair, write_pair]
  split
  · rfl
  · split
    · rfl
    · rfl

theorem modify_ne (m : Mem B) (f : B → B) (h : i ≠ a) : modify m a f i = m i := by
  rcases Nat.lt_or_gt_of_ne h with hlt | hgt
  · exact write_below m _ hlt
  · exact write_above m (by simpa using Nat.succ_le_of_lt hgt)

theorem modify_self (m : Mem B) (f : B → B) : modify m a f a = f (m a) := by
  rw [modify, write, if_pos (Nat.le_refl a), Nat.sub_self]
  rfl

theorem sweep_succ (f : ℕ → B → B) (a n : ℕ) (m : Mem B) :
    sweep f a (n + 1) m = modify (sweep f a n m) (a + n) (f n) := by
  rw [sweep, List.range_succ, List.foldl_append, List.foldl_cons, List.foldl_nil, sweep]

theorem sweep_outside (f : ℕ → B → B) (m : Mem B) (h : i < a ∨ a + n ≤ i) :
    sweep f a n m i = m i := by
  induction n with
  | zero => rfl
  | succ n ih =>
    rw [sweep_succ, modify_ne _ _ (by omega)]
    exact ih (by omega)

theorem sweep_inside (f : ℕ → B → B) (m : Mem B) (h : i < n) :
    sweep f a n m (a + i) = f i (m (a + i)) := by
  induction n with
  | zero => exact absurd h (Nat.not_lt_zero i)
  | succ n ih =>
    rw [sweep_succ]
    rcases Nat.lt_succ_iff_lt_or_eq.mp h with hlt | rfl
    · rw [modify_ne _ _ (by omega)]
      exact ih hlt
    · rw [modify_self, sweep_outside f m (.inr (Nat.le_refl _))]

theorem holds_write (m : Mem B) (a : ℕ) (bs : List B) : Holds (write m a bs) a bs :=
  fun _ h => write_inside m h

namespace Holds

theorem read (h : Holds m a bs) : read m a bs.length = bs := by
  refine List.ext_getElem (by simp) fun i hi hb => ?_
  simpa [ByteMemory.read] using h i hb

theorem read_eq (h : Holds m a bs) (hn : n = bs.length) : ByteMemory.read m a n = bs := by
  subst hn
  exact h.read

theorem of_read (h : ByteMemory.read m a bs.length = bs) : Holds m a bs := by
  intro i hi
  have hget := List.getElem_of_eq h (i := i) (by simpa using hi)
  simpa [ByteMemory.read] using hget

theorem congr {m' : Mem B} (h : Holds m a bs)
    (hsame : ∀ i, a ≤ i → i < a + bs.length → m' i = m i) : Holds m' a bs := by
  intro i hi
  rw [hsame (a + i) (by omega) (by omega)]
  exact h i hi

theorem append (h : Holds m a bs) (h' : Holds m (a + bs.length) cs) : Holds m a (bs ++ cs) := by
  intro i hi
  cases Decidable.em (i < bs.length) with
  | inl hlt =>
    rw [List.getElem_append_left hlt]
    exact h i hlt
  | inr hlt =>
    rw [List.getElem_append_right (by omega), ← h' (i - bs.length) (by
      rw [List.length_append] at hi
      omega)]
    exact congrArg m (by omega)

theorem left (h : Holds m a (bs ++ cs)) : Holds m a bs := by
  intro i hi
  rw [h i (by simp; omega), List.getElem_append_left hi]

theorem right (h : Holds m a (bs ++ cs)) : Holds m (a + bs.length) cs := by
  intro i hi
  rw [Nat.add_assoc, h (bs.length + i) (by simp; omega), List.getElem_append_right (by omega)]
  simp

theorem take (h : Holds m a bs) (n : ℕ) : Holds m a (bs.take n) := by
  refine @Holds.left _ _ _ _ (bs.drop n) ?_
  rwa [List.take_append_drop]

theorem drop (h : Holds m a bs) (hn : n ≤ bs.length) : Holds m (a + n) (bs.drop n) := by
  have hsplit : Holds m a (bs.take n ++ bs.drop n) := by rwa [List.take_append_drop]
  simpa [hn] using hsplit.right

theorem restrict (h : Holds m a bs) (hcs : cs <+: bs) : Holds m a cs := by
  obtain ⟨ds, rfl⟩ := hcs
  exact h.left

theorem prefix_iff (h : Holds m a bs) (hlen : cs.length ≤ bs.length) :
    Holds m a cs ↔ cs <+: bs := by
  refine ⟨fun hcs => ?_, h.restrict⟩
  refine List.prefix_iff_eq_take.mpr (List.ext_getElem ?_ fun i hi hi' => ?_)
  · rw [List.length_take, Nat.min_eq_left hlen]
  · rw [List.getElem_take, ← hcs i hi, h i (by omega)]

theorem slice (h : Holds m a bs) (hi : i + n ≤ bs.length) :
    ByteMemory.read m (a + i) n = (bs.drop i).take n :=
  ((h.drop (Nat.le_of_add_right_le hi)).take n).read_eq (by
    rw [List.length_take, List.length_drop]
    omega)

theorem write_before (h : Holds m a bs) (hb : b + cs.length ≤ a) : Holds (write m b cs) a bs := by
  intro i hi
  rw [write_above m (by omega)]
  exact h i hi

theorem write_after (h : Holds m a bs) (hb : a + bs.length ≤ b) : Holds (write m b cs) a bs := by
  intro i hi
  rw [write_below m cs (by omega)]
  exact h i hi

theorem write_within (h : Holds m a bs) (hi : i < bs.length) :
    Holds (write m (a + i) [x]) a (bs.set i x) := by
  intro j hj
  rw [List.length_set] at hj
  rcases Nat.lt_trichotomy j i with hlt | rfl | hgt
  · rw [write_below m [x] (by omega), h j hj, List.getElem_set_ne (by omega)]
  · rw [List.getElem_set_self]
    exact @write_inside _ (a + j) 0 ([x]) m (by simp)
  · rw [write_above m (by simp; omega), h j hj, List.getElem_set_ne (by omega)]

theorem modify_within (h : Holds m a bs) (hi : i < bs.length) (f : B → B) :
    Holds (modify m (a + i) f) a (bs.set i (f bs[i])) := by
  have hset := h.write_within hi (x := f bs[i])
  rwa [modify, h i hi]

theorem write_end (h : Holds m a bs) (hb : b = a + bs.length) : Holds (write m b cs) a (bs ++ cs) := by
  subst hb
  exact (h.write_after (Nat.le_refl _)).append (holds_write m _ cs)

theorem write_over {ds e : List B} (h : Holds m a (bs ++ (cs ++ ds))) (hlen : e.length = cs.length) :
    Holds (write m (a + bs.length) e) a (bs ++ (e ++ ds)) := by
  have hright : Holds m (a + bs.length + e.length) ds := by
    rw [hlen]
    exact h.right.right
  refine (h.left.write_after (Nat.le_refl _)).append ?_
  exact (holds_write m _ e).append (hright.write_before (Nat.le_refl _))

end Holds

end ByteMemory
