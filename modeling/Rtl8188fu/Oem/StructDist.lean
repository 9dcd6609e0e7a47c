import Mathlib.Data.UInt
import Mathlib.Data.List.Basic
import Mathlib.Tactic.Common
import Rtl8188fu.Lib.EditDistance

namespace Oem

abbrev Word := BitVec 32

-- _struct.unpack_from('<I', b, i) at every i of range(0, len(b) - 3, 4)
def instrs : List UInt8 → List Word
  | b0 :: b1 :: b2 :: b3 :: rest =>
    BitVec.ofNat 32 (b0.toNat + 256 * (b1.toNat + 256 * (b2.toNat + 256 * b3.toNat))) ::
      instrs rest
  | _ => []

def regmask (w : Word) : Word :=
  let cls := (w >>> 26) &&& 3#32
  if cls = 0 then
    let w := w &&& ~~~0x000FF000#32
    if (w >>> 25) &&& 1#32 = 0 then
      let w := w &&& ~~~0x0000000F#32
      if (w >>> 4) &&& 1#32 ≠ 0 then w &&& ~~~0x00000F00#32 else w
    else w
  else if cls = 1 then
    let w := w &&& ~~~0x000FF000#32
    if (w >>> 25) &&& 1#32 ≠ 0 then w &&& ~~~0x0000000F#32 else w
  else if (w >>> 25) &&& 7#32 = 4 then w &&& ~~~0x000F0000#32
  else w

def words (b : List UInt8) : List Word := (instrs b).map regmask

section Table

variable {W : Type} [DecidableEq W]

def cost (x y : W) : ℕ := if x = y then 0 else 1

def fillRow (x : W) : ℕ → ℕ → List ℕ → List W → List ℕ
  | left, diag, up :: ups, y :: ys =>
    let c := min (min (up + 1) (left + 1)) (diag + cost x y)
    c :: fillRow x c up ups ys
  | _, _, _, _ => []

def nextRow (i : ℕ) (x : W) (prev : List ℕ) (b : List W) : List ℕ :=
  match prev with
  | diag :: ups => i :: fillRow x i diag ups b
  | [] => [i]

def rowsFrom (b : List W) : ℕ → List ℕ → List W → List (List ℕ)
  | _, prev, [] => [prev]
  | i, prev, x :: a => prev :: rowsFrom b (i + 1) (nextRow i x prev b) a

-- lab.py keeps the last row only
def lastRow (b : List W) : ℕ → List ℕ → List W → List ℕ
  | _, prev, [] => prev
  | i, prev, x :: a => lastRow b (i + 1) (nextRow i x prev b) a

def cell (a b : List W) (i j : ℕ) : ℕ :=
  ((rowsFrom b 1 (List.range (b.length + 1)) a).getD i []).getD j 0

def stepCost (a b : List W) (i j : ℕ) : ℕ := if a[i]? = b[j]? then 0 else 1

abbrev Pair := Option ℕ × Option ℕ

-- the path grows backwards; none where j would go below 0
def walkBack (a b : List W) : ℕ → ℕ → Option (List Pair)
  | 0, 0 => some []
  | 0, j + 1 => (walkBack a b 0 j).map ((none, some j) :: ·)
  | i + 1, 0 =>
    if cell a b (i + 1) 0 = cell a b i 0 + 1 then (walkBack a b i 0).map ((some i, none) :: ·)
    else none
  | i + 1, j + 1 =>
    if cell a b (i + 1) (j + 1) = cell a b i j + stepCost a b i j then
      (walkBack a b i j).map ((some i, some j) :: ·)
    else if cell a b (i + 1) (j + 1) = cell a b i (j + 1) + 1 then
      (walkBack a b i (j + 1)).map ((some i, none) :: ·)
    else (walkBack a b (i + 1) j).map ((none, some j) :: ·)
termination_by i j => i + j

end Table

def structdist (sb ob : List UInt8) : ℕ :=
  let a := words sb
  let b := words ob
  (lastRow b 1 (List.range (b.length + 1)) a).getD b.length 0

def alignment (sb ob : List UInt8) : Option (List Pair) :=
  let a := words sb
  let b := words ob
  (walkBack a b a.length b.length).map List.reverse

end Oem

namespace Oem

open EditDistance (dist dist_cons_cons dist_nil_left dist_nil_right mismatch Edits)

section Rows

variable {W : Type} [DecidableEq W]

def specRow (p : List W) : List W → List W → List ℕ
  | _, [] => []
  | q, y :: ys => dist p (y :: q) :: specRow p (y :: q) ys

def distRow (p b : List W) : List ℕ := dist p [] :: specRow p [] b

variable {p q ys a b : List W} {i j : ℕ}

theorem specRow_nil (q ys : List W) : specRow [] q ys = List.range' (q.length + 1) ys.length := by
  induction ys generalizing q with
  | nil => rfl
  | cons y ys ih =>
    rw [specRow, ih, dist_nil_left]
    simp only [List.length_cons]
    rfl

theorem range_eq_distRow (b : List W) : List.range (b.length + 1) = distRow [] b := by
  rw [distRow, specRow_nil, dist_nil_left, List.range_eq_range', List.range'_succ]
  rfl

theorem fillRow_specRow (x : W) (p q ys : List W) :
    fillRow x (dist (x :: p) q) (dist p q) (specRow p q ys) ys = specRow (x :: p) q ys := by
  induction ys generalizing q with
  | nil => rfl
  | cons y ys ih =>
    have hnext : min (min (dist p (y :: q) + 1) (dist (x :: p) q + 1)) (dist p q + cost x y) =
        dist (x :: p) (y :: q) := dist_cons_cons.symm
    rw [specRow, fillRow]
    rw [hnext, ih, specRow]

theorem nextRow_distRow (x : W) (p b : List W) :
    nextRow (p.length + 1) x (distRow p b) b = distRow (x :: p) b := by
  have hleft : p.length + 1 = dist (x :: p) [] := (dist_nil_right (x :: p)).symm
  rw [distRow, nextRow, hleft, fillRow_specRow]
  rfl

theorem lastRow_distRow (a p b : List W) :
    lastRow b (p.length + 1) (distRow p b) a = distRow (a.reverse ++ p) b := by
  induction a generalizing p with
  | nil => rfl
  | cons x a ih =>
    rw [lastRow, nextRow_distRow, List.reverse_cons, List.append_assoc]
    exact ih (x :: p)

theorem rowsFrom_distRow (a p b : List W) (hi : i ≤ a.length) :
    (rowsFrom b (p.length + 1) (distRow p b) a)[i]? = some (distRow ((a.take i).reverse ++ p) b) := by
  induction a generalizing p i with
  | nil =>
    obtain rfl := Nat.le_zero.mp hi
    rfl
  | cons x a ih =>
    cases i with
    | zero => rfl
    | succ i =>
      rw [rowsFrom, nextRow_distRow, List.getElem?_cons_succ, List.take_succ_cons,
        List.reverse_cons, List.append_assoc]
      exact ih (x :: p) (Nat.le_of_succ_le_succ hi)

theorem specRow_getElem (p q ys : List W) (hj : j ≤ ys.length) :
    (dist p q :: specRow p q ys)[j]? = some (dist p ((ys.take j).reverse ++ q)) := by
  induction ys generalizing q j with
  | nil =>
    obtain rfl := Nat.le_zero.mp hj
    rfl
  | cons y ys ih =>
    cases j with
    | zero => rfl
    | succ j =>
      rw [specRow, List.getElem?_cons_succ, List.take_succ_cons, List.reverse_cons,
        List.append_assoc]
      exact ih (y :: q) (Nat.le_of_succ_le_succ hj)

theorem distRow_getD (p b : List W) (hj : j ≤ b.length) :
    (distRow p b).getD j 0 = dist p (b.take j).reverse := by
  rw [List.getD_eq_getElem?_getD, distRow, specRow_getElem p [] b hj, List.append_nil]
  rfl

theorem cell_eq (hi : i ≤ a.length) (hj : j ≤ b.length) :
    cell a b i j = dist (a.take i).reverse (b.take j).reverse := by
  have hrow := rowsFrom_distRow a [] b hi
  rw [List.length_nil, Nat.zero_add, List.append_nil] at hrow
  have hget : (rowsFrom b 1 (distRow [] b) a).getD i [] = distRow (a.take i).reverse b := by
    rw [List.getD_eq_getElem?_getD, hrow]
    rfl
  rw [cell, range_eq_distRow, hget]
  exact distRow_getD _ b hj

omit [DecidableEq W] in
theorem take_reverse_succ (hi : i < a.length) :
    (a.take (i + 1)).reverse = a[i] :: (a.take i).reverse := by
  rw [List.take_succ_eq_append_getElem hi, List.reverse_concat]

theorem cell_zero_right (hi : i ≤ a.length) : cell a b i 0 = i := by
  rw [cell_eq hi (Nat.zero_le _), List.take_zero, List.reverse_nil, dist_nil_right,
    List.length_reverse, List.length_take, Nat.min_eq_left hi]

theorem cell_zero_left (hj : j ≤ b.length) : cell a b 0 j = j := by
  rw [cell_eq (Nat.zero_le _) hj, List.take_zero, List.reverse_nil, dist_nil_left,
    List.length_reverse, List.length_take, Nat.min_eq_left hj]

def pairCost (a b : List W) : Pair → ℕ
  | (some i, some j) => stepCost a b i j
  | _ => 1

theorem cell_succ (hi : i < a.length) (hj : j < b.length) :
    cell a b (i + 1) (j + 1) =
      min (min (cell a b i (j + 1) + 1) (cell a b (i + 1) j + 1))
        (cell a b i j + pairCost a b (some i, some j)) := by
  have hcost : pairCost a b (some i, some j) = mismatch a[i] b[j] := by
    rw [pairCost, stepCost, mismatch, List.getElem?_eq_getElem hi, List.getElem?_eq_getElem hj]
    simp only [Option.some_inj]
  rw [cell_eq hi hj, cell_eq (Nat.le_of_lt hi) hj, cell_eq hi (Nat.le_of_lt hj),
    cell_eq (Nat.le_of_lt hi) (Nat.le_of_lt hj), hcost, take_reverse_succ hi,
    take_reverse_succ hj, dist_cons_cons]

end Rows

section Traceback

variable {W : Type} [DecidableEq W] {a b : List W} {i j : ℕ}

structure Aligns (a b : List W) (i j : ℕ) (path : List Pair) : Prop where
  costs : (path.map (pairCost a b)).sum = cell a b i j
  left : path.reverse.filterMap Prod.fst = List.range i
  right : path.reverse.filterMap Prod.snd = List.range j

theorem Aligns.both {path : List Pair} (h : Aligns a b i j path)
    (hcell : cell a b (i + 1) (j + 1) = cell a b i j + pairCost a b (some i, some j)) :
    Aligns a b (i + 1) (j + 1) ((some i, some j) :: path) where
  costs := by
    rw [List.map_cons, List.sum_cons, h.costs, hcell, Nat.add_comm]
  left := by
    rw [List.reverse_cons, List.filterMap_append, h.left, List.range_succ]
    rfl
  right := by
    rw [List.reverse_cons, List.filterMap_append, h.right, List.range_succ]
    rfl

theorem Aligns.deleted {path : List Pair} (h : Aligns a b i j path)
    (hcell : cell a b (i + 1) j = cell a b i j + 1) :
    Aligns a b (i + 1) j ((some i, none) :: path) where
  costs := by
    rw [List.map_cons, List.sum_cons, h.costs, hcell, pairCost, Nat.add_comm]
    exact fun _ _ hpair => by simp at hpair
  left := by
    rw [List.reverse_cons, List.filterMap_append, h.left, List.range_succ]
    rfl
  right := by
    rw [List.reverse_cons, List.filterMap_append, h.right]
    exact List.append_nil _

theorem Aligns.inserted {path : List Pair} (h : Aligns a b i j path)
    (hcell : cell a b i (j + 1) = cell a b i j + 1) :
    Aligns a b i (j + 1) ((none, some j) :: path) where
  costs := by
    rw [List.map_cons, List.sum_cons, h.costs, hcell, pairCost, Nat.add_comm]
    exact fun _ _ hpair => by simp at hpair
  left := by
    rw [List.reverse_cons, List.filterMap_append, h.left]
    exact List.append_nil _
  right := by
    rw [List.reverse_cons, List.filterMap_append, h.right, List.range_succ]
    rfl

theorem walkBack_aligns (hi : i ≤ a.length) (hj : j ≤ b.length) :
    ∃ path, walkBack a b i j = some path ∧ Aligns a b i j path := by
  induction hn : i + j using Nat.strongRecOn generalizing i j with
  | ind n ih =>
    cases i with
    | zero =>
      cases j with
      | zero =>
        refine ⟨[], by rw [walkBack], ?_, rfl, rfl⟩
        exact (cell_zero_left hj).symm
      | succ j =>
        obtain ⟨path, hpath, haligns⟩ := ih j (by omega) hi (by omega) (Nat.zero_add j)
        refine ⟨_, by rw [walkBack, hpath]; rfl, haligns.inserted ?_⟩
        rw [cell_zero_left hj, cell_zero_left (Nat.le_of_succ_le hj)]
    | succ i =>
      cases j with
      | zero =>
        have hcell : cell a b (i + 1) 0 = cell a b i 0 + 1 := by
          rw [cell_zero_right hi, cell_zero_right (Nat.le_of_succ_le hi)]
        obtain ⟨path, hpath, haligns⟩ := ih i (by omega) (by omega) hj (Nat.add_zero i)
        exact ⟨_, by rw [walkBack, if_pos hcell, hpath]; rfl, haligns.deleted hcell⟩
      | succ j =>
        have hsucc := cell_succ (a := a) (b := b) (i := i) (j := j) hi hj
        rw [walkBack]
        split
        · rename_i hcell
          obtain ⟨path, hpath, haligns⟩ := ih (i + j) (by omega) (by omega) (by omega) rfl
          exact ⟨_, by rw [hpath]; rfl, haligns.both hcell⟩
        · rename_i hboth
          have hboth' : cell a b (i + 1) (j + 1) ≠
              cell a b i j + pairCost a b (some i, some j) := hboth
          split
          · rename_i hcell
            obtain ⟨path, hpath, haligns⟩ :=
              ih (i + (j + 1)) (by omega) (by omega) hj rfl
            exact ⟨_, by rw [hpath]; rfl, haligns.deleted hcell⟩
          · rename_i hdel
            have hcell : cell a b (i + 1) (j + 1) = cell a b (i + 1) j + 1 := by omega
            obtain ⟨path, hpath, haligns⟩ := ih (i + 1 + j) (by omega) hi (by omega) rfl
            exact ⟨_, by rw [hpath]; rfl, haligns.inserted hcell⟩

end Traceback

section Distance

variable {sb ob : List UInt8}

theorem structdist_eq (sb ob : List UInt8) :
    structdist sb ob = dist (words sb).reverse (words ob).reverse := by
  have hlast := lastRow_distRow (words sb) [] (words ob)
  rw [List.length_nil, Nat.zero_add, List.append_nil] at hlast
  rw [structdist, range_eq_distRow]
  rw [hlast, distRow_getD _ _ (Nat.le_refl _), List.take_length]

theorem structdist_isLeast (sb ob : List UInt8) :
    IsLeast {n | Edits n (words sb) (words ob)} (structdist sb ob) := by
  rw [structdist_eq]
  exact EditDistance.dist_reverse_isLeast _ _

theorem structdist_zero_iff : structdist sb ob = 0 ↔ words sb = words ob := by
  rw [structdist_eq, EditDistance.dist_eq_zero_iff, List.reverse_inj]

structure Traced (sb ob : List UInt8) (path : List Pair) : Prop where
  costs : (path.map (pairCost (words sb) (words ob))).sum = structdist sb ob
  left : path.filterMap Prod.fst = List.range (words sb).length
  right : path.filterMap Prod.snd = List.range (words ob).length

theorem alignment_traced (sb ob : List UInt8) :
    ∃ path, alignment sb ob = some path ∧ Traced sb ob path := by
  obtain ⟨path, hpath, haligns⟩ :=
    walkBack_aligns (Nat.le_refl (words sb).length) (Nat.le_refl (words ob).length)
  refine ⟨path.reverse, ?_, ?_, haligns.left, haligns.right⟩
  · rw [alignment, hpath]
    rfl
  · rw [List.map_reverse, List.sum_reverse, haligns.costs, cell_eq (Nat.le_refl _) (Nat.le_refl _),
      List.take_length, List.take_length, structdist_eq]

end Distance

end Oem
