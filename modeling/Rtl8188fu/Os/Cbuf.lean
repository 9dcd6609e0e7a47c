import Mathlib.Data.Nat.ModEq
import Rtl8188fu.Lib.BoundedFifo
import Rtl8188fu.Lib.Run

namespace Os

open BoundedFifo (Op Outcome History)

variable {A : Type}

structure Cbuf (A : Type) where
  write : ℕ
  read : ℕ
  size : ℕ
  bufs : ℕ → A

namespace Cbuf

variable (cbuf : Cbuf A)

def rtwCbufAlloc (size : ℕ) (garbage : ℕ → A) : Cbuf A := ⟨0, 0, size, garbage⟩

-- write and read are u32, and so is read - 1
def rtwCbufFull : Bool := cbuf.write == (cbuf.read + (2 ^ 32 - 1)) % 2 ^ 32

def rtwCbufEmpty : Bool := cbuf.write == cbuf.read

def rtwCbufPush (buf : A) : Outcome A × Cbuf A :=
  if cbuf.rtwCbufFull then (.full, cbuf)
  else
    (.pushed,
      { cbuf with
        bufs := fun i => if i = cbuf.write then buf else cbuf.bufs i
        write := (cbuf.write + 1) % 2 ^ 32 % cbuf.size })

def rtwCbufPop : Outcome A × Cbuf A :=
  if cbuf.rtwCbufEmpty then (.empty, cbuf)
  else (.popped (cbuf.bufs cbuf.read), { cbuf with read := (cbuf.read + 1) % 2 ^ 32 % cbuf.size })

def apply : Op A → Outcome A × Cbuf A
  | .push buf => cbuf.rtwCbufPush buf
  | .pop => cbuf.rtwCbufPop

end Cbuf

structure Observed (A : Type) where
  cbuf : Cbuf A
  history : History A

def observe (s : Observed A) (op : Op A) : Observed A :=
  ⟨(s.cbuf.apply op).2, s.history.record op (s.cbuf.apply op).1⟩

def observeStart (size : ℕ) (garbage : ℕ → A) : Observed A :=
  ⟨.rtwCbufAlloc size garbage, ⟨[], []⟩⟩

def FifoStep (cap : ℕ) (s : Observed A) (op : Op A) : Prop :=
  s.history.Allows cap op (s.cbuf.apply op).1

instance [DecidableEq A] (cap : ℕ) (s : Observed A) (op : Op A) : Decidable (FifoStep cap s op) :=
  inferInstanceAs (Decidable (s.history.Allows cap op (s.cbuf.apply op).1))

def Wrapped (size : ℕ) (h : History A) : Prop :=
  h.popped.length % size = 0 ∧ h.pending = size - 1

def ClearStep (size : ℕ) (s : Observed A) (op : Op A) : Prop :=
  (∃ buf, op = .push buf) → ¬ Wrapped size s.history

structure Mirrors (size : ℕ) (s : Observed A) : Prop where
  inOrder : s.history.InOrder (size - 1)
  sizeEq : s.cbuf.size = size
  writeEq : s.cbuf.write = s.history.pushed.length % size
  readEq : s.cbuf.read = s.history.popped.length % size
  held : ∀ i, s.history.popped.length ≤ i → ∀ a, s.history.pushed[i]? = some a →
    s.cbuf.bufs (i % size) = a

section Indices

variable {size p q : ℕ}

theorem mod_eq_of_near (hle : p ≤ q) (hnear : q - p < size)
    (h : q % size = p % size) : q = p := by
  have hdvd : size ∣ q - p := (Nat.modEq_iff_dvd' hle).mp h.symm
  have hzero : q - p = 0 := Nat.eq_zero_of_dvd_of_lt hdvd hnear
  omega

theorem succ_mod_eq (hsize : 0 < size) (hle : p ≤ q) (hnear : q - p < size) :
    (q % size + 1) % size = p % size ↔ q - p = size - 1 := by
  rw [Nat.mod_add_mod]
  constructor
  · intro h
    have hdvd : size ∣ q + 1 - p := (Nat.modEq_iff_dvd' (by omega)).mp h.symm
    have hpos : 0 < q + 1 - p := by omega
    have hge := Nat.le_of_dvd hpos hdvd
    omega
  · intro h
    have hq : q + 1 = p + size := by omega
    rw [hq, Nat.add_mod_right]

theorem pred_eq_iff (hsize : 2 ≤ size) (h32 : size < 2 ^ 32) (w r : ℕ) (hw : w < size)
    (hr : r < size) :
    w = (r + (2 ^ 32 - 1)) % 2 ^ 32 ↔ (w + 1) % size = r ∧ r ≠ 0 := by
  cases r with
  | zero =>
    have hmax : (0 + (2 ^ 32 - 1)) % 2 ^ 32 = 2 ^ 32 - 1 := by decide
    rw [hmax]
    constructor
    · intro h
      omega
    · exact fun h => absurd rfl h.2
  | succ r =>
    have hpred : (r + 1 + (2 ^ 32 - 1)) % 2 ^ 32 = r := by omega
    rw [hpred]
    constructor
    · rintro rfl
      exact ⟨Nat.mod_eq_of_lt hr, Nat.succ_ne_zero _⟩
    · rintro ⟨h, -⟩
      cases Nat.lt_or_eq_of_le (Nat.succ_le_of_lt hw) with
      | inl hlt =>
        rw [Nat.mod_eq_of_lt hlt] at h
        omega
      | inr heq =>
        rw [← heq, Nat.succ_eq_add_one, Nat.mod_self] at h
        omega

theorem u32_succ {w : ℕ} (h32 : size < 2 ^ 32) (hw : w < size) :
    (w + 1) % 2 ^ 32 % size = (w + 1) % size := by
  rw [Nat.mod_eq_of_lt (show w + 1 < 2 ^ 32 by omega)]

end Indices

namespace Mirrors

variable {size : ℕ} {s : Observed A}

theorem start (garbage : ℕ → A) : Mirrors size (observeStart size garbage) where
  inOrder := ⟨List.prefix_refl _, Nat.zero_le _⟩
  sizeEq := rfl
  writeEq := (Nat.zero_mod size).symm
  readEq := (Nat.zero_mod size).symm
  held _ _ a h := absurd h (Option.some_ne_none a).symm

theorem near (h : Mirrors size s) (hsize : 2 ≤ size) :
    s.history.pushed.length - s.history.popped.length < size := by
  have hbounded := h.inOrder.bounded
  rw [History.pending] at hbounded
  omega

theorem empty_iff (h : Mirrors size s) (hsize : 2 ≤ size) :
    s.cbuf.rtwCbufEmpty = true ↔ s.history.pending = 0 := by
  have hlen := BoundedFifo.pushed_length h.inOrder
  rw [Cbuf.rtwCbufEmpty, beq_iff_eq, h.writeEq, h.readEq]
  constructor
  · intro heq
    have hsame := mod_eq_of_near h.inOrder.order.length_le (h.near hsize) heq
    omega
  · intro hzero
    rw [hlen, hzero, Nat.add_zero]

theorem full_iff (h : Mirrors size s) (hsize : 2 ≤ size) (h32 : size < 2 ^ 32) :
    s.cbuf.rtwCbufFull = true ↔
      s.history.pending = size - 1 ∧ s.history.popped.length % size ≠ 0 := by
  have hpos : 0 < size := by omega
  rw [Cbuf.rtwCbufFull, beq_iff_eq, h.writeEq, h.readEq,
    pred_eq_iff hsize h32 _ _ (Nat.mod_lt _ hpos) (Nat.mod_lt _ hpos),
    succ_mod_eq hpos h.inOrder.order.length_le (h.near hsize), History.pending]

theorem head_held (h : Mirrors size s) (hpending : s.history.pending ≠ 0) :
    s.history.pushed[s.history.popped.length]? = some (s.cbuf.bufs s.cbuf.read) := by
  have hlen := BoundedFifo.pushed_length h.inOrder
  have hlt : s.history.popped.length < s.history.pushed.length := by omega
  have hget := List.getElem?_eq_getElem hlt
  rw [h.readEq, h.held _ (Nat.le_refl _) _ hget]
  exact hget

theorem fifoStep_iff (h : Mirrors size s) (hsize : 2 ≤ size) (h32 : size < 2 ^ 32) (op : Op A) :
    FifoStep (size - 1) s op ↔ ClearStep size s op := by
  cases op with
  | push buf =>
    have hfull := h.full_iff hsize h32
    have hclear : ClearStep size s (.push buf) ↔ ¬ Wrapped size s.history :=
      ⟨fun hc => hc ⟨buf, rfl⟩, fun hc _ => hc⟩
    rw [hclear, FifoStep, Cbuf.apply, Cbuf.rtwCbufPush, Wrapped]
    split
    · rename_i hyes
      obtain ⟨hpending, hread⟩ := hfull.mp hyes
      exact ⟨fun _ hw => hread hw.1, fun _ => hpending⟩
    · rename_i hno
      constructor
      · exact fun hne hw => hne hw.2
      · exact fun hc heq => hno (hfull.mpr ⟨heq, fun hzero => hc ⟨hzero, heq⟩⟩)
  | pop =>
    have hempty := h.empty_iff hsize
    have hclear : ClearStep size s .pop := fun ⟨buf, hbuf⟩ => absurd hbuf (by simp)
    rw [FifoStep, Cbuf.apply, Cbuf.rtwCbufPop]
    refine ⟨fun _ => hclear, fun _ => ?_⟩
    split
    · rename_i hyes
      exact hempty.mp hyes
    · rename_i hno
      exact h.head_held fun hzero => hno (hempty.mpr hzero)

theorem push (h : Mirrors size s) (hsize : 2 ≤ size) (h32 : size < 2 ^ 32) {buf : A}
    (hfifo : FifoStep (size - 1) s (.push buf)) : Mirrors size (observe s (.push buf)) := by
  rw [FifoStep] at hfifo
  rw [observe]
  have hin := BoundedFifo.inOrder_record h.inOrder hfifo
  rw [Cbuf.apply, Cbuf.rtwCbufPush] at hin hfifo ⊢
  split
  · exact h
  · rename_i hroom
    rw [if_neg hroom] at hin hfifo
    have hroom' : s.history.pending ≠ size - 1 := hfifo
    have hbounded := h.inOrder.bounded
    have hlen := BoundedFifo.pushed_length h.inOrder
    have hpos : 0 < size := by omega
    refine ⟨hin, h.sizeEq, ?_, h.readEq, ?_⟩
    · dsimp only [History.record]
      rw [h.sizeEq, h.writeEq, u32_succ h32 (Nat.mod_lt _ hpos), Nat.mod_add_mod,
        List.length_append, List.length_singleton]
    · intro i hi a ha
      dsimp only [History.record] at hi ha ⊢
      rw [h.writeEq]
      cases Nat.lt_or_ge i s.history.pushed.length with
      | inl hlt =>
        rw [List.getElem?_append_left hlt] at ha
        have hne : i % size ≠ s.history.pushed.length % size := by
          intro heq
          have hsame := mod_eq_of_near (Nat.le_of_lt hlt) (by omega) heq.symm
          omega
        rw [if_neg hne]
        exact h.held i hi a ha
      | inr hge =>
        obtain ⟨hrange, -⟩ := List.getElem?_eq_some_iff.mp ha
        rw [List.length_append, List.length_singleton] at hrange
        obtain rfl : i = s.history.pushed.length := by omega
        rw [if_pos rfl]
        rw [List.getElem?_append_right (Nat.le_refl _), Nat.sub_self] at ha
        exact Option.some_inj.mp ha

theorem pop (h : Mirrors size s) (hsize : 2 ≤ size) (h32 : size < 2 ^ 32)
    (hfifo : FifoStep (size - 1) s .pop) : Mirrors size (observe s .pop) := by
  rw [FifoStep] at hfifo
  rw [observe]
  have hin := BoundedFifo.inOrder_record h.inOrder hfifo
  rw [Cbuf.apply, Cbuf.rtwCbufPop] at hin ⊢
  split
  · exact h
  · rename_i hsome
    rw [if_neg hsome] at hin
    refine ⟨hin, h.sizeEq, h.writeEq, ?_, ?_⟩
    · dsimp only [History.record]
      rw [h.sizeEq, h.readEq, u32_succ h32 (Nat.mod_lt _ (by omega)), Nat.mod_add_mod,
        List.length_append, List.length_singleton]
    · intro i hi a ha
      dsimp only [History.record] at hi ha ⊢
      rw [List.length_append] at hi
      exact h.held i (by omega) a ha

theorem step (h : Mirrors size s) (hsize : 2 ≤ size) (h32 : size < 2 ^ 32) {op : Op A}
    (hfifo : FifoStep (size - 1) s op) : Mirrors size (observe s op) := by
  cases op with
  | push buf => exact h.push hsize h32 hfifo
  | pop => exact h.pop hsize h32 hfifo

end Mirrors

structure FifoRun (size : ℕ) (garbage : ℕ → A) (ops : List (Op A)) : Prop where
  steps : Run.Each observe (FifoStep (size - 1)) (observeStart size garbage) ops
  inOrder : (Run.exec observe (observeStart size garbage) ops).history.InOrder (size - 1)

theorem cbuf_fifo_law (size : ℕ) (garbage : ℕ → A) (ops : List (Op A)) (hsize : 2 ≤ size)
    (h32 : size < 2 ^ 32) :
    FifoRun size garbage ops ↔
      Run.Each observe (ClearStep size) (observeStart size garbage) ops := by
  have hiff := Run.each_iff observe (FifoStep (size - 1)) (ClearStep size) (Mirrors size)
    (fun _ op h => h.fifoStep_iff hsize h32 op) (fun _ _ h hfifo => h.step hsize h32 hfifo)
    (Mirrors.start garbage) ops
  constructor
  · exact fun h => hiff.mp h.steps
  · intro hclear
    have hsteps := hiff.mpr hclear
    have hend := Run.each_invariant observe (FifoStep (size - 1)) (Mirrors size)
      (fun _ _ h hfifo => h.step hsize h32 hfifo) (Mirrors.start garbage) hsteps
    exact ⟨hsteps, hend.inOrder⟩

theorem cbuf_fifo_one : FifoRun 2 (fun _ => 0) [.push 7, .pop, .push 8] :=
  (cbuf_fifo_law 2 (fun _ => 0) [.push 7, .pop, .push 8] (by decide) (by decide)).mpr
    ⟨fun _ h => absurd h.2 (by decide), fun h => absurd h (by simp),
      fun _ h => absurd h.1 (by decide), trivial⟩

theorem full_ring_takes_one_more :
    ¬ FifoRun 2 (fun _ => 0) [.push 7, .push 8, .pop] := fun h =>
  absurd h.steps.2.1 (by decide)

end Os
