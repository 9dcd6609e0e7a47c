import Rtl8188fu.Lib.ByteMemory

namespace PacketBuffer

open ByteMemory

structure Buf (B : Type) where
  mem : Mem B
  head : ℕ
  data : ℕ
  tail : ℕ
  limit : ℕ
  len : ℕ

structure Access where
  lo : ℕ
  hi : ℕ
  first : ℕ
  count : ℕ
  deriving DecidableEq, Repr

def Access.Inside (a : Access) : Prop := a.count = 0 ∨ a.lo ≤ a.first ∧ a.first + a.count ≤ a.hi

instance (a : Access) : Decidable a.Inside := inferInstanceAs (Decidable (_ ∨ _))

namespace Buf

variable {B : Type} (b : Buf B)

structure Valid (b : Buf B) : Prop where
  head_le : b.head ≤ b.data
  data_le : b.data ≤ b.tail
  tail_le : b.tail ≤ b.limit
  len_eq : b.len = b.tail - b.data

def pull (n : ℕ) : Option (Buf B) :=
  if b.data + n > b.tail then none else some { b with data := b.data + n, len := b.len - n }

def put (n : ℕ) : Option (Buf B) :=
  if b.tail + n > b.limit then none else some { b with tail := b.tail + n, len := b.len + n }

def pullTail (n : ℕ) : Option (Buf B) :=
  if b.tail < b.data + n then none else some { b with tail := b.tail - n, len := b.len - n }

def store (a : ℕ) (bs : List B) : Buf B := { b with mem := write b.mem a bs }

def access (first count : ℕ) : Access := ⟨b.data, b.tail, first, count⟩

def contents : List B := read b.mem b.data b.len

def room : List B := read b.mem b.tail (b.limit - b.tail)

@[simp] theorem length_contents : b.contents.length = b.len := length_read ..

@[simp] theorem length_room : b.room.length = b.limit - b.tail := length_read ..

variable {b} {c : Buf B} {n : ℕ} {bs : List B}

theorem Valid.tail_eq (h : b.Valid) : b.tail = b.data + b.len := by
  have hdata := h.data_le
  have hlen := h.len_eq
  omega

theorem Valid.store (h : b.Valid) (a : ℕ) (bs : List B) : (b.store a bs).Valid :=
  ⟨h.head_le, h.data_le, h.tail_le, h.len_eq⟩

theorem pull_of_le (h : b.Valid) (hn : n ≤ b.len) :
    b.pull n = some { b with data := b.data + n, len := b.len - n } := by
  have htail := h.tail_eq
  exact if_neg (by omega)

theorem pull_of_lt (h : b.Valid) (hn : b.len < n) : b.pull n = none := by
  have htail := h.tail_eq
  exact if_pos (by omega)

theorem put_of_le (hn : b.tail + n ≤ b.limit) :
    b.put n = some { b with tail := b.tail + n, len := b.len + n } := if_neg (by omega)

theorem pullTail_of_le (h : b.Valid) (hn : n ≤ b.len) :
    b.pullTail n = some { b with tail := b.tail - n, len := b.len - n } := by
  have htail := h.tail_eq
  exact if_neg (by omega)

theorem pullTail_of_lt (h : b.Valid) (hn : b.len < n) : b.pullTail n = none := by
  have htail := h.tail_eq
  exact if_pos (by omega)

theorem Valid.pull (h : b.Valid) (hc : b.pull n = some c) : c.Valid := by
  rw [Buf.pull] at hc
  split at hc
  · cases hc
  · cases hc
    have hhead := h.head_le
    have htail := h.tail_eq
    exact ⟨by simp only; omega, by simp only; omega, h.tail_le, by simp only; omega⟩

theorem Valid.put (h : b.Valid) (hc : b.put n = some c) : c.Valid := by
  rw [Buf.put] at hc
  split at hc
  · cases hc
  · cases hc
    have htail := h.tail_eq
    exact ⟨h.head_le, by simp only; omega, by simp only; omega, by simp only; omega⟩

theorem Valid.pullTail (h : b.Valid) (hc : b.pullTail n = some c) : c.Valid := by
  rw [Buf.pullTail] at hc
  split at hc
  · cases hc
  · cases hc
    have hlimit := h.tail_le
    have htail := h.tail_eq
    exact ⟨h.head_le, by simp only; omega, by simp only; omega, by simp only; omega⟩

theorem Valid.contents_room (h : b.Valid) :
    b.contents ++ b.room = read b.mem b.data (b.limit - b.data) := by
  have htail := h.tail_eq
  have hlimit := h.tail_le
  have hsplit : b.limit - b.data = b.len + (b.limit - b.tail) := by omega
  rw [hsplit, read_add, ← htail]
  rfl

theorem pull_contents (h : b.Valid) (hn : n ≤ b.len) (hc : b.pull n = some c) :
    c.contents = b.contents.drop n ∧ c.room = b.room := by
  rw [pull_of_le h hn] at hc
  cases hc
  obtain ⟨k, hk⟩ := Nat.exists_eq_add_of_le hn
  refine ⟨?_, rfl⟩
  rw [contents, contents, hk, drop_read, Nat.add_sub_cancel_left]

theorem pullTail_contents (h : b.Valid) (hn : n ≤ b.len) (hc : b.pullTail n = some c) :
    c.contents = b.contents.take (b.len - n) ∧ c.room = b.contents.drop (b.len - n) ++ b.room := by
  rw [pullTail_of_le h hn] at hc
  cases hc
  have htail := h.tail_eq
  have hlimit := h.tail_le
  have hsplit : b.contents = read b.mem b.data (b.len - n) ++ read b.mem (b.tail - n) n := by
    have hlen : b.len = (b.len - n) + n := by omega
    have hcut : b.tail - n = b.data + (b.len - n) := by omega
    rw [contents, hcut, ← read_add, ← hlen]
  refine ⟨?_, ?_⟩
  · rw [hsplit, List.take_left' (length_read ..)]
    rfl
  · rw [hsplit, List.drop_left' (length_read ..)]
    have hrest : b.limit - (b.tail - n) = n + (b.limit - b.tail) := by omega
    have hend : b.tail - n + n = b.tail := by omega
    rw [room, hrest, read_add, hend]
    rfl

theorem put_contents (h : b.Valid) (hn : b.tail + n ≤ b.limit) (hc : b.put n = some c) :
    c.contents = b.contents ++ b.room.take n ∧ c.room = b.room.drop n := by
  rw [put_of_le hn] at hc
  cases hc
  obtain ⟨k, hk⟩ := Nat.exists_eq_add_of_le hn
  have hroom : b.limit - b.tail = n + k := by omega
  have hleft : b.limit - (b.tail + n) = k := by omega
  refine ⟨?_, ?_⟩
  · rw [contents, read_add, ← h.tail_eq, room, hroom, read_add, List.take_left' (length_read ..)]
    rfl
  · rw [room, room, hroom, drop_read]
    simp only [hleft]

theorem store_tail_contents (h : b.Valid) (bs : List B) :
    (b.store b.tail bs).contents = b.contents := by
  have hend : b.data + b.contents.length = b.tail := by rw [length_contents, h.tail_eq]
  have hkept : Holds (write b.mem b.tail bs) b.data b.contents :=
    (Holds.of_read (by rw [length_contents]; rfl)).write_after (Nat.le_of_eq hend)
  exact hkept.read_eq (length_contents b).symm

theorem store_tail_room (hbs : b.tail + bs.length ≤ b.limit) :
    (b.store b.tail bs).room = bs ++ b.room.drop bs.length := by
  obtain ⟨k, hk⟩ := Nat.exists_eq_add_of_le hbs
  have hroom : b.limit - b.tail = bs.length + k := by omega
  have hrest : read (write b.mem b.tail bs) (b.tail + bs.length) k =
      read b.mem (b.tail + bs.length) k := by
    refine List.map_congr_left fun i _ => ?_
    exact write_above b.mem (by omega)
  rw [room, room, hroom, drop_read, ← hrest]
  change read (write b.mem b.tail bs) b.tail (b.limit - b.tail) = _
  rw [hroom, read_add, (holds_write b.mem b.tail bs).read]

end Buf

end PacketBuffer
