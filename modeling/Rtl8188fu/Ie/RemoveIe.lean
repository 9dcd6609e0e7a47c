import Rtl8188fu.Ie.Searchers

namespace Ie

open ByteMemory CursorWalk Tlv

def u32Sub (a b : ℕ) : ℕ := if b ≤ a then a - b else a + 2 ^ 32 - b

structure ReadAt where
  addr : ℕ
  listEnd : ℕ
  deriving DecidableEq, Repr

structure Removal where
  mem : Mem
  iesLen : ℕ
  ret : Bool
  reads : List ReadAt

def Removal.reading (r : Removal) (addrs : List ℕ) (listEnd : ℕ) : Removal :=
  { r with reads := r.reads ++ addrs.map (⟨·, listEnd⟩) }

def removeTarget (r : Removal) (start searchLen targetIe : ℕ) : Removal × ℕ :=
  let targetIelen := (r.mem (targetIe + 1)).toNat + 2
  let remainIes := targetIe + targetIelen
  let remainLen := u32Sub searchLen (remainIes - start)
  let moved := r.reading ((List.range remainLen).map (remainIes + ·)) (start + searchLen)
  ({ moved with
      mem := write r.mem targetIe (read r.mem remainIes remainLen)
      iesLen := u32Sub r.iesLen targetIelen
      ret := true }, remainLen)

def removeLoop (eid : UInt8) (oui : List UInt8) : ℕ → Removal → ℕ → ℕ → Option Removal
  | 0, _, _, _ => none
  | fuel + 1, r, start, searchLen =>
    let s := rtwGetIeExSearch r.mem start searchLen eid oui
    let r := r.reading (s.readOffsets.map (start + ·)) (start + searchLen)
    match s.result with
    | none => some r
    | some off =>
      let c := removeTarget r start searchLen (start + off)
      removeLoop eid oui fuel c.1 (start + off) c.2

def rtwIesRemoveIe (m : Mem) (ies iesLen offset : ℕ) (eid : UInt8) (oui : List UInt8)
    (fuel : ℕ) : Option Removal :=
  if ies = 0 ∨ iesLen ≤ offset then some ⟨m, iesLen, false, []⟩
  else removeLoop eid oui fuel ⟨m, iesLen, false, []⟩ (ies + offset) (iesLen - offset)

structure IeArea where
  ies : ℕ
  fixed : List UInt8
  elements : List Element
  notNull : ies ≠ 0

def IeArea.bytes (a : IeArea) : List UInt8 := a.fixed ++ encode a.elements

def IeArea.Stored (a : IeArea) (m : Mem) : Prop := Holds m a.ies a.bytes

def keeps (eid : UInt8) (oui : List UInt8) (t : Element) : Bool :=
  decide (¬ (t.id = eid ∧ oui <+: t.body))

def ShortOnesDiffer (eid : UInt8) (oui : List UInt8) : List Element → Prop
  | [] => True
  | t :: ts =>
    (t.id = eid → t.body.length < oui.length →
      oui.length ≤ (t.body ++ encode ts).length ∧ ¬ oui <+: t.body ++ encode ts) ∧
      ShortOnesDiffer eid oui ts

structure Removes (m : Mem) (a : IeArea) (kept : List Element) (r : Removal) : Prop where
  mem : Holds r.mem a.ies (a.fixed ++ encode kept)
  outside : ∀ i, i < a.ies ∨ a.ies + a.bytes.length ≤ i → r.mem i = m i
  iesLen : r.iesLen = (a.fixed ++ encode kept).length
  reads : ∀ x ∈ r.reads, a.ies + a.fixed.length ≤ x.addr ∧ x.addr < x.listEnd ∧
    x.listEnd ≤ a.ies + a.bytes.length

def RemoveLaw (m : Mem) (a : IeArea) (eid : UInt8) (oui : List UInt8) : Prop :=
  ∃ fuel r, rtwIesRemoveIe m a.ies a.bytes.length a.fixed.length eid oui fuel = some r ∧
    Removes m a (a.elements.filter (keeps eid oui)) r

section Search

variable {m : Mem} {start size d : ℕ} {eid : UInt8} {oui : List UInt8}

theorem getIeEx_found {i : ℕ} : (getIeExWalk m start size eid oui).found i = true ↔
    m (start + i) = eid ∧ Holds m (start + i + 2) oui := by
  rw [getIeExWalk, Bool.and_eq_true, decide_eq_true_iff, memcmp_iff]

theorem getIeEx_shifted (m : Mem) (start size d : ℕ) (eid : UInt8) (oui : List UInt8) :
    Shifted (getIeExWalk m start size eid oui) (getIeExWalk m (start + d) (size - d) eid oui) d := by
  have haddr (i : ℕ) : start + (i + d) = start + d + i := by omega
  constructor
  · intro i
    refine decide_eq_decide.mpr ?_
    omega
  · intro i
    simp only [getIeExWalk, haddr]
  · intro i
    simp only [getIeExWalk, nextElement, haddr]
    omega

def headReads (m : Mem) (start : ℕ) (eid : UInt8) (oui : List UInt8) : List ℕ :=
  0 :: 1 :: ouiOffsets (m start = eid) 0 oui.length

theorem search_empty : (rtwGetIeExSearch m start 0 eid oui).result = none ∧
    (rtwGetIeExSearch m start 0 eid oui).readOffsets = [] := by
  have hshut : (rtwGetIeExSearch m start 0 eid oui).enters = false :=
    decide_eq_false fun h => Nat.lt_irrefl _ h.2
  constructor
  · rw [Searcher.result, hshut, if_neg Bool.false_ne_true]
  · rw [Searcher.readOffsets, hshut, if_neg Bool.false_ne_true]

theorem search_hit (h : start ≠ 0) (hsize : 0 < size) (hid : m start = eid)
    (houi : Holds m (start + 2) oui) :
    (rtwGetIeExSearch m start size eid oui).result = some 0 ∧
      (rtwGetIeExSearch m start size eid oui).readOffsets = headReads m start eid oui := by
  have hin : (getIeExWalk m start size eid oui).inside 0 = true := decide_eq_true hsize
  have hfound : (getIeExWalk m start size eid oui).found 0 = true := getIeEx_found.mpr ⟨hid, houi⟩
  constructor
  · exact (getIeEx_runs m size eid oui h).result_eq_some.mpr ⟨.here hin, hfound, rfl⟩
  · have hopen : (rtwGetIeExSearch m start size eid oui).enters = true := decide_eq_true ⟨h, hsize⟩
    rw [Searcher.readOffsets, hopen, if_pos rfl]
    have htrace : trace (getIeExWalk m start size eid oui) size 0 = [0] := by
      obtain ⟨k, rfl⟩ := Nat.exists_eq_add_one.mpr hsize
      exact trace_found k hin hfound
    exact (congrArg (List.flatMap _) htrace).trans (List.append_nil _)

theorem reads_shifted (m : Mem) (start size d : ℕ) (eid : UInt8) (oui : List UInt8) (i : ℕ) :
    (rtwGetIeExSearch m start size eid oui).reads (i + d) =
      ((rtwGetIeExSearch m (start + d) (size - d) eid oui).reads i).map (· + d) := by
  have haddr : start + (i + d) = start + d + i := by omega
  simp only [rtwGetIeExSearch, haddr, List.map_cons, Nat.add_right_comm i d 1]
  refine congrArg (fun l => (i + d) :: (i + 1 + d) :: l) ?_
  rw [ouiOffsets, ouiOffsets]
  split
  · rw [List.map_map]
    refine List.map_congr_left fun k _ => ?_
    simp only [Function.comp_apply]
    omega
  · rfl

theorem search_miss (h : start ≠ 0) (hroom : nextElement m start 0 ≤ size)
    (hmiss : ¬ (m start = eid ∧ Holds m (start + 2) oui)) (hd : d = nextElement m start 0) :
    (rtwGetIeExSearch m start size eid oui).result =
        (rtwGetIeExSearch m (start + d) (size - d) eid oui).result.map (· + d) ∧
      (rtwGetIeExSearch m start size eid oui).readOffsets = headReads m start eid oui ++
        (rtwGetIeExSearch m (start + d) (size - d) eid oui).readOffsets.map (· + d) := by
  have hpos := lt_nextElement m start 0
  have hsize : 0 < size := by omega
  have hadv := getIeExWalk_advances m start size eid oui
  have hshift := getIeEx_shifted m start size d eid oui
  have hin : (getIeExWalk m start size eid oui).inside 0 = true := decide_eq_true hsize
  have hfound : (getIeExWalk m start size eid oui).found 0 = false :=
    eq_false_of_ne_true fun hfound => hmiss (getIeEx_found.mp hfound)
  have hnext : (getIeExWalk m start size eid oui).next 0 = 0 + d := by
    rw [Nat.zero_add, hd]
    rfl
  have hopen : (rtwGetIeExSearch m start size eid oui).enters = true := decide_eq_true ⟨h, hsize⟩
  have hlater : (rtwGetIeExSearch m (start + d) (size - d) eid oui).result =
      find (getIeExWalk m (start + d) (size - d) eid oui) (size - d) 0 ∧
      (rtwGetIeExSearch m (start + d) (size - d) eid oui).readOffsets =
        (trace (getIeExWalk m (start + d) (size - d) eid oui) (size - d) 0).flatMap
          (rtwGetIeExSearch m (start + d) (size - d) eid oui).reads := by
    cases Nat.eq_zero_or_pos (size - d) with
    | inl hzero =>
      rw [hzero, search_empty.1, search_empty.2]
      exact ⟨rfl, rfl⟩
    | inr hleft =>
      have hagain : (rtwGetIeExSearch m (start + d) (size - d) eid oui).enters = true :=
        decide_eq_true ⟨by omega, hleft⟩
      rw [Searcher.result, Searcher.readOffsets, hagain, if_pos rfl, if_pos rfl]
      exact ⟨filter_all _, rfl⟩
  constructor
  · rw [hlater.1, ← hshift.find, ← hnext, ← hadv.find_next hin hfound, Searcher.result, hopen,
      if_pos rfl]
    exact filter_all _
  · have htrace : trace (getIeExWalk m start size eid oui) size 0 =
        0 :: (trace (getIeExWalk m (start + d) (size - d) eid oui) (size - d) 0).map (· + d) := by
      obtain ⟨k, rfl⟩ := Nat.exists_eq_add_one.mpr hsize
      rw [trace_next k hin hfound, hnext, ← hshift.trace]
      exact congrArg _ (hadv.trace_fuel (by omega) (by omega))
    rw [hlater.2, Searcher.readOffsets, hopen, if_pos rfl, List.map_flatMap]
    refine (congrArg (List.flatMap _) htrace).trans ?_
    rw [List.flatMap_cons, List.flatMap_map]
    exact congrArg _ (List.flatMap_congr fun i _ => reads_shifted m start size d eid oui i)

end Search

theorem u32Sub_of_le {a b : ℕ} (h : b ≤ a) : u32Sub a b = a - b := if_pos h

theorem u32Sub_sub {a b d : ℕ} (had : d ≤ a) (hbd : d ≤ b) : u32Sub (a - d) (b - d) = u32Sub a b := by
  rw [u32Sub, u32Sub]
  cases Nat.lt_or_ge a b with
  | inl hlt =>
    rw [if_neg (by omega), if_neg (by omega)]
    omega
  | inr hge =>
    rw [if_pos (by omega), if_pos hge]
    omega

section Loop

variable {eid : UInt8} {oui : List UInt8} {r r' : Removal} {start size d fuel : ℕ}
  {t : Element} {ts : List Element}

theorem reading_reading (r : Removal) (xs ys : List ℕ) (listEnd : ℕ) :
    (r.reading xs listEnd).reading ys listEnd = r.reading (xs ++ ys) listEnd := by
  simp only [Removal.reading, List.map_append, List.append_assoc]

def enterHead (r : Removal) (start size : ℕ) (eid : UInt8) (oui : List UInt8) : Removal :=
  r.reading ((headReads r.mem start eid oui).map (start + ·)) (start + size)

def afterHit (r : Removal) (start size d : ℕ) (eid : UInt8) (oui : List UInt8) : Removal :=
  { (enterHead r start size eid oui).reading
      ((List.range (size - d)).map (start + d + ·)) (start + size) with
    mem := write r.mem start (read r.mem (start + d) (size - d))
    iesLen := u32Sub r.iesLen d
    ret := true }

theorem removeLoop_empty (fuel : ℕ) (r : Removal) (start : ℕ) :
    removeLoop eid oui (fuel + 1) r start 0 = some r := by
  simp only [removeLoop, search_empty.1, search_empty.2, Removal.reading, List.map_nil,
    List.append_nil]

theorem removeLoop_hit (h : start ≠ 0) (hroom : nextElement r.mem start 0 ≤ size)
    (hid : r.mem start = eid) (houi : Holds r.mem (start + 2) oui)
    (hd : d = nextElement r.mem start 0) : removeLoop eid oui (fuel + 1) r start size =
      removeLoop eid oui fuel (afterHit r start size d eid oui) start (size - d) := by
  have hpos := lt_nextElement r.mem start 0
  have hsize : 0 < size := Nat.lt_of_lt_of_le hpos hroom
  obtain ⟨hresult, hreads⟩ := search_hit h hsize hid houi
  have hremain : start + ((r.mem (start + 1)).toNat + 2) = start + d := by
    rw [hd, nextElement, Nat.zero_add, Nat.add_zero]
  have hleft : u32Sub size (start + d - start) = size - d := by
    rw [Nat.add_sub_cancel_left]
    exact u32Sub_of_le (hd ▸ hroom)
  rw [removeLoop]
  simp only [hresult, hreads, removeTarget, Nat.add_zero, Removal.reading, hremain, hleft]
  refine congrArg (removeLoop eid oui fuel · start (size - d)) ?_
  simp only [afterHit, enterHead, Removal.reading, Nat.add_left_cancel hremain]

theorem removeLoop_miss (h : start ≠ 0) (hroom : nextElement r.mem start 0 ≤ size)
    (hmiss : ¬ (r.mem start = eid ∧ Holds r.mem (start + 2) oui))
    (hd : d = nextElement r.mem start 0) : removeLoop eid oui (fuel + 1) r start size =
      removeLoop eid oui (fuel + 1) (enterHead r start size eid oui) (start + d) (size - d) := by
  obtain ⟨hresult, hreads⟩ := search_miss h hroom hmiss hd
  have hend : start + d + (size - d) = start + size := by omega
  have hshift (xs : List ℕ) : (xs.map (· + d)).map (start + ·) = xs.map (start + d + ·) := by
    rw [List.map_map]
    refine List.map_congr_left fun i _ => ?_
    simp only [Function.comp_apply]
    omega
  have hread : r.reading ((rtwGetIeExSearch r.mem start size eid oui).readOffsets.map (start + ·))
      (start + size) = (enterHead r start size eid oui).reading
        ((rtwGetIeExSearch r.mem (start + d) (size - d) eid oui).readOffsets.map (start + d + ·))
        (start + size) := by
    rw [hreads, List.map_append, hshift, enterHead, reading_reading]
  have hmem : (enterHead r start size eid oui).mem = r.mem := rfl
  rw [removeLoop, removeLoop]
  simp only [hresult, hread, hmem, hend]
  cases (rtwGetIeExSearch r.mem (start + d) (size - d) eid oui).result with
  | none => rfl
  | some off =>
    have haddr : start + (off + d) = start + d + off := by omega
    simp only [Option.map_some, haddr, removeTarget, hend]
    have hleft (target : ℕ) (htarget : start + d ≤ target) :
        u32Sub size (target - start) = u32Sub (size - d) (target - (start + d)) := by
      rw [← Nat.sub_sub]
      exact (u32Sub_sub (hd ▸ hroom) (by omega)).symm
    rw [hleft _ (by omega)]

theorem removeLoop_mono (h : removeLoop eid oui fuel r start size = some r') (more : ℕ) :
    removeLoop eid oui (fuel + more) r start size = some r' := by
  induction fuel generalizing r start size with
  | zero => exact absurd h nofun
  | succ fuel ih =>
    rw [Nat.succ_add]
    simp only [removeLoop] at h ⊢
    split at h
    · exact h
    · exact ih h

theorem removeLoop_unique {fuel' : ℕ} {r'' : Removal}
    (h : removeLoop eid oui fuel r start size = some r')
    (h' : removeLoop eid oui fuel' r start size = some r'') : r' = r'' := by
  have hmore := removeLoop_mono h fuel'
  rw [Nat.add_comm, removeLoop_mono h' fuel] at hmore
  exact (Option.some.inj hmore).symm

theorem removeLoop_reads (h : removeLoop eid oui fuel r start size = some r') :
    r.reads ⊆ r'.reads := by
  induction fuel generalizing r start size with
  | zero => exact absurd h nofun
  | succ fuel ih =>
    simp only [removeLoop] at h
    split at h
    · rw [← Option.some.inj h]
      exact List.subset_append_left _ _
    · refine List.Subset.trans ?_ (ih h)
      rw [removeTarget, Removal.reading, Removal.reading]
      exact List.subset_append_of_subset_left _ (List.subset_append_left _ _)

end Loop

def Hit (eid : UInt8) (oui : List UInt8) (t : Element) (ts : List Element) : Prop :=
  t.id = eid ∧ oui <+: t.body ++ encode ts

instance (eid : UInt8) (oui : List UInt8) (t : Element) (ts : List Element) :
    Decidable (Hit eid oui t ts) :=
  inferInstanceAs (Decidable (_ ∧ _))

def survivors (eid : UInt8) (oui : List UInt8) : List Element → List Element
  | [] => []
  | t :: ts =>
    if Hit eid oui t ts then survivors eid oui ts else t :: survivors eid oui ts

def Within (eid : UInt8) (oui : List UInt8) (t : Element) (ts : List Element) : Prop :=
  t.id = eid → oui.length ≤ (t.body ++ encode ts).length

def AllWithin (eid : UInt8) (oui : List UInt8) : List Element → Prop
  | [] => True
  | t :: ts => Within eid oui t ts ∧ AllWithin eid oui ts

structure Removed (r r' : Removal) (start size : ℕ) (kept : List Element) : Prop where
  mem : Holds r'.mem start (encode kept)
  outside : ∀ i, i < start ∨ start + size ≤ i → r'.mem i = r.mem i
  iesLen : ∀ before, r.iesLen = before + size → r'.iesLen = before + (encode kept).length
  reads : ∀ x ∈ r'.reads, x ∈ r.reads ∨
    start ≤ x.addr ∧ x.addr < x.listEnd ∧ x.listEnd ≤ start + size

section Runs

variable {eid : UInt8} {oui : List UInt8} {r r' : Removal} {start fuel : ℕ} {t : Element}
  {ts : List Element}

theorem headStep (h : Holds r.mem start (encode (t :: ts))) :
    nextElement r.mem start 0 = t.bytes.length := by
  rw [encode_cons] at h
  exact (nextElement_encoded (o := 0) h).trans (Nat.zero_add _)

theorem hit_iff (h : Holds r.mem start (encode (t :: ts))) (hwithin : Within eid oui t ts) :
    r.mem start = eid ∧ Holds r.mem (start + 2) oui ↔ Hit eid oui t ts := by
  rw [encode_cons] at h
  rw [holds_id h, Hit]
  exact and_congr_right fun hid => (holds_tail h).prefix_iff (hwithin hid)

theorem mem_enterHead {x : ReadAt} {size : ℕ} (hx : x ∈ (enterHead r start size eid oui).reads) :
    x ∈ r.reads ∨ x.listEnd = start + size ∧ start ≤ x.addr ∧
      (x.addr < start + 2 ∨ r.mem start = eid ∧ x.addr < start + 2 + oui.length) := by
  rcases List.mem_append.mp hx with hold | hnew
  · exact .inl hold
  · obtain ⟨addr, haddr, rfl⟩ := List.mem_map.mp hnew
    obtain ⟨o, ho, rfl⟩ := List.mem_map.mp haddr
    refine .inr ⟨rfl, Nat.le_add_right _ _, ?_⟩
    rcases List.mem_cons.mp ho with rfl | ho
    · exact .inl (Nat.lt_add_of_pos_right Nat.two_pos)
    · rcases List.mem_cons.mp ho with rfl | ho
      · exact .inl (Nat.lt_succ_self _)
      · obtain ⟨hid, _, hlt⟩ := mem_ouiOffsets.mp ho
        refine .inr ⟨hid, ?_⟩
        simp only
        omega

theorem enterHead_inside {x : ReadAt} (h : Holds r.mem start (encode (t :: ts)))
    (hwithin : Within eid oui t ts)
    (hx : x ∈ (enterHead r start (encode (t :: ts)).length eid oui).reads) :
    x ∈ r.reads ∨ start ≤ x.addr ∧ x.addr < x.listEnd ∧
      x.listEnd ≤ start + (encode (t :: ts)).length := by
  have hsize : (encode (t :: ts)).length = (t.body ++ encode ts).length + 2 := by
    simp only [encode_cons, List.length_append, Element.length_bytes]
    omega
  rcases mem_enterHead hx with hold | ⟨hend, hle, hlt⟩
  · exact .inl hold
  · refine .inr ⟨hle, ?_, Nat.le_of_eq hend⟩
    rw [hend, hsize]
    rcases hlt with hheader | ⟨hid, hoff⟩
    · omega
    · rw [encode_cons] at h
      have hroom := hwithin ((holds_id h).symm.trans hid)
      omega

theorem removeLoop_survivors (hstart : start ≠ 0) (h : Holds r.mem start (encode ts))
    (hwithin : AllWithin eid oui ts) : ∃ fuel r',
      removeLoop eid oui (fuel + 1) r start (encode ts).length = some r' ∧
        Removed r r' start (encode ts).length (survivors eid oui ts) := by
  induction ts generalizing r start with
  | nil =>
    refine ⟨0, r, removeLoop_empty 0 r start, h, fun _ _ => rfl, fun _ hlen => hlen, ?_⟩
    exact fun x hx => .inl hx
  | cons t ts ih =>
    obtain ⟨hhead, hrest⟩ := hwithin
    have hstep := headStep h
    have hsize : (encode (t :: ts)).length = t.bytes.length + (encode ts).length := by
      rw [encode_cons, List.length_append]
    have hleft : (encode (t :: ts)).length - t.bytes.length = (encode ts).length := by omega
    have hroom : nextElement r.mem start 0 ≤ (encode (t :: ts)).length := by omega
    have htail : Holds r.mem (start + t.bytes.length) (encode ts) := by
      rw [encode_cons] at h
      exact h.right
    rw [survivors]
    cases Decidable.em (Hit eid oui t ts) with
    | inl hhit =>
      obtain ⟨hid, houi⟩ := (hit_iff h hhead).mpr hhit
      have hmoved : read r.mem (start + t.bytes.length) (encode ts).length = encode ts := htail.read
      obtain ⟨fuel, r', hrun, hremoved⟩ :=
        @ih (afterHit r start (encode (t :: ts)).length t.bytes.length eid oui) start hstart (by
          simp only [afterHit, hleft, hmoved]
          exact holds_write _ _ _) hrest
      rw [if_pos hhit]
      refine ⟨fuel + 1, r', ?_, hremoved.mem, fun i hi => ?_, fun before hlen => ?_, fun x hx => ?_⟩
      · rw [removeLoop_hit hstart hroom hid houi hstep.symm, hleft]
        exact hrun
      · rw [hremoved.outside i (by omega)]
        simp only [afterHit, hleft, hmoved]
        rcases hi with hlt | hge
        · exact write_below _ _ hlt
        · exact write_above _ (by omega)
      · refine hremoved.iesLen before ?_
        simp only [afterHit]
        rw [u32Sub_of_le (by omega)]
        omega
      · rcases hremoved.reads x hx with hnew | hinside
        · rcases List.mem_append.mp hnew with hentered | hcopied
          · exact enterHead_inside h hhead hentered
          · obtain ⟨addr, haddr, rfl⟩ := List.mem_map.mp hcopied
            obtain ⟨k, hk, rfl⟩ := List.mem_map.mp haddr
            have hlt := List.mem_range.mp hk
            refine .inr ?_
            simp only
            omega
        · refine .inr ?_
          omega
    | inr hmiss =>
      obtain ⟨fuel, r', hrun, hremoved⟩ :=
        @ih (enterHead r start (encode (t :: ts)).length eid oui) (start + t.bytes.length)
          (by omega) htail hrest
      rw [if_neg hmiss]
      refine ⟨fuel, r', ?_, ?_, fun i hi => ?_, fun before hlen => ?_, fun x hx => ?_⟩
      · rw [removeLoop_miss hstart hroom (mt (hit_iff h hhead).mp hmiss) hstep.symm, hleft]
        exact hrun
      · rw [encode_cons]
        refine Holds.append ?_ hremoved.mem
        rw [encode_cons] at h
        exact h.left.congr fun i _ hlt => hremoved.outside i (.inl hlt)
      · exact hremoved.outside i (by omega)
      · rw [encode_cons, List.length_append, ← Nat.add_assoc]
        refine hremoved.iesLen (before + t.bytes.length) ?_
        exact hlen.trans (by omega)
      · rcases hremoved.reads x hx with hnew | hinside
        · exact enterHead_inside h hhead hnew
        · refine .inr ?_
          omega

theorem removeLoop_outside (hstart : start ≠ 0) (h : Holds r.mem start (encode ts))
    (hwithin : ¬ AllWithin eid oui ts)
    (hrun : removeLoop eid oui fuel r start (encode ts).length = some r') :
    ∃ x ∈ r'.reads, x.listEnd ≤ x.addr := by
  induction ts generalizing r start fuel with
  | nil => exact absurd trivial hwithin
  | cons t ts ih =>
    have hstep := headStep h
    have hsize : (encode (t :: ts)).length = t.bytes.length + (encode ts).length := by
      rw [encode_cons, List.length_append]
    have hleft : (encode (t :: ts)).length - t.bytes.length = (encode ts).length := by omega
    have hroom : nextElement r.mem start 0 ≤ (encode (t :: ts)).length := by omega
    have htail : Holds r.mem (start + t.bytes.length) (encode ts) := by
      rw [encode_cons] at h
      exact h.right
    cases fuel with
    | zero => exact absurd hrun nofun
    | succ fuel =>
      have hstepped : (enterHead r start (encode (t :: ts)).length eid oui).reads ⊆ r'.reads ∧
          (¬ AllWithin eid oui ts → ∃ x ∈ r'.reads, x.listEnd ≤ x.addr) := by
        cases Classical.em (r.mem start = eid ∧ Holds r.mem (start + 2) oui) with
        | inl hhit =>
          rw [removeLoop_hit hstart hroom hhit.1 hhit.2 hstep.symm, hleft] at hrun
          have hmoved : Holds (afterHit r start (encode (t :: ts)).length t.bytes.length eid oui).mem
              start (encode ts) := by
            simp only [afterHit, hleft, htail.read]
            exact holds_write _ _ _
          refine ⟨?_, fun hrest => ih hstart hmoved hrest hrun⟩
          exact List.Subset.trans (List.subset_append_left _ _) (removeLoop_reads hrun)
        | inr hmiss =>
          rw [removeLoop_miss hstart hroom hmiss hstep.symm, hleft] at hrun
          refine ⟨removeLoop_reads hrun, fun hrest => ?_⟩
          exact ih (r := enterHead r start (encode (t :: ts)).length eid oui) (by omega) htail
            hrest hrun
      cases Classical.em (Within eid oui t ts) with
      | inl hhead => exact hstepped.2 fun hrest => hwithin ⟨hhead, hrest⟩
      | inr hfar =>
        obtain ⟨hid, hcut⟩ := Classical.not_imp.mp hfar
        have hbody : (encode (t :: ts)).length = (t.body ++ encode ts).length + 2 := by
          rw [hsize, Element.length_bytes, List.length_append]
          omega
        rw [encode_cons] at h
        refine ⟨⟨start + (2 + (t.body ++ encode ts).length), start + (encode (t :: ts)).length⟩,
          hstepped.1 (List.mem_append_right _ (List.mem_map_of_mem (List.mem_map_of_mem ?_))), ?_⟩
        · refine List.mem_cons_of_mem _ (List.mem_cons_of_mem _ (mem_ouiOffsets.mpr ?_))
          exact ⟨(holds_id h).trans hid, by omega, by omega⟩
        · simp only
          omega

theorem genuine_hit (h : t.id = eid ∧ oui <+: t.body) : Hit eid oui t ts :=
  ⟨h.1, h.2.trans (List.prefix_append _ _)⟩

theorem hit_of_long (h : Hit eid oui t ts) (hlong : oui.length ≤ t.body.length) :
    t.id = eid ∧ oui <+: t.body :=
  ⟨h.1, List.prefix_of_prefix_length_le h.2 (List.prefix_append _ _) hlong⟩

theorem survivors_length_le (eid : UInt8) (oui : List UInt8) (ts : List Element) :
    (survivors eid oui ts).length ≤ (ts.filter (keeps eid oui)).length := by
  induction ts with
  | nil => exact Nat.le_refl _
  | cons t ts ih =>
    rw [survivors, List.filter_cons]
    cases Decidable.em (t.id = eid ∧ oui <+: t.body) with
    | inl hgenuine =>
      rw [if_pos (genuine_hit hgenuine), keeps, decide_eq_false (not_not_intro hgenuine)]
      exact ih
    | inr hspared =>
      rw [keeps, decide_eq_true hspared, if_pos rfl, List.length_cons]
      split
      · exact Nat.le_succ_of_le ih
      · exact Nat.succ_le_succ ih

theorem shortOnesDiffer_iff (ts : List Element) : ShortOnesDiffer eid oui ts ↔
    AllWithin eid oui ts ∧ survivors eid oui ts = ts.filter (keeps eid oui) := by
  induction ts with
  | nil => exact iff_of_true trivial ⟨trivial, rfl⟩
  | cons t ts ih =>
    have hlong (h : oui.length ≤ t.body.length) : Within eid oui t ts := fun _ => by
      rw [List.length_append]
      exact Nat.le_add_right_of_le h
    rw [ShortOnesDiffer, ih, AllWithin, survivors, List.filter_cons]
    cases Decidable.em (t.id = eid ∧ oui <+: t.body) with
    | inl hgenuine =>
      have hfits := hgenuine.2.length_le
      rw [if_pos (genuine_hit hgenuine), keeps, decide_eq_false (not_not_intro hgenuine),
        if_neg Bool.false_ne_true, and_iff_right (hlong hfits)]
      exact and_iff_right fun _ hshort => absurd hfits (Nat.not_le.mpr hshort)
    | inr hspared =>
      rw [keeps, decide_eq_true hspared, if_pos rfl]
      cases Decidable.em (Hit eid oui t ts) with
      | inl hhit =>
        rw [if_pos hhit]
        constructor
        · rintro ⟨hdiffers, _⟩
          have hshort : t.body.length < oui.length :=
            Nat.lt_of_not_le fun hle => hspared (hit_of_long hhit hle)
          exact absurd hhit.2 (hdiffers hhit.1 hshort).2
        · rintro ⟨_, heq⟩
          have hlen := survivors_length_le eid oui ts
          rw [heq, List.length_cons] at hlen
          exact absurd hlen (Nat.not_succ_le_self _)
      | inr hmiss =>
        rw [if_neg hmiss, List.cons_inj_right]
        constructor
        · rintro ⟨hdiffers, hrest, heq⟩
          refine ⟨⟨fun hid => ?_, hrest⟩, heq⟩
          cases Nat.lt_or_ge t.body.length oui.length with
          | inl hshort => exact (hdiffers hid hshort).1
          | inr hge => exact hlong hge hid
        · rintro ⟨⟨hwithin, hrest⟩, heq⟩
          exact ⟨fun hid _ => ⟨hwithin hid, fun hpre => hmiss ⟨hid, hpre⟩⟩, hrest, heq⟩

end Runs

theorem removeLaw_iff (m : Mem) (a : IeArea) (eid : UInt8) (oui : List UInt8)
    (h : a.Stored m) : RemoveLaw m a eid oui ↔ ShortOnesDiffer eid oui a.elements := by
  rw [shortOnesDiffer_iff, RemoveLaw]
  have hlen : a.bytes.length = a.fixed.length + (encode a.elements).length := List.length_append
  cases Nat.eq_zero_or_pos (encode a.elements).length with
  | inl hzero =>
    have hnone : a.elements = [] := encode_eq_nil (List.length_eq_zero_iff.mp hzero)
    rw [hnone]
    refine iff_of_true ⟨0, _, if_pos (.inr (by omega)), ?_⟩ ⟨trivial, rfl⟩
    have hbytes : a.bytes = a.fixed ++ encode [] := congrArg (a.fixed ++ encode ·) hnone
    exact ⟨hbytes ▸ h, fun _ _ => rfl, congrArg _ hbytes, nofun⟩
  | inr hpos =>
    have hrun (fuel : ℕ) : rtwIesRemoveIe m a.ies a.bytes.length a.fixed.length eid oui fuel =
        removeLoop eid oui fuel ⟨m, a.bytes.length, false, []⟩ (a.ies + a.fixed.length)
          (encode a.elements).length := by
      have hopen : ¬ (a.ies = 0 ∨ a.bytes.length ≤ a.fixed.length) := by
        rw [not_or]
        exact ⟨a.notNull, by omega⟩
      rw [rtwIesRemoveIe, if_neg hopen, hlen, Nat.add_sub_cancel_left]
    have hstart : a.ies + a.fixed.length ≠ 0 := by
      have hnull := a.notNull
      omega
    have hlist : Holds m (a.ies + a.fixed.length) (encode a.elements) := h.right
    simp only [hrun]
    constructor
    · rintro ⟨fuel, r, hr, hremoves⟩
      have hwithin : AllWithin eid oui a.elements := by
        by_contra hfar
        obtain ⟨x, hx, hout⟩ := removeLoop_outside (r := ⟨m, a.bytes.length, false, []⟩)
          hstart hlist hfar hr
        exact absurd (hremoves.reads x hx).2.1 (Nat.not_lt.mpr hout)
      obtain ⟨fuel', r', hr', hremoved⟩ := removeLoop_survivors
        (r := ⟨m, a.bytes.length, false, []⟩) hstart hlist hwithin
      rw [← removeLoop_unique hr hr'] at hremoved
      refine ⟨hwithin, encode_injective ?_⟩
      have hsame := hremoved.iesLen _ hlen
      rw [hremoves.iesLen, List.length_append] at hsame
      have hkept := hremoves.mem.right
      rw [← hkept.read, ← hremoved.mem.read, Nat.add_left_cancel hsame]
    · rintro ⟨hwithin, heq⟩
      obtain ⟨fuel, r, hr, hremoved⟩ := removeLoop_survivors
        (r := ⟨m, a.bytes.length, false, []⟩) hstart hlist hwithin
      rw [heq] at hremoved
      refine ⟨fuel + 1, r, hr, ?_, fun i hi => ?_, ?_, fun x hx => ?_⟩
      · refine Holds.append ?_ hremoved.mem
        exact h.left.congr fun i _ hlt => hremoved.outside i (.inl hlt)
      · exact hremoved.outside i (by omega)
      · rw [hremoved.iesLen _ hlen, List.length_append]
      · rcases hremoved.reads x hx with hold | hinside
        · exact absurd hold List.not_mem_nil
        · omega

theorem remove_ie_iff (m : Mem) (a : IeArea) (eid : UInt8) (oui : List UInt8)
    (h : a.Stored m) : RemoveLaw m a eid oui ↔ ShortOnesDiffer eid oui a.elements :=
  removeLaw_iff m a eid oui h

def IeArea.image (a : IeArea) : Mem := memOf a.bytes a.ies

def areaOf (fixed : List UInt8) (elements : List Element) : IeArea where
  ies := 0x1000
  fixed := fixed
  elements := elements
  notNull := by decide

def emptyElement (id : UInt8) : Element := ⟨id, [], by decide⟩

def vendorArea : IeArea :=
  areaOf [1, 2] [⟨221, [0, 0x50, 0xf2, 4], by decide⟩, ⟨0, [0x61], by decide⟩]

theorem remove_ie_iff_vendor : RemoveLaw vendorArea.image vendorArea 221 ouiMicrosoft ↔
    ShortOnesDiffer 221 ouiMicrosoft vendorArea.elements :=
  remove_ie_iff _ _ _ _ (.of_read (by decide))

def shortVendorArea : IeArea := areaOf [] [⟨221, [0], by decide⟩, emptyElement 0x50]

theorem short_vendor_removed : ¬ RemoveLaw shortVendorArea.image shortVendorArea 221 [0, 0x50] := by
  rw [removeLaw_iff _ _ _ _ (.of_read (by decide))]
  intro h
  exact (h.1 rfl (by decide)).2 (by decide)

end Ie
