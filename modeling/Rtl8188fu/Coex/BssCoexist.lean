import Mathlib.Data.List.TakeWhile
import Rtl8188fu.Ie.BssDelete

namespace Coex

open ByteMemory Tlv
open Ie (rtwGetIe u32Sub asInt)

def eidBssCoexistence : UInt8 := 72

def eidBssIntolerantChlReport : UInt8 := 73

def icsRows : ℕ := 8

structure Bss where
  ies : Mem UInt8
  base : ℕ
  ieLength : ℕ
  dsConfig : ℕ

def noHtCapability (b : Bss) : Bool :=
  match rtwGetIe b.ies (b.base + 12) Ie.eidHtCap (asInt (u32Sub b.ieLength 12)) with
  | none => true
  | some p => decide (b.ies (p + 1) = 0)

structure Row where
  id : ℕ
  bytes : Vector UInt8 15

def rtwZmalloc (id : ℕ) : Row := ⟨id, Vector.replicate 15 0⟩

-- none is a NULL entry of the pointer table
abbrev Ics := List (Option Row)

def allocIcs (ok : ℕ → Bool) : Ics :=
  let got := (List.range icsRows).takeWhile ok
  got.map (some ∘ rtwZmalloc) ++ List.replicate (icsRows - got.length) none

def clearIcs : Ics := List.replicate icsRows none

def freeIcs (ics : Ics) : List ℕ := ics.filterMap fun slot => slot.map Row.id

def Row.mark (r : Row) (ch : ℕ) : Row :=
  let bytes := r.bytes.setIfInBounds ch 1
  { r with bytes := if bytes[0] = 0 then bytes.set 0 1 else bytes }

def markChannel (ch : ℕ) : Ics → Option Ics
  | some r :: ics => some (some (r.mark ch) :: ics)
  | _ => none

def scanQueue : List Bss → Ics → Option Ics
  | [], ics => some ics
  | b :: queue, ics =>
    if noHtCapability b then
      if b.dsConfig = 0 ∨ 14 < b.dsConfig then scanQueue queue ics
      else (markChannel b.dsConfig ics).bind (scanQueue queue)
    else scanQueue queue ics

def rowChannels (r : Row) : List UInt8 :=
  ((List.range' 1 14).filter fun j => decide (r.bytes[j]? = some 1)).map UInt8.ofNat

def rowReport (i : ℕ) (r : Row) : List UInt8 :=
  if r.bytes[0] = 1 then
    let info := UInt8.ofNat i :: (rowChannels r).take 15
    eidBssIntolerantChlReport :: UInt8.ofNat info.length :: info
  else []

def emitReports : ℕ → Ics → Option (List UInt8)
  | _, [] => some []
  | _, none :: _ => none
  | i, some r :: ics => (emitReports (i + 1) ics).map (rowReport i r ++ ·)

structure CoexInput where
  num40MhzIntolerant : ℕ
  numStaNoHt : ℕ
  bwmodeUpdated : Bool
  txBlocked : Bool
  zmalloc : ℕ → Bool
  mgtFrame : Bool
  queue : List Bss

structure CoexRun where
  allocated : List ℕ
  freed : List ℕ
  nullDeref : Bool
  sent : List (List UInt8)

-- category PUBLIC, action BSSCOEXIST, then the 20 MHz width request
def coexHead : List UInt8 := [4, 0, eidBssCoexistence, 1, 0x04]

def issueActionBssCoexistPacket (v : CoexInput) : CoexRun :=
  if v.num40MhzIntolerant = 0 ∧ v.numStaNoHt = 0 then ⟨[], [], false, []⟩
  else if v.bwmodeUpdated then ⟨[], [], false, []⟩
  else if v.txBlocked then ⟨[], [], false, []⟩
  else
    let got := (List.range icsRows).takeWhile v.zmalloc
    if got.length < icsRows ∨ v.mgtFrame = false then
      ⟨got, freeIcs (allocIcs v.zmalloc), false, []⟩
    else
      -- _rtw_memset(ICS, 0, sizeof(ICS)) takes the table's pointers, not its rows
      let ics := clearIcs
      if 0 < v.numStaNoHt then
        match scanQueue v.queue ics with
        | none => ⟨got, [], true, []⟩
        | some ics =>
          match emitReports 0 ics with
          | none => ⟨got, [], true, []⟩
          | some reports => ⟨got, freeIcs ics, false, [coexHead ++ reports]⟩
      else ⟨got, freeIcs ics, false, [coexHead]⟩

def legacyChannel (b : Bss) : Option ℕ :=
  if noHtCapability b = true ∧ 1 ≤ b.dsConfig ∧ b.dsConfig ≤ 14 then some b.dsConfig else none

def reportChannels (ts : List Element) : List UInt8 := ts.flatMap fun t => t.body.tail

structure Reported (queue : List Bss) (frame : List UInt8) (ts : List Element) : Prop where
  frame : frame = coexHead ++ encode ts
  ids : ∀ t ∈ ts, t.id = eidBssIntolerantChlReport ∧ t.body ≠ []
  increasing : ∀ t ∈ ts, (t.body.tail.map UInt8.toNat).Pairwise (· < ·)
  once : (reportChannels ts).Nodup
  exact : ∀ ch, ch ∈ reportChannels ts ↔ ∃ b ∈ queue, legacyChannel b = some ch.toNat

def LeavesEarly (v : CoexInput) : Prop :=
  v.num40MhzIntolerant = 0 ∧ v.numStaNoHt = 0 ∨ v.bwmodeUpdated = true ∨ v.txBlocked = true

def AllocFails (v : CoexInput) : Prop := (∃ i < icsRows, v.zmalloc i = false) ∨ v.mgtFrame = false

structure Right (v : CoexInput) (run : CoexRun) : Prop where
  freed : run.freed.Perm run.allocated
  valid : run.nullDeref = false
  sends : ¬ LeavesEarly v → ¬ AllocFails v → ∃ frame ts, run.sent = [frame] ∧ Reported v.queue frame ts

section Table

variable {r : Row} {chs : List ℕ} {queue : List Bss} {ics : Ics}

def legacyChannels (queue : List Bss) : List ℕ := queue.filterMap legacyChannel

structure Marked (chs : List ℕ) (r : Row) : Prop where
  any : r.bytes[0] = if chs = [] then 0 else 1
  channel : ∀ j (h : j < 15), j ≠ 0 → r.bytes[j] = if j ∈ chs then 1 else 0

theorem marked_zmalloc (id : ℕ) : Marked [] (rtwZmalloc id) where
  any := rfl
  channel := fun j h _ => by
    rw [if_neg List.not_mem_nil]
    exact Vector.getElem_replicate h

theorem Marked.mark (h : Marked chs r) {ch : ℕ} (hch : 1 ≤ ch) (hch14 : ch ≤ 14) :
    Marked (chs ++ [ch]) (r.mark ch) := by
  have hone : (r.bytes.setIfInBounds ch 1)[0] = r.bytes[0] :=
    Vector.getElem_setIfInBounds_ne (by decide) (by omega)
  have hcons : chs ++ [ch] ≠ [] := List.append_ne_nil_of_right_ne_nil chs (List.cons_ne_nil ch [])
  constructor
  · rw [if_neg hcons, Row.mark]
    simp only [hone]
    split
    · exact Vector.getElem_set_self _
    · rename_i hset
      cases Decidable.em (chs = []) with
      | inl hnil => exact absurd (h.any.trans (if_pos hnil)) hset
      | inr hsome => exact hone.trans (h.any.trans (if_neg hsome))
  · intro j hj hpos
    have hother : (r.mark ch).bytes[j] = (r.bytes.setIfInBounds ch 1)[j] := by
      rw [Row.mark]
      simp only
      split
      · exact Vector.getElem_set_ne _ _ (Ne.symm hpos)
      · rfl
    rw [hother, Vector.getElem_setIfInBounds]
    simp only [List.mem_append, List.mem_singleton]
    cases Decidable.em (ch = j) with
    | inl heq => rw [if_pos heq, if_pos (.inr heq.symm)]
    | inr hne =>
      rw [if_neg hne, h.channel j hj hpos]
      exact if_congr (or_iff_left fun heq => hne heq.symm).symm rfl rfl

theorem legacyChannel_some {b : Bss} {ch : ℕ} (h : legacyChannel b = some ch) :
    1 ≤ ch ∧ ch ≤ 14 := by
  rw [legacyChannel] at h
  split at h
  · rename_i hlegacy
    cases h
    exact hlegacy.2
  · cases h

theorem scanQueue_cons (b : Bss) (queue : List Bss) (ics : Ics) :
    scanQueue (b :: queue) ics =
      match legacyChannel b with
      | some ch => (markChannel ch ics).bind (scanQueue queue)
      | none => scanQueue queue ics := by
  rw [scanQueue, legacyChannel]
  cases noHtCapability b with
  | false =>
    rw [if_neg Bool.false_ne_true, if_neg fun h => Bool.false_ne_true h.1]
  | true =>
    cases Decidable.em (b.dsConfig = 0 ∨ 14 < b.dsConfig) with
    | inl hout =>
      rw [if_pos rfl, if_pos hout, if_neg fun hin => by
        have hrange := hin.2
        omega]
    | inr hin => rw [if_pos rfl, if_neg hin, if_pos ⟨rfl, by omega, by omega⟩]

theorem scanQueue_table (queue : List Bss) (r : Row) (ics : Ics) :
    scanQueue queue (some r :: ics) = some (some ((legacyChannels queue).foldl Row.mark r) :: ics) := by
  induction queue generalizing r with
  | nil => rfl
  | cons b queue ih =>
    rw [scanQueue_cons, legacyChannels, List.filterMap_cons]
    cases legacyChannel b with
    | none => exact ih r
    | some ch => exact ih (r.mark ch)

theorem marked_foldl (more : List ℕ) (h : Marked chs r) (hmore : ∀ ch ∈ more, 1 ≤ ch ∧ ch ≤ 14) :
    Marked (chs ++ more) (more.foldl Row.mark r) := by
  induction more generalizing chs r with
  | nil => rwa [List.append_nil]
  | cons ch more ih =>
    obtain ⟨hlow, hhigh⟩ := hmore ch List.mem_cons_self
    have hrest := ih (h.mark hlow hhigh) fun d hd => hmore d (List.mem_cons_of_mem ch hd)
    rwa [List.append_assoc] at hrest

theorem legacyChannels_range : ∀ ch ∈ legacyChannels queue, 1 ≤ ch ∧ ch ≤ 14 := by
  intro ch hch
  obtain ⟨b, -, hb⟩ := List.mem_filterMap.mp hch
  exact legacyChannel_some hb

def channelsOf (chs : List ℕ) : List ℕ := (List.range' 1 14).filter fun j => decide (j ∈ chs)

theorem Marked.rowChannels (h : Marked chs r) :
    rowChannels r = (channelsOf chs).map UInt8.ofNat := by
  rw [Coex.rowChannels, channelsOf]
  refine congrArg _ (List.filter_congr fun j hj => ?_)
  obtain ⟨hlow, hhigh⟩ := List.mem_range'_1.mp hj
  have hj15 : j < 15 := by omega
  rw [Vector.getElem?_eq_getElem hj15, h.channel j hj15 (by omega)]
  split
  · rename_i hin
    exact (decide_eq_true rfl).trans (decide_eq_true hin).symm
  · rename_i hout
    exact (decide_eq_false (by decide)).trans (decide_eq_false hout).symm

theorem length_channelsOf (chs : List ℕ) : (channelsOf chs).length ≤ 14 :=
  (List.length_filter_le _ _).trans_eq List.length_range'

theorem mem_channelsOf {ch : ℕ} (hchs : ∀ ch ∈ chs, 1 ≤ ch ∧ ch ≤ 14) :
    ch ∈ channelsOf chs ↔ ch ∈ chs := by
  rw [channelsOf, List.mem_filter, List.mem_range'_1, decide_eq_true_iff]
  refine and_iff_right_of_imp fun hch => ?_
  have hin := hchs ch hch
  omega

theorem toNat_channelsOf (chs : List ℕ) :
    ((channelsOf chs).map UInt8.ofNat).map UInt8.toNat = channelsOf chs := by
  rw [List.map_map]
  refine List.map_congr_left (g := id) (fun ch hch => ?_) |>.trans (List.map_id _)
  have hin := List.mem_range'_1.mp (List.mem_filter.mp hch).1
  rw [Function.comp_apply, UInt8.toNat_ofNat']
  exact Nat.mod_eq_of_lt (by omega)

def reportElement (chs : List ℕ) : Element :=
  ⟨eidBssIntolerantChlReport, 0 :: (channelsOf chs).map UInt8.ofNat, by
    rw [List.length_cons, List.length_map]
    have hfew := length_channelsOf chs
    omega⟩

theorem Marked.rowReport (h : Marked chs r) :
    rowReport 0 r = if chs = [] then [] else (reportElement chs).bytes := by
  rw [Coex.rowReport, h.any]
  cases Decidable.em (chs = []) with
  | inl hnil => rw [if_pos hnil, if_pos hnil, if_neg (by decide)]
  | inr hsome =>
    have hall : ((channelsOf chs).map UInt8.ofNat).take 15 = (channelsOf chs).map UInt8.ofNat := by
      refine List.take_of_length_le ?_
      rw [List.length_map]
      exact (length_channelsOf chs).trans (by decide)
    rw [if_neg hsome, if_neg hsome, if_pos rfl]
    simp only [h.rowChannels, hall]
    rfl

theorem increasing_channelsOf (chs : List ℕ) : (channelsOf chs).Pairwise (· < ·) :=
  List.Pairwise.filter _ List.pairwise_lt_range'

def tableElements (chs : List ℕ) : List Element := if chs = [] then [] else [reportElement chs]

theorem encode_tableElements (h : Marked chs r) : rowReport 0 r = encode (tableElements chs) := by
  rw [h.rowReport, tableElements]
  split
  · rfl
  · rw [encode_cons, encode_nil, List.append_nil]

theorem reportChannels_table (chs : List ℕ) :
    reportChannels (tableElements chs) = (channelsOf chs).map UInt8.ofNat := by
  rw [tableElements]
  split
  · rename_i hnil
    rw [hnil, channelsOf, List.filter_eq_nil_iff.mpr fun j _ hj =>
      List.not_mem_nil (of_decide_eq_true hj)]
    rfl
  · exact List.append_nil _

theorem table_reported (queue : List Bss) :
    Reported queue (coexHead ++ encode (tableElements (legacyChannels queue)))
      (tableElements (legacyChannels queue)) := by
  have hchannels := reportChannels_table (legacyChannels queue)
  have hnat := toNat_channelsOf (legacyChannels queue)
  have hincreasing := increasing_channelsOf (legacyChannels queue)
  have hmem : ∀ t ∈ tableElements (legacyChannels queue), t = reportElement (legacyChannels queue) := by
    intro t ht
    rw [tableElements] at ht
    split at ht
    · exact absurd ht List.not_mem_nil
    · exact List.mem_singleton.mp ht
  refine ⟨rfl, fun t ht => ?_, fun t ht => ?_, ?_, fun ch => ?_⟩
  · rw [hmem t ht]
    exact ⟨rfl, List.cons_ne_nil _ _⟩
  · rw [hmem t ht]
    exact hnat.symm ▸ hincreasing
  · rw [hchannels]
    refine List.Nodup.of_map UInt8.toNat ?_
    rw [hnat]
    exact hincreasing.imp Nat.ne_of_lt
  · have hin : ch ∈ (channelsOf (legacyChannels queue)).map UInt8.ofNat ↔
        ch.toNat ∈ channelsOf (legacyChannels queue) := by
      rw [← hnat, List.mem_map (f := UInt8.toNat), hnat]
      exact ⟨fun h => ⟨ch, h, rfl⟩, fun ⟨d, hd, heq⟩ => UInt8.toNat_inj.mp heq ▸ hd⟩
    rw [hchannels, hin, mem_channelsOf legacyChannels_range]
    exact List.mem_filterMap

end Table

section Law

variable {v : CoexInput} {queue : List Bss} {ics : Ics}

def laterRows : Ics := (List.range' 1 7).map (some ∘ rtwZmalloc)

theorem allocIcs_all : allocIcs (fun _ => true) = some (rtwZmalloc 0) :: laterRows := rfl

theorem emit_laterRows : emitReports 1 laterRows = some [] := by
  have hempty (i id : ℕ) : rowReport i (rtwZmalloc id) = [] :=
    if_neg (by decide : ¬ (Vector.replicate 15 (0 : UInt8))[0] = 1)
  simp only [laterRows, List.range', List.map_cons, List.map_nil, Function.comp_apply, emitReports,
    hempty, Option.map_some, List.nil_append]

theorem allocated_table_reports (queue : List Bss) :
    ∃ ics, scanQueue queue (allocIcs fun _ => true) = some ics ∧
      emitReports 0 ics = some (encode (tableElements (legacyChannels queue))) ∧
      freeIcs ics = List.range icsRows := by
  have hmarked := marked_foldl (legacyChannels queue) (marked_zmalloc 0) legacyChannels_range
  have hid (chs : List ℕ) (r : Row) : (chs.foldl Row.mark r).id = r.id := by
    induction chs generalizing r with
    | nil => rfl
    | cons ch chs ih => exact ih (r.mark ch)
  rw [List.nil_append] at hmarked
  refine ⟨_, (congrArg (scanQueue queue) allocIcs_all).trans (scanQueue_table queue _ _), ?_, ?_⟩
  · rw [emitReports, emit_laterRows, Option.map_some, List.append_nil, encode_tableElements hmarked]
  · rw [freeIcs, List.filterMap_cons, Option.map_some, hid]
    rfl

theorem scanQueue_clear (h : scanQueue queue clearIcs = some ics) : ics = clearIcs := by
  induction queue with
  | nil => exact (Option.some.inj h).symm
  | cons b queue ih =>
    rw [scanQueue_cons] at h
    cases hch : legacyChannel b with
    | none =>
      rw [hch] at h
      exact ih h
    | some ch =>
      rw [hch] at h
      cases h

theorem freeIcs_alloc (ok : ℕ → Bool) :
    freeIcs (allocIcs ok) = (List.range icsRows).takeWhile ok := by
  have hsome (ids : List ℕ) : freeIcs (ids.map (some ∘ rtwZmalloc)) = ids := by
    induction ids with
    | nil => rfl
    | cons id ids ih =>
      rw [List.map_cons, freeIcs, List.filterMap_cons]
      exact congrArg (id :: ·) ih
  have hnone (n : ℕ) : freeIcs (List.replicate n none) = [] := by
    induction n with
    | zero => rfl
    | succ n ih => exact ih
  have hsplit (xs ys : Ics) : freeIcs (xs ++ ys) = freeIcs xs ++ freeIcs ys := List.filterMap_append
  rw [allocIcs, hsplit, hsome, hnone, List.append_nil]

theorem takeWhile_all (h : ∀ i < icsRows, v.zmalloc i = true) :
    (List.range icsRows).takeWhile v.zmalloc = List.range icsRows :=
  List.takeWhile_eq_self_iff.mpr fun i hi => h i (List.mem_range.mp hi)

theorem leaves_early (h : LeavesEarly v) : issueActionBssCoexistPacket v = ⟨[], [], false, []⟩ := by
  rw [issueActionBssCoexistPacket]
  split
  · rfl
  · rename_i hcounted
    split
    · rfl
    · rename_i hmode
      split
      · rfl
      · rename_i hfree
        rcases h with hnone | hupdated | hblocked
        · exact absurd hnone hcounted
        · exact absurd hupdated hmode
        · exact absurd hblocked hfree

theorem takeWhile_short {i : ℕ} (hi : i < icsRows) (h : v.zmalloc i = false) :
    ((List.range icsRows).takeWhile v.zmalloc).length < icsRows := by
  refine Nat.lt_of_le_of_ne ((List.takeWhile_prefix _).length_le.trans_eq List.length_range) ?_
  intro hfull
  have hself := (List.takeWhile_prefix v.zmalloc (l := List.range icsRows)).eq_of_length
    (hfull.trans List.length_range.symm)
  have hall := List.takeWhile_eq_self_iff.mp hself i (List.mem_range.mpr hi)
  rw [h] at hall
  exact Bool.false_ne_true hall

theorem started (h : ¬ LeavesEarly v) : issueActionBssCoexistPacket v =
    let got := (List.range icsRows).takeWhile v.zmalloc
    if got.length < icsRows ∨ v.mgtFrame = false then
      ⟨got, freeIcs (allocIcs v.zmalloc), false, []⟩
    else if 0 < v.numStaNoHt then
      match scanQueue v.queue clearIcs with
      | none => ⟨got, [], true, []⟩
      | some ics =>
        match emitReports 0 ics with
        | none => ⟨got, [], true, []⟩
        | some reports => ⟨got, freeIcs ics, false, [coexHead ++ reports]⟩
    else ⟨got, freeIcs clearIcs, false, [coexHead]⟩ := by
  have hcounted : ¬ (v.num40MhzIntolerant = 0 ∧ v.numStaNoHt = 0) := fun hnone => h (.inl hnone)
  have hmode : ¬ v.bwmodeUpdated = true := fun hupdated => h (.inr (.inl hupdated))
  have hfree : ¬ v.txBlocked = true := fun hblocked => h (.inr (.inr hblocked))
  rw [issueActionBssCoexistPacket, if_neg hcounted, if_neg hmode, if_neg hfree]

theorem alloc_fails (hstart : ¬ LeavesEarly v) (h : AllocFails v) :
    issueActionBssCoexistPacket v =
      ⟨(List.range icsRows).takeWhile v.zmalloc, (List.range icsRows).takeWhile v.zmalloc, false, []⟩ := by
  have hstop : ((List.range icsRows).takeWhile v.zmalloc).length < icsRows ∨ v.mgtFrame = false := by
    rcases h with ⟨i, hi, hfail⟩ | hframe
    · exact .inl (takeWhile_short hi hfail)
    · exact .inr hframe
  rw [started hstart]
  simp only [if_pos hstop, freeIcs_alloc]

theorem table_lost (hstart : ¬ LeavesEarly v) (hok : ¬ AllocFails v) :
    (issueActionBssCoexistPacket v).allocated = List.range icsRows ∧
      (issueActionBssCoexistPacket v).freed = [] := by
  have hrows : ∀ i < icsRows, v.zmalloc i = true := fun i hi =>
    Bool.eq_true_of_not_eq_false fun hfail => hok (.inl ⟨i, hi, hfail⟩)
  have hgo : ¬ ((List.range icsRows).length < icsRows ∨ v.mgtFrame = false) := by
    rintro (hshort | hframe)
    · exact absurd hshort (by decide)
    · exact hok (.inr hframe)
  rw [started hstart]
  simp only [takeWhile_all hrows, if_neg hgo]
  split
  · cases hscan : scanQueue v.queue clearIcs with
    | none => exact ⟨rfl, rfl⟩
    | some ics =>
      rw [scanQueue_clear hscan]
      exact ⟨rfl, rfl⟩
  · exact ⟨rfl, rfl⟩

theorem coexist_law (v : CoexInput) :
    Right v (issueActionBssCoexistPacket v) ↔ LeavesEarly v ∨ AllocFails v := by
  constructor
  · intro h
    by_contra hgoes
    obtain ⟨hstart, hok⟩ := not_or.mp hgoes
    obtain ⟨hallocated, hfreed⟩ := table_lost hstart hok
    have hperm := h.freed.length_eq
    rw [hallocated, hfreed] at hperm
    exact absurd hperm (by decide)
  · intro h
    cases Classical.em (LeavesEarly v) with
    | inl hearly =>
      rw [leaves_early hearly]
      exact ⟨List.Perm.refl _, rfl, fun hstart => absurd hearly hstart⟩
    | inr hstart =>
      have hfails := h.resolve_left hstart
      rw [alloc_fails hstart hfails]
      exact ⟨List.Perm.refl _, rfl, fun _ hok => absurd hfails hok⟩

def oneLegacyCounted : CoexInput where
  num40MhzIntolerant := 0
  numStaNoHt := 1
  bwmodeUpdated := false
  txBlocked := false
  zmalloc _ := true
  mgtFrame := true
  queue := []

theorem table_leaked_and_dereferenced : ¬ Right oneLegacyCounted
    (issueActionBssCoexistPacket oneLegacyCounted) := fun h =>
  absurd h.valid (by decide +kernel)

end Law

end Coex
