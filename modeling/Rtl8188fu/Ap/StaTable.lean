import Mathlib.Data.Finset.Card
import Mathlib.Data.Fintype.Basic
import Mathlib.Data.List.Nodup
import Mathlib.Tactic.Common
import Mathlib.Logic.Function.Basic
import Rtl8188fu.Lib.Run
import Rtl8188fu.Recv.Frame

namespace Ap

open Recv (MacAddr isMcast)

def numSta : ℕ := 32

abbrev StaId := Fin numSta

instance lawfulBEqStaId : LawfulBEq StaId := inferInstance

def bcAddr : MacAddr := Vector.replicate 6 0xff

def wifiMacHash (mac : MacAddr) : ℕ :=
  let x := (mac.get 0).toNat
  let x := (x <<< 2) ^^^ (mac.get 1).toNat
  let x := (x <<< 2) ^^^ (mac.get 2).toNat
  let x := (x <<< 2) ^^^ (mac.get 3).toNat
  let x := (x <<< 2) ^^^ (mac.get 4).toNat
  let x := (x <<< 2) ^^^ (mac.get 5).toNat
  let x := x ^^^ (x >>> 8)
  x &&& (numSta - 1)

structure StaTable where
  freeStaQueue : List StaId
  staHash : ℕ → List StaId
  macAddr : StaId → MacAddr
  asocStaCount : ℤ

namespace StaTable

def init : StaTable where
  freeStaQueue := List.finRange numSta
  staHash _ := []
  macAddr _ := Vector.replicate 6 0
  asocStaCount := 0

def unhash (t : StaTable) (psta : StaId) : StaTable :=
  { t with staHash := fun index => (t.staHash index).erase psta }

def rtwAllocStainfo (t : StaTable) (hwaddr : MacAddr) : StaTable × Option StaId :=
  match t.freeStaQueue with
  | [] => (t, none)
  | psta :: rest =>
    let t := { t with
      freeStaQueue := rest
      macAddr := Function.update t.macAddr psta hwaddr }
    let index := wifiMacHash hwaddr
    if index ≥ numSta then (t, none)
    else
      ({ t with
        staHash := Function.update t.staHash index (t.staHash index ++ [psta])
        asocStaCount := t.asocStaCount + 1 }, some psta)

def rtwFreeStainfo (t : StaTable) (psta : StaId) : StaTable :=
  let t := t.unhash psta
  { t with
    asocStaCount := t.asocStaCount - 1
    freeStaQueue := t.freeStaQueue ++ [psta] }

def rtwGetStainfo (t : StaTable) (hwaddr : MacAddr) : Option StaId :=
  let addr := if isMcast hwaddr then bcAddr else hwaddr
  (t.staHash (wifiMacHash addr)).find? fun psta => t.macAddr psta == addr

def rtwGetBcmcStainfo (t : StaTable) : Option StaId :=
  t.rtwGetStainfo bcAddr

def collect (pbcmc : Option StaId) (s : StaTable × List StaId) (psta : StaId) :
    StaTable × List StaId :=
  if pbcmc ≠ some psta then (s.1.unhash psta, s.2 ++ [psta]) else s

def collectBucket (pbcmc : Option StaId) (s : StaTable × List StaId) (index : ℕ) :
    StaTable × List StaId :=
  (s.1.staHash index).foldl (collect pbcmc) s

def rtwFreeAllStainfo (t : StaTable) : StaTable :=
  if t.asocStaCount = 1 then t
  else
    let pbcmc := t.rtwGetBcmcStainfo
    let (t, freeStaList) := (List.range numSta).foldl (collectBucket pbcmc) (t, [])
    freeStaList.foldl rtwFreeStainfo t

structure Partitioned (t : StaTable) : Prop where
  freeNodup : t.freeStaQueue.Nodup
  bucketNodup : ∀ index, (t.staHash index).Nodup
  somewhere : ∀ psta, psta ∈ t.freeStaQueue ∨ psta ∈ t.staHash (wifiMacHash (t.macAddr psta))
  apart : ∀ psta ∈ t.freeStaQueue, ∀ index, psta ∉ t.staHash index
  own : ∀ index, ∀ psta ∈ t.staHash index, index = wifiMacHash (t.macAddr psta)

def allocated (t : StaTable) : Finset StaId :=
  Finset.univ.filter fun psta => psta ∉ t.freeStaQueue

end StaTable

inductive StaEvent where
  | alloc (hwaddr : MacAddr)
  | free (psta : Option StaId)
  | freeAll

def staKey (hwaddr : MacAddr) : MacAddr :=
  if isMcast hwaddr then bcAddr else hwaddr

structure StaLog where
  table : StaTable
  live : List (MacAddr × StaId)

namespace StaLog

def init : StaLog := ⟨.init, []⟩

def step (s : StaLog) : StaEvent → StaLog
  | .alloc hwaddr =>
    match s.table.rtwAllocStainfo hwaddr with
    | (table, none) => ⟨table, s.live⟩
    | (table, some psta) => ⟨table, (hwaddr, psta) :: s.live⟩
  | .free none => s
  | .free (some psta) => ⟨s.table.rtwFreeStainfo psta, s.live.filter fun e => e.2 ≠ psta⟩
  | .freeAll =>
    ⟨s.table.rtwFreeAllStainfo,
      if s.live.length = 1 then s.live else s.live.filter fun e => e.1 = bcAddr⟩

def Given (s : StaLog) : StaEvent → Prop
  | .alloc hwaddr => ∀ e ∈ s.live, e.1 ≠ hwaddr
  | .free psta => ∀ p ∈ psta, ∃ e ∈ s.live, e.2 = p
  | .freeAll => True

instance (s : StaLog) : (e : StaEvent) → Decidable (s.Given e)
  | .alloc hwaddr => inferInstanceAs (Decidable (∀ e ∈ s.live, e.1 ≠ hwaddr))
  | .free psta => inferInstanceAs (Decidable (∀ p ∈ psta, ∃ e ∈ s.live, e.2 = p))
  | .freeAll => .isTrue trivial

structure Sound (s : StaLog) : Prop where
  partitioned : s.table.Partitioned
  count : s.table.asocStaCount = s.table.allocated.card
  lookup : ∀ hwaddr psta, s.table.rtwGetStainfo hwaddr = some psta ↔
    (staKey hwaddr, psta) ∈ s.live
  bulk : ∀ bcmc, s.table.rtwGetBcmcStainfo = some bcmc → ∀ hwaddr,
    s.table.rtwFreeAllStainfo.rtwGetStainfo hwaddr = if isMcast hwaddr then some bcmc else none

end StaLog

theorem wifiMacHash_lt (mac : MacAddr) : wifiMacHash mac < numSta :=
  Nat.lt_succ_of_le Nat.and_le_right

structure Tracks (t : StaTable) (live : List (MacAddr × StaId)) : Prop where
  bucket : ∀ index psta, psta ∈ t.staHash index ↔
    ∃ e ∈ live, e.2 = psta ∧ index = wifiMacHash e.1
  addr : ∀ e ∈ live, t.macAddr e.2 = e.1
  keys : (live.map Prod.fst).Nodup
  bucketNodup : ∀ index, (t.staHash index).Nodup
  freeNodup : t.freeStaQueue.Nodup
  split : ∀ psta, psta ∈ t.freeStaQueue ↔ ∀ e ∈ live, e.2 ≠ psta
  count : t.asocStaCount = live.length

namespace Tracks

variable {t : StaTable} {live : List (MacAddr × StaId)}

theorem init : Tracks .init [] where
  bucket := by simp [StaTable.init]
  addr := by simp
  keys := List.nodup_nil
  bucketNodup := fun _ => List.nodup_nil
  freeNodup := List.nodup_finRange _
  split := by simp [StaTable.init]
  count := rfl

theorem entry_unique (h : Tracks t live) {e e' : MacAddr × StaId} (he : e ∈ live)
    (he' : e' ∈ live) (hid : e.2 = e'.2) : e = e' := by
  have haddr : e.1 = e'.1 := by rw [← h.addr e he, ← h.addr e' he', hid]
  exact Prod.ext haddr hid

theorem live_nodup (h : Tracks t live) : live.Nodup :=
  h.keys.of_map

theorem ids_nodup (h : Tracks t live) : (live.map Prod.snd).Nodup :=
  h.live_nodup.map_on fun _ he _ he' hid => h.entry_unique he he' hid

theorem partitioned (h : Tracks t live) : t.Partitioned where
  freeNodup := h.freeNodup
  bucketNodup := h.bucketNodup
  somewhere := by
    intro psta
    cases Decidable.em (∀ e ∈ live, e.2 ≠ psta) with
    | inl hlive => exact .inl ((h.split psta).mpr hlive)
    | inr hlive =>
      push Not at hlive
      obtain ⟨e, he, rfl⟩ := hlive
      exact .inr ((h.bucket _ _).mpr ⟨e, he, rfl, by rw [h.addr e he]⟩)
  apart := by
    intro psta hfree index hmem
    obtain ⟨e, he, hid, -⟩ := (h.bucket index psta).mp hmem
    exact (h.split psta).mp hfree e he hid
  own := by
    intro index psta hmem
    obtain ⟨e, he, rfl, hindex⟩ := (h.bucket index psta).mp hmem
    rw [h.addr e he]
    exact hindex

theorem card_allocated (h : Tracks t live) : t.allocated.card = live.length := by
  have hset : t.allocated = (live.map Prod.snd).toFinset := by
    ext psta
    simp only [StaTable.allocated, Finset.mem_filter, Finset.mem_univ, true_and,
      List.mem_toFinset, List.mem_map, h.split psta]
    push Not
    rfl
  rw [hset, List.toFinset_card_of_nodup h.ids_nodup, List.length_map]

theorem lookup (h : Tracks t live) (hwaddr : MacAddr) (psta : StaId) :
    t.rtwGetStainfo hwaddr = some psta ↔ (staKey hwaddr, psta) ∈ live := by
  have hget : t.rtwGetStainfo hwaddr = (t.staHash (wifiMacHash (staKey hwaddr))).find?
      fun psta => t.macAddr psta == staKey hwaddr := rfl
  rw [hget]
  constructor
  · intro hfind
    have hmac := List.find?_some hfind
    obtain ⟨e, he, rfl, -⟩ := (h.bucket _ _).mp (List.mem_of_find?_eq_some hfind)
    simp only [beq_iff_eq] at hmac
    rw [← hmac, h.addr e he]
    exact he
  · intro hlive
    have hmem := (h.bucket (wifiMacHash (staKey hwaddr)) psta).mpr ⟨_, hlive, rfl, rfl⟩
    cases hfind : (t.staHash (wifiMacHash (staKey hwaddr))).find?
        fun psta => t.macAddr psta == staKey hwaddr with
    | none =>
      have hno := List.find?_eq_none.mp hfind psta hmem
      simp [h.addr _ hlive] at hno
    | some q =>
      have hmac := List.find?_some hfind
      obtain ⟨e, he, rfl, -⟩ := (h.bucket _ _).mp (List.mem_of_find?_eq_some hfind)
      simp only [beq_iff_eq] at hmac
      rw [h.addr e he] at hmac
      have heq := List.inj_on_of_nodup_map h.keys he hlive hmac
      rw [heq]

theorem free (h : Tracks t live) {e : MacAddr × StaId} (he : e ∈ live) :
    Tracks (t.rtwFreeStainfo e.2) (live.filter fun e' => e'.2 ≠ e.2) where
  bucket := by
    intro index psta
    simp only [StaTable.rtwFreeStainfo, StaTable.unhash,
      (h.bucketNodup index).mem_erase_iff, h.bucket, List.mem_filter, decide_eq_true_eq]
    constructor
    · rintro ⟨hne, e', he', rfl, hindex⟩
      exact ⟨e', ⟨he', hne⟩, rfl, hindex⟩
    · rintro ⟨e', ⟨he', hne⟩, rfl, hindex⟩
      exact ⟨hne, e', he', rfl, hindex⟩
  addr := fun e' he' => h.addr e' (List.mem_of_mem_filter he')
  keys := h.keys.sublist (List.filter_sublist.map _)
  bucketNodup := fun index => (h.bucketNodup index).erase _
  freeNodup := by
    refine List.Nodup.append h.freeNodup (List.nodup_singleton _) ?_
    intro psta hfree hmem
    rw [List.mem_singleton] at hmem
    exact (h.split psta).mp hfree e he hmem.symm
  split := by
    intro psta
    simp only [StaTable.rtwFreeStainfo, StaTable.unhash, List.mem_append, List.mem_singleton,
      h.split psta, List.mem_filter, decide_eq_true_eq]
    constructor
    · rintro (hnone | rfl) e' he'
      · exact hnone e' he'.1
      · exact he'.2
    · intro hnone
      cases Decidable.em (psta = e.2) with
      | inl hid => exact .inr hid
      | inr hid =>
        refine .inl fun e' he' hid' => hnone e' ⟨he', ?_⟩ hid'
        rw [hid']
        exact hid
  count := by
    have herase : (live.filter fun e' => e'.2 ≠ e.2) = live.erase e := by
      rw [h.live_nodup.erase_eq_filter]
      refine List.filter_congr fun e' he' => ?_
      have hiff : e'.2 = e.2 ↔ e' = e := ⟨h.entry_unique he' he, fun heq => heq ▸ rfl⟩
      cases Decidable.em (e' = e) with
      | inl heq => simp [heq]
      | inr heq => simp [heq, hiff]
    have hlen := List.length_erase_of_mem he
    have hpos := List.length_pos_of_mem he
    simp only [herase, StaTable.rtwFreeStainfo, StaTable.unhash, h.count]
    omega

theorem alloc (h : Tracks t live) {hwaddr : MacAddr} (hnew : ∀ e ∈ live, e.1 ≠ hwaddr) :
    match t.rtwAllocStainfo hwaddr with
    | (t', none) => t' = t ∧ t.freeStaQueue = []
    | (t', some psta) => Tracks t' ((hwaddr, psta) :: live) := by
  cases hqueue : t.freeStaQueue with
  | nil => simp [StaTable.rtwAllocStainfo, hqueue]
  | cons psta rest =>
    have hhash := wifiMacHash_lt hwaddr
    simp only [StaTable.rtwAllocStainfo, hqueue, if_neg (not_le.mpr hhash)]
    have hfree := (h.split psta).mp (by simp [hqueue])
    have hnodup := h.freeNodup
    rw [hqueue, List.nodup_cons] at hnodup
    constructor
    · intro index q
      cases Decidable.em (index = wifiMacHash hwaddr) with
      | inl hindex =>
        subst hindex
        simp only [Function.update_self, List.mem_append, h.bucket, List.mem_cons,
          List.not_mem_nil, or_false]
        constructor
        · rintro (⟨e, he, rfl, heq⟩ | rfl)
          · exact ⟨e, .inr he, rfl, heq⟩
          · exact ⟨_, .inl rfl, rfl, rfl⟩
        · rintro ⟨e, rfl | he, rfl, heq⟩
          · exact .inr rfl
          · exact .inl ⟨e, he, rfl, heq⟩
      | inr hindex =>
        simp only [Function.update_of_ne hindex, h.bucket, List.mem_cons]
        constructor
        · rintro ⟨e, he, rfl, heq⟩
          exact ⟨e, .inr he, rfl, heq⟩
        · rintro ⟨e, rfl | he, rfl, heq⟩
          · exact absurd heq hindex
          · exact ⟨e, he, rfl, heq⟩
    · intro e he
      rcases List.mem_cons.mp he with rfl | he
      · exact Function.update_self ..
      · simp only [Function.update_of_ne (hfree e he)]
        exact h.addr e he
    · rw [List.map_cons, List.nodup_cons]
      refine ⟨fun hmem => ?_, h.keys⟩
      obtain ⟨e, he, haddr⟩ := List.mem_map.mp hmem
      exact hnew e he haddr
    · intro index
      cases Decidable.em (index = wifiMacHash hwaddr) with
      | inl hindex =>
        subst hindex
        simp only [Function.update_self]
        refine List.Nodup.append (h.bucketNodup _) (List.nodup_singleton _) ?_
        intro q hmem hq
        rw [List.mem_singleton] at hq
        obtain ⟨e, he, hid, -⟩ := (h.bucket _ _).mp hmem
        exact hfree e he (hid.trans hq)
      | inr hindex =>
        simp only [Function.update_of_ne hindex]
        exact h.bucketNodup index
    · exact hnodup.2
    · intro q
      have hsplit := h.split q
      rw [hqueue, List.mem_cons] at hsplit
      simp only [List.forall_mem_cons]
      constructor
      · intro hq
        refine ⟨fun heq => hnodup.1 (heq ▸ hq), hsplit.mp (.inr hq)⟩
      · rintro ⟨hne, hnone⟩
        exact (hsplit.mpr hnone).resolve_left (Ne.symm hne)
    · simp [h.count]

theorem freeList (h : Tracks t live) {ps : List StaId} (hps : ps.Nodup)
    (hlive : ∀ p ∈ ps, ∃ e ∈ live, e.2 = p) :
    Tracks (ps.foldl StaTable.rtwFreeStainfo t) (live.filter fun e => e.2 ∉ ps) := by
  induction ps generalizing t live with
  | nil => simpa using h
  | cons p ps ih =>
    rw [List.nodup_cons] at hps
    obtain ⟨e, he, rfl⟩ := hlive p List.mem_cons_self
    have hrest : ∀ q ∈ ps, ∃ e' ∈ live.filter (fun e' => e'.2 ≠ e.2), e'.2 = q := by
      intro q hq
      obtain ⟨e', he', rfl⟩ := hlive q (List.mem_cons_of_mem _ hq)
      have hne : e'.2 ≠ e.2 := fun heq => hps.1 (heq ▸ hq)
      exact ⟨e', List.mem_filter.mpr ⟨he', by simpa using hne⟩, rfl⟩
    have hfold := ih (h.free he) hps.2 hrest
    rw [List.filter_filter] at hfold
    rw [List.foldl_cons]
    convert hfold using 2
    funext e'
    simp [Bool.and_comm]

end Tracks

namespace StaTable

theorem unhash_of_notMem {t : StaTable} {p : StaId} {index : ℕ} (hp : p ∉ t.staHash index) :
    (t.unhash p).staHash index = t.staHash index :=
  List.erase_of_not_mem hp

theorem unhash_foldl_of_notMem {ps : List StaId} {t : StaTable} {index : ℕ}
    (hps : ∀ p ∈ ps, p ∉ t.staHash index) :
    (ps.foldl unhash t).staHash index = t.staHash index := by
  induction ps generalizing t with
  | nil => rfl
  | cons p ps ih =>
    have hp := unhash_of_notMem (hps p List.mem_cons_self)
    rw [List.foldl_cons, ih, hp]
    intro q hq
    rw [hp]
    exact hps q (List.mem_cons_of_mem _ hq)

theorem unhash_comm (t : StaTable) (p q : StaId) :
    (t.unhash p).unhash q = (t.unhash q).unhash p := by
  simp only [unhash, List.erase_comm]

theorem unhash_twice {t : StaTable} (hnodup : ∀ index, (t.staHash index).Nodup) (p : StaId) :
    (t.unhash p).unhash p = t.unhash p := by
  simp only [unhash, StaTable.mk.injEq, true_and, and_true]
  funext index
  exact List.erase_of_not_mem (hnodup index).not_mem_erase

theorem rtwFreeStainfo_unhash (t : StaTable) (p q : StaId) :
    (t.unhash q).rtwFreeStainfo p = (t.rtwFreeStainfo p).unhash q := by
  have hcomm := congrArg staHash (t.unhash_comm q p)
  simp only [rtwFreeStainfo, unhash, StaTable.mk.injEq, and_true, true_and] at hcomm ⊢
  exact hcomm

theorem rtwFreeStainfo_unhash_foldl (ps : List StaId) (t : StaTable) (p : StaId) :
    (ps.foldl unhash t).rtwFreeStainfo p = ps.foldl unhash (t.rtwFreeStainfo p) := by
  induction ps generalizing t with
  | nil => rfl
  | cons q ps ih => rw [List.foldl_cons, ih, rtwFreeStainfo_unhash, List.foldl_cons]

theorem free_unhashed {t : StaTable} (hnodup : ∀ index, (t.staHash index).Nodup)
    (ps : List StaId) :
    ps.foldl rtwFreeStainfo (ps.foldl unhash t) = ps.foldl rtwFreeStainfo t := by
  induction ps generalizing t with
  | nil => rfl
  | cons p ps ih =>
    have hagain : (t.unhash p).rtwFreeStainfo p = t.rtwFreeStainfo p := by
      have htwice := congrArg staHash (unhash_twice hnodup p)
      simp only [rtwFreeStainfo, unhash, StaTable.mk.injEq, and_true, true_and] at htwice ⊢
      exact htwice
    rw [List.foldl_cons, List.foldl_cons, rtwFreeStainfo_unhash_foldl, hagain]
    exact ih fun index => (hnodup index).erase p

theorem collect_foldl (pbcmc : Option StaId) (ps : List StaId) (s : StaTable × List StaId) :
    ps.foldl (collect pbcmc) s =
      ((ps.filter fun p => pbcmc ≠ some p).foldl unhash s.1,
        s.2 ++ ps.filter fun p => pbcmc ≠ some p) := by
  induction ps generalizing s with
  | nil => simp
  | cons p ps ih =>
    rw [List.foldl_cons, ih]
    cases Decidable.em (pbcmc = some p) with
    | inl hp => simp [collect, hp]
    | inr hp => simp [collect, hp]

def listed (t : StaTable) (pbcmc : Option StaId) (n : ℕ) : List StaId :=
  (List.range n).flatMap fun index => (t.staHash index).filter fun p => pbcmc ≠ some p

theorem collectBucket_foldl {t : StaTable}
    (hown : ∀ index, ∀ p ∈ t.staHash index, ∀ other, p ∈ t.staHash other → other = index)
    (pbcmc : Option StaId) (n : ℕ) :
    (List.range n).foldl (collectBucket pbcmc) (t, []) =
      ((t.listed pbcmc n).foldl unhash t, t.listed pbcmc n) := by
  induction n with
  | zero => rfl
  | succ n ih =>
    have hbucket : ((t.listed pbcmc n).foldl unhash t).staHash n = t.staHash n := by
      refine unhash_foldl_of_notMem fun p hp hmem => ?_
      obtain ⟨index, hindex, hin⟩ := List.mem_flatMap.mp hp
      have hsame := hown n p hmem index (List.mem_of_mem_filter hin)
      have hlt := List.mem_range.mp hindex
      omega
    have hlisted : t.listed pbcmc (n + 1) =
        t.listed pbcmc n ++ (t.staHash n).filter fun p => pbcmc ≠ some p := by
      simp [listed, List.range_succ]
    rw [List.range_succ, List.foldl_append, ih, List.foldl_cons, List.foldl_nil, collectBucket,
      hbucket, collect_foldl, hlisted, List.foldl_append]

end StaTable

namespace Tracks

variable {t : StaTable} {live : List (MacAddr × StaId)}

theorem one_bucket (h : Tracks t live) :
    ∀ index, ∀ p ∈ t.staHash index, ∀ other, p ∈ t.staHash other → other = index := by
  intro index p hp other hother
  rw [h.partitioned.own index p hp, h.partitioned.own other p hother]

theorem bcmc (h : Tracks t live) (p : StaId) :
    t.rtwGetBcmcStainfo = some p ↔ (bcAddr, p) ∈ live :=
  h.lookup bcAddr p

theorem mem_listed (h : Tracks t live) (p : StaId) :
    p ∈ t.listed t.rtwGetBcmcStainfo numSta ↔ ∃ e ∈ live, e.2 = p ∧ e.1 ≠ bcAddr := by
  simp only [StaTable.listed, List.mem_flatMap, List.mem_range, List.mem_filter, h.bucket,
    decide_eq_true_eq, ne_eq, h.bcmc]
  constructor
  · rintro ⟨index, -, ⟨e, he, rfl, -⟩, hnot⟩
    refine ⟨e, he, rfl, fun hbc => hnot ?_⟩
    rw [← hbc]
    exact he
  · rintro ⟨e, he, rfl, hne⟩
    refine ⟨wifiMacHash e.1, wifiMacHash_lt _, ⟨e, he, rfl, rfl⟩, fun hbc => hne ?_⟩
    exact (congrArg Prod.fst (h.entry_unique he hbc rfl))

theorem listed_nodup (h : Tracks t live) (pbcmc : Option StaId) (n : ℕ) :
    (t.listed pbcmc n).Nodup := by
  refine List.nodup_flatMap.mpr ⟨fun index _ => (h.bucketNodup index).filter _, ?_⟩
  refine List.nodup_range.imp fun {i j} hne p hi hj => hne ?_
  exact h.one_bucket j p (List.mem_of_mem_filter hj) i (List.mem_of_mem_filter hi)

def bulk (live : List (MacAddr × StaId)) : List (MacAddr × StaId) :=
  if live.length = 1 then live else live.filter fun e => e.1 = bcAddr

theorem freeAll (h : Tracks t live) : Tracks t.rtwFreeAllStainfo (bulk live) := by
  unfold StaTable.rtwFreeAllStainfo bulk
  cases Decidable.em (live.length = 1) with
  | inl hone =>
    have hcount : t.asocStaCount = 1 := by rw [h.count, hone]; rfl
    rw [if_pos hcount, if_pos hone]
    exact h
  | inr hone =>
    have hcount : t.asocStaCount ≠ 1 := by
      rw [h.count]
      exact_mod_cast hone
    rw [if_neg hcount, if_neg hone]
    simp only [StaTable.collectBucket_foldl h.one_bucket,
      StaTable.free_unhashed h.bucketNodup]
    have hlisted := h.freeList (h.listed_nodup t.rtwGetBcmcStainfo numSta)
      fun p hp => by
        obtain ⟨e, he, hid, -⟩ := (h.mem_listed p).mp hp
        exact ⟨e, he, hid⟩
    have hfilter : (live.filter fun e => e.2 ∉ t.listed t.rtwGetBcmcStainfo numSta) =
        live.filter fun e => e.1 = bcAddr := by
      refine List.filter_congr fun e he => ?_
      simp only [h.mem_listed, decide_eq_decide]
      constructor
      · intro hnone
        by_contra hne
        exact hnone ⟨e, he, rfl, hne⟩
      · rintro hbc ⟨e', he', hid, hne⟩
        rw [h.entry_unique he' he hid] at hne
        exact hne hbc
    rw [hfilter] at hlisted
    exact hlisted

theorem bulk_of_bcmc {p : StaId} (hbc : (bcAddr, p) ∈ live) :
    bulk live = live.filter fun e => e.1 = bcAddr := by
  unfold bulk
  split
  · next hone =>
    obtain ⟨e, rfl⟩ := List.length_eq_one_iff.mp hone
    rw [List.mem_singleton] at hbc
    simp [← hbc]
  · rfl

theorem lookup_freeAll (h : Tracks t live) {p : StaId} (hbc : t.rtwGetBcmcStainfo = some p)
    (hwaddr : MacAddr) :
    t.rtwFreeAllStainfo.rtwGetStainfo hwaddr = if isMcast hwaddr then some p else none := by
  have hlive := (h.bcmc p).mp hbc
  have hbulk := bulk_of_bcmc hlive
  cases hm : isMcast hwaddr with
  | true =>
    rw [if_pos rfl, h.freeAll.lookup, hbulk, List.mem_filter]
    simp only [staKey, hm, if_true, decide_true, and_true]
    exact hlive
  | false =>
    rw [if_neg Bool.false_ne_true, Option.eq_none_iff_forall_ne_some]
    intro q hq
    rw [h.freeAll.lookup, hbulk, List.mem_filter] at hq
    have hkey : hwaddr = bcAddr := by simpa [staKey, hm] using hq.2
    rw [hkey] at hm
    revert hm
    decide

end Tracks

namespace StaLog

theorem tracks_step {s : StaLog} (h : Tracks s.table s.live) (e : StaEvent) (he : s.Given e) :
    Tracks (s.step e).table (s.step e).live := by
  cases e with
  | alloc hwaddr =>
    have halloc := h.alloc he
    cases hres : s.table.rtwAllocStainfo hwaddr with
    | mk t' psta =>
      rw [hres] at halloc
      cases psta with
      | none =>
        simp only [step, hres, halloc.1]
        exact h
      | some p =>
        simp only [step, hres]
        exact halloc
  | free psta =>
    cases psta with
    | none => exact h
    | some p =>
      obtain ⟨e, hmem, rfl⟩ := he p rfl
      exact h.free hmem
  | freeAll => exact h.freeAll

theorem sound_of_tracks {s : StaLog} (h : Tracks s.table s.live) : s.Sound where
  partitioned := h.partitioned
  count := by rw [h.count, h.card_allocated]
  lookup := h.lookup
  bulk := fun _ hbc hwaddr => h.lookup_freeAll hbc hwaddr

theorem table_law (es : List StaEvent) (hes : Run.Each step Given init es) :
    (Run.exec step init es).Sound :=
  sound_of_tracks (Run.each_invariant step Given (fun s => Tracks s.table s.live)
    (fun _ e h he => tracks_step h e he) Tracks.init hes)

theorem table_law_reused : (Run.exec step init
    [.alloc bcAddr, .alloc #v[0, 1, 2, 3, 4, 5], .alloc #v[0, 1, 2, 3, 4, 6], .free (some ⟨1, by decide⟩),
      .freeAll, .alloc #v[0, 1, 2, 3, 4, 5]]).Sound :=
  table_law _ (by decide +kernel)

end StaLog

end Ap
