import Mathlib.Data.List.Nodup
import Rtl8188fu.Ie.RemoveIe

namespace Ft

open Ie

def hdr3Addr : ℕ := 24

def ftMaxIeSz : ℕ := 256

structure RxFrame where
  bytes : List UInt8
  short : bytes.length < 65536

inductive Holder where
  | ftAction
  | authRsp
  deriving DecidableEq

def Holder.fixed : Holder → ℕ
  | ftAction => hdr3Addr + 16
  | authRsp => hdr3Addr + 6

-- stored and frame record what the pointer and the length were taken from
structure EventIes where
  holder : Holder
  off : ℕ
  len : ℕ
  stored : ℕ
  frame : List UInt8

def EventIes.elements (x : EventIes) : List UInt8 := x.frame.drop x.holder.fixed

-- none: bytes outside bs are read
def slice (bs : List UInt8) (off len : ℕ) : Option (List UInt8) :=
  if len = 0 then some [] else if off + len ≤ bs.length then some ((bs.drop off).take len) else none

structure FtState where
  ftAction : List UInt8
  ftActionLen : ℕ
  authRsp : List UInt8
  authRspLen : ℕ
  ftEvent : Option EventIes
  pending : ℕ
  authed : Bool
  fresh : ℕ

inductive Op where
  | ftActionRsp (f : RxFrame)
  | startClntJoin (otd iesOk targetOk : Bool)
  | authRsp (f : RxFrame) (roam dupOk queued : Bool)
  | reassocEvent (iesOk targetOk : Bool)
  | setStatus (authed : Bool)

inductive Effect where
  | selects (x : EventIes)
  | copies (x : EventIes) (bytes : Option (List UInt8))
  | alloc (p : ℕ)
  | free (p : Option ℕ)

namespace FtState

variable (s : FtState)

def content : Holder → List UInt8
  | .ftAction => s.ftAction
  | .authRsp => s.authRsp

def copyIes : List Effect :=
  match s.ftEvent with
  | none => []
  | some x => [.copies x (slice (s.content x.holder) x.off x.len)]

-- ft_event.target_ap is never set: the pointer handed to rtw_mfree is NULL
def eventTargetAp : Option ℕ := none

-- rtw_ft_report_evt, rtw_ft_reassoc_event_callback
def reportEvt (iesOk targetOk : Bool) : List Effect :=
  if iesOk then
    .alloc s.fresh :: s.copyIes ++
      if targetOk then [.alloc (s.fresh + 1), .free eventTargetAp, .free (some s.fresh)]
      else [.free (some s.fresh)]
  else []

def reported (iesOk targetOk : Bool) : FtState :=
  { s with fresh := s.fresh + 2, authed := s.authed || (iesOk && targetOk) }

def storeAction (f : RxFrame) : FtState :=
  { s with ftAction := f.bytes.take ftMaxIeSz, ftActionLen := f.bytes.length }

def joinIes : EventIes :=
  ⟨.ftAction, hdr3Addr + 16, u32Sub s.ftActionLen hdr3Addr, s.ftActionLen, s.ftAction⟩

def joining : FtState := { s with ftEvent := some s.joinIes }

def bufUpdate (f : RxFrame) (dupOk : Bool) : FtState :=
  { s with
    authRsp := if dupOk then f.bytes else []
    authRspLen := if dupOk then f.bytes.length else 0 }

def authIes : EventIes :=
  ⟨.authRsp, hdr3Addr + 6, u32Sub (u32Sub s.authRspLen hdr3Addr) 6, s.authRspLen, s.authRsp⟩

def authorizing (queued : Bool) : FtState :=
  { s with ftEvent := some s.authIes, pending := if queued then s.pending + 1 else s.pending }

def takes (f : RxFrame) (roam : Bool) : Prop := roam = true ∧ s.authed = false ∧ 0 < f.bytes.length

instance (f : RxFrame) (roam : Bool) : Decidable (s.takes f roam) := inferInstanceAs (Decidable (_ ∧ _))

end FtState

def effects (s : FtState) : Op → List Effect
  | .ftActionRsp _ => []
  | .startClntJoin otd iesOk targetOk =>
    if otd then .selects s.joinIes :: s.joining.reportEvt iesOk targetOk else []
  | .authRsp f roam dupOk _ => if s.takes f roam then [.selects (s.bufUpdate f dupOk).authIes] else []
  | .reassocEvent iesOk targetOk => if 0 < s.pending then s.reportEvt iesOk targetOk else []
  | .setStatus _ => []

def next (s : FtState) : Op → FtState
  | .ftActionRsp f => s.storeAction f
  | .startClntJoin otd iesOk targetOk => if otd then s.joining.reported iesOk targetOk else s
  | .authRsp f roam dupOk queued =>
    if s.takes f roam then (s.bufUpdate f dupOk).authorizing queued else s
  | .reassocEvent iesOk targetOk =>
    if 0 < s.pending then { s.reported iesOk targetOk with pending := s.pending - 1 } else s
  | .setStatus authed => { s with authed := authed }

def runEffects (s : FtState) : List Op → List Effect
  | [] => []
  | op :: ops => effects s op ++ runEffects (next s op) ops

def start : FtState := ⟨[], 0, [], 0, none, 0, false, 0⟩

def EventIes.Right (x : EventIes) : Prop :=
  x.len ≤ x.stored ∧ slice x.frame x.off x.len = some x.elements

def Effect.Right : Effect → Prop
  | selects x => x.Right
  | copies x bytes => bytes = some x.elements
  | alloc _ => True
  | free _ => True

def Effect.allocated? : Effect → Option ℕ
  | alloc p => some p
  | _ => none

def Effect.freed? : Effect → Option ℕ
  | free p => p
  | _ => none

def allocated (es : List Effect) : List ℕ := es.filterMap Effect.allocated?

def freed (es : List Effect) : List ℕ := es.filterMap Effect.freed?

structure Law (es : List Effect) : Prop where
  right : ∀ e ∈ es, e.Right
  once : (freed es).Nodup
  exact : ∀ p, p ∈ freed es ↔ p ∈ allocated es

def Meets (s : FtState) : Op → Prop
  | .ftActionRsp _ => True
  | .startClntJoin otd iesOk targetOk =>
    otd = true → s.ftAction.length = hdr3Addr ∧ (iesOk && targetOk) = false
  | .authRsp f roam dupOk _ => s.takes f roam → dupOk = true ∧ hdr3Addr + 6 ≤ f.bytes.length
  | .reassocEvent iesOk targetOk => 0 < s.pending → (iesOk && targetOk) = false
  | .setStatus _ => True

def AllMeet (s : FtState) : List Op → Prop
  | [] => True
  | op :: ops => Meets s op ∧ AllMeet (next s op) ops

section Logs

variable {es fs : List Effect} {k : ℕ}

theorem allocated_append (es fs : List Effect) : allocated (es ++ fs) = allocated es ++ allocated fs :=
  List.filterMap_append

theorem freed_append (es fs : List Effect) : freed (es ++ fs) = freed es ++ freed fs :=
  List.filterMap_append

structure Below (es : List Effect) (k : ℕ) : Prop where
  allocs : ∀ p ∈ allocated es, p < k
  frees : ∀ p ∈ freed es, p < k

structure From (es : List Effect) (k : ℕ) : Prop where
  allocs : ∀ p ∈ allocated es, k ≤ p
  frees : ∀ p ∈ freed es, k ≤ p

theorem law_append (hes : Below es k) (hfs : From fs k) :
    Law (es ++ fs) ↔ Law es ∧ Law fs := by
  have hright : (∀ e ∈ es ++ fs, e.Right) ↔ (∀ e ∈ es, e.Right) ∧ ∀ e ∈ fs, e.Right :=
    List.forall_mem_append
  constructor
  · rintro ⟨hall, honce, hexact⟩
    rw [freed_append, allocated_append] at hexact
    rw [freed_append] at honce
    obtain ⟨honce₁, honce₂, -⟩ := List.nodup_append.mp honce
    obtain ⟨hright₁, hright₂⟩ := hright.mp hall
    refine ⟨⟨hright₁, honce₁, fun p => ?_⟩, ⟨hright₂, honce₂, fun p => ?_⟩⟩
    · have hp := hexact p
      rw [List.mem_append, List.mem_append] at hp
      constructor
      · intro hfree
        refine (hp.mp (.inl hfree)).resolve_right fun hlate => ?_
        exact absurd (hes.frees p hfree) (Nat.not_lt.mpr (hfs.allocs p hlate))
      · intro halloc
        refine (hp.mpr (.inl halloc)).resolve_right fun hlate => ?_
        exact absurd (hes.allocs p halloc) (Nat.not_lt.mpr (hfs.frees p hlate))
    · have hp := hexact p
      rw [List.mem_append, List.mem_append] at hp
      constructor
      · intro hfree
        refine (hp.mp (.inr hfree)).resolve_left fun hearly => ?_
        exact absurd (hes.allocs p hearly) (Nat.not_lt.mpr (hfs.frees p hfree))
      · intro halloc
        refine (hp.mpr (.inr halloc)).resolve_left fun hearly => ?_
        exact absurd (hes.frees p hearly) (Nat.not_lt.mpr (hfs.allocs p halloc))
  · rintro ⟨⟨hright₁, honce₁, hexact₁⟩, ⟨hright₂, honce₂, hexact₂⟩⟩
    refine ⟨hright.mpr ⟨hright₁, hright₂⟩, ?_, fun p => ?_⟩
    · rw [freed_append]
      refine List.nodup_append.mpr ⟨honce₁, honce₂, fun p hp q hq hsame => ?_⟩
      rw [hsame] at hp
      exact absurd (hes.frees q hp) (Nat.not_lt.mpr (hfs.frees q hq))
    · rw [freed_append, allocated_append, List.mem_append, List.mem_append, hexact₁ p, hexact₂ p]

end Logs

section Report

variable {s : FtState} {iesOk targetOk : Bool}

theorem copyIes_logs (s : FtState) : allocated s.copyIes = [] ∧ freed s.copyIes = [] := by
  rw [FtState.copyIes]
  split <;> exact ⟨rfl, rfl⟩

theorem copyIes_right : (∀ e ∈ s.copyIes, e.Right) ↔
    ∀ x, s.ftEvent = some x → slice (s.content x.holder) x.off x.len = some x.elements := by
  rw [FtState.copyIes]
  cases s.ftEvent with
  | none =>
    refine iff_of_true (fun e he => absurd he List.not_mem_nil) fun x hx => ?_
    exact absurd hx (Option.some_ne_none x).symm
  | some x =>
    rw [List.forall_mem_singleton, Effect.Right]
    constructor
    · intro hcopy y hy
      obtain rfl := Option.some_inj.mp hy
      exact hcopy
    · exact fun hall => hall x rfl

theorem report_logs (s : FtState) (iesOk targetOk : Bool) :
    allocated (s.reportEvt iesOk targetOk) =
        (if iesOk then s.fresh :: if targetOk then [s.fresh + 1] else [] else []) ∧
      freed (s.reportEvt iesOk targetOk) = if iesOk then [s.fresh] else [] := by
  obtain ⟨halloc, hfree⟩ := copyIes_logs s
  have hallocs (es : List Effect) :
      allocated (.alloc s.fresh :: s.copyIes ++ es) = s.fresh :: allocated es := by
    rw [allocated_append]
    exact congrArg (s.fresh :: · ++ allocated es) halloc
  have hfrees (es : List Effect) : freed (.alloc s.fresh :: s.copyIes ++ es) = freed es := by
    rw [freed_append]
    exact congrArg (· ++ freed es) hfree
  cases iesOk with
  | false => exact ⟨rfl, rfl⟩
  | true =>
    rw [FtState.reportEvt, if_pos rfl, hallocs, hfrees]
    cases targetOk <;> exact ⟨rfl, rfl⟩

theorem report_below : Below (s.reportEvt iesOk targetOk) (s.fresh + 2) := by
  obtain ⟨halloc, hfree⟩ := report_logs s iesOk targetOk
  refine ⟨fun p hp => ?_, fun p hp => ?_⟩
  · rw [halloc] at hp
    cases iesOk <;> cases targetOk <;> simp at hp <;> omega
  · rw [hfree] at hp
    cases iesOk <;> simp at hp
    omega

theorem report_from : From (s.reportEvt iesOk targetOk) s.fresh := by
  obtain ⟨halloc, hfree⟩ := report_logs s iesOk targetOk
  refine ⟨fun p hp => ?_, fun p hp => ?_⟩
  · rw [halloc] at hp
    cases iesOk <;> cases targetOk <;> simp at hp <;> omega
  · rw [hfree] at hp
    cases iesOk <;> simp at hp
    omega

theorem report_leaks (h : Law (s.reportEvt iesOk targetOk)) : (iesOk && targetOk) = false := by
  obtain ⟨halloc, hfree⟩ := report_logs s iesOk targetOk
  refine eq_false_of_ne_true fun hboth => ?_
  obtain ⟨rfl, rfl⟩ := Bool.and_eq_true_iff.mp hboth
  have htarget := (h.exact (s.fresh + 1)).mpr (by
    rw [halloc]
    exact List.mem_cons_of_mem _ (List.mem_singleton.mpr rfl))
  rw [hfree] at htarget
  exact Nat.succ_ne_self _ (List.mem_singleton.mp htarget)

theorem report_law (hright : ∀ x, s.ftEvent = some x →
    slice (s.content x.holder) x.off x.len = some x.elements)
    (hfails : (iesOk && targetOk) = false) : Law (s.reportEvt iesOk targetOk) := by
  obtain ⟨halloc, hfree⟩ := report_logs s iesOk targetOk
  cases iesOk with
  | false =>
    exact ⟨fun e he => absurd he List.not_mem_nil, List.nodup_nil, fun p => Iff.rfl⟩
  | true =>
    obtain rfl : targetOk = false := hfails
    refine ⟨?_, ?_, fun p => ?_⟩
    · rw [FtState.reportEvt, if_pos rfl, List.forall_mem_append, List.forall_mem_cons]
      exact ⟨⟨trivial, copyIes_right.mpr hright⟩, List.forall_mem_singleton.mpr trivial⟩
    · rw [hfree]
      exact List.nodup_singleton _
    · rw [halloc, hfree]
      exact Iff.rfl

end Report

section Steps

variable {s : FtState} {f : RxFrame} {op : Op} {ops : List Op}

structure Ready (s : FtState) : Prop where
  stored : s.ftAction.length = min s.ftActionLen ftMaxIeSz
  short : s.ftActionLen < 65536
  right : ∀ x, s.ftEvent = some x → slice (s.content x.holder) x.off x.len = some x.elements
  frozen : ∀ x, s.ftEvent = some x → x.holder = .ftAction → x.len = 0 ∧ x.elements = []

theorem Ready.start : Ready start :=
  ⟨rfl, by decide, fun _ hx => absurd hx (Option.some_ne_none _).symm,
    fun _ hx => absurd hx (Option.some_ne_none _).symm⟩

theorem slice_all {bs : List UInt8} {off : ℕ} (h : off ≤ bs.length) :
    slice bs off (bs.length - off) = some (bs.drop off) := by
  rw [slice]
  split
  · rename_i hnone
    rw [List.drop_eq_nil_of_le (by omega)]
  · rw [if_pos (by omega), List.take_of_length_le (by rw [List.length_drop])]

theorem joinIes_right : s.joinIes.Right ↔ u32Sub s.ftActionLen 24 ≤ s.ftActionLen ∧
    slice s.ftAction 40 (u32Sub s.ftActionLen 24) = some (s.ftAction.drop 40) := Iff.rfl

theorem authIes_right : (s.bufUpdate f true).authIes.Right ↔
    u32Sub (u32Sub f.bytes.length 24) 6 ≤ f.bytes.length ∧
      slice f.bytes 30 (u32Sub (u32Sub f.bytes.length 24) 6) = some (f.bytes.drop 30) := Iff.rfl

theorem authIes_lost : ¬ (s.bufUpdate f false).authIes.Right := by
  intro h
  have hwrap : u32Sub (u32Sub 0 24) 6 ≤ 0 := h.1
  exact absurd hwrap (by decide)

theorem join_right (h : Ready s) : s.joinIes.Right ↔ s.ftAction.length = hdr3Addr := by
  have hstored := h.stored
  have hshort := h.short
  rw [ftMaxIeSz] at hstored
  rw [joinIes_right, u32Sub, hdr3Addr]
  constructor
  · rintro ⟨hwrap, hslice⟩
    split at hwrap
    · rename_i hroom
      rw [if_pos hroom, slice] at hslice
      split at hslice
      · omega
      · split at hslice
        · omega
        · exact absurd hslice.symm (Option.some_ne_none _)
    · omega
  · intro hexact
    have hlen : s.ftActionLen = 24 := by omega
    rw [hlen, if_pos (Nat.le_refl 24), slice, if_pos (Nat.sub_self 24),
      List.drop_eq_nil_of_le (by omega)]
    exact ⟨by omega, rfl⟩

theorem auth_right {dupOk : Bool} : (s.bufUpdate f dupOk).authIes.Right ↔
    dupOk = true ∧ hdr3Addr + 6 ≤ f.bytes.length := by
  have hshort := f.short
  cases dupOk with
  | false => exact iff_of_false authIes_lost fun h => absurd h.1 Bool.false_ne_true
  | true =>
    rw [authIes_right, eq_self_iff_true, true_and, hdr3Addr]
    constructor
    · rintro ⟨hwrap, -⟩
      rw [u32Sub, u32Sub] at hwrap
      split at hwrap
      · split at hwrap <;> omega
      · split at hwrap <;> omega
    · intro hroom
      have hlen : u32Sub (u32Sub f.bytes.length 24) 6 = f.bytes.length - 30 := by
        rw [u32Sub, u32Sub, if_pos (by omega : 24 ≤ f.bytes.length), if_pos (by omega)]
        omega
      rw [hlen]
      exact ⟨by omega, slice_all hroom⟩

theorem effects_below : Below (effects s op) (next s op).fresh := by
  have hempty (k : ℕ) : Below [] k :=
    ⟨fun p hp => absurd hp List.not_mem_nil, fun p hp => absurd hp List.not_mem_nil⟩
  cases op with
  | ftActionRsp f => exact hempty _
  | startClntJoin otd iesOk targetOk =>
    cases otd with
    | false => exact hempty _
    | true =>
      obtain ⟨hallocs, hfrees⟩ := @report_below s.joining iesOk targetOk
      exact ⟨hallocs, hfrees⟩
  | authRsp f roam dupOk queued =>
    rw [effects]
    split
    · exact ⟨fun p hp => absurd hp List.not_mem_nil, fun p hp => absurd hp List.not_mem_nil⟩
    · exact hempty _
  | reassocEvent iesOk targetOk =>
    rw [effects, next]
    split
    · exact report_below
    · exact hempty _
  | setStatus authed => exact hempty _

theorem effects_from : From (effects s op) s.fresh := by
  have hempty (k : ℕ) : From [] k :=
    ⟨fun p hp => absurd hp List.not_mem_nil, fun p hp => absurd hp List.not_mem_nil⟩
  cases op with
  | ftActionRsp f => exact hempty _
  | startClntJoin otd iesOk targetOk =>
    cases otd with
    | false => exact hempty _
    | true =>
      obtain ⟨hallocs, hfrees⟩ := @report_from s.joining iesOk targetOk
      exact ⟨hallocs, hfrees⟩
  | authRsp f roam dupOk queued =>
    rw [effects]
    split
    · exact ⟨fun p hp => absurd hp List.not_mem_nil, fun p hp => absurd hp List.not_mem_nil⟩
    · exact hempty _
  | reassocEvent iesOk targetOk =>
    rw [effects]
    split
    · exact report_from
    · exact hempty _
  | setStatus authed => exact hempty _

theorem fresh_mono (s : FtState) (op : Op) : s.fresh ≤ (next s op).fresh := by
  cases op with
  | ftActionRsp f => exact Nat.le_refl _
  | startClntJoin otd iesOk targetOk =>
    cases otd with
    | false => exact Nat.le_refl _
    | true => exact Nat.le_add_right s.fresh 2
  | authRsp f roam dupOk queued =>
    rw [next]
    split <;> exact Nat.le_refl _
  | reassocEvent iesOk targetOk =>
    rw [next]
    split
    · exact Nat.le_add_right s.fresh 2
    · exact Nat.le_refl _
  | setStatus authed => exact Nat.le_refl _

theorem run_from (s : FtState) (ops : List Op) : From (runEffects s ops) s.fresh := by
  induction ops generalizing s with
  | nil => exact ⟨fun p hp => absurd hp List.not_mem_nil, fun p hp => absurd hp List.not_mem_nil⟩
  | cons op ops ih =>
    have hlater := ih (next s op)
    have hmono := fresh_mono s op
    obtain ⟨hallocs, hfrees⟩ := @effects_from s op
    refine ⟨fun p hp => ?_, fun p hp => ?_⟩
    · rw [runEffects, allocated_append] at hp
      cases List.mem_append.mp hp with
      | inl hnow => exact hallocs p hnow
      | inr hrest => exact Nat.le_trans hmono (hlater.allocs p hrest)
    · rw [runEffects, freed_append] at hp
      cases List.mem_append.mp hp with
      | inl hnow => exact hfrees p hnow
      | inr hrest => exact Nat.le_trans hmono (hlater.frees p hrest)

theorem law_nil : Law [] :=
  ⟨fun _ he => absurd he List.not_mem_nil, List.nodup_nil, fun _ => Iff.rfl⟩

theorem law_selects {x : EventIes} {es : List Effect} :
    Law (.selects x :: es) ↔ x.Right ∧ Law es := by
  constructor
  · rintro ⟨hright, honce, hexact⟩
    obtain ⟨hx, hes⟩ := List.forall_mem_cons.mp hright
    exact ⟨hx, hes, honce, hexact⟩
  · rintro ⟨hx, hes, honce, hexact⟩
    exact ⟨List.forall_mem_cons.mpr ⟨hx, hes⟩, honce, hexact⟩

theorem step_law (h : Ready s) : Law (effects s op) ↔ Meets s op := by
  cases op with
  | ftActionRsp f => exact iff_of_true law_nil trivial
  | setStatus authed => exact iff_of_true law_nil trivial
  | startClntJoin otd iesOk targetOk =>
    cases otd with
    | false => exact iff_of_true law_nil fun hno => absurd hno Bool.false_ne_true
    | true =>
      rw [effects, if_pos rfl, law_selects, join_right h, Meets]
      constructor
      · exact fun ⟨hlen, hreport⟩ _ => ⟨hlen, report_leaks hreport⟩
      · intro hmeets
        obtain ⟨hlen, hfails⟩ := hmeets rfl
        refine ⟨hlen, report_law (fun x hx => ?_) hfails⟩
        obtain rfl : s.joinIes = x := Option.some_inj.mp hx
        exact ((join_right h).mpr hlen).2
  | authRsp f roam dupOk queued =>
    rw [effects, Meets]
    split
    · rename_i htakes
      rw [law_selects, and_iff_left law_nil, auth_right]
      exact ⟨fun hright _ => hright, fun hmeets => hmeets htakes⟩
    · rename_i hdrops
      exact iff_of_true law_nil fun htakes => absurd htakes hdrops
  | reassocEvent iesOk targetOk =>
    rw [effects, Meets]
    split
    · rename_i hpending
      exact ⟨fun hlaw _ => report_leaks hlaw, fun hmeets => report_law h.right (hmeets hpending)⟩
    · rename_i hnone
      exact iff_of_true law_nil fun hpending => absurd hpending hnone

theorem Ready.storeAction (h : Ready s) (f : RxFrame) : Ready (s.storeAction f) := by
  refine ⟨?_, f.short, fun x hx => ?_, h.frozen⟩
  · exact List.length_take.trans (Nat.min_comm _ _)
  · have hright := h.right x hx
    cases hholder : x.holder with
    | ftAction =>
      obtain ⟨hlen, hnone⟩ := h.frozen x hx hholder
      rw [slice, if_pos hlen, hnone]
    | authRsp =>
      rw [hholder] at hright
      exact hright

theorem Ready.joining (h : Ready s) (hlen : s.ftAction.length = hdr3Addr) : Ready s.joining := by
  refine ⟨h.stored, h.short, fun x hx => ?_, fun x hx _ => ?_⟩
  · obtain rfl : s.joinIes = x := Option.some_inj.mp hx
    exact ((join_right h).mpr hlen).2
  · obtain rfl : s.joinIes = x := Option.some_inj.mp hx
    have hstored := h.stored
    rw [hlen, hdr3Addr, ftMaxIeSz] at hstored
    have hexact : s.ftActionLen = 24 := by omega
    refine ⟨?_, List.drop_eq_nil_of_le ?_⟩
    · rw [FtState.joinIes, hexact]
      rfl
    · exact Nat.le_trans (Nat.le_of_eq hlen) (Nat.le_add_right hdr3Addr 16)

theorem Ready.authorizing {dupOk : Bool} (h : Ready s) (queued : Bool)
    (hright : (s.bufUpdate f dupOk).authIes.Right) :
    Ready ((s.bufUpdate f dupOk).authorizing queued) := by
  refine ⟨h.stored, h.short, fun x hx => ?_, fun x hx hholder => ?_⟩
  · obtain rfl : (s.bufUpdate f dupOk).authIes = x := Option.some_inj.mp hx
    exact hright.2
  · obtain rfl : (s.bufUpdate f dupOk).authIes = x := Option.some_inj.mp hx
    exact absurd hholder (by decide : Holder.authRsp ≠ Holder.ftAction)

theorem Ready.step (h : Ready s) (hmeets : Meets s op) : Ready (next s op) := by
  cases op with
  | ftActionRsp f => exact h.storeAction f
  | setStatus authed => exact ⟨h.stored, h.short, h.right, h.frozen⟩
  | startClntJoin otd iesOk targetOk =>
    cases otd with
    | false => exact h
    | true =>
      have hjoin := h.joining (hmeets rfl).1
      exact ⟨hjoin.stored, hjoin.short, hjoin.right, hjoin.frozen⟩
  | authRsp f roam dupOk queued =>
    rw [next]
    split
    · rename_i htakes
      exact h.authorizing queued (auth_right.mpr (hmeets htakes))
    · exact h
  | reassocEvent iesOk targetOk =>
    rw [next]
    split
    · exact ⟨h.stored, h.short, h.right, h.frozen⟩
    · exact h

theorem run_law (h : Ready s) : Law (runEffects s ops) ↔ AllMeet s ops := by
  induction ops generalizing s with
  | nil => exact iff_of_true law_nil trivial
  | cons op ops ih =>
    rw [runEffects, AllMeet, law_append effects_below (run_from (next s op) ops), step_law h]
    exact and_congr_right fun hmeets => ih (h.step hmeets)

theorem event_elements_law (ops : List Op) : Law (runEffects start ops) ↔ AllMeet start ops :=
  run_law .start

def wholeActionRsp : RxFrame := ⟨List.replicate 41 0, by decide⟩

theorem join_reads_past_action :
    ¬ Law (runEffects start [.ftActionRsp wholeActionRsp, .startClntJoin true true true]) := by
  intro h
  have hmem : Effect.selects (start.storeAction wholeActionRsp).joinIes ∈
      runEffects start [.ftActionRsp wholeActionRsp, .startClntJoin true true true] :=
    List.mem_append_right [] (List.mem_append_left _ List.mem_cons_self)
  have hright : (start.storeAction wholeActionRsp).joinIes.Right := h.right _ hmem
  have hread : slice (List.replicate 41 0) 40 17 = some (List.drop 40 (List.replicate 41 0)) := hright.2
  exact absurd hread (by decide)

end Steps

end Ft
