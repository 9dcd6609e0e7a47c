import Rtl8188fu.Ez.ConfigBounds
import Rtl8188fu.Ez.SmartConfig
import Rtl8188fu.Ez.ValueBounds

namespace Ez

namespace ScanElement

open BoundedMemory

def scanId (cmd : UInt8) : Option UInt16 :=
  match scanKind cmd with
  | .trigScanDevice => some 0x6990
  | .trigScanReason => some 0x6992
  | _ => none

def carried (ie : List UInt8) : List UInt8 := ie.drop 10

structure Announces (id : UInt16) (sc : EzScanCmd) (ie : List UInt8) : Prop where
  element : ie.getD 0 0 = 208
  elementLen : (ie.getD 1 0).toNat = 8 + (carried ie).length
  sync : (ie.drop 2).take 5 = syncCode
  id : u16Of (ie.getD 7 0) (ie.getD 8 0) = id
  len : ie.getD 9 0 = sc.len
  whole : (carried ie).length = sc.len.toNat
  value : carried ie = sc.value.toList.take sc.len.toNat

section Scans

variable (outside : Outside)

def scanStep (s : EzState) (sc : EzScanCmd) : EzState := (ezScanDeviceIoctlHandle outside s sc).state

def installed (s : EzState) (sc : EzScanCmd) : Option (List UInt8) :=
  if (scanStep outside s sc).probeReq.len = 0 then none
  else some (scanStep outside s sc).vendorIe

def WellFormed (s : EzState) (sc : EzScanCmd) : Prop :=
  ∀ id ∈ scanId sc.cmd, ∀ ie ∈ installed outside s sc, Announces id sc ie

end Scans

def storedLen (n : UInt8) (sc : EzScanCmd) : UInt8 :=
  match scanKind sc.cmd with
  | .scanIdle => 0
  | .trigScanDevice => if sc.len = 0 then n else sc.len
  | .trigScanReason => if sc.len = 0 then n else sc.len
  | _ => n

def Fresh (n : UInt8) (sc : EzScanCmd) : Prop :=
  (scanId sc.cmd).isSome → sc.len ≤ 32 ∧ (sc.len = 0 → n = 0)

variable {outside : Outside} {s : EzState} {sc : EzScanCmd} {id : UInt16}

theorem trigScan_len :
    (trigScan outside id s sc).state.probeReq.len =
      if sc.len = 0 then s.probeReq.len else sc.len := by
  simp only [trigScan, uInt8_eq_zero]
  cases Decidable.em (sc.len = 0) with
  | inl hlen =>
    simp only [hlen, if_true]
    split <;> rfl
  | inr hlen =>
    simp only [hlen, if_false]
    rfl

theorem trigScan_vendorIe (hlen : sc.len ≠ 0 ∨ s.probeReq.len ≠ 0) :
    (trigScan outside id s sc).state.vendorIe =
      (List.range (sc.len + 8 + 2).toNat).map
        (read (trigScan outside id s sc).state.probeReq.bytes outside.req) := by
  simp only [trigScan, uInt8_eq_zero]
  cases Decidable.em (sc.len = 0) with
  | inl hzero =>
    have hold : s.probeReq.len ≠ 0 := hlen.resolve_left (not_not.mpr hzero)
    simp only [hzero, hold, if_true, if_false]
    rfl
  | inr hzero =>
    simp only [hzero, if_false]
    rfl

theorem trigScan_request (hzero : sc.len ≠ 0) :
    (trigScan outside id s sc).state.probeReq =
      ⟨208, sc.len + 8, #v[0x45, 0x5A, 0x56, 0x49, 0x5A], id, sc.len,
        overlay s.probeReq.value 0
          ((List.range sc.len.toNat).map (read sc.value outside.cmd))⟩ := by
  simp only [trigScan, uInt8_eq_zero, hzero, if_false]
  rfl

def header (id : UInt16) (len : UInt8) : List UInt8 :=
  [208, len + 8] ++ syncCode ++ [id.toUInt8, (id >>> 8).toUInt8, len]

theorem bytes_toList (len : UInt8) (value : Vector UInt8 32) :
    (EzProbe.bytes ⟨208, len + 8, #v[0x45, 0x5A, 0x56, 0x49, 0x5A], id, len, value⟩).toList =
      header id len ++ value.toList := by
  simp only [EzProbe.bytes, Vector.toList_append]
  rfl

theorem toNat_le_of_le (hle : sc.len ≤ 32) : sc.len.toNat ≤ 32 := UInt8.le_iff_toNat_le.mp hle

theorem trigScan_element (hzero : sc.len ≠ 0) (hle : sc.len ≤ 32) :
    (trigScan outside id s sc).state.vendorIe =
      header id sc.len ++ sc.value.toList.take sc.len.toNat := by
  have hn := toNat_le_of_le hle
  have hielen : (sc.len + 8 + 2).toNat = 10 + sc.len.toNat := by
    simp only [UInt8.toNat_add, UInt8.reduceToNat]
    omega
  have htaken : (sc.value.toList.take sc.len.toNat).length = sc.len.toNat := by simp [hn]
  rw [trigScan_vendorIe (.inl hzero), trigScan_request hzero, hielen,
    map_read_take _ _ (by omega), bytes_toList, overlay_prefix _ _ _ hn,
    List.take_append, List.take_of_length_le (by simp [header, syncCode])]
  refine congrArg (header id sc.len ++ ·) ?_
  have hsub : 10 + sc.len.toNat - (header id sc.len).length = sc.len.toNat := by
    simp [header, syncCode]
  rw [hsub, List.take_append, List.take_of_length_le htaken.le, htaken, Nat.sub_self,
    List.take_zero, List.append_nil]

theorem getD_len (p : EzProbe) (outside : ℕ → UInt8) :
    ((List.range 10).map (read p.bytes outside)).getD 9 0 = p.len := by
  have hnine : p.bytes.toList[9]? = some p.len := by
    simp only [EzProbe.bytes, Vector.toList_append, List.append_assoc]
    simp
  rw [map_read_take _ _ (by decide), List.getD_eq_getElem?_getD,
    List.getElem?_take_of_lt (by decide), hnine]
  rfl

theorem announces_of_element (hid : u16Of id.toUInt8 (id >>> 8).toUInt8 = id)
    (hle : sc.len ≤ 32) {ie : List UInt8}
    (hie : ie = header id sc.len ++ sc.value.toList.take sc.len.toNat) :
    Announces id sc ie := by
  have hn := toNat_le_of_le hle
  have hcarried : carried ie = sc.value.toList.take sc.len.toNat := by
    rw [hie]
    rfl
  have hlen : (carried ie).length = sc.len.toNat := by
    rw [hcarried]
    simp [hn]
  refine ⟨?_, ?_, ?_, ?_, ?_, hlen, hcarried⟩
  · rw [hie]
    rfl
  · rw [hlen, hie]
    change (sc.len + 8).toNat = 8 + sc.len.toNat
    simp only [UInt8.toNat_add, UInt8.reduceToNat]
    omega
  · rw [hie]
    rfl
  · rw [hie]
    exact hid
  · rw [hie]
    rfl

theorem trigScan_wellFormed (hid : u16Of id.toUInt8 (id >>> 8).toUInt8 = id) :
    ((trigScan outside id s sc).state.probeReq.len ≠ 0 →
        Announces id sc (trigScan outside id s sc).state.vendorIe) ↔
      sc.len ≤ 32 ∧ (sc.len = 0 → s.probeReq.len = 0) := by
  rw [trigScan_len]
  constructor
  · intro h
    cases Decidable.em (sc.len = 0) with
    | inl hzero =>
      refine ⟨hzero ▸ by decide, fun _ => ?_⟩
      by_contra hold
      have hlen := (h (by rwa [if_pos hzero])).len
      rw [trigScan_vendorIe (.inr hold)] at hlen
      have hten : (sc.len + 8 + 2).toNat = 10 := hzero ▸ by decide
      rw [hten, getD_len, trigScan_len, if_pos hzero, hzero] at hlen
      exact hold hlen
    | inr hzero =>
      refine ⟨?_, fun h => absurd h hzero⟩
      have hann := h (by rwa [if_neg hzero])
      have hlen := hann.whole
      rw [hann.value, List.length_take, Vector.length_toList] at hlen
      rw [UInt8.le_iff_toNat_le]
      exact min_eq_left_iff.mp hlen
  · rintro ⟨hle, hold⟩ hinstalled
    cases Decidable.em (sc.len = 0) with
    | inl hzero =>
      rw [if_pos hzero] at hinstalled
      exact absurd (hold hzero) hinstalled
    | inr hzero => exact announces_of_element hid hle (trigScan_element hzero hle)

theorem forall_installed {n : UInt8} {ie : List UInt8} {ok : List UInt8 → Prop} :
    (∀ x, (if n = 0 then none else some ie) = some x → ok x) ↔ (¬n = 0 → ok ie) := by
  by_cases hn : n = 0 <;> simp [hn]

theorem wellFormed_iff : WellFormed outside s sc ↔ Fresh s.probeReq.len sc := by
  unfold WellFormed Fresh installed scanStep scanId ezScanDeviceIoctlHandle
  cases scanKind sc.cmd with
  | trigScanDevice =>
    simp only [Option.mem_def, Option.some.injEq, forall_eq', forall_installed, Option.isSome_some,
      forall_const]
    exact trigScan_wellFormed (by decide)
  | trigScanReason =>
    simp only [Option.mem_def, Option.some.injEq, forall_eq', forall_installed, Option.isSome_some,
      forall_const]
    exact trigScan_wellFormed (by decide)
  | scanIdle => simp
  | pollDevice => simp
  | pollReason => simp
  | invalid => simp

theorem scanStep_len : (scanStep outside s sc).probeReq.len = storedLen s.probeReq.len sc := by
  unfold scanStep storedLen ezScanDeviceIoctlHandle
  cases scanKind sc.cmd with
  | trigScanDevice => exact trigScan_len
  | trigScanReason => exact trigScan_len
  | scanIdle => rfl
  | pollDevice => rfl
  | pollReason =>
    unfold pollReason
    dsimp only
    split <;> rfl
  | invalid => rfl

theorem exec_len (outside : Outside) (s : EzState) (es : List EzScanCmd) :
    (Run.exec (scanStep outside) s es).probeReq.len = es.foldl storedLen s.probeReq.len := by
  induction es generalizing s with
  | nil => rfl
  | cons sc es ih => rw [Run.exec_cons, ih, scanStep_len, List.foldl_cons]

theorem scan_element_iff (outside : Outside) (es : List EzScanCmd) (sc : EzScanCmd) :
    WellFormed outside (Run.exec (scanStep outside) .init es) sc ↔
      Fresh (es.foldl storedLen 0) sc := by
  rw [wellFormed_iff, exec_len]
  rfl

theorem reason_carries_stale_len :
    ¬ ∀ outside es sc, WellFormed outside (Run.exec (scanStep outside) .init es) sc := by
  intro h
  have hreason := (h ⟨fun _ => 0, fun _ => 0, fun _ => 0, fun _ => 0⟩
    [⟨1, 3, Vector.replicate 32 7⟩] ⟨3, 0, Vector.replicate 32 0⟩ 0x6992 (by decide)
    [208, 8, 0x45, 0x5A, 0x56, 0x49, 0x5A, 0x92, 0x69, 3] (by decide)).len
  exact absurd hreason (by decide)

end ScanElement

namespace ScanBounds

open CursorWalk

structure Look where
  walk : Walk
  limit : ℕ
  touched : ℕ → List ℕ
  extent : ℕ → ℕ

def Look.offset (l : Look) : ℕ := (find l.walk l.limit 0).getD 0

def Look.taken (l : Look) : List ℕ :=
  if 0 < l.offset then (List.range (l.extent l.offset)).map (l.offset + ·) else []

structure Look.Contained (l : Look) : Prop where
  terminates : ∃ r, Finishes l.walk 0 r
  reads : ∀ i, Visits l.walk 0 i → ∀ x ∈ l.touched i, x < l.limit
  taken : ∀ x ∈ l.taken, x < l.limit

def compared (cmp : Memcmp) (buf : List UInt8) (i : ℕ) : List ℕ :=
  (List.range (cmp.span (buf.drop (i + 2)) syncCode)).map (i + 2 + ·)

def eidTouched (cmp : Memcmp) (snValid : Bool) (buf : List UInt8) (i : ℕ) : List ℕ :=
  i :: ((if sought snValid (buf.getD i 0) then compared cmp buf i else []) ++
    if sought snValid (buf.getD i 0) && syncedAt buf i then [] else [i + 1])

def eidLook (cmp : Memcmp) (snValid : Bool) (buf : List UInt8) (len : ℕ) : Look where
  walk := eidWalk snValid buf len
  limit := len
  touched := eidTouched cmp snValid buf
  extent i := (buf.getD (i + 1) 0).toNat + 2

def eid208Walk (buf : List UInt8) (len : ℕ) : Walk where
  inside i := decide (i + 8 < len)
  found := syncAt buf
  next i := i + 1

def eid208Touched (cmp : Memcmp) (buf : List UInt8) (i : ℕ) : List ℕ :=
  i :: if buf.getD i 0 == 208 then compared cmp buf i else []

def eid208Look (cmp : Memcmp) (buf : List UInt8) (len : ℕ) : Look where
  walk := eid208Walk buf len
  limit := len
  touched := eid208Touched cmp buf
  extent _ := 42

inductive Handler where
  | probeReq
  | probeResponseEid208
  | probeRequstEid208

def look (cmp : Memcmp) (s : EzState) (pframe : List UInt8) (len : ℕ) : Handler → Option Look
  | .probeReq => some (eidLook cmp (checkSnValid s.deviceInfo) (pframe.drop 24) (len - 24))
  | .probeResponseEid208 =>
    if s.probeResp.len ≠ 0 ∨ len ≤ 23 then none
    else some (eid208Look cmp (pframe.drop 24) (len - 24))
  | .probeRequstEid208 =>
    if len ≤ 23 then none else some (eid208Look cmp (pframe.drop 24) (len - 24))

def ElementsFit (cmp : Memcmp) (snValid : Bool) (beyond : List UInt8) (first : Bool) :
    List UInt8 → Prop
  | id :: n :: b :: body =>
    if sought snValid id then
      cmp.span (b :: body ++ beyond) syncCode ≤ (b :: body).length ∧
        if syncCode.isPrefixOf (b :: body) then first = true ∨ n.toNat ≤ (b :: body).length
        else ElementsFit cmp snValid beyond false ((b :: body).drop n.toNat)
    else ElementsFit cmp snValid beyond false ((b :: body).drop n.toNat)
  | _ => True
termination_by body => body.length
decreasing_by
  all_goals
    simp only [List.length_drop, List.length_cons]
    omega

def WholeProbe (body : List UInt8) : Prop :=
  ∀ i, 0 < i → i + 8 < body.length → syncAt body i = true → (∀ j < i, syncAt body j = false) →
    i + 42 ≤ body.length

def FrameFits (cmp : Memcmp) (s : EzState) (frame beyond : List UInt8) : Handler → Prop
  | .probeReq => ElementsFit cmp (checkSnValid s.deviceInfo) (beyond.drop (24 - frame.length)) true
      (frame.drop 24)
  | .probeResponseEid208 => s.probeResp.len = 0 → WholeProbe (frame.drop 24)
  | .probeRequstEid208 => WholeProbe (frame.drop 24)

variable {l : Look} {cmp : Memcmp} {snValid : Bool} {body beyond : List UInt8} {i o : ℕ}

theorem eid_advances (snValid : Bool) (buf : List UInt8) (len : ℕ) :
    Advances (eidWalk snValid buf len) len := by
  refine ⟨fun j hj => ?_, fun j => ?_⟩
  · have hlt : j + 2 < len := of_decide_eq_true hj
    omega
  · exact Nat.lt_add_of_pos_right (Nat.succ_pos _)

theorem eid208_advances (buf : List UInt8) (len : ℕ) : Advances (eid208Walk buf len) len := by
  refine ⟨fun j hj => ?_, fun j => Nat.lt_succ_self j⟩
  have hlt : j + 8 < len := of_decide_eq_true hj
  omega

theorem checkProbeSyncEID_eq (cmp : Memcmp) (snValid : Bool) (buf : List UInt8) (len : ℕ) :
    checkProbeSyncEID snValid buf len = (eidLook cmp snValid buf len).offset := rfl

theorem checkProbeSyncEid208_eq (cmp : Memcmp) (buf : List UInt8) (len : ℕ) :
    checkProbeSyncEid208 buf len = (eid208Look cmp buf len).offset := by
  have hadv := eid208_advances buf len
  have hfrom (k o : ℕ) (hk : k = len - 8 - o) :
      find (eid208Walk buf len) len o = (List.range' o k).find? (syncAt buf) := by
    induction k generalizing o with
    | zero =>
      have hout : (eid208Walk buf len).inside o = false := decide_eq_false (by omega)
      exact hadv.find_outside hout
    | succ k ih =>
      have hin : (eid208Walk buf len).inside o = true := decide_eq_true (by omega)
      rw [List.range'_succ]
      cases hfound : syncAt buf o with
      | true => rw [hadv.find_found hin hfound, List.find?_cons_of_pos hfound]
      | false =>
        rw [hadv.find_next hin hfound, List.find?_cons_of_neg (by rw [hfound]; simp)]
        exact ih (o + 1) (by omega)
  rw [checkProbeSyncEid208, Look.offset, List.range_eq_range']
  exact congrArg (·.getD 0) (hfrom (len - 8) 0 (Nat.sub_zero _).symm).symm

theorem taken_iff (h : Advances l.walk l.limit) (hpos : ∀ i, 0 < l.extent i) :
    (∀ x ∈ l.taken, x < l.limit) ↔
      ∀ i, Visits l.walk 0 i → l.walk.found i = true → 0 < i → i + l.extent i ≤ l.limit := by
  have htaken {i : ℕ} (hi : 0 < i) :
      (∀ x ∈ (List.range (l.extent i)).map (i + ·), x < l.limit) ↔ i + l.extent i ≤ l.limit := by
    have hextent := hpos i
    simp only [List.forall_mem_map, List.mem_range]
    constructor
    · intro hall
      have hlast := hall (l.extent i - 1) (by omega)
      omega
    · intro hle k hk
      omega
  constructor
  · intro hall i hvisits hfound hi
    have hfind := h.find_eq_some.mpr ⟨hvisits, hfound⟩
    have hoffset : l.offset = i := by rw [Look.offset, hfind, Option.getD_some]
    rw [Look.taken, hoffset, if_pos hi] at hall
    exact (htaken hi).mp hall
  · intro hall
    rw [Look.taken]
    split
    · next hi =>
      refine (htaken hi).mpr ?_
      cases hfind : find l.walk l.limit 0 with
      | none =>
        rw [Look.offset, hfind] at hi
        exact absurd hi (Nat.lt_irrefl 0)
      | some j =>
        have hoffset : l.offset = j := by rw [Look.offset, hfind, Option.getD_some]
        obtain ⟨hvisits, hfound⟩ := h.find_eq_some.mp hfind
        rw [hoffset] at hi ⊢
        exact hall j hvisits hfound hi
    · exact fun x hx => absurd hx List.not_mem_nil

structure Good (l : Look) (i : ℕ) : Prop where
  touched : ∀ x ∈ l.touched i, x < l.limit
  whole : l.walk.found i = true → 0 < i → i + l.extent i ≤ l.limit

theorem contained_iff (h : Advances l.walk l.limit) (hpos : ∀ i, 0 < l.extent i) :
    l.Contained ↔ ∀ i, Visits l.walk 0 i → Good l i := by
  have htaken := taken_iff h hpos
  constructor
  · intro hcontained i hi
    exact ⟨hcontained.reads i hi, htaken.mp hcontained.taken i hi⟩
  · intro hall
    exact ⟨⟨_, h.finishes 0⟩, fun i hi => (hall i hi).touched,
      htaken.mpr fun i hi => (hall i hi).whole⟩

theorem syncedAt_eq (buf : List UInt8) (i : ℕ) :
    syncedAt buf i = syncCode.isPrefixOf (buf.drop (i + 2)) := by
  have hget (k : ℕ) : buf.getD (i + 2 + k) 0 = (buf.drop (i + 2)).getD k 0 := by
    rw [List.getD_eq_getElem?_getD, List.getD_eq_getElem?_getD, List.getElem?_drop]
  simp only [syncedAt, hget]
  generalize buf.drop (i + 2) = raw
  rcases raw with _ | ⟨a, _ | ⟨b, _ | ⟨c, _ | ⟨d, _ | ⟨e, raw⟩⟩⟩⟩⟩ <;>
    simp [List.range_succ, syncCode, List.isPrefixOf, eq_comm, Bool.beq_eq_decide_eq]

theorem agreeing_prefixed {raw var : List UInt8} (h : var <+: raw) :
    agreeing raw var = var.length := by
  obtain ⟨rest, rfl⟩ := h
  induction var with
  | nil => cases rest <;> rfl
  | cons a var ih => rw [List.cons_append, agreeing, if_pos rfl, ih, List.length_cons]

theorem span_prefixed {raw var : List UInt8} (cmp : Memcmp) (h : var <+: raw) :
    var.length ≤ cmp.span raw var := by
  have hreach := cmp.reaches raw var
  rwa [agreeing_prefixed h, Nat.min_eq_right (Nat.le_succ _)] at hreach

theorem compared_inside {buf : List UInt8} {len : ℕ} (h : i + 2 ≤ len) :
    (∀ x ∈ compared cmp buf i, x < len) ↔
      cmp.span (buf.drop (i + 2)) syncCode ≤ len - (i + 2) := by
  simp only [compared, List.forall_mem_map, List.mem_range]
  constructor
  · intro hall
    cases hspan : cmp.span (buf.drop (i + 2)) syncCode with
    | zero => exact Nat.zero_le _
    | succ n =>
      have hlast := hall n (by omega)
      omega
  · intro hle k hk
    omega

section Elements

variable {id n b : UInt8} {tail : List UInt8}

structure ElementAt (body : List UInt8) (o : ℕ) (id n b : UInt8) (tail : List UInt8) : Prop where
  drop : body.drop o = id :: n :: b :: tail

variable (h : ElementAt body o id n b tail)

include h

theorem ElementAt.length : body.length = o + (tail.length + 3) := by
  have hlen := congrArg List.length h.drop
  rw [List.length_drop] at hlen
  simp only [List.length_cons] at hlen
  omega

theorem ElementAt.getD (beyond : List UInt8) (k : ℕ) :
    (body ++ beyond).getD (o + k) 0 = (id :: n :: b :: tail ++ beyond).getD k 0 := by
  have hle : o ≤ body.length := by
    rw [h.length]
    exact Nat.le_add_right _ _
  rw [List.getD_eq_getElem?_getD, ← List.getElem?_drop, List.drop_append_of_le_length hle, h.drop,
    ← List.getD_eq_getElem?_getD]

theorem ElementAt.rest : body.drop (o + 2) = b :: tail := by
  rw [← List.drop_drop, h.drop]
  rfl

theorem ElementAt.restBeyond (beyond : List UInt8) :
    (body ++ beyond).drop (o + 2) = b :: tail ++ beyond := by
  have hlen := h.length
  rw [List.drop_append_of_le_length (by omega), h.rest]

theorem ElementAt.found (snValid : Bool) (beyond : List UInt8) :
    (eidWalk snValid (body ++ beyond) body.length).found o =
      (sought snValid id && syncCode.isPrefixOf (b :: tail ++ beyond)) := by
  have hid := h.getD beyond 0
  simp only [Nat.add_zero] at hid
  simp only [eidWalk, hid, syncedAt_eq, h.restBeyond]
  rfl

theorem ElementAt.next (snValid : Bool) (beyond : List UInt8) :
    (eidWalk snValid (body ++ beyond) body.length).next o = o + (n.toNat + 2) := by
  simp only [eidWalk, h.getD beyond 1]
  rfl

theorem ElementAt.nextDrop (k : ℕ) : body.drop (o + (k + 2)) = (b :: tail).drop k := by
  rw [Nat.add_comm k, ← Nat.add_assoc, ← List.drop_drop, h.rest]

theorem ElementAt.touched (cmp : Memcmp) (snValid : Bool) (beyond : List UInt8) :
    (∀ x ∈ eidTouched cmp snValid (body ++ beyond) o, x < body.length) ↔
      (sought snValid id = true →
        cmp.span (b :: tail ++ beyond) syncCode ≤ (b :: tail).length) := by
  have hlen := h.length
  have hid := h.getD beyond 0
  simp only [Nat.add_zero] at hid
  have hcompared := @compared_inside cmp o (body ++ beyond) body.length (by omega)
  rw [h.restBeyond, show body.length - (o + 2) = (b :: tail).length by
    rw [List.length_cons]
    omega] at hcompared
  have hnext : ∀ x ∈ (if sought snValid id && syncedAt (body ++ beyond) o then [] else [o + 1]),
      x < body.length := by
    intro x hx
    split at hx
    · cases hx
    · rw [List.mem_singleton.mp hx]
      omega
  simp only [eidTouched, hid, List.cons_append, List.getD_cons_zero]
  rw [List.forall_mem_cons, List.forall_mem_append]
  constructor
  · rintro ⟨-, hspan, -⟩ hsought
    rw [if_pos hsought] at hspan
    exact hcompared.mp hspan
  · intro hspan
    refine ⟨by omega, ?_, hnext⟩
    cases hsought : sought snValid id with
    | true => exact hcompared.mpr (hspan hsought)
    | false => exact fun x hx => absurd hx List.not_mem_nil

theorem ElementAt.good (cmp : Memcmp) (snValid : Bool) (beyond : List UInt8) :
    Good (eidLook cmp snValid (body ++ beyond) body.length) o ↔
      (sought snValid id = true → cmp.span (b :: tail ++ beyond) syncCode ≤ (b :: tail).length ∧
        (syncCode.isPrefixOf (b :: tail) = true → o = 0 ∨ n.toNat ≤ (b :: tail).length)) := by
  have hlen := h.length
  have hextent : (eidLook cmp snValid (body ++ beyond) body.length).extent o = n.toNat + 2 := by
    simp only [eidLook, h.getD beyond 1]
    rfl
  have hroom : o + (n.toNat + 2) ≤ body.length ↔ n.toNat ≤ (b :: tail).length := by
    rw [List.length_cons]
    omega
  have htouched := h.touched cmp snValid beyond
  have hfound := h.found snValid beyond
  constructor
  · intro hgood hsought
    refine ⟨htouched.mp hgood.touched hsought, fun hstart => ?_⟩
    cases o with
    | zero => exact .inl rfl
    | succ o =>
      have hhit : syncCode.isPrefixOf (b :: tail ++ beyond) = true :=
        List.isPrefixOf_iff_prefix.mpr
          ((List.isPrefixOf_iff_prefix.mp hstart).trans (List.prefix_append _ _))
      have hwhole := hgood.whole (hfound.trans (by rw [hsought, hhit, Bool.and_true]))
        (Nat.succ_pos o)
      rw [hextent] at hwhole
      exact .inr (hroom.mp hwhole)
  · intro hall
    refine ⟨htouched.mpr fun hsought => (hall hsought).1, fun hhit hpos => ?_⟩
    rw [show (eidLook cmp snValid (body ++ beyond) body.length).walk =
      eidWalk snValid (body ++ beyond) body.length from rfl, hfound, Bool.and_eq_true] at hhit
    obtain ⟨hspan, hwhole⟩ := hall hhit.1
    have hstart := List.isPrefixOf_iff_prefix.mp hhit.2
    have hfive := Nat.le_trans (span_prefixed cmp hstart) hspan
    have hinside := List.prefix_of_prefix_length_le hstart (List.prefix_append _ beyond) hfive
    rw [hextent]
    refine hroom.mpr ((hwhole (List.isPrefixOf_iff_prefix.mpr hinside)).resolve_left ?_)
    exact Nat.ne_of_gt hpos

end Elements

theorem prefix_within {raw beyond : List UInt8} (h : cmp.span (raw ++ beyond) syncCode ≤ raw.length) :
    syncCode.isPrefixOf (raw ++ beyond) = syncCode.isPrefixOf raw := by
  rw [Bool.eq_iff_iff, List.isPrefixOf_iff_prefix, List.isPrefixOf_iff_prefix]
  constructor
  · intro hstart
    exact List.prefix_of_prefix_length_le hstart (List.prefix_append _ _)
      (Nat.le_trans (span_prefixed cmp hstart) h)
  · exact fun hstart => hstart.trans (List.prefix_append _ _)

theorem elementsFit_short {first : Bool} (h : body.length < 3) :
    ElementsFit cmp snValid beyond first body := by
  rcases body with _ | ⟨a, _ | ⟨b, _ | ⟨c, body⟩⟩⟩
  · rw [ElementsFit.eq_def]
    trivial
  · rw [ElementsFit.eq_def]
    trivial
  · rw [ElementsFit.eq_def]
    trivial
  · simp only [List.length_cons] at h
    omega

theorem elementsFit_other {first : Bool} {id n b : UInt8} {tail : List UInt8}
    (h : sought snValid id = false) :
    ElementsFit cmp snValid beyond first (id :: n :: b :: tail) ↔
      ElementsFit cmp snValid beyond false ((b :: tail).drop n.toNat) := by
  rw [ElementsFit.eq_def]
  dsimp only
  rw [h, if_neg Bool.false_ne_true]

theorem elementsFit_sought {first : Bool} {id n b : UInt8} {tail : List UInt8}
    (h : sought snValid id = true) :
    ElementsFit cmp snValid beyond first (id :: n :: b :: tail) ↔
      cmp.span (b :: tail ++ beyond) syncCode ≤ (b :: tail).length ∧
        if syncCode.isPrefixOf (b :: tail) then first = true ∨ n.toNat ≤ (b :: tail).length
        else ElementsFit cmp snValid beyond false ((b :: tail).drop n.toNat) := by
  rw [ElementsFit.eq_def]
  dsimp only
  rw [h, if_pos rfl]

theorem visits_good_iff :
    (∀ i, Visits (eidWalk snValid (body ++ beyond) body.length) o i →
        Good (eidLook cmp snValid (body ++ beyond) body.length) i) ↔
      ElementsFit cmp snValid beyond (o == 0) (body.drop o) := by
  induction hleft : body.length - o using Nat.strongRecOn generalizing o with
  | _ left ih =>
    rcases hdrop : body.drop o with _ | ⟨id, _ | ⟨n, _ | ⟨b, tail⟩⟩⟩
    all_goals
      have hlen := congrArg List.length hdrop
      rw [List.length_drop] at hlen
      simp only [List.length_nil, List.length_cons] at hlen
    iterate 3
      refine iff_of_true (forall_visits_outside (decide_eq_false ?_)) (elementsFit_short ?_)
      · omega
      · simp
    have hat : ElementAt body o id n b tail := ⟨hdrop⟩
    have hin : (eidWalk snValid (body ++ beyond) body.length).inside o = true :=
      decide_eq_true (by omega)
    have hnext := ih (body.length - (o + (n.toNat + 2))) (by omega) rfl
    rw [hat.nextDrop, show (o + (n.toNat + 2) == 0) = false from beq_false_of_ne (by omega)] at hnext
    rw [forall_visits hin, hat.good, hat.found, hat.next, hnext]
    cases hsought : sought snValid id with
    | false =>
      rw [elementsFit_other hsought]
      simp only [Bool.false_eq_true, Bool.false_and, false_implies, true_and, true_implies]
    | true =>
      rw [elementsFit_sought hsought]
      simp only [true_implies, Bool.true_and, and_assoc]
      refine and_congr_right fun hspan => ?_
      rw [prefix_within hspan]
      cases syncCode.isPrefixOf (b :: tail) with
      | true => simp
      | false => simp

theorem eidLook_contained_iff : (eidLook cmp snValid (body ++ beyond) body.length).Contained ↔
    ElementsFit cmp snValid beyond true body := by
  rw [contained_iff (eid_advances _ _ _) fun i => Nat.succ_pos _]
  exact visits_good_iff

theorem visits_eid208 {buf : List UInt8} {len : ℕ} : Visits (eid208Walk buf len) o i ↔
    o ≤ i ∧ i + 8 < len ∧ ∀ j, o ≤ j → j < i → syncAt buf j = false := by
  constructor
  · intro hvisits
    induction hvisits with
    | @here i hin =>
      have hlt : i + 8 < len := of_decide_eq_true hin
      exact ⟨Nat.le_refl i, hlt, fun j hij hji => absurd hij (Nat.not_le.mpr hji)⟩
    | @later o i hin hfound _ ih =>
      obtain ⟨hle, hlt, hmiss⟩ := ih
      refine ⟨Nat.le_of_succ_le hle, hlt, fun j hoj hji => ?_⟩
      cases Nat.eq_or_lt_of_le hoj with
      | inl heq => exact heq ▸ hfound
      | inr hoj => exact hmiss j hoj hji
  · rintro ⟨hle, hlt, hmiss⟩
    induction hd : i - o generalizing o with
    | zero =>
      have heq : o = i := by omega
      subst heq
      exact .here (decide_eq_true hlt)
    | succ d ih =>
      refine .later (decide_eq_true (by omega)) (hmiss o (Nat.le_refl o) (by omega)) ?_
      have hafter (j : ℕ) (hoj : o + 1 ≤ j) (hji : j < i) : syncAt buf j = false :=
        hmiss j (by omega) hji
      exact @ih (o + 1) (by omega) hafter (by omega)

theorem syncAt_append (h : i + 8 < body.length) :
    syncAt (body ++ beyond) i = syncAt body i := by
  have hget {k : ℕ} (hk : k < body.length) : (body ++ beyond).getD k 0 = body.getD k 0 := by
    rw [List.getD_eq_getElem?_getD, List.getElem?_append_left hk, ← List.getD_eq_getElem?_getD]
  rw [syncAt, syncAt, hget (by omega : i < body.length)]
  refine congrArg _ ?_
  rw [Bool.eq_iff_iff, List.all_eq_true, List.all_eq_true]
  refine forall₂_congr fun k hk => ?_
  have hfive := List.mem_range.mp hk
  rw [hget (by omega : i + 2 + k < body.length)]

theorem eid208_touched (h : i + 8 < body.length) :
    ∀ x ∈ eid208Touched cmp (body ++ beyond) i, x < body.length := by
  have hspan := cmp.bounded ((body ++ beyond).drop (i + 2)) syncCode
  have hfive : syncCode.length = 5 := rfl
  rw [eid208Touched, List.forall_mem_cons]
  refine ⟨by omega, ?_⟩
  split
  · exact (compared_inside (by omega)).mpr (by omega)
  · exact fun x hx => absurd hx List.not_mem_nil

theorem eid208Look_contained_iff : (eid208Look cmp (body ++ beyond) body.length).Contained ↔
    WholeProbe body := by
  rw [contained_iff (eid208_advances _ _) fun i => Nat.succ_pos 41]
  constructor
  · intro hall i hpos hlt hfound hmiss
    have hvisits : Visits (eid208Walk (body ++ beyond) body.length) 0 i :=
      visits_eid208.mpr ⟨Nat.zero_le i, hlt, fun j _ hji =>
        (syncAt_append (by omega)).trans (hmiss j hji)⟩
    exact (hall i hvisits).whole ((syncAt_append hlt).trans hfound) hpos
  · intro hwhole i hvisits
    obtain ⟨-, hlt, hmiss⟩ := visits_eid208.mp hvisits
    refine ⟨eid208_touched hlt, fun hfound hpos => ?_⟩
    refine hwhole i hpos hlt ((syncAt_append hlt).symm.trans hfound) fun j hji => ?_
    exact (syncAt_append (by omega)).symm.trans (hmiss j (Nat.zero_le j) hji)

theorem wholeProbe_nil : WholeProbe [] := fun _ _ hlt => absurd hlt (Nat.not_lt_zero _)

theorem frame_scans_contained (cmp : Memcmp) (s : EzState) (frame beyond : List UInt8)
    (handler : Handler) :
    (∀ l ∈ look cmp s (frame ++ beyond) frame.length handler, l.Contained) ↔
      FrameFits cmp s frame beyond handler := by
  have hbody : (frame ++ beyond).drop 24 = frame.drop 24 ++ beyond.drop (24 - frame.length) :=
    List.drop_append
  have hlen : frame.length - 24 = (frame.drop 24).length := List.length_drop.symm
  cases handler with
  | probeReq =>
    simp only [look, FrameFits, Option.mem_some_iff, forall_eq', hbody, hlen]
    exact eidLook_contained_iff
  | probeResponseEid208 =>
    simp only [look, FrameFits, hbody, hlen]
    cases Decidable.em (s.probeResp.len = 0) with
    | inr hresp => simp [hresp]
    | inl hresp =>
      cases Decidable.em (frame.length ≤ 23) with
      | inl hshort =>
        rw [List.drop_eq_nil_of_le (by omega)]
        simp [hshort, wholeProbe_nil]
      | inr hlong =>
        rw [if_neg (by simp [hresp, hlong])]
        simp only [hresp, Option.mem_some_iff, forall_eq', true_implies]
        exact eid208Look_contained_iff
  | probeRequstEid208 =>
    simp only [look, FrameFits, hbody, hlen]
    cases Decidable.em (frame.length ≤ 23) with
    | inl hshort =>
      rw [List.drop_eq_nil_of_le (by omega)]
      simp [hshort, wholeProbe_nil]
    | inr hlong =>
      rw [if_neg hlong]
      simp only [Option.mem_some_iff, forall_eq']
      exact eid208Look_contained_iff

def shortProbe : List UInt8 := 0x40 :: List.replicate 23 0 ++ [0, 208, 0] ++ syncCode ++ [0, 0]

theorem short_probe_overread : ¬ ∃ cmp : Memcmp,
    ∀ l ∈ look cmp .init shortProbe shortProbe.length .probeRequstEid208, l.Contained := by
  rintro ⟨cmp, hcontained⟩
  have hall := hcontained (eid208Look cmp (shortProbe.drop 24) 10) rfl
  rw [← List.append_nil (shortProbe.drop 24)] at hall
  have hwhole := (@eid208Look_contained_iff cmp (shortProbe.drop 24) []).mp hall
  exact absurd (hwhole 1 (by decide) (by decide) (by decide) (by decide)) (by decide)

end ScanBounds

end Ez
