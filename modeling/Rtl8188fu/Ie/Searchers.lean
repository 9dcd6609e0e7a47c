import Rtl8188fu.Lib.TlvWalk
import Rtl8188fu.Ie.Attributes

namespace Ie

open ByteMemory CursorWalk Tlv

structure Searcher where
  enters : Bool
  limit : ℕ
  walk : Walk
  accepts : ℕ → Bool
  reads : ℕ → List ℕ

namespace Searcher

def search (s : Searcher) (fuel : ℕ) : Option (Option ℕ) :=
  if s.enters then (run s.walk fuel 0).map (·.filter s.accepts) else some none

def result (s : Searcher) : Option ℕ :=
  if s.enters then (find s.walk s.limit 0).filter s.accepts else none

def readOffsets (s : Searcher) : List ℕ :=
  if s.enters then (trace s.walk s.limit 0).flatMap s.reads else []

structure Runs (s : Searcher) : Prop where
  advances : Advances s.walk s.limit
  opens : ∀ i, s.walk.inside i = true → s.enters = true

variable {s : Searcher} {m : Mem} {base i o : ℕ} {pre post ts : List Element} {t : Element}

theorem search_result (h : Advances s.walk s.limit) : ∃ fuel, s.search fuel = some s.result := by
  cases henters : s.enters with
  | false => exact ⟨0, by simp only [search, result, henters, Bool.false_eq_true, if_false]⟩
  | true =>
    obtain ⟨fuel, hrun⟩ := h.finishes 0
    refine ⟨fuel, ?_⟩
    simp only [search, result, henters, if_true, hrun, Option.map_some]

theorem Runs.result_eq_some (h : s.Runs) :
    s.result = some i ↔ Visits s.walk 0 i ∧ s.walk.found i = true ∧ s.accepts i = true := by
  rw [result]
  cases henters : s.enters with
  | true =>
    rw [if_pos rfl, Option.filter_eq_some_iff, h.advances.find_eq_some, and_assoc]
  | false =>
    refine iff_of_false nofun fun ⟨hvisits, _⟩ => ?_
    exact Bool.false_ne_true (henters.symm.trans (h.opens _ hvisits.start))

theorem Runs.mem_readOffsets (h : s.Runs) :
    o ∈ s.readOffsets ↔ ∃ i, Visits s.walk 0 i ∧ o ∈ s.reads i := by
  rw [readOffsets]
  cases henters : s.enters with
  | true =>
    rw [if_pos rfl, List.mem_flatMap]
    refine exists_congr fun i => and_congr_left fun _ => ?_
    exact h.advances.mem_trace_iff (by omega)
  | false =>
    refine iff_of_false List.not_mem_nil fun ⟨i, hvisits, _⟩ => ?_
    exact Bool.false_ne_true (henters.symm.trans (h.opens _ hvisits.start))

theorem Runs.finds (h : s.Runs) (hnext : ∀ i, s.walk.next i = nextElement m base i)
    (hlist : Holds m base (encode (pre ++ t :: post)))
    (hin : ∀ i, i ≤ (encode pre).length → s.walk.inside i = true)
    (haccepts : ∀ i, i ≤ (encode pre).length → s.accepts i = true)
    (hfound : s.walk.found (encode pre).length = true) : s.result ≠ none := by
  rw [Option.ne_none_iff_exists']
  have hvisits := visits_or_found (o := 0) hnext hlist (by simpa only [Nat.zero_add] using hin)
  rw [Nat.zero_add] at hvisits
  rcases hvisits with ⟨i, hi, hifound, hlt⟩ | hthere
  · exact ⟨i, h.result_eq_some.mpr ⟨hi, hifound, haccepts i (Nat.le_of_lt hlt)⟩⟩
  · exact ⟨_, h.result_eq_some.mpr ⟨hthere, hfound, haccepts _ (Nat.le_refl _)⟩⟩

end Searcher

def ElementInside (m : Mem) (base limit i : ℕ) : Prop := i + 2 + (m (base + i + 1)).toNat ≤ limit

instance (m : Mem) (base limit i : ℕ) : Decidable (ElementInside m base limit i) :=
  inferInstanceAs (Decidable (_ ≤ _))

structure SearchLaw (s : Searcher) (m : Mem) (base : ℕ) (wanted : Element → Prop) : Prop where
  ends : ∃ fuel, s.search fuel = some s.result
  reads : ∀ o ∈ s.readOffsets, o < s.limit
  contained : ∀ o ∈ s.result, ElementInside m base s.limit o
  complete : base ≠ 0 → ∀ ts, (encode ts).length = s.limit → Holds m base (encode ts) →
    (∃ t ∈ ts, wanted t) → s.result ≠ none

theorem SearchLaw.of_null {s : Searcher} {m : Mem} {wanted : Element → Prop}
    (h : s.enters = false) : SearchLaw s m 0 wanted := by
  have hresult : s.result = none := by rw [Searcher.result, h, if_neg Bool.false_ne_true]
  have hreads : s.readOffsets = [] := by rw [Searcher.readOffsets, h, if_neg Bool.false_ne_true]
  constructor
  · rw [hresult]
    exact ⟨0, by rw [Searcher.search, h, if_neg Bool.false_ne_true]⟩
  · rw [hreads]
    exact nofun
  · rw [hresult]
    exact nofun
  · exact fun hnull => absurd rfl hnull

def getIeWalk (m : Mem) (pbuf : ℕ) (index : ℤ) (limit : ℕ) : Walk where
  inside i := decide (i < limit)
  found i := decide (((m (pbuf + i)).toNat : ℤ) = index)
  next i := nextElement m pbuf i

def rtwGetIeSearch (m : Mem) (pbuf : ℕ) (index limit : ℤ) : Searcher where
  enters := decide (1 ≤ limit)
  limit := limit.toNat
  walk := getIeWalk m pbuf index limit.toNat
  accepts _ := true
  reads i := [i, i + 1]

def getIeExWalk (m : Mem) (inIe inLen : ℕ) (eid : UInt8) (oui : List UInt8) : Walk where
  inside i := decide (i < inLen)
  found i := decide (m (inIe + i) = eid) && memcmp m (inIe + i + 2) oui
  next i := nextElement m inIe i

def ouiOffsets (hit : Prop) [Decidable hit] (i ouiLen : ℕ) : List ℕ :=
  if hit then (List.range ouiLen).map (i + 2 + ·) else []

def rtwGetIeExSearch (m : Mem) (inIe inLen : ℕ) (eid : UInt8) (oui : List UInt8) : Searcher where
  enters := decide (inIe ≠ 0 ∧ 0 < inLen)
  limit := inLen
  walk := getIeExWalk m inIe inLen eid oui
  accepts _ := true
  reads i := i :: (i + 1) :: ouiOffsets (m (inIe + i) = eid) i oui.length

def maxIeSz : ℕ := 768

def cutOff (i : ℕ) : Bool := decide (maxIeSz ≤ i + 1 + 4)

def isVendorIe (m : Mem) (oui : List UInt8) (pos : ℕ) : Bool :=
  decide (m pos = eidVendorSpecific) && memcmp m (pos + 2) oui

def vendorIeWalk (oui : List UInt8) (m : Mem) (inIe inLen : ℕ) : Walk where
  inside i := decide (i + 1 + 4 < inLen)
  found i := cutOff i || isVendorIe m oui (inIe + i)
  next i := nextElement m inIe i

def vendorIeSearch (oui : List UInt8) (m : Mem) (inIe : ℕ) (inLen : ℤ) : Searcher where
  enters := decide (inIe ≠ 0 ∧ 0 < inLen)
  limit := inLen.toNat
  walk := vendorIeWalk oui m inIe inLen.toNat
  accepts i := !cutOff i
  reads i :=
    if cutOff i then [i]
    else i :: (i + 1) :: ouiOffsets (m (inIe + i) = eidVendorSpecific) i 4

def rtwGetWpsIe : Mem → ℕ → ℤ → Searcher := vendorIeSearch wpsOui

def rtwGetP2pIe : Mem → ℕ → ℤ → Searcher := vendorIeSearch p2pOui

def rtwGetWfdIe : Mem → ℕ → ℤ → Searcher := vendorIeSearch wfdOui

theorem mem_ouiOffsets {hit : Prop} [Decidable hit] {i ouiLen o : ℕ} :
    o ∈ ouiOffsets hit i ouiLen ↔ hit ∧ i + 2 ≤ o ∧ o < i + 2 + ouiLen := by
  rw [ouiOffsets]
  cases Decidable.em hit with
  | inr hmiss => simp only [hmiss, if_false, List.not_mem_nil, false_and]
  | inl hhit =>
    simp only [hhit, if_true, List.mem_map, List.mem_range, true_and]
    constructor
    · rintro ⟨k, hk, rfl⟩
      omega
    · rintro ⟨hle, hlt⟩
      exact ⟨o - (i + 2), by omega, by omega⟩

theorem memcmp_iff {m : Mem} {pos : ℕ} {bs : List UInt8} :
    memcmp m pos bs = true ↔ Holds m pos bs := by
  induction bs generalizing pos with
  | nil => exact iff_of_true rfl fun i h => absurd h (Nat.not_lt_zero i)
  | cons b bs ih =>
    rw [memcmp, Bool.and_eq_true, beq_iff_eq, ih]
    constructor
    · rintro ⟨hhead, htail⟩
      have hone : Holds m pos [b] := fun i hi => by
        obtain rfl := Nat.lt_one_iff.mp hi
        exact hhead
      exact hone.append htail
    · intro h
      have hsplit : Holds m pos ([b] ++ bs) := h
      exact ⟨h 0 (Nat.succ_pos _), hsplit.right⟩

theorem filter_all (r : Option ℕ) : (r.filter fun _ => true) = r := by
  cases r with
  | none => rfl
  | some i => rfl

section Ties

variable (m : Mem)

theorem getIeWalk_advances (pbuf : ℕ) (index : ℤ) (limit : ℕ) :
    Advances (getIeWalk m pbuf index limit) limit :=
  ⟨fun _ => of_decide_eq_true, lt_nextElement m pbuf⟩

theorem getIeExWalk_advances (inIe inLen : ℕ) (eid : UInt8) (oui : List UInt8) :
    Advances (getIeExWalk m inIe inLen eid oui) inLen :=
  ⟨fun _ => of_decide_eq_true, lt_nextElement m inIe⟩

theorem vendorIeWalk_advances (oui : List UInt8) (inIe inLen : ℕ) :
    Advances (vendorIeWalk oui m inIe inLen) inLen := by
  refine ⟨fun i hi => ?_, lt_nextElement m inIe⟩
  have hlt : i + 1 + 4 < inLen := of_decide_eq_true hi
  omega

theorem getIeLoop_eq (pbuf : ℕ) (index : UInt8) (limit fuel i : ℕ) (hi : i < limit)
    (hfuel : limit ≤ i + fuel) : getIeLoop m index limit fuel (pbuf + i) i =
      (find (getIeWalk m pbuf index.toNat limit) limit i).map (pbuf + ·) := by
  have hadv := getIeWalk_advances m pbuf index.toNat limit
  induction fuel generalizing i with
  | zero => omega
  | succ fuel ih =>
    have hin : (getIeWalk m pbuf index.toNat limit).inside i = true := decide_eq_true hi
    have hfound : (getIeWalk m pbuf index.toNat limit).found i = decide (m (pbuf + i) = index) := by
      refine decide_eq_decide.mpr ?_
      rw [Nat.cast_inj, UInt8.toNat_inj]
    rw [getIeLoop]
    cases Decidable.em (m (pbuf + i) = index) with
    | inl hhit =>
      rw [if_pos hhit, hadv.find_found hin (hfound.trans (decide_eq_true hhit)), Option.map_some]
    | inr hmiss =>
      rw [if_neg hmiss, hadv.find_next hin (hfound.trans (decide_eq_false hmiss))]
      have hstep : (getIeWalk m pbuf index.toNat limit).next i = nextElement m pbuf i := rfl
      have hnext := lt_nextElement m pbuf i
      rw [hstep]
      cases Nat.lt_or_ge (nextElement m pbuf i) limit with
      | inl hlt =>
        rw [nextElement] at hlt
        simp only [if_neg (Nat.not_le.mpr hlt), ge_iff_le]
        rw [Nat.add_assoc]
        exact ih _ hlt (by omega)
      | inr hge =>
        rw [hadv.find_outside (decide_eq_false (Nat.not_lt.mpr hge)), Option.map_none]
        exact if_pos hge

theorem rtwGetIe_eq (pbuf : ℕ) (index : UInt8) (limit : ℤ) :
    rtwGetIe m pbuf index limit =
      (rtwGetIeSearch m pbuf index.toNat limit).result.map (pbuf + ·) := by
  rw [rtwGetIe, Searcher.result]
  cases Decidable.em (limit < 1) with
  | inl hlt =>
    have hshut : (rtwGetIeSearch m pbuf index.toNat limit).enters = false :=
      decide_eq_false (Int.not_le.mpr hlt)
    rw [if_pos hlt, hshut, if_neg Bool.false_ne_true, Option.map_none]
  | inr hge =>
    have hopen : (rtwGetIeSearch m pbuf index.toNat limit).enters = true :=
      decide_eq_true (Int.not_lt.mp hge)
    rw [if_neg hge, hopen, if_pos rfl]
    have hloop := getIeLoop_eq m pbuf index limit.toNat limit.toNat 0 (by omega) (by omega)
    refine hloop.trans (congrArg _ ?_)
    exact (filter_all _).symm

theorem rtwGetIe_find (base : ℕ) (id : UInt8) (limit : ℤ) :
    rtwGetIe m base id limit =
      (find (getIeWalk m base id.toNat limit.toNat) limit.toNat 0).map (base + ·) := by
  rw [rtwGetIe_eq, Searcher.result]
  cases Decidable.em (1 ≤ limit) with
  | inl hopen =>
    have henters : (rtwGetIeSearch m base id.toNat limit).enters = true := decide_eq_true hopen
    rw [if_pos henters]
    exact congrArg (Option.map (base + ·)) (filter_all _)
  | inr hshut =>
    have henters : (rtwGetIeSearch m base id.toNat limit).enters = false := decide_eq_false hshut
    have hout : (getIeWalk m base id.toNat limit.toNat).inside 0 = false := by
      refine decide_eq_false ?_
      omega
    rw [henters, if_neg Bool.false_ne_true, (getIeWalk_advances m base _ _).find_outside hout]

theorem getIeExLoop_eq (inIe inLen : ℕ) (eid : UInt8) (oui : List UInt8) (fuel cnt : ℕ)
    (hfuel : inLen ≤ cnt + fuel) : getIeExLoop m inIe inLen eid oui fuel cnt =
      (find (getIeExWalk m inIe inLen eid oui) inLen cnt).map (inIe + ·) := by
  have hadv := getIeExWalk_advances m inIe inLen eid oui
  induction fuel generalizing cnt with
  | zero =>
    rw [hadv.find_outside (decide_eq_false (by omega))]
    rfl
  | succ fuel ih =>
    rw [getIeExLoop]
    cases Nat.lt_or_ge cnt inLen with
    | inr hge =>
      rw [if_neg (Nat.not_lt.mpr hge),
        hadv.find_outside (decide_eq_false (Nat.not_lt.mpr hge)), Option.map_none]
    | inl hlt =>
      rw [if_pos hlt]
      have hin : (getIeExWalk m inIe inLen eid oui).inside cnt = true := decide_eq_true hlt
      have hfound : (getIeExWalk m inIe inLen eid oui).found cnt =
          decide (m (inIe + cnt) = eid ∧ memcmp m (inIe + cnt + 2) oui = true) := by
        rw [Bool.decide_and, Bool.decide_eq_true]
        rfl
      cases Decidable.em (m (inIe + cnt) = eid ∧ memcmp m (inIe + cnt + 2) oui = true) with
      | inl hhit =>
        rw [if_pos hhit, hadv.find_found hin (hfound.trans (decide_eq_true hhit)), Option.map_some]
      | inr hmiss =>
        rw [if_neg hmiss, hadv.find_next hin (hfound.trans (decide_eq_false hmiss))]
        exact ih _ (by omega)

theorem rtwGetIeEx_eq (inIe inLen : ℕ) (eid : UInt8) (oui : List UInt8) (h : inIe ≠ 0) :
    rtwGetIeEx m inIe inLen eid oui =
      (rtwGetIeExSearch m inIe inLen eid oui).result.map (inIe + ·) := by
  have hadv := getIeExWalk_advances m inIe inLen eid oui
  have hloop := getIeExLoop_eq m inIe inLen eid oui inLen 0 (by omega)
  rw [rtwGetIeEx, hloop, Searcher.result]
  cases Nat.eq_zero_or_pos inLen with
  | inl hzero =>
    have hshut : (rtwGetIeExSearch m inIe inLen eid oui).enters = false :=
      decide_eq_false fun hpos => by omega
    rw [hshut, if_neg Bool.false_ne_true, hadv.find_outside (decide_eq_false (by omega))]
  | inr hpos =>
    have hopen : (rtwGetIeExSearch m inIe inLen eid oui).enters = true := decide_eq_true ⟨h, hpos⟩
    rw [hopen, if_pos rfl]
    exact congrArg _ (filter_all _).symm

end Ties

structure GetIeInside (m : Mem) (pbuf : ℕ) (index : ℤ) (limit i : ℕ) : Prop where
  header : i + 2 ≤ limit
  whole : ((m (pbuf + i)).toNat : ℤ) = index → ElementInside m pbuf limit i

structure GetIeExInside (m : Mem) (inIe inLen : ℕ) (eid : UInt8) (oui : List UInt8) (i : ℕ) :
    Prop where
  header : i + 2 ≤ inLen
  filter : m (inIe + i) = eid → i + 2 + oui.length ≤ inLen
  whole : m (inIe + i) = eid → memcmp m (inIe + i + 2) oui = true → ElementInside m inIe inLen i

structure VendorIeInside (oui : List UInt8) (m : Mem) (inIe inLen : ℕ) : Prop where
  whole : ∀ i, Visits (vendorIeWalk oui m inIe inLen) 0 i → cutOff i = false →
    isVendorIe m oui (inIe + i) = true → ElementInside m inIe inLen i
  early : ∀ ts, (encode ts).length = inLen → Holds m inIe (encode ts) →
    (∃ t ∈ ts, t.id = eidVendorSpecific ∧ oui <+: t.body) →
    ∃ pre t post, ts = pre ++ t :: post ∧ cutOff (encode pre).length = false ∧
      t.id = eidVendorSpecific ∧ oui <+: t.body ++ encode post

def HasId (index : ℤ) (t : Element) : Prop := (t.id.toNat : ℤ) = index

def HasOui (eid : UInt8) (oui : List UInt8) (t : Element) : Prop := t.id = eid ∧ oui <+: t.body

theorem getIe_runs (m : Mem) (pbuf : ℕ) (index limit : ℤ) :
    (rtwGetIeSearch m pbuf index limit).Runs := by
  refine ⟨getIeWalk_advances m pbuf index limit.toNat, fun i hi => decide_eq_true ?_⟩
  have hlt : i < limit.toNat := of_decide_eq_true hi
  omega

theorem getIeEx_runs (m : Mem) {inIe : ℕ} (inLen : ℕ) (eid : UInt8) (oui : List UInt8)
    (h : inIe ≠ 0) : (rtwGetIeExSearch m inIe inLen eid oui).Runs := by
  refine ⟨getIeExWalk_advances m inIe inLen eid oui, fun i hi => decide_eq_true ⟨h, ?_⟩⟩
  have hlt : i < inLen := of_decide_eq_true hi
  omega

theorem getIe_law_iff (m : Mem) (pbuf : ℕ) (index limit : ℤ) :
    SearchLaw (rtwGetIeSearch m pbuf index limit) m pbuf (HasId index) ↔
      ∀ i, Visits (getIeWalk m pbuf index limit.toNat) 0 i →
        GetIeInside m pbuf index limit.toNat i := by
  have hruns := getIe_runs m pbuf index limit
  constructor
  · intro h i hi
    constructor
    · exact h.reads (i + 1) (hruns.mem_readOffsets.mpr
        ⟨i, hi, List.mem_cons_of_mem _ List.mem_cons_self⟩)
    · intro hid
      exact h.contained i (hruns.result_eq_some.mpr ⟨hi, decide_eq_true hid, rfl⟩)
  · intro h
    constructor
    · exact Searcher.search_result hruns.advances
    · intro o ho
      obtain ⟨i, hi, hread⟩ := hruns.mem_readOffsets.mp ho
      have hheader : i + 2 ≤ limit.toNat := (h i hi).header
      have hlast : o ≤ i + 1 := by
        rcases List.mem_pair.mp hread with rfl | rfl
        · exact Nat.le_succ o
        · exact Nat.le_refl _
      exact Nat.lt_of_le_of_lt hlast hheader
    · intro i hi
      obtain ⟨hvisits, hfound, _⟩ := hruns.result_eq_some.mp hi
      exact (h i hvisits).whole (of_decide_eq_true hfound)
    · rintro _ ts hlen hlist ⟨t, ht, hid⟩
      obtain ⟨pre, post, rfl⟩ := List.append_of_mem ht
      have hhere := holds_elements hlist
      refine hruns.finds (fun _ => rfl) hlist (fun i hi => decide_eq_true ?_) (fun _ _ => rfl)
        (decide_eq_true ?_)
      · have hlimit : (encode (pre ++ t :: post)).length = limit.toNat := hlen
        rw [encode_append, encode_cons, List.length_append, List.length_append,
          Element.length_bytes] at hlimit
        omega
      · rw [holds_id hhere]
        exact hid

theorem getIeEx_law_iff (m : Mem) (inIe inLen : ℕ) (eid : UInt8) (oui : List UInt8) :
    SearchLaw (rtwGetIeExSearch m inIe inLen eid oui) m inIe (HasOui eid oui) ↔
      (inIe ≠ 0 → ∀ i, Visits (getIeExWalk m inIe inLen eid oui) 0 i →
        GetIeExInside m inIe inLen eid oui i) := by
  cases Decidable.eq_or_ne inIe 0 with
  | inl hnull =>
    subst hnull
    have hshut : ¬ ((0 : ℕ) ≠ 0 ∧ 0 < inLen) := fun h => h.1 rfl
    exact iff_of_true (.of_null (decide_eq_false hshut)) fun h => absurd rfl h
  | inr hbase =>
    rw [forall_prop_of_true hbase]
    have hruns := getIeEx_runs m inLen eid oui hbase
    have hfound (i : ℕ) : (getIeExWalk m inIe inLen eid oui).found i = true ↔
        m (inIe + i) = eid ∧ memcmp m (inIe + i + 2) oui = true := by
      rw [getIeExWalk, Bool.and_eq_true, decide_eq_true_iff]
    constructor
    · intro h i hi
      have hread {o : ℕ} (ho : o ∈ (rtwGetIeExSearch m inIe inLen eid oui).reads i) : o < inLen :=
        h.reads o (hruns.mem_readOffsets.mpr ⟨i, hi, ho⟩)
      have hheader : i + 1 < inLen := hread (List.mem_cons_of_mem _ List.mem_cons_self)
      refine ⟨hheader, fun hid => ?_, fun hid houi => ?_⟩
      · cases hsize : oui.length with
        | zero => exact hheader
        | succ n =>
          refine hread (o := i + 2 + n)
            (List.mem_cons_of_mem _ (List.mem_cons_of_mem _ (mem_ouiOffsets.mpr ?_)))
          exact ⟨hid, by omega, by omega⟩
      · exact h.contained i (hruns.result_eq_some.mpr ⟨hi, (hfound i).mpr ⟨hid, houi⟩, rfl⟩)
    · intro h
      constructor
      · exact Searcher.search_result hruns.advances
      · intro o ho
        obtain ⟨i, hi, hread⟩ := hruns.mem_readOffsets.mp ho
        have hheader : i + 2 ≤ inLen := (h i hi).header
        rcases List.mem_cons.mp hread with rfl | hread
        · exact Nat.lt_of_succ_lt hheader
        · rcases List.mem_cons.mp hread with rfl | hread
          · exact hheader
          · obtain ⟨hid, _, hlt⟩ := mem_ouiOffsets.mp hread
            exact Nat.lt_of_lt_of_le hlt ((h i hi).filter hid)
      · intro i hi
        obtain ⟨hvisits, hhit, _⟩ := hruns.result_eq_some.mp hi
        obtain ⟨hid, houi⟩ := (hfound i).mp hhit
        exact (h i hvisits).whole hid houi
      · rintro _ ts hlen hlist ⟨t, ht, hid, houi⟩
        obtain ⟨pre, post, rfl⟩ := List.append_of_mem ht
        have hhere := holds_elements hlist
        refine hruns.finds (fun _ => rfl) hlist (fun i hi => decide_eq_true ?_) (fun _ _ => rfl)
          ((hfound _).mpr ⟨?_, ?_⟩)
        · have hlimit : (encode (pre ++ t :: post)).length = inLen := hlen
          rw [encode_append, encode_cons, List.length_append, List.length_append,
            Element.length_bytes] at hlimit
          omega
        · rw [holds_id hhere]
          exact hid
        · exact memcmp_iff.mpr ((holds_tail hhere).left.restrict houi)

theorem cutOff_mono {i j : ℕ} (hij : i ≤ j) (h : cutOff j = false) : cutOff i = false := by
  have hlt : ¬ maxIeSz ≤ j + 1 + 4 := of_decide_eq_false h
  refine decide_eq_false ?_
  omega

theorem isVendorIe_iff {m : Mem} {oui : List UInt8} {pos : ℕ} :
    isVendorIe m oui pos = true ↔ m pos = eidVendorSpecific ∧ Holds m (pos + 2) oui := by
  rw [isVendorIe, Bool.and_eq_true, decide_eq_true_iff, memcmp_iff]

theorem vendorIe_law_iff (m : Mem) (inIe : ℕ) (inLen : ℤ) {oui : List UInt8}
    (houi : oui.length = 4) :
    SearchLaw (vendorIeSearch oui m inIe inLen) m inIe (HasOui eidVendorSpecific oui) ↔
      (inIe ≠ 0 → VendorIeInside oui m inIe inLen.toNat) := by
  cases Decidable.eq_or_ne inIe 0 with
  | inl hnull =>
    subst hnull
    have hshut : ¬ ((0 : ℕ) ≠ 0 ∧ 0 < inLen) := fun h => h.1 rfl
    exact iff_of_true (.of_null (decide_eq_false hshut)) fun h => absurd rfl h
  | inr hbase =>
    rw [forall_prop_of_true hbase]
    have hroom {i : ℕ} (hi : (vendorIeWalk oui m inIe inLen.toNat).inside i = true) :
        i + 1 + 4 < inLen.toNat := of_decide_eq_true hi
    have hruns : (vendorIeSearch oui m inIe inLen).Runs := by
      refine ⟨vendorIeWalk_advances m oui inIe inLen.toNat, fun i hi =>
        decide_eq_true ⟨hbase, ?_⟩⟩
      have hlt := hroom hi
      omega
    have hresult (i : ℕ) : (vendorIeSearch oui m inIe inLen).result = some i ↔
        Visits (vendorIeWalk oui m inIe inLen.toNat) 0 i ∧ cutOff i = false ∧
          isVendorIe m oui (inIe + i) = true := by
      rw [hruns.result_eq_some]
      refine and_congr_right fun _ => ?_
      simp only [vendorIeSearch, vendorIeWalk]
      cases cutOff i with
      | false => simp only [Bool.false_or, Bool.not_false, and_true, true_and]
      | true => simp only [Bool.not_true, Bool.false_eq_true, and_false, reduceCtorEq, false_and]
    constructor
    · intro h
      constructor
      · intro i hi hcut hhit
        exact h.contained i ((hresult i).mpr ⟨hi, hcut, hhit⟩)
      · intro ts hlen hlist hmatch
        obtain ⟨i, hi⟩ := Option.ne_none_iff_exists'.mp (h.complete hbase ts hlen hlist hmatch)
        obtain ⟨hvisits, hcut, hhit⟩ := (hresult i).mp hi
        obtain ⟨pre, t, post, rfl, hpos⟩ := visits_element (fun _ => rfl) (fun j hj => by
          have hlt := hroom hj
          omega) hlist hvisits
        rw [Nat.zero_add] at hpos
        subst hpos
        have hhere := holds_elements hlist
        have hlt := hroom hvisits.inside
        obtain ⟨hid, hheld⟩ := isVendorIe_iff.mp hhit
        refine ⟨pre, t, post, rfl, hcut, ?_, ?_⟩
        · rw [← holds_id hhere]
          exact hid
        · refine ((holds_tail hhere).prefix_iff ?_).mp hheld
          rw [encode_append, encode_cons, List.length_append, List.length_append,
            Element.length_bytes] at hlen
          rw [List.length_append]
          omega
    · intro h
      constructor
      · exact Searcher.search_result hruns.advances
      · intro o ho
        obtain ⟨i, hi, hread⟩ := hruns.mem_readOffsets.mp ho
        have hlt := hroom hi.inside
        have hlast : o ≤ i + 1 + 4 := by
          simp only [vendorIeSearch] at hread
          split at hread
          · rcases List.mem_singleton.mp hread with rfl
            omega
          · rcases List.mem_cons.mp hread with rfl | hread
            · omega
            · rcases List.mem_cons.mp hread with rfl | hread
              · omega
              · obtain ⟨_, _, hbound⟩ := mem_ouiOffsets.mp hread
                omega
        exact Nat.lt_of_le_of_lt hlast hlt
      · intro i hi
        obtain ⟨hvisits, hcut, hhit⟩ := (hresult i).mp hi
        exact h.whole i hvisits hcut hhit
      · rintro _ ts hlen hlist hmatch
        obtain ⟨pre, t, post, rfl, hcut, hid, houi⟩ := h.early ts hlen hlist hmatch
        have hhere := holds_elements hlist
        have hhit : isVendorIe m oui (inIe + (encode pre).length) = true :=
          isVendorIe_iff.mpr ⟨(holds_id hhere).trans hid, (holds_tail hhere).restrict houi⟩
        refine hruns.finds (fun _ => rfl) hlist (fun i hi => decide_eq_true ?_) (fun i hi => ?_) ?_
        · have hlimit : (encode (pre ++ t :: post)).length = inLen.toNat := hlen
          have hsize := houi.length_le
          rw [encode_append, encode_cons, List.length_append, List.length_append,
            Element.length_bytes] at hlimit
          rw [List.length_append] at hsize
          omega
        · exact congrArg (!·) (cutOff_mono hi hcut)
        · exact (congrArg (_ || ·) hhit).trans (Bool.or_true _)

theorem searchers_inside_iff (m : Mem) (inIe : ℕ) :
    (∀ index limit : ℤ, SearchLaw (rtwGetIeSearch m inIe index limit) m inIe (HasId index) ↔
      ∀ i, Visits (getIeWalk m inIe index limit.toNat) 0 i →
        GetIeInside m inIe index limit.toNat i) ∧
    (∀ (inLen : ℕ) (eid : UInt8) (oui : List UInt8),
      SearchLaw (rtwGetIeExSearch m inIe inLen eid oui) m inIe (HasOui eid oui) ↔
        (inIe ≠ 0 → ∀ i, Visits (getIeExWalk m inIe inLen eid oui) 0 i →
          GetIeExInside m inIe inLen eid oui i)) ∧
    (∀ inLen : ℤ, SearchLaw (rtwGetWpsIe m inIe inLen) m inIe (HasOui eidVendorSpecific wpsOui) ↔
      (inIe ≠ 0 → VendorIeInside wpsOui m inIe inLen.toNat)) ∧
    (∀ inLen : ℤ, SearchLaw (rtwGetP2pIe m inIe inLen) m inIe (HasOui eidVendorSpecific p2pOui) ↔
      (inIe ≠ 0 → VendorIeInside p2pOui m inIe inLen.toNat)) ∧
    (∀ inLen : ℤ, SearchLaw (rtwGetWfdIe m inIe inLen) m inIe (HasOui eidVendorSpecific wfdOui) ↔
      (inIe ≠ 0 → VendorIeInside wfdOui m inIe inLen.toNat)) := by
  refine ⟨fun index limit => ?_, fun inLen eid oui => ?_, fun inLen => ?_, fun inLen => ?_,
    fun inLen => ?_⟩
  · exact getIe_law_iff m inIe index limit
  · exact getIeEx_law_iff m inIe inLen eid oui
  · exact vendorIe_law_iff m inIe inLen rfl
  · exact vendorIe_law_iff m inIe inLen rfl
  · exact vendorIe_law_iff m inIe inLen rfl

def truncatedSsid : Mem := memOf [0, 4, 0x61] 0x1000

def shortVendor : Mem := memOf [221, 0] 0x1000

def truncatedVendor (oui : List UInt8) : Mem := memOf ([221, 9] ++ oui) 0x1000

theorem searchers_leave_limit :
    ¬ SearchLaw (rtwGetIeSearch truncatedSsid 0x1000 0 3) truncatedSsid 0x1000 (HasId 0) ∧
    ¬ SearchLaw (rtwGetIeExSearch shortVendor 0x1000 2 221 ouiMicrosoft) shortVendor 0x1000
      (HasOui 221 ouiMicrosoft) ∧
    ¬ SearchLaw (rtwGetWpsIe (truncatedVendor wpsOui) 0x1000 6) (truncatedVendor wpsOui) 0x1000
      (HasOui 221 wpsOui) ∧
    ¬ SearchLaw (rtwGetP2pIe (truncatedVendor p2pOui) 0x1000 6) (truncatedVendor p2pOui) 0x1000
      (HasOui 221 p2pOui) ∧
    ¬ SearchLaw (rtwGetWfdIe (truncatedVendor wfdOui) 0x1000 6) (truncatedVendor wfdOui) 0x1000
      (HasOui 221 wfdOui) := by
  refine ⟨fun h => ?_, fun h => ?_, fun h => ?_, fun h => ?_, fun h => ?_⟩
  · exact absurd (h.contained 0 (by decide)) (by decide)
  · exact absurd (h.reads 2 (by decide)) (by decide)
  · exact absurd (h.contained 0 (by decide)) (by decide)
  · exact absurd (h.contained 0 (by decide)) (by decide)
  · exact absurd (h.contained 0 (by decide)) (by decide)

end Ie
