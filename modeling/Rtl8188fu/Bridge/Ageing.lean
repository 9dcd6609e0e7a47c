import Mathlib.Order.Fin.Basic
import Rtl8188fu.Bridge.DatabaseInvariant

namespace Bridge

open HashChains
open Recv (MacAddr isMcast)

namespace BrExt

theorem elapsed_before {w a t c n : ℕ} (h : c + n = a + t) (hn : 0 < n) (hn' : n < 2 ^ (w - 1)) :
    (BitVec.ofNat w c - BitVec.ofNat w a - BitVec.ofNat w t).msb = true := by
  have hsum : BitVec.ofNat w c + BitVec.ofNat w n = BitVec.ofNat w a + BitVec.ofNat w t := by
    rw [← BitVec.ofNat_add, ← BitVec.ofNat_add, h]
  have hneg : BitVec.ofNat w c - BitVec.ofNat w a - BitVec.ofNat w t = -BitVec.ofNat w n := by
    grind
  have hdouble : 2 ^ w = 2 * 2 ^ (w - 1) := by
    cases w with
    | zero => exact absurd hn' (by simp; omega)
    | succ w => rw [Nat.pow_succ, Nat.mul_comm, Nat.add_sub_cancel]
  rw [hneg, BitVec.msb_eq_decide, decide_eq_true_iff, BitVec.toNat_neg, BitVec.toNat_ofNat,
    Nat.mod_eq_of_lt (a := n) (by omega), Nat.mod_eq_of_lt (by omega)]
  omega

theorem elapsed_after {w a t c n : ℕ} (h : c = a + t + n) (hn' : n < 2 ^ (w - 1)) :
    (BitVec.ofNat w c - BitVec.ofNat w a - BitVec.ofNat w t).msb = false := by
  have hsum : BitVec.ofNat w c = BitVec.ofNat w a + BitVec.ofNat w t + BitVec.ofNat w n := by
    rw [← BitVec.ofNat_add, ← BitVec.ofNat_add, h]
  have hpos : BitVec.ofNat w c - BitVec.ofNat w a - BitVec.ofNat w t = BitVec.ofNat w n := by
    grind
  have hw : 2 ^ (w - 1) ≤ 2 ^ w := Nat.pow_le_pow_right (by omega) (Nat.sub_le ..)
  rw [hpos, BitVec.msb_eq_decide, decide_eq_false_iff_not, BitVec.toNat_ofNat,
    Nat.mod_eq_of_lt (by omega)]
  omega
theorem hasExpired_of_fresh {k : Kernel} {s : BrExt} {e : NetworkDbEntry} (hle : e.stamp ≤ s.clock)
    (hfresh : s.clock < e.stamp + 300 * k.hz) : s.hasExpired k e = false := by
  have hfits := k.ageing_lt
  have hneg := elapsed_before (w := k.longBits) (a := 300 * k.hz) (t := e.stamp) (c := s.clock)
    (n := 300 * k.hz + e.stamp - s.clock) (by omega) (by omega) (by omega)
  rw [hasExpired, timeBeforeEq, timeout, jiffies, NetworkDbEntry.ageingTimer, hneg]
  rfl

theorem hasExpired_of_old {k : Kernel} {s : BrExt} {e : NetworkDbEntry}
    (hold : e.stamp + 300 * k.hz ≤ s.clock)
    (hrange : s.clock < e.stamp + 300 * k.hz + 2 ^ (k.longBits - 1)) :
    s.hasExpired k e = true := by
  have hpos := elapsed_after (w := k.longBits) (a := 300 * k.hz) (t := e.stamp) (c := s.clock)
    (n := s.clock - e.stamp - 300 * k.hz) (by omega) (by omega)
  rw [hasExpired, timeBeforeEq, timeout, jiffies, NetworkDbEntry.ageingTimer, hpos]
  rfl

def agedUse (k : Kernel) (s : BrExt) (x : ℕ × NetworkDbEntry) : Option NetworkDbEntry :=
  if s.hasExpired k x.2 then
    if x.2.useCount - 1 = 0 then none else some { x.2 with useCount := x.2.useCount - 1 }
  else some x.2

theorem agedUse_row {k : Kernel} {s : BrExt} {p : ℕ} {e e' : NetworkDbEntry}
    (h : s.agedUse k (p, e) = some e') :
    e'.networkAddr = e.networkAddr ∧ e'.macAddr = e.macAddr ∧ e'.stamp = e.stamp := by
  unfold agedUse at h
  split at h
  · split at h
    · cases h
    · cases h
      exact ⟨rfl, rfl, rfl⟩
  · cases h
    exact ⟨rfl, rfl, rfl⟩

def SweptFrom (s t : BrExt) : Prop :=
  ∃ c, t = { s with nethash := c } ∨
    t = { s.clearScdb with nethash := c, scdbEntry := none }

namespace SweptFrom

variable {s t u : BrExt}

theorem refl (s : BrExt) : SweptFrom s s := ⟨s.nethash, .inl rfl⟩

theorem trans (h : SweptFrom s t) (h' : SweptFrom t u) : SweptFrom s u := by
  obtain ⟨c, rfl | rfl⟩ := h
  · obtain ⟨c', rfl | rfl⟩ := h'
    · exact ⟨c', .inl rfl⟩
    · exact ⟨c', .inr rfl⟩
  · obtain ⟨c', rfl | rfl⟩ := h'
    · exact ⟨c', .inr rfl⟩
    · exact ⟨c', .inr rfl⟩

theorem clock_eq (h : SweptFrom s t) : t.clock = s.clock := by
  obtain ⟨c, rfl | rfl⟩ := h <;> rfl

theorem heapTop_eq (h : SweptFrom s t) : t.heapTop = s.heapTop := by
  obtain ⟨c, rfl | rfl⟩ := h <;> rfl

theorem agedUse_eq (h : SweptFrom s t) (k : Kernel) : t.agedUse k = s.agedUse k := by
  obtain ⟨c, rfl | rfl⟩ := h <;> rfl

end SweptFrom

theorem dropEntry_swept (s : BrExt) (p : ℕ) : SweptFrom s (s.dropEntry p) := by
  rw [dropEntry]
  split
  · exact ⟨_, .inr rfl⟩
  · exact ⟨_, .inl rfl⟩

theorem dropEntry_keeps {k : Kernel} {s : BrExt} {view : View} (h : s.Keeps k view) {b : Fin 16}
    {p : ℕ} {v : NetworkDbEntry} {xs ys : List (ℕ × NetworkDbEntry)}
    (hview : view b = xs ++ (p, v) :: ys) :
    (s.dropEntry p).Keeps k (Function.update view b (xs ++ ys)) := by
  rw [dropEntry]
  split
  · exact h.cut hview fun q hq => nomatch hq
  · next hne => exact h.cut hview fun q hq => ⟨hq, fun heq => hne (heq ▸ hq)⟩

theorem expireEntry_swept (k : Kernel) (s : BrExt) (p : ℕ) : SweptFrom s (s.expireEntry k p) := by
  rw [expireEntry]
  split
  · exact SweptFrom.refl s
  · split
    · dsimp only
      split
      · exact SweptFrom.trans ⟨_, .inl rfl⟩ (dropEntry_swept _ p)
      · exact ⟨_, .inl rfl⟩
    · exact SweptFrom.refl s

theorem expireEntry_keeps {k : Kernel} {s : BrExt} {view : View} (h : s.Keeps k view) {b : Fin 16}
    {p : ℕ} {v : NetworkDbEntry} {xs ys : List (ℕ × NetworkDbEntry)}
    (hview : view b = xs ++ (p, v) :: ys) :
    (s.expireEntry k p).Keeps k
      (Function.update view b (xs ++ kept (s.agedUse k) [(p, v)] ++ ys)) := by
  have hmem : (p, v) ∈ view b := by
    rw [hview]
    exact List.mem_append_right _ List.mem_cons_self
  obtain ⟨e, he, rfl⟩ := h.represents.cell_of_mem hmem
  rw [expireEntry]
  rw [he]
  dsimp only
  cases hexp : s.hasExpired k e.val with
  | false =>
    have hkept : kept (s.agedUse k) [(p, e.val)] = [(p, e.val)] := by
      simp [kept, agedUse, hexp]
    rw [hkept, List.append_assoc, List.singleton_append, ← hview, Function.update_eq_self]
    exact h
  | true =>
    have hreplace := h.replace hview (fun e => { e with useCount := e.useCount - 1 }) rfl
    rw [if_pos rfl]
    cases Decidable.em (e.val.useCount - 1 = 0) with
    | inl hzero =>
      have hkept : kept (s.agedUse k) [(p, e.val)] = [] := by
        simp [kept, agedUse, hexp, hzero]
      rw [if_pos hzero, hkept, List.append_nil]
      have hdrop := dropEntry_keeps (s := { s with
        nethash := s.nethash.setVal p fun e => { e with useCount := e.useCount - 1 } })
        hreplace (Function.update_self ..)
      rwa [Function.update_idem] at hdrop
    | inr hzero =>
      have hkept : kept (s.agedUse k) [(p, e.val)] =
          [(p, { e.val with useCount := e.val.useCount - 1 })] := by
        simp [kept, agedUse, hexp, hzero]
      rw [if_neg hzero, hkept, List.append_assoc]
      exact hreplace

theorem finRange_kept (keep : ℕ × NetworkDbEntry → Option NetworkDbEntry) (view : View) :
    (fun b => if b ∈ List.finRange 16 then kept keep (view b) else view b) =
      fun b => kept keep (view b) :=
  funext fun b => if_pos (List.mem_finRange b)

theorem nat25DbExpire_keeps {k : Kernel} {s : BrExt} {view : View} (h : s.Keeps k view) :
    (s.nat25DbExpire k).Keeps k (fun b => kept (s.agedUse k) (view b)) ∧
      SweptFrom s (s.nat25DbExpire k) := by
  have hsweep := @HashChains.sweep_kept _ _ _ _ nethash (expireEntry k) _
    (fun t view => t.Keeps k view ∧ SweptFrom s t) (s.agedUse k) (fun _ _ ht => ht.1.represents)
    (fun t view b p v pre post ht hview => ?_) s.heapTop (fun t view b ht => ?_) s view
    ⟨h, SweptFrom.refl s⟩ _ (List.nodup_finRange 16)
  · rwa [finRange_kept] at hsweep
  · rw [← ht.2.agedUse_eq k]
    exact ⟨expireEntry_keeps ht.1 hview, ht.2.trans (expireEntry_swept k t p)⟩
  · have hle := ht.1.length_le b
    rwa [ht.2.heapTop_eq] at hle

theorem nat25DbCleanup_keeps {k : Kernel} {s : BrExt} {view : View} (h : s.Keeps k view) :
    s.nat25DbCleanup.Keeps k (fun b => kept (fun _ => none) (view b)) ∧
      SweptFrom s s.nat25DbCleanup := by
  have hsweep := @HashChains.sweep_kept _ _ _ _ nethash dropEntry _ (fun t view => t.Keeps k view ∧
    SweptFrom s t) (fun _ => none) (fun _ _ ht => ht.1.represents) (fun t view b p v pre post ht
    hview => ?_) s.heapTop (fun t view b ht => ?_) s view ⟨h, SweptFrom.refl s⟩ _
    (List.nodup_finRange 16)
  · rwa [finRange_kept] at hsweep
  · have hdrop := dropEntry_keeps ht.1 hview
    rw [show kept (fun _ => none) [(p, v)] = [] from rfl, List.append_nil]
    exact ⟨hdrop, ht.2.trans (dropEntry_swept t p)⟩
  · have hle := ht.1.length_le b
    rwa [ht.2.heapTop_eq] at hle

structure Inserted (s : BrExt) (view : View) (macAddr : MacAddr) (a : NetworkAddr)
    (view' : View) : Prop where
  other : ∀ q u, u.networkAddr ≠ a → (Stored view' q u ↔ Stored view q u)
  own : ∀ q u, Stored view' q u → u.networkAddr = a → u.macAddr = macAddr ∧ u.stamp = s.clock

theorem dbNetworkInsert_keeps {k : Kernel} {s : BrExt} {view : View} (h : s.Keeps k view)
    (macAddr : MacAddr) (a : NetworkAddr) (block : Option ℕ) :
    ∃ view', (s.dbNetworkInsert k macAddr a block).Keeps k view' ∧
      Inserted s view macAddr a view' ∧ (s.find k a ≠ none ∨ s.malloc block ≠ none →
        ∃ q u, Stored view' q u ∧ u.networkAddr = a) := by
  have hstep := dbNetworkInsert_step h macAddr a block
  generalize s.dbNetworkInsert k macAddr a block = t at hstep ⊢
  cases hstep with
  | update p e he haddr =>
    obtain ⟨view', hkeeps, hstored⟩ :=
      h.replace_stored he (fun e => { e with macAddr := macAddr, stamp := s.clock }) rfl
    refine ⟨view', hkeeps, ⟨fun q u hne => ?_, fun q u hu hua => ?_⟩, fun _ => ?_⟩
    · rw [hstored]
      constructor
      · rintro (⟨-, rfl⟩ | ⟨-, hu⟩)
        · exact absurd haddr hne
        · exact hu
      · refine fun hu => .inr ⟨fun hq => hne ?_, hu⟩
        subst hq
        rw [h.represents.stored_unique hu he]
        exact haddr
    · rcases (hstored q u).mp hu with ⟨-, rfl⟩ | ⟨hq, hu⟩
      · exact ⟨rfl, rfl⟩
      · exact absurd (h.stored_addr_unique hu he (hua.trans haddr.symm)).1 hq
    · exact ⟨p, _, (hstored p _).mpr (.inl ⟨rfl, rfl⟩), haddr⟩
  | noMemory hfind hmalloc =>
    refine ⟨view, h, ⟨fun _ _ _ => Iff.rfl, fun q u hu hua => ?_⟩, fun hmem => ?_⟩
    · exact absurd hua (find_none h hfind hu)
    · rcases hmem with hmem | hmem
      · exact absurd hfind hmem
      · exact absurd hmalloc hmem
  | create p hfind hmalloc =>
    obtain ⟨-, hcell⟩ := malloc_some hmalloc
    refine ⟨_, h.link hcell (e := ⟨1, macAddr, s.clock, a⟩) fun q f hf => find_none h hfind hf,
      ⟨fun q u hne => ?_, fun q u hu hua => ?_⟩, fun _ => ?_⟩
    · rw [stored_link]
      refine ⟨?_, .inr⟩
      rintro (⟨-, rfl⟩ | hu)
      · exact absurd rfl hne
      · exact hu
    · rcases (stored_link q u).mp hu with ⟨-, rfl⟩ | hu
      · exact ⟨rfl, rfl⟩
      · exact absurd hua (find_none h hfind hu)
    · exact ⟨p, _, (stored_link p _).mpr (.inl ⟨rfl, rfl⟩), rfl⟩

def Row (view : View) (p : ℕ) (a : NetworkAddr) (macAddr : MacAddr) (stamp : ℕ) : Prop :=
  ∃ e, Stored view p e ∧ e.networkAddr = a ∧ e.macAddr = macAddr ∧ e.stamp = stamp

theorem lookup_keeps {k : Kernel} {s : BrExt} {view : View} (h : s.Keeps k view) (dest : MacAddr)
    (a : NetworkAddr) : ∃ c view', (s.dbNetworkLookupAndReplace k dest a).port =
      { s with nethash := c } ∧ (s.dbNetworkLookupAndReplace k dest a).port.Keeps k view' ∧
      Row view' = Row view := by
  have hstep := dbNetworkLookupAndReplace_step h dest a
  generalize s.dbNetworkLookupAndReplace k dest a = r at hstep ⊢
  cases hstep with
  | absent => exact ⟨s.nethash, view, rfl, h, rfl⟩
  | expired => exact ⟨s.nethash, view, rfl, h, rfl⟩
  | used p e he haddr hexp =>
    obtain ⟨view', hkeeps, hstored⟩ :=
      h.replace_stored he (fun e => { e with useCount := e.useCount + 1 }) rfl
    refine ⟨_, view', rfl, hkeeps, ?_⟩
    funext q a' m t
    refine propext ⟨?_, ?_⟩
    · rintro ⟨u, hu, hrow⟩
      rcases (hstored q u).mp hu with ⟨rfl, rfl⟩ | ⟨-, hu⟩
      · exact ⟨e, he, hrow⟩
      · exact ⟨u, hu, hrow⟩
    · rintro ⟨u, hu, hrow⟩
      cases Decidable.em (q = p) with
      | inl hq =>
        subst hq
        rw [h.represents.stored_unique hu he] at hrow
        exact ⟨_, (hstored q _).mpr (.inl ⟨rfl, rfl⟩), hrow⟩
      | inr hq => exact ⟨u, (hstored q u).mpr (.inr ⟨hq, hu⟩), hrow⟩

theorem stampScdbEntry_none {s : BrExt} (h : s.scdbEntry = none) : s.stampScdbEntry = s := by
  rw [stampScdbEntry, h]

theorem stampScdbEntry_some {s : BrExt} {p : ℕ} (h : s.scdbEntry = some p) : s.stampScdbEntry =
    { s with nethash := s.nethash.setVal p fun e => { e with stamp := s.clock } } := by
  rw [stampScdbEntry, h]

theorem stampScdbEntry_keeps {k : Kernel} {s : BrExt} {view : View} (h : s.Keeps k view) :
    ∃ c view', s.stampScdbEntry = { s with nethash := c } ∧ s.stampScdbEntry.Keeps k view' ∧
      ∀ q a m t, Row view' q a m t ↔
        s.scdbEntry = some q ∧ t = s.clock ∧ (∃ t₀, Row view q a m t₀) ∨
          s.scdbEntry ≠ some q ∧ Row view q a m t := by
  rcases Option.eq_none_or_eq_some s.scdbEntry with hentry | ⟨p, hentry⟩
  · rw [stampScdbEntry_none hentry]
    exact ⟨s.nethash, view, rfl, h, fun q a m t => by simp [hentry]⟩
  · rw [stampScdbEntry_some hentry]
    obtain ⟨e, he⟩ := h.stored_pointer hentry
    obtain ⟨view', hkeeps, hstored⟩ := h.replace_stored he (fun e => { e with stamp := s.clock }) rfl
    refine ⟨_, view', rfl, hkeeps, fun q a m t => ⟨?_, ?_⟩⟩
    · rintro ⟨u, hu, hrow⟩
      rcases (hstored q u).mp hu with ⟨rfl, rfl⟩ | ⟨hq, hu⟩
      · obtain ⟨ha, hm, ht⟩ := hrow
        exact .inl ⟨hentry, ht.symm, e.stamp, e, he, ha, hm, rfl⟩
      · exact .inr ⟨fun heq => hq (Option.some.inj (hentry.symm.trans heq)).symm, u, hu, hrow⟩
    · rintro (⟨heq, rfl, t₀, u, hu, ha, hm, -⟩ | ⟨hq, u, hu, hrow⟩)
      · cases hentry.symm.trans heq
        rw [h.represents.stored_unique hu he] at ha hm
        exact ⟨_, (hstored p _).mpr (.inl ⟨rfl, rfl⟩), ha, hm, rfl⟩
      · exact ⟨u, (hstored q u).mpr (.inr ⟨fun heq => hq (heq ▸ hentry), hu⟩), hrow⟩

theorem nat25DbExpire_rows {k : Kernel} {s : BrExt} {view : View} (q : ℕ) (a : NetworkAddr)
    (m : MacAddr) (t : ℕ) :
    (Row (fun b => kept (s.agedUse k) (view b)) q a m t → Row view q a m t) ∧
      (Row view q a m t → t ≤ s.clock → s.clock < t + 300 * k.hz →
        Row (fun b => kept (s.agedUse k) (view b)) q a m t) := by
  constructor
  · rintro ⟨u, hu, rfl, rfl, rfl⟩
    obtain ⟨e, he, haged⟩ := (stored_kept (s.agedUse k) view q u).mp hu
    obtain ⟨ha, hm, ht⟩ := agedUse_row haged
    exact ⟨e, he, ha.symm, hm.symm, ht.symm⟩
  · rintro ⟨u, hu, rfl, rfl, rfl⟩ hle hfresh
    refine ⟨u, (stored_kept (s.agedUse k) view q u).mpr ⟨u, hu, ?_⟩, rfl, rfl, rfl⟩
    rw [agedUse]
    rw [hasExpired_of_fresh hle hfresh]
    exact if_neg Bool.false_ne_true

end BrExt

end Bridge
