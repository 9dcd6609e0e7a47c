import Mathlib.Data.List.Perm.Lattice
import Rtl8188fu.Lib.Widths
import Rtl8188fu.Scan.Placement

namespace Scan

variable {κ : Type} (keys : BcnKeyFns κ)

def BorrowsSsid (env : ScanEnv) (w : WlanNetwork κ) (target : BssidEx) : Prop :=
  ¬ MlmePriv.renewsIe env w target ∧ MlmePriv.keysParsed keys target = true ∧
    isHiddenSsid (keys.fromBss target).1.ssid = true

instance (env : ScanEnv) (w : WlanNetwork κ) (target : BssidEx) :
    Decidable (BorrowsSsid keys env w target) :=
  inferInstanceAs (Decidable (_ ∧ _ ∧ _))

structure KeysFrom (heard : List BssidEx) (k : BcnKeys κ) : Prop where
  rest : ∃ f ∈ heard, MlmePriv.keysParsed keys f = true ∧ k.rest = (keys.fromBss f).1.rest
  ssid : ∃ f ∈ heard, MlmePriv.keysParsed keys f = true ∧ k.ssid = (keys.fromBss f).1.ssid

section Entries

variable {keys}

theorem KeysFrom.of_frame {heard : List BssidEx} {target : BssidEx} (hmem : target ∈ heard)
    (hparsed : MlmePriv.keysParsed keys target = true) :
    KeysFrom keys heard (keys.fromBss target).1 :=
  ⟨⟨target, hmem, hparsed, rfl⟩, ⟨target, hmem, hparsed, rfl⟩⟩

theorem KeysFrom.mono {heard later : List BssidEx} {k : BcnKeys κ} (h : KeysFrom keys heard k)
    (hsub : heard ⊆ later) : KeysFrom keys later k := by
  obtain ⟨⟨f, hf, hrest⟩, ⟨g, hg, hssid⟩⟩ := h
  exact ⟨⟨f, hsub hf, hrest⟩, ⟨g, hsub hg, hssid⟩⟩

theorem dropWrongChannel_sameKind (w : WlanNetwork κ) :
    SameKind (MlmePriv.dropWrongChannel w).network w.network := by
  cases Decidable.em (w.network.signalQuality = 101) with
  | inl h => simp only [MlmePriv.dropWrongChannel, if_pos h]; exact ⟨rfl, rfl, rfl, rfl⟩
  | inr h => simp only [MlmePriv.dropWrongChannel, if_neg h]; exact ⟨rfl, rfl, rfl, rfl⟩

theorem dropWrongChannel_bcnKeys (w : WlanNetwork κ) :
    (MlmePriv.dropWrongChannel w).bcnKeys = w.bcnKeys ∧
      (MlmePriv.dropWrongChannel w).bcnKeysValid = w.bcnKeysValid := by
  cases Decidable.em (w.network.signalQuality = 101) with
  | inl h => simp only [MlmePriv.dropWrongChannel, if_pos h, and_self]
  | inr h => simp only [MlmePriv.dropWrongChannel, if_neg h, and_self]

theorem storeTarget_network (w : WlanNetwork κ) (target : BssidEx) :
    (MlmePriv.storeTarget keys w target).network = w.network.copy target := by
  cases h : MlmePriv.isFramed target with
  | false => simp only [MlmePriv.storeTarget, h, Bool.false_eq_true, if_false]
  | true => simp only [MlmePriv.storeTarget, h, if_true]

theorem storeTarget_keys {w : WlanNetwork κ} {target : BssidEx}
    (h : (MlmePriv.storeTarget keys w target).bcnKeysValid = true) :
    MlmePriv.keysParsed keys target = true ∧
      (MlmePriv.storeTarget keys w target).bcnKeys = (keys.fromBss target).1 := by
  cases hframed : MlmePriv.isFramed target with
  | false =>
    simp only [MlmePriv.storeTarget, hframed, Bool.false_eq_true, if_false] at h
  | true =>
    simp only [MlmePriv.storeTarget, hframed, if_true, copy_fromBss] at h ⊢
    exact ⟨by rw [MlmePriv.keysParsed, hframed, h, Bool.and_self], trivial⟩

variable (keys) in
structure Stored (target : BssidEx) (w : WlanNetwork κ) : Prop where
  kind : 12 ≤ target.ieLength → SameKind w.network target
  macAddress : w.network.macAddress = target.macAddress
  keys : w.bcnKeysValid = true → KeysFrom keys [target] w.bcnKeys

theorem stored_of_storeTarget {w v : WlanNetwork κ} {target : BssidEx}
    (hnetwork : v.network = (MlmePriv.storeTarget keys w target).network)
    (hkeys : v.bcnKeys = (MlmePriv.storeTarget keys w target).bcnKeys)
    (hvalid : v.bcnKeysValid = (MlmePriv.storeTarget keys w target).bcnKeysValid) :
    Stored keys target (MlmePriv.dropWrongChannel v) := by
  have hcopy : v.network = w.network.copy target := hnetwork.trans (storeTarget_network w target)
  have hdrop := dropWrongChannel_sameKind v
  constructor
  · intro hlen
    have hkind := copy_sameKind w.network hlen
    rw [← hcopy] at hkind
    exact ⟨hdrop.macAddress.trans hkind.macAddress, hdrop.capIbss.trans hkind.capIbss,
      hdrop.capBss.trans hkind.capBss, hdrop.ssid.trans hkind.ssid⟩
  · rw [hdrop.macAddress, hcopy]
    rfl
  · intro h
    rw [(dropWrongChannel_bcnKeys v).2, hvalid] at h
    obtain ⟨hparsed, heq⟩ := storeTarget_keys h
    rw [(dropWrongChannel_bcnKeys v).1, hkeys, heq]
    exact KeysFrom.of_frame (List.mem_singleton_self target) hparsed

theorem refresh_keys {env : ScanEnv} {w : WlanNetwork κ} {target : BssidEx}
    {heard : List BssidEx} (hparsed : MlmePriv.keysParsed keys target = true)
    (hborrow : BorrowsSsid keys env w target → KeysFrom keys heard w.bcnKeys) :
    KeysFrom keys (heard ++ [target]) (MlmePriv.refresh keys env w target).keys := by
  have hframe : KeysFrom keys (heard ++ [target]) (keys.fromBss target).1 :=
    KeysFrom.of_frame (by simp) hparsed
  simp only [MlmePriv.refresh]
  cases Decidable.em (MlmePriv.renewsIe env w target) with
  | inl hrenew => rw [if_pos hrenew]; exact hframe
  | inr hrenew =>
    rw [if_neg hrenew, hparsed, if_pos rfl]
    cases hhidden : isHiddenSsid (keys.fromBss target).1.ssid with
    | false => rw [if_neg Bool.false_ne_true]; exact hframe
    | true =>
      have hold := hborrow ⟨hrenew, hparsed, hhidden⟩
      rw [if_pos rfl]
      exact ⟨hframe.rest, (hold.mono (List.subset_append_left heard [target])).ssid⟩

theorem updateNet_keys {env : ScanEnv} {w : WlanNetwork κ} {target : BssidEx}
    {heard : List BssidEx} (hold : w.bcnKeysValid = true → KeysFrom keys heard w.bcnKeys)
    (hborrow : BorrowsSsid keys env w target → w.bcnKeysValid = true)
    (h : (MlmePriv.updateNet keys env w target).bcnKeysValid = true) :
    KeysFrom keys (heard ++ [target]) (MlmePriv.updateNet keys env w target).bcnKeys := by
  simp only [MlmePriv.updateNet] at h ⊢
  cases hparsed : MlmePriv.keysParsed keys target with
  | true =>
    rw [if_pos rfl]
    exact refresh_keys hparsed fun hb => hold (hborrow hb)
  | false =>
    rw [hparsed, if_neg Bool.false_ne_true] at h
    rw [if_neg Bool.false_ne_true]
    cases hie : (MlmePriv.refresh keys env w target).updateIe with
    | true => rw [hie, if_pos rfl] at h; exact absurd h Bool.false_ne_true
    | false =>
      rw [hie, if_neg Bool.false_ne_true] at h
      exact (hold h).mono (List.subset_append_left heard [target])

theorem updateNet_macAddress {env : ScanEnv} {w : WlanNetwork κ} {target : BssidEx}
    (h : w.network.macAddress = target.macAddress) :
    (MlmePriv.updateNet keys env w target).network.macAddress = target.macAddress := by
  simp only [MlmePriv.updateNet, updateNetwork_macAddress, h, ite_self]

variable (keys) in
theorem updateNet_kind (env : ScanEnv) (w : WlanNetwork κ) {target : BssidEx}
    (hlen : 12 ≤ target.ieLength) :
    SameKind (MlmePriv.updateNet keys env w target).network
      (if (MlmePriv.refresh keys env w target).updateIe then target else w.network) := by
  simp only [MlmePriv.updateNet]
  cases (MlmePriv.refresh keys env w target).updateIe with
  | true => exact updateNetwork_sameKind hlen
  | false => exact updateNetwork_sameKind_old env w.network target

theorem updateNet_fixed (env : ScanEnv) (w : WlanNetwork κ) (target : BssidEx) :
    (MlmePriv.updateNet keys env w target).fixed = w.fixed := rfl

end Entries

structure ScanSys (κ : Type) where
  mlme : MlmePriv κ
  heard : ℕ → List BssidEx

theorem ofNat32_succ (k : ℕ) : BitVec.ofNat 32 (k + 1) = BitVec.ofNat 32 k + 1 :=
  BitVec.ofNat_add k 1

structure Slots (n : ℕ) (m : MlmePriv κ) : Prop where
  each : (m.freeBssPool ++ m.scannedQueue).Perm (List.range n)
  count : m.numOfScanned = BitVec.ofNat 32 m.scannedQueue.length

def Apart (m : MlmePriv κ) : Prop :=
  ∀ p ∈ m.scannedQueue, ∀ q ∈ m.scannedQueue, p ≠ q →
    isSameNetwork (m.nets p).network (m.nets q).network false = false

structure Entry (w : WlanNetwork κ) (heard : List BssidEx) : Prop where
  own : ∀ f ∈ heard, f.macAddress = w.network.macAddress
  keys : w.bcnKeysValid = true → KeysFrom keys heard w.bcnKeys

structure Inv (n : ℕ) (s : ScanSys κ) : Prop where
  slots : Slots n s.mlme
  apart : Apart s.mlme
  entry : ∀ p ∈ s.mlme.scannedQueue, Entry keys (s.mlme.nets p) (s.heard p)

section Slots

variable {n : ℕ} {m : MlmePriv κ}

theorem Slots.nodup (h : Slots n m) : (m.freeBssPool ++ m.scannedQueue).Nodup :=
  h.each.nodup_iff.mpr List.nodup_range

theorem Slots.exclusive (h : Slots n m) {p : ℕ} (hp : p ∈ m.scannedQueue) :
    p ∉ m.freeBssPool :=
  fun hfree => List.disjoint_of_nodup_append h.nodup hfree hp

theorem Slots.scanned_nodup (h : Slots n m) : m.scannedQueue.Nodup :=
  (List.nodup_append.mp h.nodup).2.1

theorem Slots.setNet (h : Slots n m) (p : ℕ) (w : WlanNetwork κ) : Slots n (m.setNet p w) :=
  ⟨h.each, h.count⟩

theorem Slots.drop (h : Slots n m) {p : ℕ} (hp : p ∈ m.scannedQueue) :
    Slots n (m.dropNetwork p) := by
  have hfree : m.freeBssPool.filter (· != p) = m.freeBssPool := by
    refine List.filter_eq_self.mpr fun q hq => ?_
    have hne : q ≠ p := fun heq => h.exclusive hp (heq ▸ hq)
    simpa using hne
  have hscanned : m.scannedQueue.filter (· != p) = m.scannedQueue.erase p :=
    (h.scanned_nodup.erase_eq_filter p).symm
  have hmove : (m.freeBssPool ++ [p] ++ m.scannedQueue.erase p).Perm
      (m.freeBssPool ++ m.scannedQueue) := by
    rw [List.append_assoc, List.singleton_append]
    exact (List.perm_cons_erase hp).symm.append_left m.freeBssPool
  have hlength : (m.scannedQueue.erase p).length + 1 = m.scannedQueue.length :=
    (List.perm_cons_erase hp).length_eq.symm
  constructor
  · simp only [MlmePriv.dropNetwork, hfree, hscanned]
    exact hmove.trans h.each
  · simp only [MlmePriv.dropNetwork, hscanned, h.count, ← hlength, ofNat32_succ,
      BitVec.add_sub_cancel]

theorem Slots.store (h : Slots n m) {p : ℕ} {rest : List ℕ} (hfree : m.freeBssPool = p :: rest)
    (env : ScanEnv) (target : BssidEx) : Slots n (m.store keys env p rest target) := by
  constructor
  · have hmove : (rest ++ (m.scannedQueue ++ [p])).Perm (p :: rest ++ m.scannedQueue) := by
      rw [← List.append_assoc]
      exact List.perm_append_singleton p (rest ++ m.scannedQueue)
    rw [← hfree] at hmove
    exact hmove.trans h.each
  · simp only [MlmePriv.store, h.count, List.length_append, List.length_singleton, ofNat32_succ]

end Slots

def Settled (env : ScanEnv) (m : MlmePriv κ) (target : BssidEx) (p : ℕ) : Prop :=
  ((MlmePriv.refresh keys env (m.nets p) target).updateIe = true →
    ∀ q ∈ m.scannedQueue, q ≠ p → isSameNetwork (m.nets q).network target false = false) ∧
  (BorrowsSsid keys env (m.nets p) target → (m.nets p).bcnKeysValid = true)

instance (env : ScanEnv) (m : MlmePriv κ) (target : BssidEx) (p : ℕ) :
    Decidable (Settled keys env m target p) :=
  inferInstanceAs (Decidable ((_ → _) ∧ (_ → _)))

section Steps

variable {keys} {n : ℕ} {s : ScanSys κ}

theorem Inv.drop (h : Inv keys n s) {p : ℕ} (hp : p ∈ s.mlme.scannedQueue) :
    Inv keys n { s with mlme := s.mlme.dropNetwork p } := by
  have hstays {q : ℕ} (hq : q ∈ (s.mlme.dropNetwork p).scannedQueue) :
      q ∈ s.mlme.scannedQueue := List.mem_of_mem_filter hq
  constructor
  · exact h.slots.drop hp
  · exact fun q hq r hr => h.apart q (hstays hq) r (hstays hr)
  · exact fun q hq => h.entry q (hstays hq)

theorem Inv.setFixed (h : Inv keys n s) (p : ℕ) (b : Bool) :
    Inv keys n { s with mlme := s.mlme.setNet p { s.mlme.nets p with fixed := b } } := by
  have hnet (q : ℕ) : (Function.update s.mlme.nets p { s.mlme.nets p with fixed := b } q).network =
      (s.mlme.nets q).network := by
    cases Decidable.eq_or_ne q p with
    | inl heq => rw [heq, Function.update_self]
    | inr hne => rw [Function.update_of_ne hne]
  constructor
  · exact h.slots.setNet p _
  · intro q hq r hr hne
    simp only [MlmePriv.setNet, hnet]
    exact h.apart q hq r hr hne
  · intro q hq
    have hentry := h.entry q hq
    simp only [MlmePriv.setNet]
    cases Decidable.eq_or_ne q p with
    | inl heq =>
      subst heq
      rw [Function.update_self]
      exact ⟨hentry.own, hentry.keys⟩
    | inr hne =>
      rw [Function.update_of_ne hne]
      exact hentry

theorem apart_update {m : MlmePriv κ} {queue : List ℕ} {p : ℕ} {w : WlanNetwork κ}
    (hold : ∀ q ∈ queue, ∀ r ∈ queue, q ≠ p → r ≠ p → q ≠ r →
      isSameNetwork (m.nets q).network (m.nets r).network false = false)
    (hnew : ∀ q ∈ queue, q ≠ p →
      isSameNetwork (m.nets q).network w.network false = false) :
    Apart { m with scannedQueue := queue, nets := Function.update m.nets p w } := by
  intro q hq r hr hne
  change isSameNetwork (Function.update m.nets p w q).network
    (Function.update m.nets p w r).network false = false
  cases Decidable.eq_or_ne q p with
  | inl hqp =>
    have hrp : r ≠ p := fun hrp => hne (hqp.trans hrp.symm)
    rw [hqp, Function.update_self, Function.update_of_ne hrp, isSameNetwork_comm]
    exact hnew r hr hrp
  | inr hqp =>
    rw [Function.update_of_ne hqp]
    cases Decidable.eq_or_ne r p with
    | inl hrp => rw [hrp, Function.update_self]; exact hnew q hq hqp
    | inr hrp => rw [Function.update_of_ne hrp]; exact hold q hq r hr hqp hrp hne

theorem entry_update {s : ScanSys κ} {queue : List ℕ} {p : ℕ} {w : WlanNetwork κ}
    {fs : List BssidEx} (hold : ∀ q ∈ queue, q ≠ p → Entry keys (s.mlme.nets q) (s.heard q))
    (hnew : Entry keys w fs) : ∀ q ∈ queue,
      Entry keys (Function.update s.mlme.nets p w q) (Function.update s.heard p fs q) := by
  intro q hq
  cases Decidable.eq_or_ne q p with
  | inl heq => rw [heq, Function.update_self, Function.update_self]; exact hnew
  | inr hne =>
    rw [Function.update_of_ne hne, Function.update_of_ne hne]
    exact hold q hq hne

theorem Inv.setNet (h : Inv keys n s) {p : ℕ} {w : WlanNetwork κ} {fs : List BssidEx}
    (happart : ∀ q ∈ s.mlme.scannedQueue, q ≠ p →
      isSameNetwork (s.mlme.nets q).network w.network false = false)
    (hentry : Entry keys w fs) :
    Inv keys n ⟨s.mlme.setNet p w, Function.update s.heard p fs⟩ := by
  constructor
  · exact h.slots.setNet p w
  · exact apart_update (fun q hq r hr _ _ => h.apart q hq r hr) happart
  · exact entry_update (fun q hq _ => h.entry q hq) hentry

theorem Stored.entry {target : BssidEx} {w : WlanNetwork κ}
    (h : Stored keys target w) : Entry keys w [target] := by
  constructor
  · intro f hf
    rw [List.mem_singleton.mp hf, h.macAddress]
  · exact h.keys

theorem Stored.apart {target : BssidEx} {w : WlanNetwork κ} (h : Stored keys target w)
    (hlen : 12 ≤ target.ieLength) {b : BssidEx} (hb : isSameNetwork b target false = false) :
    isSameNetwork b w.network false = false := by
  rw [isSameNetwork_comm] at hb ⊢
  rw [isSameNetwork_congr (h.kind hlen)]
  exact hb

theorem Inv.replaced (h : Inv keys n s) {env : ScanEnv} {target : BssidEx} {p : ℕ}
    (hlen : 12 ≤ target.ieLength) (hevict : s.mlme.Evictable env target p) :
    Inv keys n ⟨s.mlme.setNet p (MlmePriv.replaceNet keys env (s.mlme.nets p) target),
      Function.update s.heard p [target]⟩ := by
  have hstored : Stored keys target
      (MlmePriv.replaceNet keys env (s.mlme.nets p) target) :=
    stored_of_storeTarget rfl rfl rfl
  refine h.setNet (fun q hq _ => ?_) hstored.entry
  exact hstored.apart hlen (MlmePriv.matchesTarget_false (hevict.unmatched q hq))

theorem Inv.taken (h : Inv keys n s) {env : ScanEnv} {target : BssidEx} {p : ℕ} {rest : List ℕ}
    (hlen : 12 ≤ target.ieLength) (hunmatched : s.mlme.Unmatched env target)
    (hfree : s.mlme.freeBssPool = p :: rest) :
    Inv keys n ⟨s.mlme.store keys env p rest target, Function.update s.heard p [target]⟩ := by
  have hstored : Stored keys target (MlmePriv.dropWrongChannel
      (MlmePriv.storeTarget keys { s.mlme.nets p with
        fixed := false, lastScanned := env.now, lastNonHiddenSsidAp := env.now } target)) :=
    stored_of_storeTarget rfl rfl rfl
  have hother {q : ℕ} (hq : q ∈ s.mlme.scannedQueue ++ [p]) (hne : q ≠ p) :
      q ∈ s.mlme.scannedQueue := by
    rcases List.mem_append.mp hq with hq | hq
    · exact hq
    · exact absurd (List.mem_singleton.mp hq) hne
  constructor
  · exact h.slots.store keys hfree env target
  · refine apart_update (fun q hq r hr hqp hrp => h.apart q (hother hq hqp) r (hother hr hrp)) ?_
    intro q hq hne
    exact hstored.apart hlen (MlmePriv.matchesTarget_false (hunmatched q (hother hq hne)))
  · exact entry_update (fun q hq hne => h.entry q (hother hq hne)) hstored.entry

theorem Inv.refreshed (h : Inv keys n s) {env : ScanEnv} {target : BssidEx} {p : ℕ}
    (hlen : 12 ≤ target.ieLength) (hp : p ∈ s.mlme.scannedQueue)
    (hmatch : MlmePriv.matchesTarget env.p2p (s.mlme.nets p).network target = true)
    (hsettled : Settled keys env s.mlme target p) :
    Inv keys n ⟨s.mlme.setNet p (MlmePriv.updateNet keys env (s.mlme.nets p) target),
      Function.update s.heard p (s.heard p ++ [target])⟩ := by
  have hmac := MlmePriv.matchesTarget_macAddress hmatch
  have hkind := updateNet_kind keys env (s.mlme.nets p) hlen
  have hentry := h.entry p hp
  refine h.setNet (fun q hq hne => ?_) ⟨fun f hf => ?_, updateNet_keys hentry.keys hsettled.2⟩
  · rw [isSameNetwork_comm, isSameNetwork_congr hkind, isSameNetwork_comm]
    cases hie : (MlmePriv.refresh keys env (s.mlme.nets p) target).updateIe with
    | true => exact hsettled.1 hie q hq hne
    | false => exact h.apart q hq p hp hne
  · rw [updateNet_macAddress hmac]
    rcases List.mem_append.mp hf with hf | hf
    · exact (hentry.own f hf).trans hmac
    · rw [List.mem_singleton.mp hf]

end Steps

end Scan
