import Rtl8188fu.Bridge.ClientFrames

namespace Bridge

open ByteMemory ByteOrder CursorWalk

namespace Frames

open Recv (MacAddr)
open Pppoe (insertRelayTag lookupRelayTag addRelay relayBytes filled addPppoeTag skbPullAndMerge
  setLength findPppoeTag store_below setLength_below setLength_above be16_setLength be16_store_above)

def isIpv6 (m : Mem UInt8) : Bool := read m 12 2 = [0x86, 0xdd]

inductive Listed (s : Skb) : ℕ → Prop
  | arpSender {i : ℕ} : isArp s.mem = true → i ∈ span 22 6 → Listed s i
  | ndOption {i j : ℕ} : isIpv6 s.mem = true → Nd.FirstOption s.mem s.len j → i ∈ span (56 + j) 6 →
    Listed s i
  | ndChecksum {i j : ℕ} : isIpv6 s.mem = true → Nd.FirstOption s.mem s.len j → i ∈ span 56 2 →
    Listed s i
  | dhcpFlag {i : ℕ} : Dhcp.Request s.mem → i ∈ span (Dhcp.flagsAt s.mem) 2 → Listed s i
  | dhcpChecksum {i : ℕ} : Dhcp.Request s.mem → i ∈ span (Dhcp.checkAt s.mem) 2 → Listed s i

inductive Answered (s : Skb) : ℕ → Prop
  | dest {i : ℕ} : i ∈ span 0 6 → Answered s i
  | arpTarget {i : ℕ} : isArp s.mem = true → i ∈ span (arpTarget s.mem) 6 → Answered s i

structure Respliced (S : Set ℕ) (s s' : Skb) (limit start removed inserted : ℕ) (T : Set ℕ) : Prop where
  header : Changes (S ∪ {i | 18 ≤ i}) s.mem s'.mem
  tags : Spliced s.mem s'.mem 20 (min limit (s.len - 20)) start removed inserted T
  len : s'.len + removed = s.len + inserted
  length : 20 ≤ s.len → s'.be16 18 = (s.be16 18 + 65536 - removed + inserted) % 65536

structure OldRelay (s : Skb) (i removed : ℕ) : Prop where
  type_eq : s.be16 (20 + i) = 0x0110
  size : removed = 4 + s.be16 (22 + i)
  inside : 20 + i + removed ≤ s.len

inductive RelayInserted (S : Set ℕ) (s s' : Skb) : Prop
  | fresh {inserted : ℕ} : Respliced S s s' (s.be16 18) 0 0 inserted ∅ → RelayInserted S s s'
  | replaced {i removed inserted : ℕ} : OldRelay s i removed →
    Respliced S s s' (s.be16 18) i removed inserted ∅ → RelayInserted S s s'

inductive RelayRemoved (s s' : Skb) : Prop
  | whole {i : ℕ} : OldRelay s i 12 → Respliced (span 0 6) s s' s.len i 12 0 ∅ → RelayRemoved s s'
  | part {i : ℕ} : s.be16 (20 + i) = 0x0110 → 8 < s.be16 (22 + i) →
    Respliced (span 0 6) s s' s.len (i + 4) 8 0 (span (22 + i) 2) →
    s'.be16 (22 + i) = s.be16 (22 + i) - 8 → RelayRemoved s s'

structure RelayRequest (p : Port) (s : Skb) : Prop where
  pppoe : isPppoe s.mem = true
  discovery : 18 ≤ s.len → read s.mem 16 2 = [0, 0]
  code : 16 ≤ s.len → Pppoe.isRequest (s.mem 15) = true
  adding : p.pppoe.addPPPoETag = true

structure RelayOffer (p : Port) (s : Skb) : Prop where
  pppoe : isPppoe s.mem = true
  code : Pppoe.isOffer (s.mem 15) = true
  adding : p.pppoe.addPPPoETag = true

inductive SentEffect (S : Set ℕ) (p : Port) (s s' : Skb) : Prop
  | rewritten : s'.len = s.len → Changes (S ∪ {i | Listed s i}) s.mem s'.mem → SentEffect S p s s'
  | relayTag : RelayRequest p s → RelayInserted S s s' → SentEffect S p s s'

inductive ReturnedEffect (p : Port) (s s' : Skb) : Prop
  | answered : s'.len = s.len → Changes {i | Answered s i} s.mem s'.mem → ReturnedEffect p s s'
  | relayTag : RelayOffer p s → RelayRemoved s s' → ReturnedEffect p s s'

section Port

variable (k : Kernel) (b : BrExt)

theorem dbNetworkInsert_macAddr (mac : MacAddr) (a : NetworkAddr) (block : Option ℕ) :
    (b.dbNetworkInsert k mac a block).macAddr = b.macAddr := by
  rw [BrExt.dbNetworkInsert]
  cases b.find k a with
  | some q => rfl
  | none =>
    dsimp only
    cases b.malloc block with
    | none => rfl
    | some q => rfl

theorem dbInsertIp_macAddr (skb : IpSkb) (block : Option ℕ) :
    (b.dbInsertIp k skb block).1.macAddr = b.macAddr := by
  rw [BrExt.dbInsertIp]
  split
  · rfl
  · split
    · rfl
    · exact dbNetworkInsert_macAddr k b _ _ _

theorem stampScdbEntry_macAddr : b.stampScdbEntry.macAddr = b.macAddr := by
  rw [BrExt.stampScdbEntry]
  cases b.scdbEntry with
  | none => rfl
  | some q => rfl

theorem scdbHit_macAddr (skb : IpSkb) : (b.scdbHit k skb).1.macAddr = b.macAddr := by
  rw [BrExt.scdbHit]
  split
  · dsimp only
    split
    · exact stampScdbEntry_macAddr _
    · rfl
  · split
    · exact stampScdbEntry_macAddr _
    · rfl

theorem learnShortcut_macAddr (h : Host) (p : Port) (s : Skb) :
    (learnShortcut h p s).1.br.macAddr = p.br.macAddr := by
  rw [learnShortcut]
  split
  · refine (scdbHit_macAddr _ _ _).trans ?_
    split
    · rfl
    · rfl
  · rfl

theorem insertAddr_macAddr (h : Host) (p : Port) (s : Skb) (a : NetworkAddr) :
    (insertAddr h p s a).br.macAddr = p.br.macAddr :=
  dbNetworkInsert_macAddr ..

end Port

section Relay

variable {s c r : Skb} {i j k n : ℕ}

structure Pushed (s r : Skb) (k : ℕ) : Prop where
  header : ∀ j < 18, r.mem j = s.mem j
  kept : ∀ j < s.be16 18, r.mem (20 + k + j) = s.mem (20 + j)
  len : r.len = s.len + k
  length : r.be16 18 = (s.be16 18 + k) % 65536

theorem add_pushed {e : Order} {tagBuf : ℕ → UInt8} (hret : ¬ (addPppoeTag e s tagBuf).ret < 0) :
    ∃ k, Pushed s (addPppoeTag e s tagBuf).skb k := by
  generalize hk : word e (tagBuf 2) (tagBuf 3) + 4 = k
  rw [addPppoeTag, hk] at hret ⊢
  split at hret
  · exact absurd (show (-1 : ℤ) < 0 by decide) hret
  · next hroom =>
    rw [if_neg hroom]
    have hsize : ((List.range k).map tagBuf).length = k := by simp
    refine ⟨k, fun j hj => ?_, fun j hj => ?_, rfl, ?_⟩
    · refine (store_below _ _ (by omega)).trans ((setLength_below _ _ hj).trans ?_)
      exact store_below _ _ (by omega)
    · have hread := @write_inside _ (20 + k) j (read s.mem 20 (s.be16 18)) s.mem (by simpa using hj)
      refine (write_above _ (by rw [hsize]; omega)).trans ((setLength_above _ _ (by omega)).trans ?_)
      exact hread.trans (getElem_read ..)
    · rw [be16_store_above _ _ (by decide), be16_setLength]
      rfl

structure Pulled (s r : Skb) (i n : ℕ) : Prop where
  inside : 20 + i + n ≤ s.len
  header : ∀ j < 18, r.mem j = s.mem j
  before : ∀ j < i, r.mem (20 + j) = s.mem (20 + j)
  after : ∀ j, i ≤ j → 20 + j + n < s.len → r.mem (20 + j) = s.mem (20 + j + n)
  len : r.len + n = s.len
  length : r.be16 18 = (s.be16 18 + 65536 - n) % 65536

theorem merge_pulled (hret : ¬ (skbPullAndMerge s (20 + i) n).ret < 0) :
    Pulled s (setLength (skbPullAndMerge s (20 + i) n).skb (s.be16 18 + 65536 - n)) i n := by
  rw [skbPullAndMerge] at hret ⊢
  split at hret
  · exact absurd (show (-1 : ℤ) < 0 by decide) hret
  · next hroom =>
    rw [if_neg hroom]
    have htail : (read s.mem (20 + i + n) (s.len - (20 + i + n))).length =
        s.len - (20 + i + n) := length_read ..
    refine ⟨by omega, fun j hj => ?_, fun j hj => ?_, fun j hj hlt => ?_, ?_, be16_setLength _ _⟩
    · exact (setLength_below _ _ hj).trans (store_below _ _ (by omega))
    · exact (setLength_above _ _ (by omega)).trans (store_below _ _ (by omega))
    · obtain ⟨d, rfl⟩ := Nat.exists_eq_add_of_le hj
      have hread := @write_inside _ (20 + i) d
        (read s.mem (20 + i + n) (s.len - (20 + i + n))) s.mem (by omega)
      refine (setLength_above _ _ (by omega)).trans ?_
      rw [← Nat.add_assoc]
      exact hread.trans ((getElem_read ..).trans (congrArg s.mem (by omega)))
    · change s.len - n + n = s.len
      omega

theorem Pushed.respliced (h : Pushed s r k) :
    Respliced ∅ s r (s.be16 18) 0 0 k ∅ := by
  refine ⟨fun j hj => ?_, ⟨fun j hj _ => ?_⟩, h.len, fun _ => ?_⟩
  · exact h.header j (Nat.lt_of_not_le fun hle => hj (.inr hle))
  · rw [if_neg (Nat.not_lt_zero j)]
    exact h.kept j (by omega)
  · rw [h.length]
    omega

theorem Pulled.respliced (hpull : Pulled s c i n) (hpush : Pushed c r k) :
    Respliced ∅ s r (s.be16 18) i n k ∅ := by
  have hlt : s.be16 18 < 65536 := word_lt ..
  have hlen := hpull.len
  have hlength := hpull.length
  refine ⟨fun j hj => ?_, ⟨fun j hj _ => ?_⟩, ?_, fun _ => ?_⟩
  · have hlow : j < 18 := Nat.lt_of_not_le fun hle => hj (.inr hle)
    exact (hpush.header j hlow).trans (hpull.header j hlow)
  · rw [hpush.kept j (by omega)]
    cases Decidable.em (j < i) with
    | inl hbefore =>
      rw [if_pos hbefore]
      exact hpull.before j hbefore
    | inr hbefore =>
      rw [if_neg hbefore, ← Nat.add_assoc]
      exact hpull.after j (Nat.not_lt.mp hbefore) (by omega)
  · rw [hpush.len]
    omega
  · rw [hpush.length, hlength]
    omega

theorem relay_type (h : findPppoeTag s = some i) : s.be16 (20 + i) = 0x0110 :=
  beq_iff_eq.mp ((Pppoe.tagWalk_advances s).find_eq_some.mp h).2

theorem merge_failed (h : (skbPullAndMerge s i n).ret < 0) : (skbPullAndMerge s i n).skb = s := by
  rw [skbPullAndMerge] at h ⊢
  split at h
  · next hroom => rw [if_pos hroom]
  · exact absurd h (Int.lt_irrefl 0)

theorem pushed_refl (s : Skb) : Pushed s s 0 :=
  ⟨fun _ _ => rfl, fun _ _ => rfl, rfl, (Nat.mod_eq_of_lt (word_lt ..)).symm⟩

theorem add_refused {e : Order} {tagBuf : ℕ → UInt8} (hret : (addPppoeTag e s tagBuf).ret < 0) :
    (addPppoeTag e s tagBuf).skb = s := by
  rw [addPppoeTag] at hret ⊢
  dsimp only at hret ⊢
  split at hret
  · next hroom => rw [if_pos hroom]
  · exact absurd hret (Int.not_lt.mpr (Int.natCast_nonneg _))

theorem relay_pushed (e : Order) (stack : ℕ → UInt8) (s : Skb) (old : List UInt8) :
    ∃ k, Pushed s (addRelay e stack s old).skb k := by
  cases Decidable.em ((addPppoeTag e s (filled stack (relayBytes (read s.mem 6 6) old))).ret < 0) with
  | inl hneg =>
    have hsame : (addRelay e stack s old).skb = s := add_refused hneg
    exact ⟨0, hsame.symm ▸ pushed_refl s⟩
  | inr hret => exact add_pushed hret

-- a tag that finds no room leaves the frame as it was, or with the old tag cut out
theorem insertRelayTag_effect (e : Order) (stack : ℕ → UInt8) (s : Skb) :
    (insertRelayTag e stack s).skb = s ∨ RelayInserted ∅ s (insertRelayTag e stack s).skb := by
  rw [insertRelayTag]
  cases hfind : findPppoeTag s with
  | none =>
    obtain ⟨k, hpush⟩ := relay_pushed e stack s []
    exact .inr (.fresh hpush.respliced)
  | some i =>
    dsimp only
    split
    · exact .inl rfl
    · split
      · next hcut => exact .inl (merge_failed hcut)
      · next hcut =>
        have hpull := merge_pulled hcut
        obtain ⟨k, hpush⟩ := relay_pushed e stack _ (read s.mem (24 + i) (s.be16 (22 + i)))
        exact .inr (.replaced ⟨relay_type hfind, rfl, hpull.inside⟩ (hpull.respliced hpush))

theorem dest_above {mac : List UInt8} (hmac : mac.length = 6) {j : ℕ} (hj : 6 ≤ j) :
    (s.store 0 mac).mem j = s.mem j := by
  have hsame : write s.mem 0 mac j = s.mem j := write_above s.mem (by omega)
  exact hsame

theorem Pulled.removed {mac : List UInt8} (hmac : mac.length = 6)
    (h : Pulled (s.store 0 mac) c i n) : Respliced (span 0 6) s c s.len i n 0 ∅ := by
  have hlen : c.len + n = s.len := h.len
  refine ⟨fun j hj => ?_, ⟨fun j hj _ => ?_⟩, by omega, fun _ => ?_⟩
  · have hlow : j < 18 := Nat.lt_of_not_le fun hle => hj (.inr hle)
    have hhigh : 6 ≤ j := Nat.le_of_not_lt fun hlt => hj (.inl ⟨Nat.zero_le _, by omega⟩)
    exact (h.header j hlow).trans (dest_above hmac hhigh)
  · have hdest (a : ℕ) : (s.store 0 mac).mem (20 + a) = s.mem (20 + a) :=
      dest_above hmac (by omega)
    cases Decidable.em (j < i) with
    | inl hbefore =>
      rw [if_pos hbefore, ← hdest]
      exact h.before j hbefore
    | inr hbefore =>
      have hafter : c.mem (20 + j) = (s.store 0 mac).mem (20 + j + n) :=
        h.after j (Nat.not_lt.mp hbefore) (by change _ < s.len; omega)
      rw [if_neg hbefore, ← hdest, ← Nat.add_assoc]
      exact hafter
  · have hsame : (s.store 0 mac).be16 18 = s.be16 18 := Pppoe.be16_store_below _ _ (by omega)
    rw [h.length, hsame]
    rfl

theorem Respliced.store {S T : Set ℕ} {limit start removed : ℕ} {bs : List UInt8}
    (h : Respliced S s c limit start removed 0 T) (ha : 20 ≤ i) :
    Respliced S s (c.store i bs) limit start removed 0 (T ∪ span i bs.length) := by
  have hwrite : Changes (span i bs.length) c.mem (c.store i bs).mem := changes_write c.mem i bs
  refine ⟨fun j hj => ?_, ⟨fun j hj hout => ?_⟩, h.len, fun hlen => ?_⟩
  · have hlow : j < 18 := Nat.lt_of_not_le fun hle => hj (.inr hle)
    exact (store_below _ _ (by omega)).trans (h.header hj)
  · exact (hwrite.eq fun hin => hout (.inr hin)).trans
      (h.tags.kept j hj fun hin => hout (.inl hin))
  · rw [be16_store_above _ _ (by omega)]
    exact h.length hlen

theorem be16_stored (c : Skb) (i n : ℕ) (hn : n < 65536) :
    (c.store i (unword .big (n - 8))).be16 i = n - 8 := by
  rw [Pppoe.be16_holds (holds_write c.mem i (unword .big (n - 8))), Pppoe.word_bytes,
    Nat.mod_eq_of_lt (by omega)]

theorem lookupRelayTag_effect (s : Skb) :
    (lookupRelayTag s).skb.len = s.len ∧ Changes (span 0 6) s.mem (lookupRelayTag s).skb.mem ∨
      RelayRemoved s (lookupRelayTag s).skb := by
  have hsame : s.len = s.len ∧ Changes (span 0 6) s.mem s.mem := ⟨rfl, Changes.refl _ _⟩
  have hmac (a : ℕ) := length_read s.mem a 6
  have hdest (a : ℕ) : Changes (span 0 6) s.mem (s.store 0 (read s.mem a 6)).mem := by
    have hwrite := changes_write s.mem 0 (read s.mem a 6)
    rwa [hmac] at hwrite
  have hlength (a : ℕ) : (s.store 0 (read s.mem a 6)).be16 18 = s.be16 18 :=
    Pppoe.be16_store_below _ _ (by rw [hmac]; decide)
  rw [lookupRelayTag]
  cases hfind : findPppoeTag s with
  | none => exact .inl hsame
  | some i =>
    dsimp only
    split
    · exact .inl hsame
    · next hlong =>
      split
      · exact .inl hsame
      · cases Decidable.em (8 < s.be16 (22 + i)) with
        | inl hpart =>
          rw [if_pos hpart, Nat.add_assoc 20]
          split
          · next hcut =>
            rw [merge_failed hcut]
            exact .inl ⟨rfl, hdest _⟩
          · next hcut =>
            have hpull := merge_pulled hcut
            rw [hlength] at hpull
            rw [if_pos (by decide)]
            generalize setLength _ _ = cut at hpull
            have hstore := @Respliced.store _ _ (22 + i) _ _ _ _ _
              (unword .big (s.be16 (22 + i) - 8)) (hpull.removed (hmac _)) (by omega)
            rw [length_unword, Set.empty_union] at hstore
            exact .inr (.part (relay_type hfind) hpart hstore (be16_stored _ _ _ (word_lt ..)))
        | inr hpart =>
          rw [if_neg hpart, Nat.add_zero]
          split
          · next hcut =>
            rw [merge_failed hcut]
            exact .inl ⟨rfl, hdest _⟩
          · next hcut =>
            have hpull := merge_pulled hcut
            rw [hlength] at hpull
            rw [if_neg (Nat.lt_irrefl 0)]
            exact .inr (.whole ⟨relay_type hfind, by omega, hpull.inside⟩ (hpull.removed (hmac _)))

end Relay

section Insert

variable {h : Host} {p : Port} {s : Skb} {r : Result} {a : ℕ}

structure Kept (p : Port) (r : Result) (effect : Skb → Prop) : Prop where
  macAddr : r.port.br.macAddr = p.br.macAddr
  effect : effect r.skb

theorem Kept.weaken {effect effect' : Skb → Prop} (hkept : Kept p r effect)
    (hsub : ∀ u, effect u → effect' u) : Kept p r effect' :=
  ⟨hkept.macAddr, hsub _ hkept.effect⟩

theorem changes_store (s : Skb) (a : ℕ) (mac : MacAddr) :
    Changes (span a 6) s.mem (s.store a mac.toList).mem := by
  have hwrite := changes_write s.mem a mac.toList
  rwa [Vector.length_toList] at hwrite

theorem handleIp_insert : Kept p (handleIp h p s .insert) (· = s) :=
  ⟨dbInsertIp_macAddr .., rfl⟩

theorem handleArp_insert :
    Kept p (handleArp h p s .insert) fun u => u.len = s.len ∧ Changes (span 22 6) s.mem u.mem := by
  rw [handleArp]
  split
  · exact ⟨rfl, rfl, Changes.refl ..⟩
  · exact ⟨insertAddr_macAddr .., rfl, changes_store ..⟩

theorem insertSession_kept : Kept p (insertSession h p s) (· = s) := by
  refine ⟨?_, rfl⟩
  rw [insertSession]
  dsimp only
  split
  · exact insertAddr_macAddr ..
  · exact insertAddr_macAddr ..

theorem insertDiscovery_cases (e : Order) (stack : ℕ → UInt8) (d : Pppoe.Discovery) (s : Skb) :
    (Pppoe.insertDiscovery e stack d s).done.skb = s ∨
      Pppoe.isRequest (s.mem 15) = true ∧ d.addPPPoETag = true ∧
        (Pppoe.insertDiscovery e stack d s).done = insertRelayTag e stack s := by
  rw [Pppoe.insertDiscovery]
  split
  · next hcode =>
    split
    · next hadd => exact .inr ⟨hcode, hadd, rfl⟩
    · split
      · exact .inl rfl
      · exact .inl rfl
  · exact .inl rfl

theorem handlePppoe_insert (hpppoe : isPppoe s.mem = true) :
    Kept p (handlePppoe h p s .insert) fun u => u = s ∨ RelayRequest p s ∧ RelayInserted ∅ s u := by
  rw [handlePppoe]
  split
  · next hsid =>
    refine ⟨rfl, ?_⟩
    cases insertDiscovery_cases h.order h.stack p.pppoe s with
    | inl hsame => exact .inl hsame
    | inr hrelay =>
      obtain ⟨hcode, hadd, hdone⟩ := hrelay
      dsimp only
      rw [hdone]
      refine (insertRelayTag_effect h.order h.stack s).imp_right fun hinserted => ?_
      exact ⟨⟨hpppoe, fun _ => hsid, fun _ => hcode, hadd⟩, hinserted⟩
  · exact insertSession_kept.weaken fun u hu => .inl hu

theorem refreshed_changes (h : Host) (m : Mem UInt8) : Changes (span 56 2) m (refreshed h m) := by
  have hfirst := changes_write m 56 [0, 0]
  refine hfirst.trans ?_
  have hsecond := changes_write (write m 56 [0, 0]) 56 (unword h.order
    (h.csum.ipv6Magic (read (write m 56 [0, 0]) 22 16) (read (write m 56 [0, 0]) 38 16)
      (word h.order (write m 56 [0, 0] 18) (write m 56 [0, 0] 19)) 58
      (h.csum.csumPartial (read (write m 56 [0, 0]) 54
        (word h.order (write m 56 [0, 0] 18) (write m 56 [0, 0] 19))))))
  rw [length_unword] at hsecond
  exact hsecond

theorem nd_updated {fuel n : ℕ} {hw : MacAddr} {m : Mem UInt8} {q : Mem UInt8 × Bool}
    (hrun : Nd.updateNdLinkLayerAddr fuel hw m n = some q) :
    q = (m, false) ∨ ∃ o i, (Nd.ndOption (m 54)).filter (fun o => o.1 ≤ n) = some o ∧
      Visits (Nd.tlvWalk m n o.2) o.1 i ∧ (Nd.tlvWalk m n o.2).found i = true ∧
        q = (write m (54 + i + 2) hw.toList, true) := by
  rw [Nd.updateNdLinkLayerAddr] at hrun
  cases hoption : Nd.ndOption (m 54) with
  | none =>
    rw [hoption] at hrun
    exact .inl (Option.some.inj hrun).symm
  | some o =>
    rw [hoption] at hrun
    dsimp only at hrun
    split at hrun
    · next hlong =>
      obtain ⟨found, hscan, hq⟩ := Option.map_eq_some_iff.mp hrun
      cases found with
      | none => exact .inl hq.symm
      | some i =>
        obtain ⟨hvisits, hfound⟩ := run_some hscan
        exact .inr ⟨o, i, by rw [Option.filter_some, if_pos (decide_eq_true hlong)], hvisits, hfound,
          hq.symm⟩
    · exact .inl (Option.some.inj hrun).symm

theorem insertIpv6_insert (hipv6 : isIpv6 s.mem = true) (hrun : insertIpv6 h p s = some r) :
    Kept p r fun u => u.len = s.len ∧ Changes {i | Listed s i} s.mem u.mem := by
  rw [insertIpv6] at hrun
  split at hrun
  · cases hrun
    exact ⟨rfl, rfl, Changes.refl ..⟩
  · next hsaddr =>
    dsimp only at hrun
    split at hrun
    · next hnd =>
      obtain ⟨q, hq, rfl⟩ := Option.map_eq_some_iff.mp hrun
      refine ⟨insertAddr_macAddr .., rfl, ?_⟩
      rcases nd_updated hq with rfl | ⟨o, i, hoption, hvisits, hfound, rfl⟩
      · exact Changes.refl ..
      · have hfirst : Nd.FirstOption s.mem s.len i :=
          ⟨o.1, o.2, by rw [Nd.scanned, if_pos ⟨hsaddr, hnd⟩]; exact hoption, hvisits, hfound⟩
        have hwrite := changes_store s (56 + i) p.br.macAddr
        have hplace : 54 + i + 2 = 56 + i := by omega
        rw [hplace]
        refine Changes.trans (hwrite.mono fun j hj => .ndOption hipv6 hfirst hj) ?_
        exact (refreshed_changes h _).mono fun j hj => .ndChecksum hipv6 hfirst hj
    · cases hrun
      exact ⟨insertAddr_macAddr .., rfl, Changes.refl ..⟩

theorem handleIpv6_insert (hipv6 : isIpv6 s.mem = true)
    (hrun : handleIpv6 h p s .insert = some r) :
    Kept p r fun u => u.len = s.len ∧ Changes {i | Listed s i} s.mem u.mem := by
  rw [handleIpv6] at hrun
  split at hrun
  · cases hrun
    exact ⟨rfl, rfl, Changes.refl ..⟩
  · exact insertIpv6_insert hipv6 hrun

theorem rewritten_of {T : Set ℕ} {u : Skb} (hu : u.len = s.len ∧ Changes T s.mem u.mem)
    (hsub : ∀ i ∈ T, Listed s i) : SentEffect ∅ p s u :=
  .rewritten hu.1 (hu.2.mono fun i hi => .inr (hsub i hi))

theorem rewritten_same {u : Skb} (hu : u = s) : SentEffect ∅ p s u := by
  subst hu
  exact .rewritten rfl (Changes.refl ..)

theorem insert_effect (hrun : nat25DbHandle h p s .insert = some r) :
    Kept p r fun u => SentEffect ∅ p s u ∧ (isIp s.mem = true → u = s) := by
  have hother {u : Skb} (hne : read s.mem 12 2 ≠ [0x08, 0x00]) : isIp s.mem = true → u = s :=
    fun hip => absurd (of_decide_eq_true hip) hne
  rw [nat25DbHandle] at hrun
  split at hrun
  · cases hrun
    exact handleIp_insert.weaken fun u hu => ⟨rewritten_same hu, fun _ => hu⟩
  · next hip =>
    split at hrun
    · next harp =>
      cases hrun
      exact handleArp_insert.weaken fun u hu =>
        ⟨rewritten_of hu fun i hi => .arpSender (decide_eq_true harp) hi, hother hip⟩
    · split at hrun
      · next hpppoe =>
        cases hrun
        refine (handlePppoe_insert hpppoe).weaken fun u hu => ⟨?_, hother hip⟩
        rcases hu with hsame | ⟨hrequest, hrelay⟩
        · exact rewritten_same hsame
        · exact .relayTag hrequest hrelay
      · split at hrun
        · cases hrun
          exact ⟨rfl, rewritten_same rfl, fun _ => rfl⟩
        · split at hrun
          · next hipv6 =>
            have hkind : isIpv6 s.mem = true := decide_eq_true hipv6
            exact (handleIpv6_insert hkind hrun).weaken fun u hu =>
              ⟨rewritten_of hu fun i hi => hi, hother hip⟩
          · cases hrun
            exact ⟨rfl, rewritten_same rfl, fun _ => rfl⟩

end Insert

section Lookup

variable {h : Host} {p : Port} {s : Skb} {r : Result} {a : ℕ} {T : Set ℕ}

structure Touches (s u : Skb) (T : Set ℕ) : Prop where
  len : u.len = s.len
  changes : Changes T s.mem u.mem

theorem touches_self (s : Skb) (T : Set ℕ) : Touches s s T := ⟨rfl, Changes.refl ..⟩

theorem touches_dest (s : Skb) (mac : MacAddr) : Touches s (s.store 0 mac.toList) (span 0 6) :=
  ⟨rfl, changes_store ..⟩

theorem lookupAddr_touches (h : Host) (p : Port) (s : Skb) (a : NetworkAddr) (ret : ℤ) :
    Touches s (lookupAddr h p s a ret).skb (span 0 6) :=
  touches_dest s _

theorem Touches.move {u : Skb} (ht : Touches s u T) (a : ℕ) :
    Touches s (u.move a 0 6) (T ∪ span a 6) := by
  have hwrite := changes_write u.mem a (read u.mem 0 6)
  rw [length_read] at hwrite
  exact ⟨ht.len, ht.changes.union hwrite⟩

theorem Touches.answered {u : Skb} (ht : Touches s u (span 0 6 ∪ T))
    (hsub : ∀ i ∈ T, Answered s i) : ReturnedEffect p s u := by
  refine .answered ht.len (ht.changes.mono ?_)
  rintro i (hdest | htarget)
  · exact .dest hdest
  · exact hsub i htarget

theorem Touches.dest {u : Skb} (ht : Touches s u (span 0 6)) : ReturnedEffect p s u :=
  .answered ht.len (ht.changes.mono fun _ hi => .dest hi)

theorem handleArp_lookup (harp : isArp s.mem = true) :
    ReturnedEffect p s (handleArp h p s .lookup).skb := by
  rw [handleArp]
  split
  · exact (touches_self s _).dest
  · exact ((lookupAddr_touches ..).move _).answered fun i hi => .arpTarget harp hi

theorem lookupDiscovery_cases (d : Pppoe.Discovery) (s : Skb) :
    Touches s (Pppoe.lookupDiscovery d s).done.skb (span 0 6) ∨
      d.addPPPoETag = true ∧ (Pppoe.lookupDiscovery d s).done = lookupRelayTag s := by
  rw [Pppoe.lookupDiscovery]
  split
  · split
    · next hadd => exact .inr ⟨hadd, rfl⟩
    · split
      · exact .inl (touches_self s _)
      · exact .inl (touches_dest s _)
  · exact .inl (touches_self s _)

theorem handlePppoe_lookup (hpppoe : isPppoe s.mem = true) :
    ReturnedEffect p s (handlePppoe h p s .lookup).skb := by
  rw [handlePppoe]
  split
  · next hcode =>
    rcases lookupDiscovery_cases p.pppoe s with ht | ⟨hadd, hdone⟩
    · exact ht.dest
    · dsimp only
      rw [hdone]
      rcases lookupRelayTag_effect s with ⟨hlen, hchanges⟩ | hremoved
      · exact Touches.dest ⟨hlen, hchanges⟩
      · exact .relayTag ⟨hpppoe, hcode, hadd⟩ hremoved
  · split
    · exact (lookupAddr_touches ..).dest
    · exact (touches_self s _).dest

theorem lookup_effect (hrun : nat25DbHandle h p s .lookup = some r) :
    ReturnedEffect p s r.skb := by
  rw [nat25DbHandle] at hrun
  split at hrun
  · cases hrun
    exact (touches_dest s _).dest
  · split at hrun
    · next harp =>
      cases hrun
      exact handleArp_lookup (decide_eq_true harp)
    · split at hrun
      · next hpppoe =>
        cases hrun
        exact handlePppoe_lookup hpppoe
      · split at hrun
        · cases hrun
          exact (touches_self s _).dest
        · split at hrun
          · rw [handleIpv6] at hrun
            split at hrun
            · cases hrun
              exact (touches_self s _).dest
            · cases hrun
              exact (lookupAddr_touches ..).dest
          · cases hrun
            exact (touches_self s _).dest

end Lookup

end Frames

end Bridge
