import Rtl8188fu.Bridge.DatabaseRuns
import Rtl8188fu.Bridge.FrameEffects

namespace Bridge

open ByteMemory ByteOrder CursorWalk

namespace Frames

open Recv (MacAddr)

variable {h : Host} {p : Port} {s t u : Skb} {r : Result} {S : Set ℕ} {i j : ℕ}

-- the frames nat25_db_handle(NAT25_CHECK) asks to copy first
def copied (s : Skb) : Bool :=
  isArp s.mem && read s.mem 16 2 == [0x08, 0x00] || isPppoe s.mem && read s.mem 16 2 == [0, 0] ||
    isIpv6 s.mem && !(14 ≤ s.len && s.len ≤ 54) && Recv.isMcast (macAt s.mem 0)

theorem copied_isIp (hcopied : copied s = true) : isIp s.mem = false := by
  cases hip : isIp s.mem with
  | false => rfl
  | true =>
    rw [isIp, decide_eq_true_eq] at hip
    simp [copied, isArp, isPppoe, isIpv6, hip] at hcopied

theorem check_same (hrun : nat25DbHandle h p s .check = some r) :
    r.port = p ∧ r.skb = s ∧ (r.ret = 0 ↔ copied s = true) := by
  rw [nat25DbHandle] at hrun
  split at hrun
  · next hip =>
    cases hrun
    refine ⟨rfl, rfl, ?_⟩
    simp [handleIp, copied, isArp, isPppoe, isIpv6, hip]
  · split at hrun
    · next harp =>
      cases hrun
      rw [handleArp]
      split
      · next hpro => exact ⟨rfl, rfl, by simp [copied, isArp, isPppoe, isIpv6, harp, hpro]⟩
      · next hpro =>
        refine ⟨rfl, rfl, ?_⟩
        simp [copied, isArp, harp, not_not.mp hpro]
    · next harp =>
      split at hrun
      · next hpppoe =>
        cases hrun
        refine ⟨rfl, rfl, ?_⟩
        have hipv6 : isIpv6 s.mem = false := by
          rcases of_decide_eq_true hpppoe with htype | htype
          · simp [isIpv6, htype]
          · simp [isIpv6, htype]
        rw [handlePppoe]
        split
        · next hsid => simp [copied, hpppoe, hsid]
        · next hsid => simp [copied, isArp, harp, hipv6, hsid]
      · next hpppoe =>
        split at hrun
        · next hpass =>
          cases hrun
          refine ⟨rfl, rfl, ?_⟩
          have hipv6 : isIpv6 s.mem = false := by
            rcases of_decide_eq_true hpass with htype | htype | htype
            · simp [isIpv6, htype]
            · simp [isIpv6, htype]
            · simp [isIpv6, htype]
          simp [passThrough, copied, isArp, harp, hpppoe, hipv6]
        · split at hrun
          · next hipv6 =>
            rw [handleIpv6] at hrun
            split at hrun
            · next hshort =>
              cases hrun
              exact ⟨rfl, rfl, by simp [copied, isArp, harp, hpppoe, hshort]⟩
            · next hlong =>
              cases hrun
              refine ⟨rfl, rfl, ?_⟩
              cases hmcast : Recv.isMcast (macAt s.mem 0) with
              | true => simp [copied, isIpv6, hipv6, hmcast]; omega
              | false => simp [copied, isArp, harp, hpppoe, hmcast]
          · next hipv6 =>
            cases hrun
            exact ⟨rfl, rfl, by simp [copied, isArp, isIpv6, harp, hpppoe, hipv6]⟩

theorem Listed.ge (hi : Listed s i) : 18 ≤ i := by
  cases hi with
  | arpSender _ hin => exact Nat.le_trans (by decide) hin.1
  | ndOption _ _ hin => exact Nat.le_trans (by omega) hin.1
  | ndChecksum _ _ hin => exact Nat.le_trans (by decide) hin.1
  | dhcpFlag _ hin => exact Nat.le_trans (by rw [Dhcp.flagsAt, Dhcp.udph]; omega) hin.1
  | dhcpChecksum _ hin => exact Nat.le_trans (by rw [Dhcp.checkAt, Dhcp.udph]; omega) hin.1

theorem SentEffect.low (heffect : SentEffect S p s u) (hi : i < 18) (hS : i ∉ S) :
    u.mem i = s.mem i := by
  cases heffect with
  | rewritten _ hchanges =>
    refine hchanges.eq ?_
    rintro (hin | hlisted)
    · exact hS hin
    · exact Nat.not_le.mpr hi hlisted.ge
  | relayTag _ hrelay =>
    have hheader : Changes (S ∪ {i | 18 ≤ i}) s.mem u.mem := by
      cases hrelay with
      | fresh hr => exact hr.header
      | replaced _ hr => exact hr.header
    refine hheader.eq ?_
    rintro (hin | hhigh)
    · exact hS hin
    · exact Nat.not_le.mpr hi hhigh

theorem dhcp_changes (e : Order) (disable : Bool) (m : Mem UInt8) :
    Changes {i | Dhcp.Request m ∧ (i ∈ span (Dhcp.flagsAt m) 2 ∨ i ∈ span (Dhcp.checkAt m) 2)} m
      (Dhcp.dhcpFlagBcast e disable m) := by
  rw [Dhcp.dhcpFlagBcast]
  split
  · exact Changes.refl ..
  · split
    · next hreq =>
      dsimp only
      split
      · have hflag := changes_write m (Dhcp.flagsAt m)
          (unword e (Dhcp.field e m (Dhcp.flagsAt m) ||| htons e 0x8000))
        refine Changes.trans (hflag.mono fun i hi => ⟨hreq, .inl ?_⟩)
          ((changes_write _ (Dhcp.checkAt m) _).mono fun i hi => ⟨hreq, .inr ?_⟩)
        · rwa [length_unword] at hi
        · rwa [length_unword] at hi
      · exact Changes.refl ..
    · exact Changes.refl ..

section Dhcp

variable {m m' : Mem UInt8} (hsame : ∀ i, 12 ≤ i → m' i = m i)

include hsame

theorem udph_congr : Dhcp.udph m' = Dhcp.udph m := by
  simp only [Dhcp.udph, Dhcp.ihl, hsame 14 (by decide)]

theorem request_congr (hreq : Dhcp.Request m') : Dhcp.Request m := by
  have hudph := udph_congr hsame
  have hlow : 14 ≤ Dhcp.udph m := Nat.le_add_right _ _
  have hfield (k : ℕ) : Dhcp.field .big m' (Dhcp.udph m + k) =
      Dhcp.field .big m (Dhcp.udph m + k) := by
    rw [Dhcp.field, Dhcp.field, hsame (Dhcp.udph m + k) (by omega),
      hsame (Dhcp.udph m + k + 1) (by omega)]
  have hsource := hreq.source
  have hdest := hreq.dest
  have hcookie := hreq.cookie
  rw [hudph] at hsource hdest
  rw [Dhcp.cookieAt, hudph] at hcookie
  refine ⟨?_, ?_, (hfield 0).symm.trans hsource, (hfield 2).symm.trans hdest, ?_⟩
  · exact (read_congr fun i hi _ => hsame i hi).symm.trans hreq.ip
  · exact (hsame 23 (by decide)).symm.trans hreq.udp
  · have hplace : Dhcp.cookieAt m = Dhcp.udph m + 244 := rfl
    exact (read_congr fun i hi _ => hsame i (by omega)).symm.trans hcookie

end Dhcp

theorem request_isIp (hreq : Dhcp.Request s.mem) : isIp s.mem = true := decide_eq_true hreq.ip

theorem store_source_high (u : Skb) (mac : MacAddr) (hi : 12 ≤ i) :
    (u.store 6 mac.toList).mem i = u.mem i := by
  have hsame : write u.mem 6 mac.toList i = u.mem i :=
    write_above u.mem (by rw [Vector.length_toList]; omega)
  exact hsame

theorem Respliced.source {limit start removed inserted : ℕ} {T : Set ℕ}
    (hr : Respliced ∅ s u limit start removed inserted T) (mac : MacAddr) :
    Respliced (span 6 6) s (u.store 6 mac.toList) limit start removed inserted T := by
  have hhigh {j : ℕ} (hj : 12 ≤ j) := store_source_high u mac hj
  have hsource := changes_store u 6 mac
  refine ⟨?_, ⟨fun j hj hout => ?_⟩, hr.len, fun hlen => ?_⟩
  · have hheader := hr.header.union hsource
    exact hheader.mono (by
      rintro i ((hi | hi) | hi)
      · cases hi
      · exact .inr hi
      · exact .inl hi)
  · exact (hhigh (by omega)).trans (hr.tags.kept j hj hout)
  · rw [← hr.length hlen, Skb.be16, Skb.be16, hhigh (by decide), hhigh (by decide)]

def broadcast (h : Host) (p : Port) (u : Skb) : Skb :=
  { u with mem := Dhcp.dhcpFlagBcast h.order p.dhcpBcstDisable u.mem }

theorem broadcast_same (hno : ¬ Dhcp.Request u.mem) : broadcast h p u = u := by
  rw [broadcast, Dhcp.dhcpFlagBcast, if_neg hno, ite_self]

theorem finish_effect (p' : Port) (mac : MacAddr) (heffect : SentEffect ∅ p s u)
    (hip : isIp s.mem = true → u = s) :
    SentEffect (span 6 6) p s (broadcast h p' (u.store 6 mac.toList)) := by
  have hsource := changes_store u 6 mac
  have htype : Dhcp.Request (u.store 6 mac.toList).mem → isIp s.mem = true := by
    intro hreq
    refine decide_eq_true (Eq.trans (read_congr fun i hi hi' => ?_).symm hreq.ip)
    exact (store_source_high u mac hi).trans (heffect.low (by omega) (Set.notMem_empty i))
  cases Decidable.em (Dhcp.Request (u.store 6 mac.toList).mem) with
  | inl hreq =>
    have husame := hip (htype hreq)
    subst husame
    have hsame {i : ℕ} (hi : 12 ≤ i) := store_source_high u mac hi
    have hudph := udph_congr fun i hi => hsame hi
    refine .rewritten rfl ?_
    refine Changes.trans (hsource.mono Set.subset_union_left) ((dhcp_changes _ _ _).mono ?_)
    rintro i ⟨hreq', hflag | hcheck⟩
    · rw [Dhcp.flagsAt, hudph] at hflag
      exact .inr (.dhcpFlag (request_congr (fun i hi => hsame hi) hreq) hflag)
    · rw [Dhcp.checkAt, hudph] at hcheck
      exact .inr (.dhcpChecksum (request_congr (fun i hi => hsame hi) hreq) hcheck)
  | inr hno =>
    rw [broadcast_same hno]
    cases heffect with
    | rewritten hlen hchanges =>
      refine .rewritten hlen ((hchanges.union hsource).mono ?_)
      rintro i ((hi | hi) | hi)
      · cases hi
      · exact .inr hi
      · exact .inl hi
    | relayTag hrequest hrelay =>
      refine .relayTag hrequest ?_
      cases hrelay with
      | fresh hr => exact .fresh (hr.source mac)
      | replaced hold hr => exact .replaced hold (hr.source mac)

section Copy

variable {n : Skb} {m m' : Mem UInt8} {limit start : ℕ} {tag : UInt8}

theorem tlv_found (hsame : ∀ x < limit, m' (54 + x) = m (54 + x)) (hi : i + 1 < limit) :
    (Nd.tlvWalk m' limit tag).found i = (Nd.tlvWalk m limit tag).found i := by
  have hfirst := hsame i (by omega)
  have hsecond := hsame (i + 1) hi
  rw [← Nat.add_assoc] at hsecond
  simp only [Nd.tlvWalk, hfirst, hsecond]

theorem tlv_visits (hsame : ∀ x < limit, m' (54 + x) = m (54 + x))
    (hvisits : Visits (Nd.tlvWalk m' limit tag) start j) (hj : j + 8 ≤ limit) :
    Visits (Nd.tlvWalk m limit tag) start j := by
  induction hvisits with
  | here hin => exact .here hin
  | @later i j hin hfound hlater ih =>
    have hle := Nd.visits_from (.later hin hfound hlater)
    have hsecond := hsame (i + 1) (by omega)
    have hnext : (Nd.tlvWalk m' limit tag).next i = (Nd.tlvWalk m limit tag).next i := by
      rw [← Nat.add_assoc] at hsecond
      simp only [Nd.tlvWalk, hsecond]
    refine .later hin ((tlv_found hsame (by omega)).symm.trans hfound) ?_
    rw [← hnext]
    exact ih hj

structure SameBelow (s n : Skb) : Prop where
  len : n.len = s.len
  mem : ∀ i < s.len, n.mem i = s.mem i

theorem SameBelow.bytes (hsame : SameBelow s n) {a k : ℕ} (hin : a + k ≤ s.len) :
    read n.mem a k = read s.mem a k :=
  read_congr fun i _ hi => hsame.mem i (by omega)

theorem SameBelow.be16 (hsame : SameBelow s n) {a : ℕ} (hin : a + 2 ≤ s.len) :
    n.be16 a = s.be16 a := by
  rw [Skb.be16, Skb.be16, hsame.mem a (by omega), hsame.mem (a + 1) (by omega)]

theorem SameBelow.scanned (hsame : SameBelow s n) (hscan : Nd.scanned n.mem n.len ≠ none) :
    Nd.scanned n.mem n.len = Nd.scanned s.mem s.len := by
  have hlen : 58 < s.len := by
    rw [Nd.scanned] at hscan
    split at hscan
    · next hnd => rw [← hsame.len]; exact hnd.2.2
    · exact absurd rfl hscan
  rw [Nd.scanned, Nd.scanned, hsame.bytes (show 22 + 16 ≤ s.len by omega),
    hsame.mem 20 (by omega), hsame.mem 54 (by omega), hsame.len]

theorem SameBelow.firstOption (hsame : SameBelow s n) (hfirst : Nd.FirstOption n.mem n.len j) :
    Nd.FirstOption s.mem s.len j := by
  obtain ⟨start, tag, hscan, hvisits, hfound⟩ := hfirst
  have hscan' := (hsame.scanned (by rw [hscan]; exact Option.some_ne_none _)).symm.trans hscan
  have hlong : j + 8 ≤ n.len - 54 := (Nd.found_iff.mp hfound).2.2
  have hmem : ∀ x < n.len - 54, n.mem (54 + x) = s.mem (54 + x) := fun x hx =>
    hsame.mem _ (by have hlen := hsame.len; omega)
  refine ⟨start, tag, hscan', ?_, ?_⟩
  · rw [← hsame.len]
    exact tlv_visits hmem hvisits hlong
  · rw [← hsame.len, ← tlv_found hmem (by omega)]
    exact hfound

theorem SameBelow.listed (hsame : SameBelow s n) (hlen : 14 ≤ s.len) (hip : isIp s.mem = false)
    (hi : Listed n i) : Listed s i := by
  have htype : read n.mem 12 2 = read s.mem 12 2 := hsame.bytes (show 12 + 2 ≤ s.len from hlen)
  have hipv6 (hkind : isIpv6 n.mem = true) : isIpv6 s.mem = true := by
    rw [isIpv6, ← htype]
    exact hkind
  have hno (hreq : Dhcp.Request n.mem) : False := by
    have hkind : isIp s.mem = true := by
      rw [isIp, ← htype]
      exact request_isIp hreq
    rw [hip] at hkind
    cases hkind
  cases hi with
  | arpSender harp hin =>
    refine .arpSender ?_ hin
    rw [isArp, ← htype]
    exact harp
  | ndOption hkind hfirst hin => exact .ndOption (hipv6 hkind) (hsame.firstOption hfirst) hin
  | ndChecksum hkind hfirst hin => exact .ndChecksum (hipv6 hkind) (hsame.firstOption hfirst) hin
  | dhcpFlag hreq _ => exact (hno hreq).elim
  | dhcpChecksum hreq _ => exact (hno hreq).elim

theorem SameBelow.changes {T : Set ℕ} (T' : Set ℕ) (hsame : SameBelow s n)
    (hchanges : Changes T n.mem u.mem) (hsub : ∀ i < s.len, i ∈ T → i ∈ T') :
    Changes (T' ∪ {i | s.len ≤ i}) s.mem u.mem := by
  intro i hi
  have hlow : i < s.len := Nat.lt_of_not_le fun hle => hi (.inr hle)
  exact (hchanges.eq fun hin => hi (.inl (hsub i hlow hin))).trans (hsame.mem i hlow)

theorem SameBelow.respliced {a removed inserted : ℕ} (hsame : SameBelow s n)
    (hr : Respliced S n u (n.be16 18) a removed inserted ∅) :
    Respliced (S ∪ {i | s.len ≤ i}) s u (s.be16 18) a removed inserted ∅ := by
  have hlen := hsame.len
  refine ⟨?_, ⟨fun j hj hout => ?_⟩, hlen ▸ hr.len, fun hin => ?_⟩
  · refine (hsame.changes _ hr.header fun i _ hi => hi).mono ?_
    rintro i ((hi | hi) | hi)
    · exact .inl (.inl hi)
    · exact .inr hi
    · exact .inl (.inr hi)
  · have hlimit : n.be16 18 = s.be16 18 := hsame.be16 (by omega)
    refine (hr.tags.kept j (by rw [hlimit, hlen]; exact hj) hout).trans (hsame.mem _ ?_)
    split
    · omega
    · omega
  · rw [← hsame.be16 hin]
    exact hr.length (hlen ▸ hin)

theorem SameBelow.oldRelay {a removed : ℕ} (hsame : SameBelow s n) (hold : OldRelay n a removed) :
    OldRelay s a removed := by
  have hlen := hsame.len
  have hinside := hold.inside
  have hsize := hold.size
  refine ⟨?_, ?_, hlen ▸ hinside⟩
  · rw [← hsame.be16 (by omega)]
    exact hold.type_eq
  · rw [← hsame.be16 (by omega)]
    exact hsize

theorem SameBelow.sent (hsame : SameBelow s n) (hlen : 14 ≤ s.len) (hip : isIp s.mem = false)
    (heffect : SentEffect S p n u) : SentEffect (S ∪ {i | s.len ≤ i}) p s u := by
  cases heffect with
  | rewritten hu hchanges =>
    refine .rewritten (hu.trans hsame.len) ?_
    refine (hsame.changes (S ∪ {i | Listed s i}) hchanges ?_).mono ?_
    · rintro i hi (hin | hlisted)
      · exact .inl hin
      · exact .inr (hsame.listed hlen hip hlisted)
    · rintro i ((hin | hin) | hin)
      · exact .inl (.inl hin)
      · exact .inr hin
      · exact .inl (.inr hin)
  | relayTag hrequest hrelay =>
    refine .relayTag ⟨?_, fun hin => ?_, fun hin => ?_, hrequest.adding⟩ ?_
    · have hpppoe := hrequest.pppoe
      rw [isPppoe, hsame.bytes (show 12 + 2 ≤ s.len from hlen)] at hpppoe
      exact hpppoe
    · rw [← hsame.bytes hin]
      exact hrequest.discovery (hsame.len ▸ hin)
    · rw [← hsame.mem 15 hin]
      exact hrequest.code (hsame.len ▸ hin)
    · cases hrelay with
      | fresh hr => exact .fresh (hsame.respliced hr)
      | replaced hold hr => exact .replaced (hsame.oldRelay hold) (hsame.respliced hr)

end Copy

theorem SentEffect.mono {S' : Set ℕ} (heffect : SentEffect S p s u) (hsub : S ⊆ S') :
    SentEffect S' p s u := by
  cases heffect with
  | rewritten hu hchanges =>
    exact .rewritten hu (hchanges.mono (Set.union_subset_union_left _ hsub))
  | relayTag hrequest hrelay =>
    refine .relayTag hrequest ?_
    cases hrelay with
    | fresh hr =>
      exact .fresh ⟨hr.header.mono (Set.union_subset_union_left _ hsub), hr.tags, hr.len, hr.length⟩
    | replaced hold hr =>
      exact .replaced hold
        ⟨hr.header.mono (Set.union_subset_union_left _ hsub), hr.tags, hr.len, hr.length⟩

theorem SentEffect.port {p' : Port} (heffect : SentEffect S p' s u) (hp : p'.pppoe = p.pppoe) :
    SentEffect S p s u := by
  cases heffect with
  | rewritten hu hchanges => exact .rewritten hu hchanges
  | relayTag hrequest hrelay =>
    exact .relayTag ⟨hrequest.pppoe, hrequest.discovery, hrequest.code, hp ▸ hrequest.adding⟩ hrelay

theorem untagged_low (s : Skb) (hi : i < 12) : (untagged s).mem i = s.mem i := by
  rw [untagged]
  split
  · exact if_pos hi
  · rfl

theorem EthernetFrame.untagged_len (hs : EthernetFrame s) : 14 ≤ (untagged s).len := by
  have hheader := hs.header
  rw [untagged]
  split
  · next htag =>
    have htag' := hs.tag htag
    exact Nat.le_sub_of_add_le htag'
  · exact hheader

structure SentIntact (S : Set ℕ) (p : Port) (s u : Skb) : Prop where
  source : read u.mem 6 6 = p.br.macAddr.toList
  vlan : vlanTag u = vlanTag s
  elsewhere : SentEffect S p (untagged s) (untagged u)

structure ReturnedIntact (p : Port) (s u : Skb) : Prop where
  vlan : vlanTag u = vlanTag s
  elsewhere : ReturnedEffect p (untagged s) (untagged u)

theorem broadcast_low (h : Host) (p : Port) (u : Skb) (hi : i < 18) :
    (broadcast h p u).mem i = u.mem i := by
  refine (dhcp_changes h.order p.dhcpBcstDisable u.mem).eq ?_
  rintro ⟨-, hflag | hcheck⟩
  · exact Nat.not_le.mpr hi (Nat.le_trans (by rw [Dhcp.flagsAt, Dhcp.udph]; omega) hflag.1)
  · exact Nat.not_le.mpr hi (Nat.le_trans (by rw [Dhcp.checkAt, Dhcp.udph]; omega) hcheck.1)

theorem finish_intact {p' : Port} (hmac : p'.br.macAddr = p.br.macAddr) (head : Mem UInt8)
    (inserted : Option ℤ) (heffect : SentEffect ∅ p (untagged s) u)
    (hip : isIp (untagged s).mem = true → u = untagged s) :
    SentIntact (span 6 6) p s (finish h p' head (cut s).1 u inserted).skb := by
  have hframe := @finish_effect h p (untagged s) u p' p.br.macAddr heffect hip
  have hshape : (finish h p' head (cut s).1 u inserted).skb =
      restore head (broadcast h p' (u.store 6 p.br.macAddr.toList)) (cut s).1 := by
    rw [← hmac]
    rfl
  generalize hw : broadcast h p' (u.store 6 p.br.macAddr.toList) = w at hframe hshape
  have htype : read w.mem 12 2 = read (untagged s).mem 12 2 :=
    read_congr fun i hi hi' => hframe.low (by omega) fun hin => by
      have hlt := hin.2
      omega
  have hinner := @restore_untagged s w head htype
  refine ⟨?_, ?_, ?_⟩
  · have hsource : ByteMemory.Holds (u.store 6 p.br.macAddr.toList).mem 6 p.br.macAddr.toList :=
      holds_write u.mem 6 _
    rw [← hsource.read_eq Vector.length_toList.symm]
    refine read_congr fun i hi hi' => ?_
    rw [hshape, ← untagged_low _ (by omega), hinner, ← hw]
    exact broadcast_low h p' _ (by omega)
  · rw [hshape]
    exact restore_vlanTag head htype
  · rw [hshape, hinner]
    exact hframe

theorem handleUntagged_effect (hrun : handleUntagged h p s = some r) :
    ReturnedEffect p s r.skb := by
  rw [handleUntagged] at hrun
  split at hrun
  · split at hrun
    · cases hrun
      exact (touches_dest s _).dest
    · exact lookup_effect hrun
  · split at hrun
    · exact lookup_effect hrun
    · cases hrun
      exact (touches_self s _).dest

theorem ReturnedEffect.type_eq (heffect : ReturnedEffect p s u) :
    read u.mem 12 2 = read s.mem 12 2 := by
  refine read_congr fun i hi hi' => ?_
  cases heffect with
  | answered _ hchanges =>
    refine hchanges.eq fun hin => ?_
    cases hin with
    | dest hspan => exact absurd hspan.2 (by omega)
    | arpTarget _ hspan =>
      have hlow := hspan.1
      rw [arpTarget] at hlow
      omega
  | relayTag _ hrelay =>
    have hheader : Changes (span 0 6 ∪ {i | 18 ≤ i}) s.mem u.mem := by
      cases hrelay with
      | whole _ hr => exact hr.header
      | part _ _ hr _ => exact hr.header
    refine hheader.eq ?_
    rintro (hin | hhigh)
    · exact absurd hin.2 (by omega)
    · exact absurd hhigh (Nat.not_le.mpr (by omega))

theorem returned_intact (hrun : nat25HandleFrame h p s = some r) :
    ReturnedIntact p s r.skb := by
  rw [nat25HandleFrame] at hrun
  split at hrun
  · cases hrun
    exact ⟨rfl, (touches_self _ _).dest⟩
  · dsimp only at hrun
    obtain ⟨q, hq, rfl⟩ := Option.map_eq_some_iff.mp hrun
    rw [cut_untagged] at hq
    have heffect := handleUntagged_effect hq
    refine ⟨restore_vlanTag s.mem heffect.type_eq, ?_⟩
    have hinner := restore_untagged s.mem heffect.type_eq
    change ReturnedEffect p (untagged s) (untagged (restore s.mem q.skb (cut s).1))
    rw [hinner]
    exact heffect

theorem SentIntact.mono {S' : Set ℕ} (hu : SentIntact S p s u) (hsub : S ⊆ S') :
    SentIntact S' p s u :=
  ⟨hu.source, hu.vlan, hu.elsewhere.mono hsub⟩

def relayLen (e : Order) (oldLen : ℕ) : ℕ := word e (high (8 + oldLen)) (low (8 + oldLen)) + 4

-- no room for the relay tag, or an old one too long or not inside the frame
def NoRelayRoom (e : Order) (s : Skb) : Prop :=
  match Pppoe.findPppoeTag s with
  | none => s.tailroom < relayLen e 0
  | some i =>
    28 < s.be16 (22 + i) ∨ s.len < 24 + i + s.be16 (22 + i) ∨
      s.tailroom + (4 + s.be16 (22 + i)) < relayLen e (s.be16 (22 + i))

-- the frames nat25_db_handle(NAT25_INSERT) answers with -1
def Refused (e : Order) (d : Pppoe.Discovery) (s : Skb) : Prop :=
  if isIp s.mem then (ipSkb s).malformed = true
  else if isArp s.mem then read s.mem 16 2 ≠ [0x08, 0x00]
  else if isPppoe s.mem then
    read s.mem 16 2 = [0, 0] ∧ (Pppoe.isRequest (s.mem 15) = false ∨
      d.addPPPoETag = true ∧ NoRelayRoom e s)
  else if isPassThrough s.mem then False
  else isIpv6 s.mem = true → 14 ≤ s.len ∧ s.len ≤ 54

theorem addRelay_ret (e : Order) (stack : ℕ → UInt8) (s : Skb) (old : List UInt8) :
    (Pppoe.addRelay e stack s old).ret = if s.tailroom < relayLen e old.length then -1 else 0 := by
  rw [Pppoe.addRelay, Pppoe.addPppoeTag]
  dsimp only
  change (if (if s.tailroom < relayLen e old.length then _ else _ : Pppoe.Done).ret < 0 then _ else _) = _
  cases Decidable.em (s.tailroom < relayLen e old.length) with
  | inl hroom =>
    rw [if_pos hroom, if_pos hroom]
    rfl
  | inr hroom =>
    rw [if_neg hroom, if_neg hroom]
    exact if_neg (Int.not_lt.mpr (Int.natCast_nonneg _))

theorem merge_ret (s : Skb) (i n : ℕ) :
    (Pppoe.skbPullAndMerge s (20 + i) n).ret < 0 ↔ s.len < 20 + i + n := by
  rw [Pppoe.skbPullAndMerge]
  split
  · exact iff_of_true (show (-1 : ℤ) < 0 by decide) (by omega)
  · exact iff_of_false (Int.lt_irrefl 0) (by omega)

theorem merge_tailroom {i n : ℕ} (hret : ¬ (Pppoe.skbPullAndMerge s (20 + i) n).ret < 0) (l : ℕ) :
    (Pppoe.setLength (Pppoe.skbPullAndMerge s (20 + i) n).skb l).tailroom = s.tailroom + n := by
  rw [Pppoe.skbPullAndMerge] at hret ⊢
  split at hret
  · exact absurd (show (-1 : ℤ) < 0 by decide) hret
  · next hroom =>
    rw [if_neg hroom]
    rfl

theorem insertRelayTag_ret (e : Order) (stack : ℕ → UInt8) (s : Skb) :
    ((Pppoe.insertRelayTag e stack s).ret = 0 ∨ (Pppoe.insertRelayTag e stack s).ret = -1) ∧
      ((Pppoe.insertRelayTag e stack s).ret = -1 ↔ NoRelayRoom e s) := by
  rw [Pppoe.insertRelayTag, NoRelayRoom]
  cases Pppoe.findPppoeTag s with
  | none =>
    dsimp only
    rw [addRelay_ret]
    split
    · next hroom => exact ⟨.inr rfl, iff_of_true rfl hroom⟩
    · next hroom => exact ⟨.inl rfl, iff_of_false (by decide) hroom⟩
  | some i =>
    dsimp only
    split
    · next hlong => exact ⟨.inr rfl, iff_of_true rfl (.inl (by omega))⟩
    · next hlong =>
      split
      · next hcut =>
        have hshort := (merge_ret _ _ _).mp hcut
        exact ⟨.inr rfl, iff_of_true rfl (.inr (.inl (by omega)))⟩
      · next hcut =>
        have hin := mt (merge_ret _ _ _).mpr hcut
        dsimp only
        rw [addRelay_ret, merge_tailroom hcut, length_read]
        split
        · next hroom => exact ⟨.inr rfl, iff_of_true rfl (.inr (.inr hroom))⟩
        · next hroom => exact ⟨.inl rfl, iff_of_false (by decide) (by omega)⟩

theorem insertDiscovery_ret (e : Order) (stack : ℕ → UInt8) (d : Pppoe.Discovery) (s : Skb) :
    ((Pppoe.insertDiscovery e stack d s).done.ret = -1 ↔
      Pppoe.isRequest (s.mem 15) = false ∨ d.addPPPoETag = true ∧ NoRelayRoom e s) ∧
    ((Pppoe.insertDiscovery e stack d s).done.ret < 0 →
      (Pppoe.insertDiscovery e stack d s).done.ret = -1 ∨
        (Pppoe.insertDiscovery e stack d s).done.ret = -2) := by
  rw [Pppoe.insertDiscovery]
  split
  · next hcode =>
    split
    · next hadd =>
      obtain ⟨hret, hiff⟩ := insertRelayTag_ret e stack s
      simp only [hcode, hadd, Bool.true_eq_false, false_or, true_and]
      refine ⟨hiff, fun hneg => .inl (hret.resolve_left fun hzero => ?_)⟩
      rw [hzero] at hneg
      exact absurd hneg (Int.lt_irrefl 0)
    · next hadd =>
      split
      · simp [hcode, hadd]
      · simp [hcode, hadd]
  · next hcode => simp [hcode]

theorem insertIpv6_ret (hrun : insertIpv6 h p s = some r) : r.ret = 0 := by
  rw [insertIpv6] at hrun
  split at hrun
  · cases hrun
    rfl
  · dsimp only at hrun
    split at hrun
    · obtain ⟨q, -, rfl⟩ := Option.map_eq_some_iff.mp hrun
      rfl
    · cases hrun
      rfl

theorem insert_ret (hrun : nat25DbHandle h p s .insert = some r) :
    (r.ret = -1 ↔ Refused h.order p.pppoe s) ∧ (r.ret < 0 → r.ret = -1 ∨ r.ret = -2) := by
  have hdone : ((-1 : ℤ) < 0 → (-1 : ℤ) = -1 ∨ (-1 : ℤ) = -2) := fun _ => .inl rfl
  have hzero : ((0 : ℤ) < 0 → (0 : ℤ) = -1 ∨ (0 : ℤ) = -2) := fun hneg => absurd hneg (Int.lt_irrefl 0)
  rw [nat25DbHandle] at hrun
  simp only [Refused, isIp, isArp, isIpv6, decide_eq_true_eq]
  split at hrun
  · next hip =>
    cases hrun
    rw [if_pos hip, handleIp]
    dsimp only
    rw [BrExt.dbInsertIp]
    split
    · next hmal => exact ⟨iff_of_true rfl hmal, hdone⟩
    · next hmal =>
      split
      · exact ⟨iff_of_false (show ¬ (0 : ℤ) = -1 by decide) hmal, hzero⟩
      · exact ⟨iff_of_false (show ¬ (0 : ℤ) = -1 by decide) hmal, hzero⟩
  · next hip =>
    rw [if_neg hip]
    split at hrun
    · next harp =>
      cases hrun
      rw [if_pos harp, handleArp]
      split
      · next hpro => exact ⟨iff_of_true rfl hpro, hdone⟩
      · next hpro => exact ⟨iff_of_false (show ¬ (0 : ℤ) = -1 by decide) hpro, hzero⟩
    · next harp =>
      rw [if_neg harp]
      split at hrun
      · next hpppoe =>
        cases hrun
        rw [if_pos hpppoe, handlePppoe]
        split
        · next hsid =>
          have hret := insertDiscovery_ret h.order h.stack p.pppoe s
          simp only [hsid, true_and]
          exact hret
        · next hsid => exact ⟨iff_of_false (by simp [insertSession]) fun hr => hsid hr.1, hzero⟩
      · next hpppoe =>
        rw [if_neg hpppoe]
        split at hrun
        · next hpass =>
          cases hrun
          rw [if_pos hpass]
          exact ⟨iff_of_false (by simp [passThrough]) id, hzero⟩
        · next hpass =>
          rw [if_neg hpass]
          split at hrun
          · next hipv6 =>
            rw [handleIpv6] at hrun
            split at hrun
            · next hshort =>
              cases hrun
              exact ⟨iff_of_true rfl fun _ => hshort, hdone⟩
            · next hlong =>
              have hret := insertIpv6_ret hrun
              rw [hret]
              exact ⟨iff_of_false (by decide) fun hr => hlong (hr hipv6), hzero⟩
          · next hipv6 =>
            cases hrun
            exact ⟨iff_of_true rfl fun hkind => absurd hkind hipv6, hdone⟩

-- the frame handed to nat25_db_handle(NAT25_INSERT), in the copy where one is made
def handed (s : Skb) (b : Buffers) : Skb :=
  match copied (untagged s), b.copy with
  | true, some f => untagged (skbCopy s f)
  | _, _ => untagged s

-- the short cut or the database takes the frame
def Taken (h : Host) (p : Port) (s : Skb) (b : Buffers) : Prop :=
  shortcut p s = true ∨ (learnShortcut h p (untagged s)).2 = true ∨
    ¬ Refused h.order p.pppoe (handed s b)

variable {q : Sent} {b : Buffers}

theorem insertFrame_cases {p' : Port} (hp : p'.pppoe = p.pppoe)
    (hmac : p'.br.macAddr = p.br.macAddr) {head : Mem UInt8} {linearized : Bool}
    (hrun : insertFrame h p' head (cut s).1 (untagged s) linearized = some q) (hret : q.ret = 0) :
    ¬ Refused h.order p.pppoe (untagged s) ∧ SentIntact (span 6 6) p s q.skb ∨
      Refused h.order p.pppoe (untagged s) ∧ SentEffect ∅ p (untagged s) q.skb := by
  rw [insertFrame] at hrun
  split at hrun
  · obtain ⟨r, hr, rfl⟩ := Option.map_eq_some_iff.mp hrun
    have hkept := insert_effect hr
    obtain ⟨heffect, hip⟩ := hkept.effect
    obtain ⟨hrefused, hnegative⟩ := insert_ret hr
    rw [hp] at hrefused
    split at hret
    · next hneg =>
      have hone : r.ret = -1 := (hnegative hneg).resolve_right fun htwo => by
        rw [if_pos htwo] at hret
        exact absurd hret (show ¬ (-1 : ℤ) = 0 by decide)
      rw [if_pos hneg]
      exact .inr ⟨hrefused.mp hone, heffect.port hp⟩
    · next hneg =>
      rw [if_neg hneg]
      refine .inl ⟨fun hr => ?_, finish_intact (hkept.macAddr.trans hmac) head (some r.ret)
        (heffect.port hp) hip⟩
      rw [hrefused.mpr hr] at hneg
      exact hneg (by decide)
  · cases hrun
    cases hret

theorem skbCopy_same (s : Skb) (f : Fresh) : SameBelow s (skbCopy s f) :=
  ⟨rfl, fun _ hi => if_pos hi⟩

theorem untagged_same (hs : EthernetFrame s) (f : Fresh) :
    SameBelow (untagged s) (untagged (skbCopy s f)) := by
  have hcopy := skbCopy_same s f
  have htype : isTagged (skbCopy s f).mem = isTagged s.mem :=
    isTagged_congr (hcopy.bytes (show 12 + 2 ≤ s.len from hs.header))
  rw [untagged, untagged, htype]
  split
  · next htag =>
    have hlen := hs.tag htag
    refine ⟨rfl, fun i hi => ?_⟩
    change i < s.len - 4 at hi
    dsimp only
    rw [hcopy.mem (i + 4) (by omega), hcopy.mem i (by omega)]
  · exact hcopy

theorem vlanTag_copy (hs : EthernetFrame s) (f : Fresh) : vlanTag (skbCopy s f) = vlanTag s := by
  have hcopy := skbCopy_same s f
  have htype : isTagged (skbCopy s f).mem = isTagged s.mem :=
    isTagged_congr (hcopy.bytes (show 12 + 2 ≤ s.len from hs.header))
  rw [vlanTag, vlanTag, htype]
  split
  · next htag => exact hcopy.bytes (Nat.le_trans (by decide) (hs.tag htag))
  · rfl

theorem SentIntact.copied (hs : EthernetFrame s) {f : Fresh} (hip : isIp (untagged s).mem = false)
    (hu : SentIntact (span 6 6) p (skbCopy s f) u) :
    SentIntact (span 6 6 ∪ {i | (untagged s).len ≤ i}) p s u :=
  ⟨hu.source, hu.vlan.trans (vlanTag_copy hs f),
    (untagged_same hs f).sent hs.untagged_len hip hu.elsewhere⟩

theorem shortcut_intact (hshort : shortcut p s = true) :
    SentIntact (span 6 6) p s (s.store 6 p.br.macAddr.toList) := by
  have htag : isTagged s.mem = false := by
    simp only [shortcut, Bool.and_eq_true, Bool.not_eq_true'] at hshort
    exact hshort.1.1.1.2
  have hsource := changes_store s 6 p.br.macAddr
  have htag' : isTagged (s.store 6 p.br.macAddr.toList).mem = false := by
    rw [isTagged_congr (read_congr fun i hi _ => store_source_high s _ hi), htag]
  have hwritten : ByteMemory.Holds (s.store 6 p.br.macAddr.toList).mem 6 p.br.macAddr.toList :=
    holds_write s.mem 6 _
  have hplain {w : Skb} (hw : isTagged w.mem = false) : untagged w = w ∧ vlanTag w = [] := by
    rw [untagged, vlanTag, if_neg (by rw [hw]; decide), if_neg (by rw [hw]; decide)]
    exact ⟨rfl, rfl⟩
  refine ⟨hwritten.read_eq Vector.length_toList.symm, ?_, ?_⟩
  · rw [(hplain htag).2, (hplain htag').2]
  · rw [(hplain htag).1, (hplain htag').1]
    exact .rewritten rfl (hsource.mono Set.subset_union_left)

theorem learnShortcut_pppoe (h : Host) (p : Port) (s : Skb) :
    (learnShortcut h p s).1.pppoe = p.pppoe := by
  rw [learnShortcut]
  split
  · rfl
  · rfl

theorem macAt_toList (m : Mem UInt8) (a : ℕ) : (macAt m a).toList = read m a 6 := by
  rw [macAt, Vector.toList_ofFn]
  rfl

theorem source_iff {m : Mem UInt8} {mac : MacAddr} : read m 6 6 = mac.toList ↔ macAt m 6 = mac := by
  rw [← macAt_toList, Vector.toList_inj]

theorem untagged_plain (htag : isTagged s.mem = false) : untagged s = s := by
  rw [untagged, if_neg (by rw [htag]; decide)]

theorem vlanTag_plain (htag : isTagged s.mem = false) : vlanTag s = [] := by
  rw [vlanTag, if_neg (by rw [htag]; decide)]

theorem SentEffect.type_eq (heffect : SentEffect ∅ p s u) : read u.mem 12 2 = read s.mem 12 2 :=
  read_congr fun i _ hi => heffect.low (by omega) (Set.notMem_empty i)

theorem refused_intact (heffect : SentEffect ∅ p (untagged s) u) (htag : isTagged s.mem = false)
    (hmac : macAt s.mem 6 = p.br.macAddr) : SentIntact (span 6 6) p s u := by
  rw [untagged_plain htag] at heffect
  have hu : isTagged u.mem = false := by rw [isTagged_congr heffect.type_eq, htag]
  refine ⟨?_, ?_, ?_⟩
  · rw [← source_iff.mpr hmac]
    exact read_congr fun i _ hi => heffect.low (by omega) (Set.notMem_empty i)
  · rw [vlanTag_plain hu, vlanTag_plain htag]
  · rw [untagged_plain hu, untagged_plain htag]
    exact heffect.mono (Set.empty_subset _)

-- a frame the handler refused is as it came only if it had no tag and our address already
theorem refused_only (hs : EthernetFrame s) (hlow : ∀ i < 14, u.mem i = (untagged s).mem i)
    (hlen : isPppoe (untagged s).mem = false → u.len = (untagged s).len)
    (hu : SentIntact S p s u) : isTagged s.mem = false ∧ macAt s.mem 6 = p.br.macAddr := by
  cases htag : isTagged s.mem with
  | false =>
    refine ⟨rfl, source_iff.mp ?_⟩
    rw [← hu.source, ← congrArg (fun v : Skb => read v.mem 6 6) (untagged_plain htag)]
    exact read_congr fun i _ hi => (hlow i (by omega)).symm
  | true =>
    have hvlan := hu.vlan
    rw [vlanTag_eq htag] at hvlan
    have hinner : isTagged u.mem = true := by
      cases hkind : isTagged u.mem with
      | true => rfl
      | false =>
        rw [vlanTag_plain hkind] at hvlan
        cases hvlan
    have htype : read (untagged s).mem 12 2 = [0x81, 0x00] := by
      rw [← isTagged_iff.mp hinner]
      exact read_congr fun i _ hi => (hlow i hi).symm
    have hpppoe : isPppoe (untagged s).mem = false := by simp [isPppoe, htype]
    cases hu.elsewhere with
    | relayTag hrequest _ => exact absurd (hpppoe.symm.trans hrequest.pppoe) (by decide)
    | rewritten hsame _ =>
      have hlong := hs.untagged_len
      have hshort : (untagged u).len = u.len - 4 := by rw [untagged, if_pos hinner]
      rw [hshort, hlen hpppoe] at hsame
      omega

theorem SentEffect.len_eq (heffect : SentEffect S p s u) (hpppoe : isPppoe s.mem = false) :
    u.len = s.len := by
  cases heffect with
  | rewritten hlen _ => exact hlen
  | relayTag hrequest _ => exact absurd (hpppoe.symm.trans hrequest.pppoe) (by decide)

theorem SentIntact.widen (hu : SentIntact (span 6 6) p s u) :
    SentIntact (span 6 6 ∪ {i | (untagged s).len ≤ i}) p s u :=
  hu.mono Set.subset_union_left

theorem refused_iff (hs : EthernetFrame s) (heffect : SentEffect ∅ p (untagged s) u) :
    SentIntact (span 6 6 ∪ {i | (untagged s).len ≤ i}) p s u ↔
      isTagged s.mem = false ∧ macAt s.mem 6 = p.br.macAddr := by
  refine ⟨refused_only hs (fun i hi => ?_) heffect.len_eq, fun ⟨htag, hown⟩ => ?_⟩
  · exact heffect.low (by omega) (Set.notMem_empty i)
  · exact (refused_intact heffect htag hown).widen

theorem refused_copy_iff (hs : EthernetFrame s) {f : Fresh} (hip : isIp (untagged s).mem = false)
    (heffect : SentEffect ∅ p (untagged (skbCopy s f)) u) :
    SentIntact (span 6 6 ∪ {i | (untagged s).len ≤ i}) p s u ↔
      isTagged s.mem = false ∧ macAt s.mem 6 = p.br.macAddr := by
  have hbelow := untagged_same hs f
  have hlong := hs.untagged_len
  refine ⟨refused_only hs (fun i hi => ?_) fun hkind => ?_, fun ⟨htag, hown⟩ => ?_⟩
  · exact (heffect.low (by omega) (Set.notMem_empty i)).trans (hbelow.mem i (by omega))
  · refine (heffect.len_eq ?_).trans hbelow.len
    rw [← hkind, isPppoe, isPppoe, hbelow.bytes (show 12 + 2 ≤ _ from hlong)]
  · have hread := (skbCopy_same s f).bytes (show 6 + 6 ≤ s.len from by
      have hheader := hs.header
      omega)
    have htype := (skbCopy_same s f).bytes (show 12 + 2 ≤ s.len from hs.header)
    refine (refused_intact heffect ?_ ?_).copied hs hip
    · rw [isTagged_congr htype, htag]
    · rw [← source_iff, hread, source_iff, hown]

theorem sent_iff (hs : EthernetFrame s) (hrun : rtwBrClientTx h p s b = some q)
    (hret : q.ret = 0) :
    SentIntact (span 6 6 ∪ {i | (untagged s).len ≤ i}) p s q.skb ↔
      Taken h p s b ∨ isTagged s.mem = false ∧ macAt s.mem 6 = p.br.macAddr := by
  rw [rtwBrClientTx] at hrun
  split at hrun
  · next hshort =>
    cases hrun
    exact iff_of_true (shortcut_intact hshort).widen (.inl (.inl hshort))
  · next hshort =>
    dsimp only at hrun
    rw [cut_untagged] at hrun
    have hmac := learnShortcut_macAddr h p (untagged s)
    have hpppoe : (learnShortcut h p (untagged s)).1.pppoe = p.pppoe :=
      learnShortcut_pppoe h p (untagged s)
    split at hrun
    · next hhit =>
      cases hrun
      refine iff_of_true (SentIntact.widen ?_) (.inl (.inr (.inl hhit)))
      exact finish_intact hmac s.mem none (rewritten_same rfl) fun _ => rfl
    · next hhit =>
      have htaken : Taken h p s b ↔ ¬ Refused h.order p.pppoe (handed s b) := by
        rw [Taken, or_iff_right hshort, or_iff_right hhit]
      obtain ⟨c, hc, hrun⟩ := Option.bind_eq_some_iff.mp hrun
      obtain ⟨hport, hskb, hcopied⟩ := check_same hc
      rw [hport, hskb] at hrun
      rw [htaken]
      split at hrun
      · next hzero =>
        have hcopy := hcopied.mp hzero
        have hip := copied_isIp hcopy
        cases hfresh : b.copy with
        | none =>
          rw [hfresh] at hrun
          cases hrun
          cases hret
        | some f =>
          have hhanded : handed s b = untagged (skbCopy s f) := by rw [handed, hcopy, hfresh]
          rw [hfresh] at hrun
          dsimp only at hrun
          rw [cutAgain_copy hs, cut_untagged] at hrun
          rw [hhanded]
          rcases insertFrame_cases hpppoe hmac hrun hret with ⟨hno, hintact⟩ | ⟨hrefused, heffect⟩
          · exact iff_of_true (hintact.copied hs hip) (.inl hno)
          · rw [or_iff_right (not_not.mpr hrefused)]
            exact refused_copy_iff hs hip heffect
      · next hother =>
        have hcopy : copied (untagged s) = false := Bool.eq_false_iff.mpr (mt hcopied.mpr hother)
        have hhanded : handed s b = untagged s := by rw [handed, hcopy]
        rw [hhanded]
        rcases insertFrame_cases hpppoe hmac hrun hret with ⟨hno, hintact⟩ | ⟨hrefused, heffect⟩
        · exact iff_of_true hintact.widen (.inl hno)
        · rw [or_iff_right (not_not.mpr hrefused)]
          exact refused_iff hs heffect

def exampleHost : Host where
  order := .little
  kernel := BrExt.exampleKernel
  csum := ⟨fun _ => 0, fun _ _ _ _ _ => 0⟩
  fuel := 100
  stack _ := 0
  block := none

def examplePort : Port := ⟨BrExt.examplePort, Pppoe.tagging, false⟩

def exampleBuffers : Buffers := ⟨some ⟨fun _ => 0, 100⟩, true⟩

def eapolFrame : Skb where
  mem i := ([0x01, 0x80, 0xc2, 0, 0, 3, 2, 0, 0, 0, 0, 5, 0x81, 0, 0, 7, 0x88, 0x8e, 2, 1, 0, 0] :
    List UInt8).getD i 0
  len := 22
  tailroom := 100

theorem eapol_sent :
    (rtwBrClientTx exampleHost examplePort eapolFrame exampleBuffers).map (·.ret) = some 0 := by
  decide +kernel

theorem eapol_returned : (nat25HandleFrame exampleHost examplePort eapolFrame).isSome = true := by
  decide +kernel

theorem eapol_taken : Taken exampleHost examplePort eapolFrame exampleBuffers := by
  refine .inr (.inr fun hrefused => ?_)
  have hpass : isPassThrough (handed eapolFrame exampleBuffers).mem = true := by decide
  have hkind : isIp (handed eapolFrame exampleBuffers).mem = false ∧
      isArp (handed eapolFrame exampleBuffers).mem = false ∧
      isPppoe (handed eapolFrame exampleBuffers).mem = false := by decide
  simp [Refused, hpass, hkind] at hrefused

-- a tagged frame of a type the handler does not know
def lldpFrame : Skb where
  mem i := ([0x01, 0x80, 0xc2, 0, 0, 0x0e, 2, 0, 0, 0, 0, 5, 0x81, 0, 0, 7, 0x88, 0xcc, 2, 7, 4, 2] :
    List UInt8).getD i 0
  len := 22
  tailroom := 100

theorem lldp_loses_tag :
    (rtwBrClientTx exampleHost examplePort lldpFrame exampleBuffers).map
      (fun q => (q.ret, macAt q.skb.mem 6, vlanTag q.skb, q.skb.len)) =
        some (0, macAt lldpFrame.mem 6, [], 18) := by
  decide +kernel

end Frames

end Bridge
