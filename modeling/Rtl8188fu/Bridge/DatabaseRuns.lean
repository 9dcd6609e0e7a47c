import Rtl8188fu.Bridge.Ageing

namespace Bridge

open HashChains
open Recv (MacAddr isMcast localAddr)

namespace BrExt

inductive Missed (k : Kernel) (s : BrExt) (skb : IpSkb) : BrExt → Prop where
  | unknown (brIp : IpAddr) (hmac : s.scdbMac ≠ skb.src)
    (hfind : s.find k (ipv4NetworkAddr skb.saddr) = none) :
    Missed k s skb { s with brIp := brIp, scdbEntry := none }
  | stale (brIp : IpAddr) (hmac : s.scdbMac = skb.src) (hentry : s.scdbEntry = none) :
    Missed k s skb { s.clearScdb with brIp := brIp }

inductive TxStep (k : Kernel) (s : BrExt) (skb : IpSkb) (linearized : Bool) (block : Option ℕ) :
    BrExt → Prop where
  | cached (brIp : IpAddr) (hmac : s.scdbMac = skb.src) (hentry : s.scdbEntry ≠ none) :
    TxStep k s skb linearized block { s with brIp := brIp }.stampScdbEntry
  | adopted (brIp : IpAddr) (p : ℕ) (hmac : s.scdbMac ≠ skb.src)
    (hfind : s.find k (ipv4NetworkAddr skb.saddr) = some p) :
    TxStep k s skb linearized block { s with
      brIp := brIp, scdbEntry := some p, scdbMac := skb.src, scdbIp := skb.saddr }.stampScdbEntry
  | dropped (t : BrExt) (ht : Missed k s skb t)
    (hdrop : linearized = false ∨ skb.malformed = true ∨ skb.saddr = Vector.replicate 4 0) :
    TxStep k s skb linearized block t
  | inserted (t : BrExt) (ht : Missed k s skb t) :
    TxStep k s skb linearized block
      (t.dbNetworkInsert k skb.src (ipv4NetworkAddr skb.saddr) block)

theorem scdbHit_step (k : Kernel) (s : BrExt) (skb : IpSkb) (brIp : IpAddr) :
    (({ s with brIp := brIp }.scdbHit k skb).2 = true ∧
      ∀ linearized block, TxStep k s skb linearized block ({ s with brIp := brIp }.scdbHit k skb).1) ∨
    (({ s with brIp := brIp }.scdbHit k skb).2 = false ∧
      Missed k s skb ({ s with brIp := brIp }.scdbHit k skb).1) := by
  rw [scdbHit]
  cases Decidable.em (s.scdbMac = skb.src) with
  | inl hmac =>
    rw [if_neg (not_not_intro hmac)]
    rcases Option.eq_none_or_eq_some s.scdbEntry with hentry | ⟨p, hentry⟩
    · rw [if_neg (by simp [hentry])]
      exact .inr ⟨rfl, .stale brIp hmac hentry⟩
    · rw [if_pos (by simp [hentry])]
      exact .inl ⟨rfl, fun _ _ => .cached brIp hmac (by simp [hentry])⟩
  | inr hmac =>
    rw [if_pos hmac]
    rcases Option.eq_none_or_eq_some (s.find k (ipv4NetworkAddr skb.saddr)) with hfind | ⟨p, hfind⟩
    · have hscdb : { s with brIp := brIp }.scdbFindEntry k skb.saddr = none := hfind
      dsimp only
      rw [hscdb]
      exact .inr ⟨rfl, .unknown brIp hmac hfind⟩
    · have hscdb : { s with brIp := brIp }.scdbFindEntry k skb.saddr = some p := hfind
      dsimp only
      rw [hscdb]
      exact .inl ⟨rfl, fun _ _ => .adopted brIp p hmac hfind⟩

theorem rtwBrClientTx_step (k : Kernel) (s : BrExt) (skb : IpSkb) (linearized : Bool)
    (block : Option ℕ) :
    TxStep k s skb linearized block (s.rtwBrClientTx k skb linearized block).port := by
  rw [rtwBrClientTx]
  split
  · next hfast =>
    simp only [Bool.and_eq_true, beq_iff_eq, Option.isSome_iff_ne_none] at hfast
    exact .cached s.brIp hfast.1.2 hfast.2
  · have hbr : (if skb.src = s.brMac then { s with brIp := skb.saddr } else s) =
        { s with brIp := if skb.src = s.brMac then skb.saddr else s.brIp } := by
      split <;> rfl
    dsimp only
    rw [hbr]
    generalize (if skb.src = s.brMac then skb.saddr else s.brIp) = brIp
    rcases scdbHit_step k s skb brIp with ⟨hhit, hstep⟩ | ⟨hhit, hmissed⟩
    · rw [hhit]
      exact hstep linearized block
    · rw [hhit]
      cases linearized with
      | false => exact .dropped _ hmissed (.inl rfl)
      | true =>
        rw [dbInsertIp]
        cases hmal : skb.malformed with
        | true => exact .dropped _ hmissed (.inr (.inl hmal))
        | false =>
          cases Decidable.em (skb.saddr = Vector.replicate 4 0) with
          | inl hzero =>
            simp only [hzero]
            exact .dropped _ hmissed (.inr (.inr hzero))
          | inr hzero =>
            simp only [hzero]
            exact .inserted _ hmissed

theorem netdevBrInit_eq (s : BrExt) : ∃ brMac, s.netdevBrInit = { s with brMac := brMac } := by
  rw [netdevBrInit]
  split
  · exact ⟨_, rfl⟩
  · exact ⟨s.brMac, rfl⟩

theorem dbLookupIp_port (k : Kernel) (s : BrExt) (skb : IpSkb) :
    (∃ brMac, (s.dbLookupIp k skb).port = { s with brMac := brMac }) ∨
      (s.dbLookupIp k skb).port =
        (s.dbNetworkLookupAndReplace k skb.dest (ipv4NetworkAddr skb.daddr)).port := by
  rw [dbLookupIp]
  split
  · exact .inl ⟨s.brMac, rfl⟩
  · dsimp only
    split
    · exact .inr rfl
    · split
      · exact .inl ⟨s.brMac, rfl⟩
      · split
        · exact .inl (netdevBrInit_eq s)
        · exact .inl ⟨s.brMac, rfl⟩

theorem nat25HandleFrame_port (k : Kernel) (s : BrExt) (skb : IpSkb) :
    (∃ brMac, (s.nat25HandleFrame k skb).port = { s with brMac := brMac }) ∨
      (s.nat25HandleFrame k skb).port =
        (s.dbNetworkLookupAndReplace k skb.dest (ipv4NetworkAddr skb.daddr)).port := by
  have hsame : ∃ brMac, s = { s with brMac := brMac } := ⟨s.brMac, rfl⟩
  rw [nat25HandleFrame]
  split
  · exact .inl hsame
  · split
    · split
      · exact .inl hsame
      · exact dbLookupIp_port k s skb
    · split
      · exact dbLookupIp_port k s skb
      · exact .inl hsame

def Sound (k : Kernel) (s : BrExt) : Prop :=
  ∃ view, s.Keeps k view ∧ ∀ q a m t, Row view q a m t → t ≤ s.clock

theorem insert_sound {k : Kernel} {s : BrExt} (h : s.Sound k) (macAddr : MacAddr)
    (a : NetworkAddr) (block : Option ℕ) : (s.dbNetworkInsert k macAddr a block).Sound k := by
  obtain ⟨view, hkeeps, hpast⟩ := h
  have hclock : (s.dbNetworkInsert k macAddr a block).clock = s.clock := by
    rw [dbNetworkInsert]
    split
    · rfl
    · split <;> rfl
  obtain ⟨view', hkeeps', hinserted, -⟩ := dbNetworkInsert_keeps hkeeps macAddr a block
  refine ⟨view', hkeeps', ?_⟩
  rintro q a' m t ⟨u, hu, ha, hm, ht⟩
  rw [hclock, ← ht]
  cases Decidable.em (u.networkAddr = a) with
  | inl hown => rw [(hinserted.own q u hu hown).2]
  | inr hown =>
    exact hpast q a' m t ⟨u, (hinserted.other q u hown).mp hu, ha, hm, ht⟩ |> ht.trans_le

theorem lookup_sound {k : Kernel} {s : BrExt} (h : s.Sound k) (dest : MacAddr)
    (a : NetworkAddr) : (s.dbNetworkLookupAndReplace k dest a).port.Sound k := by
  obtain ⟨view, hkeeps, hpast⟩ := h
  obtain ⟨c, view', heq, hkeeps', hrows⟩ := lookup_keeps hkeeps dest a
  refine ⟨view', hkeeps', ?_⟩
  rw [hrows, heq]
  exact hpast

theorem stamp_sound {k : Kernel} {s : BrExt} (h : s.Sound k) : s.stampScdbEntry.Sound k := by
  obtain ⟨view, hkeeps, hpast⟩ := h
  obtain ⟨c, view', heq, hkeeps', hrows⟩ := stampScdbEntry_keeps hkeeps
  refine ⟨view', hkeeps', fun q a m t hrow => ?_⟩
  rw [heq]
  rcases (hrows q a m t).mp hrow with ⟨-, rfl, -⟩ | ⟨-, hrow⟩
  · exact le_rfl
  · exact hpast q a m t hrow

theorem missed_sound {k : Kernel} {s t : BrExt} {skb : IpSkb} (h : s.Sound k)
    (ht : Missed k s skb t) : t.Sound k := by
  obtain ⟨view, hkeeps, hpast⟩ := h
  cases ht with
  | unknown brIp hmac hfind => exact ⟨view, hkeeps.setScdb (fun _ hp => nomatch hp), hpast⟩
  | stale brIp hmac hentry => exact ⟨view, hkeeps, hpast⟩

theorem rtwBrClientTx_sound {k : Kernel} {s : BrExt} (h : s.Sound k) (skb : IpSkb)
    (linearized : Bool) (block : Option ℕ) :
    (s.rtwBrClientTx k skb linearized block).port.Sound k := by
  have hstep := rtwBrClientTx_step k s skb linearized block
  generalize (s.rtwBrClientTx k skb linearized block).port = t at hstep ⊢
  cases hstep with
  | cached brIp hmac hentry => exact stamp_sound (s := { s with brIp := brIp }) h
  | adopted brIp p hmac hfind =>
    obtain ⟨view, hkeeps, hpast⟩ := h
    obtain ⟨e, he, -⟩ := find_some hkeeps hfind
    refine stamp_sound ⟨view, hkeeps.setScdb fun q hq => ⟨e, ?_⟩, hpast⟩
    rwa [← Option.some.inj hq]
  | dropped t ht hdrop => exact missed_sound h ht
  | inserted t ht => exact insert_sound (missed_sound h ht) skb.src _ block

theorem nat25HandleFrame_sound {k : Kernel} {s : BrExt} (h : s.Sound k) (skb : IpSkb) :
    (s.nat25HandleFrame k skb).port.Sound k := by
  rcases nat25HandleFrame_port k s skb with ⟨brMac, heq⟩ | heq
  · rw [heq]
    exact h
  · rw [heq]
    exact lookup_sound h skb.dest _

theorem expire_sound {k : Kernel} {s : BrExt} (h : s.Sound k) : (s.nat25DbExpire k).Sound k := by
  obtain ⟨view, hkeeps, hpast⟩ := h
  obtain ⟨hkeeps', hswept⟩ := nat25DbExpire_keeps hkeeps
  refine ⟨_, hkeeps', fun q a m t hrow => ?_⟩
  rw [hswept.clock_eq]
  exact hpast q a m t ((nat25DbExpire_rows q a m t).1 hrow)

theorem cleanup_sound {k : Kernel} {s : BrExt} (h : s.Sound k) : s.nat25DbCleanup.Sound k := by
  obtain ⟨view, hkeeps, hpast⟩ := h
  obtain ⟨hkeeps', -⟩ := nat25DbCleanup_keeps hkeeps
  refine ⟨_, hkeeps', ?_⟩
  rintro q a m t ⟨u, hu, -⟩
  obtain ⟨e, -, hnone⟩ := (stored_kept _ view q u).mp hu
  cases hnone

inductive DbEvent where
  | insert (macAddr : MacAddr) (a : NetworkAddr) (block : Option ℕ)
  | lookup (dest : MacAddr) (a : NetworkAddr)
  | clientTx (skb : IpSkb) (linearized : Bool) (block : Option ℕ)
  | handleFrame (skb : IpSkb)
  | expire
  | cleanup
  | advance (ticks : ℕ)

def dbStep (k : Kernel) (s : BrExt) : DbEvent → BrExt
  | .insert macAddr a block => s.dbNetworkInsert k macAddr a block
  | .lookup dest a => (s.dbNetworkLookupAndReplace k dest a).port
  | .clientTx skb linearized block => (s.rtwBrClientTx k skb linearized block).port
  | .handleFrame skb => (s.nat25HandleFrame k skb).port
  | .expire => s.nat25DbExpire k
  | .cleanup => s.nat25DbCleanup
  | .advance ticks => { s with clock := s.clock + ticks }

def zeroed (s : BrExt) : BrExt :=
  { s.clearScdb with nethash := Chains.empty, heapTop := 0, scdbEntry := none }

theorem zeroed_sound (k : Kernel) (s : BrExt) : s.zeroed.Sound k := by
  refine ⟨fun _ => [], Holds.empty k 0, ?_⟩
  rintro q a m t ⟨u, ⟨b, hmem⟩, -⟩
  cases hmem

theorem dbStep_sound (k : Kernel) (s : BrExt) (e : DbEvent) (h : s.Sound k) :
    (s.dbStep k e).Sound k := by
  cases e with
  | insert macAddr a block => exact insert_sound h macAddr a block
  | lookup dest a => exact lookup_sound h dest a
  | clientTx skb linearized block => exact rtwBrClientTx_sound h skb linearized block
  | handleFrame skb => exact nat25HandleFrame_sound h skb
  | expire => exact expire_sound h
  | cleanup => exact cleanup_sound h
  | advance ticks =>
    obtain ⟨view, hkeeps, hpast⟩ := h
    exact ⟨view, hkeeps, fun q a m t hrow => (hpast q a m t hrow).trans (Nat.le_add_right ..)⟩

def entryOf (k : Kernel) (s : BrExt) (a : NetworkAddr) : Option NetworkDbEntry :=
  (s.find k a).bind fun p => (s.nethash.cell p).map Cell.val

theorem entryOf_eq_some {k : Kernel} {s : BrExt} {view : View} (h : s.Keeps k view)
    {a : NetworkAddr} {e : NetworkDbEntry} :
    s.entryOf k a = some e ↔ ∃ p, Stored view p e ∧ e.networkAddr = a := by
  rw [entryOf]
  constructor
  · intro hentry
    obtain ⟨p, hfind, hcell⟩ := Option.bind_eq_some_iff.mp hentry
    obtain ⟨f, hf, haddr⟩ := find_some h hfind
    obtain ⟨x, hx, rfl⟩ := cell_stored h hf
    rw [hx] at hcell
    cases hcell
    exact ⟨p, hf, haddr⟩
  · rintro ⟨p, hp, rfl⟩
    obtain ⟨x, hx, rfl⟩ := cell_stored h hp
    rw [find_stored h hp, Option.bind_some, hx]
    rfl

theorem expire_entryOf {k : Kernel} {s : BrExt} {view : View} (h : s.Keeps k view)
    {a : NetworkAddr} {e : NetworkDbEntry} (hentry : s.entryOf k a = some e) :
    (s.nat25DbExpire k).entryOf k a =
      if s.hasExpired k e then
        if e.useCount - 1 = 0 then none else some { e with useCount := e.useCount - 1 }
      else some e := by
  obtain ⟨p, hp, rfl⟩ := (entryOf_eq_some h).mp hentry
  have hkeeps := (nat25DbExpire_keeps h).1
  change _ = s.agedUse k (p, e)
  cases haged : s.agedUse k (p, e) with
  | some f =>
    exact (entryOf_eq_some hkeeps).mpr
      ⟨p, (stored_kept _ view p f).mpr ⟨e, hp, haged⟩, (agedUse_row haged).1⟩
  | none =>
    refine Option.eq_none_iff_forall_ne_some.mpr fun f hf => ?_
    obtain ⟨q, hq, haddr⟩ := (entryOf_eq_some hkeeps).mp hf
    obtain ⟨u, hu, hkept⟩ := (stored_kept _ view q f).mp hq
    obtain ⟨rfl, rfl⟩ := h.stored_addr_unique hu hp ((agedUse_row hkept).1.symm.trans haddr)
    rw [haged] at hkept
    cases hkept

def exampleKernel : Kernel := ⟨32, 100, true, by decide⟩

def examplePort : BrExt where
  nethash := Chains.empty
  heapTop := 0
  scdbMac := Vector.replicate 6 0
  scdbIp := Vector.replicate 4 0
  scdbEntry := none
  brMac := localAddr 1
  brIp := Vector.replicate 4 0
  macAddr := localAddr 2
  brPort := true
  brDev := none
  nat25Disable := false
  nat25scDisable := false
  clock := 0

end BrExt

end Bridge
