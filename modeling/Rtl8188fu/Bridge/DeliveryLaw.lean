import Rtl8188fu.Bridge.DatabaseRuns

namespace Bridge

open HashChains BrExt
open Recv (MacAddr isMcast localAddr)

structure Observed where
  port : BrExt
  last : IpAddr → Option (MacAddr × ℕ)

inductive Event where
  | tx (skb : IpSkb) (linearized : Bool) (block : Option ℕ)
  | rx (skb : IpSkb)
  | advance (ticks : ℕ)
  | expire

namespace Observed

def step (k : Kernel) (o : Observed) : Event → Observed
  | .tx skb linearized block =>
    ⟨(o.port.rtwBrClientTx k skb linearized block).port,
      Function.update o.last skb.saddr (some (skb.src, o.port.clock))⟩
  | .rx skb => { o with port := (o.port.nat25HandleFrame k skb).port }
  | .advance ticks => { o with port := { o.port with clock := o.port.clock + ticks } }
  | .expire => { o with port := o.port.nat25DbExpire k }

def start (port : BrExt) : Observed :=
  ⟨{ port.zeroed with nat25Disable := false, nat25scDisable := false }, fun _ => none⟩

def Given (o : Observed) : Event → Prop
  | .tx skb _ _ => isMcast skb.dest = false ∧ skb.vlanTag = none ∧ skb.src ≠ o.port.brMac ∧
      skb.saddr ≠ Vector.replicate 4 0 ∧ skb.malformed = false
  | .rx skb => isMcast skb.dest = false ∧ skb.malformed = false
  | .advance _ => True
  | .expire => True

def Delivered (k : Kernel) (o : Observed) (skb : IpSkb) : Option (MacAddr × ℕ) → Prop
  | none => True
  | some (macAddr, time) =>
    o.port.clock < time + 300 * k.hz → (o.port.nat25HandleFrame k skb).skb.dest = macAddr

def Law (k : Kernel) (o : Observed) : Event → Prop
  | .rx skb => o.Delivered k skb (o.last skb.daddr)
  | .tx _ _ _ => True
  | .advance _ => True
  | .expire => True

def inserts (k : Kernel) (s : BrExt) (skb : IpSkb) : Bool :=
  if s.scdbMac = skb.src then s.scdbEntry.isNone
  else (s.scdbFindEntry k skb.saddr).isNone

structure ShortcutFits (k : Kernel) (s : BrExt) (skb : IpSkb) (linearized : Bool)
    (block : Option ℕ) : Prop where
  sameIp : s.scdbMac = skb.src → s.scdbEntry.isSome = true → s.scdbIp = skb.saddr
  sameMac : s.scdbMac ≠ skb.src →
    (s.entryOf k (ipv4NetworkAddr skb.saddr)).all (fun e => e.macAddr == skb.src) = true
  notStale : s.scdbMac ≠ skb.src → s.scdbFindEntry k skb.saddr = none → s.scdbIp ≠ skb.saddr
  memory : inserts k s skb = true → linearized = true ∧
    (s.scdbFindEntry k skb.saddr = none → (s.malloc block).isSome = true)

def Meets (k : Kernel) (o : Observed) : Event → Prop
  | .tx skb linearized block => ShortcutFits k o.port skb linearized block
  | .rx _ => True
  | .advance _ => True
  | .expire => True

instance (k : Kernel) (s : BrExt) (skb : IpSkb) (linearized : Bool) (block : Option ℕ) :
    Decidable (ShortcutFits k s skb linearized block) :=
  decidable_of_iff (_ ∧ _ ∧ _ ∧ _)
    ⟨fun h => ⟨h.1, h.2.1, h.2.2.1, h.2.2.2⟩, fun h => ⟨h.1, h.2, h.3, h.4⟩⟩

instance (k : Kernel) (o : Observed) : (e : Event) → Decidable (o.Meets k e)
  | .tx .. => inferInstanceAs (Decidable (ShortcutFits ..))
  | .rx _ => .isTrue trivial
  | .advance _ => .isTrue trivial
  | .expire => .isTrue trivial

instance (o : Observed) : (e : Event) → Decidable (o.Given e)
  | .tx .. => inferInstanceAs (Decidable (_ ∧ _))
  | .rx _ => inferInstanceAs (Decidable (_ ∧ _))
  | .advance _ => .isTrue trivial
  | .expire => .isTrue trivial

instance (k : Kernel) (o : Observed) (skb : IpSkb) :
    (r : Option (MacAddr × ℕ)) → Decidable (o.Delivered k skb r)
  | none => .isTrue trivial
  | some _ => inferInstanceAs (Decidable (_ → _))

instance (k : Kernel) (o : Observed) : (e : Event) → Decidable (o.Law k e)
  | .rx _ => inferInstanceAs (Decidable (Delivered ..))
  | .tx .. => .isTrue trivial
  | .advance _ => .isTrue trivial
  | .expire => .isTrue trivial

structure Tracked (k : Kernel) (s : BrExt) (last : IpAddr → Option (MacAddr × ℕ))
    (view : View) : Prop where
  keeps : s.Keeps k view
  past : ∀ q a m t, Row view q a m t → t ≤ s.clock
  row : ∀ ip m t, last ip = some (m, t) → t ≤ s.clock ∧
    ∀ q m' t', Row view q (ipv4NetworkAddr ip) m' t' → m' = m ∧ t ≤ t'
  fresh : ∀ ip m t, last ip = some (m, t) → s.clock < t + 300 * k.hz →
    ∃ q t', Row view q (ipv4NetworkAddr ip) m t'
  cached : ∀ m t, last s.scdbIp = some (m, t) → s.scdbMac = m
  entry : ∀ p, s.scdbEntry = some p →
    ∃ t, Row view p (ipv4NetworkAddr s.scdbIp) s.scdbMac t
  unspecified : last (Vector.replicate 4 0) = none
  enabled : s.nat25Disable = false ∧ s.nat25scDisable = false

theorem ipv4NetworkAddr_injective {ip ip' : IpAddr}
    (h : ipv4NetworkAddr ip = ipv4NetworkAddr ip') : ip = ip' := by
  have hbyte (i : ℕ) (hi : i < 17) : (ipv4NetworkAddr ip)[i] = (ipv4NetworkAddr ip')[i] := by rw [h]
  refine Vector.ext fun i hi => ?_
  match i, hi with
  | 0, _ => exact hbyte 7 (by omega)
  | 1, _ => exact hbyte 8 (by omega)
  | 2, _ => exact hbyte 9 (by omega)
  | 3, _ => exact hbyte 10 (by omega)

theorem row_unique {k : Kernel} {s : BrExt} {view : View} (h : s.Keeps k view) {p : ℕ}
    {a a' : NetworkAddr} {m m' : MacAddr} {t t' : ℕ} (hrow : Row view p a m t)
    (hrow' : Row view p a' m' t') : a = a' ∧ m = m' ∧ t = t' := by
  obtain ⟨e, he, rfl, rfl, rfl⟩ := hrow
  obtain ⟨f, hf, rfl, rfl, rfl⟩ := hrow'
  rw [h.represents.stored_unique he hf]
  exact ⟨rfl, rfl, rfl⟩

theorem row_pointer_unique {k : Kernel} {s : BrExt} {view : View} (h : s.Keeps k view) {p q : ℕ}
    {a : NetworkAddr} {m m' : MacAddr} {t t' : ℕ} (hrow : Row view p a m t)
    (hrow' : Row view q a m' t') : p = q := by
  obtain ⟨e, he, rfl, -⟩ := hrow
  obtain ⟨f, hf, haddr, -⟩ := hrow'
  exact (h.stored_addr_unique he hf haddr.symm).1

namespace Tracked

variable {k : Kernel} {s : BrExt} {last : IpAddr → Option (MacAddr × ℕ)} {view : View}

theorem setScdb (h : Tracked k s last view) {macAddr : MacAddr} {ip : IpAddr} {brIp : IpAddr}
    {e : Option ℕ} (hcached : ∀ m t, last ip = some (m, t) → macAddr = m)
    (hentry : ∀ p, e = some p → ∃ t, Row view p (ipv4NetworkAddr ip) macAddr t) :
    Tracked k { s with
      brIp := brIp, scdbEntry := e, scdbMac := macAddr, scdbIp := ip } last view where
  keeps := h.keeps.setScdb fun p hp =>
    let ⟨_, e, he, _⟩ := hentry p hp
    ⟨e, he⟩
  past := h.past
  row := h.row
  fresh := h.fresh
  cached := hcached
  entry := hentry
  unspecified := h.unspecified
  enabled := h.enabled

theorem stamped (h : Tracked k s last view) (hentry : s.scdbEntry ≠ none)
    (hip : s.scdbIp ≠ Vector.replicate 4 0) :
    ∃ view', Tracked k s.stampScdbEntry
      (Function.update last s.scdbIp (some (s.scdbMac, s.clock))) view' := by
  obtain ⟨p, hp⟩ := Option.ne_none_iff_exists'.mp hentry
  obtain ⟨c, view', heq, hkeeps, hrows⟩ := stampScdbEntry_keeps h.keeps
  obtain ⟨t₀, hown⟩ := h.entry p hp
  have hstamped : Row view' p (ipv4NetworkAddr s.scdbIp) s.scdbMac s.clock :=
    (hrows ..).mpr (.inl ⟨hp, rfl, t₀, hown⟩)
  have hself (q : ℕ) (m : MacAddr) (t : ℕ)
      (hrow : Row view' q (ipv4NetworkAddr s.scdbIp) m t) :
      m = s.scdbMac ∧ t = s.clock := by
    cases row_pointer_unique hkeeps hrow hstamped
    exact (row_unique hkeeps hrow hstamped).2
  rw [heq] at hkeeps ⊢
  refine ⟨view', hkeeps, fun q a m t hrow => ?_, fun ip m t hlast => ?_, fun ip m t hlast hlt => ?_,
    fun m t hlast => ?_, fun q hq => ?_, ?_, h.enabled⟩
  · rcases (hrows q a m t).mp hrow with ⟨-, rfl, -⟩ | ⟨-, hrow⟩
    · exact le_rfl
    · exact h.past q a m t hrow
  · cases Decidable.em (ip = s.scdbIp) with
    | inl hsame =>
      subst hsame
      rw [Function.update_self] at hlast
      cases hlast
      refine ⟨le_rfl, fun q m' t' hrow => ?_⟩
      obtain ⟨hm, ht⟩ := hself q m' t' hrow
      exact ⟨hm, ht.ge⟩
    | inr hsame =>
      rw [Function.update_of_ne hsame] at hlast
      obtain ⟨hle, hall⟩ := h.row ip m t hlast
      refine ⟨hle, fun q m' t' hrow => ?_⟩
      rcases (hrows q _ m' t').mp hrow with ⟨-, rfl, t₁, hrow⟩ | ⟨-, hrow⟩
      · exact ⟨(hall q m' t₁ hrow).1, hle⟩
      · exact hall q m' t' hrow
  · cases Decidable.em (ip = s.scdbIp) with
    | inl hsame =>
      subst hsame
      rw [Function.update_self] at hlast
      cases hlast
      exact ⟨p, _, hstamped⟩
    | inr hsame =>
      rw [Function.update_of_ne hsame] at hlast
      obtain ⟨q, t', hrow⟩ := h.fresh ip m t hlast hlt
      cases Decidable.em (s.scdbEntry = some q) with
      | inl hq => exact ⟨q, _, (hrows ..).mpr (.inl ⟨hq, rfl, t', hrow⟩)⟩
      | inr hq => exact ⟨q, t', (hrows ..).mpr (.inr ⟨hq, hrow⟩)⟩
  · rw [Function.update_self] at hlast
    cases hlast
    rfl
  · cases hp.symm.trans hq
    exact ⟨_, hstamped⟩
  · rw [Function.update_of_ne hip.symm]
    exact h.unspecified

theorem inserted (h : Tracked k s last view) {macAddr : MacAddr} {ip : IpAddr} {block : Option ℕ}
    (hentry : s.scdbEntry = none) (hstale : s.scdbIp ≠ ip)
    (hip : ip ≠ Vector.replicate 4 0)
    (hmemory : s.find k (ipv4NetworkAddr ip) ≠ none ∨ s.malloc block ≠ none) :
    ∃ view', Tracked k (s.dbNetworkInsert k macAddr (ipv4NetworkAddr ip) block)
      (Function.update last ip (some (macAddr, s.clock))) view' := by
  obtain ⟨view', hkeeps, hinserted, hown⟩ :=
    dbNetworkInsert_keeps h.keeps macAddr (ipv4NetworkAddr ip) block
  obtain ⟨p, e, he, haddr⟩ := hown hmemory
  obtain ⟨c, top, heq⟩ : ∃ c top, s.dbNetworkInsert k macAddr (ipv4NetworkAddr ip) block =
      { s with nethash := c, heapTop := top } := by
    rw [dbNetworkInsert]
    split
    · exact ⟨_, s.heapTop, rfl⟩
    · split
      · exact ⟨s.nethash, s.heapTop, rfl⟩
      · exact ⟨_, _, rfl⟩
  have hrow (q : ℕ) (m : MacAddr) (t : ℕ) (hq : Row view' q (ipv4NetworkAddr ip) m t) :
      m = macAddr ∧ t = s.clock := by
    obtain ⟨u, hu, ha, rfl, rfl⟩ := hq
    exact hinserted.own q u hu ha
  have hother {a : NetworkAddr} (ha : a ≠ ipv4NetworkAddr ip) (q : ℕ) (m : MacAddr) (t : ℕ) :
      Row view' q a m t ↔ Row view q a m t := by
    constructor
    · rintro ⟨u, hu, rfl, hmt⟩
      exact ⟨u, (hinserted.other q u ha).mp hu, rfl, hmt⟩
    · rintro ⟨u, hu, rfl, hmt⟩
      exact ⟨u, (hinserted.other q u ha).mpr hu, rfl, hmt⟩
  have hne {ip' : IpAddr} (hip' : ip' ≠ ip) : ipv4NetworkAddr ip' ≠ ipv4NetworkAddr ip :=
    fun heq => hip' (ipv4NetworkAddr_injective heq)
  rw [heq] at hkeeps ⊢
  refine ⟨view', hkeeps, fun q a m t hq => ?_, fun ip' m t hlast => ?_,
    fun ip' m t hlast hlt => ?_, fun m t hlast => ?_, fun q hq => ?_, ?_, h.enabled⟩
  · cases Decidable.em (a = ipv4NetworkAddr ip) with
    | inl ha =>
      subst ha
      exact (hrow q m t hq).2.le
    | inr ha => exact h.past q a m t ((hother ha q m t).mp hq)
  · cases Decidable.em (ip' = ip) with
    | inl hsame =>
      subst hsame
      rw [Function.update_self] at hlast
      cases hlast
      refine ⟨le_rfl, fun q m' t' hq => ?_⟩
      obtain ⟨hm, ht⟩ := hrow q m' t' hq
      exact ⟨hm, ht.ge⟩
    | inr hsame =>
      rw [Function.update_of_ne hsame] at hlast
      obtain ⟨hle, hall⟩ := h.row ip' m t hlast
      exact ⟨hle, fun q m' t' hq => hall q m' t' ((hother (hne hsame) q m' t').mp hq)⟩
  · cases Decidable.em (ip' = ip) with
    | inl hsame =>
      subst hsame
      rw [Function.update_self] at hlast
      cases hlast
      obtain ⟨hm, -⟩ := hinserted.own p e he haddr
      exact ⟨p, e.stamp, e, he, haddr, hm, rfl⟩
    | inr hsame =>
      rw [Function.update_of_ne hsame] at hlast
      obtain ⟨q, t', hq⟩ := h.fresh ip' m t hlast hlt
      exact ⟨q, t', (hother (hne hsame) q m t').mpr hq⟩
  · dsimp only at hlast
    rw [Function.update_of_ne hstale] at hlast
    exact h.cached m t hlast
  · cases hentry.symm.trans hq
  · rw [Function.update_of_ne hip.symm]
    exact h.unspecified

theorem looked (h : Tracked k s last view) (dest : MacAddr) (a : NetworkAddr) :
    ∃ view', Tracked k (s.dbNetworkLookupAndReplace k dest a).port last view' := by
  obtain ⟨c, view', heq, hkeeps, hrows⟩ := lookup_keeps h.keeps dest a
  rw [heq] at hkeeps ⊢
  refine ⟨view', hkeeps, ?_, ?_, ?_, h.cached, ?_, h.unspecified, h.enabled⟩
  · rw [hrows]
    exact h.past
  · rw [hrows]
    exact h.row
  · rw [hrows]
    exact h.fresh
  · rw [hrows]
    exact h.entry

theorem expired (h : Tracked k s last view) : ∃ view', Tracked k (s.nat25DbExpire k) last view' := by
  obtain ⟨hkeeps, c, hswept⟩ := nat25DbExpire_keeps h.keeps
  have hrows := @BrExt.nat25DbExpire_rows k s view
  have hfresh (ip : IpAddr) (m : MacAddr) (t : ℕ) (hlast : last ip = some (m, t))
      (hlt : s.clock < t + 300 * k.hz) :
      ∃ q t', Row (fun b => kept (s.agedUse k) (view b)) q (ipv4NetworkAddr ip) m t' := by
    obtain ⟨q, t', hrow⟩ := h.fresh ip m t hlast hlt
    have hle := ((h.row ip m t hlast).2 q m t' hrow).2
    exact ⟨q, t', (hrows ..).2 hrow (h.past q _ m t' hrow) (by omega)⟩
  rcases hswept with heq | heq
  · rw [heq] at hkeeps ⊢
    refine ⟨_, hkeeps, fun q a m t hrow => h.past q a m t ((hrows ..).1 hrow),
      fun ip m t hlast => ?_, hfresh, h.cached, fun p hp => ?_, h.unspecified, h.enabled⟩
    · obtain ⟨hle, hall⟩ := h.row ip m t hlast
      exact ⟨hle, fun q m' t' hrow => hall q m' t' ((hrows ..).1 hrow)⟩
    · obtain ⟨e, he⟩ := hkeeps.stored_pointer hp
      obtain ⟨t, hown⟩ := h.entry p hp
      have hrow : Row (fun b => kept (s.agedUse k) (view b)) p e.networkAddr e.macAddr e.stamp :=
        ⟨e, he, rfl, rfl, rfl⟩
      obtain ⟨ha, hm, -⟩ := row_unique h.keeps ((hrows ..).1 hrow) hown
      rw [ha, hm] at hrow
      exact ⟨e.stamp, hrow⟩
  · rw [heq] at hkeeps ⊢
    refine ⟨_, hkeeps, fun q a m t hrow => h.past q a m t ((hrows ..).1 hrow),
      fun ip m t hlast => ?_, hfresh, fun m t hlast => ?_, fun p hp => ?_, h.unspecified, h.enabled⟩
    · obtain ⟨hle, hall⟩ := h.row ip m t hlast
      exact ⟨hle, fun q m' t' hrow => hall q m' t' ((hrows ..).1 hrow)⟩
    · cases h.unspecified.symm.trans hlast
    · cases hp

theorem advanced (h : Tracked k s last view) (ticks : ℕ) :
    Tracked k { s with clock := s.clock + ticks } last view where
  keeps := h.keeps
  past q a m t hrow := (h.past q a m t hrow).trans (Nat.le_add_right ..)
  row ip m t hlast :=
    ⟨(h.row ip m t hlast).1.trans (Nat.le_add_right ..), (h.row ip m t hlast).2⟩
  fresh ip m t hlast hlt := h.fresh ip m t hlast (Nat.lt_of_le_of_lt (Nat.le_add_right ..) hlt)
  cached := h.cached
  entry := h.entry
  unspecified := h.unspecified
  enabled := h.enabled

theorem handled (h : Tracked k s last view) (skb : IpSkb) :
    ∃ view', Tracked k (s.nat25HandleFrame k skb).port last view' := by
  rcases nat25HandleFrame_port k s skb with ⟨brMac, heq⟩ | heq
  · rw [heq]
    exact ⟨view, h.keeps, h.past, h.row, h.fresh, h.cached, h.entry, h.unspecified, h.enabled⟩
  · rw [heq]
    exact h.looked skb.dest _

theorem transmitted (h : Tracked k s last view) {skb : IpSkb} {linearized : Bool}
    {block : Option ℕ} (hsaddr : skb.saddr ≠ Vector.replicate 4 0) (hmal : skb.malformed = false)
    (hfits : ShortcutFits k s skb linearized block) :
    ∃ view', Tracked k (s.rtwBrClientTx k skb linearized block).port
      (Function.update last skb.saddr (some (skb.src, s.clock))) view' := by
  have hstep := rtwBrClientTx_step k s skb linearized block
  generalize (s.rtwBrClientTx k skb linearized block).port = t at hstep ⊢
  have hmemory (hinserts : inserts k s skb = true) :
      s.find k (ipv4NetworkAddr skb.saddr) ≠ none ∨ s.malloc block ≠ none := by
    cases Decidable.em (s.find k (ipv4NetworkAddr skb.saddr) = none) with
    | inl hfind =>
      exact .inr (Option.isSome_iff_ne_none.mp ((hfits.memory hinserts).2 hfind))
    | inr hfind => exact .inl hfind
  have hmissed {t : BrExt} (ht : Missed k s skb t) : inserts k s skb = true := by
    rw [inserts]
    cases ht with
    | unknown brIp hmac hfind =>
      have hscdb : s.scdbFindEntry k skb.saddr = none := hfind
      rw [if_neg hmac, hscdb]
      rfl
    | stale brIp hmac hentry =>
      rw [if_pos hmac, hentry]
      rfl
  cases hstep with
  | cached brIp hmac hentry =>
    have hip : s.scdbIp = skb.saddr := hfits.sameIp hmac (Option.isSome_iff_ne_none.mpr hentry)
    have hset := @Observed.Tracked.setScdb _ _ _ _ h _ _ brIp _ h.cached h.entry
    have hdone := hset.stamped hentry (by rw [hip]; exact hsaddr)
    rwa [show skb.saddr = s.scdbIp from hip.symm, show skb.src = s.scdbMac from hmac.symm]
  | adopted brIp p hmac hfind =>
    obtain ⟨e, he, haddr⟩ := find_some h.keeps hfind
    have hsrc : e.macAddr = skb.src := by
      have hsame := hfits.sameMac hmac
      rw [(entryOf_eq_some h.keeps).mpr ⟨p, he, haddr⟩] at hsame
      exact eq_of_beq hsame
    have hrow : Row view p (ipv4NetworkAddr skb.saddr) skb.src e.stamp := ⟨e, he, haddr, hsrc, rfl⟩
    have hset := @Observed.Tracked.setScdb _ _ _ _ h skb.src skb.saddr brIp (some p)
      (fun m t hlast => ((h.row _ m t hlast).2 p _ _ hrow).1)
      fun q hq => ⟨e.stamp, Option.some.inj hq ▸ hrow⟩
    exact hset.stamped (Option.some_ne_none p) hsaddr
  | dropped t ht hdrop =>
    have hlin := (hfits.memory (hmissed ht)).1
    rcases hdrop with hdrop | hdrop | hdrop
    · cases hlin.symm.trans hdrop
    · cases hmal.symm.trans hdrop
    · exact absurd hdrop hsaddr
  | inserted t ht =>
    have hmem := hmemory (hmissed ht)
    cases ht with
    | unknown brIp hmac hfind =>
      have hset := @Observed.Tracked.setScdb _ _ _ _ h _ _ brIp none h.cached fun p hp => nomatch hp
      exact hset.inserted rfl (hfits.notStale hmac hfind) hsaddr hmem
    | stale brIp hmac hentry =>
      have hset := @Observed.Tracked.setScdb _ _ _ _ h (Vector.replicate 6 0) (Vector.replicate 4 0)
        brIp none (fun m t hlast => nomatch h.unspecified.symm.trans hlast)
        fun p hp => nomatch hp
      rw [← hentry] at hset
      exact hset.inserted hentry hsaddr.symm hsaddr hmem

theorem delivered (h : Tracked k s last view) {skb : IpSkb} (hcast : isMcast skb.dest = false)
    (hmal : skb.malformed = false) {m : MacAddr} {t : ℕ} (hlast : last skb.daddr = some (m, t))
    (hlt : s.clock < t + 300 * k.hz) : (s.nat25HandleFrame k skb).skb.dest = m := by
  rw [nat25HandleFrame]
  rw [hcast, h.enabled.1, h.enabled.2, if_neg Bool.false_ne_true, Bool.not_false, if_pos rfl]
  cases Decidable.em (s.scdbIp = skb.daddr) with
  | inl hip =>
    rw [if_pos (by simp [hip])]
    exact h.cached m t (hip ▸ hlast)
  | inr hip =>
    rw [if_neg (by simp [hip])]
    rw [dbLookupIp]
    rw [hmal, if_neg Bool.false_ne_true]
    obtain ⟨q, t', e, he, haddr, rfl, rfl⟩ := h.fresh _ m t hlast hlt
    have hrow : Row view q (ipv4NetworkAddr skb.daddr) e.macAddr e.stamp :=
      ⟨e, he, haddr, rfl, rfl⟩
    have hle := ((h.row _ _ t hlast).2 q _ _ hrow).2
    have hexp := hasExpired_of_fresh (h.past q _ _ _ hrow) (k := k) (e := e) (by omega)
    have hstep := dbNetworkLookupAndReplace_step h.keeps skb.dest (ipv4NetworkAddr skb.daddr)
    generalize s.dbNetworkLookupAndReplace k skb.dest (ipv4NetworkAddr skb.daddr) = r at hstep ⊢
    cases hstep with
    | absent hfind => exact absurd haddr (find_none h.keeps hfind he)
    | expired p f hf hfaddr hfexp =>
      obtain ⟨-, rfl⟩ := h.keeps.stored_addr_unique hf he (hfaddr.trans haddr.symm)
      cases hexp.symm.trans hfexp
    | used p f hf hfaddr hfexp =>
      obtain ⟨-, rfl⟩ := h.keeps.stored_addr_unique hf he (hfaddr.trans haddr.symm)
      rfl

end Tracked

theorem start_tracked (k : Kernel) (port : BrExt) :
    Tracked k (start port).port (start port).last fun _ => [] where
  keeps := Holds.empty k 0
  past _ _ _ _ hrow := by
    obtain ⟨_, ⟨_, hmem⟩, -⟩ := hrow
    cases hmem
  row _ _ _ hlast := nomatch hlast
  fresh _ _ _ hlast := nomatch hlast
  cached _ _ hlast := nomatch hlast
  entry _ hp := nomatch hp
  unspecified := rfl
  enabled := ⟨rfl, rfl⟩

theorem step_tracked {k : Kernel} {o : Observed} {e : Event}
    (h : ∃ view, Tracked k o.port o.last view) (hgiven : o.Given e) (hmeets : o.Meets k e) :
    ∃ view, Tracked k (o.step k e).port (o.step k e).last view := by
  obtain ⟨view, h⟩ := h
  cases e with
  | tx skb linearized block =>
    obtain ⟨-, -, -, hsaddr, hmal⟩ := hgiven
    exact h.transmitted hsaddr hmal hmeets
  | rx skb => exact h.handled skb
  | advance ticks => exact ⟨view, h.advanced ticks⟩
  | expire => exact h.expired

theorem law_of_tracked {k : Kernel} {o : Observed} {e : Event}
    (h : ∃ view, Tracked k o.port o.last view) (hgiven : o.Given e) : o.Law k e := by
  obtain ⟨view, h⟩ := h
  cases e with
  | tx skb linearized block => exact trivial
  | rx skb =>
    obtain ⟨hcast, hmal⟩ := hgiven
    change o.Delivered k skb (o.last skb.daddr)
    cases hlast : o.last skb.daddr with
    | none => exact trivial
    | some sender => exact fun hlt => h.delivered hcast hmal hlast hlt
  | advance ticks => exact trivial
  | expire => exact trivial

theorem delivery_law (k : Kernel) (port : BrExt) (es : List Event)
    (h : Run.Each (step k) (fun o e => o.Given e ∧ o.Meets k e) (start port) es) :
    Run.Each (step k) (Law k) (start port) es :=
  Run.each_of_each (step k) _ _ (fun o => ∃ view, Tracked k o.port o.last view)
    (fun _ _ ho he => law_of_tracked ho he.1) (fun _ _ ho he => step_tracked ho he.1 he.2)
    ⟨_, start_tracked k port⟩ h

def exampleSkb (src : MacAddr) (saddr daddr : IpAddr) : IpSkb :=
  ⟨localAddr 9, src, none, 5, saddr, daddr, 100⟩

theorem delivery_law_two_clients :
    let es := [
      .tx (exampleSkb (localAddr 3) #v[10, 0, 0, 1] #v[10, 0, 0, 9]) true (some 0),
      .tx (exampleSkb (localAddr 3) #v[10, 0, 0, 1] #v[10, 0, 0, 9]) true none,
      .tx (exampleSkb (localAddr 4) #v[10, 0, 0, 2] #v[10, 0, 0, 9]) true (some 1),
      .advance 29999, .expire,
      .rx (exampleSkb (localAddr 8) #v[10, 0, 0, 9] #v[10, 0, 0, 1]),
      .rx (exampleSkb (localAddr 8) #v[10, 0, 0, 9] #v[10, 0, 0, 2])]
    Run.Each (step exampleKernel) (Law exampleKernel) (start examplePort) es :=
  delivery_law exampleKernel examplePort _ (by decide +kernel)

theorem delivery_law_fails_after_renumbering :
    ¬ ∀ es : List Event, Run.Each (step exampleKernel) Given (start examplePort) es →
      Run.Each (step exampleKernel) (Law exampleKernel) (start examplePort) es := by
  intro h
  have hlaw := h [
    .tx (exampleSkb (localAddr 3) #v[10, 0, 0, 1] #v[10, 0, 0, 9]) true (some 0),
    .tx (exampleSkb (localAddr 3) #v[10, 0, 0, 1] #v[10, 0, 0, 9]) true none,
    .tx (exampleSkb (localAddr 3) #v[10, 0, 0, 2] #v[10, 0, 0, 9]) true (some 1),
    .rx (exampleSkb (localAddr 8) #v[10, 0, 0, 9] #v[10, 0, 0, 2])] (by decide +kernel)
  revert hlaw
  decide +kernel

end Observed

end Bridge
