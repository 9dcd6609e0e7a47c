import Rtl8188fu.Scan.QueueInvariant

namespace Scan

open Recv (MacAddr localAddr)
open Run

variable {κ : Type} (keys : BcnKeyFns κ)

inductive ScanEvent where
  | update (env : ScanEnv) (target : BssidEx)
  | freeNolock (p : ℕ)
  | free (now : ℕ) (adhoc isfreeall : Bool) (p : ℕ)
  | freeQueue (now : ℕ) (adhoc isfreeall : Bool)
  | flush
  | setFixed (p : ℕ) (b : Bool)

namespace ScanSys

def init (n : ℕ) (nets : ℕ → WlanNetwork κ) : ScanSys κ :=
  ⟨⟨List.range n, [], 0, nets⟩, fun _ => []⟩

def hear (env : ScanEnv) (s : ScanSys κ) (target : BssidEx) : ℕ → List BssidEx :=
  match s.mlme.placement env target with
  | .refreshed p => Function.update s.heard p (s.heard p ++ [target])
  | .replaced p => Function.update s.heard p [target]
  | .taken p => Function.update s.heard p [target]
  | .dropped => s.heard

def step (s : ScanSys κ) : ScanEvent → ScanSys κ
  | .update env target => ⟨s.mlme.rtwUpdateScannedNetwork keys env target, s.hear env target⟩
  | .freeNolock p => { s with mlme := s.mlme.rtwFreeNetworkNolock p }
  | .free now adhoc isfreeall p => { s with mlme := s.mlme.rtwFreeNetwork now adhoc isfreeall p }
  | .freeQueue now adhoc isfreeall =>
    { s with mlme := s.mlme.rtwFreeNetworkQueue now adhoc isfreeall }
  | .flush => { s with mlme := s.mlme.freeScanqueue }
  | .setFixed p b => { s with mlme := s.mlme.setNet p { s.mlme.nets p with fixed := b } }

def Given (s : ScanSys κ) : ScanEvent → Prop
  | .update env target => 12 ≤ target.ieLength ∧
    match s.mlme.placement env target with
    | .refreshed p => Settled keys env s.mlme target p
    | _ => True
  | .freeNolock p => p ∈ s.mlme.scannedQueue
  | .free _ _ _ p => p ∈ s.mlme.scannedQueue
  | _ => True

def Queued (s : ScanSys κ) : ScanEvent → Prop
  | .freeNolock p => p ∈ s.mlme.scannedQueue
  | .free _ _ _ p => p ∈ s.mlme.scannedQueue
  | _ => True

structure Aged (now : ℕ) (adhoc isfreeall : Bool) (w : WlanNetwork κ) : Prop where
  notFixed : w.fixed = false
  old : isfreeall = true ∨ MlmePriv.freeLifetime adhoc ≤ now - w.lastScanned

def Freed (s : ScanSys κ) (p : ℕ) : ScanEvent → Prop
  | .freeNolock q => p = q ∧ (s.mlme.nets p).fixed = false
  | .free now adhoc isfreeall q => p = q ∧ Aged now adhoc isfreeall (s.mlme.nets p)
  | .freeQueue now adhoc isfreeall => Aged now adhoc isfreeall (s.mlme.nets p)
  | .flush => True
  | _ => False

def spares : ScanEvent → Bool
  | .flush => false
  | .setFixed _ _ => false
  | _ => true

structure Stays (s t : ScanSys κ) (p : ℕ) : Prop where
  macAddress : (t.mlme.nets p).network.macAddress = (s.mlme.nets p).network.macAddress
  fixed : (t.mlme.nets p).fixed = (s.mlme.nets p).fixed
  heard : s.heard p <+: t.heard p

def isFlush : ScanEvent → Bool
  | .flush => true
  | _ => false

-- the events that leave a fixed entry p fixed
def holds (p : ℕ) : ScanEvent → Bool
  | .flush => false
  | .setFixed q b => b || q != p
  | _ => true

structure Held (s t : ScanSys κ) (p : ℕ) : Prop where
  queued : p ∈ t.mlme.scannedQueue
  macAddress : (t.mlme.nets p).network.macAddress = (s.mlme.nets p).network.macAddress

def ReplacedBy (s : ScanSys κ) (p : ℕ) (e : ScanEvent) : Prop :=
  ∃ env target, e = .update env target ∧ s.mlme.placement env target = .replaced p

structure Lawful (s : ScanSys κ) (e : ScanEvent) : Prop where
  removed : ∀ p ∈ s.mlme.scannedQueue, p ∉ (step keys s e).mlme.scannedQueue → Freed s p e
  kept : ∀ p ∈ s.mlme.scannedQueue, p ∈ (step keys s e).mlme.scannedQueue →
    spares e = true → ReplacedBy s p e ∨ Stays s (step keys s e) p
  evicted : ∀ env target p, e = .update env target →
    s.mlme.placement env target = .replaced p → s.mlme.Evictable env target p
  fixed : isFlush e = false → ∀ p ∈ s.mlme.scannedQueue, (s.mlme.nets p).fixed = true →
    Held s (step keys s e) p ∧ (spares e = true → Stays s (step keys s e) p)
  pinned : ∀ p b, e = .setFixed p b → ∀ q ∈ s.mlme.scannedQueue,
    Held s (step keys s e) q ∧ (step keys s e).heard q = s.heard q ∧
      ((step keys s e).mlme.nets q).fixed = if q = p then b else (s.mlme.nets q).fixed

structure Sheds (gone : ℕ → WlanNetwork κ → Prop) (s t : ScanSys κ) : Prop where
  nets : t.mlme.nets = s.mlme.nets
  heard : t.heard = s.heard
  left : ∀ p ∈ s.mlme.scannedQueue, p ∈ t.mlme.scannedQueue ∨ gone p (s.mlme.nets p)

theorem Sheds.stays {gone : ℕ → WlanNetwork κ → Prop} {s t : ScanSys κ} (h : Sheds gone s t)
    (p : ℕ) : Stays s t p := by
  constructor
  · rw [h.nets]
  · rw [h.nets]
  · rw [h.heard]

section Frees

variable {keys} {n : ℕ} {gone : ℕ → WlanNetwork κ → Prop} {P : ScanSys κ → Prop}

theorem sheds_self (s : ScanSys κ) : Sheds gone s s :=
  ⟨rfl, rfl, fun _ hp => .inl hp⟩

theorem sheds_drop {s : ScanSys κ} {p : ℕ} (hgone : gone p (s.mlme.nets p)) :
    Sheds gone s { s with mlme := s.mlme.dropNetwork p } := by
  refine ⟨rfl, rfl, fun q hq => ?_⟩
  cases Decidable.eq_or_ne q p with
  | inl heq => rw [heq]; exact .inr hgone
  | inr hne => exact .inl (List.mem_filter.mpr ⟨hq, by simpa using hne⟩)

theorem Sheds.mono {less : ℕ → WlanNetwork κ → Prop} {s t : ScanSys κ} (h : Sheds less s t)
    (hless : ∀ p w, less p w → gone p w) : Sheds gone s t :=
  ⟨h.nets, h.heard, fun p hp => (h.left p hp).imp_right (hless p _)⟩

theorem Sheds.trans {s t u : ScanSys κ} (hst : Sheds gone s t) (htu : Sheds gone t u) :
    Sheds gone s u := by
  refine ⟨htu.nets.trans hst.nets, htu.heard.trans hst.heard, fun p hp => ?_⟩
  rcases hst.left p hp with hstay | hleft
  · have hlater := htu.left p hstay
    rw [hst.nets] at hlater
    exact hlater
  · exact .inr hleft

def KeptByDrops (P : ScanSys κ → Prop) : Prop :=
  ∀ s p, P s → p ∈ s.mlme.scannedQueue → P { s with mlme := s.mlme.dropNetwork p }

def Drops (gone : ℕ → WlanNetwork κ → Prop) (op : MlmePriv κ → ℕ → MlmePriv κ) : Prop :=
  ∀ m p, op m p = m ∨ op m p = m.dropNetwork p ∧ gone p (m.nets p)

theorem drops_one (hP : KeptByDrops P) {op : MlmePriv κ → ℕ → MlmePriv κ} (hop : Drops gone op)
    {s : ScanSys κ} (h : P s) {p : ℕ} (hp : p ∈ s.mlme.scannedQueue) :
    P { s with mlme := op s.mlme p } ∧
      Sheds (fun q w => q = p ∧ gone q w) s { s with mlme := op s.mlme p } := by
  rcases hop s.mlme p with hkeep | ⟨hdrop, hgone⟩
  · rw [hkeep]
    exact ⟨h, sheds_self s⟩
  · rw [hdrop]
    exact ⟨hP s p h hp, sheds_drop ⟨rfl, hgone⟩⟩

theorem drops_mem {op : MlmePriv κ → ℕ → MlmePriv κ} (hop : Drops gone op) {m : MlmePriv κ}
    {p q : ℕ} (hq : q ∈ m.scannedQueue) (hne : q ≠ p) : q ∈ (op m p).scannedQueue := by
  rcases hop m p with hkeep | ⟨hdrop, -⟩
  · rw [hkeep]
    exact hq
  · rw [hdrop]
    exact List.mem_filter.mpr ⟨hq, by simpa using hne⟩

theorem drops_all (hP : KeptByDrops P) {op : MlmePriv κ → ℕ → MlmePriv κ} (hop : Drops gone op)
    {ps : List ℕ} (hps : ps.Nodup) {s : ScanSys κ} (h : P s)
    (hqueued : ∀ p ∈ ps, p ∈ s.mlme.scannedQueue) :
    P { s with mlme := ps.foldl op s.mlme } ∧
      Sheds gone s { s with mlme := ps.foldl op s.mlme } := by
  induction ps generalizing s with
  | nil => exact ⟨h, sheds_self s⟩
  | cons p ps ih =>
    obtain ⟨hfresh, hrest⟩ := List.nodup_cons.mp hps
    obtain ⟨hinv, hsheds⟩ := drops_one hP hop h (hqueued p List.mem_cons_self)
    have hlater : ∀ q ∈ ps, q ∈ (op s.mlme p).scannedQueue := by
      intro q hq
      refine drops_mem hop (hqueued q (List.mem_cons_of_mem p hq)) fun heq => ?_
      rw [heq] at hq
      exact hfresh hq
    obtain ⟨hall, hleft⟩ := ih hrest hinv hlater
    exact ⟨hall, (hsheds.mono fun _ _ hgone => hgone.2).trans hleft⟩

theorem drops_rtwFreeNetwork (now : ℕ) (adhoc isfreeall : Bool) :
    Drops (fun (_ : ℕ) (w : WlanNetwork κ) => Aged now adhoc isfreeall w)
      (fun m p => m.rtwFreeNetwork now adhoc isfreeall p) := by
  intro m p
  simp only [MlmePriv.rtwFreeNetwork]
  cases hfixed : (m.nets p).fixed with
  | true => exact .inl (if_pos rfl)
  | false =>
    rw [if_neg Bool.false_ne_true]
    cases Decidable.em (isfreeall = false ∧
        now - (m.nets p).lastScanned < MlmePriv.freeLifetime adhoc) with
    | inl hyoung => exact .inl (if_pos hyoung)
    | inr hold =>
      refine .inr ⟨if_neg hold, hfixed, ?_⟩
      cases hall : isfreeall with
      | true => exact .inl rfl
      | false => exact .inr (Nat.not_lt.mp fun hlt => hold ⟨hall, hlt⟩)

theorem drops_rtwFreeNetworkNolock :
    Drops (fun (_ : ℕ) (w : WlanNetwork κ) => w.fixed = false)
      MlmePriv.rtwFreeNetworkNolock := by
  intro m p
  simp only [MlmePriv.rtwFreeNetworkNolock]
  cases hfixed : (m.nets p).fixed with
  | true => exact .inl (if_pos rfl)
  | false => exact .inr ⟨if_neg Bool.false_ne_true, rfl⟩

theorem drops_dropNetwork : Drops (fun (_ : ℕ) (_ : WlanNetwork κ) => True) MlmePriv.dropNetwork :=
  fun _ _ => .inr ⟨rfl, trivial⟩

def isFree : ScanEvent → Bool
  | .update _ _ => false
  | .setFixed _ _ => false
  | _ => true

theorem frees (hP : KeptByDrops P) {s : ScanSys κ} (h : P s)
    (hnodup : s.mlme.scannedQueue.Nodup) {e : ScanEvent} (hfree : isFree e = true)
    (hqueued : Queued s e) :
    P (step keys s e) ∧
      Sheds (fun p w => w = s.mlme.nets p → Freed s p e) s (step keys s e) := by
  cases e with
  | update env target => exact absurd hfree Bool.false_ne_true
  | setFixed p b => exact absurd hfree Bool.false_ne_true
  | freeNolock p =>
    obtain ⟨hinv, hsheds⟩ := drops_one hP drops_rtwFreeNetworkNolock h hqueued
    exact ⟨hinv, hsheds.mono fun q w hgone hw => ⟨hgone.1, hw ▸ hgone.2⟩⟩
  | free now adhoc isfreeall p =>
    obtain ⟨hinv, hsheds⟩ := drops_one hP (drops_rtwFreeNetwork now adhoc isfreeall) h hqueued
    exact ⟨hinv, hsheds.mono fun q w hgone hw => ⟨hgone.1, hw ▸ hgone.2⟩⟩
  | freeQueue now adhoc isfreeall =>
    obtain ⟨hinv, hsheds⟩ :=
      drops_all hP (drops_rtwFreeNetwork now adhoc isfreeall) hnodup h fun _ hp => hp
    refine ⟨hinv, hsheds.mono fun q w hgone hw => ?_⟩
    subst hw
    exact hgone
  | flush =>
    obtain ⟨hinv, hsheds⟩ := drops_all hP drops_dropNetwork hnodup h fun _ hp => hp
    exact ⟨hinv, hsheds.mono fun q w hgone hw => hgone⟩

theorem slots_kept : KeptByDrops (fun s : ScanSys κ => Slots n s.mlme) :=
  fun _ _ h hp => h.drop hp

theorem lawful_free {s : ScanSys κ} (h : Slots n s.mlme) {e : ScanEvent} (hfree : isFree e = true)
    (hqueued : Queued s e) : Lawful keys s e := by
  have hsheds : Sheds (fun p w => w = s.mlme.nets p → Freed s p e) s (step keys s e) :=
    (frees slots_kept h h.scanned_nodup hfree hqueued).2
  have hleft : ∀ p ∈ s.mlme.scannedQueue,
      p ∈ (step keys s e).mlme.scannedQueue ∨ Freed s p e :=
    fun p hp => (hsheds.left p hp).imp_right fun hgone => hgone rfl
  have hfixed : ∀ p, (s.mlme.nets p).fixed = true → isFlush e = false → ¬ Freed s p e := by
    intro p hp hflush hfreed
    cases e with
    | update env target => exact hfreed
    | setFixed q b => exact hfreed
    | flush => exact Bool.false_ne_true hflush.symm
    | freeNolock q => exact Bool.false_ne_true (hfreed.2.symm.trans hp)
    | free now adhoc isfreeall q => exact Bool.false_ne_true (hfreed.2.notFixed.symm.trans hp)
    | freeQueue now adhoc isfreeall => exact Bool.false_ne_true (hfreed.notFixed.symm.trans hp)
  constructor
  · exact fun p hp hgone => (hleft p hp).resolve_left hgone
  · exact fun p _ _ _ => .inr (hsheds.stays p)
  · rintro env target p rfl
    exact absurd hfree Bool.false_ne_true
  · intro hflush p hp hfix
    have hstays := hsheds.stays p
    exact ⟨⟨(hleft p hp).resolve_right (hfixed p hfix hflush), hstays.macAddress⟩,
      fun _ => hstays⟩
  · rintro p b rfl
    exact absurd hfree Bool.false_ne_true

end Frees

section Updates

variable {keys} {n : ℕ}

theorem step_update_cases (keys : BcnKeyFns κ) (s : ScanSys κ) (env : ScanEnv)
    (target : BssidEx) :
    (∃ p, s.mlme.placement env target = .refreshed p ∧ p ∈ s.mlme.scannedQueue ∧
      MlmePriv.matchesTarget env.p2p (s.mlme.nets p).network target = true ∧
      step keys s (.update env target) =
        ⟨s.mlme.setNet p (MlmePriv.updateNet keys env (s.mlme.nets p) target),
          Function.update s.heard p (s.heard p ++ [target])⟩) ∨
    (∃ p, s.mlme.placement env target = .replaced p ∧ s.mlme.Evictable env target p ∧
      step keys s (.update env target) =
        ⟨s.mlme.setNet p (MlmePriv.replaceNet keys env (s.mlme.nets p) target),
          Function.update s.heard p [target]⟩) ∨
    (∃ p rest, s.mlme.placement env target = .taken p ∧ s.mlme.Unmatched env target ∧
      s.mlme.freeBssPool = p :: rest ∧
      step keys s (.update env target) =
        ⟨s.mlme.store keys env p rest target, Function.update s.heard p [target]⟩) ∨
    (s.mlme.placement env target = .dropped ∧ s.mlme.freeBssPool = [] ∧
      (∀ p ∈ s.mlme.scannedQueue, (s.mlme.nets p).fixed = true) ∧
      step keys s (.update env target) = s) := by
  rcases MlmePriv.update_cases keys env s.mlme target with
    ⟨p, hplace, hp, hmatch, heq⟩ | ⟨p, hplace, hevict, heq⟩ | ⟨p, rest, hplace, hmiss, hfree, heq⟩ |
    ⟨hplace, hempty, hfixed, heq⟩
  · exact .inl ⟨p, hplace, hp, hmatch, by simp only [step, hear, hplace, heq]⟩
  · exact .inr (.inl ⟨p, hplace, hevict, by simp only [step, hear, hplace, heq]⟩)
  · exact .inr (.inr (.inl ⟨p, rest, hplace, hmiss, hfree, by simp only [step, hear, hplace, heq]⟩))
  · exact .inr (.inr (.inr ⟨hplace, hempty, hfixed, by simp only [step, hear, hplace, heq]⟩))

theorem inv_update {s : ScanSys κ} (h : Inv keys n s) {env : ScanEnv} {target : BssidEx}
    (hgiven : Given keys s (.update env target)) :
    Inv keys n (step keys s (.update env target)) := by
  obtain ⟨hlen, hsettled⟩ := hgiven
  rcases step_update_cases keys s env target with
    ⟨p, hplace, hp, hmatch, heq⟩ | ⟨p, -, hevict, heq⟩ | ⟨p, rest, -, hmiss, hfree, heq⟩ |
    ⟨-, -, -, heq⟩
  · rw [heq]
    rw [hplace] at hsettled
    exact h.refreshed hlen hp hmatch hsettled
  · rw [heq]
    exact h.replaced hlen hevict
  · rw [heq]
    exact h.taken hlen hmiss hfree
  · rw [heq]
    exact h

theorem stays_of_ne {s : ScanSys κ} {m : MlmePriv κ} {p q : ℕ} {w : WlanNetwork κ}
    {fs : List BssidEx} (hnets : m.nets = Function.update s.mlme.nets p w) (hne : q ≠ p) :
    Stays s ⟨m, Function.update s.heard p fs⟩ q := by
  constructor
  · rw [hnets, Function.update_of_ne hne]
  · rw [hnets, Function.update_of_ne hne]
  · simp only [Function.update_of_ne hne]
    exact List.prefix_rfl

theorem update_stays {s : ScanSys κ} (h : Slots n s.mlme) (env : ScanEnv) (target : BssidEx) {q : ℕ}
    (hq : q ∈ s.mlme.scannedQueue) :
    q ∈ (step keys s (.update env target)).mlme.scannedQueue ∧
      (s.mlme.placement env target = .replaced q ∨ Stays s (step keys s (.update env target)) q) := by
  rcases step_update_cases keys s env target with
    ⟨p, -, hp, hmatch, heq⟩ | ⟨p, hplace, -, heq⟩ | ⟨p, rest, -, -, hfree, heq⟩ | ⟨-, -, -, heq⟩
  · rw [heq]
    refine ⟨hq, .inr ?_⟩
    cases Decidable.eq_or_ne q p with
    | inl hqp =>
      have hmac := MlmePriv.matchesTarget_macAddress hmatch
      subst hqp
      constructor
      · simp only [MlmePriv.setNet, Function.update_self]
        rw [updateNet_macAddress hmac, hmac]
      · simp only [MlmePriv.setNet, Function.update_self, updateNet_fixed]
      · simp only [Function.update_self]
        exact List.prefix_append (s.heard q) [target]
    | inr hne => exact stays_of_ne rfl hne
  · rw [heq]
    cases Decidable.eq_or_ne q p with
    | inl hqp => rw [hqp]; exact ⟨hqp ▸ hq, .inl hplace⟩
    | inr hne => exact ⟨hq, .inr (stays_of_ne rfl hne)⟩
  · have hne : q ≠ p := by
      rintro rfl
      refine h.exclusive hq ?_
      rw [hfree]
      exact List.mem_cons_self
    rw [heq]
    exact ⟨List.mem_append_left [p] hq, .inr (stays_of_ne rfl hne)⟩
  · rw [heq]
    exact ⟨hq, .inr ⟨rfl, rfl, List.prefix_rfl⟩⟩

theorem evictable_of_replaced (keys : BcnKeyFns κ) (s : ScanSys κ) {env : ScanEnv} {target : BssidEx} {p : ℕ}
    (hplace : s.mlme.placement env target = .replaced p) : s.mlme.Evictable env target p := by
  rcases MlmePriv.update_cases keys env s.mlme target with
    ⟨q, hq, -⟩ | ⟨q, hq, hevict, -⟩ | ⟨q, rest, hq, -⟩ | ⟨hq, -⟩
  · exact absurd (hplace.symm.trans hq) nofun
  · rw [hplace] at hq
    rw [MlmePriv.Placement.replaced.inj hq]
    exact hevict
  · exact absurd (hplace.symm.trans hq) nofun
  · exact absurd (hplace.symm.trans hq) nofun

theorem lawful_update {s : ScanSys κ} (h : Slots n s.mlme) (env : ScanEnv) (target : BssidEx) :
    Lawful keys s (.update env target) := by
  constructor
  · exact fun p hp hgone => absurd (update_stays h env target hp).1 hgone
  · intro p hp _ _
    rcases (update_stays h env target hp).2 with hplace | hstays
    · exact .inl ⟨env, target, rfl, hplace⟩
    · exact .inr hstays
  · rintro env' target' p ⟨⟩ hplace
    exact evictable_of_replaced keys s hplace
  · intro _ p hp hfixed
    obtain ⟨hmem, hplace | hstays⟩ := update_stays h env target hp
    · have hevict := evictable_of_replaced keys s hplace
      rw [hevict.notFixed] at hfixed
      exact absurd hfixed Bool.false_ne_true
    · exact ⟨⟨hmem, hstays.macAddress⟩, fun _ => hstays⟩
  · exact nofun

theorem slots_update {s : ScanSys κ} (h : Slots n s.mlme) (env : ScanEnv) (target : BssidEx) :
    Slots n (step keys s (.update env target)).mlme := by
  rcases step_update_cases keys s env target with
    ⟨p, -, -, -, heq⟩ | ⟨p, -, -, heq⟩ | ⟨p, rest, -, -, hfree, heq⟩ | ⟨-, -, -, heq⟩
  · rw [heq]
    exact h.setNet p _
  · rw [heq]
    exact h.setNet p _
  · rw [heq]
    exact h.store keys hfree env target
  · rw [heq]
    exact h

theorem Given.queued {s : ScanSys κ} {e : ScanEvent} (h : Given keys s e) : Queued s e := by
  cases e with
  | freeNolock p => exact h
  | free now adhoc isfreeall p => exact h
  | _ => trivial

theorem slots_step {s : ScanSys κ} (h : Slots n s.mlme) {e : ScanEvent} (hqueued : Queued s e) :
    Slots n (step keys s e).mlme := by
  cases hfree : isFree e with
  | true => exact (frees slots_kept h h.scanned_nodup hfree hqueued).1
  | false =>
    cases e with
    | update env target => exact slots_update h env target
    | setFixed p b => exact h.setNet p _
    | freeNolock p => exact absurd hfree nofun
    | free now adhoc isfreeall p => exact absurd hfree nofun
    | freeQueue now adhoc isfreeall => exact absurd hfree nofun
    | flush => exact absurd hfree nofun

theorem inv_step {s : ScanSys κ} (h : Inv keys n s) {e : ScanEvent} (hgiven : Given keys s e) :
    Inv keys n (step keys s e) := by
  cases hfree : isFree e with
  | true =>
    exact (frees (fun _ _ hs hp => hs.drop hp) h h.slots.scanned_nodup hfree hgiven.queued).1
  | false =>
    cases e with
    | update env target => exact inv_update h hgiven
    | setFixed p b => exact h.setFixed p b
    | freeNolock p => exact absurd hfree nofun
    | free now adhoc isfreeall p => exact absurd hfree nofun
    | freeQueue now adhoc isfreeall => exact absurd hfree nofun
    | flush => exact absurd hfree nofun

theorem setFixed_nets (s : ScanSys κ) (p q : ℕ) (b : Bool) :
    (step keys s (.setFixed p b)).mlme.nets q =
      { s.mlme.nets q with fixed := if q = p then b else (s.mlme.nets q).fixed } := by
  simp only [step, MlmePriv.setNet]
  cases Decidable.eq_or_ne q p with
  | inl heq => rw [heq, Function.update_self, if_pos rfl]
  | inr hne => rw [Function.update_of_ne hne, if_neg hne]

theorem lawful_setFixed (s : ScanSys κ) (p : ℕ) (b : Bool) : Lawful keys s (.setFixed p b) := by
  have hheld : ∀ q ∈ s.mlme.scannedQueue, Held s (step keys s (.setFixed p b)) q :=
    fun q hq => ⟨hq, by rw [setFixed_nets]⟩
  constructor
  · exact fun q hq hgone => absurd hq hgone
  · exact fun q _ _ hspares => absurd hspares Bool.false_ne_true
  · exact nofun
  · exact fun _ q hq _ => ⟨hheld q hq, fun hspares => absurd hspares Bool.false_ne_true⟩
  · rintro p' b' ⟨⟩ q hq
    exact ⟨hheld q hq, rfl, by rw [setFixed_nets]⟩

theorem lawful_step {s : ScanSys κ} (h : Slots n s.mlme) {e : ScanEvent} (hqueued : Queued s e) :
    Lawful keys s e := by
  cases hfree : isFree e with
  | true => exact lawful_free h hfree hqueued
  | false =>
    cases e with
    | update env target => exact lawful_update h env target
    | setFixed p b => exact lawful_setFixed s p b
    | freeNolock p => exact absurd hfree nofun
    | free now adhoc isfreeall p => exact absurd hfree nofun
    | freeQueue now adhoc isfreeall => exact absurd hfree nofun
    | flush => exact absurd hfree nofun

theorem Lawful.held_fixed {s : ScanSys κ} {e : ScanEvent} (h : Lawful keys s e) {p : ℕ}
    (hholds : holds p e = true) (hp : p ∈ s.mlme.scannedQueue)
    (hfixed : (s.mlme.nets p).fixed = true) :
    Held s (step keys s e) p ∧ ((step keys s e).mlme.nets p).fixed = true := by
  have hflush : isFlush e = false := by
    cases e with
    | flush => exact absurd hholds Bool.false_ne_true
    | _ => rfl
  obtain ⟨hheld, hstays⟩ := h.fixed hflush p hp hfixed
  refine ⟨hheld, ?_⟩
  cases hspares : spares e with
  | true => exact (hstays hspares).fixed.trans hfixed
  | false =>
    cases e with
    | setFixed q b =>
      rw [(h.pinned q b rfl p hp).2.2]
      split
      · rename_i hpq
        subst hpq
        simpa [holds] using hholds
      · exact hfixed
    | flush => exact absurd hflush nofun
    | _ => exact absurd hspares nofun

-- by induction on the events: each is lawful, and a lawful event that holds p keeps it fixed
theorem held_run {p : ℕ} (es : List ScanEvent) {s : ScanSys κ} (h : Slots n s.mlme)
    (hes : Each (step keys) Queued s es) (hholds : ∀ e ∈ es, holds p e = true)
    (hp : p ∈ s.mlme.scannedQueue) (hfixed : (s.mlme.nets p).fixed = true) :
    Held s (exec (step keys) s es) p := by
  induction es generalizing s with
  | nil => exact ⟨hp, rfl⟩
  | cons e es ih =>
    obtain ⟨hqueued, hrest⟩ := hes
    obtain ⟨hheld, hstill⟩ := (lawful_step h hqueued).held_fixed
      (hholds e List.mem_cons_self) hp hfixed
    have hlater := ih (slots_step h hqueued) hrest
      (fun f hf => hholds f (List.mem_cons_of_mem e hf)) hheld.queued hstill
    exact ⟨hlater.queued, hlater.macAddress.trans hheld.macAddress⟩

end Updates

section Runs

variable {n : ℕ} {nets : ℕ → WlanNetwork κ}

theorem inv_init : Inv keys n (init n nets) :=
  ⟨⟨List.Perm.of_eq (List.append_nil _), rfl⟩, nofun, nofun⟩

theorem queue_runs {es : List ScanEvent} (hes : Each (step keys) Queued (init n nets) es) :
    Slots n (exec (step keys) (init n nets) es).mlme ∧
      Each (step keys) (Lawful keys) (init n nets) es ∧
      (∀ before after p, es = before ++ after → (∀ e ∈ after, holds p e = true) →
        let s := exec (step keys) (init n nets) before
        p ∈ s.mlme.scannedQueue → (s.mlme.nets p).fixed = true →
          Held s (exec (step keys) (init n nets) es) p) ∧
      (Each (step keys) (Given keys) (init n nets) es →
        Inv keys n (exec (step keys) (init n nets) es)) := by
  have hinv : Inv keys n (init n nets) := inv_init keys
  have hslots {fs : List ScanEvent} (hfs : Each (step keys) Queued (init n nets) fs) :
      Slots n (exec (step keys) (init n nets) fs).mlme :=
    each_invariant _ _ (fun s => Slots n s.mlme) (fun _ _ h he => slots_step h he) hinv.slots hfs
  refine ⟨hslots hes, ?_, ?_, ?_⟩
  · exact each_of_each _ _ _ (fun s => Slots n s.mlme) (fun _ _ h he => lawful_step h he)
      (fun _ _ h he => slots_step h he) hinv.slots hes
  · rintro before after p rfl hholds s hp hfixed
    obtain ⟨hbefore, hafter⟩ := (each_append _ _ _ before after).mp hes
    have hrun : exec (step keys) (init n nets) (before ++ after) = exec (step keys) s after :=
      List.foldl_append
    rw [hrun]
    exact held_run after (hslots hbefore) hafter hholds hp hfixed
  · exact each_invariant _ _ (Inv keys n) (fun _ _ h he => inv_step h he) hinv

def loneBeacon : BssidEx where
  macAddress := Vector.replicate 6 2
  bssType := bssTypeBcn
  ssid := [0x61]
  dsConfig := 1
  infrastructureMode := .infrastructure
  signalStrength := 40
  signalQuality := 90
  ieLength := 12
  ies := fun _ => 0

def farBeacon : BssidEx :=
  { loneBeacon with macAddress := Vector.replicate 6 4, ssid := [0x62], signalStrength := 20 }

def noKeys : BcnKeyFns Unit := ⟨fun _ _ => (⟨[], ()⟩, false), fun _ _ => true⟩

def scanAt (now : ℕ) : ScanEnv := ⟨now, false, none, 0, 0⟩

-- a pool of two is filled, the first network is heard again and pinned, a third evicts the second,
-- and of the two left only the one that is not pinned ages out
def heardRun : List ScanEvent :=
  [.update (scanAt 5) loneBeacon, .update (scanAt 6) farBeacon, .update (scanAt 7) loneBeacon,
    .setFixed 0 true,
    .update (scanAt 8) { farBeacon with macAddress := Vector.replicate 6 6, ssid := [0x63] },
    .freeQueue 20008 false false]

def blankNet : WlanNetwork Unit := ⟨loneBeacon, false, 0, 0, ⟨[], ()⟩, false⟩

theorem queue_runs_heard :
    let s := exec (step noKeys) (init 2 fun _ => blankNet) heardRun
    s.mlme.numOfScanned = 1 ∧ Held (exec (step noKeys) (init 2 fun _ => blankNet)
      (heardRun.take 4)) s 0 ∧ Inv noKeys 2 s := by
  have hqueued : Each (step noKeys) Queued (init 2 fun _ => blankNet) heardRun :=
    ⟨trivial, trivial, trivial, trivial, trivial, trivial, trivial⟩
  have hgiven : Each (step noKeys) (Given noKeys) (init 2 fun _ => blankNet) heardRun :=
    ⟨⟨by decide, trivial⟩, ⟨by decide, trivial⟩, ⟨by decide, by decide, by decide⟩, trivial,
      ⟨by decide, trivial⟩, trivial, trivial⟩
  obtain ⟨hslots, -, hpinned, hinv⟩ := queue_runs noKeys hqueued
  exact ⟨hslots.count.trans (by decide),
    hpinned (heardRun.take 4) (heardRun.drop 4) 0 rfl (by decide) (by decide) (by decide),
    hinv hgiven⟩

end Runs

end ScanSys

end Scan
