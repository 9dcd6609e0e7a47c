import Mathlib.Tactic.Common
import Rtl8188fu.Scan.Queue

namespace Scan

variable {κ : Type}

namespace MlmePriv

inductive Placement where
  | refreshed (p : ℕ)
  | replaced (p : ℕ)
  | taken (p : ℕ)
  | dropped

def placement (env : ScanEnv) (m : MlmePriv κ) (target : BssidEx) : Placement :=
  match searchLoop env.p2p m.nets target m.scannedQueue none with
  | (some p, _) => .refreshed p
  | (none, choice) =>
    match m.freeBssPool with
    | [] =>
      match choice with
      | none => .dropped
      | some p => .replaced p
    | p :: _ => .taken p

def Unmatched (env : ScanEnv) (m : MlmePriv κ) (target : BssidEx) : Prop :=
  ∀ p ∈ m.scannedQueue, matchesTarget env.p2p (m.nets p).network target = false

def Weakest (m : MlmePriv κ) (p : ℕ) : Prop :=
  ∀ q ∈ m.scannedQueue, (m.nets q).fixed = false →
    (m.nets p).network.signalStrength ≤ (m.nets q).network.signalStrength

structure Evictable (env : ScanEnv) (m : MlmePriv κ) (target : BssidEx) (p : ℕ) : Prop where
  poolEmpty : m.freeBssPool = []
  unmatched : m.Unmatched env target
  queued : p ∈ m.scannedQueue
  notFixed : (m.nets p).fixed = false
  weakest : m.Weakest p

structure Choice (nets : ℕ → WlanNetwork κ) (seen : List ℕ) (choice : Option ℕ) : Prop where
  chosen : ∀ c, choice = some c → c ∈ seen ∧ (nets c).fixed = false
  least : ∀ q ∈ seen, (nets q).fixed = false → ∃ c, choice = some c ∧
    (nets c).network.signalStrength ≤ (nets q).network.signalStrength

theorem Choice.nil (nets : ℕ → WlanNetwork κ) : Choice nets [] none :=
  ⟨nofun, nofun⟩

theorem Choice.skip {nets : ℕ → WlanNetwork κ} {seen : List ℕ} {choice : Option ℕ}
    (h : Choice nets seen choice) {p : ℕ} (hp : (nets p).fixed = true) :
    Choice nets (seen ++ [p]) choice := by
  constructor
  · intro c hc
    exact ⟨List.mem_append_left _ (h.chosen c hc).1, (h.chosen c hc).2⟩
  · intro q hq hfixed
    rcases List.mem_append.mp hq with hq | hq
    · exact h.least q hq hfixed
    · rw [List.mem_singleton.mp hq, hp] at hfixed
      exact absurd hfixed Bool.noConfusion

theorem weaker_cases (nets : ℕ → WlanNetwork κ) (choice : Option ℕ) (p : ℕ) :
    (weaker nets choice p = some p ∧ ∀ c, choice = some c →
      (nets p).network.signalStrength < (nets c).network.signalStrength) ∨
    ∃ c, choice = some c ∧ weaker nets choice p = some c ∧
      (nets c).network.signalStrength ≤ (nets p).network.signalStrength := by
  cases choice with
  | none => exact .inl ⟨rfl, nofun⟩
  | some c =>
    simp only [weaker]
    cases Nat.lt_or_ge (nets p).network.signalStrength (nets c).network.signalStrength with
    | inl h =>
      rw [if_pos h]
      refine .inl ⟨rfl, ?_⟩
      rintro _ ⟨⟩
      exact h
    | inr h =>
      rw [if_neg (Nat.not_lt.mpr h)]
      exact .inr ⟨c, rfl, rfl, h⟩

theorem Choice.weaker {nets : ℕ → WlanNetwork κ} {seen : List ℕ} {choice : Option ℕ}
    (h : Choice nets seen choice) {p : ℕ} (hp : (nets p).fixed = false) :
    Choice nets (seen ++ [p]) (MlmePriv.weaker nets choice p) := by
  rcases weaker_cases nets choice p with ⟨hnew, hlt⟩ | ⟨c, hc, hold, hle⟩
  · constructor
    · intro d hd
      have hdp : p = d := Option.some.inj (hnew.symm.trans hd)
      subst hdp
      exact ⟨by simp, hp⟩
    · intro q hq hfixed
      refine ⟨p, hnew, ?_⟩
      rcases List.mem_append.mp hq with hq | hq
      · obtain ⟨d, hd, hle⟩ := h.least q hq hfixed
        exact Nat.le_of_lt (Nat.lt_of_lt_of_le (hlt d hd) hle)
      · rw [List.mem_singleton.mp hq]
  · constructor
    · intro d hd
      have hdc : c = d := Option.some.inj (hold.symm.trans hd)
      subst hdc
      exact ⟨List.mem_append_left _ (h.chosen c hc).1, (h.chosen c hc).2⟩
    · intro q hq hfixed
      refine ⟨c, hold, ?_⟩
      rcases List.mem_append.mp hq with hq | hq
      · obtain ⟨d, hd, hle⟩ := h.least q hq hfixed
        rw [← Option.some.inj (hc.symm.trans hd)] at hle
        exact hle
      · rw [List.mem_singleton.mp hq]
        exact hle

theorem searchLoop_found {p2p : Bool} {nets : ℕ → WlanNetwork κ} {target : BssidEx} {p : ℕ} :
    ∀ {ps : List ℕ} {choice : Option ℕ},
      (searchLoop p2p nets target ps choice).1 = some p →
      p ∈ ps ∧ matchesTarget p2p (nets p).network target = true := by
  intro ps
  induction ps with
  | nil => exact nofun
  | cons q ps ih =>
    intro choice h
    simp only [searchLoop] at h
    cases hmatch : matchesTarget p2p (nets q).network target with
    | true =>
      rw [if_pos hmatch] at h
      rw [← Option.some.inj h]
      exact ⟨List.mem_cons_self, hmatch⟩
    | false =>
      rw [hmatch, if_neg Bool.false_ne_true] at h
      cases hfixed : (nets q).fixed with
      | true =>
        rw [if_pos hfixed] at h
        exact ⟨List.mem_cons_of_mem _ (ih h).1, (ih h).2⟩
      | false =>
        rw [hfixed, if_neg Bool.false_ne_true] at h
        exact ⟨List.mem_cons_of_mem _ (ih h).1, (ih h).2⟩

theorem searchLoop_missed {p2p : Bool} {nets : ℕ → WlanNetwork κ} {target : BssidEx} :
    ∀ {ps seen : List ℕ} {choice : Option ℕ}, Choice nets seen choice →
      (searchLoop p2p nets target ps choice).1 = none →
      (∀ p ∈ ps, matchesTarget p2p (nets p).network target = false) ∧
        Choice nets (seen ++ ps) (searchLoop p2p nets target ps choice).2 := by
  intro ps
  induction ps with
  | nil =>
    intro seen choice hchoice _
    rw [List.append_nil]
    exact ⟨nofun, hchoice⟩
  | cons q ps ih =>
    intro seen choice hchoice h
    simp only [searchLoop] at h ⊢
    cases hmatch : matchesTarget p2p (nets q).network target with
    | true =>
      rw [if_pos hmatch] at h
      exact absurd h nofun
    | false =>
      have hseen : seen ++ q :: ps = seen ++ [q] ++ ps := by simp
      rw [hmatch, if_neg Bool.false_ne_true] at h
      rw [hseen, if_neg Bool.false_ne_true]
      cases hfixed : (nets q).fixed with
      | true =>
        rw [if_pos hfixed] at h
        rw [if_pos rfl]
        obtain ⟨hmissed, hlast⟩ := ih (hchoice.skip hfixed) h
        exact ⟨List.forall_mem_cons.mpr ⟨hmatch, hmissed⟩, hlast⟩
      | false =>
        rw [hfixed, if_neg Bool.false_ne_true] at h
        rw [if_neg Bool.false_ne_true]
        obtain ⟨hmissed, hlast⟩ := ih (hchoice.weaker hfixed) h
        exact ⟨List.forall_mem_cons.mpr ⟨hmatch, hmissed⟩, hlast⟩

theorem matchesTarget_macAddress {p2p : Bool} {net target : BssidEx}
    (h : matchesTarget p2p net target = true) : net.macAddress = target.macAddress := by
  cases Decidable.em (net.macAddress = target.macAddress) with
  | inl heq => exact heq
  | inr hne =>
    have hbeq : (net.macAddress == target.macAddress) = false := by simpa using hne
    simp [matchesTarget, isSameNetwork, hbeq, hne] at h

theorem matchesTarget_false {p2p : Bool} {net target : BssidEx}
    (h : matchesTarget p2p net target = false) : isSameNetwork net target false = false := by
  cases p2p with
  | false => simpa [matchesTarget] using h
  | true =>
    cases Decidable.em (net.macAddress = target.macAddress) with
    | inl heq => simp [matchesTarget, heq] at h
    | inr hne =>
      rw [← Bool.not_eq_true, isSameNetwork_false]
      exact fun hsame => hne hsame.1.1

variable (keys : BcnKeyFns κ)

def store (env : ScanEnv) (m : MlmePriv κ) (p : ℕ) (rest : List ℕ) (target : BssidEx) :
    MlmePriv κ :=
  let fresh := { m.nets p with
    fixed := false, lastScanned := env.now, lastNonHiddenSsidAp := env.now }
  { m.setNet p (dropWrongChannel (storeTarget keys fresh target)) with
    freeBssPool := rest
    scannedQueue := m.scannedQueue ++ [p]
    numOfScanned := m.numOfScanned + 1 }

theorem update_cases (env : ScanEnv) (m : MlmePriv κ) (target : BssidEx) :
    (∃ p, placement env m target = .refreshed p ∧ p ∈ m.scannedQueue ∧
      matchesTarget env.p2p (m.nets p).network target = true ∧
      m.rtwUpdateScannedNetwork keys env target =
        m.setNet p (updateNet keys env (m.nets p) target)) ∨
    (∃ p, placement env m target = .replaced p ∧ m.Evictable env target p ∧
      m.rtwUpdateScannedNetwork keys env target =
        m.setNet p (replaceNet keys env (m.nets p) target)) ∨
    (∃ p rest, placement env m target = .taken p ∧ m.Unmatched env target ∧
      m.freeBssPool = p :: rest ∧
      m.rtwUpdateScannedNetwork keys env target = m.store keys env p rest target) ∨
    (placement env m target = .dropped ∧ m.freeBssPool = [] ∧
      (∀ p ∈ m.scannedQueue, (m.nets p).fixed = true) ∧
      m.rtwUpdateScannedNetwork keys env target = m) := by
  cases hsearch : searchLoop env.p2p m.nets target m.scannedQueue none with
  | mk found choice =>
    cases found with
    | some p =>
      obtain ⟨hp, hmatch⟩ := searchLoop_found (congrArg Prod.fst hsearch)
      refine .inl ⟨p, ?_, hp, hmatch, ?_⟩
      · simp only [placement, hsearch]
      · simp only [rtwUpdateScannedNetwork, hsearch]
    | none =>
      obtain ⟨hmissed, hchoice⟩ := searchLoop_missed (Choice.nil m.nets) (congrArg Prod.fst hsearch)
      rw [hsearch, List.nil_append] at hchoice
      cases hfree : m.freeBssPool with
      | nil =>
        cases choice with
        | none =>
          have hfixed : ∀ p ∈ m.scannedQueue, (m.nets p).fixed = true := by
            intro p hp
            cases hf : (m.nets p).fixed with
            | true => rfl
            | false =>
              obtain ⟨c, hc, -⟩ := hchoice.least p hp hf
              exact absurd hc nofun
          refine .inr (.inr (.inr ⟨?_, rfl, hfixed, ?_⟩))
          · simp only [placement, hsearch, hfree]
          · simp only [rtwUpdateScannedNetwork, hsearch, hfree]
        | some p =>
          have hweakest : m.Weakest p := by
            intro q hq hfixed
            obtain ⟨c, hc, hle⟩ := hchoice.least q hq hfixed
            rw [Option.some.inj hc]
            exact hle
          refine .inr (.inl ⟨p, ?_, ⟨hfree, hmissed, (hchoice.chosen p rfl).1,
            (hchoice.chosen p rfl).2, hweakest⟩, ?_⟩)
          · simp only [placement, hsearch, hfree]
          · simp only [rtwUpdateScannedNetwork, hsearch, hfree]
      | cons p rest =>
        refine .inr (.inr (.inl ⟨p, rest, ?_, hmissed, rfl, ?_⟩))
        · simp only [placement, hsearch, hfree]
        · simp only [rtwUpdateScannedNetwork, hsearch, hfree, rtwAllocNetwork, store, setNet,
            Function.update_self, Function.update_idem]

end MlmePriv

end Scan
