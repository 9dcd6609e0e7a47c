import Mathlib.Data.List.Nodup
import Mathlib.Logic.Function.Basic
import Mathlib.Tactic.Common

namespace HashChains

inductive Slot (B P : Type) where
  | head (b : B)
  | next (p : P)
  deriving DecidableEq

structure Cell (B P V : Type) where
  next : Option P
  pprev : Option (Slot B P)
  val : V

structure Chains (B P V : Type) where
  head : B → Option P
  cell : P → Option (Cell B P V)

variable {B P V : Type}

namespace Chains

def empty : Chains B P V := ⟨fun _ => none, fun _ => none⟩

def read (c : Chains B P V) : Slot B P → Option P
  | .head b => c.head b
  | .next p => (c.cell p).bind Cell.next

variable [DecidableEq B] [DecidableEq P]

def modify (c : Chains B P V) (p : P) (f : Cell B P V → Cell B P V) : Chains B P V :=
  { c with cell := Function.update c.cell p ((c.cell p).map f) }

def write (c : Chains B P V) (q : Option P) : Slot B P → Chains B P V
  | .head b => { c with head := Function.update c.head b q }
  | .next p => c.modify p fun e => { e with next := q }

def setPprev (c : Chains B P V) (slot : Option (Slot B P)) : Option P → Chains B P V
  | none => c
  | some p => c.modify p fun e => { e with pprev := slot }

def link (c : Chains B P V) (b : B) (p : P) (v : V) : Chains B P V :=
  let next := c.head b
  let c := c.setPprev (some (.next p)) next
  ⟨Function.update c.head b (some p),
    Function.update c.cell p (some ⟨next, some (.head b), v⟩)⟩

def unlink (c : Chains B P V) (p : P) : Chains B P V :=
  match c.cell p with
  | none => c
  | some e =>
    let c := match e.pprev with
      | none => c
      | some slot => c.write e.next slot
    let c := c.setPprev e.pprev e.next
    c.modify p fun e => { e with next := none, pprev := none }

def free (c : Chains B P V) (p : P) : Chains B P V :=
  { c with cell := Function.update c.cell p none }

def setVal (c : Chains B P V) (p : P) (f : V → V) : Chains B P V :=
  c.modify p fun e => { e with val := f e.val }

def search (c : Chains B P V) (found : V → Bool) : ℕ → Option P → Option P
  | 0, _ => none
  | _, none => none
  | fuel + 1, some p =>
    match c.cell p with
    | none => none
    | some e => if found e.val then some p else search c found fuel e.next

def walk {S : Type} (chains : S → Chains B P V) (visit : S → P → S) : ℕ → Option P → S → S
  | 0, _, s => s
  | _, none, s => s
  | fuel + 1, some p, s =>
    match (chains s).cell p with
    | none => s
    | some e => walk chains visit fuel e.next (visit s p)

def sweep {S : Type} (chains : S → Chains B P V) (visit : S → P → S) (fuel : ℕ) (s : S)
    (bs : List B) : S :=
  bs.foldl (fun s b => walk chains visit fuel ((chains s).head b) s) s

end Chains

open Chains

def Chain (c : Chains B P V) : Slot B P → List (P × V) → Prop
  | slot, [] => c.read slot = none
  | slot, (p, v) :: xs =>
    c.read slot = some p ∧ (∃ e, c.cell p = some e ∧ e.pprev = some slot ∧ e.val = v) ∧
      Chain c (.next p) xs

def pointers (xs : List (P × V)) : List P := xs.map Prod.fst

theorem pointers_append (xs ys : List (P × V)) :
    pointers (xs ++ ys) = pointers xs ++ pointers ys := List.map_append

def lastSlot (slot : Slot B P) : List (P × V) → Slot B P
  | [] => slot
  | (p, _) :: xs => lastSlot (.next p) xs

theorem lastSlot_cases (slot : Slot B P) (xs : List (P × V)) :
    lastSlot slot xs = slot ∧ xs = [] ∨ ∃ p ∈ pointers xs, lastSlot slot xs = .next p := by
  induction xs generalizing slot with
  | nil => exact .inl ⟨rfl, rfl⟩
  | cons x xs ih =>
    refine .inr ?_
    rcases ih (.next x.1) with ⟨hlast, -⟩ | ⟨p, hp, hlast⟩
    · exact ⟨x.1, List.mem_cons_self, hlast⟩
    · exact ⟨p, List.mem_cons_of_mem _ hp, hlast⟩

theorem Chain.congr {c d : Chains B P V} {slot : Slot B P} {xs : List (P × V)}
    (h : Chain c slot xs) (hread : d.read slot = c.read slot)
    (hcell : ∀ p ∈ pointers xs, d.cell p = c.cell p) : Chain d slot xs := by
  induction xs generalizing slot with
  | nil => exact hread.trans h
  | cons x xs ih =>
    obtain ⟨hx, he, hrest⟩ := h
    have hcellx := hcell x.1 List.mem_cons_self
    refine ⟨hread.trans hx, ?_, ih hrest ?_ fun p hp => hcell p (List.mem_cons_of_mem _ hp)⟩
    · rw [hcellx]
      exact he
    · rw [Chains.read, Chains.read, hcellx]

theorem Chain.cell {c : Chains B P V} {slot : Slot B P} {xs : List (P × V)} (h : Chain c slot xs)
    {p : P} (hp : p ∈ pointers xs) : c.cell p ≠ none := by
  induction xs generalizing slot with
  | nil => cases hp
  | cons x xs ih =>
    obtain ⟨-, ⟨e, he, -⟩, hrest⟩ := h
    rcases List.mem_cons.mp hp with rfl | hp
    · rw [he]
      exact Option.some_ne_none e
    · exact ih hrest hp

theorem Chain.middle {c : Chains B P V} {slot : Slot B P} {xs ys : List (P × V)} {p : P} {v : V}
    (h : Chain c slot (xs ++ (p, v) :: ys)) :
    (∃ e, c.cell p = some e ∧ e.pprev = some (lastSlot slot xs) ∧ e.val = v ∧
        e.next = (pointers ys).head?) ∧ c.read (lastSlot slot xs) = some p ∧ Chain c (.next p) ys := by
  induction xs generalizing slot with
  | nil =>
    obtain ⟨hread, ⟨e, he, hpprev, hval⟩, hrest⟩ := h
    refine ⟨⟨e, he, hpprev, hval, ?_⟩, hread, hrest⟩
    have hnext : c.read (.next p) = e.next := by
      rw [Chains.read, he]
      rfl
    rw [← hnext]
    cases ys with
    | nil => exact hrest
    | cons y ys => exact hrest.1
  | cons x xs ih => exact ih h.2.2

structure Represents (c : Chains B P V) (view : B → List (P × V)) : Prop where
  chain : ∀ b, Chain c (.head b) (view b)
  nodup : ∀ b, (pointers (view b)).Nodup
  apart : ∀ b b' p, p ∈ pointers (view b) → p ∈ pointers (view b') → b = b'

namespace Represents

variable {c : Chains B P V} {view : B → List (P × V)}

theorem cell_of_mem (h : Represents c view) {b : B} {p : P} {v : V} (hmem : (p, v) ∈ view b) :
    ∃ e, c.cell p = some e ∧ e.val = v := by
  obtain ⟨xs, ys, hview⟩ := List.append_of_mem hmem
  have hchain := h.chain b
  rw [hview] at hchain
  obtain ⟨⟨e, he, -, hval, -⟩, -⟩ := hchain.middle
  exact ⟨e, he, hval⟩

end Represents

theorem search_chain {c : Chains B P V} (found : V → Bool) {slot : Slot B P}
    {xs : List (P × V)} (h : Chain c slot xs) {fuel : ℕ} (hfuel : xs.length ≤ fuel) :
    c.search found fuel (c.read slot) = (xs.find? fun x => found x.2).map Prod.fst := by
  induction xs generalizing slot fuel with
  | nil =>
    rw [show c.read slot = none from h]
    cases fuel <;> rfl
  | cons x xs ih =>
    obtain ⟨hread, ⟨e, he, -, hval⟩, hrest⟩ := h
    rw [List.length_cons] at hfuel
    obtain ⟨fuel, rfl⟩ := Nat.exists_eq_add_of_lt (Nat.lt_of_lt_of_le (Nat.succ_pos _) hfuel)
    rw [Nat.zero_add] at hfuel ⊢
    have hnext : e.next = c.read (.next x.1) := by
      rw [Chains.read, he]
      rfl
    rw [hread, search, he, List.find?_cons, ← hval]
    dsimp only
    cases hfound : found e.val with
    | true => rfl
    | false => rw [if_neg (by simp), hnext, ih hrest (by omega)]

section Sweeping

variable {S : Type} {chains : S → Chains B P V} {visit : S → P → S}

def kept (keep : P × V → Option V) (xs : List (P × V)) : List (P × V) :=
  xs.filterMap fun x => (keep x).map (x.1, ·)

variable [DecidableEq B] {inv : S → (B → List (P × V)) → Prop}
  {keep : P × V → Option V}

theorem walk_kept (hrep : ∀ s view, inv s view → Represents (chains s) view)
    (hvisit : ∀ s view b p v pre post, inv s view → view b = pre ++ (p, v) :: post →
      inv (visit s p) (Function.update view b (pre ++ kept keep [(p, v)] ++ post)))
    {s : S} {view : B → List (P × V)} (h : inv s view) {b : B} {pre todo : List (P × V)}
    (hview : view b = pre ++ todo) {fuel : ℕ} (hfuel : todo.length ≤ fuel) :
    inv (walk chains visit fuel (pointers todo).head? s)
      (Function.update view b (pre ++ kept keep todo)) := by
  induction todo generalizing s view pre fuel with
  | nil =>
    have hsame : Function.update view b (pre ++ kept keep []) = view := by
      rw [show pre ++ kept keep [] = view b from hview.symm, Function.update_eq_self]
    rw [hsame]
    cases fuel <;> exact h
  | cons x xs ih =>
    obtain ⟨p, v⟩ := x
    rw [List.length_cons] at hfuel
    obtain ⟨fuel, rfl⟩ := Nat.exists_eq_add_of_lt (Nat.lt_of_lt_of_le (Nat.succ_pos _) hfuel)
    rw [Nat.zero_add] at hfuel ⊢
    have hchain := (hrep s view h).chain b
    rw [hview] at hchain
    obtain ⟨⟨e, he, -, -, hnext⟩, -⟩ := hchain.middle
    change inv (walk chains visit (fuel + 1) (some p) s) _
    rw [walk, he]
    dsimp only
    rw [hnext]
    have hstep := ih (hvisit s view b p v pre xs h hview) (Function.update_self ..)
      (Nat.le_of_succ_le_succ hfuel)
    rw [Function.update_idem, List.append_assoc] at hstep
    have hsplit : kept keep ((p, v) :: xs) = kept keep [(p, v)] ++ kept keep xs :=
      List.filterMap_append (l := [(p, v)])
    rw [hsplit]
    exact hstep

theorem sweep_kept (hrep : ∀ s view, inv s view → Represents (chains s) view)
    (hvisit : ∀ s view b p v pre post, inv s view → view b = pre ++ (p, v) :: post →
      inv (visit s p) (Function.update view b (pre ++ kept keep [(p, v)] ++ post)))
    {fuel : ℕ} (hfuel : ∀ s view b, inv s view → (view b).length ≤ fuel)
    {s : S} {view : B → List (P × V)} (h : inv s view) {bs : List B} (hbs : bs.Nodup) :
    inv (sweep chains visit fuel s bs) fun b => if b ∈ bs then kept keep (view b) else view b := by
  induction bs generalizing s view with
  | nil => simpa [sweep] using h
  | cons b bs ih =>
    obtain ⟨hb, hbs⟩ := List.nodup_cons.mp hbs
    have hhead : (chains s).head b = (pointers (view b)).head? := by
      have hchain := (hrep s view h).chain b
      cases hv : view b with
      | nil =>
        rw [hv] at hchain
        exact hchain
      | cons x xs =>
        rw [hv] at hchain
        exact hchain.1
    have hwalk := walk_kept hrep hvisit h (List.nil_append _).symm (hfuel s view b h)
    rw [List.nil_append, ← hhead] at hwalk
    have hrest := ih hwalk hbs
    refine (congrArg (inv _) (funext fun b' => ?_)).mp hrest
    cases Decidable.em (b' = b) with
    | inl hbb =>
      subst hbb
      rw [if_neg hb, if_pos List.mem_cons_self, Function.update_self]
    | inr hbb =>
      rw [Function.update_of_ne hbb]
      simp only [List.mem_cons, hbb, false_or]

end Sweeping

section Storing

def Stored (view : B → List (P × V)) (p : P) (v : V) : Prop := ∃ b, (p, v) ∈ view b

theorem stored_kept (keep : P × V → Option V) (view : B → List (P × V)) (p : P) (v : V) :
    Stored (fun b => kept keep (view b)) p v ↔ ∃ u, Stored view p u ∧ keep (p, u) = some v := by
  constructor
  · rintro ⟨b, hmem⟩
    obtain ⟨⟨q, u⟩, hq, hkeep⟩ := List.mem_filterMap.mp hmem
    obtain ⟨v', hv', heq⟩ := Option.map_eq_some_iff.mp hkeep
    cases heq
    exact ⟨u, ⟨b, hq⟩, hv'⟩
  · rintro ⟨u, ⟨b, hmem⟩, hkeep⟩
    refine ⟨b, List.mem_filterMap.mpr ⟨(p, u), hmem, ?_⟩⟩
    rw [hkeep]
    rfl

theorem Represents.stored_unique {c : Chains B P V} {view : B → List (P × V)}
    (h : Represents c view) {p : P} {v u : V} (hv : Stored view p v)
    (hu : Stored view p u) : v = u := by
  obtain ⟨b, hv⟩ := hv
  obtain ⟨b', hu⟩ := hu
  obtain ⟨e, he, rfl⟩ := h.cell_of_mem hv
  obtain ⟨e', he', rfl⟩ := h.cell_of_mem hu
  cases Option.some.inj (he.symm.trans he')
  rfl

variable [DecidableEq B] {view : B → List (P × V)} {b : B} {p : P} {v : V} {xs ys : List (P × V)}

theorem stored_link (q : P) (u : V) :
    Stored (Function.update view b ((p, v) :: view b)) q u ↔ q = p ∧ u = v ∨ Stored view q u := by
  constructor
  · rintro ⟨b', hmem⟩
    cases Decidable.em (b' = b) with
    | inl hb =>
      subst hb
      rw [Function.update_self] at hmem
      rcases List.mem_cons.mp hmem with heq | hmem
      · cases heq
        exact .inl ⟨rfl, rfl⟩
      · exact .inr ⟨b', hmem⟩
    | inr hb =>
      rw [Function.update_of_ne hb] at hmem
      exact .inr ⟨b', hmem⟩
  · rintro (⟨rfl, rfl⟩ | ⟨b', hmem⟩)
    · exact ⟨b, by simp⟩
    · refine ⟨b', ?_⟩
      cases Decidable.em (b' = b) with
      | inl hb =>
        subst hb
        rw [Function.update_self]
        exact List.mem_cons_of_mem _ hmem
      | inr hb => rwa [Function.update_of_ne hb]

namespace Represents

variable {c : Chains B P V}

theorem stored_other (hview : view b = xs ++ (p, v) :: ys) {q : P} {u : V}
    (hq : q ≠ p) (zs : List (P × V)) (hzs : ∀ x ∈ zs, x.1 = p) :
    Stored (Function.update view b (xs ++ zs ++ ys)) q u ↔ Stored view q u := by
  have hside (b' : B) (hb : b' = b) : (q, u) ∈ view b' ↔ (q, u) ∈ xs ++ zs ++ ys := by
    subst hb
    rw [hview]
    simp only [List.mem_append, List.mem_cons, Prod.mk.injEq, hq, false_and, false_or]
    refine ⟨fun hmem => hmem.elim (fun hx => .inl (.inl hx)) .inr, ?_⟩
    rintro ((hmem | hmem) | hmem)
    · exact .inl hmem
    · exact absurd (hzs _ hmem) hq
    · exact .inr hmem
  constructor
  · rintro ⟨b', hmem⟩
    refine ⟨b', ?_⟩
    cases Decidable.em (b' = b) with
    | inl hb =>
      rw [hside b' hb]
      subst hb
      rwa [Function.update_self] at hmem
    | inr hb => rwa [Function.update_of_ne hb] at hmem
  · rintro ⟨b', hmem⟩
    refine ⟨b', ?_⟩
    cases Decidable.em (b' = b) with
    | inl hb =>
      rw [hside b' hb] at hmem
      subst hb
      rwa [Function.update_self]
    | inr hb => rwa [Function.update_of_ne hb]

theorem notMem_cut (h : Represents c view) (hview : view b = xs ++ (p, v) :: ys) (b' : B) :
    p ∉ pointers (Function.update view b (xs ++ ys) b') := by
  have hnodup := h.nodup b
  rw [hview, pointers_append] at hnodup
  obtain ⟨-, hys, hdisj⟩ := List.nodup_append'.mp hnodup
  obtain ⟨hp, -⟩ := List.nodup_cons.mp hys
  cases Decidable.em (b' = b) with
  | inl hb =>
    subst hb
    rw [Function.update_self, pointers_append]
    intro hmem
    rcases List.mem_append.mp hmem with hmem | hmem
    · exact hdisj hmem List.mem_cons_self
    · exact hp hmem
  | inr hb =>
    rw [Function.update_of_ne hb]
    refine fun hmem => hb (h.apart b' b p hmem ?_)
    rw [hview, pointers_append]
    exact List.mem_append_right _ List.mem_cons_self

theorem stored_cut (h : Represents c view) (hview : view b = xs ++ (p, v) :: ys) (q : P) (u : V) :
    Stored (Function.update view b (xs ++ ys)) q u ↔ q ≠ p ∧ Stored view q u := by
  cases Classical.em (q = p) with
  | inl hq =>
    subst hq
    refine ⟨fun hu => ?_, fun hne => absurd rfl hne.1⟩
    obtain ⟨b', hmem⟩ := hu
    exact absurd (List.mem_map_of_mem hmem) (h.notMem_cut hview b')
  | inr hq =>
    have hother := stored_other hview (u := u) hq [] (by simp)
    rw [List.append_nil] at hother
    exact hother.trans ⟨fun hu => ⟨hq, hu⟩, And.right⟩

theorem stored_replace (h : Represents c view) (hview : view b = xs ++ (p, v) :: ys) (v' : V)
    (q : P) (u : V) :
    Stored (Function.update view b (xs ++ (p, v') :: ys)) q u ↔
      q = p ∧ u = v' ∨ q ≠ p ∧ Stored view q u := by
  cases Classical.em (q = p) with
  | inl hq =>
    subst hq
    refine ⟨fun hu => .inl ⟨rfl, ?_⟩, ?_⟩
    · obtain ⟨b', hmem⟩ := hu
      have hcut := h.notMem_cut hview b'
      cases Decidable.em (b' = b) with
      | inl hb =>
        subst hb
        rw [Function.update_self, pointers_append] at hcut
        rw [Function.update_self] at hmem
        rcases List.mem_append.mp hmem with hmem | hmem
        · exact absurd (List.mem_append_left _ (List.mem_map_of_mem hmem)) hcut
        · rcases List.mem_cons.mp hmem with heq | hmem
          · exact (Prod.mk.inj heq).2
          · exact absurd (List.mem_append_right _ (List.mem_map_of_mem hmem)) hcut
      | inr hb =>
        rw [Function.update_of_ne hb] at hcut hmem
        exact absurd (List.mem_map_of_mem hmem) hcut
    · rintro (⟨-, rfl⟩ | ⟨hne, -⟩)
      · exact ⟨b, by simp⟩
      · exact absurd rfl hne
  | inr hq =>
    have hother := stored_other hview (u := u) hq [(p, v')] (by simp)
    rw [List.append_assoc] at hother
    simp only [hq, false_and, false_or, ne_eq, not_false_eq_true, true_and]
    exact hother

end Represents

end Storing

variable [DecidableEq P]

theorem modify_cell_of_ne (c : Chains B P V) {p q : P} (f : Cell B P V → Cell B P V) (h : q ≠ p) :
    (c.modify p f).cell q = c.cell q := Function.update_of_ne h ..

theorem modify_cell_self (c : Chains B P V) (p : P) (f : Cell B P V → Cell B P V) :
    (c.modify p f).cell p = (c.cell p).map f := Function.update_self ..

theorem setPprev_cell (c : Chains B P V) (slot : Option (Slot B P)) (q : Option P) (r : P) :
    (c.setPprev slot q).cell r =
      if q = some r then (c.cell r).map fun e => { e with pprev := slot } else c.cell r := by
  cases q with
  | none => rfl
  | some p =>
    cases Decidable.em (r = p) with
    | inl h =>
      subst h
      rw [if_pos rfl]
      exact modify_cell_self ..
    | inr h =>
      rw [if_neg fun heq => h (Option.some.inj heq).symm]
      exact modify_cell_of_ne c _ h

theorem setPprev_head (c : Chains B P V) (slot : Option (Slot B P)) (q : Option P) :
    (c.setPprev slot q).head = c.head := by
  cases q <;> rfl

def mapAt (p : P) (f : V → V) (x : P × V) : P × V := if x.1 = p then (x.1, f x.2) else x

theorem pointers_mapAt (p : P) (f : V → V) (xs : List (P × V)) :
    pointers (xs.map (mapAt p f)) = pointers xs := by
  rw [pointers, pointers, List.map_map]
  refine List.map_congr_left fun x _ => ?_
  by_cases h : x.1 = p <;> simp [mapAt, h]

theorem setVal_cell (c : Chains B P V) (p : P) (f : V → V) (q : P) :
    (c.setVal p f).cell q =
      if q = p then (c.cell q).map fun e => { e with val := f e.val } else c.cell q := by
  cases Decidable.em (q = p) with
  | inl h =>
    subst h
    rw [if_pos rfl]
    exact modify_cell_self ..
  | inr h =>
    rw [if_neg h]
    exact modify_cell_of_ne c _ h

theorem setVal_read (c : Chains B P V) (p : P) (f : V → V) (slot : Slot B P) :
    (c.setVal p f).read slot = c.read slot := by
  cases slot with
  | head b => rfl
  | next q =>
    rw [Chains.read, Chains.read, setVal_cell]
    split
    · cases c.cell q <;> rfl
    · rfl

theorem Chain.setVal {c : Chains B P V} {slot : Slot B P} {xs : List (P × V)}
    (h : Chain c slot xs) (p : P) (f : V → V) :
    Chain (c.setVal p f) slot (xs.map (mapAt p f)) := by
  induction xs generalizing slot with
  | nil => exact (setVal_read c p f slot).trans h
  | cons x xs ih =>
    obtain ⟨hread, ⟨e, he, hpprev, hval⟩, hrest⟩ := h
    rw [List.map_cons, mapAt]
    cases Decidable.em (x.1 = p) with
    | inl hx =>
      rw [if_pos hx]
      refine ⟨(setVal_read ..).trans hread, ⟨{ e with val := f e.val }, ?_, hpprev, ?_⟩, ih hrest⟩
      · rw [setVal_cell, if_pos hx, he]
        rfl
      · exact congrArg f hval
    | inr hx =>
      rw [if_neg hx]
      refine ⟨(setVal_read ..).trans hread, ⟨e, ?_, hpprev, hval⟩, ih hrest⟩
      rw [setVal_cell, if_neg hx, he]

namespace Represents

variable {c : Chains B P V} {view : B → List (P × V)}

theorem setVal (h : Represents c view) (p : P) (f : V → V) :
    Represents (c.setVal p f) fun b => (view b).map (mapAt p f) := by
  refine ⟨fun b => (h.chain b).setVal p f, fun b => ?_, fun b₁ b₂ q h₁ h₂ => ?_⟩
  · rw [pointers_mapAt]
    exact h.nodup b
  · rw [pointers_mapAt] at h₁ h₂
    exact h.apart b₁ b₂ q h₁ h₂

end Represents

theorem map_mapAt_of_notMem {p : P} {xs : List (P × V)} (h : p ∉ pointers xs) (f : V → V) :
    xs.map (mapAt p f) = xs := by
  refine (List.map_congr_left fun x hx => ?_).trans (List.map_id xs)
  exact if_neg fun heq : x.1 = p => h (heq ▸ List.mem_map_of_mem hx)

theorem map_mapAt_middle {p : P} {v : V} {xs ys : List (P × V)}
    (h : (pointers (xs ++ (p, v) :: ys)).Nodup) (f : V → V) :
    (xs ++ (p, v) :: ys).map (mapAt p f) = xs ++ (p, f v) :: ys := by
  rw [pointers_append] at h
  obtain ⟨-, hys, hdisj⟩ := List.nodup_append'.mp h
  obtain ⟨hp, -⟩ := List.nodup_cons.mp hys
  have hxs : p ∉ pointers xs := fun hp => hdisj hp List.mem_cons_self
  rw [List.map_append, List.map_cons, map_mapAt_of_notMem hxs, map_mapAt_of_notMem hp, mapAt,
    if_pos rfl]

variable [DecidableEq B]

theorem Represents.setVal_at {c : Chains B P V} {view : B → List (P × V)} (h : Represents c view)
    {b : B} {p : P} {v : V} {xs ys : List (P × V)} (hview : view b = xs ++ (p, v) :: ys)
    (f : V → V) :
    Represents (c.setVal p f) (Function.update view b (xs ++ (p, f v) :: ys)) := by
  have hsame : (fun b' => (view b').map (mapAt p f)) =
      Function.update view b (xs ++ (p, f v) :: ys) := by
    funext b'
    cases Decidable.em (b' = b) with
    | inl hb =>
      subst hb
      have hnodup := h.nodup b'
      rw [hview] at hnodup
      rw [Function.update_self, hview, map_mapAt_middle hnodup]
    | inr hb =>
      rw [Function.update_of_ne hb]
      refine map_mapAt_of_notMem (fun hp => hb (h.apart b' b p hp ?_)) f
      rw [hview, pointers_append]
      exact List.mem_append_right _ List.mem_cons_self
  rw [← hsame]
  exact h.setVal p f

theorem write_cell (c : Chains B P V) (q : Option P) (slot : Slot B P) (r : P) :
    (c.write q slot).cell r =
      if slot = .next r then (c.cell r).map fun e => { e with next := q } else c.cell r := by
  cases slot with
  | head b => exact (if_neg (by simp)).symm
  | next p =>
    cases Decidable.em (r = p) with
    | inl h =>
      subst h
      rw [if_pos rfl]
      exact modify_cell_self ..
    | inr h =>
      rw [if_neg fun heq => h (Slot.next.inj heq).symm]
      exact modify_cell_of_ne c _ h

theorem write_head (c : Chains B P V) (q : Option P) (slot : Slot B P) (b : B) :
    (c.write q slot).head b = if slot = .head b then q else c.head b := by
  cases slot with
  | head b' =>
    cases Decidable.em (b = b') with
    | inl h =>
      subst h
      rw [if_pos rfl]
      exact Function.update_self ..
    | inr h =>
      rw [if_neg fun heq => h (Slot.head.inj heq).symm]
      exact Function.update_of_ne h ..
  | next p => exact (if_neg (by simp)).symm

structure Unlinked (c d : Chains B P V) (p : P) (slot : Slot B P) (next : Option P) : Prop where
  head : ∀ b, d.head b = if slot = .head b then next else c.head b
  cell : ∀ q, q ≠ p → ∃ f : Cell B P V → Cell B P V, d.cell q = (c.cell q).map f ∧
    (∀ e, (f e).val = e.val) ∧
      (∀ e, (f e).next = if slot = .next q then next else e.next) ∧
        ∀ e, (f e).pprev = if next = some q then some slot else e.pprev
  freed : d.cell p = none

theorem unlinked_free {c : Chains B P V} {p : P} {e : Cell B P V} {slot : Slot B P}
    (he : c.cell p = some e) (hpprev : e.pprev = some slot) :
    Unlinked c ((c.unlink p).free p) p slot e.next := by
  have hunlink : c.unlink p = ((c.write e.next slot).setPprev (some slot) e.next).modify p
      fun e => { e with next := none, pprev := none } := by
    unfold unlink
    rw [he]
    dsimp only
    rw [hpprev]
  refine ⟨fun b => ?_, fun q hq => ?_, Function.update_self ..⟩
  · change (c.unlink p).head b = _
    rw [hunlink]
    change ((c.write e.next slot).setPprev (some slot) e.next).head b = _
    rw [setPprev_head, write_head]
  · refine ⟨fun x => ⟨if slot = .next q then e.next else x.next,
      if e.next = some q then some slot else x.pprev, x.val⟩, ?_, fun _ => rfl, fun _ => rfl,
      fun _ => rfl⟩
    have hcell : ((c.unlink p).free p).cell q =
        ((c.write e.next slot).setPprev (some slot) e.next).cell q := by
      rw [hunlink]
      exact (Function.update_of_ne hq ..).trans (modify_cell_of_ne _ _ hq)
    rw [hcell, setPprev_cell, write_cell]
    cases c.cell q with
    | none => split <;> split <;> rfl
    | some x => split <;> split <;> rfl

namespace Unlinked

variable {c d : Chains B P V} {p : P} {slot : Slot B P} {next : Option P}

theorem read_of_ne (h : Unlinked c d p slot next) {other : Slot B P} (hslot : slot ≠ other)
    (hp : other ≠ .next p) : d.read other = c.read other := by
  cases other with
  | head b => exact (h.head b).trans (if_neg hslot)
  | next q =>
    have hq : q ≠ p := fun heq => hp (heq ▸ rfl)
    obtain ⟨f, hf, -, hnext, -⟩ := h.cell q hq
    rw [Chains.read, Chains.read, hf]
    cases c.cell q with
    | none => rfl
    | some e => exact (hnext e).trans (if_neg hslot)

theorem read_slot (h : Unlinked c d p slot next) (hp : slot ≠ .next p)
    (hcell : ∀ q, slot = .next q → c.cell q ≠ none) : d.read slot = next := by
  cases slot with
  | head b => exact (h.head b).trans (if_pos rfl)
  | next q =>
    have hq : q ≠ p := fun heq => hp (heq ▸ rfl)
    obtain ⟨f, hf, -, hnext, -⟩ := h.cell q hq
    obtain ⟨e, he⟩ := Option.ne_none_iff_exists'.mp (hcell q rfl)
    rw [Chains.read, hf, he]
    exact (hnext e).trans (if_pos rfl)

theorem cell_of_ne (h : Unlinked c d p slot next) {q : P} (hq : q ≠ p) (hslot : slot ≠ .next q)
    (hnext : next ≠ some q) : d.cell q = c.cell q := by
  obtain ⟨f, hf, hval, hfnext, hpprev⟩ := h.cell q hq
  rw [hf]
  cases c.cell q with
  | none => rfl
  | some e =>
    refine congrArg some ?_
    have h1 := hval e
    have h2 := (hfnext e).trans (if_neg hslot)
    have h3 := (hpprev e).trans (if_neg hnext)
    cases hfe : f e
    rw [hfe] at h1 h2 h3
    cases e
    cases h1
    cases h2
    cases h3
    rfl

end Unlinked

theorem Chain.cut {c d : Chains B P V} {p : P} {v : V} {slot : Slot B P} {xs ys : List (P × V)}
    (h : Chain c slot (xs ++ (p, v) :: ys)) (hnodup : (pointers (xs ++ (p, v) :: ys)).Nodup)
    (hslot : ∀ q ∈ pointers (xs ++ (p, v) :: ys), slot ≠ .next q)
    (howner : ∀ q, slot = .next q → c.cell q ≠ none)
    (hd : Unlinked c d p (lastSlot slot xs) (pointers ys).head?) : Chain d slot (xs ++ ys) := by
  induction xs generalizing slot with
  | nil =>
    obtain ⟨-, -, hrest⟩ := h
    rw [List.nil_append] at hnodup hslot
    obtain ⟨hp, hys⟩ := List.nodup_cons.mp hnodup
    have hread := hd.read_slot (hslot p List.mem_cons_self) howner
    cases ys with
    | nil => exact hread
    | cons y ys =>
      obtain ⟨-, ⟨e, he, -, hval⟩, htail⟩ := hrest
      obtain ⟨hy, -⟩ := List.nodup_cons.mp hys
      have hne : y.1 ≠ p := fun heq => hp (heq ▸ List.mem_cons_self)
      have hsy : slot ≠ .next y.1 := hslot y.1 (List.mem_cons_of_mem _ List.mem_cons_self)
      refine ⟨hread, ?_, htail.congr (hd.read_of_ne hsy fun heq => hne (Slot.next.inj heq)) ?_⟩
      · obtain ⟨f, hf, hfval, -, hfpprev⟩ := hd.cell y.1 hne
        rw [he] at hf
        exact ⟨f e, hf, (hfpprev e).trans (if_pos rfl), (hfval e).trans hval⟩
      · intro q hq
        refine hd.cell_of_ne (fun heq => hp (heq ▸ List.mem_cons_of_mem _ hq))
          (hslot q (List.mem_cons_of_mem _ (List.mem_cons_of_mem _ hq))) fun heq => hy ?_
        exact Option.some.inj heq ▸ hq
  | cons x xs ih =>
    obtain ⟨hread, ⟨e, he, hpprev, hval⟩, hrest⟩ := h
    rw [List.cons_append, pointers, List.map_cons] at hnodup hslot
    obtain ⟨hx, hxs⟩ := List.nodup_cons.mp hnodup
    have hmem : p ∈ pointers (xs ++ (p, v) :: ys) := by
      rw [pointers_append]
      exact List.mem_append_right _ List.mem_cons_self
    have hne : x.1 ≠ p := fun heq => hx (heq ▸ hmem)
    have hlast : lastSlot slot (x :: xs) ≠ slot := by
      rcases lastSlot_cases slot (x :: xs) with ⟨-, hnil⟩ | ⟨q, hq, hlast⟩
      · cases hnil
      · rw [hlast]
        refine fun heq => hslot q ?_ heq.symm
        rcases List.mem_cons.mp hq with rfl | hq
        · exact List.mem_cons_self
        · refine List.mem_cons_of_mem _ ?_
          change q ∈ pointers (xs ++ (p, v) :: ys)
          rw [pointers_append]
          exact List.mem_append_left _ hq
    have hhead : (pointers ys).head? ≠ some x.1 := by
      intro heq
      refine hx ?_
      change x.1 ∈ pointers (xs ++ (p, v) :: ys)
      rw [pointers_append]
      exact List.mem_append_right _ (List.mem_cons_of_mem _ (List.mem_of_mem_head? heq))
    refine ⟨?_, ?_, ih hrest hxs (fun q hq heq => hx (Slot.next.inj heq ▸ hq)) ?_ hd⟩
    · rw [hd.read_of_ne hlast (hslot p (List.mem_cons_of_mem _ hmem))]
      exact hread
    · obtain ⟨f, hf, hfval, -, hfpprev⟩ := hd.cell x.1 hne
      rw [he] at hf
      exact ⟨f e, hf, ((hfpprev e).trans (if_neg hhead)).trans hpprev, (hfval e).trans hval⟩
    · intro q heq
      rw [← Slot.next.inj heq, he]
      exact Option.some_ne_none e

namespace Represents

variable {c : Chains B P V} {view : B → List (P × V)}

theorem remove (h : Represents c view) {b : B} {p : P} {v : V} {xs ys : List (P × V)}
    (hview : view b = xs ++ (p, v) :: ys) :
    Represents ((c.unlink p).free p) (Function.update view b (xs ++ ys)) := by
  have hchain := h.chain b
  have hnodup := h.nodup b
  rw [hview] at hchain hnodup
  obtain ⟨⟨e, he, hpprev, -, hnext⟩, -, -⟩ := hchain.middle
  have hd := unlinked_free he hpprev
  rw [hnext] at hd
  have hsub : (pointers (xs ++ ys)).Sublist (pointers (view b)) := by
    rw [hview]
    exact (List.Sublist.append_left (List.sublist_cons_self ..) _).map _
  have hpointers (b' : B) {q : P} (hq : q ∈ pointers (Function.update view b (xs ++ ys) b')) :
      q ∈ pointers (view b') := by
    cases Decidable.em (b' = b) with
    | inl hb =>
      subst hb
      rw [Function.update_self] at hq
      exact hsub.subset hq
    | inr hb => rwa [Function.update_of_ne hb] at hq
  have hmem : p ∈ pointers (view b) := by
    rw [hview, pointers_append]
    exact List.mem_append_right _ List.mem_cons_self
  refine ⟨fun b' => ?_, fun b' => ?_, fun b₁ b₂ q h₁ h₂ =>
    h.apart b₁ b₂ q (hpointers b₁ h₁) (hpointers b₂ h₂)⟩
  · cases Decidable.em (b' = b) with
    | inl hb =>
      subst hb
      rw [Function.update_self]
      exact hchain.cut hnodup (fun _ _ heq => by cases heq) (fun _ heq => by cases heq) hd
    | inr hb =>
      rw [Function.update_of_ne hb]
      have hother {q : P} (hq : q ∈ pointers (view b')) : q ∉ pointers (view b) :=
        fun hqb => hb (h.apart b' b q hq hqb)
      have hlast : ∀ q, lastSlot (.head b) xs = .next q → q ∈ pointers (view b) := by
        intro q hq
        rcases lastSlot_cases (.head b) xs with ⟨hhead, -⟩ | ⟨r, hr, hnextr⟩
        · rw [hhead] at hq
          cases hq
        · rw [hnextr] at hq
          rw [hview, pointers_append]
          exact List.mem_append_left _ (Slot.next.inj hq ▸ hr)
      refine (h.chain b').congr (hd.read_of_ne ?_ fun heq => by cases heq) fun q hq => ?_
      · rcases lastSlot_cases (.head b) xs with ⟨hhead, -⟩ | ⟨r, -, hnextr⟩
        · rw [hhead]
          exact fun heq => hb (Slot.head.inj heq).symm
        · rw [hnextr]
          exact fun heq => by cases heq
      · refine hd.cell_of_ne (fun heq => hother hq (heq ▸ hmem)) (fun heq => hother hq (hlast q heq))
          fun heq => hother hq ?_
        rw [hview, pointers_append]
        exact List.mem_append_right _ (List.mem_cons_of_mem _ (List.mem_of_mem_head? heq))
  · cases Decidable.em (b' = b) with
    | inl hb =>
      subst hb
      rw [Function.update_self]
      exact (h.nodup b').sublist hsub
    | inr hb =>
      rw [Function.update_of_ne hb]
      exact h.nodup b'

theorem link (h : Represents c view) (b : B) {p : P} (hp : c.cell p = none) (v : V) :
    Represents (c.link b p v) (Function.update view b ((p, v) :: view b)) := by
  have hfresh (b' : B) : p ∉ pointers (view b') := fun hmem => (h.chain b').cell hmem hp
  have hcell {q : P} (hq : q ≠ p) (hhead : c.head b ≠ some q) :
      (c.link b p v).cell q = c.cell q := by
    refine (Function.update_of_ne hq ..).trans ?_
    rw [setPprev_cell, if_neg hhead]
  have hheadmem {q : P} (hq : c.head b = some q) : q ∈ pointers (view b) := by
    have hchain := h.chain b
    cases hv : view b with
    | nil =>
      rw [hv] at hchain
      rw [show c.head b = none from hchain] at hq
      cases hq
    | cons x xs =>
      rw [hv] at hchain
      rw [show c.head b = some x.1 from hchain.1] at hq
      exact Option.some.inj hq ▸ List.mem_cons_self
  refine ⟨fun b' => ?_, fun b' => ?_, fun b₁ b₂ q h₁ h₂ => ?_⟩
  · cases Decidable.em (b' = b) with
    | inl hb =>
      subst hb
      rw [Function.update_self]
      refine ⟨Function.update_self .., ⟨_, Function.update_self .., rfl, rfl⟩, ?_⟩
      have hnext : (c.link b' p v).read (.next p) = c.head b' := by
        have hself : (c.link b' p v).cell p = some ⟨c.head b', some (.head b'), v⟩ :=
          Function.update_self ..
        rw [Chains.read, hself]
        rfl
      have hchain := h.chain b'
      have hnodup := h.nodup b'
      have hnew := hfresh b'
      cases hv : view b' with
      | nil =>
        rw [hv] at hchain
        exact hnext.trans hchain
      | cons x xs =>
        rw [hv] at hchain hnodup hnew
        obtain ⟨hread, ⟨e, he, -, hval⟩, hrest⟩ := hchain
        have hhead : c.head b' = some x.1 := hread
        obtain ⟨hx, -⟩ := List.nodup_cons.mp hnodup
        have hne : x.1 ≠ p := fun heq => hnew (heq ▸ List.mem_cons_self)
        have hcellx : (c.link b' p v).cell x.1 = some { e with pprev := some (.next p) } := by
          refine (Function.update_of_ne hne ..).trans ?_
          rw [setPprev_cell, if_pos hhead, he]
          rfl
        refine ⟨hnext.trans hhead, ⟨_, hcellx, rfl, hval⟩, hrest.congr ?_ fun q hq => ?_⟩
        · rw [Chains.read, Chains.read, hcellx, he]
          rfl
        · refine hcell (fun heq => hnew (heq ▸ List.mem_cons_of_mem _ hq)) fun heq => hx ?_
          exact Option.some.inj (hhead.symm.trans heq) ▸ hq
    | inr hb =>
      rw [Function.update_of_ne hb]
      have hread : (c.link b p v).head b' = c.head b' := by
        refine (Function.update_of_ne hb ..).trans ?_
        rw [setPprev_head]
      refine (h.chain b').congr hread fun q hq => ?_
      exact hcell (fun heq => hfresh b' (heq ▸ hq))
        fun heq => hb (h.apart b' b q hq (hheadmem heq))
  · cases Decidable.em (b' = b) with
    | inl hb =>
      subst hb
      rw [Function.update_self]
      exact List.nodup_cons.mpr ⟨hfresh b', h.nodup b'⟩
    | inr hb =>
      rw [Function.update_of_ne hb]
      exact h.nodup b'
  · have hold (b' : B) (hq : q ∈ pointers (Function.update view b ((p, v) :: view b) b')) :
        q ∈ pointers (view b') ∨ b' = b ∧ q = p := by
      cases Decidable.em (b' = b) with
      | inl hb =>
        subst hb
        rw [Function.update_self] at hq
        rcases List.mem_cons.mp hq with heq | hq
        · exact .inr ⟨rfl, heq⟩
        · exact .inl hq
      | inr hb =>
        rw [Function.update_of_ne hb] at hq
        exact .inl hq
    rcases hold b₁ h₁ with hmem₁ | ⟨hb₁, hq⟩
    · rcases hold b₂ h₂ with hmem₂ | ⟨-, hq⟩
      · exact h.apart b₁ b₂ q hmem₁ hmem₂
      · exact absurd (hq ▸ hmem₁) (hfresh b₁)
    · rcases hold b₂ h₂ with hmem₂ | ⟨hb₂, -⟩
      · exact absurd (hq ▸ hmem₂) (hfresh b₂)
      · exact hb₁.trans hb₂.symm

end Represents

end HashChains
