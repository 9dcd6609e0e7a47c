import Mathlib.Data.List.Basic
import Mathlib.Tactic.Common

namespace ReadTrace

structure Traced (α : Type) where
  reads : List ℕ
  ret : Option α

namespace Traced

variable {α β : Type} {x : Traced α} {f : α → Traced β} {P : ℕ → Prop} {a c : α} {b : β}

def pure (a : α) : Traced α := ⟨[], some a⟩

def fail : Traced α := ⟨[], none⟩

def read (os : List ℕ) (a : α) : Traced α := ⟨os, some a⟩

def bind (x : Traced α) (f : α → Traced β) : Traced β :=
  match x.ret with
  | none => ⟨x.reads, none⟩
  | some a => ⟨x.reads ++ (f a).reads, (f a).ret⟩

instance : Monad Traced where
  pure := pure
  bind := bind

def Inside (P : ℕ → Prop) (x : Traced α) : Prop := ∀ o ∈ x.reads, P o

theorem inside_pure (a : α) : (Pure.pure a : Traced α).Inside P :=
  fun _ ho => absurd ho List.not_mem_nil

theorem inside_fail : (fail : Traced α).Inside P := fun _ ho => absurd ho List.not_mem_nil

theorem inside_bind : (x >>= f).Inside P ↔
    x.Inside P ∧ ∀ a, x.ret = some a → (f a).Inside P := by
  have hbind : x >>= f = bind x f := rfl
  rw [hbind, bind]
  cases hret : x.ret with
  | none => exact (and_iff_left fun a ha => absurd ha (Option.some_ne_none a).symm).symm
  | some a =>
    refine List.forall_mem_append.trans (and_congr_right fun _ => ?_)
    constructor
    · intro h c hc
      cases hc
      exact h
    · exact fun h => h a rfl

theorem ret_bind : (x >>= f).ret = some b ↔ ∃ a, x.ret = some a ∧ (f a).ret = some b := by
  have hbind : x >>= f = bind x f := rfl
  rw [hbind, bind]
  cases hret : x.ret with
  | none => exact iff_of_false (Option.some_ne_none b).symm fun h => absurd h.choose_spec.1 nofun
  | some a =>
    constructor
    · exact fun h => ⟨a, rfl, h⟩
    · rintro ⟨c, hc, h⟩
      cases hc
      exact h

def Yields (P : ℕ → Prop) (x : Traced α) (a : α) : Prop := x.Inside P ∧ x.ret = some a

theorem yields_bind : (x >>= f).Yields P b ↔ ∃ a, x.Yields P a ∧ (f a).Yields P b := by
  rw [Yields, inside_bind, ret_bind]
  constructor
  · rintro ⟨⟨hx, hf⟩, a, ha, hb⟩
    exact ⟨a, ⟨hx, ha⟩, hf a ha, hb⟩
  · rintro ⟨a, ⟨hx, ha⟩, hf, hb⟩
    refine ⟨⟨hx, fun c hc => ?_⟩, a, ha, hb⟩
    rw [ha] at hc
    cases hc
    exact hf

theorem yields_pure : (Pure.pure a : Traced α).Yields P c ↔ a = c :=
  ⟨fun h => Option.some.inj h.2, fun h => ⟨inside_pure a, congrArg some h⟩⟩

theorem not_yields_fail : ¬ (fail : Traced α).Yields P c :=
  fun h => absurd h.2.symm (Option.some_ne_none c)

variable {X T R : Prop} {γ : Type} {S Q : γ → Prop}

theorem inside_step (size : α → γ) (hx : x.Inside P ↔ X)
    (hyields : ∀ i, (∃ a, x.Yields P a ∧ size a = i) ↔ X ∧ S i)
    (hf : ∀ a, x.Yields P a → ((f a).Inside P ↔ Q (size a))) :
    (x >>= f).Inside P ↔ X ∧ ∀ i, S i → Q i := by
  rw [inside_bind, hx]
  refine and_congr_right fun hX => ?_
  have hinside := hx.mpr hX
  constructor
  · intro h i hi
    obtain ⟨a, ha, rfl⟩ := (hyields i).mpr ⟨hX, hi⟩
    exact (hf a ha).mp (h a ha.2)
  · intro h a ha
    have hyield : x.Yields P a := ⟨hinside, ha⟩
    exact (hf a hyield).mpr (h _ ((hyields _).mp ⟨a, hyield, rfl⟩).2)

theorem inside_gate (hx : x.Inside P ↔ X) (hyields : (∃ a, x.Yields P a) ↔ X ∧ T)
    (hf : ∀ a, x.Yields P a → ((f a).Inside P ↔ R)) : (x >>= f).Inside P ↔ X ∧ (T → R) := by
  have hstep := @inside_step _ _ x f P X Unit (fun _ => T) (fun _ => R) (fun _ => ()) hx
    (fun _ => by simpa only [and_true] using hyields) hf
  exact hstep.trans (and_congr_right fun _ => ⟨fun h => h (), fun h _ => h⟩)

theorem inside_bind_quiet (hf : ∀ a, (f a).Inside P) : (x >>= f).Inside P ↔ x.Inside P :=
  inside_bind.trans (and_iff_left fun a _ => hf a)

def Total (x : Traced α) : Prop := ∃ a, x.ret = some a

theorem total_read {os : List ℕ} : (read os a).Total := ⟨a, rfl⟩

theorem total_pure : (Pure.pure a : Traced α).Total := ⟨a, rfl⟩

theorem total_bind (hx : x.Total) (hf : ∀ a, (f a).Total) : (x >>= f).Total := by
  obtain ⟨a, ha⟩ := hx
  obtain ⟨b, hb⟩ := hf a
  exact ⟨b, ret_bind.mpr ⟨a, ha, hb⟩⟩

theorem inside_then (htotal : x.Total) (hx : x.Inside P ↔ X)
    (hf : ∀ a, x.Yields P a → ((f a).Inside P ↔ R)) : (x >>= f).Inside P ↔ X ∧ R := by
  rw [inside_bind, hx]
  refine and_congr_right fun hX => ?_
  have hinside := hx.mpr hX
  constructor
  · intro h
    obtain ⟨a, ha⟩ := htotal
    exact (hf a ⟨hinside, ha⟩).mp (h a ha)
  · exact fun hR a ha => (hf a ⟨hinside, ha⟩).mpr hR

theorem inside_read_bind {os : List ℕ} :
    (read os a >>= f).Inside P ↔ (∀ o ∈ os, P o) ∧ (f a).Inside P := by
  refine inside_bind.trans (and_congr_right fun _ => ⟨fun h => h a rfl, fun h c hc => ?_⟩)
  cases hc
  exact h

end Traced

end ReadTrace
