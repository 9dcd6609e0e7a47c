import Rtl8188fu.Bridge.Database
import Rtl8188fu.Lib.Run
import Mathlib.Data.List.Perm.Subperm

namespace Bridge

open HashChains
open Recv (MacAddr isMcast)

abbrev View := Fin 16 → List (ℕ × NetworkDbEntry)

structure Holds (k : Kernel) (c : Chains (Fin 16) ℕ NetworkDbEntry) (heapTop : ℕ)
    (scdbEntry : Option ℕ) (view : View) : Prop where
  represents : Represents c view
  bucket : ∀ b, ∀ x ∈ view b, networkHash k.ipxHeader x.2.networkAddr = b
  distinct : ∀ b, ((view b).map fun x => x.2.networkAddr).Nodup
  below : ∀ b, ∀ p ∈ pointers (view b), p < heapTop
  scdb : ∀ p, scdbEntry = some p → ∃ b, p ∈ pointers (view b)

namespace Holds

variable {k : Kernel} {c : Chains (Fin 16) ℕ NetworkDbEntry} {heapTop : ℕ} {scdbEntry : Option ℕ}
  {view : View}

theorem empty (k : Kernel) (heapTop : ℕ) : Holds k Chains.empty heapTop none fun _ => [] where
  represents := ⟨fun _ => rfl, fun _ => List.nodup_nil, fun _ _ _ hp => absurd hp List.not_mem_nil⟩
  bucket _ _ hx := absurd hx List.not_mem_nil
  distinct _ := List.nodup_nil
  below _ _ hp := absurd hp List.not_mem_nil
  scdb _ hp := nomatch hp

theorem length_le (h : Holds k c heapTop scdbEntry view) (b : Fin 16) :
    (view b).length ≤ heapTop := by
  have hsub : pointers (view b) ⊆ List.range heapTop :=
    fun p hp => List.mem_range.mpr (h.below b p hp)
  have hle := ((h.represents.nodup b).subperm hsub).length_le
  rwa [List.length_range, pointers, List.length_map] at hle

theorem stored_pointer (h : Holds k c heapTop scdbEntry view) {p : ℕ} (hp : scdbEntry = some p) :
    ∃ e, Stored view p e := by
  obtain ⟨b, hmem⟩ := h.scdb p hp
  obtain ⟨x, hx, rfl⟩ := List.mem_map.mp hmem
  exact ⟨x.2, b, hx⟩

theorem stored_addr_unique (h : Holds k c heapTop scdbEntry view) {p q : ℕ} {e f : NetworkDbEntry}
    (he : Stored view p e) (hf : Stored view q f) (haddr : e.networkAddr = f.networkAddr) :
    p = q ∧ e = f := by
  obtain ⟨b, he⟩ := he
  obtain ⟨b', hf⟩ := hf
  have hb : b = b' := by
    rw [← h.bucket b _ he, ← h.bucket b' _ hf, haddr]
  subst hb
  have hsame := List.inj_on_of_nodup_map (h.distinct b) he hf haddr
  exact ⟨congrArg Prod.fst hsame, congrArg Prod.snd hsame⟩

theorem replace (h : Holds k c heapTop scdbEntry view) {b : Fin 16} {p : ℕ} {v : NetworkDbEntry}
    {xs ys : List (ℕ × NetworkDbEntry)} (hview : view b = xs ++ (p, v) :: ys)
    (f : NetworkDbEntry → NetworkDbEntry) (hf : (f v).networkAddr = v.networkAddr) :
    Holds k (c.setVal p f) heapTop scdbEntry
      (Function.update view b (xs ++ (p, f v) :: ys)) := by
  have hpointers (b' : Fin 16) :
      pointers (Function.update view b (xs ++ (p, f v) :: ys) b') = pointers (view b') := by
    cases Decidable.em (b' = b) with
    | inl hb =>
      subst hb
      rw [Function.update_self, hview, pointers_append, pointers_append]
      rfl
    | inr hb => rw [Function.update_of_ne hb]
  refine ⟨h.represents.setVal_at hview f, fun b' x hx => ?_, fun b' => ?_, fun b' q hq => ?_,
    fun q hq => ?_⟩
  · cases Decidable.em (b' = b) with
    | inl hb =>
      subst hb
      have hbucket := h.bucket b'
      rw [hview] at hbucket
      rw [Function.update_self] at hx
      rcases List.mem_append.mp hx with hx | hx
      · exact hbucket x (List.mem_append_left _ hx)
      · rcases List.mem_cons.mp hx with rfl | hx
        · dsimp only
          rw [hf]
          exact hbucket (p, v) (List.mem_append_right _ List.mem_cons_self)
        · exact hbucket x (List.mem_append_right _ (List.mem_cons_of_mem _ hx))
    | inr hb =>
      rw [Function.update_of_ne hb] at hx
      exact h.bucket b' x hx
  · have hdistinct := h.distinct b'
    cases Decidable.em (b' = b) with
    | inl hb =>
      subst hb
      rw [hview, List.map_append, List.map_cons] at hdistinct
      rw [Function.update_self, List.map_append, List.map_cons, hf]
      exact hdistinct
    | inr hb =>
      rw [Function.update_of_ne hb]
      exact hdistinct
  · rw [hpointers] at hq
    exact h.below b' q hq
  · obtain ⟨b', hb'⟩ := h.scdb q hq
    refine ⟨b', ?_⟩
    rw [hpointers]
    exact hb'

theorem cut (h : Holds k c heapTop scdbEntry view) {b : Fin 16} {p : ℕ} {v : NetworkDbEntry}
    {xs ys : List (ℕ × NetworkDbEntry)} (hview : view b = xs ++ (p, v) :: ys)
    {scdbEntry' : Option ℕ} (hscdb : ∀ q, scdbEntry' = some q → scdbEntry = some q ∧ q ≠ p) :
    Holds k ((c.unlink p).free p) heapTop scdbEntry' (Function.update view b (xs ++ ys)) := by
  have hsub (b' : Fin 16) : (Function.update view b (xs ++ ys) b').Sublist (view b') := by
    cases Decidable.em (b' = b) with
    | inl hb =>
      subst hb
      rw [Function.update_self, hview]
      exact List.Sublist.append_left (List.sublist_cons_self ..) _
    | inr hb => rw [Function.update_of_ne hb]
  refine ⟨h.represents.remove hview, fun b' x hx => h.bucket b' x ((hsub b').subset hx),
    fun b' => (h.distinct b').sublist ((hsub b').map _),
    fun b' q hq => h.below b' q (((hsub b').map _).subset hq), fun q hq => ?_⟩
  obtain ⟨hold, hne⟩ := hscdb q hq
  obtain ⟨e, he⟩ := h.stored_pointer hold
  obtain ⟨b', hmem⟩ := (h.represents.stored_cut hview q e).mpr ⟨hne, he⟩
  exact ⟨b', List.mem_map_of_mem hmem⟩

theorem link (h : Holds k c heapTop scdbEntry view) {p : ℕ} (hp : c.cell p = none)
    {e : NetworkDbEntry} (hnew : ∀ q f, Stored view q f → f.networkAddr ≠ e.networkAddr) :
    Holds k (c.link (networkHash k.ipxHeader e.networkAddr) p e) (max heapTop (p + 1)) scdbEntry
      (Function.update view (networkHash k.ipxHeader e.networkAddr)
        ((p, e) :: view (networkHash k.ipxHeader e.networkAddr))) := by
  generalize hb : networkHash k.ipxHeader e.networkAddr = b
  refine ⟨h.represents.link b hp e, fun b' x hx => ?_, fun b' => ?_, fun b' q hq => ?_,
    fun q hq => ?_⟩
  · cases Decidable.em (b' = b) with
    | inl hbb =>
      subst hbb
      rw [Function.update_self] at hx
      rcases List.mem_cons.mp hx with rfl | hx
      · exact hb
      · exact h.bucket b' x hx
    | inr hbb =>
      rw [Function.update_of_ne hbb] at hx
      exact h.bucket b' x hx
  · cases Decidable.em (b' = b) with
    | inl hbb =>
      subst hbb
      rw [Function.update_self, List.map_cons]
      refine List.nodup_cons.mpr ⟨fun hmem => ?_, h.distinct b'⟩
      obtain ⟨x, hx, haddr⟩ := List.mem_map.mp hmem
      exact hnew x.1 x.2 ⟨b', hx⟩ haddr
    | inr hbb =>
      rw [Function.update_of_ne hbb]
      exact h.distinct b'
  · obtain ⟨x, hx, rfl⟩ := List.mem_map.mp hq
    rcases (stored_link x.1 x.2).mp ⟨b', hx⟩ with ⟨heq, -⟩ | ⟨b₀, hmem⟩
    · rw [heq]
      exact Nat.lt_of_lt_of_le (Nat.lt_succ_self p) (Nat.le_max_right ..)
    · exact Nat.lt_of_lt_of_le (h.below b₀ x.1 (List.mem_map_of_mem hmem)) (Nat.le_max_left ..)
  · obtain ⟨f, hf⟩ := h.stored_pointer hq
    obtain ⟨b', hmem⟩ := (stored_link (b := b) (p := p) (v := e) q f).mpr (.inr hf)
    exact ⟨b', List.mem_map_of_mem hmem⟩

theorem setScdb (h : Holds k c heapTop scdbEntry view) {scdbEntry' : Option ℕ}
    (hscdb : ∀ p, scdbEntry' = some p → ∃ e, Stored view p e) : Holds k c heapTop scdbEntry' view :=
  ⟨h.represents, h.bucket, h.distinct, h.below, fun p hp =>
    let ⟨_, b, hmem⟩ := hscdb p hp
    ⟨b, List.mem_map_of_mem hmem⟩⟩

theorem replace_stored (h : Holds k c heapTop scdbEntry view) {p : ℕ} {e : NetworkDbEntry}
    (he : Stored view p e) (f : NetworkDbEntry → NetworkDbEntry)
    (hf : (f e).networkAddr = e.networkAddr) :
    ∃ view', Holds k (c.setVal p f) heapTop scdbEntry view' ∧
      ∀ q u, Stored view' q u ↔ q = p ∧ u = f e ∨ q ≠ p ∧ Stored view q u := by
  obtain ⟨b, hmem⟩ := he
  obtain ⟨xs, ys, hview⟩ := List.append_of_mem hmem
  exact ⟨_, h.replace hview f hf, h.represents.stored_replace hview (f e)⟩

end Holds

namespace BrExt

def Keeps (k : Kernel) (s : BrExt) (view : View) : Prop :=
  Holds k s.nethash s.heapTop s.scdbEntry view

theorem find_eq {k : Kernel} {s : BrExt} {view : View} (h : s.Keeps k view) (a : NetworkAddr) :
    s.find k a = ((view (networkHash k.ipxHeader a)).find? fun x => x.2.networkAddr == a).map
      Prod.fst :=
  search_chain _ (h.represents.chain _) (h.length_le _)

theorem find_some {k : Kernel} {s : BrExt} {view : View} (h : s.Keeps k view) {a : NetworkAddr}
    {p : ℕ} (hfind : s.find k a = some p) : ∃ e, Stored view p e ∧ e.networkAddr = a := by
  rw [find_eq h] at hfind
  obtain ⟨x, hx, rfl⟩ := Option.map_eq_some_iff.mp hfind
  have haddr := List.find?_some hx
  exact ⟨x.2, ⟨_, List.mem_of_find?_eq_some hx⟩, eq_of_beq haddr⟩

theorem find_none {k : Kernel} {s : BrExt} {view : View} (h : s.Keeps k view) {a : NetworkAddr}
    (hfind : s.find k a = none) {p : ℕ} {e : NetworkDbEntry} (he : Stored view p e) :
    e.networkAddr ≠ a := by
  rintro rfl
  obtain ⟨b, hmem⟩ := he
  rw [find_eq h, Option.map_eq_none_iff, List.find?_eq_none] at hfind
  have hb : networkHash k.ipxHeader e.networkAddr = b := h.bucket b (p, e) hmem
  rw [hb] at hfind
  exact hfind (p, e) hmem (beq_self_eq_true _)

theorem find_stored {k : Kernel} {s : BrExt} {view : View} (h : s.Keeps k view) {p : ℕ}
    {e : NetworkDbEntry} (he : Stored view p e) : s.find k e.networkAddr = some p := by
  cases hfind : s.find k e.networkAddr with
  | none => exact absurd rfl (find_none h hfind he)
  | some q =>
    obtain ⟨f, hf, haddr⟩ := find_some h hfind
    rw [(h.stored_addr_unique hf he haddr).1]

theorem cell_stored {k : Kernel} {s : BrExt} {view : View} (h : s.Keeps k view) {p : ℕ}
    {e : NetworkDbEntry} (he : Stored view p e) : ∃ x, s.nethash.cell p = some x ∧ x.val = e := by
  obtain ⟨b, hmem⟩ := he
  exact h.represents.cell_of_mem hmem

inductive InsertStep (k : Kernel) (s : BrExt) (view : View) (macAddr : MacAddr) (a : NetworkAddr)
    (block : Option ℕ) : BrExt → Prop where
  | update (p : ℕ) (e : NetworkDbEntry) (he : Stored view p e) (haddr : e.networkAddr = a) :
    InsertStep k s view macAddr a block { s with
      nethash := s.nethash.setVal p fun e => { e with macAddr := macAddr, stamp := s.clock } }
  | noMemory (hfind : s.find k a = none) (hmalloc : s.malloc block = none) :
    InsertStep k s view macAddr a block s
  | create (p : ℕ) (hfind : s.find k a = none) (hmalloc : s.malloc block = some p) :
    InsertStep k s view macAddr a block { s with
      nethash := s.nethash.link (networkHash k.ipxHeader a) p ⟨1, macAddr, s.clock, a⟩
      heapTop := max s.heapTop (p + 1) }

theorem dbNetworkInsert_step {k : Kernel} {s : BrExt} {view : View} (h : s.Keeps k view)
    (macAddr : MacAddr) (a : NetworkAddr) (block : Option ℕ) :
    InsertStep k s view macAddr a block (s.dbNetworkInsert k macAddr a block) := by
  rw [dbNetworkInsert]
  cases hfind : s.find k a with
  | some p =>
    obtain ⟨e, he, haddr⟩ := find_some h hfind
    exact .update p e he haddr
  | none =>
    cases hmalloc : s.malloc block with
    | none => exact .noMemory hfind hmalloc
    | some p => exact .create p hfind hmalloc

theorem malloc_some {s : BrExt} {block : Option ℕ} {p : ℕ} (h : s.malloc block = some p) :
    block = some p ∧ s.nethash.cell p = none := by
  rw [malloc, Option.filter_eq_some_iff] at h
  exact ⟨h.1, Option.isNone_iff_eq_none.mp h.2⟩

inductive LookupStep (k : Kernel) (s : BrExt) (view : View) (dest : MacAddr) (a : NetworkAddr) :
    Lookup → Prop where
  | absent (hfind : s.find k a = none) : LookupStep k s view dest a ⟨s, dest, false⟩
  | expired (p : ℕ) (e : NetworkDbEntry) (he : Stored view p e) (haddr : e.networkAddr = a)
    (hexp : s.hasExpired k e = true) : LookupStep k s view dest a ⟨s, dest, true⟩
  | used (p : ℕ) (e : NetworkDbEntry) (he : Stored view p e) (haddr : e.networkAddr = a)
    (hexp : s.hasExpired k e = false) : LookupStep k s view dest a
      ⟨{ s with nethash := s.nethash.setVal p fun e => { e with useCount := e.useCount + 1 } },
        e.macAddr, true⟩

theorem dbNetworkLookupAndReplace_step {k : Kernel} {s : BrExt} {view : View}
    (h : s.Keeps k view) (dest : MacAddr) (a : NetworkAddr) :
    LookupStep k s view dest a (s.dbNetworkLookupAndReplace k dest a) := by
  rw [dbNetworkLookupAndReplace]
  cases hfind : s.find k a with
  | none => exact .absent hfind
  | some p =>
    obtain ⟨e, he, haddr⟩ := find_some h hfind
    obtain ⟨x, hx, rfl⟩ := cell_stored h he
    rw [Option.bind_some, hx, Option.map_some]
    dsimp only
    cases hexp : s.hasExpired k x.val with
    | true => exact .expired p x.val he haddr hexp
    | false => exact .used p x.val he haddr hexp

end BrExt

end Bridge
