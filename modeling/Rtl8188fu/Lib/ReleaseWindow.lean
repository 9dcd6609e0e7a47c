import Mathlib.Data.List.Sort
import Mathlib.Data.List.Chain
import Mathlib.Tactic.Linarith

namespace ReleaseWindow

variable {A : Type}

abbrev Before (x y : ℤ × A) : Prop := x.1 < y.1

structure Drained (A : Type) where
  start : ℤ
  released : List (ℤ × A)
  pending : List (ℤ × A)

def drain (s : ℤ) : List (ℤ × A) → Drained A
  | [] => ⟨s, [], []⟩
  | x :: xs =>
    if x.1 ≤ s then
      let d := drain (if x.1 = s then s + 1 else s) xs
      ⟨d.start, x :: d.released, d.pending⟩
    else ⟨s, [], x :: xs⟩

theorem drain_nil (s : ℤ) : drain s ([] : List (ℤ × A)) = ⟨s, [], []⟩ := rfl

theorem drain_front {s : ℤ} {x : ℤ × A} (hx : x.1 ≤ s) (xs : List (ℤ × A)) : drain s (x :: xs) =
    ⟨(drain (if x.1 = s then s + 1 else s) xs).start,
      x :: (drain (if x.1 = s then s + 1 else s) xs).released,
      (drain (if x.1 = s then s + 1 else s) xs).pending⟩ := if_pos hx

theorem drain_stop {s : ℤ} {x : ℤ × A} (hx : ¬ x.1 ≤ s) (xs : List (ℤ × A)) :
    drain s (x :: xs) = ⟨s, [], x :: xs⟩ :=
  if_neg hx

theorem drain_append (s : ℤ) (xs : List (ℤ × A)) :
    (drain s xs).released ++ (drain s xs).pending = xs := by
  induction xs generalizing s with
  | nil => rfl
  | cons x xs ih =>
    cases Decidable.em (x.1 ≤ s) with
    | inl hx => simp [drain_front hx, ih]
    | inr hx => simp [drain_stop hx]

theorem le_drain_start (s : ℤ) (xs : List (ℤ × A)) : s ≤ (drain s xs).start := by
  induction xs generalizing s with
  | nil => exact le_rfl
  | cons x xs ih =>
    cases Decidable.em (x.1 ≤ s) with
    | inl hx =>
      have h := ih (if x.1 = s then s + 1 else s)
      simp only [drain_front hx]
      split at h <;> split <;> omega
    | inr hx => simp [drain_stop hx]

theorem drain_start_cases (s : ℤ) (xs : List (ℤ × A)) :
    (drain s xs).start = s ∨ ∃ x ∈ xs, (drain s xs).start = x.1 + 1 := by
  induction xs generalizing s with
  | nil => exact .inl rfl
  | cons x xs ih =>
    cases Decidable.em (x.1 ≤ s) with
    | inl hx =>
      simp only [drain_front hx]
      cases Decidable.em (x.1 = s) with
      | inl he =>
        rw [if_pos he]
        rcases ih (s + 1) with h | ⟨y,hy,h⟩
        · exact .inr ⟨x, by simp, by omega⟩
        · exact .inr ⟨y, by simp [hy], h⟩
      | inr he =>
        rw [if_neg he]
        rcases ih s with h | ⟨y,hy,h⟩
        · exact .inl h
        · exact .inr ⟨y, by simp [hy], h⟩
    | inr hx => simp [drain_stop hx]

theorem drain_released_behind (s : ℤ) (xs : List (ℤ × A)) :
    ∀ x ∈ (drain s xs).released, x.1 < (drain s xs).start := by
  induction xs generalizing s with
  | nil => simp [drain_nil]
  | cons x xs ih =>
    cases Decidable.em (x.1 ≤ s) with
    | inl hx =>
      have hnext : x.1 < if x.1 = s then s + 1 else s := by split <;> omega
      simp only [drain_front hx, List.mem_cons, forall_eq_or_imp]
      exact ⟨hnext.trans_le (le_drain_start _ xs), ih _⟩
    | inr hx => simp [drain_stop hx]

theorem drain_pending_ahead (s : ℤ) {xs : List (ℤ × A)} (h : xs.Pairwise Before) :
    ∀ x ∈ (drain s xs).pending, (drain s xs).start < x.1 := by
  induction xs generalizing s with
  | nil => simp [drain_nil]
  | cons x xs ih =>
    obtain ⟨hall,hxs⟩ := List.pairwise_cons.mp h
    cases Decidable.em (x.1 ≤ s) with
    | inl hx => simpa [drain_front hx] using ih (if x.1 = s then s + 1 else s) hxs
    | inr hx =>
      simp only [drain_stop hx, List.mem_cons, forall_eq_or_imp]
      exact ⟨by omega, fun y hy => lt_trans (by omega) (hall y hy)⟩

def place (x : ℤ × A) (xs : List (ℤ × A)) : List (ℤ × A) :=
  xs.orderedInsert (fun x y => x.1 ≤ y.1) x

theorem mem_place (x y : ℤ × A) (xs : List (ℤ × A)) : y ∈ place x xs ↔ y = x ∨ y ∈ xs :=
  List.mem_orderedInsert _

theorem place_perm (x : ℤ × A) (xs : List (ℤ × A)) : (place x xs).Perm (x :: xs) :=
  List.perm_orderedInsert _ x xs

theorem pairwise_place {x : ℤ × A} {xs : List (ℤ × A)} (h : xs.Pairwise Before)
    (hx : ∀ y ∈ xs, y.1 ≠ x.1) : (place x xs).Pairwise Before := by
  induction xs with
  | nil => simp [place]
  | cons y ys ih =>
    obtain ⟨hall,hys⟩ := List.pairwise_cons.mp h
    have hne := hx y (by simp)
    have hrest := ih hys (fun z hz => hx z (by simp [hz]))
    cases Decidable.em (x.1 ≤ y.1) with
    | inl hxy =>
      have hlt : x.1 < y.1 := by omega
      simp only [place, List.orderedInsert, hxy, if_true, List.pairwise_cons, List.mem_cons,
        forall_eq_or_imp]
      exact ⟨⟨hlt, fun z hz => hlt.trans (hall z hz)⟩, hall, hys⟩
    | inr hxy =>
      simp only [place, List.orderedInsert, hxy, if_false, List.pairwise_cons]
      refine ⟨fun z hz => ?_, hrest⟩
      rcases (mem_place x z ys).mp hz with rfl | hz
      · exact lt_of_not_ge hxy
      · exact hall z hz

theorem append_place {rs xs : List (ℤ × A)} {x : ℤ × A} (h : ∀ r ∈ rs, r.1 < x.1) :
    rs ++ place x xs = place x (rs ++ xs) := by
  induction rs with
  | nil => rfl
  | cons r rs ih =>
    have hr : ¬ x.1 ≤ r.1 := not_le.mpr (h r (by simp))
    have hrest := ih (fun s hs => h s (by simp [hs]))
    simpa [place, List.orderedInsert, hr] using hrest

abbrev Linked (g : ℤ) (x y : ℤ × A) : Prop := y.1 ≤ x.1 + g

theorem head_place (x : ℤ × A) (xs : List (ℤ × A)) :
    ∀ z ∈ (place x xs).head?, (z = x ∧ ∀ y ∈ xs.head?, x.1 ≤ y.1) ∨ z ∈ xs.head? := by
  cases xs with
  | nil => simp [place]
  | cons y ys =>
    cases Decidable.em (x.1 ≤ y.1) with
    | inl hxy => simp [place, List.orderedInsert, hxy]
    | inr hxy => simp [place, List.orderedInsert, hxy]

theorem linked_place {g : ℤ} {x : ℤ × A} {xs : List (ℤ × A)} (hs : xs.Pairwise Before)
    (hc : xs.IsChain (Linked g)) (hhead : ∀ y ∈ xs.head?, x.1 ≤ y.1 → Linked g x y)
    (hnear : xs ≠ [] → ∃ y ∈ xs, Linked g y x) : (place x xs).IsChain (Linked g) := by
  induction xs with
  | nil => simp [place]
  | cons y ys ih =>
    obtain ⟨hall,hys⟩ := List.pairwise_cons.mp hs
    obtain ⟨hnext,hrest⟩ := List.isChain_cons.mp hc
    cases Decidable.em (x.1 ≤ y.1) with
    | inl hxy =>
      simp only [place, List.orderedInsert, hxy, if_true]
      exact .cons_cons (hhead y (by simp) hxy) hc
    | inr hxy =>
      obtain ⟨z,hz,hzx⟩ := hnear (by simp)
      have hyz : y.1 ≤ z.1 := by
        rcases List.mem_cons.mp hz with rfl | hz
        · exact le_rfl
        · exact (hall z hz).le
      simp only [place, List.orderedInsert, hxy, if_false]
      refine List.isChain_cons.mpr ⟨fun u hu => ?_, ih hys hrest ?_ ?_⟩
      · rcases head_place x ys u hu with ⟨rfl,hfirst⟩ | hu
        · cases ys with
          | nil =>
            obtain rfl : z = y := by simpa using hz
            exact hzx
          | cons w ws => exact (hfirst w (by simp)).trans (hnext w (by simp))
        · exact hnext u hu
      · exact fun w hw _ => (hnext w hw).trans (by omega)
      · intro hne
        obtain ⟨w,hw⟩ := List.exists_mem_of_ne_nil ys hne
        have hyw := hall w hw
        rcases List.mem_cons.mp hz with rfl | hz
        · exact ⟨w, hw, hzx.trans (by omega)⟩
        · exact ⟨z, hz, hzx⟩

theorem positions_isChain {g : ℤ} {xs : List (ℤ × A)} (hs : xs.Pairwise Before)
    (hc : xs.IsChain (Linked g)) :
    (xs.map Prod.fst).IsChain (fun p q => p < q ∧ q ≤ p + g) := by
  rw [List.isChain_map]
  induction xs with
  | nil => exact .nil
  | cons x xs ih =>
    obtain ⟨hall,hrest⟩ := List.pairwise_cons.mp hs
    obtain ⟨hnext,htail⟩ := List.isChain_cons.mp hc
    refine List.isChain_cons.mpr ⟨fun y hy => ?_, ih hrest htail⟩
    exact ⟨hall y (List.mem_of_mem_head? hy), hnext y hy⟩

structure Window (A : Type) (w : ℤ) where
  start : ℤ
  pending : List (ℤ × A)
  released : List (ℤ × A)
  increasing : (released ++ pending).Pairwise Before
  inside : ∀ x ∈ pending, start ≤ x.1 ∧ x.1 < start + w
  behind : ∀ x ∈ released, x.1 < start

namespace Window

variable {w : ℤ}

def empty (s : ℤ) : Window A w := ⟨s, [], [], by simp, by simp, by simp⟩

theorem pending_increasing (v : Window A w) : v.pending.Pairwise Before :=
  (List.pairwise_append.mp v.increasing).2.1

def move (v : Window A w) (s : ℤ) (xs : List (ℤ × A)) (hs : v.start ≤ s)
    (hxs : xs.Pairwise Before) (hin : ∀ x ∈ xs, v.start ≤ x.1 ∧ x.1 < s + w) : Window A w where
  start := (drain s xs).start
  pending := (drain s xs).pending
  released := v.released ++ (drain s xs).released
  increasing := by
    rw [List.append_assoc, drain_append]
    refine List.pairwise_append.mpr ⟨(List.pairwise_append.mp v.increasing).1, hxs, ?_⟩
    exact fun r hr x hx => (v.behind r hr).trans_le (hin x hx).1
  inside := by
    intro x hx
    have hmem : x ∈ xs := by rw [← drain_append s xs]; simp [hx]
    have hle := le_drain_start s xs
    exact ⟨(drain_pending_ahead s hxs x hx).le, by linarith [(hin x hmem).2]⟩
  behind := by
    intro x hx
    rcases List.mem_append.mp hx with hx | hx
    · exact (v.behind x hx).trans_le (hs.trans (le_drain_start s xs))
    · exact drain_released_behind s xs x hx

def total (v : Window A w) : List (ℤ × A) := v.released ++ v.pending

theorem total_move (v : Window A w) (s : ℤ) (xs : List (ℤ × A)) (hs : v.start ≤ s)
    (hxs : xs.Pairwise Before) (hin : ∀ x ∈ xs, v.start ≤ x.1 ∧ x.1 < s + w) :
    (v.move s xs hs hxs hin).total = v.released ++ xs := by
  simp [total, move, drain_append]

theorem move_released (v : Window A w) (s : ℤ) (xs : List (ℤ × A)) (hs : v.start ≤ s)
    (hxs : xs.Pairwise Before) (hin : ∀ x ∈ xs, v.start ≤ x.1 ∧ x.1 < s + w) :
    ∃ zs, (v.move s xs hs hxs hin).released = v.released ++ zs ∧ ∀ z ∈ zs, v.start ≤ z.1 := by
  refine ⟨(drain s xs).released, rfl, fun z hz => (hin z ?_).1⟩
  rw [← drain_append s xs]
  exact List.mem_append_left _ hz

theorem move_start_le (v : Window A w) (s b : ℤ) (xs : List (ℤ × A)) (hs : v.start ≤ s)
    (hxs : xs.Pairwise Before) (hin : ∀ x ∈ xs, v.start ≤ x.1 ∧ x.1 < s + w) (hb : s ≤ b)
    (hxb : ∀ x ∈ xs, x.1 < b) : (v.move s xs hs hxs hin).start ≤ b := by
  rcases drain_start_cases s xs with h | ⟨x,hx,h⟩
  · exact h.trans_le hb
  · exact h.trans_le (hxb x hx)

def shifted (w s p : ℤ) : ℤ :=
  if p = s then s + 1 else if s + w ≤ p then p + 1 - w else s

theorem le_shifted (s p : ℤ) : s ≤ shifted w s p := by
  unfold shifted
  split <;> [skip; split] <;> omega

theorem shifted_le {s p : ℤ} (hw : 0 ≤ w) (hp : s ≤ p) : shifted w s p ≤ p + 1 := by
  unfold shifted
  split <;> [skip; split] <;> omega

theorem shifted_lt {s p g : ℤ} (hw : 1 ≤ w) (hg : 1 < g) (hp : p < s + g) :
    shifted w s p < s + g := by
  unfold shifted
  split <;> [skip; split] <;> omega

theorem lt_shifted {s p q : ℤ} (hw : 0 ≤ w) (hq : q = p ∨ q < s + w) :
    q < shifted w s p + w := by
  unfold shifted
  split <;> [skip; split] <;> omega

theorem place_inside (v : Window A w) (hw : 0 ≤ w) (x : ℤ × A) (hx : v.start ≤ x.1) :
    ∀ y ∈ place x v.pending, v.start ≤ y.1 ∧ y.1 < shifted w v.start x.1 + w := by
  intro y hy
  rcases (mem_place x y v.pending).mp hy with rfl | hy
  · exact ⟨hx, lt_shifted hw (.inl rfl)⟩
  · exact ⟨(v.inside y hy).1, lt_shifted hw (.inr (v.inside y hy).2)⟩

def offer (v : Window A w) (hw : 0 ≤ w) (x : ℤ × A) (hx : v.start ≤ x.1)
    (hnew : ∀ y ∈ v.pending, y.1 ≠ x.1) : Window A w :=
  v.move (shifted w v.start x.1) (place x v.pending) (le_shifted _ _)
    (pairwise_place v.pending_increasing hnew) (v.place_inside hw x hx)

theorem total_offer (v : Window A w) (hw : 0 ≤ w) (x : ℤ × A) (hx : v.start ≤ x.1)
    (hnew : ∀ y ∈ v.pending, y.1 ≠ x.1) : (v.offer hw x hx hnew).total = place x v.total := by
  rw [offer, total_move, total, append_place]
  exact fun r hr => (v.behind r hr).trans_le hx

theorem offer_start_le (v : Window A w) (hw : 0 ≤ w) (x : ℤ × A) (hx : v.start ≤ x.1)
    (hnew : ∀ y ∈ v.pending, y.1 ≠ x.1) {b : ℤ} (hwb : w ≤ b) (hxb : x.1 < v.start + b) :
    (v.offer hw x hx hnew).start ≤ v.start + b := by
  refine move_start_le _ _ _ _ _ _ _ ((shifted_le hw hx).trans hxb) fun y hy => ?_
  rcases (mem_place x y v.pending).mp hy with rfl | hy
  · exact hxb
  · linarith [(v.inside y hy).2]

def front (s : ℤ) : List (ℤ × A) → ℤ
  | [] => s
  | x :: _ => x.1

theorem le_front (v : Window A w) : v.start ≤ front v.start v.pending := by
  cases h : v.pending with
  | nil => exact le_rfl
  | cons x xs => exact (v.inside x (by simp [h])).1

theorem front_lt (v : Window A w) (hw : 0 < w) : front v.start v.pending < v.start + w := by
  cases h : v.pending with
  | nil => simpa [front] using hw
  | cons x xs => exact (v.inside x (by simp [h])).2

theorem pending_inside (v : Window A w) :
    ∀ x ∈ v.pending, v.start ≤ x.1 ∧ x.1 < front v.start v.pending + w := fun x hx =>
  ⟨(v.inside x hx).1, by linarith [(v.inside x hx).2, v.le_front]⟩

def skip (v : Window A w) : Window A w :=
  v.move (front v.start v.pending) v.pending v.le_front v.pending_increasing v.pending_inside

theorem total_skip (v : Window A w) : v.skip.total = v.total :=
  total_move _ _ _ _ _ _

theorem skip_start_le (v : Window A w) (hw : 0 < w) : v.skip.start ≤ v.start + w :=
  move_start_le _ _ _ _ _ _ _ (v.front_lt hw).le fun x hx => (v.inside x hx).2

def advance (v : Window A w) (s : ℤ) (hs : v.start ≤ s) (hp : ∀ x ∈ v.pending, s ≤ x.1) :
    Window A w where
  start := s
  pending := v.pending
  released := v.released
  increasing := v.increasing
  inside := fun x hx => ⟨hp x hx, by linarith [(v.inside x hx).2]⟩
  behind := fun x hx => (v.behind x hx).trans_le hs

def Ahead (v : Window A w) : Prop := ∀ x ∈ v.pending, v.start < x.1

theorem ahead_move (v : Window A w) (s : ℤ) (xs : List (ℤ × A)) (hs : v.start ≤ s)
    (hxs : xs.Pairwise Before) (hin : ∀ x ∈ xs, v.start ≤ x.1 ∧ x.1 < s + w) :
    (v.move s xs hs hxs hin).Ahead :=
  drain_pending_ahead s hxs

def Tight (v : Window A w) : Prop :=
  v.total ≠ [] → ∃ x ∈ v.total, v.start ≤ x.1 + 1

theorem tight_move (v : Window A w) (s : ℤ) (xs : List (ℤ × A)) (hs : v.start ≤ s)
    (hxs : xs.Pairwise Before) (hin : ∀ x ∈ xs, v.start ≤ x.1 ∧ x.1 < s + w)
    (h : ∃ x ∈ xs, s ≤ x.1 + 1) : (v.move s xs hs hxs hin).Tight := by
  intro _
  rw [total_move]
  rcases drain_start_cases s xs with he | ⟨x,hx,he⟩
  · obtain ⟨x,hx,hsx⟩ := h
    exact ⟨x, by simp [hx], he.trans_le hsx⟩
  · exact ⟨x, by simp [hx], he.le⟩

theorem tight_offer (v : Window A w) (hw : 0 ≤ w) (x : ℤ × A) (hx : v.start ≤ x.1)
    (hnew : ∀ y ∈ v.pending, y.1 ≠ x.1) : (v.offer hw x hx hnew).Tight :=
  tight_move _ _ _ _ _ _ ⟨x, (mem_place x x v.pending).mpr (.inl rfl), shifted_le hw hx⟩

theorem tight_skip (v : Window A w) (h : v.Tight) : v.skip.Tight := by
  cases hp : v.pending with
  | nil =>
    intro hne
    have hstart : v.skip.start = v.start := by simp [skip, move, hp, front, drain]
    rw [total_skip] at hne ⊢
    rw [hstart]
    exact h hne
  | cons x xs => exact tight_move _ _ _ _ _ _ ⟨x, by simp [hp], by simp [hp, front]⟩

theorem linked_offer {g : ℤ} (v : Window A w) (hw : 0 ≤ w) (x : ℤ × A) (hx : v.start ≤ x.1)
    (hnew : ∀ y ∈ v.pending, y.1 ≠ x.1) (ht : v.Tight) (hc : v.total.IsChain (Linked g))
    (hwg : w ≤ g) (hxg : x.1 < v.start + g) : (v.offer hw x hx hnew).total.IsChain (Linked g) := by
  rw [total_offer]
  refine linked_place v.increasing hc (fun y hy hxy => ?_) (fun hne => ?_)
  · rcases List.mem_append.mp (List.mem_of_mem_head? hy) with hy | hy
    · exact absurd (v.behind y hy) (by omega)
    · have hlt := (v.inside y hy).2
      change y.1 ≤ x.1 + g
      omega
  · obtain ⟨y,hy,hsy⟩ := ht hne
    refine ⟨y, hy, ?_⟩
    change x.1 ≤ y.1 + g
    omega

inductive Offered (g : ℤ) (v : Window A w) (a : A) : Window A w → Prop where
  | refused : Offered g v a v
  | taken (p : ℤ) (hw : 0 ≤ w) (hx : v.start ≤ p) (hnew : ∀ y ∈ v.pending, y.1 ≠ p)
      (hnear : p < v.start + g) : Offered g v a (v.offer hw (p, a) hx hnew)

theorem le_offered_start {g : ℤ} {v v' : Window A w} {a : A} (h : Offered g v a v') :
    v.start ≤ v'.start := by
  cases h with
  | refused => exact le_rfl
  | taken p hw hx hnew _ => exact (le_shifted _ _).trans (le_drain_start _ _)

theorem offered_released {g : ℤ} {v v' : Window A w} {a : A} (h : Offered g v a v') :
    ∃ zs, v'.released = v.released ++ zs ∧ ∀ z ∈ zs, v.start ≤ z.1 := by
  cases h with
  | refused => exact ⟨[], by simp, by simp⟩
  | taken p hw hx hnew _ => exact move_released _ _ _ _ _ _

theorem ahead_offered {g : ℤ} {v v' : Window A w} {a : A} (h : Offered g v a v') (ha : v.Ahead) :
    v'.Ahead := by
  cases h with
  | refused => exact ha
  | taken p hw hx hnew _ => exact ahead_move _ _ _ _ _ _

theorem tight_offered {g : ℤ} {v v' : Window A w} {a : A} (h : Offered g v a v') (ht : v.Tight) :
    v'.Tight := by
  cases h with
  | refused => exact ht
  | taken p hw hx hnew _ => exact tight_offer v hw (p, a) hx hnew

theorem linked_offered {g : ℤ} {v v' : Window A w} {a : A} (h : Offered g v a v') (hwg : w ≤ g)
    (ht : v.Tight) (hc : v.total.IsChain (Linked g)) : v'.total.IsChain (Linked g) := by
  cases h with
  | refused => exact hc
  | taken p hw hx hnew hnear => exact linked_offer v hw (p, a) hx hnew ht hc hwg hnear

theorem subperm_offered {g : ℤ} {v v' : Window A w} {a : A} {as : List A}
    (h : Offered g v a v') (hsub : (v.total.map Prod.snd).Subperm as) :
    (v'.total.map Prod.snd).Subperm (as ++ [a]) := by
  cases h with
  | refused => exact hsub.trans (List.sublist_append_left as [a]).subperm
  | taken p hw hx hnew _ =>
    rw [total_offer]
    have hperm := (place_perm (p, a) v.total).map Prod.snd
    refine hperm.subperm_right.mpr ?_
    exact ((List.subperm_cons a).mpr hsub).trans (List.perm_append_singleton a as).symm.subperm

theorem offered_start_le {g : ℤ} {v v' : Window A w} {a : A} (h : Offered g v a v')
    (hg : 0 ≤ g) (hwg : w ≤ g) : v'.start ≤ v.start + g := by
  cases h with
  | refused => omega
  | taken p hw hx hnew hnear => exact offer_start_le v hw (p, a) hx hnew hwg hnear

end Window

end ReleaseWindow
