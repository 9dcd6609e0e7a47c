import Mathlib.Data.UInt
import Rtl8188fu.Lib.ByteMemory

namespace Ez

open ByteMemory

def strlen (m : Mem UInt8) : ℕ → ℕ → Option ℕ
  | 0, _ => none
  | fuel + 1, a => if m a = 0 then some 0 else (strlen m fuel (a + 1)).map (· + 1)

structure Sep where
  mem : Mem UInt8
  stringp : Option ℕ
  ret : Option ℕ

def sepLoop (delim esc : UInt8) (s : ℕ) : ℕ → Mem UInt8 → ℕ → Option Sep
  | 0, _, _ => none
  | fuel + 1, m, q =>
    if m q = 0 then some ⟨m, none, some s⟩
    else if m q = esc ∧ (m (q + 1) = esc ∨ m (q + 1) = delim) then
      (strlen m (fuel + 1) q).bind fun n =>
        sepLoop delim esc s fuel (write m q (read m (q + 1) n)) (q + 1)
    else if m q = delim then some ⟨write m q [0], some (q + 1), some s⟩
    else sepLoop delim esc s fuel m (q + 1)

def ezStrsep (fuel : ℕ) (m : Mem UInt8) (stringp : Option ℕ) (delim esc : UInt8) : Option Sep :=
  match stringp with
  | none => some ⟨m, none, none⟩
  | some s => if m s = 0 then some ⟨m, some s, none⟩ else sepLoop delim esc s fuel m s

def tokens (delim esc : UInt8) (fuel : ℕ) :
    ℕ → Mem UInt8 → Option ℕ → Option (List (List UInt8))
  | 0, _, _ => none
  | calls + 1, m, stringp =>
    (ezStrsep fuel m stringp delim esc).bind fun r =>
      match r.ret with
      | none => some []
      | some s =>
        (strlen r.mem fuel s).bind fun n =>
          (tokens delim esc fuel calls r.mem r.stringp).map (read r.mem s n :: ·)

def escapeChar (delim esc c : UInt8) : List UInt8 := if c = delim ∨ c = esc then [esc, c] else [c]

def escapeField (delim esc : UInt8) (field : List UInt8) : List UInt8 :=
  field.flatMap (escapeChar delim esc)

def escapeJoin (delim esc : UInt8) : List (List UInt8) → List UInt8
  | [] => []
  | [field] => escapeField delim esc field
  | field :: fields => escapeField delim esc field ++ delim :: escapeJoin delim esc fields

variable {delim esc c : UInt8} {m m' : Mem UInt8} {a q s fuel : ℕ} {field rest text : List UInt8}

theorem holds_head (h : Holds m a (c :: text)) : m a = c := h 0 (Nat.succ_pos _)

theorem holds_next (h : Holds m a (c :: text)) : Holds m (a + 1) text :=
  @Holds.right _ _ _ [c] text h

theorem holds_cons (hc : m a = c) (h : Holds m (a + 1) text) : Holds m a (c :: text) :=
  @Holds.append _ _ _ [c] text (fun i hi => by
    obtain rfl : i = 0 := by simpa using hi
    exact hc) h

theorem strlen_text (h : Holds m a (text ++ [0])) (hnul : 0 ∉ text) (hfuel : text.length < fuel) :
    strlen m fuel a = some text.length := by
  induction fuel generalizing a text with
  | zero => omega
  | succ fuel ih =>
    cases text with
    | nil => exact if_pos (holds_head h)
    | cons c text =>
      have hc : c ≠ 0 := fun hc => hnul (hc ▸ List.mem_cons_self)
      have htext : 0 ∉ text := fun hmem => hnul (List.mem_cons_of_mem c hmem)
      rw [strlen, holds_head h, if_neg hc,
        ih (holds_next h) htext (Nat.lt_of_succ_lt_succ hfuel)]
      rfl

theorem memmove_text (h : Holds m q (c :: text ++ [0])) :
    Holds (write m q (read m (q + 1) (c :: text).length)) q (text ++ [0]) := by
  have hread : read m (q + 1) (c :: text).length = text ++ [0] :=
    (holds_next h).read_eq (by simp)
  rw [hread]
  exact holds_write m q _

theorem sepLoop_nul (h : m q = 0) :
    sepLoop delim esc s (fuel + 1) m q = some ⟨m, none, some s⟩ := if_pos h

theorem sepLoop_delim (hne : delim ≠ esc) (hnul : delim ≠ 0) (h : m q = delim) :
    sepLoop delim esc s (fuel + 1) m q = some ⟨write m q [0], some (q + 1), some s⟩ := by
  rw [sepLoop, h, if_neg hnul, if_neg fun hesc => hne hesc.1, if_pos rfl]

theorem sepLoop_plain (hnul : m q ≠ 0) (hdelim : m q ≠ delim) (hesc : m q ≠ esc) :
    sepLoop delim esc s (fuel + 1) m q = sepLoop delim esc s fuel m (q + 1) := by
  rw [sepLoop, if_neg hnul, if_neg fun h => hesc h.1, if_neg hdelim]

theorem sepLoop_escaped (h : Holds m q (esc :: c :: text ++ [0])) (hnul : 0 ∉ esc :: c :: text)
    (hc : c = delim ∨ c = esc) (hfuel : (esc :: c :: text).length < fuel + 1) :
    ∃ m', sepLoop delim esc s (fuel + 1) m q = sepLoop delim esc s fuel m' (q + 1) ∧
      Holds m' q (c :: text ++ [0]) ∧ ∀ i < q, m' i = m i := by
  have hhead : m q ≠ 0 := by
    rw [holds_head h]
    exact fun hesc => hnul (hesc ▸ List.mem_cons_self)
  have hnext : m (q + 1) = esc ∨ m (q + 1) = delim := by
    rw [holds_head (holds_next h)]
    exact hc.symm
  refine ⟨write m q (read m (q + 1) (esc :: c :: text).length), ?_, memmove_text h, fun i hi => ?_⟩
  · rw [sepLoop, if_neg hhead, if_pos ⟨holds_head h, hnext⟩, strlen_text h hnul hfuel]
    rfl
  · exact write_below m _ hi

theorem escapeField_cons : escapeField delim esc (c :: field) ++ rest =
    escapeChar delim esc c ++ (escapeField delim esc field ++ rest) := by
  rw [escapeField, List.flatMap_cons, List.append_assoc]
  rfl

structure Scanned (m m' : Mem UInt8) (q : ℕ) (field : List UInt8) : Prop where
  token : Holds m' q field
  below : ∀ i < q, m' i = m i

theorem sepLoop_field (h : Holds m q (escapeField delim esc field ++ rest ++ [0]))
    (hnul : 0 ∉ escapeField delim esc field ++ rest)
    (hfuel : (escapeField delim esc field ++ rest).length < fuel) :
    ∃ m' fuel', sepLoop delim esc s fuel m q = sepLoop delim esc s fuel' m' (q + field.length) ∧
      rest.length < fuel' ∧ Scanned m m' q field ∧ Holds m' (q + field.length) (rest ++ [0]) := by
  induction field generalizing m q fuel with
  | nil => exact ⟨m, fuel, rfl, hfuel, ⟨fun i hi => absurd hi (Nat.not_lt_zero i), fun _ _ => rfl⟩, h⟩
  | cons c field ih =>
    obtain ⟨fuel, rfl⟩ : ∃ k, fuel = k + 1 := ⟨fuel - 1, by omega⟩
    rw [escapeField_cons] at h hnul hfuel
    have hstep : ∃ m1, sepLoop delim esc s (fuel + 1) m q = sepLoop delim esc s fuel m1 (q + 1) ∧
        Holds m1 q (c :: (escapeField delim esc field ++ rest) ++ [0]) ∧ (∀ i < q, m1 i = m i) := by
      unfold escapeChar at h hnul hfuel
      split at h
      · rename_i hc
        rw [if_pos hc] at hnul hfuel
        exact sepLoop_escaped h hnul hc hfuel
      · rename_i hc
        rw [if_neg hc] at hnul
        have hhead := holds_head h
        obtain ⟨hdelim, hesc⟩ := not_or.mp hc
        have hne : c ≠ 0 := fun hc => hnul (hc ▸ List.mem_cons_self)
        exact ⟨m, sepLoop_plain (hhead ▸ hne) (hhead ▸ hdelim) (hhead ▸ hesc), h, fun _ _ => rfl⟩
    obtain ⟨m1, hone, hheld, hbelow⟩ := hstep
    have hsub : 0 ∉ escapeField delim esc field ++ rest := fun hmem =>
      hnul (List.mem_append_right _ hmem)
    have hless : (escapeField delim esc field ++ rest).length < fuel := by
      have hpos : 0 < (escapeChar delim esc c).length := by
        unfold escapeChar
        split <;> exact Nat.succ_pos _
      rw [List.length_append] at hfuel
      omega
    obtain ⟨m', fuel', hrun, hleft, hscan, hrest⟩ := ih (holds_next hheld) hsub hless
    have hplace : q + (c :: field).length = q + 1 + field.length := by
      rw [List.length_cons]
      omega
    rw [hplace]
    refine ⟨m', fuel', hone.trans hrun, hleft, ⟨holds_cons ?_ hscan.token, fun i hi => ?_⟩, hrest⟩
    · rw [hscan.below q (Nat.lt_succ_self q)]
      exact holds_head hheld
    · rw [hscan.below i (by omega), hbelow i hi]

theorem mem_escapeField (h : c ∈ field) : c ∈ escapeField delim esc field := by
  refine List.mem_flatMap.mpr ⟨c, h, ?_⟩
  unfold escapeChar
  split <;> simp

theorem length_escapeField (delim esc : UInt8) (field : List UInt8) :
    field.length ≤ (escapeField delim esc field).length := by
  induction field with
  | nil => exact Nat.le_refl _
  | cons c field ih =>
    have hpos : 0 < (escapeChar delim esc c).length := by
      unfold escapeChar
      split <;> exact Nat.succ_pos _
    have hsplit := congrArg List.length (@escapeField_cons delim esc c field [])
    simp only [List.append_nil, List.length_append] at hsplit
    rw [hsplit, List.length_cons]
    omega

theorem ezStrsep_some (h : Holds m a (text ++ [0])) (hnul : 0 ∉ text) (hne : text ≠ []) :
    ezStrsep fuel m (some a) delim esc = sepLoop delim esc a fuel m a := by
  cases text with
  | nil => exact absurd rfl hne
  | cons c text =>
    refine if_neg ?_
    rw [holds_head h]
    exact fun hc => hnul (hc ▸ List.mem_cons_self)

structure Separated (delim esc : UInt8) (fuel : ℕ) (m : Mem UInt8) (a : ℕ) (field : List UInt8)
    (r : Sep) : Prop where
  call : ezStrsep fuel m (some a) delim esc = some r
  ret : r.ret = some a
  token : Holds r.mem a (field ++ [0])

theorem separated_last (h : Holds m a (escapeField delim esc field ++ [0])) (hfield : field ≠ [])
    (hnul : 0 ∉ escapeField delim esc field) (hfuel : (escapeField delim esc field).length < fuel) :
    ∃ r, Separated delim esc fuel m a field r ∧ r.stringp = none := by
  have hne : escapeField delim esc field ≠ [] := by
    intro hnil
    have hle := length_escapeField delim esc field
    rw [hnil] at hle
    exact hfield (List.length_eq_zero_iff.mp (Nat.le_zero.mp hle))
  have hcall := @ezStrsep_some delim esc m a fuel _ h hnul hne
  obtain ⟨m', fuel', hrun, hleft, hscan, hrest⟩ := @sepLoop_field delim esc m a a fuel field []
    (by rwa [List.append_nil]) (by rwa [List.append_nil]) (by rwa [List.append_nil])
  obtain ⟨k, rfl⟩ : ∃ k, fuel' = k + 1 := ⟨fuel' - 1, by omega⟩
  rw [sepLoop_nul (holds_head hrest)] at hrun
  exact ⟨_, ⟨hcall.trans hrun, rfl, hscan.token.append hrest⟩, rfl⟩

theorem separated_next (hne : delim ≠ esc)
    (h : Holds m a (escapeField delim esc field ++ delim :: text ++ [0]))
    (hnul : 0 ∉ escapeField delim esc field ++ delim :: text)
    (hfuel : (escapeField delim esc field ++ delim :: text).length < fuel) :
    ∃ r, Separated delim esc fuel m a field r ∧ r.stringp = some (a + field.length + 1) ∧
      Holds r.mem (a + field.length + 1) (text ++ [0]) := by
  have hcall := @ezStrsep_some delim esc m a fuel _ h hnul (by simp)
  have hdelim : delim ≠ 0 := fun hd => hnul (List.mem_append_right _ (hd ▸ List.mem_cons_self))
  obtain ⟨m', fuel', hrun, hleft, hscan, hrest⟩ := @sepLoop_field delim esc m a a fuel _ _ h hnul hfuel
  obtain ⟨k, rfl⟩ : ∃ k, fuel' = k + 1 := ⟨fuel' - 1, by omega⟩
  rw [sepLoop_delim hne hdelim (holds_head hrest)] at hrun
  refine ⟨_, ⟨hcall.trans hrun, rfl, hscan.token.write_end rfl⟩, rfl, ?_⟩
  exact (holds_next hrest).write_before (Nat.le_refl _)

theorem tokens_separated {r : Sep} {calls : ℕ} (h : Separated delim esc fuel m a field r)
    (hnul : 0 ∉ field) (hfuel : field.length < fuel) :
    tokens delim esc fuel (calls + 1) m (some a) =
      (tokens delim esc fuel calls r.mem r.stringp).map (field :: ·) := by
  rw [tokens, h.call]
  simp only [Option.bind_some, h.ret, strlen_text h.token hnul hfuel, h.token.left.read]

theorem strsep_inverts_join {fields : List (List UInt8)} {calls : ℕ} (hne : delim ≠ esc)
    (hlast : ∃ field ∈ fields.getLast?, field ≠ [])
    (h : Holds m a (escapeJoin delim esc fields ++ [0])) (hnul : 0 ∉ escapeJoin delim esc fields)
    (hfuel : (escapeJoin delim esc fields).length < fuel) (hcalls : fields.length < calls) :
    tokens delim esc fuel calls m (some a) = some fields := by
  induction fields generalizing m a calls with
  | nil =>
    obtain ⟨_, hnone, _⟩ := hlast
    cases hnone
  | cons field fields ih =>
    obtain ⟨calls, rfl⟩ : ∃ k, calls = k + 1 := ⟨calls - 1, by omega⟩
    have hlen := length_escapeField delim esc field
    cases fields with
    | nil =>
      obtain ⟨_, hsome, hfield⟩ := hlast
      cases hsome
      obtain ⟨r, hsep, hnull⟩ := separated_last h hfield hnul hfuel
      have hless : (escapeField delim esc field).length < fuel := hfuel
      rw [tokens_separated hsep (fun hmem => hnul (mem_escapeField hmem)) (by omega), hnull]
      obtain ⟨k, rfl⟩ : ∃ k, calls = k + 1 := ⟨calls - 1, by
        rw [List.length_singleton] at hcalls
        omega⟩
      rfl
    | cons f fs =>
      obtain ⟨r, hsep, hnext, hrest⟩ := separated_next hne h hnul hfuel
      have hless : (escapeField delim esc field ++
        delim :: escapeJoin delim esc (f :: fs)).length < fuel := hfuel
      rw [List.length_append, List.length_cons] at hless
      have hsub : 0 ∉ escapeField delim esc field ++ delim :: escapeJoin delim esc (f :: fs) := hnul
      rw [tokens_separated hsep
        (fun hmem => hsub (List.mem_append_left _ (mem_escapeField hmem))) (by omega), hnext]
      rw [ih (by rwa [List.getLast?_cons_cons] at hlast) hrest
        (fun hmem => hsub (List.mem_append_right _ (List.mem_cons_of_mem _ hmem))) (by omega)
        (Nat.lt_of_succ_lt_succ hcalls)]
      rfl

theorem strsep_inverts_join_three :
    tokens 58 47 9 4 (write (fun _ => 7) 3 (escapeJoin 58 47 [[97, 58], [], [47]] ++ [0])) (some 3) =
      some [[97, 58], [], [47]] :=
  strsep_inverts_join (by decide) ⟨[47], rfl, by decide⟩ (holds_write _ _ _) (by decide) (by decide)
    (by decide)

theorem nul_delimiter_truncates :
    ¬ ∀ (delim esc : UInt8) (fields : List (List UInt8)) (m : Mem UInt8) (a fuel calls : ℕ),
      delim ≠ esc → (∀ field ∈ fields, 0 ∉ field) → (∃ field ∈ fields.getLast?, field ≠ []) →
      Holds m a (escapeJoin delim esc fields ++ [0]) →
      (escapeJoin delim esc fields).length < fuel → fields.length < calls →
      tokens delim esc fuel calls m (some a) = some fields := by
  intro h
  have hrun := h 0 47 [[97], [98]] (write (fun _ => 0) 0 [97, 0, 98, 0]) 0 4 3 (by decide)
    (by decide) ⟨[98], rfl, by decide⟩ (holds_write _ _ _) (by decide) (by decide)
  exact absurd hrun (by decide)

end Ez
