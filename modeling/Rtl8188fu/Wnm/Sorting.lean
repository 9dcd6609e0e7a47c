import Rtl8188fu.Wnm.NbReport

namespace Wnm

variable {c : WnmBtmCant} {cs : List WnmBtmCant} {best : UInt8} {pos j n : ℕ}

theorem bestPos_spec (best : UInt8) (pos j : ℕ) (cs : List WnmBtmCant) :
    (bestPos best pos j cs = pos ∧ ∀ d ∈ cs, d.preference ≤ best) ∨
      ∃ k, ∃ h : k < cs.length, bestPos best pos j cs = j + k ∧ best < cs[k].preference ∧
        ∀ d ∈ cs, d.preference ≤ cs[k].preference := by
  induction cs generalizing best pos j with
  | nil => exact .inl ⟨rfl, fun d hd => absurd hd List.not_mem_nil⟩
  | cons c cs ih =>
    rw [bestPos]
    cases Decidable.em (best < c.preference) with
    | inl hlt =>
      rw [if_pos hlt]
      rcases ih c.preference j (j + 1) with ⟨hpos, hmax⟩ | ⟨k, hk, hpos, hbetter, hmax⟩
      · refine .inr ⟨0, Nat.succ_pos _, hpos, hlt, fun d hd => ?_⟩
        cases List.mem_cons.mp hd with
        | inl heq =>
          rw [heq]
          exact UInt8.le_refl _
        | inr hd => exact hmax d hd
      · refine .inr ⟨k + 1, Nat.succ_lt_succ hk, ?_, UInt8.lt_trans hlt hbetter, fun d hd => ?_⟩
        · rw [hpos]
          omega
        · cases List.mem_cons.mp hd with
          | inl heq =>
            rw [heq]
            exact UInt8.le_of_lt hbetter
          | inr hd => exact hmax d hd
    | inr hge =>
      rw [if_neg hge]
      rcases ih best pos (j + 1) with ⟨hpos, hmax⟩ | ⟨k, hk, hpos, hbetter, hmax⟩
      · refine .inl ⟨hpos, fun d hd => ?_⟩
        cases List.mem_cons.mp hd with
        | inl heq =>
          rw [heq]
          exact UInt8.not_lt.mp hge
        | inr hd => exact hmax d hd
      · refine .inr ⟨k + 1, Nat.succ_lt_succ hk, ?_, hbetter, fun d hd => ?_⟩
        · rw [hpos]
          omega
        · cases List.mem_cons.mp hd with
          | inl heq =>
            rw [heq]
            exact UInt8.le_trans (UInt8.not_lt.mp hge) (UInt8.le_of_lt hbetter)
          | inr hd => exact hmax d hd

theorem swap_perm (c : WnmBtmCant) {k : ℕ} (h : k < cs.length) :
    (cs[k] :: cs.set k c).Perm (c :: cs) := by
  have hsplit : cs = cs.take k ++ cs[k] :: cs.drop (k + 1) := by
    rw [List.cons_getElem_drop_succ, List.take_append_drop]
  have hset : cs.set k c = cs.take k ++ c :: cs.drop (k + 1) := List.set_eq_take_cons_drop c h
  rw [hset]
  refine ((List.perm_middle.cons _).trans (List.Perm.swap _ _ _)).trans (List.Perm.cons _ ?_)
  conv_rhs => rw [hsplit]
  exact List.perm_middle.symm

theorem rtwWnmCandidatesSorting_perm (n : ℕ) (cs : List WnmBtmCant) :
    (rtwWnmCandidatesSorting n cs).Perm cs := by
  induction n generalizing cs with
  | zero =>
    cases cs with
    | nil => rfl
    | cons c cs => rfl
  | succ n ih =>
    cases cs with
    | nil => rfl
    | cons c cs =>
      rw [rtwWnmCandidatesSorting]
      rcases bestPos_spec c.preference 0 1 cs with ⟨hpos, -⟩ | ⟨k, hk, hpos, -, -⟩
      · rw [hpos]
        exact (ih cs).cons c
      · rw [hpos, Nat.add_comm 1 k]
        have hget : cs.getD k c = cs[k] := by
          rw [List.getD_eq_getElem?_getD, List.getElem?_eq_getElem hk, Option.getD_some]
        simp only [hget]
        exact ((ih (cs.set k c)).cons _).trans (swap_perm c hk)

theorem rtwWnmCandidatesSorting_sorted (hn : cs.length ≤ n + 1) :
    (rtwWnmCandidatesSorting n cs).Pairwise fun c d => d.preference ≤ c.preference := by
  induction n generalizing cs with
  | zero =>
    match cs with
    | [] => exact List.Pairwise.nil
    | [c] => exact List.pairwise_singleton _ c
    | _ :: _ :: _ =>
      rw [List.length_cons, List.length_cons] at hn
      omega
  | succ n ih =>
    cases cs with
    | nil => exact List.Pairwise.nil
    | cons c cs =>
      rw [List.length_cons] at hn
      rw [rtwWnmCandidatesSorting]
      rcases bestPos_spec c.preference 0 1 cs with ⟨hpos, hmax⟩ | ⟨k, hk, hpos, hbetter, hmax⟩
      · rw [hpos]
        refine List.pairwise_cons.mpr ⟨fun d hd => ?_, ih (by omega)⟩
        exact hmax d ((rtwWnmCandidatesSorting_perm n cs).mem_iff.mp hd)
      · rw [hpos, Nat.add_comm 1 k]
        have hget : cs.getD k c = cs[k] := by
          rw [List.getD_eq_getElem?_getD, List.getElem?_eq_getElem hk, Option.getD_some]
        simp only [hget]
        refine List.pairwise_cons.mpr ⟨fun d hd => ?_, ih (by rw [List.length_set]; omega)⟩
        have hmem := (rtwWnmCandidatesSorting_perm n (cs.set k c)).mem_iff.mp hd
        cases List.mem_or_eq_of_mem_set hmem with
        | inl hd => exact hmax d hd
        | inr heq =>
          rw [heq]
          exact UInt8.le_of_lt hbetter

def nbChannelList (l : ChList) : List ℕ := l.slots.take l.num

structure ChInv (room done : ℕ) (seen : List UInt8) (l : ChList) : Prop where
  slots : l.slots.length = room
  few : l.num ≤ done
  free : ∀ c ∈ l.slots.drop l.num, c = 0
  nodup : (nbChannelList l).Nodup
  mem : ∀ c, c ∈ nbChannelList l ↔ c ≠ 0 ∧ ∃ ch ∈ seen, ch.toNat = c

theorem chInv_init (room : ℕ) : ChInv room 0 [] ⟨List.replicate room 0, 0⟩ where
  slots := List.length_replicate
  few := Nat.le_refl 0
  free := fun _ hc => List.eq_of_mem_replicate hc
  nodup := List.nodup_nil
  mem := fun _ => iff_of_false List.not_mem_nil fun h => by
    obtain ⟨-, ch, hch, -⟩ := h
    exact absurd hch List.not_mem_nil

theorem ChInv.mem_take {room done : ℕ} {seen : List UInt8} {l : ChList}
    (h : ChInv room done seen l) {entries c : ℕ} (hc : c ≠ 0) (hentries : done ≤ entries) :
    c ∈ l.slots.take entries ↔ c ∈ nbChannelList l := by
  have hfew := h.few
  have hsplit : l.slots.take entries =
      nbChannelList l ++ (l.slots.drop l.num).take (entries - l.num) := by
    conv_lhs => rw [show entries = l.num + (entries - l.num) by omega]
    exact List.take_add
  rw [hsplit, List.mem_append]
  exact or_iff_left fun hfree => hc (h.free c (List.mem_of_mem_take hfree))

theorem ChInv.addChannel {room done : ℕ} {seen : List UInt8} {l : ChList}
    (h : ChInv room done seen l) {entries : ℕ} (hentries : done ≤ entries) (hroom : done < room)
    (ch : UInt8) : ChInv room (done + 1) (seen ++ [ch]) (addChannel entries l ch) := by
  have hmore (c : ℕ) : (∃ d ∈ seen ++ [ch], d.toNat = c) ↔ (∃ d ∈ seen, d.toNat = c) ∨ ch.toNat = c := by
    simp only [List.mem_append, List.mem_singleton, or_and_right, exists_or, exists_eq_left]
  have hfew := h.few
  rw [Wnm.addChannel]
  cases Decidable.em (ch = 0) with
  | inl hzero =>
    rw [if_pos hzero]
    refine ⟨h.slots, by omega, h.free, h.nodup, fun c => ?_⟩
    rw [hmore, h.mem]
    refine and_congr_right fun hc => (or_iff_left ?_).symm
    rintro rfl
    exact hc (congrArg UInt8.toNat hzero)
  | inr hne =>
    have hnonzero : ch.toNat ≠ 0 := fun heq => hne (UInt8.toNat_inj.mp heq)
    rw [if_neg hne]
    cases Decidable.em (ch.toNat ∈ l.slots.take entries) with
    | inl hin =>
      have hold := ((h.mem _).mp ((h.mem_take hnonzero hentries).mp hin)).2
      rw [if_pos hin]
      refine ⟨h.slots, by omega, h.free, h.nodup, fun c => ?_⟩
      rw [hmore, h.mem]
      refine and_congr_right fun _ => (or_iff_left_of_imp ?_).symm
      rintro rfl
      exact hold
    | inr hout =>
      have hnew := fun hmem => hout ((h.mem_take hnonzero hentries).mpr hmem)
      have hslot : l.num < l.slots.length := by
        rw [h.slots]
        omega
      have hlist : nbChannelList ⟨l.slots.set l.num ch.toNat, l.num + 1⟩ =
          nbChannelList l ++ [ch.toNat] := by
        rw [nbChannelList, nbChannelList, List.take_add_one, List.take_set_of_le (Nat.le_refl _),
          List.getElem?_set_self hslot]
        rfl
      rw [if_neg hout]
      refine ⟨by rw [List.length_set, h.slots], Nat.succ_le_succ hfew, fun c hc => ?_, ?_, fun c => ?_⟩
      · rw [List.drop_set_of_lt (Nat.lt_succ_self _)] at hc
        refine h.free c ?_
        have htail : c ∈ (l.slots.drop l.num).drop 1 := by rwa [List.drop_drop]
        exact List.mem_of_mem_drop htail
      · rw [hlist, List.nodup_append]
        refine ⟨h.nodup, List.nodup_singleton _, fun c hc d hd heq => ?_⟩
        rw [List.mem_singleton.mp hd] at heq
        exact hnew (heq ▸ hc)
      · rw [hlist, List.mem_append, h.mem, hmore, List.mem_singleton, and_or_left]
        refine or_congr_right ⟨fun heq => ?_, fun heq => heq.2.symm⟩
        subst heq
        exact ⟨hnonzero, rfl⟩

theorem nbChannels_spec {room : ℕ} {rpts : List NbRptHdr} (hroom : rpts.length ≤ room) :
    ChInv room rpts.length (rpts.map NbRptHdr.chNum) (nbChannels (List.replicate room 0) rpts) := by
  have hgo (todo seen : List UInt8) (l : ChList) (h : ChInv room seen.length seen l)
      (hsize : seen.length + todo.length = rpts.length) :
      ChInv room rpts.length (seen ++ todo) (todo.foldl (addChannel rpts.length) l) := by
    induction todo generalizing seen l with
    | nil =>
      rw [List.length_nil, Nat.add_zero] at hsize
      rw [List.append_nil, ← hsize]
      exact h
    | cons ch todo ih =>
      rw [List.length_cons] at hsize
      have hseen : seen.length ≤ rpts.length := by omega
      have hstep := h.addChannel hseen (by omega) ch
      have hlen : (seen ++ [ch]).length = seen.length + 1 := List.length_append
      have hrun := ih (seen ++ [ch]) (addChannel rpts.length l ch) (by rwa [hlen])
        (by rw [hlen]; omega)
      rwa [List.append_assoc] at hrun
  refine hgo _ [] _ (chInv_init room) ?_
  rw [List.length_map, List.length_nil, Nat.zero_add]

end Wnm
